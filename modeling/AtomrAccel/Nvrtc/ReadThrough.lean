import AtomrAccel.Lib.Numeral
import AtomrAccel.Nvrtc.Cache

/-!
# `NvrtcCache`: memory and disk

One handle of the cache over a run of `insert`, `get` and `clear_in_memory`.  The file is the
authority and the map in memory should only save reads of it: `get` compares the version of what it
reads from the file, and promotes what it accepts.  `insert` puts its value into the map as it is,
so an entry of another version is served hot and refused cold.

* `insert`, `insert_spec`, `clearInMemory`: the remaining operations of the cache;
* `Insertion.run_alone`: `insert` is what the system calls of a single writer amount to;
* `Disk`: what a read of the file gives; `entryPath_injective`: every key has a file of its own;
* `Request`, `Handle`, `Bincode.step`: runs on one handle;
* `Coherent`: hot and cold reads agree;
* `coherent_iff`: they do along a run exactly when every value inserted is of the running version.
-/

namespace AtomrAccel

namespace Nvrtc

/-! ### File names -/

theorem toList_hex16 (n : UInt64) : (hex16 n).toList = Numeral.padded 16 n.toNat :=
  String.toList_ofList

theorem length_hex16 (n : UInt64) : (hex16 n).toList.length = 16 := by
  rw [toList_hex16]
  exact Numeral.length_padded (by omega) n.toNat_lt

theorem hex16_injective : Function.Injective hex16 := by
  intro n m h
  have hvalue := congrArg (fun s : String => Numeral.ofHex s.toList) h
  simp only [toList_hex16, Numeral.ofHex_padded] at hvalue
  exact UInt64.toNat_inj.1 hvalue

namespace NvrtcCache

theorem toList_entryPath (cache : NvrtcCache) (key : NvrtcCacheKey) :
    (cache.entryPath key).toList = cache.dir.toList ++ ("/".toList ++
      ((hex16 key.sourceHash).toList ++ ("-".toList ++ (toString key.arch.toNat).toList ++
        ("-".toList ++ (hex16 key.optionsHash).toList ++ ".bin".toList)))) := by
  simp only [entryPath, String.toList_append, List.append_assoc]

/-- Every key has a file of its own. -/
theorem entryPath_injective (cache : NvrtcCache) : Function.Injective cache.entryPath := by
  rintro ⟨source, arch, options⟩ ⟨source', arch', options'⟩ h
  have hlist := congrArg String.toList h
  rw [toList_entryPath, toList_entryPath] at hlist
  have hname := List.append_cancel_left (List.append_cancel_left hlist)
  obtain ⟨hsource, hrest⟩ := List.append_inj hname (by rw [length_hex16, length_hex16])
  -- the last part has a fixed length as well, so the decimal number between them is determined
  obtain ⟨harch, htail⟩ := List.append_inj' hrest (by
    simp only [List.length_append, length_hex16])
  have hoptions := List.append_cancel_left (List.append_cancel_right htail)
  obtain rfl : source = source' := hex16_injective (String.toList_inj.1 hsource)
  obtain rfl : options = options' := hex16_injective (String.toList_inj.1 hoptions)
  obtain rfl : arch = arch' := UInt32.toNat_inj.1
    (Numeral.toString_injective (String.toList_inj.1 (List.append_cancel_left harch)))
  rfl

/-- No entry is taken for a temporary file. -/
theorem entryPath_ne_tmpPath_of_any (cache : NvrtcCache) (key key' : NvrtcCacheKey) :
    cache.entryPath key ≠ cache.tmpPath key' := by
  intro h
  have hlist := congrArg String.toList h
  rw [tmpPath, String.toList_append, toList_entryPath] at hlist
  simp only [← List.append_assoc] at hlist
  have hlen : ".bin".toList.length = ".tmp".toList.length := by decide
  have hext : ".bin".toList = ".tmp".toList := (List.append_inj' hlist hlen).2
  exact absurd hext (by decide)

/-! ### The operations -/

/-- Write a temporary file and rename it into place, then remember the value. -/
def insert (bincode : Bincode) (cache : NvrtcCache) (fs : FileSystem String) (key : NvrtcCacheKey)
    (value : CachedKernel) : (NvrtcCache × FileSystem String) × Except GpuError Unit :=
  let created := fs.create (cache.tmpPath key)
  let written := created.1.writeAt created.2 0 (bincode.serialize value)
  match written.rename (cache.tmpPath key) (cache.entryPath key) with
  | some fs => ((cache.remember key value, fs), .ok ())
  | none =>
    ((cache, written.unlink (cache.tmpPath key)),
      .error (.unrecoverable ("NvrtcCache: rename " ++ cache.tmpPath key ++ " -> " ++
        cache.entryPath key ++ ": No such file or directory (os error 2)")))

/-- The map in memory is emptied. -/
def clearInMemory (cache : NvrtcCache) : NvrtcCache := { cache with memory := fun _ => none }

/-- What a read of the entry's file gives. -/
def Disk (bincode : Bincode) (cache : NvrtcCache) (fs : FileSystem String) (key : NvrtcCacheKey) :
    Option CachedKernel :=
  (fs.read (cache.entryPath key)).bind fun bytes =>
    (bincode.deserialize bytes).bind fun entry =>
      if entry.atomrAccelVersion ≠ cargoPkgVersion then none else some entry

section Spec

variable {bincode : Bincode} {cache : NvrtcCache} {fs : FileSystem String}
  {key : NvrtcCacheKey} {value : CachedKernel}

/-- The rename finds the file just written. -/
theorem rename_isSome (bincode : Bincode) (cache : NvrtcCache) (fs : FileSystem String)
    (key : NvrtcCacheKey) (value : CachedKernel) : ∃ fs',
      ((fs.create (cache.tmpPath key)).1.writeAt (fs.create (cache.tmpPath key)).2 0
        (bincode.serialize value)).rename (cache.tmpPath key) (cache.entryPath key) = some fs' := by
  have hcreated : (fs.create (cache.tmpPath key)).1.entries (cache.tmpPath key) =
      some (fs.create (cache.tmpPath key)).2 := FileSystem.create_entries_self
  apply Option.ne_none_iff_exists'.1
  intro hnone
  have hgone := FileSystem.rename_eq_none.1 hnone
  cases hcreated.symm.trans hgone

theorem insert_of_rename {fs' : FileSystem String}
    (h : ((fs.create (cache.tmpPath key)).1.writeAt (fs.create (cache.tmpPath key)).2 0
      (bincode.serialize value)).rename (cache.tmpPath key) (cache.entryPath key) = some fs') :
    cache.insert bincode fs key value = ((cache.remember key value, fs'), .ok ()) := by
  unfold insert
  dsimp only
  rw [h]

/-- An insert on one handle succeeds.  It replaces the entry's file, and no other entry's. -/
theorem insert_spec (bincode : Bincode) (cache : NvrtcCache) (fs : FileSystem String)
    (key : NvrtcCacheKey) (value : CachedKernel) : ∃ fs',
      cache.insert bincode fs key value = ((cache.remember key value, fs'), .ok ()) ∧
      fs'.read (cache.entryPath key) = some (bincode.serialize value) ∧
      ∀ key', key' ≠ key → fs'.read (cache.entryPath key') = fs.read (cache.entryPath key') := by
  have hcreated : (fs.create (cache.tmpPath key)).1.entries (cache.tmpPath key) =
      some (fs.create (cache.tmpPath key)).2 := FileSystem.create_entries_self
  have hwritten : ((fs.create (cache.tmpPath key)).1.writeAt (fs.create (cache.tmpPath key)).2 0
      (bincode.serialize value)).contents (fs.create (cache.tmpPath key)).2 =
        bincode.serialize value := by
    rw [FileSystem.writeAt_contents_self, FileSystem.create_contents_self]
    simp [FileSystem.overlay]
  obtain ⟨fs', hrename⟩ := rename_isSome bincode cache fs key value
  obtain ⟨i, hi, hentry, -, hcontents⟩ :=
    FileSystem.rename_spec hrename (cache.entryPath_ne_tmpPath key).symm
  obtain rfl : _ = i := Option.some.inj (hcreated.symm.trans hi)
  refine ⟨fs', insert_of_rename hrename, ?_, ?_⟩
  · rw [FileSystem.read_of_entries hentry, hcontents, hwritten]
  · intro key' hne
    have hentry' : cache.entryPath key' ≠ cache.entryPath key :=
      fun h => hne (cache.entryPath_injective h)
    have htmp := cache.entryPath_ne_tmpPath_of_any key' key
    rw [FileSystem.rename_read_of_ne hrename htmp hentry',
      FileSystem.writeAt, FileSystem.store_read_of_ne hcreated htmp,
      FileSystem.create_read_of_ne htmp]

/-- A read is served from memory, or else from the file. -/
theorem get_snd (bincode : Bincode) (cache : NvrtcCache) (fs : FileSystem String)
    (key : NvrtcCacheKey) : (cache.get bincode fs key).2 =
      (cache.memory key).or (cache.Disk bincode fs key) :=
  get_reads bincode cache fs key

/-- A read leaves the handle as it was, or promotes what the file gives. -/
theorem get_fst (bincode : Bincode) (cache : NvrtcCache) (fs : FileSystem String)
    (key : NvrtcCacheKey) : (cache.get bincode fs key).1 = cache ∨
      ∃ entry, cache.Disk bincode fs key = some entry ∧
        (cache.get bincode fs key).1 = cache.remember key entry := by
  unfold get Disk
  cases cache.memory key with
  | some hit => exact .inl rfl
  | none =>
    cases fs.read (cache.entryPath key) with
    | none => exact .inl rfl
    | some bytes =>
      dsimp only [Option.bind_some]
      cases bincode.deserialize bytes with
      | none => exact .inl rfl
      | some entry =>
        dsimp only [Option.bind_some]
        split_ifs
        · exact .inl rfl
        · exact .inr ⟨entry, rfl, rfl⟩

theorem get_clearInMemory : (cache.clearInMemory.get bincode fs key).2 =
    cache.Disk bincode fs key := by
  rw [get_snd]
  rfl

/-- What a file gives is of the running version. -/
theorem version_of_disk {entry : CachedKernel} (h : cache.Disk bincode fs key = some entry) :
    entry.atomrAccelVersion = cargoPkgVersion := by
  obtain ⟨bytes, -, hbytes⟩ := Option.bind_eq_some_iff.1 h
  obtain ⟨decoded, -, hdecoded⟩ := Option.bind_eq_some_iff.1 hbytes
  split_ifs at hdecoded with hversion
  cases hdecoded
  exact not_not.1 hversion

/-- Memory does not matter to the file. -/
@[simp] theorem disk_remember (cache : NvrtcCache) (key' : NvrtcCacheKey) :
    (cache.remember key' value).Disk bincode fs key = cache.Disk bincode fs key := rfl

/-- A read changes no file. -/
theorem disk_get (key' : NvrtcCacheKey) :
    (cache.get bincode fs key).1.Disk bincode fs key' = cache.Disk bincode fs key' := by
  rcases get_fst bincode cache fs key with hsame | ⟨entry, -, hnew⟩
  · rw [hsame]
  · rw [hnew, disk_remember]

/-- An insert of the running version replaces what the entry's file gives. -/
theorem disk_insert (hdecodes : bincode.deserialize (bincode.serialize value) = some value)
    (hversion : value.atomrAccelVersion = cargoPkgVersion) (key' : NvrtcCacheKey) :
    (cache.insert bincode fs key value).1.1.Disk bincode (cache.insert bincode fs key value).1.2
        key' = if key' = key then some value else cache.Disk bincode fs key' := by
  obtain ⟨fs', hinsert, hread, hsame⟩ := insert_spec bincode cache fs key value
  rw [hinsert, disk_remember]
  by_cases hkey : key' = key
  · rw [if_pos hkey, hkey]
    simp [Disk, hread, hdecodes, hversion]
  · rw [if_neg hkey, Disk, hsame key' hkey]
    rfl

end Spec

end NvrtcCache

/-- A writer that is alone on the directory does what `insert` does, one system call at a time. -/
theorem Insertion.run_alone (job : Insertion) (fs : FileSystem String)
    (memory : NvrtcCacheKey → Option CachedKernel) (hbytes : job.bytes ≠ []) :
    (job.system fs fun _ : Unit => memory).run (job.system fs fun _ => memory).init
      [.create (), .write () job.bytes.length, .sync (), .rename ()] =
    let r := NvrtcCache.insert job.bincode ⟨job.dir, memory⟩ fs job.key job.value
    some ⟨r.1.2, fun _ => r.1.1.memory, fun _ => .returned r.2⟩ := by
  have hlen : 0 < job.bytes.length := List.length_pos_iff.2 hbytes
  have hupdate : ∀ {α : Type} (x y : α), Function.update (fun _ : Unit => x) () y = fun _ => y := by
    intro α x y
    funext u
    exact Function.update_self _ _ _
  obtain ⟨fs', hrename⟩ : ∃ fs', ((fs.create job.tmpPath).1.writeAt (fs.create job.tmpPath).2 0
      job.bytes).rename job.tmpPath job.finalPath = some fs' :=
    NvrtcCache.rename_isSome job.bincode ⟨job.dir, memory⟩ fs job.key job.value
  have hinsert : NvrtcCache.insert job.bincode ⟨job.dir, memory⟩ fs job.key job.value =
      ((NvrtcCache.remember ⟨job.dir, memory⟩ job.key job.value, fs'), .ok ()) :=
    NvrtcCache.insert_of_rename hrename
  rw [hinsert]
  simp [Transition.System.run, Insertion.system, Insertion.step, hlen, hrename, hupdate,
    NvrtcCache.remember]

/-! ### Runs on one handle -/

/-- The calls of a user of the cache. -/
inductive Request
  | insert (key : NvrtcCacheKey) (value : CachedKernel)
  | get (key : NvrtcCacheKey)
  | clearInMemory

/-- A handle and the directory it reads and writes. -/
structure Handle where
  cache : NvrtcCache
  fs : FileSystem String

/-- The inserted value is of the running version. -/
def Request.Current : Request → Prop
  | .insert _ value => value.atomrAccelVersion = cargoPkgVersion
  | .get _ | .clearInMemory => True

namespace Bincode

variable (bincode : Bincode)

/-- One call on the cache. -/
def step (s : Handle) : Request → Option Handle
  | .insert key value =>
    let r := (s.cache.insert bincode s.fs key value).1
    some ⟨r.1, r.2⟩
  | .get key => some { s with cache := (s.cache.get bincode s.fs key).1 }
  | .clearInMemory => some { s with cache := s.cache.clearInMemory }

/-- A fresh handle on a directory in any state. -/
def system (dir : String) (fs : FileSystem String) : Transition.System Handle Request where
  init := ⟨NvrtcCache.withDir dir, fs⟩
  step := bincode.step

/-- The codec decodes what it encoded for this request. -/
def Decodes : Request → Prop
  | .insert _ value => bincode.deserialize (bincode.serialize value) = some value
  | .get _ | .clearInMemory => True

/-- Hot and cold reads agree: clearing the memory changes no read, whatever a read returns is of
the running version, and the memory is a restriction of what the files give. -/
structure Coherent (s : Handle) : Prop where
  get_eq : ∀ key, (s.cache.get bincode s.fs key).2 = (s.cache.clearInMemory.get bincode s.fs key).2
  version : ∀ key entry, (s.cache.get bincode s.fs key).2 = some entry →
    entry.atomrAccelVersion = cargoPkgVersion
  restriction : ∀ key entry, s.cache.memory key = some entry →
    s.cache.Disk bincode s.fs key = some entry

variable {bincode} {s s' : Handle} {l : Request} {ls : List Request}

/-- The last clause of coherence gives the others. -/
theorem coherent_of_restriction (h : ∀ key entry, s.cache.memory key = some entry →
    s.cache.Disk bincode s.fs key = some entry) : bincode.Coherent s := by
  have hread : ∀ key, (s.cache.get bincode s.fs key).2 = s.cache.Disk bincode s.fs key := by
    intro key
    rw [NvrtcCache.get_snd]
    cases hhot : s.cache.memory key with
    | none => rfl
    | some entry => rw [h key entry hhot, Option.some_or]
  refine ⟨?_, ?_, h⟩
  · intro key
    rw [hread, NvrtcCache.get_clearInMemory]
  · intro key entry hentry
    rw [hread] at hentry
    exact NvrtcCache.version_of_disk hentry

/-- What is remembered agrees with the files when the new entry does and the old ones still do. -/
theorem coherent_remember {cache : NvrtcCache} {fs : FileSystem String} {key : NvrtcCacheKey}
    {value : CachedKernel} (hnew : cache.Disk bincode fs key = some value)
    (hold : ∀ key' entry, key' ≠ key → cache.memory key' = some entry →
      cache.Disk bincode fs key' = some entry) :
    bincode.Coherent ⟨cache.remember key value, fs⟩ := by
  apply coherent_of_restriction
  intro key' entry hentry
  rw [NvrtcCache.disk_remember]
  by_cases hkey : key' = key
  · subst hkey
    obtain rfl : value = entry := by
      simpa [NvrtcCache.remember] using hentry
    exact hnew
  · refine hold key' entry hkey ?_
    simpa [NvrtcCache.remember, Function.update_of_ne hkey] using hentry

/-- One request whose value, if it has one, is of the running version. -/
theorem Coherent.step (h : bincode.Coherent s) (hdecodes : bincode.Decodes l)
    (hl : l.Current) (hs : bincode.step s l = some s') : bincode.Coherent s' := by
  cases l with
  | insert key value =>
    obtain ⟨fs, hinsert, hread, hsame⟩ := NvrtcCache.insert_spec bincode s.cache s.fs key value
    simp only [Bincode.step, hinsert, Option.some.injEq] at hs
    subst hs
    apply coherent_remember
    · have hvalue : bincode.deserialize (bincode.serialize value) = some value := hdecodes
      have hversion : value.atomrAccelVersion = cargoPkgVersion := hl
      simp [NvrtcCache.Disk, hread, hvalue, hversion]
    · intro key' entry hkey hentry
      have hdisk := h.restriction key' entry hentry
      rwa [NvrtcCache.Disk, hsame key' hkey]
  | get key =>
    simp only [Bincode.step, Option.some.injEq] at hs
    subst hs
    rcases NvrtcCache.get_fst bincode s.cache s.fs key with hsame | ⟨found, hfound, hnew⟩
    · rwa [hsame]
    · rw [hnew]
      exact coherent_remember hfound fun key' entry _ => h.restriction key' entry
  | clearInMemory =>
    simp only [Bincode.step, Option.some.injEq] at hs
    subst hs
    exact coherent_of_restriction fun _ _ hentry => nomatch hentry

/-- Right after an insert its value is served hot, and a coherent handle serves the running version
only. -/
theorem current_of_coherent (hs : bincode.step s l = some s') (h : bincode.Coherent s') :
    l.Current := by
  cases l with
  | insert key value =>
    obtain ⟨fs, hinsert, -, -⟩ := NvrtcCache.insert_spec bincode s.cache s.fs key value
    simp only [Bincode.step, hinsert, Option.some.injEq] at hs
    subst hs
    refine h.version key value ?_
    rw [NvrtcCache.get_snd]
    simp [NvrtcCache.remember]
  | get key => trivial
  | clearInMemory => trivial

/-- Every request can be served, so a condition on the requests that is met holds of each. -/
theorem forall_of_meets {dir : String} {fs : FileSystem String} {C : Request → Prop} {s : Handle}
    (h : (bincode.system dir fs).Meets (fun _ => C) s ls) : ∀ l ∈ ls, C l := by
  induction ls generalizing s with
  | nil => exact nofun
  | cons l ls ih =>
    obtain ⟨s', hs'⟩ : ∃ s', bincode.step s l = some s' := by
      cases l <;> exact ⟨_, rfl⟩
    obtain ⟨hl, hls⟩ := h s' hs'
    exact List.forall_mem_cons.2 ⟨hl, ih hls⟩

/-- Over any run on a fresh handle, hot and cold reads agree in every state exactly when every
inserted value carries the running version. -/
theorem coherent_iff (bincode : Bincode) (dir : String) (fs : FileSystem String)
    (ls : List Request) (hdecodes : ∀ l ∈ ls, bincode.Decodes l) :
    (bincode.system dir fs).Along bincode.Coherent (bincode.system dir fs).init ls ↔
      ∀ l ∈ ls, l.Current := by
  constructor
  · intro halong
    refine forall_of_meets
      (Transition.System.meets_of_along (I := fun _ => True) ?_ ?_ trivial halong)
    · intro s l s' _ hs hcoherent
      exact current_of_coherent hs hcoherent
    · intro s l s' _ _ _
      trivial
  · intro hcurrent
    have hinit : bincode.Coherent (bincode.system dir fs).init :=
      coherent_of_restriction fun _ _ hentry => nomatch hentry
    refine Transition.System.along_of_meets (fun _ h => h)
      (fun s l s' h hl hs => Coherent.step h hl.1 hl.2 hs) hinit
      (Transition.System.meets_of_forall (Q := fun l => bincode.Decodes l ∧ l.Current) ?_)
    intro l hl
    exact ⟨hdecodes l hl, hcurrent l hl⟩

end Bincode

/-- The entry is inserted, read hot, and read again after a clear. -/
theorem sample_coherent :
    (sampleInsertion.bincode.system "nvrtc" .empty).Along sampleInsertion.bincode.Coherent
      (sampleInsertion.bincode.system "nvrtc" .empty).init
      [.insert sampleInsertion.key sampleInsertion.value, .get sampleInsertion.key,
        .clearInMemory, .get sampleInsertion.key] := by
  refine (sampleInsertion.bincode.coherent_iff "nvrtc" .empty _ ?_).2 ?_
  · simp only [List.forall_mem_cons, Bincode.Decodes, true_and]
    exact ⟨rfl, nofun⟩
  · simp only [List.forall_mem_cons, Request.Current, true_and]
    exact ⟨rfl, nofun⟩

/-- An entry of another version, with its encoding. -/
def staleKernel : CachedKernel := ⟨[0xaa], none, "0.0.0"⟩

def staleBincode : Bincode where
  serialize _ := [1, 0, 0, 0, 0, 0, 0, 0, 0xaa, 0, 5, 0, 0, 0, 0, 0, 0, 0, 48, 46, 48, 46, 48]
  deserialize bytes :=
    if bytes = [1, 0, 0, 0, 0, 0, 0, 0, 0xaa, 0, 5, 0, 0, 0, 0, 0, 0, 0, 48, 46, 48, 46, 48]
    then some staleKernel else none

/-- An entry of another version is served hot, and nothing is served cold. -/
theorem stale_insert_served_hot :
    ¬ ∀ ls : List Request, (∀ l ∈ ls, staleBincode.Decodes l) →
      (staleBincode.system "nvrtc" .empty).Along staleBincode.Coherent
        (staleBincode.system "nvrtc" .empty).init ls := by
  intro h
  have halong := h [.insert ⟨11, 80, 22⟩ staleKernel] (by
    simp only [List.forall_mem_cons, Bincode.Decodes]
    exact ⟨rfl, nofun⟩)
  have hcurrent : (Request.insert ⟨11, 80, 22⟩ staleKernel).Current :=
    Bincode.current_of_coherent (s := (staleBincode.system "nvrtc" .empty).init) rfl
      (halong.2 _ rfl)
  exact absurd (show staleKernel.atomrAccelVersion = cargoPkgVersion from hcurrent) (by decide)

end Nvrtc

end AtomrAccel
