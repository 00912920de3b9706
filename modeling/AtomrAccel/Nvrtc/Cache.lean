import AtomrAccel.Lib.Transition
import AtomrAccel.Lib.FileSystem
import AtomrAccel.Device.Error

/-!
# `NvrtcCache`: concurrent inserts

A compiled kernel is kept in a file named after its key.  `insert` writes a temporary file beside
it and renames it into place, so that a reader sees an old entry or a new one.  Every writer of one
key uses the same temporary name, though: a second `create` truncates the file of a writer that has
not renamed it yet, and of two writers that have both created it only one finds it to rename.

* `NvrtcCacheKey`, `CachedKernel`, `Bincode`, `NvrtcCache.get`: the cache and its entries;
* `Insertion`, `Phase`, `Writers`, `step`, `Calls`: any number of writers inserting one value, one
  system call at a time;
* `Benign`: what a fresh cache reads is nothing or the value;
* `NoOverlap`, `inserts_benign_iff`: all writers succeed and every reader is served exactly when no
  writer creates the temporary file between another's `create` and `rename`.
-/

namespace AtomrAccel

namespace Nvrtc

/-- A key of the cache. -/
structure NvrtcCacheKey where
  sourceHash : UInt64
  arch : UInt32
  optionsHash : UInt64
  deriving DecidableEq, Repr

/-- What is cached, with the version that has written it. -/
structure CachedKernel where
  ptx : List UInt8
  cubin : Option (List UInt8)
  atomrAccelVersion : String
  deriving DecidableEq, Repr

/-- `env!("CARGO_PKG_VERSION")`. -/
def cargoPkgVersion : String := "0.10.0"

/-- A kernel with the present version. -/
def CachedKernel.new (ptx : List UInt8) (cubin : Option (List UInt8)) : CachedKernel :=
  ⟨ptx, cubin, cargoPkgVersion⟩

/-- The codec of the entries. -/
structure Bincode where
  serialize : CachedKernel → List UInt8
  deserialize : List UInt8 → Option CachedKernel

/-- `{:016x}`. -/
def hex16 (n : UInt64) : String :=
  let digits := Nat.toDigits 16 n.toNat
  String.ofList (List.replicate (16 - digits.length) '0' ++ digits)

/-- The cache: a directory, and a map in memory. -/
structure NvrtcCache where
  dir : String
  memory : NvrtcCacheKey → Option CachedKernel

namespace NvrtcCache

/-- A fresh handle on a directory. -/
def withDir (path : String) : NvrtcCache := ⟨path, fun _ => none⟩

/-- The file of a key. -/
def entryPath (cache : NvrtcCache) (key : NvrtcCacheKey) : String :=
  cache.dir ++ "/" ++ hex16 key.sourceHash ++ "-" ++ toString key.arch.toNat ++ "-" ++
    hex16 key.optionsHash ++ ".bin"

/-- `with_extension("bin.tmp")` of the entry's path, whose extension is `bin`. -/
def tmpPath (cache : NvrtcCache) (key : NvrtcCacheKey) : String := cache.entryPath key ++ ".tmp"

/-- `memory.write().insert(key, value)`. -/
def remember (cache : NvrtcCache) (key : NvrtcCacheKey) (value : CachedKernel) : NvrtcCache :=
  { cache with memory := Function.update cache.memory key (some value) }

/-- Memory first, then the file; an entry of another version is rejected. -/
def get (bincode : Bincode) (cache : NvrtcCache) (fs : FileSystem String) (key : NvrtcCacheKey) :
    NvrtcCache × Option CachedKernel :=
  match cache.memory key with
  | some hit => (cache, some hit)
  | none =>
    match fs.read (cache.entryPath key) with
    | none => (cache, none)
    | some bytes =>
      match bincode.deserialize bytes with
      | none => (cache, none)
      | some entry =>
        if entry.atomrAccelVersion ≠ cargoPkgVersion then (cache, none)
        else (cache.remember key entry, some entry)

/-- A read is served from memory, or else from the file. -/
theorem get_reads (bincode : Bincode) (cache : NvrtcCache) (fs : FileSystem String)
    (key : NvrtcCacheKey) : (cache.get bincode fs key).2 =
      (cache.memory key).or ((fs.read (cache.entryPath key)).bind fun bytes =>
        (bincode.deserialize bytes).bind fun entry =>
          if entry.atomrAccelVersion ≠ cargoPkgVersion then none else some entry) := by
  unfold get
  cases cache.memory key with
  | some hit => rfl
  | none =>
    cases fs.read (cache.entryPath key) with
    | none => rfl
    | some bytes =>
      dsimp only [Option.bind_some]
      cases bincode.deserialize bytes with
      | none => rfl
      | some entry =>
        dsimp only [Option.bind_some]
        split_ifs <;> rfl

/-- What a fresh handle reads. -/
theorem get_withDir (bincode : Bincode) (path : String) (fs : FileSystem String)
    (key : NvrtcCacheKey) : ((withDir path).get bincode fs key).2 =
      (fs.read ((withDir path).entryPath key)).bind fun bytes =>
        (bincode.deserialize bytes).bind fun entry =>
          if entry.atomrAccelVersion ≠ cargoPkgVersion then none else some entry := by
  have hcold : (withDir path).memory key = none := rfl
  rw [get_reads, hcold, Option.none_or]

theorem entryPath_ne_tmpPath (cache : NvrtcCache) (key : NvrtcCacheKey) :
    cache.entryPath key ≠ cache.tmpPath key := by
  intro h
  have hlen := congrArg String.length h
  rw [tmpPath, String.length_append] at hlen
  have htmp : ".tmp".length = 4 := by decide
  omega

end NvrtcCache

/-! ### Writers, one system call at a time -/

/-- What is inserted, and where.  The codec decodes what it encoded. -/
structure Insertion where
  bincode : Bincode
  dir : String
  key : NvrtcCacheKey
  value : CachedKernel
  decodes : bincode.deserialize (bincode.serialize value) = some value

/-- How far `insert` has come: before `create`, writing with the open file at an offset, ready to
rename, after a failed rename, or returned. -/
inductive Phase
  | idle
  | writing (file offset : ℕ)
  | synced
  | cleaning
  | returned (result : Except GpuError Unit)

/-- Between `create` and `rename`. -/
def Phase.Inside : Phase → Prop
  | .writing _ _ | .synced => True
  | .idle | .cleaning | .returned _ => False

instance : DecidablePred Phase.Inside := fun p =>
  match p with
  | .writing _ _ | .synced => isTrue trivial
  | .idle | .cleaning | .returned _ => isFalse id

/-- One for a writer that has not created the file yet, and one for a writer that has succeeded. -/
def Phase.cost : Phase → ℕ
  | .idle => 1
  | .writing _ _ | .synced | .cleaning => 0
  | .returned (.ok ()) => 1
  | .returned (.error _) => 0

/-- The directory, and for each writer its handle's memory and how far it has come. -/
structure Writers (W : Type) where
  fs : FileSystem String
  memory : W → NvrtcCacheKey → Option CachedKernel
  phase : W → Phase

/-- The calls to the file system of writers `W`. -/
inductive Call (W : Type)
  | create (w : W)
  | write (w : W) (n : ℕ)
  | sync (w : W)
  | rename (w : W)
  | removeTmp (w : W)

namespace Insertion

variable (job : Insertion)

/-- What a writer writes. -/
def bytes : List UInt8 := job.bincode.serialize job.value

/-- The file a writer renames to. -/
def finalPath : String := (NvrtcCache.withDir job.dir).entryPath job.key

/-- The file a writer writes first. -/
def tmpPath : String := (NvrtcCache.withDir job.dir).tmpPath job.key

/-- A rename whose source is gone. -/
def renameFailed : GpuError :=
  .unrecoverable ("NvrtcCache: rename " ++ job.tmpPath ++ " -> " ++ job.finalPath ++
    ": No such file or directory (os error 2)")

variable {W : Type} [DecidableEq W]

/-- One system call of one writer.  `write_all` may take several `write`s, each of some bytes. -/
def step (s : Writers W) : Call W → Option (Writers W)
  | .create w =>
    match s.phase w with
    | .idle =>
      let r := s.fs.create job.tmpPath
      some { s with fs := r.1, phase := Function.update s.phase w (.writing r.2 0) }
    | _ => none
  | .write w n =>
    match s.phase w with
    | .writing file offset =>
      if 0 < n ∧ offset + n ≤ job.bytes.length then
        some { s with
          fs := s.fs.writeAt file offset ((job.bytes.drop offset).take n)
          phase := Function.update s.phase w (.writing file (offset + n)) }
      else none
    | _ => none
  | .sync w =>
    match s.phase w with
    | .writing _ offset =>
      if offset = job.bytes.length then
        some { s with phase := Function.update s.phase w .synced }
      else none
    | _ => none
  | .rename w =>
    match s.phase w with
    | .synced =>
      match s.fs.rename job.tmpPath job.finalPath with
      | some fs =>
        some {
          fs := fs
          memory := Function.update s.memory w
            (Function.update (s.memory w) job.key (some job.value))
          phase := Function.update s.phase w (.returned (.ok ())) }
      | none => some { s with phase := Function.update s.phase w .cleaning }
    | _ => none
  | .removeTmp w =>
    match s.phase w with
    | .cleaning =>
      some { s with
        fs := s.fs.unlink job.tmpPath
        phase := Function.update s.phase w (.returned (.error job.renameFailed)) }
    | _ => none

/-- The calls by their outcomes. -/
inductive Calls (s : Writers W) : Call W → Writers W → Prop
  | create {w : W} (h : s.phase w = .idle) : Calls s (.create w) { s with
      fs := (s.fs.create job.tmpPath).1
      phase := Function.update s.phase w (.writing (s.fs.create job.tmpPath).2 0) }
  | write {w : W} {n file offset : ℕ} (h : s.phase w = .writing file offset)
      (hn : offset + n ≤ job.bytes.length) : Calls s (.write w n) { s with
      fs := s.fs.writeAt file offset ((job.bytes.drop offset).take n)
      phase := Function.update s.phase w (.writing file (offset + n)) }
  | sync {w : W} {file : ℕ} (h : s.phase w = .writing file job.bytes.length) :
      Calls s (.sync w) { s with phase := Function.update s.phase w .synced }
  | rename {w : W} {fs : FileSystem String} (h : s.phase w = .synced)
      (hrename : s.fs.rename job.tmpPath job.finalPath = some fs) : Calls s (.rename w) {
      fs := fs
      memory := Function.update s.memory w (Function.update (s.memory w) job.key (some job.value))
      phase := Function.update s.phase w (.returned (.ok ())) }
  | renameGone {w : W} (h : s.phase w = .synced)
      (hrename : s.fs.rename job.tmpPath job.finalPath = none) :
      Calls s (.rename w) { s with phase := Function.update s.phase w .cleaning }
  | removeTmp {w : W} (h : s.phase w = .cleaning) : Calls s (.removeTmp w) { s with
      fs := s.fs.unlink job.tmpPath
      phase := Function.update s.phase w (.returned (.error job.renameFailed)) }

theorem calls_of_step {job : Insertion} {s s' : Writers W} {l : Call W}
    (hs : job.step s l = some s') : job.Calls s l s' := by
  cases l with
  | create w =>
    simp only [step] at hs
    split at hs
    · cases hs
      exact .create ‹_›
    · cases hs
  | write w n =>
    simp only [step] at hs
    split at hs
    · rename_i file offset hphase
      split_ifs at hs with hn
      cases hs
      exact .write hphase hn.2
    · cases hs
  | sync w =>
    simp only [step] at hs
    split at hs
    · rename_i file offset hphase
      split_ifs at hs with hend
      cases hs
      exact .sync (hend ▸ hphase)
    · cases hs
  | rename w =>
    simp only [step] at hs
    split at hs
    · rename_i hphase
      split at hs
      · rename_i fs hrename
        cases hs
        exact .rename hphase hrename
      · rename_i hrename
        cases hs
        exact .renameGone hphase hrename
    · cases hs
  | removeTmp w =>
    simp only [step] at hs
    split at hs
    · cases hs
      exact .removeTmp ‹_›
    · cases hs

/-- Writers that have not started, on a directory in any state. -/
def system (fs : FileSystem String) (memory : W → NvrtcCacheKey → Option CachedKernel) :
    Transition.System (Writers W) (Call W) where
  init := ⟨fs, memory, fun _ => .idle⟩
  step := job.step

/-- A fresh cache reads nothing or the value. -/
def Benign (fs : FileSystem String) : Prop :=
  ((NvrtcCache.withDir job.dir).get job.bincode fs job.key).2 = none ∨
    ((NvrtcCache.withDir job.dir).get job.bincode fs job.key).2 = some job.value

/-- A writer creates the temporary file while no other is between its `create` and `rename`. -/
def NoOverlap (s : Writers W) : Call W → Prop
  | .create w => ∀ w', w' ≠ w → ¬ (s.phase w').Inside
  | .write _ _ | .sync _ | .rename _ | .removeTmp _ => True

/-! ### Runs without overlap -/

/-- What a writer knows of the directory while no other is inside: the temporary name leads to its
own file, which holds what it has written. -/
def Holds (fs : FileSystem String) : Phase → Prop
  | .idle => True
  | .writing file offset =>
    fs.entries job.tmpPath = some file ∧ fs.contents file = job.bytes.take offset ∧
      offset ≤ job.bytes.length
  | .synced => ∃ file, fs.entries job.tmpPath = some file ∧ fs.contents file = job.bytes
  | .cleaning => False
  | .returned result => result = .ok ()

/-- The invariant of runs without overlap. -/
structure Orderly (s : Writers W) : Prop where
  benign : job.Benign s.fs
  holds : ∀ w, job.Holds s.fs (s.phase w)
  alone : ∀ w w', (s.phase w).Inside → (s.phase w').Inside → w = w'

section Orderly

variable {job} {fs fs' : FileSystem String} {s s' : Writers W} {w : W}

theorem tmpPath_ne_finalPath : job.finalPath ≠ job.tmpPath :=
  NvrtcCache.entryPath_ne_tmpPath _ _

/-- Only the final name matters to readers. -/
theorem Benign.of_read_eq (h : job.Benign fs)
    (hread : fs'.read job.finalPath = fs.read job.finalPath) : job.Benign fs' := by
  unfold Benign at h ⊢
  rw [NvrtcCache.get_withDir] at h ⊢
  rwa [show fs'.read ((NvrtcCache.withDir job.dir).entryPath job.key) =
    fs.read ((NvrtcCache.withDir job.dir).entryPath job.key) from hread]

/-- A complete entry is served, unless it has another version. -/
theorem benign_of_read (hread : fs.read job.finalPath = some job.bytes) : job.Benign fs := by
  have hdecode : job.bincode.deserialize job.bytes = some job.value := job.decodes
  unfold Benign
  rw [NvrtcCache.get_withDir,
    show fs.read ((NvrtcCache.withDir job.dir).entryPath job.key) = some job.bytes from hread,
    Option.bind_some, hdecode, Option.bind_some]
  split_ifs
  · exact .inl rfl
  · exact .inr rfl

/-- Writers that are not inside know nothing of the directory. -/
theorem Holds.of_not_inside {p : Phase} (h : job.Holds fs p) (hp : ¬ p.Inside) :
    job.Holds fs' p := by
  cases p with
  | idle => trivial
  | writing file offset => exact absurd trivial hp
  | synced => exact absurd trivial hp
  | cleaning => exact h
  | returned result => exact h

/-- One writer moves while no other is inside. -/
theorem Orderly.move {memory : W → NvrtcCacheKey → Option CachedKernel} {p : Phase}
    (h : job.Orderly s) (hothers : ∀ w', w' ≠ w → ¬ (s.phase w').Inside)
    (hbenign : job.Benign fs) (hp : job.Holds fs p) :
    job.Orderly ⟨fs, memory, Function.update s.phase w p⟩ where
  benign := hbenign
  holds w' := by
    by_cases hw : w' = w
    · subst hw
      simpa using hp
    · simpa [Function.update_of_ne hw] using (h.holds w').of_not_inside (hothers w' hw)
  alone w₁ w₂ h₁ h₂ := by
    have honly : ∀ w', (Function.update s.phase w p w').Inside → w' = w := by
      intro w' hinside
      by_contra hw
      rw [Function.update_of_ne hw] at hinside
      exact hothers w' hw hinside
    rw [honly w₁ h₁, honly w₂ h₂]

omit [DecidableEq W] in
theorem Orderly.others (h : job.Orderly s) (hw : (s.phase w).Inside) :
    ∀ w', w' ≠ w → ¬ (s.phase w').Inside :=
  fun w' hne hw' => hne (h.alone w' w hw' hw)

theorem orderly_create (h : job.Orderly s) (hothers : ∀ w', w' ≠ w → ¬ (s.phase w').Inside) :
    job.Orderly { s with
      fs := (s.fs.create job.tmpPath).1
      phase := Function.update s.phase w (.writing (s.fs.create job.tmpPath).2 0) } := by
  refine h.move hothers ?_ ?_
  · exact h.benign.of_read_eq (FileSystem.create_read_of_ne tmpPath_ne_finalPath)
  · exact ⟨FileSystem.create_entries_self, FileSystem.create_contents_self, Nat.zero_le _⟩

theorem orderly_write {file offset n : ℕ} (h : job.Orderly s)
    (hphase : s.phase w = .writing file offset) (hn : offset + n ≤ job.bytes.length) :
    job.Orderly { s with
      fs := s.fs.writeAt file offset ((job.bytes.drop offset).take n)
      phase := Function.update s.phase w (.writing file (offset + n)) } := by
  obtain ⟨hentry, hcontents, hoff⟩ : job.Holds s.fs (.writing file offset) := hphase ▸ h.holds w
  refine h.move (h.others (by rw [hphase]; trivial)) ?_ ⟨hentry, ?_, hn⟩
  · exact h.benign.of_read_eq (FileSystem.store_read_of_ne hentry tmpPath_ne_finalPath)
  · rw [FileSystem.writeAt_contents_self, hcontents, FileSystem.overlay_take hoff]

theorem orderly_sync {file : ℕ} (h : job.Orderly s)
    (hphase : s.phase w = .writing file job.bytes.length) :
    job.Orderly { s with phase := Function.update s.phase w .synced } := by
  obtain ⟨hentry, hcontents, -⟩ : job.Holds s.fs (.writing file job.bytes.length) :=
    hphase ▸ h.holds w
  refine h.move (h.others (by rw [hphase]; trivial)) h.benign ⟨file, hentry, ?_⟩
  rw [hcontents, List.take_length]

/-- The rename finds the writer's own, complete file. -/
theorem orderly_rename (memory : W → NvrtcCacheKey → Option CachedKernel) (h : job.Orderly s)
    (hphase : s.phase w = .synced) :
    ∃ fs, s.fs.rename job.tmpPath job.finalPath = some fs ∧
      job.Orderly ⟨fs, memory, Function.update s.phase w (.returned (.ok ()))⟩ := by
  obtain ⟨file, hentry, hcontents⟩ : job.Holds s.fs .synced := hphase ▸ h.holds w
  cases hrename : s.fs.rename job.tmpPath job.finalPath with
  | none =>
    rw [FileSystem.rename_eq_none, hentry] at hrename
    cases hrename
  | some fs =>
    obtain ⟨i, hi, hfinal, -, hsame⟩ :=
      FileSystem.rename_spec hrename tmpPath_ne_finalPath.symm
    obtain rfl : file = i := Option.some.inj (hentry.symm.trans hi)
    refine ⟨fs, rfl, h.move (h.others (by rw [hphase]; trivial)) (benign_of_read ?_) rfl⟩
    rw [FileSystem.read_of_entries hfinal, hsame, hcontents]

/-- One call that does not overlap another writer keeps the invariant. -/
theorem Orderly.step {l : Call W} (h : job.Orderly s) (hl : NoOverlap s l)
    (hs : job.step s l = some s') : job.Orderly s' := by
  cases calls_of_step hs with
  | create hphase => exact orderly_create h hl
  | write hphase hn => exact orderly_write h hphase hn
  | sync hphase => exact orderly_sync h hphase
  | rename hphase hrename =>
    obtain ⟨fs, hrename', horderly⟩ := orderly_rename _ h hphase
    obtain rfl := Option.some.inj (hrename.symm.trans hrename')
    exact horderly
  | renameGone hphase hrename =>
    obtain ⟨fs, hrename', -⟩ := orderly_rename s.memory h hphase
    cases hrename.symm.trans hrename'
  | @removeTmp w hphase =>
    have hholds := h.holds w
    rw [hphase] at hholds
    exact hholds.elim

end Orderly

/-! ### Overlapping creates -/

/-- The writers that may still succeed or have succeeded, and the temporary file. -/
def budget [Fintype W] (s : Writers W) : ℕ :=
  (∑ w, (s.phase w).cost) + if s.fs.entries job.tmpPath = none then 0 else 1

section Budget

variable [Fintype W] {job} {s s' t : Writers W} {w : W}

theorem sum_cost_update (phase : W → Phase) (w : W) (p : Phase) :
    ∑ w', (Function.update phase w p w').cost + (phase w).cost =
      ∑ w', (phase w').cost + p.cost := by
  have hcomp : (fun w' => (Function.update phase w p w').cost) =
      Function.update (fun w' => (phase w').cost) w p.cost :=
    Function.comp_update Phase.cost phase w p
  rw [hcomp, Finset.sum_update_of_mem (Finset.mem_univ w), ← Finset.add_sum_erase _ _
    (Finset.mem_univ w), Finset.sdiff_singleton_eq_erase]
  ring

/-- One writer changes phase; the temporary file may come or go. -/
theorem budget_move {fs : FileSystem String} {p : Phase}
    {memory : W → NvrtcCacheKey → Option CachedKernel}
    (h : p.cost + (if fs.entries job.tmpPath = none then 0 else 1) ≤
      (s.phase w).cost + if s.fs.entries job.tmpPath = none then 0 else 1) :
    job.budget ⟨fs, memory, Function.update s.phase w p⟩ ≤ job.budget s := by
  have hsum := sum_cost_update s.phase w p
  unfold budget
  dsimp only
  omega

/-- No call raises the budget. -/
theorem budget_step_le {l : Call W} (hs : job.step s l = some s') :
    job.budget s' ≤ job.budget s := by
  cases calls_of_step hs with
  | create hphase =>
    apply budget_move
    rw [hphase]
    split_ifs <;> simp [Phase.cost]
  | write hphase hn =>
    apply budget_move
    rw [hphase]
    rfl
  | sync hphase =>
    apply budget_move
    rw [hphase]
    rfl
  | rename hphase hrename =>
    obtain ⟨i, hi, -, hgone, -⟩ := FileSystem.rename_spec hrename tmpPath_ne_finalPath.symm
    apply budget_move
    simp [hphase, hi, hgone, Phase.cost]
  | renameGone hphase hrename =>
    apply budget_move
    rw [hphase]
    rfl
  | removeTmp hphase =>
    apply budget_move
    simp [hphase, Phase.cost, FileSystem.unlink]

/-- A create beside a writer that is inside leaves less than one for each writer. -/
theorem budget_lt_of_overlap {l : Call W} (hs : job.step s l = some s') (hl : ¬ NoOverlap s l) :
    job.budget s' < Fintype.card W := by
  cases calls_of_step hs with
  | @create w hphase =>
    obtain ⟨w', hne, hinside⟩ : ∃ w', w' ≠ w ∧ (s.phase w').Inside := by
      simpa [NoOverlap] using hl
    have hcost : ∀ x, (Function.update s.phase w
        (.writing (s.fs.create job.tmpPath).2 0) x).cost +
        ((if x = w then 1 else 0) + if x = w' then 1 else 0) ≤ 1 := by
      intro x
      by_cases hx : x = w
      · subst hx
        simp [Phase.cost, hne.symm]
      · rw [Function.update_of_ne hx, if_neg hx]
        by_cases hx' : x = w'
        · subst hx'
          cases hphase : s.phase x <;> simp_all [Phase.cost, Phase.Inside]
        · rw [if_neg hx']
          unfold Phase.cost
          split <;> simp
    have hsum := Finset.sum_le_sum fun x (_ : x ∈ Finset.univ) => hcost x
    simp only [Finset.sum_add_distrib, Finset.sum_ite_eq', Finset.mem_univ, if_true,
      Finset.sum_const, Finset.card_univ, smul_eq_mul, mul_one] at hsum
    unfold budget
    dsimp only
    split_ifs <;> omega
  | write | sync | rename | renameGone | removeTmp => exact absurd trivial hl

omit [DecidableEq W] in
/-- When every writer has succeeded, one is left for each. -/
theorem card_le_budget (h : ∀ w, t.phase w = .returned (.ok ())) :
    Fintype.card W ≤ job.budget t := by
  have hsum : ∑ w, (t.phase w).cost = Fintype.card W := by
    simp [h, Phase.cost]
  unfold budget
  omega

/-- Writers that all succeed have not overlapped. -/
theorem noOverlap_of_ok {fs : FileSystem String} {memory : W → NvrtcCacheKey → Option CachedKernel}
    {ls : List (Call W)} (hrun : (job.system fs memory).run s ls = some t)
    (hok : ∀ w, t.phase w = .returned (.ok ())) : (job.system fs memory).Meets NoOverlap s ls := by
  -- the trap: too little budget for all writers
  refine Transition.System.meets_of_trap (I := fun _ => True)
    (D := fun s => job.budget s < Fintype.card W) (fun _ _ _ _ _ => trivial) ?_ ?_ trivial hrun ?_
  · intro s l s' hsmall hs
    exact (budget_step_le hs).trans_lt hsmall
  · intro s l s' _ hs hoverlap
    exact budget_lt_of_overlap hs hoverlap
  · exact not_lt.2 (card_le_budget hok)

end Budget

/-- Every writer has returned. -/
def Complete (t : Writers W) : Prop := ∀ w, ∃ result, t.phase w = .returned result

/-- In a complete interleaving of any writers, all inserts return `Ok` and every read along the
run gives nothing or the whole value exactly when that is so of the first read and no create
overlaps another insert. -/
theorem inserts_benign_iff [Fintype W] (fs : FileSystem String)
    (memory : W → NvrtcCacheKey → Option CachedKernel) (ls : List (Call W)) (t : Writers W)
    (hrun : (job.system fs memory).run (job.system fs memory).init ls = some t)
    (hdone : Complete t) :
    ((∀ w, t.phase w = .returned (.ok ())) ∧
      (job.system fs memory).Along (fun s => job.Benign s.fs) (job.system fs memory).init ls) ↔
    job.Benign fs ∧ (job.system fs memory).Meets NoOverlap (job.system fs memory).init ls := by
  constructor
  · rintro ⟨hok, halong⟩
    exact ⟨halong.head, noOverlap_of_ok hrun hok⟩
  · rintro ⟨hbenign, hmeets⟩
    have hinit : job.Orderly (job.system fs memory).init :=
      ⟨hbenign, fun _ => trivial, fun _ _ h => h.elim⟩
    have halong : (job.system fs memory).Along job.Orderly (job.system fs memory).init ls :=
      Transition.System.along_of_meets (fun _ h => h) (fun _ _ _ h hl hs => h.step hl hs) hinit
        hmeets
    refine ⟨fun w => ?_, ?_⟩
    · obtain ⟨result, hresult⟩ := hdone w
      have hholds := (halong.last hrun).holds w
      rw [hresult] at hholds ⊢
      rw [show result = .ok () from hholds]
    · exact Transition.System.along_of_meets (fun _ h => h.benign)
        (fun _ _ _ h hl hs => h.step hl hs) hinit hmeets

instance [Fintype W] (s : Writers W) (l : Call W) : Decidable (NoOverlap s l) :=
  match l with
  | .create w => inferInstanceAs (Decidable (∀ w', w' ≠ w → ¬ (s.phase w').Inside))
  | .write _ _ | .sync _ | .rename _ | .removeTmp _ => isTrue trivial

end Insertion

/-- One byte of PTX without CUBIN, and its encoding. -/
def sampleInsertion : Insertion where
  bincode :=
    { serialize := fun _ => [1, 0, 0, 0, 0, 0, 0, 0, 7, 0, 6, 0, 0, 0, 0, 0, 0, 0,
        48, 46, 49, 48, 46, 48]
      deserialize := fun bytes =>
        if bytes = [1, 0, 0, 0, 0, 0, 0, 0, 7, 0, 6, 0, 0, 0, 0, 0, 0, 0, 48, 46, 49, 48, 46, 48]
        then some (.new [7] none) else none }
  dir := "nvrtc"
  key := ⟨0xdeadbeef, 80, 0x1234⟩
  value := .new [7] none
  decodes := rfl

/-- Two writers on an empty directory. -/
def twoWriters : Transition.System (Writers Bool) (Call Bool) :=
  sampleInsertion.system .empty fun _ _ => none

/-- One insert after the other. -/
def sequentialCalls : List (Call Bool) :=
  [.create true, .write true 10, .write true 14, .sync true, .rename true,
    .create false, .write false 24, .sync false, .rename false]

theorem sequential_inserts_benign :
    ∃ t, twoWriters.run twoWriters.init sequentialCalls = some t ∧ Insertion.Complete t ∧
      ∀ w, t.phase w = .returned (.ok ()) := by
  refine ⟨_, rfl, ?_, ?_⟩
  · rintro (_ | _) <;> exact ⟨_, rfl⟩
  · refine ((sampleInsertion.inserts_benign_iff .empty (fun _ _ => none) sequentialCalls _ rfl
      ?_).2 ⟨.inl rfl, ?_⟩).1
    · rintro (_ | _) <;> exact ⟨_, rfl⟩
    · decide

/-- Two writers create the temporary file; the first to rename takes it from the other, which
fails. -/
theorem overlapping_insert_fails :
    ¬ ∀ ls t, twoWriters.run twoWriters.init ls = some t → Insertion.Complete t →
      (∀ w, t.phase w = .returned (.ok ())) ∧
        twoWriters.Along (fun s => sampleInsertion.Benign s.fs) twoWriters.init ls := by
  intro h
  have hok := (h [.create true, .create false, .write true 24, .sync true, .rename true,
    .write false 24, .sync false, .rename false, .removeTmp false] _ rfl
    (by rintro (_ | _) <;> exact ⟨_, rfl⟩)).1 false
  cases hok

end Nvrtc

end AtomrAccel
