import AtomrAccel.Lib.Flat
import AtomrAccel.Lib.Probing

/-!
# The probe kernels of the hash map

`hashmap_insert` and `hashmap_lookup` of `hashmap_probe.cu`, with the threads of a launch one after
another.  A slot is taken by a compare-and-swap on its state; a key is looked for from its FNV-1a hash
on, with 32-bit arithmetic.

* `fnv1a`, `keyEq`, `atomicCAS`, `insertProbe`, `lookupProbe`, `hashmapInsert`, `hashmapLookup`: the
  kernels;
* `LaunchArgs`: arguments a launch can have, with at least as many probes as slots;
* `slotOf_toNat`: the probe sequence is the path of a table, without a wrap;
* `Device.table`, `Device.Live`: the table in the buffers, and that no slot is a tombstone;
* `insertProbe_spec`, `lookupProbe_spec`: a thread inserts and looks up as a probed table does;
* `insertLaunch_spec`, `lookupLaunch_spec`: a launch does so for every query, in order.
-/

namespace AtomrAccel

namespace Realtime

open Flat Probing

/-! ### The kernels -/

/-- The hash of some bytes. -/
def fnv1a (k : ℕ → UInt8) (len : ℕ) : UInt32 :=
  (List.range len).foldl (fun h i => (h ^^^ (k i).toUInt32) * 0x01000193) 0x811c9dc5

/-- The first `len` bytes agree. -/
def keyEq (a b : ℕ → UInt8) (len : ℕ) : Bool := (List.range len).all fun i => a i == b i

/-- The device buffers, of the table and of the answers. -/
structure Device where
  slotsKey : ℕ → UInt8
  slotsValue : ℕ → UInt8
  /-- 0 = empty, 1 = occupied, 2 = tombstone -/
  slotState : ℕ → UInt32
  outValues : ℕ → UInt8
  outStatus : ℕ → UInt32

/-- The arguments of a launch.  The capacity is an `int`. -/
structure LaunchArgs where
  capacity : ℕ
  keySize : ℕ
  valueSize : ℕ
  maxProbes : ℕ
  capacity_pos : 0 < capacity
  capacity_lt : capacity < 2 ^ 31
  capacity_le : capacity ≤ maxProbes

variable (a : LaunchArgs)

/-- `slot` at the probe `i`. -/
def slotOf (h : UInt32) (i : ℕ) : UInt32 := (h + UInt32.ofNat i) % UInt32.ofNat a.capacity

/-- The value of `slotState[slot]` before, and the buffers after. -/
def atomicCAS (d : Device) (slot : ℕ) (compare val : UInt32) : UInt32 × Device :=
  (d.slotState slot,
    if d.slotState slot = compare then
      { d with slotState := Function.update d.slotState slot val }
    else d)

/-- The value of a slot written. -/
def putValue (d : Device) (slot : ℕ) (qv : ℕ → UInt8) : Device :=
  { d with slotsValue := store d.slotsValue (slot * a.valueSize) qv a.valueSize }

/-- The probe loop of `hashmap_insert` from `i` on: the buffers and the status of the query. -/
def insertProbe (qk qv : ℕ → UInt8) (h : UInt32) : ℕ → ℕ → Device → Device × UInt32
  | _, 0, d => (d, 0)
  | i, probes + 1, d =>
    let slot := (slotOf a h i).toNat
    let (prev, d) := atomicCAS d slot 0 1
    if prev = 0 ∨ prev = 2 then
      -- Won the slot (was empty or tombstoned).
      let d := { d with slotsKey := store d.slotsKey (slot * a.keySize) qk a.keySize }
      let d := putValue a d slot qv
      if prev = 2 then ({ d with slotState := Function.update d.slotState slot 1 }, 1) else (d, 1)
    else if keyEq (offset d.slotsKey (slot * a.keySize)) qk a.keySize then
      -- Slot occupied by our key (idempotent overwrite).
      (putValue a d slot qv, 1)
    else insertProbe qk qv h (i + 1) probes d

/-- The answer to the query `q`. -/
def answer (d : Device) (q : ℕ) (value : ℕ → UInt8) (status : UInt32) : Device :=
  { d with
    outValues := store d.outValues (q * a.valueSize) value a.valueSize
    outStatus := Function.update d.outStatus q status }

/-- The probe loop of `hashmap_lookup` from `i` on. -/
def lookupProbe (qk : ℕ → UInt8) (h : UInt32) (q : ℕ) : ℕ → ℕ → Device → Device
  | _, 0, d => answer a d q (fun _ => 0) 0
  | i, probes + 1, d =>
    let slot := (slotOf a h i).toNat
    let st := d.slotState slot
    if st = 0 then answer a d q (fun _ => 0) 0
    else if st = 1 ∧ keyEq (offset d.slotsKey (slot * a.keySize)) qk a.keySize then
      answer a d q (offset d.slotsValue (slot * a.valueSize)) 1
    else lookupProbe qk h q (i + 1) probes d

/-- `probes`. -/
def probes : ℕ := if a.maxProbes < a.capacity then a.maxProbes else a.capacity

/-- The slot a key is looked for from. -/
def home (qk : ℕ → UInt8) : UInt32 := fnv1a qk a.keySize % UInt32.ofNat a.capacity

/-- The thread `q` of `hashmap_insert`. -/
def hashmapInsert (queryKeys queryValues : ℕ → UInt8) (nQueries : ℕ) (d : Device) (q : ℕ) :
    Device :=
  if nQueries ≤ q then d
  else
    let qk := offset queryKeys (q * a.keySize)
    let qv := offset queryValues (q * a.valueSize)
    let (d, status) := insertProbe a qk qv (home a qk) 0 (probes a) d
    { d with outStatus := Function.update d.outStatus q status }

/-- The thread `q` of `hashmap_lookup`. -/
def hashmapLookup (queryKeys : ℕ → UInt8) (nQueries : ℕ) (d : Device) (q : ℕ) : Device :=
  if nQueries ≤ q then d
  else
    let qk := offset queryKeys (q * a.keySize)
    lookupProbe a qk (home a qk) q 0 (probes a) d

/-- The threads of a launch, in the order of their indices. -/
def launch (thread : Device → ℕ → Device) (threads : ℕ) (d : Device) : Device :=
  (List.range threads).foldl thread d

/-! ### The arithmetic -/

variable {a}

theorem capacity_toNat : (UInt32.ofNat a.capacity).toNat = a.capacity := by
  have hlt := a.capacity_lt
  rw [UInt32.toNat_ofNat']
  exact Nat.mod_eq_of_lt (by omega)

theorem home_lt {qk : ℕ → UInt8} : (home a qk).toNat < a.capacity := by
  rw [home, UInt32.toNat_mod, capacity_toNat]
  exact Nat.mod_lt _ a.capacity_pos

theorem slotOf_lt {h : UInt32} {i : ℕ} : (slotOf a h i).toNat < a.capacity := by
  rw [slotOf, UInt32.toNat_mod, capacity_toNat]
  exact Nat.mod_lt _ a.capacity_pos

/-- The sum does not wrap, since both summands are below the capacity. -/
theorem slotOf_toNat {h : UInt32} {i : ℕ} (hh : h.toNat < a.capacity) (hi : i < a.capacity) :
    (slotOf a h i).toNat = (h.toNat + i) % a.capacity := by
  have hlt := a.capacity_lt
  rw [slotOf, UInt32.toNat_mod, capacity_toNat, UInt32.toNat_add, UInt32.toNat_ofNat',
    Nat.mod_eq_of_lt (show i < 2 ^ 32 by omega),
    Nat.mod_eq_of_lt (show h.toNat + i < 2 ^ 32 by omega)]

theorem probes_eq : probes a = a.capacity := if_neg (Nat.not_lt.2 a.capacity_le)

theorem keyEq_iff {p p' : ℕ → UInt8} {n : ℕ} : keyEq p p' n = true ↔ load p n = load p' n := by
  rw [keyEq, List.all_eq_true, load_eq_iff]
  simp only [List.mem_range, beq_iff_eq]

/-! ### The table in the buffers -/

variable (a) in
/-- The home of a key. -/
def homeOf (k : List UInt8) : ℕ := (home a (ofList k 0)).toNat

theorem home_load (qk : ℕ → UInt8) : (home a qk).toNat = homeOf a (load qk a.keySize) := by
  have hsame : ∀ i ∈ List.range a.keySize, qk i = ofList (load qk a.keySize) 0 i := by
    intro i hi
    have hlt : i < (load qk a.keySize).length := by
      rw [length_load]
      exact List.mem_range.1 hi
    rw [ofList, ← List.getElem_eq_getD (h := hlt) 0]
    simp only [load, List.getElem_map, List.getElem_range]
  have hfold : fnv1a qk a.keySize = fnv1a (ofList (load qk a.keySize) 0) a.keySize := by
    refine List.foldl_ext _ _ _ fun h i hi => ?_
    rw [hsame i hi]
  rw [homeOf, home, home, hfold]

namespace Device

variable (a) in
/-- The table the buffers hold. -/
def table (d : Device) : Probing.Table (List UInt8) (List UInt8) := fun s =>
  if s < a.capacity ∧ d.slotState s = 1 then
    some (record d.slotsKey a.keySize s, record d.slotsValue a.valueSize s)
  else none

variable (a) in
/-- Every slot is empty or occupied. -/
def Live (d : Device) : Prop := ∀ s < a.capacity, d.slotState s = 0 ∨ d.slotState s = 1

/-- The buffers with every slot empty. -/
def cleared (d : Device) : Device := { d with slotState := fun _ => 0 }

variable {d : Device} {s : ℕ}

theorem table_of_empty (h : d.slotState s = 0) : d.table a s = none := by
  rw [table, if_neg]
  rintro ⟨-, hone⟩
  rw [h] at hone
  cases hone

theorem table_of_occupied (hs : s < a.capacity) (h : d.slotState s = 1) :
    d.table a s = some (record d.slotsKey a.keySize s, record d.slotsValue a.valueSize s) :=
  if_pos ⟨hs, h⟩

theorem table_cleared : d.cleared.table a = fun _ => none := by
  funext s
  exact table_of_empty rfl

theorem live_cleared : d.cleared.Live a := fun _ _ => .inl rfl

end Device

/-- The buffers after a pair is put into a slot. -/
structure Puts (a : LaunchArgs) (d d' : Device) (s : ℕ) (k v : List UInt8) : Prop where
  table_eq : d'.table a = Function.update (d.table a) s (some (k, v))
  live : d'.Live a
  outStatus_eq : d'.outStatus = d.outStatus

variable {d : Device} {s : ℕ} {qk qv : ℕ → UInt8}

/-- An empty slot is won. -/
theorem puts_won (hlive : d.Live a) (hs : s < a.capacity) :
    Puts a d
      { d with
        slotsKey := store d.slotsKey (s * a.keySize) qk a.keySize
        slotsValue := store d.slotsValue (s * a.valueSize) qv a.valueSize
        slotState := Function.update d.slotState s 1 }
      s (load qk a.keySize) (load qv a.valueSize) where
  table_eq := by
    funext s'
    by_cases hss : s' = s
    · subst hss
      rw [Device.table_of_occupied hs (Function.update_self _ _ _), Function.update_self]
      show some (record (store _ _ _ _) _ _, record (store _ _ _ _) _ _) = _
      rw [record_store, record_store, Function.update_self, Function.update_self]
    · rw [Function.update_of_ne hss]
      simp only [Device.table, record_store, Function.update_of_ne hss]
  live s' hs' := by
    by_cases hss : s' = s
    · subst hss
      exact .inr (Function.update_self _ _ _)
    · show Function.update d.slotState s 1 s' = 0 ∨ Function.update d.slotState s 1 s' = 1
      rw [Function.update_of_ne hss]
      exact hlive s' hs'
  outStatus_eq := rfl

/-- The value of an occupied slot is written over. -/
theorem puts_putValue (hlive : d.Live a) (hs : s < a.capacity) (hstate : d.slotState s = 1)
    (hkey : record d.slotsKey a.keySize s = load qk a.keySize) :
    Puts a d (putValue a d s qv) s (load qk a.keySize) (load qv a.valueSize) where
  table_eq := by
    funext s'
    by_cases hss : s' = s
    · subst hss
      rw [Device.table_of_occupied (d := putValue a d s' qv) hs hstate, Function.update_self]
      show some (record d.slotsKey _ _, record (store _ _ _ _) _ _) = _
      rw [record_store, Function.update_self, hkey]
    · rw [Function.update_of_ne hss]
      simp only [Device.table, putValue, record_store, Function.update_of_ne hss]
  live := hlive
  outStatus_eq := rfl

/-! ### The threads -/

variable (a) in
/-- The slots of the probes from `i` on. -/
def probesFrom (start i r : ℕ) : List ℕ :=
  (List.range' i r).map fun j => (start + j) % a.capacity

theorem probesFrom_zero (start : ℕ) : probesFrom a start 0 a.capacity = path a.capacity start := by
  rw [probesFrom, path, List.range_eq_range']

variable {h : UInt32} {i r q : ℕ}

theorem probesFrom_succ (hh : h.toNat < a.capacity) (hi : i < a.capacity) :
    probesFrom a h.toNat i (r + 1) =
      (slotOf a h i).toNat :: probesFrom a h.toNat (i + 1) r := by
  rw [probesFrom, List.range'_succ, List.map_cons, probesFrom, slotOf_toNat hh hi]

theorem probesFrom_home (qk : ℕ → UInt8) :
    probesFrom a (home a qk).toNat 0 (probes a) =
      path a.capacity (homeOf a (load qk a.keySize)) := by
  rw [probes_eq, probesFrom_zero, home_load]

theorem insertProbe_of_empty (hstate : d.slotState (slotOf a h i).toNat = 0) :
    insertProbe a qk qv h i (r + 1) d =
      ({ d with
          slotsKey := store d.slotsKey ((slotOf a h i).toNat * a.keySize) qk a.keySize
          slotsValue := store d.slotsValue ((slotOf a h i).toNat * a.valueSize) qv a.valueSize
          slotState := Function.update d.slotState (slotOf a h i).toNat 1 }, 1) := by
  simp only [insertProbe, atomicCAS, hstate, if_true, true_or, putValue]
  exact if_neg (by decide)

theorem insertProbe_of_occupied (hstate : d.slotState (slotOf a h i).toNat = 1) :
    insertProbe a qk qv h i (r + 1) d =
      if keyEq (offset d.slotsKey ((slotOf a h i).toNat * a.keySize)) qk a.keySize then
        (putValue a d (slotOf a h i).toNat qv, 1)
      else insertProbe a qk qv h (i + 1) r d := by
  have hzero : ¬ (1 : UInt32) = 0 := by decide
  have htwo : ¬ ((1 : UInt32) = 0 ∨ (1 : UInt32) = 2) := by decide
  simp only [insertProbe, atomicCAS, hstate, if_neg hzero, if_neg htwo]

/-- The buffers and the status of a query that is to be put where it is found. -/
def Inserts (a : LaunchArgs) (d : Device) (k v : List UInt8) (result : Device × UInt32) :
    Option ℕ → Prop
  | none => result = (d, 0)
  | some s => Puts a d result.1 s k v ∧ result.2 = 1

theorem insertProbe_spec (hlive : d.Live a) (hh : h.toNat < a.capacity) (hr : i + r = a.capacity) :
    Inserts a d (load qk a.keySize) (load qv a.valueSize) (insertProbe a qk qv h i r d)
      (search (d.table a) (load qk a.keySize) (probesFrom a h.toNat i r)) := by
  induction r generalizing i with
  | zero => rfl
  | succ r ih =>
    have hs : (slotOf a h i).toNat < a.capacity := slotOf_lt
    rw [probesFrom_succ hh (by omega)]
    rcases hlive _ hs with hstate | hstate
    · rw [search_cons_of_fits (fits_of_empty (Device.table_of_empty hstate)),
        insertProbe_of_empty hstate]
      exact ⟨puts_won hlive hs, rfl⟩
    · have htable := Device.table_of_occupied hs hstate
      rw [insertProbe_of_occupied hstate]
      by_cases hkey : record d.slotsKey a.keySize (slotOf a h i).toNat = load qk a.keySize
      · rw [if_pos (keyEq_iff.2 hkey)]
        rw [hkey] at htable
        rw [search_cons_of_fits (fits_self htable)]
        exact ⟨puts_putValue hlive hs hstate hkey, rfl⟩
      · rw [if_neg (mt keyEq_iff.1 hkey), search_cons_of_not_fits (not_fits_of_ne htable hkey)]
        exact ih (by omega)

theorem insertProbe_home (hlive : d.Live a) (qk qv : ℕ → UInt8) :
    Inserts a d (load qk a.keySize) (load qv a.valueSize)
      (insertProbe a qk qv (home a qk) 0 (probes a) d)
      (search (d.table a) (load qk a.keySize)
        (path a.capacity (homeOf a (load qk a.keySize)))) := by
  rw [← probesFrom_home]
  exact insertProbe_spec hlive home_lt ((Nat.zero_add _).trans probes_eq)

/-- The bytes of an answer: the value, or zeros. -/
def orZeros (a : LaunchArgs) (found : Option (List UInt8)) : List UInt8 :=
  found.getD (List.replicate a.valueSize 0)

theorem load_zeros (n : ℕ) : load (fun _ => (0 : UInt8)) n = List.replicate n 0 := by
  rw [load, List.map_const', List.length_range]

/-- The answer to a query that is found or not. -/
def Answers (a : LaunchArgs) (d : Device) (q : ℕ) (result : Device) (found : Option (List UInt8)) :
    Prop :=
  ∃ value, load value a.valueSize = orZeros a found ∧
    result = answer a d q value (if found.isSome then 1 else 0)

theorem lookupProbe_of_empty (hstate : d.slotState (slotOf a h i).toNat = 0) :
    lookupProbe a qk h q i (r + 1) d = answer a d q (fun _ => 0) 0 := by
  simp only [lookupProbe, hstate, if_true]

theorem lookupProbe_of_occupied (hstate : d.slotState (slotOf a h i).toNat = 1) :
    lookupProbe a qk h q i (r + 1) d =
      if keyEq (offset d.slotsKey ((slotOf a h i).toNat * a.keySize)) qk a.keySize then
        answer a d q (offset d.slotsValue ((slotOf a h i).toNat * a.valueSize)) 1
      else lookupProbe a qk h q (i + 1) r d := by
  have hzero : ¬ (1 : UInt32) = 0 := by decide
  simp only [lookupProbe, hstate, if_neg hzero, true_and]

theorem lookupProbe_spec (hlive : d.Live a) (hh : h.toNat < a.capacity) (hr : i + r = a.capacity) :
    Answers a d q (lookupProbe a qk h q i r d)
      (lookup (d.table a) (load qk a.keySize) (probesFrom a h.toNat i r)) := by
  induction r generalizing i with
  | zero => exact ⟨fun _ => 0, load_zeros _, rfl⟩
  | succ r ih =>
    have hs : (slotOf a h i).toNat < a.capacity := slotOf_lt
    rw [probesFrom_succ hh (by omega)]
    rcases hlive _ hs with hstate | hstate
    · rw [lookup_cons_of_empty (Device.table_of_empty hstate), lookupProbe_of_empty hstate]
      exact ⟨fun _ => 0, load_zeros _, rfl⟩
    · have htable := Device.table_of_occupied hs hstate
      rw [lookupProbe_of_occupied hstate]
      by_cases hkey : record d.slotsKey a.keySize (slotOf a h i).toNat = load qk a.keySize
      · rw [if_pos (keyEq_iff.2 hkey)]
        rw [hkey] at htable
        rw [lookup_cons_self htable]
        exact ⟨offset d.slotsValue ((slotOf a h i).toNat * a.valueSize), rfl, rfl⟩
      · rw [if_neg (mt keyEq_iff.1 hkey), lookup_cons_of_ne htable hkey]
        exact ih (by omega)

theorem lookupProbe_home (hlive : d.Live a) (qk : ℕ → UInt8) (q : ℕ) :
    Answers a d q (lookupProbe a qk (home a qk) q 0 (probes a) d)
      (lookup (d.table a) (load qk a.keySize)
        (path a.capacity (homeOf a (load qk a.keySize)))) := by
  rw [← probesFrom_home]
  exact lookupProbe_spec hlive home_lt ((Nat.zero_add _).trans probes_eq)

/-! ### The launches -/

variable {queryKeys queryValues : ℕ → UInt8} {n m threads : ℕ}

/-- The threads past the last query do nothing. -/
theorem launch_eq {thread : Device → ℕ → Device} (hspare : ∀ d q, n ≤ q → thread d q = d)
    (hn : n ≤ threads) (d : Device) :
    launch thread threads d = (List.range' 0 n).foldl thread d := by
  obtain ⟨spare, rfl⟩ := Nat.exists_eq_add_of_le hn
  have hidle : ∀ d, (List.range' n spare).foldl thread d = d := by
    intro d
    refine List.foldlRecOn (motive := fun d' => d' = d) (List.range' n spare) thread rfl ?_
    rintro d' rfl q hq
    exact hspare d' q (List.mem_range'_1.1 hq).1
  rw [launch, List.range_eq_range', ← List.range'_append_1, List.foldl_append, Nat.zero_add, hidle]

variable (a) in
/-- The key and the value of a query. -/
def queryPair (queryKeys queryValues : ℕ → UInt8) (q : ℕ) : List UInt8 × List UInt8 :=
  (record queryKeys a.keySize q, record queryValues a.valueSize q)

variable (a) in
/-- The table after a pair is inserted, and whether it found a slot. -/
def inserted (t : Probing.Table (List UInt8) (List UInt8)) (p : List UInt8 × List UInt8) :
    Probing.Table (List UInt8) (List UInt8) × Bool :=
  Probing.insert t p.1 p.2 (path a.capacity (homeOf a p.1))

/-- What a thread of `hashmap_insert` does to the table, and its status. -/
structure InsertedBy (a : LaunchArgs) (d d' : Device) (q : ℕ) (p : List UInt8 × List UInt8) :
    Prop where
  table_eq : d'.table a = (inserted a (d.table a) p).1
  live : d'.Live a
  outStatus_eq : d'.outStatus =
    Function.update d.outStatus q (if (inserted a (d.table a) p).2 then 1 else 0)

theorem Inserts.insertedBy {p : List UInt8 × List UInt8} {result : Device × UInt32}
    (hlive : d.Live a) (h : Inserts a d p.1 p.2 result
      (search (d.table a) p.1 (path a.capacity (homeOf a p.1)))) :
    InsertedBy a d { result.1 with outStatus := Function.update result.1.outStatus q result.2 }
      q p := by
  obtain ⟨d', status⟩ := result
  cases hs : search (d.table a) p.1 (path a.capacity (homeOf a p.1)) with
  | none =>
    rw [hs] at h
    obtain ⟨hd, hstatus⟩ := Prod.mk.inj h
    subst d'
    subst status
    have hin : inserted a (d.table a) p = (d.table a, false) := by
      simp only [inserted, Probing.insert, hs]
    exact ⟨by rw [hin]; rfl, hlive, by rw [hin]; rfl⟩
  | some s =>
    rw [hs] at h
    obtain ⟨⟨htable, hlive', hout⟩, hstatus⟩ := h
    have hin : inserted a (d.table a) p = (Function.update (d.table a) s (some p), true) := by
      simp only [inserted, Probing.insert, hs]
    refine ⟨by rw [hin]; exact htable, hlive', ?_⟩
    rw [hin, ← hout]
    show Function.update d'.outStatus q status = _
    rw [show status = 1 from hstatus]
    rfl

theorem hashmapInsert_spec (hlive : d.Live a) (queryKeys queryValues : ℕ → UInt8) (hq : q < n) :
    InsertedBy a d (hashmapInsert a queryKeys queryValues n d q) q
      (queryPair a queryKeys queryValues q) := by
  rw [hashmapInsert, if_neg (Nat.not_le.2 hq)]
  exact (insertProbe_home hlive (offset queryKeys (q * a.keySize))
    (offset queryValues (q * a.valueSize))).insertedBy hlive

/-- The buffers after the pairs of the queries from `q` on are inserted. -/
structure InsertedAll (a : LaunchArgs) (d d' : Device) (q m : ℕ)
    (ps : List (List UInt8 × List UInt8)) : Prop where
  table_eq : d'.table a = (insertAll a.capacity (homeOf a) (d.table a) ps).1
  live : d'.Live a
  before : ∀ q' < q, d'.outStatus q' = d.outStatus q'
  count_eq : (List.range' q m).countP (fun q' => d'.outStatus q' = 1) =
    (insertAll a.capacity (homeOf a) (d.table a) ps).2

theorem insertAll_cons (t : Probing.Table (List UInt8) (List UInt8)) (p : List UInt8 × List UInt8)
    (ps : List (List UInt8 × List UInt8)) :
    insertAll a.capacity (homeOf a) t (p :: ps) =
      ((insertAll a.capacity (homeOf a) (inserted a t p).1 ps).1,
        if (inserted a t p).2 then (insertAll a.capacity (homeOf a) (inserted a t p).1 ps).2 + 1
        else (insertAll a.capacity (homeOf a) (inserted a t p).1 ps).2) := rfl

theorem foldl_hashmapInsert (hlive : d.Live a) (hn : q + m ≤ n) :
    InsertedAll a d ((List.range' q m).foldl (hashmapInsert a queryKeys queryValues n) d) q m
      ((List.range' q m).map (queryPair a queryKeys queryValues)) := by
  induction m generalizing q d with
  | zero => exact ⟨rfl, hlive, fun _ _ => rfl, rfl⟩
  | succ m ih =>
    obtain ⟨htable, hlive', hout⟩ :=
      hashmapInsert_spec hlive queryKeys queryValues (show q < n by omega)
    obtain ⟨htables, hlive'', hbefore, hcount⟩ := ih hlive' (show q + 1 + m ≤ n by omega)
    rw [htable] at htables hcount
    rw [List.range'_succ, List.foldl_cons, List.map_cons]
    refine ⟨?_, hlive'', fun q' hq' => ?_, ?_⟩
    · rw [htables, insertAll_cons]
    · rw [hbefore q' (by omega), hout, Function.update_of_ne hq'.ne]
    · rw [List.range'_succ, List.countP_cons, hcount, hbefore q (Nat.lt_succ_self q), hout,
        Function.update_self, insertAll_cons]
      by_cases hfound : (inserted a (d.table a) (queryPair a queryKeys queryValues q)).2 = true
      · rw [if_pos hfound, if_pos hfound]
        rfl
      · rw [if_neg hfound, if_neg hfound]
        rfl

/-- A launch of `hashmap_insert` inserts the pairs in their order. -/
theorem insertLaunch_spec (hlive : d.Live a) (queryKeys queryValues : ℕ → UInt8)
    (hn : n ≤ threads) :
    InsertedAll a d (launch (hashmapInsert a queryKeys queryValues n) threads d) 0 n
      ((List.range n).map (queryPair a queryKeys queryValues)) := by
  have hspare : ∀ d q, n ≤ q → hashmapInsert a queryKeys queryValues n d q = d :=
    fun _ _ hq => if_pos hq
  rw [launch_eq hspare hn, List.range_eq_range']
  exact foldl_hashmapInsert hlive (Nat.zero_add n).le

theorem record_answer (value : ℕ → UInt8) (status : UInt32) :
    record (answer a d q value status).outValues a.valueSize =
      Function.update (record d.outValues a.valueSize) q (load value a.valueSize) :=
  record_store

/-- What a thread of `hashmap_lookup` answers. -/
theorem hashmapLookup_spec (hlive : d.Live a) (queryKeys : ℕ → UInt8) (hq : q < n) :
    Answers a d q (hashmapLookup a queryKeys n d q)
      (lookup (d.table a) (record queryKeys a.keySize q)
        (path a.capacity (homeOf a (record queryKeys a.keySize q)))) := by
  rw [hashmapLookup, if_neg (Nat.not_le.2 hq)]
  exact lookupProbe_home hlive (offset queryKeys (q * a.keySize)) q

/-- The answers to the queries from `q` on. -/
structure AnsweredAll (a : LaunchArgs) (queryKeys : ℕ → UInt8) (d d' : Device) (q m : ℕ) :
    Prop where
  table_eq : d'.table a = d.table a
  live : d'.Live a
  before : ∀ q' < q, record d'.outValues a.valueSize q' = record d.outValues a.valueSize q'
  values_eq : ∀ q' ∈ List.range' q m, record d'.outValues a.valueSize q' =
    orZeros a (lookup (d.table a) (record queryKeys a.keySize q')
      (path a.capacity (homeOf a (record queryKeys a.keySize q'))))

theorem foldl_hashmapLookup (hlive : d.Live a) (hn : q + m ≤ n) :
    AnsweredAll a queryKeys d ((List.range' q m).foldl (hashmapLookup a queryKeys n) d) q m := by
  induction m generalizing q d with
  | zero => exact ⟨rfl, hlive, fun _ _ => rfl, fun q' hq' => absurd hq' List.not_mem_nil⟩
  | succ m ih =>
    obtain ⟨value, hvalue, hthread⟩ := hashmapLookup_spec hlive queryKeys (show q < n by omega)
    rw [List.range'_succ, List.foldl_cons, hthread]
    obtain ⟨htable, hlive', hbefore, hvalues⟩ :=
      ih (d := answer a d q value _) hlive (show q + 1 + m ≤ n by omega)
    refine ⟨htable, hlive', fun q' hq' => ?_, fun q' hq' => ?_⟩
    · rw [hbefore q' (by omega), record_answer, Function.update_of_ne hq'.ne]
    · rcases List.mem_cons.1 hq' with rfl | hq'
      · rw [hbefore q' (Nat.lt_succ_self q'), record_answer, Function.update_self]
        exact hvalue
      · exact hvalues q' hq'

/-- A launch of `hashmap_lookup` answers every query from the table, which it leaves alone. -/
theorem lookupLaunch_spec (hlive : d.Live a) (queryKeys : ℕ → UInt8) (hn : n ≤ threads) :
    AnsweredAll a queryKeys d (launch (hashmapLookup a queryKeys n) threads d) 0 n := by
  have hspare : ∀ d q, n ≤ q → hashmapLookup a queryKeys n d q = d := fun _ _ hq => if_pos hq
  rw [launch_eq hspare hn]
  exact foldl_hashmapLookup hlive (Nat.zero_add n).le

end Realtime

end AtomrAccel
