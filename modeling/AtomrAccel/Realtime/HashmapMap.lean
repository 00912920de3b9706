import AtomrAccel.Realtime.HashmapProbe

/-!
# The probed table as a map

Threads of `hashmap_insert` and `hashmap_lookup` one after another, from an empty table on, with the
last value that was inserted for each key kept beside the buffers.

* `Thread`, `Session`, `Session.step`: the threads and the bookkeeping, which reads the status a
  thread has written;
* `IsMap`: what a table that is a map does, slot by slot;
* `Session.Inv`, `Inv.step`, `Inv.isMap`: keys are well placed and stored with their last values;
* `table_is_map`: after any threads the table is a map.
-/

namespace AtomrAccel

namespace Realtime

open Flat Probing

/-- A thread of a launch, with the buffers and the number of queries of its launch. -/
inductive Thread
  | insert (queryKeys queryValues : ℕ → UInt8) (nQueries q : ℕ)
  | lookup (queryKeys : ℕ → UInt8) (nQueries q : ℕ)

/-- The buffers, and the value of the last successful insertion of each key. -/
structure Session where
  device : Device
  last : List UInt8 → Option (List UInt8)

variable (a : LaunchArgs)

/-- The insertion of a thread counts when the thread has a query and its status is one. -/
def Session.step (s : Session) : Thread → Session
  | .insert queryKeys queryValues n q =>
    let d := hashmapInsert a queryKeys queryValues n s.device q
    { device := d
      last := if q < n ∧ d.outStatus q = 1 then
        Function.update s.last (record queryKeys a.keySize q)
          (some (record queryValues a.valueSize q))
      else s.last }
  | .lookup queryKeys n q => { s with device := hashmapLookup a queryKeys n s.device q }

/-- The threads one after the other. -/
def Session.run (s : Session) (threads : List Thread) : Session := threads.foldl (step a) s

/-- The all-empty table, with nothing inserted. -/
def Session.start (d : Device) : Session := ⟨d.cleared, fun _ => none⟩

/-- The key in a slot. -/
abbrev Device.key (d : Device) (slot : ℕ) : List UInt8 := record d.slotsKey a.keySize slot

/-- The value in a slot. -/
abbrev Device.value (d : Device) (slot : ℕ) : List UInt8 := record d.slotsValue a.valueSize slot

/-- The slot is below the capacity and occupied. -/
def Device.Occupied (d : Device) (slot : ℕ) : Prop := slot < a.capacity ∧ d.slotState slot = 1

/-- The buffers hold a map: no two occupied slots have a key in common; from the home of a stored
key on, with the kernel's own 32-bit slots, its slot is reached before an empty one; a lookup answers
with the last inserted value, or zeros; an insertion answers zero or one, and with one its key is
stored with its value; and it fails, and then writes nothing but its status, exactly when the key is
absent and every slot is occupied. -/
structure IsMap (s : Session) : Prop where
  distinct : ∀ i j, s.device.Occupied a i → s.device.Occupied a j →
    s.device.key a i = s.device.key a j → i = j
  reachable : ∀ i, s.device.Occupied a i → ∃ n < a.capacity,
    i = (slotOf a (home a (ofList (s.device.key a i) 0)) n).toNat ∧
      ∀ m < n, s.device.slotState (slotOf a (home a (ofList (s.device.key a i) 0)) m).toNat ≠ 0
  lookup : ∀ queryKeys n q, q < n →
    (hashmapLookup a queryKeys n s.device q).outStatus q =
        (if (s.last (record queryKeys a.keySize q)).isSome then 1 else 0) ∧
      record (hashmapLookup a queryKeys n s.device q).outValues a.valueSize q =
        (s.last (record queryKeys a.keySize q)).getD (List.replicate a.valueSize 0)
  insert : ∀ queryKeys queryValues n q, q < n →
    ((hashmapInsert a queryKeys queryValues n s.device q).outStatus q = 0 ↔
      (∀ i, s.device.Occupied a i → s.device.key a i ≠ record queryKeys a.keySize q) ∧
        ∀ i < a.capacity, s.device.slotState i = 1) ∧
    ((hashmapInsert a queryKeys queryValues n s.device q).outStatus q = 0 →
      hashmapInsert a queryKeys queryValues n s.device q =
        { s.device with outStatus := Function.update s.device.outStatus q 0 })
  inserted : ∀ queryKeys queryValues n q, q < n →
    (hashmapInsert a queryKeys queryValues n s.device q).outStatus q = 0 ∨
      (hashmapInsert a queryKeys queryValues n s.device q).outStatus q = 1 ∧
        ∃ i, (hashmapInsert a queryKeys queryValues n s.device q).Occupied a i ∧
          (hashmapInsert a queryKeys queryValues n s.device q).key a i =
            record queryKeys a.keySize q ∧
          (hashmapInsert a queryKeys queryValues n s.device q).value a i =
            record queryValues a.valueSize q

/-- The invariant. -/
structure Session.Inv (s : Session) : Prop where
  live : s.device.Live a
  placed : WellPlaced a.capacity (homeOf a) (s.device.table a)
  stored : ∀ k v, Stored (s.device.table a) k v ↔ s.last k = some v

variable {a} {s : Session} {d : Device} {queryKeys queryValues : ℕ → UInt8} {n q : ℕ}

theorem Device.table_eq_some_iff {i : ℕ} {e : List UInt8 × List UInt8} :
    d.table a i = some e ↔ d.Occupied a i ∧ e = (d.key a i, d.value a i) := by
  unfold Device.table Device.Occupied
  split_ifs with h
  · simp [h, eq_comm]
  · simp [h]

/-- The statuses of a thread of `hashmap_insert`, and what a thread that fails leaves. -/
theorem hashmapInsert_status (hlive : d.Live a) (queryKeys queryValues : ℕ → UInt8) (hq : q < n) :
    ((hashmapInsert a queryKeys queryValues n d q).outStatus q = 0 ↔
      search (d.table a) (record queryKeys a.keySize q)
        (path a.capacity (homeOf a (record queryKeys a.keySize q))) = none) ∧
    ((hashmapInsert a queryKeys queryValues n d q).outStatus q = 0 →
      hashmapInsert a queryKeys queryValues n d q =
        { d with outStatus := Function.update d.outStatus q 0 }) := by
  have hprobe : Inserts a d (record queryKeys a.keySize q) (record queryValues a.valueSize q) _
      (search (d.table a) (record queryKeys a.keySize q)
        (path a.capacity (homeOf a (record queryKeys a.keySize q)))) :=
    insertProbe_home hlive (offset queryKeys (q * a.keySize)) (offset queryValues (q * a.valueSize))
  rw [hashmapInsert, if_neg (Nat.not_le.2 hq)]
  dsimp only
  generalize insertProbe a (offset queryKeys (q * a.keySize))
    (offset queryValues (q * a.valueSize)) (home a (offset queryKeys (q * a.keySize))) 0
    (probes a) d = result at hprobe ⊢
  rw [Function.update_self]
  cases hs : search (d.table a) (record queryKeys a.keySize q)
      (path a.capacity (homeOf a (record queryKeys a.keySize q))) with
  | none =>
    rw [hs] at hprobe
    obtain rfl : result = (d, 0) := hprobe
    exact ⟨iff_of_true rfl rfl, fun _ => rfl⟩
  | some slot =>
    rw [hs] at hprobe
    have hone : result.2 ≠ 0 := by
      rw [hprobe.2]
      decide
    exact ⟨iff_of_false hone (Option.some_ne_none slot), fun hzero => absurd hzero hone⟩

/-- A thread of `hashmap_insert` that does not fail has filled the slot its search ends at. -/
theorem hashmapInsert_stored (hlive : d.Live a) (queryKeys queryValues : ℕ → UInt8) (hq : q < n)
    {slot : ℕ} (hs : search (d.table a) (record queryKeys a.keySize q)
      (path a.capacity (homeOf a (record queryKeys a.keySize q))) = some slot) :
    (hashmapInsert a queryKeys queryValues n d q).outStatus q = 1 ∧
      (hashmapInsert a queryKeys queryValues n d q).table a =
        Function.update (d.table a) slot
          (some (record queryKeys a.keySize q, record queryValues a.valueSize q)) := by
  obtain ⟨htable, -, hout⟩ := hashmapInsert_spec hlive queryKeys queryValues hq
  have hin : inserted a (d.table a) (queryPair a queryKeys queryValues q) =
      (Function.update (d.table a) slot
        (some (record queryKeys a.keySize q, record queryValues a.valueSize q)), true) := by
    simp only [inserted, queryPair, Probing.insert, hs]
  rw [hin] at htable hout
  exact ⟨(congrFun hout q).trans (Function.update_self _ _ _), htable⟩

theorem Session.Inv.isMap (h : s.Inv a) : IsMap a s where
  distinct := by
    intro i j hi hj hkey
    have hti := h.placed i _ _ (Device.table_eq_some_iff.2 ⟨hi, rfl⟩)
    have htj := h.placed j _ _ (Device.table_eq_some_iff.2 ⟨hj, rfl⟩)
    rw [hkey] at hti
    exact Option.some.inj (hti.symm.trans htj)
  reachable := by
    intro i hi
    obtain ⟨n, hn, hslot, hbefore⟩ :=
      h.placed.reachable (Device.table_eq_some_iff.2 ⟨hi, rfl⟩)
    refine ⟨n, hn, ?_, fun m hm hempty => ?_⟩
    · rw [slotOf_toNat home_lt hn]
      exact hslot
    · rw [slotOf_toNat home_lt (hm.trans hn)] at hempty
      exact hbefore m hm (Device.table_of_empty hempty)
  lookup := by
    intro queryKeys n q hq
    have hlast : Probing.lookup (s.device.table a) (record queryKeys a.keySize q)
        (path a.capacity (homeOf a (record queryKeys a.keySize q))) =
          s.last (record queryKeys a.keySize q) := by
      ext v
      rw [h.placed.lookup_eq_some_iff, h.stored]
    obtain ⟨value, hvalue, hthread⟩ := hashmapLookup_spec h.live queryKeys hq
    rw [hlast] at hvalue hthread
    rw [hthread]
    refine ⟨Function.update_self _ _ _, ?_⟩
    rw [record_answer, Function.update_self]
    exact hvalue
  insert := by
    intro queryKeys queryValues n q hq
    obtain ⟨hstatus, hkept⟩ := hashmapInsert_status h.live queryKeys queryValues hq
    refine ⟨?_, hkept⟩
    rw [hstatus, h.placed.search_eq_none_iff, length_occupied_eq_iff, and_comm]
    refine and_congr ⟨fun habsent i hi hkey => ?_, ?_⟩ ⟨fun hfull i hi => ?_, fun hfull i hi => ?_⟩
    · exact habsent _ ⟨i, Device.table_eq_some_iff.2 ⟨hi, by rw [← hkey]⟩⟩
    · rintro habsent v ⟨i, hi⟩
      obtain ⟨hoccupied, he⟩ := Device.table_eq_some_iff.1 hi
      exact habsent i hoccupied (Prod.mk.inj he).1.symm
    · rcases h.live i hi with hempty | hone
      · exact absurd (Device.table_of_empty hempty) (hfull i hi)
      · exact hone
    · rw [Device.table_of_occupied hi (hfull i hi)]
      exact Option.some_ne_none _
  inserted := by
    intro queryKeys queryValues n q hq
    cases hs : search (s.device.table a) (record queryKeys a.keySize q)
        (path a.capacity (homeOf a (record queryKeys a.keySize q))) with
    | none => exact .inl ((hashmapInsert_status h.live queryKeys queryValues hq).1.2 hs)
    | some slot =>
      obtain ⟨hone, htable⟩ := hashmapInsert_stored h.live queryKeys queryValues hq hs
      obtain ⟨hoccupied, he⟩ := Device.table_eq_some_iff.1
        ((congrFun htable slot).trans (Function.update_self _ _ _))
      exact .inr ⟨hone, slot, hoccupied, (Prod.mk.inj he).1.symm, (Prod.mk.inj he).2.symm⟩

theorem Session.inv_start (d : Device) : (Session.start d).Inv a where
  live := Device.live_cleared
  placed := by
    show WellPlaced _ _ (d.cleared.table a)
    rw [Device.table_cleared]
    exact wellPlaced_empty
  stored := by
    intro k v
    show Stored (d.cleared.table a) k v ↔ _
    rw [Device.table_cleared]
    refine iff_of_false ?_ (Option.some_ne_none v).symm
    rintro ⟨i, hi⟩
    cases hi

/-- A lookup answers and changes nothing else. -/
theorem Session.Inv.lookup (h : s.Inv a) (queryKeys : ℕ → UInt8) (n q : ℕ) :
    (s.step a (.lookup queryKeys n q)).Inv a := by
  show Session.Inv a { s with device := hashmapLookup a queryKeys n s.device q }
  by_cases hq : n ≤ q
  · rw [hashmapLookup, if_pos hq]
    exact h
  · obtain ⟨value, -, hthread⟩ := hashmapLookup_spec h.live queryKeys (Nat.lt_of_not_le hq)
    rw [hthread]
    exact ⟨h.live, h.placed, h.stored⟩

/-- A successful insertion fills the slot its search ends at, another changes no slot. -/
theorem Session.Inv.insert (h : s.Inv a) (queryKeys queryValues : ℕ → UInt8) (n q : ℕ) :
    (s.step a (.insert queryKeys queryValues n q)).Inv a := by
  by_cases hq : n ≤ q
  · have hspare : hashmapInsert a queryKeys queryValues n s.device q = s.device := if_pos hq
    have hnone : ¬ (q < n ∧ s.device.outStatus q = 1) := fun hquery => absurd hquery.1 hq.not_gt
    simp only [Session.step, hspare, if_neg hnone]
    exact h
  · have hlt : q < n := Nat.lt_of_not_le hq
    obtain ⟨htable, hlive, -⟩ := hashmapInsert_spec h.live queryKeys queryValues hlt
    cases hs : search (s.device.table a) (record queryKeys a.keySize q)
        (path a.capacity (homeOf a (record queryKeys a.keySize q))) with
    | none =>
      have hin : inserted a (s.device.table a) (queryPair a queryKeys queryValues q) =
          (s.device.table a, false) := by
        simp only [inserted, queryPair, Probing.insert, hs]
      rw [hin] at htable
      have hfailed : ¬ (q < n ∧
          (hashmapInsert a queryKeys queryValues n s.device q).outStatus q = 1) := by
        rw [(hashmapInsert_status h.live queryKeys queryValues hlt).1.2 hs]
        exact fun hquery => absurd hquery.2 (by simp)
      simp only [Session.step, if_neg hfailed]
      exact ⟨hlive, htable.symm ▸ h.placed, htable.symm ▸ h.stored⟩
    | some slot =>
      obtain ⟨hone, htable⟩ := hashmapInsert_stored h.live queryKeys queryValues hlt hs
      have hdone : q < n ∧
          (hashmapInsert a queryKeys queryValues n s.device q).outStatus q = 1 := ⟨hlt, hone⟩
      simp only [Session.step, if_pos hdone]
      refine ⟨hlive, htable.symm ▸ h.placed.update hs, fun k v => ?_⟩
      rw [htable, h.placed.stored_update hs]
      show _ ↔ Function.update s.last (record queryKeys a.keySize q)
        (some (record queryValues a.valueSize q)) k = some v
      by_cases hk : k = record queryKeys a.keySize q
      · rw [if_pos hk, hk, Function.update_self, Option.some.injEq, eq_comm]
      · rw [if_neg hk, Function.update_of_ne hk, h.stored]

theorem Session.Inv.next (h : s.Inv a) (t : Thread) : (s.step a t).Inv a := by
  cases t with
  | insert queryKeys queryValues n q => exact h.insert queryKeys queryValues n q
  | lookup queryKeys n q => exact h.lookup queryKeys n q

theorem Session.Inv.run (h : s.Inv a) (threads : List Thread) : (s.run a threads).Inv a := by
  induction threads generalizing s with
  | nil => exact h
  | cons t threads ih => exact ih (h.next t)

/-- For every capacity and at least as many probes, and any threads one after another from the
all-empty table on, the table is a map. -/
theorem table_is_map (a : LaunchArgs) (d : Device) (threads : List Thread) :
    IsMap a ((Session.start d).run a threads) :=
  ((Session.inv_start d).run threads).isMap

end Realtime

end AtomrAccel
