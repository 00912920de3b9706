import Mathlib.Data.List.Nodup
import Mathlib.Tactic

/-!
# Bounded maps that forget the least recently used entry

The entries are listed from the most to the least recently used.

* `Lru`: entries with distinct keys, no more than the capacity;
* `get?` moves an entry to the front, `put` adds or replaces one there and drops the last entry when
  there are too many;
* `mem_of_get?`, `get?_of_mem`: what is found is what is there;
* `mem_entries_get?`, `mem_entries_put`: every entry kept was put;
* `mem_put_self`, `not_mem_of_get?_eq_none`: a new entry is kept, and a missing key has none;
* `erase`, `entries_get?`, `entries_put_of_mem`, `entries_put_of_lt`, `entries_put_of_full`: the
  entries after each operation;
* `evicted`, `values_put_evicted`: what a new key costs the map;
* `map`, `get?_map`, `put_map`: other values under the same keys.
-/

/-- A map of at most `capacity` entries, the most recently used first. -/
structure Lru (K V : Type*) where
  capacity : ℕ
  entries : List (K × V)
  nodup : (entries.map Prod.fst).Nodup
  length_le : entries.length ≤ capacity

namespace Lru

variable {K V : Type*}

/-- An empty cache. -/
def empty (capacity : ℕ) : Lru K V := ⟨capacity, [], List.nodup_nil, Nat.zero_le _⟩

variable [DecidableEq K]

/-- The other entries. -/
def others (l : Lru K V) (k : K) : List (K × V) := l.entries.filter fun e => e.1 ≠ k

theorem nodup_cons_others (l : Lru K V) (k : K) (v : V) :
    (((k, v) :: l.others k).map Prod.fst).Nodup := by
  rw [List.map_cons, List.nodup_cons]
  refine ⟨?_, l.nodup.sublist (List.filter_sublist.map _)⟩
  simp [others]

theorem length_others_lt (l : Lru K V) {k : K} {v : V} (h : (k, v) ∈ l.entries) :
    (l.others k).length < l.entries.length :=
  List.length_filter_lt_length_iff_exists.2 ⟨(k, v), h, by simp⟩

theorem mem_of_find? {l : Lru K V} {k : K} {e : K × V}
    (h : l.entries.find? (fun e => e.1 = k) = some e) : (k, e.2) ∈ l.entries := by
  have hk : e.1 = k := by simpa using List.find?_some h
  exact hk ▸ List.mem_of_find?_eq_some h

/-- The value of a key, whose entry becomes the most recently used. -/
def get? (l : Lru K V) (k : K) : Option (V × Lru K V) :=
  match h : l.entries.find? fun e => e.1 = k with
  | none => none
  | some e =>
    some (e.2, {
      capacity := l.capacity
      entries := (k, e.2) :: l.others k
      nodup := l.nodup_cons_others k e.2
      length_le := (l.length_others_lt (mem_of_find? h)).trans_le l.length_le })

/-- Add or replace an entry, and drop the least recently used one when there are too many. -/
def put (l : Lru K V) (k : K) (v : V) : Lru K V where
  capacity := l.capacity
  entries := ((k, v) :: l.others k).take l.capacity
  nodup := (l.nodup_cons_others k v).sublist ((List.take_sublist _ _).map _)
  length_le := List.length_take_le _ _

theorem mem_others {l : Lru K V} {k : K} {e : K × V} (h : e ∈ l.others k) : e ∈ l.entries :=
  List.mem_of_mem_filter h

theorem mem_of_get? {l l' : Lru K V} {k : K} {v : V} (h : l.get? k = some (v, l')) :
    (k, v) ∈ l.entries := by
  unfold get? at h
  split at h
  · cases h
  · rename_i e he
    cases h
    exact mem_of_find? he

omit [DecidableEq K] in
/-- A key has one entry. -/
theorem eq_of_mem {l : Lru K V} {e e' : K × V} (he : e ∈ l.entries) (he' : e' ∈ l.entries)
    (hk : e.1 = e'.1) : e = e' :=
  List.inj_on_of_nodup_map l.nodup he he' hk

/-- An entry is found under its key. -/
theorem get?_of_mem {l : Lru K V} {k : K} {v : V} (h : (k, v) ∈ l.entries) :
    ∃ l', l.get? k = some (v, l') := by
  unfold get?
  split
  · rename_i hnone
    have habsent := List.find?_eq_none.1 hnone (k, v) h
    simp at habsent
  · rename_i e he
    have hk : e.1 = k := by simpa using List.find?_some he
    obtain rfl : e = (k, v) := eq_of_mem (List.mem_of_find?_eq_some he) h hk
    exact ⟨_, rfl⟩

/-- A lookup adds nothing. -/
theorem mem_entries_get? {l l' : Lru K V} {k : K} {v : V} (h : l.get? k = some (v, l'))
    {e : K × V} (he : e ∈ l'.entries) : e ∈ l.entries := by
  have hfound := mem_of_get? h
  unfold get? at h
  split at h
  · cases h
  · cases h
    obtain rfl | hrest := List.mem_cons.1 he
    · exact hfound
    · exact mem_others hrest

/-- What is kept after a `put` is the new entry or was there. -/
theorem mem_entries_put {l : Lru K V} {k : K} {v : V} {e : K × V} (h : e ∈ (l.put k v).entries) :
    e = (k, v) ∨ e ∈ l.entries := by
  obtain rfl | hrest := List.mem_cons.1 (List.mem_of_mem_take h)
  · exact .inl rfl
  · exact .inr (mem_others hrest)

/-- A map that can hold anything holds what was just put. -/
theorem mem_put_self {l : Lru K V} (hcap : 0 < l.capacity) (k : K) (v : V) :
    (k, v) ∈ (l.put k v).entries := by
  change (k, v) ∈ ((k, v) :: l.others k).take l.capacity
  obtain ⟨c, hc⟩ := Nat.exists_eq_succ_of_ne_zero hcap.ne'
  rw [hc, List.take_succ_cons]
  exact List.mem_cons_self

theorem not_mem_of_get?_eq_none {l : Lru K V} {k : K} (h : l.get? k = none) {e : K × V}
    (he : e ∈ l.entries) : e.1 ≠ k := by
  rintro rfl
  obtain ⟨l', hfound⟩ := get?_of_mem (v := e.2) he
  rw [h] at hfound
  cases hfound

theorem get?_capacity {l l' : Lru K V} {k : K} {v : V} (h : l.get? k = some (v, l')) :
    l'.capacity = l.capacity := by
  unfold get? at h
  split at h
  · cases h
  · cases h
    rfl

@[simp] theorem put_capacity (l : Lru K V) (k : K) (v : V) :
    (l.put k v).capacity = l.capacity := rfl

/-- Remove an entry. -/
def erase (l : Lru K V) (k : K) : Lru K V where
  capacity := l.capacity
  entries := l.others k
  nodup := l.nodup.sublist (List.filter_sublist.map _)
  length_le := (List.length_filter_le _ _).trans l.length_le

theorem others_of_not_mem {l : Lru K V} {k : K} (h : ∀ e ∈ l.entries, e.1 ≠ k) :
    l.others k = l.entries :=
  List.filter_eq_self.2 fun e he => decide_eq_true (h e he)

theorem erase_of_not_mem {l : Lru K V} {k : K} (h : ∀ e ∈ l.entries, e.1 ≠ k) :
    l.erase k = l := by
  have hothers := others_of_not_mem h
  unfold erase
  cases l
  congr

/-- A key has one entry: the others are one fewer. -/
theorem length_others_of_mem {l : Lru K V} {k : K} {v : V} (h : (k, v) ∈ l.entries) :
    (l.others k).length + 1 = l.entries.length := by
  have hkeys : (l.others k).map Prod.fst = (l.entries.map Prod.fst).erase k := by
    rw [l.nodup.erase_eq_filter, List.filter_map]
    refine congrArg _ (List.filter_congr fun e _ => ?_)
    show decide (e.1 ≠ k) = (e.1 != k)
    rw [bne, beq_eq_decide, decide_not]
  have hlen := congrArg List.length hkeys
  rw [List.length_erase_of_mem (List.mem_map.2 ⟨(k, v), h, rfl⟩), List.length_map,
    List.length_map] at hlen
  have hpos := List.length_pos_of_mem h
  omega

theorem entries_get? {l l' : Lru K V} {k : K} {v : V} (h : l.get? k = some (v, l')) :
    l'.entries = (k, v) :: l.others k := by
  unfold get? at h
  split at h
  · cases h
  · cases h
    rfl

/-- Replacing the value of a key drops nothing. -/
theorem entries_put_of_mem {l : Lru K V} {k : K} {v v' : V} (h : (k, v) ∈ l.entries) :
    (l.put k v').entries = (k, v') :: l.others k := by
  refine List.take_of_length_le ?_
  rw [List.length_cons]
  exact (l.length_others_lt h).trans_le l.length_le

/-- Nor does a new key in a map that is not full. -/
theorem entries_put_of_lt {l : Lru K V} {k : K} (v : V) (h : ∀ e ∈ l.entries, e.1 ≠ k)
    (hroom : l.entries.length < l.capacity) : (l.put k v).entries = (k, v) :: l.entries := by
  show ((k, v) :: l.others k).take l.capacity = _
  rw [others_of_not_mem h]
  exact List.take_of_length_le hroom

/-- In a full map a new key takes the place of the least recently used one. -/
theorem entries_put_of_full {l : Lru K V} {k : K} (v : V) (h : ∀ e ∈ l.entries, e.1 ≠ k)
    (hfull : l.entries.length = l.capacity) (hpos : 0 < l.capacity) :
    (l.put k v).entries = (k, v) :: l.entries.dropLast := by
  show ((k, v) :: l.others k).take l.capacity = _
  obtain ⟨c, hc⟩ := Nat.exists_eq_succ_of_ne_zero hpos.ne'
  rw [others_of_not_mem h, hc, List.take_succ_cons, List.dropLast_eq_take, hfull, hc]
  rfl

/-- A lookup loses nothing either. -/
theorem mem_get?_iff {l l' : Lru K V} {k : K} {v : V} (h : l.get? k = some (v, l')) {e : K × V} :
    e ∈ l'.entries ↔ e ∈ l.entries := by
  refine ⟨mem_entries_get? h, fun he => ?_⟩
  rw [entries_get? h]
  by_cases hk : e.1 = k
  · exact List.mem_cons.2 (.inl (eq_of_mem he (mem_of_get? h) hk))
  · exact List.mem_cons_of_mem _ (List.mem_filter.2 ⟨he, decide_eq_true hk⟩)

/-- The values that a new key takes out of the map. -/
def evicted (l : Lru K V) (k : K) : List V := ((l.others k).drop (l.capacity - 1)).map Prod.snd

theorem values_put_evicted {l : Lru K V} {k : K} (v : V) (hcap : 0 < l.capacity)
    (h : ∀ e ∈ l.entries, e.1 ≠ k) :
    (l.put k v).entries.map Prod.snd ++ l.evicted k = v :: l.entries.map Prod.snd := by
  obtain ⟨c, hc⟩ := Nat.exists_eq_succ_of_ne_zero hcap.ne'
  have hput : (l.put k v).entries = (k, v) :: l.entries.take c := by
    show ((k, v) :: l.others k).take l.capacity = _
    rw [others_of_not_mem h, hc, List.take_succ_cons]
  have hevicted : l.evicted k = (l.entries.drop c).map Prod.snd := by
    unfold evicted
    rw [others_of_not_mem h, hc, Nat.succ_sub_one]
  rw [hput, hevicted, List.map_cons, List.cons_append, ← List.map_append, List.take_append_drop]

section Map

variable {W : Type*} (f : V → W)

/-- The same keys in the same order, with other values. -/
def map (l : Lru K V) : Lru K W where
  capacity := l.capacity
  entries := l.entries.map fun e => (e.1, f e.2)
  nodup := by
    rw [List.map_map]
    exact l.nodup
  length_le := by
    rw [List.length_map]
    exact l.length_le

omit [DecidableEq K] in
theorem ext_entries {l l' : Lru K V} (hcap : l.capacity = l'.capacity)
    (h : l.entries = l'.entries) : l = l' := by
  cases l
  cases l'
  cases hcap
  cases h
  rfl

theorem others_map (l : Lru K V) (k : K) :
    (l.map f).others k = (l.others k).map fun e => (e.1, f e.2) := by
  unfold others map
  rw [List.filter_map]
  rfl

theorem put_map (l : Lru K V) (k : K) (v : V) : (l.put k v).map f = (l.map f).put k (f v) := by
  refine ext_entries rfl ?_
  show (((k, v) :: l.others k).take l.capacity).map _ = ((k, f v) :: (l.map f).others k).take _
  rw [others_map, List.map_take, List.map_cons]
  rfl

theorem get?_map (l : Lru K V) (k : K) :
    (l.map f).get? k = (l.get? k).map fun r => (f r.1, r.2.map f) := by
  cases hget : l.get? k with
  | some r =>
    obtain ⟨v, l'⟩ := r
    have hmem : (k, f v) ∈ (l.map f).entries := List.mem_map.2 ⟨(k, v), mem_of_get? hget, rfl⟩
    obtain ⟨m, hm⟩ := get?_of_mem hmem
    rw [hm]
    refine congrArg (fun m => some (f v, m)) (ext_entries ?_ ?_)
    · exact (get?_capacity hm).trans (get?_capacity hget).symm
    · rw [entries_get? hm, others_map]
      show _ = l'.entries.map _
      rw [entries_get? hget]
      rfl
  | none =>
    cases hm : (l.map f).get? k with
    | none => rfl
    | some r =>
      obtain ⟨e, he, heq⟩ := List.mem_map.1 (mem_of_get? hm)
      exact absurd (congrArg Prod.fst heq) (not_mem_of_get?_eq_none hget he)

end Map

end Lru
