import Mathlib.Logic.Function.Basic
import Mathlib.Tactic

/-!
# Records in flat memory

A buffer holds records of one length, one after another.

* `offset`, `load`, `store`: the buffer from an element on, its first elements, a loop that stores;
* `record`, `record_store`: a record, and the records after one is stored;
* `flatMap_record`: the records of a buffer in a row are its elements;
* `ofList`, `chunks`, `chunks_eq`: a list as a buffer, and its pieces as records.
-/

namespace Flat

variable {α : Type*} {m m' f : ℕ → α} {n s k base i : ℕ}

/-- The memory from `base` on. -/
def offset (m : ℕ → α) (base : ℕ) : ℕ → α := fun j => m (base + j)

/-- The first elements. -/
def load (m : ℕ → α) (n : ℕ) : List α := (List.range n).map m

/-- The buffer after `m[base + j] = f j` for each `j` below a bound. -/
def store (m : ℕ → α) (base : ℕ) (f : ℕ → α) : ℕ → ℕ → α
  | 0 => m
  | n + 1 => Function.update (store m base f n) (base + n) (f n)

/-- The record `s` of length `n`. -/
def record (m : ℕ → α) (n s : ℕ) : List α := load (offset m (s * n)) n

@[simp] theorem length_load : (load m n).length = n := by
  rw [load, List.length_map, List.length_range]

@[simp] theorem length_record : (record m n s).length = n := length_load

theorem load_eq_iff : load m n = load m' n ↔ ∀ j < n, m j = m' j := by
  rw [load, load, List.map_inj_left]
  simp only [List.mem_range]

theorem store_apply :
    store m base f n i = if base ≤ i ∧ i < base + n then f (i - base) else m i := by
  induction n with
  | zero =>
    rw [if_neg (by omega)]
    rfl
  | succ n ih =>
    rw [store]
    by_cases hi : i = base + n
    · subst hi
      rw [Function.update_self, if_pos (by omega), Nat.add_sub_cancel_left]
    · rw [Function.update_of_ne hi, ih]
      by_cases hin : base ≤ i ∧ i < base + n
      · rw [if_pos hin, if_pos (by omega)]
      · rw [if_neg hin, if_neg (by omega)]

/-- Storing a record leaves the others alone. -/
theorem record_store :
    record (store m (s * n) f n) n = Function.update (record m n) s (load f n) := by
  funext s'
  by_cases hs : s' = s
  · subst hs
    rw [Function.update_self]
    refine load_eq_iff.2 fun j hj => ?_
    rw [offset, store_apply, if_pos (by omega), Nat.add_sub_cancel_left]
  · rw [Function.update_of_ne hs]
    refine load_eq_iff.2 fun j hj => ?_
    rw [offset, offset, store_apply, if_neg]
    rintro ⟨hle, hlt⟩
    rcases Nat.lt_or_gt_of_ne hs with hlow | hhigh
    · have hend : (s' + 1) * n ≤ s * n := Nat.mul_le_mul_right n hlow
      rw [Nat.succ_mul] at hend
      omega
    · have hend : (s + 1) * n ≤ s' * n := Nat.mul_le_mul_right n hhigh
      rw [Nat.succ_mul] at hend
      omega

theorem flatMap_record : (List.range k).flatMap (record m n) = load m (k * n) := by
  induction k with
  | zero => rw [Nat.zero_mul]; rfl
  | succ k ih =>
    rw [List.range_succ, List.flatMap_append, ih, List.flatMap_singleton, record, load, load, load,
      Nat.succ_mul, List.range_add, List.map_append, List.map_map]
    rfl

/-! ### Lists as buffers -/

/-- A list as memory, with `a` after its end. -/
def ofList (l : List α) (a : α) : ℕ → α := fun i => l.getD i a

variable {l : List α} {a : α}

theorem record_ofList (h : s * n + n ≤ l.length) :
    record (ofList l a) n s = (l.drop (s * n)).take n := by
  refine List.ext_getElem ?_ fun j hj hj' => ?_
  · rw [length_record, List.length_take, List.length_drop]
    omega
  · rw [length_record] at hj
    have hget : s * n + j < l.length := by omega
    rw [List.getElem_take, List.getElem_drop]
    simp only [record, load, offset, ofList, List.getElem_map, List.getElem_range]
    exact (List.getElem_eq_getD a).symm

/-- The list in pieces of length `n`, of which the last can be shorter. -/
def chunks (n : ℕ) (l : List α) : List (List α) :=
  (List.range ((l.length + n - 1) / n)).map fun i => (l.drop (i * n)).take n

theorem record_le (h : l.length = k * n) (hs : s < k) : s * n + n ≤ l.length := by
  have hend : (s + 1) * n ≤ k * n := Nat.mul_le_mul_right n hs
  rw [Nat.succ_mul] at hend
  omega

theorem chunks_eq (hn : 0 < n) (h : l.length = k * n) :
    chunks n l = (List.range k).map (record (ofList l a) n) := by
  have hcount : (l.length + n - 1) / n = k := by
    rw [h, Nat.add_sub_assoc hn, Nat.mul_comm, Nat.mul_add_div hn,
      Nat.div_eq_of_lt (Nat.sub_lt hn Nat.one_pos), Nat.add_zero]
  rw [chunks, hcount]
  refine List.map_congr_left fun i hi => ?_
  rw [record_ofList (record_le h (List.mem_range.1 hi))]

end Flat
