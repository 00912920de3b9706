import Mathlib.Data.List.Sort
import Mathlib.Tactic

/-!
# Stable sorts

A list is a stable sort of another when its keys are in order and, key by key, it has the same
elements in the same order.  Such a list is a permutation.

* `IsStableSort`, `IsStableSort.perm`;
* `isStableSort_insertionSort`: insertion sort is one;
* `count_le_of_getElem`, `eq_of_count_le`: where the elements of a two-valued ordered list stand.
-/

namespace StableSort

variable {α κ : Type*} [DecidableEq κ]

/-- `l'` is a stable sort of `l` by `key` in the order `le`. -/
structure IsStableSort (key : α → κ) (le : κ → κ → Prop) (l l' : List α) : Prop where
  sorted : (l'.map key).Pairwise le
  stable : ∀ k, l'.filter (fun x => key x = k) = l.filter (fun x => key x = k)

variable {key : α → κ} {le : κ → κ → Prop} {l l' : List α}

theorem IsStableSort.perm (h : IsStableSort key le l l') : l'.Perm l := by
  classical
  rw [List.perm_iff_count]
  intro a
  have hcount : ∀ m : List α, (m.filter fun x => key x = key a).count a = m.count a :=
    fun m => List.count_filter (by simp)
  rw [← hcount l', h.stable, hcount]

/-- A list of at most one element is sorted as it is. -/
theorem isStableSort_of_length_le_one (h : l.length ≤ 1) : IsStableSort key le l l where
  sorted := by
    match l, h with
    | [], _ => exact List.Pairwise.nil
    | [_], _ => exact List.pairwise_singleton _ _
  stable _ := rfl

section InsertionSort

variable [DecidableRel le] [Std.Total le]

/-- An element is inserted before those of its own key. -/
theorem filter_orderedInsert (a : α) (l : List α) (k : κ) :
    (l.orderedInsert (fun x y => le (key x) (key y)) a).filter (fun x => key x = k) =
      (a :: l).filter fun x => key x = k := by
  induction l with
  | nil => rfl
  | cons b l ih =>
    rw [List.orderedInsert_cons]
    split_ifs with hle
    · rfl
    · have hne : key a ≠ key b := by
        intro heq
        apply hle
        rw [heq]
        exact (Std.Total.total (r := le) (key b) (key b)).elim id id
      rw [List.filter_cons, ih]
      by_cases ha : key a = k
      · have hb : ¬ key b = k := fun hb => hne (ha.trans hb.symm)
        simp [ha, hb]
      · simp [List.filter_cons, ha]

theorem isStableSort_insertionSort [IsTrans κ le] (l : List α) :
    IsStableSort key le l (l.insertionSort fun x y => le (key x) (key y)) where
  sorted := by
    rw [List.pairwise_map]
    have htotal : Std.Total fun x y : α => le (key x) (key y) :=
      ⟨fun x y => Std.Total.total (r := le) (key x) (key y)⟩
    have htrans : IsTrans α fun x y => le (key x) (key y) :=
      ⟨fun _ _ _ h h' => IsTrans.trans _ _ _ h h'⟩
    exact List.pairwise_insertionSort _ l
  stable k := by
    induction l with
    | nil => rfl
    | cons a l ih =>
      rw [List.insertionSort_cons, filter_orderedInsert]
      simp only [List.filter_cons, ih]

end InsertionSort

/-! ### Ordered lists of two values -/

variable {m : List κ} {e o : κ} {k : ℕ}

/-- Past an element that may not precede `e` there is no `e`. -/
theorem count_le_of_getElem (hm : m.Pairwise le) (ho : m[k]? = some o) (hne : o ≠ e)
    (hle : ¬ le o e) : m.count e ≤ k := by
  obtain ⟨hk, hget⟩ := List.getElem?_eq_some_iff.1 ho
  have hsplit : m = m.take k ++ o :: m.drop (k + 1) := by
    rw [← hget, List.getElem_cons_drop, List.take_append_drop]
  have hafter : (m.drop (k + 1)).count e = 0 := by
    rw [List.count_eq_zero]
    intro he
    rw [hsplit, List.pairwise_append, List.pairwise_cons] at hm
    exact hle (hm.2.1.1 e he)
  have htake : (m.take k).count e ≤ k := List.count_le_length.trans (List.length_take_le _ _)
  rw [hsplit, List.count_append, List.count_cons_of_ne hne, hafter]
  exact htake

/-- An ordered list of `e`s and `o`s has its `e`s first. -/
theorem eq_of_count_le (hm : m.Pairwise le) (hval : ∀ x ∈ m, x = e ∨ x = o) (hle : ¬ le o e)
    (hcount : m.count e ≤ k) {x : κ} (hx : m[k]? = some x) : x = o := by
  obtain ⟨hk, hget⟩ := List.getElem?_eq_some_iff.1 hx
  refine (hval x (List.mem_of_getElem? hx)).resolve_left fun hxe => ?_
  subst hxe
  have hall : ∀ y ∈ m.take (k + 1), y = x := by
    intro y hy
    obtain ⟨j, hj, rfl⟩ := List.mem_take_iff_getElem.1 hy
    have hjm : j < m.length := by omega
    rcases hval m[j] (List.getElem_mem hjm) with h | h
    · exact h
    · rcases Nat.lt_or_ge j k with hlt | hge
      · have hjk := List.pairwise_iff_getElem.1 hm j k hjm hk hlt
        rw [h, hget] at hjk
        exact absurd hjk hle
      · obtain rfl : j = k := by omega
        exact hget
  have hlen : (m.take (k + 1)).length = k + 1 := by
    rw [List.length_take]
    omega
  have hfull : (m.take (k + 1)).count x = k + 1 := by
    rw [List.count_eq_length.2 fun y hy => (hall y hy).symm, hlen]
  have hsub := (List.take_sublist (k + 1) m).count_le x
  omega

end StableSort
