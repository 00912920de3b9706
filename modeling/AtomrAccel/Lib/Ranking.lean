import Mathlib.Data.List.Sort
import Mathlib.Tactic

/-!
# Ranking by a stable sort

A stable sort of a list by a relation that is total and transitive on its elements lists the places
of the list in one order: by the relation, and where that is indifferent by the places themselves.

* `TotalOn`: total and transitive on some elements;
* `Ranks r l order`: `order` is that order of the places;
* `exists_ranks`: insertion sort follows it;
* `Ranks.eq`: there is only one;
* `Ranks.of_take`: what the first `k` leave out ranks after them.
-/

namespace Ranking

variable {α : Type*} {r : α → α → Prop} {l : List α}

/-- The relation is total and transitive on the list. -/
structure TotalOn (r : α → α → Prop) (l : List α) : Prop where
  total : ∀ a ∈ l, ∀ b ∈ l, r a b ∨ r b a
  trans : ∀ a ∈ l, ∀ b ∈ l, ∀ c ∈ l, r a b → r b c → r a c

/-- Place `i` comes before place `j`. -/
def Precedes (r : α → α → Prop) (l : List α) (i j : Fin l.length) : Prop :=
  r (l.get i) (l.get j) ∧ (r (l.get j) (l.get i) → i < j)

/-- `order` lists the places of `l`, each before those it precedes. -/
structure Ranks (r : α → α → Prop) (l : List α) (order : List (Fin l.length)) : Prop where
  perm : order.Perm (List.finRange l.length)
  pairwise : order.Pairwise (Precedes r l)

theorem not_sublist_swap {β : Type*} {m : List β} (hm : m.Nodup) {a b : β}
    (hab : [a, b].Sublist m) : ¬ [b, a].Sublist m := by
  induction m with
  | nil => simp at hab
  | cons c m ih =>
    obtain ⟨hc, hm⟩ := List.nodup_cons.1 hm
    intro hba
    rcases List.sublist_cons_iff.1 hab with h | ⟨t, ht, h⟩
    · rcases List.sublist_cons_iff.1 hba with h' | ⟨t', ht', -⟩
      · exact ih hm h h'
      · obtain ⟨rfl, -⟩ := List.cons.inj ht'
        exact hc (h.subset (by simp))
    · obtain ⟨rfl, rfl⟩ := List.cons.inj ht
      rcases List.sublist_cons_iff.1 hba with h' | ⟨t', ht', -⟩
      · exact hc (h'.subset (by simp))
      · obtain ⟨rfl, -⟩ := List.cons.inj ht'
        exact hc (h.subset (by simp))

variable [DecidableRel r]

/-- Insertion sort lists the elements by the ranking of their places. -/
theorem exists_ranks (h : TotalOn r l) :
    ∃ order, Ranks r l order ∧ l.insertionSort r = order.map l.get := by
  let places : Fin l.length → Fin l.length → Prop := fun i j => r (l.get i) (l.get j)
  have htotal : Std.Total places :=
    ⟨fun i j => h.total _ (List.get_mem l i) _ (List.get_mem l j)⟩
  have htrans : IsTrans (Fin l.length) places :=
    ⟨fun i j k => h.trans _ (List.get_mem l i) _ (List.get_mem l j) _ (List.get_mem l k)⟩
  refine ⟨(List.finRange l.length).insertionSort places, ⟨List.perm_insertionSort _ _, ?_⟩, ?_⟩
  · have hnodup : ((List.finRange l.length).insertionSort places).Nodup :=
      (List.perm_insertionSort _ _).nodup_iff.2 (List.nodup_finRange _)
    rw [List.pairwise_iff_forall_sublist]
    intro i j hij
    refine ⟨List.pairwise_iff_forall_sublist.1 (List.pairwise_insertionSort places _) hij,
      fun hji => ?_⟩
    by_contra hnot
    have hne : i ≠ j := by
      rintro rfl
      exact List.nodup_iff_sublist.1 hnodup i hij
    -- the places are listed in their order before the sort
    have hlt : j < i := lt_of_le_of_ne (not_lt.1 hnot) (Ne.symm hne)
    have hstart : [j, i].Sublist (List.finRange l.length) := by
      have hsubperm : [j, i].Subperm (List.finRange l.length) :=
        List.subperm_of_subset (by simpa using Ne.symm hne) fun k _ => List.mem_finRange k
      exact List.sublist_of_subperm_of_pairwise hsubperm (List.pairwise_pair.2 hlt)
        (List.pairwise_lt_finRange _)
    have hsorted := List.sublist_insertionSort (r := places) (List.pairwise_pair.2 hji) hstart
    exact not_sublist_swap hnodup hij hsorted
  · rw [List.map_insertionSort places r l.get _ fun i _ j _ => Iff.rfl, List.map_get_finRange]

omit [DecidableRel r] in
/-- The ranking is the only one. -/
theorem Ranks.eq {order order' : List (Fin l.length)} (h : Ranks r l order)
    (h' : Ranks r l order') : order = order' := by
  refine List.Perm.eq_of_pairwise ?_ h.pairwise h'.pairwise (h.perm.trans h'.perm.symm)
  intro i j _ _ hij hji
  exact absurd (hij.2 hji.1) (not_lt.2 (hji.2 hij.1).le)

omit [DecidableRel r] in
/-- Whatever is not among the first `k` ranks after each of them. -/
theorem Ranks.of_take {order : List (Fin l.length)} (h : Ranks r l order) {k : ℕ}
    {i j : Fin l.length} (hi : i ∈ order.take k) (hj : j ∉ order.take k) : Precedes r l i j := by
  have hsorted := h.pairwise
  have hmem : j ∈ order := h.perm.mem_iff.2 (List.mem_finRange j)
  rw [← List.take_append_drop k order] at hsorted hmem
  have hdrop : j ∈ order.drop k := (List.mem_append.1 hmem).resolve_left hj
  exact (List.pairwise_append.1 hsorted).2.2 i hi j hdrop

end Ranking
