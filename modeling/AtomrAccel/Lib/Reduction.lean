import Mathlib.Data.List.Basic
import Mathlib.Tactic

/-!
# Reductions without an identity

The fold of a nonempty list by an associative and commutative operation.  A parallel reduction
folds the pieces of its input one by one, in no particular order, and then folds the results; the
pieces are padded to a common length.

* `reduce`, `reduce_append`, `reduce_perm`: the fold, and that neither grouping nor order matters;
* `reduce_map_of_pieces`: folding the folds of the pieces;
* `reduce_append_replicate`: padding with a neutral element does nothing.
-/

namespace Reduction

variable {α ι : Type*} {op : α → α → α}

/-- The fold of a list, `none` for the empty one. -/
def reduce (op : α → α → α) : List α → Option α
  | [] => none
  | x :: l => some (l.foldl op x)

@[simp] theorem reduce_singleton (x : α) : reduce op [x] = some x := rfl

theorem reduce_of_cons {l t : List α} {x : α} (op : α → α → α) (h : l = x :: t) :
    reduce op l = some (l.tail.foldl op x) := by
  subst h
  rfl

theorem reduce_append [Std.Associative op] (l l' : List α) :
    reduce op (l ++ l') = Option.merge op (reduce op l) (reduce op l') := by
  cases l with
  | nil => cases l' <;> rfl
  | cons x l =>
    cases l' with
    | nil => simp [reduce]
    | cons y l' =>
      simp only [reduce, List.cons_append, List.foldl_append, List.foldl_cons,
        Option.merge_some_some]
      rw [List.foldl_assoc]

theorem reduce_cons [Std.Associative op] (x : α) (l : List α) :
    reduce op (x :: l) = Option.merge op (some x) (reduce op l) :=
  reduce_append [x] l

theorem reduce_perm [Std.Associative op] [Std.Commutative op] {l l' : List α} (h : l.Perm l') :
    reduce op l = reduce op l' := by
  induction h with
  | nil => rfl
  | cons x _ ih => rw [reduce_cons, reduce_cons, ih]
  | swap x y l =>
    have hcomm : reduce op [y, x] = reduce op [x, y] :=
      congrArg some (Std.Commutative.comm y x : op y x = op x y)
    calc reduce op (y :: x :: l)
        = Option.merge op (reduce op [y, x]) (reduce op l) := reduce_append [y, x] l
      _ = Option.merge op (reduce op [x, y]) (reduce op l) := by rw [hcomm]
      _ = reduce op (x :: y :: l) := (reduce_append [x, y] l).symm
  | trans _ _ ih₁ ih₂ => exact ih₁.trans ih₂

/-- Folding the folds of the pieces is folding all of them. -/
theorem reduce_map_of_pieces [Std.Associative op] {xs : List ι} {piece : ι → List α} {r : ι → α}
    (h : ∀ x ∈ xs, reduce op (piece x) = some (r x)) :
    reduce op (xs.map r) = reduce op (xs.flatMap piece) := by
  induction xs with
  | nil => rfl
  | cons x xs ih =>
    rw [List.map_cons, List.flatMap_cons, reduce_cons, reduce_append, h x List.mem_cons_self,
      ih fun y hy => h y (List.mem_cons_of_mem x hy)]

/-- What holds of a result when it holds of one of the operands holds of a fold when it holds of an
element. -/
theorem reduce_iff_exists [Std.Associative op] {p : α → Prop} (hp : ∀ a b, p (op a b) ↔ p a ∨ p b)
    {l : List α} {r : α} (h : reduce op l = some r) : p r ↔ ∃ x ∈ l, p x := by
  induction l generalizing r with
  | nil => cases h
  | cons x l ih =>
    rw [reduce_cons] at h
    cases hl : reduce op l with
    | none =>
      cases l with
      | nil =>
        rw [hl] at h
        cases h
        simp
      | cons y l => cases hl
    | some r' =>
      rw [hl, Option.merge_some_some] at h
      cases h
      rw [hp, ih hl, List.exists_mem_cons_iff]

theorem reduce_replicate {x : α} (hx : op x x = x) (k : ℕ) :
    reduce op (List.replicate (k + 1) x) = some x := by
  rw [List.replicate_succ, reduce]
  congr 1
  induction k with
  | zero => rfl
  | succ k ih => rw [List.replicate_succ, List.foldl_cons, hx, ih]

/-- Padding with a neutral element. -/
theorem reduce_append_replicate {e : α} (he : ∀ x, op x e = x) {l : List α} (hl : l ≠ []) (k : ℕ) :
    reduce op (l ++ List.replicate k e) = reduce op l := by
  obtain ⟨x, l, rfl⟩ := List.exists_cons_of_ne_nil hl
  rw [List.cons_append, reduce, reduce, List.foldl_append]
  congr 1
  induction k with
  | zero => rfl
  | succ k ih => rw [List.replicate_succ, List.foldl_cons, he, ih]

/-- A list of `u`s with a single `v` in it, where `v` wins over `u`. -/
theorem reduce_single [Std.Associative op] {u v : α} (hu : op u u = u) (huv : op u v = v)
    (hvu : op v u = v) (p k : ℕ) :
    reduce op ((List.range (k + 1)).map fun j => if j = p then v else u) =
      some (if p ≤ k then v else u) := by
  induction k with
  | zero => simp [eq_comm]
  | succ k ih =>
    rw [List.range_succ, List.map_append, reduce_append, ih]
    rcases Nat.lt_trichotomy p (k + 1) with hp | rfl | hp
    · simp [show p ≤ k by omega, show p ≤ k + 1 by omega, show k + 1 ≠ p by omega, hvu]
    · simp [huv]
    · simp [show ¬ p ≤ k by omega, show ¬ p ≤ k + 1 by omega, show k + 1 ≠ p by omega, hu]

end Reduction
