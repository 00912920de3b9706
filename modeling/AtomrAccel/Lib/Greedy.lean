import Mathlib.Tactic

/-!
# Greedy extension of a sequence

A next-element function extends a sequence one element at a time, each computed from all before it.

* `Greedy.extend f n xs`: `n` more elements after `xs`;
* `Greedy.accepted f xs cs`: the length of the longest first part of `cs` that `f` itself would have
  put after `xs`;
* `Greedy.extend_accepted`: that part is an extension.
-/

namespace Greedy

variable {α : Type*} (f : List α → α)

/-- `n` steps, each of which appends what `f` says. -/
def extend : ℕ → List α → List α
  | 0, xs => xs
  | n + 1, xs => extend n (xs ++ [f xs])

/-- The longest first part of the candidates that is an extension. -/
def accepted [DecidableEq α] : List α → List α → ℕ
  | _, [] => 0
  | xs, c :: cs => if c = f xs then accepted (xs ++ [c]) cs + 1 else 0

variable {f}

theorem length_extend (n : ℕ) (xs : List α) : (extend f n xs).length = xs.length + n := by
  induction n generalizing xs with
  | zero => rfl
  | succ n ih =>
    rw [extend, ih, List.length_append, List.length_singleton]
    omega

theorem length_le_extend (n : ℕ) (xs : List α) : xs.length ≤ (extend f n xs).length := by
  rw [length_extend]
  exact Nat.le_add_right _ _

theorem extend_add (n m : ℕ) (xs : List α) :
    extend f (n + m) xs = extend f m (extend f n xs) := by
  induction n generalizing xs with
  | zero => rw [Nat.zero_add, extend]
  | succ n ih => rw [Nat.succ_add, extend, extend, ih]

theorem extend_succ (n : ℕ) (xs : List α) :
    extend f (n + 1) xs = extend f n xs ++ [f (extend f n xs)] := by
  rw [extend_add]
  rfl

variable [DecidableEq α]

theorem accepted_le (xs cs : List α) : accepted f xs cs ≤ cs.length := by
  induction cs generalizing xs with
  | nil => exact le_rfl
  | cons c cs ih =>
    rw [accepted, List.length_cons]
    split_ifs with hc
    · exact Nat.succ_le_succ (ih _)
    · exact Nat.zero_le _

/-- What is accepted is what `f` would have produced. -/
theorem extend_accepted (xs cs : List α) :
    xs ++ cs.take (accepted f xs cs) = extend f (accepted f xs cs) xs := by
  induction cs generalizing xs with
  | nil => exact List.append_nil xs
  | cons c cs ih =>
    rw [accepted]
    split_ifs with hc
    · rw [List.take_succ_cons, extend, ← hc, ← ih (xs ++ [c]), List.append_assoc]
      rfl
    · exact List.append_nil xs

end Greedy
