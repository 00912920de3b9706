import Mathlib.Tactic

/-!
# Machines that answer each input

A machine takes an input and gives an answer.  Two machines are compared by their answers to a
sequence of inputs.

* `Machine`, `answers`, `final`: a machine, its answers and its last state;
* `Meets`: a condition on the state and the input of every step of a run;
* `run_sim`: related machines that answer alike and stay related;
* `answers_eq_iff`: related machines that answer alike, and stay related, exactly when the step
  meets a condition: their answers to a sequence agree exactly when every step meets it.
-/

namespace Reactive

/-- A machine that answers every input. -/
structure Machine (σ ι ο : Type*) where
  step : σ → ι → σ × ο

namespace Machine

variable {σ τ ι ο : Type*} (M : Machine σ ι ο)

/-- The answers to some inputs. -/
def answers : σ → List ι → List ο
  | _, [] => []
  | s, i :: is => (M.step s i).2 :: answers (M.step s i).1 is

/-- The state after some inputs. -/
def final : σ → List ι → σ
  | s, [] => s
  | s, i :: is => final (M.step s i).1 is

/-- Every step of the run is taken where `Q` allows it. -/
def Meets (Q : σ → ι → Prop) : σ → List ι → Prop
  | _, [] => True
  | s, i :: is => Q s i ∧ Meets Q (M.step s i).1 is

@[simp] theorem answers_nil (s : σ) : M.answers s [] = [] := rfl

theorem answers_cons (s : σ) (i : ι) (is : List ι) :
    M.answers s (i :: is) = (M.step s i).2 :: M.answers (M.step s i).1 is := rfl

theorem final_cons (s : σ) (i : ι) (is : List ι) :
    M.final s (i :: is) = M.final (M.step s i).1 is := rfl

variable {M} {N : Machine τ ι ο} {R : σ → τ → Prop}

/-- Machines that answer the inputs in `P` alike, and stay related. -/
theorem run_sim {P : ι → Prop}
    (h : ∀ s t i, P i → R s t →
      (M.step s i).2 = (N.step t i).2 ∧ R (M.step s i).1 (N.step t i).1)
    {s : σ} {t : τ} {is : List ι} (hP : ∀ i ∈ is, P i) (hR : R s t) :
    M.answers s is = N.answers t is ∧ R (M.final s is) (N.final t is) := by
  induction is generalizing s t with
  | nil => exact ⟨rfl, hR⟩
  | cons i is ih =>
    obtain ⟨hi, his⟩ := List.forall_mem_cons.1 hP
    obtain ⟨hsame, hnext⟩ := h s t i hi hR
    obtain ⟨hrest, hfinal⟩ := ih his hnext
    refine ⟨?_, hfinal⟩
    rw [answers_cons, answers_cons, hsame, hrest]

/-- Machines that answer alike, and stay related, exactly at the steps in `Q`. -/
theorem answers_eq_iff {Q : σ → ι → Prop}
    (hsame : ∀ s t i, R s t → ((M.step s i).2 = (N.step t i).2 ↔ Q s i))
    (hnext : ∀ s t i, R s t → Q s i → R (M.step s i).1 (N.step t i).1)
    {s : σ} {t : τ} (hR : R s t) (is : List ι) :
    M.answers s is = N.answers t is ↔ M.Meets Q s is := by
  induction is generalizing s t with
  | nil => exact iff_of_true rfl trivial
  | cons i is ih =>
    rw [answers_cons, answers_cons, List.cons.injEq, hsame s t i hR]
    constructor
    · rintro ⟨hQ, hrest⟩
      exact ⟨hQ, (ih (hnext s t i hR hQ)).1 hrest⟩
    · rintro ⟨hQ, hrest⟩
      exact ⟨hQ, (ih (hnext s t i hR hQ)).2 hrest⟩

end Machine

end Reactive
