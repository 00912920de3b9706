import Mathlib.Tactic

/-!
# Labelled transition functions and disciplined runs

A system is an initial state and a partial step function: `step s l = none` means that the
label `l` is not enabled in `s`.  A run is the list of its labels, so an interleaving of several
parties is a list in which each label names the party that moves.

* `run`: the state a list of labels leads to;
* `Along P s ls`: `P` holds in every state of the run over `ls` from `s`, both ends included;
* `Meets C s ls`: every step of that run is taken in a state and with a label satisfying `C`;
* `along_of_meets` and `meets_of_along`: the two directions of "the runs that keep `P` are the
  runs whose steps all meet `C`", from what a single step does to an invariant;
* `along_of_inv`: the invariant rule for runs under no discipline;
* `Meets.mono_of_inv`: weakening a discipline;
* `meets_of_trap`: a run that ends outside a trap meets `C`, when every other step leads into it;
* `along_not_of_trap`: a run that ends outside a trap has never been in it.
-/

namespace Transition

/-- An initial state and a labelled step function. -/
structure System (σ ι : Type*) where
  init : σ
  step : σ → ι → Option σ

namespace System

variable {σ ι : Type*} (T : System σ ι)

/-- The state reached from `s` by the labels `ls`, when each of them is enabled in turn. -/
def run (s : σ) : List ι → Option σ
  | [] => some s
  | l :: ls => (T.step s l).bind fun s' => run s' ls

/-- `P` holds in every state of the run. -/
def Along (P : σ → Prop) : σ → List ι → Prop
  | s, [] => P s
  | s, l :: ls => P s ∧ ∀ s', T.step s l = some s' → Along P s' ls

/-- Every step of the run is taken where `C` allows it. -/
def Meets (C : σ → ι → Prop) : σ → List ι → Prop
  | _, [] => True
  | s, l :: ls => ∀ s', T.step s l = some s' → C s l ∧ Meets C s' ls

/-- Whether a run is disciplined can be computed step by step. -/
instance decidableMeets (C : σ → ι → Prop) [∀ s l, Decidable (C s l)] :
    ∀ (s : σ) (ls : List ι), Decidable (T.Meets C s ls)
  | _, [] => isTrue trivial
  | s, l :: ls =>
    match h : T.step s l with
    | none => isTrue fun _ hs' => absurd (h.symm.trans hs') (Option.some_ne_none _).symm
    | some s' =>
      have := decidableMeets C s' ls
      decidable_of_iff (C s l ∧ T.Meets C s' ls)
        ⟨fun hC _ hs' => Option.some.inj (h.symm.trans hs') ▸ hC, fun hm => hm s' h⟩

variable {T} {P I : σ → Prop} {C : σ → ι → Prop}

/-- A condition on the labels alone can be added when it holds of each. -/
theorem Meets.and_forall {Q : ι → Prop} {s : σ} {ls : List ι} (hm : T.Meets C s ls)
    (h : ∀ l ∈ ls, Q l) : T.Meets (fun s l => Q l ∧ C s l) s ls := by
  induction ls generalizing s with
  | nil => trivial
  | cons l ls ih =>
    intro s' hs'
    obtain ⟨hl, hls⟩ := List.forall_mem_cons.1 h
    obtain ⟨hC, hrest⟩ := hm s' hs'
    exact ⟨⟨hl, hC⟩, ih hrest hls⟩

/-- A condition on the labels alone is met when it holds of each. -/
theorem meets_of_forall {Q : ι → Prop} {s : σ} {ls : List ι} (h : ∀ l ∈ ls, Q l) :
    T.Meets (fun _ => Q) s ls := by
  induction ls generalizing s with
  | nil => trivial
  | cons l ls ih =>
    obtain ⟨hl, hls⟩ := List.forall_mem_cons.1 h
    exact fun _ _ => ⟨hl, ih hls⟩

/-- A discipline can be replaced by one that it implies in every state it leads to. -/
theorem Meets.mono_of_inv {C' : σ → ι → Prop}
    (hI : ∀ s l s', I s → C s l → T.step s l = some s' → I s')
    (hC : ∀ s l, I s → C s l → C' s l) {s : σ} {ls : List ι} (hs : I s) (hm : T.Meets C s ls) :
    T.Meets C' s ls := by
  induction ls generalizing s with
  | nil => trivial
  | cons l ls ih =>
    intro s' hs'
    obtain ⟨hl, hrest⟩ := hm s' hs'
    exact ⟨hC s l hs hl, ih (hI s l s' hs hl hs') hrest⟩

theorem run_cons_eq_some {s t : σ} {l : ι} {ls : List ι} :
    T.run s (l :: ls) = some t ↔ ∃ s', T.step s l = some s' ∧ T.run s' ls = some t := by
  simp [run, Option.bind_eq_some_iff]

theorem Along.head {s : σ} {ls : List ι} (h : T.Along P s ls) : P s := by
  cases ls with
  | nil => exact h
  | cons l ls => exact h.1

/-- What holds along a run holds at its end. -/
theorem Along.last {s t : σ} {ls : List ι} (h : T.Along P s ls) (hr : T.run s ls = some t) :
    P t := by
  induction ls generalizing s with
  | nil =>
    cases hr
    exact h
  | cons l ls ih =>
    obtain ⟨s', hs, hrun⟩ := run_cons_eq_some.1 hr
    exact ih (h.2 s' hs) hrun

/-- The invariant rule for disciplined runs. -/
theorem along_of_meets (hP : ∀ s, I s → P s)
    (hstep : ∀ s l s', I s → C s l → T.step s l = some s' → I s')
    {s : σ} {ls : List ι} (hs : I s) (hm : T.Meets C s ls) : T.Along P s ls := by
  induction ls generalizing s with
  | nil => exact hP s hs
  | cons l ls ih =>
    refine ⟨hP s hs, fun s' hs' => ?_⟩
    obtain ⟨hC, hrest⟩ := hm s' hs'
    exact ih (hstep s l s' hs hC hs') hrest

/-- The invariant rule for runs under no discipline. -/
theorem along_of_inv (hP : ∀ s, I s → P s)
    (hstep : ∀ s l s', I s → T.step s l = some s' → I s')
    {s : σ} (hs : I s) (ls : List ι) : T.Along P s ls := by
  induction ls generalizing s with
  | nil => exact hP s hs
  | cons l ls ih => exact ⟨hP s hs, fun s' hs' => ih (hstep s l s' hs hs')⟩

/-- The converse: when a step out of an invariant state keeps `P` only if it meets `C`, a run
that keeps `P` meets `C` at every step. -/
theorem meets_of_along
    (hC : ∀ s l s', I s → T.step s l = some s' → P s' → C s l)
    (hstep : ∀ s l s', I s → C s l → T.step s l = some s' → I s')
    {s : σ} {ls : List ι} (hs : I s) (ha : T.Along P s ls) : T.Meets C s ls := by
  induction ls generalizing s with
  | nil => trivial
  | cons l ls ih =>
    intro s' hs'
    have hnext := ha.2 s' hs'
    have hmeets := hC s l s' hs hs' hnext.head
    exact ⟨hmeets, ih (hstep s l s' hs hmeets hs') hnext⟩

theorem Along.and {Q : σ → Prop} {s : σ} {ls : List ι} (hP : T.Along P s ls)
    (hQ : T.Along Q s ls) : T.Along (fun s => P s ∧ Q s) s ls := by
  induction ls generalizing s with
  | nil => exact ⟨hP, hQ⟩
  | cons l ls ih => exact ⟨⟨hP.1, hQ.1⟩, fun s' hs' => ih (hP.2 s' hs') (hQ.2 s' hs')⟩

/-- A run that ends outside a trap `D` is outside it all along. -/
theorem along_not_of_trap {D : σ → Prop} (hI : ∀ s l s', I s → T.step s l = some s' → I s')
    (hD : ∀ s l s', I s → D s → T.step s l = some s' → D s') {s t : σ} {ls : List ι} (hs : I s)
    (hr : T.run s ls = some t) (ht : ¬ D t) : T.Along (fun s => ¬ D s) s ls := by
  induction ls generalizing s with
  | nil =>
    cases hr
    exact ht
  | cons l ls ih =>
    obtain ⟨s₁, hs₁, hrest⟩ := run_cons_eq_some.1 hr
    have hnext := ih (hI s l s₁ hs hs₁) hrest
    refine ⟨fun hDs => hnext.head (hD s l s₁ hs hDs hs₁), fun s' hs' => ?_⟩
    obtain rfl : s₁ = s' := Option.some.inj (hs₁.symm.trans hs')
    exact hnext

/-- When a step that does not meet `C` leads into a trap `D`, a run that ends outside the trap
meets `C` at every step. -/
theorem meets_of_trap {D : σ → Prop} (hI : ∀ s l s', I s → T.step s l = some s' → I s')
    (hD : ∀ s l s', D s → T.step s l = some s' → D s')
    (htrap : ∀ s l s', I s → T.step s l = some s' → ¬ C s l → D s')
    {s t : σ} {ls : List ι} (hs : I s) (hr : T.run s ls = some t) (ht : ¬ D t) :
    T.Meets C s ls := by
  induction ls generalizing s with
  | nil => trivial
  | cons l ls ih =>
    intro s' hs'
    obtain ⟨s₁, hs₁, hrest⟩ := run_cons_eq_some.1 hr
    obtain rfl : s₁ = s' := Option.some.inj (hs₁.symm.trans hs')
    refine ⟨?_, ih (hI s l s₁ hs hs₁) hrest⟩
    by_contra hC
    have hinto : D s₁ := htrap s l s₁ hs hs₁ hC
    have hstays := along_of_inv (fun _ h => h) hD hinto ls
    exact ht (hstays.last hrest)

end System

end Transition
