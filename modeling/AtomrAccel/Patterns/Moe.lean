import AtomrAccel.Device.DeviceActor
import AtomrAccel.Lib.Gather
import Mathlib.Data.List.Sort

/-!
# `MoeRouter`: the top experts of a gate

A gate scores the experts for an input.  The router ranks them by a stable sort, sends the input to
the first `k` and blends what they reply with the softmax of their scores.  Of the floating-point
operations only the comparison matters here, so they are parameters.

* `FloatOps`, `softmax`, `blend`: the arithmetic;
* `MoeConfig`, `ranked`, `route`, `tells`, `replies`: the handler of `Run` and its task;
* `RunsRight`: a run is answered once, its top experts get the input, and the first failure in rank
  order is the error;
* `runsRight_iff`: so it is unless there are no experts and the gate returns no scores.
-/

namespace AtomrAccel

namespace Patterns

open Gather

/-- The operations on `f32` that the router uses; `le a b` says that
`a.partial_cmp(&b).unwrap_or(Equal)` is not `Greater`. -/
structure FloatOps (F : Type) where
  zero : F
  negInfinity : F
  add : F → F → F
  sub : F → F → F
  mul : F → F → F
  div : F → F → F
  max : F → F → F
  exp : F → F
  isZero : F → Bool
  le : F → F → Bool

namespace FloatOps

variable {F : Type} (ops : FloatOps F)

/-- The values are totally ordered: no NaN among them. -/
structure TotalOn (scores : List F) : Prop where
  total : ∀ a ∈ scores, ∀ b ∈ scores, ops.le a b = true ∨ ops.le b a = true
  trans : ∀ a ∈ scores, ∀ b ∈ scores, ∀ c ∈ scores,
    ops.le a b = true → ops.le b c = true → ops.le a c = true

/-- The exponentials over their sum. -/
def softmax (scores : List F) : List F :=
  let max := scores.foldl ops.max ops.negInfinity
  let exps := scores.map fun s => ops.exp (ops.sub s max)
  let sum := exps.foldl ops.add ops.zero
  if ops.isZero sum then List.replicate scores.length ops.zero
  else exps.map fun e => ops.div e sum

/-- `blended[i] += v * w` over an output that is not longer than `blended`. -/
def addScaled (w : F) : List F → List F → List F
  | blended, [] => blended
  | [], _ :: _ => []
  | b :: blended, v :: out => ops.add b (ops.mul v w) :: addScaled w blended out

/-- The weighted blend, as long as the longest output. -/
def blend (outputs : List (List F)) (weights : List F) : List F :=
  let n := (outputs.map List.length).foldr Nat.max 0
  (outputs.zip weights).foldl (fun blended p => ops.addScaled p.2 blended p.1)
    (List.replicate n ops.zero)

/-- The indices of the experts, highest score first; the sort is stable. -/
def ranked (scores : List F) : List (Fin scores.length) :=
  (List.finRange scores.length).insertionSort fun a b =>
    ops.le (scores.get b) (scores.get a) = true

end FloatOps

/-- The experts, the gate, and how many experts are asked. -/
structure MoeConfig (F : Type) where
  experts : List ActorRef
  gate : List F → Except GpuError (List F)
  topK : ℕ

/-- What the spawned task has done when it comes to its first `await`, or ends before it. -/
inductive Routed (F : Type)
  | replied (answer : Except GpuError (List F))
  /-- a slice past the end -/
  | panicked
  | dispatched (chosen : List ℕ) (weights : List F)

namespace MoeConfig

variable {F : Type} (ops : FloatOps F) (cfg : MoeConfig F)

/-- The best experts with their weights. -/
def route (input : List F) : Routed F :=
  match cfg.gate input with
  | .error e => .replied (.error e)
  | .ok scores =>
    if scores.length ≠ cfg.experts.length then
      .replied (.error (.unrecoverable ("MoE: gate produced " ++ toString scores.length ++
        " scores, expected " ++ toString cfg.experts.length)))
    else
      let idx := ops.ranked scores
      let k := max (min cfg.topK idx.length) 1
      if idx.length < k then .panicked
      else
        let chosen := idx.take k
        .dispatched (chosen.map (·.val)) (ops.softmax (chosen.map scores.get))

/-- The experts that are told to run, by their slots, with what they get. -/
def tells (input : List F) : List (ℕ × List F) :=
  match cfg.route ops input with
  | .replied _ | .panicked => []
  | .dispatched chosen _ => chosen.map fun i => (i, input)

/-- An expert whose sender is dropped. -/
def droppedError : GpuError := .unrecoverable "MoE: expert dropped reply"

/-- The replies of a `Run`, when the expert in slot `i` answers `answers i` and the answers arrive
in the given order of ranks. -/
def replies (input : List F) (answers : ℕ → Received GpuError (List F)) (order : List ℕ) :
    List (Except GpuError (List F)) :=
  match cfg.route ops input with
  | .replied answer => [answer]
  | .panicked => []
  | .dispatched chosen weights =>
    (run droppedError (fun outputs o => outputs ++ [o])
      (fun outputs => .ok (ops.blend outputs weights)) [] (chosen.map answers) order).replies

/-- One reply; and with one score for each expert, the input goes once to each of the best
experts, and the first of them in rank order that fails decides the error. -/
structure RunsRight (input : List F) (answers : ℕ → Received GpuError (List F))
    (order : List ℕ) : Prop where
  answered : (cfg.replies ops input answers order).length = 1
  routed : ∀ scores, cfg.gate input = .ok scores → scores.length = cfg.experts.length →
    ∃ chosen : List (Fin scores.length),
      cfg.tells ops input = chosen.map (fun i => (i.val, input)) ∧
      chosen.length = min (max cfg.topK 1) cfg.experts.length ∧
      chosen.Nodup ∧
      (∀ i ∈ chosen, ∀ j, j ∉ chosen → ops.le (scores.get j) (scores.get i) = true) ∧
      chosen.Pairwise (fun i j => ops.le (scores.get j) (scores.get i) = true) ∧
      cfg.replies ops input answers order =
        [match chosen.findSome? (fun i => (answers i.val).failure? droppedError) with
          | some e => .error e
          | none => .ok (ops.blend (chosen.filterMap fun i => (answers i.val).value?)
              (ops.softmax (chosen.map scores.get)))]

end MoeConfig

/-! ### The ranking -/

namespace FloatOps

variable {F : Type} {ops : FloatOps F} {scores : List F}

theorem ranked_perm (ops : FloatOps F) (scores : List F) :
    (ops.ranked scores).Perm (List.finRange scores.length) :=
  List.perm_insertionSort _ _

theorem length_ranked (ops : FloatOps F) (scores : List F) :
    (ops.ranked scores).length = scores.length := by
  rw [(ranked_perm ops scores).length_eq, List.length_finRange]

theorem nodup_ranked (ops : FloatOps F) (scores : List F) : (ops.ranked scores).Nodup :=
  (ranked_perm ops scores).nodup_iff.2 (List.nodup_finRange _)

theorem mem_ranked (ops : FloatOps F) (i : Fin scores.length) : i ∈ ops.ranked scores :=
  (ranked_perm ops scores).mem_iff.2 (List.mem_finRange i)

theorem TotalOn.pairwise_ranked (h : ops.TotalOn scores) :
    (ops.ranked scores).Pairwise fun i j => ops.le (scores.get j) (scores.get i) = true := by
  have htotal : Std.Total fun i j : Fin scores.length =>
      ops.le (scores.get j) (scores.get i) = true :=
    ⟨fun i j => h.total _ (List.get_mem _ _) _ (List.get_mem _ _)⟩
  have htrans : IsTrans (Fin scores.length) fun i j =>
      ops.le (scores.get j) (scores.get i) = true :=
    ⟨fun i j k hij hjk => h.trans _ (List.get_mem _ _) _ (List.get_mem _ _) _ (List.get_mem _ _)
      hjk hij⟩
  exact List.pairwise_insertionSort _ _

/-- What is left out by the first `k` scores no higher than what is in. -/
theorem TotalOn.le_of_take (h : ops.TotalOn scores) {k : ℕ} {i j : Fin scores.length}
    (hi : i ∈ (ops.ranked scores).take k) (hj : j ∉ (ops.ranked scores).take k) :
    ops.le (scores.get j) (scores.get i) = true := by
  have hsorted := h.pairwise_ranked
  have hmem := mem_ranked ops j
  rw [← List.take_append_drop k (ops.ranked scores)] at hsorted hmem
  have hdrop : j ∈ (ops.ranked scores).drop k := (List.mem_append.1 hmem).resolve_left hj
  exact (List.pairwise_append.1 hsorted).2.2 i hi j hdrop

end FloatOps

/-! ### A run -/

namespace MoeConfig

variable {F : Type} {ops : FloatOps F} {cfg : MoeConfig F} {input scores : List F}
  {answers : ℕ → Received GpuError (List F)} {order : List ℕ}

/-- With a score for each expert, the first `k` of the ranking are told. -/
theorem route_eq (ops : FloatOps F) (hgate : cfg.gate input = .ok scores)
    (hlen : scores.length = cfg.experts.length) (hexperts : cfg.experts ≠ []) :
    cfg.route ops input =
      let chosen := (ops.ranked scores).take (min (max cfg.topK 1) cfg.experts.length)
      .dispatched (chosen.map (·.val)) (ops.softmax (chosen.map scores.get)) := by
  have hpos : 0 < cfg.experts.length := List.length_pos_iff.2 hexperts
  have hk : max (min cfg.topK (ops.ranked scores).length) 1 =
      min (max cfg.topK 1) cfg.experts.length := by
    rw [FloatOps.length_ranked, hlen]
    omega
  unfold route
  simp only [hgate]
  rw [if_neg (not_not.2 hlen), hk, if_neg]
  rw [FloatOps.length_ranked, hlen]
  omega

/-- Without experts and without scores the slice of one expert panics. -/
theorem route_of_nil (hgate : cfg.gate input = .ok []) (hexperts : cfg.experts = []) :
    cfg.route ops input = .panicked := by
  unfold route
  simp [hgate, hexperts, FloatOps.ranked]

/-- Values are pushed in the order of the ranks. -/
theorem foldl_push {α : Type} (l outputs : List α) :
    l.foldl (fun outputs o => outputs ++ [o]) outputs = outputs ++ l := by
  rw [List.foldl_append_eq_append (f := fun o => [o]), ← List.flatMap_def, List.flatMap_singleton']

/-- The reply of the task that awaits the chosen experts. -/
theorem replies_of_dispatched {chosen : List ℕ} {weights : List F}
    (hroute : cfg.route ops input = .dispatched chosen weights)
    (horder : ∀ p < chosen.length, p ∈ order) :
    cfg.replies ops input answers order =
      [match chosen.findSome? (fun i => (answers i).failure? droppedError) with
        | some e => .error e
        | none => .ok (ops.blend (chosen.filterMap fun i => (answers i).value?) weights)] := by
  unfold replies
  simp only [hroute]
  rw [run_map_eq_collect _ horder, collect_eq, foldl_push, List.findSome?_map,
    List.filterMap_map, List.nil_append]
  have hfailure : Received.failure? droppedError ∘ answers =
      fun i => (answers i).failure? droppedError := rfl
  rw [hfailure]
  cases chosen.findSome? (fun i => (answers i).failure? droppedError) with
  | none => rfl
  | some e => rfl

/-- Without a score for each expert there is nothing to choose. -/
theorem runsRight_of_route (hroute : ∃ answer, cfg.route ops input = .replied answer)
    (hgate : ∀ scores, cfg.gate input = .ok scores → scores.length ≠ cfg.experts.length) :
    cfg.RunsRight ops input answers order := by
  obtain ⟨answer, hroute⟩ := hroute
  refine ⟨?_, fun scores hok hlen => absurd hlen (hgate scores hok)⟩
  unfold replies
  rw [hroute]
  rfl

theorem runsRight_of_experts (hgate : cfg.gate input = .ok scores)
    (hlen : scores.length = cfg.experts.length) (hexperts : cfg.experts ≠ [])
    (htotal : ops.TotalOn scores) (horder : ∀ p < cfg.experts.length, p ∈ order) :
    cfg.RunsRight ops input answers order := by
  have hroute := route_eq ops hgate hlen hexperts
  have hcount : ((ops.ranked scores).take (min (max cfg.topK 1) cfg.experts.length)).length =
      min (max cfg.topK 1) cfg.experts.length := by
    rw [List.length_take, FloatOps.length_ranked, hlen]
    omega
  generalize hchosen : (ops.ranked scores).take (min (max cfg.topK 1) cfg.experts.length) = chosen
    at hroute hcount
  have hranks : ∀ p < (chosen.map (·.val)).length, p ∈ order := by
    intro p hp
    rw [List.length_map, hcount] at hp
    exact horder p (by omega)
  have hreplies : cfg.replies ops input answers order = _ := replies_of_dispatched hroute hranks
  refine ⟨by rw [hreplies]; rfl, fun scores' hok hlen' => ?_⟩
  obtain rfl : scores = scores' := Except.ok.inj (hgate.symm.trans hok)
  refine ⟨chosen, ?_, hcount, ?_, ?_, ?_, ?_⟩
  · unfold tells
    rw [hroute]
    exact List.map_map
  · rw [← hchosen]
    exact (FloatOps.nodup_ranked ops scores).sublist (List.take_sublist _ _)
  · intro i hi j hj
    rw [← hchosen] at hi hj
    exact htotal.le_of_take hi hj
  · rw [← hchosen]
    exact htotal.pairwise_ranked.sublist (List.take_sublist _ _)
  · rw [hreplies, List.findSome?_map, List.filterMap_map]
    rfl

end MoeConfig

open MoeConfig in
/-- For totally ordered scores a run goes right exactly when there are experts or the gate does not
return an empty list of scores. -/
theorem runsRight_iff {F : Type} (ops : FloatOps F) (cfg : MoeConfig F) (input : List F)
    (answers : ℕ → Received GpuError (List F)) (order : List ℕ)
    (htotal : ∀ scores, cfg.gate input = .ok scores → scores.length = cfg.experts.length →
      ops.TotalOn scores)
    (horder : ∀ p < cfg.experts.length, p ∈ order) :
    cfg.RunsRight ops input answers order ↔ ¬ (cfg.experts = [] ∧ cfg.gate input = .ok []) := by
  constructor
  · rintro h ⟨hexperts, hgate⟩
    have hone := h.answered
    unfold replies at hone
    rw [route_of_nil hgate hexperts] at hone
    cases hone
  · intro h
    cases hgate : cfg.gate input with
    | error e =>
      refine runsRight_of_route ⟨.error e, ?_⟩ fun scores hok => ?_
      · unfold route
        rw [hgate]
      · cases hgate.symm.trans hok
    | ok scores =>
      by_cases hlen : scores.length = cfg.experts.length
      · refine runsRight_of_experts hgate hlen (fun hexperts => h ⟨hexperts, ?_⟩)
          (htotal scores hgate hlen) horder
        rw [hexperts] at hlen
        rw [hgate, List.length_eq_zero_iff.1 hlen]
      · have hroute : ∃ answer, cfg.route ops input = .replied answer := by
          unfold route
          simp only [hgate]
          rw [if_pos hlen]
          exact ⟨_, rfl⟩
        refine runsRight_of_route hroute fun scores' hok => ?_
        obtain rfl : scores = scores' := Except.ok.inj (hgate.symm.trans hok)
        exact hlen

/-- Whole numbers in place of floats; only the exponential of 0 is used below. -/
def intOps : FloatOps ℤ where
  zero := 0
  negInfinity := -1000
  add a b := a + b
  sub a b := a - b
  mul a b := a * b
  div a b := a / b
  max := Max.max
  exp x := if x = 0 then 1 else 0
  isZero x := x == 0
  le a b := decide (a ≤ b)

theorem intOps_totalOn (scores : List ℤ) : intOps.TotalOn scores where
  total a _ b _ := by
    simp only [intOps, decide_eq_true_eq]
    exact le_total a b
  trans a _ b _ c _ hab hbc := by
    simp only [intOps, decide_eq_true_eq] at hab hbc ⊢
    exact hab.trans hbc

/-- The gate prefers the second of two experts. -/
def preferSecond : MoeConfig ℤ := ⟨[10, 11], fun _ => .ok [0, 10], 1⟩

theorem preferSecond_runsRight :
    preferSecond.RunsRight intOps [1, 2] (fun _ => .value [101, 102]) [0, 1] :=
  (runsRight_iff intOps preferSecond [1, 2] (fun _ => .value [101, 102]) [0, 1]
    (fun scores _ _ => intOps_totalOn scores) (by decide)).2 (fun h => absurd h.1 (by decide))

/-- A router without experts panics on the slice of its one choice, and nobody is answered. -/
theorem no_experts_panics :
    ¬ (∀ (F : Type) (ops : FloatOps F) (cfg : MoeConfig F) (input : List F)
      (answers : ℕ → Received GpuError (List F)) (order : List ℕ),
      (∀ scores, cfg.gate input = .ok scores → scores.length = cfg.experts.length →
        ops.TotalOn scores) →
      (∀ p < cfg.experts.length, p ∈ order) → cfg.RunsRight ops input answers order) ∧
    (⟨[], fun _ => .ok [], 2⟩ : MoeConfig ℤ).replies intOps [1, 2] (fun _ => .dropped) [] = [] := by
  refine ⟨fun h => ?_, rfl⟩
  have hright := h ℤ intOps ⟨[], fun _ => .ok [], 2⟩ [1, 2] (fun _ => .dropped) []
    (fun scores _ _ => intOps_totalOn scores) (by decide)
  exact absurd hright.answered (by decide)

end Patterns

end AtomrAccel
