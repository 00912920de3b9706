import AtomrAccel.Pipeline.Executor

/-!
# Chains whose types fit

`PipelineExecutor` runs two stages whose types the compiler has matched; `PipelineExecutorN` erases
the types and checks them at each boundary while it runs.

* `Stage`, `Stage.box`: a typed stage, and `StageBox::new`;
* `Chain`, `Chain.calls`, `Chain.erase`: typed chains of any length, and their erasure;
* `outcome_erase`: the erased chain does what the typed one does, so no check fails;
* `runs_as_typed`, `stops_at_misfit`: so do its runs; one whose types do not fit stops there;
* `PipelineExecutor.run`, `runPipeline`: the two other executors.
-/

namespace AtomrAccel

namespace Pipeline

open Streams

variable {Ty : Type} [DecidableEq Ty] {val : Ty → Type} {S K : Type}

/-- `PipelineStage<In = I, Out = O>` -/
structure Stage (val : Ty → Type) (S K : Type) (I O : Ty) where
  State : Type
  self : State
  launch : State → S → val I → State × List K × Except GpuError (val O)

/-- `StageBox::new` -/
def Stage.box {I O : Ty} (stage : Stage val S K I O) : PipelineStage val S K :=
  ⟨I, O, stage.State, stage.self, stage.launch⟩

/-- The call of a stage. -/
def Stage.enqueue {I O : Ty} (stage : Stage val S K I O) (stream : S) (waitFor : Option ℕ)
    (input : val I) : Stage val S K I O × List (Op K) × Except GpuError (val O) :=
  let (self, kernels, result) := stage.launch stage.self stream input
  ({ stage with self := self }, issued waitFor kernels result, result)

variable (typeName : Ty → String)

/-- A boxed stage does with a value of its type what the stage does. -/
theorem enqueueBoxed_box {I O : Ty} (stage : Stage val S K I O) (stream : S) (w : Option ℕ)
    (x : val I) :
    stage.box.enqueueBoxed typeName stream w (boxed x) =
      ((stage.enqueue stream w x).1.box, (stage.enqueue stream w x).2.1,
        (stage.enqueue stream w x).2.2.map boxed) := by
  unfold PipelineStage.enqueueBoxed
  rw [show (boxed x).downcast stage.box.In = some x from Payload.downcast_boxed x]
  rfl

/-- Stages on their streams, each taking what the one before gives. -/
inductive Chain (val : Ty → Type) (S K : Type) : Ty → Ty → Type 1
  | single {I O : Ty} (stage : Stage val S K I O) (stream : S) : Chain val S K I O
  | cons {I M O : Ty} (stage : Stage val S K I M) (stream : S) (rest : Chain val S K M O) :
      Chain val S K I O

namespace Chain

/-- The stages without their types, as the executor has them. -/
def erase {I O : Ty} : Chain val S K I O → List (PipelineStage val S K × S)
  | single stage stream => [(stage.box, stream)]
  | cons stage stream rest => (stage.box, stream) :: rest.erase

/-- The calls of a chain with static types: the chain after them, the kernels launched, and what the
last call returned. -/
def calls {I O : Ty} : Chain val S K I O → val I →
    Chain val S K I O × List K × Except GpuError (val O)
  | single stage stream, x =>
    let (stage', ops, result) := stage.enqueue stream none x
    (single stage' stream, kernelsOf ops, result)
  | cons stage stream rest, x =>
    match stage.enqueue stream none x with
    | (stage', ops, .error e) => (cons stage' stream rest, kernelsOf ops, .error e)
    | (stage', ops, .ok next) =>
      let (rest', kernels, result) := rest.calls next
      (cons stage' stream rest', kernelsOf ops ++ kernels, result)

end Chain

/-- An erased chain does what the typed one does; `rest` is what follows it. -/
theorem calls_erase_append {I O : Ty} (c : Chain val S K I O) (x : val I)
    (rest : List (PipelineStage val S K × S)) :
    Pipeline.calls typeName (c.erase ++ rest) (boxed x) =
      let later := remaining typeName rest ((c.calls x).2.2.map boxed)
      ⟨(c.calls x).1.erase.map Prod.fst ++ later.stages, (c.calls x).2.1 ++ later.kernels,
        later.result⟩ := by
  induction c with
  | single stage stream =>
    show Pipeline.calls typeName ((stage.box, stream) :: rest) (boxed x) = _
    rw [calls_cons, enqueueBoxed_box]
    rfl
  | cons stage stream tail ih =>
    show Pipeline.calls typeName ((stage.box, stream) :: (tail.erase ++ rest)) (boxed x) = _
    rw [calls_cons, enqueueBoxed_box]
    unfold Chain.calls
    rcases stage.enqueue stream none x with ⟨stage', ops, e | next⟩
    · simp only [Except.map, remaining, List.map_append, List.append_nil, Chain.erase,
        List.map_cons, List.cons_append]
    · simp only [Except.map, remaining_ok, ih next, Chain.erase, List.map_cons, List.cons_append,
        List.append_assoc]

omit [DecidableEq Ty] in
theorem Chain.erase_ne_nil {I O : Ty} (c : Chain val S K I O) : c.erase ≠ [] := by
  cases c <;> simp [erase]

/-- The run of an erased chain with its own streams is not refused. -/
theorem allCalls_of_ne_nil {chain : List (PipelineStage val S K × S)} (h : chain ≠ [])
    (input : Payload val) :
    allCalls typeName (chain.map Prod.fst) (chain.map Prod.snd) input =
      Pipeline.calls typeName chain input := by
  have hrefusal : refusal (chain.map Prod.fst) (chain.map Prod.snd) = none := by
    unfold refusal
    rw [if_neg (by simpa using h), if_neg (by simp)]
  unfold allCalls
  rw [hrefusal, List.zip_map']
  show Pipeline.calls typeName (chain.map fun p => (p.1, p.2)) input = _
  rw [List.map_id']

/-- An erased chain does what the typed chain does, so none of its checks fails. -/
theorem outcome_erase {I O : Ty} (c : Chain val S K I O) (x : val I) :
    outcome typeName (c.erase.map Prod.fst) (c.erase.map Prod.snd) (boxed x) O =
      ⟨(c.calls x).1.erase.map Prod.fst, (c.calls x).2.1, (c.calls x).2.2⟩ := by
  unfold outcome
  rw [allCalls_of_ne_nil typeName c.erase_ne_nil]
  have hcalls := calls_erase_append typeName c x []
  rw [List.append_nil] at hcalls
  rw [hcalls]
  cases hresult : (c.calls x).2.2 with
  | ok out => simp [Except.map, remaining, calls, Except.bind, finish]
  | error e => simp [Except.map, remaining, Except.bind]

/-- At the first boundary that does not fit, the calls end with the error of that check, and the
kernels of all stages before it have been launched. -/
theorem allCalls_misfit {I M : Ty} (c : Chain val S K I M) (x : val I) {out : val M}
    (hout : (c.calls x).2.2 = .ok out) (stage : PipelineStage val S K) (hmisfit : stage.In ≠ M)
    (stream : S) (rest : List (PipelineStage val S K × S)) :
    let chain := c.erase ++ (stage, stream) :: rest
    allCalls typeName (chain.map Prod.fst) (chain.map Prod.snd) (boxed x) =
      ⟨(c.calls x).1.erase.map Prod.fst ++ stage :: rest.map Prod.fst, (c.calls x).2.1,
        .error (.unrecoverable ("PipelineExecutorN: stage input downcast to `" ++
          typeName stage.In ++ "` failed"))⟩ := by
  intro chain
  have hcall : stage.enqueueBoxed typeName stream none (boxed out) = (stage, [],
      .error (.unrecoverable ("PipelineExecutorN: stage input downcast to `" ++
        typeName stage.In ++ "` failed"))) := by
    unfold PipelineStage.enqueueBoxed
    rw [Payload.downcast_of_ne (p := boxed out) (Ne.symm hmisfit)]
  rw [allCalls_of_ne_nil typeName (by simp [chain]), calls_erase_append, hout]
  simp [Except.map, calls_cons, hcall, remaining]

section Run

variable [DecidableEq S] {I M O : Ty} {past : Device S K} {ls : List (Label S K)}
  {s : Exec val S K O}

/-- A run of an erased chain ends as the typed calls say, unless the await fails; with an output the
kernels of the typed calls have been carried out in their order. -/
theorem runs_as_typed (c : Chain val S K I O) (x : val I) (hpast : past.Sound)
    (h : (system typeName (c.erase.map Prod.fst) (c.erase.map Prod.snd) (boxed x) O past).run
      (system typeName (c.erase.map Prod.fst) (c.erase.map Prod.snd) (boxed x) O past).init ls =
        some s)
    {r : Except GpuError (val O)} (hr : s.phase = .returned r) :
    s.stages = (c.calls x).1.erase.map Prod.fst ∧
      (r = (c.calls x).2.2 ∨ (∃ out, (c.calls x).2.2 = .ok out) ∧ ∃ e, r = .error e) ∧
      ∀ out, r = .ok out →
        kernelsAt s.device.log (s.device.trace.filter (· ∈ s.mine)) = (c.calls x).2.1 := by
  obtain ⟨hstages, hresult, hkernels⟩ := returned_of_run hpast h hr
  rw [outcome_erase] at hstages hresult hkernels
  refine ⟨hstages, hresult.imp id fun ⟨⟨payload, hpayload⟩, he⟩ => ⟨?_, he⟩, hkernels⟩
  have hcalls := calls_erase_append typeName c x []
  rw [List.append_nil] at hcalls
  rw [allCalls_of_ne_nil typeName c.erase_ne_nil, hcalls] at hpayload
  cases hout : (c.calls x).2.2 with
  | ok out => exact ⟨out, rfl⟩
  | error e =>
    rw [hout] at hpayload
    cases hpayload

/-- The two counting stages, as a typed chain. -/
theorem runs_as_typed_counting :
    ∃ s, countingTwice.run countingTwice.init hostFirst = some s ∧
      kernelsAt s.device.log (s.device.trace.filter (· ∈ s.mine)) = [7, 8] := by
  let stage : Stage (fun _ : Unit => ℕ) Bool ℕ () () :=
    ⟨Unit, (), fun _ _ x => ((), [x], .ok (x + 1))⟩
  obtain ⟨s, hs, hphase⟩ : ∃ s, countingTwice.run countingTwice.init hostFirst = some s ∧
      s.phase = .returned (.ok 9) := ⟨_, rfl, rfl⟩
  exact ⟨s, hs, (runs_as_typed (fun _ => "u64") (.cons stage false (.single stage true)) 7
    Device.sound_nil hs hphase).2.2 9 rfl⟩

/-- A run of a chain with a boundary that does not fit returns the error of that check: of its
kernels none but those of the stages before are carried out, and no stage after it is called. -/
theorem stops_at_misfit (c : Chain val S K I M) (x : val I) {out : val M}
    (hout : (c.calls x).2.2 = .ok out) (stage : PipelineStage val S K) (hmisfit : stage.In ≠ M)
    (stream : S) (rest : List (PipelineStage val S K × S)) (hpast : past.Sound)
    (h : (system typeName ((c.erase ++ (stage, stream) :: rest).map Prod.fst)
        ((c.erase ++ (stage, stream) :: rest).map Prod.snd) (boxed x) O past).run
      (system typeName ((c.erase ++ (stage, stream) :: rest).map Prod.fst)
        ((c.erase ++ (stage, stream) :: rest).map Prod.snd) (boxed x) O past).init ls = some s) :
    kernelsAt s.device.log (s.device.trace.filter (· ∈ s.mine)) <+: (c.calls x).2.1 ∧
    ∀ r, s.phase = .returned r →
      s.stages = (c.calls x).1.erase.map Prod.fst ++ stage :: rest.map Prod.fst ∧
      r = .error (.unrecoverable ("PipelineExecutorN: stage input downcast to `" ++
        typeName stage.In ++ "` failed")) := by
  have hmis := allCalls_misfit typeName c x hout stage hmisfit stream rest
  have hcarried := carriedOut_of_run hpast h
  unfold outcome at hcarried
  rw [hmis] at hcarried
  refine ⟨hcarried, fun r hr => ?_⟩
  obtain ⟨hstages, hresult, -⟩ := returned_of_run hpast h hr
  unfold outcome at hstages hresult
  rw [hmis] at hstages hresult
  refine ⟨hstages, hresult.resolve_right fun hawait => ?_⟩
  obtain ⟨⟨payload, hpayload⟩, -⟩ := hawait
  cases hpayload

/-- A counting stage of one type code before one of another. -/
theorem stops_at_misfit_counting :
    let name : Bool → String := fun b => if b then "u32" else "u64"
    let stage : Stage (fun _ : Bool => ℕ) Bool ℕ false false :=
      ⟨Unit, (), fun _ _ x => ((), [x], .ok (x + 1))⟩
    let other : PipelineStage (fun _ : Bool => ℕ) Bool ℕ :=
      ⟨true, true, Unit, (), fun _ _ x => ((), [x], .ok (x + 1))⟩
    ∃ s, (system name [stage.box, other] [false, true] (@boxed Bool (fun _ => ℕ) false 7) true
        ⟨[], []⟩).run (system name [stage.box, other] [false, true]
          (@boxed Bool (fun _ => ℕ) false 7) true ⟨[], []⟩).init
          (List.replicate 6 .thread) = some s ∧
      s.phase = .returned (.error (.unrecoverable
        "PipelineExecutorN: stage input downcast to `u32` failed")) := by
  intro name stage other
  obtain ⟨s, r, hs, hphase⟩ : ∃ s r,
      (system name [stage.box, other] [false, true] (@boxed Bool (fun _ => ℕ) false 7) true
        ⟨[], []⟩).run (system name [stage.box, other] [false, true]
          (@boxed Bool (fun _ => ℕ) false 7) true ⟨[], []⟩).init
          (List.replicate 6 .thread) = some s ∧ s.phase = .returned r := ⟨_, _, rfl, rfl⟩
  refine ⟨s, hs, hphase.trans (congrArg _ ?_)⟩
  exact ((stops_at_misfit name (.single stage false) 7 rfl other nofun true []
    Device.sound_nil hs).2 r hphase).2

end Run

/-! ## The other executors -/

/-- `PipelineExecutor<S0, S1>` -/
structure PipelineExecutor (val : Ty → Type) (S K : Type) (I M O : Ty) where
  s0 : Stage val S K I M
  s1 : Stage val S K M O

/-- `PipelineExecutor::run` up to its await: what it issues to each stream, and what it returns if
the await succeeds.  `event` names the event that the first stage records. -/
def PipelineExecutor.run {I M O : Ty} (p : PipelineExecutor val S K I M O) (s0_stream s1_stream : S)
    (event : ℕ) (input : val I) :
    PipelineExecutor val S K I M O × List (Op K) × List (Op K) × Except GpuError (val O) :=
  match p.s0.enqueue s0_stream none input with
  | (s0, ops, .error e) => (⟨s0, p.s1⟩, ops, [], .error e)
  | (s0, ops, .ok out0) =>
    let (s1, ops', result) := p.s1.enqueue s1_stream (some event) out0
    (⟨s0, s1⟩, ops, ops', result)

omit [DecidableEq Ty] in
theorem kernelsOf_enqueue {I O : Ty} (stage : Stage val S K I O) (stream : S) (w : Option ℕ)
    (x : val I) :
    kernelsOf (stage.enqueue stream w x).2.1 = kernelsOf (stage.enqueue stream none x).2.1 := by
  simp [Stage.enqueue]

/-- The two-stage executor launches and returns what the executor for any number of stages does with
the two. -/
theorem PipelineExecutor.run_eq {I M O : Ty} (p : PipelineExecutor val S K I M O)
    (s0_stream s1_stream : S) (event : ℕ) (x : val I) :
    let r := p.run s0_stream s1_stream event x
    outcome typeName [p.s0.box, p.s1.box] [s0_stream, s1_stream] (boxed x) O =
      ⟨[r.1.s0.box, r.1.s1.box], kernelsOf r.2.1 ++ kernelsOf r.2.2.1, r.2.2.2⟩ := by
  intro r
  have hchain := outcome_erase typeName (.cons p.s0 s0_stream (.single p.s1 s1_stream)) x
  refine (show _ = _ from hchain).trans ?_
  simp only [r, PipelineExecutor.run, Chain.calls]
  rcases p.s0.enqueue s0_stream none x with ⟨s0, ops, e | out0⟩
  · simp [Chain.erase]
  · rw [kernelsOf_enqueue p.s1 s1_stream (some event)]
    rfl

/-- `run_pipeline` up to its await. -/
def runPipeline {I O : Ty} (stages : List (Stage val S K I O)) (streams : List S) (input : val I) :
    List K × Except GpuError (val O) :=
  if stages.length ≠ 0 ∧ stages.length ≠ streams.length then
    ([], .error (.unrecoverable ("stage count " ++ toString stages.length ++ " != stream count " ++
      toString streams.length)))
  else
    match stages, streams with
    | stage :: rest, stream :: _ =>
      let (_, ops, result) := stage.enqueue stream none input
      (kernelsOf ops, result.bind fun out =>
        if rest = [] then .ok out
        else .error (.unrecoverable ("run_pipeline currently supports only single-stage chains; " ++
          "use PipelineExecutor for multi-stage heterogeneous pipelines")))
    | _, _ => ([], .error (.unrecoverable "pipeline has zero stages"))

/-- `run_pipeline` agrees with the executor for any number of stages on one stage. -/
theorem runPipeline_singleton {I O : Ty} (stage : Stage val S K I O) (stream : S) (x : val I) :
    runPipeline [stage] [stream] x =
      ((outcome typeName [stage.box] [stream] (boxed x) O).kernels,
        (outcome typeName [stage.box] [stream] (boxed x) O).result) := by
  rw [show outcome typeName [stage.box] [stream] (boxed x) O = _ from
    outcome_erase typeName (.single stage stream) x]
  refine Prod.ext rfl ?_
  show Except.bind (stage.enqueue stream none x).2.2 _ = (stage.enqueue stream none x).2.2
  cases (stage.enqueue stream none x).2.2 <;> rfl

omit [DecidableEq Ty] in
/-- On several stages `run_pipeline` returns no output, though it launches the kernels of the first
stage. -/
theorem runPipeline_cons_cons {I O : Ty} (stage stage' : Stage val S K I O)
    (rest : List (Stage val S K I O)) (stream : S) (streams : List S)
    (hlength : rest.length + 1 = streams.length) (x : val I) :
    (runPipeline (stage :: stage' :: rest) (stream :: streams) x).1 =
        kernelsOf (stage.enqueue stream none x).2.1 ∧
      ∃ e, (runPipeline (stage :: stage' :: rest) (stream :: streams) x).2 = .error e := by
  unfold runPipeline
  rw [if_neg (by simp; omega)]
  refine ⟨rfl, ?_⟩
  show ∃ e, Except.bind (stage.enqueue stream none x).2.2 _ = .error e
  cases (stage.enqueue stream none x).2.2 with
  | ok out => exact ⟨_, rfl⟩
  | error e => exact ⟨e, rfl⟩

end Pipeline

end AtomrAccel
