import AtomrAccel.Pipeline.Executor
import AtomrAccel.Lib.Worker

/-!
# `pipeline::sink`: an executor behind bounded channels

`spawn_pipeline` puts a driver task between two bounded channels: the sinks send items, the driver
runs the executor on one item after the other, and the source receives a result for each.

* `runItem`: one `run` of the executor, which goes by `outcome` unless the await fails;
* `spawnPipeline`: the driver between its channels;
* `submit`, `trySubmit`: what the callers of a sink get;
* `results`: what the executor makes of a list of items;
* `delivered_results`, `eventually_delivered_result`: every item accepted gives one result, in order.
-/

namespace AtomrAccel

namespace Pipeline

open Transition
open Worker (State Phase workAll)

variable {Ty : Type} [DecidableEq Ty] {val : Ty → Type} {S K : Type} (typeName : Ty → String)
  (streams : List S) (I O : Ty)

/-- `executor.run::<I, O>(..).await`; the await may fail once all stages have been called. -/
def runItem (stages : List (PipelineStage val S K)) (item : val I) (failed : Option GpuError) :
    Option (List (PipelineStage val S K) × Except GpuError (val O)) :=
  let all := allCalls typeName stages streams (boxed item)
  match failed, all.result with
  | none, _ => some (all.stages, all.result.bind (finish typeName O))
  | some e, .ok _ => some (all.stages, .error e)
  | some _, .error _ => none

/-- `spawn_pipeline`, with the sinks and the source.  Neither channel is ever without room. -/
def spawnPipeline (head_capacity tail_capacity : ℕ) (stages : List (PipelineStage val S K)) :
    System (State (List (PipelineStage val S K)) (val I) (Except GpuError (val O)) (Option GpuError))
      (Worker.Label (val I) (Option GpuError)) :=
  Worker.system (runItem typeName streams I O) (max head_capacity 1) (max tail_capacity 1) stages

section Sink

variable {E I R F : Type*} (work : E → I → F → Option (E × R)) (headSize tailSize : ℕ)

/-- `PipelineSink::submit`: an answer, or a wait for room. -/
def submit (s : State E I R F) (item : I) : Option (Except GpuError (State E I R F)) :=
  match s.phase with
  | .stopped => some (.error (.unrecoverable "PipelineSink: driver dropped"))
  | .idle | .working _ | .passing _ => (Worker.step work headSize tailSize s (.submit item)).map .ok

/-- `PipelineSink::try_submit`, with the texts of `TrySendError`. -/
def trySubmit (s : State E I R F) (item : I) : Except GpuError (State E I R F) :=
  match s.phase with
  | .stopped => .error (.unrecoverable "PipelineSink try_submit: channel closed")
  | .idle | .working _ | .passing _ =>
    match Worker.step work headSize tailSize s (.submit item) with
    | some s' => .ok s'
    | none => .error (.unrecoverable "PipelineSink try_submit: no available capacity")

variable {work headSize tailSize}

/-- While a sink is there, a submission waits exactly when the head channel is full and the driver has
not stopped, and then `try_submit` fails; where it does not wait, the two do the same. -/
theorem submit_cases {s : State E I R F} (hs : s.producers = true) (item : I) :
    (submit work headSize tailSize s item = none ↔
      s.phase ≠ .stopped ∧ headSize ≤ s.head.length) ∧
    ∀ s', submit work headSize tailSize s item = some (.ok s') ↔
      trySubmit work headSize tailSize s item = .ok s' := by
  obtain ⟨head, tail, phase, worker, producers, consumer, accepted, processed, delivered⟩ := s
  obtain rfl : producers = true := hs
  cases phase with
  | stopped =>
    refine ⟨⟨fun h => ?_, fun h => absurd rfl h.1⟩, fun s' => ⟨fun h => ?_, fun h => ?_⟩⟩
    · cases h
    · cases Option.some.inj h
    · cases h
  | _ =>
    by_cases hroom : head.length < headSize
    · refine ⟨⟨fun h => ?_, fun h => absurd hroom (Nat.not_lt.2 h.2)⟩, fun s' => ?_⟩
      · simp [submit, Worker.step, hroom] at h
      · simp [submit, trySubmit, Worker.step, hroom]
    · refine ⟨⟨fun _ => ⟨fun h => ?_, Nat.not_lt.1 hroom⟩, fun _ => ?_⟩, fun s' => ?_⟩
      · cases h
      · simp [submit, Worker.step, hroom]
      · simp [submit, trySubmit, Worker.step, hroom]

end Sink

variable {typeName streams I O}

/-- The results of an executor on some items. -/
def results (typeName : Ty → String) (streams : List S) (I O : Ty)
    (stages : List (PipelineStage val S K)) (items : List (val I × Option GpuError)) :
    Option (List (Except GpuError (val O))) :=
  (workAll (runItem typeName streams I O) stages items).map Prod.snd

/-- The driver delivers one result for each item, in the order of the items and as the executor gives
it; while the source is there, the sinks are ahead of it by the capacities and one item at most, and
when the driver ends, no result is missing. -/
theorem delivered_results {head_capacity tail_capacity : ℕ} {stages : List (PipelineStage val S K)}
    {ls : List (Worker.Label (val I) (Option GpuError))}
    {s : State (List (PipelineStage val S K)) (val I) (Except GpuError (val O)) (Option GpuError)}
    (h : (spawnPipeline typeName streams I O head_capacity tail_capacity stages).run
      (spawnPipeline typeName streams I O head_capacity tail_capacity stages).init ls = some s) :
    s.processed.map Prod.fst <+: s.accepted ∧
    (∃ rs, results typeName streams I O stages s.processed = some rs ∧ s.delivered <+: rs ∧
      (s.consumer = true → s.phase = .stopped →
        s.processed.map Prod.fst = s.accepted ∧ s.delivered ++ s.tail = rs)) ∧
    (s.consumer = true → s.accepted.length ≤
      s.delivered.length + max head_capacity 1 + max tail_capacity 1 + 1) := by
  have hinv := Worker.inv_of_run h
  obtain ⟨rs, hall, hdelivered, hway⟩ := hinv.results
  refine ⟨(List.prefix_append _ _).trans hinv.order, ⟨rs, ?_, hdelivered, fun hc hphase => ?_⟩,
    hinv.length_accepted⟩
  · rw [results, hall]
    rfl
  · have hitems := hinv.items (.inl hc)
    have hresults := hway hc
    rw [hinv.stopped hphase, hphase] at hitems
    rw [hphase] at hresults
    exact ⟨by simpa [Phase.item] using hitems.symm, by simpa [Phase.result] using hresults⟩

/-- Two items through a counting stage, with room for one in each channel. -/
def countingFlow := spawnPipeline (fun _ => "u64") [false] () () 1 0 [counting]

def twoItems : List (Worker.Label ℕ (Option GpuError)) :=
  [.submit 7, .receive, .submit 9, .finish none, .pass, .take, .receive, .finish none, .pass, .take,
    .hangUp, .receive]

theorem delivered_results_counting : ∃ s, countingFlow.run countingFlow.init twoItems = some s ∧
    s.processed.map Prod.fst = s.accepted ∧
      results (fun _ => "u64") [false] () () [counting] s.processed =
        some (s.delivered ++ s.tail) := by
  obtain ⟨s, hs, hconsumer, hphase⟩ : ∃ s, countingFlow.run countingFlow.init twoItems = some s ∧
      s.consumer = true ∧ s.phase = .stopped := ⟨_, rfl, rfl, rfl⟩
  obtain ⟨-, ⟨rs, hrs, -, hend⟩, -⟩ := delivered_results hs
  obtain ⟨hitems, hresults⟩ := hend hconsumer hphase
  exact ⟨s, hs, hitems, hrs.trans (congrArg some hresults.symm)⟩

theorem runItem_total (stages : List (PipelineStage val S K)) (item : val I) :
    ∃ failed result, runItem typeName streams I O stages item failed = some result :=
  ⟨none, _, rfl⟩

/-- As long as the source is read, every item accepted has its result delivered. -/
theorem eventually_delivered_result {head_capacity tail_capacity : ℕ}
    {stages : List (PipelineStage val S K)}
    (ρ : (spawnPipeline typeName streams I O head_capacity tail_capacity stages).Endless)
    (hfair : ρ.Fair Worker.Label.party) (hsource : ∀ k, (ρ.state k).consumer = true) {k n : ℕ}
    (hn : n < (ρ.state k).accepted.length) : ∃ m ≥ k, n < (ρ.state m).delivered.length :=
  Worker.eventually_delivered (lt_max_of_lt_right Nat.one_pos) runItem_total ρ hfair hsource hn

theorem eventually_delivered_result_counting :
    ∃ ρ : countingFlow.Endless, ρ.Fair Worker.Label.party ∧
      ∃ m ≥ 3, 1 < (ρ.state m).delivered.length := by
  obtain ⟨t, ht, htail, hphase⟩ : ∃ t, countingFlow.run countingFlow.init twoItems = some t ∧
      t.tail = [] ∧ t.phase = .stopped := ⟨_, rfl, rfl, rfl⟩
  have hquiet : ∀ p, ¬ countingFlow.Enabled Worker.Label.party p t := by
    rintro p ⟨l, s', hparty, hstep⟩
    cases Worker.moves_of_step hstep with
    | take h => rw [htail] at h; cases h
    | receive h | stop h | finish h | giveUp h | pass h => rw [hphase] at h; cases h
    | submit | hangUp | leave => cases hparty
  have hfair := System.fair_halting ht hquiet
  refine ⟨_, hfair, eventually_delivered_result _ hfair (fun k => ?_) ?_⟩
  · rcases Nat.lt_or_ge k 12 with hlt | hge
    · interval_cases k <;> rfl
    · show ((countingFlow.run countingFlow.init (twoItems.take k)).getD _).consumer = true
      rw [List.take_of_length_le hge]
      rfl
  · exact Nat.lt_succ_self 1

end Pipeline

end AtomrAccel
