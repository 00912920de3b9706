import AtomrAccel.Device.Error
import AtomrAccel.Lib.Streams

/-!
# `pipeline::executor`: the stages of a chain on their streams

`PipelineExecutorN::run` calls the stages one after the other, each on a stream of its own, and hands
every stage the event that the one before has recorded; then it awaits the last stream.  The calls
return at once: the kernels run later, while other threads issue commands to the same device.

* `Payload`, `PipelineStage`, `enqueue`, `enqueueBoxed`: values without a static type, and stages;
* `calls`: what the calls of a whole chain launch and return, with no device in sight;
* `Phase`, `Exec`, `step`, `system`: one `run` on a device that other threads use as well;
* `kernelsAt`: the kernels at some places of the log;
* `Inv`, `inv_step`: the places of a run form a chain of the order on the device.
-/

namespace AtomrAccel

namespace Pipeline

open Streams Transition

variable {Ty : Type} [DecidableEq Ty] {val : Ty → Type} {S K : Type}

/-- `Box<dyn Any + Send>`: a value that carries its type. -/
def Payload (val : Ty → Type) := Σ t, val t

/-- `Box::new` -/
def boxed {t : Ty} (v : val t) : Payload val := ⟨t, v⟩

/-- The value, if it has the type asked for. -/
def Payload.downcast (t : Ty) (p : Payload val) : Option (val t) :=
  if h : p.1 = t then some (h ▸ p.2) else none

@[simp] theorem Payload.downcast_boxed {t : Ty} (v : val t) : (boxed v).downcast t = some v := by
  simp [downcast, boxed]

theorem Payload.downcast_of_ne {t : Ty} {p : Payload val} (h : p.1 ≠ t) : p.downcast t = none :=
  dif_neg h

/-- The part of a stage that differs from stage to stage: the kernels that a call launches on the
stream, up to an error if there is one, and the output of the call. -/
structure PipelineStage (val : Ty → Type) (S K : Type) where
  In : Ty
  Out : Ty
  State : Type
  self : State
  launch : State → S → val In → State × List K × Except GpuError (val Out)

/-- The commands of a call: it waits for the event it is given, launches its kernels, and records an
event unless there is an error. -/
def issued {α : Type} (waitFor : Option ℕ) (kernels : List K) (result : Except GpuError α) :
    List (Op K) :=
  waitFor.toList.map .wait ++ kernels.map .kernel ++
    match result with
    | .ok _ => [.record]
    | .error _ => []

namespace PipelineStage

/-- The call of a stage, on whatever it unboxes. -/
def enqueue (stage : PipelineStage val S K) (stream : S) (waitFor : Option ℕ)
    (input : val stage.In) :
    PipelineStage val S K × List (Op K) × Except GpuError (val stage.Out) :=
  let (self, kernels, result) := stage.launch stage.self stream input
  ({ stage with self := self }, issued waitFor kernels result, result)

variable (typeName : Ty → String)

/-- `StageBox::enqueue_boxed` -/
def enqueueBoxed (stage : PipelineStage val S K) (stream : S) (waitFor : Option ℕ)
    (input : Payload val) : PipelineStage val S K × List (Op K) × Except GpuError (Payload val) :=
  match input.downcast stage.In with
  | none => (stage, [], .error (.unrecoverable ("PipelineExecutorN: stage input downcast to `" ++
      typeName stage.In ++ "` failed")))
  | some typed =>
    let (stage', ops, result) := stage.enqueue stream waitFor typed
    (stage', ops, result.map boxed)

end PipelineStage

/-- The kernel of a command that has one. -/
def kernel? : Op K → Option K
  | .kernel k => some k
  | .record | .wait _ => none

/-- The kernels among some operations. -/
def kernelsOf (ops : List (Op K)) : List K := ops.filterMap kernel?

variable (typeName : Ty → String)

/-- What the calls of a chain leave: the stages, the kernels launched, and what the last call
returned. -/
structure Outcome (val : Ty → Type) (S K α : Type) where
  stages : List (PipelineStage val S K)
  kernels : List K
  result : Except GpuError α

/-- The calls of a chain, with no device in sight. -/
def calls : List (PipelineStage val S K × S) → Payload val → Outcome val S K (Payload val)
  | [], payload => ⟨[], [], .ok payload⟩
  | (stage, stream) :: rest, payload =>
    match stage.enqueueBoxed typeName stream none payload with
    | (stage', ops, .error e) => ⟨stage' :: rest.map Prod.fst, kernelsOf ops, .error e⟩
    | (stage', ops, .ok next) =>
      let later := calls rest next
      ⟨stage' :: later.stages, kernelsOf ops ++ later.kernels, later.result⟩

/-- How far a run has come. -/
inductive Phase (val : Ty → Type) (S K : Type) (O : Ty)
  | looping (waitEvent : Option ℕ) (payload : Payload val)
  /-- inside a call: the commands still to be issued, the place of the last one issued, and what
  the call returns -/
  | issuing (stream : S) (queue : List (Op K)) (last : Option ℕ)
      (result : Except GpuError (Payload val))
  /-- about to call `await_completion` -/
  | awaiting (payload : Payload val)
  /-- the marker of the completion is on the last stream -/
  | waiting (mark : ℕ) (payload : Payload val)
  | returned (result : Except GpuError (val O))

/-- A run and its device: the stages with no call to come, those to be called with their streams,
and the places of the commands that the run has issued. -/
structure Exec (val : Ty → Type) (S K : Type) (O : Ty) where
  device : Device S K
  called : List (PipelineStage val S K)
  rest : List (PipelineStage val S K × S)
  phase : Phase val S K O
  mine : List ℕ

/-- The stages of the executor. -/
def Exec.stages {O : Ty} (s : Exec val S K O) : List (PipelineStage val S K) :=
  s.called ++ s.rest.map Prod.fst

/-- The steps of the run, of other threads and of the device. -/
inductive Label (S K : Type)
  /-- the run goes on -/
  | thread
  /-- `await_completion` ends with an error: a timeout or a failing driver call -/
  | failAwait (e : GpuError)
  /-- another thread issues a command -/
  | other (c : Command S K)
  | carryOut (i : ℕ)

variable {O : Ty}

/-- The checks before the loop. -/
def refusal (stages : List (PipelineStage val S K)) (streams : List S) : Option GpuError :=
  if stages = [] then some (.unrecoverable "PipelineExecutorN: no stages")
  else if streams.length ≠ stages.length then
    some (.unrecoverable ("PipelineExecutorN: stage count " ++ toString stages.length ++
      " != stream count " ++ toString streams.length))
  else none

/-- The last downcast. -/
def finish (O : Ty) (payload : Payload val) : Except GpuError (val O) :=
  match payload.downcast O with
  | some out => .ok out
  | none => .error (.unrecoverable ("PipelineExecutorN: tail downcast to `" ++ typeName O ++
      "` failed"))

/-- The checks and the calls. -/
def allCalls (stages : List (PipelineStage val S K)) (streams : List S) (input : Payload val) :
    Outcome val S K (Payload val) :=
  match refusal stages streams with
  | some e => ⟨stages, [], .error e⟩
  | none => calls typeName (stages.zip streams) input

/-- `PipelineExecutorN::run` as far as it does not depend on the device. -/
def outcome (stages : List (PipelineStage val S K)) (streams : List S) (input : Payload val)
    (O : Ty) : Outcome val S K (val O) :=
  let all := allCalls typeName stages streams input
  ⟨all.stages, all.kernels, all.result.bind (finish typeName O)⟩

variable [DecidableEq S]

/-- One command of the run goes to the device. -/
def Exec.issue (s : Exec val S K O) (stream : S) (op : Op K) (phase : Phase val S K O) :
    Option (Exec val S K O) :=
  (s.device.step (.issue ⟨stream, op⟩)).map fun device =>
    { s with device := device, phase := phase, mine := s.mine ++ [s.device.log.length] }

/-- The next step of the run. -/
def Exec.advance (streams : List S) (s : Exec val S K O) : Option (Exec val S K O) :=
  match s.phase with
  | .looping waitEvent payload =>
    match s.rest with
    | [] => some { s with phase := .awaiting payload }
    | (stage, stream) :: rest =>
      let (stage', ops, result) := stage.enqueueBoxed typeName stream waitEvent payload
      some { s with
        called := s.called ++ [stage']
        rest := rest
        phase := .issuing stream ops none result }
  | .issuing stream (op :: queue) _ result =>
    s.issue stream op (.issuing stream queue (some s.device.log.length) result)
  | .issuing _ [] last (.ok next) => some { s with phase := .looping last next }
  | .issuing _ [] _ (.error e) => some { s with phase := .returned (.error e) }
  | .awaiting payload =>
    match streams.getLast? with
    | none => none
    | some stream => s.issue stream .record (.waiting s.device.log.length payload)
  | .waiting mark payload =>
    if mark ∈ s.device.trace then some { s with phase := .returned (finish typeName O payload) }
    else none
  | .returned _ => none

/-- One step of the run, of other threads or of the device. -/
def step (streams : List S) (s : Exec val S K O) : Label S K → Option (Exec val S K O)
  | .thread => s.advance typeName streams
  | .failAwait e =>
    match s.phase with
    | .awaiting _ | .waiting _ _ => some { s with phase := .returned (.error e) }
    | .looping _ _ | .issuing _ _ _ _ | .returned _ => none
  | .other c => (s.device.step (.issue c)).map fun device => { s with device := device }
  | .carryOut i => (s.device.step (.carryOut i)).map fun device => { s with device := device }

/-- A run on a device with some past. -/
def system (stages : List (PipelineStage val S K)) (streams : List S) (input : Payload val)
    (O : Ty) (device : Device S K) : System (Exec val S K O) (Label S K) where
  init :=
    match refusal stages streams with
    | some e => ⟨device, stages, [], .returned (.error e), []⟩
    | none => ⟨device, [], stages.zip streams, .looping none input, []⟩
  step := step typeName streams

/-! ## What a run issues -/

@[simp] theorem kernelsOf_nil : kernelsOf ([] : List (Op K)) = [] := rfl

theorem kernelsOf_cons (op : Op K) (ops : List (Op K)) :
    kernelsOf (op :: ops) = (kernel? op).toList ++ kernelsOf ops := by
  unfold kernelsOf
  cases h : kernel? op with
  | none => rw [List.filterMap_cons_none h]; rfl
  | some k => rw [List.filterMap_cons_some h]; rfl

theorem kernelsOf_append (ops ops' : List (Op K)) :
    kernelsOf (ops ++ ops') = kernelsOf ops ++ kernelsOf ops' :=
  List.filterMap_append

theorem kernelsOf_map_kernel (ks : List K) : kernelsOf (ks.map .kernel) = ks := by
  induction ks with
  | nil => rfl
  | cons k ks ih => rw [List.map_cons, kernelsOf_cons, ih]; rfl

section Issued

variable {α : Type} (w : Option ℕ) (ks : List K) (r : Except GpuError α)

@[simp] theorem kernelsOf_issued : kernelsOf (issued w ks r) = ks := by
  have hwait : kernelsOf (w.toList.map (.wait : ℕ → Op K)) = [] := by cases w <;> rfl
  unfold issued
  rw [kernelsOf_append, kernelsOf_append, kernelsOf_map_kernel, hwait, List.nil_append]
  cases r with
  | ok out => exact List.append_nil ks
  | error e => exact List.append_nil ks

/-- A call waits for no event but the one it is given, -/
theorem event_of_mem_issued {op : Op K} (h : op ∈ issued w ks r) {e : ℕ} (he : op.event = some e) :
    w = some e := by
  rcases List.mem_append.1 h with hop | hop
  · rcases List.mem_append.1 hop with hop | hop
    · obtain ⟨e', he', rfl⟩ := List.mem_map.1 hop
      obtain rfl : e' = e := by simpa using he
      simpa using he'
    · obtain ⟨k, -, rfl⟩ := List.mem_map.1 hop
      simp at he
  · cases r <;> simp at hop
    rw [hop] at he
    simp at he

/-- and for that one before anything else. -/
theorem head_issued {e : ℕ} (hw : w = some e) {op : Op K} (h : (issued w ks r).head? = some op) :
    op.event = some e := by
  subst hw
  obtain rfl : .wait e = op := by simpa [issued] using h
  rfl

theorem issued_ne_nil {out : α} (h : r = .ok out) : issued w ks r ≠ [] := by
  subst h
  simp [issued]

end Issued

omit [DecidableEq S] in
/-- A call is of a type that the stage does not take, or it issues what `issued` says; the event it
is given matters for that only. -/
theorem enqueueBoxed_cases (stage : PipelineStage val S K) (stream : S) (payload : Payload val) :
    ∃ stage' r, (∃ e, r = .error e ∧
        ∀ w, stage.enqueueBoxed typeName stream w payload = (stage', [], r)) ∨
      ∃ (ks : List K) (out : Except GpuError (val stage.Out)),
        r = out.map boxed ∧
        ∀ w, stage.enqueueBoxed typeName stream w payload = (stage', issued w ks out, r) := by
  unfold PipelineStage.enqueueBoxed
  cases payload.downcast stage.In with
  | none => exact ⟨_, _, .inl ⟨_, rfl, fun w => rfl⟩⟩
  | some typed => exact ⟨_, _, .inr ⟨_, _, rfl, fun w => rfl⟩⟩

omit [DecidableEq S] in
/-- The kernels of a call and its result do not depend on the event it is given; it waits for that
event before anything else, and an output comes with a recording at the end. -/
theorem enqueueBoxed_wait (stage : PipelineStage val S K) (stream : S) (payload : Payload val)
    (w : Option ℕ) :
    ∃ ops, stage.enqueueBoxed typeName stream w payload =
        ((stage.enqueueBoxed typeName stream none payload).1, ops,
          (stage.enqueueBoxed typeName stream none payload).2.2) ∧
      kernelsOf ops = kernelsOf (stage.enqueueBoxed typeName stream none payload).2.1 ∧
      (∀ op ∈ ops, ∀ e, op.event = some e → w = some e) ∧
      (∀ op, ops.head? = some op → ∀ e, w = some e → op.event = some e) ∧
      ∀ next, (stage.enqueueBoxed typeName stream none payload).2.2 = .ok next → ops ≠ [] := by
  obtain ⟨stage', r, ⟨e, rfl, hcall⟩ | ⟨ks, out, rfl, hcall⟩⟩ :=
    enqueueBoxed_cases typeName stage stream payload
  · rw [hcall none, hcall w]
    exact ⟨[], rfl, rfl, by simp, by simp, nofun⟩
  · rw [hcall none, hcall w]
    refine ⟨issued w ks out, rfl, by simp, fun op hop e he => event_of_mem_issued w ks out hop he,
      fun op hop e he => head_issued w ks out he hop, fun next h => ?_⟩
    cases out with
    | ok v => exact issued_ne_nil w ks _ rfl
    | error e => cases h

/-- What is left of a chain after a call that returned `r`. -/
def remaining (rest : List (PipelineStage val S K × S)) (r : Except GpuError (Payload val)) :
    Outcome val S K (Payload val) :=
  match r with
  | .ok next => calls typeName rest next
  | .error e => ⟨rest.map Prod.fst, [], .error e⟩

omit [DecidableEq S] in
theorem remaining_ok (rest : List (PipelineStage val S K × S)) (payload : Payload val) :
    remaining typeName rest (.ok payload) = calls typeName rest payload := rfl

omit [DecidableEq S] in
theorem calls_cons (stage : PipelineStage val S K) (stream : S)
    (rest : List (PipelineStage val S K × S)) (payload : Payload val) :
    calls typeName ((stage, stream) :: rest) payload =
      let call := stage.enqueueBoxed typeName stream none payload
      let later := remaining typeName rest call.2.2
      ⟨call.1 :: later.stages, kernelsOf call.2.1 ++ later.kernels, later.result⟩ := by
  rw [calls]
  rcases stage.enqueueBoxed typeName stream none payload with ⟨stage', ops, e | next⟩
  · dsimp only [remaining]
    rw [List.append_nil]
  · rfl

/-! ## Places of the log -/

/-- The kernels at some places of the log. -/
def kernelsAt (log : List (Command S K)) (places : List ℕ) : List K :=
  places.filterMap fun i => log[i]?.bind fun c => kernel? c.op

omit [DecidableEq S] in
theorem kernelsAt_append (log log' : List (Command S K)) {places : List ℕ}
    (h : ∀ i ∈ places, i < log.length) : kernelsAt (log ++ log') places = kernelsAt log places := by
  apply List.filterMap_congr
  intro i hi
  rw [List.getElem?_append_left (h i hi)]

omit [DecidableEq S] in
theorem kernelsAt_concat (log : List (Command S K)) (c : Command S K) {places : List ℕ}
    (h : ∀ i ∈ places, i < log.length) :
    kernelsAt (log ++ [c]) (places ++ [log.length]) =
      kernelsAt log places ++ (kernel? c.op).toList := by
  unfold kernelsAt
  rw [List.filterMap_append]
  congr 1
  · exact kernelsAt_append log [c] h
  · cases hc : kernel? c.op <;> simp [hc]

/-- The stream of the command at the last of some places. -/
def lastStream (log : List (Command S K)) (places : List ℕ) : Option S :=
  places.getLast?.bind fun i => log[i]?.map (·.stream)

/-! ## The places of a run form a chain -/

section Inv

variable (all : Outcome val S K (Payload val)) (streams : List S) (past : Device S K)

/-- The commands `ops` and what follows after the result `r` are what a run has left to do. -/
structure Owes (s : Exec val S K O) (ops : List (Op K)) (r : Except GpuError (Payload val)) :
    Prop where
  stages : s.called ++ (remaining typeName s.rest r).stages = all.stages
  kernels : kernelsAt s.device.log s.mine ++ kernelsOf ops ++
    (remaining typeName s.rest r).kernels = all.kernels
  result : (remaining typeName s.rest r).result = all.result
  streams : streams ≠ []

/-- The next command of a call comes after the last one issued. -/
def Linked (s : Exec val S K O) (stream : S) (queue : List (Op K)) : Option ℕ → Prop
  | none => ∀ op, queue.head? = some op → ∀ i, s.mine.getLast? = some i → op.event = some i
  | some i => s.mine.getLast? = some i ∧ lastStream s.device.log s.mine = some stream

/-- What a run has issued and left to do in each phase. -/
def Fits (s : Exec val S K O) : Phase val S K O → Prop
  | .looping w payload => Owes typeName all streams s [] (.ok payload) ∧ w = s.mine.getLast? ∧
      ((lastStream s.device.log s.mine).toList ++ s.rest.map Prod.snd).getLast? = streams.getLast?
  | .issuing stream queue last r => Owes typeName all streams s queue r ∧
      (stream :: s.rest.map Prod.snd).getLast? = streams.getLast? ∧
      (∀ op ∈ queue, ∀ e, op.event = some e → e < s.device.log.length) ∧
      Linked s stream queue last ∧ ∀ next, r = .ok next → last = none → queue ≠ []
  | .awaiting payload => Owes typeName all streams s [] (.ok payload) ∧ s.rest = [] ∧
      lastStream s.device.log s.mine = streams.getLast?
  | .waiting mark payload => Owes typeName all streams s [] (.ok payload) ∧ s.rest = [] ∧
      s.mine.getLast? = some mark
  | .returned r => s.stages = all.stages ∧ kernelsAt s.device.log s.mine = all.kernels ∧
      (∀ out, r = .ok out → ∀ i ∈ s.mine, i ∈ s.device.trace) ∧
      (r = all.result.bind (finish typeName O) ∨
        (∃ payload, all.result = .ok payload) ∧ ∃ e, r = .error e)

/-- The run's commands come after the past, each behind the one before it. -/
structure Inv (s : Exec val S K O) : Prop where
  sound : s.device.Sound
  log : past.log <+: s.device.log
  trace : past.trace <+: s.device.trace
  mine : ∀ i ∈ s.mine, past.log.length ≤ i ∧ i < s.device.log.length
  chain : s.mine.IsChain (Before s.device.log)
  fits : Fits typeName all streams s s.phase

variable {typeName all streams past} {s s' : Exec val S K O}

/-- Other threads and the device do not disturb a run. -/
theorem Inv.device (h : Inv typeName all streams past s) {l : Streams.Label S K}
    {device : Device S K} (hl : s.device.step l = some device) :
    Inv typeName all streams past { s with device := device } := by
  obtain ⟨⟨log', hlog⟩, htrace⟩ := Device.step_grows hl
  have hmine : ∀ i ∈ s.mine, i < s.device.log.length := fun i hi => (h.mine i hi).2
  have hkernels : kernelsAt device.log s.mine = kernelsAt s.device.log s.mine := by
    rw [← hlog, kernelsAt_append _ _ hmine]
  have hlast : lastStream device.log s.mine = lastStream s.device.log s.mine := by
    unfold lastStream
    cases hget : s.mine.getLast? with
    | none => simp
    | some i =>
      have hi : i < s.device.log.length := hmine i (List.mem_of_getLast? hget)
      simp [← hlog, List.getElem?_append_left hi]
  have howes : ∀ ops r, Owes typeName all streams s ops r →
      Owes typeName all streams { s with device := device } ops r :=
    fun ops r ho => ⟨ho.stages, by rw [hkernels]; exact ho.kernels, ho.result, ho.streams⟩
  refine ⟨h.sound.step hl, h.log.trans (Device.step_grows hl).1, h.trace.trans htrace,
    fun i hi => ⟨(h.mine i hi).1, ?_⟩, ?_, ?_⟩
  · show i < device.log.length
    rw [← hlog, List.length_append]
    have := hmine i hi
    omega
  · show s.mine.IsChain (Before device.log)
    rw [← hlog]
    exact h.chain.imp_of_mem_imp fun a b ha hb hab =>
      (before_append (hmine a ha) (hmine b hb)).2 hab
  · suffices hfits : ∀ phase, Fits typeName all streams s phase →
        Fits typeName all streams { s with device := device } phase from hfits s.phase h.fits
    intro phase hfits
    cases phase with
    | looping w payload => exact ⟨howes _ _ hfits.1, hfits.2.1, by rw [hlast]; exact hfits.2.2⟩
    | issuing stream queue last r =>
      obtain ⟨ho, htail, hwaits, hlinked, hne⟩ := hfits
      refine ⟨howes _ _ ho, htail, fun op hop e he => ?_, ?_, hne⟩
      · show e < device.log.length
        rw [← hlog, List.length_append]
        have := hwaits op hop e he
        omega
      · cases last with
        | none => exact hlinked
        | some i => exact ⟨hlinked.1, by rw [hlast]; exact hlinked.2⟩
    | awaiting payload => exact ⟨howes _ _ hfits.1, hfits.2.1, by rw [hlast]; exact hfits.2.2⟩
    | waiting mark payload => exact ⟨howes _ _ hfits.1, hfits.2⟩
    | returned r =>
      obtain ⟨hstages, hks, hdone, hr⟩ := hfits
      exact ⟨hstages, by rw [hkernels]; exact hks,
        fun out ho i hi => htrace.subset (hdone out ho i hi), hr⟩

omit [DecidableEq Ty] in
/-- What issuing a command changes. -/
theorem Exec.issue_cases {stream : S} {op : Op K} {phase : Phase val S K O}
    (hs : s.issue stream op phase = some s') :
    (∀ e, op.event = some e → e < s.device.log.length) ∧
      s' = { s with
        device := { s.device with log := s.device.log ++ [⟨stream, op⟩] }
        phase := phase
        mine := s.mine ++ [s.device.log.length] } := by
  obtain ⟨device, hdev, rfl⟩ := Option.map_eq_some_iff.1 hs
  obtain ⟨c, hc, hevent, rfl⟩ | ⟨i, hi, -⟩ := Device.step_cases hdev
  · obtain rfl : (⟨stream, op⟩ : Command S K) = c := Streams.Label.issue.inj hc
    exact ⟨hevent, rfl⟩
  · cases hi

/-- The command that a run issues comes after those it has issued before. -/
theorem Inv.issue (h : Inv typeName all streams past s) {stream : S} {op : Op K}
    {phase : Phase val S K O} (hs : s.issue stream op phase = some s')
    (hlink : ∀ i, s.mine.getLast? = some i →
      lastStream s.device.log s.mine = some stream ∨ op.event = some i)
    (hfits : s'.mine.getLast? = some s.device.log.length →
      lastStream s'.device.log s'.mine = some stream →
      kernelsAt s'.device.log s'.mine = kernelsAt s.device.log s.mine ++ (kernel? op).toList →
      Fits typeName all streams s' phase) :
    Inv typeName all streams past s' := by
  obtain ⟨hevent, rfl⟩ := Exec.issue_cases hs
  have hmine : ∀ i ∈ s.mine, i < s.device.log.length := fun i hi => (h.mine i hi).2
  have hstep : s.device.step (.issue ⟨stream, op⟩) =
      some { s.device with log := s.device.log ++ [⟨stream, op⟩] } := Device.step_issue hevent
  refine ⟨h.sound.step hstep, h.log.trans (List.prefix_append _ _), h.trace, fun i hi => ?_, ?_, ?_⟩
  · have hlen := h.log.length_le
    simp only [List.mem_append, List.mem_singleton, List.length_append, List.length_singleton]
      at hi ⊢
    rcases hi with hi | rfl
    · have := h.mine i hi
      omega
    · omega
  · rw [List.isChain_append]
    refine ⟨h.chain.imp_of_mem_imp fun a b ha hb hab =>
      (before_append (hmine a ha) (hmine b hb)).2 hab, List.isChain_singleton _, ?_⟩
    intro i hi j hj
    obtain rfl : s.device.log.length = j := by simpa using hj
    have hilt : i < s.device.log.length := hmine i (List.mem_of_getLast? hi)
    have hget : (s.device.log ++ [⟨stream, op⟩])[i]? = some s.device.log[i] := by
      rw [List.getElem?_append_left hilt, List.getElem?_eq_getElem hilt]
    refine ⟨s.device.log[i], hget, ⟨stream, op⟩, by simp, ?_⟩
    refine (hlink i hi).imp (fun hstream => ⟨hilt, ?_⟩) id
    unfold lastStream at hstream
    rw [show s.mine.getLast? = some i from hi] at hstream
    simpa [List.getElem?_eq_getElem hilt] using hstream
  · apply hfits
    · simp
    · simp [lastStream]
    · exact kernelsAt_concat _ _ hmine

theorem getLast?_toList {α : Type} (o : Option α) : o.toList.getLast? = o := by
  cases o <;> rfl

/-- One step of the run itself. -/
theorem Inv.advance (h : Inv typeName all streams past s)
    (hs : s.advance typeName streams = some s') : Inv typeName all streams past s' := by
  obtain ⟨device, called, rest, phase, mine⟩ := s
  have hfits := h.fits
  cases phase with
  | looping w payload =>
    obtain ⟨ho, hw, htail⟩ := hfits
    cases rest with
    | nil =>
      obtain rfl := Option.some.inj hs
      refine ⟨h.sound, h.log, h.trace, h.mine, h.chain,
        ⟨ho.stages, ho.kernels, ho.result, ho.streams⟩, rfl, ?_⟩
      rw [← htail, List.map_nil, List.append_nil]
      exact (getLast?_toList _).symm
    | cons head rest =>
      obtain ⟨stage, stream⟩ := head
      obtain ⟨ops, hcall, hkernels, hwaits, hhead, hne⟩ :=
        enqueueBoxed_wait typeName stage stream payload w
      have hcalls := calls_cons typeName stage stream rest payload
      obtain ⟨hostages, hokernels, horesult, hostreams⟩ := ho
      simp only [remaining_ok, hcalls] at hostages hokernels horesult
      simp only [Exec.advance, hcall, Option.some.injEq] at hs
      subst hs
      refine ⟨h.sound, h.log, h.trace, h.mine, h.chain, ⟨?_, ?_, horesult, hostreams⟩, ?_, ?_, ?_,
        fun next hnext _ => hne next hnext⟩
      · simpa using hostages
      · rw [hkernels]
        simpa using hokernels
      · rw [← htail, List.map_cons, List.getLast?_append_cons]
      · intro op hop e he
        have hlast := hwaits op hop e he
        rw [hw] at hlast
        exact (h.mine e (List.mem_of_getLast? hlast)).2
      · intro op hop i hi
        exact hhead op hop i (hw.trans hi)
  | issuing stream queue last r =>
    obtain ⟨ho, htail, hwaits, hlinked, hne⟩ := hfits
    cases queue with
    | cons op queue =>
      have hlink : ∀ i, mine.getLast? = some i →
          lastStream device.log mine = some stream ∨ op.event = some i := by
        intro i hi
        cases last with
        | none => exact .inr (hlinked op rfl i hi)
        | some j => exact .inl hlinked.2
      refine h.issue hs hlink fun hlast hstream hkernels => ?_
      obtain ⟨hevent, rfl⟩ := Exec.issue_cases hs
      refine ⟨⟨ho.stages, ?_, ho.result, ho.streams⟩, htail, fun op' hop' e he => ?_,
        ⟨hlast, hstream⟩, nofun⟩
      · rw [hkernels, List.append_assoc _ _ (kernelsOf queue), ← kernelsOf_cons]
        exact ho.kernels
      · have hlt : e < device.log.length := hwaits op' (List.mem_cons_of_mem _ hop') e he
        show e < (device.log ++ [(⟨stream, op⟩ : Command S K)]).length
        rw [List.length_append]
        omega
    | nil =>
      cases r with
      | ok next =>
        obtain rfl := Option.some.inj hs
        cases last with
        | none => exact absurd rfl (hne next rfl rfl)
        | some i =>
          refine ⟨h.sound, h.log, h.trace, h.mine, h.chain,
            ⟨ho.stages, ho.kernels, ho.result, ho.streams⟩, hlinked.1.symm, ?_⟩
          rw [← htail]
          show ((lastStream device.log mine).toList ++ _).getLast? = _
          rw [show lastStream device.log mine = some stream from hlinked.2]
          rfl
      | error e =>
        obtain rfl := Option.some.inj hs
        refine ⟨h.sound, h.log, h.trace, h.mine, h.chain, ho.stages, ?_, nofun, .inl ?_⟩
        · simpa [remaining] using ho.kernels
        · rw [← ho.result]
          rfl
  | awaiting payload =>
    obtain ⟨ho, hrest, htail⟩ := hfits
    cases hlast : streams.getLast? with
    | none => simp [Exec.advance, hlast] at hs
    | some stream =>
      simp only [Exec.advance, hlast] at hs
      refine h.issue hs (fun i hi => .inl (htail.trans hlast)) fun hmark hstream hkernels => ?_
      obtain ⟨hevent, rfl⟩ := Exec.issue_cases hs
      refine ⟨⟨ho.stages, ?_, ho.result, ho.streams⟩, hrest, hmark⟩
      rw [hkernels]
      simpa [kernel?] using ho.kernels
  | waiting mark payload =>
    obtain ⟨ho, rfl, hmark⟩ := hfits
    by_cases hdone : mark ∈ device.trace
    · simp only [Exec.advance, hdone, if_true, Option.some.injEq] at hs
      subst hs
      refine ⟨h.sound, h.log, h.trace, h.mine, h.chain, ho.stages, ?_, fun out _ i hi => ?_,
        .inl ?_⟩
      · simpa [remaining, calls] using ho.kernels
      · -- the marker is the last of the chain
        obtain ⟨front, hfront⟩ := List.getLast?_eq_some_iff.1 hmark
        have hchain : (front ++ [mark]).Pairwise (Relation.TransGen (Before device.log)) :=
          hfront ▸ List.isChain_iff_pairwise.1
            (h.chain.imp fun _ _ hab => Relation.TransGen.single hab)
        rw [show mine = front ++ [mark] from hfront] at hi
        rcases List.mem_append.1 hi with hold | hnew
        · exact h.sound.order.mem_of_transGen hdone
            ((List.pairwise_append.1 hchain).2.2 i hold mark (by simp))
        · obtain rfl : i = mark := by simpa using hnew
          exact hdone
      · rw [← ho.result]
        rfl
    · simp only [Exec.advance, hdone, if_false] at hs
      cases hs
  | returned r => cases hs

theorem Inv.step (h : Inv typeName all streams past s) {l : Label S K}
    (hs : step typeName streams s l = some s') : Inv typeName all streams past s' := by
  cases l with
  | thread => exact h.advance hs
  | failAwait e =>
    obtain ⟨device, called, rest, phase, mine⟩ := s
    have hfits := h.fits
    have hfail : ∀ payload,
        Owes typeName all streams ⟨device, called, rest, phase, mine⟩ [] (.ok payload) → rest = [] →
        Inv typeName all streams past
          (⟨device, called, rest, .returned (.error e), mine⟩ : Exec val S K O) := by
      rintro payload ho rfl
      refine ⟨h.sound, h.log, h.trace, h.mine, h.chain, ho.stages, ?_, nofun,
        .inr ⟨⟨payload, ho.result.symm⟩, e, rfl⟩⟩
      simpa [remaining, calls] using ho.kernels
    cases phase with
    | awaiting payload =>
      obtain rfl := Option.some.inj hs
      exact hfail payload hfits.1 hfits.2.1
    | waiting mark payload =>
      obtain rfl := Option.some.inj hs
      exact hfail payload hfits.1 hfits.2.1
    | looping w payload => cases hs
    | issuing stream queue last r => cases hs
    | returned r => cases hs
  | other c =>
    obtain ⟨device, hdevice, rfl⟩ := Option.map_eq_some_iff.1 hs
    exact h.device hdevice
  | carryOut i =>
    obtain ⟨device, hdevice, rfl⟩ := Option.map_eq_some_iff.1 hs
    exact h.device hdevice

end Inv

section Run

variable {stages : List (PipelineStage val S K)} {streams : List S} {input : Payload val}
  {past : Device S K} {typeName : Ty → String}

omit [DecidableEq Ty] [DecidableEq S] in
theorem refusal_eq_none (h : refusal stages streams = none) :
    stages ≠ [] ∧ streams.length = stages.length := by
  unfold refusal at h
  split_ifs at h with hstages hlength
  exact ⟨hstages, not_not.1 hlength⟩

theorem inv_init (hpast : past.Sound) :
    Inv typeName (allCalls typeName stages streams input) streams past
      (system typeName stages streams input O past).init := by
  unfold system allCalls
  cases hrefusal : refusal stages streams with
  | some e =>
    exact ⟨hpast, List.prefix_rfl, List.prefix_rfl, by simp, List.isChain_nil,
      by simp [Exec.stages], rfl, nofun, .inl rfl⟩
  | none =>
    obtain ⟨hstages, hlength⟩ := refusal_eq_none hrefusal
    have hstreams : streams ≠ [] := by
      rw [← List.length_pos_iff, hlength, List.length_pos_iff]
      exact hstages
    refine ⟨hpast, List.prefix_rfl, List.prefix_rfl, by simp, List.isChain_nil,
      ⟨rfl, rfl, rfl, hstreams⟩, rfl, ?_⟩
    show (List.map Prod.snd (stages.zip streams)).getLast? = _
    rw [List.map_snd_zip (by omega)]

theorem inv_of_run (hpast : past.Sound) {ls : List (Label S K)} {s : Exec val S K O}
    (h : (system typeName stages streams input O past).run
      (system typeName stages streams input O past).init ls = some s) :
    Inv typeName (allCalls typeName stages streams input) streams past s :=
  (System.along_of_inv (fun _ hs => hs) (fun _ _ _ hs hstep => hs.step hstep)
    (inv_init hpast) ls).last h

omit [DecidableEq S] in
theorem Inv.pairwise {all : Outcome val S K (Payload val)} {s : Exec val S K O}
    (h : Inv typeName all streams past s) :
    s.mine.Pairwise (Relation.TransGen (Before s.device.log)) :=
  List.isChain_iff_pairwise.1 (h.chain.imp fun _ _ hab => Relation.TransGen.single hab)

omit [DecidableEq S] in
/-- What a run has issued so far is the beginning of what its calls launch. -/
theorem Inv.kernels {all : Outcome val S K (Payload val)} {s : Exec val S K O}
    (h : Inv typeName all streams past s) : kernelsAt s.device.log s.mine <+: all.kernels := by
  have howes : ∀ ops r, Owes typeName all streams s ops r →
      kernelsAt s.device.log s.mine <+: all.kernels := by
    intro ops r ho
    rw [← ho.kernels, List.append_assoc]
    exact List.prefix_append _ _
  have hfits := h.fits
  cases hphase : s.phase with
  | looping w payload => rw [hphase] at hfits; exact howes _ _ hfits.1
  | issuing stream queue last r => rw [hphase] at hfits; exact howes _ _ hfits.1
  | awaiting payload => rw [hphase] at hfits; exact howes _ _ hfits.1
  | waiting mark payload => rw [hphase] at hfits; exact howes _ _ hfits.1
  | returned r =>
    rw [hphase] at hfits
    exact hfits.2.1 ▸ List.prefix_rfl

/-- What a run has returned: the stages of its calls, and their result unless the await fails; with
an output all of its kernels have been carried out. -/
theorem returned_of_run (hpast : past.Sound) {ls : List (Label S K)} {s : Exec val S K O}
    (h : (system typeName stages streams input O past).run
      (system typeName stages streams input O past).init ls = some s) {r : Except GpuError (val O)}
    (hr : s.phase = .returned r) :
    s.stages = (outcome typeName stages streams input O).stages ∧
      (r = (outcome typeName stages streams input O).result ∨
        (∃ payload, (allCalls typeName stages streams input).result = .ok payload) ∧
          ∃ e, r = .error e) ∧
      ∀ out, r = .ok out → kernelsAt s.device.log (s.device.trace.filter (· ∈ s.mine)) =
        (outcome typeName stages streams input O).kernels := by
  have hinv := inv_of_run hpast h
  have hfits := hinv.fits
  rw [hr] at hfits
  obtain ⟨hstages, hkernels, hdone, hresult⟩ := hfits
  refine ⟨hstages, hresult, fun out hout => ?_⟩
  rw [hinv.sound.order.filter_mem_chain_eq hinv.sound.nodup hinv.pairwise (hdone out hout)]
  exact hkernels

/-- The kernels of a run are carried out in the order of its calls. -/
theorem carriedOut_of_run (hpast : past.Sound) {ls : List (Label S K)} {s : Exec val S K O}
    (h : (system typeName stages streams input O past).run
      (system typeName stages streams input O past).init ls = some s) :
    kernelsAt s.device.log (s.device.trace.filter (· ∈ s.mine)) <+:
      (outcome typeName stages streams input O).kernels := by
  have hinv := inv_of_run hpast h
  have hinit := hinv.sound.order.filter_mem_chain hinv.sound.nodup hinv.pairwise
  exact (hinit.filterMap _).trans hinv.kernels

/-- Whatever other threads issue and in whatever order the device proceeds: the kernels of a run are
carried out stage by stage; the run ends as its calls say, unless the await fails; and when it
returns an output, all of its kernels have been carried out. -/
theorem in_stage_order (hpast : past.Sound) {ls : List (Label S K)} {s : Exec val S K O}
    (h : (system typeName stages streams input O past).run
      (system typeName stages streams input O past).init ls = some s) :
    kernelsAt s.device.log (s.device.trace.filter (· ∈ s.mine)) <+:
      (outcome typeName stages streams input O).kernels ∧
    ∀ r, s.phase = .returned r →
      s.stages = (outcome typeName stages streams input O).stages ∧
      (r = (outcome typeName stages streams input O).result ∨
        (∃ payload, (allCalls typeName stages streams input).result = .ok payload) ∧
          ∃ e, r = .error e) ∧
      ∀ out, r = .ok out → kernelsAt s.device.log (s.device.trace.filter (· ∈ s.mine)) =
        (outcome typeName stages streams input O).kernels :=
  ⟨carriedOut_of_run hpast h, fun _ hr => returned_of_run hpast h hr⟩

end Run

/-! Two stages that launch the kernel named by their input, on a device with no past. -/

def counting : PipelineStage (fun _ : Unit => ℕ) Bool ℕ :=
  ⟨(), (), Unit, (), fun _ _ x => ((), [x], .ok (x + 1))⟩

def countingTwice : System (Exec (fun _ : Unit => ℕ) Bool ℕ ()) (Label Bool ℕ) :=
  system (fun _ => "u64") [counting, counting] [false, true] (@boxed Unit (fun _ => ℕ) () 7) ()
    ⟨[], []⟩

/-- The run gets to its await before the device does anything. -/
def hostFirst : List (Label Bool ℕ) :=
  List.replicate 11 .thread ++ (List.range 6).map .carryOut ++ [.thread]

theorem in_stage_order_counting :
    ∃ s, countingTwice.run countingTwice.init hostFirst = some s ∧
      kernelsAt s.device.log (s.device.trace.filter (· ∈ s.mine)) = [7, 8] := by
  obtain ⟨s, hs, hphase⟩ : ∃ s, countingTwice.run countingTwice.init hostFirst = some s ∧
      s.phase = .returned (.ok 9) := ⟨_, rfl, rfl⟩
  exact ⟨s, hs, ((in_stage_order Device.sound_nil hs).2 _ hphase).2.2 _ rfl⟩

end Pipeline

end AtomrAccel
