import AtomrAccel.Lib.Transition
import AtomrAccel.Train.DataParallel

/-!
# `PipelineParallelTrainer`: a step through the stages

Every `Step` spawns a task, which tells the first stage its input, awaits the answer, tells the next
stage what it was answered, and so on; the last stage answers with a loss and a gradient norm.  The
tasks of several steps run at once, and a stage is an actor with a mailbox of its own.

* `Msg`, `Task`, `State`, `forward`, `reply`, `poll`: the task's code;
* `Label`, `step`, `system`, `Party`: steps, polls, stages that take the head of their mailbox into
  their hands, and answers to what is in somebody's hands;
* `State.view`: the part of a state that is about one step, and what each operation does to it;
* `poll_cases`, `map_input_run`, `mailboxes_step`: what a poll does, whose step is whose, and how
  mailboxes change.
-/

namespace AtomrAccel

namespace Train

namespace Pipeline

open Gather (Received)

open Transition

/-- A stage. -/
abbrev ActorRef := ℕ

/-- The sender of the channel on which a task awaits the answer of a stage. -/
structure Sender where
  task : ℕ
  stage : ℕ
  deriving DecidableEq, Repr

/-- The messages to the stages. -/
inductive Msg (A : Type)
  | makeForward (input : A) (reply : Sender)
  | makeFinalForward (input : A) (reply : Sender)
  deriving DecidableEq, Repr

/-- The activation in a message. -/
def Msg.input {A : Type} : Msg A → A
  | makeForward input _ | makeFinalForward input _ => input

/-- The channel in a message. -/
def Msg.reply {A : Type} : Msg A → Sender
  | makeForward _ reply | makeFinalForward _ reply => reply

/-- Where the task of a step is. -/
inductive Phase
  | spawned
  | awaiting (i : ℕ)
  | finished
  deriving DecidableEq, Repr

/-- A `Step`: its input, its task, and what was sent on its reply channel. -/
structure Task (A F : Type) where
  input : A
  phase : Phase
  replies : List (Except GpuError (StepStats F))
  deriving DecidableEq

/-- The steps so far, the mailboxes of the stages, the requests they have taken and not answered,
and the receivers; `tells` logs what the stages were told. -/
structure State (A F : Type) where
  tasks : List (Task A F)
  mailboxes : ActorRef → List (Msg A)
  inHand : List (Msg A)
  rx : Sender → Option (Received GpuError A)
  finalRx : Sender → Option (Received GpuError (F × F))
  tells : List (ActorRef × Msg A)

/-- The request to the `i`-th of `n` stages. -/
def message {A : Type} (n t i : ℕ) (act : A) : Msg A :=
  if i + 1 < n then .makeForward act ⟨t, i⟩ else .makeFinalForward act ⟨t, i⟩

/-- The error of a trainer without stages. -/
def noStages : GpuError := .unrecoverable "PipelineParallelTrainer::Step: no stages"

/-- The error of a stage that does not answer. -/
def stageDropped : GpuError := .unrecoverable "pipeline: stage dropped reply"

/-- The error of a last stage that does not answer. -/
def finalDropped : GpuError := .unrecoverable "pipeline: final stage dropped reply"

section Code

variable {A F : Type} (stages : List ActorRef) (s : State A F)

namespace State

/-- The body of the loop for stage `i`, up to the point where it waits. -/
def forward (t i : ℕ) (task : Task A F) (act : A) : State A F :=
  match stages[i]? with
  | none => { s with tasks := s.tasks.set t { task with phase := .finished } }
  | some a =>
    { s with
      tasks := s.tasks.set t { task with phase := .awaiting i }
      mailboxes := Function.update s.mailboxes a
        (s.mailboxes a ++ [message stages.length t i act])
      tells := s.tells ++ [(a, message stages.length t i act)] }

/-- The task replies, and is finished. -/
def reply (t : ℕ) (task : Task A F) (r : Except GpuError (StepStats F)) : State A F :=
  { s with tasks := s.tasks.set t { task with phase := .finished, replies := task.replies ++ [r] } }

/-- The task of step `t` goes on; `none` when it cannot. -/
def poll (t : ℕ) : Option (State A F) :=
  match s.tasks[t]? with
  | none => none
  | some task =>
    match task.phase with
    | .spawned => some (s.forward stages t 0 task task.input)
    | .awaiting i =>
      if i + 1 < stages.length then
        (s.rx ⟨t, i⟩).map fun r =>
          match r.toExcept stageDropped with
          | .ok next => s.forward stages t (i + 1) task next
          | .error e => s.reply t task (.error e)
      else
        (s.finalRx ⟨t, i⟩).map fun r =>
          match r.toExcept finalDropped with
          | .ok (loss, gradNorm) => s.reply t task (.ok ⟨loss, gradNorm⟩)
          | .error e => s.reply t task (.error e)
    | .finished => none

/-- The `Step` arm. -/
def handle (input : A) : State A F :=
  if stages.isEmpty then { s with tasks := s.tasks ++ [⟨input, .finished, [.error noStages]⟩] }
  else { s with tasks := s.tasks ++ [⟨input, .spawned, []⟩] }

end State

/-- What can happen: a `Step`, a poll of a task, a stage that takes the head of its mailbox, and an
answer, or the drop, of a sender in somebody's hands. -/
inductive Label (A F : Type)
  | step (input : A)
  | poll (t : ℕ)
  | take (a : ActorRef)
  | answer (tx : Sender) (r : Received GpuError A)
  | answerFinal (tx : Sender) (r : Received GpuError (F × F))

/-- One step of the task or a stage. -/
def step : Label A F → Option (State A F)
  | .step input => some (s.handle stages input)
  | .poll t => s.poll stages t
  | .take a =>
    match s.mailboxes a with
    | [] => none
    | m :: rest =>
      some { s with mailboxes := Function.update s.mailboxes a rest, inHand := m :: s.inHand }
  -- a request is out of hand once its sender is used up
  | .answer tx r =>
    match s.inHand.find? fun m => m.reply = tx with
    | some (.makeForward _ _) =>
      some { s with
        inHand := s.inHand.filter fun m => m.reply ≠ tx
        rx := Function.update s.rx tx (some r) }
    | _ => none
  | .answerFinal tx r =>
    match s.inHand.find? fun m => m.reply = tx with
    | some (.makeFinalForward _ _) =>
      some { s with
        inHand := s.inHand.filter fun m => m.reply ≠ tx
        finalRx := Function.update s.finalRx tx (some r) }
    | _ => none

/-- The task with its stages. -/
def system (A F : Type) : System (State A F) (Label A F) where
  init := ⟨[], fun _ => [], [], fun _ => none, fun _ => none, []⟩
  step := step stages

/-- Who moves: a task, a stage, or whoever has a sender in hand. -/
inductive Party
  | task (t : ℕ)
  | stage (a : ActorRef)
  | sender (tx : Sender)
  deriving DecidableEq, Repr

/-- Nothing is promised about further steps. -/
def Label.party : Label A F → Option Party
  | .step _ => none
  | .poll t => some (.task t)
  | .take a => some (.stage a)
  | .answer tx _ | .answerFinal tx _ => some (.sender tx)

end Code

/-! ### One step among the others -/

/-- The part of a state that is about one step. -/
structure View (A F : Type) where
  task : Option (Task A F)
  queued : ActorRef → List (Msg A)
  held : List (Msg A)
  rx : ℕ → Option (Received GpuError A)
  finalRx : ℕ → Option (Received GpuError (F × F))
  visits : List (ActorRef × Msg A)

section Views

variable {A F : Type} (stages : List ActorRef) (t : ℕ)

/-- All there is of task `t`. -/
def State.view (s : State A F) : View A F where
  task := s.tasks[t]?
  queued a := (s.mailboxes a).filter fun m => m.reply.task = t
  held := s.inHand.filter fun m => m.reply.task = t
  rx i := s.rx ⟨t, i⟩
  finalRx i := s.finalRx ⟨t, i⟩
  visits := s.tells.filter fun p => p.2.reply.task = t

/-- The stages in order, each told the next of the activations. -/
def visits (told : List A) : List (ActorRef × Msg A) :=
  told.mapIdx fun i act => (stages.getD i 0, message stages.length t i act)

end Views

/-! ### What an operation does to a view -/

section Frames

variable {A F : Type} {stages : List ActorRef} {s s' : State A F} {t u : ℕ}

theorem reply_message (n t i : ℕ) (act : A) : (message n t i act).reply = ⟨t, i⟩ := by
  unfold message
  split <;> rfl

theorem input_message (n t i : ℕ) (act : A) : (message n t i act).input = act := by
  unfold message
  split <;> rfl

theorem view_handle (input : A) : (s.handle stages input).view t =
    if t = s.tasks.length then
      { s.view t with
        task := some (if stages.isEmpty then ⟨input, .finished, [.error noStages]⟩
          else ⟨input, .spawned, []⟩) }
    else s.view t := by
  have htask : ∀ task : Task A F, (s.tasks ++ [task])[t]? =
      if t = s.tasks.length then some task else s.tasks[t]? := by
    intro task
    by_cases ht : t = s.tasks.length
    · rw [if_pos ht, ht, List.getElem?_concat_length]
    · rw [if_neg ht]
      rcases Nat.lt_or_gt_of_ne ht with hlt | hgt
      · exact List.getElem?_append_left hlt
      · rw [List.getElem?_eq_none (by simp; omega), List.getElem?_eq_none hgt.le]
  unfold State.handle
  split <;> simp only [State.view, htask] <;> split <;> rfl

theorem view_forward_of_ne {i : ℕ} {task : Task A F} {act : A} (h : t ≠ u) :
    (s.forward stages u i task act).view t = s.view t := by
  unfold State.forward
  cases stages[i]? with
  | none => simp only [State.view, List.getElem?_set_ne h.symm]
  | some a =>
    have hqueued : ∀ b, ((Function.update s.mailboxes a
        (s.mailboxes a ++ [message stages.length u i act]) b).filter fun m => m.reply.task = t) =
        (s.mailboxes b).filter fun m => m.reply.task = t := by
      intro b
      by_cases hb : b = a
      · subst hb
        simp [reply_message, h.symm]
      · rw [Function.update_of_ne hb]
    simp only [State.view, List.getElem?_set_ne h.symm, hqueued, List.filter_append]
    simp [reply_message, h.symm]

theorem view_forward {i : ℕ} {task : Task A F} {act : A} (ht : s.tasks[t]? = some task)
    (hi : i < stages.length) :
    (s.forward stages t i task act).view t =
      { s.view t with
        task := some { task with phase := .awaiting i }
        queued := Function.update (s.view t).queued (stages.getD i 0)
          ((s.view t).queued (stages.getD i 0) ++ [message stages.length t i act])
        visits := (s.view t).visits ++ [(stages.getD i 0, message stages.length t i act)] } := by
  have hset : ∀ task' : Task A F, (s.tasks.set t task')[t]? = some task' := fun task' =>
    List.getElem?_set_self (List.getElem?_eq_some_iff.1 ht).1
  have hget : stages[i]? = some (stages.getD i 0) := by
    rw [List.getD_eq_getElem?_getD, List.getElem?_eq_getElem hi, Option.getD_some]
  unfold State.forward
  rw [hget]
  simp only [State.view, hset, List.filter_append]
  congr 1
  · funext b
    by_cases hb : b = stages.getD i 0
    · subst hb
      simp [reply_message]
    · rw [Function.update_of_ne hb, Function.update_of_ne hb]
  · simp [reply_message]

theorem view_reply_of_ne {task : Task A F} {r : Except GpuError (StepStats F)} (h : t ≠ u) :
    (s.reply u task r).view t = s.view t := by
  simp only [State.view, State.reply, List.getElem?_set_ne h.symm]

theorem view_reply {task : Task A F} {r : Except GpuError (StepStats F)}
    (ht : s.tasks[t]? = some task) :
    (s.reply t task r).view t =
      { s.view t with
        task := some { task with phase := .finished, replies := task.replies ++ [r] } } := by
  simp only [State.view, State.reply, List.getElem?_set_self (List.getElem?_eq_some_iff.1 ht).1]

theorem view_take {a : ActorRef} {m : Msg A} {rest : List (Msg A)}
    (ha : s.mailboxes a = m :: rest) :
    ({ s with mailboxes := Function.update s.mailboxes a rest, inHand := m :: s.inHand } :
      State A F).view t =
      if m.reply.task = t then
        { s.view t with
          queued := Function.update (s.view t).queued a ((s.view t).queued a).tail
          held := m :: (s.view t).held }
      else s.view t := by
  by_cases hm : m.reply.task = t
  · simp only [State.view, List.filter_cons, hm, decide_true, if_true, ha]
    congr 1
    funext b
    by_cases hb : b = a
    · subst hb
      simp
    · rw [Function.update_of_ne hb, Function.update_of_ne hb]
  · simp only [State.view, List.filter_cons, hm, decide_false]
    congr 1
    funext b
    by_cases hb : b = a
    · subst hb
      simp [ha, hm]
    · rw [Function.update_of_ne hb]

/-- Who else is in somebody's hands when a sender is used up. -/
theorem filter_inHand (tx : Sender) (l : List (Msg A)) :
    ((l.filter fun m => m.reply ≠ tx).filter fun m => m.reply.task = t) =
      if tx.task = t then (l.filter fun m => m.reply.task = t).filter fun m => m.reply ≠ tx
      else l.filter fun m => m.reply.task = t := by
  split
  · simp only [List.filter_filter, Bool.and_comm]
  · rename_i htx
    rw [List.filter_filter]
    refine List.filter_congr fun m _ => ?_
    have : m.reply.task = t → m.reply ≠ tx := fun hm he => htx (he ▸ hm)
    by_cases hm : m.reply.task = t
    · simp [hm, this hm]
    · simp [hm]

theorem update_rx {β : Type} (f : Sender → Option β) (tx : Sender) (r : β) :
    (fun i => Function.update f tx (some r) ⟨t, i⟩) =
      if tx.task = t then Function.update (fun i => f ⟨t, i⟩) tx.stage (some r)
      else fun i => f ⟨t, i⟩ := by
  funext i
  split
  · rename_i htx
    subst htx
    by_cases hi : i = tx.stage
    · subst hi
      rw [Function.update_self, Function.update_self]
    · rw [Function.update_of_ne hi, Function.update_of_ne fun he => hi (by rw [← he])]
  · rename_i htx
    rw [Function.update_of_ne fun he => htx (by rw [← he])]

theorem view_answer (tx : Sender) (r : Received GpuError A) :
    ({ s with
        inHand := s.inHand.filter fun m => m.reply ≠ tx
        rx := Function.update s.rx tx (some r) } : State A F).view t =
      if tx.task = t then
        { s.view t with
          held := (s.view t).held.filter fun m => m.reply ≠ tx
          rx := Function.update (s.view t).rx tx.stage (some r) }
      else s.view t := by
  simp only [State.view, filter_inHand, update_rx]
  split <;> rfl

theorem view_answerFinal (tx : Sender) (r : Received GpuError (F × F)) :
    ({ s with
        inHand := s.inHand.filter fun m => m.reply ≠ tx
        finalRx := Function.update s.finalRx tx (some r) } : State A F).view t =
      if tx.task = t then
        { s.view t with
          held := (s.view t).held.filter fun m => m.reply ≠ tx
          finalRx := Function.update (s.view t).finalRx tx.stage (some r) }
      else s.view t := by
  simp only [State.view, filter_inHand, update_rx]
  split <;> rfl

/-- A poll goes on to a stage or sends the reply. -/
theorem poll_cases (hs : s.poll stages u = some s') : ∃ task, s.tasks[u]? = some task ∧
    ((∃ i act, s' = s.forward stages u i task act) ∨ ∃ r, s' = s.reply u task r) := by
  unfold State.poll at hs
  cases hu : s.tasks[u]? with
  | none => simp [hu] at hs
  | some task =>
    refine ⟨task, rfl, ?_⟩
    simp only [hu] at hs
    cases hphase : task.phase with
    | spawned =>
      simp only [hphase, Option.some.injEq] at hs
      exact .inl ⟨_, _, hs.symm⟩
    | finished => simp [hphase] at hs
    | awaiting i =>
      simp only [hphase] at hs
      split at hs
      · obtain ⟨r, -, hr⟩ := Option.map_eq_some_iff.1 hs
        split at hr
        · exact .inl ⟨_, _, hr.symm⟩
        · exact .inr ⟨_, hr.symm⟩
      · obtain ⟨r, -, hr⟩ := Option.map_eq_some_iff.1 hs
        split at hr <;> exact .inr ⟨_, hr.symm⟩

/-- What a poll of another task leaves alone. -/
theorem view_poll_of_ne (h : t ≠ u) (hs : s.poll stages u = some s') : s'.view t = s.view t := by
  obtain ⟨task, -, ⟨i, act, rfl⟩ | ⟨r, rfl⟩⟩ := poll_cases hs
  · exact view_forward_of_ne h
  · exact view_reply_of_ne h

/-! ### Inputs and mailboxes -/

/-- The input of a step. -/
def Label.input? {A F : Type} : Label A F → Option A
  | .step input => some input
  | _ => none

theorem map_input_set {tasks : List (Task A F)} {u : ℕ} {task task' : Task A F}
    (hu : tasks[u]? = some task) (hinput : task'.input = task.input) :
    (tasks.set u task').map Task.input = tasks.map Task.input := by
  refine List.ext_getElem? fun i => ?_
  rw [List.getElem?_map, List.getElem?_map]
  by_cases hi : u = i
  · subst hi
    rw [List.getElem?_set_self (List.getElem?_eq_some_iff.1 hu).1, hu]
    exact congrArg some hinput
  · rw [List.getElem?_set_ne hi]

theorem map_input_forward {u i : ℕ} {task : Task A F} {act : A} (hu : s.tasks[u]? = some task) :
    (s.forward stages u i task act).tasks.map Task.input = s.tasks.map Task.input := by
  unfold State.forward
  split <;> exact map_input_set hu rfl

theorem map_input_poll (hs : s.poll stages u = some s') :
    s'.tasks.map Task.input = s.tasks.map Task.input := by
  obtain ⟨task, hu, ⟨i, act, rfl⟩ | ⟨r, rfl⟩⟩ := poll_cases hs
  · exact map_input_forward hu
  · exact map_input_set hu rfl

theorem map_input_step {l : Label A F} (hs : step stages s l = some s') :
    s'.tasks.map Task.input = s.tasks.map Task.input ++ l.input?.toList := by
  cases l with
  | step input =>
    obtain rfl := Option.some.inj hs
    unfold State.handle
    split <;> simp [Label.input?]
  | poll u => simpa [Label.input?] using map_input_poll hs
  | take a =>
    simp only [step] at hs
    split at hs <;> cases hs
    simp [Label.input?]
  | answer tx r =>
    simp only [step] at hs
    split at hs <;> cases hs
    simp [Label.input?]
  | answerFinal tx r =>
    simp only [step] at hs
    split at hs <;> cases hs
    simp [Label.input?]

/-- Step `t` is the `t`-th `Step` message. -/
theorem map_input_run {ls : List (Label A F)} (hr : (system stages A F).run s ls = some s') :
    s'.tasks.map Task.input = s.tasks.map Task.input ++ ls.filterMap Label.input? := by
  induction ls generalizing s with
  | nil =>
    cases hr
    simp
  | cons l ls ih =>
    obtain ⟨s₁, hs₁, hrun⟩ := System.run_cons_eq_some.1 hr
    rw [ih hrun, map_input_step hs₁, List.append_assoc]
    cases hl : l.input? <;> simp [hl]

theorem length_step {l : Label A F} (hs : step stages s l = some s') :
    s.tasks.length ≤ s'.tasks.length := by
  have h := congrArg List.length (map_input_step hs)
  rw [List.length_append, List.length_map, List.length_map] at h
  omega

theorem mailboxes_poll (hs : s.poll stages u = some s') (a : ActorRef) :
    ∃ ms, s'.mailboxes a = s.mailboxes a ++ ms := by
  obtain ⟨task, -, ⟨i, act, rfl⟩ | ⟨r, rfl⟩⟩ := poll_cases hs
  · unfold State.forward
    cases stages[i]? with
    | none => exact ⟨[], (List.append_nil _).symm⟩
    | some b =>
      by_cases hb : a = b
      · subst hb
        exact ⟨_, Function.update_self ..⟩
      · exact ⟨[], by simp [Function.update_of_ne hb]⟩
  · exact ⟨[], (List.append_nil _).symm⟩

/-- A mailbox grows at the end, unless its actor takes the head. -/
theorem mailboxes_step {l : Label A F} (hs : step stages s l = some s') (a : ActorRef) :
    (l.party ≠ some (.stage a) ∧ ∃ ms, s'.mailboxes a = s.mailboxes a ++ ms) ∨
      ∃ m, s.mailboxes a = m :: s'.mailboxes a := by
  cases l with
  | step input =>
    obtain rfl := Option.some.inj hs
    refine .inl ⟨nofun, [], ?_⟩
    unfold State.handle
    split <;> exact (List.append_nil _).symm
  | poll u => exact .inl ⟨nofun, mailboxes_poll hs a⟩
  | take b =>
    simp only [step] at hs
    cases hmail : s.mailboxes b with
    | nil => simp [hmail] at hs
    | cons m rest =>
      simp only [hmail, Option.some.injEq] at hs
      subst hs
      by_cases hb : a = b
      · subst hb
        exact .inr ⟨m, by simp [hmail]⟩
      · refine .inl ⟨fun h => ?_, [], by simp [Function.update_of_ne hb]⟩
        cases h
        exact hb rfl
  | answer tx r =>
    simp only [step] at hs
    split at hs <;> cases hs
    exact .inl ⟨nofun, [], (List.append_nil _).symm⟩
  | answerFinal tx r =>
    simp only [step] at hs
    split at hs <;> cases hs
    exact .inl ⟨nofun, [], (List.append_nil _).symm⟩

end Frames

end Pipeline

end Train

end AtomrAccel
