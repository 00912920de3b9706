import AtomrAccel.Lib.Transition
import AtomrAccel.Device.DeviceActor

/-!
# `ContextActor` under its `DeviceActor`: panics, restarts and queued copies

A restart replaces the `ContextActor` by a fresh instance whose stream is missing until it has
handled the `Init` that `post_restart` appends to its mailbox.  The mailbox survives, so copies
that were queued before, or that the `DeviceActor` forwards while the restart is under way, may
stand ahead of that `Init`.

* `ContextActor`, `runInit`, `handle`: the actor, with the panic texts the supervisor reads;
* `Tree`, `Label`, `step`: a `DeviceActor` with its `ContextActor`, their mailboxes and the
  supervisor, one label per move of one party;
* `Settled`: no copy is about to be handled without a stream, nothing was escalated, and every
  forwarded copy has been answered or is still queued and will be;
* `LabelOk`, `along_settled`: every run whose `Init` tells find no copy ahead keeps `Settled`.
-/

namespace AtomrAccel

/-- A stream. -/
abbrev StreamId := ℕ

/-! ### The actor -/

/-- The actor: its stream and its children, once `Init` has made them. -/
structure ContextActor where
  stream : Option StreamId
  children : Option KernelChildren
  deriving DecidableEq, Repr

/-- What the driver and the actor system answer to one `run_init`. -/
structure InitEnv where
  context : Except String CtxId
  stream : Except String StreamId
  /-- the `BlasActor`, or the name of the kernel actor that could not be spawned and the reason -/
  spawn : Except (String × String) ActorRef

/-- The driver and the actor system do what they are asked. -/
def InitEnv.Answers (env : InitEnv) : Prop :=
  (∃ c, env.context = .ok c) ∧ (∃ t, env.stream = .ok t) ∧ ∃ blas, env.spawn = .ok blas

/-- The answers of the outside during one message. -/
structure ContextEnv where
  init : InitEnv
  allocZeros : Except String GpuRef
  /-- the reply a copy ends in once it runs: a failed check, or the outcome of the transfer -/
  copy : Except GpuError HostBuf

/-- What the actor does to the outside. -/
inductive ContextEffect
  | tellParent (msg : DeviceMsg)
  | replyStream (reply : ReplyId) (stream : Option StreamId)
  | replyAlloc (req : AllocReq) (result : Except GpuError GpuRef)
  | replyCopyToHost (req : CopyToHostReq) (result : Except GpuError HostBuf)
  | replyCopyFromHost (req : CopyFromHostReq) (result : Except GpuError HostBuf)

/-- The outcome of handling one message; `panic` is the text of the panic that ended it. -/
structure Handled where
  actor : ContextActor
  state : DeviceState
  effects : List ContextEffect
  panic : Option String

/-- The body of `AllocReq::run`. -/
def AllocReq.run (req : AllocReq) (stream : Option StreamId) (mockMode : Bool)
    (allocZeros : Except String GpuRef) : Except GpuError GpuRef :=
  if mockMode then .error (.unrecoverable "alloc not supported in mock mode")
  else if stream.isNone then .error (.gpuRefStale "context not ready")
  else match allocZeros with
    | .ok r => .ok r
    | .error e => .error (.outOfMemory ("alloc " ++ toString req.len ++ ": " ++ e))

/-- The text of `expect` on a missing stream. -/
def ctxNotReady : String := "ctx not ready"

namespace ContextActor

/-- The instance `Props` creates. -/
def fresh : ContextActor := ⟨none, none⟩

/-- The end of `run_init`: remember the children and tell the parent. -/
def announce (c : ContextActor) (state : DeviceState) (blas : ActorRef) : Handled :=
  ⟨{ c with children := some ⟨blas⟩ }, state, [.tellParent (.contextReady ⟨blas⟩)], none⟩

/-- Make a context, a stream and the children, and announce them. -/
def runInit (c : ContextActor) (config : DeviceConfig) (state : DeviceState) (env : InitEnv) :
    Handled :=
  if config.mockMode then
    let state := state.bumpGeneration
    match env.spawn with
    | .error (actor, e) =>
      ⟨c, state, [], some (unrecoverableTag ++ (": spawn mock " ++ actor ++ ": " ++ e))⟩
    | .ok blas => c.announce state blas
  else match env.context with
    | .error e =>
      ⟨c, state, [], some (contextPoisonedTag ++
        (": CudaContext::new(" ++ toString config.deviceId ++ ") failed: " ++ e))⟩
    | .ok ctx =>
      match env.stream with
      | .error e =>
        ⟨c, state, [], some (contextPoisonedTag ++
          (": new_stream failed on device " ++ toString config.deviceId ++ ": " ++ e))⟩
      | .ok stream =>
        let state := state.bumpGeneration.installContext ctx
        let c := { c with stream := some stream }
        match env.spawn with
        | .error (actor, e) =>
          ⟨c, state, [], some (unrecoverableTag ++ (": spawn " ++ actor ++ ": " ++ e))⟩
        | .ok blas => c.announce state blas

/-- The copy arms: `expect` a stream, then run the copy, which replies on every path. -/
def runCopy (c : ContextActor) (state : DeviceState) (reply : ContextEffect) : Handled :=
  match c.stream with
  | none => ⟨c, state, [], some ctxNotReady⟩
  | some _ => ⟨c, state, [reply], none⟩

/-- The messages, with what the driver and the spawning answer. -/
def handle (c : ContextActor) (config : DeviceConfig) (state : DeviceState) (env : ContextEnv) :
    ContextMsg → Handled
  | .init => c.runInit config state env.init
  | .snapshotStream reply => ⟨c, state, [.replyStream reply c.stream], none⟩
  | .alloc req =>
    ⟨c, state, [.replyAlloc req (req.run c.stream config.mockMode env.allocZeros)], none⟩
  | .copyToHost req => c.runCopy state (.replyCopyToHost req env.copy)
  | .copyFromHost req => c.runCopy state (.replyCopyFromHost req env.copy)

end ContextActor

/-! ### The two actors together -/

/-- Where the actor is in its life. -/
inductive Status
  /-- in `pre_start` or `post_restart`, with `Init` not yet told -/
  | preparing
  | running
  /-- a handler panicked with this text, and the supervisor has not decided yet -/
  | failed (text : String)
  | stopped
  | escalated
  deriving DecidableEq, Repr

/-- A `DeviceActor` and its `ContextActor`; `forwarded` and `replied` record the copies told to
the `ContextActor` and the copies it has replied to. -/
structure Tree where
  device : DeviceActor
  deviceMailbox : List DeviceMsg
  context : ContextActor
  contextMailbox : List ContextMsg
  status : Status
  forwarded : List ContextMsg
  replied : List ContextMsg
  deriving DecidableEq, Repr

/-- The steps of the tree of actors. -/
inductive Label
  /-- a client sends a message to the device -/
  | send (msg : DeviceMsg)
  /-- the `DeviceActor` handles its next message -/
  | device
  /-- the `ContextActor` handles its next message -/
  | context (env : ContextEnv)
  /-- a panic in the `ContextActor` with a text that carries the poisoning tag -/
  | poison (text : String)
  /-- the supervisor decides about a failed `ContextActor` -/
  | supervise
  /-- `pre_start` and `post_restart` tell `Init` -/
  | tellInit

/-- Internal messages are not for clients. -/
def DeviceMsg.fromClient : DeviceMsg → Bool
  | contextReady _ | contextLost => false
  | _ => true

/-- Whether a message asks for a copy. -/
def ContextMsg.isCopy : ContextMsg → Bool
  | copyToHost _ | copyFromHost _ => true
  | init | snapshotStream _ | alloc _ => false

/-- Whether work is a copy. -/
def Work.isCopy : Work → Bool
  | copyToHost _ | copyFromHost _ => true
  | alloc _ | sgemm _ => false

/-- What goes to the context actor. -/
def Effect.toContext? : Effect → Option ContextMsg
  | tellContext _ msg => some msg
  | _ => none

/-- What goes to the parent. -/
def ContextEffect.toParent? : ContextEffect → Option DeviceMsg
  | tellParent msg => some msg
  | _ => none

/-- The copy that is answered. -/
def ContextEffect.repliedCopy? : ContextEffect → Option ContextMsg
  | replyCopyToHost req _ => some (.copyToHost req)
  | replyCopyFromHost req _ => some (.copyFromHost req)
  | _ => none

/-- The copies in a mailbox. -/
def copies (msgs : List ContextMsg) : List ContextMsg := msgs.filter ContextMsg.isCopy

/-- Some copy stands ahead of the first `Init`. -/
def copyAhead : List ContextMsg → Bool
  | [] => false
  | .init :: _ => false
  | msg :: msgs => msg.isCopy || copyAhead msgs

namespace Tree

/-- A device after its `pre_start`, with the `ContextActor` about to start. -/
def initial (config : DeviceConfig) (ctx : ActorRef) : Tree :=
  ⟨DeviceActor.started config ctx, [], ContextActor.fresh, [], .preparing, [], []⟩

/-- The `DeviceActor` handles `msg`, and its tells reach the `ContextActor`. -/
def deviceStep (s : Tree) (msg : DeviceMsg) (rest : List DeviceMsg) : Tree :=
  let r := s.device.handle msg
  let told := r.2.filterMap Effect.toContext?
  { s with
    device := r.1
    deviceMailbox := rest
    contextMailbox := s.contextMailbox ++ told
    forwarded := s.forwarded ++ copies told }

/-- The `ContextActor` handles `msg`. -/
def contextStep (s : Tree) (env : ContextEnv) (msg : ContextMsg) (rest : List ContextMsg) : Tree :=
  let r := s.context.handle s.device.config s.device.state env msg
  { s with
    device := { s.device with state := r.state }
    deviceMailbox := s.deviceMailbox ++ r.effects.filterMap ContextEffect.toParent?
    context := r.actor
    contextMailbox := rest
    status := match r.panic with
      | none => .running
      | some text => .failed text
    replied := s.replied ++ r.effects.filterMap ContextEffect.repliedCopy? }

/-- The decision on a panic with this text. -/
def superviseStep (s : Tree) (text : String) : Tree :=
  match decideStr text with
  -- a fresh instance, and the first tell of `post_restart`
  | .restart =>
    { s with
      context := ContextActor.fresh
      deviceMailbox := s.deviceMailbox ++ [.contextLost]
      status := .preparing }
  | .resume => { s with status := .running }
  -- `post_stop`
  | .stop =>
    { s with
      device := { s.device with state := s.device.state.clearContext }
      context := ContextActor.fresh
      deviceMailbox := s.deviceMailbox ++ [.contextLost]
      status := .stopped }
  | .escalate => { s with status := .escalated }

/-- One step of the tree. -/
def step (s : Tree) : Label → Option Tree
  | .send msg =>
    if msg.fromClient then some { s with deviceMailbox := s.deviceMailbox ++ [msg] } else none
  | .device =>
    match s.deviceMailbox with
    | [] => none
    | msg :: rest => some (s.deviceStep msg rest)
  | .context env =>
    match s.status, s.contextMailbox with
    | .running, msg :: rest => some (s.contextStep env msg rest)
    | _, _ => none
  | .poison text =>
    if s.status = .running ∧ containsText text contextPoisonedTag = true then
      some { s with status := .failed text }
    else none
  | .supervise =>
    match s.status with
    | .failed text => some (s.superviseStep text)
    | _ => none
  | .tellInit =>
    if s.status = .preparing then
      some { s with contextMailbox := s.contextMailbox ++ [.init], status := .running }
    else none

end Tree

/-- The two actors as a transition system. -/
def treeSystem (config : DeviceConfig) (ctx : ActorRef) : Transition.System Tree Label :=
  ⟨Tree.initial config ctx, Tree.step⟩

namespace Tree

/-- The `ContextActor` handles its next `n` messages. -/
def workOff (env : ContextEnv) : ℕ → Tree → Option Tree
  | 0, s => some s
  | n + 1, s => (s.step (.context env)).bind (workOff env n)

/-- What is asked of every reachable state. -/
structure Settled (s : Tree) : Prop where
  /-- a copy that is about to be handled finds a stream -/
  guarded : s.status = .running → ∀ msg rest, s.contextMailbox = msg :: rest →
    msg.isCopy = true → s.context.stream.isSome = true
  not_escalated : s.status ≠ .escalated
  /-- no copy is consumed without a reply -/
  accounted : s.forwarded.Perm (s.replied ++ copies s.contextMailbox)
  /-- once the queue is worked off, with a driver that answers, every copy has its reply -/
  answered : s.status = .running → ∀ env : ContextEnv, env.init.Answers →
    ∃ t, workOff env s.contextMailbox.length s = some t ∧ t.contextMailbox = [] ∧
      s.forwarded.Perm t.replied

end Tree

/-- What a move has to find: `Init` is told with no copy ahead of the first queued `Init`, and a
device in mock mode, which never has a stream, is sent no copy. -/
def LabelOk (s : Tree) : Label → Prop
  | .send msg =>
    s.device.config.mockMode = true → ∀ w ∈ msg.work?, w.isCopy = false
  | .tellInit => copyAhead s.contextMailbox = false
  | _ => True

instance decidableLabelOk (s : Tree) : ∀ l, Decidable (LabelOk s l)
  | .send msg => inferInstanceAs (Decidable
      (s.device.config.mockMode = true → ∀ w ∈ msg.work?, w.isCopy = false))
  | .tellInit => inferInstanceAs (Decidable (copyAhead s.contextMailbox = false))
  | .device | .context _ | .poison _ | .supervise => inferInstanceAs (Decidable True)

/-! ### Mailboxes -/

theorem copyAhead_append_of_mem {msgs : List ContextMsg} (h : ContextMsg.init ∈ msgs)
    (more : List ContextMsg) : copyAhead (msgs ++ more) = copyAhead msgs := by
  induction msgs with
  | nil => simp at h
  | cons msg msgs ih =>
    cases msg <;> simp_all [copyAhead]

theorem copyAhead_append_init (msgs : List ContextMsg) :
    copyAhead (msgs ++ [.init]) = copyAhead msgs := by
  induction msgs with
  | nil => rfl
  | cons msg msgs ih => cases msg <;> simp [copyAhead, ih]

@[simp] theorem copies_append (msgs more : List ContextMsg) :
    copies (msgs ++ more) = copies msgs ++ copies more := List.filter_append ..

/-! ### One message of the `ContextActor` -/

namespace ContextActor

/-- What a panic text of `run_init` leads to: never an escalation, and past a text that is not
answered with a restart the stream is there. -/
def PanicOk (mockMode : Bool) (c : ContextActor) (text : String) : Prop :=
  decideStr text ≠ .escalate ∧
    (decideStr text = .restart ∨ mockMode = true ∨ c.stream.isSome = true)

theorem panicOk_of_restart {mockMode : Bool} {c : ContextActor} {text : String}
    (h : decideStr text = .restart) : PanicOk mockMode c text := by
  refine ⟨fun hesc => ?_, .inl h⟩
  rw [h] at hesc
  cases hesc

/-- What the rest of the tree relies on when a message other than a copy is handled. -/
structure Quiet (mockMode : Bool) (c : ContextActor) (r : Handled) : Prop where
  no_reply : r.effects.filterMap ContextEffect.repliedCopy? = []
  parent_work : ∀ m ∈ r.effects.filterMap ContextEffect.toParent?, m.work? = none
  keeps_stream : c.stream.isSome = true → r.actor.stream.isSome = true
  panic_ok : ∀ text, r.panic = some text → PanicOk mockMode r.actor text

theorem quiet_runInit (c : ContextActor) (config : DeviceConfig) (state : DeviceState)
    (env : InitEnv) : Quiet config.mockMode c (c.runInit config state env) := by
  unfold runInit
  cases hmock : config.mockMode with
  | true =>
    rcases hspawn : env.spawn with ⟨actor, e⟩ | blas
    · refine ⟨rfl, by simp, id, fun text htext => ?_⟩
      obtain rfl := Option.some.inj htext
      exact ⟨decideStr_unrecoverable_append _, .inr (.inl rfl)⟩
    · exact ⟨rfl, by simp [announce, ContextEffect.toParent?, DeviceMsg.work?, DeviceMsg.translate],
        id, by simp [announce]⟩
  | false =>
    simp only [Bool.false_eq_true, if_false]
    rcases hctx : env.context with e | ctx
    · refine ⟨rfl, by simp, id, fun text htext => ?_⟩
      obtain rfl := Option.some.inj htext
      exact panicOk_of_restart (decideStr_poisoned_append _)
    rcases hstream : env.stream with e | stream
    · refine ⟨rfl, by simp, id, fun text htext => ?_⟩
      obtain rfl := Option.some.inj htext
      exact panicOk_of_restart (decideStr_poisoned_append _)
    rcases hspawn : env.spawn with ⟨actor, e⟩ | blas
    · refine ⟨rfl, by simp, fun _ => rfl, fun text htext => ?_⟩
      obtain rfl := Option.some.inj htext
      exact ⟨decideStr_unrecoverable_append _, .inr (.inr rfl)⟩
    · exact ⟨rfl, by simp [announce, ContextEffect.toParent?, DeviceMsg.work?, DeviceMsg.translate],
        fun _ => rfl, by simp [announce]⟩

/-- A `run_init` that comes through leaves a stream, except in mock mode. -/
theorem stream_of_runInit {c : ContextActor} {config : DeviceConfig} {state : DeviceState}
    {env : InitEnv} (hmock : config.mockMode = false)
    (h : (c.runInit config state env).panic = none) :
    (c.runInit config state env).actor.stream.isSome = true := by
  revert h
  unfold runInit
  simp only [hmock, Bool.false_eq_true, if_false]
  rcases env.context with e | ctx
  · simp
  rcases env.stream with e | stream
  · simp
  rcases env.spawn with ⟨actor, e⟩ | blas <;> simp [announce]

theorem runInit_panic_of_answers {c : ContextActor} {config : DeviceConfig} {state : DeviceState}
    {env : InitEnv} (h : env.Answers) : (c.runInit config state env).panic = none := by
  obtain ⟨⟨ctx, hctx⟩, ⟨stream, hstream⟩, ⟨blas, hspawn⟩⟩ := h
  unfold runInit
  split_ifs <;> simp [hctx, hstream, hspawn, announce]

theorem quiet_handle {msg : ContextMsg} (hmsg : msg.isCopy = false) (c : ContextActor)
    (config : DeviceConfig) (state : DeviceState) (env : ContextEnv) :
    Quiet config.mockMode c (c.handle config state env msg) := by
  cases msg with
  | init => exact quiet_runInit c config state env.init
  | snapshotStream reply | alloc req =>
    exact ⟨rfl, by simp [handle, ContextEffect.toParent?], id, by simp [handle]⟩
  | copyToHost req | copyFromHost req => simp [ContextMsg.isCopy] at hmsg

/-- With a stream, a copy is answered and nothing else happens. -/
theorem handle_copy {msg : ContextMsg} (hmsg : msg.isCopy = true) {c : ContextActor}
    (hstream : c.stream.isSome = true) (config : DeviceConfig) (state : DeviceState)
    (env : ContextEnv) :
    let r := c.handle config state env msg
    r.actor = c ∧ r.state = state ∧ r.panic = none ∧
      r.effects.filterMap ContextEffect.toParent? = [] ∧
      r.effects.filterMap ContextEffect.repliedCopy? = [msg] := by
  obtain ⟨stream, hs⟩ := Option.isSome_iff_exists.1 hstream
  cases msg with
  | init | snapshotStream reply | alloc req => simp [ContextMsg.isCopy] at hmsg
  | copyToHost req | copyFromHost req =>
    simp [handle, runCopy, hs, ContextEffect.toParent?, ContextEffect.repliedCopy?]

end ContextActor

namespace Tree

/-! ### The invariant -/

/-- No copy anywhere in the tree. -/
structure NoCopies (s : Tree) : Prop where
  deviceMailbox : ∀ m ∈ s.deviceMailbox, ∀ w, m.work? = some w → w.isCopy = false
  stash : ∀ w ∈ s.device.stashed, w.isCopy = false
  contextMailbox : ∀ m ∈ s.contextMailbox, m.isCopy = false

/-- A running `ContextActor` has a stream, or will get one before the first queued copy. -/
def Shielded (s : Tree) : Prop :=
  s.context.stream.isSome = true ∨
    (.init ∈ s.contextMailbox ∧ copyAhead s.contextMailbox = false)

/-- Each copy that was forwarded is answered or still in the mailbox, and both actors agree on it.
-/
structure Inv (ctx : ActorRef) (s : Tree) : Prop where
  device : s.device.Inv ctx
  accounted : s.forwarded.Perm (s.replied ++ copies s.contextMailbox)
  mock : s.device.config.mockMode = true → s.NoCopies
  shielded : s.device.config.mockMode = false → s.status = .running → s.Shielded
  failed : ∀ text, s.status = .failed text →
    ContextActor.PanicOk s.device.config.mockMode s.context text
  not_escalated : s.status ≠ .escalated

variable {ctx : ActorRef} {s : Tree}

theorem inv_initial (config : DeviceConfig) (ctx : ActorRef) : Inv ctx (initial config ctx) where
  device := DeviceActor.inv_started config ctx
  accounted := List.Perm.refl _
  mock := fun _ => ⟨by simp [initial], by simp [initial, DeviceActor.started, DeviceActor.new,
    DeviceActor.stashed], by simp [initial]⟩
  shielded := by simp [initial]
  failed := by simp [initial]
  not_escalated := by simp [initial]

theorem Shielded.append (h : s.Shielded) (more : List ContextMsg) {s' : Tree}
    (hctx : s'.context = s.context) (hbox : s'.contextMailbox = s.contextMailbox ++ more) :
    s'.Shielded := by
  rcases h with h | ⟨hmem, hahead⟩
  · exact .inl (by rw [hctx]; exact h)
  · refine .inr ⟨?_, ?_⟩
    · rw [hbox]
      exact List.mem_append_left _ hmem
    · rw [hbox, copyAhead_append_of_mem hmem]
      exact hahead

/-- A forwarded message was work in the hands of the device. -/
theorem isCopy_of_told {d : DeviceActor} (h : d.Inv ctx) {msg : DeviceMsg} {m : ContextMsg}
    (hm : m ∈ (d.handle msg).2.filterMap Effect.toContext?) (hcopy : m.isCopy = true) :
    ∃ w ∈ d.stashed ++ msg.work?.toList, w.isCopy = true := by
  obtain ⟨e, he, hem⟩ := List.mem_filterMap.1 hm
  have hfwd : ∀ w, m.work? = some w → w ∈ worksWith .forwarded (d.handle msg).2 := by
    intro w hw
    refine List.mem_filterMap.2 ⟨e, he, ?_⟩
    cases e with
    | tellContext ref m' =>
      obtain rfl : m' = m := Option.some.inj hem
      simp [Effect.fate?, hw]
    | _ => cases hem
  have hmoves := (DeviceActor.step_handle h msg).moves
  cases m with
  | init | snapshotStream reply | alloc req => cases hcopy
  | copyToHost req | copyFromHost req =>
    exact ⟨_, hmoves.order.subset (List.mem_append_left _ (hfwd _ rfl)), rfl⟩

/-- What stays stashed was work in the hands of the device. -/
theorem stashed_handle {d : DeviceActor} (h : d.Inv ctx) {msg : DeviceMsg} {w : Work}
    (hw : w ∈ (d.handle msg).1.stashed) : w ∈ d.stashed ++ msg.work?.toList :=
  (DeviceActor.step_handle h msg).moves.order.subset (List.mem_append_right _ hw)

theorem inv_deviceStep (h : s.Inv ctx) {msg : DeviceMsg} {rest : List DeviceMsg}
    (hbox : s.deviceMailbox = msg :: rest) : (s.deviceStep msg rest).Inv ctx := by
  have hstep := DeviceActor.step_handle h.device msg
  have hconfig : (s.deviceStep msg rest).device.config = s.device.config := hstep.config_eq
  refine ⟨hstep.inv, ?_, fun hmock => ?_, fun hmock hrun => ?_, fun text htext => ?_,
    h.not_escalated⟩
  · simp only [deviceStep, copies_append, ← List.append_assoc]
    exact h.accounted.append_right _
  · rw [hconfig] at hmock
    obtain ⟨hdev, hstash, hctx⟩ := h.mock hmock
    -- neither the stash nor the message holds a copy, so none comes out
    have hnone : ∀ w ∈ s.device.stashed ++ msg.work?.toList, w.isCopy = false := by
      intro w hw
      rcases List.mem_append.1 hw with hw | hw
      · exact hstash w hw
      · exact hdev msg (by simp [hbox]) w (by simpa using hw)
    refine ⟨fun m hm => hdev m (hbox ▸ List.mem_cons_of_mem _ hm),
      fun w hw => hnone w (stashed_handle h.device hw), fun m hm => ?_⟩
    rcases List.mem_append.1 hm with hm | hm
    · exact hctx m hm
    · by_contra hcopy
      obtain ⟨w, hw, hwcopy⟩ := isCopy_of_told h.device hm (by simpa using hcopy)
      simp [hnone w hw] at hwcopy
  · rw [hconfig] at hmock
    exact (h.shielded hmock hrun).append _ rfl rfl
  · rw [hconfig]
    exact h.failed text htext

/-- A copy at the head of the mailbox finds a stream. -/
theorem Inv.guarded (h : s.Inv ctx) (hrun : s.status = .running) {msg : ContextMsg}
    {rest : List ContextMsg} (hbox : s.contextMailbox = msg :: rest) (hcopy : msg.isCopy = true) :
    s.device.config.mockMode = false ∧ s.context.stream.isSome = true := by
  have hmock : s.device.config.mockMode = false := by
    by_contra hmock
    have hnone := (h.mock (by simpa using hmock)).contextMailbox msg (by simp [hbox])
    rw [hcopy] at hnone
    cases hnone
  refine ⟨hmock, ?_⟩
  rcases h.shielded hmock hrun with hs | ⟨-, hahead⟩
  · exact hs
  · -- a copy at the head is ahead of every `Init`
    rw [hbox] at hahead
    cases msg <;> simp_all [copyAhead, ContextMsg.isCopy]

theorem device_contextStep (h : s.Inv ctx) (env : ContextEnv) (msg : ContextMsg)
    (rest : List ContextMsg) : (s.contextStep env msg rest).device.Inv ctx :=
  ⟨h.device.contextRef_eq, h.device.length_le, h.device.empty_of_ready⟩

/-- A copy is answered, and changes nothing else. -/
theorem inv_contextStep_copy (h : s.Inv ctx) (hrun : s.status = .running) (env : ContextEnv)
    {msg : ContextMsg} {rest : List ContextMsg} (hbox : s.contextMailbox = msg :: rest)
    (hcopy : msg.isCopy = true) : (s.contextStep env msg rest).Inv ctx := by
  have hacc := h.accounted
  rw [hbox] at hacc
  obtain ⟨hmock, hstream⟩ := h.guarded hrun hbox hcopy
  obtain ⟨hactor, -, hpanic, hparent, hreply⟩ :=
    ContextActor.handle_copy hcopy hstream s.device.config s.device.state env
  have hstatus : (s.contextStep env msg rest).status = .running := by
    simp [contextStep, hpanic]
  refine ⟨device_contextStep h env msg rest, ?_, fun hm => ?_, fun _ _ => .inl ?_,
    fun text htext => ?_, ?_⟩
  · refine hacc.trans ?_
    have hcopies : copies (msg :: rest) = msg :: copies rest := by simp [copies, hcopy]
    simp only [contextStep, hreply, hcopies]
    simp
  · rw [show (s.contextStep env msg rest).device.config = s.device.config from rfl, hmock] at hm
    cases hm
  · simp only [contextStep, hactor]
    exact hstream
  · rw [hstatus] at htext
    cases htext
  · rw [hstatus]
    simp

/-- Past a message that is no copy, the copies behind it are shielded as before. -/
theorem shielded_contextStep (h : s.Shielded) {env : ContextEnv} {msg : ContextMsg}
    {rest : List ContextMsg} (hbox : s.contextMailbox = msg :: rest)
    (hcopy : msg.isCopy = false) (hmock : s.device.config.mockMode = false)
    (hrun : (s.contextStep env msg rest).status = .running) :
    (s.contextStep env msg rest).Shielded := by
  obtain ⟨-, -, hkeeps, -⟩ :=
    ContextActor.quiet_handle hcopy s.context s.device.config s.device.state env
  rcases h with hs | ⟨hmem, hahead⟩
  · exact .inl (hkeeps hs)
  · rw [hbox] at hmem hahead
    cases msg with
    | init =>
      left
      refine ContextActor.stream_of_runInit hmock ?_
      simp only [contextStep, ContextActor.handle] at hrun
      split at hrun
      · assumption
      · cases hrun
    | snapshotStream reply | alloc req =>
      refine .inr ⟨?_, ?_⟩
      · show ContextMsg.init ∈ rest
        simpa using hmem
      · show copyAhead rest = false
        simpa [copyAhead, ContextMsg.isCopy] using hahead
    | copyToHost req | copyFromHost req => cases hcopy

theorem inv_contextStep (h : s.Inv ctx) (hrun : s.status = .running) (env : ContextEnv)
    {msg : ContextMsg} {rest : List ContextMsg} (hbox : s.contextMailbox = msg :: rest) :
    (s.contextStep env msg rest).Inv ctx := by
  cases hcopy : msg.isCopy with
  | true => exact inv_contextStep_copy h hrun env hbox hcopy
  | false =>
    have hacc := h.accounted
    rw [hbox] at hacc
    obtain ⟨hreply, hparent, -, hpanic⟩ :=
      ContextActor.quiet_handle hcopy s.context s.device.config s.device.state env
    refine ⟨device_contextStep h env msg rest, ?_, fun hmock => ?_,
      fun hmock hrun' => shielded_contextStep (h.shielded hmock hrun) hbox hcopy hmock hrun',
      fun text htext => ?_, ?_⟩
    · have hcopies : copies (msg :: rest) = copies rest := by simp [copies, hcopy]
      simp only [contextStep, hreply, List.append_nil]
      rwa [hcopies] at hacc
    · obtain ⟨hdev, hstash, hctx⟩ := h.mock hmock
      refine ⟨fun m hm w hw => ?_, hstash, fun m hm => hctx m (by rw [hbox]; exact .tail _ hm)⟩
      rcases List.mem_append.1 hm with hm | hm
      · exact hdev m hm w hw
      · rw [hparent m hm] at hw
        cases hw
    · simp only [contextStep] at htext
      split at htext
      · cases htext
      · rename_i text' htext'
        obtain rfl := Status.failed.inj htext
        exact hpanic text' htext'
    · simp only [contextStep]
      split <;> simp

theorem inv_superviseStep (h : s.Inv ctx) {text : String} (hfail : s.status = .failed text) :
    (s.superviseStep text).Inv ctx := by
  obtain ⟨hesc, hnext⟩ := h.failed text hfail
  have hlost : ∀ m ∈ s.deviceMailbox ++ [.contextLost], m ∈ s.deviceMailbox ∨ m.work? = none := by
    intro m hm
    rcases List.mem_append.1 hm with hm | hm
    · exact .inl hm
    · right
      rw [List.mem_singleton.1 hm]
      rfl
  have hmock' : ∀ {s' : Tree}, s'.deviceMailbox = s.deviceMailbox ++ [.contextLost] →
      s'.device.pending = s.device.pending → s'.contextMailbox = s.contextMailbox →
      s.device.config.mockMode = true → s'.NoCopies := by
    intro s' hdevbox hpend hctxbox hmock
    obtain ⟨hdev, hstash, hctx⟩ := h.mock hmock
    refine ⟨fun m hm w hw => ?_, ?_, by rwa [hctxbox]⟩
    · rw [hdevbox] at hm
      rcases hlost m hm with hm | hm
      · exact hdev m hm w hw
      · rw [hm] at hw
        cases hw
    · simpa [DeviceActor.stashed, hpend] using hstash
  unfold superviseStep
  cases hdec : decideStr text with
  | restart =>
    exact ⟨h.device, h.accounted, hmock' rfl rfl rfl, by simp, by simp, by simp⟩
  | resume =>
    refine ⟨h.device, h.accounted, fun hm => ⟨(h.mock hm).1, (h.mock hm).2, (h.mock hm).3⟩,
      fun hmock _ => ?_, by simp, by simp⟩
    rcases hnext with hnext | hnext | hnext
    · rw [hdec] at hnext
      cases hnext
    · rw [show s.device.config.mockMode = false from hmock] at hnext
      cases hnext
    · exact .inl hnext
  | stop =>
    exact ⟨⟨h.device.contextRef_eq, h.device.length_le, h.device.empty_of_ready⟩, h.accounted,
      hmock' rfl rfl rfl, by simp, by simp, by simp⟩
  | escalate => exact absurd hdec hesc

/-- **A move that finds `LabelOk` keeps the invariant.** -/
theorem inv_step (h : s.Inv ctx) {l : Label} (hok : LabelOk s l) {s' : Tree}
    (hs : s.step l = some s') : s'.Inv ctx := by
  cases l with
  | send msg =>
    simp only [step] at hs
    split_ifs at hs
    cases hs
    refine ⟨h.device, h.accounted, fun hmock => ?_, h.shielded, h.failed, h.not_escalated⟩
    obtain ⟨hdev, hstash, hctx⟩ := h.mock hmock
    refine ⟨fun m hm => ?_, hstash, hctx⟩
    rcases List.mem_append.1 hm with hm | hm
    · exact hdev m hm
    · rw [List.mem_singleton.1 hm]
      exact hok hmock
  | device =>
    simp only [step] at hs
    split at hs
    · cases hs
    · cases hs
      exact inv_deviceStep h ‹_›
  | context env =>
    simp only [step] at hs
    split at hs
    · cases hs
      exact inv_contextStep h ‹_› env ‹_›
    · cases hs
  | poison text =>
    simp only [step] at hs
    split_ifs at hs with hcond
    cases hs
    refine ⟨h.device, h.accounted, fun hm => ⟨(h.mock hm).1, (h.mock hm).2, (h.mock hm).3⟩,
      by simp, fun text' htext' => ?_, by simp⟩
    obtain rfl := Status.failed.inj htext'
    exact ContextActor.panicOk_of_restart (decideStr_of_poisoned hcond.2)
  | supervise =>
    simp only [step] at hs
    split at hs
    · cases hs
      exact inv_superviseStep h ‹_›
    · cases hs
  | tellInit =>
    simp only [step] at hs
    split_ifs at hs
    cases hs
    refine ⟨h.device, ?_, fun hm => ?_, fun _ _ => .inr ⟨by simp, ?_⟩, by simp, by simp⟩
    · simpa [copies, ContextMsg.isCopy] using h.accounted
    · obtain ⟨hdev, hstash, hctx⟩ := h.mock hm
      refine ⟨hdev, hstash, fun m hm => ?_⟩
      rcases List.mem_append.1 hm with hm | hm
      · exact hctx m hm
      · rw [List.mem_singleton.1 hm]
        rfl
    · exact (copyAhead_append_init _).trans hok

/-! ### Whole runs -/

theorem status_contextStep (h : s.Inv ctx) (hrun : s.status = .running) {env : ContextEnv}
    (henv : env.init.Answers) {msg : ContextMsg} {rest : List ContextMsg}
    (hbox : s.contextMailbox = msg :: rest) : (s.contextStep env msg rest).status = .running := by
  have hpanic : (s.context.handle s.device.config s.device.state env msg).panic = none := by
    cases msg with
    | init => exact ContextActor.runInit_panic_of_answers henv
    | snapshotStream reply | alloc req => rfl
    | copyToHost req | copyFromHost req =>
      have hstream := (h.guarded hrun hbox rfl).2
      exact (ContextActor.handle_copy rfl hstream _ _ env).2.2.1
  simp [contextStep, hpanic]

/-- Working off the mailbox answers every copy that was forwarded. -/
theorem workOff_answers {env : ContextEnv} (henv : env.init.Answers) :
    ∀ (msgs : List ContextMsg) {s : Tree}, s.Inv ctx → s.status = .running →
      s.contextMailbox = msgs → ∃ t, workOff env msgs.length s = some t ∧
        t.contextMailbox = [] ∧ s.forwarded.Perm t.replied := by
  intro msgs
  induction msgs with
  | nil =>
    intro s h _ hbox
    refine ⟨s, rfl, hbox, ?_⟩
    simpa [hbox, copies] using h.accounted
  | cons msg rest ih =>
    intro s h hrun hbox
    have hstep : s.step (.context env) = some (s.contextStep env msg rest) := by
      simp [step, hrun, hbox]
    obtain ⟨t, ht, hempty, hperm⟩ := ih (inv_contextStep h hrun env hbox)
      (status_contextStep h hrun henv hbox) rfl
    refine ⟨t, ?_, hempty, hperm⟩
    rw [List.length_cons, workOff, hstep]
    exact ht

theorem Inv.settled (h : s.Inv ctx) : s.Settled where
  guarded := fun hrun _ _ hbox hcopy => (h.guarded hrun hbox hcopy).2
  not_escalated := h.not_escalated
  accounted := h.accounted
  answered := fun hrun _ henv => workOff_answers henv _ h hrun rfl

/-- The condition on `Init` tells is exact: a running actor without a stream that has a copy ahead
of its first `Init` works towards a panic, and the supervisor escalates it. -/
theorem escalates_of_copyAhead (env : ContextEnv) :
    ∀ (msgs : List ContextMsg) {s : Tree}, s.status = .running → s.context.stream = none →
      s.contextMailbox = msgs → copyAhead msgs = true →
      ∃ n t u, workOff env n s = some t ∧ t.step .supervise = some u ∧ u.status = .escalated := by
  intro msgs
  induction msgs with
  | nil =>
    intro s _ _ _ hahead
    cases hahead
  | cons msg rest ih =>
    intro s hrun hstream hbox hahead
    have hstep : s.step (.context env) = some (s.contextStep env msg rest) := by
      simp [step, hrun, hbox]
    have hpass : (s.contextStep env msg rest).status = .running →
        (s.contextStep env msg rest).context.stream = none → copyAhead rest = true →
        ∃ n t u, workOff env n s = some t ∧ t.step .supervise = some u ∧ u.status = .escalated := by
      intro hrun' hstream' hahead'
      obtain ⟨n, t, u, ht, hu⟩ := ih hrun' hstream' rfl hahead'
      refine ⟨n + 1, t, u, ?_, hu⟩
      rw [workOff, hstep]
      exact ht
    have hpanic : (s.contextStep env msg rest).status = .failed ctxNotReady →
        ∃ n t u, workOff env n s = some t ∧ t.step .supervise = some u ∧ u.status = .escalated := by
      intro hfailed
      refine ⟨1, s.contextStep env msg rest, (s.contextStep env msg rest).superviseStep ctxNotReady,
        ?_, ?_, ?_⟩
      · rw [workOff, hstep]
        rfl
      · simp only [step, hfailed]
      · rw [superviseStep, show decideStr ctxNotReady = .escalate from decideStr_ctx_not_ready]
    cases msg with
    | init => cases hahead
    | snapshotStream reply | alloc req => exact hpass rfl hstream hahead
    | copyToHost req | copyFromHost req =>
      apply hpanic
      simp [contextStep, ContextActor.handle, ContextActor.runCopy, hstream]

end Tree

/-- **In a run whose `Init` tells find no copy ahead of the first queued `Init`, and in which a
mock device is sent no copy, no copy ever meets a missing stream and every forwarded copy is
answered.** -/
theorem along_settled (config : DeviceConfig) (ctx : ActorRef) (ls : List Label)
    (h : (treeSystem config ctx).Meets LabelOk (Tree.initial config ctx) ls) :
    (treeSystem config ctx).Along Tree.Settled (Tree.initial config ctx) ls :=
  Transition.System.along_of_meets (I := Tree.Inv ctx) (fun _ hs => hs.settled)
    (fun _ _ _ hs hok hstep => Tree.inv_step hs hok hstep) (Tree.inv_initial config ctx) h

/-- A driver that answers. -/
def answering : ContextEnv := ⟨⟨.ok 0, .ok 0, .ok 7⟩, .ok 0, .ok ⟨false, 4⟩⟩

/-- A poisoning and a restart with nothing queued, and a copy afterwards. -/
theorem settled_through_restart :
    let ls : List Label := [.tellInit, .context answering, .device, .poison "ContextPoisoned: 700",
      .supervise, .tellInit, .device, .context answering, .device,
      .send (.copyFromHost ⟨.f32, ⟨false, 4⟩, 0, 1⟩), .device]
    ((treeSystem ⟨0, false, 8⟩ 1).run (Tree.initial ⟨0, false, 8⟩ 1) ls).isSome = true ∧
      (treeSystem ⟨0, false, 8⟩ 1).Along Tree.Settled (Tree.initial ⟨0, false, 8⟩ 1) ls := by
  intro ls
  exact ⟨by decide, along_settled _ _ _ (by decide)⟩

/-- The restarted actor has a queued copy ahead of its `Init`, and no stream. -/
theorem queued_copy_without_stream :
    ¬ (treeSystem ⟨0, false, 8⟩ 1).Along Tree.Settled (Tree.initial ⟨0, false, 8⟩ 1)
      [.tellInit, .context answering, .device, .send (.copyFromHost ⟨.f32, ⟨false, 4⟩, 0, 1⟩),
        .device, .poison "ContextPoisoned: 700", .supervise, .tellInit] := by
  intro h
  have hend := h.last (t := ⟨⟨⟨0, false, 8⟩, ⟨0, 1, true, some 0, ⟨0, 0⟩⟩, some 1, some ⟨7⟩, []⟩,
    [.contextLost], ⟨none, none⟩, [.copyFromHost ⟨.f32, ⟨false, 4⟩, 0, 1⟩, .init], .running,
    [.copyFromHost ⟨.f32, ⟨false, 4⟩, 0, 1⟩], []⟩) (by decide)
  have hstream := hend.guarded rfl _ _ rfl rfl
  cases hstream

end AtomrAccel
