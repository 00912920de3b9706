import AtomrAccel.Device.GpuRef

/-!
# `DeviceActor`: stash and drain

A `DeviceActor` forwards work to its `ContextActor` and `BlasActor` children while it is ready
and stashes it in a bounded queue while it is not.  `ContextReady` drains the queue, `ContextLost`
makes the actor unready again, and `post_stop` answers or drops what is still queued.

A handler is a function to the next actor and the list of effects it performed, in order.

* `DeviceMsg`, `ContextMsg`, `WorkRequest`, `DeviceActor`, `handle`, `postStop`: the actor;
* `Work`, `Fate`: the work carried by a message, and what one effect does with a piece of work;
* `Step`: what handling one message does to the work in the actor's hands;
* `turnedAway`: the work that arrives when the actor is not ready and its stash is full;
* `stash_and_drain`: over a whole run no work is lost, duplicated or reordered, the stash respects
  its bound, and the work that is answered with an error or dropped is what was turned away and what
  a stop found in the stash.
-/

namespace AtomrAccel

/-- The mailbox of an actor. -/
abbrev ActorRef := ℕ

/-- The sending half of a `oneshot` channel. -/
abbrev ReplyId := ℕ

/-- A `GpuRef` handle; equal handles share their `GpuRefInner`. -/
abbrev GpuRef := ℕ

/-- The element types of buffers. -/
inductive DType
  | f16 | bf16 | f32 | f64 | i8 | i32 | i64 | u8 | u32 | u64
  deriving DecidableEq, Repr

/-- A host buffer, as far as the device side looks at it. -/
structure HostBuf where
  pinned : Bool
  len : ℕ
  deriving DecidableEq, Repr

/-! ### Messages -/

/-- A request for a buffer. -/
structure AllocReq where
  dtype : DType
  len : ℕ
  reply : ReplyId
  deriving DecidableEq, Repr

/-- A request for a copy to the host. -/
structure CopyToHostReq where
  dtype : DType
  src : GpuRef
  dst : HostBuf
  reply : ReplyId
  deriving DecidableEq, Repr

/-- A request for a copy from the host. -/
structure CopyFromHostReq where
  dtype : DType
  src : HostBuf
  dst : GpuRef
  reply : ReplyId
  deriving DecidableEq, Repr

/-- A request for a product of matrices. -/
structure SgemmRequest where
  a : GpuRef
  b : GpuRef
  c : GpuRef
  m : ℤ
  n : ℤ
  k : ℤ
  reply : ReplyId
  deriving DecidableEq, Repr

/-- The messages a `DeviceActor` and a `ContextActor` send to the `ContextActor`. -/
inductive ContextMsg
  | init
  | snapshotStream (reply : ReplyId)
  | alloc (req : AllocReq)
  | copyToHost (req : CopyToHostReq)
  | copyFromHost (req : CopyFromHostReq)
  deriving DecidableEq, Repr

/-- The kernel actors spawned by one `run_init`; only the `BlasActor` is told anything here. -/
structure KernelChildren where
  blas : ActorRef
  deriving DecidableEq, Repr

/-- The deprecated per-dtype allocation variants. -/
inductive AllocVariant
  | allocate | allocateF32 | allocateF64 | allocateI8 | allocateI32 | allocateI64
  | allocateU8 | allocateU32 | allocateU64 | allocateF16 | allocateBf16
  deriving DecidableEq, Repr

/-- The element type in the name of a message. -/
def AllocVariant.dtype : AllocVariant → DType
  | allocate | allocateF32 => .f32
  | allocateF64 => .f64
  | allocateI8 => .i8
  | allocateI32 => .i32
  | allocateI64 => .i64
  | allocateU8 => .u8
  | allocateU32 => .u32
  | allocateU64 => .u64
  | allocateF16 => .f16
  | allocateBf16 => .bf16

/-- The dtypes that have deprecated copy variants. -/
inductive CopyVariant
  | f32 | f64 | i32 | u32 | u8
  deriving DecidableEq, Repr

/-- The element type in the name of a message. -/
def CopyVariant.dtype : CopyVariant → DType
  | f32 => .f32
  | f64 => .f64
  | i32 => .i32
  | u32 => .u32
  | u8 => .u8

/-- The messages of the actor, deprecated ones included. -/
inductive DeviceMsg
  | alloc (req : AllocReq)
  | copyToHost (req : CopyToHostReq)
  | copyFromHost (req : CopyFromHostReq)
  | legacyAlloc (variant : AllocVariant) (len : ℕ) (reply : ReplyId)
  | legacyCopyToHost (variant : CopyVariant) (src : GpuRef) (dst : HostBuf) (reply : ReplyId)
  | legacyCopyFromHost (variant : CopyVariant) (src : HostBuf) (dst : GpuRef) (reply : ReplyId)
  | sgemm (req : SgemmRequest)
  | snapshotContext (reply : ReplyId)
  | snapshotStream (reply : ReplyId)
  | snapshotChildren (reply : ReplyId)
  | watchGeneration (reply : ReplyId)
  | stats (reply : ReplyId)
  | contextReady (children : KernelChildren)
  | contextLost
  deriving DecidableEq, Repr

/-- The first `match` of `handle`: the deprecated variants become the generic ones. -/
def DeviceMsg.translate : DeviceMsg → DeviceMsg
  | legacyAlloc variant len reply => alloc ⟨variant.dtype, len, reply⟩
  | legacyCopyToHost variant src dst reply => copyToHost ⟨variant.dtype, src, dst, reply⟩
  | legacyCopyFromHost variant src dst reply => copyFromHost ⟨variant.dtype, src, dst, reply⟩
  | other => other

/-- A stashed item.  The boxed closures of the source each tell the `ContextActor` one message,
so `boxed` holds that message. -/
inductive WorkRequest
  | boxed (msg : ContextMsg)
  | sgemm (req : SgemmRequest)
  | snapshotContext (reply : ReplyId)
  deriving DecidableEq, Repr

/-! ### The actor -/

/-- The configuration. -/
structure DeviceConfig where
  deviceId : ℕ
  mockMode : Bool
  pendingQueueCapacity : ℕ
  deriving DecidableEq, Repr

/-- What `Stats` answers. -/
structure DeviceLoad where
  freeBytes : UInt64
  totalBytes : UInt64
  activeStreams : UInt32
  queueDepth : UInt32
  computeCap : Int32 × Int32
  deriving DecidableEq, Repr

/-- The actor: ready when it has `children`, with the work it has put off in `pending`. -/
structure DeviceActor where
  config : DeviceConfig
  state : DeviceState
  contextRef : Option ActorRef
  children : Option KernelChildren
  pending : List WorkRequest
  deriving DecidableEq, Repr

/-- What a handler does to the world. -/
inductive Effect
  | tellContext (ref : ActorRef) (msg : ContextMsg)
  | tellBlas (ref : ActorRef) (req : SgemmRequest)
  | replySgemm (req : SgemmRequest) (err : GpuError)
  /-- a boxed closure goes away unrun, and the reply channel it owns closes -/
  | dropBoxed (msg : ContextMsg)
  | replyContext (reply : ReplyId) (ctx : Option CtxId)
  | replyNoStream (reply : ReplyId)
  | replyChildren (reply : ReplyId) (children : Option KernelChildren)
  | replyWatch (reply : ReplyId) (value : UInt64)
  | replyLoad (reply : ReplyId) (load : DeviceLoad)
  deriving DecidableEq, Repr

namespace DeviceActor

/-- An actor that is not ready. -/
def new (config : DeviceConfig) : DeviceActor :=
  ⟨config, DeviceState.new config.deviceId, none, none, []⟩

/-- `pre_start` spawns the `ContextActor`. -/
def preStart (a : DeviceActor) (spawned : Except String ActorRef) : Except GpuError DeviceActor :=
  match spawned with
  | .ok ref => .ok { a with contextRef := some ref }
  | .error e => .error (.unrecoverable ("failed to spawn ContextActor: " ++ e))

/-- What a stashed item gets when it cannot be kept; `err` is the error a GEMM is answered with. -/
def refuse (err : GpuError) : WorkRequest → Effect
  | .sgemm req => .replySgemm req err
  | .snapshotContext reply => .replyContext reply none
  | .boxed msg => .dropBoxed msg

/-- Put off, or answered when the stash is full. -/
def enqueuePending (a : DeviceActor) (work : WorkRequest) : DeviceActor × List Effect :=
  if a.pending.length ≥ a.config.pendingQueueCapacity then
    (a, [refuse (.unrecoverable "device pending queue full") work])
  else
    ({ a with pending := a.pending ++ [work] }, [])

/-- One turn of the drain loop. -/
def forward (ctx : ActorRef) (children : KernelChildren) (state : DeviceState) :
    WorkRequest → Effect
  | .boxed msg => .tellContext ctx msg
  | .sgemm req => .tellBlas children.blas req
  | .snapshotContext reply => .replyContext reply state.currentCtx

/-- Forward all that was put off, the oldest first. -/
def drainPending (a : DeviceActor) : DeviceActor × List Effect :=
  match a.children, a.contextRef with
  | some children, some ctx =>
    ({ a with pending := [] }, a.pending.map (forward ctx children a.state))
  | _, _ => (a, [])

/-- What is known of the load. -/
def snapshotLoad (a : DeviceActor) : DeviceLoad :=
  ⟨0, 0, 0, UInt32.ofNat a.pending.length, (0, 0)⟩

/-- The common body of the three generic arms: tell the `ContextActor` when ready, else stash. -/
def dispatchContext (a : DeviceActor) (msg : ContextMsg) : DeviceActor × List Effect :=
  match a.contextRef, a.children with
  | some ctx, some _ => (a, [.tellContext ctx msg])
  | _, _ => a.enqueuePending (.boxed msg)

/-- Work is forwarded when the actor is ready, and put off when it is not. -/
def handle (a : DeviceActor) (msg : DeviceMsg) : DeviceActor × List Effect :=
  match msg.translate with
  | .alloc req => a.dispatchContext (.alloc req)
  | .copyToHost req => a.dispatchContext (.copyToHost req)
  | .copyFromHost req => a.dispatchContext (.copyFromHost req)
  | .sgemm req =>
    match a.children with
    | some c => (a, [.tellBlas c.blas req])
    | none => a.enqueuePending (.sgemm req)
  | .snapshotContext reply => (a, [.replyContext reply a.state.currentCtx])
  | .snapshotStream reply =>
    match a.contextRef with
    | some ctx => (a, [.tellContext ctx (.snapshotStream reply)])
    | none => (a, [.replyNoStream reply])
  | .snapshotChildren reply => (a, [.replyChildren reply a.children])
  | .watchGeneration reply =>
    ({ a with state := a.state.subscribe }, [.replyWatch reply a.state.generationTx.value])
  | .stats reply => (a, [.replyLoad reply a.snapshotLoad])
  | .contextReady children => drainPending { a with children := some children }
  | .contextLost => ({ a with children := none }, [])
  -- `unreachable!`: `translate` has rewritten these
  | .legacyAlloc .. | .legacyCopyToHost .. | .legacyCopyFromHost .. => (a, [])

/-- What was put off is answered as stale. -/
def postStop (a : DeviceActor) : DeviceActor × List Effect :=
  ({ a with state := a.state.beginShutdown, pending := [] },
    a.pending.map (refuse (.gpuRefStale "device shutting down")))

/-- The messages of a run, one after the other. -/
def handleAll (a : DeviceActor) : List DeviceMsg → DeviceActor × List Effect
  | [] => (a, [])
  | msg :: msgs =>
    let (a', effs) := a.handle msg
    let (a'', effs') := a'.handleAll msgs
    (a'', effs ++ effs')

/-- A run after `pre_start`, closed by `post_stop` when `stop` is set. -/
def runFrom (a : DeviceActor) (msgs : List DeviceMsg) (stop : Bool) : DeviceActor × List Effect :=
  let (a', effs) := a.handleAll msgs
  if stop then
    let (a'', effs') := a'.postStop
    (a'', effs ++ effs')
  else (a', effs)

end DeviceActor

/-! ### Work and its fate -/

/-- A piece of work a client hands to the device. -/
inductive Work
  | alloc (req : AllocReq)
  | copyToHost (req : CopyToHostReq)
  | copyFromHost (req : CopyFromHostReq)
  | sgemm (req : SgemmRequest)
  deriving DecidableEq, Repr

/-- The child a work request goes to. -/
inductive Target
  | context
  | blas
  deriving DecidableEq, Repr

/-- Copies and buffers go to the context, products to `BlasActor`. -/
def Work.target : Work → Target
  | alloc _ | copyToHost _ | copyFromHost _ => .context
  | sgemm _ => .blas

/-- The work a message carries. -/
def ContextMsg.work? : ContextMsg → Option Work
  | init | snapshotStream _ => none
  | alloc req => some (.alloc req)
  | copyToHost req => some (.copyToHost req)
  | copyFromHost req => some (.copyFromHost req)

/-- The work a mailbox message brings in. -/
def DeviceMsg.work? (msg : DeviceMsg) : Option Work :=
  match msg.translate with
  | alloc req => some (.alloc req)
  | copyToHost req => some (.copyToHost req)
  | copyFromHost req => some (.copyFromHost req)
  | sgemm req => some (.sgemm req)
  | _ => none

/-- The work a request carries. -/
def WorkRequest.work? : WorkRequest → Option Work
  | boxed msg => msg.work?
  | sgemm req => some (.sgemm req)
  | snapshotContext _ => none

/-- What can become of a piece of work. -/
inductive Fate
  | forwarded
  | answered
  | dropped
  deriving DecidableEq, Repr

/-- The work one effect disposes of, if any, and how. -/
def Effect.fate? : Effect → Option (Fate × Work)
  | tellContext _ msg => msg.work?.map (Fate.forwarded, ·)
  | tellBlas _ req => some (.forwarded, .sgemm req)
  | replySgemm req _ => some (.answered, .sgemm req)
  | dropBoxed msg => msg.work?.map (Fate.dropped, ·)
  | replyContext .. | replyNoStream _ | replyChildren .. | replyWatch .. | replyLoad .. => none

/-- The work that met the fate `f` in a trace of effects, in order. -/
def worksWith (f : Fate) (effs : List Effect) : List Work :=
  effs.filterMap fun e => e.fate?.bind fun p => if p.1 = f then some p.2 else none

/-- The work of a sequence of messages, in arrival order. -/
def arrivals (msgs : List DeviceMsg) : List Work := msgs.filterMap DeviceMsg.work?

namespace DeviceActor

/-- The work in the stash, oldest first. -/
def stashed (a : DeviceActor) : List Work := a.pending.filterMap WorkRequest.work?

/-- What holds between two messages once `pre_start` has run. -/
structure Inv (ctx : ActorRef) (a : DeviceActor) : Prop where
  contextRef_eq : a.contextRef = some ctx
  length_le : a.pending.length ≤ a.config.pendingQueueCapacity
  empty_of_ready : a.children.isSome → a.pending = []

/-- The work of the messages that find the actor not ready and its stash at capacity. -/
def turnedAway (a : DeviceActor) : List DeviceMsg → List Work
  | [] => []
  | msg :: msgs =>
    (if a.children = none ∧ a.config.pendingQueueCapacity ≤ a.pending.length then
      msg.work?.toList else []) ++ turnedAway (a.handle msg).1 msgs

/-- What the effects of one or more messages do to work: `before` is the work in hand before,
`after` the work in hand after them. -/
structure Moves (before : List Work) (effs : List Effect) (after : List Work) : Prop where
  perm : before.Perm (worksWith .forwarded effs ++ worksWith .answered effs ++
    worksWith .dropped effs ++ after)
  order : (worksWith .forwarded effs ++ after).Sublist before

end DeviceActor

/-- The work that is answered with an error or dropped. -/
def refused (effs : List Effect) : List Work := worksWith .answered effs ++ worksWith .dropped effs

@[simp] theorem worksWith_nil (f : Fate) : worksWith f [] = [] := rfl

@[simp] theorem worksWith_append (f : Fate) (effs effs' : List Effect) :
    worksWith f (effs ++ effs') = worksWith f effs ++ worksWith f effs' :=
  List.filterMap_append

namespace DeviceActor

/-! ### Moving work -/

section Moves

variable {before middle after more : List Work} {effs effs' : List Effect}

/-- Effects that touch no work. -/
theorem Moves.refl (h : ∀ f, worksWith f effs = []) : Moves before effs before where
  perm := by simp [h]
  order := by simp [h]

/-- Two traces in a row, with `more` arriving between them. -/
theorem Moves.trans (h : Moves before effs middle) (h' : Moves (middle ++ more) effs' after) :
    Moves (before ++ more) (effs ++ effs') after where
  perm := by
    rw [List.perm_iff_count]
    intro w
    have h₁ := h.perm.count_eq w
    have h₂ := h'.perm.count_eq w
    simp only [worksWith_append, List.count_append] at h₁ h₂ ⊢
    omega
  order := by
    have h₁ : (worksWith .forwarded effs ++ (middle ++ more)).Sublist (before ++ more) := by
      rw [← List.append_assoc]
      exact h.order.append_right more
    have h₂ := h'.order.append_left (worksWith .forwarded effs)
    rw [worksWith_append, List.append_assoc]
    exact h₂.trans h₁

/-- A loop over the stash that disposes of each item by one effect disposes of all of them. -/
theorem Moves.map {g : WorkRequest → Effect} (hg : ∀ w : WorkRequest, Moves w.work?.toList [g w] [])
    (ws : List WorkRequest) : Moves (ws.filterMap WorkRequest.work?) (ws.map g) [] := by
  induction ws with
  | nil => exact Moves.refl fun _ => rfl
  | cons w ws ih =>
    have hcons : (w :: ws).filterMap WorkRequest.work?
        = w.work?.toList ++ ws.filterMap WorkRequest.work? := by
      cases hw : w.work? <;> simp [hw]
    rw [hcons]
    exact (hg w).trans ih

end Moves

theorem moves_forward (ctx : ActorRef) (children : KernelChildren) (state : DeviceState)
    (w : WorkRequest) : Moves w.work?.toList [forward ctx children state w] [] := by
  rcases w with msg | req | reply
  · cases msg <;> constructor <;>
      simp [forward, WorkRequest.work?, ContextMsg.work?, worksWith, Effect.fate?]
  · constructor <;> simp [forward, WorkRequest.work?, worksWith, Effect.fate?]
  · constructor <;> simp [forward, WorkRequest.work?, worksWith, Effect.fate?]

theorem moves_refuse (err : GpuError) (w : WorkRequest) :
    Moves w.work?.toList [refuse err w] [] := by
  rcases w with msg | req | reply
  · cases msg <;> constructor <;>
      simp [refuse, WorkRequest.work?, ContextMsg.work?, worksWith, Effect.fate?]
  · constructor <;> simp [refuse, WorkRequest.work?, worksWith, Effect.fate?]
  · constructor <;> simp [refuse, WorkRequest.work?, worksWith, Effect.fate?]

/-! ### One message -/

/-- One call out of an invariant actor: the invariant stays, and the work in hand together with
the work `new` that came in is moved. -/
structure Step (ctx : ActorRef) (a : DeviceActor) (new : List Work)
    (r : DeviceActor × List Effect) : Prop where
  inv : r.1.Inv ctx
  config_eq : r.1.config = a.config
  moves : Moves (a.stashed ++ new) r.2 r.1.stashed

variable {ctx : ActorRef} {a : DeviceActor}

theorem step_of_no_work (h : a.Inv ctx) {effs : List Effect} {state : DeviceState}
    (heffs : ∀ f, worksWith f effs = []) : Step ctx a [] ({ a with state := state }, effs) where
  inv := ⟨h.contextRef_eq, h.length_le, h.empty_of_ready⟩
  config_eq := rfl
  moves := by
    rw [List.append_nil]
    exact Moves.refl heffs

theorem step_enqueuePending (h : a.Inv ctx) (hnot : a.children = none) (w : WorkRequest) :
    Step ctx a w.work?.toList (a.enqueuePending w) := by
  unfold enqueuePending
  split_ifs with hfull
  · refine ⟨h, rfl, ?_⟩
    -- the refused item overtakes the stash, which stays as it is
    have hmoves := moves_refuse (.unrecoverable "device pending queue full") w
    constructor
    · refine List.perm_append_comm.trans ?_
      simpa using hmoves.perm.append_right a.stashed
    · have hnone : worksWith .forwarded [refuse (.unrecoverable "device pending queue full") w]
          = [] := by
        rcases w with msg | req | reply <;> try cases msg
        all_goals simp [refuse, worksWith, Effect.fate?, ContextMsg.work?]
      rw [hnone, List.nil_append]
      exact List.sublist_append_left _ _
  · refine ⟨⟨h.contextRef_eq, ?_, by simp [hnot]⟩, rfl, ?_⟩
    · simp only [List.length_append, List.length_singleton]
      omega
    · have hstash : stashed { a with pending := a.pending ++ [w] }
          = a.stashed ++ w.work?.toList := by
        cases hw : w.work? <;> simp [stashed, hw]
      rw [hstash]
      exact Moves.refl fun _ => rfl

/-- A ready actor hands the work on at once; its stash is empty, so nothing is overtaken. -/
theorem step_forward (h : a.Inv ctx) {children : KernelChildren}
    (hready : a.children = some children)
    (w : WorkRequest) : Step ctx a w.work?.toList (a, [forward ctx children a.state w]) where
  inv := h
  config_eq := rfl
  moves := by
    have hempty : a.stashed = [] := by
      simp [stashed, h.empty_of_ready (by simp [hready])]
    rw [hempty]
    exact moves_forward ctx children a.state w

theorem step_dispatchContext (h : a.Inv ctx) (msg : ContextMsg) :
    Step ctx a msg.work?.toList (a.dispatchContext msg) := by
  unfold dispatchContext
  rw [h.contextRef_eq]
  cases hc : a.children with
  | none => exact step_enqueuePending h hc (.boxed msg)
  | some children => exact step_forward h hc (.boxed msg)

theorem step_contextReady (h : a.Inv ctx) (children : KernelChildren) :
    Step ctx a [] (drainPending { a with children := some children }) := by
  simp only [drainPending, h.contextRef_eq]
  refine ⟨⟨rfl, Nat.zero_le _, fun _ => rfl⟩, rfl, ?_⟩
  rw [List.append_nil]
  exact Moves.map (moves_forward ctx children a.state) a.pending

/-- **What `handle` does to work, for every message.** -/
theorem step_handle (h : a.Inv ctx) (msg : DeviceMsg) :
    Step ctx a msg.work?.toList (a.handle msg) := by
  unfold handle DeviceMsg.work?
  cases hmsg : msg.translate with
  | alloc req => exact step_dispatchContext h (.alloc req)
  | copyToHost req => exact step_dispatchContext h (.copyToHost req)
  | copyFromHost req => exact step_dispatchContext h (.copyFromHost req)
  | sgemm req =>
    cases hc : a.children with
    | none => exact step_enqueuePending h hc (.sgemm req)
    | some children => exact step_forward h hc (.sgemm req)
  | snapshotStream reply =>
    simp only [h.contextRef_eq]
    exact step_of_no_work h fun _ => rfl
  | contextReady children => exact step_contextReady h children
  | contextLost =>
    refine ⟨⟨h.contextRef_eq, h.length_le, by simp⟩, rfl, ?_⟩
    rw [Option.toList_none, List.append_nil]
    exact Moves.refl fun _ => rfl
  | snapshotContext reply | snapshotChildren reply | watchGeneration reply | stats reply
  | legacyAlloc variant len reply | legacyCopyToHost variant src dst reply
  | legacyCopyFromHost variant src dst reply => exact step_of_no_work h fun _ => rfl

theorem step_postStop (h : a.Inv ctx) : Step ctx a [] a.postStop where
  inv := ⟨h.contextRef_eq, Nat.zero_le _, fun _ => rfl⟩
  config_eq := rfl
  moves := by
    rw [List.append_nil]
    exact Moves.map (moves_refuse _) a.pending

/-! ### Whole runs -/

theorem step_handleAll (h : a.Inv ctx) (msgs : List DeviceMsg) :
    Step ctx a (arrivals msgs) (a.handleAll msgs) := by
  induction msgs generalizing a with
  | nil => exact step_of_no_work h fun _ => rfl
  | cons msg msgs ih =>
    have h₁ := step_handle h msg
    have h₂ := ih h₁.inv
    have harr : arrivals (msg :: msgs) = msg.work?.toList ++ arrivals msgs := by
      cases hw : msg.work? <;> simp [arrivals, hw]
    refine ⟨h₂.inv, h₂.config_eq.trans h₁.config_eq, ?_⟩
    rw [harr, ← List.append_assoc]
    exact h₁.moves.trans h₂.moves

theorem step_runFrom (h : a.Inv ctx) (msgs : List DeviceMsg) (stop : Bool) :
    Step ctx a (arrivals msgs) (a.runFrom msgs stop) := by
  have h₁ := step_handleAll h msgs
  cases stop with
  | false => exact h₁
  | true =>
    have h₂ := step_postStop h₁.inv
    refine ⟨h₂.inv, h₂.config_eq.trans h₁.config_eq, ?_⟩
    have := h₁.moves.trans h₂.moves
    rwa [List.append_nil] at this

/-! ### Refused work -/

theorem refused_append (effs effs' : List Effect) :
    (refused (effs ++ effs')).Perm (refused effs ++ refused effs') := by
  simp only [refused, worksWith_append]
  rw [List.perm_iff_count]
  intro w
  simp only [List.count_append]
  omega

theorem refused_refuse (err : GpuError) (w : WorkRequest) :
    refused [refuse err w] = w.work?.toList := by
  rcases w with msg | req | reply
  · cases msg <;> simp [refused, refuse, WorkRequest.work?, ContextMsg.work?, worksWith,
      Effect.fate?]
  · simp [refused, refuse, WorkRequest.work?, worksWith, Effect.fate?]
  · simp [refused, refuse, WorkRequest.work?, worksWith, Effect.fate?]

theorem fate_forward (ctx : ActorRef) (children : KernelChildren) (state : DeviceState)
    (w : WorkRequest) :
    (forward ctx children state w).fate? = w.work?.map (Fate.forwarded, ·) := by
  cases w <;> rfl

theorem refused_forward (ctx : ActorRef) (children : KernelChildren) (state : DeviceState)
    (ws : List WorkRequest) : refused (ws.map (forward ctx children state)) = [] := by
  have hnone : ∀ f ≠ Fate.forwarded, worksWith f (ws.map (forward ctx children state)) = [] := by
    intro f hf
    rw [worksWith, List.filterMap_eq_nil_iff]
    intro e he
    obtain ⟨w, -, rfl⟩ := List.mem_map.1 he
    rw [fate_forward]
    cases w.work? with
    | none => rfl
    | some work => exact if_neg hf.symm
  rw [refused, hnone .answered (by decide), hnone .dropped (by decide), List.append_nil]

theorem refused_enqueuePending (w : WorkRequest) :
    refused (a.enqueuePending w).2 =
      if a.config.pendingQueueCapacity ≤ a.pending.length then w.work?.toList else [] := by
  unfold enqueuePending
  split_ifs with hfull
  · exact refused_refuse _ w
  · rfl

/-- One message has its work refused exactly when the actor is not ready and its stash is full. -/
theorem refused_handle (h : a.Inv ctx) (msg : DeviceMsg) :
    refused (a.handle msg).2 =
      if a.children = none ∧ a.config.pendingQueueCapacity ≤ a.pending.length then
        msg.work?.toList else [] := by
  have hdispatch : ∀ m : ContextMsg, refused (a.dispatchContext m).2 =
      if a.children = none ∧ a.config.pendingQueueCapacity ≤ a.pending.length then
        m.work?.toList else [] := by
    intro m
    unfold dispatchContext
    rw [h.contextRef_eq]
    cases hc : a.children with
    | none =>
      simp only [true_and]
      exact refused_enqueuePending (.boxed m)
    | some children => exact refused_forward ctx children a.state [.boxed m]
  unfold handle DeviceMsg.work?
  cases msg.translate with
  | alloc req => exact hdispatch (.alloc req)
  | copyToHost req => exact hdispatch (.copyToHost req)
  | copyFromHost req => exact hdispatch (.copyFromHost req)
  | sgemm req =>
    cases hc : a.children with
    | none =>
      simp only [true_and]
      exact refused_enqueuePending (.sgemm req)
    | some children => exact refused_forward ctx children a.state [.sgemm req]
  | snapshotStream reply =>
    simp only [h.contextRef_eq, Option.toList_none, ite_self]
    rfl
  | contextReady children =>
    simp only [drainPending, h.contextRef_eq, Option.toList_none, ite_self]
    exact refused_forward ctx children a.state a.pending
  | contextLost | snapshotContext reply | snapshotChildren reply | watchGeneration reply
  | stats reply | legacyAlloc variant len reply | legacyCopyToHost variant src dst reply
  | legacyCopyFromHost variant src dst reply =>
    simp only [Option.toList_none, ite_self]
    rfl

theorem refused_handleAll (h : a.Inv ctx) (msgs : List DeviceMsg) :
    (refused (a.handleAll msgs).2).Perm (a.turnedAway msgs) := by
  induction msgs generalizing a with
  | nil => exact List.Perm.refl []
  | cons msg msgs ih =>
    refine (refused_append _ _).trans ?_
    rw [turnedAway, ← refused_handle h msg]
    exact (ih (step_handle h msg).inv).append_left _

/-- A stop has the work of the whole stash refused. -/
theorem refused_postStop (a : DeviceActor) : (refused a.postStop.2).Perm a.stashed := by
  simp only [postStop, stashed]
  induction a.pending with
  | nil => exact List.Perm.refl []
  | cons w ws ih =>
    have hcons : (w :: ws).filterMap WorkRequest.work?
        = w.work?.toList ++ ws.filterMap WorkRequest.work? := by
      cases hw : w.work? <;> simp [hw]
    rw [hcons, List.map_cons, ← List.singleton_append]
    refine (refused_append _ _).trans ?_
    rw [refused_refuse]
    exact ih.append_left _

theorem refused_runFrom (h : a.Inv ctx) (msgs : List DeviceMsg) (stop : Bool) :
    (refused (a.runFrom msgs stop).2).Perm
      (a.turnedAway msgs ++ if stop then (a.handleAll msgs).1.stashed else []) := by
  have hall := refused_handleAll h msgs
  cases stop with
  | false => simpa [runFrom] using hall
  | true => exact (refused_append _ _).trans (hall.append (refused_postStop _))

/-! ### The addressees -/

/-- A tell goes to the `ContextActor` or to the `BlasActor` of the children `known`. -/
def GoesTo (ctx : ActorRef) (known : KernelChildren → Prop) : Effect → Prop
  | .tellContext ref _ => ref = ctx
  | .tellBlas ref _ => ∃ children, known children ∧ children.blas = ref
  | _ => True

theorem GoesTo.mono {known known' : KernelChildren → Prop} {e : Effect} (h : GoesTo ctx known e)
    (hk : ∀ c, known c → known' c) : GoesTo ctx known' e := by
  cases e with
  | tellBlas ref req =>
    obtain ⟨c, hc, href⟩ := h
    exact ⟨c, hk c hc, href⟩
  | _ => exact h

theorem goesTo_forward {known : KernelChildren → Prop} {children : KernelChildren}
    (hk : known children) (state : DeviceState) (w : WorkRequest) :
    GoesTo ctx known (forward ctx children state w) := by
  rcases w with msg | req | reply
  · rfl
  · exact ⟨children, hk, rfl⟩
  · trivial

theorem goesTo_refuse (known : KernelChildren → Prop) (err : GpuError) (w : WorkRequest) :
    GoesTo ctx known (refuse err w) := by
  rcases w with msg | req | reply <;> trivial

theorem goesTo_enqueuePending (known : KernelChildren → Prop) (w : WorkRequest) :
    ∀ e ∈ (a.enqueuePending w).2, GoesTo ctx known e := by
  unfold enqueuePending
  split_ifs <;> simp [goesTo_refuse]

/-- The tells of one message go to the children known after it. -/
theorem goesTo_handle (h : a.Inv ctx) (msg : DeviceMsg) :
    ∀ e ∈ (a.handle msg).2, GoesTo ctx (fun c => (a.handle msg).1.children = some c) e := by
  have hdispatch : ∀ m : ContextMsg, ∀ e ∈ (a.dispatchContext m).2,
      GoesTo ctx (fun c => (a.dispatchContext m).1.children = some c) e := by
    intro m
    unfold dispatchContext
    rw [h.contextRef_eq]
    cases hc : a.children with
    | none => exact goesTo_enqueuePending _ _
    | some children => simp [GoesTo]
  unfold handle
  cases msg.translate with
  | alloc req => exact hdispatch _
  | copyToHost req => exact hdispatch _
  | copyFromHost req => exact hdispatch _
  | sgemm req =>
    cases hc : a.children with
    | none => exact goesTo_enqueuePending _ _
    | some children => simp [GoesTo, hc]
  | snapshotStream reply => simp [h.contextRef_eq, GoesTo]
  | contextReady children =>
    simp only [drainPending, h.contextRef_eq, List.mem_map]
    rintro e ⟨w, -, rfl⟩
    refine goesTo_forward ?_ _ _
    rfl
  | contextLost => simp
  | snapshotContext reply | snapshotChildren reply | watchGeneration reply | stats reply =>
    simp [GoesTo]
  | legacyAlloc variant len reply | legacyCopyToHost variant src dst reply
  | legacyCopyFromHost variant src dst reply => simp

theorem children_enqueuePending (w : WorkRequest) :
    (a.enqueuePending w).1.children = a.children := by
  unfold enqueuePending
  split_ifs <;> rfl

/-- Children become known only through `ContextReady`. -/
theorem children_handle {msg : DeviceMsg} {c : KernelChildren}
    (hc : (a.handle msg).1.children = some c) : a.children = some c ∨ msg = .contextReady c := by
  have hdispatch : ∀ m : ContextMsg, (a.dispatchContext m).1.children = a.children := by
    intro m
    unfold dispatchContext
    split
    · rfl
    · exact children_enqueuePending _
  cases msg with
  | contextReady children =>
    right
    simp only [handle, DeviceMsg.translate, drainPending] at hc
    split at hc <;> simp_all
  | contextLost => simp [handle, DeviceMsg.translate] at hc
  | sgemm req =>
    left
    simp only [handle, DeviceMsg.translate] at hc
    split at hc
    · exact hc
    · rwa [children_enqueuePending] at hc
  | snapshotStream reply =>
    left
    simp only [handle, DeviceMsg.translate] at hc
    split at hc <;> exact hc
  | alloc | copyToHost | copyFromHost | legacyAlloc | legacyCopyToHost | legacyCopyFromHost =>
    left
    simp only [handle, DeviceMsg.translate] at hc
    rwa [hdispatch] at hc
  | snapshotContext | snapshotChildren | watchGeneration | stats => exact .inl hc

theorem goesTo_handleAll (h : a.Inv ctx) (msgs : List DeviceMsg) :
    ∀ e ∈ (a.handleAll msgs).2,
      GoesTo ctx (fun c => a.children = some c ∨ .contextReady c ∈ msgs) e := by
  induction msgs generalizing a with
  | nil => simp [handleAll]
  | cons msg msgs ih =>
    intro e he
    simp only [handleAll, List.mem_append] at he
    rcases he with he | he
    · refine (goesTo_handle h msg e he).mono fun c hc => ?_
      rcases children_handle hc with hc | rfl
      · exact .inl hc
      · exact .inr List.mem_cons_self
    · refine (ih (step_handle h msg).inv e he).mono fun c hc => ?_
      rcases hc with hc | hc
      · rcases children_handle hc with hc | rfl
        · exact .inl hc
        · exact .inr List.mem_cons_self
      · exact .inr (List.mem_cons_of_mem _ hc)

theorem goesTo_runFrom (h : a.Inv ctx) (msgs : List DeviceMsg) (stop : Bool) :
    ∀ e ∈ (a.runFrom msgs stop).2,
      GoesTo ctx (fun c => a.children = some c ∨ .contextReady c ∈ msgs) e := by
  have hall := goesTo_handleAll h msgs
  cases stop with
  | false => exact hall
  | true =>
    intro e he
    simp only [runFrom, if_true, List.mem_append] at he
    rcases he with he | he
    · exact hall e he
    · obtain ⟨w, -, rfl⟩ := List.mem_map.1 he
      exact goesTo_refuse _ _ w

/-! ### The stash-and-drain protocol -/

/-- A device whose `pre_start` spawned the `ContextActor` `ctx`. -/
def started (config : DeviceConfig) (ctx : ActorRef) : DeviceActor :=
  { new config with contextRef := some ctx }

theorem preStart_new (config : DeviceConfig) (ctx : ActorRef) :
    (new config).preStart (.ok ctx) = .ok (started config ctx) := rfl

theorem inv_started (config : DeviceConfig) (ctx : ActorRef) : Inv ctx (started config ctx) where
  contextRef_eq := rfl
  length_le := Nat.zero_le _
  empty_of_ready := fun _ => rfl

/-- **The stash-and-drain protocol.**  After any messages, with or without a final stop: the work
that arrived is, piece by piece, what was forwarded, answered with an error, dropped or is still
stashed; the answered and dropped work is what arrived when the actor was not ready and its stash
full, and what a stop found in the stash; the stash respects its bound and is empty when the actor
is ready; for each target the forwarded work and then the stashed work stand in arrival order; and
every tell goes to the `ContextActor` or to a `BlasActor` that some `ContextReady` announced. -/
theorem stash_and_drain (config : DeviceConfig) (ctx : ActorRef) (msgs : List DeviceMsg)
    (stop : Bool) :
    let r := (started config ctx).runFrom msgs stop
    (arrivals msgs).Perm (worksWith .forwarded r.2 ++ worksWith .answered r.2 ++
        worksWith .dropped r.2 ++ r.1.stashed) ∧
      (worksWith .answered r.2 ++ worksWith .dropped r.2).Perm
        ((started config ctx).turnedAway msgs ++
          if stop then ((started config ctx).handleAll msgs).1.stashed else []) ∧
      r.1.pending.length ≤ config.pendingQueueCapacity ∧
      (r.1.children.isSome → r.1.pending = []) ∧
      (∀ t, ((worksWith .forwarded r.2 ++ r.1.stashed).filter (·.target = t)).Sublist
        ((arrivals msgs).filter (·.target = t))) ∧
      ∀ e ∈ r.2, GoesTo ctx (fun c => .contextReady c ∈ msgs) e := by
  intro r
  have h := inv_started config ctx
  have hstep : Step ctx (started config ctx) (arrivals msgs) r := step_runFrom h msgs stop
  have hmoves : Moves (arrivals msgs) r.2 r.1.stashed := hstep.moves
  refine ⟨hmoves.perm, refused_runFrom h msgs stop, ?_, hstep.inv.empty_of_ready,
    fun t => hmoves.order.filter _, fun e he => ?_⟩
  · have hlen := hstep.inv.length_le
    rw [hstep.config_eq] at hlen
    exact hlen
  · refine (goesTo_runFrom h msgs stop e he).mono fun c hc => ?_
    exact hc.resolve_left fun hnone => by cases hnone

end DeviceActor

end AtomrAccel
