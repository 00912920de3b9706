import AtomrAccel.Device.DeviceActor

/-!
# Write requests and the strong count of their destination

A `GpuRef` is an `Arc` of a `GpuRefInner`, which itself holds the `Arc` of the device buffer.  The
handlers of write requests take the buffer by `Arc::try_unwrap`, to make sure that nobody else
looks at it, but what they unwrap is the clone of the inner `Arc` that `access` gave them, and the
`GpuRef` of the request is still alive at that moment.

* `Heap`: every live handle, with the strong count of a buffer read off them;
* `Handler`: a request handler up to its enqueue step;
* `runCopyFromHost`, `dispatchGemm`, `copyF32`, `executeContract`: the four handlers;
* `Refused`, `refused_of_accessClone`, `refused_of_unwrap`: handlers that end with an error before
  their enqueue step;
* `WriteRequest.refused`: whatever the owner count outside the request, a write request that
  passes all its checks is answered with the error for multiple live references.
-/

namespace AtomrAccel

/-! ### Handles and strong counts -/

/-- All live handles: `refs` has one entry per live `GpuRef`, `slices` one per live
`Arc<CudaSlice>` outside a `GpuRefInner`. -/
structure Heap where
  refs : List GpuRef
  inner : GpuRef → GpuRefInner
  /-- the upgrade of the weak reference to the device state -/
  state : GpuRef → Option DeviceState
  slices : List CudaSlice

namespace Heap

/-- The `GpuRefInner`s that are alive and own `s`. -/
def innerOwners (h : Heap) (s : CudaSlice) : List GpuRef :=
  h.refs.dedup.filter fun r => (h.inner r).slice = s

/-- The strong count of a buffer. -/
def strong (h : Heap) (s : CudaSlice) : ℕ := h.slices.count s + (h.innerOwners s).length

/-- `Arc::clone` on a buffer. -/
def clone (h : Heap) (s : CudaSlice) : Heap := { h with slices := s :: h.slices }

/-- The handle `r` is alive, and there is no other handle to it or to its buffer. -/
structure SoleOwner (h : Heap) (r : GpuRef) : Prop where
  count_eq : h.refs.count r = 1
  no_slice : (h.inner r).slice ∉ h.slices
  no_inner : ∀ r' ∈ h.refs, (h.inner r').slice = (h.inner r).slice → r' = r

end Heap

/-! ### Handlers -/

/-- How a handler ends before its enqueue step. -/
inductive Refusal
  | reply (err : GpuError)
  | panic (text : String)
  deriving DecidableEq, Repr

/-- What the requester receives; a host copy hands the host buffer back. -/
abbrev Reply := Except GpuError (Option HostBuf)

/-- A handler: a `Refusal` before the enqueue step, or the reply of the enqueue and completion. -/
abbrev Handler := StateT Heap (Except Refusal)

namespace Handler

/-- `r.access()?.clone()`. -/
def accessClone (r : GpuRef) : Handler CudaSlice := fun h =>
  match (h.inner r).access (h.state r) with
  | .ok s => .ok (s, h.clone s)
  | .error e => .error (.reply e)

/-- `Arc::try_unwrap`, answering with `text` when there is another strong reference. -/
def tryUnwrap (s : CudaSlice) (text : String) : Handler Unit := fun h =>
  if h.strong s = 1 then .ok ((), { h with slices := h.slices.erase s })
  else .error (.reply (.unrecoverable text))

/-- `if !check { reply.send(Err(err)); return }`. -/
def require (check : Bool) (err : GpuError) : Handler Unit :=
  if check then pure () else throw (.reply err)

/-- An answer of the outside that ends the handler when it is an error. -/
def orReply (answer : Except GpuError Unit) : Handler Unit :=
  match answer with
  | .ok () => pure ()
  | .error e => throw (.reply e)

end Handler

/-- What the driver, the libraries and the completion of the stream answer. -/
structure WriteEnv where
  enqueue : Except String Unit
  completion : Except GpuError Unit
  /-- `dst_ctx.new_stream` of a peer copy, and the copy with its event wait and synchronization -/
  newStream : Except String Unit
  peerCopy : Except GpuError Unit
  /-- `get_or_build_plan` and `workspace.ensure` of a contraction -/
  plan : Except GpuError Unit
  workspace : Except GpuError Unit

/-- Pre-tagged errors pass through. -/
def annotateError (lib : String) : GpuError → GpuError
  | .driver msg => .libraryError lib msg
  | other => other

/-- `envelope::run_kernel`: the reply is the error of the enqueue, or what the completion says. -/
def runKernel (lib : String) (output : Option HostBuf) (enqueue completion : Except GpuError Unit) :
    Reply :=
  match enqueue with
  | .error e => .error (annotateError lib e)
  | .ok () => completion.map fun _ => output

open Handler

/-- `run_copy_from_host`. -/
def runCopyFromHost (env : WriteEnv) (req : CopyFromHostReq) : Handler Reply := do
  let dstSlice ← accessClone req.dst
  require (dstSlice.len == req.src.len) (.unrecoverable
    ("memcpy len mismatch: src=" ++ toString req.src.len ++ " dst=" ++ toString dstSlice.len))
  tryUnwrap dstSlice "H2D destination has multiple live references"
  match env.enqueue with
  | .error e => return .error (.libraryError "driver" ("memcpy_htod: " ++ e))
  | .ok () => return runKernel "driver" (some req.src) (.ok ()) env.completion

/-- The buffers of a `GemmRequest`; its scalars go to cuBLAS as they are. -/
structure GemmRequest where
  a : GpuRef
  b : GpuRef
  c : GpuRef
  deriving DecidableEq, Repr

/-- The refusal of a buffer with other references. -/
def gemmLiveText : String :=
  "GEMM target buffer C has more than one live reference; " ++
    "caller must hold the unique GpuRef to write to it"

/-- `dispatch_gemm`; `access_all_3` validates in the order a, b, c. -/
def dispatchGemm (env : WriteEnv) (req : GemmRequest) : Handler Reply := do
  let _ ← accessClone req.a
  let _ ← accessClone req.b
  let cSlice ← accessClone req.c
  tryUnwrap cSlice gemmLiveText
  return runKernel "cublas" none
    (env.enqueue.mapError fun e => .libraryError "cublas" ("gemm enqueue: " ++ e)) env.completion

/-- What `P2pTopology` knows when it handles a copy. -/
structure P2pTopology where
  enabled : Bool
  edges : List (List Bool)
  contexts : List (Option CtxId)
  deriving DecidableEq, Repr

namespace P2pTopology

/-- Indexing past the end of a `Vec`. -/
def outOfBounds (len index : ℕ) : Refusal :=
  .panic ("index out of bounds: the len is " ++ toString len ++ " but the index is " ++
    toString index)

/-- `can_pair` indexes the edge matrix without a check. -/
def canPair (t : P2pTopology) (a b : ℕ) : Except Refusal Bool :=
  match t.edges[a]? with
  | none => .error (outOfBounds t.edges.length a)
  | some row =>
    match row[b]? with
    | none => .error (outOfBounds row.length b)
    | some edge => .ok edge

/-- The context of a device, as last heard of. -/
def context (t : P2pTopology) (device : ℕ) : Option CtxId := (t.contexts[device]?).join

end P2pTopology

/-- A copy between two devices. -/
structure CopyF32Request where
  src : GpuRef
  srcDevice : ℕ
  dst : GpuRef
  dstDevice : ℕ
  deriving DecidableEq, Repr

/-- The `P2pMsg::CopyF32` arm. -/
def copyF32 (env : WriteEnv) (t : P2pTopology) (req : CopyF32Request) : Handler Reply := do
  require t.enabled (.unrecoverable "P2pTopology: call EnableAll first")
  let paired ← liftM (t.canPair req.srcDevice req.dstDevice)
  require paired (.unrecoverable ("P2pTopology: device " ++ toString req.srcDevice ++
    " cannot peer-access " ++ toString req.dstDevice))
  require (t.context req.srcDevice).isSome (.unrecoverable ("P2pTopology: src device " ++
    toString req.srcDevice ++ " context not available"))
  require (t.context req.dstDevice).isSome (.unrecoverable ("P2pTopology: dst device " ++
    toString req.dstDevice ++ " context not available"))
  let _ ← accessClone req.src
  let dstSlice ← accessClone req.dst
  tryUnwrap dstSlice "P2pCopy: dst has multiple live references"
  orReply (env.newStream.mapError fun e => .libraryError "driver" ("dst new_stream: " ++ e))
  return env.peerCopy.map fun _ => none

/-- A tensor operand: the buffer with its extents and modes. -/
structure TensorOperand where
  buf : GpuRef
  extent : List ℤ
  modes : List ℤ
  deriving DecidableEq, Repr

/-- There is an extent for every mode. -/
def TensorOperand.ranked (x : TensorOperand) : Bool := x.extent.length == x.modes.length

/-- A contraction of two tensors into a third. -/
structure ContractRequest where
  a : TensorOperand
  b : TensorOperand
  c : TensorOperand
  deriving DecidableEq, Repr

/-- `execute` of a contraction. -/
def executeContract (env : WriteEnv) (req : ContractRequest) : Handler Reply := do
  require req.a.ranked (.unrecoverable "Contract: a.extent.len != a.modes.len")
  require req.b.ranked (.unrecoverable "Contract: b.extent.len != b.modes.len")
  require req.c.ranked (.unrecoverable "Contract: c.extent.len != c.modes.len")
  let _ ← accessClone req.a.buf
  let _ ← accessClone req.b.buf
  let cSlice ← accessClone req.c.buf
  tryUnwrap cSlice "Contract c has multiple live references"
  orReply env.plan
  orReply env.workspace
  return runKernel "cutensor" none
    (env.enqueue.mapError fun e => .libraryError "cutensor" ("Contract: " ++ e)) env.completion

/-! ### The four kinds of write request -/

/-- The requests that write to a buffer of their own. -/
inductive WriteRequest
  | copyFromHost (req : CopyFromHostReq)
  | gemm (req : GemmRequest)
  | copyF32 (topology : P2pTopology) (req : CopyF32Request)
  | contract (req : ContractRequest)
  deriving DecidableEq, Repr

namespace WriteRequest

/-- The request, until it is answered. -/
def run (env : WriteEnv) : WriteRequest → Handler Reply
  | copyFromHost req => runCopyFromHost env req
  | gemm req => dispatchGemm env req
  | copyF32 topology req => AtomrAccel.copyF32 env topology req
  | contract req => executeContract env req

/-- The buffer that is written to. -/
def dst : WriteRequest → GpuRef
  | copyFromHost req => req.dst
  | gemm req => req.c
  | copyF32 _ req => req.dst
  | contract req => req.c.buf

/-- The buffers the request only reads. -/
def sources : WriteRequest → List GpuRef
  | copyFromHost _ => []
  | gemm req => [req.a, req.b]
  | copyF32 _ req => [req.src]
  | contract req => [req.a.buf, req.b.buf]

/-- The text of the error for a destination with another owner. -/
def liveText : WriteRequest → String
  | copyFromHost _ => "H2D destination has multiple live references"
  | gemm _ => gemmLiveText
  | copyF32 .. => "P2pCopy: dst has multiple live references"
  | contract _ => "Contract c has multiple live references"

/-- The length and topology checks of the handler. -/
def ChecksPass (h : Heap) : WriteRequest → Prop
  | copyFromHost req => (h.inner req.dst).slice.len = req.src.len
  | gemm _ => True
  | copyF32 t req => t.enabled = true ∧ t.canPair req.srcDevice req.dstDevice = .ok true ∧
      (t.context req.srcDevice).isSome = true ∧ (t.context req.dstDevice).isSome = true
  | contract req => req.a.ranked = true ∧ req.b.ranked = true ∧ req.c.ranked = true

/-- Every `GpuRef` of the request is valid. -/
def RefsValid (h : Heap) (req : WriteRequest) : Prop :=
  ∀ r ∈ req.dst :: req.sources, (h.inner r).access (h.state r) = .ok (h.inner r).slice

/-- The handler reaches its enqueue step. -/
def Enqueues (env : WriteEnv) (h : Heap) (req : WriteRequest) : Prop :=
  ∃ reply h', req.run env h = .ok (reply, h')

end WriteRequest

/-! ### Counting owners -/

namespace Heap

variable {h : Heap} {r : GpuRef} {s : CudaSlice}

@[simp] theorem clone_refs (h : Heap) (s : CudaSlice) : (h.clone s).refs = h.refs := rfl
@[simp] theorem clone_inner (h : Heap) (s : CudaSlice) : (h.clone s).inner = h.inner := rfl
@[simp] theorem clone_state (h : Heap) (s : CudaSlice) : (h.clone s).state = h.state := rfl

/-- A live `GpuRef` and a clone of the buffer inside it are two owners. -/
theorem two_le_strong (hr : r ∈ h.refs) (hs : (h.inner r).slice ∈ h.slices) :
    2 ≤ h.strong (h.inner r).slice := by
  have hclone : 1 ≤ h.slices.count (h.inner r).slice := List.one_le_count_iff.2 hs
  have howner : r ∈ h.innerOwners (h.inner r).slice := by
    simp [innerOwners, hr]
  have hinner : 1 ≤ (h.innerOwners (h.inner r).slice).length := List.length_pos_of_mem howner
  unfold strong
  omega

theorem SoleOwner.mem (hsole : h.SoleOwner r) : r ∈ h.refs := by
  rw [← List.one_le_count_iff, hsole.count_eq]

end Heap

/-! ### Running handlers -/

namespace Handler

variable {α β : Type} {h h' : Heap} {r : GpuRef} {s : CudaSlice}

theorem bind_eq_ok {x : Handler α} {f : α → Handler β} {b : β} :
    (x >>= f) h = .ok (b, h') ↔ ∃ a h₁, x h = .ok (a, h₁) ∧ f a h₁ = .ok (b, h') := by
  change (x h >>= fun p => f p.1 p.2) = _ ↔ _
  rcases x h with e | ⟨a, h₁⟩
  · simp [bind, Except.bind]
  · simp [bind, Except.bind]

theorem bind_of_ok {x : Handler α} {a : α} {h₁ : Heap} (hx : x h = .ok (a, h₁))
    (f : α → Handler β) : (x >>= f) h = f a h₁ := by
  change (x h >>= fun p => f p.1 p.2) = _
  rw [hx]
  rfl

theorem bind_of_error {x : Handler α} {e : Refusal} (hx : x h = .error e) (f : α → Handler β) :
    (x >>= f) h = .error e := by
  change (x h >>= fun p => f p.1 p.2) = _
  rw [hx]
  rfl

theorem accessClone_of_valid (hvalid : (h.inner r).access (h.state r) = .ok (h.inner r).slice) :
    accessClone r h = .ok ((h.inner r).slice, h.clone (h.inner r).slice) := by
  simp [accessClone, hvalid]

/-- What a successful access leaves behind. -/
theorem accessClone_eq_ok (hs : accessClone r h = .ok (s, h')) :
    s = (h.inner r).slice ∧ h' = h.clone s := by
  unfold accessClone at hs
  split at hs
  · rename_i s' hacc
    obtain ⟨st, -, -, -, hslice⟩ := GpuRefInner.access_eq_ok.1 hacc
    cases hs
    exact ⟨hslice, rfl⟩
  · cases hs

theorem require_eq_ok {check : Bool} {err : GpuError} (hs : require check err h = .ok ((), h')) :
    h' = h := by
  unfold require at hs
  cases check with
  | false => cases hs
  | true =>
    cases hs
    rfl

theorem require_of_true {check : Bool} (hcheck : check = true) (err : GpuError) :
    require check err h = .ok ((), h) := by
  rw [require, if_pos hcheck]
  rfl

/-- Unwrapping the clone of a buffer whose `GpuRef` is alive fails. -/
theorem tryUnwrap_of_alive (hr : r ∈ h.refs) (text : String) :
    tryUnwrap (h.inner r).slice text (h.clone (h.inner r).slice)
      = .error (.reply (.unrecoverable text)) := by
  have hcount : 2 ≤ (h.clone (h.inner r).slice).strong (h.inner r).slice :=
    Heap.two_le_strong (h := h.clone _) (r := r) hr List.mem_cons_self
  unfold tryUnwrap
  rw [if_neg (by omega)]

/-- Cloning a valid destination and unwrapping the clone ends in the error `text`. -/
theorem unwrap_fails_of_alive (hr : r ∈ h.refs)
    (hvalid : (h.inner r).access (h.state r) = .ok (h.inner r).slice) (text : String)
    (k : Handler β) :
    (accessClone r >>= fun s => tryUnwrap s text >>= fun _ => k) h
      = .error (.reply (.unrecoverable text)) := by
  refine (bind_of_ok (accessClone_of_valid hvalid) _).trans ?_
  exact bind_of_error (tryUnwrap_of_alive hr text) _

/-- The step all four handlers share: clone the destination, then unwrap the clone. -/
theorem tryUnwrap_accessClone_ne_ok {h₁ h₂ : Heap} (hr : r ∈ h.refs)
    (hs : accessClone r h = .ok (s, h₁)) (text : String) : tryUnwrap s text h₁ ≠ .ok ((), h₂) := by
  obtain ⟨rfl, rfl⟩ := accessClone_eq_ok hs
  rw [tryUnwrap_of_alive hr text]
  exact fun hok => by cases hok

/-- The handler answers an error before its enqueue step. -/
def Refused {α : Type} (x : Handler α) (h : Heap) : Prop := ∃ e, x h = .error (.reply e)

/-- The handle is valid on its own device. -/
def Valid (h : Heap) (r : GpuRef) : Prop :=
  (h.inner r).access (h.state r) = .ok (h.inner r).slice

theorem Refused.bind {x : Handler α} (hx : Refused x h) (f : α → Handler β) :
    Refused (x >>= f) h := by
  obtain ⟨e, he⟩ := hx
  exact ⟨e, bind_of_error he f⟩

/-- A handle is valid, or its access is the error that is answered. -/
theorem valid_or_refused (h : Heap) (r : GpuRef) : Valid h r ∨ Refused (accessClone r) h := by
  cases hacc : (h.inner r).access (h.state r) with
  | error e =>
    right
    refine ⟨e, ?_⟩
    simp only [accessClone, hacc]
  | ok s =>
    left
    obtain ⟨st, -, -, -, hslice⟩ := GpuRefInner.access_eq_ok.1 hacc
    rw [Valid, hacc, hslice]

theorem refused_of_not_valid (hr : ¬ Valid h r) : Refused (accessClone r) h :=
  (valid_or_refused h r).resolve_left hr

/-- A valid handle belongs to a device that is there. -/
theorem Valid.upgrade (hr : Valid h r) : ∃ st, h.state r = some st := by
  obtain ⟨st, hst, -⟩ := GpuRefInner.access_eq_ok.1 hr
  exact ⟨st, hst⟩

theorem tryUnwrap_refused (hr : r ∈ h.refs) (hs : (h.inner r).slice ∈ h.slices) (text : String) :
    Refused (tryUnwrap (h.inner r).slice text) h := by
  have hstrong : 2 ≤ h.strong (h.inner r).slice := Heap.two_le_strong hr hs
  refine ⟨.unrecoverable text, ?_⟩
  unfold tryUnwrap
  rw [if_neg (by omega)]

/-- An access that fails is the answer, and one that succeeds leaves a clone of the buffer. -/
theorem refused_of_accessClone {f : CudaSlice → Handler β}
    (hf : Refused (f (h.inner r).slice) (h.clone (h.inner r).slice)) :
    Refused (accessClone r >>= f) h := by
  rcases valid_or_refused h r with hvalid | hstale
  · obtain ⟨e, he⟩ := hf
    exact ⟨e, (bind_of_ok (accessClone_of_valid hvalid) _).trans he⟩
  · exact hstale.bind f

/-- A clone of a buffer whose handle is alive is not unwrapped. -/
theorem refused_of_unwrap (hr : r ∈ h.refs) (text : String) (f : CudaSlice → Unit → Handler β) :
    Refused (accessClone r >>= fun s => tryUnwrap s text >>= f s) h :=
  refused_of_accessClone
    ((tryUnwrap_refused (h := h.clone _) hr List.mem_cons_self text).bind _)

/-- The same with another buffer cloned in between. -/
theorem refused_of_unwrap_first {q : GpuRef} (hr : r ∈ h.refs) (text : String)
    (f : CudaSlice → CudaSlice → Unit → Handler β) :
    Refused (accessClone r >>= fun s => accessClone q >>= fun u => tryUnwrap s text >>= f s u) h :=
  refused_of_accessClone <| refused_of_accessClone <|
    (tryUnwrap_refused (h := (h.clone _).clone _) hr
      (List.mem_cons_of_mem _ List.mem_cons_self) text).bind _

end Handler

namespace WriteRequest

variable {env : WriteEnv} {h : Heap} {req : WriteRequest}

/-- No write request reaches its enqueue step while its destination `GpuRef` is alive. -/
theorem not_enqueues (env : WriteEnv) (hdst : req.dst ∈ h.refs) : ¬ req.Enqueues env h := by
  rintro ⟨reply, h', hrun⟩
  cases req with
  | copyFromHost req =>
    simp only [run, runCopyFromHost, bind_eq_ok] at hrun
    obtain ⟨s, h₁, hs, ⟨⟩, h₂, hlen, ⟨⟩, h₃, hunwrap, -⟩ := hrun
    rw [require_eq_ok hlen] at hunwrap
    exact tryUnwrap_accessClone_ne_ok hdst hs _ hunwrap
  | gemm req =>
    simp only [run, dispatchGemm, bind_eq_ok] at hrun
    obtain ⟨a, h₁, ha, b, h₂, hb, c, h₃, hc, ⟨⟩, h₄, hunwrap, -⟩ := hrun
    obtain ⟨-, rfl⟩ := accessClone_eq_ok ha
    obtain ⟨-, rfl⟩ := accessClone_eq_ok hb
    refine tryUnwrap_accessClone_ne_ok ?_ hc _ hunwrap
    exact hdst
  | copyF32 t req =>
    simp only [run, AtomrAccel.copyF32, bind_eq_ok] at hrun
    obtain ⟨⟨⟩, h₁, hena, paired, h₂, hpair, ⟨⟩, h₃, hcan, hrun⟩ := hrun
    obtain ⟨⟨⟩, h₄, hsrc, ⟨⟩, h₅, hdctx, hrun⟩ := hrun
    obtain ⟨a, h₆, ha, b, h₇, hb, ⟨⟩, h₈, hunwrap, -⟩ := hrun
    have hlift : h₂ = h₁ := by
      cases hp : t.canPair req.srcDevice req.dstDevice with
      | error e =>
        rw [hp] at hpair
        cases hpair
      | ok paired =>
        rw [hp] at hpair
        cases hpair
        rfl
    obtain ⟨-, rfl⟩ := accessClone_eq_ok ha
    obtain rfl := require_eq_ok hdctx
    obtain rfl := require_eq_ok hsrc
    obtain rfl := require_eq_ok hcan
    obtain rfl := hlift
    obtain rfl := require_eq_ok hena
    refine tryUnwrap_accessClone_ne_ok ?_ hb _ hunwrap
    exact hdst
  | contract req =>
    simp only [run, executeContract, bind_eq_ok] at hrun
    obtain ⟨⟨⟩, h₁, hra, ⟨⟩, h₂, hrb, ⟨⟩, h₃, hrc, hrun⟩ := hrun
    obtain ⟨a, h₄, ha, b, h₅, hb, c, h₆, hc, ⟨⟩, h₇, hunwrap, -⟩ := hrun
    obtain ⟨-, rfl⟩ := accessClone_eq_ok hb
    obtain ⟨-, rfl⟩ := accessClone_eq_ok ha
    obtain rfl := require_eq_ok hrc
    obtain rfl := require_eq_ok hrb
    obtain rfl := require_eq_ok hra
    refine tryUnwrap_accessClone_ne_ok ?_ hc _ hunwrap
    exact hdst

/-- A request that passes every check is answered as if its destination were shared. -/
theorem run_eq_liveText (env : WriteEnv) (hdst : req.dst ∈ h.refs) (hvalid : req.RefsValid h)
    (hchecks : req.ChecksPass h) :
    req.run env h = .error (.reply (.unrecoverable req.liveText)) := by
  have hd := hvalid req.dst List.mem_cons_self
  have hsrc : ∀ r ∈ req.sources, (h.inner r).access (h.state r) = .ok (h.inner r).slice :=
    fun r hr => hvalid r (List.mem_cons_of_mem _ hr)
  cases req with
  | copyFromHost req =>
    have hlen : ((h.inner req.dst).slice.len == req.src.len) = true :=
      beq_iff_eq.2 hchecks
    refine (bind_of_ok (accessClone_of_valid hd) _).trans ?_
    refine (bind_of_ok (require_of_true hlen _) _).trans ?_
    exact bind_of_error (tryUnwrap_of_alive hdst _) _
  | gemm req =>
    have ha := hsrc req.a (by simp [sources])
    have hb := hsrc req.b (by simp [sources])
    refine (bind_of_ok (accessClone_of_valid ha) _).trans ?_
    refine (bind_of_ok (accessClone_of_valid (h := h.clone _) hb) _).trans ?_
    refine unwrap_fails_of_alive ?_ ?_ _ _
    · exact hdst
    · exact hd
  | copyF32 t req =>
    obtain ⟨hena, hpair, hsctx, hdctx⟩ := hchecks
    have hs := hsrc req.src (by simp [sources])
    have hlift : (liftM (t.canPair req.srcDevice req.dstDevice) : Handler Bool) h
        = .ok (true, h) := by
      rw [hpair]
      rfl
    refine (bind_of_ok (require_of_true hena _) _).trans ?_
    refine (bind_of_ok hlift _).trans ?_
    refine (bind_of_ok (require_of_true rfl _) _).trans ?_
    refine (bind_of_ok (require_of_true hsctx _) _).trans ?_
    refine (bind_of_ok (require_of_true hdctx _) _).trans ?_
    refine (bind_of_ok (accessClone_of_valid hs) _).trans ?_
    refine unwrap_fails_of_alive ?_ ?_ _ _
    · exact hdst
    · exact hd
  | contract req =>
    obtain ⟨hra, hrb, hrc⟩ := hchecks
    have ha := hsrc req.a.buf (by simp [sources])
    have hb := hsrc req.b.buf (by simp [sources])
    refine (bind_of_ok (require_of_true hra _) _).trans ?_
    refine (bind_of_ok (require_of_true hrb _) _).trans ?_
    refine (bind_of_ok (require_of_true hrc _) _).trans ?_
    refine (bind_of_ok (accessClone_of_valid ha) _).trans ?_
    refine (bind_of_ok (accessClone_of_valid (h := h.clone _) hb) _).trans ?_
    refine unwrap_fails_of_alive ?_ ?_ _ _
    · exact hdst
    · exact hd

/-- **A write request that owns its destination alone never reaches its enqueue step; when all its
references are valid and its checks pass, it is answered with the error for a destination that
has a second owner.** -/
theorem sole_owner_refused (env : WriteEnv) (h : Heap) (req : WriteRequest)
    (hsole : h.SoleOwner req.dst) :
    ¬ req.Enqueues env h ∧ (req.RefsValid h → req.ChecksPass h →
      req.run env h = .error (.reply (.unrecoverable req.liveText))) :=
  ⟨not_enqueues env hsole.mem, fun hvalid hchecks => run_eq_liveText env hsole.mem hvalid hchecks⟩

/-- A device with one buffer of four elements and a single `GpuRef` to it. -/
def oneBuffer : Heap where
  refs := [0]
  inner := fun _ => ⟨⟨0, 0, 4⟩, 1⟩
  state := fun _ => some ⟨0, 1, true, some 0, ⟨0, 0⟩⟩
  slices := []

theorem soleOwner_oneBuffer : oneBuffer.SoleOwner 0 :=
  ⟨rfl, List.not_mem_nil, fun _ hr _ => List.mem_singleton.1 hr⟩

/-- A driver and a stream that do what they are asked. -/
def obliging : WriteEnv := ⟨.ok (), .ok (), .ok (), .ok (), .ok (), .ok ()⟩

/-- The upload of four elements by the only owner of the buffer. -/
def soleUpload : WriteRequest := .copyFromHost ⟨.f32, ⟨false, 4⟩, 0, 9⟩

theorem refsValid_soleUpload : soleUpload.RefsValid oneBuffer := by
  intro r hr
  obtain rfl := List.mem_singleton.1 hr
  rfl

theorem soleUpload_refused :
    oneBuffer.SoleOwner soleUpload.dst ∧ soleUpload.RefsValid oneBuffer ∧
      soleUpload.ChecksPass oneBuffer ∧ soleUpload.run obliging oneBuffer =
        .error (.reply (.unrecoverable "H2D destination has multiple live references")) := by
  have hchecks : soleUpload.ChecksPass oneBuffer := rfl
  exact ⟨soleOwner_oneBuffer, refsValid_soleUpload, hchecks,
    (sole_owner_refused obliging oneBuffer soleUpload soleOwner_oneBuffer).2 refsValid_soleUpload
      hchecks⟩

/-- That upload, by a sole owner with every check passed, is not enqueued. -/
theorem sole_owner_write_not_enqueued :
    ¬ ∀ (env : WriteEnv) (h : Heap) (req : WriteRequest), h.SoleOwner req.dst →
      req.RefsValid h → req.ChecksPass h → req.Enqueues env h := by
  intro hall
  obtain ⟨reply, h', hrun⟩ :=
    hall obliging oneBuffer soleUpload soleOwner_oneBuffer refsValid_soleUpload rfl
  rw [run_eq_liveText obliging soleOwner_oneBuffer.mem refsValid_soleUpload rfl] at hrun
  cases hrun

end WriteRequest

end AtomrAccel
