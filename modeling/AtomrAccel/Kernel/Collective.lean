import AtomrAccel.Device.WriteRequest
import AtomrAccel.MultiDevice.World

/-!
# `CollectiveActor`: where the device of a buffer is checked

The actor of one rank holds a communicator bound to one device.  Its `handle` compares the device
that a boxed request reports with its own, but the reply channel is inside the box, so it logs a
difference and dispatches all the same, and leaves the rejection to the `access` of the dispatcher.
`access` looks at the state of the buffer's own device only.

* `Nccl`, `Comm`: the calls of a dispatcher, in order, and what NCCL answers to them;
* `AllReduceRequest.dispatch`, ..., `handle`, `mockReply`, `handleLegacy`: the code;
* `Delivery`: a message together with the handles that are alive when it is handled;
* `dispatch_refused`: a request that takes a buffer out of its `Arc` is refused before any call;
* `real_reaches`: the others, a send and a reduction without receive buffer, go to NCCL with any
  buffer that is valid on its own device.
-/

namespace AtomrAccel

namespace Collective

open Handler MultiDevice

/-! ### NCCL -/

/-- A range of a buffer. -/
structure Shard where
  slice : CudaSlice
  lo : ℕ
  hi : ℕ
  deriving DecidableEq, Repr

/-- The calls of NCCL. -/
inductive NcclCall
  | allReduce (buf : CudaSlice) (op : ReduceOp)
  | allGather (send recv : CudaSlice)
  | reduceScatter (send recv : CudaSlice) (op : ReduceOp)
  | send (data : Shard) (peer : Int32)
  | recv (data : Shard) (peer : Int32)
  | reduce (send : CudaSlice) (recv : Option CudaSlice) (op : ReduceOp) (root : Int32)
  | broadcast (buf : CudaSlice) (root : Int32)
  | groupStart
  | groupEnd
  deriving DecidableEq

/-- The buffers whose addresses a call hands over. -/
def NcclCall.buffers : NcclCall → List CudaSlice
  | allReduce buf _ => [buf]
  | allGather src dst => [src, dst]
  | reduceScatter src dst _ => [src, dst]
  | send data _ => [data.slice]
  | recv data _ => [data.slice]
  | reduce src dst _ _ => src :: dst.toList
  | broadcast buf _ => [buf]
  | groupStart | groupEnd => []

/-- What NCCL was built with. -/
structure NcclCapabilities where
  version : Int32 × Int32 × Int32
  hasFp8 : Bool
  hasNvls : Bool
  hasSharp : Bool
  deriving DecidableEq

/-- What is answered without a device. -/
def NcclCapabilities.zeroed : NcclCapabilities := ⟨(0, 0, 0), false, false, false⟩

/-- A communicator: the result of a call after the calls before it, an error by its debug text; the
answer of `probe_capabilities`; and the `try_slice` and `try_slice_mut` of its buffers. -/
structure Comm where
  worldSize : ℕ
  call : List NcclCall → NcclCall → Except String Unit
  capabilities : NcclCapabilities
  trySlice : CudaSlice → ℕ → ℕ → Option Shard

/-- What lies in a buffer is sliced, nothing else is. -/
def documentedSlice (s : CudaSlice) (lo hi : ℕ) : Option Shard :=
  if lo ≤ hi ∧ hi ≤ s.len then some ⟨s, lo, hi⟩ else none

/-- The part of a dispatcher that calls NCCL; the calls made stay made when it ends early. -/
abbrev Nccl := ExceptT Refusal (StateM (List NcclCall))

/-- A call, with the error text under which its failure is answered. -/
def issue (comm : Comm) (label : String) (c : NcclCall) : Nccl Unit := fun calls =>
  ((comm.call calls c).mapError fun e => .reply (.libraryError "nccl" (label ++ ": " ++ e)),
    calls ++ [c])

/-- `group_start`. -/
def groupStart (comm : Comm) : Nccl Unit := issue comm "group_start" .groupStart

/-- `group_end`. -/
def groupEnd (comm : Comm) : Nccl Unit := issue comm "group_end" .groupEnd

/-- `slice` and `slice_mut` unwrap what `try_slice` gives. -/
def shard (comm : Comm) (s : CudaSlice) (lo hi : ℕ) : Nccl Shard :=
  match comm.trySlice s lo hi with
  | some slab => pure slab
  | none => throw (.panic "called `Option::unwrap()` on a `None` value")

/-- A `usize` result; the operators wrap. -/
def usize (n : ℕ) : ℕ := n % 2 ^ 64

/-! ### Requests -/

/-- Reduce over all ranks, in place. -/
structure AllReduceRequest where
  tensor : GpuRef
  op : ReduceOp
  deriving DecidableEq

/-- Gather from all ranks. -/
structure AllGatherRequest where
  send : GpuRef
  recv : GpuRef
  deriving DecidableEq

/-- Reduce over all ranks, and keep one part. -/
structure ReduceScatterRequest where
  send : GpuRef
  recv : GpuRef
  op : ReduceOp
  deriving DecidableEq

/-- Send a buffer to a peer. -/
structure SendRequest where
  data : GpuRef
  peer : Int32
  deriving DecidableEq

/-- Receive a buffer from a peer. -/
structure RecvRequest where
  data : GpuRef
  peer : Int32
  deriving DecidableEq

/-- Exchange as much with every peer. -/
structure AllToAllRequest where
  send : GpuRef
  recv : GpuRef
  count : ℕ
  deriving DecidableEq

/-- Exchange with every peer what its counts and offsets say. -/
structure AllToAllvRequest where
  send : GpuRef
  recv : GpuRef
  sendCounts : List ℕ
  sendOffsets : List ℕ
  recvCounts : List ℕ
  recvOffsets : List ℕ
  deriving DecidableEq

/-- Reduce to a root, which alone needs `recv`. -/
structure ReduceRequest where
  send : GpuRef
  recv : Option GpuRef
  op : ReduceOp
  root : Int32
  deriving DecidableEq

/-- Broadcast from a root, in place. -/
structure BroadcastRequest where
  data : GpuRef
  root : ℕ
  deriving DecidableEq

/-- `r.access()?.clone()`, taken out of its `Arc`. -/
def accessOwned (r : GpuRef) (text : String) : Handler CudaSlice := do
  let slice ← accessClone r
  tryUnwrap slice text
  return slice

/-- A buffer to read and a buffer to write. -/
def accessPair (send recv : GpuRef) (text : String) : Handler (CudaSlice × CudaSlice) := do
  let sendSlice ← accessClone send
  let recvOwned ← accessOwned recv text
  return (sendSlice, recvOwned)

/-- The tensor is unwrapped, and the call made on it. -/
def AllReduceRequest.dispatch (comm : Comm) (req : AllReduceRequest) : Handler (Nccl Unit) := do
  let owned ← accessOwned req.tensor "AllReduce tensor has multiple live references"
  return issue comm "all_reduce" (.allReduce owned req.op)

def AllGatherRequest.dispatch (comm : Comm) (req : AllGatherRequest) : Handler (Nccl Unit) := do
  let (sendSlice, recvOwned) ←
    accessPair req.send req.recv "AllGather recv buffer has multiple live references"
  return issue comm "all_gather" (.allGather sendSlice recvOwned)

def ReduceScatterRequest.dispatch (comm : Comm) (req : ReduceScatterRequest) :
    Handler (Nccl Unit) := do
  let (sendSlice, recvOwned) ←
    accessPair req.send req.recv "ReduceScatter recv buffer has multiple live references"
  return issue comm "reduce_scatter" (.reduceScatter sendSlice recvOwned req.op)

def SendRequest.dispatch (comm : Comm) (req : SendRequest) : Handler (Nccl Unit) := do
  let slice ← accessClone req.data
  return issue comm "send" (.send ⟨slice, 0, slice.len⟩ req.peer)

def RecvRequest.dispatch (comm : Comm) (req : RecvRequest) : Handler (Nccl Unit) := do
  let owned ← accessOwned req.data "Recv buffer has multiple live references"
  return issue comm "recv" (.recv ⟨owned, 0, owned.len⟩ req.peer)

/-- The exchange with one peer of an `AllToAll`. -/
def AllToAllRequest.exchange (comm : Comm) (count : ℕ) (send recv : CudaSlice) (peer : ℕ) :
    Nccl Unit := do
  let lo := usize (peer * count)
  let hi := usize ((peer + 1) * count)
  let sendSlab ← shard comm send lo hi
  let recvSlab ← shard comm recv lo hi
  issue comm ("a2a send to " ++ toString peer) (.send sendSlab (Int32.ofNat peer))
  issue comm ("a2a recv from " ++ toString peer) (.recv recvSlab (Int32.ofNat peer))

/-- Both buffers must hold a part for each peer. -/
def AllToAllRequest.dispatch (comm : Comm) (req : AllToAllRequest) : Handler (Nccl Unit) := do
  let (sendSlice, recvOwned) ←
    accessPair req.send req.recv "AllToAll recv buffer has multiple live references"
  let need := usize (comm.worldSize * req.count)
  require (decide (need ≤ sendSlice.len) && decide (need ≤ recvOwned.len)) (.unrecoverable
    ("AllToAll: buffer length < world_size (" ++ toString comm.worldSize ++ ") * count (" ++
      toString req.count ++ ")"))
  return do
    groupStart comm
    (List.range comm.worldSize).forM (exchange comm req.count sendSlice recvOwned)
    groupEnd comm

namespace AllToAllvRequest

/-- One direction of the exchange with a peer; an empty shard is skipped. -/
def transfer (comm : Comm) (s : CudaSlice) (offset count : ℕ) (overrun label : String)
    (call : Shard → NcclCall) : Nccl Unit :=
  if 0 < count then
    if s.len < usize (offset + count) then throw (.reply (.unrecoverable overrun))
    else do
      let slab ← shard comm s offset (usize (offset + count))
      issue comm label (call slab)
  else pure ()

/-- The exchange with one peer; the four lists have an entry for it. -/
def exchange (comm : Comm) (req : AllToAllvRequest) (send recv : CudaSlice) (peer : ℕ) :
    Nccl Unit := do
  transfer comm send (req.sendOffsets.getD peer 0) (req.sendCounts.getD peer 0)
    ("AllToAllv: send shard for peer " ++ toString peer ++ " overruns buffer")
    ("a2av send to " ++ toString peer) fun slab => .send slab (Int32.ofNat peer)
  transfer comm recv (req.recvOffsets.getD peer 0) (req.recvCounts.getD peer 0)
    ("AllToAllv: recv shard from peer " ++ toString peer ++ " overruns buffer")
    ("a2av recv from " ++ toString peer) fun slab => .recv slab (Int32.ofNat peer)

/-- The counts are looked at before the buffers are. -/
def dispatch (comm : Comm) (req : AllToAllvRequest) : Handler (Nccl Unit) := do
  require (decide (req.sendCounts.length = comm.worldSize) &&
    decide (req.sendOffsets.length = comm.worldSize) &&
    decide (req.recvCounts.length = comm.worldSize) &&
    decide (req.recvOffsets.length = comm.worldSize)) (.unrecoverable
    ("AllToAllv: counts/offsets must each have length world_size (" ++
      toString comm.worldSize ++ ")"))
  let (sendSlice, recvOwned) ←
    accessPair req.send req.recv "AllToAllv recv buffer has multiple live references"
  return do
    groupStart comm
    (List.range comm.worldSize).forM (exchange comm req sendSlice recvOwned)
    groupEnd comm

end AllToAllvRequest

def ReduceRequest.dispatch (comm : Comm) (req : ReduceRequest) : Handler (Nccl Unit) := do
  let sendSlice ← accessClone req.send
  match req.recv with
  | some r => do
    let owned ← accessOwned r "Reduce recv buffer has multiple live references"
    return issue comm "reduce" (.reduce sendSlice (some owned) req.op req.root)
  | none => return issue comm "reduce" (.reduce sendSlice none req.op req.root)

def BroadcastRequest.dispatch (comm : Comm) (req : BroadcastRequest) : Handler (Nccl Unit) := do
  let owned ← accessOwned req.data "Broadcast data has multiple live references"
  require (decide (req.root < 2 ^ 31)) (.unrecoverable
    ("Broadcast: root " ++ toString req.root ++ " does not fit in i32"))
  return issue comm "broadcast_in_place" (.broadcast owned (Int32.ofNat req.root))

/-- A boxed request. -/
inductive CollectiveDispatch
  | allReduce (req : AllReduceRequest)
  | allGather (req : AllGatherRequest)
  | reduceScatter (req : ReduceScatterRequest)
  | send (req : SendRequest)
  | recv (req : RecvRequest)
  | allToAll (req : AllToAllRequest)
  | allToAllv (req : AllToAllvRequest)
  | reduce (req : ReduceRequest)
  | broadcast (req : BroadcastRequest)
  deriving DecidableEq

namespace CollectiveDispatch

/-- The dispatcher of a boxed request. -/
def dispatch (comm : Comm) : CollectiveDispatch → Handler (Nccl Unit)
  | allReduce req => req.dispatch comm
  | allGather req => req.dispatch comm
  | reduceScatter req => req.dispatch comm
  | send req => req.dispatch comm
  | recv req => req.dispatch comm
  | allToAll req => req.dispatch comm
  | allToAllv req => req.dispatch comm
  | reduce req => req.dispatch comm
  | broadcast req => req.dispatch comm

/-- Every buffer of the request; the first one is the one that `device_id` asks first. -/
@[simp] def buffers : CollectiveDispatch → List GpuRef
  | allReduce req => [req.tensor]
  | allGather req => [req.send, req.recv]
  | reduceScatter req => [req.send, req.recv]
  | send req => [req.data]
  | recv req => [req.data]
  | allToAll req => [req.send, req.recv]
  | allToAllv req => [req.send, req.recv]
  | reduce req => req.send :: req.recv.toList
  | broadcast req => [req.data]

/-- `device_id`: the first buffer whose device state is still there answers for all of them. -/
def deviceId (h : Heap) (req : CollectiveDispatch) : Option ℕ :=
  req.buffers.findSome? fun r => (h.state r).map DeviceState.deviceId

/-- The buffer of a request that takes none of its buffers out of its `Arc`. -/
def lent : CollectiveDispatch → Option GpuRef
  | send req => some req.data
  | reduce ⟨data, none, _, _⟩ => some data
  | _ => none

theorem buffers_ne_nil (req : CollectiveDispatch) : req.buffers ≠ [] := by
  cases req <;> exact List.cons_ne_nil _ _

theorem lent_mem {req : CollectiveDispatch} {r : GpuRef} (hlent : req.lent = some r) :
    r ∈ req.buffers := by
  unfold lent at hlent
  split at hlent
  · cases hlent
    exact List.mem_cons_self
  · cases hlent
    exact List.mem_cons_self
  · cases hlent

end CollectiveDispatch

/-! ### The actor -/

/-- The messages of the actor. -/
inductive CollectiveMsg
  | op (boxed : CollectiveDispatch)
  | beginGroup
  | endGroup
  | queryCapabilities
  | allReduceF32 (tensor : GpuRef) (op : ReduceOp)
  | broadcastF32 (data : GpuRef) (root : ℕ)
  deriving DecidableEq

/-- The buffers of a message. -/
def CollectiveMsg.buffers : CollectiveMsg → List GpuRef
  | op boxed => boxed.buffers
  | beginGroup | endGroup | queryCapabilities => []
  | allReduceF32 tensor _ => [tensor]
  | broadcastF32 data _ => [data]

/-- With a communicator, or without a device. -/
inductive CollectiveInner
  | real (comm : Comm) (state : DeviceState)
  | mock

/-- What goes back on the reply channels. -/
inductive Answer
  | result (res : Except GpuError Unit)
  | capabilities (caps : NcclCapabilities)

/-- What a message did: its calls, the answers sent on its reply channel, the handles alive when it
answered, and the devices (expected, got) of a warning. -/
structure Handled where
  calls : List NcclCall
  replies : List Answer
  heap : Heap
  warned : Option (ℕ × ℕ)

/-- The end of a dispatch.  What a refused one had cloned is gone; a panic takes the reply channel
with it. -/
def finish (h : Heap) : Except Refusal (Nccl Unit × Heap) → Handled
  | .error (.reply e) => ⟨[], [.result (.error e)], h, none⟩
  | .error (.panic _) => ⟨[], [], h, none⟩
  | .ok (phase, h') =>
    match phase [] with
    | (.ok (), calls) => ⟨calls, [.result (.ok ())], h', none⟩
    | (.error (.reply e), calls) => ⟨calls, [.result (.error e)], h', none⟩
    | (.error (.panic _), calls) => ⟨calls, [], h', none⟩

/-- The answers without a device. -/
def mockReply (h : Heap) : CollectiveMsg → Handled
  -- the reply channel is in the box, and the box is dropped
  | .op _ => ⟨[], [], h, none⟩
  | .queryCapabilities => ⟨[], [.capabilities .zeroed], h, none⟩
  | .beginGroup | .endGroup | .allReduceF32 .. | .broadcastF32 .. =>
    ⟨[], [.result (.error (.unrecoverable "CollectiveActor in mock mode"))], h, none⟩

/-- The typed dispatchers do not read the device state of their context, which is a dummy here. -/
def handleLegacy (comm : Comm) (h : Heap) : CollectiveMsg → Handled
  | .op _ => ⟨[], [], h, none⟩ -- unreachable
  | .beginGroup => finish h (.ok (groupStart comm, h))
  | .endGroup => finish h (.ok (groupEnd comm, h))
  | .queryCapabilities => ⟨[], [.capabilities comm.capabilities], h, none⟩
  | .allReduceF32 tensor op => finish h (AllReduceRequest.dispatch comm ⟨tensor, op⟩ h)
  | .broadcastF32 data root => finish h (BroadcastRequest.dispatch comm ⟨data, root⟩ h)

/-- The actor, with or without a device. -/
def handle (h : Heap) : CollectiveInner → CollectiveMsg → Handled
  | .mock, msg => mockReply h msg
  | .real comm state, .op boxed =>
    { finish h (boxed.dispatch comm h) with
      -- a device other than its own is logged and otherwise left to the dispatcher
      warned := (boxed.deviceId h).bind fun dev =>
        if dev ≠ state.deviceId then some (state.deviceId, dev) else none }
  | .real comm _, msg => handleLegacy comm h msg

/-! ### Where a dispatch ends -/

section Dispatch

variable {α β : Type} {h : Heap} {r send recv : GpuRef} {text : String} {comm : Comm}
  {req : CollectiveDispatch}

theorem accessOwned_refused (hr : r ∈ h.refs) (text : String) :
    Refused (accessOwned r text) h :=
  refused_of_unwrap hr text _

/-- The clone of the send buffer is one more handle, and takes none away. -/
theorem accessPair_refused (hr : recv ∈ h.refs) (text : String) :
    Refused (accessPair send recv text) h :=
  refused_of_accessClone ((accessOwned_refused (h := h.clone _) hr text).bind _)

theorem refused_of_require {check : Bool} {err : GpuError} {f : Unit → Handler β}
    (hf : Refused (f ()) h) : Refused (require check err >>= f) h := by
  cases check with
  | false => exact ⟨err, rfl⟩
  | true => exact hf

/-- A request that takes one of its buffers out of its `Arc` is refused: the handle it takes it from
is alive. -/
theorem dispatch_refused (comm : Comm) (req : CollectiveDispatch)
    (halive : ∀ r ∈ req.buffers, r ∈ h.refs) (hlent : req.lent = none) :
    Refused (req.dispatch comm) h := by
  cases req with
  | allReduce req => exact (accessOwned_refused (halive req.tensor (by simp)) _).bind _
  | allGather req => exact (accessPair_refused (halive req.recv (by simp)) _).bind _
  | reduceScatter req => exact (accessPair_refused (halive req.recv (by simp)) _).bind _
  | send req => cases hlent
  | recv req => exact (accessOwned_refused (halive req.data (by simp)) _).bind _
  | allToAll req => exact (accessPair_refused (halive req.recv (by simp)) _).bind _
  | allToAllv req =>
    exact refused_of_require ((accessPair_refused (halive req.recv (by simp)) _).bind _)
  | reduce req =>
    obtain ⟨data, recv, op, root⟩ := req
    cases recv with
    | none => cases hlent
    | some r =>
      -- the receive buffer is looked at once the send buffer has passed
      have hr : r ∈ h.refs := halive r (by simp)
      exact refused_of_accessClone ((accessOwned_refused (h := h.clone _) hr _).bind _)
  | broadcast req => exact (accessOwned_refused (halive req.data (by simp)) _).bind _

/-- What is left of a dispatch whose request lends its buffer. -/
theorem dispatch_of_lent (comm : Comm) (hlent : req.lent = some r) :
    (¬ Valid h r → Refused (req.dispatch comm) h) ∧
    (Valid h r → ∃ label c, c.buffers = [(h.inner r).slice] ∧
      req.dispatch comm h = .ok (issue comm label c, h.clone (h.inner r).slice)) := by
  cases req with
  | send req =>
    cases hlent
    refine ⟨fun hr => (refused_of_not_valid hr).bind _, fun hr => ?_⟩
    exact ⟨"send", .send ⟨_, 0, _⟩ req.peer, rfl, bind_of_ok (accessClone_of_valid hr) _⟩
  | reduce req =>
    obtain ⟨data, recv, op, root⟩ := req
    cases recv with
    | none =>
      cases hlent
      refine ⟨fun hr => (refused_of_not_valid hr).bind _, fun hr => ?_⟩
      exact ⟨"reduce", .reduce _ none op root, rfl, bind_of_ok (accessClone_of_valid hr) _⟩
    | some r => cases hlent
  | allReduce | allGather | reduceScatter | recv | allToAll | allToAllv | broadcast => cases hlent

/-- A dispatch answers an error before any call, or comes to a single call on the buffer that its
request lends. -/
theorem dispatch_cases (comm : Comm) (req : CollectiveDispatch)
    (halive : ∀ r ∈ req.buffers, r ∈ h.refs) :
    ((∀ r, req.lent = some r → ¬ Valid h r) ∧ Refused (req.dispatch comm) h) ∨
    ∃ r label c, req.lent = some r ∧ Valid h r ∧ c.buffers = [(h.inner r).slice] ∧
      req.dispatch comm h = .ok (issue comm label c, h.clone (h.inner r).slice) := by
  cases hlent : req.lent with
  | none =>
    left
    exact ⟨fun r hr => (Option.some_ne_none r hr.symm).elim,
      dispatch_refused comm req halive hlent⟩
  | some r =>
    obtain ⟨hstale, hlends⟩ := dispatch_of_lent (h := h) comm hlent
    by_cases hvalid : Valid h r
    · right
      obtain ⟨label, c, hc, hrun⟩ := hlends hvalid
      exact ⟨r, label, c, rfl, hvalid, hc, hrun⟩
    · left
      refine ⟨fun r' hr' => ?_, hstale hvalid⟩
      cases hr'
      exact hvalid

end Dispatch

/-! ### Deliveries -/

/-- A message in the mailbox, the handles that are alive when it is handled, and the device that
each was allocated on. -/
structure Delivery where
  heap : Heap
  msg : CollectiveMsg
  device : GpuRef → ℕ
  device_eq : ∀ r st, heap.state r = some st → st.deviceId = device r
  alive : ∀ r ∈ msg.buffers, r ∈ heap.refs

/-- No call, and one answer, an error. -/
structure Handled.Rejected (y : Handled) : Prop where
  calls_eq : y.calls = []
  reply : ∃ e, y.replies = [.result (.error e)]

/-- Only a boxed request can lend its buffer. -/
def CollectiveMsg.lent : CollectiveMsg → Option GpuRef
  | op boxed => boxed.lent
  | _ => none

/-- Whether a message is a boxed request. -/
def CollectiveMsg.boxed : CollectiveMsg → Bool
  | op _ => true
  | _ => false

namespace Delivery

variable (x : Delivery)

def handle (inner : CollectiveInner) : Handled := Collective.handle x.heap inner x.msg

/-- A buffer of the message belongs to another device. -/
def Foreign (d : ℕ) : Prop := ∃ r ∈ x.msg.buffers, x.device r ≠ d

/-- The message is a send or a reduction without receive buffer, and its buffer is valid. -/
def Reaches : Prop := ∃ r, x.msg.lent = some r ∧ Valid x.heap r

end Delivery

section Actor

variable {comm : Comm} {state : DeviceState} {x : Delivery} {h : Heap} {d : ℕ}

/-- A dispatch that comes to a single call. -/
theorem finish_issue (h h' : Heap) (comm : Comm) (label : String) (c : NcclCall) :
    finish h (.ok (issue comm label c, h')) = ⟨[c], [.result ((comm.call [] c).mapError fun e =>
      .libraryError "nccl" (label ++ ": " ++ e))], h', none⟩ := by
  cases hcall : comm.call [] c with
  | error e => simp only [finish, issue, hcall, Except.mapError, List.nil_append]
  | ok a => simp only [finish, issue, hcall, Except.mapError, List.nil_append]

@[simp] theorem finish_warned (h : Heap) (z : Except Refusal (Nccl Unit × Heap)) :
    (finish h z).warned = none := by
  rcases z with (e | e) | ⟨phase, h'⟩
  · rfl
  · rfl
  · rcases hphase : phase [] with ⟨(e | e) | a, calls⟩ <;> simp only [finish, hphase]

theorem finish_rejected {z : Handler (Nccl Unit)} (hz : Refused z h) :
    (finish h (z h)).Rejected := by
  obtain ⟨e, he⟩ := hz
  rw [he]
  exact ⟨rfl, e, rfl⟩

/-- A message with buffers that does not reach NCCL is rejected. -/
theorem real_rejected (comm : Comm) (state : DeviceState) (hbuf : x.msg.buffers ≠ [])
    (hreach : ¬ x.Reaches) : (x.handle (.real comm state)).Rejected := by
  obtain ⟨heap, msg, device, hdevice, halive⟩ := x
  cases msg with
  | op boxed =>
    rcases dispatch_cases comm boxed halive with ⟨-, hrefused⟩ | ⟨r, label, c, hlent, hvalid, -⟩
    · have hfinish := finish_rejected hrefused
      exact ⟨hfinish.calls_eq, hfinish.reply⟩
    · exact absurd ⟨r, hlent, hvalid⟩ hreach
  | beginGroup | endGroup | queryCapabilities => exact absurd rfl hbuf
  | allReduceF32 tensor op =>
    exact finish_rejected (dispatch_refused comm (.allReduce ⟨tensor, op⟩) halive rfl)
  | broadcastF32 data root =>
    exact finish_rejected (dispatch_refused comm (.broadcast ⟨data, root⟩) halive rfl)

/-- A message that reaches NCCL hands it the address of its buffer, whatever the device. -/
theorem real_reaches (comm : Comm) (state : DeviceState) (hreach : x.Reaches) :
    ∃ r ∈ x.msg.buffers, ∃ c, c.buffers = [(x.heap.inner r).slice] ∧
      (x.handle (.real comm state)).calls = [c] ∧
      (x.handle (.real comm state)).replies.length = 1 := by
  obtain ⟨heap, msg, device, hdevice, halive⟩ := x
  obtain ⟨r, hlent, hvalid⟩ := hreach
  cases msg with
  | op boxed =>
    obtain ⟨label, c, hc, hrun⟩ := (dispatch_of_lent comm hlent).2 hvalid
    have hfinish : finish heap (boxed.dispatch comm heap) = _ :=
      (congrArg (finish heap) hrun).trans (finish_issue heap _ comm label c)
    refine ⟨r, boxed.lent_mem hlent, c, hc, ?_, ?_⟩
    · exact congrArg Handled.calls hfinish
    · exact congrArg (fun y => y.replies.length) hfinish
  | beginGroup | endGroup | queryCapabilities | allReduceF32 | broadcastF32 => cases hlent

/-- An actor with a communicator answers every message once. -/
theorem real_replies (x : Delivery) (comm : Comm) (state : DeviceState) :
    (x.handle (.real comm state)).replies.length = 1 := by
  by_cases hreach : x.Reaches
  · obtain ⟨r, -, c, -, -, hlen⟩ := real_reaches comm state hreach
    exact hlen
  by_cases hbuf : x.msg.buffers = []
  · obtain ⟨heap, msg, device, hdevice, halive⟩ := x
    cases msg with
    | op boxed => exact absurd hbuf boxed.buffers_ne_nil
    | beginGroup =>
      exact congrArg (fun y => y.replies.length) (finish_issue heap heap comm "group_start" _)
    | endGroup =>
      exact congrArg (fun y => y.replies.length) (finish_issue heap heap comm "group_end" _)
    | queryCapabilities => rfl
    | allReduceF32 | broadcastF32 => cases hbuf
  · obtain ⟨e, he⟩ := (real_rejected comm state hbuf hreach).reply
    rw [he]
    rfl

/-- In mock mode nothing is called, and only a boxed request goes without an answer. -/
theorem mock_replies (x : Delivery) :
    (x.handle .mock).calls = [] ∧
      (x.handle .mock).replies.length = if x.msg.boxed then 0 else 1 := by
  obtain ⟨heap, msg, device, hdevice, halive⟩ := x
  cases msg <;> exact ⟨rfl, rfl⟩

/-- A warning is about a buffer of another device. -/
theorem foreign_of_warned {w : ℕ × ℕ}
    (hw : (x.handle (.real comm state)).warned = some w) : x.Foreign state.deviceId := by
  obtain ⟨heap, msg, device, hdevice, halive⟩ := x
  cases msg with
  | op boxed =>
    obtain ⟨dev, hdev, hne⟩ := Option.bind_eq_some_iff.1 hw
    obtain ⟨r, hr, hst⟩ := List.exists_of_findSome?_eq_some hdev
    obtain ⟨st, hstate, rfl⟩ := Option.map_eq_some_iff.1 hst
    refine ⟨r, hr, fun heq => ?_⟩
    rw [if_neg (by simpa [hdevice r st hstate] using heq)] at hne
    cases hne
  | queryCapabilities => cases hw
  | beginGroup | endGroup | allReduceF32 | broadcastF32 =>
    simp only [Delivery.handle, Collective.handle, handleLegacy, finish_warned, reduceCtorEq] at hw

theorem Delivery.Foreign.buffers_ne_nil (hx : x.Foreign d) : x.msg.buffers ≠ [] := by
  obtain ⟨r, hr, -⟩ := hx
  exact List.ne_nil_of_mem hr

/-- A message with a buffer of another device is rejected exactly when it does not reach NCCL. -/
theorem rejected_iff (comm : Comm) (state : DeviceState) (hx : x.Foreign d) :
    (x.handle (.real comm state)).Rejected ↔ ¬ x.Reaches := by
  constructor
  · intro hrej hreach
    obtain ⟨r, -, c, -, hcalls, -⟩ := real_reaches comm state hreach
    exact absurd (hcalls.symm.trans hrej.calls_eq) (by simp)
  · exact real_rejected comm state hx.buffers_ne_nil

/-- **A message with a buffer of another device is rejected without a call, unless it lends NCCL a
single buffer that is valid there.  An actor with a communicator answers every message once; in mock
mode there is no call, a boxed request is dropped with its reply channel and every other message is
answered once.** -/
theorem foreign_rejected (x : Delivery) (comm : Comm) (state : DeviceState) :
    (x.Foreign state.deviceId → ¬ x.Reaches → (x.handle (.real comm state)).Rejected) ∧
      (x.handle (.real comm state)).replies.length = 1 ∧
      (x.handle .mock).calls = [] ∧
      (x.handle .mock).replies.length = if x.msg.boxed then 0 else 1 := by
  obtain ⟨hcalls, hreplies⟩ := mock_replies x
  exact ⟨fun hx => (rejected_iff comm state hx).2, real_replies x comm state, hcalls, hreplies⟩

/-- One buffer on each of two devices. -/
def twoDevices : Heap where
  refs := [0, 1]
  inner := fun r => ⟨⟨r, r, 4⟩, 1⟩
  state := fun r => some ⟨r, 1, true, some r, ⟨0, 0⟩⟩
  slices := []

theorem twoDevices_deviceId : ∀ r st, twoDevices.state r = some st → st.deviceId = r := by
  intro r st hst
  cases hst
  rfl

/-- A communicator of two ranks on which every call succeeds. -/
def pair : Comm := ⟨2, fun _ _ => .ok (), .zeroed, documentedSlice⟩

/-- A gather from device 0 into the buffer of device 1. -/
def gatherIntoOne : Delivery where
  heap := twoDevices
  msg := .op (.allGather ⟨0, 1⟩)
  device := fun r => r
  device_eq := twoDevices_deviceId
  alive := fun _ hr => hr

/-- `device_id` reports the buffer of device 0, so that there is no warning. -/
theorem gatherIntoOne_rejected :
    gatherIntoOne.Foreign 0 ∧ (gatherIntoOne.handle (.real pair (.new 0))).Rejected ∧
      (gatherIntoOne.handle (.real pair (.new 0))).warned = none := by
  have hforeign : gatherIntoOne.Foreign 0 :=
    ⟨1, List.mem_cons_of_mem _ List.mem_cons_self, Nat.one_ne_zero⟩
  refine ⟨hforeign, (foreign_rejected gatherIntoOne pair (.new 0)).1 hforeign ?_, rfl⟩
  rintro ⟨r, hlent, -⟩
  cases hlent

/-- A send of the buffer of device 1. -/
def sendFromOne : Delivery where
  heap := twoDevices
  msg := .op (.send ⟨1, 1⟩)
  device := fun r => r
  device_eq := twoDevices_deviceId
  alive := fun _ hr => List.mem_cons_of_mem _ hr

/-- The actor of device 0 sends the buffer of device 1, with a warning and an Ok; in mock mode the
sender of the request hears nothing. -/
theorem foreign_send_issued :
    (¬ ∀ (x : Delivery) (comm : Comm) (state : DeviceState), x.Foreign state.deviceId →
      (x.handle (.real comm state)).Rejected) ∧
    (¬ ∀ x : Delivery, (x.handle .mock).replies.length = 1) ∧
    (sendFromOne.handle (.real pair (.new 0))).calls = [.send ⟨⟨1, 1, 4⟩, 0, 4⟩ 1] ∧
    (sendFromOne.handle (.real pair (.new 0))).replies = [.result (.ok ())] ∧
    (sendFromOne.handle (.real pair (.new 0))).warned = some (0, 1) := by
  refine ⟨fun hall => ?_, fun hall => ?_, rfl, rfl, rfl⟩
  · have hforeign : sendFromOne.Foreign (DeviceState.new 0).deviceId :=
      ⟨1, List.mem_singleton.2 rfl, Nat.one_ne_zero⟩
    have hcalls := (hall sendFromOne pair (.new 0) hforeign).calls_eq
    cases hcalls
  · have hlen := hall sendFromOne
    cases hlen

end Actor

end Collective

end AtomrAccel
