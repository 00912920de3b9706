import AtomrAccel.Device.Error

/-!
# `DeviceState` and `GpuRef`

`DeviceState` is the part of a device that survives the restarts of its `ContextActor`: the
generation counter, the flag set at shutdown, the installed context and the sender side of the
generation watch.  A `GpuRef` remembers the generation at which it was minted, and `access`
compares that stamp with the counter before it hands out the slice.

The three cells are written by separate calls (`bumpGeneration`, `installContext`,
`clearContext`, `beginShutdown`), each an operation of its own here.
-/

namespace AtomrAccel

/-- One incarnation of a CUDA context. -/
abbrev CtxId := ℕ

/-- A device buffer: its address, the context it was allocated from, its length in elements. -/
structure CudaSlice where
  addr : ℕ
  ctx : CtxId
  len : ℕ
  deriving DecidableEq, Repr

/-- `watch::Sender<u64>`: the stored value and the number of live receivers. -/
structure Watch where
  value : UInt64
  receivers : ℕ
  deriving DecidableEq, Repr

/-- `Sender::send` stores the value only when a receiver is alive. -/
def Watch.send (w : Watch) (v : UInt64) : Watch :=
  if w.receivers = 0 then w else { w with value := v }

@[simp] theorem Watch.send_receivers (w : Watch) (v : UInt64) :
    (w.send v).receivers = w.receivers := by
  unfold send
  split_ifs <;> rfl

theorem Watch.send_of_receivers {w : Watch} (h : w.receivers ≠ 0) (v : UInt64) :
    (w.send v).value = v := by
  rw [send, if_neg h]

theorem Watch.send_of_no_receivers {w : Watch} (h : w.receivers = 0) (v : UInt64) :
    w.send v = w := if_pos h

/-- The state that all references to one device share. -/
structure DeviceState where
  deviceId : ℕ
  generation : UInt64
  acceptingOps : Bool
  currentCtx : Option CtxId
  generationTx : Watch
  deriving DecidableEq, Repr

namespace DeviceState

/-- Generation `0`, without a context. -/
def new (deviceId : ℕ) : DeviceState :=
  { deviceId := deviceId
    generation := 0
    acceptingOps := true
    currentCtx := none
    -- the receiver created with the channel is dropped at once
    generationTx := ⟨0, 0⟩ }

/-- `fetch_add` wraps at `2^64`; the new value is then offered to the watch. -/
def bumpGeneration (st : DeviceState) : DeviceState :=
  let new := st.generation + 1
  { st with generation := new, generationTx := st.generationTx.send new }

/-- No operation is accepted any more. -/
def beginShutdown (st : DeviceState) : DeviceState := { st with acceptingOps := false }

/-- The context is there, and operations are accepted. -/
def installContext (st : DeviceState) (ctx : CtxId) : DeviceState :=
  { st with currentCtx := some ctx }

/-- The context is gone. -/
def clearContext (st : DeviceState) : DeviceState := { st with currentCtx := none }

/-- `generation_watch`: one more receiver. -/
def subscribe (st : DeviceState) : DeviceState :=
  { st with generationTx := { st.generationTx with receivers := st.generationTx.receivers + 1 } }

/-- A receiver of the watch goes away. -/
def dropReceiver (st : DeviceState) : DeviceState :=
  { st with generationTx := { st.generationTx with receivers := st.generationTx.receivers - 1 } }

section Fields

variable (st : DeviceState) (ctx : CtxId)

@[simp] theorem bumpGeneration_generation : st.bumpGeneration.generation = st.generation + 1 := rfl
@[simp] theorem bumpGeneration_acceptingOps :
    st.bumpGeneration.acceptingOps = st.acceptingOps := rfl
@[simp] theorem bumpGeneration_currentCtx : st.bumpGeneration.currentCtx = st.currentCtx := rfl
@[simp] theorem beginShutdown_acceptingOps : st.beginShutdown.acceptingOps = false := rfl
@[simp] theorem beginShutdown_currentCtx : st.beginShutdown.currentCtx = st.currentCtx := rfl
@[simp] theorem installContext_generation :
    (st.installContext ctx).generation = st.generation := rfl
@[simp] theorem installContext_acceptingOps :
    (st.installContext ctx).acceptingOps = st.acceptingOps := rfl
@[simp] theorem installContext_currentCtx : (st.installContext ctx).currentCtx = some ctx := rfl
@[simp] theorem clearContext_generation : st.clearContext.generation = st.generation := rfl
@[simp] theorem clearContext_acceptingOps : st.clearContext.acceptingOps = st.acceptingOps := rfl
@[simp] theorem clearContext_currentCtx : st.clearContext.currentCtx = none := rfl

end Fields

end DeviceState

/-- The contents of a `GpuRef`; all clones of a `GpuRef` share one of these. -/
structure GpuRefInner where
  slice : CudaSlice
  generation : UInt64
  deriving DecidableEq, Repr

namespace GpuRefInner

/-- `GpuRef::new` stamps the generation of the minting moment. -/
def new (slice : CudaSlice) (state : DeviceState) : GpuRefInner :=
  ⟨slice, state.generation⟩

/-- `GpuRef::access`; `upgraded` is the result of upgrading the weak reference to the state. -/
def access (r : GpuRefInner) (upgraded : Option DeviceState) : Except GpuError CudaSlice :=
  match upgraded with
  | none => .error (.gpuRefStale "device state dropped")
  | some state =>
    if !state.acceptingOps then .error (.gpuRefStale "device shutting down")
    else if state.generation ≠ r.generation then .error (.gpuRefStale "context rebuilt")
    else .ok r.slice

/-- Exactly when `access` succeeds, and with what. -/
theorem access_eq_ok {r : GpuRefInner} {upgraded : Option DeviceState} {s : CudaSlice} :
    r.access upgraded = .ok s ↔
      ∃ st, upgraded = some st ∧ st.acceptingOps = true ∧ r.generation = st.generation ∧
        s = r.slice := by
  cases upgraded with
  | none => simp [access]
  | some st =>
    constructor
    · intro h
      simp only [access] at h
      split_ifs at h with hacc hgen
      exact ⟨st, rfl, by simpa using hacc, (not_not.1 hgen).symm, (Except.ok.inj h).symm⟩
    · rintro ⟨st', hst, hacc, hgen, rfl⟩
      cases hst
      simp [access, hacc, hgen]

end GpuRefInner

end AtomrAccel
