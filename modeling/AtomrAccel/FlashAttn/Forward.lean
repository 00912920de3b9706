import AtomrAccel.FlashAttn.Dispatch

/-!
# The forward requests of FlashAttention

Three request types check their arguments, and each fills in a dispatch key by hand.  The request
for `fp8` has an element type for `Q` and another for `K` and `V`; the key has one.

* `Fa2FwdRequest`, `Fa3FwdRequest`, `Fa3FwdFp8Request`: the requests with `new` and `computeKey`;
* `FwdRequest`: a request of any of the three types, `Operands` what its kernel is compiled for;
* `accepted_resolves`: what a constructor accepts is resolved to a name;
* `computeKey_eq_iff`: the keys of two requests say all but the type of `K` and `V`;
* `names_determine_iff`: so two requests with one name have the same operands, unless they differ
  in that type and in nothing else.
-/

namespace AtomrAccel

namespace FlashAttn

/-- Why a request is refused. -/
inductive FlashAttnError
  | dispatch (e : DispatchError)
  | fa3RequiresHopper (arch : SmArch)
  | fp8MustUseFp8Request
  | emptyBatch
  | zeroSeqlen
  | seqlenOverflow
  deriving DecidableEq, Repr

/-- The bias by position. -/
inductive PositionBias
  | none
  | alibi
  deriving DecidableEq, Repr

def PositionBias.requiresAlibiFlag : PositionBias → Bool
  | none => false
  | alibi => true

/-- Which keys a query sees. -/
inductive MaskKind
  | full
  | causal
  | slidingCausal (window : UInt32)
  | slidingFull (window : UInt32)
  deriving DecidableEq, Repr

namespace MaskKind

/-- Whether later keys are hidden. -/
def isCausal : MaskKind → Bool
  | causal | slidingCausal _ => true
  | full | slidingFull _ => false

/-- How many keys a query sees at most. -/
def slidingWindow : MaskKind → Option UInt32
  | slidingCausal window | slidingFull window => some window
  | full | causal => none

end MaskKind

/-- How the blocks of a launch are laid out. -/
inductive PersistentMode
  | grid
  | persistent (numSms : UInt32)
  deriving DecidableEq, Repr

/-! ### The three request types -/

/-- A request, with `T::dtype()`. -/
structure Fa2FwdRequest where
  dtype : DType
  arch : SmArch
  headDim : UInt32
  gqaRatio : UInt32
  mask : MaskKind
  bias : PositionBias
  sinkTokens : UInt32
  deriving DecidableEq, Repr

namespace Fa2FwdRequest

def computeKey (r : Fa2FwdRequest) : DispatchKey where
  arch := r.arch
  dtype := r.dtype
  headDim := r.headDim
  causal := r.mask.isCausal
  varlen := false
  slidingWindow := r.mask.slidingWindow
  alibi := r.bias.requiresAlibiFlag
  sink := r.sinkTokens
  paged := false
  gqaRatio := r.gqaRatio

/-- The arguments come as the request they make. -/
def new (r : Fa2FwdRequest) : Except FlashAttnError Fa2FwdRequest := do
  r.computeKey.validateFwd.mapError .dispatch
  return r

end Fa2FwdRequest

/-- A forward request of the third generation. -/
structure Fa3FwdRequest where
  dtype : DType
  arch : SmArch
  headDim : UInt32
  gqaRatio : UInt32
  mask : MaskKind
  bias : PositionBias
  sinkTokens : UInt32
  persistent : PersistentMode
  deriving DecidableEq, Repr

namespace Fa3FwdRequest

def computeKey (r : Fa3FwdRequest) : DispatchKey where
  arch := r.arch
  dtype := r.dtype
  headDim := r.headDim
  causal := r.mask.isCausal
  varlen := false
  slidingWindow := r.mask.slidingWindow
  alibi := r.bias.requiresAlibiFlag
  sink := r.sinkTokens
  paged := false
  gqaRatio := r.gqaRatio

def new (r : Fa3FwdRequest) : Except FlashAttnError Fa3FwdRequest :=
  if !r.arch.supportsFa3 then .error (.fa3RequiresHopper r.arch)
  else if r.dtype = .f8E4m3 ∨ r.dtype = .f8E5m2 then .error .fp8MustUseFp8Request
  else do
    r.computeKey.validateFwd.mapError .dispatch
    return r

end Fa3FwdRequest

/-- A request, with `TQ::dtype()` and `TKV::dtype()`. -/
structure Fa3FwdFp8Request where
  qType : DType
  kvType : DType
  arch : SmArch
  headDim : UInt32
  gqaRatio : UInt32
  mask : MaskKind
  sinkTokens : UInt32
  persistent : PersistentMode
  deriving DecidableEq, Repr

namespace Fa3FwdFp8Request

def computeKey (r : Fa3FwdFp8Request) : DispatchKey where
  arch := r.arch
  dtype := r.qType
  headDim := r.headDim
  causal := r.mask.isCausal
  varlen := false
  slidingWindow := r.mask.slidingWindow
  alibi := false
  sink := r.sinkTokens
  paged := false
  gqaRatio := r.gqaRatio

def new (r : Fa3FwdFp8Request) : Except FlashAttnError Fa3FwdFp8Request :=
  if !r.arch.supportsFp8 then .error (.dispatch (.fp8RequiresHopper r.arch))
  else if !r.qType.isFp8 ∨ !r.kvType.isFp8 then .error .fp8MustUseFp8Request
  else do
    r.computeKey.validateFwd.mapError .dispatch
    return r

end Fa3FwdFp8Request

/-! ### Requests and their kernels -/

/-- The forward requests. -/
inductive FwdRequest
  | fa2 (r : Fa2FwdRequest)
  | fa3 (r : Fa3FwdRequest)
  | fa3Fp8 (r : Fa3FwdFp8Request)
  deriving DecidableEq, Repr

/-- What a kernel is compiled for. -/
@[ext] structure Operands where
  qType : DType
  kvType : DType
  headDim : UInt32
  causal : Bool
  slidingWindow : Option UInt32
  alibi : Bool
  sink : UInt32
  gqaRatio : UInt32
  deriving DecidableEq, Repr

/-- A validator whose error is passed on has accepted. -/
theorem validateFwd_of_mapError {α : Type} {x : Except DispatchError Unit} {a : α}
    (h : (do x.mapError FlashAttnError.dispatch; return a) = .ok a) : x = .ok () := by
  cases x with
  | error e => cases h
  | ok u => rfl

namespace FwdRequest

/-- `dispatch_key`. -/
def dispatchKey : FwdRequest → DispatchKey
  | fa2 r => r.computeKey
  | fa3 r => r.computeKey
  | fa3Fp8 r => r.computeKey

/-- The constructor of its type takes the request. -/
def Accepted : FwdRequest → Prop
  | fa2 r => r.new = .ok r
  | fa3 r => r.new = .ok r
  | fa3Fp8 r => r.new = .ok r

instance : DecidablePred Accepted
  | fa2 r => inferInstanceAs (Decidable (r.new = .ok r))
  | fa3 r => inferInstanceAs (Decidable (r.new = .ok r))
  | fa3Fp8 r => inferInstanceAs (Decidable (r.new = .ok r))

/-- `lookup` of the request's key; `fp8` is the crate feature. -/
def resolve (fp8 : Bool) (r : FwdRequest) : Except DispatchError String :=
  (DispatchTable.build fp8).lookup r.dispatchKey

/-- The element type of `K` and `V`. -/
def kvType : FwdRequest → DType
  | fa2 r => r.dtype
  | fa3 r => r.dtype
  | fa3Fp8 r => r.kvType

/-- What a request says of its operands. -/
def operands : FwdRequest → Operands
  | fa2 r => ⟨r.dtype, r.dtype, r.headDim, r.mask.isCausal, r.mask.slidingWindow,
      r.bias.requiresAlibiFlag, r.sinkTokens, r.gqaRatio⟩
  | fa3 r => ⟨r.dtype, r.dtype, r.headDim, r.mask.isCausal, r.mask.slidingWindow,
      r.bias.requiresAlibiFlag, r.sinkTokens, r.gqaRatio⟩
  | fa3Fp8 r => ⟨r.qType, r.kvType, r.headDim, r.mask.isCausal, r.mask.slidingWindow, false,
      r.sinkTokens, r.gqaRatio⟩

/-- Two requests for one generation that differ in the type of `K` and `V` at most. -/
def SameButKv (r r' : FwdRequest) : Prop :=
  r.dispatchKey.arch.supportsFa3 = r'.dispatchKey.arch.supportsFa3 ∧
    { r.operands with kvType := r'.kvType } = r'.operands

variable {fp8 : Bool} {r r' : FwdRequest}

/-- A constructor runs the forward validator. -/
theorem Accepted.validateFwd (h : r.Accepted) : r.dispatchKey.validateFwd = .ok () := by
  cases r with
  | fa2 r => exact validateFwd_of_mapError h
  | fa3 r =>
    simp only [Accepted, Fa3FwdRequest.new] at h
    split_ifs at h
    exact validateFwd_of_mapError h
  | fa3Fp8 r =>
    simp only [Accepted, Fa3FwdFp8Request.new] at h
    split_ifs at h
    exact validateFwd_of_mapError h

/-- What the constructor takes is resolved, to the name built from its key. -/
theorem Accepted.resolve_eq (h : r.Accepted) :
    r.resolve fp8 = .ok r.dispatchKey.kernelName := by
  rw [resolve, DispatchTable.lookup_eq, h.validateFwd]
  rfl

/-- The key of a request is its architecture with all operands but the type of `K` and `V`. -/
theorem dispatchKey_eq (r : FwdRequest) :
    r.dispatchKey = ⟨r.dispatchKey.arch, r.operands.qType, r.operands.headDim, r.operands.causal,
      false, r.operands.slidingWindow, r.operands.alibi, r.operands.sink, false,
      r.operands.gqaRatio⟩ := by
  cases r <;> rfl

theorem operands_kvType (r : FwdRequest) : r.operands.kvType = r.kvType := by
  cases r <;> rfl

/-- The keys select one kernel exactly when nothing differs but the type of `K` and `V`. -/
theorem sameKernel_iff : r.dispatchKey.SameKernel r'.dispatchKey ↔ r.SameButKv r' := by
  unfold DispatchKey.SameKernel SameButKv
  apply and_congr_right
  intro _
  rw [dispatchKey_eq r, dispatchKey_eq r', ← operands_kvType r']
  simp [Operands.ext_iff]

theorem Accepted.names_eq_iff (h : r.Accepted) (h' : r'.Accepted) :
    r.dispatchKey.kernelName = r'.dispatchKey.kernelName ↔ r.SameButKv r' := by
  rw [DispatchKey.kernelName_eq_iff (gqaRatio_ne_zero h.validateFwd)
    (gqaRatio_ne_zero h'.validateFwd), sameKernel_iff]

end FwdRequest

/-- What a constructor takes is resolved to a name; and a name determines the operands of its
requests, for requests of one generation, exactly where no two of them differ in the type of `K` and
`V` alone. -/
theorem names_determine_iff (fp8 : Bool) :
    (∀ r : FwdRequest, r.Accepted → ∃ name, r.resolve fp8 = .ok name) ∧
    ∀ r r' : FwdRequest,
      (r.Accepted → r'.Accepted →
        r.dispatchKey.arch.supportsFa3 = r'.dispatchKey.arch.supportsFa3 →
        ∀ name, r.resolve fp8 = .ok name → r'.resolve fp8 = .ok name →
          r.operands = r'.operands) ↔
      (r.Accepted → r'.Accepted → r.SameButKv r' → r.kvType = r'.kvType) := by
  refine ⟨fun r h => ⟨_, h.resolve_eq⟩, fun r r' => ?_⟩
  constructor
  · intro hdetermine h h' hsame
    have hname := (h.names_eq_iff h').2 hsame
    have hoperands := hdetermine h h' hsame.1 _ h.resolve_eq (hname ▸ h'.resolve_eq)
    rw [← FwdRequest.operands_kvType, ← FwdRequest.operands_kvType, hoperands]
  · intro hkv h h' _ name hr hr'
    have hname : r.dispatchKey.kernelName = r'.dispatchKey.kernelName :=
      (Except.ok.inj (h.resolve_eq.symm.trans hr)).trans
        (Except.ok.inj (h'.resolve_eq.symm.trans hr')).symm
    have hsame := (h.names_eq_iff h').1 hname
    have hrest := hsame.2
    rw [← hkv h h' hsame, ← FwdRequest.operands_kvType] at hrest
    exact hrest

/-- An `fp8` request on Hopper, with `e4m3` queries. -/
def fp8Request (kvType : DType) : FwdRequest :=
  .fa3Fp8 ⟨.f8E4m3, kvType, .sm90a, 128, 8, .causal, 0, .grid⟩

/-- Keys and values in `e4m3` and in `e5m2` are given one kernel. -/
theorem kv_types_share_kernel :
    (¬ ∀ r r' : FwdRequest, r.Accepted → r'.Accepted →
      r.dispatchKey.arch.supportsFa3 = r'.dispatchKey.arch.supportsFa3 →
      ∀ name, r.resolve true = .ok name → r'.resolve true = .ok name →
        r.operands = r'.operands) ∧
    (fp8Request .f8E4m3).Accepted ∧ (fp8Request .f8E5m2).Accepted ∧
    (fp8Request .f8E4m3).resolve true =
      .ok "atomr_flashattn::fa3::fwd<e4m3, 128, causal>_gqa8" ∧
    (fp8Request .f8E5m2).resolve true =
      .ok "atomr_flashattn::fa3::fwd<e4m3, 128, causal>_gqa8" ∧
    (fp8Request .f8E4m3).operands ≠ (fp8Request .f8E5m2).operands := by
  have h : (fp8Request .f8E4m3).Accepted := by decide
  have h' : (fp8Request .f8E5m2).Accepted := by decide
  have hdiffer : (fp8Request .f8E4m3).operands ≠ (fp8Request .f8E5m2).operands := by decide
  refine ⟨fun hall => ?_, h, h', ?_, ?_, hdiffer⟩
  · exact hdiffer (hall _ _ h h' rfl _ h.resolve_eq h'.resolve_eq)
  · rw [h.resolve_eq]
    decide
  · rw [h'.resolve_eq]
    decide

end FlashAttn

end AtomrAccel
