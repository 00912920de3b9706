import AtomrAccel.Lib.Delimited
import AtomrAccel.Lib.Lru
import AtomrAccel.Device.Error

/-!
# `PlanCache`: cuTENSOR plans and their keys

The tensor actor builds a cuTENSOR plan for a request unless the cache holds one under the
request's key.  Five builders make the keys, and five others make the plans.  A key hashes the
modes of all operands as one vector and their extents as another, with a separator between
operands, and mixes the operators into the tag of the compute descriptor.

* `OperandSpec`, `Request`: contractions, reductions, binary and trinary elementwise operations and
  permutations;
* `key`, from the key builders, and `planArgs`, from the plan builders;
* `execute`, `run`: the actor's use of the cache, over a list of requests;
* `Agree`, `planArgs_eq_iff`: of two requests with one key, the plans agree exactly when the
  operands' ranks and strides and the operators do;
* `plans_own`: a run whose requests agree whenever they share a key hands each its own plan.
-/

namespace AtomrAccel

namespace Tensor

/-- The element types with `TensorSupported`. -/
inductive TensorDtype
  | f32
  | f64
  | f16
  | bf16
  deriving DecidableEq, Repr

/-- `AccelDtype::NAME`. -/
def TensorDtype.name : TensorDtype → String
  | f32 => "f32"
  | f64 => "f64"
  | f16 => "f16"
  | bf16 => "bf16"

/-- The element types. -/
inductive CudaDataType
  | cudaR32F
  | cudaR64F
  | cudaR16F
  | cudaR16BF
  deriving DecidableEq, Repr

/-- The element type as cuTENSOR names it. -/
def TensorDtype.cudaDataType : TensorDtype → CudaDataType
  | f32 => .cudaR32F
  | f64 => .cudaR64F
  | f16 => .cudaR16F
  | bf16 => .cudaR16BF

/-- The types that are computed in. -/
inductive ComputeDesc
  | f32
  | f64
  | minF32
  | minF64
  | minF16
  | minBf16
  | tf32
  | c32F
  deriving DecidableEq, Repr

/-- `compute_desc_tag`. -/
def computeDescTag : ComputeDesc → UInt32
  | .f32 => 0x01
  | .f64 => 0x02
  | .minF32 => 0x04
  | .minF64 => 0x08
  | .minF16 => 0x10
  | .minBf16 => 0x20
  | .tf32 => 0x40
  | .c32F => 0x80

/-- The operations that have plans. -/
inductive OpKind
  | contract
  | reduce
  | elementwiseBinary
  | elementwiseTrinary
  | permutation
  deriving DecidableEq, Repr

/-- One operand, without its buffer.  No strides means dense column-major. -/
@[ext] structure OperandSpec where
  extent : List Int64
  stride : List Int64
  modes : List Int32
  deriving DecidableEq, Repr

/-- What every request has besides its operands and operators. -/
@[ext] structure Common where
  dtype : TensorDtype
  compute : ComputeDesc
  alignment : UInt32
  deriving DecidableEq, Repr

/-- The requests, over cuTENSOR's type of operators. -/
inductive Request (Op : Type)
  | contract (common : Common) (a b c : OperandSpec)
  | reduction (common : Common) (a c : OperandSpec) (opReduce : Op)
  | elementwiseBinary (common : Common) (a c d : OperandSpec) (opA opC opAc : Op)
  | elementwiseTrinary (common : Common) (a b c d : OperandSpec) (opA opB opC opAb opAbc : Op)
  | permutation (common : Common) (a b : OperandSpec) (opA : Op)
  deriving DecidableEq, Repr

/-- A key of the cache, with hashes of modes and extents. -/
structure PlanKey (M E : Type) where
  opKind : OpKind
  modesHash : M
  extentsHash : E
  alignment : UInt32
  computeDescTag : UInt32
  dtypeTag : String
  algo : Int32
  deriving DecidableEq, Repr

/-- `hash_i32s` and `hash_i64s`, taken to be injective, with values in any type. -/
structure Hashes (M E : Type) where
  hashI32s : List Int32 → M
  hashI64s : List Int64 → E
  hashI32s_injective : Function.Injective hashI32s
  hashI64s_injective : Function.Injective hashI64s

/-- What the code uses of cuTENSOR: the operators' discriminants, the identity operator and the
descriptors `resolve_compute_desc` returns. -/
structure CuTensor (Op Desc : Type) where
  asU32 : Op → UInt32
  identity : Op
  resolveComputeDesc : ComputeDesc → Desc

section Keys

variable {M E Op Desc : Type} (hashes : Hashes M E) (ct : CuTensor Op Desc)

/-- The part the key builders share. -/
def planKey (opKind : OpKind) (common : Common) (operands : List OperandSpec) (tag : UInt32)
    (algo : Int32) : PlanKey M E where
  opKind := opKind
  modesHash := hashes.hashI32s ([Int32.minValue].intercalate (operands.map (·.modes)))
  extentsHash := hashes.hashI64s ([Int64.minValue].intercalate (operands.map (·.extent)))
  alignment := common.alignment
  computeDescTag := tag
  dtypeTag := common.dtype.name
  algo := algo

/-- The key of a contraction. -/
def buildContractKey (common : Common) (a b c : OperandSpec) (algo : Int32) : PlanKey M E :=
  planKey hashes .contract common [a, b, c] (computeDescTag common.compute) algo

/-- The key of a reduction. -/
def buildReductionKey (common : Common) (a c : OperandSpec) (opReduce : Op) : PlanKey M E :=
  planKey hashes .reduce common [a, c]
    (computeDescTag common.compute ^^^ ct.asU32 opReduce * 0x9E3779B9) 0

/-- The key of an operation on two operands. -/
def buildBinaryKey (common : Common) (a c d : OperandSpec) (opA opC opAc : Op) : PlanKey M E :=
  planKey hashes .elementwiseBinary common [a, c, d]
    (computeDescTag common.compute ^^^
      (ct.asU32 opA * 0x85ebca77 ^^^ ct.asU32 opC * 0xc2b2ae3d ^^^ ct.asU32 opAc * 0x27d4eb2f)) 0

/-- The key of an operation on three operands. -/
def buildTrinaryKey (common : Common) (a b c d : OperandSpec) (opA opB opC opAb opAbc : Op) :
    PlanKey M E :=
  planKey hashes .elementwiseTrinary common [a, b, c, d]
    (computeDescTag common.compute ^^^
      (ct.asU32 opA * 0x85ebca77 ^^^ ct.asU32 opB * 0xc2b2ae3d ^^^ ct.asU32 opC * 0x27d4eb2f ^^^
        ct.asU32 opAb * 0x9e3779b9 ^^^ ct.asU32 opAbc * 0x6a09e667)) 0

/-- The key of a permutation. -/
def buildPermutationKey (common : Common) (a b : OperandSpec) (opA : Op) : PlanKey M E :=
  planKey hashes .permutation common [a, b]
    (computeDescTag common.compute ^^^ ct.asU32 opA * 0x27d4eb2f) 0

/-- The key under which a request looks for its plan. -/
def Request.key : Request Op → PlanKey M E
  | .contract common a b c => buildContractKey hashes common a b c 0
  | .reduction common a c opReduce => buildReductionKey hashes ct common a c opReduce
  | .elementwiseBinary common a c d opA opC opAc =>
    buildBinaryKey hashes ct common a c d opA opC opAc
  | .elementwiseTrinary common a b c d opA opB opC opAb opAbc =>
    buildTrinaryKey hashes ct common a b c d opA opB opC opAb opAbc
  | .permutation common a b opA => buildPermutationKey hashes ct common a b opA

end Keys

section Plans

/-- An operand as cuTENSOR gets it: a tensor descriptor, the modes and, where the call takes one,
the unary operator. -/
structure OperandArg (Op : Type) where
  extent : List Int64
  stride : Option (List Int64)
  modes : List Int32
  op : Option Op
  deriving DecidableEq, Repr

/-- Everything a plan builder passes to cuTENSOR.  The algorithm is `CUTENSOR_ALGO_DEFAULT`, without
just-in-time compilation, in every one of them. -/
structure PlanArgs (Op Desc : Type) where
  opKind : OpKind
  dataType : CudaDataType
  alignment : UInt32
  operands : List (OperandArg Op)
  binaryOps : List Op
  compute : Desc
  deriving DecidableEq, Repr

variable {Op Desc : Type} (ct : CuTensor Op Desc)

/-- The stride pointer is null when there are no strides. -/
def OperandSpec.arg (spec : OperandSpec) (op : Option Op) : OperandArg Op :=
  ⟨spec.extent, if spec.stride.isEmpty then none else some spec.stride, spec.modes, op⟩

/-- The part the plan builders share. -/
def buildPlan (opKind : OpKind) (common : Common) (operands : List (OperandSpec × Option Op))
    (binaryOps : List Op) : PlanArgs Op Desc where
  opKind := opKind
  dataType := common.dtype.cudaDataType
  alignment := common.alignment
  operands := operands.map fun o => o.1.arg o.2
  binaryOps := binaryOps
  compute := ct.resolveComputeDesc common.compute

/-- The output of a contraction and of a reduction is the operand `c` again. -/
def Request.planArgs : Request Op → PlanArgs Op Desc
  | .contract common a b c =>
    buildPlan ct .contract common
      [(a, some ct.identity), (b, some ct.identity), (c, some ct.identity), (c, none)] []
  | .reduction common a c opReduce =>
    buildPlan ct .reduce common [(a, some ct.identity), (c, some ct.identity), (c, none)]
      [opReduce]
  | .elementwiseBinary common a c d opA opC opAc =>
    buildPlan ct .elementwiseBinary common [(a, some opA), (c, some opC), (d, none)] [opAc]
  | .elementwiseTrinary common a b c d opA opB opC opAb opAbc =>
    buildPlan ct .elementwiseTrinary common
      [(a, some opA), (b, some opB), (c, some opC), (d, none)] [opAb, opAbc]
  | .permutation common a b opA =>
    buildPlan ct .permutation common [(a, some opA), (b, none)] []

end Plans

section Agree

variable {M E Op Desc : Type}

/-- The operands in the order of the key. -/
def Request.operands : Request Op → List OperandSpec
  | .contract _ a b c => [a, b, c]
  | .reduction _ a c _ => [a, c]
  | .elementwiseBinary _ a c d _ _ _ => [a, c, d]
  | .elementwiseTrinary _ a b c d _ _ _ _ _ => [a, b, c, d]
  | .permutation _ a b _ => [a, b]

/-- The operators a request chooses. -/
def Request.operators : Request Op → List Op
  | .contract _ _ _ _ => []
  | .reduction _ _ _ opReduce => [opReduce]
  | .elementwiseBinary _ _ _ _ opA opC opAc => [opA, opC, opAc]
  | .elementwiseTrinary _ _ _ _ _ opA opB opC opAb opAbc => [opA, opB, opC, opAb, opAbc]
  | .permutation _ _ _ opA => [opA]

/-- Two requests agree in what their keys leave out or mix up: the strides, where one operand ends
and the next begins, and the operators. -/
structure Agree (r₁ r₂ : Request Op) : Prop where
  strides : r₁.operands.map (·.stride) = r₂.operands.map (·.stride)
  modeRanks : r₁.operands.map (·.modes.length) = r₂.operands.map (·.modes.length)
  extentRanks : r₁.operands.map (·.extent.length) = r₂.operands.map (·.extent.length)
  operators : r₁.operators = r₂.operators

instance [DecidableEq Op] (r₁ r₂ : Request Op) : Decidable (Agree r₁ r₂) :=
  decidable_of_iff
    (r₁.operands.map (·.stride) = r₂.operands.map (·.stride) ∧
      r₁.operands.map (·.modes.length) = r₂.operands.map (·.modes.length) ∧
      r₁.operands.map (·.extent.length) = r₂.operands.map (·.extent.length) ∧
      r₁.operators = r₂.operators)
    ⟨fun h => ⟨h.1, h.2.1, h.2.2.1, h.2.2.2⟩,
      fun h => ⟨h.strides, h.modeRanks, h.extentRanks, h.operators⟩⟩

theorem computeDescTag_injective : Function.Injective computeDescTag := by
  intro c₁ c₂ h
  cases c₁ <;> cases c₂ <;> first | rfl | exact absurd h (by decide)

theorem name_injective : Function.Injective TensorDtype.name := by
  intro d₁ d₂ h
  cases d₁ <;> cases d₂ <;> first | rfl | exact absurd h (by decide)

theorem arg_injective {s₁ s₂ : OperandSpec} {o₁ o₂ : Option Op} (h : s₁.arg o₁ = s₂.arg o₂) :
    s₁ = s₂ ∧ o₁ = o₂ := by
  obtain ⟨e₁, t₁, m₁⟩ := s₁
  obtain ⟨e₂, t₂, m₂⟩ := s₂
  simp only [OperandSpec.arg, OperandArg.mk.injEq] at h
  obtain ⟨rfl, hstride, rfl, rfl⟩ := h
  have hsame : t₁ = t₂ := by
    cases t₁ <;> cases t₂ <;> simp_all
  exact ⟨hsame ▸ rfl, rfl⟩

/-! A request is determined by its kind, its common part, its operands and its operators, and its
key and its plan are built from these. -/

/-- The operation of a request. -/
def Request.opKind : Request Op → OpKind
  | .contract .. => .contract
  | .reduction .. => .reduce
  | .elementwiseBinary .. => .elementwiseBinary
  | .elementwiseTrinary .. => .elementwiseTrinary
  | .permutation .. => .permutation

/-- What all requests have. -/
def Request.common : Request Op → Common
  | .contract common .. | .reduction common .. | .elementwiseBinary common ..
  | .elementwiseTrinary common .. | .permutation common .. => common

theorem Request.ext {r₁ r₂ : Request Op} (hkind : r₁.opKind = r₂.opKind)
    (hcommon : r₁.common = r₂.common) (hoperands : r₁.operands = r₂.operands)
    (hops : r₁.operators = r₂.operators) : r₁ = r₂ := by
  cases r₁ <;> cases r₂ <;>
    simp_all [Request.opKind, Request.common, Request.operands, Request.operators]

/-- The operators, as they are mixed into the key. -/
def Request.opMix (ct : CuTensor Op Desc) : Request Op → UInt32
  | .contract .. => 0
  | .reduction _ _ _ opReduce => ct.asU32 opReduce * 0x9E3779B9
  | .elementwiseBinary _ _ _ _ opA opC opAc =>
    ct.asU32 opA * 0x85ebca77 ^^^ ct.asU32 opC * 0xc2b2ae3d ^^^ ct.asU32 opAc * 0x27d4eb2f
  | .elementwiseTrinary _ _ _ _ _ opA opB opC opAb opAbc =>
    ct.asU32 opA * 0x85ebca77 ^^^ ct.asU32 opB * 0xc2b2ae3d ^^^ ct.asU32 opC * 0x27d4eb2f ^^^
      ct.asU32 opAb * 0x9e3779b9 ^^^ ct.asU32 opAbc * 0x6a09e667
  | .permutation _ _ _ opA => ct.asU32 opA * 0x27d4eb2f

theorem Request.key_eq (hashes : Hashes M E) (ct : CuTensor Op Desc) (r : Request Op) :
    r.key hashes ct = planKey hashes r.opKind r.common r.operands
      (computeDescTag r.common.compute ^^^ r.opMix ct) 0 := by
  cases r with
  | contract common a b c =>
    simp only [key, buildContractKey, opMix, UInt32.xor_zero]
    rfl
  | reduction common a c opReduce => rfl
  | elementwiseBinary common a c d opA opC opAc => rfl
  | elementwiseTrinary common a b c d opA opB opC opAb opAbc => rfl
  | permutation common a b opA => rfl

theorem Request.opMix_eq (ct : CuTensor Op Desc) {r₁ r₂ : Request Op}
    (hkind : r₁.opKind = r₂.opKind) (hops : r₁.operators = r₂.operators) :
    r₁.opMix ct = r₂.opMix ct := by
  cases r₁ <;> cases r₂ <;> simp_all [Request.opKind, Request.operators, Request.opMix]

theorem operands_ext {os₁ os₂ : List OperandSpec}
    (hextent : os₁.map (·.extent) = os₂.map (·.extent))
    (hstride : os₁.map (·.stride) = os₂.map (·.stride))
    (hmodes : os₁.map (·.modes) = os₂.map (·.modes)) : os₁ = os₂ := by
  induction os₁ generalizing os₂ with
  | nil => exact (List.map_eq_nil_iff.1 hextent.symm).symm
  | cons o₁ os₁ ih =>
    cases os₂ with
    | nil => cases hextent
    | cons o₂ os₂ =>
      obtain ⟨he, hextents⟩ := List.cons.inj hextent
      obtain ⟨ht, hstrides⟩ := List.cons.inj hstride
      obtain ⟨hm, hmodess⟩ := List.cons.inj hmodes
      rw [ih hextents hstrides hmodess, OperandSpec.ext he ht hm]

/-- With the ranks and the strides, the operands can be read off the key. -/
theorem operands_of_planKey {hashes : Hashes M E} {k₁ k₂ : OpKind} {c₁ c₂ : Common}
    {os₁ os₂ : List OperandSpec} {t₁ t₂ : UInt32} {a₁ a₂ : Int32}
    (h : planKey hashes k₁ c₁ os₁ t₁ a₁ = planKey hashes k₂ c₂ os₂ t₂ a₂)
    (hstride : os₁.map (·.stride) = os₂.map (·.stride))
    (hmodes : os₁.map (·.modes.length) = os₂.map (·.modes.length))
    (hextent : os₁.map (·.extent.length) = os₂.map (·.extent.length)) : os₁ = os₂ := by
  have hm := hashes.hashI32s_injective (congrArg PlanKey.modesHash h)
  have he := hashes.hashI64s_injective (congrArg PlanKey.extentsHash h)
  refine operands_ext (List.eq_of_intercalate_eq ?_ he) hstride (List.eq_of_intercalate_eq ?_ hm)
  · rw [List.map_map, List.map_map]
    exact hextent
  · rw [List.map_map, List.map_map]
    exact hmodes

/-- Requests that agree are told apart by their keys. -/
theorem eq_of_key_eq {hashes : Hashes M E} {ct : CuTensor Op Desc} {r₁ r₂ : Request Op}
    (h : r₁.key hashes ct = r₂.key hashes ct) (hagree : Agree r₁ r₂) : r₁ = r₂ := by
  rw [Request.key_eq, Request.key_eq] at h
  have hkind : r₁.opKind = r₂.opKind := congrArg PlanKey.opKind h
  have hoperands := operands_of_planKey h hagree.strides hagree.modeRanks hagree.extentRanks
  refine Request.ext hkind (Common.ext ?_ ?_ ?_) hoperands hagree.operators
  · exact name_injective (congrArg PlanKey.dtypeTag h)
  · have htag : computeDescTag r₁.common.compute ^^^ r₁.opMix ct =
        computeDescTag r₂.common.compute ^^^ r₂.opMix ct := congrArg PlanKey.computeDescTag h
    rw [Request.opMix_eq ct hkind hagree.operators, UInt32.xor_left_inj] at htag
    exact computeDescTag_injective htag
  · exact congrArg PlanKey.alignment h

/-- Equal plans have equal operands and operators. -/
theorem agree_of_planArgs_eq {ct : CuTensor Op Desc} {r₁ r₂ : Request Op}
    (h : r₁.planArgs ct = r₂.planArgs ct) : Agree r₁ r₂ := by
  have hsame : r₁.operands = r₂.operands ∧ r₁.operators = r₂.operators := by
    cases r₁ <;> cases r₂ <;>
      simp [Request.planArgs, buildPlan, Request.operands, Request.operators] at h ⊢ <;>
      grind [arg_injective]
  exact ⟨by rw [hsame.1], by rw [hsame.1], by rw [hsame.1], hsame.2⟩

/-- Of two requests with one key, the plans agree exactly when the operands' strides and ranks and
the operators do. -/
theorem planArgs_eq_iff {hashes : Hashes M E} {ct : CuTensor Op Desc} {r₁ r₂ : Request Op}
    (h : r₁.key hashes ct = r₂.key hashes ct) :
    r₁.planArgs ct = r₂.planArgs ct ↔ Agree r₁ r₂ :=
  ⟨agree_of_planArgs_eq, fun hagree => eq_of_key_eq h hagree ▸ rfl⟩

end Agree

/-! ### The actor and its cache -/

section Cache

/-- A plan, with the arguments it was built from. -/
structure CachedPlan (Op Desc : Type) where
  args : PlanArgs Op Desc
  workspaceSize : UInt64
  deriving DecidableEq, Repr

/-- The cache of plans. -/
abbrev PlanCache (M E Op Desc : Type) := Lru (PlanKey M E) (CachedPlan Op Desc)

/-- `PlanCache::new`. -/
def PlanCache.new {M E Op Desc : Type} (cap : ℕ) : PlanCache M E Op Desc := Lru.empty (max cap 1)

/-- `DEFAULT_PLAN_CACHE_SIZE`, the capacity of the actor's cache. -/
def defaultPlanCacheSize : ℕ := 256

/-- The extents are not one for each mode. -/
def OperandSpec.mismatched (spec : OperandSpec) : Bool := spec.extent.length ≠ spec.modes.length

/-- What the rest of the system answers to a request: whether the buffers can be accessed and the
output is held by nobody else, and how cuTENSOR builds the plan. -/
structure Answers where
  buffers : Except GpuError Unit
  build : Except GpuError UInt64

variable {M E Op Desc : Type} [DecidableEq M] [DecidableEq E] (hashes : Hashes M E)
  (ct : CuTensor Op Desc)

/-- The checks at the head of the five `execute` functions. -/
def Request.checkLengths : Request Op → Option GpuError
  | .contract _ a b c =>
    if a.mismatched then some (.unrecoverable "Contract: a.extent.len != a.modes.len")
    else if b.mismatched then some (.unrecoverable "Contract: b.extent.len != b.modes.len")
    else if c.mismatched then some (.unrecoverable "Contract: c.extent.len != c.modes.len")
    else none
  | .reduction _ a c _ =>
    if a.mismatched then some (.unrecoverable "Reduce: a.extent.len != a.modes.len")
    else if c.mismatched then some (.unrecoverable "Reduce: c.extent.len != c.modes.len")
    else none
  | .elementwiseBinary _ a c d _ _ _ =>
    if a.mismatched || c.mismatched || d.mismatched then
      some (.unrecoverable "ElementwiseBinary: extent/modes length mismatch")
    else none
  | .elementwiseTrinary _ a b c d _ _ _ _ _ =>
    if a.mismatched || b.mismatched || c.mismatched || d.mismatched then
      some (.unrecoverable "ElementwiseTrinary: extent/modes length mismatch")
    else none
  | .permutation _ a b _ =>
    if a.mismatched || b.mismatched then
      some (.unrecoverable "Permutation: extent/modes length mismatch")
    else none

/-- A cached plan, or a new one that is put into the cache; a plan that cannot be built is not. -/
def getOrBuildPlan (cache : PlanCache M E Op Desc) (r : Request Op)
    (build : Except GpuError UInt64) :
    PlanCache M E Op Desc × Except GpuError (CachedPlan Op Desc) :=
  match cache.get? (r.key hashes ct) with
  | some (plan, cache) => (cache, .ok plan)
  | none =>
    match build with
    | .error e => (cache, .error e)
    | .ok workspaceSize =>
      let plan := ⟨r.planArgs ct, workspaceSize⟩
      (cache.put (r.key hashes ct) plan, .ok plan)

/-- `execute` up to the launch: the plan the request is launched with. -/
def execute (cache : PlanCache M E Op Desc) (r : Request Op) (answers : Answers) :
    PlanCache M E Op Desc × Except GpuError (CachedPlan Op Desc) :=
  match r.checkLengths with
  | some e => (cache, .error e)
  | none =>
    match answers.buffers with
    | .error e => (cache, .error e)
    | .ok () => getOrBuildPlan hashes ct cache r answers.build

/-- The mailbox of the actor: each request with what it is launched with. -/
def run (cache : PlanCache M E Op Desc) : List (Request Op × Answers) →
    List (Request Op × Except GpuError (CachedPlan Op Desc))
  | [] => []
  | (r, answers) :: inputs =>
    (r, (execute hashes ct cache r answers).2) ::
      run (execute hashes ct cache r answers).1 inputs

/-- Every cached plan was built for a request of `seen` with the key it is stored under. -/
def Backed (seen : List (Request Op)) (cache : PlanCache M E Op Desc) : Prop :=
  ∀ e ∈ cache.entries, ∃ r ∈ seen, e.1 = r.key hashes ct ∧ e.2.args = r.planArgs ct

variable {hashes ct}

omit [DecidableEq M] [DecidableEq E] in
theorem Backed.mono {seen seen' : List (Request Op)} {cache : PlanCache M E Op Desc}
    (h : Backed hashes ct seen cache) (hsub : seen ⊆ seen') : Backed hashes ct seen' cache :=
  fun e he => (h e he).imp fun _ hr => ⟨hsub hr.1, hr.2⟩

/-- One request: its plan is its own or that of an earlier request with its key, and it joins the
requests that back the cache. -/
theorem execute_backed {seen : List (Request Op)} {cache : PlanCache M E Op Desc}
    (h : Backed hashes ct seen cache) (r : Request Op) (answers : Answers) :
    Backed hashes ct (r :: seen) (execute hashes ct cache r answers).1 ∧
      ∀ plan, (execute hashes ct cache r answers).2 = .ok plan →
        ∃ r' ∈ r :: seen, r'.key hashes ct = r.key hashes ct ∧ plan.args = r'.planArgs ct := by
  have hkeep : Backed hashes ct (r :: seen) cache := h.mono (List.subset_cons_self _ _)
  unfold execute
  cases r.checkLengths with
  | some e => exact ⟨hkeep, nofun⟩
  | none =>
    cases answers.buffers with
    | error e => exact ⟨hkeep, nofun⟩
    | ok u =>
      dsimp only
      unfold getOrBuildPlan
      cases hget : cache.get? (r.key hashes ct) with
      | some hit =>
        obtain ⟨plan, cache'⟩ := hit
        refine ⟨fun e he => hkeep e (Lru.mem_entries_get? hget he), fun plan' hplan => ?_⟩
        cases hplan
        obtain ⟨r', hr', hkey, hargs⟩ := h _ (Lru.mem_of_get? hget)
        exact ⟨r', List.mem_cons_of_mem _ hr', hkey.symm, hargs⟩
      | none =>
        cases answers.build with
        | error e => exact ⟨hkeep, nofun⟩
        | ok workspaceSize =>
          refine ⟨fun e he => ?_, fun plan hplan => ?_⟩
          · obtain rfl | hold := Lru.mem_entries_put he
            · exact ⟨r, List.mem_cons_self, rfl, rfl⟩
            · exact hkeep e hold
          · cases hplan
            exact ⟨r, List.mem_cons_self, rfl, rfl⟩

theorem run_backed {seen : List (Request Op)} {cache : PlanCache M E Op Desc}
    {inputs : List (Request Op × Answers)} (h : Backed hashes ct seen cache)
    {r : Request Op} {plan : CachedPlan Op Desc} (hr : (r, .ok plan) ∈ run hashes ct cache inputs) :
    r ∈ inputs.map Prod.fst ∧ ∃ r' ∈ inputs.map Prod.fst ++ seen,
      r'.key hashes ct = r.key hashes ct ∧ plan.args = r'.planArgs ct := by
  induction inputs generalizing seen cache with
  | nil => cases hr
  | cons input inputs ih =>
    obtain ⟨r₀, answers⟩ := input
    obtain ⟨hbacked, hown⟩ := execute_backed h r₀ answers
    obtain heq | hrest := List.mem_cons.1 hr
    · obtain ⟨rfl, hplan⟩ := Prod.mk.inj heq
      obtain ⟨r', hr', hkey, hargs⟩ := hown plan hplan.symm
      refine ⟨List.mem_cons_self, r', ?_, hkey, hargs⟩
      obtain rfl | hseen := List.mem_cons.1 hr'
      · exact List.mem_cons_self
      · exact List.mem_append_right _ hseen
    · obtain ⟨hmem, r', hr', hkey, hargs⟩ := ih hbacked hrest
      refine ⟨List.mem_cons_of_mem _ hmem, r', ?_, hkey, hargs⟩
      simp only [List.mem_append, List.mem_cons, List.map_cons] at hr' ⊢
      tauto

/-- A request that passes the check has one mode for each extent. -/
theorem Request.modeRanks_of_checked {r : Request Op} (h : r.checkLengths = none) :
    r.operands.map (·.modes.length) = r.operands.map (·.extent.length) := by
  cases r <;>
    simp only [Request.checkLengths, OperandSpec.mismatched, decide_eq_true_eq, Bool.or_eq_true,
      ite_eq_right_iff, reduceCtorEq, imp_false, not_or, not_not] at h
  case contract common a b c =>
    split_ifs at h with ha hb hc
    simp [Request.operands, not_not.1 ha, not_not.1 hb, not_not.1 hc]
  case reduction common a c opReduce =>
    split_ifs at h with ha hc
    simp [Request.operands, not_not.1 ha, not_not.1 hc]
  all_goals simp [Request.operands, h]

omit [DecidableEq M] [DecidableEq E] in
/-- The separator is no extent of a tensor; between checked requests without it the key tells the
ranks. -/
theorem agree_of_extents {r₁ r₂ : Request Op} (h : r₁.key hashes ct = r₂.key hashes ct)
    (hcheck₁ : r₁.checkLengths = none) (hcheck₂ : r₂.checkLengths = none)
    (hextent₁ : ∀ o ∈ r₁.operands, Int64.minValue ∉ o.extent)
    (hextent₂ : ∀ o ∈ r₂.operands, Int64.minValue ∉ o.extent)
    (hstrides : r₁.operands.map (·.stride) = r₂.operands.map (·.stride))
    (hops : r₁.operators = r₂.operators) : Agree r₁ r₂ := by
  rw [Request.key_eq, Request.key_eq] at h
  have hflat := hashes.hashI64s_injective (congrArg PlanKey.extentsHash h)
  have hnonempty : ∀ r : Request Op, r.operands.map (·.extent) ≠ [] := by
    intro r
    cases r <;> simp [Request.operands]
  have hextents : r₁.operands.map (·.extent) = r₂.operands.map (·.extent) :=
    List.eq_of_intercalate_eq_of_not_mem (by simpa using hextent₁) (by simpa using hextent₂)
      (hnonempty r₁) (hnonempty r₂) hflat
  have hranks : r₁.operands.map (·.extent.length) = r₂.operands.map (·.extent.length) := by
    simpa [Function.comp_def] using congrArg (List.map List.length) hextents
  refine ⟨hstrides, ?_, hranks, hops⟩
  rw [Request.modeRanks_of_checked hcheck₁, hranks, Request.modeRanks_of_checked hcheck₂]

end Cache

/-- Two requests with one key get equal plans exactly when their operands' strides and ranks and
their operators agree; and in a run in which all requests with one key agree so, each is launched
with a plan built from its own arguments. -/
theorem plans_own {M E Op Desc : Type} [DecidableEq M] [DecidableEq E] (hashes : Hashes M E)
    (ct : CuTensor Op Desc) :
    (∀ r₁ r₂ : Request Op, r₁.key hashes ct = r₂.key hashes ct →
      (r₁.planArgs ct = r₂.planArgs ct ↔ Agree r₁ r₂)) ∧
    ∀ (cap : ℕ) (inputs : List (Request Op × Answers)),
      (∀ r₁ ∈ inputs.map Prod.fst, ∀ r₂ ∈ inputs.map Prod.fst,
        r₁.key hashes ct = r₂.key hashes ct → Agree r₁ r₂) →
      ∀ r plan, (r, .ok plan) ∈ run hashes ct (PlanCache.new cap) inputs →
        plan.args = r.planArgs ct := by
  refine ⟨fun _ _ => planArgs_eq_iff, fun cap inputs hagree r plan hr => ?_⟩
  have hempty : Backed hashes ct [] (PlanCache.new cap : PlanCache M E Op Desc) := nofun
  obtain ⟨hmem, r', hr', hkey, hargs⟩ := run_backed hempty hr
  rw [List.append_nil] at hr'
  rw [hargs]
  exact (planArgs_eq_iff hkey).2 (hagree r' hr' r hmem hkey)

/-- The operators by their discriminants, and vectors hashed to themselves. -/
def plainHashes : Hashes (List Int32) (List Int64) := ⟨id, id, fun _ _ h => h, fun _ _ h => h⟩

def plainCuTensor : CuTensor UInt32 ComputeDesc := ⟨id, 1, id⟩

/-- An 8 by 16 matrix of `f32` transposed, with the given strides of the input. -/
def transpose (stride : List Int64) : Request UInt32 :=
  .permutation ⟨.f32, .minF32, 16⟩ ⟨[8, 16], stride, [1, 2]⟩ ⟨[16, 8], [], [2, 1]⟩ 1

/-- Twice the same request: the second is launched with the first one's plan, which is its own. -/
theorem repeated_transpose_plans :
    (∀ r ∈ [transpose [], transpose []], ∀ r' ∈ [transpose [], transpose []],
      r.key plainHashes plainCuTensor = r'.key plainHashes plainCuTensor → Agree r r') ∧
    ∀ plan, (transpose [], .ok plan) ∈ run plainHashes plainCuTensor
        (PlanCache.new defaultPlanCacheSize)
        [(transpose [], ⟨.ok (), .ok 64⟩), (transpose [], ⟨.ok (), .error .timeout⟩)] →
      plan.args = (transpose []).planArgs plainCuTensor :=
  ⟨by decide, fun plan => (plans_own plainHashes plainCuTensor).2 defaultPlanCacheSize
    [(transpose [], ⟨.ok (), .ok 64⟩), (transpose [], ⟨.ok (), .error .timeout⟩)] (by decide)
    (transpose []) plan⟩

/-- The strides are not in the key: with the buffers in hand (`.ok ()`, which `Arc::try_unwrap` does
not give while the request keeps its handle) a row-major input is launched with the plan of a dense
one. -/
theorem strided_transpose_gets_dense_plan :
    (transpose []).key plainHashes plainCuTensor =
      (transpose [16, 1]).key plainHashes plainCuTensor ∧
    (transpose []).planArgs plainCuTensor ≠ (transpose [16, 1]).planArgs plainCuTensor ∧
    (transpose [16, 1], .ok ⟨(transpose []).planArgs plainCuTensor, 64⟩) ∈
      run plainHashes plainCuTensor (PlanCache.new defaultPlanCacheSize)
        [(transpose [], ⟨.ok (), .ok 64⟩), (transpose [16, 1], ⟨.ok (), .ok 64⟩)] := by
  refine ⟨rfl, by decide, ?_⟩
  exact List.mem_cons_of_mem _ (List.mem_singleton.2 rfl)

end Tensor

end AtomrAccel
