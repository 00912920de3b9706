import AtomrAccel.Cudnn.Request

/-!
# Graphs by their tensors and operations

Every builder makes a list of tensors, all with the type and the layout of the request, and a list
of operations that does not depend on the layout.  What the hasher is fed depends on these alone.

* `Blueprint`: what a builder makes its graph from;
* `Blueprint.sameKey_iff`: when the graphs of two blueprints feed the hasher the same;
* `CudnnRequest.blueprint`, `graphSpec_eq`: the builders follow their blueprints;
* `CudnnRequest.SameKey`, `CudnnRequest.sameKey_iff`: the same for requests.
-/

namespace AtomrAccel

namespace Cudnn

/-! ### Blueprints -/

/-- Tensors by their ids and dimensions. -/
def newTensors (dtype : DtypeTag) (layout : TensorLayout) :
    List (Int64 × List Int64) → Option (List TensorSpec)
  | [] => some []
  | (uid, dims) :: rest => do
    let t ← TensorSpec.new uid dtype dims layout
    let ts ← newTensors dtype layout rest
    return t :: ts

/-- The strides of the tensors under a layout. -/
def strides (layout : TensorLayout) (tensors : List (Int64 × List Int64)) :
    List (Option (List Int64)) :=
  tensors.map fun t => packedStrides t.2 layout

/-- What a builder makes its graph from. -/
structure Blueprint where
  opKind : String
  dtype : CudnnDtype
  layout : TensorLayout
  tensors : List (Int64 × List Int64)
  ops : DtypeTag → List OpSpec
  /-- the builder finds the dimensions it looks at -/
  inBounds : Bool

namespace Blueprint

/-- Nothing panics. -/
structure Valid (b : Blueprint) : Prop where
  tag : (dtypeTag b.dtype).isSome = true
  inBounds : b.inBounds = true
  strides : none ∉ strides b.layout b.tensors

/-- The graph, up to its name. -/
def graph (b : Blueprint) : Option (List TensorSpec × List OpSpec) := do
  let dtype ← dtypeTag b.dtype
  let ts ← newTensors dtype b.layout b.tensors
  guard (b.inBounds = true)
  return (ts, b.ops dtype)

end Blueprint

section Tensors

variable {dtype dtype' : DtypeTag} {layout layout' : TensorLayout}
  {tensors tensors' : List (Int64 × List Int64)} {ts : List TensorSpec}

theorem TensorSpec.new_eq_some {uid : Int64} {dims : List Int64} {t : TensorSpec} :
    TensorSpec.new uid dtype dims layout = some t ↔
      ∃ s, packedStrides dims layout = some s ∧ ⟨uid, dtype, dims, s, 16, false⟩ = t :=
  Option.map_eq_some_iff

theorem dtypeTag_inj {t t' : CudnnDtype} {d : DtypeTag} (h : dtypeTag t = some d)
    (h' : dtypeTag t' = some d) : t = t' := by
  cases t <;> cases h <;> cases t' <;> cases h' <;> rfl

/-- Tensors say what they were made from. -/
theorem newTensors_spec (h : newTensors dtype layout tensors = some ts) :
    tensors = ts.map (fun t => (t.uid, t.dims)) ∧
      strides layout tensors = ts.map fun t => some t.strides := by
  induction tensors generalizing ts with
  | nil =>
    cases h
    exact ⟨rfl, rfl⟩
  | cons p rest ih =>
    obtain ⟨uid, dims⟩ := p
    simp only [newTensors, Option.bind_eq_bind, Option.bind_eq_some_iff,
      TensorSpec.new_eq_some] at h
    obtain ⟨t, ⟨s, hs, rfl⟩, ts', hrest, hts⟩ := h
    cases hts
    obtain ⟨htensors, hstrides⟩ := ih hrest
    constructor
    · rw [List.map_cons, ← htensors]
    · rw [strides, List.map_cons, List.map_cons, hs, ← hstrides]
      rfl

/-- Tensors are made when every layout fits. -/
theorem newTensors_isSome (dtype : DtypeTag) (h : none ∉ strides layout tensors) :
    ∃ ts, newTensors dtype layout tensors = some ts := by
  induction tensors with
  | nil => exact ⟨[], rfl⟩
  | cons p rest ih =>
    obtain ⟨uid, dims⟩ := p
    obtain ⟨hhead, hrest⟩ := not_or.1 (List.mem_cons.not.1 h)
    obtain ⟨s, hs⟩ := Option.ne_none_iff_exists'.1 (Ne.symm hhead)
    obtain ⟨ts, hts⟩ := ih hrest
    refine ⟨⟨uid, dtype, dims, s, 16, false⟩ :: ts, ?_⟩
    simp only [newTensors, TensorSpec.new, hs, hts, Option.map_some]
    rfl

theorem strides_of_newTensors (h : newTensors dtype layout tensors = some ts) :
    none ∉ strides layout tensors := by
  rw [(newTensors_spec h).2]
  simp

/-- The layout matters by the strides only. -/
theorem newTensors_congr (h : strides layout tensors = strides layout' tensors) :
    newTensors dtype layout tensors = newTensors dtype layout' tensors := by
  induction tensors with
  | nil => rfl
  | cons p rest ih =>
    obtain ⟨uid, dims⟩ := p
    obtain ⟨hhead, hrest⟩ := List.cons.inj h
    dsimp only at hhead
    simp only [newTensors, TensorSpec.new, hhead, ih hrest]

end Tensors

namespace Blueprint

/-- What the plan key is made from. -/
def keyInput (b : Blueprint) : Option KeyInput := do
  let dtype ← dtypeTag b.dtype
  let graph ← b.graph
  return cacheKey b.opKind dtype ⟨graph.1, graph.2, ""⟩

/-- The blueprints agree in all that is hashed. -/
structure Same (b b' : Blueprint) : Prop where
  opKind : b.opKind = b'.opKind
  dtype : b.dtype = b'.dtype
  tensors : b.tensors = b'.tensors
  strides : Cudnn.strides b.layout b.tensors = Cudnn.strides b'.layout b'.tensors
  ops : ∀ dtype, dtypeTag b.dtype = some dtype → b.ops dtype = b'.ops dtype

section Keys

variable {b b' : Blueprint}

/-- One type is enough for the operations, since agreeing blueprints have the same. -/
theorem same_iff {d : DtypeTag} (hd : dtypeTag b.dtype = some d) :
    b.Same b' ↔
      b.opKind = b'.opKind ∧ b.dtype = b'.dtype ∧ b.tensors = b'.tensors ∧
        Cudnn.strides b.layout b.tensors = Cudnn.strides b'.layout b'.tensors ∧
        b.ops d = b'.ops d := by
  constructor
  · rintro ⟨hop, hdtype, htensors, hstrides, hops⟩
    exact ⟨hop, hdtype, htensors, hstrides, hops d hd⟩
  · rintro ⟨hop, hdtype, htensors, hstrides, hops⟩
    refine ⟨hop, hdtype, htensors, hstrides, fun d' hd' => ?_⟩
    cases hd.symm.trans hd'
    exact hops

theorem keyInput_eq_some {k : KeyInput} : b.keyInput = some k ↔
    ∃ dtype ts, dtypeTag b.dtype = some dtype ∧ newTensors dtype b.layout b.tensors = some ts ∧
      b.inBounds = true ∧ cacheKey b.opKind dtype ⟨ts, b.ops dtype, ""⟩ = k := by
  simp only [keyInput, graph, Option.bind_eq_bind, Option.bind_eq_some_iff, Option.pure_def,
    Option.some.injEq]
  constructor
  · rintro ⟨dtype, hdtype, g, ⟨dtype', hdtype', ts, hts, u, hguard, rfl⟩, hk⟩
    cases hdtype.symm.trans hdtype'
    refine ⟨dtype, ts, hdtype, hts, ?_, hk⟩
    by_contra hout
    rw [guard, if_neg hout] at hguard
    cases hguard
  · rintro ⟨dtype, ts, hdtype, hts, hin, hk⟩
    refine ⟨dtype, hdtype, (ts, b.ops dtype), ⟨dtype, hdtype, ts, hts, (), ?_, rfl⟩, hk⟩
    rw [guard, if_pos hin]
    rfl

/-- Two blueprints have the same key exactly when neither panics and they agree in all that is
hashed. -/
theorem sameKey_iff :
    (∃ k, b.keyInput = some k ∧ b'.keyInput = some k) ↔ b.Valid ∧ b'.Valid ∧ b.Same b' := by
  constructor
  · rintro ⟨k, h, h'⟩
    obtain ⟨d, ts, hd, hts, hin, rfl⟩ := keyInput_eq_some.1 h
    obtain ⟨d', ts', hd', hts', hin', hk⟩ := keyInput_eq_some.1 h'
    obtain ⟨hop, rfl, hhash⟩ := KeyInput.mk.inj hk
    obtain ⟨hsame, hops⟩ := OperationGraphSpec.hash_inj.1 hhash
    dsimp only at hsame hops
    subst hsame
    have htensors : b.tensors = b'.tensors :=
      (newTensors_spec hts).1.trans (newTensors_spec hts').1.symm
    have hstrides := (newTensors_spec hts).2.trans (newTensors_spec hts').2.symm
    refine ⟨⟨by rw [hd]; rfl, hin, strides_of_newTensors hts⟩,
      ⟨by rw [hd']; rfl, hin', strides_of_newTensors hts'⟩,
      ⟨hop.symm, dtypeTag_inj hd hd', htensors, hstrides, fun dtype hdtype => ?_⟩⟩
    cases hd.symm.trans hdtype
    exact hops.symm
  · rintro ⟨hvalid, hvalid', hsame⟩
    obtain ⟨d, hd⟩ := Option.isSome_iff_exists.1 hvalid.tag
    obtain ⟨ts, hts⟩ := newTensors_isSome d hvalid.strides
    have hts' : newTensors d b'.layout b'.tensors = some ts := by
      rw [← hts, ← hsame.tensors]
      apply newTensors_congr
      rw [hsame.strides, hsame.tensors]
    refine ⟨_, keyInput_eq_some.2 ⟨d, ts, hd, hts, hvalid.inBounds, rfl⟩,
      keyInput_eq_some.2 ⟨d, ts, hsame.dtype ▸ hd, hts', hvalid'.inBounds, ?_⟩⟩
    rw [hsame.opKind, hsame.ops d hd]

end Keys

end Blueprint

/-! ### The blueprints of the requests -/

namespace EpilogueKind

/-- The tensors an epilogue adds. -/
def tensors (yDims : List Int64) : EpilogueKind → List (Int64 × List Int64)
  | none => []
  | bias => [(4, biasDims yDims), (5, yDims)]
  | biasActivation _ => [(4, biasDims yDims), (5, yDims), (6, yDims)]

/-- The operations an epilogue adds. -/
def ops (dtype : DtypeTag) : EpilogueKind → List OpSpec
  | none => []
  | bias => [.pointwise .add 3 (some 4) 5 dtype one one]
  | biasActivation act =>
    [.pointwise .add 3 (some 4) 5 dtype one one,
      .pointwise act.pointwiseMode 5 .none 6 dtype one zero]

end EpilogueKind

namespace PoolParams

/-- The operation of a pooling. -/
def fwdOp (p : PoolParams) (dtype : DtypeTag) : OpSpec :=
  .poolFwd p.mode.fwd 1 2 p.window p.prePadding p.postPadding p.stride dtype

/-- The operation of its gradient. -/
def bwdOp (p : PoolParams) (dtype : DtypeTag) : OpSpec :=
  .poolBwd p.mode.bwd 3 1 2 4 p.window p.prePadding p.postPadding p.stride dtype

end PoolParams

/-- The tensors of a normalisation. -/
def normTensors (dims : List Int64) : List (Int64 × List Int64) :=
  let channels := [1, dims.getD 1 0, 1, 1]
  [(1, dims), (2, channels), (3, channels), (4, dims)]

/-- The blueprint of a normalisation. -/
def normBlueprint (opKind : String) (mode : NormMode) (phase : NormPhase) (dtype : CudnnDtype)
    (dims : List Int64) (layout : TensorLayout) (epsilon expAvgFactor : Float64Bits) :
    Blueprint where
  opKind := opKind
  dtype := dtype
  layout := layout
  tensors := normTensors dims
  ops dtype := [.normFwd mode phase 1 2 3 none none 4 dtype epsilon expAvgFactor]
  inBounds := decide (2 ≤ dims.length)

/-- The tensors of a recurrent network. -/
def RnnParams.tensors (p : RnnParams) : List (Int64 × List Int64) :=
  let hDims := [p.stacked, p.batchSize, p.hiddenSize]
  [(1, [p.seqLength, p.batchSize, p.inputSize]), (2, hDims),
      (3, [p.seqLength, p.batchSize, p.outputSize]), (4, hDims)] ++
    (if p.mode.hasCellState then [(5, hDims), (6, hDims)] else []) ++ [(99, [p.weightDim])]

namespace CudnnRequest

/-- The blueprint of each request. -/
def blueprint : CudnnRequest → Blueprint
  | convFwd r => ⟨"conv_fwd", r.dtype, r.layout,
      (1, r.xDims) :: (2, r.wDims) :: (3, r.yDims) :: r.epilogue.tensors r.yDims,
      fun dtype => .convFwd 1 2 3 r.conv.spatialDims r.conv.prePadding r.conv.postPadding
        r.conv.stride r.conv.dilation dtype one zero :: r.epilogue.ops dtype, true⟩
  | convBwdData r => ⟨"conv_bwd_data", r.dtype, r.layout,
      [(1, r.dyDims), (2, r.wDims), (3, r.dxDims)], fun dtype => [.convBwdData 1 2 3
        r.conv.spatialDims r.conv.prePadding r.conv.postPadding r.conv.stride r.conv.dilation dtype
        one zero], true⟩
  | convBwdFilter r => ⟨"conv_bwd_filter", r.dtype, r.layout,
      [(1, r.xDims), (2, r.dyDims), (3, r.dwDims)], fun dtype => [.convBwdFilter 1 2 3
        r.conv.spatialDims r.conv.prePadding r.conv.postPadding r.conv.stride r.conv.dilation dtype
        one zero], true⟩
  | poolFwd r => ⟨"pool_fwd", r.dtype, r.layout, [(1, r.xDims), (2, r.yDims)],
      fun dtype => [r.params.fwdOp dtype], true⟩
  | poolBwd r => ⟨"pool_bwd", r.dtype, r.layout,
      [(1, r.xDims), (2, r.yDims), (3, r.yDims), (4, r.xDims)],
      fun dtype => [r.params.bwdOp dtype], true⟩
  | batchNorm r => normBlueprint "batchnorm" .batchNorm r.phase r.dtype r.dims r.layout r.epsilon
      r.expAvgFactor
  | layerNorm r => normBlueprint "layernorm" .layerNorm .training r.dtype r.dims r.layout r.epsilon
      zero
  | instanceNorm r => normBlueprint "instancenorm" .instanceNorm .training r.dtype r.dims r.layout
      r.epsilon zero
  | activationFwd r => ⟨"activation_fwd", r.dtype, r.layout, [(1, r.dims), (2, r.dims)],
      fun dtype => [.pointwise r.kind.pointwiseMode 1 none 2 dtype one zero], true⟩
  | rnnFwd r => ⟨r.params.mode.opKind, r.dtype, r.layout, r.params.tensors, fun _ => [], true⟩

/-- Neither the tag of the type nor a builder panics. -/
def Valid (r : CudnnRequest) : Prop := r.blueprint.Valid

/-- Two requests have a plan key, and the same. -/
def SameKey (r r' : CudnnRequest) : Prop := ∃ k, r.keyInput = some k ∧ r'.keyInput = some k

end CudnnRequest

section Builders

/-- What is hashed of a graph. -/
def hashedPart (g : OperationGraphSpec) : List TensorSpec × List OpSpec := (g.tensors, g.ops)

@[simp] theorem hashedPart_mk (ts : List TensorSpec) (ops : List OpSpec) (name : String) :
    hashedPart ⟨ts, ops, name⟩ = (ts, ops) := rfl

@[simp] theorem bind_newTensors_nil {β : Type} (dtype : DtypeTag) (layout : TensorLayout)
    (f : List TensorSpec → Option β) : (newTensors dtype layout []).bind f = f [] := rfl

@[simp] theorem bind_newTensors_cons {β : Type} (dtype : DtypeTag) (layout : TensorLayout)
    (uid : Int64) (dims : List Int64) (rest : List (Int64 × List Int64))
    (f : List TensorSpec → Option β) :
    (newTensors dtype layout ((uid, dims) :: rest)).bind f =
      (TensorSpec.new uid dtype dims layout).bind fun t =>
        (newTensors dtype layout rest).bind fun ts => f (t :: ts) := by
  simp only [newTensors, Option.bind_eq_bind, Option.bind_assoc, Option.pure_def, Option.bind_some]

theorem norm_graph (opKind : String) (mode : NormMode) (phase : NormPhase) (dtype : CudnnDtype)
    (dims : List Int64) (layout : TensorLayout) (epsilon expAvgFactor : Float64Bits) :
    ((dtypeTag dtype).bind fun d =>
        buildNormFwdGraph mode phase d dims layout epsilon expAvgFactor).map hashedPart =
      (normBlueprint opKind mode phase dtype dims layout epsilon expAvgFactor).graph := by
  unfold Blueprint.graph normBlueprint normTensors buildNormFwdGraph
  cases dtypeTag dtype with
  | none => rfl
  | some d =>
    -- the builder looks at the second dimension between its tensors
    rcases dims with _ | ⟨n, _ | ⟨c, dims⟩⟩
    · simp [guard]
    · simp [guard]
    · simp [guard, Function.comp_def]

theorem rnn_graph (r : RnnFwdRequest) :
    r.graphSpec.map hashedPart = (CudnnRequest.rnnFwd r).blueprint.graph := by
  unfold RnnFwdRequest.graphSpec Blueprint.graph CudnnRequest.blueprint
  dsimp only
  cases dtypeTag r.dtype with
  | none => rfl
  | some d =>
    unfold buildRnnFwdSpec RnnParams.tensors
    split_ifs <;> simp [guard, Function.comp_def]

/-- A builder follows its blueprint. -/
theorem graphSpec_eq (r : CudnnRequest) : r.graphSpec.map hashedPart = r.blueprint.graph := by
  cases r with
  | convFwd r =>
    obtain ⟨dtype, xDims, wDims, yDims, conv, layout, epilogue, alpha, beta⟩ := r
    cases epilogue <;>
      simp [CudnnRequest.graphSpec, ConvFwdRequest.graphSpec, buildConvFwdGraph,
        CudnnRequest.blueprint, Blueprint.graph, EpilogueKind.tensors, EpilogueKind.ops,
        guard, Function.comp_def]
  | convBwdData r =>
    simp [CudnnRequest.graphSpec, ConvBwdDataRequest.graphSpec, buildConvBwdDataGraph,
      CudnnRequest.blueprint, Blueprint.graph, guard, Function.comp_def]
  | convBwdFilter r =>
    simp [CudnnRequest.graphSpec, ConvBwdFilterRequest.graphSpec, buildConvBwdFilterGraph,
      CudnnRequest.blueprint, Blueprint.graph, guard, Function.comp_def]
  | poolFwd r =>
    simp [CudnnRequest.graphSpec, PoolFwdRequest.graphSpec, buildPoolFwdGraph,
      CudnnRequest.blueprint, PoolParams.fwdOp, Blueprint.graph, guard, Function.comp_def]
  | poolBwd r =>
    simp [CudnnRequest.graphSpec, PoolBwdRequest.graphSpec, buildPoolBwdGraph,
      CudnnRequest.blueprint, PoolParams.bwdOp, Blueprint.graph, guard, Function.comp_def]
  | batchNorm r => exact norm_graph _ _ _ _ _ _ _ _
  | layerNorm r => exact norm_graph _ _ _ _ _ _ _ _
  | instanceNorm r => exact norm_graph _ _ _ _ _ _ _ _
  | activationFwd r =>
    simp [CudnnRequest.graphSpec, ActivationFwdRequest.graphSpec, CudnnRequest.blueprint,
      Blueprint.graph, guard, Function.comp_def]
  | rnnFwd r => exact rnn_graph r

theorem keyInput_eq (r : CudnnRequest) : r.keyInput = r.blueprint.keyInput := by
  have hop : r.blueprint.opKind = r.opKind := by cases r <;> rfl
  have hdtype : r.blueprint.dtype = r.dtype := by cases r <;> rfl
  unfold CudnnRequest.keyInput Blueprint.keyInput
  rw [← graphSpec_eq, hop, hdtype]
  cases r.graphSpec <;> rfl

theorem CudnnRequest.sameKey_iff {r r' : CudnnRequest} :
    r.SameKey r' ↔ r.Valid ∧ r'.Valid ∧ r.blueprint.Same r'.blueprint := by
  unfold SameKey
  rw [keyInput_eq, keyInput_eq]
  exact Blueprint.sameKey_iff

end Builders

end Cudnn

end AtomrAccel
