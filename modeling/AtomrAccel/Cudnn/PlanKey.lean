import AtomrAccel.Cudnn.Blueprint

/-!
# Plan keys of the cuDNN actor and the operations they stand for

A plan is found by its key, so that the key should tell apart requests with different results.

* `CudnnRequest.Agrees`: requests of one type agree in all that their result depends on;
* `CudnnRequest.Hashed`, `CudnnRequest.Unhashed`: they agree in what goes into their graphs, or in
  the rest;
* `RnnParams.determined`: what the sizes of a recurrent network say about its direction and layers;
* `sameKey_iff_hashed`, `agrees_iff`: a key says all of the first kind and nothing of the second;
* `planKey_sound_iff`: equal keys mean equal operations exactly for requests that differ in the
  first kind or agree in the second.
-/

namespace AtomrAccel

namespace Cudnn

/-! ### What the result of a request depends on -/

abbrev Strides := List (Option (List Int64))

namespace ConvDescParams

/-- The parameters of a convolution, less its groups. -/
def window (c : ConvDescParams) : UInt64 × List Int64 × List Int64 × List Int64 × List Int64 :=
  (c.spatialDims, c.prePadding, c.postPadding, c.stride, c.dilation)

theorem ext_window {c c' : ConvDescParams} :
    c = c' ↔ c.window = c'.window ∧ c.groups = c'.groups := by
  obtain ⟨sd, pre, post, st, di, gr⟩ := c
  obtain ⟨sd', pre', post', st', di', gr'⟩ := c'
  simp [window, and_assoc]

end ConvDescParams

namespace PoolParams

/-- The parameters of a pooling, less its mode. -/
def windows (p : PoolParams) : List Int64 × List Int64 × List Int64 × List Int64 :=
  (p.window, p.prePadding, p.postPadding, p.stride)

theorem ext_windows {p p' : PoolParams} :
    p = p' ↔ p.windows = p'.windows ∧ p.mode = p'.mode := by
  obtain ⟨mode, wi, pre, post, st⟩ := p
  obtain ⟨mode', wi', pre', post', st'⟩ := p'
  simp only [mk.injEq, windows, Prod.mk.injEq]
  tauto

end PoolParams

namespace CudnnRequest

/-- The strides that the layout of a request gives to its tensors. -/
def layoutStrides (r : CudnnRequest) : Strides :=
  strides r.blueprint.layout r.blueprint.tensors

/-- Requests of one type agree in all parameters that their result depends on. -/
def Agrees : CudnnRequest → CudnnRequest → Prop
  | convFwd r, convFwd r' =>
    (r.dtype, r.xDims, r.wDims, r.yDims, (convFwd r).layoutStrides, r.conv, r.epilogue) =
        (r'.dtype, r'.xDims, r'.wDims, r'.yDims, (convFwd r').layoutStrides, r'.conv,
          r'.epilogue) ∧
      (r.alpha, r.beta) = (r'.alpha, r'.beta)
  | convBwdData r, convBwdData r' =>
    (r.dtype, r.dyDims, r.wDims, r.dxDims, (convBwdData r).layoutStrides, r.conv) =
        (r'.dtype, r'.dyDims, r'.wDims, r'.dxDims, (convBwdData r').layoutStrides, r'.conv) ∧
      (r.alpha, r.beta) = (r'.alpha, r'.beta)
  | convBwdFilter r, convBwdFilter r' =>
    (r.dtype, r.xDims, r.dyDims, r.dwDims, (convBwdFilter r).layoutStrides, r.conv) =
        (r'.dtype, r'.xDims, r'.dyDims, r'.dwDims, (convBwdFilter r').layoutStrides, r'.conv) ∧
      (r.alpha, r.beta) = (r'.alpha, r'.beta)
  | poolFwd r, poolFwd r' =>
    (r.dtype, r.xDims, r.yDims, (poolFwd r).layoutStrides, r.params) =
        (r'.dtype, r'.xDims, r'.yDims, (poolFwd r').layoutStrides, r'.params) ∧
      (r.alpha, r.beta) = (r'.alpha, r'.beta)
  | poolBwd r, poolBwd r' =>
    (r.dtype, r.xDims, r.yDims, (poolBwd r).layoutStrides, r.params) =
        (r'.dtype, r'.xDims, r'.yDims, (poolBwd r').layoutStrides, r'.params) ∧
      (r.alpha, r.beta) = (r'.alpha, r'.beta)
  | batchNorm r, batchNorm r' =>
    (r.dtype, r.dims, (batchNorm r).layoutStrides, r.phase, r.epsilon, r.expAvgFactor) =
      (r'.dtype, r'.dims, (batchNorm r').layoutStrides, r'.phase, r'.epsilon, r'.expAvgFactor)
  | layerNorm r, layerNorm r' =>
    (r.dtype, r.dims, (layerNorm r).layoutStrides, r.normAxes, r.epsilon) =
      (r'.dtype, r'.dims, (layerNorm r').layoutStrides, r'.normAxes, r'.epsilon)
  | instanceNorm r, instanceNorm r' =>
    (r.dtype, r.dims, (instanceNorm r).layoutStrides, r.epsilon) =
      (r'.dtype, r'.dims, (instanceNorm r').layoutStrides, r'.epsilon)
  | activationFwd r, activationFwd r' =>
    (r.dtype, r.dims, (activationFwd r).layoutStrides, r.kind) =
        (r'.dtype, r'.dims, (activationFwd r').layoutStrides, r'.kind) ∧
      (r.alpha, r.beta) = (r'.alpha, r'.beta)
  | rnnFwd r, rnnFwd r' =>
    r.dtype = r'.dtype ∧ (rnnFwd r).layoutStrides = (rnnFwd r').layoutStrides ∧
      r.params = r'.params
  | _, _ => False

/-- Requests of one type agree in the parameters that go into their graph. -/
def Hashed : CudnnRequest → CudnnRequest → Prop
  | convFwd r, convFwd r' =>
    (r.dtype, r.xDims, r.wDims, r.yDims, (convFwd r).layoutStrides, r.conv.window, r.epilogue) =
      (r'.dtype, r'.xDims, r'.wDims, r'.yDims, (convFwd r').layoutStrides, r'.conv.window,
        r'.epilogue)
  | convBwdData r, convBwdData r' =>
    (r.dtype, r.dyDims, r.wDims, r.dxDims, (convBwdData r).layoutStrides, r.conv.window) =
      (r'.dtype, r'.dyDims, r'.wDims, r'.dxDims, (convBwdData r').layoutStrides, r'.conv.window)
  | convBwdFilter r, convBwdFilter r' =>
    (r.dtype, r.xDims, r.dyDims, r.dwDims, (convBwdFilter r).layoutStrides, r.conv.window) =
      (r'.dtype, r'.xDims, r'.dyDims, r'.dwDims, (convBwdFilter r').layoutStrides, r'.conv.window)
  | poolFwd r, poolFwd r' =>
    (r.dtype, r.xDims, r.yDims, (poolFwd r).layoutStrides, r.params.windows, r.params.mode.fwd) =
      (r'.dtype, r'.xDims, r'.yDims, (poolFwd r').layoutStrides, r'.params.windows,
        r'.params.mode.fwd)
  | poolBwd r, poolBwd r' =>
    (r.dtype, r.xDims, r.yDims, (poolBwd r).layoutStrides, r.params.windows, r.params.mode.bwd) =
      (r'.dtype, r'.xDims, r'.yDims, (poolBwd r').layoutStrides, r'.params.windows,
        r'.params.mode.bwd)
  | batchNorm r, batchNorm r' => Agrees (batchNorm r) (batchNorm r')
  | layerNorm r, layerNorm r' =>
    (r.dtype, r.dims, (layerNorm r).layoutStrides, r.epsilon) =
      (r'.dtype, r'.dims, (layerNorm r').layoutStrides, r'.epsilon)
  | instanceNorm r, instanceNorm r' => Agrees (instanceNorm r) (instanceNorm r')
  | activationFwd r, activationFwd r' =>
    (r.dtype, r.dims, (activationFwd r).layoutStrides, r.kind) =
      (r'.dtype, r'.dims, (activationFwd r').layoutStrides, r'.kind)
  | rnnFwd r, rnnFwd r' =>
    (r.dtype, r.params.mode.opKind, r.params.seqLength, r.params.batchSize, r.params.inputSize,
        r.params.hiddenSize, r.params.stacked, r.params.outputSize) =
      (r'.dtype, r'.params.mode.opKind, r'.params.seqLength, r'.params.batchSize,
        r'.params.inputSize, r'.params.hiddenSize, r'.params.stacked, r'.params.outputSize)
  | _, _ => False

/-- Requests of one type agree in the others. -/
def Unhashed : CudnnRequest → CudnnRequest → Prop
  | convFwd r, convFwd r' =>
    (r.conv.groups, r.alpha, r.beta) = (r'.conv.groups, r'.alpha, r'.beta)
  | convBwdData r, convBwdData r' =>
    (r.conv.groups, r.alpha, r.beta) = (r'.conv.groups, r'.alpha, r'.beta)
  | convBwdFilter r, convBwdFilter r' =>
    (r.conv.groups, r.alpha, r.beta) = (r'.conv.groups, r'.alpha, r'.beta)
  | poolFwd r, poolFwd r' =>
    (r.params.mode, r.alpha, r.beta) = (r'.params.mode, r'.alpha, r'.beta)
  | poolBwd r, poolBwd r' =>
    (r.params.mode, r.alpha, r.beta) = (r'.params.mode, r'.alpha, r'.beta)
  | batchNorm _, batchNorm _ => True
  | layerNorm r, layerNorm r' => r.normAxes = r'.normAxes
  | instanceNorm _, instanceNorm _ => True
  | activationFwd r, activationFwd r' => (r.alpha, r.beta) = (r'.alpha, r'.beta)
  | rnnFwd r, rnnFwd r' =>
    (r.params.mode, r.params.dropout) = (r'.params.mode, r'.params.dropout) ∧
      (r.params.hiddenSize = 0 →
        (r.params.direction, r.params.numLayers) = (r'.params.direction, r'.params.numLayers))
  | _, _ => False

end CudnnRequest

/-! ### Keys -/

section Layouts

variable {dims : List Int64} {layout layout' : TensorLayout}
  {tensors : List (Int64 × List Int64)}

/-- Only a channel-last layout can be refused, of one or two dimensions. -/
theorem packedStrides_eq_none :
    packedStrides dims layout = none ↔
      layout = .nhwcPacked ∧ 1 ≤ dims.length ∧ dims.length ≤ 2 := by
  rcases dims with _ | ⟨n, _ | ⟨c, _ | ⟨s, dims⟩⟩⟩ <;> cases layout <;> simp [packedStrides]

/-- The other two layouts have the same strides. -/
theorem packedStrides_of_ne (h : layout ≠ .nhwcPacked) (h' : layout' ≠ .nhwcPacked) :
    packedStrides dims layout = packedStrides dims layout' := by
  cases dims with
  | nil => rfl
  | cons n dims => cases layout <;> cases layout' <;> first | rfl | exact absurd rfl ‹_›

theorem strides_of_ne (h : layout ≠ .nhwcPacked) (h' : layout' ≠ .nhwcPacked) :
    strides layout tensors = strides layout' tensors := by
  unfold strides
  apply List.map_congr_left
  intro t _
  exact packedStrides_of_ne h h'

end Layouts

section Recurrent

variable {p p' : RnnParams}

theorem factor_inj {h : Int64} (hne : h ≠ 0) {d d' : RnnDirection}
    (hmul : h * Int64.ofNat d.factor = h * Int64.ofNat d'.factor) : d = d' := by
  have hdouble : h * 1 ≠ h * 2 := by
    intro heq
    have hbits := congrArg Int64.toBitVec heq
    rw [Int64.toBitVec_mul, Int64.toBitVec_mul] at hbits
    apply hne
    apply Int64.toBitVec_inj.1
    change h.toBitVec * 1#64 = h.toBitVec * 2#64 at hbits
    show h.toBitVec = 0#64
    bv_omega
  cases d <;> cases d'
  · rfl
  · exact absurd hmul hdouble
  · exact absurd hmul.symm hdouble
  · rfl

/-- The number of layers is small enough not to wrap. -/
theorem layers_inj {l l' : UInt32} {d : RnnDirection}
    (hmul : Int64.ofNat l.toNat * Int64.ofNat d.factor =
      Int64.ofNat l'.toNat * Int64.ofNat d.factor) : l = l' := by
  have hfactor : 1 ≤ d.factor ∧ d.factor ≤ 2 := by cases d <;> decide
  have hsmall : ∀ x : UInt32,
      (Int64.ofNat (x.toNat * d.factor)).toInt = ((x.toNat * d.factor : ℕ) : ℤ) := by
    intro x
    have hx := x.toNat_lt
    have hle : x.toNat * d.factor ≤ x.toNat * 2 := Nat.mul_le_mul_left _ hfactor.2
    exact Int64.toInt_ofNat_of_lt (by omega)
  rw [← Int64.ofNat_mul, ← Int64.ofNat_mul] at hmul
  have hint := congrArg Int64.toInt hmul
  rw [hsmall, hsmall] at hint
  have hnat : l.toNat * d.factor = l'.toNat * d.factor := Int.ofNat_inj.1 hint
  exact UInt32.toNat_inj.1 (Nat.eq_of_mul_eq_mul_right hfactor.1 hnat)

/-- A hidden size other than zero shows the direction, and with it the number of layers. -/
theorem RnnParams.determined (hhidden : p.hiddenSize = p'.hiddenSize)
    (hstacked : p.stacked = p'.stacked) (houtput : p.outputSize = p'.outputSize)
    (hne : p.hiddenSize ≠ 0) : p.direction = p'.direction ∧ p.numLayers = p'.numLayers := by
  unfold outputSize at houtput
  unfold stacked at hstacked
  rw [← hhidden] at houtput
  have hdirection : p.direction = p'.direction := factor_inj hne houtput
  rw [← hdirection] at hstacked
  exact ⟨hdirection, layers_inj hstacked⟩

theorem weightDim_eq (p : RnnParams) :
    p.weightDim =
      p.mode.numGates * p.hiddenSize * (p.inputSize + p.hiddenSize + 2) * p.stacked := by
  unfold RnnParams.weightDim RnnParams.stacked
  rw [Int64.mul_assoc (p.mode.numGates * p.hiddenSize * (p.inputSize + p.hiddenSize + 2))]

/-- The op kind shows whether there is a cell state, and the number of gates. -/
theorem cell_of_opKind {m m' : RnnMode} (h : m.opKind = m'.opKind) :
    m.hasCellState = m'.hasCellState ∧ m.numGates = m'.numGates := by
  cases m <;> cases m' <;> first | exact ⟨rfl, rfl⟩ | exact absurd h (by decide)

theorem RnnParams.tensors_eq_iff (hop : p.mode.opKind = p'.mode.opKind) :
    p.tensors = p'.tensors ↔
      p.seqLength = p'.seqLength ∧ p.batchSize = p'.batchSize ∧ p.inputSize = p'.inputSize ∧
        p.hiddenSize = p'.hiddenSize ∧ p.stacked = p'.stacked ∧ p.outputSize = p'.outputSize := by
  obtain ⟨hcell, hgates⟩ := cell_of_opKind hop
  constructor
  · intro h
    unfold tensors at h
    rw [hcell] at h
    simp only [List.cons_append, List.cons.injEq, Prod.mk.injEq, true_and, and_true] at h
    obtain ⟨⟨hseq, hbatch, hinput⟩, ⟨hstacked, -, hhidden⟩, ⟨-, -, houtput⟩, -⟩ := h
    exact ⟨hseq, hbatch, hinput, hhidden, hstacked, houtput⟩
  · rintro ⟨hseq, hbatch, hinput, hhidden, hstacked, houtput⟩
    unfold tensors
    rw [weightDim_eq, weightDim_eq, hcell, hgates, hseq, hbatch, hinput, hhidden, hstacked, houtput]

end Recurrent

section Requests

variable {r r' : CudnnRequest}

/-- The op kinds of the request types with one of their own. -/
def opKinds : List String :=
  ["conv_fwd", "conv_bwd_data", "conv_bwd_filter", "pool_fwd", "pool_bwd", "batchnorm",
    "layernorm", "instancenorm", "activation_fwd"]

theorem idxOf_opKind (r : CudnnRequest) : opKinds.idxOf r.blueprint.opKind = r.ctorIdx := by
  cases r with
  | rnnFwd r =>
    obtain ⟨dtype, layout, mode, direction, numLayers, inputSize, hiddenSize, seqLength, batchSize,
      dropout⟩ := r
    cases mode <;> rfl
  | _ => rfl

/-- Requests of one type. -/
inductive SameType : CudnnRequest → CudnnRequest → Prop
  | convFwd (x x' : ConvFwdRequest) : SameType (.convFwd x) (.convFwd x')
  | convBwdData (x x' : ConvBwdDataRequest) : SameType (.convBwdData x) (.convBwdData x')
  | convBwdFilter (x x' : ConvBwdFilterRequest) : SameType (.convBwdFilter x) (.convBwdFilter x')
  | poolFwd (x x' : PoolFwdRequest) : SameType (.poolFwd x) (.poolFwd x')
  | poolBwd (x x' : PoolBwdRequest) : SameType (.poolBwd x) (.poolBwd x')
  | batchNorm (x x' : BatchNormRequest) : SameType (.batchNorm x) (.batchNorm x')
  | layerNorm (x x' : LayerNormRequest) : SameType (.layerNorm x) (.layerNorm x')
  | instanceNorm (x x' : InstanceNormRequest) : SameType (.instanceNorm x) (.instanceNorm x')
  | activationFwd (x x' : ActivationFwdRequest) : SameType (.activationFwd x) (.activationFwd x')
  | rnnFwd (x x' : RnnFwdRequest) : SameType (.rnnFwd x) (.rnnFwd x')

theorem sameType_or_ne (r r' : CudnnRequest) : SameType r r' ∨ r.ctorIdx ≠ r'.ctorIdx := by
  cases r <;> cases r' <;> first | exact .inl (by constructor) | exact .inr nofun

/-- Requests with one op kind are of one type. -/
theorem ctorIdx_of_opKind (h : r.blueprint.opKind = r'.blueprint.opKind) :
    r.ctorIdx = r'.ctorIdx := by
  rw [← idxOf_opKind r, ← idxOf_opKind r', h]

end Requests

section Types

attribute [local simp] CudnnRequest.Hashed CudnnRequest.Agrees CudnnRequest.Unhashed

theorem ActivationKind.pointwiseMode_inj {a b : ActivationKind} :
    a.pointwiseMode = b.pointwiseMode ↔ a = b := by
  cases a <;> cases b <;> decide

theorem EpilogueKind.ops_inj {dtype : DtypeTag} {e e' : EpilogueKind} :
    e.ops dtype = e'.ops dtype ↔ e = e' := by
  cases e <;> cases e' <;> simp [ops, ActivationKind.pointwiseMode_inj]

theorem convFwd_same_iff (x x' : ConvFwdRequest) (hv : (CudnnRequest.convFwd x).Valid) :
    (CudnnRequest.convFwd x).blueprint.Same (CudnnRequest.convFwd x').blueprint ↔
      (CudnnRequest.convFwd x).Hashed (.convFwd x') := by
  obtain ⟨d, hd⟩ := Option.isSome_iff_exists.1 hv.tag
  rw [Blueprint.same_iff hd]
  simp only [CudnnRequest.Hashed, CudnnRequest.layoutStrides, CudnnRequest.blueprint,
    ConvDescParams.window, List.cons.injEq, Prod.mk.injEq, true_and, and_true,
    OpSpec.convFwd.injEq, EpilogueKind.ops_inj]
  constructor
  · rintro ⟨hdtype, ⟨hx, hw, hy, -⟩, hstrides, hwindow, hepilogue⟩
    exact ⟨hdtype, hx, hw, hy, hstrides, hwindow, hepilogue⟩
  · rintro ⟨hdtype, hx, hw, hy, hstrides, hwindow, hepilogue⟩
    refine ⟨hdtype, ⟨hx, hw, hy, ?_⟩, hstrides, hwindow, hepilogue⟩
    rw [hy, hepilogue]

theorem convBwdData_same_iff (x x' : ConvBwdDataRequest)
    (hv : (CudnnRequest.convBwdData x).Valid) :
    (CudnnRequest.convBwdData x).blueprint.Same (CudnnRequest.convBwdData x').blueprint ↔
      (CudnnRequest.convBwdData x).Hashed (.convBwdData x') := by
  obtain ⟨d, hd⟩ := Option.isSome_iff_exists.1 hv.tag
  rw [Blueprint.same_iff hd]
  simp only [CudnnRequest.Hashed, CudnnRequest.layoutStrides, CudnnRequest.blueprint,
    ConvDescParams.window, List.cons.injEq, Prod.mk.injEq, true_and, and_true,
    OpSpec.convBwdData.injEq, and_assoc]

theorem convBwdFilter_same_iff (x x' : ConvBwdFilterRequest)
    (hv : (CudnnRequest.convBwdFilter x).Valid) :
    (CudnnRequest.convBwdFilter x).blueprint.Same (CudnnRequest.convBwdFilter x').blueprint ↔
      (CudnnRequest.convBwdFilter x).Hashed (.convBwdFilter x') := by
  obtain ⟨d, hd⟩ := Option.isSome_iff_exists.1 hv.tag
  rw [Blueprint.same_iff hd]
  simp only [CudnnRequest.Hashed, CudnnRequest.layoutStrides, CudnnRequest.blueprint,
    ConvDescParams.window, List.cons.injEq, Prod.mk.injEq, true_and, and_true,
    OpSpec.convBwdFilter.injEq, and_assoc]

theorem poolFwd_same_iff (x x' : PoolFwdRequest) (hv : (CudnnRequest.poolFwd x).Valid) :
    (CudnnRequest.poolFwd x).blueprint.Same (CudnnRequest.poolFwd x').blueprint ↔
      (CudnnRequest.poolFwd x).Hashed (.poolFwd x') := by
  obtain ⟨d, hd⟩ := Option.isSome_iff_exists.1 hv.tag
  rw [Blueprint.same_iff hd]
  simp only [CudnnRequest.Hashed, CudnnRequest.layoutStrides, CudnnRequest.blueprint,
    PoolParams.windows, PoolParams.fwdOp, List.cons.injEq, Prod.mk.injEq, true_and, and_true,
    OpSpec.poolFwd.injEq]
  constructor
  · rintro ⟨hdtype, ⟨hx, hy⟩, hstrides, hkind, hwindows⟩
    exact ⟨hdtype, hx, hy, hstrides, hwindows, hkind⟩
  · rintro ⟨hdtype, hx, hy, hstrides, hwindows, hkind⟩
    exact ⟨hdtype, ⟨hx, hy⟩, hstrides, hkind, hwindows⟩

theorem poolBwd_same_iff (x x' : PoolBwdRequest) (hv : (CudnnRequest.poolBwd x).Valid) :
    (CudnnRequest.poolBwd x).blueprint.Same (CudnnRequest.poolBwd x').blueprint ↔
      (CudnnRequest.poolBwd x).Hashed (.poolBwd x') := by
  obtain ⟨d, hd⟩ := Option.isSome_iff_exists.1 hv.tag
  rw [Blueprint.same_iff hd]
  simp only [CudnnRequest.Hashed, CudnnRequest.layoutStrides, CudnnRequest.blueprint,
    PoolParams.windows, PoolParams.bwdOp, List.cons.injEq, Prod.mk.injEq, true_and, and_true,
    OpSpec.poolBwd.injEq]
  constructor
  · rintro ⟨hdtype, ⟨hx, hy, -, -⟩, hstrides, hkind, hwindows⟩
    exact ⟨hdtype, hx, hy, hstrides, hwindows, hkind⟩
  · rintro ⟨hdtype, hx, hy, hstrides, hwindows, hkind⟩
    exact ⟨hdtype, ⟨hx, hy, hy, hx⟩, hstrides, hkind, hwindows⟩

/-- A normalisation shows everything that its builder is given. -/
theorem norm_same_iff {opKind : String} {mode : NormMode} {phase phase' : NormPhase}
    {dtype dtype' : CudnnDtype} {dims dims' : List Int64} {layout layout' : TensorLayout}
    {epsilon epsilon' avg avg' : Float64Bits}
    (hv : (normBlueprint opKind mode phase dtype dims layout epsilon avg).Valid) :
    (normBlueprint opKind mode phase dtype dims layout epsilon avg).Same
        (normBlueprint opKind mode phase' dtype' dims' layout' epsilon' avg') ↔
      dtype = dtype' ∧ dims = dims' ∧
        strides layout (normTensors dims) = strides layout' (normTensors dims') ∧
        phase = phase' ∧ epsilon = epsilon' ∧ avg = avg' := by
  obtain ⟨d, hd⟩ := Option.isSome_iff_exists.1 hv.tag
  rw [Blueprint.same_iff hd]
  simp only [normBlueprint, List.cons.injEq, true_and, and_true, OpSpec.normFwd.injEq]
  constructor
  · rintro ⟨hdtype, htensors, hstrides, hop⟩
    have hdims : dims = dims' := congrArg Prod.snd (List.cons.inj htensors).1
    exact ⟨hdtype, hdims, hstrides, hop⟩
  · rintro ⟨hdtype, hdims, hstrides, hop⟩
    exact ⟨hdtype, congrArg normTensors hdims, hstrides, hop⟩

theorem activationFwd_same_iff (x x' : ActivationFwdRequest)
    (hv : (CudnnRequest.activationFwd x).Valid) :
    (CudnnRequest.activationFwd x).blueprint.Same (CudnnRequest.activationFwd x').blueprint ↔
      (CudnnRequest.activationFwd x).Hashed (.activationFwd x') := by
  obtain ⟨d, hd⟩ := Option.isSome_iff_exists.1 hv.tag
  rw [Blueprint.same_iff hd]
  simp only [CudnnRequest.Hashed, CudnnRequest.layoutStrides, CudnnRequest.blueprint,
    List.cons.injEq, Prod.mk.injEq, true_and, and_true, OpSpec.pointwise.injEq, and_self,
    ActivationKind.pointwiseMode_inj]

/-- The weights of a recurrent network have one dimension. -/
theorem rnn_layout {x : RnnFwdRequest} (hv : (CudnnRequest.rnnFwd x).Valid) :
    x.layout ≠ .nhwcPacked := by
  intro hlayout
  apply hv.strides
  refine List.mem_map.2 ⟨(99, [x.params.weightDim]), ?_, ?_⟩
  · exact List.mem_append_right _ (List.mem_singleton.2 rfl)
  · exact packedStrides_eq_none.2 ⟨hlayout, Nat.le_refl 1, Nat.le_succ 1⟩

theorem rnnFwd_same_iff (x x' : RnnFwdRequest) (hv : (CudnnRequest.rnnFwd x).Valid)
    (hv' : (CudnnRequest.rnnFwd x').Valid) :
    (CudnnRequest.rnnFwd x).blueprint.Same (CudnnRequest.rnnFwd x').blueprint ↔
      (CudnnRequest.rnnFwd x).Hashed (.rnnFwd x') := by
  simp only [CudnnRequest.Hashed, Prod.mk.injEq]
  constructor
  · rintro ⟨hop, hdtype, htensors, -, -⟩
    exact ⟨hdtype, hop, (RnnParams.tensors_eq_iff hop).1 htensors⟩
  · rintro ⟨hdtype, hop, hsizes⟩
    have htensors : x.params.tensors = x'.params.tensors := (RnnParams.tensors_eq_iff hop).2 hsizes
    refine ⟨hop, hdtype, htensors, ?_, fun _ _ => rfl⟩
    simp only [CudnnRequest.blueprint, htensors]
    exact strides_of_ne (rnn_layout hv) (rnn_layout hv')

end Types

section Requests

variable {r r' : CudnnRequest}

theorem hashed_of_ne (h : r.ctorIdx ≠ r'.ctorIdx) : ¬ r.Hashed r' := by
  intro hhashed
  cases r <;> cases r' <;> first | exact h rfl | exact hhashed

theorem agrees_of_ne (h : r.ctorIdx ≠ r'.ctorIdx) : ¬ r.Agrees r' := by
  intro hagrees
  cases r <;> cases r' <;> first | exact h rfl | exact hagrees

/-- What goes into the graph of a request is what is hashed of its blueprint. -/
theorem same_iff_hashed (hv : r.Valid) (hv' : r'.Valid) :
    r.blueprint.Same r'.blueprint ↔ r.Hashed r' := by
  rcases sameType_or_ne r r' with htype | hne
  · cases htype with
    | convFwd x x' => exact convFwd_same_iff x x' hv
    | convBwdData x x' => exact convBwdData_same_iff x x' hv
    | convBwdFilter x x' => exact convBwdFilter_same_iff x x' hv
    | poolFwd x x' => exact poolFwd_same_iff x x' hv
    | poolBwd x x' => exact poolBwd_same_iff x x' hv
    | batchNorm x x' =>
      refine (norm_same_iff hv).trans ?_
      simp only [CudnnRequest.Hashed, CudnnRequest.Agrees, Prod.mk.injEq]
      rfl
    | layerNorm x x' =>
      refine (norm_same_iff hv).trans ?_
      simp only [CudnnRequest.Hashed, Prod.mk.injEq, true_and, and_true]
      rfl
    | instanceNorm x x' =>
      refine (norm_same_iff hv).trans ?_
      simp only [CudnnRequest.Hashed, CudnnRequest.Agrees, Prod.mk.injEq, true_and, and_true]
      rfl
    | activationFwd x x' => exact activationFwd_same_iff x x' hv
    | rnnFwd x x' => exact rnnFwd_same_iff x x' hv hv'
  · exact iff_of_false (fun h => hne (ctorIdx_of_opKind h.opKind)) (hashed_of_ne hne)

/-- **Requests have the same plan key exactly when both have one and they agree in all that goes
into their graphs.** -/
theorem sameKey_iff_hashed : r.SameKey r' ↔ r.Valid ∧ r'.Valid ∧ r.Hashed r' := by
  rw [CudnnRequest.sameKey_iff]
  constructor
  · rintro ⟨hv, hv', hsame⟩
    exact ⟨hv, hv', (same_iff_hashed hv hv').1 hsame⟩
  · rintro ⟨hv, hv', hhashed⟩
    exact ⟨hv, hv', (same_iff_hashed hv hv').2 hhashed⟩

theorem rnn_agrees_iff (x x' : RnnFwdRequest) (hv : (CudnnRequest.rnnFwd x).Valid)
    (hv' : (CudnnRequest.rnnFwd x').Valid) :
    (CudnnRequest.rnnFwd x).Agrees (.rnnFwd x') ↔
      (CudnnRequest.rnnFwd x).Hashed (.rnnFwd x') ∧
        (CudnnRequest.rnnFwd x).Unhashed (.rnnFwd x') := by
  simp only [CudnnRequest.Agrees, CudnnRequest.Hashed, CudnnRequest.Unhashed, Prod.mk.injEq]
  constructor
  · rintro ⟨hdtype, -, hparams⟩
    rw [hparams]
    exact ⟨⟨hdtype, rfl, rfl, rfl, rfl, rfl, rfl, rfl⟩, ⟨rfl, rfl⟩, fun _ => ⟨rfl, rfl⟩⟩
  · rintro ⟨⟨hdtype, hop, hseq, hbatch, hinput, hhidden, hstacked, houtput⟩,
      ⟨hmode, hdropout⟩, hzero⟩
    have hshape : x.params.direction = x'.params.direction ∧
        x.params.numLayers = x'.params.numLayers := by
      by_cases hne : x.params.hiddenSize = 0
      · exact hzero hne
      · exact RnnParams.determined hhidden hstacked houtput hne
    have hparams : x.params = x'.params := by
      cases hp : x.params
      cases hp' : x'.params
      simp only [hp, hp'] at hmode hshape hinput hhidden hseq hbatch hdropout
      rw [hmode, hshape.1, hshape.2, hinput, hhidden, hseq, hbatch, hdropout]
    refine ⟨hdtype, ?_, hparams⟩
    simp only [CudnnRequest.layoutStrides, CudnnRequest.blueprint, hparams]
    exact strides_of_ne (rnn_layout hv) (rnn_layout hv')

/-- The parameters of a request are those that go into its graph and the others. -/
theorem agrees_iff (hv : r.Valid) (hv' : r'.Valid) :
    r.Agrees r' ↔ r.Hashed r' ∧ r.Unhashed r' := by
  rcases sameType_or_ne r r' with htype | hne
  · cases htype with
    | convFwd x x' =>
      simp only [CudnnRequest.Agrees, CudnnRequest.Hashed, CudnnRequest.Unhashed, Prod.mk.injEq,
        ConvDescParams.ext_window (c := x.conv)]
      tauto
    | convBwdData x x' =>
      simp only [CudnnRequest.Agrees, CudnnRequest.Hashed, CudnnRequest.Unhashed, Prod.mk.injEq,
        ConvDescParams.ext_window (c := x.conv)]
      tauto
    | convBwdFilter x x' =>
      simp only [CudnnRequest.Agrees, CudnnRequest.Hashed, CudnnRequest.Unhashed, Prod.mk.injEq,
        ConvDescParams.ext_window (c := x.conv)]
      tauto
    | poolFwd x x' =>
      have hkind : x.params.mode = x'.params.mode → x.params.mode.fwd = x'.params.mode.fwd :=
        congrArg _
      simp only [CudnnRequest.Agrees, CudnnRequest.Hashed, CudnnRequest.Unhashed, Prod.mk.injEq,
        PoolParams.ext_windows (p := x.params)]
      tauto
    | poolBwd x x' =>
      have hkind : x.params.mode = x'.params.mode → x.params.mode.bwd = x'.params.mode.bwd :=
        congrArg _
      simp only [CudnnRequest.Agrees, CudnnRequest.Hashed, CudnnRequest.Unhashed, Prod.mk.injEq,
        PoolParams.ext_windows (p := x.params)]
      tauto
    | batchNorm x x' => exact (and_iff_left trivial).symm
    | layerNorm x x' =>
      simp only [CudnnRequest.Agrees, CudnnRequest.Hashed, CudnnRequest.Unhashed, Prod.mk.injEq]
      tauto
    | instanceNorm x x' => exact (and_iff_left trivial).symm
    | activationFwd x x' => exact Iff.rfl
    | rnnFwd x x' => exact rnn_agrees_iff x x' hv hv'
  · exact iff_of_false (agrees_of_ne hne) fun h => hashed_of_ne hne h.1

/-- **Equal plan keys mean equal parameters exactly for requests without a key, requests that differ
in a parameter which goes into their graph, and requests that agree in the others.** -/
theorem planKey_sound_iff (r r' : CudnnRequest) :
    (r.SameKey r' → r.Agrees r') ↔ (r.Valid → r'.Valid → r.Hashed r' → r.Unhashed r') := by
  constructor
  · intro hsound hv hv' hhashed
    exact ((agrees_iff hv hv').1 (hsound (sameKey_iff_hashed.2 ⟨hv, hv', hhashed⟩))).2
  · intro hunhashed hkey
    obtain ⟨hv, hv', hhashed⟩ := sameKey_iff_hashed.1 hkey
    exact (agrees_iff hv hv').2 ⟨hhashed, hunhashed hv hv' hhashed⟩

end Requests

/-! ### Requests that share a plan -/

/-- An average pooling of `3 × 3` windows with one cell of padding. -/
def pooling (mode : PoolMode) : CudnnRequest :=
  .poolFwd ⟨.f32, [1, 16, 8, 8], [1, 16, 8, 8], .nchwPacked, ⟨mode, [3, 3], [1, 1], [1, 1], [1, 1]⟩,
    0x3F800000, 0⟩

/-- `y = alpha * conv(x, w)`. -/
def scaledConv (alpha : Scalar) : CudnnRequest :=
  .convFwd ⟨.f32, [1, 3, 8, 8], [16, 3, 3, 3], [1, 16, 6, 6],
    ⟨2, [0, 0], [0, 0], [1, 1], [1, 1], 1⟩, .nchwPacked, .none, alpha, 0⟩

def layerNormOver (axes : List Int64) : CudnnRequest :=
  .layerNorm ⟨.f32, [2, 3, 4, 4], axes, .nchwPacked, 0x3EE4F8B588E368F1⟩

/-- Two layers of a plain recurrent network. -/
def recurrent (mode : RnnMode) (dropout : UInt32) : CudnnRequest :=
  .rnnFwd ⟨.f32, .nchwPacked, ⟨mode, .unidirectional, 2, 128, 256, 32, 8, dropout⟩⟩

/-- The average over a window with or without its padding, a result scaled by one or two, a layer
normalisation over three axes or one, the ReLU and the tanh cell, and networks with and without
dropout have the same key. -/
theorem key_shared :
    (¬ ∀ r r' : CudnnRequest, r.SameKey r' → r.Agrees r') ∧
    ((pooling .avg).SameKey (pooling .avgExcludePadding) ∧
      ¬ (pooling .avg).Agrees (pooling .avgExcludePadding)) ∧
    ((scaledConv 0x3F800000).SameKey (scaledConv 0x40000000) ∧
      ¬ (scaledConv 0x3F800000).Agrees (scaledConv 0x40000000)) ∧
    ((layerNormOver [1, 2, 3]).SameKey (layerNormOver [3]) ∧
      ¬ (layerNormOver [1, 2, 3]).Agrees (layerNormOver [3])) ∧
    ((recurrent .rnn 0).SameKey (recurrent .rnnTanh 0) ∧
      ¬ (recurrent .rnn 0).Agrees (recurrent .rnnTanh 0)) ∧
    ((recurrent .rnn 0).SameKey (recurrent .rnn 0x3F000000) ∧
      ¬ (recurrent .rnn 0).Agrees (recurrent .rnn 0x3F000000)) := by
  have hpool : (pooling .avg).SameKey (pooling .avgExcludePadding) := ⟨_, rfl, rfl⟩
  have hdiffer : ¬ (pooling .avg).Agrees (pooling .avgExcludePadding) := by
    simp [pooling, CudnnRequest.Agrees]
  refine ⟨fun hall => hdiffer (hall _ _ hpool), ⟨hpool, hdiffer⟩, ⟨⟨_, rfl, rfl⟩, ?_⟩,
    ⟨⟨_, rfl, rfl⟩, ?_⟩, ⟨⟨_, rfl, rfl⟩, ?_⟩, ⟨⟨_, rfl, rfl⟩, ?_⟩⟩
  · simp [scaledConv, CudnnRequest.Agrees]
  · simp [layerNormOver, CudnnRequest.Agrees]
  · simp [recurrent, CudnnRequest.Agrees]
  · simp [recurrent, CudnnRequest.Agrees]

end Cudnn

end AtomrAccel
