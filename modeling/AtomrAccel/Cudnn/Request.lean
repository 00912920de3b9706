import AtomrAccel.Cudnn.Graph

/-!
# The requests of the cuDNN actor and their graphs

Every request type has its own builder, which writes the tensors and the operations of its graph.  A
request is modelled with the parameters of its operation; its buffers and its reply channel go into
no graph.

* `ConvFwdRequest`, …, `RnnFwdRequest`: the ten request types, with `graphSpec` and `opKind`;
* `CudnnRequest`, `KeyInput`: a request of any type, and what its plan key is made from.
-/

namespace AtomrAccel

namespace Cudnn

/-- The types that are `CudnnSupported`. -/
inductive CudnnDtype
  | f32
  | f64
  | i8
  | u8
  | i32
  | i64
  | f16
  | bf16
  | f8E4m3
  | f8E5m2
  deriving DecidableEq, Repr

/-- A `T::Scalar` by its bits. -/
abbrev Scalar := UInt64

/-- `dtype_tag`; it panics on the other types. -/
def dtypeTag : CudnnDtype → Option DtypeTag
  | .f32 => some .f32
  | .f64 => some .f64
  | .f16 => some .f16
  | .bf16 => some .bf16
  | .i8 => some .i8
  | .u8 | .i32 | .i64 | .f8E4m3 | .f8E5m2 => none

/-! ### Convolutions -/

/-- The parameters of a convolution. -/
structure ConvDescParams where
  spatialDims : UInt64
  prePadding : List Int64
  postPadding : List Int64
  stride : List Int64
  dilation : List Int64
  groups : Int64
  deriving DecidableEq, Repr

/-- The activations. -/
inductive ActivationKind
  | relu
  | sigmoid
  | tanh
  | gelu
  | geluApprox
  | swish
  | elu
  | softplus
  | identity
  deriving DecidableEq, Repr

/-- The function of an activation. -/
def ActivationKind.pointwiseMode : ActivationKind → PointwiseMode
  | relu => .relu
  | sigmoid => .sigmoid
  | tanh => .tanh
  | gelu => .gelu
  | geluApprox => .geluApprox
  | swish => .swish
  | elu => .elu
  | softplus => .softplus
  | identity => .identity

/-- What follows a convolution. -/
inductive EpilogueKind
  | none
  | bias
  | biasActivation (act : ActivationKind)
  deriving DecidableEq, Repr

/-- `[1, C, 1, …]`. -/
def biasDims : List Int64 → List Int64
  | _ :: c :: dims => 1 :: c :: dims.map fun _ => 1
  | dims => dims.map fun _ => 1

/-- The convolution with what follows it. -/
def buildConvFwdGraph (dtype : DtypeTag) (xDims wDims yDims : List Int64) (conv : ConvDescParams)
    (layout : TensorLayout) (epilogue : EpilogueKind) : Option OperationGraphSpec := do
  let x ← TensorSpec.new 1 dtype xDims layout
  let w ← TensorSpec.new 2 dtype wDims layout
  let y ← TensorSpec.new 3 dtype yDims layout
  let op := OpSpec.convFwd 1 2 3 conv.spatialDims conv.prePadding conv.postPadding conv.stride
    conv.dilation dtype one zero
  let addBias := OpSpec.pointwise .add 3 (some 4) 5 dtype one one
  match epilogue with
  | .none => return ⟨[x, w, y], [op], "conv_fwd"⟩
  | .bias => do
    let b ← TensorSpec.new 4 dtype (biasDims yDims) layout
    let yb ← TensorSpec.new 5 dtype yDims layout
    return ⟨[x, w, y, b, yb], [op, addBias], "conv_fwd"⟩
  | .biasActivation act => do
    let b ← TensorSpec.new 4 dtype (biasDims yDims) layout
    let yb ← TensorSpec.new 5 dtype yDims layout
    let out ← TensorSpec.new 6 dtype yDims layout
    return ⟨[x, w, y, b, yb, out],
      [op, addBias, .pointwise act.pointwiseMode 5 .none 6 dtype one zero], "conv_fwd"⟩

/-- The gradient of the input. -/
def buildConvBwdDataGraph (dtype : DtypeTag) (dyDims wDims dxDims : List Int64)
    (conv : ConvDescParams) (layout : TensorLayout) : Option OperationGraphSpec := do
  let dy ← TensorSpec.new 1 dtype dyDims layout
  let w ← TensorSpec.new 2 dtype wDims layout
  let dx ← TensorSpec.new 3 dtype dxDims layout
  return ⟨[dy, w, dx], [.convBwdData 1 2 3 conv.spatialDims conv.prePadding conv.postPadding
    conv.stride conv.dilation dtype one zero], "conv_bwd_data"⟩

/-- The gradient of the filter. -/
def buildConvBwdFilterGraph (dtype : DtypeTag) (xDims dyDims dwDims : List Int64)
    (conv : ConvDescParams) (layout : TensorLayout) : Option OperationGraphSpec := do
  let x ← TensorSpec.new 1 dtype xDims layout
  let dy ← TensorSpec.new 2 dtype dyDims layout
  let dw ← TensorSpec.new 3 dtype dwDims layout
  return ⟨[x, dy, dw], [.convBwdFilter 1 2 3 conv.spatialDims conv.prePadding conv.postPadding
    conv.stride conv.dilation dtype one zero], "conv_bwd_filter"⟩

/-- `y = alpha * conv(x, w) + beta * y`, with the epilogue. -/
structure ConvFwdRequest where
  dtype : CudnnDtype
  xDims : List Int64
  wDims : List Int64
  yDims : List Int64
  conv : ConvDescParams
  layout : TensorLayout
  epilogue : EpilogueKind
  alpha : Scalar
  beta : Scalar
  deriving DecidableEq, Repr

def ConvFwdRequest.graphSpec (r : ConvFwdRequest) : Option OperationGraphSpec := do
  let dtype ← dtypeTag r.dtype
  buildConvFwdGraph dtype r.xDims r.wDims r.yDims r.conv r.layout r.epilogue

/-- `dx = alpha * conv_bwd_data(w, dy) + beta * dx`. -/
structure ConvBwdDataRequest where
  dtype : CudnnDtype
  dyDims : List Int64
  wDims : List Int64
  dxDims : List Int64
  conv : ConvDescParams
  layout : TensorLayout
  alpha : Scalar
  beta : Scalar
  deriving DecidableEq, Repr

def ConvBwdDataRequest.graphSpec (r : ConvBwdDataRequest) : Option OperationGraphSpec := do
  let dtype ← dtypeTag r.dtype
  buildConvBwdDataGraph dtype r.dyDims r.wDims r.dxDims r.conv r.layout

/-- `dw = alpha * conv_bwd_filter(x, dy) + beta * dw`. -/
structure ConvBwdFilterRequest where
  dtype : CudnnDtype
  xDims : List Int64
  dyDims : List Int64
  dwDims : List Int64
  conv : ConvDescParams
  layout : TensorLayout
  alpha : Scalar
  beta : Scalar
  deriving DecidableEq, Repr

def ConvBwdFilterRequest.graphSpec (r : ConvBwdFilterRequest) : Option OperationGraphSpec := do
  let dtype ← dtypeTag r.dtype
  buildConvBwdFilterGraph dtype r.xDims r.dyDims r.dwDims r.conv r.layout

/-! ### Pooling -/

/-- The kinds of pooling. -/
inductive PoolMode
  | max
  | avg
  | avgExcludePadding
  deriving DecidableEq, Repr

namespace PoolMode

/-- The pooling of a mode. -/
def fwd : PoolMode → PoolKind
  | max => .maxFwd
  | avg | avgExcludePadding => .avgFwd

/-- The gradient of a mode. -/
def bwd : PoolMode → PoolKind
  | max => .maxBwd
  | avg | avgExcludePadding => .avgBwd

end PoolMode

/-- The parameters of a pooling. -/
structure PoolParams where
  mode : PoolMode
  window : List Int64
  prePadding : List Int64
  postPadding : List Int64
  stride : List Int64
  deriving DecidableEq, Repr

/-- The pooling. -/
def buildPoolFwdGraph (dtype : DtypeTag) (xDims yDims : List Int64) (layout : TensorLayout)
    (p : PoolParams) : Option OperationGraphSpec := do
  let x ← TensorSpec.new 1 dtype xDims layout
  let y ← TensorSpec.new 2 dtype yDims layout
  return ⟨[x, y], [.poolFwd p.mode.fwd 1 2 p.window p.prePadding p.postPadding p.stride dtype],
    "pool_fwd"⟩

/-- The gradient of a pooling. -/
def buildPoolBwdGraph (dtype : DtypeTag) (xDims yDims : List Int64) (layout : TensorLayout)
    (p : PoolParams) : Option OperationGraphSpec := do
  let x ← TensorSpec.new 1 dtype xDims layout
  let y ← TensorSpec.new 2 dtype yDims layout
  let dy ← TensorSpec.new 3 dtype yDims layout
  let dx ← TensorSpec.new 4 dtype xDims layout
  return ⟨[x, y, dy, dx],
    [.poolBwd p.mode.bwd 3 1 2 4 p.window p.prePadding p.postPadding p.stride dtype], "pool_bwd"⟩

/-- `y = alpha * pool(x) + beta * y`. -/
structure PoolFwdRequest where
  dtype : CudnnDtype
  xDims : List Int64
  yDims : List Int64
  layout : TensorLayout
  params : PoolParams
  alpha : Scalar
  beta : Scalar
  deriving DecidableEq, Repr

def PoolFwdRequest.graphSpec (r : PoolFwdRequest) : Option OperationGraphSpec := do
  let dtype ← dtypeTag r.dtype
  buildPoolFwdGraph dtype r.xDims r.yDims r.layout r.params

/-- The gradient of a pooling. -/
structure PoolBwdRequest where
  dtype : CudnnDtype
  xDims : List Int64
  yDims : List Int64
  layout : TensorLayout
  params : PoolParams
  alpha : Scalar
  beta : Scalar
  deriving DecidableEq, Repr

def PoolBwdRequest.graphSpec (r : PoolBwdRequest) : Option OperationGraphSpec := do
  let dtype ← dtypeTag r.dtype
  buildPoolBwdGraph dtype r.xDims r.yDims r.layout r.params

/-! ### Normalisation -/

/-- `dims[1]` panics below two dimensions. -/
def buildNormFwdGraph (mode : NormMode) (phase : NormPhase) (dtype : DtypeTag) (dims : List Int64)
    (layout : TensorLayout) (epsilon expAvgFactor : Float64Bits) : Option OperationGraphSpec := do
  let x ← TensorSpec.new 1 dtype dims layout
  let c ← dims[1]?
  let scale ← TensorSpec.new 2 dtype [1, c, 1, 1] layout
  let bias ← TensorSpec.new 3 dtype [1, c, 1, 1] layout
  let y ← TensorSpec.new 4 dtype dims layout
  return ⟨[x, scale, bias, y],
    [.normFwd mode phase 1 2 3 none none 4 dtype epsilon expAvgFactor], "norm_fwd"⟩

/-- A batch normalisation. -/
structure BatchNormRequest where
  phase : NormPhase
  dtype : CudnnDtype
  dims : List Int64
  layout : TensorLayout
  epsilon : Float64Bits
  expAvgFactor : Float64Bits
  deriving DecidableEq, Repr

def BatchNormRequest.graphSpec (r : BatchNormRequest) : Option OperationGraphSpec := do
  let dtype ← dtypeTag r.dtype
  buildNormFwdGraph .batchNorm r.phase dtype r.dims r.layout r.epsilon r.expAvgFactor

/-- A layer normalisation. -/
structure LayerNormRequest where
  dtype : CudnnDtype
  dims : List Int64
  normAxes : List Int64
  layout : TensorLayout
  epsilon : Float64Bits
  deriving DecidableEq, Repr

def LayerNormRequest.graphSpec (r : LayerNormRequest) : Option OperationGraphSpec := do
  let dtype ← dtypeTag r.dtype
  buildNormFwdGraph .layerNorm .training dtype r.dims r.layout r.epsilon zero

/-- An instance normalisation. -/
structure InstanceNormRequest where
  dtype : CudnnDtype
  dims : List Int64
  layout : TensorLayout
  epsilon : Float64Bits
  deriving DecidableEq, Repr

def InstanceNormRequest.graphSpec (r : InstanceNormRequest) : Option OperationGraphSpec := do
  let dtype ← dtypeTag r.dtype
  buildNormFwdGraph .instanceNorm .training dtype r.dims r.layout r.epsilon zero

/-! ### Activation -/

/-- `y = alpha * act(x) + beta * y`. -/
structure ActivationFwdRequest where
  kind : ActivationKind
  dtype : CudnnDtype
  dims : List Int64
  layout : TensorLayout
  alpha : Scalar
  beta : Scalar
  deriving DecidableEq, Repr

def ActivationFwdRequest.graphSpec (r : ActivationFwdRequest) : Option OperationGraphSpec := do
  let dtype ← dtypeTag r.dtype
  let x ← TensorSpec.new 1 dtype r.dims r.layout
  let y ← TensorSpec.new 2 dtype r.dims r.layout
  return ⟨[x, y], [.pointwise r.kind.pointwiseMode 1 none 2 dtype one zero], "activation_fwd"⟩

/-- The same graph for a tag. -/
def buildActivationFwdGraph (dtype : DtypeTag) (dims : List Int64) (layout : TensorLayout)
    (kind : ActivationKind) : Option OperationGraphSpec := do
  let x ← TensorSpec.new 1 dtype dims layout
  let y ← TensorSpec.new 2 dtype dims layout
  return ⟨[x, y], [.pointwise kind.pointwiseMode 1 none 2 dtype one zero], "activation_fwd"⟩

/-! ### Recurrent networks -/

/-- The cells of a recurrent network. -/
inductive RnnMode
  | rnn
  | rnnTanh
  | lstm
  | gru
  deriving DecidableEq, Repr

namespace RnnMode

/-- The gates of a cell. -/
def numGates : RnnMode → Int64
  | rnn | rnnTanh => 1
  | lstm => 4
  | gru => 3

/-- Whether a cell has a state besides its output. -/
def hasCellState : RnnMode → Bool
  | lstm => true
  | rnn | rnnTanh | gru => false

/-- `RnnFwdRequest::op_kind`. -/
def opKind : RnnMode → String
  | rnn | rnnTanh => "rnn_fwd"
  | lstm => "lstm_fwd"
  | gru => "gru_fwd"

end RnnMode

/-- The directions of a recurrent network. -/
inductive RnnDirection
  | unidirectional
  | bidirectional
  deriving DecidableEq, Repr

/-- How many passes there are. -/
def RnnDirection.factor : RnnDirection → ℕ
  | unidirectional => 1
  | bidirectional => 2

/-- The parameters of a recurrent network. -/
structure RnnParams where
  mode : RnnMode
  direction : RnnDirection
  numLayers : UInt32
  inputSize : Int64
  hiddenSize : Int64
  seqLength : Int64
  batchSize : Int64
  /-- an `f32` by its bits -/
  dropout : UInt32
  deriving DecidableEq, Repr

namespace RnnParams

/-- The width of the output, over both directions. -/
def outputSize (p : RnnParams) : Int64 := p.hiddenSize * Int64.ofNat p.direction.factor

/-- `num_layers as i64 * direction.factor() as i64`. -/
def stacked (p : RnnParams) : Int64 :=
  Int64.ofNat p.numLayers.toNat * Int64.ofNat p.direction.factor

/-- The number of weights. -/
def weightDim (p : RnnParams) : Int64 :=
  p.mode.numGates * p.hiddenSize * (p.inputSize + p.hiddenSize + 2) *
    Int64.ofNat p.numLayers.toNat * Int64.ofNat p.direction.factor

end RnnParams

/-- The tensors of a recurrent network, without an operation. -/
def buildRnnFwdSpec (dtype : DtypeTag) (p : RnnParams) (layout : TensorLayout) :
    Option OperationGraphSpec := do
  let hDims := [p.stacked, p.batchSize, p.hiddenSize]
  let x ← TensorSpec.new 1 dtype [p.seqLength, p.batchSize, p.inputSize] layout
  let hIn ← TensorSpec.new 2 dtype hDims layout
  let y ← TensorSpec.new 3 dtype [p.seqLength, p.batchSize, p.outputSize] layout
  let hOut ← TensorSpec.new 4 dtype hDims layout
  if p.mode.hasCellState then
    let cIn ← TensorSpec.new 5 dtype hDims layout
    let cOut ← TensorSpec.new 6 dtype hDims layout
    let weights ← TensorSpec.new 99 dtype [p.weightDim] layout
    return ⟨[x, hIn, y, hOut, cIn, cOut, weights], [], "rnn_fwd"⟩
  else
    let weights ← TensorSpec.new 99 dtype [p.weightDim] layout
    return ⟨[x, hIn, y, hOut, weights], [], "rnn_fwd"⟩

/-- A forward pass of a recurrent network. -/
structure RnnFwdRequest where
  dtype : CudnnDtype
  layout : TensorLayout
  params : RnnParams
  deriving DecidableEq, Repr

def RnnFwdRequest.graphSpec (r : RnnFwdRequest) : Option OperationGraphSpec := do
  let dtype ← dtypeTag r.dtype
  buildRnnFwdSpec dtype r.params r.layout

/-! ### Keys -/

/-- A `PlanCacheKey`, with what is hashed in place of its digest. -/
structure KeyInput where
  opKind : String
  dtype : DtypeTag
  signature : List Write
  deriving DecidableEq, Repr

/-- `cache_key`. -/
def cacheKey (opKind : String) (dtype : DtypeTag) (graph : OperationGraphSpec) : KeyInput :=
  ⟨opKind, dtype, graph.hash⟩

/-- The requests, with the graphs that they ask for. -/
inductive CudnnRequest
  | convFwd (r : ConvFwdRequest)
  | convBwdData (r : ConvBwdDataRequest)
  | convBwdFilter (r : ConvBwdFilterRequest)
  | poolFwd (r : PoolFwdRequest)
  | poolBwd (r : PoolBwdRequest)
  | batchNorm (r : BatchNormRequest)
  | layerNorm (r : LayerNormRequest)
  | instanceNorm (r : InstanceNormRequest)
  | activationFwd (r : ActivationFwdRequest)
  | rnnFwd (r : RnnFwdRequest)
  deriving DecidableEq, Repr

namespace CudnnRequest

/-- The name of a request's operation. -/
def opKind : CudnnRequest → String
  | convFwd _ => "conv_fwd"
  | convBwdData _ => "conv_bwd_data"
  | convBwdFilter _ => "conv_bwd_filter"
  | poolFwd _ => "pool_fwd"
  | poolBwd _ => "pool_bwd"
  | batchNorm _ => "batchnorm"
  | layerNorm _ => "layernorm"
  | instanceNorm _ => "instancenorm"
  | activationFwd _ => "activation_fwd"
  | rnnFwd r => r.params.mode.opKind

/-- The element type of a request. -/
def dtype : CudnnRequest → CudnnDtype
  | convFwd r => r.dtype
  | convBwdData r => r.dtype
  | convBwdFilter r => r.dtype
  | poolFwd r => r.dtype
  | poolBwd r => r.dtype
  | batchNorm r => r.dtype
  | layerNorm r => r.dtype
  | instanceNorm r => r.dtype
  | activationFwd r => r.dtype
  | rnnFwd r => r.dtype

/-- The graph a request asks for. -/
def graphSpec : CudnnRequest → Option OperationGraphSpec
  | convFwd r => r.graphSpec
  | convBwdData r => r.graphSpec
  | convBwdFilter r => r.graphSpec
  | poolFwd r => r.graphSpec
  | poolBwd r => r.graphSpec
  | batchNorm r => r.graphSpec
  | layerNorm r => r.graphSpec
  | instanceNorm r => r.graphSpec
  | activationFwd r => r.graphSpec
  | rnnFwd r => r.graphSpec

/-- What the plan key of a request is made from, unless its graph panics. -/
def keyInput (r : CudnnRequest) : Option KeyInput := do
  let dtype ← dtypeTag r.dtype
  let graph ← r.graphSpec
  return cacheKey r.opKind dtype graph

end CudnnRequest

end Cudnn

end AtomrAccel
