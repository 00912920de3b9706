import AtomrAccel.Cudnn.Graph

/-!
# The graphs of multi-head attention

The forward graph chains two products through a virtual tensor of scores; the backward graph stands
for its operations by three products.  The mask and the dropout go into no graph.

* `AttentionParams`, with the dimensions of its tensors;
* `buildMhaFwdGraph`, `buildMhaBwdGraph`.
-/

namespace AtomrAccel

namespace Cudnn

/-- The sizes of an attention, and its scale. -/
structure AttentionParams where
  batch : Int64
  seqQ : Int64
  seqKv : Int64
  headsQ : Int64
  headsKv : Int64
  headDim : Int64
  scale : Float64Bits
  deriving DecidableEq, Repr

namespace AttentionParams

/-- The dimensions of the queries. -/
def qDims (p : AttentionParams) : List Int64 := [p.batch, p.headsQ, p.seqQ, p.headDim]

/-- The dimensions of `k` and of `v`. -/
def kvDims (p : AttentionParams) : List Int64 := [p.batch, p.headsKv, p.seqKv, p.headDim]

/-- The dimensions of the scores. -/
def qkDims (p : AttentionParams) : List Int64 := [p.batch, p.headsQ, p.seqQ, p.seqKv]

variable (p : AttentionParams)

@[simp] theorem length_qDims : p.qDims.length = 4 := rfl
@[simp] theorem length_kvDims : p.kvDims.length = 4 := rfl
@[simp] theorem length_qkDims : p.qkDims.length = 4 := rfl

end AttentionParams

/-- The tensor is kept inside the graph. -/
def TensorSpec.virtualized (t : TensorSpec) : TensorSpec := { t with isVirtual := true }

/-- Scores, softmax and output, the scores and their softmax virtual. -/
def buildMhaFwdGraph (dtype : DtypeTag) (p : AttentionParams) (layout : TensorLayout) :
    Option OperationGraphSpec := do
  let q ← TensorSpec.new 1 dtype p.qDims layout
  let k ← TensorSpec.new 2 dtype p.kvDims layout
  let v ← TensorSpec.new 3 dtype p.kvDims layout
  let qk ← TensorSpec.new 4 dtype p.qkDims layout
  let qkSoftmax ← TensorSpec.new 5 dtype p.qkDims layout
  let o ← TensorSpec.new 6 dtype p.qDims layout
  return ⟨[q, k, v, qk.virtualized, qkSoftmax.virtualized, o],
    [.matmul 1 2 4 dtype, .pointwise .identity 4 none 5 dtype p.scale zero, .matmul 5 3 6 dtype],
    "mha_fwd"⟩

/-- The products of the backward pass. -/
def buildMhaBwdGraph (dtype : DtypeTag) (p : AttentionParams) (layout : TensorLayout) :
    Option OperationGraphSpec := do
  let q ← TensorSpec.new 1 dtype p.qDims layout
  let k ← TensorSpec.new 2 dtype p.kvDims layout
  let v ← TensorSpec.new 3 dtype p.kvDims layout
  let dQ ← TensorSpec.new 4 dtype p.qDims layout
  let dK ← TensorSpec.new 5 dtype p.kvDims layout
  let dV ← TensorSpec.new 6 dtype p.kvDims layout
  return ⟨[q, k, v, dQ, dK, dV],
    [.matmul 4 2 7 dtype, .matmul 4 3 8 dtype, .matmul 1 5 9 dtype], "mha_bwd"⟩

end Cudnn

end AtomrAccel
