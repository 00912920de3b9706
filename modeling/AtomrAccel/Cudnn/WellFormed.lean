import AtomrAccel.Cudnn.Attention
import AtomrAccel.Cudnn.Blueprint
import AtomrAccel.Lib.Overflow

/-!
# Which builders make well-formed graphs

A graph is well formed when its tensors have distinct ids and complete strides, its operations name
declared tensors only, no tensor has two writers and the tensors of an operation on shapes have one
rank.  A builder can also panic: over a layout that does not fit a tensor and, in a build that
checks for overflow, over a stride or a size that does not fit.

* `OpSpec.reads`, `OpSpec.writes`, `OperationGraphSpec.WellFormed`;
* `exactStrides`, `BuilderCall`, `BuilderCall.Fits`, `BuilderCall.run`: a call of a builder, and
  what comes of it in either build;
* `Outline`, `Wired`: the ids, dimensions and operations a builder writes down, and what is to check
  of them;
* `BuilderCall.Sound`, `BuilderCall.builders_wellFormed_iff`: the calls, over packed layouts and
  dimensions of one rank of at least three, that make well-formed graphs.
-/

namespace AtomrAccel

namespace Cudnn

open Overflow

/-! ### Well-formed graphs -/

namespace OpSpec

/-- The tensors an operation reads. -/
def reads : OpSpec → List Int64
  | convFwd x w .. => [x, w]
  | convBwdData dy w .. => [dy, w]
  | convBwdFilter x dy .. => [x, dy]
  | pointwise _ x b .. => x :: b.toList
  | poolFwd _ x .. => [x]
  | poolBwd _ dy x y .. => [dy, x, y]
  | normFwd _ _ x scale bias mean var .. => [x, scale, bias] ++ mean.toList ++ var.toList
  | normBwd _ x dy scale mean var .. => [x, dy, scale, mean, var]
  | matmul a b .. => [a, b]
  | reduce _ x .. => [x]
  | reshape x _ => [x]

/-- The tensors an operation writes. -/
def writes : OpSpec → List Int64
  | convFwd _ _ y .. => [y]
  | convBwdData _ _ dx .. => [dx]
  | convBwdFilter _ _ dw .. => [dw]
  | pointwise _ _ _ y .. => [y]
  | poolFwd _ _ y .. => [y]
  | poolBwd _ _ _ _ dx .. => [dx]
  | normFwd _ _ _ _ _ _ _ y .. => [y]
  | normBwd _ _ _ _ _ _ dx dscale dbias _ => [dx, dscale, dbias]
  | matmul _ _ c _ => [c]
  | reduce _ _ y _ => [y]
  | reshape _ y => [y]

/-- The tensors of the operation have to have one rank. -/
def ranked : OpSpec → Bool
  | convFwd .. | convBwdData .. | convBwdFilter .. | pointwise .. | poolFwd .. | poolBwd ..
  | normFwd .. | normBwd .. => true
  | matmul .. | reduce .. | reshape .. => false

end OpSpec

/-- Ids are unique, operations read and write declared tensors, none is written twice, and strides
and ranks fit. -/
structure OperationGraphSpec.WellFormed (g : OperationGraphSpec) : Prop where
  uids : (g.tensors.map (·.uid)).Nodup
  declared : ∀ op ∈ g.ops, ∀ u ∈ op.reads ++ op.writes, u ∈ g.tensors.map (·.uid)
  writtenOnce : g.ops.Pairwise fun op op' => ∀ u ∈ op.writes, u ∉ op'.writes
  strides : ∀ t ∈ g.tensors, t.strides.length = t.dims.length
  ranks : ∀ op ∈ g.ops, op.ranked = true →
    ∃ r, ∀ t ∈ g.tensors, t.uid ∈ op.reads ++ op.writes → t.dims.length = r

/-! ### Calls of the builders -/

/-- `stridesFrom` in whole numbers. -/
def exactStridesFrom (unit : ℤ) (dims : List ℤ) : List ℤ :=
  dims.foldr (fun d strides => strides.headD unit * d :: strides) [unit]

/-- `packedStrides` in whole numbers. -/
def exactStrides (dims : List ℤ) (layout : TensorLayout) : List ℤ :=
  match dims, layout with
  | [], _ => []
  | _ :: dims, .nchwPacked | _ :: dims, .strided => exactStridesFrom 1 dims
  | _ :: c :: s :: dims, .nhwcPacked =>
    let spatial := exactStridesFrom c dims
    spatial.headD c * s :: 1 :: spatial
  | _, .nhwcPacked => []

/-- The value is an `i64`. -/
abbrev FitsI64 (v : ℤ) : Prop := -2 ^ 63 ≤ v ∧ v < 2 ^ 63

/-- What `build_rnn_fwd_spec` computes besides strides, in whole numbers. -/
def RnnParams.exactSizes (p : RnnParams) : List ℤ :=
  let hidden := p.hiddenSize.toInt
  let gates := p.mode.numGates.toInt * hidden
  let width := p.inputSize.toInt + hidden
  let layers : ℤ := p.numLayers.toNat
  let factor : ℤ := p.direction.factor
  [layers * factor, hidden * factor, gates, width, width + 2, gates * (width + 2),
    gates * (width + 2) * layers, gates * (width + 2) * layers * factor]

/-- A call of one of the ten builders. -/
inductive BuilderCall
  | convFwd (dtype : DtypeTag) (xDims wDims yDims : List Int64) (conv : ConvDescParams)
      (layout : TensorLayout) (epilogue : EpilogueKind)
  | convBwdData (dtype : DtypeTag) (dyDims wDims dxDims : List Int64) (conv : ConvDescParams)
      (layout : TensorLayout)
  | convBwdFilter (dtype : DtypeTag) (xDims dyDims dwDims : List Int64) (conv : ConvDescParams)
      (layout : TensorLayout)
  | normFwd (mode : NormMode) (phase : NormPhase) (dtype : DtypeTag) (dims : List Int64)
      (layout : TensorLayout) (epsilon expAvgFactor : Float64Bits)
  | poolFwd (dtype : DtypeTag) (xDims yDims : List Int64) (layout : TensorLayout) (p : PoolParams)
  | poolBwd (dtype : DtypeTag) (xDims yDims : List Int64) (layout : TensorLayout) (p : PoolParams)
  | activationFwd (dtype : DtypeTag) (dims : List Int64) (layout : TensorLayout)
      (kind : ActivationKind)
  | mhaFwd (dtype : DtypeTag) (p : AttentionParams) (layout : TensorLayout)
  | mhaBwd (dtype : DtypeTag) (p : AttentionParams) (layout : TensorLayout)
  | rnnFwd (dtype : DtypeTag) (p : RnnParams) (layout : TensorLayout)
  deriving DecidableEq, Repr

namespace BuilderCall

/-- The graph of a build whose overflows wrap around. -/
def graph : BuilderCall → Option OperationGraphSpec
  | convFwd dtype xDims wDims yDims conv layout epilogue =>
    buildConvFwdGraph dtype xDims wDims yDims conv layout epilogue
  | convBwdData dtype dyDims wDims dxDims conv layout =>
    buildConvBwdDataGraph dtype dyDims wDims dxDims conv layout
  | convBwdFilter dtype xDims dyDims dwDims conv layout =>
    buildConvBwdFilterGraph dtype xDims dyDims dwDims conv layout
  | normFwd mode phase dtype dims layout epsilon expAvgFactor =>
    buildNormFwdGraph mode phase dtype dims layout epsilon expAvgFactor
  | poolFwd dtype xDims yDims layout p => buildPoolFwdGraph dtype xDims yDims layout p
  | poolBwd dtype xDims yDims layout p => buildPoolBwdGraph dtype xDims yDims layout p
  | activationFwd dtype dims layout kind => buildActivationFwdGraph dtype dims layout kind
  | mhaFwd dtype p layout => buildMhaFwdGraph dtype p layout
  | mhaBwd dtype p layout => buildMhaBwdGraph dtype p layout
  | rnnFwd dtype p layout => buildRnnFwdSpec dtype p layout

/-- The layout a builder is called with. -/
def layout : BuilderCall → TensorLayout
  | convFwd _ _ _ _ _ layout _ | convBwdData _ _ _ _ _ layout | convBwdFilter _ _ _ _ _ layout
  | normFwd _ _ _ _ layout _ _ | poolFwd _ _ _ layout _ | poolBwd _ _ _ layout _
  | activationFwd _ _ layout _ | mhaFwd _ _ layout | mhaBwd _ _ layout | rnnFwd _ _ layout => layout

/-- The dimensions the caller gives. -/
def extents : BuilderCall → List (List Int64)
  | convFwd _ xDims wDims yDims .. => [xDims, wDims, yDims]
  | convBwdData _ dyDims wDims dxDims .. => [dyDims, wDims, dxDims]
  | convBwdFilter _ xDims dyDims dwDims .. => [xDims, dyDims, dwDims]
  | normFwd _ _ _ dims .. => [dims]
  | poolFwd _ xDims yDims .. | poolBwd _ xDims yDims .. => [xDims, yDims]
  | activationFwd _ dims .. => [dims]
  | mhaFwd _ p _ | mhaBwd _ p _ => [p.qDims, p.kvDims]
  | rnnFwd _ p _ => [[p.seqLength, p.batchSize, p.inputSize],
      [p.seqLength, p.batchSize, p.hiddenSize]]

/-- The tensors a builder makes. -/
def tensors : BuilderCall → List (Int64 × List Int64)
  | convFwd _ xDims wDims yDims _ _ epilogue =>
    (1, xDims) :: (2, wDims) :: (3, yDims) :: epilogue.tensors yDims
  | convBwdData _ dyDims wDims dxDims .. => [(1, dyDims), (2, wDims), (3, dxDims)]
  | convBwdFilter _ xDims dyDims dwDims .. => [(1, xDims), (2, dyDims), (3, dwDims)]
  | normFwd _ _ _ dims .. => normTensors dims
  | poolFwd _ xDims yDims .. => [(1, xDims), (2, yDims)]
  | poolBwd _ xDims yDims .. => [(1, xDims), (2, yDims), (3, yDims), (4, xDims)]
  | activationFwd _ dims .. => [(1, dims), (2, dims)]
  | mhaFwd _ p _ => [(1, p.qDims), (2, p.kvDims), (3, p.kvDims), (4, p.qkDims), (5, p.qkDims),
      (6, p.qDims)]
  | mhaBwd _ p _ => [(1, p.qDims), (2, p.kvDims), (3, p.kvDims), (4, p.qDims), (5, p.kvDims),
      (6, p.kvDims)]
  | rnnFwd _ p _ => p.tensors

/-- The sizes a builder computes for its tensors. -/
def sizes : BuilderCall → List ℤ
  | rnnFwd _ p _ => p.exactSizes
  | _ => []

/-- Everything the builder computes fits. -/
def Fits (c : BuilderCall) : Prop :=
  (∀ v ∈ c.sizes, FitsI64 v) ∧
    ∀ t ∈ c.tensors, ∀ s ∈ exactStrides (t.2.map Int64.toInt) c.layout, FitsI64 s

instance (c : BuilderCall) : Decidable c.Fits := inferInstanceAs (Decidable (_ ∧ _))

/-- A call in a build, `none` when it panics. -/
def run (build : Build) (c : BuilderCall) : Option OperationGraphSpec :=
  (build.guard c.Fits c.graph).join

/-- The calls in question: packed layouts, and dimensions of one rank of at least three. -/
structure Admissible (c : BuilderCall) : Prop where
  packed : c.layout = .nchwPacked ∨ c.layout = .nhwcPacked
  common : ∃ r ≥ 3, ∀ dims ∈ c.extents, dims.length = r

/-- The builder makes a well-formed graph when nothing overflows: a normalisation of four dimensions,
and a recurrent network with the channels first. -/
def Supported : BuilderCall → Prop
  | normFwd _ _ _ dims .. => dims.length = 4
  | mhaBwd .. => False
  | rnnFwd _ _ layout => layout = .nchwPacked
  | convFwd .. | convBwdData .. | convBwdFilter .. | poolFwd .. | poolBwd .. | activationFwd ..
  | mhaFwd .. => True

/-- The call does not go wrong in the build. -/
def Sound (build : Build) (c : BuilderCall) : Prop :=
  (build = .checked → c.Fits) ∧ c.Supported

end BuilderCall

/-! ### Outlines -/

/-- The ids, dimensions and operations of a graph with complete strides. -/
structure Outline (g : OperationGraphSpec) (tensors : List (Int64 × List Int64))
    (ops : List OpSpec) : Prop where
  tensors : g.tensors.map (fun t => (t.uid, t.dims)) = tensors
  ops : g.ops = ops
  strides : ∀ t ∈ g.tensors, t.strides.length = t.dims.length

/-- The ids of tensors and those that operations read and write fit together. -/
def Wired (uids : List Int64) (accesses : List (List Int64 × List Int64)) : Prop :=
  uids.Nodup ∧ (∀ a ∈ accesses, a.1 ++ a.2 ⊆ uids) ∧
    accesses.Pairwise fun a a' => a.2.all (· ∉ a'.2)

instance (uids : List Int64) (accesses : List (List Int64 × List Int64)) :
    Decidable (Wired uids accesses) := inferInstanceAs (Decidable (_ ∧ _ ∧ _))

/-- What an operation reads and what it writes. -/
def OpSpec.access (op : OpSpec) : List Int64 × List Int64 := (op.reads, op.writes)

section Outlines

variable {g : OperationGraphSpec} {tensors : List (Int64 × List Int64)} {ops : List OpSpec}
  {layout : TensorLayout} {dims : List Int64}

/-- Well-formedness is a matter of the outline. -/
theorem Outline.wellFormed_iff (h : Outline g tensors ops) :
    g.WellFormed ↔ Wired (tensors.map (·.1)) (ops.map OpSpec.access) ∧
      ∀ op ∈ ops, op.ranked = true →
        ∃ r, ∀ t ∈ tensors, t.1 ∈ op.reads ++ op.writes → t.2.length = r := by
  have huids : g.tensors.map (·.uid) = tensors.map (·.1) := by
    rw [← h.tensors, List.map_map]
    rfl
  have hwired : Wired (tensors.map (·.1)) (ops.map OpSpec.access) ↔
      (g.tensors.map (·.uid)).Nodup ∧
        (∀ op ∈ g.ops, ∀ u ∈ op.reads ++ op.writes, u ∈ g.tensors.map (·.uid)) ∧
        g.ops.Pairwise fun op op' => ∀ u ∈ op.writes, u ∉ op'.writes := by
    unfold Wired
    simp only [huids, h.ops, List.forall_mem_map, List.pairwise_map, List.all_eq_true,
      decide_eq_true_eq]
    rfl
  rw [hwired, ← h.tensors, ← h.ops]
  constructor
  · intro hg
    refine ⟨⟨hg.uids, hg.declared, hg.writtenOnce⟩, fun op hop hranked => ?_⟩
    obtain ⟨r, hr⟩ := hg.ranks op hop hranked
    exact ⟨r, List.forall_mem_map.2 hr⟩
  · rintro ⟨⟨hnodup, hdeclared, hwritten⟩, hranks⟩
    refine ⟨hnodup, hdeclared, hwritten, h.strides, fun op hop hranked => ?_⟩
    obtain ⟨r, hr⟩ := hranks op hop hranked
    exact ⟨r, List.forall_mem_map.1 hr⟩

/-- When all tensors have one rank, the wiring is all there is to check. -/
theorem Outline.wellFormed (h : Outline g tensors ops)
    (hwired : Wired (tensors.map (·.1)) (ops.map OpSpec.access)) {r : ℕ}
    (hranks : ∀ t ∈ tensors, t.2.length = r) : g.WellFormed :=
  h.wellFormed_iff.2 ⟨hwired, fun _ _ _ => ⟨r, fun t ht _ => hranks t ht⟩⟩

theorem length_stridesFrom (unit : Int64) (dims : List Int64) :
    (stridesFrom unit dims).length = dims.length + 1 := by
  induction dims with
  | nil => rfl
  | cons d dims ih => exact congrArg (· + 1) ih

theorem length_packedStrides {s : List Int64} (h : packedStrides dims layout = some s) :
    s.length = dims.length := by
  match dims, layout with
  | [], _ =>
    cases h
    rfl
  | _ :: dims, .nchwPacked | _ :: dims, .strided =>
    cases h
    exact length_stridesFrom 1 dims
  | _ :: c :: _ :: dims, .nhwcPacked =>
    cases h
    exact congrArg (· + 2) (length_stridesFrom c dims)

/-- A layout fits every tensor of at least three dimensions. -/
theorem packedStrides_of_rank (hrank : 3 ≤ dims.length) (layout : TensorLayout) :
    ∃ s, packedStrides dims layout = some s := by
  match dims, hrank with
  | _ :: _ :: _ :: _, _ => cases layout <;> exact ⟨_, rfl⟩

theorem TensorSpec.new_of_rank {r : ℕ} (hr : 3 ≤ r) (hdims : dims.length = r)
    (layout : TensorLayout) :
    ∃ s, s.length = r ∧
      ∀ uid dtype, TensorSpec.new uid dtype dims layout = some ⟨uid, dtype, dims, s, 16, false⟩ := by
  obtain ⟨s, hs⟩ := packedStrides_of_rank (hdims ▸ hr) layout
  refine ⟨s, (length_packedStrides hs).trans hdims, fun uid dtype => ?_⟩
  rw [TensorSpec.new, hs]
  rfl

@[simp] theorem length_biasDims (dims : List Int64) : (biasDims dims).length = dims.length := by
  match dims with
  | [] | [_] => rfl
  | _ :: c :: dims => simp [biasDims]

end Outlines

/-! ### The builders one by one -/

section Builders

variable {dtype : DtypeTag} {layout : TensorLayout} {r : ℕ}

/-- The graph of some tensors, made one after the other, and then some operations. -/
def uniformGraph (dtype : DtypeTag) (layout : TensorLayout) (tensors : List (Int64 × List Int64))
    (ops : List OpSpec) (name : String) : Option OperationGraphSpec := do
  let specs ← tensors.mapM fun t => TensorSpec.new t.1 dtype t.2 layout
  return ⟨specs, ops, name⟩

/-- Tensors of one rank, three at least, are all made. -/
theorem mapM_new_of_rank (hr : 3 ≤ r) {tensors : List (Int64 × List Int64)}
    (hranks : ∀ t ∈ tensors, t.2.length = r) :
    ∃ specs, tensors.mapM (fun t => TensorSpec.new t.1 dtype t.2 layout) = some specs ∧
      specs.map (fun t => (t.uid, t.dims)) = tensors ∧
      ∀ t ∈ specs, t.strides.length = t.dims.length := by
  induction tensors with
  | nil => exact ⟨[], rfl, rfl, nofun⟩
  | cons t tensors ih =>
    obtain ⟨ht, hrest⟩ := List.forall_mem_cons.1 hranks
    obtain ⟨s, hs, hnew⟩ := TensorSpec.new_of_rank hr ht layout
    obtain ⟨specs, hspecs, houtline, hstrides⟩ := ih hrest
    refine ⟨⟨t.1, dtype, t.2, s, 16, false⟩ :: specs, ?_, ?_, ?_⟩
    · rw [List.mapM_cons, hnew, hspecs]
      rfl
    · rw [List.map_cons, houtline]
    · exact List.forall_mem_cons.2 ⟨hs.trans ht.symm, hstrides⟩

/-- Operations that are wired to tensors of one rank make a well-formed graph. -/
theorem uniformGraph_wellFormed (hr : 3 ≤ r) {tensors : List (Int64 × List Int64)}
    {ops : List OpSpec} {name : String} (hranks : ∀ t ∈ tensors, t.2.length = r)
    (hwired : Wired (tensors.map (·.1)) (ops.map OpSpec.access)) :
    ∃ g, uniformGraph dtype layout tensors ops name = some g ∧ g.WellFormed := by
  obtain ⟨specs, hspecs, houtline, hstrides⟩ := mapM_new_of_rank hr hranks
  refine ⟨⟨specs, ops, name⟩, ?_, Outline.wellFormed ⟨houtline, rfl, hstrides⟩ hwired hranks⟩
  rw [uniformGraph, hspecs]
  rfl

theorem convFwd_wellFormed (hr : 3 ≤ r) {xDims wDims yDims : List Int64} (hx : xDims.length = r)
    (hw : wDims.length = r) (hy : yDims.length = r) (conv : ConvDescParams)
    (epilogue : EpilogueKind) :
    ∃ g, buildConvFwdGraph dtype xDims wDims yDims conv layout epilogue = some g ∧
      g.WellFormed := by
  have hb : (biasDims yDims).length = r := (length_biasDims yDims).trans hy
  have hgraph : buildConvFwdGraph dtype xDims wDims yDims conv layout epilogue =
      uniformGraph dtype layout ((1, xDims) :: (2, wDims) :: (3, yDims) :: epilogue.tensors yDims)
        (.convFwd 1 2 3 conv.spatialDims conv.prePadding conv.postPadding conv.stride
          conv.dilation dtype one zero :: epilogue.ops dtype) "conv_fwd" := by
    cases epilogue <;>
      simp only [buildConvFwdGraph, uniformGraph, EpilogueKind.tensors, EpilogueKind.ops,
        List.mapM_cons, List.mapM_nil, bind_assoc, pure_bind]
  rw [hgraph]
  refine uniformGraph_wellFormed hr ?_ ?_
  · cases epilogue <;> simp [EpilogueKind.tensors, hx, hw, hy, hb]
  · cases epilogue with
    | none => exact (by decide : Wired [1, 2, 3] [([1, 2], [3])])
    | bias => exact (by decide : Wired [1, 2, 3, 4, 5] [([1, 2], [3]), ([3, 4], [5])])
    | biasActivation act =>
      exact (by decide : Wired [1, 2, 3, 4, 5, 6] [([1, 2], [3]), ([3, 4], [5]), ([5], [6])])

theorem convBwdData_wellFormed (hr : 3 ≤ r) {dyDims wDims dxDims : List Int64}
    (hdy : dyDims.length = r) (hw : wDims.length = r) (hdx : dxDims.length = r)
    (conv : ConvDescParams) :
    ∃ g, buildConvBwdDataGraph dtype dyDims wDims dxDims conv layout = some g ∧
      g.WellFormed := by
  have hgraph : buildConvBwdDataGraph dtype dyDims wDims dxDims conv layout =
      uniformGraph dtype layout [(1, dyDims), (2, wDims), (3, dxDims)]
        [.convBwdData 1 2 3 conv.spatialDims conv.prePadding conv.postPadding conv.stride
          conv.dilation dtype one zero] "conv_bwd_data" := by
    simp only [buildConvBwdDataGraph, uniformGraph, List.mapM_cons, List.mapM_nil, bind_assoc,
      pure_bind]
  rw [hgraph]
  exact uniformGraph_wellFormed hr (by simp [hdy, hw, hdx])
    (by decide : Wired [1, 2, 3] [([1, 2], [3])])

theorem convBwdFilter_wellFormed (hr : 3 ≤ r) {xDims dyDims dwDims : List Int64}
    (hx : xDims.length = r) (hdy : dyDims.length = r) (hdw : dwDims.length = r)
    (conv : ConvDescParams) :
    ∃ g, buildConvBwdFilterGraph dtype xDims dyDims dwDims conv layout = some g ∧
      g.WellFormed := by
  have hgraph : buildConvBwdFilterGraph dtype xDims dyDims dwDims conv layout =
      uniformGraph dtype layout [(1, xDims), (2, dyDims), (3, dwDims)]
        [.convBwdFilter 1 2 3 conv.spatialDims conv.prePadding conv.postPadding conv.stride
          conv.dilation dtype one zero] "conv_bwd_filter" := by
    simp only [buildConvBwdFilterGraph, uniformGraph, List.mapM_cons, List.mapM_nil, bind_assoc,
      pure_bind]
  rw [hgraph]
  exact uniformGraph_wellFormed hr (by simp [hx, hdy, hdw])
    (by decide : Wired [1, 2, 3] [([1, 2], [3])])

theorem poolFwd_wellFormed (hr : 3 ≤ r) {xDims yDims : List Int64} (hx : xDims.length = r)
    (hy : yDims.length = r) (p : PoolParams) :
    ∃ g, buildPoolFwdGraph dtype xDims yDims layout p = some g ∧ g.WellFormed := by
  have hgraph : buildPoolFwdGraph dtype xDims yDims layout p =
      uniformGraph dtype layout [(1, xDims), (2, yDims)]
        [.poolFwd p.mode.fwd 1 2 p.window p.prePadding p.postPadding p.stride dtype]
        "pool_fwd" := by
    simp only [buildPoolFwdGraph, uniformGraph, List.mapM_cons, List.mapM_nil, bind_assoc,
      pure_bind]
  rw [hgraph]
  exact uniformGraph_wellFormed hr (by simp [hx, hy]) (by decide : Wired [1, 2] [([1], [2])])

theorem poolBwd_wellFormed (hr : 3 ≤ r) {xDims yDims : List Int64} (hx : xDims.length = r)
    (hy : yDims.length = r) (p : PoolParams) :
    ∃ g, buildPoolBwdGraph dtype xDims yDims layout p = some g ∧ g.WellFormed := by
  have hgraph : buildPoolBwdGraph dtype xDims yDims layout p =
      uniformGraph dtype layout [(1, xDims), (2, yDims), (3, yDims), (4, xDims)]
        [.poolBwd p.mode.bwd 3 1 2 4 p.window p.prePadding p.postPadding p.stride dtype]
        "pool_bwd" := by
    simp only [buildPoolBwdGraph, uniformGraph, List.mapM_cons, List.mapM_nil, bind_assoc,
      pure_bind]
  rw [hgraph]
  exact uniformGraph_wellFormed hr (by simp [hx, hy])
    (by decide : Wired [1, 2, 3, 4] [([3, 1, 2], [4])])

/-- The scale and the bias of a normalisation have four dimensions. -/
theorem normFwd_wellFormed_iff {dims : List Int64} (hr : 3 ≤ dims.length) (mode : NormMode)
    (phase : NormPhase) (epsilon expAvgFactor : Float64Bits) :
    (∃ g, buildNormFwdGraph mode phase dtype dims layout epsilon expAvgFactor = some g ∧
      g.WellFormed) ↔ dims.length = 4 := by
  obtain ⟨c, hc⟩ : ∃ c, dims[1]? = some c := ⟨_, List.getElem?_eq_getElem (by omega)⟩
  obtain ⟨sx, hsx, hnewx⟩ := TensorSpec.new_of_rank hr rfl layout
  have hfour : [1, c, 1, 1].length = 4 := rfl
  obtain ⟨sc, hsc, hnewc⟩ := TensorSpec.new_of_rank (Nat.le_succ 3) hfour layout
  let op := OpSpec.normFwd mode phase 1 2 3 none none 4 dtype epsilon expAvgFactor
  let g : OperationGraphSpec := ⟨[⟨1, dtype, dims, sx, 16, false⟩,
    ⟨2, dtype, [1, c, 1, 1], sc, 16, false⟩, ⟨3, dtype, [1, c, 1, 1], sc, 16, false⟩,
    ⟨4, dtype, dims, sx, 16, false⟩], [op], "norm_fwd"⟩
  have hgraph : buildNormFwdGraph mode phase dtype dims layout epsilon expAvgFactor = some g := by
    simp only [buildNormFwdGraph, hnewx, hc, hnewc, Option.bind_eq_bind, Option.bind_some]
    rfl
  have hout : Outline g [(1, dims), (2, [1, c, 1, 1]), (3, [1, c, 1, 1]), (4, dims)] [op] :=
    ⟨rfl, rfl, by simp [g, hsx, hsc]⟩
  rw [hgraph]
  constructor
  · rintro ⟨g', hg, hwf⟩
    obtain rfl : g = g' := Option.some.inj hg
    obtain ⟨-, hranks⟩ := hout.wellFormed_iff.1 hwf
    obtain ⟨r, hall⟩ := hranks op List.mem_cons_self rfl
    have hx : dims.length = r := hall (1, dims) (by simp) (show _ ∈ [1, 2, 3, 4] by simp)
    have hscale : 4 = r := hall (2, [1, c, 1, 1]) (by simp) (show _ ∈ [1, 2, 3, 4] by simp)
    omega
  · intro hdims
    refine ⟨g, rfl, hout.wellFormed (by decide : Wired [1, 2, 3, 4] [([1, 2, 3], [4])])
      (r := 4) ?_⟩
    simp [hdims]

theorem activationFwd_wellFormed {dims : List Int64} (hr : 3 ≤ dims.length)
    (kind : ActivationKind) :
    ∃ g, buildActivationFwdGraph dtype dims layout kind = some g ∧ g.WellFormed := by
  have hgraph : buildActivationFwdGraph dtype dims layout kind =
      uniformGraph dtype layout [(1, dims), (2, dims)]
        [.pointwise kind.pointwiseMode 1 none 2 dtype one zero] "activation_fwd" := by
    simp only [buildActivationFwdGraph, uniformGraph, List.mapM_cons, List.mapM_nil, bind_assoc,
      pure_bind]
  rw [hgraph]
  exact uniformGraph_wellFormed hr (by simp) (by decide : Wired [1, 2] [([1], [2])])

theorem mhaFwd_wellFormed (p : AttentionParams) :
    ∃ g, buildMhaFwdGraph dtype p layout = some g ∧ g.WellFormed := by
  obtain ⟨sq, hsq, hnewq⟩ := TensorSpec.new_of_rank (Nat.le_succ 3) p.length_qDims layout
  obtain ⟨sk, hsk, hnewk⟩ := TensorSpec.new_of_rank (Nat.le_succ 3) p.length_kvDims layout
  obtain ⟨sqk, hsqk, hnewqk⟩ := TensorSpec.new_of_rank (Nat.le_succ 3) p.length_qkDims layout
  simp only [buildMhaFwdGraph, hnewq, hnewk, hnewqk]
  refine ⟨_, rfl, Outline.wellFormed ⟨rfl, rfl, ?_⟩
    (by decide : Wired [1, 2, 3, 4, 5, 6] [([1, 2], [4]), ([4], [5]), ([5, 3], [6])]) (r := 4) ?_⟩
  · simp [TensorSpec.virtualized, hsq, hsk, hsqk]
  · simp [TensorSpec.virtualized]

/-- The backward graph writes tensors that it does not declare. -/
theorem mhaBwd_not_wellFormed {p : AttentionParams} {g : OperationGraphSpec}
    (hg : buildMhaBwdGraph dtype p layout = some g) : ¬ g.WellFormed := by
  intro hwf
  obtain ⟨sq, -, hnewq⟩ := TensorSpec.new_of_rank (Nat.le_succ 3) p.length_qDims layout
  obtain ⟨sk, -, hnewk⟩ := TensorSpec.new_of_rank (Nat.le_succ 3) p.length_kvDims layout
  simp only [buildMhaBwdGraph, hnewq, hnewk, Option.bind_eq_bind, Option.bind_some,
    Option.pure_def, Option.some.injEq] at hg
  subst hg
  have hseven := hwf.declared _ List.mem_cons_self 7 (show _ ∈ [4, 2, 7] by simp)
  exact absurd hseven (show (7 : Int64) ∉ [1, 2, 3, 4, 5, 6] by decide)

/-- The weights of a recurrent network have one dimension, which no channel-last layout fits. -/
theorem rnnFwd_wellFormed_iff (p : RnnParams)
    (hpacked : layout = .nchwPacked ∨ layout = .nhwcPacked) :
    (∃ g, buildRnnFwdSpec dtype p layout = some g ∧ g.WellFormed) ↔ layout = .nchwPacked := by
  obtain rfl | rfl := hpacked
  · have hh : [p.stacked, p.batchSize, p.hiddenSize].length = 3 := rfl
    have hx : [p.seqLength, p.batchSize, p.inputSize].length = 3 := rfl
    have hy : [p.seqLength, p.batchSize, p.outputSize].length = 3 := rfl
    obtain ⟨sh, hsh, hnewh⟩ := TensorSpec.new_of_rank le_rfl hh .nchwPacked
    obtain ⟨sx, hsx, hnewx⟩ := TensorSpec.new_of_rank le_rfl hx .nchwPacked
    obtain ⟨sy, hsy, hnewy⟩ := TensorSpec.new_of_rank le_rfl hy .nchwPacked
    have hneww : TensorSpec.new 99 dtype [p.weightDim] .nchwPacked =
        some ⟨99, dtype, [p.weightDim], [1], 16, false⟩ := rfl
    simp only [iff_true]
    unfold buildRnnFwdSpec
    simp only [hnewh, hnewx, hnewy, hneww, Option.bind_eq_bind, Option.bind_some, Option.pure_def]
    -- nothing but the lengths of the dimensions matters from here on
    generalize [p.seqLength, p.batchSize, p.inputSize] = xDims at hx ⊢
    generalize [p.stacked, p.batchSize, p.hiddenSize] = hDims at hh ⊢
    generalize [p.seqLength, p.batchSize, p.outputSize] = yDims at hy ⊢
    generalize p.weightDim = weightDim
    cases p.mode.hasCellState with
    | true =>
      refine ⟨_, if_pos rfl, (Outline.wellFormed_iff ⟨rfl, rfl, ?_⟩).2
        ⟨(by decide : Wired [1, 2, 3, 4, 5, 6, 99] []), ?_⟩⟩
      · simp [hsh, hsx, hsy, hh, hx, hy]
      · simp
    | false =>
      refine ⟨_, if_neg Bool.false_ne_true, (Outline.wellFormed_iff ⟨rfl, rfl, ?_⟩).2
        ⟨(by decide : Wired [1, 2, 3, 4, 99] []), ?_⟩⟩
      · simp [hsh, hsx, hsy, hh, hx, hy]
      · simp
  · have hnone : TensorSpec.new 99 dtype [p.weightDim] .nhwcPacked = none := rfl
    constructor
    · rintro ⟨g, hg, -⟩
      unfold buildRnnFwdSpec at hg
      simp only [hnone] at hg
      split at hg
      · simp at hg
      · simp at hg
    · exact nofun

end Builders

namespace BuilderCall

variable {build : Build} {c : BuilderCall}

theorem run_eq_some_iff {g : OperationGraphSpec} :
    c.run build = some g ↔ (build = .checked → c.Fits) ∧ c.graph = some g := by
  rw [run, Option.join_eq_some_iff, Build.guard_eq_some_iff]

theorem run_checked_of_not_fits (h : ¬ c.Fits) : c.run .checked = none := by
  rw [run, Build.guard, if_neg h]
  rfl

/-- Overflows apart, the supported calls are the ones that make well-formed graphs. -/
theorem graph_wellFormed_iff (hc : c.Admissible) :
    (∃ g, c.graph = some g ∧ g.WellFormed) ↔ c.Supported := by
  obtain ⟨hpacked, r, hr, hranks⟩ := hc
  cases c with
  | convFwd dtype xDims wDims yDims conv layout epilogue =>
    simp only [extents, List.forall_mem_cons] at hranks
    obtain ⟨hx, hw, hy, -⟩ := hranks
    exact iff_of_true (convFwd_wellFormed hr hx hw hy conv epilogue) trivial
  | convBwdData dtype dyDims wDims dxDims conv layout =>
    simp only [extents, List.forall_mem_cons] at hranks
    obtain ⟨hdy, hw, hdx, -⟩ := hranks
    exact iff_of_true (convBwdData_wellFormed hr hdy hw hdx conv) trivial
  | convBwdFilter dtype xDims dyDims dwDims conv layout =>
    simp only [extents, List.forall_mem_cons] at hranks
    obtain ⟨hx, hdy, hdw, -⟩ := hranks
    exact iff_of_true (convBwdFilter_wellFormed hr hx hdy hdw conv) trivial
  | normFwd mode phase dtype dims layout epsilon expAvgFactor =>
    have hdims : dims.length = r := hranks dims List.mem_cons_self
    exact normFwd_wellFormed_iff (hdims ▸ hr) mode phase epsilon expAvgFactor
  | poolFwd dtype xDims yDims layout p =>
    simp only [extents, List.forall_mem_cons] at hranks
    obtain ⟨hx, hy, -⟩ := hranks
    exact iff_of_true (poolFwd_wellFormed hr hx hy p) trivial
  | poolBwd dtype xDims yDims layout p =>
    simp only [extents, List.forall_mem_cons] at hranks
    obtain ⟨hx, hy, -⟩ := hranks
    exact iff_of_true (poolBwd_wellFormed hr hx hy p) trivial
  | activationFwd dtype dims layout kind =>
    have hdims : dims.length = r := hranks dims List.mem_cons_self
    exact iff_of_true (activationFwd_wellFormed (hdims ▸ hr) kind) trivial
  | mhaFwd dtype p layout => exact iff_of_true (mhaFwd_wellFormed p) trivial
  | mhaBwd dtype p layout =>
    refine iff_of_false ?_ id
    rintro ⟨g, hg, hwf⟩
    exact mhaBwd_not_wellFormed hg hwf
  | rnnFwd dtype p layout => exact rnnFwd_wellFormed_iff p hpacked

/-- A builder returns a well-formed graph exactly in the supported calls, as long as nothing
overflows in a build that checks for it. -/
theorem builders_wellFormed_iff (hc : c.Admissible) :
    (∃ g, c.run build = some g ∧ g.WellFormed) ↔ c.Sound build := by
  unfold Sound
  rw [← graph_wellFormed_iff hc]
  simp only [run_eq_some_iff, and_assoc]
  exact exists_and_left

/-- A convolution with a bias and an activation, channels last. -/
theorem convFwd_checked_wellFormed :
    ∃ g, (convFwd .f16 [8, 3, 32, 32] [16, 3, 3, 3] [8, 16, 32, 32]
        ⟨2, [1, 1], [1, 1], [1, 1], [1, 1], 1⟩ .nhwcPacked (.biasActivation .relu)).run .checked =
        some g ∧ g.WellFormed :=
  (builders_wellFormed_iff ⟨Or.inr rfl, 4, by decide, by decide⟩).2 ⟨fun _ => by decide, trivial⟩

/-- A backward pass of attention writes tensor 7, which it does not declare; normalisations of three
and of five dimensions mix ranks; a recurrent network with the channels last panics, and so does, in
a build that checks, a pooling whose strides overflow. -/
theorem builders_go_wrong :
    (¬ ∀ (build : Build) (c : BuilderCall), c.Admissible → (∀ dims ∈ c.extents, ∀ d ∈ dims, 0 < d) →
      ∃ g, c.run build = some g ∧ g.WellFormed) ∧
    (∃ g, (mhaBwd .f16 ⟨2, 4, 4, 8, 8, 16, one⟩ .nchwPacked).run .wrapping = some g ∧
      OpSpec.matmul 4 2 7 .f16 ∈ g.ops ∧ 7 ∉ g.tensors.map (·.uid)) ∧
    (∃ g, (normFwd .layerNorm .training .f32 [2, 3, 4] .nchwPacked one zero).run .wrapping =
      some g ∧ g.tensors.map (·.dims.length) = [3, 4, 4, 3]) ∧
    (∃ g, (normFwd .batchNorm .training .f32 [2, 3, 4, 4, 4] .nchwPacked one zero).run .wrapping =
      some g ∧ g.tensors.map (·.dims.length) = [5, 4, 4, 5]) ∧
    (rnnFwd .f32 ⟨.gru, .unidirectional, 1, 4, 4, 2, 2, 0⟩ .nhwcPacked).run .wrapping = none ∧
    (poolFwd .f32 [1, 4294967296, 4294967296] [1, 4294967296, 4294967296] .nhwcPacked
      ⟨.max, [2], [0], [0], [2]⟩).run .checked = none := by
  have hadm : (mhaBwd .f16 ⟨2, 4, 4, 8, 8, 16, one⟩ .nchwPacked).Admissible :=
    ⟨Or.inl rfl, 4, by decide, by decide⟩
  refine ⟨fun hall => ?_, ⟨_, rfl, List.mem_cons_self, by decide⟩, ⟨_, rfl, rfl⟩, ⟨_, rfl, rfl⟩,
    rfl, run_checked_of_not_fits (by decide)⟩
  have hpos : ∀ dims ∈ [[2, 8, 4, 16], [2, 8, 4, 16]], ∀ d ∈ dims, (0 : Int64) < d := by
    simp
  exact (graph_wellFormed_iff hadm).1 (hall .wrapping _ hadm hpos)

end BuilderCall

end Cudnn

end AtomrAccel
