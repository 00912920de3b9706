import AtomrAccel.Lib.PrefixCode

/-!
# `kernel::cudnn::graph`: operation graphs and what a plan key hashes of them

A graph is a list of tensors and a list of operations that name tensors by their ids.  The digest in
a plan key hashes both lists, length first; an operation is hashed by hand, so that its floats go in
as bits.  The name of a graph stays out.

* `packedStrides`, `TensorSpec`, `OpSpec`, `OperationGraphSpec`: the graphs;
* `Write`, `TensorSpec.hash`, `OpSpec.hash`, `OperationGraphSpec.hash`: what the hasher is fed;
* `OperationGraphSpec.hash_inj`: graphs that feed it the same have the same tensors and operations.
-/

namespace AtomrAccel

namespace Cudnn

open PrefixCode

/-! ### Tensors -/

/-- The order of the dimensions in memory. -/
inductive TensorLayout
  | nchwPacked
  | nhwcPacked
  | strided
  deriving DecidableEq, Repr

/-- The element types of tensors. -/
inductive DtypeTag
  | f32
  | f64
  | f16
  | bf16
  | i8
  | i32
  | u8
  deriving DecidableEq, Repr

/-- Strides from the right, the last of which is `unit`; the products wrap. -/
def stridesFrom (unit : Int64) (dims : List Int64) : List Int64 :=
  dims.foldr (fun d strides => strides.headD unit * d :: strides) [unit]

/-- `packed_strides`; a channel-last layout of fewer than three dimensions panics. -/
def packedStrides (dims : List Int64) (layout : TensorLayout) : Option (List Int64) :=
  match dims, layout with
  | [], _ => some []
  | _ :: dims, .nchwPacked | _ :: dims, .strided => some (stridesFrom 1 dims)
  | _ :: c :: s :: dims, .nhwcPacked =>
    let spatial := stridesFrom c dims
    some (spatial.headD c * s :: 1 :: spatial)
  | _, .nhwcPacked => none

/-- A tensor of a graph, under its unique id. -/
structure TensorSpec where
  uid : Int64
  dtype : DtypeTag
  dims : List Int64
  strides : List Int64
  alignment : Int64
  isVirtual : Bool
  deriving DecidableEq, Repr

/-- `TensorSpec::new`. -/
def TensorSpec.new (uid : Int64) (dtype : DtypeTag) (dims : List Int64) (layout : TensorLayout) :
    Option TensorSpec :=
  (packedStrides dims layout).map fun strides => ⟨uid, dtype, dims, strides, 16, false⟩

/-! ### Operations -/

/-- An `f64` by its bits. -/
abbrev Float64Bits := UInt64

/-- `1.0` and `0.0`. -/
def one : Float64Bits := 0x3FF0000000000000
def zero : Float64Bits := 0

/-- The functions of pointwise operations. -/
inductive PointwiseMode
  | relu
  | sigmoid
  | tanh
  | gelu
  | geluApprox
  | swish
  | elu
  | softplus
  | identity
  | add
  | mul
  | sub
  | div
  | min
  | max
  | sqrt
  | rsqrt
  | exp
  | log
  | neg
  | abs
  deriving DecidableEq, Repr

/-- The pooling operations. -/
inductive PoolKind
  | maxFwd
  | avgFwd
  | maxBwd
  | avgBwd
  deriving DecidableEq, Repr

/-- The kinds of normalisation. -/
inductive NormMode
  | batchNorm
  | layerNorm
  | instanceNorm
  | groupNorm
  | rmsNorm
  deriving DecidableEq, Repr

/-- The phases of a normalisation. -/
inductive NormPhase
  | inference
  | training
  | persistentTraining
  deriving DecidableEq, Repr

/-- The operations of reductions. -/
inductive ReduceOp
  | add
  | mul
  | min
  | max
  | mean
  | norm1
  | norm2
  deriving DecidableEq, Repr

/-- One operation, with the ids of its tensors. -/
inductive OpSpec
  | convFwd (x w y : Int64) (spatialDims : UInt64)
      (prePadding postPadding stride dilation : List Int64) (computeDtype : DtypeTag)
      (alpha beta : Float64Bits)
  | convBwdData (dy w dx : Int64) (spatialDims : UInt64)
      (prePadding postPadding stride dilation : List Int64) (computeDtype : DtypeTag)
      (alpha beta : Float64Bits)
  | convBwdFilter (x dy dw : Int64) (spatialDims : UInt64)
      (prePadding postPadding stride dilation : List Int64) (computeDtype : DtypeTag)
      (alpha beta : Float64Bits)
  | pointwise (mode : PointwiseMode) (x : Int64) (b : Option Int64) (y : Int64)
      (computeDtype : DtypeTag) (alpha1 alpha2 : Float64Bits)
  | poolFwd (kind : PoolKind) (x y : Int64) (window prePadding postPadding stride : List Int64)
      (computeDtype : DtypeTag)
  | poolBwd (kind : PoolKind) (dy x y dx : Int64)
      (window prePadding postPadding stride : List Int64) (computeDtype : DtypeTag)
  | normFwd (mode : NormMode) (phase : NormPhase) (x scale bias : Int64) (mean var : Option Int64)
      (y : Int64) (computeDtype : DtypeTag) (epsilon expAvgFactor : Float64Bits)
  | normBwd (mode : NormMode) (x dy scale mean var dx dscale dbias : Int64)
      (computeDtype : DtypeTag)
  | matmul (a b c : Int64) (computeDtype : DtypeTag)
  | reduce (op : ReduceOp) (x y : Int64) (computeDtype : DtypeTag)
  | reshape (x y : Int64)
  deriving DecidableEq, Repr

/-- A graph: its tensors, its operations in order, and a name. -/
structure OperationGraphSpec where
  tensors : List TensorSpec
  ops : List OpSpec
  name : String
  deriving DecidableEq, Repr

/-! ### What is hashed -/

/-- A call of the hasher. -/
inductive Write
  | u8 (v : UInt8)
  | u64 (v : UInt64)
  | i64 (v : Int64)
  | usize (v : UInt64)
  /-- the length of a `Vec` -/
  | lengthPrefix (n : ℕ)
  /-- the discriminant of an enum -/
  | isize (n : ℕ)
  deriving DecidableEq, Repr

/-- A `Vec<i64>`. -/
def hashDims (dims : List Int64) : List Write := counted .lengthPrefix (fun d => [.i64 d]) dims

/-- What the derived `Hash` of an option writes. -/
def hashOption : Option Int64 → List Write
  | none => [.isize 0]
  | some v => [.isize 1, .i64 v]

/-- What the derived `Hash` of a tensor writes. -/
def TensorSpec.hash (t : TensorSpec) : List Write :=
  [.i64 t.uid, .isize t.dtype.ctorIdx] ++ hashDims t.dims ++ hashDims t.strides ++
    [.i64 t.alignment, .u8 (if t.isVirtual then 1 else 0)]

/-- What the derived `Hash` of an operation writes: its number, then its fields. -/
def OpSpec.hash : OpSpec → List Write
  | convFwd x w y spatialDims prePadding postPadding stride dilation computeDtype alpha beta =>
    [.u8 0, .i64 x, .i64 w, .i64 y, .usize spatialDims] ++ hashDims prePadding ++
      hashDims postPadding ++ hashDims stride ++ hashDims dilation ++
      [.isize computeDtype.ctorIdx, .u64 alpha, .u64 beta]
  | convBwdData dy w dx spatialDims prePadding postPadding stride dilation computeDtype alpha
      beta =>
    [.u8 1, .i64 dy, .i64 w, .i64 dx, .usize spatialDims] ++ hashDims prePadding ++
      hashDims postPadding ++ hashDims stride ++ hashDims dilation ++
      [.isize computeDtype.ctorIdx, .u64 alpha, .u64 beta]
  | convBwdFilter x dy dw spatialDims prePadding postPadding stride dilation computeDtype alpha
      beta =>
    [.u8 2, .i64 x, .i64 dy, .i64 dw, .usize spatialDims] ++ hashDims prePadding ++
      hashDims postPadding ++ hashDims stride ++ hashDims dilation ++
      [.isize computeDtype.ctorIdx, .u64 alpha, .u64 beta]
  | pointwise mode x b y computeDtype alpha1 alpha2 =>
    [.u8 3, .isize mode.ctorIdx, .i64 x] ++ hashOption b ++
      [.i64 y, .isize computeDtype.ctorIdx, .u64 alpha1, .u64 alpha2]
  | poolFwd kind x y window prePadding postPadding stride computeDtype =>
    [.u8 4, .isize kind.ctorIdx, .i64 x, .i64 y] ++ hashDims window ++ hashDims prePadding ++
      hashDims postPadding ++ hashDims stride ++ [.isize computeDtype.ctorIdx]
  | poolBwd kind dy x y dx window prePadding postPadding stride computeDtype =>
    [.u8 5, .isize kind.ctorIdx, .i64 dy, .i64 x, .i64 y, .i64 dx] ++ hashDims window ++
      hashDims prePadding ++ hashDims postPadding ++ hashDims stride ++
      [.isize computeDtype.ctorIdx]
  | normFwd mode phase x scale bias mean var y computeDtype epsilon expAvgFactor =>
    [.u8 6, .isize mode.ctorIdx, .isize phase.ctorIdx, .i64 x, .i64 scale, .i64 bias] ++
      hashOption mean ++ hashOption var ++
      [.i64 y, .isize computeDtype.ctorIdx, .u64 epsilon, .u64 expAvgFactor]
  | normBwd mode x dy scale mean var dx dscale dbias computeDtype =>
    [.u8 7, .isize mode.ctorIdx, .i64 x, .i64 dy, .i64 scale, .i64 mean, .i64 var, .i64 dx,
      .i64 dscale, .i64 dbias, .isize computeDtype.ctorIdx]
  | matmul a b c computeDtype => [.u8 8, .i64 a, .i64 b, .i64 c, .isize computeDtype.ctorIdx]
  | reduce op x y computeDtype =>
    [.u8 9, .isize op.ctorIdx, .i64 x, .i64 y, .isize computeDtype.ctorIdx]
  | reshape x y => [.u8 10, .i64 x, .i64 y]

/-- What `signature` feeds its hasher. -/
def OperationGraphSpec.hash (g : OperationGraphSpec) : List Write :=
  counted .lengthPrefix TensorSpec.hash g.tensors ++ counted .lengthPrefix OpSpec.hash g.ops

/-! ### Reading it back -/

theorem lengthPrefix_injective : Function.Injective Write.lengthPrefix :=
  fun _ _ h => Write.lengthPrefix.inj h

@[simp] theorem hashDims_append_inj {xs ys : List Int64} {s t : List Write} :
    hashDims xs ++ s = hashDims ys ++ t ↔ xs = ys ∧ s = t := by
  have hdim : Decodes (fun d : Int64 => [Write.i64 d]) fun _ => True := by
    refine decodes_of_length (n := 1) (fun _ => rfl) fun x y h => ?_
    cases h
    rfl
  exact counted_append_inj lengthPrefix_injective hdim

@[simp] theorem hashOption_append_inj {x y : Option Int64} {s t : List Write} :
    hashOption x ++ s = hashOption y ++ t ↔ x = y ∧ s = t := by
  cases x <;> cases y <;> simp [hashOption]

@[simp] theorem DtypeTag.ctorIdx_inj {a b : DtypeTag} : a.ctorIdx = b.ctorIdx ↔ a = b :=
  ⟨fun h => by rw [← DtypeTag.ofNat_ctorIdx a, h, DtypeTag.ofNat_ctorIdx], congrArg _⟩

@[simp] theorem PointwiseMode.ctorIdx_inj {a b : PointwiseMode} :
    a.ctorIdx = b.ctorIdx ↔ a = b :=
  ⟨fun h => by rw [← PointwiseMode.ofNat_ctorIdx a, h, PointwiseMode.ofNat_ctorIdx], congrArg _⟩

@[simp] theorem PoolKind.ctorIdx_inj {a b : PoolKind} : a.ctorIdx = b.ctorIdx ↔ a = b :=
  ⟨fun h => by rw [← PoolKind.ofNat_ctorIdx a, h, PoolKind.ofNat_ctorIdx], congrArg _⟩

@[simp] theorem NormMode.ctorIdx_inj {a b : NormMode} : a.ctorIdx = b.ctorIdx ↔ a = b :=
  ⟨fun h => by rw [← NormMode.ofNat_ctorIdx a, h, NormMode.ofNat_ctorIdx], congrArg _⟩

@[simp] theorem NormPhase.ctorIdx_inj {a b : NormPhase} : a.ctorIdx = b.ctorIdx ↔ a = b :=
  ⟨fun h => by rw [← NormPhase.ofNat_ctorIdx a, h, NormPhase.ofNat_ctorIdx], congrArg _⟩

@[simp] theorem ReduceOp.ctorIdx_inj {a b : ReduceOp} : a.ctorIdx = b.ctorIdx ↔ a = b :=
  ⟨fun h => by rw [← ReduceOp.ofNat_ctorIdx a, h, ReduceOp.ofNat_ctorIdx], congrArg _⟩

/-- A tensor is read off what the hasher is fed. -/
theorem decodes_tensor : Decodes TensorSpec.hash fun _ => True := by
  rintro ⟨uid, dtype, dims, strides, alignment, isVirtual⟩
    ⟨uid', dtype', dims', strides', alignment', isVirtual'⟩ s t - - h
  simp only [TensorSpec.hash, List.append_assoc, List.cons_append, List.nil_append,
    List.cons.injEq, Write.i64.injEq, Write.isize.injEq, DtypeTag.ctorIdx_inj,
    hashDims_append_inj, Write.u8.injEq] at h
  obtain ⟨rfl, rfl, rfl, rfl, rfl, hvirtual, rfl⟩ := h
  have hflag : isVirtual = isVirtual' := by
    cases isVirtual <;> cases isVirtual' <;> simp at hvirtual ⊢
  exact ⟨by rw [hflag], rfl⟩

/-- The tag of an operation stands first. -/
theorem OpSpec.head_hash (a : OpSpec) :
    a.hash.head? = some (.u8 (UInt8.ofNat a.ctorIdx)) := by
  cases a <;> rfl

theorem OpSpec.ctorIdx_lt (a : OpSpec) : a.ctorIdx < 11 := by
  cases a <;> simp [OpSpec.ctorIdx]

theorem OpSpec.tag_of_hash {a b : OpSpec} {s t : List Write} (h : a.hash ++ s = b.hash ++ t) :
    a.ctorIdx = b.ctorIdx := by
  have hhead := congrArg List.head? h
  rw [List.head?_append, List.head?_append, head_hash, head_hash] at hhead
  have htag := congrArg UInt8.toNat (Write.u8.inj (Option.some.inj hhead))
  rw [UInt8.toNat_ofNat', UInt8.toNat_ofNat'] at htag
  have ha := a.ctorIdx_lt
  have hb := b.ctorIdx_lt
  omega

/-- An operation is read off what the hasher is fed: its tag says which fields follow. -/
theorem decodes_op : Decodes OpSpec.hash fun _ => True := by
  intro a b s t _ _ h
  have htag := OpSpec.tag_of_hash h
  cases a <;> cases b <;> first | (cases htag; done) | simp [OpSpec.hash] at h
  all_goals simp [h]

/-- Graphs that feed the hasher the same differ in their name at most. -/
theorem OperationGraphSpec.hash_inj {g g' : OperationGraphSpec} :
    g.hash = g'.hash ↔ g.tensors = g'.tensors ∧ g.ops = g'.ops := by
  constructor
  · intro h
    obtain ⟨htensors, hops⟩ := (counted_append_inj lengthPrefix_injective decodes_tensor).1 h
    have hops' : counted .lengthPrefix OpSpec.hash g.ops ++ [] =
        counted .lengthPrefix OpSpec.hash g'.ops ++ [] := by rw [hops]
    exact ⟨htensors, ((counted_append_inj lengthPrefix_injective decodes_op).1 hops').1⟩
  · rintro ⟨htensors, hops⟩
    rw [OperationGraphSpec.hash, OperationGraphSpec.hash, htensors, hops]

end Cudnn

end AtomrAccel
