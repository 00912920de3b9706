import AtomrAccel.Cudnn.Graph

/-!
# What tells digests apart

`signature` hashes the tensors of a graph and its operations.  What it feeds the hasher says which
tensors and operations these are, as calls and also as the bytes the hasher runs them together to:
a vector comes after its length, and the fields that follow a tag are those of its operation.

* `Write.bytes`, `OperationGraphSpec.stream`: the bytes;
* `hashDims_stream_inj`, `hashOption_stream_inj`: vectors and options are read off them;
* `decodes_tensor_stream`, `decodes_op_stream`: so are tensors and operations;
* `digests_unambiguous`: graphs with one digest input.
-/

namespace AtomrAccel

namespace Cudnn

open PrefixCode

/-! ### Bytes -/

/-- The bytes of a call; a `usize` has eight of them. -/
def Write.bytes : Write → List UInt8
  | .u8 v => [v]
  | .u64 v | .usize v => leBytes 8 v.toNat
  | .i64 v => leBytes 8 v.toUInt64.toNat
  | .lengthPrefix n | .isize n => leBytes 8 n

/-- All bytes of some writes. -/
def stream (writes : List Write) : List UInt8 := writes.flatMap Write.bytes

/-- What reaches the hasher of `signature`. -/
def OperationGraphSpec.stream (g : OperationGraphSpec) : List UInt8 := Cudnn.stream g.hash

@[simp] theorem stream_nil : stream [] = [] := rfl

@[simp] theorem stream_cons (w : Write) (ws : List Write) :
    stream (w :: ws) = w.bytes ++ stream ws := List.flatMap_cons

@[simp] theorem stream_append (ws ws' : List Write) :
    stream (ws ++ ws') = stream ws ++ stream ws' := List.flatMap_append

/-- The vectors of an operation. -/
def OpSpec.vectors : OpSpec → List (List Int64)
  | convFwd _ _ _ _ prePadding postPadding stride dilation _ _ _
  | convBwdData _ _ _ _ prePadding postPadding stride dilation _ _ _
  | convBwdFilter _ _ _ _ prePadding postPadding stride dilation _ _ _ =>
    [prePadding, postPadding, stride, dilation]
  | poolFwd _ _ _ window prePadding postPadding stride _
  | poolBwd _ _ _ _ _ window prePadding postPadding stride _ =>
    [window, prePadding, postPadding, stride]
  | pointwise .. | normFwd .. | normBwd .. | matmul .. | reduce .. | reshape .. => []

/-- The lengths are values of a `usize`. -/
def TensorSpec.Fits (t : TensorSpec) : Prop :=
  t.dims.length < 256 ^ 8 ∧ t.strides.length < 256 ^ 8

/-- No vector is too long for its length to be written. -/
def OpSpec.Fits (op : OpSpec) : Prop := ∀ v ∈ op.vectors, v.length < 256 ^ 8

/-- Every number in the specification fits the width it is hashed with. -/
structure OperationGraphSpec.Fits (g : OperationGraphSpec) : Prop where
  numTensors : g.tensors.length < 256 ^ 8
  numOps : g.ops.length < 256 ^ 8
  tensors : ∀ t ∈ g.tensors, t.Fits
  ops : ∀ op ∈ g.ops, op.Fits

/-! ### Reading the bytes -/

section Fields

variable {s t : List UInt8}

@[simp] theorem u8_append_inj {v w : UInt8} :
    (Write.u8 v).bytes ++ s = (Write.u8 w).bytes ++ t ↔ v = w ∧ s = t := List.cons_eq_cons

@[simp] theorem u64_append_inj {v w : UInt64} :
    (Write.u64 v).bytes ++ s = (Write.u64 w).bytes ++ t ↔ v = w ∧ s = t :=
  (leBytes_append_inj v.toNat_lt w.toNat_lt).trans (and_congr_left' UInt64.toNat_inj)

@[simp] theorem usize_append_inj {v w : UInt64} :
    (Write.usize v).bytes ++ s = (Write.usize w).bytes ++ t ↔ v = w ∧ s = t := u64_append_inj

@[simp] theorem i64_append_inj {v w : Int64} :
    (Write.i64 v).bytes ++ s = (Write.i64 w).bytes ++ t ↔ v = w ∧ s = t :=
  u64_append_inj.trans (and_congr_left' ⟨fun h => congrArg UInt64.toInt64 h, congrArg _⟩)

theorem isize_append_inj {m n : ℕ} (hm : m < 256) (hn : n < 256) :
    (Write.isize m).bytes ++ s = (Write.isize n).bytes ++ t ↔ m = n ∧ s = t :=
  leBytes_append_inj (by omega) (by omega)

theorem stream_hashDims (dims : List Int64) :
    stream (hashDims dims) = sized 8 (fun d => (Write.i64 d).bytes) dims := by
  rw [hashDims, counted, stream_cons, stream, List.flatMap_assoc]
  congr 1

theorem hashDims_stream_inj {xs ys : List Int64} (hxs : xs.length < 256 ^ 8)
    (hys : ys.length < 256 ^ 8) :
    stream (hashDims xs) ++ s = stream (hashDims ys) ++ t ↔ xs = ys ∧ s = t := by
  have hdim : Decodes (fun d : Int64 => (Write.i64 d).bytes) fun _ => True :=
    fun _ _ _ _ _ _ h => i64_append_inj.1 h
  rw [stream_hashDims, stream_hashDims]
  exact sized_append_inj hdim hxs hys

@[simp] theorem hashOption_stream_inj {x y : Option Int64} :
    stream (hashOption x) ++ s = stream (hashOption y) ++ t ↔ x = y ∧ s = t := by
  cases x <;> cases y <;> simp [hashOption, isize_append_inj]

end Fields

/-! ### Discriminants -/

@[simp] theorem DtypeTag.ctorIdx_lt (a : DtypeTag) : a.ctorIdx < 256 := by cases a <;> decide

@[simp] theorem PointwiseMode.ctorIdx_lt (a : PointwiseMode) : a.ctorIdx < 256 := by
  cases a <;> decide

@[simp] theorem PoolKind.ctorIdx_lt (a : PoolKind) : a.ctorIdx < 256 := by cases a <;> decide

@[simp] theorem NormMode.ctorIdx_lt (a : NormMode) : a.ctorIdx < 256 := by cases a <;> decide

@[simp] theorem NormPhase.ctorIdx_lt (a : NormPhase) : a.ctorIdx < 256 := by cases a <;> decide

@[simp] theorem ReduceOp.ctorIdx_lt (a : ReduceOp) : a.ctorIdx < 256 := by cases a <;> decide

/-! ### Tensors and operations -/

/-- A tensor is read off the bytes. -/
theorem decodes_tensor_stream :
    Decodes (fun t : { t : TensorSpec // t.Fits } => stream t.val.hash) fun _ => True := by
  rintro ⟨⟨uid, dtype, dims, strides, alignment, isVirtual⟩, hdims, hstrides⟩
    ⟨⟨uid', dtype', dims', strides', alignment', isVirtual'⟩, hdims', hstrides'⟩ s t - - h
  dsimp only at hdims hstrides hdims' hstrides'
  simp only [TensorSpec.hash, stream_append, stream_cons, stream_nil, List.append_assoc,
    List.nil_append, i64_append_inj, isize_append_inj, DtypeTag.ctorIdx_lt, DtypeTag.ctorIdx_inj,
    hashDims_stream_inj, hdims, hdims', hstrides, hstrides', u8_append_inj] at h
  obtain ⟨rfl, rfl, rfl, rfl, rfl, hvirtual, rfl⟩ := h
  have hflag : isVirtual = isVirtual' := by
    cases isVirtual <;> cases isVirtual' <;> simp at hvirtual ⊢
  exact ⟨Subtype.ext (by rw [hflag]), rfl⟩

/-- The first byte of an operation is its tag. -/
theorem OpSpec.head_stream (a : OpSpec) :
    (stream a.hash).head? = some (UInt8.ofNat a.ctorIdx) := by
  cases a <;> rfl

theorem OpSpec.tag_of_stream {a b : OpSpec} {s t : List UInt8}
    (h : stream a.hash ++ s = stream b.hash ++ t) : a.ctorIdx = b.ctorIdx := by
  have hhead := congrArg List.head? h
  rw [List.head?_append, List.head?_append, head_stream, head_stream] at hhead
  have htag := congrArg UInt8.toNat (Option.some.inj hhead)
  rw [UInt8.toNat_ofNat', UInt8.toNat_ofNat'] at htag
  have ha := a.ctorIdx_lt
  have hb := b.ctorIdx_lt
  omega

/-- An operation is read off the bytes. -/
theorem decodes_op_stream :
    Decodes (fun op : { op : OpSpec // op.Fits } => stream op.val.hash) fun _ => True := by
  rintro ⟨a, ha⟩ ⟨b, hb⟩ s t - - h
  rw [Subtype.mk.injEq]
  replace h : stream a.hash ++ s = stream b.hash ++ t := h
  have htag := OpSpec.tag_of_stream h
  cases a <;> cases b <;> first
    | (cases htag; done)
    | simp [OpSpec.Fits, OpSpec.vectors] at ha hb
      simp [OpSpec.hash, isize_append_inj, hashDims_stream_inj, ha, hb] at h
  all_goals simp [h]

/-! ### Graphs -/

theorem stream_counted {α : Type} (code : α → List Write) (xs : List α) :
    stream (counted .lengthPrefix code xs) = sized 8 (fun x => stream (code x)) xs := by
  rw [counted, stream_cons, stream, List.flatMap_assoc]
  rfl

/-- Items that fit are read off the bytes, after their number. -/
theorem stream_counted_inj {α : Type} {code : α → List Write} {Q : α → Prop}
    (h : Decodes (fun x : { x : α // Q x } => stream (code x.val)) fun _ => True)
    {xs ys : List α} {s t : List UInt8} (hxs : xs.length < 256 ^ 8) (hys : ys.length < 256 ^ 8)
    (hx : ∀ x ∈ xs, Q x) (hy : ∀ y ∈ ys, Q y)
    (heq : stream (counted .lengthPrefix code xs) ++ s =
      stream (counted .lengthPrefix code ys) ++ t) : xs = ys ∧ s = t := by
  lift xs to List { x : α // Q x } using hx
  lift ys to List { x : α // Q x } using hy
  have hsized : ∀ zs : List { x : α // Q x }, stream (counted .lengthPrefix code (zs.map (·.val))) =
      sized 8 (fun x => stream (code x.val)) zs := by
    intro zs
    rw [stream_counted, sized, sized, List.length_map, List.flatMap_map]
  rw [List.length_map] at hxs hys
  rw [hsized, hsized] at heq
  obtain ⟨rfl, hrest⟩ := (sized_append_inj h hxs hys).1 heq
  exact ⟨rfl, hrest⟩

/-- Graphs with one stream differ in their name at most. -/
theorem OperationGraphSpec.stream_inj {g g' : OperationGraphSpec} (hg : g.Fits) (hg' : g'.Fits)
    (h : g.stream = g'.stream) : g.tensors = g'.tensors ∧ g.ops = g'.ops := by
  rw [OperationGraphSpec.stream, OperationGraphSpec.stream, hash, hash, stream_append,
    stream_append] at h
  obtain ⟨htensors, hops⟩ := stream_counted_inj decodes_tensor_stream hg.numTensors
    hg'.numTensors hg.tensors hg'.tensors h
  have hops' := congrArg (· ++ ([] : List UInt8)) hops
  obtain ⟨hops, -⟩ := stream_counted_inj decodes_op_stream hg.numOps hg'.numOps hg.ops hg'.ops
    hops'
  exact ⟨htensors, hops⟩

/-- What `signature` hashes says which tensors and operations a graph has, field by field: as calls
of the hasher, and as the bytes these come to when no vector is longer than a `usize` can say.  The
name does not reach the hasher. -/
theorem digests_unambiguous :
    (∀ g g' : OperationGraphSpec,
      g.hash = g'.hash ↔ g.tensors = g'.tensors ∧ g.ops = g'.ops) ∧
    (∀ g g' : OperationGraphSpec, g.Fits → g'.Fits →
      (g.stream = g'.stream ↔ g.tensors = g'.tensors ∧ g.ops = g'.ops)) := by
  refine ⟨fun g g' => OperationGraphSpec.hash_inj, fun g g' hg hg' => ⟨?_, fun h => ?_⟩⟩
  · exact OperationGraphSpec.stream_inj hg hg'
  · exact congrArg stream (OperationGraphSpec.hash_inj.2 h)

/-- The same paddings, parted in two ways. -/
theorem parted_paddings_differ :
    OperationGraphSpec.stream
        ⟨[], [.convFwd 1 2 3 2 [1] [2, 3] [1, 1] [1, 1] .f32 one zero], "conv"⟩ ≠
      OperationGraphSpec.stream
        ⟨[], [.convFwd 1 2 3 2 [1, 2] [3] [1, 1] [1, 1] .f32 one zero], "conv"⟩ := by
  have hno : ∀ t ∈ ([] : List TensorSpec), t.Fits := fun t ht => absurd ht List.not_mem_nil
  have hfits : OperationGraphSpec.Fits
      ⟨[], [.convFwd 1 2 3 2 [1] [2, 3] [1, 1] [1, 1] .f32 one zero], "conv"⟩ :=
    ⟨by decide, by decide, hno, by simp [OpSpec.Fits, OpSpec.vectors]⟩
  have hfits' : OperationGraphSpec.Fits
      ⟨[], [.convFwd 1 2 3 2 [1, 2] [3] [1, 1] [1, 1] .f32 one zero], "conv"⟩ :=
    ⟨by decide, by decide, hno, by simp [OpSpec.Fits, OpSpec.vectors]⟩
  intro h
  obtain ⟨-, hops⟩ := (digests_unambiguous.2 _ _ hfits hfits').1 h
  exact absurd hops (by decide)

end Cudnn

end AtomrAccel
