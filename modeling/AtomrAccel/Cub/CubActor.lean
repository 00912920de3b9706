import AtomrAccel.Device.Error
import AtomrAccel.Cub.Histogram
import AtomrAccel.Cub.Scan
import AtomrAccel.Cub.Segmented
import AtomrAccel.Cub.Select
import AtomrAccel.Cub.Sort

/-!
# `CubActor`

The actor answers a request with an error or runs the kernels of its family.  The dispatchers check
that there is an NVRTC actor, that single-tile families get at most one tile, and that a `Flagged`
select comes with flags; they check no other length, so what the kernels touch depends on how the
caller sized the buffers.  Failures after the dispatch (compilation, allocation, launch) are
answered with an error as well; the model follows the path on which there are none.

* `CubMsg`, `handle`: requests and what the actor does with them;
* `CubMsg.len`: the lengths of the buffers the kernels get;
* `CallerSized`: the sizes each family needs;
* `handle_inBounds_iff`: a request is answered with an error, or its kernels stay inside their
  buffers exactly when the caller sized them.
-/

namespace AtomrAccel

namespace Cub

open Kernel Kernel.Traced

/-- The device memory behind a `GpuRef`. -/
structure DevSlice (α : Type) where
  data : ℕ → α
  len : ℕ

/-- How `Select` decides what to keep. -/
inductive SelectMode
  | flagged
  | unique
  deriving DecidableEq, Repr

/-- Requests over elements `α`, values `V` and levels `F`. -/
inductive CubMsg (α V F : Type)
  | reduce (op : ReductionOp) (input output : DevSlice α)
  | scan (kind : ScanKind) (input output : DevSlice α)
  | sort (direction : SortDirection) (keysIn keysOut : DevSlice α)
      (valuesIn valuesOut : Option (DevSlice V))
  | histogram (input : DevSlice α) (bins : DevSlice (BitVec 32)) (numBins : BitVec 32)
      (lowerLevel upperLevel : F)
  | select (mode : SelectMode) (input output : DevSlice α) (numSelected : DevSlice (BitVec 32))
      (flags : Option (DevSlice UInt8))
  | partition (input output : DevSlice α) (flags : DevSlice UInt8)
      (numSelected : DevSlice (BitVec 32))
  | segmentedReduce (op : ReductionOp) (input output : DevSlice α)
      (beginOffsets endOffsets : DevSlice (BitVec 32)) (numSegments : BitVec 32)

/-- What the emitted kernels take from CUB, from the element type and from the device. -/
structure KernelEnv (α V F : Type) where
  blockReduce : BlockReduce α
  blockScan : BlockScan α
  flagScan : FlagScan
  sortKeys : BlockRadixSort α Unit
  sortPairs : BlockRadixSort α V
  functor : ReductionOp → α → α → α
  identity : ReductionOp → α
  /-- `(int)((v - lower_level) * scale)` -/
  binOf : F → F → α → ℤ
  /-- the shared memory of each block before a launch -/
  shared : ℕ → ℕ → BitVec 32

/-- The actor without or with a GPU, and with or without an NVRTC actor. -/
inductive CubInner
  | mock
  | real (nvrtc : Bool)
  deriving DecidableEq, Repr

/-! ### The checks of the dispatchers -/

/-- `match ctx.nvrtc`. -/
def nvrtcWired (nvrtc : Bool) (text : String) : Except GpuError Unit :=
  if nvrtc then .ok () else .error (.unrecoverable text)

/-- `if n > TILE_ELEMENTS as usize`. -/
def oneTile (n : ℕ) (before after : String) : Except GpuError Unit :=
  if tileElements < n then
    .error (.unrecoverable (before ++ toString n ++ " exceeds " ++ after))
  else .ok ()

section Dispatch

variable {α V F : Type} [Zero α] [Add α] [BEq α] [Zero V] (env : KernelEnv α V F)

/-- The `dispatch` of each family. -/
def dispatch (nvrtc : Bool) : CubMsg α V F → Except GpuError (Traced Buf Unit)
  | .reduce op input output => do
    nvrtcWired nvrtc "atomr-accel-cub::CubReduce: NvrtcActor not wired into CubActor"
    return (launchReduce env.blockReduce (env.functor op) (env.identity op) input.data output.data
      input.len).void
  | .scan kind input output => do
    nvrtcWired nvrtc "atomr-accel-cub::CubScan: NvrtcActor not wired into CubActor"
    return (runScan env.blockScan kind input.data output.data input.len).void
  | .sort direction keysIn _ valuesIn valuesOut => do
    nvrtcWired nvrtc "atomr-accel-cub::CubSort: NvrtcActor not wired into CubActor"
    oneTile keysIn.len "atomr-accel-cub::CubSort: n="
      "single-block limit (1024); multi-block radix sort lands in Phase 5.2"
    match valuesIn, valuesOut with
    | some valuesIn, some _ =>
      return (sortPairs env.sortPairs direction keysIn.data valuesIn.data keysIn.len).void
    | _, _ => return (sortKeys env.sortKeys direction keysIn.data keysIn.len).void
  | .histogram input bins _ lowerLevel upperLevel => do
    nvrtcWired nvrtc "atomr-accel-cub::CubHistogram: NvrtcActor not wired into CubActor"
    return (runHistogram (env.binOf lowerLevel upperLevel) env.shared input.data bins.data
      input.len).void
  | .select mode input _ _ flags => do
    nvrtcWired nvrtc "atomr-accel-cub::CubSelect: NvrtcActor not wired into CubActor"
    oneTile input.len "atomr-accel-cub::CubSelect: n="
      "single-tile limit (1024); multi-block lands in Phase 5.2"
    match mode, flags with
    | .flagged, none => .error (.unrecoverable
        "atomr-accel-cub::CubSelect: SelectMode::Flagged requires a flags buffer")
    | .flagged, some flags =>
      return (selectFlagged env.flagScan input.data flags.data input.len).void
    | .unique, _ => return (selectUnique env.flagScan input.data input.len).void
  | .partition input _ flags _ => do
    nvrtcWired nvrtc "atomr-accel-cub::CubPartition: NvrtcActor not wired"
    oneTile input.len "atomr-accel-cub::CubPartition: n="
      "single-tile limit (1024); multi-block lands in Phase 5.2"
    return (partitionFlagged env.flagScan input.data flags.data input.len).void
  | .segmentedReduce op input _ beginOffsets endOffsets numSegments => do
    nvrtcWired nvrtc "atomr-accel-cub::CubSegmentedReduce: NvrtcActor not wired"
    return (segmentedReduce (env.functor op) env.blockReduce (env.identity op) input.data
      beginOffsets.data endOffsets.data numSegments.toNat).void

/-- `CubActor::handle`: the error a request is answered with, or what its kernels do. -/
def handle (inner : CubInner) (msg : CubMsg α V F) : Except GpuError (Traced Buf Unit) :=
  match inner with
  | .mock => .error (.unrecoverable "CubActor in mock mode (no GPU available)")
  | .real nvrtc => dispatch env nvrtc msg

end Dispatch

/-! ### Buffer lengths -/

section Lengths

variable {α V F : Type}

/-- The lengths of the buffers a request hands to its kernels, scratch buffers included. -/
def CubMsg.len : CubMsg α V F → Buf → ℕ
  | .reduce _ input output => fun
    | .input => input.len
    | .output => output.len
    | .partials => gridBlocksFor input.len
    | _ => 0
  | .scan _ input output => fun
    | .input => input.len
    | .output => output.len
    | .blockSums => gridBlocksFor input.len
    | _ => 0
  | .sort _ keysIn keysOut valuesIn valuesOut => fun
    | .keysIn => keysIn.len
    | .keysOut => keysOut.len
    | .valuesIn => (valuesIn.map DevSlice.len).getD 0
    | .valuesOut => (valuesOut.map DevSlice.len).getD 0
    | _ => 0
  | .histogram input bins _ _ _ => fun
    | .input => input.len
    | .sharedBins => histogramBins
    | .bins => bins.len
    | _ => 0
  | .select _ input output numSelected flags => fun
    | .input => input.len
    | .output => output.len
    | .numSelected => numSelected.len
    | .flags => (flags.map DevSlice.len).getD 0
    | _ => 0
  | .partition input output flags numSelected => fun
    | .input => input.len
    | .output => output.len
    | .numSelected => numSelected.len
    | .flags => flags.len
    | _ => 0
  | .segmentedReduce _ input output beginOffsets endOffsets _ => fun
    | .input => input.len
    | .output => output.len
    | .beginOffsets => beginOffsets.len
    | .endOffsets => endOffsets.len
    | _ => 0

/-- The sizes a request needs. -/
def CallerSized [BEq α] (env : KernelEnv α V F) : CubMsg α V F → Prop
  | .reduce _ _ output => 0 < output.len
  | .scan _ input output => min input.len (gridBlocksFor input.len * 1024) ≤ output.len
  | .sort _ keysIn keysOut (some valuesIn) (some valuesOut) =>
    keysIn.len ≤ keysOut.len ∧ keysIn.len ≤ valuesIn.len ∧ keysIn.len ≤ valuesOut.len
  | .sort _ keysIn keysOut _ _ => keysIn.len ≤ keysOut.len
  | .histogram input bins _ lowerLevel upperLevel =>
    ∀ j < min input.len (gridBlocksFor input.len * 1024),
      0 ≤ env.binOf lowerLevel upperLevel (input.data j) →
      env.binOf lowerLevel upperLevel (input.data j) < 256 →
      env.binOf lowerLevel upperLevel (input.data j) < bins.len
  | .select .flagged input output numSelected flags =>
    ∀ f ∈ flags, input.len ≤ f.len ∧
      (Compact.kept (flagged f.data) input.len).length ≤ output.len ∧ 0 < numSelected.len
  | .select .unique input output numSelected _ =>
    (Compact.kept (runHead input.data) input.len).length ≤ output.len ∧ 0 < numSelected.len
  | .partition input output flags numSelected =>
    input.len ≤ flags.len ∧ input.len ≤ output.len ∧ 0 < numSelected.len
  | .segmentedReduce _ input output beginOffsets endOffsets numSegments =>
    numSegments.toNat ≤ beginOffsets.len ∧ numSegments.toNat ≤ endOffsets.len ∧
      numSegments.toNat ≤ output.len ∧
      ∀ seg < numSegments.toNat, SegmentFits input.len (beginOffsets.data seg).toInt
        (endOffsets.data seg).toInt

/-- A partition with at most one element per thread; the other families have no such limit.  Behind
it a rejected element can be stored outside a buffer of the right size: with 512 elements and only
`flags[2]` clear, element 2 is stored at 513. -/
def OnePerThread : CubMsg α V F → Prop
  | .partition input _ _ _ => input.len ≤ blockThreads
  | _ => True

end Lengths

/-! ### Staying in bounds -/

section Bounds

variable {α V F : Type} [Zero α] [Add α] [BEq α] [Zero V] {env : KernelEnv α V F}

/-- A request is answered with an error, or its kernels run and stay in bounds exactly when the
caller sized the buffers. -/
def Guarded (env : KernelEnv α V F) (msg : CubMsg α V F)
    (result : Except GpuError (Traced Buf Unit)) : Prop :=
  (∃ e, result = .error e) ∨
    ∃ launch, result = .ok launch ∧ (InBounds msg.len launch ↔ CallerSized env msg)

omit [Zero α] [Add α] [Zero V] in
/-- Behind the tile check there is at most one tile. -/
theorem guarded_oneTile {msg : CubMsg α V F} {n : ℕ} {before after : String}
    {rest : Unit → Except GpuError (Traced Buf Unit)}
    (h : n ≤ 1024 → Guarded env msg (rest ())) :
    Guarded env msg (oneTile n before after >>= rest) := by
  unfold oneTile
  split_ifs with hn
  · exact .inl ⟨_, rfl⟩
  · exact h (not_lt.1 hn)

/-- With an NVRTC actor. -/
theorem guarded_dispatch (hscan : env.flagScan.Lawful) (msg : CubMsg α V F)
    (hone : OnePerThread msg) : Guarded env msg (dispatch env true msg) := by
  cases msg with
  | reduce op input output => exact .inr ⟨_, rfl, launchReduce_inBounds _ _ _ _ _ rfl rfl⟩
  | scan kind input output => exact .inr ⟨_, rfl, runScan_inBounds _ _ _ _ rfl rfl⟩
  | sort direction keysIn keysOut valuesIn valuesOut =>
    refine guarded_oneTile fun hn => ?_
    cases valuesIn with
    | none => exact .inr ⟨_, rfl, sortKeys_inBounds hn _ _ _ rfl⟩
    | some valuesIn =>
      cases valuesOut with
      | none => exact .inr ⟨_, rfl, sortKeys_inBounds hn _ _ _ rfl⟩
      | some valuesOut => exact .inr ⟨_, rfl, sortPairs_inBounds hn _ _ _ _ rfl⟩
  | histogram input bins numBins lowerLevel upperLevel =>
    exact .inr ⟨_, rfl, runHistogram_inBounds _ _ _ _ rfl rfl⟩
  | select mode input output numSelected flags =>
    refine guarded_oneTile fun hn => ?_
    cases mode with
    | unique => exact .inr ⟨_, rfl, selectUnique_inBounds hscan hn _ rfl⟩
    | flagged =>
      cases flags with
      | none => exact .inl ⟨_, rfl⟩
      | some flags =>
        refine .inr ⟨_, rfl, (selectFlagged_inBounds hscan hn _ _ rfl).trans ?_⟩
        simp [CallerSized, CubMsg.len]
  | partition input output flags numSelected =>
    refine guarded_oneTile fun _ => ?_
    exact .inr ⟨_, rfl, partitionFlagged_inBounds hscan hone _ _ rfl⟩
  | segmentedReduce op input output beginOffsets endOffsets numSegments =>
    exact .inr ⟨_, rfl, segmentedReduce_inBounds _ _ _ _ _ _ _⟩

/-- **A request is answered with an error, or every element its kernels read or write lies inside
its buffer exactly when the caller sized the buffers.** -/
theorem handle_inBounds_iff (env : KernelEnv α V F) (hscan : env.flagScan.Lawful)
    (inner : CubInner) (msg : CubMsg α V F) (hone : OnePerThread msg) :
    (∃ e, handle env inner msg = .error e) ∨
      ∃ launch, handle env inner msg = .ok launch ∧
        (InBounds msg.len launch ↔ CallerSized env msg) := by
  match inner with
  | .mock => exact .inl ⟨_, rfl⟩
  | .real false => cases msg <;> exact .inl ⟨_, rfl⟩
  | .real true => exact guarded_dispatch hscan msg hone

end Bounds

/-- CUB as documented, over 32-bit unsigned elements and integral levels. -/
def u32Env : KernelEnv (Word .u32) (Word .u32) ℤ where
  blockReduce := BlockReduce.documented
  blockScan := BlockScan.documented
  flagScan := BlockScan.documented
  sortKeys := BlockRadixSort.documented
  sortPairs := BlockRadixSort.documented
  functor := reduceOp
  identity := reduceIdentity
  binOf lower upper v := ((value v - lower) * 256).tdiv (upper - lower)
  shared _ _ := 0

/-- A `Flagged` select of two elements, all flags set, with `numFlags` flags. -/
def selectTwo (numFlags : ℕ) : CubMsg (Word .u32) (Word .u32) ℤ :=
  .select .flagged ⟨fun _ => 7, 2⟩ ⟨fun _ => 0, 2⟩ ⟨fun _ => 0, 1⟩ (some ⟨fun _ => 1, numFlags⟩)

/-- With a flag for each element it stays in bounds. -/
theorem selectTwo_inBounds : ∃ launch, handle u32Env (.real true) (selectTwo 2) = .ok launch ∧
    InBounds (selectTwo 2).len launch := by
  rcases handle_inBounds_iff u32Env BlockScan.documented_lawful (.real true) (selectTwo 2) trivial
    with ⟨e, he⟩ | ⟨launch, hok, hiff⟩
  · cases he
  · refine ⟨launch, hok, hiff.2 ?_⟩
    rintro f ⟨⟩
    decide

/-- With one flag only, the request is accepted all the same and a thread reads past the flags. -/
theorem selectTwo_outOfBounds :
    ¬ ((∃ e, handle u32Env (.real true) (selectTwo 1) = .error e) ∨
      ∃ launch, handle u32Env (.real true) (selectTwo 1) = .ok launch ∧
        InBounds (selectTwo 1).len launch) := by
  rintro (⟨e, he⟩ | ⟨launch, hok, hbounds⟩)
  · cases he
  · cases hok
    have hselect : InBounds (selectTwo 1).len
        (selectFlagged BlockScan.documented (fun _ => (7 : Word .u32)) (fun _ => 1) 2) := hbounds
    have hlen : (selectTwo 1).len .input = 2 := rfl
    have hn : 2 ≤ 1024 := by decide
    rw [selectFlagged_inBounds BlockScan.documented_lawful hn _ _ hlen] at hselect
    exact absurd hselect.1 (by decide)

end Cub

end AtomrAccel
