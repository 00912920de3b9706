import AtomrAccel.Cub.Segmented

/-!
# `CubSegmentedReduce`: the emitted program and its result

The source of the kernel is one template, filled with a functor and an identity.  The functor text
of `Product` names `thread_data`, an array of the kernel of `CubReduce` that this kernel does not
declare, so the program does not compile.  Each of the 256 threads starts from the identity, which
for `Max` and `Min` over integers is `0`.

* `emitSegmentedReduceSource`, `segmentedTemplate`: the source text;
* `compileSegmented`: the program as a kernel, unless a name in it is not declared;
* `reduce_segment`: what a block computes, with the identities folded in;
* `ZeroLoses`, `segmentedReduce_correct_iff`: the result is the fold of each segment exactly when
  the program compiles, no counter wraps and the identity loses in each segment.
-/

namespace AtomrAccel

namespace Cub

open Kernel Kernel.Traced Reduction

/-! ### The source text -/

/-- `AccelDtype::NAME`. -/
def IntDtype.name : IntDtype → String
  | i8 => "i8" | i32 => "i32" | i64 => "i64"
  | u8 => "u8" | u32 => "u32" | u64 => "u64"

/-- The name of an operation in those of the segmented kernels. -/
def opShort : ReductionOp → String
  | .sum => "sum"
  | .max => "max"
  | .min => "min"
  | .argMax => "argmax"
  | .argMin => "argmin"
  | .product => "product"

/-- `header_preamble`; no integer type asks for a toggle. -/
def headerPreamble : String := "#include \"atomr_cub_kernels.cuh\"\n\n"

/-- The name of the kernel. -/
def segmentedKname (d : IntDtype) (op : ReductionOp) : String :=
  "atomr_cub_segmented_reduce_" ++ opShort op ++ "_" ++ d.name

/-- `emit_segmented_reduce_source`. -/
def emitSegmentedReduceSource (d : IntDtype) (op : ReductionOp) : String × String :=
  let cname := d.cudaTypeName
  let kname := segmentedKname d op
  let identity := identityText op cname
  let functor := functorText op
  let src := headerPreamble
  let src := src ++ "// atomr-accel-cub: segmented " ++ opShort op ++ " over <" ++ d.name ++
    "> — one CTA per segment.\n"
  let src := src ++ "\nextern \"C\" __global__ void " ++ kname ++ "(\n    const " ++ cname ++
    "* __restrict__ d_in,\n    " ++ cname ++ "* __restrict__ d_out,\n" ++
    "    const int* __restrict__ d_begin,\n    const int* __restrict__ d_end,\n" ++
    "    unsigned int num_segments)\n\x7b\n    if (blockIdx.x >= num_segments) return;\n" ++
    "    using BR = cub::BlockReduce<" ++ cname ++ ", " ++ "256" ++ ">;\n" ++
    "    __shared__ typename BR::TempStorage tmp;\n    int begin = d_begin[blockIdx.x];\n" ++
    "    int end   = d_end[blockIdx.x];\n    " ++ cname ++ " thread_acc = (" ++ cname ++ ")(" ++
    identity ++ ");\n" ++
    "    for (int idx = begin + threadIdx.x; idx < end; idx += blockDim.x) \x7b\n        " ++
    cname ++ " v = d_in[idx];\n        thread_acc = " ++ functor ++ "(thread_acc, v);\n    \x7d\n" ++
    "    " ++ cname ++ " result = BR(tmp).Reduce(thread_acc, " ++ functor ++ ");\n" ++
    "    if (threadIdx.x == 0) d_out[blockIdx.x] = result;\n\x7d\n"
  (src, kname)

/-- What the source takes from the operation. -/
inductive Hole
  | opShort | kname
  | identity | functor
  deriving DecidableEq, Repr

/-- The text of a hole. -/
def Hole.text (d : IntDtype) (op : ReductionOp) : Hole → String
  | .opShort => Cub.opShort op
  | .kname => segmentedKname d op
  | .identity => identityText op d.cudaTypeName
  | .functor => functorText op

/-- The source at an element type, with holes. -/
def segmentedTemplate (d : IntDtype) : List (String ⊕ Hole) :=
  [.inl (headerPreamble ++ "// atomr-accel-cub: segmented "), .inr .opShort,
   .inl (" over <" ++ d.name ++ "> — one CTA per segment.\n" ++
    "\nextern \"C\" __global__ void "),
   .inr .kname,
   .inl ("(\n    const " ++ d.cudaTypeName ++
    "* __restrict__ d_in,\n    " ++ d.cudaTypeName ++ "* __restrict__ d_out,\n" ++
    "    const int* __restrict__ d_begin,\n    const int* __restrict__ d_end,\n" ++
    "    unsigned int num_segments)\n\x7b\n    if (blockIdx.x >= num_segments) return;\n" ++
    "    using BR = cub::BlockReduce<" ++ d.cudaTypeName ++ ", " ++ "256" ++ ">;\n" ++
    "    __shared__ typename BR::TempStorage tmp;\n    int begin = d_begin[blockIdx.x];\n" ++
    "    int end   = d_end[blockIdx.x];\n    " ++ d.cudaTypeName ++ " thread_acc = (" ++
    d.cudaTypeName ++ ")("),
   .inr .identity,
   .inl (");\n" ++
    "    for (int idx = begin + threadIdx.x; idx < end; idx += blockDim.x) \x7b\n        " ++
    d.cudaTypeName ++ " v = d_in[idx];\n        thread_acc = "),
   .inr .functor,
   .inl ("(thread_acc, v);\n    \x7d\n" ++ "    " ++ d.cudaTypeName ++
    " result = BR(tmp).Reduce(thread_acc, "),
   .inr .functor,
   .inl (");\n" ++ "    if (threadIdx.x == 0) d_out[blockIdx.x] = result;\n\x7d\n")]

theorem join_cons (x : String) (l : List String) : String.join (x :: l) = x ++ String.join l := by
  simp

/-- All operations share a template. -/
theorem emit_eq_template (d : IntDtype) (op : ReductionOp) :
    (emitSegmentedReduceSource d op).1 =
      String.join ((segmentedTemplate d).map (Sum.elim id (Hole.text d op))) := by
  unfold emitSegmentedReduceSource segmentedTemplate
  simp only [List.map_cons, List.map_nil, Sum.elim_inl, Sum.elim_inr, id_eq, join_cons]
  -- both sides are the same pieces, associated differently
  simp only [Hole.text, String.append_assoc, String.join_nil, String.append_empty]

/-! ### Names -/

/-- What the kernel declares, what its headers declare, and the words of the language. -/
def segmentedScope : List String :=
  ["d_in", "d_out", "d_begin", "d_end", "num_segments", "BR", "tmp", "begin", "end", "thread_acc",
   "idx", "v", "result", "blockIdx", "threadIdx", "blockDim", "cub", "Sum", "Max", "Min",
   "atomr_cub", "Multiplies", "decltype"]

theorem resolves_functor (op : ReductionOp) :
    Resolves segmentedScope (functorTokens op) ↔ op ≠ .product := by
  cases op <;> decide

example : functorText .product = "atomr_cub::Multiplies<decltype(thread_data[0])>()" := by decide

/-! ### The program as a kernel -/

section Run

variable {d : IntDtype} (BR : BlockReduce (Word d)) (op : ReductionOp)

/-- The compiled source as a kernel, `none` when a name in it is not declared. -/
def compileSegmented : Option ((ℕ → Word d) → (ℕ → BitVec 32) → (ℕ → BitVec 32) → ℕ →
    Traced Buf (List (ℕ × Word d))) :=
  if Resolves segmentedScope (functorTokens op) then do
    let functor ← functorMeaning (functorTokens op)
    let identity ← literalMeaning (identityText op d.cudaTypeName)
    return segmentedReduce functor BR identity
  else none

theorem compileSegmented_eq : compileSegmented BR op =
    if op = .product then none
    else some (segmentedReduce (reduceOp op) BR (reduceIdentity op)) := by
  unfold compileSegmented
  rw [functorMeaning_tokens, literalMeaning_identity]
  by_cases hop : op = .product
  · rw [if_neg (mt (resolves_functor op).1 (not_not.2 hop)), if_pos hop]
  · rw [if_neg hop, if_neg hop, if_pos ((resolves_functor op).2 hop)]
    rfl

/-- `compile_and_launch`: the output after the launch, or no launch. -/
def runSegmented (input output : ℕ → Word d) (begins ends : ℕ → BitVec 32) (numSegments : ℕ) :
    Option (Traced Buf (ℕ → Word d)) :=
  (compileSegmented BR op).map fun kernel => do
    let stores ← kernel input begins ends numSegments
    return scatter output stores

end Run

/-! ### What a block computes -/

section Block

variable {α : Type} (functor : α → α → α) (input : ℕ → α)

/-- `input[start .. stop)`. -/
def segmentItems (start stop : ℤ) : List α :=
  firstN (fun j => input (start.toNat + j)) (stop - start).toNat

/-- The loop of a thread folds what it visits. -/
theorem segmentLoop_val {start m : ℕ} (hfits : (start + m : ℤ) + 255 < 2 ^ 31) {fuel i : ℕ}
    (hfuel : m ≤ i + 256 * fuel) (acc : α) :
    (segmentLoop functor input (start + m : ℤ) fuel (start + i : ℤ) acc).val =
      ((strideFrom i m).map fun j => input (start + j)).foldl functor acc := by
  induction fuel generalizing i acc with
  | zero =>
    rw [strideFrom_of_le (by omega)]
    rfl
  | succ fuel ih =>
    unfold segmentLoop
    by_cases hlt : i < m
    · have hnext : wrapInt ((start + i : ℤ) + 256) = (start + (i + 256 : ℕ) : ℤ) := by
        rw [wrapInt_of_lt (by omega) (by omega)]
        push_cast
        ring
      have hidx : (start + i : ℤ).toNat = start + i := by omega
      rw [if_pos (by omega), val_bind, val_readInt, hnext, hidx, ih (by omega),
        strideFrom_of_lt hlt, List.map_cons, List.foldl_cons]
    · rw [if_neg (by omega), strideFrom_of_le (by omega)]
      rfl

variable [Std.Associative functor] [Std.Commutative functor]

/-- A block folds its segment and the identity of each thread. -/
theorem reduce_segment {BR : BlockReduce α} (hBR : BR.Lawful) (e : α)
    (begins ends : ℕ → BitVec 32) (seg : ℕ) (hstart : 0 ≤ (begins seg).toInt)
    (hle : (begins seg).toInt ≤ (ends seg).toInt) (hfits : (ends seg).toInt + 255 < 2 ^ 31) :
    some (BR.reduceThreads functor fun t =>
        (segmentThread functor e input begins ends seg t).val) =
      reduce functor (segmentItems input (begins seg).toInt (ends seg).toInt ++
        List.replicate 256 e) := by
  obtain ⟨start, hs⟩ := Int.eq_ofNat_of_zero_le hstart
  obtain ⟨m, hm⟩ := Int.eq_ofNat_of_zero_le (sub_nonneg.2 hle)
  have hstop : (ends seg).toInt = (start + m : ℤ) := by omega
  have hthread : ∀ t < 256, (segmentThread functor e input begins ends seg t).val =
      ((strideFrom t m).map fun j => input (start + j)).foldl functor e := by
    intro t ht
    have hfirst : wrapInt ((begins seg).toInt + t) = (start + t : ℤ) := by
      rw [hs, wrapInt_of_lt (by omega) (by omega)]
    simp only [segmentThread, val_bind, val_read, hfirst, hstop]
    refine segmentLoop_val functor input (by omega) ?_ e
    simp only [loopPeriod]
    omega
  obtain ⟨l, hperm, hl⟩ := hBR.reduceThreads_eq functor fun t =>
    (segmentThread functor e input begins ends seg t).val
  have hpieces : ∀ t ∈ List.range 256,
      reduce functor (e :: (strideFrom t m).map fun j => input (start + j)) =
        some (segmentThread functor e input begins ends seg t).val :=
    fun t ht => congrArg some (hthread t (List.mem_range.1 ht)).symm
  have hitems : segmentItems input (begins seg).toInt (ends seg).toInt =
      (List.range m).map fun j => input (start + j) := by
    have hlen : ((ends seg).toInt - (begins seg).toInt).toNat = m := by omega
    rw [segmentItems, hlen, hs]
    rfl
  -- the identities of the threads to one side, their elements to the other
  have hsplit : ((List.range 256).flatMap fun t =>
      e :: (strideFrom t m).map fun j => input (start + j)).Perm
      (List.replicate 256 e ++ (List.range m).map fun j => input (start + j)) := by
    refine (List.flatMap_append_perm (List.range 256) (fun _ => [e]) _).symm.trans ?_
    have hconst : (List.range 256).flatMap (fun _ => [e]) = List.replicate 256 e := by
      rw [← List.map_eq_flatMap, List.map_const', List.length_range]
    rw [hconst, ← List.map_flatMap]
    exact ((strides_perm m).map _).append_left _
  rw [← hl, reduce_perm hperm, hitems]
  calc reduce functor (firstN (fun t => (segmentThread functor e input begins ends seg t).val)
        blockThreads)
      = reduce functor ((List.range 256).flatMap fun t =>
          e :: (strideFrom t m).map fun j => input (start + j)) := reduce_map_of_pieces hpieces
    _ = reduce functor (List.replicate 256 e ++ (List.range m).map fun j => input (start + j)) :=
        reduce_perm hsplit
    _ = _ := reduce_perm List.perm_append_comm

end Block

/-! ### Exactly when the result is the fold -/

section Result

variable {d : IntDtype}

/-- The zero every thread starts from is no better than some element. -/
def ZeroLoses (op : ReductionOp) (items : List (Word d)) : Prop :=
  match op with
  | .sum | .product => True
  | .max | .argMax => ∃ x ∈ items, 0 ≤ value x
  | .min | .argMin => ∃ x ∈ items, value x ≤ 0

/-- A maximum is as large as one of the elements. -/
theorem value_max_iff {l : List (Word d)} {r : Word d} (h : reduce (reduceOp .max) l = some r)
    (c : ℤ) : c ≤ value r ↔ ∃ x ∈ l, c ≤ value x :=
  reduce_iff_exists (p := fun x => c ≤ value x) (fun a b => by rw [value_max, le_max_iff]) h

theorem value_min_iff {l : List (Word d)} {r : Word d} (h : reduce (reduceOp .min) l = some r)
    (c : ℤ) : value r ≤ c ↔ ∃ x ∈ l, value x ≤ c :=
  reduce_iff_exists (p := fun x => value x ≤ c) (fun a b => by rw [value_min, min_le_iff]) h

/-- The identity changes nothing exactly when it loses. -/
theorem reduceOp_identity_iff (op : ReductionOp) {l : List (Word d)} {r : Word d}
    (h : reduce (reduceOp op) l = some r) :
    reduceOp op r (reduceIdentity op) = r ↔ ZeroLoses op l := by
  have hmax : reduceOp .max r (0 : Word d) = r ↔ 0 ≤ value r := by
    rw [← value_injective.eq_iff, value_max, value_zero, max_eq_left_iff]
  have hmin : reduceOp .min r (0 : Word d) = r ↔ value r ≤ 0 := by
    rw [← value_injective.eq_iff, value_min, value_zero, min_eq_left_iff]
  cases op with
  | sum => exact iff_of_true (BitVec.add_zero r) trivial
  | product => exact iff_of_true (BitVec.mul_one r) trivial
  | max | argMax => exact hmax.trans (value_max_iff h 0)
  | min | argMin => exact hmin.trans (value_min_iff h 0)

theorem reduceOp_identity_self (op : ReductionOp) :
    reduceOp op (reduceIdentity op : Word d) (reduceIdentity op) = reduceIdentity op := by
  cases op with
  | sum => exact BitVec.add_zero _
  | product => exact BitVec.mul_one _
  | max | argMax | min | argMin => exact if_neg (lt_irrefl _)

/-- The request launches, stays inside its buffers, and writes the fold of each segment. -/
def ReducesSegments (BR : BlockReduce (Word d)) (op : ReductionOp) (input output : ℕ → Word d)
    (begins ends : ℕ → BitVec 32) (numSegments : ℕ) (len : Buf → ℕ) : Prop :=
  ∃ run, runSegmented BR op input output begins ends numSegments = some run ∧
    InBounds len run ∧
    ∀ seg < numSegments,
      reduce (reduceOp op) (segmentItems input (begins seg).toInt (ends seg).toInt) =
        some (run.val seg)

theorem segmentItems_ne_nil (input : ℕ → Word d) {start stop : ℤ} (h : start < stop) :
    segmentItems input start stop ≠ [] := by
  intro hnil
  have hlen := congrArg List.length hnil
  simp only [segmentItems, firstN, List.length_map, List.length_range, List.length_nil] at hlen
  omega

/-- The output element of a segment is what its block computes. -/
theorem scatter_segmentedReduce (BR : BlockReduce (Word d)) (op : ReductionOp)
    (input output : ℕ → Word d) (begins ends : ℕ → BitVec 32) {numSegments seg : ℕ}
    (hseg : seg < numSegments) :
    scatter output (segmentedReduce (reduceOp op) BR (reduceIdentity op) input begins ends
        numSegments).val seg =
      BR.reduceThreads (reduceOp op) fun t =>
        (segmentThread (reduceOp op) (reduceIdentity op) input begins ends seg t).val := by
  let block := fun b => BR.reduceThreads (reduceOp op) fun t =>
    (segmentThread (reduceOp op) (reduceIdentity op) input begins ends b t).val
  have hval : (segmentedReduce (reduceOp op) BR (reduceIdentity op) input begins ends
      numSegments).val = (List.range (max numSegments 1)).flatMap fun b =>
        if numSegments ≤ b then [] else [(b, block b)] := by
    simp only [segmentedReduce, val_forEach, val_ite, val_bind, val_gather, val_write, val_pure,
      block]
  rw [hval]
  apply scatter_of_agree
  · refine ⟨(seg, block seg), List.mem_flatMap.2 ⟨seg, List.mem_range.2 (by omega), ?_⟩, rfl⟩
    rw [if_neg (not_le.2 hseg)]
    exact List.mem_singleton_self _
  · intro w hw hwseg
    obtain ⟨b, -, hb⟩ := List.mem_flatMap.1 hw
    split_ifs at hb with hle
    · cases hb
    · -- the store of block `b` goes to element `b`
      obtain rfl := List.mem_singleton.1 hb
      obtain rfl : b = seg := hwseg
      rfl

/-- With nonempty segments inside the input and room for them all, only the counters can leave the
input. -/
theorem inBounds_of_segments (BR : BlockReduce (Word d)) (op : ReductionOp) (input : ℕ → Word d)
    (begins ends : ℕ → BitVec 32) {numSegments : ℕ} {len : Buf → ℕ}
    (hbegin : numSegments ≤ len .beginOffsets) (hend : numSegments ≤ len .endOffsets)
    (hout : numSegments ≤ len .output)
    (hsegs : ∀ seg < numSegments, 0 ≤ (begins seg).toInt ∧
      (begins seg).toInt < (ends seg).toInt ∧ (ends seg).toInt ≤ len .input) :
    InBounds len (segmentedReduce (reduceOp op) BR (reduceIdentity op) input begins ends
      numSegments) ↔ ∀ seg < numSegments, (ends seg).toInt + 255 < 2 ^ 31 := by
  rw [segmentedReduce_inBounds]
  constructor
  · rintro ⟨-, -, -, hfit⟩ seg hseg
    have hfit := hfit seg hseg
    rw [SegmentFits, if_pos (hsegs seg hseg).2.1] at hfit
    exact hfit.2.2
  · intro hfit
    refine ⟨hbegin, hend, hout, fun seg hseg => ?_⟩
    obtain ⟨hstart, hlt, hroom⟩ := hsegs seg hseg
    rw [SegmentFits, if_pos hlt]
    exact ⟨hstart, hroom, hfit seg hseg⟩

variable {BR : BlockReduce (Word d)} (hBR : BR.Lawful) (op : ReductionOp)
  (input output : ℕ → Word d) (begins ends : ℕ → BitVec 32)
include hBR

/-- A segment comes out as its fold exactly when the zero loses. -/
theorem segment_correct_iff {numSegments seg : ℕ} (hseg : seg < numSegments)
    (hstart : 0 ≤ (begins seg).toInt) (hlt : (begins seg).toInt < (ends seg).toInt)
    (hfits : (ends seg).toInt + 255 < 2 ^ 31) :
    reduce (reduceOp op) (segmentItems input (begins seg).toInt (ends seg).toInt) =
        some (scatter output (segmentedReduce (reduceOp op) BR (reduceIdentity op) input
          begins ends numSegments).val seg) ↔
      ZeroLoses op (segmentItems input (begins seg).toInt (ends seg).toInt) := by
  obtain ⟨x, l, hitems⟩ := List.exists_cons_of_ne_nil (segmentItems_ne_nil input hlt)
  obtain ⟨r, hr⟩ : ∃ r, reduce (reduceOp op)
      (segmentItems input (begins seg).toInt (ends seg).toInt) = some r :=
    ⟨_, reduce_of_cons _ hitems⟩
  rw [scatter_segmentedReduce BR op input output begins ends hseg,
    reduce_segment (reduceOp op) input hBR _ begins ends seg hstart hlt.le hfits,
    reduce_append, reduce_replicate (reduceOp_identity_self op), hr, Option.merge_some_some,
    ← reduceOp_identity_iff op hr, Option.some_inj]
  exact eq_comm

/-- The output is the fold of each segment exactly when the program compiles, no counter wraps
behind a segment and the zero loses in it. -/
theorem reducesSegments_iff {numSegments : ℕ} {len : Buf → ℕ}
    (hbegin : numSegments ≤ len .beginOffsets) (hend : numSegments ≤ len .endOffsets)
    (hout : numSegments ≤ len .output)
    (hsegs : ∀ seg < numSegments, 0 ≤ (begins seg).toInt ∧
      (begins seg).toInt < (ends seg).toInt ∧ (ends seg).toInt ≤ len .input) :
    ReducesSegments BR op input output begins ends numSegments len ↔
      op ≠ .product ∧ ∀ seg < numSegments, (ends seg).toInt + 255 < 2 ^ 31 ∧
        ZeroLoses op (segmentItems input (begins seg).toInt (ends seg).toInt) := by
  unfold ReducesSegments runSegmented
  rw [compileSegmented_eq]
  by_cases hop : op = .product
  · rw [if_pos hop]
    refine iff_of_false ?_ fun h => h.1 hop
    rintro ⟨run, hrun, -⟩
    cases hrun
  · rw [if_neg hop]
    have hbounds := inBounds_of_segments BR op input begins ends hbegin hend hout hsegs
    constructor
    · rintro ⟨run, hrun, hin, hfold⟩
      cases hrun
      have hfit := hbounds.1 ((inBounds_bind _ _).1 hin).1
      refine ⟨hop, fun seg hseg => ⟨hfit seg hseg, ?_⟩⟩
      obtain ⟨hstart, hlt, -⟩ := hsegs seg hseg
      exact (segment_correct_iff hBR op input output begins ends hseg hstart hlt
        (hfit seg hseg)).1 (hfold seg hseg)
    · rintro ⟨-, hok⟩
      refine ⟨_, rfl, (inBounds_bind _ _).2
        ⟨hbounds.2 fun seg hseg => (hok seg hseg).1, inBounds_pure _⟩, fun seg hseg => ?_⟩
      obtain ⟨hstart, hlt, -⟩ := hsegs seg hseg
      exact (segment_correct_iff hBR op input output begins ends hseg hstart hlt
        (hok seg hseg).1).2 (hok seg hseg).2

/-- **All operations share a source up to functor, identity and name; and the output is the fold of
each segment, within the buffers, exactly when the operation is not a product, no counter wraps
behind a segment, and the zero of `Max` and `Min` loses to an element of each segment.** -/
theorem segmentedReduce_correct_iff {numSegments : ℕ} {len : Buf → ℕ}
    (hbegin : numSegments ≤ len .beginOffsets) (hend : numSegments ≤ len .endOffsets)
    (hout : numSegments ≤ len .output)
    (hsegs : ∀ seg < numSegments, 0 ≤ (begins seg).toInt ∧
      (begins seg).toInt < (ends seg).toInt ∧ (ends seg).toInt ≤ len .input) :
    (emitSegmentedReduceSource d op).1 =
        String.join ((segmentedTemplate d).map (Sum.elim id (Hole.text d op))) ∧
      (ReducesSegments BR op input output begins ends numSegments len ↔
        op ≠ .product ∧ ∀ seg < numSegments, (ends seg).toInt + 255 < 2 ^ 31 ∧
          ZeroLoses op (segmentItems input (begins seg).toInt (ends seg).toInt)) :=
  ⟨emit_eq_template d op,
    reducesSegments_iff hBR op input output begins ends hbegin hend hout hsegs⟩

end Result

/-- The end-to-end test with integers: three segments of `1, …, 16`. -/
theorem segmentedReduce_correct_three_segments :
    ReducesSegments (d := .i32) BlockReduce.documented .sum (fun j => BitVec.ofNat 32 (j + 1))
      (fun _ => 0) (fun s => [0, 5, 12].getD s 0) (fun s => [5, 12, 16].getD s 0) 3
      (fun buf => if buf = .input then 16 else 3) :=
  (segmentedReduce_correct_iff (d := .i32) BlockReduce.documented_lawful .sum _ (fun _ => 0) _ _
    (by decide) (by decide) (by decide) (by decide)).2.2
    ⟨by decide, fun seg hseg => ⟨by revert seg; decide, trivial⟩⟩

/-- The maximum of a segment that holds a single `-1` comes out as `0`, and a product is not
computed at all. -/
theorem segmentedReduce_incorrect :
    ¬ ReducesSegments (d := .i32) BlockReduce.documented .max (fun _ => -1) (fun _ => 0)
        (fun _ => 0) (fun _ => 1) 1 (fun _ => 1) ∧
      runSegmented (d := .i32) BlockReduce.documented .product (fun _ => 1) (fun _ => 0)
        (fun _ => 0) (fun _ => 1) 1 = none := by
  constructor
  · intro h
    have hok := (reducesSegments_iff (d := .i32) BlockReduce.documented_lawful .max (fun _ => -1)
      (fun _ => 0) (fun _ => 0) (fun _ => 1) (by decide) (by decide) (by decide) (by decide)).1 h
    obtain ⟨x, hx, hle⟩ := (hok.2 0 Nat.one_pos).2
    obtain rfl := List.mem_singleton.1 hx
    exact absurd hle (by decide)
  · rw [runSegmented, compileSegmented_eq, if_pos rfl]
    rfl

end Cub

end AtomrAccel
