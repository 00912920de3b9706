import AtomrAccel.Cutlass.PlanCache
import AtomrAccel.Cutlass.Request
import AtomrAccel.Lib.Numeral
import AtomrAccel.Lib.PrefixCode

/-!
# Plan keys and the sources they stand for

A plan key is a template number and three hashes, each of a stream of bytes to which the fields of
the request are written one after the other, names without their lengths.  The source of a plan is
rendered from the request.

* `Hasher`, `PlanKey.gemm`, `PlanKey.groupedGemm`, `PlanKey.conv`: the keys;
* `renderGemm`, `renderGroupedGemm`, `renderConv`: the sources and kernel names;
* `decodes_dtype`, `decodes_arch`, `decodes_groupedLayout`: what has to follow a name for it to be
  read off a stream;
* `gemm_injective`, `grouped_determines`, `conv_injective`: what a stream says about its request;
* `planKey_sound`: requests with the same template and streams have the same source and name, and
  up to collisions of the hash a plan found in the cache is that of the request.
-/

namespace AtomrAccel

namespace Cutlass

open PrefixCode Transition

/-! ### Keys -/

/-- `str::as_bytes`. -/
def strBytes (s : String) : List UInt8 := s.toList.flatMap String.utf8EncodeChar

/-- What was written to the three `DefaultHasher`s. -/
structure Hasher where
  a : List UInt8
  b : List UInt8
  c : List UInt8
  deriving DecidableEq, Repr

namespace Hasher

/-- Three streams that start apart. -/
def new : Hasher :=
  ⟨leBytes 8 0xA5A5A5A5A5A5A5A5, leBytes 8 0x5A5A5A5A5A5A5A5A, leBytes 8 0xC3C3C3C3C3C3C3C3⟩

/-- A byte goes into each stream. -/
def addU8 (h : Hasher) (v : UInt8) : Hasher := ⟨h.a ++ [v], h.b ++ [v + 0x55], h.c ++ [v + 0xAA]⟩

/-- `rotate_left`. -/
def rotateLeft (v : UInt32) (k : ℕ) : UInt32 := ⟨v.toBitVec.rotateLeft k⟩

/-- A word goes into each stream, rotated. -/
def addU32 (h : Hasher) (v : UInt32) : Hasher :=
  ⟨h.a ++ u32 v, h.b ++ u32 (rotateLeft v 11), h.c ++ u32 (rotateLeft v 23)⟩

/-- The bytes of a string go into each stream. -/
def addStr (h : Hasher) (s : String) : Hasher :=
  ⟨h.a ++ strBytes s, h.b ++ strBytes s, h.c ++ strBytes s⟩

/-- `finish`; `sipHash` is `DefaultHasher` on all that was written to it. -/
def finish (sipHash : List UInt8 → UInt64) (h : Hasher) : UInt64 × UInt64 × UInt64 :=
  (sipHash h.a, sipHash h.b, sipHash h.c)

@[simp] theorem addU8_a (h : Hasher) (v : UInt8) : (h.addU8 v).a = h.a ++ [v] := rfl
@[simp] theorem addU32_a (h : Hasher) (v : UInt32) : (h.addU32 v).a = h.a ++ u32 v := rfl
@[simp] theorem addStr_a (h : Hasher) (s : String) : (h.addStr s).a = h.a ++ strBytes s := rfl

end Hasher

/-- `as u8`. -/
def boolToU8 (b : Bool) : UInt8 := if b then 1 else 0

namespace PlanKey

/-- What `PlanKey::gemm` writes. -/
def gemmHasher (r : GemmRequest) : Hasher :=
  let h := Hasher.new
  let h := h.addU32 r.shape.m
  let h := h.addU32 r.shape.n
  let h := h.addU32 r.shape.k
  let h := h.addU8 r.layoutA.toU8
  let h := h.addU8 r.layoutB.toU8
  let h := h.addU8 r.layoutC.toU8
  let h := h.addStr r.dtype.shortName
  let h := h.addStr r.accumDtype.shortName
  let h := h.addStr r.outputDtype.shortName
  let h := h.addStr r.arch.shortName
  let h := h.addU8 (boolToU8 r.persistent)
  let h := h.addStr r.epilogue.shortName
  let h := h.addU32 r.epilogue.alpha
  h.addU32 r.epilogue.beta

/-- What `PlanKey::grouped_gemm` writes; the number of groups is cast to `u32`. -/
def groupedHasher (r : GroupedGemmRequest) : Hasher :=
  let summary := r.shape.summary
  let h := Hasher.new
  let h := h.addU32 summary.1
  let h := h.addU32 summary.2.1
  let h := h.addU32 summary.2.2.1
  let h := h.addU32 (UInt32.ofNat summary.2.2.2)
  let h := h.addU8 r.layoutA.toU8
  let h := h.addU8 r.layoutB.toU8
  let h := h.addU8 r.layoutC.toU8
  let h := h.addStr r.groupedLayout.shortName
  let h := h.addStr r.dtype.shortName
  let h := h.addStr r.accumDtype.shortName
  let h := h.addStr r.outputDtype.shortName
  let h := h.addStr r.arch.shortName
  let h := h.addU8 (boolToU8 r.persistent)
  h.addStr r.epilogue.shortName

/-- What `PlanKey::conv` writes. -/
def convHasher (r : ConvRequest) : Hasher :=
  let h := Hasher.new
  let h := h.addStr r.kind.shortName
  let h := h.addU32 r.shape.n
  let h := h.addU32 r.shape.h
  let h := h.addU32 r.shape.w
  let h := h.addU32 r.shape.c
  let h := h.addU32 r.shape.k
  let h := h.addU32 r.shape.r
  let h := h.addU32 r.shape.s
  let h := h.addU32 r.shape.padH
  let h := h.addU32 r.shape.padW
  let h := h.addU32 r.shape.strideH
  let h := h.addU32 r.shape.strideW
  let h := h.addU32 r.shape.dilH
  let h := h.addU32 r.shape.dilW
  let h := h.addStr r.layout.shortName
  let h := h.addStr r.dtype.shortName
  let h := h.addStr r.accumDtype.shortName
  let h := h.addStr r.outputDtype.shortName
  h.addStr r.arch.shortName

variable (sipHash : List UInt8 → UInt64)

/-- The key of a product. -/
def gemm (r : GemmRequest) : PlanKey := ⟨1, (gemmHasher r).finish sipHash⟩

/-- The key of a group of products. -/
def groupedGemm (r : GroupedGemmRequest) : PlanKey := ⟨2, (groupedHasher r).finish sipHash⟩

/-- The key of a convolution. -/
def conv (r : ConvRequest) : PlanKey := ⟨3, (convHasher r).finish sipHash⟩

/-- What the derived `Hash` writes: the fields, and the length of the payload before it. -/
def bytes (key : PlanKey) : List UInt8 :=
  key.templateId :: leBytes 8 3 ++ leBytes 8 key.payload.1.toNat ++
    leBytes 8 key.payload.2.1.toNat ++ leBytes 8 key.payload.2.2.toNat

/-- `key_suffix`: `{:016x}` of the hash of the key. -/
def suffix (key : PlanKey) : String :=
  String.ofList (Numeral.padded 16 (sipHash key.bytes).toNat)

end PlanKey

/-! ### Sources -/

/-- The lines every kernel starts with. -/
def headerPreamble : String :=
  "\n#include <cutlass/cutlass.h>\n#include <cutlass/numeric_types.h>\n" ++
  "#include <cutlass/gemm/device/gemm_universal.h>\n" ++
  "#include <cutlass/conv/device/implicit_gemm_convolution.h>\n"

/-- `{}` of a number. -/
def decimal (v : UInt32) : String := toString v.toNat

section Render

variable (sipHash : List UInt8 → UInt64)

/-- `render_gemm`: the source and the kernel name. -/
def renderGemm (r : GemmRequest) : String × String :=
  let kname := "atomr_cutlass_gemm_" ++ (PlanKey.gemm sipHash r).suffix sipHash
  let src := headerPreamble ++
    "// atomr-accel-cutlass: GEMM template instantiation\n//   shape=(" ++ decimal r.shape.m ++
    ", " ++ decimal r.shape.n ++ ", " ++ decimal r.shape.k ++ ") layout=(" ++
    r.layoutA.shortName ++ ", " ++ r.layoutB.shortName ++ ", " ++ r.layoutC.shortName ++
    ") dtype=" ++ r.dtype.shortName ++ " accum=" ++ r.accumDtype.shortName ++ " out=" ++
    r.outputDtype.shortName ++ " arch=" ++ r.arch.shortName ++ " persistent=" ++
    toString r.persistent ++ "\n"
  let src := src ++ "using AtomrGemm = cutlass::gemm::device::GemmUniversal<\n" ++
    r.dtype.asCutlassType ++ ", " ++ r.layoutA.cutlassLayout ++ ",\n" ++
    r.dtype.asCutlassType ++ ", " ++ r.layoutB.cutlassLayout ++ ",\n" ++
    r.outputDtype.asCutlassType ++ ", " ++ r.layoutC.cutlassLayout ++ ",\n" ++
    r.accumDtype.asCutlassType ++ ",\ncutlass::arch::OpClassTensorOp,\ncutlass::arch::Sm" ++
    toString r.arch.num ++ ">;\n"
  let src := src ++ "// epilogue: " ++ r.epilogue.shortName ++ "\n"
  let src := src ++ "extern \"C\" __global__ void " ++ kname ++
    "(\n    AtomrGemm::Arguments args)\n\x7b\n" ++
    "    // CUTLASS launches via a host-side adapter; the kernel body\n" ++
    "    // is generated by CUTLASS itself. This stub holds the\n" ++
    "    // device-side entry symbol so NVRTC's name-expression lookup\n" ++
    "    // resolves cleanly.\n    (void)args;\n\x7d\n"
  (src, kname)

/-- `render_grouped_gemm`. -/
def renderGroupedGemm (r : GroupedGemmRequest) : String × String :=
  let kname := "atomr_cutlass_grouped_gemm_" ++ (PlanKey.groupedGemm sipHash r).suffix sipHash
  let src := headerPreamble ++
    "// atomr-accel-cutlass: Grouped GEMM template instantiation\n//   group_count=" ++
    toString r.shape.groupCount ++ " layout=" ++ r.groupedLayout.shortName ++ " dtype=" ++
    r.dtype.shortName ++ " arch=" ++ r.arch.shortName ++ "\n"
  let src := src ++
    "using AtomrGroupedGemm = cutlass::gemm::device::GemmUniversal /* grouped variant */<\n" ++
    r.dtype.asCutlassType ++ ", " ++ r.layoutA.cutlassLayout ++ ",\n" ++
    r.dtype.asCutlassType ++ ", " ++ r.layoutB.cutlassLayout ++ ",\n" ++
    r.outputDtype.asCutlassType ++ ", " ++ r.layoutC.cutlassLayout ++ ",\n" ++
    r.accumDtype.asCutlassType ++ ">;\n"
  let src := src ++ "// kernel: GroupedGemm symbol is generated by CUTLASS host-side adapter.\n"
  let src := src ++ "extern \"C\" __global__ void " ++ kname ++ "(int) \x7b\x7d\n"
  (src, kname)

/-- `render_conv`. -/
def renderConv (r : ConvRequest) : String × String :=
  let kname := "atomr_cutlass_conv_" ++ r.kind.shortName ++ "_" ++
    (PlanKey.conv sipHash r).suffix sipHash
  let src := headerPreamble ++
    "// atomr-accel-cutlass: Implicit-GEMM convolution\n//   kind=" ++ r.kind.shortName ++
    " shape=N" ++ decimal r.shape.n ++ "H" ++ decimal r.shape.h ++ "W" ++ decimal r.shape.w ++
    "C" ++ decimal r.shape.c ++ "K" ++ decimal r.shape.k ++ "R" ++ decimal r.shape.r ++ "S" ++
    decimal r.shape.s ++ " layout=" ++ r.layout.shortName ++ " dtype=" ++ r.dtype.shortName ++
    " accum=" ++ r.accumDtype.shortName ++ " out=" ++ r.outputDtype.shortName ++ " arch=" ++
    r.arch.shortName ++ "\n"
  let src := src ++ "using AtomrConv = " ++ r.kind.cutlassKernel ++
    "</* simplified template arg list */>;\n"
  let src := src ++ "// CUTLASS implicit-GEMM convolution; ImplicitGemmConvolution path.\n"
  let src := src ++ "extern \"C\" __global__ void " ++ kname ++ "(int) \x7b\x7d\n"
  (src, kname)

end Render

namespace Request

def templateId : Request → UInt8
  | gemm _ => 1
  | grouped _ => 2
  | conv _ => 3

/-- What is written to the three hashers. -/
def lanes : Request → Hasher
  | gemm r => PlanKey.gemmHasher r
  | grouped r => PlanKey.groupedHasher r
  | conv r => PlanKey.convHasher r

variable (sipHash : List UInt8 → UInt64)

/-- `plan_key`. -/
def planKey : Request → PlanKey
  | gemm r => PlanKey.gemm sipHash r
  | grouped r => PlanKey.groupedGemm sipHash r
  | conv r => PlanKey.conv sipHash r

/-- `render_cu`. -/
def renderCu : Request → String × String
  | gemm r => renderGemm sipHash r
  | grouped r => renderGroupedGemm sipHash r
  | conv r => renderConv sipHash r

theorem planKey_eq (r : Request) :
    r.planKey sipHash = ⟨r.templateId, r.lanes.finish sipHash⟩ := by
  cases r <;> rfl

end Request

/-! ### Names on a stream -/

/-- The names of element types are a prefix code. -/
theorem decodes_dtype {P : List UInt8 → Prop} :
    Decodes (fun d : CutlassDtype => strBytes d.shortName) P := by
  refine decodes_of_prefixFree fun a b h => ?_
  revert h
  cases a <;> cases b <;> decide

/-- What holds of the symbol in front, checked on that symbol only. -/
theorem forall_of_all {o : Option UInt8} {p : UInt8 → Prop} [DecidablePred p]
    (h : o.all (fun x => decide (p x)) = true) : ∀ x ∈ o, p x := by
  intro x hx
  rw [Option.mem_def.1 hx] at h
  exact of_decide_eq_true h

/-- Names are read off a stream when a name goes on to a longer one by the symbol `x` only. -/
theorem decodes_names {α : Type} {name : α → String} {x : UInt8}
    (hinj : ∀ a b, strBytes (name a) = strBytes (name b) → a = b)
    (hnext : ∀ a b, strBytes (name a) <+: strBytes (name b) →
      ((strBytes (name b)).drop (strBytes (name a)).length).head?.all (fun y => y = x) = true) :
    Decodes (fun a => strBytes (name a)) fun s => ∀ y ∈ s.head?, ¬ y = x :=
  decodes_of_next (fun a b h => hinj a b h) fun a b hprefix => forall_of_all (hnext a b hprefix)

/-- `sm_90` is followed by something other than the `a` of `sm_90a`. -/
theorem decodes_arch :
    Decodes (fun a : SmArch => strBytes a.shortName) fun s => ∀ x ∈ s.head?, ¬ x = 97 := by
  apply decodes_names
  · intro a b
    cases a <;> cases b <;> decide
  · intro a b
    cases a <;> cases b <;> decide

/-- `var` is followed by something other than the `_` of `var_m`. -/
theorem decodes_groupedLayout :
    Decodes (fun g : GroupedLayout => strBytes g.shortName) fun s => ∀ x ∈ s.head?, ¬ x = 95 := by
  apply decodes_names
  · intro a b
    cases a <;> cases b <;> decide
  · intro a b
    cases a <;> cases b <;> decide

/-- `linear` is read off a stream whose length is known. -/
theorem epilogue_injective :
    Function.Injective fun e : GemmEpilogue.Kind => strBytes e.shortName := by
  intro a b h
  revert h
  cases a <;> cases b <;> decide

theorem decodes_convLayout {P : List UInt8 → Prop} :
    Decodes (fun l : ConvLayout => strBytes l.shortName) P := by
  refine decodes_of_prefixFree fun a b h => ?_
  revert h
  cases a <;> cases b <;> decide

theorem decodes_convKind {P : List UInt8 → Prop} :
    Decodes (fun k : ConvKind => strBytes k.shortName) P := by
  refine decodes_of_prefixFree fun a b h => ?_
  revert h
  cases a <;> cases b <;> decide

theorem decodes_gemmLayout {P : List UInt8 → Prop} :
    Decodes (fun l : GemmLayout => [l.toU8]) P := by
  refine decodes_of_prefixFree fun a b h => ?_
  revert h
  cases a <;> cases b <;> decide

theorem decodes_persistent {P : List UInt8 → Prop} :
    Decodes (fun b : Bool => [boolToU8 b]) P := by
  refine decodes_of_prefixFree fun a b h => ?_
  revert h
  cases a <;> cases b <;> decide

/-- The three element types of a request, written one after the other. -/
theorem decodes_dtypes {P : List UInt8 → Prop} :
    Decodes (fun d : CutlassDtype × CutlassDtype × CutlassDtype =>
      strBytes d.1.shortName ++ (strBytes d.2.1.shortName ++ strBytes d.2.2.shortName)) P :=
  Decodes.append (P := fun _ => True) decodes_dtype
    (Decodes.append (P := fun _ => True) decodes_dtype decodes_dtype fun _ _ _ => trivial)
    fun _ _ _ => trivial

theorem u32_length (v : UInt32) : (u32 v).length = 4 := length_leBytes 4 _

/-! ### What a stream says about its request -/

namespace PlanKey

/-- A persistence byte is no `a`. -/
theorem head_persistent (b : Bool) (s : List UInt8) :
    ∀ x ∈ ([boolToU8 b] ++ s).head?, ¬ x = 97 := by
  intro x hx
  obtain rfl : boolToU8 b = x := Option.some.inj hx
  cases b <;> decide

/-- The name of an element type does not begin with `_`. -/
theorem head_dtype (d : CutlassDtype) (s : List UInt8) :
    ∀ x ∈ (strBytes d.shortName ++ s).head?, ¬ x = 95 := by
  have hhead : ∀ x ∈ (strBytes d.shortName).head?, ¬ x = 95 := by
    refine forall_of_all ?_
    cases d <;> decide
  cases hname : strBytes d.shortName with
  | nil => cases d <;> exact absurd hname (by decide)
  | cons y ys =>
    rw [hname] at hhead
    exact hhead

theorem gemmHasher_a (r : GemmRequest) : (gemmHasher r).a =
    Hasher.new.a ++ (u32 r.shape.m ++ (u32 r.shape.n ++ (u32 r.shape.k ++
      ([r.layoutA.toU8] ++ ([r.layoutB.toU8] ++ ([r.layoutC.toU8] ++
      ((strBytes r.dtype.shortName ++ (strBytes r.accumDtype.shortName ++
        strBytes r.outputDtype.shortName)) ++
      (strBytes r.arch.shortName ++ ([boolToU8 r.persistent] ++
      (strBytes r.epilogue.kind.shortName ++
        (u32 r.epilogue.alpha ++ u32 r.epilogue.beta))))))))))) := by
  simp only [gemmHasher, Hasher.addU8_a, Hasher.addU32_a, Hasher.addStr_a, List.append_assoc]
  rfl

/-- A GEMM request can be read off its stream. -/
theorem gemm_injective {r r' : GemmRequest} (h : (gemmHasher r).a = (gemmHasher r').a) :
    r = r' := by
  rw [gemmHasher_a, gemmHasher_a] at h
  replace h := List.append_cancel_left h
  obtain ⟨hm, h⟩ := decodes_u32.read h
  obtain ⟨hn, h⟩ := decodes_u32.read h
  obtain ⟨hk, h⟩ := decodes_u32.read h
  obtain ⟨hA, h⟩ := decodes_gemmLayout.read h
  obtain ⟨hB, h⟩ := decodes_gemmLayout.read h
  obtain ⟨hC, h⟩ := decodes_gemmLayout.read h
  obtain ⟨hdtypes, h⟩ := decodes_dtypes.read (a := (r.dtype, r.accumDtype, r.outputDtype))
    (b := (r'.dtype, r'.accumDtype, r'.outputDtype)) h
  obtain ⟨harch, h⟩ := decodes_arch _ _ _ _ (head_persistent _ _) (head_persistent _ _) h
  obtain ⟨hpersistent, h⟩ := decodes_persistent.read h
  -- eight bytes follow the name of the epilogue
  obtain ⟨hkind, h⟩ := decodes_of_rest_length epilogue_injective 8 _ _ _ _
    (by simp [u32_length]) (by simp [u32_length]) h
  obtain ⟨halpha, h⟩ := decodes_u32.read h
  obtain ⟨hbeta, -⟩ := decodes_u32.read (s := []) (t := []) (by simpa using h)
  have hepilogue := GemmEpilogue.eq_of_parts hkind halpha hbeta
  obtain ⟨dtype, ⟨m, n, k⟩, lA, lB, lC, e, accum, out, arch, persistent⟩ := r
  obtain ⟨dtype', ⟨m', n', k'⟩, lA', lB', lC', e', accum', out', arch', persistent'⟩ := r'
  simp_all

theorem groupedHasher_a (r : GroupedGemmRequest) : (groupedHasher r).a =
    Hasher.new.a ++ (u32 r.shape.summary.1 ++ (u32 r.shape.summary.2.1 ++
      (u32 r.shape.summary.2.2.1 ++ (u32 (UInt32.ofNat r.shape.groupCount) ++
      ([r.layoutA.toU8] ++ ([r.layoutB.toU8] ++ ([r.layoutC.toU8] ++
      (strBytes r.groupedLayout.shortName ++
      (strBytes r.dtype.shortName ++ (strBytes r.accumDtype.shortName ++
        (strBytes r.outputDtype.shortName ++
      (strBytes r.arch.shortName ++ ([boolToU8 r.persistent] ++
      strBytes r.epilogue.kind.shortName))))))))))))) := by
  simp only [groupedHasher, Hasher.addU8_a, Hasher.addU32_a, Hasher.addStr_a, List.append_assoc]
  rfl

/-- What the source of a grouped GEMM is rendered from. -/
structure SameTemplate (r r' : GroupedGemmRequest) : Prop where
  dtype : r.dtype = r'.dtype
  count : r.shape.groupCount = r'.shape.groupCount
  layoutA : r.layoutA = r'.layoutA
  layoutB : r.layoutB = r'.layoutB
  layoutC : r.layoutC = r'.layoutC
  groupedLayout : r.groupedLayout = r'.groupedLayout
  accumDtype : r.accumDtype = r'.accumDtype
  outputDtype : r.outputDtype = r'.outputDtype
  arch : r.arch = r'.arch

/-- It can be read off the stream, the number of groups as long as it fits. -/
theorem grouped_determines {r r' : GroupedGemmRequest} (hr : r.shape.groupCount < 2 ^ 32)
    (hr' : r'.shape.groupCount < 2 ^ 32) (h : (groupedHasher r).a = (groupedHasher r').a) :
    SameTemplate r r' := by
  rw [groupedHasher_a, groupedHasher_a] at h
  replace h := List.append_cancel_left h
  obtain ⟨-, h⟩ := decodes_u32.read h
  obtain ⟨-, h⟩ := decodes_u32.read h
  obtain ⟨-, h⟩ := decodes_u32.read h
  obtain ⟨hcount, h⟩ := decodes_u32.read h
  obtain ⟨hA, h⟩ := decodes_gemmLayout.read h
  obtain ⟨hB, h⟩ := decodes_gemmLayout.read h
  obtain ⟨hC, h⟩ := decodes_gemmLayout.read h
  obtain ⟨hgrouped, h⟩ := decodes_groupedLayout _ _ _ _ (head_dtype _ _) (head_dtype _ _) h
  obtain ⟨hdtype, h⟩ := decodes_dtype.read h
  obtain ⟨haccum, h⟩ := decodes_dtype.read h
  obtain ⟨hout, h⟩ := decodes_dtype.read h
  obtain ⟨harch, -⟩ := decodes_arch _ _ _ _ (head_persistent _ _) (head_persistent _ _) h
  refine ⟨hdtype, ?_, hA, hB, hC, hgrouped, haccum, hout, harch⟩
  have hmod := congrArg UInt32.toNat hcount
  rwa [UInt32.toNat_ofNat_of_lt' hr, UInt32.toNat_ofNat_of_lt' hr'] at hmod

theorem convHasher_a (r : ConvRequest) : (convHasher r).a =
    Hasher.new.a ++ (strBytes r.kind.shortName ++ (r.shape.fields.flatMap u32 ++
      (strBytes r.layout.shortName ++
      (strBytes r.dtype.shortName ++ (strBytes r.accumDtype.shortName ++
        (strBytes r.outputDtype.shortName ++ (strBytes r.arch.shortName ++ []))))))) := by
  simp only [convHasher, ConvShape.fields, Hasher.addU32_a, Hasher.addStr_a, List.append_assoc,
    List.flatMap_cons, List.flatMap_nil, List.append_nil]

/-- A convolution can be read off its stream; nothing follows the architecture. -/
theorem conv_injective {r r' : ConvRequest} (h : (convHasher r).a = (convHasher r').a) :
    r = r' := by
  rw [convHasher_a, convHasher_a] at h
  replace h := List.append_cancel_left h
  obtain ⟨hkind, h⟩ := decodes_convKind.read h
  have hlen : r.shape.fields.length = r'.shape.fields.length := rfl
  obtain ⟨hshape, h⟩ := decodes_u32.flatMap_inj hlen h
  obtain ⟨hlayout, h⟩ := decodes_convLayout.read h
  obtain ⟨hdtype, h⟩ := decodes_dtype.read h
  obtain ⟨haccum, h⟩ := decodes_dtype.read h
  obtain ⟨hout, h⟩ := decodes_dtype.read h
  obtain ⟨harch, -⟩ := decodes_arch _ _ _ _ (by simp) (by simp) h
  replace hshape := ConvShape.fields_injective hshape
  cases r
  cases r'
  simp_all

end PlanKey

/-! ### Keys and sources -/

section Sound

variable {sipHash : List UInt8 → UInt64}

/-- The source of a grouped GEMM does not depend on its shapes, its epilogue or `persistent`, other
than through the key. -/
theorem renderGroupedGemm_congr {r r' : GroupedGemmRequest} (h : PlanKey.SameTemplate r r')
    (hlanes : PlanKey.groupedHasher r = PlanKey.groupedHasher r') :
    renderGroupedGemm sipHash r = renderGroupedGemm sipHash r' := by
  have hkey : PlanKey.groupedGemm sipHash r = PlanKey.groupedGemm sipHash r' := by
    rw [PlanKey.groupedGemm, hlanes, ← PlanKey.groupedGemm]
  unfold renderGroupedGemm
  rw [hkey, h.dtype, h.count, h.layoutA, h.layoutB, h.layoutC, h.groupedLayout, h.accumDtype,
    h.outputDtype, h.arch]

namespace Request

/-- The number of groups fits in a `u32`. -/
def Sized : Request → Prop
  | grouped r => r.shape.groupCount < 2 ^ 32
  | gemm _ | conv _ => True

/-- Streams determine sources. -/
theorem renderCu_eq_of_lanes {r r' : Request} (hr : r.Sized) (hr' : r'.Sized)
    (hid : r.templateId = r'.templateId) (hlanes : r.lanes = r'.lanes) :
    r.renderCu sipHash = r'.renderCu sipHash := by
  cases r with
  | gemm r =>
    cases r' with
    | gemm r' =>
      obtain rfl := PlanKey.gemm_injective (congrArg Hasher.a hlanes)
      rfl
    | grouped r' => exact absurd (show (1 : UInt8) = 2 from hid) (by decide)
    | conv r' => exact absurd (show (1 : UInt8) = 3 from hid) (by decide)
  | grouped r =>
    cases r' with
    | gemm r' => exact absurd (show (2 : UInt8) = 1 from hid) (by decide)
    | grouped r' =>
      have hsame := PlanKey.grouped_determines hr hr' (congrArg Hasher.a hlanes)
      exact renderGroupedGemm_congr hsame hlanes
    | conv r' => exact absurd (show (2 : UInt8) = 3 from hid) (by decide)
  | conv r =>
    cases r' with
    | gemm r' => exact absurd (show (3 : UInt8) = 1 from hid) (by decide)
    | grouped r' => exact absurd (show (3 : UInt8) = 2 from hid) (by decide)
    | conv r' =>
      obtain rfl := PlanKey.conv_injective (congrArg Hasher.a hlanes)
      rfl

/-- The boxed dispatch of a request. -/
def dispatch (sipHash : List UInt8 → UInt64) (r : Request) : Dispatch :=
  ⟨r.planKey sipHash, (r.renderCu sipHash).1, (r.renderCu sipHash).2⟩

end Request

/-- Every cached plan is that of one of the requests, under its key. -/
def CachesPlansOf (sipHash : List UInt8 → UInt64) (requests : List Request) (s : State) : Prop :=
  ∀ e ∈ s.actor.planCache.entries, ∃ r ∈ requests, e.1 = r.planKey sipHash ∧
    (e.2.source, e.2.kernelName) = r.renderCu sipHash

/-- The message, if it carries a dispatch, is that of one of the requests. -/
def SentBy (sipHash : List UInt8 → UInt64) (requests : List Request) (l : Label) : Prop :=
  ∀ d, l.msg.dispatch? = some d → ∃ r ∈ requests, d = r.dispatch sipHash

theorem CachesPlansOf.next {requests : List Request} {s s' : State} {l : Label}
    (h : CachesPlansOf sipHash requests s) (hl : SentBy sipHash requests l)
    (hstep : step s l = some s') : CachesPlansOf sipHash requests s' := by
  intro e he
  obtain ⟨-, -, hentries, -, -⟩ | ⟨d, hd, -, hcache, -, -⟩ := step_cases hstep
  · exact h e (hentries e he)
  · rw [hcache] at he
    obtain rfl | hold := Lru.mem_entries_put he
    · obtain ⟨r, hr, rfl⟩ := hl d hd
      exact ⟨r, hr, rfl, rfl⟩
    · exact h e hold

/-- A plan found for a request is its own, in every state of the run. -/
def HitsOwnSource (sipHash : List UInt8 → UInt64) (requests : List Request) (s : State) : Prop :=
  ∀ r ∈ requests, ∀ plan cache, s.actor.planCache.get? (r.planKey sipHash) = some (plan, cache) →
    (plan.source, plan.kernelName) = r.renderCu sipHash

/-- **Requests of one template with the same streams have the same source and kernel name; and in
every run in which no two requests with different streams have the same key, a plan found in the
cache for a request is the one rendered from it.** -/
theorem planKey_sound (sipHash : List UInt8 → UInt64) :
    (∀ r r' : Request, r.Sized → r'.Sized → r.templateId = r'.templateId →
      r.lanes = r'.lanes → r.renderCu sipHash = r'.renderCu sipHash) ∧
    ∀ (capacity : ℕ) (sink : Bool) (requests : List Request) (labels : List Label),
      (∀ r ∈ requests, r.Sized) →
      (∀ r ∈ requests, ∀ r' ∈ requests, r.planKey sipHash = r'.planKey sipHash →
        r.lanes = r'.lanes) →
      (∀ l ∈ labels, SentBy sipHash requests l) →
      (system capacity sink).Along (HitsOwnSource sipHash requests) (system capacity sink).init
        labels := by
  refine ⟨fun r r' => Request.renderCu_eq_of_lanes, ?_⟩
  intro capacity sink requests labels hsized hcollide hsent
  have hinit : CachesPlansOf sipHash requests (system capacity sink).init :=
    fun e he => absurd he List.not_mem_nil
  refine System.along_of_meets (I := CachesPlansOf sipHash requests)
    (C := fun _ => SentBy sipHash requests) ?_ (fun s l s' hs hl hstep => hs.next hl hstep) hinit
    (System.meets_of_forall hsent)
  intro s hs r hr plan cache hget
  obtain ⟨r', hr', hkey, hplan⟩ := hs _ (Lru.mem_of_get? hget)
  have hid : r.templateId = r'.templateId := by
    have hids := congrArg PlanKey.templateId hkey
    rwa [Request.planKey_eq, Request.planKey_eq] at hids
  exact hplan.trans (Request.renderCu_eq_of_lanes (hsized r hr) (hsized r' hr') hid
    (hcollide r hr r' hr' hkey)).symm

end Sound

/-- A grouped GEMM with one group, scaled by `alpha`. -/
def oneGroup (alpha : UInt32) : Request :=
  .grouped ⟨.f16, ⟨[⟨64, 64, 64⟩]⟩, .rowMajor, .rowMajor, .rowMajor, .uniform, .linear alpha 0, .f32,
    .f16, .sm90a, true⟩

/-- The scalars of an epilogue do not enter the key of a grouped GEMM, nor its source. -/
theorem planKey_sound_oneGroup :
    let sipHash : List UInt8 → UInt64 := fun bytes =>
      bytes.foldl (fun h b => h * 31 + b.toUInt64) 0xA5A5
    (oneGroup 0x3f800000).renderCu sipHash = (oneGroup 0x40000000).renderCu sipHash ∧
    (system 4 false).Along (HitsOwnSource sipHash [oneGroup 0x3f800000, oneGroup 0x40000000])
      (system 4 false).init
      [⟨.groupedGemm ((oneGroup 0x3f800000).dispatch sipHash), .ok ()⟩,
       ⟨.groupedGemm ((oneGroup 0x40000000).dispatch sipHash), .ok ()⟩] := by
  intro sipHash
  have hsized : ∀ alpha, (oneGroup alpha).Sized := fun _ => Nat.one_lt_two_pow (by decide)
  have hlanes : ∀ alpha beta, (oneGroup alpha).lanes = (oneGroup beta).lanes := fun _ _ => rfl
  refine ⟨(planKey_sound sipHash).1 _ _ (hsized _) (hsized _) rfl (hlanes _ _), ?_⟩
  refine (planKey_sound sipHash).2 4 false _ _ ?_ ?_ ?_
  · simp [hsized]
  · intro r hr r' hr' _
    simp only [List.mem_cons, List.not_mem_nil, or_false] at hr hr'
    rcases hr with rfl | rfl <;> rcases hr' with rfl | rfl <;> exact hlanes _ _
  · intro l hl d hd
    simp only [List.mem_cons, List.not_mem_nil, or_false] at hl
    rcases hl with rfl | rfl
    · exact ⟨_, List.mem_cons_self, (Option.some.inj hd).symm⟩
    · exact ⟨_, List.mem_cons_of_mem _ List.mem_cons_self, (Option.some.inj hd).symm⟩

end Cutlass

end AtomrAccel
