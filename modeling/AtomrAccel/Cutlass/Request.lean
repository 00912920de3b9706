import Mathlib.Data.UInt
import Mathlib.Tactic

/-!
# CUTLASS requests

The element types, architectures and requests of `CutlassActor`, with the names under which they
enter plan keys and sources.

* `CutlassDtype`, `SmArch`, `GemmLayout`, `GemmEpilogue`, `GroupedLayout`, `ConvLayout`, `ConvKind`;
* `GemmRequest`, `GroupedGemmRequest`, `ConvRequest`, `Request`.
-/

namespace AtomrAccel

namespace Cutlass

/-- The element types of operands. -/
inductive CutlassDtype
  | f32 | f64
  | f16 | bf16
  | f8e4m3 | f8e5m2 | f4e2m1
  | i8 | i32 | u8
  deriving DecidableEq, Repr

namespace CutlassDtype

def asCutlassType : CutlassDtype → String
  | f32 => "float"
  | f64 => "double"
  | f16 => "cutlass::half_t"
  | bf16 => "cutlass::bfloat16_t"
  | f8e4m3 => "cutlass::float_e4m3_t"
  | f8e5m2 => "cutlass::float_e5m2_t"
  | f4e2m1 => "cutlass::float_e2m1_t"
  | i8 => "int8_t"
  | i32 => "int32_t"
  | u8 => "uint8_t"

/-- Also what `Display` writes. -/
def shortName : CutlassDtype → String
  | f32 => "f32"
  | f64 => "f64"
  | f16 => "f16"
  | bf16 => "bf16"
  | f8e4m3 => "f8e4m3"
  | f8e5m2 => "f8e5m2"
  | f4e2m1 => "f4e2m1"
  | i8 => "i8"
  | i32 => "i32"
  | u8 => "u8"

end CutlassDtype

/-- The architectures. -/
inductive SmArch
  | sm80 | sm86 | sm89
  | sm90 | sm90a
  | sm100 | sm120
  deriving DecidableEq, Repr

namespace SmArch

/-- Also what `Display` writes. -/
def shortName : SmArch → String
  | sm80 => "sm_80"
  | sm86 => "sm_86"
  | sm89 => "sm_89"
  | sm90 => "sm_90"
  | sm90a => "sm_90a"
  | sm100 => "sm_100"
  | sm120 => "sm_120"

/-- `sm_arch_num`. -/
def num : SmArch → ℕ
  | sm80 => 80
  | sm86 => 86
  | sm89 => 89
  | sm90 => 90
  | sm90a => 90
  | sm100 => 100
  | sm120 => 120

end SmArch

/-! ### GEMM -/

/-- The order of a matrix in memory. -/
inductive GemmLayout
  | rowMajor
  | colMajor
  deriving DecidableEq, Repr

namespace GemmLayout

def cutlassLayout : GemmLayout → String
  | rowMajor => "cutlass::layout::RowMajor"
  | colMajor => "cutlass::layout::ColumnMajor"

def shortName : GemmLayout → String
  | rowMajor => "rm"
  | colMajor => "cm"

/-- `as u8`. -/
def toU8 : GemmLayout → UInt8
  | rowMajor => 0
  | colMajor => 1

end GemmLayout

/-- The sizes of a product of matrices. -/
structure GemmShape where
  m : UInt32
  n : UInt32
  k : UInt32
  deriving DecidableEq, Repr

/-- The scalars are `f32`s, given by their bits. -/
inductive GemmEpilogue
  | linear (alpha beta : UInt32)
  | linearReLU (alpha beta : UInt32)
  | linearGelu (alpha beta : UInt32)
  deriving DecidableEq, Repr

namespace GemmEpilogue

/-- The activation of an epilogue. -/
inductive Kind
  | linear | linearReLU | linearGelu
  deriving DecidableEq, Repr

def kind : GemmEpilogue → Kind
  | linear _ _ => .linear
  | linearReLU _ _ => .linearReLU
  | linearGelu _ _ => .linearGelu

def alpha : GemmEpilogue → UInt32
  | linear a _ | linearReLU a _ | linearGelu a _ => a

def beta : GemmEpilogue → UInt32
  | linear _ b | linearReLU _ b | linearGelu _ b => b

def Kind.shortName : Kind → String
  | linear => "linear"
  | linearReLU => "linear_relu"
  | linearGelu => "linear_gelu"

def shortName (e : GemmEpilogue) : String := e.kind.shortName

/-- An epilogue is its activation and its scalars. -/
theorem eq_of_parts {e e' : GemmEpilogue} (hkind : e.kind = e'.kind) (halpha : e.alpha = e'.alpha)
    (hbeta : e.beta = e'.beta) : e = e' := by
  cases e <;> cases e' <;> cases hkind <;> cases halpha <;> cases hbeta <;> rfl

end GemmEpilogue

/-- `GemmRequest<T>`; `dtype` is `T::DTYPE`. -/
structure GemmRequest where
  dtype : CutlassDtype
  shape : GemmShape
  layoutA : GemmLayout
  layoutB : GemmLayout
  layoutC : GemmLayout
  epilogue : GemmEpilogue
  accumDtype : CutlassDtype
  outputDtype : CutlassDtype
  arch : SmArch
  persistent : Bool
  deriving DecidableEq, Repr

/-! ### Grouped GEMM -/

/-- How much the members of a group differ. -/
inductive GroupedLayout
  | uniform
  | variableM
  | varying
  deriving DecidableEq, Repr

/-- `varying` is the source's `Variable`. -/
def GroupedLayout.shortName : GroupedLayout → String
  | uniform => "uniform"
  | variableM => "var_m"
  | varying => "var"

/-- The sizes of the members of a group. -/
structure GroupedGemmShape where
  shapes : List GemmShape
  deriving DecidableEq, Repr

namespace GroupedGemmShape

/-- The number of products. -/
def groupCount (s : GroupedGemmShape) : ℕ := s.shapes.length

/-- `iter().max().unwrap_or(0)`. -/
def maxOf (s : GroupedGemmShape) (f : GemmShape → UInt32) : UInt32 :=
  (s.shapes.map f).foldl (fun a b => if a ≤ b then b else a) 0

/-- The largest sizes, and how many products there are. -/
def summary (s : GroupedGemmShape) : UInt32 × UInt32 × UInt32 × ℕ :=
  (s.maxOf GemmShape.m, s.maxOf GemmShape.n, s.maxOf GemmShape.k, s.groupCount)

end GroupedGemmShape

/-- A group of products of matrices. -/
structure GroupedGemmRequest where
  dtype : CutlassDtype
  shape : GroupedGemmShape
  layoutA : GemmLayout
  layoutB : GemmLayout
  layoutC : GemmLayout
  groupedLayout : GroupedLayout
  epilogue : GemmEpilogue
  accumDtype : CutlassDtype
  outputDtype : CutlassDtype
  arch : SmArch
  persistent : Bool
  deriving DecidableEq, Repr

/-! ### Convolution -/

/-- The order of the dimensions in memory. -/
inductive ConvLayout
  | nhwc
  | nchw
  deriving DecidableEq, Repr

def ConvLayout.shortName : ConvLayout → String
  | nhwc => "nhwc"
  | nchw => "nchw"

/-- The sizes of a convolution. -/
structure ConvShape where
  n : UInt32
  h : UInt32
  w : UInt32
  c : UInt32
  k : UInt32
  r : UInt32
  s : UInt32
  padH : UInt32
  padW : UInt32
  strideH : UInt32
  strideW : UInt32
  dilH : UInt32
  dilW : UInt32
  deriving DecidableEq, Repr

/-- The fields, in their order. -/
def ConvShape.fields (s : ConvShape) : List UInt32 :=
  [s.n, s.h, s.w, s.c, s.k, s.r, s.s, s.padH, s.padW, s.strideH, s.strideW, s.dilH, s.dilW]

theorem ConvShape.fields_injective : Function.Injective ConvShape.fields := by
  intro s s' h
  cases s
  cases s'
  simpa [fields] using h

/-- A convolution or one of its gradients. -/
inductive ConvKind
  | fprop | dgrad | wgrad
  deriving DecidableEq, Repr

namespace ConvKind

def shortName : ConvKind → String
  | fprop => "fprop"
  | dgrad => "dgrad"
  | wgrad => "wgrad"

def cutlassKernel : ConvKind → String
  | fprop => "cutlass::conv::device::ImplicitGemmConvolution"
  | dgrad => "cutlass::conv::device::ImplicitGemmConvolutionDgrad"
  | wgrad => "cutlass::conv::device::ImplicitGemmConvolutionWgrad"

end ConvKind

/-- The three convolution requests, told apart by their kind. -/
structure ConvRequest where
  kind : ConvKind
  dtype : CutlassDtype
  shape : ConvShape
  layout : ConvLayout
  accumDtype : CutlassDtype
  outputDtype : CutlassDtype
  arch : SmArch
  deriving DecidableEq, Repr

/-- The requests that have a plan. -/
inductive Request
  | gemm (r : GemmRequest)
  | grouped (r : GroupedGemmRequest)
  | conv (r : ConvRequest)
  deriving DecidableEq, Repr

end Cutlass

end AtomrAccel
