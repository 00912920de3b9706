import Mathlib.Tactic

/-!
# Tensor-map descriptors

The host-side builder of the tiled tensor map: `validate` compares the lengths of four vectors and
looks at the address and at the sizes, and `encode` hands the address and raw pointers to the
driver, which reads `rank` entries behind three of them and `rank − 1` strides.

* `TensorMapDescriptor`, `validate`, `encode`: the code, with the driver's call as a parameter;
* `Names`, `validate_error`: what an error says about the descriptor;
* `OtherRules`, `Documented`: the documented rules, without and with the one about strides;
* `Exact`, `descriptor_exact_iff`: `validate` accepts the documented descriptors and no others, and
  the driver never reads past the strides, unless a descriptor of rank two or more has none at all.
-/

namespace AtomrAccel

namespace Tma

/-- The element types of a tensor map. -/
inductive TensorMapDataType
  | uint8
  | uint16
  | uint32
  | int32
  | uint64
  | int64
  | float16
  | float32
  | float64
  | bfloat16
  | float32Ftz
  | tfloat32
  | tfloat32Ftz
  | float8E4m3
  | float8E5m2
  | float4E2m1
  | float6E2m3
  | float6E3m2
  deriving DecidableEq, Repr

def TensorMapDataType.asU32 : TensorMapDataType → UInt32
  | uint8 => 0
  | uint16 => 1
  | uint32 => 2
  | int32 => 3
  | uint64 => 4
  | int64 => 5
  | float16 => 6
  | float32 => 7
  | float64 => 8
  | bfloat16 => 9
  | float32Ftz => 10
  | tfloat32 => 11
  | tfloat32Ftz => 12
  | float8E4m3 => 13
  | float8E5m2 => 14
  | float4E2m1 => 15
  | float6E2m3 => 16
  | float6E3m2 => 17

/-- The interleaving of a tensor map. -/
inductive TensorMapInterleave
  | none
  | bytes16
  | bytes32
  deriving DecidableEq, Repr

def TensorMapInterleave.asU32 : TensorMapInterleave → UInt32
  | none => 0
  | bytes16 => 1
  | bytes32 => 2

/-- The swizzling of a tensor map. -/
inductive TensorMapSwizzle
  | none
  | bytes32
  | bytes64
  | bytes128
  deriving DecidableEq, Repr

def TensorMapSwizzle.asU32 : TensorMapSwizzle → UInt32
  | none => 0
  | bytes32 => 1
  | bytes64 => 2
  | bytes128 => 3

/-- How much is fetched into the second-level cache. -/
inductive TensorMapL2Promotion
  | none
  | bytes64
  | bytes128
  | bytes256
  deriving DecidableEq, Repr

def TensorMapL2Promotion.asU32 : TensorMapL2Promotion → UInt32
  | none => 0
  | bytes64 => 1
  | bytes128 => 2
  | bytes256 => 3

/-- What is read out of bounds. -/
inductive TensorMapOobFill
  | naZero
  | nanRequest
  deriving DecidableEq, Repr

def TensorMapOobFill.asU32 : TensorMapOobFill → UInt32
  | naZero => 0
  | nanRequest => 1

/-- A description of a tensor map. -/
structure TensorMapDescriptor where
  dataType : TensorMapDataType
  globalAddress : UInt64
  globalDim : List UInt64
  globalStrides : List UInt64
  boxDim : List UInt32
  elementStrides : List UInt32
  interleave : TensorMapInterleave
  swizzle : TensorMapSwizzle
  l2Promotion : TensorMapL2Promotion
  oobFill : TensorMapOobFill
  deriving DecidableEq, Repr

/-- Why a description is refused. -/
inductive TmaEncodeError
  | badRank (r : ℕ)
  | mismatch (what : String) (expected got : ℕ)
  | unalignedAddress (a : UInt64)
  | zeroDim (field : String)
  /-- the driver returned a non-zero `CUresult` -/
  | driverError (c : Int32)
  deriving DecidableEq, Repr

/-- The arguments of `cuTensorMapEncodeTiled` after the map it fills in; a pointer into a vector is
the vector, of which the driver reads as many entries as the rank tells it to. -/
structure EncodeTiled where
  dataType : UInt32
  rank : UInt32
  globalAddress : UInt64
  globalDim : List UInt64
  globalStrides : List UInt64
  boxDim : List UInt32
  elementStrides : List UInt32
  interleave : UInt32
  swizzle : UInt32
  l2Promotion : UInt32
  oobFill : UInt32
  deriving DecidableEq, Repr

/-- The driver reads a stride for every dimension but the innermost. -/
def EncodeTiled.ReadsWithin (c : EncodeTiled) : Prop := c.rank.toNat - 1 ≤ c.globalStrides.length

instance (c : EncodeTiled) : Decidable c.ReadsWithin := inferInstanceAs (Decidable (_ ≤ _))

namespace TensorMapDescriptor

/-- A description without dimensions. -/
def new (dataType : TensorMapDataType) (globalAddress : UInt64) : TensorMapDescriptor where
  dataType := dataType
  globalAddress := globalAddress
  globalDim := []
  globalStrides := []
  boxDim := []
  elementStrides := []
  interleave := .none
  swizzle := .none
  l2Promotion := .none
  oobFill := .naZero

variable (d : TensorMapDescriptor)

/-- The number of dimensions. -/
def rank : ℕ := d.globalDim.length

/-- The checks before the driver is called. -/
def validate : Except TmaEncodeError Unit :=
  let r := d.rank
  if r = 0 ∨ 5 < r then .error (.badRank r)
  else if d.boxDim.length ≠ r then .error (.mismatch "box_dim" r d.boxDim.length)
  else if d.elementStrides.length ≠ r then
    .error (.mismatch "element_strides" r d.elementStrides.length)
  -- an empty vector passes whatever the rank
  else if d.globalStrides ≠ [] ∧ d.globalStrides.length ≠ r - 1 then
    .error (.mismatch "global_strides" (r - 1) d.globalStrides.length)
  else if d.globalAddress % 16 ≠ 0 then .error (.unalignedAddress d.globalAddress)
  else if 0 ∈ d.globalDim then .error (.zeroDim "global_dim")
  else if 0 ∈ d.boxDim then .error (.zeroDim "box_dim")
  else .ok ()

/-- What the driver is called with. -/
def encodeTiled : EncodeTiled where
  dataType := d.dataType.asU32
  rank := UInt32.ofNat d.rank
  globalAddress := d.globalAddress
  globalDim := d.globalDim
  globalStrides := d.globalStrides
  boxDim := d.boxDim
  elementStrides := d.elementStrides
  interleave := d.interleave.asU32
  swizzle := d.swizzle.asU32
  l2Promotion := d.l2Promotion.asU32
  oobFill := d.oobFill.asU32

/-- The calls the driver gets, and the answer; the driver fills in a zeroed map. -/
def encode {TensorMap : Type*} (zeroed : TensorMap)
    (cuTensorMapEncodeTiled : TensorMap → EncodeTiled → Int32 × TensorMap) :
    List EncodeTiled × Except TmaEncodeError TensorMap :=
  match d.validate with
  | .error e => ([], .error e)
  | .ok () =>
    let (res, tm) := cuTensorMapEncodeTiled zeroed d.encodeTiled
    ([d.encodeTiled], if res ≠ 0 then .error (.driverError res) else .ok tm)

/-- What an error of `validate` says about the descriptor. -/
def Names : TmaEncodeError → Prop
  | .badRank r => r = d.rank ∧ ¬(1 ≤ r ∧ r ≤ 5)
  | .mismatch what expected got => expected ≠ got ∧
    ((what, expected, got) = ("box_dim", d.rank, d.boxDim.length) ∨
      (what, expected, got) = ("element_strides", d.rank, d.elementStrides.length) ∨
      (what, expected, got) = ("global_strides", d.rank - 1, d.globalStrides.length))
  | .unalignedAddress a => a = d.globalAddress ∧ a % 16 ≠ 0
  | .zeroDim field => (field = "global_dim" ∧ 0 ∈ d.globalDim) ∨ (field = "box_dim" ∧ 0 ∈ d.boxDim)
  | .driverError _ => False

/-- The documented rules but for the one about strides. -/
structure OtherRules : Prop where
  rank : 1 ≤ d.rank ∧ d.rank ≤ 5
  boxDim : d.boxDim.length = d.rank
  elementStrides : d.elementStrides.length = d.rank
  aligned : d.globalAddress % 16 = 0
  globalDim_ne : 0 ∉ d.globalDim
  boxDim_ne : 0 ∉ d.boxDim

/-- The documented rules. -/
structure Documented : Prop extends OtherRules d where
  strides : d.globalStrides.length = d.rank - 1

/-- `validate` decides the documented rules, and no driver reads past the strides. -/
def Exact : Prop :=
  (d.validate = .ok () ↔ d.Documented) ∧
    ∀ (TensorMap : Type) (zeroed : TensorMap)
      (driver : TensorMap → EncodeTiled → Int32 × TensorMap),
      ∀ c ∈ (d.encode zeroed driver).1, c.ReadsWithin

variable {d}

theorem validate_error {e : TmaEncodeError} (h : d.validate = .error e) : d.Names e := by
  simp only [validate] at h
  split_ifs at h with hr hb hs hg ha hd hx <;> obtain rfl := Except.error.inj h
  · exact ⟨rfl, by omega⟩
  · exact ⟨Ne.symm hb, .inl rfl⟩
  · exact ⟨Ne.symm hs, .inr (.inl rfl)⟩
  · exact ⟨Ne.symm hg.2, .inr (.inr rfl)⟩
  · exact ⟨rfl, ha⟩
  · exact .inl ⟨rfl, hd⟩
  · exact .inr ⟨rfl, hx⟩

/-- What `validate` asks of the strides is that there are none, or the right number. -/
theorem validate_eq_ok_iff : d.validate = .ok () ↔
    d.OtherRules ∧ (d.globalStrides = [] ∨ d.globalStrides.length = d.rank - 1) := by
  constructor
  · intro h
    simp only [validate] at h
    split_ifs at h with hr hb hs hg ha hd hx
    exact ⟨⟨by omega, not_not.1 hb, not_not.1 hs, not_not.1 ha, hd, hx⟩, by tauto⟩
  · rintro ⟨h, hg⟩
    have hr : ¬(d.rank = 0 ∨ 5 < d.rank) := by have := h.rank; omega
    have hs : ¬(d.globalStrides ≠ [] ∧ d.globalStrides.length ≠ d.rank - 1) := by tauto
    simp only [validate, if_neg hr, if_neg (not_not.2 h.boxDim), if_neg hs,
      if_neg (not_not.2 h.elementStrides), if_neg (not_not.2 h.aligned), if_neg h.globalDim_ne,
      if_neg h.boxDim_ne]

theorem documented_iff :
    d.Documented ↔ d.OtherRules ∧ d.globalStrides.length = d.rank - 1 :=
  ⟨fun h => ⟨h.toOtherRules, h.strides⟩, fun h => ⟨h.1, h.2⟩⟩

/-- The driver is called once when the descriptor is accepted, and not at all otherwise. -/
theorem mem_encode {TensorMap : Type*} {zeroed : TensorMap}
    {driver : TensorMap → EncodeTiled → Int32 × TensorMap} {c : EncodeTiled} :
    c ∈ (d.encode zeroed driver).1 ↔ d.validate = .ok () ∧ c = d.encodeTiled := by
  unfold encode
  cases d.validate with
  | error e => simp
  | ok u => simp

/-- The rank the driver gets is the descriptor's. -/
theorem encodeTiled_readsWithin (h : d.OtherRules) :
    d.encodeTiled.ReadsWithin ↔ d.rank - 1 ≤ d.globalStrides.length := by
  have hr : (UInt32.ofNat d.rank).toNat = d.rank := by
    rw [UInt32.toNat_ofNat', Nat.mod_eq_of_lt]
    have := h.rank.2
    omega
  show (UInt32.ofNat d.rank).toNat - 1 ≤ _ ↔ _
  rw [hr]
  rfl

/-- A descriptor is treated as documented unless its strides are missing altogether. -/
theorem descriptor_exact_iff (d : TensorMapDescriptor) :
    d.Exact ↔ ¬(d.globalStrides = [] ∧ 2 ≤ d.rank ∧ d.OtherRules) := by
  constructor
  · rintro ⟨hv, -⟩ ⟨hs, hr, ho⟩
    have h := (hv.1 (validate_eq_ok_iff.2 ⟨ho, .inl hs⟩)).strides
    rw [hs, List.length_nil] at h
    omega
  · intro h
    have hlen : d.OtherRules → d.globalStrides = [] → d.globalStrides.length = d.rank - 1 := by
      intro ho hs
      have hr : ¬2 ≤ d.rank := fun hr => h ⟨hs, hr, ho⟩
      rw [hs, List.length_nil]
      omega
    have hv : d.validate = .ok () ↔ d.Documented := by
      rw [validate_eq_ok_iff, documented_iff]
      exact ⟨fun ⟨ho, hs⟩ => ⟨ho, hs.elim (hlen ho) id⟩, fun ⟨ho, hs⟩ => ⟨ho, .inr hs⟩⟩
    refine ⟨hv, fun TensorMap zeroed driver c hc => ?_⟩
    obtain ⟨hok, rfl⟩ := mem_encode.1 hc
    have hd := hv.1 hok
    exact (encodeTiled_readsWithin hd.toOtherRules).2 hd.strides.ge

/-- A matrix of halves in tiles, with its row stride left out. -/
def unstrided : TensorMapDescriptor :=
  { new .float16 0x10000 with
    globalDim := [1024, 1024]
    boxDim := [64, 64]
    elementStrides := [1, 1] }

/-- The matrix is accepted, and the driver told to read a stride that is not there. -/
theorem unstrided_not_exact :
    ¬(∀ d : TensorMapDescriptor, d.Exact) ∧
      unstrided.validate = .ok () ∧ ¬unstrided.Documented ∧
      (∀ (driver : Unit → EncodeTiled → Int32 × Unit),
        (unstrided.encode () driver).1 = [unstrided.encodeTiled]) ∧
      unstrided.encodeTiled.rank = 2 ∧ unstrided.encodeTiled.globalStrides = [] ∧
      ¬unstrided.encodeTiled.ReadsWithin := by
  have hv : unstrided.validate = .ok () := by decide
  have hd : ¬unstrided.Documented := fun h => absurd h.strides (by decide)
  refine ⟨fun h => hd ((h unstrided).1.1 hv), hv, hd, fun driver => ?_, by decide, rfl, by decide⟩
  simp [encode, hv]

end TensorMapDescriptor

end Tma

end AtomrAccel
