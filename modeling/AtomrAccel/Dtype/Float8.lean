import AtomrAccel.Lib.Overflow
import AtomrAccel.Lib.Rounding

/-!
# The 8-bit floats

`F8E4m3` and `F8E5m2` hold a byte, and are converted from and to the bits of an `f32`.

* `F32`: an `f32` by its bits, with the operations that the conversions use;
* `Layout`, `encode`, `decode`: what the two formats have in common, after and before their special
  cases;
* `F8E4m3.fromF32`, `F8E5m2.fromF32`, `F8E4m3.toF32`, `F8E5m2.toF32`: the conversions;
* `RoundsTo`: a code that is nearest to a number, and even where two are;
* `encode_of_normal`, `encode_of_subnormal`: what is computed, in terms of magnitudes;
* `Conversion`, `Conversion.rounds_iff`: what both conversions do, and which numbers they round;
* `fromF32_e4m3_rounds_iff`, `fromF32_e5m2_rounds_iff`: which numbers are rounded to nearest;
* `there_and_back`: what a number loses as a byte;
* `fromF32_toF32_iff`: which codes come back.
-/

namespace AtomrAccel

namespace Dtype

open Overflow Rounding

/-! ### `f32` -/

/-- A number of type `f32`, by its bits. -/
structure F32 where
  toBits : UInt32
  deriving DecidableEq, Repr

namespace F32

def nan : F32 := ⟨0x7fc00000⟩

/-- The sign bit is cleared. -/
def abs (x : F32) : F32 := ⟨x.toBits &&& 0x7fffffff⟩

/-- The sign bit. -/
def sign (x : F32) : ℕ := x.toBits.toNat / 2 ^ 31

/-- The other bits, in which magnitudes have the order of their values. -/
def absBits (x : F32) : ℕ := x.toBits.toNat % 2 ^ 31

/-- The exponent is all ones and the fraction is not zero. -/
def isNan (x : F32) : Bool := 0x7f800000 < x.absBits

/-- The place among the numbers, the two zeros at one place. -/
def order (x : F32) : ℤ := if x.sign = 1 then -x.absBits else x.absBits

/-- `<`, false of a NaN. -/
def lt (x y : F32) : Bool := !x.isNan && !y.isNan && x.order < y.order

/-- `==`, false of a NaN. -/
def eq (x y : F32) : Bool := !x.isNan && !y.isNan && x.order == y.order

/-- `f32::clamp`. -/
def clamp (x lo hi : F32) : F32 :=
  let x := if x.lt lo then lo else x
  if hi.lt x then hi else x

/-- The magnitude of a number; infinity has that of the number after the largest one. -/
def magnitude (x : F32) : ℚ := units 23 x.absBits / 2 ^ 149

end F32

/-! ### What the formats have in common -/

/-- The fraction and the exponents of a format, and the code of the numbers that are too large. -/
structure Layout where
  mantBits : ℕ
  bias : ℕ
  eMax : ℕ
  overflow : ℕ
  mantBits_pos : 1 ≤ mantBits
  bias_pos : 1 ≤ bias
  bias_le : bias ≤ 127
  overflow_lt : overflow < 128
  /-- with the sign they fill a byte -/
  fills : (eMax + 1) * 2 ^ mantBits = 128

/-- What the conversions do with a number other than zero. -/
def Layout.encode (l : Layout) (build : Build) (x : F32) : Option UInt8 :=
  let bits := x.toBits.toNat
  let sign := ((bits >>> 31) % 256) <<< 7
  let f32Exp : ℤ := ((bits >>> 23) &&& 0xff : ℕ) - 127
  let f32Mant := bits &&& 0x007fffff
  let e := f32Exp + l.bias
  let mask := 2 ^ l.mantBits - 1
  if e ≤ 0 then
    let shift := 24 - l.mantBits + (1 - e).toNat
    (shrU32 build (f32Mant ||| 0x00800000) shift).map fun m =>
      UInt8.ofNat (sign ||| (m % 256 &&& mask))
  else
    let mant := (f32Mant >>> (23 - l.mantBits)) % 256
    let roundBit := (f32Mant >>> (22 - l.mantBits)) &&& 1
    let sticky := f32Mant &&& (2 ^ (22 - l.mantBits) - 1)
    let e := e.toNat % 256
    let m := mant &&& mask
    let (e, m) :=
      if roundBit = 1 ∧ (sticky ≠ 0 ∨ m &&& 1 = 1) then
        let m := (m + 1) % 256
        if m = 2 ^ l.mantBits then ((e + 1) % 256, 0) else (e, m)
      else (e, m)
    some (UInt8.ofNat
      (if l.eMax ≤ e then sign ||| l.overflow else sign ||| (e <<< l.mantBits) ||| m))

/-- The leading zeros of a byte. -/
def leadingZeros (n : ℕ) : ℕ := if n = 0 then 8 else 7 - n.log2

/-- What the conversions back do with the parts of a finite number other than zero. -/
def Layout.decode (l : Layout) (sign exp mant : ℕ) : F32 :=
  let (e, m) : ℤ × ℕ :=
    if exp = 0 then
      let lz : ℤ := leadingZeros mant - (8 - l.mantBits : ℕ)
      (1 - l.bias - lz, (mant <<< (lz + 1).toNat) &&& (2 ^ l.mantBits - 1))
    else (exp - l.bias, mant)
  ⟨UInt32.ofNat
    ((sign <<< 31) ||| ((e + 127).toNat <<< 23) ||| (m <<< (23 - l.mantBits)))⟩

/-! ### The formats -/

/-- The numbers of `F8E4m3`. -/
def e4m3 : Layout :=
  ⟨3, 7, 0x0f, 0x7e, by decide, by decide, by decide, by decide, by decide⟩

/-- The numbers of `F8E5m2`. -/
def e5m2 : Layout :=
  ⟨2, 15, 0x1f, 0x7c, by decide, by decide, by decide, by decide, by decide⟩

/-- A byte with four bits of exponent and three of fraction. -/
structure F8E4m3 where
  toBits : UInt8
  deriving DecidableEq, Repr

namespace F8E4m3

def zero : F8E4m3 := ⟨0x00⟩
def one : F8E4m3 := ⟨0x38⟩
def nan : F8E4m3 := ⟨0x7f⟩

/-- `none` when the shift of a small number overflows, which only a build that checks notices. -/
def fromF32 (build : Build) (x : F32) : Option F8E4m3 :=
  if x.isNan then some nan
  else
    -- between -448 and 448
    let clamped := x.clamp ⟨0xc3e00000⟩ ⟨0x43e00000⟩
    if clamped.abs.eq ⟨0⟩ then some ⟨UInt8.ofNat (clamped.sign <<< 7)⟩
    else (e4m3.encode build clamped).map mk

def toF32 (c : F8E4m3) : F32 :=
  let sign := (c.toBits.toNat >>> 7) &&& 1
  let exp := (c.toBits.toNat >>> 3) &&& 0x0f
  let mant := c.toBits.toNat &&& 0x07
  if exp = 0 ∧ mant = 0 then
    if sign = 1 then ⟨0x80000000⟩ else ⟨0⟩
  else if exp = 0x0f ∧ mant = 0x07 then .nan
  else e4m3.decode sign exp mant

end F8E4m3

/-- A byte with five bits of exponent and two of fraction. -/
structure F8E5m2 where
  toBits : UInt8
  deriving DecidableEq, Repr

namespace F8E5m2

def zero : F8E5m2 := ⟨0x00⟩
def one : F8E5m2 := ⟨0x3c⟩
def nan : F8E5m2 := ⟨0x7e⟩
def infinity : F8E5m2 := ⟨0x7c⟩

def fromF32 (build : Build) (x : F32) : Option F8E5m2 :=
  if x.isNan then some nan
  else
    let sign := x.sign <<< 7
    let f32Exp : ℤ := ((x.toBits.toNat >>> 23) &&& 0xff : ℕ) - 127
    if x.eq ⟨0⟩ then some ⟨UInt8.ofNat sign⟩
    else if 0x1f ≤ f32Exp + 15 then some ⟨UInt8.ofNat (sign ||| 0x7c)⟩
    else (e5m2.encode build x).map mk

def toF32 (c : F8E5m2) : F32 :=
  let sign := (c.toBits.toNat >>> 7) &&& 1
  let exp := (c.toBits.toNat >>> 2) &&& 0x1f
  let mant := c.toBits.toNat &&& 0x03
  if exp = 0 ∧ mant = 0 then
    if sign = 1 then ⟨0x80000000⟩ else ⟨0⟩
  else if exp = 0x1f then
    if mant = 0 then if sign = 1 then ⟨0xff800000⟩ else ⟨0x7f800000⟩
    else .nan
  else e5m2.decode sign exp mant

end F8E5m2

/-! ### Codes and magnitudes -/

variable {l : Layout} {build : Build} {x : F32} {s k w d e m n top : ℕ}

/-- The unit of the last place where the exponent is smallest. -/
def Layout.scale (l : Layout) : ℚ := 1 / 2 ^ (l.bias + l.mantBits - 1)

/-- The magnitude with code `k`. -/
def Layout.magnitude (l : Layout) (k : ℕ) : ℚ := units l.mantBits k * l.scale

/-- The code has the sign of `x`, and of the magnitudes with codes up to `top` the nearest one. -/
structure RoundsTo (l : Layout) (top : ℕ) (x : F32) (c : UInt8) : Prop where
  sign : c.toNat / 2 ^ 7 = x.sign
  rounds : Rounds l.magnitude top x.magnitude (c.toNat % 2 ^ 7)

/-- The code of a sign and a magnitude. -/
def byte (s k : ℕ) : UInt8 := UInt8.ofNat (s * 2 ^ 7 + k)

theorem Layout.scale_pos (l : Layout) : 0 < l.scale := by
  unfold Layout.scale
  positivity

theorem Layout.mantBits_le (l : Layout) : l.mantBits ≤ 7 := by
  by_contra h
  have hpow : 2 ^ 8 ≤ 2 ^ l.mantBits := Nat.pow_le_pow_right two_pos (by omega)
  have := l.fills
  nlinarith

theorem F32.sign_le (x : F32) : x.sign ≤ 1 := by
  have := x.toBits.toNat_lt
  unfold F32.sign
  omega

theorem F32.shiftRight_eq_sign (x : F32) : x.toBits.toNat >>> 31 = x.sign :=
  Nat.shiftRight_eq_div_pow _ _

theorem F32.exponent_eq (x : F32) : (x.toBits.toNat >>> 23) &&& 0xff = x.absBits / 2 ^ 23 := by
  rw [Nat.shiftRight_eq_div_pow, show (0xff : ℕ) = 2 ^ 8 - 1 from rfl,
    Nat.and_two_pow_sub_one_eq_mod, F32.absBits]
  omega

theorem F32.fraction_eq (x : F32) : x.toBits.toNat &&& 0x007fffff = x.absBits % 2 ^ 23 := by
  rw [show (0x007fffff : ℕ) = 2 ^ 23 - 1 from rfl, Nat.and_two_pow_sub_one_eq_mod, F32.absBits]
  omega

theorem toNat_byte (hs : s ≤ 1) (hk : k < 2 ^ 7) : (byte s k).toNat = s * 2 ^ 7 + k := by
  rw [byte, UInt8.toNat_ofNat']
  omega

theorem roundsTo_byte (hk : k < 2 ^ 7) :
    RoundsTo l top x (byte x.sign k) ↔ Rounds l.magnitude top x.magnitude k := by
  have hbyte := toNat_byte x.sign_le hk
  have hdiv : (byte x.sign k).toNat / 2 ^ 7 = x.sign := by omega
  have hmod : (byte x.sign k).toNat % 2 ^ 7 = k := by omega
  exact ⟨fun h => hmod ▸ h.rounds, fun h => ⟨hdiv, hmod.symm ▸ h⟩⟩

/-- A magnitude compares with others as the bits do. -/
theorem F32.magnitude_le_iff : x.magnitude ≤ units 23 n / 2 ^ 149 ↔ x.absBits ≤ n := by
  rw [F32.magnitude, div_le_div_iff_of_pos_right (by positivity), Nat.cast_le,
    (units_strictMono 23).le_iff_le]

theorem F32.le_magnitude_iff : units 23 n / 2 ^ 149 ≤ x.magnitude ↔ n ≤ x.absBits := by
  rw [F32.magnitude, div_le_div_iff_of_pos_right (by positivity), Nat.cast_le,
    (units_strictMono 23).le_iff_le]

/-! ### Numbers with a leading one -/

theorem or_parts (hm : m < 2 ^ w) (hk : e * 2 ^ w + m < 2 ^ 7) :
    (s <<< 7) ||| (e <<< w) ||| m = s * 2 ^ 7 + (e * 2 ^ w + m) := by
  rw [Nat.or_assoc, ← Nat.shiftLeft_add_eq_or_of_lt hm, Nat.shiftLeft_eq e,
    ← Nat.shiftLeft_add_eq_or_of_lt hk, Nat.shiftLeft_eq]

/-- The exponent and the fraction together are the code of the magnitude. -/
theorem Layout.assemble (l : Layout) (hm : m < 2 ^ l.mantBits) :
    UInt8.ofNat (if l.eMax ≤ e then (s <<< 7) ||| l.overflow
        else (s <<< 7) ||| (e <<< l.mantBits) ||| m) =
      byte s (if l.eMax * 2 ^ l.mantBits ≤ e * 2 ^ l.mantBits + m then l.overflow
        else e * 2 ^ l.mantBits + m) := by
  rw [byte]
  congr 1
  by_cases he : l.eMax ≤ e
  · have hle := Nat.mul_le_mul_right (2 ^ l.mantBits) he
    rw [if_pos he, if_pos (by omega), ← Nat.shiftLeft_add_eq_or_of_lt l.overflow_lt,
      Nat.shiftLeft_eq]
  · have hle := Nat.mul_le_mul_right (2 ^ l.mantBits) (Nat.lt_of_not_le he)
    have hfills := l.fills
    rw [Nat.succ_mul] at hle
    rw [Nat.add_mul, one_mul] at hfills
    rw [if_neg he, if_neg (by omega), or_parts hm (by omega)]

/-- Rounding by a bit and whether any bit after it is set. -/
theorem roundHalfEven_parts (hw : 1 ≤ w) (hw' : w ≤ 22) (e M : ℕ) :
    roundHalfEven (23 - w) (e * 2 ^ 23 + M) = e * 2 ^ w + M / 2 ^ (23 - w) +
      if M / 2 ^ (22 - w) % 2 = 1 ∧
        (M % 2 ^ (22 - w) ≠ 0 ∨ M / 2 ^ (23 - w) % 2 = 1) then 1 else 0 := by
  have hd : 2 ^ (23 - w) = 2 * 2 ^ (22 - w) := by
    rw [← pow_succ']
    congr 1
    omega
  have h23 : e * 2 ^ 23 = e * 2 ^ w * 2 ^ (23 - w) := by
    rw [mul_assoc, ← pow_add]
    congr 2
    omega
  have heven : e * 2 ^ w % 2 = 0 := by
    obtain ⟨w, rfl⟩ := Nat.exists_eq_add_of_le' hw
    rw [pow_succ, ← mul_assoc, Nat.mul_mod_left]
  have hh := Nat.two_pow_pos (22 - w)
  rw [roundHalfEven, h23, Nat.add_comm (e * 2 ^ w * _), Nat.add_mul_div_right _ _ (by positivity),
    Nat.add_mul_mod_self_right, hd]
  generalize 2 ^ (22 - w) = h at hh ⊢
  generalize e * 2 ^ w = a at heven ⊢
  -- the bits that are cut off, and the first of them
  have hM := Nat.div_add_mod M (2 * h)
  have hr := Nat.mod_lt M (show 0 < 2 * h by omega)
  generalize M / (2 * h) = q at hM ⊢
  generalize M % (2 * h) = r at hM hr ⊢
  rcases Nat.lt_or_ge r h with hlt | hge
  · obtain ⟨hdiv, hmod⟩ : M / h = 2 * q ∧ M % h = r :=
      (Nat.div_mod_unique hh).2 ⟨by rw [← hM]; ring, hlt⟩
    rw [hdiv, hmod, if_neg (by omega), if_neg (by omega)]
    omega
  · obtain ⟨r', rfl⟩ := Nat.exists_eq_add_of_le hge
    obtain ⟨hdiv, hmod⟩ : M / h = 2 * q + 1 ∧ M % h = r' :=
      (Nat.div_mod_unique hh).2 ⟨by rw [← hM]; ring, by omega⟩
    have hiff : (2 * h < 2 * (h + r') ∨ 2 * (h + r') = 2 * h ∧ (q + a) % 2 = 1) ↔
        (2 * q + 1) % 2 = 1 ∧ (r' ≠ 0 ∨ q % 2 = 1) := by omega
    rw [hdiv, hmod, if_congr hiff rfl rfl]
    omega

theorem Layout.encode_of_normal (l : Layout) (build : Build)
    (hlow : 128 ≤ x.absBits / 2 ^ 23 + l.bias)
    (hhigh : x.absBits / 2 ^ 23 + l.bias ≤ 127 + l.eMax) :
    l.encode build x = some (byte x.sign
      (if l.eMax * 2 ^ l.mantBits ≤
          roundHalfEven (23 - l.mantBits) (x.absBits - (127 - l.bias) * 2 ^ 23) then l.overflow
        else roundHalfEven (23 - l.mantBits) (x.absBits - (127 - l.bias) * 2 ^ 23))) := by
  have hw := l.mantBits_le
  have hpow : 2 ^ l.mantBits ≤ 2 ^ 7 := Nat.pow_le_pow_right two_pos hw
  have heMax : l.eMax < 128 := by
    have := l.fills
    have := Nat.two_pow_pos l.mantBits
    nlinarith
  have hbias := l.bias_le
  have hsign := x.sign_le
  have hM := Nat.mod_lt x.absBits (Nat.two_pow_pos 23)
  have hsplit : x.absBits - (127 - l.bias) * 2 ^ 23 =
      (x.absBits / 2 ^ 23 + l.bias - 127) * 2 ^ 23 + x.absBits % 2 ^ 23 := by omega
  have hq : x.absBits % 2 ^ 23 / 2 ^ (23 - l.mantBits) < 2 ^ l.mantBits := by
    rw [Nat.div_lt_iff_lt_mul (Nat.two_pow_pos _), ← pow_add, Nat.add_sub_cancel' (by omega)]
    exact hM
  rw [hsplit, roundHalfEven_parts l.mantBits_pos (by omega)]
  unfold Layout.encode
  simp only [x.shiftRight_eq_sign, x.exponent_eq, x.fraction_eq]
  simp only [Nat.shiftRight_eq_div_pow, Nat.and_two_pow_sub_one_eq_mod, Nat.and_one_is_mod]
  generalize x.absBits / 2 ^ 23 = E at hlow hhigh ⊢
  generalize x.absBits % 2 ^ 23 = M at hM hq ⊢
  have he : ((E : ℤ) - 127 + l.bias).toNat % 256 = E + l.bias - 127 := by omega
  have hbyte : M / 2 ^ (23 - l.mantBits) % 256 = M / 2 ^ (23 - l.mantBits) :=
    Nat.mod_eq_of_lt (by omega)
  rw [if_neg (by omega), he, hbyte, Nat.mod_eq_of_lt hq, Nat.mod_eq_of_lt (a := x.sign) (by omega)]
  generalize E + l.bias - 127 = e at he ⊢
  generalize M / 2 ^ (23 - l.mantBits) = q at hq ⊢
  by_cases hup : M / 2 ^ (22 - l.mantBits) % 2 = 1 ∧
      (M % 2 ^ (22 - l.mantBits) ≠ 0 ∨ q % 2 = 1)
  · simp only [if_pos hup]
    rw [Nat.mod_eq_of_lt (a := q + 1) (by omega)]
    by_cases hcarry : q + 1 = 2 ^ l.mantBits
    · simp only [if_pos hcarry]
      rw [Nat.mod_eq_of_lt (a := e + 1) (by omega), l.assemble (Nat.two_pow_pos _),
        show (e + 1) * 2 ^ l.mantBits + 0 = e * 2 ^ l.mantBits + q + 1 by rw [Nat.succ_mul]; omega]
    · simp only [if_neg hcarry]
      rw [l.assemble (by omega), ← Nat.add_assoc]
  · simp only [if_neg hup]
    rw [l.assemble hq, Nat.add_zero]

theorem Layout.magnitude_of_normal (l : Layout) (hlow : 128 ≤ x.absBits / 2 ^ 23 + l.bias) :
    x.magnitude = (units (l.mantBits + (23 - l.mantBits))
      (x.absBits - (127 - l.bias) * 2 ^ 23) : ℚ) / 2 ^ (23 - l.mantBits) * l.scale := by
  have hw := l.mantBits_le
  have hbias := l.bias_le
  have hpos := l.bias_pos
  have hlarge : 2 ^ 23 ≤ x.absBits - (127 - l.bias) * 2 ^ 23 := by omega
  have hbits : x.absBits = x.absBits - (127 - l.bias) * 2 ^ 23 + (127 - l.bias) * 2 ^ 23 := by
    omega
  have hpow : (2 : ℚ) ^ 149 =
      2 ^ (127 - l.bias) * (2 ^ (23 - l.mantBits) * 2 ^ (l.bias + l.mantBits - 1)) := by
    rw [← pow_add, ← pow_add]
    congr 1
    omega
  rw [F32.magnitude, hbits, units_add_exponent hlarge, ← hbits,
    Nat.add_sub_cancel' (show l.mantBits ≤ 23 by omega), hpow, Layout.scale]
  push_cast
  field_simp

theorem Layout.two_mul_magnitude (l : Layout) (hm : m < 2 ^ l.mantBits) :
    2 * l.magnitude m = 2 * m * l.scale := by
  rw [Layout.magnitude, units_of_lt hm]
  ring

theorem Layout.le_cut (l : Layout) (hlow : 128 ≤ x.absBits / 2 ^ 23 + l.bias) :
    2 ^ l.mantBits ≤ (x.absBits - (127 - l.bias) * 2 ^ 23) / 2 ^ (23 - l.mantBits) := by
  have hw := l.mantBits_le
  have hbias := l.bias_le
  rw [Nat.le_div_iff_mul_le (Nat.two_pow_pos _), ← pow_add, Nat.add_sub_cancel' (by omega)]
  omega

theorem Layout.rounds_of_normal (l : Layout) (hlow : 128 ≤ x.absBits / 2 ^ 23 + l.bias)
    (htop : roundHalfEven (23 - l.mantBits) (x.absBits - (127 - l.bias) * 2 ^ 23) ≤ top) :
    Rounds l.magnitude top x.magnitude
      (roundHalfEven (23 - l.mantBits) (x.absBits - (127 - l.bias) * 2 ^ 23)) := by
  rw [l.magnitude_of_normal hlow]
  exact rounds_roundHalfEven l.scale_pos (l.le_cut hlow) htop

theorem Layout.abs_magnitude_sub_le (l : Layout) (hlow : 128 ≤ x.absBits / 2 ^ 23 + l.bias) :
    |l.magnitude (roundHalfEven (23 - l.mantBits) (x.absBits - (127 - l.bias) * 2 ^ 23)) -
      x.magnitude| ≤ x.magnitude / 2 ^ (l.mantBits + 1) := by
  rw [l.magnitude_of_normal hlow]
  exact abs_roundHalfEven_sub_le l.scale_pos (l.le_cut hlow)

/-! ### Numbers without one -/

theorem Layout.encode_of_subnormal (l : Layout) (build : Build)
    (h : x.absBits / 2 ^ 23 + l.bias ≤ 127) :
    l.encode build x =
      (shrU32 build (2 ^ 23 + x.absBits % 2 ^ 23)
        (152 - l.mantBits - x.absBits / 2 ^ 23 - l.bias)).map
          fun m => byte x.sign (m % 2 ^ l.mantBits) := by
  have hw := l.mantBits_le
  have hpow : 2 ^ l.mantBits ≤ 2 ^ 7 := Nat.pow_le_pow_right two_pos hw
  have hsign := x.sign_le
  have hM := Nat.mod_lt x.absBits (Nat.two_pow_pos 23)
  have hone : x.absBits % 2 ^ 23 ||| 0x00800000 = 2 ^ 23 + x.absBits % 2 ^ 23 := by
    rw [Nat.or_comm, show (0x00800000 : ℕ) = 2 ^ 23 * 1 from rfl,
      ← Nat.two_pow_add_eq_or_of_lt hM, mul_one]
  have hshift : 24 - l.mantBits + (1 - ((x.absBits / 2 ^ 23 : ℕ) - 127 + (l.bias : ℤ))).toNat =
      152 - l.mantBits - x.absBits / 2 ^ 23 - l.bias := by omega
  unfold Layout.encode
  simp only [x.shiftRight_eq_sign, x.exponent_eq, x.fraction_eq]
  rw [if_pos (by omega), hone, hshift]
  congr 1
  funext m
  have hm : m % 256 % 2 ^ l.mantBits = m % 2 ^ l.mantBits :=
    Nat.mod_mod_of_dvd m (Nat.pow_dvd_pow 2 (show l.mantBits ≤ 8 by omega))
  have hlt := Nat.mod_lt m (Nat.two_pow_pos l.mantBits)
  rw [Nat.and_two_pow_sub_one_eq_mod, hm, Nat.mod_eq_of_lt (a := x.sign) (by omega),
    ← Nat.shiftLeft_add_eq_or_of_lt (by omega), Nat.shiftLeft_eq, byte]

/-- Half of a small number, cut off, is nearest to it only if it is nothing. -/
theorem rounds_half_iff {t u : ℚ} (hu : 0 < u) (hm : 2 * m * u ≤ t) (hlt : m + 1 < 2 ^ w)
    (htop : m + 1 ≤ top) :
    Rounds (fun k => (units w k : ℚ) * u) top t m ↔ t ≤ u / 2 := by
  have hunits : (units w m : ℚ) = m := by rw [units_of_lt (by omega)]
  have hnext : (units w (m + 1) : ℚ) = m + 1 := by rw [units_of_lt hlt, Nat.cast_succ]
  have hm0 : 0 ≤ m * u := by positivity
  constructor
  · intro h
    have hnear := h.nearest (m + 1) htop
    simp only [hunits, hnext] at hnear
    rw [abs_sub_comm, abs_of_nonneg (by linarith)] at hnear
    obtain ⟨habs, -⟩ | ⟨habs, -⟩ := abs_cases ((m + 1 : ℚ) * u - t)
    · rw [habs] at hnear
      have hsmall : (2 * m : ℚ) * u ≤ 1 * u := by linarith
      have hzero : m = 0 := by
        have : (2 * m : ℚ) ≤ 1 := le_of_mul_le_mul_right hsmall hu
        have : 2 * m ≤ 1 := by exact_mod_cast this
        omega
      subst hzero
      push_cast at hnear
      linarith
    · rw [habs] at hnear
      linarith
  · intro h
    have hzero : m = 0 := by
      have hsmall : (4 * m : ℚ) * u ≤ 1 * u := by linarith
      have : (4 * m : ℚ) ≤ 1 := le_of_mul_le_mul_right hsmall hu
      have : 4 * m ≤ 1 := by exact_mod_cast this
      omega
    subst hzero
    refine rounds_of_below (strictMono_units_mul w hu) (by omega) ?_ ?_ fun _ => Even.zero
    · simpa [hunits] using hm
    · simp only [hunits, hnext]
      push_cast
      linarith

/-- What is left of a small number is half of it, in units of the last place. -/
theorem Layout.cut_bounds (l : Layout) (hE : 1 ≤ x.absBits / 2 ^ 23)
    (h : x.absBits / 2 ^ 23 + l.bias ≤ 127)
    (hm : m = (2 ^ 23 + x.absBits % 2 ^ 23) /
      2 ^ (152 - l.mantBits - x.absBits / 2 ^ 23 - l.bias)) :
    2 * m * l.scale ≤ x.magnitude ∧ x.magnitude < 2 * (m + 1) * l.scale ∧
      m + 1 ≤ 2 ^ (l.mantBits - 1) := by
  have hw := l.mantBits_le
  have hpos := l.mantBits_pos
  have hM := Nat.mod_lt x.absBits (Nat.two_pow_pos 23)
  have hbits := Nat.div_add_mod' x.absBits (2 ^ 23)
  have hmag : x.magnitude =
      ((2 ^ 23 + x.absBits % 2 ^ 23 : ℕ) : ℚ) * 2 ^ (x.absBits / 2 ^ 23 - 1) / 2 ^ 149 := by
    rw [F32.magnitude, ← hbits, units_parts hE hM, hbits]
    push_cast
    rfl
  generalize x.absBits / 2 ^ 23 = E at hE h hm hmag
  generalize hN : 2 ^ 23 + x.absBits % 2 ^ 23 = N at hm hmag
  generalize hσ : 152 - l.mantBits - E - l.bias = σ at hm
  have hpow : (2 : ℚ) ^ 150 = 2 ^ (E - 1) * (2 ^ σ * 2 ^ (l.bias + l.mantBits - 1)) := by
    rw [← pow_add, ← pow_add]
    congr 1
    omega
  have hcut : x.magnitude = 2 * ((N : ℚ) / 2 ^ σ) * l.scale := by
    calc x.magnitude = 2 * ((N : ℚ) * 2 ^ (E - 1)) / 2 ^ 150 := by
          rw [hmag, pow_succ (2 : ℚ) 149]
          field_simp
      _ = 2 * ((N : ℚ) / 2 ^ σ) * l.scale := by
          rw [hpow, Layout.scale]
          field_simp
  have hσpos : (0 : ℚ) < 2 ^ σ := by positivity
  have hle : (m : ℚ) ≤ N / 2 ^ σ := by
    rw [le_div_iff₀ hσpos, hm]
    exact_mod_cast Nat.div_mul_le_self N (2 ^ σ)
  have hlt : (N : ℚ) / 2 ^ σ < m + 1 := by
    rw [div_lt_iff₀ hσpos, hm]
    exact_mod_cast Nat.lt_mul_of_div_lt (Nat.lt_succ_self _) (Nat.two_pow_pos σ)
  refine ⟨?_, ?_, ?_⟩
  · rw [hcut]
    exact mul_le_mul_of_nonneg_right (by linarith) l.scale_pos.le
  · rw [hcut]
    exact mul_lt_mul_of_pos_right (by linarith) l.scale_pos
  · rw [hm, Nat.succ_le_iff, Nat.div_lt_iff_lt_mul (Nat.two_pow_pos σ), ← pow_add]
    have : 2 ^ 24 ≤ 2 ^ (l.mantBits - 1 + σ) := Nat.pow_le_pow_right two_pos (by omega)
    omega

/-- What a small number is converted to, and when that is right. -/
theorem Layout.encode_small (l : Layout) (build : Build) (top : ℕ) (hE : 1 ≤ x.absBits / 2 ^ 23)
    (h : x.absBits / 2 ^ 23 + l.bias ≤ 127)
    (hshift : 152 - l.mantBits - x.absBits / 2 ^ 23 - l.bias < 32)
    (htop : 2 ^ (l.mantBits - 1) ≤ top) :
    ∃ m < 2 ^ (l.mantBits - 1), l.encode build x = some (byte x.sign m) ∧
      (Rounds l.magnitude top x.magnitude m ↔ x.magnitude ≤ l.scale / 2) ∧
      2 * m * l.scale ≤ x.magnitude ∧ x.magnitude < 2 * (m + 1) * l.scale := by
  obtain ⟨hle, hlt, hm⟩ := l.cut_bounds hE h rfl
  have hpow : 2 ^ (l.mantBits - 1) < 2 ^ l.mantBits :=
    Nat.pow_lt_pow_right one_lt_two (by have := l.mantBits_pos; omega)
  refine ⟨_, Nat.succ_le_iff.1 hm, ?_, rounds_half_iff l.scale_pos hle (by omega) (by omega),
    hle, hlt⟩
  rw [l.encode_of_subnormal build h, shrU32_of_lt hshift, Option.map_some,
    Nat.shiftRight_eq_div_pow, Nat.mod_eq_of_lt (by omega)]

/-! ### The special cases -/

theorem F32.isNan_eq_false_iff : x.isNan = false ↔ x.absBits ≤ 0x7f800000 := by
  rw [F32.isNan, decide_eq_false_iff_not, not_lt]

theorem F32.toNat_abs (x : F32) : x.abs.toBits.toNat = x.absBits := by
  rw [F32.abs, UInt32.toNat_and, show (0x7fffffff : UInt32).toNat = 2 ^ 31 - 1 from rfl,
    Nat.and_two_pow_sub_one_eq_mod, F32.absBits]

theorem F32.absBits_abs (x : F32) : x.abs.absBits = x.absBits := by
  have hlt : x.absBits < 2 ^ 31 := Nat.mod_lt _ (Nat.two_pow_pos 31)
  rw [F32.absBits, x.toNat_abs, Nat.mod_eq_of_lt hlt]

theorem F32.eq_zero_iff (hx : x.isNan = false) : x.eq ⟨0⟩ = true ↔ x.absBits = 0 := by
  have hzero : F32.isNan ⟨0⟩ = false := rfl
  have hplace : F32.order ⟨0⟩ = 0 := rfl
  have horder : x.order = 0 ↔ x.absBits = 0 := by
    unfold F32.order
    split_ifs <;> omega
  rw [F32.eq, hx, hzero, hplace]
  simpa using horder

namespace F8E4m3

theorem clamp_of_le (h : x.absBits ≤ 0x43e00000) : x.clamp ⟨0xc3e00000⟩ ⟨0x43e00000⟩ = x := by
  have horder : -0x43e00000 ≤ x.order ∧ x.order ≤ 0x43e00000 := by
    unfold F32.order
    split_ifs <;> omega
  have hlo : x.lt ⟨0xc3e00000⟩ = false := by
    have : F32.order ⟨0xc3e00000⟩ = -0x43e00000 := rfl
    simp [F32.lt, this, horder.1]
  have hhi : F32.lt ⟨0x43e00000⟩ x = false := by
    have : F32.order ⟨0x43e00000⟩ = 0x43e00000 := rfl
    simp [F32.lt, this, horder.2]
  simp [F32.clamp, hlo, hhi]

theorem clamp_of_lt (hx : x.isNan = false) (h : 0x43e00000 < x.absBits) :
    x.clamp ⟨0xc3e00000⟩ ⟨0x43e00000⟩ = if x.sign = 1 then ⟨0xc3e00000⟩ else ⟨0x43e00000⟩ := by
  have hnlo : F32.isNan ⟨0xc3e00000⟩ = false := rfl
  have hnhi : F32.isNan ⟨0x43e00000⟩ = false := rfl
  have holo : F32.order ⟨0xc3e00000⟩ = -0x43e00000 := rfl
  have hohi : F32.order ⟨0x43e00000⟩ = 0x43e00000 := rfl
  by_cases hs : x.sign = 1
  · have horder : x.order = -(x.absBits : ℤ) := if_pos hs
    have hlo : x.lt ⟨0xc3e00000⟩ = true := by
      simp only [F32.lt, hx, hnlo, horder, holo, Bool.not_false, Bool.true_and, decide_eq_true_eq]
      omega
    rw [if_pos hs, F32.clamp, if_pos hlo]
    rfl
  · have horder : x.order = x.absBits := if_neg hs
    have hlo : x.lt ⟨0xc3e00000⟩ = false := by
      simp only [F32.lt, hx, hnlo, horder, holo, Bool.not_false, Bool.true_and,
        decide_eq_false_iff_not]
      omega
    have hhi : F32.lt ⟨0x43e00000⟩ x = true := by
      simp only [F32.lt, hx, hnhi, horder, hohi, Bool.not_false, Bool.true_and, decide_eq_true_eq]
      omega
    rw [if_neg hs, F32.clamp]
    simp only [hlo, hhi, if_true, Bool.false_eq_true, if_false]

theorem fromF32_of_zero (build : Build) (h : x.absBits = 0) :
    fromF32 build x = some ⟨byte x.sign 0⟩ := by
  have hx : x.isNan = false := F32.isNan_eq_false_iff.2 (by omega)
  have habs : x.abs.isNan = false := F32.isNan_eq_false_iff.2 (by rw [x.absBits_abs]; omega)
  have hzero : x.abs.eq ⟨0⟩ = true := (F32.eq_zero_iff habs).2 (by rw [x.absBits_abs, h])
  rw [fromF32, hx, clamp_of_le (by omega)]
  simp [hzero, byte, Nat.shiftLeft_eq]

theorem fromF32_of_le (build : Build) (h0 : 0 < x.absBits) (h : x.absBits ≤ 0x43e00000) :
    fromF32 build x = (e4m3.encode build x).map mk := by
  have hx : x.isNan = false := F32.isNan_eq_false_iff.2 (by omega)
  have habs : x.abs.isNan = false := F32.isNan_eq_false_iff.2 (by rw [x.absBits_abs]; omega)
  have hzero : ¬x.abs.eq ⟨0⟩ = true := fun hz => by
    have := (F32.eq_zero_iff habs).1 hz
    rw [x.absBits_abs] at this
    omega
  rw [fromF32, hx, clamp_of_le h]
  simp only [hzero, Bool.false_eq_true, if_false]

/-- What is too large becomes the largest number. -/
theorem fromF32_of_lt (build : Build) (hx : x.isNan = false) (h : 0x43e00000 < x.absBits) :
    fromF32 build x = some ⟨byte x.sign 0x7e⟩ := by
  rw [fromF32, hx, clamp_of_lt hx h]
  by_cases hs : x.sign = 1
  · rw [if_pos hs, hs]
    cases build <;> rfl
  · obtain hs' : x.sign = 0 := by
      have := x.sign_le
      omega
    rw [if_neg hs, hs']
    cases build <;> rfl

theorem le_exponent (h : 121 * 2 ^ 23 ≤ x.absBits) :
    128 ≤ x.absBits / 2 ^ 23 + e4m3.bias := by
  have : e4m3.bias = 7 := rfl
  omega

/-- From the largest exponent on every number becomes the largest one. -/
theorem fromF32_of_normal (build : Build) (hlow : 121 * 2 ^ 23 ≤ x.absBits)
    (h : x.absBits ≤ 0x43e00000) :
    fromF32 build x = some ⟨byte x.sign
      (if x.absBits < 0x43780000 then roundHalfEven 20 (x.absBits - 120 * 2 ^ 23) else 0x7e)⟩ ∧
    Rounds e4m3.magnitude 0x7e x.magnitude (roundHalfEven 20 (x.absBits - 120 * 2 ^ 23)) := by
  have hk : roundHalfEven 20 (x.absBits - 120 * 2 ^ 23) ≤ 0x7e := by
    unfold roundHalfEven
    split_ifs <;> omega
  have hlarge : x.absBits < 0x43780000 ↔
      ¬120 ≤ roundHalfEven 20 (x.absBits - 120 * 2 ^ 23) := by
    unfold roundHalfEven
    split_ifs <;> omega
  have hbias := le_exponent hlow
  have heMax : x.absBits / 2 ^ 23 + e4m3.bias ≤ 127 + e4m3.eMax := by
    have : e4m3.bias = 7 := rfl
    have : e4m3.eMax = 15 := rfl
    omega
  have hencode : e4m3.encode build x = some (byte x.sign
      (if 120 ≤ roundHalfEven 20 (x.absBits - 120 * 2 ^ 23) then 0x7e
        else roundHalfEven 20 (x.absBits - 120 * 2 ^ 23))) :=
    e4m3.encode_of_normal build hbias heMax
  refine ⟨?_, e4m3.rounds_of_normal hbias hk⟩
  rw [fromF32_of_le build (by omega) h, hencode]
  by_cases hlt : x.absBits < 0x43780000
  · rw [if_pos hlt, if_neg (hlarge.1 hlt)]
    rfl
  · rw [if_neg hlt, if_pos (not_not.1 fun hle => hlt (hlarge.2 hle))]
    rfl

end F8E4m3

namespace F8E5m2

theorem fromF32_of_zero (build : Build) (h : x.absBits = 0) :
    fromF32 build x = some ⟨byte x.sign 0⟩ := by
  have hx : x.isNan = false := F32.isNan_eq_false_iff.2 (by omega)
  have hzero : x.eq ⟨0⟩ = true := (F32.eq_zero_iff hx).2 h
  rw [fromF32, hx]
  simp [hzero, byte, Nat.shiftLeft_eq]

theorem fromF32_of_lt (build : Build) (h0 : 0 < x.absBits) (h : x.absBits < 143 * 2 ^ 23) :
    fromF32 build x = (e5m2.encode build x).map mk := by
  have hx : x.isNan = false := F32.isNan_eq_false_iff.2 (by omega)
  have hzero : ¬x.eq ⟨0⟩ = true := fun hz => by
    have := (F32.eq_zero_iff hx).1 hz
    omega
  rw [fromF32, hx, if_neg Bool.false_ne_true]
  simp only [hzero, x.exponent_eq, Bool.false_eq_true, if_false]
  rw [if_neg (by omega)]

/-- What is too large becomes infinite. -/
theorem fromF32_of_le (build : Build) (hx : x.isNan = false) (h : 143 * 2 ^ 23 ≤ x.absBits) :
    fromF32 build x = some ⟨byte x.sign 0x7c⟩ := by
  have hzero : ¬x.eq ⟨0⟩ = true := fun hz => by
    have := (F32.eq_zero_iff hx).1 hz
    omega
  rw [fromF32, hx, if_neg Bool.false_ne_true]
  simp only [hzero, x.exponent_eq, Bool.false_eq_true, if_false]
  rw [if_pos (by omega), byte, ← Nat.shiftLeft_add_eq_or_of_lt (by decide), Nat.shiftLeft_eq]

theorem le_exponent (h : 113 * 2 ^ 23 ≤ x.absBits) :
    128 ≤ x.absBits / 2 ^ 23 + e5m2.bias := by
  have : e5m2.bias = 15 := rfl
  omega

theorem fromF32_of_normal (build : Build) (hlow : 113 * 2 ^ 23 ≤ x.absBits)
    (h : x.absBits < 143 * 2 ^ 23) :
    fromF32 build x = some ⟨byte x.sign (roundHalfEven 21 (x.absBits - 112 * 2 ^ 23))⟩ ∧
    Rounds e5m2.magnitude 0x7c x.magnitude (roundHalfEven 21 (x.absBits - 112 * 2 ^ 23)) := by
  have hk : roundHalfEven 21 (x.absBits - 112 * 2 ^ 23) ≤ 0x7c := by
    unfold roundHalfEven
    split_ifs <;> omega
  have hbias := le_exponent hlow
  have heMax : x.absBits / 2 ^ 23 + e5m2.bias ≤ 127 + e5m2.eMax := by
    have : e5m2.bias = 15 := rfl
    have : e5m2.eMax = 31 := rfl
    omega
  have hencode : e5m2.encode build x = some (byte x.sign
      (if 0x7c ≤ roundHalfEven 21 (x.absBits - 112 * 2 ^ 23) then 0x7c
        else roundHalfEven 21 (x.absBits - 112 * 2 ^ 23))) :=
    e5m2.encode_of_normal build hbias heMax
  refine ⟨?_, e5m2.rounds_of_normal hbias hk⟩
  rw [fromF32_of_lt build (by omega) h, hencode]
  -- the code of infinity is the one that follows the largest number
  split_ifs with hle
  · rw [le_antisymm hk hle]
    rfl
  · rfl

end F8E5m2

/-! ### Which numbers are rounded -/

theorem F32.le_magnitude_iff_of {q : ℚ} (h : (units 23 n : ℚ) / 2 ^ 149 = q) :
    q ≤ x.magnitude ↔ n ≤ x.absBits := h ▸ F32.le_magnitude_iff

theorem F32.magnitude_le_iff_of {q : ℚ} (h : (units 23 n : ℚ) / 2 ^ 149 = q) :
    x.magnitude ≤ q ↔ x.absBits ≤ n := h ▸ F32.magnitude_le_iff

theorem F32.magnitude_lt_iff_of {q : ℚ} (h : (units 23 n : ℚ) / 2 ^ 149 = q) :
    x.magnitude < q ↔ x.absBits < n := by
  rw [← not_le, F32.le_magnitude_iff_of h, not_le]

theorem F32.magnitude_pos_iff : 0 < x.magnitude ↔ 0 < x.absBits := by
  rw [← not_le, F32.magnitude_le_iff_of (n := 0) (by norm_num [units]), not_le]

theorem F32.magnitude_eq_zero_iff : x.magnitude = 0 ↔ x.absBits = 0 := by
  have hnonneg : 0 ≤ x.magnitude := by
    unfold F32.magnitude
    positivity
  have hpos := F32.magnitude_pos_iff (x := x)
  constructor
  · intro h
    rw [h] at hpos
    simpa using hpos
  · intro h
    by_contra hne
    have := hpos.1 (lt_of_le_of_ne hnonneg (Ne.symm hne))
    omega

theorem Layout.magnitude_strictMono (l : Layout) : StrictMono l.magnitude :=
  strictMono_units_mul l.mantBits l.scale_pos

theorem Layout.magnitude_zero (l : Layout) : l.magnitude 0 = 0 := by
  rw [Layout.magnitude, units_of_lt (Nat.two_pow_pos _), Nat.cast_zero, zero_mul]

theorem rounds_zero (l : Layout) (h : x.absBits = 0) : Rounds l.magnitude top x.magnitude 0 := by
  have hzero := F32.magnitude_eq_zero_iff.2 h
  have hone := l.magnitude_strictMono Nat.zero_lt_one
  refine rounds_of_below l.magnitude_strictMono (Nat.zero_le _) ?_ ?_ fun _ => Even.zero
  · rw [hzero, l.magnitude_zero]
  · rw [hzero, mul_zero]
    rw [l.magnitude_zero] at hone ⊢
    linarith

theorem rounds_iff_eq {l : Layout} {t : ℚ} {j : ℕ} (h : Rounds l.magnitude top t k) :
    Rounds l.magnitude top t j ↔ j = k :=
  ⟨fun hj => hj.unique l.magnitude_strictMono h, fun hj => hj ▸ h⟩

/-- The exponent of the smallest numbers with a leading one. -/
def Layout.normal (l : Layout) : ℕ := 128 - l.bias

/-- The exponent from which on the shift of a small number does not overflow. -/
def Layout.least (l : Layout) : ℕ := 121 - l.mantBits - l.bias

/-- A conversion that keeps the sign of zero, hands small numbers to the layout, and converts those
with a leading one in its own way, rounding the ones that are `rounded`. -/
structure Conversion {C : Type} (l : Layout) (top : ℕ) (rounded : F32 → Prop) (mk : UInt8 → C)
    (f : Build → F32 → Option C) : Prop where
  least_pos : 1 ≤ l.least
  le_top : 2 ^ (l.mantBits - 1) ≤ top
  zero : ∀ build x, x.absBits = 0 → f build x = some (mk (byte x.sign 0))
  small : ∀ build x, 0 < x.absBits → x.absBits < l.normal * 2 ^ 23 →
    f build x = (l.encode build x).map mk
  normal : ∀ build x, x.isNan = false → l.normal * 2 ^ 23 ≤ x.absBits →
    ∃ k < 2 ^ 7, f build x = some (mk (byte x.sign k)) ∧
      (Rounds l.magnitude top x.magnitude k ↔ rounded x)

namespace Conversion

variable {C : Type} {rounded : F32 → Prop} {mk : UInt8 → C} {f : Build → F32 → Option C}

theorem of_small (h : Conversion l top rounded mk f) (build : Build)
    (hlow : l.least * 2 ^ 23 ≤ x.absBits) (hx : x.absBits < l.normal * 2 ^ 23) :
    ∃ m < 2 ^ (l.mantBits - 1), f build x = some (mk (byte x.sign m)) ∧
      (Rounds l.magnitude top x.magnitude m ↔ x.magnitude ≤ l.scale / 2) ∧
      2 * m * l.scale ≤ x.magnitude ∧ x.magnitude < 2 * (m + 1) * l.scale := by
  have hleast := h.least_pos
  unfold Layout.least at hleast hlow
  unfold Layout.normal at hx
  obtain ⟨m, hm, hencode, hrounds, hbounds⟩ := l.encode_small (x := x) build top
    (by omega) (by omega) (by omega) h.le_top
  refine ⟨m, hm, ?_, hrounds, hbounds⟩
  rw [h.small build x (by omega) hx, hencode]
  rfl

theorem checked_of_tiny (h : Conversion l top rounded mk f) (h0 : 0 < x.absBits)
    (hx : x.absBits < l.least * 2 ^ 23) : f .checked x = none := by
  have hleast := h.least_pos
  unfold Layout.least at hleast hx
  have hle : 121 - l.mantBits - l.bias ≤ 128 - l.bias := by omega
  have hsub : x.absBits < l.normal * 2 ^ 23 := hx.trans_le (Nat.mul_le_mul_right _ hle)
  rw [h.small .checked x h0 hsub, l.encode_of_subnormal .checked (by omega),
    shrU32_checked_of_le (by omega)]
  rfl

theorem exists_code (h : Conversion l top rounded mk f) (build : Build) (hx : x.isNan = false)
    (hsmall : x.absBits = 0 ∨ l.least * 2 ^ 23 ≤ x.absBits) :
    ∃ k < 2 ^ 7, f build x = some (mk (byte x.sign k)) ∧
      (Rounds l.magnitude top x.magnitude k ↔
        if x.absBits < l.normal * 2 ^ 23 then x.magnitude ≤ l.scale / 2 else rounded x) := by
  have hpos : 0 < l.normal * 2 ^ 23 := by
    have := l.bias_le
    unfold Layout.normal
    omega
  obtain hzero | hlow := hsmall
  · refine ⟨0, by decide, h.zero build x hzero, iff_of_true (rounds_zero l hzero) ?_⟩
    rw [if_pos (hzero ▸ hpos), F32.magnitude_eq_zero_iff.2 hzero]
    exact (half_pos l.scale_pos).le
  rcases Nat.lt_or_ge x.absBits (l.normal * 2 ^ 23) with hsub | hnormal
  · obtain ⟨m, hm, hcode, hrounds, -⟩ := h.of_small build hlow hsub
    have hpow : 2 ^ (l.mantBits - 1) ≤ 2 ^ 7 :=
      Nat.pow_le_pow_right two_pos (by have := l.mantBits_le; omega)
    exact ⟨m, hm.trans_le hpow, hcode, by rw [hrounds, if_pos hsub]⟩
  · obtain ⟨k, hk, hcode, hrounds⟩ := h.normal build x hx hnormal
    exact ⟨k, hk, hcode, by rw [hrounds, if_neg (not_lt.2 hnormal)]⟩

/-- A checking build panics at the numbers whose shift overflows; the others have the sign of `x`,
and of the small ones those are rounded that vanish. -/
theorem rounds_iff (h : Conversion l top rounded mk f) (hx : x.isNan = false) :
    (f .checked x = none ↔ 0 < x.absBits ∧ x.absBits < l.least * 2 ^ 23) ∧
      ∀ build, x.absBits = 0 ∨ l.least * 2 ^ 23 ≤ x.absBits →
        ∃ b, f build x = some (mk b) ∧ (RoundsTo l top x b ↔
          if x.absBits < l.normal * 2 ^ 23 then x.magnitude ≤ l.scale / 2 else rounded x) := by
  constructor
  · refine ⟨fun hnone => ?_, fun hx => h.checked_of_tiny hx.1 hx.2⟩
    by_contra hnot
    obtain ⟨k, -, hcode, -⟩ := h.exists_code .checked hx (by omega)
    rw [hnone] at hcode
    cases hcode
  · intro build hsmall
    obtain ⟨k, hk, hcode, hrounds⟩ := h.exists_code build hx hsmall
    exact ⟨_, hcode, (roundsTo_byte hk).trans hrounds⟩

end Conversion

namespace F8E4m3

/-- The constants of the conversion as bits. -/
theorem bounds (x : F32) :
    (1 / 2 ^ 16 ≤ x.magnitude ↔ 111 * 2 ^ 23 ≤ x.absBits) ∧
    (x.magnitude ≤ 1 / 2 ^ 10 ↔ x.absBits ≤ 117 * 2 ^ 23) ∧
    (1 / 2 ^ 6 ≤ x.magnitude ↔ 121 * 2 ^ 23 ≤ x.absBits) ∧
    (x.magnitude < 248 ↔ x.absBits < 0x43780000) ∧
    (432 ≤ x.magnitude ↔ 0x43d80000 ≤ x.absBits) :=
  ⟨F32.le_magnitude_iff_of (by norm_num [units]), F32.magnitude_le_iff_of (by norm_num [units]),
    F32.le_magnitude_iff_of (by norm_num [units]), F32.magnitude_lt_iff_of (by norm_num [units]),
    F32.le_magnitude_iff_of (by norm_num [units])⟩

theorem least_eq : e4m3.least = 111 := rfl

theorem normal_eq : e4m3.normal = 121 := rfl

theorem conversion : Conversion e4m3 0x7e (fun x => x.magnitude < 248 ∨ 432 ≤ x.magnitude) mk
    fromF32 where
  least_pos := by decide
  le_top := by decide
  zero := fun build _ => fromF32_of_zero build
  small := by
    intro build x h0 h
    rw [normal_eq] at h
    exact fromF32_of_le build h0 (by omega)
  normal := by
    intro build x hx hnormal
    rw [normal_eq] at hnormal
    obtain ⟨-, -, -, h248, h432⟩ := bounds x
    rcases Nat.lt_or_ge 0x43e00000 x.absBits with hover | hle
    · refine ⟨0x7e, by decide, fromF32_of_lt build hx hover, iff_of_true ?_ ?_⟩
      · have htop : e4m3.magnitude 0x7e = (units 23 0x43e00000 : ℚ) / 2 ^ 149 := by
          norm_num [Layout.magnitude, Layout.scale, e4m3, units]
        exact rounds_top e4m3.magnitude_strictMono (htop ▸ F32.le_magnitude_iff.2 hover.le)
      · exact .inr (h432.2 (by omega))
    · obtain ⟨hcode, hrounds⟩ := fromF32_of_normal build hnormal hle
      refine ⟨_, ?_, hcode, ?_⟩
      · unfold roundHalfEven
        split_ifs <;> omega
      · rw [rounds_iff_eq hrounds, h248, h432]
        unfold roundHalfEven
        split_ifs <;> omega

/-- Zero, numbers that round to it, and numbers from the smallest one with a leading one on, except
for those that belong to the largest exponent and not to its largest number: these are rounded to
nearest, half to even. -/
theorem fromF32_e4m3_rounds_iff (hx : x.isNan = false) :
    (fromF32 .checked x = none ↔ 0 < x.magnitude ∧ x.magnitude < 1 / 2 ^ 16) ∧
      ∀ build, x.magnitude = 0 ∨ 1 / 2 ^ 16 ≤ x.magnitude →
        ∃ c, fromF32 build x = some c ∧
          (RoundsTo e4m3 0x7e x c.toBits ↔ x.magnitude ≤ 1 / 2 ^ 10 ∨
            1 / 2 ^ 6 ≤ x.magnitude ∧ x.magnitude < 248 ∨ 432 ≤ x.magnitude) := by
  obtain ⟨h16, h10, h6, h248, h432⟩ := bounds x
  have hhalf : e4m3.scale / 2 = 1 / 2 ^ 10 := by norm_num [Layout.scale, e4m3]
  obtain ⟨hnone, hsome⟩ := conversion.rounds_iff hx
  rw [least_eq] at hnone hsome
  constructor
  · rw [hnone, F32.magnitude_pos_iff, ← not_le (a := 1 / 2 ^ 16), h16, not_le]
  · intro build hsmall
    rw [F32.magnitude_eq_zero_iff, h16] at hsmall
    obtain ⟨b, hcode, hrounds⟩ := hsome build hsmall
    refine ⟨⟨b⟩, hcode, hrounds.trans ?_⟩
    rw [normal_eq, hhalf, h10, h6, h248, h432]
    split_ifs <;> omega

/-- Halfway between one and the number after it. -/
theorem fromF32_e4m3_rounds_iff_half : fromF32 .checked ⟨0x3f880000⟩ = some one ∧
    RoundsTo e4m3 0x7e ⟨0x3f880000⟩ one.toBits := by
  have hmag : F32.magnitude ⟨0x3f880000⟩ = 17 / 16 := by
    change (units 23 0x3f880000 : ℚ) / 2 ^ 149 = 17 / 16
    norm_num [units]
  have hcode : fromF32 .checked ⟨0x3f880000⟩ = some one := by decide
  obtain ⟨c, hc, hrounds⟩ := (fromF32_e4m3_rounds_iff (x := ⟨0x3f880000⟩) rfl).2 .checked
    (.inr (by rw [hmag]; norm_num))
  obtain rfl := Option.some.inj (hcode.symm.trans hc)
  exact ⟨hcode, hrounds.2 (.inr (.inl (by rw [hmag]; norm_num)))⟩

end F8E4m3

namespace F8E5m2

/-- The constants of the conversion as bits. -/
theorem bounds (x : F32) :
    (1 / 2 ^ 23 ≤ x.magnitude ↔ 104 * 2 ^ 23 ≤ x.absBits) ∧
    (x.magnitude ≤ 1 / 2 ^ 17 ↔ x.absBits ≤ 110 * 2 ^ 23) ∧
    (1 / 2 ^ 14 ≤ x.magnitude ↔ 113 * 2 ^ 23 ≤ x.absBits) :=
  ⟨F32.le_magnitude_iff_of (by norm_num [units]), F32.magnitude_le_iff_of (by norm_num [units]),
    F32.le_magnitude_iff_of (by norm_num [units])⟩

theorem least_eq : e5m2.least = 104 := rfl

theorem normal_eq : e5m2.normal = 113 := rfl

theorem conversion : Conversion e5m2 0x7c (fun _ => True) mk fromF32 where
  least_pos := by decide
  le_top := by decide
  zero := fun build _ => fromF32_of_zero build
  small := by
    intro build x h0 h
    rw [normal_eq] at h
    exact fromF32_of_lt build h0 (by omega)
  normal := by
    intro build x hx hnormal
    rw [normal_eq] at hnormal
    rcases Nat.lt_or_ge x.absBits (143 * 2 ^ 23) with hlt | hover
    · obtain ⟨hcode, hrounds⟩ := fromF32_of_normal build hnormal hlt
      exact ⟨_, Nat.lt_of_le_of_lt hrounds.le_top (by decide), hcode, iff_of_true hrounds trivial⟩
    · refine ⟨0x7c, by decide, fromF32_of_le build hx hover, iff_of_true ?_ trivial⟩
      have htop : e5m2.magnitude 0x7c = (units 23 (143 * 2 ^ 23) : ℚ) / 2 ^ 149 := by
        norm_num [Layout.magnitude, Layout.scale, e5m2, units]
      exact rounds_top e5m2.magnitude_strictMono (htop ▸ F32.le_magnitude_iff.2 hover)

/-- Zero, numbers that round to it, and numbers from the smallest one with a leading one on are
rounded to nearest, half to even, infinity being the number that would follow the largest one. -/
theorem fromF32_e5m2_rounds_iff (hx : x.isNan = false) :
    (fromF32 .checked x = none ↔ 0 < x.magnitude ∧ x.magnitude < 1 / 2 ^ 23) ∧
      ∀ build, x.magnitude = 0 ∨ 1 / 2 ^ 23 ≤ x.magnitude →
        ∃ c, fromF32 build x = some c ∧
          (RoundsTo e5m2 infinity.toBits.toNat x c.toBits ↔
            x.magnitude ≤ 1 / 2 ^ 17 ∨ 1 / 2 ^ 14 ≤ x.magnitude) := by
  obtain ⟨h23, h17, h14⟩ := bounds x
  have hhalf : e5m2.scale / 2 = 1 / 2 ^ 17 := by norm_num [Layout.scale, e5m2]
  obtain ⟨hnone, hsome⟩ := conversion.rounds_iff hx
  rw [least_eq] at hnone hsome
  constructor
  · rw [hnone, F32.magnitude_pos_iff, ← not_le (a := 1 / 2 ^ 23), h23, not_le]
  · intro build hsmall
    rw [F32.magnitude_eq_zero_iff, h23] at hsmall
    obtain ⟨b, hcode, hrounds⟩ := hsome build hsmall
    refine ⟨⟨b⟩, hcode, hrounds.trans ?_⟩
    rw [normal_eq, hhalf, h17, h14]
    split_ifs with hsub
    · exact ⟨.inl, fun h => h.resolve_right (by omega)⟩
    · exact iff_of_true trivial (.inr (not_lt.1 hsub))

/-- The first number that becomes infinite. -/
theorem fromF32_e5m2_rounds_iff_overflow : fromF32 .checked ⟨0x47700000⟩ = some infinity ∧
    RoundsTo e5m2 infinity.toBits.toNat ⟨0x47700000⟩ infinity.toBits := by
  have hmag : F32.magnitude ⟨0x47700000⟩ = 61440 := by
    change (units 23 0x47700000 : ℚ) / 2 ^ 149 = 61440
    norm_num [units]
  have hcode : fromF32 .checked ⟨0x47700000⟩ = some infinity := by decide
  obtain ⟨c, hc, hrounds⟩ := (fromF32_e5m2_rounds_iff (x := ⟨0x47700000⟩) rfl).2 .checked
    (.inr (by rw [hmag]; norm_num))
  obtain rfl := Option.some.inj (hcode.symm.trans hc)
  exact ⟨hcode, hrounds.2 (.inr (by rw [hmag]; norm_num))⟩

end F8E5m2

/-! ### There and back -/

/-- What a code stands for: where the exponent is smallest, twice what the layout says. -/
theorem F8E4m3.toF32_byte : ∀ s < 2, ∀ k < 0x7f,
    (F8E4m3.toF32 ⟨byte s k⟩).sign = s ∧
      units 23 (F8E4m3.toF32 ⟨byte s k⟩).absBits =
        (if k < 8 then 2 else 1) * units 3 k * 2 ^ 140 := by decide +kernel

theorem F8E5m2.toF32_byte : ∀ s < 2, ∀ k < 0x7c,
    (F8E5m2.toF32 ⟨byte s k⟩).sign = s ∧
      units 23 (F8E5m2.toF32 ⟨byte s k⟩).absBits =
        (if k < 4 then 2 else 1) * units 2 k * 2 ^ 133 := by decide +kernel

theorem F8E4m3.magnitude_toF32 (hs : s < 2) (hk : k < 0x7f) :
    (F8E4m3.toF32 ⟨byte s k⟩).magnitude = (if k < 8 then 2 else 1) * e4m3.magnitude k := by
  rw [F32.magnitude, (F8E4m3.toF32_byte s hs k hk).2, Layout.magnitude, Layout.scale]
  split_ifs
  all_goals
    simp only [e4m3]
    push_cast
    ring

theorem F8E5m2.magnitude_toF32 (hs : s < 2) (hk : k < 0x7c) :
    (F8E5m2.toF32 ⟨byte s k⟩).magnitude = (if k < 4 then 2 else 1) * e5m2.magnitude k := by
  rw [F32.magnitude, (F8E5m2.toF32_byte s hs k hk).2, Layout.magnitude, Layout.scale]
  split_ifs
  all_goals
    simp only [e5m2]
    push_cast
    ring

theorem F8E4m3.toF32_fromF32 (build : Build) (hlow : 1 / 2 ^ 16 ≤ x.magnitude)
    (h : x.magnitude < 248) :
    ∃ c, F8E4m3.fromF32 build x = some c ∧ c.toF32.sign = x.sign ∧
      (x.magnitude < 1 / 2 ^ 6 →
        x.magnitude - 1 / 2 ^ 8 < c.toF32.magnitude ∧ c.toF32.magnitude ≤ x.magnitude) ∧
      (1 / 2 ^ 6 ≤ x.magnitude → |c.toF32.magnitude - x.magnitude| ≤ x.magnitude / 2 ^ 4) := by
  obtain ⟨h16, -, h6, h248, -⟩ := F8E4m3.bounds x
  have hsign := Nat.lt_succ_of_le x.sign_le
  rw [h16] at hlow
  rw [h248] at h
  rcases Nat.lt_or_ge x.absBits (121 * 2 ^ 23) with hsub | hnormal
  · obtain ⟨m, hm, hcode, -, hle, hlt⟩ := F8E4m3.conversion.of_small build hlow hsub
    change m < 4 at hm
    have hmag : (F8E4m3.toF32 ⟨byte x.sign m⟩).magnitude = 2 * m * e4m3.scale := by
      rw [F8E4m3.magnitude_toF32 hsign (by omega), if_pos (by omega),
        e4m3.two_mul_magnitude (hm.trans (by decide))]
    have hscale : e4m3.scale = 1 / 2 ^ 9 := by norm_num [Layout.scale, e4m3]
    refine ⟨_, hcode, (F8E4m3.toF32_byte _ hsign m (by omega)).1, fun _ => ?_, fun hge => ?_⟩
    · rw [hmag]
      rw [hscale] at hle hlt ⊢
      constructor <;> linarith
    · rw [h6] at hge
      omega
  · obtain ⟨hcode, -⟩ := F8E4m3.fromF32_of_normal build hnormal (by omega)
    rw [if_pos h] at hcode
    have hk : 8 ≤ roundHalfEven 20 (x.absBits - 120 * 2 ^ 23) ∧
        roundHalfEven 20 (x.absBits - 120 * 2 ^ 23) < 0x7f := by
      unfold roundHalfEven
      split_ifs <;> omega
    refine ⟨_, hcode, (F8E4m3.toF32_byte _ hsign _ hk.2).1, fun hlt => ?_, fun _ => ?_⟩
    · exact absurd (h6.2 hnormal) (not_le.2 hlt)
    · rw [F8E4m3.magnitude_toF32 hsign hk.2, if_neg (by omega), one_mul]
      exact e4m3.abs_magnitude_sub_le (F8E4m3.le_exponent hnormal)

theorem F8E5m2.toF32_fromF32 (build : Build) (hlow : 1 / 2 ^ 23 ≤ x.magnitude)
    (h : x.magnitude < 61440) :
    ∃ c, F8E5m2.fromF32 build x = some c ∧ c.toF32.sign = x.sign ∧
      (x.magnitude < 1 / 2 ^ 14 →
        x.magnitude - 1 / 2 ^ 15 < c.toF32.magnitude ∧ c.toF32.magnitude ≤ x.magnitude) ∧
      (1 / 2 ^ 14 ≤ x.magnitude → |c.toF32.magnitude - x.magnitude| ≤ x.magnitude / 2 ^ 3) := by
  obtain ⟨h23, -, h14⟩ := F8E5m2.bounds x
  have hsign := Nat.lt_succ_of_le x.sign_le
  rw [h23] at hlow
  rw [F32.magnitude_lt_iff_of (n := 0x47700000) (by norm_num [units])] at h
  rcases Nat.lt_or_ge x.absBits (113 * 2 ^ 23) with hsub | hnormal
  · obtain ⟨m, hm, hcode, -, hle, hlt⟩ := F8E5m2.conversion.of_small build hlow hsub
    change m < 2 at hm
    have hmag : (F8E5m2.toF32 ⟨byte x.sign m⟩).magnitude = 2 * m * e5m2.scale := by
      rw [F8E5m2.magnitude_toF32 hsign (by omega), if_pos (by omega),
        e5m2.two_mul_magnitude (hm.trans (by decide))]
    have hscale : e5m2.scale = 1 / 2 ^ 16 := by norm_num [Layout.scale, e5m2]
    refine ⟨_, hcode, (F8E5m2.toF32_byte _ hsign m (by omega)).1, fun _ => ?_, fun hge => ?_⟩
    · rw [hmag]
      rw [hscale] at hle hlt ⊢
      constructor <;> linarith
    · rw [h14] at hge
      omega
  · obtain ⟨hcode, -⟩ := F8E5m2.fromF32_of_normal build hnormal (by omega)
    have hk : 4 ≤ roundHalfEven 21 (x.absBits - 112 * 2 ^ 23) ∧
        roundHalfEven 21 (x.absBits - 112 * 2 ^ 23) < 0x7c := by
      unfold roundHalfEven
      split_ifs <;> omega
    refine ⟨_, hcode, (F8E5m2.toF32_byte _ hsign _ hk.2).1, fun hlt => ?_, fun _ => ?_⟩
    · exact absurd (h14.2 hnormal) (not_le.2 hlt)
    · rw [F8E5m2.magnitude_toF32 hsign hk.2, if_neg (by omega), one_mul]
      exact e5m2.abs_magnitude_sub_le (F8E5m2.le_exponent hnormal)

/-- A number that is converted to a byte and back keeps its sign.  With a leading one it changes by
a part in 16, or in 8; without one it loses less than two units of the last place. -/
theorem there_and_back (build : Build) (x : F32) :
    (1 / 2 ^ 16 ≤ x.magnitude → x.magnitude < 248 →
      ∃ c, F8E4m3.fromF32 build x = some c ∧ c.toF32.sign = x.sign ∧
        (x.magnitude < 1 / 2 ^ 6 →
          x.magnitude - 1 / 2 ^ 8 < c.toF32.magnitude ∧ c.toF32.magnitude ≤ x.magnitude) ∧
        (1 / 2 ^ 6 ≤ x.magnitude → |c.toF32.magnitude - x.magnitude| ≤ x.magnitude / 2 ^ 4)) ∧
    (1 / 2 ^ 23 ≤ x.magnitude → x.magnitude < 61440 →
      ∃ c, F8E5m2.fromF32 build x = some c ∧ c.toF32.sign = x.sign ∧
        (x.magnitude < 1 / 2 ^ 14 →
          x.magnitude - 1 / 2 ^ 15 < c.toF32.magnitude ∧ c.toF32.magnitude ≤ x.magnitude) ∧
        (1 / 2 ^ 14 ≤ x.magnitude → |c.toF32.magnitude - x.magnitude| ≤ x.magnitude / 2 ^ 3)) :=
  ⟨F8E4m3.toF32_fromF32 build, F8E5m2.toF32_fromF32 build⟩

/-- One and a half. -/
theorem there_and_back_half : F8E4m3.fromF32 .checked ⟨0x3fc00000⟩ = some ⟨0x3c⟩ ∧
    |(F8E4m3.toF32 ⟨0x3c⟩).magnitude - 3 / 2| ≤ 3 / 32 := by
  have hmag : F32.magnitude ⟨0x3fc00000⟩ = 3 / 2 := by
    change (units 23 0x3fc00000 : ℚ) / 2 ^ 149 = 3 / 2
    norm_num [units]
  have hcode : F8E4m3.fromF32 .checked ⟨0x3fc00000⟩ = some ⟨0x3c⟩ := by decide
  obtain ⟨c, hc, -, -, herror⟩ := (there_and_back .checked ⟨0x3fc00000⟩).1
    (by rw [hmag]; norm_num) (by rw [hmag]; norm_num)
  obtain rfl := Option.some.inj (hcode.symm.trans hc)
  rw [hmag] at herror
  exact ⟨hcode, (herror (by norm_num)).trans (by norm_num)⟩

theorem F8E4m3.fromF32_toF32_ofNat : ∀ build ∈ [Build.checked, .wrapping], ∀ n < 256,
    F8E4m3.fromF32 build (F8E4m3.toF32 ⟨UInt8.ofNat n⟩) = some ⟨UInt8.ofNat n⟩ ↔
      n = 0x7f ∨ n % 2 ^ 7 < 4 ∨ 8 ≤ n % 2 ^ 7 ∧ n % 2 ^ 7 < 0x78 ∨ n % 2 ^ 7 = 0x7e := by
  decide +kernel

theorem F8E5m2.fromF32_toF32_ofNat : ∀ build ∈ [Build.checked, .wrapping], ∀ n < 256,
    F8E5m2.fromF32 build (F8E5m2.toF32 ⟨UInt8.ofNat n⟩) = some ⟨UInt8.ofNat n⟩ ↔
      n = 0x7e ∨ n % 2 ^ 7 < 2 ∨ 4 ≤ n % 2 ^ 7 ∧ n % 2 ^ 7 ≤ 0x7c := by
  decide +kernel

/-- The codes that come back are one code of those that are no number, and of the others those
whose fraction is less than half full at the smallest exponent; and with `F8E4m3` of the largest
exponent only the largest number. -/
theorem fromF32_toF32_iff (build : Build) :
    (∀ c : F8E4m3, F8E4m3.fromF32 build c.toF32 = some c ↔
      c = .nan ∨ c.toBits.toNat % 2 ^ 7 < 4 ∨
        8 ≤ c.toBits.toNat % 2 ^ 7 ∧ c.toBits.toNat % 2 ^ 7 < 0x78 ∨
        c.toBits.toNat % 2 ^ 7 = 0x7e) ∧
    (∀ c : F8E5m2, F8E5m2.fromF32 build c.toF32 = some c ↔
      c = .nan ∨ c.toBits.toNat % 2 ^ 7 < 2 ∨
        4 ≤ c.toBits.toNat % 2 ^ 7 ∧ c.toBits.toNat % 2 ^ 7 ≤ 0x7c) := by
  have hbuild : build ∈ [Build.checked, .wrapping] := by cases build <;> decide
  have hbits (c : UInt8) (n : ℕ) (hn : n < 256) : c = UInt8.ofNat n ↔ c.toNat = n := by
    rw [← UInt8.toNat_inj, UInt8.toNat_ofNat', Nat.mod_eq_of_lt hn]
  constructor
  · rintro ⟨c⟩
    have h := F8E4m3.fromF32_toF32_ofNat build hbuild c.toNat c.toNat_lt
    rw [UInt8.ofNat_toNat] at h
    rw [h, F8E4m3.nan, F8E4m3.mk.injEq]
    exact or_congr_left (hbits c 0x7f (by decide)).symm
  · rintro ⟨c⟩
    have h := F8E5m2.fromF32_toF32_ofNat build hbuild c.toNat c.toNat_lt
    rw [UInt8.ofNat_toNat] at h
    rw [h, F8E5m2.nan, F8E5m2.mk.injEq]
    exact or_congr_left (hbits c 0x7e (by decide)).symm

-- A small number whose shift wraps around becomes one with a leading one.
example : F8E4m3.fromF32 .wrapping ⟨0x2d400000⟩ = some ⟨0x04⟩ := by decide

example : F8E4m3.one.toF32 = ⟨0x3f800000⟩ ∧ F8E5m2.one.toF32 = ⟨0x3f800000⟩ := by decide

end Dtype

end AtomrAccel
