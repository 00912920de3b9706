import Mathlib.Tactic

/-!
# Machine arithmetic in two builds

An operation whose exact result does not fit is an error in a build that checks for overflow, and
wraps around in one that does not.  A computation is `none` when it panics.

* `Build`, `Build.guard`: a result, unless the build checks and it does not fit;
* `isizeMax`, `usize`: the limit of allocations, and operations on 64-bit sizes and indices;
* `mulU32`: products of 32-bit numbers, when they panic and how they compare with exact ones;
* `shrU32`: shifts of them;
* `addI32`, `toInt_ofIntClamp`: sums of signed ones, and conversions that stop at the limits;
* `asInt`: conversions to signed ones that keep the bits.
-/

namespace Overflow

/-- The two ways a program can be built. -/
inductive Build
  /-- an overflow panics -/
  | checked
  /-- an overflow wraps around -/
  | wrapping
  deriving DecidableEq, Repr

variable {α : Type*} {build : Build} {fits : Prop} [Decidable fits] {x y : α}

/-- The result `x` of an operation, exact when it `fits`. -/
def Build.guard (build : Build) (fits : Prop) [Decidable fits] (x : α) : Option α :=
  match build with
  | .checked => if fits then some x else none
  | .wrapping => some x

theorem Build.guard_of_fits (h : fits) : build.guard fits x = some x := by
  cases build with
  | checked => exact if_pos h
  | wrapping => rfl

theorem Build.guard_eq_some_iff :
    build.guard fits x = some y ↔ (build = .checked → fits) ∧ x = y := by
  cases build <;> simp [Build.guard]

/-- `isize::MAX`, which no allocation may exceed in bytes. -/
def isizeMax : ℕ := 2 ^ 63 - 1

section Usize

variable {n m : ℕ}

/-- An operation on `usize` with the exact result `n`. -/
def usize (build : Build) (n : ℕ) : Option ℕ := build.guard (n < 2 ^ 64) (n % 2 ^ 64)

theorem usize_of_lt (h : n < 2 ^ 64) : usize build n = some n := by
  rw [usize, Build.guard_of_fits h, Nat.mod_eq_of_lt h]

theorem usize_eq_some_iff :
    usize build n = some m ↔ (build = .checked → n < 2 ^ 64) ∧ n % 2 ^ 64 = m :=
  Build.guard_eq_some_iff

end Usize

/-- `a * b` for `u32`. -/
def mulU32 (build : Build) (a b : UInt32) : Option UInt32 :=
  build.guard (a.toNat * b.toNat < 2 ^ 32) (a * b)

theorem mulU32_of_lt {a b : UInt32} (h : a.toNat * b.toNat < 2 ^ 32) :
    mulU32 build a b = some (a * b) := Build.guard_of_fits h

theorem mulU32_checked_of_le {a b : UInt32} (h : 2 ^ 32 ≤ a.toNat * b.toNat) :
    mulU32 .checked a b = none := if_neg (Nat.not_lt.2 h)

/-- `a >> k` for `u32`; a build that does not check takes the shift modulo 32. -/
def shrU32 (build : Build) (a k : ℕ) : Option ℕ := build.guard (k < 32) (a >>> (k % 32))

theorem shrU32_of_lt {a k : ℕ} (h : k < 32) : shrU32 build a k = some (a >>> k) := by
  rw [shrU32, Build.guard_of_fits h, Nat.mod_eq_of_lt h]

theorem shrU32_checked_of_le {a k : ℕ} (h : 32 ≤ k) : shrU32 .checked a k = none :=
  if_neg (Nat.not_lt.2 h)

/-- A product, wrapped around or not, is at most the exact one. -/
theorem toNat_le_of_mulU32 {a b c : UInt32} (h : mulU32 build a b = some c) :
    c.toNat ≤ a.toNat * b.toNat := by
  obtain ⟨-, rfl⟩ := Build.guard_eq_some_iff.1 h
  rw [UInt32.toNat_mul]
  exact Nat.mod_le _ _

/-- A product that fits compares as the exact one. -/
theorem mul_lt_iff_of_lt {a b c : UInt32} (h : a.toNat * b.toNat < 2 ^ 32) :
    a * b < c ↔ a.toNat * b.toNat < c.toNat := by
  rw [UInt32.lt_iff_toNat_lt, UInt32.toNat_mul, Nat.mod_eq_of_lt h]

/-- The number is one of the signed 32-bit ones. -/
def FitsI32 (n : ℤ) : Prop := -2 ^ 31 ≤ n ∧ n < 2 ^ 31

instance (n : ℤ) : Decidable (FitsI32 n) := inferInstanceAs (Decidable (_ ∧ _))

/-- `a + b` for `i32`. -/
def addI32 (build : Build) (a b : Int32) : Option Int32 :=
  build.guard (FitsI32 (a.toInt + b.toInt)) (a + b)

theorem addI32_of_fits {a b : Int32} (h : FitsI32 (a.toInt + b.toInt)) :
    addI32 build a b = some (a + b) := Build.guard_of_fits h

theorem addI32_checked {a b : Int32} (h : ¬FitsI32 (a.toInt + b.toInt)) :
    addI32 .checked a b = none := if_neg h

theorem toInt_add_of_fits {a b : Int32} (h : FitsI32 (a.toInt + b.toInt)) :
    (a + b).toInt = a.toInt + b.toInt := by
  rw [Int32.toInt_add]
  exact Int.bmod_eq_of_le h.1 h.2

theorem toInt_ofIntClamp (n : ℤ) :
    (Int32.ofIntClamp n).toInt = max (-2 ^ 31) (min n (2 ^ 31 - 1)) := by
  have hmin : Int32.minValue.toInt = -2 ^ 31 := rfl
  have hmax : Int32.maxValue.toInt = 2 ^ 31 - 1 := rfl
  unfold Int32.ofIntClamp
  split
  · split
    · rw [Int32.toInt_ofIntLE]
      omega
    · omega
  · omega

/-- `n as i32`, or a C `int` that has been given `n`. -/
def asInt (n : ℕ) : ℤ := (BitVec.ofNat 32 n).toInt

theorem asInt_of_lt {n : ℕ} (h : n < 2 ^ 31) : asInt n = n := by
  rw [asInt, BitVec.toInt_ofNat', Int.bmod_def]
  split_ifs <;> omega

/-- A number out of the range of an `int` reads as a negative one. -/
theorem asInt_neg {n : ℕ} (h : 2 ^ 31 ≤ n) (h' : n < 2 ^ 32) : asInt n < 0 := by
  rw [asInt, BitVec.toInt_ofNat', Int.bmod_def]
  split_ifs <;> omega

end Overflow
