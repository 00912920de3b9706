import Mathlib.Data.BitVec
import Mathlib.Tactic

/-!
# Integer element types

The integer dtypes a CUB request can have.  Elements are bit vectors; a signed dtype compares them
as two's-complement numbers and an unsigned one as natural numbers.
-/

namespace AtomrAccel

namespace Cub

/-- The integer element types. -/
inductive IntDtype
  | i8 | i32 | i64 | u8 | u32 | u64
  deriving DecidableEq, Repr

namespace IntDtype

/-- The width. -/
def bits : IntDtype → ℕ
  | i8 | u8 => 8
  | i32 | u32 => 32
  | i64 | u64 => 64

/-- Whether there is a sign. -/
def signed : IntDtype → Bool
  | i8 | i32 | i64 => true
  | u8 | u32 | u64 => false

end IntDtype

/-- An element of dtype `d`. -/
abbrev Word (d : IntDtype) := BitVec d.bits

variable {d : IntDtype}

/-- The number an element stands for. -/
def value (x : Word d) : ℤ := if d.signed then x.toInt else x.toNat

theorem value_injective : Function.Injective (value (d := d)) := by
  intro x y h
  unfold value at h
  split_ifs at h
  · exact BitVec.toInt_inj.1 h
  · exact BitVec.toNat_inj.1 (Int.ofNat_inj.1 h)

theorem value_zero : value (0 : Word d) = 0 := by cases d <;> rfl

theorem value_one : value (1 : Word d) = 1 := by cases d <;> rfl

theorem value_zero_lt_one : value (0 : Word d) < value (1 : Word d) := by
  rw [value_zero, value_one]
  exact zero_lt_one

theorem value_neg_one (hd : d.signed = true) : value (-1 : Word d) = -1 := by
  cases d <;> first | rfl | cases hd

theorem one_ne_zero_word : (1 : Word d) ≠ 0 := fun h =>
  absurd (congrArg value h) value_zero_lt_one.ne'

theorem value_nonneg (hd : d.signed = false) (x : Word d) : 0 ≤ value x := by
  simp [value, hd]

end Cub

end AtomrAccel
