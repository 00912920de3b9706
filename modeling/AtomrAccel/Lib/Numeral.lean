import Mathlib.Tactic

/-!
# Numerals in names

A number printed with leading zeros can be read back, so file names made of such numerals are
distinct for distinct numbers; and so can a decimal number.

* `Numeral.hexValue`, `Numeral.ofHex`: the number a list of hexadecimal digits stands for;
* `Numeral.padded`, `Numeral.ofHex_padded`, `Numeral.length_padded`;
* `Numeral.toString_injective`, `Numeral.isDigit_of_mem_toString`: decimal numerals.
-/

namespace Numeral

/-- The value of a lower-case hexadecimal digit. -/
def hexValue (c : Char) : ℕ := if c.toNat < 97 then c.toNat - 48 else c.toNat - 87

/-- The number some hexadecimal digits write. -/
def ofHex (cs : List Char) : ℕ := cs.foldl (fun v c => 16 * v + hexValue c) 0

/-- `n` in base 16 with at least `width` digits. -/
def padded (width n : ℕ) : List Char :=
  List.replicate (width - (Nat.toDigits 16 n).length) '0' ++ Nat.toDigits 16 n

theorem hexValue_digitChar : ∀ d < 16, hexValue d.digitChar = d := by decide

theorem ofHex_replicate_zero (k : ℕ) : ofHex (List.replicate k '0') = 0 := by
  induction k with
  | zero => rfl
  | succ k ih =>
    rw [List.replicate_succ', ofHex, List.foldl_append]
    change 16 * ofHex (List.replicate k '0') + hexValue '0' = 0
    rw [ih]
    rfl

theorem ofHex_toDigits (n : ℕ) : ofHex (Nat.toDigits 16 n) = n := by
  induction n using Nat.strong_induction_on with
  | _ n ih =>
    by_cases hn : n < 16
    · rw [Nat.toDigits_of_lt_base hn]
      change 16 * 0 + hexValue n.digitChar = n
      rw [hexValue_digitChar n hn]
      omega
    · rw [Nat.toDigits_of_base_le (by omega) (by omega), ofHex, List.foldl_append]
      change 16 * ofHex (Nat.toDigits 16 (n / 16)) + hexValue (n % 16).digitChar = n
      rw [ih (n / 16) (by omega), hexValue_digitChar _ (Nat.mod_lt n (by omega))]
      omega

/-- Leading zeros do not count. -/
theorem ofHex_padded (width n : ℕ) : ofHex (padded width n) = n := by
  rw [ofHex, padded, List.foldl_append]
  change (Nat.toDigits 16 n).foldl _ (ofHex (List.replicate _ '0')) = n
  rw [ofHex_replicate_zero]
  exact ofHex_toDigits n

theorem length_padded {width n : ℕ} (hwidth : 0 < width) (h : n < 16 ^ width) :
    (padded width n).length = width := by
  have hle := (Nat.length_toDigits_le_iff (by omega) hwidth).2 h
  rw [padded, List.length_append, List.length_replicate]
  omega

theorem toDigits_ten_injective : Function.Injective (Nat.toDigits 10) := by
  intro n m h
  rw [← Nat.ofDigitChars_ten_toDigits (n := n), h, Nat.ofDigitChars_ten_toDigits]

theorem toString_injective : Function.Injective fun n : ℕ => toString n := by
  intro n m h
  apply toDigits_ten_injective
  simpa [Nat.toString_eq_ofList_toDigits] using congrArg String.toList h

theorem isDigit_of_mem_toString {n : ℕ} {c : Char} (h : c ∈ (toString n).toList) :
    c.isDigit := by
  rw [Nat.toString_eq_ofList_toDigits, String.toList_ofList] at h
  exact Nat.isDigit_of_mem_toDigits (by decide) (by decide) h

end Numeral
