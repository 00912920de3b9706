import Mathlib.Tactic

/-!
# Rounding to the numbers of a binary format

The magnitudes of a binary format, in the order of their codes: the low `w` bits of a code are the
fraction, the bits above are the exponent, and the numbers of exponent zero have no leading one.

* `Rounds`: the nearest number of a sequence, and of two equally near ones the one at the even
  place; `Rounds.unique`, and how to tell from the two neighbours (`rounds_of_below`,
  `rounds_of_above`, `rounds_top`);
* `units`: the magnitudes in units of the smallest one, `units_succ`, `units_strictMono`;
* `units_add_exponent`, `units_mul_add`: other exponents, and more bits of fraction;
* `roundHalfEven`, `rounds_roundHalfEven`: cutting off bits of a code, rounding half to even, rounds
  the number.
-/

namespace Rounding

section Nearest

variable {K : Type*} [Field K] [LinearOrder K] [IsStrictOrderedRing K]
  {g : ℕ → K} {top j k k' : ℕ} {t : K}

/-- Of the places up to `top`, `k` is the one whose number is nearest to `t`, an even place if there
are two. -/
structure Rounds (g : ℕ → K) (top : ℕ) (t : K) (k : ℕ) : Prop where
  le_top : k ≤ top
  nearest : ∀ j ≤ top, |g k - t| ≤ |g j - t|
  even : ∀ j ≤ top, j ≠ k → |g j - t| = |g k - t| → Even k

/-- Two equally near places would both be even, and one between them nearer. -/
theorem Rounds.not_lt (hg : StrictMono g) (h : Rounds g top t k) (h' : Rounds g top t k') :
    ¬k < k' := by
  intro hlt
  have heq : |g k' - t| = |g k - t| :=
    le_antisymm (h'.nearest k h.le_top) (h.nearest k' h'.le_top)
  obtain ⟨a, rfl⟩ := h.even k' h'.le_top hlt.ne' heq
  obtain ⟨b, rfl⟩ := h'.even (a + a) h.le_top hlt.ne heq.symm
  have hleft : g (a + a) < g (a + a + 1) := hg (by omega)
  have hright : g (a + a + 1) < g (b + b) := hg (by omega)
  have hbetween := h.nearest (a + a + 1) (by have := h'.le_top; omega)
  -- `t` is in the middle of the two
  rcases abs_eq_abs.1 heq with hsame | hopposite
  · exact absurd (sub_left_injective hsame) (hleft.trans hright).ne'
  · have hmid : g (a + a) ≤ t := by linarith
    rw [abs_of_nonpos (by linarith : g (a + a) - t ≤ 0)] at hbetween
    rcases abs_cases (g (a + a + 1) - t) with ⟨habs, -⟩ | ⟨habs, -⟩ <;> linarith

theorem Rounds.unique (hg : StrictMono g) (h : Rounds g top t k) (h' : Rounds g top t k') :
    k = k' :=
  le_antisymm (Nat.not_lt.1 (h'.not_lt hg h)) (Nat.not_lt.1 (h.not_lt hg h'))

theorem rounds_of_below (hg : StrictMono g) (hk : k ≤ top) (hle : g k ≤ t)
    (hmid : 2 * t ≤ g k + g (k + 1)) (heven : 2 * t = g k + g (k + 1) → Even k) :
    Rounds g top t k := by
  have hdist : |g k - t| = t - g k := by rw [abs_sub_comm, abs_of_nonneg (sub_nonneg.2 hle)]
  refine ⟨hk, fun j _ => ?_, fun j _ hjk hj => ?_⟩
  · rw [hdist]
    rcases Nat.lt_or_ge k j with hlt | hge
    · have := hg.monotone (Nat.succ_le_of_lt hlt)
      have := le_abs_self (g j - t)
      linarith
    · have := hg.monotone hge
      have := neg_le_abs (g j - t)
      linarith
  · rw [hdist] at hj
    rcases Nat.lt_or_ge k j with hlt | hge
    · have hnext := hg.monotone (Nat.succ_le_of_lt hlt)
      have := le_abs_self (g j - t)
      exact heven (by linarith)
    · have := hg (lt_of_le_of_ne hge hjk)
      have := neg_le_abs (g j - t)
      linarith

theorem rounds_of_above (hg : StrictMono g) (hk : k + 1 ≤ top) (hle : t ≤ g (k + 1))
    (hmid : g k + g (k + 1) ≤ 2 * t) (heven : g k + g (k + 1) = 2 * t → Even (k + 1)) :
    Rounds g top t (k + 1) := by
  have hdist : |g (k + 1) - t| = g (k + 1) - t := abs_of_nonneg (sub_nonneg.2 hle)
  refine ⟨hk, fun j _ => ?_, fun j _ hjk hj => ?_⟩
  · rw [hdist]
    rcases Nat.lt_or_ge j (k + 1) with hlt | hge
    · have := hg.monotone (Nat.lt_succ_iff.1 hlt)
      have := neg_le_abs (g j - t)
      linarith
    · have := hg.monotone hge
      have := le_abs_self (g j - t)
      linarith
  · rw [hdist] at hj
    rcases Nat.lt_or_ge j (k + 1) with hlt | hge
    · have := hg.monotone (Nat.lt_succ_iff.1 hlt)
      have := neg_le_abs (g j - t)
      exact heven (by linarith)
    · have := hg (lt_of_le_of_ne hge hjk.symm)
      have := le_abs_self (g j - t)
      linarith

/-- What is beyond the last number rounds to it. -/
theorem rounds_top (hg : StrictMono g) (hle : g top ≤ t) : Rounds g top t top := by
  have hdist : |g top - t| = t - g top := by rw [abs_sub_comm, abs_of_nonneg (sub_nonneg.2 hle)]
  refine ⟨le_rfl, fun j hj => ?_, fun j hj hne heq => ?_⟩
  · rw [hdist]
    have := hg.monotone hj
    have := neg_le_abs (g j - t)
    linarith
  · rw [hdist] at heq
    have := hg (lt_of_le_of_ne hj hne)
    have := neg_le_abs (g j - t)
    linarith

end Nearest

/-! ## The magnitudes of a binary format -/

/-- The magnitude with code `k`, in units of the smallest one. -/
def units (w k : ℕ) : ℕ :=
  if k / 2 ^ w = 0 then k % 2 ^ w else (2 ^ w + k % 2 ^ w) * 2 ^ (k / 2 ^ w - 1)

variable {w k d n c : ℕ}

theorem units_of_lt (h : k < 2 ^ w) : units w k = k := by
  rw [units, if_pos (Nat.div_eq_of_lt h), Nat.mod_eq_of_lt h]

theorem units_of_le (h : 2 ^ w ≤ k) :
    units w k = (2 ^ w + k % 2 ^ w) * 2 ^ (k / 2 ^ w - 1) :=
  if_neg (Nat.div_pos h (Nat.two_pow_pos w)).ne'

theorem units_parts {e m : ℕ} (he : 1 ≤ e) (hm : m < 2 ^ w) :
    units w (e * 2 ^ w + m) = (2 ^ w + m) * 2 ^ (e - 1) := by
  have hle : 2 ^ w ≤ e * 2 ^ w + m := by
    have := Nat.mul_le_mul_right (2 ^ w) he
    omega
  have hdiv : (e * 2 ^ w + m) / 2 ^ w = e := by
    rw [Nat.add_comm, Nat.add_mul_div_right _ _ (Nat.two_pow_pos w), Nat.div_eq_of_lt hm, zero_add]
  have hmod : (e * 2 ^ w + m) % 2 ^ w = m := by
    rw [Nat.add_comm, Nat.add_mul_mod_self_right, Nat.mod_eq_of_lt hm]
  rw [units_of_le hle, hdiv, hmod]

/-- The next magnitude is one unit of the last place further. -/
theorem units_succ (w k : ℕ) : units w (k + 1) = units w k + 2 ^ (k / 2 ^ w - 1) := by
  rcases Nat.lt_or_ge k (2 ^ w) with hlt | hle
  · rw [units_of_lt hlt, Nat.div_eq_of_lt hlt, Nat.zero_sub, pow_zero]
    rcases Nat.lt_or_ge (k + 1) (2 ^ w) with hlt' | hle'
    · rw [units_of_lt hlt']
    · have hk : k + 1 = 2 ^ w := by omega
      have h : units w (1 * 2 ^ w + 0) = (2 ^ w + 0) * 2 ^ (1 - 1) :=
        units_parts le_rfl (Nat.two_pow_pos w)
      simpa [hk] using h
  · have hk := Nat.div_add_mod' k (2 ^ w)
    have hmod := Nat.mod_lt k (Nat.two_pow_pos w)
    have hpos : 1 ≤ k / 2 ^ w := Nat.div_pos hle (Nat.two_pow_pos w)
    rw [units_of_le hle]
    rcases Nat.lt_or_ge (k % 2 ^ w + 1) (2 ^ w) with hlt' | hle'
    · rw [show k + 1 = k / 2 ^ w * 2 ^ w + (k % 2 ^ w + 1) by omega, units_parts hpos hlt']
      ring
    · -- the fraction is full, and the next number has the next exponent
      have hfull : k % 2 ^ w + 1 = 2 ^ w := by omega
      rw [show k + 1 = (k / 2 ^ w + 1) * 2 ^ w + 0 by rw [Nat.add_mul]; omega,
        units_parts (by omega) (by positivity), Nat.add_sub_cancel]
      obtain ⟨e, he⟩ : ∃ e, k / 2 ^ w = e + 1 := ⟨k / 2 ^ w - 1, by omega⟩
      have hsum : (2 ^ w + k % 2 ^ w) * 2 ^ e + 2 ^ e = (2 ^ w + (k % 2 ^ w + 1)) * 2 ^ e := by ring
      rw [he, Nat.add_sub_cancel, hsum, hfull]
      ring

theorem units_strictMono (w : ℕ) : StrictMono (units w) :=
  strictMono_nat_of_lt_succ fun k => by
    rw [units_succ]
    exact Nat.lt_add_of_pos_right (Nat.two_pow_pos _)

/-- A larger exponent. -/
theorem units_add_exponent (h : 2 ^ w ≤ k) (c : ℕ) :
    units w (k + c * 2 ^ w) = units w k * 2 ^ c := by
  have hpos : 1 ≤ k / 2 ^ w := Nat.div_pos h (Nat.two_pow_pos w)
  have hmod := Nat.mod_lt k (Nat.two_pow_pos w)
  have hk : k + c * 2 ^ w = (k / 2 ^ w + c) * 2 ^ w + k % 2 ^ w := by
    rw [Nat.add_mul]
    have := Nat.div_add_mod' k (2 ^ w)
    omega
  rw [hk, units_parts (by omega) hmod, units_of_le h, mul_assoc, ← pow_add]
  congr 2
  omega

/-- `d` more bits of fraction, of which the last are `r`. -/
theorem units_mul_add {r : ℕ} (h : 2 ^ w ≤ k) (hr : r < 2 ^ d) :
    units (w + d) (k * 2 ^ d + r) = units w k * 2 ^ d + r * 2 ^ (k / 2 ^ w - 1) := by
  have hpos : 1 ≤ k / 2 ^ w := Nat.div_pos h (Nat.two_pow_pos w)
  have hmod := Nat.mod_lt k (Nat.two_pow_pos w)
  have hlt : k % 2 ^ w * 2 ^ d + r < 2 ^ (w + d) := by
    rw [pow_add]
    nlinarith
  have hk : k * 2 ^ d + r = k / 2 ^ w * 2 ^ (w + d) + (k % 2 ^ w * 2 ^ d + r) := by
    conv_lhs => rw [← Nat.div_add_mod' k (2 ^ w)]
    rw [pow_add]
    ring
  rw [hk, units_parts hpos hlt, units_of_le h, pow_add]
  ring

/-- `n` without its last `d` bits, rounded, and half to even. -/
def roundHalfEven (d n : ℕ) : ℕ :=
  n / 2 ^ d +
    if 2 ^ d < 2 * (n % 2 ^ d) ∨ 2 * (n % 2 ^ d) = 2 ^ d ∧ n / 2 ^ d % 2 = 1 then 1 else 0

section Cut

variable {K : Type*} [Field K] [LinearOrder K] [IsStrictOrderedRing K] {s : K}

theorem strictMono_units_mul (w : ℕ) (hs : 0 < s) : StrictMono fun k => (units w k : K) * s :=
  fun _ _ h => mul_lt_mul_of_pos_right (Nat.cast_lt.2 (units_strictMono w h)) hs

/-- The number lies between two of fewer bits, as far along as the bits that are cut off say. -/
theorem units_cut (w d n : ℕ) (hn : 2 ^ w ≤ n / 2 ^ d) (s : K) :
    (units (w + d) n : K) / 2 ^ d * s =
      units w (n / 2 ^ d) * s +
        (n % 2 ^ d : ℕ) / 2 ^ d * (((2 ^ (n / 2 ^ d / 2 ^ w - 1) : ℕ) : K) * s) := by
  have h2 : (2 : K) ^ d ≠ 0 := by positivity
  conv_lhs => rw [← Nat.div_add_mod' n (2 ^ d)]
  rw [units_mul_add hn (Nat.mod_lt n (Nat.two_pow_pos d))]
  push_cast
  field_simp

theorem cast_mod_div_le_one (d n : ℕ) : ((n % 2 ^ d : ℕ) : K) / 2 ^ d ≤ 1 := by
  rw [div_le_one (by positivity)]
  exact_mod_cast (Nat.mod_lt n (Nat.two_pow_pos d)).le

theorem rounds_roundHalfEven {top : ℕ} (hs : 0 < s) (hn : 2 ^ w ≤ n / 2 ^ d)
    (htop : roundHalfEven d n ≤ top) :
    Rounds (fun k => (units w k : K) * s) top ((units (w + d) n : K) / 2 ^ d * s)
      (roundHalfEven d n) := by
  have hg := strictMono_units_mul (K := K) w hs
  have hcut := units_cut w d n hn s
  have hnext : (units w (n / 2 ^ d + 1) : K) * s =
      units w (n / 2 ^ d) * s + ((2 ^ (n / 2 ^ d / 2 ^ w - 1) : ℕ) : K) * s := by
    rw [units_succ, Nat.cast_add, add_mul]
  -- the fraction of a unit that is cut off, and the unit
  set u : K := ((2 ^ (n / 2 ^ d / 2 ^ w - 1) : ℕ) : K) * s with hu
  set ρ : K := (n % 2 ^ d : ℕ) / 2 ^ d with hρ
  have hupos : 0 < u := mul_pos (by positivity) hs
  have hpow : (0 : K) < 2 ^ d := by positivity
  have hρ0 : 0 ≤ ρ := by positivity
  have hρ1 : ρ ≤ 1 := cast_mod_div_le_one d n
  have hlt : 2 ^ d < 2 * (n % 2 ^ d) ↔ 1 < 2 * ρ := by
    rw [hρ, mul_div_assoc', one_lt_div hpow]
    exact_mod_cast Iff.rfl
  have heq : 2 * (n % 2 ^ d) = 2 ^ d ↔ 2 * ρ = 1 := by
    rw [hρ, mul_div_assoc', div_eq_one_iff_eq hpow.ne']
    exact_mod_cast Iff.rfl
  have hhalf (h : (2 * ρ - 1) * u = 0) : 2 * ρ = 1 :=
    sub_eq_zero.1 ((mul_eq_zero.1 h).resolve_right hupos.ne')
  unfold roundHalfEven at htop ⊢
  by_cases hup : 2 ^ d < 2 * (n % 2 ^ d) ∨ 2 * (n % 2 ^ d) = 2 ^ d ∧ n / 2 ^ d % 2 = 1
  · rw [if_pos hup] at htop ⊢
    rw [hlt, heq] at hup
    refine rounds_of_above hg htop ?_ ?_ fun hmid => ?_
    · rw [hcut, hnext]
      nlinarith
    · rw [hcut, hnext]
      have : 1 ≤ 2 * ρ := hup.elim le_of_lt fun h => h.1.ge
      nlinarith
    · rw [hcut, hnext] at hmid
      obtain h | h := hup
      · exact absurd (hhalf (by linarith)) h.ne'
      · exact Nat.even_add_one.2 (Nat.not_even_iff.2 h.2)
  · rw [if_neg hup, add_zero] at htop ⊢
    rw [hlt, heq] at hup
    obtain ⟨hle, hne⟩ := not_or.1 hup
    refine rounds_of_below hg htop ?_ ?_ fun hmid => ?_
    · rw [hcut]
      nlinarith
    · rw [hcut, hnext]
      have := not_lt.1 hle
      nlinarith
    · rw [hcut, hnext] at hmid
      exact Nat.even_iff.2 (Nat.mod_two_ne_one.1 fun h => hne ⟨hhalf (by linarith), h⟩)

/-- What rounding changes, relative to the number. -/
theorem abs_roundHalfEven_sub_le (hs : 0 < s) (hn : 2 ^ w ≤ n / 2 ^ d) :
    |(units w (roundHalfEven d n) : K) * s - (units (w + d) n : K) / 2 ^ d * s| ≤
      (units (w + d) n : K) / 2 ^ d * s / 2 ^ (w + 1) := by
  have h : Rounds (fun k => (units w k : K) * s) (n / 2 ^ d + 1)
      ((units (w + d) n : K) / 2 ^ d * s) (roundHalfEven d n) :=
    rounds_roundHalfEven hs hn (by unfold roundHalfEven; split_ifs <;> omega)
  have hbelow := h.nearest (n / 2 ^ d) (Nat.le_succ _)
  have habove := h.nearest (n / 2 ^ d + 1) le_rfl
  have hcut := units_cut w d n hn s
  have hlarge : (2 : K) ^ w * (((2 ^ (n / 2 ^ d / 2 ^ w - 1) : ℕ) : K) * s) ≤
      units w (n / 2 ^ d) * s := by
    rw [← mul_assoc, units_of_le hn]
    refine mul_le_mul_of_nonneg_right ?_ hs.le
    push_cast
    nlinarith [pow_pos (two_pos : (0 : K) < 2) (n / 2 ^ d / 2 ^ w - 1)]
  simp only [units_succ, Nat.cast_add, add_mul, hcut] at hbelow habove ⊢
  set u : K := ((2 ^ (n / 2 ^ d / 2 ^ w - 1) : ℕ) : K) * s with hu
  set ρ : K := (n % 2 ^ d : ℕ) / 2 ^ d with hρ
  have hupos : 0 < u := mul_pos (by positivity) hs
  have hρ0 : 0 ≤ ρ := by positivity
  have hρ1 : ρ ≤ 1 := cast_mod_div_le_one d n
  have hsame : (units w (n / 2 ^ d) : K) * s - (units w (n / 2 ^ d) * s + ρ * u) = -(ρ * u) := by
    ring
  have hnext : (units w (n / 2 ^ d) : K) * s + u - (units w (n / 2 ^ d) * s + ρ * u) =
      (1 - ρ) * u := by ring
  rw [hsame, abs_neg, abs_of_nonneg (mul_nonneg hρ0 hupos.le)] at hbelow
  rw [hnext, abs_of_nonneg (mul_nonneg (sub_nonneg.2 hρ1) hupos.le)] at habove
  rw [le_div_iff₀ (by positivity), pow_succ]
  have hpow : (0 : K) < 2 ^ w := by positivity
  calc _ ≤ u / 2 * (2 ^ w * 2) := mul_le_mul_of_nonneg_right (by linarith) (by positivity)
    _ = 2 ^ w * u := by ring
    _ ≤ _ := by linarith [mul_nonneg hρ0 hupos.le]

end Cut

end Rounding
