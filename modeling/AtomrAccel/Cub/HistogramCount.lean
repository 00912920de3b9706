import AtomrAccel.Cub.Histogram
import Mathlib.Data.Nat.Count
import Mathlib.Algebra.Order.Floor.Defs

/-!
# `CubHistogram`: what the bins count

With exact numbers for `float`, bin `b` should hold the number of elements `v` with
`lower ≤ v < upper` that lie in the `b`-th of 256 equal parts of the range.  The kernel converts
`(v - lower) * scale` to an integer, which rounds towards zero, and tests the range afterwards: an
element less than one part below `lower` ends up in bin `0`.

* `toInt32`, `histogramBin`: the bin of an element;
* `runHistogram_apply`: each bin counts, modulo `2 ^ 32`, the elements of the grid with its number;
* `InBin`, `JustBelow`: what a bin should count, and what bin `0` counts besides;
* `histogram_counts_iff`: the bins are right exactly when the elements just below the range and the
  elements the grid leaves out cancel modulo `2 ^ 32`.
-/

namespace AtomrAccel

namespace Cub

open Kernel Kernel.Traced

/-! ### The bin of an element -/

/-- `(int)x`: rounds towards zero, and saturates outside the range of `int`. -/
def toInt32 (x : ℚ) : ℤ := max (-2 ^ 31) (min (2 ^ 31 - 1) (if 0 ≤ x then ⌊x⌋ else ⌈x⌉))

/-- `(int)((v - lower_level) * scale)`. -/
def histogramBin (lower upper v : ℚ) : ℤ := toInt32 ((v - lower) * (histogramBins / (upper - lower)))

/-- `v` lies in part `b` of the range. -/
def InBin (lower upper : ℚ) (b : ℕ) (v : ℚ) : Prop :=
  lower ≤ v ∧ v < upper ∧ ⌊(v - lower) * 256 / (upper - lower)⌋ = b

/-- `v` lies below the range, by less than one part. -/
def JustBelow (lower upper v : ℚ) : Prop := lower - (upper - lower) / 256 < v ∧ v < lower

instance (lower upper : ℚ) (b : ℕ) : DecidablePred (InBin lower upper b) :=
  fun _ => inferInstanceAs (Decidable (_ ∧ _))

instance (lower upper : ℚ) : DecidablePred (JustBelow lower upper) :=
  fun _ => inferInstanceAs (Decidable (_ ∧ _))

theorem toInt32_eq_iff (x : ℚ) {b : ℕ} (hb : b < 256) :
    toInt32 x = b ↔ (0 ≤ x ∧ ⌊x⌋ = b) ∨ (b = 0 ∧ -1 < x ∧ x < 0) := by
  unfold toInt32
  by_cases hx : 0 ≤ x
  · have hfloor : 0 ≤ ⌊x⌋ := Int.floor_nonneg.2 hx
    rw [if_pos hx]
    constructor
    · intro h
      exact .inl ⟨hx, by omega⟩
    · rintro (⟨-, h⟩ | ⟨-, -, hneg⟩)
      · omega
      · exact absurd hneg (not_lt.2 hx)
  · have hneg : x < 0 := not_le.1 hx
    have hceil : ⌈x⌉ ≤ 0 := Int.ceil_le.2 (by exact_mod_cast hneg.le)
    have hone : ⌈x⌉ = 0 ↔ -1 < x := by
      rw [← Int.cast_one, ← Int.cast_neg, ← Int.lt_ceil]
      omega
    rw [if_neg hx]
    constructor
    · intro h
      exact .inr ⟨by omega, hone.1 (by omega), hneg⟩
    · rintro (⟨hpos, -⟩ | ⟨rfl, hlow, -⟩)
      · exact absurd hpos hx
      · rw [hone.2 hlow]
        rfl

/-- Bin `0` takes what lies just below the range besides its own part. -/
theorem histogramBin_eq_iff {lower upper : ℚ} (h : lower < upper) (v : ℚ) {b : ℕ} (hb : b < 256) :
    histogramBin lower upper v = b ↔
      InBin lower upper b v ∨ (b = 0 ∧ JustBelow lower upper v) := by
  have hwidth : 0 < upper - lower := sub_pos.2 h
  have hx : (v - lower) * (histogramBins / (upper - lower)) =
      (v - lower) * 256 / (upper - lower) := by
    rw [← mul_div_assoc]
    rfl
  have hnonneg : 0 ≤ (v - lower) * 256 / (upper - lower) ↔ lower ≤ v := by
    rw [le_div_iff₀ hwidth]
    constructor <;> intro hle <;> linarith
  have hneg : (v - lower) * 256 / (upper - lower) < 0 ↔ v < lower := by
    rw [← not_le, hnonneg, not_le]
  have hlow : -1 < (v - lower) * 256 / (upper - lower) ↔ lower - (upper - lower) / 256 < v := by
    rw [lt_div_iff₀ hwidth]
    constructor <;> intro hlt <;> linarith
  have hhigh : ⌊(v - lower) * 256 / (upper - lower)⌋ = b → v < upper := by
    intro hfloor
    have hlt := (Int.floor_lt (z := 256)).1 (show ⌊(v - lower) * 256 / (upper - lower)⌋ < 256 by omega)
    rw [div_lt_iff₀ hwidth] at hlt
    push_cast at hlt
    linarith
  unfold histogramBin InBin JustBelow
  rw [hx, toInt32_eq_iff _ hb, hnonneg, hneg, hlow]
  constructor
  · rintro (⟨hle, hfloor⟩ | hbelow)
    · exact .inl ⟨hle, hhigh hfloor, hfloor⟩
    · exact .inr hbelow
  · rintro (⟨hle, -, hfloor⟩ | hbelow)
    · exact .inl ⟨hle, hfloor⟩
    · exact .inr hbelow

/-! ### What the bins hold -/

section Counts

variable {α : Type} (binOf : α → ℤ) (input : ℕ → α) (n : ℕ)

/-- Element `j` of the input exists and has bin `t`. -/
def Hits (t j : ℕ) : Prop := j < n ∧ binOf (input j) = t

instance (t : ℕ) : DecidablePred (Hits binOf input n t) :=
  fun _ => inferInstanceAs (Decidable (_ ∧ _))

/-- The addition that element `j` causes. -/
def addOf (j : ℕ) : List (ℕ × BitVec 32) :=
  if j < n then (countBin (binOf (input j))).val else []

/-- The additions of a block, in the order of its elements. -/
theorem blockAdds_perm (b : ℕ) : (blockAdds binOf input n b).Perm
    ((List.range 1024).flatMap fun j => addOf binOf input n (b * 1024 + j)) := by
  have hthread : ∀ t < 256, ((List.range itemsPerThread).flatMap fun i =>
      addOf binOf input n (itemIndex b t i)) =
        (strideFrom t 1024).flatMap fun j => addOf binOf input n (b * 1024 + j) := by
    intro t ht
    have hfour : (1024 - t + 255) / 256 = itemsPerThread := by
      simp only [itemsPerThread]
      omega
    rw [strideFrom, hfour, List.flatMap_map]
    refine List.flatMap_congr fun i _ => ?_
    have hidx : itemIndex b t i = b * 1024 + (t + 256 * i) := by
      simp only [itemIndex, tileElements, blockThreads, itemsPerThread]
      omega
    rw [hidx]
  have hblock : blockAdds binOf input n b =
      ((List.range 256).flatMap fun t => strideFrom t 1024).flatMap fun j =>
        addOf binOf input n (b * 1024 + j) := by
    rw [List.flatMap_assoc]
    exact List.flatMap_congr fun t ht => hthread t (List.mem_range.1 ht)
  rw [hblock]
  exact (strides_perm 1024).flatMap_right _

/-- The additions to bin `t` among those of some elements. -/
theorem length_filter_addOf {t : ℕ} (ht : t < histogramBins) (j : ℕ) :
    ((addOf binOf input n j).filter fun w => w.1 = t).length =
      if Hits binOf input n t j then 1 else 0 := by
  unfold addOf
  by_cases hj : j < n
  · rw [if_pos hj, val_countBin]
    by_cases hbin : binOf (input j) = t
    · have hhit : Hits binOf input n t j := ⟨hj, hbin⟩
      have hrange : 0 ≤ binOf (input j) ∧ binOf (input j) < histogramBins := by omega
      rw [if_pos hrange, if_pos hhit]
      simp [hbin]
    · have hmiss : ¬ Hits binOf input n t j := fun h => hbin h.2
      rw [if_neg hmiss]
      split_ifs with hrange
      · have hne : (binOf (input j)).toNat ≠ t := by omega
        simp [hne]
      · rfl
  · have hmiss : ¬ Hits binOf input n t j := fun h => hj h.1
    rw [if_neg hj, if_neg hmiss]
    rfl

/-- A block counts the hits of its tile. -/
theorem sharedCount_eq {t : ℕ} (ht : t < histogramBins) (b : ℕ) :
    sharedCount binOf input n b t =
      BitVec.ofNat 32 (Nat.count (fun j => Hits binOf input n t (b * 1024 + j)) 1024) := by
  have hcount : ∀ m, (((List.range m).flatMap fun j =>
      addOf binOf input n (b * 1024 + j)).filter fun w => w.1 = t).length =
        Nat.count (fun j => Hits binOf input n t (b * 1024 + j)) m := by
    intro m
    induction m with
    | zero => rfl
    | succ m ih =>
      rw [List.range_succ, List.flatMap_append, List.filter_append, List.length_append, ih,
        Nat.count_succ, List.flatMap_singleton, length_filter_addOf binOf input n ht]
  rw [sharedCount_eq_length, ((blockAdds_perm binOf input n b).filter _).length_eq, hcount]

/-- **Each bin holds the number of its hits in the grid, modulo `2 ^ 32`.** -/
theorem runHistogram_apply (shared : ℕ → ℕ → BitVec 32) (bins : ℕ → BitVec 32) {t : ℕ}
    (ht : t < histogramBins) :
    (runHistogram binOf shared input bins n).val t =
      bins t + BitVec.ofNat 32 (Nat.count (Hits binOf input n t) (gridBlocksFor n * 1024)) := by
  have hblock : ∀ b, (((histogramBlock binOf (shared b) input n b).val.filter
      fun w => w.1 = t).map Prod.snd).sum = sharedCount binOf input n b t := by
    intro b
    have hkey : ∀ s, ∀ w ∈ (if sharedCount binOf input n b s ≠ 0 then
        [(s, sharedCount binOf input n b s)] else []), w.1 = s := by
      intro s w hw
      split_ifs at hw
      · rw [List.mem_singleton.1 hw]
      · cases hw
    rw [val_histogramBlock, filter_stores hkey, if_pos (show t < blockThreads from ht)]
    split_ifs with hzero
    · simp
    · simpa using (not_not.1 hzero).symm
  have hgrid : ∀ g, ((((List.range g).flatMap fun b =>
      (histogramBlock binOf (shared b) input n b).val).filter fun w => w.1 = t).map Prod.snd).sum =
        BitVec.ofNat 32 (Nat.count (Hits binOf input n t) (g * 1024)) := by
    intro g
    induction g with
    | zero => rw [Nat.zero_mul, Nat.count_zero]; rfl
    | succ g ih =>
      rw [List.range_succ, List.flatMap_append, List.filter_append, List.map_append,
        List.sum_append, ih, List.flatMap_singleton, hblock, sharedCount_eq binOf input n ht,
        Nat.succ_mul, Nat.count_add, BitVec.ofNat_add]
  rw [runHistogram, val_bind, val_pure, accumulate_apply, val_forEach, hgrid]

/-- The elements of the input that the grid covers. -/
def coveredBy (n : ℕ) : ℕ := min n (gridBlocksFor n * 1024)

theorem coveredBy_eq (hn : n ≤ (2 ^ 32 - 1) * 1024) : coveredBy n = n := by
  simp only [coveredBy, gridBlocksFor, tileElements, blockThreads, itemsPerThread]
  omega

theorem count_hits (t m : ℕ) :
    Nat.count (Hits binOf input n t) m = Nat.count (fun j => binOf (input j) = t) (min n m) := by
  induction m with
  | zero => simp
  | succ m ih =>
    rw [Nat.count_succ, ih]
    by_cases hm : m < n
    · have hhit : Hits binOf input n t m ↔ binOf (input m) = t := and_iff_right hm
      have hmin : min n (m + 1) = min n m + 1 := by omega
      have hmin' : min n m = m := by omega
      rw [hmin, Nat.count_succ, hmin']
      simp only [hhit]
    · have hmiss : ¬ Hits binOf input n t m := fun h => hm h.1
      have hmin : min n (m + 1) = min n m := by omega
      rw [hmin, if_neg hmiss, Nat.add_zero]

end Counts

/-! ### Exactly when the counts are right -/

section Exact

variable {lower upper : ℚ} (h : lower < upper) (input : ℕ → ℚ)
include h

/-- Bin `t` counts its part of the range, and bin `0` what lies just below. -/
theorem count_histogramBin {t : ℕ} (ht : t < 256) (c : ℕ) :
    Nat.count (fun j => histogramBin lower upper (input j) = t) c =
      Nat.count (fun j => InBin lower upper t (input j)) c +
        if t = 0 then Nat.count (fun j => JustBelow lower upper (input j)) c else 0 := by
  induction c with
  | zero => simp
  | succ c ih =>
    have hbin := histogramBin_eq_iff h (input c) ht
    rw [Nat.count_succ, Nat.count_succ, Nat.count_succ, ih]
    by_cases hin : InBin lower upper t (input c)
    · have hnot : ¬ JustBelow lower upper (input c) := fun hbelow => absurd hin.1 (not_le.2 hbelow.2)
      rw [if_pos (hbin.2 (.inl hin)), if_pos hin, if_neg hnot]
      simp only [Nat.add_zero]
      omega
    · rw [if_neg hin]
      by_cases hbelow : t = 0 ∧ JustBelow lower upper (input c)
      · rw [if_pos (hbin.2 (.inr hbelow)), if_pos hbelow.1, if_pos hbelow.1, if_pos hbelow.2]
        omega
      · rw [if_neg (mt hbin.1 (not_or.2 ⟨hin, hbelow⟩))]
        by_cases hzero : t = 0
        · rw [if_pos hzero, if_pos hzero, if_neg fun hj => hbelow ⟨hzero, hj⟩]
          omega
        · rw [if_neg hzero, if_neg hzero]

/-- **The bins of a launch over a cleared output are right exactly when, in each bin, what is
counted in excess and what the grid leaves out agree modulo `2 ^ 32`.** -/
theorem histogram_counts_iff (shared : ℕ → ℕ → BitVec 32) (n : ℕ) :
    (∀ t < 256, (runHistogram (histogramBin lower upper) shared input (fun _ => 0) n).val t =
        BitVec.ofNat 32 (Nat.count (fun j => InBin lower upper t (input j)) n)) ↔
      ∀ t < 256, (if t = 0 then
          Nat.count (fun j => JustBelow lower upper (input j)) (coveredBy n) else 0) ≡
        Nat.count (fun j => InBin lower upper t (input (coveredBy n + j))) (n - coveredBy n)
          [MOD 2 ^ 32] := by
  refine forall₂_congr fun t ht => ?_
  have hsplit : n = coveredBy n + (n - coveredBy n) := by
    unfold coveredBy
    omega
  have hwhole : Nat.count (fun j => InBin lower upper t (input j)) n =
      Nat.count (fun j => InBin lower upper t (input j)) (coveredBy n) +
        Nat.count (fun j => InBin lower upper t (input (coveredBy n + j))) (n - coveredBy n) := by
    rw [← Nat.count_add, ← hsplit]
  rw [runHistogram_apply _ _ _ _ _ ht, count_hits, ← coveredBy, count_histogramBin h input ht,
    hwhole, zero_add, ← BitVec.toNat_inj, BitVec.toNat_ofNat, BitVec.toNat_ofNat]
  exact Nat.ModEq.add_iff_left rfl

end Exact

/-- Two samples in the first and the last part of the range, one on the upper bound and one more
than a part below the lower one. -/
theorem histogram_counts_four :
    (List.range 256).map (runHistogram (histogramBin 0 256) (fun _ _ => 0)
        (fun j => [0, 511 / 2, 256, -2].getD j 0) (fun _ => 0) 4).val =
      (List.range 256).map fun t => BitVec.ofNat 32
        (Nat.count (fun j => InBin 0 256 t ([0, 511 / 2, 256, -2].getD j 0)) 4) := by
  refine List.map_congr_left fun t ht => ?_
  refine (histogram_counts_iff (by norm_num) _ _ 4).2 (fun t _ => ?_) t (List.mem_range.1 ht)
  rw [coveredBy_eq 4 (by decide), Nat.sub_self, Nat.count_zero]
  split_ifs
  · decide +kernel
  · rfl

/-- A sample half a part below the range is counted in bin `0`. -/
theorem histogram_counts_below :
    (runHistogram (histogramBin 0 256) (fun _ _ => 0) (fun _ => -1 / 2) (fun _ => 0) 1).val 0 ≠
      BitVec.ofNat 32 (Nat.count (fun _ => InBin 0 256 0 (-1 / 2)) 1) := by
  have hbin : histogramBin 0 256 (-1 / 2) = (0 : ℕ) :=
    (histogramBin_eq_iff (by norm_num) _ (by decide)).2 (.inr ⟨rfl, by norm_num, by norm_num⟩)
  have hnot : ¬ InBin 0 256 0 (-1 / 2) := fun h => absurd h.1 (by norm_num)
  have hone : min 1 (gridBlocksFor 1 * 1024) = 1 := by decide
  rw [runHistogram_apply _ _ _ _ _ (by decide), count_hits, hone, Nat.count_one, Nat.count_one,
    if_pos hbin, if_neg hnot]
  decide

end Cub

end AtomrAccel
