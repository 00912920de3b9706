import AtomrAccel.Cub.Tile
import Mathlib.Data.BitVec

/-!
# `CubHistogram`

Each block counts its tile in a shared array of 256 bins and adds its counts to the output.  The
bin of an element comes from floating-point arithmetic on the bounds of the request, so it is a
parameter here; the kernel counts an element only when its bin is one of the 256.

* `histogramItems`, `histogramBlock`, `runHistogram`: the kernel and the dispatcher;
* `sharedCount_ne_zero`: a block adds to exactly the bins that its tile hits;
* `runHistogram_inBounds`: the launch stays in bounds exactly when the output has room for all bins
  that are hit.
-/

namespace AtomrAccel

namespace Cub

open Kernel Kernel.Traced

variable {α : Type} (binOf : α → ℤ)

/-- `BINS`. -/
def histogramBins : ℕ := 256

/-- `if (bin >= 0 && bin < BINS) atomicAdd(&s_bins[bin], 1u)`. -/
def countBin (bin : ℤ) : Traced Buf (List (ℕ × BitVec 32)) :=
  if 0 ≤ bin ∧ bin < histogramBins then write .sharedBins bin.toNat 1 else pure []

/-- The loop of thread `t` over its items. -/
def histogramItems (input : ℕ → α) (n b t : ℕ) : List ℕ → Traced Buf (List (ℕ × BitVec 32))
  | [] => pure []
  | i :: items =>
    -- `if (idx >= n) break`
    if n ≤ itemIndex b t i then pure []
    else do
      let v ← read .input input (itemIndex b t i)
      let add ← countBin (binOf v)
      let adds ← histogramItems input n b t items
      return add ++ adds

/-- One block: clear the shared bins, count the tile, add what was counted to the output. -/
def histogramBlock (shared : ℕ → BitVec 32) (input : ℕ → α) (n b : ℕ) :
    Traced Buf (List (ℕ × BitVec 32)) := do
  let cleared ← forEach (List.range blockThreads) fun t => write .sharedBins t 0
  let adds ← forEach (List.range blockThreads) fun t =>
    histogramItems binOf input n b t (List.range itemsPerThread)
  let sBins := accumulate (scatter shared cleared) adds
  forEach (List.range blockThreads) fun t => do
    let count ← read .sharedBins sBins t
    if count ≠ 0 then write .bins t count else pure []

/-- `run_histogram` on an input of length `n`: the bins after the launch.  `num_bins` is not
used. -/
def runHistogram (shared : ℕ → ℕ → BitVec 32) (input : ℕ → α) (bins : ℕ → BitVec 32) (n : ℕ) :
    Traced Buf (ℕ → BitVec 32) := do
  let adds ← forEach (List.range (gridBlocksFor n)) fun b =>
    histogramBlock binOf (shared b) input n b
  return accumulate bins adds

/-! ### What a block counts -/

theorem val_countBin (bin : ℤ) : (countBin bin).val =
    if 0 ≤ bin ∧ bin < histogramBins then [(bin.toNat, 1)] else [] := by
  simp [countBin]

variable (input : ℕ → α) (n b : ℕ)

/-- Leaving the loop at the first item past the end skips nothing, since the items grow. -/
theorem val_histogramItems (t : ℕ) {items : List ℕ} (h : items.Pairwise (· ≤ ·)) :
    (histogramItems binOf input n b t items).val = items.flatMap fun i =>
      if itemIndex b t i < n then (countBin (binOf (input (itemIndex b t i)))).val else [] := by
  induction items with
  | nil => rfl
  | cons i items ih =>
    obtain ⟨hi, hitems⟩ := List.pairwise_cons.1 h
    rw [histogramItems, List.flatMap_cons]
    by_cases hidx : n ≤ itemIndex b t i
    · have hlater : ∀ i' ∈ items, ¬ itemIndex b t i' < n := by
        intro i' hi'
        have hle := hi i' hi'
        simp only [itemIndex, blockThreads] at hidx ⊢
        omega
      rw [if_pos hidx, if_neg (not_lt.2 hidx), List.nil_append, val_pure]
      symm
      rw [List.flatMap_eq_nil_iff]
      exact fun i' hi' => if_neg (hlater i' hi')
    · rw [if_neg hidx, if_pos (not_le.1 hidx), val_bind, val_bind, val_bind, val_pure, ih hitems,
        val_read]

/-- The additions of a block to its shared bins. -/
def blockAdds : List (ℕ × BitVec 32) :=
  (List.range blockThreads).flatMap fun t => (List.range itemsPerThread).flatMap fun i =>
    if itemIndex b t i < n then (countBin (binOf (input (itemIndex b t i)))).val else []

theorem mem_blockAdds {w : ℕ × BitVec 32} : w ∈ blockAdds binOf input n b ↔
    ∃ j < 1024, b * 1024 + j < n ∧ w ∈ (countBin (binOf (input (b * 1024 + j)))).val := by
  have hitems := forall_items b fun idx =>
    ¬ (idx < n ∧ w ∈ (countBin (binOf (input idx))).val)
  have hmem : w ∈ blockAdds binOf input n b ↔ ¬ ∀ t < blockThreads, ∀ i < itemsPerThread,
      ¬ (itemIndex b t i < n ∧ w ∈ (countBin (binOf (input (itemIndex b t i)))).val) := by
    simp only [blockAdds, List.mem_flatMap, List.mem_range]
    push Not
    refine exists_congr fun t => and_congr_right fun _ => exists_congr fun i =>
      and_congr_right fun _ => ?_
    split_ifs with hidx <;> simp [hidx]
  rw [hmem, hitems]
  push Not
  rfl

/-- A block adds ones. -/
theorem blockAdds_ones {w : ℕ × BitVec 32} (hw : w ∈ blockAdds binOf input n b) : w.2 = 1 := by
  obtain ⟨j, -, -, hbin⟩ := (mem_blockAdds binOf input n b).1 hw
  rw [val_countBin] at hbin
  split_ifs at hbin
  · rw [List.mem_singleton.1 hbin]
  · cases hbin

theorem length_flatMap_le {ι γ : Type} {xs : List ι} {f : ι → List γ} {k : ℕ}
    (h : ∀ x ∈ xs, (f x).length ≤ k) : (xs.flatMap f).length ≤ xs.length * k := by
  rw [List.length_flatMap]
  have hsum := List.sum_le_card_nsmul (xs.map fun x => (f x).length) k (by simpa using h)
  simpa using hsum

theorem length_blockAdds : (blockAdds binOf input n b).length ≤ 1024 := by
  have hbin : ∀ bin, (countBin bin).val.length ≤ 1 := by
    intro bin
    rw [val_countBin]
    split_ifs <;> simp
  have hthread : ∀ t ∈ List.range blockThreads, ((List.range itemsPerThread).flatMap fun i =>
      if itemIndex b t i < n then (countBin (binOf (input (itemIndex b t i)))).val else []).length
        ≤ 4 := by
    intro t _
    refine (length_flatMap_le (k := 1) fun i _ => ?_).trans_eq (by simp [itemsPerThread])
    split_ifs
    · exact hbin _
    · exact Nat.zero_le _
  exact (length_flatMap_le hthread).trans_eq (by simp [blockThreads])

/-- The count of bin `t` after the loop of a block. -/
def sharedCount (t : ℕ) : BitVec 32 :=
  (((blockAdds binOf input n b).filter fun w => w.1 = t).map Prod.snd).sum

theorem sum_ones {ws : List (ℕ × BitVec 32)} (h : ∀ w ∈ ws, w.2 = 1) :
    (ws.map Prod.snd).sum = BitVec.ofNat 32 ws.length := by
  induction ws with
  | nil => rfl
  | cons w ws ih =>
    rw [List.map_cons, List.sum_cons, ih fun w' hw' => h w' (List.mem_cons_of_mem _ hw'),
      h w List.mem_cons_self, List.length_cons, Nat.add_comm, BitVec.ofNat_add]
    rfl

theorem sharedCount_eq_length (t : ℕ) : sharedCount binOf input n b t =
    BitVec.ofNat 32 ((blockAdds binOf input n b).filter fun w => w.1 = t).length :=
  sum_ones fun _ hw => blockAdds_ones binOf input n b (List.mem_filter.1 hw).1

/-- A block adds to exactly the bins that its tile hits: the counts are too small to wrap. -/
theorem sharedCount_ne_zero {t : ℕ} (ht : t < histogramBins) :
    sharedCount binOf input n b t ≠ 0 ↔
      ∃ j < 1024, b * 1024 + j < n ∧ binOf (input (b * 1024 + j)) = t := by
  have hlen := (List.length_filter_le (fun w => decide (w.1 = t)) _).trans
    (length_blockAdds binOf input n b)
  have hzero : sharedCount binOf input n b t = 0 ↔
      (blockAdds binOf input n b).filter (fun w => w.1 = t) = [] := by
    rw [sharedCount_eq_length, ← List.length_eq_zero_iff, ← BitVec.toNat_inj,
      BitVec.toNat_ofNat, Nat.mod_eq_of_lt (by omega)]
    rfl
  rw [Ne, hzero, List.filter_eq_nil_iff]
  push Not
  constructor
  · rintro ⟨w, hw, hwt⟩
    obtain ⟨j, hj, hlt, hbin⟩ := (mem_blockAdds binOf input n b).1 hw
    refine ⟨j, hj, hlt, ?_⟩
    rw [val_countBin] at hbin
    split_ifs at hbin with hrange
    · rw [List.mem_singleton.1 hbin] at hwt
      simp only [decide_eq_true_eq] at hwt
      omega
    · cases hbin
  · rintro ⟨j, hj, hlt, hbin⟩
    refine ⟨(t, 1), (mem_blockAdds binOf input n b).2 ⟨j, hj, hlt, ?_⟩, by simp⟩
    rw [val_countBin, hbin, if_pos ⟨Int.natCast_nonneg t, Int.ofNat_lt.2 ht⟩]
    simp

/-! ### The shared bins -/

/-- The loops of the threads, one after the other, make the additions of the block. -/
theorem val_forEach_items : (forEach (List.range blockThreads) fun t =>
    histogramItems binOf input n b t (List.range itemsPerThread)).val =
      blockAdds binOf input n b := by
  rw [val_forEach]
  exact List.flatMap_congr fun t _ =>
    val_histogramItems binOf input n b t (List.pairwise_le_range)

/-- The shared bins after the loop. -/
theorem accumulate_blockAdds (shared : ℕ → BitVec 32) {t : ℕ} (ht : t < blockThreads) :
    accumulate (scatter shared (forEach (List.range blockThreads) fun t =>
      write Buf.sharedBins t (0 : BitVec 32)).val) (blockAdds binOf input n b) t =
      sharedCount binOf input n b t := by
  have hcleared : scatter shared (forEach (List.range blockThreads) fun t =>
      write Buf.sharedBins t (0 : BitVec 32)).val t = 0 := by
    refine scatter_of_agree ⟨(t, 0), ?_, rfl⟩ fun w hw _ => ?_
    · simpa [val_forEach] using ht
    · simp only [val_forEach, val_write, List.mem_flatMap, List.mem_singleton] at hw
      obtain ⟨s, -, rfl⟩ := hw
      rfl
  rw [accumulate_apply, hcleared, zero_add, sharedCount]

/-- The additions of a block to the output. -/
theorem val_histogramBlock (shared : ℕ → BitVec 32) :
    (histogramBlock binOf shared input n b).val =
      (List.range blockThreads).flatMap fun t =>
        if sharedCount binOf input n b t ≠ 0 then [(t, sharedCount binOf input n b t)] else [] := by
  rw [histogramBlock, val_bind, val_bind, val_forEach_items, val_forEach]
  refine List.flatMap_congr fun t ht => ?_
  rw [val_bind, val_read, accumulate_blockAdds binOf input n b shared (List.mem_range.1 ht),
    val_ite, val_write, val_pure]

/-! ### Bounds -/

variable {len : Buf → ℕ} {n}

theorem countBin_inBounds (hshared : len .sharedBins = 256) (bin : ℤ) :
    InBounds len (countBin bin) := by
  rw [countBin, inBounds_ite]
  refine ⟨fun hbin => ?_, fun _ => inBounds_pure _⟩
  rw [inBounds_write, hshared]
  simp only [histogramBins] at hbin
  omega

theorem histogramItems_inBounds (hinput : len .input = n) (hshared : len .sharedBins = 256)
    (t : ℕ) (items : List ℕ) : InBounds len (histogramItems binOf input n b t items) := by
  induction items with
  | nil => exact inBounds_pure _
  | cons i items ih =>
    rw [histogramItems, inBounds_ite]
    refine ⟨fun _ => inBounds_pure _, fun hidx => ?_⟩
    simp only [inBounds_bind, inBounds_read, inBounds_pure, and_true, hinput]
    exact ⟨not_le.1 hidx, countBin_inBounds hshared _, ih⟩

theorem histogramBlock_inBounds (shared : ℕ → BitVec 32) (hinput : len .input = n)
    (hshared : len .sharedBins = 256) :
    InBounds len (histogramBlock binOf shared input n b) ↔
      ∀ t < 256, sharedCount binOf input n b t ≠ 0 → t < len .bins := by
  rw [histogramBlock, inBounds_bind, inBounds_bind]
  have hclear : InBounds len (forEach (List.range blockThreads) fun t =>
      write Buf.sharedBins t (0 : BitVec 32)) := by
    simp [hshared, blockThreads]
  have hcount : InBounds len (forEach (List.range blockThreads) fun t =>
      histogramItems binOf input n b t (List.range itemsPerThread)) := by
    rw [inBounds_forEach]
    exact fun t _ => histogramItems_inBounds binOf input b hinput hshared t _
  rw [and_iff_right hclear, and_iff_right hcount, val_forEach_items, inBounds_forEach]
  simp only [List.mem_range]
  refine forall₂_congr fun t ht => ?_
  have ht256 : t < 256 := ht
  rw [inBounds_bind, inBounds_read, val_read, accumulate_blockAdds binOf input n b shared ht,
    inBounds_ite, inBounds_write, hshared, and_iff_right ht256]
  exact ⟨fun h => h.1, fun h => ⟨h, fun _ => inBounds_pure _⟩⟩

/-- The launch stays in bounds exactly when the output has room for all bins that are hit. -/
theorem runHistogram_inBounds (shared : ℕ → ℕ → BitVec 32) (bins : ℕ → BitVec 32)
    (hinput : len .input = n) (hshared : len .sharedBins = 256) :
    InBounds len (runHistogram binOf shared input bins n) ↔
      ∀ j < min n (gridBlocksFor n * 1024), 0 ≤ binOf (input j) → binOf (input j) < 256 →
        binOf (input j) < len .bins := by
  rw [runHistogram, inBounds_bind, inBounds_forEach, and_iff_left (inBounds_pure _)]
  simp only [List.mem_range, histogramBlock_inBounds binOf input _ _ hinput hshared]
  constructor
  · intro h j hj hlow hhigh
    have hdiv : j / 1024 * 1024 + j % 1024 = j := by omega
    have ht : (binOf (input j)).toNat < 256 := by omega
    have hhit := h (j / 1024) (by omega) _ ht
      ((sharedCount_ne_zero binOf input n (j / 1024) ht).2
        ⟨j % 1024, Nat.mod_lt _ (by decide), by omega, by rw [hdiv]; omega⟩)
    omega
  · intro h b hb t ht hcount
    obtain ⟨j, hj, hlt, hbin⟩ := (sharedCount_ne_zero binOf input n b ht).1 hcount
    have hroom := h (b * 1024 + j) (by omega)
    rw [hbin] at hroom
    exact Int.ofNat_lt.1 (hroom (Int.natCast_nonneg t) (by omega))

end Cub

end AtomrAccel
