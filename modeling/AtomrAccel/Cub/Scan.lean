import AtomrAccel.Cub.Tile
import Mathlib.Data.BitVec

/-!
# `CubScan`

A scan is three launches: each block scans its tile and writes its total, a single block scans the
totals, and a last launch adds the scanned totals back.  Loads and stores are striped while
`cub::BlockScan` scans in blocked order, so inside a tile the two orders agree only as long as no
thread owns a second element.

* `BlockScan`, `BlockScan.Lawful`: `cub::BlockScan` and what CUB documents of it;
* `scanMain`, `scanBlockSums`, `scanFixup`, `runScan`: the kernels and the dispatcher;
* `runScan_inBounds`: when they stay inside their buffers;
* `runScan_correct_iff`: the outputs are the prefix sums, for all inputs of length `n`, exactly
  when `n ≤ 256`.
-/

namespace AtomrAccel

namespace Cub

open Kernel Kernel.Traced

variable {M : Type}

/-- `cub::BlockScan` on 256 threads with four items each. -/
structure BlockScan (M : Type) where
  inclusiveSum : (ℕ → ℕ → M) → ℕ → ℕ → M
  exclusiveSum : (ℕ → ℕ → M) → ℕ → ℕ → M
  total : (ℕ → ℕ → M) → M

/-- What CUB documents where addition is exact: the scans run over the per-thread arrays in blocked
order, and `total` is the sum of all of them. -/
structure BlockScan.Lawful [AddCommMonoid M] (BS : BlockScan M) : Prop where
  inclusiveSum_eq : ∀ data t i, t < blockThreads → i < itemsPerThread →
    BS.inclusiveSum data t i = (blocked data (4 * t + i + 1)).sum
  exclusiveSum_eq : ∀ data t i, t < blockThreads → i < itemsPerThread →
    BS.exclusiveSum data t i = (blocked data (4 * t + i)).sum
  total_eq : ∀ data, BS.total data = (blocked data tileElements).sum

/-- The scan as documented. -/
def BlockScan.documented [AddCommMonoid M] : BlockScan M where
  inclusiveSum data t i := (blocked data (4 * t + i + 1)).sum
  exclusiveSum data t i := (blocked data (4 * t + i)).sum
  total data := (blocked data tileElements).sum

theorem BlockScan.documented_lawful [AddCommMonoid M] : (documented (M := M)).Lawful where
  inclusiveSum_eq _ _ _ _ _ := by rw [documented]
  exclusiveSum_eq _ _ _ _ _ := by rw [documented]
  total_eq _ := by rw [documented]

/-- Whether an element counts in its own prefix. -/
inductive ScanKind
  | inclusive
  | exclusive
  deriving DecidableEq, Repr

/-- The `scan_call` of a kind. -/
def BlockScan.scan (BS : BlockScan M) : ScanKind → (ℕ → ℕ → M) → ℕ → ℕ → M
  | .inclusive => BS.inclusiveSum
  | .exclusive => BS.exclusiveSum

section Kernels

variable [Zero M] [Add M]

/-- The main kernel: per block, the stores to the output and to the block sums. -/
def scanMain (BS : BlockScan M) (kind : ScanKind) (input : ℕ → M) (n grid : ℕ) :
    Traced Buf (List (List (ℕ × M) × List (ℕ × M))) :=
  forEach (List.range grid) fun b => do
    let threadData ← gather blockThreads itemsPerThread (loadItem .input input n 0 b)
    let out ← storeTile .output n b (BS.scan kind threadData)
    let sums ← write .blockSums b (BS.total threadData)
    return [(out, sums)]

/-- The `_block_sums` kernel: one block scans the block totals in place. -/
def scanBlockSums (BS : BlockScan M) (sums : ℕ → M) (nBlocks : ℕ) :
    Traced Buf (List (ℕ × M)) := do
  let threadData ← gather blockThreads itemsPerThread (loadItem .blockSums sums nBlocks 0 0)
  storeTile .blockSums nBlocks 0 (BS.exclusiveSum threadData)

/-- The `_fixup` kernel: every block but the first adds its scanned total. -/
def scanFixup (out sums : ℕ → M) (n grid : ℕ) : Traced Buf (List (ℕ × M)) :=
  forEach (List.range grid) fun b =>
    if b = 0 then pure []
    else forEach (List.range blockThreads) fun t => do
      let carry ← read .blockSums sums b
      forEach (List.range itemsPerThread) fun i =>
        if itemIndex b t i < n then do
          let v ← read .output out (itemIndex b t i)
          write .output (itemIndex b t i) (v + carry)
        else pure []

/-- `run_scan` on an input of length `n`: the output buffer after the three launches. -/
def runScan (BS : BlockScan M) (kind : ScanKind) (input output : ℕ → M) (n : ℕ) :
    Traced Buf (ℕ → M) := do
  let grid := gridBlocksFor n
  let main ← scanMain BS kind input n grid
  let out := scatter output (main.flatMap Prod.fst)
  -- `block_sums` comes from `alloc_zeros`
  let sums := scatter (fun _ => 0) (main.flatMap Prod.snd)
  let scanned ← scanBlockSums BS sums grid
  let fixed ← scanFixup out (scatter sums scanned) n grid
  return scatter out fixed

/-! ### Bounds -/

variable {len : Buf → ℕ} {n : ℕ}

omit [Add M] in
theorem scanMain_inBounds (BS : BlockScan M) (kind : ScanKind) (input : ℕ → M) {grid : ℕ}
    (hinput : len .input = n) (hsums : len .blockSums = grid) :
    InBounds len (scanMain BS kind input n grid) ↔ min n (grid * 1024) ≤ len .output := by
  rw [← forall_tileFits, scanMain, inBounds_forEach]
  simp only [List.mem_range]
  refine forall₂_congr fun b hb => ?_
  rw [inBounds_bind, inBounds_loadTile, inBounds_bind, inBounds_storeTile, inBounds_bind,
    inBounds_write]
  have hload : TileFits n b (len .input) := tileFits_of_le hinput.ge b
  have hsum : b < len .blockSums := hsums.symm ▸ hb
  simp [hload, hsum]

omit [Add M] in
theorem scanBlockSums_inBounds (BS : BlockScan M) (sums : ℕ → M) {grid : ℕ}
    (hsums : len .blockSums = grid) : InBounds len (scanBlockSums BS sums grid) := by
  rw [scanBlockSums, inBounds_bind, inBounds_loadTile, inBounds_storeTile]
  exact ⟨tileFits_of_le hsums.ge 0, tileFits_of_le hsums.ge 0⟩

omit [Zero M] in
theorem scanFixup_inBounds (out sums : ℕ → M) {grid : ℕ} (hsums : len .blockSums = grid)
    (h : min n (grid * 1024) ≤ len .output) : InBounds len (scanFixup out sums n grid) := by
  rw [scanFixup, inBounds_forEach]
  intro b hb
  have hb := List.mem_range.1 hb
  rw [inBounds_ite]
  refine ⟨fun _ => inBounds_pure _, fun _ => ?_⟩
  have hfits := (forall_items b fun idx => idx < n → idx < len .output).2
    (forall_tileFits.2 h b hb)
  simp only [inBounds_forEach, List.mem_range, inBounds_bind, inBounds_read, inBounds_ite,
    inBounds_write, inBounds_pure, implies_true, and_true]
  exact fun t ht => ⟨hsums.symm ▸ hb, fun i hi hlt => ⟨hfits t ht i hi hlt, hfits t ht i hi hlt⟩⟩

/-- The scan stays in bounds exactly when the output has room for what the blocks cover. -/
theorem runScan_inBounds (BS : BlockScan M) (kind : ScanKind) (input output : ℕ → M)
    (hinput : len .input = n) (hsums : len .blockSums = gridBlocksFor n) :
    InBounds len (runScan BS kind input output n) ↔
      min n (gridBlocksFor n * 1024) ≤ len .output := by
  rw [runScan, inBounds_bind, scanMain_inBounds BS kind input hinput hsums]
  refine and_iff_left_of_imp fun h => ?_
  rw [inBounds_bind]
  refine ⟨scanBlockSums_inBounds BS _ hsums, ?_⟩
  rw [inBounds_bind]
  exact ⟨scanFixup_inBounds _ _ hsums h, inBounds_pure _⟩

end Kernels

variable [AddCommMonoid M]

/-- The sum of the inputs up to `i`, with or without `i` itself. -/
def scanSpec (kind : ScanKind) (input : ℕ → M) (i : ℕ) : M :=
  match kind with
  | .inclusive => ((List.range (i + 1)).map input).sum
  | .exclusive => ((List.range i).map input).sum

/-! ### The first tile -/

variable (BS : BlockScan M) (kind : ScanKind)

/-- The output after the main kernel. -/
theorem scatter_scanMain (input output : ℕ → M) (n grid j : ℕ) :
    scatter output ((scanMain BS kind input n grid).val.flatMap Prod.fst) j =
      if j < n ∧ j / 1024 < grid then
        BS.scan kind (tileItem input n 0 (j / 1024)) (j % 256) (j % 1024 / 256)
      else output j := by
  have hval : (scanMain BS kind input n grid).val.flatMap Prod.fst =
      (List.range grid).flatMap fun b =>
        (storeTile .output n b (BS.scan kind (tileItem input n 0 b))).val := by
    simp only [scanMain, val_forEach, List.flatMap_assoc]
    congr 1
    funext b
    simp
  rw [hval]
  exact scatter_tiles _ _ _ _ (fun b => BS.scan kind (tileItem input n 0 b)) j

/-- The fixup kernel leaves the first tile alone. -/
theorem scatter_scanFixup_of_lt (out sums : ℕ → M) (n grid : ℕ) {j : ℕ} (hj : j < 1024) :
    scatter out (scanFixup out sums n grid).val j = out j := by
  refine scatter_of_not_mem fun w hw hwj => ?_
  simp only [scanFixup, val_forEach, List.mem_flatMap, List.mem_range, val_ite, val_pure,
    val_bind, val_read, val_write] at hw
  obtain ⟨b, -, hw⟩ := hw
  split_ifs at hw with hb
  · simp at hw
  · simp only [List.mem_flatMap, List.mem_range] at hw
    obtain ⟨t, -, i, -, hw⟩ := hw
    split_ifs at hw
    · rw [List.mem_singleton] at hw
      subst hw
      simp only [itemIndex, tileElements, blockThreads, itemsPerThread] at hwj
      omega
    · simp at hw

theorem runScan_first_tile (input output : ℕ → M) {n j : ℕ} (hj : j < 1024) (hn : j < n) :
    (runScan BS kind input output n).val j =
      if 0 < gridBlocksFor n then BS.scan kind (tileItem input n 0 0) (j % 256) (j / 256)
      else output j := by
  simp only [runScan, val_bind, val_pure]
  rw [scatter_scanFixup_of_lt _ _ _ _ hj, scatter_scanMain, Nat.div_eq_of_lt hj,
    Nat.mod_eq_of_lt hj]
  simp [hn]

variable {BS}

/-- A block scan at one position. -/
theorem BlockScan.Lawful.scan_eq (hBS : BS.Lawful) (data : ℕ → ℕ → M) {t i : ℕ} (ht : t < 256)
    (hi : i < 4) :
    BS.scan kind data t i =
      (blocked data (match kind with
        | .inclusive => 4 * t + i + 1
        | .exclusive => 4 * t + i)).sum := by
  cases kind with
  | inclusive => exact hBS.inclusiveSum_eq data t i ht hi
  | exclusive => exact hBS.exclusiveSum_eq data t i ht hi

/-! ### Up to one element per thread -/

theorem gridBlocksFor_of_le {n : ℕ} (hn : n ≤ 1024) : gridBlocksFor n = 1 := by
  have hceil : (n + 1023) / 1024 ≤ 1 := by omega
  simp only [gridBlocksFor, tileElements, blockThreads, itemsPerThread]
  norm_num
  omega

theorem blocked_succ_sum (data : ℕ → ℕ → M) (k : ℕ) :
    (blocked data (k + 1)).sum = (blocked data k).sum + data (k / 4) (k % 4) := by
  simp [blocked, List.range_succ, itemsPerThread]

/-- With at most 256 elements, the first item of a thread is its element and the others are
padding. -/
theorem tileItem_of_le {input : ℕ → M} {n : ℕ} (hn : n ≤ 256) (t i : ℕ) (hi : i ≠ 0) :
    tileItem input n 0 0 t i = 0 := by
  refine if_neg ?_
  simp only [itemIndex, tileElements, blockThreads, itemsPerThread]
  omega

theorem sum_blocked_tileItem (input : ℕ → M) {n t : ℕ} (hn : n ≤ 256) (ht : t ≤ n) :
    (blocked (tileItem input n 0 0) (4 * t)).sum = ((List.range t).map input).sum := by
  rw [sum_blocked _ (tileItem_of_le hn)]
  congr 1
  refine List.map_congr_left fun s hs => ?_
  have hst : s < n := lt_of_lt_of_le (List.mem_range.1 hs) ht
  simp [tileItem, itemIndex, hst]

theorem runScan_of_le (hBS : BS.Lawful) (input output : ℕ → M) {n j : ℕ} (hn : n ≤ 256)
    (hj : j < n) :
    (runScan BS kind input output n).val j = scanSpec kind input j := by
  have hdiv : j / 256 = 0 := by omega
  have hmod : j % 256 = j := by omega
  rw [runScan_first_tile BS kind input output (by omega) hj, gridBlocksFor_of_le (by omega),
    if_pos Nat.one_pos, hdiv, hmod, hBS.scan_eq kind _ (by omega) (by omega)]
  cases kind with
  | exclusive => exact sum_blocked_tileItem input hn hj.le
  | inclusive =>
    simp only [scanSpec, add_zero]
    rw [blocked_succ_sum, sum_blocked_tileItem input hn hj.le, List.range_succ, List.map_append,
      List.sum_append]
    have hd : 4 * j / 4 = j := by omega
    have hm : 4 * j % 4 = 0 := by omega
    simp [hd, hm, tileItem, itemIndex, hj]

/-! ### Beyond one element per thread -/

/-- The input with the single entry `a` at position 1. -/
def onlySecond (a : M) (k : ℕ) : M := if k = 1 then a else 0

theorem sum_onlySecond (a : M) (k : ℕ) :
    ((List.range k).map (onlySecond a)).sum = if 1 < k then a else 0 := by
  induction k with
  | zero => simp
  | succ k ih =>
    rw [List.range_succ, List.map_append, List.sum_append, ih]
    rcases lt_trichotomy k 1 with hk | rfl | hk
    · simp [onlySecond, show k = 0 by omega]
    · simp [onlySecond]
    · simp [onlySecond, hk, show ¬ k = 1 by omega, show 0 < k by omega]

/-- Position 256 belongs to thread 0, whose scan has seen nothing of position 1. -/
theorem runScan_onlySecond (hBS : BS.Lawful) (a : M) {n : ℕ} (hn : 256 < n) :
    (runScan BS kind (onlySecond a) (fun _ => 0) n).val 256 = 0 := by
  rw [runScan_first_tile BS kind _ _ (by omega) hn]
  split_ifs
  · rw [hBS.scan_eq kind _ (by omega) (by omega)]
    have hzero : ∀ i, tileItem (onlySecond a) n 0 0 0 i = 0 := by
      intro i
      have hidx : itemIndex 0 0 i ≠ 1 := by
        simp only [itemIndex, blockThreads]
        omega
      simp [tileItem, onlySecond, hidx]
    cases kind <;> simp [blocked, List.range_succ, itemsPerThread, hzero]
  · rfl

/-- **The scan computes the prefix sums of all inputs of length `n` exactly when no thread owns
two of them.** -/
theorem runScan_correct_iff [Nontrivial M] (hBS : BS.Lawful) (n : ℕ) :
    (∀ input output : ℕ → M, ∀ i < n,
      (runScan BS kind input output n).val i = scanSpec kind input i) ↔ n ≤ 256 := by
  constructor
  · intro h
    by_contra hn
    obtain ⟨a, ha⟩ := exists_ne (0 : M)
    have hout := h (onlySecond a) (fun _ => 0) 256 (by omega)
    rw [runScan_onlySecond kind hBS a (by omega)] at hout
    cases kind <;> simp [scanSpec, sum_onlySecond] at hout <;> exact ha hout.symm
  · intro hn input output i hi
    exact runScan_of_le kind hBS input output hn hi

/-- Ones of 32 bits, one element per thread. -/
theorem runScan_correct_256 :
    (runScan BlockScan.documented .inclusive (fun _ => (1 : BitVec 32)) (fun _ => 0) 256).val 255 =
      scanSpec .inclusive (fun _ => 1) 255 := by
  have hne : Nontrivial (BitVec 32) := ⟨0, 1, by decide⟩
  have hlt : 255 < 256 := by decide
  exact (runScan_correct_iff .inclusive BlockScan.documented_lawful 256).2 le_rfl _ _ 255 hlt

/-- One more element, and the sum misses an input. -/
theorem runScan_257_incorrect :
    ¬ ∀ input output : ℕ → BitVec 32, ∀ i < 257,
      (runScan BlockScan.documented .inclusive input output 257).val i =
        scanSpec .inclusive input i := by
  intro h
  have hout := h (onlySecond 1) (fun _ => 0) 256 (by decide)
  rw [runScan_onlySecond _ BlockScan.documented_lawful _ (by decide)] at hout
  simp [scanSpec, sum_onlySecond] at hout

end Cub

end AtomrAccel
