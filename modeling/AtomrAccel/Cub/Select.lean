import AtomrAccel.Lib.Compact
import AtomrAccel.Cub.Scan

/-!
# `CubSelect` and `CubPartition`

The single-tile kernels that compact: an item is kept by its flag and stored at the exclusive sum
of the flags before it.  The flags are loaded striped and summed in blocked order.

* `selectFlagged`, `selectUnique`, `partitionFlagged`: the three kernels;
* `Compacts`, `Partitions`: what they are for, whatever the order of the threads' stores;
* `selectFlagged_inBounds`, `selectUnique_inBounds`, `partitionFlagged_inBounds`: when they stay
  inside their buffers;
* `select_correct_iff`: each of the three does it for all inputs of length `n` exactly when
  `n ≤ 256`.
-/

namespace AtomrAccel

namespace Cub

open Kernel Kernel.Traced

variable {α : Type} [Zero α]

/-- `cub::BlockScan<unsigned int, 256>`. -/
abbrev FlagScan := BlockScan (BitVec 32)

/-- `(idx < n && d_flags[idx]) ? 1u : 0u`. -/
def loadFlag (flags : ℕ → UInt8) (n t i : ℕ) : Traced Buf (BitVec 32) :=
  if itemIndex 0 t i < n then do
    let flag ← read .flags flags (itemIndex 0 t i)
    return if flag ≠ 0 then 1 else 0
  else return 0

/-- The flag of an item in a `Unique` select: the first item of each run. -/
def loadHeadFlag [BEq α] (input : ℕ → α) (n t i : ℕ) : Traced Buf (BitVec 32) :=
  let idx := itemIndex 0 t i
  if idx = 0 then return if idx < n then 1 else 0
  else if idx < n then do
    let x ← read .input input idx
    let y ← read .input input (idx - 1)
    return if x != y then 1 else 0
  else return 0

/-- `if (idx < n && thread_flag[i]) d_out[thread_offset[i]] = thread_in[i]`. -/
def storeSelected (n : ℕ) (threadIn : ℕ → ℕ → α) (flag offset : ℕ → ℕ → BitVec 32) :
    Traced Buf (List (ℕ × α)) :=
  forEach (List.range blockThreads) fun t =>
    forEach (List.range itemsPerThread) fun i =>
      if itemIndex 0 t i < n ∧ flag t i ≠ 0 then write .output (offset t i).toNat (threadIn t i)
      else pure []

/-- The end of both select kernels: scan the flags, store the kept items and their number. -/
def selectTail (BS : FlagScan) (n : ℕ) (threadIn : ℕ → ℕ → α) (threadFlag : ℕ → ℕ → BitVec 32) :
    Traced Buf (List (ℕ × α) × List (ℕ × BitVec 32)) := do
  let out ← storeSelected n threadIn threadFlag (BS.exclusiveSum threadFlag)
  let num ← write .numSelected 0 (BS.total threadFlag)
  return (out, num)

/-- The `select_flagged` kernel: the stores to the output and to the counter. -/
def selectFlagged (BS : FlagScan) (input : ℕ → α) (flags : ℕ → UInt8) (n : ℕ) :
    Traced Buf (List (ℕ × α) × List (ℕ × BitVec 32)) := do
  let threadIn ← gather blockThreads itemsPerThread (loadItem .input input n 0 0)
  let threadFlag ← gather blockThreads itemsPerThread (loadFlag flags n)
  selectTail BS n threadIn threadFlag

/-- The `select_unique` kernel. -/
def selectUnique [BEq α] (BS : FlagScan) (input : ℕ → α) (n : ℕ) :
    Traced Buf (List (ℕ × α) × List (ℕ × BitVec 32)) := do
  let threadIn ← gather blockThreads itemsPerThread (loadItem .input input n 0 0)
  let threadFlag ← gather blockThreads itemsPerThread (loadHeadFlag input n)
  selectTail BS n threadIn threadFlag

/-- `n - 1 - (idx - thread_offset[i])`, in 32-bit arithmetic. -/
def rejectIndex (n idx : ℕ) (offset : BitVec 32) : ℕ :=
  (BitVec.ofNat 32 n - 1 - (BitVec.ofNat 32 idx - offset)).toNat

/-- The `partition_flagged` kernel. -/
def partitionFlagged (BS : FlagScan) (input : ℕ → α) (flags : ℕ → UInt8) (n : ℕ) :
    Traced Buf (List (ℕ × α) × List (ℕ × BitVec 32)) := do
  let threadIn ← gather blockThreads itemsPerThread (loadItem .input input n 0 0)
  let threadFlag ← gather blockThreads itemsPerThread (loadFlag flags n)
  let offset := BS.exclusiveSum threadFlag
  let out ← forEach (List.range blockThreads) fun t =>
    forEach (List.range itemsPerThread) fun i =>
      if itemIndex 0 t i < n then
        if threadFlag t i ≠ 0 then write .output (offset t i).toNat (threadIn t i)
        else write .output (rejectIndex n (itemIndex 0 t i) (offset t i)) (threadIn t i)
      else pure []
  let num ← write .numSelected 0 (BS.total threadFlag)
  return (out, num)

/-! ### What the kernels are for -/

/-- The positions a `Flagged` request keeps. -/
def flagged (flags : ℕ → UInt8) (j : ℕ) : Bool := flags j ≠ 0

/-- The positions a `Unique` request keeps: the first of every run of equal neighbours. -/
def runHead [BEq α] (input : ℕ → α) (j : ℕ) : Bool := j = 0 || input j != input (j - 1)

/-- In every order, the stores leave the kept elements in front, in input order, and the counter
at their number. -/
def Compacts (keep : ℕ → Bool) (input : ℕ → α) (n : ℕ)
    (stores : List (ℕ × α) × List (ℕ × BitVec 32)) : Prop :=
  ∀ (out₀ : ℕ → α) (num₀ : ℕ → BitVec 32) (ws : List (ℕ × α)), ws.Perm stores.1 →
    (∀ j x, ((Compact.kept keep n).map input)[j]? = some x → scatter out₀ ws j = x) ∧
      scatter num₀ stores.2 0 = BitVec.ofNat 32 (Compact.kept keep n).length

/-- In every order, the stores leave the kept elements in front and the others behind them in
reverse; no place is stored to twice and none below `n` is left out. -/
def Partitions (keep : ℕ → Bool) (input : ℕ → α) (n : ℕ)
    (stores : List (ℕ × α) × List (ℕ × BitVec 32)) : Prop :=
  ∀ (out₀ : ℕ → α) (num₀ : ℕ → BitVec 32) (ws : List (ℕ × α)), ws.Perm stores.1 →
    (ws.map Prod.fst).Perm (List.range n) ∧
      (∀ j x, ((Compact.layout keep n).map input)[j]? = some x → scatter out₀ ws j = x) ∧
      scatter num₀ stores.2 0 = BitVec.ofNat 32 (Compact.kept keep n).length

/-! ### Flags and their sums -/

section Flags

variable (keep : ℕ → Bool)

/-- The per-thread flags, as both loads compute them. -/
def keepFlag (n t i : ℕ) : BitVec 32 :=
  if itemIndex 0 t i < n ∧ keep (itemIndex 0 t i) = true then 1 else 0

theorem val_loadFlag (flags : ℕ → UInt8) (n t i : ℕ) :
    (loadFlag flags n t i).val = keepFlag (flagged flags) n t i := by
  simp only [loadFlag, keepFlag, flagged, val_ite, val_bind, val_read, val_pure]
  by_cases h : itemIndex 0 t i < n
  · by_cases hf : flags (itemIndex 0 t i) = 0 <;> simp [h, hf]
  · simp [h]

omit [Zero α] in
theorem val_loadHeadFlag [BEq α] (input : ℕ → α) (n t i : ℕ) :
    (loadHeadFlag input n t i).val = keepFlag (runHead input) n t i := by
  simp only [loadHeadFlag, keepFlag, runHead, val_ite, val_bind, val_read, val_pure]
  by_cases h0 : itemIndex 0 t i = 0
  · simp [h0]
  by_cases h : itemIndex 0 t i < n
  · simp only [h, h0, if_true, if_false, true_and, decide_false, Bool.false_or]
    congr
  · simp [h, h0]

theorem keepFlag_ne_zero {n t i : ℕ} :
    keepFlag keep n t i ≠ 0 ↔ itemIndex 0 t i < n ∧ keep (itemIndex 0 t i) = true := by
  unfold keepFlag
  split_ifs with h <;> simp [h]

theorem sum_indicator (p : ℕ → Bool) (k : ℕ) :
    ((List.range k).map fun s => if p s = true then (1 : BitVec 32) else 0).sum =
      BitVec.ofNat 32 (Compact.rank p k) := by
  induction k with
  | zero => rfl
  | succ k ih =>
    rw [List.range_succ, List.map_append, List.sum_append, ih, Compact.rank_succ]
    cases hp : p k <;> simp [hp, BitVec.ofNat_add]

theorem sum_flags (n k : ℕ) :
    ((List.range k).map fun s => if s < n ∧ keep s = true then (1 : BitVec 32) else 0).sum =
      BitVec.ofNat 32 (Compact.rank keep (min k n)) := by
  rw [← Compact.rank_lt_and, ← sum_indicator]
  simp only [Bool.and_eq_true, decide_eq_true_eq]

variable {keep} {BS : FlagScan} (hBS : BS.Lawful) {n : ℕ}
include hBS

/-- The number of kept items, whatever the arrangement. -/
theorem total_keepFlag (hn : n ≤ 1024) :
    BS.total (keepFlag keep n) = BitVec.ofNat 32 (Compact.kept keep n).length := by
  have hsum := (blocked_perm (keepFlag keep n)).sum_eq
  have hstriped : ∀ j, keepFlag keep n (j % 256) (j / 256) =
      if j < n ∧ keep j = true then 1 else 0 := by
    intro j
    rw [keepFlag, itemIndex_striped, Nat.zero_mul, Nat.zero_add]
  simp only [hstriped] at hsum
  rw [hBS.total_eq, hsum, sum_flags, show min tileElements n = n from Nat.min_eq_right hn]
  rfl

/-- With one element per thread, the offset of an item is its rank. -/
theorem exclusiveSum_keepFlag (hn : n ≤ 256) {t : ℕ} (ht : t < n) :
    BS.exclusiveSum (keepFlag keep n) t 0 = BitVec.ofNat 32 (Compact.rank keep t) := by
  have hpad : ∀ t i, i ≠ 0 → keepFlag keep n t i = 0 := by
    intro t i hi
    refine if_neg fun h => ?_
    have hlt := h.1
    simp only [itemIndex, blockThreads] at hlt
    omega
  rw [hBS.exclusiveSum_eq _ _ _ (show t < 256 by omega) (by decide), add_zero,
    sum_blocked _ hpad]
  have hfirst : ∀ s, keepFlag keep n s 0 = if s < n ∧ keep s = true then 1 else 0 := by
    intro s
    simp [keepFlag, itemIndex]
  simp only [hfirst]
  rw [sum_flags, Nat.min_eq_left ht.le]

omit hBS in
theorem toNat_rank {t : ℕ} (ht : t < 256) :
    (BitVec.ofNat 32 (Compact.rank keep t)).toNat = Compact.rank keep t := by
  have hle := Compact.rank_le keep t
  rw [BitVec.toNat_ofNat]
  exact Nat.mod_eq_of_lt (by omega)

/-- The offset of position 256 counts position 0 only. -/
theorem exclusiveSum_keepFlag_256 (hn : 256 < n) :
    (BS.exclusiveSum (keepFlag keep n) 0 1).toNat = Compact.rank keep 1 := by
  rw [hBS.exclusiveSum_eq _ _ _ (by decide) (by decide)]
  have hpos : 0 < n := by omega
  have hrank : Compact.rank keep 1 = if keep 0 = true then 1 else 0 := by
    rw [Compact.rank_succ]
    simp [Compact.rank]
  rw [hrank]
  cases hk : keep 0 <;> simp [blocked, itemsPerThread, keepFlag, itemIndex, hk, hpos]

/-- The kept items, by their place in the blocked order. -/
def keepsBlocked (keep : ℕ → Bool) (n r : ℕ) : Bool :=
  itemIndex 0 (r / 4) (r % 4) < n && keep (itemIndex 0 (r / 4) (r % 4))

omit hBS in
theorem sum_blocked_keepFlag (k : ℕ) : (blocked (keepFlag keep n) k).sum =
    BitVec.ofNat 32 (Compact.rank (keepsBlocked keep n) k) := by
  rw [← sum_indicator]
  refine congrArg List.sum (List.map_congr_left fun r _ => if_congr ?_ rfl rfl)
  simp [keepsBlocked, itemsPerThread]

/-- The offset of an item is the number of kept items before it in the blocked order. -/
theorem toNat_exclusiveSum {t i : ℕ} (ht : t < 256) (hi : i < 4) :
    (BS.exclusiveSum (keepFlag keep n) t i).toNat =
      Compact.rank (keepsBlocked keep n) (4 * t + i) := by
  have hle := Compact.rank_le (keepsBlocked keep n) (4 * t + i)
  rw [hBS.exclusiveSum_eq _ _ _ ht hi, sum_blocked_keepFlag, BitVec.toNat_ofNat]
  exact Nat.mod_eq_of_lt (by omega)

/-- The blocked order keeps as many items as the input order. -/
theorem rank_keepsBlocked (hn : n ≤ 1024) :
    Compact.rank (keepsBlocked keep n) 1024 = (Compact.kept keep n).length := by
  have htotal : BS.total (keepFlag keep n) = _ := total_keepFlag hBS hn
  rw [hBS.total_eq, sum_blocked_keepFlag] at htotal
  have hle := Compact.rank_le (keepsBlocked keep n) tileElements
  have hkept := Compact.rank_le keep n
  have hnat := congrArg BitVec.toNat htotal
  rw [BitVec.toNat_ofNat, BitVec.toNat_ofNat, Nat.mod_eq_of_lt, Nat.mod_eq_of_lt] at hnat
  · exact hnat
  · change Compact.rank keep n < 2 ^ 32
    omega
  · change _ ≤ 1024 at hle
    omega

end Flags

/-! ### The stores -/

section Stores

variable {γ : Type} {n : ℕ}

/-- With one element per thread, the loop over threads and items is a loop over the elements. -/
theorem flatMap_items_of_le (hn : n ≤ 256) (f : ℕ → ℕ → List γ) :
    ((List.range blockThreads).flatMap fun t => (List.range itemsPerThread).flatMap fun i =>
      if itemIndex 0 t i < n then f t i else []) = (List.range n).flatMap fun t => f t 0 := by
  have hitems : ∀ t, ((List.range itemsPerThread).flatMap fun i =>
      if itemIndex 0 t i < n then f t i else []) = if t < n then f t 0 else [] := by
    intro t
    have h₁ : ¬ t + 256 < n := by omega
    have h₂ : ¬ t + 512 < n := by omega
    have h₃ : ¬ t + 768 < n := by omega
    simp [List.range_succ, itemsPerThread, itemIndex, blockThreads, h₁, h₂, h₃]
  simp only [hitems]
  have hsplit : List.range blockThreads =
      List.range n ++ (List.range (256 - n)).map (n + ·) := by
    rw [← List.range_add]
    congr 1
    simp only [blockThreads]
    omega
  have hlive : ((List.range n).flatMap fun t => if t < n then f t 0 else []) =
      (List.range n).flatMap fun t => f t 0 := by
    refine List.flatMap_congr fun t ht => ?_
    rw [if_pos (List.mem_range.1 ht)]
  have hidle : (((List.range (256 - n)).map (n + ·)).flatMap fun t =>
      if t < n then f t 0 else []) = [] := by
    simp
  rw [hsplit, List.flatMap_append, hlive, hidle, List.append_nil]

/-- What an item in range stores is among the stores. -/
theorem mem_flatMap_items {f : ℕ → ℕ → List γ} {t i : ℕ} {x : γ} (ht : t < 256) (hi : i < 4)
    (hidx : itemIndex 0 t i < n) (hx : x ∈ f t i) :
    x ∈ (List.range blockThreads).flatMap fun t => (List.range itemsPerThread).flatMap fun i =>
      if itemIndex 0 t i < n then f t i else [] := by
  refine List.mem_flatMap.2 ⟨t, List.mem_range.2 ht, ?_⟩
  refine List.mem_flatMap.2 ⟨i, List.mem_range.2 hi, ?_⟩
  rwa [if_pos hidx]

variable {keep : ℕ → Bool}

/-- The second item of thread 0. -/
theorem itemIndex_256 : itemIndex 0 0 1 = 256 := by simp [itemIndex, blockThreads]

/-- What the kept item `i` of thread `t` stores. -/
def keptStore (BS : FlagScan) (keep : ℕ → Bool) (input : ℕ → α) (n t i : ℕ) : ℕ × α :=
  ((BS.exclusiveSum (keepFlag keep n) t i).toNat, tileItem input n 0 0 t i)

theorem val_storeSelected (BS : FlagScan) (input : ℕ → α) :
    (storeSelected n (tileItem input n 0 0) (keepFlag keep n)
      (BS.exclusiveSum (keepFlag keep n))).val =
      (List.range blockThreads).flatMap fun t => (List.range itemsPerThread).flatMap fun i =>
        if itemIndex 0 t i < n then
          if keep (itemIndex 0 t i) = true then [keptStore BS keep input n t i] else []
        else [] := by
  simp only [storeSelected, val_forEach, val_ite, val_write, val_pure, keepFlag_ne_zero,
    ← ite_and]
  refine List.flatMap_congr fun t _ => List.flatMap_congr fun i _ => ?_
  by_cases h : itemIndex 0 t i < n <;> simp [h, keptStore]

variable {BS : FlagScan} (hBS : BS.Lawful) (input : ℕ → α)
include hBS

theorem keptStore_of_le (hn : n ≤ 256) {t : ℕ} (ht : t < n) :
    keptStore BS keep input n t 0 = (Compact.rank keep t, input t) := by
  have hitem : tileItem input n 0 0 t 0 = input t := by simp [tileItem, itemIndex, ht]
  rw [keptStore, exclusiveSum_keepFlag hBS hn ht, toNat_rank (by omega), hitem]

/-- Position 256 is stored to as if it came right after position 0. -/
theorem keptStore_256 (hn : 256 < n) :
    keptStore BS keep input n 0 1 = (Compact.rank keep 1, input 256) := by
  have hitem : tileItem input n 0 0 0 1 = input 256 := by
    simp [tileItem, itemIndex, blockThreads, hn]
  rw [keptStore, exclusiveSum_keepFlag_256 hBS hn, hitem]

/-- With one element per thread, each kept position is stored to its rank. -/
theorem mem_storeSelected (hn : n ≤ 256) (w : ℕ × α) :
    w ∈ (storeSelected n (tileItem input n 0 0) (keepFlag keep n)
      (BS.exclusiveSum (keepFlag keep n))).val ↔
        ∃ t ∈ Compact.kept keep n, w = (Compact.rank keep t, input t) := by
  rw [val_storeSelected, flatMap_items_of_le hn, List.mem_flatMap]
  constructor
  · rintro ⟨t, ht, hw⟩
    have ht := List.mem_range.1 ht
    split_ifs at hw with hk
    · rw [List.mem_singleton, keptStore_of_le hBS input hn ht] at hw
      refine ⟨t, Compact.mem_kept.2 ⟨ht, ?_⟩, hw⟩
      simpa [itemIndex] using hk
    · simp at hw
  · rintro ⟨t, ht, rfl⟩
    obtain ⟨ht, hk⟩ := Compact.mem_kept.1 ht
    refine ⟨t, List.mem_range.2 ht, ?_⟩
    rw [if_pos (by simpa [itemIndex] using hk), keptStore_of_le hBS input hn ht]
    exact List.mem_singleton_self _

theorem selectTail_compacts (hn : n ≤ 256) :
    Compacts keep input n (selectTail BS n (tileItem input n 0 0) (keepFlag keep n)).val := by
  intro out₀ num₀ ws hws
  simp only [selectTail, val_bind, val_write, val_pure] at hws ⊢
  have hmem : ∀ w : ℕ × α, w ∈ ws ↔
      ∃ t ∈ Compact.kept keep n, w = (Compact.rank keep t, input t) := fun w =>
    hws.mem_iff.trans (mem_storeSelected hBS input hn w)
  refine ⟨?_, ?_⟩
  · intro j x hx
    rw [List.getElem?_map, Option.map_eq_some_iff] at hx
    obtain ⟨t, ht, rfl⟩ := hx
    have hrank := Compact.rank_of_getElem? ht
    refine scatter_of_agree ⟨_, (hmem _).2 ⟨t, List.mem_of_getElem? ht, rfl⟩, hrank⟩ ?_
    intro w hw hwj
    obtain ⟨s, hs, rfl⟩ := (hmem w).1 hw
    -- the rank determines the position
    obtain ⟨hsn, hks⟩ := Compact.mem_kept.1 hs
    have hget := Compact.getElem?_kept hsn hks
    rw [show Compact.rank keep s = j from hwj, ht] at hget
    rw [Option.some.inj hget]
  · rw [total_keepFlag hBS (by omega)]
    simp [scatter]

/-- The items of thread 0 stand next to each other in the scan but not in the input. -/
theorem selectTail_not_compacts (hn : 256 < n) (h₁ : keep 1 = true) (h₂₅₆ : keep 256 = true)
    (hne : input 1 ≠ input 256) :
    ¬ Compacts keep input n (selectTail BS n (tileItem input n 0 0) (keepFlag keep n)).val := by
  intro h
  have hstore : (Compact.rank keep 1, input 256) ∈
      (storeSelected n (tileItem input n 0 0) (keepFlag keep n)
        (BS.exclusiveSum (keepFlag keep n))).val := by
    rw [val_storeSelected]
    refine mem_flatMap_items (t := 0) (i := 1) (by decide) (by decide)
      (by rwa [itemIndex_256]) ?_
    rw [itemIndex_256, if_pos h₂₅₆, keptStore_256 hBS input hn]
    exact List.mem_singleton_self _
  obtain ⟨ws, hperm, hlast⟩ := exists_perm_scatter hstore fun _ => 0
  have hkept := Compact.getElem?_kept (n := n) (by omega) h₁
  have hout := (h (fun _ => 0) (fun _ => 0) ws hperm).1 (Compact.rank keep 1) (input 1)
    (by rw [List.getElem?_map, hkept]; rfl)
  exact hne (hout.symm.trans hlast)

/-! ### The partition -/

/-- What an item of the partition stores. -/
def partitionStore (BS : FlagScan) (keep : ℕ → Bool) (input : ℕ → α) (n t i : ℕ) : ℕ × α :=
  if keep (itemIndex 0 t i) = true then keptStore BS keep input n t i
  else (rejectIndex n (itemIndex 0 t i) (BS.exclusiveSum (keepFlag keep n) t i),
    tileItem input n 0 0 t i)

omit hBS in
theorem val_partitionFlagged (flags : ℕ → UInt8) :
    (partitionFlagged BS input flags n).val =
      ((List.range blockThreads).flatMap fun t => (List.range itemsPerThread).flatMap fun i =>
        if itemIndex 0 t i < n then [partitionStore BS (flagged flags) input n t i] else [],
      [(0, BS.total (keepFlag (flagged flags) n))]) := by
  rw [partitionFlagged, val_bind, val_bind, val_bind, val_bind, val_pure]
  simp only [val_gather, val_loadItem, val_loadFlag, val_forEach, val_ite, val_write, val_pure,
    keepFlag_ne_zero]
  congr 1
  refine List.flatMap_congr fun t _ => List.flatMap_congr fun i _ => ?_
  by_cases h : itemIndex 0 t i < n
  · by_cases hk : flagged flags (itemIndex 0 t i) = true <;>
      simp [h, hk, partitionStore, keptStore]
  · simp [h]

omit hBS in
theorem rejectIndex_of_le {t r : ℕ} (hn : n ≤ 256) (ht : t < n) (hr : r ≤ t) :
    rejectIndex n t (BitVec.ofNat 32 r) = n - 1 - (t - r) := by
  have hone : (1 : BitVec 32).toNat = 1 := rfl
  simp only [rejectIndex, BitVec.toNat_sub, BitVec.toNat_ofNat, hone]
  omega

theorem partitionStore_of_le (hn : n ≤ 256) {t : ℕ} (ht : t < n) :
    partitionStore BS keep input n t 0 = (Compact.position keep n t, input t) := by
  have hidx : itemIndex 0 t 0 = t := by simp [itemIndex]
  rw [partitionStore, Compact.position, keptStore_of_le hBS input hn ht,
    exclusiveSum_keepFlag hBS hn ht, hidx, rejectIndex_of_le hn ht (Compact.rank_le keep t)]
  have hitem : tileItem input n 0 0 t 0 = input t := by simp [tileItem, hidx, ht]
  rw [hitem]
  split_ifs <;> rfl

theorem partitionFlagged_partitions (flags : ℕ → UInt8) (hn : n ≤ 256) :
    Partitions (flagged flags) input n (partitionFlagged BS input flags n).val := by
  intro out₀ num₀ ws hws
  rw [val_partitionFlagged] at hws ⊢
  have hstores : ws.Perm
      ((List.range n).map fun t => (Compact.position (flagged flags) n t, input t)) := by
    refine hws.trans (List.Perm.of_eq ?_)
    dsimp only
    rw [flatMap_items_of_le hn, List.map_eq_flatMap]
    refine List.flatMap_congr fun t ht => ?_
    rw [partitionStore_of_le hBS input hn (List.mem_range.1 ht)]
  refine ⟨?_, ?_, ?_⟩
  · have hfst := hstores.map Prod.fst
    rw [List.map_map] at hfst
    exact hfst.trans (Compact.position_perm (flagged flags) n)
  · intro j x hx
    rw [List.getElem?_map, Option.map_eq_some_iff] at hx
    obtain ⟨t, ht, rfl⟩ := hx
    have htn : t < n := Compact.lt_of_mem_layout (List.mem_of_getElem? ht)
    have hpos : Compact.position (flagged flags) n t = j := Compact.position_of_getElem? ht
    refine scatter_of_agree ⟨_, hstores.mem_iff.2 (List.mem_map.2 ⟨t, List.mem_range.2 htn, rfl⟩),
      hpos⟩ fun w hw hwj => ?_
    obtain ⟨s, hs, rfl⟩ := List.mem_map.1 (hstores.mem_iff.1 hw)
    -- no other position goes to this place
    rw [Compact.position_injOn (List.mem_range.1 hs) htn (hwj.trans hpos.symm)]
  · rw [total_keepFlag hBS (by omega)]
    simp [scatter]

/-- As for a select: position 256 is stored over position 1. -/
theorem partitionFlagged_not_partitions {flags : ℕ → UInt8} (hn : 256 < n)
    (h₁ : flagged flags 1 = true) (h₂₅₆ : flagged flags 256 = true) (hne : input 1 ≠ input 256) :
    ¬ Partitions (flagged flags) input n (partitionFlagged BS input flags n).val := by
  intro h
  have hstore : (Compact.rank (flagged flags) 1, input 256) ∈
      (partitionFlagged BS input flags n).val.1 := by
    rw [val_partitionFlagged]
    refine mem_flatMap_items (f := fun t i => [partitionStore BS (flagged flags) input n t i])
      (t := 0) (i := 1) (by decide) (by decide) (by rwa [itemIndex_256]) ?_
    rw [partitionStore, itemIndex_256, if_pos h₂₅₆, keptStore_256 hBS input hn]
    exact List.mem_singleton_self _
  obtain ⟨ws, hperm, hlast⟩ := exists_perm_scatter hstore fun _ => 0
  have hlayout := Compact.getElem?_layout (p := flagged flags) (n := n) (t := 1) (by omega)
  rw [Compact.position, if_pos h₁] at hlayout
  have hout := (h (fun _ => 0) (fun _ => 0) ws hperm).2.1 (Compact.rank (flagged flags) 1) (input 1)
    (by rw [List.getElem?_map, hlayout]; rfl)
  exact hne (hout.symm.trans hlast)

end Stores

/-! ### Bounds -/

section Bounds

variable {len : Buf → ℕ} {n : ℕ} {BS : FlagScan} (hBS : BS.Lawful) (hn : n ≤ 1024)

theorem inBounds_loadFlags (flags : ℕ → UInt8) :
    InBounds len (gather blockThreads itemsPerThread (loadFlag flags n)) ↔
      TileFits n 0 (len .flags) := by
  simp only [inBounds_gather, loadFlag, inBounds_ite, inBounds_bind, inBounds_read, inBounds_pure,
    implies_true, and_true]
  exact forall_items 0 fun idx => idx < n → idx < len .flags

omit [Zero α] in
theorem inBounds_loadHeadFlags [BEq α] (input : ℕ → α) (hinput : len .input = n) :
    InBounds len (gather blockThreads itemsPerThread (loadHeadFlag input n)) := by
  rw [inBounds_gather]
  intro t _ i _
  simp only [loadHeadFlag, inBounds_ite, inBounds_bind, inBounds_read, inBounds_pure,
    implies_true, and_true, true_and, hinput]
  exact fun _ hlt => ⟨hlt, by omega⟩

include hBS hn

omit [Zero α] in
/-- The offsets of the kept items are exactly the places below their number. -/
theorem storeSelected_inBounds (keep : ℕ → Bool) (threadIn : ℕ → ℕ → α) :
    InBounds len (storeSelected n threadIn (keepFlag keep n)
      (BS.exclusiveSum (keepFlag keep n))) ↔ (Compact.kept keep n).length ≤ len .output := by
  simp only [storeSelected, inBounds_forEach, List.mem_range, inBounds_ite, inBounds_write,
    inBounds_pure, implies_true, and_true]
  rw [← rank_keepsBlocked hBS hn]
  constructor
  · intro h
    by_contra hlt
    obtain ⟨r, hr, hkeep, hrank⟩ := Compact.exists_rank_eq (not_le.1 hlt)
    simp only [keepsBlocked, Bool.and_eq_true, decide_eq_true_eq] at hkeep
    have hoffset := h (r / 4) (by simp [blockThreads]; omega) (r % 4) (Nat.mod_lt _ (by decide))
      ⟨hkeep.1, (keepFlag_ne_zero keep).2 hkeep⟩
    rw [toNat_exclusiveSum hBS (by omega) (by omega), Nat.div_add_mod, hrank] at hoffset
    exact lt_irrefl _ hoffset
  · intro h t ht i hi hflag
    have ht : t < 256 := ht
    have hi : i < 4 := hi
    have hkeep := (keepFlag_ne_zero keep).1 hflag.2
    have hdiv : (4 * t + i) / 4 = t := by omega
    have hmod : (4 * t + i) % 4 = i := by omega
    rw [toNat_exclusiveSum hBS ht hi]
    refine lt_of_lt_of_le (Compact.rank_lt_rank (by omega) ?_) h
    simp [keepsBlocked, hdiv, hmod, hkeep]

omit [Zero α] in
theorem selectTail_inBounds (keep : ℕ → Bool) (threadIn : ℕ → ℕ → α) :
    InBounds len (selectTail BS n threadIn (keepFlag keep n)) ↔
      (Compact.kept keep n).length ≤ len .output ∧ 0 < len .numSelected := by
  rw [selectTail, inBounds_bind, storeSelected_inBounds hBS hn, inBounds_bind, inBounds_write]
  simp

/-- A `Flagged` select needs room for the flags, the kept elements and their number. -/
theorem selectFlagged_inBounds (input : ℕ → α) (flags : ℕ → UInt8) (hinput : len .input = n) :
    InBounds len (selectFlagged BS input flags n) ↔ n ≤ len .flags ∧
      (Compact.kept (flagged flags) n).length ≤ len .output ∧ 0 < len .numSelected := by
  rw [selectFlagged, inBounds_bind, inBounds_loadTile, inBounds_bind, inBounds_loadFlags,
    tileFits_zero hn, tileFits_zero hn]
  simp only [val_gather, val_loadFlag]
  rw [selectTail_inBounds hBS hn]
  exact and_iff_right hinput.ge

/-- A `Unique` select needs room for one element of each run and their number. -/
theorem selectUnique_inBounds [BEq α] (input : ℕ → α) (hinput : len .input = n) :
    InBounds len (selectUnique BS input n) ↔
      (Compact.kept (runHead input) n).length ≤ len .output ∧ 0 < len .numSelected := by
  rw [selectUnique, inBounds_bind, inBounds_loadTile, inBounds_bind, tileFits_zero hn]
  simp only [val_gather, val_loadHeadFlag]
  rw [selectTail_inBounds hBS hn, and_iff_right hinput.ge,
    and_iff_right (inBounds_loadHeadFlags input hinput)]

omit hn in
/-- The places a partition of up to one element per thread stores to. -/
theorem partitionStores_inBounds (hn : n ≤ 256) (keep : ℕ → Bool) (input : ℕ → α) :
    (∀ t < blockThreads, ∀ i < itemsPerThread, itemIndex 0 t i < n →
      (partitionStore BS keep input n t i).1 < len .output) ↔ n ≤ len .output := by
  constructor
  · intro h
    by_contra hlt
    have hroom : len .output ∈ (List.range n).map (Compact.position keep n) :=
      (Compact.position_perm keep n).symm.subset (List.mem_range.2 (not_le.1 hlt))
    obtain ⟨t, ht, hpos⟩ := List.mem_map.1 hroom
    have ht := List.mem_range.1 ht
    have hstore := h t (by simp [blockThreads]; omega) 0 (by decide) (by simpa [itemIndex] using ht)
    rw [partitionStore_of_le hBS input hn ht, hpos] at hstore
    exact lt_irrefl _ hstore
  · intro h t _ i _ hidx
    simp only [itemIndex, blockThreads] at hidx
    obtain rfl : i = 0 := by omega
    have ht : t < n := by omega
    rw [partitionStore_of_le hBS input hn ht]
    exact (Compact.position_lt ht).trans_le h

omit hn in
/-- A partition of up to one element per thread needs room for the flags, the elements and the
number of the kept ones. -/
theorem partitionFlagged_inBounds (hn : n ≤ 256) (input : ℕ → α) (flags : ℕ → UInt8)
    (hinput : len .input = n) :
    InBounds len (partitionFlagged BS input flags n) ↔
      n ≤ len .flags ∧ n ≤ len .output ∧ 0 < len .numSelected := by
  have hone : n ≤ 1024 := by omega
  rw [partitionFlagged, inBounds_bind, inBounds_loadTile, inBounds_bind, inBounds_loadFlags,
    tileFits_zero hone, tileFits_zero hone, and_iff_right hinput.ge]
  refine and_congr_right fun _ => ?_
  simp only [val_gather, val_loadFlag, val_loadItem]
  rw [inBounds_bind, inBounds_bind, inBounds_write, and_iff_left (inBounds_pure _)]
  refine and_congr_left fun _ => ?_
  rw [← partitionStores_inBounds hBS hn (flagged flags) input]
  simp only [inBounds_forEach, List.mem_range, inBounds_ite, inBounds_write, inBounds_pure,
    implies_true, and_true]
  refine forall₂_congr fun t _ => forall₂_congr fun i _ => forall_congr' fun hidx => ?_
  unfold partitionStore
  by_cases hk : flagged flags (itemIndex 0 t i) = true
  · have hflag := (keepFlag_ne_zero (flagged flags)).2 ⟨hidx, hk⟩
    rw [if_pos hk]
    exact ⟨fun h => h.1 hflag, fun h => ⟨fun _ => h, fun hnot => absurd hflag hnot⟩⟩
  · have hflag : ¬ keepFlag (flagged flags) n t i ≠ 0 := fun h => hk ((keepFlag_ne_zero _).1 h).2
    rw [if_neg hk]
    exact ⟨fun h => h.2 hflag, fun h => ⟨fun hset => absurd hset hflag, fun _ => h⟩⟩

end Bounds

/-! ### Exactly when the kernels compact -/

theorem val_selectFlagged (BS : FlagScan) (input : ℕ → α) (flags : ℕ → UInt8) (n : ℕ) :
    (selectFlagged BS input flags n).val =
      (selectTail BS n (tileItem input n 0 0) (keepFlag (flagged flags) n)).val := by
  rw [selectFlagged, val_bind, val_bind]
  simp only [val_gather, val_loadItem, val_loadFlag]

theorem val_selectUnique [BEq α] (BS : FlagScan) (input : ℕ → α) (n : ℕ) :
    (selectUnique BS input n).val =
      (selectTail BS n (tileItem input n 0 0) (keepFlag (runHead input) n)).val := by
  rw [selectUnique, val_bind, val_bind]
  simp only [val_gather, val_loadItem, val_loadHeadFlag]

/-- Two values in turn. -/
def alternating (a b : α) (j : ℕ) : α := if j % 2 = 0 then a else b

section Alternating

variable {a b : α} (hab : a ≠ b) {BS : FlagScan} (hBS : BS.Lawful) {n : ℕ} (hn : 256 < n)
include hab hBS hn

omit [Zero α] hBS hn in
theorem alternating_ne : alternating a b 1 ≠ alternating a b 256 := hab.symm

theorem selectFlagged_not_compacts :
    ¬ Compacts (flagged fun _ => 1) (alternating a b) n
      (selectFlagged BS (alternating a b) (fun _ => 1) n).val := by
  rw [val_selectFlagged]
  exact selectTail_not_compacts hBS _ hn rfl rfl (alternating_ne hab)

theorem selectUnique_not_compacts [DecidableEq α] :
    ¬ Compacts (runHead (alternating a b)) (alternating a b) n
      (selectUnique BS (alternating a b) n).val := by
  rw [val_selectUnique]
  refine selectTail_not_compacts hBS _ hn ?_ ?_ (alternating_ne hab)
  · simp [runHead, alternating, hab.symm]
  · simp [runHead, alternating, hab]

theorem partitionFlagged_alternating_not_partitions :
    ¬ Partitions (flagged fun _ => 1) (alternating a b) n
      (partitionFlagged BS (alternating a b) (fun _ => 1) n).val :=
  partitionFlagged_not_partitions hBS _ hn rfl rfl (alternating_ne hab)

end Alternating

/-- **Each of the three kernels does its job, for all inputs and flags of length `n` and in every
order of the stores, exactly when no thread owns two of the elements.** -/
theorem select_correct_iff [DecidableEq α] [Nontrivial α] {BS : FlagScan} (hBS : BS.Lawful)
    (n : ℕ) :
    ((∀ (input : ℕ → α) flags,
        Compacts (flagged flags) input n (selectFlagged BS input flags n).val) ↔ n ≤ 256) ∧
      ((∀ input : ℕ → α,
        Compacts (runHead input) input n (selectUnique BS input n).val) ↔ n ≤ 256) ∧
      ((∀ (input : ℕ → α) flags,
        Partitions (flagged flags) input n (partitionFlagged BS input flags n).val) ↔
          n ≤ 256) := by
  obtain ⟨a, b, hab⟩ := exists_pair_ne α
  refine ⟨⟨fun h => ?_, fun hn input flags => ?_⟩, ⟨fun h => ?_, fun hn input => ?_⟩,
    ⟨fun h => ?_, fun hn input flags => ?_⟩⟩
  · by_contra hn
    exact selectFlagged_not_compacts hab hBS (not_le.1 hn) (h _ _)
  · rw [val_selectFlagged]
    exact selectTail_compacts hBS input hn
  · by_contra hn
    exact selectUnique_not_compacts hab hBS (not_le.1 hn) (h _)
  · rw [val_selectUnique]
    exact selectTail_compacts hBS input hn
  · by_contra hn
    exact partitionFlagged_alternating_not_partitions hab hBS (not_le.1 hn) (h _ _)
  · exact partitionFlagged_partitions hBS input flags hn

/-- Zeros and ones in turn. -/
def zeroOne : ℕ → BitVec 32 := alternating 0 1

/-- One element per thread, all flags set. -/
theorem select_correct_256 :
    Compacts (flagged fun _ => 1) zeroOne 256
        (selectFlagged BlockScan.documented zeroOne (fun _ => 1) 256).val ∧
      Compacts (runHead zeroOne) zeroOne 256 (selectUnique BlockScan.documented zeroOne 256).val ∧
      Partitions (flagged fun _ => 1) zeroOne 256
        (partitionFlagged BlockScan.documented zeroOne (fun _ => 1) 256).val := by
  have hne : Nontrivial (BitVec 32) := ⟨0, 1, by decide⟩
  obtain ⟨hflagged, hunique, hpartition⟩ :=
    select_correct_iff (α := BitVec 32) BlockScan.documented_lawful 256
  exact ⟨hflagged.2 le_rfl zeroOne _, hunique.2 le_rfl zeroOne, hpartition.2 le_rfl zeroOne _⟩

/-- One more element, all flags set and no equal neighbours: all three kernels store it at position
1 and what belongs there behind it, out of order. -/
theorem select_257_incorrect :
    ¬ Compacts (flagged fun _ => 1) zeroOne 257
        (selectFlagged BlockScan.documented zeroOne (fun _ => 1) 257).val ∧
      ¬ Compacts (runHead zeroOne) zeroOne 257
        (selectUnique BlockScan.documented zeroOne 257).val ∧
      ¬ Partitions (flagged fun _ => 1) zeroOne 257
        (partitionFlagged BlockScan.documented zeroOne (fun _ => 1) 257).val := by
  have hab : (0 : BitVec 32) ≠ 1 := by decide
  have hn : 256 < 257 := by decide
  have hBS := BlockScan.documented_lawful (M := BitVec 32)
  exact ⟨selectFlagged_not_compacts hab hBS hn, selectUnique_not_compacts hab hBS hn,
    partitionFlagged_alternating_not_partitions hab hBS hn⟩

end Cub

end AtomrAccel
