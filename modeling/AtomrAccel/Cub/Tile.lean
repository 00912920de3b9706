import AtomrAccel.Lib.Kernel

/-!
# Tiles: how the CUB kernels address memory

Every emitted kernel runs blocks of 256 threads with four items per thread.  Item `i` of thread `t`
is loaded from and stored to element `t + 256 * i` of the tile of its block, a *striped*
arrangement: neighbouring threads hold neighbouring elements.  The CUB block primitives read the
per-thread arrays in *blocked* arrangement, all items of thread 0 first.

* `itemIndex`, `loadItem`, `storeTile`: the loads and stores the kernels share;
* `gridBlocksFor`: the number of blocks of a launch, as a `u32`;
* `scatter_tiles`: what a grid of tile stores leaves in memory;
* `TileFits`, `inBounds_loadTile`, `inBounds_storeTile`: when a tile stays inside a buffer;
* `blocked`, `sum_blocked`: the per-thread arrays in blocked order, and what a blocked sum comes
  to when only the first item of each thread counts;
* `strideFrom`, `strides_perm`: the threads of a block share out a range in steps of 256.
-/

namespace AtomrAccel

namespace Cub

open Kernel Kernel.Traced

/-- `BLOCK_THREADS`. -/
def blockThreads : ℕ := 256

/-- `ITEMS_PER_THREAD`. -/
def itemsPerThread : ℕ := 4

/-- `TILE_ELEMENTS`. -/
def tileElements : ℕ := blockThreads * itemsPerThread

/-- The buffers of all request families, and the shared array of the histogram. -/
inductive Buf
  | input | output
  | partials | blockSums
  | keysIn | keysOut | valuesIn | valuesOut
  | flags | numSelected
  | sharedBins | bins
  | beginOffsets | endOffsets
  deriving DecidableEq, Repr

/-- `grid_blocks_for` and the grid of `launch_config_for`: the cast to `u32` wraps. -/
def gridBlocksFor (n : ℕ) : ℕ := max ((n + tileElements - 1) / tileElements) 1 % 2 ^ 32

/-- The element of item `i` of thread `t` in block `b`. -/
def itemIndex (b t i : ℕ) : ℕ := b * tileElements + t + i * blockThreads

/-- The item that holds position `j` of a tile. -/
theorem itemIndex_striped (b j : ℕ) : itemIndex b (j % 256) (j / 256) = b * 1024 + j := by
  simp only [itemIndex, tileElements, blockThreads, itemsPerThread]
  omega

section Kernels

variable {α : Type}

/-- `(idx < n) ? m[idx] : pad`. -/
def loadItem (buf : Buf) (m : ℕ → α) (n : ℕ) (pad : α) (b t i : ℕ) : Traced Buf α :=
  if itemIndex b t i < n then read buf m (itemIndex b t i) else pure pad

/-- `if (idx < n) m[idx] = thread_data[i]`, for all threads and items of block `b`. -/
def storeTile (buf : Buf) (n b : ℕ) (data : ℕ → ℕ → α) : Traced Buf (List (ℕ × α)) :=
  forEach (List.range blockThreads) fun t =>
    forEach (List.range itemsPerThread) fun i =>
      if itemIndex b t i < n then write buf (itemIndex b t i) (data t i) else pure []

/-- The value `loadItem` gives. -/
def tileItem (m : ℕ → α) (n : ℕ) (pad : α) (b t i : ℕ) : α :=
  if itemIndex b t i < n then m (itemIndex b t i) else pad

@[simp] theorem val_loadItem (buf : Buf) (m : ℕ → α) (n : ℕ) (pad : α) (b t i : ℕ) :
    (loadItem buf m n pad b t i).val = tileItem m n pad b t i := by
  simp [loadItem, tileItem]

/-- A tile is loaded in striped order. -/
theorem tileItem_striped (m : ℕ → α) (n : ℕ) (pad : α) (b j : ℕ) :
    tileItem m n pad b (j % 256) (j / 256) =
      if b * 1024 + j < n then m (b * 1024 + j) else pad := by
  rw [tileItem, itemIndex_striped]

/-- A store of a tile goes to an element of its block that is below `n`. -/
theorem mem_storeTile {buf : Buf} {n b : ℕ} {data : ℕ → ℕ → α} {w : ℕ × α} :
    w ∈ (storeTile buf n b data).val ↔ w.1 < n ∧ w.1 / 1024 = b ∧
      w.2 = data (w.1 % 256) (w.1 % 1024 / 256) := by
  simp only [storeTile, val_forEach, List.mem_flatMap, List.mem_range, val_ite, val_write, val_pure]
  constructor
  · rintro ⟨t, ht, i, hi, hw⟩
    split_ifs at hw with hlt
    · rw [List.mem_singleton] at hw
      subst hw
      simp only [itemIndex, tileElements, blockThreads, itemsPerThread] at ht hi hlt ⊢
      refine ⟨hlt, by omega, ?_⟩
      congr 1 <;> omega
    · simp at hw
  · obtain ⟨j, v⟩ := w
    dsimp only
    rintro ⟨hlt, rfl, rfl⟩
    have hidx : itemIndex (j / 1024) (j % 256) (j % 1024 / 256) = j := by
      simp only [itemIndex, tileElements, blockThreads, itemsPerThread]
      omega
    refine ⟨j % 256, Nat.mod_lt _ (by decide), j % 1024 / 256, ?_, ?_⟩
    · simp only [itemsPerThread]
      omega
    · simp [hidx, hlt]

/-- Memory after a grid of tile stores. -/
theorem scatter_tiles (buf : Buf) (m : ℕ → α) (n grid : ℕ) (data : ℕ → ℕ → ℕ → α) (j : ℕ) :
    scatter m ((List.range grid).flatMap fun b => (storeTile buf n b (data b)).val) j =
      if j < n ∧ j / 1024 < grid then data (j / 1024) (j % 256) (j % 1024 / 256) else m j := by
  have hmem : ∀ w : ℕ × α,
      w ∈ (List.range grid).flatMap (fun b => (storeTile buf n b (data b)).val) ↔
      w.1 < n ∧ w.1 / 1024 < grid ∧ w.2 = data (w.1 / 1024) (w.1 % 256) (w.1 % 1024 / 256) := by
    intro w
    simp only [List.mem_flatMap, List.mem_range, mem_storeTile]
    constructor
    · rintro ⟨b, hb, hlt, rfl, hv⟩
      exact ⟨hlt, hb, hv⟩
    · rintro ⟨hlt, hb, hv⟩
      exact ⟨_, hb, hlt, rfl, hv⟩
  split_ifs with hj
  · refine scatter_of_agree ⟨(j, data (j / 1024) (j % 256) (j % 1024 / 256)),
      (hmem _).2 ⟨hj.1, hj.2, rfl⟩, rfl⟩ fun w hw hwj => ?_
    subst hwj
    exact ((hmem w).1 hw).2.2
  · refine scatter_of_not_mem fun w hw hwj => hj ?_
    subst hwj
    exact ⟨((hmem w).1 hw).1, ((hmem w).1 hw).2.1⟩

/-- Memory after the tile store of a single block. -/
theorem scatter_tile (buf : Buf) (m : ℕ → α) {n j : ℕ} (data : ℕ → ℕ → α) (hj : j < n)
    (hn : n ≤ 1024) : scatter m (storeTile buf n 0 data).val j = data (j % 256) (j / 256) := by
  have hgrid := scatter_tiles buf m n 1 (fun _ => data) j
  have hdiv : j / 1024 = 0 := by omega
  have hmod : j % 1024 = j := by omega
  simpa [hj, hdiv, hmod] using hgrid

/-! ### The elements of a tile -/

/-- The items of block `b` are the elements of its tile. -/
theorem forall_items (b : ℕ) (P : ℕ → Prop) :
    (∀ t < blockThreads, ∀ i < itemsPerThread, P (itemIndex b t i)) ↔
      ∀ j < 1024, P (b * 1024 + j) := by
  constructor
  · intro h j hj
    have hitem := h (j % 256) (Nat.mod_lt _ (by decide)) (j / 256) (by simp [itemsPerThread]; omega)
    rwa [itemIndex_striped] at hitem
  · intro h t ht i hi
    simp only [blockThreads, itemsPerThread] at ht hi
    have hidx : itemIndex b t i = b * 1024 + (t + i * 256) := by
      simp only [itemIndex, tileElements, blockThreads, itemsPerThread]
      omega
    rw [hidx]
    exact h _ (by omega)

/-- Loads and stores of a tile stay inside a buffer that has room for the elements below `n`. -/
def TileFits (n b room : ℕ) : Prop := ∀ j < 1024, b * 1024 + j < n → b * 1024 + j < room

variable {len : Buf → ℕ}

theorem inBounds_loadTile (buf : Buf) (m : ℕ → α) (n : ℕ) (pad : α) (b : ℕ) :
    InBounds len (gather blockThreads itemsPerThread (loadItem buf m n pad b)) ↔
      TileFits n b (len buf) := by
  simp only [inBounds_gather, loadItem, inBounds_ite, inBounds_read, inBounds_pure, implies_true,
    and_true]
  exact forall_items b fun idx => idx < n → idx < len buf

theorem inBounds_storeTile (buf : Buf) (n b : ℕ) (data : ℕ → ℕ → α) :
    InBounds len (storeTile buf n b data) ↔ TileFits n b (len buf) := by
  simp only [storeTile, inBounds_forEach, List.mem_range, inBounds_ite, inBounds_write,
    inBounds_pure, implies_true, and_true]
  exact forall_items b fun idx => idx < n → idx < len buf

theorem tileFits_of_le {n room : ℕ} (h : n ≤ room) (b : ℕ) : TileFits n b room :=
  fun _ _ hlt => hlt.trans_le h

/-- A single tile. -/
theorem tileFits_zero {n room : ℕ} (hn : n ≤ 1024) : TileFits n 0 room ↔ n ≤ room := by
  refine ⟨fun h => ?_, fun h => tileFits_of_le h 0⟩
  by_contra hlt
  have hroom := h room (by omega) (by omega)
  omega

/-- A grid of tiles. -/
theorem forall_tileFits {n grid room : ℕ} :
    (∀ b < grid, TileFits n b room) ↔ min n (grid * 1024) ≤ room := by
  constructor
  · intro h
    by_contra hlt
    have hroom := h (room / 1024) (by omega) (room % 1024) (by omega) (by omega)
    omega
  · intro h b hb j hj hlt
    omega

end Kernels

/-! ### Blocked arrangement -/

section Blocked

variable {α : Type}

/-- The first `n` elements of a buffer. -/
def firstN (m : ℕ → α) (n : ℕ) : List α := (List.range n).map m

theorem firstN_congr {m m' : ℕ → α} {n : ℕ} (h : ∀ j < n, m j = m' j) :
    firstN m n = firstN m' n :=
  List.map_congr_left fun j hj => h j (List.mem_range.1 hj)

theorem firstN_zero (m : ℕ → α) : firstN m 0 = [] := rfl

theorem firstN_one (m : ℕ → α) : firstN m 1 = [m 0] := rfl

/-- The first `k` items in blocked order. -/
def blocked (data : ℕ → ℕ → α) (k : ℕ) : List α :=
  (List.range k).map fun r => data (r / itemsPerThread) (r % itemsPerThread)

@[simp] theorem length_blocked (data : ℕ → ℕ → α) (k : ℕ) : (blocked data k).length = k := by
  simp [blocked]

theorem getElem?_blocked (data : ℕ → ℕ → α) {k r : ℕ} (hr : r < k) :
    (blocked data k)[r]? = some (data (r / 4) (r % 4)) := by
  simp [blocked, hr, itemsPerThread]

/-- The blocked order starts with the first item of the first thread. -/
theorem exists_blocked_eq_cons (data : ℕ → ℕ → α) :
    ∃ l, blocked data tileElements = data 0 0 :: l := by
  have hhead := getElem?_blocked data (show 0 < tileElements by decide)
  cases hb : blocked data tileElements with
  | nil => simp [hb] at hhead
  | cons a l =>
    rw [hb, List.getElem?_cons_zero, Option.some.injEq] at hhead
    exact ⟨l, by rw [hhead]⟩

/-- Any list of a full tile is the blocked order of some per-thread arrays. -/
theorem blocked_getD {l : List α} (hl : l.length = tileElements) (x : α) :
    blocked (fun t i => l.getD (4 * t + i) x) tileElements = l := by
  apply List.ext_getElem?
  intro r
  by_cases hr : r < tileElements
  · have hdm : 4 * (r / 4) + r % 4 = r := by omega
    rw [getElem?_blocked _ hr, hdm, List.getD_eq_getElem?_getD,
      List.getElem?_eq_getElem (by omega), Option.getD_some]
  · rw [List.getElem?_eq_none (by simpa using not_lt.1 hr), List.getElem?_eq_none (by omega)]

/-- The blocked order of a tile is a permutation of its striped order. -/
theorem blocked_perm (data : ℕ → ℕ → α) :
    (blocked data tileElements).Perm
      ((List.range tileElements).map fun j => data (j % 256) (j / 256)) := by
  have hperm : ((List.range tileElements).map fun r => r % 4 * 256 + r / 4).Perm
      (List.range tileElements) := by
    rw [List.perm_ext_iff_of_nodup _ List.nodup_range]
    · intro j
      simp only [List.mem_map, List.mem_range, tileElements, blockThreads, itemsPerThread]
      constructor
      · rintro ⟨r, hr, rfl⟩
        omega
      · intro hj
        exact ⟨j % 256 * 4 + j / 256, by omega, by omega⟩
    · refine (List.nodup_map_iff_inj_on List.nodup_range).2 fun r hr r' hr' h => ?_
      simp only [List.mem_range, tileElements, blockThreads, itemsPerThread] at hr hr'
      omega
  have hmap := hperm.map fun j => data (j % 256) (j / 256)
  rw [List.map_map] at hmap
  refine List.Perm.trans (List.Perm.of_eq ?_) hmap
  refine List.map_congr_left fun r hr => ?_
  simp only [List.mem_range, tileElements, blockThreads, itemsPerThread] at hr
  simp only [Function.comp, itemsPerThread]
  congr 1 <;> omega

end Blocked

/-- When only the first item of each thread counts, a blocked sum is the sum over threads. -/
theorem sum_blocked {M : Type} [AddCommMonoid M] (data : ℕ → ℕ → M)
    (h : ∀ t i, i ≠ 0 → data t i = 0) (k : ℕ) :
    (blocked data (4 * k)).sum = ((List.range k).map fun t => data t 0).sum := by
  induction k with
  | zero => rfl
  | succ k ih =>
    have hsplit : blocked data (4 * (k + 1)) =
        blocked data (4 * k) ++ [data k 0, data k 1, data k 2, data k 3] := by
      simp only [blocked, itemsPerThread, show 4 * (k + 1) = 4 * k + 1 + 1 + 1 + 1 from by ring,
        List.range_succ, List.map_append, List.map_cons, List.map_nil, List.append_assoc,
        List.cons_append, List.nil_append]
      congr 2
      · congr 1 <;> omega
      · congr 1
        · congr 1 <;> omega
        · congr 1
          · congr 1 <;> omega
          · congr 2 <;> omega
    rw [hsplit, List.sum_append, ih, List.range_succ, List.map_append, List.sum_append]
    simp [h k 1, h k 2, h k 3]

/-! ### Strides -/

/-- Every 256th number from `i` on, below `m`. -/
def strideFrom (i m : ℕ) : List ℕ := (List.range ((m - i + 255) / 256)).map fun k => i + 256 * k

theorem strideFrom_of_le {i m : ℕ} (h : m ≤ i) : strideFrom i m = [] := by
  have hzero : (m - i + 255) / 256 = 0 := by omega
  rw [strideFrom, hzero]
  rfl

theorem strideFrom_of_lt {i m : ℕ} (h : i < m) : strideFrom i m = i :: strideFrom (i + 256) m := by
  have hsucc : (m - i + 255) / 256 = (m - (i + 256) + 255) / 256 + 1 := by omega
  rw [strideFrom, hsucc, List.range_succ_eq_map, List.map_cons, List.map_map, strideFrom]
  congr 1
  refine List.map_congr_left fun k _ => ?_
  show i + 256 * (k + 1) = i + 256 + 256 * k
  omega

theorem mem_strideFrom {i m j : ℕ} :
    j ∈ strideFrom i m ↔ i ≤ j ∧ j < m ∧ (j - i) % 256 = 0 := by
  simp only [strideFrom, List.mem_map, List.mem_range]
  constructor
  · rintro ⟨k, hk, rfl⟩
    omega
  · rintro ⟨hle, hlt, hmod⟩
    exact ⟨(j - i) / 256, by omega, by omega⟩

theorem nodup_strideFrom (i m : ℕ) : (strideFrom i m).Nodup := by
  apply List.Nodup.map _ List.nodup_range
  intro k k' h
  have heq : i + 256 * k = i + 256 * k' := h
  omega

/-- The threads of a block share out the numbers below `m`. -/
theorem strides_perm (m : ℕ) :
    ((List.range 256).flatMap fun t => strideFrom t m).Perm (List.range m) := by
  have hnodup : ((List.range 256).flatMap fun t => strideFrom t m).Nodup := by
    rw [List.nodup_flatMap]
    refine ⟨fun t _ => nodup_strideFrom t m, ?_⟩
    refine List.Pairwise.imp_of_mem (fun {t t'} ht ht' hne j hj hj' => hne ?_) List.nodup_range
    have ht := List.mem_range.1 ht
    have ht' := List.mem_range.1 ht'
    obtain ⟨hle, -, hmod⟩ := mem_strideFrom.1 hj
    obtain ⟨hle', -, hmod'⟩ := mem_strideFrom.1 hj'
    omega
  rw [List.perm_ext_iff_of_nodup hnodup List.nodup_range]
  intro j
  simp only [List.mem_flatMap, List.mem_range, mem_strideFrom]
  constructor
  · rintro ⟨t, -, -, hlt, -⟩
    exact hlt
  · intro hlt
    exact ⟨j % 256, by omega, by omega, hlt, by omega⟩

end Cub

end AtomrAccel
