import AtomrAccel.Lib.StableSort
import AtomrAccel.Cub.Dtype
import AtomrAccel.Cub.Tile

/-!
# `CubSort`

A sort loads one tile in striped arrangement, pads it with zero keys, sorts it with
`cub::BlockRadixSort` in blocked arrangement and stores it striped again.  The padding takes part
in the sort, and the position of an element after the sort is not the position it is stored to.

* `BlockRadixSort`, `BlockRadixSort.Lawful`: `cub::BlockRadixSort` and what CUB documents of it;
* `sortKeys`, `sortPairs`: the two kernels;
* `sortKeys_inBounds`, `sortPairs_inBounds`: when they stay inside their buffers;
* `sort_correct_iff`: the kernels sort all inputs of length `n` exactly when `n = 0`, or `n = 1`
  and the sort is descending over an unsigned dtype.
-/

namespace AtomrAccel

namespace Cub

open Kernel Kernel.Traced StableSort

/-- The order to sort into. -/
inductive SortDirection
  | ascending
  | descending
  deriving DecidableEq, Repr

variable {d : IntDtype} {V : Type}

/-- The order a direction sorts into. -/
def SortDirection.le (dir : SortDirection) (x y : Word d) : Prop :=
  match dir with
  | ascending => value x ≤ value y
  | descending => value y ≤ value x

namespace SortDirection

variable (dir : SortDirection)

instance : DecidableRel (dir.le (d := d)) := fun x y =>
  match dir with
  | ascending => inferInstanceAs (Decidable (value x ≤ value y))
  | descending => inferInstanceAs (Decidable (value y ≤ value x))

instance : Std.Total (dir.le (d := d)) where
  total x y := by cases dir <;> exact le_total _ _

instance : IsTrans (Word d) dir.le where
  trans x y z hxy hyz := by
    cases dir
    · exact le_trans hxy hyz
    · exact le_trans hyz hxy

end SortDirection

/-- `cub::BlockRadixSort` on 256 threads with four items each. -/
structure BlockRadixSort (K V : Type) where
  sort : SortDirection → (ℕ → ℕ → K × V) → ℕ → ℕ → K × V

/-- What CUB documents for integer keys: the items, taken in blocked order, are sorted stably by
their keys and left in blocked order. -/
def BlockRadixSort.Lawful (BRS : BlockRadixSort (Word d) V) : Prop :=
  ∀ dir data, IsStableSort Prod.fst dir.le (blocked data tileElements)
    (blocked (BRS.sort dir data) tileElements)

section Kernels

variable {K : Type} [Zero K]

/-- The keys-only kernel.  Keys alone are sorted as keys with empty values. -/
def sortKeys (BRS : BlockRadixSort K Unit) (dir : SortDirection) (keysIn : ℕ → K) (n : ℕ) :
    Traced Buf (List (ℕ × K)) := do
  let threadKeys ← gather blockThreads itemsPerThread (loadItem .keysIn keysIn n 0 0)
  let sorted := BRS.sort dir fun t i => (threadKeys t i, ())
  storeTile .keysOut n 0 fun t i => (sorted t i).1

/-- The key-value kernel: the stores to the keys and to the values. -/
def sortPairs [Zero V] (BRS : BlockRadixSort K V) (dir : SortDirection) (keysIn : ℕ → K)
    (valuesIn : ℕ → V) (n : ℕ) : Traced Buf (List (ℕ × K) × List (ℕ × V)) := do
  let threadKeys ← gather blockThreads itemsPerThread (loadItem .keysIn keysIn n 0 0)
  let threadValues ← gather blockThreads itemsPerThread (loadItem .valuesIn valuesIn n 0 0)
  let sorted := BRS.sort dir fun t i => (threadKeys t i, threadValues t i)
  let keys ← storeTile .keysOut n 0 fun t i => (sorted t i).1
  let values ← storeTile .valuesOut n 0 fun t i => (sorted t i).2
  return (keys, values)

variable {len : Buf → ℕ} {n : ℕ} (hn : n ≤ 1024)
include hn

/-- The keys-only sort stays in bounds exactly when the output has room for the keys. -/
theorem sortKeys_inBounds (BRS : BlockRadixSort K Unit) (dir : SortDirection) (keysIn : ℕ → K)
    (hkeys : len .keysIn = n) :
    InBounds len (sortKeys BRS dir keysIn n) ↔ n ≤ len .keysOut := by
  rw [sortKeys, inBounds_bind, inBounds_loadTile, inBounds_storeTile, tileFits_zero hn,
    tileFits_zero hn]
  exact and_iff_right hkeys.ge

/-- The key-value sort also needs room in both value buffers. -/
theorem sortPairs_inBounds [Zero V] (BRS : BlockRadixSort K V) (dir : SortDirection)
    (keysIn : ℕ → K) (valuesIn : ℕ → V) (hkeys : len .keysIn = n) :
    InBounds len (sortPairs BRS dir keysIn valuesIn n) ↔
      n ≤ len .keysOut ∧ n ≤ len .valuesIn ∧ n ≤ len .valuesOut := by
  rw [sortPairs, inBounds_bind, inBounds_bind, inBounds_bind, inBounds_bind, inBounds_loadTile,
    inBounds_loadTile, inBounds_storeTile, inBounds_storeTile]
  simp only [tileFits_zero hn, inBounds_pure, and_true, hkeys.ge, true_and]
  exact and_left_comm

end Kernels

/-- The keys-only sort does its job on this input: the keys come out permuted and in order. -/
def KeysSorted (BRS : BlockRadixSort (Word d) Unit) (dir : SortDirection) (n : ℕ)
    (keysIn keysOut : ℕ → Word d) : Prop :=
  let out := scatter keysOut (sortKeys BRS dir keysIn n).val
  (firstN out n).Perm (firstN keysIn n) ∧ (firstN out n).Pairwise dir.le

/-- The key-value sort does its job on this input: the pairs come out stably sorted. -/
def PairsSorted [Zero V] (BRS : BlockRadixSort (Word d) V) (dir : SortDirection) (n : ℕ)
    (keysIn keysOut : ℕ → Word d) (valuesIn valuesOut : ℕ → V) : Prop :=
  let stores := (sortPairs BRS dir keysIn valuesIn n).val
  IsStableSort Prod.fst dir.le (firstN (fun j => (keysIn j, valuesIn j)) n)
    (firstN (fun j => (scatter keysOut stores.1 j, scatter valuesOut stores.2 j)) n)

/-- The sort as documented, by insertion. -/
def BlockRadixSort.documented : BlockRadixSort (Word d) V where
  sort dir data t i :=
    ((blocked data tileElements).insertionSort fun x y => dir.le x.1 y.1).getD (4 * t + i) (data 0 0)

theorem BlockRadixSort.documented_lawful : (documented (d := d) (V := V)).Lawful := by
  intro dir data
  rw [documented, blocked_getD (by simp)]
  exact isStableSort_insertionSort _

/-! ### From the kernels to the tile -/

section Tile

variable (BRS : BlockRadixSort (Word d) V) (dir : SortDirection) (n : ℕ)

/-- The item that is stored to position `j`. -/
def sortedItem (data : ℕ → ℕ → Word d × V) (j : ℕ) : Word d × V :=
  BRS.sort dir data (j % 256) (j / 256)

/-- The keys that are stored are the keys that were loaded, in order. -/
def TileSorted (keysIn : ℕ → Word d) (values : ℕ → ℕ → V) : Prop :=
  let out := firstN (fun j => (sortedItem BRS dir
    (fun t i => (tileItem keysIn n 0 0 t i, values t i)) j).1) n
  out.Perm (firstN keysIn n) ∧ out.Pairwise dir.le

variable {n}

theorem keysSorted_iff (BRS : BlockRadixSort (Word d) Unit) (hn : n ≤ 1024)
    (keysIn keysOut : ℕ → Word d) :
    KeysSorted BRS dir n keysIn keysOut ↔ TileSorted BRS dir n keysIn fun _ _ => () := by
  have hout : firstN (scatter keysOut (sortKeys BRS dir keysIn n).val) n =
      firstN (fun j => (sortedItem BRS dir (fun t i => (tileItem keysIn n 0 0 t i, ())) j).1) n := by
    refine firstN_congr fun j hj => ?_
    rw [sortKeys, val_bind]
    simp only [val_gather, val_loadItem]
    exact scatter_tile _ _ _ hj hn
  simp only [KeysSorted, TileSorted, hout]

/-- The pairs that are stored. -/
theorem firstN_pairs [Zero V] (hn : n ≤ 1024) (keysIn keysOut : ℕ → Word d)
    (valuesIn valuesOut : ℕ → V) :
    firstN (fun j => (scatter keysOut (sortPairs BRS dir keysIn valuesIn n).val.1 j,
      scatter valuesOut (sortPairs BRS dir keysIn valuesIn n).val.2 j)) n =
      firstN (sortedItem BRS dir fun t i => (tileItem keysIn n 0 0 t i, tileItem valuesIn n 0 0 t i))
        n := by
  refine firstN_congr fun j hj => ?_
  rw [sortPairs, val_bind, val_bind, val_bind, val_bind, val_pure]
  simp only [val_gather, val_loadItem]
  rw [scatter_tile _ _ _ hj hn, scatter_tile _ _ _ hj hn]
  rfl

/-- A stable sort of the pairs sorts the keys. -/
theorem tileSorted_of_pairsSorted [Zero V] (hn : n ≤ 1024) {keysIn keysOut : ℕ → Word d}
    {valuesIn valuesOut : ℕ → V}
    (h : PairsSorted BRS dir n keysIn keysOut valuesIn valuesOut) :
    TileSorted BRS dir n keysIn (tileItem valuesIn n 0 0) := by
  simp only [PairsSorted, firstN_pairs BRS dir hn] at h
  have hperm := h.perm.map Prod.fst
  have hsorted := h.sorted
  simp only [firstN, List.map_map] at hperm hsorted
  exact ⟨hperm, hsorted⟩

/-! ### Inputs that come out wrong -/

theorem getElem?_sorted_keys (data : ℕ → ℕ → Word d × V) {r : ℕ} (hr : r < 1024) :
    ((blocked (BRS.sort dir data) tileElements).map Prod.fst)[r]? =
      some (BRS.sort dir data (r / 4) (r % 4)).1 := by
  have hr' : r < tileElements := hr
  rw [List.getElem?_map, getElem?_blocked _ hr']
  rfl

variable {BRS} (hBRS : BRS.Lawful) (keysIn : ℕ → Word d) (values : ℕ → ℕ → V)
include hBRS

/-- The keys of the tile after the sort are the loaded keys and the padding. -/
theorem sorted_keys_perm :
    ((blocked (BRS.sort dir fun t i => (tileItem keysIn n 0 0 t i, values t i))
      tileElements).map Prod.fst).Perm (firstN (fun j => if j < n then keysIn j else 0) 1024) := by
  refine ((hBRS dir _).perm.map Prod.fst).trans ?_
  refine ((blocked_perm _).map Prod.fst).trans (List.Perm.of_eq ?_)
  rw [List.map_map]
  refine List.map_congr_left fun j _ => (tileItem_striped keysIn n 0 0 j).trans ?_
  simp only [Nat.zero_mul, Nat.zero_add]

/-- The keys with `e` in the first two positions and `o` elsewhere. -/
def firstTwo (e o : Word d) (j : ℕ) : Word d := if j < 2 then e else o

omit hBRS in
theorem count_firstTwo {e o : Word d} (hne : o ≠ e) {n : ℕ} (hn : 2 ≤ n) :
    (firstN (firstTwo e o) n).count e = 2 := by
  induction n, hn using Nat.le_induction with
  | base => simp [firstN, List.range_succ, firstTwo]
  | succ n hn ih =>
    unfold firstN at ih ⊢
    rw [List.range_succ, List.map_append, List.count_append, ih]
    simp [firstTwo, show ¬ n < 2 by omega, hne]

variable {dir} in
/-- Two keys that belong in front: the second is stored past the fourth. -/
theorem not_tileSorted_firstTwo {e o : Word d} (hne : o ≠ e) (hle : ¬ dir.le o e) (hn : 2 ≤ n)
    (hpad : n = 1024 ∨ (n ≤ 1024 ∧ o = 0)) : ¬ TileSorted BRS dir n (firstTwo e o) values := by
  rintro ⟨hperm, hsorted⟩
  -- the padding, if there is any, looks like the rest of the input
  have htile : firstN (fun j => if j < n then firstTwo e o j else 0) 1024 =
      firstN (firstTwo e o) 1024 := by
    refine firstN_congr fun j hj => ?_
    split_ifs with hjn
    · rfl
    · rcases hpad with rfl | ⟨-, rfl⟩
      · exact absurd hj hjn
      · simp [firstTwo, show ¬ j < 2 by omega]
  have hkeys := sorted_keys_perm dir hBRS (firstTwo e o) values (n := n)
  rw [htile] at hkeys
  have hval : ∀ x ∈ (blocked (BRS.sort dir fun t i =>
      (tileItem (firstTwo e o) n 0 0 t i, values t i)) tileElements).map Prod.fst,
      x = e ∨ x = o := by
    intro x hx
    obtain ⟨j, -, rfl⟩ := List.mem_map.1 (hkeys.subset hx)
    unfold firstTwo
    split_ifs <;> simp
  have hfourth : (BRS.sort dir (fun t i => (tileItem (firstTwo e o) n 0 0 t i, values t i)) 1 0).1
      = o := by
    refine eq_of_count_le (hBRS dir _).sorted hval hle (k := 4) ?_
      (getElem?_sorted_keys BRS dir _ (by decide))
    rw [hkeys.count_eq, count_firstTwo hne (by decide)]
    decide
  have hsecond : (firstN (fun j => (sortedItem BRS dir
      (fun t i => (tileItem (firstTwo e o) n 0 0 t i, values t i)) j).1) n)[1]? = some o := by
    rw [firstN, List.getElem?_map, List.getElem?_range (by omega)]
    exact congrArg some hfourth
  have hcount := count_le_of_getElem hsorted hsecond hne hle
  rw [hperm.count_eq, count_firstTwo hne hn] at hcount
  omega

variable {dir} in
/-- Keys that belong behind the padding: the first one stored is padding. -/
theorem not_tileSorted_const {p : Word d} (hne : p ≠ 0) (hle : ¬ dir.le p 0) (hpos : 0 < n)
    (hn : n < 1024) : ¬ TileSorted BRS dir n (fun _ => p) values := by
  rintro ⟨hperm, -⟩
  have hkeys := sorted_keys_perm dir hBRS (fun _ => p) values (n := n)
  have hpad : 0 < ((blocked (BRS.sort dir fun t i => (tileItem (fun _ => p) n 0 0 t i, values t i))
      tileElements).map Prod.fst).count 0 := by
    rw [hkeys.count_eq, List.count_pos_iff]
    exact List.mem_map.2 ⟨n, by simpa using hn, by simp⟩
  have hfirst : (BRS.sort dir (fun t i => (tileItem (fun _ => p) n 0 0 t i, values t i)) 0 0).1
      = 0 := by
    have hget := getElem?_sorted_keys BRS dir
      (fun t i => (tileItem (fun _ => p) n 0 0 t i, values t i)) (r := 0) (by decide)
    by_contra hx
    obtain ⟨j, -, hj⟩ := List.mem_map.1 (hkeys.subset (List.mem_of_getElem? hget))
    split_ifs at hj
    · rw [show 0 / 4 = 0 from rfl, show 0 % 4 = 0 from rfl, ← hj] at hget
      have hcount := count_le_of_getElem (hBRS dir _).sorted hget hne hle
      omega
    · exact hx hj.symm
  have hmem : (0 : Word d) ∈ firstN (fun _ => p) n := by
    refine hperm.subset (List.mem_map.2 ⟨0, List.mem_range.2 hpos, ?_⟩)
    exact hfirst
  obtain ⟨j, -, hj⟩ := List.mem_map.1 hmem
  exact hne hj

/-! ### A single unsigned key, descending -/

theorem sortedItem_single (hd : d.signed = false) :
    sortedItem BRS .descending (fun t i => (tileItem keysIn 1 0 0 t i, values t i)) 0 =
      (keysIn 0, values 0 0) := by
  have hstable := hBRS .descending fun t i => (tileItem keysIn 1 0 0 t i, values t i)
  have hkeys := sorted_keys_perm .descending hBRS keysIn values (n := 1)
  obtain ⟨loaded, hloaded⟩ :=
    exists_blocked_eq_cons fun t i => (tileItem keysIn 1 0 0 t i, values t i)
  obtain ⟨rest, hrest⟩ := exists_blocked_eq_cons
    (BRS.sort .descending fun t i => (tileItem keysIn 1 0 0 t i, values t i))
  rw [hrest] at hkeys hstable
  rw [hloaded] at hstable
  -- the head of the sorted tile has the loaded key
  have hkey : (BRS.sort .descending (fun t i => (tileItem keysIn 1 0 0 t i, values t i)) 0 0).1
      = keysIn 0 := by
    have hmem : keysIn 0 ∈ firstN (fun j => if j < 1 then keysIn j else 0) 1024 :=
      List.mem_map.2 ⟨0, by simp, rfl⟩
    have hmax : value (keysIn 0) ≤ value
        (BRS.sort .descending (fun t i => (tileItem keysIn 1 0 0 t i, values t i)) 0 0).1 := by
      have hsorted := hstable.sorted
      rw [List.map_cons, List.pairwise_cons] at hsorted
      rcases List.mem_cons.1 (hkeys.symm.subset hmem) with heq | hin
      · rw [heq]
      · exact hsorted.1 _ hin
    obtain ⟨j, -, hj⟩ := List.mem_map.1 (hkeys.subset List.mem_cons_self)
    split_ifs at hj with hj1
    · obtain rfl : j = 0 := by omega
      exact hj.symm
    · rw [← hj, value_zero] at hmax
      rw [← hj]
      apply value_injective
      rw [value_zero]
      exact le_antisymm (value_nonneg hd _) hmax
  -- so it is the first element of that key on both sides
  have hfilter := hstable.stable (keysIn 0)
  rw [List.filter_cons_of_pos (by simpa using hkey),
    List.filter_cons_of_pos (by simp [tileItem, itemIndex])]
    at hfilter
  have hhead := (List.cons.inj hfilter).1
  simpa [sortedItem, tileItem, itemIndex] using hhead

/-! ### Exactly when the kernels sort -/

/-- Nothing to sort, or one key that stays ahead of the padding. -/
def Sortable (d : IntDtype) (dir : SortDirection) (n : ℕ) : Prop :=
  n = 0 ∨ (n = 1 ∧ dir = .descending ∧ d.signed = false)

variable {dir} in
theorem sortable_of_tileSorted (hn : n ≤ 1024) (h : ∀ keysIn, TileSorted BRS dir n keysIn values) :
    Sortable d dir n := by
  have hone : (1 : Word d) ≠ 0 := one_ne_zero_word
  have hlt01 : ¬ value (1 : Word d) ≤ value 0 := not_le.2 value_zero_lt_one
  rcases Nat.eq_zero_or_pos n with rfl | hpos
  · exact .inl rfl
  cases dir with
  | ascending =>
    exfalso
    rcases hn.lt_or_eq with hlt | rfl
    · refine not_tileSorted_const hBRS values hone ?_ hpos hlt (h _)
      exact hlt01
    · refine not_tileSorted_firstTwo hBRS values hone ?_ (by decide) (.inl rfl) (h (firstTwo 0 1))
      exact hlt01
  | descending =>
    by_cases hlt : n < 2
    · refine .inr ⟨by omega, rfl, ?_⟩
      by_contra hsigned
      have hneg := value_neg_one (d := d) (by simpa using hsigned)
      refine not_tileSorted_const hBRS values (p := -1) ?_ ?_ hpos (by omega) (h _)
      · intro heq
        rw [heq, value_zero] at hneg
        cases hneg
      · show ¬ value (0 : Word d) ≤ value (-1)
        rw [hneg, value_zero]
        decide
    · exact absurd (h (firstTwo 1 0)) (not_tileSorted_firstTwo hBRS values hone.symm hlt01
        (not_lt.1 hlt) (.inr ⟨hn, rfl⟩))

end Tile

/-- **The keys-only kernel sorts all inputs of a length, and the key-value kernel sorts them
stably, exactly when there is nothing to sort or a single unsigned key is sorted descending.** -/
theorem sort_correct_iff [Zero V] {BK : BlockRadixSort (Word d) Unit}
    {BP : BlockRadixSort (Word d) V} (hBK : BK.Lawful) (hBP : BP.Lawful) (dir : SortDirection)
    {n : ℕ} (hn : n ≤ 1024) :
    ((∀ keysIn keysOut : ℕ → Word d, KeysSorted BK dir n keysIn keysOut) ↔ Sortable d dir n) ∧
      ((∀ (keysIn keysOut : ℕ → Word d) (valuesIn valuesOut : ℕ → V),
        PairsSorted BP dir n keysIn keysOut valuesIn valuesOut) ↔ Sortable d dir n) := by
  refine ⟨⟨fun h => ?_, ?_⟩, ⟨fun h => ?_, ?_⟩⟩
  · refine sortable_of_tileSorted hBK (fun _ _ => ()) hn fun keysIn => ?_
    exact (keysSorted_iff dir BK hn keysIn keysIn).1 (h keysIn keysIn)
  · rintro (rfl | ⟨rfl, rfl, hd⟩) keysIn keysOut
    · simp [KeysSorted, firstN_zero]
    · rw [keysSorted_iff _ BK hn]
      simp only [TileSorted, firstN_one, sortedItem_single hBK keysIn (fun _ _ => ()) hd]
      exact ⟨List.Perm.refl _, List.pairwise_singleton _ _⟩
  · refine sortable_of_tileSorted hBP (tileItem (fun _ => 0) n 0 0) hn fun keysIn => ?_
    exact tileSorted_of_pairsSorted BP dir hn (h keysIn keysIn (fun _ => 0) fun _ => 0)
  · rintro (rfl | ⟨rfl, rfl, hd⟩) keysIn keysOut valuesIn valuesOut
    · simp only [PairsSorted, firstN_zero]
      exact isStableSort_of_length_le_one (Nat.zero_le _)
    · have hvalue : tileItem valuesIn 1 0 0 0 0 = valuesIn 0 := rfl
      simp only [PairsSorted, firstN_pairs BP _ hn, firstN_one,
        sortedItem_single hBP keysIn (tileItem valuesIn 1 0 0) hd, hvalue]
      exact isStableSort_of_length_le_one (le_refl 1)

/-- One unsigned key, descending, is sorted. -/
theorem sort_correct_single :
    KeysSorted (d := .u32) BlockRadixSort.documented .descending 1 (fun _ => 5) fun _ => 0 :=
  (sort_correct_iff (V := ℕ) BlockRadixSort.documented_lawful BlockRadixSort.documented_lawful
    .descending (n := 1) (by decide)).1.2 (.inr ⟨rfl, rfl, rfl⟩) _ _

/-- A single key sorted ascending is replaced by padding. -/
theorem sort_ascending_one_incorrect :
    ¬ ∀ keysIn keysOut : ℕ → Word .u32,
      KeysSorted BlockRadixSort.documented .ascending 1 keysIn keysOut := by
  intro h
  have hsorted := h (fun _ => 1) fun _ => 0
  rw [keysSorted_iff _ _ (by decide)] at hsorted
  exact not_tileSorted_const BlockRadixSort.documented_lawful _ (by decide) (by decide)
    (by decide) (by decide) hsorted

end Cub

end AtomrAccel
