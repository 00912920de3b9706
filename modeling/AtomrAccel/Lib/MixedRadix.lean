import Mathlib.Algebra.BigOperators.Group.List.Basic
import Mathlib.Data.List.Forall2
import Mathlib.Data.List.Lex
import Mathlib.Data.Set.Function
import Mathlib.Order.Interval.Set.Defs
import Mathlib.Tactic

/-!
# Mixed-radix numerals

A multi-index has one digit for each extent.  Its address is the sum of its digits, each times the
stride of its axis.  In row-major strides the address of a multi-index is its place in the
lexicographic order.

* `Indices`, `address`, `rowMajor`: multi-indices, addresses and strides;
* `address_mem_Ico`, `strictMonoOn_address`, `bijOn_address`: in row-major strides the addresses
  follow the lexicographic order and fill an interval from zero;
* `address_append`, `address_map_mul`, `rowMajor_concat`: axes side by side, and scaled strides.
-/

namespace MixedRadix

variable {dims strides strides' index index' : List ℤ} {c d i n s : ℤ}

/-- The multi-indices within the extents. -/
def Indices (dims : List ℤ) : Set (List ℤ) :=
  {index | List.Forall₂ (fun i d => 0 ≤ i ∧ i < d) index dims}

/-- The place of an index. -/
def address (strides index : List ℤ) : ℤ := (List.zipWith (· * ·) index strides).sum

/-- The stride of an axis is the product of the extents after it. -/
def rowMajor : List ℤ → List ℤ
  | [] => []
  | _ :: dims => dims.prod :: rowMajor dims

@[simp] theorem mem_indices_nil : index ∈ Indices [] ↔ index = [] :=
  List.forall₂_nil_right_iff

@[simp] theorem cons_mem_indices :
    i :: index ∈ Indices (d :: dims) ↔ (0 ≤ i ∧ i < d) ∧ index ∈ Indices dims :=
  List.forall₂_cons

theorem exists_cons_of_mem (h : index ∈ Indices (d :: dims)) :
    ∃ i rest, index = i :: rest ∧ (0 ≤ i ∧ i < d) ∧ rest ∈ Indices dims := by
  obtain ⟨i, rest, hi, hrest, rfl⟩ := List.forall₂_cons_right_iff.1 h
  exact ⟨i, rest, rfl, hi, hrest⟩

theorem reverse_mem_indices : index.reverse ∈ Indices dims.reverse ↔ index ∈ Indices dims :=
  List.forall₂_reverse_iff

theorem concat_mem_indices :
    index ++ [i] ∈ Indices (dims ++ [d]) ↔ index ∈ Indices dims ∧ 0 ≤ i ∧ i < d := by
  rw [← reverse_mem_indices, List.reverse_concat, List.reverse_concat, cons_mem_indices,
    reverse_mem_indices, and_comm]

theorem exists_concat_of_mem (h : index ∈ Indices (dims ++ [d])) :
    ∃ rest i, index = rest ++ [i] ∧ rest ∈ Indices dims ∧ 0 ≤ i ∧ i < d := by
  rcases List.eq_nil_or_concat index with rfl | ⟨rest, i, rfl⟩
  · have hlen := h.length_eq
    rw [List.length_append] at hlen
    cases hlen
  · rw [List.concat_eq_append] at h ⊢
    exact ⟨rest, i, rfl, concat_mem_indices.1 h⟩

theorem length_of_mem (h : index ∈ Indices dims) : index.length = dims.length := h.length_eq

@[simp] theorem address_nil : address strides [] = 0 := rfl

@[simp] theorem address_cons :
    address (s :: strides) (i :: index) = i * s + address strides index := by
  rw [address, List.zipWith_cons_cons, List.sum_cons, address]

@[simp] theorem length_rowMajor : (rowMajor dims).length = dims.length := by
  induction dims with
  | nil => rfl
  | cons d dims ih => rw [rowMajor, List.length_cons, List.length_cons, ih]

/-! ### Row-major addresses -/

theorem address_mem_Ico (h : index ∈ Indices dims) :
    address (rowMajor dims) index ∈ Set.Ico 0 dims.prod := by
  induction dims generalizing index with
  | nil =>
    obtain rfl := mem_indices_nil.1 h
    exact ⟨le_refl 0, zero_lt_one⟩
  | cons d dims ih =>
    obtain ⟨i, rest, rfl, ⟨hi, hid⟩, hrest⟩ := exists_cons_of_mem h
    obtain ⟨hlow, hhigh⟩ := ih hrest
    have hprod : 0 ≤ dims.prod := hlow.trans hhigh.le
    -- the rest of the digits stays below one step of the first
    have hstep : (i + 1) * dims.prod ≤ d * dims.prod := mul_le_mul_of_nonneg_right hid hprod
    rw [rowMajor, address_cons, List.prod_cons]
    refine ⟨add_nonneg (mul_nonneg hi hprod) hlow, ?_⟩
    calc i * dims.prod + address (rowMajor dims) rest
        < i * dims.prod + dims.prod := add_lt_add_right hhigh _
      _ = (i + 1) * dims.prod := by ring
      _ ≤ d * dims.prod := hstep

/-- A digit outweighs what follows it. -/
theorem digit_lt {j a b p : ℤ} (hij : i < j) (ha : a < p) (hb : 0 ≤ b) (hp : 0 ≤ p) :
    i * p + a < j * p + b := by
  have hstep : (i + 1) * p ≤ j * p := mul_le_mul_of_nonneg_right hij hp
  rw [add_mul, one_mul] at hstep
  omega

/-- Row-major addresses follow the lexicographic order. -/
theorem strictMonoOn_address (dims : List ℤ) :
    StrictMonoOn (address (rowMajor dims)) (Indices dims) := by
  induction dims with
  | nil =>
    intro x hx y hy hxy
    rw [mem_indices_nil] at hx hy
    rw [hx, hy] at hxy
    exact absurd hxy (lt_irrefl _)
  | cons d dims ih =>
    intro x hx y hy hxy
    obtain ⟨i, u, rfl, -, hu⟩ := exists_cons_of_mem hx
    obtain ⟨j, v, rfl, -, hv⟩ := exists_cons_of_mem hy
    rw [rowMajor, address_cons, address_cons]
    rcases List.cons_lt_cons_iff.1 hxy with hij | ⟨rfl, huv⟩
    · obtain ⟨hlow, hhigh⟩ := address_mem_Ico hu
      exact digit_lt hij hhigh (address_mem_Ico hv).1 (hlow.trans hhigh.le)
    · exact add_lt_add_right (ih hu hv huv) _

/-- Every number below the product of the extents is an address. -/
theorem surjOn_address (hpos : ∀ d ∈ dims, 0 < d) :
    Set.SurjOn (address (rowMajor dims)) (Indices dims) (Set.Ico 0 dims.prod) := by
  induction dims with
  | nil =>
    rintro a ⟨hlow, hhigh⟩
    rw [List.prod_nil] at hhigh
    exact ⟨[], mem_indices_nil.2 rfl, by rw [address_nil]; omega⟩
  | cons d dims ih =>
    rintro a ⟨hlow, hhigh⟩
    rw [List.forall_mem_cons] at hpos
    have hprod : 0 < dims.prod := List.prod_pos hpos.2
    -- the first digit is the quotient, the others make up the remainder
    obtain ⟨rest, hrest, haddress⟩ :=
      ih hpos.2 ⟨Int.emod_nonneg a hprod.ne', Int.emod_lt_of_pos a hprod⟩
    refine ⟨a / dims.prod :: rest, cons_mem_indices.2 ⟨⟨?_, ?_⟩, hrest⟩, ?_⟩
    · exact Int.ediv_nonneg hlow hprod.le
    · exact Int.ediv_lt_of_lt_mul hprod (by rwa [List.prod_cons] at hhigh)
    · rw [rowMajor, address_cons, haddress]
      exact Int.ediv_mul_add_emod a dims.prod

/-- Row-major addresses number the multi-indices from zero, without gaps. -/
theorem bijOn_address (hpos : ∀ d ∈ dims, 0 < d) :
    Set.BijOn (address (rowMajor dims)) (Indices dims) (Set.Ico 0 dims.prod) :=
  ⟨fun _ => address_mem_Ico, (strictMonoOn_address dims).injOn, surjOn_address hpos⟩

/-! ### Axes side by side -/

theorem address_append (hlen : index.length = strides.length) :
    address (strides ++ strides') (index ++ index') =
      address strides index + address strides' index' := by
  rw [address, List.zipWith_append hlen, List.sum_append, address, address]

/-- Strides of which each is multiplied by a number. -/
theorem address_map_mul : address (strides.map (c * ·)) index = c * address strides index := by
  induction strides generalizing index with
  | nil => simp [address]
  | cons s strides ih =>
    cases index with
    | nil => rw [address_nil, address_nil, mul_zero]
    | cons i index =>
      rw [List.map_cons, address_cons, address_cons, ih]
      ring

/-- An axis put last multiplies the strides of the others by its extent. -/
theorem rowMajor_concat : rowMajor (dims ++ [c]) = (rowMajor dims).map (c * ·) ++ [1] := by
  induction dims with
  | nil => rfl
  | cons d dims ih =>
    rw [List.cons_append, rowMajor, rowMajor, ih, List.prod_append, List.prod_singleton, mul_comm]
    rfl

end MixedRadix
