import Mathlib.Tactic

/-!
# Regions of memory

* `Region`, `Apart`: addresses from `ptr` on, and regions that share none;
* `total_len_le`: regions apart within bounds are together no longer than the bounds.
-/

/-- The addresses `ptr`, …, `ptr + len - 1`. -/
structure Region where
  ptr : ℕ
  len : ℕ
  deriving DecidableEq, Repr

namespace Region

/-- The regions have no byte in common. -/
def Apart (r r' : Region) : Prop := r.ptr + r.len ≤ r'.ptr ∨ r'.ptr + r'.len ≤ r.ptr

instance (r r' : Region) : Decidable (r.Apart r') := inferInstanceAs (Decidable (_ ∨ _))

theorem Apart.symm {r r' : Region} (h : r.Apart r') : r'.Apart r := Or.symm h

/-- Regions apart that are not empty start at different addresses. -/
theorem Apart.ptr_ne {r r' : Region} (h : r.Apart r') (hr : 0 < r.len) (hr' : 0 < r'.len) :
    r.ptr ≠ r'.ptr := by
  rintro heq
  rcases h with h | h <;> omega

/-- The addresses of a region. -/
def cells (r : Region) : Finset ℕ := Finset.Ico r.ptr (r.ptr + r.len)

theorem card_cells (r : Region) : r.cells.card = r.len := by
  rw [cells, Nat.card_Ico, Nat.add_sub_cancel_left]

theorem Apart.disjoint {r r' : Region} (h : r.Apart r') : Disjoint r.cells r'.cells := by
  rw [Finset.disjoint_left]
  intro a ha ha'
  rw [cells, Finset.mem_Ico] at ha ha'
  rcases h with h | h <;> omega

/-- The addresses of several regions. -/
def allCells (rs : List Region) : Finset ℕ := rs.foldr (fun r cs => r.cells ∪ cs) ∅

theorem mem_allCells {rs : List Region} {a : ℕ} : a ∈ allCells rs ↔ ∃ r ∈ rs, a ∈ r.cells := by
  induction rs with
  | nil => simp [allCells]
  | cons r rs ih =>
    show a ∈ r.cells ∪ allCells rs ↔ _
    rw [Finset.mem_union, ih, List.exists_mem_cons_iff]

/-- Regions apart have as many addresses as their lengths add up to. -/
theorem card_allCells {rs : List Region} (h : rs.Pairwise Apart) :
    (allCells rs).card = (rs.map len).sum := by
  induction h with
  | nil => rfl
  | @cons r rs hr _ ih =>
    have hdisj : Disjoint r.cells (allCells rs) := by
      rw [Finset.disjoint_left]
      intro a ha ha'
      obtain ⟨r', hr', hmem⟩ := mem_allCells.1 ha'
      exact Finset.disjoint_left.1 (hr r' hr').disjoint ha hmem
    show (r.cells ∪ allCells rs).card = _
    rw [Finset.card_union_of_disjoint hdisj, card_cells, ih, List.map_cons, List.sum_cons]

/-- Regions apart within bounds are together no longer than the bounds. -/
theorem total_len_le {rs : List Region} {lo hi : ℕ} (h : rs.Pairwise Apart)
    (hbounds : ∀ r ∈ rs, lo ≤ r.ptr ∧ r.ptr + r.len ≤ hi) : (rs.map len).sum ≤ hi - lo := by
  rw [← card_allCells h, ← Nat.card_Ico lo hi]
  refine Finset.card_le_card fun a ha => ?_
  obtain ⟨r, hr, hmem⟩ := mem_allCells.1 ha
  obtain ⟨hlo, hhi⟩ := hbounds r hr
  rw [cells, Finset.mem_Ico] at hmem
  rw [Finset.mem_Ico]
  omega

end Region
