import Mathlib.Data.List.Basic
import Mathlib.Tactic

/-!
# Stream compaction by ranks

Compaction moves the positions that satisfy a predicate to the front, each to the number of such
positions before it; a partition also moves the others to the back, in reverse.

* `rank`, `kept`, `getElem?_kept`: the kept positions stand at their ranks;
* `layout`, `position`, `getElem?_layout`, `position_perm`: the partitioned order, and that every
  place of it is taken exactly once.
-/

namespace Compact

variable (p : ℕ → Bool)

/-- The number of positions before `t` that satisfy `p`. -/
def rank (t : ℕ) : ℕ := ((List.range t).filter p).length

/-- The positions below `n` that satisfy `p`. -/
def kept (n : ℕ) : List ℕ := (List.range n).filter p

/-- The kept positions in order, then the others in reverse order. -/
def layout (n : ℕ) : List ℕ := kept p n ++ (kept (fun j => !p j) n).reverse

/-- The place of `t` in the layout. -/
def position (n t : ℕ) : ℕ := if p t then rank p t else n - 1 - (t - rank p t)

theorem rank_succ (t : ℕ) : rank p (t + 1) = rank p t + if p t then 1 else 0 := by
  simp only [rank, List.range_succ, List.filter_append, List.length_append]
  cases hp : p t <;> simp [hp]

/-- Counting below `n` only. -/
theorem rank_lt_and (n k : ℕ) : rank (fun s => s < n && p s) k = rank p (min k n) := by
  induction k with
  | zero => rw [Nat.zero_min]; rfl
  | succ k ih =>
    rw [rank_succ, ih]
    by_cases hk : k < n
    · rw [Nat.min_eq_left hk.le, Nat.min_eq_left (show k + 1 ≤ n from hk), rank_succ]
      simp [hk]
    · rw [Nat.min_eq_right (not_lt.1 hk), Nat.min_eq_right (by omega)]
      simp [hk]

theorem rank_le (t : ℕ) : rank p t ≤ t :=
  (List.length_filter_le _ _).trans_eq List.length_range

theorem kept_succ (n : ℕ) : kept p (n + 1) = kept p n ++ [n].filter p := by
  rw [kept, List.range_succ, List.filter_append]
  rfl

theorem rank_not (t : ℕ) : rank (fun j => !p j) t = t - rank p t := by
  induction t with
  | zero => rfl
  | succ t ih =>
    have hle := rank_le p t
    rw [rank_succ, rank_succ, ih]
    cases p t
    · simp
      omega
    · simp

variable {p} {n t j : ℕ}

theorem getElem?_kept (ht : t < n) (hp : p t = true) : (kept p n)[rank p t]? = some t := by
  induction n with
  | zero => omega
  | succ n ih =>
    rw [kept_succ]
    rcases Nat.lt_succ_iff_lt_or_eq.1 ht with hlt | rfl
    · have hkept := ih hlt
      rw [List.getElem?_append_left (List.getElem?_eq_some_iff.1 hkept).1]
      exact hkept
    · have hlen : (kept p t).length = rank p t := rfl
      rw [List.getElem?_append_right hlen.le, hlen, Nat.sub_self]
      simp [hp]

theorem mem_kept : t ∈ kept p n ↔ t < n ∧ p t = true := by
  simp [kept]

theorem nodup_kept : (kept p n).Nodup := List.nodup_range.filter _

/-- Whatever stands at place `j` among the kept positions has rank `j`. -/
theorem rank_of_getElem? (h : (kept p n)[j]? = some t) : rank p t = j := by
  obtain ⟨ht, hp⟩ := mem_kept.1 (List.mem_of_getElem? h)
  have hrank := getElem?_kept ht hp
  obtain ⟨hj, hget⟩ := List.getElem?_eq_some_iff.1 h
  obtain ⟨hr, hget'⟩ := List.getElem?_eq_some_iff.1 hrank
  exact (List.Nodup.getElem_inj_iff nodup_kept).1 (hget'.trans hget.symm)

/-- A kept position has one more kept position behind it than in front. -/
theorem rank_lt_rank (ht : t < n) (hp : p t = true) : rank p t < rank p n :=
  (List.getElem?_eq_some_iff.1 (getElem?_kept ht hp)).1

/-- Every rank is taken. -/
theorem exists_rank_eq (hj : j < rank p n) : ∃ t < n, p t = true ∧ rank p t = j := by
  have hget := List.getElem?_eq_getElem (l := kept p n) hj
  obtain ⟨ht, hp⟩ := mem_kept.1 (List.mem_of_getElem? hget)
  exact ⟨_, ht, hp, rank_of_getElem? hget⟩

theorem length_layout : (layout p n).length = n := by
  have hnot := rank_not p n
  have hle := rank_le p n
  simp only [layout, List.length_append, List.length_reverse]
  change rank p n + rank (fun j => !p j) n = n
  omega

/-- Every position below `n` stands at its place. -/
theorem getElem?_layout (ht : t < n) : (layout p n)[position p n t]? = some t := by
  unfold layout position
  split_ifs with hp
  · have hkept := getElem?_kept ht hp
    rw [List.getElem?_append_left (List.getElem?_eq_some_iff.1 hkept).1]
    exact hkept
  · have hrej := getElem?_kept (p := fun j => !p j) ht (by simpa using hp)
    have hlt := (List.getElem?_eq_some_iff.1 hrej).1
    have hlen : (kept p n).length + (kept (fun j => !p j) n).length = n := by
      simpa [layout] using length_layout (p := p) (n := n)
    rw [rank_not] at hrej hlt
    rw [List.getElem?_append_right (by omega), List.getElem?_reverse (by omega)]
    convert hrej using 2
    omega

theorem lt_of_mem_layout (h : t ∈ layout p n) : t < n := by
  rcases List.mem_append.1 h with h | h
  · exact (mem_kept.1 h).1
  · exact (mem_kept.1 (List.mem_reverse.1 h)).1

theorem nodup_layout : (layout p n).Nodup := by
  refine List.nodup_append.2 ⟨nodup_kept, List.nodup_reverse.2 nodup_kept, ?_⟩
  rintro s hs t ht rfl
  have hp := (mem_kept.1 hs).2
  have hnot := (mem_kept.1 (List.mem_reverse.1 ht)).2
  simp [hp] at hnot

/-- Whatever stands at place `j` of the layout has position `j`. -/
theorem position_of_getElem? (h : (layout p n)[j]? = some t) : position p n t = j := by
  have hpos := getElem?_layout (p := p) (lt_of_mem_layout (List.mem_of_getElem? h))
  obtain ⟨hj, hget⟩ := List.getElem?_eq_some_iff.1 h
  obtain ⟨hr, hget'⟩ := List.getElem?_eq_some_iff.1 hpos
  exact (List.Nodup.getElem_inj_iff nodup_layout).1 (hget'.trans hget.symm)

theorem position_lt (ht : t < n) : position p n t < n := by
  have hlt := (List.getElem?_eq_some_iff.1 (getElem?_layout (p := p) ht)).1
  rwa [length_layout] at hlt

theorem position_injOn (ht : t < n) (hj : j < n) (h : position p n t = position p n j) : t = j := by
  have h₁ := getElem?_layout (p := p) ht
  have h₂ := getElem?_layout (p := p) hj
  rw [h, h₂] at h₁
  exact (Option.some.inj h₁).symm

/-- No place is taken twice and every place is taken. -/
theorem position_perm (p : ℕ → Bool) (n : ℕ) :
    ((List.range n).map (position p n)).Perm (List.range n) := by
  have hnodup : ((List.range n).map (position p n)).Nodup :=
    (List.nodup_map_iff_inj_on List.nodup_range).2 fun t ht j hj h =>
      position_injOn (List.mem_range.1 ht) (List.mem_range.1 hj) h
  have hsub : (List.range n).map (position p n) ⊆ List.range n := by
    intro x hx
    obtain ⟨t, ht, rfl⟩ := List.mem_map.1 hx
    exact List.mem_range.2 (position_lt (List.mem_range.1 ht))
  exact (List.subperm_of_subset hnodup hsub).perm_of_length_le (by simp)

end Compact
