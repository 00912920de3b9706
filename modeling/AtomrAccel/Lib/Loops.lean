import Mathlib.Tactic

/-!
# Loops that may panic, and arrays in rows

A loop is a fold over a list in `Option`, and `none` when one of its rounds panics.

* `foldlM_range`, `foldlM_inv`: the invariant rules, with and without the number of rounds;
* `foldlM_append`, `foldlM_eq_none`: a loop that appends, and one in which a round panics;
* `store`: an assignment to an index, which has to be in range;
* `index_lt`, `index_inj`, `exists_index`: the indices `y * w + x` of an array of rows of
  length `w`;
* `foldlM_store`, `foldlM_store_eq_none`: two nested loops that assign each of them its own value,
  and what happens when an index or a value panics.
-/

namespace Loops

section Rules

variable {σ δ ι : Type*}

/-- The invariant `P k` holds after `k` rounds. -/
theorem foldlM_range {n : ℕ} {b : σ → ℕ → Option σ} {P : ℕ → σ → Prop} {s : σ} (h0 : P 0 s)
    (hstep : ∀ k < n, ∀ s, P k s → ∃ s', b s k = some s' ∧ P (k + 1) s') :
    ∃ s', (List.range n).foldlM b s = some s' ∧ P n s' := by
  induction n with
  | zero => exact ⟨s, rfl, h0⟩
  | succ n ih =>
    obtain ⟨s₁, hs₁, h₁⟩ := ih fun k hk => hstep k (Nat.lt_succ_of_lt hk)
    obtain ⟨s₂, hs₂, h₂⟩ := hstep n (Nat.lt_succ_self n) s₁ h₁
    refine ⟨s₂, ?_, h₂⟩
    rw [List.range_succ, List.foldlM_append, hs₁]
    show (b s₁ n).bind _ = _
    rw [hs₂]
    rfl

theorem foldlM_inv {ds : List δ} {body : σ → δ → Option σ} {P : σ → Prop} {s : σ} (h0 : P s)
    (hstep : ∀ d ∈ ds, ∀ s, P s → ∃ s', body s d = some s' ∧ P s') :
    ∃ s', ds.foldlM body s = some s' ∧ P s' := by
  induction ds generalizing s with
  | nil => exact ⟨s, rfl, h0⟩
  | cons d ds ih =>
    obtain ⟨hd, hds⟩ := List.forall_mem_cons.1 hstep
    obtain ⟨s₁, hs₁, h₁⟩ := hd s h0
    rw [List.foldlM_cons, hs₁]
    exact ih h₁ hds

theorem foldlM_append {ds : List δ} {body : List ι → δ → Option (List ι)} {g : δ → List ι}
    (h : ∀ d ∈ ds, ∀ out, body out d = some (out ++ g d)) (out : List ι) :
    ds.foldlM body out = some (out ++ ds.flatMap g) := by
  induction ds generalizing out with
  | nil => simp
  | cons d ds ih =>
    obtain ⟨hd, hds⟩ := List.forall_mem_cons.1 h
    rw [List.foldlM_cons, hd out, List.flatMap_cons, ← List.append_assoc]
    exact ih hds _

/-- A loop panics when one of its rounds does. -/
theorem foldlM_eq_none {ds : List δ} {body : σ → δ → Option σ} {d : δ} (hd : d ∈ ds)
    (h : ∀ s, body s d = none) (s : σ) : ds.foldlM body s = none := by
  induction ds generalizing s with
  | nil => cases hd
  | cons e ds ih =>
    rw [List.foldlM_cons]
    rcases List.mem_cons.1 hd with rfl | hd
    · rw [h]
      rfl
    · cases body s e with
      | none => rfl
      | some s' => exact ih hd s'

end Rules

section Rows

variable {w h x y x' y' i : ℕ}

theorem index_lt (hx : x < w) (hy : y < h) : y * w + x < w * h := by
  calc y * w + x < y * w + w := by omega
    _ = (y + 1) * w := by ring
    _ ≤ h * w := Nat.mul_le_mul_right w hy
    _ = w * h := Nat.mul_comm h w

theorem index_inj (hx : x < w) (hx' : x' < w) (he : y * w + x = y' * w + x') :
    x = x' ∧ y = y' := by
  have hw : 0 < w := Nat.zero_lt_of_lt hx
  have hxx : (y * w + x) % w = (y' * w + x') % w := by rw [he]
  have hyy : (y * w + x) / w = (y' * w + x') / w := by rw [he]
  rw [Nat.mul_add_mod', Nat.mul_add_mod', Nat.mod_eq_of_lt hx, Nat.mod_eq_of_lt hx'] at hxx
  rw [Nat.mul_comm y, Nat.mul_comm y', Nat.mul_add_div hw, Nat.mul_add_div hw,
    Nat.div_eq_of_lt hx, Nat.div_eq_of_lt hx'] at hyy
  exact ⟨hxx, by omega⟩

/-- Every index is that of a column and a row. -/
theorem exists_index (hi : i < w * h) : ∃ x < w, ∃ y < h, i = y * w + x := by
  have hw : 0 < w := Nat.pos_of_ne_zero fun h0 => by simp [h0] at hi
  exact ⟨i % w, Nat.mod_lt i hw, i / w, Nat.div_lt_of_lt_mul hi, (Nat.div_add_mod' i w).symm⟩

end Rows

section Store

variable {α : Type*} {w h : ℕ} {g : ℕ → ℕ → α} {f : ℕ → ℕ → Option (ℕ × α)}
  {out : List α}

/-- `out[i] = v`. -/
def store (out : List α) (i : ℕ) (v : α) : Option (List α) :=
  if i < out.length then some (out.set i v) else none

theorem store_of_lt {i : ℕ} {v : α} (hi : i < out.length) : store out i v = some (out.set i v) :=
  if_pos hi

/-- One row is assigned. -/
theorem foldlM_store_row {y : ℕ} (hy : y < h) (hlen : out.length = w * h)
    (hf : ∀ x < w, f x y = some (y * w + x, g x y)) :
    ∃ out', (List.range w).foldlM
        (fun out x => (f x y).bind fun p => store out p.1 p.2) out = some out' ∧
      out'.length = w * h ∧ (∀ x < w, out'[y * w + x]? = some (g x y)) ∧
      ∀ i, (∀ x < w, i ≠ y * w + x) → out'[i]? = out[i]? := by
  obtain ⟨out', hout', hlen', hdone, hrest⟩ := foldlM_range (n := w) (s := out)
    (b := fun out x => (f x y).bind fun p => store out p.1 p.2)
    (P := fun k out' => out'.length = w * h ∧
      (∀ x < k, out'[y * w + x]? = some (g x y)) ∧
      ∀ i, (∀ x < k, i ≠ y * w + x) → out'[i]? = out[i]?)
    ⟨hlen, fun x hx => absurd hx (Nat.not_lt_zero x), fun i _ => rfl⟩ (by
      rintro k hk s ⟨hs, hdone, hrest⟩
      have hi : y * w + k < s.length := hs ▸ index_lt hk hy
      refine ⟨s.set (y * w + k) (g k y), ?_, ?_, fun x hx => ?_, fun i hi' => ?_⟩
      · rw [hf k hk, Option.bind_some, store_of_lt hi]
      · rw [List.length_set, hs]
      · rcases Nat.lt_succ_iff_lt_or_eq.1 hx with hx | rfl
        · rw [List.getElem?_set_ne (by omega), hdone x hx]
        · exact List.getElem?_set_self hi
      · rw [List.getElem?_set_ne (hi' k (Nat.lt_succ_self k)).symm]
        exact hrest i fun x hx => hi' x (Nat.lt_succ_of_lt hx))
  exact ⟨out', hout', hlen', hdone, hrest⟩

/-- Every row is assigned, and so everything. -/
theorem foldlM_store (hlen : out.length = w * h)
    (hf : ∀ x < w, ∀ y < h, f x y = some (y * w + x, g x y)) :
    ∃ out', (List.range h).foldlM (fun out y => (List.range w).foldlM
        (fun out x => (f x y).bind fun p => store out p.1 p.2) out) out = some out' ∧
      out'.length = w * h ∧ ∀ x < w, ∀ y < h, out'[y * w + x]? = some (g x y) := by
  obtain ⟨out', hout', hlen', hdone⟩ := foldlM_range (n := h) (s := out)
    (b := fun out y => (List.range w).foldlM
      (fun out x => (f x y).bind fun p => store out p.1 p.2) out)
    (P := fun k out' => out'.length = w * h ∧
      ∀ x < w, ∀ y < k, out'[y * w + x]? = some (g x y))
    ⟨hlen, fun x _ y hy => absurd hy (Nat.not_lt_zero y)⟩ (by
      rintro k hk s ⟨hs, hdone⟩
      obtain ⟨s', hs', hlen', hrow, hrest⟩ := foldlM_store_row hk hs fun x hx => hf x hx k hk
      refine ⟨s', hs', hlen', fun x hx y hy => ?_⟩
      rcases Nat.lt_succ_iff_lt_or_eq.1 hy with hy | rfl
      · rw [hrest _ fun x' hx' he => hy.ne (index_inj hx hx' he).2, hdone x hx y hy]
      · exact hrow x hx)
  exact ⟨out', hout', hlen', hdone⟩

theorem foldlM_store_eq_none {x y : ℕ} (hx : x < w) (hy : y < h) (hf : f x y = none) :
    (List.range h).foldlM (fun out y => (List.range w).foldlM
      (fun out x => (f x y).bind fun p => store out p.1 p.2) out) out = none :=
  foldlM_eq_none (List.mem_range.2 hy) (fun out =>
    foldlM_eq_none (List.mem_range.2 hx) (fun out => by rw [hf]; rfl) out) out

end Store

end Loops
