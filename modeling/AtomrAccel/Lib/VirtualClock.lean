import Mathlib.Algebra.Order.Group.Abs
import Mathlib.Algebra.Order.Group.Basic
import Mathlib.Tactic

/-!
# Service in the order of virtual clocks

Every client has a clock and a cost.  A service advances the clock of the client it picks by that
client's cost, and a pick is lawful for two clients when the picked clock is ahead of neither of
theirs.

* `advance`, `clocks`: the clocks after one pick and after a list of picks;
* `Lawful`: every pick of the list is ahead of neither `i` nor `j`;
* `Near`: the clocks of `i` and `j` are within one service of each other;
* `abs_served_sub_le`: from clocks that are near, lawful picks serve `i` and `j` equally up to one
  service of each.
-/

namespace VirtualClock

variable {ι K : Type*} [DecidableEq ι] [AddCommGroup K] (cost : ι → K)

/-- The clocks after a service of `c`. -/
def advance (v : ι → K) (c : ι) : ι → K := Function.update v c (v c + cost c)

/-- The clocks after the services of `cs`. -/
def clocks (v : ι → K) (cs : List ι) : ι → K := cs.foldl (advance cost) v

/-- A clock counts the services of its client. -/
theorem clocks_apply (v : ι → K) (cs : List ι) (i : ι) :
    clocks cost v cs i = v i + cs.count i • cost i := by
  induction cs generalizing v with
  | nil => simp [clocks]
  | cons c cs ih =>
    have hstep : clocks cost v (c :: cs) = clocks cost (advance cost v c) cs := rfl
    rw [hstep, ih, advance, List.count_cons]
    by_cases hc : c = i
    · subst hc
      rw [Function.update_self, beq_self_eq_true, if_pos rfl, add_nsmul, one_nsmul]
      abel
    · rw [Function.update_of_ne (Ne.symm hc), if_neg (by simpa using hc), add_zero]

variable [LinearOrder K]

/-- No pick is ahead of `i` or of `j`. -/
def Lawful (i j : ι) : (ι → K) → List ι → Prop
  | _, [] => True
  | v, c :: cs => (v c ≤ v i ∧ v c ≤ v j) ∧ Lawful i j (advance cost v c) cs

/-- Neither of `i` and `j` is ahead of the other by more than its own cost. -/
def Near (i j : ι) (v : ι → K) : Prop := v i - v j ≤ cost i ∧ v j - v i ≤ cost j

variable {cost}

omit [DecidableEq ι] in
theorem Near.symm {i j : ι} {v : ι → K} (h : Near cost i j v) : Near cost j i v := ⟨h.2, h.1⟩

variable [IsOrderedAddMonoid K]

/-- A service of `i`, which is not ahead of `j`. -/
theorem Near.advance_left {i j : ι} {v : ι → K} (h : Near cost i j v) (hcost : ∀ k, 0 ≤ cost k)
    (hle : v i ≤ v j) : Near cost i j (advance cost v i) := by
  obtain ⟨hij, hji⟩ := h
  unfold Near advance
  by_cases hne : j = i
  · subst hne
    simpa using hcost j
  · rw [Function.update_self, Function.update_of_ne hne]
    constructor
    · have hlag : v i - v j ≤ 0 := sub_nonpos.2 hle
      calc v i + cost i - v j = (v i - v j) + cost i := by abel
        _ ≤ 0 + cost i := by gcongr
        _ = cost i := zero_add _
    · calc v j - (v i + cost i) = (v j - v i) - cost i := by abel
        _ ≤ v j - v i := sub_le_self _ (hcost i)
        _ ≤ cost j := hji

/-- A pick that is ahead of neither keeps the two near. -/
theorem Near.advance {i j c : ι} {v : ι → K} (h : Near cost i j v) (hcost : ∀ k, 0 ≤ cost k)
    (hi : v c ≤ v i) (hj : v c ≤ v j) : Near cost i j (advance cost v c) := by
  by_cases hci : c = i
  · subst hci
    exact h.advance_left hcost hj
  · by_cases hcj : c = j
    · subst hcj
      exact (h.symm.advance_left hcost hi).symm
    · unfold Near VirtualClock.advance
      rw [Function.update_of_ne (Ne.symm hci), Function.update_of_ne (Ne.symm hcj)]
      exact h

/-- Lawful picks keep the two near. -/
theorem Near.clocks {i j : ι} {v : ι → K} {cs : List ι} (h : Near cost i j v)
    (hcost : ∀ k, 0 ≤ cost k) (hcs : Lawful cost i j v cs) : Near cost i j (clocks cost v cs) := by
  induction cs generalizing v with
  | nil => exact h
  | cons c cs ih =>
    obtain ⟨⟨hi, hj⟩, hrest⟩ := hcs
    exact ih (h.advance hcost hi hj) hrest

/-- **From clocks that are near, lawful picks serve the two clients equally, up to one service of
each.** -/
theorem abs_served_sub_le {i j : ι} {v : ι → K} {cs : List ι} (h : Near cost i j v)
    (hcost : ∀ k, 0 ≤ cost k) (hcs : Lawful cost i j v cs) :
    |cs.count i • cost i - cs.count j • cost j| ≤ cost i + cost j := by
  obtain ⟨hij, hji⟩ := h.clocks hcost hcs
  rw [clocks_apply, clocks_apply] at hij hji
  -- what was served is the change of the lag between the two clocks
  have hserved : cs.count i • cost i - cs.count j • cost j =
      (v i + cs.count i • cost i - (v j + cs.count j • cost j)) + (v j - v i) := by abel
  have hserved' : -(cs.count i • cost i - cs.count j • cost j) =
      (v j + cs.count j • cost j - (v i + cs.count i • cost i)) + (v i - v j) := by abel
  refine abs_le'.2 ⟨?_, ?_⟩
  · rw [hserved]
    exact add_le_add hij h.2
  · rw [hserved', add_comm (cost i)]
    exact add_le_add hji h.1

end VirtualClock
