import AtomrAccel.Cub.Reduce

/-!
# `CubSegmentedReduce`

One block per segment: its threads walk the segment in steps of 256 and the block folds what they
collect.  Offsets and loop counter are 32-bit integers, and the counter wraps.

* `segmentLoop`, `segmentedReduce`: the loop of a thread and the kernel;
* `SegmentFits`: the offsets with which all threads stay inside the input;
* `segmentedReduce_inBounds`: the launch stays in bounds exactly when all segments fit and the
  offset and output buffers have an element per segment.
-/

namespace AtomrAccel

namespace Cub

open Kernel Kernel.Traced

variable {α : Type} (functor : α → α → α)

/-- Conversion to a 32-bit integer. -/
def wrapInt (x : ℤ) : ℤ := Int.bmod x (2 ^ 32)

/-- The number of different values of a counter that grows by 256. -/
def loopPeriod : ℕ := 2 ^ 24

/-- `for (; idx < end; idx += blockDim.x) thread_acc = functor(thread_acc, d_in[idx])`.  A loop that
does not stop within `loopPeriod` rounds does not stop at all, and reads nothing new. -/
def segmentLoop (input : ℕ → α) (stop : ℤ) : ℕ → ℤ → α → Traced Buf α
  | 0, _, acc => pure acc
  | fuel + 1, idx, acc =>
    if idx < stop then do
      let v ← readInt .input input idx
      segmentLoop input stop fuel (wrapInt (idx + 256)) (functor acc v)
    else pure acc

/-- Thread `t` of the block of segment `seg`. -/
def segmentThread (identity : α) (input : ℕ → α) (begins ends : ℕ → BitVec 32) (seg t : ℕ) :
    Traced Buf α := do
  let start ← read .beginOffsets begins seg
  let stop ← read .endOffsets ends seg
  segmentLoop functor input stop.toInt loopPeriod (wrapInt (start.toInt + t)) identity

/-- The segmented-reduce kernel: the stores to the output. -/
def segmentedReduce (BR : BlockReduce α) (identity : α) (input : ℕ → α)
    (begins ends : ℕ → BitVec 32) (numSegments : ℕ) : Traced Buf (List (ℕ × α)) :=
  forEach (List.range (max numSegments 1)) fun seg =>
    if numSegments ≤ seg then pure []
    else do
      let acc ← gather blockThreads 1 fun t _ =>
        segmentThread functor identity input begins ends seg t
      write .output seg (BR.reduceThreads functor fun t => acc t 0)

/-! ### The loop of a thread -/

section Loop

variable (input : ℕ → α) {len : Buf → ℕ} {stop : ℤ}

theorem wrapInt_of_lt {x : ℤ} (hlow : -2 ^ 31 ≤ x) (hhigh : x < 2 ^ 31) : wrapInt x = x := by
  unfold wrapInt
  rw [Int.bmod_eq_of_le] <;> omega

/-- One past the largest integer is the smallest one. -/
theorem wrapInt_overflow : wrapInt (2 ^ 31) = -2 ^ 31 := by decide

theorem segmentLoop_inBounds_succ {fuel : ℕ} {idx : ℤ} {acc : α} (hidx : idx < stop) :
    InBounds len (segmentLoop functor input stop (fuel + 1) idx acc) ↔
      (0 ≤ idx ∧ idx < len .input) ∧ InBounds len (segmentLoop functor input stop fuel
        (wrapInt (idx + 256)) (functor acc (input idx.toNat))) := by
  rw [segmentLoop, if_pos hidx, inBounds_bind, inBounds_readInt, val_readInt]

theorem segmentLoop_inBounds_of_le {fuel : ℕ} {idx : ℤ} {acc : α} (hidx : stop ≤ idx) :
    InBounds len (segmentLoop functor input stop fuel idx acc) := by
  cases fuel with
  | zero => exact inBounds_pure _
  | succ fuel =>
    rw [segmentLoop, if_neg (not_lt.2 hidx)]
    exact inBounds_pure _

/-- Below an end that leaves room for one more step, the loop stays inside. -/
theorem segmentLoop_inBounds (hroom : stop ≤ len .input) (hstop : stop + 255 < 2 ^ 31)
    (fuel : ℕ) {idx : ℤ} (hidx : 0 ≤ idx) (acc : α) :
    InBounds len (segmentLoop functor input stop fuel idx acc) := by
  induction fuel generalizing idx acc with
  | zero => exact inBounds_pure _
  | succ fuel ih =>
    by_cases hlt : idx < stop
    · rw [segmentLoop_inBounds_succ functor input hlt]
      refine ⟨⟨hidx, by omega⟩, ih ?_ _⟩
      rw [wrapInt_of_lt (by omega) (by omega)]
      omega
    · exact segmentLoop_inBounds_of_le functor input (not_lt.1 hlt)

/-- The loop gets as far as the end allows. -/
theorem segmentLoop_advance (k : ℕ) {fuel : ℕ} {idx : ℤ} {acc : α} (hlow : -2 ^ 31 ≤ idx)
    (hhigh : idx < 2 ^ 31) (hstop : stop ≤ 2 ^ 31) (hk : idx + 256 * k < stop + 256)
    (h : InBounds len (segmentLoop functor input stop (fuel + k) idx acc)) :
    ∃ acc', InBounds len (segmentLoop functor input stop fuel (wrapInt (idx + 256 * k)) acc') := by
  induction k generalizing idx acc with
  | zero =>
    rw [wrapInt_of_lt (by omega) (by omega)]
    exact ⟨acc, by simpa using h⟩
  | succ k ih =>
    have hnext := ((segmentLoop_inBounds_succ functor input (show idx < stop by omega)).1 h).2
    rcases Nat.eq_zero_or_pos k with rfl | hpos
    · exact ⟨_, by simpa using hnext⟩
    · rw [wrapInt_of_lt (by omega) (by omega)] at hnext
      obtain ⟨acc', hacc⟩ := ih (by omega) (by omega) (by omega) hnext
      have hidx : idx + 256 * ((k + 1 : ℕ) : ℤ) = idx + 256 + 256 * k := by
        push_cast
        ring
      exact ⟨acc', hidx ▸ hacc⟩

theorem segmentLoop_first {idx : ℤ} {acc : α} {fuel : ℕ} (hfuel : 0 < fuel) (hidx : idx < stop)
    (h : InBounds len (segmentLoop functor input stop fuel idx acc)) :
    0 ≤ idx ∧ idx < len .input := by
  obtain ⟨fuel, rfl⟩ : ∃ f, fuel = f + 1 := ⟨fuel - 1, by omega⟩
  exact ((segmentLoop_inBounds_succ functor input hidx).1 h).1

end Loop

/-! ### The threads of a block -/

section Segment

/-- A segment is read inside the input, and no counter passes the largest integer on its way. -/
def SegmentFits (room : ℕ) (start stop : ℤ) : Prop :=
  if start < stop then 0 ≤ start ∧ stop ≤ room ∧ stop + 255 < 2 ^ 31
  else start + 255 < 2 ^ 31 ∨ stop = -2 ^ 31

instance (room : ℕ) (start stop : ℤ) : Decidable (SegmentFits room start stop) :=
  inferInstanceAs (Decidable (if start < stop then _ else _))

variable (input : ℕ → α) {len : Buf → ℕ} {start stop : ℤ} (acc : α)

/-- All threads of a block stay inside the input. -/
def ThreadsFit (len : Buf → ℕ) (start stop : ℤ) : Prop :=
  ∀ t < 256, InBounds len
    (segmentLoop functor input stop loopPeriod (wrapInt (start + (t : ℕ))) acc)

variable {functor input acc} (h : ThreadsFit functor input acc len start stop)
include h

/-- The first element of each thread. -/
theorem ThreadsFit.first {x : ℤ} (hx : start ≤ x) (hlt : x < start + 256) (hw : wrapInt x < stop) :
    0 ≤ wrapInt x ∧ wrapInt x < len .input := by
  have hthread := h (x - start).toNat (by omega)
  have hidx : start + ((x - start).toNat : ℕ) = x := by omega
  rw [hidx] at hthread
  exact segmentLoop_first functor input (by decide) hw hthread

/-- The counters pass through everything up to a step beyond the end. -/
theorem ThreadsFit.visits (hstart : 0 ≤ start) (hstop : stop ≤ 2 ^ 31) {x : ℤ} (hx : start ≤ x)
    (hlt : x < stop + 256) (hmax : x ≤ 2 ^ 31) (hw : wrapInt x < stop) :
    0 ≤ wrapInt x ∧ wrapInt x < len .input := by
  by_cases hfirst : x < start + 256
  · exact h.first hx hfirst hw
  · obtain ⟨k, hk⟩ : ∃ k : ℕ, (k : ℤ) = (x - start) / 256 := ⟨((x - start) / 256).toNat, by omega⟩
    obtain ⟨t, ht⟩ : ∃ t : ℕ, (t : ℤ) = (x - start) % 256 := ⟨((x - start) % 256).toNat, by omega⟩
    have hidx : start + t + 256 * k = x := by omega
    have hfuel : loopPeriod = loopPeriod - k + k := by
      simp only [loopPeriod]
      omega
    have hthread := h t (by omega)
    rw [wrapInt_of_lt (by omega) (by omega), hfuel] at hthread
    obtain ⟨acc', hacc⟩ := segmentLoop_advance functor input k (by omega) (by omega) hstop
      (by omega) hthread
    rw [hidx] at hacc
    refine segmentLoop_first functor input ?_ hw hacc
    simp only [loopPeriod]
    omega

/-- A segment that is not empty. -/
theorem ThreadsFit.nonempty (hne : start < stop) (hlow : -2 ^ 31 ≤ start) (hstop : stop < 2 ^ 31) :
    0 ≤ start ∧ stop ≤ len .input ∧ stop + 255 < 2 ^ 31 := by
  have hself : ∀ x, start ≤ x → x < stop → wrapInt x = x := fun x hx hlt =>
    wrapInt_of_lt (by omega) (by omega)
  have hpos : 0 ≤ start := by
    have hfirst := h.first le_rfl (by omega) (by rwa [hself start le_rfl hne])
    rw [hself start le_rfl hne] at hfirst
    exact hfirst.1
  refine ⟨hpos, ?_, ?_⟩
  · have hlast := hself (stop - 1) (by omega) (by omega)
    have hvisit := h.visits hpos hstop.le (x := stop - 1) (by omega) (by omega) (by omega)
      (by omega)
    omega
  · by_contra hover
    have hvisit := h.visits hpos hstop.le (x := 2 ^ 31) (by omega) (by omega) le_rfl
      (by rw [wrapInt_overflow]; omega)
    rw [wrapInt_overflow] at hvisit
    omega

/-- A counter that wraps at the start is below every end but the smallest. -/
theorem ThreadsFit.empty (hhigh : start < 2 ^ 31) (hlow : -2 ^ 31 ≤ stop) :
    start + 255 < 2 ^ 31 ∨ stop = -2 ^ 31 := by
  by_contra hover
  have hfirst := h.first (x := 2 ^ 31) (by omega) (by omega) (by rw [wrapInt_overflow]; omega)
  rw [wrapInt_overflow] at hfirst
  omega

omit h in
/-- The threads of a block stay inside the input exactly when the segment fits. -/
theorem threadsFit_iff (functor : α → α → α) (input : ℕ → α) (acc : α)
    (hstart : -2 ^ 31 ≤ start ∧ start < 2 ^ 31) (hstop : -2 ^ 31 ≤ stop ∧ stop < 2 ^ 31) :
    ThreadsFit functor input acc len start stop ↔ SegmentFits (len .input) start stop := by
  unfold SegmentFits
  split_ifs with hne
  · refine ⟨fun h => h.nonempty hne hstart.1 hstop.2, ?_⟩
    rintro ⟨hpos, hroom, hover⟩ t ht
    apply segmentLoop_inBounds functor input hroom hover
    rw [wrapInt_of_lt (by omega) (by omega)]
    omega
  · refine ⟨fun h => h.empty hstart.2 hstop.1, ?_⟩
    intro hfits t ht
    apply segmentLoop_inBounds_of_le functor input
    rcases hfits with hover | rfl
    · rw [wrapInt_of_lt (by omega) (by omega)]
      omega
    · exact (Int.le_bmod (by decide)).trans' (by decide)

end Segment

/-! ### Bounds -/

theorem segmentBlock_inBounds (identity : α) (input : ℕ → α) (begins ends : ℕ → BitVec 32)
    (seg : ℕ) {len : Buf → ℕ} :
    InBounds len (gather blockThreads 1 fun t _ =>
      segmentThread functor identity input begins ends seg t) ↔
        seg < len .beginOffsets ∧ seg < len .endOffsets ∧
          SegmentFits (len .input) (begins seg).toInt (ends seg).toInt := by
  have hrange : ∀ x : BitVec 32, -2 ^ 31 ≤ x.toInt ∧ x.toInt < 2 ^ 31 := fun x =>
    ⟨BitVec.le_toInt x, BitVec.toInt_lt⟩
  rw [← threadsFit_iff functor input identity (hrange _) (hrange _)]
  simp only [inBounds_gather, segmentThread, inBounds_bind, inBounds_read, val_read]
  constructor
  · intro h
    exact ⟨(h 0 (by decide) 0 Nat.one_pos).1, (h 0 (by decide) 0 Nat.one_pos).2.1,
      fun t ht => (h t ht 0 Nat.one_pos).2.2⟩
  · rintro ⟨hbegin, hend, hthreads⟩ t ht _ _
    exact ⟨hbegin, hend, hthreads t ht⟩

/-- The launch stays in bounds exactly when all segments fit and there is an offset of both kinds
and an output element for each of them. -/
theorem segmentedReduce_inBounds (BR : BlockReduce α) (identity : α) (input : ℕ → α)
    (begins ends : ℕ → BitVec 32) (numSegments : ℕ) {len : Buf → ℕ} :
    InBounds len (segmentedReduce functor BR identity input begins ends numSegments) ↔
      numSegments ≤ len .beginOffsets ∧ numSegments ≤ len .endOffsets ∧
        numSegments ≤ len .output ∧
        ∀ seg < numSegments, SegmentFits (len .input) (begins seg).toInt (ends seg).toInt := by
  rw [segmentedReduce, inBounds_forEach]
  simp only [List.mem_range, inBounds_ite, inBounds_pure, implies_true, true_and, inBounds_bind,
    segmentBlock_inBounds, inBounds_write]
  constructor
  · intro h
    have hseg : ∀ seg < numSegments, _ := fun seg hlt => h seg (by omega) (by omega)
    refine ⟨?_, ?_, ?_, fun seg hlt => (hseg seg hlt).1.2.2⟩
    · by_contra hroom
      exact absurd (hseg _ (not_le.1 hroom)).1.1 (lt_irrefl _)
    · by_contra hroom
      exact absurd (hseg _ (not_le.1 hroom)).1.2.1 (lt_irrefl _)
    · by_contra hroom
      exact absurd (hseg _ (not_le.1 hroom)).2 (lt_irrefl _)
  · rintro ⟨hbegin, hend, hout, hsegs⟩ seg _ hlt
    exact ⟨⟨by omega, by omega, hsegs seg (by omega)⟩, by omega⟩

end Cub

end AtomrAccel
