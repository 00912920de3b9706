import AtomrAccel.Lib.Transition
import AtomrAccel.Device.GpuRef

/-!
# The generation watch

`DeviceState` keeps its generation twice: in the counter that `access` compares with, and in the
watch channel whose receivers are told of every rebuild.  `bump_generation` writes the counter and
then offers the new value to the channel, which stores it only when a receiver is alive; a new
receiver starts from the stored value.

* `Observed`, `Op`, `step`: a device state with the live receivers of its watch, the number of
  bumps, and which of them the channel took last;
* `missed`: the bumps made since the channel last took a value, all of them with no receiver;
* `along_borrow`: in every state of every run the generation is the number of bumps, and a live
  receiver reads what the last bump with a live receiver stored; this is the generation exactly when
  no bump was missed, up to a full turn of the counter.
-/

namespace AtomrAccel

namespace GenerationWatch

/-- A live `watch::Receiver`, with the number of bumps made since it subscribed. -/
structure Receiver where
  lived : ℕ
  deriving DecidableEq, Repr

/-- A device state, the live receivers of its watch, and the history of its bumps. -/
structure Observed where
  state : DeviceState
  receivers : List Receiver
  /-- the bumps made so far -/
  bumps : ℕ
  /-- the last bump made while some receiver was alive, counted from one; zero if there is none -/
  heard : ℕ
  deriving DecidableEq, Repr

/-- The calls on a device state that concern its watch. -/
inductive Op
  | bumpGeneration
  /-- `generation_watch` -/
  | subscribe
  /-- the `k`-th live receiver is dropped -/
  | dropReceiver (k : ℕ)
  deriving DecidableEq, Repr

namespace Observed

/-- A device nobody watches. -/
def new (deviceId : ℕ) : Observed := ⟨DeviceState.new deviceId, [], 0, 0⟩

/-- `*rx.borrow()`: every receiver reads the value stored in the channel. -/
def borrow (s : Observed) : UInt64 := s.state.generationTx.value

/-- The bumps made since the channel last stored a value. -/
def missed (s : Observed) : ℕ := s.bumps - s.heard

end Observed

/-- One call; only a live receiver can be dropped. -/
def step (s : Observed) : Op → Option Observed
  | .bumpGeneration => some
      { state := s.state.bumpGeneration
        receivers := s.receivers.map fun rx => ⟨rx.lived + 1⟩
        bumps := s.bumps + 1
        heard := if s.receivers = [] then s.heard else s.bumps + 1 }
  | .subscribe => some { s with state := s.state.subscribe, receivers := ⟨0⟩ :: s.receivers }
  | .dropReceiver k =>
    if k < s.receivers.length then
      some { s with state := s.state.dropReceiver, receivers := s.receivers.eraseIdx k }
    else none

/-- Runs from a new device state on. -/
def system (deviceId : ℕ) : Transition.System Observed Op := ⟨Observed.new deviceId, step⟩

namespace Observed

/-- Every live receiver reads the generation. -/
def Truthful (s : Observed) : Prop := ∀ rx ∈ s.receivers, s.borrow = s.state.generation

/-- The generation is the number of bumps.  A live receiver reads what the last bump with a live
receiver stored: the generation exactly when no bump was missed, and certainly when the receiver was
there for the last bump. -/
structure Best (s : Observed) : Prop where
  generation : s.state.generation = UInt64.ofNat s.bumps
  heard_le : s.heard ≤ s.bumps
  borrow : ∀ rx ∈ s.receivers, s.borrow = UInt64.ofNat s.heard
  truthful : ∀ rx ∈ s.receivers, (s.borrow = s.state.generation ↔ s.missed % 2 ^ 64 = 0)
  lived : ∀ rx ∈ s.receivers, 0 < rx.lived → s.borrow = s.state.generation

/-- Counter and channel hold the numbers of two bumps, which are the same bump once a live receiver
has been there for one. -/
structure Inv (s : Observed) : Prop where
  count : s.state.generationTx.receivers = s.receivers.length
  generation : s.state.generation = UInt64.ofNat s.bumps
  borrow : s.borrow = UInt64.ofNat s.heard
  heard_le : s.heard ≤ s.bumps
  lived : ∀ rx ∈ s.receivers, 0 < rx.lived → s.heard = s.bumps

theorem inv_new (deviceId : ℕ) : (new deviceId).Inv where
  count := rfl
  generation := rfl
  borrow := rfl
  heard_le := le_rfl
  lived := by simp [new]

variable {s s' : Observed}

theorem inv_bumpGeneration (h : s.Inv) (hs : step s .bumpGeneration = some s') : s'.Inv := by
  cases hs
  have hcount : s.state.bumpGeneration.generationTx.receivers = s.receivers.length := by
    rw [DeviceState.bumpGeneration, Watch.send_receivers, h.count]
  have hgeneration : s.state.bumpGeneration.generation = UInt64.ofNat (s.bumps + 1) := by
    rw [UInt64.ofNat_add, ← h.generation]
    rfl
  by_cases hnone : s.receivers = []
  · -- nothing is stored
    have hzero : s.state.generationTx.receivers = 0 := by rw [h.count, hnone]; rfl
    refine ⟨by simpa using hcount, hgeneration, ?_, ?_, by simp [hnone]⟩
    · simp only [borrow, DeviceState.bumpGeneration, Watch.send_of_no_receivers hzero, hnone,
        if_true]
      exact h.borrow
    · simp only [hnone, if_true]
      exact h.heard_le.trans (Nat.le_succ _)
  · have hpos : s.state.generationTx.receivers ≠ 0 := by
      rw [h.count]
      exact fun hlen => hnone (List.length_eq_zero_iff.1 hlen)
    refine ⟨by simpa using hcount, hgeneration, ?_, ?_, by simp [hnone]⟩
    · simp only [borrow, DeviceState.bumpGeneration, Watch.send_of_receivers hpos, hnone, if_false]
      exact hgeneration
    · simp only [hnone, if_false]
      exact le_rfl

theorem inv_step (h : s.Inv) {op : Op} (hs : step s op = some s') : s'.Inv := by
  cases op with
  | bumpGeneration => exact inv_bumpGeneration h hs
  | subscribe =>
    cases hs
    refine ⟨by simp [DeviceState.subscribe, h.count], h.generation, h.borrow, h.heard_le,
      fun rx hrx hlived => ?_⟩
    rcases List.mem_cons.1 hrx with rfl | hrx
    · exact absurd hlived (lt_irrefl 0)
    · exact h.lived rx hrx hlived
  | dropReceiver k =>
    simp only [step] at hs
    split_ifs at hs with hk
    cases hs
    refine ⟨?_, h.generation, h.borrow, h.heard_le,
      fun rx hrx => h.lived rx (List.mem_of_mem_eraseIdx hrx)⟩
    simp [DeviceState.dropReceiver, h.count, List.length_eraseIdx_of_lt hk]

/-- The counter is ahead of the channel by the missed bumps. -/
theorem Inv.behind (h : s.Inv) : s.state.generation = s.borrow + UInt64.ofNat s.missed := by
  rw [h.generation, h.borrow, ← UInt64.ofNat_add, missed, Nat.add_sub_cancel' h.heard_le]

theorem Inv.truthful_iff (h : s.Inv) :
    s.borrow = s.state.generation ↔ s.missed % 2 ^ 64 = 0 := by
  rw [h.behind, eq_comm, UInt64.add_eq_left, ← UInt64.toNat_inj, UInt64.toNat_ofNat']
  rfl

theorem Inv.best (h : s.Inv) : s.Best where
  generation := h.generation
  heard_le := h.heard_le
  borrow := fun _ _ => h.borrow
  truthful := fun _ _ => h.truthful_iff
  lived := by
    intro rx hrx hlived
    rw [h.truthful_iff, missed, h.lived rx hrx hlived, Nat.sub_self, Nat.zero_mod]

end Observed

/-- **In every state of every run of bumps, subscriptions and drops, the generation is the number of
bumps modulo `2^64`, and a live receiver reads the value that the last bump with a live receiver
stored.  It reads the generation exactly when the bumps made since then are a multiple of `2^64`; a
receiver that was alive at the last bump always does.** -/
theorem along_borrow (deviceId : ℕ) (ops : List Op) :
    (system deviceId).Along Observed.Best (Observed.new deviceId) ops :=
  Transition.System.along_of_inv (I := Observed.Inv) (fun _ hs => hs.best)
    (fun _ _ _ hs hstep => Observed.inv_step hs hstep) (Observed.inv_new deviceId) ops

/-- A receiver that subscribes after the first bump starts from the initial value. -/
theorem late_subscriber_behind :
    ¬ (system 0).Along Observed.Truthful (Observed.new 0) [.bumpGeneration, .subscribe] := by
  intro h
  have hend := h.last (t := ⟨⟨0, 1, true, none, ⟨0, 1⟩⟩, [⟨0⟩], 1, 0⟩) (by decide)
  exact absurd (hend ⟨0⟩ (by decide)) (by decide)

end GenerationWatch

end AtomrAccel
