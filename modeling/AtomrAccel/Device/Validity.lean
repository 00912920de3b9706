import AtomrAccel.Lib.Transition
import AtomrAccel.Device.GpuRef

/-!
# Validity of a `GpuRef` against the installed context

The cells of `DeviceState` are written at different moments: `run_init` bumps the generation and
then installs the context it built, `post_stop` clears the context and leaves the generation
alone, and a `GpuRef` is stamped when it is minted, not when its slice is allocated.  Library
actors and their spawned tasks mint concurrently with the `ContextActor`, so a mint may fall
between any two of these steps.

* `Device`, `Op`, `step`: the device with its live `GpuRef`s, one label per write;
* `Valid`: a `GpuRef` whose `access` succeeds points into the installed context;
* `OpOk`: what each operation has to find;
* `along_valid_iff`: the runs that keep `Valid` throughout are the runs whose every operation
  finds `OpOk`.
-/

namespace AtomrAccel

namespace Validity

/-- A device and the `GpuRef`s minted on it that are still alive. -/
structure Device where
  mockMode : Bool
  state : DeviceState
  /-- some `Arc<DeviceState>` is still held, so that weak references upgrade -/
  alive : Bool
  /-- the number of contexts built so far -/
  nextCtx : CtxId
  /-- the context of the `run_init` under way that has bumped and not yet installed -/
  building : Option CtxId
  refs : List GpuRefInner
  deriving DecidableEq

/-- The operations on a device and its references. -/
inductive Op
  /-- `run_init` up to and including `bump_generation` -/
  | runInitBump
  /-- `run_init`: `install_context` -/
  | runInitInstall
  /-- `ContextActor::post_stop`: `clear_context` -/
  | postStop
  /-- `ContextActor::post_restart`, which only sends messages -/
  | postRestart
  /-- `GpuRef::new` on a slice of any context built so far -/
  | mint (slice : CudaSlice)
  | dropRef (r : GpuRefInner)
  /-- `DeviceActor::post_stop` -/
  | beginShutdown
  /-- the last `Arc<DeviceState>` goes away -/
  | dropState
  deriving DecidableEq

namespace Device

/-- A device before its first context, with no references. -/
def new (deviceId : ℕ) (mockMode : Bool) : Device :=
  ⟨mockMode, DeviceState.new deviceId, true, 0, none, []⟩

/-- `Weak::upgrade` on the state. -/
def upgrade (s : Device) : Option DeviceState := if s.alive then some s.state else none

/-- A `GpuRef` whose `access` succeeds has its slice in the installed context. -/
def Valid (s : Device) : Prop :=
  ∀ r ∈ s.refs, ∀ slice, r.access s.upgrade = .ok slice → s.state.currentCtx = some slice.ctx

/-- The state is held by somebody and takes operations; otherwise no `access` succeeds. -/
def Open (s : Device) : Prop := s.alive = true ∧ s.state.acceptingOps = true

end Device

/-- One write.  `run_init` runs to its end before the `ContextActor` does anything else. -/
def step (s : Device) : Op → Option Device
  | .runInitBump =>
    if s.building.isSome then none
    else if s.mockMode then some { s with state := s.state.bumpGeneration }
    else some { s with
      state := s.state.bumpGeneration, nextCtx := s.nextCtx + 1, building := some s.nextCtx }
  | .runInitInstall =>
    s.building.map fun c => { s with state := s.state.installContext c, building := none }
  | .postStop =>
    if s.building.isSome then none else some { s with state := s.state.clearContext }
  | .postRestart => some s
  | .mint slice =>
    if s.alive = true ∧ slice.ctx < s.nextCtx then
      some { s with refs := GpuRefInner.new slice s.state :: s.refs }
    else none
  | .dropRef r => some { s with refs := s.refs.erase r }
  | .beginShutdown => some { s with state := s.state.beginShutdown }
  | .dropState => some { s with alive := false }

/-- What an operation has to find while the device is open. -/
def OpOk (s : Device) (op : Op) : Prop :=
  s.Open → match op with
    -- the counter does not run into the stamp of a live reference to another context
    | .runInitBump =>
      ∀ r ∈ s.refs, r.generation = s.state.generation + 1 → s.state.currentCtx = some r.slice.ctx
    -- nothing was minted since the bump, and nothing current is alive when the context goes
    | .runInitInstall | .postStop => ∀ r ∈ s.refs, r.generation ≠ s.state.generation
    | .mint slice => s.state.currentCtx = some slice.ctx
    | .postRestart | .dropRef _ | .beginShutdown | .dropState => True

/-- The device as a transition system. -/
def system (deviceId : ℕ) (mockMode : Bool) : Transition.System Device Op :=
  ⟨Device.new deviceId mockMode, step⟩

/-! ### What one operation does to validity -/

namespace Device

theorem valid_iff (s : Device) :
    s.Valid ↔ (s.Open → ∀ r ∈ s.refs, r.generation = s.state.generation →
      s.state.currentCtx = some r.slice.ctx) := by
  constructor
  · intro h hopen r hr hgen
    refine h r hr r.slice (GpuRefInner.access_eq_ok.2 ⟨s.state, ?_, hopen.2, hgen, rfl⟩)
    simp [upgrade, hopen.1]
  · intro h r hr slice hacc
    obtain ⟨st, hup, hacc, hgen, rfl⟩ := GpuRefInner.access_eq_ok.1 hacc
    unfold upgrade at hup
    split_ifs at hup with halive
    cases hup
    exact h ⟨halive, hacc⟩ r hr hgen

theorem valid_of_not_open {s : Device} (h : ¬ s.Open) : s.Valid :=
  s.valid_iff.2 fun hopen => absurd hopen h

/-- Validity, with the freshness of the contexts that `run_init` builds. -/
structure Inv (s : Device) : Prop where
  valid : s.Valid
  current_lt : ∀ c, s.state.currentCtx = some c → c < s.nextCtx
  building_fresh : ∀ c, s.building = some c → c < s.nextCtx ∧ s.state.currentCtx ≠ some c

theorem inv_new (deviceId : ℕ) (mockMode : Bool) : (new deviceId mockMode).Inv where
  valid := by simp [Valid, new]
  current_lt := by simp [new, DeviceState.new]
  building_fresh := by simp [new]

end Device

open Device

/-- A step out of an invariant state leads to a valid one exactly when it finds `OpOk`. -/
theorem valid_step_iff {s s' : Device} {op : Op} (hinv : s.Inv) (hs : step s op = some s') :
    s'.Valid ↔ OpOk s op := by
  have hvalid := s.valid_iff.1 hinv.valid
  cases op with
  | runInitBump =>
    simp only [step] at hs
    split_ifs at hs <;> cases hs <;> exact valid_iff _
  | runInitInstall =>
    simp only [step, Option.map_eq_some_iff] at hs
    obtain ⟨c, hc, rfl⟩ := hs
    rw [valid_iff]
    refine forall_congr' fun hopen => forall₂_congr fun r hr => ⟨fun h hgen => ?_, fun h hgen => ?_⟩
    · -- the reference was valid for the old context, which is not the new one
      have hold := hvalid hopen r hr hgen
      have hnew : some c = some r.slice.ctx := h hgen
      exact (hinv.building_fresh c hc).2 (hold.trans hnew.symm)
    · exact absurd hgen h
  | postStop =>
    simp only [step] at hs
    split_ifs at hs
    cases hs
    rw [valid_iff]
    refine forall_congr' fun _ => forall₂_congr fun r _ => ?_
    simp
  | postRestart =>
    cases hs
    exact iff_of_true hinv.valid fun _ => trivial
  | mint slice =>
    simp only [step] at hs
    split_ifs at hs
    cases hs
    rw [valid_iff]
    refine forall_congr' fun hopen => ⟨fun h => ?_, fun h r hr hgen => ?_⟩
    · exact h (GpuRefInner.new slice s.state) List.mem_cons_self rfl
    · rcases List.mem_cons.1 hr with rfl | hr
      · exact h
      · exact hvalid hopen r hr hgen
  | dropRef r =>
    cases hs
    refine iff_of_true ?_ fun _ => trivial
    exact (valid_iff _).2 fun hopen r' hr' hgen => hvalid hopen r' (List.mem_of_mem_erase hr') hgen
  | beginShutdown =>
    cases hs
    exact iff_of_true (valid_of_not_open fun h => Bool.noConfusion h.2) fun _ => trivial
  | dropState =>
    cases hs
    exact iff_of_true (valid_of_not_open fun h => Bool.noConfusion h.1) fun _ => trivial

theorem inv_step {s s' : Device} {op : Op} (hinv : s.Inv) (hop : OpOk s op)
    (hs : step s op = some s') : s'.Inv := by
  have hvalid : s'.Valid := (valid_step_iff hinv hs).2 hop
  obtain ⟨-, hcur, hbuild⟩ := hinv
  cases op with
  | runInitBump =>
    simp only [step] at hs
    split_ifs at hs with hb hmock <;> cases hs
    · exact ⟨hvalid, hcur, hbuild⟩
    · refine ⟨hvalid, fun c hc => Nat.lt_succ_of_lt (hcur c hc), fun c hc => ?_⟩
      obtain rfl : s.nextCtx = c := Option.some.inj hc
      exact ⟨Nat.lt_succ_self _, fun h => absurd (hcur _ h) (lt_irrefl _)⟩
  | runInitInstall =>
    simp only [step, Option.map_eq_some_iff] at hs
    obtain ⟨c, hc, rfl⟩ := hs
    refine ⟨hvalid, fun d hd => ?_, fun d hd => by cases hd⟩
    obtain rfl : c = d := Option.some.inj hd
    exact (hbuild c hc).1
  | postStop =>
    simp only [step] at hs
    split_ifs at hs with hb
    cases hs
    exact ⟨hvalid, fun c hc => (by cases hc),
      fun c hc => absurd (Option.isSome_iff_exists.2 ⟨c, hc⟩) hb⟩
  | postRestart | dropRef r | beginShutdown | dropState =>
    cases hs
    exact ⟨hvalid, hcur, hbuild⟩
  | mint slice =>
    simp only [step] at hs
    split_ifs at hs
    cases hs
    exact ⟨hvalid, hcur, hbuild⟩

/-! ### Whole runs -/

/-- **A run keeps every accessible `GpuRef` inside the installed context exactly when each of
its operations finds what `OpOk` asks for.** -/
theorem along_valid_iff (deviceId : ℕ) (mockMode : Bool) (ops : List Op) :
    (system deviceId mockMode).Along Device.Valid (Device.new deviceId mockMode) ops ↔
      (system deviceId mockMode).Meets OpOk (Device.new deviceId mockMode) ops := by
  have hinv := Device.inv_new deviceId mockMode
  constructor
  · intro h
    exact Transition.System.meets_of_along (I := Device.Inv)
      (fun s op s' hs hstep hP => (valid_step_iff hs hstep).1 hP)
      (fun s op s' hs hC hstep => inv_step hs hC hstep) hinv h
  · intro h
    exact Transition.System.along_of_meets (I := Device.Inv)
      (fun s hs => hs.valid) (fun s op s' hs hC hstep => inv_step hs hC hstep) hinv h

/-- The stop of a `ContextActor` leaves the generation alone, so a reference minted before it is
still handed out with no context installed. -/
theorem access_after_post_stop :
    ¬ (system 0 false).Along Device.Valid (Device.new 0 false)
      [.runInitBump, .runInitInstall, .mint ⟨0, 0, 4⟩, .postStop] := by
  intro h
  have hend := h.last (t := ⟨false, ⟨0, 1, true, none, ⟨0, 0⟩⟩, true, 1, none, [⟨⟨0, 0, 4⟩, 1⟩]⟩)
    (by decide)
  have hmem := hend ⟨⟨0, 0, 4⟩, 1⟩ (by decide) ⟨0, 0, 4⟩ (by decide)
  cases hmem

end Validity

end AtomrAccel
