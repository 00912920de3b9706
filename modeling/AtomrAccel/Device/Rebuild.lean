import AtomrAccel.Lib.Transition
import AtomrAccel.Device.GpuRef

/-!
# Rebuilds as observers see them

`run_init` announces a new context before it installs it: `bump_generation` writes the counter and
publishes it on the watch, and `install_context` is the next line.  An observer holds a task per
device, the bridge, which waits on the watch and tells the observer of every new generation; the
observer then asks the device for its context.

* `Device`, `Bridge`, `Fleet`: devices with the bridges of one observer;
* `FleetLabel`, `Fleet.step`: one write of a `ContextActor`, or one turn of a bridge;
* `Device.Moves`, `Fleet.step_moves`: what a step does to a device;
* `Device.Inv`, `Device.Seen`, `Device.Behind`: what the counter says about the installed context,
  about a context once read, and about a generation once told.
-/

namespace AtomrAccel

namespace Rebuild

/-- A device and the `run_init` of its `ContextActor`.  A context is numbered by the bump that
announced it. -/
structure Device where
  mockMode : Bool
  state : DeviceState
  bumps : ℕ
  /-- the context that is announced and not yet installed -/
  building : Option CtxId
  deriving DecidableEq, Repr

namespace Device

/-- A device before its first context. -/
def new (deviceId : ℕ) (mockMode : Bool) : Device := ⟨mockMode, .new deviceId, 0, none⟩

/-- `run_init` up to `bump_generation`; a mock device builds no context. -/
def bump (d : Device) : Device :=
  { d with
    state := d.state.bumpGeneration
    bumps := d.bumps + 1
    building := if d.mockMode then none else some (d.bumps + 1) }

/-- `run_init`: `install_context`. -/
def install (d : Device) (ctx : CtxId) : Device :=
  { d with state := d.state.installContext ctx, building := none }

/-- `ContextActor::post_stop`. -/
def postStop (d : Device) : Device := { d with state := d.state.clearContext }

/-- `DeviceMsg::WatchGeneration`. -/
def watch (d : Device) : Device := { d with state := d.state.subscribe }

/-- The answer to `DeviceMsg::SnapshotContext`, and what the asker makes of a dropped reply. -/
def snapshot (d : Device) (dropped : Bool) : Option CtxId :=
  if dropped then none else d.state.currentCtx

end Device

/-- The task that turns a device's watch into messages. -/
inductive Bridge
  | absent
  /-- it has asked for a receiver -/
  | asking
  /-- it has a receiver and has not read it yet -/
  | holding
  /-- it waits for a value other than `last` -/
  | watching (last : UInt64)
  /-- the receiver did not come in time -/
  | ended
  deriving DecidableEq, Repr

/-- The devices and the bridges of an observer. -/
structure Fleet (n : ℕ) where
  devices : Fin n → Device
  bridges : Fin n → Bridge

/-- A step of one of `n` devices. -/
inductive FleetLabel (n : ℕ)
  | runInitBump (i : Fin n)
  | runInitInstall (i : Fin n)
  | postStop (i : Fin n)
  | answerWatch (i : Fin n)
  | timeout (i : Fin n)
  | borrow (i : Fin n)
  | notify (i : Fin n)
  deriving DecidableEq, Repr

/-- What a bridge tells its observer. -/
structure Notice (n : ℕ) where
  deviceIdx : Fin n
  newGeneration : UInt64
  deriving DecidableEq, Repr

namespace Fleet

variable {n : ℕ}

/-- Device `i` changes. -/
def setDevice (f : Fleet n) (i : Fin n) (d : Device) : Fleet n :=
  { f with devices := Function.update f.devices i d }

/-- The bridge of device `i` changes. -/
def setBridge (f : Fleet n) (i : Fin n) (b : Bridge) : Fleet n :=
  { f with bridges := Function.update f.bridges i b }

/-- One move of a `ContextActor` or of a bridge, with the message it sends.  `run_init` runs to its
end before the `ContextActor` does anything else. -/
def step (f : Fleet n) : FleetLabel n → Option (Fleet n × Option (Notice n))
  | .runInitBump i =>
    if (f.devices i).building.isSome then none
    else some (f.setDevice i (f.devices i).bump, none)
  | .runInitInstall i =>
    (f.devices i).building.map fun ctx => (f.setDevice i ((f.devices i).install ctx), none)
  | .postStop i =>
    if (f.devices i).building.isSome then none
    else some (f.setDevice i (f.devices i).postStop, none)
  | .answerWatch i =>
    match f.bridges i with
    | .asking => some ((f.setDevice i (f.devices i).watch).setBridge i .holding, none)
    | _ => none
  | .timeout i =>
    match f.bridges i with
    | .asking => some (f.setBridge i .ended, none)
    | _ => none
  | .borrow i =>
    match f.bridges i with
    | .holding =>
      some (f.setBridge i (.watching (f.devices i).state.generationTx.value), none)
    | _ => none
  | .notify i =>
    match f.bridges i with
    | .watching last =>
      let gen := (f.devices i).state.generationTx.value
      if gen ≠ last then some (f.setBridge i (.watching gen), some ⟨i, gen⟩) else none
    | _ => none

end Fleet

/-- What is asked of the devices one after the other is indexed by them. -/
theorem forall_rank_concat {α : Type*} {n : ℕ} {P : Fin n → α → Prop} {l : List α} {x : α}
    (hlt : l.length < n) (h : ∀ (i : Fin n) (y : α), l[i.val]? = some y → P i y)
    (hx : P ⟨l.length, hlt⟩ x) (i : Fin n) (y : α) (hy : (l ++ [x])[i.val]? = some y) : P i y := by
  by_cases hi : i.val < l.length
  · rw [List.getElem?_append_left hi] at hy
    exact h i y hy
  · have hlast : i.val = l.length := by
      have := (List.getElem?_eq_some_iff.1 hy).1
      simp only [List.length_append, List.length_singleton] at this
      omega
    obtain rfl : i = ⟨l.length, hlt⟩ := Fin.ext hlast
    simp only [List.getElem?_concat_length, Option.some.injEq] at hy
    exact hy ▸ hx

/-! ### What a step does to a device -/

namespace Device

/-- The counter has room for another bump. -/
def NoWrap (d : Device) : Prop := d.state.generation.toNat + 1 < 2 ^ 64

instance (d : Device) : Decidable d.NoWrap := inferInstanceAs (Decidable (_ < _))

/-- What one step can do to a device. -/
inductive Moves : Device → Device → Prop
  | stay (d : Device) : Moves d d
  | bump {d : Device} (h : d.building = none) (hw : d.NoWrap) : Moves d d.bump
  | install {d : Device} {ctx : CtxId} (h : d.building = some ctx) : Moves d (d.install ctx)
  | postStop {d : Device} (h : d.building = none) : Moves d d.postStop
  | watch (d : Device) : Moves d d.watch

/-- What the counter says: the installed context is the last one announced, or the one before it
while that one is being built. -/
structure Inv (d : Device) : Prop where
  generation : d.state.generation.toNat = d.bumps
  watched : d.state.generationTx.value.toNat ≤ d.bumps
  announced : ∀ b : ℕ, d.building = some b → b = d.bumps
  previous : d.building ≠ none → ∀ c : ℕ, d.state.currentCtx = some c → c + 1 = d.bumps
  installed : d.building = none → ∀ c : ℕ, d.state.currentCtx = some c → c = d.bumps
  mock : d.mockMode = true → d.building = none ∧ d.state.currentCtx = none

theorem inv_new (deviceId : ℕ) (mockMode : Bool) : (new deviceId mockMode).Inv where
  generation := rfl
  watched := le_rfl
  announced := by simp [new]
  previous := by simp [new]
  installed := by simp [new, DeviceState.new]
  mock := by simp [new, DeviceState.new]

theorem send_toNat_le {w : Watch} {v : UInt64} {k : ℕ} (hw : w.value.toNat ≤ k)
    (hv : v.toNat ≤ k) : (w.send v).value.toNat ≤ k := by
  unfold Watch.send
  split_ifs
  · exact hw
  · exact hv

theorem inv_bump {d : Device} (h : d.Inv) (hb : d.building = none) (hw : d.NoWrap) :
    d.bump.Inv := by
  have hgen : (d.state.generation + 1).toNat = d.bumps + 1 := by
    have hroom : d.state.generation.toNat + 1 < 2 ^ 64 := hw
    rw [UInt64.toNat_add, ← h.generation]
    exact Nat.mod_eq_of_lt hroom
  have hold := h.installed hb
  by_cases hmock : d.mockMode = true
  · have hnone := (h.mock hmock).2
    refine ⟨hgen, ?_, ?_, ?_, ?_, ?_⟩
    · exact send_toNat_le (h.watched.trans (Nat.le_succ _)) hgen.le
    all_goals simp [bump, hmock, hnone]
  · refine ⟨hgen, ?_, ?_, ?_, ?_, ?_⟩
    · exact send_toNat_le (h.watched.trans (Nat.le_succ _)) hgen.le
    · intro b hbuild
      simp only [bump, hmock, Bool.false_eq_true, if_false, Option.some.injEq] at hbuild
      exact hbuild.symm
    · intro _ c hc
      exact congrArg (· + 1) (hold c hc)
    all_goals simp [bump, hmock]

theorem inv_install {d : Device} {ctx : CtxId} (h : d.Inv) (hb : d.building = some ctx) :
    (d.install ctx).Inv where
  generation := h.generation
  watched := h.watched
  announced := nofun
  previous hnone := absurd rfl hnone
  installed := by
    intro _ c hc
    cases hc
    exact h.announced ctx hb
  mock hmock := by
    rw [(h.mock hmock).1] at hb
    cases hb

theorem Moves.inv {d d' : Device} (hm : Moves d d') (h : d.Inv) : d'.Inv := by
  cases hm with
  | stay => exact h
  | bump hb hw => exact inv_bump h hb hw
  | install hb => exact inv_install h hb
  | postStop hb =>
    exact ⟨h.generation, h.watched, h.announced, fun hne => absurd hb hne, fun _ _ => nofun,
      fun hmock => ⟨(h.mock hmock).1, rfl⟩⟩
  | watch => exact ⟨h.generation, h.watched, h.announced, h.previous, h.installed, h.mock⟩

/-- The context `c` has been installed. -/
def Seen (d : Device) (c : ℕ) : Prop := c ≤ d.bumps ∧ (d.building ≠ none → c < d.bumps)

/-- The generation `g` has been announced and its context installed. -/
structure Behind (d : Device) (g : UInt64) : Prop where
  le : g.toNat ≤ d.bumps
  current : ∀ c : ℕ, d.state.currentCtx = some c → g.toNat ≤ c
  building : d.building ≠ none → g.toNat < d.bumps

section Moves

variable {d d' : Device} {c : ℕ} {g : UInt64}

theorem Moves.bumps_le (hm : Moves d d') : d.bumps ≤ d'.bumps := by
  cases hm with
  | bump hb hw => exact Nat.le_succ _
  | stay | install hb | postStop hb | watch => exact le_rfl

theorem Inv.seen_current (h : d.Inv) (hc : d.state.currentCtx = some c) : d.Seen c := by
  by_cases hb : d.building = none
  · exact ⟨(h.installed hb c hc).le, fun hne => absurd hb hne⟩
  · have hlt : c < d.bumps := by
      have := h.previous hb c hc
      omega
    exact ⟨hlt.le, fun _ => hlt⟩

theorem Moves.seen (hm : Moves d d') (h : d.Seen c) : d'.Seen c := by
  cases hm with
  | stay => exact h
  | bump hb hw => exact ⟨h.1.trans (Nat.le_succ _), fun _ => Nat.lt_succ_of_le h.1⟩
  | install hb => exact ⟨h.1, fun hne => absurd rfl hne⟩
  | postStop hb => exact h
  | watch => exact h

theorem Moves.behind (hm : Moves d d') (hinv : d.Inv) (h : d.Behind g) : d'.Behind g := by
  cases hm with
  | stay => exact h
  | bump hb hw =>
    exact ⟨h.le.trans (Nat.le_succ _), h.current, fun _ => Nat.lt_succ_of_le h.le⟩
  | install hb =>
    refine ⟨h.le, fun c hc => ?_, fun hne => absurd rfl hne⟩
    cases hc
    exact h.le.trans (hinv.announced _ hb).ge
  | postStop hb => exact ⟨h.le, nofun, h.building⟩
  | watch => exact ⟨h.le, h.current, h.building⟩

/-- A snapshot taken when the generation is not announced and still to be installed. -/
theorem Inv.behind_of_settled (h : d.Inv) (hle : g.toNat ≤ d.bumps)
    (hsettled : d.building = none ∨ d.state.generation ≠ g) : d.Behind g := by
  have hlt : d.building ≠ none → g.toNat < d.bumps := by
    intro hb
    have hne : d.state.generation ≠ g := hsettled.resolve_left hb
    have hne' : d.state.generation.toNat ≠ g.toNat := fun heq => hne (UInt64.toNat_inj.1 heq)
    have := h.generation
    omega
  refine ⟨hle, fun c hc => ?_, hlt⟩
  by_cases hb : d.building = none
  · exact hle.trans (h.installed hb c hc).ge
  · have hc' := h.previous hb c hc
    have := hlt hb
    omega

/-- A context that was installed and is as young as the counter is the installed one. -/
theorem Inv.eq_of_seen {c' : ℕ} (h : d.Inv) (hc : d.state.currentCtx = some c)
    (hseen : d.Seen c') (hle : d.state.generation.toNat ≤ c') : c' = c := by
  have hgen := h.generation
  have hbuilding : d.building = none := by
    by_contra hb
    have := hseen.2 hb
    omega
  have hcur := h.installed hbuilding c hc
  have := hseen.1
  omega

end Moves

end Device

namespace Fleet

variable {n : ℕ}

/-- Bumps find room in the counter. -/
def LabelOk (f : Fleet n) : FleetLabel n → Prop
  | .runInitBump i => (f.devices i).NoWrap
  | .runInitInstall _ | .postStop _ | .answerWatch _ | .timeout _ | .borrow _ | .notify _ => True

instance (f : Fleet n) : ∀ l : FleetLabel n, Decidable (f.LabelOk l)
  | .runInitBump i => inferInstanceAs (Decidable (f.devices i).NoWrap)
  | .runInitInstall _ | .postStop _ | .answerWatch _ | .timeout _ | .borrow _ | .notify _ =>
    isTrue trivial

theorem moves_setDevice {f : Fleet n} {i : Fin n} {d : Device} (h : (f.devices i).Moves d)
    (j : Fin n) : (f.devices j).Moves ((f.setDevice i d).devices j) := by
  by_cases hj : j = i
  · subst hj
    simpa [setDevice] using h
  · simpa [setDevice, Function.update_of_ne hj] using Device.Moves.stay _

/-- Every device makes a move, and what is told is what the watch holds. -/
theorem step_moves {f f' : Fleet n} {l : FleetLabel n} {out : Option (Notice n)}
    (h : f.step l = some (f', out)) (hok : f.LabelOk l) :
    (∀ j, (f.devices j).Moves (f'.devices j)) ∧
      ∀ m, out = some m →
        m.newGeneration = (f'.devices m.deviceIdx).state.generationTx.value := by
  cases l with
  | runInitBump i =>
    simp only [step] at h
    split_ifs at h with hb
    cases h
    have hnone : (f.devices i).building = none := by simpa using hb
    exact ⟨moves_setDevice (.bump hnone hok), nofun⟩
  | runInitInstall i =>
    obtain ⟨ctx, hb, heq⟩ := Option.map_eq_some_iff.1 h
    cases heq
    exact ⟨moves_setDevice (.install hb), nofun⟩
  | postStop i =>
    simp only [step] at h
    split_ifs at h with hb
    cases h
    have hnone : (f.devices i).building = none := by simpa using hb
    exact ⟨moves_setDevice (.postStop hnone), nofun⟩
  | answerWatch i =>
    simp only [step] at h
    split at h
    · cases h
      exact ⟨moves_setDevice (.watch _), nofun⟩
    · cases h
  | timeout i =>
    simp only [step] at h
    split at h
    · cases h
      exact ⟨fun j => .stay _, nofun⟩
    · cases h
  | borrow i =>
    simp only [step] at h
    split at h
    · cases h
      exact ⟨fun j => .stay _, nofun⟩
    · cases h
  | notify i =>
    simp only [step] at h
    split at h
    · split_ifs at h
      cases h
      refine ⟨fun j => .stay _, fun m hm => ?_⟩
      cases hm
      rfl
    · cases h

end Fleet

end Rebuild

end AtomrAccel
