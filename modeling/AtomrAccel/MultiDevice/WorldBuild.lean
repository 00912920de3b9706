import AtomrAccel.MultiDevice.NcclWorld

/-!
# `NcclWorldActor`: whether the world gets built

`ChildReady` comes from a timer and not from the device, so a device may have no context yet when
its message is handled.  A failed attempt is made again only for the next `ChildReady`:
`DeviceContextChanged` is ignored while the world is not built.

* `Waiting`, `Quiescent`: a `ChildReady` is to come; nothing at all is to come;
* `Sound`: what holds in every reachable state, and `world_of_built`: a built world is one of the
  worlds that dispatch requests;
* `Abandoned`, `AttemptOk`, `abandoned_step_iff`: a world is abandoned by the steps of an attempt
  that fails with no `ChildReady` to come, by no others, and for ever;
* `built_iff`: a quiescent world is built exactly when there is a device and no attempt made with no
  `ChildReady` to come has failed.
-/

namespace AtomrAccel

namespace Nccl

open Rebuild

namespace NcclWorld

variable {n : ℕ}

/-- A `ChildReady` is still to be handled. -/
def Waiting (s : NcclWorld n) : Prop :=
  (∃ i, s.sleeping i = true) ∨ ∃ i deviceRef, .childReady i deviceRef ∈ s.mailbox

/-- Nothing is in flight: no message, no timer, no attempt, no notification of a watch and no
`run_init`. -/
structure Quiescent (s : NcclWorld n) : Prop where
  mailbox : s.mailbox = []
  handling : s.handling = .idle
  awake : ∀ i, s.sleeping i = false
  bridges : ∀ i, s.fleet.bridges i = .ended ∨
    s.fleet.bridges i = .watching (s.fleet.devices i).state.generationTx.value
  devices : ∀ i, (s.fleet.devices i).building = none

theorem Quiescent.not_waiting {s : NcclWorld n} (h : s.Quiescent) : ¬ s.Waiting := by
  rintro (⟨i, hi⟩ | ⟨i, deviceRef, hmem⟩)
  · exact absurd ((h.awake i).symm.trans hi) Bool.false_ne_true
  · rw [h.mailbox] at hmem
    cases hmem

/-- Every rank has its collective actor, all of them different. -/
def Ranked (a : NcclWorldActor n) : Prop :=
  ∃ refs : List ActorRef, refs.length = n ∧ refs.Nodup ∧ ∀ i : Fin n, a.collectives i = refs[i.val]?

/-- What holds in every reachable state: the devices are all spawned, an attempt is made only while
the world is not built, and a built world has all its ranks. -/
structure Sound (s : NcclWorld n) : Prop where
  devices : ∀ i, s.actor.devices i ≠ none
  attempt : s.handling ≠ .idle → s.actor.built = false
  ranked : s.actor.built = true → Ranked s.actor

/-- The world is not built and nothing will make it try again. -/
structure Abandoned (s : NcclWorld n) : Prop where
  built : s.actor.built = false
  handling : s.handling = .idle
  waiting : ¬ s.Waiting

end NcclWorld

/-- An attempt made when no `ChildReady` is to come finds the context of every device, and gets its
streams, communicators and collective actors. -/
def AttemptOk {n : ℕ} (s : NcclWorld n) : Label n → Prop
  | .answer dropped =>
    match s.handling with
    | .idle => True
    | .building _ snaps => ¬ s.Waiting → ∀ h : snaps.length < n,
      dropped = false ∧ (s.fleet.devices ⟨snaps.length, h⟩).state.currentCtx ≠ none
  | .finish outcome => ¬ s.Waiting → ∃ refs, outcome = .spawned refs ∧ refs.length = n
  | .fleet _ | .request _ | .wake _ | .receive => True

namespace NcclWorld

variable {n : ℕ} {s s' : NcclWorld n}

theorem sound_started (devices : Fin n → ℕ × Bool) : (started devices).Sound where
  devices _ := Option.some_ne_none _
  attempt hne := absurd rfl hne
  ranked := nofun

theorem tryBuildWorld_eq_building {a : NcclWorldActor n} {cause : Option (Notice n)}
    (hbuilt : a.built = false) (hdevices : ∀ i, a.devices i ≠ none) :
    a.tryBuildWorld cause = .building cause [] := by
  simp [NcclWorldActor.tryBuildWorld, hbuilt, hdevices]

theorem tryBuildWorld_built {a : NcclWorldActor n} {cause : Option (Notice n)}
    (hne : a.tryBuildWorld cause ≠ .idle) : a.built = false := by
  by_contra hbuilt
  simp [NcclWorldActor.tryBuildWorld, hbuilt] at hne

/-- The world is built by an attempt that spawns every collective actor, and by no other. -/
theorem finish_built_iff {a : NcclWorldActor n} {snaps : List CtxId} {outcome : Outcome}
    (hbuilt : a.built = false) (hvalid : outcome.Valid n) :
    (a.finish snaps outcome).built = true ↔ ∃ refs, outcome = .spawned refs ∧ refs.length = n := by
  cases outcome with
  | failed => simp [NcclWorldActor.finish, hbuilt]
  | spawned refs =>
    have hle : refs.length ≤ n := hvalid.1
    unfold NcclWorldActor.finish
    dsimp only
    split_ifs with hlt
    · simp [hbuilt, hlt.ne]
    · simp [le_antisymm hle (not_lt.1 hlt)]

theorem ranked_finish {a : NcclWorldActor n} {snaps : List CtxId} {outcome : Outcome}
    (hbuilt : a.built = false) (hvalid : outcome.Valid n)
    (hnew : (a.finish snaps outcome).built = true) : Ranked (a.finish snaps outcome) := by
  obtain ⟨refs, rfl, hlen⟩ := (finish_built_iff hbuilt hvalid).1 hnew
  refine ⟨refs, hlen, hvalid.2, fun i => ?_⟩
  simp [NcclWorldActor.finish, hlen]

theorem update_devices_ne_none {a : NcclWorldActor n} (h : ∀ j, a.devices j ≠ none) (i : Fin n)
    (deviceRef : ActorRef) (j : Fin n) :
    Function.update a.devices i (some deviceRef) j ≠ none := by
  by_cases hj : j = i
  · simp [hj]
  · simpa [Function.update_of_ne hj] using h j

theorem sound_receive (h : s.Sound) (hs : s.step .receive = some s') : s'.Sound := by
  obtain ⟨-, m, rest, -, hcase⟩ := receive_cases hs
  obtain ⟨req, rfl, rfl⟩ | ⟨i, deviceRef, rfl, rfl⟩ | ⟨notice, rfl, rfl⟩ := hcase
  · exact ⟨h.devices, h.attempt, h.ranked⟩
  · exact ⟨update_devices_ne_none h.devices i deviceRef, tryBuildWorld_built, h.ranked⟩
  · obtain heq | ⟨hbuilt, heq⟩ | ⟨a', -, hbuilt, hdevices, -, heq⟩ :=
      deviceContextChanged_cases s.actor notice
    · rw [heq]
      exact ⟨h.devices, fun hne => absurd rfl hne, h.ranked⟩
    · rw [heq]
      exact ⟨h.devices, fun hne => absurd rfl hne, h.ranked⟩
    · rw [heq]
      refine ⟨?_, fun _ => hbuilt, fun hbuilt' => ?_⟩
      · show ∀ i, a'.devices i ≠ none
        rw [hdevices]
        exact h.devices
      · exact absurd (hbuilt.symm.trans hbuilt') Bool.false_ne_true

theorem Sound.step {l : Label n} (h : s.Sound) (hs : s.step l = some s') : s'.Sound := by
  cases l with
  | fleet l =>
    obtain ⟨r, -, rfl⟩ := Option.map_eq_some_iff.1 hs
    exact ⟨h.devices, h.attempt, h.ranked⟩
  | request req =>
    cases hs
    exact ⟨h.devices, h.attempt, h.ranked⟩
  | wake i =>
    simp only [NcclWorld.step] at hs
    split_ifs at hs
    cases hs
    exact ⟨h.devices, h.attempt, h.ranked⟩
  | receive => exact sound_receive h hs
  | answer dropped =>
    obtain ⟨cause, snaps, hlt, hcase, rfl⟩ := answer_cases hs
    have hbuilt := h.attempt (by simp [hcase])
    exact ⟨h.devices, fun _ => hbuilt, h.ranked⟩
  | finish outcome =>
    obtain ⟨cause, snaps, hcase, -, hvalid, rfl⟩ := finish_cases hs
    have hbuilt := h.attempt (by simp [hcase])
    refine ⟨?_, fun hne => absurd rfl hne, ranked_finish hbuilt hvalid⟩
    show ∀ i, (s.actor.finish snaps outcome).devices i ≠ none
    rw [(actor_finish_cases s.actor snaps outcome).1]
    exact h.devices

theorem waiting_congr (hsleeping : s'.sleeping = s.sleeping)
    (hmailbox : ∀ i deviceRef,
      .childReady i deviceRef ∈ s'.mailbox ↔ .childReady i deviceRef ∈ s.mailbox) :
    s'.Waiting ↔ s.Waiting := by
  simp only [Waiting, hsleeping, hmailbox]

/-- A step that touches neither `built` nor the attempt, and takes no `ChildReady`. -/
theorem abandoned_congr (hbuilt : s'.actor.built = s.actor.built)
    (hhandling : s'.handling = s.handling) (hwaiting : s'.Waiting ↔ s.Waiting) :
    s'.Abandoned ↔ s.Abandoned := by
  constructor
  · rintro ⟨hb, hh, hw⟩
    exact ⟨hbuilt ▸ hb, hhandling ▸ hh, fun hwait => hw (hwaiting.2 hwait)⟩
  · rintro ⟨hb, hh, hw⟩
    exact ⟨hbuilt.trans hb, hhandling.trans hh, fun hwait => hw (hwaiting.1 hwait)⟩

theorem abandoned_receive (h : s.Sound) (hs : s.step .receive = some s') :
    s'.Abandoned ↔ s.Abandoned := by
  obtain ⟨hidle, m, rest, hmail, hcase⟩ := receive_cases hs
  obtain ⟨req, rfl, rfl⟩ | ⟨i, deviceRef, rfl, rfl⟩ | ⟨notice, rfl, rfl⟩ := hcase
  · exact abandoned_congr rfl rfl (waiting_congr rfl fun i deviceRef => by simp [hmail])
  · -- an attempt begins, unless the world is built
    constructor
    · intro habandoned
      have hsome := update_devices_ne_none h.devices i deviceRef
      cases (tryBuildWorld_eq_building habandoned.built hsome).symm.trans habandoned.handling
    · intro habandoned
      exact absurd (.inr ⟨i, deviceRef, hmail ▸ List.mem_cons_self⟩) habandoned.waiting
  · have hwaiting : Waiting { s with mailbox := rest } ↔ s.Waiting :=
      waiting_congr rfl fun i deviceRef => by simp [hmail]
    obtain heq | ⟨hbuilt, heq⟩ | ⟨a', hold, hbuilt, hdevices, -, heq⟩ :=
      deviceContextChanged_cases s.actor notice
    · rw [heq]
      exact abandoned_congr rfl hidle.symm hwaiting
    · rw [heq]
      exact abandoned_congr rfl hidle.symm hwaiting
    · -- the world was built and is torn down for a new attempt
      rw [heq]
      have hsome : ∀ i, a'.devices i ≠ none := by
        rw [hdevices]
        exact h.devices
      rw [tryBuildWorld_eq_building hbuilt hsome]
      constructor
      · intro habandoned
        cases habandoned.handling
      · intro habandoned
        exact absurd (habandoned.built.symm.trans hold) Bool.false_ne_true

theorem snapshot_eq_none_iff {d : Device} {dropped : Bool} :
    d.snapshot dropped = none ↔ ¬ (dropped = false ∧ d.state.currentCtx ≠ none) := by
  cases dropped <;> simp [Device.snapshot]

theorem not_abandoned_of_building {cause : Option (Notice n)} {snaps : List CtxId}
    (hcase : s.handling = .building cause snaps) : ¬ s.Abandoned := by
  intro habandoned
  cases hcase.symm.trans habandoned.handling

theorem abandoned_answer {dropped : Bool} (h : s.Sound)
    (hs : s.step (.answer dropped) = some s') :
    s'.Abandoned ↔ s.Abandoned ∨ ¬ AttemptOk s (.answer dropped) := by
  obtain ⟨cause, snaps, hlt, hcase, rfl⟩ := answer_cases hs
  have hbuilt := h.attempt (by simp [hcase])
  simp only [AttemptOk, hcase, not_abandoned_of_building hcase, false_or]
  constructor
  · rintro ⟨-, hidle, hwaiting⟩ hok
    have hfound := hok hwaiting hlt
    dsimp only at hidle
    split at hidle
    · cases hidle
    · rename_i hnone
      exact snapshot_eq_none_iff.1 hnone hfound
  · intro hok
    obtain ⟨hwaiting, hrest⟩ := Classical.not_imp.1 hok
    obtain ⟨_, hfound⟩ := not_forall.1 hrest
    refine ⟨hbuilt, ?_, hwaiting⟩
    dsimp only
    rw [snapshot_eq_none_iff.2 hfound]

theorem abandoned_finish {outcome : Outcome} (h : s.Sound)
    (hs : s.step (.finish outcome) = some s') :
    s'.Abandoned ↔ s.Abandoned ∨ ¬ AttemptOk s (.finish outcome) := by
  obtain ⟨cause, snaps, hcase, -, hvalid, rfl⟩ := finish_cases hs
  have hbuilt := h.attempt (by simp [hcase])
  have hiff : (s.actor.finish snaps outcome).built = true ↔ _ := finish_built_iff hbuilt hvalid
  simp only [AttemptOk, not_abandoned_of_building hcase, false_or, Classical.not_imp, ← hiff,
    Bool.not_eq_true]
  constructor
  · rintro ⟨hfalse, -, hwaiting⟩
    exact ⟨hwaiting, hfalse⟩
  · rintro ⟨hwaiting, hfalse⟩
    exact ⟨hfalse, rfl, hwaiting⟩

/-- What makes a world abandoned. -/
theorem abandoned_step_iff {l : Label n} (h : s.Sound) (hs : s.step l = some s') :
    s'.Abandoned ↔ s.Abandoned ∨ ¬ AttemptOk s l := by
  cases l with
  | fleet l =>
    obtain ⟨r, -, rfl⟩ := Option.map_eq_some_iff.1 hs
    simp only [AttemptOk, not_true, or_false]
    refine abandoned_congr rfl rfl (waiting_congr rfl fun i deviceRef => ?_)
    simp [afterFleet]
  | request req =>
    cases hs
    simp only [AttemptOk, not_true, or_false]
    refine abandoned_congr rfl rfl (waiting_congr rfl fun i deviceRef => ?_)
    simp
  | wake i =>
    simp only [step] at hs
    split_ifs at hs with hi
    cases hs
    simp only [AttemptOk, not_true, or_false]
    constructor
    · intro habandoned
      exact absurd (.inr ⟨i, i.val, by simp⟩) habandoned.waiting
    · intro habandoned
      exact absurd (.inl ⟨i, hi⟩) habandoned.waiting
  | receive =>
    simp only [AttemptOk, not_true, or_false]
    exact abandoned_receive h hs
  | answer dropped => exact abandoned_answer h hs
  | finish outcome => exact abandoned_finish h hs

end NcclWorld

section Runs

variable {n : ℕ} (devices : Fin n → ℕ × Bool) {ls : List (Label n)} {t : NcclWorld n}

theorem sound_of_run (hrun : (system devices).run (system devices).init ls = some t) : t.Sound :=
  (Transition.System.along_of_inv (fun _ h => h) (fun _ _ _ h hs => h.step hs)
    (NcclWorld.sound_started devices) ls).last hrun

/-- The built world of any run dispatches requests as a `MultiDevice.World`. -/
theorem world_of_built (hrun : (system devices).run (system devices).init ls = some t)
    (hbuilt : t.actor.built = true) :
    ∃ w : MultiDevice.World, w.deviceIds = List.ofFn (fun i => (devices i).1) ∧ w.built = true ∧
      ∀ i : Fin n, t.actor.collectives i = w.collectives[i.val]? := by
  obtain ⟨refs, hlen, hnodup, hrefs⟩ := (sound_of_run devices hrun).ranked hbuilt
  have hids : refs.length = (List.ofFn fun i => (devices i).1).length := by
    rw [hlen, List.length_ofFn]
  exact ⟨⟨_, true, refs, fun _ => hids, hnodup⟩, rfl, rfl, hrefs⟩

theorem abandoned_started_iff : (system devices).init.Abandoned ↔ n = 0 := by
  constructor
  · intro habandoned
    by_contra hn
    exact habandoned.waiting (.inl ⟨⟨0, Nat.pos_of_ne_zero hn⟩, rfl⟩)
  · rintro rfl
    refine ⟨rfl, rfl, ?_⟩
    rintro (⟨i, -⟩ | ⟨i, -⟩)
    · exact i.elim0
    · exact i.elim0

/-- A run leaves the world abandoned exactly when there are no devices or some step of it fails an
attempt with no `ChildReady` to come. -/
theorem not_abandoned_iff (hrun : (system devices).run (system devices).init ls = some t) :
    ¬ t.Abandoned ↔ 0 < n ∧ (system devices).Meets AttemptOk (system devices).init ls := by
  have hsound := NcclWorld.sound_started devices
  constructor
  · intro ht
    have hforever : ∀ s l s', s.Sound ∧ s.Abandoned → (system devices).step s l = some s' →
        s'.Sound ∧ s'.Abandoned :=
      fun s l s' h hs => ⟨h.1.step hs, (NcclWorld.abandoned_step_iff h.1 hs).2 (.inl h.2)⟩
    have hend : ¬ (t.Sound ∧ t.Abandoned) := fun h => ht h.2
    refine ⟨Nat.pos_of_ne_zero fun hn => hend ?_, ?_⟩
    · have hinit := (abandoned_started_iff devices).2 hn
      exact (Transition.System.along_of_inv (fun _ h => h) hforever ⟨hsound, hinit⟩ ls).last hrun
    · exact Transition.System.meets_of_trap (fun _ _ _ h hs => h.step hs) hforever
        (fun s l s' h hs hl => ⟨h.step hs, (NcclWorld.abandoned_step_iff h hs).2 (.inr hl)⟩)
        hsound hrun hend
  · rintro ⟨hn, hmeets⟩
    have hinit : ¬ (system devices).init.Abandoned := fun habandoned =>
      hn.ne' ((abandoned_started_iff devices).1 habandoned)
    have hkept : ∀ s l s', s.Sound ∧ ¬ s.Abandoned → AttemptOk s l →
        (system devices).step s l = some s' → s'.Sound ∧ ¬ s'.Abandoned := by
      intro s l s' ⟨hs, hlive⟩ hl hstep
      refine ⟨hs.step hstep, fun habandoned => ?_⟩
      obtain hold | hbad := (NcclWorld.abandoned_step_iff hs hstep).1 habandoned
      · exact hlive hold
      · exact hbad hl
    exact ((Transition.System.along_of_meets (fun _ h => h) hkept ⟨hsound, hinit⟩ hmeets).last
      hrun).2

/-- In a quiescent state the world is built, with a collective actor for every rank, exactly when
there is a device and every attempt made with no `ChildReady` to come has succeeded. -/
theorem built_iff (hrun : (system devices).run (system devices).init ls = some t)
    (hquiet : t.Quiescent) :
    (t.actor.built = true ∧ ∀ i, t.actor.collectives i ≠ none) ↔
      0 < n ∧ (system devices).Meets AttemptOk (system devices).init ls := by
  rw [← not_abandoned_iff devices hrun]
  constructor
  · rintro ⟨hbuilt, -⟩ habandoned
    exact absurd (habandoned.built.symm.trans hbuilt) Bool.false_ne_true
  · intro hlive
    have hbuilt : t.actor.built = true := by
      by_contra hfalse
      exact hlive ⟨by simpa using hfalse, hquiet.handling, hquiet.not_waiting⟩
    obtain ⟨refs, hlen, -, hrefs⟩ := (sound_of_run devices hrun).ranked hbuilt
    refine ⟨hbuilt, fun i => ?_⟩
    have hi : i.val < refs.length := hlen ▸ i.isLt
    rw [hrefs i, List.getElem?_eq_getElem hi]
    exact Option.some_ne_none _

end Runs

/-- A world built from the first context of its device and rebuilt from the second. -/
theorem rebuilt_quiescent :
    ∃ t, (system oneDevice).run (system oneDevice).init (firstBuild ++ rebuild) = some t ∧
      t.Quiescent ∧ (t.actor.built = true ∧ ∀ i, t.actor.collectives i ≠ none) ∧
      (system oneDevice).Meets AttemptOk (system oneDevice).init (firstBuild ++ rebuild) := by
  obtain ⟨t, hrun, hquiet, hbuilt⟩ :
      ∃ t, (system oneDevice).run (system oneDevice).init (firstBuild ++ rebuild) = some t ∧
        t.Quiescent ∧ (t.actor.built = true ∧ ∀ i, t.actor.collectives i ≠ none) :=
    ⟨_, rfl, ⟨rfl, rfl, by decide, by decide, by decide⟩, by decide⟩
  exact ⟨t, hrun, hquiet, hbuilt, ((built_iff oneDevice hrun hquiet).1 hbuilt).2⟩

/-- After `lateContext` the device holds its context, no stream, communicator or spawn has failed,
nothing is in flight, and the world is not built. -/
theorem late_context_leaves_unbuilt :
    ¬ ∀ (ls : List (Label 1)) (t : NcclWorld 1),
      (system oneDevice).run (system oneDevice).init ls = some t → t.Quiescent →
      (∀ i, (t.fleet.devices i).state.currentCtx ≠ none) →
      (∀ outcome, .finish outcome ∈ ls → ∃ refs, outcome = .spawned refs ∧ refs.length = 1) →
      t.actor.built = true := by
  intro h
  have hbuilt := h lateContext _ rfl ⟨rfl, rfl, by decide, by decide, by decide⟩ (by decide)
    (by simp [lateContext])
  cases hbuilt

end Nccl

end AtomrAccel
