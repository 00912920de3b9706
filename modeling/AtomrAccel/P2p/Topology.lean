import AtomrAccel.Device.Rebuild
import AtomrAccel.Device.WriteRequest

/-!
# `P2pTopology` and the contexts it caches

The topology keeps a context for each device.  `EnableAll` asks the devices for their contexts one
after the other and stores the answers; a `RefreshDevice` message from a device's bridge asks that
device alone.  Both wait for the answers while the devices go on rebuilding.

* `P2pMsg`, `Handling`, `Topology`: the actor between two answers;
* `Label`, `step`, `system`: the actor, its bridges and the devices, one label per move;
* `Fresh`: every snapshot taken for a message belongs to its generation or a later one, and once
  the message of the last rebuild is handled the cached context is the installed one;
* `LabelOk`, `along_fresh`: so it is in every run in which the snapshot for a message finds the
  context of its generation installed.
-/

namespace AtomrAccel

namespace P2p

open Rebuild

/-- The messages of the actor. -/
inductive P2pMsg (n : ℕ)
  | enableAll
  | refreshDevice (notice : Notice n)
  deriving DecidableEq, Repr

/-- What the actor is in the middle of. -/
inductive Handling (n : ℕ)
  | idle
  /-- `EnableAll`, with the answers so far -/
  | enabling (snaps : List (Option CtxId))
  /-- `RefreshDevice`, before the answer -/
  | refreshing (notice : Notice n)
  /-- `RefreshDevice`, with the answer not stored yet -/
  | refreshed (notice : Notice n) (ctx : Option CtxId)
  deriving DecidableEq, Repr

/-- The actor with its devices.  `told` is the generation of the last message handled for a device,
and `obtained` the snapshots taken for messages. -/
structure Topology (n : ℕ) where
  fleet : Fleet n
  mailbox : List (P2pMsg n)
  topology : P2pTopology
  handling : Handling n
  told : Fin n → Option UInt64
  obtained : List (Notice n × Option CtxId)

/-- The steps of the actor and its devices. -/
inductive Label (n : ℕ)
  | fleet (l : FleetLabel n)
  /-- a client sends `EnableAll` -/
  | enableAll
  /-- the actor takes the next message -/
  | receive
  /-- the device asked answers, or drops the reply -/
  | answer (dropped : Bool)
  /-- the actor stores what it was answered; `probed` is the graph `EnableAll` finds, or `none`
  when the driver cannot be loaded -/
  | store (probed : Option (List (List Bool)))
  deriving DecidableEq, Repr

namespace Topology

variable {n : ℕ}

/-- After `pre_start`: nothing cached, and a bridge for each device that asks for a receiver. -/
def started (devices : Fin n → ℕ × Bool) : Topology n where
  fleet := ⟨fun i => .new (devices i).1 (devices i).2, fun _ => .asking⟩
  mailbox := []
  topology := ⟨false, List.replicate n (List.replicate n false), List.replicate n none⟩
  handling := .idle
  told := fun _ => none
  obtained := []

/-- A move of the fleet; a notice becomes a message. -/
def afterFleet (s : Topology n) (r : Fleet n × Option (Notice n)) : Topology n :=
  { s with fleet := r.1, mailbox := s.mailbox ++ r.2.toList.map .refreshDevice }

/-- The next message is handled, when the actor is idle. -/
def receive (s : Topology n) : Option (Topology n) :=
  match s.handling, s.mailbox with
  | .idle, .enableAll :: rest => some { s with mailbox := rest, handling := .enabling [] }
  | .idle, .refreshDevice notice :: rest =>
    some { s with mailbox := rest, handling := .refreshing notice }
  | _, _ => none

/-- The next snapshot arrives, or its channel is dropped. -/
def answer (s : Topology n) (dropped : Bool) : Option (Topology n) :=
  match s.handling with
  | .enabling snaps =>
    if h : snaps.length < n then
      let ctx := (s.fleet.devices ⟨snaps.length, h⟩).snapshot dropped
      some { s with handling := .enabling (snaps ++ [ctx]) }
    else none
  | .refreshing notice =>
    let ctx := (s.fleet.devices notice.deviceIdx).snapshot dropped
    some { s with
      handling := .refreshed notice ctx
      obtained := s.obtained ++ [(notice, ctx)] }
  | .idle | .refreshed _ _ => none

/-- `EnableAll` stores the contexts before it probes; `RefreshDevice` asks for a new `EnableAll`. -/
def store (s : Topology n) (probed : Option (List (List Bool))) : Option (Topology n) :=
  match s.handling with
  | .enabling snaps =>
    if snaps.length = n then
      let topology := match probed with
        | none => { s.topology with contexts := snaps }
        | some edges => ⟨true, edges, snaps⟩
      some { s with topology := topology, handling := .idle }
    else none
  | .refreshed notice ctx =>
    some { s with
      topology := { s.topology with
        enabled := false, contexts := s.topology.contexts.set notice.deviceIdx ctx }
      handling := .idle
      told := Function.update s.told notice.deviceIdx (some notice.newGeneration) }
  | .idle | .refreshing _ => none

/-- One step of the actor and its devices. -/
def step (s : Topology n) : Label n → Option (Topology n)
  | .fleet l => (s.fleet.step l).map s.afterFleet
  | .enableAll => some { s with mailbox := s.mailbox ++ [.enableAll] }
  | .receive => s.receive
  | .answer dropped => s.answer dropped
  | .store probed => s.store probed

end Topology

/-- The actor with its devices. -/
def system {n : ℕ} (devices : Fin n → ℕ × Bool) : Transition.System (Topology n) (Label n) where
  init := .started devices
  step := Topology.step

/-- The snapshot for a message is a context of its generation or of a later one; and where the last
message handled for a device named its present generation, the cached context is the installed
one. -/
structure Fresh {n : ℕ} (s : Topology n) : Prop where
  obtained : ∀ o ∈ s.obtained, ∃ c : ℕ, o.2 = some c ∧ o.1.newGeneration.toNat ≤ c
  cached : ∀ i, s.told i = some (s.fleet.devices i).state.generation →
    ∀ c, (s.fleet.devices i).state.currentCtx = some c → s.topology.context i = some c

/-- Bumps find room in the counter, replies are not dropped, and the snapshot for a message finds a
context and does not fall between the bump it tells of and its install. -/
def LabelOk {n : ℕ} (s : Topology n) : Label n → Prop
  | .fleet l => s.fleet.LabelOk l
  | .answer dropped => dropped = false ∧ match s.handling with
    | .refreshing ⟨i, g⟩ => (s.fleet.devices i).state.currentCtx ≠ none ∧
      ((s.fleet.devices i).building = none ∨ (s.fleet.devices i).state.generation ≠ g)
    | .idle | .enabling _ | .refreshed _ _ => True
  | .enableAll | .receive | .store _ => True

instance {n : ℕ} (s : Topology n) : ∀ l : Label n, Decidable (LabelOk s l)
  | .fleet l => inferInstanceAs (Decidable (s.fleet.LabelOk l))
  | .answer dropped =>
    match h : s.handling with
    | .refreshing ⟨i, g⟩ =>
      decidable_of_iff (dropped = false ∧ (s.fleet.devices i).state.currentCtx ≠ none ∧
        ((s.fleet.devices i).building = none ∨ (s.fleet.devices i).state.generation ≠ g))
        (by simp only [LabelOk, h])
    | .idle | .enabling _ | .refreshed _ _ =>
      decidable_of_iff (dropped = false) (by simp [LabelOk, h])
  | .enableAll | .receive | .store _ => isTrue trivial

/-! ### Runs that meet the condition -/

/-- What is cached, or about to be, for a device once the generation `g` was told: a context of that
generation or a later one, or nothing when the context has been cleared since. -/
def Kept (d : Device) (g : UInt64) (ctx : Option CtxId) : Prop :=
  (∃ c : ℕ, ctx = some c ∧ g.toNat ≤ c ∧ d.Seen c) ∨
    (ctx = none ∧ (d.state.currentCtx = none ∨ g.toNat < d.bumps))

section Kept

variable {d d' : Device} {g : UInt64} {ctx : Option CtxId}

theorem kept_of_moves (hm : d.Moves d') (hbehind : d.Behind g) (h : Kept d g ctx) :
    Kept d' g ctx := by
  obtain ⟨c, hc, hle, hseen⟩ | ⟨hnone, hcase⟩ := h
  · exact .inl ⟨c, hc, hle, hm.seen hseen⟩
  · refine .inr ⟨hnone, ?_⟩
    obtain hcur | hlt := hcase
    · cases hm with
      | install hb => exact .inr (hbehind.building (by simp [hb]))
      | postStop hb => exact .inl rfl
      | stay | bump hb hw | watch => exact .inl hcur
    · exact .inr (hlt.trans_le hm.bumps_le)

/-- What an answered snapshot gives for a generation told before. -/
theorem kept_snapshot (hinv : d.Inv) (hbehind : d.Behind g) : Kept d g (d.snapshot false) := by
  have hsnap : d.snapshot false = d.state.currentCtx := rfl
  cases hcur : d.state.currentCtx with
  | none => exact .inr ⟨hsnap.trans hcur, .inl hcur⟩
  | some c =>
    exact .inl ⟨c, hsnap.trans hcur, hbehind.current c hcur, hinv.seen_current hcur⟩

/-- For the present generation nothing but the installed context is kept. -/
theorem Kept.eq_current {c : CtxId} (hinv : d.Inv) (hc : d.state.currentCtx = some c)
    (h : Kept d d.state.generation ctx) : ctx = some c := by
  obtain ⟨c', hc', hle, hseen⟩ | ⟨-, hnone | hlt⟩ := h
  · rw [hc', hinv.eq_of_seen hc hseen hle]
  · cases hnone.symm.trans hc
  · exact absurd hinv.generation hlt.ne

end Kept

namespace Topology

variable {n : ℕ}

/-- What the actor holds in the middle of a message. -/
def HandlingOk (s : Topology n) : Handling n → Prop
  | .idle => True
  | .enabling snaps => ∀ i g, s.told i = some g → ∀ ctx, snaps[i.val]? = some ctx →
    Kept (s.fleet.devices i) g ctx
  | .refreshing m => m.newGeneration.toNat ≤ (s.fleet.devices m.deviceIdx).bumps
  | .refreshed m ctx => (s.fleet.devices m.deviceIdx).Behind m.newGeneration ∧
    ∃ c : ℕ, ctx = some c ∧ m.newGeneration.toNat ≤ c ∧ (s.fleet.devices m.deviceIdx).Seen c

/-- No letter is ahead of its device, and the contexts are of generations that have been. -/
structure Inv (s : Topology n) : Prop where
  devices : ∀ i, (s.fleet.devices i).Inv
  letters : ∀ m, P2pMsg.refreshDevice m ∈ s.mailbox →
    m.newGeneration.toNat ≤ (s.fleet.devices m.deviceIdx).bumps
  length : s.topology.contexts.length = n
  told : ∀ i g, s.told i = some g →
    (s.fleet.devices i).Behind g ∧ Kept (s.fleet.devices i) g (s.topology.context i)
  handling : s.HandlingOk s.handling
  obtained : ∀ o ∈ s.obtained, ∃ c : ℕ, o.2 = some c ∧ o.1.newGeneration.toNat ≤ c

theorem inv_started (devices : Fin n → ℕ × Bool) : (started devices).Inv where
  devices _ := Device.inv_new _ _
  letters := nofun
  length := List.length_replicate
  told := nofun
  handling := trivial
  obtained := nofun

variable {s s' : Topology n}

theorem Inv.fresh (h : s.Inv) : Fresh s where
  obtained := h.obtained
  cached i htold _ hc := (h.told i _ htold).2.eq_current (h.devices i) hc

theorem inv_fleet {l : FleetLabel n} (h : s.Inv) (hok : s.fleet.LabelOk l)
    (hs : s.step (.fleet l) = some s') : s'.Inv := by
  obtain ⟨⟨f, out⟩, hstep, rfl⟩ := Option.map_eq_some_iff.1 hs
  obtain ⟨hmoves, hout⟩ := Fleet.step_moves hstep hok
  have hdevices : ∀ i, (f.devices i).Inv := fun i => (hmoves i).inv (h.devices i)
  refine ⟨hdevices, ?_, h.length, ?_, ?_, h.obtained⟩
  · intro m hm
    simp only [afterFleet, List.mem_append, List.mem_map, Option.mem_toList,
      P2pMsg.refreshDevice.injEq, exists_eq_right] at hm
    obtain hold | hnew := hm
    · exact (h.letters m hold).trans (hmoves _).bumps_le
    · rw [hout m hnew]
      exact (hdevices m.deviceIdx).watched
  · intro i g hg
    obtain ⟨hbehind, hkept⟩ := h.told i g hg
    exact ⟨(hmoves i).behind (h.devices i) hbehind, kept_of_moves (hmoves i) hbehind hkept⟩
  · have hhandling := h.handling
    unfold afterFleet
    cases hcase : s.handling with
    | idle => trivial
    | enabling snaps =>
      rw [hcase] at hhandling
      intro i g hg ctx hctx
      exact kept_of_moves (hmoves i) (h.told i g hg).1 (hhandling i g hg ctx hctx)
    | refreshing m =>
      rw [hcase] at hhandling
      exact le_trans hhandling (hmoves m.deviceIdx).bumps_le
    | refreshed m ctx =>
      rw [hcase] at hhandling
      obtain ⟨hbehind, c, hc, hle, hseen⟩ := hhandling
      exact ⟨(hmoves _).behind (h.devices _) hbehind, c, hc, hle, (hmoves _).seen hseen⟩

theorem inv_receive (h : s.Inv) (hs : s.step .receive = some s') : s'.Inv := by
  simp only [step, receive] at hs
  split at hs
  · rename_i rest _ hmail
    cases hs
    refine ⟨h.devices, fun m hm => h.letters m ?_, h.length, h.told, nofun, h.obtained⟩
    exact hmail ▸ List.mem_cons_of_mem _ hm
  · rename_i notice rest _ hmail
    cases hs
    refine ⟨h.devices, fun m hm => h.letters m ?_, h.length, h.told, ?_, h.obtained⟩
    · exact hmail ▸ List.mem_cons_of_mem _ hm
    · exact h.letters notice (hmail ▸ List.mem_cons_self)
  · cases hs

theorem inv_answer {dropped : Bool} (h : s.Inv) (hok : LabelOk s (.answer dropped))
    (hs : s.step (.answer dropped) = some s') : s'.Inv := by
  obtain ⟨rfl, hok⟩ := hok
  have hhandling := h.handling
  simp only [step, answer] at hs
  split at hs
  · rename_i snaps hcase
    rw [hcase] at hhandling
    split_ifs at hs with hlt
    cases hs
    refine ⟨h.devices, h.letters, h.length, h.told, ?_, h.obtained⟩
    intro i g hg ctx hctx
    exact forall_rank_concat (P := fun i ctx => ∀ g, s.told i = some g →
        Kept (s.fleet.devices i) g ctx) hlt (fun i ctx hctx g hg => hhandling i g hg ctx hctx)
      (fun g hg => kept_snapshot (h.devices _) (h.told _ g hg).1) i ctx hctx g hg
  · rename_i notice hcase
    rw [hcase] at hhandling hok
    obtain ⟨hsome, hsettled⟩ := hok
    obtain ⟨c, hc⟩ := Option.ne_none_iff_exists'.1 hsome
    have hinv := h.devices notice.deviceIdx
    have hbehind := hinv.behind_of_settled hhandling hsettled
    have hle := hbehind.current c hc
    cases hs
    refine ⟨h.devices, h.letters, h.length, h.told, ?_, ?_⟩
    · exact ⟨hbehind, c, hc, hle, hinv.seen_current hc⟩
    · intro o ho
      obtain hold | hnew := List.mem_append.1 ho
      · exact h.obtained o hold
      · rw [List.mem_singleton.1 hnew]
        exact ⟨c, hc, hle⟩
  · cases hs
  · cases hs

theorem inv_store {probed : Option (List (List Bool))} (h : s.Inv)
    (hs : s.step (.store probed) = some s') : s'.Inv := by
  have hhandling := h.handling
  simp only [step, store] at hs
  split at hs
  · rename_i snaps hcase
    rw [hcase] at hhandling
    split_ifs at hs with hlen
    cases hs
    have hcontexts : (match probed with
        | none => { s.topology with contexts := snaps }
        | some edges => ⟨true, edges, snaps⟩ : P2pTopology).contexts = snaps := by
      cases probed <;> rfl
    refine ⟨h.devices, h.letters, ?_, fun i g hg => ⟨(h.told i g hg).1, ?_⟩, trivial, h.obtained⟩
    · rw [hcontexts]
      exact hlen
    · have hi : i.val < snaps.length := hlen ▸ i.isLt
      have hget : snaps[i.val]? = some snaps[i.val] := List.getElem?_eq_getElem hi
      unfold P2pTopology.context
      rw [hcontexts, hget]
      exact hhandling i g hg _ hget
  · rename_i notice ctx hcase
    rw [hcase] at hhandling
    obtain ⟨hbehind, c, hc, hle, hseen⟩ := hhandling
    cases hs
    refine ⟨h.devices, h.letters, ?_, fun i g hg => ?_, trivial, h.obtained⟩
    · exact (List.length_set).trans h.length
    · have hidx : notice.deviceIdx.val < s.topology.contexts.length := by
        rw [h.length]
        exact notice.deviceIdx.isLt
      by_cases hi : i = notice.deviceIdx
      · subst hi
        simp only [Function.update_self, Option.some.injEq] at hg
        subst hg
        refine ⟨hbehind, .inl ⟨c, ?_, hle, hseen⟩⟩
        simp [P2pTopology.context, List.getElem?_set_self hidx, hc]
      · simp only [Function.update_of_ne hi] at hg
        have hne : notice.deviceIdx.val ≠ i.val := fun heq => hi (Fin.ext heq.symm)
        simpa [P2pTopology.context, List.getElem?_set_ne hne] using h.told i g hg
  · cases hs
  · cases hs

theorem Inv.step {l : Label n} (h : s.Inv) (hok : LabelOk s l) (hs : s.step l = some s') :
    s'.Inv := by
  cases l with
  | fleet l => exact inv_fleet h hok hs
  | enableAll =>
    cases hs
    refine ⟨h.devices, fun m hm => h.letters m ?_, h.length, h.told, h.handling, h.obtained⟩
    simpa using hm
  | receive => exact inv_receive h hs
  | answer dropped => exact inv_answer h hok hs
  | store probed => exact inv_store h hs

end Topology

theorem along_fresh {n : ℕ} (devices : Fin n → ℕ × Bool) {ls : List (Label n)}
    (hok : (system devices).Meets LabelOk (system devices).init ls) :
    (system devices).Along Fresh (system devices).init ls :=
  Transition.System.along_of_meets (fun _ h => h.fresh) (fun _ _ _ h hl hs => h.step hl hs)
    (Topology.inv_started devices) hok

end P2p

end AtomrAccel
