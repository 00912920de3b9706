import AtomrAccel.MultiDevice.World
import AtomrAccel.P2p.Topology

/-!
# `NcclWorldActor`: building the world

`pre_start` spawns the devices, and a task for each that sends `ChildReady` a little later.  Two
messages make the actor build its world: `ChildReady`, and `DeviceContextChanged` from a device's
bridge once the world is built.  An attempt asks the devices for their contexts one after the
other, makes a stream on each, builds the communicators and spawns the collective actors; it is
given up at the first thing that fails, and nothing tries again.

* `NcclWorldActor`, `NcclWorldMsg`, `tryBuildWorld`, `deviceContextChanged`: the actor;
* `NcclWorld`, `Label`, `step`, `system`: the actor between two answers, its timers and bridges, and
  the devices;
* `Fresh`, `LabelOk`, `observers_fresh`: both observers of context rebuilds see contexts of the
  generation they were told of, in every run whose snapshots do not fall between bump and install.
-/

namespace AtomrAccel

namespace Nccl

open Rebuild

/-- The actor's own fields; the contexts that its communicators were built from are `comms`, which
is not a field of the source. -/
structure NcclWorldActor (n : ℕ) where
  devices : Fin n → Option ActorRef
  collectives : Fin n → Option ActorRef
  built : Bool
  lastGeneration : Fin n → UInt64
  comms : List CtxId

/-- The messages of the actor. -/
inductive NcclWorldMsg (n : ℕ)
  | allReduceF32 (req : MultiDevice.AllReduceF32)
  | childReady (deviceIdx : Fin n) (deviceRef : ActorRef)
  | deviceContextChanged (notice : Notice n)
  deriving DecidableEq, Repr

/-- `try_build_world` between two answers; `cause` is the message of a rebuild. -/
inductive Handling (n : ℕ)
  | idle
  | building (cause : Option (Notice n)) (snaps : List CtxId)
  deriving DecidableEq, Repr

/-- How an attempt that has all contexts ends: a stream or the communicators fail, or the collective
actors are spawned up to the first failure. -/
inductive Outcome
  | failed
  | spawned (refs : List ActorRef)
  deriving DecidableEq, Repr

/-- The actor system makes a new reference for each rank. -/
def Outcome.Valid (n : ℕ) : Outcome → Prop
  | .failed => True
  | .spawned refs => refs.length ≤ n ∧ refs.Nodup

instance (n : ℕ) : DecidablePred (Outcome.Valid n) := fun outcome =>
  match outcome with
  | .failed => isTrue trivial
  | .spawned refs => inferInstanceAs (Decidable (refs.length ≤ n ∧ refs.Nodup))

/-- The actor with its devices.  `sleeping` are the tasks that have not sent `ChildReady` yet, and
`obtained` are the snapshots taken for `DeviceContextChanged`, each with the generation told of
that device. -/
structure NcclWorld (n : ℕ) where
  fleet : Fleet n
  sleeping : Fin n → Bool
  mailbox : List (NcclWorldMsg n)
  actor : NcclWorldActor n
  handling : Handling n
  obtained : List (UInt64 × Option CtxId)

/-- The steps of the actor and its devices. -/
inductive Label (n : ℕ)
  | fleet (l : FleetLabel n)
  /-- a client sends a request -/
  | request (req : MultiDevice.AllReduceF32)
  /-- the task of a device sends `ChildReady` -/
  | wake (i : Fin n)
  /-- the actor takes the next message -/
  | receive
  /-- the device asked answers, or drops the reply -/
  | answer (dropped : Bool)
  /-- an attempt with all contexts ends -/
  | finish (outcome : Outcome)
  deriving DecidableEq, Repr

namespace NcclWorldActor

variable {n : ℕ}

/-- After `pre_start`, which panics unless every device is spawned. -/
def started (refs : Fin n → ActorRef) : NcclWorldActor n :=
  ⟨fun i => some (refs i), fun _ => none, false, fun _ => 0, []⟩

/-- The beginning of `try_build_world`: the first device is asked, if there is anything to do. -/
def tryBuildWorld (a : NcclWorldActor n) (cause : Option (Notice n)) : Handling n :=
  if a.built then .idle
  else if ∃ i, a.devices i = none then .idle
  else .building cause []

/-- Stop the collective actors. -/
def tearDown (a : NcclWorldActor n) : NcclWorldActor n :=
  { a with collectives := fun _ => none, built := false, comms := [] }

/-- `DeviceContextChanged`. -/
def deviceContextChanged (a : NcclWorldActor n) (notice : Notice n) :
    NcclWorldActor n × Handling n :=
  if notice.newGeneration ≤ a.lastGeneration notice.deviceIdx then (a, .idle)
  else
    let a := { a with
      lastGeneration := Function.update a.lastGeneration notice.deviceIdx notice.newGeneration }
    if !a.built then (a, .idle)
    else (a.tearDown, a.tearDown.tryBuildWorld (some notice))

/-- The end of `try_build_world`, with the contexts `snaps`: a collective actor for each rank up to
the first that cannot be spawned. -/
def finish (a : NcclWorldActor n) (snaps : List CtxId) : Outcome → NcclWorldActor n
  | .failed => a
  | .spawned refs =>
    let a := { a with
      collectives := fun i => if h : i.val < refs.length then some refs[i.val] else a.collectives i }
    if refs.length < n then a else { a with built := true, comms := snaps }

end NcclWorldActor

namespace NcclWorld

variable {n : ℕ}

/-- After `pre_start`. -/
def started (devices : Fin n → ℕ × Bool) : NcclWorld n where
  fleet := ⟨fun i => .new (devices i).1 (devices i).2, fun _ => .absent⟩
  sleeping := fun _ => true
  mailbox := []
  actor := .started fun i => i.val
  handling := .idle
  obtained := []

/-- A device has taken a step, and its letter is delivered. -/
def afterFleet (s : NcclWorld n) (r : Fleet n × Option (Notice n)) : NcclWorld n :=
  { s with fleet := r.1, mailbox := s.mailbox ++ r.2.toList.map .deviceContextChanged }

/-- Dispatching a request only reads the actor. -/
def receive (s : NcclWorld n) : Option (NcclWorld n) :=
  match s.handling, s.mailbox with
  | .idle, .allReduceF32 _ :: rest => some { s with mailbox := rest }
  | .idle, .childReady i deviceRef :: rest =>
    let a := { s.actor with devices := Function.update s.actor.devices i (some deviceRef) }
    some { s with
      fleet := s.fleet.setBridge i .asking
      mailbox := rest
      actor := a
      handling := a.tryBuildWorld none }
  | .idle, .deviceContextChanged notice :: rest =>
    let r := s.actor.deviceContextChanged notice
    some { s with mailbox := rest, actor := r.1, handling := r.2 }
  | .building _ _, _ | .idle, [] => none

/-- The generation told of the device `i` by the message under way. -/
def toldOf (notice : Notice n) (i : Fin n) : UInt64 :=
  if notice.deviceIdx = i then notice.newGeneration else 0

/-- The next snapshot arrives, or its channel is dropped. -/
def answer (s : NcclWorld n) (dropped : Bool) : Option (NcclWorld n) :=
  match s.handling with
  | .idle => none
  | .building cause snaps =>
    if h : snaps.length < n then
      let i : Fin n := ⟨snaps.length, h⟩
      let ctx := (s.fleet.devices i).snapshot dropped
      some { s with
        handling := match ctx with
          | some c => .building cause (snaps ++ [c])
          | none => .idle
        obtained := s.obtained ++ cause.toList.map fun notice => (toldOf notice i, ctx) }
    else none

/-- The rebuild is over. -/
def finish (s : NcclWorld n) (outcome : Outcome) : Option (NcclWorld n) :=
  match s.handling with
  | .idle => none
  | .building _ snaps =>
    if snaps.length = n ∧ outcome.Valid n then
      some { s with actor := s.actor.finish snaps outcome, handling := .idle }
    else none

/-- One step of the actor and its devices. -/
def step (s : NcclWorld n) : Label n → Option (NcclWorld n)
  | .fleet l => (s.fleet.step l).map s.afterFleet
  | .request req => some { s with mailbox := s.mailbox ++ [.allReduceF32 req] }
  | .wake i =>
    if s.sleeping i then
      some { s with
        sleeping := Function.update s.sleeping i false
        mailbox := s.mailbox ++ [.childReady i i.val] }
    else none
  | .receive => s.receive
  | .answer dropped => s.answer dropped
  | .finish outcome => s.finish outcome

end NcclWorld

/-- The actor with its devices. -/
def system {n : ℕ} (devices : Fin n → ℕ × Bool) : Transition.System (NcclWorld n) (Label n) where
  init := .started devices
  step := NcclWorld.step

/-! ### What the actor sees of rebuilds -/

/-- The snapshots taken for a `DeviceContextChanged` are contexts, that of the device it names of
the generation told or a later one; and in a built world the communicator of a device whose present
generation was told is of the installed context. -/
structure Fresh {n : ℕ} (s : NcclWorld n) : Prop where
  obtained : ∀ o ∈ s.obtained, ∃ c : ℕ, o.2 = some c ∧ o.1.toNat ≤ c
  cached : s.actor.built = true → ∀ i : Fin n,
    s.actor.lastGeneration i = (s.fleet.devices i).state.generation →
    ∀ c, (s.fleet.devices i).state.currentCtx = some c → s.actor.comms[i.val]? = some c

/-- Bumps find room in the counter, and a snapshot does not fall between the bump last told of and
its install; one taken for a `DeviceContextChanged` is answered, and finds a context. -/
def LabelOk {n : ℕ} (s : NcclWorld n) : Label n → Prop
  | .fleet l => s.fleet.LabelOk l
  | .answer dropped =>
    match s.handling with
    | .idle => True
    | .building cause snaps => ∀ h : snaps.length < n,
      ((s.fleet.devices ⟨snaps.length, h⟩).building = none ∨
        (s.fleet.devices ⟨snaps.length, h⟩).state.generation ≠
          s.actor.lastGeneration ⟨snaps.length, h⟩) ∧
      (cause ≠ none →
        dropped = false ∧ (s.fleet.devices ⟨snaps.length, h⟩).state.currentCtx ≠ none)
  | .request _ | .wake _ | .receive | .finish _ => True

instance {n : ℕ} (s : NcclWorld n) : ∀ l : Label n, Decidable (LabelOk s l)
  | .fleet l => inferInstanceAs (Decidable (s.fleet.LabelOk l))
  | .answer dropped =>
    match h : s.handling with
    | .idle => isTrue (by simp [LabelOk, h])
    | .building cause snaps =>
      decidable_of_iff (∀ h : snaps.length < n,
        ((s.fleet.devices ⟨snaps.length, h⟩).building = none ∨
          (s.fleet.devices ⟨snaps.length, h⟩).state.generation ≠
            s.actor.lastGeneration ⟨snaps.length, h⟩) ∧
        (cause ≠ none →
          dropped = false ∧ (s.fleet.devices ⟨snaps.length, h⟩).state.currentCtx ≠ none))
        (by simp only [LabelOk, h])
  | .request _ | .wake _ | .receive | .finish _ => isTrue trivial

/-- The contexts of a list of ranks are not older than what was told of their devices. -/
def Recent {n : ℕ} (f : Fleet n) (last : Fin n → UInt64) (ctxs : List CtxId) : Prop :=
  ∀ (i : Fin n) (c : ℕ), ctxs[i.val]? = some c → (last i).toNat ≤ c ∧ (f.devices i).Seen c

namespace NcclWorld

variable {n : ℕ}

/-- The snapshots in work are of generations that have been. -/
def HandlingOk (s : NcclWorld n) : Handling n → Prop
  | .idle => True
  | .building cause snaps => Recent s.fleet s.actor.lastGeneration snaps ∧
    ∀ m, cause = some m → s.actor.lastGeneration m.deviceIdx = m.newGeneration

/-- No letter is ahead of its device, and the snapshots are of generations that have been. -/
structure Inv (s : NcclWorld n) : Prop where
  devices : ∀ i, (s.fleet.devices i).Inv
  letters : ∀ m, NcclWorldMsg.deviceContextChanged m ∈ s.mailbox →
    m.newGeneration.toNat ≤ (s.fleet.devices m.deviceIdx).bumps
  last : ∀ i, (s.actor.lastGeneration i).toNat ≤ (s.fleet.devices i).bumps
  handling : s.HandlingOk s.handling
  comms : s.actor.built = true →
    s.actor.comms.length = n ∧ Recent s.fleet s.actor.lastGeneration s.actor.comms
  obtained : ∀ o ∈ s.obtained, ∃ c : ℕ, o.2 = some c ∧ o.1.toNat ≤ c

theorem inv_started (devices : Fin n → ℕ × Bool) : (started devices).Inv where
  devices _ := Device.inv_new _ _
  letters := nofun
  last _ := le_rfl
  handling := trivial
  comms := nofun
  obtained := nofun

variable {s s' : NcclWorld n}

/-- The actor takes a message only between two attempts. -/
theorem receive_cases (hs : s.step .receive = some s') :
    s.handling = .idle ∧ ∃ m rest, s.mailbox = m :: rest ∧
      ((∃ req, m = .allReduceF32 req ∧ s' = { s with mailbox := rest }) ∨
      (∃ i deviceRef, m = .childReady i deviceRef ∧ s' = { s with
        fleet := s.fleet.setBridge i .asking
        mailbox := rest
        actor := { s.actor with devices := Function.update s.actor.devices i (some deviceRef) }
        handling := NcclWorldActor.tryBuildWorld
          { s.actor with devices := Function.update s.actor.devices i (some deviceRef) } none }) ∨
      ∃ notice, m = .deviceContextChanged notice ∧ s' = { s with
        mailbox := rest
        actor := (s.actor.deviceContextChanged notice).1
        handling := (s.actor.deviceContextChanged notice).2 }) := by
  simp only [step, receive] at hs
  split at hs
  · rename_i req rest hidle hmail
    cases hs
    exact ⟨hidle, _, rest, hmail, .inl ⟨req, rfl, rfl⟩⟩
  · rename_i i deviceRef rest hidle hmail
    cases hs
    exact ⟨hidle, _, rest, hmail, .inr (.inl ⟨i, deviceRef, rfl, rfl⟩)⟩
  · rename_i notice rest hidle hmail
    cases hs
    exact ⟨hidle, _, rest, hmail, .inr (.inr ⟨notice, rfl, rfl⟩)⟩
  · cases hs
  · cases hs

theorem answer_cases {dropped : Bool} (hs : s.step (.answer dropped) = some s') :
    ∃ cause snaps, ∃ hlt : snaps.length < n, s.handling = .building cause snaps ∧ s' = { s with
      handling := match (s.fleet.devices ⟨snaps.length, hlt⟩).snapshot dropped with
        | some c => .building cause (snaps ++ [c])
        | none => .idle
      obtained := s.obtained ++ cause.toList.map fun notice =>
        (toldOf notice ⟨snaps.length, hlt⟩,
          (s.fleet.devices ⟨snaps.length, hlt⟩).snapshot dropped) } := by
  simp only [step, answer] at hs
  split at hs
  · cases hs
  · rename_i cause snaps hcase
    split_ifs at hs with hlt
    cases hs
    exact ⟨cause, snaps, hlt, hcase, rfl⟩

theorem finish_cases {outcome : Outcome} (hs : s.step (.finish outcome) = some s') :
    ∃ cause snaps, s.handling = .building cause snaps ∧ snaps.length = n ∧ outcome.Valid n ∧
      s' = { s with actor := s.actor.finish snaps outcome, handling := .idle } := by
  simp only [step, finish] at hs
  split at hs
  · cases hs
  · rename_i cause snaps hcase
    split_ifs at hs with hvalid
    cases hs
    exact ⟨cause, snaps, hcase, hvalid.1, hvalid.2, rfl⟩

theorem Inv.fresh (h : s.Inv) : Fresh s where
  obtained := h.obtained
  cached hbuilt i hlast c hc := by
    obtain ⟨hlen, hrecent⟩ := h.comms hbuilt
    have hi : i.val < s.actor.comms.length := by
      rw [hlen]
      exact i.isLt
    have hget : s.actor.comms[i.val]? = some s.actor.comms[i.val] := List.getElem?_eq_getElem hi
    obtain ⟨hle, hseen⟩ := hrecent i _ hget
    rw [hget, (h.devices i).eq_of_seen hc hseen (hlast ▸ hle)]

theorem recent_of_moves {f f' : Fleet n} {last : Fin n → UInt64} {ctxs : List CtxId}
    (hmoves : ∀ i, (f.devices i).Moves (f'.devices i)) (h : Recent f last ctxs) :
    Recent f' last ctxs :=
  fun i c hc => ⟨(h i c hc).1, (hmoves i).seen (h i c hc).2⟩

theorem inv_fleet {l : FleetLabel n} (h : s.Inv) (hok : s.fleet.LabelOk l)
    (hs : s.step (.fleet l) = some s') : s'.Inv := by
  obtain ⟨⟨f, out⟩, hstep, rfl⟩ := Option.map_eq_some_iff.1 hs
  obtain ⟨hmoves, hout⟩ := Fleet.step_moves hstep hok
  have hdevices : ∀ i, (f.devices i).Inv := fun i => (hmoves i).inv (h.devices i)
  refine ⟨hdevices, ?_, fun i => (h.last i).trans (hmoves i).bumps_le, ?_, fun hbuilt => ?_,
    h.obtained⟩
  · intro m hm
    simp only [afterFleet, List.mem_append, List.mem_map, Option.mem_toList,
      NcclWorldMsg.deviceContextChanged.injEq, exists_eq_right] at hm
    obtain hold | hnew := hm
    · exact (h.letters m hold).trans (hmoves _).bumps_le
    · rw [hout m hnew]
      exact (hdevices m.deviceIdx).watched
  · have hhandling := h.handling
    unfold afterFleet
    cases hcase : s.handling with
    | idle => trivial
    | building cause snaps =>
      rw [hcase] at hhandling
      exact ⟨recent_of_moves hmoves hhandling.1, hhandling.2⟩
  · exact ⟨(h.comms hbuilt).1, recent_of_moves hmoves (h.comms hbuilt).2⟩

/-- An attempt begins with no snapshots. -/
theorem handlingOk_tryBuildWorld {a : NcclWorldActor n} {cause : Option (Notice n)}
    (hs : s.actor = a)
    (hcause : ∀ m, cause = some m → a.lastGeneration m.deviceIdx = m.newGeneration) :
    s.HandlingOk (a.tryBuildWorld cause) := by
  subst hs
  unfold NcclWorldActor.tryBuildWorld
  split_ifs
  · trivial
  · trivial
  · exact ⟨by simp [Recent], hcause⟩

/-- What `DeviceContextChanged` leaves behind. -/
theorem deviceContextChanged_cases (a : NcclWorldActor n) (m : Notice n) :
    a.deviceContextChanged m = (a, .idle) ∨
    (a.built = false ∧ a.deviceContextChanged m = ({ a with
      lastGeneration := Function.update a.lastGeneration m.deviceIdx m.newGeneration }, .idle)) ∨
    ∃ a' : NcclWorldActor n, a.built = true ∧ a'.built = false ∧ a'.devices = a.devices ∧
      a'.lastGeneration = Function.update a.lastGeneration m.deviceIdx m.newGeneration ∧
      a.deviceContextChanged m = (a', a'.tryBuildWorld (some m)) := by
  unfold NcclWorldActor.deviceContextChanged
  split_ifs with hle
  · exact .inl rfl
  · by_cases hbuilt : a.built = true
    · have hcond : ¬ (!a.built) = true := by simp [hbuilt]
      let told : NcclWorldActor n := { a with
        lastGeneration := Function.update a.lastGeneration m.deviceIdx m.newGeneration }
      exact .inr (.inr ⟨told.tearDown, hbuilt, rfl, rfl, rfl, if_neg hcond⟩)
    · have hfalse : a.built = false := by simpa using hbuilt
      have hcond : (!a.built) = true := by simp [hfalse]
      exact .inr (.inl ⟨hfalse, if_pos hcond⟩)

theorem update_last_le {last : Fin n → UInt64} {f : Fleet n} {m : Notice n}
    (hlast : ∀ i, (last i).toNat ≤ (f.devices i).bumps)
    (hm : m.newGeneration.toNat ≤ (f.devices m.deviceIdx).bumps) (i : Fin n) :
    (Function.update last m.deviceIdx m.newGeneration i).toNat ≤ (f.devices i).bumps := by
  by_cases hi : i = m.deviceIdx
  · subst hi
    simpa using hm
  · simpa [Function.update_of_ne hi] using hlast i

theorem inv_receive (h : s.Inv) (hs : s.step .receive = some s') : s'.Inv := by
  obtain ⟨-, m, rest, hmail, hcase⟩ := receive_cases hs
  have hletters : ∀ notice, NcclWorldMsg.deviceContextChanged notice ∈ rest →
      notice.newGeneration.toNat ≤ (s.fleet.devices notice.deviceIdx).bumps :=
    fun notice hmem => h.letters notice (hmail ▸ List.mem_cons_of_mem _ hmem)
  obtain ⟨req, rfl, rfl⟩ | ⟨i, deviceRef, rfl, rfl⟩ | ⟨notice, rfl, rfl⟩ := hcase
  · exact ⟨h.devices, hletters, h.last, h.handling, h.comms, h.obtained⟩
  · exact ⟨h.devices, hletters, h.last, handlingOk_tryBuildWorld rfl nofun, h.comms, h.obtained⟩
  · have hlast := update_last_le h.last (h.letters notice (hmail ▸ List.mem_cons_self))
    obtain heq | ⟨hbuilt, heq⟩ | ⟨a', -, hbuilt, -, hlast', heq⟩ :=
      deviceContextChanged_cases s.actor notice
    · rw [heq]
      exact ⟨h.devices, hletters, h.last, trivial, h.comms, h.obtained⟩
    · rw [heq]
      refine ⟨h.devices, hletters, hlast, trivial, fun hbuilt' => ?_, h.obtained⟩
      exact absurd (hbuilt.symm.trans hbuilt') Bool.false_ne_true
    · rw [heq]
      refine ⟨h.devices, hletters, fun i => ?_, ?_, fun hbuilt' => ?_, h.obtained⟩
      · show (a'.lastGeneration i).toNat ≤ _
        rw [hlast']
        exact hlast i
      · refine handlingOk_tryBuildWorld rfl fun m hm => ?_
        cases hm
        rw [hlast', Function.update_self]
      · exact absurd (hbuilt.symm.trans hbuilt') Bool.false_ne_true

theorem inv_answer {dropped : Bool} (h : s.Inv) (hok : LabelOk s (.answer dropped))
    (hs : s.step (.answer dropped) = some s') : s'.Inv := by
  have hhandling := h.handling
  obtain ⟨cause, snaps, hlt, hcase, rfl⟩ := answer_cases hs
  simp only [LabelOk, hcase] at hok
  rw [hcase] at hhandling
  obtain ⟨hsettled, hfound⟩ := hok hlt
  obtain ⟨hrecent, hcause⟩ := hhandling
  have hinv := h.devices ⟨snaps.length, hlt⟩
  have hbehind := hinv.behind_of_settled (h.last _) hsettled
  refine ⟨h.devices, h.letters, h.last, ?_, h.comms, fun o ho => ?_⟩
  · cases hctx : (s.fleet.devices ⟨snaps.length, hlt⟩).snapshot dropped with
    | none => trivial
    | some c =>
      have hcur : (s.fleet.devices ⟨snaps.length, hlt⟩).state.currentCtx = some c := by
        unfold Device.snapshot at hctx
        split_ifs at hctx
        exact hctx
      exact ⟨forall_rank_concat hlt hrecent ⟨hbehind.current c hcur, hinv.seen_current hcur⟩,
        hcause⟩
  · obtain hold | hnew := List.mem_append.1 ho
    · exact h.obtained o hold
    · obtain ⟨notice, hnotice, rfl⟩ := List.mem_map.1 hnew
      have hsome : cause = some notice := Option.mem_toList.1 hnotice
      obtain ⟨rfl, hne⟩ := hfound (by simp [hsome])
      obtain ⟨c, hc⟩ := Option.ne_none_iff_exists'.1 hne
      refine ⟨c, hc, ?_⟩
      -- only the device named by the message was told of
      unfold toldOf
      split_ifs with hidx
      · rw [← hcause notice hsome, hidx]
        exact hbehind.current c hc
      · exact Nat.zero_le c

/-- What the end of an attempt does to the fields other than `collectives`. -/
theorem actor_finish_cases (a : NcclWorldActor n) (snaps : List CtxId) (outcome : Outcome) :
    (a.finish snaps outcome).devices = a.devices ∧
      (a.finish snaps outcome).lastGeneration = a.lastGeneration ∧
      ((a.finish snaps outcome).comms = snaps ∨
        (a.finish snaps outcome).built = a.built ∧ (a.finish snaps outcome).comms = a.comms) := by
  cases outcome with
  | failed => exact ⟨rfl, rfl, .inr ⟨rfl, rfl⟩⟩
  | spawned refs =>
    unfold NcclWorldActor.finish
    dsimp only
    split_ifs
    · exact ⟨rfl, rfl, .inr ⟨rfl, rfl⟩⟩
    · exact ⟨rfl, rfl, .inl rfl⟩

theorem inv_finish {outcome : Outcome} (h : s.Inv) (hs : s.step (.finish outcome) = some s') :
    s'.Inv := by
  have hhandling := h.handling
  obtain ⟨cause, snaps, hcase, hlen, -, rfl⟩ := finish_cases hs
  rw [hcase] at hhandling
  obtain ⟨-, hlast, hcomms⟩ := actor_finish_cases s.actor snaps outcome
  refine ⟨h.devices, h.letters, ?_, trivial, fun hbuilt => ?_, h.obtained⟩
  · show ∀ i, ((s.actor.finish snaps outcome).lastGeneration i).toNat ≤ _
    rw [hlast]
    exact h.last
  · dsimp only at hbuilt ⊢
    rw [hlast]
    obtain heq | ⟨hbuilt', heq⟩ := hcomms
    · rw [heq]
      exact ⟨hlen, hhandling.1⟩
    · rw [heq]
      exact h.comms (hbuilt' ▸ hbuilt)

theorem Inv.step {l : Label n} (h : s.Inv) (hok : LabelOk s l) (hs : s.step l = some s') :
    s'.Inv := by
  cases l with
  | fleet l => exact inv_fleet h hok hs
  | request req =>
    cases hs
    refine ⟨h.devices, fun m hm => h.letters m ?_, h.last, h.handling, h.comms, h.obtained⟩
    simpa using hm
  | wake i =>
    simp only [NcclWorld.step] at hs
    split_ifs at hs
    cases hs
    refine ⟨h.devices, fun m hm => h.letters m ?_, h.last, h.handling, h.comms, h.obtained⟩
    simpa using hm
  | receive => exact inv_receive h hs
  | answer dropped => exact inv_answer h hok hs
  | finish outcome => exact inv_finish h hs

end NcclWorld

theorem along_fresh {n : ℕ} (devices : Fin n → ℕ × Bool) {ls : List (Label n)}
    (hok : (system devices).Meets LabelOk (system devices).init ls) :
    (system devices).Along Fresh (system devices).init ls :=
  Transition.System.along_of_meets (fun _ h => h.fresh) (fun _ _ _ h hl hs => h.step hl hs)
    (NcclWorld.inv_started devices) hok

/-- Neither observer keeps or obtains a context older than what it was told, in any interleaving
with the rebuilds, the bridges and the answers that meets the condition at every step. -/
theorem observers_fresh {n : ℕ} (devices : Fin n → ℕ × Bool) :
    (∀ ls, (P2p.system devices).Meets P2p.LabelOk (P2p.system devices).init ls →
      (P2p.system devices).Along P2p.Fresh (P2p.system devices).init ls) ∧
    ∀ ls, (system devices).Meets LabelOk (system devices).init ls →
      (system devices).Along Fresh (system devices).init ls :=
  ⟨fun _ hok => P2p.along_fresh devices hok, fun _ hok => along_fresh devices hok⟩

/-- One device that builds contexts. -/
def oneDevice : Fin 1 → ℕ × Bool := fun _ => (0, false)

/-- The topology is told of the first context after it is installed. -/
def p2pRefresh : List (P2p.Label 1) :=
  [.fleet (.answerWatch 0), .fleet (.borrow 0), .fleet (.runInitBump 0),
    .fleet (.runInitInstall 0), .fleet (.notify 0), .receive, .answer false, .store none]

/-- The topology is told of the first context and asks for it before it is installed. -/
def p2pEarlyRefresh : List (P2p.Label 1) :=
  [.fleet (.answerWatch 0), .fleet (.borrow 0), .fleet (.runInitBump 0), .fleet (.notify 0),
    .receive, .answer false, .store none, .fleet (.runInitInstall 0)]

/-- The world is built from the first context of the device and watches it. -/
def firstBuild : List (Label 1) :=
  [.wake 0, .fleet (.runInitBump 0), .fleet (.runInitInstall 0), .receive, .answer false,
    .finish (.spawned [1]), .fleet (.answerWatch 0), .fleet (.borrow 0)]

/-- A rebuild that the world is told of after the install. -/
def rebuild : List (Label 1) :=
  [.fleet (.runInitBump 0), .fleet (.runInitInstall 0), .fleet (.notify 0), .receive,
    .answer false, .finish (.spawned [2])]

/-- A rebuild that the world is told of before the install. -/
def earlyRebuild : List (Label 1) :=
  [.fleet (.runInitBump 0), .fleet (.notify 0), .receive, .answer false, .finish (.spawned [2]),
    .fleet (.runInitInstall 0)]

/-- The timer of a device fires before its first context is there. -/
def lateContext : List (Label 1) :=
  [.wake 0, .receive, .answer false, .fleet (.answerWatch 0), .fleet (.borrow 0),
    .fleet (.runInitBump 0), .fleet (.notify 0), .fleet (.runInitInstall 0), .receive]

theorem fresh_after_install :
    ((P2p.system oneDevice).run (P2p.system oneDevice).init p2pRefresh).map
      (fun s => (s.obtained, s.topology.context 0)) = some ([(⟨0, 1⟩, some 1)], some 1) ∧
    (P2p.system oneDevice).Along P2p.Fresh (P2p.system oneDevice).init p2pRefresh ∧
    ((system oneDevice).run (system oneDevice).init (firstBuild ++ rebuild)).map
      (fun s => (s.obtained, s.actor.comms)) = some ([(2, some 2)], [2]) ∧
    (system oneDevice).Along Fresh (system oneDevice).init (firstBuild ++ rebuild) := by
  refine ⟨by decide, ?_, by decide, ?_⟩
  · exact (observers_fresh oneDevice).1 p2pRefresh (by decide)
  · exact (observers_fresh oneDevice).2 (firstBuild ++ rebuild) (by decide)

/-- Between the two lines of `run_init` the topology obtains nothing for generation 1, and the world
obtains the context of generation 1 for generation 2. -/
theorem early_snapshot_stale :
    (¬ ∀ ls, (P2p.system oneDevice).Along P2p.Fresh (P2p.system oneDevice).init ls) ∧
    ¬ ∀ ls, (system oneDevice).Along Fresh (system oneDevice).init ls := by
  constructor
  · intro h
    have hlast := (h p2pEarlyRefresh).last rfl
    obtain ⟨c, hc, -⟩ := hlast.obtained (⟨0, 1⟩, none) List.mem_cons_self
    cases hc
  · intro h
    have hlast := (h (firstBuild ++ earlyRebuild)).last rfl
    obtain ⟨c, hc, hle⟩ := hlast.obtained (2, some 1) List.mem_cons_self
    cases hc
    exact absurd hle (by decide)

end Nccl

end AtomrAccel
