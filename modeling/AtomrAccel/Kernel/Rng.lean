import AtomrAccel.Lib.Resource
import AtomrAccel.Lib.Transition
import AtomrAccel.Device.Error

/-!
# `RngActor` and its cuRAND generator

The actor owns one `curandGenerator_t`.  `construct_generator` creates it, binds it to the stream
and seeds it; `SetGenerator` destroys the current one and constructs its successor; the drop of
the actor destroys what the field holds.

* `Csys`: the calls of cuRAND, each with the answer the library gives;
* `constructGenerator`, `RngActor.handle`, `RngActor.drop`: the code;
* `Label`, `step`, `system`: the life of one actor, from its props to its drop;
* `Sound`: only live generators are passed to cuRAND, at the end each has been destroyed once, and
  a refused `SetGenerator` has left kind and generator as they were;
* `Undisturbed`, `along_sound_iff`: so it is in a run exactly when no construction fails once a
  generator is at stake: after its own creation, or after the destruction of its predecessor.
-/

namespace AtomrAccel

namespace Rng

open Resource Transition

/-- The generators of cuRAND. -/
inductive RngGeneratorKind
  | pseudoDefault
  | philox4_32_10
  | xorWow
  | mrg32K3A
  | mtgp32
  | sobol32
  | scrambledSobol32
  | sobol64
  | scrambledSobol64
  deriving DecidableEq, Repr

namespace RngGeneratorKind

/-- Whether a kind is quasi-random. -/
def isQuasi : RngGeneratorKind → Bool
  | sobol32 | scrambledSobol32 | sobol64 | scrambledSobol64 => true
  | _ => false

/-- The `Debug` text. -/
def debug : RngGeneratorKind → String
  | pseudoDefault => "PseudoDefault"
  | philox4_32_10 => "Philox4_32_10"
  | xorWow => "XorWow"
  | mrg32K3A => "Mrg32K3A"
  | mtgp32 => "Mtgp32"
  | sobol32 => "Sobol32"
  | scrambledSobol32 => "ScrambledSobol32"
  | sobol64 => "Sobol64"
  | scrambledSobol64 => "ScrambledSobol64"

end RngGeneratorKind

/-! ### cuRAND -/

/-- A `curandGenerator_t`; the null pointer is `0`. -/
abbrev Generator := ℕ

/-- The generators handed out so far are `1, …, created`. -/
structure Curand where
  created : ℕ
  calls : List (Event Generator)

/-- What the calls of one message answer; an error is the display of its `CurandError`. -/
structure Answers where
  destroy : Except String Unit
  create : Except String Unit
  setStream : Except String Unit
  setSeed : Except String Unit
  deriving DecidableEq

/-- A computation over the raw library. -/
abbrev Csys := ExceptT String (StateM Curand)

namespace Csys

/-- `curandCreateGenerator`. -/
def createGenerator (a : Answers) (_kind : RngGeneratorKind) : Csys Generator := fun c =>
  match a.create with
  | .ok () => (.ok (c.created + 1), ⟨c.created + 1, .acquire (c.created + 1) :: c.calls⟩)
  | .error e => (.error e, c)

/-- `curandSetStream`. -/
def setStream (a : Answers) (g : Generator) : Csys Unit := fun c =>
  (a.setStream, { c with calls := .use g :: c.calls })

/-- `curandSetPseudoRandomGeneratorSeed`. -/
def setSeed (a : Answers) (g : Generator) (_seed : UInt64) : Csys Unit := fun c =>
  (a.setSeed, { c with calls := .use g :: c.calls })

/-- Whatever it answers, the pointer is dangling afterwards. -/
def destroyGenerator (a : Answers) (g : Generator) : Csys Unit := fun c =>
  (a.destroy, { c with calls := .release g :: c.calls })

end Csys

open Csys

/-- `construct_generator`; an error after the creation leaves with the generator. -/
def constructGenerator (a : Answers) (kind : RngGeneratorKind) (seed : UInt64) :
    Csys Generator := do
  let g ← createGenerator a kind
  setStream a g
  if !kind.isQuasi then
    setSeed a g seed
  return g

/-! ### The actor -/

/-- A boxed `RngDispatch`, as whether its `fill` passes the generator on to cuRAND. -/
structure RngDispatch where
  generates : Bool
  deriving DecidableEq, Repr

/-- The legacy fills carry the request they are translated into. -/
inductive RngMsg
  | fill (req : RngDispatch)
  | setSeed (seed : UInt64)
  | setGenerator (kind : RngGeneratorKind)
  | fillUniformF32 (req : RngDispatch)
  | fillUniformF64 (req : RngDispatch)
  | fillUniformU32 (req : RngDispatch)
  | fillNormalF32 (req : RngDispatch)
  | fillNormalF64 (req : RngDispatch)
  | fillLogNormalF32 (req : RngDispatch)
  | reseed (seed : UInt64)
  deriving DecidableEq, Repr

/-- With a generator, or without a device. -/
inductive RngInner
  | real (gen : Generator) (kind : RngGeneratorKind)
  | mock
  deriving DecidableEq, Repr

/-- What a handler leaves behind: the actor, the library, and the reply if it is the handler that
sends it; a fill replies for itself. -/
structure Handled where
  inner : RngInner
  curand : Curand
  reply : Option (Except GpuError Unit)

/-- The generator fills a buffer, if the request gets that far. -/
def RngDispatch.fill (req : RngDispatch) (gen : Generator) (c : Curand) : Curand :=
  if req.generates then { c with calls := .use gen :: c.calls } else c

/-- The answers without a device. -/
def replyMock (msg : RngMsg) : Option (Except GpuError Unit) :=
  match msg with
  | .fill _ => none
  | _ => some (.error (.unrecoverable "RngActor in mock mode"))

namespace RngActor

/-- The `SetSeed` arm. -/
def handleSetSeed (a : Answers) (gen : Generator) (kind : RngGeneratorKind) (seed : UInt64)
    (c : Curand) : Handled :=
  if kind.isQuasi then ⟨.real gen kind, c, some (.ok ())⟩
  else
    let (r, c) := setSeed a gen seed c
    ⟨.real gen kind, c, some (r.mapError fun e => .libraryError "curand" ("set_seed: " ++ e))⟩

/-- The `SetGenerator` arm. -/
def handleSetGenerator (a : Answers) (gen : Generator) (active kind : RngGeneratorKind)
    (c : Curand) : Handled :=
  let (_, c) := destroyGenerator a gen c
  match constructGenerator a kind 0 c with
  | (.ok newG, c) => ⟨.real newG kind, c, some (.ok ())⟩
  | (.error e, c) => ⟨.real gen active, c,
      some (.error (.libraryError "curand" ("set_generator(" ++ kind.debug ++ "): " ++ e)))⟩

/-- The actor, with or without a device. -/
def handle (a : Answers) (inner : RngInner) (msg : RngMsg) (c : Curand) : Handled :=
  match inner with
  | .mock => ⟨.mock, c, replyMock msg⟩
  | .real gen kind =>
    match msg with
    | .fill req | .fillUniformF32 req | .fillUniformF64 req | .fillUniformU32 req
    | .fillNormalF32 req | .fillNormalF64 req | .fillLogNormalF32 req =>
      ⟨inner, req.fill gen c, none⟩
    | .setSeed seed | .reseed seed => handleSetSeed a gen kind seed c
    | .setGenerator kind' => handleSetGenerator a gen kind kind' c

/-- The generator is destroyed. -/
def drop (a : Answers) (inner : RngInner) (c : Curand) : Curand :=
  match inner with
  | .mock => c
  | .real gen _ => if gen ≠ 0 then (destroyGenerator a gen c).2 else c

end RngActor

/-! ### The life of an actor -/

/-- `dropped` is also the phase of an actor whose props panicked. -/
inductive Phase
  | unborn
  | running (inner : RngInner)
  | dropped
  deriving DecidableEq, Repr

/-- The answer to a `SetGenerator`, the actor before and after it, and the calls up to it. -/
structure Swap where
  before : RngInner
  after : RngInner
  reply : Except GpuError Unit
  calls : List (Event Generator)

/-- An actor with its library, and the swaps it has made. -/
structure State where
  phase : Phase
  curand : Curand
  swaps : List Swap

/-- The steps in the life of an actor. -/
inductive Label
  | props (a : Answers) (seed : UInt64) (kind : RngGeneratorKind)
  | mockProps
  | msg (a : Answers) (m : RngMsg)
  | drop (a : Answers)
  deriving DecidableEq

/-- What the message adds to the answered swaps. -/
def swapOf (before : RngInner) (m : RngMsg) (h : Handled) : List Swap :=
  match m, h.reply with
  | .setGenerator _, some reply => [⟨before, h.inner, reply, h.curand.calls⟩]
  | _, _ => []

/-- One step in the life of an actor. -/
def step (s : State) (l : Label) : Option State :=
  match s.phase, l with
  | .unborn, .props a seed kind =>
    match constructGenerator a kind seed s.curand with
    | (.ok g, c) => some ⟨.running (.real g kind), c, s.swaps⟩
    | (.error _, c) => some ⟨.dropped, c, s.swaps⟩
  | .unborn, .mockProps => some { s with phase := .running .mock }
  | .running inner, .msg a m =>
    let h := RngActor.handle a inner m s.curand
    some ⟨.running h.inner, h.curand, swapOf inner m h ++ s.swaps⟩
  | .running inner, .drop a => some ⟨.dropped, RngActor.drop a inner s.curand, s.swaps⟩
  | _, _ => none

/-- The actor with its library. -/
def system : System State Label := ⟨⟨.unborn, ⟨0, []⟩, []⟩, step⟩

/-- The generator in the field. -/
def RngInner.gen? : RngInner → Option Generator
  | .real gen _ => some gen
  | .mock => none

/-- A refusal leaves the actor as it was, with its generator, if it has one, still live. -/
def Swap.Harmless (sw : Swap) : Prop :=
  ∀ e, sw.reply = .error e →
    sw.after = sw.before ∧ ∀ g, sw.after.gen? = some g → Live sw.calls g

/-- Only live generators are passed to cuRAND; at the end each one created has been destroyed
exactly once; and the refused swaps were harmless. -/
structure Sound (s : State) : Prop where
  disciplined : Disciplined s.curand.calls
  settled : s.phase = .dropped → Settled s.curand.calls
  harmless : ∀ sw ∈ s.swaps, sw.Harmless

/-- The construction goes through. -/
def Answers.Constructs (a : Answers) (kind : RngGeneratorKind) : Prop :=
  a.create = .ok () ∧ a.setStream = .ok () ∧ (kind.isQuasi = false → a.setSeed = .ok ())

/-- The first construction fails at its creation or not at all, and a construction that replaces a
generator does not fail. -/
def Undisturbed (s : State) : Label → Prop
  | .props a _ kind => a.create = .ok () → a.Constructs kind
  | .msg a (.setGenerator kind) => s.phase ≠ .running .mock → a.Constructs kind
  | _ => True

/-! ### A construction -/

/-- A construction creates no generator, or it creates one and uses nothing else; it then succeeds
exactly when all its calls do. -/
theorem constructGenerator_cases (a : Answers) (kind : RngGeneratorKind) (seed : UInt64)
    (c : Curand) :
    (a.create ≠ .ok () ∧ ∃ e, constructGenerator a kind seed c = (.error e, c)) ∨
    (a.create = .ok () ∧ ∃ uses r,
      constructGenerator a kind seed c =
        (r, ⟨c.created + 1, uses ++ .acquire (c.created + 1) :: c.calls⟩) ∧
      (∀ e ∈ uses, e = .use (c.created + 1)) ∧
      (a.Constructs kind ∧ r = .ok (c.created + 1) ∨
        ¬ a.Constructs kind ∧ ∃ e, r = .error e)) := by
  obtain ⟨destroy, create, stream, setS⟩ := a
  cases create with
  | error e => exact .inl ⟨nofun, e, rfl⟩
  | ok u =>
    right
    refine ⟨rfl, ?_⟩
    cases stream with
    | error e =>
      exact ⟨[.use _], .error e, rfl, List.forall_mem_singleton.2 rfl,
        .inr ⟨(fun h => by cases h.2.1), e, rfl⟩⟩
    | ok v =>
      cases hq : kind.isQuasi with
      | true =>
        refine ⟨[.use _], .ok _, ?_, List.forall_mem_singleton.2 rfl,
          .inl ⟨⟨rfl, rfl, (fun h => by cases hq.symm.trans h)⟩, rfl⟩⟩
        unfold constructGenerator
        rw [hq]
        rfl
      | false =>
        have hrun : constructGenerator ⟨destroy, .ok u, .ok v, setS⟩ kind seed c =
            (setS.map fun _ => c.created + 1, ⟨c.created + 1, [.use (c.created + 1),
              .use (c.created + 1)] ++ .acquire (c.created + 1) :: c.calls⟩) := by
          unfold constructGenerator
          rw [hq]
          cases setS <;> rfl
        refine ⟨_, _, hrun, by simp, ?_⟩
        cases setS with
        | error e => exact .inr ⟨(fun h => by cases h.2.2 hq), e, rfl⟩
        | ok w => exact .inl ⟨⟨rfl, rfl, fun _ => rfl⟩, rfl⟩

namespace Curand

/-- The log is in order, and only the generators counted so far occur in it. -/
structure Accounted (c : Curand) (owned : Set Generator) : Prop where
  accounts : Accounts c.calls owned
  counted : ∀ g, .acquire g ∈ c.calls → 0 < g ∧ g ≤ c.created

variable {c : Curand} {owned : Set Generator} {g : Generator}

theorem Accounted.use (h : c.Accounted owned) (hg : g ∈ owned) :
    Accounted { c with calls := .use g :: c.calls } owned where
  accounts := h.accounts.use hg
  counted g' hg' := h.counted g' (List.mem_of_ne_of_mem (by nofun) hg')

theorem Accounted.release (h : c.Accounted owned) (hg : g ∈ owned) :
    Accounted { c with calls := .release g :: c.calls } (owned \ {g}) where
  accounts := h.accounts.release hg
  counted g' hg' := h.counted g' (List.mem_of_ne_of_mem (by nofun) hg')

/-- A construction that gets past its creation owns the new generator. -/
theorem Accounted.created (h : c.Accounted owned) {uses : List (Event Generator)}
    (huses : ∀ e ∈ uses, e = .use (c.created + 1)) :
    Accounted ⟨c.created + 1, uses ++ .acquire (c.created + 1) :: c.calls⟩
      (insert (c.created + 1) owned) where
  accounts := by
    have hnew : .acquire (c.created + 1) ∉ c.calls := by
      intro hmem
      have hle := (h.counted _ hmem).2
      omega
    exact (h.accounts.acquire hnew).uses (Set.mem_insert _ _) huses
  counted g hg := by
    obtain hmem | hmem := List.mem_append.1 hg
    · cases huses _ hmem
    · obtain heq | hold := List.mem_cons.1 hmem
      · cases heq
        exact ⟨Nat.succ_pos _, le_rfl⟩
      · have hbound := h.counted g hold
        exact ⟨hbound.1, hbound.2.trans (Nat.le_succ _)⟩

end Curand

/-! ### One step -/

/-- The generator the actor has to destroy. -/
def Phase.owned : Phase → Set Generator
  | .running (.real gen _) => {gen}
  | _ => ∅

/-- The generators are accounted for, and no swap has done harm. -/
structure Inv (s : State) : Prop where
  accounted : s.curand.Accounted s.phase.owned
  harmless : ∀ sw ∈ s.swaps, sw.Harmless

theorem Inv.sound {s : State} (h : Inv s) : Sound s where
  disciplined := h.accounted.accounts.disciplined
  settled hend := by
    have hacc := h.accounted.accounts
    rw [hend] at hacc
    exact hacc.settled
  harmless := h.harmless

theorem inv_init : Inv system.init where
  accounted := ⟨accounts_nil, fun _ hg => absurd hg List.not_mem_nil⟩
  harmless := fun _ hsw => absurd hsw List.not_mem_nil

theorem Inv.gen_ne_zero {s : State} {gen : Generator} {kind : RngGeneratorKind} (h : Inv s)
    (hphase : s.phase = .running (.real gen kind)) : gen ≠ 0 := by
  have hmem : gen ∈ s.phase.owned := hphase ▸ rfl
  have hlive := h.accounted.accounts.live gen hmem
  exact (h.accounted.counted gen hlive.1).1.ne'

/-- A message that is no `SetGenerator` leaves the actor as it is and uses its generator at most. -/
theorem handle_of_ne_setGenerator (a : Answers) (gen : Generator) (kind : RngGeneratorKind)
    {m : RngMsg} (hm : ∀ k, m ≠ .setGenerator k) (c : Curand) :
    (RngActor.handle a (.real gen kind) m c).inner = .real gen kind ∧
      ((RngActor.handle a (.real gen kind) m c).curand = c ∨
        (RngActor.handle a (.real gen kind) m c).curand =
          { c with calls := .use gen :: c.calls }) := by
  have hfill : ∀ req : RngDispatch,
      req.fill gen c = c ∨ req.fill gen c = { c with calls := .use gen :: c.calls } := by
    intro req
    unfold RngDispatch.fill
    split_ifs
    · exact .inr rfl
    · exact .inl rfl
  have hseed : ∀ seed, (RngActor.handleSetSeed a gen kind seed c).inner = .real gen kind ∧
      ((RngActor.handleSetSeed a gen kind seed c).curand = c ∨
        (RngActor.handleSetSeed a gen kind seed c).curand =
          { c with calls := .use gen :: c.calls }) := by
    intro seed
    unfold RngActor.handleSetSeed
    split_ifs
    · exact ⟨rfl, .inl rfl⟩
    · exact ⟨rfl, .inr rfl⟩
  cases m with
  | setGenerator k => exact absurd rfl (hm k)
  | setSeed seed => exact hseed seed
  | reseed seed => exact hseed seed
  | fill req => exact ⟨rfl, hfill req⟩
  | fillUniformF32 req => exact ⟨rfl, hfill req⟩
  | fillUniformF64 req => exact ⟨rfl, hfill req⟩
  | fillUniformU32 req => exact ⟨rfl, hfill req⟩
  | fillNormalF32 req => exact ⟨rfl, hfill req⟩
  | fillNormalF64 req => exact ⟨rfl, hfill req⟩
  | fillLogNormalF32 req => exact ⟨rfl, hfill req⟩

theorem swapOf_of_ne_setGenerator {m : RngMsg} (hm : ∀ k, m ≠ .setGenerator k)
    (before : RngInner) (h : Handled) : swapOf before m h = [] := by
  cases m with
  | setGenerator k => exact absurd rfl (hm k)
  | _ => rfl

/-- A refusal in mock mode is harmless. -/
theorem harmless_of_mock {a : Answers} {m : RngMsg} {c : Curand} :
    ∀ sw ∈ swapOf .mock m (RngActor.handle a .mock m c), sw.Harmless := by
  intro sw hsw
  cases m with
  | setGenerator k =>
    obtain rfl := List.mem_singleton.1 hsw
    exact fun _ _ => ⟨rfl, nofun⟩
  | _ => cases hsw

/-- What a swap does: the old generator is destroyed, then the construction decides. -/
theorem handleSetGenerator_cases (a : Answers) (gen : Generator) (active kind : RngGeneratorKind)
    (c : Curand) :
    let c' : Curand := { c with calls := .release gen :: c.calls }
    (a.Constructs kind ∧ ∃ uses, (∀ e ∈ uses, e = .use (c.created + 1)) ∧
      RngActor.handleSetGenerator a gen active kind c = ⟨.real (c.created + 1) kind,
        ⟨c.created + 1, uses ++ .acquire (c.created + 1) :: c'.calls⟩, some (.ok ())⟩) ∨
    (¬ a.Constructs kind ∧ ∃ e h, RngActor.handleSetGenerator a gen active kind c = h ∧
      h.inner = .real gen active ∧ h.reply = some (.error e) ∧
      .release gen ∈ h.curand.calls) := by
  intro c'
  have hunfold : RngActor.handleSetGenerator a gen active kind c =
      match constructGenerator a kind 0 c' with
      | (.ok newG, c) => ⟨.real newG kind, c, some (.ok ())⟩
      | (.error e, c) => ⟨.real gen active, c,
        some (.error (.libraryError "curand" ("set_generator(" ++ kind.debug ++ "): " ++ e)))⟩ :=
    rfl
  rw [hunfold]
  obtain ⟨hcreate, e, hrun⟩ | ⟨-, uses, r, hrun, huses, ⟨hgood, rfl⟩ | ⟨hbad, e, rfl⟩⟩ :=
    constructGenerator_cases a kind 0 c'
  · rw [hrun]
    exact .inr ⟨fun h => hcreate h.1, _, _, rfl, rfl, rfl, List.mem_cons_self⟩
  · rw [hrun]
    exact .inl ⟨hgood, uses, huses, rfl⟩
  · rw [hrun]
    refine .inr ⟨hbad, _, _, rfl, rfl, rfl, ?_⟩
    exact List.mem_append_right _ (List.mem_cons_of_mem _ List.mem_cons_self)

section Preserved

variable {a : Answers} {c : Curand} {swaps : List Swap} {gen : Generator}
  {kind : RngGeneratorKind} {s' : State}

/-- The first construction. -/
theorem Inv.props {seed : UInt64} (h : Inv ⟨.unborn, c, swaps⟩)
    (hC : a.create = .ok () → a.Constructs kind)
    (hstep : step ⟨.unborn, c, swaps⟩ (.props a seed kind) = some s') : Inv s' := by
  have hacc : c.Accounted Phase.unborn.owned := h.accounted
  simp only [step] at hstep
  obtain ⟨-, e, hrun⟩ | ⟨hcreate, uses, r, hrun, huses, ⟨-, rfl⟩ | ⟨hbad, -⟩⟩ :=
    constructGenerator_cases a kind seed c
  · rw [hrun] at hstep
    obtain rfl := Option.some.inj hstep
    exact ⟨hacc, h.harmless⟩
  · rw [hrun] at hstep
    obtain rfl := Option.some.inj hstep
    refine ⟨?_, h.harmless⟩
    have hnew := hacc.created huses
    rwa [show insert (c.created + 1) Phase.unborn.owned = {c.created + 1} from
      insert_empty_eq _] at hnew
  · exact absurd (hC hcreate) hbad

/-- A swap that does not fail: the old generator is destroyed and the new one owned. -/
theorem Inv.setGenerator {k : RngGeneratorKind} (h : Inv ⟨.running (.real gen kind), c, swaps⟩)
    (hC : a.Constructs k)
    (hstep : step ⟨.running (.real gen kind), c, swaps⟩ (.msg a (.setGenerator k)) = some s') :
    Inv s' := by
  have hacc : c.Accounted (Phase.running (.real gen kind)).owned := h.accounted
  obtain rfl := Option.some.inj hstep
  obtain ⟨-, uses, huses, hrun⟩ | ⟨hbad, -⟩ := handleSetGenerator_cases a gen kind k c
  · have hhandle : RngActor.handle a (.real gen kind) (.setGenerator k) c = _ := hrun
    simp only [hhandle]
    refine ⟨?_, fun sw hsw => ?_⟩
    · -- the old generator goes before the new one comes
      have hnew := (hacc.release (g := gen) rfl).created huses
      rwa [show insert (c.created + 1) ((Phase.running (.real gen kind)).owned \ {gen}) =
          {c.created + 1} by simp [Phase.owned]] at hnew
    · obtain hnew | hold := List.mem_append.1 hsw
      · obtain rfl := List.mem_singleton.1 hnew
        exact nofun
      · exact h.harmless sw hold
  · exact absurd hC hbad

/-- Any other message to an actor with a generator. -/
theorem Inv.message {m : RngMsg} (h : Inv ⟨.running (.real gen kind), c, swaps⟩)
    (hne : ∀ k, m ≠ .setGenerator k)
    (hstep : step ⟨.running (.real gen kind), c, swaps⟩ (.msg a m) = some s') : Inv s' := by
  have hacc : c.Accounted (Phase.running (.real gen kind)).owned := h.accounted
  obtain rfl := Option.some.inj hstep
  obtain ⟨hinner, hcurand⟩ := handle_of_ne_setGenerator a gen kind hne c
  simp only [hinner, swapOf_of_ne_setGenerator hne, List.nil_append]
  refine ⟨?_, h.harmless⟩
  obtain heq | heq := hcurand
  · simp only [heq]
    exact hacc
  · simp only [heq]
    exact hacc.use rfl

/-- The end of an actor, which destroys its generator. -/
theorem Inv.drop {inner : RngInner} (h : Inv ⟨.running inner, c, swaps⟩)
    (hstep : step ⟨.running inner, c, swaps⟩ (.drop a) = some s') : Inv s' := by
  have hacc : c.Accounted (Phase.running inner).owned := h.accounted
  obtain rfl := Option.some.inj hstep
  refine ⟨?_, h.harmless⟩
  cases inner with
  | mock => exact hacc
  | real gen kind =>
    have hne : gen ≠ 0 := h.gen_ne_zero rfl
    have hgone := hacc.release (g := gen) rfl
    rw [show (Phase.running (.real gen kind)).owned \ {gen} = ∅ from sdiff_self] at hgone
    simp only [RngActor.drop, if_pos hne]
    exact hgone

end Preserved

/-- An undisturbed step keeps the invariant. -/
theorem Inv.next {s s' : State} {l : Label} (h : Inv s) (hC : Undisturbed s l)
    (hstep : step s l = some s') : Inv s' := by
  obtain ⟨phase, c, swaps⟩ := s
  cases l with
  | props a seed kind =>
    cases phase with
    | unborn => exact h.props hC hstep
    | running inner => cases hstep
    | dropped => cases hstep
  | mockProps =>
    cases phase with
    | unborn =>
      obtain rfl := Option.some.inj hstep
      exact ⟨h.accounted, h.harmless⟩
    | running inner => cases hstep
    | dropped => cases hstep
  | msg a m =>
    cases phase with
    | unborn => cases hstep
    | dropped => cases hstep
    | running inner =>
      cases inner with
      | mock =>
        obtain rfl := Option.some.inj hstep
        refine ⟨h.accounted, fun sw hsw => ?_⟩
        obtain hnew | hold := List.mem_append.1 hsw
        · exact harmless_of_mock sw hnew
        · exact h.harmless sw hold
      | real gen kind =>
        by_cases hm : ∃ k, m = .setGenerator k
        · obtain ⟨k, rfl⟩ := hm
          exact h.setGenerator (hC nofun) hstep
        · exact h.message (fun k hk => hm ⟨k, hk⟩) hstep
  | drop a =>
    cases phase with
    | unborn => cases hstep
    | dropped => cases hstep
    | running inner => exact h.drop hstep

/-- A construction that fails with a generator at stake leaks the new one or keeps the old one. -/
theorem undisturbed_of_sound {s s' : State} {l : Label} (h : Inv s)
    (hstep : step s l = some s') (hs' : Sound s') : Undisturbed s l := by
  obtain ⟨phase, c, swaps⟩ := s
  have hacc : c.Accounted phase.owned := h.accounted
  cases l with
  | mockProps => trivial
  | drop a => trivial
  | props a seed kind =>
    intro hcreate
    cases phase with
    | running inner => cases hstep
    | dropped => cases hstep
    | unborn =>
      simp only [step] at hstep
      obtain ⟨hno, -⟩ | ⟨-, uses, r, hrun, huses, ⟨hgood, -⟩ | ⟨-, e, rfl⟩⟩ :=
        constructGenerator_cases a kind seed c
      · exact absurd hcreate hno
      · exact hgood
      · rw [hrun] at hstep
        obtain rfl := Option.some.inj hstep
        -- the props panic, and nobody knows the new generator
        have hlive := (hacc.created huses).accounts.live _ (Set.mem_insert _ _)
        exact absurd (hs'.settled rfl) (not_settled_of_live hlive)
  | msg a m =>
    cases m with
    | setGenerator k =>
      intro hreal
      cases phase with
      | unborn => cases hstep
      | dropped => cases hstep
      | running inner =>
        cases inner with
        | mock => exact absurd rfl hreal
        | real gen kind =>
          obtain rfl := Option.some.inj hstep
          obtain ⟨hgood, -⟩ | ⟨-, e, r, hrun, hinner, hreply, hgone⟩ :=
            handleSetGenerator_cases a gen kind k c
          · exact hgood
          · have hhandle : RngActor.handle a (.real gen kind) (.setGenerator k) c = r := hrun
            have hmem : (⟨.real gen kind, r.inner, .error e, r.curand.calls⟩ : Swap) ∈
                swapOf (.real gen kind) (.setGenerator k) r ++ swaps := by
              simp [swapOf, hreply]
            rw [← hhandle] at hmem
            obtain ⟨-, hlive⟩ := hs'.harmless _ hmem e rfl
            rw [hhandle] at hlive
            exact absurd hgone (hlive gen (by rw [hinner]; rfl)).2
    | _ => trivial

/-- cuRAND only sees live generators, each generator is destroyed once by the end and a refused
`SetGenerator` changes nothing, in every state of the life of an actor, exactly when in that life
the first construction fails at its creation or not at all, and no replacement fails. -/
theorem along_sound_iff (ls : List Label) :
    system.Along Sound system.init ls ↔ system.Meets Undisturbed system.init ls := by
  constructor
  · refine System.meets_of_along (I := Inv) ?_ ?_ inv_init
    · exact fun s l s' hs hstep hs' => undisturbed_of_sound hs hstep hs'
    · exact fun s l s' hs hC hstep => hs.next hC hstep
  · refine System.along_of_meets (I := Inv) ?_ ?_ inv_init
    · exact fun s hs => hs.sound
    · exact fun s l s' hs hC hstep => hs.next hC hstep

/-- cuRAND grants everything. -/
def granted : Answers := ⟨.ok (), .ok (), .ok (), .ok ()⟩

/-- cuRAND has no memory for another generator. -/
def exhausted : Answers :=
  ⟨.ok (), .error "CURAND_STATUS_ALLOCATION_FAILED", .ok (), .ok ()⟩

/-- A swap that cannot create its generator is refused, with the old one destroyed and still in
the field; the next seed goes to it, and the drop destroys it again. -/
theorem refused_swap_keeps_destroyed_generator :
    ¬ (∀ ls, system.Along Sound system.init ls) ∧
    ∃ s, system.run system.init
        [.props granted 7 .philox4_32_10, .msg exhausted (.setGenerator .mtgp32),
          .msg granted (.setSeed 9), .drop granted] = some s ∧
      s.curand.calls = [.release 1, .use 1, .release 1, .use 1, .use 1, .acquire 1] := by
  refine ⟨fun hall => ?_, _, rfl, rfl⟩
  have hlast := (hall [.props granted 7 .philox4_32_10, .msg exhausted (.setGenerator .mtgp32),
    .msg granted (.setSeed 9)]).last rfl
  exact hlast.disciplined.1.2 (by decide)

end Rng

end AtomrAccel
