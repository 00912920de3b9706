import AtomrAccel.Lib.InFlight
import AtomrAccel.Lib.Transition
import AtomrAccel.Kernel.Collective
import AtomrAccel.Module.ModuleActor

/-!
# Replies of launches and collectives, and the progress of the stream

`ModuleActor` and `CollectiveActor` answer a request themselves, right after the call that enqueues
it, and what they own of its buffers goes when the handler ends.  A launch gives its `GpuRef`s up
even before the call: `devptr_of` takes each of them, reads the address and drops it.  The stream
goes on at its own pace, and so do all others who hold handles to the buffers.

* `Handles`, `Heap.Owned`: the owners of a buffer, and what is left when some of them go;
* `Launch`, `State.launch`, `State.collective`: the two handlers up to their reply;
* `Label`, `step`, `system`: one actor, its stream and everybody else;
* `Completes`: an Ok was sent for finished operations only, and the buffers of the others are owned;
* `Keeps`, `along_completes_iff`: so it is in a run exactly when the stream is faster than every
  Ok, and no owner that goes is the last one of a buffer in use.
-/

namespace AtomrAccel

/-! ### Owners -/

/-- A bundle of handles: `GpuRef`s, and clones of the `Arc`s inside them. -/
structure Handles where
  refs : List GpuRef
  slices : List CudaSlice
  deriving DecidableEq, Repr

namespace Heap

variable {h : Heap} {x : Handles} {r : GpuRef} {s : CudaSlice}

/-- `r.access()`. -/
def access (h : Heap) (r : GpuRef) : Except GpuError CudaSlice :=
  (h.inner r).access (h.state r)

/-- Some handle keeps the buffer. -/
def Owned (h : Heap) (s : CudaSlice) : Prop :=
  s ∈ h.slices ∨ ∃ r ∈ h.refs, (h.inner r).slice = s

instance (h : Heap) (s : CudaSlice) : Decidable (h.Owned s) :=
  inferInstanceAs (Decidable (_ ∨ _))

/-- Some handle that is not in the bundle keeps the buffer. -/
def OwnerBeside (h : Heap) (x : Handles) (s : CudaSlice) : Prop :=
  s ∈ h.slices.diff x.slices ∨ ∃ r ∈ h.refs.diff x.refs, (h.inner r).slice = s

/-- The bundle is among the live handles. -/
def Holds (h : Heap) (x : Handles) : Prop :=
  x.refs.Subperm h.refs ∧ x.slices.Subperm h.slices

instance (h : Heap) (x : Handles) : Decidable (h.Holds x) :=
  inferInstanceAs (Decidable (_ ∧ _))

/-- The handles go away. -/
def drop (h : Heap) (x : Handles) : Heap :=
  { h with refs := h.refs.diff x.refs, slices := h.slices.diff x.slices }

/-- The handles count once more. -/
def share (h : Heap) (x : Handles) : Heap :=
  { h with refs := x.refs ++ h.refs, slices := x.slices ++ h.slices }

theorem Owned.share (hs : h.Owned s) (x : Handles) : (h.share x).Owned s := by
  rcases hs with hslice | ⟨r, hr, hrs⟩
  · exact Or.inl (List.mem_append_right _ hslice)
  · exact Or.inr ⟨r, List.mem_append_right _ hr, hrs⟩

theorem Owned.clone (hs : h.Owned s) (s' : CudaSlice) : (h.clone s').Owned s :=
  hs.imp_left (List.mem_cons_of_mem _)

theorem owned_of_mem (hr : r ∈ h.refs) : h.Owned (h.inner r).slice := Or.inr ⟨r, hr, rfl⟩

/-- A buffer is owned as long as its strong count is not zero. -/
theorem owned_iff_strong : h.Owned s ↔ 0 < h.strong s := by
  have hinner : 0 < (h.innerOwners s).length ↔ ∃ r ∈ h.refs, (h.inner r).slice = s := by
    rw [List.length_pos_iff_exists_mem]
    simp [innerOwners]
  rw [Owned, strong, Nat.add_pos_iff_pos_or_pos, List.count_pos_iff, hinner]

end Heap

namespace StreamReply

open InFlight Modules Collective Transition

/-! ### Launches -/

/-- A `Launch` or `LaunchCooperative`, with the tables it finds. -/
structure Launch where
  env : Env
  real : Modules.Real
  driver : Driver
  function : FunctionHandle
  cfg : LaunchConfig
  args : List KernelArg
  cooperative : Bool

/-- The `GpuRef` that an argument moves into the handler. -/
def argRef : KernelArg → Option GpuRef
  | .devSliceF32 g | .devSliceF64 g | .devSliceI32 g | .devSliceU32 g | .devSliceU8 g => some g
  | _ => none

def scratchPtr : KernelArgScratch → Option ℕ
  | .devPtr ptr => some ptr
  | _ => none

namespace Launch

variable (l : Launch)

/-- The handles of the message. -/
def handles : Handles := ⟨l.args.filterMap argRef, []⟩

/-- The buffers whose addresses the kernel gets. -/
def buffers (h : Heap) : List CudaSlice := l.handles.refs.map fun r => (h.inner r).slice

/-- The outside of the launch, with the handles as they are. -/
def envOn (h : Heap) : Env := { l.env with access := h.access }

/-- The launch of a request on the heap `h`. -/
def handle (h : Heap) : Modules.Handled Unit :=
  launchInner (l.envOn h) l.function l.cfg l.args l.cooperative l.real l.driver

/-- The function is in the tables, every argument is wired and valid, and the driver takes the
launch. -/
def Accepted (h : Heap) : Prop :=
  ∃ m name f scratch, l.real.modules.lookup l.function.module = some m ∧
    m.functions.lookup l.function.functionId = some (name, f) ∧
    l.args.mapM (fromArg (l.envOn h)) = .ok scratch ∧
    (if l.cooperative then l.env.launchCooperativeKernel f l.cfg scratch
      else l.env.launchKernel f l.cfg scratch) = .ok ()

end Launch

variable {h : Heap} {l : Launch}

theorem launch_ok_iff : (l.handle h).reply = .ok () ↔ l.Accepted h := by
  unfold Launch.handle launchInner Launch.Accepted
  cases hm : l.real.modules.lookup l.function.module with
  | none => simp
  | some m =>
    cases hf : m.functions.lookup l.function.functionId with
    | none => simp [hf]
    | some p =>
      obtain ⟨name, f⟩ := p
      cases hs : l.args.mapM (fromArg (l.envOn h)) with
      | error e => simp [hf]
      | ok scratch => simp [hf, Launch.envOn]

theorem fromArg_ptr {env : Env} {a : KernelArg} {k : KernelArgScratch}
    (henv : env.access = h.access) (ha : fromArg env a = .ok k) :
    scratchPtr k = (argRef a).map fun r => (h.inner r).slice.addr := by
  have hptr : ∀ g, devptrOf env g = .ok k →
      scratchPtr k = some (h.inner g).slice.addr := by
    intro g hg
    unfold devptrOf at hg
    rw [henv] at hg
    cases hacc : h.access g with
    | error e =>
      rw [hacc] at hg
      cases hg
    | ok s =>
      obtain ⟨st, -, -, -, rfl⟩ := GpuRefInner.access_eq_ok.1 hacc
      rw [hacc] at hg
      cases hg
      rfl
  cases a with
  | devSliceF32 g | devSliceF64 g | devSliceI32 g | devSliceU32 g | devSliceU8 g =>
    exact hptr g ha
  | scalarF32 | scalarF64 | scalarI32 | scalarU32 | scalarU64 | usize =>
    cases ha
    rfl
  | devSlice | scalar => cases ha

/-- The addresses in the parameter array are those of the buffers of the launch. -/
theorem scratch_ptrs {env : Env} {args : List KernelArg} {scratch : List KernelArgScratch}
    (henv : env.access = h.access) (hs : args.mapM (fromArg env) = .ok scratch) :
    scratch.filterMap scratchPtr =
      (args.filterMap argRef).map fun r => (h.inner r).slice.addr := by
  induction args generalizing scratch with
  | nil =>
    cases hs
    rfl
  | cons a args ih =>
    rw [List.mapM_cons] at hs
    cases ha : fromArg env a with
    | error e =>
      rw [ha] at hs
      cases hs
    | ok k =>
      cases hrest : args.mapM (fromArg env) with
      | error e =>
        rw [ha, hrest] at hs
        cases hs
      | ok ks =>
        rw [ha, hrest] at hs
        cases hs
        have hk := fromArg_ptr henv ha
        have htail := ih hrest
        cases hr : argRef a with
        | none =>
          rw [hr] at hk
          rw [List.filterMap_cons_none hk, List.filterMap_cons_none hr, htail]
        | some r =>
          rw [hr] at hk
          rw [List.filterMap_cons_some hk, List.filterMap_cons_some hr, htail, List.map_cons]

/-! ### The actor, its stream and everybody else -/

/-- Where the handler stands: about to answer, with Ok for an operation or with an error, or past
its answer; and the handles it still has. -/
inductive Phase
  | idle
  | answering (op : Option ℕ) (held : Handles)
  | dropping (held : Handles)
  deriving DecidableEq, Repr

/-- What the actor still holds of a request. -/
def Phase.held : Phase → Handles
  | idle => ⟨[], []⟩
  | answering _ held => held
  | dropping held => held

/-- The heap, the stream, and what the actor is doing. -/
structure State where
  heap : Heap
  stream : Pipeline CudaSlice
  phase : Phase

/-- The steps of the actor and its stream. -/
inductive Label
  | launch (l : Launch)
  | collective (comm : Comm) (state : DeviceState) (req : CollectiveDispatch)
  | reply
  /-- the end of the handler -/
  | cleanup
  /-- the stream finishes its oldest operation -/
  | progress
  /-- others clone handles, drop handles, and change the state of devices -/
  | share (x : Handles)
  | release (x : Handles)
  | devices (state : GpuRef → Option DeviceState)

namespace State

variable (s : State)

/-- `launch_inner`: the arguments are gone when the driver is called. -/
def launch (l : Launch) : State :=
  -- `launch_inner` owns the argument list, so that it is gone on an error too
  let heap := s.heap.drop l.handles
  match (l.handle s.heap).reply with
  | .ok () => ⟨heap, s.stream.issue (l.buffers s.heap),
      .answering (some s.stream.issued) ⟨[], []⟩⟩
  | .error _ => ⟨heap, s.stream, .answering none ⟨[], []⟩⟩

/-- A boxed request: it stays until the handler ends, with what the handler has cloned. -/
def collective (comm : Comm) (state : DeviceState) (req : CollectiveDispatch) : State :=
  let y := Collective.handle s.heap (.real comm state) (.op req)
  let held : Handles := ⟨req.buffers, y.heap.slices.diff s.heap.slices⟩
  match y.replies with
  | [.result (.ok ())] => ⟨y.heap, s.stream.issue (y.calls.flatMap NcclCall.buffers),
      .answering (some s.stream.issued) held⟩
  | _ => ⟨y.heap, s.stream, .answering none held⟩

end State

/-- One step of the actor or its stream. -/
def step (s : State) : Label → Option State
  | .launch l =>
    if s.phase = .idle ∧ s.heap.Holds l.handles then some (s.launch l) else none
  | .collective comm state req =>
    if s.phase = .idle ∧ s.heap.Holds ⟨req.buffers, []⟩ then some (s.collective comm state req)
    else none
  | .reply =>
    match s.phase with
    | .answering op held =>
      some { s with stream := op.elim s.stream s.stream.ack, phase := .dropping held }
    | _ => none
  | .cleanup =>
    match s.phase with
    | .dropping held => some { s with heap := s.heap.drop held, phase := .idle }
    | _ => none
  | .progress => some { s with stream := s.stream.finish }
  | .share x =>
    if (∀ r ∈ x.refs, r ∈ s.heap.refs) ∧ ∀ b ∈ x.slices, s.heap.Owned b then
      some { s with heap := s.heap.share x }
    else none
  | .release x =>
    -- what the handler has is not for others to drop
    if (s.heap.drop s.phase.held).Holds x then some { s with heap := s.heap.drop x } else none
  | .devices state => some { s with heap := { s.heap with state := state } }

/-- The actor at rest, with the handles that there are. -/
def system (heap : Heap) : System State Label := ⟨⟨heap, .empty, .idle⟩, step⟩

/-- Every Ok was sent after its operation had finished, and the buffers of the operations that have
not finished are owned. -/
def Completes (s : State) : Prop := s.stream.Sound s.heap.Owned

/-- Every buffer in use has an owner besides the bundle. -/
def State.SparedBy (s : State) (x : Handles) : Prop :=
  ∀ b, s.stream.InUse b → s.heap.OwnerBeside x b

/-- What a step must do: a launch needs other owners than its message, for its own buffers when it
is accepted and for all that are in use; an Ok needs an operation that has finished; whoever drops
handles leaves the buffers in use an owner. -/
def Keeps (s : State) : Label → Prop
  | .launch l => s.SparedBy l.handles ∧
      (l.Accepted s.heap → ∀ b ∈ l.buffers s.heap, s.heap.OwnerBeside l.handles b)
  | .reply => ∀ id held, s.phase = .answering (some id) held → s.stream.Finished id
  | .cleanup => ∀ held, s.phase = .dropping held → s.SparedBy held
  | .release x => s.SparedBy x
  | .collective .. | .progress | .share _ | .devices _ => True

/-! ### One step -/

/-- Numbers are given out once, also the one that is about to be answered. -/
structure Inv (s : State) : Prop where
  numbered : s.stream.Numbered
  answering_lt : ∀ id held, s.phase = .answering (some id) held → id < s.stream.issued

section Step

variable {s s' : State} {x : Handles} {comm : Comm} {state : DeviceState}
  {req : CollectiveDispatch}

theorem inv_init (heap : Heap) : Inv (system heap).init :=
  ⟨Pipeline.numbered_empty, fun _ _ hphase => by cases hphase⟩

theorem completes_init (heap : Heap) : Completes (system heap).init :=
  Pipeline.sound_empty _

/-- A launch leaves the heap without its handles, and an operation on the stream if it is
accepted. -/
theorem launch_cases (s : State) (l : Launch) :
    (l.Accepted s.heap ∧ s.launch l = ⟨s.heap.drop l.handles, s.stream.issue (l.buffers s.heap),
      .answering (some s.stream.issued) ⟨[], []⟩⟩) ∨
    (¬ l.Accepted s.heap ∧ s.launch l = ⟨s.heap.drop l.handles, s.stream,
      .answering none ⟨[], []⟩⟩) := by
  cases hreply : (l.handle s.heap).reply with
  | ok a =>
    left
    exact ⟨launch_ok_iff.1 hreply, by simp only [State.launch, hreply]⟩
  | error e =>
    right
    refine ⟨fun hacc => ?_, by simp only [State.launch, hreply]⟩
    rw [launch_ok_iff.2 hacc] at hreply
    cases hreply

/-- A collective request enqueues an operation only on the one buffer that it lends. -/
theorem collective_cases (s : State) (comm : Comm) (state : DeviceState)
    (halive : ∀ r ∈ req.buffers, r ∈ s.heap.refs) :
    ∃ heap held, (∀ b, s.heap.Owned b → heap.Owned b) ∧
      (s.collective comm state req = ⟨heap, s.stream, .answering none held⟩ ∨
      ∃ r ∈ req.buffers, s.collective comm state req =
        ⟨heap, s.stream.issue [(s.heap.inner r).slice],
          .answering (some s.stream.issued) held⟩) := by
  rcases dispatch_cases comm req halive with ⟨-, e, he⟩ | ⟨r, label, c, hlent, -, hc, hrun⟩
  · refine ⟨s.heap, ⟨req.buffers, s.heap.slices.diff s.heap.slices⟩, fun _ hb => hb, Or.inl ?_⟩
    simp only [State.collective, Collective.handle, he, finish]
  · let b := (s.heap.inner r).slice
    refine ⟨s.heap.clone b, ⟨req.buffers, (s.heap.clone b).slices.diff s.heap.slices⟩,
      fun _ hb => hb.clone b, ?_⟩
    cases hcall : comm.call [] c with
    | error e =>
      left
      simp only [State.collective, Collective.handle, hrun, finish_issue, hcall,
        Except.mapError, b]
    | ok a =>
      right
      refine ⟨r, req.lent_mem hlent, ?_⟩
      simp only [State.collective, Collective.handle, hrun, finish_issue, hcall,
        Except.mapError, List.flatMap_cons, List.flatMap_nil, hc, List.append_nil, b]

theorem reply_cases (hstep : step s .reply = some s') : ∃ op held,
    s.phase = .answering op held ∧
      s' = { s with stream := op.elim s.stream s.stream.ack, phase := .dropping held } := by
  cases hphase : s.phase with
  | answering op held =>
    simp only [step, hphase] at hstep
    exact ⟨op, held, rfl, (Option.some.inj hstep).symm⟩
  | idle | dropping held =>
    simp only [step, hphase] at hstep
    cases hstep

theorem cleanup_cases (hstep : step s .cleanup = some s') : ∃ held,
    s.phase = .dropping held ∧ s' = { s with heap := s.heap.drop held, phase := .idle } := by
  cases hphase : s.phase with
  | dropping held =>
    simp only [step, hphase] at hstep
    exact ⟨held, rfl, (Option.some.inj hstep).symm⟩
  | idle | answering op held =>
    simp only [step, hphase] at hstep
    cases hstep

/-- A request that was taken has its handles alive. -/
theorem alive_of_holds (hholds : s.heap.Holds ⟨req.buffers, []⟩) :
    ∀ r ∈ req.buffers, r ∈ s.heap.refs :=
  fun _ hr => hholds.1.subset hr

/-- The operation that is about to be answered has just been issued. -/
theorem inv_answering_issued {heap : Heap} {held : Handles} {uses : List CudaSlice}
    (h : Inv s) : Inv ⟨heap, s.stream.issue uses, .answering (some s.stream.issued) held⟩ := by
  refine ⟨h.numbered.issue uses, fun id held' hphase => ?_⟩
  cases hphase
  exact Nat.lt_succ_self s.stream.issued

theorem inv_answering_none {heap : Heap} {held : Handles} (h : Inv s) :
    Inv ⟨heap, s.stream, .answering none held⟩ :=
  ⟨h.numbered, fun _ _ hphase => by cases hphase⟩

theorem Inv.next {l : Label} (h : Inv s) (hstep : step s l = some s') : Inv s' := by
  cases l with
  | launch l =>
    obtain ⟨-, hs⟩ := Option.ite_none_right_eq_some.1 hstep
    obtain rfl := Option.some.inj hs
    rcases launch_cases s l with ⟨-, heq⟩ | ⟨-, heq⟩
    · rw [heq]
      exact inv_answering_issued h
    · rw [heq]
      exact inv_answering_none h
  | collective comm state req =>
    obtain ⟨⟨-, hholds⟩, hs⟩ := Option.ite_none_right_eq_some.1 hstep
    obtain rfl := Option.some.inj hs
    obtain ⟨heap, held, -, heq | ⟨r, -, heq⟩⟩ :=
      collective_cases s comm state (alive_of_holds hholds)
    · rw [heq]
      exact inv_answering_none h
    · rw [heq]
      exact inv_answering_issued h
  | reply =>
    obtain ⟨op, held, hphase, rfl⟩ := reply_cases hstep
    refine ⟨?_, fun id held' hdrop => by cases hdrop⟩
    cases op with
    | none => exact h.numbered
    | some id => exact h.numbered.ack (h.answering_lt id held hphase)
  | cleanup =>
    obtain ⟨held, -, rfl⟩ := cleanup_cases hstep
    exact ⟨h.numbered, fun id held' hidle => by cases hidle⟩
  | progress =>
    cases hstep
    exact ⟨h.numbered.finish, h.answering_lt⟩
  | share x | release x =>
    obtain ⟨-, hs⟩ := Option.ite_none_right_eq_some.1 hstep
    cases hs
    exact ⟨h.numbered, h.answering_lt⟩
  | devices state =>
    cases hstep
    exact ⟨h.numbered, h.answering_lt⟩

/-- A launch takes its own handles away, and puts its buffers in use if it is accepted. -/
theorem launch_completes_iff (hinv : Inv s) (h : Completes s) (l : Launch) :
    Completes (s.launch l) ↔ Keeps s (.launch l) := by
  have hdrop : s.stream.Sound (s.heap.drop l.handles).Owned ↔ s.SparedBy l.handles := h.owner_iff
  rcases launch_cases s l with ⟨hacc, heq⟩ | ⟨hacc, heq⟩
  · rw [heq, Completes, Pipeline.sound_issue_iff hinv.numbered, hdrop]
    exact and_congr_right fun _ => ⟨fun howned _ => howned, fun howned => howned hacc⟩
  · rw [heq, Completes, hdrop]
    exact ⟨fun hspared => ⟨hspared, fun hyes => absurd hyes hacc⟩, fun hkeeps => hkeeps.1⟩

/-- A collective request keeps its handles until the handler ends. -/
theorem collective_completes (hinv : Inv s) (h : Completes s) (comm : Comm) (state : DeviceState)
    (halive : ∀ r ∈ req.buffers, r ∈ s.heap.refs) : Completes (s.collective comm state req) := by
  obtain ⟨heap, held, hmono, hcases⟩ := collective_cases s comm state halive
  have howned : s.stream.Sound heap.Owned := h.owner_iff.2 fun b hb => hmono b (h.owned b hb)
  rcases hcases with heq | ⟨r, hr, heq⟩
  · rw [heq]
    exact howned
  · rw [heq]
    refine (Pipeline.sound_issue_iff hinv.numbered).2 ⟨howned, fun b hb => ?_⟩
    rw [List.mem_singleton.1 hb]
    exact hmono _ (Heap.owned_of_mem (halive r hr))

/-- A step out of a good state leads into a good state exactly when it does what it must. -/
theorem step_completes_iff {l : Label} (hinv : Inv s) (h : Completes s)
    (hstep : step s l = some s') : Completes s' ↔ Keeps s l := by
  cases l with
  | launch l =>
    obtain ⟨-, hs⟩ := Option.ite_none_right_eq_some.1 hstep
    obtain rfl := Option.some.inj hs
    exact launch_completes_iff hinv h l
  | collective comm state req =>
    obtain ⟨⟨-, hholds⟩, hs⟩ := Option.ite_none_right_eq_some.1 hstep
    obtain rfl := Option.some.inj hs
    exact iff_of_true (collective_completes hinv h comm state (alive_of_holds hholds)) trivial
  | reply =>
    obtain ⟨op, held, hphase, rfl⟩ := reply_cases hstep
    cases op with
    | none =>
      refine iff_of_true h fun id held' heq => ?_
      rw [hphase] at heq
      cases heq
    | some id =>
      -- the Ok goes out now, whatever the stream does next
      have hack : Completes { s with stream := s.stream.ack id, phase := .dropping held } ↔ _ :=
        Pipeline.sound_ack_iff
      refine hack.trans ⟨fun hfin id' held' heq => ?_, fun hkeeps => ⟨h, hkeeps id held hphase⟩⟩
      rw [hphase] at heq
      cases heq
      exact hfin.2
  | cleanup =>
    obtain ⟨held, hphase, rfl⟩ := cleanup_cases hstep
    have hdrop : s.stream.Sound (s.heap.drop held).Owned ↔ s.SparedBy held := h.owner_iff
    refine hdrop.trans ⟨fun hspared held' heq => ?_, fun hkeeps => hkeeps held hphase⟩
    rw [hphase] at heq
    cases heq
    exact hspared
  | progress =>
    cases hstep
    exact iff_of_true h.finish trivial
  | share x =>
    obtain ⟨-, hs⟩ := Option.ite_none_right_eq_some.1 hstep
    cases hs
    exact iff_of_true (h.owner_iff.2 fun b hb => (h.owned b hb).share x) trivial
  | release x =>
    obtain ⟨-, hs⟩ := Option.ite_none_right_eq_some.1 hstep
    cases hs
    exact h.owner_iff
  | devices state =>
    cases hstep
    exact iff_of_true (h.owner_iff.2 h.owned) trivial

end Step

/-- **In every state of a run every Ok was sent after the end of its operation and the buffers of
unfinished operations are owned, exactly when the stream finishes each operation before its Ok, and
every launch, handler end and drop of somebody else leaves another owner to the buffers in use.** -/
theorem along_completes_iff (heap : Heap) (ls : List Label) :
    (system heap).Along Completes (system heap).init ls ↔
      (system heap).Meets Keeps (system heap).init ls := by
  -- the property is its own invariant once the numbers are in order
  have hgood : Inv (system heap).init ∧ Completes (system heap).init :=
    ⟨inv_init heap, completes_init heap⟩
  constructor
  · refine System.meets_of_along (I := fun s => Inv s ∧ Completes s) ?_ ?_ hgood
    · exact fun s l s' hs hstep hs' => (step_completes_iff hs.1 hs.2 hstep).1 hs'
    · exact fun s l s' hs hC hstep =>
        ⟨hs.1.next hstep, (step_completes_iff hs.1 hs.2 hstep).2 hC⟩
  · refine System.along_of_meets (I := fun s => Inv s ∧ Completes s) ?_ ?_ hgood
    · exact fun s hs => hs.2
    · exact fun s l s' hs hC hstep =>
        ⟨hs.1.next hstep, (step_completes_iff hs.1 hs.2 hstep).2 hC⟩

/-- A kernel on a buffer, loaded and resolved. -/
def scale : Launch :=
  let loaded := loadImage obliging [1] .new ⟨0, []⟩
  let resolved := getFunction obliging ⟨1⟩ [97] loaded.real loaded.driver
  ⟨obliging, resolved.real, resolved.driver, ⟨1, 1⟩, ⟨(1, 1, 1), (64, 1, 1), 0⟩,
    [.devSliceF32 0], false⟩

/-- Its buffer, with a single handle. -/
def sole : Heap := WriteRequest.oneBuffer

/-- The client keeps a handle while it sends another one. -/
def shared : Heap := { sole with refs := [0, 0] }

/-- The kernel is answered with Ok while it runs; when the message had the only handle, it runs on a
buffer that nobody owns; and so does a send after its Ok. -/
theorem slow_kernel_answered :
    (¬ ∀ heap ls, (system heap).Along Completes (system heap).init ls) ∧
    (∃ s, (system shared).run (system shared).init [.launch scale, .reply] = some s ∧
      s.stream = ⟨[⟨0, [⟨0, 0, 4⟩]⟩], 1, [0]⟩ ∧ s.heap.Owned ⟨0, 0, 4⟩) ∧
    (∃ s, (system sole).run (system sole).init [.launch scale] = some s ∧
      s.stream = ⟨[⟨0, [⟨0, 0, 4⟩]⟩], 1, []⟩ ∧ ¬ s.heap.Owned ⟨0, 0, 4⟩) ∧
    ∃ s, (system sole).run (system sole).init
        [.collective pair (.new 0) (.send ⟨0, 1⟩), .reply, .cleanup] = some s ∧
      s.stream = ⟨[⟨0, [⟨0, 0, 4⟩]⟩], 1, [0]⟩ ∧ ¬ s.heap.Owned ⟨0, 0, 4⟩ := by
  refine ⟨fun hall => ?_, ⟨_, rfl, rfl, by decide⟩, ⟨_, rfl, rfl, by decide⟩,
    ⟨_, rfl, rfl, by decide⟩⟩
  have hlast := (hall shared [.launch scale, .reply]).last rfl
  exact hlast.finished 0 List.mem_cons_self ⟨0, [⟨0, 0, 4⟩]⟩ List.mem_cons_self rfl

end StreamReply

end AtomrAccel
