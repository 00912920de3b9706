import AtomrAccel.Nvrtc.Compile
import AtomrAccel.Device.Rebuild

/-!
# `NvrtcActor`: asynchronous compiles across rebuilds

The task of a `CompileAsync` has the context of the actor that started it, and reads the device's
generation when it has loaded the module.  A rebuild between the two moments stamps a module of the
old context with the new generation, and the check at launch lets it through.

* `launchCheck`: the check of `handle_launch`;
* `Phase`, `Workshop`, `step`: the tasks of one device, step by step, and its rebuilds;
* `Truthful`, `Undisturbed`, `truthful_of_undisturbed`: no handle of an old context passes the check
  as long as every task stamps its handle before the next rebuild.
-/

namespace AtomrAccel

namespace Nvrtc

/-- The first check of `handle_launch`. -/
def launchCheck (kernel : KernelHandle) (state : DeviceState) : Except GpuError Unit :=
  if kernel.generation ≠ state.generation then
    .error (.gpuRefStale "nvrtc kernel from prior context generation")
  else .ok ()

theorem launchCheck_eq_ok {kernel : KernelHandle} {state : DeviceState} :
    launchCheck kernel state = .ok () ↔ kernel.generation = state.generation := by
  unfold launchCheck
  split_ifs with h
  · exact ⟨fun hok => (nomatch hok), fun heq => absurd heq h⟩
  · exact ⟨fun _ => not_not.1 h, fun _ => rfl⟩

/-- The map of a task is its own and empty, so its function is in the context it has captured, and
its stamp is the generation it has read. -/
theorem Toolchain.handleCompile_async {tools : Toolchain} {env : CompileEnv}
    {disk : Option Handle} {src kernelName : String} {opts : NvrtcOpts} {h : KernelHandle}
    (hok : (tools.handleCompile env (fun _ => none) disk src kernelName opts).2 = .ok h) :
    h.func.module.ctx = env.ctx ∧ h.generation = env.generation := by
  unfold handleCompile at hok
  dsimp only at hok
  split at hok
  · cases hok
  · split at hok
    · cases hok
    · rw [Toolchain.map_loadFunction_ok hok]
      exact ⟨rfl, rfl⟩

/-! ### Tasks and rebuilds -/

/-- How far a task has come. -/
inductive TaskPhase
  | idle
  | captured (ctx : CtxId)
  | compiled (ctx : CtxId)
  | loaded (ctx : CtxId)
  | stamped (result : Except GpuError KernelHandle)
  | replied

/-- What the task of a request is about to do, but for its context and its generation. -/
structure TaskRequest where
  tools : Toolchain
  disk : Option Handle
  request : CompileRequest

/-- The result of the task with the context it captured and the generation it reads. -/
def TaskRequest.result (t : TaskRequest) (ctx : CtxId) (generation : UInt64) :
    Except GpuError KernelHandle :=
  (t.tools.handleCompile { t.request.env with ctx := ctx, generation := generation }
    (fun _ => none) t.disk t.request.src t.request.kernelName t.request.opts).2

/-- A device, the context of its `NvrtcActor`, the tasks and the handles that were returned. -/
structure Workshop where
  device : Rebuild.Device
  actor : Option CtxId
  tasks : ℕ → TaskPhase
  returned : List KernelHandle

/-- The steps of a device, the actor on it and its compilations. -/
inductive WorkshopLabel
  | runInitBump
  | runInitInstall
  | postStop
  /-- `run_init` spawns the actor with the context it has installed -/
  | spawnActor
  | compileAsync (task : ℕ)
  | compile (task : ℕ)
  | loadModule (task : ℕ)
  | stamp (task : ℕ)
  | reply (task : ℕ)

namespace Workshop

/-- A task goes on to a phase. -/
def setTask (s : Workshop) (task : ℕ) (p : TaskPhase) : Workshop :=
  { s with tasks := Function.update s.tasks task p }

variable (requests : ℕ → TaskRequest)

/-- One step of the workshop. -/
def step (s : Workshop) : WorkshopLabel → Option Workshop
  | .runInitBump =>
    if s.device.building.isSome then none else some { s with device := s.device.bump }
  | .runInitInstall => s.device.building.map fun ctx => { s with device := s.device.install ctx }
  | .postStop =>
    if s.device.building.isSome then none else some { s with device := s.device.postStop }
  | .spawnActor => s.device.state.currentCtx.map fun ctx => { s with actor := some ctx }
  | .compileAsync task =>
    match s.tasks task, s.actor with
    | .idle, some ctx => some (s.setTask task (.captured ctx))
    | _, _ => none
  | .compile task =>
    match s.tasks task with
    | .captured ctx => some (s.setTask task (.compiled ctx))
    | _ => none
  | .loadModule task =>
    match s.tasks task with
    | .compiled ctx => some (s.setTask task (.loaded ctx))
    | _ => none
  | .stamp task =>
    match s.tasks task with
    | .loaded ctx =>
      some (s.setTask task (.stamped ((requests task).result ctx s.device.state.generation)))
    | _ => none
  | .reply task =>
    match s.tasks task with
    | .stamped result =>
      some { s.setTask task .replied with returned := s.returned ++ result.toOption.toList }
    | _ => none

/-- A device before its first `run_init`. -/
def system (deviceId : ℕ) (mockMode : Bool) : Transition.System Workshop WorkshopLabel where
  init := ⟨.new deviceId mockMode, none, fun _ => .idle, []⟩
  step := step requests

/-- A returned handle that passes the check at launch was loaded into the context that was announced
with the device's generation. -/
def Truthful (s : Workshop) : Prop :=
  ∀ h ∈ s.returned, launchCheck h s.device.state = .ok () → h.func.module.ctx = s.device.bumps

/-- A task stamps its handle while the context it has captured is the last one announced; and the
generation counter has room for a bump. -/
def Undisturbed (s : Workshop) : WorkshopLabel → Prop
  | .runInitBump => s.device.NoWrap
  | .stamp task => ∀ ctx, s.tasks task = .loaded ctx → ctx = s.device.bumps
  | .runInitInstall | .postStop | .spawnActor | .compileAsync _ | .compile _ | .loadModule _
  | .reply _ => True

/-- A handle whose stamp is the number of its context. -/
def Honest (h : KernelHandle) : Prop := h.generation.toNat = h.func.module.ctx

/-- The invariant of undisturbed runs. -/
structure Inv (s : Workshop) : Prop where
  device : s.device.Inv
  tasks : ∀ task result, s.tasks task = .stamped result → ∀ h, result = .ok h → Honest h
  returned : ∀ h ∈ s.returned, Honest h

variable {requests} {s s' : Workshop} {l : WorkshopLabel}

theorem Inv.truthful (h : s.Inv) : s.Truthful := by
  intro k hk hcheck
  have hhonest : k.generation.toNat = k.func.module.ctx := h.returned k hk
  rw [← hhonest, launchCheck_eq_ok.1 hcheck]
  exact h.device.generation

theorem Inv.move {d : Rebuild.Device} (h : s.Inv) (hm : s.device.Moves d) :
    Inv { s with device := d } := ⟨hm.inv h.device, h.tasks, h.returned⟩

/-- A task goes on without a handle. -/
theorem Inv.setTask {task : ℕ} {p : TaskPhase} (h : s.Inv)
    (hp : ∀ result, p = .stamped result → ∀ k, result = .ok k → Honest k) :
    (s.setTask task p).Inv := by
  refine ⟨h.device, ?_, h.returned⟩
  intro task' result hresult
  by_cases htask : task' = task
  · subst htask
    exact hp result ((Function.update_self _ _ _).symm.trans hresult)
  · exact h.tasks task' result ((Function.update_of_ne htask _ _).symm.trans hresult)

/-- A stamp while the captured context is the last one announced. -/
theorem honest_result (h : s.Inv) {t : TaskRequest} {k : KernelHandle}
    (hk : t.result s.device.bumps s.device.state.generation = .ok k) : Honest k := by
  obtain ⟨hctx, hgeneration⟩ := Toolchain.handleCompile_async hk
  unfold Honest
  rw [hctx, hgeneration]
  exact h.device.generation

theorem Inv.step (h : s.Inv) (hl : s.Undisturbed l) (hs : s.step requests l = some s') :
    s'.Inv := by
  cases l with
  | runInitBump =>
    simp only [Workshop.step] at hs
    split_ifs at hs with hbuilding
    cases hs
    exact h.move (.bump (by simpa using hbuilding) hl)
  | runInitInstall =>
    obtain ⟨ctx, hbuilding, rfl⟩ := Option.map_eq_some_iff.1 hs
    exact h.move (.install hbuilding)
  | postStop =>
    simp only [Workshop.step] at hs
    split_ifs at hs with hbuilding
    cases hs
    exact h.move (.postStop (by simpa using hbuilding))
  | spawnActor =>
    obtain ⟨ctx, -, rfl⟩ := Option.map_eq_some_iff.1 hs
    exact ⟨h.device, h.tasks, h.returned⟩
  | compileAsync task | compile task | loadModule task =>
    simp only [Workshop.step] at hs
    split at hs
    · cases hs
      exact h.setTask nofun
    · cases hs
  | stamp task =>
    simp only [Workshop.step] at hs
    split at hs
    · rename_i ctx hphase
      cases hs
      obtain rfl := hl ctx hphase
      refine h.setTask ?_
      rintro result hresult k rfl
      exact honest_result h (TaskPhase.stamped.inj hresult)
    · cases hs
  | reply task =>
    simp only [Workshop.step] at hs
    split at hs
    · rename_i result hphase
      cases hs
      have hinv : (s.setTask task .replied).Inv := h.setTask nofun
      refine ⟨hinv.device, hinv.tasks, ?_⟩
      intro k hk
      rcases List.mem_append.1 hk with hold | hnew
      · exact h.returned k hold
      · cases result with
        | error e => cases hnew
        | ok k' =>
          rw [List.mem_singleton.1 hnew]
          exact h.tasks task _ hphase k' rfl
    · cases hs

/-- In every interleaving of tasks and rebuilds in which no rebuild falls between the capture of a
context and the stamp, a returned handle with the device's generation was loaded into the context of
that generation. -/
theorem truthful_of_undisturbed (requests : ℕ → TaskRequest) (deviceId : ℕ) (mockMode : Bool)
    (ls : List WorkshopLabel)
    (hls : (system requests deviceId mockMode).Meets Undisturbed
      (system requests deviceId mockMode).init ls) :
    (system requests deviceId mockMode).Along Truthful
      (system requests deviceId mockMode).init ls := by
  have hinit : (system requests deviceId mockMode).init.Inv :=
    ⟨Rebuild.Device.inv_new deviceId mockMode, nofun, nofun⟩
  exact Transition.System.along_of_meets (fun _ h => h.truthful)
    (fun _ _ _ h hl hs => h.step hl hs) hinit hls

/-- A task that stamps its handle after a rebuild and replies returns a handle that passes the check
in the wrong context. -/
theorem not_truthful_of_disturbed {task : ℕ} {ctx : CtxId} {k : KernelHandle}
    (hphase : s.tasks task = .loaded ctx) (hctx : ctx ≠ s.device.bumps)
    (hk : (requests task).result ctx s.device.state.generation = .ok k) :
    ∃ t, (system requests 0 false).run s [.stamp task, .reply task] = some t ∧ ¬ t.Truthful := by
  have hstamp : s.step requests (.stamp task) = some (s.setTask task (.stamped (.ok k))) := by
    simp only [Workshop.step, hphase, hk]
  have hreply : (s.setTask task (.stamped (.ok k))).step requests (.reply task) =
      some { (s.setTask task (.stamped (.ok k))).setTask task .replied with
        returned := s.returned ++ [k] } := by
    have hstamped : (s.setTask task (.stamped (.ok k))).tasks task = .stamped (.ok k) :=
      Function.update_self _ _ _
    simp only [Workshop.step, hstamped]
    rfl
  refine ⟨_, Transition.System.run_cons_eq_some.2 ⟨_, hstamp,
    Transition.System.run_cons_eq_some.2 ⟨_, hreply, rfl⟩⟩, ?_⟩
  intro htruthful
  obtain ⟨hkctx, hkgeneration⟩ := Toolchain.handleCompile_async hk
  have hmem : k ∈ s.returned ++ [k] := List.mem_append_right _ (List.mem_singleton_self _)
  have hcheck : launchCheck k s.device.state = .ok () := launchCheck_eq_ok.2 hkgeneration
  exact hctx (hkctx.symm.trans (htruthful k hmem hcheck))

/-- One task that compiles without a disk cache. -/
def sampleRequests (_ : ℕ) : TaskRequest := ⟨sampleTools, none, sampleCompile true {}⟩

instance (s : Workshop) (task : ℕ) :
    Decidable (∀ ctx, s.tasks task = .loaded ctx → ctx = s.device.bumps) :=
  match s.tasks task with
  | .loaded ctx => decidable_of_iff (ctx = s.device.bumps)
      ⟨fun heq _ hctx => TaskPhase.loaded.inj hctx ▸ heq, fun hall => hall ctx rfl⟩
  | .idle | .captured _ | .compiled _ | .stamped _ | .replied => isTrue (fun _ h => nomatch h)

instance (s : Workshop) (l : WorkshopLabel) : Decidable (s.Undisturbed l) :=
  match l with
  | .runInitBump => inferInstanceAs (Decidable s.device.NoWrap)
  | .stamp task =>
    inferInstanceAs (Decidable (∀ ctx, s.tasks task = .loaded ctx → ctx = s.device.bumps))
  | .runInitInstall | .postStop | .spawnActor | .compileAsync _ | .compile _ | .loadModule _
  | .reply _ => isTrue trivial

/-- A task that ends before the rebuild. -/
theorem compile_before_rebuild_truthful :
    (system sampleRequests 0 false).Along Truthful (system sampleRequests 0 false).init
      [.runInitBump, .runInitInstall, .spawnActor, .compileAsync 0, .compile 0, .loadModule 0,
        .stamp 0, .reply 0, .postStop, .runInitBump, .runInitInstall] :=
  truthful_of_undisturbed sampleRequests 0 false _ (by decide)

/-- A rebuild while the task compiles: its handle is of the first context, has the second
generation, and passes the check. -/
theorem rebuild_during_compile_passes :
    ¬ ∀ ls, (system sampleRequests 0 false).Along Truthful
      (system sampleRequests 0 false).init ls := by
  intro h
  have hlast := (h [.runInitBump, .runInitInstall, .spawnActor, .compileAsync 0, .compile 0,
    .postStop, .runInitBump, .runInitInstall, .loadModule 0, .stamp 0, .reply 0]).last rfl
  have hctx := hlast ⟨⟨⟨1, "plain"⟩, "noop"⟩, 2, 0x9e3779b97f4a7c15, "noop", [],
    some (asBytes "plain"), none⟩ (List.mem_append_right _ (List.mem_singleton.2 rfl)) rfl
  exact absurd hctx (by decide)

end Workshop

end Nvrtc

end AtomrAccel
