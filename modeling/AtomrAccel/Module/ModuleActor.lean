import Mathlib.Data.List.AList
import AtomrAccel.Lib.Resource
import AtomrAccel.Lib.Transition
import AtomrAccel.Device.DeviceActor

/-!
# `ModuleActor`: loaded modules and the handles to them

The actor keeps the modules it has loaded under numbers, and the functions it has resolved under
numbers of their own inside each module.  A `ModuleHandle` is such a number and a `FunctionHandle`
a pair of them; clients keep them as long as they like, past an `Unload` and past a restart, after
which a fresh instance counts from one again.

* `Real`, `Driver`, `Env`: the tables of an instance, the modules known to the driver, and the
  answers of the outside;
* `loadImage`, `getFunction`, `launchInner`, `unload`, `Real.drop`: the code;
* `Label`, `step`, `system`: messages and restarts, with every handle ever returned;
* `NeverConfused`: the driver is given what a handle was returned for, while that is loaded, and
  no module is forgotten;
* `Stands`, `along_neverConfused_iff`: so it is in a run exactly when no message presents a handle
  whose numbers the tables hold for something else and no load is given a number in use;
* `meets_of_own`: which is the case when all handles are presented to the incarnation that returned
  them and no counter wraps.
-/

namespace AtomrAccel

namespace Modules

open Resource Transition

/-- A loaded module; the driver never hands out the same one twice. -/
abbrev CUmodule := ℕ

/-- A function of a module. -/
structure CUfunction where
  module : CUmodule
  entry : ℕ
  deriving DecidableEq, Repr

/-- A handle to a module. -/
structure ModuleHandle where
  id : UInt64
  deriving DecidableEq, Repr

/-- A handle to a function of a module. -/
structure FunctionHandle where
  module : UInt64
  functionId : UInt64
  deriving DecidableEq, Repr

/-- A float is its bits; the last two are the boxed arguments. -/
inductive KernelArg
  | devSliceF32 (g : GpuRef)
  | devSliceF64 (g : GpuRef)
  | devSliceI32 (g : GpuRef)
  | devSliceU32 (g : GpuRef)
  | devSliceU8 (g : GpuRef)
  | scalarF32 (v : UInt32)
  | scalarF64 (v : UInt64)
  | scalarI32 (v : Int32)
  | scalarU32 (v : UInt32)
  | scalarU64 (v : UInt64)
  | usize (v : ℕ)
  | devSlice
  | scalar
  deriving DecidableEq

/-- One entry of the kernel parameter array. -/
inductive KernelArgScratch
  | devPtr (ptr : ℕ)
  | f32 (v : UInt32)
  | f64 (v : UInt64)
  | i32 (v : Int32)
  | u32 (v : UInt32)
  | u64 (v : UInt64)
  | usize (v : ℕ)
  deriving DecidableEq

/-- The configuration of a launch. -/
structure LaunchConfig where
  gridDim : UInt32 × UInt32 × UInt32
  blockDim : UInt32 × UInt32 × UInt32
  sharedMemBytes : UInt32
  deriving DecidableEq

/-- The outcome of `ctx.bind_to_thread()` under `catch_unwind`. -/
inductive Bind
  | ok
  | error (text : String)
  | panicked
  deriving DecidableEq, Repr

/-- What the driver and the buffers answer; strings are their bytes. -/
structure Env where
  bindToThread : Bind
  moduleLoadData : List UInt8 → Except GpuError Unit
  moduleGetFunction : CUmodule → List UInt8 → Except GpuError ℕ
  launchKernel : CUfunction → LaunchConfig → List KernelArgScratch → Except GpuError Unit
  launchCooperativeKernel : CUfunction → LaunchConfig → List KernelArgScratch → Except GpuError Unit
  moduleUnload : CUmodule → Except GpuError Unit
  access : GpuRef → Except GpuError CudaSlice

/-! ### The instance and the driver -/

/-- Entries under ids. -/
abbrev Table (α : Type) := AList fun _ : UInt64 => α

namespace Table

variable {α : Type} {t : Table α} {id id' : UInt64} {m e : α}

theorem lookup_insert_iff : (AList.insert id m t).lookup id' = some e ↔
    id' = id ∧ m = e ∨ id' ≠ id ∧ t.lookup id' = some e := by
  by_cases hid : id' = id
  · subst hid
    rw [AList.lookup_insert, Option.some.injEq]
    simp
  · rw [AList.lookup_insert_ne hid]
    simp [hid]

theorem lookup_erase_iff : (AList.erase id t).lookup id' = some e ↔
    id' ≠ id ∧ t.lookup id' = some e := by
  by_cases hid : id' = id
  · subst hid
    rw [AList.lookup_erase]
    simp
  · rw [AList.lookup_erase_ne hid]
    simp [hid]

end Table

/-- A module with the functions looked up in it. -/
structure LoadedModule where
  cuModule : CUmodule
  functions : Table (List UInt8 × CUfunction)
  nextFunctionId : UInt64

/-- The fields of `ModuleInner::Real` that change. -/
structure Real where
  modules : Table LoadedModule
  nextModuleId : UInt64

/-- Nothing is loaded. -/
def Real.new : Real := ⟨∅, 1⟩

/-- The modules handed out so far are those below `loads`. -/
structure Driver where
  loads : ℕ
  events : List (Event CUmodule)

namespace Driver

/-- The driver loads a module. -/
def load (d : Driver) : Driver := ⟨d.loads + 1, .acquire d.loads :: d.events⟩

/-- The driver uses a module. -/
def use (d : Driver) (m : CUmodule) : Driver := { d with events := .use m :: d.events }

/-- The driver unloads a module. -/
def unload (d : Driver) (m : CUmodule) : Driver := { d with events := .release m :: d.events }

end Driver

/-- What the driver is given for a handle. -/
inductive Target
  | module (m : CUmodule)
  | function (f : CUfunction)
  deriving DecidableEq, Repr

/-- The end of a handler: the instance, the driver, the reply, and what the driver was given for the
handle of the message, if it came to that. -/
structure Handled (α : Type) where
  real : Real
  driver : Driver
  reply : Except GpuError α
  given : Option Target

/-- The bytes of `LoadPtx`, with a NUL at the end. -/
def ptxImage (src : List UInt8) : List UInt8 :=
  if src.getLast? = some 0 then src else src ++ [0]

/-- Load a module, under a new id. -/
def loadImage (env : Env) (bytes : List UInt8) (r : Real) (d : Driver) : Handled ModuleHandle :=
  match env.bindToThread with
  | .error e => ⟨r, d, .error (.libraryError "module" ("bind_to_thread: " ++ e)), none⟩
  | .panicked =>
    ⟨r, d, .error (.unrecoverable "ModuleActor::Load: CUDA driver not loadable"), none⟩
  | .ok =>
    match env.moduleLoadData bytes with
    | .error e => ⟨r, d, .error e, none⟩
    | .ok () =>
      let id := r.nextModuleId
      ⟨⟨r.modules.insert id ⟨d.loads, ∅, 1⟩, id + 1⟩, d.load, .ok ⟨id⟩, none⟩

/-- Look a function up, once for each name. -/
def getFunction (env : Env) (handle : ModuleHandle) (name : List UInt8) (r : Real) (d : Driver) :
    Handled FunctionHandle :=
  match r.modules.lookup handle.id with
  | none => ⟨r, d, .error (.unrecoverable
      ("ModuleActor::GetFunction: unknown module " ++ toString handle.id)), none⟩
  | some m =>
    match name.findIdx? (· = 0) with
    | some pos => ⟨r, d, .error (.unrecoverable ("ModuleActor::GetFunction: NUL in name: " ++
        "nul byte found in provided data at position: " ++ toString pos)), none⟩
    | none =>
      match env.moduleGetFunction m.cuModule name with
      | .error e => ⟨r, d.use m.cuModule, .error e, some (.module m.cuModule)⟩
      | .ok entry =>
        let functionId := m.nextFunctionId
        let m' : LoadedModule := { m with
          functions := m.functions.insert functionId (name, ⟨m.cuModule, entry⟩)
          nextFunctionId := functionId + 1 }
        ⟨{ r with modules := r.modules.insert handle.id m' }, d.use m.cuModule,
          .ok ⟨handle.id, functionId⟩, some (.module m.cuModule)⟩

/-- `devptr_of`. -/
def devptrOf (env : Env) (g : GpuRef) : Except GpuError KernelArgScratch :=
  (env.access g).map fun s => .devPtr s.addr

/-- `KernelArgScratch::from_arg`. -/
def fromArg (env : Env) : KernelArg → Except GpuError KernelArgScratch
  | .devSliceF32 g => devptrOf env g
  | .devSliceF64 g => devptrOf env g
  | .devSliceI32 g => devptrOf env g
  | .devSliceU32 g => devptrOf env g
  | .devSliceU8 g => devptrOf env g
  | .scalarF32 v => .ok (.f32 v)
  | .scalarF64 v => .ok (.f64 v)
  | .scalarI32 v => .ok (.i32 v)
  | .scalarU32 v => .ok (.u32 v)
  | .scalarU64 v => .ok (.u64 v)
  | .usize v => .ok (.usize v)
  | .devSlice | .scalar =>
    .error (.unrecoverable "ModuleActor: KernelArg::DevSlice/Scalar dispatch not yet wired")

/-- Launch what a handle leads to. -/
def launchInner (env : Env) (function : FunctionHandle) (cfg : LaunchConfig)
    (args : List KernelArg) (cooperative : Bool) (r : Real) (d : Driver) : Handled Unit :=
  match r.modules.lookup function.module with
  | none => ⟨r, d, .error (.unrecoverable
      ("ModuleActor::Launch: unknown module " ++ toString function.module)), none⟩
  | some m =>
    match m.functions.lookup function.functionId with
    | none => ⟨r, d, .error (.unrecoverable ("ModuleActor::Launch: unknown function " ++
        toString function.module ++ "/" ++ toString function.functionId)), none⟩
    | some (_, cuFunc) =>
      match args.mapM (fromArg env) with
      | .error e => ⟨r, d, .error e, none⟩
      | .ok scratch =>
        let res := if cooperative then env.launchCooperativeKernel cuFunc cfg scratch
          else env.launchKernel cuFunc cfg scratch
        ⟨r, d.use cuFunc.module, res, some (.function cuFunc)⟩

/-- Unload a module, with its functions. -/
def unload (env : Env) (handle : ModuleHandle) (r : Real) (d : Driver) : Handled Unit :=
  match r.modules.lookup handle.id with
  | none => ⟨r, d, .error (.unrecoverable
      ("ModuleActor::Unload: unknown module " ++ toString handle.id)), none⟩
  | some m => ⟨{ r with modules := r.modules.erase handle.id }, d.unload m.cuModule,
      env.moduleUnload m.cuModule, some (.module m.cuModule)⟩

/-- `Drop`: every module left in the table is unloaded. -/
def Real.drop (r : Real) (d : Driver) : Driver :=
  r.modules.entries.foldl (fun d e => d.unload e.2.cuModule) d

/-! ### Runs -/

/-- A `ModuleHandle` that was returned, by which incarnation and for which module. -/
structure IssuedModule where
  handle : ModuleHandle
  incarnation : ℕ
  cuModule : CUmodule
  deriving DecidableEq, Repr

/-- A `FunctionHandle` that was returned, by which incarnation and for which function. -/
structure IssuedFunction where
  handle : FunctionHandle
  incarnation : ℕ
  cuFunction : CUfunction
  deriving DecidableEq, Repr

/-- The driver was reached for a handle: what the handle was returned for and in which incarnation,
what the driver was given and in which incarnation. -/
structure Reached where
  target : Target
  issuedIn : ℕ
  given : Target
  incarnation : ℕ
  deriving DecidableEq, Repr

/-- The actor in its present incarnation, the driver, and every handle that was given out. -/
structure State where
  incarnation : ℕ
  real : Real
  driver : Driver
  moduleHandles : List IssuedModule
  functionHandles : List IssuedFunction
  reached : List Reached

/-- A handle is given by its place among those returned so far. -/
inductive Label
  | loadCubin (env : Env) (bytes : List UInt8)
  | loadPtx (env : Env) (src : List UInt8)
  | getFunction (env : Env) (i : ℕ) (name : List UInt8)
  | launch (env : Env) (j : ℕ) (cfg : LaunchConfig) (args : List KernelArg)
  | launchCooperative (env : Env) (j : ℕ) (cfg : LaunchConfig) (args : List KernelArg)
  | unload (env : Env) (i : ℕ)
  | restart

namespace State

/-- The state after a handler, with the call it made for the handle `(target, issuedIn)`. -/
def after {α : Type} (s : State) (target : Target) (issuedIn : ℕ) (h : Handled α) : State :=
  { s with
    real := h.real
    driver := h.driver
    reached := (h.given.map fun given => ⟨target, issuedIn, given, s.incarnation⟩).toList ++
      s.reached }

/-- A module is loaded, and its handle given out. -/
def load (s : State) (env : Env) (bytes : List UInt8) : State :=
  let h := loadImage env bytes s.real s.driver
  { s with
    real := h.real
    driver := h.driver
    moduleHandles := s.moduleHandles ++
      match h.reply with
      | .ok handle => [⟨handle, s.incarnation, s.driver.loads⟩]
      | .error _ => [] }

/-- The handle that a `GetFunction` returns, with the answer of the driver to what it was given. -/
def resolved (s : State) (env : Env) (name : List UInt8) (h : Handled FunctionHandle) :
    List IssuedFunction :=
  match h.reply, h.given with
  | .ok handle, some (.module m) =>
    match env.moduleGetFunction m name with
    | .ok entry => [⟨handle, s.incarnation, ⟨m, entry⟩⟩]
    | .error _ => []
  | _, _ => []

/-- The function that a handle stands for in the tables. -/
def lookupFunction (s : State) (handle : FunctionHandle) : Option CUfunction :=
  (s.real.modules.lookup handle.module).bind fun m =>
    (m.functions.lookup handle.functionId).map Prod.snd

/-- The module that a handle stands for in the tables. -/
def lookupModule (s : State) (handle : ModuleHandle) : Option CUmodule :=
  (s.real.modules.lookup handle.id).map LoadedModule.cuModule

end State

/-- One step of the actor and its driver. -/
def step (s : State) : Label → Option State
  | .loadCubin env bytes => some (s.load env bytes)
  | .loadPtx env src => some (s.load env (ptxImage src))
  | .getFunction env i name =>
    s.moduleHandles[i]?.map fun mh =>
      let h := getFunction env mh.handle name s.real s.driver
      { s.after (.module mh.cuModule) mh.incarnation h with
        functionHandles := s.functionHandles ++ s.resolved env name h }
  | .launch env j cfg args =>
    s.functionHandles[j]?.map fun fh => s.after (.function fh.cuFunction) fh.incarnation
      (launchInner env fh.handle cfg args false s.real s.driver)
  | .launchCooperative env j cfg args =>
    s.functionHandles[j]?.map fun fh => s.after (.function fh.cuFunction) fh.incarnation
      (launchInner env fh.handle cfg args true s.real s.driver)
  | .unload env i =>
    s.moduleHandles[i]?.map fun mh => s.after (.module mh.cuModule) mh.incarnation
      (unload env mh.handle s.real s.driver)
  | .restart => some { s with
      incarnation := s.incarnation + 1
      real := Real.new
      driver := s.real.drop s.driver }

/-- The actor with its driver. -/
def system : System State Label := ⟨⟨0, Real.new, ⟨0, []⟩, [], [], []⟩, step⟩

/-- The modules in the tables. -/
def Real.loaded (r : Real) : Set CUmodule :=
  {m | ∃ id e, r.modules.lookup id = some e ∧ e.cuModule = m}

/-- The calls respect what is loaded; whenever the driver is reached for a handle it is given what
the handle was returned for, in the incarnation that returned it; and every module ever loaded is
in the tables of its incarnation, or has been unloaded exactly once. -/
structure NeverConfused (s : State) : Prop where
  disciplined : Disciplined s.driver.events
  right : ∀ c ∈ s.reached, c.given = c.target ∧ c.issuedIn = c.incarnation
  unloaded : ∀ mh ∈ s.moduleHandles,
    (mh.incarnation = s.incarnation ∧ mh.cuModule ∈ s.real.loaded ∧
      .release mh.cuModule ∉ s.driver.events) ∨
    s.driver.events.count (.release mh.cuModule) = 1

/-- The driver loads the image. -/
def Env.Loads (env : Env) (bytes : List UInt8) : Prop :=
  env.bindToThread = .ok ∧ env.moduleLoadData bytes = .ok ()

/-- All arguments of a launch can be marshalled. -/
def Env.Marshals (env : Env) (args : List KernelArg) : Prop :=
  ∃ scratch, args.mapM (fromArg env) = .ok scratch

/-- A handle that is looked up stands, in the tables, for what it was returned for or for nothing,
and a module that is loaded gets a number that is free. -/
def Stands (s : State) : Label → Prop
  | .loadCubin env bytes => env.Loads bytes → s.real.nextModuleId ∉ s.real.modules
  | .loadPtx env src => env.Loads (ptxImage src) → s.real.nextModuleId ∉ s.real.modules
  | .getFunction _ i name => 0 ∉ name → ∀ mh, s.moduleHandles[i]? = some mh →
      ∀ m, s.lookupModule mh.handle = some m → m = mh.cuModule
  | .launch env j _ args => env.Marshals args → ∀ fh, s.functionHandles[j]? = some fh →
      ∀ f, s.lookupFunction fh.handle = some f → f = fh.cuFunction
  | .launchCooperative env j _ args => env.Marshals args → ∀ fh, s.functionHandles[j]? = some fh →
      ∀ f, s.lookupFunction fh.handle = some f → f = fh.cuFunction
  | .unload _ i => ∀ mh, s.moduleHandles[i]? = some mh →
      ∀ m, s.lookupModule mh.handle = some m → m = mh.cuModule
  | .restart => True

/-! ### The handlers -/

theorem loadImage_cases (env : Env) (bytes : List UInt8) (r : Real) (d : Driver) :
    (¬ env.Loads bytes ∧ ∃ e, loadImage env bytes r d = ⟨r, d, .error e, none⟩) ∨
    (env.Loads bytes ∧ loadImage env bytes r d =
      ⟨⟨r.modules.insert r.nextModuleId ⟨d.loads, ∅, 1⟩, r.nextModuleId + 1⟩, d.load,
        .ok ⟨r.nextModuleId⟩, none⟩) := by
  unfold loadImage
  cases hbind : env.bindToThread with
  | error e => exact .inl ⟨(fun h => by cases hbind.symm.trans h.1), _, rfl⟩
  | panicked => exact .inl ⟨(fun h => by cases hbind.symm.trans h.1), _, rfl⟩
  | ok =>
    cases hload : env.moduleLoadData bytes with
    | error e => exact .inl ⟨(fun h => by cases hload.symm.trans h.2), _, rfl⟩
    | ok u => exact .inr ⟨⟨hbind, hload⟩, rfl⟩

/-- The entry of a module with one more function. -/
def LoadedModule.resolve (m : LoadedModule) (name : List UInt8) (entry : ℕ) : LoadedModule :=
  { m with
    functions := m.functions.insert m.nextFunctionId (name, ⟨m.cuModule, entry⟩)
    nextFunctionId := m.nextFunctionId + 1 }

theorem getFunction_cases (env : Env) (handle : ModuleHandle) (name : List UInt8) (r : Real)
    (d : Driver) :
    ((∀ m, r.modules.lookup handle.id = some m → 0 ∈ name) ∧
      ∃ e, getFunction env handle name r d = ⟨r, d, .error e, none⟩) ∨
    ∃ m, r.modules.lookup handle.id = some m ∧ 0 ∉ name ∧
      ((∃ e, getFunction env handle name r d =
          ⟨r, d.use m.cuModule, .error e, some (.module m.cuModule)⟩) ∨
        ∃ entry, env.moduleGetFunction m.cuModule name = .ok entry ∧
          getFunction env handle name r d =
            ⟨{ r with modules := r.modules.insert handle.id (m.resolve name entry) },
              d.use m.cuModule, .ok ⟨handle.id, m.nextFunctionId⟩,
              some (.module m.cuModule)⟩) := by
  unfold getFunction
  cases hm : r.modules.lookup handle.id with
  | none => exact .inl ⟨nofun, _, rfl⟩
  | some m =>
    dsimp only
    cases hnul : name.findIdx? (· = 0) with
    | some pos =>
      obtain ⟨hpos, hzero, -⟩ := List.findIdx?_eq_some_iff_getElem.1 hnul
      have hmem : 0 ∈ name := of_decide_eq_true hzero ▸ List.getElem_mem hpos
      exact .inl ⟨fun _ _ => hmem, _, rfl⟩
    | none =>
      have hname : 0 ∉ name := by
        intro hmem
        have hall := List.findIdx?_eq_none_iff.1 hnul 0 hmem
        cases hall
      refine .inr ⟨m, rfl, hname, ?_⟩
      dsimp only
      cases hget : env.moduleGetFunction m.cuModule name with
      | error e => exact .inl ⟨_, rfl⟩
      | ok entry => exact .inr ⟨entry, rfl, rfl⟩

theorem launchInner_cases (env : Env) (function : FunctionHandle) (cfg : LaunchConfig)
    (args : List KernelArg) (cooperative : Bool) (r : Real) (d : Driver) :
    (∃ e, launchInner env function cfg args cooperative r d = ⟨r, d, .error e, none⟩) ∨
    ∃ m name f res, r.modules.lookup function.module = some m ∧
      m.functions.lookup function.functionId = some (name, f) ∧ env.Marshals args ∧
      launchInner env function cfg args cooperative r d =
        ⟨r, d.use f.module, res, some (.function f)⟩ := by
  unfold launchInner
  cases hm : r.modules.lookup function.module with
  | none => exact .inl ⟨_, rfl⟩
  | some m =>
    dsimp only
    cases hf : m.functions.lookup function.functionId with
    | none => exact .inl ⟨_, rfl⟩
    | some nf =>
      dsimp only
      cases hargs : args.mapM (fromArg env) with
      | error e => exact .inl ⟨_, rfl⟩
      | ok scratch => exact .inr ⟨m, nf.1, nf.2, _, rfl, hf, ⟨scratch, hargs⟩, rfl⟩

theorem unload_cases (env : Env) (handle : ModuleHandle) (r : Real) (d : Driver) :
    (∃ e, unload env handle r d = ⟨r, d, .error e, none⟩) ∨
    ∃ m, r.modules.lookup handle.id = some m ∧
      unload env handle r d = ⟨{ r with modules := r.modules.erase handle.id },
        d.unload m.cuModule, env.moduleUnload m.cuModule, some (.module m.cuModule)⟩ := by
  unfold unload
  cases hm : r.modules.lookup handle.id with
  | none => exact .inl ⟨_, rfl⟩
  | some m => exact .inr ⟨m, rfl, rfl⟩

/-! ### The tables and the driver -/

theorem Driver.drop_eq (es : List (Sigma fun _ : UInt64 => LoadedModule)) (d : Driver) :
    es.foldl (fun d e => d.unload e.2.cuModule) d =
      ⟨d.loads, (es.map fun e => e.2.cuModule).foldl (fun log m => .release m :: log)
        d.events⟩ := by
  induction es generalizing d with
  | nil => rfl
  | cons e es ih => exact ih (d.unload e.2.cuModule)

/-- A module is in the tables under one number, and its functions are its own. -/
structure Real.Kept (r : Real) : Prop where
  unique : ∀ id id' e e', r.modules.lookup id = some e → r.modules.lookup id' = some e' →
    e.cuModule = e'.cuModule → id = id'
  functions : ∀ id e, r.modules.lookup id = some e →
    ∀ k nf, e.functions.lookup k = some nf → nf.2.module = e.cuModule

theorem kept_new : Real.new.Kept where
  unique id id' e e' he := by cases he
  functions id e he := by cases he

theorem loaded_new : Real.new.loaded = ∅ := by
  refine Set.eq_empty_of_forall_notMem ?_
  rintro m ⟨id, e, he, -⟩
  cases he

namespace Real

variable {r : Real} {id next : UInt64} {m m' : LoadedModule}

theorem mem_loaded (he : r.modules.lookup id = some m) : m.cuModule ∈ r.loaded := ⟨id, m, he, rfl⟩

/-- A module under a free number. -/
theorem loaded_insert (hfree : id ∉ r.modules) (m : LoadedModule) :
    Real.loaded ⟨r.modules.insert id m, next⟩ = insert m.cuModule r.loaded := by
  ext c
  constructor
  · rintro ⟨id', e, he, rfl⟩
    rcases Table.lookup_insert_iff.1 he with ⟨-, rfl⟩ | ⟨-, he⟩
    · exact .inl rfl
    · exact .inr ⟨id', e, he, rfl⟩
  · rintro (rfl | ⟨id', e, he, rfl⟩)
    · exact ⟨id, m, AList.lookup_insert _, rfl⟩
    · have hid : id' ≠ id := by
        rintro rfl
        exact hfree (AList.lookup_isSome.1 (Option.isSome_of_eq_some he))
      exact ⟨id', e, Table.lookup_insert_iff.2 (.inr ⟨hid, he⟩), rfl⟩

/-- The same module under its number, with other functions. -/
theorem loaded_update (hm : r.modules.lookup id = some m) (hsame : m'.cuModule = m.cuModule) :
    Real.loaded ⟨r.modules.insert id m', next⟩ = r.loaded := by
  ext c
  constructor
  · rintro ⟨id', e, he, rfl⟩
    rcases Table.lookup_insert_iff.1 he with ⟨-, rfl⟩ | ⟨-, he⟩
    · exact ⟨id, m, hm, hsame.symm⟩
    · exact ⟨id', e, he, rfl⟩
  · rintro ⟨id', e, he, rfl⟩
    by_cases hid : id' = id
    · subst hid
      cases hm.symm.trans he
      exact ⟨id', m', AList.lookup_insert _, hsame⟩
    · exact ⟨id', e, Table.lookup_insert_iff.2 (.inr ⟨hid, he⟩), rfl⟩

theorem loaded_erase (hk : r.Kept) (hm : r.modules.lookup id = some m) :
    Real.loaded ⟨r.modules.erase id, next⟩ = r.loaded \ {m.cuModule} := by
  ext c
  constructor
  · rintro ⟨id', e, he, rfl⟩
    obtain ⟨hid, he⟩ := Table.lookup_erase_iff.1 he
    exact ⟨⟨id', e, he, rfl⟩, fun heq => hid (hk.unique id' id e m he hm heq)⟩
  · rintro ⟨⟨id', e, he, rfl⟩, hne⟩
    have hid : id' ≠ id := by
      rintro rfl
      cases hm.symm.trans he
      exact hne rfl
    exact ⟨id', e, Table.lookup_erase_iff.2 ⟨hid, he⟩, rfl⟩

/-- What is in the tables after an insertion. -/
theorem Kept.insert (hk : r.Kept) (hnew : ∀ id' e, id' ≠ id → r.modules.lookup id' = some e →
      e.cuModule ≠ m.cuModule)
    (hfun : ∀ k nf, m.functions.lookup k = some nf → nf.2.module = m.cuModule) :
    Real.Kept ⟨r.modules.insert id m, next⟩ where
  unique id₁ id₂ e₁ e₂ h₁ h₂ heq := by
    rcases Table.lookup_insert_iff.1 h₁ with ⟨hid₁, rfl⟩ | ⟨hid₁, h₁⟩ <;>
      rcases Table.lookup_insert_iff.1 h₂ with ⟨hid₂, rfl⟩ | ⟨hid₂, h₂⟩
    · exact hid₁.trans hid₂.symm
    · exact absurd heq.symm (hnew id₂ e₂ hid₂ h₂)
    · exact absurd heq (hnew id₁ e₁ hid₁ h₁)
    · exact hk.unique id₁ id₂ e₁ e₂ h₁ h₂ heq
  functions id' e he := by
    rcases Table.lookup_insert_iff.1 he with ⟨-, rfl⟩ | ⟨-, he⟩
    · exact hfun
    · exact hk.functions id' e he

theorem Kept.erase (hk : r.Kept) (id : UInt64) : Real.Kept ⟨r.modules.erase id, next⟩ where
  unique id₁ id₂ e₁ e₂ h₁ h₂ heq :=
    hk.unique id₁ id₂ e₁ e₂ (Table.lookup_erase_iff.1 h₁).2 (Table.lookup_erase_iff.1 h₂).2 heq
  functions id' e he := hk.functions id' e (Table.lookup_erase_iff.1 he).2

/-- The drop unloads everything. -/
theorem Kept.drop (hk : r.Kept) {d : Driver} (hacc : Accounts d.events r.loaded) :
    Accounts (r.drop d).events ∅ ∧ (r.drop d).loads = d.loads ∧
      ∀ m, .acquire m ∈ (r.drop d).events ↔ .acquire m ∈ d.events := by
  have hnd : (r.modules.entries.map fun e => e.2.cuModule).Nodup := by
    refine List.Nodup.map_on ?_ (List.NodupKeys.nodup r.modules.nodupKeys)
    intro e he e' he' heq
    have hlook := AList.mem_lookup_iff.2 he
    have hlook' := AList.mem_lookup_iff.2 he'
    obtain ⟨id, e⟩ := e
    obtain ⟨id', e'⟩ := e'
    obtain rfl := hk.unique id id' e e' hlook hlook' heq
    cases hlook.symm.trans hlook'
    rfl
  have hall : r.loaded = {m | m ∈ r.modules.entries.map fun e => e.2.cuModule} := by
    ext c
    constructor
    · rintro ⟨id, e, he, rfl⟩
      exact List.mem_map.2 ⟨⟨id, e⟩, AList.mem_lookup_iff.1 he, rfl⟩
    · intro hc
      obtain ⟨⟨id, e⟩, he, rfl⟩ := List.mem_map.1 hc
      exact ⟨id, e, AList.mem_lookup_iff.2 he, rfl⟩
  have hgone := hacc.releaseAll hnd fun m hm => hall ▸ hm
  rw [← hall, sdiff_self] at hgone
  unfold Real.drop
  rw [Driver.drop_eq]
  exact ⟨hgone, rfl, fun m => acquire_mem_releaseAll⟩

end Real

/-! ### One step -/

/-- The tables are in order, the loaded modules are the live ones, and handles lead to what they
were given out for. -/
structure Inv (s : State) : Prop where
  kept : s.real.Kept
  accounts : Accounts s.driver.events s.real.loaded
  counted : ∀ m, .acquire m ∈ s.driver.events → m < s.driver.loads
  recorded : ∀ m ∈ s.real.loaded, ∃ mh ∈ s.moduleHandles, mh.cuModule = m
  issued : ∀ mh ∈ s.moduleHandles, .acquire mh.cuModule ∈ s.driver.events ∧
    (mh.cuModule ∈ s.real.loaded → mh.incarnation = s.incarnation)
  resolved : ∀ fh ∈ s.functionHandles, .acquire fh.cuFunction.module ∈ s.driver.events ∧
    (fh.cuFunction.module ∈ s.real.loaded → fh.incarnation = s.incarnation)
  right : ∀ c ∈ s.reached, c.given = c.target ∧ c.issuedIn = c.incarnation

namespace Inv

variable {s s' : State}

theorem neverConfused (h : Inv s) : NeverConfused s where
  disciplined := h.accounts.disciplined
  right := h.right
  unloaded mh hmh := by
    obtain ⟨hacq, hcur⟩ := h.issued mh hmh
    by_cases hin : mh.cuModule ∈ s.real.loaded
    · exact .inl ⟨hcur hin, hin, (h.accounts.live _ hin).2⟩
    · exact .inr (h.accounts.released _ hacq hin)

theorem init : Inv system.init where
  kept := kept_new
  accounts := by
    change Accounts [] Real.new.loaded
    rw [loaded_new]
    exact accounts_nil
  counted := fun _ hm => absurd hm List.not_mem_nil
  recorded m hm := by
    change m ∈ Real.new.loaded at hm
    rw [loaded_new] at hm
    cases hm
  issued := fun _ hmh => absurd hmh List.not_mem_nil
  resolved := fun _ hfh => absurd hfh List.not_mem_nil
  right := fun _ hc => absurd hc List.not_mem_nil

/-- Loading under a free number. -/
theorem load (h : Inv s) (env : Env) (bytes : List UInt8)
    (hfree : env.Loads bytes → s.real.nextModuleId ∉ s.real.modules) : Inv (s.load env bytes) := by
  obtain ⟨-, e, hrun⟩ | ⟨hloads, hrun⟩ := loadImage_cases env bytes s.real s.driver
  · unfold State.load
    simp only [hrun, List.append_nil]
    exact h
  · have hnew : .acquire s.driver.loads ∉ s.driver.events :=
      fun hmem => lt_irrefl _ (h.counted _ hmem)
    have hset : Real.loaded ⟨s.real.modules.insert s.real.nextModuleId ⟨s.driver.loads, ∅, 1⟩,
        s.real.nextModuleId + 1⟩ = insert s.driver.loads s.real.loaded :=
      Real.loaded_insert (hfree hloads) _
    have hother : ∀ c, .acquire c ∈ s.driver.events → c ≠ s.driver.loads := by
      rintro c hc rfl
      exact hnew hc
    unfold State.load
    simp only [hrun]
    refine
      { kept := h.kept.insert (fun id' e _ he => ?_) nofun
        accounts := hset ▸ h.accounts.acquire hnew
        counted := fun m hm => ?_
        recorded := fun m hm => ?_
        issued := fun mh hmh => ?_
        resolved := fun fh hfh => ?_
        right := h.right }
    · exact hother _ (h.accounts.live _ (Real.mem_loaded he)).1
    · obtain heq | hold := List.mem_cons.1 hm
      · cases heq
        exact Nat.lt_succ_self _
      · exact (h.counted m hold).trans (Nat.lt_succ_self _)
    · rw [hset] at hm
      obtain rfl | hold := hm
      · exact ⟨_, List.mem_append_right _ List.mem_cons_self, rfl⟩
      · obtain ⟨mh, hmh, hmod⟩ := h.recorded m hold
        exact ⟨mh, List.mem_append_left _ hmh, hmod⟩
    · obtain hold | hlast := List.mem_append.1 hmh
      · obtain ⟨hacq, hcur⟩ := h.issued mh hold
        refine ⟨List.mem_cons_of_mem _ hacq, fun hin => ?_⟩
        rw [hset] at hin
        exact hcur (hin.resolve_left (hother _ hacq))
      · obtain rfl := List.mem_singleton.1 hlast
        exact ⟨List.mem_cons_self, fun _ => rfl⟩
    · obtain ⟨hacq, hcur⟩ := h.resolved fh hfh
      refine ⟨List.mem_cons_of_mem _ hacq, fun hin => ?_⟩
      rw [hset] at hin
      exact hcur (hin.resolve_left (hother _ hacq))

/-- The driver uses a loaded module, and the tables keep their modules. -/
theorem touch (h : Inv s) {r : Real} (hk : r.Kept) (hset : r.loaded = s.real.loaded)
    {m : CUmodule} (hm : m ∈ s.real.loaded) (fhs : List IssuedFunction)
    (hfhs : ∀ fh ∈ fhs, fh.cuFunction.module = m ∧ fh.incarnation = s.incarnation)
    {c : Reached} (hc : c.given = c.target ∧ c.issuedIn = c.incarnation) :
    Inv ⟨s.incarnation, r, s.driver.use m, s.moduleHandles, s.functionHandles ++ fhs,
      c :: s.reached⟩ where
  kept := hk
  accounts := hset ▸ h.accounts.use hm
  counted m' hm' := h.counted m' (List.mem_of_ne_of_mem (by nofun) hm')
  recorded := hset ▸ h.recorded
  issued mh hmh := by
    obtain ⟨hacq, hcur⟩ := h.issued mh hmh
    exact ⟨List.mem_cons_of_mem _ hacq, hset ▸ hcur⟩
  resolved fh hfh := by
    obtain hold | hnew := List.mem_append.1 hfh
    · obtain ⟨hacq, hcur⟩ := h.resolved fh hold
      exact ⟨List.mem_cons_of_mem _ hacq, hset ▸ hcur⟩
    · obtain ⟨hmod, hcur⟩ := hfhs fh hnew
      rw [hmod]
      exact ⟨List.mem_cons_of_mem _ (h.accounts.live m hm).1, fun _ => hcur⟩
  right := List.forall_mem_cons.2 ⟨hc, h.right⟩

/-- The driver unloads a module, and the tables lose it. -/
theorem remove (h : Inv s) {id : UInt64} {m : LoadedModule}
    (hm : s.real.modules.lookup id = some m) {c : Reached}
    (hc : c.given = c.target ∧ c.issuedIn = c.incarnation) :
    Inv ⟨s.incarnation, ⟨s.real.modules.erase id, s.real.nextModuleId⟩,
      s.driver.unload m.cuModule, s.moduleHandles, s.functionHandles, c :: s.reached⟩ := by
  have hset : Real.loaded ⟨s.real.modules.erase id, s.real.nextModuleId⟩ =
      s.real.loaded \ {m.cuModule} := Real.loaded_erase h.kept hm
  refine
    { kept := h.kept.erase id
      accounts := hset ▸ h.accounts.release (Real.mem_loaded hm)
      counted := fun m' hm' => h.counted m' (List.mem_of_ne_of_mem (by nofun) hm')
      recorded := fun m' hm' => ?_
      issued := fun mh hmh => ?_
      resolved := fun fh hfh => ?_
      right := List.forall_mem_cons.2 ⟨hc, h.right⟩ }
  · rw [hset] at hm'
    exact h.recorded m' hm'.1
  · obtain ⟨hacq, hcur⟩ := h.issued mh hmh
    refine ⟨List.mem_cons_of_mem _ hacq, fun hin => ?_⟩
    rw [hset] at hin
    exact hcur hin.1
  · obtain ⟨hacq, hcur⟩ := h.resolved fh hfh
    refine ⟨List.mem_cons_of_mem _ hacq, fun hin => ?_⟩
    rw [hset] at hin
    exact hcur hin.1

/-- A fresh instance. -/
theorem restart (h : Inv s) :
    Inv ⟨s.incarnation + 1, Real.new, s.real.drop s.driver, s.moduleHandles, s.functionHandles,
      s.reached⟩ := by
  obtain ⟨hacc, hloads, hmem⟩ := h.kept.drop h.accounts
  have hempty : ∀ m, m ∉ Real.new.loaded := fun m hm => by
    rw [loaded_new] at hm
    cases hm
  exact
    { kept := kept_new
      accounts := loaded_new.symm ▸ hacc
      counted := fun m hm => hloads.symm ▸ h.counted m ((hmem m).1 hm)
      recorded := fun m hm => absurd hm (hempty m)
      issued := fun mh hmh => ⟨(hmem _).2 (h.issued mh hmh).1, fun hin => absurd hin (hempty _)⟩
      resolved := fun fh hfh =>
        ⟨(hmem _).2 (h.resolved fh hfh).1, fun hin => absurd hin (hempty _)⟩
      right := h.right }

/-- The driver was reached for a handle that stands for what it was returned for. -/
theorem right_module (h : Inv s) {i : ℕ} {mh : IssuedModule} (hi : s.moduleHandles[i]? = some mh)
    (hin : mh.cuModule ∈ s.real.loaded) : mh.incarnation = s.incarnation :=
  (h.issued mh (List.mem_of_getElem? hi)).2 hin

theorem launch (h : Inv s) {env : Env} {j : ℕ} {fh : IssuedFunction} {args : List KernelArg}
    (hj : s.functionHandles[j]? = some fh)
    (hC : env.Marshals args → ∀ f, s.lookupFunction fh.handle = some f → f = fh.cuFunction)
    (cfg : LaunchConfig) (cooperative : Bool) :
    Inv (s.after (.function fh.cuFunction) fh.incarnation
      (launchInner env fh.handle cfg args cooperative s.real s.driver)) := by
  obtain ⟨e, hrun⟩ | ⟨m, name, f, res, hm, hf, hargs, hrun⟩ :=
    launchInner_cases env fh.handle cfg args cooperative s.real s.driver
  · rw [hrun]
    exact h
  · rw [hrun]
    have hlook : s.lookupFunction fh.handle = some f := by
      simp [State.lookupFunction, hm, hf]
    have hsame := hC hargs f hlook
    have hmod : f.module = m.cuModule := h.kept.functions _ _ hm _ _ hf
    have hin : f.module ∈ s.real.loaded := hmod ▸ Real.mem_loaded hm
    have hcur : fh.incarnation = s.incarnation := by
      refine (h.resolved fh (List.mem_of_getElem? hj)).2 ?_
      rwa [← hsame]
    have hnext := h.touch h.kept rfl hin [] nofun
      (c := ⟨.function fh.cuFunction, fh.incarnation, .function f, s.incarnation⟩)
      ⟨congrArg Target.function hsame, hcur⟩
    rwa [List.append_nil] at hnext

theorem unload (h : Inv s) {env : Env} {i : ℕ} {mh : IssuedModule}
    (hi : s.moduleHandles[i]? = some mh)
    (hC : ∀ c, s.lookupModule mh.handle = some c → c = mh.cuModule) :
    Inv (s.after (.module mh.cuModule) mh.incarnation
      (Modules.unload env mh.handle s.real s.driver)) := by
  obtain ⟨e, hrun⟩ | ⟨m, hm, hrun⟩ := unload_cases env mh.handle s.real s.driver
  · rw [hrun]
    exact h
  · rw [hrun]
    have hsame := hC m.cuModule (by simp [State.lookupModule, hm])
    have hcur := h.right_module hi (hsame ▸ Real.mem_loaded hm)
    exact h.remove hm ⟨congrArg Target.module hsame, hcur⟩

/-- A function that is resolved goes into the table of its own module. -/
theorem kept_resolve (h : Inv s) {id : UInt64} {m : LoadedModule}
    (hm : s.real.modules.lookup id = some m) (name : List UInt8) (entry : ℕ) :
    Real.Kept ⟨s.real.modules.insert id (m.resolve name entry), s.real.nextModuleId⟩ := by
  refine h.kept.insert (fun id' e hne he heq => ?_) (fun k nf hk => ?_)
  · exact hne (h.kept.unique id' _ e m he hm heq)
  · rcases Table.lookup_insert_iff.1 hk with ⟨-, rfl⟩ | ⟨-, hk⟩
    · rfl
    · exact h.kept.functions _ _ hm _ _ hk

theorem getFunction (h : Inv s) {env : Env} {i : ℕ} {mh : IssuedModule} {name : List UInt8}
    (hi : s.moduleHandles[i]? = some mh)
    (hC : 0 ∉ name → ∀ c, s.lookupModule mh.handle = some c → c = mh.cuModule) :
    let r := Modules.getFunction env mh.handle name s.real s.driver
    Inv { s.after (.module mh.cuModule) mh.incarnation r with
      functionHandles := s.functionHandles ++ s.resolved env name r } := by
  intro r
  obtain ⟨-, e, hrun⟩ | ⟨m, hm, hname, hout⟩ :=
    getFunction_cases env mh.handle name s.real s.driver
  · simp only [r, hrun, State.resolved, List.append_nil]
    exact h
  · have hsame := hC hname m.cuModule (by simp [State.lookupModule, hm])
    have hin : m.cuModule ∈ s.real.loaded := Real.mem_loaded hm
    have hcur := h.right_module hi (hsame ▸ hin)
    obtain ⟨e, hrun⟩ | ⟨entry, hentry, hrun⟩ := hout
    · -- the driver was asked in vain, which is a use of the module all the same
      simp only [r, hrun]
      exact h.touch h.kept rfl hin [] nofun
        (c := ⟨.module mh.cuModule, mh.incarnation, .module m.cuModule, s.incarnation⟩)
        ⟨congrArg Target.module hsame, hcur⟩
    · simp only [r, hrun, State.resolved, hentry]
      have hset : Real.loaded ⟨s.real.modules.insert mh.handle.id (m.resolve name entry),
          s.real.nextModuleId⟩ = s.real.loaded := Real.loaded_update hm rfl
      refine h.touch (h.kept_resolve hm name entry) hset hin _ ?_
        (c := ⟨.module mh.cuModule, mh.incarnation, .module m.cuModule, s.incarnation⟩)
        ⟨congrArg Target.module hsame, hcur⟩
      intro fh hfh
      obtain rfl := List.mem_singleton.1 hfh
      exact ⟨rfl, rfl⟩

theorem next (h : Inv s) {l : Label} (hC : Stands s l) (hstep : step s l = some s') :
    Inv s' := by
  cases l with
  | loadCubin env bytes =>
    obtain rfl := Option.some.inj hstep
    exact h.load env bytes hC
  | loadPtx env src =>
    obtain rfl := Option.some.inj hstep
    exact h.load env _ hC
  | restart =>
    obtain rfl := Option.some.inj hstep
    exact h.restart
  | launch env j cfg args =>
    obtain ⟨fh, hj, rfl⟩ := Option.map_eq_some_iff.1 hstep
    exact h.launch hj (fun hargs => hC hargs fh hj) cfg false
  | launchCooperative env j cfg args =>
    obtain ⟨fh, hj, rfl⟩ := Option.map_eq_some_iff.1 hstep
    exact h.launch hj (fun hargs => hC hargs fh hj) cfg true
  | unload env i =>
    obtain ⟨mh, hi, rfl⟩ := Option.map_eq_some_iff.1 hstep
    exact h.unload hi (hC mh hi)
  | getFunction env i name =>
    obtain ⟨mh, hi, rfl⟩ := Option.map_eq_some_iff.1 hstep
    exact h.getFunction hi fun hname => hC hname mh hi

/-- A load that overwrites a module leaves it loaded for ever. -/
theorem stands_load (h : Inv s) {env : Env} {bytes : List UInt8}
    (hs' : NeverConfused (s.load env bytes)) (hloads : env.Loads bytes) :
    s.real.nextModuleId ∉ s.real.modules := by
  intro hmem
  obtain ⟨hno, -⟩ | ⟨-, hrun⟩ := loadImage_cases env bytes s.real s.driver
  · exact absurd hloads hno
  obtain ⟨e, he⟩ := Option.isSome_iff_exists.1 (AList.lookup_isSome.2 hmem)
  have hin : e.cuModule ∈ s.real.loaded := Real.mem_loaded he
  have hlive := h.accounts.live _ hin
  obtain ⟨mh, hmh, hmod⟩ := h.recorded _ hin
  unfold State.load at hs'
  simp only [hrun] at hs'
  -- the old module is neither in the tables nor unloaded
  obtain ⟨-, ⟨id, e', he', hsame⟩, -⟩ | hone := hs'.unloaded mh (List.mem_append_left _ hmh)
  · rcases Table.lookup_insert_iff.1 he' with ⟨-, rfl⟩ | ⟨hid, he'⟩
    · rw [hmod] at hsame
      exact lt_irrefl _ (hsame.symm ▸ h.counted _ hlive.1)
    · exact hid (h.kept.unique id _ e' e he' he (hsame.trans hmod))
  · have hzero : (s.driver.load).events.count (.release mh.cuModule) = 0 := by
      refine List.count_eq_zero_of_not_mem ?_
      rw [hmod]
      exact List.not_mem_cons_of_ne_of_not_mem nofun hlive.2
    exact absurd (hzero.symm.trans hone) Nat.zero_ne_one

/-- A launch that gets to the driver gets there with what the tables hold. -/
theorem stands_launch {env : Env} {cfg : LaunchConfig} {args : List KernelArg} {cooperative : Bool}
    {fh : IssuedFunction}
    (hs' : NeverConfused (s.after (.function fh.cuFunction) fh.incarnation
      (launchInner env fh.handle cfg args cooperative s.real s.driver)))
    (hargs : env.Marshals args) {f : CUfunction} (hlook : s.lookupFunction fh.handle = some f) :
    f = fh.cuFunction := by
  obtain ⟨e, hrun⟩ | ⟨m, name, f', res, hm, hf, -, hrun⟩ :=
    launchInner_cases env fh.handle cfg args cooperative s.real s.driver
  · obtain ⟨m, hm, nf, hf, rfl⟩ : ∃ m, s.real.modules.lookup fh.handle.module = some m ∧
        ∃ nf, m.functions.lookup fh.handle.functionId = some nf ∧ nf.2 = f := by
      simpa [State.lookupFunction, Option.bind_eq_some_iff] using hlook
    obtain ⟨scratch, hargs⟩ := hargs
    simp [launchInner, hm, hf, hargs] at hrun
  · have hsame : f' = f := by
      simpa [State.lookupFunction, hm, hf] using hlook
    rw [hrun] at hs'
    rw [← hsame]
    exact Target.function.inj (hs'.right _ List.mem_cons_self).1

/-- A step that reaches the driver for the wrong thing, or overwrites a loaded module, shows. -/
theorem stands (h : Inv s) {l : Label} (hstep : step s l = some s') (hs' : NeverConfused s') :
    Stands s l := by
  cases l with
  | loadCubin env bytes =>
    obtain rfl := Option.some.inj hstep
    exact h.stands_load hs'
  | loadPtx env src =>
    obtain rfl := Option.some.inj hstep
    exact h.stands_load hs'
  | restart => trivial
  | launch env j cfg args =>
    intro hargs fh hj
    obtain ⟨fh', hj', rfl⟩ := Option.map_eq_some_iff.1 hstep
    cases hj.symm.trans hj'
    exact fun f => stands_launch hs' hargs
  | launchCooperative env j cfg args =>
    intro hargs fh hj
    obtain ⟨fh', hj', rfl⟩ := Option.map_eq_some_iff.1 hstep
    cases hj.symm.trans hj'
    exact fun f => stands_launch hs' hargs
  | unload env i =>
    intro mh hi c hc
    obtain ⟨mh', hi', rfl⟩ := Option.map_eq_some_iff.1 hstep
    cases hi.symm.trans hi'
    obtain ⟨m, hm, rfl⟩ := Option.map_eq_some_iff.1 hc
    obtain ⟨e, hrun⟩ | ⟨m', hm', hrun⟩ := unload_cases env mh.handle s.real s.driver
    · simp [Modules.unload, hm] at hrun
    · cases hm.symm.trans hm'
      rw [hrun] at hs'
      exact Target.module.inj (hs'.right _ List.mem_cons_self).1
  | getFunction env i name =>
    intro hname mh hi c hc
    obtain ⟨mh', hi', rfl⟩ := Option.map_eq_some_iff.1 hstep
    cases hi.symm.trans hi'
    obtain ⟨m, hm, rfl⟩ := Option.map_eq_some_iff.1 hc
    obtain ⟨hnul, -⟩ | ⟨m', hm', -, ⟨e, hrun⟩ | ⟨entry, -, hrun⟩⟩ :=
      getFunction_cases env mh.handle name s.real s.driver
    · exact absurd (hnul m hm) hname
    · cases hm.symm.trans hm'
      rw [hrun] at hs'
      exact Target.module.inj (hs'.right _ List.mem_cons_self).1
    · cases hm.symm.trans hm'
      rw [hrun] at hs'
      exact Target.module.inj (hs'.right _ List.mem_cons_self).1

end Inv

/-- The driver is given what handles were returned for and nothing is forgotten, in every state of
a run, exactly when every handle that is looked up in the run stands for what it was returned for,
or for nothing, and every module gets a free number. -/
theorem along_neverConfused_iff (ls : List Label) :
    system.Along NeverConfused system.init ls ↔ system.Meets Stands system.init ls := by
  constructor
  · refine System.meets_of_along (I := Inv) ?_ ?_ Inv.init
    · exact fun s l s' hs hstep hs' => hs.stands hstep hs'
    · exact fun s l s' hs hC hstep => hs.next hC hstep
  · refine System.along_of_meets (I := Inv) ?_ ?_ Inv.init
    · exact fun s hs => hs.neverConfused
    · exact fun s l s' hs hC hstep => hs.next hC hstep

/-- Everything goes well. -/
def obliging : Env where
  bindToThread := .ok
  moduleLoadData := fun _ => .ok ()
  moduleGetFunction := fun _ _ => .ok 7
  launchKernel := fun _ _ _ => .ok ()
  launchCooperativeKernel := fun _ _ _ => .ok ()
  moduleUnload := fun _ => .ok ()
  access := fun _ => .error (.gpuRefStale "device state dropped")

/-- A function handle of the first incarnation launches a function of the module that the second
incarnation has loaded under the same number. -/
theorem stale_handle_launches_other_module :
    ¬ (∀ ls, system.Along NeverConfused system.init ls) ∧
    ∃ s, system.run system.init
        [.loadCubin obliging [1], .getFunction obliging 0 [97], .restart,
          .loadCubin obliging [2], .getFunction obliging 1 [98],
          .launch obliging 0 ⟨(1, 1, 1), (64, 1, 1), 0⟩ []] = some s ∧
      s.reached.head? = some ⟨.function ⟨0, 7⟩, 0, .function ⟨1, 7⟩, 1⟩ := by
  refine ⟨fun hall => ?_, _, rfl, rfl⟩
  have hlast := (hall [.loadCubin obliging [1], .getFunction obliging 0 [97], .restart,
    .loadCubin obliging [2], .getFunction obliging 1 [98],
    .launch obliging 0 ⟨(1, 1, 1), (64, 1, 1), 0⟩ []]).last rfl
  have hsame := (hlast.right _ List.mem_cons_self).1
  cases hsame

/-! ### Handles of the running incarnation -/

/-- The handle of the message, if it has one, was returned by the running incarnation, and the
next number, in whatever table, is not the last of its 64 bits. -/
structure Own (s : State) (l : Label) : Prop where
  modules : s.real.nextModuleId.toNat + 1 < 2 ^ 64
  functions : ∀ id m, s.real.modules.lookup id = some m → m.nextFunctionId.toNat + 1 < 2 ^ 64
  own : match l with
    | .getFunction _ i _ | .unload _ i =>
      ∀ mh, s.moduleHandles[i]? = some mh → mh.incarnation = s.incarnation
    | .launch _ j _ _ | .launchCooperative _ j _ _ =>
      ∀ fh, s.functionHandles[j]? = some fh → fh.incarnation = s.incarnation
    | _ => True

/-- The numbers in use are below the counters, and those of the running incarnation's handles
stand for what these were returned for. -/
structure Numbered (s : State) : Prop where
  tables : ∀ id m, s.real.modules.lookup id = some m → id.toNat < s.real.nextModuleId.toNat
  modules : ∀ mh ∈ s.moduleHandles, mh.incarnation ≤ s.incarnation ∧
    (mh.incarnation = s.incarnation → mh.handle.id.toNat < s.real.nextModuleId.toNat ∧
      ∀ m, s.real.modules.lookup mh.handle.id = some m → m.cuModule = mh.cuModule)
  functions : ∀ fh ∈ s.functionHandles, fh.incarnation ≤ s.incarnation ∧
    (fh.incarnation = s.incarnation → fh.handle.module.toNat < s.real.nextModuleId.toNat ∧
      ∀ m, s.real.modules.lookup fh.handle.module = some m →
        fh.handle.functionId.toNat < m.nextFunctionId.toNat ∧
        ∀ nf, m.functions.lookup fh.handle.functionId = some nf → nf.2 = fh.cuFunction)

namespace Numbered

variable {s s' : State}

theorem stands (h : Numbered s) {l : Label} (hl : Own s l) : Stands s l := by
  have hfree : s.real.nextModuleId ∉ s.real.modules := by
    intro hmem
    obtain ⟨m, hm⟩ := Option.isSome_iff_exists.1 (AList.lookup_isSome.2 hmem)
    exact lt_irrefl _ (h.tables _ m hm)
  have hmodule : ∀ mh ∈ s.moduleHandles, mh.incarnation = s.incarnation →
      ∀ c, s.lookupModule mh.handle = some c → c = mh.cuModule := by
    intro mh hmh hcur c hc
    obtain ⟨m, hm, rfl⟩ := Option.map_eq_some_iff.1 hc
    exact ((h.modules mh hmh).2 hcur).2 m hm
  have hfunction : ∀ fh ∈ s.functionHandles, fh.incarnation = s.incarnation →
      ∀ f, s.lookupFunction fh.handle = some f → f = fh.cuFunction := by
    intro fh hfh hcur f hf
    obtain ⟨m, hm, hf⟩ := Option.bind_eq_some_iff.1 hf
    obtain ⟨nf, hnf, rfl⟩ := Option.map_eq_some_iff.1 hf
    exact (((h.functions fh hfh).2 hcur).2 m hm).2 nf hnf
  have hown := hl.own
  cases l with
  | loadCubin env bytes => exact fun _ => hfree
  | loadPtx env src => exact fun _ => hfree
  | getFunction env i name =>
    exact fun _ mh hi => hmodule mh (List.mem_of_getElem? hi) (hown mh hi)
  | launch env j cfg args =>
    exact fun _ fh hj => hfunction fh (List.mem_of_getElem? hj) (hown fh hj)
  | launchCooperative env j cfg args =>
    exact fun _ fh hj => hfunction fh (List.mem_of_getElem? hj) (hown fh hj)
  | unload env i => exact fun mh hi => hmodule mh (List.mem_of_getElem? hi) (hown mh hi)
  | restart => trivial

theorem load (h : Numbered s) (hwrap : s.real.nextModuleId.toNat + 1 < 2 ^ 64) (env : Env)
    (bytes : List UInt8) : Numbered (s.load env bytes) := by
  obtain ⟨-, e, hrun⟩ | ⟨-, hrun⟩ := loadImage_cases env bytes s.real s.driver
  · unfold State.load
    simp only [hrun, List.append_nil]
    exact h
  · have hnext : (s.real.nextModuleId + 1).toNat = s.real.nextModuleId.toNat + 1 := by
      rw [UInt64.toNat_add]
      exact Nat.mod_eq_of_lt hwrap
    have hne : ∀ id : UInt64, id.toNat < s.real.nextModuleId.toNat → id ≠ s.real.nextModuleId := by
      rintro id hlt rfl
      exact lt_irrefl _ hlt
    unfold State.load
    simp only [hrun]
    refine ⟨fun id m hm => ?_, fun mh hmh => ?_, fun fh hfh => ?_⟩
    · simp only [hnext]
      rcases Table.lookup_insert_iff.1 hm with ⟨rfl, -⟩ | ⟨-, hm⟩
      · exact Nat.lt_succ_self _
      · exact (h.tables id m hm).trans (Nat.lt_succ_self _)
    · obtain hold | hlast := List.mem_append.1 hmh
      · obtain ⟨hle, hcur⟩ := h.modules mh hold
        refine ⟨hle, fun heq => ?_⟩
        obtain ⟨hlt, hmod⟩ := hcur heq
        simp only [hnext, AList.lookup_insert_ne (hne _ hlt)]
        exact ⟨hlt.trans (Nat.lt_succ_self _), hmod⟩
      · obtain rfl := List.mem_singleton.1 hlast
        refine ⟨le_rfl, fun _ => ?_⟩
        simp only [hnext, AList.lookup_insert, Option.some.injEq]
        refine ⟨Nat.lt_succ_self _, ?_⟩
        rintro m rfl
        rfl
    · obtain ⟨hle, hcur⟩ := h.functions fh hfh
      refine ⟨hle, fun heq => ?_⟩
      obtain ⟨hlt, hfun⟩ := hcur heq
      simp only [hnext, AList.lookup_insert_ne (hne _ hlt)]
      exact ⟨hlt.trans (Nat.lt_succ_self _), hfun⟩

/-- Launches change no table. -/
theorem launch (h : Numbered s) {target : Target} {n : ℕ} {env : Env} {fh : FunctionHandle}
    {cfg : LaunchConfig} {args : List KernelArg} {cooperative : Bool} :
    Numbered (s.after target n (launchInner env fh cfg args cooperative s.real s.driver)) := by
  obtain ⟨e, hrun⟩ | ⟨m, name, f, res, -, -, -, hrun⟩ :=
    launchInner_cases env fh cfg args cooperative s.real s.driver
  · rw [hrun]
    exact ⟨h.tables, h.modules, h.functions⟩
  · rw [hrun]
    exact ⟨h.tables, h.modules, h.functions⟩

theorem unload (h : Numbered s) {target : Target} {n : ℕ} {env : Env} {mh : ModuleHandle} :
    Numbered (s.after target n (Modules.unload env mh s.real s.driver)) := by
  obtain ⟨e, hrun⟩ | ⟨m, hm, hrun⟩ := unload_cases env mh s.real s.driver
  · rw [hrun]
    exact ⟨h.tables, h.modules, h.functions⟩
  · rw [hrun]
    have hold : ∀ id e, (s.real.modules.erase mh.id).lookup id = some e →
        s.real.modules.lookup id = some e := fun _ _ he => (Table.lookup_erase_iff.1 he).2
    refine ⟨fun id e he => h.tables id e (hold id e he), fun mh' hmh => ?_, fun fh hfh => ?_⟩
    · obtain ⟨hle, hcur⟩ := h.modules mh' hmh
      exact ⟨hle, fun heq => ⟨(hcur heq).1, fun e he => (hcur heq).2 e (hold _ e he)⟩⟩
    · obtain ⟨hle, hcur⟩ := h.functions fh hfh
      exact ⟨hle, fun heq => ⟨(hcur heq).1, fun e he => (hcur heq).2 e (hold _ e he)⟩⟩

/-- A resolved function gets the next number of its module. -/
theorem resolve (h : Numbered s) {id : UInt64} {m : LoadedModule}
    (hm : s.real.modules.lookup id = some m) (hwrap : m.nextFunctionId.toNat + 1 < 2 ^ 64)
    (name : List UInt8) (entry : ℕ) {d : Driver} {cs : List Reached} :
    Numbered ⟨s.incarnation, ⟨s.real.modules.insert id (m.resolve name entry),
      s.real.nextModuleId⟩, d, s.moduleHandles, s.functionHandles ++
        [⟨⟨id, m.nextFunctionId⟩, s.incarnation, ⟨m.cuModule, entry⟩⟩], cs⟩ := by
  have hnext : (m.resolve name entry).nextFunctionId.toNat = m.nextFunctionId.toNat + 1 := by
    change (m.nextFunctionId + 1).toNat = _
    rw [UInt64.toNat_add]
    exact Nat.mod_eq_of_lt hwrap
  refine
    { tables := fun id' e he => ?_
      modules := fun mh hmh => ?_
      functions := fun fh hfh => ?_ }
  · rcases Table.lookup_insert_iff.1 he with ⟨rfl, -⟩ | ⟨-, he⟩
    · exact h.tables id' m hm
    · exact h.tables id' e he
  · obtain ⟨hle, hcur⟩ := h.modules mh hmh
    refine ⟨hle, fun heq => ⟨(hcur heq).1, fun e he => ?_⟩⟩
    rcases Table.lookup_insert_iff.1 he with ⟨hid, rfl⟩ | ⟨-, he⟩
    · exact (hcur heq).2 m (hid ▸ hm)
    · exact (hcur heq).2 e he
  · obtain hold | hlast := List.mem_append.1 hfh
    · obtain ⟨hle, hcur⟩ := h.functions fh hold
      refine ⟨hle, fun heq => ⟨(hcur heq).1, fun e he => ?_⟩⟩
      rcases Table.lookup_insert_iff.1 he with ⟨hid, rfl⟩ | ⟨-, he⟩
      · obtain ⟨hlt, hfun⟩ := (hcur heq).2 m (hid ▸ hm)
        have hne : fh.handle.functionId ≠ m.nextFunctionId := by
          intro hsame
          rw [hsame] at hlt
          exact lt_irrefl _ hlt
        rw [hnext]
        refine ⟨hlt.trans (Nat.lt_succ_self _), fun nf hnf => hfun nf ?_⟩
        rwa [LoadedModule.resolve, AList.lookup_insert_ne hne] at hnf
      · exact (hcur heq).2 e he
    · obtain rfl := List.mem_singleton.1 hlast
      refine ⟨le_rfl, fun _ => ⟨h.tables id m hm, fun e he => ?_⟩⟩
      rw [AList.lookup_insert] at he
      cases he
      rw [hnext]
      refine ⟨Nat.lt_succ_self _, fun nf hnf => ?_⟩
      rw [LoadedModule.resolve, AList.lookup_insert] at hnf
      cases hnf
      rfl

theorem next (h : Numbered s) {l : Label} (hl : Own s l) (hstep : step s l = some s') :
    Numbered s' := by
  cases l with
  | loadCubin env bytes =>
    obtain rfl := Option.some.inj hstep
    exact h.load hl.modules env bytes
  | loadPtx env src =>
    obtain rfl := Option.some.inj hstep
    exact h.load hl.modules env _
  | launch env j cfg args =>
    obtain ⟨fh, -, rfl⟩ := Option.map_eq_some_iff.1 hstep
    exact h.launch
  | launchCooperative env j cfg args =>
    obtain ⟨fh, -, rfl⟩ := Option.map_eq_some_iff.1 hstep
    exact h.launch
  | unload env i =>
    obtain ⟨mh, -, rfl⟩ := Option.map_eq_some_iff.1 hstep
    exact h.unload
  | restart =>
    obtain rfl := Option.some.inj hstep
    refine ⟨nofun, fun mh hmh => ?_, fun fh hfh => ?_⟩
    · have hle := (h.modules mh hmh).1
      exact ⟨hle.trans (Nat.le_succ _), fun heq => absurd (heq ▸ hle) (Nat.not_succ_le_self _)⟩
    · have hle := (h.functions fh hfh).1
      exact ⟨hle.trans (Nat.le_succ _), fun heq => absurd (heq ▸ hle) (Nat.not_succ_le_self _)⟩
  | getFunction env i name =>
    obtain ⟨mh, -, rfl⟩ := Option.map_eq_some_iff.1 hstep
    obtain ⟨-, e, hrun⟩ | ⟨m, hm, -, ⟨e, hrun⟩ | ⟨entry, hentry, hrun⟩⟩ :=
      getFunction_cases env mh.handle name s.real s.driver
    · rw [hrun]
      simp only [State.resolved, List.append_nil]
      exact ⟨h.tables, h.modules, h.functions⟩
    · rw [hrun]
      simp only [State.resolved, List.append_nil]
      exact ⟨h.tables, h.modules, h.functions⟩
    · rw [hrun]
      simp only [State.resolved, hentry]
      exact h.resolve hm (hl.functions _ m hm) name entry

end Numbered

/-- Within one incarnation, and before a counter wraps, numbers are enough. -/
theorem meets_of_own {ls : List Label} (hm : system.Meets Own system.init ls) :
    system.Meets Stands system.init ls := by
  refine System.Meets.mono_of_inv (I := Numbered) ?_ ?_ ⟨nofun, nofun, nofun⟩ hm
  · exact fun s l s' hs hl hstep => hs.next hl hstep
  · exact fun s l hs hl => hs.stands hl

end Modules

end AtomrAccel
