import AtomrAccel.Nvrtc.ReadThrough

/-!
# `NvrtcActor`: compile requests

A request names a source, a function and options.  It is answered from the actor's map of loaded
modules, from the disk cache, or by compiling.  The map is keyed by the source alone, the disk cache
by the source, the architecture and the list of flags, and the compiler is given the options
themselves: a request can be answered with a module that was compiled with other options.

* `NvrtcOpts`, `buildFlags`, `intoCudarc`, `cacheKey`: the options, as hashed and as compiled;
* `hashSource`, `hashOptions`: FNV-1a;
* `KernelHandle`, `handleCompile`: one request;
* `Session`, `step`: any requests, synchronous or not, and restarts of the actor;
* `Sound`, `Agrees`, `sound_of_agrees`: every handle returned has the module its own source and
  options compile to, as long as the earlier request that loaded or stored the module it is answered
  from had the same options.
-/

namespace AtomrAccel

namespace Nvrtc

/-- The architectures. -/
inductive SmArch
  | sm80
  | sm86
  | sm89
  | sm90
  | sm90a
  | sm100
  | sm120
  deriving DecidableEq, Repr

namespace SmArch

def nvrtcFlag : SmArch → String
  | sm80 => "compute_80"
  | sm86 => "compute_86"
  | sm89 => "compute_89"
  | sm90 => "compute_90"
  | sm90a => "compute_90a"
  | sm100 => "compute_100"
  | sm120 => "compute_120"

/-- `sm_90` and `sm_90a` share one number. -/
def computeCapability : SmArch → UInt32
  | sm80 => 80
  | sm86 => 86
  | sm89 => 89
  | sm90 | sm90a => 90
  | sm100 => 100
  | sm120 => 120

end SmArch

/-- The versions of the language. -/
inductive CppStd
  | cpp14
  | cpp17
  | cpp20
  deriving DecidableEq, Repr

def CppStd.nvrtcFlag : CppStd → String
  | cpp14 => "--std=c++14"
  | cpp17 => "--std=c++17"
  | cpp20 => "--std=c++20"

/-- The options of a compilation. -/
structure NvrtcOpts where
  ftz : Option Bool := none
  maxrregcount : Option ℕ := none
  name : Option String := none
  useFastMath : Option Bool := none
  lto : Bool := false
  cppStd : Option CppStd := none
  arch : Option SmArch := none
  nameExpressions : List String := []
  extraOptions : List String := []
  includePaths : List String := []
  deriving DecidableEq, Repr

/-- The fields of `cudarc`'s options that are set. -/
structure CompileOptions where
  ftz : Option Bool
  maxrregcount : Option ℕ
  name : Option String
  useFastMath : Option Bool
  includePaths : List String
  arch : Option String
  options : List String
  deriving DecidableEq, Repr

/-- FNV-1a over some more bytes. -/
def fnvWrite (h : UInt64) (bytes : List UInt8) : UInt64 :=
  bytes.foldl (fun h b => (h ^^^ b.toUInt64) * 0x100000001b3) h

/-- `FNV_OFFSET_BASIS_64`. -/
def fnvOffsetBasis64 : UInt64 := 0xcbf29ce484222325

/-- `str::as_bytes`. -/
def asBytes (s : String) : List UInt8 := s.toByteArray.data.toList

/-- `u64::to_ne_bytes`, least significant first. -/
def toNeBytes (n : UInt64) : List UInt8 :=
  (List.range 8).map fun i => (n >>> (8 * UInt64.ofNat i)).toUInt8

/-- `hash_source`. -/
def hashSource (src : String) : UInt64 := fnvWrite fnvOffsetBasis64 (asBytes src)

/-- `hash_options`. -/
def hashOptions (opts : List String) : UInt64 :=
  opts.foldl (fun h opt =>
    let bytes := asBytes opt
    fnvWrite (fnvWrite (fnvWrite h (toNeBytes (UInt64.ofNat bytes.length))) bytes) [0xff])
    fnvOffsetBasis64

namespace NvrtcOpts

variable (opts : NvrtcOpts)

/-- The flags that are hashed.  `name` and a `use_fast_math` of `Some(false)` leave no trace. -/
def buildFlags : List String :=
  (opts.ftz.toList.map fun v => "--ftz=" ++ toString v) ++
  (if opts.useFastMath = some true then ["--use_fast_math"] else []) ++
  (opts.maxrregcount.toList.map fun c => "--maxrregcount=" ++ toString c) ++
  (opts.cppStd.toList.map CppStd.nvrtcFlag) ++
  (if opts.lto then ["-dlto"] else []) ++
  (opts.arch.toList.map fun a => "--gpu-architecture=" ++ a.nvrtcFlag) ++
  (opts.includePaths.map fun path => "--include-path=" ++ path) ++
  opts.extraOptions

/-- What the compiler is given. -/
def intoCudarc : CompileOptions where
  ftz := opts.ftz
  maxrregcount := opts.maxrregcount
  name := opts.name
  useFastMath := opts.useFastMath
  includePaths := opts.includePaths
  arch := opts.arch.map SmArch.nvrtcFlag
  options := opts.cppStd.toList.map CppStd.nvrtcFlag ++ (if opts.lto then ["-dlto"] else []) ++
    opts.extraOptions

/-- The compute capability, or `0`. -/
def archNumber : UInt32 := (opts.arch.map SmArch.computeCapability).getD 0

/-- The key of a source with its options. -/
def cacheKey (src : String) : NvrtcCacheKey :=
  ⟨hashSource src, opts.archNumber, hashOptions opts.buildFlags⟩

end NvrtcOpts

/-- A module loaded into a context. -/
structure CudaModule where
  ctx : ℕ
  ptx : String
  deriving DecidableEq, Repr

/-- A function of a module. -/
structure CudaFunction where
  module : CudaModule
  name : String

/-- A compiled kernel, with the generation of its context. -/
structure KernelHandle where
  func : CudaFunction
  generation : UInt64
  srcHash : UInt64
  name : String
  loweredNames : List (String × String)
  ptx : Option (List UInt8)
  cubin : Option (List UInt8)

/-- The hash of the module map, the compiler and the codec of the disk cache. -/
structure Toolchain where
  hashSrc : String → UInt64
  compilePtx : String → CompileOptions → Except String String
  bincode : Bincode

/-- The outside of one request: the context, the device's generation when the handle is stamped, and
which calls fail and with what text. -/
structure CompileEnv where
  ctx : ℕ
  generation : UInt64
  loadModule : Option String
  loadFunction : Option String
  insertFails : Bool
  utf8Error : String

def lib : String := "nvrtc"

/-- The identity on the registered expressions. -/
def buildLoweredNames (exprs : List String) : List (String × String) := exprs.map fun e => (e, e)

/-- The function of a name in a module. -/
def loadFunction (env : CompileEnv) (m : CudaModule) (kernelName : String) :
    Except GpuError CudaFunction :=
  match env.loadFunction with
  | none => .ok ⟨m, kernelName⟩
  | some e => .error (.libraryError lib ("load_function " ++ kernelName ++ ": " ++ e))

namespace Toolchain

variable (tools : Toolchain)

/-- `disk_cache.get`, when there is a disk cache. -/
def readDisk (disk : Option Handle) (key : NvrtcCacheKey) : Option Handle × Option CachedKernel :=
  match disk with
  | none => (none, none)
  | some d =>
    let r := d.cache.get tools.bincode d.fs key
    (some { d with cache := r.1 }, r.2)

/-- `disk_cache.insert`; a failure is ignored. -/
def writeDisk (env : CompileEnv) (disk : Option Handle) (key : NvrtcCacheKey)
    (value : CachedKernel) : Option Handle :=
  disk.map fun d =>
    if env.insertFails then d
    else
      let r := (d.cache.insert tools.bincode d.fs key value).1
      ⟨r.1, r.2⟩

/-- Steps 2 and 3: the PTX from the disk cache, or else from the compiler. -/
def obtainPtx (env : CompileEnv) (disk : Option Handle) (src : String) (opts : NvrtcOpts) :
    Option Handle × Except GpuError (String × CachedKernel) :=
  let read := tools.readDisk disk (opts.cacheKey src)
  match read.2 with
  | some entry =>
    match String.fromUTF8? ⟨entry.ptx.toArray⟩ with
    | some s => (read.1, .ok (s, entry))
    | none =>
      (read.1, .error (.libraryError lib ("nvrtc cache: invalid UTF-8 PTX: " ++ env.utf8Error)))
  | none =>
    match tools.compilePtx src opts.intoCudarc with
    | .error e => (read.1, .error (.libraryError lib ("compile_ptx: " ++ e)))
    | .ok compiled =>
      let cached := CachedKernel.new (asBytes compiled) none
      (tools.writeDisk env read.1 (opts.cacheKey src) cached, .ok (compiled, cached))

/-- The loaded modules first, then the disk, then the compiler. -/
def handleCompile (env : CompileEnv) (modules : UInt64 → Option CudaModule) (disk : Option Handle)
    (src kernelName : String) (opts : NvrtcOpts) :
    ((UInt64 → Option CudaModule) × Option Handle) × Except GpuError KernelHandle :=
  let srcHash := tools.hashSrc src
  let loweredNames := buildLoweredNames opts.nameExpressions
  match modules srcHash with
  | some m =>
    ((modules, disk), (loadFunction env m kernelName).map fun func =>
      ⟨func, env.generation, srcHash, kernelName, loweredNames, none, none⟩)
  | none =>
    let obtained := tools.obtainPtx env disk src opts
    match obtained.2 with
    | .error e => ((modules, obtained.1), .error e)
    | .ok (ptx, entry) =>
      match env.loadModule with
      | some e => ((modules, obtained.1), .error (.libraryError lib ("load_module: " ++ e)))
      | none =>
        let m : CudaModule := ⟨env.ctx, ptx⟩
        ((Function.update modules srcHash (some m), obtained.1),
          (loadFunction env m kernelName).map fun func =>
            ⟨func, env.generation, srcHash, kernelName, loweredNames, some entry.ptx, entry.cubin⟩)

/-! ### Sequences of requests -/

end Toolchain

/-- `Compile`, or `CompileAsync` when `isAsync`. -/
structure CompileRequest where
  src : String
  kernelName : String
  opts : NvrtcOpts
  isAsync : Bool
  env : CompileEnv

/-- A request is served, or the actor is started again on the same directory. -/
inductive SessionEvent
  | compile (r : CompileRequest)
  | restart

/-- The actor's modules and disk cache, the handles returned so far, and the requests that loaded a
module into the map or stored an entry on disk. -/
structure Session where
  modules : UInt64 → Option CudaModule
  disk : Option Handle
  returned : List (CompileRequest × KernelHandle)
  resident : List CompileRequest
  stored : List CompileRequest

namespace CompileRequest

variable (r : CompileRequest)

def options : CompileOptions := r.opts.intoCudarc

def cacheKey : NvrtcCacheKey := r.opts.cacheKey r.src

/-- What the request should be answered with. -/
def Answers (tools : Toolchain) (h : KernelHandle) : Prop :=
  tools.compilePtx r.src r.options = .ok h.func.module.ptx ∧ h.func.name = r.kernelName

end CompileRequest

/-- The request that loaded the module for this source had the same compile options, or, when there
is no such module to answer from, the request that stored the entry for this source, architecture
and flags did. -/
def Session.Agrees (s : Session) : SessionEvent → Prop
  | .compile r =>
    (r.isAsync = false → ∀ r' ∈ s.resident, r'.src = r.src → r'.options = r.options) ∧
    ((r.isAsync = true ∨ ∀ r' ∈ s.resident, r'.src ≠ r.src) →
      ∀ r' ∈ s.stored, r'.src = r.src → r'.opts.buildFlags = r.opts.buildFlags →
        r'.opts.archNumber = r.opts.archNumber → r'.options = r.options)
  | .restart => True

namespace Toolchain

variable (tools : Toolchain)

/-- What the disk cache has under a key. -/
def onDisk (disk : Option Handle) (key : NvrtcCacheKey) : Option CachedKernel :=
  disk.bind fun d => d.cache.Disk tools.bincode d.fs key

/-- The session after a request that found `modules` and was answered with `answer`. -/
def served (s : Session) (r : CompileRequest)
    (answer : ((UInt64 → Option CudaModule) × Option Handle) × Except GpuError KernelHandle) :
    Session :=
  let modules := if r.isAsync then s.modules else answer.1.1
  let hash := tools.hashSrc r.src
  { modules := modules
    disk := answer.1.2
    returned := s.returned ++ answer.2.toOption.toList.map fun h => (r, h)
    resident := s.resident ++ if s.modules hash = none ∧ modules hash ≠ none then [r] else []
    stored := s.stored ++
      if tools.onDisk s.disk r.cacheKey = none ∧ tools.onDisk answer.1.2 r.cacheKey ≠ none
      then [r] else [] }

/-- One compilation. -/
def step (s : Session) : SessionEvent → Option Session
  | .compile r =>
    -- the asynchronous path has a map of its own, dropped with the task
    let modules := if r.isAsync then fun _ => none else s.modules
    some (tools.served s r
      (tools.handleCompile r.env modules s.disk r.src r.kernelName r.opts))
  | .restart =>
    some { s with
      modules := fun _ => none
      disk := s.disk.map fun d => { d with cache := .withDir d.cache.dir }
      resident := [] }

/-- An actor without modules, with a cache on an empty directory or without one. -/
def session (dir : Option String) : Transition.System Session SessionEvent where
  init := ⟨fun _ => none, dir.map fun d => ⟨.withDir d, .empty⟩, [], [], []⟩
  step := tools.step

/-- Every handle returned has the function of its request in the module that the request's own
source and options compile to. -/
def Sound (s : Session) : Prop := ∀ answer ∈ s.returned, answer.1.Answers tools answer.2

/-- The hashes tell the sources and flags of these requests apart. -/
structure Injective (rs : CompileRequest → Prop) : Prop where
  hashSrc : ∀ r r', rs r → rs r' → tools.hashSrc r.src = tools.hashSrc r'.src → r.src = r'.src
  hashSource : ∀ r r', rs r → rs r' → Nvrtc.hashSource r.src = Nvrtc.hashSource r'.src →
    r.src = r'.src
  hashOptions : ∀ r r', rs r → rs r' →
    Nvrtc.hashOptions r.opts.buildFlags = Nvrtc.hashOptions r'.opts.buildFlags →
      r.opts.buildFlags = r'.opts.buildFlags

/-- What is compiled for the request survives the codec. -/
def Decodes (r : CompileRequest) : Prop :=
  ∀ ptx, tools.compilePtx r.src r.options = .ok ptx →
    tools.bincode.deserialize (tools.bincode.serialize (.new (asBytes ptx) none)) =
      some (.new (asBytes ptx) none)

variable {tools} {disk disk' : Option Handle} {key key' : NvrtcCacheKey} {env : CompileEnv}
  {r : CompileRequest} {s s' : Session} {l : SessionEvent}

theorem fromUTF8_asBytes (text : String) :
    String.fromUTF8? ⟨(asBytes text).toArray⟩ = some text := by
  have hbytes : (⟨(asBytes text).toArray⟩ : ByteArray) = text.toByteArray := by
    rw [asBytes]
  rw [hbytes, String.fromUTF8?, dif_pos text.isValidUTF8]
  rfl

/-- The handle of the disk cache, if there is one, reads the same hot and cold. -/
def DiskCoherent (tools : Toolchain) (disk : Option Handle) : Prop :=
  ∀ d ∈ disk, tools.bincode.Coherent d

theorem readDisk_snd (h : tools.DiskCoherent disk) :
    (tools.readDisk disk key).2 = tools.onDisk disk key := by
  cases disk with
  | none => rfl
  | some d => exact ((h d rfl).get_eq key).trans NvrtcCache.get_clearInMemory

theorem readDisk_onDisk :
    tools.onDisk (tools.readDisk disk key).1 key' = tools.onDisk disk key' := by
  cases disk with
  | none => rfl
  | some d => exact NvrtcCache.disk_get key'

theorem readDisk_coherent (h : tools.DiskCoherent disk) :
    tools.DiskCoherent (tools.readDisk disk key).1 := by
  cases disk with
  | none => exact h
  | some d =>
    intro d' hd'
    obtain rfl := Option.some.inj hd'
    exact (h d rfl).step (l := .get key) trivial trivial rfl

section Write

variable {value : CachedKernel}
  (hdecodes : tools.bincode.deserialize (tools.bincode.serialize value) = some value)
  (hversion : value.atomrAccelVersion = cargoPkgVersion)

include hdecodes hversion

theorem writeDisk_coherent (h : tools.DiskCoherent disk) :
    tools.DiskCoherent (tools.writeDisk env disk key value) := by
  cases disk with
  | none => exact h
  | some d =>
    intro d' hd'
    obtain rfl := Option.some.inj hd'
    dsimp only
    split_ifs
    · exact h d rfl
    · exact (h d rfl).step (l := .insert key value) hdecodes hversion rfl

/-- The entry written is there afterwards unless the write fails; the others stay. -/
theorem writeDisk_onDisk : tools.onDisk (tools.writeDisk env disk key value) key' =
      tools.onDisk disk key' ∨
    key' = key ∧ tools.onDisk (tools.writeDisk env disk key value) key' = some value := by
  cases disk with
  | none => exact .inl rfl
  | some d =>
    have hinsert : (d.cache.insert tools.bincode d.fs key value).1.1.Disk tools.bincode
        (d.cache.insert tools.bincode d.fs key value).1.2 key' =
          if key' = key then some value else d.cache.Disk tools.bincode d.fs key' :=
      NvrtcCache.disk_insert hdecodes hversion key'
    by_cases hfails : env.insertFails
    · left
      simp [writeDisk, hfails]
    · by_cases hkey : key' = key
      · right
        rw [if_pos hkey] at hinsert
        refine ⟨hkey, ?_⟩
        simpa [writeDisk, hfails, onDisk] using hinsert
      · left
        rw [if_neg hkey] at hinsert
        simpa [writeDisk, hfails, onDisk] using hinsert

end Write

/-- The disk cache has nothing for the request, or what the request compiles to. -/
def DiskRight (tools : Toolchain) (disk : Option Handle) (r : CompileRequest) : Prop :=
  ∀ entry, tools.onDisk disk r.cacheKey = some entry →
    ∃ ptx, tools.compilePtx r.src r.options = .ok ptx ∧ entry = .new (asBytes ptx) none

/-- What a request may do to the disk cache: nothing under other keys, and under its own only what
it compiles to. -/
structure DiskServes (tools : Toolchain) (disk disk' : Option Handle) (r : CompileRequest) :
    Prop where
  coherent : tools.DiskCoherent disk'
  others : ∀ key, tools.onDisk disk' key = tools.onDisk disk key ∨ key = r.cacheKey
  kept : ∀ entry, tools.onDisk disk r.cacheKey = some entry →
    tools.onDisk disk' r.cacheKey = some entry
  right : tools.onDisk disk r.cacheKey = none → tools.DiskRight disk' r

theorem diskServes_of_same (hcoherent : tools.DiskCoherent disk')
    (hsame : ∀ key, tools.onDisk disk' key = tools.onDisk disk key) :
    tools.DiskServes disk disk' r where
  coherent := hcoherent
  others key := .inl (hsame key)
  kept _ h := (hsame _).trans h
  right h _ hentry := nomatch (h.symm.trans ((hsame _).symm.trans hentry))

/-- What is compiled on a miss is stored under the request's own key. -/
theorem diskServes_of_write {ptx : String} (hcoherent : tools.DiskCoherent disk')
    (hsame : ∀ key, tools.onDisk disk' key = tools.onDisk disk key) (hdecodes : tools.Decodes r)
    (hmiss : tools.onDisk disk r.cacheKey = none)
    (hcompile : tools.compilePtx r.src r.options = .ok ptx) :
    tools.DiskServes disk (tools.writeDisk env disk' r.cacheKey (.new (asBytes ptx) none)) r := by
  have hwrite : ∀ key, tools.onDisk (tools.writeDisk env disk' r.cacheKey
      (.new (asBytes ptx) none)) key = tools.onDisk disk' key ∨ key = r.cacheKey ∧
        tools.onDisk (tools.writeDisk env disk' r.cacheKey (.new (asBytes ptx) none)) key =
          some (.new (asBytes ptx) none) :=
    fun _ => writeDisk_onDisk (hdecodes ptx hcompile) rfl
  refine ⟨writeDisk_coherent (hdecodes ptx hcompile) rfl hcoherent, ?_, ?_, ?_⟩
  · intro key
    rcases hwrite key with hold | ⟨hkey, -⟩
    · exact .inl (hold.trans (hsame key))
    · exact .inr hkey
  · intro entry hentry
    cases hmiss.symm.trans hentry
  · intro _ entry hentry
    rcases hwrite r.cacheKey with hold | ⟨-, hnew⟩
    · cases hmiss.symm.trans ((hsame _).symm.trans (hold.symm.trans hentry))
    · exact ⟨ptx, hcompile, Option.some.inj (hentry.symm.trans hnew)⟩

/-- The PTX is what the request compiles to when the disk cache has nothing else for it. -/
theorem obtainPtx_spec (env : CompileEnv) (hcoherent : tools.DiskCoherent disk)
    (hdecodes : tools.Decodes r) :
    tools.DiskServes disk (tools.obtainPtx env disk r.src r.opts).1 r ∧
      (tools.DiskRight disk r → ∀ ptx entry,
        (tools.obtainPtx env disk r.src r.opts).2 = .ok (ptx, entry) →
          tools.compilePtx r.src r.options = .ok ptx) := by
  have hread : (tools.readDisk disk (r.opts.cacheKey r.src)).2 = tools.onDisk disk r.cacheKey :=
    readDisk_snd hcoherent
  have hreadCoherent : tools.DiskCoherent (tools.readDisk disk (r.opts.cacheKey r.src)).1 :=
    readDisk_coherent hcoherent
  have hserves : tools.DiskServes disk (tools.readDisk disk (r.opts.cacheKey r.src)).1 r :=
    diskServes_of_same hreadCoherent fun _ => readDisk_onDisk
  cases hfound : tools.onDisk disk r.cacheKey with
  | some entry =>
    rw [hfound] at hread
    cases hutf8 : String.fromUTF8? ⟨entry.ptx.toArray⟩ with
    | some text =>
      have heq : tools.obtainPtx env disk r.src r.opts =
          ((tools.readDisk disk (r.opts.cacheKey r.src)).1, .ok (text, entry)) := by
        simp only [obtainPtx, hread, hutf8]
      rw [heq]
      refine ⟨hserves, ?_⟩
      intro hright ptx entry' h
      cases h
      obtain ⟨ptx', hcompile, rfl⟩ := hright entry hfound
      rw [show (CachedKernel.new (asBytes ptx') none).ptx = asBytes ptx' from rfl,
        fromUTF8_asBytes] at hutf8
      rwa [← Option.some.inj hutf8]
    | none =>
      refine ⟨?_, ?_⟩
      · simpa only [obtainPtx, hread, hutf8] using hserves
      · intro _ ptx entry' h
        simp only [obtainPtx, hread, hutf8] at h
        cases h
  | none =>
    rw [hfound] at hread
    cases hcompile : tools.compilePtx r.src r.opts.intoCudarc with
    | error e =>
      refine ⟨?_, ?_⟩
      · simpa only [obtainPtx, hread, hcompile] using hserves
      · intro _ ptx entry' h
        simp only [obtainPtx, hread, hcompile] at h
        cases h
    | ok compiled =>
      have heq : tools.obtainPtx env disk r.src r.opts =
          (tools.writeDisk env (tools.readDisk disk (r.opts.cacheKey r.src)).1
            (r.opts.cacheKey r.src) (.new (asBytes compiled) none),
            .ok (compiled, .new (asBytes compiled) none)) := by
        simp only [obtainPtx, hread, hcompile]
      rw [heq]
      refine ⟨diskServes_of_write hreadCoherent (fun _ => readDisk_onDisk) hdecodes hfound hcompile,
        ?_⟩
      intro _ ptx entry' h
      cases h
      exact hcompile

/-- What a request leaves: the map is as it was but for the request's own source, which has the
module it compiles to. -/
structure Served (tools : Toolchain) (modules : UInt64 → Option CudaModule) (disk : Option Handle)
    (r : CompileRequest)
    (answer : ((UInt64 → Option CudaModule) × Option Handle) × Except GpuError KernelHandle) :
    Prop where
  others : ∀ hash, hash ≠ tools.hashSrc r.src → answer.1.1 hash = modules hash
  kept : ∀ m, modules (tools.hashSrc r.src) = some m →
    answer.1.1 (tools.hashSrc r.src) = some m
  right : ∀ m, answer.1.1 (tools.hashSrc r.src) = some m →
    tools.compilePtx r.src r.options = .ok m.ptx
  disk : tools.DiskServes disk answer.1.2 r
  answers : ∀ h, answer.2 = .ok h → r.Answers tools h

theorem map_loadFunction_ok {α : Type} {m : CudaModule} {kernelName : String}
    {f : CudaFunction → α} {a : α} (h : (loadFunction env m kernelName).map f = .ok a) :
    a = f ⟨m, kernelName⟩ := by
  unfold loadFunction at h
  split at h
  · exact (Except.ok.inj h).symm
  · cases h

/-- A request is served rightly when its source's module, or else its entry on disk, is right. -/
theorem handleCompile_spec {modules : UInt64 → Option CudaModule}
    (hcoherent : tools.DiskCoherent disk) (hdecodes : tools.Decodes r)
    (hmodule : ∀ m, modules (tools.hashSrc r.src) = some m →
      tools.compilePtx r.src r.options = .ok m.ptx)
    (hdisk : modules (tools.hashSrc r.src) = none → tools.DiskRight disk r) :
    tools.Served modules disk r
      (tools.handleCompile env modules disk r.src r.kernelName r.opts) := by
  obtain ⟨hserves, hptx⟩ := obtainPtx_spec env hcoherent hdecodes
  cases hhit : modules (tools.hashSrc r.src) with
  | some m =>
    have heq : tools.handleCompile env modules disk r.src r.kernelName r.opts =
        ((modules, disk), (loadFunction env m r.kernelName).map fun func =>
          ⟨func, env.generation, tools.hashSrc r.src, r.kernelName,
            buildLoweredNames r.opts.nameExpressions, none, none⟩) := by
      simp only [handleCompile, hhit]
    rw [heq]
    refine ⟨fun _ _ => rfl, fun _ h => h, fun m' h => hmodule m' h,
      diskServes_of_same hcoherent fun _ => rfl, ?_⟩
    intro h hok
    rw [map_loadFunction_ok hok]
    exact ⟨hmodule m hhit, rfl⟩
  | none =>
    cases hobtained : (tools.obtainPtx env disk r.src r.opts).2 with
    | error e =>
      simp only [handleCompile, hhit, hobtained]
      exact ⟨fun _ _ => rfl, fun _ h => h, hmodule, hserves, fun _ h => nomatch h⟩
    | ok obtained =>
      obtain ⟨ptx, entry⟩ := obtained
      have hcompile := hptx (hdisk hhit) ptx entry hobtained
      cases hload : env.loadModule with
      | some e =>
        simp only [handleCompile, hhit, hobtained, hload]
        exact ⟨fun _ _ => rfl, fun _ h => h, hmodule, hserves, fun _ h => nomatch h⟩
      | none =>
        simp only [handleCompile, hhit, hobtained, hload]
        refine ⟨?_, ?_, ?_, hserves, ?_⟩
        · intro hash hne
          exact Function.update_of_ne hne _ _
        · intro m hm
          cases hhit.symm.trans hm
        · intro m hm
          have hself : Function.update modules (tools.hashSrc r.src)
              (some (⟨env.ctx, ptx⟩ : CudaModule)) (tools.hashSrc r.src) = some ⟨env.ctx, ptx⟩ :=
            Function.update_self _ _ _
          obtain rfl := Option.some.inj (hself.symm.trans hm)
          exact hcompile
        · intro h hok
          rw [map_loadFunction_ok hok]
          exact ⟨hcompile, rfl⟩

/-- Every module in the map was compiled for a request that loaded it, and every entry on disk for
one that stored it. -/
structure Inv (tools : Toolchain) (rs : CompileRequest → Prop) (s : Session) : Prop where
  coherent : tools.DiskCoherent s.disk
  modules : ∀ hash m, s.modules hash = some m → ∃ r ∈ s.resident, tools.hashSrc r.src = hash ∧
    tools.compilePtx r.src r.options = .ok m.ptx
  loaded : ∀ r ∈ s.resident, s.modules (tools.hashSrc r.src) ≠ none
  disk : ∀ key entry, tools.onDisk s.disk key = some entry → ∃ r ∈ s.stored, r.cacheKey = key ∧
    ∃ ptx, tools.compilePtx r.src r.options = .ok ptx ∧ entry = .new (asBytes ptx) none
  resident : ∀ r ∈ s.resident, rs r
  stored : ∀ r ∈ s.stored, rs r
  sound : tools.Sound s

variable {rs : CompileRequest → Prop}

/-- The module for the request's source is the one it compiles to. -/
theorem module_right (h : tools.Inv rs s) (hinj : tools.Injective rs) (hr : rs r)
    (hsync : r.isAsync = false) (hl : s.Agrees (.compile r)) {m : CudaModule}
    (hm : s.modules (tools.hashSrc r.src) = some m) :
    tools.compilePtx r.src r.options = .ok m.ptx := by
  obtain ⟨r', hr', hhash, hcompile⟩ := h.modules _ m hm
  have hsrc : r'.src = r.src := hinj.hashSrc r' r (h.resident r' hr') hr hhash
  rwa [← hl.1 hsync r' hr' hsrc, ← hsrc]

/-- So is the entry on disk, for a request that is not answered from the map. -/
theorem disk_right (h : tools.Inv rs s) (hinj : tools.Injective rs) (hr : rs r)
    (hl : s.Agrees (.compile r))
    (hmiss : r.isAsync = true ∨ s.modules (tools.hashSrc r.src) = none) :
    tools.DiskRight s.disk r := by
  intro entry hentry
  obtain ⟨r', hr', hkey, ptx, hcompile, hptx⟩ := h.disk _ entry hentry
  have hsrc : r'.src = r.src :=
    hinj.hashSource r' r (h.stored r' hr') hr (congrArg NvrtcCacheKey.sourceHash hkey)
  have hflags : r'.opts.buildFlags = r.opts.buildFlags :=
    hinj.hashOptions r' r (h.stored r' hr') hr (congrArg NvrtcCacheKey.optionsHash hkey)
  have harch : r'.opts.archNumber = r.opts.archNumber := congrArg NvrtcCacheKey.arch hkey
  have hlayer : r.isAsync = true ∨ ∀ r' ∈ s.resident, r'.src ≠ r.src := by
    refine hmiss.imp_right fun hnone r₁ hr₁ hsrc₁ => ?_
    exact h.loaded r₁ hr₁ (by rw [hsrc₁]; exact hnone)
  refine ⟨ptx, ?_, hptx⟩
  rwa [← hl.2 hlayer r' hr' hsrc hflags harch, ← hsrc]

theorem mem_append_ite {c : Prop} [Decidable c] {rs : List CompileRequest} {r' : CompileRequest} :
    r' ∈ rs ++ (if c then [r] else []) ↔ r' ∈ rs ∨ c ∧ r' = r := by
  rw [List.mem_append]
  split_ifs with hc <;> simp [hc]

/-- The actor's map afterwards has what it had, and for the request's source what it compiles to. -/
theorem served_modules
    {answer : ((UInt64 → Option CudaModule) × Option Handle) × Except GpuError KernelHandle}
    (hserved : tools.Served (if r.isAsync then fun _ => none else s.modules) s.disk r answer)
    {hash : UInt64} {m : CudaModule} :
    (tools.served s r answer).modules hash = some m ↔ s.modules hash = some m ∨
      s.modules hash = none ∧ hash = tools.hashSrc r.src ∧ r.isAsync = false ∧
        answer.1.1 hash = some m := by
  cases hasync : r.isAsync with
  | true =>
    simp only [Toolchain.served, hasync, if_true, Bool.true_eq_false, false_and, and_false,
      or_false]
  | false =>
    rw [hasync] at hserved
    simp only [Toolchain.served, hasync, Bool.false_eq_true, if_false, true_and]
    by_cases hhash : hash = tools.hashSrc r.src
    · subst hhash
      cases hold : s.modules (tools.hashSrc r.src) with
      | some old => simp [hserved.kept old hold]
      | none => simp
    · simp [hserved.others hash hhash, hhash]

/-- What a request that is served rightly leaves behind. -/
theorem Inv.served
    {answer : ((UInt64 → Option CudaModule) × Option Handle) × Except GpuError KernelHandle}
    (h : tools.Inv rs s) (hr : rs r)
    (hserved : tools.Served (if r.isAsync then fun _ => none else s.modules) s.disk r answer) :
    tools.Inv rs (tools.served s r answer) where
  coherent := hserved.disk.coherent
  modules := by
    intro hash m hm
    rcases (served_modules hserved).1 hm with hold | ⟨hnone, rfl, hsync, hnew⟩
    · obtain ⟨r', hr', hrest⟩ := h.modules hash m hold
      exact ⟨r', mem_append_ite.2 (.inl hr'), hrest⟩
    · refine ⟨r, mem_append_ite.2 (.inr ⟨⟨hnone, ?_⟩, rfl⟩), rfl, hserved.right m hnew⟩
      exact fun h => nomatch hm.symm.trans h
  loaded := by
    intro r' hr'
    rcases mem_append_ite.1 hr' with hold | ⟨⟨-, hnew⟩, rfl⟩
    · obtain ⟨m, hm⟩ := Option.ne_none_iff_exists'.1 (h.loaded r' hold)
      rw [(served_modules hserved).2 (.inl hm)]
      exact Option.some_ne_none m
    · exact hnew
  disk := by
    intro key entry hentry
    rcases hserved.disk.others key with hsame | rfl
    · obtain ⟨r', hr', hrest⟩ := h.disk key entry (hsame.symm.trans hentry)
      exact ⟨r', mem_append_ite.2 (.inl hr'), hrest⟩
    · cases hold : tools.onDisk s.disk r.cacheKey with
      | some old =>
        obtain ⟨r', hr', hrest⟩ := h.disk _ old hold
        obtain rfl := Option.some.inj ((hserved.disk.kept old hold).symm.trans hentry)
        exact ⟨r', mem_append_ite.2 (.inl hr'), hrest⟩
      | none =>
        refine ⟨r, mem_append_ite.2 (.inr ⟨⟨hold, ?_⟩, rfl⟩), rfl,
          hserved.disk.right hold entry hentry⟩
        rw [show tools.onDisk answer.1.2 r.cacheKey = some entry from hentry]
        exact Option.some_ne_none _
  resident := by
    intro r' hr'
    rcases mem_append_ite.1 hr' with hold | ⟨-, rfl⟩
    · exact h.resident r' hold
    · exact hr
  stored := by
    intro r' hr'
    rcases mem_append_ite.1 hr' with hold | ⟨-, rfl⟩
    · exact h.stored r' hold
    · exact hr
  sound := by
    intro a ha
    rcases List.mem_append.1 ha with hold | hnew
    · exact h.sound a hold
    · obtain ⟨handle, hhandle, rfl⟩ := List.mem_map.1 hnew
      refine hserved.answers handle ?_
      cases hresult : answer.2 with
      | error e =>
        rw [hresult] at hhandle
        cases hhandle
      | ok handle' =>
        rw [hresult] at hhandle
        rw [List.mem_singleton.1 hhandle]

/-- Starting again forgets the modules and what the handle of the cache had in memory. -/
theorem Inv.restart (h : tools.Inv rs s) (hs : tools.step s .restart = some s') :
    tools.Inv rs s' := by
  cases hs
  have hdisk : ∀ key, tools.onDisk (s.disk.map fun d => { d with cache := .withDir d.cache.dir })
      key = tools.onDisk s.disk key := by
    intro key
    cases s.disk <;> rfl
  refine ⟨?_, fun _ _ h => (nomatch h), fun _ h => (nomatch h), ?_, fun _ h => (nomatch h),
    h.stored,
    h.sound⟩
  · intro d hd
    obtain ⟨d', -, rfl⟩ := Option.map_eq_some_iff.1 hd
    exact Bincode.coherent_of_restriction fun _ _ h => nomatch h
  · intro key entry hentry
    exact h.disk key entry ((hdisk key).symm.trans hentry)

/-- The request of an event, if it has one, is among these and survives the codec. -/
def Known (tools : Toolchain) (rs : CompileRequest → Prop) : SessionEvent → Prop
  | .compile r => rs r ∧ tools.Decodes r
  | .restart => True

theorem Inv.step (h : tools.Inv rs s) (hinj : tools.Injective rs) (hknown : tools.Known rs l)
    (hl : s.Agrees l) (hs : tools.step s l = some s') : tools.Inv rs s' := by
  cases l with
  | restart => exact h.restart hs
  | compile r =>
    obtain ⟨hr, hdecodes⟩ := hknown
    cases hs
    apply h.served hr
    apply handleCompile_spec h.coherent hdecodes
    · intro m hm
      cases hasync : r.isAsync with
      | true =>
        rw [hasync] at hm
        cases hm
      | false =>
        rw [hasync] at hm
        exact module_right h hinj hr hasync hl hm
    · intro hnone
      apply disk_right h hinj hr hl
      cases hasync : r.isAsync with
      | true => exact .inl rfl
      | false =>
        rw [hasync] at hnone
        exact .inr hnone

/-- In every run whose requests agree in their options with the earlier ones they are answered from,
every handle returned has the module of its own source and options. -/
theorem sound_of_agrees (tools : Toolchain) (dir : Option String) (ls : List SessionEvent)
    (hinj : tools.Injective fun r => .compile r ∈ ls)
    (hdecodes : ∀ r, .compile r ∈ ls → tools.Decodes r)
    (hagrees : (tools.session dir).Meets Session.Agrees (tools.session dir).init ls) :
    (tools.session dir).Along tools.Sound (tools.session dir).init ls := by
  have hinit : tools.Inv (fun r => .compile r ∈ ls) (tools.session dir).init := by
    refine ⟨?_, fun _ _ h => (nomatch h), fun _ h => (nomatch h), ?_, fun _ h => (nomatch h),
      fun _ h => (nomatch h), fun _ h => (nomatch h)⟩
    · intro d hd
      obtain ⟨path, -, rfl⟩ := Option.map_eq_some_iff.1 hd
      exact Bincode.coherent_of_restriction fun _ _ h => nomatch h
    · intro key entry hentry
      cases dir <;> cases hentry
  have hknown : ∀ l ∈ ls, tools.Known (fun r => .compile r ∈ ls) l := by
    intro l hl
    cases l with
    | compile r => exact ⟨hl, hdecodes r hl⟩
    | restart => trivial
  exact Transition.System.along_of_meets (fun _ h => h.sound)
    (fun _ _ _ h hl hs => h.step hinj hl.1 hl.2 hs) hinit (hagrees.and_forall hknown)

/-- Requests for one source are told apart when their flags are. -/
theorem injective_of_one_source {tools : Toolchain} {rs : CompileRequest → Prop}
    (hsrc : ∀ r r', rs r → rs r' → r.src = r'.src)
    (hflags : ∀ r r', rs r → rs r' →
      Nvrtc.hashOptions r.opts.buildFlags = Nvrtc.hashOptions r'.opts.buildFlags →
        r.opts.buildFlags = r'.opts.buildFlags) : tools.Injective rs :=
  ⟨fun r r' hr hr' _ => hsrc r r' hr hr', fun r r' hr hr' _ => hsrc r r' hr hr', hflags⟩

end Toolchain

/-- A compiler that heeds `use_fast_math`, and the encoding of entries without CUBIN.  There will be
one source only. -/
def sampleTools : Toolchain where
  hashSrc _ := 0x9e3779b97f4a7c15
  compilePtx _ options := .ok (if options.useFastMath = some true then "fast" else "plain")
  bincode :=
    { serialize := fun value => toNeBytes (UInt64.ofNat value.ptx.length) ++ value.ptx ++
        [0, 6, 0, 0, 0, 0, 0, 0, 0, 48, 46, 49, 48, 46, 48]
      deserialize := fun bytes => some (.new ((bytes.drop 8).take (bytes.length - 23)) none) }

def sampleCompile (isAsync : Bool) (opts : NvrtcOpts) : CompileRequest where
  src := "extern \"C\" __global__ void noop() \x7b\x7d"
  kernelName := "noop"
  opts := opts
  isAsync := isAsync
  env := ⟨0, 0, none, none, false, ""⟩

/-- Fast math, in the options and in the flags. -/
def fastMath : NvrtcOpts := { useFastMath := some true }

theorem sampleTools_decodes (isAsync : Bool) (opts : NvrtcOpts) :
    sampleTools.Decodes (sampleCompile isAsync opts) := by
  intro ptx hptx
  obtain rfl := Except.ok.inj hptx
  have hplain : sampleTools.bincode.deserialize (sampleTools.bincode.serialize
      (.new (asBytes "plain") none)) = some (.new (asBytes "plain") none) := by decide +kernel
  have hfast : sampleTools.bincode.deserialize (sampleTools.bincode.serialize
      (.new (asBytes "fast") none)) = some (.new (asBytes "fast") none) := by decide +kernel
  split_ifs
  · exact hfast
  · exact hplain

/-- The same request on both paths: the module is loaded, and then taken from disk. -/
theorem sync_then_async_sound :
    (sampleTools.session (some "nvrtc")).Along sampleTools.Sound
      (sampleTools.session (some "nvrtc")).init
      [.compile (sampleCompile false {}), .compile (sampleCompile true {})] := by
  have hrequest : ∀ r, SessionEvent.compile r ∈
      [.compile (sampleCompile false {}), .compile (sampleCompile true {})] →
        ∃ isAsync, r = sampleCompile isAsync {} := by
    intro r hr
    simp only [List.mem_cons, SessionEvent.compile.injEq, List.not_mem_nil, or_false] at hr
    rcases hr with rfl | rfl
    · exact ⟨false, rfl⟩
    · exact ⟨true, rfl⟩
  refine sampleTools.sound_of_agrees _ _ (Toolchain.injective_of_one_source ?_ ?_) ?_ ?_
  · intro r r' hr hr'
    obtain ⟨_, rfl⟩ := hrequest r hr
    obtain ⟨_, rfl⟩ := hrequest r' hr'
    rfl
  · intro r r' hr hr' _
    obtain ⟨_, rfl⟩ := hrequest r hr
    obtain ⟨_, rfl⟩ := hrequest r' hr'
    rfl
  · intro r hr
    obtain ⟨isAsync, rfl⟩ := hrequest r hr
    exact sampleTools_decodes isAsync {}
  · intro s hs
    refine ⟨⟨fun _ _ h => (nomatch h), fun _ _ h => (nomatch h)⟩, ?_⟩
    intro s' hs'
    refine ⟨⟨fun h => (nomatch h), ?_⟩, trivial⟩
    intro _ r' hr' _ _ _
    cases hs
    rcases Toolchain.mem_append_ite.1 hr' with hold | ⟨-, rfl⟩
    · cases hold
    · rfl

/-- The second request asks for fast math and is answered with the module of the first. -/
theorem options_ignored_by_module_map :
    ¬ ∀ ls, sampleTools.Injective (fun r => .compile r ∈ ls) →
      (∀ r, .compile r ∈ ls → sampleTools.Decodes r) →
        (sampleTools.session none).Along sampleTools.Sound (sampleTools.session none).init ls := by
  intro h
  have hhash : hashOptions (NvrtcOpts.buildFlags {}) ≠ hashOptions fastMath.buildFlags := by
    decide +kernel
  have hrequest : ∀ r, SessionEvent.compile r ∈
      [.compile (sampleCompile false {}), .compile (sampleCompile false fastMath)] →
        r = sampleCompile false {} ∨ r = sampleCompile false fastMath := by
    intro r hr
    simpa using hr
  have halong := h [.compile (sampleCompile false {}), .compile (sampleCompile false fastMath)]
    (Toolchain.injective_of_one_source
      (by
        intro r r' hr hr'
        rcases hrequest r hr with rfl | rfl <;> rcases hrequest r' hr' with rfl | rfl <;> rfl)
      (by
        intro r r' hr hr' heq
        rcases hrequest r hr with rfl | rfl <;> rcases hrequest r' hr' with rfl | rfl
        · rfl
        · exact absurd heq hhash
        · exact absurd heq.symm hhash
        · rfl))
    (by
      intro r hr
      rcases hrequest r hr with rfl | rfl <;> exact sampleTools_decodes _ _)
  have hsound := halong.last rfl
  have hanswer := hsound (sampleCompile false fastMath, ⟨⟨⟨0, "plain"⟩, "noop"⟩, 0,
    0x9e3779b97f4a7c15, "noop", [], none, none⟩)
    (List.mem_append_right _ (List.mem_singleton.2 rfl))
  have hptx : "fast" = "plain" := Except.ok.inj hanswer.1
  exact absurd hptx (by decide)

end Nvrtc

end AtomrAccel
