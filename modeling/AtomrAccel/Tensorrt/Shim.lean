import AtomrAccel.Lib.Ledger

/-!
# `TrtActor` and the handles of TensorRT

The calls of the shim create handles, use them or destroy them.  Those of one function of the crate
are followed here from its first to its last, with all its error exits.

* `Shim`, `created`: the calls so far, and a call that answers with a handle or with null;
* `buildFromOnnx`: from an ONNX model to a serialised plan;
* `newRuntime`, `deserialize`, `TrtActor.ensureRuntime`: runtimes and engines;
* `execute`: one inference, up to and including `enqueueV3`; the context it leaves is destroyed by
  the last line of the function;
* `buildFromOnnx_holds`: a build destroys what it creates, the network excepted;
* `execute_holds`: an inference destroys its context on every error exit.
-/

namespace AtomrAccel

namespace Trt

open Resource Ledger

/-! ### The shim -/

/-- The objects of the library. -/
inductive HandleKind
  | builder
  | network
  | parser
  | config
  | hostMemory
  | runtime
  | engine
  | context
  deriving DecidableEq, Repr

/-- An object of the library. -/
abbrev TrtHandle := Handle HandleKind

/-- The calls to the library. -/
abbrev Shim := Ledger HandleKind

/-- The errors. -/
inductive TrtError
  | notLinked (msg : String)
  | build (msg : String)
  | runtime (msg : String)
  | nullEngine
  | execution (msg : String)
  | onnx (msg : String)
  | calibration (msg : String)
  | plugin (msg : String)
  | refit (msg : String)
  | invalidArg (msg : String)
  deriving DecidableEq, Repr

/-- A call that creates a handle of this kind; `nonNull` tells what it answers. -/
def created (kind : HandleKind) (nonNull : Bool) (s : Shim) : Option TrtHandle × Shim :=
  if nonNull then (some (s.fresh kind), s.create kind) else (none, s)

/-! ### Builds -/

namespace BuilderFlags

def fp16 : UInt32 := (1 : UInt32) <<< 0
def int8 : UInt32 := (1 : UInt32) <<< 1
def refit : UInt32 := (1 : UInt32) <<< 4
def tf32 : UInt32 := (1 : UInt32) <<< 6
def sparseWeights : UInt32 := (1 : UInt32) <<< 7
def bf16 : UInt32 := (1 : UInt32) <<< 13
def fp8 : UInt32 := (1 : UInt32) <<< 14
def stripPlan : UInt32 := (1 : UInt32) <<< 15

end BuilderFlags

/-- The precisions of an engine. -/
inductive Precision
  | fp32
  | fp16
  | bf16
  | int8
  | fp8
  | best
  deriving DecidableEq, Repr

/-- The flags of a precision. -/
def Precision.flags : Precision → UInt32
  | fp32 => BuilderFlags.tf32
  | fp16 => BuilderFlags.fp16 ||| BuilderFlags.tf32
  | bf16 => BuilderFlags.bf16 ||| BuilderFlags.tf32
  | int8 => BuilderFlags.int8 ||| BuilderFlags.tf32
  | fp8 => BuilderFlags.fp8 ||| BuilderFlags.fp16 ||| BuilderFlags.tf32
  | best => BuilderFlags.fp16 ||| BuilderFlags.bf16 ||| BuilderFlags.int8 ||| BuilderFlags.fp8 |||
      BuilderFlags.tf32

/-- Whether an engine can be refitted. -/
inductive RefitPolicy
  | disabled
  | onDemand
  | weightsStreaming
  deriving DecidableEq, Repr

/-- The knobs a build reads. -/
structure IBuilderConfig where
  precision : Precision
  structuredSparsity : Bool
  refit : RefitPolicy
  workspaceBytes : ℕ
  extraFlags : UInt32
  deriving DecidableEq, Repr

/-- The flags of a configuration. -/
def IBuilderConfig.effectiveFlags (c : IBuilderConfig) : UInt32 :=
  let f := c.precision.flags ||| c.extraFlags
  let f := if c.structuredSparsity then f ||| BuilderFlags.sparseWeights else f
  match c.refit with
  | .disabled => f
  | .onDemand => f ||| BuilderFlags.refit
  | .weightsStreaming => f ||| (BuilderFlags.refit ||| BuilderFlags.stripPlan)

/-- The flags a build replays, with the `nvinfer1::BuilderFlag` of each. -/
def replayedFlags : List (UInt32 × UInt32) :=
  [(BuilderFlags.fp16, 0), (BuilderFlags.int8, 1), (BuilderFlags.tf32, 6), (BuilderFlags.bf16, 13),
    (BuilderFlags.fp8, 14), (BuilderFlags.refit, 4), (BuilderFlags.sparseWeights, 7),
    (BuilderFlags.stripPlan, 15)]

/-- `atomr_trt_config_set_flag` for each flag that is asked for. -/
def setFlags (cfg : TrtHandle) (flags : UInt32) (s : Shim) : Shim :=
  replayedFlags.foldl (fun s flag => if flags &&& flag.1 = flag.1 then s.use cfg else s) s

/-- What the shim answers to one build; `plan` is empty for a null pointer or a length of zero. -/
structure BuildAnswers where
  builder : Bool
  network : Bool
  parser : Bool
  parseRc : Int
  numErrors : Int
  config : Bool
  hostMemory : Bool
  plan : List UInt8
  deriving DecidableEq, Repr

/-- A serialized engine. -/
structure EnginePlan where
  bytes : List UInt8
  deriving DecidableEq, Repr

/-- The `cleanup` of a build. -/
def cleanup (cfg parser builder : TrtHandle) (s : Shim) : Shim :=
  ((s.destroy cfg).destroy parser).destroy builder

/-- `build_from_onnx` from the config on. -/
def buildConfigured (config : IBuilderConfig) (a : BuildAnswers)
    (builder network parser cfg : TrtHandle) (s : Shim) : Except TrtError EnginePlan × Shim :=
  let s := setFlags cfg config.effectiveFlags s
  let s := if 0 < config.workspaceBytes then s.use cfg else s
  match created .hostMemory a.hostMemory (((s.use builder).use network).use cfg) with
  | (none, s) =>
    (.error (.build "buildSerializedNetwork returned null"), cleanup cfg parser builder s)
  | (some hostMem, s) =>
    let s := (s.use hostMem).use hostMem
    let s := cleanup cfg parser builder (s.destroy hostMem)
    if a.plan.isEmpty then (.error (.build "serialised plan was empty"), s)
    else (.ok ⟨a.plan⟩, s)

/-- Build an engine, and clean up behind it. -/
def buildFromOnnx (config : IBuilderConfig) (a : BuildAnswers) (s : Shim) :
    Except TrtError EnginePlan × Shim :=
  match created .builder a.builder s with
  | (none, s) => (.error (.build "builder_create returned null"), s)
  | (some builder, s) =>
    match created .network a.network (s.use builder) with
    | (none, s) => (.error (.build "create_network returned null"), s.destroy builder)
    | (some network, s) =>
      match created .parser a.parser (s.use network) with
      | (none, s) => (.error (.onnx "onnx_parser_create returned null"), s.destroy builder)
      | (some parser, s) =>
        let s := s.use parser
        if a.parseRc = 0 then
          let s := s.use parser
          (.error (.onnx ("onnx parse failed (rc=" ++ toString a.parseRc ++ ", errors=" ++
            toString a.numErrors ++ ")")), (s.destroy parser).destroy builder)
        else
          match created .config a.config (s.use builder) with
          | (none, s) => (.error (.build "builder_create_config returned null"),
              (s.destroy parser).destroy builder)
          | (some cfg, s) => buildConfigured config a builder network parser cfg s

/-! ### Runtimes and engines -/

/-- `TrtRuntime::new`, by its handle. -/
def newRuntime (nonNull : Bool) (s : Shim) : Except TrtError TrtHandle × Shim :=
  match created .runtime nonNull s with
  | (none, s) => (.error (.runtime "runtime create returned null"), s)
  | (some raw, s) => (.ok raw, s)

/-- `runtime` is not a field of the source: it is the runtime that deserialised the engine. -/
structure TrtEngine where
  raw : TrtHandle
  numIo : ℕ
  runtime : TrtHandle
  deriving DecidableEq, Repr

/-- `TrtRuntime::deserialize`; `numIo` is the answer of `atomr_trt_engine_num_io_tensors`, cast to
`usize`. -/
def deserialize (runtime : TrtHandle) (nonNull : Bool) (numIo : Int) (s : Shim) :
    Except TrtError TrtEngine × Shim :=
  match created .engine nonNull (s.use runtime) with
  | (none, s) => (.error (.runtime "deserialize returned null"), s)
  | (some raw, s) => (.ok ⟨raw, (numIo % 2 ^ 64).toNat, runtime⟩, s.use raw)

/-- The actor, with its runtime once there is one. -/
structure TrtActor where
  runtime : Option TrtHandle
  deriving DecidableEq, Repr

/-- `ensure_runtime`. -/
def TrtActor.ensureRuntime (actor : TrtActor) (nonNull : Bool) (s : Shim) :
    Except TrtError Unit × TrtActor × Shim :=
  match actor.runtime with
  | some _ => (.ok (), actor, s)
  | none =>
    match newRuntime nonNull s with
    | (.error e, s) => (.error e, actor, s)
    | (.ok raw, s) => (.ok (), ⟨some raw⟩, s)

/-- The drop of the actor. -/
def TrtActor.drop (actor : TrtActor) (s : Shim) : Shim :=
  match actor.runtime with
  | some raw => s.destroy raw
  | none => s

/-! ### Inferences -/

/-- What the shim answers to one inference; the codes are those of the calls in order. -/
structure ExecuteAnswers where
  context : Bool
  setInputShape : ℕ → Int
  setTensorAddress : ℕ → Int
  enqueue : Int

/-- The error of `CString::new`. -/
def nulError (pos : ℕ) : TrtError :=
  .invalidArg ("tensor name contains NUL: nul byte found in provided data at position: " ++
    toString pos)

/-- `set_input_shape` for the shapes from the `i`-th on; names are their bytes.  An error destroys
the context. -/
def setInputShapes (ctx : TrtHandle) (rc : ℕ → Int) (debug display : List UInt8 → String) (i : ℕ) :
    List (List UInt8 × List Int32) → Shim → Except TrtError Unit × Shim
  | [], s => (.ok (), s)
  | (name, dims) :: rest, s =>
    if 8 < dims.length then
      (.error (.invalidArg ("tensor " ++ debug name ++
        ": TensorRT supports at most 8 dims (got " ++ toString dims.length ++ ")")),
        s.destroy ctx)
    else
      match name.findIdx? (· = 0) with
      | some pos => (.error (nulError pos), s.destroy ctx)
      | none =>
        let s := s.use ctx
        if rc i ≠ 0 then
          (.error (.execution ("set_input_shape(" ++ display name ++ ") returned " ++
            toString (rc i))), s.destroy ctx)
        else setInputShapes ctx rc debug display (i + 1) rest s

/-- `set_tensor_address` for the bindings from the `i`-th on. -/
def setTensorAddresses (ctx : TrtHandle) (rc : ℕ → Int) (display : List UInt8 → String) (i : ℕ) :
    List (List UInt8 × UInt64) → Shim → Except TrtError Unit × Shim
  | [], s => (.ok (), s)
  | (name, _) :: rest, s =>
    match name.findIdx? (· = 0) with
    | some pos => (.error (nulError pos), s.destroy ctx)
    | none =>
      let s := s.use ctx
      if rc i ≠ 0 then
        (.error (.execution ("set_tensor_address(" ++ display name ++ ") returned " ++
          toString (rc i))), s.destroy ctx)
      else setTensorAddresses ctx rc display (i + 1) rest s

/-- `execute` up to and including `enqueueV3`: an error for which the context is gone, or the
context and the result to return once it is destroyed. -/
def execute (engine : TrtHandle) (bindings : List (List UInt8 × UInt64))
    (inputShapes : List (List UInt8 × List Int32)) (debug display : List UInt8 → String)
    (a : ExecuteAnswers) (s : Shim) :
    Except TrtError (TrtHandle × Except TrtError Unit) × Shim :=
  match created .context a.context (s.use engine) with
  | (none, s) => (.error (.execution "createExecutionContext returned null"), s)
  | (some ctx, s) =>
    match setInputShapes ctx a.setInputShape debug display 0 inputShapes s with
    | (.error e, s) => (.error e, s)
    | (.ok (), s) =>
      match setTensorAddresses ctx a.setTensorAddress display 0 bindings s with
      | (.error e, s) => (.error e, s)
      | (.ok (), s) =>
        let result := if a.enqueue ≠ 0 then
            .error (.execution ("enqueueV3 returned " ++ toString a.enqueue))
          else .ok ()
        (.ok (ctx, result), s.use ctx)

/-! ### What they hold -/

section Holds

variable {s : Shim} {own : List TrtHandle}

theorem setFlags_holds {cfg : TrtHandle} (h : Holds s own) (hcfg : cfg ∈ own) (flags : UInt32) :
    Holds (setFlags cfg flags s) own := by
  unfold setFlags
  induction replayedFlags generalizing s with
  | nil => exact h
  | cons flag rest ih =>
    rw [List.foldl_cons]
    split
    · exact ih (h.use hcfg)
    · exact ih h

variable {builder network parser cfg : TrtHandle}

theorem cleanup_holds (h : Holds s (cfg :: parser :: network :: builder :: own)) :
    Holds (cleanup cfg parser builder s) (network :: own) :=
  (h.destroy.destroy.perm (List.Perm.swap builder network own)).destroy

theorem buildConfigured_holds (config : IBuilderConfig) (a : BuildAnswers)
    (h : Holds s (cfg :: parser :: network :: builder :: own)) :
    Holds (buildConfigured config a builder network parser cfg s).2 (network :: own) := by
  have hflags := setFlags_holds h List.mem_cons_self config.effectiveFlags
  have hlimit : Holds (if 0 < config.workspaceBytes
      then (setFlags cfg config.effectiveFlags s).use cfg
      else setFlags cfg config.effectiveFlags s) (cfg :: parser :: network :: builder :: own) := by
    split
    · exact hflags.use List.mem_cons_self
    · exact hflags
  have hbuild := ((hlimit.use (h := builder) (by simp)).use (h := network) (by simp)).use
    (h := cfg) List.mem_cons_self
  unfold buildConfigured created
  cases a.hostMemory with
  | false => exact cleanup_holds hbuild
  | true =>
    have hmem := ((hbuild.create .hostMemory).use List.mem_cons_self).use List.mem_cons_self
    have hdone := cleanup_holds hmem.destroy
    simp only [if_true]
    split
    · exact hdone
    · exact hdone

/-- The network of a build that gets that far. -/
def BuildAnswers.leak (a : BuildAnswers) (s : Shim) : List TrtHandle :=
  if a.builder && a.network then [⟨.network, s.next + 1⟩] else []

/-- A build leaves behind its network, if it has one, and nothing else. -/
theorem buildFromOnnx_holds (config : IBuilderConfig) (a : BuildAnswers) (h : Holds s own) :
    Holds (buildFromOnnx config a s).2 (a.leak s ++ own) := by
  obtain ⟨builder, network, parser, parseRc, numErrors, cfg, hostMemory, plan⟩ := a
  cases builder with
  | false => exact h
  | true =>
    have hbuilder := (h.create .builder).use List.mem_cons_self
    cases network with
    | false => exact hbuilder.destroy
    | true =>
      have hnetwork := (hbuilder.create .network).use List.mem_cons_self
      cases parser with
      | false => exact (hnetwork.perm (List.Perm.swap _ _ _)).destroy
      | true =>
        have hparser := (hnetwork.create .parser).use List.mem_cons_self
        simp only [buildFromOnnx, created, if_true]
        split
        · exact ((hparser.use List.mem_cons_self).destroy.perm (List.Perm.swap _ _ _)).destroy
        · have hparsed := hparser.use (h := s.fresh .builder) (by simp [use, create, fresh])
          cases cfg with
          | false => exact (hparsed.destroy.perm (List.Perm.swap _ _ _)).destroy
          | true => exact buildConfigured_holds config _ (hparsed.create .config)

variable {ctx : TrtHandle}

/-- What is held besides `own` when a part of an inference is over: an error has destroyed the
context. -/
def heldAfter {α : Type} (ctx : TrtHandle) (own : List TrtHandle) : Except TrtError α →
    List TrtHandle
  | .error _ => own
  | .ok _ => ctx :: own

theorem setInputShapes_holds (rc : ℕ → Int) (debug display : List UInt8 → String) (i : ℕ)
    (shapes : List (List UInt8 × List Int32)) (h : Holds s (ctx :: own)) :
    Holds (setInputShapes ctx rc debug display i shapes s).2
      (heldAfter ctx own (setInputShapes ctx rc debug display i shapes s).1) := by
  induction shapes generalizing i s with
  | nil => exact h
  | cons shape rest ih =>
    obtain ⟨name, dims⟩ := shape
    have huse := h.use List.mem_cons_self
    rw [setInputShapes]
    split
    · exact h.destroy
    · split
      · exact h.destroy
      · simp only
        split
        · exact huse.destroy
        · exact ih (i + 1) huse

theorem setTensorAddresses_holds (rc : ℕ → Int) (display : List UInt8 → String) (i : ℕ)
    (bindings : List (List UInt8 × UInt64)) (h : Holds s (ctx :: own)) :
    Holds (setTensorAddresses ctx rc display i bindings s).2
      (heldAfter ctx own (setTensorAddresses ctx rc display i bindings s).1) := by
  induction bindings generalizing i s with
  | nil => exact h
  | cons binding rest ih =>
    obtain ⟨name, address⟩ := binding
    have huse := h.use List.mem_cons_self
    rw [setTensorAddresses]
    split
    · exact h.destroy
    · simp only
      split
      · exact huse.destroy
      · exact ih (i + 1) huse

/-- The context an inference leaves to its last line. -/
def contextOf : Except TrtError (TrtHandle × Except TrtError Unit) → List TrtHandle
  | .error _ => []
  | .ok (ctx, _) => [ctx]

/-- An inference holds its context when it gets to its last line, and nothing when it does not. -/
theorem execute_holds {engine : TrtHandle} (bindings : List (List UInt8 × UInt64))
    (inputShapes : List (List UInt8 × List Int32)) (debug display : List UInt8 → String)
    (a : ExecuteAnswers) (h : Holds s own) (hengine : engine ∈ own) :
    Holds (execute engine bindings inputShapes debug display a s).2
      (contextOf (execute engine bindings inputShapes debug display a s).1 ++ own) := by
  have huse := h.use hengine
  unfold execute created
  cases a.context with
  | false => exact huse
  | true =>
    simp only [if_true]
    have hshapes := setInputShapes_holds a.setInputShape debug display 0 inputShapes
      (huse.create .context)
    rcases hresult : setInputShapes ((s.use engine).fresh .context) a.setInputShape debug display 0
      inputShapes ((s.use engine).create .context) with ⟨_ | ⟨⟩, s'⟩
    · rw [hresult] at hshapes
      exact hshapes
    · rw [hresult] at hshapes
      have hbound := setTensorAddresses_holds a.setTensorAddress display 0 bindings hshapes
      simp only
      rcases hresult' : setTensorAddresses ((s.use engine).fresh .context) a.setTensorAddress
        display 0 bindings s' with ⟨_ | ⟨⟩, s''⟩
      · rw [hresult'] at hbound
        exact hbound
      · rw [hresult'] at hbound
        exact hbound.use List.mem_cons_self

end Holds

end Trt

end AtomrAccel
