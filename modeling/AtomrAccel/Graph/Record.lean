import AtomrAccel.Lib.Transition
import AtomrAccel.Device.WriteRequest

/-!
# `graph` and `kernel::record`

`GraphActor` drives a script of operations while its stream is in capture mode, and replays the
captured graph on request.  A `GraphHandle` owns the graph and no buffer, so the graph is safe to
replay only as long as somebody else keeps what its nodes point to.  A recorder would release its
destination when it returns; none gets that far, because each unwraps a clone of the buffer beside
the `GpuRef` it holds.

* `enqueueRecord`: the body that the four recorders share;
* `GraphOp.record`: the operations and their two wrappers;
* `World`, `step`: the actor, its clients with their references and handles, and the replays;
* `GraphOp.record_ne_ok`: an operation that owns its references is never recorded;
* `recordedOwned_along`: in every run, what the nodes of a handle point to is owned.
-/

namespace AtomrAccel

namespace Graph

/-! ### Recorders -/

/-- `cublasOperation_t` is `CUBLAS_OP_N` on both sides; the scalars are bit patterns of `f32`. -/
structure GemmConfig where
  m : Int32
  n : Int32
  k : Int32
  alpha : UInt32
  lda : Int32
  ldb : Int32
  beta : UInt32
  ldc : Int32
  deriving DecidableEq

/-- The call that puts a node into the capture. -/
inductive LibCall
  | gemm (cfg : GemmConfig)
  | memcpyDtod
  | fillWithUniform
  | execR2C
  deriving DecidableEq

/-- What a call is answered with. -/
abbrev Answers := LibCall → Except String Unit

/-- A captured node with the buffers whose addresses are in it. -/
structure GraphNode where
  call : LibCall
  reads : List CudaSlice
  dst : CudaSlice
  deriving DecidableEq

/-- The buffers a node points to. -/
def GraphNode.addresses (node : GraphNode) : List CudaSlice := node.dst :: node.reads

open Handler

/-- The shape of every `enqueue_record`: clone the sources and the destination, unwrap the
destination, make the call.  The clones end with the function. -/
def enqueueRecord (answers : Answers) (call : LibCall) (sources : List GpuRef) (dst : GpuRef)
    (liveText lib what : String) : Handler GraphNode := do
  let reads ← sources.mapM accessClone
  let dstSlice ← accessClone dst
  tryUnwrap dstSlice liveText
  orReply ((answers call).mapError fun e => .libraryError lib (what ++ ": " ++ e))
  return ⟨call, reads, dstSlice⟩

/-- A product of matrices, as it is recorded. -/
structure BlasSgemmOp where
  a : GpuRef
  b : GpuRef
  c : GpuRef
  m : Int32
  n : Int32
  k : Int32
  alpha : UInt32
  beta : UInt32
  deriving DecidableEq

def BlasSgemmOp.cfg (op : BlasSgemmOp) : GemmConfig where
  m := op.m
  n := op.n
  k := op.k
  alpha := op.alpha
  lda := op.m
  ldb := op.k
  beta := op.beta
  ldc := op.m

/-- `BlasRecorder::enqueue_record`. -/
def BlasRecorder.enqueueRecord (answers : Answers) (op : BlasSgemmOp) : Handler GraphNode :=
  Graph.enqueueRecord answers (.gemm op.cfg) [op.a, op.b] op.c
    "BlasRecorder: C has multiple live references" "cublas" "record gemm"

/-- The operations with one source and one destination. -/
structure CopyOp where
  src : GpuRef
  dst : GpuRef
  deriving DecidableEq

/-- `MemcpyRecorder::enqueue_record`. -/
def MemcpyRecorder.enqueueRecord (answers : Answers) (op : CopyOp) : Handler GraphNode :=
  Graph.enqueueRecord answers .memcpyDtod [op.src] op.dst
    "MemcpyRecorder: dst has multiple refs" "driver" "record memcpy_dtod"

/-- `FftRecorder::enqueue_record`. -/
def FftRecorder.enqueueRecord (answers : Answers) (op : CopyOp) : Handler GraphNode :=
  Graph.enqueueRecord answers .execR2C [op.src] op.dst
    "FftRecorder: dst has multiple refs" "cufft" "record exec_r2c"

/-- `RngRecorder::enqueue_record`. -/
def RngRecorder.enqueueRecord (answers : Answers) (dst : GpuRef) : Handler GraphNode :=
  Graph.enqueueRecord answers .fillWithUniform [] dst
    "RngRecorder: dst has multiple refs" "curand" "record fill_uniform"

/-! ### Operations of a script -/

/-- Which handles a recording has. -/
structure GraphRecordCtx where
  stream : Bool
  blas : Bool
  rng : Bool
  fft : Bool
  deriving DecidableEq, Repr

/-- A capture needs a stream. -/
def GraphRecordCtx.requireStream (ctx : GraphRecordCtx) : Handler Unit :=
  require ctx.stream (.unrecoverable "GraphRecordCtx: no captured stream available")

/-- `self.inner.take()`. -/
def takeInner {α : Type} (inner : Option α) (name : String) : Handler α :=
  match inner with
  | some op => pure op
  | none => throw (.reply (.unrecoverable (name ++ "::record: already consumed")))

/-- A product to record, taken out when it is recorded. -/
structure SgemmOp where
  inner : Option BlasSgemmOp
  deriving DecidableEq

/-- `SgemmOp::record`. -/
def SgemmOp.record (ctx : GraphRecordCtx) (answers : Answers) (op : SgemmOp) :
    Handler GraphNode := do
  ctx.requireStream
  require ctx.blas (.unrecoverable "SgemmOp::record: cuBLAS handle not available in ctx")
  let op ← takeInner op.inner "SgemmOp"
  BlasRecorder.enqueueRecord answers op

/-- A copy to record, taken out when it is recorded. -/
structure MemcpyOp where
  inner : Option CopyOp
  deriving DecidableEq

/-- `MemcpyOp::record`. -/
def MemcpyOp.record (ctx : GraphRecordCtx) (answers : Answers) (op : MemcpyOp) :
    Handler GraphNode := do
  ctx.requireStream
  let op ← takeInner op.inner "MemcpyOp"
  MemcpyRecorder.enqueueRecord answers op

/-- A buffer to fill, taken out when it is recorded. -/
structure RngFillUniformOp where
  inner : Option GpuRef
  deriving DecidableEq

/-- `RngFillUniformOp::record`. -/
def RngFillUniformOp.record (ctx : GraphRecordCtx) (answers : Answers) (op : RngFillUniformOp) :
    Handler GraphNode := do
  ctx.requireStream
  require ctx.rng (.unrecoverable "RngFillUniformOp::record: cuRAND handle not available in ctx")
  let dst ← takeInner op.inner "RngFillUniformOp"
  RngRecorder.enqueueRecord answers dst

/-- A transform to record, taken out when it is recorded. -/
structure FftR2COp where
  inner : Option CopyOp
  deriving DecidableEq

/-- `FftR2COp::record`. -/
def FftR2COp.record (ctx : GraphRecordCtx) (answers : Answers) (op : FftR2COp) :
    Handler GraphNode := do
  ctx.requireStream
  require ctx.fft (.unrecoverable
    "FftR2COp::record: no cuFFT plan installed; call GraphMsg::SetFftPlan first")
  let op ← takeInner op.inner "FftR2COp"
  FftRecorder.enqueueRecord answers op

/-- The types that implement `GraphOp`, as the closed enum lists them. -/
inductive GraphOpLegacy
  | sgemm (op : SgemmOp)
  | memcpy (op : MemcpyOp)
  | rngFillUniform (op : RngFillUniformOp)
  | fftR2C (op : FftR2COp)
  deriving DecidableEq

namespace GraphOpLegacy

/-- Record an operation into the capture. -/
def record (ctx : GraphRecordCtx) (answers : Answers) : GraphOpLegacy → Handler GraphNode
  | sgemm op => op.record ctx answers
  | memcpy op => op.record ctx answers
  | rngFillUniform op => op.record ctx answers
  | fftR2C op => op.record ctx answers

/-- The name of an operation. -/
def opName : GraphOpLegacy → String
  | sgemm _ => "graph::sgemm"
  | memcpy _ => "graph::memcpy"
  | rngFillUniform _ => "graph::rng_fill_uniform"
  | fftR2C _ => "graph::fft_r2c"

/-- The references the operation holds until it is consumed. -/
def refs : GraphOpLegacy → List GpuRef
  | sgemm ⟨inner⟩ => inner.toList.flatMap fun op => [op.a, op.b, op.c]
  | memcpy ⟨inner⟩ => inner.toList.flatMap fun op => [op.src, op.dst]
  | rngFillUniform ⟨inner⟩ => inner.toList
  | fftR2C ⟨inner⟩ => inner.toList.flatMap fun op => [op.src, op.dst]

end GraphOpLegacy

/-- An element of a script: an implementation itself, the enum around it, or a box of either. -/
inductive GraphOp
  | direct (op : GraphOpLegacy)
  | legacy (op : GraphOpLegacy)
  | boxed (op : GraphOp)
  deriving DecidableEq

namespace GraphOp

def record (ctx : GraphRecordCtx) (answers : Answers) : GraphOp → Handler GraphNode
  | direct op => op.record ctx answers
  | legacy op => op.record ctx answers
  | boxed op => op.record ctx answers

def opName : GraphOp → String
  | direct op => op.opName
  | legacy op => op.opName
  | boxed op => op.opName

/-- The references an operation holds. -/
def refs : GraphOp → List GpuRef
  | direct op => op.refs
  | legacy op => op.refs
  | boxed op => op.refs

end GraphOp

/-- The references a script holds. -/
def scriptRefs (script : List GraphOp) : List GpuRef := script.flatMap GraphOp.refs

/-! ### The actor among its clients -/

/-- What `end_capture` leaves: the instantiated graph. -/
structure CudaGraph where
  nodes : List GraphNode
  deriving DecidableEq

/-- The buffers the nodes point to. -/
def CudaGraph.addresses (graph : CudaGraph) : List CudaSlice :=
  graph.nodes.flatMap GraphNode.addresses

/-- A recorded graph, with the generation of its context. -/
structure GraphHandle where
  graph : Option CudaGraph
  generation : ℕ
  deriving DecidableEq

namespace GraphHandle

def syntheticForTests : GraphHandle := ⟨none, 0⟩

/-- The buffers the graph of a handle points to. -/
def addresses (handle : GraphHandle) : List CudaSlice :=
  handle.graph.toList.flatMap CudaGraph.addresses

/-- What a handle owns besides the graph: it has a generation and two raw pointers, and neither
`CudaGraph` nor `SendGraph` has a buffer or a `GpuRef` in it. -/
def keeps (_ : GraphHandle) : List CudaSlice := []

end GraphHandle

/-- How the start of a capture ends. -/
inductive BeginCapture
  | ok
  | error (e : String)
  | panicked
  deriving DecidableEq

/-- What goes back on the reply channels. -/
inductive GraphReply
  | record (result : Except GpuError GraphHandle)
  | launch (result : Except GpuError Unit)
  | setFftPlan

/-- The stream is in capture mode. -/
structure Capture where
  /-- what is left of the script -/
  script : List GraphOp
  nodes : List GraphNode

/-- The actor with its device: what it has been given, the capture in work and the replays. -/
structure World where
  /-- no driver: every request is refused -/
  mock : Bool
  blas : Bool
  rng : Bool
  fft : Bool
  generation : ℕ
  capture : Option Capture
  /-- replays that have not completed -/
  running : List CudaGraph
  /-- the live handles, all outside the actor -/
  handles : List GraphHandle
  /-- the `GpuRef`s that are in no script of the actor -/
  clients : List GpuRef
  inner : GpuRef → GpuRefInner
  states : GpuRef → Option DeviceState
  /-- the clones of buffers that other requests have taken -/
  slices : List CudaSlice
  replies : List GraphReply

/-- The steps of the actor and its device. -/
inductive GraphLabel
  | record (script : List GraphOp) (begin : BeginCapture)
  | recordOp (answers : Answers)
  /-- with whether there is a graph -/
  | endCapture (result : Except String Bool)
  | setFftPlan
  | launch (handle : GraphHandle) (result : Except String Unit)
  | completes (graph : CudaGraph) (result : Except GpuError Unit)
  | cloneHandle (handle : GraphHandle)
  | dropHandle (handle : GraphHandle)
  | synthetic
  | cloneRef (r : GpuRef)
  | dropRef (r : GpuRef)
  | cloneSlice (r : GpuRef)
  | dropSlice (s : CudaSlice)
  | allocate (r : GpuRef) (inner : GpuRefInner)
  | deviceChanges (states : GpuRef → Option DeviceState) (generation : ℕ)

namespace World

/-- What is left of the script in the actor. -/
def script (w : World) : List GraphOp := w.capture.toList.flatMap Capture.script

/-- All live handles on buffers. -/
def heap (w : World) : Heap := ⟨w.clients ++ scriptRefs w.script, w.inner, w.states, w.slices⟩

/-- What a recording can use. -/
def ctx (w : World) : GraphRecordCtx := ⟨true, w.blas, w.rng, w.fft⟩

/-- A reply is sent. -/
def send (w : World) (reply : GraphReply) : World := { w with replies := w.replies ++ [reply] }

/-- The request is refused or fails; what is left of its script goes with it. -/
def bail (w : World) (e : GpuError) : World :=
  { w with capture := none }.send (.record (.error e))

/-- The answer without a device. -/
def mockError : GpuError := .unrecoverable "GraphActor in mock mode"

/-- The clients give their references away with the script. -/
def give (w : World) (script : List GraphOp) : World :=
  { w with clients := w.clients.diff (scriptRefs script) }

/-- `GraphMsg::Record` up to the loop. -/
def beginRecord (w : World) (script : List GraphOp) (begin : BeginCapture) : World :=
  if w.mock then w.bail mockError
  else
    match begin with
    | .ok => { w with capture := some ⟨script, []⟩ }
    | .error e => w.bail (.libraryError "graph" ("begin_capture: " ++ e))
    | .panicked => w.bail (.unrecoverable "GraphActor::Record: CUDA driver not loadable")

/-- One turn of the loop.  An operation that was recorded has dropped what it held. -/
def recordOp (w : World) (op : GraphOp) (rest : List GraphOp) (nodes : List GraphNode)
    (answers : Answers) : World :=
  match op.record w.ctx answers w.heap with
  | .ok (node, _) => { w with capture := some ⟨rest, nodes ++ [node]⟩ }
  | .error (.reply e) => w.bail e
  -- no operation panics; the reply would be lost with the actor
  | .error (.panic _) => { w with capture := none }

/-- The end of the loop. -/
def endCapture (w : World) (nodes : List GraphNode) (result : Except String Bool) : World :=
  match result with
  | .ok true =>
    let handle : GraphHandle := ⟨some ⟨nodes⟩, w.generation⟩
    { w with capture := none, handles := handle :: w.handles }.send (.record (.ok handle))
  | .ok false => w.bail (.libraryError "graph" "end_capture returned None")
  | .error e => w.bail (.libraryError "graph" ("end_capture: " ++ e))

/-- `GraphMsg::Launch`. -/
def launch (w : World) (handle : GraphHandle) (result : Except String Unit) : World :=
  if w.mock then w.send (.launch (.error mockError))
  else if handle.generation ≠ w.generation then
    w.send (.launch (.error (.gpuRefStale "graph captured against rebuilt context")))
  else
    match handle.graph with
    | none =>
      w.send (.launch (.error (.unrecoverable
        "GraphActor::Launch: synthetic GraphHandle has no captured graph")))
    | some graph =>
      match result with
      | .ok () => { w with running := graph :: w.running }
      | .error e => w.send (.launch (.error (.libraryError "graph" ("launch: " ++ e))))

/-- One step of the actor, of a replay, or of a client.  The actor takes its messages one at a
time. -/
def step (w : World) : GraphLabel → Option World
  | .record script begin =>
    if w.capture.isNone ∧ (scriptRefs script).Subperm w.clients then
      some ((w.give script).beginRecord script begin)
    else none
  | .recordOp answers =>
    match w.capture with
    | some ⟨op :: rest, nodes⟩ => some (w.recordOp op rest nodes answers)
    | _ => none
  | .endCapture result =>
    match w.capture with
    | some ⟨[], nodes⟩ => some (w.endCapture nodes result)
    | _ => none
  | .setFftPlan =>
    if w.capture.isNone then some ({ w with fft := !w.mock }.send .setFftPlan) else none
  | .launch handle result =>
    if w.capture.isNone ∧ handle ∈ w.handles then some (w.launch handle result) else none
  | .completes graph result =>
    if graph ∈ w.running then
      some ({ w with running := w.running.erase graph }.send (.launch result))
    else none
  | .cloneHandle handle =>
    if handle ∈ w.handles then some { w with handles := handle :: w.handles } else none
  | .dropHandle handle =>
    if handle ∈ w.handles then some { w with handles := w.handles.erase handle } else none
  | .synthetic => some { w with handles := .syntheticForTests :: w.handles }
  | .cloneRef r => if r ∈ w.clients then some { w with clients := r :: w.clients } else none
  | .dropRef r => if r ∈ w.clients then some { w with clients := w.clients.erase r } else none
  | .cloneSlice r =>
    if r ∈ w.clients then some { w with slices := (w.inner r).slice :: w.slices } else none
  | .dropSlice s => if s ∈ w.slices then some { w with slices := w.slices.erase s } else none
  | .allocate r inner =>
    if r ∈ w.heap.refs then none
    else some { w with clients := r :: w.clients, inner := Function.update w.inner r inner }
  | .deviceChanges states generation => some { w with states, generation }

/-- No script, no handle and no plan yet; anything may be held outside the actor. -/
def create (mock blas rng : Bool) (generation : ℕ) (clients : List GpuRef)
    (inner : GpuRef → GpuRefInner) (states : GpuRef → Option DeviceState)
    (slices : List CudaSlice) : World :=
  { mock, blas, rng, fft := false, generation, capture := none, running := [], handles := [],
    clients, inner, states, slices, replies := [] }

/-- The actor with its device. -/
def system (init : World) : Transition.System World GraphLabel := ⟨init, step⟩

/-- Somebody keeps the buffer. -/
def Owned (w : World) (s : CudaSlice) : Prop :=
  (∃ handle ∈ w.handles, s ∈ handle.keeps) ∨ 0 < w.heap.strong s

/-- A live handle keeps what the nodes of its graph point to, and no replay touches a buffer that
nobody keeps. -/
structure RecordedOwned (w : World) : Prop where
  handles : ∀ handle ∈ w.handles, ∀ s ∈ handle.addresses, s ∈ handle.keeps
  running : ∀ graph ∈ w.running, ∀ s ∈ graph.addresses, w.Owned s

end World

/-! ### Why nothing is recorded -/

variable {h h' : Heap} {ctx : GraphRecordCtx} {answers : Answers}

theorem mapM_accessClone_refs {sources : List GpuRef} {reads : List CudaSlice}
    (hreads : sources.mapM accessClone h = .ok (reads, h')) : h'.refs = h.refs := by
  induction sources generalizing h reads with
  | nil =>
    cases hreads
    rfl
  | cons r sources ih =>
    rw [List.mapM_cons, bind_eq_ok] at hreads
    obtain ⟨s, h₁, hs, hreads⟩ := hreads
    obtain ⟨rest, h₂, hrest, hreads⟩ := bind_eq_ok.1 hreads
    cases hreads
    obtain ⟨-, rfl⟩ := accessClone_eq_ok hs
    have hkept := ih hrest
    rw [Heap.clone_refs] at hkept
    exact hkept

theorem mapM_accessClone_of_valid (sources : List GpuRef) (h : Heap)
    (hvalid : ∀ r ∈ sources, (h.inner r).access (h.state r) = .ok (h.inner r).slice) :
    ∃ reads slices, sources.mapM accessClone h = .ok (reads, { h with slices }) := by
  induction sources generalizing h with
  | nil => exact ⟨[], h.slices, rfl⟩
  | cons r sources ih =>
    obtain ⟨hr, hrest⟩ := List.forall_mem_cons.1 hvalid
    obtain ⟨reads, slices, hreads⟩ := ih (h.clone (h.inner r).slice) hrest
    refine ⟨(h.inner r).slice :: reads, slices, ?_⟩
    rw [List.mapM_cons]
    refine (bind_of_ok (accessClone_of_valid hr) _).trans ?_
    exact bind_of_ok hreads _

/-- The shared body stops at its unwrap while the `GpuRef` of the destination is alive. -/
theorem enqueueRecord_ne_ok {call : LibCall} {sources : List GpuRef} {dst : GpuRef}
    {liveText lib what : String} {node : GraphNode} (hdst : dst ∈ h.refs) :
    enqueueRecord answers call sources dst liveText lib what h ≠ .ok (node, h') := by
  intro hok
  obtain ⟨reads, h₁, hreads, hok⟩ := bind_eq_ok.1 hok
  obtain ⟨s, h₂, hs, hok⟩ := bind_eq_ok.1 hok
  obtain ⟨⟨⟩, h₃, hunwrap, -⟩ := bind_eq_ok.1 hok
  rw [← mapM_accessClone_refs hreads] at hdst
  exact tryUnwrap_accessClone_ne_ok hdst hs liveText hunwrap

/-- With valid references it stops with the error for a second owner. -/
theorem enqueueRecord_eq_liveText (answers : Answers) (call : LibCall) {sources : List GpuRef}
    {dst : GpuRef} (liveText lib what : String) (hdst : dst ∈ h.refs)
    (hvalid : ∀ r ∈ dst :: sources, (h.inner r).access (h.state r) = .ok (h.inner r).slice) :
    enqueueRecord answers call sources dst liveText lib what h
      = .error (.reply (.unrecoverable liveText)) := by
  obtain ⟨hd, hsources⟩ := List.forall_mem_cons.1 hvalid
  obtain ⟨reads, slices, hreads⟩ := mapM_accessClone_of_valid sources h hsources
  refine (bind_of_ok hreads _).trans ?_
  refine (bind_of_ok (accessClone_of_valid (h := { h with slices }) hd) _).trans ?_
  exact bind_of_error (tryUnwrap_of_alive (h := { h with slices }) hdst liveText) _

theorem takeInner_eq_ok {α : Type} {inner : Option α} {name : String} {op : α}
    (hok : takeInner inner name h = .ok (op, h')) : inner = some op ∧ h' = h := by
  cases inner with
  | none => cases hok
  | some op' =>
    cases hok
    exact ⟨rfl, rfl⟩

namespace GraphOpLegacy

/-- An operation that owns its references is never recorded, whatever the library says. -/
theorem record_ne_ok (op : GraphOpLegacy) {node : GraphNode} (hrefs : ∀ r ∈ op.refs, r ∈ h.refs) :
    op.record ctx answers h ≠ .ok (node, h') := by
  intro hok
  cases op with
  | sgemm op =>
    simp only [record, SgemmOp.record, bind_eq_ok] at hok
    obtain ⟨⟨⟩, h₁, hstream, ⟨⟩, h₂, hblas, op', h₃, htake, hok⟩ := hok
    obtain ⟨hinner, rfl⟩ := takeInner_eq_ok htake
    obtain rfl := require_eq_ok hblas
    obtain rfl := require_eq_ok hstream
    have hdst : op'.c ∈ h₃.refs := hrefs _ (by simp [refs, hinner])
    exact enqueueRecord_ne_ok hdst hok
  | memcpy op =>
    simp only [record, MemcpyOp.record, bind_eq_ok] at hok
    obtain ⟨⟨⟩, h₁, hstream, op', h₂, htake, hok⟩ := hok
    obtain ⟨hinner, rfl⟩ := takeInner_eq_ok htake
    obtain rfl := require_eq_ok hstream
    have hdst : op'.dst ∈ h₂.refs := hrefs _ (by simp [refs, hinner])
    exact enqueueRecord_ne_ok hdst hok
  | rngFillUniform op =>
    simp only [record, RngFillUniformOp.record, bind_eq_ok] at hok
    obtain ⟨⟨⟩, h₁, hstream, ⟨⟩, h₂, hrng, dst, h₃, htake, hok⟩ := hok
    obtain ⟨hinner, rfl⟩ := takeInner_eq_ok htake
    obtain rfl := require_eq_ok hrng
    obtain rfl := require_eq_ok hstream
    have hdst : dst ∈ h₃.refs := hrefs _ (by simp [refs, hinner])
    exact enqueueRecord_ne_ok hdst hok
  | fftR2C op =>
    simp only [record, FftR2COp.record, bind_eq_ok] at hok
    obtain ⟨⟨⟩, h₁, hstream, ⟨⟩, h₂, hfft, op', h₃, htake, hok⟩ := hok
    obtain ⟨hinner, rfl⟩ := takeInner_eq_ok htake
    obtain rfl := require_eq_ok hfft
    obtain rfl := require_eq_ok hstream
    have hdst : op'.dst ∈ h₃.refs := hrefs _ (by simp [refs, hinner])
    exact enqueueRecord_ne_ok hdst hok

/-- The handles the operation asks its context for. -/
def Ready (ctx : GraphRecordCtx) : GraphOpLegacy → Prop
  | sgemm op => ctx.stream = true ∧ ctx.blas = true ∧ op.inner.isSome
  | memcpy op => ctx.stream = true ∧ op.inner.isSome
  | rngFillUniform op => ctx.stream = true ∧ ctx.rng = true ∧ op.inner.isSome
  | fftR2C op => ctx.stream = true ∧ ctx.fft = true ∧ op.inner.isSome

/-- The text of the error for a destination with another owner. -/
def liveText : GraphOpLegacy → String
  | sgemm _ => "BlasRecorder: C has multiple live references"
  | memcpy _ => "MemcpyRecorder: dst has multiple refs"
  | rngFillUniform _ => "RngRecorder: dst has multiple refs"
  | fftR2C _ => "FftRecorder: dst has multiple refs"

/-- An operation that has all it needs is refused as if its destination were shared. -/
theorem record_eq_liveText (answers : Answers) (op : GraphOpLegacy) (hready : op.Ready ctx)
    (hrefs : ∀ r ∈ op.refs, r ∈ h.refs)
    (hvalid : ∀ r ∈ op.refs, (h.inner r).access (h.state r) = .ok (h.inner r).slice) :
    op.record ctx answers h = .error (.reply (.unrecoverable op.liveText)) := by
  cases op with
  | sgemm op =>
    obtain ⟨hstream, hblas, hsome⟩ := hready
    obtain ⟨⟨⟩ | op⟩ := op
    · cases hsome
    refine (bind_of_ok (require_of_true hstream _) _).trans ?_
    refine (bind_of_ok (require_of_true hblas _) _).trans ?_
    refine (bind_of_ok rfl _).trans ?_
    refine enqueueRecord_eq_liveText answers _ _ _ _ (hrefs _ (by simp [refs])) fun r hr => ?_
    exact hvalid r (by simp [refs] at hr ⊢; tauto)
  | memcpy op =>
    obtain ⟨hstream, hsome⟩ := hready
    obtain ⟨⟨⟩ | op⟩ := op
    · cases hsome
    refine (bind_of_ok (require_of_true hstream _) _).trans ?_
    refine (bind_of_ok rfl _).trans ?_
    refine enqueueRecord_eq_liveText answers _ _ _ _ (hrefs _ (by simp [refs])) fun r hr => ?_
    exact hvalid r (by simp [refs] at hr ⊢; tauto)
  | rngFillUniform op =>
    obtain ⟨hstream, hrng, hsome⟩ := hready
    obtain ⟨⟨⟩ | dst⟩ := op
    · cases hsome
    refine (bind_of_ok (require_of_true hstream _) _).trans ?_
    refine (bind_of_ok (require_of_true hrng _) _).trans ?_
    refine (bind_of_ok rfl _).trans ?_
    refine enqueueRecord_eq_liveText answers _ _ _ _ (hrefs _ (by simp [refs])) fun r hr => ?_
    exact hvalid r (by simpa [refs] using hr)
  | fftR2C op =>
    obtain ⟨hstream, hfft, hsome⟩ := hready
    obtain ⟨⟨⟩ | op⟩ := op
    · cases hsome
    refine (bind_of_ok (require_of_true hstream _) _).trans ?_
    refine (bind_of_ok (require_of_true hfft _) _).trans ?_
    refine (bind_of_ok rfl _).trans ?_
    refine enqueueRecord_eq_liveText answers _ _ _ _ (hrefs _ (by simp [refs])) fun r hr => ?_
    exact hvalid r (by simp [refs] at hr ⊢; tauto)

end GraphOpLegacy

namespace GraphOp

theorem record_ne_ok (op : GraphOp) {node : GraphNode} (hrefs : ∀ r ∈ op.refs, r ∈ h.refs) :
    op.record ctx answers h ≠ .ok (node, h') := by
  induction op with
  | direct op => exact op.record_ne_ok hrefs
  | legacy op => exact op.record_ne_ok hrefs
  | boxed op ih => exact ih hrefs

end GraphOp

namespace World

variable {w w' : World} {l : GraphLabel}

/-- No graph has a node. -/
structure Blank (w : World) : Prop where
  capture : ∀ c, w.capture = some c → c.nodes = []
  running : ∀ graph ∈ w.running, graph.addresses = []
  handles : ∀ handle ∈ w.handles, handle.addresses = []

theorem blank_create (mock blas rng : Bool) (generation : ℕ) (clients : List GpuRef)
    (inner : GpuRef → GpuRefInner) (states : GpuRef → Option DeviceState)
    (slices : List CudaSlice) :
    Blank (create mock blas rng generation clients inner states slices) where
  capture _ h := by cases h
  running _ h := by cases h
  handles _ h := by cases h

theorem Blank.send (hw : Blank w) (reply : GraphReply) : Blank (w.send reply) :=
  ⟨hw.capture, hw.running, hw.handles⟩

theorem Blank.idle (hw : Blank w) : Blank { w with capture := none } :=
  ⟨fun c hc => absurd hc.symm (Option.some_ne_none c), hw.running, hw.handles⟩

theorem Blank.bail (hw : Blank w) (e : GpuError) : Blank (w.bail e) := hw.idle.send _

theorem Blank.give (hw : Blank w) (script : List GraphOp) : Blank (w.give script) :=
  ⟨hw.capture, hw.running, hw.handles⟩

theorem Blank.beginRecord (hw : Blank w) (script : List GraphOp) (begin : BeginCapture) :
    Blank (w.beginRecord script begin) := by
  unfold World.beginRecord
  split_ifs with hmock
  · exact hw.bail _
  cases begin with
  | ok =>
    refine ⟨fun c hc => ?_, hw.running, hw.handles⟩
    cases hc
    rfl
  | error e => exact hw.bail _
  | panicked => exact hw.bail _

/-- The references of the next operation are alive in the actor. -/
theorem mem_refs_of_capture {op : GraphOp} {rest : List GraphOp} {nodes : List GraphNode}
    (hcapture : w.capture = some ⟨op :: rest, nodes⟩) {r : GpuRef} (hr : r ∈ op.refs) :
    r ∈ w.heap.refs := by
  have hscript : w.script = op :: rest := by simp [script, hcapture]
  refine List.mem_append_right _ ?_
  rw [hscript]
  exact List.mem_append_left _ hr

theorem Blank.recordOp {op : GraphOp} {rest : List GraphOp} {nodes : List GraphNode}
    (hw : Blank w) (hcapture : w.capture = some ⟨op :: rest, nodes⟩) (answers : Answers) :
    Blank (w.recordOp op rest nodes answers) := by
  unfold World.recordOp
  rcases hrecord : op.record w.ctx answers w.heap with (e | text) | ⟨node, h'⟩
  · exact hw.bail e
  · exact hw.idle
  · exact absurd hrecord (op.record_ne_ok fun _ hr => mem_refs_of_capture hcapture hr)

theorem Blank.endCapture (hw : Blank w) (result : Except String Bool) :
    Blank (w.endCapture [] result) := by
  rcases result with e | _ | _
  · exact hw.bail _
  · exact hw.bail _
  · refine ⟨hw.idle.capture, hw.running, fun handle hhandle => ?_⟩
    rcases List.mem_cons.1 hhandle with rfl | hold
    · rfl
    · exact hw.handles handle hold

theorem Blank.launch {handle : GraphHandle} (hw : Blank w) (hhandle : handle ∈ w.handles)
    (result : Except String Unit) : Blank (w.launch handle result) := by
  unfold World.launch
  split_ifs with hmock hstale
  · exact hw.send _
  · exact hw.send _
  cases hgraph : handle.graph with
  | none => exact hw.send _
  | some graph =>
    cases result with
    | error e => exact hw.send _
    | ok =>
      refine ⟨hw.capture, fun g hg => ?_, hw.handles⟩
      rcases List.mem_cons.1 hg with rfl | hold
      · have hblank := hw.handles handle hhandle
        simpa [GraphHandle.addresses, hgraph] using hblank
      · exact hw.running g hold

theorem blank_step (hw : Blank w) (hstep : w.step l = some w') : Blank w' := by
  cases l with
  | record script begin =>
    obtain ⟨-, ⟨⟩⟩ := Option.ite_none_right_eq_some.1 hstep
    exact (hw.give script).beginRecord script begin
  | recordOp answers =>
    rcases hcapture : w.capture with _ | ⟨_ | ⟨op, rest⟩, nodes⟩ <;>
      simp only [step, hcapture, reduceCtorEq] at hstep
    cases hstep
    exact hw.recordOp hcapture answers
  | endCapture result =>
    rcases hcapture : w.capture with _ | ⟨_ | ⟨op, rest⟩, nodes⟩ <;>
      simp only [step, hcapture, reduceCtorEq] at hstep
    cases hstep
    have hnodes : nodes = [] := hw.capture _ hcapture
    subst hnodes
    exact hw.endCapture result
  | setFftPlan =>
    obtain ⟨-, ⟨⟩⟩ := Option.ite_none_right_eq_some.1 hstep
    exact ⟨hw.capture, hw.running, hw.handles⟩
  | launch handle result =>
    obtain ⟨⟨-, hhandle⟩, ⟨⟩⟩ := Option.ite_none_right_eq_some.1 hstep
    exact hw.launch hhandle result
  | completes graph result =>
    obtain ⟨-, ⟨⟩⟩ := Option.ite_none_right_eq_some.1 hstep
    exact ⟨hw.capture, fun g hg => hw.running g (List.mem_of_mem_erase hg), hw.handles⟩
  | cloneHandle handle =>
    obtain ⟨hhandle, ⟨⟩⟩ := Option.ite_none_right_eq_some.1 hstep
    refine ⟨hw.capture, hw.running, fun handle' hhandle' => ?_⟩
    rcases List.mem_cons.1 hhandle' with rfl | hold
    · exact hw.handles _ hhandle
    · exact hw.handles _ hold
  | dropHandle handle =>
    obtain ⟨-, ⟨⟩⟩ := Option.ite_none_right_eq_some.1 hstep
    exact ⟨hw.capture, hw.running, fun g hg => hw.handles g (List.mem_of_mem_erase hg)⟩
  | synthetic =>
    cases hstep
    refine ⟨hw.capture, hw.running, fun handle hhandle => ?_⟩
    rcases List.mem_cons.1 hhandle with rfl | hold
    · rfl
    · exact hw.handles _ hold
  | cloneRef r =>
    obtain ⟨-, ⟨⟩⟩ := Option.ite_none_right_eq_some.1 hstep
    exact ⟨hw.capture, hw.running, hw.handles⟩
  | dropRef r =>
    obtain ⟨-, ⟨⟩⟩ := Option.ite_none_right_eq_some.1 hstep
    exact ⟨hw.capture, hw.running, hw.handles⟩
  | cloneSlice r =>
    obtain ⟨-, ⟨⟩⟩ := Option.ite_none_right_eq_some.1 hstep
    exact ⟨hw.capture, hw.running, hw.handles⟩
  | dropSlice s =>
    obtain ⟨-, ⟨⟩⟩ := Option.ite_none_right_eq_some.1 hstep
    exact ⟨hw.capture, hw.running, hw.handles⟩
  | allocate r inner =>
    obtain ⟨-, ⟨⟩⟩ := Option.ite_none_left_eq_some.1 hstep
    exact ⟨hw.capture, hw.running, hw.handles⟩
  | deviceChanges states generation =>
    cases hstep
    exact ⟨hw.capture, hw.running, hw.handles⟩

theorem Blank.recordedOwned (hw : Blank w) : RecordedOwned w where
  handles handle hhandle s hs := by
    rw [hw.handles handle hhandle] at hs
    exact absurd hs List.not_mem_nil
  running graph hgraph s hs := by
    rw [hw.running graph hgraph] at hs
    exact absurd hs List.not_mem_nil

/-- **In every run of the actor among its clients, from any start, every buffer whose address was
captured for a live handle is kept by it, and no replay touches a buffer that nobody keeps.** -/
theorem recordedOwned_along (mock blas rng : Bool) (generation : ℕ) (clients : List GpuRef)
    (inner : GpuRef → GpuRefInner) (states : GpuRef → Option DeviceState)
    (slices : List CudaSlice) (ls : List GraphLabel) :
    let T := system (create mock blas rng generation clients inner states slices)
    T.Along RecordedOwned T.init ls :=
  Transition.System.along_of_inv (fun _ hw => hw.recordedOwned) (fun _ _ _ => blank_step)
    (blank_create mock blas rng generation clients inner states slices) ls

end World

end Graph

end AtomrAccel
