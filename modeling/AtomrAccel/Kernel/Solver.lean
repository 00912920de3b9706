import AtomrAccel.Lib.Guard
import AtomrAccel.Device.WriteRequest

/-!
# `kernel::solver::dense`: locks and workspace of a dense request

The cells of the actor are three `parking_lot` mutexes: the cuSOLVER handle, the workspace and the
info buffer.  A dense request takes its buffers out of their `Arc`s, asks for the size of its
workspace, has it ensured, and enqueues its routine from a closure that takes all three locks;
`check_info` then reads the info buffer back.

* `ensureWorkspaceBytes`, `checkInfo`, `enqueueClosure`: the helpers and the closure;
* `DenseOp.launch`: the six requests with their buffers in hand;
* `runQr`, …, `runSyevd`, `DenseRequest.run`: their handlers, and `DenseDelivery` a request with the
  handles that are alive when it is handled;
* `Settles`: the request returns with one reply and every lock free;
* `dense_settles`: so it always does, as it is refused when it unwraps the first buffer it wants for
  itself, whose handle is alive;
* `launch_settles_iff`: with its buffers in hand it would do so exactly when its routine, if it is
  reached, does not answer `SUCCESS` and finds a workspace.
-/

namespace AtomrAccel

namespace Solver

open Guard Guarded Handler

/-- The cells. -/
inductive Lock
  | handle
  | workspace
  | info
  deriving DecidableEq, Repr

/-- A `CudaSlice<u8>`. -/
structure Buffer where
  ptr : ℕ
  len : ℕ
  deriving DecidableEq, Repr

/-- The stored workspace. -/
abbrev Slot := Option Buffer

/-- `g.as_ref().map(|s| s.len()).unwrap_or(0)`. -/
def length (slot : Slot) : ℕ := (slot.map Buffer.len).getD 0

/-- A computation on the actor's cells, under their locks. -/
abbrev Cells (α : Type) := Guarded Lock Slot α

/-- A `cusolverStatus_t`; any other than success is its `Debug` text. -/
inductive CusolverStatus
  | success
  | failure (debug : String)
  deriving DecidableEq, Repr

/-- `status_to_result`. -/
def statusToResult (status : CusolverStatus) (op : String) : Except GpuError Unit :=
  match status with
  | .success => .ok ()
  | .failure debug => .error (.libraryError "cusolver" (op ++ ": " ++ debug))

/-! ### The workspace -/

/-- Keep what is there when it is long enough, else put an allocation of `size` bytes there; `alloc`
answers with its address. -/
def growWorkspace (lib : String) (alloc : ℕ → Except String ℕ) (size needed : ℕ) :
    Cells (Except GpuError Unit) :=
  withLock .workspace do
    let slot ← fetch
    let cur := length slot
    if needed ≤ cur then
      return .ok ()
    match alloc size with
    | .ok ptr =>
      store (some ⟨ptr, size⟩)
      return .ok ()
    | .error e =>
      return .error (.outOfMemory (lib ++ " workspace (" ++ toString needed ++ "B): " ++ e))

/-- Grow the slot when it is too short. -/
def ensureWorkspaceBytes (alloc : ℕ → Except String ℕ) (neededBytes : ℕ) :
    Cells (Except GpuError Unit) :=
  growWorkspace "solver" alloc neededBytes neededBytes

/-- `lwork_bytes`; the product saturates at `usize::MAX`. -/
def lworkBytes (lwork : Int32) (size : ℕ) : ℕ := min (lwork.toInt.toNat * size) (2 ^ 64 - 1)

/-! ### The requests -/

/-- `f32` and `f64`. -/
inductive SolverDtype
  | f32
  | f64
  deriving DecidableEq, Repr

/-- The bytes of an element. -/
def SolverDtype.size : SolverDtype → ℕ
  | f32 => 4
  | f64 => 8

/-- What the libraries answer to one request. -/
structure Env where
  bufferSize : CusolverStatus
  /-- the size that the query reports -/
  lwork : Int32
  alloc : ℕ → Except String ℕ
  /-- the routine itself -/
  status : CusolverStatus
  /-- `memcpy_dtoh` of the info buffer -/
  readInfo : Except String Int32
  synchronize : Except String Unit
  completion : Except GpuError Unit

/-- Lock the info buffer and read it. -/
def checkInfo (env : Env) (op : String) : Cells (Except GpuError Unit) :=
  withLock .info do
    match env.readInfo with
    | .error e => return .error (.libraryError "cusolver" (op ++ ": read info: " ++ e))
    | .ok host =>
      match env.synchronize with
      | .error e => return .error (.libraryError "cusolver" (op ++ ": sync after info: " ++ e))
      | .ok () =>
        if host ≠ 0 then
          return .error (.libraryError "cusolver" (op ++ ": info=" ++ toString host))
        return .ok ()

/-- `ws.as_mut().expect("workspace ensured")`. -/
def expectWorkspace : Cells Unit := expect Option.isSome "workspace ensured"

/-- The enqueue closure; only the solve takes no workspace.  The guards live to its end. -/
def enqueueClosure (env : Env) (op : String) (usesWorkspace : Bool) :
    Cells (Except GpuError Unit) :=
  let launch : Cells (Except GpuError Unit) := withLock .info do
    if usesWorkspace then
      expectWorkspace
    match statusToResult env.status op with
    | .error e => return .error e
    | .ok () => checkInfo env op
  withLock .handle (if usesWorkspace then withLock .workspace launch else launch)

/-- `envelope::run_kernel` on the closure, as the replies sent. -/
def runEnqueue (env : Env) (op : String) (usesWorkspace : Bool) : Cells (List Reply) := do
  let enqueued ← enqueueClosure env op usesWorkspace
  return [runKernel "cusolver" none enqueued env.completion]

/-- A request with a workspace and with its buffers in hand, from the query for its size on. -/
def runSized (env : Env) (op : String) (t : SolverDtype) : Cells (List Reply) := do
  let queried ← withLock .handle (pure (statusToResult env.bufferSize (op ++ "_bufferSize")))
  match queried with
  | .error e => return [.error e]
  | .ok () =>
    match ← ensureWorkspaceBytes env.alloc (lworkBytes env.lwork t.size) with
    | .error e => return [.error e]
    | .ok () => runEnqueue env op true

/-- The dense routines. -/
inductive DenseOp
  | qr
  | lu
  | luSolve
  | cholesky
  | svd
  | syevd
  deriving DecidableEq, Repr

namespace DenseOp

/-- A request with its buffers in hand. -/
def launch : DenseOp → SolverDtype → Env → Cells (List Reply)
  | qr, t, env => runSized env "geqrf" t
  | lu, t, env => runSized env "getrf" t
  | luSolve, _, env => runEnqueue env "getrs" false
  | cholesky, t, env => runSized env "potrf" t
  | svd, t, env => runSized env "gesvd" t
  | syevd, t, env => runSized env "syevd" t

/-- Only the solve needs no workspace. -/
def usesWorkspace : DenseOp → Bool
  | luSolve => false
  | _ => true

end DenseOp

/-! ### The handlers

A request is its buffers; the dimensions and flags go to cuSOLVER as they are. -/

/-- A factorisation into an orthogonal and a triangular matrix. -/
structure QrRequest where
  a : GpuRef
  tau : GpuRef
  deriving DecidableEq, Repr

/-- A factorisation into triangular matrices. -/
structure LuRequest where
  a : GpuRef
  ipiv : GpuRef
  deriving DecidableEq, Repr

/-- A system with a factorised matrix. -/
structure LuSolveRequest where
  lu : GpuRef
  ipiv : GpuRef
  b : GpuRef
  deriving DecidableEq, Repr

/-- A factorisation of a positive matrix. -/
structure CholeskyRequest where
  a : GpuRef
  deriving DecidableEq, Repr

/-- A decomposition into singular values. -/
structure SvdRequest where
  a : GpuRef
  s : GpuRef
  u : Option GpuRef
  vt : Option GpuRef
  deriving DecidableEq, Repr

/-- The eigenvalues of a symmetric matrix. -/
structure SyevdRequest where
  a : GpuRef
  w : GpuRef
  deriving DecidableEq, Repr

section Handlers

variable (t : SolverDtype) (env : Env)

/-- `run_qr`. -/
def runQr (req : QrRequest) : Handler (Cells (List Reply)) := do
  let aSlice ← accessClone req.a
  let tauSlice ← accessClone req.tau
  tryUnwrap aSlice "QR a has multiple live references"
  tryUnwrap tauSlice "QR tau has multiple live references"
  return DenseOp.qr.launch t env

/-- `run_lu`. -/
def runLu (req : LuRequest) : Handler (Cells (List Reply)) := do
  let aSlice ← accessClone req.a
  let ipivSlice ← accessClone req.ipiv
  tryUnwrap aSlice "LU a has multiple live references"
  tryUnwrap ipivSlice "LU ipiv has multiple live references"
  return DenseOp.lu.launch t env

/-- `run_lu_solve`. -/
def runLuSolve (req : LuSolveRequest) : Handler (Cells (List Reply)) := do
  let _ ← accessClone req.lu
  let _ ← accessClone req.ipiv
  let bSlice ← accessClone req.b
  tryUnwrap bSlice "LU b has multiple live references"
  return DenseOp.luSolve.launch t env

/-- `run_cholesky`. -/
def runCholesky (req : CholeskyRequest) : Handler (Cells (List Reply)) := do
  let aSlice ← accessClone req.a
  tryUnwrap aSlice "Cholesky a has multiple live references"
  return DenseOp.cholesky.launch t env

/-- `run_svd`. -/
def runSvd (req : SvdRequest) : Handler (Cells (List Reply)) := do
  let aSlice ← accessClone req.a
  let sSlice ← accessClone req.s
  tryUnwrap aSlice "SVD a has multiple live references"
  tryUnwrap sSlice "SVD s has multiple live references"
  let uSlice ← req.u.mapM accessClone
  let vtSlice ← req.vt.mapM accessClone
  uSlice.forM fun s => tryUnwrap s "SVD u has multiple live references"
  vtSlice.forM fun s => tryUnwrap s "SVD vt has multiple live references"
  return DenseOp.svd.launch t env

/-- `run_syevd`. -/
def runSyevd (req : SyevdRequest) : Handler (Cells (List Reply)) := do
  let aSlice ← accessClone req.a
  let wSlice ← accessClone req.w
  tryUnwrap aSlice "Syevd a has multiple live references"
  tryUnwrap wSlice "Syevd w has multiple live references"
  return DenseOp.syevd.launch t env

end Handlers

/-- The dense requests. -/
inductive DenseRequest
  | qr (req : QrRequest)
  | lu (req : LuRequest)
  | luSolve (req : LuSolveRequest)
  | cholesky (req : CholeskyRequest)
  | svd (req : SvdRequest)
  | syevd (req : SyevdRequest)
  deriving DecidableEq, Repr

namespace DenseRequest

/-- The handler of a request. -/
def run (t : SolverDtype) (env : Env) : DenseRequest → Handler (Cells (List Reply))
  | qr req => runQr t env req
  | lu req => runLu t env req
  | luSolve req => runLuSolve t env req
  | cholesky req => runCholesky t env req
  | svd req => runSvd t env req
  | syevd req => runSyevd t env req

/-- The handles in the request. -/
def buffers : DenseRequest → List GpuRef
  | qr req => [req.a, req.tau]
  | lu req => [req.a, req.ipiv]
  | luSolve req => [req.lu, req.ipiv, req.b]
  | cholesky req => [req.a]
  | svd req => req.a :: req.s :: (req.u.toList ++ req.vt.toList)
  | syevd req => [req.a, req.w]

end DenseRequest

/-- A handler with the heap it starts with: the error that is answered, or what comes behind. -/
def served (h : Heap) (x : Handler (Cells (List Reply))) : Cells (List Reply) :=
  match x h with
  | .ok (rest, _) => rest
  | .error (.reply e) => pure [.error e]
  | .error (.panic text) => do
    expect (fun _ => false) text
    return []

/-- A request with the handles that are alive when it is handled, its own among them. -/
structure DenseDelivery where
  heap : Heap
  request : DenseRequest
  alive : ∀ r ∈ request.buffers, r ∈ heap.refs

/-- What the actor does with a request. -/
def DenseDelivery.handle (x : DenseDelivery) (t : SolverDtype) (env : Env) : Cells (List Reply) :=
  served x.heap (x.request.run t env)

/-- Run with all locks free, the request returns with exactly one reply and all locks free. -/
def Settles (x : Cells (List Reply)) (slot : Slot) : Prop :=
  ∃ reply slot', x [] slot = (.returned [reply], [], slot')

/-- The request gets to its enqueue closure. -/
def DenseOp.Launches (op : DenseOp) (t : SolverDtype) (env : Env) (slot : Slot) : Prop :=
  op.usesWorkspace = true → env.bufferSize = .success ∧
    (lworkBytes env.lwork t.size ≤ length slot ∨
      ∃ ptr, env.alloc (lworkBytes env.lwork t.size) = .ok ptr)

/-- Nothing is asked for and nothing is there. -/
def DenseOp.FindsNoWorkspace (op : DenseOp) (t : SolverDtype) (env : Env) (slot : Slot) : Prop :=
  op.usesWorkspace = true ∧ lworkBytes env.lwork t.size = 0 ∧ slot = none

/-! ### What a request does -/

theorem releases_growWorkspace (lib : String) (alloc : ℕ → Except String ℕ) (size needed : ℕ) :
    Releases (growWorkspace lib alloc size needed) := by
  refine Releases.withLock (releases_fetch.bind fun slot => ?_) _
  dsimp only
  split_ifs
  · exact releases_pure _
  · cases alloc size with
    | ok u => exact (releases_store _).bind fun _ => releases_pure _
    | error e => exact releases_pure _

theorem releases_checkInfo (env : Env) (op : String) : Releases (checkInfo env op) := by
  refine Releases.withLock ?_ _
  cases env.readInfo with
  | error e => exact releases_pure _
  | ok host =>
    cases env.synchronize with
    | error e => exact releases_pure _
    | ok u =>
      dsimp only
      split_ifs
      · exact releases_pure _
      · exact releases_pure _

theorem releases_enqueueClosure (env : Env) (op : String) (usesWorkspace : Bool) :
    Releases (enqueueClosure env op usesWorkspace) := by
  have hresult : Releases (match statusToResult env.status op with
      | .error e => pure (.error e)
      | .ok () => checkInfo env op : Cells (Except GpuError Unit)) := by
    cases statusToResult env.status op with
    | error e => exact releases_pure _
    | ok u => exact releases_checkInfo env op
  cases usesWorkspace with
  | false => exact (hresult.withLock .info).withLock .handle
  | true =>
    have hlaunch := (releases_expect (L := Lock) Option.isSome "workspace ensured").bind
      fun _ => hresult
    exact ((hlaunch.withLock .info).withLock .workspace).withLock .handle

/-- A dense request that ends, be it by a panic, has dropped its guards. -/
theorem DenseOp.releases_launch (op : DenseOp) (t : SolverDtype) (env : Env) :
    Releases (op.launch t env) := by
  have henqueue : ∀ name usesWorkspace, Releases (runEnqueue env name usesWorkspace) :=
    fun name usesWorkspace =>
      (releases_enqueueClosure env name usesWorkspace).bind fun _ => releases_pure _
  have hsized : ∀ name, Releases (runSized env name t) := by
    intro name
    refine (Releases.withLock (releases_pure _) _).bind fun queried => ?_
    cases queried with
    | error e => exact releases_pure _
    | ok u =>
      refine (releases_growWorkspace _ _ _ _).bind fun ensured => ?_
      cases ensured with
      | error e => exact releases_pure _
      | ok u => exact henqueue name true
  cases op with
  | qr => exact hsized "geqrf"
  | lu => exact hsized "getrf"
  | luSolve => exact henqueue "getrs" false
  | cholesky => exact hsized "potrf"
  | svd => exact hsized "gesvd"
  | syevd => exact hsized "syevd"

/-- What `growWorkspace` does to the slot: it keeps it, it replaces it, or it fails and keeps it. -/
theorem growWorkspace_cases (lib : String) (alloc : ℕ → Except String ℕ) (size needed : ℕ)
    {held : List Lock} (hfree : Lock.workspace ∉ held) (slot : Slot) :
    (needed ≤ length slot ∧
      growWorkspace lib alloc size needed held slot = (.returned (.ok ()), held, slot)) ∨
    (∃ ptr, length slot < needed ∧ alloc size = .ok ptr ∧
      growWorkspace lib alloc size needed held slot =
        (.returned (.ok ()), held, some ⟨ptr, size⟩)) ∨
    (length slot < needed ∧ (∀ ptr, alloc size ≠ .ok ptr) ∧ ∃ e,
      growWorkspace lib alloc size needed held slot = (.returned (.error e), held, slot)) := by
  by_cases hle : needed ≤ length slot
  · refine .inl ⟨hle, withLock_of_returned hfree ?_⟩
    refine (bind_of_returned rfl).trans ?_
    rw [if_pos hle]
    rfl
  · right
    have hlt := Nat.lt_of_not_le hle
    cases halloc : alloc size with
    | ok ptr =>
      refine .inl ⟨ptr, hlt, rfl, withLock_of_returned hfree ?_⟩
      refine (bind_of_returned rfl).trans ?_
      rw [if_neg hle, halloc]
      rfl
    | error e =>
      refine .inr ⟨hlt, fun ptr => nofun,
        .outOfMemory (lib ++ " workspace (" ++ toString needed ++ "B): " ++ e),
        withLock_of_returned hfree ?_⟩
      refine (bind_of_returned rfl).trans ?_
      rw [if_neg hle, halloc]
      rfl

/-- The closure needs a workspace and there is none. -/
theorem enqueueClosure_empty (env : Env) (op : String) :
    enqueueClosure env op true [] none = (.panicked "workspace ensured", [], none) := rfl

/-- With its workspace in place, the closure goes as the routine does: a failure ends it before
`check_info`, and after a success `check_info` asks for the lock of the info buffer, whose guard is
alive. -/
theorem enqueueClosure_eq (env : Env) (op : String) {usesWorkspace : Bool} {slot : Slot}
    (hws : ¬ (usesWorkspace = true ∧ slot = none)) :
    enqueueClosure env op usesWorkspace [] slot =
      match env.status with
      | .failure debug =>
        (.returned (.error (.libraryError "cusolver" (op ++ ": " ++ debug))), [], slot)
      | .success =>
        (.deadlocked, if usesWorkspace then [.info, .workspace, .handle] else [.info, .handle],
          slot) := by
  unfold enqueueClosure
  cases usesWorkspace with
  | false => cases env.status <;> rfl
  | true =>
    cases slot with
    | none => exact absurd ⟨rfl, rfl⟩ hws
    | some n => cases env.status <;> rfl

theorem enqueueClosure_failure {env : Env} {debug : String} (hstatus : env.status = .failure debug)
    (op : String) {usesWorkspace : Bool} {slot : Slot}
    (hws : ¬ (usesWorkspace = true ∧ slot = none)) :
    enqueueClosure env op usesWorkspace [] slot =
      (.returned (.error (.libraryError "cusolver" (op ++ ": " ++ debug))), [], slot) := by
  rw [enqueueClosure_eq env op hws, hstatus]

theorem enqueueClosure_success {env : Env} (hstatus : env.status = .success) (op : String)
    {usesWorkspace : Bool} {slot : Slot} (hws : ¬ (usesWorkspace = true ∧ slot = none)) :
    enqueueClosure env op usesWorkspace [] slot = (.deadlocked,
      if usesWorkspace then [.info, .workspace, .handle] else [.info, .handle], slot) := by
  rw [enqueueClosure_eq env op hws, hstatus]

theorem runEnqueue_settles_iff (env : Env) (op : String) (usesWorkspace : Bool) (slot : Slot) :
    Settles (runEnqueue env op usesWorkspace) slot ↔
      env.status ≠ .success ∧ ¬ (usesWorkspace = true ∧ slot = none) := by
  by_cases hws : usesWorkspace = true ∧ slot = none
  · obtain ⟨rfl, rfl⟩ := hws
    have hrun : runEnqueue env op true [] none = (.panicked "workspace ensured", [], none) :=
      bind_of_panicked (enqueueClosure_empty env op)
    constructor
    · rintro ⟨reply, slot', h⟩
      rw [hrun] at h
      cases h
    · exact fun h => absurd ⟨rfl, rfl⟩ h.2
  · cases hstatus : env.status with
    | success =>
      have hrun := bind_of_deadlocked (f := fun r => (pure [runKernel "cusolver" none r
        env.completion] : Cells (List Reply))) (enqueueClosure_success hstatus op hws)
      constructor
      · rintro ⟨reply, slot', h⟩
        cases hrun.symm.trans h
      · exact fun h => absurd rfl h.1
    | failure debug =>
      have hrun := bind_of_returned (f := fun r => (pure [runKernel "cusolver" none r
        env.completion] : Cells (List Reply))) (enqueueClosure_failure hstatus op hws)
      exact iff_of_true ⟨_, slot, hrun⟩ ⟨nofun, hws⟩

/-- A sized request is answered before its closure, or runs it on an ensured slot. -/
theorem runSized_cases (env : Env) (op : String) (t : SolverDtype) (slot : Slot) :
    let needed := lworkBytes env.lwork t.size
    let launches := env.bufferSize = .success ∧
      (needed ≤ length slot ∨ ∃ ptr, env.alloc needed = .ok ptr)
    (¬ launches ∧ ∃ reply, runSized env op t [] slot = (.returned [reply], [], slot)) ∨
    (launches ∧ ∃ slot', runSized env op t [] slot = runEnqueue env op true [] slot' ∧
      (slot' = none ↔ needed = 0 ∧ slot = none)) := by
  intro needed launches
  cases hquery : env.bufferSize with
  | failure debug =>
    refine .inl ⟨fun h => ?_, .error (.libraryError "cusolver" (op ++ "_bufferSize" ++ ": " ++
      debug)), ?_⟩
    · cases hquery.symm.trans h.1
    · simp only [runSized, hquery]
      rfl
  | success =>
    have hrun : runSized env op t [] slot = (do
        match ← ensureWorkspaceBytes env.alloc needed with
        | .error e => return [.error e]
        | .ok () => runEnqueue env op true : Cells (List Reply)) [] slot := by
      simp only [runSized, hquery]
      rfl
    obtain ⟨hle, hgrow⟩ | ⟨ptr, hlt, halloc, hgrow⟩ | ⟨hlt, halloc, e, hgrow⟩ :=
      growWorkspace_cases "solver" env.alloc needed needed
        (List.not_mem_nil : Lock.workspace ∉ []) slot
    · refine .inr ⟨⟨hquery, .inl hle⟩, slot, hrun.trans (bind_of_returned hgrow), ?_⟩
      refine ⟨fun hnone => ⟨?_, hnone⟩, fun h => h.2⟩
      rw [hnone] at hle
      exact Nat.le_zero.1 hle
    · refine .inr ⟨⟨hquery, .inr ⟨ptr, halloc⟩⟩, some ⟨ptr, needed⟩,
        hrun.trans (bind_of_returned hgrow), ?_⟩
      refine ⟨nofun, ?_⟩
      rintro ⟨hzero, -⟩
      rw [hzero] at hlt
      exact absurd hlt (Nat.not_lt_zero _)
    · refine .inl ⟨?_, .error e, hrun.trans (bind_of_returned hgrow)⟩
      rintro ⟨-, hle | ⟨ptr, hok⟩⟩
      · exact absurd hle (Nat.not_le.2 hlt)
      · exact halloc ptr hok

theorem runSized_settles_iff (env : Env) (op : String) (t : SolverDtype) (slot : Slot) :
    Settles (runSized env op t) slot ↔
      (env.bufferSize = .success ∧ (lworkBytes env.lwork t.size ≤ length slot ∨
          ∃ ptr, env.alloc (lworkBytes env.lwork t.size) = .ok ptr) →
        env.status ≠ .success ∧ ¬ (lworkBytes env.lwork t.size = 0 ∧ slot = none)) := by
  obtain ⟨hnot, reply, hrun⟩ | ⟨hlaunch, slot', hrun, hnone⟩ := runSized_cases env op t slot
  · exact iff_of_true ⟨reply, slot, hrun⟩ fun h => absurd h hnot
  · have hsame : Settles (runSized env op t) slot ↔ Settles (runEnqueue env op true) slot' := by
      unfold Settles
      rw [hrun]
    rw [hsame, runEnqueue_settles_iff, ← hnone]
    constructor
    · exact fun h _ => ⟨h.1, fun hn => h.2 ⟨rfl, hn⟩⟩
    · exact fun h => ⟨(h hlaunch).1, fun hn => (h hlaunch).2 hn.2⟩

/-- With its buffers in hand, a dense request returns, with one reply and no lock held, exactly when
its routine is not reached or answers an error, with a workspace there if it takes one. -/
theorem launch_settles_iff (op : DenseOp) (t : SolverDtype) (env : Env) (slot : Slot) :
    Settles (op.launch t env) slot ↔
      (op.Launches t env slot → env.status ≠ .success ∧ ¬ op.FindsNoWorkspace t env slot) := by
  have hsized : ∀ name, Settles (runSized env name t) slot ↔
      ((true = true → env.bufferSize = .success ∧ (lworkBytes env.lwork t.size ≤ length slot ∨
          ∃ ptr, env.alloc (lworkBytes env.lwork t.size) = .ok ptr)) →
        env.status ≠ .success ∧
          ¬ (true = true ∧ lworkBytes env.lwork t.size = 0 ∧ slot = none)) := by
    intro name
    rw [runSized_settles_iff]
    simp only [true_and, true_implies]
  cases op with
  | qr => exact hsized "geqrf"
  | lu => exact hsized "getrf"
  | cholesky => exact hsized "potrf"
  | svd => exact hsized "gesvd"
  | syevd => exact hsized "syevd"
  | luSolve =>
    refine (runEnqueue_settles_iff env "getrs" false slot).trans ?_
    constructor
    · exact fun h _ => ⟨h.1, fun hno => by cases hno.1⟩
    · exact fun h => ⟨(h nofun).1, fun hno => by cases hno.1⟩

/-- cuSOLVER does what it is asked, with a workspace of 64 elements. -/
def obliging : Env where
  bufferSize := .success
  lwork := 64
  alloc := fun _ => .ok 4096
  status := .success
  readInfo := .ok 0
  synchronize := .ok ()
  completion := .ok ()

/-- With its buffers in hand, a QR factorization that succeeds would wait for the info buffer while
it holds all three locks. -/
theorem successful_qr_deadlocks :
    ¬ Settles (DenseOp.qr.launch .f32 obliging) none ∧
    DenseOp.qr.launch .f32 obliging [] none =
      (.deadlocked, [.info, .workspace, .handle], some ⟨4096, 256⟩) := by
  have hrun : DenseOp.qr.launch .f32 obliging [] none =
      (.deadlocked, [.info, .workspace, .handle], some ⟨4096, 256⟩) := rfl
  refine ⟨?_, hrun⟩
  rintro ⟨reply, slot', h⟩
  cases hrun.symm.trans h

/-! ### In front of the size query -/

/-- A refused handler answers its error, and touches no lock and no workspace. -/
theorem served_of_refused {h : Heap} {x : Handler (Cells (List Reply))} (hx : Refused x h) :
    ∃ e, ∀ held slot, served h x held slot = (.returned [.error e], held, slot) := by
  obtain ⟨e, he⟩ := hx
  refine ⟨e, fun held slot => ?_⟩
  unfold served
  rw [he]
  rfl

/-- Every dense request unwraps a clone of a buffer whose handle is alive. -/
theorem DenseRequest.run_refused (t : SolverDtype) (env : Env) (req : DenseRequest) {h : Heap}
    (halive : ∀ r ∈ req.buffers, r ∈ h.refs) : Refused (req.run t env) h := by
  cases req with
  | qr req => exact refused_of_unwrap_first (halive req.a (by simp [buffers])) _ _
  | lu req => exact refused_of_unwrap_first (halive req.a (by simp [buffers])) _ _
  | luSolve req =>
    refine refused_of_accessClone <| refused_of_accessClone ?_
    exact refused_of_unwrap (h := (h.clone _).clone _) (halive req.b (by simp [buffers])) _ _
  | cholesky req => exact refused_of_unwrap (halive req.a (by simp [buffers])) _ _
  | svd req => exact refused_of_unwrap_first (halive req.a (by simp [buffers])) _ _
  | syevd req => exact refused_of_unwrap_first (halive req.a (by simp [buffers])) _ _

/-- What becomes of a dense request, whatever locks are held. -/
theorem DenseDelivery.handle_eq (x : DenseDelivery) (t : SolverDtype) (env : Env) :
    ∃ e, ∀ held slot, x.handle t env held slot = (.returned [.error e], held, slot) :=
  served_of_refused (x.request.run_refused t env x.alive)

/-- **A dense request returns, with one reply and no lock held, and leaves the workspace as it
is.** -/
theorem dense_settles (x : DenseDelivery) (t : SolverDtype) (env : Env) (slot : Slot) :
    Settles (x.handle t env) slot ∧
      ∃ e, x.handle t env [] slot = (.returned [.error e], [], slot) := by
  obtain ⟨e, he⟩ := x.handle_eq t env
  exact ⟨⟨.error e, slot, he [] slot⟩, e, he [] slot⟩

end Solver

end AtomrAccel
