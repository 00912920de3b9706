import AtomrAccel.Lib.Transition
import AtomrAccel.Kernel.Solver

/-!
# The grown workspaces of `SparseActor` and `SolverActor`

Both actors keep one scratch buffer in a slot that starts empty, have it ensured before a launch,
and expect it to be there in the enqueue closure.

* `ensureWorkspace`, `launchSparse`, `handleSpmv`, `handleSpmm`: the sparse side;
* `Label`, `step`, `system`: the requests to the two actors, with what the libraries answer;
* `Ready`: what was ensured is there and long enough, no closure misses it, no workspace shrinks
  and a failed growth changes nothing;
* `along_ready`: so it is in every run, as each request is refused when it unwraps the buffer it
  writes, whose handle is alive;
* `AsksOnFull`, `along_launches_iff`: with the buffers in hand it would be so exactly when no
  request has nothing ensured on an empty slot.
-/

namespace AtomrAccel

namespace Workspace

open Guard Guarded Handler Transition Solver

/-! ### The sparse requests -/

/-- Allocate at least one byte. -/
def ensureWorkspace (alloc : ℕ → Except String ℕ) (neededBytes : ℕ) :
    Cells (Except GpuError Unit) :=
  growWorkspace "cusparse" alloc (max neededBytes 1) neededBytes

/-- A `cusparseStatus_t`; any other than success is its `Debug` text. -/
inductive CusparseStatus
  | success
  | failure (debug : String)
  deriving DecidableEq, Repr

/-- `if s != CUSPARSE_STATUS_SUCCESS { … }`. -/
def sparseResult (s : CusparseStatus) (call : String) : Except GpuError Unit :=
  match s with
  | .success => .ok ()
  | .failure debug => .error (.libraryError "cusparse" (call ++ ": " ++ debug))

/-- What the libraries answer to one sparse request; `left` and `right` are the descriptors of the
two dense operands. -/
structure SparseEnv where
  createCsr : CusparseStatus
  createLeft : CusparseStatus
  createRight : CusparseStatus
  bufferSize : CusparseStatus
  bufSize : ℕ
  alloc : ℕ → Except String ℕ
  status : CusparseStatus
  completion : Except GpuError Unit

/-- The calls in front of the launch, as they are named in the errors. -/
structure SparseCalls where
  left : String
  right : String
  bufferSize : String
  launch : String
  deriving DecidableEq, Repr

/-- The descriptors and the size query, up to the first call that fails. -/
def describe (calls : SparseCalls) (env : SparseEnv) : Except GpuError Unit := do
  sparseResult env.createCsr "CreateCsr"
  sparseResult env.createLeft calls.left
  sparseResult env.createRight calls.right
  sparseResult env.bufferSize calls.bufferSize

/-- The enqueue closure. -/
def sparseClosure (calls : SparseCalls) (env : SparseEnv) : Cells (Except GpuError Unit) :=
  withLock .handle <| withLock .workspace do
    expectWorkspace
    return sparseResult env.status calls.launch

/-- A request with its buffers in hand, from the descriptors on. -/
def launchSparse (calls : SparseCalls) (env : SparseEnv) : Cells (List Reply) := do
  match ← withLock .handle (pure (describe calls env)) with
  | .error e => return [.error e]
  | .ok () =>
    match ← ensureWorkspace env.alloc env.bufSize with
    | .error e => return [.error e]
    | .ok () =>
      let enqueued ← sparseClosure calls env
      return [runKernel "cusparse" none enqueued env.completion]

/-- The calls of `handle_spmv`, as its errors name them. -/
def spmvCalls : SparseCalls := ⟨"CreateDnVec(x)", "CreateDnVec(y)", "SpMV_bufferSize", "SpMV"⟩

/-- The calls of `handle_spmm`. -/
def spmmCalls : SparseCalls := ⟨"CreateDnMat(b)", "CreateDnMat(c)", "SpMM_bufferSize", "SpMM"⟩

/-- The buffers of a CSR matrix; its sizes go to cuSPARSE as they are. -/
structure CsrMatrix where
  rowOffsets : GpuRef
  colIndices : GpuRef
  values : GpuRef
  deriving DecidableEq, Repr

/-- `handle_spmv`. -/
def handleSpmv (env : SparseEnv) (csr : CsrMatrix) (x y : GpuRef) :
    Handler (Cells (List Reply)) := do
  let _ ← accessClone csr.rowOffsets
  let _ ← accessClone csr.colIndices
  let _ ← accessClone csr.values
  let _ ← accessClone x
  let ySlice ← accessClone y
  tryUnwrap ySlice "SpMv y has multiple live references"
  return launchSparse spmvCalls env

/-- `handle_spmm`. -/
def handleSpmm (env : SparseEnv) (csr : CsrMatrix) (b c : GpuRef) :
    Handler (Cells (List Reply)) := do
  let _ ← accessClone csr.rowOffsets
  let _ ← accessClone csr.colIndices
  let _ ← accessClone csr.values
  let _ ← accessClone b
  let cSlice ← accessClone c
  tryUnwrap cSlice "SpMm c has multiple live references"
  return launchSparse spmmCalls env

/-- The sparse requests. -/
inductive SparseMsg
  | spMv (csr : CsrMatrix) (x y : GpuRef)
  | spMm (csr : CsrMatrix) (b c : GpuRef)
  deriving DecidableEq, Repr

namespace SparseMsg

/-- The handler of a message. -/
def run (env : SparseEnv) : SparseMsg → Handler (Cells (List Reply))
  | spMv csr x y => handleSpmv env csr x y
  | spMm csr b c => handleSpmm env csr b c

/-- The calls of a message's handler. -/
def calls : SparseMsg → SparseCalls
  | spMv .. => spmvCalls
  | spMm .. => spmmCalls

/-- The handles in the request. -/
def buffers : SparseMsg → List GpuRef
  | spMv csr x y => [csr.rowOffsets, csr.colIndices, csr.values, x, y]
  | spMm csr b c => [csr.rowOffsets, csr.colIndices, csr.values, b, c]

end SparseMsg

/-- A request with the handles that are alive when it is handled, its own among them. -/
structure SparseDelivery where
  heap : Heap
  msg : SparseMsg
  alive : ∀ r ∈ msg.buffers, r ∈ heap.refs

/-- What the actor does with a request. -/
def SparseDelivery.handle (x : SparseDelivery) (env : SparseEnv) : Cells (List Reply) :=
  served x.heap (x.msg.run env)

/-! ### Runs -/

/-- One growth: the slot before and after it, the size asked for, and the result. -/
structure Ensured where
  before : Slot
  after : Slot
  needed : ℕ
  result : Except GpuError Unit

/-- A hung actor waits for a lock of its own. -/
inductive Condition
  | running
  | hung
  | panicked
  deriving DecidableEq, Repr

/-- An actor with its slot and the growths so far, the last one first. -/
structure Instance where
  slot : Slot
  condition : Condition
  growths : List Ensured

/-- The two actors. -/
structure State where
  sparse : Instance
  solver : Instance

/-- A request, with what the libraries answer. -/
inductive Label
  | sparse (x : SparseDelivery) (env : SparseEnv)
  | dense (x : DenseDelivery) (t : SolverDtype) (env : Env)

/-- A request with its buffers in hand. -/
inductive Launch
  | sparse (calls : SparseCalls) (env : SparseEnv)
  | dense (op : DenseOp) (t : SolverDtype) (env : Env)

/-- The growth that a request asks for, if it gets that far. -/
def growth (needed : ℕ) (ensure : Cells (Except GpuError Unit)) (slot : Slot) : List Ensured :=
  match ensure [] slot with
  | (.returned result, _, slot') => [⟨slot, slot', needed, result⟩]
  | _ => []

/-- What the workspace code does for a launch. -/
def sparseGrowth (calls : SparseCalls) (env : SparseEnv) (slot : Slot) : List Ensured :=
  match describe calls env with
  | .error _ => []
  | .ok () => growth env.bufSize (ensureWorkspace env.alloc env.bufSize) slot

/-- What the workspace code does for a launch. -/
def denseGrowth (op : DenseOp) (t : SolverDtype) (env : Env) (slot : Slot) : List Ensured :=
  if op.usesWorkspace ∧ env.bufferSize = .success then
    let needed := lworkBytes env.lwork t.size
    growth needed (ensureWorkspaceBytes env.alloc needed) slot
  else []

/-- The growth that a handler asks for: none when it ends before its launch. -/
def grown (h : Heap) (x : Handler (Cells (List Reply))) (growths : List Ensured) : List Ensured :=
  match x h with
  | .ok _ => growths
  | .error _ => []

/-- What the workspace code does for a delivery. -/
def SparseDelivery.growths (x : SparseDelivery) (env : SparseEnv) (slot : Slot) : List Ensured :=
  grown x.heap (x.msg.run env) (sparseGrowth x.msg.calls env slot)

/-- The routine of a request. -/
def routine : DenseRequest → DenseOp
  | .qr _ => .qr
  | .lu _ => .lu
  | .luSolve _ => .luSolve
  | .cholesky _ => .cholesky
  | .svd _ => .svd
  | .syevd _ => .syevd

/-- What the workspace code does for a delivery. -/
def denseGrowths (x : DenseDelivery) (t : SolverDtype) (env : Env) (slot : Slot) : List Ensured :=
  grown x.heap (x.request.run t env) (denseGrowth (routine x.request) t env slot)

/-- An actor that is running handles a request. -/
def Instance.handle (i : Instance) (request : Cells (List Reply)) (growths : List Ensured) :
    Option Instance :=
  match i.condition with
  | .running =>
    match request [] i.slot with
    | (.returned _, _, slot') => some ⟨slot', .running, growths ++ i.growths⟩
    | (.panicked _, _, slot') => some ⟨slot', .panicked, growths ++ i.growths⟩
    | (.deadlocked, _, slot') => some ⟨slot', .hung, growths ++ i.growths⟩
  | _ => none

/-- A request to one of the two actors. -/
def step (s : State) : Label → Option State
  | .sparse x env =>
    (s.sparse.handle (x.handle env) (x.growths env s.sparse.slot)).map fun i =>
      { s with sparse := i }
  | .dense x t env =>
    (s.solver.handle (x.handle t env) (denseGrowths x t env s.solver.slot)).map fun i =>
      { s with solver := i }

/-- The step of a request that has come by its buffers. -/
def launchStep (s : State) : Launch → Option State
  | .sparse calls env =>
    (s.sparse.handle (launchSparse calls env) (sparseGrowth calls env s.sparse.slot)).map fun i =>
      { s with sparse := i }
  | .dense op t env =>
    (s.solver.handle (op.launch t env) (denseGrowth op t env s.solver.slot)).map fun i =>
      { s with solver := i }

/-- Both slots are empty. -/
def initial : State := ⟨⟨none, .running, []⟩, ⟨none, .running, []⟩⟩

/-- The two actors with their requests. -/
def system : System State Label := ⟨initial, step⟩

/-- The runs of the two actors if no handler were refused. -/
def launches : System State Launch := ⟨initial, launchStep⟩

/-- What a growth has to do. -/
structure Ensured.Good (e : Ensured) : Prop where
  there : e.result = .ok () → ∃ ws, e.after = some ws ∧ e.needed ≤ ws.len
  grown : length e.before ≤ length e.after
  kept : ∀ err, e.result = .error err → e.after = e.before

/-- No closure has missed its workspace, all growths were good, and the workspace is as long as it
ever was. -/
structure Instance.Ready (i : Instance) : Prop where
  present : i.condition ≠ .panicked
  good : ∀ e ∈ i.growths, e.Good
  lasting : ∀ e ∈ i.growths, length e.after ≤ length i.slot

/-- Neither actor has missed its workspace, and the growths have been sound. -/
def Ready (s : State) : Prop := s.sparse.Ready ∧ s.solver.Ready

/-- The request does not have nothing ensured on an empty slot. -/
def AsksOnFull (s : State) : Launch → Prop
  | .sparse calls env => describe calls env = .ok () → ¬ (env.bufSize = 0 ∧ s.sparse.slot = none)
  | .dense op t env => env.bufferSize = .success → ¬ op.FindsNoWorkspace t env s.solver.slot

/-! ### A growth -/

/-- A growth on an empty slot for nothing leaves it empty; any other does what it has to. -/
theorem growth_cases (lib : String) (alloc : ℕ → Except String ℕ) {size needed : ℕ}
    (hsize : needed ≤ size) (slot : Slot) :
    ∃ result slot', growWorkspace lib alloc size needed [] slot = (.returned result, [], slot') ∧
      growth needed (growWorkspace lib alloc size needed) slot = [⟨slot, slot', needed, result⟩] ∧
      (result = .ok () → (slot' = none ↔ needed = 0 ∧ slot = none)) ∧
      (Ensured.Good ⟨slot, slot', needed, result⟩ ↔ ¬ (needed = 0 ∧ slot = none)) := by
  obtain ⟨hle, hgrow⟩ | ⟨ptr, hlt, -, hgrow⟩ | ⟨hlt, -, e, hgrow⟩ :=
    growWorkspace_cases lib alloc size needed (List.not_mem_nil : Lock.workspace ∉ []) slot
  · refine ⟨.ok (), slot, hgrow, by rw [growth, hgrow], fun _ => ?_, ?_⟩
    · refine ⟨fun hnone => ⟨?_, hnone⟩, fun h => h.2⟩
      rw [hnone] at hle
      exact Nat.le_zero.1 hle
    · constructor
      · rintro hgood ⟨-, rfl⟩
        obtain ⟨n, hn, -⟩ := hgood.there rfl
        cases hn
      · intro hne
        refine ⟨fun _ => ?_, le_rfl, nofun⟩
        cases slot with
        | none => exact absurd ⟨Nat.le_zero.1 hle, rfl⟩ hne
        | some n => exact ⟨n, rfl, hle⟩
  · have hne : ¬ (needed = 0 ∧ slot = none) := by
      rintro ⟨rfl, -⟩
      exact absurd hlt (Nat.not_lt_zero _)
    refine ⟨.ok (), some ⟨ptr, size⟩, hgrow, by rw [growth, hgrow],
      fun _ => iff_of_false nofun hne, ?_⟩
    refine iff_of_true ⟨fun _ => ⟨⟨ptr, size⟩, rfl, hsize⟩, ?_, nofun⟩ hne
    exact (Nat.le_of_lt hlt).trans hsize
  · have hne : ¬ (needed = 0 ∧ slot = none) := by
      rintro ⟨rfl, -⟩
      exact absurd hlt (Nat.not_lt_zero _)
    refine ⟨.error e, slot, hgrow, by rw [growth, hgrow], nofun, ?_⟩
    exact iff_of_true ⟨nofun, le_rfl, fun _ _ => rfl⟩ hne

/-! ### A request -/

/-- A request leaves a slot that is as long as before, the one its growth has left; it is good, or
`asks`, and then its closure panics. -/
structure Handles (request : Cells (List Reply)) (growths : List Ensured) (slot : Slot)
    (asks : Prop) : Prop where
  longer : length slot ≤ length (request [] slot).2.2
  after : ∀ e ∈ growths, e.after = (request [] slot).2.2
  panics : (∃ text, (request [] slot).1 = .panicked text) ↔ asks
  good : ¬ asks → ∀ e ∈ growths, e.Good

/-- A request that ends before its growth, or needs none. -/
theorem handles_of_slot {request : Cells (List Reply)} {slot : Slot} {asks : Prop}
    (hslot : (request [] slot).2.2 = slot) (hpanic : ∀ text, (request [] slot).1 ≠ .panicked text)
    (hasks : ¬ asks) : Handles request [] slot asks where
  longer := by rw [hslot]
  after := nofun
  panics := iff_of_false (fun ⟨text, h⟩ => hpanic text h) hasks
  good := fun _ => nofun

/-- A request that has `needed` bytes ensured and then runs `launch`, which needs a workspace. -/
theorem handles_growth {request : Cells (List Reply)} (launch : Cells (List Reply)) {lib : String}
    {alloc : ℕ → Except String ℕ} {size needed : ℕ} {slot : Slot} (hsize : needed ≤ size)
    (hrequest : request [] slot = (do
      match ← growWorkspace lib alloc size needed with
      | .error e => return [.error e]
      | .ok () => launch : Cells (List Reply)) [] slot)
    (hlaunch : ∀ slot', (launch [] slot').2.2 = slot')
    (hpanic : ∀ slot', (∃ text, (launch [] slot').1 = .panicked text) ↔ slot' = none) :
    Handles request (growth needed (growWorkspace lib alloc size needed) slot) slot
      (needed = 0 ∧ slot = none) := by
  obtain ⟨result, slot', hgrow, hgrowth, hnone, hgood⟩ := growth_cases lib alloc hsize slot
  have hlonger : length slot ≤ length slot' := by
    by_cases hempty : needed = 0 ∧ slot = none
    · rw [hempty.2]
      exact Nat.zero_le _
    · exact (hgood.2 hempty).grown
  rw [hgrowth]
  cases result with
  | error e =>
    have hrun : request [] slot = (.returned [.error e], [], slot') :=
      hrequest.trans (bind_of_returned hgrow)
    have hne : ¬ (needed = 0 ∧ slot = none) := by
      rintro ⟨rfl, rfl⟩
      obtain ⟨-, hok⟩ | ⟨ptr, hlt, -⟩ | ⟨hlt, -⟩ :=
        growWorkspace_cases lib alloc size 0 (List.not_mem_nil : Lock.workspace ∉ []) none
      · cases hgrow.symm.trans hok
      · exact absurd hlt (Nat.not_lt_zero _)
      · exact absurd hlt (Nat.not_lt_zero _)
    refine ⟨?_, ?_, ?_, fun h => List.forall_mem_singleton.2 (hgood.2 h)⟩
    · rw [hrun]
      exact hlonger
    · rw [hrun]
      exact List.forall_mem_singleton.2 rfl
    · rw [hrun]
      exact iff_of_false (fun ⟨_, h⟩ => by cases h) hne
  | ok u =>
    have hrun : request [] slot = launch [] slot' := hrequest.trans (bind_of_returned hgrow)
    refine ⟨?_, ?_, ?_, fun h => List.forall_mem_singleton.2 (hgood.2 h)⟩
    · rw [hrun, hlaunch]
      exact hlonger
    · rw [hrun, hlaunch]
      exact List.forall_mem_singleton.2 rfl
    · rw [hrun, hpanic]
      exact hnone rfl

theorem sparse_handles (calls : SparseCalls) (env : SparseEnv) (slot : Slot) :
    Handles (launchSparse calls env) (sparseGrowth calls env slot) slot
      (describe calls env = .ok () ∧ env.bufSize = 0 ∧ slot = none) := by
  unfold sparseGrowth
  cases hdesc : describe calls env with
  | error e =>
    have hrun : launchSparse calls env [] slot = (.returned [.error e], [], slot) := by
      unfold launchSparse
      rw [hdesc]
      rfl
    refine handles_of_slot ?_ ?_ fun h => by cases h.1
    · rw [hrun]
    · rw [hrun]
      exact nofun
  | ok u =>
    simp only [true_and]
    let launch : Cells (List Reply) := do
      let enqueued ← sparseClosure calls env
      return [runKernel "cusparse" none enqueued env.completion]
    have hrun : ∀ slot', ((launch [] slot').2.2 = slot' ∧
        ((∃ text, (launch [] slot').1 = .panicked text) ↔ slot' = none)) := by
      intro slot'
      cases slot' with
      | none => exact ⟨rfl, iff_of_true ⟨_, rfl⟩ rfl⟩
      | some ws => exact ⟨rfl, iff_of_false (fun ⟨_, h⟩ => by cases h) nofun⟩
    refine handles_growth launch (le_max_left _ _) ?_ (fun slot' => (hrun slot').1)
      fun slot' => (hrun slot').2
    unfold launchSparse
    rw [hdesc]
    rfl

/-- The closure of a dense request leaves the slot, and panics when it misses the workspace. -/
theorem runEnqueue_slot (env : Env) (name : String) (usesWorkspace : Bool) (slot : Slot) :
    (runEnqueue env name usesWorkspace [] slot).2.2 = slot ∧
      ((∃ text, (runEnqueue env name usesWorkspace [] slot).1 = .panicked text) ↔
        usesWorkspace = true ∧ slot = none) := by
  by_cases hws : usesWorkspace = true ∧ slot = none
  · obtain ⟨rfl, rfl⟩ := hws
    exact ⟨rfl, iff_of_true ⟨_, rfl⟩ ⟨rfl, rfl⟩⟩
  · unfold runEnqueue
    cases hstatus : env.status with
    | success =>
      rw [bind_of_deadlocked (enqueueClosure_success hstatus name hws)]
      exact ⟨rfl, iff_of_false (fun ⟨_, h⟩ => by cases h) hws⟩
    | failure debug =>
      rw [bind_of_returned (enqueueClosure_failure hstatus name hws)]
      exact ⟨rfl, iff_of_false (fun ⟨_, h⟩ => by cases h) hws⟩

theorem dense_handles (op : DenseOp) (t : SolverDtype) (env : Env) (slot : Slot) :
    Handles (op.launch t env) (denseGrowth op t env slot) slot
      (env.bufferSize = .success ∧ op.FindsNoWorkspace t env slot) := by
  have hsized : ∀ name, op.usesWorkspace = true → Handles (runSized env name t)
      (denseGrowth op t env slot) slot
      (env.bufferSize = .success ∧ op.FindsNoWorkspace t env slot) := by
    intro name huses
    unfold denseGrowth
    cases hquery : env.bufferSize with
    | failure debug =>
      have hrun : runSized env name t [] slot = (.returned
          [.error (.libraryError "cusolver" (name ++ "_bufferSize" ++ ": " ++ debug))], [],
          slot) := by
        simp only [runSized, hquery]
        rfl
      rw [if_neg (fun h => by cases h.2)]
      refine handles_of_slot ?_ ?_ fun h => by cases h.1
      · rw [hrun]
      · rw [hrun]
        exact fun text htext => by cases htext
    | success =>
      rw [if_pos ⟨huses, rfl⟩]
      simp only [DenseOp.FindsNoWorkspace, huses, true_and]
      refine handles_growth (runEnqueue env name true) le_rfl ?_
        (fun slot' => (runEnqueue_slot env name true slot').1) fun slot' => ?_
      · simp only [runSized, hquery]
        rfl
      · exact (runEnqueue_slot env name true slot').2.trans (and_iff_right rfl)
  cases op with
  | qr => exact hsized "geqrf" rfl
  | lu => exact hsized "getrf" rfl
  | cholesky => exact hsized "potrf" rfl
  | svd => exact hsized "gesvd" rfl
  | syevd => exact hsized "syevd" rfl
  | luSolve =>
    have hslot := runEnqueue_slot env "getrs" false slot
    refine handles_of_slot hslot.1 (fun text htext => ?_) fun h => by cases h.2.1
    cases (hslot.2.1 ⟨text, htext⟩).1

/-! ### One step -/

/-- What an actor makes of a request. -/
theorem Instance.handle_cases {i i' : Instance} {request : Cells (List Reply)}
    {growths : List Ensured} (h : i.handle request growths = some i') :
    i.condition = .running ∧ i'.slot = (request [] i.slot).2.2 ∧
      i'.growths = growths ++ i.growths ∧
      (i'.condition = .panicked ↔ ∃ text, (request [] i.slot).1 = .panicked text) := by
  unfold Instance.handle at h
  cases hcond : i.condition with
  | hung =>
    rw [hcond] at h
    cases h
  | panicked =>
    rw [hcond] at h
    cases h
  | running =>
    rw [hcond] at h
    rcases hrun : request [] i.slot with ⟨out, held, slot'⟩
    rw [hrun] at h
    cases out with
    | returned replies =>
      cases h
      exact ⟨rfl, rfl, rfl, iff_of_false nofun fun ⟨_, h⟩ => by cases h⟩
    | panicked text =>
      cases h
      exact ⟨rfl, rfl, rfl, iff_of_true rfl ⟨text, rfl⟩⟩
    | deadlocked =>
      cases h
      exact ⟨rfl, rfl, rfl, iff_of_false nofun fun ⟨_, h⟩ => by cases h⟩

theorem Instance.Ready.handle {i i' : Instance} {request : Cells (List Reply)}
    {growths : List Ensured} {asks : Prop} (hi : i.Ready)
    (hh : Handles request growths i.slot asks) (h : i.handle request growths = some i')
    (hasks : ¬ asks) : i'.Ready := by
  obtain ⟨-, hslot, hgrowths, hpanic⟩ := Instance.handle_cases h
  refine ⟨fun hp => hasks (hh.panics.1 (hpanic.1 hp)), fun e he => ?_, fun e he => ?_⟩
  · rw [hgrowths] at he
    obtain hnew | hold := List.mem_append.1 he
    · exact hh.good hasks e hnew
    · exact hi.good e hold
  · rw [hgrowths] at he
    rw [hslot]
    obtain hnew | hold := List.mem_append.1 he
    · rw [hh.after e hnew]
    · exact (hi.lasting e hold).trans hh.longer

/-- A request that asks for nothing on an empty slot brings the actor down. -/
theorem Instance.Ready.not_asks {i i' : Instance} {request : Cells (List Reply)}
    {growths : List Ensured} {asks : Prop} (hi' : i'.Ready)
    (hh : Handles request growths i.slot asks) (h : i.handle request growths = some i') :
    ¬ asks := by
  obtain ⟨-, -, -, hpanic⟩ := Instance.handle_cases h
  exact fun hasks => hi'.present (hpanic.2 (hh.panics.2 hasks))

theorem ready_initial : Ready initial := by
  have hempty : Instance.Ready ⟨none, .running, []⟩ :=
    ⟨nofun, fun _ he => absurd he List.not_mem_nil, fun _ he => absurd he List.not_mem_nil⟩
  exact ⟨hempty, hempty⟩

/-- A handler that is refused does nothing to its actor. -/
theorem handles_refused {h : Heap} {x : Handler (Cells (List Reply))} (hx : Refused x h)
    (growths : List Ensured) (slot : Slot) :
    Handles (served h x) (grown h x growths) slot False := by
  have hnone : grown h x growths = [] := by
    obtain ⟨e, he⟩ := hx
    rw [grown, he]
  obtain ⟨e, he⟩ := served_of_refused hx
  rw [hnone]
  refine handles_of_slot ?_ (fun text htext => ?_) not_false
  · rw [he]
  · rw [he] at htext
    cases htext

/-- A sparse request unwraps a clone of the buffer it writes, whose handle is alive. -/
theorem SparseMsg.run_refused (env : SparseEnv) (msg : SparseMsg) {h : Heap}
    (halive : ∀ r ∈ msg.buffers, r ∈ h.refs) : Refused (msg.run env) h := by
  have hwrite : ∀ (csr : CsrMatrix) (x y : GpuRef) (text : String) (rest : Cells (List Reply)),
      y ∈ h.refs → Refused (do
        let _ ← accessClone csr.rowOffsets
        let _ ← accessClone csr.colIndices
        let _ ← accessClone csr.values
        let _ ← accessClone x
        let ySlice ← accessClone y
        tryUnwrap ySlice text
        return rest : Handler (Cells (List Reply))) h := by
    intro csr x y text rest hy
    refine refused_of_accessClone <| refused_of_accessClone <| refused_of_accessClone <|
      refused_of_accessClone ?_
    exact refused_of_unwrap (h := (((h.clone _).clone _).clone _).clone _) hy _ _
  cases msg with
  | spMv csr x y => exact hwrite csr x y _ _ (halive y (by simp [buffers]))
  | spMm csr b c => exact hwrite csr b c _ _ (halive c (by simp [buffers]))

theorem Ready.step {s s' : State} {l : Label} (h : Ready s) (hstep : step s l = some s') :
    Ready s' := by
  cases l with
  | sparse x env =>
    obtain ⟨i, hi, rfl⟩ := Option.map_eq_some_iff.1 hstep
    have hrefused := x.msg.run_refused env x.alive
    exact ⟨h.1.handle (handles_refused hrefused _ _) hi not_false, h.2⟩
  | dense x t env =>
    obtain ⟨i, hi, rfl⟩ := Option.map_eq_some_iff.1 hstep
    have hrefused := x.request.run_refused t env x.alive
    exact ⟨h.1, h.2.handle (handles_refused hrefused _ _) hi not_false⟩

/-- **In every state of every run what was ensured is there and long enough, no closure has missed
its workspace, no workspace has shrunk and the failed growths have changed nothing.** -/
theorem along_ready (ls : List Label) : system.Along Ready system.init ls :=
  System.along_of_inv (I := Ready) (fun _ hs => hs) (fun _ _ _ hs hstep => hs.step hstep)
    ready_initial ls

/-! ### With the buffers in hand -/

theorem Ready.launch {s s' : State} {l : Launch} (h : Ready s) (hC : AsksOnFull s l)
    (hstep : launchStep s l = some s') : Ready s' := by
  cases l with
  | sparse calls env =>
    obtain ⟨i, hi, rfl⟩ := Option.map_eq_some_iff.1 hstep
    exact ⟨h.1.handle (sparse_handles _ _ _) hi fun hasks => hC hasks.1 hasks.2, h.2⟩
  | dense op t env =>
    obtain ⟨i, hi, rfl⟩ := Option.map_eq_some_iff.1 hstep
    exact ⟨h.1, h.2.handle (dense_handles _ _ _ _) hi fun hasks => hC hasks.1 hasks.2⟩

theorem asksOnFull_of_ready {s s' : State} {l : Launch} (hstep : launchStep s l = some s')
    (hs' : Ready s') : AsksOnFull s l := by
  cases l with
  | sparse calls env =>
    obtain ⟨i, hi, rfl⟩ := Option.map_eq_some_iff.1 hstep
    exact fun hdesc hempty => hs'.1.not_asks (sparse_handles _ _ _) hi ⟨hdesc, hempty⟩
  | dense op t env =>
    obtain ⟨i, hi, rfl⟩ := Option.map_eq_some_iff.1 hstep
    exact fun hquery hempty => hs'.2.not_asks (dense_handles _ _ _ _) hi ⟨hquery, hempty⟩

/-- If the requests came by their buffers, all this would be so in every state of a run exactly when
no request of the run has nothing ensured on a slot that is still empty. -/
theorem along_launches_iff (ls : List Launch) :
    launches.Along Ready launches.init ls ↔ launches.Meets AsksOnFull launches.init ls := by
  constructor
  · refine System.meets_of_along (I := Ready) ?_ ?_ ready_initial
    · exact fun s l s' _ hstep hs' => asksOnFull_of_ready hstep hs'
    · exact fun s l s' hs hC hstep => hs.launch hC hstep
  · refine System.along_of_meets (I := Ready) ?_ ?_ ready_initial
    · exact fun s hs => hs
    · exact fun s l s' hs hC hstep => hs.launch hC hstep

/-- cuSPARSE does what it is asked, and its first product needs no buffer. -/
def bufferless : SparseEnv :=
  ⟨.success, .success, .success, .success, 0, fun _ => .ok 4096, .success, .ok ()⟩

/-- A first launch of size zero is ensured, and its closure panics. -/
theorem first_empty_launch_panics :
    ¬ (∀ ls, launches.Along Ready launches.init ls) ∧
    ∃ s, launches.run launches.init [.sparse spmvCalls bufferless] = some s ∧
      s.sparse.condition = .panicked ∧ s.sparse.growths = [⟨none, none, 0, .ok ()⟩] := by
  refine ⟨fun hall => ?_, _, rfl, rfl, rfl⟩
  exact ((hall [.sparse spmvCalls bufferless]).last rfl).1.present rfl

end Workspace

end AtomrAccel
