import AtomrAccel.Kernel.Collective
import AtomrAccel.Kernel.Solver

/-!
# `kernel::solver::batched`: LU and Cholesky of many matrices at once

A batched request has one buffer of matrices behind each other.  The handler uploads a table with
the address of each, allocates an info code for each, and hands both to the library with the size
and the number of the matrices.  Neither number is compared with the length of a buffer, and the
three places that count the matrices clamp the number differently.

* `uploadPointerTable`, `checkInfoArray`, `launchBatched`: the parts that both requests have in
  common, with `runGetrfBatched` and `runPotrfBatched` over them;
* `Outcome.Sound`: no panic, one reply, and a call of the library only with matrices and pivots that
  lie in the buffers of the request;
* `launchBatched_sound_iff`: what it takes past the checks of the handles;
* `batched_sound`: no request gets there, since the handle in the request still shares the buffer
  that the handler wants for itself.
-/

namespace AtomrAccel

namespace Solver

open Handler Collective

/-- The triangle that is used. -/
inductive Uplo
  | upper
  | lower
  deriving DecidableEq, Repr

/-- A batch of factorisations into triangular matrices. -/
structure GetrfBatchedRequest where
  a : GpuRef
  n : Int32
  batchSize : Int32
  ipiv : GpuRef
  deriving DecidableEq, Repr

/-- A batch of factorisations of positive matrices. -/
structure PotrfBatchedRequest where
  a : GpuRef
  n : Int32
  batchSize : Int32
  uplo : Uplo
  deriving DecidableEq, Repr

/-- What the driver and the libraries answer to one request. -/
structure BatchedEnv where
  newBlas : Except String Unit
  allocTable : ℕ → Except String Unit
  uploadTable : Except String Unit
  allocInfo : ℕ → Except String Unit
  /-- the routine itself -/
  status : CusolverStatus
  /-- the info codes, read back into so many entries -/
  readInfo : ℕ → Except String (List Int32)
  synchronize : Except String Unit
  completion : Except GpuError Unit

/-- What is handed to the library: `cublasGetrfBatched` with pivots, `cusolverDnPotrfBatched` with a
triangle. -/
structure BatchedCall where
  table : List ℕ
  n : Int32
  batchSize : Int32
  a : CudaSlice
  ipiv : Option CudaSlice
  uplo : Option Uplo
  deriving DecidableEq, Repr

/-- What a handler did: its calls of the library, its replies, and the text of a panic. -/
structure Outcome where
  calls : List BatchedCall
  replies : List Reply
  panicked : Option String

/-- `x.max(0) as usize`. -/
def clamp (x : Int32) : ℕ := x.toInt.toNat

/-- The addresses of the matrices; the products wrap and the sum saturates. -/
def pointerTable (size base : ℕ) (batch n : Int32) : List ℕ :=
  let strideBytes := usize (usize (clamp n * clamp n) * size)
  (List.range (clamp batch)).map fun i => min (base + usize (i * strideBytes)) (2 ^ 64 - 1)

/-- `upload_pointer_table`; the device table has room for all addresses. -/
def uploadPointerTable (env : BatchedEnv) (size base : ℕ) (batch n : Int32) :
    Handler (List ℕ) := do
  let count := clamp batch
  orReply ((env.allocTable (max count 1)).mapError fun e =>
    .outOfMemory ("ptr table (" ++ toString count ++ "): " ++ e))
  orReply (env.uploadTable.mapError fun e =>
    .libraryError "cusolver" ("upload ptr table: " ++ e))
  return pointerTable size base batch n

/-- `check_info_array` with an info buffer of length `infoLen`, which `memcpy_dtoh` wants to find
room for. -/
def checkInfoArray (env : BatchedEnv) (op : String) (infoLen n : ℕ) : Except Refusal Unit :=
  if n < infoLen then .error (.panic "assertion failed: dst.len() >= src.len()")
  else
    match env.readInfo n with
    | .error e => .error (.reply (.libraryError "cusolver" (op ++ ": read info array: " ++ e)))
    | .ok host =>
      match env.synchronize with
      | .error e =>
        .error (.reply (.libraryError "cusolver" (op ++ ": sync after info array: " ++ e)))
      | .ok () =>
        match host.zipIdx.find? fun p => p.1 ≠ 0 with
        | some (code, idx) =>
          .error (.reply (.libraryError "cusolver"
            (op ++ ": batch[" ++ toString idx ++ "] info=" ++ toString code)))
        | none => .ok ()

/-- The enqueue closure under `run_kernel`. -/
def enqueueBatched (env : BatchedEnv) (op : String) (infoLen : ℕ) (c : BatchedCall) : Outcome :=
  match statusToResult env.status op with
  | .error e => ⟨[c], [runKernel "cusolver" none (.error e) env.completion], none⟩
  | .ok () =>
    match checkInfoArray env op infoLen (clamp c.batchSize) with
    | .error (.panic text) => ⟨[c], [], some text⟩
    | .error (.reply e) => ⟨[c], [runKernel "cusolver" none (.error e) env.completion], none⟩
    | .ok () => ⟨[c], [runKernel "cusolver" none (.ok ()) env.completion], none⟩

/-- `batch_size.max(1) as usize`. -/
def infoLength (batch : Int32) : ℕ := max (clamp batch) 1

/-- A request from the upload of the table on, with its buffers in hand. -/
def launchBatched (t : SolverDtype) (env : BatchedEnv) (name op : String) (a : CudaSlice)
    (n batch : Int32) (ipiv : Option CudaSlice) (uplo : Option Uplo) : Handler Outcome := do
  let table ← uploadPointerTable env t.size a.addr batch n
  orReply ((env.allocInfo (infoLength batch)).mapError fun e =>
    .outOfMemory (name ++ " info: " ++ e))
  return enqueueBatched env op (infoLength batch) ⟨table, n, batch, a, ipiv, uplo⟩

/-- `run_getrf_batched`. -/
def runGetrfBatched (t : SolverDtype) (env : BatchedEnv) (req : GetrfBatchedRequest) :
    Handler Outcome := do
  let aSlice ← accessClone req.a
  let ipivSlice ← accessClone req.ipiv
  tryUnwrap aSlice "GetrfBatched a has multiple live references"
  tryUnwrap ipivSlice "GetrfBatched ipiv has multiple live references"
  orReply (env.newBlas.mapError fun e => .libraryError "cusolver" ("CudaBlas::new: " ++ e))
  launchBatched t env "GetrfBatched" "getrfBatched" aSlice req.n req.batchSize (some ipivSlice) none

/-- `run_potrf_batched`. -/
def runPotrfBatched (t : SolverDtype) (env : BatchedEnv) (req : PotrfBatchedRequest) :
    Handler Outcome := do
  let aSlice ← accessClone req.a
  tryUnwrap aSlice "PotrfBatched a has multiple live references"
  launchBatched t env "PotrfBatched" "potrfBatched" aSlice req.n req.batchSize none (some req.uplo)

/-- The batched requests. -/
inductive BatchedOp
  | getrf (req : GetrfBatchedRequest)
  | potrf (req : PotrfBatchedRequest)
  deriving DecidableEq, Repr

namespace BatchedOp

/-- The handler of a request. -/
def run (t : SolverDtype) (env : BatchedEnv) : BatchedOp → Handler Outcome
  | getrf req => runGetrfBatched t env req
  | potrf req => runPotrfBatched t env req

/-- The buffers of a request. -/
def buffers : BatchedOp → List GpuRef
  | getrf req => [req.a, req.ipiv]
  | potrf req => [req.a]

end BatchedOp

/-- The end of a handler: what it did, or how it ended before the enqueue. -/
def conclude (h : Heap) (x : Handler Outcome) : Outcome :=
  match x h with
  | .ok (y, _) => y
  | .error (.reply e) => ⟨[], [.error e], none⟩
  | .error (.panic text) => ⟨[], [], some text⟩

/-- Each matrix is where the table says, in the buffer of the matrices, and its pivots are in the
buffer of the pivots. -/
def BatchedCall.Inside (size : ℕ) (c : BatchedCall) : Prop :=
  ∀ i < clamp c.batchSize,
    let matrix := (c.n.toInt * c.n.toInt).toNat
    c.table[i]? = some (c.a.addr + i * matrix * size) ∧
      c.a.addr + i * matrix * size < 2 ^ 64 ∧ (i + 1) * matrix ≤ c.a.len ∧
      ∀ p ∈ c.ipiv, (i + 1) * clamp c.n ≤ p.len

/-- No panic and one reply, which is an error unless the library was called with ranges that it may
touch. -/
structure Outcome.Sound (size : ℕ) (y : Outcome) : Prop where
  calm : y.panicked = none
  replied : y.replies.length = 1
  inside : (y.calls = [] ∧ ∃ e, y.replies = [.error e]) ∨ ∀ c ∈ y.calls, c.Inside size

/-! ### Past the checks of the handles -/

/-- The request gets to the call of the library. -/
def BatchedEnv.Reaches (env : BatchedEnv) (batch : Int32) : Prop :=
  (env.allocTable (max (clamp batch) 1)).isOk = true ∧ env.uploadTable.isOk = true ∧
    (env.allocInfo (infoLength batch)).isOk = true

section Launch

variable {t : SolverDtype} {env : BatchedEnv} {n batch : Int32} {a : CudaSlice}
  {ipiv : Option CudaSlice} {uplo : Option Uplo} {h : Heap}

/-- The number of matrices and the length of the info buffer differ only when there is none. -/
theorem clamp_lt_infoLength : clamp batch < infoLength batch ↔ clamp batch = 0 := by
  unfold infoLength
  omega

theorem enqueueBatched_calls (env : BatchedEnv) (op : String) (infoLen : ℕ) (c : BatchedCall) :
    (enqueueBatched env op infoLen c).calls = [c] := by
  unfold enqueueBatched
  split
  · rfl
  · split <;> rfl

/-- The read of the info codes panics when the host has no room for one. -/
theorem checkInfoArray_panics_iff (env : BatchedEnv) (op : String) (infoLen n : ℕ) :
    (∃ text, checkInfoArray env op infoLen n = .error (.panic text)) ↔ n < infoLen := by
  unfold checkInfoArray
  by_cases hroom : n < infoLen
  · rw [if_pos hroom]
    exact iff_of_true ⟨_, rfl⟩ hroom
  · rw [if_neg hroom]
    refine iff_of_false ?_ hroom
    rintro ⟨text, htext⟩
    split at htext
    · cases htext
    · split at htext
      · cases htext
      · split at htext <;> cases htext

/-- The closure panics, with no reply, or replies once. -/
theorem enqueueBatched_replies (env : BatchedEnv) (op : String) (infoLen : ℕ) (c : BatchedCall) :
    (enqueueBatched env op infoLen c).panicked = none ∧
        (enqueueBatched env op infoLen c).replies.length = 1 ↔
      env.status ≠ .success ∨ infoLen ≤ clamp c.batchSize := by
  unfold enqueueBatched
  cases hstatus : env.status with
  | failure debug => exact iff_of_true ⟨rfl, rfl⟩ (.inl nofun)
  | success =>
    have hpanics := checkInfoArray_panics_iff env op infoLen (clamp c.batchSize)
    simp only [statusToResult]
    cases hcheck : checkInfoArray env op infoLen (clamp c.batchSize) with
    | ok u =>
      refine iff_of_true ⟨rfl, rfl⟩ (.inr ?_)
      by_contra hlt
      obtain ⟨text, htext⟩ := hpanics.2 (Nat.lt_of_not_le hlt)
      cases hcheck.symm.trans htext
    | error r =>
      cases r with
      | panic text =>
        refine iff_of_false (fun hcalm => Option.some_ne_none text hcalm.1) ?_
        rintro (hne | hle)
        · exact hne rfl
        · exact absurd (hpanics.1 ⟨text, hcheck⟩) (Nat.not_lt.2 hle)
      | reply e =>
        refine iff_of_true ⟨rfl, rfl⟩ (.inr ?_)
        by_contra hlt
        obtain ⟨text, htext⟩ := hpanics.2 (Nat.lt_of_not_le hlt)
        cases hcheck.symm.trans htext

theorem orReply_ok {x : Except String Unit} {f : String → GpuError} (hx : x.isOk = true) :
    orReply (x.mapError f) h = .ok ((), h) := by
  cases x with
  | ok u => rfl
  | error e => cases hx

theorem orReply_refused {x : Except String Unit} (f : String → GpuError) (hx : ¬ x.isOk = true) :
    Refused (orReply (x.mapError f)) h := by
  cases x with
  | ok u => exact absurd rfl hx
  | error e => exact ⟨f e, rfl⟩

theorem conclude_of_refused {x : Handler Outcome} (hx : Refused x h) (size : ℕ) :
    (conclude h x).Sound size := by
  obtain ⟨e, he⟩ := hx
  unfold conclude
  rw [he]
  exact ⟨rfl, rfl, .inl ⟨rfl, e, rfl⟩⟩

/-- A launch is answered with an error, or comes to its call of the library. -/
theorem launchBatched_cases (t : SolverDtype) (env : BatchedEnv) (name op : String) (a : CudaSlice)
    (n batch : Int32) (ipiv : Option CudaSlice) (uplo : Option Uplo) (h : Heap) :
    (¬ env.Reaches batch ∧ Refused (launchBatched t env name op a n batch ipiv uplo) h) ∨
    (env.Reaches batch ∧ launchBatched t env name op a n batch ipiv uplo h =
      .ok (enqueueBatched env op (infoLength batch)
        ⟨pointerTable t.size a.addr batch n, n, batch, a, ipiv, uplo⟩, h)) := by
  by_cases halloc : (env.allocTable (max (clamp batch) 1)).isOk = true
  · by_cases hupload : env.uploadTable.isOk = true
    · have htable : uploadPointerTable env t.size a.addr batch n h =
          .ok (pointerTable t.size a.addr batch n, h) :=
        (bind_of_ok (orReply_ok halloc) _).trans (bind_of_ok (orReply_ok hupload) _)
      by_cases hinfo : (env.allocInfo (infoLength batch)).isOk = true
      · right
        exact ⟨⟨halloc, hupload, hinfo⟩,
          (bind_of_ok htable _).trans (bind_of_ok (orReply_ok hinfo) _)⟩
      · left
        refine ⟨fun hreach => hinfo hreach.2.2, ?_⟩
        obtain ⟨e, he⟩ := (orReply_refused (h := h) _ hinfo).bind _
        exact ⟨e, (bind_of_ok htable _).trans he⟩
    · left
      refine ⟨fun hreach => hupload hreach.2.1, Refused.bind ?_ _⟩
      obtain ⟨e, he⟩ := (orReply_refused (h := h) _ hupload).bind _
      exact ⟨e, (bind_of_ok (orReply_ok halloc) _).trans he⟩
  · left
    exact ⟨fun hreach => halloc hreach.1, ((orReply_refused _ halloc).bind _).bind _⟩

/-- With its buffers in hand a request is sound exactly when, if it gets to the library, the ranges
are right and an empty batch is turned down by the library. -/
theorem launchBatched_sound_iff (t : SolverDtype) (env : BatchedEnv) (name op : String)
    (a : CudaSlice) (n batch : Int32) (ipiv : Option CudaSlice) (uplo : Option Uplo) (h : Heap) :
    (conclude h (launchBatched t env name op a n batch ipiv uplo)).Sound t.size ↔
      (env.Reaches batch → (env.status ≠ .success ∨ clamp batch ≠ 0) ∧
        BatchedCall.Inside t.size
          ⟨pointerTable t.size a.addr batch n, n, batch, a, ipiv, uplo⟩) := by
  obtain ⟨hnot, hrefused⟩ | ⟨hreach, hrun⟩ :=
    launchBatched_cases t env name op a n batch ipiv uplo h
  · exact iff_of_true (conclude_of_refused hrefused _) fun hreach => absurd hreach hnot
  · unfold conclude
    rw [hrun]
    have hreplies := enqueueBatched_replies env op (infoLength batch)
      ⟨pointerTable t.size a.addr batch n, n, batch, a, ipiv, uplo⟩
    have hroom : infoLength batch ≤ clamp batch ↔ clamp batch ≠ 0 := by
      rw [← Nat.not_lt, clamp_lt_infoLength]
    rw [hroom] at hreplies
    have hcalls := enqueueBatched_calls env op (infoLength batch)
      ⟨pointerTable t.size a.addr batch n, n, batch, a, ipiv, uplo⟩
    constructor
    · rintro ⟨hcalm, hreplied, hinside⟩ -
      refine ⟨hreplies.1 ⟨hcalm, hreplied⟩, ?_⟩
      rcases hinside with ⟨hnone, -⟩ | hall
      · cases hcalls.symm.trans hnone
      · exact hall _ (hcalls ▸ List.mem_singleton.2 rfl)
    · intro hsound
      obtain ⟨hstatus, hinside⟩ := hsound hreach
      obtain ⟨hcalm, hreplied⟩ := hreplies.2 hstatus
      refine ⟨hcalm, hreplied, .inr fun c hc => ?_⟩
      rw [hcalls] at hc
      cases List.mem_singleton.1 hc
      exact hinside

theorem toNat_square (hn : 0 ≤ n.toInt) : (n.toInt * n.toInt).toNat = clamp n * clamp n := by
  unfold clamp
  obtain ⟨k, hk⟩ := Int.eq_ofNat_of_zero_le hn
  rw [hk]
  simp only [Int.toNat_natCast, ← Int.natCast_mul]

theorem pointerTable_getElem? {size base i : ℕ} (hi : i < clamp batch)
    (hspace : base + clamp batch * (clamp n * clamp n) * size < 2 ^ 64) :
    (pointerTable size base batch n)[i]? = some (base + i * (clamp n * clamp n) * size) := by
  generalize hm : clamp n * clamp n = m at hspace ⊢
  have hle : ∀ k ≤ clamp batch, k * m * size ≤ clamp batch * m * size := fun k hk =>
    Nat.mul_le_mul_right _ (Nat.mul_le_mul_right _ hk)
  have hone : 1 * m * size ≤ clamp batch * m * size := hle 1 (by omega)
  rw [Nat.one_mul] at hone
  have hentry := hle i (by omega)
  have hmatrix : usize m * size = m * size := by
    by_cases hsize : size = 0
    · simp [hsize]
    · have hm' : m ≤ m * size := Nat.le_mul_of_pos_right _ (Nat.pos_of_ne_zero hsize)
      rw [usize, Nat.mod_eq_of_lt (by omega)]
  have hstride : usize (m * size) = m * size := Nat.mod_eq_of_lt (by omega)
  have hoffset : usize (i * (m * size)) = i * m * size := by
    rw [← Nat.mul_assoc]
    exact Nat.mod_eq_of_lt (by omega)
  simp only [pointerTable, hm, hmatrix, hstride]
  rw [List.getElem?_map, List.getElem?_range hi, Option.map_some, hoffset,
    Nat.min_eq_left (by omega)]

/-- The ranges are right exactly when both buffers are long enough for the whole batch. -/
theorem inside_iff_fits (hn : 0 ≤ n.toInt) (hspace : a.addr + a.len * t.size < 2 ^ 64) :
    BatchedCall.Inside t.size ⟨pointerTable t.size a.addr batch n, n, batch, a, ipiv, uplo⟩ ↔
      clamp batch * (clamp n * clamp n) ≤ a.len ∧
        ∀ p ∈ ipiv, clamp batch * clamp n ≤ p.len := by
  simp only [BatchedCall.Inside, toNat_square hn]
  constructor
  · intro hinside
    by_cases hbatch : clamp batch = 0
    · simp [hbatch]
    · obtain ⟨-, -, hmatrix, hpivots⟩ := hinside (clamp batch - 1) (by omega)
      have hlast : clamp batch - 1 + 1 = clamp batch := by omega
      rw [hlast] at hmatrix hpivots
      exact ⟨hmatrix, hpivots⟩
  · rintro ⟨hmatrices, hpivots⟩ i hi
    have hbytes : clamp batch * (clamp n * clamp n) * t.size ≤ a.len * t.size :=
      Nat.mul_le_mul_right _ hmatrices
    have hbefore : i * (clamp n * clamp n) * t.size ≤
        clamp batch * (clamp n * clamp n) * t.size :=
      Nat.mul_le_mul_right _ (Nat.mul_le_mul_right _ (Nat.le_of_lt hi))
    refine ⟨pointerTable_getElem? hi (by omega), by omega, ?_, fun p hp => ?_⟩
    · exact (Nat.mul_le_mul_right _ hi).trans hmatrices
    · exact (Nat.mul_le_mul_right _ hi).trans (hpivots p hp)

end Launch

/-! ### Before -/

section Handlers

variable {h : Heap}

/-- The handle of the matrices is alive while a clone of its buffer is unwrapped. -/
theorem runGetrfBatched_refused (t : SolverDtype) (env : BatchedEnv) (req : GetrfBatchedRequest)
    (ha : req.a ∈ h.refs) : Refused (runGetrfBatched t env req) h :=
  refused_of_unwrap_first ha _ _

theorem runPotrfBatched_refused (t : SolverDtype) (env : BatchedEnv) (req : PotrfBatchedRequest)
    (ha : req.a ∈ h.refs) : Refused (runPotrfBatched t env req) h :=
  refused_of_unwrap ha _ _

/-- **A batched request does not panic and is answered once, with an error unless every matrix and
every pivot that the library may touch lies in the buffers of the request.** -/
theorem batched_sound (t : SolverDtype) (env : BatchedEnv) (op : BatchedOp) (h : Heap)
    (halive : ∀ r ∈ op.buffers, r ∈ h.refs) : (conclude h (op.run t env)).Sound t.size := by
  cases op with
  | getrf req =>
    have ha : req.a ∈ h.refs := halive _ List.mem_cons_self
    exact conclude_of_refused (runGetrfBatched_refused t env req ha) _
  | potrf req =>
    have ha : req.a ∈ h.refs := halive _ List.mem_cons_self
    exact conclude_of_refused (runPotrfBatched_refused t env req ha) _

/-- Everything succeeds. -/
def willing : BatchedEnv where
  newBlas := .ok ()
  allocTable := fun _ => .ok ()
  uploadTable := .ok ()
  allocInfo := fun _ => .ok ()
  status := .success
  readInfo := fun n => .ok (List.replicate n 0)
  synchronize := .ok ()
  completion := .ok ()

/-- Three matrices of four elements, in a buffer of four. -/
def crowded : BatchedOp := .getrf ⟨0, 2, 3, 1⟩

theorem crowded_sound : (conclude twoDevices (crowded.run .f64 willing)).Sound 8 :=
  batched_sound .f64 willing crowded twoDevices fun _ hr => hr

/-- With the buffers in hand the same request would run over both, and an empty one would panic. -/
theorem crowded_launch_unsound :
    ¬ (conclude twoDevices (launchBatched .f64 willing "GetrfBatched" "getrfBatched" ⟨0, 0, 4⟩ 2 3
      (some ⟨1, 1, 4⟩) none)).Sound 8 ∧
    ¬ (conclude twoDevices (launchBatched .f64 willing "GetrfBatched" "getrfBatched" ⟨0, 0, 4⟩ 2 0
      (some ⟨1, 1, 4⟩) none)).Sound 8 := by
  have hreach : ∀ batch, willing.Reaches batch := fun _ => ⟨rfl, rfl, rfl⟩
  constructor
  · intro hsound
    have hinside := ((launchBatched_sound_iff .f64 _ _ _ _ _ _ _ _ _).1 hsound (hreach 3)).2
    have hfits := (inside_iff_fits (t := .f64) (by decide) (by decide)).1 hinside
    exact absurd hfits.1 (by decide)
  · intro hsound
    have hempty := ((launchBatched_sound_iff .f64 _ _ _ _ _ _ _ _ _).1 hsound (hreach 0)).1
    rcases hempty with hne | hne
    · exact hne rfl
    · exact hne (by decide)

end Handlers

end Solver

end AtomrAccel
