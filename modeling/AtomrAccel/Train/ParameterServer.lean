import AtomrAccel.Device.Error
import Mathlib.Algebra.BigOperators.Group.List.Basic
import Mathlib.Algebra.Field.Rat
import Mathlib.Data.List.DropRight

/-!
# `AsyncParameterServer`: weights under bounded staleness

Workers push gradients computed on weights they pulled earlier.  The server takes a gradient when
the version it was computed on is at most `max_staleness` behind, and counts its version up by one
for each gradient taken.  The arithmetic is that of a field in place of `f32`.

* `AsyncParameterServer`, `handle`: the server and its handler;
* `Exchange`, `history`, `accepted`: a run with its replies, and the pushes answered with `Ok`;
* `Reflects`: the server holds what the accepted pushes make of the initial weights;
* `reflects_run`, `run_weights_eq_of_perm`: so it is after every run, in whatever order the pushes
  were accepted.
-/

namespace AtomrAccel

namespace Train

/-- The optimizers. -/
inductive OptimizerKind (R : Type)
  | sgd (lr momentum weightDecay : R)
  | adamW (lr beta1 beta2 eps weightDecay : R)
  deriving DecidableEq, Repr

/-- The learning rate. -/
def OptimizerKind.lr {R : Type} : OptimizerKind R → R
  | sgd lr _ _ => lr
  | adamW lr _ _ _ _ => lr

/-- The number of a worker. -/
structure WorkerId where
  id : UInt32
  deriving DecidableEq, Repr

/-- What `Stats` answers. -/
structure ParameterServerStats (R : Type) where
  version : UInt64
  gradientsApplied : UInt64
  weightsPulled : UInt64
  avgStaleness : R
  deriving DecidableEq, Repr

/-- The messages of the server. -/
inductive ParameterServerMsg (R : Type)
  | pushGradient (worker : WorkerId) (workerVersion : UInt64) (gradient : List R)
  | pullWeights (worker : WorkerId)
  | stats
  deriving DecidableEq, Repr

/-- What goes back on the reply channels. -/
inductive Reply (R : Type)
  | push (result : Except GpuError UInt64)
  | pull (weights : List R) (version : UInt64)
  | stats (stats : ParameterServerStats R)

/-- `staleness_window` lists the oldest value first. -/
structure AsyncParameterServer (R : Type) where
  weights : List R
  version : UInt64
  optimizer : OptimizerKind R
  maxStaleness : UInt64
  gradientsApplied : UInt64
  weightsPulled : UInt64
  stalenessWindow : List UInt64
  deriving DecidableEq, Repr

/-- `u64::saturating_sub`. -/
def saturatingSub (a b : UInt64) : UInt64 := if b ≤ a then a - b else 0

theorem saturatingSub_toNat (a b : UInt64) : (saturatingSub a b).toNat = a.toNat - b.toNat := by
  unfold saturatingSub
  split_ifs with h
  · exact UInt64.toNat_sub_of_le a b h
  · have hlt : a.toNat < b.toNat := by simpa [UInt64.le_iff_toNat_le] using h
    rw [Nat.sub_eq_zero_of_le hlt.le]
    rfl

namespace AsyncParameterServer

variable {R : Type}

/-- The server that `props` starts. -/
def new (initialWeights : List R) (optimizer : OptimizerKind R) (maxStaleness : UInt64) :
    AsyncParameterServer R where
  weights := initialWeights
  version := 0
  optimizer := optimizer
  maxStaleness := maxStaleness
  gradientsApplied := 0
  weightsPulled := 0
  stalenessWindow := []

variable [Field R]

/-- The loop `*w -= lr * g` over the first `n` weights. -/
def descend (lr : R) (weights grad : List R) : List R :=
  let n := min weights.length grad.length
  List.zipWith (fun w g => w - lr * g) (weights.take n) (grad.take n) ++ weights.drop n

/-- A step of the optimizer, over the elements both have. -/
def applyGradient (s : AsyncParameterServer R) (grad : List R) : AsyncParameterServer R :=
  { s with
    weights := descend s.optimizer.lr s.weights grad
    version := s.version + 1
    gradientsApplied := s.gradientsApplied + 1 }

/-- How far the version a gradient was computed on is behind. -/
def staleness (s : AsyncParameterServer R) (workerVersion : UInt64) : UInt64 :=
  saturatingSub s.version workerVersion

/-- `push_back`, and `pop_front` when there are more than 128. -/
def pushStaleness (window : List UInt64) (staleness : UInt64) : List UInt64 :=
  let window := window ++ [staleness]
  if 128 < window.length then window.tail else window

/-- The mean of the window. -/
def avgStaleness (window : List UInt64) : R :=
  if window.isEmpty then 0 else ((window.foldl (· + ·) 0).toNat : R) / (window.length : R)

/-- A push is accepted unless it is too stale. -/
def handle (s : AsyncParameterServer R) :
    ParameterServerMsg R → AsyncParameterServer R × Reply R
  | .pushGradient _ workerVersion gradient =>
    let staleness := s.staleness workerVersion
    if s.maxStaleness < staleness then
      (s, .push (.error (.unrecoverable ("parameter server: staleness " ++
        toString staleness ++ " > max " ++ toString s.maxStaleness))))
    else
      let s := s.applyGradient gradient
      let s := { s with stalenessWindow := pushStaleness s.stalenessWindow staleness }
      (s, .push (.ok s.version))
  | .pullWeights _ =>
    ({ s with weightsPulled := s.weightsPulled + 1 }, .pull s.weights s.version)
  | .stats =>
    (s, .stats ⟨s.version, s.gradientsApplied, s.weightsPulled, avgStaleness s.stalenessWindow⟩)

/-- The state the messages lead to. -/
def run (s : AsyncParameterServer R) (msgs : List (ParameterServerMsg R)) :
    AsyncParameterServer R :=
  msgs.foldl (fun s msg => (s.handle msg).1) s

/-- A message with the state it finds and the reply it gets. -/
structure Exchange (R : Type) where
  before : AsyncParameterServer R
  msg : ParameterServerMsg R
  reply : Reply R

/-- Every message with the state before it and its reply. -/
def history (s : AsyncParameterServer R) : List (ParameterServerMsg R) → List (Exchange R)
  | [] => []
  | msg :: msgs => ⟨s, msg, (s.handle msg).2⟩ :: history (s.handle msg).1 msgs

/-- A push answered with `Ok`: its gradient, how stale it was, and the version of the reply. -/
structure Accepted (R : Type) where
  gradient : List R
  staleness : UInt64
  version : UInt64
  deriving DecidableEq, Repr

omit [Field R] in
/-- The gradient, if it was accepted. -/
def Exchange.accepted : Exchange R → Option (Accepted R)
  | ⟨before, .pushGradient _ workerVersion gradient, .push (.ok version)⟩ =>
    some ⟨gradient, before.staleness workerVersion, version⟩
  | _ => none

/-- The accepted pushes of a run, in order. -/
def accepted (s : AsyncParameterServer R) (msgs : List (ParameterServerMsg R)) :
    List (Accepted R) :=
  (s.history msgs).filterMap Exchange.accepted

/-! ### One message -/

theorem handle_push_of_le {s : AsyncParameterServer R} {worker : WorkerId} {v : UInt64}
    {gradient : List R} (h : s.staleness v ≤ s.maxStaleness) :
    s.handle (.pushGradient worker v gradient) =
      ({ s with
          weights := descend s.optimizer.lr s.weights gradient
          version := s.version + 1
          gradientsApplied := s.gradientsApplied + 1
          stalenessWindow := pushStaleness s.stalenessWindow (s.staleness v) },
        .push (.ok (s.version + 1))) :=
  if_neg (UInt64.not_lt.2 h)

theorem handle_push_of_lt {s : AsyncParameterServer R} {worker : WorkerId} {v : UInt64}
    {gradient : List R} (h : s.maxStaleness < s.staleness v) :
    s.handle (.pushGradient worker v gradient) =
      (s, .push (.error (.unrecoverable ("parameter server: staleness " ++
        toString (s.staleness v) ++ " > max " ++ toString s.maxStaleness)))) :=
  if_pos h

/-- A push is accepted when it is not too stale. -/
theorem handle_push_ok_iff {s : AsyncParameterServer R} {worker : WorkerId} {v : UInt64}
    {gradient : List R} :
    (∃ version, (s.handle (.pushGradient worker v gradient)).2 = .push (.ok version)) ↔
      s.version.toNat - v.toNat ≤ s.maxStaleness.toNat := by
  rw [← saturatingSub_toNat, ← UInt64.le_iff_toNat_le]
  constructor
  · rintro ⟨version, hreply⟩
    by_contra hlt
    rw [handle_push_of_lt (UInt64.not_le.1 hlt)] at hreply
    cases hreply
  · intro hle
    exact ⟨s.version + 1, by rw [handle_push_of_le hle]⟩

/-- A rejected push changes nothing. -/
theorem handle_push_error {s : AsyncParameterServer R} {worker : WorkerId} {v : UInt64}
    {gradient : List R} {e : GpuError}
    (h : (s.handle (.pushGradient worker v gradient)).2 = .push (.error e)) :
    (s.handle (.pushGradient worker v gradient)).1 = s := by
  by_cases hle : s.staleness v ≤ s.maxStaleness
  · rw [handle_push_of_le hle] at h
    cases h
  · rw [handle_push_of_lt (UInt64.not_le.1 hle)]

@[simp] theorem length_descend (lr : R) (weights grad : List R) :
    (descend lr weights grad).length = weights.length := by
  simp only [descend, List.length_append, List.length_zipWith, List.length_take, List.length_drop]
  omega

/-- One coordinate of the loop: a gradient counts as zero past its end. -/
theorem get_descend (lr : R) (weights grad : List R) {i : ℕ} (hi : i < weights.length)
    (hi' : i < (descend lr weights grad).length) :
    (descend lr weights grad).get ⟨i, hi'⟩ = weights.get ⟨i, hi⟩ - lr * grad.getD i 0 := by
  simp only [List.get_eq_getElem, descend]
  by_cases hgrad : i < grad.length
  · rw [List.getElem_append_left (by simp; omega)]
    simp [hgrad]
  · rw [List.getElem_append_right (by simp; omega)]
    simp [hgrad]
    congr 1
    omega

omit [Field R] in
theorem tail_rtake_succ {l : List UInt64} {n : ℕ} (h : n < l.length) :
    (l.rtake (n + 1)).tail = l.rtake n := by
  have hstart : l.length - (n + 1) + 1 = l.length - n := by omega
  rw [List.rtake, List.tail_drop, hstart, ← List.rtake]

omit [Field R] in
theorem rtake_of_length_le {l : List UInt64} {n : ℕ} (h : l.length ≤ n) : l.rtake n = l := by
  rw [List.rtake, Nat.sub_eq_zero_of_le h, List.drop_zero]

omit [Field R] in
/-- The window keeps the last 128 of all the values pushed. -/
theorem pushStaleness_rtake (values : List UInt64) (staleness : UInt64) :
    pushStaleness (values.rtake 128) staleness = (values ++ [staleness]).rtake 128 := by
  rw [List.rtake_concat_succ]
  unfold pushStaleness
  simp only [List.length_append, List.length_singleton]
  by_cases hfull : 127 < values.length
  · have hlen : (values.rtake 128).length = 128 := by
      rw [List.rtake, List.length_drop]
      omega
    have hne : values.rtake 128 ≠ [] := List.ne_nil_of_length_pos (by omega)
    rw [if_pos (by omega), List.tail_append_of_ne_nil hne, tail_rtake_succ hfull]
  · rw [rtake_of_length_le (by omega), rtake_of_length_le (by omega), if_neg (by omega)]

/-! ### Whole runs -/

/-- What the server holds after the accepted pushes `acc`, which came in this order. -/
structure Reflects (initial : List R) (optimizer : OptimizerKind R) (maxStaleness : UInt64)
    (acc : List (Accepted R)) (s : AsyncParameterServer R) : Prop where
  optimizer_eq : s.optimizer = optimizer
  maxStaleness_eq : s.maxStaleness = maxStaleness
  version_eq : s.version = UInt64.ofNat acc.length
  applied_eq : s.gradientsApplied = s.version
  versions_eq : acc.map (·.version) = (List.range' 1 acc.length).map UInt64.ofNat
  length_eq : s.weights.length = initial.length
  weights_eq : ∀ i (hi : i < initial.length),
    s.weights.get ⟨i, length_eq ▸ hi⟩ =
      initial[i] - optimizer.lr * (acc.map fun a => a.gradient.getD i 0).sum
  window_eq : s.stalenessWindow = (acc.map (·.staleness)).rtake 128

theorem reflects_new (initial : List R) (optimizer : OptimizerKind R) (maxStaleness : UInt64) :
    Reflects initial optimizer maxStaleness [] (new initial optimizer maxStaleness) where
  optimizer_eq := rfl
  maxStaleness_eq := rfl
  version_eq := rfl
  applied_eq := rfl
  versions_eq := rfl
  length_eq := rfl
  weights_eq := fun i hi => by simp [new]
  window_eq := (List.rtake_nil _).symm

variable {initial : List R} {optimizer : OptimizerKind R} {maxStaleness : UInt64}
  {acc : List (Accepted R)} {s : AsyncParameterServer R}

/-- The step: an accepted push extends the list, and nothing else does. -/
theorem Reflects.handle (h : Reflects initial optimizer maxStaleness acc s)
    (msg : ParameterServerMsg R) :
    Reflects initial optimizer maxStaleness
      (acc ++ (Exchange.accepted ⟨s, msg, (s.handle msg).2⟩).toList) (s.handle msg).1 := by
  cases msg with
  | pushGradient worker v gradient =>
    by_cases hle : s.staleness v ≤ s.maxStaleness
    · rw [handle_push_of_le hle]
      have hnext : s.version + 1 = UInt64.ofNat (acc.length + 1) := by
        rw [h.version_eq, UInt64.ofNat_add]
        rfl
      refine
        { optimizer_eq := h.optimizer_eq
          maxStaleness_eq := h.maxStaleness_eq
          version_eq := by simpa [Exchange.accepted] using hnext
          applied_eq := congrArg (· + 1) h.applied_eq
          versions_eq := ?_
          length_eq := by simpa using h.length_eq
          weights_eq := fun i hi => ?_
          window_eq := ?_ }
      · simp only [Exchange.accepted, Option.toList_some, List.map_append, List.map_cons,
          List.map_nil, List.length_append, List.length_singleton, h.versions_eq, hnext,
          List.range'_1_concat, Nat.add_comm 1]
      · have hold := h.weights_eq i hi
        rw [get_descend _ _ _ (h.length_eq ▸ hi), hold, h.optimizer_eq]
        simp only [Exchange.accepted, Option.toList_some, List.map_append, List.map_cons,
          List.map_nil, List.sum_append, List.sum_singleton]
        ring
      · simp only [Exchange.accepted, Option.toList_some, List.map_append, List.map_cons,
          List.map_nil, h.window_eq]
        exact pushStaleness_rtake _ _
    · rw [handle_push_of_lt (UInt64.not_le.1 hle)]
      simpa [Exchange.accepted] using h
  | pullWeights worker =>
    have hnone : (Exchange.accepted ⟨s, .pullWeights worker, (s.handle (.pullWeights worker)).2⟩) =
        none := rfl
    rw [hnone, Option.toList_none, List.append_nil]
    exact { h with }
  | stats =>
    have hnone : (Exchange.accepted ⟨s, .stats, (s.handle .stats).2⟩) = none := rfl
    rw [hnone, Option.toList_none, List.append_nil]
    exact h

theorem accepted_cons (s : AsyncParameterServer R) (msg : ParameterServerMsg R)
    (msgs : List (ParameterServerMsg R)) :
    s.accepted (msg :: msgs) =
      (Exchange.accepted ⟨s, msg, (s.handle msg).2⟩).toList ++ (s.handle msg).1.accepted msgs := by
  rw [accepted, history, List.filterMap_cons]
  cases Exchange.accepted ⟨s, msg, (s.handle msg).2⟩ <;> rfl

/-- The run: by induction on the messages, the list growing with the accepted pushes. -/
theorem Reflects.run (h : Reflects initial optimizer maxStaleness acc s)
    (msgs : List (ParameterServerMsg R)) :
    Reflects initial optimizer maxStaleness (acc ++ s.accepted msgs) (s.run msgs) := by
  induction msgs generalizing acc s with
  | nil => simpa [accepted, history, AsyncParameterServer.run] using h
  | cons msg msgs ih =>
    have hnext := ih (h.handle msg)
    rwa [List.append_assoc, ← accepted_cons] at hnext

theorem reflects_run (initial : List R) (optimizer : OptimizerKind R) (maxStaleness : UInt64)
    (msgs : List (ParameterServerMsg R)) :
    Reflects initial optimizer maxStaleness
      ((new initial optimizer maxStaleness).accepted msgs)
      ((new initial optimizer maxStaleness).run msgs) :=
  (reflects_new initial optimizer maxStaleness).run msgs

/-- The weights depend on which gradients were accepted, not on their order. -/
theorem run_weights_eq_of_perm {msgs msgs' : List (ParameterServerMsg R)}
    {maxStaleness' : UInt64}
    (hperm : List.Perm
      (((new initial optimizer maxStaleness).accepted msgs).map (·.gradient))
      (((new initial optimizer maxStaleness').accepted msgs').map (·.gradient))) :
    ((new initial optimizer maxStaleness).run msgs).weights =
      ((new initial optimizer maxStaleness').run msgs').weights := by
  have h := reflects_run initial optimizer maxStaleness msgs
  have h' := reflects_run initial optimizer maxStaleness' msgs'
  refine List.ext_getElem (h.length_eq.trans h'.length_eq.symm) fun i hi hi' => ?_
  have hlt : i < initial.length := h.length_eq ▸ hi
  refine (h.weights_eq i hlt).trans (Eq.trans ?_ (h'.weights_eq i hlt).symm)
  have hsum := (hperm.map fun g => g.getD i 0).sum_eq
  simp only [List.map_map, Function.comp_def] at hsum
  rw [hsum]

/-- Before the version wraps, the accepted pushes got the numbers from one on, in their order. -/
theorem Reflects.versions_toNat (h : Reflects initial optimizer maxStaleness acc s)
    (hacc : acc.length < 2 ^ 64) :
    (acc.map fun a => a.version.toNat) = List.range' 1 acc.length := by
  have htoNat := congrArg (List.map UInt64.toNat) h.versions_eq
  rw [List.map_map, List.map_map] at htoNat
  refine htoNat.trans ?_
  conv_rhs => rw [← List.map_id (List.range' 1 acc.length)]
  refine List.map_congr_left fun n hn => ?_
  -- the last number is the length, which is in range
  have hlt : n < 2 ^ 64 := by
    rw [List.mem_range'_1] at hn
    omega
  exact UInt64.toNat_ofNat_of_lt' hlt

theorem Reflects.version_toNat (h : Reflects initial optimizer maxStaleness acc s)
    (hacc : acc.length < 2 ^ 64) : s.version.toNat = acc.length := by
  rw [h.version_eq]
  exact UInt64.toNat_ofNat_of_lt' hacc

/-- The weights are the initial ones less the scaled sum of the accepted gradients. -/
theorem Reflects.weights_mapIdx (h : Reflects initial optimizer maxStaleness acc s) :
    s.weights = initial.mapIdx (fun i w =>
      w - optimizer.lr * (acc.map fun a => a.gradient.getD i 0).sum) := by
  refine List.ext_getElem (by simpa using h.length_eq) fun i hi hi' => ?_
  rw [List.getElem_mapIdx]
  exact h.weights_eq i (h.length_eq ▸ hi)

/-- The server over every sequence of messages that has it accept fewer than `2 ^ 64` pushes: the
`Ok` replies count up from 1, `gradients_applied` is the version; a push is accepted when it is not
too stale and else changes nothing; a pull returns what the accepted pushes make of the initial
weights, in whatever order they came, with their number as the version; and the window holds the
last 128 staleness values. -/
theorem parameter_server_run (initial : List R) (optimizer : OptimizerKind R)
    (maxStaleness : UInt64) (msgs : List (ParameterServerMsg R)) :
    let start := new initial optimizer maxStaleness
    let s := start.run msgs
    let acc := start.accepted msgs
    acc.length < 2 ^ 64 →
      (acc.map fun a => a.version.toNat) = List.range' 1 acc.length ∧
      s.version.toNat = acc.length ∧ s.gradientsApplied = s.version ∧
      (∀ worker v gradient,
        ((∃ version, (s.handle (.pushGradient worker v gradient)).2 = .push (.ok version)) ↔
          s.version.toNat - v.toNat ≤ maxStaleness.toNat) ∧
        ∀ e, (s.handle (.pushGradient worker v gradient)).2 = .push (.error e) →
          (s.handle (.pushGradient worker v gradient)).1 = s) ∧
      (∀ worker, (s.handle (.pullWeights worker)).2 = .pull s.weights s.version) ∧
      s.weights = initial.mapIdx (fun i w =>
        w - optimizer.lr * (acc.map fun a => a.gradient.getD i 0).sum) ∧
      (∀ msgs', ((start.accepted msgs').map (·.gradient)).Perm (acc.map (·.gradient)) →
        (start.run msgs').weights = s.weights) ∧
      s.stalenessWindow = (acc.map (·.staleness)).rtake 128 := by
  intro start s acc hacc
  have h : Reflects initial optimizer maxStaleness acc s :=
    reflects_run initial optimizer maxStaleness msgs
  have hpush : ∀ worker v gradient,
      ((∃ version, (s.handle (.pushGradient worker v gradient)).2 = .push (.ok version)) ↔
        s.version.toNat - v.toNat ≤ maxStaleness.toNat) ∧
      ∀ e, (s.handle (.pushGradient worker v gradient)).2 = .push (.error e) →
        (s.handle (.pushGradient worker v gradient)).1 = s := by
    intro worker v gradient
    refine ⟨?_, fun e he => handle_push_error he⟩
    rw [handle_push_ok_iff, h.maxStaleness_eq]
  exact ⟨h.versions_toNat hacc, h.version_toNat hacc, h.applied_eq, hpush, fun _ => rfl,
    h.weights_mapIdx, fun _ hperm => run_weights_eq_of_perm hperm, h.window_eq⟩

/-- Two workers push gradients on the initial weights and one of them a second time: at a bound of
one the third push comes too late. -/
def latePush : List (ParameterServerMsg ℚ) :=
  [.pushGradient ⟨1⟩ 0 [1, 2, 3], .pushGradient ⟨2⟩ 0 [4], .pushGradient ⟨1⟩ 0 [5, 5],
    .pullWeights ⟨2⟩]

theorem parameter_server_run_latePush :
    ((new [10, 20] (.sgd (1 / 10) 0 0) 1).run latePush).version.toNat = 2 ∧
      ((new [10, 20] (.sgd (1 / 10) 0 0) 1).run latePush).weights = [19 / 2, 99 / 5] ∧
      ((new [10, 20] (.sgd (1 / 10 : ℚ) 0 0) 1).run latePush).stalenessWindow = [0, 1] := by
  have hacc : (new [10, 20] (.sgd (1 / 10 : ℚ) 0 0) 1).accepted latePush =
      [⟨[1, 2, 3], 0, 1⟩, ⟨[4], 1, 2⟩] := by decide +kernel
  obtain ⟨-, hversion, -, -, -, hweights, -, hwindow⟩ :=
    parameter_server_run [10, 20] (.sgd (1 / 10 : ℚ) 0 0) 1 latePush (by rw [hacc]; decide)
  rw [hacc] at hversion hweights hwindow
  refine ⟨hversion, hweights.trans ?_, hwindow⟩
  norm_num [List.mapIdx, List.mapIdx.go, OptimizerKind.lr]

end AsyncParameterServer

end Train

end AtomrAccel
