import AtomrAccel.Lib.Transition
import AtomrAccel.Device.DeviceActor

/-!
# `NcclWorldActor`: the order of collective operations

A built world has one `CollectiveActor` per rank.  Each accepted `AllReduceF32` spawns a task that
tells the collectives one after the other, in rank order, and the tasks of several requests run
concurrently.  NCCL pairs the `k`-th operation of every rank with the `k`-th operation of every
other, so the mailboxes of the ranks have to agree.

* `World`, `dispatchAllReduceF32`: the checks of a request and the tells of its task;
* `Dispatch`, `Label`, `step`: the world with its running tasks and the mailboxes of the ranks;
* `Agree`: at equal positions two ranks have operations of the same request;
* `LabelOk`, `along_agree`: the ranks agree in every run that accepts a request only while no
  earlier task has a tell left, and in every world of at most one rank.
-/

namespace AtomrAccel

namespace MultiDevice

/-- The operations of a reduction. -/
inductive ReduceOp
  | sum | prod | max | min | avg
  deriving DecidableEq, Repr

/-- A tensor with its `device_id()`, which is `none` when the device state is gone. -/
structure Tensor where
  ref : GpuRef
  deviceId : Option ℕ
  deriving DecidableEq, Repr

/-- `NcclWorldMsg::AllReduceF32`. -/
structure AllReduceF32 where
  tensors : List Tensor
  op : ReduceOp
  reply : ReplyId
  deriving DecidableEq, Repr

/-- The part of `NcclWorldActor` that dispatch reads.  Once the world is built there is one
collective actor per device id. -/
structure World where
  deviceIds : List ℕ
  built : Bool
  collectives : List ActorRef
  length_eq : built = true → collectives.length = deviceIds.length
  nodup : collectives.Nodup

/-- The loop over the tensors: the first one on a foreign device is named in the error. -/
def checkDevices (i : ℕ) : List Tensor → List ℕ → Except GpuError Unit
  | t :: tensors, expected :: deviceIds =>
    match t.deviceId with
    | none => checkDevices (i + 1) tensors deviceIds
    | some d =>
      if d ≠ expected then
        .error (.unrecoverable ("AllReduce: tensor[" ++ toString i ++ "] on device " ++
          toString d ++ ", expected " ++ toString expected))
      else checkDevices (i + 1) tensors deviceIds
  | _, _ => .ok ()

/-- `dispatch_all_reduce_f32`: an error, or the tells of the task it spawns. -/
def dispatchAllReduceF32 (w : World) (req : AllReduceF32) :
    Except GpuError (List (ActorRef × Tensor)) :=
  if !w.built then .error (.unrecoverable "NcclWorldActor: world not built yet")
  else if req.tensors.length ≠ w.deviceIds.length then
    .error (.unrecoverable ("AllReduce: expected " ++ toString w.deviceIds.length ++
      " tensors, got " ++ toString req.tensors.length))
  else
    match checkDevices 0 req.tensors w.deviceIds with
    | .error e => .error e
    | .ok () => .ok (w.collectives.zip req.tensors)

/-- An operation in the mailbox of a rank, with the number of the accepted request it is of. -/
structure Operation where
  request : ℕ
  tensor : Tensor
  op : ReduceOp
  deriving DecidableEq, Repr

/-- A spawned task: the tells it still has to make. -/
structure Task where
  request : ℕ
  op : ReduceOp
  pending : List (ActorRef × Tensor)
  deriving DecidableEq, Repr

/-- Who is still to be told. -/
def Task.targets (t : Task) : List ActorRef := t.pending.map Prod.fst

/-- The world with all tasks spawned so far, the mailboxes of the ranks (everything they were
told, in order) and the refused requests. -/
structure Dispatch where
  world : World
  tasks : List Task
  received : ActorRef → List Operation
  refused : List (ReplyId × GpuError)

/-- The steps of the actor and its tasks. -/
inductive Label
  /-- the world actor handles a request -/
  | request (req : AllReduceF32)
  /-- task number `k` makes its next tell -/
  | tell (k : ℕ)
  deriving DecidableEq, Repr

namespace Dispatch

/-- No task has been started. -/
def new (w : World) : Dispatch := ⟨w, [], fun _ => [], []⟩

/-- The task `t`, at position `k`, tells `ref`. -/
def deliver (s : Dispatch) (k : ℕ) (t : Task) (ref : ActorRef) (tensor : Tensor)
    (rest : List (ActorRef × Tensor)) : Dispatch :=
  { s with
    tasks := s.tasks.set k { t with pending := rest }
    received := Function.update s.received ref
      (s.received ref ++ [⟨t.request, tensor, t.op⟩]) }

/-- One step of the actor and its tasks. -/
def step (s : Dispatch) : Label → Option Dispatch
  | .request req =>
    match dispatchAllReduceF32 s.world req with
    | .error e => some { s with refused := s.refused ++ [(req.reply, e)] }
    | .ok tells => some { s with tasks := s.tasks ++ [⟨s.tasks.length, req.op, tells⟩] }
  | .tell k =>
    match s.tasks[k]? with
    | none => none
    | some t =>
      match t.pending with
      | [] => none
      | (ref, tensor) :: rest => some (s.deliver k t ref tensor rest)

/-- Two ranks never pair operations of different requests. -/
def Agree (s : Dispatch) : Prop :=
  ∀ r₁ ∈ s.world.collectives, ∀ r₂ ∈ s.world.collectives, ∀ (k : ℕ) (a b : Operation),
    (s.received r₁)[k]? = some a → (s.received r₂)[k]? = some b → a.request = b.request

/-- Every task has made all its tells. -/
def Idle (s : Dispatch) : Prop := ∀ t ∈ s.tasks, t.pending = []

end Dispatch

/-- A request is accepted only while no task has a tell left, unless there is a single rank. -/
def LabelOk (s : Dispatch) : Label → Prop
  | .request req =>
    (dispatchAllReduceF32 s.world req).isOk = true → s.Idle ∨ s.world.collectives.length ≤ 1
  | .tell _ => True

instance decidableIdle (s : Dispatch) : Decidable s.Idle :=
  inferInstanceAs (Decidable (∀ t ∈ s.tasks, t.pending = []))

instance decidableLabelOk (s : Dispatch) : ∀ l, Decidable (LabelOk s l)
  | .request req =>
    inferInstanceAs (Decidable ((dispatchAllReduceF32 s.world req).isOk = true →
      s.Idle ∨ s.world.collectives.length ≤ 1))
  | .tell _ => inferInstanceAs (Decidable True)

/-- The actor with its tasks. -/
def dispatchSystem (w : World) : Transition.System Dispatch Label := ⟨Dispatch.new w, Dispatch.step⟩

/-! ### What one step does -/

/-- An accepted request has one tell for each rank, in rank order. -/
theorem targets_of_dispatch {w : World} {req : AllReduceF32} {tells : List (ActorRef × Tensor)}
    (h : dispatchAllReduceF32 w req = .ok tells) : tells.map Prod.fst = w.collectives := by
  unfold dispatchAllReduceF32 at h
  split_ifs at h with hbuilt hlen
  split at h
  · cases h
  · cases h
    have hw := w.length_eq (by simpa using hbuilt)
    exact List.map_fst_zip (by omega)

namespace Dispatch

/-- The first `tasks.length` requests arrive at every rank in order, and only the last task can
have tells left. -/
structure Ordered (s : Dispatch) : Prop where
  request_eq : ∀ (k : ℕ) (t : Task), s.tasks[k]? = some t → t.request = k
  told : ∀ (k : ℕ) (t : Task), s.tasks[k]? = some t → k + 1 < s.tasks.length → t.pending = []
  targets_nodup : ∀ t ∈ s.tasks, t.targets.Nodup
  waiting : ∀ (k : ℕ) (t : Task), s.tasks[k]? = some t →
    ∀ ref ∈ t.targets, (s.received ref).length = k
  complete : ∀ ref ∈ s.world.collectives, (∀ t ∈ s.tasks, ref ∉ t.targets) →
    (s.received ref).length = s.tasks.length
  order : ∀ (ref : ActorRef) (k : ℕ) (a : Operation), (s.received ref)[k]? = some a → a.request = k

variable {s s' : Dispatch}

theorem ordered_new (w : World) : (new w).Ordered where
  request_eq := by simp [new]
  told := by simp [new]
  targets_nodup := by simp [new]
  waiting := by simp [new]
  complete := by simp [new]
  order := by simp [new]

theorem Ordered.agree (h : s.Ordered) : s.Agree := by
  intro r₁ _ r₂ _ k a b ha hb
  rw [h.order r₁ k a ha, h.order r₂ k b hb]

theorem agree_of_single (h : s.world.collectives.length ≤ 1) : s.Agree := by
  intro r₁ h₁ r₂ h₂ k a b ha hb
  obtain rfl : r₁ = r₂ := by
    match hc : s.world.collectives, h with
    | [], _ => simp [hc] at h₁
    | [r], _ =>
      rw [hc, List.mem_singleton] at h₁ h₂
      rw [h₁, h₂]
  rw [ha] at hb
  cases hb
  rfl

/-- Accepting a request while every task is done. -/
theorem ordered_accept (h : s.Ordered) (hidle : s.Idle) {op : ReduceOp}
    {tells : List (ActorRef × Tensor)} (htells : tells.map Prod.fst = s.world.collectives) :
    Ordered { s with tasks := s.tasks ++ [⟨s.tasks.length, op, tells⟩] } := by
  have hnone : ∀ t ∈ s.tasks, ∀ ref, ref ∉ t.targets := by
    intro t ht ref hmem
    simp [Task.targets, hidle t ht] at hmem
  -- the position of a task among the old ones and the new one
  have hget : ∀ (k : ℕ) (t : Task), (s.tasks ++ [⟨s.tasks.length, op, tells⟩])[k]? = some t →
      s.tasks[k]? = some t ∨ (k = s.tasks.length ∧ t = ⟨s.tasks.length, op, tells⟩) := by
    intro k t hk
    rcases lt_trichotomy k s.tasks.length with hlt | rfl | hgt
    · rw [List.getElem?_append_left hlt] at hk
      exact .inl hk
    · simp only [List.getElem?_concat_length, Option.some.injEq] at hk
      exact .inr ⟨rfl, hk.symm⟩
    · rw [List.getElem?_eq_none (by simp; omega)] at hk
      cases hk
  refine ⟨fun k t hk => ?_, fun k t hk hlt => ?_, fun t ht => ?_, fun k t hk ref href => ?_,
    fun ref href hnot => ?_, h.order⟩
  · rcases hget k t hk with hk | ⟨rfl, rfl⟩
    · exact h.request_eq k t hk
    · rfl
  · rcases hget k t hk with hk | ⟨rfl, rfl⟩
    · exact hidle t (List.mem_of_getElem? hk)
    · simp at hlt
  · rcases List.mem_append.1 ht with ht | ht
    · exact h.targets_nodup t ht
    · rw [List.mem_singleton.1 ht, Task.targets, htells]
      exact s.world.nodup
  · rcases hget k t hk with hk | ⟨rfl, rfl⟩
    · exact absurd href (hnone t (List.mem_of_getElem? hk) ref)
    · rw [Task.targets, htells] at href
      exact h.complete ref href fun t ht => hnone t ht ref
  · -- every rank is a target of the new task
    have hmem : ref ∈ (⟨s.tasks.length, op, tells⟩ : Task).targets := by
      rw [Task.targets, htells]
      exact href
    exact absurd hmem (hnot _ (by simp))

section Deliver

variable (s) {k : ℕ} {t : Task} (ref : ActorRef) (tensor : Tensor) (rest : List (ActorRef × Tensor))

theorem received_deliver_self : (s.deliver k t ref tensor rest).received ref =
    s.received ref ++ [⟨t.request, tensor, t.op⟩] := Function.update_self ..

variable {ref} in
theorem received_deliver_of_ne {r : ActorRef} (hr : r ≠ ref) :
    (s.deliver k t ref tensor rest).received r = s.received r := Function.update_of_ne hr _ _

theorem length_deliver_tasks :
    (s.deliver k t ref tensor rest).tasks.length = s.tasks.length := List.length_set

variable {s}

/-- The tasks after a tell of the task at position `k`. -/
theorem getElem?_deliver_tasks (hk : s.tasks[k]? = some t) (j : ℕ) (u : Task) :
    (s.deliver k t ref tensor rest).tasks[j]? = some u ↔
      (j ≠ k ∧ s.tasks[j]? = some u) ∨ (j = k ∧ u = { t with pending := rest }) := by
  have hklt : k < s.tasks.length := (List.getElem?_eq_some_iff.1 hk).1
  by_cases hjk : j = k
  · subst hjk
    simp [deliver, List.getElem?_set_self hklt, eq_comm]
  · simp [deliver, List.getElem?_set_ne (Ne.symm hjk), hjk]

end Deliver

/-- One more operation in a mailbox that holds `k` of them in order. -/
theorem order_concat {ops : List Operation} (h : ∀ (j : ℕ) a, ops[j]? = some a → a.request = j)
    {new : Operation} (hnew : new.request = ops.length) {j : ℕ} {a : Operation}
    (hja : (ops ++ [new])[j]? = some a) : a.request = j := by
  by_cases hlt : j < ops.length
  · rw [List.getElem?_append_left hlt] at hja
    exact h j a hja
  · rw [List.getElem?_append_right (not_lt.1 hlt), List.getElem?_singleton] at hja
    split_ifs at hja with hzero
    cases hja
    omega

/-- A tell of the task at position `k`: by `told` it is the last one, so `ref` is due for it. -/
theorem ordered_deliver (h : s.Ordered) {k : ℕ} {t : Task} (hk : s.tasks[k]? = some t)
    {ref : ActorRef} {tensor : Tensor} {rest : List (ActorRef × Tensor)}
    (hpending : t.pending = (ref, tensor) :: rest) : (s.deliver k t ref tensor rest).Ordered := by
  have hget := getElem?_deliver_tasks ref tensor rest hk
  have hklt : k < s.tasks.length := (List.getElem?_eq_some_iff.1 hk).1
  have hlast : k + 1 = s.tasks.length := by
    by_contra hne
    have hempty := h.told k t hk (by omega)
    rw [hempty] at hpending
    cases hpending
  have htargets : t.targets = ref :: rest.map Prod.fst := by rw [Task.targets, hpending]; rfl
  have hnodup := h.targets_nodup t (List.mem_of_getElem? hk)
  rw [htargets, List.nodup_cons] at hnodup
  have href : (s.received ref).length = k := h.waiting k t hk ref (by simp [htargets])
  refine
    { request_eq := fun j u hj => ?_
      told := fun j u hj hlt => ?_
      targets_nodup := fun u hu => ?_
      waiting := fun j u hj r hr => ?_
      complete := fun r hr hnot => ?_
      order := fun r j a hja => ?_ }
  · rcases (hget j u).1 hj with ⟨-, hj⟩ | ⟨rfl, rfl⟩
    · exact h.request_eq j u hj
    · exact h.request_eq j t hk
  · rw [length_deliver_tasks] at hlt
    rcases (hget j u).1 hj with ⟨-, hj⟩ | ⟨rfl, rfl⟩
    · exact h.told j u hj hlt
    · omega
  · obtain ⟨j, hj⟩ := List.mem_iff_getElem?.1 hu
    rcases (hget j u).1 hj with ⟨-, hj⟩ | ⟨rfl, rfl⟩
    · exact h.targets_nodup u (List.mem_of_getElem? hj)
    · exact hnodup.2
  · rcases (hget j u).1 hj with ⟨hjk, hj⟩ | ⟨rfl, rfl⟩
    · -- the other tasks have no tells left
      have hjlt : j < s.tasks.length := (List.getElem?_eq_some_iff.1 hj).1
      have hempty := h.told j u hj (by omega)
      simp [Task.targets, hempty] at hr
    · have hne : r ≠ ref := fun heq => hnodup.1 (heq ▸ hr)
      rw [received_deliver_of_ne s tensor rest hne]
      exact h.waiting j t hk r (by rw [htargets]; exact List.mem_cons_of_mem _ hr)
  · rw [length_deliver_tasks]
    by_cases hne : r = ref
    · rw [hne, received_deliver_self, List.length_append, href]
      exact hlast
    · rw [received_deliver_of_ne s tensor rest hne]
      refine h.complete r hr fun u hu hmem => ?_
      obtain ⟨j, hj⟩ := List.mem_iff_getElem?.1 hu
      by_cases hjk : j = k
      · -- the task itself, whose only other targets are those of `rest`
        obtain rfl : t = u := Option.some.inj (hk.symm.trans (hjk ▸ hj))
        rw [htargets] at hmem
        refine hnot { t with pending := rest } ?_ ((List.mem_cons.1 hmem).resolve_left hne)
        exact List.mem_iff_getElem?.2 ⟨k, (hget k _).2 (.inr ⟨rfl, rfl⟩)⟩
      · exact hnot u (List.mem_iff_getElem?.2 ⟨j, (hget j u).2 (.inl ⟨hjk, hj⟩)⟩) hmem
  · by_cases hne : r = ref
    · subst hne
      rw [received_deliver_self] at hja
      exact order_concat (h.order r) ((h.request_eq k t hk).trans href.symm) hja
    · rw [received_deliver_of_ne s tensor rest hne] at hja
      exact h.order r j a hja

/-- The invariant of disciplined runs. -/
def Inv (s : Dispatch) : Prop := s.Ordered ∨ s.world.collectives.length ≤ 1

theorem inv_step (h : s.Inv) {l : Label} (hok : LabelOk s l) (hs : s.step l = some s') :
    s'.Inv := by
  cases l with
  | request req =>
    simp only [step] at hs
    split at hs
    · cases hs
      rcases h with h | h
      · exact .inl ⟨h.request_eq, h.told, h.targets_nodup, h.waiting, h.complete, h.order⟩
      · exact .inr h
    · rename_i tells htells
      cases hs
      rcases h with h | h
      · rcases hok (by rw [htells]; rfl) with hidle | hsingle
        · exact .inl (ordered_accept h hidle (targets_of_dispatch htells))
        · exact .inr hsingle
      · exact .inr h
  | tell k =>
    simp only [step] at hs
    split at hs
    · cases hs
    · rename_i t hk
      split at hs
      · cases hs
      · rename_i ref tensor rest hpending
        cases hs
        rcases h with h | h
        · exact .inl (ordered_deliver h hk hpending)
        · exact .inr h

theorem Inv.agree (h : s.Inv) : s.Agree := h.elim Ordered.agree agree_of_single

end Dispatch

/-! ### Whole runs -/

/-- **In every run in which a request is accepted only when all earlier tasks have made their
tells, and in every run of a world with at most one rank, all ranks receive the operations in
the same order.** -/
theorem along_agree (w : World) (ls : List Label)
    (h : (dispatchSystem w).Meets LabelOk (Dispatch.new w) ls) :
    (dispatchSystem w).Along Dispatch.Agree (Dispatch.new w) ls :=
  Transition.System.along_of_meets (I := Dispatch.Inv) (fun _ hs => hs.agree)
    (fun _ _ _ hs hok hstep => Dispatch.inv_step hs hok hstep) (.inl (Dispatch.ordered_new w)) h

/-- A built world of two ranks. -/
def twoRanks : World := ⟨[0, 1], true, [10, 11], fun _ => rfl, by decide⟩

/-- The sum of one tensor per rank. -/
def sumRequest (reply : ReplyId) : AllReduceF32 := ⟨[⟨0, some 0⟩, ⟨1, some 1⟩], .sum, reply⟩

theorem agree_of_sequential_requests :
    let ls : List Label := [.request (sumRequest 1), .tell 0, .tell 0, .request (sumRequest 2),
      .tell 1, .tell 1]
    ((dispatchSystem twoRanks).run (Dispatch.new twoRanks) ls).isSome = true ∧
      (dispatchSystem twoRanks).Along Dispatch.Agree (Dispatch.new twoRanks) ls := by
  intro ls
  exact ⟨by decide, along_agree twoRanks ls (by decide)⟩

/-- Two requests accepted one after the other, whose tasks interleave: rank 0 is told of the first
request first, rank 1 of the second. -/
theorem overlapping_requests_disagree :
    ¬ (dispatchSystem twoRanks).Along Dispatch.Agree (Dispatch.new twoRanks)
      [.request (sumRequest 1), .request (sumRequest 2), .tell 0, .tell 1, .tell 1] := by
  intro h
  have hend := h.last (t := ((dispatchSystem twoRanks).run (Dispatch.new twoRanks)
    [.request (sumRequest 1), .request (sumRequest 2), .tell 0, .tell 1, .tell 1]).get rfl)
    (Option.some_get _).symm
  have hpair := hend 10 (by decide) 11 (by decide) 0 ⟨0, ⟨0, some 0⟩, .sum⟩ ⟨1, ⟨1, some 1⟩, .sum⟩
    (by decide) (by decide)
  cases hpair

end MultiDevice

end AtomrAccel
