import Mathlib.Tactic

/-!
# A task that awaits one-shot receivers in turn

A request is sent to several parties, each with a one-shot channel for its answer.  A task awaits
the receivers one after the other, while the answers arrive in any order; the first failure ends
it.

* `Received`: what a receiver yields;
* `Task`, `poll`, `resolve`, `run`: the task, what it does until it has to wait, and the arrivals;
* `collect`: the answers gone through in the order of the receivers;
* `run_eq_collect`, `run_map_eq_collect`: once every receiver is resolved the task has sent what
  `collect` says, so that the order of the arrivals does not matter;
* `collect_eq`, `collect_map_value`: the first failure, or what the values come to.
-/

namespace Gather

variable {ε α σ ρ : Type*}

/-- What a receiver yields: an answer of the other side, or that its sender is gone. -/
inductive Received (ε α : Type*)
  | value (a : α)
  | failed (e : ε)
  | dropped
  deriving DecidableEq, Repr

/-- The value, or the error the task ends with. -/
def Received.toExcept (lost : ε) : Received ε α → Except ε α
  | value a => .ok a
  | failed e => .error e
  | dropped => .error lost

/-- The error a receiver ends the task with. -/
def Received.failure? (lost : ε) : Received ε α → Option ε
  | value _ => none
  | failed e => some e
  | dropped => some lost

/-- The value, if one was received. -/
def Received.value? : Received ε α → Option α
  | value a => some a
  | failed _ | dropped => none

/-- The task awaits the first of the receivers `rest`, after `taken` others, or it has sent its
reply. -/
inductive Task (ε α σ ρ : Type*)
  | awaiting (acc : σ) (taken : ℕ) (rest : List (Option (Received ε α)))
  | sent (reply : Except ε ρ)

/-- The replies sent so far. -/
def Task.replies : Task ε α σ ρ → List (Except ε ρ)
  | awaiting .. => []
  | sent reply => [reply]

section Run

variable (lost : ε) (next : σ → α → σ) (finish : σ → Except ε ρ)

/-- The task goes on until a receiver is not resolved. -/
def poll (acc : σ) (taken : ℕ) : List (Option (Received ε α)) → Task ε α σ ρ
  | [] => .sent (finish acc)
  | none :: rest => .awaiting acc taken (none :: rest)
  | some r :: rest =>
    match r.toExcept lost with
    | .error e => .sent (.error e)
    | .ok a => poll (next acc a) (taken + 1) rest

/-- A receiver that is not resolved yet is. -/
def fill (rxs : List (Option (Received ε α))) (i : ℕ) (r : Received ε α) :
    List (Option (Received ε α)) :=
  match rxs[i]? with
  | some none => rxs.set i (some r)
  | _ => rxs

/-- The answer `r` arrives at receiver `i`. -/
def resolve (task : Task ε α σ ρ) (i : ℕ) (r : Received ε α) : Task ε α σ ρ :=
  match task with
  | .awaiting acc taken rest =>
    if taken ≤ i then poll lost next finish acc taken (fill rest (i - taken) r) else task
  | .sent _ => task

/-- The answers `rs` arrive in an order. -/
def run (acc : σ) (rs : List (Received ε α)) (order : List ℕ) : Task ε α σ ρ :=
  order.foldl (fun task i => rs[i]?.elim task (resolve lost next finish task i))
    (poll lost next finish acc 0 (List.replicate rs.length none))

/-- The answers in the order of the receivers. -/
def collect (acc : σ) : List (Received ε α) → Except ε ρ
  | [] => finish acc
  | r :: rs =>
    match r.toExcept lost with
    | .error e => .error e
    | .ok a => collect (next acc a) rs

end Run

section Spec

variable {lost : ε} {next : σ → α → σ} {finish : σ → Except ε ρ}

@[simp] theorem fill_nil (i : ℕ) (r : Received ε α) : fill [] i r = [] := rfl

@[simp] theorem fill_zero_some (x r : Received ε α) (rest : List (Option (Received ε α))) :
    fill (some x :: rest) 0 r = some x :: rest := rfl

@[simp] theorem fill_succ (x : Option (Received ε α)) (rest : List (Option (Received ε α))) (i : ℕ)
    (r : Received ε α) : fill (x :: rest) (i + 1) r = x :: fill rest i r := by
  unfold fill
  rw [List.getElem?_cons_succ]
  cases rest[i]? with
  | none => rfl
  | some y =>
    cases y with
    | none => rfl
    | some z => rfl

/-- A receiver the task is past does not matter any more. -/
theorem resolve_poll_of_lt (acc : σ) {i taken : ℕ} (hi : i < taken) (r : Received ε α)
    (rxs : List (Option (Received ε α))) :
    resolve lost next finish (poll lost next finish acc taken rxs) i r =
      poll lost next finish acc taken rxs := by
  induction rxs generalizing acc taken with
  | nil => rfl
  | cons x rest ih =>
    cases x with
    | none => exact if_neg (by omega)
    | some x =>
      unfold poll
      cases x.toExcept lost with
      | error e => rfl
      | ok a => exact ih (next acc a) (Nat.lt_succ_of_lt hi)

/-- Going on after an arrival is the same as starting again with it. -/
theorem resolve_poll (acc : σ) (taken i : ℕ) (r : Received ε α)
    (rxs : List (Option (Received ε α))) :
    resolve lost next finish (poll lost next finish acc taken rxs) (taken + i) r =
      poll lost next finish acc taken (fill rxs i r) := by
  induction rxs generalizing acc taken i with
  | nil => rfl
  | cons x rest ih =>
    cases x with
    | none =>
      show (if taken ≤ taken + i then _ else _) = _
      rw [if_pos (Nat.le_add_right _ _), Nat.add_sub_cancel_left]
    | some x =>
      cases i with
      | zero =>
        rw [fill_zero_some]
        unfold poll
        cases x.toExcept lost with
        | error e => rfl
        | ok a => exact resolve_poll_of_lt _ (Nat.lt_succ_self _) r rest
      | succ i =>
        rw [fill_succ]
        unfold poll
        cases x.toExcept lost with
        | error e => rfl
        | ok a =>
          have hidx : taken + (i + 1) = taken + 1 + i := by omega
          dsimp only
          rw [hidx]
          exact ih (next acc a) (taken + 1) i

/-- With every receiver resolved the task has gone through all of them. -/
theorem poll_map_some (acc : σ) (taken : ℕ) (rs : List (Received ε α)) :
    poll lost next finish acc taken (rs.map some) = .sent (collect lost next finish acc rs) := by
  induction rs generalizing acc taken with
  | nil => rfl
  | cons r rs ih =>
    rw [List.map_cons]
    unfold poll collect
    cases r.toExcept lost with
    | error e => rfl
    | ok a => exact ih (next acc a) (taken + 1)

/-- The receivers when the answers of some positions have arrived. -/
def filled (rs : List (Received ε α)) (arrived : List ℕ) : List (Option (Received ε α)) :=
  rs.mapIdx fun i r => if i ∈ arrived then some r else none

theorem filled_nil (rs : List (Received ε α)) : filled rs [] = List.replicate rs.length none := by
  unfold filled
  simp only [List.not_mem_nil, if_false]
  exact List.mapIdx_eq_replicate_iff.2 fun _ _ => rfl

theorem fill_filled {rs : List (Received ε α)} {i : ℕ} {r : Received ε α} (hr : rs[i]? = some r)
    (arrived : List ℕ) : fill (filled rs arrived) i r = filled rs (arrived ++ [i]) := by
  have hget : ∀ (l : List ℕ) (j : ℕ),
      (filled rs l)[j]? = rs[j]?.map fun x => if j ∈ l then some x else none := by
    intro l j
    exact List.getElem?_mapIdx
  apply List.ext_getElem?
  intro j
  rw [hget]
  unfold fill
  rw [hget, hr]
  by_cases hi : i ∈ arrived
  · rw [Option.map_some, if_pos hi]
    dsimp only
    rw [hget]
    congr 1
    funext x
    by_cases hji : j = i
    · subst hji
      simp [hi]
    · simp [hji]
  · rw [Option.map_some, if_neg hi]
    dsimp only
    by_cases hji : j = i
    · subst hji
      have hlt : j < (filled rs arrived).length := by
        unfold filled
        rw [List.length_mapIdx]
        exact (List.getElem?_eq_some_iff.1 hr).1
      rw [List.getElem?_set_self hlt, hr]
      simp
    · rw [List.getElem?_set_ne (Ne.symm hji), hget]
      simp [hji]

/-- After some arrivals the task is where it would be had they been there from the start. -/
theorem run_eq_poll (acc : σ) (rs : List (Received ε α)) (order : List ℕ) :
    run lost next finish acc rs order = poll lost next finish acc 0 (filled rs order) := by
  unfold run
  induction order using List.reverseRecOn with
  | nil => rw [filled_nil, List.foldl_nil]
  | append_singleton order i ih =>
    rw [List.foldl_append, ih, List.foldl_cons, List.foldl_nil]
    cases hr : rs[i]? with
    | none =>
      have hsame : filled rs (order ++ [i]) = filled rs order := by
        unfold filled
        apply List.ext_getElem?
        intro j
        rw [List.getElem?_mapIdx, List.getElem?_mapIdx]
        by_cases hji : j = i
        · subst hji
          rw [hr]
          rfl
        · simp [hji]
      rw [hsame]
      rfl
    | some r =>
      have hstep : resolve lost next finish (poll lost next finish acc 0 (filled rs order))
          (0 + i) r = poll lost next finish acc 0 (fill (filled rs order) i r) :=
        resolve_poll acc 0 i r _
      rw [Nat.zero_add] at hstep
      rw [← fill_filled hr]
      exact hstep

/-- Once every receiver is resolved, in whatever order, the task has sent its reply. -/
theorem run_eq_collect (acc : σ) {rs : List (Received ε α)} {order : List ℕ}
    (horder : ∀ i < rs.length, i ∈ order) :
    run lost next finish acc rs order = .sent (collect lost next finish acc rs) := by
  have hall : filled rs order = rs.map some := by
    unfold filled
    apply List.ext_getElem?
    intro i
    rw [List.getElem?_mapIdx, List.getElem?_map]
    cases hr : rs[i]? with
    | none => rfl
    | some r =>
      have hmem := horder i (List.getElem?_eq_some_iff.1 hr).1
      simp [hmem]
  rw [run_eq_poll, hall]
  exact poll_map_some acc 0 rs

/-- The same for the receivers of the parties in a list. -/
theorem run_map_eq_collect {β : Type*} (acc : σ) {l : List β} {answers : β → Received ε α}
    {order : List ℕ} (horder : ∀ i < l.length, i ∈ order) :
    run lost next finish acc (l.map answers) order =
      .sent (collect lost next finish acc (l.map answers)) := by
  apply run_eq_collect
  rw [List.length_map]
  exact horder

/-- The first failure decides; without one, the values are gone through in turn. -/
theorem collect_eq (acc : σ) (rs : List (Received ε α)) :
    collect lost next finish acc rs =
      match rs.findSome? (Received.failure? lost) with
      | some e => .error e
      | none => finish ((rs.filterMap Received.value?).foldl next acc) := by
  induction rs generalizing acc with
  | nil => rfl
  | cons r rs ih =>
    cases r with
    | value a => exact ih (next acc a)
    | failed e => rfl
    | dropped => rfl

/-- A failure makes the reply an error. -/
theorem collect_of_failure (acc : σ) {rs : List (Received ε α)} {r : Received ε α} (hr : r ∈ rs)
    (hfail : r.failure? lost ≠ none) : ∃ e, collect lost next finish acc rs = .error e := by
  rw [collect_eq]
  cases hfind : rs.findSome? (Received.failure? lost) with
  | some e => exact ⟨e, rfl⟩
  | none => exact absurd (List.findSome?_eq_none_iff.1 hfind r hr) hfail

/-- Without a failure all values are gone through. -/
theorem collect_map_value (acc : σ) (values : List α) :
    collect lost next finish acc (values.map .value) = finish (values.foldl next acc) := by
  induction values generalizing acc with
  | nil => rfl
  | cons a values ih => exact ih (next acc a)

end Spec

end Gather
