import AtomrAccel.Train.PipelineParallel

/-!
# The journey of a step

A step of the pipeline goes from stop to stop: its request lies in a mailbox, is in somebody's
hands, is answered, and so on.  Whatever the other steps do, the state knows of it what its journey
says.

* `Stop`, `Journey`, `Journey.view`: where a step has got to, and all that the state knows of it;
* `Advance`, `Moves`: what brings a step on, and what leaves it where it is;
* `follows_step`: a label does one of the two;
* `exists_journey`: each step has its journey in every state that can be reached.
-/

namespace AtomrAccel

namespace Train

namespace Pipeline

open Gather (Received)

open Transition

/-- What a stage answers. -/
inductive Answer (A F : Type)
  | forward (r : Received GpuError A)
  | final (r : Received GpuError (F × F))

/-- Where a step is; `past` are the activations earlier stages were told, `act` that of the stage
it has got to. -/
inductive Stop (A F : Type)
  | refused
  | spawned
  | queued (past : List A) (act : A)
  | held (past : List A) (act : A)
  | back (past : List A) (act : A) (a : Answer A F)
  | replied (past : List A) (act : A) (a : Answer A F)

/-- A step and where it is. -/
structure Journey (A F : Type) where
  input : A
  stop : Stop A F

section Views

variable {A F : Type} (stages : List ActorRef) (t : ℕ)

/-- The activations sent so far. -/
def Stop.told : Stop A F → List A
  | refused | spawned => []
  | queued past act | held past act | back past act _ | replied past act _ => past ++ [act]

/-- Where the task is. -/
def Stop.phase : Stop A F → Phase
  | spawned => .spawned
  | queued past _ | held past _ | back past _ _ => .awaiting past.length
  | refused | replied .. => .finished

/-- What a step is answered when its stage answers so. -/
def Answer.reply : Answer A F → Except GpuError (StepStats F)
  | forward r => (r.toExcept stageDropped).bind fun _ => .error stageDropped
  | final r => (r.toExcept finalDropped).map fun p => ⟨p.1, p.2⟩

/-- What has been replied. -/
def Stop.replies : Stop A F → List (Except GpuError (StepStats F))
  | refused => [.error noStages]
  | replied _ _ a => [a.reply]
  | _ => []

/-- The stage's answer, if there is one. -/
def Stop.answer? : Stop A F → Option (Answer A F)
  | back _ _ a | replied _ _ a => some a
  | _ => none

/-- What the channels of the stages before the last carry: the activations that were told on, and
perhaps one more answer. -/
def Stop.answers (stop : Stop A F) : List (Received GpuError A) :=
  stop.told.tail.map .value ++
    match stop.answer? with
    | some (.forward r) => [r]
    | _ => []

/-- The answer of the last stage. -/
def Stop.finalAnswer (stop : Stop A F) (i : ℕ) : Option (Received GpuError (F × F)) :=
  match stop.answer? with
  | some (.final r) => if i + 1 = stop.told.length then some r else none
  | _ => none

/-- All that a state knows of a step. -/
def Journey.view (j : Journey A F) : View A F where
  task := some ⟨j.input, j.stop.phase, j.stop.replies⟩
  queued a :=
    match j.stop with
    | .queued past act =>
      if a = stages.getD past.length 0 then [message stages.length t past.length act] else []
    | _ => []
  held :=
    match j.stop with
    | .held past act => [message stages.length t past.length act]
    | _ => []
  rx i := j.stop.answers[i]?
  finalRx := j.stop.finalAnswer
  visits := visits stages t j.stop.told

/-- Nothing of a task is to be seen. -/
def View.empty : View A F := ⟨none, fun _ => [], [], fun _ => none, fun _ => none, []⟩

/-- What the state knows of a step that there may not be. -/
def expected : Option (Journey A F) → View A F
  | none => .empty
  | some j => j.view stages t

/-- A journey starts with the input of the step, ends at the last stage or with the first failure,
and is over at once when there are no stages. -/
def Stop.Good (input : A) : Stop A F → Prop
  | refused => stages = []
  | spawned => stages ≠ []
  | queued past act | held past act =>
    past.length < stages.length ∧ (past ++ [act]).head? = some input
  | back past act a =>
    (past ++ [act]).head? = some input ∧
      match a with
      | .forward _ => past.length + 1 < stages.length
      | .final _ => past.length + 1 = stages.length
  | replied past act a =>
    (past ++ [act]).head? = some input ∧
      match a with
      | .forward r => past.length + 1 < stages.length ∧ ∃ e, r.toExcept stageDropped = .error e
      | .final _ => past.length + 1 = stages.length

end Views

/-! ### How a step gets on -/

section Journeys

variable {A F : Type} {stages : List ActorRef} {s s' : State A F} {t : ℕ}

/-- The party whose move a step waits for. -/
def Journey.party (stages : List ActorRef) (t : ℕ) (j : Journey A F) : Option Party :=
  match j.stop with
  | .spawned | .back .. => some (.task t)
  | .queued past _ => some (.stage (stages.getD past.length 0))
  | .held past _ => some (.sender ⟨t, past.length⟩)
  | .refused | .replied .. => none

/-- What brings step `t` from one stop to the next. -/
inductive Advance (stages : List ActorRef) (t : ℕ) (input : A) :
    Label A F → Stop A F → Stop A F → Prop
  | start : Advance stages t input (.poll t) .spawned (.queued [] input)
  | take {past : List A} {act : A} : Advance stages t input
    (.take (stages.getD past.length 0)) (.queued past act) (.held past act)
  | answer {past : List A} {act : A} {r : Received GpuError A} : Advance stages t input
    (.answer ⟨t, past.length⟩ r) (.held past act) (.back past act (.forward r))
  | answerFinal {past : List A} {act : A} {r : Received GpuError (F × F)} : Advance stages t input
    (.answerFinal ⟨t, past.length⟩ r) (.held past act) (.back past act (.final r))
  | next {past : List A} {act x : A} : Advance stages t input
    (.poll t) (.back past act (.forward (.value x))) (.queued (past ++ [act]) x)
  | failed {past : List A} {act : A} {r : Received GpuError A} {e : GpuError}
    (h : r.toExcept stageDropped = .error e) : Advance stages t input
    (.poll t) (.back past act (.forward r)) (.replied past act (.forward r))
  | finished {past : List A} {act : A} {r : Received GpuError (F × F)} : Advance stages t input
    (.poll t) (.back past act (.final r)) (.replied past act (.final r))

/-- What a label does to step `t`: nothing, unless it is awaited; only the stage whose mailbox the
request is in may have taken another one. -/
inductive Moves (stages : List ActorRef) (t : ℕ) (l : Label A F) :
    Option (Journey A F) → Option (Journey A F) → Prop
  | stay {o : Option (Journey A F)} (h : ∀ j ∈ o, ∀ p, j.party stages t = some p →
      l.party = some p → ∃ past act, j.stop = .queued past act) : Moves stages t l o o
  | arrive {input : A} (h : l = .step input) : Moves stages t l none
    (some ⟨input, if stages.isEmpty then .refused else .spawned⟩)
  | advance {input : A} {stop stop' : Stop A F} (h : Advance stages t input l stop stop') :
    Moves stages t l (some ⟨input, stop⟩) (some ⟨input, stop'⟩)

/-- The state knows of step `t` what it should for the journey `o`. -/
structure Follows (stages : List ActorRef) (t : ℕ) (s : State A F) (o : Option (Journey A F)) :
    Prop where
  view : s.view t = expected stages t o
  good : ∀ j ∈ o, j.stop.Good stages j.input

theorem visits_concat (told : List A) (x : A) : visits stages t (told ++ [x]) =
    visits stages t told ++
      [(stages.getD told.length 0, message stages.length t told.length x)] := by
  simp [visits, List.mapIdx_append]

theorem update_getElem? {β : Type} (l : List β) (x : β) :
    Function.update (fun i => l[i]?) l.length (some x) = fun i => (l ++ [x])[i]? := by
  funext i
  by_cases hi : i = l.length
  · subst hi
    simp
  · rw [Function.update_of_ne hi]
    rcases Nat.lt_or_gt_of_ne hi with hlt | hgt
    · rw [List.getElem?_append_left hlt]
    · rw [List.getElem?_eq_none hgt.le, List.getElem?_eq_none (by simp; omega)]

theorem follows_handle {o : Option (Journey A F)} (h : Follows stages t s o) (input : A) :
    ∃ o', Follows stages t (s.handle stages input) o' ∧ Moves stages t (.step input) o o' := by
  by_cases ht : t = s.tasks.length
  · have hnone : o = none := by
      cases o with
      | none => rfl
      | some j =>
        have htask := congrArg View.task h.view
        rw [show (s.view t).task = s.tasks[t]? from rfl, ht, List.getElem?_eq_none le_rfl] at htask
        cases htask
    subst hnone
    refine ⟨some ⟨input, if stages.isEmpty then .refused else .spawned⟩, ⟨?_, ?_⟩, .arrive rfl⟩
    · rw [view_handle, if_pos ht, h.view]
      cases stages <;> rfl
    · rintro j ⟨⟩
      cases stages with
      | nil => rfl
      | cons a stages => exact List.cons_ne_nil _ _
  · refine ⟨o, ⟨?_, h.good⟩, .stay fun j _ p _ hp => by cases hp⟩
    rw [view_handle, if_neg ht, h.view]

/-- The request of step `t` in a mailbox, when there is one. -/
theorem eq_queued_of_mem {o : Option (Journey A F)} (h : Follows stages t s o) {a : ActorRef}
    {m : Msg A} (hmem : m ∈ s.mailboxes a) (ht : m.reply.task = t) :
    ∃ input past act, o = some ⟨input, .queued past act⟩ ∧ a = stages.getD past.length 0 ∧
      m = message stages.length t past.length act := by
  have hqueued : m ∈ (expected stages t o).queued a := by
    rw [← h.view]
    simp [State.view, hmem, ht]
  rcases o with _ | ⟨input, stop⟩
  · cases hqueued
  · cases stop with
    | queued past act =>
      have hif : m ∈ if a = stages.getD past.length 0
          then [message stages.length t past.length act] else [] := hqueued
      split at hif
      · rename_i hstage
        exact ⟨input, past, act, rfl, hstage, List.mem_singleton.1 hif⟩
      · cases hif
    | refused => cases hqueued
    | spawned => cases hqueued
    | held past act => cases hqueued
    | back past act x => cases hqueued
    | replied past act x => cases hqueued

/-- A stage takes another request, or that of step `t`. -/
theorem follows_take {o : Option (Journey A F)} (h : Follows stages t s o) {a : ActorRef}
    (hs : step stages s (.take a) = some s') :
    ∃ o', Follows stages t s' o' ∧ Moves stages t (.take a) o o' := by
  unfold step at hs
  cases ha : s.mailboxes a with
  | nil => simp [ha] at hs
  | cons m rest =>
    simp only [ha, Option.some.injEq] at hs
    subst hs
    by_cases hm : m.reply.task = t
    · have hmem : m ∈ s.mailboxes a := ha ▸ List.mem_cons_self
      obtain ⟨input, past, act, rfl, rfl, rfl⟩ := eq_queued_of_mem h hmem hm
      refine ⟨_, ⟨?_, ?_⟩, .advance .take⟩
      · rw [view_take ha, if_pos hm, h.view]
        simp only [expected, Journey.view, if_true]
        congr 1
        funext b
        by_cases hb : b = stages.getD past.length 0
        · subst hb
          simp
        · rw [Function.update_of_ne hb, if_neg hb]
      · rintro j ⟨⟩
        exact h.good ⟨input, .queued past act⟩ rfl
    · refine ⟨o, ⟨?_, h.good⟩, .stay fun j _ p hj hp => ?_⟩
      · rw [view_take ha, if_neg hm, h.view]
      · obtain rfl := Option.some.inj hp
        rcases j with ⟨input, stop⟩
        cases stop <;> first | exact ⟨_, _, rfl⟩ | cases hj

/-- The request a sender in somebody's hands belongs to, when it is one of step `t`. -/
theorem eq_held_of_find? {o : Option (Journey A F)} (h : Follows stages t s o) {tx : Sender}
    {m : Msg A} (hfind : s.inHand.find? (fun m => m.reply = tx) = some m) (htx : tx.task = t) :
    ∃ input past act, o = some ⟨input, .held past act⟩ ∧ tx = ⟨t, past.length⟩ ∧
      m = message stages.length t past.length act := by
  have hreply : m.reply = tx := by simpa using List.find?_some hfind
  have hheld : m ∈ (expected stages t o).held := by
    rw [← h.view]
    simp [State.view, List.mem_of_find?_eq_some hfind, hreply, htx]
  rcases o with _ | ⟨input, stop⟩
  · cases hheld
  · cases stop with
    | held past act =>
      obtain rfl := List.mem_singleton.1 hheld
      exact ⟨input, past, act, rfl, by rw [← hreply, reply_message], rfl⟩
    | refused => cases hheld
    | spawned => cases hheld
    | queued past act => cases hheld
    | back past act x => cases hheld
    | replied past act x => cases hheld

theorem length_answers_held (past : List A) (act : A) :
    (Stop.held past act : Stop A F).answers.length = past.length := by
  simp [Stop.answers, Stop.told, Stop.answer?]

/-- A label of another step's sender is not the one step `t` waits for. -/
theorem stay_of_sender {o : Option (Journey A F)} {l : Label A F} {tx : Sender} (htx : tx.task ≠ t)
    (hl : l.party = some (.sender tx)) : Moves stages t l o o := by
  refine .stay fun j _ p hj hp => ?_
  obtain rfl := Option.some.inj (hl.symm.trans hp)
  rcases j with ⟨input, stop⟩
  cases stop with
  | held past act =>
    cases hj
    exact absurd rfl htx
  | _ => cases hj

theorem follows_answer {o : Option (Journey A F)} (h : Follows stages t s o) {tx : Sender}
    {r : Received GpuError A} (hs : step stages s (.answer tx r) = some s') :
    ∃ o', Follows stages t s' o' ∧ Moves stages t (.answer tx r) o o' := by
  unfold step at hs
  cases hfind : s.inHand.find? (fun m => m.reply = tx) with
  | none => simp [hfind] at hs
  | some m =>
    cases m with
    | makeFinalForward act reply => simp [hfind] at hs
    | makeForward act' reply =>
      simp only [hfind, Option.some.injEq] at hs
      subst hs
      by_cases htx : tx.task = t
      · obtain ⟨input, past, act, rfl, rfl, hm⟩ := eq_held_of_find? h hfind htx
        have hgood := h.good _ rfl
        refine ⟨_, ⟨?_, ?_⟩, .advance .answer⟩
        · rw [view_answer, if_pos rfl, h.view]
          simp only [expected, Journey.view]
          congr 1
          · simp [reply_message]
          · rw [← length_answers_held (F := F) past act, update_getElem?]
            simp [Stop.answers, Stop.told, Stop.answer?]
        · rintro j ⟨⟩
          refine ⟨hgood.2, ?_⟩
          unfold message at hm
          split at hm
          · assumption
          · cases hm
      · refine ⟨o, ⟨?_, h.good⟩, stay_of_sender htx rfl⟩
        rw [view_answer, if_neg htx, h.view]

theorem follows_answerFinal {o : Option (Journey A F)} (h : Follows stages t s o) {tx : Sender}
    {r : Received GpuError (F × F)} (hs : step stages s (.answerFinal tx r) = some s') :
    ∃ o', Follows stages t s' o' ∧ Moves stages t (.answerFinal tx r) o o' := by
  unfold step at hs
  cases hfind : s.inHand.find? (fun m => m.reply = tx) with
  | none => simp [hfind] at hs
  | some m =>
    cases m with
    | makeForward act reply => simp [hfind] at hs
    | makeFinalForward act' reply =>
      simp only [hfind, Option.some.injEq] at hs
      subst hs
      by_cases htx : tx.task = t
      · obtain ⟨input, past, act, rfl, rfl, hm⟩ := eq_held_of_find? h hfind htx
        have hgood := h.good _ rfl
        refine ⟨_, ⟨?_, ?_⟩, .advance .answerFinal⟩
        · rw [view_answerFinal, if_pos rfl, h.view]
          simp only [expected, Journey.view]
          congr 1
          · simp [reply_message]
          · funext i
            by_cases hi : i = past.length
            · subst hi
              simp [Stop.finalAnswer, Stop.told, Stop.answer?]
            · rw [Function.update_of_ne hi]
              simp [Stop.finalAnswer, Stop.told, Stop.answer?, hi]
        · rintro j ⟨⟩
          refine ⟨hgood.2, ?_⟩
          have hlt := hgood.1
          unfold message at hm
          split at hm
          · cases hm
          · show past.length + 1 = stages.length
            omega
      · refine ⟨o, ⟨?_, h.good⟩, stay_of_sender htx rfl⟩
        rw [view_answerFinal, if_neg htx, h.view]

/-- The task of step `t` tells stage `told.length`, when all earlier ones have answered `told`. -/
theorem view_forward_expected {input x : A} {stop : Stop A F} {task : Task A F}
    (h : s.view t = (⟨input, stop⟩ : Journey A F).view stages t) (ht : s.tasks[t]? = some task)
    (hinput : task.input = input) (hreplies : task.replies = [])
    (hlt : stop.told.length < stages.length)
    (hstop : stop.phase = .spawned ∨ ∃ past act r, stop = .back past act (.forward r))
    (hanswers : stop.answers = (stop.told ++ [x]).tail.map .value) :
    (s.forward stages t stop.told.length task x).view t =
      (⟨input, .queued stop.told x⟩ : Journey A F).view stages t := by
  have hqueued : ∀ a, ((⟨input, stop⟩ : Journey A F).view stages t).queued a = [] := by
    intro a
    cases stop <;> first | rfl | simp [Stop.phase] at hstop
  have hheld : ((⟨input, stop⟩ : Journey A F).view stages t).held = [] := by
    cases stop <;> first | rfl | simp [Stop.phase] at hstop
  have hfinal : stop.finalAnswer = fun _ => none := by
    funext i
    rcases hstop with hstop | ⟨past, act, r, rfl⟩
    · cases stop <;> first | rfl | cases hstop
    · rfl
  rw [view_forward ht hlt, h]
  simp only [hqueued, hheld, List.nil_append]
  simp only [Journey.view, hfinal, hanswers, hinput, hreplies]
  congr 1
  · funext b
    by_cases hb : b = stages.getD stop.told.length 0
    · subst hb
      rw [Function.update_self, if_pos rfl]
    · rw [Function.update_of_ne hb, if_neg hb]
      exact hqueued b
  · simp [Stop.answers, Stop.told, Stop.answer?]
  · simp [visits_concat, Stop.told]

theorem toExcept_eq_ok {ε α : Type} {lost : ε} {r : Received ε α} {x : α}
    (h : r.toExcept lost = .ok x) : r = .value x := by
  cases r <;> cases h
  rfl

/-- The reply of step `t` is sent. -/
theorem follows_reply {input act : A} {past : List A} {a : Answer A F} {task : Task A F}
    (h : Follows stages t s (some ⟨input, .back past act a⟩)) (ht : s.tasks[t]? = some task)
    (hgood : (Stop.replied past act a).Good stages input) :
    Follows stages t (s.reply t task a.reply) (some ⟨input, .replied past act a⟩) := by
  refine ⟨?_, ?_⟩
  · have htask : some task = some ⟨input, .awaiting past.length, []⟩ :=
      ht.symm.trans (congrArg View.task h.view)
    rw [view_reply ht, h.view, Option.some.inj htask]
    rfl
  · rintro j ⟨⟩
    exact hgood

/-- Nothing has come back for the request of step `t`. -/
theorem poll_of_waiting {input act : A} {past : List A} {stop : Stop A F}
    (h : Follows stages t s (some ⟨input, stop⟩))
    (hstop : stop = .queued past act ∨ stop = .held past act) : s.poll stages t = none := by
  have htask : s.tasks[t]? = some ⟨input, stop.phase, stop.replies⟩ := congrArg View.task h.view
  have hrx := congrFun (congrArg View.rx h.view) past.length
  have hfinal := congrFun (congrArg View.finalRx h.view) past.length
  have hphase : stop.phase = .awaiting past.length := by
    rcases hstop with rfl | rfl <;> rfl
  have hnone : s.rx ⟨t, past.length⟩ = none := by
    refine hrx.trans ?_
    rcases hstop with rfl | rfl <;>
      simp [expected, Journey.view, Stop.answers, Stop.told, Stop.answer?]
  have hnone' : s.finalRx ⟨t, past.length⟩ = none := by
    refine hfinal.trans ?_
    rcases hstop with rfl | rfl <;> rfl
  simp [State.poll, htask, hphase, hnone, hnone']

/-- The answer of a stage is in the receiver of its request. -/
theorem Follows.rx_back {input act : A} {past : List A} {r : Received GpuError A}
    (h : Follows stages t s (some ⟨input, .back past act (.forward r)⟩)) :
    s.rx ⟨t, past.length⟩ = some r := by
  refine (congrFun (congrArg View.rx h.view) past.length).trans ?_
  simp [expected, Journey.view, Stop.answers, Stop.told, Stop.answer?]

theorem Follows.finalRx_back {input act : A} {past : List A} {r : Received GpuError (F × F)}
    (h : Follows stages t s (some ⟨input, .back past act (.final r)⟩)) :
    s.finalRx ⟨t, past.length⟩ = some r := by
  refine (congrFun (congrArg View.finalRx h.view) past.length).trans ?_
  simp [expected, Journey.view, Stop.finalAnswer, Stop.told, Stop.answer?]

/-- The last stage is the one that is told to finish. -/
theorem Follows.not_lt_of_final {input act : A} {past : List A} {r : Received GpuError (F × F)}
    (h : Follows stages t s (some ⟨input, .back past act (.final r)⟩)) :
    ¬past.length + 1 < stages.length := by
  have hlast : past.length + 1 = stages.length := (h.good _ rfl).2
  omega

/-- The task gets a stage's answer, and tells the next stage or replies that this one failed. -/
theorem follows_poll_forward {input act : A} {past : List A} {r : Received GpuError A}
    (h : Follows stages t s (some ⟨input, .back past act (.forward r)⟩))
    (hs : s.poll stages t = some s') : ∃ o', Follows stages t s' o' ∧
      Moves stages t (.poll t) (some ⟨input, .back past act (.forward r)⟩) o' := by
  have ht : s.tasks[t]? = some ⟨input, .awaiting past.length, []⟩ := congrArg View.task h.view
  have hgood := h.good _ rfl
  simp only [State.poll, ht, if_pos hgood.2, h.rx_back, Option.map_some, Option.some.injEq] at hs
  subst hs
  cases hr : r.toExcept stageDropped with
  | ok next =>
    obtain rfl := toExcept_eq_ok hr
    have hlen : (past ++ [act]).length = past.length + 1 := List.length_append
    refine ⟨some ⟨input, .queued (past ++ [act]) next⟩, ⟨?_, ?_⟩, .advance .next⟩
    · have hanswers : (Stop.back past act (.forward (.value next)) : Stop A F).answers =
          (past ++ [act] ++ [next]).tail.map .value := by
        rw [List.tail_append_of_ne_nil (by simp), List.map_append]
        rfl
      have hview := view_forward_expected (x := next) h.view ht rfl rfl
        (hlen.trans_lt hgood.2) (.inr ⟨past, act, _, rfl⟩) hanswers
      exact hlen ▸ hview
    · rintro j ⟨⟩
      refine ⟨hlen.trans_lt hgood.2, ?_⟩
      rw [List.head?_append_of_ne_nil _ (by simp)]
      exact hgood.1
  | error e =>
    have hreply : (Answer.forward r : Answer A F).reply = .error e := by
      simp only [Answer.reply, hr]
      rfl
    refine ⟨_, ?_, .advance (.failed hr)⟩
    simp only [← hreply]
    exact follows_reply h ht ⟨hgood.1, hgood.2, e, hr⟩

/-- The task gets the last stage's answer and replies. -/
theorem follows_poll_final {input act : A} {past : List A} {r : Received GpuError (F × F)}
    (h : Follows stages t s (some ⟨input, .back past act (.final r)⟩))
    (hs : s.poll stages t = some s') : ∃ o', Follows stages t s' o' ∧
      Moves stages t (.poll t) (some ⟨input, .back past act (.final r)⟩) o' := by
  have ht : s.tasks[t]? = some ⟨input, .awaiting past.length, []⟩ := congrArg View.task h.view
  have hgood := h.good _ rfl
  simp only [State.poll, ht, if_neg h.not_lt_of_final, h.finalRx_back, Option.map_some,
    Option.some.injEq] at hs
  subst hs
  refine ⟨_, ?_, .advance .finished⟩
  have hreply := follows_reply h ht hgood
  simp only [Answer.reply] at hreply
  cases hr : r.toExcept finalDropped with
  | ok p =>
    rw [hr] at hreply
    exact hreply
  | error e =>
    rw [hr] at hreply
    exact hreply

theorem follows_poll_self {o : Option (Journey A F)} (h : Follows stages t s o)
    (hs : s.poll stages t = some s') :
    ∃ o', Follows stages t s' o' ∧ Moves stages t (.poll t) o o' := by
  have htask : s.tasks[t]? = (expected stages t o).task := congrArg View.task h.view
  rcases o with _ | ⟨input, stop⟩
  · rw [State.poll, htask] at hs
    cases hs
  · have ht : s.tasks[t]? = some ⟨input, stop.phase, stop.replies⟩ := htask
    cases stop with
    | refused =>
      rw [State.poll, ht] at hs
      cases hs
    | replied past act a =>
      rw [State.poll, ht] at hs
      cases hs
    | spawned =>
      have hpos : 0 < stages.length := List.length_pos_iff.2 (h.good _ rfl)
      simp only [State.poll, ht, Stop.phase, Option.some.injEq] at hs
      subst hs
      refine ⟨some ⟨input, .queued [] input⟩,
        ⟨view_forward_expected h.view ht rfl rfl hpos (.inl rfl) rfl, ?_⟩, .advance .start⟩
      rintro j ⟨⟩
      exact ⟨hpos, rfl⟩
    | queued past act =>
      rw [poll_of_waiting h (.inl rfl)] at hs
      cases hs
    | held past act =>
      rw [poll_of_waiting h (.inr rfl)] at hs
      cases hs
    | back past act a =>
      cases a with
      | forward r => exact follows_poll_forward h hs
      | final r => exact follows_poll_final h hs

theorem follows_poll {o : Option (Journey A F)} (h : Follows stages t s o) {u : ℕ}
    (hs : s.poll stages u = some s') :
    ∃ o', Follows stages t s' o' ∧ Moves stages t (.poll u) o o' := by
  by_cases htu : t = u
  · subst htu
    exact follows_poll_self h hs
  · refine ⟨o, ⟨?_, h.good⟩, .stay fun j _ p hj hp => ?_⟩
    · rw [view_poll_of_ne htu hs, h.view]
    · obtain rfl := Option.some.inj hp
      rcases j with ⟨input, stop⟩
      cases stop with
      | spawned =>
        cases hj
        exact absurd rfl htu
      | back past act a =>
        cases hj
        exact absurd rfl htu
      | _ => cases hj

/-- A label moves the journey of a step on, or leaves it alone. -/
theorem follows_step {o : Option (Journey A F)} (h : Follows stages t s o) {l : Label A F}
    (hs : step stages s l = some s') : ∃ o', Follows stages t s' o' ∧ Moves stages t l o o' := by
  cases l with
  | step input =>
    obtain rfl := Option.some.inj hs
    exact follows_handle h input
  | poll u => exact follows_poll h hs
  | take a => exact follows_take h hs
  | answer tx r => exact follows_answer h hs
  | answerFinal tx r => exact follows_answerFinal h hs

/-- Every step has a journey. -/
def Inv (stages : List ActorRef) (s : State A F) : Prop := ∀ t, ∃ o, Follows stages t s o

theorem inv_init : Inv stages (system stages A F).init := fun _ => ⟨none, rfl, nofun⟩

theorem inv_step (h : Inv stages s) {l : Label A F} (hs : step stages s l = some s') :
    Inv stages s' := by
  intro t
  obtain ⟨o, ho⟩ := h t
  obtain ⟨o', ho', -⟩ := follows_step ho hs
  exact ⟨o', ho'⟩

theorem inv_of_run {ls : List (Label A F)}
    (hr : (system stages A F).run (system stages A F).init ls = some s) : Inv stages s :=
  (System.along_of_inv (T := system stages A F) (I := Inv stages) (fun _ h => h)
    (fun _ _ _ h hs => inv_step h hs) inv_init ls).last hr

/-- What the task of a step tells about its journey. -/
theorem Follows.exists_stop {o : Option (Journey A F)} (h : Follows stages t s o) {task : Task A F}
    (ht : s.tasks[t]? = some task) :
    ∃ stop, o = some ⟨task.input, stop⟩ ∧ task.phase = stop.phase ∧
      task.replies = stop.replies := by
  have htask : s.tasks[t]? = (expected stages t o).task := congrArg View.task h.view
  rw [ht] at htask
  rcases o with _ | ⟨input, stop⟩
  · cases htask
  · obtain rfl := Option.some.inj htask
    exact ⟨stop, rfl, rfl, rfl⟩

theorem exists_journey (h : Inv stages s) {task : Task A F} (ht : s.tasks[t]? = some task) :
    ∃ stop, Follows stages t s (some ⟨task.input, stop⟩) ∧ task.phase = stop.phase ∧
      task.replies = stop.replies := by
  obtain ⟨o, ho⟩ := h t
  obtain ⟨stop, rfl, hphase, hreplies⟩ := ho.exists_stop ht
  exact ⟨stop, ho, hphase, hreplies⟩

end Journeys

end Pipeline

end Train

end AtomrAccel
