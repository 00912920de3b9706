import AtomrAccel.Lib.Liveness
import AtomrAccel.Train.PipelineJourney

/-!
# What becomes of a step

* `Composed`, `composed`: the stages a step visits and the reply it gets, whatever they answer;
* `Pure`, `reply_of_pureInv`: the reply when the stages are functions;
* `State.rank`, `rank_step`: how far a step is from its reply, and that nothing takes it further
  away;
* `eventually_answered`: in a fair run every step is answered;
* `steps_composed`: all of this, of every number of stages and steps.
-/

namespace AtomrAccel

namespace Train

namespace Pipeline

open Gather (Received)

open Transition

/-! ### What a step visits, and what it is replied -/

section Results

variable {A F : Type} {stages : List ActorRef} {s s' : State A F} {t : ℕ}

/-- The reply `r` is that there are no stages, or the failure of the last stage visited, or the
result of the final one. -/
def Concluded (stages : List ActorRef) (s : State A F) (t visited : ℕ)
    (r : Except GpuError (StepStats F)) : Prop :=
  (stages = [] ∧ r = .error noStages) ∨
    (∃ i x e, visited = i + 1 ∧ i + 1 < stages.length ∧ s.rx ⟨t, i⟩ = some x ∧
      x.toExcept stageDropped = .error e ∧ r = .error e) ∨
    ∃ i x, visited = i + 1 ∧ i + 1 = stages.length ∧ s.finalRx ⟨t, i⟩ = some x ∧
      r = (x.toExcept finalDropped).map fun p => ⟨p.1, p.2⟩

/-- Step `t` is replied to at most once; it has visited the stages in order, the first with its own
input and each other with what the one before has answered it, without a failure. -/
structure Composed (stages : List ActorRef) (s : State A F) (t : ℕ) (task : Task A F) : Prop where
  once : task.replies.length ≤ 1
  visits : ∃ told : List A, told.length ≤ stages.length ∧
    (s.tells.filter fun p => p.2.reply.task = t) = visits stages t told ∧
    (∀ x ∈ told.head?, x = task.input) ∧
    (∀ i x, told[i + 1]? = some x → s.rx ⟨t, i⟩ = some (.value x)) ∧
    ∀ r ∈ task.replies, Concluded stages s t told.length r

theorem told_length_le {input : A} {stop : Stop A F} (h : stop.Good stages input) :
    stop.told.length ≤ stages.length := by
  have hlen : ∀ (past : List A) (act : A), (past ++ [act]).length = past.length + 1 :=
    fun _ _ => List.length_append
  cases stop with
  | refused => exact Nat.zero_le _
  | spawned => exact Nat.zero_le _
  | queued past act => exact (hlen past act).trans_le h.1
  | held past act => exact (hlen past act).trans_le h.1
  | back past act a =>
    cases a with
    | forward r => exact (hlen past act).trans_le h.2.le
    | final r => exact (hlen past act).trans_le h.2.le
  | replied past act a =>
    cases a with
    | forward r => exact (hlen past act).trans_le h.2.1.le
    | final r => exact (hlen past act).trans_le h.2.le

theorem told_head {input : A} {stop : Stop A F} (h : stop.Good stages input) :
    ∀ x ∈ stop.told.head?, x = input := by
  intro x hx
  cases stop with
  | refused => cases hx
  | spawned => cases hx
  | queued past act => exact Option.some.inj (hx.symm.trans h.2)
  | held past act => exact Option.some.inj (hx.symm.trans h.2)
  | back past act a => exact Option.some.inj (hx.symm.trans h.1)
  | replied past act a => exact Option.some.inj (hx.symm.trans h.1)

theorem concluded_replied {input act : A} {past : List A} {a : Answer A F}
    (h : Follows stages t s (some ⟨input, .replied past act a⟩)) :
    Concluded stages s t (past ++ [act]).length a.reply := by
  have hgood := h.good _ rfl
  have hlen : (past ++ [act]).length = past.length + 1 := List.length_append
  refine .inr ?_
  cases a with
  | forward r =>
    obtain ⟨e, he⟩ := hgood.2.2
    refine .inl ⟨past.length, r, e, hlen, hgood.2.1, ?_, he, ?_⟩
    · show (s.view t).rx past.length = _
      rw [h.view]
      simp [expected, Journey.view, Stop.answers, Stop.told, Stop.answer?]
    · simp only [Answer.reply, he]
      rfl
  | final r =>
    refine .inr ⟨past.length, r, hlen, hgood.2, ?_, rfl⟩
    show (s.view t).finalRx past.length = _
    rw [h.view]
    simp [expected, Journey.view, Stop.finalAnswer, Stop.told, Stop.answer?]

theorem composed (h : Inv stages s) {task : Task A F} (ht : s.tasks[t]? = some task) :
    Composed stages s t task := by
  obtain ⟨stop, hfollows, -, hreplies⟩ := exists_journey h ht
  have hgood := hfollows.good _ rfl
  refine ⟨?_, stop.told, told_length_le hgood, congrArg View.visits hfollows.view,
    told_head hgood, fun i x hx => ?_, fun r hr => ?_⟩
  · rw [hreplies]
    cases stop <;> simp [Stop.replies]
  · show (s.view t).rx i = _
    rw [hfollows.view]
    have hx' : (stop.told.tail.map Received.value)[i]? = some (.value x : Received GpuError A) := by
      rw [List.getElem?_map, List.getElem?_tail, hx]
      rfl
    have hi := (List.getElem?_eq_some_iff.1 hx').1
    show stop.answers[i]? = _
    rw [Stop.answers, List.getElem?_append_left hi, hx']
  · rw [hreplies] at hr
    cases stop with
    | refused => exact .inl ⟨hgood, List.mem_singleton.1 hr⟩
    | replied past act a =>
      obtain rfl := List.mem_singleton.1 hr
      exact concluded_replied hfollows
    | _ => cases hr

/-! ### Stages that are functions -/

variable {f : ActorRef → A → A} {g : ActorRef → A → F × F}

/-- A stage answers with `f`, or `g` when it is the last one, of what it was told. -/
def Pure (stages : List ActorRef) (f : ActorRef → A → A) (g : ActorRef → A → F × F)
    (s : State A F) : Label A F → Prop
  | .answer tx r =>
    ∀ m ∈ s.inHand, m.reply = tx → r = .value (f (stages.getD tx.stage 0) m.input)
  | .answerFinal tx r =>
    ∀ m ∈ s.inHand, m.reply = tx → r = .value (g (stages.getD tx.stage 0) m.input)
  | _ => True

/-- An input after the given stages. -/
def through (f : ActorRef → A → A) (stages : List ActorRef) (input : A) : A :=
  stages.foldl (fun x a => f a x) input

/-- The answer of stage `i` to an activation. -/
def Answer.Of (stages : List ActorRef) (f : ActorRef → A → A) (g : ActorRef → A → F × F) (i : ℕ)
    (act : A) : Answer A F → Prop
  | .forward r => r = .value (f (stages.getD i 0) act)
  | .final r => r = .value (g (stages.getD i 0) act)

/-- The activations are those of the composed stages. -/
def Stop.Of (stages : List ActorRef) (f : ActorRef → A → A) (g : ActorRef → A → F × F)
    (input : A) : Stop A F → Prop
  | .refused | .spawned => True
  | .queued past act | .held past act => act = through f (stages.take past.length) input
  | .back past act a | .replied past act a =>
    act = through f (stages.take past.length) input ∧ a.Of stages f g past.length act

theorem through_succ {input : A} {i : ℕ} (hi : i < stages.length) :
    through f (stages.take (i + 1)) input =
      f (stages.getD i 0) (through f (stages.take i) input) := by
  rw [List.take_add_one, List.getElem?_eq_getElem hi, through, List.foldl_append,
    List.getD_eq_getElem?_getD, List.getElem?_eq_getElem hi]
  rfl

/-- The request in somebody's hands carries the activation. -/
theorem mem_inHand {input act : A} {past : List A}
    (h : Follows stages t s (some ⟨input, .held past act⟩)) :
    message stages.length t past.length act ∈ s.inHand := by
  have hheld : message stages.length t past.length act ∈ (s.view t).held := by
    rw [h.view]
    exact List.mem_singleton.2 rfl
  exact (List.mem_filter.1 hheld).1

theorem of_advance {input : A} {stop stop' : Stop A F} {l : Label A F}
    (h : Follows stages t s (some ⟨input, stop⟩)) (ha : Advance stages t input l stop stop')
    (hpure : Pure stages f g s l) (hof : stop.Of stages f g input) :
    stop'.Of stages f g input := by
  have hgood := h.good _ rfl
  cases ha with
  | start => rfl
  | take => exact hof
  | answer =>
    refine ⟨hof, ?_⟩
    have hr := hpure _ (mem_inHand h) (reply_message ..)
    rwa [input_message] at hr
  | answerFinal =>
    refine ⟨hof, ?_⟩
    have hr := hpure _ (mem_inHand h) (reply_message ..)
    rwa [input_message] at hr
  | @next past act x =>
    obtain ⟨hact, hx⟩ := hof
    have hlt : past.length < stages.length := (Nat.lt_succ_self _).trans hgood.2
    show x = through f (stages.take (past ++ [act]).length) input
    rw [List.length_append, List.length_singleton, through_succ hlt, ← hact]
    exact Received.value.inj hx
  | failed => exact hof
  | finished => exact hof

/-- Every step has a journey, through functions. -/
def PureInv (stages : List ActorRef) (f : ActorRef → A → A) (g : ActorRef → A → F × F)
    (s : State A F) : Prop :=
  ∀ t, ∃ o, Follows stages t s o ∧ ∀ j ∈ o, j.stop.Of stages f g j.input

theorem pureInv_step (h : PureInv stages f g s) {l : Label A F} (hpure : Pure stages f g s l)
    (hs : step stages s l = some s') : PureInv stages f g s' := by
  intro t
  obtain ⟨o, ho, hof⟩ := h t
  obtain ⟨o', ho', hmoves⟩ := follows_step ho hs
  refine ⟨o', ho', ?_⟩
  cases hmoves with
  | stay => exact hof
  | arrive hl =>
    rintro j ⟨⟩
    cases stages <;> trivial
  | advance ha =>
    rintro j ⟨⟩
    exact of_advance ho ha hpure (hof _ rfl)

theorem pureInv_of_run {ls : List (Label A F)}
    (hr : (system stages A F).run (system stages A F).init ls = some s)
    (hm : (system stages A F).Meets (Pure stages f g) (system stages A F).init ls) :
    PureInv stages f g s :=
  (System.along_of_meets (T := system stages A F) (I := PureInv stages f g) (fun _ h => h)
    (fun _ _ _ h hC hs => pureInv_step h hC hs) (fun _ => ⟨none, ⟨rfl, nofun⟩, nofun⟩) hm).last hr

/-- A reply is the final stage's result for the input after all the others. -/
theorem reply_of_pureInv {front : List ActorRef} {last : ActorRef}
    (h : PureInv (front ++ [last]) f g s) {task : Task A F} (ht : s.tasks[t]? = some task)
    {r : Except GpuError (StepStats F)} (hr : r ∈ task.replies) :
    r = .ok ⟨(g last (through f front task.input)).1, (g last (through f front task.input)).2⟩ := by
  obtain ⟨o, ho, hof⟩ := h t
  obtain ⟨stop, rfl, -, hreplies⟩ := ho.exists_stop ht
  have hgood := ho.good _ rfl
  have hof' := hof _ rfl
  rw [hreplies] at hr
  cases stop with
  | refused => exact absurd hgood (List.append_ne_nil_of_right_ne_nil _ (List.cons_ne_nil _ _))
  | replied past act a =>
    obtain rfl := List.mem_singleton.1 hr
    obtain ⟨hact, hans⟩ := hof'
    cases a with
    | forward x =>
      -- a stage before the last does not fail
      obtain rfl : x = .value _ := hans
      obtain ⟨e, he⟩ := hgood.2.2
      cases he
    | final x =>
      obtain rfl : x = .value _ := hans
      have hlen : past.length = front.length := by
        have : past.length + 1 = (front ++ [last]).length := hgood.2
        simpa using this
      rw [hlen, List.take_left] at hact
      rw [show through f front task.input = act from hact.symm]
      simp [Answer.reply, Received.toExcept, Except.map, hlen]
  | _ => cases hr

end Results

/-! ### Every step is replied to -/

section Progress

variable {A F : Type} {stages : List ActorRef} {s s' : State A F} {t : ℕ}

/-- The party a step waits for, as far as can be seen. -/
def View.party (stages : List ActorRef) (t : ℕ) (v : View A F) : Party :=
  match v.task.map Task.phase with
  | some (.awaiting i) =>
    if (v.queued (stages.getD i 0)).isEmpty then
      if v.held.isEmpty then .task t else .sender ⟨t, i⟩
    else .stage (stages.getD i 0)
  | _ => .task t

/-- How many moves there are still to be made for a step, at most. -/
def View.distance (stages : List ActorRef) (v : View A F) : ℕ :=
  match v.task.map Task.phase with
  | some .spawned => 4 * stages.length + 4
  | some (.awaiting i) =>
    4 * (stages.length - i) +
      if (v.queued (stages.getD i 0)).isEmpty then if v.held.isEmpty then 1 else 2 else 3
  | _ => 0

/-- And how many requests are taken before that of the step. -/
def State.rank (stages : List ActorRef) (t : ℕ) (s : State A F) : ℕ ×ₗ ℕ :=
  toLex ((s.view t).distance stages,
    match (s.view t).party stages t with
    | .stage a => (s.mailboxes a).findIdx fun m => m.reply.task = t
    | _ => 0)

theorem party_view {j : Journey A F} {p : Party} (h : j.party stages t = some p) :
    (j.view stages t).party stages t = p := by
  rcases j with ⟨input, stop⟩
  cases stop <;> cases h <;> simp [View.party, Journey.view, Stop.phase]

theorem distance_lt {input : A} {stop stop' : Stop A F} {l : Label A F}
    (ha : Advance stages t input l stop stop') (hgood : stop.Good stages input) :
    ((⟨input, stop'⟩ : Journey A F).view stages t).distance stages <
      ((⟨input, stop⟩ : Journey A F).view stages t).distance stages := by
  cases ha with
  | start => simp [View.distance, Journey.view, Stop.phase]
  | take => simp [View.distance, Journey.view, Stop.phase]
  | answer => simp [View.distance, Journey.view, Stop.phase]
  | answerFinal => simp [View.distance, Journey.view, Stop.phase]
  | @next past act x =>
    have hlt : past.length + 1 < stages.length := hgood.2
    simp [View.distance, Journey.view, Stop.phase]
    omega
  | failed => simp [View.distance, Journey.view, Stop.phase]
  | finished => simp [View.distance, Journey.view, Stop.phase]

theorem enabled_of_isSome {l : Label A F} {p : Party} (hl : l.party = some p)
    (h : (step stages s l).isSome) : (system stages A F).Enabled Label.party p s := by
  obtain ⟨s', hs'⟩ := Option.isSome_iff_exists.1 h
  exact ⟨l, s', hl, hs'⟩

/-- The party a step waits for can move. -/
theorem enabled_party {j : Journey A F} (h : Follows stages t s (some j)) {p : Party}
    (hp : j.party stages t = some p) : (system stages A F).Enabled Label.party p s := by
  have htask : s.tasks[t]? = (j.view stages t).task := congrArg View.task h.view
  have hgood := h.good _ rfl
  rcases j with ⟨input, stop⟩
  cases stop with
  | refused => cases hp
  | replied past act a => cases hp
  | spawned =>
    cases hp
    refine enabled_of_isSome (l := .poll t) rfl ?_
    show (s.poll stages t).isSome
    rw [State.poll, htask]
    rfl
  | queued past act =>
    cases hp
    have hqueued := congrFun (congrArg View.queued h.view) (stages.getD past.length 0)
    simp only [State.view, expected, Journey.view, if_true] at hqueued
    cases hmail : s.mailboxes (stages.getD past.length 0) with
    | nil =>
      rw [hmail] at hqueued
      cases hqueued
    | cons m rest =>
      refine enabled_of_isSome (l := .take (stages.getD past.length 0)) rfl ?_
      simp only [step, hmail, Option.isSome_some]
  | held past act =>
    cases hp
    have hmem := mem_inHand h
    have hsome : (s.inHand.find? fun m => m.reply = ⟨t, past.length⟩).isSome := by
      rw [List.find?_isSome]
      exact ⟨_, hmem, by simp [reply_message]⟩
    obtain ⟨m, hm⟩ := Option.isSome_iff_exists.1 hsome
    cases m with
    | makeForward act' reply =>
      refine enabled_of_isSome (l := .answer ⟨t, past.length⟩ .dropped) rfl ?_
      simp only [step, hm, Option.isSome_some]
    | makeFinalForward act' reply =>
      refine enabled_of_isSome (l := .answerFinal ⟨t, past.length⟩ .dropped) rfl ?_
      simp only [step, hm, Option.isSome_some]
  | back past act a =>
    cases hp
    refine enabled_of_isSome (l := .poll t) rfl ?_
    show (s.poll stages t).isSome
    cases a with
    | forward r => simp [State.poll, htask, Journey.view, Stop.phase, hgood.2, h.rx_back]
    | final r =>
      simp [State.poll, htask, Journey.view, Stop.phase, h.not_lt_of_final, h.finalRx_back]

/-- What leaves step `t` where it is leaves its rank and its party as they are, or the stage it
waits for has taken an earlier request. -/
theorem rank_stay (h : s'.view t = s.view t) {l : Label A F} (hs : step stages s l = some s')
    (hqueued : ∀ a, (s.view t).party stages t = .stage a → (s.view t).queued a ≠ [])
    (hl : l.party = some ((s.view t).party stages t) → ∃ a, (s.view t).party stages t = .stage a) :
    s'.rank stages t < s.rank stages t ∨ s'.rank stages t = s.rank stages t ∧
      (s'.view t).party stages t = (s.view t).party stages t ∧
      l.party ≠ some ((s.view t).party stages t) := by
  unfold State.rank
  rw [h]
  cases hp : (s.view t).party stages t with
  | task u => exact .inr ⟨rfl, rfl, fun hlp => by obtain ⟨a, ha⟩ := hl (hp ▸ hlp); simp [hp] at ha⟩
  | sender tx =>
    exact .inr ⟨rfl, rfl, fun hlp => by obtain ⟨a, ha⟩ := hl (hp ▸ hlp); simp [hp] at ha⟩
  | stage a =>
    have hmem : ∃ m ∈ s.mailboxes a, m.reply.task = t := by
      obtain ⟨m, hm⟩ := List.exists_mem_of_ne_nil _ (hqueued a hp)
      have := List.mem_filter.1 hm
      exact ⟨m, this.1, by simpa using this.2⟩
    rcases mailboxes_step hs a with ⟨hparty, ms, hms⟩ | ⟨m, hm⟩
    · refine .inr ⟨?_, rfl, hparty⟩
      have hlt : (s.mailboxes a).findIdx (fun m => m.reply.task = t) < (s.mailboxes a).length := by
        simpa [List.findIdx_lt_length] using hmem
      simp only [hms, List.findIdx_append, if_pos hlt]
    · refine .inl (Prod.Lex.toLex_lt_toLex.2 (.inr ⟨rfl, ?_⟩))
      have hne : m.reply.task ≠ t := by
        intro hmt
        have hsame := congrFun (congrArg View.queued h) a
        simp only [State.view, hm, List.filter_cons, hmt, decide_true, if_true] at hsame
        exact List.cons_ne_self _ _ hsame.symm
      show (s'.mailboxes a).findIdx _ < (s.mailboxes a).findIdx _
      rw [hm, List.findIdx_cons]
      simp [hne]

/-- Exactly one reply was sent to step `t`. -/
def State.Answered (s : State A F) (t : ℕ) : Prop :=
  ∃ task, s.tasks[t]? = some task ∧ task.replies.length = 1

/-- A step that is not answered waits for somebody. -/
theorem exists_party (h : Inv stages s) (ht : t < s.tasks.length) (hs : ¬ s.Answered t) :
    ∃ j p, Follows stages t s (some j) ∧ j.party stages t = some p := by
  have htask : s.tasks[t]? = some s.tasks[t] := List.getElem?_eq_getElem ht
  obtain ⟨stop, hfollows, -, hreplies⟩ := exists_journey h htask
  cases stop with
  | refused => exact absurd ⟨_, htask, by rw [hreplies]; rfl⟩ hs
  | replied past act a => exact absurd ⟨_, htask, by rw [hreplies]; rfl⟩ hs
  | spawned => exact ⟨_, _, hfollows, rfl⟩
  | queued past act => exact ⟨_, _, hfollows, rfl⟩
  | held past act => exact ⟨_, _, hfollows, rfl⟩
  | back past act a => exact ⟨_, _, hfollows, rfl⟩

/-- Whatever happens, a step gets nearer to its reply, or waits for whom it waited. -/
theorem rank_step {j : Journey A F} {p : Party} (h : Follows stages t s (some j))
    (hp : j.party stages t = some p) {l : Label A F} (hs : step stages s l = some s') :
    s'.rank stages t < s.rank stages t ∨ s'.rank stages t = s.rank stages t ∧
      (s'.view t).party stages t = (s.view t).party stages t ∧
      l.party ≠ some ((s.view t).party stages t) := by
  have hparty : (s.view t).party stages t = p := by
    rw [h.view]
    exact party_view hp
  obtain ⟨o', ho', hmoves⟩ := follows_step h hs
  cases hmoves with
  | stay hstay =>
    refine rank_stay (ho'.view.trans h.view.symm) hs (fun a ha => ?_) fun hl => ?_
    · obtain rfl : p = .stage a := hparty.symm.trans ha
      rw [h.view]
      rcases j with ⟨input, stop⟩
      cases stop <;> cases hp
      simp [expected, Journey.view]
    · obtain ⟨past, act, hstop⟩ := hstay j rfl p hp (hparty ▸ hl)
      rcases j with ⟨input, stop⟩
      obtain rfl : stop = .queued past act := hstop
      cases hp
      exact ⟨_, hparty⟩
  | advance ha =>
    refine .inl (Prod.Lex.toLex_lt_toLex.2 (.inl ?_))
    rw [h.view, ho'.view]
    exact distance_lt ha (h.good _ rfl)

/-- In a fair run every step is answered. -/
theorem eventually_answered (ρ : (system stages A F).Endless) (hfair : ρ.Fair Label.party) {k : ℕ}
    (ht : t < (ρ.state k).tasks.length) : ∃ m ≥ k, (ρ.state m).Answered t := by
  have hinv : ∀ m, Inv stages (ρ.state m) := by
    intro m
    obtain ⟨ls, hls⟩ := ρ.reachable m
    exact inv_of_run hls
  have hlen : ∀ m ≥ k, t < (ρ.state m).tasks.length := by
    intro m hm
    induction m, hm using Nat.le_induction with
    | base => exact ht
    | succ m hm ih =>
      refine ih.trans_le ?_
      cases hl : ρ.label m with
      | none => rw [ρ.next_of_none hl]
      | some l => exact length_step (ρ.next_of_some hl)
  refine ρ.eventually_of_rank (I := fun s => Inv stages s ∧ t < s.tasks.length)
    (G := fun s => s.Answered t) (State.rank stages t) (fun s => (s.view t).party stages t) hfair
    (fun m hm => ⟨hinv m, hlen m hm⟩) ?_ ?_
  · rintro s ⟨hs, hts⟩ hnot
    obtain ⟨j, p, hfollows, hp⟩ := exists_party hs hts hnot
    have hparty : (s.view t).party stages t = p := by
      rw [hfollows.view]
      exact party_view hp
    rw [hparty]
    exact enabled_party hfollows hp
  · rintro s l s' ⟨hs, hts⟩ hnot hstep -
    obtain ⟨j, p, hfollows, hp⟩ := exists_party hs hts hnot
    exact rank_step hfollows hp hstep

/-- When every step is answered, none has a request with a stage or a task that goes on. -/
theorem clear_of_answered (h : Inv stages s) (hall : ∀ t < s.tasks.length, s.Answered t) (t : ℕ) :
    (∀ a, (s.view t).queued a = []) ∧ (s.view t).held = [] ∧
      ∀ task, s.tasks[t]? = some task → task.phase = .finished := by
  obtain ⟨o, ho⟩ := h t
  rcases hget : s.tasks[t]? with _ | task
  · obtain rfl : o = none := by
      cases o with
      | none => rfl
      | some j => exact absurd (hget.symm.trans (congrArg View.task ho.view)) nofun
    exact ⟨fun a => by rw [ho.view]; rfl, by rw [ho.view]; rfl, nofun⟩
  · obtain ⟨stop, rfl, hphase, hreplies⟩ := ho.exists_stop hget
    obtain ⟨task', htask', hlen⟩ := hall t (List.getElem?_eq_some_iff.1 hget).1
    obtain rfl : task = task' := Option.some.inj (hget.symm.trans htask')
    rw [hreplies] at hlen
    rw [ho.view]
    refine ⟨fun a => ?_, ?_, fun task' ht' => ?_⟩
    · cases stop <;> first | rfl | cases hlen
    · cases stop <;> first | rfl | cases hlen
    · obtain rfl := Option.some.inj ht'
      rw [hphase]
      cases stop <;> first | rfl | cases hlen

/-- When every step is answered, nothing is left in a mailbox or in somebody's hands. -/
theorem not_enabled_of_answered (h : Inv stages s) (hall : ∀ t < s.tasks.length, s.Answered t)
    (p : Party) : ¬ (system stages A F).Enabled Label.party p s := by
  have hclear := clear_of_answered h hall
  have hinHand : ∀ m, m ∉ s.inHand := by
    intro m hm
    have hheld : m ∈ (s.view m.reply.task).held := List.mem_filter.2 ⟨hm, by simp⟩
    rw [(hclear _).2.1] at hheld
    cases hheld
  have hfind : ∀ tx, s.inHand.find? (fun m => m.reply = tx) = none :=
    fun tx => List.find?_eq_none.2 fun m hm => absurd hm (hinHand m)
  rintro ⟨l, s', hl, hs⟩
  cases l with
  | step input => cases hl
  | poll u =>
    have hs : s.poll stages u = some s' := hs
    obtain ⟨task, htask, -⟩ := poll_cases hs
    simp [State.poll, htask, (hclear u).2.2 task htask] at hs
  | take a =>
    cases hmail : s.mailboxes a with
    | nil => simp [system, step, hmail] at hs
    | cons m rest =>
      have hqueued : m ∈ (s.view m.reply.task).queued a :=
        List.mem_filter.2 ⟨by simp [hmail], by simp⟩
      rw [(hclear _).1] at hqueued
      cases hqueued
  | answer tx r => simp [system, step, hfind] at hs
  | answerFinal tx r => simp [system, step, hfind] at hs

/-- So a run that ends with every step answered is fair, when nothing happens after it. -/
theorem fair_of_answered {ls : List (Label A F)}
    (hr : (system stages A F).run (system stages A F).init ls = some s)
    (hall : ∀ t < s.tasks.length, s.Answered t) : (System.halting ls hr).Fair Label.party :=
  System.fair_halting hr (not_enabled_of_answered (inv_of_run hr) hall)

/-- Two steps at once over two stages; the first stage answers the second step first, and drops the
other's sender. -/
example : ((system [3, 5] ℕ ℕ).run (system [3, 5] ℕ ℕ).init
    [.step 7, .step 8, .poll 0, .poll 1, .take 3, .take 3, .answer ⟨1, 0⟩ (.value 9), .poll 1,
      .answer ⟨0, 0⟩ .dropped, .poll 0, .take 5, .answerFinal ⟨1, 1⟩ (.value (1, 2)),
      .poll 1]).map State.tasks =
    some [⟨7, .finished, [.error stageDropped]⟩, ⟨8, .finished, [.ok ⟨1, 2⟩]⟩] := by
  decide

end Progress

/-- Steps are pipelines: in every run a step is replied to at most once and has visited the stages
in order with what they answered, up to the first failure; if the stages are functions its reply is
their composition, applied to its own input; and in a fair run it does get its reply. -/
theorem steps_composed {A F : Type} (stages : List ActorRef) :
    (∀ (ls : List (Label A F)) (s : State A F),
      (system stages A F).run (system stages A F).init ls = some s →
        s.tasks.map Task.input = ls.filterMap Label.input? ∧
        (∀ t task, s.tasks[t]? = some task → Composed stages s t task) ∧
        ∀ front last, stages = front ++ [last] →
          ∀ (f : ActorRef → A → A) (g : ActorRef → A → F × F),
          (system stages A F).Meets (Pure stages f g) (system stages A F).init ls →
            ∀ (t : ℕ) (task : Task A F), s.tasks[t]? = some task → ∀ r ∈ task.replies,
              r = .ok ⟨(g last (through f front task.input)).1,
                (g last (through f front task.input)).2⟩) ∧
      ∀ ρ : (system stages A F).Endless, ρ.Fair Label.party → ∀ k t,
        t < (ρ.state k).tasks.length → ∃ m ≥ k, (ρ.state m).Answered t := by
  refine ⟨fun ls s hr => ⟨?_, ?_, ?_⟩, fun ρ hfair k t ht => eventually_answered ρ hfair ht⟩
  · simpa [system] using map_input_run hr
  · exact fun t task ht => composed (inv_of_run hr) ht
  · rintro front last rfl f g hm t task ht r hreply
    exact reply_of_pureInv (pureInv_of_run hr hm) ht hreply

end Pipeline

end Train

end AtomrAccel
