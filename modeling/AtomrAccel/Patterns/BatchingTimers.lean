import AtomrAccel.Patterns.Batching

/-!
# The timers of `DynamicBatchingServer`

Every batch that is opened arms a timer, and no timer is ever cancelled: it fires, and its
`TimerFlush` finds no batch, a batch old enough to flush, or a younger one, for which it arms a
timer of its own.

* `opens`, `young`: a `Submit` that opens a batch, a `TimerFlush` that finds a young one;
* `handle_timers`: a handler arms one timer for each of the two;
* `Counted`, `counting`: the timed server with the timers it has armed and the batches it has
  opened;
* `timer_of_young`: a timer that finds a young batch was armed before that batch was opened;
* `armed_le_opened_iff`: there are no more timers than batches over exactly the runs in which no
  `TimerFlush` finds a young batch.
-/

namespace AtomrAccel

namespace Batching

open DynamicBatchingServer

variable {Req Resp Reply : Type} (config : BatchingConfig Req Resp)

namespace DynamicBatchingServer

/-- A `Submit` that finds nothing pending, past the overflow check. -/
def opens (s : DynamicBatchingServer Req Reply) : BatchingMsg Req Reply → Bool
  | .submit _ _ =>
    if config.maxBatch ≤ s.pending.length then
      match config.overflow with
      | .reject => false
      | .dropOldest => s.pending.tail.isEmpty
    else s.pending.isEmpty
  | .timerFlush | .flushNow | .stats _ => false

/-- A `TimerFlush` that finds an open batch younger than `max_wait`. -/
def young (now : ℕ) (s : DynamicBatchingServer Req Reply) : BatchingMsg Req Reply → Bool
  | .timerFlush =>
    match s.batchStartedAt with
    | none => false
    | some start => decide (now - start < config.maxWait)
  | .submit _ _ | .flushNow | .stats _ => false

end DynamicBatchingServer

@[simp] theorem timers_append (a b : List (Effect Req Resp Reply)) :
    timers (a ++ b) = timers a ++ timers b := List.filterMap_append

section Timers

variable {config} {now armed : ℕ} {s : DynamicBatchingServer Req Reply}

/-- A flush arms nothing. -/
@[simp] theorem timers_flush : timers (s.flush config).2 = [] := by
  by_cases h : s.pending = []
  · rw [flush_of_empty h]
    rfl
  · rw [flush_of_open h]
    simp [timers, List.filterMap_map]

theorem timers_push (item : Req × Reply) :
    timers (push config now armed s item).2 = if s.pending.isEmpty then [armed] else [] := by
  have htimer : timers (if s.pending.isEmpty then [.spawnTimer armed] else [] :
      List (Effect Req Resp Reply)) = if s.pending.isEmpty then [armed] else [] := by
    split_ifs <;> rfl
  unfold push
  dsimp only
  split
  · rw [timers_append, timers_flush, List.append_nil, htimer]
  · exact htimer

theorem length_timers_push (item : Req × Reply) :
    (timers (push config now armed s item).2).length = s.pending.isEmpty.toNat := by
  rw [timers_push]
  cases s.pending.isEmpty <;> rfl

/-- A handler arms a timer for a batch it opens and for a young batch a `TimerFlush` finds. -/
theorem handle_timers {msg : BatchingMsg Req Reply}
    {r : DynamicBatchingServer Req Reply × List (Effect Req Resp Reply)}
    (hr : s.handle config now armed msg = some r) :
    (timers r.2).length = (s.opens config msg).toNat + (s.young config now msg).toNat := by
  cases msg with
  | submit req reply =>
    simp only [opens, young, Bool.toNat_false, Nat.add_zero]
    obtain ⟨hfull, hpolicy, rfl⟩ | ⟨hfull, hpolicy, oldest, rest, hpending, rfl⟩ | ⟨hroom, rfl⟩ :=
      handle_submit_cases hr
    · rw [if_pos hfull, hpolicy]
      rfl
    · rw [if_pos hfull, hpolicy, hpending]
      -- answering the oldest request arms nothing
      exact length_timers_push (s := { s.dropped with pending := rest }) (req, reply)
    · rw [if_neg hroom]
      exact length_timers_push (req, reply)
  | timerFlush =>
    simp only [DynamicBatchingServer.handle] at hr
    simp only [opens, young, Bool.toNat_false, Nat.zero_add]
    cases hstart : s.batchStartedAt with
    | none =>
      simp only [hstart, Option.some.injEq] at hr
      subst hr
      rfl
    | some start =>
      simp only [hstart] at hr
      split_ifs at hr with hold
      · cases hr
        simp [Nat.not_lt.2 hold]
      · cases hr
        simp [Nat.not_le.1 hold, timers]
  | flushNow =>
    cases hr
    simp [opens, young]
  | stats reply =>
    cases hr
    rfl

end Timers

/-! ### Counting over a run -/

namespace Timed

/-- The timers a step arms. -/
def armed (t : Timed Req Reply) : Label Req Reply → ℕ
  | .handle delay =>
    match t.mailbox with
    | [] => 0
    | mail :: _ =>
      match t.server.handle config t.clock (t.clock + delay) mail.msg with
      | none => 0
      | some r => (timers r.2).length
  | .tick _ | .send _ | .fire _ => 0

/-- The batches a step opens. -/
def opened (t : Timed Req Reply) : Label Req Reply → ℕ
  | .handle _ =>
    match t.mailbox with
    | [] => 0
    | mail :: _ => (t.server.opens config mail.msg).toNat
  | .tick _ | .send _ | .fire _ => 0

/-- The step handles a `TimerFlush` that finds a young batch. -/
def findsYoung (t : Timed Req Reply) : Label Req Reply → Bool
  | .handle _ =>
    match t.mailbox with
    | [] => false
    | mail :: _ => t.server.young config t.clock mail.msg
  | .tick _ | .send _ | .fire _ => false

/-- The step handles the message of a timer whose batch is gone: the open batch, if there is one,
was opened after the timer was armed. -/
def Retired (t : Timed Req Reply) : Label Req Reply → Prop
  | .handle _ => ∃ timer rest, t.mailbox = .timer timer :: rest ∧
      ∀ start, t.server.batchStartedAt = some start → timer < start
  | .tick _ | .send _ | .fire _ => False

end Timed

/-- The timed server with the timers armed and the batches opened so far. -/
structure Counted (Req Reply : Type) where
  timed : Timed Req Reply
  armed : ℕ
  opened : ℕ

/-- One step, with what it arms and opens. -/
def Counted.step (c : Counted Req Reply) (l : Label Req Reply) : Option (Counted Req Reply) :=
  (c.timed.step config l).map fun t =>
    ⟨t, c.armed + c.timed.armed config l, c.opened + c.timed.opened config l⟩

/-- The server with the counts. -/
def counting : Transition.System (Counted Req Reply) (Label Req Reply) where
  init := ⟨(system config).init, 0, 0⟩
  step := Counted.step config

section Counting

variable {config} {t t' : Timed Req Reply} {c c' : Counted Req Reply} {l : Label Req Reply}

/-- What a step arms. -/
theorem armed_eq (hs : t.step config l = some t') :
    t.armed config l = t.opened config l + (t.findsYoung config l).toNat := by
  cases l with
  | tick elapsed => rfl
  | send msg => rfl
  | fire k => rfl
  | handle delay =>
    simp only [Timed.step] at hs
    simp only [Timed.armed, Timed.opened, Timed.findsYoung]
    cases hmail : t.mailbox with
    | nil => rfl
    | cons mail rest =>
      simp only [hmail] at hs ⊢
      obtain ⟨r, hr, -⟩ := Option.map_eq_some_iff.1 hs
      rw [hr]
      exact handle_timers hr

/-- A timer that finds a young batch was armed before that batch was opened, so it was armed for
another one. -/
theorem timer_of_young {timer : ℕ} {rest : List (Mail Req Reply)} (h : Clocked config t)
    (hmail : t.mailbox = .timer timer :: rest) {start : ℕ}
    (hstart : t.server.batchStartedAt = some start)
    (hyoung : t.server.young config t.clock .timerFlush = true) : timer < start := by
  have hdue : timer + config.maxWait ≤ t.clock := h.due timer (by simp [hmail])
  have hlt : t.clock - start < config.maxWait := by simpa [young, hstart] using hyoung
  omega

/-- The invariant of the runs in which no `TimerFlush` finds a young batch: one timer for each
batch. -/
def Balanced (c : Counted Req Reply) : Prop := c.armed = c.opened

theorem Balanced.next (h : Balanced c) (hold : c.timed.findsYoung config l = false)
    (hs : (counting config).step c l = some c') : Balanced c' := by
  obtain ⟨t, ht, rfl⟩ := Option.map_eq_some_iff.1 hs
  have hsame : c.armed = c.opened := h
  show c.armed + c.timed.armed config l = c.opened + c.timed.opened config l
  rw [armed_eq ht, hold, hsame, Bool.toNat_false, Nat.add_zero]

/-- A step that arms a timer for a young batch leaves more timers than batches. -/
theorem Balanced.old_of_le (h : Balanced c) (hs : (counting config).step c l = some c')
    (hle : c'.armed ≤ c'.opened) : c.timed.findsYoung config l = false := by
  obtain ⟨t, ht, rfl⟩ := Option.map_eq_some_iff.1 hs
  have hsame : c.armed = c.opened := h
  have hcount : c.armed + c.timed.armed config l ≤ c.opened + c.timed.opened config l := hle
  rw [armed_eq ht] at hcount
  cases hyoung : c.timed.findsYoung config l with
  | false => rfl
  | true =>
    rw [hyoung, Bool.toNat_true] at hcount
    omega

/-- A timer whose batch is gone is not armed again when it finds no young batch. -/
theorem armed_of_retired (hold : t.findsYoung config l = false) (hretired : t.Retired l) :
    t.armed config l = 0 := by
  cases l with
  | tick elapsed => rfl
  | send msg => rfl
  | fire k => rfl
  | handle delay =>
    obtain ⟨timer, rest, hmail, -⟩ := hretired
    simp only [Timed.findsYoung, hmail] at hold
    simp only [Timed.armed, hmail]
    cases hr : t.server.handle config t.clock (t.clock + delay) (Mail.timer timer).msg with
    | none => rfl
    | some r =>
      have hcount := handle_timers hr
      rw [hold] at hcount
      exact hcount

end Counting

/-- Over a run there are never more timers than batches, and a timer whose batch is gone is not
armed again, exactly when no `TimerFlush` of the run is handled while a batch younger than
`max_wait` is open. -/
theorem armed_le_opened_iff (ls : List (Label Req Reply)) :
    ((counting config).Along (fun c => c.armed ≤ c.opened) (counting config).init ls ∧
      (counting config).Meets (fun c l => c.timed.Retired l → c.timed.armed config l = 0)
        (counting config).init ls) ↔
    (counting config).Meets (fun c l => c.timed.findsYoung config l = false)
      (counting config).init ls := by
  have hinit : Balanced (counting config : Transition.System (Counted Req Reply) _).init := rfl
  constructor
  · rintro ⟨halong, -⟩
    exact Transition.System.meets_of_along (fun _ _ _ h hs hle => h.old_of_le hs hle)
      (fun _ _ _ h hold hs => h.next hold hs) hinit halong
  · intro hmeets
    constructor
    · exact Transition.System.along_of_meets (I := Balanced) (fun _ h => Nat.le_of_eq h)
        (fun _ _ _ h hold hs => h.next hold hs) hinit hmeets
    · exact hmeets.mono_of_inv (fun _ _ _ h hold hs => h.next hold hs)
        (fun _ _ _ hold hretired => armed_of_retired hold hretired) hinit

/-- A batch fills up at time zero and another is opened at time five: at time ten the timer of
the first finds the second and arms a third. -/
theorem stale_timer_rearmed :
    ¬ ((counting (⟨2, 10, fun _ reqs => reqs.map .ok, .reject⟩ : BatchingConfig ℕ ℕ)).Along
        (fun c => c.armed ≤ c.opened)
        (counting (⟨2, 10, fun _ reqs => reqs.map .ok, .reject⟩ : BatchingConfig ℕ ℕ)).init
        [.send (.submit 1 1), .send (.submit 2 2), .handle 0, .handle 0, .tick 5,
          .send (.submit 3 3), .handle 0, .tick 5, .fire 0, .handle 0] ∧
      (counting (⟨2, 10, fun _ reqs => reqs.map .ok, .reject⟩ : BatchingConfig ℕ ℕ)).Meets
        (fun c l => c.timed.Retired l → c.timed.armed
          (⟨2, 10, fun _ reqs => reqs.map .ok, .reject⟩ : BatchingConfig ℕ ℕ) l = 0)
        (counting (⟨2, 10, fun _ reqs => reqs.map .ok, .reject⟩ : BatchingConfig ℕ ℕ)).init
        [.send (.submit 1 1), .send (.submit 2 2), .handle 0, .handle 0, .tick 5,
          .send (.submit 3 3), .handle 0, .tick 5, .fire 0, .handle 0]) := by
  rintro ⟨halong, -⟩
  have hlast := halong.last (t := ⟨⟨⟨[(3, 3)], some 5, ⟨1, 2, 0⟩, 1⟩, 10, [5, 10], []⟩, 3, 2⟩) rfl
  exact absurd hlast (by decide)

end Batching

end AtomrAccel
