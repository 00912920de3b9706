import AtomrAccel.Lib.Liveness

/-!
# Routers

A router takes messages from its mailbox one after the other.  A message changes its state, and may
hand a job to one of several servers, each with a mailbox of its own.

* `Router`, `after`, `jobs`: a router, and what it does with a list of messages with no mailbox in
  sight;
* `State`, `step`, `system`: any number of senders, the router and its servers, in any order;
* `jobsOf`: the jobs of one server;
* `Inv`, `inv_of_run`, `served_append_inbox`: no job is lost, made twice or handed to another;
* `eventually_served`: in a fair run every job of every message that has been sent is done.
-/

namespace Routing

open Transition

/-- What a router does with a message: its next state, and the job it hands to a server. -/
structure Router (σ μ τ ρ : Type*) where
  init : σ
  route : σ → μ → σ × Option (τ × ρ)

variable {σ μ τ ρ : Type*} (r : Router σ μ τ ρ)

namespace Router

/-- The state after some messages. -/
def after (ms : List μ) : σ := ms.foldl (fun s m => (r.route s m).1) r.init

/-- The jobs of some messages. -/
def jobsFrom (s : σ) : List μ → List (τ × ρ)
  | [] => []
  | m :: ms => (r.route s m).2.toList ++ jobsFrom (r.route s m).1 ms

/-- The jobs of some messages. -/
def jobs (ms : List μ) : List (τ × ρ) := r.jobsFrom r.init ms

theorem after_concat (ms : List μ) (m : μ) :
    r.after (ms ++ [m]) = (r.route (r.after ms) m).1 := by
  simp [after]

theorem jobsFrom_append (s : σ) (ms ms' : List μ) :
    r.jobsFrom s (ms ++ ms') =
      r.jobsFrom s ms ++ r.jobsFrom (ms.foldl (fun s m => (r.route s m).1) s) ms' := by
  induction ms generalizing s with
  | nil => rfl
  | cons m ms ih =>
    rw [List.cons_append, jobsFrom, jobsFrom, ih, List.append_assoc]
    rfl

theorem jobs_append (ms ms' : List μ) :
    r.jobs (ms ++ ms') = r.jobs ms ++ r.jobsFrom (r.after ms) ms' :=
  r.jobsFrom_append r.init ms ms'

theorem jobs_concat (ms : List μ) (m : μ) :
    r.jobs (ms ++ [m]) = r.jobs ms ++ (r.route (r.after ms) m).2.toList := by
  rw [jobs_append]
  simp [jobsFrom]

end Router

variable [DecidableEq τ]

/-- The jobs of one server. -/
def jobsOf (t : τ) (jobs : List (τ × ρ)) : List ρ := (jobs.filter fun j => j.1 = t).map Prod.snd

theorem jobsOf_append (t : τ) (jobs jobs' : List (τ × ρ)) :
    jobsOf t (jobs ++ jobs') = jobsOf t jobs ++ jobsOf t jobs' := by
  simp [jobsOf]

@[simp] theorem jobsOf_nil (t : τ) : jobsOf t ([] : List (τ × ρ)) = [] := rfl

@[simp] theorem jobsOf_self (t : τ) (job : ρ) : jobsOf t [(t, job)] = [job] := by
  simp [jobsOf]

theorem jobsOf_of_ne {t t' : τ} (h : t' ≠ t) (job : ρ) : jobsOf t [(t', job)] = [] := by
  simp [jobsOf, h]

/-- The router, its mailbox and those of the servers, and what has been handled and served so
far. -/
structure State (σ μ τ ρ : Type*) where
  mailbox : List μ
  state : σ
  inbox : τ → List ρ
  handled : List μ
  served : List (τ × ρ)

/-- All messages that have been sent. -/
def State.sent (s : State σ μ τ ρ) : List μ := s.handled ++ s.mailbox

/-- The steps of the system. -/
inductive Label (μ τ : Type*)
  /-- somebody sends a message -/
  | send (m : μ)
  /-- the router handles the first message -/
  | route
  /-- a server does its first job -/
  | serve (t : τ)

/-- Who can take a step. -/
inductive Party (τ : Type*)
  | router
  | server (t : τ)

/-- Who takes a step. -/
def Label.party : Label μ τ → Option (Party τ)
  | .send _ => none
  | .route => some .router
  | .serve t => some (.server t)

/-- A job goes to the end of its server's mailbox. -/
def deliver (inbox : τ → List ρ) (job : Option (τ × ρ)) : τ → List ρ :=
  match job with
  | none => inbox
  | some (t, job) => Function.update inbox t (inbox t ++ [job])

theorem deliver_apply (inbox : τ → List ρ) (job : Option (τ × ρ)) (t : τ) :
    deliver inbox job t = inbox t ++ jobsOf t job.toList := by
  cases job with
  | none => exact (List.append_nil _).symm
  | some job =>
    obtain ⟨t', job⟩ := job
    by_cases h : t' = t
    · subst h
      simp [deliver]
    · rw [Option.toList_some, jobsOf_of_ne h, List.append_nil]
      exact Function.update_of_ne (Ne.symm h) _ _

/-- One step of the system. -/
def step (s : State σ μ τ ρ) : Label μ τ → Option (State σ μ τ ρ)
  | .send m => some { s with mailbox := s.mailbox ++ [m] }
  | .route =>
    match s.mailbox with
    | [] => none
    | m :: mailbox =>
      let (state, job) := r.route s.state m
      some { s with
        mailbox := mailbox
        state := state
        inbox := deliver s.inbox job
        handled := s.handled ++ [m] }
  | .serve t =>
    match s.inbox t with
    | [] => none
    | job :: inbox => some { s with
        inbox := Function.update s.inbox t inbox
        served := s.served ++ [(t, job)] }

/-- The router with its servers. -/
def system : System (State σ μ τ ρ) (Label μ τ) where
  init := ⟨[], r.init, fun _ => [], [], []⟩
  step := step r

/-! ### What is served -/

/-- The state is that after the handled messages, and every job is done or in an inbox. -/
structure Inv (s : State σ μ τ ρ) : Prop where
  state : s.state = r.after s.handled
  jobs : ∀ t, jobsOf t s.served ++ s.inbox t = jobsOf t (r.jobs s.handled)

variable {r} {s s' : State σ μ τ ρ}

theorem inv_step {l : Label μ τ} (h : Inv r s) (hs : step r s l = some s') : Inv r s' := by
  cases l with
  | send m =>
    obtain rfl := Option.some.inj hs
    exact ⟨h.state, h.jobs⟩
  | route =>
    obtain ⟨mailbox, state, inbox, handled, served⟩ := s
    cases mailbox with
    | nil => cases hs
    | cons m mailbox =>
      obtain rfl := Option.some.inj hs
      have hstate : state = r.after handled := h.state
      subst hstate
      refine ⟨(r.after_concat handled m).symm, fun t => ?_⟩
      show jobsOf t served ++ deliver inbox _ t = jobsOf t (r.jobs (handled ++ [m]))
      rw [deliver_apply, r.jobs_concat, jobsOf_append, ← List.append_assoc]
      exact congrArg (· ++ _) (h.jobs t)
  | serve t =>
    obtain ⟨mailbox, state, inbox, handled, served⟩ := s
    have hjobs : ∀ t, jobsOf t served ++ inbox t = jobsOf t (r.jobs handled) := h.jobs
    cases hinbox : inbox t with
    | nil => simp [step, hinbox] at hs
    | cons job rest =>
      simp only [step, hinbox, Option.some.injEq] at hs
      subst hs
      refine ⟨h.state, fun t' => ?_⟩
      show jobsOf t' (served ++ [(t, job)]) ++ Function.update inbox t rest t' = _
      rw [← hjobs t', jobsOf_append, List.append_assoc]
      refine congrArg (jobsOf t' served ++ ·) ?_
      by_cases ht : t = t'
      · subst ht
        rw [Function.update_self, jobsOf_self, hinbox]
        rfl
      · rw [jobsOf_of_ne ht, Function.update_of_ne (Ne.symm ht)]
        rfl

theorem inv_of_run {ls : List (Label μ τ)} (h : (system r).run (system r).init ls = some s) :
    Inv r s :=
  (System.along_of_inv (T := system r) (fun _ hs => hs) (fun _ _ _ hs hstep => inv_step hs hstep)
    ⟨rfl, fun _ => rfl⟩ ls).last h

/-- What a server has done, and what waits in its mailbox, are the jobs of the messages handled so
far, in their order. -/
theorem served_append_inbox {ls : List (Label μ τ)}
    (h : (system r).run (system r).init ls = some s) (t : τ) :
    jobsOf t s.served ++ s.inbox t = jobsOf t (r.jobs s.handled) :=
  (inv_of_run h).jobs t

/-! ### Progress -/

/-- Nothing that was sent, handled or served is taken back. -/
theorem grows_step {l : Label μ τ} (hs : step r s l = some s') :
    s.sent <+: s'.sent ∧ s.handled <+: s'.handled ∧ s.served <+: s'.served := by
  cases l with
  | send m =>
    obtain rfl := Option.some.inj hs
    refine ⟨?_, List.prefix_rfl, List.prefix_rfl⟩
    show s.handled ++ s.mailbox <+: s.handled ++ (s.mailbox ++ [m])
    rw [← List.append_assoc]
    exact List.prefix_append _ _
  | route =>
    obtain ⟨mailbox, state, inbox, handled, served⟩ := s
    cases mailbox with
    | nil => cases hs
    | cons m mailbox =>
      obtain rfl := Option.some.inj hs
      refine ⟨?_, List.prefix_append _ _, List.prefix_rfl⟩
      show handled ++ m :: mailbox <+: handled ++ [m] ++ mailbox
      rw [List.append_assoc, List.singleton_append]
  | serve t =>
    cases hinbox : s.inbox t with
    | nil => simp [step, hinbox] at hs
    | cons job rest =>
      simp only [step, hinbox, Option.some.injEq] at hs
      subst hs
      exact ⟨List.prefix_rfl, List.prefix_rfl, List.prefix_append _ _⟩

theorem jobsOf_jobs_mono {ms ms' : List μ} (h : ms <+: ms') (t : τ) :
    jobsOf t (r.jobs ms) <+: jobsOf t (r.jobs ms') := by
  obtain ⟨rest, rfl⟩ := h
  rw [r.jobs_append, jobsOf_append]
  exact List.prefix_append _ _

theorem Inv.served_begins (h : Inv r s) (t : τ) :
    jobsOf t s.served <+: jobsOf t (r.jobs s.handled) :=
  ⟨s.inbox t, h.jobs t⟩

/-- Until `n` messages have been handled it is the router's turn, then that of the server. -/
def State.helpful (n : ℕ) (t : τ) (s : State σ μ τ ρ) : Party τ :=
  if s.handled.length < n then .router else .server t

/-- The messages and the jobs that are left. -/
def State.rank (n j : ℕ) (t : τ) (s : State σ μ τ ρ) : ℕ :=
  (n - s.handled.length) + (j - (jobsOf t s.served).length)

theorem rank_step {n j : ℕ} {t : τ} (hnot : (jobsOf t s.served).length < j) {l : Label μ τ}
    (hs : step r s l = some s') :
    s'.rank n j t < s.rank n j t ∨ s'.rank n j t = s.rank n j t ∧
      s'.helpful n t = s.helpful n t ∧ l.party ≠ some (s.helpful n t) := by
  cases l with
  | send m =>
    obtain rfl := Option.some.inj hs
    exact .inr ⟨rfl, rfl, fun hparty => by cases hparty⟩
  | route =>
    obtain ⟨mailbox, state, inbox, handled, served⟩ := s
    cases mailbox with
    | nil => cases hs
    | cons m mailbox =>
      obtain rfl := Option.some.inj hs
      simp only [State.rank, State.helpful, List.length_append, List.length_singleton] at hnot ⊢
      by_cases hlt : handled.length < n
      · left
        omega
      · right
        rw [if_neg hlt, if_neg (by omega)]
        exact ⟨by omega, rfl, fun hparty => by cases hparty⟩
  | serve t' =>
    cases hinbox : s.inbox t' with
    | nil => simp [step, hinbox] at hs
    | cons job rest =>
      simp only [step, hinbox, Option.some.injEq] at hs
      subst hs
      simp only [State.rank, State.helpful, jobsOf_append, List.length_append]
      by_cases ht : t' = t
      · left
        rw [ht, jobsOf_self, List.length_singleton]
        omega
      · right
        rw [jobsOf_of_ne ht]
        refine ⟨rfl, trivial, fun hparty => ?_⟩
        by_cases hlt : s.handled.length < n
        · rw [if_pos hlt] at hparty
          cases hparty
        · rw [if_neg hlt] at hparty
          exact ht (Party.server.inj (Option.some.inj hparty))

theorem exists_route (h : s.mailbox ≠ []) : ∃ s', step r s .route = some s' := by
  obtain ⟨m, mailbox, hmailbox⟩ := List.exists_cons_of_ne_nil h
  unfold step
  rw [hmailbox]
  exact ⟨_, rfl⟩

theorem exists_serve {t : τ} (h : s.inbox t ≠ []) : ∃ s', step r s (.serve t) = some s' := by
  obtain ⟨job, inbox, hinbox⟩ := List.exists_cons_of_ne_nil h
  unfold step
  simp only [hinbox]
  exact ⟨_, rfl⟩

/-- With all mailboxes empty nobody moves but the senders. -/
theorem quiet (hmailbox : s.mailbox = []) (hinbox : ∀ t, s.inbox t = []) (p : Party τ) :
    ¬ (system r).Enabled Label.party p s := by
  rintro ⟨l, s', hparty, hs⟩
  have hs' : step r s l = some s' := hs
  cases l with
  | send m => cases hparty
  | route => simp [step, hmailbox] at hs'
  | serve t => simp [step, hinbox t] at hs'

/-- In a fair run every job of every message that has been sent is done. -/
theorem eventually_served (ρ : (system r).Endless) (hfair : ρ.Fair Label.party) (k : ℕ) (t : τ) :
    ∃ m ≥ k, jobsOf t (r.jobs (ρ.state k).sent) <+: jobsOf t (ρ.state m).served := by
  have hinv : ∀ m, Inv r (ρ.state m) := by
    intro m
    obtain ⟨ls, hls⟩ := ρ.reachable m
    exact inv_of_run hls
  have hsent : ∀ m ≥ k, (ρ.state k).sent <+: (ρ.state m).sent := by
    intro m hm
    induction m, hm using Nat.le_induction with
    | base => exact List.prefix_rfl
    | succ m hm ih =>
      refine ih.trans ?_
      cases hl : ρ.label m with
      | none => rw [ρ.next_of_none hl]
      | some l => exact (grows_step (ρ.next_of_some hl)).1
  set sent := (ρ.state k).sent
  have henabled : ∀ s, Inv r s ∧ sent <+: s.sent →
      ¬ (jobsOf t (r.jobs sent)).length ≤ (jobsOf t s.served).length →
      (system r).Enabled Label.party (s.helpful sent.length t) s := by
    rintro s ⟨h, hprior⟩ hnot
    by_cases hlt : s.handled.length < sent.length
    · rw [State.helpful, if_pos hlt]
      obtain ⟨s', hs'⟩ := exists_route (r := r) (s := s) fun hmailbox => by
        have hle := hprior.length_le
        rw [State.sent, hmailbox, List.append_nil] at hle
        omega
      exact ⟨.route, s', rfl, hs'⟩
    · rw [State.helpful, if_neg hlt]
      have hhandled : sent <+: s.handled := List.prefix_of_prefix_length_le hprior
        (List.prefix_append _ _) (Nat.not_lt.1 hlt)
      obtain ⟨s', hs'⟩ := exists_serve (r := r) (s := s) (t := t) fun hinbox => by
        have hlength := (jobsOf_jobs_mono hhandled t (r := r)).length_le
        rw [← h.jobs t, hinbox, List.append_nil] at hlength
        exact hnot hlength
      exact ⟨.serve t, s', rfl, hs'⟩
  obtain ⟨m, hm, hdone⟩ := ρ.eventually_of_rank
    (I := fun s => Inv r s ∧ sent <+: s.sent)
    (G := fun s => (jobsOf t (r.jobs sent)).length ≤ (jobsOf t s.served).length)
    (State.rank sent.length (jobsOf t (r.jobs sent)).length t) (State.helpful sent.length t) hfair
    (fun m hm => ⟨hinv m, hsent m hm⟩) henabled
    fun s l s' _ hnot hs _ => rank_step (Nat.lt_of_not_le hnot) hs
  refine ⟨m, hm, List.prefix_of_prefix_length_le (jobsOf_jobs_mono (hsent m hm) t) ?_ hdone⟩
  exact ((hinv m).served_begins t).trans (jobsOf_jobs_mono (List.prefix_append _ _) t)

end Routing
