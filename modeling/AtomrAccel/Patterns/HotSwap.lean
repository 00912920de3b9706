import AtomrAccel.Lib.Router

/-!
# `ModelHotSwapServer`: replacing a model while it is in use

The server hands every request to its current backend, and a message replaces that backend.  The
backends answer later and in mailboxes of their own, so requests that the old one has are not moved
to the new one.

* `HotSwapMsg`, `handle`, `router`: the server as a router;
* `backendAfter`, `statsAfter`: the backend and the counters after some messages, read off the
  messages;
* `predictions`, `statReplies`: the backend of each request, and the replies to the other messages;
* `after_eq`, `jobs_eq`: so the server does;
* `answered_by_current`, `eventually_answered_by_current`: whatever the order in which the parties
  proceed, each request is answered once and by the backend that was current at its turn.
-/

namespace AtomrAccel

namespace HotSwap

open Routing Transition

variable {B Req : Type}

/-- The messages of the server. -/
inductive HotSwapMsg (B Req : Type)
  | predict (req : Req)
  | swapIn (newBackend : B)
  | stats
  deriving DecidableEq, Repr

/-- What `Stats` answers. -/
structure HotSwapStats where
  generation : UInt64
  predicted : UInt64
  swaps : UInt64
  deriving DecidableEq, Repr

/-- `replies` is not a field of the source: it holds the replies to `SwapIn` and `Stats`. -/
structure ModelHotSwapServer (B : Type) where
  current : B
  generation : UInt64
  predicted : UInt64
  swaps : UInt64
  replies : List HotSwapStats

namespace ModelHotSwapServer

/-- Generation `0`, on the first backend. -/
def props (initial : B) : ModelHotSwapServer B := ⟨initial, 0, 0, 0, []⟩

/-- The counters. -/
def stats (server : ModelHotSwapServer B) : HotSwapStats :=
  ⟨server.generation, server.predicted, server.swaps⟩

/-- The counters are answered. -/
def reply (server : ModelHotSwapServer B) : ModelHotSwapServer B :=
  { server with replies := server.replies ++ [server.stats] }

/-- A request goes to the current backend. -/
def handle (server : ModelHotSwapServer B) :
    HotSwapMsg B Req → ModelHotSwapServer B × Option (B × Req)
  | .predict req =>
    ({ server with predicted := server.predicted + 1 }, some (server.current, req))
  | .swapIn newBackend =>
    (reply { server with
      current := newBackend
      generation := server.generation + 1
      swaps := server.swaps + 1 }, none)
  | .stats => (server.reply, none)

end ModelHotSwapServer

/-- The server as a router of requests to backends. -/
def router (initial : B) : Router (ModelHotSwapServer B) (HotSwapMsg B Req) B Req :=
  ⟨.props initial, ModelHotSwapServer.handle⟩

/-! ### What the messages say -/

namespace HotSwapMsg

/-- The request in a message. -/
def request? : HotSwapMsg B Req → Option Req
  | predict req => some req
  | swapIn _ | stats => none

/-- The backend in a message. -/
def backend? : HotSwapMsg B Req → Option B
  | swapIn newBackend => some newBackend
  | predict _ | stats => none

end HotSwapMsg

/-- The backend that was swapped in last. -/
def backendAfter (initial : B) (ms : List (HotSwapMsg B Req)) : B :=
  (ms.filterMap HotSwapMsg.backend?).getLast?.getD initial

/-- The swaps and the requests, counted. -/
def statsAfter (ms : List (HotSwapMsg B Req)) : HotSwapStats :=
  ⟨.ofNat (ms.filterMap HotSwapMsg.backend?).length,
    .ofNat (ms.filterMap HotSwapMsg.request?).length,
    .ofNat (ms.filterMap HotSwapMsg.backend?).length⟩

/-- The requests, each with the backend that was swapped in last before it. -/
def predictions (initial : B) (ms : List (HotSwapMsg B Req)) : List (B × Req) :=
  (List.range ms.length).filterMap fun i =>
    (ms[i]?.bind HotSwapMsg.request?).map fun req => (backendAfter initial (ms.take i), req)

/-- The counters after each message that is no request. -/
def statReplies (ms : List (HotSwapMsg B Req)) : List HotSwapStats :=
  (List.range ms.length).filterMap fun i =>
    if (ms[i]?.bind HotSwapMsg.request?).isSome then none else some (statsAfter (ms.take (i + 1)))

theorem filterMap_range_concat {α : Type} (f : List (HotSwapMsg B Req) → ℕ → Option α)
    (hf : ∀ ms m i, i < ms.length → f (ms ++ [m]) i = f ms i) (ms : List (HotSwapMsg B Req))
    (m : HotSwapMsg B Req) :
    (List.range (ms ++ [m]).length).filterMap (f (ms ++ [m])) =
      (List.range ms.length).filterMap (f ms) ++ (f (ms ++ [m]) ms.length).toList := by
  rw [List.length_append, List.length_singleton, List.range_succ, List.filterMap_append]
  congr 1
  exact List.filterMap_congr fun i hi => hf ms m i (List.mem_range.1 hi)

theorem predictions_concat (initial : B) (ms : List (HotSwapMsg B Req)) (m : HotSwapMsg B Req) :
    predictions initial (ms ++ [m]) = predictions initial ms ++
      (m.request?.map fun req => (backendAfter initial ms, req)).toList := by
  refine (filterMap_range_concat (fun ms i => (ms[i]?.bind HotSwapMsg.request?).map fun req =>
    (backendAfter initial (ms.take i), req)) (fun ms m i hi => ?_) ms m).trans ?_
  · simp only [List.getElem?_append_left hi, List.take_append_of_le_length hi.le]
  · rw [List.getElem?_concat_length, List.take_left]
    rfl

theorem statReplies_concat (ms : List (HotSwapMsg B Req)) (m : HotSwapMsg B Req) :
    statReplies (ms ++ [m]) = statReplies ms ++
      if m.request?.isSome then [] else [statsAfter (ms ++ [m])] := by
  refine (filterMap_range_concat (fun ms i => if (ms[i]?.bind HotSwapMsg.request?).isSome then none
    else some (statsAfter (ms.take (i + 1)))) (fun ms m i hi => ?_) ms m).trans ?_
  · simp only [List.getElem?_append_left hi, List.take_append_of_le_length (Nat.succ_le_of_lt hi)]
  · have htake : (ms ++ [m]).take (ms.length + 1) = ms ++ [m] :=
      List.take_of_length_le (by rw [List.length_append, List.length_singleton])
    rw [List.getElem?_concat_length, htake]
    cases m <;> rfl

/-! ### What the server does -/

/-- The server after some messages. -/
theorem after_eq (initial : B) (ms : List (HotSwapMsg B Req)) :
    (router initial).after ms = ⟨backendAfter initial ms, (statsAfter ms).generation,
      (statsAfter ms).predicted, (statsAfter ms).swaps, statReplies ms⟩ := by
  induction ms using List.reverseRecOn with
  | nil => rfl
  | append_singleton ms m ih =>
    rw [Router.after_concat, ih, statReplies_concat]
    cases m with
    | predict req =>
      simp [router, ModelHotSwapServer.handle, backendAfter, statsAfter, HotSwapMsg.backend?,
        HotSwapMsg.request?, List.filterMap_cons]
    | swapIn newBackend =>
      simp [router, ModelHotSwapServer.handle, ModelHotSwapServer.reply, ModelHotSwapServer.stats,
        backendAfter, statsAfter, HotSwapMsg.backend?, HotSwapMsg.request?, List.filterMap_cons]
    | stats =>
      simp [router, ModelHotSwapServer.handle, ModelHotSwapServer.reply, ModelHotSwapServer.stats,
        backendAfter, statsAfter, HotSwapMsg.backend?, HotSwapMsg.request?, List.filterMap_cons]

/-- Each request goes to the backend that was swapped in last before it. -/
theorem jobs_eq (initial : B) (ms : List (HotSwapMsg B Req)) :
    (router initial).jobs ms = predictions initial ms := by
  induction ms using List.reverseRecOn with
  | nil => rfl
  | append_singleton ms m ih =>
    rw [Router.jobs_concat, ih, predictions_concat, after_eq]
    cases m <;> rfl

/-! ### Whole runs -/

section Runs

variable [DecidableEq B] {initial : B}

/-- In whatever order senders, server and backends proceed: what a backend has answered, and what
waits in its mailbox, are the requests handled while it was the one swapped in last; and each other
message is answered with the counters of the messages up to it. -/
theorem answered_by_current {ls : List (Routing.Label (HotSwapMsg B Req) B)}
    {s : State (ModelHotSwapServer B) (HotSwapMsg B Req) B Req}
    (h : (system (router initial)).run (system (router initial)).init ls = some s) :
    (∀ b, jobsOf b s.served ++ s.inbox b = jobsOf b (predictions initial s.handled)) ∧
      s.state.replies = statReplies s.handled := by
  refine ⟨fun b => ?_, ?_⟩
  · rw [served_append_inbox h b, jobs_eq]
  · rw [(inv_of_run h).state, after_eq]

/-- Backends named by truth values, `false` first, and requests by numbers. -/
def swapping : Router (ModelHotSwapServer Bool) (HotSwapMsg Bool ℕ) Bool ℕ := router false

/-- The old backend answers after the new one has been swapped in. -/
def swapped : List (Routing.Label (HotSwapMsg Bool ℕ) Bool) :=
  [.send (.predict 5), .send (.swapIn true), .send (.predict 6), .route, .route, .route,
    .serve true, .serve false]

theorem exists_swapped : ∃ s, (system swapping).run (system swapping).init swapped = some s ∧
    s.handled = [.predict 5, .swapIn true, .predict 6] ∧ s.mailbox = [] ∧ ∀ b, s.inbox b = [] := by
  have hrun : ((system swapping).run (system swapping).init swapped).any (fun s =>
      s.handled = [.predict 5, .swapIn true, .predict 6] ∧ s.mailbox = [] ∧
        ∀ b, s.inbox b = []) = true := by decide +kernel
  obtain ⟨s, hs, hend⟩ := (Option.any_eq_true _ _).1 hrun
  exact ⟨s, hs, of_decide_eq_true hend⟩

theorem answered_by_current_swap :
    ∃ s, (system swapping).run (system swapping).init swapped = some s ∧
      jobsOf false s.served ++ s.inbox false = [5] ∧ s.state.replies = [⟨1, 1, 1⟩] := by
  obtain ⟨s, hs, hhandled, -⟩ := exists_swapped
  obtain ⟨hanswered, hreplies⟩ := answered_by_current hs
  rw [hhandled] at hanswered hreplies
  exact ⟨s, hs, hanswered false, hreplies⟩

/-- In a fair run every request that has been sent is answered by its backend. -/
theorem eventually_answered_by_current
    (ρ : (system (router initial : Router _ (HotSwapMsg B Req) _ _)).Endless)
    (hfair : ρ.Fair Routing.Label.party) (k : ℕ) (b : B) :
    ∃ m ≥ k, jobsOf b (predictions initial (ρ.state k).sent) <+: jobsOf b (ρ.state m).served := by
  obtain ⟨m, hm, hserved⟩ := eventually_served ρ hfair k b
  rw [jobs_eq] at hserved
  exact ⟨m, hm, hserved⟩

theorem eventually_answered_by_current_swap :
    ∃ ρ : (system swapping).Endless, ρ.Fair Routing.Label.party ∧
      ∃ m, [5] <+: jobsOf false (ρ.state m).served := by
  obtain ⟨s, hs, -, hmailbox, hinbox⟩ := exists_swapped
  have hfair := System.fair_halting hs (quiet hmailbox hinbox)
  obtain ⟨m, -, hserved⟩ := eventually_answered_by_current _ hfair 3 false
  exact ⟨_, hfair, m, hserved⟩

end Runs

end HotSwap

end AtomrAccel
