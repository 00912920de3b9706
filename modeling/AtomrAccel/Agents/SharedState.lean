import AtomrAccel.Lib.Transition

/-!
# `SharedGpuStateCoordinator`

Agents that share one buffer ask the coordinator for a write token before they change it.  One token
is out at a time, and requests that come while it is out wait in a queue; a release with any other
token is ignored.  The token is sent on the one-shot channel of the request, and the result of the
send is not looked at: a request whose receiver has been dropped still takes its turn, and as nobody
has its token, nobody can release it.

* `SharedGpuStateCoordinator`, `issueToken`, `handle`: the actor and its messages;
* `Event`, `History`, `step`: messages in any order, and receivers dropped at any time;
* `Exclusive`, `History.exclusive`: what holds in every state;
* `Delivered`, `GrantsLive`, `held_delivered_iff`: the token that is out was delivered exactly
  when no request was granted after its receiver was dropped.
-/

namespace AtomrAccel

namespace SharedState

/-- The token of a writer. -/
structure WriteToken where
  val : UInt64
  deriving DecidableEq, Repr

/-- What `Stats` answers. -/
structure SharedStateStats where
  currentHolder : Option UInt32
  waiting : ℕ
  tokensIssued : UInt64
  deriving DecidableEq, Repr

/-- The one-shot channel of a request. -/
abbrev Channel := ℕ

variable {ManagedRef : Type}

/-- The messages, over references to managed memory. -/
inductive SharedStateMsg (ManagedRef : Type)
  | acquireWrite (agentId : UInt32) (reply : Channel)
  | releaseWrite (token : WriteToken)
  | snapshot
  | attachState (state : ManagedRef)
  | stats

/-- What is sent on a reply channel. -/
inductive Reply (ManagedRef : Type)
  | token (reply : Channel) (token : WriteToken)
  | snapshot (state : Option ManagedRef)
  | attached
  | stats (stats : SharedStateStats)

/-- The actor: the number of tokens issued, who waits and who holds the state. -/
structure SharedGpuStateCoordinator (ManagedRef : Type) where
  counter : UInt64
  waiters : List (UInt32 × Channel)
  held : Option (UInt32 × WriteToken)
  state : Option ManagedRef

namespace SharedGpuStateCoordinator

/-- A coordinator without a holder. -/
def props : SharedGpuStateCoordinator ManagedRef := ⟨0, [], none, none⟩

/-- The token is sent whether or not anybody still listens. -/
def issueToken (c : SharedGpuStateCoordinator ManagedRef) (agentId : UInt32) (reply : Channel) :
    SharedGpuStateCoordinator ManagedRef × Option (Reply ManagedRef) :=
  let counter := c.counter + 1
  ({ c with counter := counter, held := some (agentId, ⟨counter⟩) }, some (.token reply ⟨counter⟩))

/-- The replies are sent on the channels given. -/
def handle (c : SharedGpuStateCoordinator ManagedRef) :
    SharedStateMsg ManagedRef →
      SharedGpuStateCoordinator ManagedRef × Option (Reply ManagedRef)
  | .acquireWrite agentId reply =>
    match c.held with
    | none => c.issueToken agentId reply
    | some _ => ({ c with waiters := c.waiters ++ [(agentId, reply)] }, none)
  | .releaseWrite token =>
    match c.held with
    | some (_, t) =>
      if t = token then
        match c.waiters with
        | (nextId, nextReply) :: waiters =>
          { c with held := none, waiters := waiters }.issueToken nextId nextReply
        | [] => ({ c with held := none }, none)
      else (c, none)
    | none => (c, none)
  | .snapshot => (c, some (.snapshot c.state))
  | .attachState state => ({ c with state := some state }, some .attached)
  | .stats => (c, some (.stats ⟨c.held.map Prod.fst, c.waiters.length, c.counter⟩))

end SharedGpuStateCoordinator

/-! ### Histories -/

/-- A message is handled, or the receiver of a request is dropped.  The channel of a request is the
number of requests before it. -/
inductive Event (ManagedRef : Type)
  | acquireWrite (agentId : UInt32)
  | releaseWrite (token : WriteToken)
  | snapshot
  | attachState (state : ManagedRef)
  | stats
  | dropReceiver (reply : Channel)

/-- A token that was issued: to whom, whether the receiver was still there when it was sent, and
whether it has been given back since. -/
structure Grant where
  agentId : UInt32
  reply : Channel
  token : WriteToken
  delivered : Bool
  returned : Bool

/-- A `ReleaseWrite` gives the token back. -/
def Grant.release (token : WriteToken) (g : Grant) : Grant :=
  { g with returned := g.returned || decide (g.token = token) }

/-- The coordinator with its history: the requests in order, the grants in order, and the receivers
that are gone. -/
structure History (ManagedRef : Type) where
  coordinator : SharedGpuStateCoordinator ManagedRef
  asked : List (UInt32 × Channel)
  issued : List Grant
  dropped : Finset Channel

/-- The grant that a handled message amounts to, if it sent a token. -/
def grants (dropped : Finset Channel) :
    SharedGpuStateCoordinator ManagedRef × Option (Reply ManagedRef) → List Grant
  | (c, some (.token reply token)) =>
    c.held.toList.map fun holder =>
      ⟨holder.1, reply, token, decide (reply ∉ dropped), false⟩
  | _ => []

namespace History

/-- Nothing has been asked for. -/
def init : History ManagedRef := ⟨.props, [], [], ∅⟩

/-- One message. -/
def step (s : History ManagedRef) : Event ManagedRef → Option (History ManagedRef)
  | .acquireWrite agentId =>
    let reply := s.asked.length
    let r := s.coordinator.handle (.acquireWrite agentId reply)
    some { s with
      coordinator := r.1
      asked := s.asked ++ [(agentId, reply)]
      issued := s.issued ++ grants s.dropped r }
  | .releaseWrite token =>
    let r := s.coordinator.handle (.releaseWrite token)
    some { s with
      coordinator := r.1
      issued := s.issued.map (Grant.release token) ++ grants s.dropped r }
  | .snapshot => some { s with coordinator := (s.coordinator.handle .snapshot).1 }
  | .attachState state =>
    some { s with coordinator := (s.coordinator.handle (.attachState state)).1 }
  | .stats => some { s with coordinator := (s.coordinator.handle .stats).1 }
  | .dropReceiver reply => some { s with dropped := insert reply s.dropped }

/-- The actor with its messages. -/
def system (ManagedRef : Type) : Transition.System (History ManagedRef) (Event ManagedRef) where
  init := init
  step := step

/-- A token goes to `agentId` on the channel `reply`; `issued` are the grants before. -/
def grantTo (s : History ManagedRef) (issued : List Grant) (agentId : UInt32) (reply : Channel)
    (waiters : List (UInt32 × Channel)) (asked : List (UInt32 × Channel)) : History ManagedRef where
  coordinator := { s.coordinator with
    counter := s.coordinator.counter + 1
    waiters := waiters
    held := some (agentId, ⟨s.coordinator.counter + 1⟩) }
  asked := asked
  issued := issued ++
    [⟨agentId, reply, ⟨s.coordinator.counter + 1⟩, decide (reply ∉ s.dropped), false⟩]
  dropped := s.dropped

/-- The events by what they do: a request is granted or queued, the token is handed over or taken
back, a release is ignored, and the rest does not touch the protocol. -/
inductive Moves (s : History ManagedRef) : Event ManagedRef → History ManagedRef → Prop
  | grant {agentId : UInt32} (hfree : s.coordinator.held = none) :
      Moves s (.acquireWrite agentId) (s.grantTo s.issued agentId s.asked.length
        s.coordinator.waiters (s.asked ++ [(agentId, s.asked.length)]))
  | queue {agentId : UInt32} {holder : UInt32 × WriteToken}
      (hheld : s.coordinator.held = some holder) :
      Moves s (.acquireWrite agentId) { s with
        coordinator := { s.coordinator with
          waiters := s.coordinator.waiters ++ [(agentId, s.asked.length)] }
        asked := s.asked ++ [(agentId, s.asked.length)] }
  | handover {agentId nextId : UInt32} {token : WriteToken} {nextReply : Channel}
      {waiters : List (UInt32 × Channel)} (hheld : s.coordinator.held = some (agentId, token))
      (hwaiters : s.coordinator.waiters = (nextId, nextReply) :: waiters) :
      Moves s (.releaseWrite token)
        (s.grantTo (s.issued.map (Grant.release token)) nextId nextReply waiters s.asked)
  | free {agentId : UInt32} {token : WriteToken}
      (hheld : s.coordinator.held = some (agentId, token))
      (hwaiters : s.coordinator.waiters = []) :
      Moves s (.releaseWrite token) { s with
        coordinator := { s.coordinator with held := none }
        issued := s.issued.map (Grant.release token) }
  | ignored {token : WriteToken} (hheld : ∀ agentId, s.coordinator.held ≠ some (agentId, token)) :
      Moves s (.releaseWrite token) { s with issued := s.issued.map (Grant.release token) }
  | other {l : Event ManagedRef} (state : Option ManagedRef) (dropped : Finset Channel)
      (hacquire : ∀ agentId, l ≠ .acquireWrite agentId)
      (hrelease : ∀ token, l ≠ .releaseWrite token) :
      Moves s l { s with coordinator := { s.coordinator with state := state }, dropped := dropped }

variable {s s' : History ManagedRef} {l : Event ManagedRef}

theorem moves_of_step (hs : s.step l = some s') : s.Moves l s' := by
  cases l with
  | acquireWrite agentId =>
    simp only [step, SharedGpuStateCoordinator.handle, Option.some.injEq] at hs
    subst hs
    cases hheld : s.coordinator.held with
    | none => exact .grant hheld
    | some holder => simpa [grants, hheld] using Moves.queue (s := s) hheld
  | releaseWrite token =>
    simp only [step, SharedGpuStateCoordinator.handle, Option.some.injEq] at hs
    subst hs
    cases hheld : s.coordinator.held with
    | none =>
      have hother : ∀ agentId, s.coordinator.held ≠ some (agentId, token) := by
        rw [hheld]
        exact fun _ h => nomatch h
      simpa [grants] using Moves.ignored hother
    | some holder =>
      obtain ⟨agentId, t⟩ := holder
      dsimp only
      by_cases ht : t = token
      · subst ht
        rw [if_pos rfl]
        cases hwaiters : s.coordinator.waiters with
        | nil => simpa [grants, hwaiters] using Moves.free hheld hwaiters
        | cons next waiters => exact .handover hheld hwaiters
      · rw [if_neg ht]
        have hother : ∀ agentId, s.coordinator.held ≠ some (agentId, token) := by
          rw [hheld]
          intro agentId' h
          cases h
          exact ht rfl
        simpa [grants] using Moves.ignored hother
  | snapshot | stats =>
    cases hs
    exact .other s.coordinator.state s.dropped nofun nofun
  | attachState state =>
    cases hs
    exact .other (some state) s.dropped nofun nofun
  | dropReceiver reply =>
    cases hs
    exact .other s.coordinator.state (insert reply s.dropped) nofun nofun

/-! ### Mutual exclusion -/

/-- The tokens are numbered from one in the order of issue, the only token that has not been given
back is the one that is out, grants follow the order of the requests, and nobody waits for a token
that is free. -/
structure Exclusive (s : History ManagedRef) : Prop where
  tokens : s.issued.map (·.token) = (List.range s.issued.length).map fun n => ⟨UInt64.ofNat (n + 1)⟩
  unreturned : (s.issued.filter (!·.returned)).map (fun g => (g.agentId, g.token)) =
    s.coordinator.held.toList
  fifo : s.issued.map (fun g => (g.agentId, g.reply)) ++ s.coordinator.waiters = s.asked
  idle : s.coordinator.held = none → s.coordinator.waiters = []

/-- The invariant: the counter is the number of tokens issued. -/
structure Inv (s : History ManagedRef) : Prop extends Exclusive s where
  counter : s.coordinator.counter = UInt64.ofNat s.issued.length

theorem inv_init : Inv (init : History ManagedRef) := ⟨⟨rfl, rfl, rfl, fun _ => rfl⟩, rfl⟩

/-- Giving a token back changes neither tokens nor receivers. -/
theorem map_release_token (token : WriteToken) (issued : List Grant) :
    (issued.map (Grant.release token)).map (·.token) = issued.map (·.token) := by
  rw [List.map_map]
  rfl

theorem map_release_reply (token : WriteToken) (issued : List Grant) :
    (issued.map (Grant.release token)).map (fun g => (g.agentId, g.reply)) =
      issued.map fun g => (g.agentId, g.reply) := by
  rw [List.map_map]
  rfl

/-- What is out after a release: the grants of other tokens that were out before. -/
theorem filter_release (token : WriteToken) (issued : List Grant) :
    ((issued.map (Grant.release token)).filter (!·.returned)).map (fun g => (g.agentId, g.token)) =
      ((issued.filter (!·.returned)).map fun g => (g.agentId, g.token)).filter
        (fun holder => holder.2 ≠ token) := by
  induction issued with
  | nil => rfl
  | cons g issued ih =>
    cases hreturned : g.returned <;> by_cases htoken : g.token = token <;>
      simp_all [Grant.release]

/-- Releasing a token that is not out changes no grant. -/
theorem map_release_of_ne {token : WriteToken} {issued : List Grant}
    (h : ∀ g ∈ issued, g.returned = false → g.token ≠ token) :
    issued.map (Grant.release token) = issued := by
  conv_rhs => rw [← List.map_id issued]
  apply List.map_congr_left
  intro g hg
  have hsame : (g.returned || decide (g.token = token)) = g.returned := by
    cases hreturned : g.returned with
    | true => rfl
    | false => simpa using h g hg hreturned
  rw [Grant.release, hsame]
  rfl

/-- One more token, numbered after the others. -/
theorem tokens_append {issued : List Grant} {counter : UInt64} {g : Grant}
    (htokens : issued.map (·.token) =
      (List.range issued.length).map fun n => ⟨UInt64.ofNat (n + 1)⟩)
    (hcounter : counter = UInt64.ofNat issued.length) (hg : g.token = ⟨counter + 1⟩) :
    (issued ++ [g]).map (·.token) =
      (List.range (issued ++ [g]).length).map fun n => ⟨UInt64.ofNat (n + 1)⟩ := by
  have hnext : counter + 1 = UInt64.ofNat (issued.length + 1) := by
    rw [hcounter, UInt64.ofNat_add]
    rfl
  rw [List.length_append, List.length_singleton, List.range_succ, List.map_append, List.map_append,
    htokens]
  simp [hg, hnext]

/-- A token goes out when none is. -/
theorem inv_grantTo {issued : List Grant} {agentId : UInt32} {reply : Channel}
    {waiters asked : List (UInt32 × Channel)}
    (htokens : issued.map (·.token) =
      (List.range issued.length).map fun n => ⟨UInt64.ofNat (n + 1)⟩)
    (hnone : (issued.filter (!·.returned)).map (fun g => (g.agentId, g.token)) = [])
    (hfifo : issued.map (fun g => (g.agentId, g.reply)) ++ (agentId, reply) :: waiters = asked)
    (hcounter : s.coordinator.counter = UInt64.ofNat issued.length) :
    (s.grantTo issued agentId reply waiters asked).Inv where
  tokens := tokens_append htokens hcounter rfl
  unreturned := by
    rw [grantTo, List.filter_append, List.map_append, hnone]
    rfl
  fifo := by
    rw [grantTo, List.map_append, List.append_assoc]
    exact hfifo
  idle h := nomatch h
  counter := by
    rw [grantTo, List.length_append, List.length_singleton, UInt64.ofNat_add, hcounter]
    rfl

/-- A release of a token that is not out leaves everything as it is. -/
theorem Exclusive.ignored_eq (h : s.Exclusive) {token : WriteToken}
    (hheld : ∀ agentId, s.coordinator.held ≠ some (agentId, token)) :
    s.issued.map (Grant.release token) = s.issued := by
  apply map_release_of_ne
  rintro g hg hreturned rfl
  have hout : (g.agentId, g.token) ∈ s.coordinator.held.toList := by
    rw [← h.unreturned]
    exact List.mem_map_of_mem (List.mem_filter.2 ⟨hg, by simp [hreturned]⟩)
  exact hheld g.agentId (Option.mem_toList.1 hout)

/-- Giving back the token that is out leaves none. -/
theorem Exclusive.unreturned_release (h : s.Exclusive) {agentId : UInt32} {token : WriteToken}
    (hheld : s.coordinator.held = some (agentId, token)) :
    ((s.issued.map (Grant.release token)).filter (!·.returned)).map
      (fun g => (g.agentId, g.token)) = [] := by
  rw [filter_release, h.unreturned, hheld]
  simp

theorem Inv.step (h : s.Inv) (hs : s.step l = some s') : s'.Inv := by
  cases moves_of_step hs with
  | @grant agentId hfree =>
    have hidle := h.idle hfree
    refine inv_grantTo h.tokens ?_ ?_ h.counter
    · rw [h.unreturned, hfree]
      rfl
    · have hfifo := h.fifo
      rw [hidle, List.append_nil] at hfifo
      rw [hidle, hfifo]
  | @queue agentId holder hheld =>
    refine ⟨⟨h.tokens, h.unreturned, ?_, ?_⟩, h.counter⟩
    · rw [← List.append_assoc, h.fifo]
    · intro hfree
      cases hheld.symm.trans hfree
  | @handover agentId nextId token nextReply waiters hheld hwaiters =>
    refine inv_grantTo ?_ (h.unreturned_release hheld) ?_ ?_
    · rw [map_release_token, List.length_map]
      exact h.tokens
    · rw [map_release_reply, ← hwaiters]
      exact h.fifo
    · rw [List.length_map]
      exact h.counter
  | @free agentId token hheld hwaiters =>
    refine ⟨⟨?_, h.unreturned_release hheld, ?_, fun _ => hwaiters⟩, ?_⟩
    · rw [map_release_token, List.length_map]
      exact h.tokens
    · rw [map_release_reply]
      exact h.fifo
    · rw [List.length_map]
      exact h.counter
  | ignored hheld =>
    rw [h.ignored_eq hheld]
    exact h
  | other state dropped hacquire hrelease =>
    exact ⟨⟨h.tokens, h.unreturned, h.fifo, h.idle⟩, h.counter⟩

/-- In every state of every run the protocol is exclusive and first come first served, and a
release whose token is not the one that is out changes nothing. -/
theorem exclusive (ls : List (Event ManagedRef)) :
    (system ManagedRef).Along (fun s => s.Exclusive ∧ ∀ token,
      (∀ agentId, s.coordinator.held ≠ some (agentId, token)) →
        s.step (.releaseWrite token) = some s) (system ManagedRef).init ls := by
  refine Transition.System.along_of_inv (I := Inv) ?_ (fun _ _ _ h hs => h.step hs) inv_init ls
  intro s h
  refine ⟨h.toExclusive, ?_⟩
  intro token hheld
  obtain ⟨s', hs'⟩ : ∃ s', s.step (.releaseWrite token) = some s' := ⟨_, rfl⟩
  rw [hs']
  cases moves_of_step hs' with
  | handover hout => exact absurd hout (hheld _)
  | free hout => exact absurd hout (hheld _)
  | ignored => rw [h.ignored_eq hheld]
  | other state dropped hacquire hrelease => exact absurd rfl (hrelease token)

/-! ### Tokens nobody has -/

/-- The token that is out was sent while its receiver was there. -/
def Delivered (s : History ManagedRef) : Prop :=
  ∀ agentId token, s.coordinator.held = some (agentId, token) →
    ∃ g ∈ s.issued, g.returned = false ∧ g.agentId = agentId ∧ g.token = token ∧ g.delivered = true

/-- If the event grants a request, the receiver of the request is still there. -/
def GrantsLive (s : History ManagedRef) : Event ManagedRef → Prop
  | .acquireWrite _ => s.coordinator.held = none → s.asked.length ∉ s.dropped
  | .releaseWrite token => s.coordinator.held.map Prod.snd = some token →
    ∀ next ∈ s.coordinator.waiters.head?, next.2 ∉ s.dropped
  | .snapshot | .attachState _ | .stats | .dropReceiver _ => True

/-- Among the grants after one more, the new one is the only one that is out. -/
theorem delivered_grantTo {issued : List Grant} {agentId : UInt32} {reply : Channel}
    {waiters asked : List (UInt32 × Channel)}
    (hnone : (issued.filter (!·.returned)).map (fun g => (g.agentId, g.token)) = []) :
    (s.grantTo issued agentId reply waiters asked).Delivered ↔ reply ∉ s.dropped := by
  have hreturned : ∀ g ∈ issued, g.returned ≠ false := by
    simpa [List.filter_eq_nil_iff] using hnone
  constructor
  · intro h
    obtain ⟨g, hg, hout, -, -, hdelivered⟩ := h agentId _ rfl
    rcases List.mem_append.1 hg with hold | hnew
    · exact absurd hout (hreturned g hold)
    · obtain rfl := List.mem_singleton.1 hnew
      exact of_decide_eq_true hdelivered
  · intro hlive agentId' token' hheld
    cases hheld
    exact ⟨_, List.mem_append_right _ (List.mem_singleton_self _), rfl, rfl, rfl,
      decide_eq_true hlive⟩

/-- An event that grants nothing leaves the token that is out where it is. -/
theorem Delivered.step (h : s.Delivered) (hinv : s.Inv) (hl : s.GrantsLive l)
    (hs : s.step l = some s') : s'.Delivered := by
  cases moves_of_step hs with
  | grant hfree =>
    refine (delivered_grantTo ?_).2 (hl hfree)
    rw [hinv.unreturned, hfree]
    rfl
  | queue hheld => exact h
  | @handover agentId nextId token nextReply waiters hheld hwaiters =>
    refine (delivered_grantTo (hinv.unreturned_release hheld)).2 (hl ?_ (nextId, nextReply) ?_)
    · rw [hheld]
      rfl
    · rw [hwaiters]
      rfl
  | free hheld hwaiters =>
    intro agentId token hout
    cases hout
  | ignored hheld =>
    rw [hinv.ignored_eq hheld]
    exact h
  | other state dropped hacquire hrelease => exact h

/-- A grant to a receiver that is gone leaves a token that nobody has. -/
theorem grantsLive_of_delivered (hinv : s.Inv) (hs : s.step l = some s') (h : s'.Delivered) :
    s.GrantsLive l := by
  cases moves_of_step hs with
  | grant hfree =>
    intro _
    refine (delivered_grantTo ?_).1 h
    rw [hinv.unreturned, hfree]
    rfl
  | queue hheld =>
    intro hfree
    cases hheld.symm.trans hfree
  | handover hheld hwaiters =>
    intro _ next hnext
    rw [hwaiters] at hnext
    obtain rfl := Option.some.inj hnext
    exact (delivered_grantTo (hinv.unreturned_release hheld)).1 h
  | free hheld hwaiters =>
    intro _ next hnext
    rw [hwaiters] at hnext
    cases hnext
  | ignored hheld =>
    intro hout
    obtain ⟨⟨agentId, token⟩, hholder, rfl⟩ := Option.map_eq_some_iff.1 hout
    exact absurd hholder (hheld agentId)
  | other state dropped hacquire hrelease =>
    cases l with
    | acquireWrite agentId => exact absurd rfl (hacquire agentId)
    | releaseWrite token => exact absurd rfl (hrelease token)
    | snapshot | attachState | stats | dropReceiver => trivial

/-- Over any run, the token that is out was always delivered to a receiver that was there exactly
when no step grants a request whose receiver has been dropped. -/
theorem held_delivered_iff (ls : List (Event ManagedRef)) :
    (system ManagedRef).Along Delivered (system ManagedRef).init ls ↔
      (system ManagedRef).Meets GrantsLive (system ManagedRef).init ls := by
  constructor
  · exact Transition.System.meets_of_along (I := Inv)
      (fun _ _ _ hinv hs h => grantsLive_of_delivered hinv hs h)
      (fun _ _ _ hinv _ hs => hinv.step hs) inv_init
  · have hinit : (init : History ManagedRef).Delivered := by
      intro agentId token hheld
      cases hheld
    refine Transition.System.along_of_meets (I := fun s : History ManagedRef => s.Inv ∧ s.Delivered)
      (fun _ h => h.2) ?_ ⟨inv_init, hinit⟩
    rintro s l s' ⟨hinv, h⟩ hl hs
    exact ⟨hinv.step hs, h.step hinv hl hs⟩

/-- Agent 1 holds the token, agent 2 waits and gives up, and agent 3 waits behind it.  After the
release the token is out to agent 2, and only a release of that token would let agent 3 have it. -/
theorem cancelled_waiter_holds :
    ¬ ∀ ls : List (Event Unit), (system Unit).Along Delivered (system Unit).init ls := by
  intro h
  have halong := h [.acquireWrite 1, .acquireWrite 2, .acquireWrite 3, .dropReceiver 1,
    .releaseWrite ⟨1⟩]
  have hlast := halong.last rfl
  obtain ⟨g, hg, hout, -, -, hdelivered⟩ := hlast 2 ⟨2⟩ rfl
  revert hg hout hdelivered
  decide +revert

end History

end SharedState

end AtomrAccel
