import AtomrAccel.Lib.Transition
import AtomrAccel.Device.Error

/-!
# `FairShareScheduler`

Requests of several tenants wait in one queue per tenant.  While fewer than `max_in_flight`
requests are out, the scheduler takes the tenant with the smallest virtual finish time among those
that wait, hands its oldest request to the dispatcher and advances the tenant's virtual finish time
by the inverse of its weight.  A task tees the reply of every dispatched request and tells the
scheduler that it finished.

* `VirtualTime`: the arithmetic of virtual finish times, `f64` in the source;
* `FairShareScheduler`, `pick`, `tryDispatch`, `handle`: the actor, with the list of its dispatch
  decisions;
* `Run`, `Label`, `step`: the actor with the messages it has handled and the requests still out;
* `Conserving`, `along_conserving`: for any arithmetic, what is submitted is queued or dispatched
  once and in order, never beyond `max_in_flight`, and nothing waits below it.
-/

namespace AtomrAccel

namespace FairShare

/-- The number of a tenant. -/
abbrev TenantId := ℕ

/-- A tenant with its weight. -/
structure TenantConfig where
  id : TenantId
  weight : ℕ
  deriving DecidableEq, Repr

/-- The arithmetic of virtual finish times: `0.0`, `+= 1.0 / weight.max(1)` and `<`. -/
structure VirtualTime (V : Type) where
  zero : V
  advance : V → ℕ → V
  lt : V → V → Bool

/-- A tenant with what it waits for and its virtual finish time. -/
structure TenantState (V Req Reply : Type) where
  cfg : TenantConfig
  queue : List (Req × Reply)
  vfinish : V

/-- The configuration, with the iteration order of the `HashMap` the tenants are put in. -/
structure FairShareConfig where
  tenants : List TenantConfig
  maxInFlight : ℕ
  order : List TenantId
  mem_order : ∀ id, id ∈ order ↔ ∃ t ∈ tenants, t.id = id

/-- The actor: its tenants, and how many requests are out. -/
structure FairShareScheduler (V Req Reply : Type) where
  maxInFlight : ℕ
  order : List TenantId
  tenants : TenantId → Option (TenantState V Req Reply)
  inFlight : ℕ
  totalDispatched : UInt64

/-- A request as it is submitted, and as it is handed to the dispatcher. -/
structure Request (Req Reply : Type) where
  tenant : TenantId
  item : Req × Reply
  deriving DecidableEq, Repr

/-- One turn of the dispatch loop: the tenants it looked at, and what it dispatched. -/
structure Decision (V Req Reply : Type) where
  before : TenantId → Option (TenantState V Req Reply)
  chosen : Option (Request Req Reply)

/-- What `Stats` answers. -/
structure FairShareStats where
  inFlight : ℕ
  totalDispatched : UInt64
  deriving DecidableEq, Repr

/-- The messages of the scheduler. -/
inductive FairShareMsg (Req Reply : Type)
  | submit (request : Request Req Reply)
  | finished (tenant : TenantId)
  | stats (reply : Reply)

/-- What the scheduler itself sends on a reply channel. -/
inductive Answer (Reply : Type)
  | refused (reply : Reply) (error : GpuError)
  | stats (reply : Reply) (stats : FairShareStats)

/-- What handling a message leads to. -/
structure Handled (V Req Reply : Type) where
  sched : FairShareScheduler V Req Reply
  decisions : List (Decision V Req Reply)
  answers : List (Answer Reply)

/-- The refusal of a request without a tenant. -/
def unknownTenant (id : TenantId) : GpuError :=
  .unrecoverable ("FairShare: unknown tenant TenantId(" ++ toString id ++ ")")

variable {V Req Reply : Type} (time : VirtualTime V)

/-- One turn of the loop over the tenants: keep the smaller virtual finish time. -/
def better (tenants : TenantId → Option (TenantState V Req Reply)) (best : Option (TenantId × V))
    (id : TenantId) : Option (TenantId × V) :=
  match tenants id with
  | none => best
  | some t =>
    if t.queue.isEmpty then best
    else match best with
      | none => some (id, t.vfinish)
      | some (_, vf) => if time.lt t.vfinish vf then some (id, t.vfinish) else best

namespace FairShareScheduler

/-- `props`: of several entries with one id the last is kept. -/
def new (config : FairShareConfig) : FairShareScheduler V Req Reply where
  maxInFlight := config.maxInFlight
  order := config.order
  tenants id := (config.tenants.reverse.find? fun t => t.id = id).map fun t => ⟨t, [], time.zero⟩
  inFlight := 0
  totalDispatched := 0

/-- The tenant with the smallest virtual finish time whose queue is not empty. -/
def pick (s : FairShareScheduler V Req Reply) : Option (TenantId × V) :=
  s.order.foldl (better time s.tenants) none

/-- The tenant `t`, with id `tid`, is served and left with the queue `rest`. -/
def serve (s : FairShareScheduler V Req Reply) (tid : TenantId) (t : TenantState V Req Reply)
    (rest : List (Req × Reply)) : FairShareScheduler V Req Reply :=
  { s with
    tenants := Function.update s.tenants tid
      (some { t with queue := rest, vfinish := time.advance t.vfinish t.cfg.weight })
    inFlight := s.inFlight + 1
    totalDispatched := s.totalDispatched + 1 }

/-- The body of the dispatch loop; the two `unwrap`s cannot fail. -/
def next (s : FairShareScheduler V Req Reply) :
    Option (FairShareScheduler V Req Reply × Request Req Reply) :=
  match s.pick time with
  | none => none
  | some (tid, _) =>
    match s.tenants tid with
    | none => none
    | some t =>
      match t.queue with
      | [] => none
      | item :: rest => some (s.serve time tid t rest, ⟨tid, item⟩)

/-- The dispatch loop with `n` places left. -/
def dispatchLoop : ℕ → FairShareScheduler V Req Reply →
    FairShareScheduler V Req Reply × List (Decision V Req Reply)
  | 0, s => (s, [])
  | n + 1, s =>
    match s.next time with
    | none => (s, [⟨s.tenants, none⟩])
    | some (s', request) =>
      let r := dispatchLoop n s'
      (r.1, ⟨s.tenants, some request⟩ :: r.2)

/-- `while in_flight < max_in_flight`: every turn fills one place. -/
def tryDispatch (s : FairShareScheduler V Req Reply) :
    FairShareScheduler V Req Reply × List (Decision V Req Reply) :=
  dispatchLoop time (s.maxInFlight - s.inFlight) s

/-- `push_back` on the queue of a tenant. -/
def enqueue (s : FairShareScheduler V Req Reply) (t : TenantState V Req Reply)
    (request : Request Req Reply) : FairShareScheduler V Req Reply :=
  { s with
    tenants := Function.update s.tenants request.tenant
      (some { t with queue := t.queue ++ [request.item] }) }

/-- After a `Submit` or a `Finished` as much is dispatched as there is room for. -/
def handle (s : FairShareScheduler V Req Reply) : FairShareMsg Req Reply → Handled V Req Reply
  | .submit request =>
    match s.tenants request.tenant with
    | none => ⟨s, [], [.refused request.item.2 (unknownTenant request.tenant)]⟩
    | some t =>
      let r := (s.enqueue t request).tryDispatch time
      ⟨r.1, r.2, []⟩
  | .finished _ =>
    let r := { s with inFlight := s.inFlight - 1 }.tryDispatch time
    ⟨r.1, r.2, []⟩
  | .stats reply => ⟨s, [], [.stats reply ⟨s.inFlight, s.totalDispatched⟩]⟩

end FairShareScheduler

/-! ### The scheduler with its messages -/

/-- The scheduler, everything submitted to it, all its decisions, the dispatched requests whose
`Finished` it has not handled, the number of those it has, and its own answers. -/
structure Run (V Req Reply : Type) where
  sched : FairShareScheduler V Req Reply
  submitted : List (Request Req Reply)
  decisions : List (Decision V Req Reply)
  running : List (Request Req Reply)
  finished : ℕ
  answers : List (Answer Reply)

/-- The steps of the clients and of the requests that are out. -/
inductive Label (Req Reply : Type)
  | submit (request : Request Req Reply)
  /-- the `Finished` that the tee of the `k`-th running request tells -/
  | finished (k : ℕ)
  | stats (reply : Reply)

/-- The requests a list of decisions dispatched. -/
def dispatches (ds : List (Decision V Req Reply)) : List (Request Req Reply) :=
  ds.filterMap Decision.chosen

namespace Run

/-- Nothing has been submitted. -/
def new (config : FairShareConfig) : Run V Req Reply :=
  ⟨FairShareScheduler.new time config, [], [], [], 0, []⟩

/-- What handling a message leaves behind. -/
def record (s : Run V Req Reply) (h : Handled V Req Reply) : Run V Req Reply :=
  { s with
    sched := h.sched
    decisions := s.decisions ++ h.decisions
    running := s.running ++ dispatches h.decisions
    answers := s.answers ++ h.answers }

/-- The requests dispatched so far. -/
def dispatched (s : Run V Req Reply) : List (Request Req Reply) := dispatches s.decisions

/-- One message, with what it leads to. -/
def step (s : Run V Req Reply) : Label Req Reply → Option (Run V Req Reply)
  | .submit request => some
      ({ s with submitted := s.submitted ++ [request] }.record
        (s.sched.handle time (.submit request)))
  | .finished k =>
    match s.running[k]? with
    | none => none
    | some request => some
        ({ s with running := s.running.eraseIdx k, finished := s.finished + 1 }.record
          (s.sched.handle time (.finished request.tenant)))
  | .stats reply => some (s.record (s.sched.handle time (.stats reply)))

end Run

/-- The scheduler with its clients. -/
def system (config : FairShareConfig) : Transition.System (Run V Req Reply) (Label Req Reply) :=
  ⟨Run.new time config, Run.step time⟩

/-- What was requested for one tenant. -/
def itemsOf (id : TenantId) (requests : List (Request Req Reply)) : List (Req × Reply) :=
  (requests.filter fun r => r.tenant = id).map Request.item

/-! ### The choice of a tenant -/

section Pick

variable {time} {tenants : TenantId → Option (TenantState V Req Reply)}

theorem better_of_none {id : TenantId} (h : tenants id = none) (best : Option (TenantId × V)) :
    better time tenants best id = best := by
  simp [better, h]

theorem better_of_empty {id : TenantId} {t : TenantState V Req Reply} (h : tenants id = some t)
    (hq : t.queue = []) (best : Option (TenantId × V)) : better time tenants best id = best := by
  simp [better, h, hq]

variable (time) in
/-- A tenant that waits is kept unless an earlier one is at most as late. -/
theorem better_of_waiting {id : TenantId} {t : TenantState V Req Reply} (h : tenants id = some t)
    (hq : t.queue ≠ []) (best : Option (TenantId × V)) :
    (better time tenants best id = some (id, t.vfinish) ∧
        ∀ b, best = some b → time.lt t.vfinish b.2 = true) ∨
      ∃ b, best = some b ∧ better time tenants best id = best ∧ time.lt t.vfinish b.2 = false := by
  cases best with
  | none => exact .inl ⟨by simp [better, h, hq], by simp⟩
  | some b =>
    by_cases hlt : time.lt t.vfinish b.2 = true
    · exact .inl ⟨by simp [better, h, hq, hlt], by simpa using hlt⟩
    · exact .inr ⟨b, rfl, by simp [better, h, hq, hlt], by simpa using hlt⟩

/-- The loop ends without a tenant only when none of those it went over waits. -/
theorem foldl_better_none {ids : List TenantId} {best : Option (TenantId × V)}
    (h : ids.foldl (better time tenants) best = none) :
    best = none ∧ ∀ id ∈ ids, ∀ t, tenants id = some t → t.queue = [] := by
  induction ids generalizing best with
  | nil => exact ⟨h, by simp⟩
  | cons id ids ih =>
    obtain ⟨hbest, hids⟩ := ih h
    have hid : best = none ∧ ∀ t, tenants id = some t → t.queue = [] := by
      cases ht : tenants id with
      | none => exact ⟨better_of_none ht best ▸ hbest, by simp⟩
      | some t =>
        by_cases hq : t.queue = []
        · exact ⟨better_of_empty ht hq best ▸ hbest, fun t' ht' => by cases ht'; exact hq⟩
        · rcases better_of_waiting time ht hq best with ⟨heq, -⟩ | ⟨b, hb, heq, -⟩
          · rw [heq] at hbest
            cases hbest
          · rw [heq, hb] at hbest
            cases hbest
    refine ⟨hid.1, fun id' hid' t ht => ?_⟩
    rcases List.mem_cons.1 hid' with rfl | hid'
    · exact hid.2 t ht
    · exact hids id' hid' t ht

/-- Whoever the loop ends with waits. -/
theorem foldl_better_some {ids : List TenantId} {best : Option (TenantId × V)}
    (hbest : ∀ b, best = some b → ∃ t, tenants b.1 = some t ∧ t.queue ≠ [] ∧ t.vfinish = b.2)
    {c : TenantId × V} (h : ids.foldl (better time tenants) best = some c) :
    ∃ t, tenants c.1 = some t ∧ t.queue ≠ [] ∧ t.vfinish = c.2 := by
  induction ids generalizing best with
  | nil => exact hbest c h
  | cons id ids ih =>
    refine ih (fun b hb => ?_) h
    cases ht : tenants id with
    | none => exact hbest b (better_of_none ht best ▸ hb)
    | some t =>
      by_cases hq : t.queue = []
      · exact hbest b (better_of_empty ht hq best ▸ hb)
      · rcases better_of_waiting time ht hq best with ⟨heq, -⟩ | ⟨b', -, heq, -⟩
        · rw [heq] at hb
          cases hb
          exact ⟨t, ht, hq, rfl⟩
        · exact hbest b (heq ▸ hb)

variable {s : FairShareScheduler V Req Reply}

/-- The loop body stops only when nobody waits. -/
theorem FairShareScheduler.queue_of_next_none (h : s.next time = none) :
    ∀ id ∈ s.order, ∀ t, s.tenants id = some t → t.queue = [] := by
  cases hpick : s.pick time with
  | none => exact (foldl_better_none hpick).2
  | some c =>
    obtain ⟨t, ht, hq, -⟩ := foldl_better_some (by simp) hpick
    unfold next at h
    rw [hpick] at h
    simp only [ht] at h
    split at h
    · rename_i hnil
      exact absurd hnil hq
    · cases h

/-- Otherwise it serves the oldest request of the tenant it picked. -/
theorem FairShareScheduler.next_eq_some {s' : FairShareScheduler V Req Reply}
    {request : Request Req Reply} (h : s.next time = some (s', request)) :
    ∃ t rest, s.tenants request.tenant = some t ∧ t.queue = request.item :: rest ∧
      s' = s.serve time request.tenant t rest ∧
        s.pick time = some (request.tenant, t.vfinish) := by
  unfold next at h
  cases hpick : s.pick time with
  | none =>
    rw [hpick] at h
    cases h
  | some c =>
    obtain ⟨t, ht, -, hvf⟩ := foldl_better_some (by simp) hpick
    rw [hpick] at h
    simp only [ht] at h
    split at h
    · cases h
    · rename_i item rest hq
      cases h
      exact ⟨t, rest, ht, hq, rfl, by rw [hvf]⟩

end Pick

/-- The dispatch loop is the loop of the source: it runs while there is room, and ends early only
when nobody waits. -/
theorem FairShareScheduler.tryDispatch_eq (s : FairShareScheduler V Req Reply) :
    s.tryDispatch time =
      if s.inFlight < s.maxInFlight then
        match s.next time with
        | none => (s, [⟨s.tenants, none⟩])
        | some (s', request) =>
          ((s'.tryDispatch time).1, ⟨s.tenants, some request⟩ :: (s'.tryDispatch time).2)
      else (s, []) := by
  by_cases hlt : s.inFlight < s.maxInFlight
  · obtain ⟨n, hn⟩ : ∃ n, s.maxInFlight - s.inFlight = n + 1 := ⟨_, (Nat.succ_pred (by omega)).symm⟩
    rw [tryDispatch, hn, if_pos hlt]
    cases hnext : s.next time with
    | none => simp [dispatchLoop, hnext]
    | some p =>
      obtain ⟨s', request⟩ := p
      obtain ⟨t, rest, -, -, rfl, -⟩ := next_eq_some hnext
      have hplaces : (s.serve time request.tenant t rest).maxInFlight -
          (s.serve time request.tenant t rest).inFlight = n := by
        simp only [serve]
        omega
      simp only [dispatchLoop, hnext, tryDispatch, hplaces]
  · have hzero : s.maxInFlight - s.inFlight = 0 := by omega
    rw [tryDispatch, hzero, if_neg hlt, dispatchLoop]

/-! ### What a message does -/

section Ledger

@[simp] theorem itemsOf_append (id : TenantId) (xs ys : List (Request Req Reply)) :
    itemsOf id (xs ++ ys) = itemsOf id xs ++ itemsOf id ys := by
  simp [itemsOf]

theorem itemsOf_singleton_self (r : Request Req Reply) : itemsOf r.tenant [r] = [r.item] := by
  simp [itemsOf]

theorem itemsOf_singleton_of_ne {id : TenantId} {r : Request Req Reply} (h : r.tenant ≠ id) :
    itemsOf id [r] = [] := by
  simp [itemsOf, h]

@[simp] theorem dispatches_append (ds ds' : List (Decision V Req Reply)) :
    dispatches (ds ++ ds') = dispatches ds ++ dispatches ds' := List.filterMap_append

/-- The books of the scheduler: what was submitted for a tenant is what was dispatched for it and
then what is queued, and the counters count the dispatches. -/
structure Ledger (config : FairShareConfig) (submitted dispatched : List (Request Req Reply))
    (finished : ℕ) (s : FairShareScheduler V Req Reply) : Prop where
  maxInFlight : s.maxInFlight = config.maxInFlight
  order : s.order = config.order
  tenants : ∀ id, (s.tenants id).isSome = true ↔ id ∈ config.order
  fifo : ∀ id t, s.tenants id = some t →
    itemsOf id submitted = itemsOf id dispatched ++ t.queue
  known : ∀ r ∈ dispatched, r.tenant ∈ config.order
  total : s.totalDispatched = UInt64.ofNat dispatched.length
  balance : s.inFlight + finished = dispatched.length

variable {time} {config : FairShareConfig} {submitted dispatched : List (Request Req Reply)}
  {finished : ℕ} {s : FairShareScheduler V Req Reply}

theorem Ledger.mem_order (h : Ledger config submitted dispatched finished s) {id : TenantId}
    {t : TenantState V Req Reply} (ht : s.tenants id = some t) : id ∈ config.order :=
  (h.tenants id).1 (by rw [ht]; rfl)

/-- A known tenant gets another state. -/
theorem Ledger.isSome_update (h : Ledger config submitted dispatched finished s) {id : TenantId}
    (hid : id ∈ config.order) (t : TenantState V Req Reply) (id' : TenantId) :
    (Function.update s.tenants id (some t) id').isSome = true ↔ id' ∈ config.order := by
  by_cases heq : id' = id
  · rw [heq, Function.update_self]
    exact iff_of_true rfl hid
  · rw [Function.update_of_ne heq]
    exact h.tenants id'

/-- A request of one tenant leaves the items of the others as they are. -/
theorem itemsOf_concat_of_ne {id : TenantId} {r : Request Req Reply} (hne : id ≠ r.tenant)
    (requests : List (Request Req Reply)) :
    itemsOf id (requests ++ [r]) = itemsOf id requests := by
  rw [itemsOf_append, itemsOf_singleton_of_ne hne.symm, List.append_nil]

/-- The queues are in order again when the tenant with a new state has its own in order and the
items of the others are what they were. -/
theorem Ledger.fifo_update (h : Ledger config submitted dispatched finished s) {tid : TenantId}
    {t : TenantState V Req Reply} {submitted' dispatched' : List (Request Req Reply)}
    (hself : itemsOf tid submitted' = itemsOf tid dispatched' ++ t.queue)
    (hothers : ∀ id, id ≠ tid → itemsOf id submitted' = itemsOf id submitted ∧
      itemsOf id dispatched' = itemsOf id dispatched)
    (id : TenantId) (t' : TenantState V Req Reply)
    (ht' : Function.update s.tenants tid (some t) id = some t') :
    itemsOf id submitted' = itemsOf id dispatched' ++ t'.queue := by
  by_cases heq : id = tid
  · subst heq
    rw [Function.update_self] at ht'
    rw [← Option.some.inj ht', hself]
  · rw [Function.update_of_ne heq] at ht'
    obtain ⟨hsubmitted, hdispatched⟩ := hothers id heq
    rw [hsubmitted, hdispatched, h.fifo id t' ht']

variable (time) in
theorem Ledger.serve (h : Ledger config submitted dispatched finished s)
    {request : Request Req Reply} {t : TenantState V Req Reply} {rest : List (Req × Reply)}
    (ht : s.tenants request.tenant = some t) (hq : t.queue = request.item :: rest) :
    Ledger config submitted (dispatched ++ [request]) finished
      (s.serve time request.tenant t rest) where
  maxInFlight := h.maxInFlight
  order := h.order
  tenants := h.isSome_update (h.mem_order ht) _
  fifo := by
    refine h.fifo_update ?_ fun id hne => ⟨rfl, itemsOf_concat_of_ne hne dispatched⟩
    rw [h.fifo _ t ht, hq, itemsOf_append, itemsOf_singleton_self, List.append_assoc]
    rfl
  known := by
    intro r hr
    rcases List.mem_append.1 hr with hr | hr
    · exact h.known r hr
    · rw [List.mem_singleton.1 hr]
      exact h.mem_order ht
  total := by
    show s.totalDispatched + 1 = _
    rw [h.total, List.length_append, UInt64.ofNat_add]
    rfl
  balance := by
    have := h.balance
    simp only [FairShareScheduler.serve, List.length_append, List.length_singleton]
    omega

variable (time) in
/-- The whole dispatch loop keeps the books. -/
theorem Ledger.dispatchLoop (h : Ledger config submitted dispatched finished s) (n : ℕ) :
    Ledger config submitted
      (dispatched ++ dispatches (s.dispatchLoop time n).2) finished (s.dispatchLoop time n).1 := by
  induction n generalizing s dispatched with
  | zero => simpa [FairShareScheduler.dispatchLoop, dispatches] using h
  | succ n ih =>
    cases hnext : s.next time with
    | none => simpa [FairShareScheduler.dispatchLoop, hnext, dispatches] using h
    | some p =>
      obtain ⟨s', request⟩ := p
      obtain ⟨t, rest, ht, hq, rfl, -⟩ := FairShareScheduler.next_eq_some hnext
      simpa [FairShareScheduler.dispatchLoop, hnext, dispatches] using
        ih (h.serve time ht hq)

variable (time) in
/-- A loop with all free places to fill fills them or leaves nobody waiting. -/
theorem Ledger.dispatchLoop_full (h : Ledger config submitted dispatched finished s) {n : ℕ}
    (hn : s.inFlight + n = config.maxInFlight) :
    (s.dispatchLoop time n).1.inFlight ≤ config.maxInFlight ∧
      ((s.dispatchLoop time n).1.inFlight < config.maxInFlight →
        ∀ id t, (s.dispatchLoop time n).1.tenants id = some t → t.queue = []) := by
  induction n generalizing s dispatched with
  | zero =>
    simp only [FairShareScheduler.dispatchLoop]
    exact ⟨by omega, fun hlt => absurd hlt (by omega)⟩
  | succ n ih =>
    cases hnext : s.next time with
    | none =>
      simp only [FairShareScheduler.dispatchLoop, hnext]
      refine ⟨by omega, fun _ id t ht => ?_⟩
      have hid : id ∈ s.order := by
        rw [h.order]
        exact h.mem_order ht
      exact FairShareScheduler.queue_of_next_none hnext id hid t ht
    | some p =>
      obtain ⟨s', request⟩ := p
      obtain ⟨t, rest, ht, hq, rfl, -⟩ := FairShareScheduler.next_eq_some hnext
      simp only [FairShareScheduler.dispatchLoop, hnext]
      refine ih (h.serve time ht hq) ?_
      simp only [FairShareScheduler.serve]
      omega

theorem Ledger.enqueue (h : Ledger config submitted dispatched finished s)
    {request : Request Req Reply} {t : TenantState V Req Reply}
    (ht : s.tenants request.tenant = some t) :
    Ledger config (submitted ++ [request]) dispatched finished (s.enqueue t request) where
  maxInFlight := h.maxInFlight
  order := h.order
  tenants := h.isSome_update (h.mem_order ht) _
  fifo := by
    refine h.fifo_update ?_ fun id hne => ⟨itemsOf_concat_of_ne hne submitted, rfl⟩
    rw [itemsOf_append, itemsOf_singleton_self, h.fifo _ t ht, List.append_assoc]
  known := h.known
  total := h.total
  balance := h.balance

end Ledger

/-! ### Safety and work conservation -/

/-- The answer to a request for an unknown tenant. -/
def Answer.refused? : Answer Reply → Option (Reply × GpuError)
  | .refused reply error => some (reply, error)
  | .stats _ _ => none

namespace Run

/-- The tenants of the configuration. -/
def Known (config : FairShareConfig) (id : TenantId) : Prop := ∃ t ∈ config.tenants, t.id = id

instance decidableKnown (config : FairShareConfig) (id : TenantId) : Decidable (Known config id) :=
  inferInstanceAs (Decidable (∃ t ∈ config.tenants, t.id = id))

/-- What holds after every handled message. -/
structure Conserving (config : FairShareConfig) (s : Run V Req Reply) : Prop where
  /-- `in_flight` is what was dispatched and has not finished -/
  balance : s.sched.inFlight + s.finished = s.dispatched.length
  capped : s.sched.inFlight ≤ config.maxInFlight
  /-- nobody waits while there is room -/
  busy : s.sched.inFlight < config.maxInFlight →
    ∀ id t, s.sched.tenants id = some t → t.queue = []
  /-- what was submitted for a tenant was dispatched, in this order, or is queued -/
  fifo : ∀ id, Known config id → ∃ t, s.sched.tenants id = some t ∧
    itemsOf id s.submitted = itemsOf id s.dispatched ++ t.queue
  known : ∀ r ∈ s.dispatched, Known config r.tenant
  /-- every other request is answered with an error -/
  refused : s.answers.filterMap Answer.refused? =
    (s.submitted.filter fun r => ¬ Known config r.tenant).map
      fun r => (r.item.2, unknownTenant r.tenant)
  /-- a `u64`, which would wrap around after `2 ^ 64` dispatches -/
  total : s.sched.totalDispatched = UInt64.ofNat s.dispatched.length

/-- The books, with the requests that are still out. -/
structure Inv (config : FairShareConfig) (s : Run V Req Reply) : Prop where
  ledger : Ledger config s.submitted s.dispatched s.finished s.sched
  capped : s.sched.inFlight ≤ config.maxInFlight
  busy : s.sched.inFlight < config.maxInFlight →
    ∀ id t, s.sched.tenants id = some t → t.queue = []
  running : s.running.length = s.sched.inFlight
  refused : s.answers.filterMap Answer.refused? =
    (s.submitted.filter fun r => ¬ Known config r.tenant).map
      fun r => (r.item.2, unknownTenant r.tenant)

variable {config : FairShareConfig} {s s' : Run V Req Reply}

theorem Inv.conserving (h : s.Inv config) : s.Conserving config where
  balance := h.ledger.balance
  capped := h.capped
  busy := h.busy
  fifo := by
    intro id hid
    have hsome := (h.ledger.tenants id).2 ((config.mem_order id).2 hid)
    obtain ⟨t, ht⟩ := Option.isSome_iff_exists.1 hsome
    exact ⟨t, ht, h.ledger.fifo id t ht⟩
  known := fun r hr => (config.mem_order _).1 (h.ledger.known r hr)
  refused := h.refused
  total := h.ledger.total

theorem inv_new (config : FairShareConfig) :
    (new time config : Run V Req Reply).Inv config where
  ledger := by
    refine ⟨rfl, rfl, fun id => ?_, fun id t ht => ?_, by simp [dispatched, new, dispatches],
      rfl, rfl⟩
    · rw [config.mem_order]
      simp [new, FairShareScheduler.new]
    · simp only [new, FairShareScheduler.new, Option.map_eq_some_iff] at ht
      obtain ⟨c, -, rfl⟩ := ht
      rfl
  capped := Nat.zero_le _
  busy := by
    intro _ id t ht
    simp only [new, FairShareScheduler.new, Option.map_eq_some_iff] at ht
    obtain ⟨c, -, rfl⟩ := ht
    rfl
  running := rfl
  refused := rfl

/-- A message that changes the scheduler and then runs the dispatch loop. -/
theorem inv_tryDispatch {submitted : List (Request Req Reply)} {finished : ℕ}
    {running : List (Request Req Reply)} {sched : FairShareScheduler V Req Reply}
    {decisions : List (Decision V Req Reply)} {answers : List (Answer Reply)}
    (hledger : Ledger config submitted (dispatches decisions) finished sched)
    (hcapped : sched.inFlight ≤ config.maxInFlight) (hrunning : running.length = sched.inFlight)
    (hrefused : answers.filterMap Answer.refused? =
      (submitted.filter fun r => ¬ Known config r.tenant).map
        fun r => (r.item.2, unknownTenant r.tenant)) :
    Inv config (record ⟨sched, submitted, decisions, running, finished, answers⟩
      ⟨(sched.tryDispatch time).1, (sched.tryDispatch time).2, []⟩) := by
  have hafter := hledger.dispatchLoop time (sched.maxInFlight - sched.inFlight)
  have hfull := hledger.dispatchLoop_full time
    (n := sched.maxInFlight - sched.inFlight) (by rw [hledger.maxInFlight]; omega)
  refine ⟨?_, hfull.1, hfull.2, ?_, by simpa [record] using hrefused⟩
  · simpa [record, dispatched, FairShareScheduler.tryDispatch] using hafter
  · have hbefore := hledger.balance
    have hbalance := hafter.balance
    simp only [List.length_append] at hbalance
    simp only [record, FairShareScheduler.tryDispatch, List.length_append, hrunning]
    omega

/-- A request for an unknown tenant is answered and changes nothing else. -/
theorem inv_refuse (h : s.Inv config) {request : Request Req Reply}
    (ht : s.sched.tenants request.tenant = none) :
    Inv config (record { s with submitted := s.submitted ++ [request] }
      (s.sched.handle time (.submit request))) := by
  have hunknown : ¬ Known config request.tenant := fun hk => by
    have := (h.ledger.tenants request.tenant).2 ((config.mem_order _).2 hk)
    rw [ht] at this
    cases this
  obtain ⟨hmax, horder, htenants, hfifo, hknown, htotal, hbalance⟩ := h.ledger
  simp only [FairShareScheduler.handle, ht]
  refine ⟨⟨hmax, horder, htenants, fun id t hid => ?_, ?_, ?_, ?_⟩, h.capped, h.busy, ?_, ?_⟩
  · have hne : request.tenant ≠ id := fun heq => by
      have hsome : s.sched.tenants request.tenant = some t := heq ▸ hid
      rw [ht] at hsome
      cases hsome
    simpa [record, dispatched, itemsOf_singleton_of_ne hne] using hfifo id t hid
  · simpa [record, dispatched] using hknown
  · simpa [record, dispatched] using htotal
  · simpa [record, dispatched] using hbalance
  · simpa [record, dispatches] using h.running
  · simp [record, Answer.refused?, h.refused, hunknown]

theorem inv_step (h : s.Inv config) {l : Label Req Reply} (hs : s.step time l = some s') :
    s'.Inv config := by
  cases l with
  | submit request =>
    simp only [step, Option.some.injEq] at hs
    subst hs
    cases ht : s.sched.tenants request.tenant with
    | none => exact inv_refuse time h ht
    | some t =>
      have hknown : Known config request.tenant :=
        (config.mem_order _).1 (h.ledger.mem_order ht)
      simp only [FairShareScheduler.handle, ht]
      refine inv_tryDispatch time (h.ledger.enqueue ht) h.capped h.running ?_
      rw [h.refused, List.filter_append, List.filter_cons_of_neg (by simpa using hknown)]
      simp
  | finished k =>
    simp only [step] at hs
    cases hk : s.running[k]? with
    | none =>
      rw [hk] at hs
      cases hs
    | some request =>
      rw [hk] at hs
      cases hs
      have hlt : k < s.running.length := (List.getElem?_eq_some_iff.1 hk).1
      have hrunning := h.running
      have hcapped := h.capped
      obtain ⟨hmax, horder, htenants, hfifo, hknown, htotal, hbalance⟩ := h.ledger
      refine inv_tryDispatch time ⟨hmax, horder, htenants, hfifo, hknown, htotal, ?_⟩ ?_ ?_
        h.refused
      · simp only [dispatched] at hbalance ⊢
        omega
      · simp only
        omega
      · rw [List.length_eraseIdx_of_lt hlt]
        simp only
        omega
  | stats reply =>
    cases hs
    obtain ⟨hledger, hcapped, hbusy, hrunning, hrefused⟩ := h
    refine ⟨?_, hcapped, hbusy, ?_, ?_⟩
    · simpa [record, FairShareScheduler.handle, dispatched] using hledger
    · simpa [record, FairShareScheduler.handle, dispatches] using hrunning
    · simpa [record, FairShareScheduler.handle, List.filterMap_cons, Answer.refused?] using hrefused

end Run

/-- **For every configuration, every arithmetic of virtual finish times and every run, the
scheduler keeps its books after every message; and a request for an unknown tenant changes
nothing but for its error answer.** -/
theorem along_conserving (config : FairShareConfig) (ls : List (Label Req Reply)) :
    (system time config).Along (Run.Conserving config) (Run.new time config) ls ∧
      ∀ (s : FairShareScheduler V Req Reply) (request : Request Req Reply),
        s.tenants request.tenant = none →
          s.handle time (.submit request) =
            ⟨s, [], [.refused request.item.2 (unknownTenant request.tenant)]⟩ := by
  constructor
  · exact Transition.System.along_of_inv (I := Run.Inv config) (fun _ hs => hs.conserving)
      (fun _ _ _ hs hstep => Run.inv_step time hs hstep) (Run.inv_new time config) ls
  · intro s request hnone
    simp [FairShareScheduler.handle, hnone]

end FairShare

end AtomrAccel
