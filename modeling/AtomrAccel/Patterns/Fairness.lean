import AtomrAccel.Lib.VirtualClock
import AtomrAccel.Patterns.Scheduler

/-!
# `FairShareScheduler`: weighted fairness

With exact arithmetic the virtual finish times of the tenants are clocks that a service advances
by the inverse of the tenant's weight.  The scheduler never brings the clock of an idle tenant up
to those of the tenants that wait, so a tenant that comes back from an idle time is served alone
until its clock has caught up.

* `share`, `exactTime`: the inverse of a weight, and rational virtual finish times;
* `Fair`: in every interval of decisions at which both tenants wait, their services per weight
  differ by at most one service of each;
* `LabelOk`, `along_fair`: every run is fair in which a tenant that starts to wait is within one
  service of every tenant that waits already.
-/

namespace AtomrAccel

namespace FairShare

open VirtualClock

/-- The virtual time a request of a tenant with this weight takes. -/
def share (weight : ℕ) : ℚ := 1 / (max weight 1 : ℕ)

/-- Virtual time in rational numbers. -/
def exactTime : VirtualTime ℚ where
  zero := 0
  advance v weight := v + share weight
  lt v w := v < w

theorem share_nonneg (weight : ℕ) : 0 ≤ share weight := by
  unfold share
  positivity

/-- The weight a tenant is configured with; the last entry with its id counts. -/
def FairShareConfig.weight (config : FairShareConfig) (id : TenantId) : ℕ :=
  ((config.tenants.reverse.find? fun t => t.id = id).map TenantConfig.weight).getD 1

/-- The time a service of a tenant takes. -/
def cost (config : FairShareConfig) (id : TenantId) : ℚ := share (config.weight id)

variable {Req Reply : Type}

/-- The virtual finish times as clocks. -/
def clock (tenants : TenantId → Option (TenantState ℚ Req Reply)) (id : TenantId) : ℚ :=
  ((tenants id).map TenantState.vfinish).getD 0

/-- The tenant has a request queued. -/
def Waits (tenants : TenantId → Option (TenantState ℚ Req Reply)) (id : TenantId) : Prop :=
  ∃ t, tenants id = some t ∧ t.queue ≠ []

/-- The requests of a tenant that a list of decisions dispatched. -/
def served (id : TenantId) (ds : List (Decision ℚ Req Reply)) : ℕ :=
  ((dispatches ds).map Request.tenant).count id

/-- The bound on every interval in which two tenants both wait at each decision. -/
def Run.Fair (config : FairShareConfig) (s : Run ℚ Req Reply) : Prop :=
  ∀ (i j : TenantId) (interval : List (Decision ℚ Req Reply)), interval <:+: s.decisions →
    (∀ d ∈ interval, Waits d.before i ∧ Waits d.before j) →
      |(served i interval : ℚ) / config.weight i - served j interval / config.weight j| ≤
        1 / (config.weight i : ℚ) + 1 / config.weight j

/-- A tenant that starts to wait is within one service of every tenant that waits. -/
def LabelOk (s : Run ℚ Req Reply) : Label Req Reply → Prop
  | .submit request =>
    ∀ t ∈ s.sched.tenants request.tenant, t.queue.isEmpty = true →
      ∀ id ∈ s.sched.order, ∀ u ∈ s.sched.tenants id, u.queue.isEmpty = false →
        t.vfinish - u.vfinish ≤ share t.cfg.weight ∧ u.vfinish - t.vfinish ≤ share u.cfg.weight
  | .finished _ | .stats _ => True

/-! ### The choice of a tenant, with exact arithmetic -/

/-- The loop over the tenants ends with the smallest virtual finish time it has seen. -/
theorem foldl_better_le {tenants : TenantId → Option (TenantState ℚ Req Reply)}
    {ids : List TenantId} {best : Option (TenantId × ℚ)} {c : TenantId × ℚ}
    (h : ids.foldl (better exactTime tenants) best = some c) :
    (∀ b, best = some b → c.2 ≤ b.2) ∧
      ∀ id ∈ ids, ∀ t, tenants id = some t → t.queue ≠ [] → c.2 ≤ t.vfinish := by
  induction ids generalizing best with
  | nil => exact ⟨fun b hb => by rw [Option.some.inj (hb.symm.trans h)], by simp⟩
  | cons id ids ih =>
    obtain ⟨hbest, hids⟩ := ih h
    have hid : (∀ b, best = some b → c.2 ≤ b.2) ∧
        ∀ t, tenants id = some t → t.queue ≠ [] → c.2 ≤ t.vfinish := by
      cases ht : tenants id with
      | none => exact ⟨fun b hb => hbest b ((better_of_none ht best).trans hb), by simp⟩
      | some t =>
        by_cases hq : t.queue = []
        · refine ⟨fun b hb => hbest b ((better_of_empty ht hq best).trans hb), ?_⟩
          intro t' ht' hq'
          cases ht'
          exact absurd hq hq'
        · rcases better_of_waiting exactTime ht hq best with
            ⟨heq, hlt⟩ | ⟨b, hb, heq, hle⟩
          · have hc := hbest _ heq
            refine ⟨fun b hb => ?_, fun t' ht' _ => by cases ht'; exact hc⟩
            have hltb : t.vfinish < b.2 := of_decide_eq_true (hlt b hb)
            exact hc.trans hltb.le
          · have hc := hbest b (heq.trans hb)
            have hle' : b.2 ≤ t.vfinish := not_lt.1 (of_decide_eq_false hle)
            refine ⟨fun b' hb' => hbest b' (heq.trans hb'), fun t' ht' _ => ?_⟩
            cases ht'
            exact hc.trans hle'
    refine ⟨hid.1, fun id' hid' t ht => ?_⟩
    rcases List.mem_cons.1 hid' with rfl | hid'
    · exact hid.2 t ht
    · exact hids id' hid' t ht

/-! ### What a service does to the clocks -/

theorem clock_of_some {tenants : TenantId → Option (TenantState ℚ Req Reply)} {id : TenantId}
    {t : TenantState ℚ Req Reply} (h : tenants id = some t) : clock tenants id = t.vfinish := by
  rw [clock, h]
  rfl

/-- A tenant's state changes and its clock does not. -/
theorem clock_update {tenants : TenantId → Option (TenantState ℚ Req Reply)} {id : TenantId}
    {t t' : TenantState ℚ Req Reply} (h : tenants id = some t) (hv : t'.vfinish = t.vfinish) :
    clock (Function.update tenants id (some t')) = clock tenants := by
  funext id'
  by_cases heq : id' = id
  · rw [heq, clock_of_some (Function.update_self ..), clock_of_some h, hv]
  · simp [clock, Function.update_of_ne heq]

/-- Who waits after a tenant gets another state. -/
theorem waits_update {tenants : TenantId → Option (TenantState ℚ Req Reply)} {id id' : TenantId}
    {t : TenantState ℚ Req Reply} :
    Waits (Function.update tenants id (some t)) id' ↔
      (id' = id ∧ t.queue ≠ []) ∨ (id' ≠ id ∧ Waits tenants id') := by
  by_cases heq : id' = id
  · subst heq
    simp [Waits]
  · simp [Waits, heq]

/-- Tenants that wait are within one service of each other. -/
structure Level (config : FairShareConfig) (s : FairShareScheduler ℚ Req Reply) : Prop where
  order : ∀ id t, s.tenants id = some t → id ∈ s.order
  weight : ∀ id t, s.tenants id = some t → t.cfg.weight = config.weight id
  near : ∀ id id', Waits s.tenants id → Waits s.tenants id' →
    Near (cost config) id id' (clock s.tenants)

/-- A decision taken among tenants that are near, for one with the smallest clock. -/
structure Sound (config : FairShareConfig) (d : Decision ℚ Req Reply) : Prop where
  near : ∀ id id', Waits d.before id → Waits d.before id' →
    Near (cost config) id id' (clock d.before)
  least : ∀ r, d.chosen = some r → ∀ id, Waits d.before id →
    clock d.before r.tenant ≤ clock d.before id

/-- The clocks after a decision. -/
def Decision.after (config : FairShareConfig) (d : Decision ℚ Req Reply) : TenantId → ℚ :=
  match d.chosen with
  | none => clock d.before
  | some r => advance (cost config) (clock d.before) r.tenant

/-- The decisions start from the clocks `v`, each from where the last one left them, and end at
`w`. -/
def Traced (config : FairShareConfig) :
    (TenantId → ℚ) → List (Decision ℚ Req Reply) → (TenantId → ℚ) → Prop
  | v, [], w => v = w
  | v, d :: ds, w => clock d.before = v ∧ Traced config (d.after config) ds w

theorem traced_append {config : FairShareConfig} {v w : TenantId → ℚ}
    {xs ys : List (Decision ℚ Req Reply)} :
    Traced config v (xs ++ ys) w ↔ ∃ u, Traced config v xs u ∧ Traced config u ys w := by
  induction xs generalizing v with
  | nil => simp [Traced]
  | cons d ds ih => simp [Traced, ih, and_assoc]

section Loop

variable {config : FairShareConfig} {s s' : FairShareScheduler ℚ Req Reply}
  {request : Request Req Reply}

/-- The picked tenant has the smallest clock of those that wait. -/
theorem Level.le_of_next (h : Level config s) (hnext : s.next exactTime = some (s', request))
    {id : TenantId} (hid : Waits s.tenants id) :
    clock s.tenants request.tenant ≤ clock s.tenants id := by
  obtain ⟨t, rest, ht, -, -, hpick⟩ := FairShareScheduler.next_eq_some hnext
  obtain ⟨u, hu, hq⟩ := hid
  rw [clock_of_some ht, clock_of_some hu]
  exact (foldl_better_le hpick).2 id (h.order id u hu) u hu hq

/-- A service advances the clock of the tenant it serves. -/
theorem Level.clock_of_next (h : Level config s)
    (hnext : s.next exactTime = some (s', request)) :
    clock s'.tenants = advance (cost config) (clock s.tenants) request.tenant := by
  obtain ⟨t, rest, ht, -, rfl, -⟩ := FairShareScheduler.next_eq_some hnext
  funext id
  by_cases heq : id = request.tenant
  · subst heq
    unfold FairShareScheduler.serve
    rw [clock_of_some (Function.update_self ..), advance, Function.update_self, clock_of_some ht,
      cost, ← h.weight _ t ht]
    rfl
  · simp [clock, advance, FairShareScheduler.serve, Function.update_of_ne heq]

/-- Whoever waits after a service waited before it. -/
theorem waits_of_next (hnext : s.next exactTime = some (s', request)) {id : TenantId}
    (hid : Waits s'.tenants id) : Waits s.tenants id := by
  obtain ⟨t, rest, ht, hq, rfl, -⟩ := FairShareScheduler.next_eq_some hnext
  rcases waits_update.1 hid with ⟨rfl, -⟩ | ⟨-, hid⟩
  · exact ⟨t, ht, by rw [hq]; exact List.cons_ne_nil _ _⟩
  · exact hid

theorem Level.next (h : Level config s) (hnext : s.next exactTime = some (s', request)) :
    Level config s' := by
  have hclock := h.clock_of_next hnext
  refine ⟨fun id u hu => ?_, fun id u hu => ?_, fun id id' hid hid' => ?_⟩
  · obtain ⟨t, rest, ht, -, rfl, -⟩ := FairShareScheduler.next_eq_some hnext
    by_cases heq : id = request.tenant
    · subst heq
      exact h.order _ t ht
    · simp only [FairShareScheduler.serve, Function.update_of_ne heq] at hu
      exact h.order id u hu
  · obtain ⟨t, rest, ht, -, rfl, -⟩ := FairShareScheduler.next_eq_some hnext
    by_cases heq : id = request.tenant
    · subst heq
      simp only [FairShareScheduler.serve, Function.update_self, Option.some.injEq] at hu
      subst hu
      exact h.weight _ t ht
    · simp only [FairShareScheduler.serve, Function.update_of_ne heq] at hu
      exact h.weight id u hu
  · have hid := waits_of_next hnext hid
    have hid' := waits_of_next hnext hid'
    rw [hclock]
    exact (h.near id id' hid hid').advance (fun _ => share_nonneg _)
      (h.le_of_next hnext hid) (h.le_of_next hnext hid')

/-- The dispatch loop keeps the tenants level, decides soundly, and moves the clocks as its
decisions say. -/
theorem Level.dispatchLoop (h : Level config s) (n : ℕ) :
    Level config (s.dispatchLoop exactTime n).1 ∧
      (∀ d ∈ (s.dispatchLoop exactTime n).2, Sound config d) ∧
        Traced config (clock s.tenants) (s.dispatchLoop exactTime n).2
          (clock (s.dispatchLoop exactTime n).1.tenants) := by
  induction n generalizing s with
  | zero => exact ⟨h, by simp [FairShareScheduler.dispatchLoop], rfl⟩
  | succ n ih =>
    cases hnext : s.next exactTime with
    | none =>
      simp only [FairShareScheduler.dispatchLoop, hnext, List.forall_mem_singleton]
      exact ⟨h, ⟨h.near, by simp⟩, rfl, rfl⟩
    | some p =>
      obtain ⟨s', request⟩ := p
      obtain ⟨hlevel, hsound, htraced⟩ := ih (h.next hnext)
      simp only [FairShareScheduler.dispatchLoop, hnext, List.forall_mem_cons]
      refine ⟨hlevel, ⟨⟨h.near, ?_⟩, hsound⟩, rfl, ?_⟩
      · intro r hr id hid
        cases hr
        exact h.le_of_next hnext hid
      · simpa only [Decision.after, ← h.clock_of_next hnext] using htraced

end Loop

/-! ### Whole runs -/

/-- The picks of sound decisions at which `i` and `j` wait are lawful for the two. -/
theorem lawful_of_traced {config : FairShareConfig} {i j : TenantId}
    {ds : List (Decision ℚ Req Reply)} {v w : TenantId → ℚ} (h : Traced config v ds w)
    (hsound : ∀ d ∈ ds, Sound config d) (hwait : ∀ d ∈ ds, Waits d.before i ∧ Waits d.before j) :
    Lawful (cost config) i j v ((dispatches ds).map Request.tenant) := by
  induction ds generalizing v with
  | nil => trivial
  | cons d ds ih =>
    obtain ⟨rfl, hrest⟩ := h
    obtain ⟨hd, hds⟩ := List.forall_mem_cons.1 hsound
    obtain ⟨⟨hi, hj⟩, hwait⟩ := List.forall_mem_cons.1 hwait
    have htail := ih hrest hds hwait
    cases hchosen : d.chosen with
    | none =>
      rw [Decision.after, hchosen] at htail
      simpa [dispatches, hchosen] using htail
    | some r =>
      rw [Decision.after, hchosen] at htail
      have hpick := And.intro (hd.least r hchosen i hi) (hd.least r hchosen j hj)
      simpa [dispatches, hchosen, Lawful] using And.intro hpick htail

namespace Run

/-- The scheduler is level, its decisions so far were sound, and they account for the clocks. -/
structure Even (config : FairShareConfig) (s : Run ℚ Req Reply) : Prop where
  level : Level config s.sched
  sound : ∀ d ∈ s.decisions, Sound config d
  traced : Traced config (fun _ => 0) s.decisions (clock s.sched.tenants)

variable {config : FairShareConfig} {s s' : Run ℚ Req Reply}

/-- An interval of sound decisions starts from near clocks and serves the two lawfully. -/
theorem Even.abs_served_le (h : s.Even config) {i j : TenantId}
    {interval : List (Decision ℚ Req Reply)} (hin : interval <:+: s.decisions)
    (hwait : ∀ d ∈ interval, Waits d.before i ∧ Waits d.before j) :
    |served i interval • cost config i - served j interval • cost config j| ≤
      cost config i + cost config j := by
  obtain ⟨before, after, hsplit⟩ := hin
  have hcost : ∀ k, 0 ≤ cost config k := fun _ => share_nonneg _
  have hsound : ∀ d ∈ interval, Sound config d := fun d hd => h.sound d (by
    rw [← hsplit]
    exact List.mem_append_left _ (List.mem_append_right _ hd))
  have htraced := h.traced
  rw [← hsplit, traced_append] at htraced
  obtain ⟨w, hfront, -⟩ := htraced
  obtain ⟨v, -, hmid⟩ := traced_append.1 hfront
  cases interval with
  | nil => simpa [served, dispatches] using add_nonneg (hcost i) (hcost j)
  | cons d ds =>
    have hlawful := lawful_of_traced hmid hsound hwait
    obtain ⟨rfl, -⟩ := hmid
    obtain ⟨hi, hj⟩ := hwait d List.mem_cons_self
    exact abs_served_sub_le ((hsound d List.mem_cons_self).near i j hi hj) hcost hlawful

/-- With positive weights the cost of a service is the inverse of the weight. -/
theorem cost_eq (hw : ∀ t ∈ config.tenants, 1 ≤ t.weight) (id : TenantId) :
    cost config id = 1 / (config.weight id : ℚ) := by
  have hpos : 1 ≤ config.weight id := by
    unfold FairShareConfig.weight
    cases hfind : config.tenants.reverse.find? fun t => t.id = id with
    | none => simp
    | some t => simpa using hw t (by simpa using List.mem_of_find?_eq_some hfind)
  rw [cost, share, max_eq_left hpos]

theorem Even.fair (h : s.Even config) (hw : ∀ t ∈ config.tenants, 1 ≤ t.weight) :
    s.Fair config := by
  intro i j interval hin hwait
  have hbound := h.abs_served_le hin hwait
  rw [cost_eq hw, cost_eq hw, nsmul_eq_mul, nsmul_eq_mul] at hbound
  rwa [div_eq_mul_one_div, div_eq_mul_one_div (served j interval : ℚ)]

theorem even_new (config : FairShareConfig) :
    (new exactTime config : Run ℚ Req Reply).Even config where
  level := by
    refine ⟨fun id t ht => ?_, fun id t ht => ?_, fun id id' hid => ?_⟩
    · simp only [new, FairShareScheduler.new, Option.map_eq_some_iff] at ht
      obtain ⟨c, hc, rfl⟩ := ht
      refine (config.mem_order id).2 ⟨c, ?_, ?_⟩
      · simpa using List.mem_of_find?_eq_some hc
      · simpa using List.find?_some hc
    · simp only [new, FairShareScheduler.new, Option.map_eq_some_iff] at ht
      obtain ⟨c, hc, rfl⟩ := ht
      simp [FairShareConfig.weight, hc]
    · obtain ⟨t, ht, hq⟩ := hid
      simp only [new, FairShareScheduler.new, Option.map_eq_some_iff] at ht
      obtain ⟨c, -, rfl⟩ := ht
      exact absurd rfl hq
  sound := by simp [new]
  traced := by
    funext id
    simp only [clock, new, FairShareScheduler.new, Option.map_map]
    cases config.tenants.reverse.find? fun t => t.id = id <;> rfl

/-- A message that changes the scheduler but not its clocks, and then runs the dispatch loop. -/
theorem even_tryDispatch (h : s.Even config) {sched : FairShareScheduler ℚ Req Reply}
    (hlevel : Level config sched) (hclock : clock sched.tenants = clock s.sched.tenants)
    (submitted running : List (Request Req Reply)) (finished : ℕ) (answers : List (Answer Reply)) :
    Even config (record ⟨s.sched, submitted, s.decisions, running, finished, answers⟩
      ⟨(sched.tryDispatch exactTime).1, (sched.tryDispatch exactTime).2, []⟩) := by
  obtain ⟨hlevel', hsound, htraced⟩ := hlevel.dispatchLoop (sched.maxInFlight - sched.inFlight)
  rw [hclock] at htraced
  refine ⟨hlevel', fun d hd => ?_, traced_append.2 ⟨_, h.traced, htraced⟩⟩
  rcases List.mem_append.1 hd with hd | hd
  · exact h.sound d hd
  · exact hsound d hd

/-- A request is queued for a tenant that waits already, or that is near to those that wait. -/
theorem level_enqueue (h : Level config s.sched) {request : Request Req Reply}
    (hok : LabelOk s (.submit request)) {t : TenantState ℚ Req Reply}
    (ht : s.sched.tenants request.tenant = some t) :
    Level config (s.sched.enqueue t request) := by
  have hclock : clock (s.sched.enqueue t request).tenants = clock s.sched.tenants :=
    clock_update ht rfl
  -- the tenant of the request is near to whoever waited before
  have hnear : ∀ id, Waits s.sched.tenants id →
      Near (cost config) request.tenant id (clock s.sched.tenants) := by
    intro id hid
    by_cases hq : t.queue = []
    · obtain ⟨u, hu, hqu⟩ := hid
      have hwin := hok t ht (by simpa using hq) id (h.order id u hu) u hu (by simpa using hqu)
      rw [h.weight _ t ht, h.weight _ u hu] at hwin
      rw [Near, clock_of_some ht, clock_of_some hu]
      exact hwin
    · exact h.near _ id ⟨t, ht, hq⟩ hid
  have hself : Near (cost config) request.tenant request.tenant (clock s.sched.tenants) := by
    simp [Near, cost, share_nonneg]
  refine ⟨fun id u hu => ?_, fun id u hu => ?_, fun id id' hid hid' => ?_⟩
  · by_cases heq : id = request.tenant
    · subst heq
      exact h.order _ t ht
    · simp only [FairShareScheduler.enqueue, Function.update_of_ne heq] at hu
      exact h.order id u hu
  · by_cases heq : id = request.tenant
    · subst heq
      simp only [FairShareScheduler.enqueue, Function.update_self, Option.some.injEq] at hu
      subst hu
      exact h.weight _ t ht
    · simp only [FairShareScheduler.enqueue, Function.update_of_ne heq] at hu
      exact h.weight id u hu
  · rw [hclock]
    rcases waits_update.1 hid with ⟨rfl, -⟩ | ⟨-, hid⟩
    · rcases waits_update.1 hid' with ⟨rfl, -⟩ | ⟨-, hid'⟩
      · exact hself
      · exact hnear id' hid'
    · rcases waits_update.1 hid' with ⟨rfl, -⟩ | ⟨-, hid'⟩
      · exact (hnear id hid).symm
      · exact h.near id id' hid hid'

theorem even_step (h : s.Even config) {l : Label Req Reply} (hok : LabelOk s l)
    (hs : s.step exactTime l = some s') : s'.Even config := by
  cases l with
  | submit request =>
    simp only [step, Option.some.injEq] at hs
    subst hs
    cases ht : s.sched.tenants request.tenant with
    | none =>
      simp only [FairShareScheduler.handle, ht]
      exact ⟨h.level, by simpa [record] using h.sound, by simpa [record] using h.traced⟩
    | some t =>
      simp only [FairShareScheduler.handle, ht]
      exact even_tryDispatch h (level_enqueue h.level hok ht) (clock_update ht rfl) _ _ _ _
  | finished k =>
    simp only [step] at hs
    split at hs
    · cases hs
    · cases hs
      have hlevel : Level config { s.sched with inFlight := s.sched.inFlight - 1 } :=
        ⟨h.level.order, h.level.weight, h.level.near⟩
      exact even_tryDispatch h hlevel rfl _ _ _ _
  | stats reply =>
    cases hs
    exact ⟨h.level, by simpa [record, FairShareScheduler.handle] using h.sound,
      by simpa [record, FairShareScheduler.handle] using h.traced⟩

end Run

/-- **With exact arithmetic and positive weights, in every run in which a tenant that starts to
wait is within one service of every tenant that waits, the services of two tenants over any
interval in which both wait, divided by their weights, differ by at most one service of each.** -/
theorem along_fair (config : FairShareConfig) (hw : ∀ t ∈ config.tenants, 1 ≤ t.weight)
    (ls : List (Label Req Reply))
    (h : (system exactTime config).Meets LabelOk (Run.new exactTime config) ls) :
    (system exactTime config).Along (Run.Fair config) (Run.new exactTime config) ls :=
  Transition.System.along_of_meets (I := Run.Even config) (fun _ hs => hs.fair hw)
    (fun _ _ _ hs hok hstep => Run.even_step hs hok hstep) (Run.even_new config) h

instance decidableLabelOk (s : Run ℚ Req Reply) : ∀ l, Decidable (LabelOk s l)
  | .submit request => inferInstanceAs (Decidable (
      ∀ t ∈ s.sched.tenants request.tenant, t.queue.isEmpty = true →
        ∀ id ∈ s.sched.order, ∀ u ∈ s.sched.tenants id, u.queue.isEmpty = false →
          t.vfinish - u.vfinish ≤ share t.cfg.weight ∧
            u.vfinish - t.vfinish ≤ share u.cfg.weight))
  | .finished _ | .stats _ => inferInstanceAs (Decidable True)

/-- Two tenants, of weights 1 and 3, and one request at a time. -/
def twoTenants : FairShareConfig :=
  ⟨[⟨1, 1⟩, ⟨2, 3⟩], 1, [1, 2], by simp [eq_comm]⟩

theorem fair_from_the_start :
    let ls : List (Label ℕ ℕ) := [.submit ⟨1, 100, 0⟩, .submit ⟨2, 200, 1⟩, .submit ⟨1, 101, 2⟩,
      .submit ⟨2, 201, 3⟩, .finished 0, .finished 0, .finished 0]
    ((system exactTime twoTenants).run (Run.new exactTime twoTenants) ls).isSome = true ∧
      (system exactTime twoTenants).Along (Run.Fair twoTenants) (Run.new exactTime twoTenants) ls := by
  intro ls
  exact ⟨by decide +kernel, along_fair twoTenants (by decide) ls (by decide +kernel)⟩

/-- Two tenants of weight 1. -/
def equalTenants : FairShareConfig :=
  ⟨[⟨1, 1⟩, ⟨2, 1⟩], 1, [1, 2], by simp [eq_comm]⟩

/-- Tenant 1 is served three times while tenant 2 is idle; then both queue. -/
def afterIdling : List (Label ℕ ℕ) :=
  [.submit ⟨1, 100, 0⟩, .finished 0, .submit ⟨1, 101, 1⟩, .finished 0, .submit ⟨1, 102, 2⟩,
    .submit ⟨2, 200, 3⟩, .submit ⟨2, 201, 4⟩, .submit ⟨2, 202, 5⟩, .submit ⟨1, 103, 6⟩,
    .finished 0, .finished 0, .finished 0]

instance decidableWaits (tenants : TenantId → Option (TenantState ℚ Req Reply)) (id : TenantId) :
    Decidable (Waits tenants id) :=
  match h : tenants id with
  | none => isFalse fun ⟨_, ht, _⟩ => by rw [h] at ht; cases ht
  | some t =>
    if hq : t.queue.isEmpty then isFalse fun ⟨t', ht', hq'⟩ => by
      rw [h] at ht'
      cases ht'
      exact hq' (List.isEmpty_iff.1 hq)
    else isTrue ⟨t, h, fun hnil => hq (List.isEmpty_iff.2 hnil)⟩

theorem afterIdling_runs :
    ((system exactTime equalTenants).run (Run.new exactTime equalTenants) afterIdling).isSome =
      true := by
  decide +kernel

/-- The tenant that was idle is then served three times in a row, past the one that waits with
it. -/
theorem idle_tenant_monopolises :
    ¬ (system exactTime equalTenants).Along (Run.Fair equalTenants)
      (Run.new exactTime equalTenants) afterIdling := by
  intro h
  have hend := h.last (Option.some_get afterIdling_runs).symm
  have hbound := hend 1 2 _ (List.drop_suffix 5 _).isInfix (by decide +kernel)
  exact absurd hbound (by decide +kernel)

end FairShare

end AtomrAccel
