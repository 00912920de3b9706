import AtomrAccel.Lib.Liveness

/-!
# A worker between two bounded queues

Producers put items on the head queue, a worker takes them one at a time and puts a result for each
on the tail queue, and a consumer takes the results.  Both queues are bounded, so each side waits for
the next.  The worker stops when the producers have hung up and the head queue is empty, or when it
finds that the consumer has left.

* `State`, `Label`, `step`, `system`: the three parties and the queues;
* `workAll`: what the worker makes of a list of items;
* `Inv`, `inv_step`: nothing is lost, doubled or overtaken while the consumer is there;
* `Inv.length_accepted`: how far the producers can be ahead of the consumer;
* `eventually_delivered`: under weak fairness the result of every accepted item arrives.
-/

namespace Worker

open Transition

variable {E I R F : Type*}

/-- What the worker is doing. -/
inductive Phase (I R : Type*)
  | idle
  | working (item : I)
  /-- a result that has still to go to the tail queue -/
  | passing (result : R)
  | stopped

/-- The two queues, and who is there. -/
structure State (E I R F : Type*) where
  head : List I
  tail : List R
  phase : Phase I R
  /-- what the worker keeps from item to item -/
  worker : E
  /-- some producer is left -/
  producers : Bool
  consumer : Bool
  /-- all items taken on so far -/
  accepted : List I
  /-- the items that have been worked on, with what chance had to do with each -/
  processed : List (I × F)
  /-- all results the consumer has taken -/
  delivered : List R

/-- The steps of the system. -/
inductive Label (I F : Type*)
  | submit (item : I)
  /-- the last producer goes -/
  | hangUp
  | receive
  | finish (chance : F)
  | pass
  | take
  /-- the consumer goes -/
  | leave

variable (work : E → I → F → Option (E × R)) (headSize tailSize : ℕ)

/-- Submitting, receiving, passing and taking wait as long as they return `none`. -/
def step (s : State E I R F) : Label I F → Option (State E I R F)
  | .submit item =>
    match s.phase with
    | .stopped => none
    | .idle | .working _ | .passing _ =>
      if s.producers ∧ s.head.length < headSize then
        some { s with head := s.head ++ [item], accepted := s.accepted ++ [item] }
      else none
  | .hangUp => if s.producers then some { s with producers := false } else none
  | .receive =>
    match s.phase, s.head with
    | .idle, item :: head => some { s with phase := .working item, head := head }
    | .idle, [] => if s.producers then none else some { s with phase := .stopped }
    | _, _ => none
  | .finish chance =>
    match s.phase with
    | .working item =>
      (work s.worker item chance).map fun (worker, result) =>
        { s with
          phase := .passing result
          worker := worker
          processed := s.processed ++ [(item, chance)] }
    | .idle | .passing _ | .stopped => none
  | .pass =>
    match s.phase with
    | .passing result =>
      if ¬ s.consumer then some { s with phase := .stopped, head := [] }
      else if s.tail.length < tailSize then
        some { s with phase := .idle, tail := s.tail ++ [result] }
      else none
    | .idle | .working _ | .stopped => none
  | .take =>
    match s.tail with
    | result :: tail =>
      if s.consumer then some { s with tail := tail, delivered := s.delivered ++ [result] } else none
    | [] => none
  | .leave => if s.consumer then some { s with consumer := false, tail := [] } else none

/-- The worker with its producers and its consumer. -/
def system (worker : E) : System (State E I R F) (Label I F) where
  init := ⟨[], [], .idle, worker, true, true, [], [], []⟩
  step := step work headSize tailSize

/-- What a step can do. -/
inductive Moves (work : E → I → F → Option (E × R)) (headSize tailSize : ℕ) (s : State E I R F) :
    Label I F → State E I R F → Prop
  | submit {item : I} (hphase : s.phase ≠ .stopped) (hproducers : s.producers = true)
      (hroom : s.head.length < headSize) :
      Moves work headSize tailSize s (.submit item)
        { s with head := s.head ++ [item], accepted := s.accepted ++ [item] }
  | hangUp : Moves work headSize tailSize s .hangUp { s with producers := false }
  | receive {item : I} {head : List I} (hphase : s.phase = .idle) (hhead : s.head = item :: head) :
      Moves work headSize tailSize s .receive { s with phase := .working item, head := head }
  | stop (hphase : s.phase = .idle) (hhead : s.head = []) (hproducers : s.producers = false) :
      Moves work headSize tailSize s .receive { s with phase := .stopped }
  | finish {item : I} {chance : F} {worker : E} {result : R} (hphase : s.phase = .working item)
      (hwork : work s.worker item chance = some (worker, result)) :
      Moves work headSize tailSize s (.finish chance)
        { s with
          phase := .passing result
          worker := worker
          processed := s.processed ++ [(item, chance)] }
  | giveUp {result : R} (hphase : s.phase = .passing result) (hconsumer : s.consumer = false) :
      Moves work headSize tailSize s .pass { s with phase := .stopped, head := [] }
  | pass {result : R} (hphase : s.phase = .passing result) (hconsumer : s.consumer = true)
      (hroom : s.tail.length < tailSize) :
      Moves work headSize tailSize s .pass { s with phase := .idle, tail := s.tail ++ [result] }
  | take {result : R} {tail : List R} (htail : s.tail = result :: tail)
      (hconsumer : s.consumer = true) :
      Moves work headSize tailSize s .take
        { s with tail := tail, delivered := s.delivered ++ [result] }
  | leave (hconsumer : s.consumer = true) :
      Moves work headSize tailSize s .leave { s with consumer := false, tail := [] }

variable {work headSize tailSize}

theorem moves_of_step {s s' : State E I R F} {l : Label I F}
    (h : step work headSize tailSize s l = some s') : Moves work headSize tailSize s l s' := by
  obtain ⟨head, tail, phase, worker, producers, consumer, accepted, processed, delivered⟩ := s
  cases l with
  | submit item =>
    cases phase with
    | stopped => cases h
    | _ =>
      simp only [step] at h
      split_ifs at h with hroom
      obtain rfl := Option.some.inj h
      exact .submit nofun hroom.1 hroom.2
  | hangUp =>
    simp only [step] at h
    split_ifs at h
    obtain rfl := Option.some.inj h
    exact .hangUp
  | receive =>
    cases phase with
    | idle =>
      cases head with
      | nil =>
        cases producers with
        | true => cases h
        | false =>
          obtain rfl := Option.some.inj h
          exact .stop rfl rfl rfl
      | cons item head =>
        obtain rfl := Option.some.inj h
        exact .receive rfl rfl
    | _ => cases h
  | finish chance =>
    cases phase with
    | working item =>
      obtain ⟨⟨worker', result⟩, hwork, rfl⟩ := Option.map_eq_some_iff.1 h
      exact .finish rfl hwork
    | _ => cases h
  | pass =>
    cases phase with
    | passing result =>
      cases consumer with
      | false =>
        obtain rfl := Option.some.inj h
        exact .giveUp rfl rfl
      | true =>
        simp only [step, not_true, if_false] at h
        split_ifs at h with hroom
        obtain rfl := Option.some.inj h
        exact .pass rfl rfl hroom
    | _ => cases h
  | take =>
    cases tail with
    | nil => cases h
    | cons result tail =>
      cases consumer with
      | false => cases h
      | true =>
        obtain rfl := Option.some.inj h
        exact .take rfl rfl
  | leave =>
    cases consumer with
    | false => cases h
    | true =>
      obtain rfl := Option.some.inj h
      exact .leave rfl

/-! ## Nothing lost, doubled or overtaken -/

/-- What the worker makes of some items, one after the other. -/
def workAll (work : E → I → F → Option (E × R)) : E → List (I × F) → Option (E × List R)
  | worker, [] => some (worker, [])
  | worker, (item, chance) :: items =>
    (work worker item chance).bind fun (worker', result) =>
      (workAll work worker' items).map fun (worker'', results) => (worker'', result :: results)

theorem workAll_concat {worker worker' worker'' : E} {items : List (I × F)} {results : List R}
    {item : I} {chance : F} {result : R} (h : workAll work worker items = some (worker', results))
    (hwork : work worker' item chance = some (worker'', result)) :
    workAll work worker (items ++ [(item, chance)]) = some (worker'', results ++ [result]) := by
  induction items generalizing worker results with
  | nil =>
    obtain ⟨rfl, rfl⟩ : worker = worker' ∧ [] = results := by simpa [workAll] using h
    simp [workAll, hwork]
  | cons head items ih =>
    obtain ⟨item', chance'⟩ := head
    obtain ⟨⟨next, result'⟩, hnext, hrest⟩ := Option.bind_eq_some_iff.1 h
    obtain ⟨⟨last, results'⟩, hlast, heq⟩ := Option.map_eq_some_iff.1 hrest
    obtain ⟨rfl, rfl⟩ : last = worker' ∧ result' :: results' = results := by simpa using heq
    simp [workAll, hnext, ih hlast]

/-- The item in the worker's hands, and the result. -/
def Phase.item : Phase I R → List I
  | .working item => [item]
  | .idle | .passing _ | .stopped => []

/-- The result the worker has in hand. -/
def Phase.result : Phase I R → List R
  | .passing result => [result]
  | .idle | .working _ | .stopped => []

/-- What holds in every run that starts with `worker`. -/
structure Inv (work : E → I → F → Option (E × R)) (headSize tailSize : ℕ) (worker : E)
    (s : State E I R F) : Prop where
  head : s.head.length ≤ headSize
  tail : s.tail.length ≤ tailSize
  /-- every accepted item is somewhere, unless the worker has given up -/
  items : s.consumer = true ∨ s.phase ≠ .stopped →
    s.accepted = s.processed.map Prod.fst ++ (s.phase.item ++ s.head)
  order : s.processed.map Prod.fst ++ (s.phase.item ++ s.head) <+: s.accepted
  stopped : s.phase = .stopped → s.head = []
  /-- the worker's results are on their way, in order -/
  results : ∃ results, workAll work worker s.processed = some (s.worker, results) ∧
    s.delivered <+: results ∧
    (s.consumer = true → s.delivered ++ (s.tail ++ s.phase.result) = results)

variable {worker : E} {s s' : State E I R F} {l : Label I F}

theorem inv_init : Inv work headSize tailSize worker (system work headSize tailSize worker).init where
  head := Nat.zero_le _
  tail := Nat.zero_le _
  items := fun _ => rfl
  order := List.prefix_rfl
  stopped := fun _ => rfl
  results := ⟨[], rfl, List.prefix_rfl, fun _ => rfl⟩

/-- Nothing is lost, doubled or overtaken. -/
theorem inv_step (h : Inv work headSize tailSize worker s)
    (hs : step work headSize tailSize s l = some s') : Inv work headSize tailSize worker s' := by
  have hmoves := moves_of_step hs
  clear hs
  obtain ⟨head, tail, phase, current, producers, consumer, accepted, processed, delivered⟩ := s
  obtain ⟨hhead, htail, hitems, horder, hstopped, results, hall, hdelivered, hway⟩ := h
  simp only at hhead htail hitems horder hstopped hall hdelivered hway
  cases hmoves with
  | @submit item hphase hproducers hroom =>
    have hall' := hitems (.inr hphase)
    refine ⟨by simpa using hroom, htail, fun _ => ?_, ?_, fun hs => absurd hs hphase, results, hall,
      hdelivered, hway⟩
    · simp [hall']
    · simp [hall']
  | hangUp => exact ⟨hhead, htail, hitems, horder, hstopped, results, hall, hdelivered, hway⟩
  | @receive item rest hphase hrest =>
    obtain rfl : phase = .idle := hphase
    obtain rfl : head = item :: rest := hrest
    refine ⟨?_, htail, fun _ => hitems (.inr nofun), horder, nofun, results, hall, hdelivered, hway⟩
    exact (Nat.le_succ rest.length).trans hhead
  | stop hphase hrest hproducers =>
    obtain rfl : phase = .idle := hphase
    exact ⟨hhead, htail, fun _ => hitems (.inr nofun), horder, fun _ => hrest, results, hall,
      hdelivered, hway⟩
  | @finish item chance next result hphase hwork =>
    obtain rfl : phase = .working item := hphase
    refine ⟨hhead, htail, fun _ => ?_, ?_, nofun, results ++ [result], workAll_concat hall hwork,
      hdelivered.trans (List.prefix_append _ _), fun hc => ?_⟩
    · rw [hitems (.inr nofun)]
      simp [Phase.item]
    · simpa [Phase.item] using horder
    · rw [← hway hc]
      simp [Phase.result]
  | @giveUp result hphase hconsumer =>
    obtain rfl : phase = .passing result := hphase
    obtain rfl : consumer = false := hconsumer
    refine ⟨Nat.zero_le _, htail, fun hor => ?_, ?_, fun _ => rfl, results, hall, hdelivered, nofun⟩
    · rcases hor with hc | hc
      · cases hc
      · exact absurd rfl hc
    · refine List.IsPrefix.trans ?_ horder
      exact List.prefix_append_right_inj _ |>.2 (List.nil_prefix)
  | @pass result hphase hconsumer hroom =>
    obtain rfl : phase = .passing result := hphase
    refine ⟨hhead, by simpa using hroom, fun _ => hitems (.inr nofun), horder, nofun, results, hall,
      hdelivered, fun hc => ?_⟩
    rw [← hway hc]
    simp [Phase.result]
  | @take result rest hrest hconsumer =>
    obtain rfl : tail = result :: rest := hrest
    have heq : (delivered ++ [result]) ++ (rest ++ phase.result) = results := by
      rw [← hway hconsumer]
      simp
    refine ⟨hhead, (Nat.le_succ rest.length).trans htail, hitems, horder, hstopped, results, hall,
      ?_, fun _ => heq⟩
    rw [← heq]
    exact List.prefix_append _ _
  | leave hconsumer =>
    exact ⟨hhead, Nat.zero_le _, fun _ => hitems (.inl hconsumer), horder, hstopped, results, hall,
      hdelivered, nofun⟩

theorem inv_of_run {ls : List (Label I F)}
    (h : (system work headSize tailSize worker).run (system work headSize tailSize worker).init ls =
      some s) : Inv work headSize tailSize worker s := by
  have halong := System.along_of_inv (T := system work headSize tailSize worker)
    (P := Inv work headSize tailSize worker) (fun _ hs => hs)
    (fun _ _ _ hs hstep => inv_step hs hstep) inv_init ls
  exact halong.last h

theorem length_workAll {items : List (I × F)} {results : List R} {worker' : E}
    (h : workAll work worker items = some (worker', results)) :
    results.length = items.length := by
  induction items generalizing worker worker' results with
  | nil =>
    obtain ⟨-, rfl⟩ : worker = worker' ∧ [] = results := by simpa [workAll] using h
    rfl
  | cons head items ih =>
    obtain ⟨item, chance⟩ := head
    obtain ⟨⟨next, result⟩, -, hrest⟩ := Option.bind_eq_some_iff.1 h
    obtain ⟨⟨last, results'⟩, hlast, heq⟩ := Option.map_eq_some_iff.1 hrest
    obtain ⟨-, rfl⟩ : last = worker' ∧ result :: results' = results := by simpa using heq
    rw [List.length_cons, List.length_cons, ih hlast]

/-- Where the results are while the consumer is there. -/
theorem Inv.length_processed (h : Inv work headSize tailSize worker s) (hc : s.consumer = true) :
    s.processed.length = s.delivered.length + s.tail.length + s.phase.result.length := by
  obtain ⟨results, hall, -, hway⟩ := h.results
  rw [← length_workAll hall, ← hway hc, List.length_append, List.length_append, Nat.add_assoc]

/-- The producers are ahead of the consumer by what the queues and the worker hold at most. -/
theorem Inv.length_accepted (h : Inv work headSize tailSize worker s) (hc : s.consumer = true) :
    s.accepted.length ≤ s.delivered.length + headSize + tailSize + 1 := by
  have hprocessed := h.length_processed hc
  have hhead := h.head
  have htail := h.tail
  have hhand : s.phase.item.length + s.phase.result.length ≤ 1 := by
    cases s.phase <;> simp [Phase.item, Phase.result]
  rw [h.items (.inl hc), List.length_append, List.length_append, List.length_map]
  omega

/-! ## Every result arrives -/

/-- Who has to go on. -/
inductive Party
  | worker
  | consumer

/-- Who takes a step. -/
def Label.party : Label I F → Option Party
  | .receive | .finish _ | .pass => some .worker
  | .take => some .consumer
  | .submit _ | .hangUp | .leave => none

/-- Whose turn it is for the result of item `n` to come nearer: the consumer's when the result, or a
full tail queue, is before it. -/
def State.helpful (tailSize n : ℕ) (s : State E I R F) : Party :=
  if n < s.delivered.length + s.tail.length ∨
    s.phase.result ≠ [] ∧ s.tail.length = tailSize then .consumer else .worker

theorem helpful_of_lt {n : ℕ} {s : State E I R F} (h : n < s.delivered.length + s.tail.length) :
    s.helpful tailSize n = .consumer := if_pos (.inl h)

/-- The moves that are left until result `n` has arrived. -/
def State.rank (n : ℕ) (s : State E I R F) : ℕ :=
  if s.consumer then
    2 * (n + 1 - s.processed.length) - s.phase.item.length +
      (n + 1 - (s.delivered.length + s.tail.length)) + (n + 1 - s.delivered.length) + 1
  else 0

/-- What the worker holds when an item is still to come. -/
theorem Inv.exists_worker_step (h : Inv work headSize tailSize worker s) (hc : s.consumer = true)
    {n : ℕ} (hn : n < s.accepted.length) (hrest : s.delivered.length + s.tail.length ≤ n)
    (hroom : s.phase.result ≠ [] → s.tail.length < tailSize)
    (hwork : ∀ worker item, ∃ chance result, work worker item chance = some result) :
    ∃ l s', l.party = some .worker ∧ step work headSize tailSize s l = some s' := by
  have hprocessed := h.length_processed hc
  have hstopped := h.stopped
  have hitems := congrArg List.length (h.items (.inl hc))
  rw [List.length_append, List.length_append, List.length_map] at hitems
  obtain ⟨head, tail, phase, current, producers, consumer, accepted, processed, delivered⟩ := s
  obtain rfl : consumer = true := hc
  simp only at hn hrest hroom hprocessed hstopped hitems
  cases phase with
  | idle =>
    cases head with
    | nil =>
      simp only [Phase.item, Phase.result, List.length_nil] at hprocessed hitems
      omega
    | cons item head => exact ⟨.receive, _, rfl, rfl⟩
  | working item =>
    obtain ⟨chance, result, hresult⟩ := hwork current item
    exact ⟨.finish chance, _, rfl, congrArg (Option.map _) hresult⟩
  | passing result =>
    have hlt : tail.length < tailSize := hroom (List.cons_ne_nil result [])
    exact ⟨.pass, ⟨head, tail ++ [result], .idle, current, producers, true, accepted, processed,
      delivered⟩, rfl, if_pos hlt⟩
  | stopped =>
    rw [hstopped rfl] at hitems
    simp only [Phase.item, Phase.result, List.length_nil] at hprocessed hitems
    omega

/-- Once result `n` is on the tail queue, a step of the worker does not matter for it. -/
theorem rank_of_lt {n : ℕ} (hlt : n < s.delivered.length + s.tail.length)
    (hle : s.delivered.length + s.tail.length ≤ s'.delivered.length + s'.tail.length)
    (hrank : s'.rank n = s.rank n) (hparty : l.party = some .worker) :
    s'.rank n < s.rank n ∨ s'.rank n = s.rank n ∧
      s'.helpful tailSize n = s.helpful tailSize n ∧ l.party ≠ some (s.helpful tailSize n) := by
  refine .inr ⟨hrank, ?_, ?_⟩
  · rw [helpful_of_lt (hlt.trans_le hle), helpful_of_lt hlt]
  · rw [helpful_of_lt hlt, hparty]
    exact nofun

/-- A step brings result `n` nearer, or it is not the step of the party whose turn it is and leaves
everything as it is for that result. -/
theorem Inv.rank_step (h : Inv work headSize tailSize worker s) (hc : s.consumer = true) {n : ℕ}
    (hn : n < s.accepted.length) (hnot : ¬ n < s.delivered.length)
    (hs : step work headSize tailSize s l = some s') :
    s'.rank n < s.rank n ∨ s'.rank n = s.rank n ∧
      s'.helpful tailSize n = s.helpful tailSize n ∧ l.party ≠ some (s.helpful tailSize n) := by
  have hprocessed := h.length_processed hc
  have hitems := congrArg List.length (h.items (.inl hc))
  rw [List.length_append, List.length_append, List.length_map] at hitems
  have hmoves := moves_of_step hs
  clear hs
  obtain ⟨head, tail, phase, current, producers, consumer, accepted, processed, delivered⟩ := s
  obtain rfl : consumer = true := hc
  simp only at hn hnot hprocessed hitems
  cases hmoves with
  | submit hphase hproducers hroom => exact .inr ⟨rfl, rfl, nofun⟩
  | hangUp => exact .inr ⟨rfl, rfl, nofun⟩
  | receive hphase hhead =>
    obtain rfl : phase = .idle := hphase
    simp only [Phase.result, List.length_nil] at hprocessed
    by_cases hlt : processed.length ≤ n
    · left
      simp only [State.rank, Phase.item, List.length_nil, List.length_singleton, if_true]
      omega
    · refine rank_of_lt (by simp only; omega) le_rfl ?_ rfl
      simp only [State.rank, Phase.item, List.length_nil, List.length_singleton, if_true]
      omega
  | stop hphase hhead hproducers =>
    obtain rfl : phase = .idle := hphase
    obtain rfl : head = [] := hhead
    simp only [Phase.item, Phase.result, List.length_nil] at hprocessed hitems
    exact rank_of_lt (by simp only; omega) le_rfl rfl rfl
  | finish hphase hwork =>
    obtain rfl : phase = .working _ := hphase
    simp only [Phase.result, List.length_nil] at hprocessed
    by_cases hlt : processed.length ≤ n
    · left
      simp only [State.rank, Phase.item, List.length_nil, List.length_singleton, if_true,
        List.length_append]
      omega
    · refine rank_of_lt (by simp only; omega) le_rfl ?_ rfl
      simp only [State.rank, Phase.item, List.length_nil, List.length_singleton, if_true,
        List.length_append]
      omega
  | giveUp hphase hconsumer => cases hconsumer
  | pass hphase hconsumer hroom =>
    obtain rfl : phase = .passing _ := hphase
    simp only [Phase.result, List.length_singleton] at hprocessed
    by_cases hlt : delivered.length + tail.length ≤ n
    · left
      simp only [State.rank, Phase.item, List.length_nil, List.length_singleton, if_true,
        List.length_append]
      omega
    · refine rank_of_lt (by simp only; omega) (by simp) ?_ rfl
      simp only [State.rank, Phase.item, List.length_nil, List.length_singleton, if_true,
        List.length_append]
      omega
  | take htail hconsumer =>
    left
    obtain rfl : tail = _ :: _ := htail
    simp only [State.rank, if_true, List.length_append, List.length_cons]
    omega
  | leave hconsumer => exact .inl (Nat.succ_pos _)

theorem length_accepted_le (h : step work headSize tailSize s l = some s') :
    s.accepted.length ≤ s'.accepted.length := by
  cases moves_of_step h with
  | submit hphase hproducers hroom => simp
  | _ => exact le_rfl

/-- In a fair run whose consumer stays, the result of every accepted item is delivered. -/
theorem eventually_delivered (htailSize : 0 < tailSize)
    (hwork : ∀ worker item, ∃ chance result, work worker item chance = some result)
    (ρ : (system work headSize tailSize worker).Endless) (hfair : ρ.Fair Label.party)
    (hconsumer : ∀ k, (ρ.state k).consumer = true) {k n : ℕ}
    (hn : n < (ρ.state k).accepted.length) : ∃ m ≥ k, n < (ρ.state m).delivered.length := by
  have hinv : ∀ m, Inv work headSize tailSize worker (ρ.state m) := by
    intro m
    obtain ⟨ls, hls⟩ := ρ.reachable m
    exact inv_of_run hls
  have haccepted : ∀ m ≥ k, n < (ρ.state m).accepted.length := by
    intro m hm
    induction m, hm using Nat.le_induction with
    | base => exact hn
    | succ m hm ih =>
      refine ih.trans_le ?_
      cases hl : ρ.label m with
      | none => rw [ρ.next_of_none hl]
      | some l => exact length_accepted_le (ρ.next_of_some hl)
  refine ρ.eventually_of_rank
    (I := fun s => Inv work headSize tailSize worker s ∧ s.consumer = true ∧ n < s.accepted.length)
    (G := fun s => n < s.delivered.length) (State.rank n) (State.helpful tailSize n) hfair
    (fun m hm => ⟨hinv m, hconsumer m, haccepted m hm⟩) ?_ ?_
  · rintro s ⟨h, hc, hns⟩ hnot
    by_cases hturn : n < s.delivered.length + s.tail.length ∨
        s.phase.result ≠ [] ∧ s.tail.length = tailSize
    · rw [State.helpful, if_pos hturn]
      cases htail : s.tail with
      | nil =>
        rw [htail, List.length_nil] at hturn
        rcases hturn with hlt | ⟨-, hzero⟩
        · exact absurd hlt hnot
        · omega
      | cons result tail =>
        refine ⟨.take, { s with tail := tail, delivered := s.delivered ++ [result] }, rfl, ?_⟩
        show step work headSize tailSize s .take = _
        simp only [step, htail, hc, if_true]
    · rw [State.helpful, if_neg hturn]
      obtain ⟨hrest, hroom⟩ := not_or.1 hturn
      have hsize := h.tail
      obtain ⟨l, s', hl, hs'⟩ := h.exists_worker_step hc hns (Nat.not_lt.1 hrest)
        (fun hresult => by
          have hne : s.tail.length ≠ tailSize := fun heq => hroom ⟨hresult, heq⟩
          omega) hwork
      exact ⟨l, s', hl, hs'⟩
  · rintro s l s' ⟨h, hc, hns⟩ hnot hs -
    exact h.rank_step hc hns hnot hs

end Worker
