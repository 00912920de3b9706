import AtomrAccel.Device.Error
import AtomrAccel.Lib.Overflow
import AtomrAccel.Lib.Transition

/-!
# `DynamicBatchingServer`

Requests wait in `pending` until the batch is full, a timer armed for its first request finds it
old enough, or a client asks for a flush.  A flush hands the whole batch to the `BatchFn` and
answers every request with the result at its own index; stopping answers what is left with an
error.

* `BatchingConfig`, `DynamicBatchingServer`, `flush`, `handle`, `postStop`: the server, with the
  list of what it does to the outside;
* `serve`, `Answered`, `serve_answered_iff`: over a whole life of the server every request is
  answered once and by its own result, exactly when no `Submit` meets an empty batch of capacity
  zero under `DropOldest`;
* `Timed`, `step`, `NeverStranded`, `along_neverStranded`: with a clock, sleeping timers and a
  mailbox, an open batch always has a timer that will flush it.
-/

namespace AtomrAccel

namespace Batching

open Overflow (isizeMax)

/-- What happens to a request when the batch is full. -/
inductive BatchOverflow
  | reject
  | dropOldest
  deriving DecidableEq, Repr

/-- The configuration.  A `BatchFn` may keep a state of its own, so it is given the number of the
call. -/
structure BatchingConfig (Req Resp : Type) where
  maxBatch : ℕ
  maxWait : ℕ
  batchFn : ℕ → List Req → List (Except GpuError Resp)
  overflow : BatchOverflow

/-- What `Stats` answers. -/
structure BatchingStats where
  flushes : UInt64
  itemsProcessed : UInt64
  itemsDropped : UInt64
  deriving DecidableEq, Repr

/-- The messages of the server. -/
inductive BatchingMsg (Req Reply : Type)
  | submit (req : Req) (reply : Reply)
  | timerFlush
  | flushNow
  | stats (reply : Reply)

/-- What the server does to the outside: the `nth` call of the `BatchFn`, an answer on a reply
channel, or a task that arms a timer at the time `armed`. -/
inductive Effect (Req Resp Reply : Type)
  | call (nth : ℕ) (batch : List (Req × Reply))
  | send (reply : Reply) (result : Except GpuError Resp)
  | sendStats (reply : Reply) (stats : BatchingStats)
  | spawnTimer (armed : ℕ)

/-- The actor.  `calls` is not a field of the source: it counts the calls of the `BatchFn`. -/
structure DynamicBatchingServer (Req Reply : Type) where
  pending : List (Req × Reply)
  batchStartedAt : Option ℕ
  stats : BatchingStats
  calls : ℕ

/-- The error of a batch whose results do not match it. -/
def wrongNumber : GpuError := .unrecoverable "BatchFn returned wrong number of results"

/-- The error of a request that finds no room. -/
def batchFull : GpuError := .unrecoverable "batch full"

/-- The error of a request dropped for a newer one. -/
def droppedByPolicy : GpuError := .unrecoverable "dropped by batching overflow policy"

/-- The error of a request that waits when the server stops. -/
def serverStopped : GpuError := .gpuRefStale "batching server stopped"

variable {Req Resp Reply : Type} (config : BatchingConfig Req Resp)

namespace DynamicBatchingServer

/-- A server with nothing pending. -/
def new : DynamicBatchingServer Req Reply := ⟨[], none, ⟨0, 0, 0⟩, 0⟩

/-- The factory of `props`: `Vec::with_capacity(max_batch)` panics beyond `isize::MAX` bytes, at
`itemBytes` bytes for a pending request. -/
def props (itemBytes : ℕ) : Option (DynamicBatchingServer Req Reply) :=
  if config.maxBatch * itemBytes ≤ isizeMax then some new else none

/-- The sends of a flush: the results in order, or one error for all when their number is wrong. -/
def replies (nth : ℕ) (batch : List (Req × Reply)) : List (Reply × Except GpuError Resp) :=
  let results := config.batchFn nth (batch.map Prod.fst)
  if results.length ≠ batch.length then batch.map fun item => (item.2, .error wrongNumber)
  else (batch.map Prod.snd).zip results

/-- The whole batch is handed over and answered. -/
def flush (s : DynamicBatchingServer Req Reply) :
    DynamicBatchingServer Req Reply × List (Effect Req Resp Reply) :=
  if s.pending.isEmpty then (s, [])
  else
    let n := s.pending.length
    let results := config.batchFn s.calls (s.pending.map Prod.fst)
    let stats := if results.length ≠ n then s.stats else { s.stats with
      flushes := s.stats.flushes + 1
      itemsProcessed := s.stats.itemsProcessed + UInt64.ofNat n }
    (⟨[], none, stats, s.calls + 1⟩,
      .call s.calls s.pending :: (replies config s.calls s.pending).map fun r => .send r.1 r.2)

/-- `Submit` past the overflow check.  The first request of a batch marks its start and arms a
timer; a full batch is flushed at once. -/
def push (now armed : ℕ) (s : DynamicBatchingServer Req Reply) (item : Req × Reply) :
    DynamicBatchingServer Req Reply × List (Effect Req Resp Reply) :=
  let opened := { s with
    pending := s.pending ++ [item]
    batchStartedAt := if s.pending.isEmpty then some now else s.batchStartedAt }
  let timer := if s.pending.isEmpty then [.spawnTimer armed] else []
  if config.maxBatch ≤ opened.pending.length then
    let r := opened.flush config
    (r.1, timer ++ r.2)
  else (opened, timer)

/-- One more item is counted as dropped. -/
def dropped (s : DynamicBatchingServer Req Reply) : DynamicBatchingServer Req Reply :=
  { s with stats := { s.stats with itemsDropped := s.stats.itemsDropped + 1 } }

/-- One message, handled at the time `now`; a timer it asks for is armed at the time `armed`.
`none` is the panic of `pending.remove(0)` on an empty vector. -/
def handle (now armed : ℕ) (s : DynamicBatchingServer Req Reply) : BatchingMsg Req Reply →
    Option (DynamicBatchingServer Req Reply × List (Effect Req Resp Reply))
  | .submit req reply =>
    if config.maxBatch ≤ s.pending.length then
      match config.overflow with
      | .reject => some (s.dropped, [.send reply (.error batchFull)])
      | .dropOldest =>
        match s.pending with
        | [] => none
        | (_, oldest) :: rest =>
          let r := push config now armed { s.dropped with pending := rest } (req, reply)
          some (r.1, .send oldest (.error droppedByPolicy) :: r.2)
    else some (push config now armed s (req, reply))
  | .timerFlush =>
    match s.batchStartedAt with
    | none => some (s, [])
    | some start =>
      -- `elapsed` saturates at zero
      if config.maxWait ≤ now - start then some (s.flush config)
      else some (s, [.spawnTimer armed])
  | .flushNow => some (s.flush config)
  | .stats reply => some (s, [.sendStats reply s.stats])

/-- `post_stop` answers what is still pending. -/
def postStop (s : DynamicBatchingServer Req Reply) : List (Effect Req Resp Reply) :=
  s.pending.map fun item => .send item.2 (.error serverStopped)

end DynamicBatchingServer

/-! ### A whole life of the server -/

/-- A message with the clock readings of its handler. -/
structure Input (Req Reply : Type) where
  now : ℕ
  armed : ℕ
  msg : BatchingMsg Req Reply

/-- The server over a list of messages, with everything it does. -/
def runFrom (s : DynamicBatchingServer Req Reply) : List (Input Req Reply) →
    Option (DynamicBatchingServer Req Reply × List (Effect Req Resp Reply))
  | [] => some (s, [])
  | i :: is =>
    (s.handle config i.now i.armed i.msg).bind fun r =>
      (runFrom r.1 is).map fun r' => (r'.1, r.2 ++ r'.2)

/-- From `props` to `post_stop`. -/
def serve (itemBytes : ℕ) (inputs : List (Input Req Reply)) :
    Option (List (Effect Req Resp Reply)) :=
  (DynamicBatchingServer.props config itemBytes).bind fun s =>
    (runFrom config s inputs).map fun r => r.2 ++ r.1.postStop

/-- The request a message submits. -/
def BatchingMsg.submitted : BatchingMsg Req Reply → List (Req × Reply)
  | .submit req reply => [(req, reply)]
  | .timerFlush | .flushNow | .stats _ => []

/-- The requests submitted, in order. -/
def submissions (inputs : List (Input Req Reply)) : List (Req × Reply) :=
  inputs.flatMap fun i => i.msg.submitted

/-- The answers sent to submitters. -/
def sends (effects : List (Effect Req Resp Reply)) : List (Reply × Except GpuError Resp) :=
  effects.filterMap fun
    | .send reply result => some (reply, result)
    | _ => none

/-- The batches handed to the `BatchFn`. -/
def batches (effects : List (Effect Req Resp Reply)) : List (List (Req × Reply)) :=
  effects.filterMap fun
    | .call _ batch => some batch
    | _ => none

/-- The times at which timers are armed. -/
def timers (effects : List (Effect Req Resp Reply)) : List ℕ :=
  effects.filterMap fun
    | .spawnTimer armed => some armed
    | _ => none

/-- Each call that returns as many results as the batch has requests is followed by the results,
each sent to the request at its index. -/
def Paired : List (Effect Req Resp Reply) → Prop
  | [] => True
  | .call nth batch :: rest =>
    ((config.batchFn nth (batch.map Prod.fst)).length = batch.length →
      (batch.map Prod.snd).zip (config.batchFn nth (batch.map Prod.fst)) <+: sends rest) ∧
    Paired rest
  | _ :: rest => Paired rest

/-- Every request of `requests` is answered once, the batches have between one and `max_batch`
requests (one when `max_batch` is zero) and are cut off the submissions in order, and requests
and results are paired by index. -/
structure Answered (requests : List (Req × Reply)) (effects : List (Effect Req Resp Reply)) :
    Prop where
  once : ((sends effects).map Prod.fst).Perm (requests.map Prod.snd)
  sized : ∀ batch ∈ batches effects, 1 ≤ batch.length ∧ batch.length ≤ max config.maxBatch 1
  ordered : (batches effects).flatten <+: requests
  paired : Paired config effects

section Effects

variable (a b : List (Effect Req Resp Reply))

@[simp] theorem sends_append : sends (a ++ b) = sends a ++ sends b := List.filterMap_append

@[simp] theorem batches_append : batches (a ++ b) = batches a ++ batches b := List.filterMap_append

@[simp] theorem sends_map_send (answers : List (Reply × Except GpuError Resp)) :
    sends (answers.map fun r => (.send r.1 r.2 : Effect Req Resp Reply)) = answers := by
  simp [sends, List.filterMap_map]

@[simp] theorem batches_map_send (answers : List (Reply × Except GpuError Resp)) :
    batches (answers.map fun r => (.send r.1 r.2 : Effect Req Resp Reply)) = [] := by
  simp [batches, List.filterMap_map]

variable {config a b}

theorem paired_map_send (answers : List (Reply × Except GpuError Resp)) :
    Paired config (answers.map fun r => (.send r.1 r.2 : Effect Req Resp Reply)) := by
  induction answers with
  | nil => trivial
  | cons r answers ih => exact ih

theorem Paired.append (ha : Paired config a) (hb : Paired config b) : Paired config (a ++ b) := by
  induction a with
  | nil => exact hb
  | cons e a ih =>
    cases e with
    | call nth batch =>
      refine ⟨fun hlen => ?_, ih ha.2⟩
      exact (ha.1 hlen).trans (sends_append a b ▸ List.prefix_append _ _)
    | send reply result => exact ih ha
    | sendStats reply stats => exact ih ha
    | spawnTimer armed => exact ih ha

end Effects

namespace DynamicBatchingServer

theorem replies_fst (nth : ℕ) (batch : List (Req × Reply)) :
    (replies config nth batch).map Prod.fst = batch.map Prod.snd := by
  unfold replies
  dsimp only
  split_ifs with hlen
  · rw [List.map_map]
    rfl
  · rw [List.map_fst_zip]
    simp [not_not.1 hlen]

section Flush

variable {config} {s : DynamicBatchingServer Req Reply}

theorem flush_of_empty (h : s.pending = []) : s.flush config = (s, []) := by simp [flush, h]

/-- A flush of an open batch: one call with the whole batch, then one answer for each request. -/
theorem flush_of_open (h : s.pending ≠ []) :
    (s.flush config).2 = .call s.calls s.pending ::
      (replies config s.calls s.pending).map fun r => .send r.1 r.2 := by
  simp [flush, h]

@[simp] theorem flush_pending : (s.flush config).1.pending = [] := by
  unfold flush
  split_ifs <;> simp_all

theorem flush_batchStartedAt (h : s.pending ≠ []) :
    (s.flush config).1.batchStartedAt = none := by
  simp [flush, h]

@[simp] theorem sends_flush :
    (sends (s.flush config).2).map Prod.fst = s.pending.map Prod.snd := by
  by_cases h : s.pending = []
  · simp [flush_of_empty h, h, sends]
  · rw [flush_of_open h, ← replies_fst config s.calls s.pending]
    exact congrArg _ (sends_map_send _)

theorem batches_flush :
    batches (s.flush config).2 = if s.pending = [] then [] else [s.pending] := by
  by_cases h : s.pending = []
  · simp [flush_of_empty h, h, batches]
  · rw [flush_of_open h, if_neg h]
    exact congrArg _ (batches_map_send _)

@[simp] theorem flatten_batches_flush : (batches (s.flush config).2).flatten = s.pending := by
  rw [batches_flush]
  split_ifs with h
  · exact h.symm
  · simp

theorem paired_flush : Paired config (s.flush config).2 := by
  by_cases h : s.pending = []
  · rw [flush_of_empty h]
    trivial
  · rw [flush_of_open h]
    refine ⟨fun hlen => ?_, paired_map_send _⟩
    rw [sends_map_send, replies, if_neg (not_not.2 hlen)]

end Flush

section PostStop

variable {config} {s : DynamicBatchingServer Req Reply}

theorem postStop_eq : (s.postStop : List (Effect Req Resp Reply)) =
    (s.pending.map fun item => (item.2, .error serverStopped)).map fun r => .send r.1 r.2 := by
  rw [List.map_map]
  rfl

@[simp] theorem sends_postStop : sends (s.postStop : List (Effect Req Resp Reply)) =
    s.pending.map fun item => (item.2, .error serverStopped) := by
  rw [postStop_eq, sends_map_send]

@[simp] theorem batches_postStop : batches (s.postStop : List (Effect Req Resp Reply)) = [] := by
  rw [postStop_eq, batches_map_send]

theorem paired_postStop : Paired config (s.postStop : List (Effect Req Resp Reply)) := by
  rw [postStop_eq]
  exact paired_map_send _

end PostStop

end DynamicBatchingServer

open DynamicBatchingServer

/-- The bookkeeping inside a handler: the answers sent and the requests pending are those
submitted, no batch is too long, and the batches and the pending requests are the submissions in
order (with `max_batch = 0` nothing ever becomes pending). -/
structure Kept (requests : List (Req × Reply)) (s : DynamicBatchingServer Req Reply)
    (effects : List (Effect Req Resp Reply)) : Prop where
  once : ((sends effects).map Prod.fst ++ s.pending.map Prod.snd).Perm (requests.map Prod.snd)
  sized : ∀ batch ∈ batches effects, 1 ≤ batch.length ∧ batch.length ≤ max config.maxBatch 1
  room : s.pending.length ≤ max config.maxBatch 1
  ordered : if config.maxBatch = 0 then batches effects = [] ∧ s.pending = []
    else (batches effects).flatten ++ s.pending = requests
  paired : Paired config effects

section Kept

variable {config} {requests : List (Req × Reply)} {s : DynamicBatchingServer Req Reply}
  {effects : List (Effect Req Resp Reply)}

theorem Kept.flush (h : Kept config requests s effects) :
    Kept config requests (s.flush config).1 (effects ++ (s.flush config).2) where
  once := by simpa using h.once
  sized := by
    rw [batches_append, batches_flush]
    split_ifs with hopen
    · simpa using h.sized
    · have hpos := List.length_pos_iff.2 hopen
      simp only [List.mem_append, List.mem_singleton]
      rintro batch (hmem | rfl)
      · exact h.sized batch hmem
      · exact ⟨hpos, h.room⟩
  room := by simp
  ordered := by
    have hord := h.ordered
    split_ifs at hord ⊢ with hzero
    · simp [batches_flush, hord]
    · simpa using hord
  paired := h.paired.append paired_flush

/-- A message that changes nothing but the numbers and answers nobody. -/
theorem Kept.quiet {s' : DynamicBatchingServer Req Reply} {new : List (Effect Req Resp Reply)}
    (h : Kept config requests s effects) (hpending : s'.pending = s.pending)
    (hsends : sends new = []) (hbatches : batches new = []) (hnew : Paired config new) :
    Kept config requests s' (effects ++ new) where
  once := by simpa [hpending, hsends] using h.once
  sized := by simpa [hbatches] using h.sized
  room := hpending ▸ h.room
  ordered := by simpa [hpending, hbatches] using h.ordered
  paired := h.paired.append hnew

/-- A request joins a batch that has room for it. -/
theorem Kept.join {s' : DynamicBatchingServer Req Reply} {item : Req × Reply}
    (h : Kept config requests s effects) (hpos : 0 < config.maxBatch)
    (hroom : s.pending.length < max config.maxBatch 1)
    (hpending : s'.pending = s.pending ++ [item]) :
    Kept config (requests ++ [item]) s' effects where
  once := by
    rw [hpending, List.map_append, List.map_append, ← List.append_assoc]
    exact h.once.append_right _
  sized := h.sized
  room := by
    rw [hpending, List.length_append, List.length_singleton]
    exact hroom
  ordered := by
    have hord := h.ordered
    rw [if_neg hpos.ne'] at hord ⊢
    rw [hpending, ← List.append_assoc, hord]
  paired := h.paired

theorem kept_push {now armed : ℕ} {item : Req × Reply} (h : Kept config requests s effects)
    (hpos : 0 < config.maxBatch) (hroom : s.pending.length < max config.maxBatch 1) :
    Kept config (requests ++ [item]) (push config now armed s item).1
        (effects ++ (push config now armed s item).2) ∧
      (push config now armed s item).1.pending.length < max config.maxBatch 1 := by
  set opened : DynamicBatchingServer Req Reply := { s with
    pending := s.pending ++ [item]
    batchStartedAt := if s.pending.isEmpty then some now else s.batchStartedAt }
  set timer : List (Effect Req Resp Reply) :=
    if s.pending.isEmpty then [.spawnTimer armed] else []
  have htimer : sends timer = [] ∧ batches timer = [] ∧ Paired config timer := by
    unfold timer
    split_ifs <;> exact ⟨rfl, rfl, trivial⟩
  have hopen : Kept config (requests ++ [item]) opened (effects ++ timer) :=
    (h.join hpos hroom rfl).quiet rfl htimer.1 htimer.2.1 htimer.2.2
  have hpush : push config now armed s item =
      if config.maxBatch ≤ opened.pending.length then
        ((opened.flush config).1, timer ++ (opened.flush config).2)
      else (opened, timer) := rfl
  rw [hpush]
  split_ifs with hfull
  · refine ⟨?_, ?_⟩
    · rw [← List.append_assoc]
      exact hopen.flush
    · simp
  · exact ⟨hopen, lt_max_of_lt_left (not_le.1 hfull)⟩

/-- A refused request is answered at once. -/
theorem Kept.refuse {s' : DynamicBatchingServer Req Reply} {item : Req × Reply} {e : GpuError}
    (h : Kept config requests s effects) (hzero : config.maxBatch = 0)
    (hpending : s'.pending = s.pending) :
    Kept config (requests ++ [item]) s' (effects ++ [.send item.2 (.error e)]) where
  once := by
    have hnone : s.pending = [] := (if_pos hzero ▸ h.ordered).2
    have hsent := h.once
    rw [hnone, List.map_nil, List.append_nil] at hsent
    rw [hpending, hnone, sends_append, List.map_append, List.map_append, List.map_nil,
      List.append_nil]
    exact hsent.append_right _
  sized := by simpa [batches] using h.sized
  room := hpending ▸ h.room
  ordered := by
    have hord := h.ordered
    rw [if_pos hzero] at hord ⊢
    simpa [batches, hpending] using hord
  paired := h.paired.append trivial

/-- One message: unless it is a `Submit` that `DropOldest` would make room for in a batch of
capacity zero, the handler returns and the books are kept. -/
theorem handle_kept {now armed : ℕ} {msg : BatchingMsg Req Reply}
    (hok : 0 < config.maxBatch ∨ config.overflow = .reject ∨ msg.submitted = [])
    (h : Kept config requests s effects) (hroom : s.pending.length < max config.maxBatch 1) :
    ∃ r, s.handle config now armed msg = some r ∧
      Kept config (requests ++ msg.submitted) r.1 (effects ++ r.2) ∧
      r.1.pending.length < max config.maxBatch 1 := by
  cases msg with
  | submit req reply =>
    by_cases hpos : 0 < config.maxBatch
    · have hfits : ¬ config.maxBatch ≤ s.pending.length := by omega
      refine ⟨push config now armed s (req, reply), ?_, kept_push h hpos hroom⟩
      simp only [handle, if_neg hfits]
    · have hzero : config.maxBatch = 0 := by omega
      have hreject : config.overflow = .reject := by
        simpa [hpos, BatchingMsg.submitted] using hok
      refine ⟨(s.dropped, [.send reply (.error batchFull)]), ?_, ?_⟩
      · simp [handle, hzero, hreject]
      · exact ⟨h.refuse hzero rfl, hroom⟩
  | timerFlush =>
    rw [BatchingMsg.submitted, List.append_nil]
    unfold handle
    cases s.batchStartedAt with
    | none => exact ⟨(s, []), rfl, h.quiet rfl rfl rfl trivial, hroom⟩
    | some start =>
      dsimp only
      split_ifs
      · exact ⟨s.flush config, rfl, h.flush, by simp⟩
      · exact ⟨(s, [.spawnTimer armed]), rfl, h.quiet rfl rfl rfl trivial, hroom⟩
  | flushNow =>
    rw [BatchingMsg.submitted, List.append_nil]
    exact ⟨s.flush config, rfl, h.flush, by simp⟩
  | stats reply =>
    rw [BatchingMsg.submitted, List.append_nil]
    exact ⟨(s, [.sendStats reply s.stats]), rfl, h.quiet rfl rfl rfl trivial, hroom⟩

theorem submissions_cons (i : Input Req Reply) (is : List (Input Req Reply)) :
    submissions (i :: is) = i.msg.submitted ++ submissions is := rfl

theorem runFrom_kept {inputs : List (Input Req Reply)}
    (hok : 0 < config.maxBatch ∨ config.overflow = .reject ∨ submissions inputs = [])
    (h : Kept config requests s effects) (hroom : s.pending.length < max config.maxBatch 1) :
    ∃ r, runFrom config s inputs = some r ∧
      Kept config (requests ++ submissions inputs) r.1 (effects ++ r.2) := by
  induction inputs generalizing requests s effects with
  | nil =>
    refine ⟨(s, []), rfl, ?_⟩
    simpa [submissions] using h
  | cons i is ih =>
    rw [submissions_cons] at hok
    have hhead : 0 < config.maxBatch ∨ config.overflow = .reject ∨ i.msg.submitted = [] :=
      hok.imp_right (Or.imp_right fun hnone => (List.append_eq_nil_iff.1 hnone).1)
    have htail : 0 < config.maxBatch ∨ config.overflow = .reject ∨ submissions is = [] :=
      hok.imp_right (Or.imp_right fun hnone => (List.append_eq_nil_iff.1 hnone).2)
    obtain ⟨r, hr, hkept, hroom'⟩ := handle_kept hhead h hroom
    obtain ⟨r', hr', hkept'⟩ := ih htail hkept hroom'
    refine ⟨(r'.1, r.2 ++ r'.2), ?_, ?_⟩
    · rw [runFrom, hr, Option.bind_some, hr', Option.map_some]
    · rwa [submissions_cons, ← List.append_assoc, ← List.append_assoc]

theorem kept_new : Kept config [] (new : DynamicBatchingServer Req Reply) [] where
  once := List.Perm.refl _
  sized := by simp [batches]
  room := Nat.zero_le _
  ordered := by split_ifs <;> simp [batches, DynamicBatchingServer.new]
  paired := trivial

/-- Stopping answers what is pending. -/
theorem Kept.answered (h : Kept config requests s effects) :
    Answered config requests (effects ++ s.postStop) where
  once := by
    rw [sends_append, sends_postStop, List.map_append, List.map_map]
    exact h.once
  sized := by simpa using h.sized
  ordered := by
    rw [batches_append, batches_postStop, List.append_nil]
    have hord := h.ordered
    split_ifs at hord
    · simp [hord.1]
    · exact ⟨s.pending, hord⟩
  paired := h.paired.append paired_postStop

/-- A message other than `Submit` never panics and adds nothing to the batch. -/
theorem handle_of_no_submit {now armed : ℕ} {msg : BatchingMsg Req Reply}
    (hmsg : msg.submitted = []) (hpending : s.pending = []) :
    ∃ r, s.handle config now armed msg = some r ∧ r.1.pending = [] := by
  cases msg with
  | submit req reply => cases hmsg
  | timerFlush =>
    unfold handle
    cases s.batchStartedAt with
    | none => exact ⟨_, rfl, hpending⟩
    | some start =>
      dsimp only
      split_ifs
      · exact ⟨_, rfl, flush_pending⟩
      · exact ⟨_, rfl, hpending⟩
  | flushNow => exact ⟨_, rfl, flush_pending⟩
  | stats reply => exact ⟨_, rfl, hpending⟩

/-- With capacity zero and `DropOldest` nothing becomes pending, so the first `Submit` finds no
oldest request to drop. -/
theorem runFrom_panics {inputs : List (Input Req Reply)} (hzero : config.maxBatch = 0)
    (hdrop : config.overflow = .dropOldest) (hpending : s.pending = [])
    (hsubmit : submissions inputs ≠ []) : runFrom config s inputs = none := by
  induction inputs generalizing s with
  | nil => exact absurd rfl hsubmit
  | cons i is ih =>
    rw [submissions_cons] at hsubmit
    by_cases hmsg : i.msg.submitted = []
    · have hhandle : ∃ r, s.handle config i.now i.armed i.msg = some r ∧ r.1.pending = [] :=
        handle_of_no_submit hmsg hpending
      obtain ⟨r, hr, hnone⟩ := hhandle
      rw [hmsg, List.nil_append] at hsubmit
      rw [runFrom, hr, Option.bind_some, ih hnone hsubmit, Option.map_none]
    · have hpanic : s.handle config i.now i.armed i.msg = none := by
        cases hcase : i.msg with
        | submit req reply => simp [handle, hzero, hdrop, hpending]
        | timerFlush => exact absurd (by rw [hcase]; rfl) hmsg
        | flushNow => exact absurd (by rw [hcase]; rfl) hmsg
        | stats reply => exact absurd (by rw [hcase]; rfl) hmsg
      rw [runFrom, hpanic, Option.bind_none]

end Kept

/-- The server starts, no handler panics and every request is answered, exactly when the vector
of `max_batch` pending requests can be allocated and no `Submit` meets capacity zero under
`DropOldest`. -/
theorem serve_answered_iff (itemBytes : ℕ) (inputs : List (Input Req Reply)) :
    (∃ effects, serve config itemBytes inputs = some effects ∧
      Answered config (submissions inputs) effects) ↔
    config.maxBatch * itemBytes ≤ isizeMax ∧
      (0 < config.maxBatch ∨ config.overflow = .reject ∨ submissions inputs = []) := by
  unfold serve props
  by_cases halloc : config.maxBatch * itemBytes ≤ isizeMax
  · rw [if_pos halloc, Option.bind_some]
    refine ⟨fun hserve => ⟨halloc, ?_⟩, fun hok => ?_⟩
    · by_contra hbad
      obtain ⟨effects, hrun, -⟩ := hserve
      push Not at hbad
      obtain ⟨hzero, hdrop, hsubmit⟩ := hbad
      have hoverflow : config.overflow = .dropOldest := by
        cases hcase : config.overflow with
        | reject => exact absurd hcase hdrop
        | dropOldest => rfl
      rw [runFrom_panics (Nat.le_zero.1 hzero) hoverflow rfl hsubmit] at hrun
      cases hrun
    · have hroom : (new : DynamicBatchingServer Req Reply).pending.length <
          max config.maxBatch 1 := by simp [DynamicBatchingServer.new]
      obtain ⟨r, hrun, hkept⟩ := runFrom_kept hok.2 kept_new hroom
      exact ⟨r.2 ++ r.1.postStop, by rw [hrun, Option.map_some], hkept.answered⟩
  · rw [if_neg halloc]
    simp [halloc]

/-- With `max_batch = 0` and `DropOldest` the first `Submit` panics. -/
theorem submit_panics_at_capacity_zero :
    ¬ ∃ effects, serve (⟨0, 50, fun _ reqs => reqs.map .ok, .dropOldest⟩ : BatchingConfig ℕ ℕ)
        16 [⟨0, 0, .submit 7 0⟩] = some effects ∧
      Answered (⟨0, 50, fun _ reqs => reqs.map .ok, .dropOldest⟩ : BatchingConfig ℕ ℕ)
        [(7, 0)] effects := by
  rintro ⟨effects, hserve, -⟩
  cases hserve

/-! ### The server with a clock, its timers and its mailbox -/

/-- A message in the mailbox: from a client, or the `TimerFlush` of a timer armed at the time
`armed`. -/
inductive Mail (Req Reply : Type)
  | client (msg : BatchingMsg Req Reply)
  | timer (armed : ℕ)

/-- The message, whoever sent it. -/
def Mail.msg : Mail Req Reply → BatchingMsg Req Reply
  | .client msg => msg
  | .timer _ => .timerFlush

/-- The server with a clock, its sleeping timers and its mailbox. -/
structure Timed (Req Reply : Type) where
  server : DynamicBatchingServer Req Reply
  clock : ℕ
  sleeping : List ℕ
  mailbox : List (Mail Req Reply)

/-- Time passes, a client sends, a sleeping timer fires, or the next message is handled.  The task
of a timer the handler spawns may start late, and arms it `delay` after the handler's clock. -/
inductive Label (Req Reply : Type)
  | tick (elapsed : ℕ)
  | send (msg : BatchingMsg Req Reply)
  | fire (k : ℕ)
  | handle (delay : ℕ)

namespace Timed

/-- The server has handled `mail`, the head of its mailbox. -/
def handled (t : Timed Req Reply) (rest : List (Mail Req Reply))
    (r : DynamicBatchingServer Req Reply × List (Effect Req Resp Reply)) : Timed Req Reply :=
  { t with server := r.1, sleeping := t.sleeping ++ timers r.2, mailbox := rest }

/-- One step of the server, its clock and its timers. -/
def step (t : Timed Req Reply) : Label Req Reply → Option (Timed Req Reply)
  | .tick elapsed => some { t with clock := t.clock + elapsed }
  | .send msg => some { t with mailbox := t.mailbox ++ [.client msg] }
  | .fire k =>
    match t.sleeping[k]? with
    | none => none
    | some armed =>
      if armed + config.maxWait ≤ t.clock then
        some { t with sleeping := t.sleeping.eraseIdx k, mailbox := t.mailbox ++ [.timer armed] }
      else none
  | .handle delay =>
    match t.mailbox with
    | [] => none
    | mail :: rest =>
      (t.server.handle config t.clock (t.clock + delay) mail.msg).map (t.handled rest)

/-- A timer that has not been handled: it sleeps, or its message is in the mailbox. -/
def Outstanding (t : Timed Req Reply) (armed : ℕ) : Prop :=
  armed ∈ t.sleeping ∨ Mail.timer armed ∈ t.mailbox

end Timed

/-- The server just created, at time zero. -/
def system : Transition.System (Timed Req Reply) (Label Req Reply) where
  init := ⟨.new, 0, [], []⟩
  step := Timed.step config

/-- `batch_started_at` marks an open batch; an open batch has an outstanding timer armed at or
after its start, and such a timer's message, whenever it is handled, hands the whole batch to the
`BatchFn` and leaves nothing pending. -/
structure NeverStranded (t : Timed Req Reply) : Prop where
  started_iff : t.server.batchStartedAt.isSome ↔ t.server.pending ≠ []
  timer : ∀ start, t.server.batchStartedAt = some start → ∃ armed, start ≤ armed ∧
    t.Outstanding armed
  flushes : ∀ start armed, t.server.batchStartedAt = some start → start ≤ armed →
    Mail.timer armed ∈ t.mailbox → ∀ now wake, t.clock ≤ now →
    ∃ r, t.server.handle config now wake (Mail.msg (.timer armed)) = some r ∧
      r.1.pending = [] ∧ batches r.2 = [t.server.pending]

namespace DynamicBatchingServer

/-- The start mark agrees with the batch. -/
def Marked (s : DynamicBatchingServer Req Reply) : Prop :=
  s.batchStartedAt.isSome ↔ s.pending ≠ []

/-- What a handler may do to the start mark: the batch is closed, a batch is opened now and a
timer is spawned for it, or the mark is kept, and then a `TimerFlush` has spawned a new timer. -/
def Remarks (now armed : ℕ) (timerFlush : Prop) (s : DynamicBatchingServer Req Reply)
    (r : DynamicBatchingServer Req Reply × List (Effect Req Resp Reply)) : Prop :=
  r.1.batchStartedAt = none ∨
  (r.1.batchStartedAt = some now ∧ armed ∈ timers r.2) ∨
  (r.1.batchStartedAt = s.batchStartedAt ∧ (timerFlush → armed ∈ timers r.2))

section Marked

variable {config} {now armed : ℕ} {s : DynamicBatchingServer Req Reply}

theorem Marked.flush (h : s.Marked) : (s.flush config).1.Marked := by
  by_cases hopen : s.pending = []
  · rwa [flush_of_empty hopen]
  · simp [Marked, flush_batchStartedAt hopen]

theorem Marked.flush_closes (h : s.Marked) : (s.flush config).1.batchStartedAt = none := by
  by_cases hopen : s.pending = []
  · rw [flush_of_empty hopen]
    simpa [Marked, hopen] using h
  · exact flush_batchStartedAt hopen

/-- `push` opens a batch when there is none, and else keeps the mark. -/
theorem push_marked (now armed : ℕ) (item : Req × Reply)
    (h : s.pending ≠ [] → s.batchStartedAt.isSome) :
    (push config now armed s item).1.Marked ∧
      Remarks now armed False s (push config now armed s item) := by
  unfold push
  dsimp only
  by_cases hempty : s.pending = []
  · simp only [hempty, List.isEmpty_nil, if_true, List.nil_append]
    split_ifs with hfull
    · exact ⟨by simp [Marked, DynamicBatchingServer.flush], .inl (flush_batchStartedAt (by simp))⟩
    · exact ⟨by simp [Marked], .inr (.inl ⟨rfl, by simp [timers]⟩)⟩
  · have hmarked := h hempty
    simp only [List.isEmpty_eq_false_iff.2 hempty, Bool.false_eq_true, if_false, List.nil_append]
    split_ifs with hfull
    · exact ⟨by simp [Marked, DynamicBatchingServer.flush], .inl (flush_batchStartedAt (by simp))⟩
    · exact ⟨by simp [Marked, hmarked], .inr (.inr ⟨rfl, False.elim⟩)⟩

/-- A handler of another message than `TimerFlush` need not spawn a timer. -/
theorem Remarks.of_not {s' : DynamicBatchingServer Req Reply} {p : Prop}
    {r : DynamicBatchingServer Req Reply × List (Effect Req Resp Reply)}
    (h : Remarks now armed False s' r) (hs : s'.batchStartedAt = s.batchStartedAt) (hp : ¬ p) :
    Remarks now armed p s r :=
  h.imp_right (Or.imp_right fun hsame => ⟨hsame.1.trans hs, fun htimer => absurd htimer hp⟩)

/-- What a `Submit` can do: a full server refuses it or drops the oldest request for it, and
otherwise it is pushed. -/
theorem handle_submit_cases {req : Req} {reply : Reply}
    {r : DynamicBatchingServer Req Reply × List (Effect Req Resp Reply)}
    (hr : s.handle config now armed (.submit req reply) = some r) :
    (config.maxBatch ≤ s.pending.length ∧ config.overflow = .reject ∧
      r = (s.dropped, [.send reply (.error batchFull)])) ∨
    (config.maxBatch ≤ s.pending.length ∧ config.overflow = .dropOldest ∧
      ∃ oldest rest, s.pending = oldest :: rest ∧
        r = ((push config now armed { s.dropped with pending := rest } (req, reply)).1,
          .send oldest.2 (.error droppedByPolicy) ::
            (push config now armed { s.dropped with pending := rest } (req, reply)).2)) ∨
    (¬ config.maxBatch ≤ s.pending.length ∧ r = push config now armed s (req, reply)) := by
  unfold handle at hr
  dsimp only at hr
  split at hr
  · rename_i hfull
    cases hpolicy : config.overflow with
    | reject =>
      simp only [hpolicy, Option.some.injEq] at hr
      exact .inl ⟨hfull, rfl, hr.symm⟩
    | dropOldest =>
      simp only [hpolicy] at hr
      cases hpending : s.pending with
      | nil => simp [hpending] at hr
      | cons oldest rest =>
        simp only [hpending, Option.some.injEq] at hr
        exact .inr (.inl ⟨hpending ▸ hfull, rfl, oldest, rest, rfl, hr.symm⟩)
  · rename_i hroom
    exact .inr (.inr ⟨hroom, (Option.some.inj hr).symm⟩)

theorem submit_marked {req : Req} {reply : Reply}
    {r : DynamicBatchingServer Req Reply × List (Effect Req Resp Reply)} (h : s.Marked)
    (hr : s.handle config now armed (.submit req reply) = some r) :
    r.1.Marked ∧ Remarks now armed False s r := by
  obtain ⟨-, -, rfl⟩ | ⟨-, -, oldest, rest, hpending, rfl⟩ | ⟨-, rfl⟩ := handle_submit_cases hr
  · exact ⟨h, .inr (.inr ⟨rfl, False.elim⟩)⟩
  · have hstarted : s.batchStartedAt.isSome := h.2 (by simp [hpending])
    -- answering the oldest request spawns no timer
    exact push_marked now armed (req, reply) fun _ => hstarted
  · exact push_marked now armed (req, reply) h.2

/-- One message, as the start mark sees it. -/
theorem handle_marked {msg : BatchingMsg Req Reply}
    {r : DynamicBatchingServer Req Reply × List (Effect Req Resp Reply)} (h : s.Marked)
    (hr : s.handle config now armed msg = some r) :
    r.1.Marked ∧ Remarks now armed (msg = .timerFlush) s r := by
  cases msg with
  | submit req reply =>
    obtain ⟨hmarked, hremarks⟩ := submit_marked h hr
    exact ⟨hmarked, hremarks.of_not rfl (by simp)⟩
  | timerFlush =>
    unfold handle at hr
    cases hstart : s.batchStartedAt with
    | none =>
      simp only [hstart, Option.some.injEq] at hr
      subst hr
      exact ⟨h, .inl hstart⟩
    | some start =>
      simp only [hstart] at hr
      split_ifs at hr
      · cases hr
        exact ⟨h.flush, .inl h.flush_closes⟩
      · cases hr
        exact ⟨h, .inr (.inr ⟨rfl, fun _ => by simp [timers]⟩)⟩
  | flushNow =>
    cases hr
    exact ⟨h.flush, .inl h.flush_closes⟩
  | stats reply =>
    cases hr
    exact ⟨h, .inr (.inr ⟨rfl, by simp⟩)⟩

end Marked

end DynamicBatchingServer

/-- The invariant: the mark agrees with the batch and is not in the future, the open batch has a
timer, and a timer's message is in the mailbox only after the timer's wait. -/
structure Clocked (t : Timed Req Reply) : Prop where
  marked : t.server.Marked
  timer : ∀ start, t.server.batchStartedAt = some start → ∃ armed, start ≤ armed ∧
    t.Outstanding armed
  started_le : ∀ start, t.server.batchStartedAt = some start → start ≤ t.clock
  due : ∀ armed, Mail.timer armed ∈ t.mailbox → armed + config.maxWait ≤ t.clock

section Clocked

variable {config} {t t' : Timed Req Reply}

theorem clocked_init :
    Clocked config (system config : Transition.System (Timed Req Reply) _).init :=
  { marked := by simp [system, Marked, DynamicBatchingServer.new]
    timer := nofun
    started_le := nofun
    due := nofun }

theorem Clocked.tick (h : Clocked config t) (elapsed : ℕ) :
    Clocked config { t with clock := t.clock + elapsed } :=
  { marked := h.marked
    timer := h.timer
    started_le := fun start hstart => (h.started_le start hstart).trans (Nat.le_add_right _ _)
    due := fun armed hmem => (h.due armed hmem).trans (Nat.le_add_right _ _) }

theorem Clocked.send (h : Clocked config t) (msg : BatchingMsg Req Reply) :
    Clocked config { t with mailbox := t.mailbox ++ [.client msg] } :=
  { marked := h.marked
    timer := by
      intro start hstart
      obtain ⟨armed, hle, hout⟩ := h.timer start hstart
      exact ⟨armed, hle, hout.imp_right fun hmem => List.mem_append_left _ hmem⟩
    started_le := h.started_le
    due := by
      intro armed hmem
      simp only [List.mem_append, List.mem_singleton, reduceCtorEq, or_false] at hmem
      exact h.due armed hmem }

/-- A timer that fires stays outstanding. -/
theorem Clocked.fire {k armed : ℕ} (h : Clocked config t) (hk : t.sleeping[k]? = some armed)
    (hdue : armed + config.maxWait ≤ t.clock) :
    Clocked config { t with
      sleeping := t.sleeping.eraseIdx k, mailbox := t.mailbox ++ [.timer armed] } :=
  { marked := h.marked
    timer := by
      intro start hstart
      obtain ⟨armed', hle, hsleep | hmail⟩ := h.timer start hstart
      · by_cases hsame : armed' = armed
        · exact ⟨armed', hle, .inr (by simp [hsame])⟩
        · refine ⟨armed', hle, .inl ?_⟩
          obtain ⟨j, hj, rfl⟩ := List.mem_iff_getElem.1 hsleep
          have hjk : j ≠ k := by
            rintro rfl
            rw [List.getElem?_eq_getElem hj, Option.some.injEq] at hk
            exact hsame hk
          exact List.mem_eraseIdx_iff_getElem.2 ⟨j, hj, hjk, rfl⟩
      · exact ⟨armed', hle, .inr (List.mem_append_left _ hmail)⟩
    started_le := h.started_le
    due := by
      intro armed' hmem
      simp only [List.mem_append, List.mem_singleton, Mail.timer.injEq] at hmem
      obtain hmem | rfl := hmem
      · exact h.due armed' hmem
      · exact hdue }

/-- Handling a message: whatever becomes of the batch, a batch that is open afterwards has a
timer, spawned by this handler or outstanding before and not the one whose message was handled. -/
theorem Clocked.handle {delay : ℕ} {mail : Mail Req Reply} {rest : List (Mail Req Reply)}
    {r : DynamicBatchingServer Req Reply × List (Effect Req Resp Reply)} (h : Clocked config t)
    (hmail : t.mailbox = mail :: rest)
    (hr : t.server.handle config t.clock (t.clock + delay) mail.msg = some r) :
    Clocked config (t.handled rest r) := by
  obtain ⟨hmarked, hremarks⟩ := handle_marked h.marked hr
  have hspawned : ∀ start, start ≤ t.clock → t.clock + delay ∈ timers r.2 →
      ∃ armed, start ≤ armed ∧ (t.handled rest r).Outstanding armed := fun start hle hmem =>
    ⟨t.clock + delay, hle.trans (Nat.le_add_right _ _), .inl (List.mem_append_right _ hmem)⟩
  refine ⟨hmarked, fun start hstart => ?_, fun start hstart => ?_, fun armed hmem => ?_⟩
  · obtain hclosed | ⟨hnow, htimer⟩ | ⟨hsame, htimer⟩ := hremarks
    · cases hclosed.symm.trans hstart
    · obtain rfl : t.clock = start := Option.some.inj (hnow.symm.trans hstart)
      exact hspawned _ le_rfl htimer
    · have hold : t.server.batchStartedAt = some start := hsame.symm.trans hstart
      by_cases hmsg : mail.msg = .timerFlush
      · exact hspawned start (h.started_le start hold) (htimer hmsg)
      · obtain ⟨armed, hle, hsleep | hin⟩ := h.timer start hold
        · exact ⟨armed, hle, .inl (List.mem_append_left _ hsleep)⟩
        · rw [hmail] at hin
          obtain heq | hin := List.mem_cons.1 hin
          · exact absurd (heq ▸ rfl) hmsg
          · exact ⟨armed, hle, .inr hin⟩
  · obtain hclosed | ⟨hnow, -⟩ | ⟨hsame, -⟩ := hremarks
    · cases hclosed.symm.trans hstart
    · exact (Option.some.inj (hnow.symm.trans hstart)).ge
    · exact h.started_le start (hsame.symm.trans hstart)
  · exact h.due armed (hmail ▸ List.mem_cons_of_mem _ hmem)

theorem Clocked.step {l : Label Req Reply} (h : Clocked config t)
    (hs : (system config).step t l = some t') : Clocked config t' := by
  cases l with
  | tick elapsed =>
    cases hs
    exact h.tick elapsed
  | send msg =>
    cases hs
    exact h.send msg
  | fire k =>
    simp only [system, Timed.step] at hs
    split at hs
    · cases hs
    · rename_i armed hk
      split_ifs at hs with hdue
      cases hs
      exact h.fire hk hdue
  | handle delay =>
    simp only [system, Timed.step] at hs
    split at hs
    · cases hs
    · rename_i mail rest hmail
      obtain ⟨r, hr, rfl⟩ := Option.map_eq_some_iff.1 hs
      exact h.handle hmail hr

theorem Clocked.neverStranded (h : Clocked config t) : NeverStranded config t where
  started_iff := h.marked
  timer := h.timer
  flushes := by
    intro start armed hstart hle hmem now wake hnow
    have hold : config.maxWait ≤ now - start := by
      have := h.due armed hmem
      omega
    have hopen : t.server.pending ≠ [] := h.marked.1 (by simp [hstart])
    refine ⟨t.server.flush config, ?_, flush_pending, ?_⟩
    · simp only [Mail.msg, DynamicBatchingServer.handle, hstart, if_pos hold]
    · rw [batches_flush, if_neg hopen]

end Clocked

/-- No run strands a request. -/
theorem along_neverStranded (ls : List (Label Req Reply)) :
    (system config).Along (NeverStranded config) (system config).init ls :=
  Transition.System.along_of_inv (fun _ h => Clocked.neverStranded h)
    (fun _ _ _ h hs => h.step hs) clocked_init ls

end Batching

end AtomrAccel
