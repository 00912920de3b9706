import AtomrAccel.Lib.Transition

/-!
# `ReplayHarness`

The harness keeps the recorded entries in memory and mirrors each of them to a persistent journal,
which takes an entry only under the number that follows its highest one.  The harness counts these
numbers itself.  It asks the journal for the highest one before its first write, and counts on
before it knows whether a write succeeded: after one failed write its numbers are ahead of the
journal's for good, and every later write is refused.

* `JournalEntry`, `PersistentRepr`, `Journal`, `Json`: entries, and what they are stored as;
* `ReplayHarness`, `writeToJournal`, `handle`: the actor and its messages;
* `Recording`, `step`: runs of `Record` messages, with backend calls that fail anywhere;
* `Persisted`, `InSync`, `persisted_iff`: every entry whose own calls succeed is persisted exactly
  when each such entry finds the counter in step with the journal;
* `synced_of_no_failed_write`: the counter is in step as long as no write has failed.
-/

namespace AtomrAccel

namespace Replay

/-- What the harness does with entries. -/
inductive ReplayMode
  | off
  | record
  | replay
  deriving DecidableEq, Repr

/-- The entries of the journal. -/
inductive JournalEntry
  | deviceCmd (tsMicros : UInt64) (name payload : String)
  | kernelCmd (tsMicros : UInt64) (kind payload : String)
  | rngSeed (actorPath : String) (seed : UInt64)
  | batchSize (actorPath : String) (size : ℕ)
  deriving DecidableEq, Repr

/-- Commands get the time of their recording. -/
def JournalEntry.stamp (ts : UInt64) : JournalEntry → JournalEntry
  | .deviceCmd _ name payload => .deviceCmd ts name payload
  | .kernelCmd _ kind payload => .kernelCmd ts kind payload
  | .rngSeed actorPath seed => .rngSeed actorPath seed
  | .batchSize actorPath size => .batchSize actorPath size

/-- An entry as it is stored, under its number. -/
structure PersistentRepr where
  persistenceId : String
  sequenceNr : UInt64
  payload : List UInt8
  manifest : String
  writerUuid : String
  deleted : Bool
  tags : List String
  deriving DecidableEq, Repr

/-- The codec of the entries. -/
structure Json where
  toVec : JournalEntry → Except String (List UInt8)
  fromSlice : List UInt8 → Except String JournalEntry

/-- The codec decodes what it encoded. -/
def Json.RoundTrips (json : Json) (entry : JournalEntry) : Prop :=
  ∃ payload, json.toVec entry = .ok payload ∧ json.fromSlice payload = .ok entry

/-! ### The journal of one persistence id -/

/-- What is stored, in the order of the numbers. -/
structure Journal where
  stored : List PersistentRepr
  ascending : stored.Pairwise fun r r' => r.sequenceNr < r'.sequenceNr

namespace Journal

/-- Nothing has been stored. -/
def empty : Journal := ⟨[], .nil⟩

/-- The highest number stored, zero in an empty journal. -/
def highestSequenceNr (journal : Journal) : UInt64 :=
  journal.stored.getLast?.elim 0 (·.sequenceNr)

theorem le_highestSequenceNr (journal : Journal) {r : PersistentRepr} (hr : r ∈ journal.stored) :
    r.sequenceNr ≤ journal.highestSequenceNr := by
  obtain ⟨front, last, hstored⟩ :=
    List.eq_nil_or_concat' journal.stored |>.resolve_left (List.ne_nil_of_mem hr)
  have hhighest : journal.highestSequenceNr = last.sequenceNr := by
    rw [highestSequenceNr, hstored, List.getLast?_concat]
    rfl
  rw [hhighest]
  have hascending := journal.ascending
  rw [hstored] at hr hascending
  rcases List.mem_append.1 hr with hfront | hlast
  · exact UInt64.le_of_lt ((List.pairwise_append.1 hascending).2.2 r hfront last
      (List.mem_singleton_self _))
  · rw [List.mem_singleton.1 hlast]
    exact UInt64.le_refl _

/-- `write_messages` of one entry, which has to have the next number. -/
def writeMessage (journal : Journal) (repr : PersistentRepr) : Option Journal :=
  if h : repr.sequenceNr.toNat = journal.highestSequenceNr.toNat + 1 then
    some {
      stored := journal.stored ++ [repr]
      ascending := by
        refine List.pairwise_append.2 ⟨journal.ascending, List.pairwise_singleton _ _, ?_⟩
        intro r hr r' hr'
        obtain rfl := List.mem_singleton.1 hr'
        have hle := UInt64.le_iff_toNat_le.1 (journal.le_highestSequenceNr hr)
        exact UInt64.lt_iff_toNat_lt.2 (by omega) }
  else none

theorem writeMessage_eq_none {journal : Journal} {r : PersistentRepr} :
    journal.writeMessage r = none ↔
      r.sequenceNr.toNat ≠ journal.highestSequenceNr.toNat + 1 := by
  unfold writeMessage
  split_ifs with h <;> simp [h]

theorem writeMessage_eq_some {journal journal' : Journal} {r : PersistentRepr}
    (h : journal.writeMessage r = some journal') :
    r.sequenceNr.toNat = journal.highestSequenceNr.toNat + 1 ∧
      journal'.stored = journal.stored ++ [r] := by
  unfold writeMessage at h
  split_ifs at h with hnext
  cases h
  exact ⟨hnext, rfl⟩

/-- `replay_messages`. -/
def replayMessages (journal : Journal) (fromSequenceNr toSequenceNr max : UInt64) :
    List PersistentRepr :=
  (journal.stored.filter fun r =>
    decide (fromSequenceNr ≤ r.sequenceNr) && decide (r.sequenceNr ≤ toSequenceNr)).take max.toNat

end Journal

/-! ### The actor -/

/-- The id of the journal, and the number of the next entry. -/
structure PersistenceState where
  persistenceId : String
  nextSeq : UInt64

/-- The actor. -/
structure ReplayHarness where
  mode : ReplayMode
  journal : List JournalEntry
  persistence : Option PersistenceState

/-- A harness that persists what it records. -/
def ReplayHarness.withJournal (mode : ReplayMode) (persistenceId : String) : ReplayHarness :=
  ⟨mode, [], some ⟨persistenceId, 0⟩⟩

/-- The outside of one message: the time since the start, which backend calls fail and with what
text, and the text of a refused write. -/
structure Env where
  elapsedMicros : UInt64
  highest : Option String
  write : Option String
  replay : Option String
  refused : String

/-- The number before the one to use: the counter, or what the journal says while it is zero. -/
def lazyInit (p : PersistenceState) (store : Journal) (env : Env) : Except String UInt64 :=
  if p.nextSeq = 0 then
    match env.highest with
    | some e => .error ("highest_seq: " ++ e)
    | none => .ok store.highestSequenceNr
  else .ok p.nextSeq

/-- The counter is set before the write. -/
def writeToJournal (json : Json) (p : PersistenceState) (store : Journal) (entry : JournalEntry)
    (env : Env) : PersistenceState × Journal × Except String Unit :=
  match json.toVec entry with
  | .error e => (p, store, .error ("serde: " ++ e))
  | .ok payload =>
    match lazyInit p store env with
    | .error e => (p, store, .error e)
    | .ok s =>
      let seq := s + 1
      let p := { p with nextSeq := seq }
      let repr : PersistentRepr := {
        persistenceId := p.persistenceId
        sequenceNr := seq
        payload := payload
        manifest := "atomr_accel_cuda::replay::JournalEntry"
        writerUuid := "atomr-accel-cuda"
        deleted := false
        tags := [] }
      match env.write with
      | some e => (p, store, .error ("write_messages: " ++ e))
      | none =>
        match store.writeMessage repr with
        | none => (p, store, .error ("write_messages: " ++ env.refused))
        | some store => (p, store, .ok ())

/-- `u64::MAX`. -/
def u64Max : UInt64 := 0xffffffffffffffff

/-- The entries of the stored messages, or the first that cannot be decoded. -/
def decodeAll (json : Json) : List PersistentRepr → Except String (List JournalEntry)
  | [] => .ok []
  | r :: rs =>
    match json.fromSlice r.payload with
    | .error e => .error ("decode seq=" ++ toString r.sequenceNr.toNat ++ ": " ++ e)
    | .ok entry => (decodeAll json rs).map (entry :: ·)

/-- The messages of the harness. -/
inductive ReplayMsg
  | record (entry : JournalEntry)
  | snapshot
  | setMode (mode : ReplayMode)
  | loadJournal (entries : List JournalEntry)
  | replayAll
  | loadFromJournal (fromSequenceNr max : UInt64)

/-- What goes back on the reply channels. -/
inductive Reply
  | entries (entries : List JournalEntry)
  | done
  | loaded (result : Except String ℕ)

/-- One message, with what the backend and the codec answer. -/
def handle (json : Json) (env : Env) (h : ReplayHarness) (store : Journal) :
    ReplayMsg → ReplayHarness × Journal × Option Reply
  | .record entry =>
    match h.mode with
    | .record =>
      let entry := entry.stamp env.elapsedMicros
      let h := { h with journal := h.journal ++ [entry] }
      match h.persistence with
      | none => (h, store, none)
      | some p =>
        -- an error is only logged
        let r := writeToJournal json p store entry env
        ({ h with persistence := some r.1 }, r.2.1, none)
    | .off | .replay => (h, store, none)
  | .snapshot => (h, store, some (.entries h.journal))
  | .setMode mode => ({ h with mode := mode }, store, none)
  | .loadJournal entries => ({ h with journal := entries }, store, some .done)
  | .replayAll => (h, store, none)
  | .loadFromJournal fromSequenceNr max =>
    match h.persistence with
    | none => (h, store, some (.loaded (.error "no persistence backend attached")))
    | some _ =>
      match env.replay with
      | some e => (h, store, some (.loaded (.error ("journal replay failed: " ++ e))))
      | none =>
        match decodeAll json (store.replayMessages fromSequenceNr u64Max max) with
        | .error e => (h, store, some (.loaded (.error e)))
        | .ok decoded =>
          ({ h with journal := decoded }, store, some (.loaded (.ok decoded.length)))

/-! ### Runs of `Record` -/

/-- The backend calls made for an entry do not fail: the counter is not asked for or the journal
answers, and the write gets through. -/
def PersistenceState.CallsOk (p : PersistenceState) (env : Env) : Prop :=
  (p.nextSeq = 0 → env.highest = none) ∧ env.write = none

instance (p : PersistenceState) (env : Env) : Decidable (p.CallsOk env) :=
  inferInstanceAs (Decidable ((p.nextSeq = 0 → env.highest = none) ∧ env.write = none))

/-- The counter is in step with the journal: not asked for yet, or the highest number stored. -/
def PersistenceState.Synced (p : PersistenceState) (store : Journal) : Prop :=
  p.nextSeq = 0 ∨ p.nextSeq = store.highestSequenceNr

/-- The harness and its journal, with the entries recorded so far, each with whether its own
backend calls succeeded. -/
structure Recording where
  harness : ReplayHarness
  store : Journal
  recorded : List (JournalEntry × Bool)

namespace Recording

variable {json : Json}

/-- The backend does what it is asked to. -/
def callsOk (s : Recording) (env : Env) : Bool :=
  s.harness.persistence.any fun p => decide (p.CallsOk env)

/-- An entry to record and what happens meanwhile.  The codec decodes what is written for it. -/
structure Take (json : Json) where
  entry : JournalEntry
  env : Env
  roundTrips : json.RoundTrips (entry.stamp env.elapsedMicros)

/-- The entry with its time. -/
def Take.stamped (l : Take json) : JournalEntry := l.entry.stamp l.env.elapsedMicros

/-- One `Record`. -/
def step (s : Recording) (l : Take json) : Option Recording :=
  let r := handle json l.env s.harness s.store (.record l.entry)
  some ⟨r.1, r.2.1, s.recorded ++ [(l.stamped, s.callsOk l.env)]⟩

/-- A harness in `Record` mode on a journal with any history. -/
def system (json : Json) (persistenceId : String) (initial : Journal) :
    Transition.System Recording (Take json) where
  init := ⟨.withJournal .record persistenceId, initial, []⟩
  step := step

/-- What has been persisted since the start. -/
def persisted (initial : Journal) (s : Recording) : List PersistentRepr :=
  s.store.stored.drop initial.stored.length

/-- Every entry whose own calls succeeded has been persisted, what has been persisted is a
subsequence of the entries in memory and numbered without gaps, and when nothing has failed on an
empty journal, loading it gives back what is in memory. -/
structure Persisted (json : Json) (initial : Journal) (s : Recording) : Prop where
  entries : (s.persisted initial).map (fun r => json.fromSlice r.payload) =
    (s.recorded.filter (·.2)).map fun a => .ok a.1
  sublist : ∃ entries : List JournalEntry, entries.Sublist s.harness.journal ∧
    (s.persisted initial).map (fun r => json.fromSlice r.payload) = entries.map .ok
  contiguous : (s.persisted initial).map (·.sequenceNr.toNat) =
    (List.range (s.persisted initial).length).map (initial.highestSequenceNr.toNat + 1 + ·)
  loads : initial.stored = [] → (∀ a ∈ s.recorded, a.2 = true) → ∀ env : Env, env.replay = none →
    let r := handle json env s.harness s.store (.loadFromJournal 1 u64Max)
    r.2.2 = some (.loaded (.ok s.harness.journal.length)) ∧
      (handle json env r.1 r.2.1 .snapshot).2.2 =
        (handle json env s.harness s.store .snapshot).2.2

/-- An entry whose own calls succeed finds the counter in step with the journal, and a number left
for it. -/
def InSync (s : Recording) (l : Take json) : Prop :=
  ∀ p ∈ s.harness.persistence, p.CallsOk l.env →
    p.Synced s.store ∧ s.store.highestSequenceNr ≠ u64Max

/-- The next number is the journal's next number exactly when the counter is in step. -/
theorem next_eq_iff (p : PersistenceState) (store : Journal) :
    ((if p.nextSeq = 0 then store.highestSequenceNr else p.nextSeq) + 1).toNat =
        store.highestSequenceNr.toNat + 1 ↔
      p.Synced store ∧ store.highestSequenceNr ≠ u64Max := by
  have hmax : store.highestSequenceNr = u64Max ↔ store.highestSequenceNr.toNat = 2 ^ 64 - 1 := by
    rw [← UInt64.toNat_inj]
    rfl
  have hlt := store.highestSequenceNr.toNat_lt
  have hlt' := p.nextSeq.toNat_lt
  rw [UInt64.toNat_add, Ne, hmax, PersistenceState.Synced]
  have hone : (1 : UInt64).toNat = 1 := rfl
  rw [hone]
  by_cases hzero : p.nextSeq = 0
  · rw [if_pos hzero]
    simp only [hzero, true_or, true_and]
    omega
  · rw [if_neg hzero, ← UInt64.toNat_inj (a := p.nextSeq) (b := store.highestSequenceNr)]
    simp only [hzero, false_or]
    omega

/-- The outcomes of a write: a backend call fails, the journal refuses the number, or the entry is
stored under the next one. -/
inductive Writes (p : PersistenceState) (store : Journal) (l : Take json) :
    PersistenceState → Journal → Prop
  | failed {p' : PersistenceState} (hcalls : ¬ p.CallsOk l.env)
      (hp' : l.env.write = none → p' = p) : Writes p store l p' store
  | refused {p' : PersistenceState} (hcalls : p.CallsOk l.env)
      (hsync : ¬ (p.Synced store ∧ store.highestSequenceNr ≠ u64Max))
      (hp' : p.Synced store → p'.nextSeq = 0) : Writes p store l p' store
  | stored {p' : PersistenceState} {store' : Journal} {r : PersistentRepr}
      (hcalls : p.CallsOk l.env)
      (hsync : p.Synced store ∧ store.highestSequenceNr ≠ u64Max)
      (hp' : p'.nextSeq = store'.highestSequenceNr) (hstore : store'.stored = store.stored ++ [r])
      (hr : r.sequenceNr.toNat = store.highestSequenceNr.toNat + 1)
      (hpayload : json.fromSlice r.payload = .ok l.stamped) : Writes p store l p' store'

variable {persistenceId : String} {initial : Journal} {s s' : Recording} {l : Take json}
  {p : PersistenceState}

theorem highestSequenceNr_of_append {store : Journal} {stored : List PersistentRepr}
    {r : PersistentRepr} (h : store.stored = stored ++ [r]) :
    store.highestSequenceNr = r.sequenceNr := by
  rw [Journal.highestSequenceNr, h, List.getLast?_concat]
  rfl

/-- The counter stays in step at the last number as well: it starts over from zero. -/
theorem next_eq_zero {store : Journal} (hp : p.Synced store)
    (hsync : ¬ (p.Synced store ∧ store.highestSequenceNr ≠ u64Max)) :
    (if p.nextSeq = 0 then store.highestSequenceNr else p.nextSeq) + 1 = 0 := by
  have hfull : store.highestSequenceNr = u64Max := by
    by_contra hne
    exact hsync ⟨hp, hne⟩
  rcases hp with hzero | hsame
  · rw [if_pos hzero, hfull]
    rfl
  · rw [hsame, ite_self, hfull]
    rfl

theorem lazyInit_of_ok {store : Journal} {env : Env} (h : p.CallsOk env) :
    lazyInit p store env = .ok (if p.nextSeq = 0 then store.highestSequenceNr else p.nextSeq) := by
  unfold lazyInit
  by_cases hzero : p.nextSeq = 0
  · rw [if_pos hzero, if_pos hzero, h.1 hzero]
  · rw [if_neg hzero, if_neg hzero]

theorem writes_of_calls {store : Journal} (hcalls : p.CallsOk l.env) :
    Writes p store l (writeToJournal json p store l.stamped l.env).1
      (writeToJournal json p store l.stamped l.env).2.1 := by
  obtain ⟨payload, hpayload, hdecode⟩ := l.roundTrips
  unfold writeToJournal Take.stamped
  rw [hpayload]
  dsimp only
  rw [lazyInit_of_ok hcalls]
  dsimp only
  rw [hcalls.2]
  dsimp only
  split
  · rename_i hnone
    have hsync := (not_congr (next_eq_iff p store)).1 (Journal.writeMessage_eq_none.1 hnone)
    exact .refused hcalls hsync fun hp => next_eq_zero hp hsync
  · rename_i store' hsome
    obtain ⟨hnext, hstored⟩ := Journal.writeMessage_eq_some hsome
    exact .stored hcalls ((next_eq_iff p store).1 hnext)
      (highestSequenceNr_of_append hstored).symm hstored hnext hdecode

/-- A write whose own calls fail leaves the journal alone. -/
theorem writes_of_not_calls {store : Journal} (hcalls : ¬ p.CallsOk l.env) :
    Writes p store l (writeToJournal json p store l.stamped l.env).1
      (writeToJournal json p store l.stamped l.env).2.1 := by
  obtain ⟨payload, hpayload, hdecode⟩ := l.roundTrips
  unfold writeToJournal Take.stamped
  rw [hpayload]
  dsimp only
  cases hinit : lazyInit p store l.env with
  | error e => exact .failed hcalls fun _ => rfl
  | ok base =>
    dsimp only
    cases hwrite : l.env.write with
    | some e => exact .failed hcalls fun h => nomatch hwrite.symm.trans h
    | none =>
      refine absurd ⟨?_, hwrite⟩ hcalls
      intro hzero
      cases hhighest : l.env.highest with
      | none => rfl
      | some e =>
        rw [lazyInit, if_pos hzero, hhighest] at hinit
        cases hinit

/-- What holds in every run, whatever fails. -/
structure Inv (json : Json) (initial : Journal) (s : Recording) (p : PersistenceState) :
    Prop where
  mode : s.harness.mode = .record
  persistence : s.harness.persistence = some p
  journal : s.harness.journal = s.recorded.map (·.1)
  stored : s.store.stored = initial.stored ++ s.persisted initial
  highest : s.store.highestSequenceNr.toNat =
    initial.highestSequenceNr.toNat + (s.persisted initial).length
  contiguous : (s.persisted initial).map (·.sequenceNr.toNat) =
    (List.range (s.persisted initial).length).map (initial.highestSequenceNr.toNat + 1 + ·)
  kept : ∃ entries : List JournalEntry, entries.Sublist ((s.recorded.filter (·.2)).map (·.1)) ∧
    (s.persisted initial).map (fun r => json.fromSlice r.payload) = entries.map .ok

theorem inv_init :
    Inv json initial (system json persistenceId initial).init ⟨persistenceId, 0⟩ := by
  have hnone : (system json persistenceId initial).init.persisted initial = [] :=
    List.drop_length
  refine ⟨rfl, rfl, rfl, ?_, ?_, ?_, [], .slnil, ?_⟩
  · rw [hnone, List.append_nil]
    rfl
  · rw [hnone]
    rfl
  · rw [hnone]
    rfl
  · rw [hnone]
    rfl

/-- The state after an entry is recorded and its write has left `p'` and `store`. -/
def next (s : Recording) (p : PersistenceState) (l : Take json) (p' : PersistenceState)
    (store : Journal) : Recording where
  harness := ⟨.record, s.harness.journal ++ [l.stamped], some p'⟩
  store := store
  recorded := s.recorded ++ [(l.stamped, decide (p.CallsOk l.env))]

theorem writes_of_step (h : Inv json initial s p) (hs : s.step l = some s') :
    ∃ p' store, Writes p s.store l p' store ∧ s' = s.next p l p' store := by
  refine ⟨(writeToJournal json p s.store l.stamped l.env).1,
    (writeToJournal json p s.store l.stamped l.env).2.1, ?_, ?_⟩
  · by_cases hcalls : p.CallsOk l.env
    · exact writes_of_calls hcalls
    · exact writes_of_not_calls hcalls
  · have hcallsOk : s.callsOk l.env = decide (p.CallsOk l.env) := by
      rw [callsOk, h.persistence]
      rfl
    simp only [step, handle, h.mode, h.persistence, hcallsOk, Option.some.injEq] at hs
    exact hs.symm

/-- A write that stores nothing. -/
theorem inv_same {p' : PersistenceState} (h : Inv json initial s p) :
    Inv json initial (s.next p l p' s.store) p' where
  mode := rfl
  persistence := rfl
  journal := by
    rw [next, List.map_append, h.journal]
    rfl
  stored := h.stored
  highest := h.highest
  contiguous := h.contiguous
  kept := by
    obtain ⟨entries, hsublist, hentries⟩ := h.kept
    refine ⟨entries, hsublist.trans ?_, hentries⟩
    rw [next, List.filter_append, List.map_append]
    exact List.sublist_append_left _ _

/-- A write that stores the entry adds it to what has been persisted. -/
theorem persisted_next {p' : PersistenceState} {store : Journal} {r : PersistentRepr}
    (h : Inv json initial s p) (hstore : store.stored = s.store.stored ++ [r]) :
    (s.next p l p' store).persisted initial = s.persisted initial ++ [r] := by
  rw [persisted, next, hstore, h.stored, List.append_assoc, List.drop_left]

theorem recorded_next_of_calls {p' : PersistenceState} {store : Journal}
    (hcalls : p.CallsOk l.env) :
    (s.next p l p' store).recorded.filter (·.2) =
      s.recorded.filter (·.2) ++ [(l.stamped, true)] := by
  rw [next, List.filter_append, decide_eq_true hcalls]
  rfl

theorem inv_stored {p' : PersistenceState} {store : Journal} {r : PersistentRepr}
    (h : Inv json initial s p) (hcalls : p.CallsOk l.env)
    (hstore : store.stored = s.store.stored ++ [r])
    (hr : r.sequenceNr.toNat = s.store.highestSequenceNr.toNat + 1)
    (hpayload : json.fromSlice r.payload = .ok l.stamped) :
    Inv json initial (s.next p l p' store) p' where
  mode := rfl
  persistence := rfl
  journal := by
    rw [next, List.map_append, h.journal]
    rfl
  stored := by
    rw [persisted_next h hstore, ← List.append_assoc, ← h.stored]
    exact hstore
  highest := by
    rw [persisted_next h hstore, List.length_append, List.length_singleton]
    have hhighest : (s.next p l p' store).store.highestSequenceNr = r.sequenceNr :=
      highestSequenceNr_of_append hstore
    rw [hhighest, hr, h.highest]
    rfl
  contiguous := by
    rw [persisted_next h hstore, List.map_append, h.contiguous, List.length_append,
      List.length_singleton, List.range_succ, List.map_append]
    have hnext := h.highest
    simp only [List.map_cons, List.map_nil, List.append_cancel_left_eq, List.cons.injEq, and_true]
    omega
  kept := by
    obtain ⟨entries, hsublist, hentries⟩ := h.kept
    refine ⟨entries ++ [l.stamped], ?_, ?_⟩
    · rw [recorded_next_of_calls hcalls, List.map_append]
      exact hsublist.append (List.Sublist.refl _)
    · rw [persisted_next h hstore, List.map_append, hentries, List.map_append]
      simp [hpayload]

theorem Inv.of_writes {p' : PersistenceState} {store : Journal} (h : Inv json initial s p)
    (hw : Writes p s.store l p' store) : Inv json initial (s.next p l p' store) p' := by
  cases hw with
  | failed => exact inv_same h
  | refused => exact inv_same h
  | stored hcalls hsync hp' hstore hr hpayload => exact inv_stored h hcalls hstore hr hpayload

/-- Everything whose calls succeeded has been persisted. -/
def Complete (json : Json) (initial : Journal) (s : Recording) : Prop :=
  (s.persisted initial).map (fun r => json.fromSlice r.payload) =
    (s.recorded.filter (·.2)).map fun a => .ok a.1

theorem Complete.of_writes {p' : PersistenceState} {store : Journal} (h : s.Complete json initial)
    (hinv : Inv json initial s p) (hl : s.InSync l) (hw : Writes p s.store l p' store) :
    (s.next p l p' store).Complete json initial := by
  unfold Complete at h ⊢
  cases hw with
  | failed hcalls hp' =>
    have hsame : (s.next p l p' s.store).recorded.filter (·.2) = s.recorded.filter (·.2) := by
      rw [next, List.filter_append, decide_eq_false hcalls]
      exact List.append_nil _
    rw [hsame]
    exact h
  | refused hcalls hsync hp' => exact absurd (hl p hinv.persistence hcalls) hsync
  | stored hcalls hsync hp' hstore hr hpayload =>
    rw [persisted_next hinv hstore, recorded_next_of_calls hcalls, List.map_append, List.map_append,
      h]
    simp [hpayload]

/-- A refused entry is lost: fewer entries are persisted than had their calls succeed. -/
theorem inSync_of_complete {p' : PersistenceState} {store : Journal}
    (hinv : Inv json initial s p) (hw : Writes p s.store l p' store)
    (h : (s.next p l p' store).Complete json initial) : s.InSync l := by
  intro q hq hcalls
  obtain rfl : p = q := Option.some.inj (hinv.persistence.symm.trans hq)
  cases hw with
  | failed hfailed => exact absurd hcalls hfailed
  | refused _ hsync hp' =>
    obtain ⟨entries, hsublist, hentries⟩ := hinv.kept
    have hle := hsublist.length_le
    have hlen := congrArg List.length h
    rw [recorded_next_of_calls hcalls] at hlen
    have hlen' := congrArg List.length hentries
    simp only [List.length_map, List.length_append, List.length_singleton] at hle hlen hlen'
    have hsame : (s.next p l p' s.store).persisted initial = s.persisted initial := rfl
    rw [hsame] at hlen
    omega
  | stored _ hsync => exact hsync

/-! ### Loading -/

theorem decodeAll_of_map {rs : List PersistentRepr} {entries : List JournalEntry}
    (h : rs.map (fun r => json.fromSlice r.payload) = entries.map .ok) :
    decodeAll json rs = .ok entries := by
  induction rs generalizing entries with
  | nil => rw [List.map_eq_nil_iff.1 h.symm, decodeAll]
  | cons r rs ih =>
    cases entries with
    | nil => cases h
    | cons entry entries =>
      obtain ⟨hentry, hrest⟩ := List.cons.inj h
      rw [decodeAll, show json.fromSlice r.payload = .ok entry from hentry, ih hrest]
      rfl

/-- The numbers from one on are all asked for. -/
theorem replayMessages_all (h : Inv json initial s p) (hempty : initial.stored = []) :
    s.store.replayMessages 1 u64Max u64Max = s.persisted initial := by
  have hzero : initial.highestSequenceNr.toNat = 0 := by
    rw [Journal.highestSequenceNr, hempty]
    rfl
  have hstored : s.store.stored = s.persisted initial := by
    rw [h.stored, hempty, List.nil_append]
  have hlen : (s.persisted initial).length ≤ u64Max.toNat := by
    have hlt := s.store.highestSequenceNr.toNat_lt
    have hmax : u64Max.toNat = 2 ^ 64 - 1 := rfl
    rw [h.highest] at hlt
    omega
  rw [Journal.replayMessages, hstored, List.filter_eq_self.2 ?_, List.take_of_length_le hlen]
  intro r hr
  have hnumber : r.sequenceNr.toNat ∈ (s.persisted initial).map (·.sequenceNr.toNat) :=
    List.mem_map_of_mem hr
  rw [h.contiguous] at hnumber
  obtain ⟨n, -, hn⟩ := List.mem_map.1 hnumber
  have hlt := r.sequenceNr.toNat_lt
  have hone : (1 : UInt64).toNat = 1 := rfl
  have hmax : u64Max.toNat = 2 ^ 64 - 1 := rfl
  simp only [Bool.and_eq_true, decide_eq_true_eq, UInt64.le_iff_toNat_le]
  omega

theorem persisted_of_complete (hinv : Inv json initial s p) (h : s.Complete json initial) :
    s.Persisted json initial where
  entries := h
  sublist := by
    obtain ⟨entries, hsublist, hentries⟩ := hinv.kept
    refine ⟨entries, hsublist.trans ?_, hentries⟩
    rw [hinv.journal]
    exact List.filter_sublist.map _
  contiguous := hinv.contiguous
  loads := by
    intro hempty hall env hreplay
    have hdecode : decodeAll json (s.store.replayMessages 1 u64Max u64Max) =
        .ok s.harness.journal := by
      rw [replayMessages_all hinv hempty]
      apply decodeAll_of_map
      rw [h, List.filter_eq_self.2 hall, hinv.journal, List.map_map]
      rfl
    simp only [handle, hinv.persistence, hreplay, hdecode, and_self]

/-- Over any run, every entry whose own backend calls succeed is persisted, in order and without
gaps, and can be loaded again, exactly when each such entry finds the counter in step with the
journal. -/
theorem persisted_iff (json : Json) (persistenceId : String) (initial : Journal)
    (ls : List (Take json)) :
    (system json persistenceId initial).Along (Persisted json initial)
        (system json persistenceId initial).init ls ↔
      (system json persistenceId initial).Meets InSync
        (system json persistenceId initial).init ls := by
  have hcomplete : (system json persistenceId initial).init.Complete json initial := by
    rw [Complete, persisted]
    exact congrArg _ List.drop_length
  constructor
  · refine Transition.System.meets_of_along (I := fun s => ∃ p, Inv json initial s p) ?_ ?_
      ⟨_, inv_init⟩
    · rintro s l s' ⟨p, hinv⟩ hs h
      obtain ⟨p', store, hw, rfl⟩ := writes_of_step hinv hs
      exact inSync_of_complete hinv hw h.entries
    · rintro s l s' ⟨p, hinv⟩ - hs
      obtain ⟨p', store, hw, rfl⟩ := writes_of_step hinv hs
      exact ⟨p', hinv.of_writes hw⟩
  · refine Transition.System.along_of_meets
      (I := fun s => ∃ p, Inv json initial s p ∧ s.Complete json initial) ?_ ?_
      ⟨_, inv_init, hcomplete⟩
    · rintro s ⟨p, hinv, h⟩
      exact persisted_of_complete hinv h
    · rintro s l s' ⟨p, hinv, h⟩ hl hs
      obtain ⟨p', store, hw, rfl⟩ := writes_of_step hinv hs
      exact ⟨p', hinv.of_writes hw, h.of_writes hinv hl hw⟩

/-- As long as no write fails the counter is in step with the journal. -/
theorem synced_of_no_failed_write (ls : List (Take json)) (hls : ∀ l ∈ ls, l.env.write = none) :
    (system json persistenceId initial).Along
      (fun s => ∀ p ∈ s.harness.persistence, p.Synced s.store)
      (system json persistenceId initial).init ls := by
  refine Transition.System.along_of_meets
    (I := fun s => ∃ p, Inv json initial s p ∧ p.Synced s.store) ?_ ?_
    ⟨_, inv_init, .inl rfl⟩ (Transition.System.meets_of_forall hls)
  · rintro s ⟨p, hinv, hsynced⟩ q hq
    rwa [← Option.some.inj (hinv.persistence.symm.trans hq)]
  · rintro s l s' ⟨p, hinv, hsynced⟩ hl hs
    obtain ⟨p', store, hw, rfl⟩ := writes_of_step hinv hs
    refine ⟨p', hinv.of_writes hw, ?_⟩
    cases hw with
    | failed hcalls hp' =>
      rw [hp' hl]
      exact hsynced
    | refused hcalls hsync hp' => exact .inl (hp' hsynced)
    | stored hcalls hsync hp' => exact .inr hp'

end Recording

def seedEntry : JournalEntry := .rngSeed "a" 42

/-- The entry as `serde_json` writes it. -/
def seedJson : Json where
  toVec _ := .ok "\x7b\"RngSeed\":\x7b\"actor_path\":\"a\",\"seed\":42\x7d\x7d".toUTF8.toList
  fromSlice _ := .ok seedEntry

def seedTake (write : Option String) : Recording.Take seedJson :=
  ⟨seedEntry, ⟨0, none, write, none, "out of sequence"⟩, _, rfl, rfl⟩

/-- One failed write, and the next entry is refused although nothing fails for it. -/
theorem failed_write_poisons :
    ¬ ∀ ls : List (Recording.Take seedJson),
      (Recording.system seedJson "gpu" .empty).Along (Recording.Persisted seedJson .empty)
        (Recording.system seedJson "gpu" .empty).init ls := by
  intro h
  have halong := h [seedTake (some "connection reset"), seedTake none]
  have hlast := (halong.last rfl).entries
  cases hlast

end Replay

end AtomrAccel
