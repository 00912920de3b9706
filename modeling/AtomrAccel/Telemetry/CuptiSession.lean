import AtomrAccel.Lib.Transition

/-!
# `CuptiSession`

Records reach the session through a bounded channel, messages through another.  The loop of the
actor takes one message or one record at a time, messages first; a `Drain` is answered with the
records that the loop has taken so far.

* `handle`, `poll`: the loop;
* `Label`, `step`, `system`: the loop, the sink and the senders of messages;
* `DrainOk`: the replies list accepted records in order, each once, and a `Drain` gets those
  accepted before it was sent, unless an earlier one did;
* `CaughtUp`, `along_drainOk_iff`: so it is in a run exactly when no record accepted before a
  `Drain` was sent is still in its channel when the loop takes that `Drain`.
-/

namespace AtomrAccel

namespace Cupti

open Transition

/-! ### The actor -/

/-- A record with the number of records accepted before it. -/
abbrev Record (α : Type) := α × ℕ

/-- A message; `acceptedBefore` is not a field of the source: it counts the records accepted before
the `Drain` was sent. -/
inductive CuptiMsg (κ : Type)
  | start (categories : List κ)
  | stop
  | drain (acceptedBefore : ℕ)

/-- What a reply lists: a record from the sink or a sample of the range profiler. -/
inductive Entry (α : Type)
  | record (r : Record α)
  | sample (a : α)

/-- The record, unless the entry is a sample. -/
def Entry.record? {α : Type} : Entry α → Option (Record α)
  | .record r => some r
  | .sample _ => none

/-- A reply to `Drain`, with how much was accepted before. -/
structure DrainReply (α : Type) where
  acceptedBefore : ℕ
  entries : List (Entry α)

/-- The session: `records` and `control` are the channels, `polled` is set when the loop has found
no message and goes on to the records.  `accepted` lists all records that `push` accepted. -/
structure Session (α κ : Type) where
  running : Bool
  accepted : List α
  records : List (Record α)
  control : List (CuptiMsg κ)
  polled : Bool
  buffered : List (Record α)
  categories : List κ
  samples : List α
  replies : List (DrainReply α)

namespace Session

variable {α κ : Type}

/-- `CuptiSession::spawn`. -/
def spawn : Session α κ := ⟨true, [], [], [], false, [], [], [], []⟩

/-- How many records wait at most. -/
def recordCapacity : ℕ := 4096

/-- How many control messages wait at most. -/
def controlCapacity : ℕ := 256

/-- `ActivitySink::push`; a record that is not accepted is dropped. -/
def push (s : Session α κ) (activity : α) : Session α κ :=
  if s.running ∧ s.records.length < recordCapacity then
    { s with
      accepted := s.accepted ++ [activity]
      records := s.records ++ [(activity, s.accepted.length)] }
  else s

/-- One message. -/
def handle (s : Session α κ) : CuptiMsg κ → Session α κ
  | .start categories => { s with categories := categories }
  | .stop => { s with categories := [] }
  | .drain acceptedBefore =>
    let take := s.buffered.map .record ++ s.samples.map .sample
    { s with
      buffered := []
      samples := []
      replies := s.replies ++ [⟨acceptedBefore, take⟩] }

/-- The loop looks at one channel. -/
def poll (s : Session α κ) : Session α κ :=
  if s.polled then
    match s.records with
    | record :: records =>
      { s with records := records, buffered := s.buffered ++ [record], polled := false }
    | [] => { s with polled := false }
  else
    match s.control with
    | msg :: control => { s with control := control }.handle msg
    | [] => { s with polled := true }

end Session

/-! ### Runs -/

/-- The steps of the session and its loop. -/
inductive Label (α κ : Type)
  | push (activity : α)
  /-- The range profiler collects a sample. -/
  | sample (activity : α)
  | start (categories : List κ)
  | stop
  | drain
  | poll
  /-- The loop ends or is aborted. -/
  | halt

section Runs

variable {α κ : Type}

/-- A message is sent while its channel has room. -/
def send (s : Session α κ) (msg : CuptiMsg κ) : Option (Session α κ) :=
  if s.running ∧ s.control.length < Session.controlCapacity then
    some { s with control := s.control ++ [msg] }
  else none

/-- One step of the session or its loop. -/
def step (s : Session α κ) : Label α κ → Option (Session α κ)
  | .push activity => some (s.push activity)
  | .sample activity => some { s with samples := s.samples ++ [activity] }
  | .start categories => send s (.start categories)
  | .stop => send s .stop
  | .drain => send s (.drain s.accepted.length)
  | .poll => if s.running then some s.poll else none
  | .halt => some { s with running := false }

/-- The session with its loop. -/
def system : System (Session α κ) (Label α κ) := ⟨.spawn, step⟩

/-- The records some replies list. -/
def delivered (replies : List (DrainReply α)) : List (Record α) :=
  replies.flatMap fun reply => reply.entries.filterMap Entry.record?

/-- A `Drain` and those before it are answered with all records accepted before it was sent. -/
def Complete (replies : List (DrainReply α)) : Prop :=
  ∀ n reply, replies[n]? = some reply → ∀ k < reply.acceptedBefore,
    ∃ r ∈ delivered (replies.take (n + 1)), r.2 = k

/-- Replies list accepted records, each once and in order, and nothing is withheld from them. -/
structure DrainOk (s : Session α κ) : Prop where
  accepted : ∀ r ∈ delivered s.replies, s.accepted[r.2]? = some r.1
  ordered : (delivered s.replies).Pairwise fun r r' => r.2 < r'.2
  complete : Complete s.replies

/-- When the loop takes a `Drain`, the records in the channel were accepted after it was sent. -/
def CaughtUp (s : Session α κ) : Label α κ → Prop
  | .poll => s.polled = false → ∀ acceptedBefore,
    s.control.head? = some (.drain acceptedBefore) → ∀ r ∈ s.records, acceptedBefore ≤ r.2
  | _ => True

/-! ### The invariant -/

/-- Every accepted record is in a reply, in the buffer or in the channel, in the order of the
pushes. -/
structure Inv (s : Session α κ) : Prop where
  flow : delivered s.replies ++ s.buffered ++ s.records = s.accepted.zipIdx
  sent : ∀ acceptedBefore, .drain acceptedBefore ∈ s.control →
    acceptedBefore ≤ s.accepted.length
  complete : Complete s.replies

theorem delivered_append (replies : List (DrainReply α)) (acceptedBefore : ℕ)
    (buffered : List (Record α)) (samples : List α) :
    delivered (replies ++ [⟨acceptedBefore, buffered.map .record ++ samples.map .sample⟩]) =
      delivered replies ++ buffered := by
  have hrecords : (buffered.map Entry.record).filterMap Entry.record? = buffered := by
    rw [List.filterMap_map]
    exact List.filterMap_some
  have hsamples : (samples.map Entry.sample).filterMap Entry.record? = [] := by
    rw [List.filterMap_map]
    exact List.filterMap_eq_nil_iff.2 fun _ _ => rfl
  rw [delivered, List.flatMap_append, List.flatMap_singleton, List.filterMap_append, hrecords,
    hsamples, List.append_nil, delivered]

theorem pairwise_zipIdx (l : List α) : l.zipIdx.Pairwise fun r r' => r.2 < r'.2 := by
  have hrange : (l.zipIdx.map Prod.snd).Pairwise (· < ·) := by
    rw [List.zipIdx_map_snd]
    exact List.pairwise_lt_range'
  exact List.pairwise_map.1 hrange

theorem complete_append {replies : List (DrainReply α)} {reply : DrainReply α} :
    Complete (replies ++ [reply]) ↔ Complete replies ∧
      ∀ k < reply.acceptedBefore, ∃ r ∈ delivered (replies ++ [reply]), r.2 = k := by
  have hold : ∀ n < replies.length, (replies ++ [reply])[n]? = replies[n]? ∧
      (replies ++ [reply]).take (n + 1) = replies.take (n + 1) := fun n hn =>
    ⟨List.getElem?_append_left hn, List.take_append_of_le_length hn⟩
  have hlast : (replies ++ [reply]).take (replies.length + 1) = replies ++ [reply] :=
    List.take_of_length_le (by simp)
  constructor
  · intro h
    refine ⟨fun n reply' hreply => ?_, fun k hk => ?_⟩
    · obtain ⟨hget, htake⟩ := hold n (List.getElem?_eq_some_iff.1 hreply).1
      have hn := h n reply'
      rw [hget, htake] at hn
      exact hn hreply
    · have hn := h replies.length reply List.getElem?_concat_length k hk
      rwa [hlast] at hn
  · rintro ⟨h, hnew⟩ n reply' hreply
    by_cases hn : n < replies.length
    · obtain ⟨hget, htake⟩ := hold n hn
      rw [htake]
      exact h n reply' (hget ▸ hreply)
    · have hlt := (List.getElem?_eq_some_iff.1 hreply).1
      rw [List.length_append, List.length_singleton] at hlt
      obtain rfl : n = replies.length := by omega
      rw [List.getElem?_concat_length] at hreply
      obtain rfl := Option.some.inj hreply
      rwa [hlast]

namespace Inv

variable {s : Session α κ}

theorem init : Inv (.spawn : Session α κ) where
  flow := rfl
  sent _ h := absurd h List.not_mem_nil
  complete n reply h := by simp [Session.spawn] at h

theorem prefix_accepted (h : Inv s) : delivered s.replies <+: s.accepted.zipIdx :=
  ⟨s.buffered ++ s.records, by rw [← List.append_assoc, h.flow]⟩

theorem drainOk (h : Inv s) : DrainOk s where
  accepted r hr := by
    have hmem := h.prefix_accepted.subset hr
    exact List.mk_mem_zipIdx_iff_getElem?.1 hmem
  ordered := (pairwise_zipIdx s.accepted).sublist h.prefix_accepted.sublist
  complete := h.complete

theorem push (h : Inv s) (activity : α) : Inv (s.push activity) := by
  unfold Session.push
  split
  · refine ⟨?_, ?_, h.complete⟩
    · show delivered s.replies ++ s.buffered ++ (s.records ++ [_]) = _
      rw [← List.append_assoc, h.flow, List.zipIdx_append]
      simp
    · intro acceptedBefore hmem
      have hle := h.sent acceptedBefore hmem
      rw [List.length_append]
      omega
  · exact h

theorem send (h : Inv s) {msg : CuptiMsg κ} {s' : Session α κ} (hsend : send s msg = some s')
    (hmsg : ∀ acceptedBefore, msg = .drain acceptedBefore →
      acceptedBefore ≤ s.accepted.length) : Inv s' := by
  unfold Cupti.send at hsend
  split at hsend
  · cases hsend
    refine ⟨h.flow, ?_, h.complete⟩
    intro acceptedBefore hmem
    rcases List.mem_append.1 hmem with hold | hnew
    · exact h.sent acceptedBefore hold
    · exact hmsg acceptedBefore (List.mem_singleton.1 hnew).symm
  · cases hsend

theorem of_same (h : Inv s) {s' : Session α κ} (haccepted : s'.accepted = s.accepted)
    (hreplies : s'.replies = s.replies) (hbuffered : s'.buffered = s.buffered)
    (hrecords : s'.records = s.records) (hcontrol : ∀ msg ∈ s'.control, msg ∈ s.control) :
    Inv s' := by
  refine ⟨?_, ?_, ?_⟩
  · rw [haccepted, hreplies, hbuffered, hrecords]
    exact h.flow
  · rw [haccepted]
    exact fun b hb => h.sent b (hcontrol _ hb)
  · rw [hreplies]
    exact h.complete

/-- The accepted records up to the first one in the channel have been taken. -/
theorem taken (h : Inv s) {b k : ℕ} (hb : b ≤ s.accepted.length)
    (hrecords : ∀ r ∈ s.records, b ≤ r.2) (hk : k < b) :
    ∃ r ∈ delivered s.replies ++ s.buffered, r.2 = k := by
  have hlt : k < s.accepted.length := hk.trans_le hb
  have hmem : (s.accepted[k], k) ∈ s.accepted.zipIdx :=
    List.mk_mem_zipIdx_iff_getElem?.2 (List.getElem?_eq_getElem hlt)
  rw [← h.flow] at hmem
  rcases List.mem_append.1 hmem with hfound | hwaiting
  · exact ⟨_, hfound, rfl⟩
  · exact absurd (hrecords _ hwaiting) (not_le.2 hk)

/-- A `Drain` that finds the loop caught up is answered in full. -/
theorem drain (h : Inv s) {b : ℕ} {control : List (CuptiMsg κ)}
    (hcontrol : s.control = .drain b :: control) (hrecords : ∀ r ∈ s.records, b ≤ r.2) :
    Inv ({ s with control := control }.handle (.drain b)) := by
  have hb := h.sent b (hcontrol ▸ List.mem_cons_self)
  refine ⟨?_, ?_, ?_⟩
  · show delivered (s.replies ++ [_]) ++ [] ++ s.records = _
    rw [delivered_append, List.append_nil]
    exact h.flow
  · exact fun b' hmem => h.sent b' (hcontrol ▸ List.mem_cons_of_mem _ hmem)
  · refine complete_append.2 ⟨h.complete, fun k hk => ?_⟩
    rw [delivered_append]
    exact h.taken hb hrecords hk

theorem poll (h : Inv s) (hcaught : CaughtUp s .poll) : Inv s.poll := by
  unfold Session.poll
  by_cases hpolled : s.polled = true
  · rw [if_pos hpolled]
    split
    · rename_i record records hrecords
      refine ⟨?_, h.sent, h.complete⟩
      have hflow := h.flow
      rw [hrecords, List.append_cons] at hflow
      rw [← List.append_assoc]
      exact hflow
    · exact h.of_same rfl rfl rfl rfl fun _ hmsg => hmsg
  · rw [if_neg hpolled]
    split
    · rename_i msg control hcontrol
      have hrest : ∀ msg' ∈ control, msg' ∈ s.control := fun _ hmsg =>
        hcontrol ▸ List.mem_cons_of_mem _ hmsg
      cases msg with
      | start categories => exact h.of_same rfl rfl rfl rfl hrest
      | stop => exact h.of_same rfl rfl rfl rfl hrest
      | drain b =>
        refine h.drain hcontrol (hcaught (Bool.eq_false_iff.2 hpolled) b ?_)
        rw [hcontrol, List.head?_cons]
    · exact h.of_same rfl rfl rfl rfl fun _ hmsg => hmsg

theorem next (h : Inv s) {l : Label α κ} {s' : Session α κ} (hcaught : CaughtUp s l)
    (hstep : step s l = some s') : Inv s' := by
  cases l with
  | push activity =>
    cases hstep
    exact h.push activity
  | sample activity =>
    cases hstep
    exact h.of_same rfl rfl rfl rfl fun _ hmsg => hmsg
  | start categories => exact h.send hstep fun _ heq => by cases heq
  | stop => exact h.send hstep fun _ heq => by cases heq
  | drain =>
    refine h.send hstep fun b heq => ?_
    cases heq
    exact le_rfl
  | poll =>
    simp only [step] at hstep
    split at hstep
    · cases hstep
      exact h.poll hcaught
    · cases hstep
  | halt =>
    cases hstep
    exact h.of_same rfl rfl rfl rfl fun _ hmsg => hmsg

/-- A complete reply is given by a loop that has caught up. -/
theorem caughtUp_of_drainOk (h : Inv s) {l : Label α κ} {s' : Session α κ}
    (hstep : step s l = some s') (hok : DrainOk s') : CaughtUp s l := by
  cases l with
  | poll =>
    intro hpolled b hhead r hr
    by_contra hlt
    obtain ⟨control, hcontrol⟩ := List.head?_eq_some_iff.1 hhead
    have hpoll : s.poll = { s with control := control }.handle (.drain b) := by
      rw [Session.poll, hpolled, hcontrol]
      rfl
    simp only [step] at hstep
    split at hstep
    · cases hstep
      have hcomplete := hok.complete
      rw [hpoll] at hcomplete
      obtain ⟨r', hr', heq⟩ := (complete_append.1 hcomplete).2 r.2 (not_le.1 hlt)
      rw [delivered_append] at hr'
      -- the record would be in the reply and in the channel
      have hordered := pairwise_zipIdx s.accepted
      rw [← h.flow] at hordered
      have hbefore := (List.pairwise_append.1 hordered).2.2 r' hr' r hr
      omega
    · cases hstep
  | _ => trivial

end Inv

/-! ### The runs -/

/-- Nothing is withheld from the replies in the runs in which every `Drain` finds the records in the
channel that were accepted before it was sent taken. -/
theorem along_drainOk_iff (ls : List (Label α κ)) :
    system.Along DrainOk .spawn ls ↔ system.Meets CaughtUp .spawn ls := by
  have hnext : ∀ (s : Session α κ) l s', Inv s → CaughtUp s l → system.step s l = some s' →
      Inv s' := fun _ _ _ h hcaught hstep => h.next hcaught hstep
  constructor
  · exact System.meets_of_along (fun _ _ _ h hstep hok => h.caughtUp_of_drainOk hstep hok) hnext
      Inv.init
  · exact System.along_of_meets (fun _ h => h.drainOk) hnext Inv.init

end Runs

/-- A record, then a `Drain`, then the loop. -/
theorem drain_withholds :
    ¬ ∀ ls : List (Label ℕ ℕ), system.Along DrainOk .spawn ls := by
  intro hall
  have hrun := hall [.push 7, .drain, .poll]
  have hend : system.run (.spawn : Session ℕ ℕ) [.push 7, .drain, .poll] =
      some ⟨true, [7], [(7, 0)], [], false, [], [], [], [⟨1, []⟩]⟩ := rfl
  obtain ⟨r, hr, -⟩ := (hrun.last hend).complete 0 ⟨1, []⟩ rfl 0 Nat.zero_lt_one
  cases hr

end Cupti

end AtomrAccel
