import Mathlib.Tactic

/-!
# Operations in flight

Operations are numbered as they are issued, each with the resources it uses, and finish in the order
of their numbers.  Somebody acknowledges them, by number, at any time.

* `Pipeline`, `issue`, `finish`, `ack`: the operations and the three things that happen to them;
* `Finished`, `InUse`: what is known of a number and of a resource;
* `Sound owned p`: only finished operations have been acknowledged, and what the others use is
  owned;
* `sound_issue_iff`, `Sound.finish`, `sound_ack_iff`, `Sound.owner_iff`: when each of the three, and
  a change of the owners, keeps a pipeline sound.
-/

namespace InFlight

variable {β : Type*}

/-- An operation with the buffers it uses. -/
structure Op (β : Type*) where
  id : ℕ
  uses : List β
  deriving DecidableEq, Repr

/-- The operations that have not finished, oldest first, the number of all that were issued, and the
numbers that were acknowledged. -/
structure Pipeline (β : Type*) where
  pending : List (Op β)
  issued : ℕ
  acked : List ℕ
  deriving DecidableEq, Repr

namespace Pipeline

/-- Nothing has been issued. -/
def empty : Pipeline β := ⟨[], 0, []⟩

/-- One more operation, on some buffers. -/
def issue (p : Pipeline β) (uses : List β) : Pipeline β :=
  { p with pending := p.pending ++ [⟨p.issued, uses⟩], issued := p.issued + 1 }

/-- The oldest operation finishes. -/
def finish (p : Pipeline β) : Pipeline β := { p with pending := p.pending.tail }

/-- The operation is acknowledged. -/
def ack (p : Pipeline β) (id : ℕ) : Pipeline β := { p with acked := id :: p.acked }

/-- The operation is not pending. -/
def Finished (p : Pipeline β) (id : ℕ) : Prop := ∀ op ∈ p.pending, op.id ≠ id

/-- A pending operation uses the buffer. -/
def InUse (p : Pipeline β) (b : β) : Prop := ∃ op ∈ p.pending, b ∈ op.uses

/-- Every number in use was given out. -/
structure Numbered (p : Pipeline β) : Prop where
  pending_lt : ∀ op ∈ p.pending, op.id < p.issued
  acked_lt : ∀ id ∈ p.acked, id < p.issued

/-- What is acknowledged has finished, and every buffer in use is owned. -/
structure Sound (owned : β → Prop) (p : Pipeline β) : Prop where
  finished : ∀ id ∈ p.acked, p.Finished id
  owned : ∀ b, p.InUse b → owned b

variable {p : Pipeline β} {uses : List β} {id : ℕ} {b : β} {owned owned' : β → Prop}

@[simp] theorem inUse_issue : (p.issue uses).InUse b ↔ p.InUse b ∨ b ∈ uses := by
  simp [InUse, issue, or_and_right, exists_or]

@[simp] theorem finished_issue : (p.issue uses).Finished id ↔ p.Finished id ∧ p.issued ≠ id := by
  simp [Finished, issue, or_imp, forall_and]

theorem Finished.finish (h : p.Finished id) : p.finish.Finished id :=
  fun op hop => h op (List.mem_of_mem_tail hop)

theorem InUse.of_finish (h : p.finish.InUse b) : p.InUse b := by
  obtain ⟨op, hop, hb⟩ := h
  exact ⟨op, List.mem_of_mem_tail hop, hb⟩

/-! ### Numbers -/

theorem numbered_empty : Numbered (empty : Pipeline β) :=
  ⟨fun _ h => absurd h List.not_mem_nil, fun _ h => absurd h List.not_mem_nil⟩

theorem Numbered.issue (h : p.Numbered) (uses : List β) : (p.issue uses).Numbered := by
  constructor
  · intro op hop
    rcases List.mem_append.1 hop with hold | hnew
    · exact Nat.lt_succ_of_lt (h.pending_lt op hold)
    · rw [List.mem_singleton.1 hnew]
      exact Nat.lt_succ_self p.issued
  · exact fun id hid => Nat.lt_succ_of_lt (h.acked_lt id hid)

theorem Numbered.finish (h : p.Numbered) : p.finish.Numbered :=
  ⟨fun op hop => h.pending_lt op (List.mem_of_mem_tail hop), h.acked_lt⟩

theorem Numbered.ack (h : p.Numbered) (hid : id < p.issued) : (p.ack id).Numbered :=
  ⟨h.pending_lt, fun i hi => (List.mem_cons.1 hi).elim (fun heq => heq ▸ hid) (h.acked_lt i)⟩

/-! ### Soundness -/

theorem sound_empty (owned : β → Prop) : Sound owned (empty : Pipeline β) := by
  constructor
  · exact fun _ h => absurd h List.not_mem_nil
  · rintro b ⟨op, hop, -⟩
    exact absurd hop List.not_mem_nil

/-- A new operation has to own what it uses; its number has not been acknowledged. -/
theorem sound_issue_iff (hn : p.Numbered) :
    Sound owned (p.issue uses) ↔ Sound owned p ∧ ∀ b ∈ uses, owned b := by
  constructor
  · intro h
    refine ⟨⟨fun id hid => ?_, fun b hb => ?_⟩, fun b hb => ?_⟩
    · exact (finished_issue.1 (h.finished id hid)).1
    · exact h.owned b (inUse_issue.2 (Or.inl hb))
    · exact h.owned b (inUse_issue.2 (Or.inr hb))
  · rintro ⟨h, huses⟩
    constructor
    · intro id hid
      -- what was acknowledged has a smaller number than the new operation
      exact finished_issue.2 ⟨h.finished id hid, (hn.acked_lt id hid).ne'⟩
    · intro b hb
      exact (inUse_issue.1 hb).elim (h.owned b) (huses b)

theorem Sound.finish (h : Sound owned p) : Sound owned p.finish :=
  ⟨fun id hid => (h.finished id hid).finish, fun b hb => h.owned b hb.of_finish⟩

/-- An acknowledgement has to come after the end of its operation. -/
theorem sound_ack_iff : Sound owned (p.ack id) ↔ Sound owned p ∧ p.Finished id := by
  constructor
  · intro h
    have hfin := List.forall_mem_cons.1 h.finished
    exact ⟨⟨hfin.2, h.owned⟩, hfin.1⟩
  · rintro ⟨h, hid⟩
    exact ⟨List.forall_mem_cons.2 ⟨hid, h.finished⟩, h.owned⟩

/-- When the owners change, what is in use has to be owned afterwards. -/
theorem Sound.owner_iff (h : Sound owned p) :
    Sound owned' p ↔ ∀ b, p.InUse b → owned' b :=
  ⟨fun h' => h'.owned, fun howned => ⟨h.finished, howned⟩⟩

end Pipeline

end InFlight
