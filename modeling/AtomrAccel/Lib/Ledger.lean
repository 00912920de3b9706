import AtomrAccel.Lib.Resource

/-!
# Ledgers of handles

A library hands out handles of several kinds, each with a number of its own, and a ledger logs what
a program does with them.

* `Ledger`, `create`, `use`, `uses`, `destroy`: the ledger and the three things it logs;
* `Holds l own`: the handles in `own` are the ones that have been created and not destroyed, and no
  others were used or destroyed;
* `Holds.create`, `Holds.use`, `Holds.uses`, `Holds.destroy`, `Holds.perm`: a program is followed
  from call to call with the list of what it holds;
* `Holds.settled_iff`: all is settled when nothing is held.
-/

namespace Resource

/-- The number of a handle is its own among all kinds. -/
structure Handle (κ : Type*) where
  kind : κ
  id : ℕ
  deriving DecidableEq, Repr

/-- The next number, and the log, the last event first. -/
structure Ledger (κ : Type*) where
  next : ℕ
  log : List (Event (Handle κ))

namespace Ledger

variable {κ : Type*}

/-- Nothing has been created. -/
def empty : Ledger κ := ⟨0, []⟩

/-- The handle that is created next. -/
def fresh (l : Ledger κ) (kind : κ) : Handle κ := ⟨kind, l.next⟩

/-- A new handle. -/
def create (l : Ledger κ) (kind : κ) : Ledger κ := ⟨l.next + 1, .acquire (l.fresh kind) :: l.log⟩

/-- The handle is used. -/
def use (l : Ledger κ) (h : Handle κ) : Ledger κ := { l with log := .use h :: l.log }

/-- Any number of uses in a row. -/
def uses (l : Ledger κ) (h : Handle κ) : ℕ → Ledger κ
  | 0 => l
  | n + 1 => (l.uses h n).use h

/-- The handle is released. -/
def destroy (l : Ledger κ) (h : Handle κ) : Ledger κ := { l with log := .release h :: l.log }

theorem acquire_mem_uses {l : Ledger κ} {h h' : Handle κ} (n : ℕ) (ha : .acquire h' ∈ l.log) :
    .acquire h' ∈ (l.uses h n).log := by
  induction n with
  | zero => exact ha
  | succ n ih => exact List.mem_cons_of_mem _ ih

variable [DecidableEq κ]

theorem count_release_create (l : Ledger κ) (kind : κ) (h : Handle κ) :
    (l.create kind).log.count (.release h) = l.log.count (.release h) := by
  have hne : Event.acquire (l.fresh kind) ≠ .release h := by nofun
  exact List.count_cons_of_ne hne

theorem count_release_uses (l : Ledger κ) (h h' : Handle κ) (n : ℕ) :
    (l.uses h n).log.count (.release h') = l.log.count (.release h') := by
  induction n with
  | zero => rfl
  | succ n ih =>
    have hne : Event.use h ≠ .release h' := by nofun
    exact (List.count_cons_of_ne hne).trans ih

/-- The handles that are owned are the live ones, with ids below the next. -/
structure Holds (l : Ledger κ) (own : List (Handle κ)) : Prop where
  accounts : Accounts l.log {h | h ∈ own}
  nodup : own.Nodup
  numbered : ∀ h, .acquire h ∈ l.log → h.id < l.next

namespace Holds

variable {l : Ledger κ} {own own' : List (Handle κ)} {h : Handle κ}

theorem empty : Holds (.empty : Ledger κ) [] where
  accounts := by
    have hset : {h : Handle κ | h ∈ ([] : List (Handle κ))} = ∅ := by
      ext h
      simp
    rw [hset]
    exact accounts_nil
  nodup := List.nodup_nil
  numbered _ hacq := absurd hacq List.not_mem_nil

theorem live (hl : Holds l own) (hh : h ∈ own) : Live l.log h := hl.accounts.live h hh

/-- What is live is held. -/
theorem mem_of_live (hl : Holds l own) (hh : Live l.log h) : h ∈ own := by
  by_contra hnot
  have hone := hl.accounts.released h hh.1 hnot
  rw [List.count_eq_zero_of_not_mem hh.2] at hone
  cases hone

theorem perm (hl : Holds l own) (hperm : own.Perm own') : Holds l own' where
  accounts := by
    have hset : {h | h ∈ own'} = {h | h ∈ own} := Set.ext fun _ => hperm.mem_iff.symm
    rw [hset]
    exact hl.accounts
  nodup := hperm.nodup_iff.1 hl.nodup
  numbered := hl.numbered

/-- A handle that is still to be created is in no event. -/
theorem fresh_notMem (hl : Holds l own) (kind : κ) :
    .acquire (l.fresh kind) ∉ l.log ∧ .release (l.fresh kind) ∉ l.log := by
  have hnew : .acquire (l.fresh kind) ∉ l.log := fun hacq => lt_irrefl _ (hl.numbered _ hacq)
  exact ⟨hnew, fun hrel => hnew (hl.accounts.disciplined.acquire_mem hrel)⟩

theorem create (hl : Holds l own) (kind : κ) : Holds (l.create kind) (l.fresh kind :: own) := by
  have hnew := (hl.fresh_notMem kind).1
  have hset : {h | h ∈ l.fresh kind :: own} = insert (l.fresh kind) {h | h ∈ own} :=
    Set.ext fun _ => List.mem_cons
  refine ⟨?_, List.nodup_cons.2 ⟨fun hmem => hnew (hl.live hmem).1, hl.nodup⟩, ?_⟩
  · rw [hset]
    exact hl.accounts.acquire hnew
  · intro h hacq
    rcases List.mem_cons.1 hacq with heq | hold
    · cases heq
      exact Nat.lt_succ_self _
    · exact Nat.lt_succ_of_lt (hl.numbered h hold)

theorem use (hl : Holds l own) (hh : h ∈ own) : Holds (l.use h) own where
  accounts := hl.accounts.use hh
  nodup := hl.nodup
  numbered h' hacq := by
    rcases List.mem_cons.1 hacq with heq | hold
    · cases heq
    · exact hl.numbered h' hold

theorem uses (hl : Holds l own) (hh : h ∈ own) (n : ℕ) : Holds (l.uses h n) own := by
  induction n with
  | zero => exact hl
  | succ n ih => exact ih.use hh

/-- The handle in front is destroyed. -/
theorem destroy (hl : Holds l (h :: own)) : Holds (l.destroy h) own := by
  obtain ⟨hnot, hnodup⟩ := List.nodup_cons.1 hl.nodup
  have hset : {h' | h' ∈ h :: own} \ {h} = {h' | h' ∈ own} := by
    ext h'
    show h' ∈ h :: own ∧ h' ≠ h ↔ h' ∈ own
    rw [List.mem_cons]
    constructor
    · rintro ⟨rfl | hold, hne⟩
      · exact absurd rfl hne
      · exact hold
    · exact fun hold => ⟨.inr hold, fun heq => hnot (heq ▸ hold)⟩
  refine ⟨?_, hnodup, fun h' hacq => ?_⟩
  · rw [← hset]
    exact hl.accounts.release List.mem_cons_self
  · rcases List.mem_cons.1 hacq with heq | hold
    · cases heq
    · exact hl.numbered h' hold

theorem settled_iff (hl : Holds l own) : Settled l.log ↔ own = [] := by
  constructor
  · intro hsettled
    cases own with
    | nil => rfl
    | cons h own => exact absurd hsettled (not_settled_of_live (hl.live List.mem_cons_self))
  · rintro rfl h hacq
    exact hl.accounts.released h hacq List.not_mem_nil

end Holds

end Ledger

end Resource
