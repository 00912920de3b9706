import AtomrAccel.Lib.Ledger
import Mathlib.Data.List.Dedup

/-!
# Handles behind shared references

Several handles that are created together are given away behind counted references: whoever drops
the last reference to them destroys them.

* `useAll`, `destroyAll`: the handles of a list, one after the other;
* `dropRef`, `dropRefs`: a reference is dropped, and several are;
* `Shares l own refs`: the handles in `own` are held as they are, and those behind the references in
  `refs` are held once, however many references there are to them;
* `Shares.add`, `Shares.congr`, `Shares.dropRef`, `Shares.dropRefs`: a new reference to new handles,
  one more reference to old ones, and one or several fewer.
-/

namespace Resource

namespace Ledger

variable {κ β : Type*}

/-- The handles are used. -/
def useAll (l : Ledger κ) (hs : List (Handle κ)) : Ledger κ := hs.foldl use l

/-- The handles are released. -/
def destroyAll (l : Ledger κ) (hs : List (Handle κ)) : Ledger κ := hs.foldl destroy l

section Holds

variable [DecidableEq κ] {l : Ledger κ} {own : List (Handle κ)}

theorem Holds.useAll (hl : Holds l own) (hs : List (Handle κ)) (hsub : ∀ h ∈ hs, h ∈ own) :
    Holds (l.useAll hs) own := by
  induction hs generalizing l with
  | nil => exact hl
  | cons h hs ih =>
    obtain ⟨hh, hrest⟩ := List.forall_mem_cons.1 hsub
    exact ih (hl.use hh) hrest

theorem Holds.destroyAll {hs : List (Handle κ)} (hl : Holds l (hs ++ own)) :
    Holds (l.destroyAll hs) own := by
  induction hs generalizing l with
  | nil => exact hl
  | cons h hs ih => exact ih hl.destroy

end Holds

section Shares

variable [DecidableEq β] (handles : β → List (Handle κ))

/-- A reference to `b` is dropped; `refs` are the references that are left. -/
def dropRef (l : Ledger κ) (b : β) (refs : List β) : Ledger κ :=
  if b ∈ refs then l else l.destroyAll (handles b)

/-- References are dropped one after the other; `refs` are those that are left at the end. -/
def dropRefs (l : Ledger κ) : List β → List β → Ledger κ
  | [], _ => l
  | b :: bs, refs => (l.dropRef handles b (bs ++ refs)).dropRefs bs refs

variable [DecidableEq κ] {l : Ledger κ} {own : List (Handle κ)} {refs refs' : List β} {b : β}

/-- Two references to the same handles count once. -/
def Shares (l : Ledger κ) (own : List (Handle κ)) (refs : List β) : Prop :=
  Holds l (own ++ refs.dedup.flatMap handles)

variable {handles}

namespace Shares

/-- How many references there are to a bundle does not matter, nor does their order. -/
theorem congr (h : Shares handles l own refs) (hrefs : ∀ b, b ∈ refs ↔ b ∈ refs') :
    Shares handles l own refs' := by
  have hperm : refs.dedup.Perm refs'.dedup :=
    (List.perm_ext_iff_of_nodup refs.nodup_dedup refs'.nodup_dedup).2 fun b => by
      rw [List.mem_dedup, List.mem_dedup, hrefs]
  exact Holds.perm h ((hperm.flatMap_right _).append_left own)

theorem live (h : Shares handles l own refs) (hb : b ∈ refs) {a : Handle κ} (ha : a ∈ handles b) :
    Live l.log a :=
  Holds.live h (List.mem_append_right _ (List.mem_flatMap.2 ⟨b, List.mem_dedup.2 hb, ha⟩))

/-- New handles go behind a reference. -/
theorem add (h : Shares handles l (handles b ++ own) refs) (hne : handles b ≠ []) :
    Shares handles l own (b :: refs) := by
  have hnew : b ∉ refs := by
    intro hb
    obtain ⟨a, ha⟩ := List.exists_mem_of_ne_nil _ hne
    have hnodup := Holds.nodup h
    rw [List.append_assoc, List.nodup_append] at hnodup
    have hmem := List.mem_flatMap.2 ⟨b, List.mem_dedup.2 hb, ha⟩
    exact hnodup.2.2 a ha a (List.mem_append_right _ hmem) rfl
  refine Holds.perm h ?_
  rw [List.dedup_cons_of_notMem hnew, List.flatMap_cons, ← List.append_assoc]
  exact List.perm_append_comm.append_right _

/-- The last reference takes the handles with it. -/
theorem dropRef (h : Shares handles l own (b :: refs)) :
    Shares handles (l.dropRef handles b refs) own refs := by
  unfold Ledger.dropRef
  split
  · rename_i hb
    exact h.congr fun b' => ⟨fun hb' => (List.mem_cons.1 hb').elim (fun heq => heq ▸ hb) id,
      List.mem_cons_of_mem b⟩
  · rename_i hb
    refine Holds.destroyAll (Holds.perm h ?_)
    rw [List.dedup_cons_of_notMem hb, List.flatMap_cons, ← List.append_assoc, ← List.append_assoc]
    exact List.perm_append_comm.append_right _

theorem dropRefs {bs : List β} (h : Shares handles l own (bs ++ refs)) :
    Shares handles (l.dropRefs handles bs refs) own refs := by
  induction bs generalizing l with
  | nil => exact h
  | cons b bs ih => exact ih h.dropRef

/-- All is settled when there is neither a handle held as it is nor a reference. -/
theorem settled (h : Shares handles l [] ([] : List β)) : Settled l.log :=
  (Holds.settled_iff h).2 rfl

end Shares

end Shares

end Ledger

end Resource
