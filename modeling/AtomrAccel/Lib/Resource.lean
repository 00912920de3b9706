import Mathlib.Tactic

/-!
# Handles that are acquired, used and released

A program gets handles from a library, passes them to calls of the library and gives them back.
A log holds these events, the last one first.

* `Live`: the handle has been acquired and not yet released;
* `Disciplined`: the log uses and releases live handles only;
* `Settled`: every handle that was acquired has been released exactly once;
* `Accounts log owned`: the log is disciplined, the handles in `owned` are live and all others have
  been released once; with what an event does to it;
* `perm_eraseIdx`, `mem_map_eraseIdx`, `map_set`: a list of owners after one of them is taken off it
  or changed.
-/

namespace Resource

/-- What can happen to a resource. -/
inductive Event (α : Type*)
  | acquire (a : α)
  | use (a : α)
  | release (a : α)
  deriving DecidableEq, Repr

variable {α : Type*} {log : List (Event α)} {owned : Set α} {a : α}

/-- Acquired, and not released since. -/
def Live (log : List (Event α)) (a : α) : Prop := .acquire a ∈ log ∧ .release a ∉ log

instance [DecidableEq α] (log : List (Event α)) (a : α) : Decidable (Live log a) :=
  inferInstanceAs (Decidable (_ ∧ _))

/-- Live resources only are used and released. -/
def Disciplined : List (Event α) → Prop
  | [] => True
  | .acquire _ :: log => Disciplined log
  | .use a :: log => Live log a ∧ Disciplined log
  | .release a :: log => Live log a ∧ Disciplined log

theorem Disciplined.tail {e : Event α} (h : Disciplined (e :: log)) : Disciplined log := by
  cases e with
  | acquire a => exact h
  | use a => exact h.2
  | release a => exact h.2

/-- Only what was acquired is released. -/
theorem Disciplined.acquire_mem (h : Disciplined log) (ha : .release a ∈ log) :
    .acquire a ∈ log := by
  induction log with
  | nil => cases ha
  | cons e log ih =>
    obtain rfl | hold := List.mem_cons.1 ha
    · exact List.mem_cons_of_mem _ h.1.1
    · exact List.mem_cons_of_mem _ (ih h.tail hold)

/-- Releasing acquires nothing. -/
theorem acquire_mem_releaseAll {as : List α} :
    .acquire a ∈ as.foldl (fun log a => .release a :: log) log ↔ .acquire a ∈ log := by
  induction as generalizing log with
  | nil => rfl
  | cons b as ih =>
    rw [List.foldl_cons, ih, List.mem_cons]
    exact or_iff_right nofun

variable [DecidableEq α]

/-- Everything acquired has been released. -/
def Settled (log : List (Event α)) : Prop :=
  ∀ a, .acquire a ∈ log → log.count (.release a) = 1

theorem not_settled_of_live (h : Live log a) : ¬ Settled log := by
  intro hs
  have hone := hs a h.1
  rw [List.count_eq_zero_of_not_mem h.2] at hone
  cases hone

/-- Live resources only are used, those owned are live, and the others were released once. -/
structure Accounts (log : List (Event α)) (owned : Set α) : Prop where
  disciplined : Disciplined log
  live : ∀ a ∈ owned, Live log a
  released : ∀ a, .acquire a ∈ log → a ∉ owned → log.count (.release a) = 1

theorem accounts_nil : Accounts ([] : List (Event α)) ∅ where
  disciplined := trivial
  live := nofun
  released := nofun

namespace Accounts

theorem settled (h : Accounts log ∅) : Settled log :=
  fun a ha => h.released a ha (Set.notMem_empty a)

/-- Acquiring a new handle. -/
theorem acquire (h : Accounts log owned) (hnew : .acquire a ∉ log) :
    Accounts (.acquire a :: log) (insert a owned) where
  disciplined := h.disciplined
  live b hb := by
    have hkept : ∀ c, .release c ∉ log → .release c ∉ Event.acquire a :: log :=
      fun c hc => List.not_mem_cons_of_ne_of_not_mem nofun hc
    obtain rfl | hold := hb
    · exact ⟨List.mem_cons_self, hkept b fun hr => hnew (h.disciplined.acquire_mem hr)⟩
    · exact ⟨List.mem_cons_of_mem _ (h.live b hold).1, hkept b (h.live b hold).2⟩
  released b hb hnot := by
    obtain ⟨hne, hnot⟩ := not_or.1 hnot
    obtain heq | hold := List.mem_cons.1 hb
    · exact absurd (Event.acquire.inj heq) hne
    · have hcount : (Event.acquire a :: log).count (.release b) = log.count (.release b) :=
        List.count_cons_of_ne (by nofun)
      exact hcount.trans (h.released b hold hnot)

/-- Using an owned handle. -/
theorem use (h : Accounts log owned) (ha : a ∈ owned) : Accounts (.use a :: log) owned where
  disciplined := ⟨h.live a ha, h.disciplined⟩
  live b hb := ⟨List.mem_cons_of_mem _ (h.live b hb).1,
    List.not_mem_cons_of_ne_of_not_mem nofun (h.live b hb).2⟩
  released b hb hnot := by
    obtain heq | hold := List.mem_cons.1 hb
    · cases heq
    · have hcount : (Event.use a :: log).count (.release b) = log.count (.release b) :=
        List.count_cons_of_ne (by nofun)
      exact hcount.trans (h.released b hold hnot)

/-- Any number of uses of an owned handle. -/
theorem uses (h : Accounts log owned) (ha : a ∈ owned) {es : List (Event α)}
    (hes : ∀ e ∈ es, e = .use a) : Accounts (es ++ log) owned := by
  induction es with
  | nil => exact h
  | cons e es ih =>
    obtain ⟨rfl, hrest⟩ := List.forall_mem_cons.1 hes
    exact (ih hrest).use ha

/-- Releasing an owned handle. -/
theorem release (h : Accounts log owned) (ha : a ∈ owned) :
    Accounts (.release a :: log) (owned \ {a}) where
  disciplined := ⟨h.live a ha, h.disciplined⟩
  live b hb := by
    obtain ⟨hb, hne⟩ := hb
    refine ⟨List.mem_cons_of_mem _ (h.live b hb).1, ?_⟩
    exact List.not_mem_cons_of_ne_of_not_mem (fun heq => hne (Event.release.inj heq))
      (h.live b hb).2
  released b hb hnot := by
    obtain heq | hold := List.mem_cons.1 hb
    · cases heq
    · by_cases hba : b = a
      · subst hba
        rw [List.count_cons_self, List.count_eq_zero_of_not_mem (h.live b ha).2]
      · rw [List.count_cons_of_ne fun heq => hba (Event.release.inj heq).symm]
        exact h.released b hold fun hown => hnot ⟨hown, hba⟩

/-- Releasing owned handles one after another. -/
theorem releaseAll (h : Accounts log owned) {as : List α} (hnd : as.Nodup)
    (hown : ∀ a ∈ as, a ∈ owned) :
    Accounts (as.foldl (fun log a => .release a :: log) log) (owned \ {a | a ∈ as}) := by
  induction as generalizing log owned with
  | nil => simpa using h
  | cons a as ih =>
    obtain ⟨hnot, hnd⟩ := List.nodup_cons.1 hnd
    obtain ⟨ha, hrest⟩ := List.forall_mem_cons.1 hown
    have hone := ih (h.release ha) hnd fun b hb =>
      ⟨hrest b hb, fun heq => hnot (Set.mem_singleton_iff.1 heq ▸ hb)⟩
    have hset : (owned \ {a}) \ {b | b ∈ as} = owned \ {b | b ∈ a :: as} := by
      ext b
      simp only [Set.mem_sdiff, Set.mem_singleton_iff, Set.mem_ofPred_eq, List.mem_cons, not_or,
        and_assoc]
    rwa [hset] at hone

end Accounts

/-! ### Owners in a list -/

section Owners

variable {ι κ : Type*} {f : ι → κ} {l : List ι} {i : ℕ} {x y : ι}

theorem perm_eraseIdx (h : l[i]? = some x) : l.Perm (x :: l.eraseIdx i) := by
  obtain ⟨hi, rfl⟩ := List.getElem?_eq_some_iff.1 h
  exact (List.getElem_cons_eraseIdx_perm hi).symm

theorem mem_map_eraseIdx (h : l[i]? = some x) (k : κ) :
    k ∈ l.map f ↔ k = f x ∨ k ∈ (l.eraseIdx i).map f := by
  rw [((perm_eraseIdx h).map f).mem_iff, List.map_cons, List.mem_cons]

/-- An owner is replaced by one that `f` does not tell apart from it. -/
theorem map_set (h : l[i]? = some x) (hf : f y = f x) : (l.set i y).map f = l.map f := by
  obtain ⟨hi, rfl⟩ := List.getElem?_eq_some_iff.1 h
  have hi' : i < (l.map f).length := by rwa [List.length_map]
  have hfi : f l[i] = (l.map f)[i] := (List.getElem_map f).symm
  rw [List.map_set, hf, hfi, List.set_getElem_self]

end Owners

end Resource
