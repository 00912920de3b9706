import Mathlib.Data.List.Basic
import Mathlib.Logic.Function.Basic
import Mathlib.Tactic

/-!
# Data-parallel kernels with access logs

The per-thread program of a kernel is written in a monad that computes a value and logs every
buffer element it reads or writes.  One definition of a kernel then serves two purposes: its value
(the list of stores, applied with `scatter`) says what the launch computes, its log says which
elements the launch touches.

* `Access`, `Traced`: the monad; `read`, `write`, `forEach`, `gather`: its operations;
* `Traced.InBounds`: all logged elements lie inside their buffers, with one rule per operation;
* `scatter`: a buffer after a list of stores, with the rules for elements that are stored to
  consistently or not at all; the threads of a kernel store in no particular order, so what holds
  of a kernel has to hold for every permutation of its stores;
* `accumulate`: a buffer after a list of atomic additions.
-/

namespace Kernel

universe u

/-- The element `index` of the buffer `buf`. -/
structure Access (β : Type) where
  buf : β
  index : ℤ
  deriving DecidableEq

/-- A value together with the elements that were accessed to compute it. -/
structure Traced (β : Type) (α : Type u) where
  val : α
  log : List (Access β)

namespace Traced

variable {β ι : Type} {α γ : Type u}

instance : Monad (Traced β) where
  pure a := ⟨a, []⟩
  bind x f := ⟨(f x.val).val, x.log ++ (f x.val).log⟩

/-- Load one element. -/
def read (buf : β) (m : ℕ → α) (i : ℕ) : Traced β α := ⟨m i, [⟨buf, i⟩]⟩

/-- Load one element at a signed index.  Outside the buffer the value means nothing. -/
def readInt (buf : β) (m : ℕ → α) (i : ℤ) : Traced β α := ⟨m i.toNat, [⟨buf, i⟩]⟩

/-- Store one element. -/
def write (buf : β) (i : ℕ) (v : α) : Traced β (List (ℕ × α)) := ⟨[(i, v)], [⟨buf, i⟩]⟩

/-- Run a program for each element of a list and collect what they give. -/
def forEach (xs : List ι) (f : ι → Traced β (List γ)) : Traced β (List γ) :=
  ⟨xs.flatMap fun x => (f x).val, xs.flatMap fun x => (f x).log⟩

/-- Every thread below `threads` runs a program for each of its `items`; the results are the
per-thread arrays, indexed by thread and item. -/
def gather (threads items : ℕ) (f : ℕ → ℕ → Traced β α) : Traced β (ℕ → ℕ → α) :=
  ⟨fun t i => (f t i).val,
    (List.range threads).flatMap fun t => (List.range items).flatMap fun i => (f t i).log⟩

/-- Forget the value. -/
def void (x : Traced β α) : Traced β Unit := ⟨(), x.log⟩

@[simp] theorem val_pure (a : α) : (pure a : Traced β α).val = a := rfl
@[simp] theorem val_bind (x : Traced β α) (f : α → Traced β γ) :
    (x >>= f).val = (f x.val).val := rfl
@[simp] theorem val_read (buf : β) (m : ℕ → α) (i : ℕ) : (read buf m i).val = m i := rfl
@[simp] theorem val_readInt (buf : β) (m : ℕ → α) (i : ℤ) : (readInt buf m i).val = m i.toNat := rfl
@[simp] theorem val_write (buf : β) (i : ℕ) (v : α) : (write buf i v).val = [(i, v)] := rfl
@[simp] theorem val_forEach (xs : List ι) (f : ι → Traced β (List γ)) :
    (forEach xs f).val = xs.flatMap fun x => (f x).val := rfl
@[simp] theorem val_gather (threads items : ℕ) (f : ℕ → ℕ → Traced β α) :
    (gather threads items f).val = fun t i => (f t i).val := rfl
@[simp] theorem val_ite (c : Prop) [Decidable c] (x y : Traced β α) :
    (if c then x else y).val = if c then x.val else y.val := apply_ite val c x y

/-! ### Bounds -/

/-- Every accessed element lies inside its buffer. -/
def InBounds (len : β → ℕ) (x : Traced β α) : Prop :=
  ∀ a ∈ x.log, 0 ≤ a.index ∧ a.index < len a.buf

variable {len : β → ℕ}

@[simp] theorem inBounds_pure (a : α) : InBounds len (pure a : Traced β α) := by
  simp [InBounds, pure]

@[simp] theorem inBounds_read (buf : β) (m : ℕ → α) (i : ℕ) :
    InBounds len (read buf m i) ↔ i < len buf := by
  simp [InBounds, read]

@[simp] theorem inBounds_readInt (buf : β) (m : ℕ → α) (i : ℤ) :
    InBounds len (readInt buf m i) ↔ 0 ≤ i ∧ i < len buf := by
  simp [InBounds, readInt]

@[simp] theorem inBounds_write (buf : β) (i : ℕ) (v : α) :
    InBounds len (write buf i v) ↔ i < len buf := by
  simp [InBounds, write]

@[simp] theorem inBounds_bind (x : Traced β α) (f : α → Traced β γ) :
    InBounds len (x >>= f) ↔ InBounds len x ∧ InBounds len (f x.val) :=
  List.forall_mem_append

@[simp] theorem inBounds_forEach (xs : List ι) (f : ι → Traced β (List γ)) :
    InBounds len (forEach xs f) ↔ ∀ x ∈ xs, InBounds len (f x) := by
  simp only [InBounds, forEach, List.mem_flatMap]
  constructor
  · intro h x hx a ha
    exact h a ⟨x, hx, ha⟩
  · rintro h a ⟨x, hx, ha⟩
    exact h x hx a ha

@[simp] theorem inBounds_gather (threads items : ℕ) (f : ℕ → ℕ → Traced β α) :
    InBounds len (gather threads items f) ↔
      ∀ t < threads, ∀ i < items, InBounds len (f t i) := by
  simp only [InBounds, gather, List.mem_flatMap, List.mem_range]
  constructor
  · intro h t ht i hi a ha
    exact h a ⟨t, ht, i, hi, ha⟩
  · rintro h a ⟨t, ht, i, hi, ha⟩
    exact h t ht i hi a ha

@[simp] theorem inBounds_void (x : Traced β α) : InBounds len x.void ↔ InBounds len x := Iff.rfl

@[simp] theorem inBounds_ite (c : Prop) [Decidable c] (x y : Traced β α) :
    InBounds len (if c then x else y) ↔ (c → InBounds len x) ∧ (¬ c → InBounds len y) := by
  by_cases h : c <;> simp [h]

end Traced

/-! ### Scatters -/

section Scatter

variable {α : Type*} {m : ℕ → α} {ws : List (ℕ × α)} {j : ℕ} {v : α}

/-- The buffer `m` after the stores `ws`, the last one to an element winning. -/
def scatter (m : ℕ → α) (ws : List (ℕ × α)) : ℕ → α :=
  ws.foldl (fun m w => Function.update m w.1 w.2) m

theorem scatter_cons (m : ℕ → α) (w : ℕ × α) (ws : List (ℕ × α)) :
    scatter m (w :: ws) = scatter (Function.update m w.1 w.2) ws := rfl

/-- An element nobody stores to keeps its value. -/
theorem scatter_of_not_mem (h : ∀ w ∈ ws, w.1 ≠ j) : scatter m ws j = m j := by
  induction ws generalizing m with
  | nil => rfl
  | cons w ws ih =>
    rw [scatter_cons, ih fun w' hw' => h w' (List.mem_cons_of_mem _ hw')]
    exact Function.update_of_ne (h w List.mem_cons_self).symm _ _

/-- When all stores to an element agree, it has their value, whatever the order. -/
theorem scatter_of_agree (hmem : ∃ w ∈ ws, w.1 = j) (h : ∀ w ∈ ws, w.1 = j → w.2 = v) :
    scatter m ws j = v := by
  induction ws generalizing m with
  | nil => simp at hmem
  | cons w ws ih =>
    rw [scatter_cons]
    by_cases hlater : ∃ w' ∈ ws, w'.1 = j
    · exact ih hlater fun w' hw' => h w' (List.mem_cons_of_mem _ hw')
    · -- the head is the last store to `j`
      have hnone : ∀ w' ∈ ws, w'.1 ≠ j := fun w' hw' heq => hlater ⟨w', hw', heq⟩
      obtain ⟨w', hw', hj⟩ := hmem
      have hhead : w' = w := (List.mem_cons.1 hw').resolve_right fun hin => hnone w' hin hj
      subst hhead
      rw [scatter_of_not_mem hnone, hj, Function.update_self]
      exact h w' List.mem_cons_self hj

/-- Among the orders of a list of stores there is one that ends with a given store. -/
theorem exists_perm_scatter {w : ℕ × α} (hw : w ∈ ws) (m : ℕ → α) :
    ∃ ws' : List (ℕ × α), ws'.Perm ws ∧ scatter m ws' w.1 = w.2 := by
  obtain ⟨l, r, rfl⟩ := List.append_of_mem hw
  refine ⟨l ++ r ++ [w], ?_, ?_⟩
  · rw [List.append_assoc]
    exact (List.perm_append_singleton w r).append_left l
  · simp [scatter, List.foldl_append]

end Scatter

/-! ### Atomic additions -/

section Accumulate

variable {α : Type*}

/-- The buffer `m` after the atomic additions `ws`. -/
def accumulate [Add α] (m : ℕ → α) (ws : List (ℕ × α)) : ℕ → α :=
  ws.foldl (fun m w => Function.update m w.1 (m w.1 + w.2)) m

theorem accumulate_apply [AddMonoid α] (m : ℕ → α) (ws : List (ℕ × α)) (j : ℕ) :
    accumulate m ws j = m j + ((ws.filter fun w => w.1 = j).map Prod.snd).sum := by
  induction ws generalizing m with
  | nil => simp [accumulate]
  | cons w ws ih =>
    change accumulate (Function.update m w.1 (m w.1 + w.2)) ws j = _
    rw [ih]
    by_cases hj : w.1 = j
    · subst hj
      simp [add_assoc]
    · simp [hj, Function.update_of_ne (Ne.symm hj)]

theorem accumulate_append [Add α] (m : ℕ → α) (ws ws' : List (ℕ × α)) :
    accumulate m (ws ++ ws') = accumulate (accumulate m ws) ws' :=
  List.foldl_append

/-- When thread `s` only stores to element `s`, the stores to an element are those of its thread. -/
theorem filter_stores {f : ℕ → List (ℕ × α)} (hf : ∀ s, ∀ w ∈ f s, w.1 = s) (threads j : ℕ) :
    ((List.range threads).flatMap f).filter (fun w => w.1 = j) =
      if j < threads then f j else [] := by
  induction threads with
  | zero => rfl
  | succ threads ih =>
    have hlast : (f threads).filter (fun w => w.1 = j) = if j = threads then f threads else [] := by
      split_ifs with heq
      · rw [List.filter_eq_self]
        exact fun w hw => decide_eq_true ((hf threads w hw).trans heq.symm)
      · rw [List.filter_eq_nil_iff]
        exact fun w hw hj => heq ((of_decide_eq_true hj).symm.trans (hf threads w hw))
    rw [List.range_succ, List.flatMap_append, List.filter_append, ih, List.flatMap_singleton, hlast]
    rcases Nat.lt_trichotomy j threads with hlt | rfl | hgt
    · rw [if_pos hlt, if_neg hlt.ne, if_pos (by omega), List.append_nil]
    · rw [if_neg (lt_irrefl j), if_pos rfl, if_pos (Nat.lt_succ_self j), List.nil_append]
    · rw [if_neg (by omega), if_neg hgt.ne', if_neg (by omega), List.nil_append]

end Accumulate

end Kernel
