import AtomrAccel.Lib.Kernel
import AtomrAccel.Lib.Transition
import Mathlib

/-!
# The threads of a launch, over one memory

The threads of a launch run at the same time, over one memory.  Each action of a thread is atomic,
and what it does next may depend on what it has read.

* `Thread`, `Thread.act`: a thread, and its next action;
* `State`, `interleaving`, `State.Finished`: any interleaving of the threads;
* `Thread.AtMost`, `length_le`, `exists_finished`: threads with a bound on their actions come to
  their end, whatever the order;
* `Thread.alone`, `Thread.Within`, `memory_of_disjoint`: threads that keep to disjoint parts of the
  memory do what each of them does alone;
* `Thread.WritesIn`, `memory_of_writesIn`: elements that no thread writes stay;
* `Thread.Nets`, `sum_memory`: what atomic additions come to, whatever has been read;
* `adds`, `memory_of_adds`, `exists_run_adds`: threads that only add;
* `Launch`, `Launched`, `Launches`: launches one after another.
-/

namespace Threads

open Transition Kernel

/-- What a thread still has to do. -/
inductive Thread (α κ : Type*)
  | done
  | read (a : α) (next : κ → Thread α κ)
  | write (a : α) (v : κ) (next : Thread α κ)
  /-- an atomic addition -/
  | add (a : α) (v : κ) (next : Thread α κ)

variable {ι α κ : Type*} [DecidableEq ι] [DecidableEq α]

section Runs

variable [Add κ]

/-- The next action: the memory after it, and what remains to be done. -/
def Thread.act (m : α → κ) : Thread α κ → Option ((α → κ) × Thread α κ)
  | .done => none
  | .read a next => some (m, next (m a))
  | .write a v next => some (Function.update m a v, next)
  | .add a v next => some (Function.update m a (m a + v), next)

/-- The memory, and what is left of each thread. -/
structure State (ι α κ : Type*) where
  memory : α → κ
  threads : ι → Thread α κ

/-- The thread `i` does its next action. -/
def step (s : State ι α κ) (i : ι) : Option (State ι α κ) :=
  ((s.threads i).act s.memory).map fun (m, t) => ⟨m, Function.update s.threads i t⟩

/-- The threads in any order. -/
def interleaving (m : α → κ) (threads : ι → Thread α κ) : System (State ι α κ) ι where
  init := ⟨m, threads⟩
  step := step

/-- Nothing is left of any thread. -/
def State.Finished (s : State ι α κ) : Prop := ∀ i, s.threads i = .done

variable {m : α → κ} {threads : ι → Thread α κ} {s s' : State ι α κ} {i : ι} {ls : List ι}

theorem step_cases (h : step s i = some s') :
    ∃ m t, (s.threads i).act s.memory = some (m, t) ∧ s' = ⟨m, Function.update s.threads i t⟩ := by
  obtain ⟨⟨m, t⟩, hact, rfl⟩ := Option.map_eq_some_iff.1 h
  exact ⟨m, t, hact, rfl⟩

theorem exists_step (h : s.threads i ≠ .done) : ∃ s', step s i = some s' := by
  unfold step
  cases hthread : s.threads i with
  | done => exact absurd hthread h
  | read a next => exact ⟨_, rfl⟩
  | write a v next => exact ⟨_, rfl⟩
  | add a v next => exact ⟨_, rfl⟩

omit [DecidableEq α] [Add κ] in
/-- A property of threads that their actions keep is kept by all of them. -/
theorem forall_update {P : ι → Thread α κ → Prop} (h : ∀ i, P i (s.threads i)) {t : Thread α κ}
    (ht : P i t) (j : ι) : P j (Function.update s.threads i t j) := by
  by_cases hj : j = i
  · subst hj
    rwa [Function.update_self]
  · rw [Function.update_of_ne hj]
    exact h j

/-! ### Bounds -/

/-- At most `n` actions, whatever is read. -/
def Thread.AtMost : ℕ → Thread α κ → Prop
  | _, .done => True
  | 0, _ => False
  | n + 1, .read _ next => ∀ v, (next v).AtMost n
  | n + 1, .write _ _ next => next.AtMost n
  | n + 1, .add _ _ next => next.AtMost n

omit [DecidableEq α] [Add κ] in
theorem Thread.AtMost.mono {n k : ℕ} {t : Thread α κ} (h : t.AtMost n) (hle : n ≤ k) :
    t.AtMost k := by
  induction t generalizing n k with
  | done => cases k <;> trivial
  | read a next ih =>
    cases n with
    | zero => exact h.elim
    | succ n =>
      obtain ⟨k, rfl⟩ := Nat.exists_eq_add_one.2 (n.succ_pos.trans_le hle)
      exact fun v => ih v (h v) (Nat.le_of_succ_le_succ hle)
  | write a v next ih =>
    cases n with
    | zero => exact h.elim
    | succ n =>
      obtain ⟨k, rfl⟩ := Nat.exists_eq_add_one.2 (n.succ_pos.trans_le hle)
      exact ih h (Nat.le_of_succ_le_succ hle)
  | add a v next ih =>
    cases n with
    | zero => exact h.elim
    | succ n =>
      obtain ⟨k, rfl⟩ := Nat.exists_eq_add_one.2 (n.succ_pos.trans_le hle)
      exact ih h (Nat.le_of_succ_le_succ hle)

theorem Thread.AtMost.act {n : ℕ} {t t' : Thread α κ} {m' : α → κ} (h : t.AtMost n)
    (hact : t.act m = some (m', t')) : ∃ k, n = k + 1 ∧ t'.AtMost k := by
  cases n with
  | zero =>
    cases t with
    | done => cases hact
    | read a next => exact h.elim
    | write a v next => exact h.elim
    | add a v next => exact h.elim
  | succ k =>
    refine ⟨k, rfl, ?_⟩
    cases t with
    | done => cases hact
    | read a next =>
      cases hact
      exact h (m a)
    | write a v next =>
      cases hact
      exact h
    | add a v next =>
      cases hact
      exact h

section Finite

variable [Fintype ι] {b : ι → ℕ}

theorem sum_update_add {M : Type*} [AddCommMonoid M] (f : ι → M) (i : ι) (x : M) :
    ∑ j, Function.update f i x j + f i = ∑ j, f j + x := by
  rw [Finset.sum_update_of_mem (Finset.mem_univ i), Finset.sum_eq_add_sum_sdiff_singleton_of_mem
    (Finset.mem_univ i) f, add_comm, ← add_assoc, add_right_comm]

/-- An action uses up one of those that are left. -/
theorem exists_bound_step (h : ∀ i, (s.threads i).AtMost (b i)) (hs : step s i = some s') :
    ∃ b' : ι → ℕ, (∀ j, (s'.threads j).AtMost (b' j)) ∧ ∑ j, b' j + 1 = ∑ j, b j := by
  obtain ⟨m', t, hact, rfl⟩ := step_cases hs
  obtain ⟨k, hk, ht⟩ := (h i).act hact
  refine ⟨Function.update b i k, fun j => ?_, ?_⟩
  · by_cases hj : j = i
    · subst hj
      simpa only [Function.update_self] using ht
    · simpa only [Function.update_of_ne hj] using h j
  · have hsum := sum_update_add b i k
    omega

/-- No run of threads with a bound is longer than the bounds together. -/
theorem length_le (h : ∀ i, (threads i).AtMost (b i))
    (hrun : (interleaving m threads).run (interleaving m threads).init ls = some s) :
    ls.length ≤ ∑ i, b i := by
  have hgen : ∀ (ls : List ι) (s s' : State ι α κ) (b : ι → ℕ),
      (∀ i, (s.threads i).AtMost (b i)) → (interleaving m threads).run s ls = some s' →
      ls.length ≤ ∑ i, b i := by
    intro ls
    induction ls with
    | nil => exact fun _ _ b _ _ => Nat.zero_le _
    | cons i ls ih =>
      intro s s' b h hrun
      obtain ⟨t, hstep, hrest⟩ := System.run_cons_eq_some.1 hrun
      obtain ⟨b', h', hsum⟩ := exists_bound_step h hstep
      have hle := ih t s' b' h' hrest
      rw [List.length_cons]
      omega
  exact hgen ls _ s b h hrun

/-- They come to their end from wherever they are. -/
theorem exists_finished (h : ∀ i, (s.threads i).AtMost (b i)) :
    ∃ ls s', (interleaving m threads).run s ls = some s' ∧ s'.Finished := by
  obtain ⟨n, hn⟩ : ∃ n, n = ∑ i, b i := ⟨_, rfl⟩
  induction n generalizing s b with
  | zero =>
    refine ⟨[], s, rfl, fun i => ?_⟩
    have hzero : b i = 0 := Nat.le_zero.1 (hn ▸ Finset.single_le_sum
      (fun j _ => Nat.zero_le (b j)) (Finset.mem_univ i))
    have hi := h i
    rw [hzero] at hi
    cases hthread : s.threads i with
    | done => rfl
    | read a next => exact (hthread ▸ hi : (Thread.read a next).AtMost 0).elim
    | write a v next => exact (hthread ▸ hi : (Thread.write a v next).AtMost 0).elim
    | add a v next => exact (hthread ▸ hi : (Thread.add a v next).AtMost 0).elim
  | succ n ih =>
    by_cases hfinished : s.Finished
    · exact ⟨[], s, rfl, hfinished⟩
    · obtain ⟨i, hi⟩ := not_forall.1 hfinished
      obtain ⟨s', hs'⟩ := exists_step hi
      obtain ⟨b', h', hsum⟩ := exists_bound_step h hs'
      obtain ⟨ls, t, hrun, ht⟩ := ih h' (by omega)
      exact ⟨i :: ls, t, System.run_cons_eq_some.2 ⟨s', hs', hrun⟩, ht⟩

end Finite

/-! ### Disjoint parts -/

namespace Thread

/-- The memory after the thread has run to its end with nobody else around. -/
def alone : Thread α κ → (α → κ) → α → κ
  | .done, m => m
  | .read a next, m => (next (m a)).alone m
  | .write a v next, m => next.alone (Function.update m a v)
  | .add a v next, m => next.alone (Function.update m a (m a + v))

/-- All elements that are read, written or added to are in `S`. -/
def Within (S : Set α) : Thread α κ → Prop
  | .done => True
  | .read a next => a ∈ S ∧ ∀ v, (next v).Within S
  | .write a _ next => a ∈ S ∧ next.Within S
  | .add a _ next => a ∈ S ∧ next.Within S

/-- All elements that are written or added to are in `S`. -/
def WritesIn (S : Set α) : Thread α κ → Prop
  | .done => True
  | .read _ next => ∀ v, (next v).WritesIn S
  | .write a _ next => a ∈ S ∧ next.WritesIn S
  | .add a _ next => a ∈ S ∧ next.WritesIn S

variable {S : Set α} {t t' : Thread α κ} {m' : α → κ}

omit [Add κ] [DecidableEq α] in
theorem Within.writesIn (h : t.Within S) : t.WritesIn S := by
  induction t with
  | done => trivial
  | read a next ih => exact fun v => ih v (h.2 v)
  | write a v next ih => exact ⟨h.1, ih h.2⟩
  | add a v next ih => exact ⟨h.1, ih h.2⟩

omit [Add κ] [DecidableEq α] in
theorem WritesIn.mono {S' : Set α} (hsub : S ⊆ S') (h : t.WritesIn S) : t.WritesIn S' := by
  induction t with
  | done => trivial
  | read a next ih => exact fun v => ih v (h v)
  | write a v next ih => exact ⟨hsub h.1, ih h.2⟩
  | add a v next ih => exact ⟨hsub h.1, ih h.2⟩

theorem alone_of_act (hact : t.act m = some (m', t')) : t'.alone m' = t.alone m := by
  cases t with
  | done => cases hact
  | read a next =>
    cases hact
    rfl
  | write a v next =>
    cases hact
    rfl
  | add a v next =>
    cases hact
    rfl

theorem Within.act (h : t.Within S) (hact : t.act m = some (m', t')) : t'.Within S := by
  cases t with
  | done => cases hact
  | read a next =>
    cases hact
    exact h.2 _
  | write a v next =>
    cases hact
    exact h.2
  | add a v next =>
    cases hact
    exact h.2

theorem WritesIn.act (h : t.WritesIn S) (hact : t.act m = some (m', t')) :
    t'.WritesIn S ∧ ∀ a ∉ S, m' a = m a := by
  cases t with
  | done => cases hact
  | read a next =>
    cases hact
    exact ⟨h _, fun _ _ => rfl⟩
  | write b v next =>
    cases hact
    exact ⟨h.2, fun a ha => Function.update_of_ne (fun hab => ha (by rw [hab]; exact h.1)) _ _⟩
  | add b v next =>
    cases hact
    exact ⟨h.2, fun a ha => Function.update_of_ne (fun hab => ha (by rw [hab]; exact h.1)) _ _⟩

/-- What a thread does to its part of the memory depends on that part only. -/
theorem Within.alone_congr (h : t.Within S) {m m' : α → κ} (hm : ∀ a ∈ S, m a = m' a) :
    ∀ a ∈ S, t.alone m a = t.alone m' a := by
  have hupdate : ∀ {m m' : α → κ} (b : α) (v v' : κ), v = v' → (∀ a ∈ S, m a = m' a) →
      ∀ a ∈ S, Function.update m b v a = Function.update m' b v' a := by
    rintro m m' b v _ rfl hm a ha
    by_cases hab : a = b
    · rw [hab, Function.update_self, Function.update_self]
    · rw [Function.update_of_ne hab, Function.update_of_ne hab]
      exact hm a ha
  induction t generalizing m m' with
  | done => exact hm
  | read b next ih =>
    have hb : m b = m' b := hm b h.1
    show ∀ a ∈ S, (next (m b)).alone m a = (next (m' b)).alone m' a
    rw [hb]
    exact ih (m' b) (h.2 (m' b)) hm
  | write b v next ih => exact ih h.2 (hupdate b v v rfl hm)
  | add b v next ih => exact ih h.2 (hupdate b _ _ (by rw [hm b h.1]) hm)

end Thread

/-- Elements that no thread writes are as they were. -/
theorem memory_of_writesIn {S : Set α} (h : ∀ i, (threads i).WritesIn S)
    (hrun : (interleaving m threads).run (interleaving m threads).init ls = some s) {a : α}
    (ha : a ∉ S) : s.memory a = m a := by
  have hinv : (∀ i, (s.threads i).WritesIn S) ∧ s.memory a = m a := by
    refine (System.along_of_inv (T := interleaving m threads)
      (I := fun s => (∀ i, (s.threads i).WritesIn S) ∧ s.memory a = m a)
      (fun _ hs => hs) (fun s i s' hs hstep => ?_) ⟨h, rfl⟩ ls).last hrun
    obtain ⟨m', t, hact, rfl⟩ := step_cases hstep
    obtain ⟨ht, hsame⟩ := (hs.1 i).act hact
    exact ⟨forall_update hs.1 ht, (hsame a ha).trans hs.2⟩
  exact hinv.2

/-- When every thread keeps to a part of the memory of its own, that part is in the end as the
thread alone would have left it, in whatever order they have run. -/
theorem memory_of_disjoint {S : ι → Set α} (hdisjoint : Pairwise (Function.onFun Disjoint S))
    (h : ∀ i, (threads i).Within (S i))
    (hrun : (interleaving m threads).run (interleaving m threads).init ls = some s)
    (hfinished : s.Finished) {i : ι} {a : α} (ha : a ∈ S i) : s.memory a = (threads i).alone m a := by
  have hinv : ∀ i, (s.threads i).Within (S i) ∧
      ∀ a ∈ S i, (s.threads i).alone s.memory a = (threads i).alone m a := by
    refine (System.along_of_inv (T := interleaving m threads)
      (I := fun s => ∀ i, (s.threads i).Within (S i) ∧
        ∀ a ∈ S i, (s.threads i).alone s.memory a = (threads i).alone m a)
      (fun _ hs => hs) (fun s i s' hs hstep j => ?_) (fun i => ⟨h i, fun _ _ => rfl⟩) ls).last hrun
    obtain ⟨m', t, hact, rfl⟩ := step_cases hstep
    show (Function.update s.threads i t j).Within (S j) ∧
      ∀ a ∈ S j, (Function.update s.threads i t j).alone m' a = (threads j).alone m a
    by_cases hj : j = i
    · subst hj
      rw [Function.update_self]
      refine ⟨(hs j).1.act hact, fun a ha => ?_⟩
      rw [Thread.alone_of_act hact]
      exact (hs j).2 a ha
    · rw [Function.update_of_ne hj]
      refine ⟨(hs j).1, fun a ha => ?_⟩
      rw [← (hs j).2 a ha]
      -- the action was in the part of `i`, which `j` does not look at
      refine (hs j).1.alone_congr (fun a ha => ?_) a ha
      refine ((hs i).1.writesIn.act hact).2 a fun hai => ?_
      exact Set.disjoint_left.1 (hdisjoint hj) ha hai
  rw [← (hinv i).2 a ha, hfinished i]
  rfl

end Runs

/-! ### Sums -/

section Sums

variable [AddCommGroup κ] {m : α → κ} {threads : ι → Thread α κ} {s s' : State ι α κ}
  {ls : List ι} {A : Finset α}

/-- Nothing in `A` is written, and the additions to it come to `v`, whatever is read. -/
def Thread.Nets (A : Finset α) : κ → Thread α κ → Prop
  | v, .done => v = 0
  | v, .read _ next => ∀ w, (next w).Nets A v
  | v, .write a _ next => a ∉ A ∧ next.Nets A v
  | v, .add a w next => next.Nets A (if a ∈ A then v - w else v)

theorem sum_update_of_notMem {a : α} (ha : a ∉ A) (m : α → κ) (v : κ) :
    ∑ b ∈ A, Function.update m a v b = ∑ b ∈ A, m b :=
  Finset.sum_congr rfl fun b hb => Function.update_of_ne (fun hba => ha (by rwa [← hba])) _ _

theorem Thread.Nets.act {t t' : Thread α κ} {m' : α → κ} {v : κ} (h : t.Nets A v)
    (hact : t.act m = some (m', t')) :
    ∃ v', t'.Nets A v' ∧ ∑ a ∈ A, m' a + v' = ∑ a ∈ A, m a + v := by
  cases t with
  | done => cases hact
  | read a next =>
    cases hact
    exact ⟨v, h _, rfl⟩
  | write a w next =>
    cases hact
    exact ⟨v, h.2, by rw [sum_update_of_notMem h.1]⟩
  | add a w next =>
    cases hact
    refine ⟨_, h, ?_⟩
    by_cases ha : a ∈ A
    · rw [if_pos ha, Finset.sum_update_of_mem ha, Finset.sum_eq_add_sum_sdiff_singleton_of_mem ha m]
      abel
    · rw [if_neg ha, sum_update_of_notMem ha]

/-- The elements of `A` come to what they came to before and what the threads add. -/
theorem sum_memory [Fintype ι] {v : ι → κ} (h : ∀ i, (threads i).Nets A (v i))
    (hrun : (interleaving m threads).run (interleaving m threads).init ls = some s)
    (hfinished : s.Finished) : ∑ a ∈ A, s.memory a = ∑ a ∈ A, m a + ∑ i, v i := by
  obtain ⟨v', h', hsum⟩ : ∃ v' : ι → κ, (∀ i, (s.threads i).Nets A (v' i)) ∧
      ∑ a ∈ A, s.memory a + ∑ i, v' i = ∑ a ∈ A, m a + ∑ i, v i := by
    refine (System.along_of_inv (T := interleaving m threads)
      (I := fun s => ∃ v' : ι → κ, (∀ i, (s.threads i).Nets A (v' i)) ∧
        ∑ a ∈ A, s.memory a + ∑ i, v' i = ∑ a ∈ A, m a + ∑ i, v i)
      (fun _ hs => hs) ?_ ⟨v, h, rfl⟩ ls).last hrun
    rintro s i s' ⟨v', h', hsum⟩ hstep
    obtain ⟨m', t, hact, rfl⟩ := step_cases hstep
    obtain ⟨w, ht, hw⟩ := (h' i).act hact
    refine ⟨Function.update v' i w, fun j => ?_, ?_⟩
    · by_cases hj : j = i
      · subst hj
        simpa only [Function.update_self] using ht
      · simpa only [Function.update_of_ne hj] using h' j
    · have hv := sum_update_add v' i w
      rw [← hsum]
      refine add_right_cancel (b := v' i) ?_
      rw [add_assoc, hv, add_comm _ w, ← add_assoc, hw]
      exact add_right_comm _ _ _
  have hzero : ∑ i, v' i = 0 := Finset.sum_eq_zero fun i _ => by
    have hi := h' i
    rw [hfinished i] at hi
    exact hi
  rw [← hsum, hzero, add_zero]

end Sums

/-! ### Additions alone -/

section Adds

variable [Add κ] {m : ℕ → κ} {l : ι → List (ℕ × κ)} {s s' : State ι ℕ κ} {ls : List ι} {i : ι}

/-- A thread that only adds. -/
def adds : List (ℕ × κ) → Thread ℕ κ
  | [] => .done
  | w :: l => .add w.1 w.2 (adds l)

omit [Add κ] in
theorem adds_eq_done {l : List (ℕ × κ)} (h : adds l = .done) : l = [] := by
  cases l with
  | nil => rfl
  | cons w l => cases h

theorem step_adds_cases (hthreads : s.threads = fun i => adds (l i)) (hs : step s i = some s') :
    ∃ w rest, l i = w :: rest ∧
      s' = ⟨Function.update s.memory w.1 (s.memory w.1 + w.2),
        fun j => adds (Function.update l i rest j)⟩ := by
  obtain ⟨m', t, hact, rfl⟩ := step_cases hs
  have hact : (adds (l i)).act s.memory = some (m', t) := by rwa [hthreads] at hact
  cases hl : l i with
  | nil =>
    rw [hl] at hact
    cases hact
  | cons w rest =>
    rw [hl] at hact
    cases hact
    refine ⟨w, rest, rfl, ?_⟩
    congr 1
    funext j
    by_cases hj : j = i
    · subst hj
      rw [Function.update_self, Function.update_self]
    · rw [Function.update_of_ne hj, Function.update_of_ne hj, hthreads]

theorem step_adds (hthreads : s.threads = fun i => adds (l i)) {w : ℕ × κ} {rest : List (ℕ × κ)}
    (hl : l i = w :: rest) : ∃ s', step s i = some s' :=
  exists_step fun hdone => by
    rw [hthreads] at hdone
    have hnil := adds_eq_done hdone
    rw [hl] at hnil
    cases hnil

variable [Fintype ι]

omit [Add κ] in
theorem sum_update_rest {w : ℕ × κ} {rest : List (ℕ × κ)} (hl : l i = w :: rest) :
    ∑ j, (l j : Multiset (ℕ × κ)) = w ::ₘ ∑ j, (Function.update l i rest j : Multiset (ℕ × κ)) := by
  have hsum := sum_update_add (fun j => (l j : Multiset (ℕ × κ))) i (rest : Multiset (ℕ × κ))
  have hcomm : (Function.update (fun j => (l j : Multiset (ℕ × κ))) i rest) =
      fun j => (Function.update l i rest j : Multiset (ℕ × κ)) := by
    funext j
    exact (Function.apply_update (fun _ (x : List (ℕ × κ)) => (x : Multiset (ℕ × κ)))
      l i rest j).symm
  rw [hcomm, hl, ← Multiset.cons_coe, ← Multiset.singleton_add, ← add_assoc] at hsum
  rw [← Multiset.singleton_add, add_comm]
  exact (add_right_cancel hsum).symm

/-- The additions of all threads come to the memory one after the other, in some order. -/
theorem memory_of_adds
    (hrun : (interleaving m fun i => adds (l i)).run ⟨m, fun i => adds (l i)⟩ ls = some s)
    (hfinished : s.Finished) :
    ∃ ws : List (ℕ × κ), (ws : Multiset (ℕ × κ)) = ∑ i, (l i : Multiset (ℕ × κ)) ∧
      s.memory = accumulate m ws := by
  have hgen : ∀ (ls : List ι) (m' : ℕ → κ) (l' : ι → List (ℕ × κ)),
      (interleaving m fun i => adds (l i)).run ⟨m', fun i => adds (l' i)⟩ ls = some s →
      ∃ ws : List (ℕ × κ), (ws : Multiset (ℕ × κ)) = ∑ i, (l' i : Multiset (ℕ × κ)) ∧
        s.memory = accumulate m' ws := by
    intro ls
    induction ls with
    | nil =>
      intro m' l' hrun
      obtain rfl := Option.some.inj hrun
      refine ⟨[], ?_, rfl⟩
      refine (Finset.sum_eq_zero fun i _ => ?_).symm
      rw [adds_eq_done (hfinished i)]
      rfl
    | cons i ls ih =>
      intro m' l' hrun
      obtain ⟨t, hstep, hrest⟩ := System.run_cons_eq_some.1 hrun
      obtain ⟨w, rest, hl, rfl⟩ := step_adds_cases rfl hstep
      obtain ⟨ws, hws, hmemory⟩ := ih _ _ hrest
      refine ⟨w :: ws, ?_, hmemory⟩
      rw [sum_update_rest hl, ← hws]
      rfl
  exact hgen ls m l hrun

/-- When no thread adds more than once, any order can come about. -/
theorem exists_run_adds (hone : ∀ i, (l i).length ≤ 1) {ws : List (ℕ × κ)}
    (hws : (ws : Multiset (ℕ × κ)) = ∑ i, (l i : Multiset (ℕ × κ))) :
    ∃ ls s, (interleaving m fun i => adds (l i)).run ⟨m, fun i => adds (l i)⟩ ls = some s ∧
      s.Finished ∧ s.memory = accumulate m ws := by
  have hgen : ∀ (ws : List (ℕ × κ)) (m' : ℕ → κ) (l' : ι → List (ℕ × κ)),
      (∀ i, (l' i).length ≤ 1) → (ws : Multiset (ℕ × κ)) = ∑ i, (l' i : Multiset (ℕ × κ)) →
      ∃ ls s, (interleaving m fun i => adds (l i)).run ⟨m', fun i => adds (l' i)⟩ ls = some s ∧
        s.Finished ∧ s.memory = accumulate m' ws := by
    intro ws
    induction ws with
    | nil =>
      intro m' l' hone hws
      refine ⟨[], _, rfl, fun i => ?_, rfl⟩
      have hi : (l' i : Multiset (ℕ × κ)) = 0 :=
        Finset.sum_eq_zero_iff.1 hws.symm i (Finset.mem_univ i)
      show adds (l' i) = .done
      rw [(Multiset.coe_eq_zero _).1 hi]
      rfl
    | cons w ws ih =>
      intro m' l' hone hws
      have hmem : w ∈ ∑ i, (l' i : Multiset (ℕ × κ)) := by
        rw [← hws]
        exact List.mem_cons_self
      obtain ⟨i, -, hi⟩ := Multiset.mem_sum.1 hmem
      have hi : w ∈ l' i := hi
      obtain ⟨rest, hl, hrest⟩ : ∃ rest, l' i = w :: rest ∧ rest = [] := by
        cases hl : l' i with
        | nil => rw [hl] at hi; cases hi
        | cons w' rest =>
          have hlen := hone i
          rw [hl, List.length_cons] at hlen
          have hrest : rest = [] := List.length_eq_zero_iff.1 (by omega)
          rw [hl, hrest] at hi
          exact ⟨rest, by rw [List.mem_singleton.1 hi], hrest⟩
      obtain ⟨s', hs'⟩ := step_adds (s := ⟨m', fun i => adds (l' i)⟩) rfl hl
      obtain ⟨w', rest', hl', rfl⟩ := step_adds_cases rfl hs'
      obtain ⟨rfl, rfl⟩ := List.cons.inj (hl.symm.trans hl')
      have hws' : (ws : Multiset (ℕ × κ)) =
          ∑ j, (Function.update l' i rest j : Multiset (ℕ × κ)) := by
        rw [sum_update_rest hl] at hws
        exact (Multiset.cons_inj_right w).1 hws
      have hone' : ∀ j, (Function.update l' i rest j).length ≤ 1 := by
        intro j
        by_cases hj : j = i
        · subst hj
          rw [Function.update_self, hrest]
          exact Nat.zero_le 1
        · rw [Function.update_of_ne hj]
          exact hone j
      obtain ⟨ls, s, hrun, hfinished, hmemory⟩ := ih _ _ hone' hws'
      exact ⟨i :: ls, s, System.run_cons_eq_some.2 ⟨_, hs', hrun⟩, hfinished, hmemory⟩
  exact hgen ws m l hone hws

end Adds

/-! ### Launches in a row -/

section Launches

variable [Add κ]

/-- A number of threads. -/
structure Launch (α κ : Type*) where
  count : ℕ
  thread : Fin count → Thread α κ

/-- In some order the threads come to their end, and leave `m'`. -/
def Launched (l : Launch α κ) (m m' : α → κ) : Prop :=
  ∃ ls s, (interleaving m l.thread).run (interleaving m l.thread).init ls = some s ∧ s.Finished ∧
    s.memory = m'

/-- Launches in one stream: each starts when the one before it has come to its end. -/
def Launches : List (Launch α κ) → (α → κ) → (α → κ) → Prop
  | [], m, m' => m' = m
  | l :: rest, m, m' => ∃ m₁, Launched l m m₁ ∧ Launches rest m₁ m'

variable {m m' : α → κ}

theorem launches_append {ls ls' : List (Launch α κ)} :
    Launches (ls ++ ls') m m' ↔ ∃ m₁, Launches ls m m₁ ∧ Launches ls' m₁ m' := by
  induction ls generalizing m with
  | nil =>
    refine ⟨fun h => ⟨m, rfl, h⟩, ?_⟩
    rintro ⟨_, rfl, h⟩
    exact h
  | cons l ls ih =>
    constructor
    · rintro ⟨m₁, hl, h⟩
      obtain ⟨m₂, h₂, h'⟩ := ih.1 h
      exact ⟨m₂, ⟨m₁, hl, h₂⟩, h'⟩
    · rintro ⟨m₂, ⟨m₁, hl, h₂⟩, h'⟩
      exact ⟨m₁, hl, ih.2 ⟨m₂, h₂, h'⟩⟩

theorem exists_launched {l : Launch α κ} {n : ℕ} (h : ∀ i, (l.thread i).AtMost n) (m : α → κ) :
    ∃ m', Launched l m m' := by
  obtain ⟨ls, s, hrun, hfinished⟩ :=
    exists_finished (m := m) (s := (interleaving m l.thread).init) (b := fun _ => n) h
  exact ⟨s.memory, ls, s, hrun, hfinished, rfl⟩

/-- Launches of threads with a bound come to their end. -/
theorem exists_launches {ls : List (Launch α κ)} {n : ℕ}
    (h : ∀ l ∈ ls, ∀ i, (l.thread i).AtMost n) (m : α → κ) : ∃ m', Launches ls m m' := by
  induction ls generalizing m with
  | nil => exact ⟨m, rfl⟩
  | cons l ls ih =>
    obtain ⟨hl, hls⟩ := List.forall_mem_cons.1 h
    obtain ⟨m₁, hm₁⟩ := exists_launched hl m
    obtain ⟨m', hm'⟩ := ih hls m₁
    exact ⟨m', m₁, hm₁, hm'⟩

end Launches

end Threads
