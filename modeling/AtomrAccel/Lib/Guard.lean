import Mathlib.Tactic

/-!
# Lock guards

One thread takes locks that are not reentrant: to take a lock that it holds is to wait for ever.  A
lock is held for a scope, and its guard is dropped at the end of the scope, also when a panic
unwinds it.

* `Outcome`, `Guarded`: computations over the locks held and a memory;
* `withLock`: the scope of a guard;
* `Releases`: a computation that ends, ends with the locks it began with; it is closed under what
  computations are built from.
-/

namespace Guard

/-- How a computation ends. -/
inductive Outcome (α : Type)
  | returned (a : α)
  | panicked (text : String)
  /-- it waits for a lock of its own -/
  | deadlocked
  deriving DecidableEq, Repr

/-- A computation over the locks `L` held and a memory `σ`. -/
def Guarded (L σ α : Type) : Type := List L → σ → Outcome α × List L × σ

namespace Guarded

variable {L σ α β : Type}

/-- A computation that does nothing. -/
protected def pure (a : α) : Guarded L σ α := fun held s => (.returned a, held, s)

/-- One computation after another; the second runs if the first returns. -/
protected def bind (x : Guarded L σ α) (f : α → Guarded L σ β) : Guarded L σ β := fun held s =>
  match x held s with
  | (.returned a, held', s') => f a held' s'
  | (.panicked text, held', s') => (.panicked text, held', s')
  | (.deadlocked, held', s') => (.deadlocked, held', s')

instance : Monad (Guarded L σ) where
  pure := Guarded.pure
  bind := Guarded.bind

/-- The state. -/
def fetch : Guarded L σ σ := fun held s => (.returned s, held, s)

/-- A new state. -/
def store (s : σ) : Guarded L σ Unit := fun held _ => (.returned (), held, s)

/-- `Option::expect` on what the memory holds. -/
def expect (present : σ → Bool) (text : String) : Guarded L σ Unit := fun held s =>
  if present s then (.returned (), held, s) else (.panicked text, held, s)

/-- The body runs with the lock held; its guard is dropped when the body returns or panics. -/
def withLock [DecidableEq L] (l : L) (body : Guarded L σ α) : Guarded L σ α := fun held s =>
  if l ∈ held then (.deadlocked, held, s)
  else
    match body (l :: held) s with
    | (.deadlocked, held', s') => (.deadlocked, held', s')
    | (out, held', s') => (out, held'.erase l, s')

/-- Unless it waits for ever, the computation leaves the locks as it found them. -/
def Releases (x : Guarded L σ α) : Prop :=
  ∀ held s, (x held s).1 ≠ .deadlocked → (x held s).2.1 = held

theorem releases_pure (a : α) : Releases (pure a : Guarded L σ α) := fun _ _ _ => rfl

theorem releases_fetch : Releases (fetch : Guarded L σ σ) := fun _ _ _ => rfl

theorem releases_store (s : σ) : Releases (store s : Guarded L σ Unit) := fun _ _ _ => rfl

theorem releases_expect (present : σ → Bool) (text : String) :
    Releases (expect present text : Guarded L σ Unit) := by
  intro held s _
  unfold expect
  split_ifs <;> rfl

theorem Releases.bind {x : Guarded L σ α} {f : α → Guarded L σ β} (hx : Releases x)
    (hf : ∀ a, Releases (f a)) : Releases (x >>= f) := by
  intro held s hend
  change (Guarded.bind x f held s).1 ≠ .deadlocked at hend
  change (Guarded.bind x f held s).2.1 = held
  unfold Guarded.bind at hend ⊢
  have hlocks := hx held s
  rcases hrun : x held s with ⟨out, held', s'⟩
  rw [hrun] at hend hlocks
  cases out with
  | returned a =>
    obtain rfl : held' = held := hlocks nofun
    exact hf a held' s' hend
  | panicked text => exact hlocks nofun
  | deadlocked => exact absurd rfl hend

theorem Releases.withLock [DecidableEq L] {x : Guarded L σ α} (hx : Releases x) (l : L) :
    Releases (withLock l x) := by
  intro held s hend
  unfold Guarded.withLock at hend ⊢
  split_ifs at hend ⊢ with hl
  · exact absurd rfl hend
  · have hlocks := hx (l :: held) s
    rcases hrun : x (l :: held) s with ⟨out, held', s'⟩
    rw [hrun] at hend hlocks
    cases out with
    | returned a =>
      obtain rfl : held' = l :: held := hlocks nofun
      exact List.erase_cons_head l held
    | panicked text =>
      obtain rfl : held' = l :: held := hlocks nofun
      exact List.erase_cons_head l held
    | deadlocked => exact absurd rfl hend

/-! ### Running -/

section Run

variable {x : Guarded L σ α} {f : α → Guarded L σ β} {held held' : List L} {s s' : σ} {a : α}
  {text : String}

theorem bind_of_returned (hx : x held s = (.returned a, held', s')) :
    (x >>= f) held s = f a held' s' := by
  change Guarded.bind x f held s = _
  rw [Guarded.bind, hx]

theorem bind_of_panicked (hx : x held s = (.panicked text, held', s')) :
    (x >>= f) held s = (.panicked text, held', s') := by
  change Guarded.bind x f held s = _
  rw [Guarded.bind, hx]

theorem bind_of_deadlocked (hx : x held s = (.deadlocked, held', s')) :
    (x >>= f) held s = (.deadlocked, held', s') := by
  change Guarded.bind x f held s = _
  rw [Guarded.bind, hx]

variable [DecidableEq L] {l : L}

theorem withLock_of_returned (hl : l ∉ held)
    (hx : x (l :: held) s = (.returned a, l :: held, s')) :
    withLock l x held s = (.returned a, held, s') := by
  rw [withLock, if_neg hl, hx]
  exact Prod.ext rfl (Prod.ext (List.erase_cons_head l held) rfl)

end Run

end Guarded

end Guard
