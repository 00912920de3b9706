import AtomrAccel.Lib.Transition

/-!
# Weakly fair runs without end

A run without end takes a step at each moment or rests.  Labels belong to parties; a run is fair
when a party that could move from some moment on does move then.

* `Endless`, `Endless.reachable`: such runs, and each of their states at the end of a finite run;
* `Enabled`, `Endless.Fair`: weak fairness;
* `eventually_of_rank`: a goal is reached when some party can always bring it nearer, and no step
  of another moves it away or takes that party's turn;
* `halting`, `fair_halting`: a finite run after which no party can move, followed by rests, is fair.
-/

namespace Transition

namespace System

variable {σ ι π β : Type*} {T : System σ ι}

/-- A run that goes on for ever, where `none` stands for a rest. -/
structure Endless (T : System σ ι) where
  state : ℕ → σ
  label : ℕ → Option ι
  start : state 0 = T.init
  next : ∀ k, (label k).elim (some (state k)) (T.step (state k)) = some (state (k + 1))

/-- Party `p` can move in `s`. -/
def Enabled (T : System σ ι) (party : ι → Option π) (p : π) (s : σ) : Prop :=
  ∃ l s', party l = some p ∧ T.step s l = some s'

/-- A party that can move from some moment on moves then. -/
def Endless.Fair (ρ : T.Endless) (party : ι → Option π) : Prop :=
  ∀ p k, (∀ m ≥ k, T.Enabled party p (ρ.state m)) → ∃ m ≥ k, ∃ l ∈ ρ.label m, party l = some p

theorem run_append {s : σ} {ls ls' : List ι} :
    T.run s (ls ++ ls') = (T.run s ls).bind fun t => T.run t ls' := by
  induction ls generalizing s with
  | nil => rfl
  | cons l ls ih =>
    show (T.step s l).bind _ = ((T.step s l).bind _).bind _
    rw [Option.bind_assoc]
    exact congrArg _ (funext fun s' => ih)

variable (ρ : T.Endless)

theorem Endless.next_of_none {k : ℕ} (h : ρ.label k = none) : ρ.state (k + 1) = ρ.state k := by
  have hk := ρ.next k
  rw [h] at hk
  exact (Option.some.inj hk).symm

theorem Endless.next_of_some {k : ℕ} {l : ι} (h : ρ.label k = some l) :
    T.step (ρ.state k) l = some (ρ.state (k + 1)) := by
  have hk := ρ.next k
  rwa [h] at hk

theorem Endless.reachable (k : ℕ) : ∃ ls, T.run T.init ls = some (ρ.state k) := by
  induction k with
  | zero => exact ⟨[], by rw [ρ.start]; rfl⟩
  | succ k ih =>
    obtain ⟨ls, hls⟩ := ih
    cases hl : ρ.label k with
    | none => exact ⟨ls, by rw [ρ.next_of_none hl, hls]⟩
    | some l =>
      refine ⟨ls ++ [l], ?_⟩
      rw [run_append, hls, Option.bind_some, run, ρ.next_of_some hl]
      rfl

/-- As long as the goal `G` is not reached, the party `helpful s` can move, and a step brings the
goal nearer or leaves the distance and the party as they are; only another party's step can do the
latter. -/
theorem Endless.eventually_of_rank {I G : σ → Prop} [Preorder β] [WellFoundedLT β]
    {party : ι → Option π} (rank : σ → β) (helpful : σ → π) (hfair : ρ.Fair party)
    {k : ℕ} (hI : ∀ m ≥ k, I (ρ.state m))
    (henabled : ∀ s, I s → ¬ G s → T.Enabled party (helpful s) s)
    (hstep : ∀ s l s', I s → ¬ G s → T.step s l = some s' → ¬ G s' → rank s' < rank s ∨
      rank s' = rank s ∧ helpful s' = helpful s ∧ party l ≠ some (helpful s)) :
    ∃ m ≥ k, G (ρ.state m) := by
  by_contra hnever
  have hG : ∀ m ≥ k, ¬ G (ρ.state m) := fun m hm hGm => hnever ⟨m, hm, hGm⟩
  -- the rank would fall for ever
  suffices hfall : ∀ m ≥ k, ∃ m' ≥ k, rank (ρ.state m') < rank (ρ.state m) by
    have hall : ∀ b : β, ∀ m ≥ k, rank (ρ.state m) ≠ b := by
      intro b
      induction b using WellFoundedLT.induction with
      | ind b ih =>
        rintro m hm rfl
        obtain ⟨m', hm', hlt⟩ := hfall m hm
        exact ih _ hlt m' hm' rfl
    exact hall _ k le_rfl rfl
  intro m hm
  by_contra hconst
  have hstay : ∀ d, rank (ρ.state (m + d)) = rank (ρ.state m) ∧
      helpful (ρ.state (m + d)) = helpful (ρ.state m) ∧
      ∀ l ∈ ρ.label (m + d), party l ≠ some (helpful (ρ.state m)) := by
    have hnext : ∀ d, rank (ρ.state (m + d)) = rank (ρ.state m) →
        ∀ l ∈ ρ.label (m + d), rank (ρ.state (m + d + 1)) = rank (ρ.state (m + d)) ∧
          helpful (ρ.state (m + d + 1)) = helpful (ρ.state (m + d)) ∧
          party l ≠ some (helpful (ρ.state (m + d))) := by
      intro d hd l hl
      refine (hstep _ l _ (hI _ (by omega)) (hG _ (by omega)) (ρ.next_of_some hl)
        (hG _ (by omega))).resolve_left fun hlt => ?_
      exact hconst ⟨m + d + 1, by omega, hd ▸ hlt⟩
    intro d
    induction d with
    | zero => exact ⟨rfl, rfl, fun l hl => (hnext 0 rfl l hl).2.2⟩
    | succ d ih =>
      obtain ⟨hrank, hhelp, -⟩ := ih
      have hmoved : rank (ρ.state (m + d + 1)) = rank (ρ.state m) ∧
          helpful (ρ.state (m + d + 1)) = helpful (ρ.state m) := by
        cases hl : ρ.label (m + d) with
        | none => rw [ρ.next_of_none hl]; exact ⟨hrank, hhelp⟩
        | some l =>
          obtain ⟨h1, h2, -⟩ := hnext d hrank l hl
          exact ⟨h1.trans hrank, h2.trans hhelp⟩
      exact ⟨hmoved.1, hmoved.2, fun l hl => hmoved.2 ▸ (hnext (d + 1) hmoved.1 l hl).2.2⟩
  obtain ⟨m', hm', l, hl, hparty⟩ := hfair (helpful (ρ.state m)) m fun m' hm' => by
    obtain ⟨d, rfl⟩ := Nat.exists_eq_add_of_le hm'
    rw [← (hstay d).2.1]
    exact henabled _ (hI _ (by omega)) (hG _ (by omega))
  obtain ⟨d, rfl⟩ := Nat.exists_eq_add_of_le hm'
  exact (hstay d).2.2 l hl hparty

/-- A run has got somewhere after each number of labels. -/
theorem run_take {s t : σ} {ls : List ι} (h : T.run s ls = some t) (k : ℕ) :
    ∃ s', T.run s (ls.take k) = some s' := by
  rw [← List.take_append_drop k ls, run_append] at h
  obtain ⟨s', hs', -⟩ := Option.bind_eq_some_iff.1 h
  exact ⟨s', hs'⟩

/-- A finite run, and rests after it. -/
def halting {t : σ} (ls : List ι) (h : T.run T.init ls = some t) : T.Endless where
  state k := (T.run T.init (ls.take k)).getD T.init
  label k := ls[k]?
  start := rfl
  next k := by
    obtain ⟨s, hs⟩ := run_take h k
    obtain ⟨s', hs'⟩ := run_take h (k + 1)
    have hstep := hs'
    rw [List.take_add_one, run_append, hs, Option.bind_some] at hstep
    rw [hs, hs', Option.getD_some, Option.getD_some]
    cases hl : ls[k]? with
    | none =>
      rw [hl] at hstep
      exact hstep
    | some l =>
      rw [hl] at hstep
      obtain ⟨s₁, hs₁, hrun⟩ := run_cons_eq_some.1 hstep
      show T.step s l = some s'
      rw [hs₁]
      exact hrun

theorem fair_halting {t : σ} {ls : List ι} (h : T.run T.init ls = some t) {party : ι → Option π}
    (hquiet : ∀ p, ¬ T.Enabled party p t) : (halting ls h).Fair party := by
  intro p k hk
  have hend : (halting ls h).state (max k ls.length) = t := by
    show (T.run T.init (ls.take _)).getD T.init = t
    rw [List.take_of_length_le (le_max_right _ _), h, Option.getD_some]
  have hmove := hk (max k ls.length) (le_max_left _ _)
  rw [hend] at hmove
  exact absurd hmove (hquiet p)

end System

end Transition
