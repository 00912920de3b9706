import AtomrAccel.Pipeline.Executor

/-!
# What a run leaves in memory, and that it ends

* `memory_of_run`: a run that returns an output leaves in its region what its kernels leave one
  after the other, whatever the rest of the device did meanwhile;
* `Label.party`: the run and the units of the device that carry out the commands;
* `rank`, `rank_advance`: each step of a run brings it nearer to its end;
* `eventually_returned`: in every fair schedule a run returns.
-/

namespace AtomrAccel

namespace Pipeline

open Streams Transition

variable {Ty : Type} [DecidableEq Ty] {val : Ty → Type} {S K : Type} [DecidableEq S]
  {stages : List (PipelineStage val S K)} {streams : List S} {input : Payload val}
  {past : Device S K} {typeName : Ty → String} {O : Ty}

/-! ## Memory -/

section Memory

variable {L V : Type*} (sem : K → (L → V) → L → V)

omit [DecidableEq S] in
/-- The command at a place does what its kernel does, if it has one. -/
theorem effectAt_eq (log : List (Command S K)) (i : ℕ) (m : L → V) :
    effectAt sem log m i = (kernelsAt log [i]).foldl (fun m k => sem k m) m := by
  unfold effectAt kernelsAt
  cases hc : log[i]? with
  | none => simp [hc]
  | some c =>
    obtain ⟨stream, op⟩ := c
    cases op <;> simp [hc, kernel?, Op.effect]

omit [DecidableEq S] in
theorem memory_eq_foldl (log : List (Command S K)) (places : List ℕ) (m : L → V) :
    memory sem log places m = (kernelsAt log places).foldl (fun m k => sem k m) m := by
  induction places generalizing m with
  | nil => rfl
  | cons i places ih =>
    have hcons : kernelsAt log (i :: places) = kernelsAt log [i] ++ kernelsAt log places :=
      List.filterMap_append (l := [i])
    rw [hcons, List.foldl_append, ← effectAt_eq]
    exact ih _

theorem eqOn_foldl {R : Set L} {ks : List K} (h : ∀ k ∈ ks, ∀ m m', Set.EqOn m m' R →
    Set.EqOn (sem k m) (sem k m') R) {m m' : L → V} (hm : Set.EqOn m m' R) :
    Set.EqOn (ks.foldl (fun m k => sem k m) m) (ks.foldl (fun m k => sem k m) m') R := by
  induction ks generalizing m m' with
  | nil => exact hm
  | cons k ks ih =>
    obtain ⟨hk, hks⟩ := List.forall_mem_cons.1 h
    exact ih hks (hk m m' hm)

theorem foldl_eqOn {R : Set L} {ks : List K} (h : ∀ k ∈ ks, ∀ m, Set.EqOn (sem k m) m R)
    (m : L → V) : Set.EqOn (ks.foldl (fun m k => sem k m) m) m R := by
  induction ks generalizing m with
  | nil => exact Set.eqOn_refl m R
  | cons k ks ih =>
    obtain ⟨hk, hks⟩ := List.forall_mem_cons.1 h
    exact (ih hks _).trans (hk m)

/-- A run that returns an output leaves in a region that is its own what its kernels, one after the
other, make of what was there at its start. -/
theorem memory_of_run (hpast : past.Sound) {ls : List (Label S K)} {s : Exec val S K O}
    (h : (system typeName stages streams input O past).run
      (system typeName stages streams input O past).init ls = some s) {out : val O}
    (hout : s.phase = .returned (.ok out)) {R : Set L}
    (hown : ∀ k ∈ (outcome typeName stages streams input O).kernels, ∀ m m', Set.EqOn m m' R →
      Set.EqOn (sem k m) (sem k m') R)
    (hothers : ∀ i ∈ s.device.trace, i ∉ past.trace → i ∉ s.mine →
      ∀ k ∈ kernelsAt s.device.log [i], ∀ m, Set.EqOn (sem k m) m R) (m : L → V) :
    Set.EqOn (memory sem s.device.log s.device.trace m)
      ((outcome typeName stages streams input O).kernels.foldl (fun m k => sem k m)
        (memory sem past.log past.trace m)) R := by
  have hinv := inv_of_run hpast h
  obtain ⟨log', hlog⟩ := hinv.log
  obtain ⟨later, hlater⟩ := hinv.trace
  have hkernels := (returned_of_run hpast h hout).2.2 out rfl
  have hfilter : s.device.trace.filter (· ∈ s.mine) = later.filter (· ∈ s.mine) := by
    rw [← hlater, List.filter_append, List.filter_eq_nil_iff.2, List.nil_append]
    intro i hi hmine
    have h₁ := hpast.range i hi
    have h₂ := (hinv.mine i (by simpa using hmine)).1
    omega
  have hstart : memory sem past.log past.trace m = memory sem s.device.log past.trace m := by
    rw [← hlog, memory_log_append sem _ _ hpast.range]
  rw [← hkernels, hfilter, ← memory_eq_foldl, hstart, ← hlater, memory_append]
  refine memory_eqOn sem (fun i hi m₁ m₂ hm => ?_) (fun i hi hmine m₁ => ?_) (Set.eqOn_refl _ _)
  · rw [effectAt_eq, effectAt_eq]
    refine eqOn_foldl sem (fun k hk => hown k ?_) hm
    have hissued : k ∈ kernelsAt s.device.log s.mine :=
      (List.singleton_sublist.2 hi |>.filterMap _).subset hk
    exact hinv.kernels.subset hissued
  · rw [effectAt_eq]
    refine foldl_eqOn sem (fun k hk => hothers i ?_ ?_ hmine k hk) m₁
    · rw [← hlater]
      exact List.mem_append_right _ hi
    · intro hold
      have hnodup := hinv.sound.nodup
      rw [← hlater] at hnodup
      exact (List.nodup_append.1 hnodup).2.2 i hold i hi rfl

/-- The two counting stages add 7 and 8 to a cell. -/
theorem memory_of_run_counting :
    ∃ s, countingTwice.run countingTwice.init hostFirst = some s ∧
      Set.EqOn (memory (fun k m (_ : Unit) => m () + k) s.device.log s.device.trace fun _ => 0)
        (fun _ => 15) Set.univ := by
  obtain ⟨s, hs, hphase, hmine⟩ : ∃ s, countingTwice.run countingTwice.init hostFirst = some s ∧
      s.phase = .returned (.ok 9) ∧ ∀ i ∈ s.device.trace, i ∈ s.mine := ⟨_, rfl, rfl, fun _ h => h⟩
  exact ⟨s, hs, memory_of_run (fun k m (_ : Unit) => m () + k) Device.sound_nil hs hphase
    (fun k _ m m' hm => fun u _ => congrArg (· + k) (hm (Set.mem_univ ())))
    (fun i hi _ hother => absurd (hmine i hi) hother) fun _ => 0⟩

end Memory

/-! ## Every run ends -/

section Fair

/-- The run, and for each place of the log the unit of the device that carries it out. -/
inductive Party
  | run
  | unit (i : ℕ)

/-- Who takes a step. -/
def Label.party : Label S K → Option Party
  | .thread => some .run
  | .failAwait _ | .other _ => none
  | .carryOut i => some (.unit i)

/-- A run goes on by itself, fails, or stays where it is while the device changes. -/
theorem step_cases {s s' : Exec val S K O} {l : Label S K}
    (h : step typeName streams s l = some s') :
    l.party = some .run ∧ s.advance typeName streams = some s' ∨
      (∃ e, s' = { s with phase := .returned (.error e) }) ∨
      ∃ l' device, s.device.step l' = some device ∧ s' = { s with device := device } := by
  cases l with
  | thread => exact .inl ⟨rfl, h⟩
  | failAwait e =>
    obtain ⟨device, called, rest, phase, mine⟩ := s
    cases phase with
    | awaiting payload => exact .inr (.inl ⟨e, (Option.some.inj h).symm⟩)
    | waiting mark payload => exact .inr (.inl ⟨e, (Option.some.inj h).symm⟩)
    | looping w payload => cases h
    | issuing stream queue last r => cases h
    | returned r => cases h
  | other c =>
    obtain ⟨device, hdevice, rfl⟩ := Option.map_eq_some_iff.1 h
    exact .inr (.inr ⟨_, device, hdevice, rfl⟩)
  | carryOut i =>
    obtain ⟨device, hdevice, rfl⟩ := Option.map_eq_some_iff.1 h
    exact .inr (.inr ⟨_, device, hdevice, rfl⟩)

/-- What a step of the run itself does to the device. -/
theorem advance_device {s s' : Exec val S K O} (h : s.advance typeName streams = some s') :
    s'.device = s.device ∨ ∃ stream op phase, s.issue stream op phase = some s' := by
  obtain ⟨device, called, rest, phase, mine⟩ := s
  cases phase with
  | looping w payload =>
    cases rest with
    | nil =>
      obtain rfl := Option.some.inj h
      exact .inl rfl
    | cons head rest =>
      obtain rfl := Option.some.inj h
      exact .inl rfl
  | issuing stream queue last r =>
    cases queue with
    | cons op queue => exact .inr ⟨_, _, _, h⟩
    | nil =>
      cases r with
      | ok next =>
        obtain rfl := Option.some.inj h
        exact .inl rfl
      | error e =>
        obtain rfl := Option.some.inj h
        exact .inl rfl
  | awaiting payload =>
    cases hlast : streams.getLast? with
    | none => simp [Exec.advance, hlast] at h
    | some stream =>
      simp only [Exec.advance, hlast] at h
      exact .inr ⟨_, _, _, h⟩
  | waiting mark payload =>
    by_cases hmark : mark ∈ device.trace
    · simp only [Exec.advance, hmark, if_true, Option.some.injEq] at h
      subst h
      exact .inl rfl
    · simp [Exec.advance, hmark] at h
  | returned r => cases h

theorem hosts (hpast : past.Sound) :
    Hosts (system typeName stages streams input O past) Exec.device Label.party Party.unit where
  start := (inv_init (O := O) hpast).sound
  step := by
    intro s l s' h
    rcases step_cases h with ⟨-, h⟩ | ⟨e, rfl⟩ | ⟨l', device, hdevice, rfl⟩
    · refine (advance_device h).imp id ?_
      rintro ⟨stream, op, phase, hissue⟩
      obtain ⟨device, hdevice, rfl⟩ := Option.map_eq_some_iff.1 hissue
      exact ⟨_, hdevice⟩
    · exact .inl rfl
    · exact .inr ⟨l', hdevice⟩
  enabled := by
    intro s i hready
    refine ⟨.carryOut i, { s with device := { s.device with trace := s.device.trace ++ [i] } },
      rfl, ?_⟩
    show (s.device.step (.carryOut i)).map _ = _
    rw [Device.step_carryOut hready]
    rfl
  moves := by
    intro s l s' i h hparty
    obtain rfl : l = .carryOut i := by cases l <;> cases hparty; rfl
    obtain ⟨device, hdevice, rfl⟩ := Option.map_eq_some_iff.1 h
    obtain ⟨c, hc, -⟩ | ⟨k, hk, -, rfl⟩ := Device.step_cases hdevice
    · cases hc
    · obtain rfl : i = k := Streams.Label.carryOut.inj hk
      exact List.mem_append_right _ (List.mem_singleton_self _)

/-- How much of a phase is left. -/
def Phase.left : Phase val S K O → ℕ ×ₗ ℕ
  | .issuing _ queue _ _ => toLex (4, queue.length)
  | .looping _ _ => toLex (3, 0)
  | .awaiting _ => toLex (2, 0)
  | .waiting _ _ => toLex (1, 0)
  | .returned _ => toLex (0, 0)

/-- How far a run is from its end: the calls to come, then the phase. -/
def rank (s : Exec val S K O) : ℕ ×ₗ ℕ ×ₗ ℕ := toLex (s.rest.length, s.phase.left)

/-- Each step of a run brings it nearer to its end. -/
theorem rank_advance {s s' : Exec val S K O} (h : s.advance typeName streams = some s') :
    rank s' < rank s := by
  obtain ⟨device, called, rest, phase, mine⟩ := s
  have hissue : ∀ stream op (phase' : Phase val S K O),
      Exec.issue ⟨device, called, rest, phase, mine⟩ stream op phase' = some s' →
      phase'.left < phase.left → rank s' < rank ⟨device, called, rest, phase, mine⟩ := by
    intro stream op phase' hs hlt
    obtain ⟨-, rfl⟩ := Exec.issue_cases hs
    exact Prod.Lex.toLex_lt_toLex.2 (.inr ⟨rfl, hlt⟩)
  have hphase : ∀ (phase' : Phase val S K O), phase'.left < phase.left →
      rank ⟨device, called, rest, phase', mine⟩ < rank ⟨device, called, rest, phase, mine⟩ :=
    fun phase' hlt => Prod.Lex.toLex_lt_toLex.2 (.inr ⟨rfl, hlt⟩)
  have hkind : ∀ {a b a' b' : ℕ}, a < a' → (toLex (a, b) : ℕ ×ₗ ℕ) < toLex (a', b') :=
    fun hlt => Prod.Lex.toLex_lt_toLex.2 (.inl hlt)
  cases phase with
  | looping w payload =>
    cases rest with
    | nil =>
      obtain rfl := Option.some.inj h
      exact hphase _ (hkind (by omega))
    | cons head rest =>
      obtain rfl := Option.some.inj h
      exact Prod.Lex.toLex_lt_toLex.2 (.inl (Nat.lt_succ_self rest.length))
  | issuing stream queue last r =>
    cases queue with
    | cons op queue =>
      exact hissue _ _ _ h (Prod.Lex.toLex_lt_toLex.2 (.inr ⟨rfl, Nat.lt_succ_self queue.length⟩))
    | nil =>
      cases r with
      | ok next =>
        obtain rfl := Option.some.inj h
        exact hphase _ (hkind (by omega))
      | error e =>
        obtain rfl := Option.some.inj h
        exact hphase _ (hkind (by omega))
  | awaiting payload =>
    cases hlast : streams.getLast? with
    | none => simp [Exec.advance, hlast] at h
    | some stream =>
      simp only [Exec.advance, hlast] at h
      exact hissue _ _ _ h (hkind (by omega))
  | waiting mark payload =>
    by_cases hmark : mark ∈ device.trace
    · simp only [Exec.advance, hmark, if_true, Option.some.injEq] at h
      subst h
      exact hphase _ (hkind (by omega))
    · simp [Exec.advance, hmark] at h
  | returned r => cases h

/-- A run that has not returned can go on, unless it waits for its marker. -/
theorem exists_advance {all : Outcome val S K (Payload val)} {s : Exec val S K O}
    (h : Inv typeName all streams past s) (hreturned : ∀ r, s.phase ≠ .returned r)
    (hmark : ∀ mark payload, s.phase = .waiting mark payload → mark ∈ s.device.trace) :
    ∃ s', s.advance typeName streams = some s' := by
  obtain ⟨device, called, rest, phase, mine⟩ := s
  have hfits := h.fits
  have hissue : ∀ stream (op : Op K) (phase' : Phase val S K O),
      (∀ e, op.event = some e → e < device.log.length) →
      ∃ s', Exec.issue ⟨device, called, rest, phase, mine⟩ stream op phase' = some s' := by
    intro stream op phase' hevent
    unfold Exec.issue
    rw [Device.step_issue hevent]
    exact ⟨_, rfl⟩
  cases phase with
  | looping w payload => cases rest <;> exact ⟨_, rfl⟩
  | issuing stream queue last r =>
    cases queue with
    | cons op queue => exact hissue _ _ _ (hfits.2.2.1 op List.mem_cons_self)
    | nil => cases r <;> exact ⟨_, rfl⟩
  | awaiting payload =>
    obtain ⟨stream, hstream⟩ := Option.ne_none_iff_exists'.1
      (mt List.getLast?_eq_none_iff.1 hfits.1.streams)
    simp only [Exec.advance, hstream]
    exact hissue _ _ _ fun e he => by cases he
  | waiting mark payload =>
    have hdone : mark ∈ device.trace := hmark mark payload rfl
    simp only [Exec.advance, hdone, if_true]
    exact ⟨_, rfl⟩
  | returned r => exact absurd rfl (hreturned r)

/-- In every fair schedule a run returns, whatever the other threads issue. -/
theorem eventually_returned (hpast : past.Sound)
    (ρ : (system typeName stages streams input O past).Endless) (hfair : ρ.Fair Label.party) :
    ∃ k r, (ρ.state k).phase = .returned r := by
  by_contra hnever
  have hphase : ∀ k r, (ρ.state k).phase ≠ .returned r := fun k r hr => hnever ⟨k, r, hr⟩
  have hinv : ∀ k, Inv typeName (allCalls typeName stages streams input) streams past
      (ρ.state k) := by
    intro k
    obtain ⟨ls, hls⟩ := ρ.reachable k
    exact inv_of_run hpast hls
  have hhosts : Hosts (system typeName stages streams input O past) Exec.device Label.party
      Party.unit := hosts hpast
  -- the rank would fall for ever
  suffices hfall : ∀ k, ∃ m, rank (ρ.state m) < rank (ρ.state k) by
    have hall : ∀ b : ℕ ×ₗ ℕ ×ₗ ℕ, ∀ k, rank (ρ.state k) ≠ b := by
      intro b
      induction b using WellFoundedLT.induction with
      | ind b ih =>
        rintro k rfl
        obtain ⟨m, hm⟩ := hfall k
        exact ih _ hm m rfl
    exact hall _ 0 rfl
  intro k
  by_contra hconst
  have hstays : ∀ m ≥ k, (ρ.state m).phase = (ρ.state k).phase ∧
      (ρ.state m).rest = (ρ.state k).rest := by
    intro m hm
    induction m, hm using Nat.le_induction with
    | base => exact ⟨rfl, rfl⟩
    | succ m hm ih =>
      cases hl : ρ.label m with
      | none =>
        rw [ρ.next_of_none hl]
        exact ih
      | some l =>
        rcases step_cases (ρ.next_of_some hl) with ⟨-, h⟩ | ⟨e, h⟩ | ⟨l', device, -, h⟩
        · have hlt := rank_advance h
          rw [show rank (ρ.state m) = rank (ρ.state k) by rw [rank, rank, ih.1, ih.2]] at hlt
          exact absurd ⟨m + 1, hlt⟩ hconst
        · exact absurd (by rw [h]) (hphase (m + 1) (.error e))
        · rw [h]
          exact ih
  -- from some moment on, the run could go on
  obtain ⟨m, hm, hready⟩ : ∃ m ≥ k, ∀ n ≥ m, ∀ mark payload,
      (ρ.state n).phase = .waiting mark payload → mark ∈ (ρ.state n).device.trace := by
    by_cases hwaits : ∃ mark payload, (ρ.state k).phase = .waiting mark payload
    · obtain ⟨mark, payload, hwait⟩ := hwaits
      have hfits := (hinv k).fits
      rw [hwait] at hfits
      have hlt := ((hinv k).mine mark (List.mem_of_getLast? hfits.2.2)).2
      obtain ⟨m, hm, hdone⟩ := hhosts.eventually_done hfair hlt
      refine ⟨m, hm, fun n hn mark' payload' hwait' => ?_⟩
      rw [(hstays n (hm.trans hn)).1, hwait] at hwait'
      obtain ⟨rfl, -⟩ := Phase.waiting.inj hwait'
      exact (hhosts.grows (ρ := ρ) hn).2.subset hdone
    · refine ⟨k, le_rfl, fun n hn mark payload hwait => ?_⟩
      rw [(hstays n hn).1] at hwait
      exact absurd ⟨mark, payload, hwait⟩ hwaits
  obtain ⟨n, hn, l, hl, hparty⟩ := hfair .run m fun n hn => by
    obtain ⟨s', hs'⟩ := exists_advance (hinv n) (hphase n) (hready n hn)
    exact ⟨.thread, s', rfl, hs'⟩
  obtain rfl : l = .thread := by cases l <;> cases hparty; rfl
  have hlt := rank_advance (ρ.next_of_some hl)
  have hsame := hstays n (hm.trans hn)
  rw [show rank (ρ.state n) = rank (ρ.state k) by rw [rank, rank, hsame.1, hsame.2]] at hlt
  exact hconst ⟨n + 1, hlt⟩

/-- The two counting stages, with rests once nothing is left to do. -/
theorem eventually_returned_counting : ∃ ρ : countingTwice.Endless, ρ.Fair Label.party ∧
    ∃ k r, (ρ.state k).phase = .returned r := by
  obtain ⟨t, ht, hrun, hdone⟩ : ∃ t, countingTwice.run countingTwice.init hostFirst = some t ∧
      countingTwice.step t .thread = none ∧ ∀ i < t.device.log.length, i ∈ t.device.trace :=
    ⟨_, rfl, rfl, by decide⟩
  have hcarry : ∀ i, countingTwice.step t (.carryOut i) = none := fun i =>
    congrArg (Option.map _) (Device.step_carryOut_of_done hdone i)
  have hquiet : ∀ p, ¬ countingTwice.Enabled Label.party p t := by
    rintro p ⟨l, s', hparty, hstep⟩
    cases l with
    | thread => rw [hrun] at hstep; cases hstep
    | failAwait e => cases hparty
    | other c => cases hparty
    | carryOut i => rw [hcarry] at hstep; cases hstep
  have hfair := System.fair_halting ht hquiet
  exact ⟨_, hfair, eventually_returned Device.sound_nil _ hfair⟩

end Fair

end Pipeline

end AtomrAccel
