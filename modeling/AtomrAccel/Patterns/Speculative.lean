import AtomrAccel.Lib.Greedy
import AtomrAccel.Device.Error

/-!
# `SpeculativeDecoder`

A fast draft proposes some tokens, a slow verifier accepts a first part of them and replaces the
first one it rejects.  With the greedy verifier of a next-token function the result is what that
function alone would have decoded, whatever the draft proposes: too few tokens, too many, or wrong
ones.

* `SpeculativeConfig`, `DecodeStats`, `iteration`, `loop`, `decode`: the actor's `Decode`;
* `length_lt_of_next`: an iteration that goes on has made progress, whatever the verifier says, so
  the loop ends;
* `GreedyFor`, `Visits`, `decode_lossless`;
* `Tally`, `tally`, `decode_bounds`: how much a decoding iterates and how long its result is, for
  closures that answer anything.
-/

namespace AtomrAccel

namespace Speculative

/-- The closures.  A draft may keep state between calls, so it is given the number of the call. -/
structure SpeculativeConfig where
  draft : ℕ → List UInt32 → ℕ → Except GpuError (List UInt32)
  verify : List UInt32 → List UInt32 → Except GpuError (ℕ × Option UInt32)
  k : ℕ
  maxTotalTokens : ℕ

/-- The counters of a decoding. -/
structure DecodeStats where
  iterations : UInt32 := 0
  draftTokens : UInt32 := 0
  acceptedTokens : UInt32 := 0
  finalLen : ℕ := 0
  deriving DecidableEq, Repr

/-- How an iteration ends: the loop goes on or breaks. -/
inductive Flow
  | next (tokens : List UInt32) (stats : DecodeStats)
  | stop (tokens : List UInt32) (stats : DecodeStats)

namespace SpeculativeConfig

variable (cfg : SpeculativeConfig)

/-- The last check of the body. -/
def ended (tokens : List UInt32) (stats : DecodeStats) : Flow :=
  if cfg.maxTotalTokens ≤ tokens.length then .stop tokens stats else .next tokens stats

/-- What is left of the body once the candidates are verified. -/
def accept (tokens candidates : List UInt32) (stats : DecodeStats) (accepted : ℕ)
    (replacement : Option UInt32) : Flow :=
  let acc := min accepted candidates.length
  let tokens := tokens ++ candidates.take acc
  let stats := { stats with acceptedTokens := stats.acceptedTokens + UInt32.ofNat acc }
  if acc < candidates.length then
    match replacement with
    | some t => cfg.ended (if tokens.length < cfg.maxTotalTokens then tokens ++ [t] else tokens) stats
    | none => .stop tokens stats
  else cfg.ended tokens stats

/-- The body of the loop. -/
def iteration (call : ℕ) (tokens : List UInt32) (stats : DecodeStats) : Except GpuError Flow :=
  let remaining := cfg.maxTotalTokens - tokens.length
  let k := min cfg.k remaining
  if k = 0 then .ok (.stop tokens stats)
  else
    match cfg.draft call tokens k with
    | .error e => .error e
    | .ok [] => .ok (.stop tokens stats)
    | .ok (candidate :: more) =>
      -- a draft may return more than it was asked for
      let candidates := (candidate :: more).take (min (candidate :: more).length remaining)
      let stats := { stats with
        iterations := stats.iterations + 1
        draftTokens := stats.draftTokens + UInt32.ofNat candidates.length }
      match cfg.verify tokens candidates with
      | .error e => .error e
      | .ok (accepted, replacement) =>
        .ok (cfg.accept tokens candidates stats accepted replacement)

variable {cfg} {call : ℕ} {tokens tokens' : List UInt32} {stats stats' : DecodeStats}

theorem length_candidates (candidate : UInt32) (more : List UInt32) {n : ℕ} (hn : 0 < n) :
    0 < ((candidate :: more).take (min (candidate :: more).length n)).length ∧
      ((candidate :: more).take (min (candidate :: more).length n)).length ≤ n := by
  rw [List.length_take, List.length_cons]
  omega

theorem ended_eq_next (h : cfg.ended tokens stats = .next tokens' stats') : tokens' = tokens := by
  unfold ended at h
  split_ifs at h
  cases h
  rfl

theorem length_append_take_min (tokens candidates : List UInt32) (n : ℕ) :
    (tokens ++ candidates.take (min n candidates.length)).length =
      tokens.length + min n candidates.length := by
  rw [List.length_append, List.length_take]
  omega

/-- The accepted candidates and the replacement are progress. -/
theorem length_lt_of_accept {candidates : List UInt32} {accepted : ℕ} {replacement : Option UInt32}
    (hpos : 0 < candidates.length) (hroom : tokens.length + candidates.length ≤ cfg.maxTotalTokens)
    (h : cfg.accept tokens candidates stats accepted replacement = .next tokens' stats') :
    tokens.length < tokens'.length := by
  have hlen := length_append_take_min tokens candidates accepted
  unfold accept at h
  dsimp only at h
  by_cases hacc : min accepted candidates.length < candidates.length
  · rw [if_pos hacc] at h
    cases replacement with
    | none => cases h
    | some t =>
      rw [ended_eq_next h, if_pos (by omega), List.length_append, List.length_singleton]
      omega
  · rw [if_neg hacc] at h
    rw [ended_eq_next h]
    omega

theorem length_lt_of_next (h : cfg.iteration call tokens stats = .ok (.next tokens' stats')) :
    tokens.length < tokens'.length := by
  unfold iteration at h
  dsimp only at h
  by_cases hk : min cfg.k (cfg.maxTotalTokens - tokens.length) = 0
  · rw [if_pos hk] at h
    cases h
  rw [if_neg hk] at h
  have hremaining : 0 < cfg.maxTotalTokens - tokens.length := by omega
  split at h
  · cases h
  · cases h
  · rename_i candidate more hdraft
    obtain ⟨hpos, hroom⟩ := length_candidates candidate more hremaining
    split at h
    · cases h
    · exact length_lt_of_accept hpos (by omega) (Except.ok.inj h)

variable (cfg)

/-- `while tokens.len() < cfg.max_total_tokens`. -/
def loop (call : ℕ) (tokens : List UInt32) (stats : DecodeStats) :
    Except GpuError (List UInt32 × DecodeStats) :=
  if tokens.length < cfg.maxTotalTokens then
    match h : cfg.iteration call tokens stats with
    | .error e => .error e
    | .ok (.stop tokens stats) => .ok (tokens, { stats with finalLen := tokens.length })
    | .ok (.next tokens' stats') => loop (call + 1) tokens' stats'
  else .ok (tokens, { stats with finalLen := tokens.length })
termination_by cfg.maxTotalTokens - tokens.length
decreasing_by
  have := length_lt_of_next h
  omega

/-- The whole decoding, from round `0`. -/
def decode (initial : List UInt32) : Except GpuError (List UInt32 × DecodeStats) :=
  cfg.loop 0 initial {}

/-! ### Losslessness -/

/-- The greedy verifier of `f`: it accepts the longest first part of the candidates that `f` would
have produced, and what `f` gives after it replaces the first candidate it rejects. -/
def GreedyFor (f : List UInt32 → UInt32) : Prop :=
  ∀ tokens candidates, ∃ replacement,
    cfg.verify tokens candidates = .ok (Greedy.accepted f tokens candidates, replacement) ∧
      (Greedy.accepted f tokens candidates < candidates.length → replacement =
        some (f (tokens ++ candidates.take (Greedy.accepted f tokens candidates))))

/-- The heads of the loop's iterations, with the number of draft calls before. -/
inductive Visits (initial : List UInt32) : ℕ → List UInt32 → DecodeStats → Prop
  | start : Visits initial 0 initial {}
  | next {call : ℕ} {tokens tokens' : List UInt32} {stats stats' : DecodeStats}
      (h : Visits initial call tokens stats) (hlt : tokens.length < cfg.maxTotalTokens)
      (hnext : cfg.iteration call tokens stats = .ok (.next tokens' stats')) :
      Visits initial (call + 1) tokens' stats'

/-- Some draft call of the decoding answers `answer`. -/
def Drafts (initial : List UInt32) (answer : Except GpuError (List UInt32)) : Prop :=
  ∃ call tokens stats, cfg.Visits initial call tokens stats ∧
    tokens.length < cfg.maxTotalTokens ∧
    cfg.draft call tokens (min cfg.k (cfg.maxTotalTokens - tokens.length)) = answer

variable {cfg} {f : List UInt32 → UInt32}

variable (cfg) in
/-- Verified greedily, the candidates lengthen the greedy extension. -/
theorem accept_greedy (stats : DecodeStats) {candidates : List UInt32} {replacement : Option UInt32}
    (hroom : tokens.length + candidates.length ≤ cfg.maxTotalTokens)
    (hreplacement : Greedy.accepted f tokens candidates < candidates.length → replacement =
      some (f (tokens ++ candidates.take (Greedy.accepted f tokens candidates)))) :
    ∃ n stats', tokens.length + n ≤ cfg.maxTotalTokens ∧
      cfg.accept tokens candidates stats (Greedy.accepted f tokens candidates) replacement =
        cfg.ended (Greedy.extend f n tokens) stats' := by
  have hle := Greedy.accepted_le (f := f) tokens candidates
  have hmin : min (Greedy.accepted f tokens candidates) candidates.length =
      Greedy.accepted f tokens candidates := min_eq_left hle
  unfold accept
  dsimp only
  rw [hmin, Greedy.extend_accepted]
  by_cases hacc : Greedy.accepted f tokens candidates < candidates.length
  · have hlt : (Greedy.extend f (Greedy.accepted f tokens candidates) tokens).length <
        cfg.maxTotalTokens := by
      rw [Greedy.length_extend]
      omega
    rw [if_pos hacc, hreplacement hacc]
    dsimp only
    rw [if_pos hlt, Greedy.extend_accepted, ← Greedy.extend_succ]
    exact ⟨_, _, by omega, rfl⟩
  · rw [if_neg hacc]
    exact ⟨_, _, by omega, rfl⟩

/-- An iteration ends with the draft's error, on an empty proposal, or with more of the greedy
extension. -/
theorem iteration_greedy (hk : 1 ≤ cfg.k) (hv : cfg.GreedyFor f)
    (hlt : tokens.length < cfg.maxTotalTokens) (call : ℕ) (stats : DecodeStats) :
    let answer := cfg.draft call tokens (min cfg.k (cfg.maxTotalTokens - tokens.length))
    (∃ e, answer = .error e ∧ cfg.iteration call tokens stats = .error e) ∨
      (answer = .ok [] ∧ cfg.iteration call tokens stats = .ok (.stop tokens stats)) ∨
      ∃ n stats', tokens.length + n ≤ cfg.maxTotalTokens ∧ cfg.iteration call tokens stats =
        .ok (cfg.ended (Greedy.extend f n tokens) stats') := by
  have hremaining : 0 < cfg.maxTotalTokens - tokens.length := by omega
  unfold iteration
  dsimp only
  rw [if_neg (by omega)]
  cases cfg.draft call tokens (min cfg.k (cfg.maxTotalTokens - tokens.length)) with
  | error e => exact .inl ⟨e, rfl, rfl⟩
  | ok proposal =>
    cases proposal with
    | nil => exact .inr (.inl ⟨rfl, rfl⟩)
    | cons candidate more =>
      obtain ⟨-, hroom⟩ := length_candidates candidate more hremaining
      obtain ⟨replacement, hverify, hreplacement⟩ := hv tokens
        ((candidate :: more).take (min (candidate :: more).length
          (cfg.maxTotalTokens - tokens.length)))
      obtain ⟨n, stats', hn, haccept⟩ := cfg.accept_greedy _ (by omega) hreplacement
      refine .inr (.inr ⟨n, stats', hn, ?_⟩)
      dsimp only
      rw [hverify]
      exact congrArg Except.ok haccept

/-- What a decoding may return: the greedy extension up to the cap, or less of it after an empty
proposal, or the error of a draft call. -/
def Lossless (cfg : SpeculativeConfig) (f : List UInt32 → UInt32) (initial : List UInt32) :
    Except GpuError (List UInt32 × DecodeStats) → Prop
  | .ok (tokens, stats) =>
    (∃ n, tokens = Greedy.extend f n initial) ∧ stats.finalLen = tokens.length ∧
      (tokens.length = max initial.length cfg.maxTotalTokens ∨ cfg.Drafts initial (.ok []))
  | .error e => cfg.Drafts initial (.error e)

/-- The loop from any head it visits, by induction along the loop. -/
theorem loop_lossless (hk : 1 ≤ cfg.k) (hv : cfg.GreedyFor f) {initial : List UInt32}
    (hvisits : cfg.Visits initial call tokens stats) {n : ℕ}
    (htokens : tokens = Greedy.extend f n initial)
    (hlen : tokens.length ≤ max initial.length cfg.maxTotalTokens) :
    cfg.Lossless f initial (cfg.loop call tokens stats) := by
  fun_induction cfg.loop call tokens stats generalizing n with
  | case1 call tokens stats hlt e herror =>
    rcases iteration_greedy hk hv hlt call stats with
      ⟨e', hanswer, hiteration⟩ | ⟨-, hiteration⟩ | ⟨m, stats', -, hiteration⟩
    · obtain rfl : e = e' := Except.error.inj (herror.symm.trans hiteration)
      exact ⟨call, tokens, stats, hvisits, hlt, hanswer⟩
    · cases herror.symm.trans hiteration
    · cases herror.symm.trans hiteration
  | case2 call tokens stats hlt tokens' stats' hstop =>
    rcases iteration_greedy hk hv hlt call stats with
      ⟨e', -, hiteration⟩ | ⟨hanswer, hiteration⟩ | ⟨m, stats'', hm, hiteration⟩
    · cases hstop.symm.trans hiteration
    · cases hstop.symm.trans hiteration
      exact ⟨⟨n, htokens⟩, rfl, .inr ⟨call, tokens, stats, hvisits, hlt, hanswer⟩⟩
    · have hended := Except.ok.inj (hstop.symm.trans hiteration)
      unfold ended at hended
      split_ifs at hended with hfull
      cases hended
      have hinitial := Greedy.length_le_extend (f := f) n initial
      rw [← htokens] at hinitial
      rw [Greedy.length_extend] at hfull
      refine ⟨⟨n + m, ?_⟩, rfl, .inl ?_⟩
      · rw [htokens, Greedy.extend_add]
      · rw [Greedy.length_extend]
        omega
  | case3 call tokens stats hlt tokens' stats' hnext ih =>
    rcases iteration_greedy hk hv hlt call stats with
      ⟨e', -, hiteration⟩ | ⟨-, hiteration⟩ | ⟨m, stats'', hm, hiteration⟩
    · cases hnext.symm.trans hiteration
    · cases hnext.symm.trans hiteration
    · have hended := Except.ok.inj (hnext.symm.trans hiteration)
      have htokens' : tokens' = Greedy.extend f m tokens := ended_eq_next hended.symm
      refine ih (n := n + m) (.next hvisits hlt hnext) ?_ ?_
      · rw [htokens', htokens, Greedy.extend_add]
      · rw [htokens', Greedy.length_extend]
        omega
  | case4 call tokens stats hfull =>
    refine ⟨⟨n, htokens⟩, rfl, .inl ?_⟩
    have hinitial := Greedy.length_le_extend (f := f) n initial
    rw [← htokens] at hinitial
    omega

/-- For every next-token function, every draft and every initial sequence, decoding with the greedy
verifier returns the initial sequence extended by the function alone, up to the cap unless a draft
call proposes nothing; the only error is one of a draft call. -/
theorem decode_lossless (cfg : SpeculativeConfig) (f : List UInt32 → UInt32)
    (initial : List UInt32) (hk : 1 ≤ cfg.k) (hv : cfg.GreedyFor f) :
    cfg.Lossless f initial (cfg.decode initial) :=
  loop_lossless hk hv .start (n := 0) rfl (le_max_left _ _)

/-! ### Bounds for arbitrary closures

A verifier that keeps state between its calls needs no call number here: `length_lt_of_next` lets
no decoding ask it about the same tokens twice. -/

end SpeculativeConfig

/-- What the iterations of a decoding really were, without the wrapping of `DecodeStats`: how many,
how many of them asked the verifier, and how many tokens were proposed to it and accepted. -/
structure Tally where
  bodies : ℕ
  asked : ℕ
  drafted : ℕ
  accepted : ℕ
  deriving DecidableEq, Repr

/-- The sum of two counts. -/
def Tally.add (a b : Tally) : Tally :=
  ⟨a.bodies + b.bodies, a.asked + b.asked, a.drafted + b.drafted, a.accepted + b.accepted⟩

/-- The counters of `DecodeStats` after the iterations of a tally. -/
def DecodeStats.count (stats : DecodeStats) (t : Tally) : DecodeStats :=
  { stats with
    iterations := stats.iterations + UInt32.ofNat t.asked
    draftTokens := stats.draftTokens + UInt32.ofNat t.drafted
    acceptedTokens := stats.acceptedTokens + UInt32.ofNat t.accepted }

/-- The tokens so far. -/
def Flow.tokens : Flow → List UInt32
  | .next tokens _ | .stop tokens _ => tokens

/-- The counters so far. -/
def Flow.stats : Flow → DecodeStats
  | .next _ stats | .stop _ stats => stats

namespace SpeculativeConfig

variable (cfg : SpeculativeConfig)

/-- The candidates an iteration hands to the verifier. -/
def candidates (call : ℕ) (tokens : List UInt32) : List UInt32 :=
  let remaining := cfg.maxTotalTokens - tokens.length
  if min cfg.k remaining = 0 then []
  else
    match cfg.draft call tokens (min cfg.k remaining) with
    | .error _ => []
    | .ok proposal => proposal.take (min proposal.length remaining)

/-- How many of the candidates an iteration takes. -/
def taken (tokens candidates : List UInt32) : ℕ :=
  match cfg.verify tokens candidates with
  | .error _ => 0
  | .ok (accepted, _) => min accepted candidates.length

/-- A single iteration, counted. -/
def body (call : ℕ) (tokens : List UInt32) : Tally :=
  let candidates := cfg.candidates call tokens
  ⟨1, if candidates = [] then 0 else 1, candidates.length, cfg.taken tokens candidates⟩

/-- The iterations of the loop, counted. -/
def tally (call : ℕ) (tokens : List UInt32) (stats : DecodeStats) : Tally :=
  if tokens.length < cfg.maxTotalTokens then
    match h : cfg.iteration call tokens stats with
    | .error _ => cfg.body call tokens
    | .ok (.stop _ _) => cfg.body call tokens
    | .ok (.next tokens' stats') => (cfg.body call tokens).add (tally (call + 1) tokens' stats')
  else ⟨0, 0, 0, 0⟩
termination_by cfg.maxTotalTokens - tokens.length
decreasing_by
  have := length_lt_of_next h
  omega

/-- What a decoding may return after the iterations of a tally: the initial sequence extended, no
longer than the cap allows, with its length and with the counters of the tally modulo `2 ^ 32`.
While no counter wraps, no more tokens are accepted than drafted, and an iteration adds at most one
token to the accepted ones. -/
structure Bounded (cfg : SpeculativeConfig) (initial : List UInt32) (t : Tally)
    (tokens : List UInt32) (stats : DecodeStats) : Prop where
  prefix_tokens : initial <+: tokens
  length_le : tokens.length ≤ max initial.length cfg.maxTotalTokens
  finalLen_eq : stats.finalLen = tokens.length
  counters : stats = { ({} : DecodeStats).count t with finalLen := tokens.length }
  accepted_le : t.drafted < 2 ^ 32 → stats.acceptedTokens ≤ stats.draftTokens
  gain_le : t.drafted < 2 ^ 32 →
    stats.finalLen - initial.length ≤ stats.acceptedTokens.toNat + stats.iterations.toNat

variable {cfg} {call : ℕ} {tokens tokens' : List UInt32} {stats stats' : DecodeStats}

theorem tally_of_full (hfull : ¬ tokens.length < cfg.maxTotalTokens) :
    cfg.tally call tokens stats = ⟨0, 0, 0, 0⟩ := by
  rw [tally, if_neg hfull]

theorem tally_of_error {e : GpuError} (hlt : tokens.length < cfg.maxTotalTokens)
    (h : cfg.iteration call tokens stats = .error e) :
    cfg.tally call tokens stats = cfg.body call tokens := by
  rw [tally, if_pos hlt]
  split <;> simp_all

theorem tally_of_stop (hlt : tokens.length < cfg.maxTotalTokens)
    (h : cfg.iteration call tokens stats = .ok (.stop tokens' stats')) :
    cfg.tally call tokens stats = cfg.body call tokens := by
  rw [tally, if_pos hlt]
  split <;> simp_all

theorem tally_of_next (hlt : tokens.length < cfg.maxTotalTokens)
    (h : cfg.iteration call tokens stats = .ok (.next tokens' stats')) :
    cfg.tally call tokens stats =
      (cfg.body call tokens).add (cfg.tally (call + 1) tokens' stats') := by
  rw [tally, if_pos hlt]
  split <;> simp_all

theorem taken_le (tokens candidates : List UInt32) :
    cfg.taken tokens candidates ≤ candidates.length := by
  unfold taken
  split
  · exact Nat.zero_le _
  · exact Nat.min_le_right _ _

theorem ended_tokens (tokens : List UInt32) (stats : DecodeStats) :
    (cfg.ended tokens stats).tokens = tokens := by
  unfold ended
  split_ifs <;> rfl

theorem ended_stats (tokens : List UInt32) (stats : DecodeStats) :
    (cfg.ended tokens stats).stats = stats := by
  unfold ended
  split_ifs <;> rfl

/-- Accepting takes `accepted` candidates, at most one more token, and stays below the cap. -/
theorem accept_flow (stats : DecodeStats) {candidates : List UInt32} (accepted : ℕ)
    (replacement : Option UInt32)
    (hroom : tokens.length + candidates.length ≤ cfg.maxTotalTokens) :
    let flow := cfg.accept tokens candidates stats accepted replacement
    let acc := min accepted candidates.length
    tokens <+: flow.tokens ∧ flow.tokens.length ≤ cfg.maxTotalTokens ∧
      flow.tokens.length ≤ tokens.length + acc + 1 ∧
      flow.stats = { stats with acceptedTokens := stats.acceptedTokens + UInt32.ofNat acc } := by
  have hlen := length_append_take_min tokens candidates accepted
  dsimp only
  unfold accept
  dsimp only
  by_cases hacc : min accepted candidates.length < candidates.length
  · rw [if_pos hacc]
    cases replacement with
    | none => exact ⟨List.prefix_append _ _, by simp only [Flow.tokens]; omega,
        by simp only [Flow.tokens]; omega, rfl⟩
    | some t =>
      have hbelow : (tokens ++ candidates.take (min accepted candidates.length)).length <
          cfg.maxTotalTokens := by omega
      have hpushed : (tokens ++ candidates.take (min accepted candidates.length) ++ [t]).length =
          tokens.length + min accepted candidates.length + 1 := by
        rw [List.length_append, hlen, List.length_singleton]
      simp only [ended_tokens, ended_stats, if_pos hbelow]
      refine ⟨?_, by omega, by omega, trivial⟩
      rw [List.append_assoc]
      exact List.prefix_append _ _
  · rw [if_neg hacc, ended_tokens, ended_stats]
    exact ⟨List.prefix_append _ _, by omega, by omega, rfl⟩

/-- An iteration adds what it takes and at most one more token, and counts it. -/
structure Gains (cfg : SpeculativeConfig) (call : ℕ) (tokens : List UInt32) (stats : DecodeStats)
    (flow : Flow) : Prop where
  prefix_tokens : tokens <+: flow.tokens
  length_le : flow.tokens.length ≤ cfg.maxTotalTokens
  gain_le : flow.tokens.length ≤
    tokens.length + (cfg.body call tokens).accepted + (cfg.body call tokens).asked
  stats_eq : flow.stats = stats.count (cfg.body call tokens)

theorem gains_of_iteration {flow : Flow} (hlt : tokens.length < cfg.maxTotalTokens)
    (h : cfg.iteration call tokens stats = .ok flow) : cfg.Gains call tokens stats flow := by
  -- without candidates nothing is counted
  have hidle : cfg.candidates call tokens = [] → flow = .stop tokens stats →
      cfg.Gains call tokens stats flow := by
    rintro hnone rfl
    have htaken : cfg.taken tokens [] = 0 := Nat.le_zero.1 (taken_le tokens [])
    have hbody : cfg.body call tokens = ⟨1, 0, 0, 0⟩ := by simp [body, hnone, htaken]
    refine ⟨List.prefix_rfl, hlt.le, by rw [hbody]; exact le_rfl, ?_⟩
    rw [hbody]
    simp [Flow.stats, DecodeStats.count]
  unfold iteration at h
  dsimp only at h
  by_cases hk : min cfg.k (cfg.maxTotalTokens - tokens.length) = 0
  · rw [if_pos hk] at h
    exact hidle (by simp [candidates, hk]) (Except.ok.inj h).symm
  rw [if_neg hk] at h
  split at h
  · cases h
  · rename_i hdraft
    exact hidle (by simp [candidates, hk, hdraft]) (Except.ok.inj h).symm
  · rename_i candidate more hdraft
    have hcandidates : cfg.candidates call tokens = (candidate :: more).take
        (min (candidate :: more).length (cfg.maxTotalTokens - tokens.length)) := by
      simp only [candidates, if_neg hk, hdraft]
    obtain ⟨hpos, hroom⟩ := length_candidates candidate more (n := cfg.maxTotalTokens -
      tokens.length) (by omega)
    rw [← hcandidates] at h hpos hroom
    have hsome : cfg.candidates call tokens ≠ [] := List.length_pos_iff.1 hpos
    split at h
    · cases h
    · rename_i accepted replacement hverify
      obtain rfl := Except.ok.inj h
      obtain ⟨hstart, hcap, hgain, hstats⟩ := accept_flow
        { stats with
          iterations := stats.iterations + 1
          draftTokens := stats.draftTokens + UInt32.ofNat (cfg.candidates call tokens).length }
        accepted replacement (by omega : tokens.length + (cfg.candidates call tokens).length ≤
          cfg.maxTotalTokens)
      have hbody : cfg.body call tokens = ⟨1, 1, (cfg.candidates call tokens).length,
          min accepted (cfg.candidates call tokens).length⟩ := by
        simp only [body, taken, hverify, if_neg hsome]
      exact ⟨hstart, hcap, by rw [hbody]; exact hgain, by rw [hbody]; exact hstats⟩

theorem body_asked_le (call : ℕ) (tokens : List UInt32) :
    (cfg.body call tokens).asked ≤ (cfg.body call tokens).drafted := by
  unfold body
  dsimp only
  split_ifs with hnone
  · exact Nat.zero_le _
  · exact List.length_pos_iff.2 hnone

/-- The loop from any head: no more iterations than there is room, and a result that the tally
accounts for. -/
structure Accounted (cfg : SpeculativeConfig) (tokens : List UInt32) (stats : DecodeStats)
    (t : Tally) (result : Except GpuError (List UInt32 × DecodeStats)) : Prop where
  bodies_le : t.bodies ≤ cfg.maxTotalTokens - tokens.length
  asked_le : t.asked ≤ t.drafted
  accepted_le : t.accepted ≤ t.drafted
  prefix_tokens : ∀ r, result = .ok r → tokens <+: r.1
  length_le : ∀ r, result = .ok r → r.1.length ≤ max tokens.length cfg.maxTotalTokens
  gain_le : ∀ r, result = .ok r → r.1.length ≤ tokens.length + t.accepted + t.asked
  stats_eq : ∀ r, result = .ok r → r.2 = { stats.count t with finalLen := r.1.length }

/-- The last iteration. -/
theorem accounted_of_stop (hlt : tokens.length < cfg.maxTotalTokens)
    {result : Except GpuError (List UInt32 × DecodeStats)}
    (h : ∀ r, result = .ok r → ∃ flow, cfg.Gains call tokens stats flow ∧
      r = (flow.tokens, { flow.stats with finalLen := flow.tokens.length })) :
    cfg.Accounted tokens stats (cfg.body call tokens) result where
  bodies_le := show 1 ≤ _ by omega
  asked_le := body_asked_le call tokens
  accepted_le := taken_le tokens _
  prefix_tokens := by
    intro r hr
    obtain ⟨flow, hgains, rfl⟩ := h r hr
    exact hgains.prefix_tokens
  length_le := by
    intro r hr
    obtain ⟨flow, hgains, rfl⟩ := h r hr
    exact hgains.length_le.trans (le_max_right _ _)
  gain_le := by
    intro r hr
    obtain ⟨flow, hgains, rfl⟩ := h r hr
    exact hgains.gain_le
  stats_eq := by
    intro r hr
    obtain ⟨flow, hgains, rfl⟩ := h r hr
    show { flow.stats with finalLen := flow.tokens.length } = _
    rw [hgains.stats_eq]

theorem count_add (stats : DecodeStats) (a b : Tally) :
    (stats.count a).count b = stats.count (a.add b) := by
  simp only [DecodeStats.count, Tally.add, UInt32.ofNat_add, UInt32.add_assoc]

theorem accounted_loop (call : ℕ) (tokens : List UInt32) (stats : DecodeStats) :
    cfg.Accounted tokens stats (cfg.tally call tokens stats) (cfg.loop call tokens stats) := by
  fun_induction cfg.loop call tokens stats with
  | case1 call tokens stats hlt e herror =>
    rw [tally_of_error hlt herror]
    exact accounted_of_stop hlt nofun
  | case2 call tokens stats hlt tokens' stats' hstop =>
    rw [tally_of_stop hlt hstop]
    refine accounted_of_stop hlt fun r hr => ?_
    exact ⟨_, gains_of_iteration hlt hstop, (Except.ok.inj hr).symm⟩
  | case3 call tokens stats hlt tokens' stats' hnext ih =>
    rw [tally_of_next hlt hnext]
    have hgains := gains_of_iteration hlt hnext
    have hprogress := length_lt_of_next hnext
    have hcap : tokens'.length ≤ cfg.maxTotalTokens := hgains.length_le
    have hgain : tokens'.length ≤ tokens.length + (cfg.body call tokens).accepted +
      (cfg.body call tokens).asked := hgains.gain_le
    have hbodies := ih.bodies_le
    constructor
    · show 1 + _ ≤ _
      omega
    · exact Nat.add_le_add (body_asked_le call tokens) ih.asked_le
    · exact Nat.add_le_add (taken_le tokens _) ih.accepted_le
    · exact fun r hr => hgains.prefix_tokens.trans (ih.prefix_tokens r hr)
    · intro r hr
      have := ih.length_le r hr
      omega
    · intro r hr
      have := ih.gain_le r hr
      simp only [Tally.add]
      omega
    · intro r hr
      rw [ih.stats_eq r hr, show stats' = stats.count (cfg.body call tokens) from hgains.stats_eq,
        count_add]
  | case4 call tokens stats hfull =>
    rw [tally_of_full hfull]
    constructor
    · exact Nat.zero_le _
    · exact le_rfl
    · exact le_rfl
    · rintro r ⟨⟩
      exact List.prefix_rfl
    · rintro r ⟨⟩
      exact le_max_left _ _
    · rintro r ⟨⟩
      exact le_rfl
    · rintro r ⟨⟩
      simp [DecodeStats.count]

/-- For arbitrary closures a decoding makes at most as many iterations as there is room below the
cap, and what it returns stays in bounds. -/
theorem decode_bounds (cfg : SpeculativeConfig) (initial : List UInt32) :
    (cfg.tally 0 initial {}).bodies ≤ cfg.maxTotalTokens - initial.length ∧
      ∀ tokens stats, cfg.decode initial = .ok (tokens, stats) →
        cfg.Bounded initial (cfg.tally 0 initial {}) tokens stats := by
  have h : cfg.Accounted initial {} (cfg.tally 0 initial {}) (cfg.decode initial) :=
    accounted_loop 0 initial {}
  refine ⟨h.bodies_le, fun tokens stats hr => ?_⟩
  have hstats : stats = { ({} : DecodeStats).count (cfg.tally 0 initial {}) with
    finalLen := tokens.length } := h.stats_eq _ hr
  have hgain : tokens.length ≤ initial.length + (cfg.tally 0 initial {}).accepted +
    (cfg.tally 0 initial {}).asked := h.gain_le _ hr
  have haccepted : (cfg.tally 0 initial {}).accepted ≤ (cfg.tally 0 initial {}).drafted :=
    h.accepted_le
  refine ⟨h.prefix_tokens _ hr, h.length_le _ hr, by rw [hstats], hstats, fun hsmall => ?_,
    fun hsmall => ?_⟩
  · rw [hstats, UInt32.le_iff_toNat_le]
    simp only [DecodeStats.count, UInt32.zero_add]
    rw [UInt32.toNat_ofNat_of_lt' (haccepted.trans_lt hsmall), UInt32.toNat_ofNat_of_lt' hsmall]
    exact haccepted
  · rw [hstats]
    simp only [DecodeStats.count, UInt32.zero_add]
    rw [UInt32.toNat_ofNat_of_lt' (haccepted.trans_lt hsmall),
      UInt32.toNat_ofNat_of_lt' (h.asked_le.trans_lt hsmall)]
    omega

end SpeculativeConfig

/-- The target counts up; the draft counts modulo three, and is wrong from the fourth token on. -/
def countingConfig : SpeculativeConfig where
  draft _ tokens k := .ok ((List.range k).map fun i => UInt32.ofNat (tokens.length + i) % 3)
  verify tokens candidates :=
    let accepted := Greedy.accepted (fun xs => UInt32.ofNat xs.length) tokens candidates
    .ok (accepted, some (UInt32.ofNat (tokens ++ candidates.take accepted).length))
  k := 4
  maxTotalTokens := 10

theorem countingConfig_lossless :
    countingConfig.Lossless (fun xs => UInt32.ofNat xs.length) [0]
      (countingConfig.decode [0]) :=
  countingConfig.decode_lossless _ [0] (by decide)
    fun _ _ => ⟨_, rfl, fun _ => rfl⟩

/-- A draft that proposes more than it is asked for, and a verifier that accepts more than it is
given. -/
def overshootingConfig : SpeculativeConfig where
  draft _ _ _ := .ok [7, 8, 9]
  verify _ _ := .ok (100, none)
  k := 1
  maxTotalTokens := 3

theorem iteration_overshooting : overshootingConfig.iteration 0 [5] {} =
    .ok (.stop [5, 7, 8] ⟨1, 2, 2, 0⟩) := rfl

theorem overshootingConfig_bounds :
    (overshootingConfig.tally 0 [5] {}).bodies ≤ 2 ∧
      overshootingConfig.Bounded [5] (overshootingConfig.tally 0 [5] {}) [5, 7, 8] ⟨1, 2, 2, 3⟩ ∧
      (2 : UInt32) ≤ 2 ∧ 3 - 1 ≤ (2 : UInt32).toNat + (1 : UInt32).toNat := by
  have hdecode : overshootingConfig.decode [5] = .ok ([5, 7, 8], ⟨1, 2, 2, 3⟩) := by
    rw [SpeculativeConfig.decode, SpeculativeConfig.loop, if_pos (by decide)]
    split
    · rename_i herror
      cases herror.symm.trans iteration_overshooting
    · rename_i hstop
      cases hstop.symm.trans iteration_overshooting
      rfl
    · rename_i hnext
      cases hnext.symm.trans iteration_overshooting
  have htally : overshootingConfig.tally 0 [5] {} = ⟨1, 1, 2, 2⟩ :=
    (SpeculativeConfig.tally_of_stop (by decide) iteration_overshooting).trans rfl
  have hbounded := (overshootingConfig.decode_bounds [5]).2 _ _ hdecode
  exact ⟨(overshootingConfig.decode_bounds [5]).1, hbounded,
    hbounded.accepted_le (by rw [htally]; decide), hbounded.gain_le (by rw [htally]; decide)⟩

end Speculative

end AtomrAccel
