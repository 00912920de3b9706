import AtomrAccel.Device.Error
import AtomrAccel.Lib.Router
import Mathlib.Data.Nat.Count

/-!
# `ModelReplicaPool`

The pool hands each request to one of its replicas.  The policy `LeastLoaded` takes the replica with
the smallest counter, but the counters count what has been handed out and not what is answered.

* `pickReplica`, `handle`, `router`: the pool as a router;
* `share`, `dealt`: how many of `k` requests a replica gets when they are dealt in turn, and the
  requests with their replicas;
* `leastLoaded_share`: the first of the smallest counters is the next in turn;
* `after_eq`, `jobs_eq`: with either policy the pool deals its requests in turn, as long as its
  counters do not overflow;
* `dealt_in_turn`, `eventually_dealt`: so every replica answers its share of the requests, in their
  order.
-/

namespace AtomrAccel

namespace ReplicaPool

open Routing Transition

variable {Req : Type}

/-- How a replica is picked. -/
inductive RoutingPolicy
  | roundRobin
  | leastLoaded
  deriving DecidableEq, Repr

/-- `errors` is not a field of the source: it holds the replies of the pool itself. -/
structure ModelReplicaPool where
  replicas : ℕ
  policy : RoutingPolicy
  cursor : UInt64
  counters : List UInt32
  errors : List GpuError

namespace ModelReplicaPool

/-- A pool that has handed out nothing. -/
def props (replicas : ℕ) (policy : RoutingPolicy) : ModelReplicaPool :=
  ⟨replicas, policy, 0, List.replicate replicas 0, []⟩

/-- `u32::MAX` -/
def u32Max : UInt32 := 0xFFFFFFFF

/-- One turn of the loop over the counters, with the smallest so far and its index. -/
def lesser (min : UInt32 × ℕ) (c : UInt32 × ℕ) : UInt32 × ℕ := if c.1 < min.1 then c else min

/-- The first replica that was handed the fewest. -/
def leastLoaded (counters : List UInt32) : ℕ := (counters.zipIdx.foldl lesser (u32Max, 0)).2

/-- The next one in turn, or the one handed the fewest. -/
def pickReplica (pool : ModelReplicaPool) : Option (ℕ × ModelReplicaPool) :=
  if pool.replicas = 0 then none
  else
    match pool.policy with
    | .roundRobin =>
      some (pool.cursor.toNat % pool.replicas, { pool with cursor := pool.cursor + 1 })
    | .leastLoaded => some (leastLoaded pool.counters, pool)

/-- A request goes to the replica picked. -/
def handle (pool : ModelReplicaPool) (req : Req) : ModelReplicaPool × Option (ℕ × Req) :=
  match pool.pickReplica with
  | none =>
    ({ pool with errors := pool.errors ++ [.unrecoverable "ModelReplicaPool: zero replicas"] },
      none)
  | some (idx, pool) =>
    ({ pool with counters := pool.counters.modify idx (· + 1) }, some (idx, req))

end ModelReplicaPool

open ModelReplicaPool

/-- The pool as a router of requests to replicas. -/
def router (replicas : ℕ) (policy : RoutingPolicy) : Router ModelReplicaPool Req ℕ Req :=
  ⟨.props replicas policy, handle⟩

/-! ### Dealing in turn -/

/-- How many of the first `k` requests replica `i` of `n` gets. -/
def share (n i k : ℕ) : ℕ := k / n + if i < k % n then 1 else 0

/-- The requests, each with the replica whose turn it is. -/
def dealt (n : ℕ) (reqs : List Req) : List (ℕ × Req) := reqs.zipIdx.map fun r => (r.2 % n, r.1)

theorem dealt_concat (n : ℕ) (reqs : List Req) (req : Req) :
    dealt n (reqs ++ [req]) = dealt n reqs ++ [(reqs.length % n, req)] := by
  simp [dealt, List.zipIdx_append]

section Share

variable {n i k : ℕ}

theorem succ_div_mod (hn : 0 < n) :
    (k % n + 1 < n ∧ (k + 1) / n = k / n ∧ (k + 1) % n = k % n + 1) ∨
      (k % n + 1 = n ∧ (k + 1) / n = k / n + 1 ∧ (k + 1) % n = 0) := by
  have hk := Nat.div_add_mod k n
  have hlt := Nat.mod_lt k hn
  rcases Nat.lt_or_ge (k % n + 1) n with h | h
  · refine .inl ⟨h, (Nat.div_mod_unique hn).2 ⟨?_, h⟩⟩
    omega
  · have heq : k % n + 1 = n := by omega
    refine .inr ⟨heq, (Nat.div_mod_unique hn).2 ⟨?_, hn⟩⟩
    rw [Nat.mul_add_one]
    omega

theorem share_zero (n i : ℕ) : share n i 0 = 0 := by
  simp [share]

/-- The next request is for the replica whose turn it is. -/
theorem share_succ (hi : i < n) :
    share n i (k + 1) = share n i k + if i = k % n then 1 else 0 := by
  have hlt := Nat.mod_lt k (Nat.zero_lt_of_lt hi)
  unfold share
  rcases succ_div_mod (Nat.zero_lt_of_lt hi) with ⟨h, hdiv, hmod⟩ | ⟨h, hdiv, hmod⟩
  · rw [hdiv, hmod]
    split_ifs <;> omega
  · rw [hdiv, hmod]
    split_ifs <;> omega

theorem share_turn : share n (k % n) k = k / n := by
  simp [share]

theorem div_le_share : k / n ≤ share n i k := Nat.le_add_right _ _

/-- Those before the replica whose turn it is are ahead of it. -/
theorem div_lt_share (hi : i < k % n) : k / n < share n i k := by
  simp [share, hi]

theorem share_le : share n i k ≤ k / n + 1 := by
  unfold share
  split <;> omega

/-- A replica's share of the requests. -/
theorem length_jobsOf_dealt (hi : i < n) (reqs : List Req) :
    (jobsOf i (dealt n reqs)).length = share n i reqs.length := by
  induction reqs using List.reverseRecOn with
  | nil => exact (share_zero n i).symm
  | append_singleton reqs req ih =>
    rw [dealt_concat, jobsOf_append, List.length_append, ih, List.length_append,
      List.length_singleton, share_succ hi]
    by_cases h : reqs.length % n = i
    · rw [if_pos h.symm, ← h, jobsOf_self, List.length_singleton]
    · rw [if_neg (Ne.symm h), jobsOf_of_ne h, List.length_nil]

end Share

/-! ### The counters -/

theorem foldl_lesser_of_not_lt {min : UInt32 × ℕ} {cs : List (UInt32 × ℕ)}
    (h : ∀ c ∈ cs, ¬ c.1 < min.1) : cs.foldl lesser min = min := by
  induction cs with
  | nil => rfl
  | cons c cs ih =>
    obtain ⟨hc, hcs⟩ := List.forall_mem_cons.1 h
    rw [List.foldl_cons, lesser, if_neg hc]
    exact ih hcs

theorem lt_foldl_lesser {v : UInt32} {min : UInt32 × ℕ} {cs : List (UInt32 × ℕ)} (hmin : v < min.1)
    (h : ∀ c ∈ cs, v < c.1) : v < (cs.foldl lesser min).1 := by
  induction cs generalizing min with
  | nil => exact hmin
  | cons c cs ih =>
    obtain ⟨hc, hcs⟩ := List.forall_mem_cons.1 h
    refine ih ?_ hcs
    unfold lesser
    split
    · exact hc
    · exact hmin

/-- The first of the smallest counters. -/
theorem leastLoaded_append {before after : List UInt32} {v : UInt32} (hv : v < u32Max)
    (hbefore : ∀ c ∈ before, v < c) (hafter : ∀ c ∈ after, ¬ c < v) :
    leastLoaded (before ++ v :: after) = before.length := by
  unfold leastLoaded
  rw [List.zipIdx_append, List.foldl_append, List.zipIdx_cons, List.foldl_cons]
  have hlt : v < (before.zipIdx.foldl lesser (u32Max, 0)).1 :=
    lt_foldl_lesser hv fun c hc => hbefore c.1 (List.fst_mem_of_mem_zipIdx hc)
  rw [show lesser _ (v, _) = (v, _) from if_pos hlt, foldl_lesser_of_not_lt fun c hc => ?_]
  · simp
  · exact hafter c.1 (List.fst_mem_of_mem_zipIdx hc)

/-- The counters after `k` requests. -/
def shares (n k : ℕ) : List UInt32 := (List.range n).map fun i => .ofNat (share n i k)

theorem shares_zero (n : ℕ) : shares n 0 = List.replicate n 0 := by
  refine List.ext_getElem (by simp [shares]) fun i h₁ h₂ => ?_
  simp [shares, share_zero]

theorem shares_succ (n k : ℕ) : (shares n k).modify (k % n) (· + 1) = shares n (k + 1) := by
  refine List.ext_getElem (by simp [shares]) fun i h₁ h₂ => ?_
  have hi : i < n := by simpa [shares] using h₂
  rw [List.getElem_modify]
  simp only [shares, List.getElem_map, List.getElem_range, share_succ hi]
  by_cases h : k % n = i
  · rw [if_pos h, if_pos h.symm]
    exact (UInt32.ofNat_add _ _).symm
  · rw [if_neg h, if_neg (Ne.symm h)]
    rfl

theorem toNat_share {n i k : ℕ} (hk : k / n < u32Max.toNat) :
    (UInt32.ofNat (share n i k)).toNat = share n i k := by
  have hle : share n i k ≤ k / n + 1 := share_le
  have hmax : u32Max.toNat + 1 = UInt32.size := rfl
  exact UInt32.toNat_ofNat_of_lt' (by omega)

/-- The first of the smallest counters is the next in turn. -/
theorem leastLoaded_share {n k : ℕ} (hn : 0 < n) (hk : k / n < u32Max.toNat) :
    leastLoaded (shares n k) = k % n := by
  have hlength : (shares n k).length = n := by simp [shares]
  have hturn : k % n < (shares n k).length := (Nat.mod_lt k hn).trans_eq hlength.symm
  have hget : ∀ i (h : i < (shares n k).length), (shares n k)[i].toNat = share n i k := by
    intro i h
    simp only [shares, List.getElem_map, List.getElem_range]
    exact toNat_share hk
  have hmin : (shares n k)[k % n].toNat = k / n := (hget _ hturn).trans share_turn
  rw [← List.take_append_drop (k % n) (shares n k), List.drop_eq_getElem_cons hturn,
    leastLoaded_append, List.length_take, Nat.min_eq_left hturn.le]
  · rw [UInt32.lt_iff_toNat_lt, hmin]
    exact hk
  · intro c hc
    obtain ⟨i, hi, rfl⟩ := List.mem_take_iff_getElem.1 hc
    rw [UInt32.lt_iff_toNat_lt, hmin, hget]
    exact div_lt_share (lt_of_lt_of_le hi (Nat.min_le_left _ _))
  · intro c hc
    obtain ⟨i, hi, rfl⟩ := List.mem_drop_iff_getElem.1 hc
    rw [UInt32.lt_iff_toNat_lt, hmin, hget]
    exact Nat.not_lt.2 div_le_share

/-! ### What the pool does -/

/-- The requests after which a counter overflows: the cursor, or all counters of the replicas. -/
def room (n : ℕ) : RoutingPolicy → ℕ
  | .roundRobin => 2 ^ 64
  | .leastLoaded => n * u32Max.toNat

/-- The pool after some requests: its cursor moves with the one policy only. -/
def afterwards (n : ℕ) (policy : RoutingPolicy) (k : ℕ) : ModelReplicaPool :=
  ⟨n, policy, match policy with | .roundRobin => .ofNat k | .leastLoaded => 0, shares n k, []⟩

theorem handle_afterwards {n : ℕ} (hn : 0 < n) {policy : RoutingPolicy} {k : ℕ}
    (hk : k < room n policy) (req : Req) :
    handle (afterwards n policy k) req = (afterwards n policy (k + 1), some (k % n, req)) := by
  unfold handle pickReplica
  rw [if_neg (show (afterwards n policy k).replicas ≠ 0 from hn.ne')]
  cases policy with
  | roundRobin =>
    have hcursor : (UInt64.ofNat k).toNat = k := UInt64.toNat_ofNat_of_lt' hk
    simp only [afterwards, hcursor, shares_succ]
    rw [UInt64.ofNat_add]
    rfl
  | leastLoaded =>
    have hlt : k / n < u32Max.toNat := Nat.div_lt_of_lt_mul hk
    simp only [afterwards, leastLoaded_share hn hlt, shares_succ]

theorem after_eq {n : ℕ} (hn : 0 < n) {policy : RoutingPolicy} {reqs : List Req}
    (hreqs : reqs.length ≤ room n policy) :
    (router n policy).after reqs = afterwards n policy reqs.length := by
  induction reqs using List.reverseRecOn with
  | nil =>
    show ModelReplicaPool.props n policy = _
    unfold ModelReplicaPool.props afterwards
    rw [List.length_nil, shares_zero]
    cases policy <;> rfl
  | append_singleton reqs req ih =>
    rw [List.length_append, List.length_singleton] at hreqs ⊢
    rw [Router.after_concat, ih (by omega)]
    exact congrArg Prod.fst (handle_afterwards hn hreqs req)

/-- With either policy the pool deals its requests in turn. -/
theorem jobs_eq {n : ℕ} (hn : 0 < n) {policy : RoutingPolicy} {reqs : List Req}
    (hreqs : reqs.length ≤ room n policy) : (router n policy).jobs reqs = dealt n reqs := by
  induction reqs using List.reverseRecOn with
  | nil => rfl
  | append_singleton reqs req ih =>
    rw [List.length_append, List.length_singleton] at hreqs
    rw [Router.jobs_concat, ih (by omega), after_eq hn (by omega), dealt_concat]
    exact congrArg (fun r => dealt n reqs ++ Option.toList r.2) (handle_afterwards hn hreqs req)

/-- Without replicas every request is answered with the error. -/
theorem after_of_no_replicas (policy : RoutingPolicy) (reqs : List Req) :
    (router 0 policy).after reqs = { ModelReplicaPool.props 0 policy with
      errors :=
        List.replicate reqs.length (.unrecoverable "ModelReplicaPool: zero replicas") } := by
  induction reqs using List.reverseRecOn with
  | nil => rfl
  | append_singleton reqs req ih =>
    rw [Router.after_concat, ih, List.length_append, List.length_singleton, List.replicate_succ']
    rfl

/-! ### Whole runs -/

section Runs

variable {n : ℕ} {policy : RoutingPolicy}

/-- In whatever order senders, pool and replicas proceed, and with either policy: what a replica has
answered, and what waits in its mailbox, are the requests whose place is its own modulo the number
of replicas, so that no two replicas differ by more than one request. -/
theorem dealt_in_turn (hn : 0 < n) {ls : List (Routing.Label Req ℕ)}
    {s : State ModelReplicaPool Req ℕ Req}
    (h : (system (router n policy)).run (system (router n policy)).init ls = some s)
    (hroom : s.handled.length ≤ room n policy) :
    (∀ i, jobsOf i s.served ++ s.inbox i = jobsOf i (dealt n s.handled)) ∧
      (∀ i < n, (jobsOf i s.served ++ s.inbox i).length =
        s.handled.length / n + if i < s.handled.length % n then 1 else 0) ∧
      s.state.errors = [] := by
  have hjobs : ∀ i, jobsOf i s.served ++ s.inbox i = jobsOf i (dealt n s.handled) := by
    intro i
    rw [served_append_inbox h i, jobs_eq hn hroom]
  refine ⟨hjobs, fun i hi => ?_, ?_⟩
  · rw [hjobs i]
    exact length_jobsOf_dealt hi s.handled
  · rw [(inv_of_run h).state, after_eq hn hroom]
    rfl

/-- In a fair run every request that has been sent is answered by its replica. -/
theorem eventually_dealt (hn : 0 < n)
    (ρ : (system (router n policy : Router _ Req _ _)).Endless)
    (hfair : ρ.Fair Routing.Label.party) {k : ℕ}
    (hroom : (ρ.state k).sent.length ≤ room n policy) (i : ℕ) :
    ∃ m ≥ k, jobsOf i (dealt n (ρ.state k).sent) <+: jobsOf i (ρ.state m).served := by
  obtain ⟨m, hm, hserved⟩ := eventually_served ρ hfair k i
  rw [jobs_eq hn hroom] at hserved
  exact ⟨m, hm, hserved⟩

/-- Three requests for two replicas; the second replica is first to answer. -/
def threeDealt : List (Routing.Label ℕ ℕ) :=
  [.send 5, .send 6, .send 7, .route, .route, .route, .serve 1, .serve 0, .serve 0]

theorem exists_threeDealt : ∃ s,
    (system (router 2 .leastLoaded)).run (system (router 2 .leastLoaded)).init threeDealt = some s ∧
      s.handled = [5, 6, 7] ∧ s.mailbox = [] ∧ ∀ i < 2, s.inbox i = [] := by
  have hrun : ((system (router 2 .leastLoaded)).run (system (router 2 .leastLoaded)).init
      threeDealt).any (fun s => s.handled = [5, 6, 7] ∧ s.mailbox = [] ∧
        ∀ i < 2, s.inbox i = []) = true := by decide +kernel
  obtain ⟨s, hs, hend⟩ := (Option.any_eq_true _ _).1 hrun
  exact ⟨s, hs, of_decide_eq_true hend⟩

theorem dealt_in_turn_three : ∃ s,
    (system (router 2 .leastLoaded)).run (system (router 2 .leastLoaded)).init threeDealt = some s ∧
      jobsOf 0 s.served ++ s.inbox 0 = [5, 7] := by
  obtain ⟨s, hs, hhandled, -⟩ := exists_threeDealt
  have hdealt := (dealt_in_turn Nat.two_pos hs (by rw [hhandled]; decide)).1 0
  rw [hhandled] at hdealt
  exact ⟨s, hs, hdealt⟩

theorem eventually_dealt_three :
    ∃ ρ : (system (router 2 .leastLoaded : Router _ ℕ _ _)).Endless, ρ.Fair Routing.Label.party ∧
      ∃ m, [5, 7] <+: jobsOf 0 (ρ.state m).served := by
  obtain ⟨s, hs, hhandled, hmailbox, hinbox⟩ := exists_threeDealt
  have hempty : ∀ i, s.inbox i = [] := by
    intro i
    rcases Nat.lt_or_ge i 2 with hi | hi
    · exact hinbox i hi
    · have hjobs := served_append_inbox hs i
      rw [jobs_eq Nat.two_pos (by rw [hhandled]; decide), hhandled] at hjobs
      have hnone : jobsOf i (dealt 2 [5, 6, 7]) = [] := by
        simp [jobsOf, dealt]
        omega
      rw [hnone] at hjobs
      exact (List.append_eq_nil_iff.1 hjobs).2
  have hfair := System.fair_halting hs (quiet hmailbox hempty)
  obtain ⟨m, -, hserved⟩ := eventually_dealt Nat.two_pos _ hfair
    (k := 3) (show 3 ≤ 2 * u32Max.toNat by decide) 0
  exact ⟨_, hfair, m, hserved⟩

end Runs

end ReplicaPool

end AtomrAccel
