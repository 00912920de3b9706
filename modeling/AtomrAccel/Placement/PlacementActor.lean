import AtomrAccel.Device.DeviceActor
import AtomrAccel.Lib.Transition

/-!
# `PlacementActor`: picking a device by load

The actor keeps the last load it was told of for each slot of the fleet.  `Pick` shows the policy
the ids with their loads; the policy names an id, and the actor looks for the first slot with it.

* `PlacementPolicy`, `PlacementActor`, `system`: the two policies, the actor and its runs;
* `Finds`, `finds_foldl`: what the loop of the least-loaded policy has found after some candidates;
* `Answers`: the reply of a `Pick` is right;
* `FirstBest`, `MeantFirst`: the slot the policy means, and no earlier one with its id;
* `answers_iff`: in every reachable state the reply is right unless an earlier slot has the same id
  as the slot the policy means.
-/

namespace AtomrAccel

namespace Placement

/-- The hints a policy reads. -/
structure PlacementHints where
  minFreeBytes : UInt64
  minComputeCap : Option (Int32 × Int32)
  deriving DecidableEq, Repr

/-- The device that was picked, with its load. -/
structure DeviceChoice where
  deviceId : UInt32
  device : ActorRef
  load : DeviceLoad
  deriving DecidableEq, Repr

/-- What a policy sees of a slot. -/
abbrev Candidate := UInt32 × DeviceLoad

/-! ### Policies -/

/-- The two filters of the least-loaded policy; capabilities compare lexicographically. -/
def eligible (hints : PlacementHints) (load : DeviceLoad) : Bool :=
  !(decide (load.freeBytes < hints.minFreeBytes)) &&
    match hints.minComputeCap with
    | none => true
    | some (mj, mn) => !(decide (load.computeCap.1 < mj) ||
        (load.computeCap.1 == mj && decide (load.computeCap.2 < mn)))

/-- `queue_depth as u64 + active_streams as u64`, which does not overflow. -/
def score (load : DeviceLoad) : ℕ := load.queueDepth.toNat + load.activeStreams.toNat

/-- One turn of the loop of the least-loaded policy. -/
def better (hints : PlacementHints) (best : Option (UInt32 × ℕ)) (c : Candidate) :
    Option (UInt32 × ℕ) :=
  if eligible hints c.2 then
    match best with
    | none => some (c.1, score c.2)
    | some (id, s) => if score c.2 < s then some (c.1, score c.2) else some (id, s)
  else best

/-- How a device is picked. -/
inductive PlacementPolicy
  | roundRobin (cursor : UInt64)
  | leastLoaded
  deriving DecidableEq, Repr

/-- The id a policy chooses, and the policy after it. -/
def PlacementPolicy.choose (policy : PlacementPolicy) (hints : PlacementHints)
    (candidates : List Candidate) : Option UInt32 × PlacementPolicy :=
  match policy with
  | .roundRobin cursor =>
    if candidates.isEmpty then (none, policy)
    else (candidates[cursor.toNat % candidates.length]?.map (·.1), .roundRobin (cursor + 1))
  | .leastLoaded => ((candidates.foldl (better hints) none).map (·.1), policy)

/-! ### The actor -/

/-- The messages of the actor. -/
inductive PlacementMsg
  | pick (hints : PlacementHints) (reply : ReplyId)
  | pollStats
  | statsUpdate (slot : ℕ) (load : DeviceLoad)
  deriving DecidableEq, Repr

/-- What the actor does to the outside. -/
inductive Effect
  | reply (reply : ReplyId) (answer : Except GpuError DeviceChoice)
  /-- ask the device of a slot for its load; the answer comes back as a `statsUpdate` -/
  | tellStats (slot : ℕ) (device : ActorRef)
  | schedulePoll

/-- The actor: its devices with the loads last heard of. -/
structure PlacementActor where
  devices : List (UInt32 × ActorRef)
  loads : List DeviceLoad
  policy : PlacementPolicy
  deriving DecidableEq, Repr

namespace PlacementActor

/-- No load has been heard of. -/
def props (devices : List (UInt32 × ActorRef)) (policy : PlacementPolicy) : PlacementActor :=
  ⟨devices, List.replicate devices.length ⟨0, 0, 0, 0, (0, 0)⟩, policy⟩

/-- The devices with the loads last heard of. -/
def candidates (s : PlacementActor) : List Candidate :=
  s.devices.zipWith (fun d load => (d.1, load)) s.loads

/-- The first slot with the chosen id; `none` is a panic, of the `unwrap` or of an index past the
end. -/
def deviceChoice (s : PlacementActor) (id : UInt32) : Option DeviceChoice := do
  let pos ← s.devices.findIdx? fun d => d.1 == id
  let device ← s.devices[pos]?
  let load ← s.loads[pos]?
  return ⟨id, device.2, load⟩

/-- The `Pick` arm. -/
def pick (s : PlacementActor) (hints : PlacementHints) :
    Option (Except GpuError DeviceChoice × PlacementPolicy) :=
  match s.policy.choose hints s.candidates with
  | (none, policy) => some (.error (.unrecoverable "placement: no eligible device"), policy)
  | (some id, policy) => (s.deviceChoice id).map fun choice => (.ok choice, policy)

/-- A pick is answered; polls and updates keep the loads. -/
def handle (s : PlacementActor) : PlacementMsg → Option (PlacementActor × List Effect)
  | .pick hints reply => do
    let (answer, policy) ← s.pick hints
    return ({ s with policy := policy }, [.reply reply answer])
  | .pollStats =>
    some (s, s.devices.mapIdx (fun slot d => .tellStats slot d.2) ++ [.schedulePoll])
  | .statsUpdate slot load => some ({ s with loads := s.loads.set slot load }, [])

end PlacementActor

/-- The actor, one message a step. -/
def system (devices : List (UInt32 × ActorRef)) (policy : PlacementPolicy) :
    Transition.System PlacementActor PlacementMsg where
  init := .props devices policy
  step s msg := (s.handle msg).map (·.1)

/-! ### What a right answer is -/

/-- `load` meets the hints, and no candidate that does has a smaller score. -/
def LeastLoaded (hints : PlacementHints) (cs : List Candidate) (load : DeviceLoad) : Prop :=
  eligible hints load = true ∧ ∀ c ∈ cs, eligible hints c.2 = true → score load ≤ score c.2

/-- There is a reply; it is an error exactly when no slot meets the hints, and otherwise it is one
slot, which meets them and is least loaded among those that do. -/
structure Answers (s : PlacementActor) (hints : PlacementHints) : Prop where
  replied : ∃ answer policy, s.pick hints = some (answer, policy)
  error_iff : (∃ e policy, s.pick hints = some (.error e, policy)) ↔
    ∀ c ∈ s.candidates, eligible hints c.2 = false
  chosen : ∀ choice policy, s.pick hints = some (.ok choice, policy) →
    ∃ slot : ℕ, s.devices[slot]? = some (choice.deviceId, choice.device) ∧
      s.loads[slot]? = some choice.load ∧ LeastLoaded hints s.candidates choice.load

/-- The slot the policy means: the first one that is least loaded among those meeting the hints. -/
structure FirstBest (hints : PlacementHints) (cs : List Candidate) (slot : ℕ) (c : Candidate) :
    Prop where
  get : cs[slot]? = some c
  least : LeastLoaded hints cs c.2
  first : ∀ i < slot, ∀ c', cs[i]? = some c' → ¬ LeastLoaded hints cs c'.2

/-- No earlier slot has the id of the slot that the policy means. -/
def PlacementActor.MeantFirst (s : PlacementActor) (hints : PlacementHints) : Prop :=
  ∀ j c, FirstBest hints s.candidates j c → ∀ i < j, ∀ d, s.devices[i]? = some d → d.1 ≠ c.1

/-! ### The loop of the policy -/

/-- What the loop has found after the candidates `cs`. -/
def Finds (hints : PlacementHints) (cs : List Candidate) : Option (UInt32 × ℕ) → Prop
  | none => ∀ c ∈ cs, eligible hints c.2 = false
  | some best => ∃ slot c, FirstBest hints cs slot c ∧ best = (c.1, score c.2)

section Loop

variable {hints : PlacementHints} {cs : List Candidate} {c : Candidate}

/-- The first candidate that meets the hints. -/
theorem firstBest_of_none (hnone : ∀ c' ∈ cs, eligible hints c'.2 = false)
    (hc : eligible hints c.2 = true) : FirstBest hints (cs ++ [c]) cs.length c where
  get := by simp
  least := by
    refine ⟨hc, fun c' hc' helig => ?_⟩
    obtain hold | hnew := List.mem_append.1 hc'
    · cases (hnone c' hold).symm.trans helig
    · rw [List.mem_singleton.1 hnew]
  first i hi c' hget hleast := by
    rw [List.getElem?_append_left hi] at hget
    cases (hnone c' (List.mem_of_getElem? hget)).symm.trans hleast.1

/-- A candidate with a smaller score than the best one so far. -/
theorem firstBest_of_lt {slot : ℕ} {b : Candidate} (hb : FirstBest hints cs slot b)
    (hc : eligible hints c.2 = true) (hlt : score c.2 < score b.2) :
    FirstBest hints (cs ++ [c]) cs.length c where
  get := by simp
  least := by
    refine ⟨hc, fun c' hc' helig => ?_⟩
    obtain hold | hnew := List.mem_append.1 hc'
    · exact hlt.le.trans (hb.least.2 c' hold helig)
    · rw [List.mem_singleton.1 hnew]
  first i hi c' hget hleast := by
    rw [List.getElem?_append_left hi] at hget
    have hle : score b.2 ≤ score c'.2 := hb.least.2 c' (List.mem_of_getElem? hget) hleast.1
    have hge : score c'.2 ≤ score c.2 := hleast.2 c (by simp) hc
    omega

/-- A candidate that does not replace the best one so far. -/
theorem FirstBest.concat {slot : ℕ} {b : Candidate} (hb : FirstBest hints cs slot b)
    (hc : eligible hints c.2 = true → score b.2 ≤ score c.2) :
    FirstBest hints (cs ++ [c]) slot b where
  get := by
    rw [List.getElem?_append_left (List.getElem?_eq_some_iff.1 hb.get).1]
    exact hb.get
  least := by
    refine ⟨hb.least.1, fun c' hc' helig => ?_⟩
    obtain hold | hnew := List.mem_append.1 hc'
    · exact hb.least.2 c' hold helig
    · rw [List.mem_singleton.1 hnew] at helig ⊢
      exact hc helig
  first i hi c' hget hleast := by
    have hslot : slot < cs.length := (List.getElem?_eq_some_iff.1 hb.get).1
    rw [List.getElem?_append_left (hi.trans hslot)] at hget
    exact hb.first i hi c' hget
      ⟨hleast.1, fun x hx => hleast.2 x (List.mem_append_left _ hx)⟩

/-- One turn of the loop. -/
theorem finds_better {best : Option (UInt32 × ℕ)} (h : Finds hints cs best) :
    Finds hints (cs ++ [c]) (better hints best c) := by
  unfold better
  by_cases hc : eligible hints c.2 = true
  · rw [if_pos hc]
    cases best with
    | none => exact ⟨_, c, firstBest_of_none h hc, rfl⟩
    | some best =>
      obtain ⟨slot, b, hb, rfl⟩ := h
      show Finds hints (cs ++ [c])
        (if score c.2 < score b.2 then some (c.1, score c.2) else some (b.1, score b.2))
      by_cases hlt : score c.2 < score b.2
      · rw [if_pos hlt]
        exact ⟨_, c, firstBest_of_lt hb hc hlt, rfl⟩
      · rw [if_neg hlt]
        exact ⟨slot, b, hb.concat fun _ => not_lt.1 hlt, rfl⟩
  · rw [if_neg hc]
    cases best with
    | none =>
      intro c' hc'
      obtain hold | hnew := List.mem_append.1 hc'
      · exact h c' hold
      · rw [List.mem_singleton.1 hnew]
        exact Bool.eq_false_iff.2 hc
    | some best =>
      obtain ⟨slot, b, hb, rfl⟩ := h
      exact ⟨slot, b, hb.concat fun helig => absurd helig hc, rfl⟩

theorem finds_foldl (hints : PlacementHints) (cs : List Candidate) :
    Finds hints cs (cs.foldl (better hints) none) := by
  induction cs using List.reverseRecOn with
  | nil => exact nofun
  | append_singleton cs c ih =>
    rw [List.foldl_append]
    exact finds_better ih

/-- The slot the policy means is unique. -/
theorem FirstBest.unique {i j : ℕ} {a b : Candidate} (ha : FirstBest hints cs i a)
    (hb : FirstBest hints cs j b) : i = j := by
  obtain hlt | heq | hgt := lt_trichotomy i j
  · exact absurd ha.least (hb.first i hlt a ha.get)
  · exact heq
  · exact absurd hb.least (ha.first j hgt b hb.get)

end Loop

/-! ### Reachable states -/

namespace PlacementActor

/-- One load for each slot, under the least-loaded policy. -/
structure Inv (devices : List (UInt32 × ActorRef)) (s : PlacementActor) : Prop where
  devices : s.devices = devices
  loads : s.loads.length = s.devices.length
  policy : s.policy = .leastLoaded

variable {devices : List (UInt32 × ActorRef)} {s s' : PlacementActor} {hints : PlacementHints}

theorem inv_props (devices : List (UInt32 × ActorRef)) : Inv devices (props devices .leastLoaded) :=
  ⟨rfl, List.length_replicate, rfl⟩

/-- The `Pick` arm under the least-loaded policy. -/
theorem pick_eq (hpolicy : s.policy = .leastLoaded) :
    s.pick hints = match s.candidates.foldl (better hints) none with
      | none => some (.error (.unrecoverable "placement: no eligible device"), .leastLoaded)
      | some (id, _) => (s.deviceChoice id).map fun choice => (.ok choice, .leastLoaded) := by
  unfold pick
  rw [hpolicy]
  simp only [PlacementPolicy.choose]
  cases s.candidates.foldl (better hints) none with
  | none => rfl
  | some best => rfl

/-- The policy keeps no state. -/
theorem policy_of_pick {answer : Except GpuError DeviceChoice} {policy : PlacementPolicy}
    (hpolicy : s.policy = .leastLoaded) (hp : s.pick hints = some (answer, policy)) :
    policy = .leastLoaded := by
  rw [pick_eq hpolicy] at hp
  split at hp
  · cases hp
    rfl
  · obtain ⟨choice, -, heq⟩ := Option.map_eq_some_iff.1 hp
    cases heq
    rfl

theorem Inv.handle {msg : PlacementMsg} {out : List Effect} (h : Inv devices s)
    (hs : s.handle msg = some (s', out)) : Inv devices s' := by
  cases msg with
  | pick hints reply =>
    simp only [PlacementActor.handle, Option.bind_eq_bind, Option.bind_eq_some_iff] at hs
    obtain ⟨⟨answer, policy⟩, hp, heq⟩ := hs
    cases heq
    exact ⟨h.devices, h.loads, policy_of_pick h.policy hp⟩
  | pollStats =>
    cases hs
    exact h
  | statsUpdate slot load =>
    cases hs
    exact ⟨h.devices, (List.length_set).trans h.loads, h.policy⟩

theorem candidates_getElem? (s : PlacementActor) (i : ℕ) (c : Candidate) :
    s.candidates[i]? = some c ↔
      ∃ device, s.devices[i]? = some (c.1, device) ∧ s.loads[i]? = some c.2 := by
  obtain ⟨id, load⟩ := c
  simp [candidates, List.getElem?_zipWith_eq_some]

/-- The actor answers with the first slot that has the id of a given slot. -/
theorem deviceChoice_spec (h : Inv devices s) {j : ℕ} {c : Candidate}
    (hget : s.candidates[j]? = some c) :
    ∃ i ≤ j, ∃ device load, s.devices[i]? = some (c.1, device) ∧ s.loads[i]? = some load ∧
      s.deviceChoice c.1 = some ⟨c.1, device, load⟩ ∧
      ∀ k < i, ∀ d, s.devices[k]? = some d → d.1 ≠ c.1 := by
  obtain ⟨dj, hdj, -⟩ := (candidates_getElem? s j c).1 hget
  obtain ⟨hjlt, hjeq⟩ := List.getElem?_eq_some_iff.1 hdj
  have hfind : (s.devices.findIdx? fun d => d.1 == c.1).isSome = true := by
    rw [List.findIdx?_isSome, List.any_eq_true]
    exact ⟨(c.1, dj), List.mem_of_getElem? hdj, beq_self_eq_true _⟩
  obtain ⟨i, hi⟩ := Option.isSome_iff_exists.1 hfind
  obtain ⟨hlt, hid, hbefore⟩ := List.findIdx?_eq_some_iff_getElem.1 hi
  have hij : i ≤ j := by
    by_contra hji
    refine hbefore j (by omega) ?_
    rw [hjeq]
    exact beq_self_eq_true _
  have hdevice : s.devices[i]? = some (c.1, s.devices[i].2) := by
    rw [List.getElem?_eq_getElem hlt, ← eq_of_beq hid]
  have hlt' : i < s.loads.length := h.loads ▸ hlt
  have hload : s.loads[i]? = some s.loads[i] := List.getElem?_eq_getElem hlt'
  refine ⟨i, hij, s.devices[i].2, _, hdevice, hload, ?_, fun k hk d hd heq => ?_⟩
  · simp [deviceChoice, hi, hdevice, hload]
  · obtain ⟨hklt, hkeq⟩ := List.getElem?_eq_some_iff.1 hd
    refine hbefore k hk ?_
    rw [hkeq, heq]
    exact beq_self_eq_true _

/-- With an eligible slot, the reply is the first slot with the id of the slot meant. -/
theorem pick_of_firstBest (h : Inv devices s) {j : ℕ} {c : Candidate}
    (hb : FirstBest hints s.candidates j c) :
    s.pick hints = (s.deviceChoice c.1).map fun choice => (.ok choice, .leastLoaded) := by
  have hfinds := finds_foldl hints s.candidates
  rw [pick_eq h.policy]
  cases hfold : s.candidates.foldl (better hints) none with
  | none =>
    rw [hfold] at hfinds
    cases (hfinds c (List.mem_of_getElem? hb.get)).symm.trans hb.least.1
  | some best =>
    rw [hfold] at hfinds
    obtain ⟨slot, b, hbest, rfl⟩ := hfinds
    obtain rfl := hbest.unique hb
    obtain rfl : b = c := Option.some.inj (hbest.get.symm.trans hb.get)
    rfl

/-- Without an eligible slot, the reply is the error. -/
theorem pick_of_none (h : Inv devices s)
    (hnone : ∀ c ∈ s.candidates, eligible hints c.2 = false) :
    s.pick hints = some (.error (.unrecoverable "placement: no eligible device"), .leastLoaded) := by
  have hfinds := finds_foldl hints s.candidates
  rw [pick_eq h.policy]
  cases hfold : s.candidates.foldl (better hints) none with
  | none => rfl
  | some best =>
    rw [hfold] at hfinds
    obtain ⟨slot, b, hb, -⟩ := hfinds
    cases (hnone b (List.mem_of_getElem? hb.get)).symm.trans hb.least.1

/-- Some slot is meant, or no slot is eligible. -/
theorem firstBest_or_none (s : PlacementActor) (hints : PlacementHints) :
    (∃ j c, FirstBest hints s.candidates j c) ∨
      ∀ c ∈ s.candidates, eligible hints c.2 = false := by
  have hfinds := finds_foldl hints s.candidates
  cases hfold : s.candidates.foldl (better hints) none with
  | none =>
    rw [hfold] at hfinds
    exact .inr hfinds
  | some best =>
    rw [hfold] at hfinds
    obtain ⟨slot, c, hc, -⟩ := hfinds
    exact .inl ⟨slot, c, hc⟩

theorem answers_of_meantFirst (h : Inv devices s) (hmeant : s.MeantFirst hints) :
    Answers s hints := by
  obtain ⟨j, c, hb⟩ | hnone := firstBest_or_none s hints
  · obtain ⟨i, hij, device, load, hdevice, hload, hchoice, -⟩ := deviceChoice_spec h hb.get
    have hpick := pick_of_firstBest h hb
    rw [hchoice] at hpick
    have hi : i = j := by
      by_contra hne
      exact hmeant j c hb i (by omega) _ hdevice rfl
    obtain ⟨-, -, hloadj⟩ := (candidates_getElem? s j c).1 hb.get
    obtain rfl : load = c.2 := Option.some.inj (hload.symm.trans (hi ▸ hloadj))
    refine ⟨⟨_, _, hpick⟩, ?_, ?_⟩
    · constructor
      · rintro ⟨e, policy, he⟩
        cases hpick.symm.trans he
      · intro hall
        cases (hall c (List.mem_of_getElem? hb.get)).symm.trans hb.least.1
    · intro choice policy hc
      cases hpick.symm.trans hc
      exact ⟨i, hdevice, hload, hb.least⟩
  · have hpick := pick_of_none h hnone
    refine ⟨⟨_, _, hpick⟩, ⟨fun _ => hnone, fun _ => ⟨_, _, hpick⟩⟩, fun choice policy hc => ?_⟩
    cases hpick.symm.trans hc

theorem meantFirst_of_answers (h : Inv devices s) (ha : Answers s hints) : s.MeantFirst hints := by
  intro j c hb k hk d hd hid
  obtain ⟨i, -, device, load, hdevice, hload, hchoice, hfirst⟩ := deviceChoice_spec h hb.get
  have hpick := pick_of_firstBest h hb
  rw [hchoice] at hpick
  obtain ⟨slot, -, -, hleast⟩ := ha.chosen _ _ hpick
  have hik : i ≤ k := by
    by_contra hki
    exact hfirst k (by omega) d hd hid
  -- the load of the reply is that of slot `i`, which comes before the slot meant
  have hget : s.candidates[i]? = some (c.1, load) :=
    (candidates_getElem? s i _).2 ⟨device, hdevice, hload⟩
  exact hb.first i (by omega) _ hget hleast

end PlacementActor

open PlacementActor in
/-- In every reachable state, a `Pick` is answered with an eligible, least loaded slot exactly when
no earlier slot has the same id as the first such slot. -/
theorem answers_iff (devices : List (UInt32 × ActorRef)) (msgs : List PlacementMsg) :
    (system devices .leastLoaded).Along
      (fun s => ∀ hints, Answers s hints ↔ s.MeantFirst hints)
      (system devices .leastLoaded).init msgs := by
  refine Transition.System.along_of_inv (I := Inv devices) (fun s h hints => ?_)
    (fun s msg s' h hs => ?_) (inv_props devices) msgs
  · exact ⟨meantFirst_of_answers h, answers_of_meantFirst h⟩
  · obtain ⟨⟨_, out⟩, hhandle, rfl⟩ := Option.map_eq_some_iff.1 hs
    exact h.handle hhandle

/-- Two slots with one id: the second is asked for and the first one, without memory, answers. -/
theorem repeated_id_mispicks :
    ¬ (∀ (devices : List (UInt32 × ActorRef)) (msgs : List PlacementMsg),
      (system devices .leastLoaded).Along (fun s => ∀ hints, Answers s hints)
        (system devices .leastLoaded).init msgs) ∧
      ((system [(0, 10), (0, 11)] .leastLoaded).run (.props [(0, 10), (0, 11)] .leastLoaded)
        [.statsUpdate 1 ⟨100, 100, 0, 0, (8, 0)⟩]).bind (fun s => s.pick ⟨50, none⟩) =
        some (.ok ⟨0, 10, ⟨0, 0, 0, 0, (0, 0)⟩⟩, .leastLoaded) := by
  refine ⟨fun h => ?_, by decide⟩
  have hlast := (h [(0, 10), (0, 11)] [.statsUpdate 1 ⟨100, 100, 0, 0, (8, 0)⟩]).last rfl ⟨50, none⟩
  obtain ⟨slot, -, -, hleast⟩ := hlast.chosen ⟨0, 10, ⟨0, 0, 0, 0, (0, 0)⟩⟩ .leastLoaded (by decide)
  exact absurd hleast.1 (by decide)

end Placement

end AtomrAccel
