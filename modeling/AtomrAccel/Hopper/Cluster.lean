import AtomrAccel.Lib.Overflow
import AtomrAccel.Lib.Transition

/-!
# Cluster launch specifications

A `LaunchSpec` is built by a chain of calls.  `with_cluster` counts the blocks of a cluster as a
product of three 32-bit numbers and compares the count with 8, or with 16 once the caller has opted
in; an error ends the chain.

* `ClusterDim`, `LaunchSpec`: the code, in either build;
* `Call`, `step`, `system`: chains of calls;
* `Correct`: the cluster of a specification is within the limit in force, and only clusters that
  are not are rejected, with their exact number of blocks;
* `chain_correct_iff`: so it is along a chain exactly when no cluster without a zero has `2 ^ 32`
  blocks or more.
-/

namespace AtomrAccel

namespace Cluster

open Overflow Transition

/-- The blocks of a cluster in each direction. -/
structure ClusterDim where
  x : UInt32
  y : UInt32
  z : UInt32
  deriving DecidableEq, Repr

/-- Why a launch is refused. -/
inductive ClusterError
  | zeroDim
  | portableLimit (n : UInt32)
  | hardLimit (n : UInt32)
  /-- the driver returned a non-zero `cudaError_t` -/
  | driver (c : Int32)
  deriving DecidableEq, Repr

namespace ClusterDim

/-- A cluster of one block. -/
def unit : ClusterDim := ⟨1, 1, 1⟩

/-- The product of the three numbers, in the code's 32 bits. -/
def blockCount (build : Build) (c : ClusterDim) : Option UInt32 := do
  let xy ← mulU32 build c.x c.y
  mulU32 build xy c.z

/-- The limits of a cluster. -/
def validate (build : Build) (c : ClusterDim) (allowNonPortable : Bool) :
    Option (Except ClusterError Unit) :=
  if c.x = 0 ∨ c.y = 0 ∨ c.z = 0 then some (.error .zeroDim)
  else do
    let n ← c.blockCount build
    if 8 < n ∧ allowNonPortable = false then return .error (.portableLimit n)
    if 16 < n then return .error (.hardLimit n)
    return .ok ()

end ClusterDim

/-- Three numbers, one for each direction. -/
abbrev Dim3 := UInt32 × UInt32 × UInt32

/-- A launch, as the builder makes it. -/
structure LaunchSpec where
  gridDim : Dim3
  blockDim : Dim3
  clusterDim : ClusterDim
  sharedBytes : UInt32
  allowNonPortableCluster : Bool
  deriving DecidableEq, Repr

namespace LaunchSpec

/-- A launch without clusters. -/
def new (gridDim blockDim : Dim3) : LaunchSpec where
  gridDim := gridDim
  blockDim := blockDim
  clusterDim := .unit
  sharedBytes := 0
  allowNonPortableCluster := false

variable (build : Build) (s : LaunchSpec)

/-- The cluster is set if it passes the checks. -/
def withCluster (cluster : ClusterDim) : Option (Except ClusterError LaunchSpec) := do
  match ← cluster.validate build s.allowNonPortableCluster with
  | .error e => return .error e
  | .ok () => return .ok { s with clusterDim := cluster }

/-- Clusters of up to 16 blocks are allowed from here on. -/
def allowNonPortable : LaunchSpec := { s with allowNonPortableCluster := true }

/-- The shared memory is set. -/
def withSharedBytes (bytes : UInt32) : LaunchSpec := { s with sharedBytes := bytes }

end LaunchSpec

/-- The calls of the builder. -/
inductive Call
  | withCluster (cluster : ClusterDim)
  | allowNonPortable
  | withSharedBytes (bytes : UInt32)
  deriving DecidableEq, Repr

/-- What a chain of calls has come to. -/
inductive Outcome
  | spec (s : LaunchSpec)
  | rejected (cluster : ClusterDim) (e : ClusterError)
  | panicked
  deriving DecidableEq, Repr

/-- One call of the builder. -/
def LaunchSpec.call (build : Build) (s : LaunchSpec) : Call → Outcome
  | .withCluster cluster =>
    match s.withCluster build cluster with
    | none => .panicked
    | some (.error e) => .rejected cluster e
    | some (.ok s') => .spec s'
  | .allowNonPortable => .spec s.allowNonPortable
  | .withSharedBytes bytes => .spec (s.withSharedBytes bytes)

/-- The calls that were made, and their outcome. -/
structure State where
  made : List Call
  now : Outcome
  deriving DecidableEq, Repr

/-- A chain goes on as long as there is a specification. -/
def step (build : Build) (t : State) (call : Call) : Option State :=
  match t.now with
  | .spec s => some ⟨t.made ++ [call], s.call build call⟩
  | _ => none

/-- The builder with its calls. -/
def system (build : Build) (gridDim blockDim : Dim3) : System State Call where
  init := ⟨[], .spec (.new gridDim blockDim)⟩
  step := step build

/-- The number of blocks, as an exact integer. -/
def ClusterDim.blocks (c : ClusterDim) : ℕ := c.x.toNat * c.y.toNat * c.z.toNat

def ClusterDim.Within (c : ClusterDim) (limit : ℕ) : Prop := 1 ≤ c.blocks ∧ c.blocks ≤ limit

instance (c : ClusterDim) (limit : ℕ) : Decidable (c.Within limit) :=
  inferInstanceAs (Decidable (_ ∧ _))

/-- The number of blocks fits `u32`, unless it is not computed at all. -/
def ClusterDim.Fits (c : ClusterDim) : Prop :=
  ¬(c.x = 0 ∨ c.y = 0 ∨ c.z = 0) → c.blocks < 2 ^ 32

instance (c : ClusterDim) : Decidable c.Fits := inferInstanceAs (Decidable (_ → _))

/-- An error of `validate` says what is wrong with the cluster. -/
def ClusterError.Tells (c : ClusterDim) : ClusterError → Prop
  | .zeroDim => c.blocks = 0
  | .portableLimit n => n.toNat = c.blocks ∧ 8 < c.blocks
  | .hardLimit n => n.toNat = c.blocks ∧ 16 < c.blocks
  | .driver _ => False

/-- The limit in force after the calls in `made`. -/
def limit (made : List Call) : ℕ := if .allowNonPortable ∈ made then 16 else 8

/-- Clusters within the limit are accepted, all others rejected for what they are. -/
def State.Correct (t : State) : Prop :=
  match t.now with
  | .spec s => s.clusterDim.Within (limit t.made)
  | .rejected cluster e => ¬cluster.Within (limit t.made) ∧ e.Tells cluster
  | .panicked => False

def Call.Fits : Call → Prop
  | .withCluster cluster => cluster.Fits
  | _ => True

section Validate

variable {c : ClusterDim}

theorem blocks_eq_zero_iff : c.blocks = 0 ↔ c.x = 0 ∨ c.y = 0 ∨ c.z = 0 := by
  simp only [ClusterDim.blocks, Nat.mul_eq_zero, or_assoc, ← UInt32.toNat_inj, UInt32.toNat_zero]

/-- The product of the first two factors fits when that of all three does. -/
theorem blockCount_of_lt (build : Build) (hz : c.z ≠ 0) (h : c.blocks < 2 ^ 32) :
    ∃ n, c.blockCount build = some n ∧ n.toNat = c.blocks := by
  have hz' : 0 < c.z.toNat := UInt32.pos_iff_ne_zero.2 hz
  have hxy : c.x.toNat * c.y.toNat < 2 ^ 32 := (Nat.le_mul_of_pos_right _ hz').trans_lt h
  have hmul : (c.x * c.y).toNat = c.x.toNat * c.y.toNat := by
    rw [UInt32.toNat_mul, Nat.mod_eq_of_lt hxy]
  have hxyz : (c.x * c.y).toNat * c.z.toNat < 2 ^ 32 := by rwa [hmul]
  refine ⟨c.x * c.y * c.z, ?_, ?_⟩
  · show (mulU32 build c.x c.y).bind _ = _
    rw [mulU32_of_lt hxy, Option.bind_some, mulU32_of_lt hxyz]
  · rw [UInt32.toNat_mul, Nat.mod_eq_of_lt hxyz, hmul]
    rfl

/-- Of a cluster whose blocks can be counted `validate` says what is the case. -/
theorem validate_of_fits (build : Build) (allow : Bool) (h : c.Fits) :
    ∃ r, c.validate build allow = some r ∧
    (r = .ok () ↔ c.Within (if allow then 16 else 8)) ∧ ∀ e, r = .error e → e.Tells c := by
  by_cases hzero : c.x = 0 ∨ c.y = 0 ∨ c.z = 0
  · have hb := blocks_eq_zero_iff.2 hzero
    refine ⟨.error .zeroDim, if_pos hzero, iff_of_false nofun fun hw => ?_, ?_⟩
    · have := hw.1
      omega
    · rintro e ⟨⟩
      exact hb
  · obtain ⟨n, hn, hblocks⟩ :=
      blockCount_of_lt build (fun hz => hzero (.inr (.inr hz))) (h hzero)
    have hpos : c.blocks ≠ 0 := fun hb => hzero (blocks_eq_zero_iff.1 hb)
    have h8 : 8 < n ↔ 8 < c.blocks := by rw [← hblocks, UInt32.lt_iff_toNat_lt]; rfl
    have h16 : 16 < n ↔ 16 < c.blocks := by rw [← hblocks, UInt32.lt_iff_toNat_lt]; rfl
    refine ⟨if 8 < n ∧ allow = false then .error (.portableLimit n)
      else if 16 < n then .error (.hardLimit n) else .ok (), ?_, ?_, ?_⟩
    · rw [ClusterDim.validate, if_neg hzero, hn]
      show (if 8 < n ∧ allow = false then some _ else if 16 < n then some _ else some _) = _
      split_ifs <;> rfl
    · unfold ClusterDim.Within
      cases allow <;> split_ifs <;> simp_all <;> omega
    · intro e he
      split_ifs at he with hp hh
      · cases he
        exact ⟨hblocks, h8.1 hp.1⟩
      · cases he
        exact ⟨hblocks, h16.1 hh⟩

/-- No cluster whose blocks cannot be counted is told its number of blocks. -/
theorem fits_of_tells {e : ClusterError} (h : e.Tells c) : c.Fits := by
  intro hzero
  cases e with
  | zeroDim => exact absurd (blocks_eq_zero_iff.1 h) hzero
  | portableLimit n => exact h.1 ▸ n.toNat_lt
  | hardLimit n => exact h.1 ▸ n.toNat_lt
  | driver c => exact h.elim

end Validate

section Chains

variable {build : Build} {t t' : State} {call : Call}

/-- Whether the caller has opted in is recorded in the specification. -/
structure Inv (t : State) : Prop where
  correct : t.Correct
  optIn : ∀ s, t.now = .spec s → (s.allowNonPortableCluster = true ↔ .allowNonPortable ∈ t.made)

theorem inv_new (gridDim blockDim : Dim3) : Inv (system build gridDim blockDim).init where
  correct := by show ClusterDim.Within .unit 8; decide
  optIn := by
    rintro s ⟨⟩
    simp [system, LaunchSpec.new]

theorem step_eq_some (h : step build t call = some t') :
    ∃ s, t.now = .spec s ∧ t' = ⟨t.made ++ [call], s.call build call⟩ := by
  unfold step at h
  cases hnow : t.now with
  | spec s =>
    rw [hnow] at h
    exact ⟨s, rfl, (Option.some.inj h).symm⟩
  | rejected c e =>
    rw [hnow] at h
    cases h
  | panicked =>
    rw [hnow] at h
    cases h

theorem limit_le (made : List Call) : limit made ≤ 16 := by
  unfold limit
  split <;> omega

/-- `with_cluster` by what `validate` says. -/
theorem call_withCluster (build : Build) (s : LaunchSpec) (c : ClusterDim) :
    s.call build (.withCluster c) = match c.validate build s.allowNonPortableCluster with
      | none => .panicked
      | some (.error e) => .rejected c e
      | some (.ok ()) => .spec { s with clusterDim := c } := by
  simp only [LaunchSpec.call, LaunchSpec.withCluster]
  cases c.validate build s.allowNonPortableCluster with
  | none => rfl
  | some r => cases r <;> rfl

/-- A step keeps the invariant as long as the blocks of the cluster can be counted. -/
theorem inv_step (hI : Inv t) (hC : call.Fits) (h : step build t call = some t') : Inv t' := by
  obtain ⟨s, hnow, rfl⟩ := step_eq_some h
  have hopt := hI.optIn s hnow
  have hwithin : s.clusterDim.Within (limit t.made) := by
    have := hI.correct
    rwa [State.Correct, hnow] at this
  cases call with
  | withCluster c =>
    have hmem : Call.allowNonPortable ∈ t.made ++ [.withCluster c] ↔
        .allowNonPortable ∈ t.made := by
      simp
    have hlimit : limit (t.made ++ [.withCluster c]) =
        if s.allowNonPortableCluster then 16 else 8 := by
      simp only [limit, hmem, hopt]
    obtain ⟨r, hr, hok, herr⟩ :=
      validate_of_fits build s.allowNonPortableCluster (show c.Fits from hC)
    rw [call_withCluster, hr]
    cases r with
    | error e =>
      refine ⟨⟨?_, herr e rfl⟩, nofun⟩
      rw [hlimit, ← hok]
      exact nofun
    | ok u =>
      refine ⟨?_, ?_⟩
      · show c.Within _
        rw [hlimit]
        exact hok.1 rfl
      · rintro s' ⟨⟩
        exact hopt.trans hmem.symm
  | allowNonPortable =>
    refine ⟨?_, ?_⟩
    · have hlimit : limit (t.made ++ [.allowNonPortable]) = 16 := by simp [limit]
      show s.clusterDim.Within _
      rw [hlimit]
      exact ⟨hwithin.1, hwithin.2.trans (limit_le _)⟩
    · rintro s' ⟨⟩
      simp [LaunchSpec.allowNonPortable]
  | withSharedBytes bytes =>
    have hmem : Call.allowNonPortable ∈ t.made ++ [.withSharedBytes bytes] ↔
        .allowNonPortable ∈ t.made := by
      simp
    refine ⟨?_, ?_⟩
    · show s.clusterDim.Within _
      simpa only [limit, hmem] using hwithin
    · rintro s' ⟨⟩
      exact hopt.trans hmem.symm

/-- A step into a correct state was about a cluster whose blocks can be counted. -/
theorem fits_of_correct (h : step build t call = some t') (hc : t'.Correct) : call.Fits := by
  obtain ⟨s, -, rfl⟩ := step_eq_some h
  cases call with
  | withCluster c =>
    rw [State.Correct, call_withCluster] at hc
    cases hv : c.validate build s.allowNonPortableCluster with
    | none =>
      rw [hv] at hc
      exact hc.elim
    | some r =>
      rw [hv] at hc
      cases r with
      | error e => exact fits_of_tells hc.2
      | ok u =>
        have hwithin : c.Within (limit (t.made ++ [.withCluster c])) := hc
        intro _
        exact (hwithin.2.trans (limit_le _)).trans_lt (by decide)
  | allowNonPortable => trivial
  | withSharedBytes bytes => trivial

end Chains

/-- The limits are exact along the chains whose clusters have fewer than `2 ^ 32` blocks, in
either build. -/
theorem chain_correct_iff (build : Build) (gridDim blockDim : Dim3) (calls : List Call) :
    (system build gridDim blockDim).Along State.Correct (system build gridDim blockDim).init calls ↔
      (system build gridDim blockDim).Meets (fun _ call => call.Fits)
        (system build gridDim blockDim).init calls :=
  ⟨System.meets_of_along (I := Inv) (fun _ _ _ _ h hc => fits_of_correct h hc)
      (fun _ _ _ hI hC h => inv_step hI hC h) (inv_new gridDim blockDim),
    System.along_of_meets (I := Inv) (fun _ hI => hI.correct)
      (fun _ _ _ hI hC h => inv_step hI hC h) (inv_new gridDim blockDim)⟩

/-- `65536 × 65536 × 1` blocks. -/
def vast : ClusterDim := ⟨65536, 65536, 1⟩

/-- Without overflow checks the count is zero, and the cluster accepted; with them, the call does
not return. -/
theorem vast_accepted :
    ¬(∀ build gridDim blockDim calls, (system build gridDim blockDim).Along State.Correct
        (system build gridDim blockDim).init calls) ∧
      vast.blocks = 2 ^ 32 ∧
      (LaunchSpec.new (1, 1, 1) (32, 1, 1)).withCluster .wrapping vast =
        some (.ok { LaunchSpec.new (1, 1, 1) (32, 1, 1) with clusterDim := vast }) ∧
      (LaunchSpec.new (1, 1, 1) (32, 1, 1)).withCluster .checked vast = none := by
  refine ⟨fun h => ?_, by decide, by decide, by decide⟩
  have hc := ((h .wrapping (1, 1, 1) (32, 1, 1) [.withCluster vast]).2 _ rfl).head
  have hw : vast.Within 8 := hc
  exact absurd hw (by decide)

end Cluster

end AtomrAccel
