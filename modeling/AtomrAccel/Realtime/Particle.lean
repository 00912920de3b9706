import AtomrAccel.Lib.Overflow
import AtomrAccel.Lib.Threads
import AtomrAccel.Realtime.Cloth

/-!
# `ParticleSystemActor`: particles under gravity

A step adds to the velocities, then to the positions, and reflects what has left the box.  The actor
does so for one particle after the other; the kernel `particle_step` has a thread for each, and
leaves out the drag when its factor is one rather than when the coefficient is not positive.  The
arithmetic is that of a field in place of `f32`.

* `ParticleSystemActor`, `clampAxis`, `advance`, `step`, `handle`: the actor;
* `Buffer`, `StepArgs`, `particleStep`, `stepLaunch`: the kernel;
* `Fits`: numbers of particles and threads that the kernel's integers can hold;
* `alone_particleStep`: what a thread does to its particle;
* `Holds`, `holds_launched`: a launch does what a step does, in whatever order the threads run;
* `holds_launches`: so do launches in a row, under configurations that change.
-/

namespace AtomrAccel

namespace Realtime

namespace Particles

open Threads Cloth Overflow

/-- A particle. -/
@[ext]
structure Particle (K : Type) where
  position : Vec3 K
  velocity : Vec3 K
  deriving DecidableEq, Repr

/-- What acts on the particles. -/
structure ParticleSystemConfig (K : Type) where
  gravity : Vec3 K
  drag : K
  bounds : Option (Vec3 K × Vec3 K)
  bounce : K
  deriving DecidableEq, Repr

/-- The messages of the actor. -/
inductive ParticleMsg (K : Type)
  | reset (particles : List (Particle K))
  | step (dt : K)
  | snapshot
  | updateConfig (cfg : ParticleSystemConfig K)

/-- What goes back on the reply channels. -/
inductive ParticleReply (K : Type)
  | count (n : ℕ)
  | stepped (r : Except GpuError ℕ)
  | particles (particles : List (Particle K))
  | done

/-- The actor. -/
structure ParticleSystemActor (K : Type) where
  cfg : ParticleSystemConfig K
  particles : List (Particle K)
  deriving DecidableEq, Repr

variable {K : Type} [Field K] [LinearOrder K]

/-- A coordinate and its velocity. -/
def clampAxis (p v lo hi bounce : K) : K × K :=
  if p < lo then (lo, -v * bounce) else if hi < p then (hi, -v * bounce) else (p, v)

/-- Velocity Verlet, simplified: `v += a*dt; x += v*dt`. -/
def advance (cfg : ParticleSystemConfig K) (dt : K) (p : Particle K) : Particle K :=
  let v : Vec3 K := ⟨p.velocity.x + cfg.gravity.x * dt, p.velocity.y + cfg.gravity.y * dt,
    p.velocity.z + cfg.gravity.z * dt⟩
  let v : Vec3 K :=
    if 0 < cfg.drag then
      let f := 1 - cfg.drag
      ⟨v.x * f, v.y * f, v.z * f⟩
    else v
  let x : Vec3 K := ⟨p.position.x + v.x * dt, p.position.y + v.y * dt, p.position.z + v.z * dt⟩
  match cfg.bounds with
  | some (min, max) =>
    let (px, vx) := clampAxis x.x v.x min.x max.x cfg.bounce
    let (py, vy) := clampAxis x.y v.y min.y max.y cfg.bounce
    let (pz, vz) := clampAxis x.z v.z min.z max.z cfg.bounce
    ⟨⟨px, py, pz⟩, ⟨vx, vy, vz⟩⟩
  | none => ⟨x, v⟩

namespace ParticleSystemActor

/-- Every particle advances. -/
def step (s : ParticleSystemActor K) (dt : K) : ParticleSystemActor K :=
  { s with particles := s.particles.map (advance s.cfg dt) }

/-- The four messages. -/
def handle (s : ParticleSystemActor K) :
    ParticleMsg K → ParticleSystemActor K × ParticleReply K
  | .reset particles => ({ s with particles := particles }, .count s.particles.length)
  | .step dt =>
    let s := s.step dt
    (s, .stepped (.ok s.particles.length))
  | .snapshot => (s, .particles s.particles)
  | .updateConfig cfg => ({ s with cfg := cfg }, .done)

/-- The actor after some messages. -/
def run (s : ParticleSystemActor K) (msgs : List (ParticleMsg K)) : ParticleSystemActor K :=
  msgs.foldl (fun s msg => (s.handle msg).1) s

end ParticleSystemActor

/-! ### The kernel -/

/-- The buffers of the kernel. -/
inductive Buffer
  | posX
  | posY
  | posZ
  | velX
  | velY
  | velZ
  deriving DecidableEq, Repr

/-- The arguments of a launch, the buffers apart. -/
structure StepArgs (K : Type) where
  n : ℤ
  dt : K
  g : Vec3 K
  /-- `1.0 - drag`, computed by the host -/
  dragFactor : K
  hasBounds : Bool
  min : Vec3 K
  max : Vec3 K
  bounce : K

/-- The thread `t`. -/
def particleStep (a : StepArgs K) (t : ℕ) : Threads.Thread (Buffer × ℕ) K :=
  if a.n ≤ asInt t then .done
  else
    let i := (asInt t).toNat
    .read (.velX, i) fun velX => .read (.velY, i) fun velY => .read (.velZ, i) fun velZ =>
    let v : Vec3 K := ⟨velX + a.g.x * a.dt, velY + a.g.y * a.dt, velZ + a.g.z * a.dt⟩
    let v : Vec3 K :=
      if a.dragFactor ≠ 1 then ⟨v.x * a.dragFactor, v.y * a.dragFactor, v.z * a.dragFactor⟩ else v
    .read (.posX, i) fun posX => .read (.posY, i) fun posY => .read (.posZ, i) fun posZ =>
    let p : Vec3 K := ⟨posX + v.x * a.dt, posY + v.y * a.dt, posZ + v.z * a.dt⟩
    let x := if a.hasBounds then clampAxis p.x v.x a.min.x a.max.x a.bounce else (p.x, v.x)
    let y := if a.hasBounds then clampAxis p.y v.y a.min.y a.max.y a.bounce else (p.y, v.y)
    let z := if a.hasBounds then clampAxis p.z v.z a.min.z a.max.z a.bounce else (p.z, v.z)
    .write (.posX, i) x.1 <| .write (.posY, i) y.1 <| .write (.posZ, i) z.1 <|
    .write (.velX, i) x.2 <| .write (.velY, i) y.2 <| .write (.velZ, i) z.2 .done

/-- The arguments for a configuration; without a box the corners do not matter. -/
def stepArgs (cfg : ParticleSystemConfig K) (dt : K) (n : ℕ) : StepArgs K where
  n := asInt n
  dt := dt
  g := cfg.gravity
  dragFactor := 1 - cfg.drag
  hasBounds := cfg.bounds.isSome
  min := (cfg.bounds.map Prod.fst).getD 0
  max := (cfg.bounds.map Prod.snd).getD 0
  bounce := cfg.bounce

/-- A launch for `n` particles. -/
def stepLaunch (cfg : ParticleSystemConfig K) (dt : K) (n count : ℕ) : Launch (Buffer × ℕ) K :=
  ⟨count, fun i => particleStep (stepArgs cfg dt n) i⟩

/-- A thread for each of `n` particles, and no number too large for an `int`. -/
structure Fits (n count : ℕ) : Prop where
  particles : n < 2 ^ 31
  le_count : n ≤ count
  count : count ≤ 2 ^ 31

/-- The particle `i` in the buffers. -/
def particleAt (m : Buffer × ℕ → K) (i : ℕ) : Particle K :=
  ⟨⟨m (.posX, i), m (.posY, i), m (.posZ, i)⟩, ⟨m (.velX, i), m (.velY, i), m (.velZ, i)⟩⟩

variable {cfg : ParticleSystemConfig K} {dt : K} {n count i : ℕ} {m m' : Buffer × ℕ → K}

theorem within_particleStep (a : StepArgs K) (hi : i < 2 ^ 31) :
    (particleStep a i).Within {b | b.2 = i} := by
  have hat : (asInt i).toNat = i := by rw [asInt_of_lt hi, Int.toNat_natCast]
  unfold particleStep
  by_cases h : a.n ≤ asInt i
  · rw [if_pos h]
    trivial
  · rw [if_neg h, hat]
    exact ⟨rfl, fun _ => ⟨rfl, fun _ => ⟨rfl, fun _ => ⟨rfl, fun _ => ⟨rfl, fun _ => ⟨rfl, fun _ =>
      ⟨rfl, rfl, rfl, rfl, rfl, rfl, trivial⟩⟩⟩⟩⟩⟩⟩

theorem atMost_particleStep (a : StepArgs K) (i : ℕ) : (particleStep a i).AtMost 12 := by
  unfold particleStep
  by_cases h : a.n ≤ asInt i
  · rw [if_pos h]
    trivial
  · rw [if_neg h]
    exact fun _ _ _ _ _ _ => trivial

/-- The factor of the drag is one where the actor leaves it out. -/
theorem dragFactor_ne_one_iff (hdrag : 0 ≤ cfg.drag) : 1 - cfg.drag ≠ 1 ↔ 0 < cfg.drag := by
  rw [ne_eq, sub_eq_self]
  exact ⟨fun h => lt_of_le_of_ne hdrag (Ne.symm h), fun h => h.ne'⟩

/-- A thread does to its particle what the actor does. -/
theorem alone_particleStep (hdrag : 0 ≤ cfg.drag) (hn : n < 2 ^ 31) (hi : i < n)
    (m : Buffer × ℕ → K) : particleAt ((particleStep (stepArgs cfg dt n) i).alone m) i =
      advance cfg dt (particleAt m i) := by
  have hint : asInt i = i := asInt_of_lt (hi.trans hn)
  have hin : ¬ (stepArgs cfg dt n).n ≤ asInt i := by
    show ¬ asInt n ≤ asInt i
    rw [asInt_of_lt hn, hint]
    omega
  unfold particleStep
  rw [if_neg hin, hint, Int.toNat_natCast]
  simp only [Threads.Thread.alone, stepArgs, dragFactor_ne_one_iff hdrag]
  obtain ⟨gravity, drag, bounds, bounce⟩ := cfg
  cases bounds with
  | none => simp [particleAt, advance, Function.update]
  | some corners => simp [particleAt, advance, Function.update]

/-- The buffers hold the particles. -/
def Holds (m : Buffer × ℕ → K) (ps : List (Particle K)) : Prop :=
  ∀ i (hi : i < ps.length), particleAt m i = ps[i]

/-- A launch does to the buffers what a step does to the particles, in whatever order the threads
run. -/
theorem holds_launched {s : ParticleSystemActor K} (hdrag : 0 ≤ s.cfg.drag)
    (hfits : Fits s.particles.length count) (hm : Holds m s.particles)
    (h : Launched (stepLaunch s.cfg dt s.particles.length count) m m') :
    Holds m' (s.step dt).particles := by
  obtain ⟨ls, t, hrun, hfinished, rfl⟩ := h
  intro i hi
  have hlen : i < s.particles.length := by simpa [ParticleSystemActor.step] using hi
  have hdisjoint : Pairwise (Function.onFun Disjoint
      fun i : Fin count => {b : Buffer × ℕ | b.2 = i.val}) := fun i j hij =>
    Set.disjoint_left.2 fun b hi hj => hij (Fin.ext ((show b.2 = i from hi).symm.trans hj))
  have halone := fun b : Buffer => memory_of_disjoint hdisjoint
    (fun i => within_particleStep (stepArgs s.cfg dt s.particles.length)
      (i.isLt.trans_le hfits.count)) hrun hfinished
    (i := ⟨i, hlen.trans_le hfits.le_count⟩) (a := (b, i)) rfl
  have hat : particleAt t.memory i =
      particleAt ((particleStep (stepArgs s.cfg dt s.particles.length) i).alone m) i := by
    simp only [particleAt, halone]
  rw [hat, alone_particleStep hdrag hfits.particles hlen, hm i hlen]
  simp [ParticleSystemActor.step]

/-- The messages for some steps, each under a configuration of its own. -/
def commands (steps : List (ParticleSystemConfig K × K)) : List (ParticleMsg K) :=
  steps.flatMap fun c => [.updateConfig c.1, .step c.2]

/-- The launches for them. -/
def program (steps : List (ParticleSystemConfig K × K)) (n count : ℕ) :
    List (Launch (Buffer × ℕ) K) :=
  steps.map fun c => stepLaunch c.1 c.2 n count

theorem exists_program (steps : List (ParticleSystemConfig K × K)) (n count : ℕ)
    (m : Buffer × ℕ → K) : ∃ m', Launches (program steps n count) m m' := by
  refine exists_launches (n := 12) (fun l hl i => ?_) m
  obtain ⟨c, -, rfl⟩ := List.mem_map.1 hl
  exact atMost_particleStep _ _

/-- Steps under configurations with a drag that is not negative: launches in a row come to an end,
and whatever the order of the threads in each, the buffers then hold the particles of the actor. -/
theorem holds_launches (steps : List (ParticleSystemConfig K × K))
    (hdrag : ∀ c ∈ steps, 0 ≤ c.1.drag) {s : ParticleSystemActor K}
    (hfits : Fits s.particles.length count) (hm : Holds m s.particles) :
    (∃ m', Launches (program steps s.particles.length count) m m') ∧
      ∀ m', Launches (program steps s.particles.length count) m m' →
        Holds m' (s.run (commands steps)).particles := by
  refine ⟨exists_program steps _ _ m, fun m' h => ?_⟩
  induction steps generalizing s m with
  | nil =>
    obtain rfl := h
    exact hm
  | cons c steps ih =>
    obtain ⟨hc, hsteps⟩ := List.forall_mem_cons.1 hdrag
    obtain ⟨m₁, hlaunched, hrest⟩ := h
    have hfirst : Holds m₁ (({ s with cfg := c.1 } : ParticleSystemActor K).step c.2).particles :=
      holds_launched (s := { s with cfg := c.1 }) hc hfits hm hlaunched
    have hlen : (({ s with cfg := c.1 } : ParticleSystemActor K).step c.2).particles.length =
        s.particles.length := List.length_map _
    rw [← hlen] at hrest
    exact ih hsteps (hlen ▸ hfits) hfirst hrest

/-- A floor at zero, and two steps. -/
def bouncing : ParticleSystemConfig ℚ :=
  ⟨⟨0, -10, 0⟩, 1 / 2, some (⟨-5, 0, -5⟩, ⟨5, 5, 5⟩), 1 / 2⟩

theorem holds_launches_bouncing : ∃ m', Launches
      (program [(bouncing, 1 / 10), ({ bouncing with drag := 0 }, 1 / 5)] 1 256) (fun _ => 0) m' ∧
    particleAt m' 0 = ⟨⟨0, 0, 0⟩, ⟨0, 7 / 8, 0⟩⟩ := by
  obtain ⟨⟨m', hm'⟩, hall⟩ := holds_launches (K := ℚ) (m := fun _ => 0)
    (s := ⟨bouncing, [⟨0, 0⟩]⟩) [(bouncing, 1 / 10), ({ bouncing with drag := 0 }, 1 / 5)]
    (by decide +kernel) (show Fits 1 256 from ⟨by decide, by decide, by decide⟩) (fun i hi => by
      obtain rfl : i = 0 := Nat.lt_one_iff.1 hi
      rfl)
  exact ⟨m', hm', (hall m' hm' 0 (by decide)).trans (by decide +kernel)⟩

end Particles

end Realtime

end AtomrAccel
