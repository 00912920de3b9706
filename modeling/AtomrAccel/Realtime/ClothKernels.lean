import AtomrAccel.Lib.Overflow
import AtomrAccel.Lib.Threads
import AtomrAccel.Realtime.Cloth

/-!
# The kernels of the cloth

A step of `cloth_springs.cu` is a launch of `cloth_verlet`, with a thread for each vertex, and then
several of `cloth_constrain_pass`, with a thread for each spring.  The threads of the second read
positions that others are adding to, so that its result depends on their order, where the actor goes
through the springs one by one.  What the actor keeps is kept all the same.

* `Buffer`, `clothVerlet`, `clothConstrainPass`: the kernels, the latter with any square root;
* `position`, `previous`, `positionSum`, `previousSum`: what is in the buffers;
* `launched_verlet`, `launched_constrain`: what a launch does to pinned vertices and to the sums;
* `Fits`, `stepLaunches`, `program`: the launches of some steps, with sizes that the kernels'
  integers can hold;
* `sums_agree`: after any steps, in whatever order the threads have run, the pinned vertices and the
  sum of the positions are those of the actor.
-/

namespace AtomrAccel

namespace Realtime

namespace ClothKernels

open Threads Cloth Overflow

/-- The buffers of the kernels. -/
inductive Buffer
  | posX
  | posY
  | posZ
  | prevX
  | prevY
  | prevZ
  deriving DecidableEq, Repr

variable {K : Type} [Field K]

/-- The thread `t` of `cloth_verlet`. -/
def clothVerlet (pinned : ℕ → Bool) (n : ℤ) (dt2 : K) (g : Vec3 K) (t : ℕ) :
    Threads.Thread (Buffer × ℕ) K :=
  let i := (asInt t).toNat
  if n ≤ asInt t then .done
  else if pinned i then .done
  else
    .read (.posX, i) fun xx => .read (.posY, i) fun yy => .read (.posZ, i) fun zz =>
    .read (.prevX, i) fun prevX => .read (.prevY, i) fun prevY => .read (.prevZ, i) fun prevZ =>
    let nx := (2 : ℕ) * xx - prevX + g.x * dt2
    let ny := (2 : ℕ) * yy - prevY + g.y * dt2
    let nz := (2 : ℕ) * zz - prevZ + g.z * dt2
    .write (.prevX, i) xx <| .write (.prevY, i) yy <| .write (.prevZ, i) zz <|
    .write (.posX, i) nx <| .write (.posY, i) ny <| .write (.posZ, i) nz .done

/-- The springs of a launch: their ends, and how long and how stiff they are. -/
structure Springs (K : Type) where
  a : ℕ → ℕ
  b : ℕ → ℕ
  nSprings : ℕ
  rest : K
  stiff : K

/-- `o` is added to the position of `v`, unless it is pinned. -/
def addUnpinned (pinned : ℕ → Bool) (v : ℕ) (o : Vec3 K) (next : Threads.Thread (Buffer × ℕ) K) :
    Threads.Thread (Buffer × ℕ) K :=
  if pinned v then next
  else .add (.posX, v) o.x <| .add (.posY, v) o.y <| .add (.posZ, v) o.z next

/-- The thread `t` of `cloth_constrain_pass`. -/
def clothConstrainPass [LinearOrder K] (sqrtf : K → K) (springs : Springs K) (pinned : ℕ → Bool)
    (t : ℕ) : Threads.Thread (Buffer × ℕ) K :=
  if asInt springs.nSprings ≤ asInt t then .done
  else
    let s := (asInt t).toNat
    let a := springs.a s
    let b := springs.b s
    .read (.posX, b) fun xb => .read (.posX, a) fun xa =>
    .read (.posY, b) fun yb => .read (.posY, a) fun ya =>
    .read (.posZ, b) fun zb => .read (.posZ, a) fun za =>
    let dx := xb - xa
    let dy := yb - ya
    let dz := zb - za
    let d2 := dx * dx + dy * dy + dz * dz
    let d := sqrtf (if d2 < 1 / (10 ^ 16 : ℕ) then 1 / (10 ^ 16 : ℕ) else d2)
    let diff := (d - springs.rest) / d * springs.stiff * (1 / (2 : ℕ))
    let o : Vec3 K := ⟨dx * diff, dy * diff, dz * diff⟩
    addUnpinned pinned a o <| addUnpinned pinned b ⟨-o.x, -o.y, -o.z⟩ .done

/-! ### The buffers -/

/-- Where the buffers have a vertex. -/
def position (m : Buffer × ℕ → K) (i : ℕ) : Vec3 K := ⟨m (.posX, i), m (.posY, i), m (.posZ, i)⟩

/-- Where they had it a step before. -/
def previous (m : Buffer × ℕ → K) (i : ℕ) : Vec3 K :=
  ⟨m (.prevX, i), m (.prevY, i), m (.prevZ, i)⟩

/-- The sum of the positions. -/
def positionSum (m : Buffer × ℕ → K) (n : ℕ) : Vec3 K := ∑ i ∈ Finset.range n, position m i

/-- The sum of the positions a step before. -/
def previousSum (m : Buffer × ℕ → K) (n : ℕ) : Vec3 K := ∑ i ∈ Finset.range n, previous m i

theorem sum_mk (s : Finset ℕ) (x y z : ℕ → K) :
    ∑ i ∈ s, (⟨x i, y i, z i⟩ : Vec3 K) = ⟨∑ i ∈ s, x i, ∑ i ∈ s, y i, ∑ i ∈ s, z i⟩ := by
  induction s using Finset.cons_induction with
  | empty => rfl
  | cons i s hi ih =>
    rw [Finset.sum_cons, Finset.sum_cons, Finset.sum_cons, Finset.sum_cons, ih]
    rfl

/-- The elements of a buffer up to `n`. -/
def cells (b : Buffer) (n : ℕ) : Finset (Buffer × ℕ) := {b} ×ˢ Finset.range n

theorem sum_cells (m : Buffer × ℕ → K) (b : Buffer) (n : ℕ) :
    ∑ c ∈ cells b n, m c = ∑ i ∈ Finset.range n, m (b, i) := by
  rw [cells, Finset.sum_product, Finset.sum_singleton]

theorem positionSum_eq (m : Buffer × ℕ → K) (n : ℕ) :
    positionSum m n =
      ⟨∑ c ∈ cells .posX n, m c, ∑ c ∈ cells .posY n, m c, ∑ c ∈ cells .posZ n, m c⟩ := by
  simp only [sum_cells]
  exact sum_mk _ _ _ _

/-! ### A launch of `cloth_verlet` -/

section Verlet

variable {pinned : ℕ → Bool} {n count i : ℕ} {dt2 : K} {g : Vec3 K} {m m' : Buffer × ℕ → K}

/-- A launch of `cloth_verlet`. -/
def verletLaunch (pinned : ℕ → Bool) (n : ℕ) (dt2 : K) (g : Vec3 K) (count : ℕ) :
    Launch (Buffer × ℕ) K :=
  ⟨count, fun i => clothVerlet pinned (asInt n) dt2 g i⟩

theorem within_clothVerlet (pinned : ℕ → Bool) (n : ℤ) (dt2 : K) (g : Vec3 K) (hi : i < 2 ^ 31) :
    (clothVerlet pinned n dt2 g i).Within {c | c.2 = i} := by
  have hat : (asInt i).toNat = i := by rw [asInt_of_lt hi, Int.toNat_natCast]
  unfold clothVerlet
  by_cases hn : n ≤ asInt i
  · rw [if_pos hn]
    trivial
  · rw [if_neg hn, hat]
    cases pinned i with
    | true => trivial
    | false =>
      exact ⟨rfl, fun _ => ⟨rfl, fun _ => ⟨rfl, fun _ => ⟨rfl, fun _ => ⟨rfl, fun _ => ⟨rfl,
        fun _ => ⟨rfl, rfl, rfl, rfl, rfl, rfl, trivial⟩⟩⟩⟩⟩⟩⟩

theorem atMost_clothVerlet (pinned : ℕ → Bool) (n : ℤ) (dt2 : K) (g : Vec3 K) (i : ℕ) :
    (clothVerlet pinned n dt2 g i).AtMost 12 := by
  unfold clothVerlet
  by_cases hn : n ≤ asInt i
  · rw [if_pos hn]
    trivial
  · rw [if_neg hn]
    cases pinned (asInt i).toNat with
    | true => trivial
    | false => exact fun _ _ _ _ _ _ => trivial

/-- Vertices that are not pinned move by Verlet's rule, the others stay, in whatever order the
threads run. -/
theorem launched_verlet (hn : n < 2 ^ 31) (hcount : n ≤ count) (hmax : count ≤ 2 ^ 31)
    (h : Launched (verletLaunch pinned n dt2 g count) m m') (hi : i < n) :
    position m' i = (if pinned i then position m i
      else ClothSimulationActor.verlet g dt2 (position m i) (previous m i)) ∧
    previous m' i = if pinned i then previous m i else position m i := by
  obtain ⟨ls, s, hrun, hfinished, rfl⟩ := h
  have hdisjoint : Pairwise (Function.onFun Disjoint
      fun i : Fin count => {c : Buffer × ℕ | c.2 = i.val}) := fun i j hij =>
    Set.disjoint_left.2 fun c hi hj => hij (Fin.ext ((show c.2 = i from hi).symm.trans hj))
  have halone := fun b : Buffer => memory_of_disjoint hdisjoint
    (fun i => within_clothVerlet pinned (asInt n) dt2 g (i.isLt.trans_le hmax)) hrun hfinished
    (i := ⟨i, hi.trans_le hcount⟩) (a := (b, i)) rfl
  have hin : ¬ asInt n ≤ (i : ℤ) := by
    rw [asInt_of_lt hn]
    omega
  simp only [clothVerlet, if_neg hin, asInt_of_lt (hi.trans hn), Int.toNat_natCast] at halone
  cases hpinned : pinned i with
  | true => simp [position, previous, halone, hpinned, Threads.Thread.alone]
  | false =>
    simp [position, previous, halone, hpinned, Threads.Thread.alone, Function.update,
      ClothSimulationActor.verlet]

end Verlet

/-! ### A launch of `cloth_constrain_pass` -/

section Constrain

variable [LinearOrder K] {sqrtf : K → K} {springs : Springs K} {pinned : ℕ → Bool} {n count : ℕ}
  {m m' : Buffer × ℕ → K}

/-- A launch of `cloth_constrain_pass`. -/
def constrainLaunch (sqrtf : K → K) (springs : Springs K) (pinned : ℕ → Bool) (count : ℕ) :
    Launch (Buffer × ℕ) K :=
  ⟨count, fun s => clothConstrainPass sqrtf springs pinned s⟩

/-- The positions of vertices that are not pinned. -/
def movable (pinned : ℕ → Bool) : Set (Buffer × ℕ) :=
  {c | (c.1 = .posX ∨ c.1 = .posY ∨ c.1 = .posZ) ∧ pinned c.2 = false}

omit [Field K] [LinearOrder K] in
theorem writesIn_addUnpinned (v : ℕ) (o : Vec3 K) {next : Threads.Thread (Buffer × ℕ) K}
    (h : next.WritesIn (movable pinned)) :
    (addUnpinned pinned v o next).WritesIn (movable pinned) := by
  unfold addUnpinned
  cases hpinned : pinned v with
  | true => exact h
  | false => exact ⟨⟨.inl rfl, hpinned⟩, ⟨.inr (.inl rfl), hpinned⟩, ⟨.inr (.inr rfl), hpinned⟩, h⟩

theorem writesIn_clothConstrainPass (sqrtf : K → K) (springs : Springs K) (pinned : ℕ → Bool)
    (s : ℕ) : (clothConstrainPass sqrtf springs pinned s).WritesIn (movable pinned) := by
  unfold clothConstrainPass
  by_cases hn : asInt springs.nSprings ≤ asInt s
  · rw [if_pos hn]
    trivial
  · rw [if_neg hn]
    exact fun _ _ _ _ _ _ => writesIn_addUnpinned _ _ (writesIn_addUnpinned _ _ trivial)

omit [Field K] [LinearOrder K] in
theorem atMost_addUnpinned (v : ℕ) (o : Vec3 K) {next : Threads.Thread (Buffer × ℕ) K} {k : ℕ}
    (h : next.AtMost k) : (addUnpinned pinned v o next).AtMost (k + 3) := by
  unfold addUnpinned
  cases pinned v with
  | true => exact h.mono (Nat.le_add_right k 3)
  | false => exact h

theorem atMost_clothConstrainPass (sqrtf : K → K) (springs : Springs K) (pinned : ℕ → Bool)
    (s : ℕ) : (clothConstrainPass sqrtf springs pinned s).AtMost 12 := by
  unfold clothConstrainPass
  by_cases hn : asInt springs.nSprings ≤ asInt s
  · rw [if_pos hn]
    trivial
  · rw [if_neg hn]
    exact fun _ _ _ _ _ _ => atMost_addUnpinned _ _ (atMost_addUnpinned (k := 0) _ _ trivial)

/-- What a spring adds to one of its ends it takes from the other. -/
theorem nets_clothConstrainPass (hfree : ∀ i < n, pinned i = false)
    (hsprings : ∀ s < springs.nSprings, springs.a s < n ∧ springs.b s < n)
    (hmax : springs.nSprings < 2 ^ 31) (b : Buffer) {s : ℕ} (hs : s < 2 ^ 31) :
    (clothConstrainPass sqrtf springs pinned s).Nets (cells b n) 0 := by
  unfold clothConstrainPass
  by_cases hn : asInt springs.nSprings ≤ asInt s
  · rw [if_pos hn]
    rfl
  · rw [if_neg hn, asInt_of_lt hs, Int.toNat_natCast]
    rw [asInt_of_lt hmax, asInt_of_lt hs, Nat.cast_le, not_le] at hn
    intro _ _ _ _ _ _
    obtain ⟨ha, hb⟩ := hsprings s hn
    cases b <;> simp [addUnpinned, hfree _ ha, hfree _ hb, Threads.Thread.Nets, cells, ha, hb]

/-- Only positions of vertices that are not pinned change, and unless one is pinned they come to the
same, in whatever order the threads run. -/
theorem launched_constrain (hmax : springs.nSprings < 2 ^ 31) (hcount : count ≤ 2 ^ 31)
    (h : Launched (constrainLaunch sqrtf springs pinned count) m m') :
    (∀ i, pinned i = true → position m' i = position m i) ∧
    (∀ i, previous m' i = previous m i) ∧
    ((∀ i < n, pinned i = false) →
      (∀ s < springs.nSprings, springs.a s < n ∧ springs.b s < n) →
      positionSum m' n = positionSum m n) := by
  obtain ⟨ls, t, hrun, hfinished, rfl⟩ := h
  have hwrites : ∀ s, ((constrainLaunch sqrtf springs pinned count).thread s).WritesIn
      (movable pinned) := fun s => writesIn_clothConstrainPass sqrtf springs pinned s
  have hsame : ∀ c ∉ movable pinned, t.memory c = m c := fun c hc =>
    memory_of_writesIn hwrites hrun hc
  refine ⟨fun i hi => ?_, fun i => ?_, fun hfree hsprings => ?_⟩
  · have hpinned : ∀ b, t.memory (b, i) = m (b, i) := fun b => hsame _ fun hc =>
      Bool.false_ne_true (hc.2.symm.trans hi)
    simp only [position, hpinned]
  · have hprev : ∀ b, b = .prevX ∨ b = .prevY ∨ b = .prevZ → t.memory (b, i) = m (b, i) := by
      rintro b (rfl | rfl | rfl) <;> exact hsame _ fun hc => by simp [movable] at hc
    simp only [previous, hprev _ (.inl rfl), hprev _ (.inr (.inl rfl)), hprev _ (.inr (.inr rfl))]
  · have hsum : ∀ b, ∑ c ∈ cells b n, t.memory c = ∑ c ∈ cells b n, m c := fun b => by
      have hnets : ∀ s,
          ((constrainLaunch sqrtf springs pinned count).thread s).Nets (cells b n) 0 := fun s =>
        nets_clothConstrainPass hfree hsprings hmax b (s.isLt.trans_le hcount)
      rw [sum_memory hnets hrun hfinished, Finset.sum_const_zero, add_zero]
    rw [positionSum_eq, positionSum_eq, hsum, hsum, hsum]

theorem launches_constrain (hmax : springs.nSprings < 2 ^ 31) (hcount : count ≤ 2 ^ 31) {k : ℕ}
    (h : Launches (List.replicate k (constrainLaunch sqrtf springs pinned count)) m m') :
    (∀ i, pinned i = true → position m' i = position m i) ∧
    (∀ i, previous m' i = previous m i) ∧
    ((∀ i < n, pinned i = false) →
      (∀ s < springs.nSprings, springs.a s < n ∧ springs.b s < n) →
      positionSum m' n = positionSum m n) := by
  induction k generalizing m with
  | zero =>
    obtain rfl := h
    exact ⟨fun _ _ => rfl, fun _ => rfl, fun _ _ => rfl⟩
  | succ k ih =>
    obtain ⟨m₁, hlaunched, hrest⟩ := h
    obtain ⟨hpinned, hprev, hsum⟩ := launched_constrain (n := n) hmax hcount hlaunched
    obtain ⟨hpinned', hprev', hsum'⟩ := ih hrest
    refine ⟨fun i hi => (hpinned' i hi).trans (hpinned i hi),
      fun i => (hprev' i).trans (hprev i), fun hfree hsprings => ?_⟩
    exact (hsum' hfree hsprings).trans (hsum hfree hsprings)

end Constrain

/-! ### Steps -/

section Steps

theorem sums_verlet {pinned : ℕ → Bool} {n count : ℕ} {dt2 : K} {g : Vec3 K}
    {m m' : Buffer × ℕ → K} (hn : n < 2 ^ 31) (hcount : n ≤ count) (hmax : count ≤ 2 ^ 31)
    (hfree : ∀ i < n, pinned i = false) (h : Launched (verletLaunch pinned n dt2 g count) m m') :
    positionSum m' n = 2 • positionSum m n - previousSum m n + n • dt2 • g ∧
      previousSum m' n = positionSum m n := by
  constructor
  · have hmoved : ∀ i ∈ Finset.range n,
        position m' i = 2 • position m i - previous m i + dt2 • g := by
      intro i hi
      have hin := Finset.mem_range.1 hi
      rw [(launched_verlet hn hcount hmax h hin).1, hfree i hin, if_neg Bool.false_ne_true,
        ClothSimulationActor.verlet_eq]
    rw [positionSum, Finset.sum_congr rfl hmoved, Finset.sum_add_distrib, Finset.sum_sub_distrib,
      ← Finset.smul_sum, Finset.sum_const, Finset.card_range]
    rfl
  · refine Finset.sum_congr rfl fun i hi => ?_
    have hin := Finset.mem_range.1 hi
    rw [(launched_verlet hn hcount hmax h hin).2, hfree i hin, if_neg Bool.false_ne_true]

variable [LinearOrder K] {cfg : ClothConfig K} {springs : Springs K} {m m' : Buffer × ℕ → K}

/-- A thread for each vertex, springs between vertices of the grid, and no number too large for an
`int`. -/
structure Fits (cfg : ClothConfig K) (springs : Springs K) (vertexThreads springThreads : ℕ) :
    Prop where
  vertices : cfg.width * cfg.height < 2 ^ 31
  le_vertexThreads : cfg.width * cfg.height ≤ vertexThreads
  vertexThreads : vertexThreads ≤ 2 ^ 31
  nSprings : springs.nSprings < 2 ^ 31
  ends : ∀ k < springs.nSprings,
    springs.a k < cfg.width * cfg.height ∧ springs.b k < cfg.width * cfg.height
  springThreads : springThreads ≤ 2 ^ 31

/-- The launches of a step, with so many threads for the vertices and for the springs. -/
def stepLaunches (sqrtf : K → K) (cfg : ClothConfig K) (springs : Springs K)
    (vertexThreads springThreads : ℕ) (dt : K) : List (Launch (Buffer × ℕ) K) :=
  verletLaunch cfg.isPinned (cfg.width * cfg.height) (dt * dt) cfg.gravity vertexThreads ::
    List.replicate cfg.iterations.toNat (constrainLaunch sqrtf springs cfg.isPinned springThreads)

/-- The launches of some steps. -/
def program (sqrtf : K → K) (cfg : ClothConfig K) (springs : Springs K)
    (vertexThreads springThreads : ℕ) (dts : List K) : List (Launch (Buffer × ℕ) K) :=
  dts.flatMap (stepLaunches sqrtf cfg springs vertexThreads springThreads)

theorem exists_program (sqrtf : K → K) (cfg : ClothConfig K) (springs : Springs K)
    (vertexThreads springThreads : ℕ) (dts : List K) (m : Buffer × ℕ → K) :
    ∃ m', Launches (program sqrtf cfg springs vertexThreads springThreads dts) m m' := by
  refine exists_launches (n := 12) (fun l hl i => ?_) m
  obtain ⟨dt, -, hl⟩ := List.mem_flatMap.1 hl
  rcases List.mem_cons.1 hl with rfl | hl
  · exact atMost_clothVerlet _ _ _ _ _
  · obtain rfl := List.eq_of_mem_replicate hl
    exact atMost_clothConstrainPass _ _ _ _

/-- Pinned vertices are where they started; unless there are any, the sums are those of the
actor. -/
structure Agrees (cfg : ClothConfig K) (m : Buffer × ℕ → K) (s : ClothSimulationActor K) :
    Prop where
  pinned : ∀ i < cfg.width * cfg.height, cfg.isPinned i = true →
    cfg.grid[i]? = some (position m i)
  positions : (∀ i < cfg.width * cfg.height, cfg.isPinned i = false) →
    positionSum m (cfg.width * cfg.height) = s.pos.sum
  previous : (∀ i < cfg.width * cfg.height, cfg.isPinned i = false) →
    previousSum m (cfg.width * cfg.height) = s.prev.sum

theorem Agrees.step {sqrtf : K → K}
    {s s' : ClothSimulationActor K} {vertexThreads springThreads : ℕ} {dt : K}
    (h : Agrees cfg m s) (hfits : Fits cfg springs vertexThreads springThreads)
    (hsum : (∀ i < cfg.width * cfg.height, cfg.isPinned i = false) →
      s'.pos.sum = 2 • s.pos.sum - s.prev.sum +
        (cfg.width * cfg.height) • (dt * dt) • cfg.gravity ∧ s'.prev.sum = s.pos.sum)
    (hl : Launches (stepLaunches sqrtf cfg springs vertexThreads springThreads dt) m m') :
    Agrees cfg m' s' := by
  obtain ⟨m₁, hverlet, hconstrain⟩ := hl
  obtain ⟨hpinned, hprev, hpositions⟩ :=
    launches_constrain hfits.nSprings hfits.springThreads hconstrain
  have hvertex := fun i => launched_verlet (i := i) hfits.vertices hfits.le_vertexThreads
    hfits.vertexThreads hverlet
  have hsums := sums_verlet hfits.vertices hfits.le_vertexThreads hfits.vertexThreads
    (h := hverlet)
  refine ⟨fun i hi hp => ?_, fun hfree => ?_, fun hfree => ?_⟩
  · rw [hpinned i hp, (hvertex i hi).1, if_pos hp]
    exact h.pinned i hi hp
  · rw [hpositions hfree hfits.ends, (hsums hfree).1, h.positions hfree, h.previous hfree,
      (hsum hfree).1]
  · rw [previousSum, Finset.sum_congr rfl fun i _ => hprev i]
    exact (hsums hfree).2.trans
      ((h.positions hfree).trans (hsum hfree).2.symm)

theorem agrees_of_run (factor : K → K → Vec3 K → Vec3 K → K) (sqrtf : K → K)
    {vertexThreads springThreads : ℕ} (hw : 1 ≤ cfg.width) (hh : 1 ≤ cfg.height)
    (hfits : Fits cfg springs vertexThreads springThreads) (dts : List K) {t : Cloth.State K}
    (hinv : ClothSimulationActor.Inv cfg t.actor) :
    ∃ s, run factor t (dts.map ClothMsg.step) = some s ∧ ClothSimulationActor.Inv cfg s.actor ∧
      ∀ m m', Agrees cfg m t.actor →
        Launches (program sqrtf cfg springs vertexThreads springThreads dts) m m' →
        Agrees cfg m' s.actor := by
  induction dts generalizing t with
  | nil =>
    refine ⟨t, rfl, hinv, fun m m' h hm' => ?_⟩
    obtain rfl := hm'
    exact h
  | cons dt dts ih =>
    obtain ⟨a, ha, hinv', hsum⟩ := ClothSimulationActor.step_spec factor hinv hw hh dt
    have hnext : next factor t (.step dt) = some ⟨a, t.actor.pos.sum⟩ := by
      simp only [next, ClothSimulationActor.handle, ha, Option.map_some]
    obtain ⟨s, hs, hinv'', hagrees⟩ := ih (t := ⟨a, t.actor.pos.sum⟩) hinv'
    refine ⟨s, ?_, hinv'', fun m m' h hm' => ?_⟩
    · rw [List.map_cons, run, List.foldlM_cons, hnext]
      exact hs
    · obtain ⟨m₁, hfirst, hrest⟩ := launches_append.1 hm'
      exact hagrees m₁ m' (h.step hfits hsum hfirst) hrest

omit [LinearOrder K] in
/-- The positions are those of the list. -/
theorem sum_range_eq {l : List (Vec3 K)} {f : ℕ → Vec3 K} {n : ℕ} (hn : l.length = n)
    (h : ∀ i < n, l[i]? = some (f i)) : ∑ i ∈ Finset.range n, f i = l.sum := by
  have hl : l = (List.range n).map f := by
    refine List.ext_getElem? fun i => ?_
    by_cases hi : i < n
    · rw [h i hi, List.getElem?_map, List.getElem?_range hi]
      rfl
    · rw [List.getElem?_eq_none (by omega), List.getElem?_eq_none (by simp; omega)]
  rw [hl]
  rfl

omit [LinearOrder K] in
theorem agrees_start (h : ∀ i < cfg.width * cfg.height,
    cfg.grid[i]? = some (position m i) ∧ previous m i = position m i) :
    Agrees cfg m (.new cfg) := by
  have hpositions : positionSum m (cfg.width * cfg.height) = cfg.grid.sum :=
    sum_range_eq (ClothSimulationActor.length_grid cfg) fun i hi => (h i hi).1
  refine ⟨fun i hi _ => (h i hi).1, fun _ => hpositions, fun _ => ?_⟩
  rw [previousSum, Finset.sum_congr rfl fun i hi => (h i (Finset.mem_range.1 hi)).2]
  exact hpositions

/-- Any steps from the grid on: the actor does not panic and the launches come to an end, and in
whatever order the threads have run, the pinned vertices are where those of the actor are, and
unless there are any the positions come to the same. -/
theorem sums_agree (factor : K → K → Vec3 K → Vec3 K → K) (sqrtf : K → K)
    {vertexThreads springThreads : ℕ} (hw : 1 ≤ cfg.width) (hh : 1 ≤ cfg.height)
    (hfits : Fits cfg springs vertexThreads springThreads)
    (hm : ∀ i < cfg.width * cfg.height,
      cfg.grid[i]? = some (position m i) ∧ previous m i = position m i) (dts : List K) :
    ∃ s, run factor (start cfg) (dts.map ClothMsg.step) = some s ∧
      (∃ m', Launches (program sqrtf cfg springs vertexThreads springThreads dts) m m') ∧
      ∀ m', Launches (program sqrtf cfg springs vertexThreads springThreads dts) m m' →
        (∀ i < cfg.width * cfg.height, cfg.isPinned i = true →
          s.actor.pos[i]? = some (position m' i)) ∧
        ((∀ i < cfg.width * cfg.height, cfg.isPinned i = false) →
          s.actor.pos.sum = positionSum m' (cfg.width * cfg.height)) := by
  obtain ⟨s, hs, hinv, hagrees⟩ := agrees_of_run factor sqrtf hw hh hfits dts
    (t := start cfg) (ClothSimulationActor.inv_new cfg)
  refine ⟨s, hs, exists_program _ _ _ _ _ _ _, fun m' hm' => ?_⟩
  have h := hagrees m m' (agrees_start hm) hm'
  exact ⟨fun i hi hp => (hinv.pinned i hp).trans (h.pinned i hi hp),
    fun hfree => (h.positions hfree).symm⟩

end Steps

/-- The two vertices of the rope, at rest. -/
def ropeAtRest (c : Buffer × ℕ) : ℚ := if c.1 = .posX ∨ c.1 = .prevX then c.2 else 0

/-- The spring between them. -/
def ropeSpring : Springs ℚ := ⟨fun _ => 0, fun _ => 1, 1, 1, 1 / 2⟩

theorem sums_agree_rope :
    ∃ s m', run ropeFactor (start rope) ([1 / 10, 1 / 5].map ClothMsg.step) = some s ∧
      Launches (program id rope ropeSpring 256 256 [1 / 10, 1 / 5]) ropeAtRest m' ∧
      s.actor.pos.sum = positionSum m' 2 := by
  have hsprings : ∀ k < ropeSpring.nSprings,
      ropeSpring.a k < rope.width * rope.height ∧ ropeSpring.b k < rope.width * rope.height :=
    fun _ _ => (by decide : 0 < 2 * 1 ∧ 1 < 2 * 1)
  have hfits : Fits rope ropeSpring 256 256 :=
    ⟨by decide, by decide, by decide, by decide, hsprings, by decide⟩
  obtain ⟨s, hs, ⟨m', hm'⟩, hall⟩ := sums_agree ropeFactor id (show 1 ≤ rope.width by decide)
    (show 1 ≤ rope.height by decide) hfits
    (m := ropeAtRest) (by decide +kernel) [1 / 10, 1 / 5]
  exact ⟨s, m', hs, hm', (hall m' hm').2 (by decide)⟩

end ClothKernels

end Realtime

end AtomrAccel
