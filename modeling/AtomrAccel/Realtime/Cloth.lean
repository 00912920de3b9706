import AtomrAccel.Device.Error
import AtomrAccel.Lib.Loops
import Mathlib.Data.Nat.PSub

/-!
# `ClothSimulationActor`: masses on a grid of springs

A step moves every vertex that is not pinned by Verlet's rule, from its position and the one before,
and then goes through the springs several times, pulling the two ends of each together or apart.
The arithmetic is that of a field in place of `f32`, and the factor of a spring any function of its
ends.  A panic is `none`.

* `Vec3`, `sum_modify`, `sum_zipWith`: vectors, and sums of lists of them;
* `constrain`, `integrate`, `sweep`, `step`, `handle`: the actor;
* `Relaxed`, `relaxed_constrain`: what springs leave alone, the sum of the positions among it;
* `integrate_spec`: what the integration does;
* `State`, `next`, `run`: the actor under messages, with the sum of the positions before a step;
* `cloth_run`: nothing panics, pinned vertices stay, and the sum obeys Verlet's rule.
-/

namespace AtomrAccel

namespace Realtime

namespace Cloth

open Loops

/-- A vector. -/
@[ext]
structure Vec3 (K : Type) where
  x : K
  y : K
  z : K
  deriving DecidableEq, Repr

namespace Vec3

variable {K : Type} [Field K]

instance : Zero (Vec3 K) := ⟨⟨0, 0, 0⟩⟩

instance : Add (Vec3 K) := ⟨fun a b => ⟨a.x + b.x, a.y + b.y, a.z + b.z⟩⟩

instance : Neg (Vec3 K) := ⟨fun a => ⟨-a.x, -a.y, -a.z⟩⟩

instance : Sub (Vec3 K) := ⟨fun a b => ⟨a.x - b.x, a.y - b.y, a.z - b.z⟩⟩

instance : SMul K (Vec3 K) := ⟨fun c a => ⟨c * a.x, c * a.y, c * a.z⟩⟩

instance : AddCommGroup (Vec3 K) where
  add_assoc a b c := Vec3.ext (add_assoc _ _ _) (add_assoc _ _ _) (add_assoc _ _ _)
  zero_add a := Vec3.ext (zero_add _) (zero_add _) (zero_add _)
  add_zero a := Vec3.ext (add_zero _) (add_zero _) (add_zero _)
  add_comm a b := Vec3.ext (add_comm _ _) (add_comm _ _) (add_comm _ _)
  neg_add_cancel a := Vec3.ext (neg_add_cancel _) (neg_add_cancel _) (neg_add_cancel _)
  sub_eq_add_neg a b := Vec3.ext (sub_eq_add_neg _ _) (sub_eq_add_neg _ _) (sub_eq_add_neg _ _)
  nsmul := nsmulRec
  zsmul := zsmulRec

end Vec3

/-- The grid, its springs and what is pinned. -/
structure ClothConfig (K : Type) where
  width : ℕ
  height : ℕ
  spacing : K
  gravity : Vec3 K
  pinned : List Bool
  stiffness : K
  iterations : UInt32
  deriving DecidableEq, Repr

/-- The messages of the actor. -/
inductive ClothMsg (K : Type)
  | reset
  | step (dt : K)
  | snapshot
  deriving DecidableEq, Repr

/-- What goes back on the reply channels. -/
inductive ClothReply (K : Type)
  | done
  | stepped (r : Except GpuError Unit)
  | positions (pos : List (Vec3 K))

/-- The actor: the positions of the vertices, now and before. -/
structure ClothSimulationActor (K : Type) where
  cfg : ClothConfig K
  pos : List (Vec3 K)
  prev : List (Vec3 K)
  deriving DecidableEq, Repr

section Code

variable {K : Type} [Field K]

namespace ClothConfig

variable (cfg : ClothConfig K)

/-- A vertex past the end of the vector is not pinned. -/
def isPinned (i : ℕ) : Bool := (cfg.pinned[i]?).getD false

/-- The vertices at rest, row by row. -/
def grid : List (Vec3 K) :=
  (List.range cfg.height).flatMap fun j =>
    (List.range cfg.width).map fun i => ⟨i * cfg.spacing, j * cfg.spacing, 0⟩

end ClothConfig

namespace ClothSimulationActor

/-- The instance `props` creates. -/
def new (cfg : ClothConfig K) : ClothSimulationActor K := ⟨cfg, cfg.grid, cfg.grid⟩

variable (factor : K → K → Vec3 K → Vec3 K → K) (s : ClothSimulationActor K)

/-- The ends of a spring are moved by `factor rest stiff pa pb` times the vector between them. -/
def constrain (a b : ℕ) (rest stiff : K) : Option (ClothSimulationActor K) := do
  let pa ← s.pos[a]?
  let pb ← s.pos[b]?
  let diff := factor rest stiff pa pb
  let off : Vec3 K := ⟨(pb.x - pa.x) * diff, (pb.y - pa.y) * diff, (pb.z - pa.z) * diff⟩
  let pos := if s.cfg.isPinned a then s.pos else s.pos.modify a (· + off)
  let pos := if s.cfg.isPinned b then pos else pos.modify b (· - off)
  return { s with pos := pos }

/-- Where a vertex goes that is not pinned. -/
def verlet (g : Vec3 K) (dt2 : K) (x xp : Vec3 K) : Vec3 K :=
  ⟨2 * x.x - xp.x + g.x * dt2, 2 * x.y - xp.y + g.y * dt2, 2 * x.z - xp.z + g.z * dt2⟩

/-- The vertices that are not pinned move. -/
def integrate (dt : K) : Option (ClothSimulationActor K) :=
  (List.range s.pos.length).foldlM (fun s i =>
    if s.cfg.isPinned i then some s
    else do
      let x ← s.pos[i]?
      let xp ← s.prev[i]?
      let prev ← store s.prev i x
      let pos ← store s.pos i (verlet s.cfg.gravity (dt * dt) x xp)
      return { s with prev := prev, pos := pos }) s

/-- One iteration over the springs; `w - 1` and `h - 1` panic at zero. -/
def sweep (rest stiff : K) : Option (ClothSimulationActor K) := do
  let w := s.cfg.width
  let h := s.cfg.height
  let s ← (List.range h).foldlM (fun s j => do
    let n ← Nat.ppred w
    (List.range n).foldlM (fun s i =>
      s.constrain factor (j * w + i) (j * w + (i + 1)) rest stiff) s) s
  let n ← Nat.ppred h
  (List.range n).foldlM (fun s j =>
    (List.range w).foldlM (fun s i =>
      s.constrain factor (j * w + i) ((j + 1) * w + i) rest stiff) s) s

variable [LinearOrder K]

/-- The vertices move, then the springs are satisfied in turn. -/
def step (dt : K) : Option (ClothSimulationActor K) := do
  let s ← s.integrate dt
  let rest := s.cfg.spacing
  let stiff := max 0 (min s.cfg.stiffness 1)
  (List.range s.cfg.iterations.toNat).foldlM (fun s _ => s.sweep factor rest stiff) s

/-- `none` when the actor panics. -/
def handle : ClothMsg K → Option (ClothSimulationActor K × ClothReply K)
  | .reset => some ({ s with pos := s.cfg.grid, prev := s.cfg.grid }, .done)
  | .step dt => (s.step factor dt).map fun s' => (s', .stepped (.ok ()))
  | .snapshot => some (s, .positions s.pos)

end ClothSimulationActor

/-- An actor, and the sum of its positions before the last step; after a `Reset`, and at the start,
that of the positions themselves. -/
structure State (K : Type) where
  actor : ClothSimulationActor K
  before : Vec3 K

/-- A cloth at rest. -/
def start (cfg : ClothConfig K) : State K := ⟨.new cfg, cfg.grid.sum⟩

variable [LinearOrder K]

/-- One message, which may start the count again. -/
def next (factor : K → K → Vec3 K → Vec3 K → K) (s : State K) (msg : ClothMsg K) :
    Option (State K) :=
  (s.actor.handle factor msg).map fun (a, _) =>
    ⟨a, match msg with
      | .reset => a.pos.sum
      | .step _ => s.actor.pos.sum
      | .snapshot => s.before⟩

/-- The state after some messages, if none of them panics. -/
def run (factor : K → K → Vec3 K → Vec3 K → K) (s : State K) (msgs : List (ClothMsg K)) :
    Option (State K) := msgs.foldlM (next factor) s

end Code

/-! ### Sums -/

section Sums

variable {G : Type*} [AddCommGroup G]

theorem sum_modify {l : List G} {i : ℕ} (hi : i < l.length) (v : G) :
    (l.modify i (· + v)).sum = l.sum + v := by
  induction l generalizing i with
  | nil => cases hi
  | cons a l ih =>
    cases i with
    | zero =>
      rw [List.modify_zero_cons, List.sum_cons, List.sum_cons]
      abel
    | succ i =>
      rw [List.modify_succ_cons, List.sum_cons, List.sum_cons, ih (by simpa using hi)]
      abel

theorem sum_zipWith {l l' : List G} (hl : l.length = l'.length) (c : G) :
    (List.zipWith (fun a b => 2 • a - b + c) l l').sum =
      2 • l.sum - l'.sum + l.length • c := by
  induction l generalizing l' with
  | nil =>
    obtain rfl : l' = [] := List.length_eq_zero_iff.1 hl.symm
    simp
  | cons a l ih =>
    cases l' with
    | nil => cases hl
    | cons b l' =>
      rw [List.zipWith_cons_cons, List.sum_cons, List.sum_cons, List.sum_cons,
        ih (by simpa using hl), List.length_cons, add_nsmul, one_nsmul]
      abel

end Sums

/-! ### Springs -/

namespace ClothSimulationActor

variable {K : Type} [Field K] {factor : K → K → Vec3 K → Vec3 K → K}
  {s s' s'' : ClothSimulationActor K}

/-- What springs leave alone: all but the positions, those of the pinned vertices, and the sum of
all when no vertex is pinned. -/
structure Relaxed (s s' : ClothSimulationActor K) : Prop where
  cfg_eq : s'.cfg = s.cfg
  prev_eq : s'.prev = s.prev
  length_eq : s'.pos.length = s.pos.length
  pinned : ∀ i, s.cfg.isPinned i = true → s'.pos[i]? = s.pos[i]?
  sum_eq : (∀ i < s.pos.length, s.cfg.isPinned i = false) → s'.pos.sum = s.pos.sum

theorem Relaxed.refl (s : ClothSimulationActor K) : Relaxed s s :=
  ⟨rfl, rfl, rfl, fun _ _ => rfl, fun _ => rfl⟩

theorem Relaxed.trans (h : Relaxed s s') (h' : Relaxed s' s'') : Relaxed s s'' where
  cfg_eq := h'.cfg_eq.trans h.cfg_eq
  prev_eq := h'.prev_eq.trans h.prev_eq
  length_eq := h'.length_eq.trans h.length_eq
  pinned i hi := (h'.pinned i (h.cfg_eq ▸ hi)).trans (h.pinned i hi)
  sum_eq hfree := by
    refine (h'.sum_eq fun i hi => ?_).trans (h.sum_eq hfree)
    rw [h.cfg_eq]
    exact hfree i (h.length_eq ▸ hi)

/-- A spring moves its ends by opposite amounts. -/
theorem relaxed_constrain (factor : K → K → Vec3 K → Vec3 K → K) {a b : ℕ}
    (ha : a < s.pos.length) (hb : b < s.pos.length) (rest stiff : K) :
    ∃ s', s.constrain factor a b rest stiff = some s' ∧ Relaxed s s' := by
  simp only [constrain, List.getElem?_eq_getElem ha, List.getElem?_eq_getElem hb,
    Option.bind_eq_bind, Option.bind_some]
  generalize hoff : (⟨_, _, _⟩ : Vec3 K) = off
  refine ⟨_, rfl, rfl, rfl, ?_, fun i hi => ?_, fun hfree => ?_⟩
  · split_ifs <;> simp
  · have hmodify : ∀ (l : List (Vec3 K)) (j : ℕ) (f : Vec3 K → Vec3 K),
        (if s.cfg.isPinned j then l else l.modify j f)[i]? = l[i]? := by
      intro l j f
      split_ifs with hj
      · rfl
      · exact List.getElem?_modify_ne f l fun hji => hj (hji ▸ hi)
    rw [hmodify, hmodify]
  · simp only [hfree a ha, hfree b hb, Bool.false_eq_true, if_false, sub_eq_add_neg]
    rw [sum_modify (by simpa using hb), sum_modify ha]
    abel

/-- So does an iteration over all of them, on a grid with a row and a column. -/
theorem relaxed_sweep (factor : K → K → Vec3 K → Vec3 K → K) (hw : 1 ≤ s.cfg.width)
    (hh : 1 ≤ s.cfg.height) (hlen : s.pos.length = s.cfg.width * s.cfg.height) (rest stiff : K) :
    ∃ s', s.sweep factor rest stiff = some s' ∧ Relaxed s s' := by
  have hspring : ∀ t a b, Relaxed s t → a < s.cfg.width * s.cfg.height →
      b < s.cfg.width * s.cfg.height →
      ∃ t', t.constrain factor a b rest stiff = some t' ∧ Relaxed s t' := by
    intro t a b ht ha hb
    rw [← hlen, ← ht.length_eq] at ha hb
    obtain ⟨t', ht', hrelaxed⟩ := relaxed_constrain factor ha hb rest stiff
    exact ⟨t', ht', ht.trans hrelaxed⟩
  obtain ⟨w, hw⟩ := Nat.exists_eq_add_of_le' hw
  obtain ⟨h, hh⟩ := Nat.exists_eq_add_of_le' hh
  have hrows : ∃ t, (List.range s.cfg.height).foldlM (fun t j =>
      (List.range w).foldlM (fun t i => t.constrain factor (j * s.cfg.width + i)
        (j * s.cfg.width + (i + 1)) rest stiff) t) s = some t ∧ Relaxed s t := by
    refine foldlM_inv (Relaxed.refl s) fun j hj t ht => foldlM_inv ht fun i hi t ht => ?_
    rw [List.mem_range] at hi hj
    exact hspring t _ _ ht (index_lt (by omega) hj) (index_lt (by omega) hj)
  obtain ⟨t, ht, hrelaxed⟩ := hrows
  have hcolumns : ∃ t', (List.range h).foldlM (fun t j =>
      (List.range s.cfg.width).foldlM (fun t i => t.constrain factor (j * s.cfg.width + i)
        ((j + 1) * s.cfg.width + i) rest stiff) t) t = some t' ∧ Relaxed s t' := by
    refine foldlM_inv hrelaxed fun j hj t ht => foldlM_inv ht fun i hi t ht => ?_
    rw [List.mem_range] at hi hj
    exact hspring t _ _ ht (index_lt hi (by omega)) (index_lt hi (by omega))
  obtain ⟨t', ht', hrelaxed'⟩ := hcolumns
  refine ⟨t', ?_, hrelaxed'⟩
  have hpw : Nat.ppred s.cfg.width = some w := by rw [hw, Nat.ppred_succ]
  have hph : Nat.ppred s.cfg.height = some h := by rw [hh, Nat.ppred_succ]
  simp only [sweep, hpw, hph, Option.bind_eq_bind, Option.bind_some, ht, ht']

/-! ### Integration -/

/-- The rule, in terms of whole vectors. -/
theorem verlet_eq (g : Vec3 K) (dt2 : K) (x xp : Vec3 K) :
    verlet g dt2 x xp = 2 • x - xp + dt2 • g := by
  rw [two_nsmul]
  refine Vec3.ext ?_ ?_ ?_
  · show 2 * x.x - xp.x + g.x * dt2 = x.x + x.x - xp.x + dt2 * g.x
    ring
  · show 2 * x.y - xp.y + g.y * dt2 = x.y + x.y - xp.y + dt2 * g.y
    ring
  · show 2 * x.z - xp.z + g.z * dt2 = x.z + x.z - xp.z + dt2 * g.z
    ring

/-- After `k` rounds the first `k` vertices that are not pinned have moved. -/
structure Moved (s : ClothSimulationActor K) (dt : K) (k : ℕ) (s' : ClothSimulationActor K) :
    Prop where
  cfg_eq : s'.cfg = s.cfg
  pos_length : s'.pos.length = s.pos.length
  prev_length : s'.prev.length = s.pos.length
  moved : ∀ i < k, s.cfg.isPinned i = false →
    s'.pos[i]? = (List.zipWith (verlet s.cfg.gravity (dt * dt)) s.pos s.prev)[i]? ∧
      s'.prev[i]? = s.pos[i]?
  rest : ∀ i, k ≤ i ∨ s.cfg.isPinned i = true → s'.pos[i]? = s.pos[i]? ∧ s'.prev[i]? = s.prev[i]?

/-- The integration reads every vertex before it assigns it. -/
theorem integrate_spec (hlen : s.prev.length = s.pos.length) (dt : K) :
    ∃ s', s.integrate dt = some s' ∧ Moved s dt s.pos.length s' := by
  refine foldlM_range (P := Moved s dt)
    ⟨rfl, rfl, hlen, fun i hi => absurd hi (Nat.not_lt_zero i), fun i _ => ⟨rfl, rfl⟩⟩ ?_
  rintro k hk t ⟨hcfg, hpos, hprev, hmoved, hrest⟩
  rw [hcfg]
  cases hpin : s.cfg.isPinned k with
  | true =>
    refine ⟨t, if_pos rfl, hcfg, hpos, hprev, fun i hi hfree => ?_, fun i hi => ?_⟩
    · refine hmoved i (lt_of_le_of_ne (Nat.le_of_lt_succ hi) ?_) hfree
      rintro rfl
      simp [hpin] at hfree
    · by_cases hik : i = k
      · exact hrest i (.inr (hik ▸ hpin))
      · exact hrest i (hi.imp_left (by omega))
  | false =>
    obtain ⟨hposk, hprevk⟩ := hrest k (.inl le_rfl)
    have hk' : k < s.prev.length := hlen ▸ hk
    have hkt : k < t.pos.length := hpos ▸ hk
    have hkt' : k < t.prev.length := hprev ▸ hk
    rw [List.getElem?_eq_getElem hk] at hposk
    rw [List.getElem?_eq_getElem hk'] at hprevk
    refine ⟨⟨t.cfg, t.pos.set k (verlet s.cfg.gravity (dt * dt) s.pos[k] s.prev[k]),
      t.prev.set k s.pos[k]⟩, ?_, hcfg, ?_, ?_, fun i hi hfree => ?_, fun i hi => ?_⟩
    · simp only [Bool.false_eq_true, if_false, hposk, hprevk, Option.bind_eq_bind,
        Option.bind_some, store_of_lt hkt, store_of_lt hkt', hcfg]
      rfl
    · exact List.length_set.trans hpos
    · exact List.length_set.trans hprev
    · rcases Nat.lt_succ_iff_lt_or_eq.1 hi with hi | rfl
      · rw [List.getElem?_set_ne (by omega), List.getElem?_set_ne (by omega)]
        exact hmoved i hi hfree
      · rw [List.getElem?_set_self hkt, List.getElem?_set_self hkt', List.getElem?_zipWith,
          List.getElem?_eq_getElem hk, List.getElem?_eq_getElem hk']
        exact ⟨rfl, rfl⟩
    · have hik : k ≠ i := by
        rintro rfl
        rcases hi with hi | hi
        · omega
        · simp [hpin] at hi
      rw [List.getElem?_set_ne hik, List.getElem?_set_ne hik]
      exact hrest i (hi.imp_left (by omega))

/-- When no vertex is pinned, all have moved. -/
theorem Moved.eq_zipWith {dt : K} (h : Moved s dt s.pos.length s')
    (hlen : s.prev.length = s.pos.length) (hfree : ∀ i < s.pos.length, s.cfg.isPinned i = false) :
    s'.pos = List.zipWith (verlet s.cfg.gravity (dt * dt)) s.pos s.prev ∧ s'.prev = s.pos := by
  have hz : (List.zipWith (verlet s.cfg.gravity (dt * dt)) s.pos s.prev).length =
      s.pos.length := by
    rw [List.length_zipWith, hlen, min_self]
  refine ⟨List.ext_getElem? fun i => ?_, List.ext_getElem? fun i => ?_⟩
  · by_cases hi : i < s.pos.length
    · exact (h.moved i hi (hfree i hi)).1
    · rw [List.getElem?_eq_none (by rw [h.pos_length]; omega),
        List.getElem?_eq_none (by rw [hz]; omega)]
  · by_cases hi : i < s.pos.length
    · exact (h.moved i hi (hfree i hi)).2
    · rw [List.getElem?_eq_none (by rw [h.prev_length]; omega),
        List.getElem?_eq_none (by omega)]

/-- Verlet's rule for the sum of the positions. -/
theorem Moved.sum_eq {dt : K} (h : Moved s dt s.pos.length s') (hlen : s.prev.length = s.pos.length)
    (hfree : ∀ i < s.pos.length, s.cfg.isPinned i = false) :
    s'.pos.sum = 2 • s.pos.sum - s.prev.sum + s.pos.length • (dt * dt) • s.cfg.gravity ∧
      s'.prev.sum = s.pos.sum := by
  obtain ⟨hpos, hprev⟩ := h.eq_zipWith hlen hfree
  have hrule : verlet s.cfg.gravity (dt * dt) =
      fun x xp => 2 • x - xp + (dt * dt) • s.cfg.gravity := by
    funext x xp
    exact verlet_eq _ _ _ _
  rw [hpos, hprev, hrule]
  exact ⟨sum_zipWith hlen.symm _, rfl⟩

/-! ### Steps and runs -/

theorem length_grid (cfg : ClothConfig K) : cfg.grid.length = cfg.width * cfg.height := by
  simp [ClothConfig.grid, Nat.mul_comm]

/-- Both buffers are as large as the grid, and pinned vertices are where they were. -/
structure Inv (cfg : ClothConfig K) (s : ClothSimulationActor K) : Prop where
  cfg_eq : s.cfg = cfg
  pos_length : s.pos.length = cfg.width * cfg.height
  prev_length : s.prev.length = cfg.width * cfg.height
  pinned : ∀ i, cfg.isPinned i = true → s.pos[i]? = cfg.grid[i]?

variable {cfg : ClothConfig K}

theorem inv_new (cfg : ClothConfig K) : Inv cfg (new cfg) :=
  ⟨rfl, length_grid cfg, length_grid cfg, fun _ _ => rfl⟩

variable [LinearOrder K]

/-- No index is out of range in a step; what it does to the sums is the integration's doing. -/
theorem step_spec (factor : K → K → Vec3 K → Vec3 K → K) (h : Inv cfg s) (hw : 1 ≤ cfg.width)
    (hh : 1 ≤ cfg.height) (dt : K) :
    ∃ s', s.step factor dt = some s' ∧ Inv cfg s' ∧
      ((∀ i < cfg.width * cfg.height, cfg.isPinned i = false) →
        s'.pos.sum = 2 • s.pos.sum - s.prev.sum +
          (cfg.width * cfg.height) • (dt * dt) • cfg.gravity ∧ s'.prev.sum = s.pos.sum) := by
  obtain ⟨rfl, hpos, hprev, hpinned⟩ := h
  have hlen : s.prev.length = s.pos.length := hprev.trans hpos.symm
  obtain ⟨t, ht, hmoved⟩ := integrate_spec hlen dt
  have hsweeps : ∃ s', (List.range t.cfg.iterations.toNat).foldlM (fun s _ =>
      s.sweep factor t.cfg.spacing (max 0 (min t.cfg.stiffness 1))) t = some s' ∧
      Relaxed t s' := by
    refine foldlM_inv (Relaxed.refl t) fun _ _ t' ht' => ?_
    have hcfg : t'.cfg = s.cfg := ht'.cfg_eq.trans hmoved.cfg_eq
    have hlen' : t'.pos.length = t'.cfg.width * t'.cfg.height := by
      rw [ht'.length_eq, hmoved.pos_length, hpos, hcfg]
    obtain ⟨t'', ht'', hrelaxed⟩ := relaxed_sweep factor (hcfg ▸ hw) (hcfg ▸ hh) hlen'
      t.cfg.spacing (max 0 (min t.cfg.stiffness 1))
    exact ⟨t'', ht'', ht'.trans hrelaxed⟩
  obtain ⟨s', hs', hrelaxed⟩ := hsweeps
  refine ⟨s', ?_, ⟨?_, ?_, ?_, fun i hi => ?_⟩, fun hfree => ?_⟩
  · simp only [step, ht, Option.bind_eq_bind, Option.bind_some, hs']
  · exact hrelaxed.cfg_eq.trans hmoved.cfg_eq
  · exact hrelaxed.length_eq.trans (hmoved.pos_length.trans hpos)
  · rw [hrelaxed.prev_eq, hmoved.prev_length, hpos]
  · rw [hrelaxed.pinned i (hmoved.cfg_eq ▸ hi), (hmoved.rest i (.inr hi)).1, hpinned i hi]
  · rw [← hpos] at hfree ⊢
    obtain ⟨hsum, hprevsum⟩ := hmoved.sum_eq hlen hfree
    refine ⟨?_, hrelaxed.prev_eq ▸ hprevsum⟩
    rw [← hsum]
    refine hrelaxed.sum_eq fun i hi => ?_
    rw [hmoved.cfg_eq]
    exact hfree i (hmoved.pos_length ▸ hi)

end ClothSimulationActor

section Runs

open ClothSimulationActor

variable {K : Type} [Field K] [LinearOrder K] {cfg : ClothConfig K} {s : State K}

/-- And `before` is the sum of the previous positions, unless a vertex is pinned. -/
structure RunInv (cfg : ClothConfig K) (s : State K) : Prop where
  actor : Inv cfg s.actor
  before : (∀ i < cfg.width * cfg.height, cfg.isPinned i = false) → s.before = s.actor.prev.sum

theorem next_spec (factor : K → K → Vec3 K → Vec3 K → K) (h : RunInv cfg s)
    (hw : 1 ≤ cfg.width) (hh : 1 ≤ cfg.height) (msg : ClothMsg K) :
    ∃ s', next factor s msg = some s' ∧ RunInv cfg s' := by
  cases msg with
  | reset =>
    refine ⟨_, rfl, ⟨h.actor.cfg_eq, ?_, ?_, fun i hi => ?_⟩, fun _ => rfl⟩
    · exact (congrArg (fun c => c.grid.length) h.actor.cfg_eq).trans (length_grid cfg)
    · exact (congrArg (fun c => c.grid.length) h.actor.cfg_eq).trans (length_grid cfg)
    · exact congrArg (fun c => c.grid[i]?) h.actor.cfg_eq
  | step dt =>
    obtain ⟨a, ha, hinv, hsum⟩ := step_spec factor h.actor hw hh dt
    refine ⟨⟨a, s.actor.pos.sum⟩, ?_, hinv, fun hfree => (hsum hfree).2.symm⟩
    simp only [next, handle, ha, Option.map_some]
  | snapshot => exact ⟨s, rfl, h⟩

theorem run_spec (factor : K → K → Vec3 K → Vec3 K → K) (h : RunInv cfg s)
    (hw : 1 ≤ cfg.width) (hh : 1 ≤ cfg.height) (msgs : List (ClothMsg K)) :
    ∃ s', run factor s msgs = some s' ∧ RunInv cfg s' :=
  foldlM_inv h fun msg _ _ ht => next_spec factor ht hw hh msg

end Runs

/-- In every run on a grid with a row and a column nothing panics and the pinned vertices stay where
they were; without any, a step takes the sum `S` of the positions to `2 S - S' + n dt² g`, where
`S'` is the sum before, or `S` itself after a `Reset`. -/
theorem cloth_run {K : Type} [Field K] [LinearOrder K] (factor : K → K → Vec3 K → Vec3 K → K)
    (cfg : ClothConfig K) (hw : 1 ≤ cfg.width) (hh : 1 ≤ cfg.height) (msgs : List (ClothMsg K)) :
    ∃ s, run factor (start cfg) msgs = some s ∧
      (∀ i, cfg.isPinned i = true → s.actor.pos[i]? = cfg.grid[i]?) ∧
      (∃ s', next factor s .reset = some s' ∧ s'.actor.pos = cfg.grid ∧
        s'.before = s'.actor.pos.sum) ∧
      ((∀ i < cfg.width * cfg.height, cfg.isPinned i = false) → ∀ dt, ∃ s',
        next factor s (.step dt) = some s' ∧ s'.before = s.actor.pos.sum ∧
        s'.actor.pos.sum = 2 • s.actor.pos.sum - s.before +
          (cfg.width * cfg.height) • (dt * dt) • cfg.gravity) := by
  have hstart : RunInv cfg (start cfg) := ⟨ClothSimulationActor.inv_new cfg, fun _ => rfl⟩
  obtain ⟨s, hs, hinv⟩ := run_spec factor hstart hw hh msgs
  refine ⟨s, hs, hinv.actor.pinned, ⟨_, rfl, ?_, rfl⟩, fun hfree dt => ?_⟩
  · exact congrArg ClothConfig.grid hinv.actor.cfg_eq
  obtain ⟨a, ha, -, hsum⟩ := ClothSimulationActor.step_spec factor hinv.actor hw hh dt
  refine ⟨⟨a, s.actor.pos.sum⟩, ?_, rfl, ?_⟩
  · simp only [next, ClothSimulationActor.handle, ha, Option.map_some]
  · rw [hinv.before hfree]
    exact (hsum hfree).1

/-- Two vertices along the first axis. -/
def rope : ClothConfig ℚ := ⟨2, 1, 1, ⟨0, -10, 0⟩, [], 1 / 2, 3⟩

/-- The factor of a spring whose length is measured along that axis. -/
def ropeFactor (rest stiff : ℚ) (pa pb : Vec3 ℚ) : ℚ :=
  (|pb.x - pa.x| - rest) / |pb.x - pa.x| * stiff / 2

theorem cloth_run_rope :
    ∃ s, run ropeFactor (start rope) [.step (1 / 10), .reset, .step (1 / 5)] = some s ∧
      (∀ i, rope.isPinned i = true → s.actor.pos[i]? = rope.grid[i]?) ∧
      (∃ s', next ropeFactor s .reset = some s' ∧ s'.actor.pos = rope.grid ∧
        s'.before = s'.actor.pos.sum) ∧
      ∀ dt, ∃ s', next ropeFactor s (.step dt) = some s' ∧ s'.before = s.actor.pos.sum ∧
        s'.actor.pos.sum = 2 • s.actor.pos.sum - s.before + (2 * 1) • (dt * dt) • rope.gravity := by
  obtain ⟨s, hs, hpinned, hreset, hstep⟩ := cloth_run ropeFactor rope (by decide) (by decide)
    [.step (1 / 10), .reset, .step (1 / 5)]
  exact ⟨s, hs, hpinned, hreset, hstep (by decide)⟩

end Cloth

end Realtime

end AtomrAccel
