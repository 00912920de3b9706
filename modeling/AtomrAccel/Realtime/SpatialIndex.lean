import AtomrAccel.Device.Error
import AtomrAccel.Lib.Buckets
import AtomrAccel.Lib.Loops
import AtomrAccel.Lib.Overflow
import AtomrAccel.Lib.Reactive
import Mathlib.Algebra.Order.Floor.Ring
import Mathlib.Data.Rat.Floor

/-!
# `SpatialIndexActor`: points in cells of a grid

A point is filed under its cell, and a query collects what is filed under the 27 cells around its
own.  Coordinates are rationals in place of `f32`; a cell is three `i32`, to which the quotients are
converted with saturation.

* `cellFor`, `rebuild`, `queryNeighbors`, `handle`: the actor, with the neighbour cells computed in
  either build;
* `State`, `machine`: the actor under messages, with the points of the last `Rebuild`; a panic
  leaves a fresh instance;
* `Near`, `near_of_close`: cells at most one apart, and points at most a cell size apart;
* `Inv`, `inv_final`: what is filed under each cell;
* `Whole`, `whole_iff`: a query returns its neighbourhood except when its cell is at an end of the
  range.
-/

namespace AtomrAccel

namespace Realtime

namespace Spatial

open Loops Overflow Reactive

/-- A cell of the grid. -/
structure CellKey where
  x : Int32
  y : Int32
  z : Int32
  deriving DecidableEq, Repr

/-- A point with its id. -/
structure Point3 where
  id : UInt64
  x : ℚ
  y : ℚ
  z : ℚ
  deriving DecidableEq

/-- The configuration. -/
structure SpatialIndexConfig where
  cellSize : ℚ
  deriving DecidableEq

/-- The messages of the actor. -/
inductive SpatialMsg
  | rebuild (points : List Point3)
  | queryNeighbors (x y z : ℚ)
  | stats
  deriving DecidableEq

/-- What `Stats` answers. -/
structure SpatialStats where
  totalPoints : ℕ
  occupiedCells : ℕ
  deriving DecidableEq, Repr

/-- What goes back on the reply channels. -/
inductive SpatialReply
  | rebuilt (r : Except GpuError ℕ)
  | neighbors (ids : List UInt64)
  | stats (s : SpatialStats)
  deriving DecidableEq

/-- The actor: the ids of its points by cell. -/
structure SpatialIndexActor where
  cfg : SpatialIndexConfig
  cells : Buckets CellKey UInt64
  total : ℕ

/-- The edge of a cell. -/
def SpatialIndexConfig.edge (cfg : SpatialIndexConfig) : ℚ := max cfg.cellSize (1 / 10 ^ 6)

/-- The cell of a place. -/
def SpatialIndexConfig.cellFor (cfg : SpatialIndexConfig) (x y z : ℚ) : CellKey where
  x := Int32.ofIntClamp ⌊x / cfg.edge⌋
  y := Int32.ofIntClamp ⌊y / cfg.edge⌋
  z := Int32.ofIntClamp ⌊z / cfg.edge⌋

/-- The cell of a point. -/
def SpatialIndexConfig.cellOf (cfg : SpatialIndexConfig) (p : Point3) : CellKey :=
  cfg.cellFor p.x p.y p.z

/-- The range `-1..=1`. -/
def offsets : List Int32 := [-1, 0, 1]

namespace SpatialIndexActor

/-- An index without points. -/
def new (cfg : SpatialIndexConfig) : SpatialIndexActor := ⟨cfg, ∅, 0⟩

variable (build : Build) (a : SpatialIndexActor)

/-- The points go into their cells, in order. -/
def rebuild (points : List Point3) : SpatialIndexActor :=
  points.foldl
    (fun a p =>
      let key := a.cfg.cellFor p.x p.y p.z
      { a with cells := a.cells.insert key (a.cells.bucket key ++ [p.id]), total := a.total + 1 })
    { a with cells := ∅, total := 0 }

/-- The innermost body: the cell at an offset from the centre, and what is filed under it. -/
def visit (center : CellKey) (dz dy dx : Int32) (out : List UInt64) : Option (List UInt64) := do
  let x ← addI32 build center.x dx
  let y ← addI32 build center.y dy
  let z ← addI32 build center.z dz
  match a.cells.lookup ⟨x, y, z⟩ with
  | some v => return out ++ v
  | none => return out

/-- `none` when an addition panics. -/
def queryNeighbors (x y z : ℚ) : Option (List UInt64) :=
  let center := a.cfg.cellFor x y z
  offsets.foldlM (fun out dz =>
    offsets.foldlM (fun out dy =>
      offsets.foldlM (fun out dx => a.visit build center dz dy dx out) out) out) []

/-- `none` when the actor panics. -/
def handle : SpatialMsg → Option (SpatialIndexActor × SpatialReply)
  | .rebuild points => some (a.rebuild points, .rebuilt (.ok (a.rebuild points).total))
  | .queryNeighbors x y z => (a.queryNeighbors build x y z).map fun out => (a, .neighbors out)
  | .stats => some (a, .stats ⟨a.total, a.cells.keys.length⟩)

end SpatialIndexActor

/-- An actor, and the points of the last `Rebuild` it has handled. -/
structure State where
  actor : SpatialIndexActor
  points : List Point3

/-- The points after a message. -/
def SpatialMsg.points (points : List Point3) : SpatialMsg → List Point3
  | rebuild ps => ps
  | queryNeighbors .. | stats => points

/-- An actor whose handler panics is replaced by a fresh instance. -/
def machine (build : Build) (cfg : SpatialIndexConfig) :
    Machine State SpatialMsg (Option SpatialReply) where
  step s msg :=
    match s.actor.handle build msg with
    | some (a, reply) => (⟨a, msg.points s.points⟩, some reply)
    | none => (⟨.new cfg, []⟩, none)

/-- An index without points. -/
def start (cfg : SpatialIndexConfig) : State := ⟨.new cfg, []⟩

/-- The coordinates differ by one at most. -/
def Adjacent (a b : Int32) : Prop := |a.toInt - b.toInt| ≤ 1

instance (a b : Int32) : Decidable (Adjacent a b) := inferInstanceAs (Decidable (_ ≤ _))

/-- Cells that differ by at most one along each axis. -/
def Near (c k : CellKey) : Prop := Adjacent k.x c.x ∧ Adjacent k.y c.y ∧ Adjacent k.z c.z

instance (c k : CellKey) : Decidable (Near c k) := inferInstanceAs (Decidable (_ ∧ _))

/-- The coordinate has neighbours on both sides. -/
def InsideI32 (a : Int32) : Prop := a ≠ Int32.minValue ∧ a ≠ Int32.maxValue

/-- No coordinate is at the end of its range. -/
def CellKey.Inside (c : CellKey) : Prop := InsideI32 c.x ∧ InsideI32 c.y ∧ InsideI32 c.z

/-- The query is answered with the ids of the points in the cells near its own, each as often as it
was inserted, and so with all that are at most a cell size away along each axis. -/
def Whole (build : Build) (s : State) (x y z : ℚ) : Prop :=
  ∃ ids, s.actor.handle build (.queryNeighbors x y z) = some (s.actor, .neighbors ids) ∧
    ids.Perm ((s.points.filter fun p =>
      Near (s.actor.cfg.cellFor x y z) (s.actor.cfg.cellOf p)).map Point3.id) ∧
    ∀ p ∈ s.points, |p.x - x| ≤ s.actor.cfg.cellSize → |p.y - y| ≤ s.actor.cfg.cellSize →
      |p.z - z| ≤ s.actor.cfg.cellSize → p.id ∈ ids

/-! ### Cells -/

section Cells

variable {cfg : SpatialIndexConfig}

theorem edge_pos (cfg : SpatialIndexConfig) : 0 < cfg.edge :=
  lt_max_of_lt_right (by norm_num)

/-- Quotients at most one apart have integer parts at most one apart. -/
theorem abs_floor_sub_floor_le {a b : ℚ} (h : |a - b| ≤ 1) : |⌊a⌋ - ⌊b⌋| ≤ 1 := by
  obtain ⟨h1, h2⟩ := abs_le.1 h
  have hab : ⌊a⌋ ≤ ⌊b⌋ + 1 := by
    rw [← Int.floor_add_one]
    exact Int.floor_le_floor (by linarith)
  have hba : ⌊b⌋ ≤ ⌊a⌋ + 1 := by
    rw [← Int.floor_add_one]
    exact Int.floor_le_floor (by linarith)
  exact abs_le.2 ⟨by omega, by omega⟩

/-- And so have the coordinates of the cells, at the ends of the range too. -/
theorem adjacent_of_abs_sub_le {a b : ℚ} (h : |a - b| ≤ cfg.cellSize) :
    Adjacent (Int32.ofIntClamp ⌊a / cfg.edge⌋) (Int32.ofIntClamp ⌊b / cfg.edge⌋) := by
  have hquot : |a / cfg.edge - b / cfg.edge| ≤ 1 := by
    rw [← sub_div, abs_div, abs_of_pos (edge_pos cfg), div_le_one (edge_pos cfg)]
    exact h.trans (le_max_left _ _)
  have hfloor := abs_le.1 (abs_floor_sub_floor_le hquot)
  unfold Adjacent
  rw [toInt_ofIntClamp, toInt_ofIntClamp]
  exact abs_le.2 ⟨by omega, by omega⟩

theorem near_of_close {x y z : ℚ} {p : Point3} (hx : |p.x - x| ≤ cfg.cellSize)
    (hy : |p.y - y| ≤ cfg.cellSize) (hz : |p.z - z| ≤ cfg.cellSize) :
    Near (cfg.cellFor x y z) (cfg.cellOf p) :=
  ⟨adjacent_of_abs_sub_le hx, adjacent_of_abs_sub_le hy, adjacent_of_abs_sub_le hz⟩

theorem toInt_offset {d : Int32} (hd : d ∈ offsets) :
    d.toInt = -1 ∨ d.toInt = 0 ∨ d.toInt = 1 := by
  simp only [offsets, List.mem_cons, List.not_mem_nil, or_false] at hd
  rcases hd with rfl | rfl | rfl
  · exact .inl rfl
  · exact .inr (.inl rfl)
  · exact .inr (.inr rfl)

/-- Neighbours on both sides can be computed. -/
theorem fits_of_inside {a d : Int32} (ha : InsideI32 a) (hd : d ∈ offsets) :
    FitsI32 (a.toInt + d.toInt) := by
  have hmin : a.toInt ≠ -2 ^ 31 := fun h => ha.1 (Int32.toInt_inj.1 h)
  have hmax : a.toInt ≠ 2 ^ 31 - 1 := fun h => ha.2 (Int32.toInt_inj.1 h)
  have := a.toInt_lt
  have := a.le_toInt
  have := toInt_offset hd
  exact ⟨by omega, by omega⟩

theorem exists_not_fits {a : Int32} (ha : ¬InsideI32 a) :
    ∃ d ∈ offsets, ¬FitsI32 (a.toInt + d.toInt) := by
  rcases not_and_or.1 ha with h | h
  · obtain rfl := not_not.1 h
    exact ⟨-1, by decide, by decide⟩
  · obtain rfl := not_not.1 h
    exact ⟨1, by decide, by decide⟩

theorem adjacent_iff {a b : Int32} (ha : InsideI32 a) :
    Adjacent b a ↔ ∃ d ∈ offsets, a + d = b := by
  have hsum : ∀ d ∈ offsets, (a + d).toInt = a.toInt + d.toInt :=
    fun d hd => toInt_add_of_fits (fits_of_inside ha hd)
  constructor
  · intro h
    obtain ⟨h1, h2⟩ := abs_le.1 h
    have hcases : b.toInt = a.toInt + -1 ∨ b.toInt = a.toInt + 0 ∨ b.toInt = a.toInt + 1 := by
      omega
    rcases hcases with hb | hb | hb
    · exact ⟨-1, by decide, Int32.toInt_inj.1 ((hsum (-1) (by decide)).trans hb.symm)⟩
    · exact ⟨0, by decide, Int32.toInt_inj.1 ((hsum 0 (by decide)).trans hb.symm)⟩
    · exact ⟨1, by decide, Int32.toInt_inj.1 ((hsum 1 (by decide)).trans hb.symm)⟩
  · rintro ⟨d, hd, rfl⟩
    have := toInt_offset hd
    unfold Adjacent
    rw [hsum d hd]
    exact abs_le.2 ⟨by omega, by omega⟩

end Cells

/-! ### What is filed where -/

section Runs

variable {build : Build} {cfg : SpatialIndexConfig} {s : State} {x y z : ℚ}

/-- The points are filed under their cells. -/
structure Inv (cfg : SpatialIndexConfig) (s : State) : Prop where
  cfg_eq : s.actor.cfg = cfg
  cells : ∀ k, s.actor.cells.bucket k = (s.points.filter fun p => cfg.cellOf p = k).map Point3.id
  total : s.actor.total = s.points.length

theorem rebuild_eq (a : SpatialIndexActor) (points : List Point3) : a.rebuild points =
    ⟨a.cfg, Buckets.fill a.cfg.cellOf Point3.id ∅ points, points.length⟩ := by
  have hloop : ∀ (cells : Buckets CellKey UInt64) (total : ℕ),
      points.foldl (fun a p =>
        { a with
          cells := a.cells.insert (a.cfg.cellFor p.x p.y p.z)
            (a.cells.bucket (a.cfg.cellFor p.x p.y p.z) ++ [p.id])
          total := a.total + 1 }) (⟨a.cfg, cells, total⟩ : SpatialIndexActor) =
      ⟨a.cfg, Buckets.fill a.cfg.cellOf Point3.id cells points, total + points.length⟩ := by
    induction points with
    | nil => exact fun _ _ => rfl
    | cons p points ih =>
      intro cells total
      rw [List.foldl_cons, List.length_cons, ← Nat.add_assoc, Nat.add_right_comm]
      exact ih _ _
  have h := hloop ∅ 0
  rwa [Nat.zero_add] at h

theorem inv_start (cfg : SpatialIndexConfig) : Inv cfg (start cfg) := ⟨rfl, fun _ => rfl, rfl⟩

/-- Every message keeps the points under their cells. -/
theorem inv_step (h : Inv cfg s) (msg : SpatialMsg) :
    Inv cfg ((machine build cfg).step s msg).1 := by
  cases msg with
  | rebuild points =>
    show Inv cfg ⟨s.actor.rebuild points, points⟩
    rw [rebuild_eq, h.cfg_eq]
    refine ⟨rfl, fun k => ?_, rfl⟩
    show Buckets.bucket (Buckets.fill cfg.cellOf Point3.id ∅ points) k = _
    rw [Buckets.bucket_fill]
    rfl
  | queryNeighbors x y z =>
    show Inv cfg (match (s.actor.queryNeighbors build x y z).map _ with
      | some (a, reply) => (⟨a, s.points⟩, some reply)
      | none => (⟨.new cfg, []⟩, none) : State × Option SpatialReply).1
    cases s.actor.queryNeighbors build x y z with
    | none => exact inv_start cfg
    | some out => exact h
  | stats => exact h

theorem inv_final (h : Inv cfg s) (msgs : List SpatialMsg) :
    Inv cfg ((machine build cfg).final s msgs) := by
  induction msgs generalizing s with
  | nil => exact h
  | cons msg msgs ih => exact ih (inv_step h msg)

/-- The cells around a centre, in the order of the loops. -/
def around (c : CellKey) : List CellKey :=
  offsets.flatMap fun dz => offsets.flatMap fun dy => offsets.map fun dx =>
    ⟨c.x + dx, c.y + dy, c.z + dz⟩

theorem mem_around {c k : CellKey} (hc : c.Inside) : k ∈ around c ↔ Near c k := by
  obtain ⟨kx, ky, kz⟩ := k
  simp only [around, List.mem_flatMap, List.mem_map, CellKey.mk.injEq, Near, adjacent_iff hc.1,
    adjacent_iff hc.2.1, adjacent_iff hc.2.2]
  constructor
  · rintro ⟨dz, hdz, dy, hdy, dx, hdx, hx, hy, hz⟩
    exact ⟨⟨dx, hdx, hx⟩, ⟨dy, hdy, hy⟩, ⟨dz, hdz, hz⟩⟩
  · rintro ⟨⟨dx, hdx, hx⟩, ⟨dy, hdy, hy⟩, ⟨dz, hdz, hz⟩⟩
    exact ⟨dz, hdz, dy, hdy, dx, hdx, hx, hy, hz⟩

theorem nodup_around (c : CellKey) : (around c).Nodup := by
  have hoff : offsets.Nodup := by decide
  have hinj : ∀ a : Int32, Function.Injective fun d => a + d := fun a d d' h =>
    (Int32.add_right_inj a).1 h
  refine List.nodup_flatMap.2 ⟨fun dz _ => List.nodup_flatMap.2 ⟨fun dy _ => ?_, ?_⟩, ?_⟩
  · refine hoff.map fun dx dx' h => hinj c.x ?_
    simpa using h
  · refine hoff.imp fun {dy dy'} hne k hk hk' => ?_
    obtain ⟨dx, -, rfl⟩ := List.mem_map.1 hk
    obtain ⟨dx', -, h⟩ := List.mem_map.1 hk'
    simp only [CellKey.mk.injEq] at h
    exact hne (hinj c.y h.2.1.symm)
  · refine hoff.imp fun {dz dz'} hne k hk hk' => ?_
    simp only [List.mem_flatMap, List.mem_map] at hk hk'
    obtain ⟨dy, -, dx, -, rfl⟩ := hk
    obtain ⟨dy', -, dx', -, h⟩ := hk'
    simp only [CellKey.mk.injEq] at h
    exact hne (hinj c.z h.2.2.symm)

/-- Inside the range a round appends what is filed under its cell. -/
theorem visit_of_inside (a : SpatialIndexActor) {c : CellKey} (hc : c.Inside) {dz dy dx : Int32}
    (hdz : dz ∈ offsets) (hdy : dy ∈ offsets) (hdx : dx ∈ offsets) (out : List UInt64) :
    a.visit build c dz dy dx out =
      some (out ++ a.cells.bucket ⟨c.x + dx, c.y + dy, c.z + dz⟩) := by
  unfold SpatialIndexActor.visit
  rw [addI32_of_fits (fits_of_inside hc.1 hdx), addI32_of_fits (fits_of_inside hc.2.1 hdy),
    addI32_of_fits (fits_of_inside hc.2.2 hdz)]
  show (match a.cells.lookup ⟨c.x + dx, c.y + dy, c.z + dz⟩ with
    | some v => some (out ++ v)
    | none => some out) = _
  unfold Buckets.bucket
  cases a.cells.lookup ⟨c.x + dx, c.y + dy, c.z + dz⟩ with
  | none => exact congrArg some (List.append_nil out).symm
  | some v => rfl

/-- So a query goes through the cells around its own. -/
theorem queryNeighbors_of_inside (a : SpatialIndexActor) (hc : (a.cfg.cellFor x y z).Inside) :
    a.queryNeighbors build x y z =
      some ((around (a.cfg.cellFor x y z)).flatMap a.cells.bucket) := by
  generalize hcenter : a.cfg.cellFor x y z = c at hc
  have hx : ∀ dz ∈ offsets, ∀ dy ∈ offsets, ∀ out,
      offsets.foldlM (fun out dx => a.visit build c dz dy dx out) out = some (out ++
        offsets.flatMap fun dx => a.cells.bucket ⟨c.x + dx, c.y + dy, c.z + dz⟩) :=
    fun dz hdz dy hdy out =>
      foldlM_append (fun dx hdx out => visit_of_inside a hc hdz hdy hdx out) out
  have hy : ∀ dz ∈ offsets, ∀ out, offsets.foldlM (fun out dy =>
      offsets.foldlM (fun out dx => a.visit build c dz dy dx out) out) out = some (out ++
        offsets.flatMap fun dy =>
          offsets.flatMap fun dx => a.cells.bucket ⟨c.x + dx, c.y + dy, c.z + dz⟩) :=
    fun dz hdz out => foldlM_append (fun dy hdy out => hx dz hdz dy hdy out) out
  have hz := foldlM_append (fun dz hdz out => hy dz hdz out) []
  unfold SpatialIndexActor.queryNeighbors
  simp only [hcenter]
  rw [hz]
  rw [List.nil_append, around, List.flatMap_assoc]
  refine congrArg some (congrArg (List.flatMap · offsets) (funext fun dz => ?_))
  rw [List.flatMap_assoc]
  refine congrArg (List.flatMap · offsets) (funext fun dy => ?_)
  rw [List.flatMap_map]

/-- At an end of the range it panics where overflows are checked. -/
theorem queryNeighbors_checked (a : SpatialIndexActor) (hc : ¬(a.cfg.cellFor x y z).Inside) :
    a.queryNeighbors .checked x y z = none := by
  have hvisit : ∀ dz dy dx, (¬FitsI32 ((a.cfg.cellFor x y z).x.toInt + dx.toInt) ∨
      ¬FitsI32 ((a.cfg.cellFor x y z).y.toInt + dy.toInt) ∨
      ¬FitsI32 ((a.cfg.cellFor x y z).z.toInt + dz.toInt)) →
      ∀ out, a.visit .checked (a.cfg.cellFor x y z) dz dy dx out = none := by
    intro dz dy dx h out
    unfold SpatialIndexActor.visit
    rcases h with h | h | h
    · rw [addI32_checked h]
      rfl
    · cases addI32 .checked (a.cfg.cellFor x y z).x dx with
      | none => rfl
      | some x' =>
        rw [addI32_checked h]
        rfl
    · cases addI32 .checked (a.cfg.cellFor x y z).x dx with
      | none => rfl
      | some x' =>
        cases addI32 .checked (a.cfg.cellFor x y z).y dy with
        | none => rfl
        | some y' =>
          rw [addI32_checked h]
          rfl
  have hzero : (0 : Int32) ∈ offsets := by decide
  unfold SpatialIndexActor.queryNeighbors
  by_cases hx : InsideI32 (a.cfg.cellFor x y z).x
  · by_cases hy : InsideI32 (a.cfg.cellFor x y z).y
    · obtain ⟨dz, hdz, hfit⟩ := exists_not_fits fun hz => hc ⟨hx, hy, hz⟩
      exact foldlM_eq_none hdz (fun out => foldlM_eq_none hzero (fun out =>
        foldlM_eq_none hzero (fun out => hvisit dz 0 0 (.inr (.inr hfit)) out) out) out) _
    · obtain ⟨dy, hdy, hfit⟩ := exists_not_fits hy
      exact foldlM_eq_none hzero (fun out => foldlM_eq_none hdy (fun out =>
        foldlM_eq_none hzero (fun out => hvisit 0 dy 0 (.inr (.inl hfit)) out) out) out) _
  · obtain ⟨dx, hdx, hfit⟩ := exists_not_fits hx
    exact foldlM_eq_none hzero (fun out => foldlM_eq_none hzero (fun out =>
      foldlM_eq_none hdx (fun out => hvisit 0 0 dx (.inl hfit) out) out) out) _

theorem whole_of_inside (h : Inv cfg s) (hc : (cfg.cellFor x y z).Inside) :
    Whole build s x y z := by
  rw [← h.cfg_eq] at hc
  have hids : ((around (s.actor.cfg.cellFor x y z)).flatMap s.actor.cells.bucket).Perm
      ((s.points.filter fun p =>
        Near (s.actor.cfg.cellFor x y z) (s.actor.cfg.cellOf p)).map Point3.id) := by
    have hbucket : s.actor.cells.bucket = fun k =>
        (s.points.filter fun p => s.actor.cfg.cellOf p = k).map Point3.id := by
      funext k
      rw [h.cells k, h.cfg_eq]
    rw [hbucket, ← List.map_flatMap]
    refine ((Buckets.flatMap_filter_perm s.actor.cfg.cellOf (nodup_around _) s.points).map _).trans
      (.of_eq ?_)
    simp only [mem_around hc]
  refine ⟨_, ?_, hids, fun p hp hx hy hz => ?_⟩
  · show (s.actor.queryNeighbors build x y z).map _ = _
    rw [queryNeighbors_of_inside _ hc]
    rfl
  · refine hids.mem_iff.2 (List.mem_map.2 ⟨p, List.mem_filter.2 ⟨hp, ?_⟩, rfl⟩)
    exact decide_eq_true (near_of_close hx hy hz)

end Runs

/-- After any messages, a query returns its neighbourhood in either build if and only if its cell is
not at an end of the range of `i32` along any axis. -/
theorem whole_iff (cfg : SpatialIndexConfig) (build : Build) (msgs : List SpatialMsg) (x y z : ℚ) :
    (∀ build', Whole build' ((machine build cfg).final (start cfg) msgs) x y z) ↔
      (cfg.cellFor x y z).Inside := by
  have hinv : Inv cfg ((machine build cfg).final (start cfg) msgs) := inv_final (inv_start cfg) msgs
  constructor
  · intro h
    by_contra hc
    obtain ⟨ids, hhandle, -⟩ := h .checked
    rw [← hinv.cfg_eq] at hc
    have hnone := queryNeighbors_checked _ hc
    simp [SpatialIndexActor.handle, hnone] at hhandle
  · exact fun hc build' => whole_of_inside hinv hc

/-- A point at `2 ^ 31`, and a query there. -/
theorem far_query_panics :
    ¬(∀ cfg build msgs x y z build',
        Whole build' ((machine build cfg).final (start cfg) msgs) x y z) ∧
      (machine .checked ⟨1⟩).answers (start ⟨1⟩)
          [.rebuild [⟨7, 2 ^ 31, 0, 0⟩], .queryNeighbors (2 ^ 31) 0 0] =
        [some (.rebuilt (.ok 1)), none] ∧
      -- without overflow checks a point at the other end is returned
      (machine .wrapping ⟨1⟩).answers (start ⟨1⟩)
          [.rebuild [⟨7, -2 ^ 31, 0, 0⟩], .queryNeighbors (2 ^ 31) 0 0] =
        [some (.rebuilt (.ok 1)), some (.neighbors [7])] := by
  refine ⟨fun h => ?_, by decide +kernel, by decide +kernel⟩
  obtain ⟨ids, hids, -⟩ := h ⟨1⟩ .checked [] (2 ^ 31) 0 0 .checked
  have hnone : (SpatialIndexActor.new ⟨1⟩).queryNeighbors .checked (2 ^ 31) 0 0 = none := by
    decide +kernel
  have hids : ((SpatialIndexActor.new ⟨1⟩).queryNeighbors .checked (2 ^ 31) 0 0).map _ = _ := hids
  rw [hnone] at hids
  cases hids

end Spatial

end Realtime

end AtomrAccel
