import AtomrAccel.Device.Error
import AtomrAccel.Lib.Loops
import AtomrAccel.Lib.Overflow
import Mathlib.Algebra.Order.Floor.Semiring
import Mathlib.Data.Rat.Floor

/-!
# `FluidSimulationActor`: densities carried along a velocity field

A step looks up, for every cell, where its fluid has come from and interpolates between the four
densities around that place, which is first clamped to the grid.  The arithmetic is that of the
rationals in place of `f32`, while sizes and indices are 64 bits wide; a panic is `none`.

* `props`, `sample`, `advect`, `step`, `handle`, `run`: the actor;
* `split`, `mix`: the cell and the weight a coordinate is taken apart into, and the interpolation;
* `sample_eq`, `step_eq`: on a grid of at least two by two cells a step does not panic, and what it
  assigns to each cell;
* `step_bounds`, `Obeys`: no density leaves the range of those before the step;
* `maximum_principle_iff`: so it is exactly for the grids whose size has not wrapped around, as then
  the fields are too short;
* `Still`, `still_iff`: a fluid at rest stays as it is except for the last row and column.
-/

namespace AtomrAccel

namespace Realtime

namespace Fluid

open Loops Overflow

/-- The size of the grid, and how fast velocities decay. -/
structure FluidConfig where
  width : ℕ
  height : ℕ
  viscosity : ℚ
  deriving DecidableEq

/-- The messages, without their reply channels. -/
inductive FluidMsg
  | addDensity (x y : ℕ) (amount : ℚ)
  | addVelocity (x y : ℕ) (vx vy : ℚ)
  | step (dt : ℚ)
  | snapshotDensity
  deriving DecidableEq

/-- What is sent back for a message. -/
inductive FluidReply
  | added
  | stepped (r : Except GpuError Unit)
  | density (d : List ℚ)
  deriving DecidableEq

/-- The actor; its fields hold one row of the grid after the other. -/
structure FluidSimulationActor where
  cfg : FluidConfig
  density : List ℚ
  vx : List ℚ
  vy : List ℚ
  deriving DecidableEq

/-- `clamp` panics when the bounds are the wrong way round. -/
def clamp (x lo hi : ℚ) : Option ℚ :=
  if hi < lo then none else some (if x < lo then lo else if hi < x then hi else x)

/-- `vec![0.0; n]` panics when its `4 * n` bytes are more than `isize::MAX`. -/
def zeros (n : ℕ) : Option (List ℚ) := if 4 * n < 2 ^ 63 then some (List.replicate n 0) else none

namespace FluidSimulationActor

/-- What the factory of `props` makes. -/
def props (build : Build) (cfg : FluidConfig) : Option FluidSimulationActor := do
  let n ← usize build (cfg.width * cfg.height)
  let field ← zeros n
  return { cfg := cfg, density := field, vx := field, vy := field }

variable (a : FluidSimulationActor)

/-- The place of a cell in a field. -/
def index (x y : ℕ) : ℕ := y * a.cfg.width + x

variable (build : Build)

/-- `self.idx(x, y)`. -/
def idx (x y : ℕ) : Option ℕ := usize build (a.index x y)

/-- `field[self.idx(x, y)]`. -/
def read (field : List ℚ) (x y : ℕ) : Option ℚ := do
  let i ← a.idx build x y
  field[i]?

/-- The interpolation at a place, clamped into the grid. -/
def sample (field : List ℚ) (x y : ℚ) : Option ℚ := do
  let w : ℚ := a.cfg.width
  let h : ℚ := a.cfg.height
  let cx ← clamp x 0 (w - 1001 / 1000)
  let cy ← clamp y 0 (h - 1001 / 1000)
  let x0 := ⌊cx⌋.toNat
  let y0 := ⌊cy⌋.toNat
  let x1 := x0 + 1
  let y1 := y0 + 1
  let fx := cx - x0
  let fy := cy - y0
  let s00 ← a.read build field x0 y0
  let s10 ← a.read build field x1 y0
  let s01 ← a.read build field x0 y1
  let s11 ← a.read build field x1 y1
  let s0 := s00 * (1 - fx) + s10 * fx
  let s1 := s01 * (1 - fx) + s11 * fx
  return s0 * (1 - fy) + s1 * fy

/-- The index of the cell at `x` and `y`, and what a step assigns to it. -/
def advect (dt : ℚ) (x y : ℕ) : Option (ℕ × ℚ) := do
  let i ← a.idx build x y
  let vx ← a.vx[i]?
  let vy ← a.vy[i]?
  let sx := x - vx * dt
  let sy := y - vy * dt
  let d ← a.sample build a.density sx sy
  return (i, d)

/-- Each density is fetched from where its cell's velocity points back to. -/
def step (dt : ℚ) : Option FluidSimulationActor := do
  let newDensity ← (List.range a.cfg.height).foldlM (fun out y =>
    (List.range a.cfg.width).foldlM (fun out x =>
      (a.advect build dt x y).bind fun p => store out p.1 p.2) out) a.density
  let decay := max (1 - a.cfg.viscosity * dt) 0
  return { a with
    density := newDensity
    vx := a.vx.map (· * decay)
    vy := a.vy.map (· * decay) }

/-- `field[i] += amount`. -/
def addAt (field : List ℚ) (i : ℕ) (amount : ℚ) : Option (List ℚ) := do
  let v ← field[i]?
  store field i (v + amount)

/-- `none` when the actor panics. -/
def handle : FluidMsg → Option (FluidSimulationActor × FluidReply)
  | .addDensity x y amount =>
    if x < a.cfg.width ∧ y < a.cfg.height then do
      let i ← a.idx build x y
      let density ← addAt a.density i amount
      return ({ a with density := density }, .added)
    else some (a, .added)
  | .addVelocity x y vx vy =>
    if x < a.cfg.width ∧ y < a.cfg.height then do
      let i ← a.idx build x y
      let vx ← addAt a.vx i vx
      let vy ← addAt a.vy i vy
      return ({ a with vx := vx, vy := vy }, .added)
    else some (a, .added)
  | .step dt => (a.step build dt).map fun a' => (a', .stepped (.ok ()))
  | .snapshotDensity => some (a, .density a.density)

/-- The actor after some messages, if none of them panics. -/
def run (msgs : List FluidMsg) : Option FluidSimulationActor :=
  msgs.foldlM (fun a msg => (a.handle build msg).map Prod.fst) a

/-- After any messages, none of which panics, a step does not panic either and keeps the densities
between any bounds they had. -/
def Obeys : Prop :=
  ∀ msgs, ∃ a', a.run build msgs = some a' ∧ ∀ dt, ∃ a'',
    a'.handle build (.step dt) = some (a'', .stepped (.ok ())) ∧
    (∀ lo, (∀ d ∈ a'.density, lo ≤ d) → ∀ d ∈ a''.density, lo ≤ d) ∧
    ∀ hi, (∀ d ∈ a'.density, d ≤ hi) → ∀ d ∈ a''.density, d ≤ hi

end FluidSimulationActor

/-! ### Clamping and interpolating -/

/-- The cell a coordinate falls into, among `n`, and its place in the cell. -/
def split (n : ℕ) (x : ℚ) : ℕ × ℚ :=
  let c := max 0 (min x (n - 1001 / 1000))
  (⌊c⌋.toNat, c - ⌊c⌋.toNat)

/-- Between `s` and `t`, at `f`. -/
def mix (s t f : ℚ) : ℚ := s * (1 - f) + t * f

section Interpolation

variable {n : ℕ} {x s t f lo hi : ℚ}

theorem clamp_eq (hn : 2 ≤ n) :
    clamp x 0 (n - 1001 / 1000) = some (max 0 (min x (n - 1001 / 1000))) := by
  have hn' : (2 : ℚ) ≤ n := by exact_mod_cast hn
  have hpos : ¬(n - 1001 / 1000 : ℚ) < 0 := by linarith
  rw [clamp, if_neg hpos]
  split_ifs with hx hx'
  · rw [max_eq_left ((min_le_left _ _).trans hx.le)]
  · rw [min_eq_right hx'.le, max_eq_right (by linarith)]
  · rw [min_eq_left (not_lt.1 hx'), max_eq_right (not_lt.1 hx)]

theorem clamp_eq_none (hn : n < 2) : clamp x 0 (n - 1001 / 1000) = none := by
  have hn' : (n : ℚ) ≤ 1 := by exact_mod_cast Nat.le_of_lt_succ hn
  exact if_pos (by linarith)

/-- The cell has a neighbour, and the place in it is a weight. -/
theorem split_spec (hn : 2 ≤ n) (x : ℚ) :
    (split n x).1 + 1 < n ∧ 0 ≤ (split n x).2 ∧ (split n x).2 < 1 := by
  have hn' : (2 : ℚ) ≤ n := by exact_mod_cast hn
  have h0 : (0 : ℚ) ≤ max 0 (min x (n - 1001 / 1000)) := le_max_left _ _
  have hle : max 0 (min x (n - 1001 / 1000)) ≤ (n : ℚ) - 1001 / 1000 :=
    max_le (by linarith) (min_le_right _ _)
  have hfloor : ((⌊max 0 (min x (n - 1001 / 1000))⌋.toNat : ℕ) : ℚ) =
      ⌊max 0 (min x (n - 1001 / 1000))⌋ := by
    have := Int.toNat_of_nonneg (Int.floor_nonneg.2 h0)
    exact_mod_cast this
  have h1 := Int.floor_le (max 0 (min x ((n : ℚ) - 1001 / 1000)))
  have h2 := Int.lt_floor_add_one (max 0 (min x ((n : ℚ) - 1001 / 1000)))
  simp only [split]
  refine ⟨?_, by linarith, by linarith⟩
  have hlt : ((⌊max 0 (min x (n - 1001 / 1000))⌋.toNat : ℕ) : ℚ) + 1 < n := by linarith
  exact_mod_cast hlt

/-- A cell that is not the last one is found as it is. -/
theorem split_of_lt {i : ℕ} (hi : i + 1 < n) : split n i = (i, 0) := by
  have hn : ((i : ℚ) + 2) ≤ n := by exact_mod_cast hi
  have hc : max 0 (min (i : ℚ) (n - 1001 / 1000)) = i := by
    rw [min_eq_left (by linarith), max_eq_right (by positivity)]
  simp only [split, hc, Int.floor_natCast, Int.toNat_natCast, sub_self]

/-- The last one is mistaken for a place near the end of the one before. -/
theorem split_last (hn : 2 ≤ n) : split n (n - 1 : ℕ) = (n - 2, 999 / 1000) := by
  obtain ⟨m, rfl⟩ := Nat.exists_eq_add_of_le hn
  have hc : max 0 (min (((2 + m - 1 : ℕ)) : ℚ) (((2 + m : ℕ) : ℚ) - 1001 / 1000)) =
      (m : ℚ) + 999 / 1000 := by
    rw [show 2 + m - 1 = m + 1 by omega, min_eq_right (by push_cast; linarith),
      max_eq_right (by push_cast; linarith [(Nat.cast_nonneg m : (0 : ℚ) ≤ m)])]
    push_cast
    ring
  have hfloor : ⌊(m : ℚ) + 999 / 1000⌋ = m := by
    rw [Int.floor_eq_iff]
    constructor <;> push_cast <;> linarith
  simp only [split, hc, hfloor, Int.toNat_natCast]
  refine Prod.ext (by simp) ?_
  show (m : ℚ) + 999 / 1000 - m = 999 / 1000
  ring

theorem mix_zero (s t : ℚ) : mix s t 0 = s := by simp [mix]

theorem le_mix (hf : 0 ≤ f) (hf' : f ≤ 1) (hs : lo ≤ s) (ht : lo ≤ t) : lo ≤ mix s t f := by
  unfold mix
  nlinarith [mul_nonneg (sub_nonneg.2 hs) (sub_nonneg.2 hf'), mul_nonneg (sub_nonneg.2 ht) hf]

theorem mix_le (hf : 0 ≤ f) (hf' : f ≤ 1) (hs : s ≤ hi) (ht : t ≤ hi) : mix s t f ≤ hi := by
  unfold mix
  nlinarith [mul_nonneg (sub_nonneg.2 hs) (sub_nonneg.2 hf'), mul_nonneg (sub_nonneg.2 ht) hf]

theorem mix_self (s f : ℚ) : mix s s f = s := by
  unfold mix
  ring

/-- A mixture is its second part only when the parts agree. -/
theorem mix_eq_right_iff (hf : f ≠ 1) : mix s t f = t ↔ s = t := by
  have h : mix s t f - t = (s - t) * (1 - f) := by
    unfold mix
    ring
  rw [← sub_eq_zero, h, mul_eq_zero, sub_eq_zero, sub_eq_zero, or_iff_left (Ne.symm hf)]

end Interpolation

/-! ### A step -/

namespace FluidSimulationActor

/-- The fields are as large as the grid, whose size fits a `usize` as every length does. -/
structure Sized (a : FluidSimulationActor) : Prop where
  fits : a.cfg.width * a.cfg.height < 2 ^ 64
  density : a.density.length = a.cfg.width * a.cfg.height
  vx : a.vx.length = a.cfg.width * a.cfg.height
  vy : a.vy.length = a.cfg.width * a.cfg.height

/-- The entry of a field for a cell of the grid. -/
def cell (a : FluidSimulationActor) (field : List ℚ) (x y : ℕ) : ℚ := field.getD (a.index x y) 0

/-- The interpolation between the four cells around a place. -/
def bilinear (a : FluidSimulationActor) (field : List ℚ) (x y : ℚ) : ℚ :=
  let (x0, fx) := split a.cfg.width x
  let (y0, fy) := split a.cfg.height y
  mix (mix (a.cell field x0 y0) (a.cell field (x0 + 1) y0) fx)
    (mix (a.cell field x0 (y0 + 1)) (a.cell field (x0 + 1) (y0 + 1)) fx) fy

section Step

variable {build : Build} {a a' : FluidSimulationActor} {field : List ℚ} {dt : ℚ}

/-- No index of a cell overflows. -/
theorem idx_eq {x y : ℕ} (ha : a.Sized) (hx : x < a.cfg.width) (hy : y < a.cfg.height) :
    a.idx build x y = some (a.index x y) := usize_of_lt ((index_lt hx hy).trans ha.fits)

theorem getElem?_cell {x y : ℕ} (hfield : field.length = a.cfg.width * a.cfg.height)
    (hx : x < a.cfg.width) (hy : y < a.cfg.height) :
    field[a.index x y]? = some (a.cell field x y) := by
  have hi : a.index x y < field.length := hfield ▸ index_lt hx hy
  rw [cell, List.getD_eq_getElem?_getD, List.getElem?_eq_getElem hi, Option.getD_some]

theorem read_eq (build : Build) {x y : ℕ} (ha : a.Sized)
    (hfield : field.length = a.cfg.width * a.cfg.height) (hx : x < a.cfg.width)
    (hy : y < a.cfg.height) : a.read build field x y = some (a.cell field x y) := by
  rw [read, idx_eq ha hx hy]
  exact getElem?_cell hfield hx hy

theorem cell_mem {x y : ℕ} (hfield : field.length = a.cfg.width * a.cfg.height)
    (hx : x < a.cfg.width) (hy : y < a.cfg.height) : a.cell field x y ∈ field :=
  List.mem_of_getElem? (getElem?_cell hfield hx hy)

/-- No index is out of range, wherever the place is. -/
theorem sample_eq (ha : a.Sized) (hw : 2 ≤ a.cfg.width) (hh : 2 ≤ a.cfg.height)
    (hfield : field.length = a.cfg.width * a.cfg.height) (x y : ℚ) :
    a.sample build field x y = some (a.bilinear field x y) := by
  obtain ⟨hx1, -, -⟩ := split_spec hw x
  obtain ⟨hy1, -, -⟩ := split_spec hh y
  have hx0 : (split a.cfg.width x).1 < a.cfg.width := (Nat.lt_succ_self _).trans hx1
  have hy0 : (split a.cfg.height y).1 < a.cfg.height := (Nat.lt_succ_self _).trans hy1
  have h00 := read_eq build ha hfield hx0 hy0
  have h10 := read_eq build ha hfield hx1 hy0
  have h01 := read_eq build ha hfield hx0 hy1
  have h11 := read_eq build ha hfield hx1 hy1
  simp only [split] at h00 h10 h01 h11
  simp only [sample, clamp_eq hw, clamp_eq hh, Option.bind_eq_bind, Option.bind_some, h00, h10,
    h01, h11]
  rfl

/-- What every entry of a field has and mixtures keep, its interpolation has too. -/
theorem bilinear_of_mix {P : ℚ → Prop}
    (hmix : ∀ {s t f : ℚ}, 0 ≤ f → f ≤ 1 → P s → P t → P (mix s t f)) (hw : 2 ≤ a.cfg.width)
    (hh : 2 ≤ a.cfg.height) (hfield : field.length = a.cfg.width * a.cfg.height)
    (hP : ∀ d ∈ field, P d) (x y : ℚ) : P (a.bilinear field x y) := by
  obtain ⟨hx1, hfx, hfx'⟩ := split_spec hw x
  obtain ⟨hy1, hfy, hfy'⟩ := split_spec hh y
  have hx0 := (Nat.lt_succ_self _).trans hx1
  have hy0 := (Nat.lt_succ_self _).trans hy1
  exact hmix hfy hfy'.le
    (hmix hfx hfx'.le (hP _ (cell_mem hfield hx0 hy0)) (hP _ (cell_mem hfield hx1 hy0)))
    (hmix hfx hfx'.le (hP _ (cell_mem hfield hx0 hy1)) (hP _ (cell_mem hfield hx1 hy1)))

theorem advect_eq (dt : ℚ) (ha : a.Sized) (hw : 2 ≤ a.cfg.width) (hh : 2 ≤ a.cfg.height)
    {x y : ℕ} (hx : x < a.cfg.width) (hy : y < a.cfg.height) :
    a.advect build dt x y = some (a.index x y,
      a.bilinear a.density (x - a.cell a.vx x y * dt) (y - a.cell a.vy x y * dt)) := by
  simp only [advect, idx_eq ha hx hy, getElem?_cell ha.vx hx hy, getElem?_cell ha.vy hx hy,
    Option.bind_eq_bind, Option.bind_some, sample_eq ha hw hh ha.density]
  rfl

/-- The densities after a step are what `advect` says, if it says so for every cell. -/
theorem step_of_advect (ha : a.Sized) {g : ℕ → ℕ → ℚ}
    (hg : ∀ x < a.cfg.width, ∀ y < a.cfg.height,
      a.advect build dt x y = some (a.index x y, g x y)) :
    ∃ a', a.step build dt = some a' ∧ a'.Sized ∧ a'.cfg = a.cfg ∧
      ∀ x < a.cfg.width, ∀ y < a.cfg.height, a'.density[a.index x y]? = some (g x y) := by
  obtain ⟨out, hout, hlen, hdone⟩ := foldlM_store ha.density hg
  let decay := max (1 - a.cfg.viscosity * dt) 0
  refine ⟨⟨a.cfg, out, a.vx.map (· * decay), a.vy.map (· * decay)⟩, ?_, ⟨ha.fits, ?_, ?_, ?_⟩, rfl,
    hdone⟩
  · show Option.bind ((List.range a.cfg.height).foldlM _ a.density) _ = _
    rw [hout]
    rfl
  · exact hlen
  · exact (List.length_map _).trans ha.vx
  · exact (List.length_map _).trans ha.vy

/-- A density after a step is one of those assigned. -/
theorem exists_of_mem (ha : a'.Sized) (hcfg : a'.cfg = a.cfg) {g : ℕ → ℕ → ℚ}
    (hg : ∀ x < a.cfg.width, ∀ y < a.cfg.height, a'.density[a.index x y]? = some (g x y)) {d : ℚ}
    (hd : d ∈ a'.density) : ∃ x y, d = g x y := by
  obtain ⟨i, hi⟩ := List.mem_iff_getElem?.1 hd
  have hlt : i < a.cfg.width * a.cfg.height := by
    rw [← hcfg, ← ha.density]
    exact (List.getElem?_eq_some_iff.1 hi).1
  obtain ⟨x, hx, y, hy, rfl⟩ := exists_index hlt
  exact ⟨x, y, Option.some.inj (hi.symm.trans (hg x hx y hy))⟩

/-- On a grid of at least two by two a step does not panic, and keeps within any bounds. -/
theorem step_bounds (build : Build) (ha : a.Sized) (hw : 2 ≤ a.cfg.width)
    (hh : 2 ≤ a.cfg.height) (dt : ℚ) :
    ∃ a', a.step build dt = some a' ∧ a'.Sized ∧ a'.cfg = a.cfg ∧
      (∀ lo, (∀ d ∈ a.density, lo ≤ d) → ∀ d ∈ a'.density, lo ≤ d) ∧
      ∀ hi, (∀ d ∈ a.density, d ≤ hi) → ∀ d ∈ a'.density, d ≤ hi := by
  obtain ⟨a', hstep, hsized, hcfg, hdone⟩ :=
    step_of_advect ha fun x hx y hy => advect_eq dt ha hw hh hx hy
  refine ⟨a', hstep, hsized, hcfg, fun lo hlo d hd => ?_, fun hi hhi d hd => ?_⟩
  · obtain ⟨x, y, rfl⟩ := exists_of_mem hsized hcfg hdone hd
    exact bilinear_of_mix (P := (lo ≤ ·)) le_mix hw hh ha.density hlo _ _
  · obtain ⟨x, y, rfl⟩ := exists_of_mem hsized hcfg hdone hd
    exact bilinear_of_mix (P := (· ≤ hi)) mix_le hw hh ha.density hhi _ _

end Step

/-! ### Runs -/

section Runs

variable {build : Build} {a : FluidSimulationActor} {cfg : FluidConfig}

/-- The factory makes fields of the size it computes, if they can be allocated. -/
theorem props_eq_some_iff : props build cfg = some a ↔
    (build = .checked → cfg.width * cfg.height < 2 ^ 64) ∧
      4 * (cfg.width * cfg.height % 2 ^ 64) < 2 ^ 63 ∧
      a = ⟨cfg, List.replicate (cfg.width * cfg.height % 2 ^ 64) 0,
        List.replicate (cfg.width * cfg.height % 2 ^ 64) 0,
        List.replicate (cfg.width * cfg.height % 2 ^ 64) 0⟩ := by
  simp only [props, zeros, Option.bind_eq_bind, Option.bind_eq_some_iff, usize_eq_some_iff,
    Option.ite_none_right_eq_some, Option.pure_def, Option.some.injEq]
  constructor
  · rintro ⟨n, ⟨hfits, rfl⟩, field, ⟨hmax, rfl⟩, rfl⟩
    exact ⟨hfits, hmax, rfl⟩
  · rintro ⟨hfits, hmax, rfl⟩
    exact ⟨_, ⟨hfits, rfl⟩, _, ⟨hmax, rfl⟩, rfl⟩

theorem sized_of_props (h : props build cfg = some a) (hfits : cfg.width * cfg.height < 2 ^ 64) :
    a.Sized := by
  obtain ⟨-, -, rfl⟩ := props_eq_some_iff.1 h
  rw [Nat.mod_eq_of_lt hfits]
  exact ⟨hfits, List.length_replicate, List.length_replicate, List.length_replicate⟩

theorem addAt_of_lt {field : List ℚ} {i : ℕ} (hi : i < field.length) (amount : ℚ) :
    ∃ field', addAt field i amount = some field' ∧ field'.length = field.length := by
  refine ⟨field.set i (field[i] + amount), ?_, List.length_set⟩
  simp only [addAt, List.getElem?_eq_getElem hi, Option.bind_eq_bind, Option.bind_some]
  exact store_of_lt hi

/-- No message panics, unless a step does. -/
theorem handle_of_step (ha : a.Sized) {msg : FluidMsg}
    (hs : ∀ dt, msg = .step dt → ∃ a', a.step build dt = some a' ∧ a'.Sized ∧ a'.cfg = a.cfg) :
    ∃ a' reply, a.handle build msg = some (a', reply) ∧ a'.Sized ∧ a'.cfg = a.cfg := by
  cases msg with
  | addDensity x y amount =>
    by_cases hin : x < a.cfg.width ∧ y < a.cfg.height
    · have hi : a.index x y < a.density.length := ha.density ▸ index_lt hin.1 hin.2
      obtain ⟨field, hfield, hlen⟩ := addAt_of_lt hi amount
      refine ⟨{ a with density := field }, .added, ?_,
        ⟨ha.fits, hlen.trans ha.density, ha.vx, ha.vy⟩, rfl⟩
      simp only [handle, if_pos hin, idx_eq ha hin.1 hin.2, hfield, Option.bind_eq_bind,
        Option.bind_some]
      rfl
    · exact ⟨a, .added, if_neg hin, ha, rfl⟩
  | addVelocity x y vx vy =>
    by_cases hin : x < a.cfg.width ∧ y < a.cfg.height
    · have hix : a.index x y < a.vx.length := ha.vx ▸ index_lt hin.1 hin.2
      have hiy : a.index x y < a.vy.length := ha.vy ▸ index_lt hin.1 hin.2
      obtain ⟨fx, hfx, hlenx⟩ := addAt_of_lt hix vx
      obtain ⟨fy, hfy, hleny⟩ := addAt_of_lt hiy vy
      refine ⟨{ a with vx := fx, vy := fy }, .added, ?_,
        ⟨ha.fits, ha.density, hlenx.trans ha.vx, hleny.trans ha.vy⟩, rfl⟩
      simp only [handle, if_pos hin, idx_eq ha hin.1 hin.2, hfx, hfy, Option.bind_eq_bind,
        Option.bind_some]
      rfl
    · exact ⟨a, .added, if_neg hin, ha, rfl⟩
  | step dt =>
    obtain ⟨a', hstep, hsized, hcfg⟩ := hs dt rfl
    exact ⟨a', .stepped (.ok ()), by simp only [handle, hstep, Option.map_some], hsized, hcfg⟩
  | snapshotDensity => exact ⟨a, .density a.density, rfl, ha, rfl⟩

theorem handle_sized (ha : a.Sized) (hw : 2 ≤ a.cfg.width) (hh : 2 ≤ a.cfg.height)
    (msg : FluidMsg) :
    ∃ a' reply, a.handle build msg = some (a', reply) ∧ a'.Sized ∧ a'.cfg = a.cfg := by
  refine handle_of_step ha fun dt _ => ?_
  obtain ⟨a', hstep, hsized, hcfg, -, -⟩ := step_bounds build ha hw hh dt
  exact ⟨a', hstep, hsized, hcfg⟩

theorem run_sized (ha : a.Sized) (hw : 2 ≤ a.cfg.width) (hh : 2 ≤ a.cfg.height)
    (msgs : List FluidMsg) : ∃ a', a.run build msgs = some a' ∧ a'.Sized ∧ a'.cfg = a.cfg :=
  foldlM_inv (P := fun a' : FluidSimulationActor => a'.Sized ∧ a'.cfg = a.cfg) ⟨ha, rfl⟩ (by
    rintro msg - b ⟨hb, hcfg⟩
    obtain ⟨b', reply, hhandle, hb', hcfg'⟩ :=
      handle_sized hb (hcfg ▸ hw) (hcfg ▸ hh) msg
    exact ⟨b', by rw [hhandle]; rfl, hb', hcfg'.trans hcfg⟩)

theorem Sized.obeys (ha : a.Sized) (hw : 2 ≤ a.cfg.width) (hh : 2 ≤ a.cfg.height) :
    a.Obeys build := by
  intro msgs
  obtain ⟨a', hrun, ha', hcfg⟩ := run_sized ha hw hh msgs
  refine ⟨a', hrun, fun dt => ?_⟩
  obtain ⟨a'', hstep, -, -, hbounds⟩ := step_bounds build ha' (hcfg ▸ hw) (hcfg ▸ hh) dt
  exact ⟨a'', by simp only [handle, hstep, Option.map_some], hbounds⟩

/-- The first cell that a field is too short for is out of range. -/
theorem handle_eq_none (build : Build) {x y : ℕ} (hx : x < a.cfg.width) (hy : y < a.cfg.height)
    (hindex : a.index x y = a.density.length) (hfits : a.density.length < 2 ^ 64) (amount : ℚ) :
    a.handle build (.addDensity x y amount) = none := by
  have hidx : a.idx build x y = some a.density.length := hindex ▸ usize_of_lt (hindex ▸ hfits)
  simp only [handle, if_pos (And.intro hx hy), hidx, addAt, Option.bind_eq_bind, Option.bind_some,
    List.getElem?_eq_none le_rfl, Option.bind_none]

/-- There is such a cell when the size of the grid has wrapped around. -/
theorem not_obeys_of_wrapped (h : props build cfg = some a)
    (hwrapped : 2 ^ 64 ≤ cfg.width * cfg.height) : ¬a.Obeys build := by
  have hlt : cfg.width * cfg.height % 2 ^ 64 < 2 ^ 64 := Nat.mod_lt _ (by decide)
  obtain ⟨x, hx, y, hy, hi⟩ := exists_index (hlt.trans_le hwrapped)
  obtain ⟨-, -, ha⟩ := props_eq_some_iff.1 h
  have hcfg : a.cfg = cfg := congrArg FluidSimulationActor.cfg ha
  have hlen : a.density.length = cfg.width * cfg.height % 2 ^ 64 := by
    rw [ha]
    exact List.length_replicate
  have hindex : a.index x y = a.density.length := by rw [hlen, hi, index, hcfg]
  have hnone := handle_eq_none build (hcfg ▸ hx) (hcfg ▸ hy) hindex (hlen ▸ hlt) 1
  intro hobeys
  obtain ⟨a', hrun, -⟩ := hobeys [.addDensity x y 1]
  rw [run, List.foldlM_cons, hnone] at hrun
  cases hrun

end Runs

end FluidSimulationActor

open FluidSimulationActor

/-- On a grid of at least two by two cells the actor is made, no message panics and a step after any
messages keeps the densities within the range they were in, exactly when the fields can be allocated
in their full size; of the actors that are made, exactly those behave so whose size has not wrapped
around. -/
theorem maximum_principle_iff (build : Build) (cfg : FluidConfig) (hw : 2 ≤ cfg.width)
    (hh : 2 ≤ cfg.height) :
    ((∃ a, props build cfg = some a ∧ a.Obeys build) ↔ 4 * (cfg.width * cfg.height) < 2 ^ 63) ∧
      ∀ a, props build cfg = some a → (a.Obeys build ↔ cfg.width * cfg.height < 2 ^ 64) := by
  have hmade : ∀ a, props build cfg = some a →
      (a.Obeys build ↔ cfg.width * cfg.height < 2 ^ 64) := by
    intro a ha
    constructor
    · exact fun hobeys => not_le.1 fun hwrapped => not_obeys_of_wrapped ha hwrapped hobeys
    · intro hfits
      obtain ⟨-, -, rfl⟩ := props_eq_some_iff.1 ha
      exact (sized_of_props ha hfits).obeys hw hh
  refine ⟨⟨?_, fun hmax => ?_⟩, hmade⟩
  · rintro ⟨a, ha, hobeys⟩
    have hfits := (hmade a ha).1 hobeys
    obtain ⟨-, hmax, -⟩ := props_eq_some_iff.1 ha
    rwa [Nat.mod_eq_of_lt hfits] at hmax
  · have hfits : cfg.width * cfg.height < 2 ^ 64 := by omega
    have ha : props build cfg = some _ := props_eq_some_iff.2
      ⟨fun _ => hfits, (Nat.mod_eq_of_lt hfits).symm ▸ hmax, rfl⟩
    exact ⟨_, ha, (hmade _ ha).2 hfits⟩

theorem maximum_principle_two_by_two :
    ((∃ a, props .wrapping ⟨2, 2, 0⟩ = some a ∧ a.Obeys .wrapping) ↔ 4 * (2 * 2) < 2 ^ 63) ∧
      ∀ a, props .wrapping ⟨2, 2, 0⟩ = some a → (a.Obeys .wrapping ↔ 2 * 2 < 2 ^ 64) :=
  maximum_principle_iff .wrapping ⟨2, 2, 0⟩ (by decide) (by decide)

/-- The size of this grid wraps around to zero, and its first cell is out of range; a build that
checks does not make the actor. -/
theorem wrapped_grid_panics :
    (∃ a, props .wrapping ⟨2 ^ 32, 2 ^ 32, 0⟩ = some a ∧
      a.handle .wrapping (.addDensity 0 0 1) = none ∧ ¬a.Obeys .wrapping) ∧
    props .checked ⟨2 ^ 32, 2 ^ 32, 0⟩ = none := by
  have hmade : props .wrapping ⟨2 ^ 32, 2 ^ 32, 0⟩ = some ⟨⟨2 ^ 32, 2 ^ 32, 0⟩, [], [], []⟩ := rfl
  refine ⟨⟨_, hmade, rfl, fun hobeys => ?_⟩, rfl⟩
  obtain ⟨a', hrun, -⟩ := hobeys [.addDensity 0 0 1]
  cases hrun

/-! ### A fluid at rest -/

namespace FluidSimulationActor

/-- All velocities are zero. -/
structure AtRest (a : FluidSimulationActor) : Prop where
  vx : ∀ v ∈ a.vx, v = 0
  vy : ∀ v ∈ a.vy, v = 0

/-- A step completes and leaves every density as it was. -/
def Still (a : FluidSimulationActor) (build : Build) (dt : ℚ) : Prop :=
  ∃ a', a.handle build (.step dt) = some (a', .stepped (.ok ())) ∧ a'.density = a.density

/-- In each row the last two columns agree, and in each column the last two rows. -/
structure FlatBorder (a : FluidSimulationActor) : Prop where
  columns : ∀ y < a.cfg.height,
    a.cell a.density (a.cfg.width - 2) y = a.cell a.density (a.cfg.width - 1) y
  rows : ∀ x < a.cfg.width,
    a.cell a.density x (a.cfg.height - 2) = a.cell a.density x (a.cfg.height - 1)

section Rest

variable {build : Build} {a : FluidSimulationActor} {dt : ℚ} {x y : ℕ}

/-- The rows are interpolated to this, at an integer place. -/
def column (a : FluidSimulationActor) (x y : ℕ) : ℚ :=
  if x + 1 < a.cfg.width then a.cell a.density x y
  else mix (a.cell a.density (a.cfg.width - 2) y) (a.cell a.density (a.cfg.width - 1) y)
    (999 / 1000)

theorem mix_split_width (hw : 2 ≤ a.cfg.width) (hx : x < a.cfg.width) (y : ℕ) :
    mix (a.cell a.density (split a.cfg.width x).1 y)
      (a.cell a.density ((split a.cfg.width x).1 + 1) y) (split a.cfg.width x).2 =
      a.column x y := by
  by_cases hx' : x + 1 < a.cfg.width
  · rw [column, if_pos hx', split_of_lt hx', mix_zero]
  · obtain rfl : x = a.cfg.width - 1 := by omega
    rw [column, if_neg hx', split_last hw, show a.cfg.width - 2 + 1 = a.cfg.width - 1 by omega]

theorem bilinear_of_lt (hw : 2 ≤ a.cfg.width) (hx : x < a.cfg.width)
    (hy : y + 1 < a.cfg.height) : a.bilinear a.density x y = a.column x y := by
  unfold bilinear
  simp only [split_of_lt hy, mix_zero]
  exact mix_split_width hw hx y

theorem bilinear_last (hw : 2 ≤ a.cfg.width) (hh : 2 ≤ a.cfg.height) (hx : x < a.cfg.width) :
    a.bilinear a.density x (a.cfg.height - 1 : ℕ) =
      mix (a.column x (a.cfg.height - 2)) (a.column x (a.cfg.height - 1)) (999 / 1000) := by
  unfold bilinear
  simp only [split_last hh, mix_split_width hw hx,
    show a.cfg.height - 2 + 1 = a.cfg.height - 1 by omega]

/-- The interpolation gives back every density exactly when the border is flat. -/
theorem bilinear_eq_iff (hw : 2 ≤ a.cfg.width) (hh : 2 ≤ a.cfg.height) :
    (∀ x < a.cfg.width, ∀ y < a.cfg.height,
      a.bilinear a.density x y = a.cell a.density x y) ↔ a.FlatBorder := by
  have hne : (999 / 1000 : ℚ) ≠ 1 := by norm_num
  have hlastx : ¬a.cfg.width - 1 + 1 < a.cfg.width := by omega
  constructor
  · intro h
    have hcol : ∀ y, y + 1 < a.cfg.height →
        a.cell a.density (a.cfg.width - 2) y = a.cell a.density (a.cfg.width - 1) y := by
      intro y hy
      have hlast := h (a.cfg.width - 1) (by omega) y (by omega)
      rwa [bilinear_of_lt hw (by omega) hy, column, if_neg hlastx, mix_eq_right_iff hne] at hlast
    have hrow : ∀ x, x + 1 < a.cfg.width →
        a.cell a.density x (a.cfg.height - 2) = a.cell a.density x (a.cfg.height - 1) := by
      intro x hx
      have hlast := h x (by omega) (a.cfg.height - 1) (by omega)
      rwa [bilinear_last hw hh (by omega), column, column, if_pos hx, if_pos hx,
        mix_eq_right_iff hne] at hlast
    -- in the corner three of the four densities agree already
    have hc := hcol (a.cfg.height - 2) (by omega)
    have hr := hrow (a.cfg.width - 2) (by omega)
    have hcorner : a.cell a.density (a.cfg.width - 2) (a.cfg.height - 2) =
        a.cell a.density (a.cfg.width - 1) (a.cfg.height - 1) := by
      have hlast := h (a.cfg.width - 1) (by omega) (a.cfg.height - 1) (by omega)
      rw [bilinear_last hw hh (by omega), column, column, if_neg hlastx, if_neg hlastx, ← hc, ← hr,
        mix_self] at hlast
      unfold mix at hlast
      linarith
    refine ⟨fun y hy => ?_, fun x hx => ?_⟩
    · by_cases hy' : y + 1 < a.cfg.height
      · exact hcol y hy'
      · obtain rfl : y = a.cfg.height - 1 := by omega
        rw [← hr, hcorner]
    · by_cases hx' : x + 1 < a.cfg.width
      · exact hrow x hx'
      · obtain rfl : x = a.cfg.width - 1 := by omega
        rw [← hc, hcorner]
  · rintro ⟨hcol, hrow⟩ x hx y hy
    have hcolumn : ∀ y < a.cfg.height, a.column x y = a.cell a.density x y := by
      intro y hy
      unfold column
      split_ifs with hx'
      · rfl
      · obtain rfl : x = a.cfg.width - 1 := by omega
        rw [hcol y hy, mix_self]
    by_cases hy' : y + 1 < a.cfg.height
    · rw [bilinear_of_lt hw hx hy', hcolumn y hy]
    · obtain rfl : y = a.cfg.height - 1 := by omega
      rw [bilinear_last hw hh hx, hcolumn _ (by omega), hcolumn _ (by omega), hrow x hx, mix_self]

theorem advect_of_atRest (ha : a.Sized) (hrest : a.AtRest) (hw : 2 ≤ a.cfg.width)
    (hh : 2 ≤ a.cfg.height) (hx : x < a.cfg.width) (hy : y < a.cfg.height) :
    a.advect build dt x y = some (a.index x y, a.bilinear a.density x y) := by
  rw [advect_eq dt ha hw hh hx hy, hrest.vx _ (cell_mem ha.vx hx hy),
    hrest.vy _ (cell_mem ha.vy hx hy), zero_mul, sub_zero, sub_zero]

/-- On a strip of one cell's width the bounds of the clamp are the wrong way round. -/
theorem advect_eq_none (ha : a.Sized) (hx : x < a.cfg.width) (hy : y < a.cfg.height)
    (hthin : a.cfg.width < 2 ∨ a.cfg.height < 2) : a.advect build dt x y = none := by
  simp only [advect, idx_eq ha hx hy, getElem?_cell ha.vx hx hy, getElem?_cell ha.vy hx hy,
    Option.bind_eq_bind, Option.bind_some, sample]
  by_cases hw : a.cfg.width < 2
  · rw [clamp_eq_none hw]
    rfl
  · rw [clamp_eq (not_lt.1 hw), clamp_eq_none (hthin.resolve_left hw)]
    rfl

theorem step_eq_none (ha : a.Sized) (hw : 0 < a.cfg.width) (hh : 0 < a.cfg.height)
    (hthin : a.cfg.width < 2 ∨ a.cfg.height < 2) : a.step build dt = none := by
  show Option.bind ((List.range a.cfg.height).foldlM _ a.density) _ = _
  rw [foldlM_store_eq_none hw hh (advect_eq_none ha hw hh hthin)]
  rfl

/-- On a grid of any size the fields keep theirs. -/
theorem sized_of_handle (ha : a.Sized) {msg : FluidMsg} {a' : FluidSimulationActor}
    {reply : FluidReply} (h : a.handle build msg = some (a', reply)) :
    a'.Sized ∧ a'.cfg = a.cfg := by
  have hs : ∀ dt, msg = .step dt → ∃ a', a.step build dt = some a' ∧ a'.Sized ∧ a'.cfg = a.cfg := by
    rintro dt rfl
    by_cases hempty : a.cfg.width = 0 ∨ a.cfg.height = 0
    · have hnone : ∀ x < a.cfg.width, ∀ y < a.cfg.height, False := by omega
      obtain ⟨b, hb, hsized, hcfg, -⟩ := step_of_advect (g := fun _ _ => 0) ha
        fun x hx y hy => (hnone x hx y hy).elim
      exact ⟨b, hb, hsized, hcfg⟩
    · by_cases hthin : a.cfg.width < 2 ∨ a.cfg.height < 2
      · simp [handle, step_eq_none ha (by omega) (by omega) hthin] at h
      · obtain ⟨b, hb, hsized, hcfg, -⟩ := step_bounds build ha (by omega) (by omega) dt
        exact ⟨b, hb, hsized, hcfg⟩
  obtain ⟨b, reply', hb, hsized, hcfg⟩ := handle_of_step ha hs
  obtain ⟨rfl, -⟩ := Prod.mk.inj (Option.some.inj (hb.symm.trans h))
  exact ⟨hsized, hcfg⟩

theorem density_eq_iff {a' : FluidSimulationActor} (ha : a.Sized) (ha' : a'.Sized)
    (hcfg : a'.cfg = a.cfg) : a'.density = a.density ↔
      ∀ x < a.cfg.width, ∀ y < a.cfg.height,
        a'.density[a.index x y]? = some (a.cell a.density x y) := by
  constructor
  · intro h x hx y hy
    rw [h, getElem?_cell ha.density hx hy]
  · intro h
    refine List.ext_getElem? fun i => ?_
    by_cases hi : i < a.cfg.width * a.cfg.height
    · obtain ⟨x, hx, y, hy, rfl⟩ := exists_index hi
      exact (h x hx y hy).trans (getElem?_cell ha.density hx hy).symm
    · rw [List.getElem?_eq_none (by rw [ha'.density, hcfg]; omega),
        List.getElem?_eq_none (by rw [ha.density]; omega)]

end Rest

end FluidSimulationActor

/-- A step leaves a fluid at rest as it is exactly when there is no cell at all, or the grid is at
least two by two and its border flat. -/
theorem still_iff (build : Build) (a : FluidSimulationActor) (dt : ℚ) (ha : a.Sized)
    (hrest : a.AtRest) : a.Still build dt ↔ a.cfg.width = 0 ∨ a.cfg.height = 0 ∨
      2 ≤ a.cfg.width ∧ 2 ≤ a.cfg.height ∧ a.FlatBorder := by
  have hstill : ∀ g : ℕ → ℕ → ℚ,
      (∀ x < a.cfg.width, ∀ y < a.cfg.height,
        a.advect build dt x y = some (a.index x y, g x y)) →
      (a.Still build dt ↔ ∀ x < a.cfg.width, ∀ y < a.cfg.height, g x y = a.cell a.density x y) := by
    intro g hg
    obtain ⟨a', hstep, hsized, hcfg, hdone⟩ := step_of_advect ha hg
    have hiff := density_eq_iff ha hsized hcfg
    constructor
    · rintro ⟨b, hb, hsame⟩ x hx y hy
      simp only [handle, hstep, Option.map_some, Option.some.injEq, Prod.mk.injEq] at hb
      obtain ⟨rfl, -⟩ := hb
      exact Option.some.inj ((hdone x hx y hy).symm.trans (hiff.1 hsame x hx y hy))
    · intro h
      refine ⟨a', by simp only [handle, hstep, Option.map_some], hiff.2 fun x hx y hy => ?_⟩
      rw [hdone x hx y hy, h x hx y hy]
  by_cases hempty : a.cfg.width = 0 ∨ a.cfg.height = 0
  · have hnone : ∀ x < a.cfg.width, ∀ y < a.cfg.height, False := by omega
    refine iff_of_true ?_ (by tauto)
    exact (hstill (fun _ _ => 0) fun x hx y hy => (hnone x hx y hy).elim).2
      fun x hx y hy => (hnone x hx y hy).elim
  · obtain ⟨hw0, hh0⟩ := not_or.1 hempty
    by_cases hthin : a.cfg.width < 2 ∨ a.cfg.height < 2
    · have hnone : a.step build dt = none :=
        step_eq_none ha (Nat.pos_of_ne_zero hw0) (Nat.pos_of_ne_zero hh0) hthin
      refine iff_of_false ?_ ?_
      · rintro ⟨a', ha', -⟩
        simp [handle, hnone] at ha'
      · rintro (h | h | ⟨hw, hh, -⟩) <;> omega
    · obtain ⟨hw, hh⟩ := not_or.1 hthin
      rw [not_lt] at hw hh
      rw [hstill _ fun x hx y hy => advect_of_atRest ha hrest hw hh hx hy, bilinear_eq_iff hw hh]
      constructor
      · exact fun h => .inr (.inr ⟨hw, hh, h⟩)
      · rintro (h | h | ⟨-, -, h⟩)
        · exact absurd h hw0
        · exact absurd h hh0
        · exact h

/-- Two by two cells with some fluid in one of them. -/
def drop : FluidSimulationActor := ⟨⟨2, 2, 0⟩, [0, 0, 0, 1], [0, 0, 0, 0], [0, 0, 0, 0]⟩

/-- An even layer of fluid on two by two cells. -/
def layer : FluidSimulationActor := ⟨⟨2, 2, 0⟩, [1, 1, 1, 1], [0, 0, 0, 0], [0, 0, 0, 0]⟩

theorem still_layer : layer.Still .wrapping 1 ↔ layer.cfg.width = 0 ∨ layer.cfg.height = 0 ∨
    2 ≤ layer.cfg.width ∧ 2 ≤ layer.cfg.height ∧ layer.FlatBorder :=
  still_iff .wrapping layer 1 ⟨by decide, rfl, rfl, rfl⟩ ⟨by decide, by decide⟩

/-- The drop loses some of itself in a step, and on a single cell the step panics. -/
theorem drop_not_still :
    ¬(∀ (a : FluidSimulationActor) (dt : ℚ), a.Sized → a.AtRest → a.Still .wrapping dt) ∧
      (drop.step .wrapping 1).map density = some [0, 0, 0, 998001 / 1000000] ∧
      ∃ a, props .wrapping ⟨1, 1, 0⟩ = some a ∧ a.step .wrapping 1 = none := by
  have hstep : (drop.step .wrapping 1).map density = some [0, 0, 0, 998001 / 1000000] := by
    decide +kernel
  refine ⟨fun h => ?_, hstep, _, rfl, by decide +kernel⟩
  obtain ⟨a', ha', hsame⟩ := h drop 1 ⟨by decide, rfl, rfl, rfl⟩ ⟨by decide, by decide⟩
  obtain ⟨b, hb, hpair⟩ :=
    Option.map_eq_some_iff.1 (show (drop.step .wrapping 1).map _ = _ from ha')
  obtain ⟨rfl, -⟩ := Prod.mk.inj hpair
  rw [hb, Option.map_some, hsame] at hstep
  exact absurd (Option.some.inj hstep) (by decide +kernel)

end Fluid

end Realtime

end AtomrAccel
