import AtomrAccel.Cudnn.WellFormed
import AtomrAccel.Lib.MixedRadix

/-!
# Packed strides leave no gap

`packed_strides` writes down the row-major strides of the axes in their order on disk, at the places
the axes have in the list of dimensions.  Channels are the second axis there, and the last one on
disk when they are packed so.  So each place of a tensor belongs to one multi-index, as long as the
number of elements fits into an `i64`.

* `TensorLayout.onDisk`: the order on disk;
* `exactStridesFrom_eq`, `address_exactStrides`: the strides are those of the order on disk;
* `toInt_packedStrides`: no product wraps;
* `TensorSpec.bijOn_new`, `packedStrides_dense`: multi-indices and the places of a tensor.
-/

namespace AtomrAccel

namespace Cudnn

open MixedRadix

/-- The axes of a layout, the slowest first. -/
def TensorLayout.onDisk {α : Type*} : TensorLayout → List α → List α
  | .nhwcPacked, n :: c :: spatial => n :: spatial ++ [c]
  | _, axes => axes

section Order

variable {layout : TensorLayout} {dims index : List ℤ}

/-- Only the order of the axes changes. -/
theorem perm_onDisk {α : Type*} (axes : List α) : (layout.onDisk axes).Perm axes := by
  match layout, axes with
  | .nhwcPacked, n :: c :: spatial => exact (List.perm_append_singleton c spatial).cons n
  | .nhwcPacked, [] | .nhwcPacked, [_] | .nchwPacked, _ | .strided, _ => exact .refl _

theorem prod_onDisk : (layout.onDisk dims).prod = dims.prod := (perm_onDisk dims).prod_eq

/-- One axis has one order. -/
theorem onDisk_of_length_lt {α : Type*} {axes : List α} (h : axes.length < 2) :
    layout.onDisk axes = axes := by
  match layout, axes with
  | .nhwcPacked, [] | .nhwcPacked, [_] | .nchwPacked, _ | .strided, _ => rfl

/-- The digits of a multi-index, put in the order on disk, are those of the axes in that order. -/
theorem bijOn_onDisk :
    Set.BijOn layout.onDisk (Indices dims) (Indices (layout.onDisk dims)) := by
  by_cases hlen : dims.length < 2
  · rw [onDisk_of_length_lt hlen]
    refine (Set.bijOn_id _).congr fun x hx => ?_
    exact (onDisk_of_length_lt (length_of_mem hx ▸ hlen)).symm
  match layout, dims with
  | .nchwPacked, _ | .strided, _ => exact Set.bijOn_id _
  | .nhwcPacked, [] | .nhwcPacked, [_] => exact absurd (by simp) hlen
  | .nhwcPacked, n :: c :: spatial =>
    refine ⟨fun x hx => ?_, fun x hx y hy hxy => ?_, fun z hz => ?_⟩
    · obtain ⟨i, _, rfl, hi, hrest⟩ := exists_cons_of_mem hx
      obtain ⟨j, rest, rfl, hj, hrest⟩ := exists_cons_of_mem hrest
      exact cons_mem_indices.2 ⟨hi, concat_mem_indices.2 ⟨hrest, hj⟩⟩
    · obtain ⟨i, _, rfl, -, hx⟩ := exists_cons_of_mem hx
      obtain ⟨j, u, rfl, -, -⟩ := exists_cons_of_mem hx
      obtain ⟨i', _, rfl, -, hy⟩ := exists_cons_of_mem hy
      obtain ⟨j', v, rfl, -, -⟩ := exists_cons_of_mem hy
      obtain ⟨rfl, hrest⟩ := List.cons.inj hxy
      obtain ⟨rfl, hlast⟩ := List.append_inj' hrest rfl
      rw [(List.cons.inj hlast).1]
    · have hz' : z ∈ Indices (n :: (spatial ++ [c])) := hz
      obtain ⟨i, _, rfl, hi, hrest⟩ := exists_cons_of_mem hz'
      obtain ⟨rest, j, rfl, hrest, hj⟩ := exists_concat_of_mem hrest
      exact ⟨i :: j :: rest, cons_mem_indices.2 ⟨hi, cons_mem_indices.2 ⟨hj, hrest⟩⟩, rfl⟩

/-! ### In whole numbers -/

theorem exactStridesFrom_eq (unit : ℤ) (dims : List ℤ) :
    exactStridesFrom unit dims = (dims.prod :: rowMajor dims).map (unit * ·) := by
  induction dims with
  | nil => rw [List.prod_nil, rowMajor, List.map_singleton, mul_one, exactStridesFrom,
      List.foldr_nil]
  | cons d dims ih =>
    have hstep : exactStridesFrom unit (d :: dims) =
        (exactStridesFrom unit dims).headD unit * d :: exactStridesFrom unit dims := rfl
    rw [hstep, ih, rowMajor, List.prod_cons, List.map_cons, List.map_cons, List.headD_cons]
    congr 1
    ring

theorem exactStrides_of_ne (h : layout ≠ .nhwcPacked) :
    exactStrides dims layout = rowMajor dims := by
  have hunit : ∀ l : List ℤ, l.map (1 * ·) = l := fun l => by simp
  match layout, dims with
  | .nhwcPacked, _ => exact absurd rfl h
  | .nchwPacked, [] | .strided, [] => rfl
  | .nchwPacked, _ :: dims | .strided, _ :: dims =>
    show exactStridesFrom 1 dims = _
    rw [exactStridesFrom_eq, hunit, rowMajor]

/-- Channel-last strides: those of the other axes, times the number of channels, and one for the
channel. -/
theorem exactStrides_nhwcPacked (n c s : ℤ) (dims : List ℤ) :
    exactStrides (n :: c :: s :: dims) .nhwcPacked =
      c * (s :: dims).prod :: 1 :: (rowMajor (s :: dims)).map (c * ·) := by
  show (exactStridesFrom c dims).headD c * s :: 1 :: exactStridesFrom c dims = _
  rw [exactStridesFrom_eq, List.map_cons, List.headD_cons, List.prod_cons, rowMajor, List.map_cons]
  congr 1
  ring

theorem exists_cons_of_three_le {α : Type*} {axes : List α} (h : 3 ≤ axes.length) :
    ∃ n c s rest, axes = n :: c :: s :: rest := by
  rcases axes with _ | ⟨n, _ | ⟨c, _ | ⟨s, rest⟩⟩⟩
  · exact absurd h (by simp)
  · exact absurd h (by simp)
  · exact absurd h (by simp)
  · exact ⟨n, c, s, rest, rfl⟩

/-- The strides give a multi-index its row-major place in the order on disk. -/
theorem address_exactStrides (haccepted : layout = .nhwcPacked → dims = [] ∨ 3 ≤ dims.length)
    (h : index ∈ Indices dims) :
    address (exactStrides dims layout) index =
      address (rowMajor (layout.onDisk dims)) (layout.onDisk index) := by
  by_cases hlayout : layout = .nhwcPacked
  · subst hlayout
    rcases haccepted rfl with rfl | hrank
    · obtain rfl := mem_indices_nil.1 h
      rfl
    · obtain ⟨n, c, s, dims, rfl⟩ := exists_cons_of_three_le hrank
      obtain ⟨i, _, rfl, -, h⟩ := exists_cons_of_mem h
      obtain ⟨j, rest, rfl, -, h⟩ := exists_cons_of_mem h
      have hlen : (i :: rest).length = ((rowMajor (n :: s :: dims)).map (c * ·)).length := by
        rw [List.length_map, length_rowMajor, List.length_cons, length_of_mem h, List.length_cons,
          List.length_cons, List.length_cons]
      have hdisk : address (rowMajor (n :: (s :: dims) ++ [c])) (i :: rest ++ [j]) =
          c * (i * (s :: dims).prod + address (rowMajor (s :: dims)) rest) + j * 1 := by
        rw [rowMajor_concat, address_append hlen, address_map_mul, rowMajor, address_cons,
          address_cons, address_nil, add_zero]
      rw [exactStrides_nhwcPacked, address_cons, address_cons, address_map_mul]
      refine Eq.trans ?_ hdisk.symm
      ring
  · have hid : ∀ axes : List ℤ, layout.onDisk axes = axes := by
      intro axes
      cases layout with
      | nhwcPacked => exact absurd rfl hlayout
      | nchwPacked | strided => rfl
    rw [exactStrides_of_ne hlayout, hid, hid]

/-- The addresses of a tensor are the numbers below its size, each of one multi-index. -/
theorem bijOn_exactStrides (hpos : ∀ d ∈ dims, 0 < d)
    (haccepted : layout = .nhwcPacked → dims = [] ∨ 3 ≤ dims.length) :
    Set.BijOn (address (exactStrides dims layout)) (Indices dims) (Set.Ico 0 dims.prod) := by
  have hdisk := @bijOn_address (layout.onDisk dims) fun d hd =>
    hpos d ((perm_onDisk dims).mem_iff.1 hd)
  rw [prod_onDisk] at hdisk
  exact (hdisk.comp bijOn_onDisk).congr fun x hx => (address_exactStrides haccepted hx).symm

/-- Addresses grow with the order on disk. -/
theorem address_lt_iff {x y : List ℤ}
    (haccepted : layout = .nhwcPacked → dims = [] ∨ 3 ≤ dims.length)
    (hx : x ∈ Indices dims) (hy : y ∈ Indices dims) :
    address (exactStrides dims layout) x < address (exactStrides dims layout) y ↔
      layout.onDisk x < layout.onDisk y := by
  rw [address_exactStrides haccepted hx, address_exactStrides haccepted hy]
  exact (strictMonoOn_address _).lt_iff_lt (bijOn_onDisk.mapsTo hx) (bijOn_onDisk.mapsTo hy)

end Order

/-! ### In machine integers -/

section Wrapping

variable {layout : TensorLayout} {unit c s : Int64} {dims strides : List Int64}

theorem toInt_mul_of_fits {a b : Int64} (h : 0 ≤ a.toInt * b.toInt)
    (hfits : a.toInt * b.toInt < 2 ^ 63) : (a * b).toInt = a.toInt * b.toInt := by
  rw [Int64.toInt_mul]
  exact Int.bmod_eq_of_le (by omega) (by omega)

theorem toInt_pos {d : Int64} (h : 0 < d) : 0 < d.toInt := Int64.lt_iff_toInt_lt.1 h

theorem forall_toInt_pos (hpos : ∀ d ∈ dims, 0 < d) : ∀ d ∈ dims.map Int64.toInt, 0 < d :=
  List.forall_mem_map.2 fun d hd => toInt_pos (hpos d hd)

theorem prod_toInt_pos (hpos : ∀ d ∈ dims, 0 < d) : 0 < (dims.map Int64.toInt).prod :=
  List.prod_pos (forall_toInt_pos hpos)

/-- One more extent makes the product larger, if anything. -/
theorem prod_toInt_le (hpos : ∀ d ∈ s :: dims, 0 < d) :
    (dims.map Int64.toInt).prod ≤ ((s :: dims).map Int64.toInt).prod := by
  obtain ⟨hs, hrest⟩ := List.forall_mem_cons.1 hpos
  rw [List.map_cons, List.prod_cons]
  exact le_mul_of_one_le_left (prod_toInt_pos hrest).le (toInt_pos hs)

theorem toInt_headD (l : List Int64) (a : Int64) :
    (l.headD a).toInt = (l.map Int64.toInt).headD a.toInt := by
  cases l <;> rfl

/-- The stride of the next axis does not wrap. -/
theorem toInt_next (hunit : 0 < unit) (hpos : ∀ d ∈ s :: dims, 0 < d)
    (hfits : unit.toInt * ((s :: dims).map Int64.toInt).prod < 2 ^ 63)
    (hstrides : (stridesFrom unit dims).map Int64.toInt =
      exactStridesFrom unit.toInt (dims.map Int64.toInt)) :
    ((stridesFrom unit dims).headD unit * s).toInt =
      (exactStridesFrom unit.toInt (dims.map Int64.toInt)).headD unit.toInt * s.toInt := by
  have hhead : ((stridesFrom unit dims).headD unit).toInt * s.toInt =
      unit.toInt * ((s :: dims).map Int64.toInt).prod := by
    rw [toInt_headD, hstrides, exactStridesFrom_eq, List.map_cons, List.headD_cons, List.map_cons,
      List.prod_cons]
    ring
  have hlow := mul_pos (toInt_pos hunit) (prod_toInt_pos hpos)
  rw [toInt_mul_of_fits (hhead ▸ hlow.le) (hhead ▸ hfits), toInt_headD, hstrides]

/-- The product that comes last is the largest, so none wraps. -/
theorem toInt_stridesFrom (hunit : 0 < unit) (hpos : ∀ d ∈ dims, 0 < d)
    (hfits : unit.toInt * (dims.map Int64.toInt).prod < 2 ^ 63) :
    (stridesFrom unit dims).map Int64.toInt =
      exactStridesFrom unit.toInt (dims.map Int64.toInt) := by
  induction dims with
  | nil => rfl
  | cons d dims ih =>
    have hle := mul_le_mul_of_nonneg_left (prod_toInt_le hpos) (toInt_pos hunit).le
    have hstrides := ih (List.forall_mem_cons.1 hpos).2 (hle.trans_lt hfits)
    show ((stridesFrom unit dims).headD unit * d).toInt ::
        (stridesFrom unit dims).map Int64.toInt = _
    rw [toInt_next hunit hpos hfits hstrides, hstrides]
    rfl

/-- No product of `packed_strides` wraps when the number of elements fits. -/
theorem toInt_packedStrides (hpos : ∀ d ∈ dims, 0 < d)
    (hfits : (dims.map Int64.toInt).prod < 2 ^ 63) (h : packedStrides dims layout = some strides) :
    strides.map Int64.toInt = exactStrides (dims.map Int64.toInt) layout := by
  match dims, layout with
  | [], _ =>
    cases h
    cases layout <;> rfl
  | n :: dims, .nchwPacked | n :: dims, .strided =>
    cases h
    have hunit : (1 : Int64).toInt * (dims.map Int64.toInt).prod = (dims.map Int64.toInt).prod :=
      one_mul _
    exact toInt_stridesFrom (by decide) (List.forall_mem_cons.1 hpos).2
      (hunit.trans_le (prod_toInt_le hpos) |>.trans_lt hfits)
  | n :: c :: s :: dims, .nhwcPacked =>
    cases h
    obtain ⟨-, hrest⟩ := List.forall_mem_cons.1 hpos
    obtain ⟨hc, hspatial⟩ := List.forall_mem_cons.1 hrest
    have hfits' : c.toInt * ((s :: dims).map Int64.toInt).prod < 2 ^ 63 :=
      (prod_toInt_le hpos).trans_lt hfits
    have hle := mul_le_mul_of_nonneg_left (prod_toInt_le hspatial) (toInt_pos hc).le
    have hstrides : (stridesFrom c dims).map Int64.toInt =
        exactStridesFrom c.toInt (dims.map Int64.toInt) :=
      toInt_stridesFrom hc (List.forall_mem_cons.1 hspatial).2 (hle.trans_lt hfits')
    show ((stridesFrom c dims).headD c * s).toInt :: 1 ::
        (stridesFrom c dims).map Int64.toInt = _
    rw [toInt_next hc hspatial hfits' hstrides, hstrides]
    rfl

/-- The layout is refused for no other rank. -/
theorem exists_packedStrides_iff :
    (∃ strides, packedStrides dims layout = some strides) ↔
      (layout = .nhwcPacked → dims = [] ∨ 3 ≤ dims.length) := by
  constructor
  · rintro ⟨strides, h⟩ rfl
    rcases dims with _ | ⟨n, _ | ⟨c, _ | ⟨s, dims⟩⟩⟩
    · exact .inl rfl
    · cases h
    · cases h
    · exact .inr (by simp)
  · intro h
    cases layout with
    | nhwcPacked =>
      rcases h rfl with rfl | hrank
      · exact ⟨[], rfl⟩
      · exact packedStrides_of_rank hrank _
    | nchwPacked | strided => cases dims <;> exact ⟨_, rfl⟩

theorem accepted_toInt (h : packedStrides dims layout = some strides) :
    layout = .nhwcPacked → dims.map Int64.toInt = [] ∨ 3 ≤ (dims.map Int64.toInt).length := by
  rw [List.map_eq_nil_iff, List.length_map]
  exact exists_packedStrides_iff.1 ⟨strides, h⟩

theorem bijOn_packedStrides (hpos : ∀ d ∈ dims, 0 < d)
    (hfits : (dims.map Int64.toInt).prod < 2 ^ 63) (h : packedStrides dims layout = some strides) :
    Set.BijOn (address (strides.map Int64.toInt)) (Indices (dims.map Int64.toInt))
      (Set.Ico 0 (dims.map Int64.toInt).prod) := by
  rw [toInt_packedStrides hpos hfits h]
  exact bijOn_exactStrides (forall_toInt_pos hpos) (accepted_toInt h)

/-- A new tensor has one place for each multi-index, and no others. -/
theorem TensorSpec.bijOn_new {uid : Int64} {dtype : DtypeTag} {t : TensorSpec}
    (h : TensorSpec.new uid dtype dims layout = some t) (hpos : ∀ d ∈ dims, 0 < d)
    (hfits : (dims.map Int64.toInt).prod < 2 ^ 63) :
    Set.BijOn (address (t.strides.map Int64.toInt)) (Indices (t.dims.map Int64.toInt))
      (Set.Ico 0 (t.dims.map Int64.toInt).prod) := by
  obtain ⟨strides, hstrides, rfl⟩ := Option.map_eq_some_iff.1 h
  exact bijOn_packedStrides hpos hfits hstrides

end Wrapping

/-! ### The places of a tensor -/

/-- The strides of a tensor of positive extents, whose size fits: no product wraps, the places of
the tensor are the numbers below its size, each of one multi-index, and they follow the order on
disk.  When channels come last, theirs are next to each other, and the other axes are row-major. -/
theorem packedStrides_dense {dims : List Int64} {layout : TensorLayout}
    (hpos : ∀ d ∈ dims, 0 < d) (hfits : (dims.map Int64.toInt).prod < 2 ^ 63)
    (haccepted : layout = .nhwcPacked → dims = [] ∨ 3 ≤ dims.length) :
    ∃ strides : List Int64, packedStrides dims layout = some strides ∧
      strides.map Int64.toInt = exactStrides (dims.map Int64.toInt) layout ∧
      Set.BijOn (address (strides.map Int64.toInt)) (Indices (dims.map Int64.toInt))
        (Set.Ico 0 (dims.map Int64.toInt).prod) ∧
      (∀ x ∈ Indices (dims.map Int64.toInt), ∀ y ∈ Indices (dims.map Int64.toInt),
        address (strides.map Int64.toInt) x < address (strides.map Int64.toInt) y ↔
          layout.onDisk x < layout.onDisk y) ∧
      (layout = .nhwcPacked → ∀ c ∈ dims[1]?, strides[1]? = some 1 ∧
        (strides.map Int64.toInt).eraseIdx 1 =
          (rowMajor ((dims.map Int64.toInt).eraseIdx 1)).map (c.toInt * ·)) := by
  obtain ⟨strides, hstrides⟩ := exists_packedStrides_iff.2 haccepted
  have hexact := toInt_packedStrides hpos hfits hstrides
  refine ⟨strides, hstrides, hexact, bijOn_packedStrides hpos hfits hstrides,
    fun x hx y hy => ?_, ?_⟩
  · rw [hexact]
    exact address_lt_iff (accepted_toInt hstrides) hx hy
  · rintro rfl c hc
    rcases haccepted rfl with rfl | hrank
    · cases hc
    · obtain ⟨n, c', s, dims, rfl⟩ := exists_cons_of_three_le hrank
      cases hc
      cases hstrides
      refine ⟨rfl, ?_⟩
      rw [hexact]
      simp only [List.map_cons, exactStrides_nhwcPacked, List.eraseIdx_cons_succ,
        List.eraseIdx_cons_zero, rowMajor]

/-- Two images of four rows and five columns, with three channels. -/
theorem packedStrides_images :
    packedStrides [2, 3, 4, 5] .nhwcPacked = some [60, 1, 15, 3] ∧
      Set.BijOn (address [60, 1, 15, 3]) (Indices [2, 3, 4, 5]) (Set.Ico 0 120) := by
  obtain ⟨strides, hstrides, -, hbij, -⟩ := @packedStrides_dense [2, 3, 4, 5]
    .nhwcPacked (by simp) (by decide) (fun _ => .inr (by decide))
  cases hstrides
  exact ⟨rfl, hbij⟩

end Cudnn

end AtomrAccel
