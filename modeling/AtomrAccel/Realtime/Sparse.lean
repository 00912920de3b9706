import AtomrAccel.Device.Error
import AtomrAccel.Lib.Overflow
import AtomrAccel.Lib.Threads

/-!
# `GpuSparseStructureActor`: products with a sparse matrix

The actor goes through the entries of its matrix one after the other.  The kernel `coo_spmv` has a
thread for each entry, which adds its product to the row atomically.  Addition and multiplication
are any operations, as those of `f32` neither associate nor distribute.

* `GpuSparseStructureActor`, `spMv`, `handle`: the actor;
* `SpmvArgs`, `cooSpmv`, `spmvLaunch`: the kernel, and its launch for the actor's matrix;
* `Fits`: sizes that the kernel's integers can hold;
* `product`, `getD_entries`, `cooSpmv_eq_adds`: the product of an entry, and that both add it up;
* `launched_spmv_iff`: what the threads can come to is what the actor computes for the entries in
  some order;
* `launched_spmv_of_comm`: which is one thing only where addition commutes and associates.
-/

namespace AtomrAccel

namespace Realtime

namespace Sparse

open Threads Kernel Overflow

/-- An entry of the matrix. -/
structure CooEntry (K : Type) where
  row : UInt32
  col : UInt32
  value : K
  deriving DecidableEq, Repr

/-- The size of the matrix. -/
structure SparseConfig where
  rows : ℕ
  cols : ℕ
  deriving DecidableEq, Repr

/-- What `Stats` answers. -/
structure SparseStats where
  rows : ℕ
  cols : ℕ
  nnz : ℕ
  deriving DecidableEq, Repr

/-- The messages of the actor. -/
inductive SparseMsg (K : Type)
  | setEntries (entries : List (CooEntry K))
  | spMv (x : List K)
  | stats

/-- What goes back on the reply channels. -/
inductive SparseReply (K : Type)
  | count (n : ℕ)
  | product (y : Except GpuError (List K))
  | stats (stats : SparseStats)

/-- The actor: the entries of its matrix, in any order. -/
structure GpuSparseStructureActor (K : Type) where
  cfg : SparseConfig
  entries : List (CooEntry K)
  deriving DecidableEq, Repr

variable {K : Type} [Zero K] [Add K] [Mul K]

namespace GpuSparseStructureActor

/-- One turn of the loop over the entries; `x` has an element for each column. -/
def addEntry (cfg : SparseConfig) (x y : List K) (e : CooEntry K) : List K :=
  let r := e.row.toNat
  let c := e.col.toNat
  if r < cfg.rows ∧ c < cfg.cols then y.modify r (· + e.value * x.getD c 0) else y

/-- The product with a vector of the right length. -/
def spMv (s : GpuSparseStructureActor K) (x : List K) : Except GpuError (List K) :=
  if x.length ≠ s.cfg.cols then
    .error (.unrecoverable
      ("SpMv: x len " ++ toString x.length ++ " != cols " ++ toString s.cfg.cols))
  else
    .ok (s.entries.foldl (addEntry s.cfg x) (List.replicate s.cfg.rows 0))

/-- The three messages. -/
def handle (s : GpuSparseStructureActor K) :
    SparseMsg K → GpuSparseStructureActor K × SparseReply K
  | .setEntries entries => ({ s with entries := entries }, .count entries.length)
  | .spMv x => (s, .product (s.spMv x))
  | .stats => (s, .stats ⟨s.cfg.rows, s.cfg.cols, s.entries.length⟩)

end GpuSparseStructureActor

/-! ### The kernel -/

/-- The arguments of a launch, `y` apart. -/
structure SpmvArgs (K : Type) where
  rows : ℕ → ℤ
  cols : ℕ → ℤ
  vals : ℕ → K
  x : ℕ → K
  nnz : ℤ
  rowsCount : ℤ
  colsCount : ℤ

/-- The thread `i`, over the elements of `y`. -/
def cooSpmv (a : SpmvArgs K) (i : ℕ) : Threads.Thread ℕ K :=
  let idx := asInt i
  if a.nnz ≤ idx then .done
  else
    let r := a.rows idx.toNat
    let c := a.cols idx.toNat
    if r < 0 ∨ a.rowsCount ≤ r ∨ c < 0 ∨ a.colsCount ≤ c then .done
    else .add r.toNat (a.vals idx.toNat * a.x c.toNat) .done

/-- The arguments for the matrix of an actor. -/
def spmvArgs (cfg : SparseConfig) (entries : List (CooEntry K)) (x : List K) : SpmvArgs K where
  rows i := asInt ((entries[i]?.map fun e => e.row.toNat).getD 0)
  cols i := asInt ((entries[i]?.map fun e => e.col.toNat).getD 0)
  vals i := (entries[i]?.map CooEntry.value).getD 0
  x c := x.getD c 0
  nnz := asInt entries.length
  rowsCount := asInt cfg.rows
  colsCount := asInt cfg.cols

/-- A launch for the matrix of an actor. -/
def spmvLaunch (cfg : SparseConfig) (entries : List (CooEntry K)) (x : List K) (count : ℕ) :
    Launch ℕ K :=
  ⟨count, fun i => cooSpmv (spmvArgs cfg entries x) i⟩

/-- A launch with enough threads, and nothing too large for an `int`. -/
structure Fits (cfg : SparseConfig) (entries : List (CooEntry K)) (count : ℕ) : Prop where
  rows : cfg.rows < 2 ^ 31
  cols : cfg.cols < 2 ^ 31
  nnz : entries.length < 2 ^ 31
  le_count : entries.length ≤ count
  count : count ≤ 2 ^ 31

/-- An index is in range for the kernel when it is for the actor. -/
theorem asInt_in_range {n m : ℕ} (hn : n < 2 ^ 32) (hm : m < 2 ^ 31) :
    (asInt n < 0 ∨ asInt m ≤ asInt n) ↔ ¬ n < m := by
  rw [asInt_of_lt hm]
  by_cases h : n < 2 ^ 31
  · rw [asInt_of_lt h]
    omega
  · exact iff_of_true (.inl (asInt_neg (not_lt.1 h) hn)) (by omega)

/-! ### The products -/

/-- What an entry adds, and to which row: nothing when it is out of range. -/
def product (cfg : SparseConfig) (x : List K) (e : CooEntry K) : List (ℕ × K) :=
  if e.row.toNat < cfg.rows ∧ e.col.toNat < cfg.cols then
    [(e.row.toNat, e.value * x.getD e.col.toNat 0)]
  else []

variable {cfg : SparseConfig} {entries : List (CooEntry K)} {x : List K} {count : ℕ}

omit [Add K] in
theorem length_product_le (cfg : SparseConfig) (x : List K) (e : CooEntry K) :
    (product cfg x e).length ≤ 1 := by
  unfold product
  split_ifs <;> simp

theorem getD_addEntry {y : List K} (hy : y.length = cfg.rows) (e : CooEntry K) :
    (fun r => (GpuSparseStructureActor.addEntry cfg x y e).getD r 0) =
      accumulate (fun r => y.getD r 0) (product cfg x e) := by
  unfold GpuSparseStructureActor.addEntry product
  by_cases h : e.row.toNat < cfg.rows ∧ e.col.toNat < cfg.cols
  · simp only [if_pos h]
    funext r
    show _ = Function.update (fun r => y.getD r 0) e.row.toNat _ r
    by_cases hr : r = e.row.toNat
    · subst hr
      have hlt : e.row.toNat < y.length := hy ▸ h.1
      rw [Function.update_self]
      simp [hlt]
    · rw [Function.update_of_ne hr, List.getD_eq_getElem?_getD,
        List.getElem?_modify_ne _ _ (Ne.symm hr), ← List.getD_eq_getElem?_getD]
  · rw [if_neg h, if_neg h]
    rfl

theorem length_addEntry {y : List K} (e : CooEntry K) :
    (GpuSparseStructureActor.addEntry cfg x y e).length = y.length := by
  simp only [GpuSparseStructureActor.addEntry]
  split_ifs <;> simp

/-- The loop adds up the products of the entries. -/
theorem getD_entries {y : List K} (hy : y.length = cfg.rows) (entries : List (CooEntry K)) :
    (fun r => (entries.foldl (GpuSparseStructureActor.addEntry cfg x) y).getD r 0) =
      accumulate (fun r => y.getD r 0) (entries.flatMap (product cfg x)) := by
  induction entries generalizing y with
  | nil => rfl
  | cons e entries ih =>
    rw [List.foldl_cons, List.flatMap_cons, accumulate_append, ← getD_addEntry hy]
    exact ih ((length_addEntry e).trans hy)

theorem spMv_ok (hx : x.length = cfg.cols) (entries : List (CooEntry K)) :
    ∃ out, (GpuSparseStructureActor.mk cfg entries).spMv x = .ok out ∧
      ∀ r, out.getD r 0 = accumulate (fun _ => 0) (entries.flatMap (product cfg x)) r := by
  refine ⟨_, if_neg (not_not_intro hx), fun r => ?_⟩
  have hzero : (fun r => (List.replicate cfg.rows (0 : K)).getD r 0) = fun _ => 0 := by
    funext r
    rw [List.getD_eq_getElem?_getD, List.getElem?_replicate]
    split_ifs <;> rfl
  rw [← hzero, ← getD_entries (List.length_replicate ..)]

omit [Add K] in
/-- A thread adds the product of its entry. -/
theorem cooSpmv_eq_adds (h : Fits cfg entries count) (i : Fin count) :
    cooSpmv (spmvArgs cfg entries x) i = adds (entries[i.val]?.toList.flatMap (product cfg x)) := by
  have hi : i.val < 2 ^ 31 := lt_of_lt_of_le i.isLt h.count
  simp only [cooSpmv, spmvArgs, asInt_of_lt hi, asInt_of_lt h.nnz, Int.toNat_natCast, Nat.cast_le]
  by_cases hlen : i.val < entries.length
  · rw [if_neg (Nat.not_le.2 hlen), List.getElem?_eq_getElem hlen]
    obtain ⟨e, he⟩ : ∃ e, e = entries[i.val] := ⟨_, rfl⟩
    rw [← he]
    simp only [Option.map_some, Option.getD_some, Option.toList_some, List.flatMap_singleton]
    have hrow := asInt_in_range e.row.toNat_lt h.rows
    have hcol := asInt_in_range e.col.toNat_lt h.cols
    unfold product
    by_cases hin : e.row.toNat < cfg.rows ∧ e.col.toNat < cfg.cols
    · have hout : ¬ (asInt e.row.toNat < 0 ∨ asInt cfg.rows ≤ asInt e.row.toNat ∨
          asInt e.col.toNat < 0 ∨ asInt cfg.cols ≤ asInt e.col.toNat) := by
        tauto
      rw [if_neg hout, if_pos hin, asInt_of_lt (hin.1.trans h.rows),
        asInt_of_lt (hin.2.trans h.cols)]
      rfl
    · have hout : asInt e.row.toNat < 0 ∨ asInt cfg.rows ≤ asInt e.row.toNat ∨
          asInt e.col.toNat < 0 ∨ asInt cfg.cols ≤ asInt e.col.toNat := by
        tauto
      rw [if_pos hout, if_neg hin]
      rfl
  · rw [if_pos (Nat.not_lt.1 hlen), List.getElem?_eq_none (Nat.not_lt.1 hlen)]
    rfl

omit [Add K] in
/-- The additions of all threads are the products of all entries. -/
theorem sum_products (hcount : entries.length ≤ count) :
    ∑ i : Fin count, (entries[i.val]?.toList.flatMap (product cfg x) : Multiset (ℕ × K)) =
      entries.flatMap (product cfg x) := by
  rw [Fin.sum_univ_eq_sum_range fun i =>
    (entries[i]?.toList.flatMap (product cfg x) : Multiset (ℕ × K))]
  induction entries generalizing count with
  | nil => exact Finset.sum_eq_zero fun i _ => rfl
  | cons e entries ih =>
    obtain ⟨n, rfl⟩ : ∃ n, count = n + 1 := ⟨count - 1, by simp at hcount; omega⟩
    rw [Finset.sum_range_succ', List.flatMap_cons]
    have hrest := ih (Nat.le_of_succ_le_succ hcount)
    rw [← Multiset.coe_add, add_comm, ← hrest]
    simp

omit [Add K] in
/-- A rearrangement of the products is the products of the rearranged entries. -/
theorem exists_perm_entries {ws : List (ℕ × K)}
    (h : ws.Perm (entries.flatMap (product cfg x))) :
    ∃ entries' : List (CooEntry K), entries'.Perm entries ∧
      entries'.flatMap (product cfg x) = ws := by
  induction ws generalizing entries with
  | nil => exact ⟨entries, List.Perm.refl _, List.nil_perm.1 h⟩
  | cons w ws ih =>
    obtain ⟨e, he, hw⟩ := List.mem_flatMap.1 (h.subset List.mem_cons_self)
    obtain ⟨before, after, rfl⟩ := List.append_of_mem he
    have hproduct : product cfg x e = [w] := by
      have hlen := length_product_le cfg x e
      cases hp : product cfg x e with
      | nil =>
        rw [hp] at hw
        cases hw
      | cons w' rest =>
        rw [hp] at hw hlen
        obtain rfl : rest = [] := List.length_eq_zero_iff.1 (by simpa using hlen)
        rw [List.mem_singleton.1 hw]
    have hsplit : (before ++ e :: after).Perm (e :: (before ++ after)) := List.perm_middle
    have hrest : ws.Perm ((before ++ after).flatMap (product cfg x)) := by
      have hcons := h.trans (hsplit.flatMap_right (product cfg x))
      rw [List.flatMap_cons, hproduct] at hcons
      exact (List.perm_cons w).1 hcons
    obtain ⟨entries', hperm, heq⟩ := ih hrest
    refine ⟨e :: entries', (hperm.cons e).trans hsplit.symm, ?_⟩
    rw [List.flatMap_cons, hproduct, heq]
    rfl

/-- Whatever the order of the threads, the kernel leaves what the actor computes for the entries in
some order; and each order of the entries can come about. -/
theorem launched_spmv_iff (h : Fits cfg entries count) (hx : x.length = cfg.cols) (y : ℕ → K) :
    Launched (spmvLaunch cfg entries x count) (fun _ => 0) y ↔
      ∃ entries' : List (CooEntry K), entries'.Perm entries ∧
        ∃ out, (GpuSparseStructureActor.mk cfg entries').spMv x = .ok out ∧
          ∀ r, y r = out.getD r 0 := by
  have hlaunch : spmvLaunch cfg entries x count =
      ⟨count, fun i => adds (entries[i.val]?.toList.flatMap (product cfg x))⟩ :=
    congrArg (Launch.mk count) (funext fun i => cooSpmv_eq_adds h i)
  rw [hlaunch]
  constructor
  · rintro ⟨ls, s, hrun, hfinished, rfl⟩
    obtain ⟨ws, hws, hmemory⟩ := memory_of_adds hrun hfinished
    obtain ⟨entries', hperm, rfl⟩ :=
      exists_perm_entries (Multiset.coe_eq_coe.1 (hws.trans (sum_products h.le_count)))
    obtain ⟨out, hout, hget⟩ := spMv_ok hx entries'
    refine ⟨entries', hperm, out, hout, fun r => ?_⟩
    rw [hmemory, hget]
  · rintro ⟨entries', hperm, out, hout, hy⟩
    have hone : ∀ i : Fin count,
        (entries[i.val]?.toList.flatMap (product cfg x)).length ≤ 1 := by
      intro i
      cases entries[i.val]? with
      | none => exact Nat.zero_le 1
      | some e => simpa using length_product_le cfg x e
    have hws : (entries'.flatMap (product cfg x) : Multiset (ℕ × K)) =
        ∑ i : Fin count, (entries[i.val]?.toList.flatMap (product cfg x) : Multiset (ℕ × K)) := by
      rw [sum_products h.le_count]
      exact Multiset.coe_eq_coe.2 (hperm.flatMap_right _)
    obtain ⟨ls, s, hrun, hfinished, hmemory⟩ := exists_run_adds (m := fun _ => 0) hone hws
    refine ⟨ls, s, hrun, hfinished, hmemory.trans (funext fun r => ?_)⟩
    obtain ⟨out', hout', hget⟩ := spMv_ok hx entries'
    obtain rfl := Except.ok.inj (hout.symm.trans hout')
    rw [hy, hget]

/-- Three entries, the last one out of range. -/
def threeEntries : List (CooEntry ℕ) := [⟨0, 0, 3⟩, ⟨0, 1, 4⟩, ⟨5, 0, 9⟩]

theorem launched_spmv_iff_three :
    Launched (spmvLaunch ⟨1, 2⟩ threeEntries [10, 100] 256) (fun _ => 0) ([430].getD · 0) :=
  (launched_spmv_iff ⟨by decide, by decide, by decide, by decide, by decide⟩ rfl _).2
    ⟨threeEntries, .refl _, [430], rfl, fun _ => rfl⟩

section Comm

variable {K : Type} [AddCommMonoid K] [Mul K] {cfg : SparseConfig} {entries : List (CooEntry K)}
  {x : List K} {count : ℕ}

/-- Where addition commutes and associates, the order of the threads makes no difference. -/
theorem launched_spmv_of_comm (h : Fits cfg entries count) (hx : x.length = cfg.cols) {y : ℕ → K}
    (hy : Launched (spmvLaunch cfg entries x count) (fun _ => 0) y) :
    ∃ out, (GpuSparseStructureActor.mk cfg entries).spMv x = .ok out ∧
      ∀ r, y r = out.getD r 0 := by
  obtain ⟨entries', hperm, out', hout', hy⟩ := (launched_spmv_iff h hx y).1 hy
  obtain ⟨out, hout, hget⟩ := spMv_ok hx entries
  refine ⟨out, hout, fun r => ?_⟩
  obtain ⟨_, hok, hget'⟩ := spMv_ok hx entries'
  obtain rfl := Except.ok.inj (hout'.symm.trans hok)
  rw [hy, hget', hget, accumulate_apply, accumulate_apply]
  have hproducts := hperm.flatMap_right (product cfg x)
  rw [((hproducts.filter _).map Prod.snd).sum_eq]

end Comm

end Sparse

end Realtime

end AtomrAccel
