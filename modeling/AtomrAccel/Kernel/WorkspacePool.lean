import AtomrAccel.Lib.Buckets
import AtomrAccel.Lib.Region
import AtomrAccel.Lib.Transition
import AtomrAccel.Device.Error
import Mathlib.Algebra.Order.BigOperators.Group.List

/-!
# The cuBLASLt `WorkspacePool`

The pool keeps free slabs by their size class.  `acquire` takes one off the list of its class under
the lock, or allocates one after it has given the lock back; a lease puts its slab back when it is
dropped, as long as the list is not full.

* `sizeClass`, `popPooled`, `acquire`, `dropLease`: the pool;
* `Label`, `step`, `system`: the pool with its leases and the acquires between their two parts; the
  driver never hands out memory that is in use;
* `LeasesOk`: no slab is held twice, each is as long as it should be, and the bytes are counted;
* `along_leasesOk`: so it is in every run.
-/

namespace AtomrAccel

namespace BlasLt

open Transition

/-! ### The pool -/

/-- A `CudaSlice<u8>`: its device memory. -/
abbrev CudaSlice := Region

/-- `usize::MAX`. -/
def usizeMax : ℕ := 2 ^ 64 - 1

/-- `usize::saturating_add`. -/
def saturatingAdd (a b : ℕ) : ℕ := min (a + b) usizeMax

/-- The least power of two that is at least `n`. -/
def nextPowerOfTwo (n : ℕ) : ℕ := 2 ^ Nat.clog 2 n

/-- The power of two that holds a request. -/
def sizeClass (bytes : ℕ) : ℕ := nextPowerOfTwo (max bytes 1024)

/-- The last slab of a list in the source is the first one here. -/
structure WorkspacePoolInner where
  free : Buckets ℕ CudaSlice
  perClassCapacity : ℕ
  bytesPooled : ℕ

/-- A slab on loan, with its size class. -/
structure WorkspaceLease where
  slab : CudaSlice
  classOf : ℕ
  deriving DecidableEq, Repr

namespace WorkspacePoolInner

/-- An empty pool that keeps at least one slab of a class. -/
def withCapacity (perClass : ℕ) : WorkspacePoolInner := ⟨∅, max perClass 1, 0⟩

/-- The part of `acquire` under the lock; `-` on `ℕ` is `saturating_sub`. -/
def popPooled (p : WorkspacePoolInner) (classOf : ℕ) : WorkspacePoolInner × Option CudaSlice :=
  match p.free.lookup classOf with
  | some (s :: rest) =>
    ({ p with free := p.free.insert classOf rest, bytesPooled := p.bytesPooled - s.len }, some s)
  | some [] | none => (p, none)

/-- The part after it, with the answer of `stream.alloc`. -/
def freshSlab (classOf : ℕ) (alloc : Except String ℕ) : Except GpuError CudaSlice :=
  match alloc with
  | .error e =>
    .error (.outOfMemory ("cublaslt workspace alloc " ++ toString classOf ++ "B: " ++ e))
  | .ok ptr => .ok ⟨ptr, classOf⟩

/-- `acquire` with nothing in between. -/
def acquire (p : WorkspacePoolInner) (requestedBytes : ℕ) (alloc : Except String ℕ) :
    WorkspacePoolInner × Except GpuError WorkspaceLease :=
  let classOf := sizeClass (max requestedBytes 1)
  match p.popPooled classOf with
  | (p, some s) => (p, .ok ⟨s, classOf⟩)
  | (p, none) => (p, (freshSlab classOf alloc).map fun s => ⟨s, classOf⟩)

/-- `Drop for WorkspaceLease`. -/
def dropLease (p : WorkspacePoolInner) (lease : WorkspaceLease) : WorkspacePoolInner :=
  let bucket := p.free.bucket lease.classOf
  if bucket.length < p.perClassCapacity then
    { p with
      free := p.free.insert lease.classOf (lease.slab :: bucket)
      bytesPooled := saturatingAdd p.bytesPooled lease.slab.len }
  else { p with free := p.free.insert lease.classOf bucket }

/-- The slabs of all lists. -/
abbrev freeSlabs (p : WorkspacePoolInner) : List CudaSlice := p.free.items

end WorkspacePoolInner

/-! ### The pool with its leases -/

/-- A lease, and the bytes it was asked for. -/
structure Granted where
  requested : ℕ
  lease : WorkspaceLease
  deriving DecidableEq, Repr

/-- `allocating` holds the requests that found nothing in the pool. -/
structure State where
  pool : WorkspacePoolInner
  allocating : List ℕ
  leases : List Granted

namespace State

/-- An empty pool, and no leases. -/
def init (perClass : ℕ) : State := ⟨.withCapacity perClass, [], []⟩

/-- The slabs in leases and in the pool. -/
def held (s : State) : List CudaSlice :=
  s.leases.map (fun g => g.lease.slab) ++ s.pool.freeSlabs

/-- A lease of a slab is handed out. -/
def grant (s : State) (requested : ℕ) (slab : CudaSlice) : State :=
  { s with leases := s.leases ++ [⟨requested, slab, sizeClass (max requested 1)⟩] }

/-- Device memory the driver can hand out: it has an address, and none of it is in use. -/
def Allocatable (s : State) (slab : CudaSlice) : Prop :=
  0 < slab.ptr ∧ slab.ptr + slab.len ≤ 2 ^ 64 ∧ ∀ slab' ∈ s.held, slab.Apart slab'

instance (s : State) (slab : CudaSlice) : Decidable (s.Allocatable slab) :=
  inferInstanceAs (Decidable (_ ∧ _))

end State

/-- The steps of the pool and its users. -/
inductive Label
  /-- An `acquire` looks into the pool. -/
  | look (requested : ℕ)
  /-- An acquire that found nothing there gets its answer from the driver. -/
  | alloc (i : ℕ) (answer : Except String ℕ)
  /-- A lease is dropped. -/
  | drop (i : ℕ)

/-- One part of an acquire that holds the lock or calls the driver, or one drop. -/
def step (s : State) : Label → Option State
  | .look requested =>
    if sizeClass requested ≤ usizeMax then
      let classOf := sizeClass (max requested 1)
      match s.pool.popPooled classOf with
      | (pool, some slab) => some ({ s with pool := pool }.grant requested slab)
      | (pool, none) => some { s with pool := pool, allocating := s.allocating ++ [requested] }
    else none
  | .alloc i answer =>
    s.allocating[i]?.bind fun requested =>
      let classOf := sizeClass (max requested 1)
      let s' := { s with allocating := s.allocating.eraseIdx i }
      match WorkspacePoolInner.freshSlab classOf answer with
      | .error _ => some s'
      | .ok slab => if s.Allocatable slab then some (s'.grant requested slab) else none
  | .drop i =>
    s.leases[i]?.map fun g =>
      { s with pool := s.pool.dropLease g.lease, leases := s.leases.eraseIdx i }

/-- The pool with its users. -/
def system (perClass : ℕ) : System State Label := ⟨.init perClass, step⟩

/-! ### What is kept -/

/-- The slabs, the lists and the bytes are as they should be. -/
structure LeasesOk (perClass : ℕ) (s : State) : Prop where
  lease_len : ∀ g ∈ s.leases,
    g.lease.slab.len = sizeClass g.requested ∧ g.requested ≤ g.lease.slab.len
  held_once : s.held.Nodup
  held_apart : s.held.Pairwise Region.Apart
  bucket_length : ∀ classOf, (s.pool.free.bucket classOf).length ≤ max perClass 1
  bucket_len : ∀ classOf, ∀ slab ∈ s.pool.free.bucket classOf, slab.len = classOf
  bytes : s.pool.bytesPooled = (s.pool.freeSlabs.map Region.len).sum

/-! ### Sizes -/

theorem le_sizeClass (bytes : ℕ) : max bytes 1024 ≤ sizeClass bytes :=
  Nat.le_pow_clog (by decide) _

/-- The smallest class has room for a byte. -/
theorem sizeClass_max_one (bytes : ℕ) : sizeClass (max bytes 1) = sizeClass bytes := by
  rw [sizeClass, sizeClass, max_assoc, max_eq_right (show (1 : ℕ) ≤ 1024 by decide)]

theorem sizeClass_pos (bytes : ℕ) : 0 < sizeClass bytes := by
  have hle := le_sizeClass bytes
  omega

/-! ### The operations -/

namespace WorkspacePoolInner

variable {p : WorkspacePoolInner} {classOf : ℕ}

/-- A look into the pool takes a slab of the class, or finds none and changes nothing. -/
theorem popPooled_cases (p : WorkspacePoolInner) (classOf : ℕ) :
    p.popPooled classOf = (p, none) ∨
      ∃ slab rest, p.free.bucket classOf = slab :: rest ∧
        p.popPooled classOf = ({ p with
          free := p.free.insert classOf rest
          bytesPooled := p.bytesPooled - slab.len }, some slab) := by
  unfold popPooled Buckets.bucket
  rcases hlook : p.free.lookup classOf with _ | ⟨_ | ⟨slab, rest⟩⟩
  · exact .inl rfl
  · exact .inl rfl
  · exact .inr ⟨slab, rest, rfl, rfl⟩

theorem freshSlab_len {alloc : Except String ℕ} {slab : CudaSlice}
    (h : freshSlab classOf alloc = .ok slab) : slab.len = classOf := by
  unfold freshSlab at h
  split at h
  · cases h
  · cases h
    rfl

/-- An acquire that fails leaves the pool as it was. -/
theorem acquire_error {requestedBytes : ℕ} {alloc : Except String ℕ} {e : GpuError}
    (h : (p.acquire requestedBytes alloc).2 = .error e) :
    (p.acquire requestedBytes alloc).1 = p := by
  unfold acquire at h ⊢
  obtain hmiss | ⟨slab, rest, -, hhit⟩ := p.popPooled_cases (sizeClass (max requestedBytes 1))
  · simp only [hmiss]
  · simp only [hhit] at h
    cases h

end WorkspacePoolInner

/-! ### The invariant -/

/-- What the steps keep, from which `LeasesOk` follows. -/
structure Inv (perClass : ℕ) (s : State) : Prop where
  capacity : s.pool.perClassCapacity = max perClass 1
  granted : ∀ g ∈ s.leases,
    g.lease.classOf = sizeClass g.requested ∧ g.lease.slab.len = g.lease.classOf
  filed : ∀ classOf, ∀ slab ∈ s.pool.free.bucket classOf, slab.len = classOf
  room : ∀ classOf, (s.pool.free.bucket classOf).length ≤ max perClass 1
  bounds : ∀ slab ∈ s.held, 0 < slab.len ∧ 1 ≤ slab.ptr ∧ slab.ptr + slab.len ≤ 2 ^ 64
  apart : s.held.Pairwise Region.Apart
  bytes : s.pool.bytesPooled = (s.pool.freeSlabs.map Region.len).sum

namespace Inv

variable {perClass : ℕ} {s : State}

theorem leasesOk (h : Inv perClass s) : LeasesOk perClass s where
  lease_len g hg := by
    obtain ⟨hclass, hlen⟩ := h.granted g hg
    have hle := le_sizeClass g.requested
    rw [hlen, hclass]
    exact ⟨rfl, by omega⟩
  held_once := by
    refine h.apart.imp_of_mem fun {a b} ha hb hab heq => ?_
    exact hab.ptr_ne (h.bounds a ha).1 (h.bounds b hb).1 (congrArg Region.ptr heq)
  held_apart := h.apart
  bucket_length := h.room
  bucket_len := h.filed
  bytes := h.bytes

/-- All that is held fits in the address space: adding up its bytes never saturates. -/
theorem held_len_le (h : Inv perClass s) : (s.held.map Region.len).sum ≤ usizeMax :=
  Region.total_len_le h.apart fun slab hslab => (h.bounds slab hslab).2

theorem init (perClass : ℕ) : Inv perClass (State.init perClass) where
  capacity := rfl
  granted := by simp [State.init]
  filed _ _ hslab := absurd hslab List.not_mem_nil
  room _ := Nat.zero_le _
  bounds := by simp [State.held, State.init, WorkspacePoolInner.freeSlabs, Buckets.items,
    WorkspacePoolInner.withCapacity]
  apart := List.Pairwise.nil
  bytes := rfl

/-- Replacing one list of the pool. -/
theorem filed_insert {classOf : ℕ} {bucket : List CudaSlice}
    (h : Inv perClass s) (hlen : ∀ slab ∈ bucket, slab.len = classOf) (c : ℕ) :
    ∀ slab ∈ Buckets.bucket (s.pool.free.insert classOf bucket) c, slab.len = c := by
  by_cases hc : c = classOf
  · subst hc
    rw [Buckets.bucket_insert_self]
    exact hlen
  · rw [Buckets.bucket_insert_ne hc]
    exact h.filed c

theorem room_insert {classOf : ℕ} {bucket : List CudaSlice}
    (h : Inv perClass s) (hlen : bucket.length ≤ max perClass 1) (c : ℕ) :
    (Buckets.bucket (s.pool.free.insert classOf bucket) c).length ≤ max perClass 1 := by
  by_cases hc : c = classOf
  · subst hc
    rw [Buckets.bucket_insert_self]
    exact hlen
  · rw [Buckets.bucket_insert_ne hc]
    exact h.room c

/-- What a step leaves in the leases and in the pool is what was there, or less. -/
theorem of_subperm (h : Inv perClass s) {held : List CudaSlice} (hheld : held.Subperm s.held) :
    (∀ slab ∈ held, 0 < slab.len ∧ 1 ≤ slab.ptr ∧ slab.ptr + slab.len ≤ 2 ^ 64) ∧
      held.Pairwise Region.Apart := by
  refine ⟨fun slab hslab => h.bounds slab (hheld.subset hslab), ?_⟩
  obtain ⟨rest, hperm, hsub⟩ := hheld
  exact hperm.pairwise (h.apart.sublist hsub) fun {_ _} hab => hab.symm

theorem held_grant (s : State) (requested : ℕ) (slab : CudaSlice) :
    (s.grant requested slab).held.Perm (slab :: s.held) := by
  rw [State.held, State.grant, List.map_append, List.append_assoc]
  exact List.perm_middle

theorem granted_grant {requested : ℕ} {slab : CudaSlice}
    (h : ∀ g ∈ s.leases,
      g.lease.classOf = sizeClass g.requested ∧ g.lease.slab.len = g.lease.classOf)
    (hlen : slab.len = sizeClass (max requested 1)) :
    ∀ g ∈ (s.grant requested slab).leases,
      g.lease.classOf = sizeClass g.requested ∧ g.lease.slab.len = g.lease.classOf := by
  intro g hg
  rcases List.mem_append.1 hg with hg | hg
  · exact h g hg
  · obtain rfl := List.mem_singleton.1 hg
    exact ⟨sizeClass_max_one requested, hlen⟩

/-- A slab moves from the pool into a lease. -/
theorem hit (h : Inv perClass s) {requested : ℕ} {slab : CudaSlice} {rest : List CudaSlice}
    (hbucket : s.pool.free.bucket (sizeClass (max requested 1)) = slab :: rest) :
    Inv perClass ({ s with
      pool := { s.pool with
        free := s.pool.free.insert (sizeClass (max requested 1)) rest
        bytesPooled := s.pool.bytesPooled - slab.len } }.grant requested slab) := by
  have hfiled := h.filed (sizeClass (max requested 1))
  have hroom := h.room (sizeClass (max requested 1))
  rw [hbucket] at hfiled hroom
  obtain ⟨hslab, hrest⟩ := List.forall_mem_cons.1 hfiled
  have hfree := Buckets.items_pop hbucket
  have hheld : (slab :: (s.leases.map (fun g => g.lease.slab) ++
      Buckets.items (s.pool.free.insert (sizeClass (max requested 1)) rest))).Perm s.held :=
    List.perm_middle.symm.trans (hfree.symm.append_left _)
  have hgrant := held_grant { s with
    pool := { s.pool with
      free := s.pool.free.insert (sizeClass (max requested 1)) rest
      bytesPooled := s.pool.bytesPooled - slab.len } } requested slab
  obtain ⟨hbounds, hapart⟩ := h.of_subperm (hgrant.trans hheld).subperm
  refine ⟨h.capacity, granted_grant h.granted hslab, h.filed_insert hrest,
    h.room_insert ((Nat.le_succ _).trans hroom), hbounds, hapart, ?_⟩
  have hsum := (hfree.map Region.len).sum_eq
  rw [List.map_cons, List.sum_cons] at hsum
  show s.pool.bytesPooled - slab.len = _
  rw [h.bytes, hsum, Nat.add_sub_cancel_left]
  rfl

/-- A slab comes from the driver. -/
theorem fresh (h : Inv perClass s) {requested : ℕ} {slab : CudaSlice} (allocating : List ℕ)
    (hlen : slab.len = sizeClass (max requested 1)) (hfree : s.Allocatable slab) :
    Inv perClass ({ s with allocating := allocating }.grant requested slab) := by
  obtain ⟨hptr, hend, hapart⟩ := hfree
  have hheld := held_grant { s with allocating := allocating } requested slab
  refine ⟨h.capacity, granted_grant h.granted hlen, h.filed, h.room, ?_,
    hheld.symm.pairwise (List.pairwise_cons.2 ⟨hapart, h.apart⟩) fun {_ _} hab => hab.symm,
    h.bytes⟩
  intro a ha
  obtain rfl | ha := List.mem_cons.1 (hheld.mem_iff.1 ha)
  · exact ⟨hlen ▸ sizeClass_pos _, hptr, hend⟩
  · exact h.bounds a ha

/-- The slab of a lease comes first among what is held. -/
theorem held_erase {i : ℕ} {g : Granted} (hg : s.leases[i]? = some g) :
    s.held.Perm (g.lease.slab ::
      ((s.leases.eraseIdx i).map (fun g => g.lease.slab) ++ s.pool.freeSlabs)) := by
  obtain ⟨hi, rfl⟩ := List.getElem?_eq_some_iff.1 hg
  exact ((List.getElem_cons_eraseIdx_perm hi).symm.map fun g => g.lease.slab).append_right _

theorem granted_erase (h : Inv perClass s) (i : ℕ) : ∀ g ∈ s.leases.eraseIdx i,
    g.lease.classOf = sizeClass g.requested ∧ g.lease.slab.len = g.lease.classOf :=
  fun g hg => h.granted g (List.mem_of_mem_eraseIdx hg)

/-- A dropped lease puts its slab into the pool. -/
theorem pooled (h : Inv perClass s) {i : ℕ} {g : Granted} (hg : s.leases[i]? = some g)
    (hroom : (s.pool.free.bucket g.lease.classOf).length < s.pool.perClassCapacity) :
    Inv perClass { s with
      pool := { s.pool with
        free := s.pool.free.insert g.lease.classOf
          (g.lease.slab :: s.pool.free.bucket g.lease.classOf)
        bytesPooled := saturatingAdd s.pool.bytesPooled g.lease.slab.len }
      leases := s.leases.eraseIdx i } := by
  have hlen := (h.granted g (List.mem_of_getElem? hg)).2
  have hfree := s.pool.free.items_push g.lease.classOf g.lease.slab
  have hheld := held_erase hg
  have hheld' : ((s.leases.eraseIdx i).map (fun g => g.lease.slab) ++ Buckets.items
      (s.pool.free.insert g.lease.classOf
        (g.lease.slab :: s.pool.free.bucket g.lease.classOf))).Perm s.held :=
    (hfree.append_left _).trans (List.perm_middle.trans hheld.symm)
  obtain ⟨hbounds, hapart⟩ := h.of_subperm hheld'.subperm
  refine ⟨h.capacity, h.granted_erase i,
    h.filed_insert (List.forall_mem_cons.2 ⟨hlen, h.filed _⟩), h.room_insert ?_, hbounds,
    hapart, ?_⟩
  · rw [List.length_cons, ← h.capacity]
    exact hroom
  · -- no more bytes are pooled than there are addresses
    have hsum := (hfree.map Region.len).sum_eq
    have hfits := h.held_len_le
    rw [(hheld.map Region.len).sum_eq, List.map_cons, List.sum_cons, List.map_append,
      List.sum_append] at hfits
    rw [List.map_cons, List.sum_cons] at hsum
    show min (s.pool.bytesPooled + g.lease.slab.len) usizeMax = _
    rw [h.bytes, hsum, min_eq_left (by omega), Nat.add_comm]

/-- A dropped lease whose list is full frees its slab. -/
theorem freed (h : Inv perClass s) {i : ℕ} {g : Granted} (hg : s.leases[i]? = some g) :
    Inv perClass { s with
      pool := { s.pool with
        free := s.pool.free.insert g.lease.classOf (s.pool.free.bucket g.lease.classOf) }
      leases := s.leases.eraseIdx i } := by
  have hfree := s.pool.free.items_insert_bucket g.lease.classOf
  have hheld : ((s.leases.eraseIdx i).map (fun g => g.lease.slab) ++ Buckets.items
      (s.pool.free.insert g.lease.classOf (s.pool.free.bucket g.lease.classOf))).Subperm s.held :=
    (hfree.append_left _).subperm.trans
      ((List.sublist_cons_self g.lease.slab _).subperm.trans (held_erase hg).symm.subperm)
  obtain ⟨hbounds, hapart⟩ := h.of_subperm hheld
  refine ⟨h.capacity, h.granted_erase i, h.filed_insert (h.filed _), h.room_insert (h.room _),
    hbounds, hapart, ?_⟩
  exact h.bytes.trans (hfree.map Region.len).sum_eq.symm

theorem next {l : Label} {s' : State} (h : Inv perClass s) (hstep : step s l = some s') :
    Inv perClass s' := by
  cases l with
  | look requested =>
    simp only [step] at hstep
    split at hstep
    · obtain hmiss | ⟨slab, rest, hbucket, hhit⟩ :=
        s.pool.popPooled_cases (sizeClass (max requested 1))
      · rw [hmiss] at hstep
        cases hstep
        exact ⟨h.capacity, h.granted, h.filed, h.room, h.bounds, h.apart, h.bytes⟩
      · rw [hhit] at hstep
        cases hstep
        exact h.hit hbucket
    · cases hstep
  | alloc i answer =>
    obtain ⟨requested, -, hstep⟩ := Option.bind_eq_some_iff.1 hstep
    cases hslab : WorkspacePoolInner.freshSlab (sizeClass (max requested 1)) answer with
    | error e =>
      simp only [hslab] at hstep
      cases hstep
      exact ⟨h.capacity, h.granted, h.filed, h.room, h.bounds, h.apart, h.bytes⟩
    | ok slab =>
      simp only [hslab] at hstep
      split at hstep
      · rename_i hfree
        cases hstep
        exact h.fresh _ (WorkspacePoolInner.freshSlab_len hslab) hfree
      · cases hstep
  | drop i =>
    obtain ⟨g, hg, rfl⟩ := Option.map_eq_some_iff.1 hstep
    by_cases hroom : (s.pool.free.bucket g.lease.classOf).length < s.pool.perClassCapacity
    · rw [WorkspacePoolInner.dropLease, if_pos hroom]
      exact h.pooled hg hroom
    · rw [WorkspacePoolInner.dropLease, if_neg hroom]
      exact h.freed hg

end Inv

/-! ### Failed acquires -/

/-- A look that hands out no lease changes nothing in the pool. -/
theorem step_look_miss {s s' : State} {requested : ℕ} (h : step s (.look requested) = some s')
    (hmiss : s'.leases = s.leases) : s'.pool = s.pool := by
  simp only [step] at h
  split at h
  · obtain hnone | ⟨slab, rest, -, hhit⟩ := s.pool.popPooled_cases (sizeClass (max requested 1))
    · rw [hnone] at h
      cases h
      rfl
    · rw [hhit] at h
      cases h
      have hlen := congrArg List.length hmiss
      simp [State.grant] at hlen
  · cases h

/-- Nor does an allocation that fails. -/
theorem step_alloc_error {s s' : State} {i : ℕ} {e : String}
    (h : step s (.alloc i (.error e)) = some s') : s'.pool = s.pool ∧ s'.leases = s.leases := by
  obtain ⟨requested, -, h⟩ := Option.bind_eq_some_iff.1 h
  cases h
  exact ⟨rfl, rfl⟩

/-- In every run of acquires and drops no slab is held twice, leases have the slabs they should,
the lists of the pool hold slabs of their class and no more than they may, and the bytes are
counted; an acquire that fails changes nothing in the pool. -/
theorem along_leasesOk (perClass : ℕ) :
    (∀ ls : List Label, (system perClass).Along (LeasesOk perClass) (.init perClass) ls) ∧
      (∀ (s s' : State) (requested : ℕ), step s (.look requested) = some s' →
        s'.leases = s.leases → s'.pool = s.pool) ∧
      (∀ (s s' : State) (i : ℕ) (e : String), step s (.alloc i (.error e)) = some s' →
        s'.pool = s.pool ∧ s'.leases = s.leases) ∧
      ∀ (p : WorkspacePoolInner) (requested : ℕ) (alloc : Except String ℕ) (e : GpuError),
        (p.acquire requested alloc).2 = .error e → (p.acquire requested alloc).1 = p :=
  ⟨System.along_of_inv (fun _ h => h.leasesOk) (fun _ _ _ h hstep => h.next hstep)
      (Inv.init perClass),
    fun _ _ _ => step_look_miss, fun _ _ _ _ => step_alloc_error,
    fun _ _ _ _ => WorkspacePoolInner.acquire_error⟩

end BlasLt

end AtomrAccel
