import AtomrAccel.Lib.Transition
import AtomrAccel.Device.Error

/-!
# `PinnedBufferPool`: accounting over restarts

The pool hands out page-locked slots and takes them back when their handles are dropped.  It keeps
four numbers: the slots in use, the slots it has minted, the bytes they hold and its generation.
`pre_restart` drops the free list, zeroes the numbers and moves to the next generation while
handles of the old one are still out; when such a handle comes back, `return_slot` frees its slot
and takes it off the numbers a second time.

* `PinnedBufferPool`, `tryAcquire`, `returnSlot`, `preRestart`, `handle`: the pool;
* `Pool`, `Op`, `step`: the pool with its outstanding handles;
* `Accounted`: the numbers are those of the free slots and of the outstanding slots of the current
  generation;
* `OpOk`, `along_accounted_iff`: the runs that stay accounted are those in which a handle of an
  earlier generation comes back only while nothing of the current one has been minted;
* `AllocationFails`, `atomic_acquire_iff`: an acquire counts its slot before it allocates it, so a
  failed allocation is the one error that does not leave the pool as it was.
-/

namespace AtomrAccel

namespace Pinned

/-- The number of restarts. -/
abbrev PinnedGeneration := UInt64

/-- The configuration. -/
structure PinnedBufferPoolConfig where
  maxBuffers : ℕ
  bufferCapacityBytes : ℕ
  allowOversize : Bool
  deriving DecidableEq, Repr

/-- A slot.  `mintedIn` is not a field of the source: it records the generation the slot was
allocated in. -/
structure PinnedSlot where
  ptr : ℕ
  capacityBytes : ℕ
  oversize : Bool
  mintedIn : PinnedGeneration
  deriving DecidableEq, Repr

/-- `PinnedSlot::new`, with the answer of `malloc_host`. -/
def PinnedSlot.new (capacityBytes : ℕ) (oversize : Bool) (mintedIn : PinnedGeneration)
    (malloc : Except String ℕ) : Except GpuError PinnedSlot :=
  match malloc with
  | .error e => .error (.outOfMemory ("pinned alloc " ++ toString capacityBytes ++ "B: " ++ e))
  | .ok ptr => .ok ⟨ptr, capacityBytes, oversize, mintedIn⟩

/-- A handle: its buffer, and the generation it was handed out in. -/
structure PinnedBufHandle where
  slot : PinnedSlot
  generation : PinnedGeneration
  deriving DecidableEq, Repr

/-- What `Stats` answers. -/
structure PinnedPoolStats where
  inUse : ℕ
  free : ℕ
  total : ℕ
  bytesAllocated : ℕ
  deriving DecidableEq, Repr

/-- The actor: its free buffers and its books. -/
structure PinnedBufferPool where
  config : PinnedBufferPoolConfig
  free : List PinnedSlot
  inUse : ℕ
  totalMinted : ℕ
  bytesAllocated : ℕ
  generation : PinnedGeneration
  deriving DecidableEq, Repr

/-- The messages of the pool. -/
inductive PinnedPoolMsg
  | acquire (lenBytes : ℕ)
  | internalReturn (slot : PinnedSlot) (generation : PinnedGeneration)
  | stats
  deriving DecidableEq, Repr

/-- What goes back on the reply channels. -/
inductive PinnedPoolReply
  | acquired (result : Except GpuError PinnedBufHandle)
  | stats (stats : PinnedPoolStats)

namespace PinnedBufferPool

/-- The instance `Props` creates; slots are minted on the first acquire. -/
def new (config : PinnedBufferPoolConfig) : PinnedBufferPool := ⟨config, [], 0, 0, 0, 0⟩

/-- The books. -/
def stats (p : PinnedBufferPool) : PinnedPoolStats :=
  ⟨p.inUse, p.free.length, p.totalMinted, p.bytesAllocated⟩

/-- Count a slot of `capacity` bytes, then allocate it: the numbers keep the slot even when the
allocation fails. -/
def mint (p : PinnedBufferPool) (capacity : ℕ) (oversize : Bool) (malloc : Except String ℕ) :
    PinnedBufferPool × Except GpuError PinnedBufHandle :=
  let p := { p with
    bytesAllocated := p.bytesAllocated + capacity
    totalMinted := p.totalMinted + 1 }
  match PinnedSlot.new capacity oversize p.generation malloc with
  | .error e => (p, .error e)
  | .ok slot => ({ p with inUse := p.inUse + 1 }, .ok ⟨slot, p.generation⟩)

/-- A free buffer, or a new one as long as there may be more. -/
def tryAcquire (p : PinnedBufferPool) (lenBytes : ℕ) (malloc : Except String ℕ) :
    PinnedBufferPool × Except GpuError PinnedBufHandle :=
  let cap := p.config.bufferCapacityBytes
  if cap < lenBytes then
    if !p.config.allowOversize then
      (p, .error (.outOfMemory ("pinned pool: oversize request " ++ toString lenBytes ++
        "B exceeds slot capacity " ++ toString cap ++ "B")))
    else p.mint lenBytes true malloc
  else match p.free with
    | slot :: rest => ({ p with free := rest, inUse := p.inUse + 1 }, .ok ⟨slot, p.generation⟩)
    | [] =>
      if p.config.maxBuffers ≤ p.totalMinted then
        (p, .error (.outOfMemory ("pinned pool: max_buffers=" ++ toString p.config.maxBuffers ++
          " reached")))
      else p.mint cap false malloc

/-- The slot is freed, not pooled, and taken off the numbers. -/
def discard (p : PinnedBufferPool) (slot : PinnedSlot) : PinnedBufferPool :=
  { p with
    bytesAllocated := p.bytesAllocated - slot.capacityBytes
    totalMinted := p.totalMinted - 1 }

/-- `return_slot`; `-` on `ℕ` is `saturating_sub`. -/
def returnSlot (p : PinnedBufferPool) (slot : PinnedSlot) (generation : PinnedGeneration) :
    PinnedBufferPool :=
  if generation ≠ p.generation then p.discard slot
  else
    let p := { p with inUse := p.inUse - 1 }
    if slot.oversize then p.discard slot else { p with free := p.free ++ [slot] }

/-- A new generation, with empty books. -/
def preRestart (p : PinnedBufferPool) : PinnedBufferPool :=
  { p with free := [], generation := p.generation + 1, inUse := 0, totalMinted := 0,
           bytesAllocated := 0 }

/-- The reply of `Acquire` carries a handle of the present generation. -/
def handle (p : PinnedBufferPool) (malloc : Except String ℕ) :
    PinnedPoolMsg → PinnedBufferPool × Option PinnedPoolReply
  | .acquire lenBytes =>
    let r := p.tryAcquire lenBytes malloc
    (r.1, some (.acquired r.2))
  | .internalReturn slot generation => (p.returnSlot slot generation, none)
  | .stats => (p, some (.stats p.stats))

end PinnedBufferPool

/-! ### The pool with its handles -/

/-- The pool and the handles whose `InternalReturn` it has not handled yet. -/
structure Pool where
  pool : PinnedBufferPool
  outstanding : List PinnedBufHandle
  deriving DecidableEq, Repr

/-- The steps of the pool and its clients. -/
inductive Op
  /-- an `Acquire`, with the address a successful allocation returns -/
  | acquire (lenBytes ptr : ℕ)
  /-- the `InternalReturn` of this handle -/
  | internalReturn (handle : PinnedBufHandle)
  | stats
  /-- `pre_restart` -/
  | restart
  deriving DecidableEq, Repr

/-- The handle a reply carries. -/
def PinnedPoolReply.handle? : PinnedPoolReply → Option PinnedBufHandle
  | .acquired (.ok h) => some h
  | _ => none

namespace Pool

/-- A pool that nobody has used. -/
def new (config : PinnedBufferPoolConfig) : Pool := ⟨PinnedBufferPool.new config, []⟩

/-- One step of the pool and its clients. -/
def step (s : Pool) : Op → Option Pool
  | .acquire lenBytes ptr =>
    let r := s.pool.handle (.ok ptr) (.acquire lenBytes)
    some ⟨r.1, (r.2.bind PinnedPoolReply.handle?).toList ++ s.outstanding⟩
  | .internalReturn h =>
    if h ∈ s.outstanding then
      some ⟨(s.pool.handle (.ok 0) (.internalReturn h.slot h.generation)).1,
        s.outstanding.erase h⟩
    else none
  | .stats => some { s with pool := (s.pool.handle (.ok 0) .stats).1 }
  | .restart => some { s with pool := s.pool.preRestart }

/-- The outstanding handles of the current generation. -/
def current (s : Pool) : List PinnedBufHandle :=
  s.outstanding.filter fun h => h.generation = s.pool.generation

/-- The slots the numbers are about. -/
def slots (s : Pool) : List PinnedSlot := s.pool.free ++ s.current.map PinnedBufHandle.slot

/-- The numbers of the pool tell the truth. -/
structure Accounted (s : Pool) : Prop where
  total : s.pool.totalMinted = s.pool.free.length + s.pool.inUse
  inUse : s.pool.inUse = s.current.length
  bytes : s.pool.bytesAllocated = (s.slots.map PinnedSlot.capacityBytes).sum
  bound : s.slots.countP (fun slot => !slot.oversize) ≤ s.pool.config.maxBuffers
  fresh : ∀ slot ∈ s.pool.free, slot.mintedIn = s.pool.generation

end Pool

/-- What an operation has to find. -/
def OpOk (s : Pool) : Op → Prop
  | .internalReturn h => h.generation ≠ s.pool.generation → s.pool.totalMinted = 0
  -- the counter does not run into the stamp of an outstanding handle
  | .restart => ∀ h ∈ s.outstanding, h.generation ≠ s.pool.generation + 1
  | .acquire _ _ | .stats => True

/-- The pool with its clients. -/
def system (config : PinnedBufferPoolConfig) : Transition.System Pool Op :=
  ⟨Pool.new config, Pool.step⟩

/-! ### What one operation does to the numbers -/

/-- With an allocation that succeeds, an acquire is refused, mints a slot, or pops a free one. -/
theorem PinnedBufferPool.tryAcquire_cases (p : PinnedBufferPool) (lenBytes ptr : ℕ) :
    ((p.tryAcquire lenBytes (.ok ptr)).1 = p ∧
      ∀ h, (p.tryAcquire lenBytes (.ok ptr)).2 ≠ .ok h) ∨
    (∃ cap oversize, (oversize = false → p.totalMinted < p.config.maxBuffers) ∧
      p.tryAcquire lenBytes (.ok ptr) =
        ({ p with
            bytesAllocated := p.bytesAllocated + cap
            totalMinted := p.totalMinted + 1
            inUse := p.inUse + 1 },
          .ok ⟨⟨ptr, cap, oversize, p.generation⟩, p.generation⟩)) ∨
    (∃ slot rest, p.free = slot :: rest ∧
      p.tryAcquire lenBytes (.ok ptr) =
        ({ p with free := rest, inUse := p.inUse + 1 }, .ok ⟨slot, p.generation⟩)) := by
  unfold tryAcquire
  by_cases hover : p.config.bufferCapacityBytes < lenBytes
  · by_cases hallow : p.config.allowOversize = true
    · refine .inr (.inl ⟨lenBytes, true, by simp, ?_⟩)
      simp [hover, hallow, mint, PinnedSlot.new]
    · exact .inl (by simp [hover, hallow])
  · cases hfree : p.free with
    | cons slot rest =>
      refine .inr (.inr ⟨slot, rest, rfl, ?_⟩)
      simp only [hover, if_false]
    | nil =>
      by_cases hmax : p.config.maxBuffers ≤ p.totalMinted
      · exact .inl (by simp [hover, hmax])
      · refine .inr (.inl ⟨p.config.bufferCapacityBytes, false, fun _ => not_le.1 hmax, ?_⟩)
        simp [hover, hmax, mint, PinnedSlot.new, hfree]

theorem PinnedBufferPool.returnSlot_foreign {p : PinnedBufferPool} {g : PinnedGeneration}
    (h : g ≠ p.generation) (slot : PinnedSlot) : p.returnSlot slot g = p.discard slot := if_pos h

theorem PinnedBufferPool.returnSlot_oversize {p : PinnedBufferPool} {slot : PinnedSlot}
    (h : slot.oversize = true) :
    p.returnSlot slot p.generation = { p with inUse := p.inUse - 1 }.discard slot := by
  simp [returnSlot, h]

theorem PinnedBufferPool.returnSlot_pooled {p : PinnedBufferPool} {slot : PinnedSlot}
    (h : ¬ slot.oversize = true) :
    p.returnSlot slot p.generation =
      { p with inUse := p.inUse - 1, free := p.free ++ [slot] } := by
  simp [returnSlot, h]

namespace Pool

/-- The numbers tell the truth, and every outstanding handle carries the generation its slot was
minted in. -/
structure Inv (s : Pool) : Prop where
  accounted : s.Accounted
  stamped : ∀ h ∈ s.outstanding, h.slot.mintedIn = h.generation

theorem inv_new (config : PinnedBufferPoolConfig) : (new config).Inv where
  accounted := by constructor <;> simp [new, PinnedBufferPool.new, current, slots]
  stamped := by simp [new]

variable {s s' : Pool}

/-- The slots of the pool never outnumber what it has minted. -/
theorem Accounted.countP_le (h : s.Accounted) (p : PinnedSlot → Bool) :
    s.slots.countP p ≤ s.pool.totalMinted := by
  have hlen : s.slots.length = s.pool.totalMinted := by
    rw [h.total, h.inUse, slots, List.length_append, List.length_map]
  exact hlen ▸ List.countP_le_length

/-- A slot more, as far as the slots of the pool are concerned. -/
theorem capacity_of_perm {slot : PinnedSlot} (h : s'.slots.Perm (slot :: s.slots)) :
    (s'.slots.map PinnedSlot.capacityBytes).sum =
        slot.capacityBytes + (s.slots.map PinnedSlot.capacityBytes).sum ∧
      s'.slots.countP (fun slot => !slot.oversize) =
        s.slots.countP (fun slot => !slot.oversize) + if slot.oversize then 0 else 1 := by
  refine ⟨by simpa using (h.map PinnedSlot.capacityBytes).sum_eq, ?_⟩
  rw [h.countP_eq, List.countP_cons]
  cases slot.oversize <;> rfl

/-- A fresh slot goes out with a handle of the current generation. -/
theorem inv_mint (h : s.Inv) {slot : PinnedSlot} (hslot : slot.mintedIn = s.pool.generation)
    (hroom : slot.oversize = false → s.pool.totalMinted < s.pool.config.maxBuffers) :
    Inv ⟨{ s.pool with
        bytesAllocated := s.pool.bytesAllocated + slot.capacityBytes
        totalMinted := s.pool.totalMinted + 1
        inUse := s.pool.inUse + 1 }, ⟨slot, s.pool.generation⟩ :: s.outstanding⟩ := by
  have hperm : (Pool.slots ⟨{ s.pool with
      bytesAllocated := s.pool.bytesAllocated + slot.capacityBytes
      totalMinted := s.pool.totalMinted + 1
      inUse := s.pool.inUse + 1 }, ⟨slot, s.pool.generation⟩ :: s.outstanding⟩).Perm
      (slot :: s.slots) := by
    simp [slots, current]
  obtain ⟨hsum, hcountP⟩ := capacity_of_perm hperm
  have hcount := h.accounted.countP_le fun slot => !slot.oversize
  obtain ⟨⟨htotal, huse, hbytes, hbound, hfresh⟩, hstamped⟩ := h
  refine ⟨⟨?_, by simp [current, huse], ?_, hcountP.trans_le ?_, hfresh⟩, ?_⟩
  · simp only [htotal]
    omega
  · exact (by rw [hbytes, add_comm] :
      s.pool.bytesAllocated + slot.capacityBytes = _).trans hsum.symm
  · by_cases hover : slot.oversize = true
    · rw [if_pos hover]
      exact hbound
    · rw [if_neg hover]
      exact (Nat.succ_le_succ hcount).trans (hroom (by simpa using hover))
  · exact List.forall_mem_cons.2 ⟨hslot, hstamped⟩

/-- A free slot goes out again. -/
theorem inv_pop (h : s.Inv) {slot : PinnedSlot} {rest : List PinnedSlot}
    (hfree : s.pool.free = slot :: rest) :
    Inv ⟨{ s.pool with free := rest, inUse := s.pool.inUse + 1 },
      ⟨slot, s.pool.generation⟩ :: s.outstanding⟩ := by
  obtain ⟨⟨htotal, huse, hbytes, hbound, hfresh⟩, hstamped⟩ := h
  rw [hfree] at hfresh
  have hperm : (slots ⟨{ s.pool with free := rest, inUse := s.pool.inUse + 1 },
      ⟨slot, s.pool.generation⟩ :: s.outstanding⟩).Perm s.slots := by
    simp [slots, current, hfree]
  refine ⟨⟨?_, by simp [current, huse], ?_, ?_, ?_⟩, ?_⟩
  · simp only [htotal, hfree, List.length_cons]
    omega
  · exact hbytes.trans (hperm.map _).sum_eq.symm
  · exact (hperm.countP_eq _).trans_le hbound
  · exact fun slot' hslot' => hfresh slot' (List.mem_cons_of_mem _ hslot')
  · exact List.forall_mem_cons.2 ⟨hfresh slot List.mem_cons_self, hstamped⟩

theorem inv_acquire (h : s.Inv) {lenBytes ptr : ℕ}
    (hs : s.step (.acquire lenBytes ptr) = some s') : s'.Inv := by
  cases hs
  rcases s.pool.tryAcquire_cases lenBytes ptr with ⟨hsame, hnone⟩ | ⟨cap, oversize, hroom, hmint⟩ |
    ⟨slot, rest, hfree, hpop⟩
  · have hnone' : PinnedPoolReply.handle? (.acquired (s.pool.tryAcquire lenBytes (.ok ptr)).2) =
        none := by
      unfold PinnedPoolReply.handle?
      split
      · rename_i h' heq
        exact absurd (PinnedPoolReply.acquired.inj heq) (hnone h')
      · rfl
    simpa [PinnedBufferPool.handle, hsame, hnone'] using h
  · simpa [PinnedBufferPool.handle, hmint, PinnedPoolReply.handle?] using
      inv_mint h (rfl : PinnedSlot.mintedIn ⟨ptr, cap, oversize, s.pool.generation⟩ = _) hroom
  · simpa [PinnedBufferPool.handle, hpop, PinnedPoolReply.handle?] using inv_pop h hfree

/-- The handles of the current generation when one of them comes back. -/
theorem current_perm {h : PinnedBufHandle} (hmem : h ∈ s.outstanding)
    (hgen : h.generation = s.pool.generation) :
    s.current.Perm (h :: (s.outstanding.erase h).filter
      fun h' => h'.generation = s.pool.generation) := by
  have hperm := (List.perm_cons_erase hmem).filter fun h' => h'.generation = s.pool.generation
  rwa [List.filter_cons_of_pos (by simpa using hgen)] at hperm

/-- A handle of another generation leaves the current ones as they are. -/
theorem current_of_ne {h : PinnedBufHandle} (hmem : h ∈ s.outstanding)
    (hgen : h.generation ≠ s.pool.generation) :
    s.current.Perm ((s.outstanding.erase h).filter
      fun h' => h'.generation = s.pool.generation) := by
  have hperm := (List.perm_cons_erase hmem).filter fun h' => h'.generation = s.pool.generation
  rwa [List.filter_cons_of_neg (by simpa using hgen)] at hperm

/-- A handle of the current generation comes back. -/
theorem inv_return (h : s.Inv) {handle : PinnedBufHandle} (hmem : handle ∈ s.outstanding)
    (hgen : handle.generation = s.pool.generation) :
    Inv ⟨s.pool.returnSlot handle.slot handle.generation, s.outstanding.erase handle⟩ := by
  have hcur := current_perm hmem hgen
  obtain ⟨⟨htotal, huse, hbytes, hbound, hfresh⟩, hstamped⟩ := h
  have hlen := hcur.length_eq
  have hstamped' : ∀ h ∈ s.outstanding.erase handle, h.slot.mintedIn = h.generation :=
    fun h hh => hstamped h (List.mem_of_mem_erase hh)
  have hslots : s.slots.Perm (handle.slot :: (s.pool.free ++
      ((s.outstanding.erase handle).filter fun h' => h'.generation = s.pool.generation).map
        PinnedBufHandle.slot)) :=
    ((hcur.map PinnedBufHandle.slot).append_left s.pool.free).trans List.perm_middle
  replace huse := huse.trans hlen
  replace hbytes := hbytes.trans (hslots.map PinnedSlot.capacityBytes).sum_eq
  rw [hslots.countP_eq] at hbound
  simp only [List.map_cons, List.sum_cons, List.countP_cons, List.length_cons] at huse hbytes hbound
  by_cases hover : handle.slot.oversize = true
  · rw [hgen, PinnedBufferPool.returnSlot_oversize hover, PinnedBufferPool.discard]
    refine ⟨⟨?_, ?_, ?_, ?_, hfresh⟩, hstamped'⟩
    · simp only [htotal]
      omega
    · simp only [huse, current]
      omega
    · simp only [hbytes, slots, current]
      omega
    · simpa [slots, current, hover] using hbound
  · rw [hgen, PinnedBufferPool.returnSlot_pooled hover]
    refine ⟨⟨?_, ?_, ?_, ?_, ?_⟩, hstamped'⟩
    · simp only [htotal, List.length_append, List.length_singleton]
      omega
    · simp only [huse, current]
      omega
    · simp only [hbytes, slots, current, List.map_append, List.sum_append, List.map_cons,
        List.map_nil, List.sum_cons, List.sum_nil]
      omega
    · have hpos : (!handle.slot.oversize) = true := by simpa using hover
      simp only [slots, current, List.countP_append, List.countP_cons, List.countP_nil, hpos,
        if_true] at hbound ⊢
      omega
    · intro slot hslot
      rcases List.mem_append.1 hslot with hslot | hslot
      · exact hfresh slot hslot
      · rw [List.mem_singleton.1 hslot, hstamped handle hmem, hgen]

/-- The return of a handle of an earlier generation is counted as one of the current one. -/
theorem accounted_foreign_iff (h : s.Inv) {handle : PinnedBufHandle} (hmem : handle ∈ s.outstanding)
    (hgen : handle.generation ≠ s.pool.generation) :
    Accounted ⟨s.pool.discard handle.slot, s.outstanding.erase handle⟩ ↔
      s.pool.totalMinted = 0 := by
  have hcur := current_of_ne hmem hgen
  obtain ⟨htotal, huse, hbytes, hbound, hfresh⟩ := h.accounted
  unfold PinnedBufferPool.discard
  constructor
  · rintro ⟨htotal', -, -, -, -⟩
    -- one less was minted, with as many slots as before
    simp only [← htotal] at htotal'
    omega
  · intro hzero
    have hslots : s.slots.Perm (s.pool.free ++ ((s.outstanding.erase handle).filter
        fun h' => h'.generation = s.pool.generation).map PinnedBufHandle.slot) :=
      (hcur.map PinnedBufHandle.slot).append_left s.pool.free
    have hnil : s.slots = [] := by
      rw [hzero] at htotal
      have hlen : s.slots.length = 0 := by
        rw [slots, List.length_append, List.length_map, ← huse]
        omega
      exact List.length_eq_zero_iff.1 hlen
    rw [hnil] at hbytes hslots
    have hnil' := hslots.symm.eq_nil
    refine ⟨by simp only [hzero]; omega, huse.trans hcur.length_eq, ?_, ?_, hfresh⟩
    · simp only [slots, current]
      rw [hnil', hbytes]
      simp
    · simp only [slots, current]
      rw [hnil']
      simp

/-- After a restart nothing is counted, which is right when the new generation has no handle. -/
theorem accounted_restart_iff (s : Pool) :
    Accounted { s with pool := s.pool.preRestart } ↔
      ∀ handle ∈ s.outstanding, handle.generation ≠ s.pool.generation + 1 := by
  constructor
  · rintro ⟨-, huse, -, -, -⟩ handle hmem hgen
    have hempty : (s.outstanding.filter fun h' =>
        h'.generation = s.pool.generation + 1) = [] := List.length_eq_zero_iff.1 huse.symm
    have := List.filter_eq_nil_iff.1 hempty handle hmem
    simp [hgen] at this
  · intro hnone
    have hempty : current { s with pool := s.pool.preRestart } = [] :=
      List.filter_eq_nil_iff.2 fun handle hmem hgen =>
        hnone handle hmem (of_decide_eq_true hgen)
    have hslots : slots { s with pool := s.pool.preRestart } = [] := by
      rw [slots, hempty]
      rfl
    refine ⟨rfl, by rw [hempty]; rfl, by rw [hslots]; rfl, by rw [hslots]; exact Nat.zero_le _, ?_⟩
    exact fun slot hslot => absurd hslot List.not_mem_nil

/-- An operation out of an invariant state keeps the numbers true exactly when it finds `OpOk`. -/
theorem accounted_step_iff (h : s.Inv) {op : Op} (hs : s.step op = some s') :
    s'.Accounted ↔ OpOk s op := by
  cases op with
  | acquire lenBytes ptr => exact iff_of_true (inv_acquire h hs).accounted trivial
  | stats =>
    cases hs
    exact iff_of_true h.accounted trivial
  | internalReturn handle =>
    simp only [step] at hs
    split_ifs at hs with hmem
    cases hs
    by_cases hgen : handle.generation = s.pool.generation
    · exact iff_of_true (inv_return h hmem hgen).accounted fun hne => absurd hgen hne
    · simp only [PinnedBufferPool.handle, PinnedBufferPool.returnSlot_foreign hgen, OpOk, ne_eq,
        hgen, not_false_eq_true, forall_const]
      exact accounted_foreign_iff h hmem hgen
  | restart =>
    cases hs
    exact accounted_restart_iff s

theorem inv_step (h : s.Inv) {op : Op} (hop : OpOk s op) (hs : s.step op = some s') : s'.Inv := by
  refine ⟨(accounted_step_iff h hs).2 hop, ?_⟩
  cases op with
  | acquire lenBytes ptr => exact (inv_acquire h hs).stamped
  | stats | restart =>
    cases hs
    exact h.stamped
  | internalReturn handle =>
    simp only [step] at hs
    split_ifs at hs
    cases hs
    exact fun h' hh' => h.stamped h' (List.mem_of_mem_erase hh')

end Pool

/-! ### Whole runs -/

/-- **A run keeps the numbers of the pool true exactly when every handle of an earlier generation
comes back while nothing of the current one has been minted, and no restart runs the generation
into that of an outstanding handle.** -/
theorem along_accounted_iff (config : PinnedBufferPoolConfig) (ops : List Op) :
    (system config).Along Pool.Accounted (Pool.new config) ops ↔
      (system config).Meets OpOk (Pool.new config) ops := by
  have hinv := Pool.inv_new config
  constructor
  · intro h
    exact Transition.System.meets_of_along (I := Pool.Inv)
      (fun s op s' hs hstep hP => (Pool.accounted_step_iff hs hstep).1 hP)
      (fun s op s' hs hC hstep => Pool.inv_step hs hC hstep) hinv h
  · intro h
    exact Transition.System.along_of_meets (I := Pool.Inv)
      (fun s hs => hs.accounted) (fun s op s' hs hC hstep => Pool.inv_step hs hC hstep) hinv h

/-- A slot acquired after a restart is taken off the numbers when an older one comes back. -/
theorem return_after_restart_miscounts :
    ¬ (system ⟨1, 8, true⟩).Along Pool.Accounted (Pool.new ⟨1, 8, true⟩)
      [.acquire 4 1, .restart, .acquire 4 2, .internalReturn ⟨⟨1, 8, false, 0⟩, 0⟩] := by
  intro h
  have hend := h.last (t := ⟨⟨⟨1, 8, true⟩, [], 1, 0, 0, 1⟩, [⟨⟨2, 8, false, 1⟩, 1⟩]⟩) (by decide)
  exact absurd hend.total (by decide)

/-! ### Allocations that fail -/

namespace PinnedBufferPool

/-- An acquire of `lenBytes` has to allocate its slot. -/
def Allocates (p : PinnedBufferPool) (lenBytes : ℕ) : Prop :=
  (p.config.bufferCapacityBytes < lenBytes ∧ p.config.allowOversize = true) ∨
  (lenBytes ≤ p.config.bufferCapacityBytes ∧ p.free = [] ∧ p.totalMinted < p.config.maxBuffers)

instance (p : PinnedBufferPool) (lenBytes : ℕ) : Decidable (p.Allocates lenBytes) :=
  inferInstanceAs (Decidable (_ ∨ _))

/-- It has to, and cannot. -/
def AllocationFails (p : PinnedBufferPool) (lenBytes : ℕ) (malloc : Except String ℕ) : Prop :=
  p.Allocates lenBytes ∧ ∃ e, malloc = .error e

/-- An acquire that fails leaves no trace. -/
def Atomic (p : PinnedBufferPool) (lenBytes : ℕ) (malloc : Except String ℕ) : Prop :=
  ∀ e, (p.tryAcquire lenBytes malloc).2 = .error e →
    let p' := (p.tryAcquire lenBytes malloc).1
    p'.free = p.free ∧ p'.inUse = p.inUse ∧ p'.totalMinted = p.totalMinted ∧
      p'.bytesAllocated = p.bytesAllocated

/-- Minting counts the slot either way. -/
theorem mint_totalMinted (p : PinnedBufferPool) (capacity : ℕ) (oversize : Bool)
    (malloc : Except String ℕ) :
    (p.mint capacity oversize malloc).1.totalMinted = p.totalMinted + 1 := by
  unfold mint PinnedSlot.new
  cases malloc <;> rfl

/-- An acquire that allocates is a mint of its slot. -/
theorem tryAcquire_of_allocates {p : PinnedBufferPool} {lenBytes : ℕ} (h : p.Allocates lenBytes) :
    ∃ capacity oversize, ∀ malloc,
      p.tryAcquire lenBytes malloc = p.mint capacity oversize malloc := by
  rcases h with ⟨hover, hallow⟩ | ⟨hfits, hfree, hroom⟩
  · exact ⟨lenBytes, true, fun malloc => by simp [tryAcquire, hover, hallow]⟩
  · refine ⟨p.config.bufferCapacityBytes, false, fun malloc => ?_⟩
    have hcap : ¬ p.config.bufferCapacityBytes < lenBytes := not_lt.2 hfits
    have hmax : ¬ p.config.maxBuffers ≤ p.totalMinted := not_le.2 hroom
    simp [tryAcquire, hcap, hfree, hmax]

/-- One that does not allocate is refused at once or takes a free slot. -/
theorem tryAcquire_of_not_allocates {p : PinnedBufferPool} {lenBytes : ℕ}
    (h : ¬ p.Allocates lenBytes) (malloc : Except String ℕ) :
    (p.tryAcquire lenBytes malloc).1 = p ∨
      ∃ handle, (p.tryAcquire lenBytes malloc).2 = .ok handle := by
  unfold tryAcquire
  by_cases hover : p.config.bufferCapacityBytes < lenBytes
  · have hallow : ¬ p.config.allowOversize = true := fun hallow => h (.inl ⟨hover, hallow⟩)
    exact .inl (by simp [hover, hallow])
  · cases hfree : p.free with
    | cons slot rest => exact .inr ⟨⟨slot, p.generation⟩, by simp only [hover, if_false]⟩
    | nil =>
      have hmax : p.config.maxBuffers ≤ p.totalMinted :=
        not_lt.1 fun hroom => h (.inr ⟨not_lt.1 hover, hfree, hroom⟩)
      exact .inl (by simp [hover, hmax])

theorem mint_error (p : PinnedBufferPool) (capacity : ℕ) (oversize : Bool) (e : String) :
    ∃ e', (p.mint capacity oversize (.error e)).2 = .error e' := ⟨_, rfl⟩

theorem mint_ok (p : PinnedBufferPool) (capacity : ℕ) (oversize : Bool) (ptr : ℕ) :
    ∃ handle, (p.mint capacity oversize (.ok ptr)).2 = .ok handle := ⟨_, rfl⟩

/-- An error without a failed allocation is a refusal made before anything was counted. -/
theorem tryAcquire_fst_of_error {p : PinnedBufferPool} {lenBytes : ℕ} {malloc : Except String ℕ}
    {e : GpuError} (hok : ¬ p.AllocationFails lenBytes malloc)
    (h : (p.tryAcquire lenBytes malloc).2 = .error e) : (p.tryAcquire lenBytes malloc).1 = p := by
  by_cases halloc : p.Allocates lenBytes
  · obtain ⟨capacity, oversize, hmint⟩ := tryAcquire_of_allocates halloc
    cases malloc with
    | error e' => exact absurd ⟨halloc, e', rfl⟩ hok
    | ok ptr =>
      obtain ⟨handle, hhandle⟩ := p.mint_ok capacity oversize ptr
      rw [hmint, hhandle] at h
      cases h
  · rcases tryAcquire_of_not_allocates halloc malloc with hsame | ⟨handle, hhandle⟩
    · exact hsame
    · rw [hhandle] at h
      cases h

/-- A failed allocation is answered with an error, and stays counted. -/
theorem tryAcquire_of_fails {p : PinnedBufferPool} {lenBytes : ℕ} {malloc : Except String ℕ}
    (h : p.AllocationFails lenBytes malloc) :
    (∃ e, (p.tryAcquire lenBytes malloc).2 = .error e) ∧
      (p.tryAcquire lenBytes malloc).1.totalMinted = p.totalMinted + 1 := by
  obtain ⟨halloc, e, rfl⟩ := h
  obtain ⟨capacity, oversize, hmint⟩ := tryAcquire_of_allocates halloc
  rw [hmint]
  exact ⟨p.mint_error capacity oversize e, p.mint_totalMinted capacity oversize _⟩

theorem atomic_iff (p : PinnedBufferPool) (lenBytes : ℕ) (malloc : Except String ℕ) :
    p.Atomic lenBytes malloc ↔ ¬ p.AllocationFails lenBytes malloc := by
  constructor
  · intro hatomic hfails
    obtain ⟨⟨e, he⟩, hcount⟩ := tryAcquire_of_fails hfails
    have hsame := (hatomic e he).2.2.1
    omega
  · intro hok e he
    have hsame := tryAcquire_fst_of_error hok he
    exact ⟨by rw [hsame], by rw [hsame], by rw [hsame], by rw [hsame]⟩

end PinnedBufferPool

/-- A call of the pool; an acquire comes with the answer of the host allocator. -/
inductive Call
  | acquire (lenBytes : ℕ) (malloc : Except String ℕ)
  | internalReturn (handle : PinnedBufHandle)
  | stats
  | restart

/-- The pool and its handles, beside the pool that never saw the acquires it answered with an
error. -/
structure Twin where
  state : Pool
  unfailed : PinnedBufferPool

namespace Twin

def new (config : PinnedBufferPoolConfig) : Twin := ⟨Pool.new config, PinnedBufferPool.new config⟩

def step (s : Twin) : Call → Option Twin
  | .acquire lenBytes malloc =>
    let r := s.state.pool.tryAcquire lenBytes malloc
    match r.2 with
    | .error _ => some { s with state := { s.state with pool := r.1 } }
    | .ok h =>
      some ⟨⟨r.1, h :: s.state.outstanding⟩, (s.unfailed.tryAcquire lenBytes malloc).1⟩
  | .internalReturn h =>
    if h ∈ s.state.outstanding then
      some ⟨⟨s.state.pool.returnSlot h.slot h.generation, s.state.outstanding.erase h⟩,
        s.unfailed.returnSlot h.slot h.generation⟩
    else none
  | .stats => some s
  | .restart => some ⟨{ s.state with pool := s.state.pool.preRestart }, s.unfailed.preRestart⟩

/-- No failed acquire has left a trace. -/
def Untouched (s : Twin) : Prop := s.state.pool = s.unfailed

end Twin

/-- No acquire finds its allocation failing. -/
def CallOk (s : Twin) : Call → Prop
  | .acquire lenBytes malloc => ¬ s.state.pool.AllocationFails lenBytes malloc
  | .internalReturn _ | .stats | .restart => True

/-- The pool with its clients, and the pool by itself. -/
def twins (config : PinnedBufferPoolConfig) : Transition.System Twin Call :=
  ⟨Twin.new config, Twin.step⟩

/-- A call keeps the pools together exactly when it finds `CallOk`. -/
theorem Twin.untouched_step_iff {s s' : Twin} (h : s.Untouched) {c : Call}
    (hs : s.step c = some s') : s'.Untouched ↔ CallOk s c := by
  have heq : s.state.pool = s.unfailed := h
  cases c with
  | acquire lenBytes malloc =>
    simp only [step] at hs
    cases hr : (s.state.pool.tryAcquire lenBytes malloc).2 with
    | error e =>
      simp only [hr] at hs
      cases hs
      show (s.state.pool.tryAcquire lenBytes malloc).1 = s.unfailed ↔ ¬ _
      rw [← heq]
      constructor
      · intro hsame hfails
        have hcount := (PinnedBufferPool.tryAcquire_of_fails hfails).2
        rw [hsame] at hcount
        omega
      · exact fun hok => PinnedBufferPool.tryAcquire_fst_of_error hok hr
    | ok handle =>
      simp only [hr] at hs
      cases hs
      refine iff_of_true (by rw [Untouched, heq]) fun hfails => ?_
      obtain ⟨⟨e, he⟩, -⟩ := PinnedBufferPool.tryAcquire_of_fails hfails
      rw [hr] at he
      cases he
  | internalReturn handle =>
    simp only [step] at hs
    split_ifs at hs
    cases hs
    exact iff_of_true (by rw [Untouched, heq]) trivial
  | stats =>
    cases hs
    exact iff_of_true h trivial
  | restart =>
    cases hs
    exact iff_of_true (by rw [Untouched, heq]) trivial

/-- **An acquire is atomic on failure exactly when it is not one whose allocation fails, and a run
never shows a failed acquire exactly when none of its acquires is of that kind.** -/
theorem atomic_acquire_iff (p : PinnedBufferPool) (lenBytes : ℕ) (malloc : Except String ℕ)
    (config : PinnedBufferPoolConfig) (calls : List Call) :
    (p.Atomic lenBytes malloc ↔ ¬ p.AllocationFails lenBytes malloc) ∧
      ((twins config).Along Twin.Untouched (Twin.new config) calls ↔
        (twins config).Meets CallOk (Twin.new config) calls) := by
  refine ⟨p.atomic_iff lenBytes malloc, ?_⟩
  have hnew : (Twin.new config).Untouched := rfl
  constructor
  · intro h
    exact Transition.System.meets_of_along (I := Twin.Untouched)
      (fun s c s' hs hstep hP => (Twin.untouched_step_iff hs hstep).1 hP)
      (fun s c s' hs hC hstep => (Twin.untouched_step_iff hs hstep).2 hC) hnew h
  · intro h
    exact Transition.System.along_of_meets (I := Twin.Untouched) (fun _ hs => hs)
      (fun s c s' hs hC hstep => (Twin.untouched_step_iff hs hstep).2 hC) hnew h

/-- One failed allocation uses up a pool of one buffer: the next acquire is refused, with no slot
in use. -/
theorem failed_allocation_uses_up_pool :
    let p := PinnedBufferPool.new ⟨1, 8, false⟩
    let p' := (p.tryAcquire 4 (.error "CUDA_ERROR_OUT_OF_MEMORY")).1
    ¬ p.Atomic 4 (.error "CUDA_ERROR_OUT_OF_MEMORY") ∧ p'.inUse = 0 ∧
      (p'.tryAcquire 4 (.ok 1)).2 =
        .error (.outOfMemory ("pinned pool: max_buffers=" ++ toString 1 ++ " reached")) := by
  refine ⟨fun h => ?_, rfl, rfl⟩
  exact absurd (h _ rfl).2.2.1 (by decide)

end Pinned

end AtomrAccel
