import AtomrAccel.Lib.Resource
import AtomrAccel.Lib.Transition
import AtomrAccel.Device.Error

/-!
# `ManagedAllocatorActor` and its `ManagedRef`s

The actor allocates managed memory and hands it out behind shared references.  The drop of the last
reference to an allocation reads the flag that all of them share with the actor, and frees the
memory if the actor is still running; `post_stop` clears the flag.

* `allocateF32`, `ManagedRef.isValid`, `ManagedRef.asSlice`: the code;
* `World`, `Label`, `step`, `system`: the actor, the references and the drops under way;
* `FreedOnce`: memory is freed once, at the latest when its last reference is gone and the actor has
  stopped, and not while a reference is valid or a slice is out;
* `FlagUp`, `along_freedOnce_iff`: so it is in a run exactly when no last reference is dropped after
  the stop; then the memory leaks.
-/

namespace AtomrAccel

namespace Managed

open Resource Transition

/-! ### The code -/

/-- `elements` of type `f32`. -/
structure ManagedRefInner where
  ptr : ℕ
  bytes : ℕ
  elements : ℕ
  deriving DecidableEq, Repr

/-- What `Stats` answers. -/
structure ManagedStats where
  allocations : ℕ
  bytesAllocated : ℕ
  deriving DecidableEq, Repr

/-- The actor. -/
structure ManagedAllocatorActor where
  systemAlive : Bool
  stats : ManagedStats
  deriving DecidableEq, Repr

/-- What `catch_unwind` and `cudaMallocManaged` come back with; `debug` is the `Debug` text of a
status other than success. -/
inductive MallocManaged
  | panicked
  | failed (debug : String)
  | success (raw : ℕ)
  deriving DecidableEq, Repr

namespace ManagedAllocatorActor

/-- The instance `Props` creates. -/
def new : ManagedAllocatorActor := ⟨true, ⟨0, 0⟩⟩

/-- The driver's memory, counted when it is there. -/
def allocateF32 (a : ManagedAllocatorActor) (len : ℕ) (answer : MallocManaged) :
    ManagedAllocatorActor × Except GpuError ManagedRefInner :=
  let bytes := len * 4
  if 2 ^ 64 ≤ bytes then
    (a, .error (.unrecoverable "managed alloc: len * size_of overflowed"))
  else match answer with
    | .panicked =>
      (a, .error (.unrecoverable "cudaMallocManaged: CUDA runtime not loadable"))
    | .failed debug =>
      (a, .error (.outOfMemory ("cudaMallocManaged(" ++ toString bytes ++ "B): " ++ debug)))
    | .success raw =>
      if raw = 0 then (a, .error (.unrecoverable "cudaMallocManaged returned null"))
      else
        ({ a with stats := ⟨a.stats.allocations + 1, a.stats.bytesAllocated + bytes⟩ },
          .ok ⟨raw, bytes, len⟩)

/-- The system is marked as gone. -/
def postStop (a : ManagedAllocatorActor) : ManagedAllocatorActor := { a with systemAlive := false }

end ManagedAllocatorActor

/-! ### The references -/

/-- A reference to an allocation, which is named by the number of allocations before it.  `slices`
is not a field of the source: it counts the slices borrowed from the reference. -/
structure ManagedRef where
  inner : ℕ
  slices : ℕ
  deriving DecidableEq, Repr

/-- A `ManagedRefInner` whose last reference is gone; `freeing` once its drop has seen the flag
up. -/
structure Dropping where
  inner : ℕ
  freeing : Bool
  deriving DecidableEq, Repr

/-- `log` holds what the runtime was asked for: memory is acquired by `cudaMallocManaged`, used
through a slice and released by `cudaFree`. -/
structure World where
  actor : ManagedAllocatorActor
  inners : List ManagedRefInner
  refs : List ManagedRef
  dropping : List Dropping
  log : List (Event ℕ)

namespace ManagedRef

/-- `inner` is never `None`. -/
def isValid (_r : ManagedRef) (w : World) : Bool := w.actor.systemAlive

/-- The memory `as_slice` and `as_mut_slice` show, by its address and its length; nothing for the
empty slice. -/
def asSlice (r : ManagedRef) (w : World) : Option (ℕ × ℕ) :=
  if !w.actor.systemAlive then none
  else w.inners[r.inner]?.map fun i => (i.ptr, i.elements)

end ManagedRef

/-- The steps of the actor and of those who hold references. -/
inductive Label
  /-- The actor handles an `AllocateManagedF32`; the reference is in its reply. -/
  | allocate (len : ℕ) (answer : MallocManaged)
  | clone (i : ℕ)
  /-- A reference is dropped, if no slice of it is borrowed. -/
  | drop (i : ℕ)
  /-- `ManagedRefInner::drop` reads the flag. -/
  | loadFlag (i : ℕ)
  /-- `ManagedRefInner::drop` calls `cudaFree`. -/
  | cudaFree (i : ℕ)
  | asSlice (i : ℕ)
  | readSlice (i : ℕ)
  | endSlice (i : ℕ)
  /-- The actor stops. -/
  | postStop
  deriving DecidableEq, Repr

namespace World

/-- No memory has been allocated. -/
def init : World := ⟨.new, [], [], [], []⟩

/-- A request for memory, with the driver's answer. -/
def allocate (w : World) (len : ℕ) (answer : MallocManaged) : World :=
  match w.actor.allocateF32 len answer with
  | (actor, .error _) => { w with actor := actor }
  | (actor, .ok inner) =>
    { w with
      actor := actor
      inners := w.inners ++ [inner]
      refs := w.refs ++ [⟨w.inners.length, 0⟩]
      log := .acquire w.inners.length :: w.log }

/-- Without its `i`-th reference; if it was the last one, the allocation is dropped. -/
def dropRef (w : World) (i : ℕ) (r : ManagedRef) : World :=
  let refs := w.refs.eraseIdx i
  if r.inner ∈ refs.map ManagedRef.inner then { w with refs := refs }
  else { w with refs := refs, dropping := w.dropping ++ [⟨r.inner, false⟩] }

end World

/-- One step of the actor or of a reference. -/
def step (w : World) : Label → Option World
  | .allocate len answer => if w.actor.systemAlive then some (w.allocate len answer) else none
  | .clone i => w.refs[i]?.map fun r => { w with refs := w.refs ++ [⟨r.inner, 0⟩] }
  | .drop i => w.refs[i]?.bind fun r => if r.slices = 0 then some (w.dropRef i r) else none
  | .loadFlag i =>
    w.dropping[i]?.bind fun d =>
      if d.freeing then none
      else if w.actor.systemAlive then
        some { w with dropping := w.dropping.set i ⟨d.inner, true⟩ }
      else some { w with dropping := w.dropping.eraseIdx i }
  | .cudaFree i =>
    w.dropping[i]?.bind fun d =>
      if d.freeing then
        some { w with dropping := w.dropping.eraseIdx i, log := .release d.inner :: w.log }
      else none
  | .asSlice i =>
    w.refs[i]?.map fun r =>
      if (r.asSlice w).isSome then { w with refs := w.refs.set i ⟨r.inner, r.slices + 1⟩ } else w
  | .readSlice i =>
    w.refs[i]?.bind fun r =>
      if 0 < r.slices then some { w with log := .use r.inner :: w.log } else none
  | .endSlice i =>
    w.refs[i]?.map fun r => { w with refs := w.refs.set i ⟨r.inner, r.slices - 1⟩ }
  | .postStop => if w.actor.systemAlive then some { w with actor := w.actor.postStop } else none

/-- The actor with the references to its memory. -/
def system : System World Label := ⟨.init, step⟩

/-! ### What should hold -/

/-- Memory is used and freed only while it is allocated; it is allocated while a reference is valid
or a slice is out; it has been freed once when no reference is left and the actor has stopped. -/
structure FreedOnce (w : World) : Prop where
  disciplined : Disciplined w.log
  valid : ∀ r ∈ w.refs, r.isValid w = true → Live w.log r.inner
  exposed : ∀ r ∈ w.refs, (r.asSlice w).isSome ∨ 0 < r.slices → Live w.log r.inner
  freed : ∀ inner, .acquire inner ∈ w.log → inner ∉ w.refs.map ManagedRef.inner →
    inner ∉ w.dropping.map Dropping.inner → w.actor.systemAlive = false →
    w.log.count (.release inner) = 1

/-- The drop of a last reference finds the flag up. -/
def FlagUp (w : World) : Label → Prop
  | .loadFlag _ => w.actor.systemAlive = true
  | _ => True

/-! ### The invariant -/

/-- The allocations with a reference and those whose drop is under way. -/
def World.owned (w : World) : Set ℕ :=
  {inner | inner ∈ w.refs.map ManagedRef.inner ∨ inner ∈ w.dropping.map Dropping.inner}

/-- An allocation that is not owned has been freed. -/
structure Inv (w : World) : Prop where
  accounts : Accounts w.log w.owned
  apart : ∀ inner ∈ w.refs.map ManagedRef.inner, inner ∉ w.dropping.map Dropping.inner
  nodup : (w.dropping.map Dropping.inner).Nodup
  numbered : ∀ inner, .acquire inner ∈ w.log → inner < w.inners.length

namespace Inv

variable {w : World}

theorem init : Inv .init := by
  have howned : World.owned .init = ∅ := by
    ext inner
    simp [World.owned, World.init]
  refine ⟨?_, by simp [World.init], List.nodup_nil, by simp [World.init]⟩
  rw [howned]
  exact accounts_nil

theorem freedOnce (h : Inv w) : FreedOnce w where
  disciplined := h.accounts.disciplined
  valid r hr _ := h.accounts.live r.inner (.inl (List.mem_map_of_mem hr))
  exposed r hr _ := h.accounts.live r.inner (.inl (List.mem_map_of_mem hr))
  freed inner hacq hrefs hdrop _ := h.accounts.released inner hacq fun hown =>
    hown.elim hrefs hdrop

/-- A step that leaves alone what is owned and what was asked of the runtime. -/
theorem of_owned (h : Inv w) {w' : World} (hlog : w'.log = w.log) (hinners : w'.inners = w.inners)
    (howned : w'.owned = w.owned)
    (hapart : ∀ inner ∈ w'.refs.map ManagedRef.inner, inner ∉ w'.dropping.map Dropping.inner)
    (hnodup : (w'.dropping.map Dropping.inner).Nodup) : Inv w' := by
  refine ⟨?_, hapart, hnodup, ?_⟩
  · rw [hlog, howned]
    exact h.accounts
  · rw [hlog, hinners]
    exact h.numbered

/-- A step after which the references and the drops are those of the same allocations. -/
theorem of_maps (h : Inv w) {w' : World} (hlog : w'.log = w.log) (hinners : w'.inners = w.inners)
    (hrefs : w'.refs.map ManagedRef.inner = w.refs.map ManagedRef.inner)
    (hdropping : w'.dropping.map Dropping.inner = w.dropping.map Dropping.inner) : Inv w' := by
  refine h.of_owned hlog hinners ?_ ?_ ?_
  · rw [World.owned, hrefs, hdropping]
    rfl
  · rw [hrefs, hdropping]
    exact h.apart
  · rw [hdropping]
    exact h.nodup

theorem allocate (h : Inv w) (len : ℕ) (answer : MallocManaged) : Inv (w.allocate len answer) := by
  unfold World.allocate
  split
  · exact h.of_maps rfl rfl rfl rfl
  · have hfresh : .acquire w.inners.length ∉ w.log := fun hacq =>
      lt_irrefl _ (h.numbered _ hacq)
    have hnew : w.inners.length ∉ w.dropping.map Dropping.inner := fun hmem =>
      hfresh (h.accounts.live _ (.inr hmem)).1
    refine ⟨?_, ?_, h.nodup, ?_⟩
    · have hacc := h.accounts.acquire hfresh
      convert hacc using 1
      ext inner
      simp only [World.owned, List.map_append, List.map_cons, List.map_nil, List.mem_append,
        List.mem_singleton, Set.mem_ofPred_eq, Set.mem_insert_iff]
      tauto
    · intro inner hinner
      rw [List.map_append] at hinner
      rcases List.mem_append.1 hinner with hold | hlast
      · exact h.apart inner hold
      · obtain rfl := List.mem_singleton.1 hlast
        exact hnew
    · intro inner hacq
      rw [List.length_append]
      rcases List.mem_cons.1 hacq with heq | hold
      · cases heq
        exact Nat.lt_succ_self _
      · exact Nat.lt_succ_of_lt (h.numbered inner hold)

theorem clone (h : Inv w) {r : ManagedRef} (hr : r ∈ w.refs) :
    Inv { w with refs := w.refs ++ [⟨r.inner, 0⟩] } := by
  have hmem : ∀ inner, inner ∈ List.map ManagedRef.inner (w.refs ++ [⟨r.inner, 0⟩]) ↔
      inner ∈ w.refs.map ManagedRef.inner := by
    intro inner
    have hold : r.inner ∈ w.refs.map ManagedRef.inner := List.mem_map_of_mem hr
    rw [List.map_append, List.mem_append, List.map_cons, List.map_nil, List.mem_singleton]
    exact or_iff_left_of_imp fun heq => heq ▸ hold
  refine h.of_owned rfl rfl ?_ ?_ h.nodup
  · ext inner
    exact or_congr_left (hmem inner)
  · exact fun inner hinner => h.apart inner ((hmem inner).1 hinner)

theorem dropRef (h : Inv w) {i : ℕ} {r : ManagedRef} (hr : w.refs[i]? = some r) :
    Inv (w.dropRef i r) := by
  have hmem := mem_map_eraseIdx (f := ManagedRef.inner) hr
  have hapart : ∀ inner ∈ (w.refs.eraseIdx i).map ManagedRef.inner,
      inner ∉ w.dropping.map Dropping.inner :=
    fun inner hinner => h.apart inner ((hmem inner).2 (.inr hinner))
  unfold World.dropRef
  by_cases hlast : r.inner ∈ (w.refs.eraseIdx i).map ManagedRef.inner
  · rw [if_pos hlast]
    refine h.of_owned rfl rfl ?_ hapart h.nodup
    ext inner
    refine or_congr_left ?_
    rw [hmem]
    exact (or_iff_right_of_imp fun heq => heq ▸ hlast).symm
  · rw [if_neg hlast]
    have hr' := h.apart r.inner ((hmem _).2 (.inl rfl))
    have hdropping : ∀ inner,
        inner ∈ List.map Dropping.inner (w.dropping ++ [⟨r.inner, false⟩]) ↔
        inner ∈ w.dropping.map Dropping.inner ∨ inner = r.inner := by
      intro inner
      rw [List.map_append, List.mem_append, List.map_cons, List.map_nil, List.mem_singleton]
    refine h.of_owned rfl rfl ?_ ?_ ?_
    · ext inner
      show _ ∨ _ ↔ _ ∨ _
      rw [hdropping, hmem]
      tauto
    · intro inner hinner hdrop
      rcases (hdropping inner).1 hdrop with hold | rfl
      · exact hapart inner hinner hold
      · exact hlast hinner
    · rw [List.map_append, List.map_cons, List.map_nil]
      refine List.nodup_append.2 ⟨h.nodup, List.nodup_singleton _, ?_⟩
      rintro a ha b hb rfl
      obtain rfl := List.mem_singleton.1 hb
      exact hr' ha

theorem cudaFree (h : Inv w) {i : ℕ} {d : Dropping} (hd : w.dropping[i]? = some d) :
    Inv { w with dropping := w.dropping.eraseIdx i, log := .release d.inner :: w.log } := by
  have hperm := (perm_eraseIdx hd).map Dropping.inner
  obtain ⟨hnot, hnodup⟩ := List.nodup_cons.1 (hperm.nodup_iff.1 h.nodup)
  have hmem := mem_map_eraseIdx (f := Dropping.inner) hd
  have hrefs : d.inner ∉ w.refs.map ManagedRef.inner := fun hinner =>
    h.apart _ hinner ((hmem _).2 (.inl rfl))
  refine ⟨?_, ?_, hnodup, ?_⟩
  · have hacc := h.accounts.release (a := d.inner) (.inr ((hmem _).2 (.inl rfl)))
    convert hacc using 1
    ext inner
    show _ ∨ _ ↔ (_ ∨ _) ∧ inner ≠ d.inner
    rw [hmem]
    constructor
    · rintro (hinner | hinner)
      · exact ⟨.inl hinner, fun heq => hrefs (heq ▸ hinner)⟩
      · exact ⟨.inr (.inr hinner), fun heq => hnot (heq ▸ hinner)⟩
    · tauto
  · exact fun inner hinner hdrop => h.apart inner hinner ((hmem inner).2 (.inr hdrop))
  · intro inner hacq
    rcases List.mem_cons.1 hacq with heq | hold
    · cases heq
    · exact h.numbered inner hold

theorem readSlice (h : Inv w) {r : ManagedRef} (hr : r ∈ w.refs) :
    Inv { w with log := .use r.inner :: w.log } := by
  have hmem : r.inner ∈ w.refs.map ManagedRef.inner := List.mem_map_of_mem hr
  refine ⟨h.accounts.use (.inl hmem), h.apart, h.nodup, fun inner hacq => ?_⟩
  rcases List.mem_cons.1 hacq with heq | hold
  · cases heq
  · exact h.numbered inner hold

/-- Every step under the flag. -/
theorem next (h : Inv w) {l : Label} {w' : World} (hup : FlagUp w l)
    (hstep : step w l = some w') : Inv w' := by
  cases l with
  | allocate len answer =>
    simp only [step] at hstep
    split at hstep
    · cases hstep
      exact h.allocate len answer
    · cases hstep
  | clone i =>
    obtain ⟨r, hr, rfl⟩ := Option.map_eq_some_iff.1 hstep
    exact h.clone (List.mem_of_getElem? hr)
  | drop i =>
    obtain ⟨r, hr, hstep⟩ := Option.bind_eq_some_iff.1 hstep
    split at hstep
    · cases hstep
      exact h.dropRef hr
    · cases hstep
  | loadFlag i =>
    obtain ⟨d, hd, hstep⟩ := Option.bind_eq_some_iff.1 hstep
    split at hstep
    · cases hstep
    · have hup : w.actor.systemAlive = true := hup
      rw [if_pos hup] at hstep
      cases hstep
      exact h.of_maps rfl rfl rfl (map_set hd rfl)
  | cudaFree i =>
    obtain ⟨d, hd, hstep⟩ := Option.bind_eq_some_iff.1 hstep
    split at hstep
    · cases hstep
      exact h.cudaFree hd
    · cases hstep
  | asSlice i =>
    obtain ⟨r, hr, rfl⟩ := Option.map_eq_some_iff.1 hstep
    split
    · exact h.of_maps rfl rfl (map_set hr rfl) rfl
    · exact h
  | readSlice i =>
    obtain ⟨r, hr, hstep⟩ := Option.bind_eq_some_iff.1 hstep
    split at hstep
    · cases hstep
      have hmem := List.mem_map_of_mem (f := ManagedRef.inner) (List.mem_of_getElem? hr)
      refine ⟨h.accounts.use (.inl hmem), h.apart, h.nodup, fun inner hacq => ?_⟩
      rcases List.mem_cons.1 hacq with heq | hold
      · cases heq
      · exact h.numbered inner hold
    · cases hstep
  | endSlice i =>
    obtain ⟨r, hr, rfl⟩ := Option.map_eq_some_iff.1 hstep
    exact h.of_maps rfl rfl (map_set hr rfl) rfl
  | postStop =>
    simp only [step] at hstep
    split at hstep
    · cases hstep
      exact h.of_maps rfl rfl rfl rfl
    · cases hstep

/-- A last drop after the stop leaks its memory. -/
theorem flagUp_of_freedOnce (h : Inv w) {l : Label} {w' : World} (hstep : step w l = some w')
    (hfreed : FreedOnce w') : FlagUp w l := by
  cases l with
  | loadFlag i =>
    obtain ⟨d, hd, hstep⟩ := Option.bind_eq_some_iff.1 hstep
    by_contra hdown
    have hdown : w.actor.systemAlive ≠ true := hdown
    split at hstep
    · cases hstep
    · cases hstep
      have hperm := (perm_eraseIdx hd).map Dropping.inner
      obtain ⟨hnot, -⟩ := List.nodup_cons.1 (hperm.nodup_iff.1 h.nodup)
      have hmem : d.inner ∈ w.dropping.map Dropping.inner :=
        List.mem_map_of_mem (List.mem_of_getElem? hd)
      have hlive := h.accounts.live _ (.inr hmem)
      have hone := hfreed.freed _ hlive.1 (fun hrefs => h.apart _ hrefs hmem) hnot
        (Bool.eq_false_iff.2 hdown)
      rw [List.count_eq_zero_of_not_mem hlive.2] at hone
      cases hone
  | _ => trivial

end Inv

/-! ### The runs -/

/-- Memory is freed once, and in time, in the runs in which no last reference is dropped after the
actor has stopped. -/
theorem along_freedOnce_iff (ls : List Label) :
    system.Along FreedOnce .init ls ↔ system.Meets FlagUp .init ls := by
  have hstep : ∀ w l w', Inv w → FlagUp w l → system.step w l = some w' → Inv w' :=
    fun _ _ _ h hup hstep => h.next hup hstep
  constructor
  · exact System.meets_of_along (fun _ _ _ h hstep hfreed => h.flagUp_of_freedOnce hstep hfreed)
      hstep Inv.init
  · exact System.along_of_meets (fun _ h => h.freedOnce) hstep Inv.init

/-- One allocation whose reference outlives the actor. -/
theorem leaked_after_stop :
    ¬ ∀ ls : List Label, system.Along FreedOnce .init ls := by
  intro hall
  have hrun := hall [.allocate 1024 (.success 4096), .postStop, .drop 0, .loadFlag 0]
  have hend : system.run .init
      [.allocate 1024 (.success 4096), .postStop, .drop 0, .loadFlag 0] =
      some ⟨⟨false, ⟨1, 4096⟩⟩, [⟨4096, 4096, 1024⟩], [], [], [.acquire 0]⟩ := rfl
  have hone := (hrun.last hend).freed 0 List.mem_cons_self List.not_mem_nil List.not_mem_nil rfl
  cases hone

end Managed

end AtomrAccel
