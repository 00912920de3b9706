import AtomrAccel.Lib.Transition
import AtomrAccel.Tensorrt.Shim

/-!
# Plugins registered with TensorRT

`register_plugin` boxes the plugin for a creator proxy, and every plugin proxy has a box of its own.
TensorRT calls the proxies in any order; a plugin proxy keeps the pointer of its creator's box.

* `Registry`, `registerPlugin`, `Label`, `step`, `system`: the boxes and who may call what;
* `Sound`: callbacks get live boxes only, and a box without its proxy has been reclaimed once;
* `Careful`: no rejected creator, no failed allocation of a proxy, no clone of a plugin whose creator
  is gone;
* `sound_iff`: a run is sound exactly when all its steps are careful.
-/

namespace AtomrAccel

namespace Trt

namespace Plugin

open Resource Ledger Transition

/-- A `Box<Arc<dyn PluginV3>>`, the `user` of a creator, or a `Box<Box<dyn PluginV3>>`, the
`instance` of a plugin proxy. -/
inductive BoxKind
  | user
  | perInstance
  deriving DecidableEq, Repr

/-- A box that was leaked to the library. -/
abbrev BoxHandle := Handle BoxKind

/-- `RustPluginV3Proxy`. -/
structure PluginProxy where
  user : BoxHandle
  inst : BoxHandle
  deriving DecidableEq, Repr

/-- The boxes, the `user` of each registered creator that is alive, and the plugin proxies that are
alive. -/
structure Registry where
  ledger : Ledger BoxKind
  creators : List BoxHandle
  proxies : List PluginProxy

/-- What a registration meets: no memory for the creator proxy, or the answer of `registerCreator`,
which reads names off the creator first. -/
inductive Outcome
  | noCreator
  | answered (getters : ℕ) (accepted : Bool)
  deriving DecidableEq, Repr

/-- The error of a creator that could not be made. -/
def makeFailed : TrtError := .plugin "atomr_trt_make_plugin_creator returned null"

/-- The error of a creator that was refused. -/
def registerFailed (rc : Int) : TrtError :=
  .plugin ("registerCreator returned " ++ toString rc ++
    "; plugin name/namespace may collide with an existing entry")

namespace Registry

/-- Nothing is registered. -/
def init : Registry := ⟨.empty, [], []⟩

/-- A creator is boxed and handed over. -/
def registerPlugin (o : Outcome) (r : Registry) : Except TrtError Unit × Registry :=
  let user := r.ledger.fresh .user
  let l := r.ledger.create .user
  match o with
  | .noCreator => (.error makeFailed, { r with ledger := l.destroy user })
  | .answered getters accepted =>
    let l := l.uses user getters
    let rc : Int := if accepted then 0 else -1
    if rc ≠ 0 then (.error (registerFailed rc), { r with ledger := l })
    else (.ok (), { r with ledger := l, creators := user :: r.creators })

/-- `plugin_create_instance` and the proxy around its box, for which there may be no memory. -/
def newProxy (user : BoxHandle) (allocated : Bool) (r : Registry) : Registry :=
  let l := r.ledger.use user
  let inst := l.fresh .perInstance
  { r with
    ledger := l.create .perInstance
    proxies := if allocated then ⟨user, inst⟩ :: r.proxies else r.proxies }

/-- The boxes that a living proxy will reclaim. -/
def held (r : Registry) : List BoxHandle := r.creators ++ r.proxies.map PluginProxy.inst

end Registry

/-- The calls of the library to the registered creators and plugins. -/
inductive Label
  | register (o : Outcome)
  /-- `getPluginName`, `getPluginVersion` or `getPluginNamespace` of a creator. -/
  | getName (i : ℕ)
  | createPlugin (i : ℕ) (allocated : Bool)
  | clone (i : ℕ) (allocated : Bool)
  | destroyCreator (i : ℕ)
  | destroyPlugin (i : ℕ)

open Registry

/-- One call. -/
def step (r : Registry) : Label → Option Registry
  | .register o => some (r.registerPlugin o).2
  | .getName i => r.creators[i]?.map fun user => { r with ledger := r.ledger.use user }
  | .createPlugin i allocated => r.creators[i]?.map fun user => r.newProxy user allocated
  | .clone i allocated => r.proxies[i]?.map fun x =>
    newProxy x.user allocated { r with ledger := r.ledger.use x.user }
  | .destroyCreator i => r.creators[i]?.map fun user =>
    { r with ledger := r.ledger.destroy user, creators := r.creators.eraseIdx i }
  | .destroyPlugin i => r.proxies[i]?.map fun x =>
    { r with ledger := r.ledger.destroy x.inst, proxies := r.proxies.eraseIdx i }

/-- The library with the plugins. -/
def system : System Registry Label := ⟨.init, step⟩

/-- No callback gets a pointer that has been reclaimed, and no box is reclaimed twice; a box that was
made is not yet reclaimed while its creator or plugin proxy is alive, and reclaimed once when there
is none. -/
structure Sound (r : Registry) : Prop where
  disciplined : Disciplined r.ledger.log
  live : ∀ h ∈ r.held, Live r.ledger.log h
  users : ∀ h, h.kind = .user → .acquire h ∈ r.ledger.log → h ∉ r.creators →
    r.ledger.log.count (.release h) = 1
  instances : ∀ h, h.kind = .perInstance → .acquire h ∈ r.ledger.log →
    h ∉ r.proxies.map PluginProxy.inst → r.ledger.log.count (.release h) = 1

/-- The library accepts what it is handed. -/
def Careful (r : Registry) : Label → Prop
  | .register (.answered _ accepted) => accepted = true
  | .createPlugin _ allocated => allocated = true
  | .clone i allocated => allocated = true ∧ ∀ x, r.proxies[i]? = some x → x.user ∈ r.creators
  | .register .noCreator | .getName _ | .destroyCreator _ | .destroyPlugin _ => True

/-- The invariant: exactly the boxes of living proxies are there. -/
structure Inv (r : Registry) : Prop where
  holds : Holds r.ledger r.held
  creators : ∀ h ∈ r.creators, h.kind = .user
  users : ∀ x ∈ r.proxies, x.user.kind = .user
  instances : ∀ x ∈ r.proxies, x.inst.kind = .perInstance

variable {r r' : Registry} {user : BoxHandle}

theorem inv_init : Inv .init where
  holds := Holds.empty
  creators := nofun
  users := nofun
  instances := nofun

theorem Inv.instance_kind (h : Inv r) {b : BoxHandle} (hb : b ∈ r.proxies.map PluginProxy.inst) :
    b.kind = .perInstance := by
  obtain ⟨x, hx, rfl⟩ := List.mem_map.1 hb
  exact h.instances x hx

theorem Inv.sound (h : Inv r) : Sound r where
  disciplined := h.holds.accounts.disciplined
  live := fun _ => h.holds.live
  users := by
    intro b hkind hacq hnot
    refine h.holds.accounts.released b hacq fun hheld => ?_
    rcases List.mem_append.1 hheld with hcreator | hproxy
    · exact hnot hcreator
    · have hinst := h.instance_kind hproxy
      rw [hkind] at hinst
      cases hinst
  instances := by
    intro b hkind hacq hnot
    refine h.holds.accounts.released b hacq fun hheld => ?_
    rcases List.mem_append.1 hheld with hcreator | hproxy
    · have huser := h.creators b hcreator
      rw [hkind] at huser
      cases huser
    · exact hnot hproxy

/-! ### Careful steps -/

theorem Inv.use (h : Inv r) (hu : user ∈ r.creators) :
    Inv { r with ledger := r.ledger.use user } where
  holds := h.holds.use (List.mem_append_left _ hu)
  creators := h.creators
  users := h.users
  instances := h.instances

theorem Inv.newProxy (h : Inv r) (hu : user ∈ r.creators) : Inv (r.newProxy user true) where
  holds := by
    have hheld := (h.holds.use (List.mem_append_left _ hu)).create .perInstance
    exact hheld.perm List.perm_middle.symm
  creators := h.creators
  users := List.forall_mem_cons.2 ⟨h.creators user hu, h.users⟩
  instances := List.forall_mem_cons.2 ⟨rfl, h.instances⟩

theorem Inv.noCreator (h : Inv r) : Inv (r.registerPlugin .noCreator).2 where
  holds := (h.holds.create .user).destroy
  creators := h.creators
  users := h.users
  instances := h.instances

theorem Inv.registered (h : Inv r) (getters : ℕ) :
    Inv (r.registerPlugin (.answered getters true)).2 where
  holds := (h.holds.create .user).uses List.mem_cons_self getters
  creators := List.forall_mem_cons.2 ⟨rfl, h.creators⟩
  users := h.users
  instances := h.instances

theorem Inv.destroyCreator (h : Inv r) {i : ℕ} (hi : r.creators[i]? = some user) :
    Inv { r with ledger := r.ledger.destroy user, creators := r.creators.eraseIdx i } where
  holds := (h.holds.perm ((perm_eraseIdx hi).append_right _)).destroy
  creators := fun b hb => h.creators b (List.mem_of_mem_eraseIdx hb)
  users := h.users
  instances := h.instances

theorem Inv.destroyPlugin (h : Inv r) {i : ℕ} {x : PluginProxy} (hi : r.proxies[i]? = some x) :
    Inv { r with ledger := r.ledger.destroy x.inst, proxies := r.proxies.eraseIdx i } where
  holds := by
    have hperm := ((perm_eraseIdx hi).map PluginProxy.inst).append_left r.creators
    exact (h.holds.perm (hperm.trans List.perm_middle)).destroy
  creators := h.creators
  users := fun y hy => h.users y (List.mem_of_mem_eraseIdx hy)
  instances := fun y hy => h.instances y (List.mem_of_mem_eraseIdx hy)

theorem Inv.next {l : Label} (h : Inv r) (hcareful : Careful r l) (hs : step r l = some r') :
    Inv r' := by
  cases l with
  | register o =>
    cases hs
    cases o with
    | noCreator => exact h.noCreator
    | answered getters accepted =>
      obtain rfl : accepted = true := hcareful
      exact h.registered getters
  | getName i =>
    obtain ⟨user, hi, rfl⟩ := Option.map_eq_some_iff.1 hs
    exact h.use (List.mem_of_getElem? hi)
  | createPlugin i allocated =>
    obtain ⟨user, hi, rfl⟩ := Option.map_eq_some_iff.1 hs
    obtain rfl : allocated = true := hcareful
    exact h.newProxy (List.mem_of_getElem? hi)
  | clone i allocated =>
    obtain ⟨x, hi, rfl⟩ := Option.map_eq_some_iff.1 hs
    obtain ⟨rfl, hcreator⟩ := hcareful
    exact (h.use (hcreator x hi)).newProxy (hcreator x hi)
  | destroyCreator i =>
    obtain ⟨user, hi, rfl⟩ := Option.map_eq_some_iff.1 hs
    exact h.destroyCreator hi
  | destroyPlugin i =>
    obtain ⟨x, hi, rfl⟩ := Option.map_eq_some_iff.1 hs
    exact h.destroyPlugin hi

/-! ### Other steps -/

/-- A box made for a creator that is rejected stays. -/
theorem Inv.not_sound_of_rejected (h : Inv r) (getters : ℕ) :
    ¬ Sound (r.registerPlugin (.answered getters false)).2 := by
  intro hsound
  obtain ⟨hacq, hrel⟩ := h.holds.fresh_notMem .user
  have hone := hsound.users (r.ledger.fresh .user) rfl
    (acquire_mem_uses getters List.mem_cons_self)
    fun hmem => hacq (h.holds.live (List.mem_append_left _ hmem)).1
  have hzero : (r.registerPlugin (.answered getters false)).2.ledger.log.count
      (.release (r.ledger.fresh .user)) = 0 := by
    show ((r.ledger.create .user).uses _ getters).log.count _ = 0
    rw [count_release_uses, count_release_create]
    exact List.count_eq_zero.2 hrel
  rw [hzero] at hone
  cases hone

/-- A box made for a proxy that gets no memory stays. -/
theorem not_sound_of_failed {l : Ledger BoxKind} (hl : Holds l r.held) :
    ¬ Sound { r with ledger := l.create .perInstance } := by
  intro hsound
  obtain ⟨hacq, hrel⟩ := hl.fresh_notMem .perInstance
  have hone := hsound.instances (l.fresh .perInstance) rfl List.mem_cons_self
    fun hmem => hacq (hl.live (List.mem_append_right _ hmem)).1
  have hzero : (l.create .perInstance).log.count (.release (l.fresh .perInstance)) = 0 := by
    rw [count_release_create]
    exact List.count_eq_zero.2 hrel
  exact absurd (hone.symm.trans hzero) (by decide)

theorem Inv.careful_of_sound {l : Label} (h : Inv r) (hs : step r l = some r')
    (hsound : Sound r') : Careful r l := by
  cases l with
  | register o =>
    cases hs
    cases o with
    | noCreator => trivial
    | answered getters accepted =>
      cases accepted with
      | false => exact absurd hsound (h.not_sound_of_rejected getters)
      | true => rfl
  | getName i => trivial
  | createPlugin i allocated =>
    obtain ⟨user, hi, rfl⟩ := Option.map_eq_some_iff.1 hs
    cases allocated with
    | false =>
      have hused := h.holds.use (List.mem_append_left _ (List.mem_of_getElem? hi))
      exact absurd hsound (not_sound_of_failed hused)
    | true => rfl
  | clone i allocated =>
    obtain ⟨x, hi, rfl⟩ := Option.map_eq_some_iff.1 hs
    -- the box was alive when the proxy asked it for its name
    have hlive : Live r.ledger.log x.user := hsound.disciplined.tail.tail.1
    have hcreator : x.user ∈ r.creators := by
      rcases List.mem_append.1 (h.holds.mem_of_live hlive) with hcreator | hproxy
      · exact hcreator
      · have hinst := h.instance_kind hproxy
        rw [h.users x (List.mem_of_getElem? hi)] at hinst
        cases hinst
    refine ⟨?_, fun y hy => ?_⟩
    · cases allocated with
      | false =>
        have hmem := List.mem_append_left (r.proxies.map PluginProxy.inst) hcreator
        exact absurd hsound (not_sound_of_failed ((h.holds.use hmem).use hmem))
      | true => rfl
    · obtain rfl := Option.some.inj (hi.symm.trans hy)
      exact hcreator
  | destroyCreator i => trivial
  | destroyPlugin i => trivial

/-- In a run every box is reclaimed once, in time and after its last use, exactly when all steps are
careful. -/
theorem sound_iff (ls : List Label) :
    system.Along Sound system.init ls ↔ system.Meets Careful system.init ls := by
  constructor
  · exact System.meets_of_along (fun _ _ _ h hs hsound => h.careful_of_sound hs hsound)
      (fun _ _ _ h hcareful hs => h.next hcareful hs) inv_init
  · exact System.along_of_meets (fun _ h => h.sound)
      (fun _ _ _ h hcareful hs => h.next hcareful hs) inv_init

/-- A creator that the registry rejects. -/
theorem rejected_leaks : ¬ system.Along Sound system.init [.register (.answered 3 false)] := by
  intro h
  have hone := (h.2 _ rfl).head.users ⟨.user, 0⟩ rfl (by decide) (by decide)
  exact absurd hone (by decide)

end Plugin

end Trt

end AtomrAccel
