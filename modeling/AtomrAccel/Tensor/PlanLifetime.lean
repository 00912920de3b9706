import AtomrAccel.Lib.Shared
import AtomrAccel.Lib.Transition
import AtomrAccel.Tensor.PlanCache

/-!
# The handles of cuTENSOR plans

A plan is made of several handles: a descriptor for each operand, the operation, the preference and
the plan itself.  They are destroyed together when the last reference to the plan is dropped: the
cache has one, and so has every kernel in flight.  A build that fails half-way destroys what it has
created so far.

* `PlanBuilder`, `buildPlan`, `Request.planBuilder`: the five plan builders, which differ in their
  operands and in one call;
* `getOrBuildPlan`, `execute`: one request, up to the enqueue;
* `World`, `step`, `system`: any number of actors, one after the other, and their kernels in flight;
* `buildPlan_holds`, `execute_shares`, `shares_of_run`: what each of these holds;
* `execute_forget`: without its handles, the cache is that of `Tensor.execute`.
-/

namespace AtomrAccel

namespace Tensor

namespace Lifetime

open Resource Ledger Transition

/-- The handles of cuTENSOR. -/
inductive HandleKind
  | library
  | descriptor
  | operation
  | preference
  | plan
  deriving DecidableEq, Repr

/-- A handle of cuTENSOR. -/
abbrev CtHandle := Handle HandleKind

/-- The calls to cuTENSOR. -/
abbrev CtCalls := Ledger HandleKind

/-- The handles of a `CachedPlan`. -/
structure PlanHandles where
  plan : CtHandle
  pref : CtHandle
  op : CtHandle
  descs : List CtHandle
  deriving DecidableEq, Repr

/-- In the order of `CachedPlan::drop`. -/
def PlanHandles.all (p : PlanHandles) : List CtHandle := p.plan :: p.pref :: p.op :: p.descs

/-! ### Builds -/

/-- What the plan builders differ in: the operands with a descriptor, and the call that creates the
operation. -/
structure PlanBuilder where
  operands : List String
  create : String

/-- The names in the errors of `build_contract`. -/
def buildContract : PlanBuilder := ⟨["A", "B", "C"], "CreateContraction"⟩

/-- The names in the errors of `build_reduction`. -/
def buildReduction : PlanBuilder := ⟨["A", "C"], "CreateReduction"⟩

/-- The names in the errors of `build_binary`. -/
def buildBinary : PlanBuilder := ⟨["A", "C", "D"], "CreateElementwiseBinary"⟩

/-- The names in the errors of `build_trinary`. -/
def buildTrinary : PlanBuilder := ⟨["A", "B", "C", "D"], "CreateElementwiseTrinary"⟩

/-- The names in the errors of `build_permutation`. -/
def buildPermutation : PlanBuilder := ⟨["A", "B"], "CreatePermutation"⟩

/-- The builder of a request's plan. -/
def planBuilder {Op : Type} : Request Op → PlanBuilder
  | .contract .. => buildContract
  | .reduction .. => buildReduction
  | .elementwiseBinary .. => buildBinary
  | .elementwiseTrinary .. => buildTrinary
  | .permutation .. => buildPermutation

/-- What cuTENSOR answers to the calls of one build. -/
structure BuildAnswers where
  descriptor : ℕ → Except String Unit
  operation : Except String Unit
  preference : Except String Unit
  workspaceSize : Except String UInt64
  plan : Except String Unit

/-- A call has failed: what has been created so far is destroyed. -/
def fail {α : Type} (calls : CtCalls) (created : List CtHandle) (msg : String) :
    CtCalls × Except GpuError α :=
  (calls.destroyAll created, .error (.libraryError "cutensor" msg))

/-- The descriptors of the operands, the last one first. -/
def createDescriptors (h : CtHandle) (a : ℕ → Except String Unit) :
    List String → CtCalls → List CtHandle → CtCalls × Except GpuError (List CtHandle)
  | [], calls, descs => (calls, .ok descs)
  | name :: names, calls, descs =>
    match a descs.length with
    | .error e => fail (calls.use h) descs ("CreateTensorDescriptor(" ++ name ++ "): " ++ e)
    | .ok () =>
      createDescriptors h a names ((calls.use h).create .descriptor)
        ((calls.use h).fresh .descriptor :: descs)

/-- The part the plan builders share. -/
def buildPlan (b : PlanBuilder) (h : CtHandle) (a : BuildAnswers) (calls : CtCalls) :
    CtCalls × Except GpuError (PlanHandles × UInt64) :=
  match createDescriptors h a.descriptor b.operands calls [] with
  | (calls, .error e) => (calls, .error e)
  | (calls, .ok descs) =>
    let calls := calls.useAll (h :: descs)
    match a.operation with
    | .error e => fail calls descs (b.create ++ ": " ++ e)
    | .ok () =>
      let op := calls.fresh .operation
      let calls := (calls.create .operation).use h
      match a.preference with
      | .error e => fail calls (op :: descs) ("CreatePlanPreference: " ++ e)
      | .ok () =>
        let pref := calls.fresh .preference
        let calls := (calls.create .preference).useAll [h, op, pref]
        match a.workspaceSize with
        | .error e => fail calls (pref :: op :: descs) ("EstimateWorkspaceSize: " ++ e)
        | .ok workspaceSize =>
          let calls := calls.useAll [h, op, pref]
          match a.plan with
          | .error e => fail calls (pref :: op :: descs) ("CreatePlan: " ++ e)
          | .ok () =>
            (calls.create .plan,
              .ok (⟨calls.fresh .plan, pref, op, descs.reverse⟩, workspaceSize))

/-! ### Requests -/

/-- A plan with its handles. -/
structure Plan (Op Desc : Type) where
  cached : CachedPlan Op Desc
  handles : PlanHandles

variable {M E Op Desc : Type} [DecidableEq M] [DecidableEq E]

/-- The cache, with the handles of its plans. -/
abbrev Cache (M E Op Desc : Type) := Lru (PlanKey M E) (Plan Op Desc)

omit [DecidableEq M] [DecidableEq E] in
/-- The references of a cache. -/
def references (cache : Cache M E Op Desc) : List PlanHandles :=
  cache.entries.map fun e => e.2.handles

/-- What the rest of the system answers to a request. -/
structure Answers where
  buffers : Except GpuError Unit
  build : BuildAnswers
  /-- `WorkspacePool::ensure`, where the request needs a workspace -/
  workspace : Except GpuError Unit
  launch : Except String Unit

/-- Contractions and reductions need a workspace. -/
def usesWorkspace : Request Op → Bool
  | .contract .. | .reduction .. => true
  | .elementwiseBinary .. | .elementwiseTrinary .. | .permutation .. => false

/-- The name of the launch in its error. -/
def launchName : Request Op → String
  | .contract .. => "Contract"
  | .reduction .. => "Reduce"
  | .elementwiseBinary .. => "ElementwiseBinary"
  | .elementwiseTrinary .. => "ElementwiseTrinary"
  | .permutation .. => "Permute"

variable (hashes : Hashes M E) (ct : CuTensor Op Desc)

/-- `held` are the references outside of the cache.  A plan that is evicted loses one. -/
def getOrBuildPlan (held : List PlanHandles) (h : CtHandle) (calls : CtCalls)
    (cache : Cache M E Op Desc) (r : Request Op) (a : BuildAnswers) :
    CtCalls × Cache M E Op Desc × Except GpuError (Plan Op Desc) :=
  match cache.get? (r.key hashes ct) with
  | some (plan, cache) => (calls, cache, .ok plan)
  | none =>
    match buildPlan (planBuilder r) h a calls with
    | (calls, .error e) => (calls, cache, .error e)
    | (calls, .ok (handles, workspaceSize)) =>
      let plan : Plan Op Desc := ⟨⟨r.planArgs ct, workspaceSize⟩, handles⟩
      let cache' := cache.put (r.key hashes ct) plan
      let evicted := (cache.evicted (r.key hashes ct)).map Plan.handles
      (calls.dropRefs PlanHandles.all evicted (references cache' ++ held), cache', .ok plan)

/-- The actor: its library handle and its cache. -/
structure TensorActor (M E Op Desc : Type) where
  handle : CtHandle
  cache : Cache M E Op Desc

/-- The calls so far, the actor that is running, and the kernels in flight, each with the plan it
keeps alive. -/
structure World (M E Op Desc : Type) where
  calls : CtCalls
  actor : Option (TensorActor M E Op Desc)
  inFlight : List (Plan Op Desc)

omit [DecidableEq M] [DecidableEq E] in
/-- All references to plans. -/
def World.references (w : World M E Op Desc) : List PlanHandles :=
  w.actor.toList.flatMap (fun actor => Lifetime.references actor.cache) ++
    w.inFlight.map Plan.handles

omit [DecidableEq M] [DecidableEq E] in
/-- A reference besides those of the world is dropped. -/
def World.dropRef (w : World M E Op Desc) (plan : Plan Op Desc) : World M E Op Desc :=
  { w with calls := w.calls.dropRef PlanHandles.all plan.handles w.references }

/-- The five `execute` functions up to the enqueue, with the error that is replied at once. -/
def execute (w : World M E Op Desc) (actor : TensorActor M E Op Desc) (r : Request Op)
    (a : Answers) : World M E Op Desc × Option GpuError :=
  match r.checkLengths with
  | some e => (w, some e)
  | none =>
    match a.buffers with
    | .error e => (w, some e)
    | .ok () =>
      match getOrBuildPlan hashes ct (w.inFlight.map Plan.handles) actor.handle w.calls actor.cache
        r a.build with
      | (calls, cache, .error e) => (⟨calls, some ⟨actor.handle, cache⟩, w.inFlight⟩, some e)
      | (calls, cache, .ok plan) =>
        let w : World M E Op Desc := ⟨calls, some ⟨actor.handle, cache⟩, w.inFlight⟩
        match if usesWorkspace r then a.workspace else .ok () with
        | .error e => (w.dropRef plan, some e)
        | .ok () =>
          let w := { w with calls := w.calls.useAll [actor.handle, plan.handles.plan] }
          match a.launch with
          | .error e =>
            (w.dropRef plan, some (.libraryError "cutensor" (launchName r ++ ": " ++ e)))
          | .ok () =>
            -- the closure's reference stays
            (({ w with inFlight := w.inFlight ++ [plan] } : World M E Op Desc).dropRef plan, none)

/-- The steps of the actor and its kernels. -/
inductive Label (Op : Type)
  /-- the factory of `TensorActor::props`: `cutensorCreate` succeeds or the actor panics -/
  | start (ok : Bool)
  | request (r : Request Op) (a : Answers)
  /-- a kernel has completed, and what it has kept alive is dropped -/
  | complete (i : ℕ)
  /-- the drop of the actor: its handle, then its cache -/
  | stop

/-- One step of the actor and its kernels. -/
def step (w : World M E Op Desc) : Label Op → Option (World M E Op Desc)
  | .start ok =>
    match w.actor with
    | some _ => none
    | none =>
      if ok then
        some { w with
          calls := w.calls.create .library
          actor := some ⟨w.calls.fresh .library, Lru.empty (max defaultPlanCacheSize 1)⟩ }
      else some w
  | .request r a => w.actor.map fun actor => (execute hashes ct w actor r a).1
  | .complete i =>
    match w.inFlight[i]? with
    | none => none
    | some plan => some (({ w with inFlight := w.inFlight.eraseIdx i } : World M E Op Desc).dropRef
        plan)
  | .stop =>
    match w.actor with
    | none => none
    | some actor => some
        { w with
          calls := (w.calls.destroy actor.handle).dropRefs PlanHandles.all
            (references actor.cache) (w.inFlight.map Plan.handles)
          actor := none }

/-- The actor with its kernels. -/
def system : System (World M E Op Desc) (Label Op) := ⟨⟨.empty, none, []⟩, step hashes ct⟩

/-! ### What they hold -/

section Holds

variable {calls : CtCalls} {own : List CtHandle} {h : CtHandle}

/-- What a build leaves: with an error nothing more than before, else the handles of its result. -/
def Leaves {α : Type} (own : List CtHandle) (handles : α → List CtHandle) :
    CtCalls × Except GpuError α → Prop
  | (calls, .error _) => Holds calls own
  | (calls, .ok x) => Holds calls (handles x ++ own)

theorem fail_leaves {α : Type} {handles : α → List CtHandle} {created : List CtHandle}
    (hc : Holds calls (created ++ own)) (msg : String) :
    Leaves own handles (fail calls created msg) :=
  hc.destroyAll

theorem createDescriptors_leaves (hh : h ∈ own) (a : ℕ → Except String Unit)
    (names : List String) {descs : List CtHandle} (hc : Holds calls (descs ++ own)) :
    Leaves own id (createDescriptors h a names calls descs) := by
  induction names generalizing calls descs with
  | nil => exact hc
  | cons name names ih =>
    unfold createDescriptors
    have huse := hc.use (List.mem_append_right descs hh)
    cases a descs.length with
    | error e => exact fail_leaves huse _
    | ok u => exact ih (huse.create .descriptor)

/-- A build that fails leaves no handle behind, and one that succeeds leaves those of its plan. -/
theorem buildPlan_leaves (b : PlanBuilder) (hh : h ∈ own) (a : BuildAnswers)
    (hc : Holds calls own) : Leaves own (fun p => p.1.all) (buildPlan b h a calls) := by
  have hcreate := createDescriptors_leaves hh a.descriptor b.operands
    (show Holds calls ([] ++ own) from hc)
  unfold buildPlan
  revert hcreate
  rcases createDescriptors h a.descriptor b.operands calls [] with ⟨calls, e | descs⟩
  · exact id
  intro hdescs
  have hh' : ∀ created : List CtHandle, h ∈ created ++ own := fun created =>
    List.mem_append_right created hh
  have hoperation : Holds (calls.useAll (h :: descs)) (descs ++ own) := by
    refine Holds.useAll hdescs (h :: descs) fun x hx => ?_
    rcases List.mem_cons.1 hx with rfl | hx
    · exact hh' descs
    · exact List.mem_append_left own hx
  cases a.operation with
  | error e => exact fail_leaves hoperation _
  | ok u =>
    have hpreference := (hoperation.create .operation).use (List.mem_cons_of_mem _ (hh' descs))
    cases a.preference with
    | error e => exact fail_leaves hpreference _
    | ok u =>
      have hcreated := hpreference.create .preference
      have hsub : ∀ op pref : CtHandle, ∀ x ∈ [h, op, pref], x ∈ pref :: op :: (descs ++ own) := by
        simp [hh]
      have hestimate := hcreated.useAll _ (hsub _ _)
      cases a.workspaceSize with
      | error e => exact fail_leaves hestimate _
      | ok workspaceSize =>
        have hplan := hestimate.useAll _ (hsub _ _)
        cases a.plan with
        | error e => exact fail_leaves hplan _
        | ok u =>
          have hdescs : (descs ++ own).Perm (descs.reverse ++ own) :=
            (List.reverse_perm descs).symm.append_right own
          exact (hplan.create .plan).perm (((hdescs.cons _).cons _).cons _)

end Holds

section Runs

variable {h : CtHandle} {calls : CtCalls} {cache : Cache M E Op Desc}
  {held : List PlanHandles} {w : World M E Op Desc} {actor : TensorActor M E Op Desc}
  {plan : Plan Op Desc}

omit [DecidableEq M] [DecidableEq E] in
theorem mem_references {p : PlanHandles} :
    p ∈ references cache ↔ ∃ e ∈ cache.entries, e.2.handles = p :=
  List.mem_map

/-- A request that gets a plan finds it in the cache afterwards. -/
theorem getOrBuildPlan_shares (hcap : 0 < cache.capacity)
    (hs : Shares PlanHandles.all calls [h] (references cache ++ held)) (r : Request Op)
    (a : BuildAnswers) :
    ∃ calls' cache' result,
      getOrBuildPlan hashes ct held h calls cache r a = (calls', cache', result) ∧
      cache'.capacity = cache.capacity ∧
      Shares PlanHandles.all calls' [h] (references cache' ++ held) ∧
      ∀ plan, result = .ok plan → plan.handles ∈ references cache' := by
  unfold getOrBuildPlan
  cases hget : cache.get? (r.key hashes ct) with
  | some hit =>
    obtain ⟨plan, cache'⟩ := hit
    refine ⟨_, _, _, rfl, Lru.get?_capacity hget, hs.congr fun p => ?_, fun plan' hplan => ?_⟩
    · simp only [List.mem_append, mem_references, Lru.mem_get?_iff hget]
    · cases hplan
      exact mem_references.2 ⟨_, (Lru.mem_get?_iff hget).2 (Lru.mem_of_get? hget), rfl⟩
  | none =>
    have hbuild := buildPlan_leaves (planBuilder r) (List.mem_append_left _ List.mem_cons_self) a hs
    revert hbuild
    rcases buildPlan (planBuilder r) h a calls with ⟨calls', e | ⟨handles, workspaceSize⟩⟩
    · refine fun hbuild => ⟨_, _, _, rfl, rfl, hbuild, fun plan hplan => ?_⟩
      cases hplan
    intro hbuild
    have hadd : Shares PlanHandles.all calls' [h] (handles :: (references cache ++ held)) := by
      refine Shares.add (show Holds calls' _ from ?_) (List.cons_ne_nil _ _)
      rw [List.append_assoc]
      exact hbuild
    have hvalues := Lru.values_put_evicted
      (⟨⟨r.planArgs ct, workspaceSize⟩, handles⟩ : Plan Op Desc) hcap
      fun e => Lru.not_mem_of_get?_eq_none hget
    have hrefs := congrArg (List.map Plan.handles) hvalues
    rw [List.map_append, List.map_map, List.map_cons, List.map_map] at hrefs
    refine ⟨_, _, _, rfl, rfl, Shares.dropRefs (hadd.congr fun p => ?_), fun plan hplan => ?_⟩
    · have hp : p ∈ references (cache.put (r.key hashes ct) _) ++ _ ↔
          p ∈ handles :: references cache := iff_of_eq (congrArg (p ∈ ·) hrefs)
      simp only [List.mem_append, List.mem_cons] at hp ⊢
      tauto
    · cases hplan
      exact mem_references.2 ⟨_, Lru.mem_put_self hcap _ _, rfl⟩

/-- The handle of the actor is held, and so is every plan with a reference. -/
structure Inv (w : World M E Op Desc) : Prop where
  shares : Shares PlanHandles.all w.calls (w.actor.toList.map TensorActor.handle) w.references
  room : ∀ actor ∈ w.actor, 0 < actor.cache.capacity

omit [DecidableEq M] [DecidableEq E] in
theorem Inv.dropRef (hw : Inv w) (hplan : plan.handles ∈ w.references) :
    Inv (w.dropRef plan) := by
  unfold World.dropRef Ledger.dropRef
  rw [if_pos hplan]
  exact hw

omit [DecidableEq M] [DecidableEq E] in
theorem references_of_some (hactor : w.actor = some actor) :
    w.references = references actor.cache ++ w.inFlight.map Plan.handles := by
  simp [World.references, hactor]

/-- One request. -/
theorem execute_inv (hw : Inv w) (hactor : w.actor = some actor) (r : Request Op) (a : Answers) :
    Inv (execute hashes ct w actor r a).1 := by
  have hs := hw.shares
  rw [references_of_some hactor, hactor] at hs
  unfold execute
  cases r.checkLengths with
  | some e => exact hw
  | none =>
    cases a.buffers with
    | error e => exact hw
    | ok u =>
      obtain ⟨calls, cache, result, hplan, hcap, hs', hmem⟩ :=
        getOrBuildPlan_shares hashes ct (hw.room actor hactor) hs r a.build
      simp only [hplan]
      have hinv : Inv (⟨calls, some ⟨actor.handle, cache⟩, w.inFlight⟩ : World M E Op Desc) := by
        refine ⟨?_, ?_⟩
        · rw [references_of_some rfl]
          exact hs'
        · intro actor' hactor'
          obtain rfl := Option.some.inj hactor'
          exact hcap ▸ hw.room actor hactor
      cases result with
      | error e => exact hinv
      | ok plan =>
        have href : plan.handles ∈ references cache ++ w.inFlight.map Plan.handles :=
          List.mem_append_left _ (hmem plan rfl)
        have hrefs : ∀ calls : CtCalls,
            (⟨calls, some ⟨actor.handle, cache⟩, w.inFlight⟩ : World M E Op Desc).references =
              references cache ++ w.inFlight.map Plan.handles := fun calls =>
          references_of_some (w := ⟨calls, some ⟨actor.handle, cache⟩, w.inFlight⟩) rfl
        dsimp only
        split
        · exact hinv.dropRef (by rwa [hrefs])
        -- the launch uses the handle of the actor and the plan
        have huse : Holds (calls.useAll [actor.handle, plan.handles.plan]) _ :=
          Holds.useAll hs' _ fun x hx => by
            rcases List.mem_cons.1 hx with rfl | hx
            · exact List.mem_append_left _ List.mem_cons_self
            · refine List.mem_append_right _ (List.mem_flatMap.2 ⟨_, List.mem_dedup.2 href, ?_⟩)
              exact List.mem_singleton.1 hx ▸ List.mem_cons_self
        cases a.launch with
        | error e =>
          refine Inv.dropRef ⟨?_, hinv.room⟩ (by rwa [hrefs])
          show Shares _ _ _ (World.references _)
          rw [hrefs]
          exact huse
        | ok u =>
          refine Inv.dropRef ⟨?_, hinv.room⟩ ?_
          · show Shares _ _ _ (World.references _)
            rw [references_of_some rfl, List.map_append, ← List.append_assoc]
            refine Shares.congr huse fun p => ?_
            rw [List.mem_append (s := references cache ++ _)]
            refine (or_iff_left_of_imp fun hp => ?_).symm
            rw [List.mem_singleton.1 hp]
            exact href
          · rw [references_of_some rfl]
            exact List.mem_append_left _ (hmem plan rfl)

variable {hashes ct}

theorem inv_step {w' : World M E Op Desc} (hw : Inv w) {l : Label Op}
    (hstep : step hashes ct w l = some w') : Inv w' := by
  have hs := hw.shares
  cases l with
  | start ok =>
    cases hactor : w.actor with
    | some actor => simp [step, hactor] at hstep
    | none =>
      cases ok with
      | false =>
        simp only [step, hactor] at hstep
        exact Option.some.inj hstep ▸ hw
      | true =>
        simp only [step, hactor, if_true, Option.some.injEq] at hstep
        subst hstep
        rw [hactor] at hs
        refine ⟨?_, fun actor' hactor' => ?_⟩
        · have hrefs : w.references = w.inFlight.map Plan.handles := by
            simp [World.references, hactor]
          rw [references_of_some rfl]
          rw [hrefs] at hs
          exact Holds.create hs .library
        · obtain rfl := Option.some.inj hactor'
          exact lt_max_of_lt_right Nat.one_pos
  | request r a =>
    obtain ⟨actor, hactor, rfl⟩ := Option.map_eq_some_iff.1 hstep
    exact execute_inv hashes ct hw hactor r a
  | complete i =>
    cases hplan : w.inFlight[i]? with
    | none => simp [step, hplan] at hstep
    | some plan =>
      simp only [step, hplan, Option.some.injEq] at hstep
      subst hstep
      refine ⟨Shares.dropRef (hs.congr fun p => ?_), hw.room⟩
      have hmem := mem_map_eraseIdx (f := Plan.handles) hplan p
      simp only [World.references, List.mem_append, List.mem_cons] at hmem ⊢
      tauto
  | stop =>
    cases hactor : w.actor with
    | none => simp [step, hactor] at hstep
    | some actor =>
      simp only [step, hactor, Option.some.injEq] at hstep
      subst hstep
      rw [references_of_some hactor, hactor] at hs
      exact ⟨Shares.dropRefs (Holds.destroy hs), nofun⟩

omit [DecidableEq M] [DecidableEq E] in
theorem inv_init : Inv (⟨.empty, none, []⟩ : World M E Op Desc) :=
  ⟨Holds.empty, fun _ hactor => nomatch hactor⟩

theorem inv_of_run {ls : List (Label Op)}
    (hrun : (system hashes ct).run (system hashes ct).init ls = some w) : Inv w :=
  (System.along_of_inv (T := system hashes ct) (fun _ hs => hs)
    (fun _ _ _ hs hstep => inv_step hs hstep) inv_init ls).last hrun

/-- Whatever cuTENSOR answers, and in whatever order kernels complete and actors stop and start: no
handle is used or destroyed that is not live, and the live ones are those of the actor and of the
plans that are cached or in flight. -/
theorem live_iff_referenced {ls : List (Label Op)}
    (hrun : (system hashes ct).run (system hashes ct).init ls = some w) :
    Disciplined w.calls.log ∧
    (∀ x, Live w.calls.log x ↔
      (∃ actor ∈ w.actor, x = actor.handle) ∨ ∃ p ∈ w.references, x ∈ p.all) ∧
    (w.actor = none → w.inFlight = [] → Settled w.calls.log) := by
  have hs := (inv_of_run hrun).shares
  refine ⟨(Holds.accounts hs).disciplined, fun x => ⟨fun hx => ?_, ?_⟩, fun hactor hinFlight => ?_⟩
  · rcases List.mem_append.1 (Holds.mem_of_live hs hx) with hx | hx
    · obtain ⟨actor, hactor, rfl⟩ := List.mem_map.1 hx
      exact .inl ⟨actor, Option.mem_toList.1 hactor, rfl⟩
    · obtain ⟨p, hp, hx⟩ := List.mem_flatMap.1 hx
      exact .inr ⟨p, List.mem_dedup.1 hp, hx⟩
  · rintro (⟨actor, hactor, rfl⟩ | ⟨p, hp, hx⟩)
    · refine Holds.live hs (List.mem_append_left _ (List.mem_map.2 ⟨actor, ?_, rfl⟩))
      exact Option.mem_toList.2 hactor
    · exact hs.live hp hx
  · have hrefs : w.references = [] := by
      simp [World.references, hactor, hinFlight]
    rw [hrefs, hactor] at hs
    exact hs.settled

variable (hashes ct) in
theorem getOrBuildPlan_forget (held : List PlanHandles) (h : CtHandle) (calls : CtCalls)
    (cache : Cache M E Op Desc) (r : Request Op) (a : BuildAnswers) :
    ∃ calls' cache' result,
      getOrBuildPlan hashes ct held h calls cache r a = (calls', cache', result) ∧
      Tensor.getOrBuildPlan hashes ct (cache.map Plan.cached) r
        ((buildPlan (planBuilder r) h a calls).2.map Prod.snd) =
          (cache'.map Plan.cached, result.map Plan.cached) := by
  unfold getOrBuildPlan Tensor.getOrBuildPlan
  rw [Lru.get?_map]
  cases cache.get? (r.key hashes ct) with
  | some hit => exact ⟨_, _, _, rfl, rfl⟩
  | none =>
    rcases buildPlan (planBuilder r) h a calls with ⟨calls', e | ⟨handles, workspaceSize⟩⟩
    · exact ⟨_, _, _, rfl, rfl⟩
    · refine ⟨_, _, _, rfl, Prod.ext ?_ rfl⟩
      exact (Lru.put_map Plan.cached cache (r.key hashes ct)
        ⟨⟨r.planArgs ct, workspaceSize⟩, handles⟩).symm

/-- Without the handles a request does to the cache what `Tensor.execute` does, and the kernel it
puts in flight has the plan that `Tensor.execute` returns. -/
theorem execute_forget (hactor : w.actor = some actor) (r : Request Op) (a : Answers) :
    let plain := Tensor.execute hashes ct (actor.cache.map Plan.cached) r ⟨a.buffers,
      (buildPlan (planBuilder r) actor.handle a.build w.calls).2.map Prod.snd⟩
    let w' := (execute hashes ct w actor r a).1
    (∃ cache, w'.actor = some ⟨actor.handle, cache⟩ ∧ cache.map Plan.cached = plain.1) ∧
    (w'.inFlight = w.inFlight ∨
      ∃ plan, w'.inFlight = w.inFlight ++ [plan] ∧ plain.2 = .ok plan.cached) := by
  intro plain w'
  obtain ⟨calls, cache, result, hplan, hplain⟩ := getOrBuildPlan_forget hashes ct
    (w.inFlight.map Plan.handles) actor.handle w.calls actor.cache r a.build
  simp only [plain, w', execute, Tensor.execute]
  cases r.checkLengths with
  | some e => exact ⟨⟨_, hactor, rfl⟩, .inl rfl⟩
  | none =>
    cases a.buffers with
    | error e => exact ⟨⟨_, hactor, rfl⟩, .inl rfl⟩
    | ok u =>
      simp only [hplan, hplain]
      cases result with
      | error e => exact ⟨⟨_, rfl, rfl⟩, .inl rfl⟩
      | ok plan =>
        dsimp only
        split
        · exact ⟨⟨_, rfl, rfl⟩, .inl rfl⟩
        · cases a.launch with
          | error e => exact ⟨⟨_, rfl, rfl⟩, .inl rfl⟩
          | ok u => exact ⟨⟨_, rfl, rfl⟩, .inr ⟨plan, rfl, rfl⟩⟩

end Runs

/-- The actor stops while its only kernel is in flight. -/
theorem live_iff_referenced_transpose :
    let ok : Answers := ⟨.ok (), ⟨fun _ => .ok (), .ok (), .ok (), .ok 64, .ok ()⟩, .ok (), .ok ()⟩
    ∃ w, (system plainHashes plainCuTensor).run (system plainHashes plainCuTensor).init
        [.start true, .request (transpose []) ok, .stop, .complete 0] = some w ∧
      Settled w.calls.log := by
  intro ok
  have hrun : ((system plainHashes plainCuTensor).run (system plainHashes plainCuTensor).init
      [.start true, .request (transpose []) ok, .stop, .complete 0]).any
        (fun w => w.actor.isNone && w.inFlight.isEmpty) = true := by decide +kernel
  obtain ⟨w, hw, hrest⟩ := (Option.any_eq_true _ _).1 hrun
  rw [Bool.and_eq_true, Option.isNone_iff_eq_none, List.isEmpty_iff] at hrest
  exact ⟨w, hw, (live_iff_referenced hw).2.2 hrest.1 hrest.2⟩

end Lifetime

end Tensor

end AtomrAccel
