import AtomrAccel.Lib.Transition
import AtomrAccel.Tensorrt.Shim

/-!
# The lifetimes of TensorRT handles

An actor, runtimes and engines are made, used and dropped in any order, and inferences finish on
their streams at any time.

* `World`, `Label`, `step`, `system`: the owners of handles and what they do;
* `Safe`: live handles only are used and destroyed, no runtime is destroyed while an engine of its
  own is alive, and no context while its inference runs;
* `Careful`: no build gets a network, an inference has finished when its context is destroyed, and a
  runtime goes after its engines;
* `lifetimes_iff`: a run to the end is safe and destroys each handle once exactly when all its steps
  are careful.
-/

namespace AtomrAccel

namespace Trt

open Resource Ledger Transition

/-! ### Runs -/

/-- A call of `execute` at its last line, with what it returns. -/
structure Execution where
  context : TrtHandle
  engine : TrtHandle
  result : Except TrtError Unit

/-- `actor` is `none` once it is dropped; `inFlight` lists the contexts with an inference that has
not finished. -/
structure World where
  shim : Shim
  actor : Option TrtActor
  runtimes : List TrtHandle
  engines : List TrtEngine
  executing : List Execution
  inFlight : List TrtHandle

/-- The calls of the crate's users, with what the library answers. -/
inductive Label
  | ensureRuntime (nonNull : Bool)
  | newRuntime (nonNull : Bool)
  | deserialize (i : ℕ) (nonNull : Bool) (numIo : Int)
  /-- A call of `execute` up to its last line. -/
  | execute (i : ℕ) (bindings : List (List UInt8 × UInt64))
      (inputShapes : List (List UInt8 × List Int32)) (a : ExecuteAnswers)
  /-- Its last line. -/
  | returnExecute (i : ℕ)
  /-- An inference finishes on its stream. -/
  | finish (i : ℕ)
  | buildFromOnnx (config : IBuilderConfig) (a : BuildAnswers)
  | dropActor
  | dropRuntime (i : ℕ)
  | dropEngine (i : ℕ)

namespace World

/-- An actor without a runtime. -/
def init : World := ⟨.empty, some ⟨none⟩, [], [], [], []⟩

/-- The runtimes, that of the actor in front. -/
def allRuntimes (w : World) : List TrtHandle := (w.actor.bind TrtActor.runtime).toList ++ w.runtimes

/-- The handles that somebody will destroy. -/
def owners (w : World) : List TrtHandle :=
  w.allRuntimes ++ (w.engines.map TrtEngine.raw ++ w.executing.map Execution.context)

/-- A call of `execute` has got to its last line. -/
def enqueued (w : World) (engine : TrtEngine) (context : TrtHandle) (result : Except TrtError Unit)
    (s : Shim) : World :=
  { w with
    shim := s
    executing := ⟨context, engine.raw, result⟩ :: w.executing
    inFlight := if result.isOk then context :: w.inFlight else w.inFlight }

/-- Nothing is owned any more. -/
def Ended (w : World) : Prop :=
  w.actor = none ∧ w.runtimes = [] ∧ w.engines = [] ∧ w.executing = []

end World

section Runs

variable (debug display : List UInt8 → String)

/-- What borrows a value is over before the value is dropped. -/
def step (w : World) : Label → Option World
  | .ensureRuntime nonNull => w.actor.map fun actor =>
    let r := actor.ensureRuntime nonNull w.shim
    { w with actor := some r.2.1, shim := r.2.2 }
  | .newRuntime nonNull =>
    match newRuntime nonNull w.shim with
    | (.error _, s) => some { w with shim := s }
    | (.ok raw, s) => some { w with shim := s, runtimes := raw :: w.runtimes }
  | .deserialize i nonNull numIo => w.allRuntimes[i]?.map fun runtime =>
    match deserialize runtime nonNull numIo w.shim with
    | (.error _, s) => { w with shim := s }
    | (.ok engine, s) => { w with shim := s, engines := engine :: w.engines }
  | .execute i bindings inputShapes a =>
    if w.actor.isSome then w.engines[i]?.map fun engine =>
      match execute engine.raw bindings inputShapes debug display a w.shim with
      | (.error _, s) => { w with shim := s }
      | (.ok (context, result), s) => w.enqueued engine context result s
    else none
  | .returnExecute i => w.executing[i]?.map fun x =>
    { w with shim := w.shim.destroy x.context, executing := w.executing.eraseIdx i }
  | .finish i => w.inFlight[i]?.map fun _ => { w with inFlight := w.inFlight.eraseIdx i }
  | .buildFromOnnx config a =>
    if w.actor.isSome then some { w with shim := (buildFromOnnx config a w.shim).2 } else none
  | .dropActor => w.actor.bind fun actor =>
    if w.executing.isEmpty then some { w with actor := none, shim := actor.drop w.shim } else none
  | .dropRuntime i => w.runtimes[i]?.map fun raw =>
    { w with shim := w.shim.destroy raw, runtimes := w.runtimes.eraseIdx i }
  | .dropEngine i => w.engines[i]?.bind fun engine =>
    if engine.raw ∈ w.executing.map Execution.engine then none
    else some { w with shim := w.shim.destroy engine.raw, engines := w.engines.eraseIdx i }

/-- The library with the crate's users. -/
def system : System World Label := ⟨.init, step debug display⟩

/-! ### What should hold -/

/-- Live handles only are used, runtimes outlive engines, and contexts outlive inferences. -/
structure Safe (w : World) : Prop where
  disciplined : Disciplined w.shim.log
  runtimes : ∀ engine ∈ w.engines, Live w.shim.log engine.runtime
  contexts : ∀ context ∈ w.inFlight, Live w.shim.log context

/-- No call that the wrappers let go wrong. -/
def Careful (w : World) : Label → Prop
  | .returnExecute i => ∀ x, w.executing[i]? = some x → x.context ∉ w.inFlight
  | .buildFromOnnx _ a => (a.builder && a.network) = false
  | .dropActor => ∀ actor raw, w.actor = some actor → actor.runtime = some raw →
    ∀ engine ∈ w.engines, engine.runtime ≠ raw
  | .dropRuntime i => ∀ raw, w.runtimes[i]? = some raw →
    ∀ engine ∈ w.engines, engine.runtime ≠ raw
  | _ => True

/-! ### What is held -/

/-- The handles that have been created and not destroyed are those with an owner and those that
builds have left behind. -/
def Tracked (w : World) (leaked : List TrtHandle) : Prop := Holds w.shim (w.owners ++ leaked)

/-- What a step leaves behind. -/
def leakOf (w : World) : Label → List TrtHandle
  | .buildFromOnnx _ a => a.leak w.shim
  | _ => []

variable {debug display} {w w' : World} {leaked : List TrtHandle}

/-- The lists of owners, with one more in any of them. -/
theorem perm_runtime {α : Type*} (h : α) (A R E X L : List α) :
    (h :: (A ++ R ++ (E ++ X) ++ L)).Perm (A ++ (h :: R) ++ (E ++ X) ++ L) := by
  simp only [List.append_assoc, List.cons_append]
  exact List.perm_middle.symm

theorem perm_engine {α : Type*} (h : α) (R E X L : List α) :
    (h :: (R ++ (E ++ X) ++ L)).Perm (R ++ ((h :: E) ++ X) ++ L) := by
  simp only [List.append_assoc, List.cons_append]
  exact List.perm_middle.symm

theorem perm_context {α : Type*} (h : α) (R E X L : List α) :
    (h :: (R ++ (E ++ X) ++ L)).Perm (R ++ (E ++ (h :: X)) ++ L) := by
  have hmiddle : (h :: ((R ++ E) ++ (X ++ L))).Perm ((R ++ E) ++ h :: (X ++ L)) :=
    List.perm_middle.symm
  simpa only [List.append_assoc, List.cons_append] using hmiddle

/-- The actor has its runtime, or gets none, or gets a new one. -/
theorem step_ensureRuntime {nonNull : Bool}
    (hstep : step debug display w (.ensureRuntime nonNull) = some w') :
    w' = w ∨ w.actor = some ⟨none⟩ ∧
      w' = { w with
        actor := some ⟨some (w.shim.fresh .runtime)⟩, shim := w.shim.create .runtime } := by
  obtain ⟨⟨runtime⟩, hactor, rfl⟩ := Option.map_eq_some_iff.1 hstep
  obtain ⟨shim, actor, runtimes, engines, executing, inFlight⟩ := w
  subst hactor
  cases runtime with
  | some raw => exact Or.inl rfl
  | none =>
    cases nonNull with
    | false => exact Or.inl rfl
    | true => exact Or.inr ⟨rfl, rfl⟩

namespace Tracked

theorem init : Tracked .init [] := Holds.empty

theorem newRuntime (h : Tracked w leaked) (nonNull : Bool)
    (hstep : step debug display w (.newRuntime nonNull) = some w') : Tracked w' leaked := by
  cases nonNull with
  | false =>
    cases hstep
    exact h
  | true =>
    cases hstep
    exact (Holds.create h .runtime).perm (perm_runtime _ _ _ _ _ _)

theorem ensureRuntime (h : Tracked w leaked) (nonNull : Bool)
    (hstep : step debug display w (.ensureRuntime nonNull) = some w') : Tracked w' leaked := by
  rcases step_ensureRuntime hstep with rfl | ⟨hactor, rfl⟩
  · exact h
  · obtain ⟨shim, actor, runtimes, engines, executing, inFlight⟩ := w
    subst hactor
    exact Holds.create h .runtime

theorem deserialize (h : Tracked w leaked) (i : ℕ) (nonNull : Bool) (numIo : Int)
    (hstep : step debug display w (.deserialize i nonNull numIo) = some w') :
    Tracked w' leaked := by
  obtain ⟨runtime, hruntime, rfl⟩ := Option.map_eq_some_iff.1 hstep
  have hmem : runtime ∈ w.owners ++ leaked :=
    List.mem_append_left _ (List.mem_append_left _ (List.mem_of_getElem? hruntime))
  have huse := Holds.use h hmem
  cases nonNull with
  | false => exact huse
  | true =>
    have hnew := (huse.create .engine).use List.mem_cons_self
    exact hnew.perm (perm_engine _ _ _ _ _)

theorem execute (h : Tracked w leaked) {i : ℕ} {bindings : List (List UInt8 × UInt64)}
    {inputShapes : List (List UInt8 × List Int32)} {a : ExecuteAnswers}
    (hstep : step debug display w (.execute i bindings inputShapes a) = some w') :
    Tracked w' leaked := by
  simp only [step] at hstep
  split at hstep
  · obtain ⟨engine, hengine, rfl⟩ := Option.map_eq_some_iff.1 hstep
    have hmem : engine.raw ∈ w.owners ++ leaked :=
      List.mem_append_left _ (List.mem_append_right _
        (List.mem_append_left _ (List.mem_map_of_mem (List.mem_of_getElem? hengine))))
    have hrun := execute_holds bindings inputShapes debug display a h hmem
    rcases hresult : Trt.execute engine.raw bindings inputShapes debug display a w.shim with
      ⟨_ | ⟨context, result⟩, s⟩
    · rw [hresult] at hrun
      exact hrun
    · rw [hresult] at hrun
      exact hrun.perm (perm_context _ _ _ _ _)
  · cases hstep

theorem returnExecute (h : Tracked w leaked) {i : ℕ}
    (hstep : step debug display w (.returnExecute i) = some w') : Tracked w' leaked := by
  obtain ⟨x, hx, rfl⟩ := Option.map_eq_some_iff.1 hstep
  have hperm := (perm_eraseIdx hx).map Execution.context
  have hfront := Holds.perm h (((hperm.append_left _).append_left _).append_right leaked)
  exact (hfront.perm (perm_context _ _ _ _ _).symm).destroy

theorem dropEngine (h : Tracked w leaked) {i : ℕ}
    (hstep : step debug display w (.dropEngine i) = some w') : Tracked w' leaked := by
  obtain ⟨engine, hengine, hstep⟩ := Option.bind_eq_some_iff.1 hstep
  split at hstep
  · cases hstep
  · cases hstep
    have hperm := (perm_eraseIdx hengine).map TrtEngine.raw
    have hfront := Holds.perm h (((hperm.append_right _).append_left _).append_right leaked)
    exact (hfront.perm (perm_engine _ _ _ _ _).symm).destroy

theorem dropRuntime (h : Tracked w leaked) {i : ℕ}
    (hstep : step debug display w (.dropRuntime i) = some w') : Tracked w' leaked := by
  obtain ⟨raw, hraw, rfl⟩ := Option.map_eq_some_iff.1 hstep
  have hperm := perm_eraseIdx hraw
  have hfront := Holds.perm h (((hperm.append_left _).append_right _).append_right leaked)
  exact (hfront.perm (perm_runtime _ _ _ _ _ _).symm).destroy

theorem dropActor (h : Tracked w leaked)
    (hstep : step debug display w .dropActor = some w') : Tracked w' leaked := by
  obtain ⟨⟨runtime⟩, hactor, hstep⟩ := Option.bind_eq_some_iff.1 hstep
  obtain ⟨shim, actor, runtimes, engines, executing, inFlight⟩ := w
  subst hactor
  split at hstep
  · cases hstep
    cases runtime with
    | none => exact h
    | some raw => exact Holds.destroy h
  · cases hstep

/-- Every handle is owned or was left behind, after any step. -/
theorem next (h : Tracked w leaked) {l : Label} (hstep : step debug display w l = some w') :
    Tracked w' (leakOf w l ++ leaked) := by
  cases l with
  | ensureRuntime nonNull => exact h.ensureRuntime nonNull hstep
  | newRuntime nonNull => exact h.newRuntime nonNull hstep
  | deserialize i nonNull numIo => exact h.deserialize i nonNull numIo hstep
  | execute i bindings inputShapes a => exact h.execute hstep
  | returnExecute i => exact h.returnExecute hstep
  | finish i =>
    obtain ⟨context, -, rfl⟩ := Option.map_eq_some_iff.1 hstep
    exact h
  | buildFromOnnx config a =>
    simp only [step] at hstep
    split at hstep
    · cases hstep
      have hbuild := buildFromOnnx_holds config a h
      refine hbuild.perm ?_
      exact List.perm_append_comm_assoc _ _ _
    · cases hstep
  | dropActor => exact h.dropActor hstep
  | dropRuntime i => exact h.dropRuntime hstep
  | dropEngine i => exact h.dropEngine hstep

end Tracked

/-! ### What is left behind -/

/-- A live handle that nobody will destroy. -/
def Leak (w : World) : Prop := ∃ h, Live w.shim.log h ∧ h ∉ w.owners

theorem Tracked.leak_iff (h : Tracked w leaked) : Leak w ↔ leaked ≠ [] := by
  constructor
  · rintro ⟨handle, hlive, hnot⟩ rfl
    refine hnot ?_
    have hmem := Holds.mem_of_live h hlive
    rwa [List.append_nil] at hmem
  · intro hne
    obtain ⟨handle, hmem⟩ := List.exists_mem_of_ne_nil leaked hne
    refine ⟨handle, Holds.live h (List.mem_append_right _ hmem), fun howned => ?_⟩
    exact (List.nodup_append.1 h.nodup).2.2 handle howned handle hmem rfl

/-! ### The order of destructions -/

/-- Engines have their runtimes, and running inferences their contexts. -/
structure Ordered (w : World) : Prop where
  runtimes : ∀ engine ∈ w.engines, engine.runtime ∈ w.allRuntimes
  contexts : ∀ context ∈ w.inFlight, context ∈ w.executing.map Execution.context

theorem Tracked.safe (h : Tracked w leaked) (ho : Ordered w) : Safe w where
  disciplined := h.accounts.disciplined
  runtimes engine he := Holds.live h
    (List.mem_append_left _ (List.mem_append_left _ (ho.runtimes engine he)))
  contexts _ hc := Holds.live h
    (List.mem_append_left _ (List.mem_append_right _ (List.mem_append_right _ (ho.contexts _ hc))))

namespace Ordered

theorem init : Ordered .init := ⟨fun _ h => absurd h List.not_mem_nil,
  fun _ h => absurd h List.not_mem_nil⟩

theorem ensureRuntime (h : Ordered w) (nonNull : Bool)
    (hstep : step debug display w (.ensureRuntime nonNull) = some w') : Ordered w' := by
  rcases step_ensureRuntime hstep with rfl | ⟨hactor, rfl⟩
  · exact h
  · obtain ⟨shim, actor, runtimes, engines, executing, inFlight⟩ := w
    subst hactor
    exact ⟨fun engine he => List.mem_cons_of_mem _ (h.runtimes engine he), h.contexts⟩

theorem newRuntime (h : Ordered w) (nonNull : Bool)
    (hstep : step debug display w (.newRuntime nonNull) = some w') : Ordered w' := by
  cases nonNull with
  | false =>
    cases hstep
    exact h
  | true =>
    cases hstep
    refine ⟨fun engine he => ?_, h.contexts⟩
    exact List.perm_middle.symm.subset (List.mem_cons_of_mem _ (h.runtimes engine he))

theorem deserialize (h : Ordered w) {i : ℕ} {nonNull : Bool} {numIo : Int}
    (hstep : step debug display w (.deserialize i nonNull numIo) = some w') : Ordered w' := by
  obtain ⟨runtime, hruntime, rfl⟩ := Option.map_eq_some_iff.1 hstep
  cases nonNull with
  | false => exact ⟨h.runtimes, h.contexts⟩
  | true =>
    refine ⟨?_, h.contexts⟩
    exact List.forall_mem_cons.2 ⟨List.mem_of_getElem? hruntime, h.runtimes⟩

theorem execute (h : Ordered w) {i : ℕ} {bindings : List (List UInt8 × UInt64)}
    {inputShapes : List (List UInt8 × List Int32)} {a : ExecuteAnswers}
    (hstep : step debug display w (.execute i bindings inputShapes a) = some w') : Ordered w' := by
  simp only [step] at hstep
  split at hstep
  · obtain ⟨engine, -, rfl⟩ := Option.map_eq_some_iff.1 hstep
    rcases Trt.execute engine.raw bindings inputShapes debug display a w.shim with
      ⟨_ | ⟨context, result⟩, s⟩
    · exact ⟨h.runtimes, h.contexts⟩
    · refine ⟨h.runtimes, fun c hc => ?_⟩
      have hc : c ∈ if result.isOk then context :: w.inFlight else w.inFlight := hc
      split at hc
      · rcases List.mem_cons.1 hc with rfl | hold
        · exact List.mem_cons_self
        · exact List.mem_cons_of_mem _ (h.contexts c hold)
      · exact List.mem_cons_of_mem _ (h.contexts c hc)
  · cases hstep

/-- Out of a list with an element in front. -/
theorem mem_of_perm_cons {α : Type*} {l l' : List α} {a b : α} (hperm : l.Perm (a :: l'))
    (hb : b ∈ l) (hne : b ≠ a) : b ∈ l' :=
  List.mem_of_ne_of_mem hne (hperm.subset hb)

theorem returnExecute (h : Ordered w) {i : ℕ} (hcareful : Careful w (.returnExecute i))
    (hstep : step debug display w (.returnExecute i) = some w') : Ordered w' := by
  obtain ⟨x, hx, rfl⟩ := Option.map_eq_some_iff.1 hstep
  refine ⟨h.runtimes, fun c hc => ?_⟩
  refine mem_of_perm_cons ((perm_eraseIdx hx).map Execution.context) (h.contexts c hc) ?_
  rintro rfl
  exact hcareful x hx hc

theorem dropActor (h : Ordered w) (hcareful : Careful w .dropActor)
    (hstep : step debug display w .dropActor = some w') : Ordered w' := by
  obtain ⟨⟨runtime⟩, hactor, hstep⟩ := Option.bind_eq_some_iff.1 hstep
  split at hstep
  · cases hstep
    refine ⟨fun engine he => ?_, h.contexts⟩
    have hmem := h.runtimes engine he
    rw [World.allRuntimes, hactor] at hmem
    rcases List.mem_append.1 hmem with hown | hother
    · have hraw : runtime = some engine.runtime := Option.mem_toList.1 hown
      exact absurd rfl (hcareful ⟨runtime⟩ engine.runtime hactor hraw engine he)
    · exact hother
  · cases hstep

theorem dropRuntime (h : Ordered w) {i : ℕ} (hcareful : Careful w (.dropRuntime i))
    (hstep : step debug display w (.dropRuntime i) = some w') : Ordered w' := by
  obtain ⟨raw, hraw, rfl⟩ := Option.map_eq_some_iff.1 hstep
  refine ⟨fun engine he => ?_, h.contexts⟩
  have hperm : w.allRuntimes.Perm
      (raw :: ((w.actor.bind TrtActor.runtime).toList ++ w.runtimes.eraseIdx i)) :=
    ((perm_eraseIdx hraw).append_left _).trans List.perm_middle
  exact mem_of_perm_cons hperm (h.runtimes engine he) (hcareful raw hraw engine he)

theorem next (h : Ordered w) {l : Label} (hcareful : Careful w l)
    (hstep : step debug display w l = some w') : Ordered w' := by
  cases l with
  | ensureRuntime nonNull => exact h.ensureRuntime nonNull hstep
  | newRuntime nonNull => exact h.newRuntime nonNull hstep
  | deserialize i nonNull numIo => exact h.deserialize hstep
  | execute i bindings inputShapes a => exact h.execute hstep
  | returnExecute i => exact h.returnExecute hcareful hstep
  | finish i =>
    obtain ⟨context, -, rfl⟩ := Option.map_eq_some_iff.1 hstep
    exact ⟨h.runtimes, fun c hc => h.contexts c (List.mem_of_mem_eraseIdx hc)⟩
  | buildFromOnnx config a =>
    simp only [step] at hstep
    split at hstep
    · cases hstep
      exact ⟨h.runtimes, h.contexts⟩
    · cases hstep
  | dropActor => exact h.dropActor hcareful hstep
  | dropRuntime i => exact h.dropRuntime hcareful hstep
  | dropEngine i =>
    obtain ⟨engine, -, hstep⟩ := Option.bind_eq_some_iff.1 hstep
    split at hstep
    · cases hstep
    · cases hstep
      exact ⟨fun e he => h.runtimes e (List.mem_of_mem_eraseIdx he), h.contexts⟩

end Ordered

/-- What is destroyed is not live. -/
theorem not_live_destroy (s : Shim) (h : TrtHandle) : ¬ Live (s.destroy h).log h :=
  fun hlive => hlive.2 List.mem_cons_self

/-- A step that is not careful is unsafe at once, or leaves a handle behind. -/
theorem careful_of_safe (h : Tracked w leaked) {l : Label}
    (hstep : step debug display w l = some w') (hsafe : Safe w') (hleak : ¬ Leak w') :
    Careful w l := by
  cases l with
  | returnExecute i =>
    intro x hx hflight
    obtain ⟨y, hy, rfl⟩ := Option.map_eq_some_iff.1 hstep
    obtain rfl := Option.some.inj (hx.symm.trans hy)
    exact not_live_destroy _ _ (hsafe.contexts _ hflight)
  | buildFromOnnx config a =>
    by_contra hnetwork
    have hnext := h.next hstep
    have hnil := not_not.1 (mt hnext.leak_iff.2 hleak)
    rw [leakOf, BuildAnswers.leak, if_pos (Bool.not_eq_false _ ▸ hnetwork)] at hnil
    cases hnil
  | dropActor =>
    rintro ⟨runtime⟩ raw hactor hraw engine he rfl
    obtain ⟨actor, hactor', hstep⟩ := Option.bind_eq_some_iff.1 hstep
    obtain rfl := Option.some.inj (hactor.symm.trans hactor')
    have hraw : runtime = some engine.runtime := hraw
    subst hraw
    split at hstep
    · cases hstep
      exact not_live_destroy _ _ (hsafe.runtimes engine he)
    · cases hstep
  | dropRuntime i =>
    rintro raw hraw engine he rfl
    obtain ⟨raw', hraw', rfl⟩ := Option.map_eq_some_iff.1 hstep
    obtain rfl := Option.some.inj (hraw.symm.trans hraw')
    exact not_live_destroy _ _ (hsafe.runtimes engine he)
  | _ => trivial

/-! ### The runs -/

/-- In a run to the end, live handles only are used, runtimes outlive their engines, contexts outlive
their inferences and each handle is destroyed once, exactly when all steps are careful. -/
theorem lifetimes_iff (debug display : List UInt8 → String) (ls : List Label) (w : World)
    (hrun : (system debug display).run .init ls = some w) (hend : w.Ended) :
    (system debug display).Along Safe .init ls ∧ Settled w.shim.log ↔
      (system debug display).Meets Careful .init ls := by
  have hempty : w.owners = [] := by
    obtain ⟨hactor, hruntimes, hengines, hexecuting⟩ := hend
    rw [World.owners, World.allRuntimes, hactor, hruntimes, hengines, hexecuting]
    rfl
  have hnext : ∀ v l v', Tracked v [] ∧ Ordered v → Careful v l →
      (system debug display).step v l = some v' → Tracked v' [] ∧ Ordered v' := by
    rintro v l v' ⟨htracked, hordered⟩ hcareful hstep
    have hleak : leakOf v l = [] := by
      cases l with
      | buildFromOnnx config a => exact if_neg (Bool.eq_false_iff.1 hcareful)
      | _ => rfl
    have hv' := htracked.next hstep
    rw [hleak] at hv'
    exact ⟨hv', hordered.next hcareful hstep⟩
  constructor
  · rintro ⟨hsafe, hsettled⟩
    have hclean : ¬ Leak w := fun ⟨_, hlive, _⟩ => not_settled_of_live hlive hsettled
    have hnever := System.along_not_of_trap (T := system debug display) (D := Leak)
      (I := fun v => ∃ leaked, Tracked v leaked)
      (fun v l v' ⟨leaked, h⟩ hstep => ⟨_, h.next hstep⟩)
      (fun v l v' ⟨leaked, h⟩ hleak hstep => (h.next hstep).leak_iff.2
        (List.append_ne_nil_of_right_ne_nil _ (h.leak_iff.1 hleak)))
      ⟨[], Tracked.init⟩ hrun hclean
    exact System.meets_of_along
      (fun v l v' h hstep hv' => careful_of_safe h.1 hstep hv'.1 hv'.2) hnext
      ⟨Tracked.init, Ordered.init⟩ (hsafe.and hnever)
  · intro hmeets
    refine ⟨System.along_of_meets (fun v h => h.1.safe h.2) hnext
      ⟨Tracked.init, Ordered.init⟩ hmeets, ?_⟩
    have hinv := System.along_of_meets (fun _ h => h) hnext ⟨Tracked.init, Ordered.init⟩ hmeets
    have hheld := (hinv.last hrun).1
    rw [Tracked, hempty] at hheld
    exact hheld.settled_iff.2 rfl

/-- Every call of an inference goes through. -/
def answered : ExecuteAnswers := ⟨true, fun _ => 0, fun _ => 0, 0⟩

/-- One inference from a deserialised plan, with everything dropped in order. -/
def carefulRun : List Label :=
  [.ensureRuntime true, .newRuntime true, .deserialize 1 true 2,
    .execute 0 [([105, 110], 4096)] [([105, 110], [1, 3])] answered, .finish 0, .returnExecute 0,
    .dropEngine 0, .dropRuntime 0, .dropActor]

theorem lifetimes_carefulRun :
    ∃ w, (system (fun _ => "in") fun _ => "in").run .init carefulRun = some w ∧ w.Ended ∧
      ((system (fun _ => "in") fun _ => "in").Along Safe .init carefulRun ∧ Settled w.shim.log ↔
        (system (fun _ => "in") fun _ => "in").Meets Careful .init carefulRun) := by
  refine ⟨_, rfl, ⟨rfl, rfl, rfl, rfl⟩, ?_⟩
  exact lifetimes_iff _ _ carefulRun _ rfl ⟨rfl, rfl, rfl, rfl⟩

end Runs

/-- A plan is built. -/
def builtPlan : List Label :=
  [.buildFromOnnx ⟨.fp32, false, .disabled, 2 ^ 30, 0⟩ ⟨true, true, true, 1, 0, true, true, [1]⟩,
    .dropActor]

/-- The runtime goes before its engine. -/
def earlyDrop : List Label :=
  [.newRuntime true, .deserialize 0 true 2, .dropRuntime 0, .dropEngine 0, .dropActor]

/-- An inference runs on when `execute` returns. -/
def slowInference : List Label :=
  [.newRuntime true, .deserialize 0 true 2, .execute 0 [] [] answered, .returnExecute 0, .finish 0,
    .dropEngine 0, .dropRuntime 0, .dropActor]

/-- A build leaks its network, a runtime can go before its engine, and a context goes before its
inference. -/
theorem lifetimes_broken :
    let T := system (fun _ => "in") fun _ => "in"
    (∃ w, T.run .init builtPlan = some w ∧ w.Ended ∧ ¬ Settled w.shim.log) ∧
      (∃ w, T.run .init earlyDrop = some w ∧ w.Ended ∧ ¬ T.Along Safe .init earlyDrop) ∧
      ∃ w, T.run .init slowInference = some w ∧ w.Ended ∧ ¬ T.Along Safe .init slowInference := by
  refine ⟨⟨_, rfl, ⟨rfl, rfl, rfl, rfl⟩, ?_⟩, ⟨_, rfl, ⟨rfl, rfl, rfl, rfl⟩, ?_⟩,
    ⟨_, rfl, ⟨rfl, rfl, rfl, rfl⟩, ?_⟩⟩
  · exact not_settled_of_live (a := ⟨.network, 1⟩) (by decide)
  · intro hsafe
    have hdropped := (((hsafe.2 _ rfl).2 _ rfl).2 _ rfl).head
    exact not_live_destroy _ _ (hdropped.runtimes _ List.mem_cons_self)
  · intro hsafe
    have hreturned := ((((hsafe.2 _ rfl).2 _ rfl).2 _ rfl).2 _ rfl).head
    exact not_live_destroy _ _ (hreturned.contexts _ List.mem_cons_self)

end Trt

end AtomrAccel
