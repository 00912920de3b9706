import AtomrAccel.Lib.Lru
import AtomrAccel.Lib.Transition

/-!
# `CutlassActor` and its plan cache

A GEMM, grouped GEMM or convolution message looks for its plan in an LRU cache; on a miss the actor
renders the source, hands it to the compile sink if there is one, and caches the plan.  What the
sink answers is logged or dropped, and `Refit` only asks whether the cache holds the key.

* `CutlassMsg`, `CutlassActor.handle`: the messages and the handler;
* `Label`, `step`, `system`: the actor over a run, with the answers of the sink;
* `CachesCompiled`: every cached plan was accepted by the sink, a refit is only granted for such a
  plan, and a rejected source is compiled again for the next message with its key;
* `SinkAccepts`, `along_cachesCompiled_iff`: so it is in a run exactly when the sink rejects none
  of the sources it is handed.
-/

namespace AtomrAccel

namespace Cutlass

open Transition

/-- A key: the template and three hashes. -/
structure PlanKey where
  templateId : UInt8
  payload : UInt64 × UInt64 × UInt64
  deriving DecidableEq, Repr

/-- `{:?}`. -/
def PlanKey.debug (k : PlanKey) : String :=
  "PlanKey \x7b template_id: " ++ toString k.templateId.toNat ++ ", payload: [" ++
    toString k.payload.1.toNat ++ ", " ++ toString k.payload.2.1.toNat ++ ", " ++
    toString k.payload.2.2.toNat ++ "] \x7d"

/-- The payload of `kernel_handle` is never set. -/
structure CachedPlan where
  key : PlanKey
  source : String
  kernelName : String
  deriving DecidableEq, Repr

/-- The cache of compiled plans. -/
abbrev PlanCache := Lru PlanKey CachedPlan

namespace PlanCache

/-- A cache that holds at least one plan. -/
def new (capacity : ℕ) : PlanCache := Lru.empty (max capacity 1)

/-- A plan under its own key. -/
def insert (cache : PlanCache) (plan : CachedPlan) : PlanCache := cache.put plan.key plan

end PlanCache

/-- A boxed dispatch, as its `plan_key` and what `render_cu` returns. -/
structure Dispatch where
  planKey : PlanKey
  source : String
  kernelName : String
  deriving DecidableEq, Repr

/-- The messages of the actor. -/
inductive CutlassMsg
  | gemm (d : Dispatch)
  | groupedGemm (d : Dispatch)
  | conv (d : Dispatch)
  | refit (planKey : PlanKey)
  deriving DecidableEq, Repr

/-- The actor; `compileSink` says whether a sink is configured. -/
structure CutlassActor where
  planCache : PlanCache
  compileSink : Bool
  dispatched : UInt64

/-- A call of the sink, with its answer. -/
structure Compile where
  key : PlanKey
  source : String
  kernelName : String
  answer : Except String Unit
  deriving DecidableEq, Repr

/-- What the handler did: the actor, the call of the sink and the reply to a refit. -/
structure Handled where
  actor : CutlassActor
  compiled : Option Compile
  reply : Option (Except String Unit)

namespace CutlassActor

/-- The constructors leave `compile_sink` empty; it is a public field, which `compileSink` says
whether the user of the crate has set. -/
def new (planCacheCapacity : ℕ) (compileSink : Bool) : CutlassActor :=
  ⟨PlanCache.new planCacheCapacity, compileSink, 0⟩

/-- Look up, render, compile, insert: the arms of the three dispatch messages, which differ in
whether they log a rejection. -/
def handleDispatch (s : CutlassActor) (d : Dispatch) (answer : Except String Unit) : Handled :=
  match s.planCache.get? d.planKey with
  | some (_, cache) => ⟨{ s with planCache := cache }, none, none⟩
  | none =>
    let compiled :=
      if s.compileSink then some ⟨d.planKey, d.source, d.kernelName, answer⟩ else none
    ⟨{ s with planCache := PlanCache.insert s.planCache ⟨d.planKey, d.source, d.kernelName⟩ },
      compiled, none⟩

/-- A plan is looked for, and used if it is there. -/
def handleRefit (s : CutlassActor) (planKey : PlanKey) : Handled :=
  match s.planCache.get? planKey with
  | some (_, cache) => ⟨{ s with planCache := cache }, none, some (.ok ())⟩
  | none => ⟨s, none, some (.error ("cutlass refit: no plan for key " ++ planKey.debug))⟩

/-- `handle`; `answer` is what the sink says if it is called. -/
def handle (s : CutlassActor) (msg : CutlassMsg) (answer : Except String Unit) : Handled :=
  let s := { s with dispatched := s.dispatched + 1 }
  match msg with
  | .gemm d => s.handleDispatch d answer
  | .groupedGemm d => s.handleDispatch d answer
  | .conv d => s.handleDispatch d answer
  | .refit planKey => s.handleRefit planKey

end CutlassActor

/-! ### Runs -/

/-- A message, with the answer of the sink. -/
structure Label where
  msg : CutlassMsg
  answer : Except String Unit
  deriving DecidableEq, Repr

/-- The actor and the calls of the sink so far, the last one first. -/
structure State where
  actor : CutlassActor
  compiles : List Compile

/-- One message, with the answer of the sink. -/
def step (s : State) (l : Label) : Option State :=
  let h := s.actor.handle l.msg l.answer
  some ⟨h.actor, h.compiled.toList ++ s.compiles⟩

/-- The actor with its messages. -/
def system (planCacheCapacity : ℕ) (compileSink : Bool) : System State Label :=
  ⟨⟨CutlassActor.new planCacheCapacity compileSink, []⟩, step⟩

namespace CutlassMsg

/-- The dispatch of a message that carries one. -/
def dispatch? : CutlassMsg → Option Dispatch
  | gemm d | groupedGemm d | conv d => some d
  | refit _ => none

end CutlassMsg

namespace State

/-- The last call of the sink for a key. -/
def lastCompile (s : State) (key : PlanKey) : Option Compile :=
  s.compiles.find? fun c => c.key = key

/-- The last source compiled for the key was `source`, and the sink accepted it. -/
def Accepted (s : State) (key : PlanKey) (source : String) : Prop :=
  ∃ c, s.lastCompile key = some c ∧ c.source = source ∧ c.answer = .ok ()

/-- With a sink configured: the cached plans are accepted ones, a refit is granted for cached and
accepted plans only, and a key whose last source was rejected is compiled again. -/
structure CachesCompiled (s : State) : Prop where
  cached : s.actor.compileSink = true →
    ∀ e ∈ s.actor.planCache.entries, s.Accepted e.1 e.2.source
  refit_ok : s.actor.compileSink = true → ∀ planKey answer,
    (s.actor.handle (.refit planKey) answer).reply = some (.ok ()) →
      ∃ plan, (planKey, plan) ∈ s.actor.planCache.entries ∧ s.Accepted planKey plan.source
  retried : s.actor.compileSink = true → ∀ msg answer d c e, msg.dispatch? = some d →
    s.lastCompile d.planKey = some c → c.answer = .error e →
      (s.actor.handle msg answer).compiled = some ⟨d.planKey, d.source, d.kernelName, answer⟩

/-- The message has the sink compile its source. -/
def CallsSink (s : State) (msg : CutlassMsg) : Prop :=
  s.actor.compileSink = true ∧
    ∃ d, msg.dispatch? = some d ∧ s.actor.planCache.get? d.planKey = none

/-- The sink does not reject what the step hands it. -/
def SinkAccepts (s : State) (l : Label) : Prop := s.CallsSink l.msg → l.answer = .ok ()

end State

/-! ### One step -/

/-- What a message does: it finds a plan or asks for a refit, and compiles nothing; or it misses,
and its plan goes into the cache whatever the sink says. -/
theorem step_cases {s s' : State} {l : Label} (h : step s l = some s') :
    (¬ s.CallsSink l.msg ∧ s'.compiles = s.compiles ∧
      (∀ e ∈ s'.actor.planCache.entries, e ∈ s.actor.planCache.entries) ∧
      s'.actor.planCache.capacity = s.actor.planCache.capacity ∧
      s'.actor.compileSink = s.actor.compileSink) ∨
    ∃ d, l.msg.dispatch? = some d ∧ s.actor.planCache.get? d.planKey = none ∧
      s'.actor.planCache =
        s.actor.planCache.put d.planKey ⟨d.planKey, d.source, d.kernelName⟩ ∧
      s'.actor.compileSink = s.actor.compileSink ∧
      s'.compiles = (if s.actor.compileSink then
        [⟨d.planKey, d.source, d.kernelName, l.answer⟩] else []) ++ s.compiles := by
  obtain rfl := Option.some.inj h
  have hdispatch : ∀ d, l.msg.dispatch? = some d →
      s.actor.handle l.msg l.answer =
        CutlassActor.handleDispatch
          { s.actor with dispatched := s.actor.dispatched + 1 } d l.answer := by
    intro d hd
    unfold CutlassActor.handle
    cases hmsg : l.msg <;> rw [hmsg] at hd <;> cases hd <;> rfl
  cases hmsg : l.msg.dispatch? with
  | none =>
    obtain ⟨msg, answer⟩ := l
    cases msg with
    | gemm d => cases hmsg
    | groupedGemm d => cases hmsg
    | conv d => cases hmsg
    | refit planKey =>
      left
      refine ⟨?_, ?_⟩
      · rintro ⟨-, d, hd, -⟩
        cases hd
      simp only [CutlassActor.handle, CutlassActor.handleRefit]
      cases hget : s.actor.planCache.get? planKey with
      | none => exact ⟨rfl, fun _ he => he, rfl, rfl⟩
      | some hit =>
        exact ⟨rfl, fun _ he => Lru.mem_entries_get? hget he, Lru.get?_capacity hget, rfl⟩
  | some d =>
    rw [hdispatch d hmsg]
    simp only [CutlassActor.handleDispatch]
    cases hget : s.actor.planCache.get? d.planKey with
    | some hit =>
      left
      refine ⟨?_, rfl, fun _ he => Lru.mem_entries_get? hget he, Lru.get?_capacity hget, rfl⟩
      rintro ⟨-, d', hd', hmiss⟩
      cases hmsg.symm.trans hd'
      cases hget.symm.trans hmiss
    | none =>
      right
      refine ⟨d, rfl, hget, rfl, rfl, ?_⟩
      dsimp only
      split_ifs <;> rfl

namespace State

/-- What the other parts of `CachesCompiled` follow from. -/
structure Inv (s : State) : Prop where
  capacity_pos : 0 < s.actor.planCache.capacity
  cached : s.actor.compileSink = true →
    ∀ e ∈ s.actor.planCache.entries, s.Accepted e.1 e.2.source

theorem Inv.cachesCompiled {s : State} (h : s.Inv) : s.CachesCompiled := by
  refine ⟨h.cached, fun hsink planKey answer hreply => ?_,
    fun hsink msg answer d c e hd hlast hc => ?_⟩
  · simp only [CutlassActor.handle, CutlassActor.handleRefit] at hreply
    cases hget : s.actor.planCache.get? planKey with
    | none =>
      rw [hget] at hreply
      cases hreply
    | some hit =>
      have hmem : (_, hit.1) ∈ _ := Lru.mem_of_get? hget
      exact ⟨hit.1, hmem, h.cached hsink _ hmem⟩
  · cases hget : s.actor.planCache.get? d.planKey with
    | some hit =>
      have hmem : (_, hit.1) ∈ _ := Lru.mem_of_get? hget
      obtain ⟨c', hlast', -, hok⟩ := h.cached hsink _ hmem
      rw [hlast] at hlast'
      cases hlast'
      rw [hc] at hok
      cases hok
    | none =>
      cases msg <;> cases hd <;>
        simp [CutlassActor.handle, CutlassActor.handleDispatch, hget, hsink]

theorem inv_init (planCacheCapacity : ℕ) (compileSink : Bool) :
    Inv (system planCacheCapacity compileSink).init where
  capacity_pos := Nat.lt_of_lt_of_le Nat.zero_lt_one (Nat.le_max_right planCacheCapacity 1)
  cached := nofun

end State

theorem lastCompile_of_miss {s s' : State} {c : Compile} (key : PlanKey)
    (hcompiles : s'.compiles = [c] ++ s.compiles) :
    s'.lastCompile key = if c.key = key then some c else s.lastCompile key := by
  unfold State.lastCompile
  rw [hcompiles, List.singleton_append, List.find?_cons]
  by_cases hkey : c.key = key <;> simp [hkey]

/-- A step keeps the invariant when the sink accepts what it is handed. -/
theorem State.Inv.next {s s' : State} {l : Label} (h : s.Inv) (hC : s.SinkAccepts l)
    (hstep : step s l = some s') : s'.Inv := by
  obtain ⟨-, hcompiles, hentries, hcap, hsame⟩ | ⟨d, hd, hget, hcache, hsame, hcompiles⟩ :=
    step_cases hstep
  · refine ⟨hcap ▸ h.capacity_pos, fun hsink e he => ?_⟩
    have hold := h.cached (hsame ▸ hsink) e (hentries e he)
    unfold State.Accepted State.lastCompile at hold ⊢
    rwa [hcompiles]
  · refine ⟨by rw [hcache]; exact h.capacity_pos, fun hsink e he => ?_⟩
    have hsink' : s.actor.compileSink = true := hsame ▸ hsink
    rw [if_pos hsink'] at hcompiles
    have hlast := fun key => lastCompile_of_miss key hcompiles
    rw [hcache] at he
    obtain rfl | hold := Lru.mem_entries_put he
    · exact ⟨_, (hlast _).trans (if_pos rfl), rfl, hC ⟨hsink', d, hd, hget⟩⟩
    · have hne : e.1 ≠ d.planKey := Lru.not_mem_of_get?_eq_none hget hold
      obtain ⟨c, hc, hsource, hok⟩ := h.cached hsink' e hold
      exact ⟨c, ((hlast _).trans (if_neg (Ne.symm hne))).trans hc, hsource, hok⟩

/-- After a rejection the cache holds a plan that was not compiled. -/
theorem sinkAccepts_of_cachesCompiled {s s' : State} {l : Label} (h : s.Inv)
    (hstep : step s l = some s') (hs' : s'.CachesCompiled) : s.SinkAccepts l := by
  intro hcalls
  obtain ⟨hnot, -⟩ | ⟨d, -, -, hcache, hsame, hcompiles⟩ := step_cases hstep
  · exact absurd hcalls hnot
  · have hsink := hcalls.1
    rw [if_pos hsink] at hcompiles
    have hmem := Lru.mem_put_self h.capacity_pos d.planKey
      (⟨d.planKey, d.source, d.kernelName⟩ : CachedPlan)
    rw [← hcache] at hmem
    obtain ⟨c, hc, -, hok⟩ := hs'.cached (hsame ▸ hsink) _ hmem
    rw [lastCompile_of_miss _ hcompiles, if_pos rfl] at hc
    cases hc
    exact hok

/-- The cache holds compiled plans only, refits are granted for these only and rejected sources
are retried, in every state of a run, exactly when the sink accepts every source it is handed in
the run. -/
theorem along_cachesCompiled_iff (planCacheCapacity : ℕ) (compileSink : Bool) (ls : List Label) :
    (system planCacheCapacity compileSink).Along State.CachesCompiled
        (system planCacheCapacity compileSink).init ls ↔
      (system planCacheCapacity compileSink).Meets State.SinkAccepts
        (system planCacheCapacity compileSink).init ls := by
  have hinit := State.inv_init planCacheCapacity compileSink
  constructor
  · refine System.meets_of_along (I := State.Inv) ?_ ?_ hinit
    · exact fun s l s' hs hstep hs' => sinkAccepts_of_cachesCompiled hs hstep hs'
    · exact fun s l s' hs hC hstep => hs.next hC hstep
  · refine System.along_of_meets (I := State.Inv) ?_ ?_ hinit
    · exact fun s hs => hs.cachesCompiled
    · exact fun s l s' hs hC hstep => hs.next hC hstep

/-- A convolution. -/
def conv : Dispatch := ⟨⟨3, 7, 8, 9⟩, "template<> conv", "conv_fprop"⟩

/-- The sink rejects the source; the plan is cached all the same, the next message with the key
does not compile, and a refit is granted. -/
theorem rejected_plan_is_cached :
    ¬ (system 64 true).Along State.CachesCompiled (system 64 true).init
        [⟨.conv conv, .error "nvrtc: syntax error"⟩] ∧
    ∃ s, (system 64 true).run (system 64 true).init
        [⟨.conv conv, .error "nvrtc: syntax error"⟩] = some s ∧
      (s.actor.handle (.conv conv) (.ok ())).compiled = none ∧
      (s.actor.handle (.refit conv.planKey) (.ok ())).reply = some (.ok ()) := by
  refine ⟨fun halong => ?_, _, rfl, rfl, rfl⟩
  have hlast := halong.last (t := ⟨⟨Lru.put (PlanCache.new 64) conv.planKey
    ⟨conv.planKey, conv.source, conv.kernelName⟩, true, 1⟩,
    [⟨conv.planKey, conv.source, conv.kernelName, .error "nvrtc: syntax error"⟩]⟩) rfl
  obtain ⟨c, hc, -, hok⟩ := hlast.cached rfl _ List.mem_cons_self
  cases hc
  cases hok

end Cutlass

end AtomrAccel
