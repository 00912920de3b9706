import AtomrAccel.Lib.Lru
import AtomrAccel.Lib.Transition
import AtomrAccel.Device.WriteRequest

/-!
# `kernel::fft`: cuFFT plans and their keys

`FftActor` keeps the plans it has built under a `PlanKey`.  Two paths fill the cache.
`ensure_plan_many` has the whole description of a plan and builds from it; `get_or_create_plan`,
which `ensure_plan` and the messages go through, has the key alone, and its builder reads neither
the layout seed nor, past rank one, the batch.

* `PlanKey`, `FftPlanMany`, `CudaFft`: keys, descriptions, and what a plan was built with;
* `buildSimplePlan`, `buildPlanMany`, `getOrCreatePlan`, `ensurePlanMany`;
* `FftCall`, `FftActor`: the calls and messages of one actor, over a cache of any capacity;
* `Built`: a plan is the one that was asked for;
* `Served`, `faithful_iff`: every plan of a run is, exactly when no key that the simple builder
  cannot build misses the cache and no two layouts meet under one seed;
* `ensurePlanMany_after_key`, `exists_collision`: both ways to a wrong plan are open.
-/

namespace AtomrAccel

namespace Fft

/-- The element types. -/
inductive DType
  | f32 | f64 | f16 | bf16 | i8 | i16 | i32 | i64 | u8 | u16 | u32 | u64
  | f8E4m3 | f8E5m2 | f4E2m1
  deriving DecidableEq, Repr

/-- The `Debug` text. -/
def DType.debug : DType → String
  | f32 => "F32"
  | f64 => "F64"
  | f16 => "F16"
  | bf16 => "Bf16"
  | i8 => "I8"
  | i16 => "I16"
  | i32 => "I32"
  | i64 => "I64"
  | u8 => "U8"
  | u16 => "U16"
  | u32 => "U32"
  | u64 => "U64"
  | f8E4m3 => "F8E4m3"
  | f8E5m2 => "F8E5m2"
  | f4E2m1 => "F4E2m1"

/-- The transforms of cuFFT. -/
inductive CufftType
  | r2C | c2R | c2C | d2Z | z2D | z2Z
  deriving DecidableEq, Repr

/-- The transforms of the actor. -/
inductive FftKind
  | r2C | c2R | c2C | d2Z | z2D | z2Z
  deriving DecidableEq, Repr

namespace FftKind

/-- The transform that cuFFT is asked for. -/
def cufftType : FftKind → CufftType
  | r2C => .r2C
  | c2R => .c2R
  | c2C => .c2C
  | d2Z => .d2Z
  | z2D => .z2D
  | z2Z => .z2Z

/-- The element type of a transform. -/
def scalarDtype : FftKind → DType
  | r2C | c2R | c2C => .f32
  | d2Z | z2D | z2Z => .f64

/-- The `Debug` text. -/
def debug : FftKind → String
  | r2C => "R2C"
  | c2R => "C2R"
  | c2C => "C2C"
  | d2Z => "D2Z"
  | z2D => "Z2D"
  | z2Z => "Z2Z"

end FftKind

/-- A `[i32; 3]`. -/
abbrev Dims := Int32 × Int32 × Int32

namespace Dims

def toList (d : Dims) : List Int32 := [d.1, d.2.1, d.2.2]

/-- `d[..rank]`. -/
def upTo (d : Dims) (rank : ℕ) : List Int32 := d.toList.take rank

/-- The `Debug` text. -/
def debug (d : Dims) : String :=
  "[" ++ toString d.1 ++ ", " ++ toString d.2.1 ++ ", " ++ toString d.2.2 ++ "]"

end Dims

/-- A key of the cache; `manyLayout` is the seed of a description. -/
structure PlanKey where
  rank : ℕ
  dims : Dims
  kind : FftKind
  dtype : DType
  batch : Int32
  manyLayout : Option UInt64
  deriving DecidableEq

namespace PlanKey

def plan1d (n : Int32) (kind : FftKind) (batch : Int32) : PlanKey :=
  ⟨1, (n, 0, 0), kind, kind.scalarDtype, batch, none⟩

def plan2d (nx ny : Int32) (kind : FftKind) : PlanKey :=
  ⟨2, (nx, ny, 0), kind, kind.scalarDtype, 1, none⟩

def plan3d (nx ny nz : Int32) (kind : FftKind) : PlanKey :=
  ⟨3, (nx, ny, nz), kind, kind.scalarDtype, 1, none⟩

/-- The `Debug` text. -/
def debug (key : PlanKey) : String :=
  "PlanKey \x7b rank: " ++ toString key.rank ++ ", dims: " ++ key.dims.debug ++ ", kind: " ++
    key.kind.debug ++ ", dtype: " ++ key.dtype.debug ++ ", batch: " ++ toString key.batch ++
    ", many_layout: " ++
    (match key.manyLayout with
      | some seed => "Some(" ++ toString seed ++ ")"
      | none => "None") ++ " \x7d"

end PlanKey

/-- The part of a description that a key has only as a seed. -/
structure FftLayout (Embed : Type) where
  inEmbed : Option Embed
  inStride : Int32
  inDist : Int32
  outEmbed : Option Embed
  outStride : Int32
  outDist : Int32
  deriving DecidableEq

/-- What cuFFT reads of a layout at a rank. -/
def FftLayout.upTo (l : FftLayout Dims) (rank : ℕ) : FftLayout (List Int32) where
  inEmbed := l.inEmbed.map (·.upTo rank)
  inStride := l.inStride
  inDist := l.inDist
  outEmbed := l.outEmbed.map (·.upTo rank)
  outStride := l.outStride
  outDist := l.outDist

/-- The hasher of `layout_seed`. -/
abbrev LayoutSeed := FftLayout Dims → UInt64

/-- A description for `cufftPlanMany`. -/
structure FftPlanMany extends FftLayout Dims where
  rank : ℕ
  dims : Dims
  kind : FftKind
  batch : Int32
  deriving DecidableEq

/-- The key of a description, with the hash of its layout. -/
def FftPlanMany.key (layoutSeed : LayoutSeed) (b : FftPlanMany) : PlanKey :=
  ⟨b.rank, b.dims, b.kind, b.kind.scalarDtype, b.batch, some (layoutSeed b.toFftLayout)⟩

/-- A cuFFT plan, as what it was built with. -/
structure CudaFft where
  dims : List Int32
  ty : CufftType
  batch : Int32
  layout : Option (FftLayout (List Int32))
  deriving DecidableEq

namespace CudaFft

/-- The constructors take a dimension for each rank. -/
def rank (plan : CudaFft) : ℕ := plan.dims.length

def plan1d (nx : Int32) (ty : CufftType) (batch : Int32) : CudaFft := ⟨[nx], ty, batch, none⟩

def plan2d (nx ny : Int32) (ty : CufftType) : CudaFft := ⟨[nx, ny], ty, 1, none⟩

def plan3d (nx ny nz : Int32) (ty : CufftType) : CudaFft := ⟨[nx, ny, nz], ty, 1, none⟩

def planMany (n : List Int32) (layout : FftLayout (List Int32)) (ty : CufftType)
    (batch : Int32) : CudaFft := ⟨n, ty, batch, some layout⟩

end CudaFft

/-- What `get_or_create_plan` builds. -/
def buildSimplePlan (key : PlanKey) : CudaFft :=
  match key.rank with
  | 1 => .plan1d key.dims.1 key.kind.cufftType key.batch
  | 2 => .plan2d key.dims.1 key.dims.2.1 key.kind.cufftType
  | 3 => .plan3d key.dims.1 key.dims.2.1 key.dims.2.2 key.kind.cufftType
  | _ => .plan1d 1 key.kind.cufftType 1

/-- What `ensure_plan_many` builds; the first slice is the one that can be too long. -/
def buildPlanMany (b : FftPlanMany) : Except Refusal CudaFft :=
  if b.rank ≤ 3 then
    .ok (.planMany (b.dims.upTo b.rank) (b.upTo b.rank) b.kind.cufftType b.batch)
  else
    .error (.panic ("range end index " ++ toString b.rank ++
      " out of range for slice of length 3"))

/-- The cache of plans. -/
abbrev PlanCache := Lru PlanKey CudaFft

/-- `DEFAULT_CACHE_SIZE`. -/
def defaultCacheSize : ℕ := 64

/-- `get_or_create_plan`, with cuFFT's answer to a build. -/
def getOrCreatePlan (plans : PlanCache) (key : PlanKey) (answer : Except String Unit) :
    Except Refusal CudaFft × PlanCache :=
  match plans.get? key with
  | some (plan, plans') => (.ok plan, plans')
  | none =>
    match answer with
    | .ok () => (.ok (buildSimplePlan key), plans.put key (buildSimplePlan key))
    | .error e =>
      (.error (.reply (.libraryError "cufft" ("plan " ++ key.debug ++ ": " ++ e))), plans)

/-- The plan under the key of a description, built if it is missing. -/
def ensurePlanMany (layoutSeed : LayoutSeed) (plans : PlanCache) (b : FftPlanMany)
    (answer : Except String Unit) : Except Refusal CudaFft × PlanCache :=
  match plans.get? (b.key layoutSeed) with
  | some (plan, plans') => (.ok plan, plans')
  | none =>
    match buildPlanMany b, answer with
    | .error refusal, _ => (.error refusal, plans)
    | .ok plan, .ok () => (.ok plan, plans.put (b.key layoutSeed) plan)
    | .ok _, .error e =>
      (.error (.reply (.libraryError "cufft"
        ("plan_many " ++ (b.key layoutSeed).debug ++ ": " ++ e))), plans)

/-! ### The actor -/

/-- The public calls and the messages; the buffers and the direction do not touch the cache. -/
inductive FftCall
  | ensurePlan (key : PlanKey)
  | ensurePlanMany (b : FftPlanMany)
  | exec (planKey : PlanKey)
  | forward1dR2C (n batch : Int32)
  | inverse1dC2R (n batch : Int32)
  | exec1dC2C (n batch : Int32)
  | forward2dR2C (nx ny : Int32)
  deriving DecidableEq

/-- What a call asks for: a plan for a key, or for a whole description. -/
inductive Asked
  | key (k : PlanKey)
  | many (b : FftPlanMany)

namespace Asked

/-- The key that is looked for. -/
def planKey (layoutSeed : LayoutSeed) : Asked → PlanKey
  | key k => k
  | many b => b.key layoutSeed

/-- The plan that is built on a miss. -/
def build : Asked → Except Refusal CudaFft
  | key k => .ok (buildSimplePlan k)
  | many b => buildPlanMany b

/-- The plan for what is asked, with cuFFT's answer to a build. -/
def resolve (layoutSeed : LayoutSeed) (plans : PlanCache) (answer : Except String Unit) :
    Asked → Except Refusal CudaFft × PlanCache
  | key k => getOrCreatePlan plans k answer
  | many b => Fft.ensurePlanMany layoutSeed plans b answer

end Asked

/-- A plan with the key it was asked for under. -/
structure FftPlan where
  key : PlanKey
  inner : CudaFft
  deriving DecidableEq

/-- How far a call gets with its plan. -/
inductive Outcome
  | plan (plan : FftPlan)
  /-- the message goes on to its buffers -/
  | dispatched (plan : CudaFft)
  | refused (refusal : Refusal)
  | dropped

/-- The plan a call came to use. -/
def Outcome.plan? : Outcome → Option CudaFft
  | plan p => some p.inner
  | dispatched p => some p
  | refused _ | dropped => none

namespace FftCall

/-- What a call asks for. -/
def asked : FftCall → Asked
  | ensurePlan k => .key k
  | ensurePlanMany b => .many b
  | exec k => .key k
  | forward1dR2C n batch => .key (.plan1d n .r2C batch)
  | inverse1dC2R n batch => .key (.plan1d n .c2R batch)
  | exec1dC2C n batch => .key (.plan1d n .c2C batch)
  | forward2dR2C nx ny => .key (.plan2d nx ny .r2C)

/-- `Exec` passes a dummy plan on when there is none, and the request finds out. -/
def outcome (layoutSeed : LayoutSeed) (call : FftCall) (result : Except Refusal CudaFft) :
    Outcome :=
  match result with
  | .ok plan =>
    match call with
    | ensurePlan _ | ensurePlanMany _ => .plan ⟨call.asked.planKey layoutSeed, plan⟩
    | exec _ | forward1dR2C .. | inverse1dC2R .. | exec1dC2C .. | forward2dR2C .. =>
      .dispatched plan
  | .error refusal =>
    match call with
    | exec _ =>
      .refused (.reply (.unrecoverable "FftDispatchCtx.plan downcast to CudaFft failed"))
    | _ => .refused refusal

/-- What a call comes to without a device. -/
def mockOutcome : FftCall → Outcome
  | ensurePlan _ | ensurePlanMany _ => .refused (.reply (.unrecoverable "fft mock"))
  | exec _ => .dropped
  | forward1dR2C .. | inverse1dC2R .. | exec1dC2C .. | forward2dR2C .. =>
    .refused (.reply (.unrecoverable "FftActor in mock mode"))

end FftCall

/-- The actor with its cache. -/
structure FftActor where
  mock : Bool
  plans : PlanCache
  /-- what has been called, with its outcome -/
  outcomes : List (FftCall × Outcome)

namespace FftActor

/-- A call, with cuFFT's answer should it build a plan. -/
abbrev Step := FftCall × Except String Unit

variable (layoutSeed : LayoutSeed)

/-- One call; without a device nothing is resolved. -/
def handle (s : FftActor) (l : Step) : FftActor :=
  if s.mock then { s with outcomes := s.outcomes ++ [(l.1, l.1.mockOutcome)] }
  else
    let resolved := l.1.asked.resolve layoutSeed s.plans l.2
    { s with
      plans := resolved.2
      outcomes := s.outcomes ++ [(l.1, l.1.outcome layoutSeed resolved.1)] }

/-- The actor with its calls. -/
def system (mock : Bool) (capacity : ℕ) : Transition.System FftActor Step where
  init := ⟨mock, .empty capacity, []⟩
  step s l := some (s.handle layoutSeed l)

end FftActor

/-! ### What was asked for -/

/-- The layout of a plan for what was asked.  A key stands for every layout with its seed. -/
def Asked.LayoutOk (layoutSeed : LayoutSeed) (layout : Option (FftLayout (List Int32))) :
    Asked → Prop
  | .key k =>
    match k.manyLayout with
    | some seed => ∃ l : FftLayout Dims, layoutSeed l = seed ∧ layout = some (l.upTo k.rank)
    | none => layout = none
  | .many b => layout = some (b.upTo b.rank)

/-- The plan was built with what was asked for. -/
structure Built (layoutSeed : LayoutSeed) (asked : Asked) (plan : CudaFft) : Prop where
  rank : plan.rank = (asked.planKey layoutSeed).rank
  dims : plan.dims = (asked.planKey layoutSeed).dims.upTo (asked.planKey layoutSeed).rank
  ty : plan.ty = (asked.planKey layoutSeed).kind.cufftType
  batch : plan.batch = (asked.planKey layoutSeed).batch
  layout : asked.LayoutOk layoutSeed plan.layout

/-- Every plan that was used was built with what its call asked for. -/
def FftActor.Faithful (layoutSeed : LayoutSeed) (s : FftActor) : Prop :=
  ∀ u ∈ s.outcomes, ∀ plan, u.2.plan? = some plan → Built layoutSeed u.1.asked plan

/-- The simple builder has a constructor for the key. -/
def PlanKey.Plain (k : PlanKey) : Prop :=
  k.manyLayout = none ∧ (k.rank = 1 ∨ (k.rank = 2 ∨ k.rank = 3) ∧ k.batch = 1)

/-- The cache has a plan under the key of `b`, built for another layout with the same seed. -/
def Collides (layoutSeed : LayoutSeed) (plans : PlanCache) (b : FftPlanMany) : Prop :=
  ∃ plan, (b.key layoutSeed, plan) ∈ plans.entries ∧
    ∃ l : FftLayout Dims, layoutSeed l = layoutSeed b.toFftLayout ∧
      plan.layout = some (l.upTo b.rank) ∧ l.upTo b.rank ≠ b.upTo b.rank

/-- A key that the simple builder cannot build is in the cache, and a description does not collide
with what is there. -/
def Served (layoutSeed : LayoutSeed) (plans : PlanCache) (answer : Except String Unit) :
    Asked → Prop
  | .key k => answer = .ok () → k.Plain ∨ ∃ plan, (k, plan) ∈ plans.entries
  | .many b => ¬ Collides layoutSeed plans b

variable {layoutSeed : LayoutSeed} {asked : Asked} {plan : CudaFft} {plans plans' : PlanCache}
  {answer : Except String Unit} {result : Except Refusal CudaFft}

/-! ### Builders -/

theorem length_upTo {rank : ℕ} (h : rank ≤ 3) (d : Dims) : (d.upTo rank).length = rank := by
  unfold Dims.upTo
  rw [List.length_take]
  exact min_eq_left h

@[simp] theorem buildSimplePlan_layout (k : PlanKey) : (buildSimplePlan k).layout = none := by
  unfold buildSimplePlan
  split <;> rfl

/-- The simple builder serves exactly the plain keys. -/
theorem built_simple_iff (k : PlanKey) :
    Built layoutSeed (.key k) (buildSimplePlan k) ↔ k.Plain := by
  obtain ⟨rank, dims, kind, dtype, batch, manyLayout⟩ := k
  constructor
  · rintro ⟨hrank, -, -, hbatch, hlayout⟩
    have hnone : manyLayout = none := by
      cases manyLayout with
      | none => rfl
      | some seed =>
        obtain ⟨l, -, hl⟩ := hlayout
        rw [buildSimplePlan_layout] at hl
        cases hl
    refine ⟨hnone, ?_⟩
    -- only ranks one, two and three have a constructor with as many dimensions
    match rank, hrank, hbatch with
    | 0, hrank, _ => cases hrank
    | 1, _, _ => exact .inl rfl
    | 2, _, hbatch => exact .inr ⟨.inl rfl, hbatch.symm⟩
    | 3, _, hbatch => exact .inr ⟨.inr rfl, hbatch.symm⟩
    | n + 4, hrank, _ =>
      have hone : 1 = n + 4 := hrank
      omega
  · rintro ⟨hnone, hrank | ⟨hrank | hrank, hbatch⟩⟩
    · cases hnone
      cases hrank
      exact ⟨rfl, rfl, rfl, rfl, rfl⟩
    · cases hnone
      cases hrank
      cases hbatch
      exact ⟨rfl, rfl, rfl, rfl, rfl⟩
    · cases hnone
      cases hrank
      cases hbatch
      exact ⟨rfl, rfl, rfl, rfl, rfl⟩

theorem built_many {b : FftPlanMany} (h : buildPlanMany b = .ok plan) :
    Built layoutSeed (.many b) plan := by
  unfold buildPlanMany at h
  split_ifs at h with hrank
  cases h
  exact ⟨length_upTo hrank b.dims, rfl, rfl, rfl, rfl⟩

/-- A plan for a description is a plan for its key. -/
theorem Built.toKey (h : Built layoutSeed asked plan) :
    Built layoutSeed (.key (asked.planKey layoutSeed)) plan := by
  obtain ⟨hrank, hdims, hty, hbatch, hlayout⟩ := h
  refine ⟨hrank, hdims, hty, hbatch, ?_⟩
  cases asked with
  | key k => exact hlayout
  | many b => exact ⟨b.toFftLayout, rfl, hlayout⟩

/-! ### The cache -/

/-- What resolving does: a plan is found, or it is missing and built and kept, or it is missing and
there is none. -/
inductive Resolves (layoutSeed : LayoutSeed) (plans : PlanCache) (answer : Except String Unit)
    (asked : Asked) : Except Refusal CudaFft → PlanCache → Prop
  | hit {plan : CudaFft} {plans' : PlanCache}
      (hmem : (asked.planKey layoutSeed, plan) ∈ plans.entries)
      (hsub : ∀ e ∈ plans'.entries, e ∈ plans.entries) :
    Resolves layoutSeed plans answer asked (.ok plan) plans'
  | built {plan : CudaFft} (hmiss : ∀ v, (asked.planKey layoutSeed, v) ∉ plans.entries)
      (hbuild : asked.build = .ok plan) (hanswer : answer = .ok ()) :
    Resolves layoutSeed plans answer asked (.ok plan) (plans.put (asked.planKey layoutSeed) plan)
  | failed {refusal : Refusal} (hmiss : ∀ v, (asked.planKey layoutSeed, v) ∉ plans.entries)
      (hbuild : ∀ plan, asked.build = .ok plan → answer ≠ .ok ()) :
    Resolves layoutSeed plans answer asked (.error refusal) plans

theorem not_mem_of_get?_eq_none {k : PlanKey} (h : plans.get? k = none) (v : CudaFft) :
    (k, v) ∉ plans.entries := by
  intro hmem
  obtain ⟨plans', hfound⟩ := Lru.get?_of_mem hmem
  rw [h] at hfound
  cases hfound

theorem resolves (layoutSeed : LayoutSeed) (plans : PlanCache) (answer : Except String Unit)
    (asked : Asked) :
    Resolves layoutSeed plans answer asked (asked.resolve layoutSeed plans answer).1
      (asked.resolve layoutSeed plans answer).2 := by
  cases hget : plans.get? (asked.planKey layoutSeed) with
  | some found =>
    have hresolve : asked.resolve layoutSeed plans answer = (.ok found.1, found.2) := by
      cases asked with
      | key k =>
        have hk : plans.get? k = some found := hget
        simp only [Asked.resolve, getOrCreatePlan, hk]
      | many b =>
        have hb : plans.get? (b.key layoutSeed) = some found := hget
        simp only [Asked.resolve, ensurePlanMany, hb]
    rw [hresolve]
    exact .hit (Lru.mem_of_get? hget) fun _ he => Lru.mem_entries_get? hget he
  | none =>
    have hmiss := not_mem_of_get?_eq_none hget
    cases asked with
    | key k =>
      have hk : plans.get? k = none := hget
      cases answer with
      | ok =>
        simp only [Asked.resolve, getOrCreatePlan, hk]
        exact .built hmiss rfl rfl
      | error e =>
        simp only [Asked.resolve, getOrCreatePlan, hk]
        exact .failed hmiss fun _ _ => by simp
    | many b =>
      have hb : plans.get? (b.key layoutSeed) = none := hget
      cases hbuild : buildPlanMany b with
      | error refusal =>
        simp only [Asked.resolve, ensurePlanMany, hb, hbuild]
        refine .failed hmiss fun plan hplan => ?_
        cases hbuild.symm.trans hplan
      | ok plan =>
        cases answer with
        | ok =>
          simp only [Asked.resolve, ensurePlanMany, hb, hbuild]
          exact .built hmiss hbuild rfl
        | error e =>
          simp only [Asked.resolve, ensurePlanMany, hb, hbuild]
          exact .failed hmiss fun _ _ => by simp

/-- Every cached plan was built for its key. -/
def CacheSound (layoutSeed : LayoutSeed) (plans : PlanCache) : Prop :=
  ∀ e ∈ plans.entries, Built layoutSeed (.key e.1) e.2

theorem Resolves.built_of_served (hplans : CacheSound layoutSeed plans)
    (hserved : Served layoutSeed plans answer asked)
    (h : Resolves layoutSeed plans answer asked (.ok plan) plans') :
    Built layoutSeed asked plan := by
  cases h with
  | hit hmem hsub =>
    have hkey : Built layoutSeed (.key (asked.planKey layoutSeed)) plan := hplans _ hmem
    cases asked with
    | key k => exact hkey
    | many b =>
      obtain ⟨hrank, hdims, hty, hbatch, l, hseed, hlayout⟩ := hkey
      refine ⟨hrank, hdims, hty, hbatch, ?_⟩
      -- the cached layout has the seed of `b`, so it is that of `b`
      by_contra hother
      refine hserved ⟨plan, hmem, l, hseed, hlayout, fun hsame => hother ?_⟩
      exact hlayout.trans (congrArg some hsame)
  | built hmiss hbuild hanswer =>
    cases asked with
    | key k =>
      cases hbuild
      rcases hserved hanswer with hplain | ⟨v, hv⟩
      · exact (built_simple_iff k).2 hplain
      · exact absurd hv (hmiss v)
    | many b => exact built_many hbuild

theorem Resolves.served_of_built (h : Resolves layoutSeed plans answer asked result plans')
    (hbuilt : ∀ plan, result = .ok plan → Built layoutSeed asked plan) :
    Served layoutSeed plans answer asked := by
  cases asked with
  | key k =>
    intro hanswer
    cases h with
    | hit hmem hsub => exact .inr ⟨_, hmem⟩
    | built hmiss hbuild _ =>
      cases hbuild
      exact .inl ((built_simple_iff k).1 (hbuilt _ rfl))
    | failed hmiss hbuild => exact absurd hanswer (hbuild _ rfl)
  | many b =>
    rintro ⟨v, hv, l, hseed, hlayout, hne⟩
    cases h with
    | @hit plan _ hmem hsub =>
      have hsame := Lru.eq_of_mem hmem hv rfl
      cases hsame
      have hown : v.layout = some (b.upTo b.rank) := (hbuilt v rfl).layout
      exact hne (Option.some.inj (hlayout.symm.trans hown))
    | built hmiss _ _ => exact hmiss v hv
    | failed hmiss _ => exact hmiss v hv

theorem Resolves.cacheSound (h : Resolves layoutSeed plans answer asked result plans')
    (hplans : CacheSound layoutSeed plans)
    (hbuilt : ∀ plan, result = .ok plan → Built layoutSeed asked plan) :
    CacheSound layoutSeed plans' := by
  cases h with
  | hit _ hsub => exact fun e he => hplans e (hsub e he)
  | built _ _ _ =>
    intro e he
    rcases Lru.mem_entries_put he with rfl | hold
    · exact (hbuilt _ rfl).toKey
    · exact hplans e hold
  | failed _ _ => exact hplans

/-! ### Two ways to the wrong plan -/

/-- On an empty cache a key with a seed leaves a plan without a layout, and the description with
that key is handed it. -/
theorem ensurePlanMany_after_key (layoutSeed : LayoutSeed) (capacity : ℕ) (b : FftPlanMany)
    (answer : Except String Unit) :
    (ensurePlanMany layoutSeed
        (getOrCreatePlan (.empty (capacity + 1)) (b.key layoutSeed) (.ok ())).2 b answer).1
      = .ok (buildSimplePlan (b.key layoutSeed)) := by
  have hmem : (b.key layoutSeed, buildSimplePlan (b.key layoutSeed)) ∈
      (getOrCreatePlan (.empty (capacity + 1)) (b.key layoutSeed) (.ok ())).2.entries :=
    List.mem_cons_self
  obtain ⟨plans', hget⟩ := Lru.get?_of_mem hmem
  simp only [ensurePlanMany, hget]

/-- Layouts that differ in their strides and input distance. -/
def stridedLayout (n : ℕ) : FftLayout Dims :=
  ⟨none, Int32.ofNat n, Int32.ofNat (n / 2 ^ 32), none, Int32.ofNat (n / 2 ^ 64), 0⟩

theorem mod_eq_of_int32_ofNat_eq {a b : ℕ} (h : Int32.ofNat a = Int32.ofNat b) :
    a % 2 ^ 32 = b % 2 ^ 32 := by
  have hbits := congrArg (fun x : Int32 => x.toBitVec.toNat) h
  simpa using hbits

theorem stridedLayout_inj {m n rank : ℕ} (hm : m ≤ 2 ^ 64) (hn : n ≤ 2 ^ 64)
    (h : (stridedLayout m).upTo rank = (stridedLayout n).upTo rank) : m = n := by
  have h₀ : m % 2 ^ 32 = n % 2 ^ 32 := mod_eq_of_int32_ofNat_eq (congrArg FftLayout.inStride h)
  have h₁ : m / 2 ^ 32 % 2 ^ 32 = n / 2 ^ 32 % 2 ^ 32 :=
    mod_eq_of_int32_ofNat_eq (congrArg FftLayout.inDist h)
  have h₂ : m / 2 ^ 64 % 2 ^ 32 = n / 2 ^ 64 % 2 ^ 32 :=
    mod_eq_of_int32_ofNat_eq (congrArg FftLayout.outStride h)
  omega

/-- Whatever the hasher, two layouts have one seed. -/
theorem exists_collision (layoutSeed : LayoutSeed) :
    ∃ l l' : FftLayout Dims, layoutSeed l = layoutSeed l' ∧ ∀ rank, l.upTo rank ≠ l'.upTo rank := by
  have hmaps : ∀ n ∈ Finset.range (2 ^ 64 + 1),
      (layoutSeed (stridedLayout n)).toNat ∈ Finset.range (2 ^ 64) :=
    fun n _ => Finset.mem_range.2 (layoutSeed (stridedLayout n)).toNat_lt
  have hcard : (Finset.range (2 ^ 64)).card < (Finset.range (2 ^ 64 + 1)).card := by
    rw [Finset.card_range, Finset.card_range]
    omega
  obtain ⟨m, hm, n, hn, hne, hseed⟩ := Finset.exists_ne_map_eq_of_card_lt_of_maps_to hcard hmaps
  rw [Finset.mem_range] at hm hn
  refine ⟨stridedLayout m, stridedLayout n, UInt64.toNat_inj.1 hseed, fun rank hsame => hne ?_⟩
  exact stridedLayout_inj (by omega) (by omega) hsame

/-! ### Runs -/

/-- A call uses the plan that was resolved, if any. -/
theorem FftCall.plan?_outcome {call : FftCall} :
    (call.outcome layoutSeed result).plan? = some plan ↔ result = .ok plan := by
  rcases result with e | p <;> cases call <;> simp [FftCall.outcome, Outcome.plan?]

@[simp] theorem FftCall.plan?_mockOutcome (call : FftCall) : call.mockOutcome.plan? = none := by
  cases call <;> rfl

namespace FftActor

variable {s : FftActor} {l : Step}

/-- A call to an actor with a device is served. -/
def Disciplined (layoutSeed : LayoutSeed) (s : FftActor) (l : Step) : Prop :=
  s.mock = false → Served layoutSeed s.plans l.2 l.1.asked

theorem handle_of_real (hreal : s.mock = false) :
    s.handle layoutSeed l =
      { s with
        plans := (l.1.asked.resolve layoutSeed s.plans l.2).2
        outcomes := s.outcomes ++
          [(l.1, l.1.outcome layoutSeed (l.1.asked.resolve layoutSeed s.plans l.2).1)] } := by
  simp [handle, hreal]

theorem handle_of_mock (hmock : s.mock = true) :
    s.handle layoutSeed l = { s with outcomes := s.outcomes ++ [(l.1, l.1.mockOutcome)] } := by
  simp [handle, hmock]

/-- The plan of the new outcome is the one that was resolved. -/
theorem faithful_handle_iff (hs : s.Faithful layoutSeed) (hreal : s.mock = false) :
    (s.handle layoutSeed l).Faithful layoutSeed ↔
      ∀ plan, (l.1.asked.resolve layoutSeed s.plans l.2).1 = .ok plan →
        Built layoutSeed l.1.asked plan := by
  unfold Faithful
  rw [handle_of_real hreal]
  constructor
  · intro h plan hplan
    exact h _ (List.mem_append_right _ List.mem_cons_self) plan (FftCall.plan?_outcome.2 hplan)
  · intro h u hu plan hplan
    rcases List.mem_append.1 hu with hold | hnew
    · exact hs u hold plan hplan
    · obtain rfl := List.mem_singleton.1 hnew
      exact h plan (FftCall.plan?_outcome.1 hplan)

theorem faithful_handle_mock (hs : s.Faithful layoutSeed) (hmock : s.mock = true) :
    (s.handle layoutSeed l).Faithful layoutSeed := by
  unfold Faithful
  rw [handle_of_mock hmock]
  intro u hu plan hplan
  rcases List.mem_append.1 hu with hold | hnew
  · exact hs u hold plan hplan
  · obtain rfl := List.mem_singleton.1 hnew
    simp at hplan

/-- Every plan that is cached or was used is the one that was asked for. -/
structure Inv (layoutSeed : LayoutSeed) (s : FftActor) : Prop where
  plans : CacheSound layoutSeed s.plans
  faithful : s.Faithful layoutSeed

theorem inv_init (mock : Bool) (capacity : ℕ) :
    Inv layoutSeed (system layoutSeed mock capacity).init where
  plans _ he := absurd he List.not_mem_nil
  faithful _ hu := absurd hu List.not_mem_nil

/-- What resolving a served call returns. -/
theorem Inv.built (hs : Inv layoutSeed s) (hserved : Served layoutSeed s.plans l.2 l.1.asked)
    (plan : CudaFft) (hplan : (l.1.asked.resolve layoutSeed s.plans l.2).1 = .ok plan) :
    Built layoutSeed l.1.asked plan := by
  have hresolves := resolves layoutSeed s.plans l.2 l.1.asked
  rw [hplan] at hresolves
  exact hresolves.built_of_served hs.plans hserved

theorem inv_handle (hs : Inv layoutSeed s) (hl : Disciplined layoutSeed s l) :
    Inv layoutSeed (s.handle layoutSeed l) := by
  cases hmode : s.mock with
  | true =>
    refine ⟨?_, faithful_handle_mock hs.faithful hmode⟩
    rw [handle_of_mock hmode]
    exact hs.plans
  | false =>
    have hbuilt := hs.built (hl hmode)
    refine ⟨?_, (faithful_handle_iff hs.faithful hmode).2 hbuilt⟩
    rw [handle_of_real hmode]
    exact (resolves layoutSeed s.plans l.2 l.1.asked).cacheSound hs.plans hbuilt

theorem disciplined_of_faithful (hs : Inv layoutSeed s)
    (hnext : (s.handle layoutSeed l).Faithful layoutSeed) : Disciplined layoutSeed s l := by
  intro hreal
  have hbuilt := (faithful_handle_iff hs.faithful hreal).1 hnext
  exact (resolves layoutSeed s.plans l.2 l.1.asked).served_of_built hbuilt

/-- **Over every sequence of calls, with a cache of any capacity: every plan was built with what its
call asked for if and only if no call with a key that the simple builder cannot build misses the
cache, and no description meets a plan built for another layout under its own seed.** -/
theorem faithful_iff (layoutSeed : LayoutSeed) (mock : Bool) (capacity : ℕ) (ls : List Step) :
    let T := system layoutSeed mock capacity
    T.Along (Faithful layoutSeed) T.init ls ↔ T.Meets (Disciplined layoutSeed) T.init ls := by
  constructor
  · refine Transition.System.meets_of_along (I := Inv layoutSeed) ?_ ?_ (inv_init mock capacity)
    · intro s l s' hs hstep hnext
      cases hstep
      exact disciplined_of_faithful hs hnext
    · intro s l s' hs hl hstep
      cases hstep
      exact inv_handle hs hl
  · refine Transition.System.along_of_meets (I := Inv layoutSeed) (fun _ hs => hs.faithful) ?_
      (inv_init mock capacity)
    intro s l s' hs hl hstep
    cases hstep
    exact inv_handle hs hl

end FftActor

/-- Four transforms of length eight, each of every second element. -/
def stridedBatch : FftPlanMany where
  inEmbed := some (8, 0, 0)
  inStride := 2
  inDist := 16
  outEmbed := none
  outStride := 1
  outDist := 8
  rank := 1
  dims := (8, 0, 0)
  kind := .c2C
  batch := 4

/-- Whatever the hasher, the key of a strided batch on an empty cache gets the plan of a contiguous
one. -/
theorem not_faithful_of_strided_key (layoutSeed : LayoutSeed) :
    ¬ (FftActor.system layoutSeed false defaultCacheSize).Along (FftActor.Faithful layoutSeed)
      (FftActor.system layoutSeed false defaultCacheSize).init
      [(.exec (stridedBatch.key layoutSeed), .ok ())] := by
  intro halong
  have hbuilt := (halong.last rfl) _ List.mem_cons_self _ rfl
  obtain ⟨l, -, hlayout⟩ := hbuilt.layout
  cases hlayout

/-- A hasher that multiplies and adds. -/
def sampleSeed : LayoutSeed := fun l =>
  [l.inStride, l.inDist, l.outStride, l.outDist].foldl
    (fun h v => h * 31 + v.toUInt32.toUInt64) 17

theorem seed_key_gets_simple_plan :
    ¬ (FftActor.system sampleSeed false defaultCacheSize).Along (FftActor.Faithful sampleSeed)
      (FftActor.system sampleSeed false defaultCacheSize).init
      [(.exec (stridedBatch.key sampleSeed), .ok ())] :=
  not_faithful_of_strided_key sampleSeed

end Fft

end AtomrAccel
