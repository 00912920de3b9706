import AtomrAccel.Cutlass.Request

/-!
# Epilogue visitor trees

A tree is a list of operations, each wrapped around the text of those before it.  Its plan-cache id
is a hash of values that a second pass over the list feeds to a hasher.

* `EpilogueOp`, `EpilogueVisitorTree`, `EvtBuilder`: the trees;
* `render`, `hashed`: the text, and the values fed to the hasher;
* `hashed_eq_iff`: the values tell everything about a tree but the scopes of its quantizations;
* `ops_eq_of_render`: the text tells the scopes;
* `render_of_hashed_iff`: so the values of two trees tell their texts apart, unless the trees differ
  in a scope and nothing else.
-/

namespace AtomrAccel

namespace Cutlass

/-- The reductions of a visitor tree. -/
inductive ReduceKind
  | sum | max | min | mean
  deriving DecidableEq, Repr

namespace ReduceKind

def shortName : ReduceKind → String
  | sum => "sum"
  | max => "max"
  | min => "min"
  | mean => "mean"

/-- The name of the CUTLASS functor. -/
def functor : ReduceKind → String
  | sum => "sum"
  | max => "maximum"
  | min => "minimum"
  | mean => "mean"

end ReduceKind

/-- The scalars are `f32`s, given by their bits. -/
inductive EpilogueOp
  | linearCombination (alpha beta : UInt32)
  | biasAdd (dtype : CutlassDtype)
  | relu
  | gelu
  | silu
  | tanh
  | quantize (outDtype : CutlassDtype) (perChannel : Bool)
  | residualAdd (dtype : CutlassDtype)
  | reduce (kind : ReduceKind)
  deriving DecidableEq, Repr

/-- A value given to the hasher: a `str` or the bits of an `f32`. -/
inductive Hashed
  | str (s : String)
  | u32 (bits : UInt32)
  deriving DecidableEq, Repr

namespace EpilogueOp

def shortName : EpilogueOp → String
  | linearCombination _ _ => "linear"
  | biasAdd _ => "bias_add"
  | relu => "relu"
  | gelu => "gelu"
  | silu => "silu"
  | tanh => "tanh"
  | quantize _ _ => "quantize"
  | residualAdd _ => "residual_add"
  | reduce _ => "reduce"

/-- `scope` of a quantization. -/
def scope (perChannel : Bool) : String := if perChannel then "PerChannel" else "PerTensor"

def render (prev : String) : EpilogueOp → String
  | linearCombination _ _ => "cutlass::epilogue::fusion::Sm90LinearCombination<" ++ prev ++ ">"
  | biasAdd dtype =>
    "cutlass::epilogue::fusion::Sm90Compute<cutlass::plus, " ++ dtype.asCutlassType ++ ", " ++
      prev ++ ">"
  | relu =>
    "cutlass::epilogue::fusion::Sm90Compute<cutlass::epilogue::thread::ReLu, float, " ++ prev ++ ">"
  | gelu =>
    "cutlass::epilogue::fusion::Sm90Compute<cutlass::epilogue::thread::GELU_taylor, float, " ++
      prev ++ ">"
  | silu =>
    "cutlass::epilogue::fusion::Sm90Compute<cutlass::epilogue::thread::SiLu, float, " ++ prev ++ ">"
  | tanh =>
    "cutlass::epilogue::fusion::Sm90Compute<cutlass::epilogue::thread::Tanh, float, " ++ prev ++ ">"
  | quantize outDtype perChannel =>
    "cutlass::epilogue::fusion::Sm90" ++ scope perChannel ++ "Quantize<" ++
      outDtype.asCutlassType ++ ", " ++ prev ++ ">"
  | residualAdd dtype =>
    "cutlass::epilogue::fusion::Sm90Residual<" ++ dtype.asCutlassType ++ ", " ++ prev ++ ">"
  | reduce kind =>
    "cutlass::epilogue::fusion::Sm90Reduce<cutlass::reduce::" ++ kind.functor ++ ", float, " ++
      prev ++ ">"

/-- What `id` feeds to the hasher for one operation. -/
def hashed (op : EpilogueOp) : List Hashed :=
  .str op.shortName ::
    match op with
    | biasAdd dtype | residualAdd dtype | quantize dtype _ => [.str dtype.shortName]
    | reduce kind => [.str kind.shortName]
    | linearCombination alpha beta => [.u32 alpha, .u32 beta]
    | relu | gelu | silu | tanh => []

/-- The operation with the scope of a quantization left out. -/
def unscoped : EpilogueOp → EpilogueOp
  | quantize outDtype _ => quantize outDtype false
  | op => op

end EpilogueOp

/-- A visitor tree, as the list of its operations. -/
structure EpilogueVisitorTree where
  ops : List EpilogueOp
  deriving DecidableEq, Repr

namespace EpilogueVisitorTree

def render (t : EpilogueVisitorTree) : String :=
  t.ops.foldl (fun s op => op.render s) "cutlass::epilogue::fusion::Sm90AccFetch"

/-- All that `id` feeds to its hasher. -/
def hashed (t : EpilogueVisitorTree) : List Hashed := t.ops.flatMap EpilogueOp.hashed

/-- `finish` is the hasher on all that it was fed. -/
def id (finish : List Hashed → UInt64) (t : EpilogueVisitorTree) : UInt64 := finish t.hashed

end EpilogueVisitorTree

/-- The builder; its other methods are `push` of one operation each. -/
structure EvtBuilder where
  ops : List EpilogueOp := []

namespace EvtBuilder

/-- One more operation. -/
def push (b : EvtBuilder) (op : EpilogueOp) : EvtBuilder := ⟨b.ops ++ [op]⟩

def quantize (b : EvtBuilder) (outDtype : CutlassDtype) (perChannel : Bool) : EvtBuilder :=
  b.push (.quantize outDtype perChannel)

/-- The tree of the operations so far. -/
def build (b : EvtBuilder) : EpilogueVisitorTree := ⟨b.ops⟩

end EvtBuilder

/-! ### What the hasher is told -/

theorem CutlassDtype.shortName_injective : Function.Injective CutlassDtype.shortName := by
  intro d d' h
  cases d <;> cases d' <;> first | rfl | exact absurd h (by decide)

theorem ReduceKind.shortName_injective : Function.Injective ReduceKind.shortName := by
  intro k k' h
  cases k <;> cases k' <;> first | rfl | exact absurd h (by decide)

namespace EpilogueOp

variable {op op' : EpilogueOp} {s t : List Hashed}

theorem hashed_unscoped (op : EpilogueOp) : op.unscoped.hashed = op.hashed := by
  cases op <;> rfl

/-- The values of an operation are read off the front of any values. -/
theorem unscoped_of_hashed (h : op.hashed ++ s = op'.hashed ++ t) :
    op.unscoped = op'.unscoped ∧ s = t := by
  have hname : op.shortName = op'.shortName := by
    simp only [hashed, List.cons_append, List.cons.injEq, Hashed.str.injEq] at h
    exact h.1
  -- the names are those of one kind of operation
  cases op <;> cases op' <;> simp only [shortName, String.reduceEq] at hname <;>
    simp_all [hashed, unscoped, CutlassDtype.shortName_injective.eq_iff,
      ReduceKind.shortName_injective.eq_iff]

end EpilogueOp

open EpilogueOp

theorem flatMap_hashed_inj {ops ops' : List EpilogueOp}
    (h : ops.flatMap EpilogueOp.hashed = ops'.flatMap EpilogueOp.hashed) :
    ops.map unscoped = ops'.map unscoped := by
  induction ops generalizing ops' with
  | nil =>
    cases ops' with
    | nil => rfl
    | cons op' ops' => simp [EpilogueOp.hashed] at h
  | cons op ops ih =>
    cases ops' with
    | nil => simp [EpilogueOp.hashed] at h
    | cons op' ops' =>
      rw [List.flatMap_cons, List.flatMap_cons] at h
      obtain ⟨hop, hrest⟩ := unscoped_of_hashed h
      rw [List.map_cons, List.map_cons, hop, ih hrest]

/-- The hasher is told all but the scopes. -/
theorem hashed_eq_iff (t t' : EpilogueVisitorTree) :
    t.hashed = t'.hashed ↔ t.ops.map unscoped = t'.ops.map unscoped := by
  constructor
  · exact flatMap_hashed_inj
  · intro h
    have hmap : ∀ ops : List EpilogueOp,
        (ops.map unscoped).flatMap EpilogueOp.hashed = ops.flatMap EpilogueOp.hashed := by
      intro ops
      rw [List.flatMap_map]
      exact List.flatMap_congr fun op _ => hashed_unscoped op
    show t.ops.flatMap _ = t'.ops.flatMap _
    rw [← hmap t.ops, h, hmap]

/-! ### What the text shows -/

namespace EpilogueOp

/-- What stands before the text an operation is wrapped around. -/
def opening : EpilogueOp → String
  | linearCombination _ _ => "cutlass::epilogue::fusion::Sm90LinearCombination<"
  | biasAdd dtype =>
    "cutlass::epilogue::fusion::Sm90Compute<cutlass::plus, " ++ dtype.asCutlassType ++ ", "
  | relu => "cutlass::epilogue::fusion::Sm90Compute<cutlass::epilogue::thread::ReLu, float, "
  | gelu => "cutlass::epilogue::fusion::Sm90Compute<cutlass::epilogue::thread::GELU_taylor, float, "
  | silu => "cutlass::epilogue::fusion::Sm90Compute<cutlass::epilogue::thread::SiLu, float, "
  | tanh => "cutlass::epilogue::fusion::Sm90Compute<cutlass::epilogue::thread::Tanh, float, "
  | quantize outDtype perChannel =>
    "cutlass::epilogue::fusion::Sm90" ++ scope perChannel ++ "Quantize<" ++
      outDtype.asCutlassType ++ ", "
  | residualAdd dtype => "cutlass::epilogue::fusion::Sm90Residual<" ++ dtype.asCutlassType ++ ", "
  | reduce kind =>
    "cutlass::epilogue::fusion::Sm90Reduce<cutlass::reduce::" ++ kind.functor ++ ", float, "

theorem render_eq (prev : String) (op : EpilogueOp) :
    op.render prev = op.opening ++ prev ++ ">" := by
  cases op <;> rfl

/-- The two scopes differ in their fourth letter. -/
theorem scope_inj {p p' : Bool} {s t : List Char}
    (h : (scope p).toList ++ s = (scope p').toList ++ t) : p = p' := by
  have htensor : (scope false).toList = ['P', 'e', 'r', 'T', 'e', 'n', 's', 'o', 'r'] := by decide
  have hchannel : (scope true).toList = ['P', 'e', 'r', 'C', 'h', 'a', 'n', 'n', 'e', 'l'] := by
    decide
  cases p <;> cases p' <;> simp [htensor, hchannel] at h ⊢

/-- The scopes inside of equal texts. -/
theorem scope_inj_of_append (before a b c : String) {p p' : Bool} {s t : List Char}
    (h : (before ++ scope p ++ a ++ b ++ c).toList ++ s =
      (before ++ scope p' ++ a ++ b ++ c).toList ++ t) : p = p' := by
  simp only [String.toList_append, List.append_assoc, List.append_right_inj] at h
  exact scope_inj h

/-- Operations that agree but for a scope are one operation, or two quantizations. -/
theorem eq_or_quantize {op op' : EpilogueOp} (h : op.unscoped = op'.unscoped) :
    op = op' ∨ ∃ d p p', op = .quantize d p ∧ op' = .quantize d p' := by
  cases op <;> cases op' <;> first
    | exact .inl h
    | exact .inr ⟨_, _, _, rfl, congrArg (quantize · _) (quantize.inj h).1.symm⟩
    | cases h

/-- They agree when their texts do. -/
theorem eq_of_opening {op op' : EpilogueOp} {s t : List Char} (hsame : op.unscoped = op'.unscoped)
    (h : op.opening.toList ++ s = op'.opening.toList ++ t) : op = op' := by
  rcases eq_or_quantize hsame with rfl | ⟨d, p, p', rfl, rfl⟩
  · rfl
  · rw [scope_inj_of_append _ _ _ _ h]

end EpilogueOp

/-- The text of a tree that ends in `op`. -/
theorem render_concat (ops : List EpilogueOp) (op : EpilogueOp) :
    (EpilogueVisitorTree.mk (ops ++ [op])).render =
      op.opening ++ (EpilogueVisitorTree.mk ops).render ++ ">" := by
  rw [EpilogueVisitorTree.render, List.foldl_append, List.foldl_cons, List.foldl_nil, render_eq]
  rfl

/-- Trees that agree but for scopes agree when their texts do, by induction from the outermost
operation. -/
theorem ops_eq_of_render {ops ops' : List EpilogueOp} (hsame : ops.map unscoped = ops'.map unscoped)
    (h : (EpilogueVisitorTree.mk ops).render = (EpilogueVisitorTree.mk ops').render) :
    ops = ops' := by
  induction ops using List.reverseRecOn generalizing ops' with
  | nil => simpa [eq_comm] using hsame
  | append_singleton ops op ih =>
    rcases List.eq_nil_or_concat ops' with rfl | ⟨ops', op', rfl⟩
    · simp at hsame
    · rw [List.concat_eq_append] at hsame h ⊢
      rw [List.map_append, List.map_append] at hsame
      obtain ⟨hrest, hlast⟩ := List.append_inj' hsame rfl
      rw [render_concat, render_concat] at h
      have hchars := congrArg String.toList h
      simp only [String.toList_append, List.append_assoc] at hchars
      obtain rfl := eq_of_opening (List.singleton_inj.1 hlast) hchars
      -- the same beginning and the same bracket around the two inner texts
      have hinner := List.append_cancel_right (List.append_cancel_left hchars)
      rw [ih hrest (String.toList_inj.1 hinner)]

/-- Whatever two trees: that equal values given to the hasher mean equal texts holds exactly unless
the trees differ in scopes of quantizations alone. -/
theorem render_of_hashed_iff (t t' : EpilogueVisitorTree) :
    (t.hashed = t'.hashed → t.render = t'.render) ↔
      (t.ops.map unscoped = t'.ops.map unscoped → t.ops = t'.ops) := by
  rw [hashed_eq_iff]
  constructor
  · exact fun h hsame => ops_eq_of_render hsame (h hsame)
  · intro h hsame
    show (EpilogueVisitorTree.mk t.ops).render = (EpilogueVisitorTree.mk t'.ops).render
    rw [h hsame]

/-- The two scopes of a quantization feed the hasher the same values. -/
theorem quantize_scopes_collide :
    ¬ ((EvtBuilder.build (EvtBuilder.quantize ⟨[]⟩ .f8e4m3 true)).hashed =
        (EvtBuilder.build (EvtBuilder.quantize ⟨[]⟩ .f8e4m3 false)).hashed →
      (EvtBuilder.build (EvtBuilder.quantize ⟨[]⟩ .f8e4m3 true)).render =
        (EvtBuilder.build (EvtBuilder.quantize ⟨[]⟩ .f8e4m3 false)).render) :=
  fun h => absurd (h rfl) (by decide)

end Cutlass

end AtomrAccel
