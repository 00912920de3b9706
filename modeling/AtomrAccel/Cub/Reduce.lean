import AtomrAccel.Lib.Reduction
import AtomrAccel.Cub.Dtype
import AtomrAccel.Cub.Tile

/-!
# `CubReduce`

A reduction is two launches: each block folds its tile into a partial, and a single block folds the
partials.  Both pad what their tile does not cover with the identity of the operation, which for
`Max` and `Min` over integers is the literal `0`, and the second launch has room for 1024 partials.
The functor of `Product` is `Multiplies` at `decltype(thread_data[0])`, a reference type, for which
the source does not compile.

* `BlockReduce`, `BlockReduce.Lawful`: `cub::BlockReduce` and what CUB documents of it;
* `ReductionOp`, `reduceOp`, `reduceIdentity`: the operations;
* `functorTokens`, `compileReduce`: the functor text, and what it means to the compiler;
* `reduceMain`, `reduceFinalize`, `launchReduce`, `runReduce`: the kernels and the dispatcher;
* `launchReduce_inBounds`: when they stay inside their buffers;
* `runReduce_correct_iff`: the result is the fold of all nonempty inputs of length `n` exactly when
  the operation is not `Product` and `n = 2 ^ 20`, or `n < 2 ^ 20` and the identity is one.
-/

namespace AtomrAccel

namespace Cub

open Kernel Kernel.Traced Reduction

/-- `cub::BlockReduce` on 256 threads, with four items each or with one. -/
structure BlockReduce (α : Type) where
  reduce : (α → α → α) → (ℕ → ℕ → α) → α
  reduceThreads : (α → α → α) → (ℕ → α) → α

/-- What CUB documents: the fold of all items in some order. -/
structure BlockReduce.Lawful {α : Type} (BR : BlockReduce α) : Prop where
  reduce_eq : ∀ op data, ∃ l : List α, l.Perm (blocked data tileElements) ∧
    Reduction.reduce op l = some (BR.reduce op data)
  reduceThreads_eq : ∀ op data, ∃ l : List α, l.Perm (firstN data blockThreads) ∧
    Reduction.reduce op l = some (BR.reduceThreads op data)

/-- The reduction in blocked order. -/
def BlockReduce.documented {α : Type} : BlockReduce α where
  reduce op data := (blocked data tileElements).tail.foldl op (data 0 0)
  reduceThreads op data := (firstN data blockThreads).tail.foldl op (data 0)

theorem BlockReduce.documented_lawful {α : Type} : (documented (α := α)).Lawful where
  reduce_eq op data := by
    obtain ⟨l, hl⟩ := exists_blocked_eq_cons data
    have hval : documented.reduce op data =
        (blocked data tileElements).tail.foldl op (data 0 0) := by rw [documented]
    rw [hval]
    exact ⟨_, List.Perm.refl _, reduce_of_cons op hl⟩
  reduceThreads_eq op data := by
    have hcons : firstN data blockThreads = data 0 :: firstN (fun t => data (t + 1)) 255 := by
      rw [firstN, show blockThreads = 255 + 1 from rfl, List.range_succ_eq_map, List.map_cons,
        List.map_map]
      rfl
    have hval : documented.reduceThreads op data =
        (firstN data blockThreads).tail.foldl op (data 0) := by rw [documented]
    rw [hval]
    exact ⟨_, List.Perm.refl _, reduce_of_cons op hcons⟩

/-- The operations of a request. -/
inductive ReductionOp
  | sum | max | min
  | argMax | argMin
  | product
  deriving DecidableEq, Repr

/-- What an operation computes; `ArgMax` and `ArgMin` fall back to `Max` and `Min`. -/
def reduceOp {d : IntDtype} : ReductionOp → Word d → Word d → Word d
  | .sum => fun a b => a + b
  | .max | .argMax => fun a b => if value a < value b then b else a
  | .min | .argMin => fun a b => if value b < value a then b else a
  | .product => fun a b => a * b

/-- `reduce_identity`, at the integer types. -/
def reduceIdentity {d : IntDtype} : ReductionOp → Word d
  | .sum => 0
  | .product => 1
  | .max | .argMax => 0
  | .min | .argMin => 0

/-! ### The emitted functor -/

/-- `CudaDtype::cuda_type_name`. -/
def IntDtype.cudaTypeName : IntDtype → String
  | i8 => "char" | i32 => "int" | i64 => "long long"
  | u8 => "unsigned char" | u32 => "unsigned int" | u64 => "unsigned long long"

/-- The tokens of `reduce_functor`. -/
def functorTokens : ReductionOp → List String
  | .sum => ["cub", "::", "Sum", "(", ")"]
  | .max | .argMax => ["cub", "::", "Max", "(", ")"]
  | .min | .argMin => ["cub", "::", "Min", "(", ")"]
  | .product => ["atomr_cub", "::", "Multiplies", "<", "decltype", "(", "thread_data", "[", "0",
      "]", ")", ">", "(", ")"]

/-- `reduce_functor`. -/
def functorText (op : ReductionOp) : String := String.join (functorTokens op)

/-- `reduce_identity`. -/
def identityText (op : ReductionOp) (cname : String) : String :=
  match op with
  | .sum => "0"
  | .product => "1"
  | .max | .argMax =>
    if cname = "float" then "-CUDART_INF_F" else if cname = "double" then "-CUDART_INF" else "0"
  | .min | .argMin =>
    if cname = "float" then "CUDART_INF_F" else if cname = "double" then "CUDART_INF" else "0"

/-- A token that is a name. -/
def isName (token : String) : Bool := (token.toList.head?.map Char.isAlpha).getD false

/-- Every name is declared. -/
def Resolves (scope tokens : List String) : Prop := ∀ t ∈ tokens, isName t = true → t ∈ scope

instance (scope tokens : List String) : Decidable (Resolves scope tokens) :=
  inferInstanceAs (Decidable (∀ t ∈ tokens, _ → _))

/-- What the two kernels declare, what their headers declare, and the words of the language. -/
def reduceScope : List String :=
  ["d_in", "d_partials", "n", "BR", "tmp", "items", "tile", "base", "thread_data", "i", "idx",
   "block_result", "blockIdx", "threadIdx", "blockDim", "cub", "Sum", "Max", "Min", "atomr_cub",
   "Multiplies", "decltype"]

/-- The names the second kernel can use. -/
def finalizeScope : List String :=
  ["d_partials", "d_out", "n_partials", "BR", "tmp", "items", "thread_data", "i", "idx",
   "final_result", "blockIdx", "threadIdx", "blockDim", "cub", "Sum", "Max", "Min", "atomr_cub",
   "Multiplies", "decltype"]

/-- The tokens between the angle brackets. -/
def templateArgument (tokens : List String) : List String :=
  ((tokens.dropWhile (· ≠ "<")).drop 1).takeWhile (· ≠ ">")

/-- `decltype` of an element of an array is a reference to the element type. -/
def isReference (type : List String) : Bool := type.head? = some "decltype" ∧ "[" ∈ type

/-- The meaning of a functor.  `Multiplies<T>` returns the product as a `T`, which does not compile
when `T` is a reference. -/
def functorMeaning {d : IntDtype} (tokens : List String) : Option (Word d → Word d → Word d) :=
  match tokens with
  | ns :: _ :: name :: _ =>
    if ns = "cub" ∧ name = "Sum" then some fun a b => a + b
    else if ns = "cub" ∧ name = "Max" then some fun a b => if value a < value b then b else a
    else if ns = "cub" ∧ name = "Min" then some fun a b => if value b < value a then b else a
    else if ns = "atomr_cub" ∧ name = "Multiplies" then
      if isReference (templateArgument tokens) then none else some fun a b => a * b
    else none
  | _ => none

/-- The meaning of an integer literal, cast to the element type. -/
def literalMeaning {d : IntDtype} (text : String) : Option (Word d) :=
  if text = "0" then some 0 else if text = "1" then some 1 else none

theorem functorMeaning_tokens {d : IntDtype} (op : ReductionOp) :
    functorMeaning (d := d) (functorTokens op) =
      if op = .product then none else some (reduceOp op) := by
  cases op <;> rfl

theorem literalMeaning_identity (d : IntDtype) (op : ReductionOp) :
    literalMeaning (d := d) (identityText op d.cudaTypeName) = some (reduceIdentity op) := by
  cases op <;> cases d <;> rfl

/-- The functor and the identity of the compiled source, `none` when it does not compile. -/
def compileReduce {d : IntDtype} (op : ReductionOp) :
    Option ((Word d → Word d → Word d) × Word d) :=
  if Resolves reduceScope (functorTokens op) ∧ Resolves finalizeScope (functorTokens op) then do
    let functor ← functorMeaning (functorTokens op)
    let identity ← literalMeaning (identityText op d.cudaTypeName)
    return (functor, identity)
  else none

/-- Every name is declared in both kernels, but the functor of `Product` does not compile. -/
theorem compileReduce_eq {d : IntDtype} (op : ReductionOp) : compileReduce (d := d) op =
    if op = .product then none else some (reduceOp op, reduceIdentity op) := by
  have hnames : Resolves reduceScope (functorTokens op) ∧
      Resolves finalizeScope (functorTokens op) := by
    cases op <;> decide
  rw [compileReduce, if_pos hnames, functorMeaning_tokens, literalMeaning_identity]
  by_cases hop : op = .product
  · rw [if_pos hop, if_pos hop]
    rfl
  · rw [if_neg hop, if_neg hop]
    rfl

section Kernels

variable {α : Type} (BR : BlockReduce α) (functor : α → α → α) (identity : α)

/-- The main kernel: the stores to the partials. -/
def reduceMain (input : ℕ → α) (n grid : ℕ) : Traced Buf (List (ℕ × α)) :=
  forEach (List.range grid) fun b => do
    let threadData ← gather blockThreads itemsPerThread (loadItem .input input n identity b)
    write .partials b (BR.reduce functor threadData)

/-- The `_finalize` kernel: the store to the output. -/
def reduceFinalize (partials : ℕ → α) (nPartials : ℕ) : Traced Buf (List (ℕ × α)) := do
  let threadData ← gather blockThreads itemsPerThread
    (loadItem .partials partials nPartials identity 0)
  write .output 0 (BR.reduce functor threadData)

/-- The two launches of `run_reduce` on an input of length `n`: the output buffer after them. -/
def launchReduce [Zero α] (input output : ℕ → α) (n : ℕ) : Traced Buf (ℕ → α) := do
  let grid := gridBlocksFor n
  let main ← reduceMain BR functor identity input n grid
  -- `partials` comes from `alloc_zeros`
  let partials := scatter (fun _ => 0) main
  let out ← reduceFinalize BR functor identity partials grid
  return scatter output out

variable {len : Buf → ℕ} {n : ℕ}

/-- The reduction stays in bounds exactly when the output has an element. -/
theorem launchReduce_inBounds [Zero α] (input output : ℕ → α) (hinput : len .input = n)
    (hpartials : len .partials = gridBlocksFor n) :
    InBounds len (launchReduce BR functor identity input output n) ↔ 0 < len .output := by
  have hmain : InBounds len (reduceMain BR functor identity input n (gridBlocksFor n)) := by
    rw [reduceMain, inBounds_forEach]
    intro b hb
    rw [inBounds_bind, inBounds_loadTile, inBounds_write, hpartials]
    exact ⟨tileFits_of_le hinput.ge b, List.mem_range.1 hb⟩
  have hfinalize : ∀ partials, InBounds len
      (reduceFinalize BR functor identity partials (gridBlocksFor n)) ↔ 0 < len .output := by
    intro partials
    rw [reduceFinalize, inBounds_bind, inBounds_loadTile, inBounds_write]
    exact and_iff_right (tileFits_of_le hpartials.ge 0)
  rw [launchReduce, inBounds_bind, inBounds_bind, hfinalize]
  simp [hmain]

end Kernels

/-! ### Padded buffers -/

section Padded

variable {α : Type}

/-- A buffer of `n` elements, continued with `e`. -/
def padded (m : ℕ → α) (n : ℕ) (e : α) (j : ℕ) : α := if j < n then m j else e

theorem firstN_padded (m : ℕ → α) (e : α) {n k : ℕ} (hn : n ≤ k) :
    firstN (padded m n e) k = firstN m n ++ List.replicate (k - n) e := by
  induction k, hn using Nat.le_induction with
  | base =>
    rw [Nat.sub_self, List.replicate_zero, List.append_nil]
    exact firstN_congr fun j hj => if_pos hj
  | succ k hn ih =>
    have hlast : padded m n e k = e := if_neg (by omega)
    unfold firstN at ih ⊢
    rw [List.range_succ, List.map_append, ih, Nat.succ_sub hn, List.replicate_succ']
    simp [hlast]

/-- The tiles, one after the other, are the buffer. -/
theorem flatMap_tiles (m : ℕ → α) (g : ℕ) :
    ((List.range g).flatMap fun b => firstN (fun j => m (b * 1024 + j)) 1024) =
      firstN m (g * 1024) := by
  induction g with
  | zero => rfl
  | succ g ih =>
    rw [List.range_succ, List.flatMap_append, ih, Nat.succ_mul]
    unfold firstN
    rw [List.range_add, List.map_append, List.map_map]
    simp [Function.comp_def]

end Padded

/-! ### The two launches -/

section Launches

variable {α : Type} {BR : BlockReduce α} (hBR : BR.Lawful) (functor : α → α → α)
  [Std.Associative functor] [Std.Commutative functor]
include hBR

/-- A block reduction in striped order. -/
theorem BlockReduce.Lawful.reduce_striped (data : ℕ → ℕ → α) :
    Reduction.reduce functor (firstN (fun j => data (j % 256) (j / 256)) 1024) =
      some (BR.reduce functor data) := by
  obtain ⟨l, hperm, hl⟩ := hBR.reduce_eq functor data
  have hstriped : (blocked data tileElements).Perm
      (firstN (fun j => data (j % 256) (j / 256)) tileElements) := blocked_perm data
  rw [show tileElements = 1024 from rfl] at hperm hstriped
  calc Reduction.reduce functor (firstN (fun j => data (j % 256) (j / 256)) 1024)
      = Reduction.reduce functor l := (reduce_perm (hperm.trans hstriped)).symm
    _ = some (BR.reduce functor data) := hl

theorem BlockReduce.Lawful.reduce_tile (m : ℕ → α) (n : ℕ) (e : α) (b : ℕ) :
    Reduction.reduce functor (firstN (fun j => padded m n e (b * 1024 + j)) 1024) =
      some (BR.reduce functor (tileItem m n e b)) := by
  refine Eq.trans (congrArg _ ?_) (hBR.reduce_striped functor (tileItem m n e b))
  exact firstN_congr fun j _ => (tileItem_striped m n e b j).symm

/-- The partial of block `b`. -/
def partialOf (BR : BlockReduce α) (functor : α → α → α) (e : α) (input : ℕ → α) (n b : ℕ) : α :=
  BR.reduce functor (tileItem input n e b)

omit hBR [Std.Associative functor] [Std.Commutative functor] in
theorem scatter_reduceMain (BR : BlockReduce α) (e : α) (input m : ℕ → α) (n : ℕ) {grid b : ℕ}
    (hb : b < grid) :
    scatter m (reduceMain BR functor e input n grid).val b =
      partialOf BR functor e input n b := by
  have hval : (reduceMain BR functor e input n grid).val =
      (List.range grid).map fun b => (b, partialOf BR functor e input n b) := by
    rw [reduceMain, val_forEach, List.map_eq_flatMap]
    refine List.flatMap_congr fun b _ => ?_
    rw [val_bind]
    simp only [val_gather, val_loadItem, val_write, partialOf]
  rw [hval]
  refine scatter_of_agree ⟨_, List.mem_map.2 ⟨b, List.mem_range.2 hb, rfl⟩, rfl⟩ fun w hw hwb => ?_
  obtain ⟨b', -, rfl⟩ := List.mem_map.1 hw
  rw [show b' = b from hwb]

/-- What the second launch stores, from the partials of the blocks. -/
theorem reduceFinalize_eq (e : α) (partials : ℕ → α) (nPartials : ℕ) (m : ℕ → α) :
    Reduction.reduce functor (firstN (padded partials nPartials e) 1024) =
      some (scatter m (reduceFinalize BR functor e partials nPartials).val 0) := by
  have hval : (reduceFinalize BR functor e partials nPartials).val =
      [(0, BR.reduce functor (tileItem partials nPartials e 0))] := by
    rw [reduceFinalize, val_bind]
    simp only [val_gather, val_loadItem, val_write]
  have htile := hBR.reduce_tile functor partials nPartials e 0
  simp only [Nat.zero_mul, Nat.zero_add] at htile
  rw [hval]
  simpa [scatter] using htile

/-- The partials of a grid of up to 1024 blocks, folded: the input and the padding of both
launches. -/
theorem reduce_partials (e : α) (input : ℕ → α) {n grid : ℕ} (hn : n ≤ grid * 1024)
    (hgrid : grid ≤ 1024) {partials : ℕ → α}
    (hpartials : ∀ b < grid, partials b = partialOf BR functor e input n b) :
    Reduction.reduce functor (firstN (padded partials grid e) 1024) =
      Reduction.reduce functor
        (firstN input n ++ List.replicate (grid * 1024 - n + (1024 - grid)) e) := by
  have htiles : Reduction.reduce functor (firstN partials grid) =
      Reduction.reduce functor (firstN (padded input n e) (grid * 1024)) := by
    rw [← flatMap_tiles, firstN_congr hpartials]
    exact reduce_map_of_pieces fun b _ => hBR.reduce_tile functor input n e b
  rw [firstN_padded _ _ hgrid, reduce_append, htiles, ← reduce_append, firstN_padded _ _ hn,
    List.append_assoc, List.replicate_append_replicate]

/-- The second launch sees the first 1024 blocks only. -/
theorem firstN_partials_congr (e : α) {input input' partials partials' : ℕ → α} {n grid : ℕ}
    (hinput : ∀ j < 2 ^ 20, input j = input' j)
    (hpartials : ∀ b < grid, partials b = partialOf BR functor e input n b)
    (hpartials' : ∀ b < grid, partials' b = partialOf BR functor e input' n b) :
    firstN (padded partials grid e) 1024 = firstN (padded partials' grid e) 1024 := by
  refine firstN_congr fun b hb => ?_
  unfold padded
  split_ifs with hgrid
  · have htiles : firstN (fun j => padded input n e (b * 1024 + j)) 1024 =
        firstN (fun j => padded input' n e (b * 1024 + j)) 1024 := by
      refine firstN_congr fun j hj => ?_
      unfold padded
      rw [hinput _ (by omega)]
    have hreduce := (hBR.reduce_tile functor input n e b).symm.trans
      ((congrArg _ htiles).trans (hBR.reduce_tile functor input' n e b))
    rw [hpartials b hgrid, hpartials' b hgrid]
    exact Option.some.inj hreduce
  · rfl

end Launches

/-! ### The operations -/

section Operations

variable {d : IntDtype} (op : ReductionOp)

theorem value_max (a b : Word d) : value (reduceOp .max a b) = max (value a) (value b) := by
  show value (if value a < value b then b else a) = _
  split_ifs with h
  · exact (max_eq_right h.le).symm
  · exact (max_eq_left (not_lt.1 h)).symm

theorem value_min (a b : Word d) : value (reduceOp .min a b) = min (value a) (value b) := by
  show value (if value b < value a then b else a) = _
  split_ifs with h
  · exact (min_eq_right h.le).symm
  · exact (min_eq_left (not_lt.1 h)).symm

theorem reduceOp_comm (a b : Word d) : reduceOp op a b = reduceOp op b a := by
  cases op with
  | sum => exact BitVec.add_comm a b
  | product => exact BitVec.mul_comm a b
  | max | argMax =>
    apply value_injective
    exact (value_max a b).trans ((max_comm _ _).trans (value_max b a).symm)
  | min | argMin =>
    apply value_injective
    exact (value_min a b).trans ((min_comm _ _).trans (value_min b a).symm)

theorem reduceOp_assoc (a b c : Word d) :
    reduceOp op (reduceOp op a b) c = reduceOp op a (reduceOp op b c) := by
  have hmax : ∀ a b c : Word d, reduceOp .max (reduceOp .max a b) c =
      reduceOp .max a (reduceOp .max b c) := fun a b c =>
    value_injective (by simp only [value_max, max_assoc])
  have hmin : ∀ a b c : Word d, reduceOp .min (reduceOp .min a b) c =
      reduceOp .min a (reduceOp .min b c) := fun a b c =>
    value_injective (by simp only [value_min, min_assoc])
  cases op with
  | sum => exact BitVec.add_assoc a b c
  | product => exact BitVec.mul_assoc a b c
  | max | argMax => exact hmax a b c
  | min | argMin => exact hmin a b c

instance : Std.Commutative (reduceOp (d := d) op) := ⟨reduceOp_comm op⟩

instance : Std.Associative (reduceOp (d := d) op) := ⟨reduceOp_assoc op⟩

/-- The operations whose `reduceIdentity` is one. -/
def NeutralIdentity (d : IntDtype) : ReductionOp → Prop
  | .sum | .product => True
  | .max | .argMax => d.signed = false
  | .min | .argMin => False

theorem reduceOp_identity (h : NeutralIdentity d op) (x : Word d) :
    reduceOp op x (reduceIdentity op) = x := by
  cases op with
  | sum => exact BitVec.add_zero x
  | product => exact BitVec.mul_one x
  | max | argMax =>
    refine if_neg (not_lt.2 ?_)
    exact value_zero.trans_le (value_nonneg h x)
  | min | argMin => exact h.elim

/-- An element that loses to the padding. -/
theorem exists_loses_to_identity (h : ¬ NeutralIdentity d op) :
    ∃ u : Word d, u ≠ reduceIdentity op ∧ reduceOp op u u = u ∧
      reduceOp op u (reduceIdentity op) = reduceIdentity op ∧
      reduceOp op (reduceIdentity op : Word d) (reduceIdentity op) = reduceIdentity op := by
  cases op with
  | sum | product => exact absurd trivial h
  | max | argMax =>
    have hneg := value_neg_one (d := d) (by simpa [NeutralIdentity] using h)
    have hlt : value (-1 : Word d) < value (0 : Word d) := by
      rw [hneg, value_zero]
      decide
    exact ⟨-1, fun heq => absurd (congrArg value heq) hlt.ne, if_neg (lt_irrefl _), if_pos hlt,
      if_neg (lt_irrefl _)⟩
  | min | argMin =>
    exact ⟨1, one_ne_zero_word, if_neg (lt_irrefl _), if_pos value_zero_lt_one,
      if_neg (lt_irrefl _)⟩

/-- Two elements, the second of which wins wherever it stands among copies of the first. -/
theorem exists_wins : ∃ u v : Word d, u ≠ v ∧ reduceOp op u u = u ∧
    reduceOp op u v = v := by
  have hne : (1 : Word d) ≠ 0 := one_ne_zero_word
  cases op with
  | sum => exact ⟨0, 1, hne.symm, BitVec.add_zero 0, BitVec.zero_add 1⟩
  | product => exact ⟨1, 0, hne, BitVec.mul_one 1, BitVec.mul_zero⟩
  | max | argMax => exact ⟨0, 1, hne.symm, if_neg (lt_irrefl _), if_pos value_zero_lt_one⟩
  | min | argMin => exact ⟨1, 0, hne, if_neg (lt_irrefl _), if_pos value_zero_lt_one⟩

end Operations

/-! ### Exactly when the result is the fold -/

section Result

variable {d : IntDtype} {n : ℕ}

/-- The result of the launches is the fold of the input. -/
def FoldsTo (BR : BlockReduce (Word d)) (op : ReductionOp) (input output : ℕ → Word d)
    (n : ℕ) : Prop :=
  Reduction.reduce (reduceOp op) (firstN input n) =
    some ((launchReduce BR (reduceOp op) (reduceIdentity op) input output n).val 0)

/-- `run_reduce`: the output buffer after the two launches, or none when the source does not
compile. -/
def runReduce (BR : BlockReduce (Word d)) (op : ReductionOp) (input output : ℕ → Word d) (n : ℕ) :
    Option (Traced Buf (ℕ → Word d)) :=
  (compileReduce op).map fun compiled =>
    launchReduce BR compiled.1 compiled.2 input output n

/-- The request compiles, and its result is the fold of the input. -/
def ReducesTo (BR : BlockReduce (Word d)) (op : ReductionOp) (input output : ℕ → Word d)
    (n : ℕ) : Prop :=
  ∃ run, runReduce BR op input output n = some run ∧
    Reduction.reduce (reduceOp op) (firstN input n) = some (run.val 0)

/-- The partials after the first launch. -/
def runPartials (BR : BlockReduce (Word d)) (op : ReductionOp) (input : ℕ → Word d) (n : ℕ) :
    ℕ → Word d :=
  scatter (fun _ => 0)
    (reduceMain BR (reduceOp op) (reduceIdentity op) input n (gridBlocksFor n)).val

theorem runPartials_eq (BR : BlockReduce (Word d)) (op : ReductionOp) (input : ℕ → Word d)
    (n b : ℕ) (hb : b < gridBlocksFor n) :
    runPartials BR op input n b =
      partialOf BR (reduceOp op) (reduceIdentity op) input n b :=
  scatter_reduceMain (reduceOp op) BR (reduceIdentity op) input _ n hb

variable {BR : BlockReduce (Word d)} (hBR : BR.Lawful) (op : ReductionOp)
include hBR

theorem launchReduce_finalize (input output : ℕ → Word d) (n : ℕ) :
    some ((launchReduce BR (reduceOp op) (reduceIdentity op) input output n).val 0) =
      Reduction.reduce (reduceOp op)
        (firstN (padded (runPartials BR op input n) (gridBlocksFor n) (reduceIdentity op))
          1024) := by
  have hval : (launchReduce BR (reduceOp op) (reduceIdentity op) input output n).val =
      scatter output
        (reduceFinalize BR (reduceOp op) (reduceIdentity op) (runPartials BR op input n)
          (gridBlocksFor n)).val := by
    rw [launchReduce, val_bind, val_bind, val_pure]
    rfl
  rw [hval]
  exact (reduceFinalize_eq hBR (reduceOp op) _ _ _ output).symm

omit hBR in
theorem gridBlocksFor_bounds (hpos : 0 < n) (hn : n ≤ 2 ^ 20) :
    n ≤ gridBlocksFor n * 1024 ∧ gridBlocksFor n * 1024 < n + 1024 ∧ gridBlocksFor n ≤ 1024 := by
  simp only [gridBlocksFor, tileElements, blockThreads, itemsPerThread]
  omega

/-- The number of padding elements that are folded in, in both launches. -/
def paddingOf (n : ℕ) : ℕ := gridBlocksFor n * 1024 - n + (1024 - gridBlocksFor n)

omit hBR in
theorem paddingOf_eq_zero (hpos : 0 < n) (hn : n ≤ 2 ^ 20) : paddingOf n = 0 ↔ n = 2 ^ 20 := by
  obtain ⟨h₁, h₂, h₃⟩ := gridBlocksFor_bounds hpos hn
  unfold paddingOf
  omega

theorem launchReduce_eq (hpos : 0 < n) (hn : n ≤ 2 ^ 20) (input output : ℕ → Word d) :
    some ((launchReduce BR (reduceOp op) (reduceIdentity op) input output n).val 0) =
      Reduction.reduce (reduceOp op)
        (firstN input n ++ List.replicate (paddingOf n) (reduceIdentity op)) := by
  obtain ⟨hcover, -, hgrid⟩ := gridBlocksFor_bounds hpos hn
  refine (launchReduce_finalize hBR op input output n).trans ?_
  exact reduce_partials hBR (reduceOp op) _ input hcover hgrid (runPartials_eq BR op input n)

/-- The input beyond the first 1024 blocks has no influence. -/
theorem launchReduce_congr {input input' : ℕ → Word d} (h : ∀ j < 2 ^ 20, input j = input' j)
    (output : ℕ → Word d) (n : ℕ) :
    (launchReduce BR (reduceOp op) (reduceIdentity op) input output n).val 0 =
      (launchReduce BR (reduceOp op) (reduceIdentity op) input' output n).val 0 := by
  have hfirst := firstN_partials_congr hBR (reduceOp op) (reduceIdentity op) h
    (runPartials_eq BR op input n) (runPartials_eq BR op input' n)
  apply Option.some.inj
  exact (launchReduce_finalize hBR op input output n).trans
    ((congrArg _ hfirst).trans (launchReduce_finalize hBR op input' output n).symm)

omit hBR in
theorem firstN_const {α : Type} (x : α) (n : ℕ) : firstN (fun _ => x) n = List.replicate n x := by
  simp [firstN]

/-- More than 1024 blocks: two inputs that the second launch cannot tell apart. -/
theorem not_foldsTo_of_lt (hn : 2 ^ 20 < n) (output : ℕ → Word d) :
    ¬ ∀ input, FoldsTo BR op input output n := by
  obtain ⟨u, v, hne, huu, huv⟩ := exists_wins (d := d) op
  have hvu : reduceOp op v u = v := (reduceOp_comm op v u).trans huv
  obtain ⟨k, rfl⟩ : ∃ k, n = k + 1 := ⟨n - 1, by omega⟩
  intro h
  have hall := h fun _ => u
  have hone := h fun j => if j = 2 ^ 20 then v else u
  have hagree : ∀ j < 2 ^ 20, (fun _ : ℕ => u) j = (fun j => if j = 2 ^ 20 then v else u) j :=
    fun j hj => (if_neg (by omega)).symm
  have hsame := launchReduce_congr hBR op hagree output (k + 1)
  unfold FoldsTo at hall hone
  rw [firstN_const, reduce_replicate huu] at hall
  rw [firstN, reduce_single huu huv hvu, if_pos (show 2 ^ 20 ≤ k by omega)] at hone
  exact hne (Option.some.inj (hall.trans ((congrArg some hsame).trans hone.symm)))

/-- A padded launch: the input loses to the padding. -/
theorem not_foldsTo_of_padding {u : Word d} (hne : u ≠ reduceIdentity op)
    (huu : reduceOp op u u = u)
    (hue : reduceOp op u (reduceIdentity op) = reduceIdentity op)
    (hee : reduceOp op (reduceIdentity op : Word d) (reduceIdentity op) = reduceIdentity op)
    (hpos : 0 < n) (hn : n < 2 ^ 20) (output : ℕ → Word d) :
    ¬ FoldsTo BR op (fun _ => u) output n := by
  intro h
  have hpad : paddingOf n ≠ 0 := fun hzero =>
    hn.ne ((paddingOf_eq_zero hpos hn.le).1 hzero)
  obtain ⟨p, hp⟩ : ∃ p, paddingOf n = p + 1 := ⟨paddingOf n - 1, by omega⟩
  obtain ⟨k, rfl⟩ : ∃ k, n = k + 1 := ⟨n - 1, by omega⟩
  unfold FoldsTo at h
  rw [launchReduce_eq hBR op hpos hn.le, firstN_const, hp, reduce_append, reduce_replicate huu,
    reduce_replicate hee, Option.merge_some_some, hue] at h
  exact hne (Option.some.inj h)

theorem foldsTo_of_neutral (h : NeutralIdentity d op) (hpos : 0 < n) (hn : n ≤ 2 ^ 20)
    (input output : ℕ → Word d) : FoldsTo BR op input output n := by
  have hne : firstN input n ≠ [] := by
    intro hnil
    have hlen := congrArg List.length hnil
    simp only [firstN, List.length_map, List.length_range, List.length_nil] at hlen
    omega
  have hpadding := reduce_append_replicate (reduceOp_identity op h) hne (paddingOf n)
  exact hpadding.symm.trans (launchReduce_eq hBR op hpos hn input output).symm

theorem foldsTo_of_full (input output : ℕ → Word d) :
    FoldsTo BR op input output (2 ^ 20) := by
  have hpadding := (paddingOf_eq_zero (by decide) le_rfl).2 (rfl : 2 ^ 20 = 2 ^ 20)
  have hresult := launchReduce_eq hBR op (by decide) le_rfl input output
  rw [hpadding, List.replicate_zero, List.append_nil] at hresult
  exact hresult.symm

omit hBR in
/-- `run_reduce` compiles the source and launches both kernels. -/
theorem reducesTo_iff (input output : ℕ → Word d) (n : ℕ) :
    ReducesTo BR op input output n ↔ op ≠ .product ∧ FoldsTo BR op input output n := by
  unfold ReducesTo runReduce FoldsTo
  rw [compileReduce_eq]
  by_cases hop : op = .product
  · rw [if_pos hop]
    refine iff_of_false ?_ fun h => h.1 hop
    rintro ⟨run, hrun, -⟩
    cases hrun
  · rw [if_neg hop, Option.map_some]
    constructor
    · rintro ⟨run, hrun, hfold⟩
      cases hrun
      exact ⟨hop, hfold⟩
    · exact fun h => ⟨_, rfl, h.2⟩

theorem foldsTo_iff (hpos : 0 < n) :
    (∀ input output : ℕ → Word d, FoldsTo BR op input output n) ↔
      n = 2 ^ 20 ∨ (n < 2 ^ 20 ∧ NeutralIdentity d op) := by
  constructor
  · intro h
    rcases Nat.lt_trichotomy n (2 ^ 20) with hlt | heq | hgt
    · refine .inr ⟨hlt, ?_⟩
      by_contra hneutral
      obtain ⟨u, hne, huu, hue, hee⟩ := exists_loses_to_identity op hneutral
      exact not_foldsTo_of_padding hBR op hne huu hue hee hpos hlt (fun _ => 0) (h _ _)
    · exact .inl heq
    · exact absurd (fun input => h input _) (not_foldsTo_of_lt hBR op hgt fun _ => 0)
  · rintro (rfl | ⟨hlt, hneutral⟩) input output
    · exact foldsTo_of_full hBR op input output
    · exact foldsTo_of_neutral hBR op hneutral hpos hlt.le input output

/-- **The result is the fold, for every input of length `n`, exactly when the operation is not a
product, and all 1024 tiles are full, or fewer elements are padded with a neutral element.** -/
theorem runReduce_correct_iff (hpos : 0 < n) :
    (∀ input output : ℕ → Word d, ReducesTo BR op input output n) ↔
      op ≠ .product ∧ (n = 2 ^ 20 ∨ (n < 2 ^ 20 ∧ NeutralIdentity d op)) := by
  rw [← foldsTo_iff hBR op hpos]
  constructor
  · intro h
    exact ⟨((reducesTo_iff op _ _ n).1 (h (fun _ => 0) fun _ => 0)).1,
      fun input output => ((reducesTo_iff op input output n).1 (h input output)).2⟩
  · rintro ⟨hop, h⟩ input output
    exact (reducesTo_iff op input output n).2 ⟨hop, h input output⟩

end Result

/-- The end-to-end test with integers: the sum of 16384 ones. -/
theorem runReduce_correct_sum :
    ReducesTo (d := .i32) BlockReduce.documented .sum (fun _ => 1) (fun _ => 0) 16384 :=
  (runReduce_correct_iff BlockReduce.documented_lawful .sum (by decide)).2
    ⟨by decide, .inr ⟨by decide, trivial⟩⟩ _ _

/-- The maximum of a single `-1` comes out as the padding, a sum over 1025 blocks misses the last of
them, and a product is not computed at all. -/
theorem runReduce_incorrect :
    ¬ ReducesTo (d := .i32) BlockReduce.documented .max (fun _ => -1) (fun _ => 0) 1 ∧
      (¬ ∀ input : ℕ → Word .i32,
        ReducesTo BlockReduce.documented .sum input (fun _ => 0) (2 ^ 20 + 1)) ∧
      runReduce (d := .i32) BlockReduce.documented .product (fun _ => 1) (fun _ => 0) 1 = none := by
  refine ⟨fun h => ?_, fun h => ?_, ?_⟩
  · exact not_foldsTo_of_padding BlockReduce.documented_lawful .max (by decide) (by decide)
      (by decide) (by decide) (by decide) (by decide) _ ((reducesTo_iff .max _ _ 1).1 h).2
  · exact not_foldsTo_of_lt BlockReduce.documented_lawful .sum (Nat.lt_succ_self _) _
      fun input => ((reducesTo_iff .sum input _ _).1 (h input)).2
  · rw [runReduce, compileReduce_eq, if_pos rfl]
    rfl

end Cub

end AtomrAccel
