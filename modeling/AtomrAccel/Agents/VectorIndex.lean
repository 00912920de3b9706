import AtomrAccel.Device.Error
import AtomrAccel.Lib.Ranking
import AtomrAccel.Lib.Reactive

/-!
# `CpuVectorIndex`

The index keeps its entries in the order of their insertion.  A search scores each of them by its
cosine with the query, sorts the scores stably, the highest first, and returns the first `top_k`.

* `ScoreOps`, `cosine`: the arithmetic of `f32`;
* `CpuVectorIndex`, `search`, `handle`: the actor;
* `TopOf`: what a search is for;
* `search_topOf`: it does that, when the scores compare with each other;
* `final_machine`, `search_after`: a search after any messages is over the entries inserted before.
-/

namespace AtomrAccel

namespace Agents

open Ranking Reactive

/-- The operations on `f32` that the index uses; `le a b` says that
`a.partial_cmp(&b).unwrap_or(Equal)` is not `Greater`. -/
structure ScoreOps (F : Type) where
  zero : F
  add : F → F → F
  mul : F → F → F
  div : F → F → F
  sqrt : F → F
  isZero : F → Bool
  le : F → F → Bool

/-- An entry of the index. -/
structure VectorEntry (F : Type) where
  id : UInt64
  embedding : List F

/-- The messages of the index. -/
inductive VectorIndexMsg (F : Type)
  | insert (entry : VectorEntry F)
  | search (query : List F) (topK : ℕ)
  | stats

/-- What goes back on the reply channels. -/
inductive VectorIndexReply (F : Type)
  | inserted (result : Except GpuError Unit)
  | found (result : Except GpuError (List (UInt64 × F)))
  | stats (len : ℕ)

/-- The actor: the dimension it accepts, and its entries in the order of insertion. -/
structure CpuVectorIndex (F : Type) where
  dim : ℕ
  entries : List (VectorEntry F)

namespace CpuVectorIndex

variable {F : Type} (ops : ScoreOps F)

/-- `0` unless both norms are other than zero. -/
def cosine (a b : List F) : F :=
  let dot := ((a.zip b).map fun p => ops.mul p.1 p.2).foldl ops.add ops.zero
  let na := ops.sqrt ((a.map fun x => ops.mul x x).foldl ops.add ops.zero)
  let nb := ops.sqrt ((b.map fun x => ops.mul x x).foldl ops.add ops.zero)
  if ops.isZero na || ops.isZero nb then ops.zero else ops.div dot (ops.mul na nb)

/-- Every entry's id with its similarity to the query. -/
def scored (entries : List (VectorEntry F)) (query : List F) : List (UInt64 × F) :=
  entries.map fun e => (e.id, cosine ops e.embedding query)

/-- The comparison of the sort: `b` does not score higher than `a`. -/
def NotWorse (a b : UInt64 × F) : Prop := ops.le b.2 a.2 = true

instance : DecidableRel (NotWorse ops) := fun _ _ => inferInstanceAs (Decidable (_ = true))

/-- The `Search` arm. -/
def search (dim : ℕ) (entries : List (VectorEntry F)) (query : List F) (topK : ℕ) :
    Except GpuError (List (UInt64 × F)) :=
  if query.length ≠ dim then
    .error (.unrecoverable ("query dim " ++ toString query.length ++ " != index dim " ++
      toString dim))
  else .ok (((scored ops entries query).insertionSort (NotWorse ops)).take topK)

/-- Entries and queries of another dimension are refused. -/
def handle (s : CpuVectorIndex F) : VectorIndexMsg F → CpuVectorIndex F × VectorIndexReply F
  | .insert entry =>
    if entry.embedding.length ≠ s.dim then
      (s, .inserted (.error (.unrecoverable ("vector dim " ++ toString entry.embedding.length ++
        " != index dim " ++ toString s.dim))))
    else ({ s with entries := s.entries ++ [entry] }, .inserted (.ok ()))
  | .search query topK => (s, .found (search ops s.dim s.entries query topK))
  | .stats => (s, .stats s.entries.length)

/-- The index as a machine. -/
def machine : Machine (CpuVectorIndex F) (VectorIndexMsg F) (VectorIndexReply F) :=
  ⟨handle ops⟩

/-! ### What a search finds -/

/-- The places of the first `topK` scores, and no more than there are: highest first, and of those
that compare as equal the one inserted first. -/
structure TopOf (all : List (UInt64 × F)) (topK : ℕ) (top : List (Fin all.length)) : Prop where
  length : top.length = min topK all.length
  order : top.Pairwise (Precedes (NotWorse ops) all)
  best : ∀ i ∈ top, ∀ j, j ∉ top → Precedes (NotWorse ops) all i j

variable {ops}

/-- A search returns the best entries, in the order of their scores and then of their insertion. -/
theorem search_topOf {dim : ℕ} {entries : List (VectorEntry F)} {query : List F}
    (htotal : TotalOn (NotWorse ops) (scored ops entries query)) (hdim : query.length = dim)
    (topK : ℕ) :
    ∃ top, TopOf ops (scored ops entries query) topK top ∧
      search ops dim entries query topK = .ok (top.map (scored ops entries query).get) := by
  obtain ⟨order, hranks, hsort⟩ := exists_ranks htotal
  refine ⟨order.take topK, ⟨?_, ?_, ?_⟩, ?_⟩
  · rw [List.length_take, hranks.perm.length_eq, List.length_finRange]
  · exact hranks.pairwise.sublist (List.take_sublist topK order)
  · exact fun i hi j hj => hranks.of_take hi hj
  · rw [search, if_neg (not_not.2 hdim), hsort, List.map_take]

/-! ### Runs -/

/-- The entry that a message inserts. -/
def inserted? (dim : ℕ) : VectorIndexMsg F → Option (VectorEntry F)
  | .insert entry => if entry.embedding.length = dim then some entry else none
  | .search _ _ | .stats => none

theorem handle_fst (s : CpuVectorIndex F) (msg : VectorIndexMsg F) :
    (s.handle ops msg).1 = ⟨s.dim, s.entries ++ (inserted? s.dim msg).toList⟩ := by
  cases msg with
  | insert entry => by_cases hlen : entry.embedding.length = s.dim <;> simp [handle, inserted?, hlen]
  | search query topK => simp [handle, inserted?]
  | stats => simp [handle, inserted?]

/-- The index holds what was inserted with the right length, in order. -/
theorem final_machine (s : CpuVectorIndex F) (msgs : List (VectorIndexMsg F)) :
    (machine ops).final s msgs = ⟨s.dim, s.entries ++ msgs.filterMap (inserted? s.dim)⟩ := by
  induction msgs generalizing s with
  | nil => simp [Machine.final]
  | cons msg msgs ih =>
    rw [Machine.final_cons, ih]
    show (⟨(s.handle ops msg).1.dim, _⟩ : CpuVectorIndex F) = _
    simp only [machine, handle_fst]
    cases hmsg : inserted? s.dim msg with
    | none => simp [List.filterMap_cons_none hmsg]
    | some entry => simp [List.filterMap_cons_some hmsg]

/-- After any messages a search finds the best of the entries that they have inserted. -/
theorem search_after (dim : ℕ) (msgs : List (VectorIndexMsg F)) {query : List F}
    (htotal : TotalOn (NotWorse ops) (scored ops (msgs.filterMap (inserted? dim)) query))
    (hdim : query.length = dim) (topK : ℕ) :
    ∃ top, TopOf ops (scored ops (msgs.filterMap (inserted? dim)) query) topK top ∧
      (((machine ops).final ⟨dim, []⟩ msgs).handle ops (.search query topK)).2 =
        .found (.ok (top.map (scored ops (msgs.filterMap (inserted? dim)) query).get)) := by
  obtain ⟨top, htop, hsearch⟩ := search_topOf htotal hdim topK
  refine ⟨top, htop, ?_⟩
  rw [final_machine, List.nil_append]
  exact congrArg VectorIndexReply.found hsearch

/-- Scores in `ℕ`, with products for cosines. -/
def countingOps : ScoreOps ℕ := ⟨0, (· + ·), (· * ·), fun a _ => a, id, (· == 0), (· ≤ ·)⟩

/-- Entries 2 and 3 score alike, and 2 was inserted before. -/
theorem search_after_three : ∃ top,
    TopOf countingOps (scored countingOps [⟨1, [1, 0]⟩, ⟨2, [2, 1]⟩, ⟨3, [2, 5]⟩] [1, 0]) 2 top ∧
      (((machine countingOps).final ⟨2, []⟩ [.insert ⟨1, [1, 0]⟩, .insert ⟨7, [1]⟩,
        .insert ⟨2, [2, 1]⟩, .insert ⟨3, [2, 5]⟩]).handle countingOps (.search [1, 0] 2)).2 =
        .found (.ok (top.map
          (scored countingOps [⟨1, [1, 0]⟩, ⟨2, [2, 1]⟩, ⟨3, [2, 5]⟩] [1, 0]).get)) :=
  search_after 2 [.insert ⟨1, [1, 0]⟩, .insert ⟨7, [1]⟩, .insert ⟨2, [2, 1]⟩, .insert ⟨3, [2, 5]⟩]
    ⟨fun a _ b _ => by simpa [NotWorse, countingOps] using Nat.le_total b.2 a.2,
      fun a _ b _ c _ hab hbc => by
        simp only [NotWorse, countingOps, decide_eq_true_eq] at hab hbc ⊢
        exact hbc.trans hab⟩ rfl 2

end CpuVectorIndex

end Agents

end AtomrAccel
