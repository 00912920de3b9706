import AtomrAccel.Train.DataParallel
import Mathlib.Algebra.Order.Floor.Div
import Mathlib.Data.List.GetD

/-!
# `TensorParallelTrainer`: an input over shards

A step cuts its input into one chunk for each shard, and adds the partial outputs up as they come
in, each padded with zeros to the longest one so far.  The arithmetic is that of a field in place
of `f32`.

* `TensorParallelTrainer`, `chunks`, `tells`, `stepReplies`: the trainer and its `Step` arm;
* `flatten_chunks`, `length_le_of_mem_chunks`: the chunks are the input, cut by ceiling division;
* `paddedSum`, `foldl_accumulate`: the accumulator, resized on the way, is the padded sum;
* `step_sums`: the reply is the padded sum with the weighted means, or one error.
-/

namespace AtomrAccel

namespace Train

open Gather

/-- What a shard answers. -/
structure ShardStepResult (F : Type) where
  partialOutput : List F
  loss : F
  gradNorm : F
  samples : ℕ
  deriving DecidableEq, Repr

/-- The trainer, without the configuration that no arm reads. -/
structure TensorParallelTrainer where
  shards : List ActorRef
  deriving DecidableEq, Repr

/-- The loop `acc[i] += v` over an output that is not longer than the accumulator. -/
def addAssign {F : Type} [Add F] : List F → List F → List F
  | acc, [] => acc
  | [], _ :: _ => []
  | a :: acc, v :: output => (a + v) :: addAssign acc output

/-- `acc.resize(m, 0.0)` for an accumulator that is not longer than `m`. -/
def resize {F : Type} [Zero F] (acc : List F) (m : ℕ) : List F :=
  acc ++ List.replicate (m - acc.length) 0

/-- One partial output. -/
def accumulate {F : Type} [Add F] [Zero F] (summed : Option (List F)) (output : List F) :
    Option (List F) :=
  match summed with
  | none => some output
  | some acc =>
    if acc.length ≠ output.length then
      some (addAssign (resize acc (max acc.length output.length)) output)
    else some (addAssign acc output)

/-- What the task keeps. -/
structure Partials (F : Type) where
  summed : Option (List F)
  totals : Totals F

namespace TensorParallelTrainer

variable {F : Type}

/-- The chunks of an input; `lo` and `hi` are clamped to its length. -/
def chunks (t : TensorParallelTrainer) (input : List F) : List (List F) :=
  let chunkSize := input.length ⌈/⌉ t.shards.length
  (List.range t.shards.length).map fun i =>
    let lo := min (i * chunkSize) input.length
    let hi := min ((i + 1) * chunkSize) input.length
    (input.take hi).drop lo

/-- The messages of a step. -/
def tells (t : TensorParallelTrainer) (input : List F) : List (ActorRef × List F) :=
  t.shards.zip (t.chunks input)

/-- A shard has replied. -/
def next [Field F] (s : Partials F) (r : ShardStepResult F) : Partials F :=
  ⟨accumulate s.summed r.partialOutput, s.totals.add r.loss r.gradNorm r.samples⟩

/-- The end of the spawned task. -/
def finish [Field F] (s : Partials F) : Except GpuError (List F × StepStats F) :=
  .ok (s.summed.getD [],
    { loss := if 0 < s.totals.samples then s.totals.loss / s.totals.samples else 0
      gradNorm := if 0 < s.totals.samples then s.totals.gradNorm / s.totals.samples else 0 })

/-- The replies of a `Step`, when shard `i` answers `answers i` and the answers arrive in the given
order. -/
def stepReplies [Field F] (t : TensorParallelTrainer) (input : List F)
    (answers : ℕ → Received GpuError (ShardStepResult F)) (order : List ℕ) :
    List (Except GpuError (List F × StepStats F)) :=
  if t.shards.isEmpty then [.error (.unrecoverable "TensorParallelTrainer::Step: no shards")]
  else
    (run (.unrecoverable "tensor-parallel: shard dropped reply") next finish ⟨none, .zero⟩
      ((List.range (t.tells input).length).map answers) order).replies

/-! ### The chunks -/

section Chunks

variable {t : TensorParallelTrainer}

theorem length_chunks (input : List F) : (t.chunks input).length = t.shards.length := by
  simp [chunks]

theorem length_tells (input : List F) : (t.tells input).length = t.shards.length := by
  rw [tells, List.length_zip, length_chunks, min_self]

/-- Consecutive chunks make up a prefix of the input. -/
theorem flatten_map_range (input : List F) (size k : ℕ) :
    ((List.range k).map fun i => (input.take (min ((i + 1) * size) input.length)).drop
      (min (i * size) input.length)).flatten = input.take (min (k * size) input.length) := by
  induction k with
  | zero => simp
  | succ k ih =>
    have hle : min (k * size) input.length ≤ min ((k + 1) * size) input.length :=
      min_le_min_right _ (Nat.mul_le_mul_right size (Nat.le_succ k))
    have hprefix : input.take (min (k * size) input.length) =
        (input.take (min ((k + 1) * size) input.length)).take (min (k * size) input.length) := by
      rw [List.take_take, min_eq_left hle]
    rw [List.range_succ, List.map_append, List.flatten_append, ih, hprefix]
    simp only [List.map_cons, List.map_nil, List.flatten_cons, List.flatten_nil, List.append_nil]
    exact List.take_append_drop _ _

theorem flatten_chunks (ht : t.shards ≠ []) (input : List F) : (t.chunks input).flatten = input := by
  have hpos : 0 < t.shards.length := List.length_pos_iff.2 ht
  have hall : input.length ≤ t.shards.length * (input.length ⌈/⌉ t.shards.length) :=
    (ceilDiv_le_iff_le_mul hpos).1 le_rfl
  show ((List.range t.shards.length).map _).flatten = input
  rw [flatten_map_range, min_eq_right hall, List.take_length]

theorem length_le_of_mem_chunks {input c : List F} (hc : c ∈ t.chunks input) :
    c.length ≤ input.length ⌈/⌉ t.shards.length := by
  obtain ⟨i, -, rfl⟩ := List.mem_map.1 hc
  dsimp only
  rw [List.length_drop, List.length_take, Nat.succ_mul]
  omega

end Chunks

end TensorParallelTrainer

/-! ### The padded sum -/

section Sum

/-- The greatest length. -/
def longest {F : Type} (outputs : List (List F)) : ℕ := (outputs.map List.length).foldr max 0

theorem longest_concat {F : Type} (outputs : List (List F)) (o : List F) :
    longest (outputs ++ [o]) = max (longest outputs) o.length := by
  induction outputs with
  | nil => simp [longest]
  | cons a outputs ih =>
    show max a.length (longest (outputs ++ [o])) = max (max a.length (longest outputs)) o.length
    rw [ih, max_assoc]

theorem length_le_longest {F : Type} {outputs : List (List F)} {o : List F} (ho : o ∈ outputs) :
    o.length ≤ longest outputs := by
  induction outputs with
  | nil => cases ho
  | cons a outputs ih =>
    show o.length ≤ max a.length (longest outputs)
    obtain rfl | hrest := List.mem_cons.1 ho
    · exact le_max_left _ _
    · exact (ih hrest).trans (le_max_right _ _)

variable {F : Type} [Field F]

/-- The component-wise sum of the outputs, each padded with zeros to the longest. -/
def paddedSum (outputs : List (List F)) : List F :=
  (List.range (longest outputs)).map fun i => (outputs.map fun o => o.getD i 0).sum

theorem eq_of_getD {a b : List F} (hlen : a.length = b.length)
    (hget : ∀ i, a.getD i 0 = b.getD i 0) : a = b := by
  refine List.ext_getElem hlen fun i hi hi' => ?_
  have h := hget i
  rwa [List.getD_eq_getElem _ _ hi, List.getD_eq_getElem _ _ hi'] at h

theorem length_addAssign (acc output : List F) : (addAssign acc output).length = acc.length := by
  fun_induction addAssign acc output with
  | case1 => rfl
  | case2 => rfl
  | case3 a acc v output ih => rw [List.length_cons, List.length_cons, ih]

theorem getD_addAssign {acc output : List F} (hlen : output.length ≤ acc.length) (i : ℕ) :
    (addAssign acc output).getD i 0 = acc.getD i 0 + output.getD i 0 := by
  fun_induction addAssign acc output generalizing i with
  | case1 => simp
  | case2 v output => exact absurd hlen (Nat.not_succ_le_zero _)
  | case3 a acc v output ih =>
    cases i with
    | zero => rfl
    | succ i => exact ih (Nat.le_of_succ_le_succ hlen) i

theorem getD_resize (acc : List F) (m i : ℕ) : (resize acc m).getD i 0 = acc.getD i 0 := by
  unfold resize
  by_cases hi : i < acc.length
  · rw [List.getD_append _ _ _ _ hi]
  · rw [List.getD_append_right _ _ _ _ (not_lt.1 hi), List.getD_eq_default acc 0 (not_lt.1 hi)]
    by_cases hm : i - acc.length < m - acc.length
    · exact List.getD_replicate 0 hm
    · exact List.getD_eq_default _ _ (by simpa using hm)

/-- One more output, whatever the two lengths. -/
theorem accumulate_some (acc output : List F) :
    ∃ sum, accumulate (some acc) output = some sum ∧ sum.length = max acc.length output.length ∧
      ∀ i, sum.getD i 0 = acc.getD i 0 + output.getD i 0 := by
  by_cases hlen : acc.length ≠ output.length
  · have hres : (resize acc (max acc.length output.length)).length =
        max acc.length output.length := by
      unfold resize
      rw [List.length_append, List.length_replicate]
      omega
    refine ⟨_, if_pos hlen, ?_, fun i => ?_⟩
    · rw [length_addAssign, hres]
    · rw [getD_addAssign (by omega), getD_resize]
  · refine ⟨_, if_neg hlen, ?_, fun i => ?_⟩
    · rw [length_addAssign]
      omega
    · exact getD_addAssign (by omega) i

theorem length_paddedSum (outputs : List (List F)) :
    (paddedSum outputs).length = longest outputs := by
  simp [paddedSum]

theorem getD_paddedSum (outputs : List (List F)) (i : ℕ) :
    (paddedSum outputs).getD i 0 = (outputs.map fun o => o.getD i 0).sum := by
  by_cases hi : i < longest outputs
  · have hlt : i < (paddedSum outputs).length := length_paddedSum outputs ▸ hi
    rw [List.getD_eq_getElem _ _ hlt]
    simp [paddedSum]
  · have hlen : (paddedSum outputs).length ≤ i := length_paddedSum outputs ▸ not_lt.1 hi
    rw [List.getD_eq_default _ _ hlen]
    symm
    -- past the longest output every component is the padding
    apply List.sum_eq_zero
    intro x hx
    obtain ⟨o, ho, rfl⟩ := List.mem_map.1 hx
    exact List.getD_eq_default _ _ ((length_le_longest ho).trans (not_lt.1 hi))

theorem foldl_accumulate_of_ne_nil {outputs : List (List F)} (houtputs : outputs ≠ []) :
    outputs.foldl accumulate none = some (paddedSum outputs) := by
  induction outputs using List.reverseRecOn with
  | nil => exact absurd rfl houtputs
  | append_singleton outputs o ih =>
    rw [List.foldl_append, List.foldl_cons, List.foldl_nil]
    by_cases hnil : outputs = []
    · subst hnil
      show some o = _
      congr 1
      refine eq_of_getD ?_ fun i => ?_
      · rw [length_paddedSum]
        simp [longest]
      · rw [getD_paddedSum]
        simp
    · rw [ih hnil]
      obtain ⟨sum, hsum, hlen, hget⟩ := accumulate_some (paddedSum outputs) o
      rw [hsum]
      congr 1
      refine eq_of_getD ?_ fun i => ?_
      · rw [hlen, length_paddedSum, length_paddedSum, longest_concat]
      · rw [hget, getD_paddedSum, getD_paddedSum]
        simp

/-- The accumulator is the padded sum. -/
theorem foldl_accumulate (outputs : List (List F)) :
    (outputs.foldl accumulate none).getD [] = paddedSum outputs := by
  by_cases hnil : outputs = []
  · subst hnil
    rfl
  · rw [foldl_accumulate_of_ne_nil hnil]
    rfl

end Sum

/-! ### A step -/

/-- The mean of a value over results, weighted with their samples, and 0 without samples. -/
def weightedMean {F : Type} [Field F] (value : ShardStepResult F → F)
    (results : List (ShardStepResult F)) : F :=
  let samples := (results.map (·.samples)).sum
  if 0 < samples then (results.map fun r => value r * (r.samples : F)).sum / (samples : F) else 0

namespace TensorParallelTrainer

variable {F : Type} [Field F] {t : TensorParallelTrainer} {input : List F}
  {answers : ℕ → Received GpuError (ShardStepResult F)} {order : List ℕ}

/-- The two accumulators do not depend on each other. -/
theorem foldl_next (results : List (ShardStepResult F)) (s : Partials F) :
    results.foldl next s = ⟨(results.map (·.partialOutput)).foldl accumulate s.summed,
      results.foldl (fun totals r => totals.add r.loss r.gradNorm r.samples) s.totals⟩ := by
  induction results generalizing s with
  | nil => rfl
  | cons r results ih => exact ih (next s r)

theorem finish_foldl_next (results : List (ShardStepResult F)) :
    finish (results.foldl next ⟨none, .zero⟩) =
      .ok (paddedSum (results.map (·.partialOutput)),
        ⟨weightedMean (·.loss) results, weightedMean (·.gradNorm) results⟩) := by
  have htotals := Totals.foldl_add (F := F) (·.loss) (·.gradNorm) (·.samples) results .zero
  rw [foldl_next]
  dsimp only
  rw [htotals]
  simp only [finish, foldl_accumulate, Totals.zero, zero_add, weightedMean]

/-- Once all shards have answered, the reply is what their answers come to. -/
theorem stepReplies_eq (ht : t.shards ≠ []) (horder : ∀ i < t.shards.length, i ∈ order) :
    t.stepReplies input answers order =
      [collect (.unrecoverable "tensor-parallel: shard dropped reply") next finish ⟨none, .zero⟩
        ((List.range t.shards.length).map answers)] := by
  have hne : ¬ t.shards.isEmpty = true := by simpa using ht
  rw [stepReplies, if_neg hne, length_tells, run_map_eq_collect]
  · rfl
  · rw [List.length_range]
    exact horder

end TensorParallelTrainer

open TensorParallelTrainer in
/-- The chunks are the input; when all shards succeed, in whatever order they reply, the reply is the
padded sum of their outputs with the weighted means, and when a shard fails it is one error. -/
theorem step_sums {F : Type} [Field F] (t : TensorParallelTrainer) (ht : t.shards ≠ [])
    (input : List F) (answers : ℕ → Received GpuError (ShardStepResult F)) (order : List ℕ)
    (horder : ∀ i < t.shards.length, i ∈ order) :
    (t.tells input).map (·.1) = t.shards ∧
      ((t.tells input).map (·.2)).flatten = input ∧
      (∀ c ∈ (t.tells input).map (·.2), c.length ≤ input.length ⌈/⌉ t.shards.length) ∧
      (∀ results : ℕ → ShardStepResult F,
        (∀ i < t.shards.length, answers i = .value (results i)) →
        t.stepReplies input answers order =
          [.ok (paddedSum ((List.range t.shards.length).map fun i => (results i).partialOutput),
            ⟨weightedMean (·.loss) ((List.range t.shards.length).map results),
              weightedMean (·.gradNorm) ((List.range t.shards.length).map results)⟩)]) ∧
      ((∃ i < t.shards.length, ∀ r, answers i ≠ .value r) →
        ∃ e, t.stepReplies input answers order = [.error e]) := by
  have hsnd : (t.tells input).map (·.2) = t.chunks input := by
    rw [tells, List.map_snd_zip]
    exact (length_chunks input).le
  refine ⟨?_, ?_, ?_, fun results hresults => ?_, ?_⟩
  · rw [tells, List.map_fst_zip]
    exact (length_chunks input).ge
  · rw [hsnd, flatten_chunks ht]
  · rw [hsnd]
    exact fun c hc => length_le_of_mem_chunks hc
  · have hanswers : (List.range t.shards.length).map answers =
        ((List.range t.shards.length).map results).map .value := by
      rw [List.map_map]
      exact List.map_congr_left fun i hi => hresults i (List.mem_range.1 hi)
    rw [stepReplies_eq ht horder, hanswers, collect_map_value, finish_foldl_next, List.map_map]
    rfl
  · rintro ⟨i, hi, hfail⟩
    have hmem : answers i ∈ (List.range t.shards.length).map answers :=
      List.mem_map_of_mem (List.mem_range.2 hi)
    have hne : (answers i).failure? (.unrecoverable "tensor-parallel: shard dropped reply") ≠
        none := by
      cases hcase : answers i with
      | value r => exact absurd hcase (hfail r)
      | failed e => exact Option.some_ne_none e
      | dropped => exact Option.some_ne_none _
    obtain ⟨e, he⟩ : ∃ e, collect (.unrecoverable "tensor-parallel: shard dropped reply") next
        finish ⟨none, .zero⟩ ((List.range t.shards.length).map answers) = .error e :=
      collect_of_failure _ hmem hne
    rw [stepReplies_eq ht horder, he]
    exact ⟨e, rfl⟩

/-- Two shards with outputs of different lengths, the second of which replies first. -/
def unevenShards : ℕ → ShardStepResult ℚ
  | 0 => ⟨[1], 4, 1, 1⟩
  | _ => ⟨[1, 2, 3], 1, 1, 2⟩

theorem step_sums_unevenShards :
    (⟨[10, 11]⟩ : TensorParallelTrainer).stepReplies [1, 2, 3] (fun i => .value (unevenShards i))
        [1, 0] =
      [.ok ([2, 2, 3], ⟨2, 1⟩)] := by
  obtain ⟨-, -, -, hok, -⟩ := step_sums (⟨[10, 11]⟩ : TensorParallelTrainer) (by decide)
    ([1, 2, 3] : List ℚ) (fun i => .value (unevenShards i)) [1, 0] (by decide)
  rw [hok unevenShards fun _ _ => rfl]
  norm_num [weightedMean, unevenShards, paddedSum, longest, List.range_succ]

end Train

end AtomrAccel
