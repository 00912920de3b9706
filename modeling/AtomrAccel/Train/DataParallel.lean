import AtomrAccel.Device.DeviceActor
import AtomrAccel.Lib.Gather
import Mathlib.Algebra.BigOperators.Group.List.Basic
import Mathlib.Algebra.Field.Rat

/-!
# `DataParallelTrainer`: a batch over replicas

A step deals the samples of its batch to the replicas in turn, asks each for the loss of its chunk
and weights the answers with the numbers of samples they report.  The arithmetic is that of a field
in place of `f32`.

* `StepStats`, `Totals`: the statistics of a step and the sums they are computed from;
* `DataParallelTrainer`, `splitBatch`, `tells`, `stepReplies`: the trainer and its `Step` arm;
* `IsSplit`, `splitBatch_isSplit`: the chunks partition the batch evenly, with its order kept;
* `MeanReply`: a replica replies with the mean loss of its chunk;
* `step_answered`: a step is answered once, and with the mean loss of the whole batch when the
  replicas reply with the means of their chunks.
-/

namespace AtomrAccel

namespace Train

open Gather

/-- The statistics of a step, without the time it took. -/
structure StepStats (F : Type) where
  loss : F
  gradNorm : F
  deriving DecidableEq, Repr

/-- The sums a trainer keeps: losses and gradient norms weighted with samples, and samples. -/
structure Totals (F : Type) where
  loss : F
  gradNorm : F
  samples : ℕ
  deriving DecidableEq, Repr

namespace Totals

variable {F : Type} [Field F]

/-- Nothing has been added. -/
def zero : Totals F := ⟨0, 0, 0⟩

/-- One answer, weighted by its samples. -/
def add (t : Totals F) (loss gradNorm : F) (samples : ℕ) : Totals F :=
  ⟨t.loss + loss * samples, t.gradNorm + gradNorm * samples, t.samples + samples⟩

/-- The totals of a list of answers. -/
theorem foldl_add {α : Type} (loss gradNorm : α → F) (samples : α → ℕ) (l : List α)
    (t : Totals F) :
    l.foldl (fun t r => t.add (loss r) (gradNorm r) (samples r)) t =
      ⟨t.loss + (l.map fun r => loss r * samples r).sum,
        t.gradNorm + (l.map fun r => gradNorm r * samples r).sum,
        t.samples + (l.map samples).sum⟩ := by
  induction l generalizing t with
  | nil => simp
  | cons r l ih =>
    rw [List.foldl_cons, ih]
    simp only [add, List.map_cons, List.sum_cons, add_assoc]

end Totals

/-- A sample of a batch. -/
structure TrainSample (F : Type) where
  features : List F
  label : List F
  deriving DecidableEq, Repr

/-- What a replica answers. -/
structure ReplicaStepResult (F : Type) where
  loss : F
  gradNorm : F
  samples : ℕ
  deriving DecidableEq, Repr

/-- The trainer, without the configuration that no arm reads. -/
structure DataParallelTrainer where
  replicas : List ActorRef
  deriving DecidableEq, Repr

namespace DataParallelTrainer

variable {F : Type}

/-- `split_batch`: sample `i` goes to chunk `i % n`. -/
def splitBatch (t : DataParallelTrainer) (batch : List (TrainSample F)) :
    List (List (TrainSample F)) :=
  let n := max t.replicas.length 1
  batch.zipIdx.foldl (fun out s => out.modify (s.2 % n) (· ++ [s.1])) (List.replicate n [])

/-- The messages of a step. -/
def tells (t : DataParallelTrainer) (batch : List (TrainSample F)) :
    List (ActorRef × List (TrainSample F)) :=
  t.replicas.zip (t.splitBatch batch)

/-- The end of the spawned task. -/
def finish [Field F] (t : Totals F) : Except GpuError (StepStats F) :=
  if t.samples = 0 then .error (.unrecoverable "trainer: zero samples")
  else .ok ⟨t.loss / t.samples, t.gradNorm / t.samples⟩

/-- The replies of a `Step`, when replica `i` answers `answers i` and the answers arrive in the
given order. -/
def stepReplies [Field F] (t : DataParallelTrainer) (batch : List (TrainSample F))
    (answers : ℕ → Received GpuError (ReplicaStepResult F)) (order : List ℕ) :
    List (Except GpuError (StepStats F)) :=
  if t.replicas.isEmpty then
    [.error (.unrecoverable "DataParallelTrainer::Step: no replicas configured")]
  else
    (run (.unrecoverable "trainer: replica dropped reply")
      (fun (totals : Totals F) r => totals.add r.loss r.gradNorm r.samples) finish .zero
      ((List.range (t.tells batch).length).map answers) order).replies

end DataParallelTrainer

/-! ### Dealing a batch -/

/-- `chunks` are `n` lists that together have the elements of `batch`, each in its order, of
lengths that differ by at most one. -/
structure IsSplit {α : Type} (n : ℕ) (batch : List α) (chunks : List (List α)) : Prop where
  count : chunks.length = n
  ordered : ∀ c ∈ chunks, c.Sublist batch
  partition : chunks.flatten.Perm batch
  balanced : ∀ c ∈ chunks, ∀ c' ∈ chunks, c.length ≤ c'.length + 1

/-- What has been dealt after the samples `batch`. -/
structure Dealt {α : Type} (n : ℕ) (batch : List α) (chunks : List (List α)) : Prop where
  count : chunks.length = n
  ordered : ∀ c ∈ chunks, c.Sublist batch
  partition : chunks.flatten.Perm batch
  sizes : ∀ j c, chunks[j]? = some c →
    c.length = batch.length / n + if j < batch.length % n then 1 else 0

section Deal

variable {α : Type} {n : ℕ} {batch : List α} {chunks : List (List α)}

theorem Dealt.isSplit (h : Dealt n batch chunks) : IsSplit n batch chunks := by
  refine ⟨h.count, h.ordered, h.partition, fun c hc c' hc' => ?_⟩
  obtain ⟨j, hj⟩ := List.mem_iff_getElem?.1 hc
  obtain ⟨j', hj'⟩ := List.mem_iff_getElem?.1 hc'
  rw [h.sizes j c hj, h.sizes j' c' hj']
  split_ifs <;> omega

theorem flatten_modify_perm (chunks : List (List α)) {k : ℕ} (hk : k < chunks.length) (s : α) :
    (chunks.modify k (· ++ [s])).flatten.Perm (chunks.flatten ++ [s]) := by
  induction chunks generalizing k with
  | nil => exact absurd hk (Nat.not_lt_zero k)
  | cons c rest ih =>
    cases k with
    | zero =>
      rw [List.modify_zero_cons, List.flatten_cons, List.flatten_cons, List.append_assoc,
        List.append_assoc]
      exact List.perm_append_comm.append_left c
    | succ k =>
      rw [List.modify_succ_cons, List.flatten_cons, List.flatten_cons, List.append_assoc]
      exact (ih (Nat.lt_of_succ_lt_succ hk)).append_left c

/-- The next size of chunk `j`. -/
theorem div_add_mod_succ (m j : ℕ) (hj : j < n) :
    (m + 1) / n + (if j < (m + 1) % n then 1 else 0) =
      m / n + (if j < m % n then 1 else 0) + if m % n = j then 1 else 0 := by
  have hn : 0 < n := by omega
  have hmod : m % n < n := Nat.mod_lt m hn
  have hdiv : n * (m / n) + m % n = m := Nat.div_add_mod m n
  by_cases hlast : m % n + 1 = n
  · have hmul : n * (m / n + 1) = n * (m / n) + n := Nat.mul_succ _ _
    obtain ⟨hd, hr⟩ := (Nat.div_mod_unique (a := m + 1) (d := m / n + 1) (c := 0) hn).2
      ⟨by omega, hn⟩
    rw [hd, hr]
    split_ifs <;> omega
  · obtain ⟨hd, hr⟩ := (Nat.div_mod_unique (a := m + 1) (d := m / n) (c := m % n + 1) hn).2
      ⟨by omega, by omega⟩
    rw [hd, hr]
    split_ifs <;> omega

/-- One sample is dealt. -/
theorem Dealt.deal (h : Dealt n batch chunks) (hn : 0 < n) (s : α) :
    Dealt n (batch ++ [s]) (chunks.modify (batch.length % n) (· ++ [s])) where
  count := by rw [List.length_modify, h.count]
  ordered c hc := by
    obtain ⟨j, hj⟩ := List.mem_iff_getElem?.1 hc
    rw [List.getElem?_modify] at hj
    obtain ⟨c₀, hc₀, rfl⟩ := Option.map_eq_some_iff.1 hj
    have hsub : c₀.Sublist batch := h.ordered c₀ (List.mem_of_getElem? hc₀)
    split_ifs with hk
    · exact hsub.append (List.Sublist.refl [s])
    · exact hsub.trans (List.sublist_append_left batch [s])
  partition := by
    have hk : batch.length % n < chunks.length := by
      rw [h.count]
      exact Nat.mod_lt _ hn
    exact (flatten_modify_perm chunks hk s).trans (h.partition.append_right [s])
  sizes j c hc := by
    rw [List.getElem?_modify] at hc
    obtain ⟨c₀, hc₀, rfl⟩ := Option.map_eq_some_iff.1 hc
    have hj : j < n := h.count ▸ (List.getElem?_eq_some_iff.1 hc₀).1
    have hsize := h.sizes j c₀ hc₀
    rw [List.length_append, List.length_singleton, div_add_mod_succ _ j hj, ← hsize]
    split_ifs with hk
    · rw [List.length_append, List.length_singleton]
    · rfl

theorem dealt_nil (n : ℕ) : Dealt n ([] : List α) (List.replicate n []) where
  count := List.length_replicate
  ordered c hc := by rw [List.eq_of_mem_replicate hc]
  partition := by rw [List.flatten_replicate_nil]
  sizes j c hc := by
    rw [List.eq_of_mem_replicate (List.mem_of_getElem? hc)]
    simp

theorem dealt_foldl (hn : 0 < n) (batch : List α) :
    Dealt n batch
      (batch.zipIdx.foldl (fun out s => out.modify (s.2 % n) (· ++ [s.1]))
        (List.replicate n [])) := by
  induction batch using List.reverseRecOn with
  | nil => exact dealt_nil n
  | append_singleton batch s ih =>
    rw [List.zipIdx_append, List.foldl_append]
    simp only [List.zipIdx_cons, List.zipIdx_nil, List.foldl_cons, List.foldl_nil, Nat.zero_add]
    exact ih.deal hn s

end Deal

namespace DataParallelTrainer

variable {F : Type} {t : DataParallelTrainer}

theorem splitBatch_isSplit (ht : t.replicas ≠ []) (batch : List (TrainSample F)) :
    IsSplit t.replicas.length batch (t.splitBatch batch) := by
  have hn : max t.replicas.length 1 = t.replicas.length :=
    max_eq_left (List.length_pos_iff.2 ht)
  have hdealt := dealt_foldl (n := max t.replicas.length 1) (by omega) batch
  rw [← hn]
  exact hdealt.isSplit

theorem length_tells (ht : t.replicas ≠ []) (batch : List (TrainSample F)) :
    (t.tells batch).length = t.replicas.length := by
  rw [tells, List.length_zip, (splitBatch_isSplit ht batch).count, min_self]

end DataParallelTrainer

/-! ### The mean of a batch -/

/-- A replica replies with the mean loss of its chunk and its number of samples; for an empty chunk
any loss will do. -/
def MeanReply {F : Type} [Field F] (loss : TrainSample F → F) (chunk : List (TrainSample F))
    (answer : Received GpuError (ReplicaStepResult F)) : Prop :=
  ∃ r, answer = .value r ∧ r.samples = chunk.length ∧
    r.loss * chunk.length = (chunk.map loss).sum

section Mean

variable {F : Type} [Field F] {loss : TrainSample F → F}

/-- Mean replies come from results whose weighted losses are the sums over the chunks. -/
theorem results_of_meanReply {chunks : List (List (TrainSample F))}
    {rs : List (Received GpuError (ReplicaStepResult F))}
    (h : List.Forall₂ (MeanReply loss) chunks rs) :
    ∃ results : List (ReplicaStepResult F), rs = results.map .value ∧
      results.map (·.samples) = chunks.map List.length ∧
      results.map (fun r => r.loss * (r.samples : F)) =
        chunks.map fun c => (c.map loss).sum := by
  induction h with
  | nil => exact ⟨[], rfl, rfl, rfl⟩
  | @cons chunk answer chunks rs hmean hrest ih =>
    obtain ⟨r, rfl, hsamples, hloss⟩ := hmean
    obtain ⟨results, rfl, hlengths, hsums⟩ := ih
    refine ⟨r :: results, rfl, ?_, ?_⟩
    · rw [List.map_cons, List.map_cons, hsamples, hlengths]
    · rw [List.map_cons, List.map_cons, hsums, hsamples, hloss]

/-- The sum over the chunks is the sum over the batch. -/
theorem IsSplit.sum_eq {n : ℕ} {batch : List (TrainSample F)}
    {chunks : List (List (TrainSample F))} (h : IsSplit n batch chunks) :
    (chunks.map fun c => (c.map loss).sum).sum = (batch.map loss).sum := by
  have hperm : (chunks.flatten.map loss).sum = (batch.map loss).sum :=
    (h.partition.map loss).sum_eq
  rw [← hperm, List.map_flatten, List.sum_flatten, List.map_map]
  rfl

theorem IsSplit.sum_length {α : Type} {n : ℕ} {batch : List α} {chunks : List (List α)}
    (h : IsSplit n batch chunks) : (chunks.map List.length).sum = batch.length := by
  rw [← List.length_flatten, h.partition.length_eq]

end Mean

namespace DataParallelTrainer

variable {F : Type} [Field F] {t : DataParallelTrainer} {batch : List (TrainSample F)}
  {answers : ℕ → Received GpuError (ReplicaStepResult F)} {order : List ℕ}

/-- Once all replicas have answered, the reply is what their answers come to. -/
theorem stepReplies_eq (ht : t.replicas ≠ []) (horder : ∀ i < t.replicas.length, i ∈ order) :
    t.stepReplies batch answers order =
      [collect (.unrecoverable "trainer: replica dropped reply")
        (fun (totals : Totals F) r => totals.add r.loss r.gradNorm r.samples) finish .zero
        ((List.range t.replicas.length).map answers)] := by
  have hne : ¬ t.replicas.isEmpty = true := by simpa using ht
  rw [stepReplies, if_neg hne, length_tells ht, run_map_eq_collect]
  · rfl
  · rw [List.length_range]
    exact horder

theorem length_stepReplies (horder : ∀ i < t.replicas.length, i ∈ order) :
    (t.stepReplies batch answers order).length = 1 := by
  by_cases ht : t.replicas = []
  · rw [stepReplies, ht]
    rfl
  · rw [stepReplies_eq ht horder]
    rfl

/-- With the means of the chunks, the totals are those of the batch. -/
theorem stepReplies_of_meanReply (ht : t.replicas ≠ [])
    (horder : ∀ i < t.replicas.length, i ∈ order) {loss : TrainSample F → F}
    (hmean : ∀ i chunk, (t.splitBatch batch)[i]? = some chunk →
      MeanReply loss chunk (answers i)) :
    ∃ gradNorm, t.stepReplies batch answers order =
      [finish ⟨(batch.map loss).sum, gradNorm, batch.length⟩] := by
  have hsplit := splitBatch_isSplit ht batch
  have hforall : List.Forall₂ (MeanReply loss) (t.splitBatch batch)
      ((List.range t.replicas.length).map answers) := by
    rw [List.forall₂_iff_get]
    refine ⟨by simp [hsplit.count], fun i hi hi' => ?_⟩
    have hget := hmean i _ (List.getElem?_eq_getElem hi)
    simpa using hget
  obtain ⟨results, hresults, hlengths, hsums⟩ := results_of_meanReply hforall
  have htotals := Totals.foldl_add (F := F) (·.loss) (·.gradNorm) (·.samples) results .zero
  rw [hlengths, hsums, hsplit.sum_eq, hsplit.sum_length] at htotals
  rw [stepReplies_eq ht horder, hresults, collect_map_value, htotals]
  simp only [Totals.zero, zero_add]
  exact ⟨_, rfl⟩

end DataParallelTrainer

open DataParallelTrainer in
/-- A step deals its batch evenly and is answered once; when the replicas reply with the mean losses
of their chunks, the reply is the mean loss of the batch, and an error for the empty one. -/
theorem step_answered {F : Type} [Field F] (t : DataParallelTrainer) (batch : List (TrainSample F))
    (answers : ℕ → Received GpuError (ReplicaStepResult F)) (order : List ℕ)
    (horder : ∀ i < t.replicas.length, i ∈ order) :
    (t.stepReplies batch answers order).length = 1 ∧
      (t.replicas ≠ [] → IsSplit t.replicas.length batch (t.splitBatch batch) ∧
        (t.tells batch).map (·.2) = t.splitBatch batch ∧
        ∀ loss : TrainSample F → F,
          (∀ i chunk, (t.splitBatch batch)[i]? = some chunk → MeanReply loss chunk (answers i)) →
          (batch = [] → t.stepReplies batch answers order =
            [.error (.unrecoverable "trainer: zero samples")]) ∧
          (batch ≠ [] → ∃ gradNorm, t.stepReplies batch answers order =
            [.ok ⟨(batch.map loss).sum / batch.length, gradNorm⟩])) := by
  refine ⟨length_stepReplies horder, fun ht => ?_⟩
  have hsplit := splitBatch_isSplit ht batch
  refine ⟨hsplit, ?_, fun loss hmean => ?_⟩
  · unfold tells
    rw [List.map_snd_zip]
    exact hsplit.count.le
  · obtain ⟨gradNorm, hreply⟩ := stepReplies_of_meanReply ht horder hmean
    rw [hreply]
    constructor
    · intro hbatch
      rw [hbatch]
      rfl
    · intro hbatch
      have hlen : batch.length ≠ 0 := fun hzero => hbatch (List.length_eq_zero_iff.1 hzero)
      refine ⟨gradNorm / batch.length, ?_⟩
      rw [finish, if_neg hlen]

/-- Three samples over two replicas, the second of which answers first. -/
def threeSamples : List (TrainSample ℚ) := [⟨[1], []⟩, ⟨[2], []⟩, ⟨[6], []⟩]

def unevenAnswers : ℕ → Received GpuError (ReplicaStepResult ℚ)
  | 0 => .value ⟨7 / 2, 1, 2⟩
  | _ => .value ⟨2, 1, 1⟩

theorem step_answered_threeSamples :
    ∃ gradNorm, (⟨[10, 11]⟩ : DataParallelTrainer).stepReplies threeSamples unevenAnswers [1, 0] =
      [.ok ⟨(threeSamples.map fun s => s.features.sum).sum / threeSamples.length, gradNorm⟩] := by
  obtain ⟨-, hsplit⟩ := step_answered (⟨[10, 11]⟩ : DataParallelTrainer) threeSamples unevenAnswers
    [1, 0] (by decide)
  obtain ⟨-, -, hmean⟩ := hsplit (by decide)
  refine (hmean (fun s => s.features.sum) fun i chunk hchunk => ?_).2 (by decide)
  match i, hchunk with
  | 0, hchunk =>
    cases hchunk
    exact ⟨_, rfl, rfl, by norm_num⟩
  | 1, hchunk =>
    cases hchunk
    exact ⟨_, rfl, rfl, by norm_num⟩

end Train

end AtomrAccel
