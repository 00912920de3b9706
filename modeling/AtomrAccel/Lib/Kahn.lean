import Mathlib.Data.List.AList
import Mathlib.Algebra.BigOperators.Group.Finset.Basic
import Mathlib.Data.Fintype.Card
import Mathlib.Tactic

/-!
# Kahn's algorithm

A directed graph is given by the successor list of each node, where a successor may stand more
than once.  A queue starts with the nodes of in-degree zero; the node at its head is put out, the
in-degrees of its successors go down, and those that reach zero join the queue.

* `succs`, `indegree`, `relax`, `loop`: the graph and the algorithm, on in-degrees of any origin;
* `Processed`: the nodes among `K` all of whose predecessors are processed, so those that no cycle
  and no node outside `K` leads to;
* `Inv`, `loop_inv`: what an iteration preserves and the loop ends with;
* `loop_spec`: started on the true in-degrees, the loop puts out each processed node once, after
  all its predecessors, whatever the order of its first queue;
* `processed_of_acyclic`, `Processed.not_cyclic`: the processed nodes against cycles.
-/

namespace Kahn

open Relation

variable {α : Type*} [DecidableEq α]

/-- The successors of a node, with repetitions. -/
def succs (edges : AList fun _ : α => List α) (n : α) : List α := (edges.lookup n).getD []

/-- One successor `s` of the node just put out. -/
def relax (st : (α → ℕ) × List α) (s : α) : (α → ℕ) × List α :=
  let d := st.1 s - 1
  (Function.update st.1 s d, if d = 0 then st.2 ++ [s] else st.2)

section Relax

variable (inDeg : α → ℕ) (q l : List α)

theorem relax_fst (v : α) : (l.foldl relax (inDeg, q)).1 v = inDeg v - l.count v := by
  induction l generalizing inDeg q with
  | nil => simp
  | cons s l ih =>
    rw [List.foldl_cons, relax, ih]
    dsimp only
    by_cases hv : v = s
    · subst hv
      rw [Function.update_self, List.count_cons_self]
      omega
    · rw [Function.update_of_ne hv, List.count_cons_of_ne (Ne.symm hv)]

theorem mem_relax_snd (v : α) :
    v ∈ (l.foldl relax (inDeg, q)).2 ↔ v ∈ q ∨ v ∈ l ∧ inDeg v ≤ l.count v := by
  induction l generalizing inDeg q with
  | nil => simp
  | cons s l ih =>
    rw [List.foldl_cons, relax, ih]
    dsimp only
    by_cases hv : v = s
    · subst hv
      rw [Function.update_self, List.count_cons_self]
      by_cases hd : inDeg v - 1 = 0
      · simp only [hd, if_true, List.mem_append, or_true, true_or, List.mem_cons,
          true_and, true_iff]
        exact .inr (by omega)
      · rw [if_neg hd]
        simp only [List.mem_cons, true_or, true_and]
        constructor
        · rintro (hq | ⟨-, hle⟩)
          · exact .inl hq
          · exact .inr (by omega)
        · rintro (hq | hle)
          · exact .inl hq
          · have hmem : v ∈ l := List.count_pos_iff.1 (by omega)
            exact .inr ⟨hmem, by omega⟩
    · rw [Function.update_of_ne hv, List.count_cons_of_ne (Ne.symm hv)]
      split_ifs <;> simp [hv]

theorem length_relax_snd_le : (l.foldl relax (inDeg, q)).2.length ≤ q.length + l.length := by
  induction l generalizing inDeg q with
  | nil => simp
  | cons s l ih =>
    rw [List.foldl_cons, relax]
    refine (ih _ _).trans ?_
    rw [List.length_cons]
    dsimp only
    split_ifs
    · rw [List.length_append, List.length_singleton]
      omega
    · omega

end Relax

variable (edges : AList fun _ : α => List α)

/-- The edges that leave nodes not yet seen. -/
def remaining (seen : Finset α) : ℕ := ∑ k ∈ edges.keys.toFinset \ seen, (succs edges k).length

/-- The number of edges into a node from nodes not yet seen. -/
def indegree (seen : Finset α) (v : α) : ℕ :=
  ∑ k ∈ edges.keys.toFinset \ seen, (succs edges k).count v

variable {edges}

theorem succs_of_notMem {n : α} (h : n ∉ edges) : succs edges n = [] := by
  rw [succs, AList.lookup_eq_none.2 h]
  rfl

/-- Seeing a node takes its own share out of a sum over the nodes not yet seen. -/
theorem sum_insert_seen (f : List α → ℕ) (hnil : f [] = 0) {seen : Finset α} {n : α}
    (h : n ∉ seen) :
    ∑ k ∈ edges.keys.toFinset \ seen, f (succs edges k) = f (succs edges n) +
      ∑ k ∈ edges.keys.toFinset \ insert n seen, f (succs edges k) := by
  rw [Finset.sdiff_insert]
  by_cases hn : n ∈ edges
  · have hmem : n ∈ edges.keys.toFinset \ seen := by simp [h, ← AList.mem_keys, hn]
    exact (Finset.add_sum_erase _ (fun k => f (succs edges k)) hmem).symm
  · rw [succs_of_notMem hn, hnil, Nat.zero_add, Finset.erase_eq_of_notMem]
    simp [← AList.mem_keys, hn]

theorem remaining_insert {seen : Finset α} {n : α} (h : n ∉ seen) :
    remaining edges seen = (succs edges n).length + remaining edges (insert n seen) :=
  sum_insert_seen List.length rfl h

theorem indegree_insert {seen : Finset α} {n : α} (h : n ∉ seen) (v : α) :
    indegree edges seen v = (succs edges n).count v + indegree edges (insert n seen) v :=
  sum_insert_seen (List.count v) rfl h

theorem indegree_eq_zero_iff {seen : Finset α} {v : α} :
    indegree edges seen v = 0 ↔ ∀ u, v ∈ succs edges u → u ∈ seen := by
  rw [indegree, Finset.sum_eq_zero_iff]
  constructor
  · intro h u hu
    by_contra hseen
    have hkey : u ∈ edges := by
      by_contra hnone
      rw [succs_of_notMem hnone] at hu
      cases hu
    have hzero := h u (by simp [hseen, ← AList.mem_keys, hkey])
    exact absurd hzero (List.count_pos_iff.2 hu).ne'
  · intro h u hu
    rw [List.count_eq_zero]
    exact fun hmem => (Finset.mem_sdiff.1 hu).2 (h u hmem)

@[simp] theorem succs_insert_self (n : α) (l : List α) : succs (edges.insert n l) n = l := by
  rw [succs, AList.lookup_insert]
  rfl

theorem succs_insert_of_ne {n k : α} (l : List α) (h : k ≠ n) :
    succs (edges.insert n l) k = succs edges k := by
  rw [succs, AList.lookup_insert_ne h, succs]

/-- One more edge. -/
theorem mem_succs_push {n m u v : α} :
    v ∈ succs (edges.insert n (succs edges n ++ [m])) u ↔ v ∈ succs edges u ∨ u = n ∧ v = m := by
  by_cases hu : u = n
  · subst hu
    simp
  · simp [succs_insert_of_ne _ hu, hu]

theorem indegree_push (n m v : α) :
    indegree (edges.insert n (succs edges n ++ [m])) ∅ v =
      indegree edges ∅ v + if v = m then 1 else 0 := by
  have hrest : indegree (edges.insert n (succs edges n ++ [m])) (insert n ∅) v =
      indegree edges (insert n ∅) v := by
    have hkeys : (edges.insert n (succs edges n ++ [m])).keys.toFinset \ insert n ∅ =
        edges.keys.toFinset \ insert n ∅ := by
      ext k
      by_cases hk : k = n
      · simp [hk]
      · simp [AList.keys_insert, hk]
    rw [indegree, indegree, hkeys]
    refine Finset.sum_congr rfl fun k hk => ?_
    rw [succs_insert_of_ne]
    rintro rfl
    simp at hk
  rw [indegree_insert (Finset.notMem_empty n), indegree_insert (Finset.notMem_empty n), hrest,
    succs_insert_self, List.count_append, List.count_singleton]
  by_cases hv : v = m
  · simp only [hv, beq_self_eq_true, if_true]
    omega
  · simp [hv, Ne.symm hv]

variable (edges)

/-- The loop, with the in-degrees, the set of nodes seen, the nodes put out and the queue. -/
def loop (inDeg : α → ℕ) (seen : Finset α) (order : List α) : List α → List α
  | [] => order
  | n :: q =>
    if n ∈ seen then loop inDeg seen order q
    else
      let st := (succs edges n).foldl relax (inDeg, q)
      loop st.1 (insert n seen) (order ++ [n]) st.2
termination_by q => remaining edges seen + q.length
decreasing_by
  · simp
  · rename_i h
    have hlen := length_relax_snd_le inDeg q (succs edges n)
    have hsum : remaining edges seen = _ := remaining_insert h
    simp only [List.length_cons]
    omega

/-- A node of `K` all of whose predecessors are processed. -/
inductive Processed (K : α → Prop) : α → Prop
  | intro {v : α} (hv : K v) (h : ∀ u, v ∈ succs edges u → Processed K u) : Processed K v

/-- What holds at the head of the loop. -/
structure Inv (K : α → Prop) (inDeg : α → ℕ) (seen : Finset α) (order q : List α) : Prop where
  seen_iff : ∀ v, v ∈ seen ↔ v ∈ order
  nodup : order.Nodup
  inDeg_eq : ∀ v, inDeg v = indegree edges seen v
  processed : ∀ v ∈ order, Processed edges K v
  before : ∀ u v, v ∈ succs edges u → v ∈ order → [u, v].Sublist order
  ready : ∀ v ∈ q, K v ∧ inDeg v = 0
  waiting : ∀ v, K v → inDeg v = 0 → v ∈ order ∨ v ∈ q

variable {edges} {K : α → Prop} {inDeg : α → ℕ} {seen : Finset α} {order q : List α} {n : α}

theorem Inv.skip (h : Inv edges K inDeg seen order (n :: q)) (hseen : n ∈ seen) :
    Inv edges K inDeg seen order q where
  seen_iff := h.seen_iff
  nodup := h.nodup
  inDeg_eq := h.inDeg_eq
  processed := h.processed
  before := h.before
  ready := fun v hv => h.ready v (List.mem_cons_of_mem _ hv)
  waiting := by
    intro v hK hzero
    rcases h.waiting v hK hzero with horder | hq
    · exact .inl horder
    · rcases List.mem_cons.1 hq with rfl | hq
      · exact .inl ((h.seen_iff v).1 hseen)
      · exact .inr hq

theorem Inv.visit (hK : ∀ u v, v ∈ succs edges u → K v)
    (h : Inv edges K inDeg seen order (n :: q)) (hseen : n ∉ seen) :
    Inv edges K ((succs edges n).foldl relax (inDeg, q)).1 (insert n seen) (order ++ [n])
      ((succs edges n).foldl relax (inDeg, q)).2 := by
  obtain ⟨hKn, hzero⟩ := h.ready n List.mem_cons_self
  have hnew : n ∉ order := fun hmem => hseen ((h.seen_iff n).2 hmem)
  -- every predecessor of the node has been put out
  have hpreds : ∀ u, n ∈ succs edges u → u ∈ order := fun u hu =>
    (h.seen_iff u).1 (indegree_eq_zero_iff.1 ((h.inDeg_eq n).symm.trans hzero) u hu)
  have hdeg : ∀ v, ((succs edges n).foldl relax (inDeg, q)).1 v =
      indegree edges (insert n seen) v := by
    intro v
    rw [relax_fst, h.inDeg_eq, indegree_insert hseen, Nat.add_sub_cancel_left]
  refine ⟨?_, ?_, hdeg, ?_, ?_, ?_, ?_⟩
  · intro v
    rw [Finset.mem_insert, h.seen_iff, List.mem_append, List.mem_singleton, or_comm]
  · rw [List.nodup_append]
    refine ⟨h.nodup, List.nodup_singleton n, ?_⟩
    rintro a ha b hb rfl
    exact hnew (List.mem_singleton.1 hb ▸ ha)
  · intro v hv
    rcases List.mem_append.1 hv with hv | hv
    · exact h.processed v hv
    · obtain rfl := List.mem_singleton.1 hv
      exact .intro hKn fun u hu => h.processed u (hpreds u hu)
  · intro u v huv hv
    rcases List.mem_append.1 hv with hv | hv
    · exact (h.before u v huv hv).trans (List.sublist_append_left _ _)
    · obtain rfl := List.mem_singleton.1 hv
      exact (List.singleton_sublist.2 (hpreds u huv)).append (List.Sublist.refl [v])
  · intro v hv
    rcases (mem_relax_snd inDeg q (succs edges n) v).1 hv with hq | ⟨hmem, hle⟩
    · obtain ⟨hKv, hv0⟩ := h.ready v (List.mem_cons_of_mem _ hq)
      exact ⟨hKv, by rw [relax_fst, hv0, Nat.zero_sub]⟩
    · exact ⟨hK n v hmem, by rw [relax_fst]; omega⟩
  · intro v hKv hv
    rw [relax_fst] at hv
    by_cases hmem : v ∈ succs edges n
    · exact .inr ((mem_relax_snd inDeg q (succs edges n) v).2 (.inr ⟨hmem, by omega⟩))
    · rw [List.count_eq_zero.2 hmem] at hv
      rcases h.waiting v hKv hv with horder | hq
      · exact .inl (List.mem_append_left _ horder)
      · rcases List.mem_cons.1 hq with rfl | hq
        · exact .inl (by simp)
        · exact .inr ((mem_relax_snd inDeg q (succs edges n) v).2 (.inl hq))

/-- The loop ends with an empty queue. -/
theorem loop_inv (hK : ∀ u v, v ∈ succs edges u → K v) (h : Inv edges K inDeg seen order q) :
    ∃ inDeg' seen', Inv edges K inDeg' seen' (loop edges inDeg seen order q) [] := by
  fun_induction loop edges inDeg seen order q with
  | case1 inDeg seen order => exact ⟨inDeg, seen, h⟩
  | case2 inDeg seen order n q hseen ih => exact ih (h.skip hseen)
  | case3 inDeg seen order n q hseen st ih => exact ih (h.visit hK hseen)

/-- What has been put out stays in front. -/
theorem prefix_loop (inDeg : α → ℕ) (seen : Finset α) (order q : List α) :
    order <+: loop edges inDeg seen order q := by
  fun_induction loop edges inDeg seen order q with
  | case1 inDeg seen order => exact List.prefix_rfl
  | case2 inDeg seen order n q hseen ih => exact ih
  | case3 inDeg seen order n q hseen st ih => exact (List.prefix_append _ _).trans ih

/-- The head of the first queue is put out first. -/
theorem loop_head (inDeg : α → ℕ) (n : α) (q : List α) :
    [n] <+: loop edges inDeg ∅ [] (n :: q) := by
  rw [loop, if_neg (Finset.notMem_empty n)]
  exact prefix_loop _ _ [n] _

/-- The queue ends empty, so exactly the processed nodes have been put out. -/
theorem Inv.mem_order_iff (h : Inv edges K inDeg seen order []) (v : α) :
    v ∈ order ↔ Processed edges K v := by
  constructor
  · exact h.processed v
  · intro hv
    induction hv with
    | @intro v hKv hpreds ih =>
      have hzero : inDeg v = 0 := by
        rw [h.inDeg_eq, indegree_eq_zero_iff]
        exact fun u hu => (h.seen_iff u).2 (ih u hu)
      exact (h.waiting v hKv hzero).resolve_right List.not_mem_nil

/-- The loop from the start, on any queue of the nodes of in-degree zero. -/
theorem loop_spec (hK : ∀ u v, v ∈ succs edges u → K v)
    (hdeg : ∀ v, inDeg v = indegree edges ∅ v) (hq : ∀ v, v ∈ q ↔ K v ∧ inDeg v = 0) :
    (loop edges inDeg ∅ [] q).Nodup ∧
      (∀ v, v ∈ loop edges inDeg ∅ [] q ↔ Processed edges K v) ∧
      ∀ u v, v ∈ succs edges u → v ∈ loop edges inDeg ∅ [] q →
        [u, v].Sublist (loop edges inDeg ∅ [] q) := by
  have hstart : Inv edges K inDeg ∅ [] q :=
    { seen_iff := by simp
      nodup := List.nodup_nil
      inDeg_eq := hdeg
      processed := by simp
      before := by simp
      ready := fun v hv => (hq v).1 hv
      waiting := fun v hKv hzero => .inr ((hq v).2 ⟨hKv, hzero⟩) }
  obtain ⟨inDeg', seen', hend⟩ := loop_inv hK hstart
  exact ⟨hend.nodup, hend.mem_order_iff, hend.before⟩

/-! ### Processed nodes and cycles -/

/-- There is an edge from `u` to `v`. -/
def Edge (edges : AList fun _ : α => List α) (u v : α) : Prop := v ∈ succs edges u

theorem Processed.base {v : α} (h : Processed edges K v) : K v := by
  cases h with
  | intro hv _ => exact hv

/-- No cycle leads through a processed node. -/
theorem Processed.not_cyclic {v : α} (h : Processed edges K v) :
    ¬ TransGen (Edge edges) v v := by
  induction h with
  | @intro v hv hpreds ih =>
    intro hcycle
    obtain ⟨u, hvu, huv⟩ := TransGen.tail'_iff.1 hcycle
    exact ih u huv (TransGen.head' huv hvu)

/-- On finitely many nodes no path without cycles goes down forever. -/
theorem wellFounded_of_acyclic (hfin : {v | K v}.Finite)
    (hacyclic : ∀ v, ¬ TransGen (Edge edges) v v) :
    WellFounded fun a b : {v | K v} => TransGen (Edge edges) a.1 b.1 := by
  have : Finite {v | K v} := hfin
  have : IsTrans {v | K v} fun a b => TransGen (Edge edges) a.1 b.1 :=
    ⟨fun _ _ _ hab hbc => TransGen.trans hab hbc⟩
  have : Std.Irrefl fun a b : {v | K v} => TransGen (Edge edges) a.1 b.1 := ⟨fun a => hacyclic a⟩
  exact Finite.wellFounded_of_trans_of_irrefl _

/-- Without cycles every node is processed, when `K` is finite and holds every predecessor. -/
theorem processed_of_acyclic (hfin : {v | K v}.Finite) (hK : ∀ u v, Edge edges u v → K u)
    (hacyclic : ∀ v, ¬ TransGen (Edge edges) v v) {v : α} (hv : K v) : Processed edges K v := by
  have hall : ∀ a : {v | K v}, Processed edges K a := by
    intro a
    induction a using (wellFounded_of_acyclic hfin hacyclic).induction with
    | _ a ih =>
      apply Processed.intro a.2
      intro u hu
      exact ih ⟨u, hK u a hu⟩ (TransGen.single hu)
  exact hall ⟨v, hv⟩

end Kahn
