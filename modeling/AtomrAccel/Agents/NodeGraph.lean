import AtomrAccel.Device.Error
import AtomrAccel.Lib.Kahn

/-!
# `NodeGraph`

Agent nodes wired into a graph and run in topological order.  An edge may name a node that was
never added: its target gets an in-degree all the same, and a cycle is recognized only by the
length of the order.

* `NodeGraph`, `addNode`, `addEdge`, `setEntry`, `topoOrder`, `run`: the graph and a `Run` of
  `LangGraphGpuActor`;
* `Built`, `built_build`: the in-degrees of a built graph are those of its edges;
* `Exact`, `exact_iff`: the order is one of exactly the acyclic graphs without dangling edges,
  unless the dangling nodes that are put out make up for the nodes that are not;
* `entry_first_iff`: the entry node, which no function reads, runs first exactly when it is the
  only node without a predecessor.
-/

namespace AtomrAccel

namespace LangGraph

open Kahn Relation

/-- The number of a node. -/
structure NodeId where
  id : UInt32
  deriving DecidableEq, Repr

/-- A node's computation.  A `Run` asks each node at most once, so one that keeps a state needs no
number of the call. -/
abbrev GraphNode (S : Type) := S → Except GpuError S

/-- The graph under construction: hash maps for nodes, successors and in-degrees, and the entry. -/
structure NodeGraph (S : Type) where
  nodes : AList fun _ : NodeId => GraphNode S
  edges : AList fun _ : NodeId => List NodeId
  inDegree : AList fun _ : NodeId => ℕ
  entry : Option NodeId

/-- The error of a graph that cannot be ordered. -/
def cycleDetected : GpuError := .unrecoverable "NodeGraph: cycle detected"

/-- The error of an edge to a node that was never added. -/
def nodeMissing (id : NodeId) : GpuError :=
  .unrecoverable ("NodeGraph: node NodeId(" ++ toString id.id.toNat ++ ") missing")

variable {S : Type}

namespace NodeGraph

/-- An empty graph. -/
def new : NodeGraph S := ⟨∅, ∅, ∅, none⟩

/-- An entry of `in_degree`, zero where there is none.  It counts edges held in memory, so it does
not overflow. -/
def degree (g : NodeGraph S) (id : NodeId) : ℕ := (g.inDegree.lookup id).getD 0

/-- A node under `id`, which replaces one that is there. -/
def addNode (g : NodeGraph S) (id : NodeId) (node : GraphNode S) : NodeGraph S :=
  { g with
    nodes := g.nodes.insert id node
    inDegree := g.inDegree.insert id (g.degree id) }

/-- An edge, which counts for its target. -/
def addEdge (g : NodeGraph S) (source target : NodeId) : NodeGraph S :=
  { g with
    edges := g.edges.insert source (succs g.edges source ++ [target])
    inDegree := g.inDegree.insert target (g.degree target + 1) }

/-- `id` is where a run starts. -/
def setEntry (g : NodeGraph S) (id : NodeId) : NodeGraph S := { g with entry := some id }

/-- Kahn's algorithm; `keys` are the keys of `in_degree` in the order the hash map iterates. -/
def topoOrder (g : NodeGraph S) (keys : List NodeId) : Except GpuError (List NodeId) :=
  let q := keys.filter fun id => g.degree id = 0
  let order := loop g.edges g.degree ∅ [] q
  if order.length ≠ g.nodes.keys.length then .error cycleDetected else .ok order

/-- The nodes of the order one after the other: those that were run, and the reply. -/
def execute (g : NodeGraph S) (s : S) : List NodeId → List NodeId × Except GpuError S
  | [] => ([], .ok s)
  | id :: order =>
    match g.nodes.lookup id with
    | none => ([], .error (nodeMissing id))
    | some node =>
      match node s with
      | .error e => ([id], .error e)
      | .ok next =>
        let r := g.execute next order
        (id :: r.1, r.2)

/-- The handler of `Run`. -/
def run (g : NodeGraph S) (keys : List NodeId) (state : S) : List NodeId × Except GpuError S :=
  match g.topoOrder keys with
  | .error e => ([], .error e)
  | .ok order => g.execute state order

end NodeGraph

/-- A call that builds a graph. -/
inductive Call (S : Type)
  | addNode (id : NodeId) (node : GraphNode S)
  | addEdge (source target : NodeId)
  | setEntry (id : NodeId)

namespace NodeGraph

/-- One call of the builder. -/
def call (g : NodeGraph S) : Call S → NodeGraph S
  | .addNode id node => g.addNode id node
  | .addEdge source target => g.addEdge source target
  | .setEntry id => g.setEntry id

/-- The graph after some calls. -/
def build (calls : List (Call S)) : NodeGraph S := calls.foldl call new

/-! ### The graph that was built -/

variable (g : NodeGraph S)

/-- There is an edge from `u` to `v`. -/
abbrev Edge (u v : NodeId) : Prop := v ∈ succs g.edges u

/-- Every endpoint of an edge is registered. -/
def Closed : Prop := ∀ u v, g.Edge u v → u ∈ g.nodes ∧ v ∈ g.nodes

/-- No node is its own successor over some edges. -/
def Acyclic : Prop := ∀ v, ¬ TransGen (Kahn.Edge g.edges) v v

/-- A node with an in-degree all of whose predecessors are processed: no cycle and no source
without an in-degree leads to it. -/
abbrev Processed : NodeId → Prop := Kahn.Processed g.edges (· ∈ g.inDegree)

/-- The invariant of the building calls. -/
structure Built : Prop where
  degree_eq : ∀ v, g.degree v = indegree g.edges ∅ v
  mem_inDegree_iff : ∀ v, v ∈ g.inDegree ↔ v ∈ g.nodes ∨ ∃ u, g.Edge u v

variable {g}

theorem built_new : (new : NodeGraph S).Built where
  degree_eq := fun _ => rfl
  mem_inDegree_iff := by simp [new, Edge, succs]

theorem Built.addNode (h : g.Built) (id : NodeId) (node : GraphNode S) :
    (g.addNode id node).Built where
  degree_eq := by
    intro v
    show _ = indegree g.edges ∅ v
    rw [← h.degree_eq v]
    by_cases hv : v = id
    · subst hv
      simp [degree, NodeGraph.addNode]
    · simp [degree, NodeGraph.addNode, AList.lookup_insert_ne hv]
  mem_inDegree_iff := by
    intro v
    simp only [NodeGraph.addNode, AList.mem_insert, h.mem_inDegree_iff v, or_assoc]

theorem Built.addEdge (h : g.Built) (source target : NodeId) : (g.addEdge source target).Built where
  degree_eq := by
    intro v
    show _ = indegree (g.edges.insert source (succs g.edges source ++ [target])) ∅ v
    rw [indegree_push, ← h.degree_eq v]
    by_cases hv : v = target
    · subst hv
      simp [degree, NodeGraph.addEdge]
    · simp [degree, NodeGraph.addEdge, AList.lookup_insert_ne hv, hv]
  mem_inDegree_iff := by
    intro v
    simp only [NodeGraph.addEdge, Edge, AList.mem_insert, h.mem_inDegree_iff v, mem_succs_push]
    constructor
    · rintro (rfl | hnode | ⟨u, hu⟩)
      · exact .inr ⟨source, .inr ⟨rfl, rfl⟩⟩
      · exact .inl hnode
      · exact .inr ⟨u, .inl hu⟩
    · rintro (hnode | ⟨u, hu | ⟨-, rfl⟩⟩)
      · exact .inr (.inl hnode)
      · exact .inr (.inr ⟨u, hu⟩)
      · exact .inl rfl

theorem Built.call (h : g.Built) (c : Call S) : (g.call c).Built := by
  cases c with
  | addNode id node => exact h.addNode id node
  | addEdge source target => exact h.addEdge source target
  | setEntry id => exact ⟨h.degree_eq, h.mem_inDegree_iff⟩

theorem built_foldl (calls : List (Call S)) (h : g.Built) : (calls.foldl call g).Built := by
  induction calls generalizing g with
  | nil => exact h
  | cons c calls ih => exact ih (h.call c)

theorem built_build (calls : List (Call S)) : (build calls).Built := built_foldl calls built_new

/-! ### The order -/

variable {keys order : List NodeId}

/-- The order of a built graph before its length is looked at. -/
theorem Built.loop_spec (h : g.Built) (hkeys : keys.Perm g.inDegree.keys) :
    let order := loop g.edges g.degree ∅ [] (keys.filter fun id => g.degree id = 0)
    order.Nodup ∧ (∀ v, v ∈ order ↔ g.Processed v) ∧
      ∀ u v, g.Edge u v → v ∈ order → [u, v].Sublist order := by
  refine Kahn.loop_spec (fun u v hv => ?_) h.degree_eq fun v => ?_
  · exact (h.mem_inDegree_iff v).2 (.inr ⟨u, hv⟩)
  · simp [hkeys.mem_iff, ← AList.mem_keys]

theorem topoOrder_eq_ok_iff : g.topoOrder keys = .ok order ↔
    loop g.edges g.degree ∅ [] (keys.filter fun id => g.degree id = 0) = order ∧
      order.length = g.nodes.keys.length := by
  unfold topoOrder
  dsimp only
  split_ifs with hlen
  · simp only [false_iff, not_and]
    rintro rfl
    exact hlen
  · rw [Except.ok.injEq]
    constructor
    · rintro rfl
      exact ⟨rfl, not_not.1 hlen⟩
    · exact And.left

theorem ncard_mem_list {l : List NodeId} (h : l.Nodup) : {v | v ∈ l}.ncard = l.length := by
  have hset : {v | v ∈ l} = (l.toFinset : Set NodeId) := by
    ext v
    simp
  rw [hset, Set.ncard_coe_finset, List.toFinset_card_of_nodup h]

/-- The unregistered nodes put out are as many as the registered nodes not put out. -/
def Offset (g : NodeGraph S) : Prop :=
  ({v | g.Processed v} \ {v | v ∈ g.nodes}).ncard =
    ({v | v ∈ g.nodes} \ {v | g.Processed v}).ncard

/-- Only the two numbers decide whether there is an order, for any iteration order. -/
theorem Built.exists_ok_iff (h : g.Built) (hkeys : keys.Perm g.inDegree.keys) :
    (∃ order, g.topoOrder keys = .ok order) ↔ g.Offset := by
  obtain ⟨hnodup, hmem, -⟩ := h.loop_spec hkeys
  have hprocessed : {v | g.Processed v} =
      {v | v ∈ loop g.edges g.degree ∅ [] (keys.filter fun id => g.degree id = 0)} := by
    ext v
    exact (hmem v).symm
  have hregistered : {v | v ∈ g.nodes} = {v | v ∈ g.nodes.keys} := rfl
  rw [Offset, ← Set.ncard_eq_ncard_iff_ncard_sdiff_eq_ncard_sdiff
    (hprocessed ▸ List.finite_toSet _) (hregistered ▸ List.finite_toSet _), hprocessed,
    hregistered, ncard_mem_list hnodup, ncard_mem_list g.nodes.keys_nodup]
  simp only [topoOrder_eq_ok_iff, exists_eq_left']

/-- In a graph without dangling edges everything put out is registered. -/
theorem Built.mem_of_processed (h : g.Built) (hclosed : g.Closed) {v : NodeId}
    (hv : g.Processed v) : v ∈ g.nodes := by
  rcases (h.mem_inDegree_iff v).1 hv.base with hnode | ⟨u, hu⟩
  · exact hnode
  · exact (hclosed u v hu).2

/-- Without dangling edges there is an order exactly when there is no cycle. -/
theorem Built.offset_iff_acyclic (h : g.Built) (hclosed : g.Closed) : g.Offset ↔ g.Acyclic := by
  have hfin : {v | v ∈ g.nodes}.Finite := List.finite_toSet g.nodes.keys
  have hnone : {v | g.Processed v} \ {v | v ∈ g.nodes} = ∅ :=
    Set.sdiff_eq_empty.2 fun v hv => h.mem_of_processed hclosed hv
  rw [Offset, hnone, Set.ncard_empty, eq_comm, Set.ncard_eq_zero (hfin.subset Set.sdiff_subset),
    Set.sdiff_eq_empty]
  constructor
  · intro hall v hcycle
    obtain ⟨u, -, huv⟩ := TransGen.tail'_iff.1 hcycle
    exact (hall (hclosed u v huv).2 : g.Processed v).not_cyclic hcycle
  · intro hacyclic v hv
    have hkeys : {v | v ∈ g.inDegree}.Finite := List.finite_toSet g.inDegree.keys
    exact processed_of_acyclic hkeys
      (fun u w huw => (h.mem_inDegree_iff u).2 (.inl (hclosed u w huw).1)) hacyclic
      ((h.mem_inDegree_iff v).2 (.inl hv))

/-- An order of a graph without dangling edges lists the registered nodes, the source of every edge
before its target. -/
structure Topological (g : NodeGraph S) (order : List NodeId) : Prop where
  perm : order.Perm g.nodes.keys
  before : ∀ u v, g.Edge u v → [u, v].Sublist order

theorem Built.topological (h : g.Built) (hclosed : g.Closed) (hkeys : keys.Perm g.inDegree.keys)
    (hok : g.topoOrder keys = .ok order) : g.Topological order := by
  obtain ⟨hloop, hlen⟩ := topoOrder_eq_ok_iff.1 hok
  obtain ⟨hnodup, hmem, hbefore⟩ := h.loop_spec hkeys
  rw [hloop] at hnodup hmem hbefore
  have hsub : order ⊆ g.nodes.keys := fun v hv => h.mem_of_processed hclosed ((hmem v).1 hv)
  have hperm : order.Perm g.nodes.keys :=
    (hnodup.subperm hsub).perm_of_length_le hlen.ge
  exact ⟨hperm, fun u v huv => hbefore u v huv (hperm.mem_iff.2 (hclosed u v huv).2)⟩

/-! ### A run -/

/-- What a run over `order` may do: all of it, or up to a node that fails. -/
inductive Runs (g : NodeGraph S) (order : List NodeId) : List NodeId × Except GpuError S → Prop
  | all (s : S) : Runs g order (order, .ok s)
  | failed (done : List NodeId) {rest : List NodeId} {id : NodeId} {node : GraphNode S} {s : S}
      {e : GpuError} (horder : order = done ++ id :: rest) (hnode : g.nodes.lookup id = some node)
      (he : node s = .error e) : Runs g order (done ++ [id], .error e)

theorem Runs.cons {id : NodeId} {r : List NodeId × Except GpuError S} (h : g.Runs order r) :
    g.Runs (id :: order) (id :: r.1, r.2) := by
  cases h with
  | all s => exact .all s
  | failed done horder hnode he => exact .failed (id :: done) (congrArg (id :: ·) horder) hnode he

theorem runs_execute (hmem : ∀ v ∈ order, v ∈ g.nodes) (s : S) :
    g.Runs order (g.execute s order) := by
  induction order generalizing s with
  | nil => exact .all s
  | cons id order ih =>
    obtain ⟨hid, hrest⟩ := List.forall_mem_cons.1 hmem
    obtain ⟨node, hnode⟩ := Option.isSome_iff_exists.1 (AList.lookup_isSome.2 hid)
    unfold execute
    rw [hnode]
    dsimp only
    cases hs : node s with
    | error e => exact .failed [] rfl hnode hs
    | ok next => exact (ih hrest next).cons

/-- The order is exact: there is one just for the acyclic graphs without dangling edges, it is a
topological order of the registered nodes, and a run either executes the nodes of such an order,
each once and in turn, up to one that fails, or reports an error before any. -/
structure Exact (g : NodeGraph S) : Prop where
  ok_iff : ∀ keys : List NodeId, keys.Perm g.inDegree.keys →
    ((∃ order, g.topoOrder keys = .ok order) ↔ g.Closed ∧ g.Acyclic)
  topological : ∀ keys order : List NodeId, keys.Perm g.inDegree.keys →
    g.topoOrder keys = .ok order → g.Topological order
  run : ∀ (keys : List NodeId) (state : S), keys.Perm g.inDegree.keys →
    (∃ e, g.run keys state = ([], .error e)) ∨
      ∃ order, g.Topological order ∧ g.Runs order (g.run keys state)

/-- For a graph built by any calls, the order is exact if and only if no edge dangles, or the
unregistered nodes that are put out are not as many as the registered nodes that are not. -/
theorem exact_iff (calls : List (Call S)) :
    (build calls).Exact ↔ (build calls).Closed ∨
      ({v | (build calls).Processed v} \ {v | v ∈ (build calls).nodes}).ncard ≠
        ({v | v ∈ (build calls).nodes} \ {v | (build calls).Processed v}).ncard := by
  have hbuilt := built_build calls
  generalize build calls = g at hbuilt
  show g.Exact ↔ g.Closed ∨ ¬ g.Offset
  constructor
  · intro hexact
    by_cases hoffset : g.Offset
    · have hok := (hbuilt.exists_ok_iff (List.Perm.refl _)).2 hoffset
      exact .inl ((hexact.ok_iff _ (List.Perm.refl _)).1 hok).1
    · exact .inr hoffset
  · intro hcond
    -- an order is only found where no edge dangles
    have hclosed : ∀ keys order, keys.Perm g.inDegree.keys → g.topoOrder keys = .ok order →
        g.Closed := by
      intro keys order hkeys hok
      exact hcond.resolve_right (not_not.2 ((hbuilt.exists_ok_iff hkeys).1 ⟨order, hok⟩))
    refine ⟨fun keys hkeys => ?_, fun keys order hkeys hok => ?_, fun keys state hkeys => ?_⟩
    · constructor
      · rintro ⟨order, hok⟩
        have hg := hclosed keys order hkeys hok
        exact ⟨hg, (hbuilt.offset_iff_acyclic hg).1 ((hbuilt.exists_ok_iff hkeys).1 ⟨order, hok⟩)⟩
      · rintro ⟨hg, hacyclic⟩
        exact (hbuilt.exists_ok_iff hkeys).2 ((hbuilt.offset_iff_acyclic hg).2 hacyclic)
    · exact hbuilt.topological (hclosed keys order hkeys hok) hkeys hok
    · unfold run
      cases hok : g.topoOrder keys with
      | error e => exact .inl ⟨e, rfl⟩
      | ok order =>
        have htopological := hbuilt.topological (hclosed keys order hkeys hok) hkeys hok
        exact .inr ⟨order, htopological,
          runs_execute (fun v hv => htopological.perm.mem_iff.1 hv) state⟩

/-- Two nodes, a loop at the second and an edge from the first to a node never added: the node that
was never added stands in the order instead of the second. -/
def danglingCalls : List (Call ℕ) :=
  [.addNode ⟨1⟩ .ok, .addNode ⟨2⟩ .ok, .addEdge ⟨2⟩ ⟨2⟩, .addEdge ⟨1⟩ ⟨9⟩]

theorem loop_dangling : loop (build danglingCalls).edges (build danglingCalls).degree ∅ []
    [⟨1⟩] = [⟨1⟩, ⟨9⟩] := by
  have h1 : succs (build danglingCalls).edges ⟨1⟩ = [⟨9⟩] := by decide
  have h9 : succs (build danglingCalls).edges ⟨9⟩ = [] := by decide
  have hd : (build danglingCalls).degree ⟨9⟩ = 1 := by decide
  rw [loop, if_neg (by decide), h1]
  simp only [List.foldl_cons, List.foldl_nil, relax, hd, List.nil_append, if_true]
  rw [loop, if_neg (by decide), h9]
  simp only [List.foldl_nil, loop]
  rfl

theorem not_exact_dangling : ¬ (build danglingCalls).Exact := by
  intro h
  have hok : (build danglingCalls).topoOrder (build danglingCalls).inDegree.keys =
      .ok [⟨1⟩, ⟨9⟩] := by
    refine topoOrder_eq_ok_iff.2 ⟨?_, by decide⟩
    rw [show ((build danglingCalls).inDegree.keys.filter
      fun id => (build danglingCalls).degree id = 0) = [⟨1⟩] by decide]
    exact loop_dangling
  have hclosed := ((h.ok_iff _ (List.Perm.refl _)).1 ⟨_, hok⟩).1
  exact absurd (hclosed ⟨1⟩ ⟨9⟩ (by decide)).2 (by decide)

end NodeGraph

/-! ### The entry node -/

/-- The call with the identity for a node. -/
def Call.strip : Call S → Call S
  | .addNode id _ => .addNode id .ok
  | .addEdge source target => .addEdge source target
  | .setEntry id => .setEntry id

namespace NodeGraph

variable {g g' : NodeGraph S}

/-- The graphs differ at most in what their nodes compute. -/
structure SameWiring (g g' : NodeGraph S) : Prop where
  keys_eq : g.nodes.keys = g'.nodes.keys
  edges_eq : g.edges = g'.edges
  inDegree_eq : g.inDegree = g'.inDegree
  entry_eq : g.entry = g'.entry

theorem SameWiring.symm (h : g.SameWiring g') : g'.SameWiring g :=
  ⟨h.keys_eq.symm, h.edges_eq.symm, h.inDegree_eq.symm, h.entry_eq.symm⟩

theorem SameWiring.trans {g'' : NodeGraph S} (h : g.SameWiring g') (h' : g'.SameWiring g'') :
    g.SameWiring g'' :=
  ⟨h.keys_eq.trans h'.keys_eq, h.edges_eq.trans h'.edges_eq,
    h.inDegree_eq.trans h'.inDegree_eq, h.entry_eq.trans h'.entry_eq⟩

theorem SameWiring.call_strip (h : g.SameWiring g') (c : Call S) :
    (g.call c.strip).SameWiring (g'.call c) := by
  have hdegree : g.degree = g'.degree := by
    funext id
    simp only [degree, h.inDegree_eq]
  cases c with
  | addNode id node =>
    exact ⟨by simp only [Call.strip, call, addNode, AList.keys_insert, h.keys_eq], h.edges_eq,
      by simp only [Call.strip, call, addNode, h.inDegree_eq, hdegree], h.entry_eq⟩
  | addEdge source target =>
    exact ⟨h.keys_eq, by simp only [Call.strip, call, addEdge, h.edges_eq],
      by simp only [Call.strip, call, addEdge, h.inDegree_eq, hdegree], h.entry_eq⟩
  | setEntry id => exact ⟨h.keys_eq, h.edges_eq, h.inDegree_eq, rfl⟩

theorem sameWiring_foldl (calls : List (Call S)) (h : g.SameWiring g') :
    ((calls.map Call.strip).foldl call g).SameWiring (calls.foldl call g') := by
  induction calls generalizing g g' with
  | nil => exact h
  | cons c calls ih => exact ih (h.call_strip c)

theorem sameWiring_strip (calls : List (Call S)) :
    (build (calls.map Call.strip)).SameWiring (build calls) :=
  sameWiring_foldl calls ⟨rfl, rfl, rfl, rfl⟩

theorem sameWiring_of_strip_eq {calls calls' : List (Call S)}
    (h : calls'.map Call.strip = calls.map Call.strip) :
    (build calls').SameWiring (build calls) :=
  (sameWiring_strip calls').symm.trans (h ▸ sameWiring_strip calls)

/-- Every node of the graph returns its state. -/
def Idle (g : NodeGraph S) : Prop := ∀ id node, g.nodes.lookup id = some node → node = .ok

theorem Idle.call_strip (h : g.Idle) (c : Call S) : (g.call c.strip).Idle := by
  cases c with
  | addNode id node =>
    intro id' node' hnode
    by_cases hid : id' = id
    · subst hid
      exact (Option.some.inj ((AList.lookup_insert _).symm.trans hnode)).symm
    · exact h id' node' ((AList.lookup_insert_ne hid).symm.trans hnode)
  | addEdge source target => exact h
  | setEntry id => exact h

theorem idle_strip (calls : List (Call S)) : (build (calls.map Call.strip)).Idle := by
  have hfold : ∀ g : NodeGraph S, g.Idle → ((calls.map Call.strip).foldl call g).Idle := by
    induction calls with
    | nil => exact fun g h => h
    | cons c calls ih => exact fun g h => ih _ (h.call_strip c)
  exact hfold new fun id node hnode => nomatch hnode

/-- A run that succeeds has executed its whole order. -/
theorem run_eq_ok {keys ran : List NodeId} {s final : S} (hbuilt : g.Built) (hclosed : g.Closed)
    (hkeys : keys.Perm g.inDegree.keys) (h : g.run keys s = (ran, .ok final)) :
    g.topoOrder keys = .ok ran := by
  unfold run at h
  cases hok : g.topoOrder keys with
  | error e => simp [hok] at h
  | ok order =>
    simp only [hok] at h
    have htopological := hbuilt.topological hclosed hkeys hok
    have hruns := runs_execute (fun v hv => htopological.perm.mem_iff.1 hv) s
    rw [h] at hruns
    cases hruns with
    | all s => rfl

theorem run_of_idle {keys order : List NodeId} (hidle : g.Idle) (hbuilt : g.Built)
    (hclosed : g.Closed) (hkeys : keys.Perm g.inDegree.keys) (hok : g.topoOrder keys = .ok order)
    (s : S) : ∃ final, g.run keys s = (order, .ok final) := by
  have htopological := hbuilt.topological hclosed hkeys hok
  have hruns := runs_execute (fun v hv => htopological.perm.mem_iff.1 hv) s
  unfold run
  rw [hok]
  dsimp only
  generalize g.execute s order = r at hruns
  cases hruns with
  | all s => exact ⟨s, rfl⟩
  | @failed done rest id node s e horder hnode he =>
    rw [hidle id node hnode] at he
    cases he

/-- The first node of the iteration order that has no predecessor is put out first. -/
theorem head_of_topoOrder {keys order rest : List NodeId} {v : NodeId}
    (hok : g.topoOrder keys = .ok order)
    (hq : keys.filter (fun id => g.degree id = 0) = v :: rest) : ∃ tail, order = v :: tail := by
  obtain ⟨hloop, -⟩ := topoOrder_eq_ok_iff.1 hok
  rw [hq] at hloop
  obtain ⟨tail, htail⟩ : [v] <+: loop g.edges g.degree ∅ [] (v :: rest) :=
    loop_head g.degree v rest
  exact ⟨tail, by rw [← hloop, ← htail]; rfl⟩

theorem Built.degree_eq_zero_iff (h : g.Built) (v : NodeId) :
    g.degree v = 0 ↔ ∀ u, ¬ g.Edge u v := by
  rw [h.degree_eq, indegree_eq_zero_iff]
  simp

/-- With the entry the only registered node without a predecessor, an order starts with it. -/
theorem Built.entry_head {keys order : List NodeId} {e : NodeId} (h : g.Built)
    (hnode : e ∈ g.nodes) (hsource : ∀ u, ¬ g.Edge u e)
    (honly : ∀ v ∈ g.nodes, (∀ u, ¬ g.Edge u v) → v = e) (hkeys : keys.Perm g.inDegree.keys)
    (hok : g.topoOrder keys = .ok order) : ∃ tail, order = e :: tail := by
  have hmem : e ∈ keys.filter fun id => g.degree id = 0 := by
    simp only [List.mem_filter, decide_eq_true_eq]
    exact ⟨hkeys.mem_iff.2 ((h.mem_inDegree_iff e).2 (.inl hnode)),
      (h.degree_eq_zero_iff e).2 hsource⟩
  cases hq : keys.filter (fun id => g.degree id = 0) with
  | nil => simp [hq] at hmem
  | cons v rest =>
    have hv : v ∈ keys.filter fun id => g.degree id = 0 := by simp [hq]
    simp only [List.mem_filter, decide_eq_true_eq] at hv
    have hfree := (h.degree_eq_zero_iff v).1 hv.2
    have hregistered : v ∈ g.nodes :=
      ((h.mem_inDegree_iff v).1 (hkeys.mem_iff.1 hv.1)).resolve_right fun hpred =>
        hpred.elim hfree
    obtain rfl := honly v hregistered hfree
    exact head_of_topoOrder hok hq

theorem Built.entry_before {keys ran : List NodeId} {e v : NodeId} {s final : S} (h : g.Built)
    (hclosed : g.Closed) (hnode : e ∈ g.nodes) (hsource : ∀ u, ¬ g.Edge u e)
    (honly : ∀ v ∈ g.nodes, (∀ u, ¬ g.Edge u v) → v = e) (hkeys : keys.Perm g.inDegree.keys)
    (hrun : g.run keys s = (ran, .ok final)) (hv : v ∈ g.nodes) (hne : v ≠ e) :
    [e, v].Sublist ran := by
  have hok := run_eq_ok h hclosed hkeys hrun
  have htopological := h.topological hclosed hkeys hok
  obtain ⟨tail, rfl⟩ := h.entry_head hnode hsource honly hkeys hok
  have hmem : v ∈ e :: tail := htopological.perm.mem_iff.2 hv
  exact (List.singleton_sublist.2 (List.mem_of_ne_of_mem hne hmem)).cons_cons e

/-- Another node without a predecessor may be iterated, and then run, before the entry. -/
theorem Built.entry_overtaken {e v : NodeId} (h : g.Built) (hidle : g.Idle) (hclosed : g.Closed)
    (hacyclic : g.Acyclic) (hv : v ∈ g.nodes) (hfree : ∀ u, ¬ g.Edge u v) (hne : v ≠ e) (s : S) :
    ∃ keys ran final, keys.Perm g.inDegree.keys ∧ g.run keys s = (ran, .ok final) ∧
      ¬ [e, v].Sublist ran := by
  have hkey : v ∈ g.inDegree.keys := (h.mem_inDegree_iff v).2 (.inl hv)
  have hkeys : (v :: g.inDegree.keys.erase v).Perm g.inDegree.keys :=
    (List.perm_cons_erase hkey).symm
  obtain ⟨order, hok⟩ := (h.exists_ok_iff hkeys).2 ((h.offset_iff_acyclic hclosed).2 hacyclic)
  obtain ⟨final, hrun⟩ := run_of_idle hidle h hclosed hkeys hok s
  have hq : (v :: g.inDegree.keys.erase v).filter (fun id => g.degree id = 0) =
      v :: (g.inDegree.keys.erase v).filter fun id => g.degree id = 0 :=
    List.filter_cons_of_pos (by simpa using (h.degree_eq_zero_iff v).2 hfree)
  obtain ⟨tail, rfl⟩ := head_of_topoOrder hok hq
  refine ⟨_, _, final, hkeys, hrun, fun hsub => ?_⟩
  have hnodup : (v :: tail).Nodup :=
    (h.topological hclosed hkeys hok).perm.nodup_iff.2 g.nodes.keys_nodup
  have htail : [e, v].Sublist tail := by
    cases hsub with
    | cons _ htail => exact htail
    | cons_cons _ _ => exact absurd rfl hne
  exact (List.nodup_cons.1 hnodup).1 (htail.subset (by simp))

theorem SameWiring.mem_iff (h : g.SameWiring g') (v : NodeId) : v ∈ g.nodes ↔ v ∈ g'.nodes := by
  rw [AList.mem_keys, AList.mem_keys, h.keys_eq]

theorem SameWiring.edge_iff (h : g.SameWiring g') (u v : NodeId) : g.Edge u v ↔ g'.Edge u v := by
  rw [Edge, Edge, h.edges_eq]

theorem SameWiring.closed (h : g.SameWiring g') (hclosed : g'.Closed) : g.Closed := by
  intro u v huv
  rw [h.mem_iff, h.mem_iff]
  exact hclosed u v ((h.edge_iff u v).1 huv)

theorem SameWiring.acyclic (h : g.SameWiring g') (hacyclic : g'.Acyclic) : g.Acyclic := by
  intro v hcycle
  rw [h.edges_eq] at hcycle
  exact hacyclic v hcycle

theorem strip_strip (c : Call S) : c.strip.strip = c.strip := by
  cases c <;> rfl

/-- For an acyclic graph without dangling edges and a registered entry without predecessors: over
all node computations, iteration orders and states, every successful run executes the entry before
every other node, if and only if no other registered node is without predecessors. -/
theorem entry_first_iff [Nonempty S] (calls : List (Call S)) (e : NodeId)
    (hacyclic : (build calls).Acyclic) (hclosed : (build calls).Closed)
    (_hentry : (build calls).entry = some e) (hnode : e ∈ (build calls).nodes)
    (hsource : ∀ u, ¬ (build calls).Edge u e) :
    (∀ calls', calls'.map Call.strip = calls.map Call.strip →
      ∀ keys s ran final, keys.Perm (build calls').inDegree.keys →
        (build calls').run keys s = (ran, .ok final) →
        ∀ v ∈ (build calls').nodes, v ≠ e → [e, v].Sublist ran) ↔
    ∀ v ∈ (build calls).nodes, (∀ u, ¬ (build calls).Edge u v) → v = e := by
  constructor
  · intro hfirst v hv hfree
    by_contra hne
    obtain ⟨state⟩ := ‹Nonempty S›
    have hsame := sameWiring_strip calls
    obtain ⟨keys, ran, final, hkeys, hrun, hlate⟩ :=
      (built_build (calls.map Call.strip)).entry_overtaken (e := e) (idle_strip calls)
        (hsame.closed hclosed) (hsame.acyclic hacyclic) ((hsame.mem_iff v).2 hv)
        (fun u huv => hfree u ((hsame.edge_iff u v).1 huv)) hne state
    exact hlate (hfirst _ (by simp [Function.comp_def, strip_strip]) keys state ran final hkeys
      hrun v ((hsame.mem_iff v).2 hv) hne)
  · intro honly calls' hshape keys s ran final hkeys hrun v hv hne
    have hsame := sameWiring_of_strip_eq hshape
    exact (built_build calls').entry_before (hsame.closed hclosed) ((hsame.mem_iff e).2 hnode)
      (fun u hue => hsource u ((hsame.edge_iff u e).1 hue))
      (fun w hw hfree => honly w ((hsame.mem_iff w).1 hw)
        fun u huw => hfree u ((hsame.edge_iff u w).2 huw)) hkeys hrun hv hne

/-- A chain of two nodes, entered at its head. -/
def chainCalls : List (Call ℕ) :=
  [.addNode ⟨1⟩ .ok, .addNode ⟨2⟩ .ok, .addEdge ⟨1⟩ ⟨2⟩, .setEntry ⟨1⟩]

theorem edge_chain_iff (u v : NodeId) : (build chainCalls).Edge u v ↔ u = ⟨1⟩ ∧ v = ⟨2⟩ :=
  (mem_succs_push (n := (⟨1⟩ : NodeId)) (m := ⟨2⟩)).trans (or_iff_right List.not_mem_nil)

theorem entry_first_chain :
    (∀ calls', calls'.map Call.strip = chainCalls.map Call.strip →
      ∀ keys s ran final, keys.Perm (build calls').inDegree.keys →
        (build calls').run keys s = (ran, .ok final) →
        ∀ v ∈ (build calls').nodes, v ≠ ⟨1⟩ → [⟨1⟩, v].Sublist ran) ↔
    ∀ v ∈ (build chainCalls).nodes, (∀ u, ¬ (build chainCalls).Edge u v) → v = ⟨1⟩ := by
  refine entry_first_iff chainCalls ⟨1⟩ ?_ ?_ rfl (by decide) ?_
  · intro v hcycle
    obtain ⟨w, hvw, -⟩ := TransGen.head'_iff.1 hcycle
    obtain ⟨u, -, huv⟩ := TransGen.tail'_iff.1 hcycle
    have hhead := ((edge_chain_iff v w).1 hvw).1
    have htail := ((edge_chain_iff u v).1 huv).2
    exact absurd (hhead.symm.trans htail) (by decide)
  · intro u v huv
    obtain ⟨rfl, rfl⟩ := (edge_chain_iff u v).1 huv
    decide
  · intro u hu
    exact absurd ((edge_chain_iff u ⟨1⟩).1 hu).2 (by decide)

/-- Two nodes without edges: the hash map may put the second before the entry. -/
def pairCalls : List (Call ℕ) := [.addNode ⟨1⟩ .ok, .addNode ⟨2⟩ .ok, .setEntry ⟨1⟩]

theorem succs_pair (u : NodeId) : succs (build pairCalls).edges u = [] := rfl

theorem run_pair : (build pairCalls).run [⟨2⟩, ⟨1⟩] 0 = ([⟨2⟩, ⟨1⟩], .ok 0) := by
  have hok : (build pairCalls).topoOrder [⟨2⟩, ⟨1⟩] = .ok [⟨2⟩, ⟨1⟩] := by
    refine topoOrder_eq_ok_iff.2 ⟨?_, by decide⟩
    rw [show (([⟨2⟩, ⟨1⟩] : List NodeId).filter fun id => (build pairCalls).degree id = 0) =
      [⟨2⟩, ⟨1⟩] by decide]
    rw [loop, if_neg (by decide), succs_pair, List.foldl_nil]
    rw [loop, if_neg (by decide), succs_pair, List.foldl_nil, loop]
    rfl
  unfold run
  rw [hok]
  rfl

theorem entry_not_first : (build pairCalls).Acyclic ∧ (build pairCalls).Closed ∧
    (build pairCalls).entry = some ⟨1⟩ ∧ (⟨1⟩ : NodeId) ∈ (build pairCalls).nodes ∧
    (∀ u, ¬ (build pairCalls).Edge u ⟨1⟩) ∧
    ¬ ∀ keys s ran final, keys.Perm (build pairCalls).inDegree.keys →
        (build pairCalls).run keys s = (ran, .ok final) →
        ∀ v ∈ (build pairCalls).nodes, v ≠ ⟨1⟩ → [⟨1⟩, v].Sublist ran := by
  have hnone : ∀ u v, ¬ (build pairCalls).Edge u v := by
    intro u v huv
    rw [Edge, succs_pair] at huv
    cases huv
  refine ⟨?_, fun u v huv => absurd huv (hnone u v), rfl, by decide, fun u => hnone u _, ?_⟩
  · intro v hcycle
    obtain ⟨w, hvw, -⟩ := TransGen.head'_iff.1 hcycle
    exact hnone v w hvw
  · intro hfirst
    exact absurd (hfirst _ _ _ _ (by decide) run_pair ⟨2⟩ (by decide) (by decide)) (by decide)

end NodeGraph

end LangGraph

end AtomrAccel
