import AtomrAccel.Lib.Components

/-!
# `P2pGraph` and its islands

The graph of a fleet is a square matrix of directed peer-access edges.  An island is found by a
search over a stack, which follows the edges in either direction.

* `P2pGraph`, `P2pGraph.edge`: the matrix, with its shape;
* `P2pGraph.islands`: the search from each device in turn;
* `islands_isComponents`: the islands are the connected components.
-/

namespace AtomrAccel

namespace P2p

/-- Which devices reach which, as a square matrix. -/
structure P2pGraph where
  edges : List (List Bool)
  deviceCount : UInt32
  rows : edges.length = deviceCount.toNat
  columns : ∀ row ∈ edges, row.length = deviceCount.toNat

namespace P2pGraph

variable (g : P2pGraph)

/-- The devices, by their indices; as the count is a `u32`, none is cut by `j as u32`. -/
abbrev Device : Type := Fin g.deviceCount.toNat

/-- `edges[j][k]`, which the shape keeps in bounds. -/
def edge (j k : g.Device) : Bool :=
  have hj : j.val < g.edges.length := by
    rw [g.rows]
    exact j.isLt
  have hk : k.val < g.edges[j.val].length := by
    rw [g.columns _ (List.getElem_mem hj)]
    exact k.isLt
  g.edges[j.val][k.val]

/-- The devices that share an edge with `j`, in the order of the inner loop. -/
def neighbours (j : g.Device) : List g.Device :=
  (List.finRange _).filter fun k => g.edge j k || g.edge k j

/-- The vector of islands. -/
def islands : List (Finset g.Device) :=
  Components.components g.neighbours ∅ (List.finRange _)

/-- An edge in either direction. -/
def Linked (j k : g.Device) : Prop := g.edge j k = true ∨ g.edge k j = true

theorem mem_neighbours {j k : g.Device} : k ∈ g.neighbours j ↔ g.Linked j k := by
  simp [neighbours, Linked]

end P2pGraph

/-- The islands are non-empty and pairwise disjoint, they cover the devices, and two devices are in
one island exactly when a path of edges, taken in either direction, connects them. -/
theorem islands_isComponents (g : P2pGraph) : Components.IsComponents g.Linked g.islands := by
  have hadj : Components.Adj g.neighbours = g.Linked := by
    funext j k
    exact propext g.mem_neighbours
  rw [← hadj]
  refine Components.components_spec (fun j k hk => ?_) List.mem_finRange
  rw [P2pGraph.mem_neighbours] at hk ⊢
  exact hk.symm

end P2p

end AtomrAccel
