import Mathlib.Data.Finset.BooleanAlgebra
import Mathlib.Data.Fintype.Card
import Mathlib.Logic.Relation
import Mathlib.Tactic

/-!
# Connected components by depth-first search

The neighbours of a node are a list; they are put on a stack as long as they are not marked, so a
node can stand on the stack more than once and a node taken from it may be marked already.

* `search`: the loop over the stack, which ends because the marks grow or the stack shrinks;
* `components`: one search from each node that is not marked yet;
* `Inv`, `search_spec`: what an iteration preserves and the set a search ends with;
* `IsComponents`, `components_spec`: a list of sets is that of the connected components, and for
  symmetric neighbours that is what the algorithm computes.
-/

namespace Components

open Relation

variable {α : Type*} [DecidableEq α]

section Search

variable (next : α → List α)

/-- The loop over a stack whose top is its head; `set` collects the nodes marked in this search. -/
def search [Fintype α] (visited set : Finset α) : List α → Finset α × Finset α
  | [] => (visited, set)
  | j :: stack =>
    if j ∈ visited then search visited set stack
    else
      search (insert j visited) (insert j set)
        (((next j).filter (· ∉ insert j visited)).reverse ++ stack)
  termination_by stack => (visitedᶜ.card, stack.length)
  decreasing_by
    · exact .right _ (Nat.lt_succ_self _)
    · rename_i hj
      refine .left _ _ (Finset.card_lt_card ?_)
      exact Finset.compl_ssubset_compl.2 (Finset.ssubset_insert hj)

/-- One search for each node of the list that is not marked when its turn comes. -/
def components [Fintype α] (visited : Finset α) : List α → List (Finset α)
  | [] => []
  | i :: rest =>
    if i ∈ visited then components visited rest
    else
      let r := search next visited ∅ [i]
      r.2 :: components r.1 rest

/-- There is an edge from `j` to `k`. -/
def Adj (j k : α) : Prop := k ∈ next j

end Search

/-- `out` lists the connected components of a relation. -/
structure IsComponents (adj : α → α → Prop) (out : List (Finset α)) : Prop where
  nonempty : ∀ s ∈ out, s.Nonempty
  disjoint : out.Pairwise Disjoint
  cover : ∀ k, ∃ s ∈ out, k ∈ s
  connected : ∀ j k, (∃ s ∈ out, j ∈ s ∧ k ∈ s) ↔ ReflTransGen adj j k

/-- During the search from `i`, when `marked` was marked before it. -/
structure Inv (next : α → List α) (marked : Finset α) (i : α) (visited set : Finset α)
    (stack : List α) : Prop where
  visited_eq : visited = marked ∪ set
  disjoint : Disjoint marked set
  reached : ∀ k ∈ set, ReflTransGen (Adj next) i k
  stacked : ∀ k ∈ stack, ReflTransGen (Adj next) i k
  pending : ∀ j ∈ set, ∀ k ∈ next j, k ∈ visited ∨ k ∈ stack
  start : i ∈ visited ∨ i ∈ stack

section Correct

variable {next : α → List α} {marked visited set : Finset α} {stack : List α} {i j : α}

theorem inv_start (next : α → List α) (marked : Finset α) (i : α) :
    Inv next marked i marked ∅ [i] where
  visited_eq := (Finset.union_empty _).symm
  disjoint := Finset.disjoint_empty_right _
  reached := by simp
  stacked k hk := List.mem_singleton.1 hk ▸ .refl
  pending := by simp
  start := .inr List.mem_cons_self

/-- A node marked already is taken from the stack. -/
theorem Inv.skip (h : Inv next marked i visited set (j :: stack)) (hj : j ∈ visited) :
    Inv next marked i visited set stack where
  visited_eq := h.visited_eq
  disjoint := h.disjoint
  reached := h.reached
  stacked k hk := h.stacked k (List.mem_cons_of_mem _ hk)
  pending a ha k hk := by
    obtain hvisited | hstack := h.pending a ha k hk
    · exact .inl hvisited
    · obtain rfl | hmem := List.mem_cons.1 hstack
      · exact .inl hj
      · exact .inr hmem
  start := by
    obtain hvisited | hstack := h.start
    · exact .inl hvisited
    · obtain rfl | hmem := List.mem_cons.1 hstack
      · exact .inl hj
      · exact .inr hmem

/-- A node is marked and its neighbours go on the stack. -/
theorem Inv.visit (h : Inv next marked i visited set (j :: stack)) (hj : j ∉ visited) :
    Inv next marked i (insert j visited) (insert j set)
      (((next j).filter (· ∉ insert j visited)).reverse ++ stack) where
  visited_eq := by rw [h.visited_eq, Finset.union_insert]
  disjoint := by
    rw [Finset.disjoint_insert_right]
    refine ⟨fun hmarked => hj ?_, h.disjoint⟩
    rw [h.visited_eq]
    exact Finset.mem_union_left _ hmarked
  reached k hk := by
    obtain rfl | hold := Finset.mem_insert.1 hk
    · exact h.stacked _ List.mem_cons_self
    · exact h.reached k hold
  stacked k hk := by
    obtain hnew | hold := List.mem_append.1 hk
    · have hadj : Adj next j k := (List.mem_filter.1 (List.mem_reverse.1 hnew)).1
      exact (h.stacked j List.mem_cons_self).tail hadj
    · exact h.stacked k (List.mem_cons_of_mem _ hold)
  pending a ha k hk := by
    by_cases hmarked : k ∈ insert j visited
    · exact .inl hmarked
    · refine .inr (List.mem_append.2 ?_)
      obtain rfl | hold := Finset.mem_insert.1 ha
      · left
        rw [List.mem_reverse, List.mem_filter]
        exact ⟨hk, by simpa using hmarked⟩
      · obtain hvisited | hstack := h.pending a hold k hk
        · exact absurd (Finset.mem_insert_of_mem hvisited) hmarked
        · obtain rfl | hmem := List.mem_cons.1 hstack
          · exact absurd (Finset.mem_insert_self _ _) hmarked
          · exact .inr hmem
  start := by
    obtain hvisited | hstack := h.start
    · exact .inl (Finset.mem_insert_of_mem hvisited)
    · obtain rfl | hmem := List.mem_cons.1 hstack
      · exact .inl (Finset.mem_insert_self _ _)
      · exact .inr (List.mem_append_right _ hmem)

theorem inv_search [Fintype α] (h : Inv next marked i visited set stack) :
    Inv next marked i (search next visited set stack).1 (search next visited set stack).2 [] := by
  fun_induction search next visited set stack with
  | case1 => exact h
  | case2 _ _ _ _ hj ih => exact ih (h.skip hj)
  | case3 _ _ _ _ hj ih => exact ih (h.visit hj)

/-- Marks that no edge leaves. -/
def Closed (next : α → List α) (marked : Finset α) : Prop := ∀ j ∈ marked, ∀ k ∈ next j, k ∈ marked

omit [DecidableEq α] in
theorem Closed.of_reach (h : Closed next marked) {k : α} (hr : ReflTransGen (Adj next) j k)
    (hj : j ∈ marked) : k ∈ marked := by
  induction hr with
  | refl => exact hj
  | tail _ hadj ih => exact h _ ih _ hadj

variable [Fintype α] (hsymm : ∀ j k, k ∈ next j → j ∈ next k)

include hsymm

/-- A search marks, besides what was marked, the nodes reachable from its start. -/
theorem search_spec (hclosed : Closed next marked) (hi : i ∉ marked) :
    (∀ k, k ∈ (search next marked ∅ [i]).2 ↔ ReflTransGen (Adj next) i k) ∧
      (search next marked ∅ [i]).1 = marked ∪ (search next marked ∅ [i]).2 ∧
      Disjoint marked (search next marked ∅ [i]).2 ∧
      Closed next (search next marked ∅ [i]).1 := by
  have h := inv_search (inv_start next marked i)
  generalize search next marked ∅ [i] = r at h ⊢
  -- an edge out of the set cannot lead to what was marked before
  have hset : ∀ j ∈ r.2, ∀ k ∈ next j, k ∈ r.2 := by
    intro j hj k hk
    obtain hvisited | hstack := h.pending j hj k hk
    · rw [h.visited_eq] at hvisited
      obtain hmarked | hset := Finset.mem_union.1 hvisited
      · have hback : j ∈ marked := hclosed k hmarked j (hsymm j k hk)
        exact absurd hj (Finset.disjoint_left.1 h.disjoint hback)
      · exact hset
    · cases hstack
  have hstart : i ∈ r.2 := by
    obtain hvisited | hstack := h.start
    · rw [h.visited_eq] at hvisited
      exact (Finset.mem_union.1 hvisited).resolve_left hi
    · cases hstack
  refine ⟨fun k => ⟨h.reached k, fun hr => ?_⟩, h.visited_eq, h.disjoint, ?_⟩
  · exact Closed.of_reach hset hr hstart
  · intro j hj k hk
    rw [h.visited_eq] at hj ⊢
    obtain hmarked | hmem := Finset.mem_union.1 hj
    · exact Finset.mem_union_left _ (hclosed j hmarked k hk)
    · exact Finset.mem_union_right _ (hset j hmem k hk)

/-- The sets found for the nodes of a list, when `marked` was marked before. -/
theorem components_inv (hclosed : Closed next marked) (l : List α) :
    (∀ s ∈ components next marked l, ∃ i, i ∉ marked ∧
      ∀ k, k ∈ s ↔ ReflTransGen (Adj next) i k) ∧
      (components next marked l).Pairwise Disjoint ∧
      (∀ s ∈ components next marked l, Disjoint marked s) ∧
      ∀ k ∈ l, k ∈ marked ∨ ∃ s ∈ components next marked l, k ∈ s := by
  induction l generalizing marked with
  | nil => simp [components]
  | cons i rest ih =>
    unfold components
    by_cases hi : i ∈ marked
    · rw [if_pos hi]
      obtain ⟨hreach, hpair, hdisj, hcover⟩ := ih hclosed
      refine ⟨hreach, hpair, hdisj, fun k hk => ?_⟩
      obtain rfl | hrest := List.mem_cons.1 hk
      · exact .inl hi
      · exact hcover k hrest
    · rw [if_neg hi]
      obtain ⟨hset, hvisited, hnew, hclosed'⟩ := search_spec hsymm hclosed hi
      obtain ⟨hreach, hpair, hdisj, hcover⟩ := ih hclosed'
      have hapart : ∀ s ∈ components next (search next marked ∅ [i]).1 rest,
          Disjoint marked s ∧ Disjoint (search next marked ∅ [i]).2 s := by
        intro s hs
        have hboth := hdisj s hs
        rwa [hvisited, Finset.disjoint_union_left] at hboth
      refine ⟨?_, ?_, ?_, ?_⟩
      · intro s hs
        obtain rfl | hrest := List.mem_cons.1 hs
        · exact ⟨i, hi, hset⟩
        · obtain ⟨a, ha, hs⟩ := hreach s hrest
          rw [hvisited] at ha
          exact ⟨a, fun hmarked => ha (Finset.mem_union_left _ hmarked), hs⟩
      · refine List.pairwise_cons.2 ⟨fun s hs => ?_, hpair⟩
        exact (hapart s hs).2
      · intro s hs
        obtain rfl | hrest := List.mem_cons.1 hs
        · exact hnew
        · exact (hapart s hrest).1
      · intro k hk
        obtain rfl | hrest := List.mem_cons.1 hk
        · exact .inr ⟨_, List.mem_cons_self, (hset k).2 .refl⟩
        · obtain hmarked | ⟨s, hs, hmem⟩ := hcover k hrest
          · rw [hvisited] at hmarked
            obtain hold | hin := Finset.mem_union.1 hmarked
            · exact .inl hold
            · exact .inr ⟨_, List.mem_cons_self, hin⟩
          · exact .inr ⟨s, List.mem_cons_of_mem _ hs, hmem⟩

/-- The searches find the connected components. -/
theorem components_spec {nodes : List α} (hnodes : ∀ k, k ∈ nodes) :
    IsComponents (Adj next) (components next ∅ nodes) := by
  have hclosed : Closed next ∅ := fun j hj => absurd hj (Finset.notMem_empty j)
  obtain ⟨hreach, hpair, -, hcover⟩ := components_inv hsymm hclosed nodes
  have hflip : Std.Symm (Adj next) := ⟨fun j k => hsymm j k⟩
  have hfind : ∀ k, ∃ s ∈ components next ∅ nodes, k ∈ s := by
    intro k
    obtain hempty | hs := hcover k (hnodes k)
    · exact absurd hempty (Finset.notMem_empty k)
    · exact hs
  refine ⟨fun s hs => ?_, hpair, hfind, fun j k => ⟨?_, fun hjk => ?_⟩⟩
  · obtain ⟨i, -, hi⟩ := hreach s hs
    exact ⟨i, (hi i).2 .refl⟩
  · rintro ⟨s, hs, hj, hk⟩
    obtain ⟨i, -, hi⟩ := hreach s hs
    exact (ReflTransGen.stdSymm.symm _ _ ((hi j).1 hj)).trans ((hi k).1 hk)
  · obtain ⟨s, hs, hj⟩ := hfind j
    obtain ⟨i, -, hi⟩ := hreach s hs
    exact ⟨s, hs, hj, (hi k).2 (((hi j).1 hj).trans hjk)⟩

end Correct

end Components
