import Mathlib.Data.List.AList
import AtomrAccel.Lib.Probing

/-!
# Probed tables against bounded maps

A bounded map takes pairs until one has no room, and then takes no more.  A probed table goes on, so
the two differ where a pair that has no room is followed by one whose key is there.

* `fill`: the pairs a bounded map takes;
* `Settled`: once a key has no room, no later key is there;
* `Represents`: a well-placed table that stores what the map does;
* `Represents.search_eq_none_iff`: a key finds no slot exactly when the map has no room for it;
* `Represents.insertAll_iff`: the table takes as many pairs as the map exactly when the keys are
  settled, and then goes on representing it.
-/

namespace BoundedMap

variable {K V : Type*} [DecidableEq K]

/-- The map after the pairs that are taken, and how many these are. -/
def fill (cap : ℕ) : (AList fun _ : K => V) → List (K × V) → (AList fun _ : K => V) × ℕ
  | m, [] => (m, 0)
  | m, (k, v) :: ps =>
    if cap ≤ m.keys.length ∧ k ∉ m then (m, 0)
    else
      let (m', n) := fill cap (m.insert k v) ps
      (m', n + 1)

/-- After the first key that meets a full map it is not in, no key of the map follows. -/
def Settled (cap : ℕ) (stored : Finset K) (ks : List K) : Prop :=
  ∀ pre k post, ks = pre ++ k :: post →
    (stored ∪ pre.toFinset).card = cap → k ∉ stored ∪ pre.toFinset →
      ∀ k' ∈ post, k' ∉ stored ∪ pre.toFinset

variable {cap : ℕ} {stored : Finset K} {k : K} {v : V} {ks : List K} {ps : List (K × V)}
  {m : AList fun _ : K => V}

theorem fill_cons_of_full (h : cap ≤ m.keys.length ∧ k ∉ m) :
    fill cap m ((k, v) :: ps) = (m, 0) := by
  rw [fill, if_pos h]

theorem fill_cons_of_room (h : ¬ (cap ≤ m.keys.length ∧ k ∉ m)) :
    fill cap m ((k, v) :: ps) =
      ((fill cap (m.insert k v) ps).1, (fill cap (m.insert k v) ps).2 + 1) := by
  rw [fill, if_neg h]

theorem fill_le : (fill cap m ps).2 ≤ ps.length := by
  induction ps generalizing m with
  | nil => exact le_rfl
  | cons p ps ih =>
    obtain ⟨k, v⟩ := p
    by_cases hroom : cap ≤ m.keys.length ∧ k ∉ m
    · rw [fill_cons_of_full hroom]
      exact Nat.zero_le _
    · rw [fill_cons_of_room hroom]
      exact Nat.succ_le_succ ih

theorem settled_nil : Settled cap stored [] := by
  intro pre k post h
  cases pre <;> cases h

theorem settled_cons : Settled cap stored (k :: ks) ↔
    (stored.card = cap → k ∉ stored → ∀ k' ∈ ks, k' ∉ stored) ∧
      Settled cap (insert k stored) ks := by
  have hunion : ∀ pre : List K,
      stored ∪ (k :: pre).toFinset = insert k stored ∪ pre.toFinset := fun pre => by
    rw [List.toFinset_cons, Finset.union_insert, Finset.insert_union]
  constructor
  · intro h
    refine ⟨?_, fun pre k' post hks => ?_⟩
    · have hfirst := h [] k ks rfl
      rwa [List.toFinset_nil, Finset.union_empty] at hfirst
    · rw [← hunion]
      exact h (k :: pre) k' post (by rw [hks, List.cons_append])
  · rintro ⟨hfirst, hrest⟩ pre k' post hks
    cases pre with
    | nil =>
      rw [List.nil_append, List.cons.injEq] at hks
      obtain ⟨rfl, rfl⟩ := hks
      rw [List.toFinset_nil, Finset.union_empty]
      exact hfirst
    | cons x pre =>
      rw [List.cons_append, List.cons.injEq] at hks
      obtain ⟨rfl, hks⟩ := hks
      rw [hunion]
      exact hrest pre k' post hks

theorem settled_of_lt_card (h : cap < stored.card) : Settled cap stored ks := by
  intro pre k post _ hcard
  have hle : stored.card ≤ (stored ∪ pre.toFinset).card :=
    Finset.card_le_card Finset.subset_union_left
  omega

/-- Where the map is full, no later key may be one of its own. -/
theorem settled_cons_of_full (hcard : stored.card = cap) (hk : k ∉ stored) :
    Settled cap stored (k :: ks) ↔ ∀ k' ∈ ks, k' ∉ stored := by
  have hlater : Settled cap (insert k stored) ks := by
    refine settled_of_lt_card ?_
    rw [Finset.card_insert_of_notMem hk]
    omega
  rw [settled_cons]
  exact ⟨fun h => h.1 hcard hk, fun h => ⟨fun _ _ => h, hlater⟩⟩

theorem settled_cons_of_room (h : stored.card = cap → k ∈ stored) :
    Settled cap stored (k :: ks) ↔ Settled cap (insert k stored) ks := by
  rw [settled_cons]
  exact and_iff_right fun hcard hk => absurd (h hcard) hk

/-! ### Tables that represent maps -/

open Probing

/-- The table holds the entries of the map, each where a search from its home finds it. -/
structure Represents (cap : ℕ) (home : K → ℕ) (t : Table K V) (m : AList fun _ : K => V) :
    Prop where
  placed : WellPlaced cap home t
  stored_iff : ∀ k v, Stored t k v ↔ m.lookup k = some v

namespace Represents

variable {home : K → ℕ} {t : Table K V} {s : ℕ}

theorem mem_iff (h : Represents cap home t m) : k ∈ m ↔ ∃ v, Stored t k v := by
  rw [← AList.lookup_isSome, Option.isSome_iff_exists]
  exact exists_congr fun v => (h.stored_iff k v).symm

theorem lookup_eq (h : Represents cap home t m) :
    Probing.lookup t k (path cap (home k)) = m.lookup k := by
  refine Option.ext fun v => ?_
  exact h.placed.lookup_eq_some_iff.trans (h.stored_iff k v)

theorem keys_perm (h : Represents cap home t m) :
    List.Perm ((occupied cap t).map Prod.fst) m.keys := by
  rw [List.perm_ext_iff_of_nodup h.placed.nodup_occupied m.keys_nodup]
  intro k
  rw [AList.mem_keys.symm, h.mem_iff, List.mem_map]
  constructor
  · rintro ⟨⟨k, v⟩, he, rfl⟩
    exact ⟨v, h.placed.mem_occupied.1 he⟩
  · rintro ⟨v, hv⟩
    exact ⟨(k, v), h.placed.mem_occupied.2 hv, rfl⟩

theorem keys_length (h : Represents cap home t m) :
    m.keys.length = (occupied cap t).length := by
  rw [← h.keys_perm.length_eq, List.length_map]

theorem mem_keys_toFinset : k ∈ m.keys.toFinset ↔ k ∈ m := by
  rw [List.mem_toFinset, AList.mem_keys]

theorem card_keys : m.keys.toFinset.card = m.keys.length :=
  List.toFinset_card_of_nodup m.keys_nodup

theorem keys_insert : (m.insert k v).keys.toFinset = insert k m.keys.toFinset := by
  ext k'
  rw [mem_keys_toFinset, AList.mem_insert, Finset.mem_insert, mem_keys_toFinset]

theorem length_le (h : Represents cap home t m) : m.keys.length ≤ cap := by
  rw [h.keys_length]
  exact length_occupied_le

/-- A key finds no slot exactly when the map has no room for it. -/
theorem search_eq_none_iff (h : Represents cap home t m) :
    search t k (path cap (home k)) = none ↔ cap ≤ m.keys.length ∧ k ∉ m := by
  rw [h.placed.search_eq_none_iff, h.mem_iff, ← h.keys_length, not_exists]
  exact and_congr_left fun _ => ⟨fun heq => heq.ge, fun hge => le_antisymm h.length_le hge⟩

theorem update (h : Represents cap home t m) (hs : search t k (path cap (home k)) = some s) :
    Represents cap home (Function.update t s (some (k, v))) (m.insert k v) where
  placed := h.placed.update hs
  stored_iff k' v' := by
    rw [h.placed.stored_update hs]
    by_cases hk : k' = k
    · subst hk
      rw [if_pos rfl, AList.lookup_insert, Option.some.injEq]
      exact eq_comm
    · rw [if_neg hk, AList.lookup_insert_ne hk]
      exact h.stored_iff k' v'

/-- In a full table the keys that find no slot are those that are not in the map. -/
theorem forall_search_eq_none_iff (h : Represents cap home t m) (hfull : cap ≤ m.keys.length) :
    (∀ p ∈ ps, search t p.1 (path cap (home p.1)) = none) ↔
      ∀ k' ∈ ps.map Prod.fst, k' ∉ m.keys.toFinset := by
  rw [List.forall_mem_map]
  refine forall₂_congr fun p _ => ?_
  rw [h.search_eq_none_iff, mem_keys_toFinset]
  exact and_iff_right hfull

/-- The table takes as many pairs as the map exactly when the keys are settled, and then it
represents what the map becomes. -/
theorem insertAll_iff (h : Represents cap home t m) (ps : List (K × V)) :
    ((insertAll cap home t ps).2 = (fill cap m ps).2 ↔
        Settled cap m.keys.toFinset (ps.map Prod.fst)) ∧
      (Settled cap m.keys.toFinset (ps.map Prod.fst) →
        Represents cap home (insertAll cap home t ps).1 (fill cap m ps).1) := by
  induction ps generalizing t m with
  | nil => exact ⟨iff_of_true rfl settled_nil, fun _ => h⟩
  | cons p ps ih =>
    obtain ⟨k, v⟩ := p
    rw [List.map_cons]
    by_cases hroom : cap ≤ m.keys.length ∧ k ∉ m
    · -- The map stops here; the table goes on, and has no room for a new key either.
      have hcard : m.keys.toFinset.card = cap := card_keys.trans (le_antisymm h.length_le hroom.1)
      rw [settled_cons_of_full hcard (mt mem_keys_toFinset.1 hroom.2), fill_cons_of_full hroom,
        insertAll_cons_of_none (h.search_eq_none_iff.2 hroom),
        ← h.forall_search_eq_none_iff hroom.1]
      refine ⟨insertAll_eq_zero_iff, fun hnone => ?_⟩
      rw [insertAll_of_none hnone]
      exact h
    · obtain ⟨s, hs⟩ := Option.ne_none_iff_exists'.1 (mt h.search_eq_none_iff.1 hroom)
      have hfirst : m.keys.toFinset.card = cap → k ∈ m.keys.toFinset := by
        intro hcard
        rw [card_keys] at hcard
        by_contra hk
        exact hroom ⟨hcard.ge, mt mem_keys_toFinset.2 hk⟩
      rw [settled_cons_of_room hfirst, ← keys_insert (v := v), fill_cons_of_room hroom,
        insertAll_cons_of_some hs, Nat.add_right_cancel_iff]
      exact ih (h.update hs)

end Represents

end BoundedMap
