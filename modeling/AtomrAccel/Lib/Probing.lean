import Mathlib.Tactic

/-!
# Linear probing

A table has slots that are empty or hold a key with its value.  A key is looked for from its home on,
around the table, until a slot is empty or holds it.

* `search`, `Probing.insert`, `Probing.lookup`: the operations along a list of slots;
* `path`: all slots from the home of a key on;
* `WellPlaced`, `WellPlaced.reachable`: every key is found where it is, and no empty slot lies
  before it;
* `search_update_ne`, `search_update_self`: the searches after a slot is filled;
* `lookup_eq_some_iff`: what is found is what is stored;
* `occupied`, `nodup_occupied`, `length_occupied_eq_iff`: the keys in the table, each once, and when
  it is full;
* `search_eq_none_iff`: a key finds no slot exactly when it is not in a table that is full;
* `insertAll`, `insertAll_eq_zero_iff`: many keys, one after another.
-/

namespace Probing

variable {K V : Type*}

/-- The entries of the slots. -/
abbrev Table (K V : Type*) := ℕ → Option (K × V)

/-- The slots from `home` on. -/
def path (cap home : ℕ) : List ℕ := (List.range cap).map fun i => (home + i) % cap

theorem mem_path {cap home s : ℕ} : s ∈ path cap home ↔ s < cap := by
  simp only [path, List.mem_map, List.mem_range]
  constructor
  · rintro ⟨i, hi, rfl⟩
    exact Nat.mod_lt _ (by omega)
  · intro hs
    have hpos : 0 < cap := by omega
    refine ⟨(s + cap - home % cap) % cap, Nat.mod_lt _ hpos, ?_⟩
    have hhome : home % cap < cap := Nat.mod_lt _ hpos
    have hsum : home % cap + (s + cap - home % cap) = s + cap := by omega
    rw [Nat.add_mod_mod, ← Nat.mod_add_mod, hsum, Nat.add_mod_right, Nat.mod_eq_of_lt hs]

variable {t : Table K V} {k k' : K} {v v' : V} {s s' : ℕ} {slots : List ℕ}

/-- A slot that a search can end at. -/
def Fits (t : Table K V) (k : K) (s : ℕ) : Prop := ∀ e, t s = some e → e.1 = k

theorem fits_of_empty (h : t s = none) : Fits t k s := fun e he => by
  rw [h] at he
  cases he

theorem fits_self (h : t s = some (k, v)) : Fits t k s := fun e he => by
  rw [h] at he
  cases he
  rfl

theorem not_fits_of_ne (h : t s = some (k', v)) (hk : k' ≠ k) : ¬ Fits t k s :=
  fun hfits => hk (hfits _ h)

variable [DecidableEq K]

/-- The first slot that is empty or holds the key. -/
def search (t : Table K V) (k : K) : List ℕ → Option ℕ
  | [] => none
  | s :: ss =>
    match t s with
    | none => some s
    | some (k', _) => if k' = k then some s else search t k ss

/-- Whether the key found a slot, and the table with it there. -/
def insert (t : Table K V) (k : K) (v : V) (slots : List ℕ) : Table K V × Bool :=
  match search t k slots with
  | none => (t, false)
  | some s => (Function.update t s (some (k, v)), true)

/-- The value a search finds. -/
def lookup (t : Table K V) (k : K) (slots : List ℕ) : Option V :=
  match search t k slots with
  | none => none
  | some s => (t s).map Prod.snd

theorem search_cons_of_fits (h : Fits t k s) : search t k (s :: slots) = some s := by
  cases ht : t s with
  | none => simp only [search, ht]
  | some e =>
    obtain ⟨k', v⟩ := e
    have hk : k' = k := h _ ht
    simp only [search, ht, if_pos hk]

theorem search_cons_of_not_fits (h : ¬ Fits t k s) :
    search t k (s :: slots) = search t k slots := by
  cases ht : t s with
  | none => exact absurd (fits_of_empty ht) h
  | some e =>
    obtain ⟨k', v⟩ := e
    have hk : k' ≠ k := by
      rintro rfl
      exact h (fits_self ht)
    simp only [search, ht, if_neg hk]

/-- A search ends at a slot of the list that fits. -/
theorem fits_of_search (h : search t k slots = some s) : s ∈ slots ∧ Fits t k s := by
  induction slots with
  | nil => cases h
  | cons x slots ih =>
    by_cases hx : Fits t k x
    · rw [search_cons_of_fits hx] at h
      obtain rfl := Option.some.inj h
      exact ⟨List.mem_cons_self, hx⟩
    · rw [search_cons_of_not_fits hx] at h
      exact ⟨List.mem_cons_of_mem _ (ih h).1, (ih h).2⟩

theorem search_eq_none : search t k slots = none ↔ ∀ s ∈ slots, ¬ Fits t k s := by
  induction slots with
  | nil => simp [search]
  | cons x slots ih =>
    rw [List.forall_mem_cons]
    by_cases hx : Fits t k x
    · rw [search_cons_of_fits hx]
      exact iff_of_false (Option.some_ne_none x) fun h => h.1 hx
    · rw [search_cons_of_not_fits hx, ih]
      exact (and_iff_right hx).symm

theorem lookup_cons_of_empty (h : t s = none) : lookup t k (s :: slots) = none := by
  simp only [lookup, search_cons_of_fits (fits_of_empty h), h, Option.map_none]

theorem lookup_cons_self (h : t s = some (k, v)) : lookup t k (s :: slots) = some v := by
  simp only [lookup, search_cons_of_fits (fits_self h), h, Option.map_some]

theorem lookup_cons_of_ne (h : t s = some (k', v)) (hk : k' ≠ k) :
    lookup t k (s :: slots) = lookup t k slots := by
  simp only [lookup, search_cons_of_not_fits (not_fits_of_ne h hk)]

/-- Every slot before the one a search ends at holds another key. -/
theorem exists_of_search (h : search t k slots = some s) :
    ∃ n : ℕ, slots[n]? = some s ∧ ∀ m < n, ∀ x, slots[m]? = some x → ¬ Fits t k x := by
  induction slots with
  | nil => cases h
  | cons x slots ih =>
    by_cases hx : Fits t k x
    · rw [search_cons_of_fits hx] at h
      obtain rfl := Option.some.inj h
      exact ⟨0, rfl, fun m hm => absurd hm (Nat.not_lt_zero m)⟩
    · rw [search_cons_of_not_fits hx] at h
      obtain ⟨n, hn, hbefore⟩ := ih h
      refine ⟨n + 1, hn, fun m hm y hy => ?_⟩
      cases m with
      | zero =>
        obtain rfl : x = y := Option.some.inj hy
        exact hx
      | succ m => exact hbefore m (Nat.lt_of_succ_lt_succ hm) y hy

/-- A key that is stored is still found when a slot that another key can have is filled. -/
theorem search_update_ne (hne : k ≠ k') (hfits : Fits t k s) (hstored : t s' = some (k', v'))
    (h : search t k' slots = some s') :
    search (Function.update t s (some (k, v))) k' slots = some s' := by
  have hs : s' ≠ s := by
    rintro rfl
    exact hne (hfits _ hstored).symm
  induction slots with
  | nil => cases h
  | cons x slots ih =>
    by_cases hx : Fits t k' x
    · rw [search_cons_of_fits hx] at h
      obtain rfl := Option.some.inj h
      refine search_cons_of_fits fun e he => ?_
      rw [Function.update_of_ne hs] at he
      exact hx e he
    · rw [search_cons_of_not_fits hx] at h
      rw [search_cons_of_not_fits, ih h]
      intro hfits'
      by_cases hxs : x = s
      · subst hxs
        exact hne (hfits' (k, v) (Function.update_self _ _ _))
      · refine hx fun e he => hfits' e ?_
        rwa [Function.update_of_ne hxs]

/-- A key is found where it is put. -/
theorem search_update_self (h : search t k slots = some s) :
    search (Function.update t s (some (k, v))) k slots = some s := by
  have hfits := (fits_of_search h).2
  induction slots with
  | nil => cases h
  | cons x slots ih =>
    by_cases hx : Fits t k x
    · rw [search_cons_of_fits hx] at h
      obtain rfl := Option.some.inj h
      exact search_cons_of_fits (fits_self (Function.update_self _ _ _))
    · rw [search_cons_of_not_fits hx] at h
      have hxs : x ≠ s := by
        rintro rfl
        exact hx hfits
      rw [search_cons_of_not_fits, ih h]
      refine fun hfits' => hx fun e he => hfits' e ?_
      rwa [Function.update_of_ne hxs]

/-! ### Tables -/

variable {cap : ℕ} {home : K → ℕ}

/-- Every key is where its search ends. -/
def WellPlaced (cap : ℕ) (home : K → ℕ) (t : Table K V) : Prop :=
  ∀ s k v, t s = some (k, v) → search t k (path cap (home k)) = some s

/-- A key and its value are in the table. -/
def Stored (t : Table K V) (k : K) (v : V) : Prop := ∃ s, t s = some (k, v)

/-- No empty slot lies between the home of a stored key and its slot. -/
theorem WellPlaced.reachable (h : WellPlaced cap home t) (hs : t s = some (k, v)) :
    ∃ n < cap, s = (home k + n) % cap ∧ ∀ m < n, t ((home k + m) % cap) ≠ none := by
  obtain ⟨n, hn, hbefore⟩ := exists_of_search (h s k v hs)
  have hpath : ∀ m < cap, (path cap (home k))[m]? = some ((home k + m) % cap) := by
    intro m hm
    rw [path, List.getElem?_map, List.getElem?_range hm, Option.map_some]
  have hlt : n < cap := by
    have hlen := (List.getElem?_eq_some_iff.1 hn).1
    rwa [path, List.length_map, List.length_range] at hlen
  refine ⟨n, hlt, ?_, fun m hm hempty => ?_⟩
  · exact (Option.some.inj ((hpath n hlt).symm.trans hn)).symm
  · exact hbefore m hm _ (hpath m (hm.trans hlt)) (fits_of_empty hempty)

theorem wellPlaced_empty : WellPlaced cap home (fun _ => none : Table K V) :=
  fun _ _ _ h => by cases h

theorem WellPlaced.lt (h : WellPlaced cap home t) (hs : t s = some (k, v)) : s < cap :=
  mem_path.1 (fits_of_search (h s k v hs)).1

theorem WellPlaced.update (h : WellPlaced cap home t)
    (hs : search t k (path cap (home k)) = some s) :
    WellPlaced cap home (Function.update t s (some (k, v))) := by
  intro s' k' v' hs'
  by_cases hss : s' = s
  · subst hss
    rw [Function.update_self] at hs'
    cases hs'
    exact search_update_self hs
  · rw [Function.update_of_ne hss] at hs'
    have hfound := h s' k' v' hs'
    have hne : k ≠ k' := by
      rintro rfl
      exact hss (Option.some.inj (hfound.symm.trans hs))
    exact search_update_ne hne (fits_of_search hs).2 hs' hfound

/-- What is stored after a slot is filled. -/
theorem WellPlaced.stored_update (h : WellPlaced cap home t)
    (hs : search t k (path cap (home k)) = some s) :
    Stored (Function.update t s (some (k, v))) k' v' ↔
      if k' = k then v' = v else Stored t k' v' := by
  constructor
  · rintro ⟨s', hs'⟩
    by_cases hss : s' = s
    · subst hss
      rw [Function.update_self] at hs'
      cases hs'
      rw [if_pos rfl]
    · rw [Function.update_of_ne hss] at hs'
      have hne : k' ≠ k := by
        rintro rfl
        exact hss (Option.some.inj ((h s' k' v' hs').symm.trans hs))
      rw [if_neg hne]
      exact ⟨s', hs'⟩
  · intro hv
    by_cases hk : k' = k
    · subst hk
      rw [if_pos rfl] at hv
      subst hv
      exact ⟨s, Function.update_self _ _ _⟩
    · rw [if_neg hk] at hv
      obtain ⟨s', hs'⟩ := hv
      refine ⟨s', ?_⟩
      rw [Function.update_of_ne, hs']
      rintro rfl
      exact hk ((fits_of_search hs).2 _ hs')

theorem WellPlaced.lookup_eq_some_iff (h : WellPlaced cap home t) :
    lookup t k (path cap (home k)) = some v ↔ Stored t k v := by
  constructor
  · intro hlook
    unfold lookup at hlook
    cases hs : search t k (path cap (home k)) with
    | none =>
      rw [hs] at hlook
      cases hlook
    | some s =>
      rw [hs] at hlook
      obtain ⟨⟨k', v'⟩, he, rfl⟩ := Option.map_eq_some_iff.1 hlook
      obtain rfl : k' = k := (fits_of_search hs).2 _ he
      exact ⟨s, he⟩
  · rintro ⟨s, hs⟩
    simp only [lookup, h s k v hs, hs, Option.map_some]

/-! ### Full tables -/

/-- The keys and values in the slots, in their order. -/
def occupied (cap : ℕ) (t : Table K V) : List (K × V) := (List.range cap).filterMap t

theorem WellPlaced.mem_occupied (h : WellPlaced cap home t) :
    (k, v) ∈ occupied cap t ↔ Stored t k v := by
  rw [occupied, List.mem_filterMap]
  constructor
  · rintro ⟨s, -, hs⟩
    exact ⟨s, hs⟩
  · rintro ⟨s, hs⟩
    exact ⟨s, List.mem_range.2 (h.lt hs), hs⟩

theorem WellPlaced.nodup_occupied (h : WellPlaced cap home t) :
    ((occupied cap t).map Prod.fst).Nodup := by
  rw [occupied, List.map_filterMap]
  refine List.Nodup.filterMap ?_ List.nodup_range
  intro s s' k hfst hfst'
  obtain ⟨⟨k, v⟩, ht, rfl⟩ := Option.map_eq_some_iff.1 hfst
  obtain ⟨⟨k', v'⟩, ht', hk⟩ := Option.map_eq_some_iff.1 hfst'
  obtain rfl : k' = k := hk
  exact Option.some.inj ((h s k' v ht).symm.trans (h s' k' v' ht'))

omit [DecidableEq K] in
theorem length_occupied_le : (occupied cap t).length ≤ cap :=
  (List.length_filterMap_le _ _).trans_eq List.length_range

omit [DecidableEq K] in
theorem length_occupied_eq_iff : (occupied cap t).length = cap ↔ ∀ s < cap, t s ≠ none := by
  have hlen : (occupied cap t).length = (List.range cap).countP fun s => (t s).isSome :=
    List.length_filterMap_eq_countP
  constructor
  · intro hfull s hs hnone
    have hall := List.countP_eq_length.1 ((hlen.symm.trans hfull).trans List.length_range.symm)
    have hsome := hall s (List.mem_range.2 hs)
    rw [hnone] at hsome
    cases hsome
  · intro hall
    rw [hlen, List.countP_eq_length.2, List.length_range]
    exact fun s hs => Option.isSome_iff_ne_none.2 (hall s (List.mem_range.1 hs))

/-- A key finds no slot exactly when the table is full and does not hold it. -/
theorem WellPlaced.search_eq_none_iff (h : WellPlaced cap home t) :
    search t k (path cap (home k)) = none ↔
      (occupied cap t).length = cap ∧ ∀ v, ¬ Stored t k v := by
  rw [search_eq_none, length_occupied_eq_iff]
  constructor
  · intro hnone
    refine ⟨fun s hs hempty => hnone s (mem_path.2 hs) (fits_of_empty hempty), ?_⟩
    rintro v ⟨s, hs⟩
    exact hnone s (mem_path.2 (h.lt hs)) (fits_self hs)
  · rintro ⟨hfull, habsent⟩ s hs hfits
    obtain ⟨⟨k', v⟩, he⟩ := Option.ne_none_iff_exists'.1 (hfull s (mem_path.1 hs))
    obtain rfl : k' = k := hfits _ he
    exact habsent v ⟨s, he⟩

/-! ### Many keys -/

/-- The table after each pair is inserted, and how many of them found a slot. -/
def insertAll (cap : ℕ) (home : K → ℕ) : Table K V → List (K × V) → Table K V × ℕ
  | t, [] => (t, 0)
  | t, (k, v) :: ps =>
    let (t', found) := insert t k v (path cap (home k))
    let (t'', n) := insertAll cap home t' ps
    (t'', if found then n + 1 else n)

variable {ps : List (K × V)}

theorem insertAll_cons_of_none (h : search t k (path cap (home k)) = none) :
    insertAll cap home t ((k, v) :: ps) = insertAll cap home t ps := by
  simp only [insertAll, insert, h, Bool.false_eq_true, if_false]

theorem insertAll_cons_of_some (h : search t k (path cap (home k)) = some s) :
    insertAll cap home t ((k, v) :: ps) =
      ((insertAll cap home (Function.update t s (some (k, v))) ps).1,
        (insertAll cap home (Function.update t s (some (k, v))) ps).2 + 1) := by
  simp only [insertAll, insert, h, if_true]

/-- No pair finds a slot exactly when none finds one in the table as it was. -/
theorem insertAll_eq_zero_iff :
    (insertAll cap home t ps).2 = 0 ↔ ∀ p ∈ ps, search t p.1 (path cap (home p.1)) = none := by
  induction ps with
  | nil => exact iff_of_true rfl (List.forall_mem_nil _)
  | cons p ps ih =>
    obtain ⟨k, v⟩ := p
    rw [List.forall_mem_cons]
    cases hs : search t k (path cap (home k)) with
    | none =>
      rw [insertAll_cons_of_none hs, ih]
      exact (and_iff_right rfl).symm
    | some s =>
      rw [insertAll_cons_of_some hs]
      exact iff_of_false (Nat.succ_ne_zero _) fun h => Option.some_ne_none s h.1

theorem insertAll_of_none (h : ∀ p ∈ ps, search t p.1 (path cap (home p.1)) = none) :
    insertAll cap home t ps = (t, 0) := by
  induction ps with
  | nil => rfl
  | cons p ps ih =>
    obtain ⟨hp, hps⟩ := List.forall_mem_cons.1 h
    exact (insertAll_cons_of_none hp).trans (ih hps)

end Probing
