import AtomrAccel.Lib.Lru
import AtomrAccel.Lib.Overflow
import AtomrAccel.Lib.Reactive
import Mathlib.Data.List.AList

/-!
# `EmbeddingCache`

The cache keeps its embeddings in a hash map under 64-bit hashes of the keys, and the hashes in a
queue, the least recently used one in front.  Every hit and every insertion moves a hash to the
back; an insertion into a full cache drops the hash in front.

* `EmbeddingCache`, `props`, `touch`, `handle`: the actor;
* `Reference`: a map from keys that forgets the least recently used one, of size at least one;
* `Refines`: the two structures of the cache hold the entries of the reference, in its order;
* `embeddingCache_refines`: the replies to any sequence of messages are those of the reference, as
  long as no two of the keys in it have the same hash.
-/

namespace AtomrAccel

namespace Agents

open Reactive
open Overflow (isizeMax)

/-! ### The actor -/

/-- The bytes of a key. -/
abbrev Key := List UInt8

/-- What `Stats` answers; the two counters would wrap around after `2 ^ 64` lookups. -/
structure CacheStats where
  hits : UInt64
  misses : UInt64
  size : ℕ
  capacity : ℕ
  deriving DecidableEq, Repr

/-- The messages, over values `V` (`Vec<f32>` in the source). -/
inductive EmbeddingCacheMsg (V : Type)
  | get (key : Key)
  | insert (key : Key) (value : V)
  | invalidate (key : Key)
  | stats

/-- What goes back on the reply channels. -/
inductive EmbeddingCacheReply (V : Type)
  | got (value : Option V)
  | inserted
  | invalidated (removed : Bool)
  | stats (stats : CacheStats)

/-- The key a message is about. -/
def EmbeddingCacheMsg.key? {V : Type} : EmbeddingCacheMsg V → Option Key
  | get key | insert key _ | invalidate key => some key
  | stats => none

/-- `config.capacity_entries` is `capacityEntries`; `embedding_dim` is not used. -/
structure EmbeddingCache (V : Type) where
  capacityEntries : ℕ
  cache : AList fun _ : UInt64 => V
  /-- least recent first -/
  order : List UInt64
  stats : CacheStats

namespace EmbeddingCache

variable {V : Type}

/-- An empty cache. -/
def new (capacityEntries : ℕ) : EmbeddingCache V :=
  ⟨capacityEntries, ∅, [], ⟨0, 0, 0, capacityEntries⟩⟩

/-- The factory of `props`: both `with_capacity` panic beyond `isize::MAX` bytes, of which the map
takes `tableBytes` and the queue eight for each entry. -/
def props (tableBytes : ℕ → ℕ) (capacityEntries : ℕ) : Option (EmbeddingCache V) :=
  if tableBytes capacityEntries ≤ isizeMax ∧ 8 * capacityEntries ≤ isizeMax then
    some (new capacityEntries)
  else none

/-- What the factory makes is an empty cache. -/
theorem eq_new_of_props {tableBytes : ℕ → ℕ} {capacityEntries : ℕ} {s : EmbeddingCache V}
    (h : props tableBytes capacityEntries = some s) : s = new capacityEntries := by
  unfold props at h
  split_ifs at h
  exact (Option.some.inj h).symm

/-- `k` becomes the most recent one. -/
def touch (s : EmbeddingCache V) (k : UInt64) : EmbeddingCache V :=
  { s with order := s.order.erase k ++ [k] }

/-- `cache.len()`. -/
def len (s : EmbeddingCache V) : ℕ := s.cache.entries.length

/-- Make room for `h` if the cache is full. -/
def evict (s : EmbeddingCache V) (h : UInt64) : EmbeddingCache V :=
  if s.capacityEntries ≤ s.len ∧ h ∉ s.cache then
    match s.order with
    | [] => s
    | victim :: rest => { s with order := rest, cache := s.cache.erase victim }
  else s

@[simp] theorem evict_capacityEntries (s : EmbeddingCache V) (h : UInt64) :
    (s.evict h).capacityEntries = s.capacityEntries := by
  unfold evict
  split
  · split <;> rfl
  · rfl

@[simp] theorem evict_stats (s : EmbeddingCache V) (h : UInt64) :
    (s.evict h).stats = s.stats := by
  unfold evict
  split
  · split <;> rfl
  · rfl

variable (hashKey : Key → UInt64)

/-- `handle_msg`; `hashKey` is `hash_key`. -/
def handle (s : EmbeddingCache V) :
    EmbeddingCacheMsg V → EmbeddingCache V × EmbeddingCacheReply V
  | .get key =>
    let h := hashKey key
    match s.cache.lookup h with
    | some v =>
      ({ s with stats := { s.stats with hits := s.stats.hits + 1 } }.touch h, .got (some v))
    | none => ({ s with stats := { s.stats with misses := s.stats.misses + 1 } }, .got none)
  | .insert key value =>
    let h := hashKey key
    let s := s.evict h
    let s := { s with cache := s.cache.insert h value }.touch h
    ({ s with stats := { s.stats with size := s.len } }, .inserted)
  | .invalidate key =>
    let h := hashKey key
    if h ∈ s.cache then
      let s := { s with cache := s.cache.erase h, order := s.order.erase h }
      ({ s with stats := { s.stats with size := s.len } }, .invalidated true)
    else (s, .invalidated false)
  | .stats => (s, .stats s.stats)

theorem handle_capacityEntries (s : EmbeddingCache V) (msg : EmbeddingCacheMsg V) :
    (s.handle hashKey msg).1.capacityEntries = s.capacityEntries := by
  cases msg with
  | get key =>
    cases hlook : s.cache.lookup (hashKey key) <;> simp only [handle, hlook, touch]
  | insert key value => exact evict_capacityEntries s (hashKey key)
  | invalidate key =>
    by_cases hold : hashKey key ∈ s.cache
    · simp only [handle, if_pos hold]
    · simp only [handle, if_neg hold]
  | stats => rfl

/-- The actor as a machine. -/
def machine : Machine (EmbeddingCache V) (EmbeddingCacheMsg V) (EmbeddingCacheReply V) :=
  ⟨handle hashKey⟩

end EmbeddingCache

/-! ### The reference -/

/-- A map that forgets the least recently used key, with counters. -/
structure Reference (V : Type) where
  map : Lru Key V
  hits : ℕ
  misses : ℕ

namespace Reference

variable {V : Type}

/-- The smallest map has room for one key. -/
def new (capacity : ℕ) : Reference V := ⟨Lru.empty (max capacity 1), 0, 0⟩

/-- `capacity` is what `Stats` reports. -/
def handle (capacity : ℕ) (m : Reference V) :
    EmbeddingCacheMsg V → Reference V × EmbeddingCacheReply V
  | .get key =>
    match m.map.get? key with
    | some (v, map) => ({ m with map := map, hits := m.hits + 1 }, .got (some v))
    | none => ({ m with misses := m.misses + 1 }, .got none)
  | .insert key value => ({ m with map := m.map.put key value }, .inserted)
  | .invalidate key =>
    ({ m with map := m.map.erase key }, .invalidated (m.map.entries.any fun e => e.1 = key))
  | .stats => (m, .stats ⟨.ofNat m.hits, .ofNat m.misses, m.map.entries.length, capacity⟩)

/-- The reference as a machine, for the messages of the cache. -/
def machine (capacity : ℕ) :
    Machine (Reference V) (EmbeddingCacheMsg V) (EmbeddingCacheReply V) :=
  ⟨handle capacity⟩

end Reference

/-! ### The refinement -/

section Refinement

variable {V : Type} {hashKey : Key → UInt64} {keys : Set Key}

/-- The hashes of some entries, the least recently used one first. -/
def hashes (hashKey : Key → UInt64) (entries : List (Key × V)) : List UInt64 :=
  (entries.map fun e => hashKey e.1).reverse

/-- The cache holds the entries under the hashes of their keys, in their order. -/
structure Holds (hashKey : Key → UInt64) (keys : Set Key) (s : EmbeddingCache V)
    (entries : List (Key × V)) : Prop where
  used : ∀ e ∈ entries, e.1 ∈ keys
  nodup : (entries.map Prod.fst).Nodup
  stored : ∀ e ∈ entries, s.cache.lookup (hashKey e.1) = some e.2
  listed : ∀ h, h ∈ s.cache ↔ h ∈ s.order
  order : s.order = hashes hashKey entries

/-- The cache holds the entries of the reference, with its capacity and its counters. -/
structure Refines (hashKey : Key → UInt64) (keys : Set Key) (s : EmbeddingCache V)
    (m : Reference V) : Prop where
  holds : Holds hashKey keys s m.map.entries
  capacity : m.map.capacity = max s.capacityEntries 1
  stats : s.stats = ⟨.ofNat m.hits, .ofNat m.misses, m.map.entries.length, s.capacityEntries⟩

theorem mem_hashes {entries : List (Key × V)} {h : UInt64} :
    h ∈ hashes hashKey entries ↔ ∃ e ∈ entries, hashKey e.1 = h := by
  simp [hashes]

theorem hashes_cons (e : Key × V) (entries : List (Key × V)) :
    hashes hashKey (e :: entries) = hashes hashKey entries ++ [hashKey e.1] := by
  simp [hashes]

theorem hashes_concat (entries : List (Key × V)) (e : Key × V) :
    hashes hashKey (entries ++ [e]) = hashKey e.1 :: hashes hashKey entries := by
  simp [hashes]

namespace Holds

variable {s : EmbeddingCache V} {entries : List (Key × V)} {k : Key} {v : V}

/-- Distinct keys have distinct hashes. -/
theorem order_nodup (h : Holds hashKey keys s entries) (hinj : Set.InjOn hashKey keys) :
    s.order.Nodup := by
  rw [h.order, hashes, List.nodup_reverse, List.nodup_map_iff_inj_on h.nodup.of_map]
  intro e he e' he' heq
  exact List.inj_on_of_nodup_map h.nodup he he' (hinj (h.used e he) (h.used e' he') heq)

theorem order_perm (h : Holds hashKey keys s entries) (hinj : Set.InjOn hashKey keys) :
    s.order.Perm s.cache.keys := by
  rw [List.perm_ext_iff_of_nodup (h.order_nodup hinj) s.cache.keys_nodup]
  exact fun a => (h.listed a).symm.trans AList.mem_keys

/-- There are as many entries in the hash map as in the queue. -/
theorem len_eq (h : Holds hashKey keys s entries) (hinj : Set.InjOn hashKey keys) :
    s.len = entries.length := by
  have hlen : s.cache.keys.length = s.len := List.length_map _
  rw [← hlen, ← (h.order_perm hinj).length_eq, h.order, hashes, List.length_reverse,
    List.length_map]

theorem mem_iff (h : Holds hashKey keys s entries) (hinj : Set.InjOn hashKey keys)
    (hk : k ∈ keys) : hashKey k ∈ s.cache ↔ ∃ v, (k, v) ∈ entries := by
  rw [h.listed, h.order, mem_hashes]
  constructor
  · rintro ⟨e, he, heq⟩
    obtain rfl := hinj (h.used e he) hk heq
    exact ⟨e.2, he⟩
  · rintro ⟨v, hv⟩
    exact ⟨(k, v), hv, rfl⟩

/-- Taking a hash out of the queue is taking its key out of the entries. -/
theorem order_erase (h : Holds hashKey keys s entries) (hinj : Set.InjOn hashKey keys)
    (hk : k ∈ keys) :
    s.order.erase (hashKey k) = hashes hashKey (entries.filter fun e => e.1 ≠ k) := by
  rw [(h.order_nodup hinj).erase_eq_filter, h.order, hashes, List.filter_reverse,
    List.filter_map, hashes]
  congr 2
  refine List.filter_congr fun e he => ?_
  have hkey : hashKey e.1 = hashKey k ↔ e.1 = k :=
    ⟨fun heq => hinj (h.used e he) hk heq, congrArg hashKey⟩
  show (hashKey e.1 != hashKey k) = decide (e.1 ≠ k)
  rw [bne, beq_eq_decide, decide_not, decide_eq_decide.2 hkey]

/-- Removing a key. -/
theorem erase (h : Holds hashKey keys s entries) (hinj : Set.InjOn hashKey keys)
    (hk : k ∈ keys) :
    Holds hashKey keys
      { s with cache := s.cache.erase (hashKey k), order := s.order.erase (hashKey k) }
      (entries.filter fun e => e.1 ≠ k) where
  used e he := h.used e (List.mem_of_mem_filter he)
  nodup := h.nodup.sublist (List.filter_sublist.map _)
  stored e he := by
    obtain ⟨hmem, hne⟩ := List.mem_filter.1 he
    have hhash : hashKey e.1 ≠ hashKey k := fun heq =>
      of_decide_eq_true hne (hinj (h.used e hmem) hk heq)
    exact (AList.lookup_erase_ne hhash).trans (h.stored e hmem)
  listed a := by
    show a ∈ s.cache.erase (hashKey k) ↔ a ∈ s.order.erase (hashKey k)
    rw [AList.mem_erase, (h.order_nodup hinj).mem_erase_iff, h.listed]
  order := h.order_erase hinj hk

/-- A key becomes the most recently used one, with the value its hash now has. -/
theorem use (h : Holds hashKey keys s entries) (hinj : Set.InjOn hashKey keys) (hk : k ∈ keys)
    {cache : AList fun _ : UInt64 => V} (hnew : cache.lookup (hashKey k) = some v)
    (hold : ∀ a ≠ hashKey k, cache.lookup a = s.cache.lookup a) :
    Holds hashKey keys ({ s with cache := cache }.touch (hashKey k))
      ((k, v) :: entries.filter fun e => e.1 ≠ k) where
  used := List.forall_mem_cons.2 ⟨hk, fun e he => h.used e (List.mem_of_mem_filter he)⟩
  nodup := by
    rw [List.map_cons, List.nodup_cons]
    refine ⟨?_, h.nodup.sublist (List.filter_sublist.map _)⟩
    simp
  stored := by
    refine List.forall_mem_cons.2 ⟨hnew, fun e he => ?_⟩
    obtain ⟨hmem, hne⟩ := List.mem_filter.1 he
    have hhash : hashKey e.1 ≠ hashKey k := fun heq =>
      of_decide_eq_true hne (hinj (h.used e hmem) hk heq)
    exact (hold _ hhash).trans (h.stored e hmem)
  listed a := by
    show a ∈ cache ↔ a ∈ s.order.erase (hashKey k) ++ [hashKey k]
    rw [List.mem_append, (h.order_nodup hinj).mem_erase_iff, List.mem_singleton]
    by_cases ha : a = hashKey k
    · subst ha
      refine iff_of_true ?_ (.inr rfl)
      rw [← AList.lookup_isSome, hnew]
      rfl
    · rw [← AList.lookup_isSome, hold a ha, AList.lookup_isSome, h.listed]
      tauto
  order := by
    show s.order.erase (hashKey k) ++ [hashKey k] = _
    rw [h.order_erase hinj hk, hashes_cons]

/-- Making room removes the least recently used key. -/
theorem evict_full (h : Holds hashKey keys s entries) (hinj : Set.InjOn hashKey keys)
    (hfull : s.capacityEntries ≤ s.len) (hnew : hashKey k ∉ s.cache) :
    Holds hashKey keys (s.evict (hashKey k)) entries.dropLast := by
  rw [EmbeddingCache.evict, if_pos ⟨hfull, hnew⟩]
  obtain rfl | ⟨rest, e, rfl⟩ := List.eq_nil_or_concat entries
  · have horder : s.order = [] := h.order
    rw [horder]
    exact h
  · have horder : s.order = hashKey e.1 :: hashes hashKey rest := by
      rw [h.order, List.concat_eq_append, hashes_concat]
    have hkeys : ∀ e' ∈ rest, e'.1 ≠ e.1 := by
      have hnodup := h.nodup
      rw [List.concat_eq_append, List.map_append, List.nodup_append] at hnodup
      exact fun e' he' => hnodup.2.2 _ (List.mem_map_of_mem he') _ (List.mem_singleton_self _)
    have hlast := h.erase hinj (h.used e (by simp))
    rw [horder, List.erase_cons_head, List.concat_eq_append, List.filter_append,
      List.filter_eq_self.2 fun e' he' => decide_eq_true (hkeys e' he')] at hlast
    rw [horder, List.concat_eq_append, List.dropLast_concat]
    simpa using hlast

end Holds

namespace Refines

variable {s : EmbeddingCache V} {m : Reference V} {k : Key}

theorem lookup_eq_none (h : Refines hashKey keys s m) (hinj : Set.InjOn hashKey keys)
    (hk : k ∈ keys) (hmiss : m.map.get? k = none) : s.cache.lookup (hashKey k) = none := by
  rw [AList.lookup_eq_none, h.holds.mem_iff hinj hk]
  rintro ⟨v, hv⟩
  exact Lru.not_mem_of_get?_eq_none hmiss hv rfl

/-- Both answer a `Get` alike. -/
theorem get (h : Refines hashKey keys s m) (hinj : Set.InjOn hashKey keys) (hk : k ∈ keys) :
    (s.handle hashKey (.get k)).2 = (m.handle s.capacityEntries (.get k)).2 ∧
      Refines hashKey keys (s.handle hashKey (.get k)).1
        (m.handle s.capacityEntries (.get k)).1 := by
  cases hget : m.map.get? k with
  | none =>
    simp only [EmbeddingCache.handle, Reference.handle, hget, h.lookup_eq_none hinj hk hget]
    refine ⟨trivial, ⟨h.holds.used, h.holds.nodup, h.holds.stored, h.holds.listed, h.holds.order⟩,
      h.capacity, ?_⟩
    rw [h.stats, UInt64.ofNat_add]
    rfl
  | some found =>
    obtain ⟨v, map⟩ := found
    have hmem := Lru.mem_of_get? hget
    have hlook : s.cache.lookup (hashKey k) = some v := h.holds.stored _ hmem
    simp only [EmbeddingCache.handle, Reference.handle, hget, hlook]
    have hentries := Lru.entries_get? hget
    refine ⟨trivial, ?_, ?_, ?_⟩
    · have huse := h.holds.use hinj hk hlook fun _ _ => rfl
      rw [show m.map.entries.filter (fun e => e.1 ≠ k) = m.map.others k from rfl,
        ← hentries] at huse
      exact ⟨huse.used, huse.nodup, huse.stored, huse.listed, huse.order⟩
    · exact (Lru.get?_capacity hget).trans h.capacity
    · show { s.stats with hits := s.stats.hits + 1 } = _
      rw [h.stats, hentries, List.length_cons, Lru.length_others_of_mem hmem, UInt64.ofNat_add]
      rfl

/-- The entries after an `Insert`, in terms of those left after making room. -/
theorem put (h : Refines hashKey keys s m) (hinj : Set.InjOn hashKey keys) (hk : k ∈ keys)
    (v : V) : ∃ entries, Holds hashKey keys (s.evict (hashKey k)) entries ∧
      (m.map.put k v).entries = (k, v) :: entries.filter fun e => e.1 ≠ k := by
  have hmem := h.holds.mem_iff hinj hk
  have hlen := h.holds.len_eq hinj
  have hcap := h.capacity
  by_cases hold : hashKey k ∈ s.cache
  · obtain ⟨w, hw⟩ := hmem.1 hold
    refine ⟨m.map.entries, ?_, Lru.entries_put_of_mem hw⟩
    rw [EmbeddingCache.evict, if_neg fun hfull => hfull.2 hold]
    exact h.holds
  · have hnew : ∀ e ∈ m.map.entries, e.1 ≠ k := fun e he heq => hold (hmem.2 ⟨e.2, heq ▸ he⟩)
    by_cases hfull : s.capacityEntries ≤ s.len
    · refine ⟨m.map.entries.dropLast, h.holds.evict_full hinj hfull hold, ?_⟩
      rw [List.filter_eq_self.2 fun e he =>
        decide_eq_true (hnew e (List.dropLast_subset _ he))]
      rcases Nat.lt_or_ge m.map.entries.length m.map.capacity with hroom | hge
      · -- a cache of capacity zero that is empty
        have hnil : m.map.entries = [] := List.length_eq_zero_iff.1 (by omega)
        rw [Lru.entries_put_of_lt v hnew hroom, hnil]
        rfl
      · exact Lru.entries_put_of_full v hnew (m.map.length_le.antisymm hge) (by omega)
    · refine ⟨m.map.entries, ?_, ?_⟩
      · rw [EmbeddingCache.evict, if_neg fun hfull' => hfull hfull'.1]
        exact h.holds
      · rw [Lru.entries_put_of_lt v hnew (by omega), List.filter_eq_self.2 fun e he =>
          decide_eq_true (hnew e he)]

theorem insert (h : Refines hashKey keys s m) (hinj : Set.InjOn hashKey keys) (hk : k ∈ keys)
    (v : V) :
    Refines hashKey keys (s.handle hashKey (.insert k v)).1
      (m.handle s.capacityEntries (.insert k v)).1 := by
  obtain ⟨entries, hheld, hentries⟩ := h.put hinj hk v
  have huse := hheld.use (v := v) hinj hk (AList.lookup_insert (s.evict (hashKey k)).cache)
    fun a ha => AList.lookup_insert_ne ha
  rw [← hentries] at huse
  refine ⟨⟨huse.used, huse.nodup, huse.stored, huse.listed, huse.order⟩, ?_, ?_⟩
  · show m.map.capacity = max (s.evict (hashKey k)).capacityEntries 1
    rw [EmbeddingCache.evict_capacityEntries, h.capacity]
  · have hlen := huse.len_eq hinj
    simp only [EmbeddingCache.handle, EmbeddingCache.touch, Reference.handle,
      EmbeddingCache.evict_stats, EmbeddingCache.evict_capacityEntries, h.stats]
    exact congrArg (CacheStats.mk (.ofNat m.hits) (.ofNat m.misses) · s.capacityEntries) hlen

theorem invalidate (h : Refines hashKey keys s m) (hinj : Set.InjOn hashKey keys)
    (hk : k ∈ keys) :
    (s.handle hashKey (.invalidate k)).2 = (m.handle s.capacityEntries (.invalidate k)).2 ∧
      Refines hashKey keys (s.handle hashKey (.invalidate k)).1
        (m.handle s.capacityEntries (.invalidate k)).1 := by
  have hmem := h.holds.mem_iff hinj hk
  have herase := h.holds.erase hinj hk
  by_cases hold : hashKey k ∈ s.cache
  · have hany : (m.map.entries.any fun e => e.1 = k) = true := by
      obtain ⟨v, hv⟩ := hmem.1 hold
      exact List.any_eq_true.2 ⟨(k, v), hv, decide_eq_true rfl⟩
    simp only [EmbeddingCache.handle, Reference.handle, if_pos hold, hany]
    refine ⟨trivial, ⟨herase.used, herase.nodup, herase.stored, herase.listed, herase.order⟩,
      h.capacity, ?_⟩
    have hlen := herase.len_eq hinj
    show { s.stats with size := (s.cache.erase (hashKey k)).entries.length } = _
    rw [h.stats]
    exact congrArg (CacheStats.mk (.ofNat m.hits) (.ofNat m.misses) · s.capacityEntries) hlen
  · have hnew : ∀ e ∈ m.map.entries, e.1 ≠ k := fun e he heq => hold (hmem.2 ⟨e.2, heq ▸ he⟩)
    have hany : (m.map.entries.any fun e => e.1 = k) = false :=
      List.any_eq_false.2 fun e he => by simpa using hnew e he
    have hsame : m.map.erase k = m.map := Lru.erase_of_not_mem hnew
    simp only [EmbeddingCache.handle, Reference.handle, if_neg hold, hany, hsame]
    exact ⟨trivial, h⟩

/-- Both answer a message alike, and the cache still refines the reference. -/
theorem handle (h : Refines hashKey keys s m) (hinj : Set.InjOn hashKey keys)
    (msg : EmbeddingCacheMsg V) (hkeys : ∀ key ∈ msg.key?, key ∈ keys) :
    (s.handle hashKey msg).2 = (m.handle s.capacityEntries msg).2 ∧
      Refines hashKey keys (s.handle hashKey msg).1 (m.handle s.capacityEntries msg).1 := by
  cases msg with
  | get key => exact h.get hinj (hkeys key rfl)
  | insert key value => exact ⟨rfl, h.insert hinj (hkeys key rfl) value⟩
  | invalidate key => exact h.invalidate hinj (hkeys key rfl)
  | stats => exact ⟨congrArg EmbeddingCacheReply.stats h.stats, h⟩

theorem new (capacity : ℕ) :
    Refines hashKey keys (EmbeddingCache.new (V := V) capacity) (Reference.new capacity) where
  holds := ⟨by simp [Reference.new, Lru.empty], List.nodup_nil,
    by simp [Reference.new, Lru.empty], fun _ => Iff.rfl, rfl⟩
  capacity := rfl
  stats := rfl

end Refines

end Refinement

section Results

variable {V : Type}

def EmbeddingCacheMsg.isGet : EmbeddingCacheMsg V → Bool
  | .get _ => true
  | _ => false

/-- Every `Get` is a hit or a miss. -/
theorem Reference.gets_final (capacity : ℕ) (m : Reference V) (msgs : List (EmbeddingCacheMsg V)) :
    ((machine capacity).final m msgs).hits + ((machine capacity).final m msgs).misses =
      m.hits + m.misses + msgs.countP EmbeddingCacheMsg.isGet := by
  induction msgs generalizing m with
  | nil => rfl
  | cons msg msgs ih =>
    have hstep : (m.handle capacity msg).1.hits + (m.handle capacity msg).1.misses =
        m.hits + m.misses + if msg.isGet then 1 else 0 := by
      cases msg with
      | get key =>
        cases hget : m.map.get? key <;>
          simp only [Reference.handle, hget, EmbeddingCacheMsg.isGet, if_true] <;> omega
      | insert => rfl
      | invalidate => rfl
      | stats => rfl
    rw [Machine.final_cons, ih, List.countP_cons]
    show (m.handle capacity msg).1.hits + (m.handle capacity msg).1.misses + _ = _
    omega

/-- The keys some messages are about. -/
def keysOf (msgs : List (EmbeddingCacheMsg V)) : Set Key :=
  {key | ∃ msg ∈ msgs, key ∈ msg.key?}

/-- The cache with what it is a cache for: the reference and the capacity it was made with. -/
theorem refines_final {hashKey : Key → UInt64} (capacity : ℕ) (msgs : List (EmbeddingCacheMsg V))
    (hinj : Set.InjOn hashKey (keysOf msgs)) :
    (EmbeddingCache.machine hashKey).answers (.new capacity) msgs =
        (Reference.machine capacity).answers (.new capacity) msgs ∧
      Refines hashKey (keysOf msgs) ((EmbeddingCache.machine hashKey).final (.new capacity) msgs)
        ((Reference.machine capacity).final (.new capacity) msgs) := by
  have hstep : ∀ (s : EmbeddingCache V) (m : Reference V) (msg : EmbeddingCacheMsg V),
      (∀ key ∈ msg.key?, key ∈ keysOf msgs) →
      Refines hashKey (keysOf msgs) s m ∧ s.capacityEntries = capacity →
      (s.handle hashKey msg).2 = (m.handle capacity msg).2 ∧
        Refines hashKey (keysOf msgs) (s.handle hashKey msg).1 (m.handle capacity msg).1 ∧
        (s.handle hashKey msg).1.capacityEntries = capacity := by
    rintro s m msg hkeys ⟨h, rfl⟩
    obtain ⟨hsame, hnext⟩ := h.handle hinj msg hkeys
    exact ⟨hsame, hnext, EmbeddingCache.handle_capacityEntries hashKey s msg⟩
  have hkeys : ∀ msg ∈ msgs, ∀ key ∈ msg.key?, key ∈ keysOf msgs := fun msg hmsg key hkey =>
    ⟨msg, hmsg, hkey⟩
  have hnew : Refines (V := V) hashKey (keysOf msgs) (.new capacity) (.new capacity) ∧
      (EmbeddingCache.new (V := V) capacity).capacityEntries = capacity :=
    ⟨Refines.new capacity, rfl⟩
  obtain ⟨hanswers, hfinal, -⟩ := Machine.run_sim (M := EmbeddingCache.machine hashKey)
    (N := Reference.machine capacity)
    (R := fun s m => Refines hashKey (keysOf msgs) s m ∧ s.capacityEntries = capacity)
    hstep hkeys hnew
  exact ⟨hanswers, hfinal⟩

/-- With no two keys under one hash, the cache answers like a map of `max capacity 1` entries that
forgets the least recently used one; after any of the messages its queue lists the hashes of the
cached keys, each once, in the order of that map, and its counters count entries and lookups. -/
theorem embeddingCache_refines (hashKey : Key → UInt64) (capacity : ℕ)
    (msgs : List (EmbeddingCacheMsg V)) (hinj : Set.InjOn hashKey (keysOf msgs)) :
    (EmbeddingCache.machine hashKey).answers (.new capacity) msgs =
        (Reference.machine capacity).answers (.new capacity) msgs ∧
      ∀ before, before <+: msgs →
        let s := (EmbeddingCache.machine hashKey).final (.new capacity) before
        let m := (Reference.machine capacity).final (.new capacity) before
        s.order.Nodup ∧ s.order.Perm s.cache.keys ∧ s.order = hashes hashKey m.map.entries ∧
          s.stats.size = s.len ∧
          s.stats.hits + s.stats.misses = .ofNat (before.countP EmbeddingCacheMsg.isGet) := by
  refine ⟨(refines_final capacity msgs hinj).1, fun before hbefore => ?_⟩
  have hsub : keysOf before ⊆ keysOf msgs := by
    rintro key ⟨msg, hmsg, hkey⟩
    exact ⟨msg, hbefore.subset hmsg, hkey⟩
  have hinj' := hinj.mono hsub
  have h := (refines_final capacity before hinj').2
  refine ⟨h.holds.order_nodup hinj', h.holds.order_perm hinj', h.holds.order, ?_, ?_⟩
  · rw [h.stats]
    exact (h.holds.len_eq hinj').symm
  · rw [h.stats, ← UInt64.ofNat_add, Reference.gets_final capacity _ before]
    simp [Reference.new]

/-- Two keys in a cache with room for one. -/
theorem embeddingCache_refines_two :
    let hashKey : Key → UInt64 := fun key => UInt64.ofNat key.length
    let msgs : List (EmbeddingCacheMsg ℕ) :=
      [.insert [1] 10, .insert [1, 2] 20, .get [1], .get [1, 2], .invalidate [1, 2], .stats]
    Set.InjOn hashKey (keysOf msgs) ∧
      ((EmbeddingCache.machine hashKey).answers (.new 1) msgs =
          (Reference.machine 1).answers (.new 1) msgs ∧
        ∀ before, before <+: msgs →
          let s := (EmbeddingCache.machine hashKey).final (.new 1) before
          let m := (Reference.machine 1).final (.new 1) before
          s.order.Nodup ∧ s.order.Perm s.cache.keys ∧ s.order = hashes hashKey m.map.entries ∧
            s.stats.size = s.len ∧
            s.stats.hits + s.stats.misses = .ofNat (before.countP EmbeddingCacheMsg.isGet)) := by
  intro hashKey msgs
  have hinj : Set.InjOn hashKey (keysOf msgs) := by
    have hkeys : ∀ k ∈ keysOf msgs, k = [1] ∨ k = [1, 2] := by
      rintro k ⟨msg, hmsg, hk⟩
      simp only [msgs, List.mem_cons, List.not_mem_nil, or_false] at hmsg
      rcases hmsg with rfl | rfl | rfl | rfl | rfl | rfl <;>
        simp_all [EmbeddingCacheMsg.key?]
    intro k hk k' hk' heq
    rcases hkeys k hk with rfl | rfl <;> rcases hkeys k' hk' with rfl | rfl
    · rfl
    · exact absurd heq (by decide)
    · exact absurd heq (by decide)
    · rfl
  exact ⟨hinj, embeddingCache_refines hashKey 1 msgs hinj⟩

end Results

end Agents

end AtomrAccel
