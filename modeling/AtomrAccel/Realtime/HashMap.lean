import AtomrAccel.Device.Error
import AtomrAccel.Lib.BoundedMap
import AtomrAccel.Lib.Flat

/-!
# `GpuHashMapActor`

The reference the probe kernels stand against: a map on the CPU that takes batches of keys and values
in flat byte vectors.

* `GpuHashMapActor`, `splitKeys`, `insertLoop`, `handle`: the actor;
* `insertLoop_eq`: the loop over a batch takes the pairs a bounded map takes;
* `handle_insert`, `handle_lookup`: the replies to batches of whole keys;
* `handle_refused`: a refused request changes nothing.
-/

namespace AtomrAccel

namespace Realtime

open Flat BoundedMap

/-- A vector of bytes. -/
abbrev Bytes := List UInt8

/-- The entries of the table. -/
abbrev Table := AList fun _ : Bytes => Bytes

/-- The sizes of the table, its keys and its values. -/
structure GpuHashMapConfig where
  capacity : ℕ
  keySizeBytes : ℕ
  valueSizeBytes : ℕ
  deriving DecidableEq, Repr

/-- What `Stats` answers. -/
structure GpuHashMapStats where
  occupancy : ℕ
  capacity : ℕ
  deriving DecidableEq, Repr

/-- The messages of the actor. -/
inductive GpuHashMapMsg
  | insert (keys values : Bytes)
  | lookup (keys : Bytes)
  | clear
  | stats

/-- What goes back on the reply channels. -/
inductive GpuHashMapReply
  | inserted (r : Except GpuError UInt32)
  | values (r : Except GpuError Bytes)
  | cleared
  | stats (s : GpuHashMapStats)

/-- The actor. -/
structure GpuHashMapActor where
  config : GpuHashMapConfig
  table : Table

namespace GpuHashMapActor

/-- The instance `props` creates. -/
def new (config : GpuHashMapConfig) : GpuHashMapActor := ⟨config, ∅⟩

variable (config : GpuHashMapConfig)

/-- The keys of a batch. -/
def splitKeys (keys : Bytes) : Except GpuError (List Bytes) :=
  if config.keySizeBytes = 0 then
    .error (.unrecoverable "GpuHashMap: key_size_bytes == 0")
  else if keys.length % config.keySizeBytes ≠ 0 then
    .error (.unrecoverable ("GpuHashMap: keys len " ++ toString keys.length ++
      " not multiple of key_size " ++ toString config.keySizeBytes))
  else .ok (chunks config.keySizeBytes keys)

/-- `values[lo..hi]` of the pair `i`. -/
def valueOf (values : Bytes) (i : ℕ) : Bytes :=
  (values.drop (i * config.valueSizeBytes)).take config.valueSizeBytes

/-- The loop of `Insert`, from the pair `i` on. -/
def insertLoop (values : Bytes) : ℕ → List Bytes → Table → UInt32 → Table × UInt32
  | _, [], table, inserted => (table, inserted)
  | i, k :: ks, table, inserted =>
    if config.capacity ≤ table.keys.length ∧ k ∉ table then (table, inserted)
    else insertLoop values (i + 1) ks (table.insert k (valueOf config values i)) (inserted + 1)

/-- What `Lookup` appends for a key. -/
def found (table : Table) (k : Bytes) : Bytes :=
  match table.lookup k with
  | some v => v
  | none => List.replicate config.valueSizeBytes 0

/-- `handle_msg`. -/
def handle (s : GpuHashMapActor) : GpuHashMapMsg → GpuHashMapActor × GpuHashMapReply
  | .insert keys values =>
    match splitKeys s.config keys with
    | .error e => (s, .inserted (.error e))
    | .ok keyChunks =>
      if values.length ≠ keyChunks.length * s.config.valueSizeBytes then
        (s, .inserted (.error (.unrecoverable ("GpuHashMap::Insert: values len " ++
          toString values.length ++ " != " ++ toString keyChunks.length ++ " × value_size " ++
          toString s.config.valueSizeBytes))))
      else
        let (table, inserted) := insertLoop s.config values 0 keyChunks s.table 0
        ({ s with table }, .inserted (.ok inserted))
  | .lookup keys =>
    match splitKeys s.config keys with
    | .error e => (s, .values (.error e))
    | .ok keyChunks => (s, .values (.ok (keyChunks.flatMap (found s.config s.table))))
  | .clear => ({ s with table := ∅ }, .cleared)
  | .stats => (s, .stats ⟨s.table.keys.length, s.config.capacity⟩)

end GpuHashMapActor

/-- The error of a refused request. -/
def GpuHashMapReply.error? : GpuHashMapReply → Option GpuError
  | .inserted (.error e) | .values (.error e) => some e
  | _ => none

namespace GpuHashMapActor

variable {config : GpuHashMapConfig} {keys values : Bytes} {n : ℕ}

/-- A refused request changes nothing. -/
theorem handle_refused {s : GpuHashMapActor} {msg : GpuHashMapMsg} {e : GpuError}
    (h : (s.handle msg).2.error? = some e) : (s.handle msg).1 = s := by
  cases msg with
  | insert keys values =>
    simp only [handle] at h ⊢
    cases hsplit : splitKeys s.config keys with
    | error e' => rfl
    | ok keyChunks =>
      simp only [hsplit] at h ⊢
      by_cases hlen : values.length ≠ keyChunks.length * s.config.valueSizeBytes
      · rw [if_pos hlen]
      · rw [if_neg hlen] at h
        cases h
  | lookup keys =>
    simp only [handle]
    cases hsplit : splitKeys s.config keys <;> rfl
  | clear => cases h
  | stats => rfl

theorem splitKeys_eq (hpos : 0 < config.keySizeBytes)
    (hkeys : keys.length = n * config.keySizeBytes) :
    splitKeys config keys =
      .ok ((List.range n).map (record (ofList keys 0) config.keySizeBytes)) := by
  rw [splitKeys, if_neg hpos.ne', if_neg, chunks_eq hpos hkeys]
  rw [hkeys, Nat.mul_mod_left]
  exact fun h => h rfl

/-- The pair `q` of a batch. -/
def pair (config : GpuHashMapConfig) (keys values : Bytes) (q : ℕ) : Bytes × Bytes :=
  (record (ofList keys 0) config.keySizeBytes q, record (ofList values 0) config.valueSizeBytes q)

/-- The loop takes the pairs a bounded map takes. -/
theorem insertLoop_eq (hvalues : values.length = n * config.valueSizeBytes) {i m : ℕ}
    (hm : i + m ≤ n) (table : Table) (inserted : UInt32) :
    insertLoop config values i
        ((List.range' i m).map (record (ofList keys 0) config.keySizeBytes)) table inserted =
      ((fill config.capacity table ((List.range' i m).map (pair config keys values))).1,
        inserted +
          UInt32.ofNat
            (fill config.capacity table ((List.range' i m).map (pair config keys values))).2) := by
  induction m generalizing i table inserted with
  | zero => exact Prod.ext rfl (UInt32.add_zero _).symm
  | succ m ih =>
    have hvalue : valueOf config values i = record (ofList values 0) config.valueSizeBytes i :=
      (record_ofList (record_le hvalues (by omega))).symm
    rw [List.range'_succ, List.map_cons, List.map_cons, insertLoop, pair, fill, ← hvalue]
    by_cases hroom : config.capacity ≤ table.keys.length ∧
        record (ofList keys 0) config.keySizeBytes i ∉ table
    · rw [if_pos hroom, if_pos hroom]
      exact Prod.ext rfl (UInt32.add_zero _).symm
    · rw [if_neg hroom, if_neg hroom, ih (by omega)]
      refine Prod.ext rfl ?_
      show inserted + 1 + UInt32.ofNat _ = inserted + UInt32.ofNat (_ + 1)
      rw [UInt32.ofNat_add, UInt32.add_assoc, UInt32.add_comm 1]
      rfl

theorem handle_insert {s : GpuHashMapActor} (hpos : 0 < s.config.keySizeBytes)
    (hkeys : keys.length = n * s.config.keySizeBytes)
    (hvalues : values.length = n * s.config.valueSizeBytes) :
    s.handle (.insert keys values) =
      ({ s with table := (fill s.config.capacity s.table
          ((List.range n).map (pair s.config keys values))).1 },
        .inserted (.ok (UInt32.ofNat (fill s.config.capacity s.table
          ((List.range n).map (pair s.config keys values))).2))) := by
  have hlen : ¬ values.length ≠
      ((List.range n).map (record (ofList keys 0) s.config.keySizeBytes)).length *
        s.config.valueSizeBytes := by
    rw [List.length_map, List.length_range]
    exact fun h => h hvalues
  simp only [handle, splitKeys_eq hpos hkeys]
  rw [if_neg hlen, List.range_eq_range', insertLoop_eq hvalues (Nat.zero_add n).le, UInt32.zero_add]

theorem handle_lookup {s : GpuHashMapActor} (hpos : 0 < s.config.keySizeBytes)
    (hkeys : keys.length = n * s.config.keySizeBytes) :
    s.handle (.lookup keys) = (s, .values (.ok ((List.range n).flatMap fun q =>
      found s.config s.table (record (ofList keys 0) s.config.keySizeBytes q)))) := by
  simp only [handle, splitKeys_eq hpos hkeys, List.flatMap_map]

end GpuHashMapActor

end Realtime

end AtomrAccel
