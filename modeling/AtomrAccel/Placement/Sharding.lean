import AtomrAccel.Device.DeviceActor
import AtomrAccel.Lib.Numeral

/-!
# `PlacementShardingAdapter`: shards of entities over the fleet

`DeviceExtractor` reduces the hash of an entity id modulo the number of shards; the handler of a
shard reduces the same hash again, modulo the number of devices.

* `DeviceExtractor`, `entityHandler`, `PlacementShardingAdapter`: the adapter;
* `ShardRegion`, `LocalRegion`: what the region of the sharding crate does with a message;
* `ShardsWhole`: the entities of one shard reach one device;
* `Aligned`: the fleet looks the same one shard count further on;
* `shardsWhole_iff`: the shards are whole for every hash exactly when the fleet is aligned, and for
  a fleet of distinct devices exactly when its size divides the number of shards.
-/

namespace AtomrAccel

namespace Placement

/-- A message for a device, with the entity it is about. -/
structure RoutedDeviceMsg where
  entityId : String
  msg : DeviceMsg
  deriving DecidableEq, Repr

/-- The extractor; its count has been clamped to at least one. -/
structure DeviceExtractor where
  shardCount : ℕ
  pos : 0 < shardCount

namespace DeviceExtractor

/-- At least one shard. -/
def new (shardCount : ℕ) : DeviceExtractor := ⟨max shardCount 1, by omega⟩

/-- The entity a message is about. -/
def entityId (_ : DeviceExtractor) (message : RoutedDeviceMsg) : String := message.entityId

/-- `hash` is a fresh `DefaultHasher` run over the id. -/
def shardId (x : DeviceExtractor) (hash : String → UInt64) (message : RoutedDeviceMsg) : String :=
  "shard-" ++ toString ((hash message.entityId).toNat % x.shardCount)

end DeviceExtractor

/-- The handler of a shard, by the messages it tells to devices. -/
abbrev EntityHandler := String → RoutedDeviceMsg → List (ActorRef × DeviceMsg)

/-- The closure each shard gets. -/
def entityHandler (hash : String → UInt64) (devices : List ActorRef) : EntityHandler :=
  fun entityId msg =>
    if h : devices = [] then []
    else
      have hidx : (hash entityId).toNat % devices.length < devices.length :=
        Nat.mod_lt _ (List.length_pos_iff.2 h)
      [(devices[(hash entityId).toNat % devices.length], msg.msg)]

/-- The adapter: how shards are found, and how their handlers are made. -/
structure PlacementShardingAdapter where
  extractor : DeviceExtractor
  /-- makes the handler of a shard -/
  factory : Unit → EntityHandler

/-- The number of shards `start` settles on. -/
def shardTotal (devices : List ActorRef) (shardCount : UInt64) : ℕ :=
  if shardCount = 0 then max devices.length 1 else shardCount.toNat

/-- The adapter for a fleet. -/
def PlacementShardingAdapter.start (hash : String → UInt64) (devices : List ActorRef)
    (shardCount : UInt64) : PlacementShardingAdapter :=
  ⟨.new (shardTotal devices shardCount), fun _ => entityHandler hash devices⟩

/-- A region of the sharding crate, by what a message sent to it makes its handlers tell. -/
abbrev ShardRegion := PlacementShardingAdapter → RoutedDeviceMsg → List (ActorRef × DeviceMsg)

/-- Without a remote forwarder a region hands each message, with its entity id, to a handler it got
from the factory. -/
def LocalRegion (deliver : ShardRegion) : Prop :=
  ∀ adapter msg, deliver adapter msg = adapter.factory () (adapter.extractor.entityId msg) msg

/-- Two messages of one shard are told to one device. -/
def ShardsWhole (deliver : ShardRegion) (hash : String → UInt64) (devices : List ActorRef)
    (shardCount : UInt64) : Prop :=
  let adapter := PlacementShardingAdapter.start hash devices shardCount
  ∀ a b : RoutedDeviceMsg,
    adapter.extractor.shardId hash a = adapter.extractor.shardId hash b →
      ∃ device, deliver adapter a = [(device, a.msg)] ∧ deliver adapter b = [(device, b.msg)]

/-- Hashes that differ by the number of shards choose the same device. -/
def Aligned (devices : List ActorRef) (shards : ℕ) : Prop :=
  ∀ h : ℕ, h + shards < 2 ^ 64 →
    devices[(h + shards) % devices.length]? = devices[h % devices.length]?

section Shards

variable {deliver : ShardRegion} {hash : String → UInt64} {devices : List ActorRef}
  {shardCount : UInt64}

theorem shardTotal_pos (devices : List ActorRef) (shardCount : UInt64) :
    0 < shardTotal devices shardCount := by
  unfold shardTotal
  by_cases hzero : shardCount = 0
  · rw [if_pos hzero]
    omega
  · rw [if_neg hzero]
    exact UInt64.pos_iff_ne_zero.2 hzero

/-- Two messages are in one shard when their hashes agree modulo the number of shards. -/
theorem shardId_eq_iff (x : DeviceExtractor) (a b : RoutedDeviceMsg) :
    x.shardId hash a = x.shardId hash b ↔
      (hash a.entityId).toNat % x.shardCount = (hash b.entityId).toNat % x.shardCount := by
  constructor
  · intro h
    exact Numeral.toString_injective (String.append_right_inj _ |>.1 h)
  · intro h
    unfold DeviceExtractor.shardId
    rw [h]

theorem start_shardCount (hash : String → UInt64) (devices : List ActorRef) (shardCount : UInt64) :
    (PlacementShardingAdapter.start hash devices shardCount).extractor.shardCount =
      shardTotal devices shardCount :=
  max_eq_left (shardTotal_pos devices shardCount)

/-- The device a message is told to. -/
theorem deliver_eq_iff (hlocal : LocalRegion deliver) (hdevices : devices ≠ [])
    (msg : RoutedDeviceMsg) (device : ActorRef) :
    deliver (.start hash devices shardCount) msg = [(device, msg.msg)] ↔
      devices[(hash msg.entityId).toNat % devices.length]? = some device := by
  have hidx : (hash msg.entityId).toNat % devices.length < devices.length :=
    Nat.mod_lt _ (List.length_pos_iff.2 hdevices)
  rw [hlocal, List.getElem?_eq_getElem hidx]
  show entityHandler hash devices msg.entityId msg = _ ↔ _
  unfold entityHandler
  rw [dif_neg hdevices]
  simp

/-- In an aligned fleet, hashes of one residue choose one device. -/
theorem Aligned.eq_of_modEq {shards : ℕ} (hal : Aligned devices shards) {x y : ℕ} (hxy : x ≤ y)
    (hy : y < 2 ^ 64) (hmod : x % shards = y % shards) :
    devices[y % devices.length]? = devices[x % devices.length]? := by
  obtain ⟨k, hk⟩ : shards ∣ y - x := (Nat.modEq_iff_dvd' hxy).1 hmod
  obtain rfl : y = x + shards * k := by omega
  clear hk hmod hxy
  induction k with
  | zero => rfl
  | succ k ih =>
    rw [Nat.mul_succ, ← Nat.add_assoc] at hy ⊢
    rw [hal _ hy]
    exact ih (by omega)

theorem shardsWhole_of_aligned (hlocal : LocalRegion deliver) (hdevices : devices ≠ [])
    (hal : Aligned devices (shardTotal devices shardCount)) :
    ShardsWhole deliver hash devices shardCount := by
  intro a b hshard
  rw [shardId_eq_iff, start_shardCount] at hshard
  have hidx : (hash a.entityId).toNat % devices.length < devices.length :=
    Nat.mod_lt _ (List.length_pos_iff.2 hdevices)
  have hsame : devices[(hash b.entityId).toNat % devices.length]? =
      devices[(hash a.entityId).toNat % devices.length]? := by
    obtain hle | hle := le_total (hash a.entityId).toNat (hash b.entityId).toNat
    · exact hal.eq_of_modEq hle (hash b.entityId).toNat_lt hshard
    · exact (hal.eq_of_modEq hle (hash a.entityId).toNat_lt hshard.symm).symm
  refine ⟨devices[(hash a.entityId).toNat % devices.length], ?_, ?_⟩
  · exact (deliver_eq_iff hlocal hdevices a _).2 (List.getElem?_eq_getElem hidx)
  · exact (deliver_eq_iff hlocal hdevices b _).2 (hsame.trans (List.getElem?_eq_getElem hidx))

/-- A hash function with two given values. -/
def twoHashes (x y : ℕ) (entityId : String) : UInt64 :=
  if entityId = "a" then .ofNat x else .ofNat y

theorem aligned_of_shardsWhole (hlocal : LocalRegion deliver) (hdevices : devices ≠ [])
    (hwhole : ∀ hash, ShardsWhole deliver hash devices shardCount) :
    Aligned devices (shardTotal devices shardCount) := by
  intro h hlt
  have hx : (twoHashes h (h + shardTotal devices shardCount) "a").toNat = h :=
    UInt64.toNat_ofNat_of_lt' (show h < 2 ^ 64 by omega)
  have hy : (twoHashes h (h + shardTotal devices shardCount) "b").toNat =
      h + shardTotal devices shardCount := UInt64.toNat_ofNat_of_lt' hlt
  obtain ⟨device, ha, hb⟩ := hwhole (twoHashes h (h + shardTotal devices shardCount))
    ⟨"a", .contextLost⟩ ⟨"b", .contextLost⟩ (by
      rw [shardId_eq_iff, start_shardCount]
      show (twoHashes _ _ "a").toNat % _ = (twoHashes _ _ "b").toNat % _
      rw [hx, hy, Nat.add_mod_right])
  replace ha := (deliver_eq_iff hlocal hdevices _ _).1 ha
  replace hb := (deliver_eq_iff hlocal hdevices _ _).1 hb
  simp only [hx, hy] at ha hb
  exact hb.trans ha.symm

/-- Distinct devices are aligned when their number divides the number of shards. -/
theorem aligned_iff_dvd (hdevices : devices ≠ []) (hnodup : devices.Nodup) :
    Aligned devices (shardTotal devices shardCount) ↔
      devices.length ∣ shardTotal devices shardCount := by
  have hpos : 0 < devices.length := List.length_pos_iff.2 hdevices
  constructor
  · intro hal
    by_cases hzero : shardCount = 0
    · rw [shardTotal, if_pos hzero, max_eq_left hpos]
    · have hlt : shardTotal devices shardCount < 2 ^ 64 := by
        rw [shardTotal, if_neg hzero]
        exact shardCount.toNat_lt
      have hget := hal 0 (by omega)
      rw [Nat.zero_add, Nat.zero_mod] at hget
      exact Nat.dvd_of_mod_eq_zero
        ((List.getElem?_inj (Nat.mod_lt _ hpos) hnodup).1 hget)
  · intro hdvd h _
    obtain ⟨k, hk⟩ := hdvd
    rw [hk, Nat.add_mul_mod_self_left]

end Shards

/-- Each shard lives on one device, whatever the hash function, exactly when the fleet is aligned
with the number of shards; for distinct devices this says that the size of the fleet divides it. -/
theorem shardsWhole_iff (deliver : ShardRegion) (hlocal : LocalRegion deliver)
    (devices : List ActorRef) (hdevices : devices ≠ []) (shardCount : UInt64) :
    ((∀ hash, ShardsWhole deliver hash devices shardCount) ↔
      Aligned devices (shardTotal devices shardCount)) ∧
    (devices.Nodup → ((∀ hash, ShardsWhole deliver hash devices shardCount) ↔
      devices.length ∣ shardTotal devices shardCount)) := by
  have hiff : (∀ hash, ShardsWhole deliver hash devices shardCount) ↔
      Aligned devices (shardTotal devices shardCount) :=
    ⟨aligned_of_shardsWhole hlocal hdevices,
      fun hal hash => shardsWhole_of_aligned hlocal hdevices hal⟩
  exact ⟨hiff, fun hnodup => hiff.trans (aligned_iff_dvd hdevices hnodup)⟩

/-- A region that runs the handler at once. -/
def directRegion : ShardRegion :=
  fun adapter msg => adapter.factory () (adapter.extractor.entityId msg) msg

/-- Sixteen shards over two devices. -/
theorem sixteen_shards_whole :
    ShardsWhole directRegion (twoHashes 3 19) [10, 11] 16 :=
  ((shardsWhole_iff directRegion (fun _ _ => rfl) [10, 11] (by decide) 16).2 (by decide)).2
    (by decide) (twoHashes 3 19)

/-- Three shards over two devices: the hashes 0 and 3 are in one shard and on two devices. -/
theorem three_shards_split :
    ¬ (∀ deliver, LocalRegion deliver → ∀ devices : List ActorRef, devices ≠ [] →
      ∀ shardCount hash, ShardsWhole deliver hash devices shardCount) ∧
    (PlacementShardingAdapter.start (twoHashes 0 3) [10, 11] 3).extractor.shardId (twoHashes 0 3)
      ⟨"a", .contextLost⟩ = "shard-0" ∧
    (PlacementShardingAdapter.start (twoHashes 0 3) [10, 11] 3).extractor.shardId (twoHashes 0 3)
      ⟨"b", .contextLost⟩ = "shard-0" ∧
    directRegion (.start (twoHashes 0 3) [10, 11] 3) ⟨"a", .contextLost⟩ = [(10, .contextLost)] ∧
    directRegion (.start (twoHashes 0 3) [10, 11] 3) ⟨"b", .contextLost⟩ = [(11, .contextLost)] := by
  refine ⟨fun h => ?_, by decide, by decide, by decide, by decide⟩
  obtain ⟨device, ha, hb⟩ := h directRegion (fun _ _ => rfl) [10, 11] (by decide) 3 (twoHashes 0 3)
    ⟨"a", .contextLost⟩ ⟨"b", .contextLost⟩ (by decide)
  have hten : device = 10 := by
    have heq : [((10 : ActorRef), DeviceMsg.contextLost)] = [(device, .contextLost)] := ha
    simpa using heq.symm
  have heleven : device = 11 := by
    have heq : [((11 : ActorRef), DeviceMsg.contextLost)] = [(device, .contextLost)] := hb
    simpa using heq.symm
  exact absurd (hten.symm.trans heleven) (by decide)

end Placement

end AtomrAccel
