import AtomrAccel.Lib.Reactive
import AtomrAccel.Realtime.HashMap
import AtomrAccel.Realtime.HashmapProbe

/-!
# The probe kernels against `GpuHashMapActor`

Both take the same batches, from an empty table on.  The loop of the actor is left at the first key
that has no room, while every thread of `hashmap_insert` looks for a slot of its own; so a key that is
in the table, behind one that has no room, is written over and counted by the kernel alone.

* `Batch`, `Observation`, `cpu`, `gpu`: the batches, what is seen of them, and the two sides;
* `Agree`: the buffers hold what the map does;
* `Agree.lookup`, `Agree.insert`: one batch on both sides;
* `hashmap_agrees_iff`: the answers to a sequence of batches are the same exactly when every batch is
  settled;
* `mixedBatch`: a batch that is not.
-/

namespace AtomrAccel

namespace Realtime

open Flat Probing BoundedMap Reactive

/-- The arguments of a launch that stands against the actor, which refuses an empty key. -/
structure ProbeArgs extends LaunchArgs where
  keySize_pos : 0 < keySize

instance : Coe ProbeArgs LaunchArgs := ⟨ProbeArgs.toLaunchArgs⟩

/-- A batch of whole keys.  The number of queries is an `int`. -/
inductive Batch (a : ProbeArgs)
  | insert (n : ℕ) (keys values : Bytes) (hn : n < 2 ^ 31)
      (hkeys : keys.length = n * a.keySize) (hvalues : values.length = n * a.valueSize)
  | lookup (n : ℕ) (keys : Bytes) (hn : n < 2 ^ 31) (hkeys : keys.length = n * a.keySize)

/-- What a client sees of a batch. -/
inductive Observation
  | inserted (pairs : ℕ)
  | values (bytes : Bytes)
  | other
  deriving DecidableEq, Repr

/-- What a client sees of a reply. -/
def GpuHashMapReply.observe : GpuHashMapReply → Observation
  | .inserted (.ok n) => .inserted n.toNat
  | .values (.ok bytes) => .values bytes
  | _ => .other

variable (a : ProbeArgs)

/-- The configuration the kernels are launched for. -/
def configOf : GpuHashMapConfig := ⟨a.capacity, a.keySize, a.valueSize⟩

/-- The message of a batch. -/
def Batch.toMsg {a : ProbeArgs} : Batch a → GpuHashMapMsg
  | .insert _ keys values _ _ _ => .insert keys values
  | .lookup _ keys _ _ => .lookup keys

/-- The actor, as a machine for batches. -/
def cpu : Machine GpuHashMapActor (Batch a) Observation where
  step s b :=
    let (s, reply) := s.handle b.toMsg
    (s, reply.observe)

/-- The launches, with some threads past the last query; the statuses of an insertion are counted. -/
def gpu (spare : ℕ) : Machine Device (Batch a) Observation where
  step d
    | .insert n keys values _ _ _ =>
      let d := launch (hashmapInsert a (ofList keys 0) (ofList values 0) n) (n + spare) d
      (d, .inserted ((List.range n).countP fun q => d.outStatus q = 1))
    | .lookup n keys _ _ =>
      let d := launch (hashmapLookup a (ofList keys 0) n) (n + spare) d
      (d, .values (load d.outValues (n * a.valueSize)))

/-- Once a key of an insertion meets a full table it is not in, no later key is in the table. -/
def BatchSettled (s : GpuHashMapActor) : Batch a → Prop
  | .insert _ keys _ _ _ _ =>
    Settled a.capacity s.table.keys.toFinset (chunks a.keySize keys)
  | .lookup _ _ _ _ => True

/-- The buffers of the kernels hold the table of the actor. -/
structure Agree (s : GpuHashMapActor) (d : Device) : Prop where
  config_eq : s.config = configOf a
  live : d.Live a
  represents : Represents a.capacity (homeOf a) (d.table a) s.table

variable {a}

theorem agree_new (d : Device) : Agree a (.new (configOf a)) d.cleared where
  config_eq := rfl
  live := Device.live_cleared
  represents := by
    rw [Device.table_cleared]
    refine ⟨wellPlaced_empty, fun k v => ?_⟩
    refine iff_of_false ?_ ?_
    · rintro ⟨s, hs⟩
      cases hs
    · rw [show (GpuHashMapActor.new (configOf a)).table = ∅ from rfl, AList.lookup_empty]
      exact (Option.some_ne_none v).symm

namespace Agree

variable {s : GpuHashMapActor} {d : Device} {n spare : ℕ} {keys values : Bytes} {hn : n < 2 ^ 31}
  {hkeys : keys.length = n * a.keySize} {hvalues : values.length = n * a.valueSize}

/-- What the kernel looks up is what the actor looks up. -/
theorem orZeros_lookup (h : Agree a s d) (k : Bytes) :
    orZeros a (Probing.lookup (d.table a) k (path a.capacity (homeOf a k))) =
      GpuHashMapActor.found s.config s.table k := by
  rw [h.represents.lookup_eq, orZeros, GpuHashMapActor.found, h.config_eq]
  cases s.table.lookup k <;> rfl

theorem lookup (h : Agree a s d) :
    ((cpu a).step s (.lookup n keys hn hkeys)).2 =
        ((gpu a spare).step d (.lookup n keys hn hkeys)).2 ∧
      Agree a ((cpu a).step s (.lookup n keys hn hkeys)).1
        ((gpu a spare).step d (.lookup n keys hn hkeys)).1 := by
  obtain ⟨config, table⟩ := s
  obtain rfl : config = configOf a := h.config_eq
  have hcpu : (cpu a).step ⟨configOf a, table⟩ (.lookup n keys hn hkeys) =
      (⟨configOf a, table⟩, .values ((List.range n).flatMap fun q =>
        GpuHashMapActor.found (configOf a) table (record (ofList keys 0) a.keySize q))) := by
    have hreply := GpuHashMapActor.handle_lookup (s := ⟨configOf a, table⟩) a.keySize_pos hkeys
    simp only [cpu, Batch.toMsg, hreply]
    rfl
  obtain ⟨htable, hlive, -, hanswers⟩ :=
    lookupLaunch_spec h.live (ofList keys 0) (Nat.le_add_right n spare)
  rw [hcpu]
  constructor
  · show Observation.values _ = Observation.values (load _ _)
    rw [← flatMap_record]
    refine congrArg Observation.values (List.flatMap_congr fun q hq => ?_)
    rw [hanswers q (by rwa [← List.range_eq_range']), h.orZeros_lookup]
  · refine ⟨rfl, hlive, ?_⟩
    show Represents _ _ (Device.table a (launch _ _ d)) _
    rw [htable]
    exact h.represents

theorem insert (h : Agree a s d) :
    (((cpu a).step s (.insert n keys values hn hkeys hvalues)).2 =
        ((gpu a spare).step d (.insert n keys values hn hkeys hvalues)).2 ↔
      BatchSettled a s (.insert n keys values hn hkeys hvalues)) ∧
    (BatchSettled a s (.insert n keys values hn hkeys hvalues) →
      Agree a ((cpu a).step s (.insert n keys values hn hkeys hvalues)).1
        ((gpu a spare).step d (.insert n keys values hn hkeys hvalues)).1) := by
  obtain ⟨config, table⟩ := s
  obtain rfl : config = configOf a := h.config_eq
  let ps := (List.range n).map (GpuHashMapActor.pair (configOf a) keys values)
  have hcpu : (cpu a).step ⟨configOf a, table⟩ (.insert n keys values hn hkeys hvalues) =
      (⟨configOf a, (fill a.capacity table ps).1⟩, .inserted (fill a.capacity table ps).2) := by
    have hreply :=
      GpuHashMapActor.handle_insert (s := ⟨configOf a, table⟩) a.keySize_pos hkeys hvalues
    have hcount :
        (UInt32.ofNat (fill a.capacity table ps).2).toNat = (fill a.capacity table ps).2 := by
      have hle : (fill a.capacity table ps).2 ≤ ps.length := fill_le
      rw [List.length_map, List.length_range] at hle
      rw [UInt32.toNat_ofNat']
      exact Nat.mod_eq_of_lt (by omega)
    simp only [cpu, Batch.toMsg, hreply, GpuHashMapReply.observe]
    exact Prod.ext rfl (congrArg Observation.inserted hcount)
  have hkeysOf : ps.map Prod.fst = chunks a.keySize keys := by
    rw [chunks_eq a.keySize_pos hkeys, List.map_map]
    rfl
  obtain ⟨htable, hlive, -, hcount⟩ :=
    insertLaunch_spec h.live (ofList keys 0) (ofList values 0) (Nat.le_add_right n spare)
  obtain ⟨hsame, hnext⟩ := h.represents.insertAll_iff ps
  rw [hkeysOf] at hsame hnext
  rw [hcpu]
  constructor
  · refine Iff.trans ?_ hsame
    show Observation.inserted _ = Observation.inserted _ ↔ _
    rw [Observation.inserted.injEq, List.range_eq_range', hcount]
    exact eq_comm
  · intro hsettled
    refine ⟨rfl, hlive, ?_⟩
    show Represents _ _ (Device.table a (launch _ _ d)) _
    rw [htable]
    exact hnext hsettled

end Agree

/-- From an empty table on, the two sides answer every batch alike exactly when every batch is
settled. -/
theorem hashmap_agrees_iff (spare : ℕ) (d : Device) (batches : List (Batch a)) :
    (cpu a).answers (.new (configOf a)) batches = (gpu a spare).answers d.cleared batches ↔
      (cpu a).Meets (BatchSettled a) (.new (configOf a)) batches := by
  refine Machine.answers_eq_iff (R := Agree a) ?_ ?_ (agree_new d) batches
  · intro s d b h
    cases b with
    | insert n keys values hn hkeys hvalues => exact h.insert.1
    | lookup n keys hn hkeys => exact iff_of_true h.lookup.1 trivial
  · intro s d b h hsettled
    cases b with
    | insert n keys values hn hkeys hvalues => exact h.insert.2 hsettled
    | lookup n keys hn hkeys => exact h.lookup.2

/-! ### Where they differ -/

def oneSlot : ProbeArgs := ⟨⟨1, 1, 1, 1, by decide, by decide, by decide⟩, by decide⟩

/-- The keys 0, 1 and 0 again. -/
def mixedBatch : Batch oneSlot := .insert 3 [0, 1, 0] [5, 6, 7] (by decide) rfl rfl

/-- The loop ends at the second key. -/
theorem cpu_mixedBatch :
    (cpu oneSlot).answers (.new (configOf oneSlot)) [mixedBatch] = [.inserted 1] := by
  decide +kernel

/-- The third key is written over the first. -/
theorem gpu_mixedBatch (spare : ℕ) (d : Device) :
    (gpu oneSlot spare).answers d.cleared [mixedBatch] = [.inserted 2] := by
  have hpath : ∀ start, path 1 start = [0] := fun start => by
    rw [path, List.range_one, List.map_singleton, Nat.mod_one]
  obtain ⟨-, -, -, hcount⟩ := insertLaunch_spec (a := oneSlot) (Device.live_cleared (d := d))
    (ofList [0, 1, 0] 0) (ofList [5, 6, 7] 0) (Nat.le_add_right 3 spare)
  have hpairs : (List.range 3).map (queryPair oneSlot (ofList [0, 1, 0] 0) (ofList [5, 6, 7] 0)) =
      [([0], [5]), ([1], [6]), ([0], [7])] := rfl
  rw [Device.table_cleared, hpairs] at hcount
  show [Observation.inserted _] = _
  rw [List.range_eq_range', hcount]
  simp [insertAll, Probing.insert, hpath, search, oneSlot]

theorem hashmap_differs :
    ∃ (a : ProbeArgs) (d : Device) (batches : List (Batch a)),
      (cpu a).answers (.new (configOf a)) batches ≠ (gpu a 0).answers d.cleared batches := by
  refine ⟨oneSlot, ⟨fun _ => 0, fun _ => 0, fun _ => 0, fun _ => 0, fun _ => 0⟩, [mixedBatch], ?_⟩
  rw [cpu_mixedBatch, gpu_mixedBatch]
  decide

end Realtime

end AtomrAccel
