import AtomrAccel.Device.WriteRequest
import AtomrAccel.Lib.Transition

/-!
# Peer access: `CanAccess` against `CopyF32`

`EnableAll` fills the edge matrix, with a true diagonal for the devices that had a context.
`CanAccess` looks a pair up with a default and answers `true` for a device and itself; the gate of
`CopyF32` indexes the same matrix directly.

* `Driver`, `enableAll`, `refreshDevice`, `canAccess`: the handlers that touch the matrix;
* `Peers`, `system`: the actor between its messages, and its runs;
* `gate`, `afterGate`, `copyF32_eq`: the peer-access gate of a copy and what follows it;
* `CopyAnswered`: a copy is answered once, and its gate agrees with `CanAccess`;
* `Known`, `Inv`: what the matrix of an enabled topology looks like;
* `copyAnswered_iff`: in every reachable state, the copies that are answered so.
-/

namespace AtomrAccel

namespace P2p

/-- What the CUDA driver answers about peers; `none` is a panic, when it cannot be loaded. -/
structure Driver where
  canAccessPeer : ℕ → ℕ → Option Bool
  bindToThread : ℕ → Option Unit
  enablePeerAccess : ℕ → ℕ → Option Bool

/-- An entry of the edge matrix, when the pair is in bounds. -/
def edgeAt (edges : List (List Bool)) (i j : ℕ) : Option Bool := edges[i]?.bind fun row => row[j]?

/-! ### `EnableAll` and its loops -/

section EnableAll

variable (n : ℕ) (snaps : List (Option CtxId)) (driver : Driver)

/-- The entry the probe finds for a pair. -/
def probeEntry (i j : ℕ) : Option Bool :=
  match snaps[i]?.join with
  | none => some false
  | some _ =>
    if i = j then some true
    else
      match snaps[j]?.join with
      | none => some false
      | some _ => driver.canAccessPeer i j

/-- The probe, up to its first panic. -/
def probeEdges : Option (List (List Bool)) :=
  (List.range n).mapM fun i => (List.range n).mapM fun j => probeEntry snaps driver i j

/-- `edges[i][j] = false`. -/
def clearEdge (edges : List (List Bool)) (i j : ℕ) : List (List Bool) :=
  edges.modify i fun row => row.set j false

/-- One peer of device `i`; the first component is false once the driver has panicked. -/
def enablePeer (i : ℕ) (st : Bool × List (List Bool)) (j : ℕ) : Bool × List (List Bool) :=
  if st.1 = false ∨ i = j ∨ edgeAt st.2 i j ≠ some true then st
  else
    match driver.enablePeerAccess i j with
    | none => (false, st.2)
    | some true => st
    | some false => (true, clearEdge st.2 i j)

/-- The peers of one device. -/
def enableFrom (st : Bool × List (List Bool)) (i : ℕ) : Bool × List (List Bool) :=
  if st.1 = false ∨ snaps[i]?.join = none then st
  else
    match driver.bindToThread i with
    | none => (false, st.2)
    | some () => (List.range n).foldl (enablePeer driver i) st

/-- What the second loop leaves of the probed edges; a panic in it is ignored. -/
def enableEdges (edges : List (List Bool)) : List (List Bool) :=
  ((List.range n).foldl (enableFrom n snaps driver) (true, edges)).2

end EnableAll

/-! ### The actor -/

/-- The actor between its messages, with the answers the last successful `EnableAll` got. -/
structure Peers where
  topology : P2pTopology
  snapshots : List (Option CtxId)
  deriving DecidableEq, Repr

namespace Peers

/-- `props` for `n` devices; the matrix and the contexts are sized by `n as u32`. -/
def props (n : ℕ) : Peers where
  topology := ⟨false, List.replicate (n % 2 ^ 32) (List.replicate (n % 2 ^ 32) false),
    List.replicate (n % 2 ^ 32) none⟩
  snapshots := []

/-- `EnableAll`, once the devices have answered.  With more answers than slots the write of the
contexts panics. -/
def enableAll (n : ℕ) (s : Peers) (snaps : List (Option CtxId)) (driver : Driver) : Peers :=
  if s.topology.contexts.length < snaps.length then
    let contexts := snaps.take s.topology.contexts.length
    { s with topology := { s.topology with contexts := contexts } }
  else
    let contexts := snaps ++ s.topology.contexts.drop snaps.length
    match probeEdges n snaps driver with
    | none => { s with topology := { s.topology with contexts := contexts } }
    | some edges => ⟨⟨true, enableEdges n snaps driver edges, contexts⟩, snaps⟩

/-- The pairs of one device are enabled again. -/
def refreshDevice (n : ℕ) (s : Peers) (deviceIdx : UInt32) (newCtx : Option CtxId) : Peers :=
  if deviceIdx.toNat < n then
    let contexts := s.topology.contexts.set deviceIdx.toNat newCtx
    { s with topology := { s.topology with enabled := false, contexts := contexts } }
  else s

end Peers

/-- The `CanAccess` arm. -/
def canAccess (t : P2pTopology) (fromDevice toDevice : ℕ) : Bool :=
  if fromDevice = toDevice then true else (edgeAt t.edges fromDevice toDevice).getD false

/-- The steps of the actor. -/
inductive AccessLabel
  /-- `EnableAll`, with what the devices and the driver answer -/
  | enableAll (snaps : List (Option CtxId)) (driver : Driver)
  /-- `RefreshDevice`, with what the device answers -/
  | refreshDevice (deviceIdx : UInt32) (newCtx : Option CtxId)
  /-- the supervisor makes a new actor from the props -/
  | restart

/-- The topology of `n` devices; `CanAccess` and `CopyF32` leave its state as it is. -/
def accessSystem (n : ℕ) : Transition.System Peers AccessLabel where
  init := .props n
  step s
    | .enableAll snaps driver => if snaps.length = n then some (s.enableAll n snaps driver) else none
    | .refreshDevice deviceIdx newCtx => some (s.refreshDevice n deviceIdx newCtx)
    | .restart => some (.props n)

/-! ### A copy and its gate -/

open Handler

/-- The checks a copy makes before it looks at contexts. -/
def gate (t : P2pTopology) (req : CopyF32Request) : Handler Unit := do
  require t.enabled (.unrecoverable "P2pTopology: call EnableAll first")
  let paired ← liftM (t.canPair req.srcDevice req.dstDevice)
  require paired (.unrecoverable ("P2pTopology: device " ++ toString req.srcDevice ++
    " cannot peer-access " ++ toString req.dstDevice))

/-- The rest of the arm. -/
def afterGate (env : WriteEnv) (t : P2pTopology) (req : CopyF32Request) : Handler Reply := do
  require (t.context req.srcDevice).isSome (.unrecoverable ("P2pTopology: src device " ++
    toString req.srcDevice ++ " context not available"))
  require (t.context req.dstDevice).isSome (.unrecoverable ("P2pTopology: dst device " ++
    toString req.dstDevice ++ " context not available"))
  let _ ← accessClone req.src
  let dstSlice ← accessClone req.dst
  tryUnwrap dstSlice "P2pCopy: dst has multiple live references"
  orReply (env.newStream.mapError fun e => .libraryError "driver" ("dst new_stream: " ++ e))
  return env.peerCopy.map fun _ => none

theorem copyF32_eq (env : WriteEnv) (t : P2pTopology) (req : CopyF32Request) :
    copyF32 env t req = gate t req >>= fun _ => afterGate env t req := by
  simp only [copyF32, gate, afterGate, bind_assoc]

/-- What the requester of a handled request receives; a panic drops the sender. -/
def repliesOf : Except Refusal (Reply × Heap) → List Reply
  | .ok (reply, _) => [reply]
  | .error (.reply err) => [.error err]
  | .error (.panic _) => []

/-- The copy does not panic and is answered once, and it passes its gate exactly when the topology
is enabled and `CanAccess` says yes. -/
structure CopyAnswered (t : P2pTopology) (env : WriteEnv) (h : Heap) (req : CopyF32Request) :
    Prop where
  noPanic : ∀ text, copyF32 env t req h ≠ .error (.panic text)
  replied : (repliesOf (copyF32 env t req h)).length = 1
  gate_iff : gate t req h = .ok ((), h) ↔
    t.enabled = true ∧ canAccess t req.srcDevice req.dstDevice = true

/-- With the topology enabled, the copy names devices of the fleet, and a copy within a device one
that had a context when the topology was enabled. -/
def Peers.Covers (n : ℕ) (s : Peers) (req : CopyF32Request) : Prop :=
  s.topology.enabled = true → req.srcDevice < n ∧ req.dstDevice < n ∧
    (req.srcDevice = req.dstDevice → (s.snapshots[req.srcDevice]?.join).isSome = true)

/-! ### The matrix of an enabled topology -/

/-- The matrix has an entry for each pair of the fleet, and a true diagonal entry for each device
that had a context. -/
structure Known (n : ℕ) (snaps : List (Option CtxId)) (edges : List (List Bool)) : Prop where
  inBounds : ∀ i j, (edgeAt edges i j).isSome = true ↔ i < n ∧ j < n
  diag : ∀ i < n, edgeAt edges i i = some (snaps[i]?.join).isSome

section Known

variable {n : ℕ} {snaps : List (Option CtxId)} {driver : Driver} {edges : List (List Bool)}
  {i j : ℕ}

/-- The answers of a loop that did not panic. -/
theorem mapM_eq_some_iff {α β : Type} (f : α → Option β) (l : List α) (r : List β) :
    l.mapM f = some r ↔ l.map f = r.map some := by
  induction l generalizing r with
  | nil => cases r <;> simp
  | cons a l ih =>
    cases r with
    | nil => simp [List.mapM_cons, Option.bind_eq_some_iff]
    | cons b r => simp [List.mapM_cons, Option.bind_eq_some_iff, ih]

/-- A loop over `0..n` that did not panic has an answer for each position. -/
theorem answers_of_mapM_range {β : Type} {f : ℕ → Option β} {r : List β}
    (h : (List.range n).mapM f = some r) :
    r.length = n ∧ ∀ i < n, ∃ b, f i = some b ∧ r[i]? = some b := by
  have hmap := (mapM_eq_some_iff f _ r).1 h
  have hlen : r.length = n := by simpa using (congrArg List.length hmap).symm
  refine ⟨hlen, fun i hi => ?_⟩
  have hget : r[i]? = some r[i] := List.getElem?_eq_getElem (hlen ▸ hi)
  have hpos := congrArg (·[i]?) hmap
  simp only [List.getElem?_map, List.getElem?_range hi, hget, Option.map_some,
    Option.some.injEq] at hpos
  exact ⟨_, hpos, hget⟩

theorem edgeAt_eq_some {b : Bool} :
    edgeAt edges i j = some b ↔ ∃ row, edges[i]? = some row ∧ row[j]? = some b :=
  Option.bind_eq_some_iff

theorem known_of_probeEdges (h : probeEdges n snaps driver = some edges) : Known n snaps edges := by
  obtain ⟨hlen, hrows⟩ := answers_of_mapM_range h
  refine ⟨fun i j => ⟨fun hsome => ?_, fun ⟨hi, hj⟩ => ?_⟩, fun i hi => ?_⟩
  · obtain ⟨b, hb⟩ := Option.isSome_iff_exists.1 hsome
    obtain ⟨row, hrow, hcol⟩ := edgeAt_eq_some.1 hb
    have hi : i < n := hlen ▸ (List.getElem?_eq_some_iff.1 hrow).1
    obtain ⟨row', hprobe, hrow'⟩ := hrows i hi
    obtain rfl : row = row' := Option.some.inj (hrow.symm.trans hrow')
    obtain ⟨hwidth, -⟩ := answers_of_mapM_range hprobe
    exact ⟨hi, hwidth ▸ (List.getElem?_eq_some_iff.1 hcol).1⟩
  · obtain ⟨row, hprobe, hrow⟩ := hrows i hi
    obtain ⟨b, -, hcol⟩ := (answers_of_mapM_range hprobe).2 j hj
    exact Option.isSome_iff_exists.2 ⟨b, edgeAt_eq_some.2 ⟨row, hrow, hcol⟩⟩
  · obtain ⟨row, hprobe, hrow⟩ := hrows i hi
    obtain ⟨b, hentry, hcol⟩ := (answers_of_mapM_range hprobe).2 i hi
    rw [edgeAt_eq_some.2 ⟨row, hrow, hcol⟩, ← hentry]
    unfold probeEntry
    cases snaps[i]?.join with
    | none => rfl
    | some c => rw [if_pos rfl]; rfl

/-- Clearing an entry off the diagonal. -/
theorem edgeAt_clearEdge (edges : List (List Bool)) (a b i j : ℕ) :
    edgeAt (clearEdge edges a b) i j =
      if a = i ∧ b = j then (edgeAt edges i j).map fun _ => false else edgeAt edges i j := by
  unfold edgeAt clearEdge
  rw [List.getElem?_modify]
  by_cases hi : a = i
  · subst hi
    cases hrow : edges[a]? with
    | none => simp
    | some row =>
      by_cases hj : b = j
      · subst hj
        simp only [Option.map_eq_map, Option.map_some, Option.bind_some, List.getElem?_set_self',
          and_self, if_true]
        rfl
      · simp [List.getElem?_set_ne hj, hj]
  · simp [hi]

theorem Known.clearEdge (h : Known n snaps edges) (hij : i ≠ j) :
    Known n snaps (clearEdge edges i j) where
  inBounds a b := by
    rw [edgeAt_clearEdge, ← h.inBounds a b]
    by_cases hab : i = a ∧ j = b
    · rw [if_pos hab, Option.isSome_map]
    · rw [if_neg hab]
  diag a ha := by
    rw [edgeAt_clearEdge, if_neg fun hab => hij (hab.1.trans hab.2.symm)]
    exact h.diag a ha

theorem Known.enablePeer {st : Bool × List (List Bool)} (h : Known n snaps st.2) (i j : ℕ) :
    Known n snaps (enablePeer driver i st j).2 := by
  unfold P2p.enablePeer
  by_cases hskip : st.1 = false ∨ i = j ∨ edgeAt st.2 i j ≠ some true
  · rw [if_pos hskip]
    exact h
  · rw [if_neg hskip]
    have hij : i ≠ j := fun heq => hskip (.inr (.inl heq))
    cases driver.enablePeerAccess i j with
    | none => exact h
    | some ok =>
      cases ok with
      | true => exact h
      | false => exact h.clearEdge hij

theorem Known.enableFrom {st : Bool × List (List Bool)} (h : Known n snaps st.2) (i : ℕ) :
    Known n snaps (enableFrom n snaps driver st i).2 := by
  unfold P2p.enableFrom
  by_cases hskip : st.1 = false ∨ snaps[i]?.join = none
  · rw [if_pos hskip]
    exact h
  · rw [if_neg hskip]
    cases driver.bindToThread i with
    | none => exact h
    | some u =>
      show Known n snaps ((List.range n).foldl (P2p.enablePeer driver i) st).2
      exact List.foldlRecOn (List.range n) (P2p.enablePeer driver i) h
        (motive := fun st => Known n snaps st.2) fun st h j _ => h.enablePeer i j

theorem Known.enableEdges (h : Known n snaps edges) :
    Known n snaps (enableEdges n snaps driver edges) :=
  List.foldlRecOn (List.range n) (P2p.enableFrom n snaps driver) (b := (true, edges)) h
    (motive := fun st => Known n snaps st.2) fun _ h i _ => h.enableFrom i

end Known

/-! ### Reachable states -/

namespace Peers

/-- An enabled topology has a slot for each device and the matrix of its last `EnableAll`. -/
structure Inv (n : ℕ) (s : Peers) : Prop where
  contexts : s.topology.contexts.length = n % 2 ^ 32
  known : s.topology.enabled = true → Known n s.snapshots s.topology.edges

variable {n : ℕ} {s s' : Peers}

theorem inv_props (n : ℕ) : (props n).Inv n := ⟨List.length_replicate, nofun⟩

theorem Inv.enableAll (h : s.Inv n) {snaps : List (Option CtxId)} (hsnaps : snaps.length = n)
    (driver : Driver) : (s.enableAll n snaps driver).Inv n := by
  unfold Peers.enableAll
  by_cases hpanic : s.topology.contexts.length < snaps.length
  · rw [if_pos hpanic]
    refine ⟨?_, h.known⟩
    rw [List.length_take, min_eq_left hpanic.le]
    exact h.contexts
  · rw [if_neg hpanic]
    have hlen : (snaps ++ s.topology.contexts.drop snaps.length).length = n % 2 ^ 32 := by
      rw [List.length_append, List.length_drop, ← h.contexts]
      omega
    cases hprobe : probeEdges n snaps driver with
    | none => exact ⟨hlen, h.known⟩
    | some edges => exact ⟨hlen, fun _ => (known_of_probeEdges hprobe).enableEdges⟩

theorem Inv.refreshDevice (h : s.Inv n) (deviceIdx : UInt32) (newCtx : Option CtxId) :
    (s.refreshDevice n deviceIdx newCtx).Inv n := by
  unfold Peers.refreshDevice
  by_cases hidx : deviceIdx.toNat < n
  · rw [if_pos hidx]
    exact ⟨List.length_set.trans h.contexts, nofun⟩
  · rw [if_neg hidx]
    exact h

theorem Inv.step {l : AccessLabel} (h : s.Inv n) (hs : (accessSystem n).step s l = some s') :
    s'.Inv n := by
  cases l with
  | enableAll snaps driver =>
    simp only [accessSystem] at hs
    split_ifs at hs with hsnaps
    cases hs
    exact h.enableAll hsnaps driver
  | refreshDevice deviceIdx newCtx =>
    cases hs
    exact h.refreshDevice deviceIdx newCtx
  | restart =>
    cases hs
    exact inv_props n

end Peers

/-! ### Panics of a copy -/

/-- The handler answers, whatever the heap. -/
def NoPanic {α : Type} (x : Handler α) : Prop := ∀ h text, x h ≠ .error (.panic text)

section NoPanic

variable {α β : Type} {x : Handler α} {f : α → Handler β}

theorem noPanic_pure (a : α) : NoPanic (pure a : Handler α) := by
  intro h text heq
  cases heq

theorem NoPanic.bind (hx : NoPanic x) (hf : ∀ a, NoPanic (f a)) : NoPanic (x >>= f) := by
  intro h text heq
  cases hcase : x h with
  | ok r =>
    obtain ⟨a, h'⟩ := r
    rw [bind_of_ok hcase f] at heq
    exact hf a h' text heq
  | error e =>
    rw [bind_of_error hcase f] at heq
    exact hx h text (Except.error.inj heq ▸ hcase)

theorem noPanic_require (check : Bool) (err : GpuError) : NoPanic (require check err) := by
  intro h text heq
  cases check with
  | true => cases heq
  | false => cases heq

theorem noPanic_orReply (answer : Except GpuError Unit) : NoPanic (orReply answer) := by
  intro h text heq
  cases answer with
  | ok u => cases heq
  | error e => cases heq

theorem noPanic_accessClone (r : GpuRef) : NoPanic (accessClone r) := by
  intro h text heq
  unfold accessClone at heq
  split at heq
  · cases heq
  · cases heq

theorem noPanic_tryUnwrap (s : CudaSlice) (live : String) : NoPanic (tryUnwrap s live) := by
  intro h text heq
  unfold tryUnwrap at heq
  split at heq
  · cases heq
  · cases heq

/-- Past the gate every outcome is a reply. -/
theorem noPanic_afterGate (env : WriteEnv) (t : P2pTopology) (req : CopyF32Request) :
    NoPanic (afterGate env t req) := by
  refine (noPanic_require _ _).bind fun _ => (noPanic_require _ _).bind fun _ => ?_
  refine (noPanic_accessClone _).bind fun _ => (noPanic_accessClone _).bind fun _ => ?_
  refine (noPanic_tryUnwrap _ _).bind fun _ => (noPanic_orReply _).bind fun _ => ?_
  exact noPanic_pure _

end NoPanic

/-- A handled request that does not panic is answered once. -/
theorem length_repliesOf {outcome : Except Refusal (Reply × Heap)}
    (h : ∀ text, outcome ≠ .error (.panic text)) : (repliesOf outcome).length = 1 := by
  match outcome, h with
  | .ok _, _ => rfl
  | .error (.reply _), _ => rfl
  | .error (.panic text), h => exact absurd rfl (h text)

section Gate

variable {t : P2pTopology} {req : CopyF32Request} {env : WriteEnv} {h : Heap}

theorem canPair_of_edgeAt {a b : ℕ} {edge : Bool} (he : edgeAt t.edges a b = some edge) :
    t.canPair a b = .ok edge := by
  obtain ⟨row, hrow, hcol⟩ := edgeAt_eq_some.1 he
  simp [P2pTopology.canPair, hrow, hcol]

/-- Out of bounds, `can_pair` panics. -/
theorem canPair_of_none {a b : ℕ} (he : edgeAt t.edges a b = none) :
    ∃ text, t.canPair a b = .error (.panic text) := by
  unfold P2pTopology.canPair
  cases hrow : t.edges[a]? with
  | none => exact ⟨_, rfl⟩
  | some row =>
    have hcol : row[b]? = none := by simpa [edgeAt, hrow] using he
    simp only [hcol]
    exact ⟨_, rfl⟩

theorem gate_of_disabled (hen : t.enabled = false) :
    gate t req h = .error (.reply (.unrecoverable "P2pTopology: call EnableAll first")) := by
  unfold gate
  rw [hen]
  rfl

/-- With the topology enabled the gate is the edge. -/
theorem gate_of_edgeAt {edge : Bool} (hen : t.enabled = true)
    (he : edgeAt t.edges req.srcDevice req.dstDevice = some edge) :
    gate t req h = require edge (.unrecoverable ("P2pTopology: device " ++
      toString req.srcDevice ++ " cannot peer-access " ++ toString req.dstDevice)) h := by
  unfold gate
  rw [hen, canPair_of_edgeAt he]
  rfl

theorem gate_of_none (hen : t.enabled = true)
    (he : edgeAt t.edges req.srcDevice req.dstDevice = none) :
    ∃ text, gate t req h = .error (.panic text) := by
  obtain ⟨text, htext⟩ := canPair_of_none he
  refine ⟨text, ?_⟩
  unfold gate
  rw [hen, htext]
  rfl

/-- A gate that does not panic leaves a copy that is answered once. -/
theorem copyAnswered_of_gate (hgate : ∀ text, gate t req h ≠ .error (.panic text))
    (hiff : gate t req h = .ok ((), h) ↔
      t.enabled = true ∧ canAccess t req.srcDevice req.dstDevice = true) :
    CopyAnswered t env h req := by
  have hnp : ∀ text, copyF32 env t req h ≠ .error (.panic text) := by
    intro text heq
    rw [copyF32_eq] at heq
    cases hcase : gate t req h with
    | ok r =>
      obtain ⟨u, h'⟩ := r
      rw [bind_of_ok hcase] at heq
      exact noPanic_afterGate env t req h' text heq
    | error e =>
      rw [bind_of_error hcase] at heq
      exact hgate text (Except.error.inj heq ▸ hcase)
  exact ⟨hnp, length_repliesOf hnp, hiff⟩

end Gate

namespace Peers

variable {n : ℕ} {s : Peers} {env : WriteEnv} {h : Heap} {req : CopyF32Request}

theorem copyAnswered_of_covers (hinv : s.Inv n) (hc : s.Covers n req) :
    CopyAnswered s.topology env h req := by
  cases hen : s.topology.enabled with
  | false =>
    have hgate : gate s.topology req h =
        .error (.reply (.unrecoverable "P2pTopology: call EnableAll first")) := gate_of_disabled hen
    refine copyAnswered_of_gate (fun text => ?_) ?_
    · rw [hgate]
      exact nofun
    · rw [hgate, hen]
      exact ⟨nofun, fun hboth => nomatch hboth.1⟩
  | true =>
    obtain ⟨hsrc, hdst, hself⟩ := hc hen
    have hknown := hinv.known hen
    obtain ⟨edge, hedge⟩ := Option.isSome_iff_exists.1 ((hknown.inBounds _ _).2 ⟨hsrc, hdst⟩)
    have hgate := gate_of_edgeAt (h := h) hen hedge
    have hcan : canAccess s.topology req.srcDevice req.dstDevice = edge := by
      unfold canAccess
      by_cases heq : req.srcDevice = req.dstDevice
      · have hdiag := hknown.diag _ hsrc
        rw [hself heq] at hdiag
        rw [← heq, hdiag] at hedge
        rw [if_pos heq]
        exact Option.some.inj hedge
      · rw [if_neg heq, hedge]
        rfl
    rw [hcan.symm] at hgate
    refine copyAnswered_of_gate (fun text => ?_) ?_
    · rw [hgate]
      exact noPanic_require _ _ h text
    · rw [hgate, hen]
      cases canAccess s.topology req.srcDevice req.dstDevice with
      | true => exact ⟨fun _ => ⟨rfl, rfl⟩, fun _ => require_of_true rfl _⟩
      | false => exact ⟨nofun, fun hboth => nomatch hboth.2⟩

theorem covers_of_copyAnswered (hinv : s.Inv n) (ha : CopyAnswered s.topology env h req) :
    s.Covers n req := by
  intro hen
  have hknown := hinv.known hen
  cases hedge : edgeAt s.topology.edges req.srcDevice req.dstDevice with
  | none =>
    obtain ⟨text, hgate⟩ := gate_of_none (h := h) hen hedge
    refine absurd ?_ (ha.noPanic text)
    rw [copyF32_eq]
    exact bind_of_error hgate _
  | some edge =>
    obtain ⟨hsrc, hdst⟩ := (hknown.inBounds _ _).1 (Option.isSome_iff_exists.2 ⟨edge, hedge⟩)
    refine ⟨hsrc, hdst, fun heq => ?_⟩
    -- `CanAccess` says yes to a device and itself, so the diagonal entry has to be true
    have hcan : canAccess s.topology req.srcDevice req.dstDevice = true := if_pos heq
    have hpass := ha.gate_iff.2 ⟨hen, hcan⟩
    rw [gate_of_edgeAt hen hedge] at hpass
    have hdiag := hknown.diag _ hsrc
    rw [← heq, hdiag] at hedge
    cases edge with
    | true => exact Option.some.inj hedge
    | false => cases hpass

end Peers

/-- In every reachable state, a copy is answered once and its gate agrees with `CanAccess` exactly
when, with the topology enabled, it names devices of the fleet and, within one device, one that had
a context at the last `EnableAll`. -/
theorem copyAnswered_iff (n : ℕ) (ls : List AccessLabel) :
    (accessSystem n).Along
      (fun s => ∀ env h req, CopyAnswered s.topology env h req ↔ s.Covers n req)
      (accessSystem n).init ls :=
  Transition.System.along_of_inv
    (fun _ hinv _ _ _ => ⟨Peers.covers_of_copyAnswered hinv, Peers.copyAnswered_of_covers hinv⟩)
    (fun _ _ _ hinv hs => hinv.step hs) (Peers.inv_props n) ls

/-- A driver without peers. -/
def noPeers : Driver := ⟨fun _ _ => some false, fun _ => some (), fun _ _ => some false⟩

/-- One device that had no context yet: `CanAccess` says yes to it and itself and the gate of a copy
says no; a copy that names another device panics. -/
theorem contextless_device_refused :
    ¬ (∀ (n : ℕ) (ls : List AccessLabel),
      (accessSystem n).Along (fun s => ∀ env h req, CopyAnswered s.topology env h req)
        (accessSystem n).init ls) ∧
    ((accessSystem 1).run (.props 1) [.enableAll [none] noPeers]).map (fun s =>
      (s.topology.enabled, canAccess s.topology 0 0, s.topology.canPair 0 0)) =
        some (true, true, .ok false) ∧
    ((accessSystem 1).run (.props 1) [.enableAll [none] noPeers]).map (fun s =>
      (canAccess s.topology 1 1, s.topology.canPair 1 1)) =
        some (true, .error (P2pTopology.outOfBounds 1 1)) := by
  refine ⟨fun hall => ?_, by decide, by decide⟩
  have hlast := (hall 1 [.enableAll [none] noPeers]).last rfl
    WriteRequest.obliging WriteRequest.oneBuffer ⟨0, 0, 0, 0⟩
  have hpass := hlast.gate_iff.2 (by decide)
  cases hpass

end P2p

end AtomrAccel
