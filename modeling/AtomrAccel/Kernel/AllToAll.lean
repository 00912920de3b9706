import AtomrAccel.Kernel.Collective

/-!
# All-to-all exchanges

An exchange opens an NCCL group, sends to and receives from every peer, and closes the group.  A
shard of an `AllToAllv` is checked inside of the open group, and every error leaves the loop at
once.

* `Matched`: every group that was opened is closed;
* `Step`, `attempt`, `Performs`: a part of a dispatcher as a list of calls and ends;
* `matched_phase_iff`: past `group_start` a group is closed exactly when all steps inside complete;
* `Exchange`, `Exchange.Misfit`: the two requests, and a shard that does not fit its buffer in exact
  arithmetic;
* `matched_group_iff`, `fits_of_completes`: the groups of the two, left open by an early return;
* `exchange_sound`: no request gets there, since the handle in the request still shares the receive
  buffer that the dispatcher wants for itself.
-/

namespace AtomrAccel

namespace Collective

open Handler MultiDevice

/-! ### Groups -/

/-- Whether a call moves data between two ranks. -/
def NcclCall.transfers : NcclCall → Bool
  | .send .. | .recv .. => true
  | .allReduce .. | .allGather .. | .reduceScatter .. | .reduce .. | .broadcast .. | .groupStart
  | .groupEnd => false

/-- How many groups are open after some more calls; `none` when one is closed that is not open.  A
`group_start` that fails opens none. -/
def groupDepth (comm : Comm) : List NcclCall → ℕ → List NcclCall → Option ℕ
  | _, depth, [] => some depth
  | before, depth, .groupStart :: calls =>
    groupDepth comm (before ++ [.groupStart])
      (if (comm.call before .groupStart).isOk then depth + 1 else depth) calls
  | before, depth, .groupEnd :: calls =>
    if depth = 0 then none else groupDepth comm (before ++ [.groupEnd]) (depth - 1) calls
  | before, depth, c :: calls => groupDepth comm (before ++ [c]) depth calls

/-- Each successful `group_start` is matched by one `group_end`. -/
def Matched (comm : Comm) (calls : List NcclCall) : Prop := groupDepth comm [] 0 calls = some 0

section Groups

variable {comm : Comm}

theorem groupDepth_append (before a b : List NcclCall) (depth : ℕ) :
    groupDepth comm before depth (a ++ b) =
      (groupDepth comm before depth a).bind fun depth => groupDepth comm (before ++ a) depth b := by
  induction a generalizing before depth with
  | nil => simp [groupDepth]
  | cons c a ih =>
    have hbefore : before ++ c :: a = (before ++ [c]) ++ a := by simp
    rw [List.cons_append, hbefore]
    cases c with
    | groupEnd =>
      simp only [groupDepth]
      split_ifs
      · rfl
      · exact ih _ _
    | _ =>
      simp only [groupDepth]
      exact ih _ _

theorem groupDepth_transfers {calls : List NcclCall} (h : ∀ c ∈ calls, c.transfers = true)
    (before : List NcclCall) (depth : ℕ) : groupDepth comm before depth calls = some depth := by
  induction calls generalizing before with
  | nil => rfl
  | cons c calls ih =>
    obtain ⟨hc, hcalls⟩ := List.forall_mem_cons.1 h
    cases c with
    | send data peer => exact ih hcalls _
    | recv data peer => exact ih hcalls _
    | _ => cases hc

end Groups

/-! ### Dispatchers as lists of steps -/

section Binds

variable {α β : Type}

theorem bind_of_done {x : Nccl α} {a : α} {calls calls' : List NcclCall}
    (hx : x calls = (.ok a, calls')) (f : α → Nccl β) : (x >>= f) calls = f a calls' := by
  show (match x calls with
    | (r, s) => (ExceptT.bindCont f r : StateM (List NcclCall) _) s) = _
  rw [hx]
  rfl

theorem bind_of_stopped {x : Nccl α} {e : Refusal} {calls calls' : List NcclCall}
    (hx : x calls = (.error e, calls')) (f : α → Nccl β) :
    (x >>= f) calls = (.error e, calls') := by
  show (match x calls with
    | (r, s) => (ExceptT.bindCont f r : StateM (List NcclCall) _) s) = _
  rw [hx]
  rfl

end Binds

/-- A call with its label, or an end without one. -/
inductive Step
  | call (label : String) (c : NcclCall)
  | stop (r : Refusal)

/-- The steps up to the first that fails. -/
def attempt (comm : Comm) (calls : List NcclCall) : List Step → Except Refusal Unit × List NcclCall
  | [] => (.ok (), calls)
  | .stop r :: _ => (.error r, calls)
  | .call label c :: steps =>
    match comm.call calls c with
    | .ok () => attempt comm (calls ++ [c]) steps
    | .error e => (.error (.reply (.libraryError "nccl" (label ++ ": " ++ e))), calls ++ [c])

/-- The dispatcher takes these steps. -/
def Performs (comm : Comm) (x : Nccl Unit) (steps : List Step) : Prop :=
  ∀ calls, x calls = attempt comm calls steps

/-- No step ends early, and every call succeeds. -/
def Completes (comm : Comm) (calls : List NcclCall) : List Step → Prop
  | [] => True
  | .stop _ :: _ => False
  | .call _ c :: steps => (comm.call calls c).isOk = true ∧ Completes comm (calls ++ [c]) steps

/-- The steps send and receive only. -/
def Transfers (steps : List Step) : Prop := ∀ label c, .call label c ∈ steps → c.transfers = true

section Steps

variable {comm : Comm} {x y : Nccl Unit} {steps steps' : List Step} {calls : List NcclCall}

theorem attempt_append (calls : List NcclCall) (steps steps' : List Step) :
    attempt comm calls (steps ++ steps') =
      match attempt comm calls steps with
      | (.ok (), calls') => attempt comm calls' steps'
      | (.error e, calls') => (.error e, calls') := by
  induction steps generalizing calls with
  | nil => rfl
  | cons s steps ih =>
    cases s with
    | stop r => rfl
    | call label c =>
      simp only [List.cons_append, attempt]
      cases comm.call calls c with
      | error e => rfl
      | ok u => exact ih _

theorem performs_pure : Performs comm (pure ()) [] := fun _ => rfl

theorem performs_throw (r : Refusal) : Performs comm (throw r) [.stop r] := fun _ => rfl

theorem performs_issue (label : String) (c : NcclCall) :
    Performs comm (issue comm label c) [.call label c] := by
  intro calls
  simp only [issue, attempt]
  cases comm.call calls c <;> rfl

theorem Performs.bind (hx : Performs comm x steps) (hy : Performs comm y steps') :
    Performs comm (x >>= fun _ => y) (steps ++ steps') := by
  intro calls
  rw [attempt_append, ← hx calls]
  cases h : x calls with
  | mk result calls' =>
    cases result with
    | error e => exact bind_of_stopped h _
    | ok u => exact (bind_of_done h _).trans (hy calls')

theorem performs_forM {ι : Type} {f : ι → Nccl Unit} {s : ι → List Step} (l : List ι)
    (h : ∀ i, Performs comm (f i) (s i)) : Performs comm (l.forM f) (l.flatMap s) := by
  induction l with
  | nil => exact performs_pure
  | cons i l ih => exact (h i).bind ih

theorem attempt_of_completes (h : Completes comm calls steps) (ht : Transfers steps) :
    ∃ issued, attempt comm calls steps = (.ok (), calls ++ issued) ∧
      ∀ c ∈ issued, c.transfers = true := by
  induction steps generalizing calls with
  | nil => exact ⟨[], by simp [attempt], nofun⟩
  | cons s steps ih =>
    cases s with
    | stop r => exact h.elim
    | call label c =>
      obtain ⟨hok, hrest⟩ := h
      obtain ⟨issued, hattempt, hissued⟩ :=
        ih hrest fun label' c' hc => ht label' c' (List.mem_cons_of_mem _ hc)
      refine ⟨c :: issued, ?_, ?_⟩
      · simp only [attempt]
        cases hcall : comm.call calls c with
        | error e =>
          rw [hcall] at hok
          cases hok
        | ok u =>
          dsimp only
          rw [hattempt, List.append_assoc]
          rfl
      · exact List.forall_mem_cons.2 ⟨ht label c List.mem_cons_self, hissued⟩

/-- Steps that do not complete end in an error, with the calls before it made. -/
theorem attempt_of_not_completes (h : ¬ Completes comm calls steps) (ht : Transfers steps) :
    ∃ e issued, attempt comm calls steps = (.error e, calls ++ issued) ∧
      ∀ c ∈ issued, c.transfers = true := by
  induction steps generalizing calls with
  | nil => exact absurd trivial h
  | cons s steps ih =>
    cases s with
    | stop r => exact ⟨r, [], by simp [attempt], nofun⟩
    | call label c =>
      have hc : c.transfers = true := ht label c List.mem_cons_self
      simp only [attempt]
      cases hcall : comm.call calls c with
      | error e => exact ⟨_, [c], rfl, by simpa using hc⟩
      | ok u =>
        have hrest : ¬ Completes comm (calls ++ [c]) steps := fun hdone =>
          h ⟨by rw [hcall]; rfl, hdone⟩
        obtain ⟨e, issued, hattempt, hissued⟩ :=
          ih hrest fun label' c' hc' => ht label' c' (List.mem_cons_of_mem _ hc')
        refine ⟨e, c :: issued, ?_, List.forall_mem_cons.2 ⟨hc, hissued⟩⟩
        dsimp only
        rw [hattempt, List.append_assoc]
        rfl

theorem Completes.stop_notMem (h : Completes comm calls steps) (r : Refusal) :
    Step.stop r ∉ steps := by
  induction steps generalizing calls with
  | nil => exact List.not_mem_nil
  | cons s steps ih =>
    cases s with
    | stop r' => exact h.elim
    | call label c =>
      intro hmem
      rcases List.mem_cons.1 hmem with heq | hrest
      · cases heq
      · exact ih h.2 hrest

/-- A group around some steps. -/
def phase (comm : Comm) (x : Nccl Unit) : Nccl Unit := do
  groupStart comm
  x
  groupEnd comm

/-- The calls of a phase: the group is closed exactly when the steps inside complete. -/
theorem matched_phase_iff (hx : Performs comm x steps) (ht : Transfers steps) :
    Matched comm (phase comm x []).2 ↔
      (comm.call [] .groupStart).isOk = false ∨ Completes comm [.groupStart] steps := by
  have hphase : phase comm x [] = attempt comm []
      ([.call "group_start" .groupStart] ++ (steps ++ [.call "group_end" .groupEnd])) :=
    (performs_issue _ _).bind (hx.bind (performs_issue _ _)) []
  rw [hphase, List.singleton_append]
  simp only [attempt, List.nil_append]
  cases hstart : comm.call [] .groupStart with
  | error e =>
    refine iff_of_true ?_ (.inl rfl)
    simp [Matched, groupDepth, hstart, Except.isOk, Except.toBool]
  | ok u =>
    have hopen : ∀ calls, groupDepth comm [] 0 (.groupStart :: calls) =
        groupDepth comm [.groupStart] 1 calls := by
      intro calls
      simp only [groupDepth, hstart]
      rfl
    dsimp only
    rw [attempt_append]
    by_cases hdone : Completes comm [.groupStart] steps
    · obtain ⟨issued, hattempt, hissued⟩ := attempt_of_completes hdone ht
      refine iff_of_true ?_ (.inr hdone)
      rw [hattempt]
      simp only [attempt, Matched]
      have hclosed : groupDepth comm [] 0 ([.groupStart] ++ issued ++ [.groupEnd]) = some 0 := by
        rw [List.append_assoc, List.singleton_append, hopen, groupDepth_append,
          groupDepth_transfers hissued]
        rfl
      cases comm.call ([.groupStart] ++ issued) .groupEnd <;> exact hclosed
    · obtain ⟨e, issued, hattempt, hissued⟩ := attempt_of_not_completes hdone ht
      refine iff_of_false ?_ (not_or.2 ⟨Bool.true_eq_false_eq_False, hdone⟩)
      rw [hattempt]
      simp only [Matched]
      rw [List.singleton_append, hopen, groupDepth_transfers hissued]
      decide

end Steps

/-! ### The two exchanges -/

/-- The steps on a shard; without one the `unwrap` panics. -/
def shardSteps (comm : Comm) (s : CudaSlice) (lo hi : ℕ) (steps : Shard → List Step) :
    List Step :=
  match comm.trySlice s lo hi with
  | some slab => steps slab
  | none => [.stop (.panic "called `Option::unwrap()` on a `None` value")]

/-- A shard is given for a range of the buffer only. -/
def Comm.Slices (comm : Comm) : Prop :=
  ∀ s lo hi slab, comm.trySlice s lo hi = some slab → lo ≤ hi ∧ hi ≤ s.len

/-- What is exchanged with one peer. -/
def AllToAllRequest.steps (comm : Comm) (count : ℕ) (send recv : CudaSlice) (peer : ℕ) :
    List Step :=
  let lo := usize (peer * count)
  let hi := usize ((peer + 1) * count)
  shardSteps comm send lo hi fun sendSlab => shardSteps comm recv lo hi fun recvSlab =>
    [.call ("a2a send to " ++ toString peer) (.send sendSlab (Int32.ofNat peer)),
      .call ("a2a recv from " ++ toString peer) (.recv recvSlab (Int32.ofNat peer))]

namespace AllToAllvRequest

/-- The steps of one direction. -/
def transferSteps (comm : Comm) (s : CudaSlice) (offset count : ℕ) (overrun label : String)
    (call : Shard → NcclCall) : List Step :=
  if 0 < count then
    if s.len < usize (offset + count) then [.stop (.reply (.unrecoverable overrun))]
    else shardSteps comm s offset (usize (offset + count)) fun slab => [.call label (call slab)]
  else []

def steps (comm : Comm) (req : AllToAllvRequest) (send recv : CudaSlice) (peer : ℕ) : List Step :=
  transferSteps comm send (req.sendOffsets.getD peer 0) (req.sendCounts.getD peer 0)
      ("AllToAllv: send shard for peer " ++ toString peer ++ " overruns buffer")
      ("a2av send to " ++ toString peer) (fun slab => .send slab (Int32.ofNat peer)) ++
    transferSteps comm recv (req.recvOffsets.getD peer 0) (req.recvCounts.getD peer 0)
      ("AllToAllv: recv shard from peer " ++ toString peer ++ " overruns buffer")
      ("a2av recv from " ++ toString peer) (fun slab => .recv slab (Int32.ofNat peer))

end AllToAllvRequest

/-- The two requests. -/
inductive Exchange
  | even (req : AllToAllRequest)
  | varied (req : AllToAllvRequest)
  deriving DecidableEq

namespace Exchange

/-- The boxed request. -/
def toDispatch : Exchange → CollectiveDispatch
  | even req => .allToAll req
  | varied req => .allToAllv req

/-- The buffer that is sent from. -/
def send : Exchange → GpuRef
  | even req => req.send
  | varied req => req.send

/-- The buffer that is received into. -/
def recv : Exchange → GpuRef
  | even req => req.recv
  | varied req => req.recv

/-- Offset and count of what goes to a peer. -/
def sendShard : Exchange → ℕ → ℕ × ℕ
  | even req, peer => (peer * req.count, req.count)
  | varied req, peer => (req.sendOffsets.getD peer 0, req.sendCounts.getD peer 0)

/-- Offset and count of what comes from a peer. -/
def recvShard : Exchange → ℕ → ℕ × ℕ
  | even req, peer => (peer * req.count, req.count)
  | varied req, peer => (req.recvOffsets.getD peer 0, req.recvCounts.getD peer 0)

/-- A shard does not fit its buffer, in exact arithmetic. -/
def Misfit (comm : Comm) (x : Exchange) (send recv : CudaSlice) : Prop :=
  ∃ peer < comm.worldSize, send.len < (x.sendShard peer).1 + (x.sendShard peer).2 ∨
    recv.len < (x.recvShard peer).1 + (x.recvShard peer).2

/-- What comes before the group: the buffers, and the checks on the request as a whole. -/
def prepare (comm : Comm) : Exchange → Handler (CudaSlice × CudaSlice)
  | even req => do
    let p ← accessPair req.send req.recv "AllToAll recv buffer has multiple live references"
    let need := usize (comm.worldSize * req.count)
    require (decide (need ≤ p.1.len) && decide (need ≤ p.2.len)) (.unrecoverable
      ("AllToAll: buffer length < world_size (" ++ toString comm.worldSize ++ ") * count (" ++
        toString req.count ++ ")"))
    return p
  | varied req => do
    require (decide (req.sendCounts.length = comm.worldSize) &&
      decide (req.sendOffsets.length = comm.worldSize) &&
      decide (req.recvCounts.length = comm.worldSize) &&
      decide (req.recvOffsets.length = comm.worldSize)) (.unrecoverable
      ("AllToAllv: counts/offsets must each have length world_size (" ++
        toString comm.worldSize ++ ")"))
    accessPair req.send req.recv "AllToAllv recv buffer has multiple live references"

/-- The exchange with one peer. -/
def perPeer (comm : Comm) (send recv : CudaSlice) : Exchange → ℕ → Nccl Unit
  | even req => AllToAllRequest.exchange comm req.count send recv
  | varied req => req.exchange comm send recv

/-- The group. -/
def group (comm : Comm) (send recv : CudaSlice) (x : Exchange) : Nccl Unit :=
  phase comm ((List.range comm.worldSize).forM (x.perPeer comm send recv))

/-- What is exchanged with one peer. -/
def perPeerSteps (comm : Comm) (send recv : CudaSlice) : Exchange → ℕ → List Step
  | even req => AllToAllRequest.steps comm req.count send recv
  | varied req => req.steps comm send recv

/-- The steps inside of the group. -/
def steps (comm : Comm) (send recv : CudaSlice) (x : Exchange) : List Step :=
  (List.range comm.worldSize).flatMap (x.perPeerSteps comm send recv)

end Exchange

section Exchanges

variable {comm : Comm} {x : Exchange} {send recv s : CudaSlice} {h : Heap} {lo hi : ℕ}

theorem toDispatch_dispatch (comm : Comm) (x : Exchange) :
    x.toDispatch.dispatch comm = do
      let p ← x.prepare comm
      return x.group comm p.1 p.2 := by
  cases x with
  | even req =>
    simp only [Exchange.toDispatch, CollectiveDispatch.dispatch, AllToAllRequest.dispatch,
      Exchange.prepare, bind_assoc, pure_bind]
    rfl
  | varied req =>
    simp only [Exchange.toDispatch, CollectiveDispatch.dispatch, AllToAllvRequest.dispatch,
      Exchange.prepare, bind_assoc]
    rfl

theorem performs_shard {f : Shard → Nccl Unit} {steps : Shard → List Step}
    (h : ∀ slab, Performs comm (f slab) (steps slab)) :
    Performs comm (shard comm s lo hi >>= f) (shardSteps comm s lo hi steps) := by
  intro calls
  unfold shard shardSteps
  cases comm.trySlice s lo hi with
  | some slab => exact h slab calls
  | none => rfl

theorem performs_transfer (offset count : ℕ) (overrun label : String) (call : Shard → NcclCall) :
    Performs comm (AllToAllvRequest.transfer comm s offset count overrun label call)
      (AllToAllvRequest.transferSteps comm s offset count overrun label call) := by
  unfold AllToAllvRequest.transfer AllToAllvRequest.transferSteps
  split_ifs
  · exact performs_throw _
  · exact performs_shard fun slab => performs_issue label _
  · exact performs_pure

theorem performs_perPeers (x : Exchange) (send recv : CudaSlice) :
    Performs comm ((List.range comm.worldSize).forM (x.perPeer comm send recv))
      (x.steps comm send recv) := by
  apply performs_forM
  intro peer
  cases x with
  | even req =>
    exact performs_shard fun sendSlab => performs_shard fun recvSlab =>
      (performs_issue _ _).bind (performs_issue _ _)
  | varied req => exact (performs_transfer _ _ _ _ _).bind (performs_transfer _ _ _ _ _)

theorem mem_shardSteps {steps : Shard → List Step} {label : String} {c : NcclCall}
    (hc : Step.call label c ∈ shardSteps comm s lo hi steps) :
    ∃ slab, .call label c ∈ steps slab := by
  unfold shardSteps at hc
  cases hslice : comm.trySlice s lo hi with
  | some slab =>
    rw [hslice] at hc
    exact ⟨slab, hc⟩
  | none =>
    rw [hslice] at hc
    cases List.mem_singleton.1 hc

theorem transfers_transferSteps {offset count : ℕ} {overrun label : String}
    {call : Shard → NcclCall} (hcall : ∀ slab, (call slab).transfers = true) :
    Transfers (AllToAllvRequest.transferSteps comm s offset count overrun label call) := by
  intro l c hc
  unfold AllToAllvRequest.transferSteps at hc
  split_ifs at hc
  · cases List.mem_singleton.1 hc
  · obtain ⟨slab, hslab⟩ := mem_shardSteps hc
    cases List.mem_singleton.1 hslab
    exact hcall slab
  · cases hc

theorem transfers_steps (x : Exchange) (send recv : CudaSlice) :
    Transfers (x.steps comm send recv) := by
  intro l c hc
  obtain ⟨peer, -, hpeer⟩ := List.mem_flatMap.1 hc
  cases x with
  | even req =>
    simp only [Exchange.perPeerSteps, AllToAllRequest.steps] at hpeer
    obtain ⟨sendSlab, hsend⟩ := mem_shardSteps hpeer
    obtain ⟨recvSlab, hrecv⟩ := mem_shardSteps hsend
    rcases List.mem_cons.1 hrecv with heq | hrest
    · cases heq
      rfl
    · cases List.mem_singleton.1 hrest
      rfl
  | varied req =>
    rcases List.mem_append.1 hpeer with hsend | hrecv
    · exact transfers_transferSteps (fun _ => rfl) l c hsend
    · exact transfers_transferSteps (fun _ => rfl) l c hrecv

/-- Past the checks of a request, its group is closed exactly when every step inside completes. -/
theorem matched_group_iff (x : Exchange) (send recv : CudaSlice) :
    Matched comm (x.group comm send recv []).2 ↔
      (comm.call [] .groupStart).isOk = false ∨
        Completes comm [.groupStart] (x.steps comm send recv) :=
  matched_phase_iff (performs_perPeers x send recv) (transfers_steps x send recv)

/-- Steps on a shard that have no end have a range that fits. -/
theorem shardSteps_stop_notMem (hslices : comm.Slices) {steps : Shard → List Step}
    (h : ∀ r, .stop r ∉ shardSteps comm s lo hi steps) :
    lo ≤ hi ∧ hi ≤ s.len ∧ ∃ slab, ∀ r, .stop r ∉ steps slab := by
  unfold shardSteps at h
  cases hslice : comm.trySlice s lo hi with
  | some slab =>
    rw [hslice] at h
    obtain ⟨hle, hlen⟩ := hslices s lo hi slab hslice
    exact ⟨hle, hlen, slab, h⟩
  | none =>
    rw [hslice] at h
    exact absurd (List.mem_singleton.2 rfl) (h _)

/-- A sum that wraps ends before its shard begins. -/
theorem fits_of_range {offset count : ℕ} (hcount : count < 2 ^ 64)
    (hlo : offset ≤ usize (offset + count)) (hhi : usize (offset + count) ≤ s.len) :
    offset + count ≤ s.len := by
  unfold usize at hlo hhi
  omega

theorem fits_of_transferSteps (hslices : comm.Slices) {offset count : ℕ} {overrun label : String}
    {call : Shard → NcclCall} (hcount : count < 2 ^ 64) (hpos : 0 < count)
    (h : ∀ r, .stop r ∉ AllToAllvRequest.transferSteps comm s offset count overrun label call) :
    offset + count ≤ s.len := by
  rw [AllToAllvRequest.transferSteps, if_pos hpos] at h
  split_ifs at h
  · exact absurd (List.mem_singleton.2 rfl) (h _)
  · obtain ⟨hlo, hhi, -⟩ := shardSteps_stop_notMem hslices h
    exact fits_of_range hcount hlo hhi

/-- The shards of an `AllToAll` follow each other, so that none wraps unless an earlier one does. -/
theorem fits_of_even (hslices : comm.Slices) {count n : ℕ} (hsend : send.len < 2 ^ 64)
    (hcount : count < 2 ^ 64)
    (h : ∀ peer < n, ∀ r, .stop r ∉ AllToAllRequest.steps comm count send recv peer) :
    n * count ≤ send.len ∧ n * count ≤ recv.len := by
  induction n with
  | zero => simp
  | succ n ih =>
    have hbefore : n * count ≤ send.len := (ih fun peer hpeer => h peer (Nat.lt_succ_of_lt hpeer)).1
    have hexact : usize (n * count) = n * count :=
      Nat.mod_eq_of_lt (Nat.lt_of_le_of_lt hbefore hsend)
    have hstop := h n (Nat.lt_succ_self n)
    simp only [AllToAllRequest.steps] at hstop
    obtain ⟨hlo, hsendHi, slab, hinner⟩ := shardSteps_stop_notMem hslices hstop
    obtain ⟨-, hrecvHi, -⟩ := shardSteps_stop_notMem hslices hinner
    rw [hexact] at hlo
    rw [Nat.succ_mul] at hlo hsendHi hrecvHi ⊢
    exact ⟨fits_of_range hcount hlo hsendHi, fits_of_range hcount hlo hrecvHi⟩

/-- In a group that completes every shard that is sent or received fits its buffer exactly. -/
theorem fits_of_completes (hslices : comm.Slices) {calls : List NcclCall} (hlen : send.len < 2 ^ 64)
    (hcounts : ∀ peer < comm.worldSize,
      (x.sendShard peer).2 < 2 ^ 64 ∧ (x.recvShard peer).2 < 2 ^ 64)
    (h : Completes comm calls (x.steps comm send recv)) {peer : ℕ} (hpeer : peer < comm.worldSize) :
    (0 < (x.sendShard peer).2 → (x.sendShard peer).1 + (x.sendShard peer).2 ≤ send.len) ∧
      (0 < (x.recvShard peer).2 → (x.recvShard peer).1 + (x.recvShard peer).2 ≤ recv.len) := by
  have hstop : ∀ p < comm.worldSize, ∀ r, .stop r ∉ x.perPeerSteps comm send recv p := by
    intro p hp r hr
    exact h.stop_notMem r (List.mem_flatMap.2 ⟨p, List.mem_range.2 hp, hr⟩)
  obtain ⟨hsendCount, hrecvCount⟩ := hcounts peer hpeer
  cases x with
  | even req =>
    have hshards : (peer + 1) * req.count ≤ send.len ∧ (peer + 1) * req.count ≤ recv.len :=
      fits_of_even hslices hlen hsendCount fun p hp => hstop p (by omega)
    rw [Nat.succ_mul] at hshards
    exact ⟨fun _ => hshards.1, fun _ => hshards.2⟩
  | varied req =>
    have hboth : ∀ r, .stop r ∉ req.steps comm send recv peer := hstop peer hpeer
    exact ⟨fun hpos => fits_of_transferSteps hslices hsendCount hpos fun r hr =>
        hboth r (List.mem_append_left _ hr),
      fun hpos => fits_of_transferSteps hslices hrecvCount hpos fun r hr =>
        hboth r (List.mem_append_right _ hr)⟩

/-- The handle in the request shares the receive buffer, so that the group is never opened. -/
theorem exchange_refused (comm : Comm) (state : DeviceState) (x : Exchange)
    (hsend : x.send ∈ h.refs) (hrecv : x.recv ∈ h.refs) :
    (handle h (.real comm state) (.op x.toDispatch)).Rejected := by
  have halive : ∀ r ∈ x.toDispatch.buffers, r ∈ h.refs := by
    intro r hr
    cases x <;>
    · rcases List.mem_pair.1 hr with rfl | rfl
      · exact hsend
      · exact hrecv
  have hlent : x.toDispatch.lent = none := by cases x <;> rfl
  have hfinish := finish_rejected (dispatch_refused comm x.toDispatch halive hlent)
  exact ⟨hfinish.calls_eq, hfinish.reply⟩

/-- **On every path of an exchange each group that was opened is closed, and a request with a shard
that does not fit has sent and received nothing.** -/
theorem exchange_sound (comm : Comm) (state : DeviceState) (x : Exchange) (h : Heap)
    (hsend : x.send ∈ h.refs) (hrecv : x.recv ∈ h.refs) :
    Matched comm (handle h (.real comm state) (.op x.toDispatch)).calls ∧
      (x.Misfit comm (h.inner x.send).slice (h.inner x.recv).slice →
        ∀ c ∈ (handle h (.real comm state) (.op x.toDispatch)).calls, c.transfers = false) := by
  rw [(exchange_refused comm state x hsend hrecv).calls_eq]
  exact ⟨rfl, fun _ c hc => absurd hc List.not_mem_nil⟩

/-- The second peer's shard ends one element past the send buffer of four. -/
def overrun : Exchange := .varied ⟨0, 1, [2, 3], [0, 2], [2, 2], [0, 2]⟩

theorem overrun_sound :
    overrun.Misfit pair (twoDevices.inner 0).slice (twoDevices.inner 1).slice ∧
      Matched pair (handle twoDevices (.real pair (.new 0)) (.op overrun.toDispatch)).calls ∧
      ∀ c ∈ (handle twoDevices (.real pair (.new 0)) (.op overrun.toDispatch)).calls,
        c.transfers = false := by
  have hsound := exchange_sound pair (.new 0) overrun twoDevices List.mem_cons_self
    (List.mem_cons_of_mem _ List.mem_cons_self)
  have hmisfit : overrun.Misfit pair (twoDevices.inner 0).slice (twoDevices.inner 1).slice :=
    ⟨1, by decide, .inl (by decide)⟩
  exact ⟨hmisfit, hsound.1, hsound.2 hmisfit⟩

/-- Inside of the group the same request would have exchanged the first peer's shards, and left the
group open. -/
theorem overrun_group_open :
    ¬ Matched pair (overrun.group pair ⟨0, 0, 4⟩ ⟨1, 1, 4⟩ []).2 := by
  rw [matched_group_iff]
  rintro (hfails | hdone)
  · cases hfails
  · have hpeer : 1 < pair.worldSize := by decide
    have hslices : pair.Slices := by
      intro s lo hi slab h
      change documentedSlice s lo hi = some slab at h
      unfold documentedSlice at h
      split_ifs at h with hrange
      exact hrange
    have hfits := fits_of_completes hslices (by decide) (by decide) hdone hpeer
    exact absurd (hfits.1 (by decide)) (by decide)

end Exchanges

end Collective

end AtomrAccel
