import AtomrAccel.Lib.Transition
import AtomrAccel.Device.WriteRequest

/-!
# `kernel::envelope`

`run_kernel` enqueues a kernel and spawns a task that awaits its completion, replies, and then drops
what the kernel uses.  The task takes the end of the await for the end of the kernel.  That is right
when the await says so; an await can also end with an error, though, while the kernel is still
running: a timeout of the poll loop, an event or a callback that cannot be registered, a stream that
cannot be synchronized.

* `CompletionStrategy`: the three strategies and their settings;
* `KernelEnvelope`, `Entry`, `KernelTrace` events: the two entry points;
* `Launch`, `step`: one call with its task, beside the stream that runs the kernel;
* `RepliesOnce`, `KeepsAlive`: one reply, and nothing released before the kernel has finished;
* `Moves`, `moves_of_step`: what one step can do;
* `Patient`, `safe_of_patient`: both hold when no await ends with an error before the kernel has
  finished; the first holds in any case (`repliesOnce_along`).
-/

namespace AtomrAccel

namespace Envelope

/-- Times are in nanoseconds. -/
inductive CompletionStrategy
  | hostFn
  | polled (interval : ℕ) (timeout : Option ℕ)
  | sync
  deriving DecidableEq, Repr

/-- What a trace is told about a kernel. -/
structure KernelInfo where
  opName : String
  library : String
  streamId : UInt64
  dtype : Option String
  deriving DecidableEq, Repr

/-- The calls of a trace. -/
inductive KernelTrace
  | beforeEnqueue (info : KernelInfo)
  | afterEnqueue (info : KernelInfo) (result : Except GpuError Unit)
  | beforeComplete (info : KernelInfo)
  | afterComplete (info : KernelInfo) (result : Except GpuError Unit)

/-- The labels of a kernel. -/
structure KernelEnvelope where
  libTag : String
  opName : String
  dtype : Option String
  /-- whether a `KernelTrace` is attached -/
  trace : Bool
  deriving DecidableEq, Repr

namespace KernelEnvelope

/-- An envelope with nothing but the name of its library. -/
def new (libTag : String) : KernelEnvelope := ⟨libTag, libTag, none, false⟩

/-- What a trace is told about the launch. -/
def info (e : KernelEnvelope) (streamId : UInt64) : KernelInfo :=
  ⟨e.opName, e.libTag, streamId, e.dtype⟩

end KernelEnvelope

/-- The free `run_kernel`, or `KernelEnvelope::run_kernel`. -/
inductive Entry
  | free (libTag : String)
  | envelope (e : KernelEnvelope)
  deriving DecidableEq, Repr

namespace Entry

def libTag : Entry → String
  | free libTag => libTag
  | envelope e => e.libTag

/-- What an attached trace is told; the free function has none. -/
def tell (entry : Entry) (streamId : UInt64) (event : KernelInfo → KernelTrace) :
    List KernelTrace :=
  match entry with
  | free _ => []
  | envelope e => if e.trace then [event (e.info streamId)] else []

end Entry

/-- How far a call has come. -/
inductive LaunchPhase
  | called
  /-- the enqueue has failed and the error is sent -/
  | rejected
  | enqueued
  /-- the callback is registered -/
  | callback
  /-- the event is recorded -/
  | polling
  | resolved (result : Except GpuError Unit)
  | replied
  | ended

namespace LaunchPhase

/-- After a successful enqueue. -/
def Enqueued : LaunchPhase → Prop
  | called | rejected => False
  | enqueued | callback | polling | resolved _ | replied | ended => True

/-- The await has begun and is not over. -/
def Awaiting : LaunchPhase → Prop
  | enqueued | callback | polling => True
  | called | rejected | resolved _ | replied | ended => False

/-- The number of replies sent. -/
def replies : LaunchPhase → ℕ
  | called | enqueued | callback | polling | resolved _ => 0
  | rejected | replied | ended => 1

theorem Awaiting.enqueued {p : LaunchPhase} (h : p.Awaiting) : p.Enqueued := by
  cases p <;> trivial

theorem Awaiting.ne_ended {p : LaunchPhase} (h : p.Awaiting) : p ≠ ended := by
  rintro rfl
  exact h

theorem Awaiting.replies {p : LaunchPhase} (h : p.Awaiting) : p.replies = 0 := by
  cases p <;> trivial

end LaunchPhase

variable {O KA : Type}

/-- A call: what it holds, what it has sent, and whether the kernel has finished on its stream. -/
structure Launch (O KA : Type) where
  phase : LaunchPhase
  keepAlive : Option KA
  output : Option O
  finished : Bool
  replies : List (Except GpuError O)
  trace : List KernelTrace

/-- An outcome of `record_event` under `catch_unwind`. -/
inductive Recorded
  | ok
  | error (e : String)
  | panicked

/-- An outcome of `synchronize` on a blocking thread. -/
inductive Synchronized
  | ok
  | error (e : String)
  | joinError (e : String)

/-- What can happen to a launch. -/
inductive LaunchEvent (KA : Type)
  | enqueue (result : Except GpuError KA)
  /-- the stream is done with the kernel -/
  | kernelFinishes
  | launchHostFunction (result : Except String Unit)
  | callbackFires
  | callbackDropped
  | recordEvent (result : Recorded)
  /-- one turn of the poll loop, with the time since it started -/
  | poll (complete : Bool) (elapsed : ℕ)
  | synchronize (result : Synchronized)
  | reply
  | dropKeepAlive

/-- A call of `run_kernel`. -/
structure Job (O : Type) where
  entry : Entry
  strategy : CompletionStrategy
  streamId : UInt64
  output : O

namespace Job

variable (job : Job O)

/-- The future is ready. -/
def resolve (s : Launch O KA) (result : Except GpuError Unit) : Launch O KA :=
  { s with
    phase := .resolved result
    trace := s.trace ++ job.entry.tell job.streamId (.afterComplete · result) }

/-- The task waits. -/
def wait (s : Launch O KA) (phase : LaunchPhase) : Launch O KA := { s with phase := phase }

/-- The task has started. -/
def spawn (s : Launch O KA) : Launch O KA :=
  { s with trace := s.trace ++ job.entry.tell job.streamId .beforeComplete }

/-- One step of the call, of its task, or of the stream.  An event is complete, a callback runs and
a synchronization succeeds only after the kernel before it on the stream has finished. -/
def step (s : Launch O KA) : LaunchEvent KA → Option (Launch O KA)
  | .enqueue result =>
    match s.phase with
    | .called =>
      let before := job.entry.tell job.streamId .beforeEnqueue
      match result with
      | .ok ka =>
        some { s with
          phase := .enqueued
          keepAlive := some ka
          trace := s.trace ++ before ++ job.entry.tell job.streamId (.afterEnqueue · (.ok ())) }
      | .error e =>
        let annotated := annotateError job.entry.libTag e
        some { s with
          phase := .rejected
          output := none
          replies := s.replies ++ [.error annotated]
          trace := s.trace ++ before ++
            job.entry.tell job.streamId (.afterEnqueue · (.error annotated)) }
    | _ => none
  | .kernelFinishes =>
    match s.phase with
    | .called | .rejected => none
    | _ => some { s with finished := true }
  | .launchHostFunction result =>
    match s.phase, job.strategy with
    | .enqueued, .hostFn =>
      match result with
      | .ok () => some (wait (job.spawn s) .callback)
      | .error e =>
        some (job.resolve (job.spawn s) (.error (.driver ("cuLaunchHostFunc failed: " ++ e))))
    | _, _ => none
  | .callbackFires =>
    match s.phase with
    | .callback => if s.finished then some (job.resolve s (.ok ())) else none
    | _ => none
  | .callbackDropped =>
    match s.phase with
    | .callback =>
      some (job.resolve s (.error (.driver "host-function callback dropped without firing")))
    | _ => none
  | .recordEvent result =>
    match s.phase, job.strategy with
    | .enqueued, .polled _ _ =>
      match result with
      | .ok => some (wait (job.spawn s) .polling)
      | .error e =>
        some (job.resolve (job.spawn s)
          (.error (.libraryError "driver" ("PolledCompletion: record_event: " ++ e))))
      | .panicked =>
        some (job.resolve (job.spawn s)
          (.error (.unrecoverable "PolledCompletion: CUDA driver not loadable")))
    | _, _ => none
  | .poll complete elapsed =>
    match s.phase, job.strategy with
    | .polling, .polled _ timeout =>
      if complete then
        if s.finished then some (job.resolve s (.ok ())) else none
      else
        match timeout with
        | some t => if t ≤ elapsed then some (job.resolve s (.error .timeout)) else some s
        | none => some s
    | _, _ => none
  | .synchronize result =>
    match s.phase, job.strategy with
    | .enqueued, .sync =>
      match result with
      | .ok => if s.finished then some (job.resolve (job.spawn s) (.ok ())) else none
      | .error e =>
        some (job.resolve (job.spawn s) (.error (.driver ("cudaStreamSynchronize: " ++ e))))
      | .joinError e =>
        some (job.resolve (job.spawn s) (.error (.driver ("sync-completion task: " ++ e))))
    | _, _ => none
  | .reply =>
    match s.phase with
    | .resolved (.ok ()) =>
      some { s with
        phase := .replied
        output := none
        replies := s.replies ++ (s.output.toList.map .ok) }
    | .resolved (.error e) =>
      some { s with phase := .replied, replies := s.replies ++ [.error e] }
    | _ => none
  | .dropKeepAlive =>
    match s.phase with
    -- the end of the task drops whatever it still has
    | .replied => some { s with phase := .ended, keepAlive := none, output := none }
    | _ => none

/-- The launch with what can happen to it. -/
def system (KA : Type) : Transition.System (Launch O KA) (LaunchEvent KA) where
  init := ⟨.called, none, some job.output, false, [], []⟩
  step := job.step

/-- One reply is sent, on rejection or once the await is over. -/
def RepliesOnce (s : Launch O KA) : Prop := s.replies.length = s.phase.replies

/-- After a successful enqueue, nothing is released before the kernel has finished. -/
def KeepsAlive (s : Launch O KA) : Prop :=
  s.phase.Enqueued → s.finished = false → s.keepAlive ≠ none ∧ s.output ≠ none

/-- The await does not end with an error before the kernel has finished. -/
def Patient (s : Launch O KA) : LaunchEvent KA → Prop
  | .launchHostFunction (.error _) | .callbackDropped | .recordEvent (.error _)
  | .recordEvent .panicked | .synchronize (.error _) | .synchronize (.joinError _) =>
    s.finished = true
  | .poll false elapsed =>
    (∃ interval t, job.strategy = .polled interval (some t) ∧ t ≤ elapsed) → s.finished = true
  | .enqueue _ | .kernelFinishes | .launchHostFunction (.ok _) | .callbackFires | .recordEvent .ok
  | .poll true _ | .synchronize .ok | .reply | .dropKeepAlive => True

variable {job} {s s' : Launch O KA} {l : LaunchEvent KA}

/-- What a step does. -/
inductive Moves (job : Job O) (s : Launch O KA) (l : LaunchEvent KA) : Launch O KA → Prop
  | accepts (ka : KA) (trace : List KernelTrace) (h : s.phase = .called) :
    Moves job s l { s with phase := .enqueued, keepAlive := some ka, trace }
  | rejects (e : GpuError) (trace : List KernelTrace) (h : s.phase = .called) :
    Moves job s l
      { s with phase := .rejected, output := none, replies := s.replies ++ [.error e], trace }
  | finishes : Moves job s l { s with finished := true }
  | waits (phase : LaunchPhase) (trace : List KernelTrace) (h : s.phase.Awaiting)
      (h' : phase.Awaiting) : Moves job s l { s with phase, trace }
  | resolves (result : Except GpuError Unit) (trace : List KernelTrace) (h : s.phase.Awaiting)
      (hfinished : job.Patient s l → s.finished = true) :
    Moves job s l { s with phase := .resolved result, trace }
  | repliesOk (h : s.phase = .resolved (.ok ())) :
    Moves job s l
      { s with
        phase := .replied, output := none, replies := s.replies ++ s.output.toList.map .ok }
  | repliesError (e : GpuError) (h : s.phase = .resolved (.error e)) :
    Moves job s l { s with phase := .replied, replies := s.replies ++ [.error e] }
  | ends (h : s.phase = .replied) :
    Moves job s l { s with phase := .ended, keepAlive := none, output := none }

theorem moves_launchHostFunction {result : Except String Unit}
    (hstep : job.step s (.launchHostFunction result) = some s') :
    Moves job s (.launchHostFunction result) s' := by
  cases hphase : s.phase <;> cases hstrategy : job.strategy <;>
    simp only [step, hphase, hstrategy, reduceCtorEq] at hstep
  have hawaiting : s.phase.Awaiting := by simp [hphase, LaunchPhase.Awaiting]
  cases result with
  | ok =>
    cases hstep
    exact .waits _ _ hawaiting trivial
  | error e =>
    cases hstep
    exact .resolves _ _ hawaiting id

theorem moves_recordEvent {result : Recorded}
    (hstep : job.step s (.recordEvent result) = some s') :
    Moves job s (.recordEvent result) s' := by
  cases hphase : s.phase <;> cases hstrategy : job.strategy <;>
    simp only [step, hphase, hstrategy, reduceCtorEq] at hstep
  have hawaiting : s.phase.Awaiting := by simp [hphase, LaunchPhase.Awaiting]
  cases result with
  | ok =>
    cases hstep
    exact .waits _ _ hawaiting trivial
  | error e =>
    cases hstep
    exact .resolves _ _ hawaiting id
  | panicked =>
    cases hstep
    exact .resolves _ _ hawaiting id

/-- A turn of the poll loop ends the wait when the event is complete or the time is over. -/
theorem moves_poll {complete : Bool} {elapsed : ℕ}
    (hstep : job.step s (.poll complete elapsed) = some s') :
    Moves job s (.poll complete elapsed) s' := by
  cases hphase : s.phase <;> cases hstrategy : job.strategy <;>
    simp only [step, hphase, hstrategy, reduceCtorEq] at hstep
  rename_i interval timeout
  have hawaiting : s.phase.Awaiting := by simp [hphase, LaunchPhase.Awaiting]
  have hstays : Moves job s (.poll complete elapsed) s :=
    .waits s.phase s.trace hawaiting hawaiting
  cases complete with
  | true =>
    simp only [if_true] at hstep
    split_ifs at hstep with hfinished
    cases hstep
    exact .resolves _ _ hawaiting fun _ => hfinished
  | false =>
    simp only [Bool.false_eq_true, if_false] at hstep
    cases timeout with
    | none =>
      cases hstep
      exact hstays
    | some t =>
      simp only at hstep
      split_ifs at hstep with hlate
      · cases hstep
        exact .resolves _ _ hawaiting fun hpatient => hpatient ⟨interval, t, hstrategy, hlate⟩
      · cases hstep
        exact hstays

theorem moves_synchronize {result : Synchronized}
    (hstep : job.step s (.synchronize result) = some s') :
    Moves job s (.synchronize result) s' := by
  cases hphase : s.phase <;> cases hstrategy : job.strategy <;>
    simp only [step, hphase, hstrategy, reduceCtorEq] at hstep
  have hawaiting : s.phase.Awaiting := by simp [hphase, LaunchPhase.Awaiting]
  cases result with
  | ok =>
    simp only at hstep
    split_ifs at hstep with hfinished
    cases hstep
    exact .resolves _ _ hawaiting fun _ => hfinished
  | error e =>
    cases hstep
    exact .resolves _ _ hawaiting id
  | joinError e =>
    cases hstep
    exact .resolves _ _ hawaiting id

theorem moves_reply (hstep : job.step s .reply = some s') : Moves job s .reply s' := by
  cases hphase : s.phase with
  | resolved result =>
    cases result with
    | ok =>
      simp only [step, hphase] at hstep
      cases hstep
      exact .repliesOk hphase
    | error e =>
      simp only [step, hphase] at hstep
      cases hstep
      exact .repliesError e hphase
  | _ => simp only [step, hphase, reduceCtorEq] at hstep

theorem moves_of_step (hstep : job.step s l = some s') : Moves job s l s' := by
  cases l with
  | enqueue result =>
    cases hphase : s.phase <;> simp only [step, hphase, reduceCtorEq] at hstep
    cases result with
    | ok ka =>
      cases hstep
      exact .accepts ka _ hphase
    | error e =>
      cases hstep
      exact .rejects _ _ hphase
  | kernelFinishes =>
    cases hphase : s.phase <;> simp only [step, hphase, reduceCtorEq] at hstep
    all_goals
      cases hstep
      rw [← hphase]
      exact .finishes
  | launchHostFunction result => exact moves_launchHostFunction hstep
  | callbackFires =>
    cases hphase : s.phase <;> simp only [step, hphase, reduceCtorEq] at hstep
    split_ifs at hstep with hfinished
    cases hstep
    exact .resolves _ _ (by simp [hphase, LaunchPhase.Awaiting]) fun _ => hfinished
  | callbackDropped =>
    cases hphase : s.phase <;> simp only [step, hphase, reduceCtorEq] at hstep
    cases hstep
    exact .resolves _ _ (by simp [hphase, LaunchPhase.Awaiting]) id
  | recordEvent result => exact moves_recordEvent hstep
  | poll complete elapsed => exact moves_poll hstep
  | synchronize result => exact moves_synchronize hstep
  | reply => exact moves_reply hstep
  | dropKeepAlive =>
    cases hphase : s.phase <;> simp only [step, hphase, reduceCtorEq] at hstep
    cases hstep
    exact .ends hphase

/-- What a call still holds before its reply and before the end of its task. -/
structure Accounted (s : Launch O KA) : Prop where
  replies : RepliesOnce s
  output : s.phase.replies = 0 → s.output ≠ none
  keepAlive : s.phase.Enqueued → s.phase ≠ .ended → s.keepAlive ≠ none

theorem accounted_init : Accounted (job.system KA).init where
  replies := rfl
  output _ := Option.some_ne_none _
  keepAlive h := h.elim

/-- Before its reply, a call has sent nothing. -/
theorem Accounted.length_replied (hs : Accounted s) (h : s.phase.replies = 0)
    (reply : Except GpuError O) : (s.replies ++ [reply]).length = 1 := by
  have hnone : s.replies.length = 0 := hs.replies.trans h
  rw [List.length_append, hnone]
  rfl

/-- Until its reply, a task has the keep-alive values. -/
theorem Accounted.keepAlive_of_resolved (hs : Accounted s) {result : Except GpuError Unit}
    (h : s.phase = .resolved result) : s.keepAlive ≠ none :=
  hs.keepAlive (by rw [h]; trivial) (by rw [h]; simp)

theorem accounted_step (hs : Accounted s) (hstep : job.step s l = some s') : Accounted s' := by
  have hreplies : s.replies.length = s.phase.replies := hs.replies
  cases moves_of_step hstep with
  | accepts ka trace h =>
    refine ⟨?_, fun _ => hs.output (by rw [h]; rfl), fun _ _ => Option.some_ne_none ka⟩
    show s.replies.length = 0
    rw [hreplies, h]
    rfl
  | rejects e trace h =>
    have hone := hs.length_replied (by rw [h]; rfl) (.error e)
    exact ⟨hone, fun h₁ => (one_ne_zero h₁).elim, fun h₂ => h₂.elim⟩
  | finishes => exact ⟨hs.replies, hs.output, hs.keepAlive⟩
  | waits phase trace h h' =>
    refine ⟨?_, fun _ => hs.output h.replies, fun _ _ => hs.keepAlive h.enqueued h.ne_ended⟩
    show s.replies.length = phase.replies
    rw [hreplies, h.replies, h'.replies]
  | resolves result trace h hfinished =>
    refine ⟨?_, fun _ => hs.output h.replies, fun _ _ => hs.keepAlive h.enqueued h.ne_ended⟩
    show s.replies.length = 0
    rw [hreplies, h.replies]
  | repliesOk h =>
    have hzero : s.phase.replies = 0 := by rw [h]; rfl
    obtain ⟨output, hsome⟩ := Option.ne_none_iff_exists'.1 (hs.output hzero)
    refine ⟨?_, fun h₁ => (one_ne_zero h₁).elim, fun _ _ => hs.keepAlive_of_resolved h⟩
    show (s.replies ++ s.output.toList.map Except.ok).length = 1
    rw [hsome]
    exact hs.length_replied hzero (.ok output)
  | repliesError e h =>
    have hone := hs.length_replied (by rw [h]; rfl) (.error e)
    exact ⟨hone, fun h₁ => (one_ne_zero h₁).elim, fun _ _ => hs.keepAlive_of_resolved h⟩
  | ends h =>
    refine ⟨?_, fun h₁ => (one_ne_zero h₁).elim, fun _ h₂ => (h₂ rfl).elim⟩
    show s.replies.length = 1
    rw [hreplies, h]
    rfl

/-- One reply at most is sent, and exactly one by the end, however the await goes. -/
theorem repliesOnce_along (job : Job O) (ls : List (LaunchEvent KA)) :
    (job.system KA).Along RepliesOnce (job.system KA).init ls :=
  Transition.System.along_of_inv (I := Accounted) (fun _ h => h.replies)
    (fun _ _ _ => accounted_step) accounted_init ls

/-- A task that is past its await has seen the kernel finish. -/
def Settled (s : Launch O KA) : Prop :=
  s.phase.Enqueued → ¬ s.phase.Awaiting → s.finished = true

theorem settled_step (hs : Settled s) (hpatient : job.Patient s l)
    (hstep : job.step s l = some s') : Settled s' := by
  intro henqueued hover
  cases moves_of_step hstep with
  | accepts ka trace h => exact (hover trivial).elim
  | rejects e trace h => exact henqueued.elim
  | finishes => rfl
  | waits phase trace h h' => exact (hover h').elim
  | resolves result trace h hfinished => exact hfinished hpatient
  | repliesOk h => exact hs (by rw [h]; trivial) (by rw [h]; exact id)
  | repliesError e h => exact hs (by rw [h]; trivial) (by rw [h]; exact id)
  | ends h => exact hs (by rw [h]; trivial) (by rw [h]; exact id)

theorem Accounted.keepsAlive (hs : Accounted s) (hsettled : Settled s) : KeepsAlive s := by
  intro henqueued hrunning
  have hawaiting : s.phase.Awaiting := by
    by_contra hover
    exact absurd (hsettled henqueued hover) (by simp [hrunning])
  exact ⟨hs.keepAlive henqueued hawaiting.ne_ended, hs.output hawaiting.replies⟩

/-- For every entry point, strategy, enqueue outcome and order of steps: one reply is sent, and
nothing is released before the kernel has finished, as long as no await ends with an error before
that. -/
theorem safe_of_patient (job : Job O) {ls : List (LaunchEvent KA)}
    (hpatient : (job.system KA).Meets job.Patient (job.system KA).init ls) :
    (job.system KA).Along (fun s => RepliesOnce s ∧ KeepsAlive s) (job.system KA).init ls :=
  Transition.System.along_of_meets (I := fun s => Accounted s ∧ Settled s)
    (fun _ h => ⟨h.1.replies, h.1.keepsAlive h.2⟩)
    (fun _ _ _ hs hC hstep =>
      ⟨accounted_step hs.1 hstep, settled_step hs.2 hC hstep⟩)
    ⟨accounted_init, fun h => h.elim⟩ hpatient

/-- The condition is sharp: once an await has ended with an error while the kernel runs, the task's
own next steps release the keep-alive values under it. -/
theorem not_keepsAlive_of_impatient {e : GpuError} (h : s.phase = .resolved (.error e))
    (hrunning : s.finished = false) :
    ∃ s', (job.system KA).run s [.reply, .dropKeepAlive] = some s' ∧ ¬ KeepsAlive s' := by
  refine ⟨{ s with
    phase := .ended, keepAlive := none, output := none, replies := s.replies ++ [.error e] }, ?_,
    fun hkeeps => (hkeeps trivial hrunning).1 rfl⟩
  simp [Transition.System.run, system, step, h]

end Job

/-- A poll loop that gives up after 50. -/
def polledJob : Job Unit := ⟨.envelope (.new "cublas"), .polled 10 (some 50), 7, ()⟩

/-- The kernel is done after 30. -/
theorem polledJob_safe :
    (polledJob.system Unit).Along (fun s => Job.RepliesOnce s ∧ Job.KeepsAlive s)
      (polledJob.system Unit).init
      [.enqueue (.ok ()), .recordEvent .ok, .poll false 20, .kernelFinishes, .poll true 30, .reply,
        .dropKeepAlive] := by
  have hpoll : ∀ s : Launch Unit Unit, polledJob.Patient s (.poll false 20) := by
    rintro s ⟨interval, t, hstrategy, ht⟩
    cases hstrategy
    omega
  refine polledJob.safe_of_patient fun _ _ => ⟨trivial, fun _ _ => ⟨trivial, ?_⟩⟩
  refine fun _ _ => ⟨hpoll _, fun _ _ => ⟨trivial, fun _ _ => ⟨trivial, ?_⟩⟩⟩
  exact fun _ _ => ⟨trivial, fun _ _ => ⟨trivial, trivial⟩⟩

/-- The loop gives up, and the keep-alive values go while the kernel is still running. -/
theorem timeout_releases_early :
    ¬ (polledJob.system Unit).Along (fun s => Job.RepliesOnce s ∧ Job.KeepsAlive s)
      (polledJob.system Unit).init
      [.enqueue (.ok ()), .recordEvent .ok, .poll false 50, .reply, .dropKeepAlive] := by
  intro halong
  have hend := (halong.last rfl).2 trivial rfl
  exact hend.1 rfl

end Envelope

end AtomrAccel
