import AtomrAccel.Lib.Delimited

/-!
# Error taxonomy and the supervisor decider

Failures travel up the supervision tree as panic texts, and the supervisor of a `ContextActor`
recognizes them by the tags they contain.

* `GpuError` and its display text;
* `Directive`, `decideStr` (the text decider) and `GpuError.decide` (the typed one);
* `decideStr_contextPoisoned`: a poisoning error restarts whatever its payload says, while the
  text of a failed `expect` carries no tag and escalates;
* `GpuError.Plain`, `decideStr_toText_iff`: the two deciders agree on an error exactly when its
  payload does not carry a tag that is looked for before its own.
-/

namespace AtomrAccel

/-- Marker of a poisoned-context panic. -/
def contextPoisonedTag : String := "ContextPoisoned"

/-- Marker of an allocation failure the supervisor resumes past. -/
def outOfMemoryTag : String := "OutOfMemory"

/-- Marker of a failure that stops the device. -/
def unrecoverableTag : String := "Unrecoverable"

/-- The errors. -/
inductive GpuError
  | contextPoisoned (msg : String)
  | outOfMemory (msg : String)
  | unrecoverable (msg : String)
  | gpuRefStale (msg : String)
  | driver (msg : String)
  | cublas (msg : String)
  | libraryError (lib msg : String)
  | timeout
  deriving DecidableEq, Repr

namespace GpuError

/-- The `Display` text, which `panic_message` hands to the supervisor. -/
def toText : GpuError → String
  | contextPoisoned msg => contextPoisonedTag ++ ": " ++ msg
  | outOfMemory msg => outOfMemoryTag ++ ": " ++ msg
  | unrecoverable msg => unrecoverableTag ++ ": " ++ msg
  | gpuRefStale msg => "GpuRef stale: " ++ msg
  | driver msg => "cudarc driver error: " ++ msg
  | cublas msg => "cudarc cuBLAS error: " ++ msg
  | libraryError lib msg => "cudarc " ++ lib ++ " error: " ++ msg
  | timeout => "ask timed out before GPU completion"

end GpuError

/-- What a supervisor does with a failed child. -/
inductive Directive
  | restart
  | resume
  | stop
  | escalate
  deriving DecidableEq, Repr

/-- `str::contains`. -/
def containsText (text tag : String) : Bool := decide (tag.toList <:+: text.toList)

/-- The panic-text decider: the first tag found decides, and an untagged panic escalates. -/
def decideStr (panicMsg : String) : Directive :=
  if containsText panicMsg contextPoisonedTag then .restart
  else if containsText panicMsg outOfMemoryTag then .resume
  else if containsText panicMsg unrecoverableTag then .stop
  else .escalate

/-- The typed decider of `DeviceSupervisor`. -/
def GpuError.decide : GpuError → Directive
  | .contextPoisoned _ => .restart
  | .outOfMemory _ => .resume
  | .unrecoverable _ => .stop
  | .timeout | .gpuRefStale _ | .driver _ | .libraryError _ _ | .cublas _ => .escalate

theorem containsText_tag_append (tag rest : String) : containsText (tag ++ rest) tag = true := by
  rw [containsText, decide_eq_true_eq, String.toList_append]
  exact ⟨[], rest.toList, rfl⟩

/-- Every text that carries the poisoning tag is answered with a restart. -/
theorem decideStr_of_poisoned {text : String} (h : containsText text contextPoisonedTag = true) :
    decideStr text = .restart := if_pos h

theorem decideStr_poisoned_append (rest : String) :
    decideStr (contextPoisonedTag ++ rest) = .restart :=
  decideStr_of_poisoned (containsText_tag_append _ _)

theorem decideStr_contextPoisoned (msg : String) :
    decideStr (GpuError.contextPoisoned msg).toText = .restart := by
  have htext : (GpuError.contextPoisoned msg).toText = contextPoisonedTag ++ (": " ++ msg) :=
    String.append_assoc
  exact (congrArg decideStr htext).trans (decideStr_poisoned_append _)

/-- A text that carries some tag is not escalated. -/
theorem decideStr_unrecoverable_append (rest : String) :
    decideStr (unrecoverableTag ++ rest) ≠ .escalate := by
  have htag := containsText_tag_append unrecoverableTag rest
  unfold decideStr
  split_ifs <;> simp

/-- The panic of `expect` on a missing stream carries no tag. -/
theorem decideStr_ctx_not_ready : decideStr "ctx not ready" = .escalate := by decide

/-! ### The two deciders -/

theorem not_space_mem_tags :
    ' ' ∉ contextPoisonedTag.toList ∧ ' ' ∉ outOfMemoryTag.toList ∧
      ' ' ∉ unrecoverableTag.toList := by
  decide

/-- A tag without a blank lies on one side of a blank. -/
theorem containsText_space {head tail tag : String} (htag : ' ' ∉ tag.toList) :
    containsText (head ++ " " ++ tail) tag = (containsText head tag || containsText tail tag) := by
  have htext : (head ++ " " ++ tail).toList = head.toList ++ ' ' :: tail.toList := by simp
  simp only [containsText, htext, List.infix_append_cons_iff htag, Bool.decide_or]

/-- What a text decides is settled by the words around a blank. -/
theorem decideStr_space (head tail : String) :
    decideStr (head ++ " " ++ tail) =
      if containsText head contextPoisonedTag || containsText tail contextPoisonedTag then .restart
      else if containsText head outOfMemoryTag || containsText tail outOfMemoryTag then .resume
      else if containsText head unrecoverableTag || containsText tail unrecoverableTag then .stop
      else .escalate := by
  obtain ⟨hpoisoned, hmemory, hfatal⟩ := not_space_mem_tags
  rw [decideStr, containsText_space hpoisoned, containsText_space hmemory,
    containsText_space hfatal]

/-- No tag occurs in the text. -/
def Untagged (text : String) : Prop :=
  containsText text contextPoisonedTag = false ∧ containsText text outOfMemoryTag = false ∧
    containsText text unrecoverableTag = false

instance (text : String) : Decidable (Untagged text) := inferInstanceAs (Decidable (_ ∧ _ ∧ _))

/-- The payload carries no tag that is looked for before the error's own. -/
def GpuError.Plain : GpuError → Prop
  | .contextPoisoned _ | .timeout => True
  | .outOfMemory msg => containsText msg contextPoisonedTag = false
  | .unrecoverable msg =>
    containsText msg contextPoisonedTag = false ∧ containsText msg outOfMemoryTag = false
  | .gpuRefStale msg | .driver msg | .cublas msg => Untagged msg
  | .libraryError lib msg => Untagged lib ∧ Untagged msg

theorem decideStr_eq_escalate_iff {text : String} : decideStr text = .escalate ↔ Untagged text := by
  unfold decideStr Untagged
  cases containsText text contextPoisonedTag <;> cases containsText text outOfMemoryTag <;>
    cases containsText text unrecoverableTag <;> simp

theorem untagged_space_iff {head tail : String} :
    Untagged (head ++ " " ++ tail) ↔ Untagged head ∧ Untagged tail := by
  obtain ⟨hpoisoned, hmemory, hfatal⟩ := not_space_mem_tags
  simp only [Untagged, containsText_space hpoisoned, containsText_space hmemory,
    containsText_space hfatal, Bool.or_eq_false_iff]
  constructor
  · rintro ⟨⟨hhead₁, htail₁⟩, ⟨hhead₂, htail₂⟩, hhead₃, htail₃⟩
    exact ⟨⟨hhead₁, hhead₂, hhead₃⟩, htail₁, htail₂, htail₃⟩
  · rintro ⟨⟨hhead₁, hhead₂, hhead₃⟩, htail₁, htail₂, htail₃⟩
    exact ⟨⟨hhead₁, htail₁⟩, ⟨hhead₂, htail₂⟩, hhead₃, htail₃⟩

theorem untagged_heads :
    Untagged "GpuRef stale:" ∧ Untagged "cudarc driver error:" ∧
      Untagged "cudarc cuBLAS error:" ∧ Untagged "cudarc" ∧ Untagged "error:" ∧
        Untagged "ask timed out before GPU completion" := by
  decide

/-- A payload behind untagged words is escalated when it is untagged itself. -/
theorem decideStr_behind_iff {head msg : String} (hhead : Untagged head) :
    decideStr (head ++ " " ++ msg) = .escalate ↔ Untagged msg := by
  rw [decideStr_eq_escalate_iff, untagged_space_iff]
  exact and_iff_right hhead

/-- The heads of the texts, with the blank they end in apart. -/
theorem heads_split :
    "OutOfMemory: " = "OutOfMemory:" ++ " " ∧ "Unrecoverable: " = "Unrecoverable:" ++ " " ∧
      "GpuRef stale: " = "GpuRef stale:" ++ " " ∧
      "cudarc driver error: " = "cudarc driver error:" ++ " " ∧
      "cudarc cuBLAS error: " = "cudarc cuBLAS error:" ++ " " ∧ "cudarc " = "cudarc" ++ " " ∧
      " error: " = " " ++ ("error:" ++ " ") := by
  decide

theorem decideStr_outOfMemory_iff (msg : String) :
    decideStr (GpuError.outOfMemory msg).toText = .resume ↔
      containsText msg contextPoisonedTag = false := by
  have htext : (GpuError.outOfMemory msg).toText = "OutOfMemory:" ++ " " ++ msg :=
    congrArg (· ++ msg) heads_split.1
  have hhead : containsText "OutOfMemory:" contextPoisonedTag = false ∧
      containsText "OutOfMemory:" outOfMemoryTag = true := by decide
  rw [htext, decideStr_space, hhead.1, hhead.2]
  cases containsText msg contextPoisonedTag <;> simp

theorem decideStr_unrecoverable_iff (msg : String) :
    decideStr (GpuError.unrecoverable msg).toText = .stop ↔
      containsText msg contextPoisonedTag = false ∧ containsText msg outOfMemoryTag = false := by
  have htext : (GpuError.unrecoverable msg).toText = "Unrecoverable:" ++ " " ++ msg :=
    congrArg (· ++ msg) heads_split.2.1
  have hhead : containsText "Unrecoverable:" contextPoisonedTag = false ∧
      containsText "Unrecoverable:" outOfMemoryTag = false ∧
        containsText "Unrecoverable:" unrecoverableTag = true := by decide
  rw [htext, decideStr_space, hhead.1, hhead.2.1, hhead.2.2]
  cases containsText msg contextPoisonedTag <;> cases containsText msg outOfMemoryTag <;> simp

/-- The supervisor decides the same on an error and on its panic text exactly when no tag looked
for before the error's own occurs in the payload. -/
theorem decideStr_toText_iff (e : GpuError) : decideStr e.toText = e.decide ↔ e.Plain := by
  obtain ⟨hstale, hdriver, hcublas, hcudarc, herror, htimeout⟩ := untagged_heads
  obtain ⟨-, -, hstale', hdriver', hcublas', hcudarc', herror'⟩ := heads_split
  cases e with
  | contextPoisoned msg => exact iff_of_true (decideStr_contextPoisoned msg) trivial
  | outOfMemory msg => exact decideStr_outOfMemory_iff msg
  | unrecoverable msg => exact decideStr_unrecoverable_iff msg
  | gpuRefStale msg =>
    have htext : (GpuError.gpuRefStale msg).toText = "GpuRef stale:" ++ " " ++ msg :=
      congrArg (· ++ msg) hstale'
    rw [htext]
    exact decideStr_behind_iff hstale
  | driver msg =>
    have htext : (GpuError.driver msg).toText = "cudarc driver error:" ++ " " ++ msg :=
      congrArg (· ++ msg) hdriver'
    rw [htext]
    exact decideStr_behind_iff hdriver
  | cublas msg =>
    have htext : (GpuError.cublas msg).toText = "cudarc cuBLAS error:" ++ " " ++ msg :=
      congrArg (· ++ msg) hcublas'
    rw [htext]
    exact decideStr_behind_iff hcublas
  | libraryError lib msg =>
    have htext : (GpuError.libraryError lib msg).toText =
        "cudarc" ++ " " ++ (lib ++ " " ++ ("error:" ++ " " ++ msg)) := by
      change "cudarc " ++ lib ++ " error: " ++ msg = _
      rw [hcudarc', herror']
      simp only [String.append_assoc]
    rw [htext]
    refine (decideStr_behind_iff hcudarc).trans ?_
    rw [untagged_space_iff, untagged_space_iff]
    exact and_congr_right fun _ => and_iff_right herror
  | timeout => exact iff_of_true (decideStr_eq_escalate_iff.2 htimeout) trivial

/-- The text of an error can be part of the payload of another: a fatal failure that quotes an
allocation failure is resumed past, and an allocation failure that quotes a poisoned context
restarts it. -/
theorem quoted_errors_change_the_directive :
    ¬ (∀ e : GpuError, decideStr e.toText = e.decide) ∧
    decideStr (GpuError.unrecoverable "world rebuild: OutOfMemory: alloc 1GB").toText = .resume ∧
    (GpuError.unrecoverable "world rebuild: OutOfMemory: alloc 1GB").decide = .stop ∧
    decideStr (GpuError.libraryError "nccl" "OutOfMemory").toText = .resume ∧
    (GpuError.libraryError "nccl" "OutOfMemory").decide = .escalate ∧
    decideStr (GpuError.outOfMemory "ContextPoisoned: cuMemAlloc").toText = .restart ∧
    (GpuError.outOfMemory "ContextPoisoned: cuMemAlloc").decide = .resume := by
  refine ⟨fun hall => ?_, by decide⟩
  exact absurd (hall (.libraryError "nccl" "OutOfMemory")) (by decide)

end AtomrAccel
