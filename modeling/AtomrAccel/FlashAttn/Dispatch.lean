import AtomrAccel.Lib.Delimited
import AtomrAccel.Lib.Numeral

/-!
# FlashAttention dispatch

A request yields a `DispatchKey`, and the actor resolves the key to the name of a kernel.  There
are three kinds of message with a validator each, but one lookup, which runs the forward validator,
and one way to build a name.

* `DispatchKey`, `validateFwd`, `validateBwd`, `validatePaged`, `kernelName`;
* `DispatchTable.build`, `lookup`, `FlashAttnMsg.resolve`: what the actor makes of a message;
* `lookup_eq`: the table only anticipates the names `kernelName` builds;
* `kernelName_eq_iff`, `eq_of_kernelName_eq`: a name tells the key except for the architecture
  within a generation;
* `resolve_own_kind_iff`: which messages are resolved exactly when their own validator accepts
  them, and which pairs of messages share a kernel.
-/

namespace AtomrAccel

namespace FlashAttn

/-- The architectures. -/
inductive SmArch
  | sm80
  | sm89
  | sm90a
  | sm100
  deriving DecidableEq, Repr

namespace SmArch

/-- Whether kernels of the third generation run there. -/
def supportsFa3 : SmArch → Bool
  | sm90a | sm100 => true
  | sm80 | sm89 => false

/-- Whether eight-bit kernels run there. -/
def supportsFp8 : SmArch → Bool
  | sm90a | sm100 => true
  | sm80 | sm89 => false

end SmArch

/-- The element types. -/
inductive DType
  | f16
  | bf16
  | f8E4m3
  | f8E5m2
  deriving DecidableEq, Repr

namespace DType

/-- Whether a type has eight bits. -/
def isFp8 : DType → Bool
  | f8E4m3 | f8E5m2 => true
  | f16 | bf16 => false

/-- The type in a name. -/
def tag : DType → String
  | f16 => "f16"
  | bf16 => "bf16"
  | f8E4m3 => "e4m3"
  | f8E5m2 => "e5m2"

end DType

/-- What a kernel is chosen by. -/
@[ext] structure DispatchKey where
  arch : SmArch
  dtype : DType
  headDim : UInt32
  causal : Bool
  varlen : Bool
  slidingWindow : Option UInt32
  alibi : Bool
  sink : UInt32
  paged : Bool
  gqaRatio : UInt32
  deriving DecidableEq, Repr

/-- Why a key is refused. -/
inductive DispatchError
  | unsupportedHeadDim (headDim : UInt32)
  | fp8RequiresHopper (arch : SmArch)
  | fp8BackwardUnsupported
  | sinkWithoutMask
  | invalidGqaRatio (ratio : UInt32)
  | zeroWindow
  | pagedFlagNotSet
  deriving DecidableEq, Repr

namespace DispatchKey

/-- `ALLOWED`. -/
def allowedHeadDims : List UInt32 := [64, 80, 96, 128, 192, 256]

/-- The checks of a forward key. -/
def validateFwd (k : DispatchKey) : Except DispatchError Unit :=
  if k.headDim ∉ allowedHeadDims then .error (.unsupportedHeadDim k.headDim)
  else if k.dtype.isFp8 && !k.arch.supportsFp8 then .error (.fp8RequiresHopper k.arch)
  else if 0 < k.sink && k.slidingWindow.isNone && !k.causal then .error .sinkWithoutMask
  else if k.gqaRatio = 0 then .error (.invalidGqaRatio k.gqaRatio)
  else if k.slidingWindow = some 0 then .error .zeroWindow
  else .ok ()

/-- The checks of a backward key, which are more. -/
def validateBwd (k : DispatchKey) : Except DispatchError Unit := do
  k.validateFwd
  if k.dtype.isFp8 then .error .fp8BackwardUnsupported else .ok ()

/-- The checks of a paged key. -/
def validatePaged (k : DispatchKey) : Except DispatchError Unit := do
  k.validateFwd
  if !k.paged then .error .pagedFlagNotSet else .ok ()

/-- The mask in a name. -/
def causalTag (k : DispatchKey) : String := if k.causal then "causal" else "full"

/-- `kind`. -/
def kind (k : DispatchKey) : String := if k.arch.supportsFa3 then "fa3" else "fa2"

/-- What follows the angle brackets. -/
def suffix (k : DispatchKey) : String :=
  (if k.varlen then "_varlen" else "") ++
  (match k.slidingWindow with
    | some w => "_sw" ++ toString w.toNat
    | none => "") ++
  (if k.alibi then "_alibi" else "") ++
  (if 0 < k.sink then "_sink" ++ toString k.sink.toNat else "") ++
  (if k.paged then "_paged" else "") ++
  (if 1 < k.gqaRatio then "_gqa" ++ toString k.gqaRatio.toNat else "")

/-- The name of a forward kernel. -/
def kernelName (k : DispatchKey) : String :=
  "atomr_flashattn::" ++ k.kind ++ "::fwd<" ++ k.dtype.tag ++ ", " ++ toString k.headDim.toNat ++
    ", " ++ k.causalTag ++ ">" ++ k.suffix

end DispatchKey

/-! ### Reading a name back -/

namespace DispatchKey

/-- The options in a name, without the underscores that lead them in. -/
def tokens (k : DispatchKey) : List (List Char) :=
  (if k.varlen then [['v', 'a', 'r', 'l', 'e', 'n']] else []) ++
  (match k.slidingWindow with
    | some w => [['s', 'w'] ++ (toString w.toNat).toList]
    | none => []) ++
  (if k.alibi then [['a', 'l', 'i', 'b', 'i']] else []) ++
  (if 0 < k.sink then [['s', 'i', 'n', 'k'] ++ (toString k.sink.toNat).toList] else []) ++
  (if k.paged then [['p', 'a', 'g', 'e', 'd']] else []) ++
  (if 1 < k.gqaRatio then [['g', 'q', 'a'] ++ (toString k.gqaRatio.toNat).toList] else [])

theorem toList_suffix (k : DispatchKey) : k.suffix.toList = k.tokens.flatMap ('_' :: ·) := by
  unfold suffix tokens
  simp only [String.toList_append, List.flatMap_append]
  congr 1
  · congr 1
    · congr 1
      · congr 1
        · congr 1
          · split_ifs <;> rfl
          · cases k.slidingWindow with
            | none => rfl
            | some w => simp
        · split_ifs <;> rfl
      · split_ifs <;> simp
    · split_ifs <;> rfl
  · split_ifs <;> simp

theorem mem_tokens {k : DispatchKey} {t : List Char} :
    t ∈ k.tokens ↔
      (k.varlen = true ∧ t = ['v', 'a', 'r', 'l', 'e', 'n']) ∨
      (∃ w, k.slidingWindow = some w ∧ t = ['s', 'w'] ++ (toString w.toNat).toList) ∨
      (k.alibi = true ∧ t = ['a', 'l', 'i', 'b', 'i']) ∨
      (0 < k.sink ∧ t = ['s', 'i', 'n', 'k'] ++ (toString k.sink.toNat).toList) ∨
      (k.paged = true ∧ t = ['p', 'a', 'g', 'e', 'd']) ∨
      (1 < k.gqaRatio ∧ t = ['g', 'q', 'a'] ++ (toString k.gqaRatio.toNat).toList) := by
  have hite : ∀ (c : Prop) [Decidable c] (u : List Char),
      t ∈ (if c then [u] else []) ↔ c ∧ t = u := by
    intro c _ u
    split_ifs with hc <;> simp [hc]
  have hwindow : t ∈ (match k.slidingWindow with
      | some w => [['s', 'w'] ++ (toString w.toNat).toList]
      | none => []) ↔
        ∃ w, k.slidingWindow = some w ∧ t = ['s', 'w'] ++ (toString w.toNat).toList := by
    cases k.slidingWindow <;> simp
  simp only [tokens, List.mem_append, hite, hwindow, or_assoc]

theorem toString_ne_of_not_digit {n : ℕ} {c : Char} (hc : c.isDigit = false) :
    c ∉ (toString n).toList := fun h => by
  rw [Numeral.isDigit_of_mem_toString h] at hc
  cases hc

theorem underscore_not_mem_tokens {k : DispatchKey} {t : List Char} (h : t ∈ k.tokens) :
    '_' ∉ t := by
  obtain ⟨-, rfl⟩ | ⟨w, -, rfl⟩ | ⟨-, rfl⟩ | ⟨-, rfl⟩ | ⟨-, rfl⟩ | ⟨-, rfl⟩ := mem_tokens.1 h <;>
    simp

/-- Two counts that are printed alike above a threshold. -/
theorem eq_or_le_of_printed {a x y : UInt32}
    (h : ∀ n : ℕ, a < x ∧ n = x.toNat ↔ a < y ∧ n = y.toNat) : x = y ∨ (¬ a < x ∧ ¬ a < y) := by
  by_cases hx : a < x
  · exact .inl (UInt32.toNat_inj.1 ((h x.toNat).1 ⟨hx, rfl⟩).2)
  · by_cases hy : a < y
    · exact absurd ((h y.toNat).2 ⟨hy, rfl⟩).1 hx
    · exact .inr ⟨hx, hy⟩

/-- Each option can be found among the tokens. -/
theorem options_of_tokens {k k' : DispatchKey} (h : k.tokens = k'.tokens) :
    k.varlen = k'.varlen ∧ k.slidingWindow = k'.slidingWindow ∧ k.alibi = k'.alibi ∧
      k.sink = k'.sink ∧ k.paged = k'.paged ∧
      (k.gqaRatio ≠ 0 → k'.gqaRatio ≠ 0 → k.gqaRatio = k'.gqaRatio) := by
  have hmem : ∀ t, t ∈ k.tokens ↔ t ∈ k'.tokens := fun t => by rw [h]
  simp only [mem_tokens] at hmem
  have hvarlen := hmem ['v', 'a', 'r', 'l', 'e', 'n']
  have halibi := hmem ['a', 'l', 'i', 'b', 'i']
  have hpaged := hmem ['p', 'a', 'g', 'e', 'd']
  have hwindow := fun n : ℕ => hmem (['s', 'w'] ++ (toString n).toList)
  have hsink := fun n : ℕ => hmem (['s', 'i', 'n', 'k'] ++ (toString n).toList)
  have hgqa := fun n : ℕ => hmem (['g', 'q', 'a'] ++ (toString n).toList)
  simp [Numeral.toDigits_ten_injective.eq_iff] at hvarlen halibi hpaged hwindow hsink hgqa
  refine ⟨hvarlen, ?_, halibi, ?_, hpaged, fun hk hk' => ?_⟩
  · cases hw : k.slidingWindow with
    | none =>
      cases hw' : k'.slidingWindow with
      | none => rfl
      | some w' =>
        obtain ⟨w, hsome, -⟩ := (hwindow w'.toNat).2 ⟨w', hw', rfl⟩
        exact absurd (hw.symm.trans hsome) (Option.some_ne_none w).symm
    | some w =>
      obtain ⟨w', hw', hval⟩ := (hwindow w.toNat).1 ⟨w, hw, rfl⟩
      rw [hw', UInt32.toNat_inj.1 hval]
  · obtain heq | ⟨hle, hle'⟩ := eq_or_le_of_printed hsink
    · exact heq
    · rw [← UInt32.toNat_inj]
      simp only [UInt32.lt_iff_toNat_lt, UInt32.toNat_zero] at hle hle'
      omega
  · obtain heq | ⟨hle, hle'⟩ := eq_or_le_of_printed hgqa
    · exact heq
    · rw [ne_eq, ← UInt32.toNat_inj, UInt32.toNat_zero] at hk hk'
      rw [← UInt32.toNat_inj]
      simp only [UInt32.lt_iff_toNat_lt, UInt32.toNat_one] at hle hle'
      omega

/-- The part of a name before the angle brackets. -/
def path (k : DispatchKey) : List Char :=
  "atomr_flashattn::".toList ++ k.kind.toList ++ "::fwd".toList

theorem toList_kernelName (k : DispatchKey) :
    k.kernelName.toList =
      k.path ++ '<' :: (k.dtype.tag.toList ++ ',' :: ((' ' :: (toString k.headDim.toNat).toList) ++
        ',' :: ((' ' :: k.causalTag.toList) ++ '>' :: k.suffix.toList))) := by
  have hopen : "::fwd<".toList = "::fwd".toList ++ ['<'] := rfl
  have hcomma : ", ".toList = [',', ' '] := rfl
  have hclose : ">".toList = ['>'] := rfl
  unfold kernelName path
  simp only [String.toList_append, hopen, hcomma, hclose, List.append_assoc, List.cons_append,
    List.nil_append]

/-- The two keys select one kernel: they differ at most in the architecture, and agree on its
generation. -/
def SameKernel (k k' : DispatchKey) : Prop :=
  k.arch.supportsFa3 = k'.arch.supportsFa3 ∧ { k with arch := k'.arch } = k'

instance (k k' : DispatchKey) : Decidable (SameKernel k k') := inferInstanceAs (Decidable (_ ∧ _))

theorem tag_injective : Function.Injective DType.tag := by
  intro d d' h
  cases d <;> cases d' <;> first | rfl | exact absurd h (by decide)

theorem kind_eq_iff {k k' : DispatchKey} :
    k.kind = k'.kind ↔ k.arch.supportsFa3 = k'.arch.supportsFa3 := by
  unfold kind
  cases k.arch.supportsFa3 <;> cases k'.arch.supportsFa3 <;> decide

theorem causalTag_eq_iff {k k' : DispatchKey} :
    k.causalTag = k'.causalTag ↔ k.causal = k'.causal := by
  unfold causalTag
  cases k.causal <;> cases k'.causal <;> decide

theorem comma_not_mem_tag (d : DType) : ',' ∉ d.tag.toList := by
  cases d <;> decide

theorem angle_not_mem (k : DispatchKey) :
    '<' ∉ k.path ∧ '>' ∉ ' ' :: k.causalTag.toList := by
  unfold path kind causalTag
  cases k.arch.supportsFa3 <;> cases k.causal <;> decide

/-- A name tells everything about a key but the architecture within a generation. -/
theorem kernelName_eq_iff {k k' : DispatchKey} (hk : k.gqaRatio ≠ 0) (hk' : k'.gqaRatio ≠ 0) :
    k.kernelName = k'.kernelName ↔ SameKernel k k' := by
  constructor
  · intro h
    have hlist := congrArg String.toList h
    rw [toList_kernelName, toList_kernelName] at hlist
    obtain ⟨hkind, hlist⟩ :=
      List.append_cons_cancel (angle_not_mem k).1 (angle_not_mem k').1 hlist
    obtain ⟨hdtype, hlist⟩ :=
      List.append_cons_cancel (comma_not_mem_tag _) (comma_not_mem_tag _) hlist
    have hcomma : ∀ n : ℕ, ',' ∉ ' ' :: (toString n).toList := fun n => by
      have hdigits : ',' ∉ (toString n).toList := toString_ne_of_not_digit (by decide)
      simpa using hdigits
    obtain ⟨hdim, hlist⟩ := List.append_cons_cancel (hcomma _) (hcomma _) hlist
    obtain ⟨hcausal, hsuffix⟩ :=
      List.append_cons_cancel (angle_not_mem k).2 (angle_not_mem k').2 hlist
    rw [toList_suffix, toList_suffix] at hsuffix
    have htokens : k.tokens = k'.tokens :=
      List.eq_of_flatMap_cons (fun _ => underscore_not_mem_tokens)
        (fun _ => underscore_not_mem_tokens) hsuffix
    obtain ⟨hvarlen, hwindow, halibi, hsink, hpaged, hgqa⟩ := options_of_tokens htokens
    refine ⟨kind_eq_iff.1 ?_, DispatchKey.ext rfl ?_ ?_ ?_ hvarlen hwindow halibi hsink hpaged
      (hgqa hk hk')⟩
    · have happend := List.append_cancel_right hkind
      exact String.toList_inj.1 (List.append_cancel_left happend)
    · exact tag_injective (String.toList_inj.1 hdtype)
    · exact UInt32.toNat_inj.1
        (Numeral.toString_injective (String.toList_inj.1 (List.cons.inj hdim).2))
    · exact causalTag_eq_iff.1 (String.toList_inj.1 (List.cons.inj hcausal).2)
  · rintro ⟨hgen, hrest⟩
    have hkind : k.kind = k'.kind := kind_eq_iff.2 hgen
    rw [← hrest] at hkind ⊢
    unfold kernelName
    rw [hkind]
    rfl

end DispatchKey

/-! ### The table and the actor -/

/-- Names under keys. -/
abbrev DispatchTable := List (DispatchKey × String)

namespace DispatchTable

/-- A cell without any of the optional features. -/
def plainKey (arch : SmArch) (dtype : DType) (headDim : UInt32) (causal : Bool) : DispatchKey :=
  ⟨arch, dtype, headDim, causal, false, none, false, 0, false, 1⟩

/-- `entries.insert(key, key.kernel_name())` for the keys that pass the forward validator. -/
def entry (key : DispatchKey) : List (DispatchKey × String) :=
  if key.validateFwd = .ok () then [(key, key.kernelName)] else []

/-- `fp8` is the crate feature. -/
def build (fp8 : Bool) : DispatchTable :=
  ([SmArch.sm80, .sm89, .sm90a, .sm100].flatMap fun arch =>
    [DType.f16, .bf16].flatMap fun dtype =>
      [(64 : UInt32), 80, 96, 128, 192, 256].flatMap fun headDim =>
        [false, true].flatMap fun causal => entry (plainKey arch dtype headDim causal)) ++
  if fp8 then
    [DType.f8E4m3, .f8E5m2].flatMap fun dtype =>
      [(64 : UInt32), 128, 256].flatMap fun headDim =>
        [SmArch.sm90a, .sm100].flatMap fun arch =>
          [false, true].flatMap fun causal => entry (plainKey arch dtype headDim causal)
  else []

/-- The name the table has for a valid key, or else its own. -/
def lookup (table : DispatchTable) (key : DispatchKey) : Except DispatchError String := do
  key.validateFwd
  match table.find? (fun e => e.1 = key) with
  | some (_, name) => .ok name
  | none => .ok key.kernelName

theorem mem_entry {key : DispatchKey} {e : DispatchKey × String} (h : e ∈ entry key) :
    e.2 = e.1.kernelName := by
  unfold entry at h
  split_ifs at h
  · rw [List.mem_singleton.1 h]
  · cases h

theorem mem_build {fp8 : Bool} {e : DispatchKey × String} (h : e ∈ build fp8) :
    e.2 = e.1.kernelName := by
  unfold build at h
  obtain hplain | hfp8 := List.mem_append.1 h
  · simp only [List.mem_flatMap] at hplain
    obtain ⟨_, -, _, -, _, -, _, -, he⟩ := hplain
    exact mem_entry he
  · split_ifs at hfp8
    · simp only [List.mem_flatMap] at hfp8
      obtain ⟨_, -, _, -, _, -, _, -, he⟩ := hfp8
      exact mem_entry he
    · cases hfp8

/-- The table only anticipates the names `kernelName` builds. -/
theorem lookup_eq (fp8 : Bool) (key : DispatchKey) :
    (build fp8).lookup key = key.validateFwd.map fun _ => key.kernelName := by
  unfold lookup
  cases key.validateFwd with
  | error e => rfl
  | ok u =>
    cases hfind : (build fp8).find? (fun e => e.1 = key) with
    | none => rfl
    | some e =>
      have hkey : e.1 = key := by simpa using List.find?_some hfind
      have hname := mem_build (List.mem_of_find?_eq_some hfind)
      rw [hkey] at hname
      change Except.ok e.2 = Except.ok key.kernelName
      rw [hname]

end DispatchTable

/-- A message, as the key its boxed request yields. -/
inductive FlashAttnMsg
  | forward (key : DispatchKey)
  | backward (key : DispatchKey)
  | pagedForward (key : DispatchKey)
  deriving DecidableEq, Repr

namespace FlashAttnMsg

/-- The key of a message. -/
def inspectKey : FlashAttnMsg → DispatchKey
  | forward key | backward key | pagedForward key => key

/-- `kernel_name` in `handle`. -/
def resolve (fp8 : Bool) (msg : FlashAttnMsg) : Except DispatchError String :=
  (DispatchTable.build fp8).lookup msg.inspectKey

/-- The validator of the message's own kind. -/
def validate : FlashAttnMsg → Except DispatchError Unit
  | forward key => key.validateFwd
  | backward key => key.validateBwd
  | pagedForward key => key.validatePaged

/-- Where the message's own validator has nothing to add to the forward validator. -/
def NothingToAdd : FlashAttnMsg → Prop
  | forward _ => True
  | backward key => key.validateFwd = .ok () → key.dtype.isFp8 = false
  | pagedForward key => key.validateFwd = .ok () → key.paged = true

instance : DecidablePred NothingToAdd
  | forward _ => isTrue trivial
  | backward key => inferInstanceAs (Decidable (key.validateFwd = .ok () → _))
  | pagedForward key => inferInstanceAs (Decidable (key.validateFwd = .ok () → _))

theorem resolve_eq_ok {fp8 : Bool} {msg : FlashAttnMsg} {name : String} :
    msg.resolve fp8 = .ok name ↔
      msg.inspectKey.validateFwd = .ok () ∧ msg.inspectKey.kernelName = name := by
  rw [resolve, DispatchTable.lookup_eq]
  cases msg.inspectKey.validateFwd with
  | error e => simp [Except.map]
  | ok u => simp [Except.map]

/-- A kernel is found when the forward validator accepts the key, whatever the message. -/
theorem exists_resolve_iff {fp8 : Bool} {msg : FlashAttnMsg} :
    (∃ name, msg.resolve fp8 = .ok name) ↔ msg.inspectKey.validateFwd = .ok () := by
  simp [resolve_eq_ok]

theorem validate_eq_ok_iff {msg : FlashAttnMsg} :
    msg.validate = .ok () ↔ msg.inspectKey.validateFwd = .ok () ∧ msg.NothingToAdd := by
  cases msg with
  | forward key => exact (and_iff_left trivial).symm
  | backward key =>
    simp only [validate, DispatchKey.validateBwd, NothingToAdd, inspectKey]
    cases hfwd : key.validateFwd with
    | error e => simp [bind, Except.bind]
    | ok u => cases key.dtype.isFp8 <;> simp [bind, Except.bind]
  | pagedForward key =>
    simp only [validate, DispatchKey.validatePaged, NothingToAdd, inspectKey]
    cases hfwd : key.validateFwd with
    | error e => simp [bind, Except.bind]
    | ok u => cases key.paged <;> simp [bind, Except.bind]

theorem nothingToAdd_of_refused {msg : FlashAttnMsg}
    (h : msg.inspectKey.validateFwd ≠ .ok ()) : msg.NothingToAdd := by
  cases msg with
  | forward key => trivial
  | backward key => exact fun hok => absurd hok h
  | pagedForward key => exact fun hok => absurd hok h

end FlashAttnMsg

/-- A valid key has at least one query head for each key head. -/
theorem gqaRatio_ne_zero {k : DispatchKey} (h : k.validateFwd = .ok ()) : k.gqaRatio ≠ 0 := by
  intro hzero
  unfold DispatchKey.validateFwd at h
  rw [if_pos hzero] at h
  split_ifs at h

/-- Among the valid keys of an architecture a name belongs to one key. -/
theorem eq_of_kernelName_eq {k k' : DispatchKey} (harch : k.arch = k'.arch)
    (hk : k.validateFwd = .ok ()) (hk' : k'.validateFwd = .ok ())
    (hname : k.kernelName = k'.kernelName) : k = k' := by
  obtain ⟨-, hrest⟩ := (DispatchKey.kernelName_eq_iff (gqaRatio_ne_zero hk)
    (gqaRatio_ne_zero hk')).1 hname
  rw [← hrest, ← harch]

/-- A key with every option. -/
theorem eq_of_kernelName_eq_windowed :
    (⟨.sm100, .f8E5m2, 192, false, true, some 4096, true, 4, true, 16⟩ : DispatchKey) =
      { DispatchTable.plainKey .sm100 .f8E5m2 192 false with
        varlen := true, slidingWindow := some 4096, alibi := true, sink := 4, paged := true,
        gqaRatio := 16 } :=
  eq_of_kernelName_eq rfl (by decide) (by decide) rfl

/-- A message is resolved exactly when its own validator accepts its key, provided that this
validator has nothing to add to the forward one; and a backward message never shares a kernel with
a forward message, provided that their keys do not select one. -/
theorem resolve_own_kind_iff (fp8 : Bool) :
    (∀ msg : FlashAttnMsg,
      ((∃ name, msg.resolve fp8 = .ok name) ↔ msg.validate = .ok ()) ↔ msg.NothingToAdd) ∧
    ∀ b f : DispatchKey,
      (¬ ∃ name, (FlashAttnMsg.backward b).resolve fp8 = .ok name ∧
        (FlashAttnMsg.forward f).resolve fp8 = .ok name) ↔
      (b.validateFwd = .ok () → f.validateFwd = .ok () → ¬ b.SameKernel f) := by
  refine ⟨fun msg => ?_, fun b f => ?_⟩
  · rw [FlashAttnMsg.exists_resolve_iff, FlashAttnMsg.validate_eq_ok_iff]
    constructor
    · intro hiff
      by_cases hfwd : msg.inspectKey.validateFwd = .ok ()
      · exact (hiff.1 hfwd).2
      · exact FlashAttnMsg.nothingToAdd_of_refused hfwd
    · exact fun hmsg => ⟨fun hfwd => ⟨hfwd, hmsg⟩, fun h => h.1⟩
  · simp only [FlashAttnMsg.resolve_eq_ok, FlashAttnMsg.inspectKey]
    constructor
    · intro hnone hb hf hsame
      have hname := (DispatchKey.kernelName_eq_iff (gqaRatio_ne_zero hb)
        (gqaRatio_ne_zero hf)).2 hsame
      exact hnone ⟨f.kernelName, ⟨hb, hname⟩, hf, rfl⟩
    · rintro hdiff ⟨name, ⟨hb, hbname⟩, hf, hfname⟩
      have hname := hbname.trans hfname.symm
      exact hdiff hb hf ((DispatchKey.kernelName_eq_iff (gqaRatio_ne_zero hb)
        (gqaRatio_ne_zero hf)).1 hname)

/-- A backward pass is resolved to the kernel of the forward pass with the same key; an `fp8`
backward pass is resolved although its validator refuses it, and so is a paged one without the
flag. -/
theorem backward_resolves_to_forward_kernel :
    (FlashAttnMsg.backward (DispatchTable.plainKey .sm80 .f16 64 true)).validate = .ok () ∧
    (FlashAttnMsg.backward (DispatchTable.plainKey .sm80 .f16 64 true)).resolve false =
      .ok "atomr_flashattn::fa2::fwd<f16, 64, causal>" ∧
    (FlashAttnMsg.forward (DispatchTable.plainKey .sm80 .f16 64 true)).resolve false =
      .ok "atomr_flashattn::fa2::fwd<f16, 64, causal>" ∧
    (FlashAttnMsg.backward (DispatchTable.plainKey .sm90a .f8E4m3 128 true)).validate =
      .error .fp8BackwardUnsupported ∧
    (FlashAttnMsg.backward (DispatchTable.plainKey .sm90a .f8E4m3 128 true)).resolve false =
      .ok "atomr_flashattn::fa3::fwd<e4m3, 128, causal>" ∧
    (FlashAttnMsg.pagedForward (DispatchTable.plainKey .sm90a .bf16 128 true)).validate =
      .error .pagedFlagNotSet ∧
    (FlashAttnMsg.pagedForward (DispatchTable.plainKey .sm90a .bf16 128 true)).resolve false =
      .ok "atomr_flashattn::fa3::fwd<bf16, 128, causal>" := by
  simp only [FlashAttnMsg.resolve, DispatchTable.lookup_eq]
  decide

end FlashAttn

end AtomrAccel
