import Mathlib.Data.List.Infix
import Mathlib.Tactic

/-!
# Codewords at the front of a stream

A codeword can be read off a stream when what follows it cannot be mistaken for a continuation of
it.  What follows is described by a property of streams, so that codes which are not prefix codes
can be read as well.

* `Decodes code P`: a codeword is read off any stream whose rest satisfies `P`;
* `decodes_of_length`, `decodes_of_next`, `decodes_of_rest_length`: words of one length, words whose
  continuations begin with a symbol that no rest begins with, and rests of one length;
* `Decodes.append`, `Decodes.flatMap_inj`, `Decodes.flatMap_injective`, `counted_append_inj`: one
  codeword after another;
* `leBytes`, `sized`: numbers as little-endian bytes, and codewords after their number.
-/

namespace PrefixCode

variable {α γ β : Type*} {code : α → List β} {P Q : List β → Prop}

/-- The codeword at the front of a stream is determined, if the rest satisfies `P`. -/
def Decodes (code : α → List β) (P : List β → Prop) : Prop :=
  ∀ a b s t, P s → P t → code a ++ s = code b ++ t → a = b ∧ s = t

theorem Decodes.mono (h : Decodes code P) (hQ : ∀ s, Q s → P s) : Decodes code Q :=
  fun a b s t hs ht => h a b s t (hQ s hs) (hQ t ht)

/-- A codeword that is told apart from any other on any stream. -/
theorem Decodes.read (h : Decodes code fun _ => True) {a b : α} {s t : List β}
    (heq : code a ++ s = code b ++ t) : a = b ∧ s = t := h a b s t trivial trivial heq

/-- Different words of one length. -/
theorem decodes_of_length {n : ℕ} (hlen : ∀ a, (code a).length = n)
    (hinj : Function.Injective code) : Decodes code P := by
  intro a b s t _ _ h
  obtain ⟨hab, hst⟩ := List.append_inj h ((hlen a).trans (hlen b).symm)
  exact ⟨hinj hab, hst⟩

/-- Different words, and rests of one length. -/
theorem decodes_of_rest_length (hinj : Function.Injective code) (n : ℕ) :
    Decodes code fun s => s.length = n := by
  intro a b s t hs ht h
  obtain ⟨hab, hst⟩ := List.append_inj' h (hs.trans ht.symm)
  exact ⟨hinj hab, hst⟩

/-- When a word continues another one with a symbol of `E`, and no rest begins with such a symbol,
the words are told apart. -/
theorem decodes_of_next {E : β → Prop} (hinj : Function.Injective code)
    (h : ∀ a b, code a <+: code b → ∀ x ∈ ((code b).drop (code a).length).head?, E x) :
    Decodes code fun s => ∀ x ∈ s.head?, ¬ E x := by
  -- the shorter word is a prefix of the longer one
  have hshort : ∀ a b s t, (∀ x ∈ s.head?, ¬ E x) → code a ++ s = code b ++ t →
      (code a).length ≤ (code b).length → a = b ∧ s = t := by
    intro a b s t hs heq hle
    have hprefix : code a <+: code b :=
      List.prefix_of_prefix_length_le (List.prefix_append _ s) (heq ▸ List.prefix_append _ t) hle
    obtain ⟨u, hu⟩ := hprefix
    have hrest : s = u ++ t := by
      rw [← hu, List.append_assoc] at heq
      exact List.append_cancel_left heq
    cases u with
    | nil =>
      rw [List.append_nil] at hu
      exact ⟨hinj hu, hrest⟩
    | cons x u =>
      have hx : E x := h a b ⟨_, hu⟩ x (by rw [← hu, List.drop_left]; rfl)
      exact absurd hx (hs x (by rw [hrest]; rfl))
  intro a b s t hs ht heq
  rcases Nat.le_total (code a).length (code b).length with hle | hle
  · exact hshort a b s t hs heq hle
  · obtain ⟨hba, hts⟩ := hshort b a t s ht heq.symm hle
    exact ⟨hba.symm, hts.symm⟩

/-- A prefix code is read off any stream. -/
theorem decodes_of_prefixFree (h : ∀ a b, code a <+: code b → a = b) : Decodes code P := by
  have hinj : Function.Injective code := fun a b hab => h a b (hab ▸ List.prefix_refl _)
  have hnext : Decodes code fun s => ∀ x ∈ s.head?, ¬ False := by
    refine decodes_of_next hinj fun a b hab x hx => ?_
    obtain rfl := h a b hab
    rw [List.drop_length] at hx
    cases hx
  exact hnext.mono fun s _ x _ => not_false

/-- A codeword of one code after a codeword of another. -/
theorem Decodes.append {code' : γ → List β} (h : Decodes code P) (h' : Decodes code' Q)
    (hnext : ∀ c s, Q s → P (code' c ++ s)) :
    Decodes (fun x : α × γ => code x.1 ++ code' x.2) Q := by
  rintro ⟨a, c⟩ ⟨b, d⟩ s t hs ht heq
  simp only [List.append_assoc] at heq
  obtain ⟨rfl, hrest⟩ := h a b _ _ (hnext c s hs) (hnext d t ht) heq
  obtain ⟨rfl, rfl⟩ := h' c d s t hs ht hrest
  exact ⟨rfl, rfl⟩

/-- As many codewords on either side. -/
theorem Decodes.flatMap_inj (h : Decodes code fun _ => True) {xs ys : List α} {s t : List β}
    (hlen : xs.length = ys.length) (heq : xs.flatMap code ++ s = ys.flatMap code ++ t) :
    xs = ys ∧ s = t := by
  induction xs generalizing ys with
  | nil =>
    obtain rfl := List.length_eq_zero_iff.1 hlen.symm
    exact ⟨rfl, heq⟩
  | cons x xs ih =>
    cases ys with
    | nil => cases hlen
    | cons y ys =>
      simp only [List.flatMap_cons, List.append_assoc] at heq
      obtain ⟨rfl, hrest⟩ := h x y _ _ trivial trivial heq
      obtain ⟨rfl, rfl⟩ := ih (Nat.succ.inj hlen) hrest
      exact ⟨rfl, rfl⟩

/-- Codewords up to the end of the stream, none of them empty. -/
theorem Decodes.flatMap_injective (h : Decodes code fun _ => True) (hne : ∀ a, code a ≠ []) :
    Function.Injective fun xs : List α => xs.flatMap code := by
  intro xs ys heq
  dsimp only at heq
  induction xs generalizing ys with
  | nil =>
    cases ys with
    | nil => rfl
    | cons y ys => exact absurd (List.append_eq_nil_iff.1 heq.symm).1 (hne y)
  | cons x xs ih =>
    cases ys with
    | nil => exact absurd (List.append_eq_nil_iff.1 heq).1 (hne x)
    | cons y ys =>
      simp only [List.flatMap_cons] at heq
      obtain ⟨rfl, hrest⟩ := h.read heq
      rw [ih hrest]

/-- The number of codewords, as one symbol, and the codewords. -/
def counted (symbol : ℕ → β) (code : α → List β) (xs : List α) : List β :=
  symbol xs.length :: xs.flatMap code

theorem counted_append_inj {symbol : ℕ → β} (hsymbol : Function.Injective symbol)
    (h : Decodes code fun _ => True) {xs ys : List α} {s t : List β} :
    counted symbol code xs ++ s = counted symbol code ys ++ t ↔ xs = ys ∧ s = t := by
  constructor
  · intro heq
    obtain ⟨hlen, hrest⟩ := List.cons.inj heq
    exact h.flatMap_inj (hsymbol hlen) hrest
  · rintro ⟨rfl, rfl⟩
    rfl

/-! ### Little-endian bytes -/

/-- The `k` low bytes of a number, the lowest first. -/
def leBytes : ℕ → ℕ → List UInt8
  | 0, _ => []
  | k + 1, n => UInt8.ofNat (n % 256) :: leBytes k (n / 256)

@[simp] theorem length_leBytes (k n : ℕ) : (leBytes k n).length = k := by
  induction k generalizing n with
  | zero => rfl
  | succ k ih => rw [leBytes, List.length_cons, ih]

/-- Numbers that fit are determined by their bytes. -/
theorem leBytes_inj {k m n : ℕ} (hm : m < 256 ^ k) (hn : n < 256 ^ k)
    (h : leBytes k m = leBytes k n) : m = n := by
  induction k generalizing m n with
  | zero => omega
  | succ k ih =>
    simp only [leBytes, List.cons.injEq] at h
    obtain ⟨hlow, hrest⟩ := h
    have hbyte := congrArg UInt8.toNat hlow
    rw [UInt8.toNat_ofNat', UInt8.toNat_ofNat'] at hbyte
    have hhigh := ih (by omega) (by omega) hrest
    omega

/-- Numbers that fit are read off a stream. -/
theorem leBytes_append_inj {k m n : ℕ} {s t : List UInt8} (hm : m < 256 ^ k) (hn : n < 256 ^ k) :
    leBytes k m ++ s = leBytes k n ++ t ↔ m = n ∧ s = t := by
  constructor
  · intro h
    obtain ⟨hbytes, hrest⟩ := List.append_inj h (by rw [length_leBytes, length_leBytes])
    exact ⟨leBytes_inj hm hn hbytes, hrest⟩
  · rintro ⟨rfl, rfl⟩
    rfl

/-- The number of codewords in `k` bytes, and the codewords. -/
def sized (k : ℕ) (code : α → List UInt8) (xs : List α) : List UInt8 :=
  leBytes k xs.length ++ xs.flatMap code

theorem sized_append_inj {k : ℕ} {code : α → List UInt8} (h : Decodes code fun _ => True)
    {xs ys : List α} {s t : List UInt8} (hxs : xs.length < 256 ^ k) (hys : ys.length < 256 ^ k) :
    sized k code xs ++ s = sized k code ys ++ t ↔ xs = ys ∧ s = t := by
  constructor
  · intro heq
    rw [sized, sized, List.append_assoc, List.append_assoc, leBytes_append_inj hxs hys] at heq
    exact h.flatMap_inj heq.1 heq.2
  · rintro ⟨rfl, rfl⟩
    rfl

theorem leBytes_eq_map (k n : ℕ) :
    leBytes k n = (List.range k).map fun i => UInt8.ofNat (n / 256 ^ i % 256) := by
  induction k generalizing n with
  | zero => rfl
  | succ k ih =>
    rw [leBytes, ih, List.range_succ_eq_map, List.map_cons, List.map_map, pow_zero, Nat.div_one]
    congr 1
    apply List.map_congr_left
    intro i _
    rw [Function.comp_apply, Nat.div_div_eq_div_mul, ← pow_succ']

/-- A 32-bit number in four bytes. -/
def u32 (v : UInt32) : List UInt8 := leBytes 4 v.toNat

theorem decodes_u32 {P : List UInt8 → Prop} : Decodes u32 P :=
  decodes_of_length (fun _ => length_leBytes 4 _) fun v w h =>
    UInt32.toNat_inj.1 (leBytes_inj v.toNat_lt w.toNat_lt h)

end PrefixCode
