import Mathlib.Tactic
import Mathlib.Data.List.DropRight

/-!
# Searching a text for a pattern, and the pieces it is searched by

A text is a list of characters.  `find` is the index of the first occurrence of a pattern, and
`splitOn` of the library cuts a text into its lines.  An edit at the first occurrence of a pattern
that has no separator is an edit of one line, the first that holds the pattern.

* `find_append_right`: the first occurrence does not depend on what follows it;
* `find_append_of_not_mem`: a prefix without the first character of the pattern only shifts it;
* `exists_splitOn_of_find`: the line of the first occurrence, and the lines after an edit there;
* `splitOn_take_find`: the lines before the first line that begins with a given character;
* `agreeOff_splitOn_append`: what precedes two texts does not change in how many lines they differ.
-/

namespace TextSearch

variable {α : Type*} [DecidableEq α]

/-- The index of the first occurrence of `pat`. -/
def find (pat : List α) : List α → Option ℕ
  | [] => if pat = [] then some 0 else none
  | c :: s => if pat <+: c :: s then some 0 else (find pat s).map (· + 1)

/-- The two sides of the first `sep`. -/
def splitOnce (sep : α) (s : List α) : Option (List α × List α) :=
  (find [sep] s).map fun n => (s.take n, s.drop (n + 1))

/-- Removes the characters that satisfy `p` from both ends. -/
def trimMatches (p : α → Bool) (s : List α) : List α :=
  (s.dropWhile p).rdropWhile p

/-! ### The first occurrence -/

section Find

variable {pat before after s : List α} {c : α} {n : ℕ}

theorem find_nil (h : pat ≠ []) : find pat [] = none := if_neg h

theorem find_eq_zero (h : pat <+: s) : find pat s = some 0 := by
  cases s with
  | nil => exact if_pos (List.prefix_nil.1 h)
  | cons c s => exact if_pos h

theorem find_cons_of_not (h : ¬ pat <+: c :: s) :
    find pat (c :: s) = (find pat s).map (· + 1) := if_neg h

theorem prefix_drop_of_find (h : find pat s = some n) : pat <+: s.drop n := by
  induction s generalizing n with
  | nil =>
    by_cases hp : pat = []
    · exact hp ▸ List.nil_prefix
    · rw [find_nil hp] at h
      cases h
  | cons c s ih =>
    by_cases hp : pat <+: c :: s
    · rw [find_eq_zero hp] at h
      cases h
      exact hp
    · rw [find_cons_of_not hp, Option.map_eq_some_iff] at h
      obtain ⟨m, hm, rfl⟩ := h
      exact ih hm

/-- The text around the first occurrence. -/
theorem drop_eq_append_of_find (h : find pat s = some n) :
    ∃ after, s.drop n = pat ++ after ∧ (s.take n).length = n := by
  obtain ⟨after, hafter⟩ := prefix_drop_of_find h
  refine ⟨after, hafter.symm, ?_⟩
  induction s generalizing n with
  | nil =>
    by_cases hp : pat = []
    · rw [hp] at h
      cases h
      rfl
    · rw [find_nil hp] at h
      cases h
  | cons c s ih =>
    by_cases hp : pat <+: c :: s
    · rw [find_eq_zero hp] at h
      cases h
      rfl
    · rw [find_cons_of_not hp, Option.map_eq_some_iff] at h
      obtain ⟨m, hm, rfl⟩ := h
      rw [List.take_succ_cons, List.length_cons, ih hm hafter]

/-- The first occurrence does not depend on the text after it. -/
theorem find_append_right (after' : List α)
    (h : find pat (before ++ (pat ++ after)) = some before.length) :
    find pat (before ++ (pat ++ after')) = some before.length := by
  induction before with
  | nil => exact find_eq_zero (List.prefix_append _ _)
  | cons c before ih =>
    have hp : ¬ pat <+: c :: (before ++ (pat ++ after)) := by
      intro hp
      rw [List.cons_append, find_eq_zero hp] at h
      cases h
    -- the pattern is shorter than what precedes the end of its occurrence
    have hp' : ¬ pat <+: c :: (before ++ (pat ++ after')) := by
      intro hp'
      have hshort : pat <+: c :: (before ++ pat) := by
        refine List.prefix_of_prefix_length_le hp' ⟨after', by simp⟩ ?_
        simp only [List.length_cons, List.length_append]
        omega
      exact hp (hshort.trans ⟨after, by simp⟩)
    rw [List.cons_append, find_cons_of_not hp, List.length_cons,
      Option.map_eq_some_iff] at h
    obtain ⟨m, hm, hmlen⟩ := h
    obtain rfl : m = before.length := by omega
    rw [List.cons_append, find_cons_of_not hp', ih hm]
    rfl

/-- A prefix without the first character of the pattern only shifts the first occurrence. -/
theorem find_append_of_not_mem (h : c ∉ before) :
    find (c :: pat) (before ++ s) = (find (c :: pat) s).map (· + before.length) := by
  induction before with
  | nil =>
    rw [List.nil_append]
    cases find (c :: pat) s <;> rfl
  | cons b before ih =>
    obtain ⟨hb, hbefore⟩ := not_or.1 (mt List.mem_cons.2 h)
    have hp : ¬ c :: pat <+: b :: (before ++ s) := fun hp => hb (List.cons_prefix_cons.1 hp).1
    rw [List.cons_append, find_cons_of_not hp, ih hbefore, Option.map_map]
    congr 1

/-- From the first `c` on. -/
theorem drop_find_singleton (c : α) (s : List α) :
    s.drop ((find [c] s).getD s.length) = s.dropWhile (· ≠ c) := by
  induction s with
  | nil => rfl
  | cons a s ih =>
    by_cases ha : a = c
    · subst ha
      rw [find_eq_zero (s := a :: s) ⟨s, rfl⟩, List.dropWhile_cons_of_neg (by simp)]
      rfl
    · have hp : ¬ [c] <+: a :: s := fun hp => ha (List.cons_prefix_cons.1 hp).1.symm
      rw [find_cons_of_not hp, List.dropWhile_cons_of_pos (by simpa using ha), ← ih]
      cases find [c] s <;> rfl

theorem splitOnce_append (h : c ∉ before) :
    splitOnce c (before ++ c :: after) = some (before, after) := by
  have hfind : find [c] (before ++ c :: after) = some before.length := by
    rw [find_append_of_not_mem h, find_eq_zero (s := c :: after) ⟨after, rfl⟩]
    simp
  rw [splitOnce, hfind]
  simp

end Find

/-! ### Trimming -/

section Trim

variable {p : α → Bool}

omit [DecidableEq α] in
theorem dropWhile_append_of_forall {l s : List α} (hl : ∀ x ∈ l, p x = true)
    (hs : ∀ x ∈ s.head?, p x = false) : (l ++ s).dropWhile p = s := by
  induction l with
  | nil =>
    cases s with
    | nil => rfl
    | cons c s => exact List.dropWhile_cons_of_neg (by rw [hs c rfl]; decide)
  | cons a l ih =>
    rw [List.cons_append, List.dropWhile_cons_of_pos (hl a List.mem_cons_self)]
    exact ih fun x hx => hl x (List.mem_cons_of_mem a hx)

omit [DecidableEq α] in
/-- Trimming leaves exactly a middle whose first and last character stay. -/
theorem trimMatches_append {l s r : List α} (hl : ∀ x ∈ l, p x = true) (hr : ∀ x ∈ r, p x = true)
    (hhead : ∀ x ∈ s.head?, p x = false) (hlast : ∀ x ∈ s.getLast?, p x = false) :
    trimMatches p (l ++ (s ++ r)) = s := by
  cases s with
  | nil =>
    have hnil : (l ++ ([] ++ r)).dropWhile p = [] := by
      rw [List.dropWhile_eq_nil_iff]
      intro x hx
      rcases List.mem_append.1 hx with hx | hx
      · exact hl x hx
      · exact hr x hx
    rw [trimMatches, hnil]
    rfl
  | cons c s =>
    rw [trimMatches, dropWhile_append_of_forall hl (by simpa using hhead), List.rdropWhile,
      List.reverse_append, dropWhile_append_of_forall, List.reverse_reverse]
    · intro x hx
      exact hr x (List.mem_reverse.1 hx)
    · intro x hx
      rw [List.head?_reverse] at hx
      exact hlast x hx

omit [DecidableEq α] in
theorem infix_dropWhile {s t : List α} (h : s <:+: t) (hhead : ∀ x ∈ s.head?, p x = false) :
    s <:+: t.dropWhile p := by
  obtain ⟨l, r, rfl⟩ := h
  induction l with
  | nil =>
    cases s with
    | nil => exact List.nil_infix
    | cons c s =>
      rw [List.nil_append, List.cons_append,
        List.dropWhile_cons_of_neg (by rw [hhead c rfl]; decide)]
      exact ⟨[], r, rfl⟩
  | cons a l ih =>
    cases ha : p a
    · rw [List.cons_append, List.cons_append,
        List.dropWhile_cons_of_neg (by rw [ha]; decide)]
      exact ⟨a :: l, r, rfl⟩
    · rw [List.cons_append, List.cons_append, List.dropWhile_cons_of_pos ha]
      exact ih

omit [DecidableEq α] in
/-- What begins and ends with a character that stays is still there after trimming. -/
theorem infix_trimMatches {s t : List α} (h : s <:+: t) (hhead : ∀ x ∈ s.head?, p x = false)
    (hlast : ∀ x ∈ s.getLast?, p x = false) : s <:+: trimMatches p t := by
  have hrev : s.reverse <:+: (t.dropWhile p).reverse :=
    List.reverse_infix.2 (infix_dropWhile h hhead)
  have hdrop := infix_dropWhile hrev fun x hx => hlast x (by rwa [List.head?_reverse] at hx)
  rw [trimMatches, List.rdropWhile, ← List.reverse_infix, List.reverse_reverse]
  exact hdrop

end Trim

/-! ### Lines -/

/-- Two lists of lines that agree everywhere but at index `k`. -/
def AgreeOff {β : Type*} (k : ℕ) (xs ys : List β) : Prop :=
  ∀ i, i ≠ k → xs[i]? = ys[i]?

/-- The lines up to the first after the head that begins with `c`. -/
def linesUntil (c : α) : List (List α) → List (List α)
  | [] => []
  | l :: ls => l :: ls.takeWhile fun l => l.head? ≠ some c

section Lines

variable {sep c : α} {pat s l : List α} {ls : List (List α)} {n : ℕ}

theorem splitOn_cons_self : (sep :: s).splitOn sep = [] :: s.splitOn sep := by
  rw [List.splitOn_cons_eq_if_modifyHead, if_pos (beq_self_eq_true sep)]

theorem splitOn_cons_of_ne (h : c ≠ sep) :
    (c :: s).splitOn sep = (s.splitOn sep).modifyHead (c :: ·) := by
  rw [List.splitOn_cons_eq_if_modifyHead, if_neg (by simpa using h)]

theorem splitOn_cons_of_ne_of_eq (h : c ≠ sep) (hs : s.splitOn sep = l :: ls) :
    (c :: s).splitOn sep = (c :: l) :: ls := by
  rw [splitOn_cons_of_ne h, hs]
  rfl

theorem exists_splitOn_eq_cons (sep : α) (s : List α) : ∃ l ls, s.splitOn sep = l :: ls :=
  List.exists_cons_of_ne_nil (List.splitOn_ne_nil sep s)

/-- A text is its first line and what follows. -/
theorem head_splitOn_prefix (h : s.splitOn sep = l :: ls) : l <+: s := by
  induction s generalizing l with
  | nil =>
    obtain rfl : [] = l := (List.cons.inj h).1
    exact List.nil_prefix
  | cons c s ih =>
    by_cases hc : c = sep
    · subst hc
      rw [splitOn_cons_self] at h
      obtain rfl := (List.cons.inj h).1
      exact List.nil_prefix
    · obtain ⟨l', ls', hs⟩ := exists_splitOn_eq_cons sep s
      rw [splitOn_cons_of_ne_of_eq hc hs] at h
      obtain ⟨rfl, rfl⟩ := List.cons.inj h
      exact List.cons_prefix_cons.2 ⟨rfl, ih hs⟩

theorem splitOn_append_of_not_mem {before : List α} (h : sep ∉ before)
    (hs : s.splitOn sep = l :: ls) : (before ++ s).splitOn sep = (before ++ l) :: ls := by
  induction before with
  | nil => exact hs
  | cons c before ih =>
    obtain ⟨hc, hbefore⟩ := not_or.1 (mt List.mem_cons.2 h)
    exact splitOn_cons_of_ne_of_eq (Ne.symm hc) (ih hbefore)

theorem splitOn_dropWhile (h : s.splitOn sep = l :: ls) :
    (s.dropWhile (· ≠ sep)).splitOn sep = [] :: ls := by
  induction s generalizing l with
  | nil =>
    obtain ⟨-, rfl⟩ := List.cons.inj h
    rfl
  | cons c s ih =>
    by_cases hc : c = sep
    · subst hc
      rw [splitOn_cons_self] at h
      rw [List.dropWhile_cons_of_neg (by simp), splitOn_cons_self, (List.cons.inj h).2]
    · obtain ⟨l', ls', hs⟩ := exists_splitOn_eq_cons sep s
      rw [splitOn_cons_of_ne_of_eq hc hs] at h
      obtain ⟨-, rfl⟩ := List.cons.inj h
      rw [List.dropWhile_cons_of_pos (by simpa using hc)]
      exact ih hs

theorem not_prefix_head (h : ¬ pat <+: c :: s) (hs : s.splitOn sep = l :: ls) :
    ¬ pat <+: c :: l :=
  fun hp => h (hp.trans (List.cons_prefix_cons.2 ⟨rfl, head_splitOn_prefix hs⟩))

/-- **The line of the first occurrence.**  A pattern without separator first occurs in the first
line that holds it, and what replaces the rest of the line there replaces it in that line. -/
theorem exists_splitOn_of_find (hpat : pat ≠ []) (hsep : sep ∉ pat) (h : find pat s = some n) :
    ∃ above line below k, s.splitOn sep = above ++ line :: below ∧
      (∀ l ∈ above, find pat l = none) ∧ find pat line = some k ∧
      ∀ new, sep ∉ new → (s.take n ++ (new ++ (s.drop n).dropWhile (· ≠ sep))).splitOn sep =
        above ++ (line.take k ++ new) :: below := by
  induction s generalizing n with
  | nil =>
    rw [find_nil hpat] at h
    cases h
  | cons c s ih =>
    obtain ⟨l, ls, hs⟩ := exists_splitOn_eq_cons sep s
    by_cases hp : pat <+: c :: s
    · -- the pattern opens the first line
      rw [find_eq_zero hp] at h
      cases h
      obtain ⟨after, hafter⟩ := hp
      obtain ⟨l', ls', hrest⟩ := exists_splitOn_eq_cons sep after
      have hlines := splitOn_append_of_not_mem hsep hrest
      rw [hafter] at hlines
      refine ⟨[], pat ++ l', ls', 0, hlines, by simp, find_eq_zero ⟨l', rfl⟩, fun new hnew => ?_⟩
      have hnewLines := splitOn_append_of_not_mem hnew (splitOn_dropWhile hlines)
      rw [List.append_nil] at hnewLines
      exact hnewLines
    · rw [find_cons_of_not hp, Option.map_eq_some_iff] at h
      obtain ⟨m, hm, rfl⟩ := h
      obtain ⟨above, line, below, k, hlines, habove, hline, hedit⟩ := ih hm
      by_cases hc : c = sep
      · -- the first line is empty
        subst hc
        refine ⟨[] :: above, line, below, k, ?_, ?_, hline, fun new hnew => ?_⟩
        · rw [splitOn_cons_self, hlines]
          rfl
        · rintro l (_ | ⟨_, hl⟩)
          · exact find_nil hpat
          · exact habove l hl
        · rw [List.take_succ_cons, List.drop_succ_cons, List.cons_append, splitOn_cons_self,
            hedit new hnew]
          rfl
      · -- the first line is one character longer
        cases above with
        | nil =>
          have hp' : ¬ pat <+: c :: line := not_prefix_head hp hlines
          refine ⟨[], c :: line, below, k + 1, splitOn_cons_of_ne_of_eq hc hlines, by simp, ?_,
            fun new hnew => ?_⟩
          · rw [find_cons_of_not hp', hline]
            rfl
          · rw [List.take_succ_cons, List.drop_succ_cons, List.cons_append,
              splitOn_cons_of_ne_of_eq hc (hedit new hnew)]
            rfl
        | cons a above =>
          have hp' : ¬ pat <+: c :: a := not_prefix_head hp hlines
          refine ⟨(c :: a) :: above, line, below, k, splitOn_cons_of_ne_of_eq hc hlines, ?_, hline,
            fun new hnew => ?_⟩
          · rintro l (_ | ⟨_, hl⟩)
            · rw [find_cons_of_not hp', habove a List.mem_cons_self]
              rfl
            · exact habove l (List.mem_cons_of_mem a hl)
          · rw [List.take_succ_cons, List.drop_succ_cons, List.cons_append,
              splitOn_cons_of_ne_of_eq hc (hedit new hnew)]
            rfl

theorem find_eq_none_of_mem_splitOn (hpat : pat ≠ []) (h : find pat s = none)
    (hl : l ∈ s.splitOn sep) : find pat l = none := by
  induction s generalizing l with
  | nil =>
    obtain rfl : l = [] := List.mem_singleton.1 hl
    exact find_nil hpat
  | cons c s ih =>
    have hp : ¬ pat <+: c :: s := by
      intro hp
      rw [find_eq_zero hp] at h
      cases h
    rw [find_cons_of_not hp, Option.map_eq_none_iff] at h
    by_cases hc : c = sep
    · subst hc
      rw [splitOn_cons_self] at hl
      rcases List.mem_cons.1 hl with rfl | hl
      · exact find_nil hpat
      · exact ih h hl
    · obtain ⟨l', ls, hs⟩ := exists_splitOn_eq_cons sep s
      rw [splitOn_cons_of_ne_of_eq hc hs] at hl
      have hmem : ∀ x ∈ l' :: ls, find pat x = none := fun x hx => ih h (hs ▸ hx)
      rcases List.mem_cons.1 hl with rfl | hl
      · rw [find_cons_of_not (not_prefix_head hp hs), hmem l' List.mem_cons_self]
        rfl
      · exact hmem l (List.mem_cons_of_mem l' hl)

/-- **The lines of a block** that ends before the first line after its head that begins with `c`. -/
theorem splitOn_take_find (hc : c ≠ sep) (s : List α) :
    (s.take ((find [sep, c] s).getD s.length)).splitOn sep = linesUntil c (s.splitOn sep) := by
  induction s with
  | nil => rfl
  | cons a s ih =>
    obtain ⟨l, ls, hs⟩ := exists_splitOn_eq_cons sep s
    by_cases hp : [sep, c] <+: a :: s
    · obtain ⟨r, hr⟩ := hp
      obtain ⟨rfl, rfl⟩ := List.cons.inj hr
      obtain ⟨l', ls', hr'⟩ := exists_splitOn_eq_cons sep r
      have hfind : find [sep, c] (sep :: c :: r) = some 0 := find_eq_zero ⟨r, rfl⟩
      show ((sep :: c :: r).take ((find [sep, c] (sep :: c :: r)).getD _)).splitOn sep =
        linesUntil c ((sep :: c :: r).splitOn sep)
      rw [hfind, splitOn_cons_self, splitOn_cons_of_ne_of_eq hc hr']
      simp [linesUntil]
    · have hlen : ((find [sep, c] (a :: s)).getD (a :: s).length) =
          (find [sep, c] s).getD s.length + 1 := by
        rw [find_cons_of_not hp]
        cases find [sep, c] s <;> rfl
      rw [hlen, List.take_succ_cons]
      by_cases ha : a = sep
      · subst ha
        have hhead : l.head? ≠ some c := by
          intro hhead
          obtain ⟨r, hr⟩ := head_splitOn_prefix hs
          cases l with
          | nil => cases hhead
          | cons b l =>
            obtain rfl : b = c := Option.some.inj hhead
            exact hp ⟨l ++ r, by rw [← hr]; rfl⟩
        rw [splitOn_cons_self, ih, splitOn_cons_self, hs]
        simp [linesUntil, hhead]
      · rw [splitOn_cons_of_ne ha, ih, splitOn_cons_of_ne ha, hs]
        rfl

theorem linesUntil_prefix (c : α) (ls : List (List α)) : linesUntil c ls <+: ls := by
  cases ls with
  | nil => exact List.nil_prefix
  | cons l ls => exact List.cons_prefix_cons.2 ⟨rfl, List.takeWhile_prefix _⟩

omit [DecidableEq α] in
theorem findIdx?_cons_of_neg {β : Type*} {p : β → Bool} {x : β} (hx : p x = false) (xs : List β)
    (k : ℕ) : (x :: xs).findIdx? p = some (k + 1) ↔ xs.findIdx? p = some k := by
  rw [List.findIdx?_cons, hx]
  cases xs.findIdx? p <;> simp

omit [DecidableEq α] in
theorem findIdx?_cons_of_pos {β : Type*} {p : β → Bool} {x : β} (hx : p x = true) (xs : List β)
    (k : ℕ) : (x :: xs).findIdx? p ≠ some (k + 1) := by
  rw [List.findIdx?_cons, hx]
  simp

omit [DecidableEq α] in
theorem findIdx?_append_cons {β : Type*} {p : β → Bool} {above below : List β} {x : β}
    (hx : p x = true) (habove : ∀ l ∈ above, p l = false) :
    (above ++ x :: below).findIdx? p = some above.length := by
  induction above with
  | nil => rw [List.nil_append, List.findIdx?_cons, if_pos hx]; rfl
  | cons a above ih =>
    refine (findIdx?_cons_of_neg (habove a List.mem_cons_self) _ _).2 (ih fun l hl => ?_)
    exact habove l (List.mem_cons_of_mem a hl)

omit [DecidableEq α] in
/-- The first line with `p` among the leading lines with `q`, told from the lines down to it. -/
theorem findIdx?_takeWhile_iff {β : Type*} {p q : β → Bool} {above below : List β} {x : β} :
    ((above ++ x :: below).takeWhile q).findIdx? p = some above.length ↔
      (p x = true ∧ ∀ l ∈ above, p l = false) ∧ ∀ l ∈ above ++ [x], q l = true := by
  induction above with
  | nil =>
    cases hq : q x
    · simp [hq]
    · cases hp : p x <;> simp [List.findIdx?_cons, hq, hp]
  | cons a above ih =>
    cases hq : q a
    · simp [hq]
    · rw [List.cons_append, List.takeWhile_cons_of_pos hq, List.length_cons]
      cases hp : p a
      · rw [findIdx?_cons_of_neg hp, ih]
        simp [hp, hq]
      · simp [findIdx?_cons_of_pos hp, hp]

/-- The first line with `p` of a block, told from the lines down to it. -/
theorem findIdx?_linesUntil_iff {p : List α → Bool} {above below : List (List α)} {x : List α} :
    (linesUntil c (above ++ x :: below)).findIdx? p = some above.length ↔
      (p x = true ∧ ∀ l ∈ above, p l = false) ∧ ∀ l ∈ (above ++ [x]).tail, l.head? ≠ some c := by
  cases above with
  | nil => cases hp : p x <;> simp [linesUntil, List.findIdx?_cons, hp]
  | cons a above =>
    show (a :: (above ++ x :: below).takeWhile _).findIdx? p = some (above.length + 1) ↔ _
    cases hp : p a
    · rw [findIdx?_cons_of_neg hp, findIdx?_takeWhile_iff]
      simp [hp]
    · simp [findIdx?_cons_of_pos hp, hp]

omit [DecidableEq α] in
theorem AgreeOff.trans {β : Type*} {k : ℕ} {xs ys zs : List β} (h : AgreeOff k xs ys)
    (h' : AgreeOff k ys zs) : AgreeOff k xs zs :=
  fun i hi => (h i hi).trans (h' i hi)

omit [DecidableEq α] in
theorem agreeOff_cons {β : Type*} {k : ℕ} (x : β) (xs ys : List β) :
    AgreeOff (k + 1) (x :: xs) (x :: ys) ↔ AgreeOff k xs ys := by
  constructor
  · intro h i hi
    exact h (i + 1) (by omega)
  · rintro h (_ | i) hi
    · rfl
    · exact h i (by omega)

omit [DecidableEq α] in
theorem agreeOff_modifyHead {β : Type*} {f : β → β} (hf : Function.Injective f) {k : ℕ}
    (xs ys : List β) : AgreeOff k (xs.modifyHead f) (ys.modifyHead f) ↔ AgreeOff k xs ys := by
  have hget : ∀ (zs : List β) i,
      (zs.modifyHead f)[i]? = if i = 0 then zs[i]?.map f else zs[i]? := by
    intro zs i
    cases zs <;> cases i <;> simp
  refine forall₂_congr fun i _ => ?_
  rw [hget, hget]
  split_ifs
  · exact (Option.map_injective hf).eq_iff
  · exact Iff.rfl

/-- **What precedes two texts** does not change in how many lines they differ. -/
theorem agreeOff_splitOn_append (before s t : List α) (k : ℕ) :
    AgreeOff (before.count sep + k) ((before ++ s).splitOn sep) ((before ++ t).splitOn sep) ↔
      AgreeOff k (s.splitOn sep) (t.splitOn sep) := by
  induction before with
  | nil => rw [List.count_nil, Nat.zero_add]; rfl
  | cons c before ih =>
    by_cases hc : c = sep
    · subst hc
      rw [List.count_cons_self, List.cons_append, List.cons_append, splitOn_cons_self,
        splitOn_cons_self, Nat.add_right_comm, agreeOff_cons, ih]
    · rw [List.count_cons_of_ne hc, List.cons_append, List.cons_append, splitOn_cons_of_ne hc,
        splitOn_cons_of_ne hc, agreeOff_modifyHead (List.cons_injective), ih]

omit [DecidableEq α] in
/-- After an edit of one line the others agree, and no other line may be left out. -/
theorem agreeOff_append_cons_iff {β : Type*} {above below : List β} {x y : β} {k : ℕ} :
    AgreeOff k (above ++ x :: below) (above ++ y :: below) ↔ k = above.length ∨ x = y := by
  constructor
  · intro h
    by_cases hk : k = above.length
    · exact Or.inl hk
    · right
      simpa using h above.length (Ne.symm hk)
  · rintro (rfl | rfl) i hi
    · rcases Nat.lt_or_gt_of_ne hi with hlt | hgt
      · rw [List.getElem?_append_left hlt, List.getElem?_append_left hlt]
      · obtain ⟨j, rfl⟩ := Nat.exists_eq_add_of_lt hgt
        simp [List.getElem?_append_right, Nat.add_assoc]
    · rfl

end Lines

end TextSearch
