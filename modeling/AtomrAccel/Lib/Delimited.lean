import Mathlib.Tactic

/-!
# Lists flattened with a separator

Several lists are often hashed as one, with a separator between them.  When the separator may occur
in the lists, the flat list determines them only together with their lengths.

* `List.eq_of_intercalate_eq`: equal flat lists with parts of equal lengths have equal parts;
* `List.eq_of_intercalate_eq_of_not_mem`: no lengths are needed when the separator does not occur;
* `List.append_cons_cancel`: what stands before the first separator is determined;
* `List.eq_of_flatMap_cons`: so are parts that are each led in by the separator;
* `List.infix_append_cons_iff`: a list without the separator occurs on one side of it.
-/

namespace List

variable {α : Type*}

theorem eq_of_intercalate_eq {sep : List α} {xs ys : List (List α)}
    (hlen : xs.map length = ys.map length) (h : sep.intercalate xs = sep.intercalate ys) :
    xs = ys := by
  induction xs generalizing ys with
  | nil => exact (map_eq_nil_iff.1 hlen.symm).symm
  | cons x xs ih =>
    cases ys with
    | nil => cases hlen
    | cons y ys =>
      obtain ⟨hx, hrest⟩ := cons.inj hlen
      by_cases hnil : xs = []
      · subst hnil
        obtain rfl : ys = [] := map_eq_nil_iff.1 hrest.symm
        simpa using h
      · have hnil' : ys ≠ [] := fun hys => hnil (map_eq_nil_iff.1 (by rw [hrest, hys]; rfl))
        rw [intercalate_cons_of_ne_nil hnil, intercalate_cons_of_ne_nil hnil', append_assoc,
          append_assoc] at h
        obtain ⟨rfl, htail⟩ := append_inj h hx
        rw [ih hrest (append_cancel_left htail)]

theorem eq_of_intercalate_eq_of_not_mem [DecidableEq α] {sep : α} {xs ys : List (List α)}
    (hxs : ∀ x ∈ xs, sep ∉ x) (hys : ∀ y ∈ ys, sep ∉ y) (hx : xs ≠ []) (hy : ys ≠ [])
    (h : [sep].intercalate xs = [sep].intercalate ys) : xs = ys := by
  rw [← splitOn_intercalate sep hxs hx, h, splitOn_intercalate sep hys hy]

/-- What stands before the first separator can be read off. -/
theorem append_cons_cancel {sep : α} {a a' b b' : List α} (ha : sep ∉ a) (ha' : sep ∉ a')
    (h : a ++ sep :: b = a' ++ sep :: b') : a = a' ∧ b = b' := by
  induction a generalizing a' with
  | nil =>
    cases a' with
    | nil => exact ⟨rfl, (cons.inj h).2⟩
    | cons x a' => exact absurd ((cons.inj h).1 ▸ mem_cons_self) ha'
  | cons x a ih =>
    cases a' with
    | nil => exact absurd ((cons.inj h).1 ▸ mem_cons_self) ha
    | cons x' a' =>
      obtain ⟨rfl, hrest⟩ := cons.inj h
      obtain ⟨rfl, hb⟩ := ih (not_mem_of_not_mem_cons ha) (not_mem_of_not_mem_cons ha') hrest
      exact ⟨rfl, hb⟩

theorem flatMap_cons_concat (sep : α) (xs : List (List α)) :
    xs.flatMap (sep :: ·) ++ [sep] = sep :: xs.flatMap (· ++ [sep]) := by
  induction xs with
  | nil => rfl
  | cons x xs ih => rw [flatMap_cons, append_assoc, ih, flatMap_cons]; simp

/-- Parts that are each led in by the separator. -/
theorem eq_of_flatMap_cons {sep : α} {xs ys : List (List α)} (hxs : ∀ x ∈ xs, sep ∉ x)
    (hys : ∀ y ∈ ys, sep ∉ y) (h : xs.flatMap (sep :: ·) = ys.flatMap (sep :: ·)) : xs = ys := by
  induction xs generalizing ys with
  | nil =>
    cases ys with
    | nil => rfl
    | cons y ys => cases h
  | cons x xs ih =>
    cases ys with
    | nil => cases h
    | cons y ys =>
      obtain ⟨hx, hxs'⟩ := forall_mem_cons.1 hxs
      obtain ⟨hy, hys'⟩ := forall_mem_cons.1 hys
      have htail : x ++ xs.flatMap (sep :: ·) = y ++ ys.flatMap (sep :: ·) := (cons.inj h).2
      have hmarked := congrArg (· ++ [sep]) htail
      simp only [append_assoc, flatMap_cons_concat] at hmarked
      obtain ⟨rfl, -⟩ := append_cons_cancel hx hy hmarked
      rw [ih hxs' hys' (append_cancel_left htail)]

theorem prefix_append_cons_iff {t a b : List α} {sep : α} (hsep : sep ∉ t) :
    t <+: a ++ sep :: b ↔ t <+: a := by
  refine ⟨fun h => ?_, fun h => h.trans (prefix_append _ _)⟩
  have hle : t.length ≤ a.length := by
    by_contra hlt
    have hget : t[a.length]? = some sep := by
      obtain ⟨u, hu⟩ := h
      have hat := congrArg (·[a.length]?) hu
      simpa [getElem?_append_left (not_le.1 hlt)] using hat
    exact hsep (mem_of_getElem? hget)
  exact prefix_of_prefix_length_le h (prefix_append _ _) hle

theorem infix_append_cons_iff {t a b : List α} {sep : α} (hsep : sep ∉ t) :
    t <:+: a ++ sep :: b ↔ t <:+: a ∨ t <:+: b := by
  induction a with
  | nil =>
    rw [nil_append, infix_cons_iff]
    constructor
    · rintro (hhead | htail)
      · have hnil : t = [] := by
          simpa using (prefix_append_cons_iff (a := []) hsep).1 hhead
        exact .inl (hnil ▸ nil_infix)
      · exact .inr htail
    · rintro (hnil | htail)
      · exact .inl (infix_nil.1 hnil ▸ nil_prefix)
      · exact .inr htail
  | cons x a ih =>
    rw [cons_append, infix_cons_iff, ih, infix_cons_iff, ← cons_append,
      prefix_append_cons_iff hsep, or_assoc]

end List
