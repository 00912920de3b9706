import Mathlib.Data.List.AList
import Mathlib.Tactic

/-!
# Maps from keys to lists

* `bucket`, `items`: the list of a key, and the items of all of them;
* `items_push`, `items_pop`: the items after one is added to a list or taken off it;
* `bucket_insert_self`, `bucket_insert_ne`: the lists after one is replaced;
* `fill`, `bucket_fill`: what is appended to the list of its own key, one after the other;
* `flatMap_filter_perm`: what lies under one of several keys.
-/

/-- Lists of items under keys. -/
abbrev Buckets (κ α : Type*) := AList fun _ : κ => List α

namespace Buckets

variable {κ α : Type*}

/-- All items. -/
def items (b : Buckets κ α) : List α := b.entries.flatMap Sigma.snd

variable [DecidableEq κ]

/-- The items of a key; there are none under a key that is missing. -/
def bucket (b : Buckets κ α) (k : κ) : List α := (b.lookup k).getD []

variable {b : Buckets κ α} {k k' : κ} {x : α} {l : List α}

theorem bucket_insert_self : bucket (b.insert k l) k = l := by
  rw [bucket, AList.lookup_insert, Option.getD_some]

theorem bucket_insert_ne (h : k' ≠ k) : bucket (b.insert k l) k' = b.bucket k' := by
  rw [bucket, AList.lookup_insert_ne h, bucket]

/-- The items are those of one key and the rest. -/
theorem items_perm (b : Buckets κ α) (k : κ) : b.items.Perm (b.bucket k ++ items (b.erase k)) := by
  by_cases hk : k ∈ b.entries.keys
  · obtain ⟨l, before, after, hbefore, hentries, herase⟩ := List.exists_of_kerase hk
    have hbucket : b.bucket k = l := by
      have hlook : b.lookup k = some l := by
        rw [AList.lookup, hentries, List.dlookup_append]
        rw [List.dlookup_eq_none.2 hbefore, List.dlookup_cons_eq]
        rfl
      rw [bucket, hlook, Option.getD_some]
    have hrest : items (b.erase k) = before.flatMap Sigma.snd ++ after.flatMap Sigma.snd := by
      show (b.entries.kerase k).flatMap Sigma.snd = _
      rw [herase, List.flatMap_append]
    rw [hbucket, hrest, items, hentries, List.flatMap_append, List.flatMap_cons]
    exact List.perm_append_comm_assoc _ _ _
  · have hbucket : b.bucket k = [] := by
      rw [bucket, AList.lookup, List.dlookup_eq_none.2 hk]
      rfl
    have hrest : items (b.erase k) = b.items := by
      show (b.entries.kerase k).flatMap Sigma.snd = _
      rw [List.kerase_of_notMem_keys hk, items]
    rw [hbucket, hrest, List.nil_append]

theorem items_insert (b : Buckets κ α) (k : κ) (l : List α) :
    items (b.insert k l) = l ++ items (b.erase k) := by
  show (b.entries.kinsert k l).flatMap Sigma.snd = l ++ (b.entries.kerase k).flatMap Sigma.snd
  rw [List.kinsert_def, List.flatMap_cons]

/-- One item is added. -/
theorem items_push (b : Buckets κ α) (k : κ) (x : α) :
    (items (b.insert k (x :: b.bucket k))).Perm (x :: b.items) := by
  rw [items_insert, List.cons_append]
  exact (b.items_perm k).symm.cons x

/-- One item is taken off. -/
theorem items_pop (h : b.bucket k = x :: l) : b.items.Perm (x :: items (b.insert k l)) := by
  rw [items_insert, ← List.cons_append, ← h]
  exact b.items_perm k

/-- Putting a list back changes no item. -/
theorem items_insert_bucket (b : Buckets κ α) (k : κ) :
    (items (b.insert k (b.bucket k))).Perm b.items := by
  rw [items_insert]
  exact (b.items_perm k).symm

/-! ### Filling -/

variable {β : Type*} (key : β → κ) (val : β → α)

/-- Each of `xs` is appended to the list of its key. -/
def fill (b : Buckets κ α) (xs : List β) : Buckets κ α :=
  xs.foldl (fun b x => b.insert (key x) (b.bucket (key x) ++ [val x])) b

theorem bucket_fill (b : Buckets κ α) (xs : List β) (k : κ) :
    (b.fill key val xs).bucket k = b.bucket k ++ (xs.filter fun x => key x = k).map val := by
  induction xs generalizing b with
  | nil => exact (List.append_nil _).symm
  | cons x xs ih =>
    show (fill key val (b.insert (key x) (b.bucket (key x) ++ [val x])) xs).bucket k = _
    rw [ih]
    by_cases hk : k = key x
    · subst hk
      rw [bucket_insert_self, List.filter_cons_of_pos (by simp), List.map_cons,
        List.append_assoc]
      rfl
    · rw [bucket_insert_ne hk, List.filter_cons_of_neg (by simpa using Ne.symm hk)]

/-- Gone through key by key, everything under one of the keys `ks` comes up once. -/
theorem flatMap_filter_perm {ks : List κ} (hks : ks.Nodup) (xs : List β) :
    (ks.flatMap fun k => xs.filter fun x => key x = k).Perm (xs.filter fun x => key x ∈ ks) := by
  induction ks with
  | nil => simp
  | cons k ks ih =>
    obtain ⟨hk, hks⟩ := List.nodup_cons.1 hks
    have hfirst : (xs.filter fun x => key x ∈ k :: ks).filter (fun x => key x = k) =
        xs.filter fun x => key x = k := by
      rw [List.filter_filter]
      refine List.filter_congr fun x _ => ?_
      by_cases hx : key x = k <;> simp [hx]
    have hrest : (xs.filter fun x => key x ∈ k :: ks).filter (fun x => !decide (key x = k)) =
        xs.filter fun x => key x ∈ ks := by
      rw [List.filter_filter]
      refine List.filter_congr fun x _ => ?_
      by_cases hx : key x = k
      · simp [hx, hk]
      · simp [hx]
    have hsplit := List.filter_append_perm (fun x => decide (key x = k))
      (xs.filter fun x => key x ∈ k :: ks)
    rw [hfirst, hrest] at hsplit
    rw [List.flatMap_cons]
    exact ((ih hks).append_left _).trans hsplit

end Buckets
