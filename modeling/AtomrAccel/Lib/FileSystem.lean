import Mathlib.Tactic
import Mathlib.Logic.Function.Basic

/-!
# A directory of named files

The part of a POSIX file system that a program which replaces files by `rename` relies on.  A name
leads to a file, a file has contents, and a file that is open can be written whether or not a name
still leads to it.

* `FileSystem`: names and contents, without hard links;
* `create` (`O_CREAT | O_TRUNC`), `writeAt`, `rename`, `unlink`, `read`;
* what each operation does to `entries`, `contents` and `read`.
-/

/-- Names lead to files by number, below `fresh`; two names never lead to one file. -/
structure FileSystem (Name : Type*) where
  entries : Name → Option ℕ
  contents : ℕ → List UInt8
  fresh : ℕ
  lt_fresh : ∀ n i, entries n = some i → i < fresh
  unique : ∀ n m i, entries n = some i → entries m = some i → n = m

namespace FileSystem

variable {Name : Type*}

/-- The empty directory. -/
def empty : FileSystem Name := ⟨fun _ => none, fun _ => [], 0, nofun, nofun⟩

/-- The contents a name leads to. -/
def read (fs : FileSystem Name) (n : Name) : Option (List UInt8) := (fs.entries n).map fs.contents

/-- Give the file `i` new contents. -/
def store (fs : FileSystem Name) (i : ℕ) (bytes : List UInt8) : FileSystem Name :=
  { fs with contents := Function.update fs.contents i bytes }

/-- `bytes` written over `old` from the offset `off`; a gap before it reads as zeros. -/
def overlay (old : List UInt8) (off : ℕ) (bytes : List UInt8) : List UInt8 :=
  old.take off ++ List.replicate (off - old.length) 0 ++ bytes ++ old.drop (off + bytes.length)

/-- `pwrite` on the open file `i`. -/
def writeAt (fs : FileSystem Name) (i off : ℕ) (bytes : List UInt8) : FileSystem Name :=
  fs.store i (overlay (fs.contents i) off bytes)

/-- A new, empty file that no name leads to yet. -/
def alloc (fs : FileSystem Name) : FileSystem Name :=
  { fs.store fs.fresh [] with
    fresh := fs.fresh + 1
    lt_fresh := fun n i h => (fs.lt_fresh n i h).trans (Nat.lt_succ_self _) }

theorem alloc_entries_ne (fs : FileSystem Name) (n : Name) :
    fs.alloc.entries n ≠ some fs.fresh := fun h => lt_irrefl _ (fs.lt_fresh n _ h)

section Contents

variable {fs : FileSystem Name} {n m : Name} {i : ℕ}

theorem read_of_entries (h : fs.entries n = some i) : fs.read n = some (fs.contents i) := by
  rw [read, h, Option.map_some]

/-- Changing a file is seen under its own name only. -/
theorem store_read_of_ne {bytes : List UInt8} (h : fs.entries n = some i) (hm : m ≠ n) :
    (fs.store i bytes).read m = fs.read m := by
  unfold read store
  cases hj : fs.entries m with
  | none => rfl
  | some j =>
    have hji : j ≠ i := by
      rintro rfl
      exact hm (fs.unique m n j hj h)
    simp [Function.update_of_ne hji]

theorem writeAt_contents_self {off : ℕ} {bytes : List UInt8} :
    (fs.writeAt i off bytes).contents i = overlay (fs.contents i) off bytes :=
  Function.update_self _ _ _

/-- Writing the next part of `bytes` at the end of its first part. -/
theorem overlay_take {bytes : List UInt8} {off k : ℕ} (hoff : off ≤ bytes.length) :
    overlay (bytes.take off) off ((bytes.drop off).take k) = bytes.take (off + k) := by
  have hlen : (bytes.take off).length = off := List.length_take_of_le hoff
  unfold overlay
  rw [hlen, Nat.sub_self, List.replicate_zero, List.append_nil, List.take_take, min_self,
    List.drop_take, Nat.sub_eq_zero_of_le (Nat.le_add_right _ _), List.take_zero, List.append_nil,
    List.take_add]

end Contents

section Entries

variable [DecidableEq Name]

/-- Let `n` lead where no name leads any more. -/
def relink (fs : FileSystem Name) (n : Name) (i : ℕ) (hi : i < fs.fresh)
    (hfree : ∀ m, fs.entries m ≠ some i) : FileSystem Name where
  entries := Function.update fs.entries n (some i)
  contents := fs.contents
  fresh := fs.fresh
  lt_fresh m j h := by
    by_cases hm : m = n
    · simp only [hm, Function.update_self, Option.some.injEq] at h
      exact h ▸ hi
    · rw [Function.update_of_ne hm] at h
      exact fs.lt_fresh m j h
  unique m m' j h h' := by
    by_cases hm : m = n <;> by_cases hm' : m' = n
    · rw [hm, hm']
    · simp only [hm, Function.update_self, Option.some.injEq] at h
      rw [Function.update_of_ne hm', ← h] at h'
      exact absurd h' (hfree m')
    · simp only [hm', Function.update_self, Option.some.injEq] at h'
      rw [Function.update_of_ne hm, ← h'] at h
      exact absurd h (hfree m)
    · rw [Function.update_of_ne hm] at h
      rw [Function.update_of_ne hm'] at h'
      exact fs.unique m m' j h h'

/-- Open for writing, with the number of the file: an existing file is truncated, and a missing
one is made. -/
def create (fs : FileSystem Name) (n : Name) : FileSystem Name × ℕ :=
  match fs.entries n with
  | some i => (fs.store i [], i)
  | none =>
    (fs.alloc.relink n fs.fresh (Nat.lt_succ_self _) fs.alloc_entries_ne, fs.fresh)

/-- Remove a name; the file stays for those who have it open. -/
def unlink (fs : FileSystem Name) (n : Name) : FileSystem Name where
  entries := Function.update fs.entries n none
  contents := fs.contents
  fresh := fs.fresh
  lt_fresh m i h := by
    by_cases hm : m = n
    · simp [hm] at h
    · rw [Function.update_of_ne hm] at h
      exact fs.lt_fresh m i h
  unique m m' i h h' := by
    by_cases hm : m = n
    · simp [hm] at h
    by_cases hm' : m' = n
    · simp [hm'] at h'
    rw [Function.update_of_ne hm] at h
    rw [Function.update_of_ne hm'] at h'
    exact fs.unique m m' i h h'

theorem unlink_entries_ne (fs : FileSystem Name) {n : Name} {i : ℕ} (h : fs.entries n = some i)
    (m : Name) : (fs.unlink n).entries m ≠ some i := by
  intro hm
  by_cases hmn : m = n
  · simp [unlink, hmn] at hm
  · have hold : (fs.unlink n).entries m = fs.entries m := Function.update_of_ne hmn _ _
    exact hmn (fs.unique m n i (hold ▸ hm) h)

/-- Atomically move a file to another name, replacing what was there; there has to be a file. -/
def rename (fs : FileSystem Name) (old new : Name) : Option (FileSystem Name) :=
  match h : fs.entries old with
  | none => none
  | some i =>
    some ((fs.unlink old).relink new i (fs.lt_fresh old i h) (fs.unlink_entries_ne h))

variable {fs fs' : FileSystem Name} {n m : Name} {i : ℕ}

theorem create_entries_self : (fs.create n).1.entries n = some (fs.create n).2 := by
  unfold create
  split
  · assumption
  · exact Function.update_self n _ _

theorem create_contents_self : (fs.create n).1.contents (fs.create n).2 = [] := by
  unfold create
  split
  · exact Function.update_self _ _ _
  · exact Function.update_self _ _ _

theorem create_read_of_ne (hm : m ≠ n) : (fs.create n).1.read m = fs.read m := by
  unfold create
  split
  · rename_i i hi
    exact store_read_of_ne hi hm
  · unfold read
    have hentry : (fs.alloc.relink n fs.fresh (Nat.lt_succ_self _)
        fs.alloc_entries_ne).entries m = fs.entries m := Function.update_of_ne hm _ _
    rw [hentry]
    cases hj : fs.entries m with
    | none => rfl
    | some j =>
      have hfresh : j ≠ fs.fresh := (fs.lt_fresh m j hj).ne
      exact congrArg some (Function.update_of_ne hfresh _ _)

theorem rename_eq_none : fs.rename n m = none ↔ fs.entries n = none := by
  unfold rename
  split <;> simp_all

/-- A rename that succeeds: the file has the new name only. -/
theorem rename_spec (h : fs.rename n m = some fs') (hne : n ≠ m) :
    ∃ i, fs.entries n = some i ∧ fs'.entries m = some i ∧ fs'.entries n = none ∧
      fs'.contents = fs.contents := by
  unfold rename at h
  split at h
  · cases h
  · rename_i i hi
    cases h
    refine ⟨i, hi, Function.update_self _ _ _, ?_, rfl⟩
    exact (Function.update_of_ne hne _ _).trans (Function.update_self _ _ _)

/-- Other names do not notice a rename. -/
theorem rename_read_of_ne {p : Name} (h : fs.rename n m = some fs') (hn : p ≠ n) (hm : p ≠ m) :
    fs'.read p = fs.read p := by
  unfold rename at h
  split at h
  · cases h
  · rename_i i hi
    cases h
    have hentry : Function.update (Function.update fs.entries n none) m (some i) p =
        fs.entries p := (Function.update_of_ne hm _ _).trans (Function.update_of_ne hn _ _)
    exact congrArg (Option.map fs.contents) hentry

end Entries

end FileSystem
