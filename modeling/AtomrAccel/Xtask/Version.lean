import AtomrAccel.Lib.TextSearch

/-!
# Reading and bumping the workspace version

`read_workspace_version` walks the lines of the `[workspace.package]` block for one that begins with
`version`.  `write_workspace_version` looks for the first `version = ` after the header, wherever it
stands, and replaces the rest of that line.

* `readWorkspaceVersion`, `writeWorkspaceVersion`: the code, on the text of the manifest;
* `ownLine`, `keyLine`: the line the one takes the version from and the line the other edits;
* `Bumps`: a bump reads back as the new version and changes the package's own line only;
* `bumps_iff`: so it does exactly when the first `version = ` stands on that line with no `=` before
  it, or there was nothing to change;
* `bumps_run`: with the key on that line, every sequence of bumps does.
-/

namespace AtomrAccel

namespace Xtask

open TextSearch

/-- A text, as its characters. -/
abbrev Text := List Char

/-- The header of the block. -/
def header : Text := "[workspace.package]".toList

/-- The key of the version. -/
def versionKey : Text := "version".toList

/-- What the version stands behind. -/
def needle : Text := "version = ".toList

/-- `char::is_whitespace`: the property `White_Space`. -/
def isWhitespace (c : Char) : Bool :=
  (9 ≤ c.toNat && c.toNat ≤ 13) || c.toNat ∈ [0x20, 0x85, 0xa0, 0x1680] ||
    (0x2000 ≤ c.toNat && c.toNat ≤ 0x200a) || c.toNat ∈ [0x2028, 0x2029, 0x202f, 0x205f, 0x3000]

/-- `str::trim_start`. -/
def trimStart (s : Text) : Text := s.dropWhile isWhitespace

/-- `str::trim`. -/
def trim (s : Text) : Text := trimMatches isWhitespace s

/-- A line without its carriage return. -/
def stripCr (line : Text) : Text :=
  if line.getLast? = some '\r' then line.dropLast else line

/-- `str::lines`: a `\r` goes with the newline it stands before, and a text that ends in a newline
has no line after it. -/
def lines (s : Text) : List Text :=
  (s.splitOn '\n').dropLast.map stripCr ++ (s.splitOn '\n').getLast?.toList.filter (· ≠ [])

/-! ### The code -/

/-- `&text[block_start..block_end]`. -/
def block (text : Text) (blockStart : ℕ) : Text :=
  let blockEnd :=
    ((find "\n[".toList (text.drop blockStart)).map (blockStart + ·)).getD text.length
  (text.take blockEnd).drop blockStart

/-- The version in what follows the key. -/
def value (rest : Text) : Text :=
  let afterEq := ((splitOnce '=' rest).map fun sides => trim sides.2).getD []
  trimMatches (· = '\x27') (trimMatches (· = '"') afterEq)

/-- The version of the first line that has one. -/
def firstVersion : List Text → Except String Text
  | [] => .error "no version key in [workspace.package]"
  | line :: rest =>
    match (trimStart line).dropPrefix? versionKey with
    | some afterKey => .ok (value afterKey)
    | none => firstVersion rest

/-- The version in the manifest. -/
def readWorkspaceVersion (path : String) (text : Text) : Except String Text :=
  match find header text with
  | none => .error ("no [workspace.package] block in " ++ path)
  | some blockStart => firstVersion (lines (block text blockStart))

/-- `version = "…"`. -/
def newLine (version : Text) : Text := needle ++ '"' :: (version ++ ['"'])

/-- The manifest with another version. -/
def writeWorkspaceVersion (text version : Text) : Except String Text :=
  match find header text with
  | none => .error "no [workspace.package] block"
  | some blockStart =>
    match find needle (text.drop blockStart) with
    | none => .error "no version line"
    | some localIdx =>
      let abs := blockStart + localIdx
      let lineEnd := ((find ['\n'] (text.drop abs)).map (abs + ·)).getD text.length
      .ok (text.take abs ++ newLine version ++ text.drop lineEnd)

/-! ### What a bump is for -/

/-- A version string without quotes, backslashes and newlines. -/
def Plain (version : Text) : Prop :=
  ∀ c ∈ version, c ≠ '"' ∧ c ≠ '\x27' ∧ c ≠ '\\' ∧ c ≠ '\n'

instance : DecidablePred Plain := fun version => List.decidableBAll _ version

/-- A line the reader takes for the version. -/
def opens (line : Text) : Bool := ((trimStart line).dropPrefix? versionKey).isSome

/-- The package's own version line, counted among the lines of the manifest. -/
def ownLine (text : Text) : Option ℕ := do
  let blockStart ← find header text
  let k ← (lines (block text blockStart)).findIdx? opens
  return (text.take blockStart).count '\n' + k

/-- The line of the first `version = ` from the header on, and the line's text up to it and from
it. -/
def keyLine (text : Text) : Option (ℕ × Text × Text) := do
  let blockStart ← find header text
  let after := (text.drop blockStart).splitOn '\n'
  let k ← after.findIdx? fun line => (find needle line).isSome
  let line ← after[k]?
  let i ← find needle line
  return ((text.take blockStart).count '\n' + k, line.take i, line.drop i)

/-- The bump to `next` succeeds, is read back, and changes no line but the package's own. -/
def Bumps (path : String) (text next : Text) : Prop :=
  ∃ out k, writeWorkspaceVersion text next = .ok out ∧ readWorkspaceVersion path out = .ok next ∧
    ownLine text = some k ∧ AgreeOff k (out.splitOn '\n') (text.splitOn '\n')

/-! ### The lines the reader sees -/

section Reader

variable {path : String} {text line version v : Text} {ls : List Text} {start k : ℕ}

/-- The version a line gives. -/
def lineValue (line : Text) : Text := value (((trimStart line).dropPrefix? versionKey).getD [])

theorem opens_iff : opens line = true ↔ versionKey <+: trimStart line := by
  rw [opens, Option.isSome_iff_exists]
  constructor
  · rintro ⟨rest, h⟩
    obtain ⟨key, hline, hkey⟩ := List.dropPrefix?_eq_some_iff.1 h
    exact ⟨rest, by rw [hline, eq_of_beq hkey]⟩
  · rintro ⟨rest, h⟩
    exact ⟨rest, List.dropPrefix?_eq_some_iff.2 ⟨versionKey, h.symm, beq_self_eq_true _⟩⟩

theorem dropPrefix?_append (key rest : Text) : (key ++ rest).dropPrefix? key = some rest :=
  List.dropPrefix?_append_of_beq rest (beq_self_eq_true key)

theorem stripCr_of_getLast? (h : line.getLast? ≠ some '\r') : stripCr line = line := if_neg h

/-- The carriage return before a newline decides nothing. -/
theorem opens_stripCr (line : Text) : opens (stripCr line) = opens line := by
  by_cases h : line.getLast? = some '\r'
  · obtain ⟨init, rfl⟩ := List.getLast?_eq_some_iff.1 h
    rw [stripCr, if_pos h, List.dropLast_concat, Bool.eq_iff_iff, opens_iff, opens_iff, trimStart,
      trimStart, List.dropWhile_append]
    by_cases hinit : init.dropWhile isWhitespace = []
    · rw [hinit]
      decide
    · rw [if_neg (by simpa using hinit), List.prefix_concat_iff]
      refine (or_iff_right ?_).symm
      intro heq
      have hmem : '\r' ∈ versionKey := heq ▸ List.mem_append_right _ (List.mem_singleton_self _)
      revert hmem
      decide
  · rw [stripCr_of_getLast? h]

theorem firstVersion_eq (ls : List Text) : firstVersion ls = match ls.find? opens with
    | some line => .ok (lineValue line)
    | none => .error "no version key in [workspace.package]" := by
  induction ls with
  | nil => rfl
  | cons line ls ih =>
    cases hrest : (trimStart line).dropPrefix? versionKey with
    | some rest =>
      have hopens : opens line = true := by rw [opens, hrest]; rfl
      simp only [firstVersion, hrest, List.find?_cons_of_pos hopens, lineValue, Option.getD_some]
    | none =>
      have hopens : ¬ opens line = true := by rw [opens, hrest]; decide
      simp only [firstVersion, hrest, List.find?_cons_of_neg hopens, ih]

theorem firstVersion_of_findIdx? (h : ls.findIdx? opens = some k) :
    ∃ line, ls[k]? = some line ∧ firstVersion ls = .ok (lineValue line) := by
  obtain ⟨line, hline⟩ : ∃ line, ls[k]? = some line :=
    ⟨_, List.getElem?_eq_getElem (List.findIdx?_eq_some_iff_findIdx_eq.1 h).1⟩
  refine ⟨line, hline, ?_⟩
  rw [firstVersion_eq, List.find?_eq_bind_findIdx?_getElem?, h, Option.bind_some, hline]

theorem exists_findIdx?_of_firstVersion (h : firstVersion ls = .ok v) :
    ∃ k, ls.findIdx? opens = some k := by
  cases hk : ls.findIdx? opens with
  | some k => exact ⟨k, rfl⟩
  | none =>
    rw [firstVersion_eq, List.find?_eq_bind_findIdx?_getElem?, hk] at h
    cases h

/-- The lines of a text are its pieces, less a final empty one and the carriage returns. -/
theorem lines_cases (s : Text) : ∃ init last, s.splitOn '\n' = init ++ [last] ∧
    lines s = init.map stripCr ++ if last = [] then [] else [last] := by
  have hne := List.splitOn_ne_nil '\n' s
  refine ⟨_, _, (List.dropLast_concat_getLast hne).symm, ?_⟩
  rw [lines, List.getLast?_eq_some_getLast hne]
  congr 1
  by_cases h : (s.splitOn '\n').getLast hne = [] <;> simp [h]

theorem findIdx?_lines (s : Text) : (lines s).findIdx? opens = (s.splitOn '\n').findIdx? opens := by
  obtain ⟨init, last, hsplit, hlines⟩ := lines_cases s
  have hopens : (init.map stripCr).findIdx? opens = init.findIdx? opens := by
    rw [List.findIdx?_map]
    congr 1
    funext line
    exact opens_stripCr line
  rw [hsplit, hlines, List.findIdx?_append, List.findIdx?_append, hopens, List.length_map]
  split_ifs with hlast
  · rw [hlast]
    rfl
  · rfl

theorem getElem?_lines {s : Text} (h : (lines s)[k]? = some line) :
    ∃ piece, (s.splitOn '\n')[k]? = some piece ∧ (line = piece ∨ line = stripCr piece) := by
  obtain ⟨init, last, hsplit, hlines⟩ := lines_cases s
  rw [hlines] at h
  rw [hsplit]
  rcases Nat.lt_or_ge k init.length with hk | hk
  · rw [List.getElem?_append_left (by rwa [List.length_map]), List.getElem?_map,
      Option.map_eq_some_iff] at h
    obtain ⟨piece, hpiece, rfl⟩ := h
    exact ⟨piece, by rwa [List.getElem?_append_left hk], Or.inr rfl⟩
  · rw [List.getElem?_append_right (by rwa [List.length_map]), List.length_map] at h
    refine ⟨line, ?_, Or.inl rfl⟩
    rw [List.getElem?_append_right hk]
    split_ifs at h with hlast
    · cases h
    · exact h

theorem block_eq (text : Text) (start : ℕ) : block text start =
    (text.drop start).take
      ((find ['\n', '['] (text.drop start)).getD (text.drop start).length) := by
  rw [block]
  show (text.take (((find ['\n', '['] (text.drop start)).map (start + ·)).getD _)).drop start = _
  cases find ['\n', '['] (text.drop start) with
  | none =>
    show (text.take text.length).drop start = (text.drop start).take (text.drop start).length
    rw [List.take_length, List.take_length]
  | some i =>
    show (text.take (start + i)).drop start = (text.drop start).take i
    rw [List.drop_take, Nat.add_sub_cancel_left]

/-- The lines of the block are those from the header on up to the next one that begins with
`[`. -/
theorem findIdx?_block (text : Text) (start : ℕ) : (lines (block text start)).findIdx? opens =
    (linesUntil '[' ((text.drop start).splitOn '\n')).findIdx? opens := by
  rw [findIdx?_lines, block_eq, splitOn_take_find (by decide)]

theorem ownLine_eq (hstart : find header text = some start) :
    ownLine text = ((linesUntil '[' ((text.drop start).splitOn '\n')).findIdx? opens).map
      ((text.take start).count '\n' + ·) := by
  rw [ownLine, hstart, ← findIdx?_block]
  show ((lines (block text start)).findIdx? opens).bind _ = _
  cases (lines (block text start)).findIdx? opens <;> rfl

theorem read_of_findIdx? (path : String) (hstart : find header text = some start)
    (hk : (linesUntil '[' ((text.drop start).splitOn '\n')).findIdx? opens = some k) :
    ∃ piece line, ((text.drop start).splitOn '\n')[k]? = some piece ∧
      (line = piece ∨ line = stripCr piece) ∧
      readWorkspaceVersion path text = .ok (lineValue line) := by
  rw [← findIdx?_block] at hk
  obtain ⟨line, hline, hfirst⟩ := firstVersion_of_findIdx? hk
  obtain ⟨piece, hpiece, hcr⟩ := getElem?_lines hline
  rw [block_eq, splitOn_take_find (by decide)] at hpiece
  refine ⟨piece, line, ?_, hcr, ?_⟩
  · obtain ⟨rest, hrest⟩ := linesUntil_prefix '[' ((text.drop start).splitOn '\n')
    rw [← hrest]
    exact List.getElem?_append_left (List.getElem?_eq_some_iff.1 hpiece).1 ▸ hpiece
  · simp only [readWorkspaceVersion, hstart, hfirst]

theorem exists_of_ownLine (h : ownLine text = some k) : ∃ start j, find header text = some start ∧
    (linesUntil '[' ((text.drop start).splitOn '\n')).findIdx? opens = some j ∧
    (text.take start).count '\n' + j = k := by
  cases hstart : find header text with
  | none =>
    rw [ownLine, hstart] at h
    cases h
  | some start =>
    rw [ownLine_eq hstart, Option.map_eq_some_iff] at h
    obtain ⟨j, hj, hk⟩ := h
    exact ⟨start, j, rfl, hj, hk⟩

theorem exists_of_read (h : readWorkspaceVersion path text = .ok v) :
    ∃ start k, find header text = some start ∧
      (linesUntil '[' ((text.drop start).splitOn '\n')).findIdx? opens = some k := by
  cases hstart : find header text with
  | none =>
    rw [readWorkspaceVersion, hstart] at h
    cases h
  | some start =>
    rw [readWorkspaceVersion, hstart] at h
    obtain ⟨k, hk⟩ := exists_findIdx?_of_firstVersion h
    exact ⟨start, k, rfl, by rwa [findIdx?_block] at hk⟩

end Reader

/-! ### The line the writer edits -/

section Writer

variable {text version out : Text} {start n : ℕ}

theorem not_mem_newLine (h : Plain version) : '\n' ∉ newLine version := by
  have hneedle : '\n' ∉ needle := by decide
  have hversion : '\n' ∉ version := fun hmem => (h _ hmem).2.2.2 rfl
  simp [newLine, hneedle, hversion]

theorem write_eq (version : Text) (hstart : find header text = some start)
    (hn : find needle (text.drop start) = some n) :
    writeWorkspaceVersion text version = .ok (text.take start ++ ((text.drop start).take n ++
      (newLine version ++ ((text.drop start).drop n).dropWhile (· ≠ '\n')))) := by
  have hend : text.drop (((find ['\n'] (text.drop (start + n))).map (start + n + ·)).getD
      text.length) = ((text.drop start).drop n).dropWhile (· ≠ '\n') := by
    rw [List.drop_drop, ← drop_find_singleton]
    cases find ['\n'] (text.drop (start + n)) with
    | none =>
      show text.drop text.length = (text.drop (start + n)).drop (text.drop (start + n)).length
      rw [List.drop_length, List.drop_length]
    | some i =>
      show text.drop (start + n + i) = (text.drop (start + n)).drop i
      rw [List.drop_drop]
  simp only [writeWorkspaceVersion, hstart, hn]
  rw [hend, List.take_add, List.append_assoc, List.append_assoc]

/-- The edit stands behind the header, which is found where it was. -/
theorem find_header_edited (tail : Text) (hstart : find header text = some start)
    (hn : find needle (text.drop start) = some n) :
    find header (text.take start ++ ((text.drop start).take n ++ tail)) = some start := by
  obtain ⟨after, hdrop, hlen⟩ := drop_eq_append_of_find hstart
  have hneedle : needle = 'v' :: "ersion = ".toList := by decide
  rw [hdrop, hneedle, find_append_of_not_mem (by decide), Option.map_eq_some_iff] at hn
  obtain ⟨m, -, rfl⟩ := hn
  rw [hdrop, Nat.add_comm m, List.take_length_add_append, List.append_assoc]
  have hfind :
      find header (text.take start ++ (header ++ after)) = some (text.take start).length := by
    rw [← hdrop, List.take_append_drop, hlen, hstart]
  exact (find_append_right _ hfind).trans (congrArg some hlen)

end Writer

/-! ### The version in the edited line -/

section Line

variable {line m next tail : Text} {i : ℕ}

theorem getLast?_quoted (lead next : Text) :
    (lead ++ '"' :: (next ++ ['"'])).getLast? = some '"' := by
  rw [← List.cons_append, ← List.append_assoc]
  exact List.getLast?_concat

/-- A quoted version with no `=` before its own is read back. -/
theorem value_append (hm : '=' ∉ m) (hnext : Plain next) :
    value (m ++ '=' :: ' ' :: '"' :: (next ++ ['"'])) = next := by
  have hquote : ∀ x ∈ ['"'], decide (x = '"') = true := by simp
  have hhead : ∀ x ∈ next.head?, x ≠ '"' ∧ x ≠ '\x27' := fun x hx =>
    have h := hnext x (List.mem_of_mem_head? hx)
    ⟨h.1, h.2.1⟩
  have hlast : ∀ x ∈ next.getLast?, x ≠ '"' ∧ x ≠ '\x27' := fun x hx =>
    have h := hnext x (List.mem_of_mem_getLast? hx)
    ⟨h.1, h.2.1⟩
  have htrim : trim (' ' :: '"' :: (next ++ ['"'])) = '"' :: (next ++ ['"']) := by
    have h := trimMatches_append (p := isWhitespace) (l := [' '])
      (s := [] ++ '"' :: (next ++ ['"'])) (r := []) (by simp; decide) (by simp) (by simp; decide)
      (by rw [getLast?_quoted]; simp; decide)
    simpa [trim] using h
  have hdouble : trimMatches (· = '"') ('"' :: (next ++ ['"'])) = next :=
    trimMatches_append hquote hquote (fun x hx => decide_eq_false (hhead x hx).1)
      fun x hx => decide_eq_false (hlast x hx).1
  have hsingle : trimMatches (· = '\x27') next = next := by
    have h := trimMatches_append (p := fun x => decide (x = '\x27')) (l := []) (s := next) (r := [])
      (by simp) (by simp) (fun x hx => decide_eq_false (hhead x hx).2)
      fun x hx => decide_eq_false (hlast x hx).2
    simpa using h
  rw [value, splitOnce_append hm]
  show trimMatches _ (trimMatches _ (trim (' ' :: '"' :: (next ++ ['"'])))) = next
  rw [htrim, hdouble, hsingle]

/-- What trimming leaves at least of the written line, whose closing quote may go: more than the
version. -/
theorem exists_core (hnext : Plain next) :
    ∃ core, core <:+: newLine next ∧ next.length < core.length ∧ core.head? = some 'v' ∧
      ∀ x ∈ core.getLast?, x ≠ '"' ∧ x ≠ '\x27' := by
  cases hn : next.getLast? with
  | none =>
    rw [List.getLast?_eq_none_iff.1 hn]
    refine ⟨"version =".toList, by decide, by decide, by decide, ?_⟩
    rw [show "version =".toList.getLast? = some '=' by decide]
    simp
  | some c =>
    refine ⟨needle ++ '"' :: next, ⟨[], ['"'], by simp [newLine]⟩, by simp; omega, rfl, ?_⟩
    have hc : (needle ++ '"' :: next).getLast? = some c := by
      rw [List.getLast?_append, List.getLast?_cons, hn]
      rfl
    have h := hnext c (List.mem_of_getLast? hn)
    rw [hc]
    simpa using And.intro h.1 h.2.1

/-- Behind an earlier `=` the written key is part of the value, which is longer than the
version. -/
theorem value_append_ne (hm : '=' ∈ m) (hnext : Plain next) : value (m ++ newLine next) ≠ next := by
  obtain ⟨before, after, rfl, hbefore⟩ := List.eq_append_cons_of_mem hm
  obtain ⟨core, hcore, hlong, hhead, hlast⟩ := exists_core hnext
  have hne : ∀ x ∈ core.head?, x = 'v' := by
    rw [hhead]
    simp
  have hwhole : newLine next <:+: trim (after ++ newLine next) :=
    infix_trimMatches ⟨after, [], by simp⟩
      (fun x hx => by
        obtain rfl : 'v' = x := Option.some.inj hx
        decide)
      (fun x hx => by
        rw [newLine, getLast?_quoted] at hx
        obtain rfl := Option.some.inj hx
        decide)
  have hkept : core <:+: value (before ++ '=' :: after ++ newLine next) := by
    rw [value, List.append_assoc, List.cons_append, splitOnce_append hbefore]
    refine infix_trimMatches (infix_trimMatches (hcore.trans hwhole) ?_ ?_) ?_ ?_
    · intro x hx
      rw [hne x hx]
      decide
    · exact fun x hx => decide_eq_false (hlast x hx).1
    · intro x hx
      rw [hne x hx]
      decide
    · exact fun x hx => decide_eq_false (hlast x hx).2
  intro hvalue
  have hle := hkept.length_le
  rw [hvalue] at hle
  omega

theorem not_mem_of_isWhitespace {ws : Text} (hws : ∀ c ∈ ws, isWhitespace c = true) :
    '=' ∉ ws := by
  intro hmem
  have hwhite := hws _ hmem
  revert hwhite
  decide

/-- A line that begins with the key. -/
theorem lineValue_append {ws : Text} (hws : ∀ c ∈ ws, isWhitespace c = true) (rest : Text) :
    opens (ws ++ (versionKey ++ rest)) = true ∧
      lineValue (ws ++ (versionKey ++ rest)) = value rest := by
  have htrim : trimStart (ws ++ (versionKey ++ rest)) = versionKey ++ rest := by
    refine dropWhile_append_of_forall hws ?_
    intro x hx
    obtain rfl : 'v' = x := Option.some.inj hx
    decide
  constructor
  · rw [opens, htrim, dropPrefix?_append]
    rfl
  · rw [lineValue, htrim, dropPrefix?_append]
    rfl

/-- In a line that begins with `version`, the first `version = ` begins there or behind it: the two
cannot overlap, for no other letter of the key is a `v`. -/
theorem take_cases (hkey : find needle line = some i) (hopens : opens line = true) :
    (∀ c ∈ line.take i, isWhitespace c = true) ∨
      ∃ ws m, line.take i = ws ++ (versionKey ++ m) ∧ ∀ c ∈ ws, isWhitespace c = true := by
  obtain ⟨after, hafter, -⟩ := drop_eq_append_of_find hkey
  by_cases hnil : (line.take i).dropWhile isWhitespace = []
  · exact Or.inl (List.dropWhile_eq_nil_iff.1 hnil)
  · right
    obtain ⟨c, u, hu⟩ := List.exists_cons_of_ne_nil hnil
    have htrim : trimStart line = c :: u ++ (needle ++ after) := by
      rw [trimStart, ← List.take_append_drop i line, hafter, List.dropWhile_append,
        if_neg (by rw [hu]; simp), hu]
    have hbegins : versionKey <+: c :: u ++ (needle ++ after) := htrim ▸ opens_iff.1 hopens
    have hlong : versionKey.length ≤ (c :: u).length := by
      by_contra hshort
      have hv : c :: u ++ ['v'] <+: versionKey := by
        have hneedle : needle = 'v' :: "ersion = ".toList := by decide
        have hbegins' : c :: u ++ ['v'] <+: c :: u ++ (needle ++ after) := by
          rw [hneedle]
          exact ⟨"ersion = ".toList ++ after, by simp⟩
        refine List.prefix_of_prefix_length_le hbegins' hbegins ?_
        simp only [List.length_append, List.length_cons, List.length_nil] at hshort ⊢
        omega
      have hkey' : versionKey = 'v' :: "ersion".toList := by decide
      rw [hkey', List.cons_append, List.cons_prefix_cons] at hv
      have hmem : 'v' ∈ "ersion".toList := hv.2.subset (by simp)
      revert hmem
      decide
    obtain ⟨m, hm⟩ := List.prefix_of_prefix_length_le hbegins (List.prefix_append _ _) hlong
    refine ⟨(line.take i).takeWhile isWhitespace, m, ?_, fun x hx => List.mem_takeWhile_imp hx⟩
    rw [hm, ← hu, List.takeWhile_append_dropWhile]

/-- **The version of the edited line** is the one written exactly if no `=` precedes the edit. -/
theorem lineValue_edited (hkey : find needle line = some i) (hopens : opens line = true)
    (hnext : Plain next) : opens (line.take i ++ newLine next) = true ∧
      (lineValue (line.take i ++ newLine next) = next ↔ '=' ∉ line.take i) := by
  have hneedle : needle = versionKey ++ [' ', '=', ' '] := by decide
  rcases take_cases hkey hopens with hws | ⟨ws, m, htake, hws⟩
  · obtain ⟨hopen, hvalue⟩ := lineValue_append hws ([' '] ++ '=' :: ' ' :: '"' :: (next ++ ['"']))
    have hline : versionKey ++ ([' '] ++ '=' :: ' ' :: '"' :: (next ++ ['"'])) = newLine next := by
      rw [newLine, hneedle]
      simp
    rw [hline] at hopen hvalue
    rw [value_append (by decide) hnext] at hvalue
    exact ⟨hopen, iff_of_true hvalue (not_mem_of_isWhitespace hws)⟩
  · obtain ⟨hopen, hvalue⟩ := lineValue_append hws (m ++ newLine next)
    have hline : ws ++ (versionKey ++ (m ++ newLine next)) = line.take i ++ newLine next := by
      rw [htake]
      simp
    rw [hline] at hopen hvalue
    refine ⟨hopen, ?_⟩
    have hwsEq : '=' ∉ ws := not_mem_of_isWhitespace hws
    have hkeyEq : '=' ∉ versionKey := by decide
    have hiff : '=' ∉ line.take i ↔ '=' ∉ m := by
      rw [htake, List.mem_append, List.mem_append, or_iff_right hwsEq, or_iff_right hkeyEq]
    rw [hiff, hvalue]
    constructor
    · intro hread hm
      exact value_append_ne hm hnext hread
    · intro hm
      have hparts : m ++ newLine next =
          (m ++ (versionKey ++ [' '])) ++ '=' :: ' ' :: '"' :: (next ++ ['"']) := by
        rw [newLine, hneedle]
        simp
      rw [hparts]
      refine value_append ?_ hnext
      have hspace : '=' ∉ [' '] := by decide
      rw [List.mem_append, List.mem_append]
      exact not_or.2 ⟨hm, not_or.2 ⟨hkeyEq, hspace⟩⟩

end Line
/-! ### Bumping -/

section Bump

variable {path : String} {text next out line : Text} {above below : List Text} {start i : ℕ}

/-- `out` is `text` with the first `version = ` from the header on, and the rest of its line,
replaced. -/
structure Edited (text next out : Text) (start : ℕ) (above : List Text) (line : Text)
    (below : List Text) (i : ℕ) : Prop where
  found : find header text = some start
  found_out : find header out = some start
  split : (text.drop start).splitOn '\n' = above ++ line :: below
  split_out : (out.drop start).splitOn '\n' = above ++ (line.take i ++ newLine next) :: below
  take_out : out.take start = text.take start
  key : find needle line = some i
  first : ∀ l ∈ above, find needle l = none

theorem keyLine_eq (hstart : find header text = some start)
    (hsplit : (text.drop start).splitOn '\n' = above ++ line :: below)
    (hfirst : ∀ l ∈ above, find needle l = none) (hkey : find needle line = some i) :
    keyLine text =
      some ((text.take start).count '\n' + above.length, line.take i, line.drop i) := by
  have hidx : (above ++ line :: below).findIdx? (fun l => (find needle l).isSome) =
      some above.length :=
    findIdx?_append_cons (by rw [hkey]; rfl) fun l hl => by rw [hfirst l hl]; rfl
  simp [keyLine, hstart, hsplit, hidx, hkey]

/-- A write that finds its key edits a line. -/
theorem exists_edited (hnext : Plain next) {n : ℕ} (hstart : find header text = some start)
    (hn : find needle (text.drop start) = some n) :
    ∃ out above line below i, writeWorkspaceVersion text next = .ok out ∧
      Edited text next out start above line below i := by
  obtain ⟨above, line, below, i, hsplit, hfirst, hkey, hedit⟩ :=
    exists_splitOn_of_find (by decide) (by decide : '\n' ∉ needle) hn
  have hlen : (text.take start).length = start := (drop_eq_append_of_find hstart).choose_spec.2
  refine ⟨_, above, line, below, i, write_eq next hstart hn, hstart,
    find_header_edited _ hstart hn, hsplit, ?_, ?_, hkey, hfirst⟩
  · rw [List.drop_append_of_le_length hlen.ge, List.drop_eq_nil_of_le hlen.le, List.nil_append]
    exact hedit _ (not_mem_newLine hnext)
  · rw [List.take_append_of_le_length hlen.ge, List.take_of_length_le hlen.le]

theorem Edited.keyLine_eq (h : Edited text next out start above line below i) : keyLine text =
    some ((text.take start).count '\n' + above.length, line.take i, line.drop i) :=
  Xtask.keyLine_eq h.found h.split h.first h.key

/-- The edit can be repeated: the key stands where it stood. -/
theorem Edited.keyLine_out (h : Edited text next out start above line below i) : keyLine out =
    some ((text.take start).count '\n' + above.length, line.take i, newLine next) := by
  obtain ⟨after, hafter, hlen⟩ := drop_eq_append_of_find h.key
  have hkey : find needle (line.take i ++ newLine next) = some i := by
    have hfind := h.key
    rw [← List.take_append_drop i line, hafter] at hfind
    exact (find_append_right _ (hfind.trans (congrArg some hlen.symm))).trans (congrArg some hlen)
  have hout := Xtask.keyLine_eq h.found_out h.split_out h.first hkey
  rw [h.take_out, List.take_append_of_le_length hlen.ge, List.take_of_length_le hlen.le,
    List.drop_append_of_le_length hlen.ge, List.drop_eq_nil_of_le hlen.le] at hout
  exact hout

/-- The lines but the own one are kept exactly if the edited line is the own one or is not
changed. -/
theorem Edited.agreeOff_iff (h : Edited text next out start above line below i) (k : ℕ) :
    AgreeOff ((text.take start).count '\n' + k) (out.splitOn '\n') (text.splitOn '\n') ↔
      k = above.length ∨ line.drop i = newLine next := by
  have hsame : line.take i ++ newLine next = line ↔ line.drop i = newLine next := by
    constructor
    · intro heq
      exact (List.append_cancel_left (heq.trans (List.take_append_drop i line).symm)).symm
    · intro heq
      rw [← heq, List.take_append_drop]
  have hiff : AgreeOff _ (List.splitOn '\n' _) (List.splitOn '\n' _) ↔ _ :=
    agreeOff_splitOn_append (text.take start) (out.drop start) (text.drop start) k
  rw [← h.take_out, List.take_append_drop, h.take_out, List.take_append_drop, h.split,
    h.split_out] at hiff
  rw [hiff, agreeOff_append_cons_iff, hsame]

theorem Edited.eq_of_same (h : Edited text next out start above line below i)
    (hsame : line.drop i = newLine next) : out = text := by
  have hsplit : (out.drop start).splitOn '\n' = (text.drop start).splitOn '\n' := by
    rw [h.split, h.split_out, ← hsame, List.take_append_drop]
  have hdrop := congrArg (List.intercalate ['\n']) hsplit
  rw [List.intercalate_splitOn, List.intercalate_splitOn] at hdrop
  rw [← List.take_append_drop start out, h.take_out, hdrop, List.take_append_drop]

theorem Edited.head?_eq (h : Edited text next out start above line below i) :
    (line.take i ++ newLine next).head? = line.head? := by
  obtain ⟨after, hafter, -⟩ := drop_eq_append_of_find h.key
  conv_rhs => rw [← List.take_append_drop i line, hafter]
  cases line.take i <;> rfl

/-- An edit of the own version line is read back if no `=` precedes it there, and leaves the own
line where it is. -/
theorem Edited.read_out_iff (path : String) (h : Edited text next out start above line below i)
    (hnext : Plain next)
    (hown : (linesUntil '[' ((text.drop start).splitOn '\n')).findIdx? opens =
      some above.length) :
    (linesUntil '[' ((out.drop start).splitOn '\n')).findIdx? opens = some above.length ∧
      (readWorkspaceVersion path out = .ok next ↔ '=' ∉ line.take i) := by
  rw [h.split, findIdx?_linesUntil_iff] at hown
  obtain ⟨⟨hopens, habove⟩, hheads⟩ := hown
  obtain ⟨hopens', hvalue⟩ := lineValue_edited h.key hopens hnext
  have hout : (linesUntil '[' ((out.drop start).splitOn '\n')).findIdx? opens =
      some above.length := by
    rw [h.split_out, findIdx?_linesUntil_iff]
    refine ⟨⟨hopens', habove⟩, ?_⟩
    cases above with
    | nil => simp
    | cons a above =>
      intro l hl
      rcases List.mem_append.1 hl with hl | hl
      · exact hheads l (List.mem_append_left _ hl)
      · rw [List.mem_singleton.1 hl, h.head?_eq]
        exact hheads line (List.mem_append_right _ (List.mem_singleton_self line))
  refine ⟨hout, ?_⟩
  obtain ⟨piece, line', hpiece, hline', hread⟩ := read_of_findIdx? path h.found_out hout
  obtain rfl : line.take i ++ newLine next = piece := by
    rw [h.split_out] at hpiece
    simpa using hpiece
  -- the line ends in a quote, so it has no carriage return
  have hcr : stripCr (line.take i ++ newLine next) = line.take i ++ newLine next := by
    refine stripCr_of_getLast? ?_
    rw [newLine, ← List.append_assoc, getLast?_quoted]
    decide
  obtain rfl : line' = line.take i ++ newLine next := by
    rcases hline' with h | h
    · exact h
    · rw [h, hcr]
  rw [hread, ← hvalue]
  exact ⟨fun h => Except.ok.inj h, fun h => congrArg _ h⟩

/-- The first `version = ` from the header on stands on the package's own version line, with no `=`
before it on that line. -/
def KeyOnOwnLine (text : Text) : Prop :=
  ∃ k lead rest, keyLine text = some (k, lead, rest) ∧ ownLine text = some k ∧ '=' ∉ lead

/-- That `version = ` leads in `next`, quoted, and the line ends there. -/
def Written (text next : Text) : Prop :=
  ∃ k lead, keyLine text = some (k, lead, newLine next)

theorem keyLine_eq_none (hstart : find header text = some start)
    (hn : find needle (text.drop start) = none) : keyLine text = none := by
  have hidx :
      ((text.drop start).splitOn '\n').findIdx? (fun l => (find needle l).isSome) = none := by
    rw [List.findIdx?_eq_none_iff]
    intro l hl
    rw [find_eq_none_of_mem_splitOn (by decide) hn hl]
    rfl
  simp [keyLine, hstart, hidx]

theorem Edited.keyOnOwnLine_iff (h : Edited text next out start above line below i) {k : ℕ}
    (hown : ownLine text = some ((text.take start).count '\n' + k)) :
    KeyOnOwnLine text ↔ k = above.length ∧ '=' ∉ line.take i := by
  rw [KeyOnOwnLine, h.keyLine_eq, hown]
  constructor
  · rintro ⟨k', lead, rest, hkey, hk', heq⟩
    simp only [Option.some.injEq, Prod.mk.injEq] at hkey
    obtain ⟨rfl, rfl, rfl⟩ := hkey
    exact ⟨Nat.add_left_cancel (Option.some.inj hk'), heq⟩
  · rintro ⟨rfl, heq⟩
    exact ⟨_, _, _, rfl, rfl, heq⟩

theorem Edited.written_iff (h : Edited text next out start above line below i) :
    Written text next ↔ line.drop i = newLine next := by
  rw [Written, h.keyLine_eq]
  constructor
  · rintro ⟨k', lead, hkey⟩
    simp only [Option.some.injEq, Prod.mk.injEq] at hkey
    exact hkey.2.2
  · intro hsame
    exact ⟨_, _, by rw [hsame]⟩

theorem Edited.bumps_iff_read (path : String) (h : Edited text next out start above line below i)
    {k : ℕ} (hwrite : writeWorkspaceVersion text next = .ok out)
    (hown : ownLine text = some ((text.take start).count '\n' + k)) :
    Bumps path text next ↔ readWorkspaceVersion path out = .ok next ∧
      (k = above.length ∨ line.drop i = newLine next) := by
  rw [← h.agreeOff_iff]
  constructor
  · rintro ⟨out', k', hwrite', hread', hown', hagree⟩
    obtain rfl : out = out' := Except.ok.inj (hwrite.symm.trans hwrite')
    obtain rfl := Option.some.inj (hown.symm.trans hown')
    exact ⟨hread', hagree⟩
  · rintro ⟨hread', hagree⟩
    exact ⟨out, _, hwrite, hread', hown, hagree⟩

/-- **When a bump writes what it reads.**  Of a manifest with a version, a bump to `next` is read
back and keeps the other lines exactly if the first `version = ` from the header on stands on the
package's own version line with no `=` before it, or the manifest says `next` in both places. -/
theorem bumps_iff {current : Text} (hread : readWorkspaceVersion path text = .ok current)
    (hnext : Plain next) :
    Bumps path text next ↔ KeyOnOwnLine text ∨ Written text next ∧ current = next := by
  obtain ⟨start, k, hstart, hk⟩ := exists_of_read hread
  have hown : ownLine text = some ((text.take start).count '\n' + k) := by
    rw [ownLine_eq hstart, hk]
    rfl
  cases hn : find needle (text.drop start) with
  | none =>
    have hnone := keyLine_eq_none hstart hn
    constructor
    · rintro ⟨out, -, hwrite, -⟩
      simp only [writeWorkspaceVersion, hstart, hn] at hwrite
      cases hwrite
    · rintro (⟨_, _, _, hkey, -⟩ | ⟨⟨_, _, hkey⟩, -⟩)
      · rw [hnone] at hkey
        cases hkey
      · rw [hnone] at hkey
        cases hkey
  | some n =>
    obtain ⟨out, above, line, below, i, hwrite, hedit⟩ := exists_edited hnext hstart hn
    have hsame : line.drop i = newLine next →
        (readWorkspaceVersion path out = .ok next ↔ current = next) := by
      intro hsame
      rw [hedit.eq_of_same hsame, hread]
      exact ⟨fun h => Except.ok.inj h, fun h => congrArg _ h⟩
    rw [hedit.bumps_iff_read path hwrite hown, hedit.keyOnOwnLine_iff hown, hedit.written_iff]
    by_cases hkabove : k = above.length
    · obtain ⟨-, hout⟩ := hedit.read_out_iff path hnext (hkabove ▸ hk)
      constructor
      · rintro ⟨hreadOut, -⟩
        exact Or.inl ⟨hkabove, hout.1 hreadOut⟩
      · rintro (⟨-, heq⟩ | ⟨hline, hcurrent⟩)
        · exact ⟨hout.2 heq, Or.inl hkabove⟩
        · exact ⟨(hsame hline).2 hcurrent, Or.inr hline⟩
    · constructor
      · rintro ⟨hreadOut, hk' | hline⟩
        · exact absurd hk' hkabove
        · exact Or.inr ⟨hline, (hsame hline).1 hreadOut⟩
      · rintro (⟨hk', -⟩ | ⟨hline, hcurrent⟩)
        · exact absurd hk' hkabove
        · exact ⟨(hsame hline).2 hcurrent, Or.inr hline⟩

/-- A version that is read off its own line, with nothing before it. -/
theorem bumps_iff_package :
    let text := "[workspace.package]\nversion = \"0.10.0\"\nrust-version = \"1.78\"\n".toList
    readWorkspaceVersion "Cargo.toml" text = .ok "0.10.0".toList ∧ Plain "0.10.1".toList ∧
      (Bumps "Cargo.toml" text "0.10.1".toList ↔
        KeyOnOwnLine text ∨ Written text "0.10.1".toList ∧ "0.10.0".toList = "0.10.1".toList) := by
  have hread : readWorkspaceVersion "Cargo.toml"
      "[workspace.package]\nversion = \"0.10.0\"\nrust-version = \"1.78\"\n".toList =
        .ok "0.10.0".toList := by decide
  have hplain : Plain "0.10.1".toList := by decide
  exact ⟨hread, hplain, bumps_iff hread hplain⟩

/-- With `rust-version` first, that is written, and the old version is read back. -/
theorem rust_version_written :
    let text := "[workspace.package]\nrust-version = \"1.78\"\nversion = \"0.10.0\"\n".toList
    readWorkspaceVersion "Cargo.toml" text = .ok "0.10.0".toList ∧ Plain "0.10.1".toList ∧
      writeWorkspaceVersion text "0.10.1".toList =
        .ok "[workspace.package]\nrust-version = \"0.10.1\"\nversion = \"0.10.0\"\n".toList ∧
      ¬ Bumps "Cargo.toml" text "0.10.1".toList := by
  have hread : readWorkspaceVersion "Cargo.toml"
      "[workspace.package]\nrust-version = \"1.78\"\nversion = \"0.10.0\"\n".toList =
        .ok "0.10.0".toList := by decide
  have hplain : Plain "0.10.1".toList := by decide
  have hwrite : writeWorkspaceVersion
      "[workspace.package]\nrust-version = \"1.78\"\nversion = \"0.10.0\"\n".toList
      "0.10.1".toList =
        .ok "[workspace.package]\nrust-version = \"0.10.1\"\nversion = \"0.10.0\"\n".toList := by
    decide
  refine ⟨hread, hplain, hwrite, ?_⟩
  rintro ⟨out, k, hout, hread', -⟩
  obtain rfl := Except.ok.inj (hwrite.symm.trans hout)
  revert hread'
  decide

/-- One bump of a manifest whose key is on the own line keeps it there. -/
theorem bump_step (path : String) {k : ℕ} (hkey : KeyOnOwnLine text) (hown : ownLine text = some k)
    (hnext : Plain next) : ∃ out, writeWorkspaceVersion text next = .ok out ∧
      readWorkspaceVersion path out = .ok next ∧ KeyOnOwnLine out ∧ ownLine out = some k ∧
      AgreeOff k (out.splitOn '\n') (text.splitOn '\n') := by
  obtain ⟨start, j, hstart, hj, rfl⟩ := exists_of_ownLine hown
  cases hn : find needle (text.drop start) with
  | none =>
    obtain ⟨_, _, _, hsome, -⟩ := hkey
    rw [keyLine_eq_none hstart hn] at hsome
    cases hsome
  | some n =>
    obtain ⟨out, above, line, below, i, hwrite, hedit⟩ := exists_edited hnext hstart hn
    obtain ⟨rfl, heq⟩ := (hedit.keyOnOwnLine_iff hown).1 hkey
    obtain ⟨hout, hread⟩ := hedit.read_out_iff path hnext hj
    have hown' : ownLine out = some ((text.take start).count '\n' + above.length) := by
      rw [ownLine_eq hedit.found_out, hout, hedit.take_out]
      rfl
    exact ⟨out, hwrite, hread.2 heq, ⟨_, _, _, hedit.keyLine_out, hown', heq⟩, hown',
      (hedit.agreeOff_iff _).2 (Or.inl rfl)⟩

/-- **Repeated bumps.**  From a manifest whose first `version = ` is on the own line on, every
sequence of bumps succeeds, the last version is read back, and no other line is ever changed. -/
theorem bumps_run (path : String) {k : ℕ} (hkey : KeyOnOwnLine text) (hown : ownLine text = some k)
    (versions : List Text) (hplain : ∀ v ∈ versions, Plain v) :
    ∃ out, versions.foldlM writeWorkspaceVersion text = .ok out ∧ KeyOnOwnLine out ∧
      AgreeOff k (out.splitOn '\n') (text.splitOn '\n') ∧
      ∀ v ∈ versions.getLast?, readWorkspaceVersion path out = .ok v := by
  induction versions generalizing text with
  | nil => exact ⟨text, rfl, hkey, fun _ _ => rfl, by simp⟩
  | cons v versions ih =>
    obtain ⟨hv, hplain'⟩ := List.forall_mem_cons.1 hplain
    obtain ⟨mid, hwrite, hread, hkey', hown', hagree⟩ := bump_step path hkey hown hv
    obtain ⟨out, hfold, hkeyOut, hagree', hlast⟩ := ih hkey' hown' hplain'
    refine ⟨out, ?_, hkeyOut, hagree'.trans hagree, ?_⟩
    · rw [List.foldlM_cons, hwrite]
      exact hfold
    · cases versions with
      | nil =>
        obtain rfl : mid = out := Except.ok.inj hfold
        intro v' hv'
        obtain rfl := Option.some.inj hv'
        exact hread
      | cons v' versions => exact fun w hw => hlast w (by rwa [List.getLast?_cons_cons] at hw)

end Bump

end Xtask

end AtomrAccel
