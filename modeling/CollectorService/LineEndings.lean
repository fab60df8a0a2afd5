import CollectorService.ModelLayout
import Mathlib.Logic.Relation

/-!
# Line endings and blank lines of a model

A model text may come from any editor. The edits that an editor makes without being asked change
line endings, leave blanks behind a line or add blank lines. A line of the text counts only by its
trimmed content, and by its indent if there is such content, so none of them changes what the parser
reads (`parseText_edit`).

* `parseDataItems_of_edits`: the points are the same after any combination of such edits.
-/

namespace CollectorService.ModelParser

/-! ## 1. Edits -/

/-- One edit of a text, at any place of it. -/
inductive Edit : Str → Str → Prop
  /-- A newline becomes a carriage return and a newline. -/
  | crlf (before after : Str) :
      Edit (before ++ byte '\n' :: after) (before ++ byte '\r' :: byte '\n' :: after)
  /-- Blanks are appended to a line: what follows is a newline or nothing. -/
  | blanks (before blanks after : Str)
      (hblanks : ∀ ch ∈ blanks, ch = byte ' ' ∨ ch = byte '\t' ∨ ch = byte '\r')
      (hend : ∀ ch ∈ after.head?, ch = byte '\n') :
      Edit (before ++ after) (before ++ blanks ++ after)
  /-- A line without visible content is put before a line. -/
  | blankLine (before line after : Str)
      (hline : ∀ ch ∈ line, isspace ch = true ∧ ch ≠ byte '\n')
      (hstart : ∀ ch ∈ before.getLast?, ch = byte '\n') :
      Edit (before ++ after) (before ++ line ++ byte '\n' :: after)
  /-- A line without visible content is put behind the last line. -/
  | lastLine (text line : Str) (hline : ∀ ch ∈ line, isspace ch = true ∧ ch ≠ byte '\n') :
      Edit text (text ++ byte '\n' :: line)

/-! ## 2. One line -/

section Line
variable (device : Device) {s : ParseState} {line blanks : Str}

theorem trim_append_blanks (line : Str) (hblanks : ∀ ch ∈ blanks, isBlank ch = true) :
    trim (line ++ blanks) = trim line := by
  have hreverse : ∀ ch ∈ blanks.reverse, isBlank ch = true := fun ch hch =>
    hblanks ch (List.mem_reverse.mp hch)
  rw [trim, trim, List.dropWhile_append]
  split
  · next hempty =>
    rw [List.isEmpty_iff] at hempty
    rw [hempty, List.dropWhile_eq_nil_iff.mpr hblanks]
  · rw [List.rdropWhile, List.reverse_append, List.dropWhile_append_of_pos hreverse, List.rdropWhile]

theorem trim_subset (line : Str) : trim line ⊆ line := fun _ hmem =>
  (List.dropWhile_sublist _).subset ((List.rdropWhile_prefix _ _).subset hmem)

/-- Where a line has visible content, its indent does not depend on what follows it. -/
theorem indentOf_append (hvisible : trim line ≠ []) (blanks : Str) :
    indentOf (line ++ blanks) = indentOf line := by
  have hend : (line.takeWhile (· = byte ' ')).length ≠ line.length := by
    intro hlength
    have hall : ∀ ch ∈ line, isBlank ch = true := fun ch hch => by
      rw [← (List.takeWhile_prefix _).eq_of_length hlength] at hch
      have hspace : decide (ch = byte ' ') = true :=
        List.mem_takeWhile_imp (p := fun ch => decide (ch = byte ' ')) hch
      rw [of_decide_eq_true hspace]
      decide
    have hempty : trim ([] ++ line) = trim [] := trim_append_blanks [] hall
    exact hvisible hempty
  rw [indentOf, indentOf, List.takeWhile_append, if_neg hend]

/-- Blanks behind a line make no difference. -/
theorem parseLine_append_blanks (s : ParseState) (line : Str)
    (hblanks : ∀ ch ∈ blanks, isBlank ch = true) :
    parseLine device s (line ++ blanks) = parseLine device s line := by
  unfold parseLine
  rw [trim_append_blanks line hblanks]
  by_cases hvisible : trim line = []
  · simp only [hvisible, if_true]
  · rw [indentOf_append hvisible]

/-- A text without visible characters does not start with a word. -/
theorem startsWith_of_isspace {ch : UInt8} {value word : Str} (hvalue : ∀ ch ∈ value, isspace ch = true)
    (hword : isspace ch = false) : startsWith value (ch :: word) = false := by
  cases value with
  | nil => rfl
  | cons first value =>
    have hne : ch ≠ first := by
      rintro rfl
      rw [hvalue ch List.mem_cons_self] at hword
      cases hword
    simp [startsWith, List.isPrefixOf, hne]

/-- A line without visible characters is passed over, also if `trim` does not know all of them. -/
theorem parseLine_of_isspace (s : ParseState) (hline : ∀ ch ∈ line, isspace ch = true) :
    parseLine device s line = s := by
  have hvalue : ∀ ch ∈ trim line, isspace ch = true := fun ch hch => hline ch (trim_subset line hch)
  have hnot (first : UInt8) (word : Str) (hfirst : isspace first = false) :
      startsWith (trim line) (first :: word) = false := startsWith_of_isspace hvalue hfirst
  have hne : trim line ≠ lit "DataItem:" := by
    intro heq
    have hfirst := hvalue (byte 'D') (heq ▸ List.mem_cons_self)
    exact absurd hfirst (by decide)
  have hname : startsWith (trim line) (lit "- Name:") = false := hnot _ _ (by decide)
  have hdescription : startsWith (trim line) (lit "Description:") = false := hnot _ _ (by decide)
  have hpaths : startsWith (trim line) (lit "NamePath:") = false ∧
      startsWith (trim line) (lit "namePath:") = false ∧
      startsWith (trim line) (lit "Path:") = false ∧
      startsWith (trim line) (lit "path:") = false :=
    ⟨hnot _ _ (by decide), hnot _ _ (by decide), hnot _ _ (by decide), hnot _ _ (by decide)⟩
  simp [parseLine, hne, hname, hdescription, hpaths]

end Line

/-! ## 3. The lines of a text -/

section Text
variable (device : Device) {s : ParseState} {text text' before line blanks after : Str}

/-- The lines of a text, parsed from a state on. -/
def parseText (s : ParseState) (text : Str) : ParseState :=
  (text.splitOn (byte '\n')).foldl (parseLine device) s

/-- What `getline` leaves out behind a last newline has no content. -/
theorem foldl_lines (s : ParseState) (text : Str) :
    (lines text).foldl (parseLine device) s = parseText device s text := by
  rw [lines, parseText]
  split
  · next hlast =>
    obtain ⟨parts, hparts⟩ := List.getLast?_eq_some_iff.mp hlast
    rw [hparts, List.dropLast_concat, List.foldl_append]
    rfl
  · rfl

theorem parseText_append (s : ParseState) (before after : Str) :
    parseText device s (before ++ byte '\n' :: after) =
      parseText device (parseText device s before) after := by
  simp only [parseText, List.splitOn_append_cons_self, List.foldl_append]

theorem parseText_line (s : ParseState) (hline : byte '\n' ∉ line) :
    parseText device s line = parseLine device s line := by
  rw [parseText, List.splitOn_eq_singleton hline, List.foldl_cons, List.foldl_nil]

/-- A line without visible characters, read as a text. -/
theorem parseText_of_isspace (s : ParseState)
    (hline : ∀ ch ∈ line, isspace ch = true ∧ ch ≠ byte '\n') : parseText device s line = s := by
  rw [parseText_line device s fun hmem => (hline _ hmem).2 rfl,
    parseLine_of_isspace device s fun ch hch => (hline ch hch).1]

/-- Blanks behind the last line of a text make no difference. -/
theorem parseText_append_blanks (hblanks : ∀ ch ∈ blanks, isBlank ch = true)
    (hnewline : byte '\n' ∉ blanks) (s : ParseState) (text : Str) :
    parseText device s (text ++ blanks) = parseText device s text := by
  induction hlength : text.length using Nat.strongRecOn generalizing s text with
  | _ length ih =>
    by_cases hmem : byte '\n' ∈ text
    · obtain ⟨line, rest, rfl, -⟩ := List.eq_append_cons_of_mem hmem
      have hshorter : rest.length < length := by
        rw [← hlength, List.length_append, List.length_cons]
        omega
      rw [List.append_assoc, List.cons_append, parseText_append, parseText_append,
        ih _ hshorter _ rest rfl]
    · have hboth : byte '\n' ∉ text ++ blanks := by
        rw [List.mem_append]
        exact not_or.mpr ⟨hmem, hnewline⟩
      rw [parseText_line device s hboth, parseText_line device s hmem,
        parseLine_append_blanks device s text hblanks]

/-! ## 4. The edits -/

/-- The blanks that an edit appends. -/
theorem isBlank_of_appended (hblanks : ∀ ch ∈ blanks, ch = byte ' ' ∨ ch = byte '\t' ∨ ch = byte '\r') :
    (∀ ch ∈ blanks, isBlank ch = true) ∧ byte '\n' ∉ blanks := by
  constructor
  · intro ch hch
    rcases hblanks ch hch with rfl | rfl | rfl <;> decide
  · intro hmem
    exact absurd (hblanks _ hmem) (by decide)

/-- Blanks before a newline make no difference. -/
theorem parseText_blanks_newline (hblanks : ∀ ch ∈ blanks, ch = byte ' ' ∨ ch = byte '\t' ∨ ch = byte '\r')
    (s : ParseState) (before after : Str) :
    parseText device s (before ++ blanks ++ byte '\n' :: after) =
      parseText device s (before ++ byte '\n' :: after) := by
  obtain ⟨hblank, hnewline⟩ := isBlank_of_appended hblanks
  rw [parseText_append, parseText_append, parseText_append_blanks device hblank hnewline]

/-- No edit changes what a text is parsed to. -/
theorem parseText_edit (s : ParseState) (h : Edit text text') :
    parseText device s text' = parseText device s text := by
  cases h with
  | crlf before after =>
    -- the carriage return is a blank behind the line
    have hcr : before ++ byte '\r' :: byte '\n' :: after =
        before ++ [byte '\r'] ++ byte '\n' :: after := by simp
    rw [hcr]
    exact parseText_blanks_newline device (by simp) s before after
  | blanks before blanks after hblanks hend =>
    cases after with
    | nil =>
      obtain ⟨hblank, hnewline⟩ := isBlank_of_appended hblanks
      rw [List.append_nil, List.append_nil, parseText_append_blanks device hblank hnewline]
    | cons ch after =>
      rw [hend ch rfl]
      exact parseText_blanks_newline device hblanks s before after
  | blankLine before line after hline hstart =>
    rcases List.eq_nil_or_concat' before with rfl | ⟨earlier, ch, rfl⟩
    · rw [List.nil_append, List.nil_append, parseText_append, parseText_of_isspace device s hline]
    · -- what is before ends with a newline, so the line is parsed by itself
      have hch : ch = byte '\n' := hstart ch (by simp)
      have hassoc (rest : Str) : earlier ++ [ch] ++ rest = earlier ++ byte '\n' :: rest := by
        rw [hch, List.append_assoc, List.singleton_append]
      rw [List.append_assoc, hassoc, hassoc, parseText_append, parseText_append, parseText_append,
        parseText_of_isspace device _ hline]
  | lastLine text line hline =>
    rw [parseText_append, parseText_of_isspace device _ hline]

/-- The parser returns the same points for every device, whatever edits have been made to the text,
in whatever number and order. -/
theorem parseDataItems_of_edits (h : Relation.ReflTransGen Edit text text') :
    parseDataItems device text' = parseDataItems device text := by
  suffices hsame : parseText device {} text' = parseText device {} text by
    rw [parseDataItems, parseDataItems, foldl_lines, foldl_lines, hsame]
  induction h with
  | refl => rfl
  | tail _ hedit ih => rw [parseText_edit device {} hedit, ih]

end Text

/-- A carriage return, and a vertical tab behind the last line. -/
theorem parseDataItems_of_edits_verticalTab :
    let after := lit "      DataItem:\n        - Name: X"
    let text := lit "    - Name: P" ++ byte '\n' :: after
    let text' := lit "    - Name: P" ++ byte '\r' :: byte '\n' :: after ++ byte '\n' :: [11]
    parseDataItems {} text' = parseDataItems {} text ∧
      (parseDataItems {} text).map (·.namePath) = [lit "/P/X"] :=
  ⟨parseDataItems_of_edits {} (.tail (.single (.crlf _ _)) (.lastLine _ _ (by decide))),
    by decide +kernel⟩

end CollectorService.ModelParser
