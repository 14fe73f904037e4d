import UbootTftp.ExportKeys

/-!
# Text exports read back

An export writes each entry as `key=value` with a NUL or a newline behind it. The reader cuts
the text at every line boundary that Unicode text knows, and takes the white space off both
ends of a line. No value that it returns holds a boundary or ends in white space, so an export
is read back exactly when no value of the environment does.
-/

namespace UbootTftp

/-- An environment that can be exported: its keys match the pattern and its values hold no NUL,
newline or carriage return. Other line boundaries of Unicode text are not excluded. -/
structure Exportable (env : Env) : Prop where
  keys : ∀ entry ∈ env.entries, entry.1 ≠ [] ∧ ∀ character ∈ entry.1, isKeyCharacter character
  values : ∀ entry ∈ env.entries, '\x00' ∉ entry.2 ∧ '\n' ∉ entry.2 ∧ '\r' ∉ entry.2

/-- The line of an entry. -/
def exportLine (entry : Text × Text) : Text := entry.1 ++ '=' :: entry.2

/-- An export: every entry with the separator behind it, and any number of NULs. -/
def exportBytes (separator : Char) (env : Env) (count : Nat) : Bytes :=
  Utf8.encode (env.entries.flatMap (fun entry => exportLine entry ++ [separator]) ++
    List.replicate count '\x00')

/-- The text holds no line boundary and does not end in white space. What stands at its beginning
does not matter, since the equals sign protects it. -/
structure Kept (text : Text) : Prop where
  unbroken : ∀ character ∈ text, Text.isLineBreak character = false
  solid : ∀ character, text.getLast? = some character → Text.isSpace character = false

section Reading

/-- The entry that a line is read as. -/
def lineEntry (rawLine : Text) : Option (Text × Text) :=
  let (key, separated, value) := Sequences.partition '=' (Text.strip rawLine)
  if separated && decide (key ≠ []) then some (key, value) else none

/-- The reader builds the dictionary of the entries of the lines. The induction is on the lines,
from any environment that was read before them. -/
theorem parse_export_entries (body : Bytes) : ubootenvParseExport body =
    Dict.ofList ((Text.splitLines (exportText body)).filterMap lineEntry) := by
  have entered : ∀ (lines : List Text) (env : Env), lines.foldl parseExportLine env =
      env.update (lines.filterMap lineEntry) := by
    intro lines
    induction lines with
    | nil => exact fun _ => rfl
    | cons line lines inductionHypothesis =>
      intro env
      have first : parseExportLine env line = env.update (lineEntry line).toList := by
        simp only [parseExportLine, lineEntry]
        split <;> rfl
      rw [List.foldl_cons, inductionHypothesis, first, ← Dict.update_append]
      congr 1
      cases found : lineEntry line with
      | none => simp [found]
      | some entry => simp [found]
  exact entered _ _

/-- No line of a text holds a line boundary.

Proof: by the recursion of the splitting; a line ends where a boundary stands. -/
theorem lines_unbroken (line text : Text)
    (unbroken : ∀ character ∈ line, Text.isLineBreak character = false) :
    ∀ found ∈ Text.linesFrom line text, ∀ character ∈ found,
      Text.isLineBreak character = false := by
  induction line, text using Text.linesFrom.induct with
  | case1 => simp [Text.linesFrom]
  | case2 line present =>
    intro found member
    simp only [Text.linesFrom, present, if_false, List.mem_singleton] at member
    exact member ▸ unbroken
  | case3 line rest inductionHypothesis =>
    simp only [Text.linesFrom]
    exact List.forall_mem_cons.mpr ⟨unbroken, inductionHypothesis (by simp)⟩
  | case4 line character rest single lineBreak inductionHypothesis =>
    rw [Text.linesFrom, if_pos lineBreak]
    · exact List.forall_mem_cons.mpr ⟨unbroken, inductionHypothesis (by simp)⟩
    · exact single
  | case5 line character rest single lineBreak inductionHypothesis =>
    rw [Text.linesFrom, if_neg lineBreak]
    · apply inductionHypothesis
      intro other member
      rcases List.mem_append.mp member with before | here
      · exact unbroken other before
      · rw [List.mem_singleton.mp here]
        simpa using lineBreak
    · exact single

/-- A value that is read from a line of a text is kept. A line holds no line break and is stripped
before it is cut, so a value neither holds the one nor ends with white space. -/
theorem line_entry_kept (text line : Text) (member : line ∈ Text.splitLines text)
    (entry : Text × Text) (read : lineEntry line = some entry) : Kept entry.2 := by
  have shape : ∃ before, Text.strip line = before ++ '=' :: entry.2 := by
    rcases Sequences.partition_cases '=' (Text.strip line) with
      ⟨_, cut⟩ | ⟨before, after, _, stripped, cut⟩
    · simp [lineEntry, cut] at read
    · simp only [lineEntry, cut, Bool.true_and] at read
      split at read
      · cases read
        exact ⟨before, stripped⟩
      · cases read
  obtain ⟨before, stripped⟩ := shape
  constructor
  · intro character inside
    have held : character ∈ line := by
      apply (Sequences.strip_sublist Text.isSpace line).subset
      rw [← Text.strip, stripped]
      simp [inside]
    exact lines_unbroken [] text (by simp) line member character held
  · intro character last
    -- The last character of the value is the last one of the stripped line.
    have final : (Text.strip line).getLast? = some character := by
      rw [stripped, List.getLast?_append, List.getLast?_cons, last]
      rfl
    have present : Text.strip line ≠ [] := by simp [stripped]
    have outside := List.rdropWhile_last_not Text.isSpace (line.dropWhile Text.isSpace) present
    have same : (Text.strip line).getLast present = character := by
      rw [List.getLast?_eq_some_getLast present] at final
      exact Option.some.inj final
    rw [← same]
    exact Bool.eq_false_iff.mpr outside

/-- Every value that the reader returns is kept, whatever bytes it is given. An environment with
another value can therefore not be among its results. -/
theorem parse_export_kept (body : Bytes) :
    ∀ entry ∈ (ubootenvParseExport body).entries, Kept entry.2 := by
  intro entry member
  have stored := (Dict.mem_entries _ entry.1 entry.2).mp member
  rw [parse_export_entries] at stored
  rcases Dict.get_update_some _ _ _ _ stored with read | none
  · obtain ⟨line, inside, found⟩ := List.mem_filterMap.mp read
    exact line_entry_kept _ line inside _ found
  · cases none

end Reading

section Writing

/-- The line of an entry with a kept value is read as the entry. The key ends at the first equals
sign, since it holds none itself, and there is nothing to be stripped at either end. -/
theorem export_line_read (entry : Text × Text)
    (key : entry.1 ≠ [] ∧ ∀ character ∈ entry.1, isKeyCharacter character) (kept : Kept entry.2) :
    lineEntry (exportLine entry) = some entry := by
  obtain ⟨present, accepted⟩ := key
  have free : '=' ∉ entry.1 := fun member =>
    (key_character_solid '=' (accepted '=' member)).2.2 rfl
  have stripped : Text.strip (exportLine entry) = exportLine entry := by
    obtain ⟨first, rest, shape⟩ := List.exists_cons_of_ne_nil present
    have solid := (key_character_solid first (accepted first (by simp [shape]))).1
    have front : (exportLine entry).dropWhile Text.isSpace = exportLine entry := by
      rw [exportLine, shape, List.cons_append, List.dropWhile_cons, solid]
      rfl
    rw [Text.strip, Sequences.strip, front]
    by_cases empty : entry.2 = []
    · rw [exportLine, empty]
      exact Sequences.rdrop_kept Text.isSpace entry.1 ['='] (by simp) (by simp; decide)
    · obtain ⟨before, last, value⟩ : ∃ before last, entry.2 = before ++ [last] :=
        ⟨_, _, (List.dropLast_append_getLast empty).symm⟩
      have outside := kept.solid last (by simp [value])
      have whole : exportLine entry = (entry.1 ++ '=' :: before) ++ [last] := by
        simp [exportLine, value]
      rw [whole]
      exact Sequences.rdrop_kept Text.isSpace _ [last] (by simp) (by simpa using outside)
  rw [lineEntry, stripped, exportLine, Sequences.partition_append _ _ _ free]
  simp [present]

/-- Lines without boundaries are found again, and so are the empty ones behind them.

Proof: by induction on the lines. -/
theorem lines_written (lines : List Text) (rest : Text)
    (unbroken : ∀ line ∈ lines, ∀ character ∈ line, Text.isLineBreak character = false) :
    Text.splitLines (lines.flatMap (· ++ ['\n']) ++ rest) = lines ++ Text.splitLines rest := by
  induction lines with
  | nil => rfl
  | cons line lines inductionHypothesis =>
    obtain ⟨first, others⟩ := List.forall_mem_cons.mp unbroken
    have newline : Text.isLineBreak '\n' = true := by decide
    have shape : (line :: lines).flatMap (· ++ ['\n']) ++ rest =
        line ++ '\n' :: (lines.flatMap (· ++ ['\n']) ++ rest) := by simp
    rw [shape, Text.splitLines, lines_from_solid [] line _ first, lines_from_cons _ _ _ (by simp),
      if_pos newline, ← Text.splitLines, inductionHypothesis others]
    rfl

variable {env : Env} (exportable : Exportable env)

include exportable

/-- The text that the reader splits has newlines behind the entries and at its end. The separator is
a newline or a NUL, and the reader makes a newline of the second. -/
theorem export_bytes_text (separator : Char) (separates : separator = '\x00' ∨ separator = '\n')
    (count : Nat) : exportText (exportBytes separator env count) =
      (env.entries.map exportLine).flatMap (· ++ ['\n']) ++ List.replicate count '\n' := by
  have line : ∀ entry ∈ env.entries, (exportLine entry ++ [separator]).map
      (fun character => if character = '\x00' then '\n' else character) =
        exportLine entry ++ ['\n'] := by
    intro entry member
    have plain : ∀ character ∈ exportLine entry, character ≠ '\x00' := by
      rintro character inside rfl
      rcases List.mem_append.mp inside with inKey | later
      · exact absurd ((exportable.keys entry member).2 _ inKey) (by decide)
      · rcases List.mem_cons.mp later with separator | inValue
        · cases separator
        · exact (exportable.values entry member).1 inValue
    have same : (exportLine entry).map
        (fun character => if character = '\x00' then '\n' else character) = exportLine entry := by
      conv => rhs; rw [← List.map_id (exportLine entry)]
      exact List.map_congr_left fun character inside => if_neg (plain character inside)
    rw [List.map_append, same]
    rcases separates with rfl | rfl <;> rfl
  rw [exportText, exportBytes, Utf8.decode_encode, List.map_append, List.map_replicate,
    List.map_flatMap, List.flatMap_map]
  congr 1
  exact List.flatMap_congr line

/-- An export of kept values is read back. The lines at the end are empty and name no key, however
many there are. -/
theorem export_read (separator : Char) (separates : separator = '\x00' ∨ separator = '\n')
    (count : Nat) (kept : ∀ entry ∈ env.entries, Kept entry.2) :
    ubootenvParseExport (exportBytes separator env count) = env := by
  have unbroken : ∀ line ∈ env.entries.map exportLine, ∀ character ∈ line,
      Text.isLineBreak character = false := by
    intro line member character inside
    obtain ⟨entry, stored, rfl⟩ := List.mem_map.mp member
    rcases List.mem_append.mp inside with inKey | later
    · exact (key_character_solid character ((exportable.keys entry stored).2 _ inKey)).2.1
    · rcases List.mem_cons.mp later with rfl | inValue
      · decide
      · exact (kept entry stored).unbroken character inValue
  have blank : (Text.splitLines (List.replicate count '\n')).filterMap lineEntry = [] := by
    have empties := lines_written (List.replicate count []) [] (by simp)
    rw [List.flatMap_replicate, List.nil_append, List.flatten_replicate_singleton,
      List.append_nil] at empties
    rw [empties, List.filterMap_append, List.filterMap_replicate_of_none (by decide)]
    rfl
  have read : (env.entries.map exportLine).filterMap lineEntry = env.entries := by
    rw [List.filterMap_map]
    conv => rhs; rw [← List.filterMap_some (l := env.entries)]
    exact List.filterMap_congr fun entry member =>
      export_line_read entry (exportable.keys entry member) (kept entry member)
  rw [parse_export_entries, export_bytes_text exportable separator separates,
    lines_written _ _ unbroken, List.filterMap_append, read, blank, List.append_nil,
    Dict.ofList_entries]

end Writing

/-- Both exports of the environment are read back, with any number of NULs behind them. -/
def ExportsReadBack (env : Env) : Prop :=
  ∀ count, ubootenvParseExport (exportBytes '\x00' env count) = env ∧
    ubootenvParseExport (exportBytes '\n' env count) = env

/-- For every environment that can be exported: both exports are read back exactly when no value
holds a line boundary or ends in white space.

Proof: a value that is read is kept in either case. For the converse the lines of the entries are
found again one by one, and each is read as its entry. -/
theorem exports_read_back_iff (env : Env) (exportable : Exportable env) :
    ExportsReadBack env ↔ ∀ entry ∈ env.entries, Kept entry.2 := by
  constructor
  · intro readBack entry member
    obtain ⟨same, _⟩ := readBack 0
    rw [← same] at member
    exact parse_export_kept _ entry member
  · intro kept count
    exact ⟨export_read exportable '\x00' (.inl rfl) count kept,
      export_read exportable '\n' (.inr rfl) count kept⟩

/-- The environment with an empty value, equals signs and leading white space is read back. -/
theorem exports_read_back_sample : ExportsReadBack severalEnv := by
  refine (exports_read_back_iff severalEnv ⟨several_storable.keys, by decide +kernel⟩).mpr ?_
  have unbroken : severalEnv.entries.all (fun entry => entry.2.all
      fun character => !Text.isLineBreak character) = true := by decide +kernel
  have solid : severalEnv.entries.all (fun entry => entry.2.getLast?.all
      fun character => !Text.isSpace character) = true := by decide +kernel
  simp only [List.all_eq_true, Option.all_eq_true, Bool.not_eq_true'] at unbroken solid
  exact fun entry member => ⟨unbroken entry member, solid entry member⟩

/-- A value that ends in a space loses it: the line is stripped at both ends before it is cut at the
equals sign. -/
theorem trailing_space_lost : ¬ExportsReadBack (Dict.ofList [("a".toList, "1 ".toList)]) := by
  intro readBack
  obtain ⟨same, _⟩ := readBack 0
  revert same
  decide

end UbootTftp
