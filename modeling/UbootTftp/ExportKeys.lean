import UbootTftp.EnvRoundTrip
import Mathlib.Algebra.Order.BigOperators.Group.List

/-!
# The keys that an export names

The export reader keeps the lines of the form `key=value`. The keys of what it returns are
the ones that its lines name, so how many entries it finds can be told from the lines.
-/

namespace UbootTftp

/-- The key that a line of an export names. -/
def lineKey (rawLine : Text) : Option Text :=
  let (key, separated, _) := Sequences.partition '=' (Text.strip rawLine)
  if separated && decide (key ≠ []) then some key else none

/-- The keys that the lines of a text name, in order. -/
def exportKeys (text : Text) : List Text := (Text.splitLines text).filterMap lineKey

/-- The text that the export reader splits into lines. -/
def exportText (body : Bytes) : Text :=
  (Utf8.decode body).map (fun character => if character = '\x00' then '\n' else character)

/-- Whether two of the keys differ. The reading of a partition as text asks for two entries, and
entries of one key are one. -/
def TwoKeys (keys : List Text) : Prop := ∃ first ∈ keys, ∃ second ∈ keys, first ≠ second

instance (keys : List Text) : Decidable (TwoKeys keys) := by
  unfold TwoKeys
  infer_instance

section Lines

/-- A character that starts no pair of carriage return and newline ends the line if it is
a line break. -/
theorem lines_from_cons (line rest : Text) (character : Char)
    (single : ¬(character = '\r' ∧ rest.head? = some '\n')) :
    Text.linesFrom line (character :: rest) =
      if Text.isLineBreak character then line :: Text.linesFrom [] rest
      else Text.linesFrom (line ++ [character]) rest := by
  rw [Text.linesFrom]
  rintro following rfl rfl
  exact single ⟨rfl, rfl⟩

/-- A newline ends a line, and the text behind it has lines of its own.

Proof: by the recursion of the splitting, with the line that has begun. A carriage return before the
newline is one line break with it, in the text as in its first part. -/
theorem export_keys_lines (line before after : Text) :
    (Text.linesFrom line (before ++ '\n' :: after)).filterMap lineKey =
      (Text.linesFrom line before).filterMap lineKey ++ exportKeys after := by
  have blank : lineKey [] = none := by decide
  have newline : Text.isLineBreak '\n' = true := by decide
  have ended : ∀ line, Text.linesFrom line ('\n' :: after) = line :: Text.linesFrom [] after :=
    fun line => by rw [lines_from_cons _ _ _ (by simp), if_pos newline]
  induction line, before using Text.linesFrom.induct with
  | case1 => simp [ended, blank, Text.linesFrom, exportKeys, Text.splitLines]
  | case2 line present =>
    rw [List.nil_append, ended, Text.linesFrom, if_neg present]
    cases named : lineKey line <;> simp [named, exportKeys, Text.splitLines]
  | case3 line rest inductionHypothesis =>
    simp only [List.cons_append, Text.linesFrom, List.filterMap_cons, inductionHypothesis]
    cases lineKey line <;> rfl
  | case4 line character rest single lineBreak inductionHypothesis =>
    have alone : ¬(character = '\r' ∧ rest.head? = some '\n') := by
      rintro ⟨rfl, headed⟩
      obtain ⟨following, rfl⟩ := List.head?_eq_some_iff.mp headed
      exact single following rfl rfl
    rw [lines_from_cons _ _ _ alone, if_pos lineBreak, List.filterMap_cons]
    have behind : (Text.linesFrom line (character :: (rest ++ '\n' :: after))).filterMap lineKey =
        (lineKey line).toList ++
          ((Text.linesFrom [] rest).filterMap lineKey ++ exportKeys after) := by
      by_cases pair : character = '\r' ∧ rest = []
      · -- The two characters are one break.
        obtain ⟨rfl, rfl⟩ := pair
        simp only [List.nil_append, Text.linesFrom, List.filterMap_cons, if_true,
          List.filterMap_nil, exportKeys, Text.splitLines]
        cases lineKey line <;> rfl
      · have still : ¬(character = '\r' ∧ (rest ++ '\n' :: after).head? = some '\n') := by
          rintro ⟨rfl, headed⟩
          cases rest with
          | nil => exact pair ⟨rfl, rfl⟩
          | cons next rest => exact alone ⟨rfl, by simpa using headed⟩
        rw [lines_from_cons _ _ _ still, if_pos lineBreak, List.filterMap_cons,
          inductionHypothesis]
        cases lineKey line <;> rfl
    rw [List.cons_append, behind]
    cases lineKey line <;> rfl
  | case5 line character rest single lineBreak inductionHypothesis =>
    have alone : ∀ rest' : Text, ¬(character = '\r' ∧ rest'.head? = some '\n') := by
      rintro _ ⟨rfl, _⟩
      exact lineBreak rfl
    rw [List.cons_append, lines_from_cons _ _ _ (alone _), lines_from_cons _ _ _ (alone _),
      if_neg lineBreak, if_neg lineBreak, inductionHypothesis]

/-- A newline separates the keys that are named before it from those behind it. -/
theorem export_keys_append (before after : Text) :
    exportKeys (before ++ '\n' :: after) = exportKeys before ++ exportKeys after :=
  export_keys_lines [] before after

/-- A NUL of an export is a newline, and what stands on its two sides is decoded apart. -/
theorem export_text_append (before after : Bytes) :
    exportText (before ++ 0x00 :: after) = exportText before ++ '\n' :: exportText after := by
  rw [exportText, show (0x00 : UInt8) = UInt8.ofNat '\x00'.toNat by decide,
    Utf8.decode_ascii _ _ _ (by decide), List.map_append]
  rfl

/-- The lines of a text are no longer than the text together. The induction is on the text with the
line that is being read, as `linesFrom` goes. A line break counts for no line, so the sum may be
smaller. -/
theorem lines_length (line text : Text) :
    ((Text.linesFrom line text).map List.length).sum ≤ line.length + text.length := by
  induction line, text using Text.linesFrom.induct with
  | case1 => simp [Text.linesFrom]
  | case2 line present => simp [Text.linesFrom, present]
  | case3 line rest inductionHypothesis =>
    simp only [Text.linesFrom, List.map_cons, List.sum_cons, List.length_cons] at *
    simp only [List.length_nil] at inductionHypothesis
    omega
  | case4 line character rest single lineBreak inductionHypothesis =>
    rw [Text.linesFrom, if_pos lineBreak]
    · simp only [List.map_cons, List.sum_cons, List.length_cons, List.length_nil] at *
      omega
    · exact single
  | case5 line character rest single lineBreak inductionHypothesis =>
    rw [Text.linesFrom, if_neg lineBreak]
    · simp only [List.length_append, List.length_cons, List.length_nil] at *
      omega
    · exact single

/-- A line's characters are characters of the text.

Proof: by the recursion of the splitting; a character joins the current line or is a line break. -/
theorem lines_from_members (line text : Text) (found : Text)
    (member : found ∈ Text.linesFrom line text) (character : Char) (inside : character ∈ found) :
    character ∈ line ∨ character ∈ text := by
  induction line, text using Text.linesFrom.induct with
  | case1 => simp [Text.linesFrom] at member
  | case2 line present =>
    simp only [Text.linesFrom, present, if_false, List.mem_singleton] at member
    exact .inl (member ▸ inside)
  | case3 line rest inductionHypothesis =>
    simp only [Text.linesFrom, List.mem_cons] at member
    rcases member with rfl | later
    · exact .inl inside
    · rcases inductionHypothesis later with none | behind
      · cases none
      · exact .inr (by simp [behind])
  | case4 line other rest single lineBreak inductionHypothesis =>
    rw [Text.linesFrom, if_pos lineBreak] at member
    · rcases List.mem_cons.mp member with rfl | later
      · exact .inl inside
      · rcases inductionHypothesis later with none | behind
        · cases none
        · exact .inr (by simp [behind])
    · exact single
  | case5 line other rest single lineBreak inductionHypothesis =>
    rw [Text.linesFrom, if_neg lineBreak] at member
    · rcases inductionHypothesis member with current | behind
      · rcases List.mem_append.mp current with before | here
        · exact .inl before
        · exact .inr (by simpa using .inl (List.mem_singleton.mp here))
      · exact .inr (by simp [behind])
    · exact single

/-- A line that names a key holds an equals sign behind it. The key in front of the sign is not
empty, and this is where the second character comes from. -/
theorem line_key_some (line key : Text) (named : lineKey line = some key) :
    '=' ∈ line ∧ 2 ≤ line.length := by
  have stripped := Sequences.strip_sublist Text.isSpace line
  rcases Sequences.partition_cases '=' (Text.strip line) with ⟨_, cut⟩ | ⟨before, after, _, shape, cut⟩
  · simp [lineKey, cut] at named
  · simp only [lineKey, cut, Bool.true_and, decide_eq_true_eq] at named
    split at named
    · rename_i present
      have length := stripped.length_le
      have positive := List.length_pos_iff.mpr present
      rw [← Text.strip, shape] at length
      simp only [List.length_append, List.length_cons] at length
      refine ⟨stripped.subset ?_, by omega⟩
      rw [← Text.strip, shape]
      simp
    · cases named

/-- A text without an equals sign names no key. -/
theorem export_keys_plain (text : Text) (plain : '=' ∉ text) : exportKeys text = [] := by
  refine List.filterMap_eq_nil_iff.mpr fun line member => ?_
  refine Option.eq_none_iff_forall_ne_some.mpr fun key named => ?_
  rcases lines_from_members [] text line member '=' (line_key_some line key named).1 with none | inside
  · cases none
  · exact plain inside

/-- Two keys take at least five characters: an equals sign behind each of them and the break
between their lines. A text of three characters does not hold the lines alone. -/
theorem export_keys_short (text : Text) (short : text.length ≤ 3) : ¬TwoKeys (exportKeys text) := by
  rintro ⟨first, firstNamed, second, secondNamed, different⟩
  obtain ⟨firstLine, firstMember, firstKey⟩ := List.mem_filterMap.mp firstNamed
  obtain ⟨secondLine, secondMember, secondKey⟩ := List.mem_filterMap.mp secondNamed
  have lines : firstLine ≠ secondLine := by
    rintro rfl
    exact different (Option.some.inj (firstKey.symm.trans secondKey))
  have total := lines_length [] text
  obtain ⟨front, back, split⟩ := List.append_of_mem firstMember
  have firstSize := (line_key_some firstLine first firstKey).2
  have secondSize := (line_key_some secondLine second secondKey).2
  have elsewhere : secondLine ∈ front ++ back := by
    rw [split] at secondMember
    simpa [Ne.symm lines] using secondMember
  have counted : secondLine.length ≤ ((front ++ back).map List.length).sum :=
    List.single_le_sum (by simp) _ (List.mem_map_of_mem elsewhere)
  rw [← Text.splitLines, split] at total
  simp only [List.map_append, List.map_cons, List.sum_append, List.sum_cons, List.length_nil]
    at total counted
  omega

/-- Entering a line adds the key that it names. -/
theorem parse_line_keys (env : Env) (line key : Text) :
    key ∈ (parseExportLine env line).keys ↔ key ∈ env.keys ∨ lineKey line = some key := by
  simp only [parseExportLine, lineKey]
  split
  · rw [Dict.mem_keys, Dict.mem_keys, Dict.get_set, Option.some.injEq]
    by_cases same : key = (Sequences.partition '=' (Text.strip line)).1
    · simp [← same]
    · simp [same, Ne.symm same]
  · simp

/-- The keys that the export reader finds are those that the lines name.

Proof: by induction on the lines, for any environment that they are entered into. -/
theorem parse_export_keys (body : Bytes) (key : Text) :
    key ∈ (ubootenvParseExport body).keys ↔ key ∈ exportKeys (exportText body) := by
  have entered : ∀ (lines : List Text) (env : Env),
      key ∈ (lines.foldl parseExportLine env).keys ↔
        key ∈ env.keys ∨ key ∈ lines.filterMap lineKey := by
    intro lines
    induction lines with
    | nil => simp
    | cons line lines inductionHypothesis =>
      intro env
      rw [List.foldl_cons, inductionHypothesis, parse_line_keys, List.mem_filterMap,
        List.mem_filterMap, or_assoc]
      simp
  have folded : ubootenvParseExport body =
      (Text.splitLines (exportText body)).foldl parseExportLine Dict.empty := rfl
  rw [folded, entered, exportKeys]
  simp [Dict.keys, Dict.empty]

/-- The export reader finds two entries exactly when the lines name two keys. The reader keeps the
last value of a key, so it is the number of different keys that counts and not that of the lines. -/
theorem export_entries (body : Bytes) :
    ¬(ubootenvParseExport body).entries.length < 2 ↔ TwoKeys (exportKeys (exportText body)) := by
  have distinct := (ubootenvParseExport body).distinct
  have size : (ubootenvParseExport body).entries.length = (ubootenvParseExport body).keys.length :=
    (List.length_map _).symm
  simp only [TwoKeys, ← parse_export_keys, size]
  change (ubootenvParseExport body).keys.Nodup at distinct
  generalize (ubootenvParseExport body).keys = keys at distinct ⊢
  match keys, distinct with
  | [], _ => simp
  | [only], _ => simp
  | first :: second :: rest, distinct =>
    have different : first ≠ second := by
      rintro rfl
      simp at distinct
    simp only [List.length_cons, Nat.not_lt]
    exact ⟨fun _ => ⟨first, by simp, second, by simp, different⟩, fun _ => by omega⟩

end Lines

section Entries

/-- A key character is neither white space nor a line break nor an equals sign. They are the
letters, the digits and three signs of ASCII, with numbers from that of the hyphen on. -/
theorem key_character_solid (character : Char) (accepted : isKeyCharacter character) :
    Text.isSpace character = false ∧ Text.isLineBreak character = false ∧ character ≠ '=' := by
  obtain ⟨ascii, byte⟩ := (key_character_iff character).mp accepted
  have bounds : 0x2D ≤ character.toNat ∧ character.toNat ≠ 0x3D := by
    have number : (UInt8.ofNat character.toNat).toNat = character.toNat := by
      rw [UInt8.toNat_ofNat']
      omega
    rw [key_byte_iff, number] at byte
    omega
  refine ⟨?_, ?_, ?_⟩
  · simp only [Text.isSpace, Bool.or_eq_false_iff, Bool.and_eq_false_iff, decide_eq_false_iff_not,
      beq_eq_false_iff_ne]
    omega
  · simp only [Text.isLineBreak, Bool.or_eq_false_iff, Bool.and_eq_false_iff,
      decide_eq_false_iff_not, beq_eq_false_iff_ne]
    omega
  · rintro rfl
    exact bounds.2 rfl

/-- Characters that break no line extend the current one. By induction on those characters, with the
line that they extend left open. -/
theorem lines_from_solid (line solid rest : Text)
    (unbroken : ∀ character ∈ solid, Text.isLineBreak character = false) :
    Text.linesFrom line (solid ++ rest) = Text.linesFrom (line ++ solid) rest := by
  induction solid generalizing line with
  | nil => simp
  | cons character solid inductionHypothesis =>
    obtain ⟨first, others⟩ := List.forall_mem_cons.mp unbroken
    have single : ¬(character = '\r' ∧ (solid ++ rest).head? = some '\n') := by
      rintro ⟨rfl, _⟩
      exact absurd first (by decide)
    rw [List.cons_append, lines_from_cons _ _ _ single, if_neg (by simp [first]),
      inductionHypothesis _ others, List.append_assoc, List.singleton_append]

/-- A line that has begun is the first one. What follows may extend it or break it off, but does not
take back what it holds. -/
theorem lines_from_head (line rest : Text) (present : line ≠ []) :
    ∃ tail others, Text.linesFrom line rest = (line ++ tail) :: others := by
  induction line, rest using Text.linesFrom.induct with
  | case1 => exact absurd rfl present
  | case2 line _ => exact ⟨[], [], by simp [Text.linesFrom, present]⟩
  | case3 line rest _ => exact ⟨[], Text.linesFrom [] rest, by simp [Text.linesFrom]⟩
  | case4 line character rest single lineBreak _ =>
    refine ⟨[], Text.linesFrom [] rest, ?_⟩
    rw [Text.linesFrom, if_pos lineBreak, List.append_nil]
    exact single
  | case5 line character rest single lineBreak inductionHypothesis =>
    obtain ⟨tail, others, same⟩ := inductionHypothesis (by simp)
    refine ⟨character :: tail, others, ?_⟩
    rw [Text.linesFrom, if_neg lineBreak, same, List.append_assoc, List.singleton_append]
    exact single

/-- The key of an entry is the first that its text names, whatever the value holds. A line break in
the value ends the first line, and an equals sign in it comes behind the one that ends the key. -/
theorem export_keys_entry (key value : Text) (present : key ≠ [])
    (accepted : ∀ character ∈ key, isKeyCharacter character) :
    key ∈ exportKeys (key ++ '=' :: value) := by
  have unbroken : ∀ character ∈ key ++ ['='], Text.isLineBreak character = false := by
    intro character member
    rcases List.mem_append.mp member with inside | separator
    · exact (key_character_solid character (accepted character inside)).2.1
    · rw [List.mem_singleton.mp separator]
      decide
  obtain ⟨tail, others, lines⟩ := lines_from_head (key ++ ['=']) value (by simp)
  have whole : Text.splitLines (key ++ '=' :: value) = (key ++ ['='] ++ tail) :: others := by
    rw [← lines, Text.splitLines, ← List.nil_append (key ++ ['=']),
      ← lines_from_solid [] (key ++ ['=']) value unbroken, List.append_assoc, List.singleton_append]
  have named : lineKey (key ++ ['='] ++ tail) = some key := by
    have free : '=' ∉ key := fun member =>
      (key_character_solid '=' (accepted '=' member)).2.2 rfl
    obtain ⟨first, rest, rfl⟩ := List.exists_cons_of_ne_nil present
    have solid := (key_character_solid first (accepted first (by simp))).1
    have stripped : Text.strip (first :: rest ++ ['='] ++ tail) =
        first :: rest ++ '=' :: tail.rdropWhile Text.isSpace := by
      rw [← Sequences.rdrop_behind Text.isSpace _ tail '=' (by decide), Text.strip, Sequences.strip,
        List.append_assoc, List.singleton_append, List.cons_append,
        List.dropWhile_cons_of_neg (by simp [solid])]
    simp only [lineKey, stripped, Sequences.partition_append _ _ _ free, Bool.true_and, present,
      ne_eq, not_false_eq_true, decide_true, if_true]
  rw [exportKeys, whole, List.filterMap_cons, named]
  simp

end Entries

end UbootTftp
