import UbootTftp.BoardScripts
import UbootTftp.FlashScripts

/-!
# Words that a board understands

Numbers that the server writes are read as what they are, a word without a dollar sign stands
for itself, and an expansion for the value of its variable. For each command of the snippets
there is one lemma about what a board makes of its words.
-/

namespace UbootTftp

section Numbers

/-- Hexadecimal digits without a prefix. There is no `x` among them, so nothing is taken off the
front. -/
theorem board_number_digits (number : Nat) :
    boardNumber (Nat.toDigits 16 number) = some number := by
  have unannounced : "0x".toList.isPrefixOf (Nat.toDigits 16 number) = false := by
    rw [Bool.eq_false_iff]
    intro announced
    have member : 'x' ∈ Nat.toDigits 16 number :=
      (List.isPrefixOf_iff_prefix.mp announced).subset (by decide)
    exact Text.to_digits_hex (· ≠ 'x') (by decide) number 'x' member rfl
  obtain ⟨values, read, folded⟩ := Text.to_digits_value number
  have mapped : (Nat.toDigits 16 number).mapM (digitOf 16) = some values :=
    (map_m_some _ _ values).mpr read
  simp only [boardNumber, unannounced, Bool.false_eq_true, if_false, Text.to_digits_present number,
    mapped, Option.map_some, folded]

/-- A number that `hex` writes. -/
theorem board_number_hex (number : Nat) : boardNumber (Text.hex number) = some number := by
  have shape : Text.hex (number : Int) = '0' :: 'x' :: Nat.toDigits 16 number := by
    simp [Text.hex]
  have announced : "0x".toList.isPrefixOf ('0' :: 'x' :: Nat.toDigits 16 number) = true := rfl
  obtain ⟨values, read, folded⟩ := Text.to_digits_value number
  have mapped : (Nat.toDigits 16 number).mapM (digitOf 16) = some values :=
    (map_m_some _ _ values).mpr read
  have dropped : ('0' :: 'x' :: Nat.toDigits 16 number).drop 2 = Nat.toDigits 16 number := rfl
  simp only [shape, boardNumber, announced, if_true, dropped, Text.to_digits_present number,
    if_false, mapped, Option.map_some, folded]

/-- A number has no colon in it. So a command whose last word is a number is none that a session of
the server answers. -/
theorem board_number_colon (word : Text) (number : Nat) (read : boardNumber word = some number) :
    ':' ∉ word := by
  have digitsOnly : ∀ digits : Text, digits.mapM (digitOf 16) ≠ none → ':' ∉ digits := by
    intro digits parses member
    obtain ⟨values, parsed⟩ := Option.ne_none_iff_exists'.mp parses
    have mapped := (map_m_some (digitOf 16) digits values).mp parsed
    have inside : digitOf 16 ':' ∈ digits.map (digitOf 16) := List.mem_map_of_mem member
    rw [mapped] at inside
    obtain ⟨value, -, same⟩ := List.mem_map.mp inside
    have foreign : digitOf 16 ':' = none := by decide
    rw [foreign] at same
    cases same
  have parses : ∀ digits : Text, (if digits = [] then none else (digits.mapM (digitOf 16)).map
      (fun values => values.foldl (fun number digit => number * 16 + digit) 0)) = some number →
        ':' ∉ digits := by
    intro digits holds
    split at holds
    · cases holds
    · exact digitsOnly digits fun fails => by simp [fails] at holds
  by_cases announced : "0x".toList.isPrefixOf word = true
  · simp only [boardNumber, announced, if_true] at read
    obtain ⟨rest, rfl⟩ := List.isPrefixOf_iff_prefix.mp announced
    rw [List.mem_append, not_or]
    exact ⟨by decide, parses rest read⟩
  · simp only [boardNumber, announced, if_false, Bool.false_eq_true] at read
    exact parses word read

end Numbers

section Expansions

variable (lookup : Text → Option Text) (status : Nat)

/-- Without quotes and backslashes a word is bare. -/
theorem bare_loose (word : Text) (loose : Loose word) : bareWord false word = word := by
  induction word with
  | nil => rfl
  | cons character word inductionHypothesis =>
    have other := loose character (by simp)
    have rest := inductionHypothesis fun later member => loose later (by simp [member])
    simp only [List.mem_cons, List.not_mem_nil, or_false, not_or] at other
    simp only [bareWord, Bool.false_eq_true, if_false, if_neg other.2.2.2.2, if_neg other.2.2.2.1, rest]

/-- In quotes a text without quotes and backslashes is bare. The induction is on the text, behind
the opening quote. -/
theorem bare_quoted (text : Text) (unquoted : '"' ∉ text) (unescaped : '\\' ∉ text) :
    bareWord false ('"' :: text ++ ['"']) = text := by
  have inside : bareWord false (text ++ ['"']) = text := by
    induction text with
    | nil => rfl
    | cons character text inductionHypothesis =>
      simp only [List.mem_cons, not_or] at unquoted unescaped
      have rest := inductionHypothesis unquoted.2 unescaped.2
      simp only [List.cons_append, bareWord, Bool.false_eq_true, if_false,
        if_neg (Ne.symm unescaped.1), if_neg (Ne.symm unquoted.1), rest]
  have opening : '"' ≠ '\\' := by decide
  simp only [List.cons_append, bareWord, Bool.false_eq_true, if_false, if_neg opening, if_true, inside]

/-- Without dollar signs nothing is expanded. -/
theorem expand_constant (word : Text) (constant : '$' ∉ word) :
    expandFrom lookup status .text word = word := by
  induction word with
  | nil => rfl
  | cons character word inductionHypothesis =>
    simp only [List.mem_cons, not_or] at constant
    have rest := inductionHypothesis constant.2
    simp only [expandFrom, if_neg (Ne.symm constant.1), rest]

/-- The name of a variable is read up to its brace. -/
theorem expand_name (read name : Text) (closed : Char.ofNat 0x7D ∉ name) :
    expandFrom lookup status (.name read) (name ++ [Char.ofNat 0x7D]) =
      (lookup (read ++ name)).getD [] := by
  induction name generalizing read with
  | nil => simp [expandFrom]
  | cons character name inductionHypothesis =>
    simp only [List.mem_cons, not_or] at closed
    have rest := inductionHypothesis (read ++ [character]) closed.2
    simp only [List.cons_append, expandFrom, if_neg (Ne.symm closed.1), rest, List.append_assoc,
      List.nil_append]

/-- An expansion is replaced by the value of its variable. -/
theorem expand_expansion (name : Text) (closed : Char.ofNat 0x7D ∉ name) :
    expandFrom lookup status .text (expansion name) = (lookup name).getD [] := by
  have opened : expandFrom lookup status .text (expansion name) =
      expandFrom lookup status (.name []) (name ++ [Char.ofNat 0x7D]) := rfl
  rw [opened, expand_name lookup status [] name closed, List.nil_append]

end Expansions

section Constants

/-- A word that stands for itself: it is not empty, needs no quotes and holds no expansion. -/
structure Constant (word : Text) : Prop where
  present : word ≠ []
  loose : Loose word
  plain : '$' ∉ word

instance (word : Text) : Decidable (Constant word) :=
  decidable_of_iff (word ≠ [] ∧ Loose word ∧ '$' ∉ word)
    ⟨fun holds => ⟨holds.1, holds.2.1, holds.2.2⟩,
      fun constant => ⟨constant.present, constant.loose, constant.plain⟩⟩

/-- A constant word is read as one. -/
theorem Constant.raw {word : Text} (constant : Constant word) : RawWord word :=
  .plain word constant.present constant.loose

/-- A constant word stands for itself. -/
theorem Constant.expanded {word : Text} (constant : Constant word) (lookup : Text → Option Text)
    (status : Nat) : expandFrom lookup status .text (bareWord false word) = word := by
  rw [bare_loose word constant.loose, expand_constant lookup status word constant.plain]

/-- Numbers are constant. Their characters are the digits, an `x` and for negative numbers a
sign. -/
theorem constant_hex (number : Nat) : Constant (Text.hex number) := by
  have without (character : Char) (other : character ∉ ['0', 'x', '-'])
      (foreign : ∀ digit < 16, Nat.digitChar digit ≠ character) : character ∉ Text.hex number := by
    simp only [List.mem_cons, List.not_mem_nil, or_false, not_or] at other
    intro member
    exact Text.hex_characters (· ≠ character) foreign (Ne.symm other.2.1) (Ne.symm other.2.2) number
      character member rfl
  refine ⟨by simp [Text.hex], fun character member special => ?_, without '$' (by decide) (by decide)⟩
  simp only [List.mem_cons, List.not_mem_nil, or_false] at special
  rcases special with rfl | rfl | rfl | rfl | rfl
  · exact without ' ' (by decide) (by decide) member
  · exact without ';' (by decide) (by decide) member
  · exact without '\n' (by decide) (by decide) member
  · exact without '"' (by decide) (by decide) member
  · exact without '\\' (by decide) (by decide) member

/-- Whether a variable is a temporary one of a snippet. -/
def Temporary (name : Text) : Prop := "__uboot_tftp_".toList <+: name

instance (name : Text) : Decidable (Temporary name) :=
  inferInstanceAs (Decidable ("__uboot_tftp_".toList <+: name))

/-- A temporary variable without a character with a meaning in its name. The snippets draw the names
from a counter, so that different snippets use different ones. -/
structure Scratch (name : Text) : Prop where
  temporary : Temporary name
  constant : Constant name
  colonless : ':' ∉ name
  closed : Char.ofNat 0x7D ∉ name

/-- The expansion of a name is a word. -/
theorem raw_expansion (name : Text) (loose : Loose name) : RawWord (expansion name) := by
  refine .plain _ (by simp [expansion]) (Loose.append (Loose.append ?_ loose) ?_)
  · decide
  · decide

/-- So is that of a temporary variable. -/
theorem Scratch.raw {name : Text} (scratch : Scratch name) : RawWord (expansion name) :=
  raw_expansion name scratch.constant.loose

/-- It stands for the value of the variable, or for nothing if there is none. -/
theorem expand_variable (lookup : Text → Option Text) (status : Nat) (name : Text)
    (loose : Loose name) (closed : Char.ofNat 0x7D ∉ name) :
    expandFrom lookup status .text (bareWord false (expansion name)) = (lookup name).getD [] := by
  have word : Loose (expansion name) := Loose.append (Loose.append (by decide) loose) (by decide)
  rw [bare_loose _ word, expand_expansion lookup status name closed]

/-- The kinds of temporary variables. -/
def temporaryKinds : List Text := ["addr".toList, "src".toList, "dst".toList]

/-- The variables that snippets draw are temporary ones. Their names hold none of the characters
that end a word, a command or an expansion, whatever the number is. -/
theorem scratch_tmp (kind : Text) (known : kind ∈ temporaryKinds) (number : Nat) :
    Scratch (nextTmp kind number) := by
  have without (character : Char)
      (special : character ∈ [' ', ';', '\n', '"', '\\', '$', ':', Char.ofNat 0x7D]) :
      character ∉ nextTmp kind number := by
    have foreign : (temporaryKinds.all fun kind =>
        [' ', ';', '\n', '"', '\\', '$', ':', Char.ofNat 0x7D].all fun character => decide
          (character ∉ kind ∧ character ∉ "__uboot_tftp_".toList ∧ character.isDigit = false)) =
            true := by decide +kernel
    obtain ⟨absent, front, other⟩ := of_decide_eq_true
      (List.all_eq_true.mp (List.all_eq_true.mp foreign kind known) character special)
    exact tmp_without kind number character absent front other
  have wider : [' ', ';', '\n', '"', '\\'] ⊆
      [' ', ';', '\n', '"', '\\', '$', ':', Char.ofNat 0x7D] := by simp
  exact ⟨⟨kind ++ '_' :: Text.decimal number, (List.append_assoc _ _ _).symm⟩,
    ⟨fun same => List.cons_ne_nil _ _ (List.append_eq_nil_iff.mp same).2,
      fun character member special => without character (wider special) member,
      without '$' (by decide)⟩, without ':' (by decide), without _ (by decide)⟩

end Constants

section Commands

/-- A last word without a colon is no name of a session. -/
theorem asks_none (words : List Text) (last : Text) (colonless : ':' ∉ last) :
    asksSession (words ++ [last]) = false := by
  rw [asksSession, List.getLast?_concat, Option.getD_some, Bool.eq_false_iff]
  intro asks
  obtain ⟨suffix, inside, begins⟩ := List.any_eq_true.mp asks
  have member : ':' ∈ suffix := (List.isPrefixOf_iff_prefix.mp begins).subset (by decide)
  exact colonless (((List.mem_tails suffix last).mp inside).subset member)

variable {hardware : Hardware} {board : Board}

/-- A board that does not wait carries out a command that it knows. -/
theorem exec_known (idle : board.waiting = none) (words : List Text) (command : BoardCommand)
    (read : readCommand (board.expandWords words) = some command) :
    Board.execWords hardware words board = command.exec hardware board := by
  have unbound : ¬board.waiting.isSome = true := by simp [idle]
  rw [Board.execWords, if_neg unbound, read]

/-- `setexpr` with a sum. -/
theorem read_sum (name left right : Text) (first second : Nat)
    (begins : boardNumber left = some first) (ends : boardNumber right = some second) :
    readCommand ["setexpr".toList, name, left, ['+'], right] = some (.sum name first second) := by
  have silent := asks_none [name, left, ['+']] right (board_number_colon right second ends)
  simp only [List.cons_append, List.nil_append] at silent
  rw [readCommand, if_neg (by decide), silent, if_neg (by decide), if_neg (by decide),
    if_neg (by decide), if_pos rfl]
  simp [readSum, begins, ends]

/-- `setenv` without a value. -/
theorem read_clear (name : Text) (colonless : ':' ∉ name) :
    readCommand ["setenv".toList, name] = some (.clearVariable name) := by
  have silent := asks_none [] name colonless
  rw [List.nil_append] at silent
  rw [readCommand, if_neg (by decide), silent, if_neg (by decide), if_neg (by decide), if_pos rfl]
  rfl

/-- `mw.b`. -/
theorem read_fill (address value count : Text) (at_ fills many : Nat)
    (begins : boardNumber address = some at_) (filled : boardNumber value = some fills)
    (ends : boardNumber count = some many) :
    readCommand ["mw.b".toList, address, value, count] = some (.fill at_ fills many) := by
  have silent := asks_none [address, value] count (board_number_colon count many ends)
  simp only [List.cons_append, List.nil_append] at silent
  rw [readCommand, if_neg (by decide), silent, if_neg (by decide), if_neg (by decide),
    if_neg (by decide), if_neg (by decide), if_pos rfl]
  simp [readRange, begins, filled, ends]

/-- `cp.b`. -/
theorem read_copy (source target count : Text) (from_ to_ many : Nat)
    (begins : boardNumber source = some from_) (goes : boardNumber target = some to_)
    (ends : boardNumber count = some many) :
    readCommand ["cp.b".toList, source, target, count] = some (.copy from_ to_ many) := by
  have silent := asks_none [source, target] count (board_number_colon count many ends)
  simp only [List.cons_append, List.nil_append] at silent
  rw [readCommand, if_neg (by decide), silent, if_neg (by decide), if_neg (by decide),
    if_neg (by decide), if_neg (by decide), if_neg (by decide), if_pos rfl]
  simp [readRange, begins, goes, ends]

/-- `sf probe`. -/
theorem read_probe : readCommand ["sf".toList, "probe".toList, "0".toList] = some .probe := rfl

/-- `sf erase`. -/
theorem read_erase (offset size : Text) (place many : Nat) (begins : boardNumber offset = some place)
    (ends : boardNumber size = some many) :
    readCommand ["sf".toList, "erase".toList, offset, size] = some (.flashErase place many) := by
  have silent := asks_none ["erase".toList, offset] size (board_number_colon size many ends)
  simp only [List.cons_append, List.nil_append] at silent
  rw [readCommand, if_neg (by decide), silent, if_neg (by decide), if_pos rfl]
  simp [readFlashCommand, begins, ends]

/-- `sf read` and `sf write`. The two differ in the verb only. -/
theorem read_move (address offset size : Text) (at_ place many : Nat)
    (starts : boardNumber address = some at_) (begins : boardNumber offset = some place)
    (ends : boardNumber size = some many) :
    readCommand ["sf".toList, "read".toList, address, offset, size] =
        some (.flashRead at_ place many) ∧
      readCommand ["sf".toList, "write".toList, address, offset, size] =
        some (.flashWrite at_ place many) := by
  have silent (verb : Text) := asks_none [verb, address, offset] size
    (board_number_colon size many ends)
  simp only [List.cons_append, List.nil_append] at silent
  constructor
  · rw [readCommand, if_neg (by decide), silent, if_neg (by decide), if_pos rfl]
    simp [readFlashCommand, starts, begins, ends]
  · rw [readCommand, if_neg (by decide), silent, if_neg (by decide), if_pos rfl]
    simp [readFlashCommand, starts, begins, ends]

/-- `tftpboot` of a file. -/
theorem read_fetch (address source : Text) (at_ : Nat) (begins : boardNumber address = some at_)
    (file : Sequences.occurs ":id=".toList source = false) :
    readCommand ["tftpboot".toList, address, source] = some (.fetch at_ source) := by
  have silent : asksSession [address, source] = false := file
  rw [readCommand, if_neg (by decide), silent, if_neg (by decide), if_neg (by decide),
    if_neg (by decide), if_neg (by decide), if_neg (by decide), if_neg (by decide), if_pos rfl]
  simp [readFetch, begins]

/-- `echo`. -/
theorem read_echo (words : List Text) : readCommand ("echo".toList :: words) = some .succeed := by
  rw [readCommand, if_pos (.inl rfl)]

end Commands

end UbootTftp
