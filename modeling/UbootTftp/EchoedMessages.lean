import UbootTftp.QuotedWords
import UbootTftp.Terminal

/-!
# Messages that are echoed

A message is put into double quotes behind `echo`, with a backslash before each of its own
double quotes. Backslashes of the message are left as they are, so one that stands before a
double quote makes the added one literal, and the message ends there.
-/

namespace UbootTftp

open QuotedWords (closing escaped trailing EvenBefore)

/-- The text that `uboot_msg` echoes. -/
def messageText (msg : Text) (color : ColorName) (bold newline : Bool) : Text :=
  restoreCursor ++ clearRegion ++ style color bold ++ msg ++ restoreStyle ++
    (if newline then [] else "\\c".toList)

/-- The commands of `uboot_nomatch`, given the text of its list of commands. The id and the command
stand in them as they came, between texts that are fixed. -/
def ubootNomatch (ident cmd cmdList : Text) : List Text :=
  [ubootErr ("uboot-tftp: No matching entry for: id=".toList ++ ident),
    ubootErr ("uboot-tftp: cmd=".toList ++ cmd ++ " is not recognized.".toList),
    ubootMsg ("uboot-tftp: valid cmds = ".toList ++ cmdList) .green false true,
    ubootMsg "Add snippet to uboot-tftp config.toml:".toList .yellow false true,
    ubootMsg ('[' :: ident ++ [']']) .yellow false true,
    ubootMsg "function=<python function name>".toList .yellow false true,
    ubootMsg [] .green false true]

/-- Read from its opening quote, a text ends with the first double quote that no backslash makes
literal. Nothing of the text is left behind the word. -/
def IsOneWord (text : Text) : Prop :=
  ∃ body, text = '"' :: body ∧ closing '\\' '"' body = some []

/-- The commands of a message are two `echo` commands. -/
theorem message_commands (msg : Text) (color : ColorName) (bold newline : Bool) :
    ubootMsg msg color bold newline =
      "echo ".toList ++ quote (messageText msg color bold newline) ++ "; ".toList ++
        echo saveCursor := rfl

/-- What follows a single word is not part of it. -/
theorem one_word_followed (text tail : Text) (word : IsOneWord text) :
    ∃ body, text ++ tail = '"' :: body ∧ closing '\\' '"' body = some tail := by
  obtain ⟨body, rfl, closed⟩ := word
  exact ⟨body ++ tail, rfl, QuotedWords.closing_append body [] tail closed⟩

/-- A quoted text is one word exactly if the backslashes before its double quotes, and those at
its end, come in even numbers. -/
theorem quoted_word_iff (value : Text) :
    IsOneWord (quote value) ↔ EvenBefore '\\' '"' value ∧ Even (trailing '\\' value) := by
  have body : quote value = '"' :: (escaped '\\' '"' value ++ ['"']) := rfl
  rw [← QuotedWords.escaped_closed_iff value (by decide)]
  constructor
  · rintro ⟨rest, same, closed⟩
    rw [body, List.cons.injEq] at same
    rw [same.2]
    exact closed
  · intro closed
    exact ⟨_, body, closed⟩

/-- What stands before a message has neither backslashes nor double quotes. -/
theorem message_front (color : ColorName) (bold : Bool) :
    '\\' ∉ restoreCursor ++ clearRegion ++ style color bold ∧
      '"' ∉ restoreCursor ++ clearRegion ++ style color bold := by
  cases color <;> cases bold <;> decide

/-- The end of a text decides about the backslashes there, unless it consists of them. -/
theorem trailing_stop (front back : Text) (last : Char) (other : last ≠ '\\')
    (stops : back.getLast? = some last) : trailing '\\' (front ++ back) = 0 := by
  obtain ⟨before, rfl⟩ := List.getLast?_eq_some_iff.mp stops
  rw [← List.append_assoc]
  exact QuotedWords.trailing_other _ last other

/-- A message is one word exactly if the backslashes before its double quotes come in even
numbers. An escape sequence follows it, so those at its end do not count. -/
theorem message_word_iff (msg : Text) (color : ColorName) (bold newline : Bool) :
    IsOneWord (quote (messageText msg color bold newline)) ↔ EvenBefore '\\' '"' msg := by
  obtain ⟨frontEscape, frontPlain⟩ := message_front color bold
  have grouped : messageText msg color bold newline =
      (restoreCursor ++ clearRegion ++ style color bold) ++ msg ++
        (restoreStyle ++ (if newline then [] else "\\c".toList)) := by
    simp only [messageText, List.append_assoc]
  have backPlain : '"' ∉ restoreStyle ++ (if newline then [] else "\\c".toList) := by
    cases newline <;> decide
  have ending : Even (trailing '\\' (messageText msg color bold newline)) := by
    rw [grouped]
    cases newline with
    | false => rw [trailing_stop _ _ 'c' (by decide) (by decide)]; exact Even.zero
    | true => rw [trailing_stop _ _ 'm' (by decide) (by decide)]; exact Even.zero
  rw [quoted_word_iff, and_iff_left ending, grouped]
  exact QuotedWords.even_before_middle _ msg _ frontPlain frontEscape backPlain

/-- A text and the message of it are quoted as single words exactly if the backslashes before the
double quotes of the text come in even numbers; for the text alone, so must those at its end.

The color, the weight and the end of the line do not matter. Proof: what a message puts around the
text has neither quotes nor, in front, backslashes. -/
theorem echoed_word_iff (text : Text) (color : ColorName) (bold newline : Bool) :
    (IsOneWord (quote text) ↔ EvenBefore '\\' '"' text ∧ Even (trailing '\\' text)) ∧
      (IsOneWord (quote (messageText text color bold newline)) ↔ EvenBefore '\\' '"' text) :=
  ⟨quoted_word_iff text, message_word_iff text color bold newline⟩

/-- What a command echoes first is one word. -/
def EchoesOneWord (command : Text) : Prop :=
  ∃ word, command = "echo ".toList ++ word ++ "; ".toList ++ echo saveCursor ∧ IsOneWord word

/-- The first word of a message command is that of its message. The color and the style around the
message hold no quote and no backslash that would matter. -/
theorem echoes_message_iff (msg : Text) (color : ColorName) (bold newline : Bool) :
    EchoesOneWord (ubootMsg msg color bold newline) ↔ EvenBefore '\\' '"' msg := by
  rw [← message_word_iff msg color bold newline]
  constructor
  · rintro ⟨word, same, single⟩
    rw [message_commands] at same
    have words := List.append_cancel_left (List.append_cancel_right (List.append_cancel_right same))
    rw [words]
    exact single
  · intro single
    exact ⟨_, message_commands msg color bold newline, single⟩

/-- Text around a part of a message, without double quotes and without backslashes in front. -/
theorem echoes_part_iff (front part back : Text) (color : ColorName) (bold newline : Bool)
    (frontPlain : '"' ∉ front) (frontEscape : '\\' ∉ front) (backPlain : '"' ∉ back) :
    EchoesOneWord (ubootMsg (front ++ part ++ back) color bold newline) ↔
      EvenBefore '\\' '"' part := by
  rw [echoes_message_iff]
  exact QuotedWords.even_before_middle front part back frontPlain frontEscape backPlain

/-- Text without double quotes has nothing before them. -/
theorem even_before_plain (text : Text) (plain : '"' ∉ text) : EvenBefore '\\' '"' text := by
  rintro before after rfl
  exact absurd (by simp) plain

/-- For a client id and a list of commands without double quotes, the messages about a command
that is not known are single words exactly if that command has an even number of backslashes
before each of its double quotes. -/
theorem nomatch_words_iff (ident cmd cmdList : Text) (identPlain : '"' ∉ ident)
    (listPlain : '"' ∉ cmdList) :
    (∀ line ∈ ubootNomatch ident cmd cmdList, EchoesOneWord line) ↔ EvenBefore '\\' '"' cmd := by
  have plain (msg : Text) (color : ColorName) (bold : Bool) (free : '"' ∉ msg) :
      EchoesOneWord (ubootMsg msg color bold true) :=
    (echoes_message_iff msg color bold true).mpr (even_before_plain msg free)
  have line := echoes_part_iff "uboot-tftp: cmd=".toList cmd " is not recognized.".toList .red true
    true (by decide) (by decide) (by decide)
  rw [← line]
  constructor
  · intro each
    exact each _ (by simp [ubootNomatch, ubootErr])
  · intro single line member
    simp only [ubootNomatch, ubootErr, List.mem_cons, List.not_mem_nil, or_false] at member
    rcases member with rfl | rfl | rfl | rfl | rfl | rfl | rfl
    · exact plain _ _ _ (by simp [identPlain])
    · exact single
    · exact plain _ _ _ (by simp [listPlain])
    · exact plain _ _ _ (by decide)
    · exact plain _ _ _ (by simp [identPlain])
    · exact plain _ _ _ (by decide)
    · exact plain _ _ _ (by decide)

/-- The command `\"; reset; \"` of a request closes the quotes of the message about it, and what
follows it would run. -/
theorem message_escapes :
    ¬IsOneWord (quote (messageText "uboot-tftp: cmd=\\\"; reset; \\\" is not recognized.".toList
        .red true true)) ∧
      ∃ body before, quote (messageText
          "uboot-tftp: cmd=\\\"; reset; \\\" is not recognized.".toList .red true true) = '"' :: body ∧
        body = before ++ '"' :: "; reset; ".toList ++ "\\\\\" is not recognized.\x1b[0m\"".toList ∧
        closing '\\' '"' body =
          some ("; reset; ".toList ++ "\\\\\" is not recognized.\x1b[0m\"".toList) := by
  have reads : closing '\\' '"' (escaped '\\' '"' (messageText
      "uboot-tftp: cmd=\\\"; reset; \\\" is not recognized.".toList .red true true) ++ ['"']) =
        some ("; reset; ".toList ++ "\\\\\" is not recognized.\x1b[0m\"".toList) := by
    decide
  constructor
  · rintro ⟨body, same, closed⟩
    obtain rfl := (List.cons.inj same).2
    have both := reads.symm.trans closed
    cases both
  · exact ⟨_, "\x1b8\x1b[J\x1b[1;31muboot-tftp: cmd=\\\\".toList, rfl, by decide, reads⟩

end UbootTftp
