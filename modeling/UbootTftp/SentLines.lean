import UbootTftp.SimulatedFlows
import UbootTftp.SnippetMeanings

/-!
# How a board reads what is added to scripts

To the lines of a handler the server adds the command that fetches the next script, or the one
that reads out memory with a command for each outcome. They are conditionals, in which the
values of the requested variables are put into the name that is asked for. Lines that are joined
never end with a space, so that nothing is stripped from them.
-/

namespace UbootTftp

open ConditionalScripts (Line)
open QuotedSplits (Solid)
open TestClient (Word PlainSession isCommandChar)

universe u
variable {κ : Type u}

section Ends

/-- A text that does not end with a space. The server strips the end of a script, which would
otherwise change the last line. -/
def Firm (text : Text) : Prop := ∀ last, text.getLast? = some last → Text.isSpace last = false

/-- There is nothing to strip. -/
theorem Firm.stripped {text : Text} (firm : Firm text) : Text.rstrip text = text := by
  rw [Text.rstrip, List.rdropWhile_eq_self_iff]
  intro present
  rw [firm _ (List.getLast?_eq_some_getLast present)]
  exact Bool.false_ne_true

/-- What is stripped ends so. -/
theorem firm_stripped (text : Text) : Firm (Text.rstrip text) := by
  intro last ends
  have present : Text.rstrip text ≠ [] := by
    intro empty
    rw [empty] at ends
    cases ends
  have kept := List.rdropWhile_last_not Text.isSpace text present
  rw [List.getLast?_eq_some_getLast present, Option.some.injEq] at ends
  rw [← ends]
  exact Bool.eq_false_iff.mpr kept

/-- It gets a newline. -/
theorem Firm.ensured {text : Text} (firm : Firm text) : ensureNewline text = text ++ ['\n'] := by
  refine if_neg fun ends => ?_
  exact absurd (firm '\n' ends) (by decide)

/-- Behind any text. -/
theorem Firm.behind (front : Text) {back : Text} (firm : Firm back) (present : back ≠ []) :
    Firm (front ++ back) := by
  intro last ends
  rw [List.getLast?_append_of_ne_nil _ present] at ends
  exact firm last ends

/-- Joined lines end as one of them.

Proof: by induction on the lines that are not empty, from the front; the last one ends the text. -/
theorem Firm.joined (lines : List Text) (each : ∀ line ∈ lines, Firm line) :
    Firm (Text.joinLines lines) := by
  have kept : ∀ line ∈ lines.filter (fun line => decide (line ≠ [])), Firm line ∧ line ≠ [] :=
    fun line member => ⟨each line (List.mem_of_mem_filter member),
      of_decide_eq_true (List.mem_filter.mp member).2⟩
  rw [Text.joinLines]
  generalize lines.filter (fun line => decide (line ≠ [])) = present at kept
  induction present with
  | nil => intro last ends; simp at ends
  | cons line present inductionHypothesis =>
    obtain ⟨firm, full⟩ := kept line (by simp)
    cases present with
    | nil =>
      rw [List.intercalate_singleton]
      exact firm
    | cons other present =>
      have later := inductionHypothesis fun line member => kept line (by simp [member])
      rw [List.intercalate_cons_cons]
      refine later.behind _ ?_
      have full := (kept other (by simp)).2
      cases present with
      | nil => simpa using full
      | cons third present => simp [List.intercalate_cons_cons, full]

/-- The last line is the end of the joined ones. -/
theorem Firm.ended (lines : List Text) {last : Text} (firm : Firm last) (present : last ≠ []) :
    Firm (Text.joinLines (lines ++ [last])) := by
  have kept : [last].filter (fun line => decide (line ≠ [])) = [last] :=
    List.filter_cons_of_pos (decide_eq_true present)
  have suffix : last <:+ Text.joinLines (lines ++ [last]) := by
    rw [Text.joinLines, List.filter_append, kept]
    exact Sequences.joined_suffix ['\n'] _ _
  obtain ⟨front, shape⟩ := suffix
  rw [← shape]
  exact firm.behind front present

/-- The last line of a snippet is its end. The lines before it do not matter, as the lines are
joined with line breaks. -/
theorem Firm.snippet (lines : List Text) {last : Text} (firm : Firm last) (present : last ≠ []) :
    Firm (UbootTftp.snippet (lines ++ [last])) ∧ UbootTftp.snippet (lines ++ [last]) ≠ [] := by
  induction lines with
  | nil =>
    rw [UbootTftp.snippet, List.nil_append, List.intercalate_singleton]
    exact ⟨firm, present⟩
  | cons line lines inductionHypothesis =>
    obtain ⟨ends, full⟩ := inductionHypothesis
    have shape : UbootTftp.snippet (line :: lines ++ [last]) =
        line ++ ['\n'] ++ UbootTftp.snippet (lines ++ [last]) := by
      cases lines <;> simp [UbootTftp.snippet, List.intercalate_cons_cons]
    rw [shape]
    exact ⟨ends.behind _ full, List.append_ne_nil_of_right_ne_nil _ full⟩

/-- A text without spaces. -/
theorem firm_solid (text : Text) (solid : ∀ character ∈ text, Text.isSpace character = false) :
    Firm text := fun last ends => solid last (List.mem_of_getLast? ends)

/-- The name of a temporary variable ends with a digit. -/
theorem firm_tmp (front kind : Text) (number : Nat) : Firm (front ++ nextTmp kind number) := by
  have digits : ∀ character ∈ '_' :: Text.decimal number, Text.isSpace character = false := by
    refine List.forall_mem_cons.mpr ⟨by decide, fun character member => ?_⟩
    have digit := Nat.isDigit_of_mem_toDigits (b := 10) (by omega) (by omega) member
    exact TestClient.command_char_solid character
      (by simp [TestClient.isCommandChar, Char.isAlphanum, digit])
  have shape : front ++ nextTmp kind number =
      (front ++ ("__uboot_tftp_".toList ++ kind)) ++ '_' :: Text.decimal number :=
    (List.append_assoc _ _ _).symm
  rw [shape]
  exact (firm_solid _ digits).behind _ (List.cons_ne_nil _ _)

/-- A number ends with a digit. -/
theorem firm_number (front : Text) (number : Nat) : Firm (front ++ Text.hex number) := by
  have solid : ∀ character ∈ Text.hex number, Text.isSpace character = false :=
    Text.hex_characters (fun character => Text.isSpace character = false) (by decide) (by decide)
      (by decide) number
  exact (firm_solid _ solid).behind _ (by simp [Text.hex])

/-- A number behind a line. -/
theorem firm_hex (front : Text) (number : Nat) : Firm (front ++ ' ' :: Text.hex number) := by
  rw [← List.singleton_append, ← List.append_assoc]
  exact firm_number _ number

/-- A quote is no space. -/
theorem firm_quote (front : Text) : Firm (front ++ ['"']) :=
  (firm_solid ['"'] (by simp; decide)).behind front (by simp)

/-- No snippet ends with a space. There is a case for each operation, and the last word of its
snippet is a number, a name or a closed quote. -/
theorem Operation.firm (rambase serverIp : Text) (drawn : Nat × Nat) (operation : Operation) :
    Firm (operation.script rambase serverIp drawn) := by
  cases operation with
  | message msg color bold newline =>
    have last : echo saveCursor = ("echo ".toList ++ '"' :: saveCursor) ++ ['"'] := by
      decide +kernel
    rw [script, message_commands, last, ← List.append_assoc]
    exact firm_quote _
  | memset offset value size base =>
    exact ((firm_tmp _ _ _).snippet [_, _] (by simp)).1
  | memcpy dstOffset srcOffset size base =>
    exact ((firm_tmp _ _ _).snippet [_, _, _, _] (by simp)).1
  | norErase offset size => exact ((firm_hex _ size).snippet [_] (by simp)).1
  | norRead ramOffset norOffset size base =>
    exact ((firm_tmp _ _ _).snippet [_, _, _] (by simp)).1
  | norWrite norOffset ramOffset size base =>
    exact ((firm_tmp _ _ _).snippet [_, _, _] (by simp)).1
  | fetchStatic filename offset body base =>
    cases offset with
    | none => exact firm_quote _
    | some offset => exact ((firm_tmp _ _ _).snippet [_, _] (by simp)).1

end Ends

section Pieces

/-- A text is read as lines, whatever ends it: a semicolon or a newline. It is what the commands
inside of a line have in common with whole lines. -/
def ReadsLines (text : Text) (lines : List (Line (List Text) Unit)) : Prop :=
  ∀ separator, endsCommand separator = true → ∀ rest,
    scriptLines (text ++ separator :: rest) = lines ++ scriptLines rest

/-- A solid text is one piece. -/
theorem ReadsLines.piece (text : Text) (solid : Solid '\\' '"' endsCommand text) :
    ReadsLines text (readPiece text) := by
  intro separator ends rest
  rw [scriptLines, QuotedSplits.cut_before solid separator ends, List.flatMap_cons]
  rfl

/-- Texts one behind the other. -/
theorem ReadsLines.behind {front back : Text} {first second : List (Line (List Text) Unit)}
    (begins : ReadsLines front first) (ends : ReadsLines back second) (separator : Char)
    (separating : endsCommand separator = true) :
    ReadsLines (front ++ separator :: back) (first ++ second) := by
  intro other otherEnds rest
  rw [List.append_assoc, List.cons_append, begins separator separating, ends other otherEnds,
    List.append_assoc]

/-- A line of words, behind any blanks. What the words mean is a parameter, as the first one may
begin a part of a conditional. -/
theorem ReadsLines.line (blanks : Nat) (words : List Text) (each : ∀ word ∈ words, RawWord word)
    (lines : List (Line (List Text) Unit))
    (means : ∀ piece, wordsOf piece = words → readPiece piece = lines) :
    ReadsLines (List.replicate blanks ' ' ++ List.intercalate [' '] words) lines := by
  have solid : Solid '\\' '"' endsCommand
      (List.replicate blanks ' ' ++ List.intercalate [' '] words) := by
    refine Solid.append (QuotedSplits.solid_plain _ fun character member => ?_)
      (Solid.joined ' ' (by decide) (by decide) (by decide) _ fun word member =>
        (each word member).kept)
    rw [List.eq_of_mem_replicate member]
    decide
  have same : wordsOf (List.replicate blanks ' ' ++ List.intercalate [' '] words) = words := by
    clear solid
    induction blanks with
    | zero => exact words_of_line words each
    | succ blanks inductionHypothesis =>
      rw [List.replicate_succ, List.cons_append, words_behind_blank]
      exact inductionHypothesis
  rw [← means _ same]
  exact .piece _ solid

/-- The test of a conditional. -/
theorem read_if (words : List Text) (piece : Text) (shape : wordsOf piece = "if".toList :: words) :
    readPiece piece = [.command words, .begin ()] := by
  simp only [readPiece, shape, if_true]

/-- Its first branch. -/
theorem read_then (words : List Text) (present : words ≠ []) (piece : Text)
    (shape : wordsOf piece = "then".toList :: words) : readPiece piece = [.command words] := by
  have other : "then".toList ≠ "if".toList := by decide
  simp only [readPiece, shape, if_neg other, if_true, commandLine, if_neg present]

/-- Its other branch. -/
theorem read_else (words : List Text) (present : words ≠ []) (piece : Text)
    (shape : wordsOf piece = "else".toList :: words) :
    readPiece piece = [.otherwise, .command words] := by
  have noIf : "else".toList ≠ "if".toList := by decide
  have noThen : "else".toList ≠ "then".toList := by decide
  simp only [readPiece, shape, if_neg noIf, if_neg noThen, if_true, commandLine, if_neg present]

/-- Its end. -/
theorem read_fi (piece : Text) (shape : wordsOf piece = ["fi".toList]) :
    readPiece piece = [.close] := by
  have noIf : "fi".toList ≠ "if".toList := by decide
  have noThen : "fi".toList ≠ "then".toList := by decide
  have noElse : "fi".toList ≠ "else".toList := by decide
  simp only [readPiece, shape, if_neg noIf, if_neg noThen, if_neg noElse, if_true]

end Pieces

section Continuations

/-- The words that ask the server for a name. -/
def requestWords (command address serverIp path : Text) : List Text :=
  [command, expansion address, '"' :: (serverIp ++ ':' :: path) ++ ['"']]

/-- The lines of a continuation. -/
def continueLines (cmdtftp rambase serverIp path : Text) : List (Line (List Text) Unit) :=
  [.command (requestWords cmdtftp rambase serverIp path), .begin (),
    .command ["source".toList, expansion rambase], .otherwise,
    .command ["echo".toList, quote "uboot-tftp: continuation RRQ failed".toList], .close]

/-- A word of a command stands for itself. -/
theorem word_constant {command : Text} (word : Word command) : Constant command := by
  refine ⟨word.1, fun character member special => ?_, word.foreign '$' (by decide)⟩
  simp only [List.mem_cons, List.not_mem_nil, or_false] at special
  rcases special with rfl | rfl | rfl | rfl | rfl
  · exact word.foreign ' ' (by decide) member
  · exact word.foreign ';' (by decide) member
  · exact word.foreign '\n' (by decide) member
  · exact word.foreign '"' (by decide) member
  · exact word.foreign '\\' (by decide) member

/-- The words of a request are read as they are. -/
theorem request_raw (command address serverIp path : Text) (word : Word command)
    (loose : Loose address) (unquoted : '"' ∉ serverIp ++ ':' :: path)
    (unescaped : '\\' ∉ serverIp ++ ':' :: path) :
    ∀ word ∈ requestWords command address serverIp path, RawWord word := by
  simp only [requestWords, List.forall_mem_cons, List.not_mem_nil, false_imp_iff, implies_true,
    and_true]
  exact ⟨(word_constant word).raw, raw_expansion address loose, .verbatim _ unquoted unescaped⟩

/-- A continuation is four lines behind any blanks. Both sides have the same characters; the right
one is grouped into lines and words as a shell groups them. -/
theorem continuation_shape (blanks : Nat) (cmdtftp rambase serverIp path : Text) :
    List.replicate blanks ' ' ++ ("if ".toList ++ cmdtftp ++ ' ' :: expansion rambase ++
        " \"".toList ++ serverIp ++ ':' :: path ++ "\"; then source ".toList ++ expansion rambase ++
        "; else echo \"uboot-tftp: continuation RRQ failed\"; fi".toList) =
      (List.replicate blanks ' ' ++ List.intercalate [' ']
        ("if".toList :: requestWords cmdtftp rambase serverIp path)) ++ ';' ::
      ((List.replicate 1 ' ' ++ List.intercalate [' ']
        ["then".toList, "source".toList, expansion rambase]) ++ ';' ::
      ((List.replicate 1 ' ' ++ List.intercalate [' ']
        ["else".toList, "echo".toList, quote "uboot-tftp: continuation RRQ failed".toList]) ++
          ';' :: (List.replicate 1 ' ' ++ List.intercalate [' '] ["fi".toList]))) := by
  have first : "if ".toList = "if".toList ++ [' '] := rfl
  have opening : " \"".toList = [' ', '"'] := rfl
  have second : "\"; then source ".toList =
      ['"', ';', ' '] ++ "then".toList ++ [' '] ++ "source".toList ++ [' '] := rfl
  have third : "; else echo \"uboot-tftp: continuation RRQ failed\"; fi".toList =
      [';', ' '] ++ "else".toList ++ [' '] ++ "echo".toList ++ [' '] ++
        quote "uboot-tftp: continuation RRQ failed".toList ++ [';', ' '] ++ "fi".toList := by
    decide +kernel
  rw [first, opening, second, third]
  generalize "if".toList = first, "then".toList = second, "source".toList = command,
    "else".toList = third, "echo".toList = verb, "fi".toList = last,
    quote "uboot-tftp: continuation RRQ failed".toList = warning
  simp [requestWords, List.intercalate_cons_cons]

/-- It is read as a conditional request. What is asked of its texts is that they neither close the
quotes nor escape anything in them. -/
theorem continuation_read (blanks : Nat) (cmdtftp rambase serverIp path : Text)
    (word : Word cmdtftp) (loose : Loose rambase) (unquoted : '"' ∉ serverIp ++ ':' :: path)
    (unescaped : '\\' ∉ serverIp ++ ':' :: path) :
    ReadsLines (List.replicate blanks ' ' ++ ("if ".toList ++ cmdtftp ++ ' ' :: expansion rambase ++
        " \"".toList ++ serverIp ++ ':' :: path ++ "\"; then source ".toList ++ expansion rambase ++
        "; else echo \"uboot-tftp: continuation RRQ failed\"; fi".toList))
      (continueLines cmdtftp rambase serverIp path) := by
  have address := raw_expansion rambase loose
  have asked : ∀ word ∈ "if".toList :: requestWords cmdtftp rambase serverIp path, RawWord word :=
    List.forall_mem_cons.mpr ⟨.plain _ (by decide) (by decide),
      request_raw cmdtftp rambase serverIp path word loose unquoted unescaped⟩
  have taken : ∀ word ∈ ["then".toList, "source".toList, expansion rambase], RawWord word := by
    simp only [List.forall_mem_cons, List.not_mem_nil, false_imp_iff, implies_true, and_true]
    exact ⟨.plain _ (by decide) (by decide), .plain _ (by decide) (by decide), address⟩
  have refused : ∀ word ∈ ["else".toList, "echo".toList,
      quote "uboot-tftp: continuation RRQ failed".toList], RawWord word := by
    simp only [List.forall_mem_cons, List.not_mem_nil, false_imp_iff, implies_true, and_true]
    exact ⟨.plain _ (by decide) (by decide), .plain _ (by decide) (by decide),
      .quoted _ ((quoted_word_iff _).mpr ⟨even_before_plain _ (by decide +kernel),
        by decide +kernel⟩)⟩
  have closes : ∀ word ∈ ["fi".toList], RawWord word :=
    List.forall_mem_singleton.mpr (.plain _ (by decide) (by decide))
  rw [continuation_shape]
  exact (ReadsLines.line blanks _ asked _ (read_if _)).behind
    ((ReadsLines.line 1 _ taken _ (read_then _ (by simp))).behind
      ((ReadsLines.line 1 _ refused _ (read_else _ (by simp))).behind
        (ReadsLines.line 1 _ closes _ read_fi) ';' rfl) ';' rfl) ';' rfl

/-- The words that read out memory. -/
def sendWords (command address serverIp path : Text) (size : Nat) : List Text :=
  [command, expansion address, Text.hex size, '"' :: (serverIp ++ ':' :: path) ++ ['"']]

/-- The lines that read out memory and go on with the outcome. -/
def receiveLines (cmdtftp cmdtftpput rambase address serverIp upload success failure : Text)
    (size : Nat) : List (Line (List Text) Unit) :=
  [.command (sendWords cmdtftpput address serverIp upload size), .begin ()] ++
    (continueLines cmdtftp rambase serverIp success ++
      ([.otherwise] ++ (continueLines cmdtftp rambase serverIp failure ++ [.close])))

/-- Reading out is six lines around two continuations. Both sides have the same characters, and the
two continuations are indented by four blanks. -/
theorem receive_shape (cmdtftpput address serverIp path success failure : Text) (size : Nat) :
    "if ".toList ++ cmdtftpput ++ ' ' :: expansion address ++ ' ' :: Text.hex size ++
        " \"".toList ++ serverIp ++ ':' :: path ++ "\";\nthen\n    ".toList ++ success ++
        "\nelse\n    ".toList ++ failure ++ "\nfi".toList =
      (List.replicate 0 ' ' ++ List.intercalate [' ']
        ("if".toList :: sendWords cmdtftpput address serverIp path size)) ++ ';' :: ([] ++ '\n' ::
        ("then".toList ++ '\n' :: ((List.replicate 4 ' ' ++ success) ++ '\n' ::
          ("else".toList ++ '\n' :: ((List.replicate 4 ' ' ++ failure) ++ '\n' ::
            "fi".toList))))) := by
  have first : "if ".toList = "if".toList ++ [' '] := rfl
  have opening : " \"".toList = [' ', '"'] := rfl
  have second : "\";\nthen\n    ".toList =
      ['"', ';', '\n'] ++ "then".toList ++ '\n' :: List.replicate 4 ' ' := by decide +kernel
  have third : "\nelse\n    ".toList = ['\n'] ++ "else".toList ++ '\n' :: List.replicate 4 ' ' := by
    decide +kernel
  have last : "\nfi".toList = '\n' :: "fi".toList := rfl
  rw [first, opening, second, third, last]
  generalize "if".toList = first, "then".toList = second, "else".toList = third,
    "fi".toList = last, List.replicate 4 ' ' = blanks
  simp [sendWords, List.intercalate_cons_cons]

/-- It is read as a conditional with a continuation in each branch. The continuations are read on
their own and put into its branches. -/
theorem receive_read (cmdtftp cmdtftpput rambase address serverIp upload success failure : Text)
    (size : Nat) (first second : Text) (word : Word cmdtftpput) (loose : Loose address)
    (unquoted : '"' ∉ serverIp ++ ':' :: upload) (unescaped : '\\' ∉ serverIp ++ ':' :: upload)
    (begins : ReadsLines (List.replicate 4 ' ' ++ first)
      (continueLines cmdtftp rambase serverIp success))
    (ends : ReadsLines (List.replicate 4 ' ' ++ second)
      (continueLines cmdtftp rambase serverIp failure)) :
    ReadsLines ("if ".toList ++ cmdtftpput ++ ' ' :: expansion address ++ ' ' :: Text.hex size ++
        " \"".toList ++ serverIp ++ ':' :: upload ++ "\";\nthen\n    ".toList ++ first ++
        "\nelse\n    ".toList ++ second ++ "\nfi".toList)
      (receiveLines cmdtftp cmdtftpput rambase address serverIp upload success failure size) := by
  have asked : ∀ word ∈ "if".toList :: sendWords cmdtftpput address serverIp upload size,
      RawWord word := by
    have others := request_raw cmdtftpput address serverIp upload word loose unquoted unescaped
    simp only [requestWords, List.forall_mem_cons] at others
    simp only [sendWords, List.forall_mem_cons]
    exact ⟨.plain _ (by decide) (by decide), others.1, others.2.1, (constant_hex size).raw,
      others.2.2⟩
  have alone (keyword : Text) (present : keyword ≠ []) (loose : Loose keyword) :
      ReadsLines keyword (readPiece keyword) := .piece _ (RawWord.plain keyword present loose).kept
  rw [receive_shape]
  exact (ReadsLines.line 0 _ asked _ (read_if _)).behind
    ((ReadsLines.piece [] QuotedSplits.solid_nil).behind
      ((alone _ (by decide) (by decide)).behind (begins.behind
        ((alone _ (by decide) (by decide)).behind (ends.behind
          (alone _ (by decide) (by decide)) '\n' rfl) '\n' rfl) '\n' rfl) '\n' rfl) '\n' rfl) ';' rfl

end Continuations

section Expansions

variable (lookup : Text → Option Text) (status : Nat)

/-- Text without variables in front. -/
theorem expand_front (text rest : Text) (constant : '$' ∉ text) :
    expandFrom lookup status .text (text ++ rest) = text ++ expandFrom lookup status .text rest := by
  induction text with
  | nil => rfl
  | cons character text inductionHypothesis =>
    simp only [List.mem_cons, not_or] at constant
    have later := inductionHypothesis constant.2
    simp only [List.cons_append, expandFrom, if_neg (Ne.symm constant.1), later]

/-- A variable in front.

Proof: by induction on the name, whose characters are collected up to the brace. -/
theorem expand_behind (name rest : Text) (closed : Char.ofNat 0x7D ∉ name) :
    expandFrom lookup status .text (expansion name ++ rest) =
      (lookup name).getD [] ++ expandFrom lookup status .text rest := by
  have inside : ∀ read, expandFrom lookup status (.name read)
      (name ++ Char.ofNat 0x7D :: rest) =
        (lookup (read ++ name)).getD [] ++ expandFrom lookup status .text rest := by
    induction name with
    | nil => intro read; simp [expandFrom]
    | cons character name inductionHypothesis =>
      intro read
      simp only [List.mem_cons, not_or] at closed
      have later := inductionHypothesis closed.2 (read ++ [character])
      simp only [List.cons_append, expandFrom, if_neg (Ne.symm closed.1), later,
        List.append_assoc, List.nil_append]
  have opened : expandFrom lookup status .text (expansion name ++ rest) =
      expandFrom lookup status (.name []) (name ++ Char.ofNat 0x7D :: rest) := by
    simp [expansion, expandFrom]
  rw [opened, inside, List.nil_append]

/-- The keys of a path are replaced by the values of their variables. -/
theorem expand_keys (keys : List Text) (words : ∀ key ∈ keys, Word key) :
    expandFrom lookup status .text (keys.flatMap fun key => '/' :: (key ++ '=' :: expansion key)) =
      keys.flatMap fun key => '/' :: (key ++ '=' :: (lookup key).getD []) := by
  induction keys with
  | nil => rfl
  | cons key keys inductionHypothesis =>
    have later := inductionHypothesis fun other member => words other (by simp [member])
    have foreign := (words key (by simp)).foreign
    have shape : ((key :: keys).flatMap fun key => '/' :: (key ++ '=' :: expansion key)) =
        ('/' :: (key ++ ['='])) ++ (expansion key ++
          keys.flatMap fun key => '/' :: (key ++ '=' :: expansion key)) := by
      simp
    have constant : '$' ∉ '/' :: (key ++ ['=']) := by simp [foreign '$' (by decide)]
    rw [shape, expand_front _ _ _ _ constant, expand_behind _ _ key _ (foreign _ (by decide)), later]
    simp

end Expansions

section Paths

variable {session : ClientSession κ} {token cmdtftp cmdtftpput rambase : Text}

/-- The target of a session's name has no character with a meaning in quotes. The characters of
the keys, of the token and of the id are command characters, and the address has digits and dots
only. -/
theorem target_without (plain : PlainSession session token cmdtftp cmdtftpput rambase)
    (status : Option Text) (written : status ∈ recvStatuses) (keys : List Text)
    (words : ∀ key ∈ keys, Word key) (symbol : Char) (special : symbol ∈ ['"', '\\']) :
    symbol ∉ session.serverIp ++ ':' :: continuePath session.clientId token status keys expansion := by
  have wider : symbol ∈ ['$', '"', '\\'] := List.mem_cons_of_mem _ special
  have front := TestClient.bare_path_without session.clientId token plain.urlSafe status written expansion symbol
    wider
  have other : isCommandChar symbol = false ∧ symbol.isDigit = false ∧
      symbol ∉ [':', '.', '/', '=', '$', Char.ofNat 0x7B, Char.ofNat 0x7D] := by
    simp only [List.mem_cons, List.not_mem_nil, or_false] at special
    rcases special with rfl | rfl <;> decide
  obtain ⟨foreign, digit, marks⟩ := other
  simp only [List.mem_cons, List.not_mem_nil, or_false, not_or] at marks
  obtain ⟨colon, dot, slash, equals, dollar, opened, closed⟩ := marks
  rw [TestClient.continue_path_flat]
  simp only [List.mem_append, List.mem_cons, List.mem_flatMap, not_or, not_exists, not_and]
  refine ⟨fun inside => ?_, colon, front, fun key member => ⟨slash, ?_, equals, ?_⟩⟩
  · rcases plain.dotted symbol inside with isDigit | isDot
    · simp [digit] at isDigit
    · exact dot isDot
  · exact (words key member).foreign symbol foreign
  · simp only [expansion, List.mem_append, not_or]
    refine ⟨⟨?_, (words key member).foreign symbol foreign⟩, ?_⟩
    · have shape : "$\x7b".toList = ['$', Char.ofNat 0x7B] := rfl
      simp [shape, dollar, opened]
    · have shape : "\x7d".toList = [Char.ofNat 0x7D] := rfl
      simp [shape, closed]

/-- A board puts the values of its variables into the target. Only the requested keys stand in it as
variables, and one that is not set has an empty value. -/
theorem expand_target (plain : PlainSession session token cmdtftp cmdtftpput rambase)
    (status : Option Text) (written : status ∈ recvStatuses) (keys : List Text)
    (words : ∀ key ∈ keys, Word key) (lookup : Text → Option Text) (last : Nat) :
    expandFrom lookup last .text (bareWord false ('"' ::
        (session.serverIp ++ ':' :: continuePath session.clientId token status keys expansion) ++
          ['"'])) =
      session.serverIp ++ ':' :: continuePath session.clientId token status keys
        fun key => (lookup key).getD [] := by
  have front := TestClient.bare_path_without session.clientId token plain.urlSafe status written expansion '$'
    (by decide)
  have constant : '$' ∉ session.serverIp ++ ':' ::
      sessionPath session.clientId (continueSegments token status [] expansion) := by
    simp only [List.mem_append, List.mem_cons, not_or]
    refine ⟨fun inside => ?_, by decide, front⟩
    rcases plain.dotted '$' inside with isDigit | isDot
    · exact absurd isDigit (by decide)
    · exact absurd isDot (by decide)
  rw [bare_quoted _ (target_without plain status written keys words '"' (by decide))
    (target_without plain status written keys words '\\' (by decide)),
    TestClient.continue_path_flat, TestClient.continue_path_flat, ← List.cons_append,
    ← List.append_assoc, expand_front _ _ _ _ constant, expand_keys _ _ keys words,
    ← List.cons_append, ← List.append_assoc]
  rfl

/-- The target of an upload. -/
theorem upload_without (plain : PlainSession session token cmdtftp cmdtftpput rambase)
    (symbol : Char) (special : symbol ∈ ['$', '"', '\\']) :
    symbol ∉ session.serverIp ++ ':' :: uploadPath session.clientId token := by
  have other : symbol.isDigit = false ∧ symbol ≠ ':' ∧ symbol ≠ '.' := by
    simp only [List.mem_cons, List.not_mem_nil, or_false] at special
    rcases special with rfl | rfl | rfl <;> decide
  obtain ⟨digit, colon, dot⟩ := other
  simp only [List.mem_append, List.mem_cons, not_or]
  refine ⟨fun inside => ?_, colon, TestClient.upload_path_without session.clientId token
    plain.urlSafe symbol special⟩
  rcases plain.dotted symbol inside with isDigit | isDot
  · simp [digit] at isDigit
  · exact dot isDot

end Paths

end UbootTftp
