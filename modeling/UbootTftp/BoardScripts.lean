import UbootTftp.Boards
import UbootTftp.EchoedMessages

/-!
# How a board reads scripts

A word without blanks, semicolons, newlines, double quotes and backslashes is read as it stands,
and so is a quoted one that ends where it should. A text is read as commands if it is read so
before any other line; such texts can be joined, and a board runs their commands one after the
other.
-/

namespace UbootTftp

open CodeRefinement (run)
open ConditionalScripts (Line Frame)
open QuotedSplits (Solid cut)

section Words

/-- A word that is read as one. Both cuts have to leave it whole: the one into commands and the one
into words. -/
structure RawWord (word : Text) : Prop where
  present : word ≠ []
  single : Solid '\\' '"' isBlank word
  kept : Solid '\\' '"' endsCommand word

/-- Text with no meaning between words. -/
def Loose (text : Text) : Prop := ∀ character ∈ text, character ∉ [' ', ';', '\n', '"', '\\']

instance (text : Text) : Decidable (Loose text) :=
  List.decidableBAll (fun character => character ∉ [' ', ';', '\n', '"', '\\']) text

/-- Loose texts one behind the other. -/
theorem Loose.append {front back : Text} (first : Loose front) (second : Loose back) :
    Loose (front ++ back) := by
  intro character member
  rcases List.mem_append.mp member with inside | inside
  · exact first character inside
  · exact second character inside

/-- A loose word is read as one. None of its characters ends a word or begins a quote. -/
theorem RawWord.plain (word : Text) (present : word ≠ []) (loose : Loose word) : RawWord word := by
  have each : ∀ character ∈ word, character ≠ '\\' ∧ character ≠ '"' ∧ character ≠ ' ' ∧
      character ≠ ';' ∧ character ≠ '\n' := by
    intro character member
    have other := loose character member
    simp only [List.mem_cons, List.not_mem_nil, or_false, not_or] at other
    exact ⟨other.2.2.2.2, other.2.2.2.1, other.1, other.2.1, other.2.2.1⟩
  refine ⟨present, QuotedSplits.solid_plain _ fun character member => ?_,
    QuotedSplits.solid_plain _ fun character member => ?_⟩
  · obtain ⟨unescaped, unquoted, inside, -⟩ := each character member
    exact ⟨unescaped, unquoted, decide_eq_false inside⟩
  · obtain ⟨unescaped, unquoted, -, continues, stays⟩ := each character member
    exact ⟨unescaped, unquoted, decide_eq_false (not_or.mpr ⟨continues, stays⟩)⟩

/-- A quoted word is read as one. -/
theorem RawWord.quoted (word : Text) (one : IsOneWord word) : RawWord word := by
  obtain ⟨body, rfl, closed⟩ := one
  exact ⟨by simp, QuotedSplits.solid_quoted (by decide) (by decide) body closed,
    QuotedSplits.solid_quoted (by decide) (by decide) body closed⟩

/-- A text without quotes and backslashes, in quotes. Such a text needs no escape, so it is its own
escaped form and the closing quote is the one behind it. -/
theorem RawWord.verbatim (text : Text) (unquoted : '"' ∉ text) (unescaped : '\\' ∉ text) :
    RawWord ('"' :: text ++ ['"']) := by
  refine .quoted _ ⟨text ++ ['"'], rfl, ?_⟩
  have escapes : QuotedWords.escaped '\\' '"' text = text := by
    refine (List.flatMap_congr fun character member => if_neg ?_).trans (List.flatMap_singleton' _)
    rintro rfl
    exact unquoted member
  have untrailed : text.rtakeWhile (fun character => decide (character = '\\')) = [] := by
    rw [List.rtakeWhile_eq_nil_iff]
    intro present last
    have same : text.getLast present = '\\' := of_decide_eq_true last
    exact unescaped (same ▸ List.getLast_mem present)
  have closes := (QuotedWords.escaped_closed_iff text (by decide)).mpr
    ⟨even_before_plain _ unquoted, by rw [QuotedWords.trailing, untrailed]; exact Even.zero⟩
  rw [escapes] at closes
  exact closes

/-- The words of a line. -/
theorem words_of_line (words : List Text) (each : ∀ word ∈ words, RawWord word) :
    wordsOf (List.intercalate [' '] words) = words := by
  cases words with
  | nil => rfl
  | cons first words =>
    rw [wordsOf, QuotedSplits.cut_joined ' ' (by decide) _ (by simp)
      fun word member => (each word member).single]
    exact List.filter_eq_self.mpr fun word member => by simpa using (each word member).present

/-- A blank in front of a line does not matter. -/
theorem words_behind_blank (piece : Text) : wordsOf (' ' :: piece) = wordsOf piece := by
  have blank : isBlank ' ' = true := rfl
  rw [wordsOf, QuotedSplits.cut, if_pos ⟨rfl, blank⟩, List.filter_cons_of_neg (by simp)]
  rfl

end Words

section Lines

/-- The words that begin a part of a conditional. -/
def keywords : List Text := ["if".toList, "then".toList, "else".toList, "fi".toList]

/-- A piece whose first word is no keyword is a command. -/
theorem read_piece (piece first : Text) (words : List Text) (shape : wordsOf piece = first :: words)
    (command : first ∉ keywords) : readPiece piece = [.command (first :: words)] := by
  simp only [keywords, List.mem_cons, List.not_mem_nil, or_false, not_or] at command
  obtain ⟨noIf, noThen, noElse, noEnd⟩ := command
  simp only [readPiece, shape, if_neg noIf, if_neg noThen, if_neg noElse, if_neg noEnd]

/-- A text is read as lines, whatever lines follow it. Quotes that are left open would be closed by
what follows, so the text behind has to be part of the definition. -/
def Reads (text : Text) (lines : List (Line (List Text) Unit)) : Prop :=
  ∀ rest, scriptLines (text ++ '\n' :: rest) = lines ++ scriptLines rest

/-- A line is read as its command. -/
theorem Reads.line (first : Text) (words : List Text) (each : ∀ word ∈ first :: words, RawWord word)
    (command : first ∉ keywords) :
    Reads (List.intercalate [' '] (first :: words)) [.command (first :: words)] := by
  intro rest
  have solid : Solid '\\' '"' endsCommand (List.intercalate [' '] (first :: words)) :=
    Solid.joined ' ' (by decide) (by decide) (by decide) _ fun word member => (each word member).kept
  rw [scriptLines, QuotedSplits.cut_before solid '\n' (by decide), List.flatMap_cons,
    read_piece _ first words (words_of_line _ each) command]
  rfl

/-- Texts one behind the other. -/
theorem Reads.behind {front back : Text} {first second : List (Line (List Text) Unit)}
    (begins : Reads front first) (ends : Reads back second) :
    Reads (front ++ '\n' :: back) (first ++ second) := by
  intro rest
  rw [List.append_assoc, List.cons_append, begins, ends, List.append_assoc]

/-- Texts that are joined are read as the lines of each. The texts and their lines may depend on
anything, so that the lemma serves whole generators.

Proof: by induction on the parts; each text is read whatever follows, so also with the others behind
it. -/
theorem Reads.joined {ι : Type*} (text : ι → Text) (code : ι → List (Line (List Text) Unit))
    (parts : List ι) (present : parts ≠ []) (each : ∀ part ∈ parts, Reads (text part) (code part)) :
    Reads (List.intercalate ['\n'] (parts.map text)) (parts.flatMap code) := by
  induction parts with
  | nil => exact absurd rfl present
  | cons part parts inductionHypothesis =>
    have first : Reads (text part) (code part) := each part (by simp)
    cases parts with
    | nil => simpa using first
    | cons other parts =>
      have others := inductionHypothesis (by simp) fun later member => each later (by simp [member])
      rw [List.map_cons, List.map_cons, List.intercalate_cons_cons, List.append_assoc,
        List.singleton_append, List.flatMap_cons]
      exact first.behind others

/-- Nothing is read as no lines. -/
theorem reads_nothing (lines : List (Line (List Text) Unit)) : Reads [] lines ↔ lines = [] := by
  have skipped (rest : Text) : scriptLines ('\n' :: rest) = scriptLines rest := rfl
  constructor
  · intro reads
    have alone := reads []
    rw [List.nil_append, skipped] at alone
    simpa [scriptLines, cut, readPiece, wordsOf] using alone.symm
  · rintro rfl rest
    exact skipped rest

/-- So are the lines of a script, of which the empty ones are left out. The induction is on the
parts. An empty line is no command, so leaving it out changes nothing of what the others are read
as. -/
theorem Reads.lines {ι : Type*} (text : ι → Text) (code : ι → List (Line (List Text) Unit))
    (parts : List ι) (each : ∀ part ∈ parts, Reads (text part) (code part)) :
    Reads (Text.joinLines (parts.map text)) (parts.flatMap code) := by
  have kept : (parts.map text).filter (fun line => decide (line ≠ [])) =
      (parts.filter (fun part => decide (text part ≠ []))).map text := by
    rw [List.filter_map]
    rfl
  have same : parts.flatMap code =
      (parts.filter (fun part => decide (text part ≠ []))).flatMap code := by
    clear kept
    induction parts with
    | nil => rfl
    | cons part parts inductionHypothesis =>
      have rest := inductionHypothesis fun later member => each later (by simp [member])
      by_cases empty : text part = []
      · have none : code part = [] := (reads_nothing _).mp (empty ▸ each part (by simp))
        rw [List.filter_cons_of_neg (by simpa using empty), List.flatMap_cons, none, rest,
          List.nil_append]
      · rw [List.filter_cons_of_pos (by simpa using empty), List.flatMap_cons, List.flatMap_cons, rest]
  rw [Text.joinLines, kept, same]
  by_cases present : parts.filter (fun part => decide (text part ≠ [])) = []
  · rw [present]
    exact (reads_nothing _).mpr rfl
  · exact .joined text code _ present fun part member => each part (List.mem_of_mem_filter member)

/-- The lines of a message are two `echo` commands. The text is one word if the backslashes in
front of its double quotes come in even numbers. A text that has others is not read as a message
at all. -/
theorem Reads.message (msg : Text) (color : ColorName) (bold newline : Bool)
    (even : QuotedWords.EvenBefore '\\' '"' msg) :
    Reads (ubootMsg msg color bold newline)
      [.command ["echo".toList, quote (messageText msg color bold newline)],
        .command ["echo".toList, quote saveCursor]] := by
  have echoWord : RawWord "echo".toList := .plain _ (by decide) (by decide)
  have shown : RawWord (quote (messageText msg color bold newline)) :=
    .quoted _ ((message_word_iff msg color bold newline).mpr even)
  have saved : RawWord (quote saveCursor) :=
    .quoted _ ((quoted_word_iff saveCursor).mpr ⟨even_before_plain _ (by decide), by decide⟩)
  have words : ∀ word ∈ ["echo".toList, quote (messageText msg color bold newline)],
      RawWord word := List.forall_mem_cons.mpr ⟨echoWord, List.forall_mem_singleton.mpr shown⟩
  have lastWords : ∀ word ∈ ["echo".toList, quote saveCursor], RawWord word :=
    List.forall_mem_cons.mpr ⟨echoWord, List.forall_mem_singleton.mpr saved⟩
  have solid : Solid '\\' '"' endsCommand
      (List.intercalate [' '] ["echo".toList, quote (messageText msg color bold newline)]) :=
    Solid.joined ' ' (by decide) (by decide) (by decide) _ fun word member => (words word member).kept
  have lastSolid : Solid '\\' '"' endsCommand
      (' ' :: List.intercalate [' '] ["echo".toList, quote saveCursor]) :=
    (QuotedSplits.solid_item ' ' (by decide) (by decide) (by decide)).append
      (Solid.joined ' ' (by decide) (by decide) (by decide) _
        fun word member => (lastWords word member).kept)
  have shape : ubootMsg msg color bold newline =
      List.intercalate [' '] ["echo".toList, quote (messageText msg color bold newline)] ++
        ';' :: ' ' :: List.intercalate [' '] ["echo".toList, quote saveCursor] := by
    have front : "echo ".toList = "echo".toList ++ [' '] := rfl
    have middle : "; ".toList = [';', ' '] := rfl
    have last : echo saveCursor = "echo ".toList ++ quote saveCursor := rfl
    rw [message_commands, last, front, middle]
    simp only [List.intercalate_cons_cons, List.intercalate_singleton, List.append_assoc,
      List.cons_append, List.nil_append]
  intro rest
  rw [shape, scriptLines, List.append_assoc, List.cons_append,
    QuotedSplits.cut_before solid ';' (by decide), List.flatMap_cons,
    QuotedSplits.cut_before lastSolid '\n' (by decide), List.flatMap_cons,
    read_piece _ _ _ (words_of_line _ words) (by decide),
    read_piece _ _ _ ((words_behind_blank _).trans (words_of_line _ lastWords)) (by decide)]
  rfl

end Lines

section Runs

variable (hardware : Hardware)

/-- A board that waits runs nothing. -/
theorem run_waiting (commands : List (List Text)) (board : Board) (waits : board.waiting.isSome) :
    run (Board.execWords hardware) commands board = board := by
  induction commands with
  | nil => rfl
  | cons words commands inductionHypothesis =>
    have same : Board.execWords hardware words board = board := by rw [Board.execWords, if_pos waits]
    rw [run, same]
    exact inductionHypothesis

/-- Lines that are not reached. -/
theorem follow_waiting (lines : List (Line (List Text) Unit))
    (state : ConditionalScripts.State Board) (waits : state.store.waiting.isSome) :
    Board.follow hardware lines state = ⟨state, lines⟩ := by
  cases lines with
  | nil => rfl
  | cons line lines => rw [Board.follow, if_pos waits]

/-- Commands at the front of a script are run one after the other. One that leaves the board waiting
keeps the others from it.

Proof: by induction on the commands. A board that waited behind one of them would still wait behind
the last, so none of them makes it wait. -/
theorem follow_commands (commands : List (List Text))
    (rest : List (Line (List Text) Unit)) (frames : List Frame)
    (board : Board) (idle : (run (Board.execWords hardware) commands board).waiting = none) :
    Board.follow hardware (commands.map .command ++ rest) ⟨true, frames, board⟩ =
      Board.follow hardware rest ⟨true, frames, run (Board.execWords hardware) commands board⟩ := by
  induction commands generalizing board with
  | nil => rfl
  | cons words commands inductionHypothesis =>
    have unbound : ¬board.waiting.isSome := by
      intro waits
      rw [run_waiting hardware (words :: commands) board waits] at idle
      simp [idle] at waits
    rw [List.map_cons, List.cons_append, Board.follow, if_neg unbound]
    exact inductionHypothesis (Board.execWords hardware words board) idle

/-- Commands that leave no board waiting. None of them names a session. -/
def Prompt (lines : List (Line (List Text) Unit)) : Prop :=
  ∀ words, .command words ∈ lines → ∀ board : Board, board.waiting = none →
    (Board.execWords hardware words board).waiting = none

/-- Such lines at the front of a script are read to their end.

Proof: by induction on the lines; a board that does not wait reads the next one, and does not wait
behind it either. -/
theorem follow_steps (lines rest : List (Line (List Text) Unit)) (prompt : Prompt hardware lines)
    (state next : ConditionalScripts.State Board) (idle : state.store.waiting = none)
    (reached : ConditionalScripts.steps (Board.execWords hardware) succeeded lines state = some next) :
    Board.follow hardware (lines ++ rest) state = Board.follow hardware rest next ∧
      next.store.waiting = none := by
  induction lines generalizing state with
  | nil =>
    cases reached
    exact ⟨rfl, idle⟩
  | cons line lines inductionHypothesis =>
    have unbound : ¬state.store.waiting.isSome := by simp [idle]
    rw [ConditionalScripts.steps, Option.bind_eq_some_iff] at reached
    obtain ⟨middle, stepped, later⟩ := reached
    have still : middle.store.waiting = none := by
      cases line with
      | command words =>
        cases stepped
        split
        · exact prompt words (by simp) state.store idle
        · exact idle
      | begin test =>
        cases stepped
        exact idle
      | otherwise =>
        simp only [ConditionalScripts.step] at stepped
        split at stepped
        · cases stepped
          exact idle
        · cases stepped
      | close =>
        simp only [ConditionalScripts.step] at stepped
        split at stepped
        · cases stepped
          exact idle
        · cases stepped
          exact idle
        · cases stepped
    rw [List.cons_append, Board.follow, if_neg unbound, stepped]
    exact inductionHypothesis (fun words member => prompt words (by simp [member])) middle still later

end Runs

end UbootTftp
