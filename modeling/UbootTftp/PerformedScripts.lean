import UbootTftp.SentScripts

/-!
# Scripts that leave the flash alone

Whatever the lines of a handler print, probe or read, the flash of the board stays as it is, and
so do its load address and the temporary variables that it does not have. This is shown line by
line: each is read as commands, no command waits for the server, and each of them is gentle.
-/

namespace UbootTftp

open CodeRefinement (run)
open ConditionalScripts (Line Computes)
open TestClient (Word PlainSession)

section Performing

variable {hardware : Hardware}

/-- Lines of a handler that a board carries out as a function, without waiting. Conditionals among
the lines are covered: which branch is taken is part of the function. -/
def Performs (hardware : Hardware) (lines : List Text) (function : Board → Board) : Prop :=
  ∃ code : List (List (Line (List Text) Unit)), List.Forall₂ Reads lines code ∧
    Computes (Board.execWords hardware) succeeded code.flatten function ∧
    Prompt hardware code.flatten

/-- No lines. -/
theorem Performs.nil : Performs hardware [] id :=
  ⟨[], .nil, .nil, fun _ member => by cases member⟩

/-- Lines behind lines. The commands are run one after another, so what they do is composed in the
order of the lines. -/
theorem Performs.append {front back : List Text} {first second : Board → Board}
    (begins : Performs hardware front first) (ends : Performs hardware back second) :
    Performs hardware (front ++ back) (fun board => second (first board)) := by
  obtain ⟨code, reads, computes, prompt⟩ := begins
  obtain ⟨others, readsOthers, computesOthers, promptOthers⟩ := ends
  refine ⟨code ++ others, List.rel_append reads readsOthers, ?_, ?_⟩
  · rw [List.flatten_append]
    exact computes.append computesOthers
  · intro words member
    rw [List.flatten_append, List.mem_append] at member
    rcases member with front | back
    · exact prompt words front
    · exact promptOthers words back

/-- The lines are read as one text. -/
theorem Performs.reads {lines : List Text} {function : Board → Board}
    (performs : Performs hardware lines function) :
    ∃ code, Reads (Text.joinLines lines) code ∧
      Computes (Board.execWords hardware) succeeded code function ∧ Prompt hardware code := by
  obtain ⟨code, reads, computes, prompt⟩ := performs
  refine ⟨code.flatten, ?_, computes, prompt⟩
  obtain ⟨long, each⟩ := List.forall₂_iff_zip.mp reads
  have joined := Reads.lines Prod.fst Prod.snd (lines.zip code)
    fun (part : Text × List (Line (List Text) Unit)) member => each member
  rw [List.map_fst_zip long.le] at joined
  rw [← List.flatMap_id, ← List.map_snd_zip long.ge, List.flatMap_map]
  exact joined

/-- A board that begins with them comes to what follows. -/
theorem Performs.reaches {lines : List Text} {function : Board → Board}
    (performs : Performs hardware lines function) (board : Board) (idle : board.waiting = none) :
    ∃ code, Reads (Text.joinLines lines) code ∧ (function board).waiting = none ∧
      ∀ rest, Board.follow hardware (code ++ rest) ⟨true, [], board⟩ =
        Board.follow hardware rest ⟨true, [], function board⟩ := by
  obtain ⟨code, reads, computes, prompt⟩ := performs.reads
  have ran := computes true [] board
  rw [if_pos rfl] at ran
  exact ⟨code, reads, (follow_steps hardware code [] prompt _ _ idle ran).2,
    fun rest => (follow_steps hardware code rest prompt _ _ idle ran).1⟩

end Performing

section Gentleness

/-- What a script leaves as it is: the flash, whether it has been probed, the load address and the
temporary variables. The memory and other variables may change. -/
structure Unharmed (rambase : Text) (before after : Board) : Prop where
  flash : after.flash = before.flash
  probed : before.probed = true → after.probed = true
  loads : after.values.get rambase = before.values.get rambase
  tidy : ∀ name, Temporary name → after.values.get name = before.values.get name
  idle : before.waiting = none → after.waiting = none

variable {rambase : Text}

/-- Nothing is done. -/
theorem Unharmed.refl (board : Board) : Unharmed rambase board board :=
  ⟨rfl, id, rfl, fun _ _ => rfl, id⟩

/-- One after the other. -/
theorem Unharmed.trans {first second third : Board} (begins : Unharmed rambase first second)
    (ends : Unharmed rambase second third) : Unharmed rambase first third where
  flash := ends.flash.trans begins.flash
  probed := fun held => ends.probed (begins.probed held)
  loads := ends.loads.trans begins.loads
  tidy := fun name temporary => (ends.tidy name temporary).trans (begins.tidy name temporary)
  idle := fun held => ends.idle (begins.idle held)

/-- A variable that is no temporary one and not the load address is set. -/
theorem unharmed_set (board : Board) (name value : Text) (status : Nat) (other : name ≠ rambase)
    (lasting : ¬Temporary name) : Unharmed rambase board
      { board with values := board.values.set name value, status := status } where
  flash := rfl
  probed := id
  loads := Dict.get_set_other _ _ _ _ (Ne.symm other)
  tidy := fun _ temporary => Dict.get_set_other _ _ _ _ fun same => lasting (same ▸ temporary)
  idle := id

variable {hardware : Hardware}

/-- A command that leaves this as it is, on every board. The words are those of the script, before
anything is put in for its variables. -/
def Gentle (hardware : Hardware) (rambase : Text) (words : List Text) : Prop :=
  ∀ board, Unharmed rambase board (Board.execWords hardware words board)

/-- A command is gentle if what it means is, or if it means nothing. A command that is not known
sets the status and nothing else, which is gentle. -/
theorem gentle_read {words : List Text}
    (each : ∀ (board : Board) (command : BoardCommand),
      readCommand (board.expandWords words) = some command →
        Unharmed rambase board (command.exec hardware board)) : Gentle hardware rambase words := by
  intro board
  rw [Board.execWords]
  split
  · exact .refl board
  · split
    · rename_i command read
      exact each board command read
    · exact ⟨rfl, id, rfl, fun _ _ => rfl, id⟩

/-- Commands one after the other. -/
theorem run_gentle (commands : List (List Text))
    (gentle : ∀ words ∈ commands, Gentle hardware rambase words) (board : Board) :
    Unharmed rambase board (run (Board.execWords hardware) commands board) := by
  induction commands generalizing board with
  | nil => exact .refl board
  | cons words commands inductionHypothesis =>
    exact (gentle words (by simp) board).trans
      (inductionHypothesis (fun other member => gentle other (by simp [member])) _)

/-- Lines of a handler that leave this as it is. -/
def GentleLines (hardware : Hardware) (rambase : Text) (lines : List Text) : Prop :=
  ∃ function, Performs hardware lines function ∧ ∀ board, Unharmed rambase board (function board)

/-- A line that is read as gentle commands.

Proof: by induction on the commands, their lines compute the run; and none of them makes the board
wait. -/
theorem performs_commands (text : Text) (commands : List (List Text))
    (reads : Reads text (commands.map .command))
    (gentle : ∀ words ∈ commands, Gentle hardware rambase words) :
    Performs hardware [text] (run (Board.execWords hardware) commands) := by
  refine ⟨[commands.map .command], .cons reads .nil, ?_, ?_⟩
  · rw [List.flatten_singleton]
    clear reads gentle
    induction commands with
    | nil => exact .nil
    | cons words commands inductionHypothesis => exact .command words inductionHypothesis
  · intro words member
    simp only [List.flatten_singleton, List.mem_map, Line.command.injEq, exists_eq_right] at member
    exact fun board idle => (gentle words member board).idle idle

/-- Such a line is gentle. -/
theorem gentle_commands (text : Text) (commands : List (List Text))
    (reads : Reads text (commands.map .command))
    (gentle : ∀ words ∈ commands, Gentle hardware rambase words) :
    GentleLines hardware rambase [text] :=
  ⟨_, performs_commands text commands reads gentle, run_gentle commands gentle⟩

/-- Lines behind lines. -/
theorem GentleLines.append {front back : List Text} (begins : GentleLines hardware rambase front)
    (ends : GentleLines hardware rambase back) : GentleLines hardware rambase (front ++ back) := by
  obtain ⟨first, performs, gentle⟩ := begins
  obtain ⟨second, others, gentleOthers⟩ := ends
  exact ⟨_, performs.append others, fun board => (gentle board).trans (gentleOthers _)⟩

/-- Lines of which each is gentle. -/
theorem GentleLines.each (lines : List Text)
    (gentle : ∀ line ∈ lines, GentleLines hardware rambase [line]) :
    GentleLines hardware rambase lines := by
  induction lines with
  | nil => exact ⟨id, .nil, .refl⟩
  | cons line lines inductionHypothesis =>
    exact (gentle line (by simp)).append
      (inductionHypothesis fun other member => gentle other (by simp [member]))

/-- `echo` is gentle. -/
theorem gentle_echo (words : List Text) : Gentle hardware rambase ("echo".toList :: words) := by
  refine gentle_read fun board command read => ?_
  have front : board.expandWords ("echo".toList :: words) =
      "echo".toList :: board.expandWords words := by
    simp only [Board.expandWords, List.map_cons, (by decide : Constant "echo".toList).expanded]
  rw [front, read_echo] at read
  cases read
  exact ⟨rfl, id, rfl, fun _ _ => rfl, id⟩

/-- A command without expansions that is not known is gentle. -/
theorem gentle_unknown (words : List Text) (constant : ∀ word ∈ words, Constant word)
    (unknown : readCommand words = none) : Gentle hardware rambase words := by
  refine gentle_read fun board command read => ?_
  have same : board.expandWords words = words :=
    (List.map_congr_left fun word member => (constant word member).expanded _ _).trans (List.map_id _)
  rw [same, unknown] at read
  cases read

/-- `setenv` with a value is gentle if the variable is no temporary one and not the load address,
and the value does not name a session. A value that does would turn the command into a request. -/
theorem gentle_setenv (name value : Text) (constant : Constant name) (lasting : ¬Temporary name)
    (apart : name ≠ rambase)
    (silent : ∀ board : Board, Sequences.occurs ":id=".toList
      (expandFrom board.values.get board.status .text (bareWord false value)) = false) :
    Gentle hardware rambase ["setenv".toList, name, value] := by
  refine gentle_read fun board command read => ?_
  have expanded : board.expandWords ["setenv".toList, name, value] = ["setenv".toList, name,
      expandFrom board.values.get board.status .text (bareWord false value)] := by
    simp only [Board.expandWords, List.map_cons, List.map_nil,
      (by decide : Constant "setenv".toList).expanded, constant.expanded]
  have quiet : asksSession [name, expandFrom board.values.get board.status .text
      (bareWord false value)] = false := silent board
  rw [expanded, readCommand, if_neg (by decide), quiet, if_neg (by decide), if_neg (by decide),
    if_pos rfl, readAssignment] at read
  · cases read
    exact unharmed_set board _ _ 0 apart lasting
  · simp

/-- A `setenv` line is read as its command. -/
theorem setenv_reads (name value : Text) (first : RawWord name) (second : RawWord value) :
    Reads ("setenv ".toList ++ name ++ ' ' :: value) [.command ["setenv".toList, name, value]] := by
  have front : "setenv ".toList = "setenv".toList ++ [' '] := rfl
  have shape : "setenv ".toList ++ name ++ ' ' :: value =
      List.intercalate [' '] ["setenv".toList, name, value] := by
    rw [front]
    simp only [List.intercalate_cons_cons, List.intercalate_singleton, List.append_assoc,
      List.cons_append, List.nil_append]
  rw [shape]
  exact .line "setenv".toList [name, value] (List.forall_mem_cons.mpr
    ⟨.plain _ (by decide) (by decide), List.forall_mem_cons.mpr ⟨first,
      List.forall_mem_singleton.mpr second⟩⟩) (by decide)

end Gentleness

section Echoes

/-- Without a backslash a text is a word when it is quoted, and a message can be shown. -/
theorem unescaped_word (text : Text) (unescaped : '\\' ∉ text) :
    IsOneWord (quote text) ∧ QuotedWords.EvenBefore '\\' '"' text := by
  have none (part : Text) (free : '\\' ∉ part) : QuotedWords.trailing '\\' part = 0 := by
    rw [QuotedWords.trailing, List.length_eq_zero_iff, List.rtakeWhile_eq_nil_iff]
    intro present last
    have same : part.getLast present = '\\' := of_decide_eq_true last
    exact free (same ▸ List.getLast_mem present)
  have even : QuotedWords.EvenBefore '\\' '"' text := by
    rintro before after rfl
    rw [none before fun member => unescaped (List.mem_append_left _ member)]
    exact Even.zero
  exact ⟨(quoted_word_iff text).mpr ⟨even, (none text unescaped).symm ▸ Even.zero⟩, even⟩

/-- A line that shows something. Backslashes are excluded since the messages do not escape them. -/
inductive Echoed : Text → Prop
  | message (msg : Text) (color : ColorName) (bold newline : Bool) (unescaped : '\\' ∉ msg) :
      Echoed (ubootMsg msg color bold newline)
  | status (msg : Text) (color : ColorName) (bold : Bool) (unescaped : '\\' ∉ msg) :
      Echoed (ubootStatus msg color bold)
  | complete : Echoed ubootStatusComplete

/-- The text that a status line quotes. -/
theorem status_unescaped (msg : Text) (color : ColorName) (bold : Bool) (unescaped : '\\' ∉ msg) :
    '\\' ∉ restoreCursor ++ clearRegion ++ saveCursor ++ style color bold ++ msg ++ restoreStyle := by
  have front : '\\' ∉ restoreCursor ++ clearRegion ++ saveCursor ++ style color bold := by
    cases color <;> cases bold <;> decide
  simp only [List.mem_append, not_or] at front ⊢
  exact ⟨⟨front, unescaped⟩, by decide⟩

/-- A quoted text behind `echo`. -/
theorem echo_reads (text : Text) (unescaped : '\\' ∉ text) :
    Reads (echo text) [.command ["echo".toList, quote text]] := by
  have front : "echo ".toList = "echo".toList ++ [' '] := rfl
  have shape : echo text = List.intercalate [' '] ["echo".toList, quote text] := by
    rw [echo, front, List.append_assoc, List.intercalate_cons_cons, List.intercalate_singleton,
      List.append_assoc]
  rw [shape]
  exact .line "echo".toList [quote text] (List.forall_mem_cons.mpr ⟨.plain _ (by decide) (by decide),
    List.forall_mem_singleton.mpr (.quoted _ (unescaped_word text unescaped).1)⟩) (by decide)

/-- It ends with a quote. -/
theorem firm_echo (text : Text) : Firm (echo text) := by
  rw [echo, quote, ← List.append_assoc]
  exact firm_quote _

variable {hardware : Hardware} {rambase : Text}

/-- Such a line is gentle. Its commands only show something, so they leave the flash, the memory and
the variables as they are. -/
theorem Echoed.gentle {line : Text} (echoed : Echoed line) :
    GentleLines hardware rambase [line] := by
  have each (commands : List (List Text)) (echoes : ∀ words ∈ commands, ∃ rest,
      words = "echo".toList :: rest) : ∀ words ∈ commands, Gentle hardware rambase words := by
    intro words member
    obtain ⟨rest, rfl⟩ := echoes words member
    exact gentle_echo rest
  cases echoed with
  | message msg color bold newline unescaped =>
    exact gentle_commands _ [["echo".toList, quote (messageText msg color bold newline)],
      ["echo".toList, quote saveCursor]]
      (.message msg color bold newline (unescaped_word msg unescaped).2) (each _ (by simp))
  | status msg color bold unescaped =>
    exact gentle_commands _ [["echo".toList, quote _]]
      (echo_reads _ (status_unescaped msg color bold unescaped)) (each _ (by simp))
  | complete =>
    exact gentle_commands _ [["echo".toList, quote saveCursor]] (echo_reads _ (by decide))
      (each _ (by simp))

/-- It ends with a quote. -/
theorem Echoed.firm {line : Text} (echoed : Echoed line) : Firm line := by
  cases echoed with
  | message msg color bold newline unescaped =>
    exact Operation.firm [] [] (0, 0) (.message msg color bold newline)
  | status msg color bold unescaped => exact firm_echo _
  | complete => exact firm_echo _

/-- Lines that show something are gentle and end so. -/
theorem echoed_lines (hardware : Hardware) (rambase : Text) (lines : List Text)
    (each : ∀ line ∈ lines, Echoed line) :
    GentleLines hardware rambase lines ∧ Firm (Text.joinLines lines) :=
  ⟨.each lines fun line member => (each line member).gentle,
    .joined lines fun line member => (each line member).firm⟩

end Echoes

section Sending

universe u
variable {κ : Type u} (hardware : Hardware) {session : ClientSession κ}
  {token cmdtftp cmdtftpput rambase : Text}
  (plain : PlainSession session token cmdtftp cmdtftpput rambase) (loose : Loose rambase)
include plain loose

/-- A board that is sent lines with `exec` carries them out and asks for the continuation. The
continuation is asked for with the values that the variables have after the lines, and nothing waits
while the lines run. -/
theorem exec_performed (fetches : cmdtftp ∉ ["echo".toList, "true".toList]) (lines : List Text)
    (function : Board → Board) (performs : Performs hardware lines function)
    (firm : Firm (Text.joinLines lines)) (keys : List Text) (words : ∀ key ∈ keys, Word key)
    (tmpName text : Text)
    (written : sentScript token tmpName session ⟨Text.joinLines lines, false, none, keys, none⟩ =
      .ok text) (board : Board) :
    (function { board with waiting := none }).waiting = none ∧
      (board.source hardware (ensureNewline text)).state.store =
        { function { board with waiting := none } with
          waiting := some [cmdtftp, (function { board with waiting := none }).report rambase,
            session.serverIp ++ ':' :: continuePath session.clientId token none keys
              (function { board with waiting := none }).report] } := by
  obtain ⟨code, reads, idle, reaches⟩ := performs.reaches { board with waiting := none } rfl
  exact ⟨idle, exec_reaches hardware plain loose fetches _ code (firm.stripped.symm ▸ reads) keys words
    tmpName text written board _ idle reaches⟩

end Sending

end UbootTftp
