import UbootTftp.NorProbe
import UbootTftp.PerformedScripts

/-!
# Probing the flash of a board

The lines that probe for the size of the flash are run on a board. They are gentle whatever the
board, and on one whose flash has been found they leave in a variable the size that the probe
finds for the capacity of the flash.
-/

namespace UbootTftp

open ConditionalScripts (Line Computes)

section Words

variable (rambase : Text)

/-- The words that read a range of the flash to the load address. -/
def probeWords (offset size : Nat) : List Text :=
  ["sf".toList, "read".toList, expansion rambase, Text.hex offset, Text.hex size]

/-- The words that test whether the last command failed. -/
def failedWords : List Text := ["test".toList, "$?".toList, "-eq".toList, ['1']]

/-- The words that clear the line. -/
def clearWords : List Text := ["echo".toList, restoreCursor ++ clearRegion]

/-- The word that sets the size. -/
def sizeWord (known : Nat) : Text := "size=".toList ++ Text.hex known

/-- The word stands for itself. -/
theorem size_constant (known : Nat) : Constant (sizeWord known) := by
  have number := constant_hex known
  refine ⟨List.append_ne_nil_of_left_ne_nil (by decide) _,
    Loose.append (by decide) number.loose, fun member => ?_⟩
  rcases List.mem_append.mp member with front | back
  · exact absurd front (by decide)
  · exact number.plain back

/-- What stands before the end of a line, and an empty line behind it. -/
theorem ReadsLines.ended {text : Text} {lines : List (Line (List Text) Unit)}
    (reads : ReadsLines text lines) : Reads (text ++ ";\n".toList) lines := by
  intro rest
  have tail : ";\n".toList ++ '\n' :: rest = ';' :: '\n' :: '\n' :: rest := rfl
  have skipped : scriptLines ('\n' :: '\n' :: rest) = scriptLines rest := rfl
  rw [List.append_assoc, tail, reads ';' rfl, skipped]

/-- The line that reads is read as its command. It ends with a semicolon and a newline, neither of
which is a part of its last word. -/
theorem probe_line_reads (loose : Loose rambase) (offset size : Nat) :
    Reads ("sf read ".toList ++ expansion rambase ++ ' ' :: Text.hex offset ++ ' ' :: Text.hex size ++
      ";\n".toList) [.command (probeWords rambase offset size)] := by
  have front : "sf read ".toList = "sf".toList ++ ' ' :: "read".toList ++ [' '] := rfl
  have shape : "sf read ".toList ++ expansion rambase ++ ' ' :: Text.hex offset ++ ' ' :: Text.hex size =
      List.replicate 0 ' ' ++ List.intercalate [' '] (probeWords rambase offset size) := by
    rw [front, probeWords]
    simp only [List.intercalate_cons_cons, List.intercalate_singleton, List.append_assoc,
      List.cons_append, List.nil_append, List.replicate_zero]
  rw [shape]
  refine (ReadsLines.line 0 (probeWords rambase offset size) ?_ _ fun piece same =>
    read_piece piece _ _ same (by decide)).ended
  simp only [probeWords, List.forall_mem_cons, List.not_mem_nil, false_imp_iff, implies_true, and_true]
  exact ⟨.plain _ (by decide) (by decide), .plain _ (by decide) (by decide),
    raw_expansion rambase loose, (constant_hex offset).raw, (constant_hex size).raw⟩

/-- So is the line that sets the size. It is a single word that begins with the name of the
variable, so it is no keyword. -/
theorem size_line_reads (known : Nat) :
    Reads ("size=".toList ++ Text.hex known ++ ";\n".toList) [.command [sizeWord known]] := by
  have other : sizeWord known ∉ keywords := by
    intro member
    have front : (sizeWord known).take 5 = "size=".toList := rfl
    have foreign : ∀ keyword ∈ keywords, keyword.take 5 ≠ "size=".toList := by decide
    exact foreign _ member front
  have line := ReadsLines.line 0 [sizeWord known]
    (List.forall_mem_singleton.mpr (size_constant known).raw) _
    fun piece same => read_piece piece _ _ same other
  rw [List.replicate_zero, List.nil_append, List.intercalate_singleton] at line
  exact line.ended

/-- The lines of a read, a test and its branches, of which the second goes on. They are kept apart
as the generator makes them. -/
def probeCode (offset size known : Nat) (rest : List (List (Line (List Text) Unit))) :
    List (List (Line (List Text) Unit)) :=
  [[.command clearWords], [.command (probeWords rambase offset size)],
    [.command failedWords, .begin ()], [.command [sizeWord known]], [.otherwise]] ++ rest ++ [[.close]]

/-- They are two commands and a conditional behind its test. -/
theorem probe_code_flat (offset size known : Nat) (rest : List (List (Line (List Text) Unit))) :
    (probeCode rambase offset size known rest).flatten =
      .command clearWords :: .command (probeWords rambase offset size) :: .command failedWords ::
        (.begin () :: [.command [sizeWord known]] ++ .otherwise :: rest.flatten ++ [.close]) := by
  simp [probeCode]

/-- The lines around them are read as they should be. -/
theorem frame_lines_read :
    Reads ("echo ".toList ++ restoreCursor ++ clearRegion) [.command clearWords] ∧
      Reads "if test $? -eq 1; then\n".toList [.command failedWords, .begin ()] ∧
      Reads "else\n".toList [.otherwise] ∧ Reads "fi;\n".toList [.close] :=
  ⟨fun _ => rfl, fun _ => rfl, fun _ => rfl, fun _ => rfl⟩

end Words

section Meanings

variable {hardware : Hardware} {rambase : Text}

/-- The words that read are gentle. They read a flash that has been probed into the memory, at the
address that the variable names; a word that is no number makes the command fail, which changes
nothing either. -/
theorem gentle_probe_read (loose : Loose rambase) (closed : Char.ofNat 0x7D ∉ rambase)
    (offset size : Nat) : Gentle hardware rambase (probeWords rambase offset size) := by
  refine gentle_read fun board command read => ?_
  have expanded : board.expandWords (probeWords rambase offset size) =
      ["sf".toList, "read".toList, board.report rambase, Text.hex offset, Text.hex size] := by
    simp only [Board.expandWords, probeWords, List.map_cons, List.map_nil,
      (by decide : Constant "sf".toList).expanded, (by decide : Constant "read".toList).expanded,
      expand_variable _ _ rambase loose closed, (constant_hex _).expanded]
    rfl
  rw [expanded] at read
  cases number : boardNumber (board.report rambase) with
  | some address =>
    rw [(read_move _ _ _ _ _ _ number (board_number_hex offset) (board_number_hex size)).1] at read
    cases read
    rw [BoardCommand.exec]
    split
    · exact ⟨rfl, id, rfl, fun _ _ => rfl, id⟩
    · exact ⟨rfl, id, rfl, fun _ _ => rfl, id⟩
  | none =>
    have silent := asks_none ["read".toList, board.report rambase, Text.hex offset] (Text.hex size)
      (board_number_colon _ _ (board_number_hex size))
    simp only [List.cons_append, List.nil_append] at silent
    rw [readCommand, if_neg (by decide), silent, if_neg (by decide), if_pos rfl] at read
    simp [readFlashCommand, number] at read

/-- What is expanded of the words that test. -/
theorem failed_expanded (board : Board) : board.expandWords failedWords =
    ["test".toList, Text.decimal board.status, "-eq".toList, ['1']] := by
  simp only [Board.expandWords, failedWords, List.map_cons, List.map_nil,
    (by decide : Constant "test".toList).expanded, (by decide : Constant "-eq".toList).expanded,
    (by decide : Constant ['1']).expanded]
  have status : expandFrom board.values.get board.status .text (bareWord false "$?".toList) =
      Text.decimal board.status ++ [] := rfl
  rw [status, List.append_nil]

/-- The words that test are gentle. They compare the status with a one, whatever the board's status
is. -/
theorem gentle_failed : Gentle hardware rambase failedWords := by
  refine gentle_read fun board command read => ?_
  rw [failed_expanded] at read
  have silent : asksSession [Text.decimal board.status, "-eq".toList, ['1']] = false := rfl
  rw [readCommand, if_neg (by decide), silent, if_neg (by decide), if_neg (by decide),
    if_neg (by decide), if_neg (by decide), if_neg (by decide), if_neg (by decide),
    if_neg (by decide), if_pos rfl] at read
  have one : Text.parseInteger 10 ['1'] = some 1 := by decide
  cases number : Text.parseInteger 10 (Text.decimal board.status) with
  | none => simp [readTest, number] at read
  | some value =>
    simp only [readTest, number, one, bind, Option.bind_some, if_true, Option.some.injEq] at read
    subst read
    exact ⟨rfl, id, rfl, fun _ _ => rfl, id⟩

/-- The word that sets the size means just that. No other command begins with that name and an
equals sign. -/
theorem read_size (known : Nat) :
    readCommand [sizeWord known] = some (.setVariable "size".toList (Text.hex known)) := by
  have front : (sizeWord known).take 5 = "size=".toList := rfl
  have other (verb : Text) (foreign : verb.take 5 ≠ "size=".toList) : sizeWord known ≠ verb := by
    rintro rfl
    exact foreign front
  have cut : Sequences.partition '=' (sizeWord known) = ("size".toList, true, Text.hex known) :=
    Sequences.partition_append '=' "size".toList (Text.hex known) (by decide)
  have silent : asksSession [] = false := rfl
  have named : isIdentifier "size".toList = true := by decide
  rw [readCommand, if_neg (not_or.mpr ⟨other _ (by decide), other _ (by decide)⟩), silent,
    if_neg (by decide), if_neg (other _ (by decide)), if_neg (other _ (by decide)),
    if_neg (other _ (by decide)), if_neg (other _ (by decide)), if_neg (other _ (by decide)),
    if_neg (other _ (by decide)), if_neg (other _ (by decide)), if_neg (other _ (by decide))]
  simp only [readShellVariable, cut, Bool.true_and, named, if_true]

/-- It is gentle if the size is not the load address. -/
theorem gentle_size (apart : rambase ≠ "size".toList) (known : Nat) :
    Gentle hardware rambase [sizeWord known] := by
  refine gentle_read fun board command read => ?_
  have expanded : board.expandWords [sizeWord known] = [sizeWord known] := by
    simp only [Board.expandWords, List.map_cons, List.map_nil, (size_constant known).expanded]
  rw [expanded, read_size] at read
  cases read
  exact unharmed_set board _ _ 0 (Ne.symm apart) (by decide)

end Meanings

section Probes

variable {hardware : Hardware} {rambase : Text}

/-- A board whose flash has been found and whose load address is a number. Nothing more is needed to
probe for the size. -/
structure Found (rambase : Text) (board : Board) : Prop where
  idle : board.waiting = none
  probed : board.probed = true
  located : ∃ base, boardNumber (board.report rambase) = some base

/-- It stays so. -/
theorem Found.kept {before after : Board} (found : Found rambase before)
    (unharmed : Unharmed rambase before after) : Found rambase after := by
  refine ⟨unharmed.idle found.idle, unharmed.probed found.probed, ?_⟩
  rw [Board.report, unharmed.loads]
  exact found.located

/-- The status behind a read tells whether the range ends within the flash. A read beyond it fails
and leaves the memory as it was. -/
theorem probe_read_status (loose : Loose rambase) (closed : Char.ofNat 0x7D ∉ rambase)
    (board : Board) (found : Found rambase board) (offset size : Nat) :
    (Board.execWords hardware (probeWords rambase offset size) board).status =
      if offset + size ≤ hardware.capacity then 0 else 1 := by
  obtain ⟨base, located⟩ := found.located
  have expanded : board.expandWords (probeWords rambase offset size) =
      ["sf".toList, "read".toList, board.report rambase, Text.hex offset, Text.hex size] := by
    simp only [Board.expandWords, probeWords, List.map_cons, List.map_nil,
      (by decide : Constant "sf".toList).expanded, (by decide : Constant "read".toList).expanded,
      expand_variable _ _ rambase loose closed, (constant_hex _).expanded]
    rfl
  have read := (read_move (board.report rambase) (Text.hex offset) (Text.hex size) base offset size
    located (board_number_hex offset) (board_number_hex size)).1
  rw [← expanded] at read
  rw [exec_known found.idle _ _ read, BoardCommand.exec]
  simp only [found.probed, true_and]
  split <;> rfl

/-- The test succeeds if the command before it failed. The status of a command is zero or one, and
the test compares its decimal digits with a one. -/
theorem failed_succeeds (board : Board) (idle : board.waiting = none)
    (known : board.status = 0 ∨ board.status = 1) :
    succeeded () (Board.execWords hardware failedWords board) = decide (board.status = 1) := by
  have one : Text.parseInteger 10 ['1'] = some 1 := by decide
  have silent (first : Text) : asksSession [first, "-eq".toList, ['1']] = false := rfl
  have compares (first : Text) (number : Int) (parses : Text.parseInteger 10 first = some number) :
      readCommand ["test".toList, first, "-eq".toList, ['1']] =
        some (.compare (decide (number = 1))) := by
    rw [readCommand, if_neg (by decide), silent, if_neg (by decide), if_neg (by decide),
      if_neg (by decide), if_neg (by decide), if_neg (by decide), if_neg (by decide),
      if_neg (by decide), if_pos rfl]
    simp only [readTest, parses, one, bind, Option.bind_some, if_true]
  have expanded := failed_expanded board
  rcases known with zero | failed
  · rw [zero] at expanded
    have read := expanded ▸ compares (Text.decimal 0) 0 (by decide)
    rw [exec_known idle _ _ read, zero]
    rfl
  · rw [failed] at expanded
    have read := expanded ▸ compares (Text.decimal 1) 1 (by decide)
    rw [exec_known idle _ _ read, failed]
    rfl

/-- The size is set. -/
theorem size_set (board : Board) (idle : board.waiting = none) (known : Nat) :
    (Board.execWords hardware [sizeWord known] board).values.get "size".toList =
      some (Text.hex known) := by
  have expanded : board.expandWords [sizeWord known] = [sizeWord known] := by
    simp only [Board.expandWords, List.map_cons, List.map_nil, (size_constant known).expanded]
  have read := read_size known
  rw [← expanded] at read
  rw [exec_known idle _ _ read]
  exact Dict.get_set_self _ _ _

/-- The lines of a probe are gentle, and leave the size that it finds.

Proof: by induction on the generator. Behind a read that fails the size known so far is set; the
lines for the doubled size are run behind one that succeeds, on a board whose flash is still found. -/
theorem probe_performed (hardware : Hardware) (loose : Loose rambase)
    (closed : Char.ofNat 0x7D ∉ rambase)
    (apart : rambase ≠ "size".toList) (size : Nat) (maxSize : Int) (known offset : Nat)
    (present : 0 < size) :
    ∃ (function : Board → Board) (number : Nat),
      Performs hardware (ubootNorGenProbe (expansion rambase) size maxSize known offset none present)
        function ∧
      (∀ board, Unharmed rambase board (function board)) ∧
      ProbeFinds size maxSize offset hardware.capacity known number ∧
      ∀ board, Found rambase board →
        (function board).values.get "size".toList = some (Text.hex number) := by
  generalize start : (known : Int) = knownGood
  fun_induction ubootNorGenProbe (expansion rambase) size maxSize knownGood offset none present
    generalizing known with
  | case1 size knownGood present large =>
    subst start
    refine ⟨Board.execWords hardware [sizeWord known], known, ⟨[[.command [sizeWord known]]],
      .cons (size_line_reads known) .nil, .command _ .nil, ?_⟩, gentle_size apart known,
      finds_known (.inl large), fun board found => size_set board found.idle known⟩
    intro words member
    simp only [List.flatten_singleton, List.mem_singleton, Line.command.injEq] at member
    subst member
    exact fun board idle => (gentle_size apart known board).idle idle
  | case2 size knownGood present small inductionHypothesis =>
    subst start
    obtain ⟨function, number, ⟨code, reads, computes, prompt⟩, unharmed, finds, leaves⟩ :=
      inductionHypothesis size rfl
    obtain ⟨clears, tests, otherwise, closes⟩ := frame_lines_read
    let tested := fun board => Board.execWords hardware failedWords
      (Board.execWords hardware (probeWords rambase offset size)
        (Board.execWords hardware clearWords board))
    have clearing : Gentle hardware rambase clearWords := gentle_echo _
    have reading : Gentle hardware rambase (probeWords rambase offset size) :=
      gentle_probe_read loose closed offset size
    have testing : Gentle hardware rambase failedWords := gentle_failed
    have setting : Gentle hardware rambase [sizeWord known] := gentle_size apart known
    have front (board : Board) : Unharmed rambase board (tested board) :=
      ((clearing board).trans (reading _)).trans (testing _)
    refine ⟨fun board => if succeeded () (tested board) then
        Board.execWords hardware [sizeWord known] (tested board) else function (tested board),
      if offset + size ≤ hardware.capacity then number else known,
      ⟨probeCode rambase offset size known code, ?_, ?_, ?_⟩, fun board => ?_, ?_,
      fun board found => ?_⟩
    · exact List.rel_append (List.rel_append (.cons clears (.cons
        (probe_line_reads rambase loose offset size) (.cons tests (.cons (size_line_reads known)
          (.cons otherwise .nil))))) reads) (.cons closes .nil)
    · rw [probe_code_flat]
      exact .command _ (.command _ (.command _ (.conditional () (.command _ .nil) computes)))
    · rw [probe_code_flat]
      intro words member board idle
      simp only [List.mem_cons, List.mem_append, Line.command.injEq, reduceCtorEq, false_or,
        or_false, List.not_mem_nil, List.cons_append, List.nil_append] at member
      rcases member with rfl | rfl | rfl | rfl | inside
      · exact (clearing board).idle idle
      · exact (reading board).idle idle
      · exact (testing board).idle idle
      · exact (setting board).idle idle
      · exact prompt words inside board idle
    · cases fails : succeeded () (tested board) with
      | true =>
        simp only [fails, if_true]
        exact (front board).trans (setting _)
      | false =>
        simp only [fails, Bool.false_eq_true, if_false]
        exact (front board).trans (unharmed _)
    · by_cases readable : offset + size ≤ hardware.capacity
      · rw [if_pos readable]
        exact finds_rest (by omega) (by omega) finds
      · rw [if_neg readable]
        exact finds_known (.inr (by omega))
    · have cleared := found.kept (clearing board)
      have ended := found.kept (front board)
      let read := Board.execWords hardware (probeWords rambase offset size)
        (Board.execWords hardware clearWords board)
      have status : read.status = if offset + size ≤ hardware.capacity then 0 else 1 :=
        probe_read_status loose closed _ cleared offset size
      have binary : read.status = 0 ∨ read.status = 1 := by
        rw [status]
        split <;> simp
      have test : succeeded () (tested board) = decide (read.status = 1) :=
        failed_succeeds read ((reading _).idle cleared.idle) binary
      by_cases readable : offset + size ≤ hardware.capacity
      · rw [if_pos readable] at status ⊢
        have passes : succeeded () (tested board) = false := by
          rw [test, status]
          decide
        simp only [passes, Bool.false_eq_true, if_false]
        exact leaves _ ended
      · rw [if_neg readable] at status ⊢
        have fails : succeeded () (tested board) = true := by
          rw [test, status]
          decide
        simp only [fails, if_true]
        exact size_set _ ended.idle known

end Probes

end UbootTftp
