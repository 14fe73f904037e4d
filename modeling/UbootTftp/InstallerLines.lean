import UbootTftp.BoardProbes
import UbootTftp.InstallerRequests

/-!
# The lines of the installer on a board

What the scripts of the installer do on a board that neither back it up nor write its flash. They
are gentle; besides, the probe for a flash leaves it probed, the probe for its size leaves the
size, and an export leaves the variables of the board in its memory and the number of the bytes in
a variable.
-/

namespace Text

/-- A text whose characters are all kept is not stripped. -/
theorem strip_kept (drop : Char → Bool) (text : Text)
    (kept : ∀ character ∈ text, drop character = false) :
    Sequences.strip drop text = text := by
  cases text with
  | nil => rfl
  | cons first rest =>
    rw [Sequences.strip, List.dropWhile_cons_of_neg (by simp [kept first (by simp)])]
    exact Sequences.rdrop_kept drop [] (first :: rest) (List.cons_ne_nil _ _) kept

/-- `int` with base 16 reads hexadecimal digits. Unlike `int` with base 0 it expects no `0x` in
front of them, and there is nothing to be stripped. -/
theorem parse_digits (number : Nat) :
    parseInteger 16 (strip (Nat.toDigits 16 number)) = some (number : Int) := by
  have solid := to_digits_hex (fun character => isSpace character = false) (by decide) number
  have spaceless := to_digits_hex (fun character => isIntegerSpace character = false) (by decide) number
  have ascii := to_digits_hex (fun character => asciiDigit character = character) (by decide) number
  have signs := to_digits_hex (fun character => character ≠ '-' ∧ character ≠ '+') (by decide) number
  have letters := to_digits_hex (fun character => announcedRadix character ≠ some 16) (by decide) number
  have value := digits_value_hex number
  have present := to_digits_present number
  rw [strip, strip_kept _ _ solid, parseInteger, strip_kept _ _ spaceless,
    (List.map_congr_left ascii).trans (List.map_id _)]
  generalize Nat.toDigits 16 number = digits at signs letters value present ⊢
  have read : magnitude 16 digits = some number := by
    unfold magnitude
    simp only [ne_eq, OfNat.ofNat_ne_zero, not_false_eq_true, if_true, false_or, value]
    split
    · rename_i letter rest
      split
      · rename_i radix announced
        have other : (16 : Nat) ≠ radix := by
          rintro rfl
          exact letters letter (by simp) announced
        rw [if_neg other]
      · rfl
    · rfl
  split
  · exact absurd rfl (signs '-' (by simp)).1
  · exact absurd rfl (signs '+' (by simp)).2
  · rw [read]
    rfl

end Text

namespace UbootTftp

open CodeRefinement (run)
open ConditionalScripts (Line Computes)
open OpenIpc (message openMessage probeLines readdressLines)
open Overlays (replaced)

variable {hardware : Hardware} {rambase : Text}

section Greetings

/-- The lines of the probe for a shell. -/
def hushLines : List Text :=
  [ubootTermReset, ubootMsg "Checking hush shell... ".toList .green true true,
    "if true; then setenv hush_shell true; fi".toList]

/-- They are its script. -/
theorem hush_lines_joined : Text.joinLines hushLines = hushProbeScript := rfl

/-- The words that report a shell. -/
def hushWords : List Text := ["setenv".toList, hushKey, "true".toList]

/-- The lines of the probe for a shell are gentle, and report one. A board as it is modelled always
has a shell that understands conditionals. -/
theorem hush_performed (hardware : Hardware) (apart : rambase ≠ hushKey) :
    ∃ function, Performs hardware hushLines function ∧
      (∀ board, Unharmed rambase board (function board)) ∧
      ∀ board, board.waiting = none → (function board).report hushKey = "true".toList := by
  have reset : GentleLines hardware rambase [ubootTermReset] :=
    gentle_commands _ [["echo".toList, quote _]] (echo_reads _ (by decide))
      (List.forall_mem_singleton.mpr (gentle_echo _))
  have shown : Echoed (ubootMsg "Checking hush shell... ".toList .green true true) :=
    .message _ _ _ _ (by decide)
  obtain ⟨first, shows, gentle⟩ := reset.append shown.gentle
  have testing : Gentle hardware rambase ["true".toList] := by
    refine gentle_read fun board command read => ?_
    cases read
    exact ⟨rfl, id, rfl, fun _ _ => rfl, id⟩
  have setting : Gentle hardware rambase hushWords :=
    gentle_setenv _ _ (by decide) (by decide) (Ne.symm apart) fun _ => rfl
  let tested := Board.execWords hardware ["true".toList]
  have guarded : Performs hardware ["if true; then setenv hush_shell true; fi".toList]
      (fun board => if succeeded () (tested board) then
        Board.execWords hardware hushWords (tested board) else tested board) := by
    refine ⟨[[.command ["true".toList], .begin (), .command hushWords, .close]],
      .cons (fun _ => rfl) .nil, .command _ (.guarded () (.command _ .nil)), ?_⟩
    intro words member board idle
    simp only [List.flatten_singleton, List.mem_cons, Line.command.injEq, reduceCtorEq, false_or,
      or_false, List.not_mem_nil] at member
    rcases member with rfl | rfl
    · exact (testing board).idle idle
    · exact (setting board).idle idle
  refine ⟨_, shows.append guarded, fun board => (gentle board).trans ?_, fun board idle => ?_⟩
  · split
    · exact (testing _).trans (setting _)
    · exact testing _
  · have still := (gentle board).idle idle
    have passes : succeeded () (tested (first board)) = true := by
      have ran : tested (first board) = { first board with status := 0 } :=
        exec_known still _ .succeed rfl
      rw [ran]
      rfl
    have ran : Board.execWords hardware hushWords (tested (first board)) =
        (BoardCommand.setVariable hushKey "true".toList).exec hardware (tested (first board)) :=
      exec_known ((testing (first board)).idle still) _ _ rfl
    simp only [passes, if_true]
    exact (congrArg (Board.report · hushKey) ran).trans (by
      simp [Board.report, BoardCommand.exec])

end Greetings

section Probing

/-- Echoes keep the variables. -/
theorem exec_echo_values (words : List Text) (board : Board) :
    (Board.execWords hardware ("echo".toList :: words) board).values = board.values := by
  rw [Board.execWords]
  split
  · rfl
  · have front : board.expandWords ("echo".toList :: words) =
        "echo".toList :: board.expandWords words := by
      simp only [Board.expandWords, List.map_cons, (by decide : Constant "echo".toList).expanded]
    rw [front, read_echo]
    rfl

/-- The words that probe for a flash. -/
def flashWords : List Text := ["sf".toList, "probe".toList, "0".toList]

/-- The words that set the status. -/
def statusWords : List Text := ["setenv".toList, "status".toList, "$?".toList]

/-- Where there is a flash its probe is gentle, leaves it probed and succeeds. Without a flash the
probe fails and its status is one, which the installer reports as a complaint. -/
theorem gentle_flash (rambase : Text) (present : hardware.capacity ≠ 0) :
    Gentle hardware rambase flashWords ∧
    ∀ board : Board, board.waiting = none →
      (Board.execWords hardware flashWords board).probed = true ∧
      (Board.execWords hardware flashWords board).status = 0 := by
  have expanded (board : Board) : board.expandWords flashWords = flashWords := by
    simp only [Board.expandWords, flashWords, List.map_cons, List.map_nil,
      (by decide : Constant "sf".toList).expanded, (by decide : Constant "probe".toList).expanded,
      (by decide : Constant "0".toList).expanded]
  have read (board : Board) : readCommand (board.expandWords flashWords) = some .probe := by
    rw [expanded]
    exact read_probe
  constructor
  · refine gentle_read fun board command known => ?_
    rw [read] at known
    cases known
    rw [BoardCommand.exec, if_neg present]
    exact ⟨rfl, fun _ => rfl, rfl, fun _ _ => rfl, id⟩
  · intro board idle
    rw [exec_known idle _ _ (read board), BoardCommand.exec, if_neg present]
    exact ⟨rfl, rfl⟩

/-- Behind a command that succeeded the variable is set to zero. This is how a script reports the
outcome of a command: the status is expanded into the value of a variable. -/
theorem status_set (board : Board) (idle : board.waiting = none) (passed : board.status = 0) :
    (Board.execWords hardware statusWords board).values.get "status".toList = some "0".toList := by
  have status : expandFrom board.values.get board.status .text (bareWord false "$?".toList) =
      Text.decimal board.status ++ [] := rfl
  have expanded : board.expandWords statusWords =
      ["setenv".toList, "status".toList, "0".toList] := by
    simp only [Board.expandWords, statusWords, List.map_cons, List.map_nil,
      (by decide : Constant "setenv".toList).expanded,
      (by decide : Constant "status".toList).expanded]
    rw [status, passed]
    rfl
  have read : readCommand (board.expandWords statusWords) =
      some (.setVariable "status".toList "0".toList) := by
    rw [expanded]
    rfl
  rw [exec_known idle _ _ read]
  exact Dict.get_set_self _ _ _

/-- The number of a status names no session. -/
theorem status_silent (board : Board) : Sequences.occurs ":id=".toList
    (expandFrom board.values.get board.status .text (bareWord false "$?".toList)) = false := by
  have status : expandFrom board.values.get board.status .text (bareWord false "$?".toList) =
      Text.decimal board.status ++ [] := rfl
  rw [status, List.append_nil]
  exact asks_none [] _ (decimal_without board.status ':' (by decide))

/-- The lines of the probe for a flash leave it probed, and report that it was found. They are a
message, the probe and the command that keeps its status. The function that they perform is not
named, only what it leaves. -/
theorem probe_lines_performed (hardware : Hardware) (present : hardware.capacity ≠ 0)
    (apart : rambase ≠ "status".toList) :
    ∃ function, Performs hardware probeLines function ∧
      (∀ board, Unharmed rambase board (function board)) ∧
      ∀ board, board.waiting = none → (function board).probed = true ∧
        (function board).values.get "status".toList = some "0".toList := by
  obtain ⟨first, shows, gentle⟩ := (OpenIpc.open_echoed
    (by decide : Unescaped "Probing NOR flash... ".toList)).gentle
  obtain ⟨probing, probed⟩ := gentle_flash rambase present
  have setting : Gentle hardware rambase statusWords :=
    gentle_setenv _ _ (by decide) (by decide) (Ne.symm apart) status_silent
  have probe := performs_commands "sf probe 0".toList [flashWords] (fun _ => rfl)
    (List.forall_mem_singleton.mpr probing)
  have status := performs_commands "setenv status $?".toList [statusWords] (fun _ => rfl)
    (List.forall_mem_singleton.mpr setting)
  refine ⟨_, shows.append (probe.append status), fun board => ?_, fun board idle => ?_⟩
  · exact ((gentle board).trans (probing _)).trans (setting _)
  · have ready := (gentle board).idle idle
    obtain ⟨found, passed⟩ := probed _ ready
    exact ⟨(setting _).probed found, status_set _ ((probing _).idle ready) passed⟩

/-- The lines of the probe for the size leave it in a variable: the number is the one that the
generator of the lines would find for the capacity of the flash. -/
theorem size_lines_performed (hardware : Hardware) (loose : Loose rambase)
    (closed : Char.ofNat 0x7D ∉ rambase)
    (apart : rambase ≠ "size".toList) (maxSize : Int) :
    ∃ (function : Board → Board) (number : Nat),
      Performs hardware (ubootNorGenProbe (expansion rambase) (2 ^ 20) maxSize 0 0 none (by decide) ++
        [message (expansion "size".toList)]) function ∧
      (∀ board, Unharmed rambase board (function board)) ∧
      ProbeFinds (2 ^ 20) maxSize 0 hardware.capacity 0 number ∧
      ∀ board, Found rambase board →
        (function board).values.get "size".toList = some (Text.hex number) := by
  obtain ⟨function, number, performs, unharmed, finds, leaves⟩ :=
    probe_performed hardware loose closed apart (2 ^ 20) maxSize 0 0 (by decide)
  let shown := [["echo".toList, quote (messageText (expansion "size".toList) .green false true)],
    ["echo".toList, quote saveCursor]]
  have echoes : ∀ words ∈ shown, Gentle hardware rambase words :=
    List.forall_mem_cons.mpr ⟨gentle_echo _, List.forall_mem_singleton.mpr (gentle_echo _)⟩
  have message := performs_commands _ shown
    (Reads.message (expansion "size".toList) .green false true
      (even_before_plain _ (by decide))) echoes
  refine ⟨_, number, performs.append message, fun board => (unharmed board).trans
    (run_gentle shown echoes _), finds, fun board found => ?_⟩
  have same : (run (Board.execWords hardware) shown (function board)).values =
      (function board).values :=
    (exec_echo_values [quote saveCursor] _).trans (exec_echo_values _ _)
  rw [same]
  exact leaves board found

end Probing

section Addresses

/-- What holds of a separator and of the characters of the parts holds of those of the whole. The
induction is on the parts, and the last one has no separator behind it. -/
theorem intercalate_each (holds : Char → Prop) (separator : Char) (separates : holds separator)
    (parts : List Text) (each : ∀ part ∈ parts, ∀ character ∈ part, holds character) :
    ∀ character ∈ List.intercalate [separator] parts, holds character := by
  induction parts with
  | nil =>
    intro character member
    cases member
  | cons part parts inductionHypothesis =>
    obtain ⟨first, later⟩ := List.forall_mem_cons.mp each
    cases parts with
    | nil =>
      rw [List.intercalate_singleton]
      exact first
    | cons other parts =>
      rw [List.intercalate_cons_cons]
      exact List.forall_mem_append.mpr ⟨List.forall_mem_append.mpr
        ⟨first, List.forall_mem_singleton.mpr separates⟩, inductionHypothesis later⟩

/-- A text of a hardware address: it stands for itself and names no session. Addresses that the
installer draws are such texts; those that a camera already has are not written into commands. -/
structure Address (text : Text) : Prop where
  constant : Constant text
  silent : Sequences.occurs ":id=".toList text = false

/-- Random bytes make one. There may be any number of them. The first byte is always 02, which marks
an address that is administered locally. -/
theorem random_address (randomBytes : List UInt8) :
    Address (List.intercalate [':'] ((0x02 :: randomBytes).map OpenIpc.hexByte)) := by
  have digits : ∀ digit < 16, Nat.digitChar digit ∉ [' ', ';', '\n', '"', '\\', '$', '='] := by decide
  have bytes : ∀ part ∈ (0x02 :: randomBytes).map OpenIpc.hexByte, ∀ character ∈ part,
      character ∉ [' ', ';', '\n', '"', '\\', '$', '='] := by
    intro part member character inside
    obtain ⟨octet, -, rfl⟩ := List.mem_map.mp member
    simp only [OpenIpc.hexByte, List.mem_cons, List.not_mem_nil, or_false] at inside
    rcases inside with rfl | rfl
    · exact digits _ (by have := octet.toNat_lt; omega)
    · exact digits _ (Nat.mod_lt _ (by decide))
  have each := intercalate_each (· ∉ [' ', ';', '\n', '"', '\\', '$', '=']) ':' (by decide) _ bytes
  refine ⟨⟨?_, fun character member inside => ?_, fun member => ?_⟩, ?_⟩
  · cases randomBytes <;> simp [OpenIpc.hexByte, List.intercalate_cons_cons]
  · exact each character member (List.mem_append_left ['$', '='] inside)
  · exact each '$' member (by decide)
  · rw [Bool.eq_false_iff]
    intro occurs
    obtain ⟨suffix, inside, begins⟩ := List.any_eq_true.mp occurs
    have member : '=' ∈ suffix := (List.isPrefixOf_iff_prefix.mp begins).subset (by decide)
    exact each '=' (((List.mem_tails suffix _).mp inside).subset member) (by decide)

/-- A changed hardware address is a random one. -/
theorem changed_address (randomBytes : List UInt8) (mac : Text)
    (changed : OpenIpc.genMac randomBytes mac ≠ mac) : Address (OpenIpc.genMac randomBytes mac) := by
  unfold OpenIpc.genMac at changed ⊢
  split
  · exact random_address randomBytes
  · rename_i own
    rw [if_neg own] at changed
    exact absurd rfl changed

/-- The lines that ask for a new address are gentle, and end with a message. `dhcp` is no command of
the board that is modelled, so it does nothing there and no new address is reported. -/
theorem readdress_gentle (hardware : Hardware) (ethaddr : Text) (address : Address ethaddr)
    (apart : rambase ∉ ["ethaddr".toList, "autoload".toList]) :
    GentleLines hardware rambase (readdressLines ethaddr) ∧
      Firm (Text.joinLines (readdressLines ethaddr)) := by
  simp only [List.mem_cons, List.not_mem_nil, or_false, not_or] at apart
  have unescaped : Unescaped ethaddr := fun member => address.constant.loose '\\' member (by decide)
  have asks : Echoed (message ("Getting new IP with ethaddr=".toList ++ ethaddr ++ "...".toList)) :=
    OpenIpc.message_echoed ((Unescaped.append (by decide) unescaped).append (by decide))
  have answers : Echoed (message ("Success: ip=".toList ++ expansion "ipaddr".toList ++
      " mask=".toList ++ expansion "netmask".toList ++ " gateway=".toList ++
        expansion "gatewayip".toList)) := OpenIpc.message_echoed (by decide)
  have hardwareAddress : GentleLines hardware rambase ["setenv ethaddr ".toList ++ ethaddr] := by
    refine gentle_commands _ [["setenv".toList, "ethaddr".toList, ethaddr]]
      (setenv_reads "ethaddr".toList ethaddr (.plain _ (by decide) (by decide)) address.constant.raw) ?_
    refine List.forall_mem_singleton.mpr (gentle_setenv _ _ (by decide) (by decide) (Ne.symm apart.1)
      fun board => ?_)
    rw [address.constant.expanded]
    exact address.silent
  have manual : GentleLines hardware rambase ["setenv autoload no".toList] :=
    gentle_commands _ [["setenv".toList, "autoload".toList, "no".toList]] (fun _ => rfl)
      (List.forall_mem_singleton.mpr (gentle_setenv _ _ (by decide) (by decide) (Ne.symm apart.2)
        fun _ => rfl))
  have unknown : GentleLines hardware rambase ["dhcp".toList] :=
    gentle_commands _ [["dhcp".toList]] (fun _ => rfl)
      (List.forall_mem_singleton.mpr (gentle_unknown _ (by decide) (by decide)))
  refine ⟨?_, ?_⟩
  · exact asks.gentle.append (hardwareAddress.append (manual.append (unknown.append answers.gentle)))
  · exact Firm.ended [_, _, _, _] answers.firm (by decide)

end Addresses

section Exports

/-- The words that export the environment. -/
def exportWords (rambase : Text) : List Text :=
  ["env".toList, "export".toList, "-t".toList, expansion rambase]

/-- What an export writes: the variables of the board as lines of text, with one NUL behind them. -/
def Board.exported (board : Board) : Bytes := exportBytes '\n' board.values 1

/-- The line that exports the environment is read as its command. The address behind it is an
expansion, which counts as part of a word. -/
theorem export_reads (loose : Loose rambase) :
    Reads ("env export -t ".toList ++ expansion rambase) [.command (exportWords rambase)] := by
  have front : "env export -t ".toList =
      "env".toList ++ ' ' :: "export".toList ++ ' ' :: "-t".toList ++ [' '] := rfl
  have shape : "env export -t ".toList ++ expansion rambase =
      List.intercalate [' '] (exportWords rambase) := by
    rw [front, exportWords]
    simp only [List.intercalate_cons_cons, List.intercalate_singleton, List.append_assoc,
      List.cons_append, List.nil_append]
  rw [shape]
  refine .line "env".toList _ (List.forall_mem_cons.mpr ⟨.plain _ (by decide) (by decide),
    List.forall_mem_cons.mpr ⟨.plain _ (by decide) (by decide), List.forall_mem_cons.mpr
      ⟨.plain _ (by decide) (by decide), List.forall_mem_singleton.mpr
        (raw_expansion rambase loose)⟩⟩⟩) (by decide)

/-- On a board that knows its load address it means an export. Its address is a number without a
colon, so the command is none that asks a session for something. -/
theorem export_words_read (loose : Loose rambase) (closed : Char.ofNat 0x7D ∉ rambase) (board : Board)
    (base : Nat) (located : boardNumber (board.report rambase) = some base) :
    readCommand (board.expandWords (exportWords rambase)) = some (.exportText base) := by
  have expanded : board.expandWords (exportWords rambase) =
      ["env".toList, "export".toList, "-t".toList, board.report rambase] := by
    simp only [Board.expandWords, exportWords, List.map_cons, List.map_nil,
      (by decide : Constant "env".toList).expanded, (by decide : Constant "export".toList).expanded,
      (by decide : Constant "-t".toList).expanded, expand_variable _ _ rambase loose closed]
    rfl
  have silent := asks_none ["export".toList, "-t".toList] (board.report rambase)
    (board_number_colon _ _ located)
  simp only [List.cons_append, List.nil_append] at silent
  rw [expanded, readCommand, if_neg (by decide), silent, if_neg (by decide), if_neg (by decide),
    if_neg (by decide), if_neg (by decide), if_neg (by decide), if_neg (by decide),
    if_neg (by decide), if_neg (by decide), if_pos rfl]
  simp [readExport, located]

end Exports

end UbootTftp
