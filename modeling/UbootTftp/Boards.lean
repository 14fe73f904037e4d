import UbootTftp.CodeRefinement
import UbootTftp.ConditionalScripts
import UbootTftp.HexNumbers
import UbootTftp.Overlays
import UbootTftp.QuotedSplits
import UbootTftp.TextExports
import UbootTftp.UbootScripts

/-!
# A board that runs scripts

What the commands of a script do on a board, as far as the snippets of the server use them. A
script is cut into commands at newlines and semicolons, and a command into words at blanks, but
not inside of double quotes. Variables are put in for their expansions; those of the shell and
those of the environment are kept together. Numbers are hexadecimal with or without a prefix, but
`test` compares decimal ones. A command that is not known or cannot be carried out leaves
everything but the status as it is.

Writing to a NOR flash only clears bits; erasing sets those of whole sectors. A command that asks
for a name with `:id=` in it talks to the session of the server; what follows it depends on the
answer, so a board waits there.
-/

namespace UbootTftp

open ConditionalScripts (Line)
open Overlays (replaced copyUp)
open QuotedSplits (cut)

/-- What a board is built of and connected to. The server's other files are a function of the
address and the name, so that fetching changes nothing at the server. -/
structure Hardware where
  /-- The width of an address in bits. -/
  wordSize : Nat
  /-- The size of the flash in bytes. -/
  capacity : Nat
  /-- The size of the sectors in which the flash is erased. -/
  sector : Nat
  /-- What a server hands out for its address and a name. -/
  served : Text → Option Bytes

/-- The state of a board. Memory and flash have no end here: what a command does beyond the capacity
is excluded by its own check, and addresses wrap only in sums. -/
structure Board where
  values : Dict Text Text
  memory : Nat → UInt8
  flash : Nat → UInt8
  probed : Bool
  status : Nat
  /-- The command that waits for the session of the server. -/
  waiting : Option (List Text)

section Words

/-- Where the expansion of a word stands. -/
inductive Expanding
  | text
  | dollar
  | name (read : Text)

/-- A word with the values of its variables. An expansion that is not closed stands for itself, and
a variable without a value for nothing. -/
def expandFrom (lookup : Text → Option Text) (status : Nat) : Expanding → Text → Text
  | .text, [] => []
  | .text, character :: rest =>
    if character = '$' then expandFrom lookup status .dollar rest
    else character :: expandFrom lookup status .text rest
  | .dollar, [] => ['$']
  | .dollar, character :: rest =>
    if character = Char.ofNat 0x7B then expandFrom lookup status (.name []) rest
    else if character = '?' then Text.decimal status ++ expandFrom lookup status .text rest
    else '$' :: character :: expandFrom lookup status .text rest
  | .name read, [] => '$' :: Char.ofNat 0x7B :: read
  | .name read, character :: rest =>
    if character = Char.ofNat 0x7D then (lookup read).getD [] ++ expandFrom lookup status .text rest
    else expandFrom lookup status (.name (read ++ [character])) rest

/-- A word without its quotes and with the characters behind backslashes. What is behind a backslash
is kept even if it is a quote or another backslash. -/
def bareWord (literal : Bool) : Text → Text
  | [] => []
  | character :: rest =>
    if literal then character :: bareWord false rest
    else if character = '\\' then bareWord true rest
    else if character = '"' then bareWord false rest
    else character :: bareWord false rest

/-- Whether a character stands between words. -/
def isBlank (character : Char) : Bool := decide (character = ' ')

/-- The words of a command. -/
def wordsOf (piece : Text) : List Text :=
  (cut '\\' '"' isBlank .plain piece).filter (fun word => decide (word ≠ []))

/-- A hexadecimal number. With or without `0x` in front of it, but not empty. -/
def boardNumber (word : Text) : Option Nat :=
  let digits := if "0x".toList.isPrefixOf word then word.drop 2 else word
  if digits = [] then none
  else (digits.mapM (digitOf 16)).map
    (fun values => values.foldl (fun number digit => number * 16 + digit) 0)

end Words

/-- A command with its arguments. The words of a line are read into one of these before anything is
carried out, so that a line which is no command has no effect on the memory or the flash. -/
inductive BoardCommand
  | succeed
  | setVariable (name value : Text)
  | clearVariable (name : Text)
  | sum (name : Text) (left right : Nat)
  | fill (address value count : Nat)
  | copy (source target count : Nat)
  | probe
  | flashRead (address offset size : Nat)
  | flashWrite (address offset size : Nat)
  | flashErase (offset size : Nat)
  | fetch (address : Nat) (source : Text)
  | compare (same : Bool)
  | exportText (address : Nat)
  | request (words : List Text)

/-- Whether a command talks to the session of the server. -/
def asksSession (words : List Text) : Bool :=
  Sequences.occurs ":id=".toList (words.getLast?.getD [])

/-- The commands of the flash. Their numbers are all hexadecimal, and only erasing has two of them
instead of three. -/
def readFlashCommand : List Text → Option BoardCommand
  | [verb, _] => if verb = "probe".toList then some .probe else none
  | [verb, offset, size] =>
    if verb = "erase".toList then do
      let offset ← boardNumber offset
      let size ← boardNumber size
      some (.flashErase offset size)
    else none
  | [verb, address, offset, size] => do
    let address ← boardNumber address
    let offset ← boardNumber offset
    let size ← boardNumber size
    if verb = "read".toList then some (.flashRead address offset size)
    else if verb = "write".toList then some (.flashWrite address offset size)
    else none
  | _ => none

/-- Setting and clearing a variable. -/
def readAssignment : List Text → Option BoardCommand
  | [] => none
  | [name] => some (.clearVariable name)
  | name :: parts => some (.setVariable name (List.intercalate [' '] parts))

/-- A sum that is put into a variable. Other operators are not read, as no script uses them. -/
def readSum : List Text → Option BoardCommand
  | [name, left, operator, right] => do
    let left ← boardNumber left
    let right ← boardNumber right
    if operator = ['+'] then some (.sum name left right) else none
  | _ => none

/-- A range that is filled or copied. What is built of the three numbers is decided by the
caller. -/
def readRange (build : Nat → Nat → Nat → BoardCommand) : List Text → Option BoardCommand
  | [first, second, count] => do
    let first ← boardNumber first
    let second ← boardNumber second
    let count ← boardNumber count
    some (build first second count)
  | _ => none

/-- A file that is fetched. The name is not looked at here, only the address. -/
def readFetch : List Text → Option BoardCommand
  | [address, source] => do
    let address ← boardNumber address
    some (.fetch address source)
  | _ => none

/-- A comparison of two numbers. The numbers are decimal here, unlike those of the other
commands. -/
def readTest : List Text → Option BoardCommand
  | [left, operator, right] => do
    let left ← Text.parseInteger 10 left
    let right ← Text.parseInteger 10 right
    if operator = "-eq".toList then some (.compare (decide (left = right))) else none
  | _ => none

/-- An export of the variables as text. Only the export as text is read, and without a size. -/
def readExport : List Text → Option BoardCommand
  | [verb, format, address] => do
    let address ← boardNumber address
    if verb = "export".toList ∧ format = "-t".toList then some (.exportText address) else none
  | _ => none

/-- A variable of the shell. It is an assignment in a single word, to a name that is an
identifier. -/
def readShellVariable : List Text → Option BoardCommand
  | [word] =>
    let (name, separated, value) := Sequences.partition '=' word
    if separated && isIdentifier name then some (.setVariable name value) else none
  | _ => none

/-- What a command with expanded words means. Whatever the snippets do not use is no command, and
running it fails. -/
def readCommand : List Text → Option BoardCommand
  | [] => some .succeed
  | verb :: arguments =>
    if verb = "echo".toList ∨ verb = "true".toList then some .succeed
    else if asksSession arguments then some (.request (verb :: arguments))
    else if verb = "sf".toList then readFlashCommand arguments
    else if verb = "setenv".toList then readAssignment arguments
    else if verb = "setexpr".toList then readSum arguments
    else if verb = "mw.b".toList then readRange .fill arguments
    else if verb = "cp.b".toList then readRange .copy arguments
    else if verb = "tftpboot".toList then readFetch arguments
    else if verb = "test".toList then readTest arguments
    else if verb = "env".toList then readExport arguments
    else readShellVariable (verb :: arguments)

/-- What a command does. Each command sets the status, to zero if it has done what it should. A
flash command fails before the flash has been probed and where it reaches over the capacity, and
then it changes nothing. -/
def BoardCommand.exec (hardware : Hardware) : BoardCommand → Board → Board
  | .succeed, board => { board with status := 0 }
  | .setVariable name value, board =>
    { board with values := board.values.set name value, status := 0 }
  | .clearVariable name, board => { board with values := board.values.erase name, status := 0 }
  | .sum name left right, board =>
    { board with
      values := board.values.set name (Nat.toDigits 16 ((left + right) % 2 ^ hardware.wordSize))
      status := 0 }
  | .fill address value count, board =>
    { board with
      memory := replaced address count (fun _ => UInt8.ofNat value) board.memory
      status := 0 }
  | .copy source target count, board =>
    { board with memory := copyUp source target count board.memory, status := 0 }
  | .probe, board =>
    if hardware.capacity = 0 then { board with probed := false, status := 1 }
    else { board with probed := true, status := 0 }
  | .flashRead address offset size, board =>
    if board.probed ∧ offset + size ≤ hardware.capacity then
      { board with
        memory := replaced address size (fun place => board.flash (offset + place)) board.memory
        status := 0 }
    else { board with status := 1 }
  | .flashWrite address offset size, board =>
    if board.probed ∧ offset + size ≤ hardware.capacity then
      { board with
        flash := replaced offset size (fun place =>
          board.flash (offset + place) &&& board.memory (address + place)) board.flash
        status := 0 }
    else { board with status := 1 }
  | .flashErase offset size, board =>
    if board.probed ∧ hardware.sector ∣ offset ∧ hardware.sector ∣ size ∧
        offset + size ≤ hardware.capacity then
      { board with flash := replaced offset size (fun _ => 0xFF) board.flash, status := 0 }
    else { board with status := 1 }
  | .fetch address source, board =>
    match hardware.served source with
    | some body =>
      { board with
        memory := replaced address body.length (fun place => body.getD place 0) board.memory
        values := board.values.set "filesize".toList (Nat.toDigits 16 body.length)
        status := 0 }
    | none => { board with status := 1 }
  | .compare same, board => { board with status := if same then 0 else 1 }
  | .exportText address, board =>
    let body := exportBytes '\n' board.values 1
    { board with
      memory := replaced address body.length (fun place => body.getD place 0) board.memory
      values := board.values.set "filesize".toList (Nat.toDigits 16 body.length)
      status := 0 }
  | .request words, board => { board with waiting := some words }

namespace Board

/-- The words of a command with the values of the variables. -/
def expandWords (board : Board) (words : List Text) : List Text :=
  words.map (fun word => expandFrom board.values.get board.status .text (bareWord false word))

/-- Run a command. A board that waits runs none, and a command that is not known sets the status and
nothing else. -/
def execWords (hardware : Hardware) (words : List Text) (board : Board) : Board :=
  if board.waiting.isSome then board
  else match readCommand (board.expandWords words) with
    | some command => command.exec hardware board
    | none => { board with status := 1 }

end Board

section Scripts

/-- A command, unless there are no words. -/
def commandLine (words : List Text) : List (Line (List Text) Unit) :=
  if words = [] then [] else [.command words]

/-- What a command of a script is in its conditionals. A test is a command, so that `if` is read as
the test and the beginning of the conditional behind it. -/
def readPiece (piece : Text) : List (Line (List Text) Unit) :=
  match wordsOf piece with
  | [] => []
  | first :: words =>
    if first = "if".toList then [.command words, .begin ()]
    else if first = "then".toList then commandLine words
    else if first = "else".toList then .otherwise :: commandLine words
    else if first = "fi".toList then [.close]
    else [.command (first :: words)]

/-- Whether a character ends a command. -/
def endsCommand (character : Char) : Bool := decide (character = ';' ∨ character = '\n')

/-- The lines of a script. -/
def scriptLines (text : Text) : List (Line (List Text) Unit) :=
  (cut '\\' '"' endsCommand .plain text).flatMap readPiece

/-- Whether the last command succeeded. -/
def succeeded (_ : Unit) (board : Board) : Bool := decide (board.status = 0)

/-- A board that reads a script, with the lines that are left. -/
structure Reading where
  state : ConditionalScripts.State Board
  lines : List (Line (List Text) Unit)

/-- Run lines until the board waits, or to the end. An `else` or `fi` of no conditional ends the
script.

The lines that are left belong to the result, since a board goes on with them when it has its
answer. -/
def Board.follow (hardware : Hardware) :
    List (Line (List Text) Unit) → ConditionalScripts.State Board → Reading
  | [], state => ⟨state, []⟩
  | line :: lines, state =>
    if state.store.waiting.isSome then ⟨state, line :: lines⟩
    else match ConditionalScripts.step (Board.execWords hardware) succeeded state line with
      | some next => Board.follow hardware lines next
      | none => ⟨state, []⟩

/-- Begin a script. A board that has waited for something else does not wait for it any more. -/
def Board.source (hardware : Hardware) (text : Text) (board : Board) : Reading :=
  Board.follow hardware (scriptLines text) ⟨true, [], { board with waiting := none }⟩

/-- Go on when the command that the board has waited for is over. -/
def Reading.proceed (hardware : Hardware) (status : Nat) (reading : Reading) : Reading :=
  Board.follow hardware reading.lines { reading.state with
    store := { reading.state.store with waiting := none, status := status } }

end Scripts

end UbootTftp
