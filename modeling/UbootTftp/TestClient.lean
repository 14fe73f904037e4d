import UbootTftp.Numbers
import UbootTftp.Scans
import UbootTftp.Scripted

/-!
# The simulated client

`test_client` plays a camera: it reads the transfers of a script with two regular expressions,
carries out the uploads and asks for the next script. The expressions are read here piece by
piece. In each of them no symbol of a class that is repeated can follow the repetition, so a
repetition takes as much as it can.
-/

namespace UbootTftp

namespace TestClient

universe u
variable {β : Type u}

/-- A transfer to the server that a script asks for, with its size as a number. -/
structure UploadAction where
  command : Text
  server : Text
  remote : Text
  size : Int
  deriving DecidableEq

/-- A transfer from the server that a script asks for. -/
structure DownloadAction where
  command : Text
  server : Text
  remote : Text
  deriving DecidableEq

/-- The transfers of a script in the order in which they are found. The two kinds are searched for
one after the other, so their common order is lost. -/
structure FlowActions where
  uploads : List UploadAction
  downloads : List DownloadAction
  deriving DecidableEq

/-- The class `[A-Za-z0-9_]`. -/
def isCommandChar (character : Char) : Bool := character.isAlphanum || character == '_'

/-- The class `[0-9A-Fa-f]`. -/
def isHexChar (character : Char) : Bool := (hexDigit character).isSome

/-- The class `\d`: a decimal digit of any script, of which the number is read with `int`. -/
def isDecimalChar (character : Char) : Bool := (Text.asciiDigit character).isDigit

section Patterns

/-- `(?P<command>[A-Za-z0-9_]+)\s+\$\{[^}]+\}`. -/
def readCommand : Scans.Pattern Char Text := fun text => do
  let (command, rest) ← Scans.run isCommandChar text
  let (_, rest) ← Scans.run Text.isSpace rest
  let rest ← Scans.literal "$\x7b".toList rest
  let (_, rest) ← Scans.run (· != '}') rest
  let rest ← Scans.literal "\x7d".toList rest
  some (command, rest)

/-- `"(?P<server>[^":]+):(?P<remote>id=[^"]+)"`. -/
def readTarget : Scans.Pattern Char (Text × Text) := fun text => do
  let rest ← Scans.literal "\"".toList text
  let (server, rest) ← Scans.run (fun character => character != '"' && character != ':') rest
  let rest ← Scans.literal ":id=".toList rest
  let (remote, rest) ← Scans.run (· != '"') rest
  let rest ← Scans.literal "\"".toList rest
  some ((server, "id=".toList ++ remote), rest)

/-- `\s+`. -/
def readGap : Scans.Pattern Char Unit := fun text => do
  let (_, rest) ← Scans.run Text.isSpace text
  some ((), rest)

/-- `0x[0-9A-Fa-f]+|\d+`. Where the first alternative matches, the second one could match the
zero only, which no space follows. -/
def readNumber : Scans.Pattern Char Text := fun text =>
  match (Scans.literal "0x".toList text).bind (Scans.run isHexChar) with
  | some (digits, rest) => some ("0x".toList ++ digits, rest)
  | none => Scans.run isDecimalChar text

/-- `\s+(?P<size>0x[0-9A-Fa-f]+|\d+)\s+`. -/
def readSize : Scans.Pattern Char Text := fun text => do
  let (_, rest) ← Scans.run Text.isSpace text
  let (size, rest) ← readNumber rest
  let (_, rest) ← Scans.run Text.isSpace rest
  some (size, rest)

/-- What the groups of a match hold: the command, what is read between the address and the
target, the server and the remote name. -/
structure Groups (β : Type u) where
  command : Text
  between : β
  server : Text
  remote : Text

/-- A command with an address in the memory and a target, and something between them. The parts are
read in a row, so there may be no other text between them. -/
def readTransfer (between : Scans.Pattern Char β) : Scans.Pattern Char (Groups β) := fun text =>
  (readCommand text).bind fun (command, rest) =>
    (between rest).bind fun (value, rest) =>
      (readTarget rest).bind fun ((server, remote), rest) =>
        some (⟨command, value, server, remote⟩, rest)

/-- `UPLOAD_RE` behind its `\b`: a command, an address, a size and a target with an id. -/
def uploadRe : Scans.Pattern Char (Groups Text) := readTransfer readSize

/-- `DOWNLOAD_RE` behind its `\b`. -/
def downloadRe : Scans.Pattern Char (Groups Unit) := readTransfer readGap

/-- `finditer` of an expression that begins with `\b` and a word character: no word character
stands before a match. -/
def finditer (isWord : Char → Bool) (pattern : Scans.Pattern Char β) (script : Text) : List β :=
  Scans.scan (fun before => before.all (fun character => !isWord character)) pattern script

end Patterns

/-- `parse_flow_actions`; `none` stands for the `ValueError` of `int`. Which characters besides
ASCII are word characters is given. -/
def parseFlowActions (isWord : Char → Bool) (script : Text) : Option FlowActions := do
  let uploads ← (finditer isWord uploadRe script).mapM fun groups =>
    (Text.parseInteger 0 groups.between).map fun size =>
      UploadAction.mk groups.command groups.server groups.remote size
  let uploadRemotes := uploads.map (·.remote)
  let downloads := (finditer isWord downloadRe script).filter
    (fun groups => decide (groups.remote ∉ uploadRemotes))
  some ⟨uploads, downloads.map fun groups =>
    DownloadAction.mk groups.command groups.server groups.remote⟩

/-- `UBOOT_VAR_RE` with the replacement of a match. A variable that is not set is left as it
stands. -/
def ubootVarRe (env : Dict Text Text) : Scans.Pattern Char Text := fun text => do
  let rest ← Scans.literal "$\x7b".toList text
  let (name, rest) ← Scans.run (· != '}') rest
  let rest ← Scans.literal "\x7d".toList rest
  some ((env.get name).getD (expansion name), rest)

/-- `_substitute_uboot_vars`. -/
def substituteUbootVars (value : Text) (env : Dict Text Text) : Text :=
  Scans.replace (ubootVarRe env) value

/-- `choose_next_remote`. If none of the continuations is for the wanted outcome the first one is
taken. -/
def chooseNextRemote (actions : FlowActions) (env : Dict Text Text) (preferRecv : Option Text) :
    Option Text :=
  let preferred := preferRecv.bind fun status =>
    actions.downloads.find? (fun download =>
      Sequences.occurs ("/recv=".toList ++ status) download.remote)
  (preferred.or actions.downloads.head?).map (fun download =>
    substituteUbootVars download.remote env)

end TestClient

end UbootTftp
