import UbootTftp.Dict
import UbootTftp.Errors
import UbootTftp.Utf8

/-!
# Request filenames

A request filename is split at slashes, each segment is percent-decoded, and a
first segment `id=...` makes the request a session request. The remaining
segments of a session request are its message, and those of the form `key=value`
are also collected into a dictionary in which the last occurrence of a key wins.
-/

namespace UbootTftp

/-- The characters of the class `[A-Za-z0-9_-]`. -/
def isClientIdChar (character : Char) : Bool :=
  character.isAlphanum || character == '_' || character == '-'

/-- `CLIENT_ID_RE.match`: one or more characters of the class up to the end anchor, which also
matches before one trailing newline. -/
def clientIdMatches (text : Text) : Bool :=
  let body := if text.getLast? = some '\n' then text.dropLast else text
  body ≠ [] && body.all isClientIdChar

/-- A normalized client id: lower case and accepted by the pattern. The session store normalizes
every id it is given; on these it returns the id itself. The two facts are fields, so that no id of
another form can be stored. -/
structure ClientId where
  text : Text
  lowered : Text.lower text = text
  accepted : clientIdMatches text = true
  deriving DecidableEq

/-- A client id is its text. -/
theorem ClientId.text_injective (first second : ClientId) (same : first.text = second.text) :
    first = second := by
  cases first
  cases second
  cases same
  rfl

/-- Lower-case a client id and check its characters. The check sees the lowered text, and what it
raises names the text as it came. -/
def normalizeClientId (value : Text) : Except Raised ClientId :=
  if accepted : clientIdMatches (Text.lower value) = true then
    .ok ⟨Text.lower value, Text.lower_lower value, accepted⟩
  else .error (.invalidClientId value)

/-- A normalized id is unchanged by normalizing it again. -/
theorem normalize_again (client : ClientId) : normalizeClientId client.text = .ok client := by
  obtain ⟨text, lowered, accepted⟩ := client
  simp [normalizeClientId, lowered, accepted]

/-- The parsed form of a request filename. A request without a client id has a path and segments
too; they are those of the whole name. -/
structure ParsedPath where
  raw : Text
  clientId : Option ClientId
  path : Text
  segments : List Text
  values : Dict Text Text
  deriving DecidableEq

/-- A request that names a client id belongs to a session. -/
def ParsedPath.isSession (parsed : ParsedPath) : Bool := parsed.clientId.isSome

/-- The value of a hexadecimal digit of either case. Digits of other scripts are none. -/
def hexDigit (character : Char) : Option Nat :=
  if '0' ≤ character ∧ character ≤ '9' then some (character.toNat - '0'.toNat)
  else if 'a' ≤ character ∧ character ≤ 'f' then some (character.toNat - 'a'.toNat + 10)
  else if 'A' ≤ character ∧ character ≤ 'F' then some (character.toNat - 'A'.toNat + 10)
  else none

/-- The value of a digit in a radix up to sixteen. Of a letter or figure that has a value of its
own but not in this radix there is none. -/
def digitOf (radix : Nat) (character : Char) : Option Nat :=
  (hexDigit character).bind (fun digit => if digit < radix then some digit else none)

/-- The octet that a percent sign followed by two characters stands for. -/
def percentOctet (high low : Char) : Option UInt8 :=
  match hexDigit high, hexDigit low with
  | some upper, some lower => some (UInt8.ofNat (16 * upper + lower))
  | _, _ => none

/-- Percent-decode with the octets of the current ASCII run pending. A run ends at
the first non-ASCII character, which is kept, and its octets are then decoded as
UTF-8 with replacement. A percent sign without two digits stays as it is. -/
def unquoteRun : Bytes → Text → Text
  | pending, [] => Utf8.decode pending
  | pending, '%' :: high :: low :: rest =>
    match percentOctet high low with
    | some octet => unquoteRun (pending ++ [octet]) rest
    | none => unquoteRun (pending ++ [UInt8.ofNat '%'.toNat]) (high :: low :: rest)
  | pending, character :: rest =>
    if character.toNat < 0x80 then unquoteRun (pending ++ [UInt8.ofNat character.toNat]) rest
    else Utf8.decode pending ++ character :: unquoteRun [] rest

/-- `urllib.parse.unquote`. Text without a percent sign is returned as it is. -/
def unquote (text : Text) : Text := if '%' ∈ text then unquoteRun [] text else text

/-- Collect the segments of the form `key=value` whose key is not empty, the last occurrence of a
key winning. A value may hold further equals signs. -/
def keyValues (segments : List Text) (initial : Dict Text Text) : Dict Text Text :=
  segments.foldl (fun values segment =>
    let (key, separated, value) := Sequences.partition '=' segment
    if separated && key ≠ [] then values.set key value else values) initial

/-- A slash and the segments joined by slashes. -/
def joinPath (segments : List Text) : Text := '/' :: List.intercalate ['/'] segments

/-- Parse a request filename. The name is split before its segments are decoded, so that an escaped
slash stays inside its segment until the segments are joined again. Only a malformed client id is
refused. -/
def parseRequestPath (filename : Text) : Except Raised ParsedPath :=
  let path := Sequences.strip (· == '/') filename
  let rawSegments := ((path.splitOn '/').filter (fun segment => decide (segment ≠ []))).map unquote
  match rawSegments with
  | [] => .ok ⟨filename, none, ['/'], [], Dict.empty⟩
  | first :: messageSegments =>
    let (key, separated, value) := Sequences.partition '=' first
    if key = "id".toList ∧ separated = true then
      match normalizeClientId value with
      | .error raised => .error raised
      | .ok clientId =>
        let requestPath := if messageSegments = [] then ['/'] else joinPath messageSegments
        .ok ⟨filename, some clientId, requestPath, messageSegments,
          keyValues messageSegments Dict.empty⟩
    else .ok ⟨filename, none, joinPath rawSegments, rawSegments, Dict.empty⟩

end UbootTftp
