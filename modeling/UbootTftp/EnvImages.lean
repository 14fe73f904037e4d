import UbootTftp.Errors
import UbootTftp.Dict
import UbootTftp.Utf8
import Mathlib.Data.Nat.Digits.Defs

/-!
# Images of U-Boot environments

An environment is stored as `key=value` entries that end in a NUL each, an empty entry
that ends the list, and fill, behind a header with the CRC of all that and possibly a
flags byte. The decoder tries both header lengths and both byte orders of the CRC, and
then reads the bytes as text without a header.

The checksum and the decompressors come from libraries and are fields of `Codecs`;
nothing is assumed of them here.
-/

namespace UbootTftp

/-- An environment. -/
abbrev Env := Dict Text Text

/-- The formats of compressed members. They are tried at every place of the image, so that more than
one of them may start at the same place. -/
inductive MemberKind
  | gzip
  | xz
  | bzip2
  | zlib
  deriving DecidableEq

/-- What the environment functions take from libraries. -/
structure Codecs where
  /-- `zlib.crc32`. -/
  crc32 : Bytes → UInt32
  /-- `_decompress_member`: the payload of the member that starts the bytes, if it is
  complete. -/
  decompress : MemberKind → Bytes → Option Bytes

/-- The exceptions of the environment functions. All but the last two are a `ValueError`
raised by them; those are raised by `str.encode`. -/
inductive EnvError
  /-- `env partition is empty` -/
  | emptyPartition
  /-- `env partition is erased` -/
  | erasedPartition
  /-- `env partition is not a valid U-Boot environment` -/
  | invalidPartition
  /-- `pad_byte must be between 0x00 and 0xFF` -/
  | padByteRange
  /-- `flags must be between 0x00 and 0xFF` -/
  | flagsRange
  /-- `size is too small for the encoded environment` -/
  | sizeTooSmall
  /-- `unable to locate an embedded default U-Boot environment` -/
  | noEmbeddedEnv
  /-- `env partition extends beyond the flash image` -/
  | partitionBeyondImage
  /-- `boot partition extends beyond the flash image` -/
  | bootBeyondImage
  /-- `{partition_error}; also failed to extract embedded default env: {boot_error}` -/
  | alsoFailed (partitionError bootError : EnvError)
  /-- `flash image is empty` -/
  | emptyImage
  /-- `boot_offset must be non-negative` -/
  | negativeBootOffset
  /-- `invalid boot/env partition boundaries` -/
  | invalidBoundaries
  /-- `boot probe region extends beyond the flash image` -/
  | probeBeyondImage
  /-- `unable to infer flash layout from post-boot image markers` -/
  | noMarkers
  /-- `unable to infer boot/env partition boundaries from the flash image` -/
  | noBoundaries
  /-- `invalid literal for int()`, for the number of a partition size. -/
  | invalidSize (token : Text)
  /-- `invalid U-Boot env key: {key!r}` -/
  | invalidKey (key : Text)
  /-- `invalid U-Boot env value for key {key!r}: contains NUL` -/
  | valueContainsNul (key : Text)
  /-- The key is not ASCII. -/
  | keyEncoding (key : Text)
  /-- The value cannot be encoded. -/
  | valueEncoding (value : Text)
  deriving DecidableEq

/-- The bytes of the class `[A-Za-z0-9_.-]`. -/
def isKeyByte (octet : UInt8) : Bool :=
  (0x30 ≤ octet && octet ≤ 0x39) || (0x41 ≤ octet && octet ≤ 0x5A) ||
    (0x61 ≤ octet && octet ≤ 0x7A) || octet == 0x5F || octet == 0x2E || octet == 0x2D

/-- `_ENV_KEY_RE.fullmatch`. -/
def envKeyMatches (key : Bytes) : Bool := decide (key ≠ []) && key.all isKeyByte

/-- `bytes.decode("ascii")` of ASCII bytes. -/
def decodeAscii (octets : Bytes) : Text := octets.map (fun octet => Char.ofNat octet.toNat)

/-- `str.encode("ascii")`. -/
def encodeAscii (text : Text) : Option Bytes :=
  if text.all (fun character => decide (character.toNat < 128)) then
    some (text.map (fun character => UInt8.ofNat character.toNat))
  else none

/-- The bytes that fill erased flash. -/
def isFill (octet : UInt8) : Bool := octet == 0x00 || octet == 0xFF

/-- Enter a segment `key=value`; other segments are skipped. The key is checked against the
expression, the value is decoded with replacement and may hold anything but a NUL. -/
def parseEnvSegment (env : Env) (segment : Bytes) : Env :=
  let (key, separated, value) := Sequences.partition 0x3D segment
  if separated && envKeyMatches key then env.set (decodeAscii key) (Utf8.decode value) else env

/-- `_parse_nul_delimited_env`: the fill at the end is dropped and the rest cut at every NUL. An
empty segment does not end the list; what follows it is read as well. -/
def parseNulDelimitedEnv (body : Bytes) : Env :=
  ((body.rdropWhile isFill).splitOn 0x00).foldl parseEnvSegment Dict.empty

/-- Enter a line `key=value`; other lines are skipped. The line is stripped before it is cut, so the
space around the value goes and the space around the separator stays. -/
def parseExportLine (env : Env) (rawLine : Text) : Env :=
  let (key, separated, value) := Sequences.partition '=' (Text.strip rawLine)
  if separated && decide (key ≠ []) then env.set key value else env

/-- `ubootenv_parse_export`: a NUL counts as the end of a line, so that the text form and the NUL
form of an export are read alike. -/
def ubootenvParseExport (body : Bytes) : Env :=
  let text := (Utf8.decode body).map
    (fun character => if character = '\x00' then '\n' else character)
  (Text.splitLines text).foldl parseExportLine Dict.empty

/-- `_RAW_ENV_PREFIX_RE.match`. -/
def rawEnvPrefixMatches (payload : Bytes) : Bool :=
  let key := payload.takeWhile isKeyByte
  decide (key ≠ []) && (payload.drop key.length).head? == some 0x3D

/-- `_parse_raw_env_partition`: the bytes up to the first fill are read as a text export. Less than
two variables are not taken for an environment. -/
def parseRawEnvPartition (partition : Bytes) : Option Env :=
  let payload := partition.dropWhile isFill
  if rawEnvPrefixMatches payload then
    let text := (payload.takeWhile (fun octet => decide (octet ≠ 0xFF))).rdropWhile (· == 0x00)
    let env := ubootenvParseExport text
    if env.entries.length < 2 then none else some env
  else none

/-- `_is_erased`: nothing but one of the two fill bytes. The empty region is erased too. -/
def isErased (region : Bytes) : Bool := region.all (· == 0xFF) || region.all (· == 0x00)

/-- `int.from_bytes(..., "little")`. -/
def fromLittleEndian (octets : Bytes) : Nat := Nat.ofDigits 256 (octets.map UInt8.toNat)

/-- `int.from_bytes(..., "big")`. -/
def fromBigEndian (octets : Bytes) : Nat := fromLittleEndian octets.reverse

/-- `to_bytes(4, "little")`. -/
def toLittleEndian (word : UInt32) : Bytes :=
  [word.toNat, word.toNat / 256, word.toNat / 65536, word.toNat / 16777216].map UInt8.ofNat

/-- Whether the bytes after a header have the CRC that the header's first four give. -/
def crcMatches (codecs : Codecs) (partition : Bytes) (headerSize : Nat) : Bool :=
  let payloadCrc := (codecs.crc32 (partition.drop headerSize)).toNat
  decide (payloadCrc = fromBigEndian (partition.take 4) ∨
    payloadCrc = fromLittleEndian (partition.take 4))

/-- Read a partition behind a header of the given size. The checksum has to fit what is behind the
header, and at least one entry has to be found there. -/
def parseBehindHeader (codecs : Codecs) (partition : Bytes) (headerSize : Nat) : Option Env :=
  if partition.length ≤ headerSize then none
  else if crcMatches codecs partition headerSize then
    let env := parseNulDelimitedEnv (partition.drop headerSize)
    if env.entries = [] then none else some env
  else none

/-- `ubootenv_parse_part`. The two headers are tried one after the other, and only then the
partition is read as raw text, without a checksum. -/
def ubootenvParsePart (codecs : Codecs) (partition : Bytes) : Except EnvError Env :=
  if partition = [] then .error .emptyPartition
  else if isErased partition then .error .erasedPartition
  else match [4, 5].findSome? (parseBehindHeader codecs partition) with
    | some env => .ok env
    | none =>
      match parseRawEnvPartition partition with
      | some env => .ok env
      | none => .error .invalidPartition

/-- The text codec of an image, as `str.encode` applies it. -/
abbrev Encoding := Text → Option Bytes

/-- The default text codec. -/
def utf8 : Encoding := fun text => some (Utf8.encode text)

/-- One entry of an image. The key has to be ASCII and match the pattern. The value is encoded as
the caller wants it and must not hold a NUL. -/
def encodeEntry (encoding : Encoding) (entry : Text × Text) : Except EnvError Bytes :=
  match encodeAscii entry.1 with
  | none => .error (.keyEncoding entry.1)
  | some keyBytes =>
    if envKeyMatches keyBytes then
      match encoding entry.2 with
      | none => .error (.valueEncoding entry.2)
      | some valueBytes =>
        if 0x00 ∈ valueBytes then .error (.valueContainsNul entry.1)
        else .ok (keyBytes ++ 0x3D :: valueBytes ++ [0x00])
    else .error (.invalidKey entry.1)

/-- `_encode_env_image_payload`. -/
def encodeEnvImagePayload (env : Env) (encoding : Encoding) : Except EnvError Bytes := do
  let segments ← env.entries.mapM (encodeEntry encoding)
  .ok (segments.flatten ++ [0x00])

/-- Whether a Python `int` is a byte. -/
def isByte (value : Int) : Bool := decide (0 ≤ value ∧ value ≤ 0xFF)

/-- The payload filled up to the size of an image, if one is given. Without a size the payload is
the image, and a size that is too small for it is refused. -/
def fillPayload (payload : Bytes) (headerSize : Int) (padByte : Int) :
    Option Int → Except EnvError Bytes
  | none => .ok payload
  | some size =>
    let dataSize := size - headerSize
    if dataSize < payload.length then .error .sizeTooSmall
    else .ok (payload ++
      List.replicate (dataSize - payload.length).toNat (UInt8.ofNat padByte.toNat))

/-- The size of an image's header. -/
def headerSize (flags : Option Int) : Int := if flags.isNone then 4 else 5

/-- `ubootenv_build`. The arguments are checked before anything is encoded, and the checksum is that
of the payload with its fill. -/
def ubootenvBuild (codecs : Codecs) (env : Env) (size flags : Option Int) (padByte : Int)
    (encoding : Encoding) : Except EnvError Bytes :=
  if isByte padByte = false then .error .padByteRange
  else if flags.all isByte = false then .error .flagsRange
  else do
    let payload ← encodeEnvImagePayload env encoding
    let data ← fillPayload payload (headerSize flags) padByte size
    let header := toLittleEndian (codecs.crc32 data) ++
      (flags.map (fun value => UInt8.ofNat value.toNat)).toList
    .ok (header ++ data)

section Sample

/-- The CRC-32 of the bytes, one bit at a time. -/
def sampleCrc32 (octets : Bytes) : UInt32 :=
  let shift (crc : UInt32) : UInt32 :=
    if crc &&& 1 = 1 then (crc >>> 1) ^^^ 0xEDB88320 else crc >>> 1
  (octets.foldl (fun crc octet => shift^[8] (crc ^^^ octet.toUInt32)) 0xFFFFFFFF) ^^^ 0xFFFFFFFF

/-- The checksum of the library, and decompressors for data without compressed members. -/
def sampleCodecs : Codecs := ⟨sampleCrc32, fun _ _ => none⟩

/-- An environment with one variable. -/
def sampleEnv : Env := Dict.ofList [("a".toList, "1".toList)]

end Sample

end UbootTftp
