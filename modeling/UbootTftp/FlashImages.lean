import UbootTftp.EmbeddedEnvs
import UbootTftp.Protocol
import Mathlib.Data.List.Sort

/-!
# Environments in flash images

The environment partition of a flash image is given by its bounds, by the `mtdparts` of the
default environment that the boot region embeds, or by the first marker of a later
partition. It can be found, read and replaced.
-/

namespace UbootTftp

/-- The bounds of an environment partition, as the search returns them. -/
structure EnvPartitionInfo where
  offset : Int
  size : Int
  deriving DecidableEq

/-- The bounds that a caller may give. The offset of the boot region has a default; the other three
are inferred where they are missing. -/
structure LayoutArguments where
  bootOffset : Int
  bootSize : Option Int
  envOffset : Option Int
  envSize : Option Int

/-- The bounds without arguments. -/
def LayoutArguments.inferred : LayoutArguments := ⟨0, none, none, none⟩

/-- The sizes that are tried in front of a marker, the smallest one first. -/
def commonEnvSizes : List Int := [0x10000, 0x20000, 0x40000]

/-- The first bytes of what may follow the environment: a legacy image, a device tree, a squashfs
and a UBI volume. -/
def postBootMagics : List Bytes :=
  [[0x27, 0x05, 0x19, 0x56], [0xD0, 0x0D, 0xFE, 0xED], asciiBytes "hsqs", asciiBytes "UBI#"]

/-- `int(token, base)` of a token of digits and `x`. Decimal numbers of more than 4300 digits are
refused, as the interpreter does by default. -/
def parseInt (token : Text) (base : Nat) : Except EnvError Nat :=
  let digits := if base = 16 ∧ "0x".toList.isPrefixOf token then token.drop 2 else token
  if digits = [] ∨ base = 10 ∧ 4300 < digits.length then .error (.invalidSize token)
  else match digits.mapM (digitOf base) with
    | none => .error (.invalidSize token)
    | some values => .ok (values.foldl (fun number digit => number * base + digit) 0)

/-- The unit of a size and the token without it. Only the lower-case letters are looked for, as the
token has been lowered before. -/
def sizeUnit (token : Text) : Nat × Text :=
  match token.getLast? with
  | some 'k' => (1024, token.dropLast)
  | some 'm' => (1024 * 1024, token.dropLast)
  | some 'g' => (1024 * 1024 * 1024, token.dropLast)
  | _ => (1, token)

/-- `_parse_size_token`: a number with a unit, or nothing for a dash, which stands for the rest of
the flash. The token has matched the expression before, but that does not make it a number. -/
def parseSizeToken (token : Text) : Except EnvError (Option Int) :=
  let token := Text.lower (Text.strip token)
  if token = ['-'] then .ok none
  else
    let (multiplier, token) := sizeUnit token
    match parseInt token (if "0x".toList.isPrefixOf token then 16 else 10) with
    | .error raised => .error raised
    | .ok number => .ok (some ((number * multiplier : Nat) : Int))

/-- The characters of the class `[0-9A-Fa-fx]`. -/
def isSizeCharacter (character : Char) : Bool := (hexDigit character).isSome || character == 'x'

/-- The size token at the front: digits with a unit, or a dash. It is zero if neither is there, and
the unit may be a capital. -/
def sizeTokenLength (text : Text) : Nat :=
  let digits := text.takeWhile isSizeCharacter
  if digits = [] then (if text.head? = some '-' then 1 else 0)
  else match text.drop digits.length with
    | [] => digits.length
    | unit :: _ =>
      if unit ∈ ['k', 'K', 'm', 'M', 'g', 'G'] then digits.length + 1 else digits.length

/-- `_MTDPARTS_ENTRY_RE` at the front: a size token and a name in parentheses. No digit or
unit is a parenthesis, so an entry can match in one way only. -/
def mtdpartsEntryAt (text : Text) : Option ((Text × Text) × Nat) :=
  let size := sizeTokenLength text
  match text.drop size with
  | [] => none
  | opening :: rest =>
    let name := rest.takeWhile (fun character => decide (character ≠ ')'))
    if 0 < size ∧ opening = '(' ∧ name ≠ [] ∧ name.length < rest.length then
      some ((text.take size, name), size + 1 + name.length + 1)
    else none

/-- Read the sizes of all entries of a specification; each of them can raise, also one behind the
two that are wanted. -/
def parseEntries (entries : List (Text × Text)) : Except EnvError (List (Option Int × Text)) :=
  entries.mapM fun (sizeToken, name) =>
    match parseSizeToken sizeToken with
    | .error raised => .error raised
    | .ok size => .ok (size, Text.lower (Text.strip name))

/-- `_parse_mtdparts_spec`: the sizes of the first two entries, if they are the boot and the
environment partition. All sizes are read before the names are looked at. -/
def parseMtdpartsSpec (spec : Text) : Except EnvError (Option (Int × Int)) :=
  let (_, separated, remainder) := Sequences.partition ':' spec
  if separated then
    match parseEntries (Sequences.finditer mtdpartsEntryAt remainder) with
    | .error raised => .error raised
    | .ok ((some bootSize, bootName) :: (some envSize, envName) :: _) =>
      if bootName = "boot".toList ∧ envName = "env".toList then .ok (some (bootSize, envSize))
      else .ok none
    | .ok _ => .ok none
  else .ok none

/-- `_extract_mtdparts_spec`: the first word of the value that has a colon and names both
partitions, without the quotes around it. -/
def extractMtdpartsSpec (value : Text) : Option Text :=
  let tokens := Text.words (value.map (fun character => if character = ';' then ' ' else character))
  let isQuote (character : Char) : Bool := character.toNat == 0x22 || character.toNat == 0x27
  (tokens.map (Sequences.strip isQuote)).find?
    (fun candidate => decide (':' ∈ candidate) && Sequences.occurs "(boot)".toList candidate &&
      Sequences.occurs "(env)".toList candidate)

/-- The layout of the first of the variables that gives one. A variable without a specification is
passed over; one whose sizes cannot be converted raises, and the ones behind it are not tried. -/
def firstMtdpartsLayout (env : Env) : List Text → Except EnvError (Option (Int × Int))
  | [] => .ok none
  | key :: keys =>
    match (env.get key).bind extractMtdpartsSpec with
    | none => firstMtdpartsLayout env keys
    | some spec =>
      match parseMtdpartsSpec spec with
      | .error raised => .error raised
      | .ok none => firstMtdpartsLayout env keys
      | .ok (some layout) => .ok (some layout)

/-- The variables that may give a layout, in the order in which they are tried: `mtdparts` itself,
then those for NOR flash and then all others whose names hold the word, each group sorted. -/
def mtdpartsKeys (env : Env) : List Text :=
  let mtdparts := "mtdparts".toList
  let nor := (env.keys.filter ("mtdpartsnor".toList.isPrefixOf ·)).insertionSort (· ≤ ·)
  let others := (env.keys.filter (fun key =>
    Sequences.occurs mtdparts key && decide (key ∉ mtdparts :: nor))).insertionSort (· ≤ ·)
  mtdparts :: nor ++ others

/-- `_find_mtdparts_layout`: the layout of the first variable that gives one. A variable that cannot
be read raises, even if a later one could be. -/
def findMtdpartsLayout (env : Env) : Except EnvError (Option (Int × Int)) :=
  firstMtdpartsLayout env (mtdpartsKeys env)

/-- `_find_first_post_boot_magic`: the first place behind the smallest boot region at which one of
the four magics stands. The offset is not negative. -/
def findFirstPostBootMagic (image : Bytes) (bootOffset : Int) : Option Int :=
  let searchStart := (bootOffset + 0x10000).toNat
  (postBootMagics.filterMap (Sequences.findFrom · image searchStart)).min?.map Int.ofNat

/-- `_guess_boot_probe_size`: the probed region ends at the first marker, or after two mebibytes
without one. It may therefore hold the environment partition. -/
def guessBootProbeSize (image : Bytes) (bootOffset : Int) : Int :=
  let rest := min (image.length - bootOffset) (2 * 1024 * 1024)
  match findFirstPostBootMagic image bootOffset with
  | none => rest
  | some boundary => if bootOffset < boundary then boundary - bootOffset else rest

/-- The boundaries that a resolved layout gives, and the embedded environment if the
inference extracted one. -/
structure PartitionLayout where
  bootSize : Int
  envOffset : Int
  envSize : Int
  defaultEnv : Option Env

/-- The layout for the first of the common sizes whose boot region embeds an environment. Sizes that
leave no room for a boot region are passed over. -/
def layoutBefore (codecs : Codecs) (image : Bytes) (bootOffset boundary : Int) :
    Option PartitionLayout :=
  commonEnvSizes.findSome? fun candidateEnvSize =>
    let candidateEnvOffset := boundary - candidateEnvSize
    if candidateEnvOffset ≤ bootOffset then none
    else
      match extractDefaultEnvFromUboot codecs
          (Sequences.sliceInt image bootOffset candidateEnvOffset) with
      | .error _ => none
      | .ok defaultEnv =>
        some ⟨candidateEnvOffset - bootOffset, candidateEnvOffset, candidateEnvSize, some defaultEnv⟩

/-- `_infer_partition_layout`: an environment embedded in the probed region announces the bounds, or
they are taken from the first marker and the common sizes. Without either nothing is inferred. -/
def inferPartitionLayout (codecs : Codecs) (image : Bytes) (bootOffset : Int)
    (bootSize : Option Int) : Except EnvError PartitionLayout :=
  let probeSize := bootSize.getD (guessBootProbeSize image bootOffset)
  let probeRegion := Sequences.sliceInt image bootOffset (bootOffset + probeSize)
  if (probeRegion.length : Int) ≠ probeSize then .error .probeBeyondImage
  else match extractDefaultEnvFromUboot codecs probeRegion with
    | .error raised => .error raised
    | .ok defaultEnv =>
      match findMtdpartsLayout defaultEnv with
      | .error raised => .error raised
      | .ok (some (bootSize, envSize)) =>
        .ok ⟨bootSize, bootOffset + bootSize, envSize, some defaultEnv⟩
      | .ok none =>
        match findFirstPostBootMagic image bootOffset with
        | none => .error .noMarkers
        | some boundary =>
          match layoutBefore codecs image bootOffset boundary with
          | none => .error .noBoundaries
          | some layout => .ok layout

/-- `_resolve_partition_layout`. A bound that is given or follows from two others is kept; the
others are inferred together. All three are known then, so the source's check for that cannot fail.
The checks at the end are on the resolved bounds only, not against the length of the image. -/
def resolvePartitionLayout (codecs : Codecs) (image : Bytes) (layout : LayoutArguments) :
    Except EnvError PartitionLayout :=
  if image = [] then .error .emptyImage
  else if layout.bootOffset < 0 then .error .negativeBootOffset
  else
    let bootSize := layout.bootSize.or (layout.envOffset.map (· - layout.bootOffset))
    let envOffset := layout.envOffset.or (bootSize.map (layout.bootOffset + ·))
    let resolved : Except EnvError PartitionLayout :=
      match bootSize, envOffset, layout.envSize with
      | some bootSize, some envOffset, some envSize => .ok ⟨bootSize, envOffset, envSize, none⟩
      | _, _, _ =>
        match inferPartitionLayout codecs image layout.bootOffset bootSize with
        | .error raised => .error raised
        | .ok inferred => .ok ⟨bootSize.getD inferred.bootSize, envOffset.getD inferred.envOffset,
            layout.envSize.getD inferred.envSize, inferred.defaultEnv⟩
    match resolved with
    | .error raised => .error raised
    | .ok resolved =>
      if resolved.bootSize ≤ 0 ∨ resolved.envSize ≤ 0 ∨ resolved.envOffset < layout.bootOffset then
        .error .invalidBoundaries
      else .ok resolved

/-- `ubootenv_find`: the bounds alone. They may reach beyond the image, which only the reading and
the patching notice. -/
def ubootenvFind (codecs : Codecs) (image : Bytes) (layout : LayoutArguments) :
    Except EnvError EnvPartitionInfo :=
  match resolvePartitionLayout codecs image layout with
  | .error raised => .error raised
  | .ok resolved => .ok ⟨resolved.envOffset, resolved.envSize⟩

/-- The embedded environment of the boot region that a resolved layout gives. It is the fallback for
a partition that cannot be read, and its failure is reported together with that one. -/
def embeddedEnv (codecs : Codecs) (image : Bytes) (bootOffset : Int) (resolved : PartitionLayout)
    (partitionError : EnvError) : Except EnvError Env :=
  match resolved.defaultEnv with
  | some defaultEnv => .ok defaultEnv
  | none =>
    let bootRegion := Sequences.sliceInt image bootOffset (bootOffset + resolved.bootSize)
    if (bootRegion.length : Int) ≠ resolved.bootSize then .error .bootBeyondImage
    else match extractDefaultEnvFromUboot codecs bootRegion with
      | .error bootError => .error (.alsoFailed partitionError bootError)
      | .ok defaultEnv => .ok defaultEnv

/-- `ubootenv_extract`: the environment of the partition, or else the one that the boot region
embeds. An erased partition is one that cannot be read. -/
def ubootenvExtract (codecs : Codecs) (image : Bytes) (layout : LayoutArguments) :
    Except EnvError Env :=
  match resolvePartitionLayout codecs image layout with
  | .error raised => .error raised
  | .ok resolved =>
    let partition :=
      Sequences.sliceInt image resolved.envOffset (resolved.envOffset + resolved.envSize)
    if (partition.length : Int) ≠ resolved.envSize then .error .partitionBeyondImage
    else match ubootenvParsePart codecs partition with
      | .ok env => .ok env
      | .error partitionError =>
        embeddedEnv codecs image layout.bootOffset resolved partitionError

/-- `ubootenv_patch`: the image in front of the partition, the new partition, and the image behind
it. The slices are Python's, so a partition beyond the end of the image makes it longer. -/
def ubootenvPatch (codecs : Codecs) (image : Bytes) (env : Env) (layout : LayoutArguments)
    (flags : Option Int) (padByte : Int) (encoding : Encoding) : Except EnvError Bytes :=
  match ubootenvFind codecs image layout with
  | .error raised => .error raised
  | .ok info =>
    match ubootenvBuild codecs env (some info.size) flags padByte encoding with
    | .error raised => .error raised
    | .ok envImage =>
      .ok (Sequences.sliceInt image 0 info.offset ++ envImage ++
        Sequences.sliceInt image (info.offset + info.size) image.length)

end UbootTftp
