import UbootTftp.EnvImages

/-!
# Embedded default environments

A U-Boot image holds its default environment as NUL-terminated entries in a row, in the
image itself or in a compressed member. Every run of at least five entries is a blob; the
plausible environment with the highest score wins, the first one among equals.
-/

namespace UbootTftp

/-- The bytes of an ASCII literal. -/
def asciiBytes (literal : String) : Bytes :=
  literal.toList.map (fun character => UInt8.ofNat character.toNat)

/-- The variables of which an environment needs two to be taken for one. -/
def coreEnvKeys : List Text :=
  ["bootcmd".toList, "bootargs".toList, "mtdparts".toList, "baudrate".toList, "ipaddr".toList,
    "serverip".toList]

/-- The variables that add to the score of an environment without being needed. -/
def consoleKeys : List Text := ["stdin".toList, "stdout".toList, "stderr".toList]

/-- The texts that speak for a candidate being a boot loader with an environment. -/
def envMarkers : List Bytes :=
  [asciiBytes "bootcmd=", asciiBytes "bootargs=", asciiBytes "mtdparts=", asciiBytes "baudrate=",
    asciiBytes "stdin=", asciiBytes "stdout=", asciiBytes "stderr="]

/-- The texts of the boot loader itself, which count half as much. -/
def ubootMarkers : List Bytes :=
  [asciiBytes "env_common.c", asciiBytes "nvedit.c", asciiBytes "U-Boot"]

/-- The length of the entry at the front: one to 64 key bytes, the separator, at most 1024
bytes of value and a NUL. The separator is no key byte and the NUL no value byte, so an
entry can match in one way only. -/
def envEntryLength (octets : Bytes) : Option Nat :=
  let key := octets.takeWhile isKeyByte
  if 1 ≤ key.length ∧ key.length ≤ 64 then
    match octets.drop key.length with
    | [] => none
    | separator :: rest =>
      let value := rest.takeWhile
        (fun octet => decide (octet ≠ 0x00 ∧ octet ≠ 0x0D ∧ octet ≠ 0x0A))
      if separator = 0x3D ∧ value.length ≤ 1024 ∧ (rest.drop value.length).head? = some 0x00 then
        some (key.length + 1 + value.length + 1)
      else none
  else none

/-- The number of entries in a row at the front, and their length. The bound is on the number of
entries; the number of bytes is bound enough, since an entry takes at least three of them. -/
def envEntryRun : Nat → Bytes → Nat × Nat
  | 0, _ => (0, 0)
  | bound + 1, octets =>
    match envEntryLength octets with
    | none => (0, 0)
    | some length =>
      let (count, total) := envEntryRun bound (octets.drop length)
      (count + 1, length + total)

/-- `_ENV_BLOB_RE` at the front: as many entries in a row as there are, at least five. The
expression is greedy, and an entry can match in one way only, so the longest row is what it
takes. -/
def envBlobAt (octets : Bytes) : Option (Bytes × Nat) :=
  let (count, total) := envEntryRun octets.length octets
  if 5 ≤ count then some (octets.take total, total) else none

/-- The signatures by which the members of a region are told apart: the length and the CRC of the
first 4096 bytes. Two different members can share one. -/
def signature (codecs : Codecs) (candidate : Bytes) : Nat × UInt32 :=
  (candidate.length, codecs.crc32 (candidate.take 4096))

/-- `_looks_like_zlib_header`. -/
def looksLikeZlibHeader : Bytes → Bool
  | cmf :: flg :: _ => cmf == 0x78 && decide ((cmf.toNat * 256 + flg.toNat) % 31 = 0)
  | _ => false

/-- The kinds of member that can start at the front. They are told by their magic bytes, except for
zlib, whose two header bytes have to pass a check. -/
def memberKinds (octets : Bytes) : List MemberKind :=
  (if [0x1F, 0x8B, 0x08].isPrefixOf octets then [.gzip] else []) ++
    (if [0xFD, 0x37, 0x7A, 0x58, 0x5A, 0x00].isPrefixOf octets then [.xz] else []) ++
    (if [0x42, 0x5A, 0x68].isPrefixOf octets then [.bzip2] else []) ++
    (if looksLikeZlibHeader octets then [.zlib] else [])

/-- `_scan_compressed_members`. An offset is visited once and its kinds are distinct, so nothing is
seen twice. A decompressor gets all that follows its start, and what it makes of it is arbitrary
here. -/
def scanCompressedMembers (codecs : Codecs) (data : Bytes) : List (MemberKind × Nat × Bytes) :=
  (List.range (data.length - 6)).flatMap fun offset =>
    let body := data.drop offset
    (memberKinds body).filterMap fun kind =>
      match codecs.decompress kind body with
      | none => none
      | some payload => if payload.length < 128 then none else some (kind, offset, payload)

/-- The members whose signature was not seen before. Of two members with one signature the later one
is dropped unread. -/
def freshMembers (codecs : Codecs) :
    List (Nat × UInt32) → List (MemberKind × Nat × Bytes) → List (MemberKind × Nat × Bytes)
  | _, [] => []
  | seen, found :: members =>
    if signature codecs found.2.2 ∈ seen then freshMembers codecs seen members
    else found :: freshMembers codecs (signature codecs found.2.2 :: seen) members

/-- `_iter_uboot_candidates`: the region, then its members. Members are not searched for
members of their own, so the queue of the source holds the region and then these. -/
def iterUbootCandidates (codecs : Codecs) (bootRegion : Bytes) :
    List (Option (MemberKind × Nat) × Bytes) :=
  (none, bootRegion) ::
    (freshMembers codecs [signature codecs bootRegion]
      (scanCompressedMembers codecs bootRegion)).map
        (fun found => (some (found.1, found.2.1), found.2.2))

/-- `_score_candidate_bytes`: what all environments of a candidate get alike, for the texts that
occur anywhere in it. -/
def scoreCandidateBytes (candidate : Bytes) : Nat :=
  (envMarkers.countP (Sequences.occurs · candidate)) * 8 +
    (ubootMarkers.countP (Sequences.occurs · candidate)) * 4

/-- How many of the keys an environment has. -/
def keyHits (keys : List Text) (env : Env) : Nat := keys.countP (fun key => (env.get key).isSome)

/-- `_score_env`: what an environment gets for the variables that it has and for their number. Their
values do not count. -/
def scoreEnv (env : Env) : Nat :=
  keyHits coreEnvKeys env * 100 + keyHits consoleKeys env * 20 + env.entries.length * 10

/-- `_is_plausible_embedded_env`: five variables and two of the core ones. Entries with one key give
one variable, so a blob of five entries may hold fewer. -/
def isPlausibleEmbeddedEnv (env : Env) : Bool :=
  decide (5 ≤ env.entries.length) && decide (2 ≤ keyHits coreEnvKeys env)

/-- The plausible environments of a region with their scores, in the order of the search: those of
the region itself come first and those of its members behind them. -/
def scoredEnvs (codecs : Codecs) (bootRegion : Bytes) : List (Nat × Env) :=
  (iterUbootCandidates codecs bootRegion).flatMap fun (_, candidate) =>
    (Sequences.finditer envBlobAt candidate).filterMap fun blob =>
      let env := parseNulDelimitedEnv blob
      if isPlausibleEmbeddedEnv env then
        some (scoreCandidateBytes candidate + scoreEnv env + min blob.length 4096 / 64, env)
      else none

/-- Keep the better of two scored environments, the earlier one among equals. -/
def keepBest (best : Option (Nat × Env)) (scored : Nat × Env) : Option (Nat × Env) :=
  match best with
  | none => some scored
  | some (score, _) => if score < scored.1 then some scored else best

/-- `extract_default_env_from_uboot`: the best of the plausible environments, or the exception if
there is none. That it is the first one among the best is a theorem of `EmbeddedRecovery`. -/
def extractDefaultEnvFromUboot (codecs : Codecs) (bootRegion : Bytes) : Except EnvError Env :=
  match (scoredEnvs codecs bootRegion).foldl keepBest none with
  | none => .error .noEmbeddedEnv
  | some (_, env) => .ok env

end UbootTftp
