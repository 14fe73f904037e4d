import UbootTftp.Errors
import UbootTftp.PackedFields
import UbootTftp.Utf8

/-!
# Script images

U-Boot runs a script from a legacy image: a header of 64 bytes with two CRCs, and a payload that
lists its one component before the script. The header is packed twice, the first time without
its own CRC.

`zlib.crc32` is an argument, of which nothing is assumed.
-/

namespace UbootTftp

/-- The operating systems that the source names for the header. There is one. -/
inductive ImageOS
  | linux
  deriving DecidableEq

/-- The number of an operating system in the header. -/
def ImageOS.value : ImageOS → Nat
  | .linux => 5

/-- The architectures that the source names for the header. -/
inductive ImageArch
  | arm
  | arm64
  deriving DecidableEq

/-- The number of an architecture in the header. -/
def ImageArch.value : ImageArch → Nat
  | .arm => 2
  | .arm64 => 22

/-- The kinds of image that the source names for the header. It compiles scripts only. -/
inductive ImageType
  | script
  deriving DecidableEq

/-- The number of a kind of image in the header. -/
def ImageType.value : ImageType → Nat
  | .script => 6

/-- The compressions that the source names for the header. A script is stored as it is. -/
inductive ImageCompression
  | none
  deriving DecidableEq

/-- The number of a compression in the header. -/
def ImageCompression.value : ImageCompression → Nat
  | .none => 0

/-- The first field of every legacy image. -/
def ihMagic : Nat := 0x27051956

/-- The length of the name field, which is the last one of the header. -/
def ihNmlen : Nat := 32

/-- The exceptions of the compiler and of the extraction. -/
inductive ImageError
  /-- `struct.error`, for a number that does not fit its field. -/
  | packing
  /-- `image is too short to contain a script payload` -/
  | tooShort
  /-- `script payload is missing the component-list terminator` -/
  | missingTerminator
  /-- `script payload is truncated` -/
  | truncated
  deriving DecidableEq

/-- The class of an exception. What the extraction raises is a `ValueError`; a number that does not
fit is the error of the `struct` module, which is not one. -/
def ImageError.cls : ImageError → ErrorClass
  | .packing => .other "struct.error".toList
  | _ => .valueError

/-- `struct.pack` of unsigned numbers in network order. It fails for a number that does not fit its
field, and then nothing is packed. -/
def packNumbers (fields : List (Nat × Nat)) : Except ImageError Bytes :=
  if PackedFields.Fits fields then .ok (PackedFields.pack fields) else .error .packing

/-- `bytes.ljust` with NUL. -/
def ljustNul (width : Nat) (octets : Bytes) : Bytes :=
  octets ++ List.replicate (width - octets.length) 0x00

/-- `struct.pack(">7I4B32s", ...)`. The name is cut or filled up with NUL to 32 bytes, which changes
nothing on a field that has been made to this length before. -/
def packHeader (magic headerCrc timestamp size load entry dataCrc os arch kind compression : Nat)
    (name : Bytes) : Except ImageError Bytes := do
  let numbers ← packNumbers [(4, magic), (4, headerCrc), (4, timestamp), (4, size), (4, load),
    (4, entry), (4, dataCrc), (1, os), (1, arch), (1, kind), (1, compression)]
  .ok (numbers ++ ljustNul 32 (name.take 32))

/-- `str.encode("ascii", errors="replace")`: each character gives one byte, a question mark where it
is none of ASCII. -/
def encodeAsciiReplace (text : Text) : Bytes :=
  text.map (fun character => UInt8.ofNat (if character.toNat < 128 then character.toNat else '?'.toNat))

/-- `LegacyScriptImageCompiler._script_payload`: the length of the script and the zero that ends the
list of components, and behind them the script itself. -/
def scriptPayload (script : Bytes) : Except ImageError Bytes := do
  let head ← packNumbers [(4, script.length), (4, 0)]
  .ok (head ++ script)

/-- The compiler with the defaults of the source. The load address and the entry point are zero in
every image that it makes. -/
structure LegacyScriptImageCompiler where
  name : Text := "uboot-tftp".toList
  arch : ImageArch := .arm
  os : ImageOS := .linux

namespace LegacyScriptImageCompiler

/-- The bytes of the name field: the name in ASCII, cut to the length of the field and filled up. -/
def nameField (compiler : LegacyScriptImageCompiler) : Bytes :=
  ljustNul ihNmlen ((encodeAsciiReplace compiler.name).take ihNmlen)

/-- `LegacyScriptImageCompiler.compile` of bytes, at a time. The header is packed twice: the CRC of
the first one, which has a zero in the place of it, goes into the second one. -/
def compile (crc32 : Bytes → UInt32) (timestamp : Nat) (compiler : LegacyScriptImageCompiler)
    (scriptPayload : Bytes) : Except ImageError Bytes := do
  let payload ← UbootTftp.scriptPayload scriptPayload
  let dataCrc := (crc32 payload).toNat
  let headerWithoutCrc ← packHeader ihMagic 0 timestamp payload.length 0 0 dataCrc
    compiler.os.value compiler.arch.value ImageType.script.value ImageCompression.none.value
    compiler.nameField
  let headerCrc := (crc32 headerWithoutCrc).toNat
  let header ← packHeader ihMagic headerCrc timestamp payload.length 0 0 dataCrc
    compiler.os.value compiler.arch.value ImageType.script.value ImageCompression.none.value
    compiler.nameField
  .ok (header ++ payload)

/-- `LegacyScriptImageCompiler.compile` of a text. -/
def compileText (crc32 : Bytes → UInt32) (timestamp : Nat) (compiler : LegacyScriptImageCompiler)
    (script : Text) : Except ImageError Bytes :=
  compiler.compile crc32 timestamp (Utf8.encode script)

end LegacyScriptImageCompiler

/-- `extract_script_payload`. The header is skipped without being read, so that neither CRC is
checked; only the length and the end of the component list are. Bytes behind the script are left
alone. -/
def extractScriptPayload (image : Bytes) : Except ImageError Bytes :=
  let payload := image.drop 64
  if payload.length < 8 then .error .tooShort
  else
    let scriptSize := PackedFields.decode (payload.take 4)
    let terminator := PackedFields.decode ((payload.drop 4).take 4)
    if terminator ≠ 0 then .error .missingTerminator
    else
      let script := (payload.drop 8).take scriptSize
      if script.length ≠ scriptSize then .error .truncated
      else .ok script

section Payloads

/-- The fields of a payload's head. -/
def payloadHead (script : Bytes) : Bytes := PackedFields.pack [(4, script.length), (4, 0)]

/-- The head of a payload takes eight bytes, whatever the script. -/
theorem payload_head_length (script : Bytes) : (payloadHead script).length = 8 := rfl

/-- A script whose length fits its field has a payload. -/
theorem script_payload_ok (script : Bytes) (bounded : script.length < 2 ^ 32) :
    scriptPayload script = .ok (payloadHead script ++ script) := by
  have fits : PackedFields.Fits [(4, script.length), (4, 0)] := by
    simpa [PackedFields.Fits] using bounded
  simp [scriptPayload, packNumbers, fits, payloadHead, bind, Except.bind]

variable (header script : Bytes) (sized : header.length = 64) (bounded : script.length < 2 ^ 32)

include sized bounded

/-- What is behind a header and a payload's head is read by its length. So bytes behind the script
make no difference, while a missing one is noticed. -/
theorem extract_behind_head (rest : Bytes) :
    extractScriptPayload (header ++ (payloadHead script ++ rest)) =
      if (rest.take script.length).length ≠ script.length then .error .truncated
      else .ok (rest.take script.length) := by
  have behind : (header ++ (payloadHead script ++ rest)).drop 64 = payloadHead script ++ rest :=
    List.drop_left' sized
  have long : ¬(payloadHead script ++ rest).length < 8 := by
    rw [List.length_append, payload_head_length]
    omega
  have size : PackedFields.decode ((payloadHead script ++ rest).take 4) = script.length :=
    PackedFields.field_decoded [] [(4, 0)] 4 script.length rest (by simpa using bounded)
  have terminator : PackedFields.decode (((payloadHead script ++ rest).drop 4).take 4) = 0 :=
    PackedFields.field_decoded [(4, script.length)] [] 4 0 rest (by decide)
  have content : (payloadHead script ++ rest).drop 8 = rest :=
    List.drop_left' (payload_head_length script)
  simp only [extractScriptPayload, behind, long, if_false, size, terminator, ne_eq, not_true_eq_false,
    content]

/-- The script is extracted, whatever follows it. -/
theorem extract_script (tail : Bytes) :
    extractScriptPayload (header ++ (payloadHead script ++ script) ++ tail) = .ok script := by
  rw [List.append_assoc, List.append_assoc, extract_behind_head header script sized bounded]
  simp

/-- No strict prefix of an image has a script.

Proof: a prefix that ends in the header or in the payload's head is too short, and one that ends
in the script is cut there. -/
theorem extract_prefix (size : Nat)
    (strict : size < (header ++ (payloadHead script ++ script)).length) :
    ∃ error, extractScriptPayload ((header ++ (payloadHead script ++ script)).take size) =
      .error error ∧ error.cls = .valueError := by
  simp only [List.length_append, payload_head_length, sized] at strict
  by_cases short : size < 72
  · refine ⟨.tooShort, ?_, rfl⟩
    have few : (((header ++ (payloadHead script ++ script)).take size).drop 64).length < 8 := by
      simp only [List.length_drop, List.length_take]
      omega
    simp only [extractScriptPayload, few, if_true]
  · refine ⟨.truncated, ?_, rfl⟩
    have cut : (header ++ (payloadHead script ++ script)).take size =
        header ++ (payloadHead script ++ script.take (size - 72)) := by
      rw [List.take_append, List.take_append, List.take_of_length_le (by omega),
        List.take_of_length_le (by rw [payload_head_length]; omega), payload_head_length, sized]
      congr 3
    have missing : ((script.take (size - 72)).take script.length).length ≠ script.length := by
      simp only [List.length_take]
      omega
    rw [cut, extract_behind_head header script sized bounded, if_pos missing]

end Payloads

section Headers

/-- The numbers of a header with their widths. -/
def headerFields (compiler : LegacyScriptImageCompiler) (headerCrc timestamp size dataCrc : Nat) :
    List (Nat × Nat) :=
  [(4, ihMagic), (4, headerCrc), (4, timestamp), (4, size), (4, 0), (4, 0), (4, dataCrc),
    (1, compiler.os.value), (1, compiler.arch.value), (1, ImageType.script.value),
    (1, ImageCompression.none.value)]

/-- A header with the name behind its numbers. -/
def headerBytes (compiler : LegacyScriptImageCompiler) (headerCrc timestamp size dataCrc : Nat) :
    Bytes :=
  PackedFields.pack (headerFields compiler headerCrc timestamp size dataCrc) ++ compiler.nameField

variable (compiler : LegacyScriptImageCompiler) (timestamp size : Nat) (headerCrc dataCrc : UInt32)
  (timed : timestamp < 2 ^ 32) (sized : size < 2 ^ 32)

/-- A short enough row of bytes is filled up to exactly the width. -/
theorem ljust_length (width : Nat) (octets : Bytes) (short : octets.length ≤ width) :
    (ljustNul width octets).length = width := by
  simp only [ljustNul, List.length_append, List.length_replicate]
  omega

/-- A name field has its length for every name, long or short and with any characters. -/
theorem name_field_length : compiler.nameField.length = 32 := by
  apply ljust_length
  exact List.length_take_le _ _

/-- A name field is neither cut nor filled up again. -/
theorem name_field_packed : ljustNul 32 (compiler.nameField.take 32) = compiler.nameField := by
  have length := name_field_length compiler
  rw [List.take_of_length_le length.le, ljustNul, length]
  simp

/-- A header takes 64 bytes, whatever its numbers are. -/
theorem header_length (crc data : Nat) :
    (headerBytes compiler crc timestamp size data).length = 64 := by
  rw [headerBytes, List.length_append, name_field_length, PackedFields.pack_length]
  rfl

include timed sized

/-- Numbers of four bytes fit the header. The other fields are constants and codes of a single byte,
whatever the compiler is set to. -/
theorem header_fits :
    PackedFields.Fits (headerFields compiler headerCrc.toNat timestamp size dataCrc.toNat) := by
  have crc := headerCrc.toNat_lt
  have data := dataCrc.toNat_lt
  have os : compiler.os.value < 256 := by cases compiler.os; decide
  have arch : compiler.arch.value < 256 := by cases compiler.arch <;> decide
  intro field member
  simp only [headerFields, List.mem_cons, List.not_mem_nil, or_false] at member
  rcases member with rfl | rfl | rfl | rfl | rfl | rfl | rfl | rfl | rfl | rfl | rfl
  · decide
  · simpa using crc
  · simpa using timed
  · simpa using sized
  · decide
  · decide
  · simpa using data
  · simpa using os
  · simpa using arch
  · decide
  · decide

/-- Packing a header succeeds when its numbers fit. -/
theorem pack_header_ok :
    packHeader ihMagic headerCrc.toNat timestamp size 0 0 dataCrc.toNat compiler.os.value
      compiler.arch.value ImageType.script.value ImageCompression.none.value compiler.nameField =
        .ok (headerBytes compiler headerCrc.toNat timestamp size dataCrc.toNat) := by
  have fits := header_fits compiler timestamp size headerCrc dataCrc timed sized
  simp only [headerFields] at fits
  simp only [packHeader, packNumbers, fits, if_true, bind, Except.bind, name_field_packed,
    headerBytes, headerFields]

/-- The numbers of a header are read back. -/
theorem header_unpacked :
    PackedFields.unpack [4, 4, 4, 4, 4, 4, 4, 1, 1, 1, 1]
        (headerBytes compiler headerCrc.toNat timestamp size dataCrc.toNat) =
      [ihMagic, headerCrc.toNat, timestamp, size, 0, 0, dataCrc.toNat, compiler.os.value,
        compiler.arch.value, ImageType.script.value, ImageCompression.none.value] :=
  PackedFields.unpack_pack (headerFields compiler headerCrc.toNat timestamp size dataCrc.toNat) _
    (header_fits compiler timestamp size headerCrc dataCrc timed sized)

omit timed sized in
/-- The header without its CRC is the header with zeros in the place of it. -/
theorem header_zeroed (crc data : Nat) :
    (headerBytes compiler crc timestamp size data).take 4 ++ [0, 0, 0, 0] ++
        (headerBytes compiler crc timestamp size data).drop 8 =
      headerBytes compiler 0 timestamp size data := rfl

end Headers

/-- A compiled image is a header with the right size and CRCs before the payload. Both bounds are
those of the fields: the payload's length and the time have to fit into four bytes, or `struct.pack`
raises. -/
theorem compile_image (crc32 : Bytes → UInt32) (timestamp : Nat)
    (compiler : LegacyScriptImageCompiler) (script : Bytes)
    (bounded : script.length < 2 ^ 32 - 8) (timed : timestamp < 2 ^ 32) :
    compiler.compile crc32 timestamp script =
      .ok (headerBytes compiler (crc32 (headerBytes compiler 0 timestamp (8 + script.length)
          (crc32 (payloadHead script ++ script)).toNat)).toNat timestamp (8 + script.length)
          (crc32 (payloadHead script ++ script)).toNat ++ (payloadHead script ++ script)) := by
  have length : (payloadHead script ++ script).length = 8 + script.length := by
    rw [List.length_append, payload_head_length]
  have sized : 8 + script.length < 2 ^ 32 := by omega
  have payload := script_payload_ok script (by omega)
  have blank := pack_header_ok compiler timestamp (8 + script.length) 0
    (crc32 (payloadHead script ++ script)) timed sized
  have filled := fun crc => pack_header_ok compiler timestamp (8 + script.length) crc
    (crc32 (payloadHead script ++ script)) timed sized
  simp only [UInt32.toNat_zero] at blank
  simp only [LegacyScriptImageCompiler.compile, payload, bind, Except.bind, length, blank, filled]

/-- The image of a text gives the text back: what is extracted from it decodes to the same text. -/
theorem text_image_read (crc32 : Bytes → UInt32) (timestamp : Nat)
    (compiler : LegacyScriptImageCompiler) (script : Text)
    (bounded : (Utf8.encode script).length < 2 ^ 32 - 8) (timed : timestamp < 2 ^ 32) :
    ∃ image, compiler.compileText crc32 timestamp script = .ok image ∧
      (extractScriptPayload image).map Utf8.decode = .ok script := by
  have extracted : ∀ header : Bytes, header.length = 64 → extractScriptPayload
      (header ++ (payloadHead (Utf8.encode script) ++ Utf8.encode script)) =
        .ok (Utf8.encode script) := by
    intro header headed
    simpa using extract_script header (Utf8.encode script) headed (by omega) []
  refine ⟨_, compile_image crc32 timestamp compiler _ bounded timed, ?_⟩
  rw [extracted _ (header_length compiler timestamp (8 + (Utf8.encode script).length) _ _),
    Except.map, Utf8.decode_encode]

/-- A compiled image is a header of 64 bytes before the payload, from which the script is extracted
even if bytes follow. The header gives the length and the CRC of the payload, and the CRC of the
header with zeros in the place of that CRC. A strict prefix of the image is refused.

Nothing is assumed of the CRC: the law is about where the numbers stand, not about what they
detect. -/
theorem script_image_round_trip (crc32 : Bytes → UInt32) (timestamp : Nat)
    (compiler : LegacyScriptImageCompiler) (script : Bytes)
    (bounded : script.length < 2 ^ 32 - 8) (timed : timestamp < 2 ^ 32) :
    ∃ header payload : Bytes, compiler.compile crc32 timestamp script = .ok (header ++ payload) ∧
      header.length = 64 ∧ scriptPayload script = .ok payload ∧
      (∀ tail, extractScriptPayload (header ++ payload ++ tail) = .ok script) ∧
      PackedFields.decode ((header.drop 12).take 4) = payload.length ∧
      PackedFields.decode ((header.drop 24).take 4) = (crc32 payload).toNat ∧
      PackedFields.decode ((header.drop 4).take 4) =
        (crc32 (header.take 4 ++ [0, 0, 0, 0] ++ header.drop 8)).toNat ∧
      ∀ size < (header ++ payload).length, ∃ error,
        extractScriptPayload ((header ++ payload).take size) = .error error ∧
          error.cls = .valueError := by
  have length : (payloadHead script ++ script).length = 8 + script.length := by
    rw [List.length_append, payload_head_length]
  have sized : 8 + script.length < 2 ^ 32 := by omega
  have small (word : UInt32) : word.toNat < 256 ^ 4 := word.toNat_lt
  have header := header_length compiler timestamp (8 + script.length)
  refine ⟨_, payloadHead script ++ script,
    compile_image crc32 timestamp compiler script bounded timed, header _ _,
    script_payload_ok script (by omega), ?_, ?_, ?_, ?_, ?_⟩
  · exact extract_script _ script (header _ _) (by omega)
  · rw [length]
    exact PackedFields.field_decoded [(4, ihMagic), (4, _), (4, timestamp)] _ 4
      (8 + script.length) _ sized
  · exact PackedFields.field_decoded [(4, ihMagic), (4, _), (4, timestamp), (4, _), (4, 0), (4, 0)]
      _ 4 _ _ (small _)
  · rw [header_zeroed]
    exact PackedFields.field_decoded [(4, ihMagic)] _ 4 _ _ (small _)
  · exact extract_prefix _ script (header _ _) (by omega)

/-- An image of a short script, with a CRC that counts the bytes. -/
theorem script_image_sample :
    ∃ header payload : Bytes,
      ({ arch := .arm64 } : LegacyScriptImageCompiler).compile
          (fun octets => octets.length.toUInt32) 1700000000 (Utf8.encode "echo ok\n".toList) =
        .ok (header ++ payload) ∧
      extractScriptPayload (header ++ payload ++ [0xFF]) = .ok (Utf8.encode "echo ok\n".toList) := by
  obtain ⟨header, payload, compiled, -, -, extracted, -⟩ := script_image_round_trip
    (fun octets => octets.length.toUInt32) 1700000000 { arch := .arm64 }
    (Utf8.encode "echo ok\n".toList) (by decide) (by decide)
  exact ⟨header, payload, compiled, extracted [0xFF]⟩

end UbootTftp
