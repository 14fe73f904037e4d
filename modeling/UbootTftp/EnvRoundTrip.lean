import UbootTftp.EnvImages

/-!
# Reading back an environment image

The encoder's entries have keys of the pattern and values without NUL, so no byte of an
entry is fill. What the decoder strips is then at most the end of the list and the fill
behind it, and what it does not strip is no entry.
-/

namespace UbootTftp

/-- The characters of the class `[A-Za-z0-9_.-]`. -/
def isKeyCharacter (character : Char) : Bool :=
  character.isAlphanum || character == '_' || character == '.' || character == '-'

/-- An environment that an image can hold: it is not empty, its keys match the pattern and its
values hold no NUL.

An empty environment is left out because its image has no entry, and the decoder takes it for no
environment at all. -/
structure Storable (env : Env) : Prop where
  inhabited : env.entries ≠ []
  keys : ∀ entry ∈ env.entries, entry.1 ≠ [] ∧ ∀ character ∈ entry.1, isKeyCharacter character
  values : ∀ entry ∈ env.entries, '\x00' ∉ entry.2

/-- The check that an image can hold an environment, in the form that can be run. -/
def isStorable (env : Env) : Bool :=
  decide (env.entries ≠ []) && env.entries.all fun entry =>
    decide (entry.1 ≠ []) && entry.1.all isKeyCharacter && decide ('\x00' ∉ entry.2)

/-- The check accepts exactly the environments that an image can hold. -/
theorem is_storable_iff (env : Env) : isStorable env = true ↔ Storable env := by
  simp only [isStorable, Bool.and_eq_true, decide_eq_true_eq, List.all_eq_true]
  constructor
  · rintro ⟨inhabited, entries⟩
    exact ⟨inhabited, fun entry member => (entries entry member).1,
      fun entry member => (entries entry member).2⟩
  · rintro ⟨inhabited, keys, values⟩
    exact ⟨inhabited, fun entry member => ⟨keys entry member, values entry member⟩⟩

instance (env : Env) : Decidable (Storable env) := decidable_of_iff _ (is_storable_iff env)

section Entries

/-- The key bytes by their numbers. They are digits, letters of both cases, the underscore, the dot
and the hyphen. -/
theorem key_byte_iff (octet : UInt8) :
    isKeyByte octet = true ↔
      0x30 ≤ octet.toNat ∧ octet.toNat ≤ 0x39 ∨ 0x41 ≤ octet.toNat ∧ octet.toNat ≤ 0x5A ∨
        0x61 ≤ octet.toNat ∧ octet.toNat ≤ 0x7A ∨ octet.toNat = 0x5F ∨ octet.toNat = 0x2E ∨
        octet.toNat = 0x2D := by
  have numbers : (0x30 : UInt8).toNat = 0x30 ∧ (0x39 : UInt8).toNat = 0x39 ∧
      (0x41 : UInt8).toNat = 0x41 ∧ (0x5A : UInt8).toNat = 0x5A ∧ (0x61 : UInt8).toNat = 0x61 ∧
      (0x7A : UInt8).toNat = 0x7A ∧ (0x5F : UInt8).toNat = 0x5F ∧ (0x2E : UInt8).toNat = 0x2E ∧
      (0x2D : UInt8).toNat = 0x2D := by decide
  simp only [isKeyByte, Bool.or_eq_true, Bool.and_eq_true, decide_eq_true_eq, beq_iff_eq,
    UInt8.le_iff_toNat_le, ← UInt8.toNat_inj]
  omega

/-- The key characters are those that are ASCII and have a key byte. The pattern of the encoder is
on characters and that of the parser on bytes; the two agree on ASCII, and the first one admits
nothing else. -/
theorem key_character_iff (character : Char) :
    isKeyCharacter character = true ↔
      character.toNat < 128 ∧ isKeyByte (UInt8.ofNat character.toNat) = true := by
  have characters : isKeyCharacter character = true ↔
      0x30 ≤ character.toNat ∧ character.toNat ≤ 0x39 ∨
        0x41 ≤ character.toNat ∧ character.toNat ≤ 0x5A ∨
        0x61 ≤ character.toNat ∧ character.toNat ≤ 0x7A ∨ character.toNat = 0x5F ∨
        character.toNat = 0x2E ∨ character.toNat = 0x2D := by
    have classes : isKeyCharacter character =
        (decide (character.val ≥ 'A'.val ∧ character.val ≤ 'Z'.val) ||
          (decide (character.val ≥ 'a'.val) && decide (character.val ≤ 'z'.val)) ||
          (decide (character.val ≥ '0'.val) && decide (character.val ≤ '9'.val)) ||
          character == '_' || character == '.' || character == '-') := rfl
    have same : character.val.toNat = character.toNat := rfl
    have numbers : 'A'.val.toNat = 0x41 ∧ 'Z'.val.toNat = 0x5A ∧ 'a'.val.toNat = 0x61 ∧
        'z'.val.toNat = 0x7A ∧ '0'.val.toNat = 0x30 ∧ '9'.val.toNat = 0x39 ∧
        '_'.val.toNat = 0x5F ∧ '.'.val.toNat = 0x2E ∧ '-'.val.toNat = 0x2D := by decide
    simp only [classes, Bool.or_eq_true, Bool.and_eq_true, decide_eq_true_eq, beq_iff_eq,
      UInt32.le_iff_toNat_le, ge_iff_le, Char.ext_iff, ← UInt32.toNat_inj, same]
    omega
  rw [characters]
  constructor
  · intro ranges
    have small : (UInt8.ofNat character.toNat).toNat = character.toNat := by
      rw [UInt8.toNat_ofNat']
      omega
    refine ⟨by omega, ?_⟩
    rw [key_byte_iff, small]
    omega
  · rintro ⟨ascii, byte⟩
    have small : (UInt8.ofNat character.toNat).toNat = character.toNat := by
      rw [UInt8.toNat_ofNat']
      omega
    rw [key_byte_iff, small] at byte
    omega

/-- A key byte is neither fill nor the separator of an entry. So a key ends exactly at its
separator, and no key is taken for the end of the list. -/
theorem key_byte_plain (octet : UInt8) (accepted : isKeyByte octet) :
    isFill octet = false ∧ octet ≠ 0x3D := by
  constructor
  · rw [Bool.eq_false_iff]
    intro fill
    simp only [isFill, Bool.or_eq_true, beq_iff_eq] at fill
    rcases fill with rfl | rfl
    · exact absurd accepted (by decide)
    · exact absurd accepted (by decide)
  · rintro rfl
    exact absurd accepted (by decide)

/-- A key of the pattern is encoded to key bytes and back. The encoder checks a key twice, first
that it is ASCII and then the pattern; both succeed for it. -/
theorem encode_key (key : Text) (present : key ≠ [])
    (accepted : ∀ character ∈ key, isKeyCharacter character) :
    ∃ keyBytes, encodeAscii key = some keyBytes ∧ envKeyMatches keyBytes = true ∧
      decodeAscii keyBytes = key ∧ ∀ octet ∈ keyBytes, isKeyByte octet := by
  have ascii : key.all (fun character => decide (character.toNat < 128)) = true := by
    rw [List.all_eq_true]
    exact fun character member => decide_eq_true ((key_character_iff character).mp
      (accepted character member)).1
  have bytes : ∀ octet ∈ key.map (fun character => UInt8.ofNat character.toNat),
      isKeyByte octet := by
    intro octet member
    obtain ⟨character, inside, rfl⟩ := List.mem_map.mp member
    exact ((key_character_iff character).mp (accepted character inside)).2
  refine ⟨_, if_pos ascii, ?_, ?_, bytes⟩
  · simp only [envKeyMatches, Bool.and_eq_true, decide_eq_true_eq, List.all_eq_true]
    exact ⟨by simpa using present, bytes⟩
  · rw [decodeAscii, List.map_map]
    conv => rhs; rw [← List.map_id key]
    apply List.map_congr_left
    intro character member
    have small := ((key_character_iff character).mp (accepted character member)).1
    simp only [Function.comp_apply, UInt8.toNat_ofNat', id_eq]
    rw [Nat.mod_eq_of_lt (by omega)]
    exact Char.ofNat_toNat character

/-- No byte of an encoded value is fill. Fill is made of the bytes 00 and FF. The first encodes the
null character only and the second occurs in no encoding. -/
theorem value_plain (value : Text) (clean : '\x00' ∉ value) (octet : UInt8)
    (member : octet ∈ Utf8.encode value) : isFill octet = false := by
  obtain ⟨character, inside, encoded⟩ := List.mem_flatMap.mp member
  obtain ⟨low, high⟩ := Utf8.encoded_octet character octet encoded
  have nonzero : character.toNat ≠ 0 := by
    intro zero
    have null : character = '\x00' := Char.toNat_inj.mp zero
    exact clean (null ▸ inside)
  have first : octet ≠ 0x00 := by
    rintro rfl
    exact nonzero (low (by decide)).symm
  have last : octet ≠ 0xFF := by
    rintro rfl
    exact absurd high (by decide)
  simp only [isFill, Bool.or_eq_false_iff, beq_eq_false_iff_ne]
  exact ⟨first, last⟩

/-- The bytes of an entry before its NUL. -/
def entrySegment (entry : Text × Text) : Bytes :=
  entry.1.map (fun character => UInt8.ofNat character.toNat) ++ 0x3D :: Utf8.encode entry.2

/-- What holds of every entry of an environment that an image can hold: its segment is what the
encoder writes, has no fill and is entered by the decoder as it was.

The three fields are all that the proofs about images use of an entry, so that the encodings of keys
and values are looked at only once. -/
structure Faithful (entry : Text × Text) : Prop where
  encoded : encodeEntry utf8 entry = .ok (entrySegment entry ++ [0x00])
  plain : ∀ octet ∈ entrySegment entry, isFill octet = false
  entered : ∀ env, parseEnvSegment env (entrySegment entry) = env.set entry.1 entry.2

/-- Every entry of a storable environment is encoded faithfully. Its key is ASCII and comes back as
it is, and the NUL that ends the value is the first one behind the key. -/
theorem entry_faithful (entry : Text × Text)
    (key : entry.1 ≠ [] ∧ ∀ character ∈ entry.1, isKeyCharacter character)
    (value : '\x00' ∉ entry.2) : Faithful entry := by
  obtain ⟨keyBytes, ascii, accepted, decoded, bytes⟩ := encode_key entry.1 key.1 key.2
  have same : entry.1.map (fun character => UInt8.ofNat character.toNat) = keyBytes := by
    simp only [encodeAscii] at ascii
    split at ascii
    · exact Option.some.inj ascii
    · cases ascii
  have clean : (0x00 : UInt8) ∉ Utf8.encode entry.2 := by
    intro member
    exact absurd (value_plain entry.2 value 0x00 member) (by decide)
  constructor
  case encoded =>
    simp only [encodeEntry, ascii, accepted, if_true, utf8, clean, if_false, entrySegment, same]
  case plain =>
    intro octet member
    rw [entrySegment, same] at member
    rcases List.mem_append.mp member with inKey | later
    · exact (key_byte_plain octet (bytes octet inKey)).1
    · rcases List.mem_cons.mp later with rfl | inValue
      · rfl
      · exact value_plain entry.2 value octet inValue
  case entered =>
    intro env
    have free : (0x3D : UInt8) ∉ keyBytes := fun member =>
      (key_byte_plain 0x3D (bytes 0x3D member)).2 rfl
    simp only [parseEnvSegment, entrySegment, same, Sequences.partition_append _ _ _ free, accepted,
      Bool.and_self, if_true, decoded, Utf8.decode_encode]

/-- Segments that are no entries are skipped. -/
theorem parse_segment_skip (env : Env) (segment : Bytes)
    (skipped : (0x3D : UInt8) ∉ segment ∨ segment.head? = some 0x3D) :
    parseEnvSegment env segment = env := by
  rcases skipped with absent | headed
  · simp only [parseEnvSegment, Sequences.partition_absent _ _ absent, Bool.false_and,
      Bool.false_eq_true, if_false]
  · obtain ⟨value, rfl⟩ : ∃ value, segment = 0x3D :: value := List.head?_eq_some_iff.mp headed
    have cut := Sequences.partition_append (0x3D : UInt8) [] value (by simp)
    simp only [List.nil_append] at cut
    simp [parseEnvSegment, cut, envKeyMatches]

/-- A run of segments that are no entries is skipped. -/
theorem parse_segments_skip (env : Env) (segments : List Bytes)
    (skipped : ∀ segment ∈ segments, (0x3D : UInt8) ∉ segment ∨ segment.head? = some 0x3D) :
    segments.foldl parseEnvSegment env = env := by
  induction segments with
  | nil => rfl
  | cons segment segments inductionHypothesis =>
    obtain ⟨first, others⟩ := List.forall_mem_cons.mp skipped
    rw [List.foldl_cons, parse_segment_skip env segment first]
    exact inductionHypothesis others

end Entries

section Payload

/-- A list is mapped without an exception when each of its items is. -/
theorem map_m_ok {α β ε : Type} (read : α → Except ε β) (value : α → β) (items : List α)
    (each : ∀ item ∈ items, read item = .ok (value item)) :
    items.mapM read = .ok (items.map value) := by
  induction items with
  | nil => rfl
  | cons item items inductionHypothesis =>
    obtain ⟨first, others⟩ := List.forall_mem_cons.mp each
    rw [List.mapM_cons, first, inductionHypothesis others]
    rfl

/-- The bytes of an image's data before the fill. -/
def envPayload (env : Env) : Bytes :=
  (env.entries.map entrySegment).flatMap (· ++ [0x00]) ++ [0x00]

/-- What the data of an image takes at least: for each entry the key, the encoded value, the equals
sign and the NUL, and one byte for the end of the list. A size that is given must leave room for it
behind the header. -/
def payloadSize (env : Env) : Nat :=
  (env.entries.map (fun entry => entry.1.length + (Utf8.encode entry.2).length + 2)).sum + 1

/-- The payload's length is what its entries and the end of the list take. -/
theorem payload_length (env : Env) : (envPayload env).length = payloadSize env := by
  simp only [envPayload, payloadSize, List.length_append, List.length_singleton]
  congr 1
  induction env.entries with
  | nil => rfl
  | cons entry entries inductionHypothesis =>
    simp only [List.map_cons, List.flatMap_cons, List.length_append, List.sum_cons,
      inductionHypothesis, entrySegment, List.length_map, List.length_cons, List.length_nil]
    omega

variable {env : Env} (storable : Storable env)

include storable

/-- Every entry is encoded faithfully. -/
theorem Storable.faithful : ∀ entry ∈ env.entries, Faithful entry := fun entry member =>
  entry_faithful entry (storable.keys entry member) (storable.values entry member)

/-- The encoder accepts a storable environment. -/
theorem Storable.encoded : encodeEnvImagePayload env utf8 = .ok (envPayload env) := by
  have segments := map_m_ok (encodeEntry utf8) (fun entry => entrySegment entry ++ [0x00])
    env.entries (fun entry member => (storable.faithful entry member).encoded)
  simp only [encodeEnvImagePayload, segments, envPayload, List.flatMap_map]
  rfl

/-- Entering the segments of an environment gives the environment. The induction is on the entries,
from any environment that the keys are new to. -/
theorem Storable.entered :
    (env.entries.map entrySegment).foldl parseEnvSegment Dict.empty = env := by
  rw [List.foldl_map]
  have same : ∀ (entries : List (Text × Text)) (start : Env),
      (∀ entry ∈ entries, Faithful entry) →
      entries.foldl (fun current entry => parseEnvSegment current (entrySegment entry)) start =
        start.update entries := by
    intro entries start faithful
    exact List.foldl_ext _ _ _ fun current entry member => (faithful entry member).entered current
  rw [same env.entries Dict.empty storable.faithful]
  exact env.ofList_entries

/-- No segment holds a NUL. -/
theorem Storable.segments_free : ∀ segment ∈ env.entries.map entrySegment,
    (0x00 : UInt8) ∉ segment := by
  intro segment member null
  obtain ⟨entry, inside, rfl⟩ := List.mem_map.mp member
  exact absurd ((storable.faithful entry inside).plain 0x00 null) (by decide)

/-- The last segment is not empty and holds no fill. -/
theorem Storable.last_segment :
    ∃ front last, env.entries.map entrySegment = front ++ [last] ∧ last ≠ [] ∧
      ∀ octet ∈ last, isFill octet = false := by
  obtain ⟨front, last, segments⟩ : ∃ front last, env.entries.map entrySegment = front ++ [last] :=
    ⟨_, _, (List.dropLast_append_getLast (by simpa using storable.inhabited)).symm⟩
  have member : last ∈ env.entries.map entrySegment := by simp [segments]
  obtain ⟨entry, inside, rfl⟩ := List.mem_map.mp member
  exact ⟨front, _, segments, by simp [entrySegment], (storable.faithful entry inside).plain⟩

/-- The payload ends in the bytes of the last entry and two NULs. -/
theorem Storable.payload_last :
    ∃ front last, envPayload env = front ++ last ++ [0x00, 0x00] ∧ last ≠ [] ∧
      ∀ octet ∈ last, isFill octet = false := by
  obtain ⟨front, last, segments, present, plain⟩ := storable.last_segment
  exact ⟨front.flatMap (· ++ [0x00]), last, by simp [envPayload, segments], present, plain⟩

/-- The segments that the decoder finds: those of the entries, and behind them at most the empty one
that ends the list and the fill.

The decoder strips fill of 00 and FF from the end, so what is left over depends on the fill byte: no
case is excluded, and none of what may be left over is an entry. -/
theorem Storable.split (count : Nat) (pad : UInt8) :
    ∃ rest, ((envPayload env ++ List.replicate count pad).rdropWhile isFill).splitOn 0x00 =
        env.entries.map entrySegment ++ rest ∧
      ∀ segment ∈ rest, (0x3D : UInt8) ∉ segment ∨ segment.head? = some 0x3D := by
  have free := storable.segments_free
  by_cases fill : isFill pad = true ∨ count = 0
  · -- Everything behind the last entry is fill, and the last byte of an entry is none.
    obtain ⟨front, last, segments, present, plain⟩ := storable.last_segment
    have dropped : ∀ octet ∈ 0x00 :: 0x00 :: List.replicate count pad, isFill octet = true := by
      intro octet member
      simp only [List.mem_cons, List.mem_replicate] at member
      rcases member with rfl | rfl | ⟨more, rfl⟩
      · rfl
      · rfl
      · rcases fill with filling | zero
        · exact filling
        · exact absurd zero more
    have shape : envPayload env ++ List.replicate count pad =
        (front.flatMap (· ++ [0x00]) ++ last) ++ 0x00 :: 0x00 :: List.replicate count pad := by
      simp [envPayload, segments]
    rw [segments] at free
    refine ⟨[], ?_, fun _ member => by cases member⟩
    rw [shape, Sequences.rdrop_tail _ _ _ dropped, Sequences.rdrop_kept _ _ _ present plain,
      Sequences.split_terminated _ _ _ (fun segment member => free segment (by simp [member])),
      List.splitOn_eq_singleton (free last (by simp)), segments, List.append_nil]
  · -- The fill stays and is a segment of its own.
    obtain ⟨solid, more⟩ := not_or.mp fill
    have plain : ∀ octet ∈ List.replicate count pad, isFill octet = false := by
      intro octet member
      rw [(List.mem_replicate.mp member).2]
      simpa using solid
    have separate : (0x00 : UInt8) ∉ List.replicate count pad := fun member =>
      absurd (plain 0x00 member) (by decide)
    refine ⟨[[], List.replicate count pad], ?_, ?_⟩
    · rw [Sequences.rdrop_kept _ _ _ (by simpa using more) plain, envPayload, List.append_assoc,
        Sequences.split_terminated _ _ _ free]
      congr 1
      have cut : ([] ++ 0x00 :: List.replicate count pad).splitOn 0x00 =
          [] :: (List.replicate count pad).splitOn 0x00 :=
        List.splitOn_append_cons_self_of_not_mem (List.not_mem_nil) _
      rw [List.nil_append] at cut
      rw [List.singleton_append, cut, List.splitOn_eq_singleton separate]
    · intro segment member
      simp only [List.mem_cons, List.not_mem_nil, or_false] at member
      rcases member with rfl | rfl
      · exact .inl (by simp)
      · by_cases separator : pad = 0x3D
        · exact .inr (by simp [separator, List.head?_replicate, more])
        · exact .inl fun member => separator (List.mem_replicate.mp member).2.symm

/-- The decoder reads a storable environment back, whatever the fill is. The fill byte may even be
an equals sign or a letter: a segment of fill has no key. -/
theorem Storable.decoded (count : Nat) (pad : UInt8) :
    parseNulDelimitedEnv (envPayload env ++ List.replicate count pad) = env := by
  obtain ⟨rest, split, skipped⟩ := storable.split count pad
  rw [parseNulDelimitedEnv, split, List.foldl_append, storable.entered]
  exact parse_segments_skip env rest skipped

/-- The data of an image is not erased flash: it holds the separator of an entry. Erased flash
consists of one byte only, and the separator is neither of the two that it may be. -/
theorem Storable.unerased (header fill : Bytes) :
    isErased (header ++ (envPayload env ++ fill)) = false := by
  obtain ⟨entry, inside⟩ := List.exists_mem_of_ne_nil _ storable.inhabited
  have separator : (0x3D : UInt8) ∈ header ++ (envPayload env ++ fill) := by
    apply List.mem_append_right
    apply List.mem_append_left
    apply List.mem_append_left
    rw [List.mem_flatMap]
    exact ⟨entrySegment entry, List.mem_map_of_mem inside, by simp [entrySegment]⟩
  rw [isErased, Bool.or_eq_false_iff]
  constructor
  · exact List.all_eq_false.mpr ⟨0x3D, separator, by decide⟩
  · exact List.all_eq_false.mpr ⟨0x3D, separator, by decide⟩

end Payload

section Images

variable (codecs : Codecs)

/-- The four bytes of a word give the word back. -/
theorem from_to_little_endian (word : UInt32) :
    fromLittleEndian (toLittleEndian word) = word.toNat := by
  have bound : word.toNat < 4294967296 := word.toNat_lt
  simp only [fromLittleEndian, toLittleEndian, List.map_cons, List.map_nil, Nat.ofDigits_cons,
    Nat.ofDigits_nil, UInt8.toNat_ofNat']
  omega

/-- An image: the CRC of its data, the flags if any, and the data. -/
def envImage (flags data : Bytes) : Bytes := toLittleEndian (codecs.crc32 data) ++ flags ++ data

/-- The CRC of an image takes four bytes. -/
theorem little_endian_length (word : UInt32) : (toLittleEndian word).length = 4 := rfl

/-- The length of an image. -/
theorem env_image_length (flags data : Bytes) :
    (envImage codecs flags data).length = 4 + flags.length + data.length := by
  rw [envImage, List.length_append, List.length_append, little_endian_length]

/-- The data of an image is behind its header. -/
theorem env_image_data (flags data : Bytes) :
    (envImage codecs flags data).drop (4 + flags.length) = data := by
  rw [envImage]
  exact List.drop_left' (by rw [List.length_append, little_endian_length])

/-- An image passes the CRC check behind its own header. -/
theorem image_crc (flags data : Bytes) :
    crcMatches codecs (envImage codecs flags data) (4 + flags.length) = true := by
  have taken : (envImage codecs flags data).take 4 = toLittleEndian (codecs.crc32 data) := by
    rw [envImage, List.append_assoc]
    exact List.take_left' (little_endian_length _)
  simp only [crcMatches, env_image_data, taken, from_to_little_endian, or_true, decide_true]

variable {env : Env} (storable : Storable env)

include storable

/-- An image is read back behind its own header. -/
theorem Storable.read (flags : Bytes) (count : Nat) (pad : UInt8) :
    parseBehindHeader codecs
      (envImage codecs flags (envPayload env ++ List.replicate count pad)) (4 + flags.length) =
        some env := by
  have longer : ¬(envImage codecs flags (envPayload env ++ List.replicate count pad)).length ≤
      4 + flags.length := by
    simp only [env_image_length, List.length_append, payload_length, payloadSize]
    omega
  simp only [parseBehindHeader, longer, if_false, image_crc, if_true, env_image_data,
    storable.decoded, storable.inhabited]

/-- An image is read back by the decoder, unless it has flags and its CRC also fits the reading with
the shorter header. The decoder tries the header of four bytes first, so that an image with flags is
reached only when that first reading fails. -/
theorem Storable.parsed (flags : Bytes) (count : Nat) (pad : UInt8)
    (header : flags.length = 0 ∨ flags.length = 1 ∧
      crcMatches codecs (envImage codecs flags (envPayload env ++ List.replicate count pad)) 4 =
        false) :
    ubootenvParsePart codecs
      (envImage codecs flags (envPayload env ++ List.replicate count pad)) = .ok env := by
  have read := storable.read codecs flags count pad
  have solid : isErased (envImage codecs flags (envPayload env ++ List.replicate count pad)) =
      false := by
    rw [envImage]
    exact storable.unerased _ _
  have present : envImage codecs flags (envPayload env ++ List.replicate count pad) ≠ [] := by
    simp [envImage, toLittleEndian]
  simp only [ubootenvParsePart, present, if_false, solid, Bool.false_eq_true]
  rcases header with plain | ⟨flagged, unlike⟩
  · rw [plain, Nat.add_zero] at read
    simp only [List.findSome?_cons, read]
  · have first : parseBehindHeader codecs
        (envImage codecs flags (envPayload env ++ List.replicate count pad)) 4 = none := by
      simp only [parseBehindHeader, unlike, Bool.false_eq_true, if_false, ite_self]
    rw [flagged] at read
    simp only [List.findSome?_cons, first, read]

end Images

/-- A storable environment that fits is built into an image of the requested size: its CRC, the
flags, the payload and some number of fill bytes. -/
theorem Storable.built {env : Env} (storable : Storable env) (codecs : Codecs)
    (size flags : Option Int) (padByte : Int) (pad : isByte padByte = true)
    (flagsByte : flags.all isByte = true)
    (fits : ∀ requested, size = some requested →
      headerSize flags + payloadSize env ≤ requested) :
    ∃ count, ubootenvBuild codecs env size flags padByte utf8 =
        .ok (envImage codecs (flags.map (fun value => UInt8.ofNat value.toNat)).toList
          (envPayload env ++ List.replicate count (UInt8.ofNat padByte.toNat))) ∧
      ∀ requested, size = some requested →
        headerSize flags + (payloadSize env + count : Nat) = requested := by
  simp only [ubootenvBuild, pad, flagsByte, Bool.true_eq_false, if_false, storable.encoded]
  cases size with
  | none => exact ⟨0, by simp [fillPayload, bind, Except.bind, envImage], fun _ none => by cases none⟩
  | some requested =>
    have enough := fits requested rfl
    have room : ¬requested - headerSize flags < ((envPayload env).length : Int) := by
      rw [payload_length]
      omega
    refine ⟨(requested - headerSize flags - (envPayload env).length).toNat, ?_, ?_⟩
    · simp only [bind, Except.bind, fillPayload, room, if_false]
      rfl
    · intro other same
      cases same
      rw [payload_length]
      omega

/-- For every environment whose keys match the pattern and whose values hold no NUL, every fill
byte, every size that fits and any flags for which the reading with a shorter header does not pass
the CRC check too: the image has the requested size, and reading it gives the environment back.

Nothing is assumed of the checksum, not even that it is a CRC: that the reading with a shorter
header fails cannot be proved of an arbitrary one and is the only condition on it. -/
theorem env_image_round_trip (codecs : Codecs) (env : Env) (storable : Storable env)
    (size flags : Option Int) (padByte : Int) (pad : 0 ≤ padByte ∧ padByte ≤ 255)
    (flagsByte : ∀ value, flags = some value → 0 ≤ value ∧ value ≤ 255)
    (fits : ∀ requested, size = some requested → headerSize flags + payloadSize env ≤ requested)
    (unlike : ∀ image, flags ≠ none →
      ubootenvBuild codecs env size flags padByte utf8 = .ok image →
      crcMatches codecs image 4 = false) :
    ∃ image, ubootenvBuild codecs env size flags padByte utf8 = .ok image ∧
      (∀ requested, size = some requested → (image.length : Int) = requested) ∧
      ubootenvParsePart codecs image = .ok env := by
  have ranges : isByte padByte = true ∧ flags.all isByte = true := by
    constructor
    · simpa [isByte] using pad
    · cases flags with
      | none => rfl
      | some value => simpa [isByte] using flagsByte value rfl
  obtain ⟨count, built, sized⟩ := storable.built codecs size flags padByte ranges.1 ranges.2 fits
  refine ⟨_, built, ?_, ?_⟩
  · intro requested same
    rw [← sized requested same]
    simp only [envImage, toLittleEndian, List.length_append, List.length_map, payload_length,
      List.length_replicate, headerSize, List.length_cons, List.length_nil]
    cases flags with
    | none =>
      simp only [Option.map_none, Option.toList_none, List.length_nil, Option.isNone_none, if_true]
      omega
    | some value =>
      simp only [Option.map_some, Option.toList_some, List.length_singleton, Option.isNone_some,
        Bool.false_eq_true, if_false]
      omega
  · apply storable.parsed codecs
    cases flags with
    | none => exact .inl rfl
    | some value => exact .inr ⟨rfl, unlike _ (by simp) built⟩

/-- An environment with several variables: a value with equals signs, one that is empty and one
that begins with white space. -/
def severalEnv : Env :=
  Dict.ofList [("root".toList, "a==1".toList), ("none".toList, []), ("pad".toList, " \t2 3".toList)]

/-- It can be stored. -/
theorem several_storable : Storable severalEnv := by decide +kernel

/-- The round trip of that environment in an image with flags and fill. -/
theorem env_image_round_trip_sample :
    ∃ image, ubootenvBuild sampleCodecs severalEnv (some 40) (some 1) 0xFF utf8 = .ok image ∧
      (∀ requested, some (40 : Int) = some requested → (image.length : Int) = requested) ∧
      ubootenvParsePart sampleCodecs image = .ok severalEnv := by
  apply env_image_round_trip sampleCodecs severalEnv several_storable (some 40) (some 1) 0xFF
  case pad => decide
  case flagsByte => exact fun value same => by cases same; decide
  case fits => exact fun requested same => by cases same; decide +kernel
  case unlike =>
    intro image _ built
    have known : (ubootenvBuild sampleCodecs severalEnv (some 40) (some 1) 0xFF utf8).toOption.all
        (fun image => !crcMatches sampleCodecs image 4) = true := by decide +kernel
    simpa [built, Except.toOption] using known

example : ubootenvBuild sampleCodecs sampleEnv none none 0 utf8 =
    .ok ([0x3B, 0x06, 0x98, 0x45] ++ [0x61, 0x3D, 0x31, 0x00, 0x00]) := by decide +kernel

end UbootTftp
