import UbootTftp.ExportKeys
import UbootTftp.FlashImages

/-!
# Environment images whose CRC does not match

A partition without a valid CRC is read once more, as text without a header. When an image's
own header is replaced, that reading strips the bytes 00 and FF in front and takes what is
left of the header for the beginning of the first key. It refuses the image exactly when
that beginning is no text of a key, when it holds another byte FF, or when the lines that
result name one key only. Nothing is assumed of the checksum.
-/

namespace UbootTftp

/-- What is left of a header where the image is read as text. -/
def headerStart (header : Bytes) : Bytes := header.dropWhile isFill

/-- A header whose bytes can begin the text of a partition without a header: behind the fill they
are key bytes only, or key bytes and an equals sign, and hold no further FF.

A header of a random checksum rarely does. One that consists of letters does. -/
def BeginsText (header : Bytes) : Prop :=
  (0xFF : UInt8) ∉ headerStart header ∧
    ((headerStart header).all isKeyByte = true ∨ rawEnvPrefixMatches (headerStart header) = true)

/-- An entry as a line of text. -/
def entryLine (entry : Text × Text) : Text := entry.1 ++ '=' :: entry.2

/-- The entries of an environment as lines of text. -/
def entriesText (env : Env) : Text := List.intercalate ['\n'] (env.entries.map entryLine)

/-- The keys that the lines name when a header stands before the entries. Only the first line is
affected, since what is left of a header holds no newline that would matter to the others. -/
def keysBehind (header : Bytes) (env : Env) : List Text :=
  exportKeys (exportText (headerStart header) ++ entriesText env)

/-- An image with another header. -/
def withHeader (header image : Bytes) : Bytes := header ++ image.drop 4

/-- A partition that is refused, so that the embedded environment of the boot region stands for it
in every flash image.

Both functions are in the statement: the parser raises, and the extraction goes on to the embedded
environment whatever else the flash holds. -/
def FallsBack (codecs : Codecs) (partition : Bytes) : Prop :=
  ubootenvParsePart codecs partition = .error .invalidPartition ∧
    ∀ flash layout resolved, resolvePartitionLayout codecs flash layout = .ok resolved →
      Sequences.sliceInt flash resolved.envOffset (resolved.envOffset + resolved.envSize) =
        partition →
      (partition.length : Int) = resolved.envSize →
      ubootenvExtract codecs flash layout =
        embeddedEnv codecs flash layout.bootOffset resolved .invalidPartition

section Accepted

/-- Every item of a list that is mapped without an exception is. The induction is on the items, with
any list of values. -/
theorem map_m_each {α β ε : Type} (read : α → Except ε β) (items : List α) (values : List β)
    (mapped : items.mapM read = .ok values) : ∀ item ∈ items, ∃ value, read item = .ok value := by
  induction items generalizing values with
  | nil => exact fun _ member => by cases member
  | cons item items inductionHypothesis =>
    rw [List.mapM_cons] at mapped
    obtain ⟨value, first, rest⟩ := (Except.bind_eq_ok _ _ _).mp mapped
    obtain ⟨others, later, _⟩ := (Except.bind_eq_ok _ _ _).mp rest
    intro tested member
    rcases List.mem_cons.mp member with rfl | behind
    · exact ⟨value, first⟩
    · exact inductionHypothesis others later tested behind

/-- An entry that the encoder accepts has a key of the pattern and a value without NUL. The encoder
raises for a key that is not ASCII, for one that the pattern does not match and for a NUL in the
value. -/
theorem encode_entry_accepted (entry : Text × Text) (octets : Bytes)
    (encoded : encodeEntry utf8 entry = .ok octets) :
    (entry.1 ≠ [] ∧ ∀ character ∈ entry.1, isKeyCharacter character) ∧ '\x00' ∉ entry.2 := by
  simp only [encodeEntry, encodeAscii] at encoded
  by_cases ascii : entry.1.all (fun character => decide (character.toNat < 128)) = true
  · simp only [ascii, if_true] at encoded
    split at encoded
    · rename_i matched
      simp only [envKeyMatches, Bool.and_eq_true, decide_eq_true_eq, List.all_eq_true,
        List.mem_map, forall_exists_index, and_imp, forall_apply_eq_imp_iff₂] at matched
      rw [List.all_eq_true] at ascii
      refine ⟨⟨by simpa using matched.1, fun character member =>
        (key_character_iff character).mpr ⟨by simpa using ascii character member,
          matched.2 character member⟩⟩, fun null => ?_⟩
      have octet : (0x00 : UInt8) ∈ Utf8.encode entry.2 := by
        rw [Utf8.encode, List.mem_flatMap]
        exact ⟨'\x00', null, by decide⟩
      simp only [utf8, octet, if_true] at encoded
      cases encoded
    · cases encoded
  · simp only [ascii, Bool.false_eq_true, if_false] at encoded
    cases encoded

/-- An image that the encoder builds without flags holds a storable environment, behind its CRC and
before some fill. That the environment is storable is a consequence here: the encoder refuses every
other. -/
theorem build_accepted (codecs : Codecs) (env : Env) (size : Option Int) (padByte : Int)
    (image : Bytes) (built : ubootenvBuild codecs env size none padByte utf8 = .ok image)
    (inhabited : env.entries ≠ []) :
    Storable env ∧ ∃ count pad, image = envImage codecs [] (envPayload env ++
      List.replicate count pad) := by
  have pad : ¬isByte padByte = false := by
    intro outside
    simp [ubootenvBuild, outside] at built
  simp only [ubootenvBuild, pad, if_false, Option.all_none, Bool.true_eq_false] at built
  obtain ⟨payload, encoded, filled⟩ := (Except.bind_eq_ok _ _ _).mp built
  obtain ⟨segments, mapped, _⟩ := (Except.bind_eq_ok _ _ _).mp encoded
  have storable : Storable env :=
    ⟨inhabited, fun entry member => by
        obtain ⟨octets, entered⟩ := map_m_each _ _ _ mapped entry member
        exact (encode_entry_accepted entry octets entered).1,
      fun entry member => by
        obtain ⟨octets, entered⟩ := map_m_each _ _ _ mapped entry member
        exact (encode_entry_accepted entry octets entered).2⟩
  refine ⟨storable, ?_⟩
  have same : payload = envPayload env := by
    rw [storable.encoded] at encoded
    cases encoded
    rfl
  subst same
  obtain ⟨data, fill, made⟩ := (Except.bind_eq_ok _ _ _).mp filled
  have image_eq : image = envImage codecs [] data := by
    cases made
    simp [envImage]
  cases size with
  | none =>
    cases fill
    exact ⟨0, 0, by simpa using image_eq⟩
  | some requested =>
    simp only [fillPayload] at fill
    split at fill
    · cases fill
    · cases fill
      exact ⟨_, _, image_eq⟩

end Accepted

section Readings

/-- No byte of encoded text is FF. -/
theorem encode_unfilled (text : Text) : (0xFF : UInt8) ∉ Utf8.encode text := by
  intro member
  obtain ⟨character, _, octet⟩ := List.mem_flatMap.mp member
  exact absurd (Utf8.encoded_octet character 0xFF octet).2 (by decide)

/-- Segments that end in a separator are the joined segments and one more separator. The
induction is on the segments. Without a segment there is no separator either, which is why one
is asked for. -/
theorem flat_terminated {α : Type} (separator : α) (segments : List (List α))
    (present : segments ≠ []) :
    segments.flatMap (· ++ [separator]) = List.intercalate [separator] segments ++ [separator] := by
  induction segments with
  | nil => exact absurd rfl present
  | cons segment segments inductionHypothesis =>
    cases segments with
    | nil => simp
    | cons next segments =>
      rw [List.flatMap_cons, inductionHypothesis (by simp), List.intercalate_cons_cons]
      simp

/-- Lines that are separated by NULs are separated by newlines once the NULs are replaced.

Proof: by induction on the lines, of which the second one decides whether a separator follows. -/
theorem replaced_lines (lines : List Text) (free : ∀ line ∈ lines, '\x00' ∉ line) :
    (List.intercalate ['\x00'] lines).map
        (fun character => if character = '\x00' then '\n' else character) =
      List.intercalate ['\n'] lines := by
  have kept : ∀ line ∈ lines, line.map
      (fun character => if character = '\x00' then '\n' else character) = line := by
    intro line member
    conv => rhs; rw [← List.map_id line]
    refine List.map_congr_left fun character inside => ?_
    have solid : character ≠ '\x00' := fun null => free line member (null ▸ inside)
    simp [solid]
  induction lines with
  | nil => rfl
  | cons line lines inductionHypothesis =>
    obtain ⟨first, others⟩ := List.forall_mem_cons.mp kept
    cases lines with
    | nil => simpa using first
    | cons next lines =>
      rw [List.intercalate_cons_cons, List.intercalate_cons_cons, List.map_append, List.map_append,
        first, inductionHypothesis (fun line member => free line (List.mem_cons_of_mem _ member))
          others]
      rfl

variable {env : Env} (storable : Storable env)

include storable

/-- The entries before the end of the list are encoded text: lines that end in a NUL. The text is
encoded as a whole, which is possible because the encoding of a list of characters is that of its
parts in a row. -/
theorem Storable.payload_text :
    envPayload env =
      Utf8.encode (List.intercalate ['\x00'] (env.entries.map entryLine)) ++ [0x00, 0x00] := by
  have segment : ∀ entry ∈ env.entries, entrySegment entry = Utf8.encode (entryLine entry) := by
    intro entry member
    have key : Utf8.encode entry.1 =
        entry.1.map (fun character => UInt8.ofNat character.toNat) := by
      have characters := (storable.keys entry member).2
      generalize entry.1 = text at characters
      induction text with
      | nil => rfl
      | cons character text inductionHypothesis =>
        obtain ⟨first, others⟩ := List.forall_mem_cons.mp characters
        have ascii := ((key_character_iff character).mp first).1
        rw [Utf8.encode_cons, (Utf8.encode_ascii character ascii).1, inductionHypothesis others]
        rfl
    have split : Utf8.encode (entryLine entry) =
        Utf8.encode entry.1 ++ 0x3D :: Utf8.encode entry.2 := by
      rw [entryLine, Utf8.encode, List.flatMap_append]
      rfl
    rw [split, key, entrySegment]
  have segments : (env.entries.map entrySegment).flatMap (· ++ [0x00]) =
      Utf8.encode ((env.entries.map entryLine).flatMap (· ++ ['\x00'])) := by
    rw [List.map_congr_left segment, Utf8.encode, List.flatMap_assoc, List.flatMap_map,
      List.flatMap_map]
    refine List.flatMap_congr fun entry _ => ?_
    rw [Utf8.encode, List.flatMap_append]
    rfl
  rw [envPayload, segments, flat_terminated _ _ (by simpa using storable.inhabited), Utf8.encode,
    List.flatMap_append, List.append_assoc]
  rfl

/-- The text of the entries begins with a character of the first key. An environment without entries
cannot be stored, so there is a first key. -/
theorem Storable.text_head :
    ∃ character text, isKeyCharacter character ∧
      List.intercalate ['\x00'] (env.entries.map entryLine) = character :: text := by
  obtain ⟨entry, entries, shape⟩ := List.exists_cons_of_ne_nil storable.inhabited
  obtain ⟨present, characters⟩ := storable.keys entry (by simp [shape])
  obtain ⟨character, key, split⟩ := List.exists_cons_of_ne_nil present
  rw [shape, List.map_cons, entryLine, split]
  cases entries.map entryLine with
  | nil => exact ⟨character, _, characters character (by simp [split]), by simp; rfl⟩
  | cons next others =>
    rw [List.intercalate_cons_cons]
    exact ⟨character, _, characters character (by simp [split]), rfl⟩

/-- Whatever stands before the entries is read on its own. The entries begin with a character of
ASCII, so decoding does not reach across the border even where it replaces bytes in front of it. -/
theorem Storable.export_text (start : Bytes) :
    exportText (start ++
        Utf8.encode (List.intercalate ['\x00'] (env.entries.map entryLine))) =
      exportText start ++ entriesText env := by
  have lines : (List.intercalate ['\x00'] (env.entries.map entryLine)).map
      (fun character => if character = '\x00' then '\n' else character) = entriesText env := by
    refine replaced_lines _ fun line member null => ?_
    obtain ⟨entry, inside, rfl⟩ := List.mem_map.mp member
    rcases List.mem_append.mp null with inKey | later
    · exact absurd ((storable.keys entry inside).2 _ inKey) (by decide)
    · exact storable.values entry inside (by simpa using later)
  obtain ⟨character, text, accepted, head⟩ := storable.text_head
  have ascii := ((key_character_iff character).mp accepted).1
  rw [← lines, head, Utf8.encode_cons, (Utf8.encode_ascii character ascii).1, exportText,
    List.singleton_append, Utf8.decode_ascii _ _ _ ascii, Utf8.decode_encode, List.map_append]
  rfl

end Readings

/-- A line that begins with the equals sign names no key. -/
theorem separator_names_nothing (line : Text) : lineKey ('=' :: line) = none := by
  have stripped : Text.strip ('=' :: line) = [] ++ '=' :: line.rdropWhile Text.isSpace := by
    rw [← Sequences.rdrop_behind Text.isSpace [] line '=' (by decide), Text.strip, Sequences.strip,
      List.dropWhile_cons_of_neg (by decide)]
    rfl
  simp only [lineKey, stripped, Sequences.partition_append '=' [] _ (by simp), ne_eq,
    not_true_eq_false, decide_false, Bool.and_false, Bool.false_eq_true, if_false]

/-- Fill behind the end of the list names no key. This holds for any byte. Fill of equals signs is
the one case to be looked at: it is a single line with nothing in front of its first sign. -/
theorem fill_names_nothing (count : Nat) (pad : UInt8) :
    exportKeys (exportText (List.replicate count pad)) = [] := by
  by_cases separator : pad = 0x3D
  · subst separator
    have text : exportText (List.replicate count 0x3D) = List.replicate count '=' := by
      have decoded := Utf8.decode_ascii_text (List.replicate count '=') (by simp)
      rw [List.map_replicate] at decoded
      rw [exportText]
      change (Utf8.decode (List.replicate count (UInt8.ofNat '='.toNat))).map _ = _
      rw [decoded, List.map_replicate]
      rfl
    have unbroken : ∀ character ∈ List.replicate count '=', Text.isLineBreak character = false := by
      intro character member
      rw [(List.mem_replicate.mp member).2]
      decide
    have lines := lines_from_solid [] (List.replicate count '=') [] unbroken
    rw [List.append_nil, List.nil_append] at lines
    rw [text, exportKeys, Text.splitLines, lines]
    cases count with
    | zero => rfl
    | succ count =>
      rw [List.replicate_succ]
      simp [Text.linesFrom, separator_names_nothing]
  · refine export_keys_plain _ fun member => ?_
    obtain ⟨character, decoded, same⟩ := List.mem_map.mp member
    have equals : character = '=' := by
      split at same
      · exact absurd same (by decide)
      · exact same
    subst equals
    have octet := Utf8.decoded_ascii _ '=' (by decide) decoded
    exact separator (List.mem_replicate.mp octet).2.symm

section Keys

/-- Every line behind a newline names its keys, whatever stands before it.

Proof: by induction on the lines; what stands before a line is generalised, since each line is
before the next one. -/
theorem later_lines_named (before : Text) (lines : List Text) (line : Text)
    (member : line ∈ lines) (key : Text) (named : key ∈ exportKeys line) :
    key ∈ exportKeys (before ++ '\n' :: List.intercalate ['\n'] lines) := by
  induction lines generalizing before with
  | nil => cases member
  | cons first lines inductionHypothesis =>
    rw [export_keys_append]
    apply List.mem_append_right
    cases lines with
    | nil =>
      rw [List.intercalate_singleton, ← List.mem_singleton.mp member]
      exact named
    | cons next lines =>
      rw [List.intercalate_cons_cons, List.append_assoc, List.singleton_append]
      rcases List.mem_cons.mp member with rfl | later
      · rw [export_keys_append]
        exact List.mem_append_left _ named
      · exact inductionHypothesis first later

/-- With three entries two keys are named whatever the header is: it can only change the first one.
The refusal for want of keys is then possible with two entries only. -/
theorem Storable.three_keys {env : Env} (storable : Storable env)
    (several : 3 ≤ env.entries.length) (header : Bytes) : TwoKeys (keysBehind header env) := by
  obtain ⟨first, second, third, rest, shape⟩ :
      ∃ first second third rest, env.entries = first :: second :: third :: rest := by
    match entries : env.entries with
    | [] | [_] | [_, _] => simp [entries] at several
    | first :: second :: third :: rest => exact ⟨first, second, third, rest, rfl⟩
  have text : exportText (headerStart header) ++ entriesText env =
      (exportText (headerStart header) ++ entryLine first) ++ '\n' ::
        List.intercalate ['\n'] ((second :: third :: rest).map entryLine) := by
    rw [entriesText, shape, List.map_cons, List.map_cons, List.intercalate_cons_cons]
    simp
  have named : ∀ entry ∈ second :: third :: rest, entry.1 ∈ keysBehind header env := by
    intro entry member
    have inside : entry ∈ env.entries := by
      rw [shape]
      exact List.mem_cons_of_mem _ member
    obtain ⟨present, characters⟩ := storable.keys entry inside
    rw [keysBehind, text]
    exact later_lines_named _ _ _ (List.mem_map_of_mem member) _
      (export_keys_entry entry.1 entry.2 present characters)
  have distinct := env.distinct
  rw [shape] at distinct
  refine ⟨second.1, named second (by simp), third.1, named third (by simp), fun same => ?_⟩
  simp [same] at distinct

end Keys

section Headers

/-- The prefix test looks at a header and the first key together. If the header consists of bytes
that a key may hold, the two are read as one key; if not, the header alone decides. -/
theorem prefix_behind (start key rest : Bytes) (present : key ≠ [])
    (accepted : ∀ octet ∈ key, isKeyByte octet = true) :
    rawEnvPrefixMatches (start ++ (key ++ 0x3D :: rest)) = true ↔
      start.all isKeyByte = true ∨ rawEnvPrefixMatches start = true := by
  by_cases keyOnly : start.all isKeyByte = true
  · -- The header is part of the first key.
    have bytes : ∀ octet ∈ start ++ key, isKeyByte octet = true := by
      intro octet member
      rcases List.mem_append.mp member with inStart | inKey
      · exact List.all_eq_true.mp keyOnly octet inStart
      · exact accepted octet inKey
    have taken : (start ++ (key ++ 0x3D :: rest)).takeWhile isKeyByte = start ++ key := by
      rw [← List.append_assoc, List.takeWhile_append_of_pos bytes]
      simp [show isKeyByte 0x3D = false by decide]
    have found : rawEnvPrefixMatches (start ++ (key ++ 0x3D :: rest)) = true := by
      simp only [rawEnvPrefixMatches, taken, Bool.and_eq_true, decide_eq_true_eq]
      refine ⟨by simp [present], ?_⟩
      rw [← List.append_assoc, List.drop_left]
      rfl
    simp [found, keyOnly]
  · -- A byte of the header ends the key.
    have ended : start.takeWhile isKeyByte ≠ start := by
      intro whole
      refine keyOnly (List.all_eq_true.mpr fun octet member => ?_)
      rw [← whole] at member
      exact List.mem_takeWhile_imp member
    have shorter : (start.takeWhile isKeyByte).length < start.length := by
      refine Nat.lt_of_le_of_ne (List.takeWhile_prefix _).length_le fun same => ended ?_
      exact (List.takeWhile_prefix _).eq_of_length same
    have taken : (start ++ (key ++ 0x3D :: rest)).takeWhile isKeyByte =
        start.takeWhile isKeyByte := by
      rw [List.takeWhile_append, if_neg (by omega)]
    have next : ((start ++ (key ++ 0x3D :: rest)).drop (start.takeWhile isKeyByte).length).head? =
        (start.drop (start.takeWhile isKeyByte).length).head? := by
      rw [List.drop_append_of_le_length (by omega)]
      exact List.head?_append_of_ne_nil _ (by
        rw [ne_eq, List.drop_eq_nil_iff]
        omega)
    simp only [rawEnvPrefixMatches, taken, next, keyOnly, Bool.false_eq_true, false_or]

/-- The data of an image begins with a key and an equals sign. This is what the prefix test of the
parser looks for. -/
theorem Storable.data_head {env : Env} (storable : Storable env) :
    ∃ key rest, key ≠ [] ∧ (∀ octet ∈ key, isKeyByte octet = true) ∧
      envPayload env = key ++ 0x3D :: rest := by
  obtain ⟨entry, entries, shape⟩ := List.exists_cons_of_ne_nil storable.inhabited
  obtain ⟨present, characters⟩ := storable.keys entry (by simp [shape])
  refine ⟨entry.1.map (fun character => UInt8.ofNat character.toNat),
    Utf8.encode entry.2 ++ 0x00 :: ((entries.map entrySegment).flatMap (· ++ [0x00]) ++ [0x00]),
    by simpa using present, ?_, ?_⟩
  · intro octet member
    obtain ⟨character, inside, rfl⟩ := List.mem_map.mp member
    exact ((key_character_iff character).mp (characters character inside)).2
  · rw [envPayload, shape, List.map_cons, List.flatMap_cons, entrySegment]
    simp

/-- What the text reading of an image gets: the header without the fill in front of it,
and the data. -/
theorem Storable.stripped {env : Env} (storable : Storable env) (header fill : Bytes) :
    (header ++ (envPayload env ++ fill)).dropWhile isFill =
      headerStart header ++ (envPayload env ++ fill) := by
  obtain ⟨key, rest, present, accepted, shape⟩ := storable.data_head
  obtain ⟨first, others, rfl⟩ := List.exists_cons_of_ne_nil present
  have solid := (key_byte_plain first (accepted first (by simp))).1
  have kept : (envPayload env ++ fill).dropWhile isFill = envPayload env ++ fill := by
    rw [shape]
    exact List.dropWhile_cons_of_neg (by simp [solid])
  rw [List.dropWhile_append, kept, headerStart]
  split
  · rename_i empty
    rw [List.isEmpty_iff.mp empty, List.nil_append]
  · rfl

/-- Behind a header without FF, the text is the header's, the entries' and at most fill that
names nothing. -/
theorem Storable.text_keys {env : Env} (storable : Storable env) (start : Bytes)
    (clean : (0xFF : UInt8) ∉ start) (count : Nat) (pad : UInt8) :
    exportKeys (exportText
        (((start ++ (envPayload env ++ List.replicate count pad)).takeWhile
          (fun octet => decide (octet ≠ 0xFF))).rdropWhile (· == 0x00))) =
      exportKeys (exportText start ++ entriesText env) := by
  obtain ⟨front, last, ended, present, plain⟩ := storable.payload_last
  have text := storable.payload_text
  generalize entries : Utf8.encode (List.intercalate ['\x00'] (env.entries.map entryLine)) = octets
    at text
  have split : octets = front ++ last := List.append_cancel_right (text.symm.trans ended)
  have unfilled : (0xFF : UInt8) ∉ octets := entries ▸ encode_unfilled _
  -- The fill is cut off where it is FF.
  obtain ⟨tail, taken, fill⟩ : ∃ tail,
      (start ++ (envPayload env ++ List.replicate count pad)).takeWhile
        (fun octet => decide (octet ≠ 0xFF)) = start ++ octets ++ 0x00 :: 0x00 :: tail ∧
      ∃ more, tail = List.replicate more pad := by
    have solid : ∀ octet ∈ start ++ octets ++ [0x00, 0x00], decide (octet ≠ 0xFF) = true := by
      intro octet member
      refine decide_eq_true fun same => ?_
      subst same
      simp [clean, unfilled] at member
    have shape : start ++ (envPayload env ++ List.replicate count pad) =
        (start ++ octets ++ [0x00, 0x00]) ++ List.replicate count pad := by
      rw [text]
      simp
    refine ⟨(List.replicate count pad).takeWhile (fun octet => decide (octet ≠ 0xFF)), ?_, ?_⟩
    · rw [shape, List.takeWhile_append_of_pos solid]
      simp
    · rw [List.takeWhile_replicate]
      split
      · exact ⟨count, rfl⟩
      · exact ⟨0, rfl⟩
  obtain ⟨more, rfl⟩ := fill
  have read : exportText (start ++ octets) = exportText start ++ entriesText env := by
    rw [← entries]
    exact storable.export_text start
  rw [taken, ← read]
  by_cases null : pad = 0x00 ∨ more = 0
  · have dropped : ∀ octet ∈ 0x00 :: 0x00 :: List.replicate more pad,
        (fun octet : UInt8 => octet == 0x00) octet = true := by
      intro octet member
      simp only [List.mem_cons, List.mem_replicate] at member
      rcases member with rfl | rfl | ⟨some, rfl⟩
      · rfl
      · rfl
      · simpa [some] using null
    have kept : ∀ octet ∈ last, (fun octet : UInt8 => octet == 0x00) octet = false := by
      intro octet member
      have solid := plain octet member
      simp only [isFill, Bool.or_eq_false_iff] at solid
      exact solid.1
    rw [Sequences.rdrop_tail _ _ _ dropped, split, ← List.append_assoc,
      Sequences.rdrop_kept _ _ _ present kept]
  · obtain ⟨solid, some⟩ := not_or.mp null
    have kept : ∀ octet ∈ List.replicate more pad,
        (fun octet : UInt8 => octet == 0x00) octet = false := by
      intro octet member
      rw [(List.mem_replicate.mp member).2]
      simpa using solid
    have shape : start ++ octets ++ 0x00 :: 0x00 :: List.replicate more pad =
        (start ++ octets ++ [0x00, 0x00]) ++ List.replicate more pad := by simp
    rw [shape, Sequences.rdrop_kept _ _ _ (by simpa using some) kept, ← shape, export_text_append,
      export_keys_append, ← List.nil_append (0x00 :: List.replicate more pad), export_text_append,
      export_keys_append, fill_names_nothing]
    simp [exportText, exportKeys, Text.splitLines, Text.linesFrom, Utf8.decode, Utf8.decodeBounded]

/-- A header that holds FF behind its first bytes leaves a text too short for two keys. The text
ends at the FF, which is in the first four bytes, and two keys with their signs need four
characters. -/
theorem cut_header_keys (start data : Bytes) (short : start.length ≤ 4)
    (cut : (0xFF : UInt8) ∈ start) :
    ¬TwoKeys (exportKeys (exportText
      (((start ++ data).takeWhile (fun octet => decide (octet ≠ 0xFF))).rdropWhile
        (· == 0x00)))) := by
  obtain ⟨before, after, rfl, clean⟩ := List.eq_append_cons_of_mem cut
  have taken : (before ++ 0xFF :: after ++ data).takeWhile (fun octet => decide (octet ≠ 0xFF)) =
      before := by
    rw [List.append_assoc, List.takeWhile_append_of_pos]
    · simp
    · exact fun octet member => decide_eq_true fun same => clean (same ▸ member)
  apply export_keys_short
  have text := Utf8.decode_length (before.rdropWhile (· == 0x00))
  have kept := (List.rdropWhile_prefix (· == 0x00) before).length_le
  rw [taken, exportText, List.length_map]
  rw [List.length_append, List.length_cons] at short
  omega

/-- The text reading refuses an image exactly when its header cannot begin the text or the lines
name one key only.

Proof: the fill in front is stripped, and the test of the prefix looks at the header and the first
key together. The text then ends at the first FF, which is either in the header, where it leaves too
little for two keys, or in the fill. -/
theorem Storable.raw_reading {env : Env} (storable : Storable env) (header : Bytes)
    (short : header.length ≤ 4) (count : Nat) (pad : UInt8) :
    parseRawEnvPartition (header ++ (envPayload env ++ List.replicate count pad)) = none ↔
      ¬(BeginsText header ∧ TwoKeys (keysBehind header env)) := by
  obtain ⟨key, rest, present, accepted, shape⟩ := storable.data_head
  have starts := prefix_behind (headerStart header) key (rest ++ List.replicate count pad) present
    accepted
  rw [← List.cons_append, ← List.append_assoc key, ← shape] at starts
  simp only [parseRawEnvPartition, storable.stripped, starts]
  by_cases clean : (0xFF : UInt8) ∉ headerStart header
  · have keys := storable.text_keys (headerStart header) clean count pad
    have entries := export_entries
      (((headerStart header ++ (envPayload env ++ List.replicate count pad)).takeWhile
        (fun octet => decide (octet ≠ 0xFF))).rdropWhile (· == 0x00))
    rw [keys] at entries
    simp only [BeginsText, clean, not_false_eq_true, true_and, keysBehind, ← entries]
    by_cases begins : (headerStart header).all isKeyByte = true ∨
        rawEnvPrefixMatches (headerStart header) = true
    · rw [if_pos begins]
      simp only [begins, true_and, not_not]
      split
      · exact iff_of_true rfl ‹_›
      · exact iff_of_false (Option.some_ne_none _) ‹_›
    · rw [if_neg begins]
      simp only [begins, false_and, not_false_eq_true]
  · have start : (headerStart header).length ≤ 4 :=
      Nat.le_trans (List.dropWhile_sublist _).length_le short
    have keys := cut_header_keys (headerStart header)
      (envPayload env ++ List.replicate count pad) start (not_not.mp clean)
    rw [← export_entries, not_not] at keys
    simp only [BeginsText, clean, false_and, not_false_eq_true, iff_true]
    simp only [keys, if_true, ite_self]

end Headers

/-- For every environment with at least two entries, every image that the encoder builds of it, and
every header of four bytes for which neither reading behind a header passes the CRC check: the image
with that header is refused, so that the embedded environment stands for it, exactly when the header
cannot begin the text of a partition without a header or the lines of that text name one key only.

Nothing is assumed of the checksum: that the two readings fail is what a wrong CRC means, and it is
a hypothesis on the header and the image. -/
theorem crc_integrity_iff (codecs : Codecs) (env : Env) (several : 2 ≤ env.entries.length)
    (size : Option Int) (padByte : Int) (image : Bytes)
    (built : ubootenvBuild codecs env size none padByte utf8 = .ok image) (header : Bytes)
    (sized : header.length = 4) (unlike : crcMatches codecs (withHeader header image) 4 = false)
    (incidental : crcMatches codecs (withHeader header image) 5 = false) :
    FallsBack codecs (withHeader header image) ↔
      ¬(BeginsText header ∧ TwoKeys (keysBehind header env)) := by
  have inhabited : env.entries ≠ [] := by
    intro none
    simp [none] at several
  obtain ⟨storable, count, pad, rfl⟩ := build_accepted codecs env size padByte image built inhabited
  have dropped : withHeader header (envImage codecs [] (envPayload env ++ List.replicate count pad)) =
      header ++ (envPayload env ++ List.replicate count pad) := by
    rw [withHeader, envImage, List.append_nil]
    exact congrArg _ (List.drop_left' rfl)
  rw [dropped] at unlike incidental ⊢
  rw [← storable.raw_reading header (Nat.le_of_eq sized) count pad]
  generalize partition_eq :
    header ++ (envPayload env ++ List.replicate count pad) = partition at unlike incidental ⊢
  have solid : isErased partition = false := by
    rw [← partition_eq]
    exact storable.unerased header _
  have whole : partition ≠ [] := by
    rintro rfl
    simp [isErased] at solid
  have behind : [4, 5].findSome? (parseBehindHeader codecs partition) = none := by
    simp [parseBehindHeader, unlike, incidental]
  have refused : ubootenvParsePart codecs partition = .error .invalidPartition ↔
      parseRawEnvPartition partition = none := by
    simp only [ubootenvParsePart, whole, if_false, solid, Bool.false_eq_true, behind]
    cases parseRawEnvPartition partition <;> simp
  rw [← refused]
  constructor
  · exact fun falls => falls.1
  · intro parsed
    refine ⟨parsed, fun flash layout resolved found sliced length => ?_⟩
    have inside : ¬(partition.length : Int) ≠ resolved.envSize := not_not.mpr length
    simp only [ubootenvExtract, found, sliced, inside, if_false, parsed]

instance (header : Bytes) : Decidable (BeginsText header) := by
  unfold BeginsText
  infer_instance

/-- An environment with two variables. -/
def samplePair : Env := Dict.ofList [("a".toList, "1".toList), ("b".toList, "2".toList)]

/-- The image of the sample pair behind its CRC. -/
def samplePairImage : Bytes :=
  [0xF5, 0xEA, 0x9B, 0xBE] ++ [0x61, 0x3D, 0x31, 0x00, 0x62, 0x3D, 0x32, 0x00, 0x00] ++
    [0xFF, 0xFF, 0xFF]

/-- The encoder builds the image of the sample pair. -/
theorem sample_pair_built :
    ubootenvBuild sampleCodecs samplePair (some 16) none 0xFF utf8 = .ok samplePairImage := by
  decide +kernel

/-- A header of four letters is no CRC of the image and becomes a part of the first key. -/
theorem letters_read_as_key :
    ubootenvBuild sampleCodecs samplePair (some 16) none 0xFF utf8 = .ok samplePairImage ∧
      crcMatches sampleCodecs (withHeader [0x61, 0x61, 0x61, 0x61] samplePairImage) 4 = false ∧
      crcMatches sampleCodecs (withHeader [0x61, 0x61, 0x61, 0x61] samplePairImage) 5 = false ∧
      ubootenvParsePart sampleCodecs (withHeader [0x61, 0x61, 0x61, 0x61] samplePairImage) =
        .ok (Dict.ofList [("aaaaa".toList, "1".toList), ("b".toList, "2".toList)]) := by
  refine ⟨sample_pair_built, ?_, ?_, ?_⟩
  · decide +kernel
  · decide +kernel
  · decide +kernel

/-- A header that begins no text is refused. -/
theorem crc_integrity_iff_sample :
    FallsBack sampleCodecs (withHeader [0x01, 0x02, 0x03, 0x04] samplePairImage) := by
  apply (crc_integrity_iff sampleCodecs samplePair (by decide) (some 16) 0xFF samplePairImage
    sample_pair_built [0x01, 0x02, 0x03, 0x04] rfl (by decide +kernel) (by decide +kernel)).mpr
  exact fun misread => absurd misread.1 (by decide)

end UbootTftp
