import UbootTftp.TerminatedLists

/-!
# Bytes behind the end of an environment

The encoder writes an empty entry behind the last one, and the decoder does not stop there. What
it returns is the list up to the terminator only when the bytes behind it say nothing else about
any variable, the last value does not run into the fill, and a flags byte that is taken for the
first byte of the list does no harm.
-/

namespace UbootTftp

/-- A partition with a list of entries under valid keys, the empty entry that ends it and any bytes
behind it, after a header of four or five bytes that has their CRC.

A partition is built only together with the proofs of its shape. The bytes behind the end are
arbitrary: what an earlier, longer environment left there is the case that matters. -/
structure TerminatedPartition (codecs : Codecs) where
  word : Bytes
  flags : Bytes
  entries : List (Bytes × Bytes)
  tail : Bytes
  wordLength : word.length = 4
  flagsLength : flags.length ≤ 1
  keys : ∀ entry ∈ entries, envKeyMatches entry.1 = true
  values : ∀ entry ∈ entries, (0x00 : UInt8) ∉ entry.2
  crc : crcMatches codecs (word ++ flags ++ listBytes entries tail) (4 + flags.length) = true

namespace TerminatedPartition

variable {codecs : Codecs} (partition : TerminatedPartition codecs)

/-- The bytes of the partition. -/
def bytes : Bytes :=
  partition.word ++ partition.flags ++ listBytes partition.entries partition.tail

/-- The partition is read as the entries before the terminator: what is returned has the same value,
or none, under every key. -/
def EndsAtTerminator : Prop :=
  ∃ env, ubootenvParsePart codecs partition.bytes = .ok env ∧
    ∀ key, env.get key = (listedEnv partition.entries).get key

/-- The list has an entry, the bytes behind it repeat it at most, and a flags byte that the shorter
header's CRC would make part of the list does no harm.

All four are conditions on the bytes of the partition, none on what the decoder returns. -/
structure Contained : Prop where
  present : partition.entries ≠ []
  repeats : RepeatsList partition.entries partition.tail
  last : KeepsLast partition.entries partition.tail
  header : ∀ flag first rest, partition.flags = [flag] → partition.entries = first :: rest →
    crcMatches codecs partition.bytes 4 = true → ShiftHarmless first rest partition.tail flag

/-- What is read: the list, with the flags byte before it if the CRC fits the shorter header too and
there is an entry in that. Otherwise the flags byte is part of the header, as it should be. -/
def readBytes : Bytes :=
  let shifted := partition.flags ++ listBytes partition.entries partition.tail
  if crcMatches codecs partition.bytes 4 = true ∧ entriesIn shifted ≠ [] then shifted
  else listBytes partition.entries partition.tail

/-- The bytes behind a header of either size. -/
theorem drop_header :
    partition.bytes.drop 4 = partition.flags ++ listBytes partition.entries partition.tail ∧
      partition.bytes.drop (4 + partition.flags.length) =
        listBytes partition.entries partition.tail := by
  constructor
  · rw [bytes, List.append_assoc]
    exact List.drop_left' partition.wordLength
  · exact List.drop_left' (by rw [List.length_append, partition.wordLength])

/-- What is read behind a header whose CRC fits. -/
theorem read_behind (headerSize : Nat) (shorter : headerSize ≤ 4 + partition.flags.length)
    (fits : crcMatches codecs partition.bytes headerSize = true) :
    parseBehindHeader codecs partition.bytes headerSize =
      if entriesIn (partition.bytes.drop headerSize) = [] then none
      else some (Dict.ofList (entriesIn (partition.bytes.drop headerSize))) := by
  have longer : ¬partition.bytes.length ≤ headerSize := by
    simp only [bytes, listBytes, List.length_append, List.length_cons, partition.wordLength]
    omega
  simp only [parseBehindHeader, longer, if_false, fits, if_true, parse_entries,
    Dict.ofList_eq_nil]

/-- A list that is not empty has entries to read. -/
theorem entries_read (present : partition.entries ≠ []) :
    entriesIn (listBytes partition.entries partition.tail) ≠ [] := by
  have free := keys_free partition.entries partition.keys
  obtain ⟨front, last, split⟩ : ∃ front last, partition.entries = front ++ [last] :=
    ⟨_, _, (List.dropLast_append_getLast present).symm⟩
  rw [entries_in_list partition.entries partition.tail present
      (fun entry member => ⟨free entry member, partition.values entry member⟩),
    read_written _ _ partition.keys, split, held_last_append]
  simp

/-- The flags take one byte at most. -/
theorem flags_cases : partition.flags = [] ∨ ∃ flag, partition.flags = [flag] := by
  have lengths := partition.flagsLength
  cases flags : partition.flags with
  | nil => exact .inl rfl
  | cons flag others =>
    rw [flags, List.length_cons] at lengths
    exact .inr ⟨flag, by rw [List.length_eq_zero_iff.mp (by omega : others.length = 0)]⟩

/-- A partition with a list that is not empty is read. It is neither empty nor erased, since an
entry holds an equals sign, and the header of four bytes is tried before that of five. -/
theorem parsed (present : partition.entries ≠ []) :
    ubootenvParsePart codecs partition.bytes = .ok (Dict.ofList (entriesIn partition.readBytes)) := by
  have some := partition.entries_read present
  obtain ⟨short, long⟩ := partition.drop_header
  have solid : isErased partition.bytes = false := by
    obtain ⟨entry, member⟩ := List.exists_mem_of_ne_nil _ present
    have separator : (0x3D : UInt8) ∈ partition.bytes := by
      apply List.mem_append_right
      apply List.mem_append_left
      rw [List.mem_flatMap]
      exact ⟨writtenSegment entry, List.mem_map_of_mem member, by simp [writtenSegment]⟩
    rw [isErased, Bool.or_eq_false_iff]
    constructor
    · exact List.all_eq_false.mpr ⟨0x3D, separator, by decide⟩
    · exact List.all_eq_false.mpr ⟨0x3D, separator, by decide⟩
  have nonempty : partition.bytes ≠ [] := by
    intro empty
    simp [empty, isErased] at solid
  have own : parseBehindHeader codecs partition.bytes (4 + partition.flags.length) =
      .some (Dict.ofList (entriesIn (listBytes partition.entries partition.tail))) := by
    rw [partition.read_behind _ (Nat.le_refl _) partition.crc, long, if_neg some]
  simp only [ubootenvParsePart, nonempty, if_false, solid, Bool.false_eq_true]
  rcases partition.flags_cases with flags | ⟨flag, flags⟩
  · have whole : partition.readBytes = listBytes partition.entries partition.tail := by
      simp [readBytes, flags]
    rw [flags, List.length_nil, Nat.add_zero] at own
    simp only [List.findSome?_cons, own, whole]
  · rw [flags, List.length_singleton] at own
    by_cases fits : crcMatches codecs partition.bytes 4 = true
    · have first := partition.read_behind 4 (by omega) fits
      rw [short] at first
      by_cases shifted : entriesIn
          (partition.flags ++ listBytes partition.entries partition.tail) = []
      · have whole : partition.readBytes = listBytes partition.entries partition.tail := by
          simp [readBytes, shifted]
        rw [if_pos shifted] at first
        simp only [List.findSome?_cons, first, own, whole]
      · have whole : partition.readBytes =
            partition.flags ++ listBytes partition.entries partition.tail := by
          simp [readBytes, shifted, fits]
        rw [if_neg shifted] at first
        simp only [List.findSome?_cons, first, whole]
    · have first : parseBehindHeader codecs partition.bytes 4 = none := by
        simp only [parseBehindHeader, fits, Bool.false_eq_true, if_false, ite_self]
      have whole : partition.readBytes = listBytes partition.entries partition.tail := by
        simp [readBytes, fits]
      simp only [List.findSome?_cons, first, own, whole]

end TerminatedPartition

/-- What is read is never empty. A list without entries is refused by the parser, with or without a
flags byte. -/
theorem parse_part_present (codecs : Codecs) (partition : Bytes) (env : Env)
    (parsed : ubootenvParsePart codecs partition = .ok env) : env.entries ≠ [] := by
  rw [ubootenvParsePart] at parsed
  by_cases empty : partition = []
  · rw [if_pos empty] at parsed
    cases parsed
  rw [if_neg empty] at parsed
  by_cases erased : isErased partition = true
  · rw [if_pos erased] at parsed
    cases parsed
  rw [if_neg erased] at parsed
  cases behind : [4, 5].findSome? (parseBehindHeader codecs partition) with
  | some found =>
    simp only [behind, Except.ok.injEq] at parsed
    obtain ⟨headerSize, _, read⟩ := List.exists_of_findSome?_eq_some behind
    rw [← parsed]
    intro nothing
    simp only [parseBehindHeader] at read
    split at read
    · cases read
    · split at read
      · split at read
        · cases read
        · rename_i present
          cases read
          exact present nothing
      · cases read
  | none =>
    simp only [behind] at parsed
    cases raw : parseRawEnvPartition partition with
    | none =>
      rw [raw] at parsed
      cases parsed
    | some found =>
      simp only [raw, Except.ok.injEq] at parsed
      rw [← parsed]
      intro nothing
      simp only [parseRawEnvPartition] at raw
      split at raw
      · split at raw
        · cases raw
        · rename_i enough
          cases raw
          exact enough (by rw [nothing]; decide)
      · cases raw

namespace TerminatedPartition

variable {codecs : Codecs} (partition : TerminatedPartition codecs)

/-- A partition without entries is not read as its list. -/
theorem ends_present (ends : partition.EndsAtTerminator) : partition.entries ≠ [] := by
  intro absent
  obtain ⟨env, parsed, same⟩ := ends
  obtain ⟨entry, member⟩ := List.exists_mem_of_ne_nil _ (parse_part_present codecs _ env parsed)
  have stored := (env.mem_entries entry.1 entry.2).mp member
  rw [same, absent] at stored
  cases stored

variable (present : partition.entries ≠ [])

include present

/-- Whether the list is read depends on the bytes that are read: the entries in them and those of
the list must agree under every key. -/
theorem ends_iff_read : partition.EndsAtTerminator ↔ ∀ key,
    (Dict.ofList (entriesIn partition.readBytes)).get key =
      (listedEnv partition.entries).get key := by
  simp only [EndsAtTerminator, partition.parsed present, Except.ok.injEq, exists_eq_left']

/-- The list is read behind its own header: only the bytes behind it and its last value matter. -/
theorem ends_unshifted (whole : partition.readBytes = listBytes partition.entries partition.tail)
    (header : ∀ flag first rest, partition.flags = [flag] →
      partition.entries = first :: rest → crcMatches codecs partition.bytes 4 = true →
        ShiftHarmless first rest partition.tail flag) :
    partition.EndsAtTerminator ↔ partition.Contained := by
  rw [partition.ends_iff_read present, whole,
    list_read_iff partition.entries partition.tail partition.keys present partition.values]
  constructor
  · rintro ⟨repeats, last⟩
    exact ⟨present, repeats, last, header⟩
  · intro contained
    exact ⟨contained.repeats, contained.last⟩

/-- The list is read behind its flags byte. The checksum fits the four bytes here, so the byte
behind them is read as the beginning of the first entry. -/
theorem ends_shifted (flag : UInt8) (flags : partition.flags = [flag])
    (fits : crcMatches codecs partition.bytes 4 = true)
    (something : entriesIn (flag :: listBytes partition.entries partition.tail) ≠ []) :
    partition.EndsAtTerminator ↔ partition.Contained := by
  have whole : partition.readBytes = flag :: listBytes partition.entries partition.tail := by
    simp only [readBytes, flags, List.singleton_append, fits, something, ne_eq, not_false_eq_true,
      and_self, if_true]
  obtain ⟨first, rest, entries⟩ := List.exists_cons_of_ne_nil present
  have keys := partition.keys
  have values := partition.values
  rw [entries] at keys values something
  obtain ⟨firstKey, restKeys⟩ := List.forall_mem_cons.mp keys
  rw [partition.ends_iff_read present, whole, entries,
    shifted_list_iff first rest partition.tail firstKey restKeys values flag something, ← entries]
  constructor
  · rintro ⟨repeats, last, harmless⟩
    refine ⟨present, repeats, last, fun other head others flagged split _ => ?_⟩
    rw [flags] at flagged
    rw [entries] at split
    cases flagged
    cases split
    exact harmless
  · intro contained
    exact ⟨contained.repeats, contained.last,
      contained.header flag first rest flags entries fits⟩

end TerminatedPartition

/-- For every partition with a list and any bytes behind it: it is read as the entries before the
terminator exactly when the list has an entry, the entries behind it repeat the list at most, the
last value does not run into the fill, and the flags byte is not read as part of the list to any
effect.

Proof: a partition without flags, or whose flags byte is skipped, is read behind its own header; one
whose flags byte is taken for data is read as a list with one more byte in front. Each of the two
cases is a fact about lists of entries. -/
theorem ends_at_terminator_iff (codecs : Codecs) (partition : TerminatedPartition codecs) :
    partition.EndsAtTerminator ↔ partition.Contained := by
  by_cases present : partition.entries = []
  · exact ⟨fun ends => absurd present (partition.ends_present ends),
      fun contained => absurd present contained.present⟩
  rcases partition.flags_cases with flags | ⟨flag, flags⟩
  · apply partition.ends_unshifted present (by simp [TerminatedPartition.readBytes, flags])
    intro flag first rest flagged
    rw [flags] at flagged
    cases flagged
  by_cases shifts : crcMatches codecs partition.bytes 4 = true ∧
      entriesIn (flag :: listBytes partition.entries partition.tail) ≠ []
  · exact partition.ends_shifted present flag flags shifts.1 shifts.2
  · apply partition.ends_unshifted present
    · rw [TerminatedPartition.readBytes, flags, List.singleton_append, if_neg shifts]
    · intro other first rest flagged entries fits
      -- The CRC fits the shorter header, but nothing is read behind it.
      rw [flags] at flagged
      cases flagged
      have nothing := not_not.mp fun something => shifts ⟨fits, something⟩
      have keys := partition.keys
      have values := partition.values
      rw [entries] at keys values nothing
      obtain ⟨firstKey, restKeys⟩ := List.forall_mem_cons.mp keys
      exact nothing_harmless first rest partition.tail firstKey restKeys values flag nothing

/-- A list with one variable, and behind its end the entry of another one. -/
def stalePartition : TerminatedPartition sampleCodecs where
  word := toLittleEndian (sampleCrc32 (listBytes [([0x61], [0x31])] [0x62, 0x3D, 0x32]))
  flags := []
  entries := [([0x61], [0x31])]
  tail := [0x62, 0x3D, 0x32]
  wordLength := rfl
  flagsLength := by decide
  keys := by decide
  values := by decide
  crc := image_crc sampleCodecs [] (listBytes [([0x61], [0x31])] [0x62, 0x3D, 0x32])

/-- The variable behind the end of the list is returned as well. -/
theorem stale_entry_returned : ¬stalePartition.EndsAtTerminator := by
  rintro ⟨env, parsed, same⟩
  have read : ubootenvParsePart sampleCodecs stalePartition.bytes =
      .ok (Dict.ofList [("a".toList, "1".toList), ("b".toList, "2".toList)]) := by decide +kernel
  cases parsed.symm.trans read
  have stale := same "b".toList
  cases stale

end UbootTftp
