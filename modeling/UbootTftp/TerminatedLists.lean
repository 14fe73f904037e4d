import UbootTftp.EnvRoundTrip

/-!
# Lists of entries with bytes behind them

An empty entry ends a list of entries. The decoder passes over empty segments and reads on: it
drops fill from the end of the bytes and enters whatever looks like an entry, and a later entry
wins. The lemmas here say what it reads from a list and the bytes behind it, also when a byte
stands before the list.
-/

namespace UbootTftp

section Segments

/-- The entry that a segment is read as, if it is one. -/
def entryOf (segment : Bytes) : Option (Text × Text) :=
  let (key, separated, value) := Sequences.partition 0x3D segment
  if separated && envKeyMatches key then some (decodeAscii key, Utf8.decode value) else none

/-- The entries that are read from bytes with fill at their end: what is left of the bytes is cut at
every NUL, and the pieces that are entries are kept in their order. -/
def entriesIn (body : Bytes) : List (Text × Text) :=
  ((body.rdropWhile isFill).splitOn 0x00).filterMap entryOf

/-- Segments are entered when they are entries. By induction on the segments. A segment that is no
entry leaves the environment as it is. -/
theorem parse_segments (env : Env) (segments : List Bytes) :
    segments.foldl parseEnvSegment env = env.update (segments.filterMap entryOf) := by
  induction segments generalizing env with
  | nil => rfl
  | cons segment segments inductionHypothesis =>
    have entered : parseEnvSegment env segment = env.update (entryOf segment).toList := by
      simp only [parseEnvSegment, entryOf]
      split <;> rfl
    rw [List.foldl_cons, inductionHypothesis, entered, ← Dict.update_append]
    congr 1
    cases found : entryOf segment with
    | none => simp [found]
    | some entry => simp [found]

/-- The decoder builds the dictionary of the entries that it reads. From here on the decoder is
spoken of through the entries, and the dictionary settles which of several with one key wins. -/
theorem parse_entries (body : Bytes) : parseNulDelimitedEnv body = Dict.ofList (entriesIn body) :=
  parse_segments Dict.empty _

/-- A NUL before the bytes is an empty segment. -/
theorem entries_in_zero (body : Bytes) (solid : body.all isFill = false) :
    entriesIn (0x00 :: body) = entriesIn body := by
  have stays := Sequences.rdrop_append isFill [0x00] body solid
  have cut : (0x00 :: body.rdropWhile isFill).splitOn 0x00 =
      [] :: (body.rdropWhile isFill).splitOn 0x00 :=
    List.splitOn_append_cons_self_of_not_mem (List.not_mem_nil) _
  rw [List.singleton_append] at stays
  rw [entriesIn, stays, List.singleton_append, cut, List.filterMap_cons]
  rfl

/-- Fill alone holds no entry. -/
theorem entries_in_fill (body : Bytes) (fill : body.all isFill = true) : entriesIn body = [] := by
  have dropped := Sequences.rdrop_tail isFill [] body (List.all_eq_true.mp fill)
  rw [List.nil_append, List.rdropWhile_nil] at dropped
  rw [entriesIn, dropped]
  decide

/-- The bytes of an entry before its NUL. -/
def writtenSegment (entry : Bytes × Bytes) : Bytes := entry.1 ++ 0x3D :: entry.2

/-- The bytes of a list of entries, the empty entry that ends it and what stands behind. -/
def listBytes (entries : List (Bytes × Bytes)) (tail : Bytes) : Bytes :=
  (entries.map writtenSegment).flatMap (· ++ [0x00]) ++ 0x00 :: tail

/-- The text of an entry. -/
def readEntry (entry : Bytes × Bytes) : Text × Text := (decodeAscii entry.1, Utf8.decode entry.2)

/-- The last entry as it is read: it loses the fill at its end when nothing but fill follows.

The decoder strips fill before it looks for the end of the list, and it cannot tell the last bytes
of a value from fill. -/
def heldLast (tail : Bytes) : List (Bytes × Bytes) → List (Bytes × Bytes)
  | [] => []
  | [last] => [if tail.all isFill then (last.1, last.2.rdropWhile isFill) else last]
  | entry :: next :: entries => entry :: heldLast tail (next :: entries)

/-- The last entry is the only one that can lose something. -/
theorem held_last_append (tail : Bytes) (front : List (Bytes × Bytes)) (last : Bytes × Bytes) :
    heldLast tail (front ++ [last]) =
      front ++ [if tail.all isFill then (last.1, last.2.rdropWhile isFill) else last] := by
  induction front with
  | nil => rfl
  | cons entry front inductionHypothesis =>
    cases front with
    | nil => rfl
    | cons next front => exact congrArg (entry :: ·) inductionHypothesis

/-- The entries that are read from a list that is not empty, without NUL in its entries: its own,
and those of what stands behind it. The terminator itself leaves no trace. -/
theorem entries_in_list (entries : List (Bytes × Bytes)) (tail : Bytes) (present : entries ≠ [])
    (free : ∀ entry ∈ entries, (0x00 : UInt8) ∉ entry.1 ∧ (0x00 : UInt8) ∉ entry.2) :
    entriesIn (listBytes entries tail) =
      (heldLast tail entries).filterMap (fun entry => entryOf (writtenSegment entry)) ++
        entriesIn tail := by
  have segmentsFree : ∀ segment ∈ entries.map writtenSegment, (0x00 : UInt8) ∉ segment := by
    intro segment member
    obtain ⟨entry, inside, rfl⟩ := List.mem_map.mp member
    obtain ⟨key, value⟩ := free entry inside
    simp [writtenSegment, key, value]
  cases fill : tail.all isFill with
  | false =>
    -- The terminator stays, and so does everything before it.
    have whole : ∀ items, (items ++ 0x00 :: tail).rdropWhile isFill =
        items ++ 0x00 :: tail.rdropWhile isFill := by
      intro items
      rw [← List.singleton_append, ← List.append_assoc, Sequences.rdrop_append isFill _ tail fill,
        List.append_assoc, List.singleton_append]
    have cut : (0x00 :: tail.rdropWhile isFill).splitOn 0x00 =
        [] :: (tail.rdropWhile isFill).splitOn 0x00 :=
      List.splitOn_append_cons_self_of_not_mem (List.not_mem_nil) _
    have held : heldLast tail entries = entries := by
      obtain ⟨front, last, rfl⟩ : ∃ front last, entries = front ++ [last] :=
        ⟨_, _, (List.dropLast_append_getLast present).symm⟩
      simp [held_last_append, fill]
    rw [entriesIn, listBytes, whole, Sequences.split_terminated _ _ _ segmentsFree, cut,
      List.filterMap_append, List.filterMap_map, held, List.filterMap_cons]
    rfl
  | true =>
    -- Everything behind the last entry is dropped, and the fill at its end with it.
    obtain ⟨front, last, rfl⟩ : ∃ front last, entries = front ++ [last] :=
      ⟨_, _, (List.dropLast_append_getLast present).symm⟩
    have dropped : ∀ octet ∈ 0x00 :: 0x00 :: tail, isFill octet = true := by
      intro octet member
      simp only [List.mem_cons] at member
      rcases member with rfl | rfl | inside
      · rfl
      · rfl
      · exact List.all_eq_true.mp fill octet inside
    have shape : listBytes (front ++ [last]) tail =
        (((front.map writtenSegment).flatMap (· ++ [0x00]) ++ last.1) ++ 0x3D :: last.2) ++
          0x00 :: 0x00 :: tail := by
      simp [listBytes, writtenSegment]
    have lastFree : (0x00 : UInt8) ∉ last.1 ++ 0x3D :: last.2.rdropWhile isFill := by
      obtain ⟨key, value⟩ := free last (by simp)
      have shorter : (0x00 : UInt8) ∉ last.2.rdropWhile isFill := fun inside =>
        value ((List.rdropWhile_prefix isFill last.2).subset inside)
      simp [key, shorter]
    rw [entriesIn, shape, Sequences.rdrop_tail _ _ _ dropped,
      Sequences.rdrop_behind _ _ _ _ (by decide), List.append_assoc,
      Sequences.split_terminated _ _ _
        (fun segment member => segmentsFree segment (by simp [List.mem_map.mp member])),
      List.splitOn_eq_singleton lastFree, held_last_append, entries_in_fill tail fill, fill,
      List.append_nil, List.filterMap_append, List.filterMap_append, List.filterMap_map]
    rfl

/-- A segment with a valid key is read as its entry. -/
theorem entry_of_written (entry : Bytes × Bytes) (key : envKeyMatches entry.1 = true) :
    entryOf (writtenSegment entry) = some (readEntry entry) := by
  have bytes : ∀ octet ∈ entry.1, isKeyByte octet := by
    simp only [envKeyMatches, Bool.and_eq_true, List.all_eq_true] at key
    exact key.2
  have free : (0x3D : UInt8) ∉ entry.1 := fun member => (key_byte_plain 0x3D (bytes 0x3D member)).2 rfl
  simp only [entryOf, writtenSegment, Sequences.partition_append _ _ _ free, key, Bool.and_self,
    if_true, readEntry]

end Segments

section Values

/-- A byte of fill continues no sequence. -/
theorem fill_starts (octet : UInt8) (fill : isFill octet = true) :
    Utf8.continues octet = false := by
  simp only [isFill, Bool.or_eq_true, beq_iff_eq] at fill
  rcases fill with rfl | rfl
  · decide
  · decide

/-- Without the fill at their end octets are decoded to no more characters. -/
theorem decode_rdrop_length (octets : Bytes) :
    (Utf8.decode (octets.rdropWhile isFill)).length ≤ (Utf8.decode octets).length := by
  induction octets using List.reverseRecOn with
  | nil => exact Nat.le_refl _
  | append_singleton octets last inductionHypothesis =>
    cases fill : isFill last with
    | false => rw [List.rdropWhile_concat_neg _ _ _ (by simp [fill])]
    | true =>
      rw [List.rdropWhile_concat_pos _ _ _ fill,
        Utf8.decode_before octets [] last (fill_starts last fill), List.length_append]
      omega

/-- A value is read without the fill at its end as it is only if there is none.

Proof: the octets are taken apart at their last one. A byte of fill there is a character of its own,
so that the text without it is shorter. -/
theorem decode_rdrop (octets : Bytes)
    (same : Utf8.decode (octets.rdropWhile isFill) = Utf8.decode octets) :
    octets.rdropWhile isFill = octets := by
  induction octets using List.reverseRecOn with
  | nil => rfl
  | append_singleton octets last _ =>
    cases fill : isFill last with
    | false => rw [List.rdropWhile_concat_neg _ _ _ (by simp [fill])]
    | true =>
      -- The last octet is decoded to a character of its own.
      rw [List.rdropWhile_concat_pos _ _ _ fill,
        Utf8.decode_before octets [] last (fill_starts last fill)] at same
      have lengths := congrArg List.length same
      have shorter := decode_rdrop_length octets
      have single : 0 < (Utf8.decode [last]).length := by
        simp only [isFill, Bool.or_eq_true, beq_iff_eq] at fill
        rcases fill with rfl | rfl
        · decide
        · decide
      rw [List.length_append] at lengths
      omega

end Values

section Lists

variable (entries : List (Bytes × Bytes)) (tail : Bytes)

/-- The variables of a list of entries. -/
def listedEnv : Env := Dict.ofList (entries.map readEntry)

/-- The bytes behind the terminator say nothing else about any variable: the last entry of each
variable there repeats the value that the list gives it. Earlier entries of it there may say what
they like. -/
def RepeatsList : Prop :=
  ∀ key value, (Dict.ofList (entriesIn tail)).get key = some value →
    (listedEnv entries).get key = some value

/-- The last value does not end in a byte of fill that the fill behind it would continue. Only FF
can do so, since a value holds no NUL. -/
def KeepsLast : Prop :=
  tail.all isFill = true → ∀ entry, entries.getLast? = some entry → entry.2.getLast? ≠ some 0xFF

/-- The last entry is read as it is when its value is kept.

Proof: the list is taken apart at its last entry, the only one that can lose something. -/
theorem held_last_iff (values : ∀ entry ∈ entries, (0x00 : UInt8) ∉ entry.2) :
    heldLast tail entries = entries ↔ KeepsLast entries tail := by
  induction entries using List.reverseRecOn with
  | nil => simp [heldLast, KeepsLast]
  | append_singleton front last _ =>
    rw [held_last_append, KeepsLast, List.getLast?_concat]
    cases fill : tail.all isFill with
    | false => simp
    | true =>
      have free := values last (by simp)
      have kept : last.2.rdropWhile isFill = last.2 ↔ last.2.getLast? ≠ some 0xFF := by
        cases value : last.2 using List.reverseRecOn with
        | nil => simp
        | append_singleton value octet =>
          have nonzero : octet ≠ 0x00 := by
            rintro rfl
            exact free (by simp [value])
          rw [List.rdropWhile_eq_self_iff]
          simp [isFill, nonzero]
      simp only [if_true, List.append_cancel_left_eq, List.cons.injEq, and_true, forall_const,
        Option.some.injEq, forall_eq']
      rw [← kept, Prod.ext_iff]
      exact and_iff_right rfl

/-- The last entry is kept if its variable is read with its value. If only fill follows the list,
its last value is read without the bytes at its end that look like fill. -/
theorem held_last_same (front : List (Bytes × Bytes)) (last : Bytes × Bytes)
    (same : (listedEnv (heldLast tail (front ++ [last]))).get (decodeAscii last.1) =
      (listedEnv (front ++ [last])).get (decodeAscii last.1)) :
    heldLast tail (front ++ [last]) = front ++ [last] := by
  have answer : ∀ entry : Bytes × Bytes, (listedEnv (front ++ [entry])).get (decodeAscii entry.1) =
      some (Utf8.decode entry.2) := by
    intro entry
    have last : (Dict.ofList ([entry].map readEntry)).get (decodeAscii entry.1) =
        some (Utf8.decode entry.2) := Dict.get_set_self _ _ _
    rw [listedEnv, List.map_append, Dict.get_ofList_append, last, Option.some_or]
  rw [held_last_append] at same ⊢
  cases fill : tail.all isFill with
  | false => rfl
  | true =>
    rw [fill, if_pos rfl, answer (last.1, last.2.rdropWhile isFill), answer last,
      Option.some.injEq] at same
    rw [if_pos rfl, decode_rdrop last.2 same]

variable (keys : ∀ entry ∈ entries, envKeyMatches entry.1 = true)

include keys

/-- Entries with valid keys hold no NUL in their keys. -/
theorem keys_free : ∀ entry ∈ entries, (0x00 : UInt8) ∉ entry.1 := by
  intro entry member null
  have accepted := keys entry member
  simp only [envKeyMatches, Bool.and_eq_true, List.all_eq_true] at accepted
  exact absurd (accepted.2 0x00 null) (by decide)

/-- Entries with valid keys are all read. -/
theorem read_written : (heldLast tail entries).filterMap (fun entry =>
    entryOf (writtenSegment entry)) = (heldLast tail entries).map readEntry := by
  have valid : ∀ entry ∈ heldLast tail entries, envKeyMatches entry.1 = true := by
    intro entry member
    cases entries using List.reverseRecOn with
    | nil => cases member
    | append_singleton front last =>
      rw [held_last_append] at member
      rcases List.mem_append.mp member with inside | final
      · exact keys entry (by simp [inside])
      · have lastKey := keys last (by simp)
        rw [List.mem_singleton.mp final]
        split <;> exact lastKey
  rw [← List.filterMap_eq_map]
  exact List.filterMap_congr fun entry member => entry_of_written entry (valid entry member)

/-- The list is read up to its terminator exactly when nothing behind it disagrees and the last
value is kept.

Proof: of the two kinds of entries those behind the list win, so they must agree with it; where they
are silent the list itself is read, and in it only the last value can have changed. -/
theorem list_read_iff (present : entries ≠ [])
    (values : ∀ entry ∈ entries, (0x00 : UInt8) ∉ entry.2) :
    (∀ key, (Dict.ofList (entriesIn (listBytes entries tail))).get key =
        (listedEnv entries).get key) ↔ RepeatsList entries tail ∧ KeepsLast entries tail := by
  have free := keys_free entries keys
  have read : ∀ key, (Dict.ofList (entriesIn (listBytes entries tail))).get key =
      ((Dict.ofList (entriesIn tail)).get key).or
        ((listedEnv (heldLast tail entries)).get key) := by
    intro key
    rw [entries_in_list entries tail present
      (fun entry member => ⟨free entry member, values entry member⟩),
      read_written entries tail keys, Dict.get_ofList_append, listedEnv]
  simp only [read]
  constructor
  · intro same
    constructor
    · intro key value behind
      rw [← same, behind, Option.some_or]
    · rw [← held_last_iff entries tail values]
      cases fill : tail.all isFill with
      | false =>
        obtain ⟨front, last, rfl⟩ : ∃ front last, entries = front ++ [last] :=
          ⟨_, _, (List.dropLast_append_getLast present).symm⟩
        simp [held_last_append, fill]
      | true =>
        obtain ⟨front, last, rfl⟩ : ∃ front last, entries = front ++ [last] :=
          ⟨_, _, (List.dropLast_append_getLast present).symm⟩
        apply held_last_same
        rw [← same, entries_in_fill tail fill]
        rfl
  · rintro ⟨repeats, kept⟩ key
    rw [(held_last_iff entries tail values).mpr kept]
    cases behind : (Dict.ofList (entriesIn tail)).get key with
    | none => rfl
    | some value => rw [repeats key value behind, Option.some_or]

end Lists

section Shifts

variable (first : Bytes × Bytes) (rest : List (Bytes × Bytes)) (tail : Bytes)

/-- The variables of the entries behind the first one, in the list or behind its end. -/
def laterKeys : List Text := (rest.map readEntry ++ entriesIn tail).map Prod.fst

/-- Keeping the last value is a matter of the entries behind the first one if there are any. -/
theorem keeps_last_rest (present : rest ≠ []) :
    KeepsLast (first :: rest) tail ↔ KeepsLast rest tail := by
  obtain ⟨next, others, rfl⟩ := List.exists_cons_of_ne_nil present
  simp only [KeepsLast, List.getLast?_cons_cons]

/-- The variables of the later entries, however the last one is read. -/
theorem later_iff (key : Text) : key ∈ laterKeys rest tail ↔
    (Dict.ofList (entriesIn tail)).get key ≠ none ∨ (listedEnv rest).get key ≠ none := by
  rw [laterKeys, List.map_append, List.mem_append, Dict.get_ofList_ne_none, listedEnv,
    Dict.get_ofList_ne_none, or_comm]

/-- However the last entry is read, the list has the same variables. -/
theorem held_keys (key : Text) : (listedEnv (heldLast tail rest)).get key ≠ none ↔
    (listedEnv rest).get key ≠ none := by
  rw [listedEnv, listedEnv, Dict.get_ofList_ne_none, Dict.get_ofList_ne_none]
  cases rest using List.reverseRecOn with
  | nil => rfl
  | append_singleton front last =>
    rw [held_last_append]
    split <;> simp [readEntry]

/-- A variable that is none of the later ones is nowhere behind the first entry. -/
theorem later_absent (key : Text) (absent : key ∉ laterKeys rest tail) :
    (Dict.ofList (entriesIn tail)).get key = none ∧
      (listedEnv (heldLast tail rest)).get key = none ∧ (listedEnv rest).get key = none := by
  obtain ⟨noTail, noRest⟩ := not_or.mp (mt (later_iff rest tail key).mpr absent)
  exact ⟨not_not.mp noTail, not_not.mp (mt (held_keys rest tail key).mp noRest),
    not_not.mp noRest⟩

/-- The first entry is read where no later one has its variable. -/
theorem listed_first (key : Text) : (listedEnv (first :: rest)).get key =
    ((listedEnv rest).get key).or
      (if key = decodeAscii first.1 then some (Utf8.decode first.2) else none) :=
  Dict.get_ofList_cons (readEntry first) (rest.map readEntry) key

/-- A key with a byte before it is another one. -/
theorem longer_key (flag : UInt8) (key : Bytes) : decodeAscii (flag :: key) ≠ decodeAscii key := by
  intro same
  have lengths := congrArg List.length same
  simp [decodeAscii] at lengths

/-- Reading the flags byte as the first byte of the list leaves the variables as they are: it is an
empty segment, or it hides the only entry there is to read, or what it does to the first entry is
undone by a later one.

In the second case nothing at all is read, and the decoder goes on to the longer header. -/
def ShiftHarmless (flag : UInt8) : Prop :=
  flag = 0x00 ∨ rest = [] ∧ entriesIn tail = [] ∧ isKeyByte flag = false ∨
    decodeAscii first.1 ∈ laterKeys rest tail ∧
      (isKeyByte flag = true → decodeAscii (flag :: first.1) ∈ laterKeys rest tail)

/-- What is read in the place of the first entry with the flags byte before it. -/
def shiftedEntry (flag : UInt8) : Option (Text × Text) :=
  if isKeyByte flag then some (readEntry (flag :: first.1, first.2)) else none

variable (firstKey : envKeyMatches first.1 = true)

include firstKey

/-- With a byte before it an entry is read under a longer key or not at all. It is the longer key if
the byte may stand in a key, and otherwise there is no entry. -/
theorem shifted_written (flag : UInt8) (value : Bytes) :
    entryOf (writtenSegment (flag :: first.1, value)) =
      shiftedEntry (first.1, value) flag := by
  cases accepted : isKeyByte flag with
  | true =>
    have key : envKeyMatches (flag :: first.1) = true := by
      simp only [envKeyMatches, Bool.and_eq_true, decide_eq_true_eq] at firstKey ⊢
      exact ⟨by simp, by simp [accepted, firstKey.2]⟩
    rw [entry_of_written _ key, shiftedEntry, accepted, if_pos rfl]
  | false =>
    have refused : entryOf (writtenSegment (flag :: first.1, value)) = none := by
      by_cases separator : flag = 0x3D
      · have cut := Sequences.partition_append (0x3D : UInt8) [] (first.1 ++ 0x3D :: value) (by simp)
        rw [List.nil_append] at cut
        simp [entryOf, writtenSegment, separator, cut, envKeyMatches]
      · have bytes : ∀ octet ∈ first.1, isKeyByte octet := by
          simp only [envKeyMatches, Bool.and_eq_true, List.all_eq_true] at firstKey
          exact firstKey.2
        have free : (0x3D : UInt8) ∉ flag :: first.1 := by
          rw [List.mem_cons, not_or]
          exact ⟨Ne.symm separator, fun member => (key_byte_plain 0x3D (bytes 0x3D member)).2 rfl⟩
        have cut := Sequences.partition_append (0x3D : UInt8) (flag :: first.1) value free
        simp only [entryOf, writtenSegment, cut]
        simp [envKeyMatches, accepted]
    rw [refused, shiftedEntry, accepted]
    rfl

variable (restKeys : ∀ entry ∈ rest, envKeyMatches entry.1 = true)
variable (values : ∀ entry ∈ first :: rest, (0x00 : UInt8) ∉ entry.2)

include restKeys values

/-- The entries that are read with the flags byte before the list. Only the first entry is read in
another way; the byte is no NUL, so it ends no entry. -/
theorem entries_in_shifted (flag : UInt8) (nonzero : flag ≠ 0x00) :
    ∃ value, entriesIn (flag :: listBytes (first :: rest) tail) =
      (shiftedEntry (first.1, value) flag).toList ++ (heldLast tail rest).map readEntry ++
        entriesIn tail := by
  have firstFree := keys_free [first] (by simpa using firstKey)
  have restFree := keys_free rest restKeys
  have free : ∀ entry ∈ (flag :: first.1, first.2) :: rest,
      (0x00 : UInt8) ∉ entry.1 ∧ (0x00 : UInt8) ∉ entry.2 := by
    intro entry member
    rcases List.mem_cons.mp member with rfl | inside
    · exact ⟨by simp [Ne.symm nonzero, firstFree first (by simp)], values first (by simp)⟩
    · exact ⟨restFree entry inside, values entry (List.mem_cons_of_mem _ inside)⟩
  have bytes : flag :: listBytes (first :: rest) tail =
      listBytes ((flag :: first.1, first.2) :: rest) tail := by
    simp [listBytes, writtenSegment]
  rw [bytes, entries_in_list _ tail (by simp) free]
  cases rest with
  | nil =>
    refine ⟨if tail.all isFill then first.2.rdropWhile isFill else first.2, ?_⟩
    have read := shifted_written first firstKey flag
      (if tail.all isFill then first.2.rdropWhile isFill else first.2)
    cases fill : tail.all isFill with
    | true =>
      simp only [fill, if_true] at read ⊢
      simp only [heldLast, fill, if_true, List.filterMap_cons, read, List.map_nil, List.append_nil,
        List.filterMap_nil]
      cases shiftedEntry (first.1, first.2.rdropWhile isFill) flag <;> rfl
    | false =>
      simp only [fill, Bool.false_eq_true, if_false] at read ⊢
      simp only [heldLast, fill, Bool.false_eq_true, if_false, List.filterMap_cons, read,
        List.map_nil, List.append_nil, List.filterMap_nil]
      cases shiftedEntry (first.1, first.2) flag <;> rfl
  | cons next rest =>
    refine ⟨first.2, ?_⟩
    rw [← read_written (next :: rest) tail restKeys]
    simp only [heldLast, List.filterMap_cons, shifted_written first firstKey flag first.2]
    cases shiftedEntry (first.1, first.2) flag <;> rfl

/-- The variables that are read behind a flags byte: those behind the list and of its later entries,
and before them one with the byte in its key if the byte can be part of one. The first entry itself
is gone. -/
theorem shifted_get (flag : UInt8) (nonzero : flag ≠ 0x00) : ∃ value, ∀ key,
    (Dict.ofList (entriesIn (flag :: listBytes (first :: rest) tail))).get key =
      ((Dict.ofList (entriesIn tail)).get key).or
        (((listedEnv (heldLast tail rest)).get key).or
          (if isKeyByte flag = true ∧ key = decodeAscii (flag :: first.1) then
            some value else none)) := by
  obtain ⟨value, shown⟩ :=
    entries_in_shifted first rest tail firstKey restKeys values flag nonzero
  refine ⟨Utf8.decode value, fun key => ?_⟩
  have shifted : (Dict.ofList (shiftedEntry (first.1, value) flag).toList).get key =
      if isKeyByte flag = true ∧ key = decodeAscii (flag :: first.1) then
        some (Utf8.decode value) else none := by
    cases accepted : isKeyByte flag with
    | true => simp [shiftedEntry, accepted, readEntry, Dict.ofList, Dict.update, Dict.get_set]
    | false => simp [shiftedEntry, accepted, Dict.ofList, Dict.update]
  rw [shown, List.append_assoc, Dict.get_ofList_append, Dict.get_ofList_append, shifted,
    listedEnv, Option.or_assoc]

section Same

variable (flag : UInt8) (nonzero : flag ≠ 0x00)
  (same : ∀ key, (Dict.ofList (entriesIn (flag :: listBytes (first :: rest) tail))).get key =
    (listedEnv (first :: rest)).get key)

include nonzero same

/-- If the list is read behind the byte, a later entry has the variable of the first one. -/
theorem shifted_own : decodeAscii first.1 ∈ laterKeys rest tail := by
  obtain ⟨value, read⟩ := shifted_get first rest tail firstKey restKeys values flag nonzero
  by_contra absent
  obtain ⟨noTail, noHeld, noRest⟩ := later_absent rest tail _ absent
  have lost := same (decodeAscii first.1)
  rw [read, listed_first, noTail, noHeld, noRest,
    if_neg fun made => longer_key flag first.1 made.2.symm, if_pos rfl] at lost
  cases lost

/-- If the list is read behind a byte that is part of a key, a later entry has the variable that
the byte makes. -/
theorem shifted_long (accepted : isKeyByte flag = true) :
    decodeAscii (flag :: first.1) ∈ laterKeys rest tail := by
  obtain ⟨value, read⟩ := shifted_get first rest tail firstKey restKeys values flag nonzero
  by_contra absent
  obtain ⟨noTail, noHeld, noRest⟩ := later_absent rest tail _ absent
  have made := same (decodeAscii (flag :: first.1))
  rw [read, listed_first, noTail, noHeld, noRest, if_pos ⟨accepted, rfl⟩,
    if_neg (longer_key flag first.1)] at made
  cases made

/-- If the list is read behind the byte, the entries behind its end repeat it. -/
theorem shifted_repeats : RepeatsList (first :: rest) tail := by
  obtain ⟨value, read⟩ := shifted_get first rest tail firstKey restKeys values flag nonzero
  intro key found behind
  rw [← same, read, behind, Option.some_or]

/-- If the list is read behind the byte, its last value is kept. The first entry cannot be the last
one then, because it comes back under its own key only if a later one repeats it. -/
theorem shifted_keeps : KeepsLast (first :: rest) tail := by
  by_cases fill : tail.all isFill = true
  case neg => exact fun filled => absurd filled fill
  have own := shifted_own first rest tail firstKey restKeys values flag nonzero same
  obtain ⟨value, read⟩ := shifted_get first rest tail firstKey restKeys values flag nonzero
  -- When only fill follows, the later entry is in the list, and so is the last one.
  have present : rest ≠ [] := by
    rintro rfl
    rw [later_iff, entries_in_fill tail fill] at own
    rcases own with none | none <;> exact none rfl
  obtain ⟨front, last, rfl⟩ : ∃ front last, rest = front ++ [last] :=
    ⟨_, _, (List.dropLast_append_getLast present).symm⟩
  rw [keeps_last_rest first _ tail present, ← held_last_iff _ _ fun entry member =>
    values entry (List.mem_cons_of_mem _ member)]
  apply held_last_same
  have stored : (listedEnv (front ++ [last])).get (decodeAscii last.1) ≠ none := by
    rw [listedEnv, Dict.get_ofList_ne_none]
    simp [readEntry]
  obtain ⟨heldValue, held⟩ := Option.ne_none_iff_exists'.mp ((held_keys _ tail _).mpr stored)
  obtain ⟨lastValue, kept⟩ := Option.ne_none_iff_exists'.mp stored
  have answer := same (decodeAscii last.1)
  rw [read, listed_first, entries_in_fill tail fill, held, kept, Option.some_or] at answer
  rw [held, kept]
  exact answer

end Same

/-- The list is read behind a flags byte up to its terminator exactly when nothing behind it
disagrees, the last value is kept and later entries undo what the byte does to the first one. -/
theorem shifted_read_iff (flag : UInt8) (nonzero : flag ≠ 0x00) :
    (∀ key, (Dict.ofList (entriesIn (flag :: listBytes (first :: rest) tail))).get key =
        (listedEnv (first :: rest)).get key) ↔
      RepeatsList (first :: rest) tail ∧ KeepsLast (first :: rest) tail ∧
        decodeAscii first.1 ∈ laterKeys rest tail ∧
        (isKeyByte flag = true → decodeAscii (flag :: first.1) ∈ laterKeys rest tail) := by
  constructor
  · intro same
    exact ⟨shifted_repeats first rest tail firstKey restKeys values flag nonzero same,
      shifted_keeps first rest tail firstKey restKeys values flag nonzero same,
      shifted_own first rest tail firstKey restKeys values flag nonzero same,
      shifted_long first rest tail firstKey restKeys values flag nonzero same⟩
  · rintro ⟨repeats, kept, own, long⟩ key
    obtain ⟨value, read⟩ := shifted_get first rest tail firstKey restKeys values flag nonzero
    have held : heldLast tail rest = rest := by
      by_cases present : rest = []
      · rw [present]
        rfl
      · exact (held_last_iff rest tail fun entry member =>
          values entry (List.mem_cons_of_mem _ member)).mpr
            ((keeps_last_rest first rest tail present).mp kept)
    rw [read, held]
    cases behind : (Dict.ofList (entriesIn tail)).get key with
    | some value => rw [repeats key value behind, Option.some_or]
    | none =>
      rw [listed_first, Option.none_or]
      cases inside : (listedEnv rest).get key with
      | some value => rw [Option.some_or, Option.some_or]
      | none =>
        have absent : key ∉ laterKeys rest tail := by
          rw [later_iff, behind, inside]
          simp
        have unmade : ¬(isKeyByte flag = true ∧ key = decodeAscii (flag :: first.1)) := by
          rintro ⟨accepted, rfl⟩
          exact absent (long accepted)
        have other : key ≠ decodeAscii first.1 := by
          rintro rfl
          exact absent own
        rw [if_neg unmade, if_neg other]

/-- With a flags byte that is not zero before the list nothing is read exactly when the byte
hides the only entry. -/
theorem shifted_nothing_iff (flag : UInt8) (nonzero : flag ≠ 0x00) :
    entriesIn (flag :: listBytes (first :: rest) tail) = [] ↔
      rest = [] ∧ entriesIn tail = [] ∧ isKeyByte flag = false := by
  obtain ⟨value, shown⟩ :=
    entries_in_shifted first rest tail firstKey restKeys values flag nonzero
  have hidden : (shiftedEntry (first.1, value) flag).toList = [] ↔ isKeyByte flag = false := by
    cases accepted : isKeyByte flag <;> simp [shiftedEntry, accepted]
  have others : heldLast tail rest = [] ↔ rest = [] := by
    cases rest using List.reverseRecOn with
    | nil => simp [heldLast]
    | append_singleton front last => simp [held_last_append]
  rw [shown, List.append_eq_nil_iff, List.append_eq_nil_iff, hidden, List.map_eq_nil_iff, others]
  tauto

/-- A list that is read from its flags byte on is read up to its terminator exactly when it would be
without the byte and the byte does no harm.

Proof: by whether the byte is zero; if it is not, each variable is compared in the two dictionaries,
the one of the first entry and the one that the byte makes of it on their own. -/
theorem shifted_list_iff (flag : UInt8)
    (something : entriesIn (flag :: listBytes (first :: rest) tail) ≠ []) :
    (∀ key, (Dict.ofList (entriesIn (flag :: listBytes (first :: rest) tail))).get key =
        (listedEnv (first :: rest)).get key) ↔
      RepeatsList (first :: rest) tail ∧ KeepsLast (first :: rest) tail ∧
        ShiftHarmless first rest tail flag := by
  have keys : ∀ entry ∈ first :: rest, envKeyMatches entry.1 = true :=
    List.forall_mem_cons.mpr ⟨firstKey, restKeys⟩
  by_cases zero : flag = 0x00
  · subst zero
    have solid : (listBytes (first :: rest) tail).all isFill = false :=
      List.all_eq_false.mpr ⟨0x3D, by simp [listBytes, writtenSegment], by decide⟩
    have harmless : ShiftHarmless first rest tail 0x00 := .inl rfl
    rw [entries_in_zero _ solid, list_read_iff _ tail keys (by simp) values]
    tauto
  · have visible := mt (shifted_nothing_iff first rest tail firstKey restKeys values flag zero).mpr
      something
    rw [shifted_read_iff first rest tail firstKey restKeys values flag zero, ShiftHarmless]
    tauto

/-- A flags byte behind which nothing is read does no harm. -/
theorem nothing_harmless (flag : UInt8)
    (nothing : entriesIn (flag :: listBytes (first :: rest) tail) = []) :
    ShiftHarmless first rest tail flag := by
  by_cases zero : flag = 0x00
  · exact .inl zero
  · exact .inr (.inl
      ((shifted_nothing_iff first rest tail firstKey restKeys values flag zero).mp nothing))

end Shifts

end UbootTftp
