import UbootTftp.EnvRoundTrip
import UbootTftp.MemoryRanges
import UbootTftp.Numbers
import UbootTftp.Scripted

/-!
# The search for active memory

`find_active` looks for memory that changes between two readings. A device computes the CRC of
ranges of its memory and reports them; the ranges whose CRC differs in two successive readings
are split, until they are small enough, and are merged at the end.

What happens while the handler awaits the device is a parameter: the device runs the script
of a request, and the keys that it reports are in the handler's environment afterwards.
-/

namespace UbootTftp

/-- A device with its states: it answers a request with the environment of the handler. Nothing is
assumed of it; an exception while the handler waits is an answer too. -/
structure Device (σ : Type) where
  exec : σ → ExecutionRequest → Except Raised (σ × Env)

section Readings

/-- `crc32_script`: the CRC is computed into a word of scratch memory that is restored. The word is
saved in one variable and its address kept in another, and both are cleared at the end. -/
def crc32Script (addr length : Int) (scratch result : Text) : List Text :=
  ["setexpr.l dest ".toList ++ scratch,
    "setexpr.l tmp *".toList ++ expansion "dest".toList,
    "crc32 ".toList ++ Text.hex addr ++ ' ' :: Text.hex length ++ ' ' :: expansion "dest".toList,
    "setexpr.l ".toList ++ result ++ " *".toList ++ expansion "dest".toList,
    "mw.l ".toList ++ expansion "dest".toList ++ ' ' :: expansion "tmp".toList ++ " 1".toList,
    "setenv tmp; setenv dest".toList]

/-- The key under which a CRC is reported. -/
def crc32Key (index : Nat) : Text := '_' :: Text.decimal index

/-- The variables that the device reports the checksums of a batch in. -/
def crc32Keys (count : Nat) : List Text := (List.range count).map crc32Key

/-- What `crc32` asks the device for. -/
def crc32Request (rambase : Text) (ranges : List Range) : Except Raised ExecutionRequest :=
  let keys := crc32Keys ranges.length
  exec (.lines ((ranges.zip keys).flatMap fun entry =>
    crc32Script entry.1.1 entry.1.2 rambase entry.2)) false keys

/-- `str.zfill`. A sign stays in front of the zeros. -/
def zfill (width : Nat) (text : Text) : Text :=
  let zeros := List.replicate (width - text.length) '0'
  match text with
  | '+' :: rest => '+' :: zeros ++ rest
  | '-' :: rest => '-' :: zeros ++ rest
  | text => zeros ++ text

/-- The white space that `bytes.fromhex` skips between bytes. -/
def isHexSpace (character : Char) : Bool :=
  character == ' ' || (0x9 ≤ character.toNat && character.toNat ≤ 0xD)

/-- `bytes.fromhex`; `none` stands for its `ValueError`. White space is skipped between two bytes
but not inside one. -/
def bytesFromHex : Text → Option Bytes
  | [] => some []
  | [character] => if isHexSpace character then some [] else none
  | high :: low :: rest =>
    if isHexSpace high then bytesFromHex (low :: rest)
    else match percentOctet high low with
      | some octet => (bytesFromHex rest).map (octet :: ·)
      | none => none

/-- `struct.unpack` of one word, in either byte order. -/
def unpackWord (le : Bool) (raw : Bytes) : Except Raised Nat :=
  if raw.length = 4 then .ok (if le then fromLittleEndian raw else fromBigEndian raw)
  else .error (.byHandler (.other "struct.error".toList)
    "unpack requires a buffer of 4 bytes".toList)

/-- The CRC that is reported under a key. What the client has reported is filled up with zeros on
the left, so that numbers of fewer than eight digits are read as well. -/
def crc32Value (env : Env) (le : Bool) (key : Text) : Except Raised Nat := do
  let text ← lookupEnv env key
  match bytesFromHex (zfill 8 text) with
  | none => .error (.byHandler .valueError
      "non-hexadecimal number found in fromhex() arg".toList)
  | some raw => unpackWord le raw

variable {σ : Type}

/-- `crc32`: the checksums of a batch of ranges, as the device reports them. They are read in the
order of bytes that is asked for, which need not be the one that the device writes. -/
def crc32 (device : Device σ) (rambase : Text) (state : σ) (ranges : List Range) (le : Bool) :
    Except Raised (List Nat × σ) := do
  let request ← crc32Request rambase ranges
  let answer ← device.exec state request
  let res ← (crc32Keys ranges.length).mapM (crc32Value answer.2 le)
  .ok (res, answer.1)

/-- The batches of one round of `find_active`, each read twice. A range whose two values differ has
changed in between. The device is read batch after batch, each time in the state that the reading
before has left. -/
def changedRanges (device : Device σ) (rambase : Text) :
    List (List Range) → σ → Except Raised (List Range × σ)
  | [], state => .ok ([], state)
  | batch :: batches, state => do
    let first ← crc32 device rambase state batch true
    let second ← crc32 device rambase first.2 batch true
    let changed := ((batch.zip (first.1.zip second.1)).filter
      (fun entry => entry.2.1 != entry.2.2)).map Prod.fst
    let later ← changedRanges device rambase batches second.2
    .ok (changed ++ later.1, later.2)

/-- `find_active`, with a bound on the rounds of its loop. Without a result the bound was too small.

Whether a batch is small enough is decided by the first of the changed ranges alone, as the source
does; with ranges of one size it makes no difference. -/
def findActive (device : Device σ) (rambase : Text) (minChunk : Int) (splitParts : Nat)
    (maxRanges : Int) : Nat → List Range → σ → Except Raised (Option (List Range × σ))
  | _, [], state => .ok (some ([], state))
  | 0, _ :: _, _ => .ok none
  | rounds + 1, range :: rest, state => do
    let batches ← batched (range :: rest) maxRanges
    let changed ← changedRanges device rambase batches state
    match changed.1 with
    | [] => .ok (some ([], changed.2))
    | (_, chunk) :: _ =>
      if chunk ≤ minChunk then .ok (some (coalesceRanges changed.1, changed.2))
      else do
        let parts ← changed.1.mapM (fun range => splitRange range.1 range.2 splitParts)
        findActive device rambase minChunk splitParts maxRanges rounds parts.flatten changed.2

end Readings

section Words

/-- What a device writes for a word: at most eight hexadecimal digits of either case. -/
def IsWordText (text : Text) : Prop :=
  text.length ≤ 8 ∧ ∀ character ∈ text, (hexDigit character).isSome = true

/-- The number that hexadecimal digits give. -/
def hexNumber (text : Text) : Nat :=
  Nat.ofDigits 16 (text.reverse.map fun character => (hexDigit character).getD 0)

/-- A digit is less than the radix. Digits, small letters and capitals are taken one after the
other. -/
theorem hex_digit_lt (character : Char) (digit : Nat) (read : hexDigit character = some digit) :
    digit < 16 := by
  have bounds : ∀ first last : Char, first ≤ character ∧ character ≤ last →
      first.toNat ≤ character.toNat ∧ character.toNat ≤ last.toNat := by
    intro first last inside
    exact ⟨inside.1, inside.2⟩
  simp only [hexDigit] at read
  split at read
  · rename_i inside
    have range := bounds '0' '9' inside
    simp only [Option.some.injEq, Char.reduceToNat] at read range
    omega
  · split at read
    · rename_i inside
      have range := bounds 'a' 'f' inside
      simp only [Option.some.injEq, Char.reduceToNat] at read range
      omega
    · split at read
      · rename_i inside
        have range := bounds 'A' 'F' inside
        simp only [Option.some.injEq, Char.reduceToNat] at read range
        omega
      · cases read

/-- A digit is no white space. Its number is that of the digit zero or larger, and those of the
blanks are smaller. -/
theorem hex_digit_space (character : Char) (digit : (hexDigit character).isSome = true) :
    isHexSpace character = false := by
  have large : '0'.toNat ≤ character.toNat := by
    simp only [hexDigit] at digit
    split at digit
    · rename_i inside
      exact inside.1
    · split at digit
      · rename_i inside
        exact Nat.le_trans (by decide) (show 'a'.toNat ≤ character.toNat from inside.1)
      · split at digit
        · rename_i inside
          exact Nat.le_trans (by decide) (show 'A'.toNat ≤ character.toNat from inside.1)
        · cases digit
  simp only [Char.reduceToNat] at large
  have notBlank : character ≠ ' ' := by
    rintro rfl
    exact absurd large (by decide)
  simp only [isHexSpace, Bool.or_eq_false_iff, beq_eq_false_iff_ne, ne_eq, notBlank,
    not_false_eq_true, true_and, Bool.and_eq_false_iff, decide_eq_false_iff_not]
  right
  omega

/-- Pairs of digits are read as bytes that give the same number, most significant first.

Proof: by induction on the number of pairs. The first byte has the weight of the digits behind
it, which are two for each byte. -/
theorem bytes_from_hex (count : Nat) (text : Text) (sized : text.length = 2 * count)
    (digits : ∀ character ∈ text, (hexDigit character).isSome = true) :
    ∃ raw, bytesFromHex text = some raw ∧ raw.length = count ∧
      fromBigEndian raw = hexNumber text := by
  induction count generalizing text with
  | zero =>
    have empty : text = [] := List.eq_nil_of_length_eq_zero (by omega)
    subst empty
    exact ⟨[], rfl, rfl, rfl⟩
  | succ count inductionHypothesis =>
    match text, sized with
    | high :: low :: rest, sized =>
      obtain ⟨upper, highRead⟩ := Option.isSome_iff_exists.mp (digits high (by simp))
      obtain ⟨lower, lowRead⟩ := Option.isSome_iff_exists.mp (digits low (by simp))
      have upperBound := hex_digit_lt high upper highRead
      have lowerBound := hex_digit_lt low lower lowRead
      have space := hex_digit_space high (digits high (by simp))
      obtain ⟨raw, read, rawLength, value⟩ := inductionHypothesis rest
        (by simp only [List.length_cons] at sized; omega)
        (fun character member => digits character (by simp [member]))
      refine ⟨UInt8.ofNat (16 * upper + lower) :: raw, ?_, by simp [rawLength], ?_⟩
      · simp [bytesFromHex, space, percentOctet, highRead, lowRead, read]
      · have restLength : rest.length = 2 * count := by
          simp only [List.length_cons] at sized
          omega
        have octet : (UInt8.ofNat (16 * upper + lower)).toNat = 16 * upper + lower := by
          rw [UInt8.toNat_ofNat']
          exact Nat.mod_eq_of_lt (by omega)
        have weight : 256 ^ count = 16 ^ (2 * count) := by
          rw [pow_mul]
          rfl
        simp only [fromBigEndian, fromLittleEndian, hexNumber, List.reverse_cons, List.map_append,
          List.append_assoc, List.map_cons, List.map_nil, List.cons_append, List.nil_append,
          highRead, lowRead, Option.getD_some, octet] at value ⊢
        rw [Nat.ofDigits_append, Nat.ofDigits_append, value]
        simp only [List.length_map, List.length_reverse, rawLength, restLength, weight]
        simp only [Nat.ofDigits_cons, Nat.ofDigits_nil]
        ring

/-- The text of a word is filled up with zeros, which do not change the number. A word has at most
eight digits, and none of them is a sign, so the zeros come to the very front. -/
theorem zfill_word (text : Text) (word : IsWordText text) :
    (zfill 8 text).length = 8 ∧ (∀ character ∈ zfill 8 text, (hexDigit character).isSome = true) ∧
      hexNumber (zfill 8 text) = hexNumber text := by
  obtain ⟨short, digits⟩ := word
  have filled : zfill 8 text = List.replicate (8 - text.length) '0' ++ text := by
    unfold zfill
    split
    · exact absurd (digits '+' (by simp)) (by decide)
    · exact absurd (digits '-' (by simp)) (by decide)
    · rfl
  have zero : hexDigit '0' = some 0 := by decide
  rw [filled]
  refine ⟨?_, ?_, ?_⟩
  · simp only [List.length_append, List.length_replicate]
    omega
  · intro character member
    cases List.mem_append.mp member with
    | inl fill =>
      rw [List.eq_of_mem_replicate fill, zero]
      rfl
    | inr own => exact digits character own
  · simp only [hexNumber, List.reverse_append, List.reverse_replicate, List.map_append,
      List.map_replicate, zero, Option.getD_some]
    exact Nat.ofDigits_append_replicate_zero _

/-- Bytes of one length give the same number in a byte order only if they are the same. -/
theorem little_endian_injective (left right : Bytes) (sized : left.length = right.length)
    (same : fromLittleEndian left = fromLittleEndian right) : left = right := by
  have small : ∀ octets : Bytes, ∀ digit ∈ octets.map UInt8.toNat, digit < 256 := by
    intro octets digit member
    obtain ⟨octet, -, rfl⟩ := List.mem_map.mp member
    exact octet.toNat_lt
  have digits := Nat.ofDigits_inj_of_len_eq (by decide) (by simpa using sized) (small left)
    (small right) same
  exact List.map_injective_iff.mpr (fun _ _ => UInt8.toNat_inj.mp) digits

/-- The word of a text is read, in the order of bytes that `crc32` uses. -/
theorem crc32_value (env : Env) (key text : Text) (reported : env.get key = some text)
    (word : IsWordText text) :
    ∃ raw : Bytes, raw.length = 4 ∧ fromBigEndian raw = hexNumber text ∧
      crc32Value env true key = .ok (fromLittleEndian raw) := by
  obtain ⟨sized, digits, number⟩ := zfill_word text word
  obtain ⟨raw, read, rawLength, value⟩ := bytes_from_hex 4 (zfill 8 text) sized digits
  refine ⟨raw, rawLength, value.trans number, ?_⟩
  simp [crc32Value, lookupEnv, reported, bind, Except.bind, read, unpackWord, rawLength]

/-- Two reported words are read as different numbers exactly if they are different. The search
compares what it has read, in a byte order that is not the device's. -/
theorem crc32_values_differ (first second : Env) (key text other : Text)
    (reported : first.get key = some text) (reportedAgain : second.get key = some other)
    (word : IsWordText text) (otherWord : IsWordText other) :
    ∃ value value', crc32Value first true key = .ok value ∧
      crc32Value second true key = .ok value' ∧
        (value ≠ value' ↔ hexNumber text ≠ hexNumber other) := by
  obtain ⟨raw, sized, number, read⟩ := crc32_value first key text reported word
  obtain ⟨raw', sized', number', read'⟩ := crc32_value second key other reportedAgain otherWord
  refine ⟨_, _, read, read', not_congr ?_⟩
  rw [← number, ← number']
  constructor
  · intro same
    rw [little_endian_injective raw raw' (sized.trans sized'.symm) same]
  · intro same
    have reversed := little_endian_injective raw.reverse raw'.reverse
      (by simp [sized, sized']) same
    rw [List.reverse_injective reversed]

end Words

end UbootTftp
