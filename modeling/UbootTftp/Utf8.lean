import Mathlib.Data.List.Basic

/-!
# UTF-8 with replacement of malformed input

Encoding concatenates the encodings of the characters. Decoding never fails: a
malformed sequence yields one replacement character for its maximal well-formed
prefix and decoding resumes after that prefix, which is the `replace` policy.

Text survives encoding followed by decoding, whatever characters it holds. The
octets of an encoding say which ASCII characters the text holds, since the
encoding of any other character has no octet below 0x80. Octets are decoded on their own
before one that continues no sequence, so an ASCII octet separates: it is decoded as itself
and what stands before and behind it is decoded on its own.
-/

namespace Utf8

/-- The concatenated encodings of the characters. -/
def encode (text : List Char) : List UInt8 := text.flatMap String.utf8EncodeChar

/-- The character whose complete encoding starts the octets, if there is one. -/
def decodeFirst (octets : List UInt8) : Option Char :=
  (octets.take 4).toByteArray.utf8DecodeChar? 0

/-- The octets that may follow a lead octet directly. The leads E0, ED, F0 and F4
restrict them further than 80..BF, which excludes overlong forms, surrogates and
code points above 10FFFF. -/
def followsLead (lead next : UInt8) : Bool :=
  let lowest : UInt8 := if lead = 0xE0 then 0xA0 else if lead = 0xF0 then 0x90 else 0x80
  let highest : UInt8 := if lead = 0xED then 0x9F else if lead = 0xF4 then 0x8F else 0xBF
  lowest ≤ next && next ≤ highest

/-- Whether an octet continues a sequence past its second octet. -/
def continues (octet : UInt8) : Bool := 0x80 ≤ octet && octet ≤ 0xBF

/-- The length of the maximal well-formed prefix of a malformed sequence; it is one where not even
two octets fit together. Python replaces each such prefix by one character. -/
def malformedLength : List UInt8 → Nat
  | lead :: second :: third :: _ =>
    if 0xE0 ≤ lead && lead ≤ 0xEF && followsLead lead second then 2
    else if 0xF0 ≤ lead && lead ≤ 0xF4 && followsLead lead second then
      if continues third then 3 else 2
    else 1
  | [lead, second] =>
    if 0xE0 ≤ lead && lead ≤ 0xF4 && followsLead lead second then 2 else 1
  | _ => 1

/-- Decode with a bound on the number of characters. Bytes that are malformed are replaced by one
character and skipped together. -/
def decodeBounded : Nat → List UInt8 → List Char
  | 0, _ => []
  | _, [] => []
  | remaining + 1, octet :: octets =>
    match decodeFirst (octet :: octets) with
    | some character =>
      character :: decodeBounded remaining ((octet :: octets).drop character.utf8Size)
    | none =>
      Char.ofNat 0xFFFD ::
        decodeBounded remaining ((octet :: octets).drop (malformedLength (octet :: octets)))

/-- Decode octets, replacing malformed sequences. Every character consumes at
least one octet, so the number of octets bounds the number of characters. -/
def decode (octets : List UInt8) : List Char := decodeBounded octets.length octets

/-- A text is encoded character by character. -/
@[simp] theorem encode_cons (character : Char) (text : List Char) :
    encode (character :: text) = String.utf8EncodeChar character ++ encode text := rfl

/-- The complete encoding at the front is found, whatever follows it. -/
theorem decode_first_encoded (character : Char) (rest : List UInt8) :
    decodeFirst (String.utf8EncodeChar character ++ rest) = some character := by
  have size : (String.utf8EncodeChar character).length ≤ 4 := by
    rw [String.length_utf8EncodeChar]
    exact character.utf8Size_le_four
  rw [decodeFirst, List.take_append, List.take_of_length_le size, List.toByteArray_append]
  exact ByteArray.utf8DecodeChar?_utf8EncodeChar_append

/-- Decoding an encoding returns the text once the bound allows for it, by induction on the text
with the bound lowered by one for each character. -/
theorem decode_bounded_encode (text : List Char) (bound : Nat)
    (enough : (encode text).length ≤ bound) : decodeBounded bound (encode text) = text := by
  induction text generalizing bound with
  | nil => cases bound <;> rfl
  | cons character text inductionHypothesis =>
    have positive : 0 < character.utf8Size := character.utf8Size_pos
    rw [encode_cons, List.length_append, String.length_utf8EncodeChar] at enough
    obtain ⟨remaining, rfl⟩ : ∃ remaining, bound = remaining + 1 := ⟨bound - 1, by omega⟩
    cases encoded : encode (character :: text) with
    | nil =>
      have empty := congrArg List.length encoded
      rw [encode_cons, List.length_append, String.length_utf8EncodeChar, List.length_nil] at empty
      omega
    | cons octet octets =>
      have first : decodeFirst (octet :: octets) = some character := by
        rw [← encoded, encode_cons, decode_first_encoded]
      have rest : (octet :: octets).drop character.utf8Size = encode text := by
        rw [← encoded, encode_cons, ← String.length_utf8EncodeChar, List.drop_left]
      simp only [decodeBounded, first, rest]
      rw [inductionHypothesis remaining (by omega)]

/-- Text survives encoding followed by decoding. The converse fails: malformed octets are
replaced. -/
@[simp] theorem decode_encode (text : List Char) : decode (encode text) = text :=
  decode_bounded_encode text (encode text).length (Nat.le_refl _)

/-- An octet of an encoded character is below 0x80 only for an ASCII character,
which it then is; no octet exceeds 0xF4. -/
theorem encoded_octet (character : Char) (octet : UInt8)
    (member : octet ∈ String.utf8EncodeChar character) :
    (octet.toNat < 0x80 → octet.toNat = character.toNat) ∧ octet.toNat < 0xF8 := by
  have bound : character.toNat < 0x110000 := by
    have valid := character.valid
    simp only [UInt32.isValidChar, Nat.isValidChar] at valid
    have same : character.val.toNat = character.toNat := rfl
    omega
  have same : character.val.toNat = character.toNat := rfl
  unfold String.utf8EncodeChar at member
  simp only [same] at member
  split at member
  · simp only [List.mem_singleton] at member
    subst member
    simp only [UInt8.toNat_ofNat']
    omega
  · split at member
    · simp only [List.mem_cons, List.not_mem_nil, or_false] at member
      rcases member with rfl | rfl <;> simp only [UInt8.toNat_ofNat'] <;> omega
    · split at member
      · simp only [List.mem_cons, List.not_mem_nil, or_false] at member
        rcases member with rfl | rfl | rfl <;> simp only [UInt8.toNat_ofNat'] <;> omega
      · simp only [List.mem_cons, List.not_mem_nil, or_false] at member
        rcases member with rfl | rfl | rfl | rfl <;> simp only [UInt8.toNat_ofNat'] <;> omega

/-- A character at the front is found exactly when its complete encoding is there. -/
theorem decode_first_iff (octets : List UInt8) (character : Char) :
    decodeFirst octets = some character ↔ String.utf8EncodeChar character <+: octets := by
  constructor
  · intro found
    obtain ⟨rest, same⟩ := ByteArray.exists_of_utf8DecodeChar?_eq_some found
    have taken : octets.take 4 = String.utf8EncodeChar character ++ rest.data.toList := by
      have lists := congrArg (fun array => array.data.toList) same
      simpa using lists
    exact ⟨rest.data.toList ++ octets.drop 4, by
      rw [← List.append_assoc, ← taken, List.take_append_drop]⟩
  · rintro ⟨rest, rfl⟩
    exact decode_first_encoded character rest

/-- A malformed sequence has an octet. -/
theorem malformed_length_pos (octets : List UInt8) : 0 < malformedLength octets := by
  unfold malformedLength
  split <;> repeat' split
  all_goals omega

/-- Bounds that allow for every octet give the same text.

Proof: by induction on one of the bounds, for any other; each sequence takes an octet at least. -/
theorem decode_bounded_stable (first second : Nat) (octets : List UInt8)
    (enough : octets.length ≤ first) (sufficient : octets.length ≤ second) :
    decodeBounded first octets = decodeBounded second octets := by
  induction first generalizing second octets with
  | zero =>
    rw [List.length_eq_zero_iff.mp (Nat.le_zero.mp enough)]
    cases second <;> rfl
  | succ first inductionHypothesis =>
    cases octets with
    | nil => cases second <;> rfl
    | cons octet octets =>
      obtain ⟨second, rfl⟩ : ∃ other, second = other + 1 :=
        ⟨second - 1, by simp only [List.length_cons] at sufficient; omega⟩
      have shorter : ∀ count, 0 < count →
          ((octet :: octets).drop count).length ≤ first ∧
            ((octet :: octets).drop count).length ≤ second := by
        intro count positive
        simp only [List.length_drop, List.length_cons] at enough sufficient ⊢
        omega
      simp only [decodeBounded]
      cases decodeFirst (octet :: octets) with
      | some character =>
        obtain ⟨left, right⟩ := shorter character.utf8Size character.utf8Size_pos
        simp only [inductionHypothesis second _ left right]
      | none =>
        obtain ⟨left, right⟩ := shorter _ (malformed_length_pos (octet :: octets))
        simp only [inductionHypothesis second _ left right]

/-- A complete character at the front is decoded first. -/
theorem decode_found (octets : List UInt8) (character : Char)
    (found : decodeFirst octets = some character) :
    decode octets = character :: decode (octets.drop character.utf8Size) := by
  obtain ⟨rest, same⟩ := (decode_first_iff octets character).mp found
  cases octets with
  | nil =>
    have size := congrArg List.length same
    rw [List.length_append, String.length_utf8EncodeChar, List.length_nil] at size
    exact absurd size (by have := character.utf8Size_pos; omega)
  | cons octet octets =>
    have positive := character.utf8Size_pos
    rw [decode, List.length_cons, decodeBounded, found]
    exact congrArg _ (decode_bounded_stable _ _ _
      (by rw [List.length_drop, List.length_cons]; omega) (Nat.le_refl _))

/-- A malformed sequence at the front is replaced. -/
theorem decode_malformed (octets : List UInt8) (present : octets ≠ [])
    (malformed : decodeFirst octets = none) :
    decode octets = Char.ofNat 0xFFFD :: decode (octets.drop (malformedLength octets)) := by
  cases octets with
  | nil => exact absurd rfl present
  | cons octet octets =>
    have positive := malformed_length_pos (octet :: octets)
    rw [decode, List.length_cons, decodeBounded, malformed]
    exact congrArg _ (decode_bounded_stable _ _ _
      (by rw [List.length_drop, List.length_cons]; omega) (Nat.le_refl _))

/-- What follows a lead continues a sequence. Some leads allow only a part of the range, and that
part lies inside it. -/
theorem follows_continues (lead next : UInt8) (follows : followsLead lead next = true) :
    continues next = true := by
  have bounds : (0x80 : UInt8) ≤ 0x90 ∧ (0x80 : UInt8) ≤ 0xA0 ∧ (0x8F : UInt8) ≤ 0xBF ∧
      (0x9F : UInt8) ≤ 0xBF := by decide
  simp only [followsLead, Bool.and_eq_true, decide_eq_true_eq] at follows
  obtain ⟨low, high⟩ := follows
  simp only [continues, Bool.and_eq_true, decide_eq_true_eq]
  constructor
  · split at low
    · exact UInt8.le_trans bounds.2.1 low
    · split at low
      · exact UInt8.le_trans bounds.1 low
      · exact low
  · split at high
    · exact UInt8.le_trans high bounds.2.2.2
    · split at high
      · exact UInt8.le_trans high bounds.2.2.1
      · exact high

/-- Every octet of an encoded character behind the first one continues a sequence. They carry six
bits each, added to 128. -/
theorem encoded_continues (character : Char) :
    ∀ octet ∈ (String.utf8EncodeChar character).tail, continues octet = true := by
  have low : ∀ number, continues (UInt8.ofNat (number % 64 + 128)) = true := by
    intro number
    have bounds : (0x80 : UInt8).toNat = 128 ∧ (0xBF : UInt8).toNat = 191 := by decide
    simp only [continues, Bool.and_eq_true, decide_eq_true_eq, UInt8.le_iff_toNat_le,
      UInt8.toNat_ofNat']
    omega
  intro octet member
  unfold String.utf8EncodeChar at member
  simp only at member
  split at member
  · cases member
  · split at member
    · simp only [List.tail_cons, List.mem_cons, List.not_mem_nil, or_false] at member
      rw [member]
      exact low _
    · split at member
      · simp only [List.tail_cons, List.mem_cons, List.not_mem_nil, or_false] at member
        rcases member with rfl | rfl <;> exact low _
      · simp only [List.tail_cons, List.mem_cons, List.not_mem_nil, or_false] at member
        rcases member with rfl | rfl | rfl <;> exact low _

/-- What is malformed before an octet that continues nothing is so without it. The lead looks at
three octets at most, and the one that continues nothing stops it wherever it stands. -/
theorem malformed_before (before after : List UInt8) (octet : UInt8)
    (start : continues octet = false) (present : before ≠ []) :
    malformedLength (before ++ octet :: after) = malformedLength before ∧
      malformedLength before ≤ before.length := by
  have separate : ∀ lead, followsLead lead octet = false := by
    intro lead
    rw [Bool.eq_false_iff]
    intro follows
    rw [follows_continues lead octet follows] at start
    cases start
  match before, present with
  | [lead], _ =>
    cases after <;> simp [malformedLength, separate lead]
  | [lead, second], _ =>
    -- The third octet is not looked at, or does not continue a sequence of four.
    have whole : malformedLength ([lead, second] ++ octet :: after) =
        if 0xE0 ≤ lead && lead ≤ 0xEF && followsLead lead second then 2
        else if 0xF0 ≤ lead && lead ≤ 0xF4 && followsLead lead second then 2 else 1 := by
      simp only [List.cons_append, List.nil_append, malformedLength, start, Bool.false_eq_true,
        if_false]
    have part : malformedLength [lead, second] =
        if 0xE0 ≤ lead && lead ≤ 0xF4 && followsLead lead second then 2 else 1 := rfl
    have short : (0xEF : UInt8).toNat + 1 = (0xF0 : UInt8).toNat ∧
        (0xE0 : UInt8).toNat < (0xF0 : UInt8).toNat ∧
        (0xEF : UInt8).toNat < (0xF4 : UInt8).toNat := by decide
    simp only [whole, part, Bool.and_eq_true, decide_eq_true_eq, UInt8.le_iff_toNat_le]
    cases followsLead lead second with
    | false => simp
    | true =>
      simp only [and_true]
      constructor
      · repeat' split
        all_goals omega
      · split <;> simp
  | lead :: second :: third :: rest, _ =>
    constructor
    · rfl
    · simp only [malformedLength, List.length_cons]
      repeat' split
      all_goals omega

/-- Octets are decoded on their own before one that continues nothing. This is what lets a text be
cut at an ASCII character before it is decoded.

Proof: by strong induction on the length of the front, as one sequence after the other is taken from
it. -/
theorem decode_before (before after : List UInt8) (octet : UInt8)
    (start : continues octet = false) :
    decode (before ++ octet :: after) = decode before ++ decode (octet :: after) := by
  induction length : before.length using Nat.strongRecOn generalizing before with
  | ind _ inductionHypothesis =>
    subst length
    by_cases present : before = []
    · subst present
      rfl
    -- What is taken from the front ends before the octet.
    have step : ∀ count, 0 < count → count ≤ before.length →
        decode ((before ++ octet :: after).drop count) =
          decode (before.drop count) ++ decode (octet :: after) := by
      intro count positive within
      have nonempty := List.length_pos_iff.mpr present
      rw [List.drop_append_of_le_length within]
      exact inductionHypothesis _ (by rw [List.length_drop]; omega) _ rfl
    cases found : decodeFirst before with
    | some front =>
      obtain ⟨left, same⟩ := (decode_first_iff _ _).mp found
      have within := congrArg List.length same
      rw [List.length_append, String.length_utf8EncodeChar] at within
      have extended : decodeFirst (before ++ octet :: after) = some front :=
        (decode_first_iff _ _).mpr ⟨left ++ octet :: after, by rw [← List.append_assoc, same]⟩
      rw [decode_found _ _ extended, decode_found _ _ found, List.cons_append,
        step _ front.utf8Size_pos (by omega)]
    | none =>
      have extended : decodeFirst (before ++ octet :: after) = none := by
        refine Option.eq_none_iff_forall_ne_some.mpr fun front complete => ?_
        have inside := (decode_first_iff _ _).mp complete
        by_cases within : (String.utf8EncodeChar front).length ≤ before.length
        · have earlier := List.prefix_of_prefix_length_le inside (List.prefix_append _ _) within
          rw [(decode_first_iff _ _).mpr earlier] at found
          cases found
        · -- The octet would belong to the character and stand behind its first octet.
          have covers : before ++ [octet] <+: String.utf8EncodeChar front := by
            refine List.prefix_of_prefix_length_le ⟨after, ?_⟩ inside ?_
            · simp
            · rw [List.length_append, List.length_singleton]
              omega
          have later : octet ∈ (String.utf8EncodeChar front).tail := by
            obtain ⟨rest, same⟩ := covers
            obtain ⟨first, others, rfl⟩ := List.exists_cons_of_ne_nil present
            simp [← same]
          rw [encoded_continues front octet later] at start
          cases start
      obtain ⟨same, within⟩ := malformed_before before after octet start present
      rw [decode_malformed _ (by simp) extended, decode_malformed _ present found, same,
        List.cons_append, step _ (malformed_length_pos _) within]

/-- An ASCII character is encoded as one octet below 0x80. -/
theorem encode_ascii (character : Char) (ascii : character.toNat < 0x80) :
    String.utf8EncodeChar character = [UInt8.ofNat character.toNat] ∧
      UInt8.ofNat character.toNat < 0x80 ∧ (UInt8.ofNat character.toNat).toNat = character.toNat := by
  have same : character.val.toNat = character.toNat := rfl
  have number : (UInt8.ofNat character.toNat).toNat = character.toNat := by
    rw [UInt8.toNat_ofNat']
    omega
  refine ⟨?_, UInt8.lt_iff_toNat_lt.mpr (by rw [number]; exact ascii), number⟩
  simp only [String.utf8EncodeChar, same]
  rw [if_pos (by omega)]

/-- An ASCII character is decoded as itself wherever its octet stands. Such an octet occurs in no
longer encoding, so what stands before it is decoded as if the text ended there. -/
theorem decode_ascii (before after : List UInt8) (character : Char)
    (ascii : character.toNat < 0x80) :
    decode (before ++ UInt8.ofNat character.toNat :: after) =
      decode before ++ character :: decode after := by
  obtain ⟨single, low, _⟩ := encode_ascii character ascii
  have start : continues (UInt8.ofNat character.toNat) = false := by
    simp [continues, UInt8.not_le.mpr low]
  have found : decodeFirst (UInt8.ofNat character.toNat :: after) = some character :=
    (decode_first_iff _ _).mpr ⟨after, by rw [single]; rfl⟩
  have size : character.utf8Size = 1 := by
    rw [← String.length_utf8EncodeChar, single]
    rfl
  rw [decode_before before after _ start, decode_found _ _ found, size]
  rfl

/-- An ASCII character of the decoded text comes from its octet.

Proof: by strong induction on the number of octets; the characters of longer sequences are not
ASCII, nor is the one that stands for an error. -/
theorem decoded_ascii (octets : List UInt8) (character : Char) (ascii : character.toNat < 0x80)
    (member : character ∈ decode octets) : UInt8.ofNat character.toNat ∈ octets := by
  induction length : octets.length using Nat.strongRecOn generalizing octets with
  | ind _ inductionHypothesis =>
    subst length
    by_cases present : octets = []
    · subst present
      cases member
    have positive := List.length_pos_iff.mpr present
    have later : ∀ count, 0 < count → character ∈ decode (octets.drop count) →
        UInt8.ofNat character.toNat ∈ octets := by
      intro count more member
      exact List.mem_of_mem_drop (inductionHypothesis _
        (by rw [List.length_drop]; omega) _ member rfl)
    cases found : decodeFirst octets with
    | some front =>
      rw [decode_found _ _ found] at member
      rcases List.mem_cons.mp member with rfl | behind
      · obtain ⟨rest, same⟩ := (decode_first_iff _ _).mp found
        rw [(encode_ascii character ascii).1] at same
        simp [← same]
      · exact later _ front.utf8Size_pos behind
    | none =>
      rw [decode_malformed _ present found] at member
      rcases List.mem_cons.mp member with rfl | behind
      · exact absurd ascii (by decide)
      · exact later _ (malformed_length_pos _) behind

/-- ASCII text is decoded from its octets as it is. -/
theorem decode_ascii_text (text : List Char) (ascii : ∀ character ∈ text, character.toNat < 0x80) :
    decode (text.map fun character => UInt8.ofNat character.toNat) = text := by
  induction text with
  | nil => rfl
  | cons character text inductionHypothesis =>
    obtain ⟨first, others⟩ := List.forall_mem_cons.mp ascii
    rw [List.map_cons, ← List.nil_append (_ :: _), decode_ascii _ _ _ first, inductionHypothesis others]
    rfl

/-- Decoding gives at most one character for each octet.

Proof: by induction on the bound; every character takes one octet at least. -/
theorem decode_length (octets : List UInt8) : (decode octets).length ≤ octets.length := by
  have bounded : ∀ bound octets, (decodeBounded bound octets).length ≤ bound := by
    intro bound
    induction bound with
    | zero => exact fun _ => Nat.le_refl _
    | succ bound inductionHypothesis =>
      intro octets
      cases octets with
      | nil => exact Nat.zero_le _
      | cons octet octets =>
        simp only [decodeBounded]
        split
        · exact Nat.succ_le_succ (inductionHypothesis _)
        · exact Nat.succ_le_succ (inductionHypothesis _)
  exact bounded _ _

end Utf8
