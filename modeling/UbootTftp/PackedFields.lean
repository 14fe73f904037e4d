import Mathlib.Data.Nat.Digits.Defs

/-!
# Packed fields

A record of unsigned numbers is packed by writing each of them in as many bytes as its field
has, most significant byte first. Numbers that fit their fields are read back from where the
fields before them end.
-/

namespace PackedFields

/-- A number in so many bytes, most significant first. -/
def encode : Nat → Nat → List UInt8
  | 0, _ => []
  | width + 1, value => UInt8.ofNat (value / 256 ^ width) :: encode width value

/-- The number that bytes give, most significant first. -/
def decode (octets : List UInt8) : Nat := Nat.ofDigits 256 (octets.reverse.map UInt8.toNat)

/-- Fields, each with its width and its number. -/
def pack (fields : List (Nat × Nat)) : List UInt8 :=
  fields.flatMap (fun field => encode field.1 field.2)

/-- Read fields of the given widths. -/
def unpack : List Nat → List UInt8 → List Nat
  | [], _ => []
  | width :: widths, octets => decode (octets.take width) :: unpack widths (octets.drop width)

/-- Every number fits its field. -/
def Fits (fields : List (Nat × Nat)) : Prop := ∀ field ∈ fields, field.2 < 256 ^ field.1

instance (fields : List (Nat × Nat)) : Decidable (Fits fields) :=
  inferInstanceAs (Decidable (∀ field ∈ fields, field.2 < 256 ^ field.1))

/-- A number takes the width of its field. -/
@[simp] theorem encode_length (width value : Nat) : (encode width value).length = width := by
  induction width with
  | zero => rfl
  | succ width inductionHypothesis => simp [encode, inductionHypothesis]

/-- The first byte has the weight of those behind it. -/
theorem decode_cons (octet : UInt8) (octets : List UInt8) :
    decode (octet :: octets) = decode octets + 256 ^ octets.length * octet.toNat := by
  simp only [decode, List.reverse_cons, List.map_append, List.map_cons, List.map_nil,
    Nat.ofDigits_append, List.length_map, List.length_reverse, Nat.ofDigits_singleton]

/-- What is read back is the number without what does not fit. -/
theorem decode_encode_mod (width value : Nat) : decode (encode width value) = value % 256 ^ width := by
  induction width with
  | zero => simp [encode, decode, Nat.mod_one]
  | succ width inductionHypothesis =>
    rw [encode, decode_cons, inductionHypothesis, encode_length, Nat.mod_pow_succ]
    simp [UInt8.toNat_ofNat']

/-- A number that fits is read back. -/
theorem decode_encode (width value : Nat) (fits : value < 256 ^ width) :
    decode (encode width value) = value := by
  rw [decode_encode_mod, Nat.mod_eq_of_lt fits]

/-- A packed record has the widths of its fields together. -/
theorem pack_length (fields : List (Nat × Nat)) :
    (pack fields).length = (fields.map Prod.fst).sum := by
  simp [pack, List.length_flatMap]

/-- A field is read from where the fields before it end, whatever follows the record. -/
theorem field_decoded (front back : List (Nat × Nat)) (width value : Nat) (tail : List UInt8)
    (fits : value < 256 ^ width) :
    decode (((pack (front ++ (width, value) :: back) ++ tail).drop (front.map Prod.fst).sum).take
      width) = value := by
  have split : pack (front ++ (width, value) :: back) ++ tail =
      pack front ++ (encode width value ++ (pack back ++ tail)) := by
    simp [pack]
  rw [split, List.drop_left' (pack_length front), List.take_left' (encode_length width value),
    decode_encode width value fits]

/-- Reading a packed record gives its numbers, if they fit.

Proof: by induction on the fields, each of which takes its own bytes from the front. -/
theorem unpack_pack (fields : List (Nat × Nat)) (tail : List UInt8) (fits : Fits fields) :
    unpack (fields.map Prod.fst) (pack fields ++ tail) = fields.map Prod.snd := by
  induction fields with
  | nil => rfl
  | cons field fields inductionHypothesis =>
    obtain ⟨width, value⟩ := field
    have first : value < 256 ^ width := fits (width, value) (by simp)
    have others : Fits fields := fun field member => fits field (List.mem_cons_of_mem _ member)
    have split : pack ((width, value) :: fields) ++ tail =
        encode width value ++ (pack fields ++ tail) := by
      simp [pack]
    rw [List.map_cons, unpack, split, List.take_left' (encode_length width value),
      List.drop_left' (encode_length width value), decode_encode width value first,
      inductionHypothesis others, List.map_cons]

end PackedFields
