import UbootTftp.Casing
import UbootTftp.StaticTargets

/-!
# Percent-encoding

A client writes a text into a request filename octet by octet: an octet stands for itself if
it is an ASCII character other than a percent sign or a slash, and any octet may be written as
a percent sign and its two hexadecimal digits, of either case. Decoding gives the text back,
whatever it holds, and what is written holds no slash, so that slashes separate texts.

`quoteSegment` writes in this way, and escapes as much as `urllib.parse.quote` can.
-/

namespace UbootTftp

/-- A text that stands for octets.

The relation leaves open which octets are escaped, so that it covers every client that escapes at
least the percent sign and the slash. -/
inductive PercentEncodes : Bytes → Text → Prop
  | nil : PercentEncodes [] []
  | kept (character : Char) (octets : Bytes) (text : Text) (ascii : character.toNat < 0x80)
      (percent : character ≠ '%') (slash : character ≠ '/') (rest : PercentEncodes octets text) :
      PercentEncodes (UInt8.ofNat character.toNat :: octets) (character :: text)
  | escaped (high low : Char) (octet : UInt8) (octets : Bytes) (text : Text)
      (digits : percentOctet high low = some octet) (rest : PercentEncodes octets text) :
      PercentEncodes (octet :: octets) ('%' :: high :: low :: text)

/-- A way to write a text: its UTF-8 octets are encoded. -/
def Encodes (segment text : Text) : Prop := PercentEncodes (Utf8.encode segment) text

section Decoding

/-- The octets of an encoded text are appended to the run.

Proof: by induction on the way of writing, for any octets that are pending; an octet that is kept
and one that is escaped both join them. -/
theorem PercentEncodes.unquoted {octets : Bytes} {text : Text}
    (encodes : PercentEncodes octets text) (pending : Bytes) :
    unquoteRun pending text = Utf8.decode (pending ++ octets) := by
  induction encodes generalizing pending with
  | nil => rw [unquoteRun, List.append_nil]
  | kept character octets text ascii percent slash rest inductionHypothesis =>
    rw [unquote_run_plain _ _ character ascii fun both => percent both.1, inductionHypothesis,
      List.append_assoc, List.singleton_append]
  | escaped high low octet octets text digits rest inductionHypothesis =>
    rw [unquote_run_escape _ _ high low octet digits, inductionHypothesis, List.append_assoc,
      List.singleton_append]

/-- Decoding what was written gives the text back, whatever the text holds: a run of octets is
decoded as a whole, and the octets of the text form one run. -/
theorem Encodes.unquoted {segment text : Text} (encodes : Encodes segment text) :
    unquote text = segment := by
  rw [unquote_eq, PercentEncodes.unquoted encodes, List.nil_append, Utf8.decode_encode]

/-- A hexadecimal digit is no slash. -/
theorem digits_no_slash (high low : Char) (octet : UInt8)
    (digits : percentOctet high low = some octet) : high ≠ '/' ∧ low ≠ '/' := by
  have slash : hexDigit '/' = none := by decide
  constructor
  · rintro rfl
    simp [percentOctet, slash] at digits
  · rintro rfl
    cases upper : hexDigit high <;> simp [percentOctet, slash, upper] at digits

/-- What is written holds no slash. -/
theorem PercentEncodes.no_slash {octets : Bytes} {text : Text}
    (encodes : PercentEncodes octets text) : '/' ∉ text := by
  induction encodes with
  | nil => simp
  | kept character octets text ascii percent slash rest inductionHypothesis =>
    simpa using ⟨slash.symm, inductionHypothesis⟩
  | escaped high low octet octets text digits rest inductionHypothesis =>
    obtain ⟨first, second⟩ := digits_no_slash high low octet digits
    simpa using ⟨first.symm, second.symm, inductionHypothesis⟩

/-- A text that is not empty is not written as nothing. -/
theorem Encodes.present {segment text : Text} (encodes : Encodes segment text)
    (present : segment ≠ []) : text ≠ [] := by
  rintro rfl
  have decoded := encodes.unquoted
  exact present (decoded.symm.trans (by decide))

end Decoding

section Quoting

/-- `quote` of `urllib.parse` with `safe=""`: UTF-8 octets other than letters, digits and
`_.-~` are escaped. -/
def quoteSegment (text : Text) : Text :=
  (Utf8.encode text).flatMap fun octet =>
    let character := Char.ofNat octet.toNat
    if character.isAlphanum || character ∈ ['_', '.', '-', '~'] then [character]
    else '%' :: [Nat.digitChar (octet.toNat / 16), Nat.digitChar (octet.toNat % 16)].map Char.toUpper

/-- A digit is read back in either case. -/
theorem digit_char_read (digit : Nat) (bounded : digit < 16) :
    hexDigit (Nat.digitChar digit).toUpper = some digit := by
  have each : ∀ digit : Fin 16, hexDigit (Nat.digitChar digit.val).toUpper = some digit.val := by
    decide
  exact each ⟨digit, bounded⟩

/-- The digits of an octet stand for it. -/
theorem octet_digits (octet : UInt8) :
    percentOctet (Nat.digitChar (octet.toNat / 16)).toUpper
      (Nat.digitChar (octet.toNat % 16)).toUpper = some octet := by
  have bound := octet.toNat_lt
  simp only [percentOctet, digit_char_read _ (show octet.toNat / 16 < 16 by omega),
    digit_char_read _ (show octet.toNat % 16 < 16 by omega), Nat.div_add_mod, UInt8.ofNat_toNat]

/-- The characters that are not escaped. They are ASCII, so their encoding is a single byte, and
neither the sign of an escape nor a slash is among them. -/
theorem unreserved_plain (character : Char)
    (unreserved : (character.isAlphanum || character ∈ ['_', '.', '-', '~']) = true) :
    character.toNat < 0x80 ∧ character ≠ '%' ∧ character ≠ '/' := by
  have ascii : character.toNat < 0x80 := by
    have shape : (character.isAlphanum || character ∈ ['_', '.', '-', '~']) =
        (character.isUpper || character.isLower || character.isDigit ||
          character ∈ ['_', '.', '-', '~']) := rfl
    rw [shape] at unreserved
    simp only [Bool.or_eq_true, decide_eq_true_eq] at unreserved
    rcases unreserved with ((upper | lower) | digit) | mark
    · have bound : character.toNat ≤ 90 := (of_decide_eq_true upper).2
      omega
    · have bound : character.toNat ≤ 122 := of_decide_eq_true ((Bool.and_eq_true _ _).mp lower).2
      omega
    · have bound : character.toNat ≤ 57 := of_decide_eq_true ((Bool.and_eq_true _ _).mp digit).2
      omega
    · simp only [List.mem_cons, List.not_mem_nil, or_false] at mark
      rcases mark with rfl | rfl | rfl | rfl <;> decide
  refine ⟨ascii, ?_, ?_⟩
  · rintro rfl
    exact absurd unreserved (by decide)
  · rintro rfl
    exact absurd unreserved (by decide)

/-- Quoting is a way to write a text, so that what is shown of all ways holds of it. The induction
is on the bytes of the encoded text: each of them is kept or escaped with two digits. -/
theorem quote_encodes (segment : Text) : Encodes segment (quoteSegment segment) := by
  unfold Encodes quoteSegment
  induction Utf8.encode segment with
  | nil => exact .nil
  | cons octet octets inductionHypothesis =>
    rw [List.flatMap_cons]
    by_cases unreserved : ((Char.ofNat octet.toNat).isAlphanum ||
        Char.ofNat octet.toNat ∈ ['_', '.', '-', '~']) = true
    · obtain ⟨ascii, percent, slash⟩ := unreserved_plain _ unreserved
      have kept := PercentEncodes.kept (Char.ofNat octet.toNat) octets _ ascii percent slash
        inductionHypothesis
      rw [octet_ofNat] at kept
      simpa only [unreserved, if_true, List.singleton_append] using kept
    · have escaped := PercentEncodes.escaped _ _ octet octets _ (octet_digits octet)
        inductionHypothesis
      simpa only [unreserved, Bool.false_eq_true, if_false, List.map_cons, List.map_nil,
        List.cons_append, List.nil_append] using escaped

end Quoting

end UbootTftp
