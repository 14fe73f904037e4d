import UbootTftp.Unquoting

/-!
# ASCII letter case

Texts that differ in the case of ASCII letters only have the same lower case, and percent-decoding
keeps them so: the digits of an escape have the same value in either case, and an ASCII octet is
decoded as itself, apart from what stands around it.
-/

namespace UbootTftp

/-- Texts that differ in the case of ASCII letters only. -/
def SameButCase (left right : Text) : Prop := left.map Char.toLower = right.map Char.toLower

section Octets

/-- The octet of a letter in lower case. -/
def lowerOctet (octet : UInt8) : UInt8 :=
  UInt8.ofNat (Char.ofNat octet.toNat).toLower.toNat

/-- An octet is the number of a character. -/
theorem octet_character (octet : UInt8) : (Char.ofNat octet.toNat).toNat = octet.toNat := by
  have small := octet.toNat_lt
  have valid : octet.toNat.isValidChar := .inl (by omega)
  rw [Char.ofNat, dif_pos valid]
  rfl

/-- An ASCII octet is that of an ASCII character. -/
theorem octet_ofNat (octet : UInt8) : UInt8.ofNat (Char.ofNat octet.toNat).toNat = octet := by
  rw [octet_character, UInt8.ofNat_toNat]

/-- The lower case of an ASCII character is ASCII. -/
theorem toLower_ascii (character : Char) :
    character.toLower.toNat < 0x80 ↔ character.toNat < 0x80 := by
  rcases Text.toLower_cases character with ⟨_, upper, moved⟩ | ⟨_, same⟩
  · omega
  · rw [same]

/-- Decoding octets in lower case gives the same lower case.

Proof: by induction on the octets, with those collected in front that are not ASCII. An ASCII octet
is decoded on its own and ends them; any other is the same in either case. -/
theorem decode_lower (before octets : Bytes) :
    (Utf8.decode (before ++ octets.map lowerOctet)).map Char.toLower =
      (Utf8.decode (before ++ octets)).map Char.toLower := by
  induction octets generalizing before with
  | nil => rfl
  | cons octet octets inductionHypothesis =>
    by_cases ascii : (Char.ofNat octet.toNat).toNat < 0x80
    · have lowered := (toLower_ascii (Char.ofNat octet.toNat)).mpr ascii
      have rest := inductionHypothesis []
      rw [List.nil_append, List.nil_append] at rest
      rw [List.map_cons, lowerOctet, Utf8.decode_ascii _ _ _ lowered, ← octet_ofNat octet,
        Utf8.decode_ascii _ _ _ ascii, List.map_append, List.map_append, List.map_cons,
        List.map_cons, rest, octet_ofNat, Text.toLower_toLower]
    · have kept : lowerOctet octet = octet := by
        rcases Text.toLower_cases (Char.ofNat octet.toNat) with ⟨_, upper, _⟩ | ⟨_, same⟩
        · omega
        · rw [lowerOctet, same, octet_ofNat]
      have rest := inductionHypothesis (before ++ [octet])
      rw [List.append_assoc, List.append_assoc, List.singleton_append, List.singleton_append] at rest
      rw [List.map_cons, kept, rest]

/-- Octets with the same lower case are decoded to texts with the same lower case. -/
theorem decode_same_case (left right : Bytes)
    (same : left.map lowerOctet = right.map lowerOctet) :
    SameButCase (Utf8.decode left) (Utf8.decode right) := by
  have first := decode_lower [] left
  have second := decode_lower [] right
  rw [List.nil_append, List.nil_append] at first second
  rw [SameButCase, ← first, same, second]

end Octets

section Escapes

/-- A hexadecimal digit has one value in either case. The capitals among the digits are moved by 32
and keep their values. -/
theorem hex_digit_lower (character : Char) : hexDigit character.toLower = hexDigit character := by
  rcases Text.toLower_cases character with ⟨low, high, moved⟩ | ⟨_, same⟩
  · have bounds : ∀ first last : Char, (first ≤ character ∧ character ≤ last ↔
        first.toNat ≤ character.toNat ∧ character.toNat ≤ last.toNat) ∧
        (first ≤ character.toLower ∧ character.toLower ≤ last ↔
          first.toNat ≤ character.toLower.toNat ∧ character.toLower.toNat ≤ last.toNat) :=
      fun _ _ => ⟨Iff.rfl, Iff.rfl⟩
    simp only [hexDigit, bounds, moved]
    have codes : '0'.toNat = 48 ∧ '9'.toNat = 57 ∧ 'a'.toNat = 97 ∧ 'f'.toNat = 102 ∧
        'A'.toNat = 65 ∧ 'F'.toNat = 70 := by decide
    obtain ⟨zero, nine, a, f, capital, last⟩ := codes
    rw [zero, nine, a, f, capital, last]
    repeat' split
    all_goals first | omega | rfl
  · rw [same]

/-- An escape stands for one octet in either case. -/
theorem percent_octet_lower (high low : Char) :
    percentOctet high.toLower low.toLower = percentOctet high low := by
  rw [percentOctet, percentOctet, hex_digit_lower, hex_digit_lower]

/-- Only the percent sign has the percent sign as its lower case. -/
theorem toLower_percent (character : Char) : character.toLower = '%' ↔ character = '%' := by
  constructor
  · intro percent
    rcases Text.toLower_cases character with ⟨low, _, moved⟩ | ⟨_, same⟩
    · rw [percent] at moved
      exact absurd moved (by have : '%'.toNat = 37 := rfl; omega)
    · exact same ▸ percent
  · rintro rfl
    rfl

/-- Where an escape begins it begins in either case. The percent sign is no letter, and digits keep
their values. -/
theorem escape_lower (character : Char) (text : Text) :
    (character.toLower = '%' ∧ ∃ high low after, text.map Char.toLower = high :: low :: after ∧
        percentOctet high low ≠ none) ↔
      character = '%' ∧ ∃ high low after, text = high :: low :: after ∧
        percentOctet high low ≠ none := by
  rw [toLower_percent]
  apply and_congr_right
  intro _
  constructor
  · rintro ⟨high, low, after, shape, digits⟩
    obtain ⟨first, later, rfl, rfl, lowered⟩ := List.map_eq_cons_iff.mp shape
    obtain ⟨second, rest, rfl, rfl, -⟩ := List.map_eq_cons_iff.mp lowered
    exact ⟨first, second, rest, rfl, by rwa [percent_octet_lower] at digits⟩
  · rintro ⟨high, low, after, rfl, digits⟩
    exact ⟨high.toLower, low.toLower, after.map Char.toLower, rfl, by rwa [percent_octet_lower]⟩

/-- Percent-decoding a text in lower case gives the same lower case, whatever octets with the same
lower case are pending. The pending octets are generalised for the induction. -/
theorem unquote_run_lower (pending other : Bytes) (text : Text)
    (same : other.map lowerOctet = pending.map lowerOctet) :
    SameButCase (unquoteRun other (text.map Char.toLower)) (unquoteRun pending text) := by
  induction pending, text using unquoteRun.induct generalizing other with
  | case1 pending =>
    rw [List.map_nil, unquoteRun, unquoteRun]
    exact decode_same_case other pending same
  | case2 pending high low rest octet digits inductionHypothesis =>
    have lowered := (percent_octet_lower high low).trans digits
    rw [List.map_cons, List.map_cons, List.map_cons, unquote_run_escape _ _ high low octet digits]
    change SameButCase (unquoteRun other ('%' :: high.toLower :: low.toLower ::
      rest.map Char.toLower)) _
    rw [unquote_run_escape _ _ _ _ octet lowered]
    exact inductionHypothesis _ (by rw [List.map_append, List.map_append, same])
  | case3 pending high low rest digits inductionHypothesis =>
    have lowered := (percent_octet_lower high low).trans digits
    rw [unquoteRun, digits, List.map_cons, List.map_cons, List.map_cons]
    change SameButCase (unquoteRun other ('%' :: high.toLower :: low.toLower ::
      rest.map Char.toLower)) _
    rw [unquoteRun, lowered]
    exact inductionHypothesis _ (by rw [List.map_append, List.map_append, same])
  | case4 pending character rest unescaped ascii inductionHypothesis =>
    have plain : ¬(character = '%' ∧ ∃ high low after, rest = high :: low :: after ∧
        percentOctet high low ≠ none) := by
      rintro ⟨percent, high, low, after, shape, _⟩
      exact unescaped high low after percent shape
    have lowered := mt (escape_lower character rest).mp plain
    have octets : lowerOctet (UInt8.ofNat character.toLower.toNat) =
        lowerOctet (UInt8.ofNat character.toNat) := by
      have number := (Utf8.encode_ascii character ascii).2.2
      have below := (Utf8.encode_ascii _ ((toLower_ascii character).mpr ascii)).2.2
      rw [lowerOctet, lowerOctet, number, below, Char.ofNat_toNat, Char.ofNat_toNat,
        Text.toLower_toLower]
    rw [List.map_cons, unquote_run_plain _ _ _ ascii plain,
      unquote_run_plain _ _ _ ((toLower_ascii character).mpr ascii) lowered]
    apply inductionHypothesis
    rw [List.map_append, List.map_append, same, List.map_singleton, List.map_singleton, octets]
  | case5 pending character rest unescaped high inductionHypothesis =>
    have kept : character.toLower = character := by
      rcases Text.toLower_cases character with ⟨_, upper, _⟩ | ⟨_, same⟩
      · omega
      · exact same
    have decoded := decode_same_case other pending same
    have later := inductionHypothesis [] rfl
    rw [SameButCase] at decoded later ⊢
    rw [List.map_cons, kept, unquote_run_other _ _ _ high, unquote_run_other _ _ _ high,
      List.map_append, List.map_append, List.map_cons, List.map_cons, decoded, later]

/-- Texts that differ in ASCII letter case only are decoded to such texts. -/
theorem unquote_same_case (left right : Text) (same : SameButCase left right) :
    SameButCase (unquote left) (unquote right) := by
  have first := unquote_run_lower [] [] left rfl
  have second := unquote_run_lower [] [] right rfl
  rw [unquote_eq, unquote_eq, SameButCase, ← first, same, second]

end Escapes

section LowerCase

/-- The lower case of a character is that of its ASCII lower case. The two letters that are treated
on their own are no capitals of ASCII. -/
theorem lowerChar_toLower (character : Char) :
    Text.lowerChar character.toLower = Text.lowerChar character := by
  by_cases kelvin : character = Char.ofNat 0x212A
  · subst kelvin
    decide
  · by_cases dotted : character = Char.ofNat 0x130
    · subst dotted
      decide
    · rw [Text.lowerChar, if_neg (Text.toLower_ne character _ kelvin (by decide)),
        if_neg (Text.toLower_ne character _ dotted (by decide)), Text.toLower_toLower,
        Text.lowerChar, if_neg kelvin, if_neg dotted]

/-- Texts that differ in ASCII letter case only have the same lower case. -/
theorem lower_same_case (left right : Text) (same : SameButCase left right) :
    Text.lower left = Text.lower right := by
  have lowered : ∀ text : Text, Text.lower text = Text.lower (text.map Char.toLower) := by
    intro text
    simp only [Text.lower, List.flatMap_map, lowerChar_toLower]
  rw [lowered left, same, ← lowered]

/-- Lower-cased text holds no ASCII capital. Each character is lowered to a list of characters: a
letter that has a lower one to that, and any other to itself. -/
theorem lower_capital (text : Text) (character : Char) (member : character ∈ Text.lower text) :
    ¬(65 ≤ character.toNat ∧ character.toNat ≤ 90) := by
  obtain ⟨source, -, inside⟩ := List.mem_flatMap.mp member
  unfold Text.lowerChar at inside
  split at inside
  · rw [List.mem_singleton.mp inside]
    decide
  · split at inside
    · rcases List.mem_cons.mp inside with rfl | last
      · decide
      · rw [List.mem_singleton.mp last]
        decide
    · rw [List.mem_singleton.mp inside]
      rintro ⟨low, high⟩
      rcases Text.toLower_cases source with ⟨_, _, moved⟩ | ⟨other, same⟩
      · omega
      · exact other (same ▸ ⟨low, high⟩)

end LowerCase

end UbootTftp
