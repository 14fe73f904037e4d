import UbootTftp.FlashImages
import Mathlib.Data.Nat.Digits.Defs

/-!
# Sizes of partitions

A size is a decimal number, or a hexadecimal one behind its mark, and a unit. The pattern of a
size token lets more through: a token is converted only if its digits are digits of the base
and, in a decimal number, not too many.
-/

namespace UbootTftp

/-- The digits of a number in a base: there is one at least, each has a value below the base, and
the values are those of the number. Letters count in either case. -/
structure Digits (base : Nat) (text : Text) (number : Nat) : Prop where
  present : text ≠ []
  value : ∃ values : List Nat, text.map hexDigit = values.map some ∧
    (∀ value ∈ values, value < base) ∧ number = Nat.ofDigits base values.reverse

/-- The units of a size. -/
def sizeUnits : List (Text × Nat) :=
  [([], 1), (['k'], 1024), (['m'], 1024 * 1024), (['g'], 1024 * 1024 * 1024)]

/-- What announces the base of a number: nothing for a decimal one. -/
def baseMark (base : Nat) : Text := if base = 16 then "0x".toList else []

/-- A size token in either case: a decimal number or a hexadecimal one with its mark, and a
unit. -/
structure SizeText (token : Text) (base number multiplier : Nat) (digits : Text) : Prop where
  known : base = 10 ∨ base = 16
  reads : Digits base digits number
  written : ∃ unit, (unit, multiplier) ∈ sizeUnits ∧
    Text.lower (Text.strip token) = baseMark base ++ digits ++ unit

/-- A token that stands for a size. The dash, which stands for the rest of the flash, does not. -/
def NumericSize (token : Text) (size : Int) : Prop :=
  ∃ base number multiplier digits, SizeText token base number multiplier digits ∧
    size = (number * multiplier : Nat)

/-- A token that can be converted: a dash for the rest of the flash, or a size whose decimal digits
are not too many for a conversion. The limit is that of the interpreter on decimal strings; numbers
in a base that is a power of two have none. -/
def Convertible (token : Text) : Prop :=
  Text.lower (Text.strip token) = ['-'] ∨
    ∃ base number multiplier digits, SizeText token base number multiplier digits ∧
      (base = 10 → digits.length ≤ 4300)

section Sizes

/-- Every item is read or none of them is. The induction is on the items, with any list of
values. -/
theorem map_m_some {α β : Type} (read : α → Option β) (items : List α) (values : List β) :
    items.mapM read = some values ↔ items.map read = values.map some := by
  induction items generalizing values with
  | nil => cases values <;> simp [pure]
  | cons item items inductionHypothesis =>
    cases values with
    | nil =>
      rw [List.mapM_cons]
      cases read item with
      | none => simp [bind]
      | some value => cases items.mapM read <;> simp [bind, pure]
    | cons value values =>
      rw [List.map_cons, List.map_cons, List.cons.injEq, ← inductionHypothesis, List.mapM_cons]
      cases read item with
      | none => simp [bind]
      | some found => cases items.mapM read <;> simp [bind, pure]

/-- The digits that a conversion reads.

Proof: by induction on the text; the values are generalised, since each character has one. -/
theorem digits_read (base : Nat) (text : Text) (values : List Nat) :
    text.map (digitOf base) = values.map some ↔
      text.map hexDigit = values.map some ∧ ∀ value ∈ values, value < base := by
  induction text generalizing values with
  | nil => cases values <;> simp
  | cons character text inductionHypothesis =>
    cases values with
    | nil => simp
    | cons value values =>
      have one : digitOf base character = some value ↔
          hexDigit character = some value ∧ value < base := by
        rw [digitOf]
        cases hexDigit character with
        | none => simp
        | some digit =>
          by_cases small : digit < base
          · simp only [Option.bind_some, small, if_true, Option.some.injEq]
            constructor
            · rintro rfl
              exact ⟨rfl, small⟩
            · exact And.left
          · simp only [Option.bind_some, small, if_false, Option.some.injEq, reduceCtorEq,
              false_iff, not_and]
            rintro rfl
            exact small
      rw [List.map_cons, List.map_cons, List.map_cons, List.cons.injEq, List.cons.injEq, one,
        inductionHypothesis, List.forall_mem_cons]
      tauto

/-- Digits are converted to the number that they denote. Python refuses decimal numbers of more than
4300 digits, which is part of the condition; hexadecimal ones may have any length. -/
theorem parse_int_iff (token : Text) (base number : Nat) (digits : Text)
    (cut : (if base = 16 ∧ "0x".toList.isPrefixOf token then token.drop 2 else token) = digits) :
    parseInt token base = .ok number ↔
      Digits base digits number ∧ (base = 10 → digits.length ≤ 4300) := by
  have value : ∀ values : List Nat, values.foldl (fun number digit => number * base + digit) 0 =
      Nat.ofDigits base values.reverse := by
    intro values
    rw [Nat.ofDigits_eq_foldr, List.foldr_reverse]
    congr 1
    funext number digit
    rw [Nat.mul_comm, Nat.add_comm]
    rfl
  simp only [parseInt, cut]
  by_cases refused : digits = [] ∨ base = 10 ∧ 4300 < digits.length
  · simp only [refused, if_true, reduceCtorEq, false_iff, not_and]
    rintro ⟨present, _⟩ short
    rcases refused with empty | ⟨decimal, long⟩
    · exact present empty
    · exact absurd (short decimal) (by omega)
  · obtain ⟨present, short⟩ := not_or.mp refused
    have fits : base = 10 → digits.length ≤ 4300 := fun decimal => by
      by_contra long
      exact short ⟨decimal, by omega⟩
    simp only [refused, if_false]
    cases read : digits.mapM (digitOf base) with
    | none =>
      simp only [reduceCtorEq, false_iff, not_and]
      rintro ⟨_, values, same, bounds, _⟩
      have found := (map_m_some _ digits values).mpr ((digits_read base digits values).mpr
        ⟨same, bounds⟩)
      rw [read] at found
      cases found
    | some values =>
      obtain ⟨same, bounds⟩ := (digits_read base digits values).mp ((map_m_some _ _ _).mp read)
      simp only [Except.ok.injEq, value]
      constructor
      · rintro rfl
        exact ⟨⟨present, values, same, bounds, rfl⟩, fits⟩
      · rintro ⟨⟨_, others, again, _, rfl⟩, _⟩
        rw [List.map_injective_iff.mpr (Option.some_injective _) (same.symm.trans again)]

/-- A unit is taken off the end of a size. The empty unit is one of the four, so a size without a
unit is covered as well. -/
theorem size_unit_found (body unit : Text) (multiplier : Nat)
    (known : (unit, multiplier) ∈ sizeUnits)
    (plain : ∀ letter, body.getLast? = some letter → letter ∉ ['k', 'm', 'g']) :
    sizeUnit (body ++ unit) = (multiplier, body) := by
  simp only [sizeUnits, List.mem_cons, Prod.mk.injEq, List.not_mem_nil, or_false] at known
  rcases known with ⟨rfl, rfl⟩ | ⟨rfl, rfl⟩ | ⟨rfl, rfl⟩ | ⟨rfl, rfl⟩
  · rw [List.append_nil, sizeUnit]
    split
    · rename_i last
      exact absurd (plain 'k' last) (by decide)
    · rename_i last
      exact absurd (plain 'm' last) (by decide)
    · rename_i last
      exact absurd (plain 'g' last) (by decide)
    · rfl
  · simp [sizeUnit]
  · simp [sizeUnit]
  · simp [sizeUnit]

/-- A size is what is left of it and its unit. The empty unit counts among them, so that the
statement holds of every text. -/
theorem size_unit_shape (text : Text) :
    ∃ unit, (unit, (sizeUnit text).1) ∈ sizeUnits ∧ text = (sizeUnit text).2 ++ unit := by
  have ended : ∀ letter, text.getLast? = some letter → text = text.dropLast ++ [letter] := by
    intro letter last
    obtain ⟨front, rfl⟩ := List.getLast?_eq_some_iff.mp last
    rw [List.dropLast_concat]
  rw [sizeUnit]
  split
  · rename_i last
    exact ⟨['k'], by simp [sizeUnits], ended 'k' last⟩
  · rename_i last
    exact ⟨['m'], by simp [sizeUnits], ended 'm' last⟩
  · rename_i last
    exact ⟨['g'], by simp [sizeUnits], ended 'g' last⟩
  · exact ⟨[], by simp [sizeUnits], (List.append_nil _).symm⟩

/-- The parts of a size token: the multiplier, the base and the digits. -/
def sizeParts (token : Text) : Nat × Nat × Text :=
  let (multiplier, body) := sizeUnit (Text.lower (Text.strip token))
  if "0x".toList.isPrefixOf body then (multiplier, 16, body.drop 2) else (multiplier, 10, body)

/-- Digits are hexadecimal digits. -/
theorem Digits.hexadecimal {base number : Nat} {text : Text} (digits : Digits base text number) :
    ∀ character ∈ text, hexDigit character ≠ none := by
  obtain ⟨_, values, same, _⟩ := digits
  intro character member none
  have read : hexDigit character ∈ values.map some := by
    rw [← same]
    exact List.mem_map_of_mem member
  rw [none] at read
  obtain ⟨_, _, found⟩ := List.mem_map.mp read
  cases found

/-- A token is written as a size exactly when its parts are those of the size. The parts are
computed from the token, while the way of writing only describes it. -/
theorem size_text_iff (token : Text) (base number multiplier : Nat) (digits : Text) :
    SizeText token base number multiplier digits ↔
      sizeParts token = (multiplier, base, digits) ∧ Digits base digits number := by
  constructor
  · rintro ⟨known, reads, unit, unitKnown, written⟩
    have hexadecimal := reads.hexadecimal
    have plain : ∀ letter, (baseMark base ++ digits).getLast? = some letter →
        letter ∉ ['k', 'm', 'g'] := by
      intro letter last
      obtain ⟨front, final, rfl⟩ : ∃ front final, digits = front ++ [final] :=
        ⟨_, _, (List.dropLast_append_getLast reads.present).symm⟩
      rw [← List.append_assoc, List.getLast?_concat, Option.some.injEq] at last
      subst last
      have digit := hexadecimal final (by simp)
      simp only [List.mem_cons, List.not_mem_nil, or_false]
      rintro (rfl | rfl | rfl) <;> exact digit (by decide)
    refine ⟨?_, reads⟩
    rw [sizeParts, written, size_unit_found _ unit multiplier unitKnown plain]
    rcases known with rfl | rfl
    · have decimal : ¬"0x".toList.isPrefixOf (baseMark 10 ++ digits) = true := by
        rw [List.isPrefixOf_iff_prefix]
        intro marked
        exact hexadecimal 'x' (marked.subset (by decide)) (by decide)
      simp only [decimal, if_false, Bool.false_eq_true]
      rfl
    · rfl
  · rintro ⟨parts, reads⟩
    obtain ⟨unit, unitKnown, written⟩ := size_unit_shape (Text.lower (Text.strip token))
    simp only [sizeParts] at parts
    by_cases marked : "0x".toList.isPrefixOf (sizeUnit (Text.lower (Text.strip token))).2 = true
    · simp only [marked, if_true, Prod.mk.injEq] at parts
      obtain ⟨rfl, rfl, rfl⟩ := parts
      refine ⟨.inr rfl, reads, unit, unitKnown, ?_⟩
      have whole := List.prefix_iff_eq_append.mp (List.isPrefixOf_iff_prefix.mp marked)
      calc Text.lower (Text.strip token)
          = (sizeUnit (Text.lower (Text.strip token))).2 ++ unit := written
        _ = baseMark 16 ++ (sizeUnit (Text.lower (Text.strip token))).2.drop 2 ++ unit := by
          exact congrArg (· ++ unit) whole.symm
    · simp only [marked, if_false, Bool.false_eq_true, Prod.mk.injEq] at parts
      obtain ⟨rfl, rfl, rfl⟩ := parts
      exact ⟨.inl rfl, reads, unit, unitKnown, written⟩

/-- A dash is no size. -/
theorem dash_no_size (token : Text) (dash : Text.lower (Text.strip token) = ['-'])
    (base number multiplier : Nat) (digits : Text) :
    ¬SizeText token base number multiplier digits := by
  intro written
  obtain ⟨parts, reads⟩ := (size_text_iff token base number multiplier digits).mp written
  have own : sizeParts token = (1, 10, ['-']) := by
    rw [sizeParts, dash]
    decide
  cases own.symm.trans parts
  exact reads.hexadecimal '-' (by simp) (by decide)

/-- The conversion of a token that is no dash is that of its number. -/
theorem parse_size_number (token : Text) (size : Text.lower (Text.strip token) ≠ ['-']) :
    parseSizeToken token =
      (parseInt (sizeUnit (Text.lower (Text.strip token))).2 (sizeParts token).2.1).map
        (fun number => some ((number * (sizeParts token).1 : Nat) : Int)) := by
  simp only [parseSizeToken, size, if_false, sizeParts]
  by_cases marked : "0x".toList.isPrefixOf (sizeUnit (Text.lower (Text.strip token))).2 = true
  · simp only [marked, if_true]
    cases parseInt (sizeUnit (Text.lower (Text.strip token))).2 16 <;> rfl
  · simp only [marked, if_false, Bool.false_eq_true]
    cases parseInt (sizeUnit (Text.lower (Text.strip token))).2 10 <;> rfl

/-- The conversion of a token that is no dash is that of its parts. The dash stands for the rest of
the flash and has no size. -/
theorem parse_size_parts (token : Text) (size : Text.lower (Text.strip token) ≠ ['-'])
    (converted : Option Int) :
    parseSizeToken token = .ok converted ↔ ∃ number,
      Digits (sizeParts token).2.1 (sizeParts token).2.2 number ∧
        ((sizeParts token).2.1 = 10 → (sizeParts token).2.2.length ≤ 4300) ∧
        converted = some ((number * (sizeParts token).1 : Nat) : Int) := by
  have cut : (if (sizeParts token).2.1 = 16 ∧
        "0x".toList.isPrefixOf (sizeUnit (Text.lower (Text.strip token))).2 then
      (sizeUnit (Text.lower (Text.strip token))).2.drop 2
      else (sizeUnit (Text.lower (Text.strip token))).2) = (sizeParts token).2.2 := by
    by_cases marked : "0x".toList.isPrefixOf (sizeUnit (Text.lower (Text.strip token))).2 = true
    · simp only [sizeParts, marked, if_true, and_self]
    · simp only [sizeParts, marked, Bool.false_eq_true, and_false, if_false]
  have read := fun number => parse_int_iff _ (sizeParts token).2.1 number _ cut
  rw [parse_size_number token size]
  cases result : parseInt (sizeUnit (Text.lower (Text.strip token))).2 (sizeParts token).2.1 with
  | error raised =>
    simp only [result, reduceCtorEq, false_iff] at read
    simp only [Except.map, reduceCtorEq, false_iff]
    rintro ⟨number, digits, short, _⟩
    exact read number ⟨digits, short⟩
  | ok found =>
    simp only [result, Except.ok.injEq] at read
    simp only [Except.map, Except.ok.injEq, ← and_assoc, ← read, exists_eq_left']
    exact eq_comm

/-- A token that is no dash can be converted exactly when its parts can. -/
theorem convertible_parts (token : Text) (size : Text.lower (Text.strip token) ≠ ['-']) :
    Convertible token ↔ (∃ number, Digits (sizeParts token).2.1 (sizeParts token).2.2 number) ∧
      ((sizeParts token).2.1 = 10 → (sizeParts token).2.2.length ≤ 4300) := by
  simp only [Convertible, size, false_or, size_text_iff]
  constructor
  · rintro ⟨base, number, multiplier, digits, ⟨parts, reads⟩, short⟩
    rw [parts]
    exact ⟨⟨number, reads⟩, short⟩
  · rintro ⟨⟨number, reads⟩, short⟩
    exact ⟨_, number, _, _, ⟨rfl, reads⟩, short⟩

/-- A token is converted to a size exactly when it is written as one and can be converted. Any other
token raises, unless it is the dash. -/
theorem parse_size_some (token : Text) (size : Int) :
    parseSizeToken token = .ok (some size) ↔ NumericSize token size ∧ Convertible token := by
  by_cases dash : Text.lower (Text.strip token) = ['-']
  · have skipped : parseSizeToken token = .ok none := by
      simp only [parseSizeToken, dash, if_true]
    simp only [skipped, Except.ok.injEq, reduceCtorEq, false_iff, not_and]
    rintro ⟨base, number, multiplier, digits, written, _⟩
    exact absurd written (dash_no_size token dash _ _ _ _)
  · rw [parse_size_parts token dash, convertible_parts token dash]
    simp only [NumericSize, size_text_iff, Option.some.injEq]
    constructor
    · rintro ⟨number, reads, short, same⟩
      exact ⟨⟨_, number, _, _, ⟨rfl, reads⟩, same⟩, ⟨number, reads⟩, short⟩
    · rintro ⟨⟨base, number, multiplier, digits, ⟨parts, reads⟩, same⟩, _, short⟩
      rw [parts] at short ⊢
      exact ⟨number, reads, short, same⟩

/-- Exactly the tokens that can be converted are: for all others the conversion raises. A dash
converts to no size at all, which is not an error, and is looked at apart. -/
theorem convertible_iff (token : Text) :
    Convertible token ↔ ∃ converted, parseSizeToken token = .ok converted := by
  by_cases dash : Text.lower (Text.strip token) = ['-']
  · have skipped : parseSizeToken token = .ok none := by
      simp only [parseSizeToken, dash, if_true]
    exact ⟨fun _ => ⟨_, skipped⟩, fun _ => .inl dash⟩
  · simp only [convertible_parts token dash, parse_size_parts token dash]
    constructor
    · rintro ⟨⟨number, reads⟩, short⟩
      exact ⟨_, number, reads, short, rfl⟩
    · rintro ⟨_, number, reads, short, _⟩
      exact ⟨⟨number, reads⟩, short⟩

end Sizes

end UbootTftp
