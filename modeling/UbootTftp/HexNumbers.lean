import UbootTftp.Numbers
import UbootTftp.PartitionSizes

/-!
# Reading hexadecimal numbers back

`int` with base 0 reads what `hex` writes: the sign, the prefix, and digits of which none is an
underscore or white space.
-/

namespace Text

open UbootTftp (digitOf map_m_some)

/-- What holds of the digits below 16 holds of the characters of a hexadecimal number.

Proof: by induction on the number, which is one digit or a smaller number before one. -/
theorem to_digits_hex (holds : Char → Prop) (digits : ∀ digit < 16, holds (Nat.digitChar digit))
    (number : Nat) : ∀ character ∈ Nat.toDigits 16 number, holds character := by
  induction number using Nat.strong_induction_on with
  | h number inductionHypothesis =>
    by_cases small : number < 16
    · rw [Nat.toDigits_of_lt_base small]
      intro character member
      rw [List.mem_singleton.mp member]
      exact digits number small
    · rw [Nat.toDigits_of_base_le (by decide) (by omega)]
      intro character member
      cases List.mem_append.mp member with
      | inl front => exact inductionHypothesis (number / 16) (by omega) character front
      | inr last =>
        rw [List.mem_singleton.mp last]
        exact digits (number % 16) (Nat.mod_lt _ (by decide))

/-- A digit is read as its value. -/
theorem digit_of_char : ∀ digit < 16, digitOf 16 (Nat.digitChar digit) = some digit := by decide

/-- The digits of a number give it back.

Proof: by induction on the number; the last digit is added to the rest in the next place. -/
theorem to_digits_value (number : Nat) : ∃ values : List Nat,
    (Nat.toDigits 16 number).map (digitOf 16) = values.map some ∧
      values.foldl (fun number digit => number * 16 + digit) 0 = number := by
  induction number using Nat.strong_induction_on with
  | h number inductionHypothesis =>
    by_cases small : number < 16
    · refine ⟨[number], ?_, by simp⟩
      simp [Nat.toDigits_of_lt_base small, digit_of_char number small]
    · obtain ⟨values, read, folded⟩ := inductionHypothesis (number / 16) (by omega)
      refine ⟨values ++ [number % 16], ?_, ?_⟩
      · rw [Nat.toDigits_of_base_le (by decide) (by omega), List.map_append, read, List.map_append]
        simp [digit_of_char (number % 16) (Nat.mod_lt _ (by decide))]
      · rw [List.foldl_append, folded]
        simp only [List.foldl_cons, List.foldl_nil]
        omega

/-- A number has a digit. -/
theorem to_digits_present (number : Nat) : Nat.toDigits 16 number ≠ [] := by
  by_cases small : number < 16
  · simp [Nat.toDigits_of_lt_base small]
  · simp [Nat.toDigits_of_base_le (by decide : 1 < 16) (show 16 ≤ number by omega)]

/-- Hexadecimal digits are read as their number. -/
theorem digits_value_hex (number : Nat) :
    digitsValue 16 (Nat.toDigits 16 number) = some number := by
  have whole : (Nat.toDigits 16 number).splitOn '_' = [Nat.toDigits 16 number] := by
    apply List.splitOn_eq_singleton
    intro member
    exact to_digits_hex (· ≠ '_') (by decide) number '_' member rfl
  obtain ⟨values, read, folded⟩ := to_digits_value number
  have mapped : (Nat.toDigits 16 number).mapM (digitOf 16) = some values :=
    (map_m_some (digitOf 16) (Nat.toDigits 16 number) values).mpr read
  simp [digitsValue, whole, to_digits_present number, mapped, folded]

/-- The magnitude of a number with the hexadecimal prefix. -/
theorem magnitude_hex (number : Nat) :
    magnitude 0 ('0' :: 'x' :: Nat.toDigits 16 number) = some number := by
  have first : (Nat.toDigits 16 number).head? ≠ some '_' := by
    intro underscore
    exact to_digits_hex (· ≠ '_') (by decide) number '_' (List.mem_of_head? underscore) rfl
  simp [magnitude, announcedRadix, first, digits_value_hex number]

/-- The characters of a hexadecimal number. These are the sixteen digits, the letter of the prefix
and the sign, so a property is checked on these alone. -/
theorem hex_characters (holds : Char → Prop) (digits : ∀ digit < 16, holds (Nat.digitChar digit))
    (letter : holds 'x') (minus : holds '-') (value : Int) :
    ∀ character ∈ hex value, holds character := by
  intro character member
  simp only [hex, List.mem_append, List.mem_cons] at member
  rcases member with sign | rfl | rfl | digit
  · split at sign
    · rw [List.mem_singleton.mp sign]
      exact minus
    · cases sign
  · exact digits 0 (by decide)
  · exact letter
  · exact to_digits_hex holds digits value.natAbs character digit

/-- `int` with base 0 reads a hexadecimal number back. The sign of a negative number comes in front
of the `0x`, where `int` expects it. There is nothing to be stripped. -/
theorem parse_hex (value : Int) : parseInteger 0 (hex value) = some value := by
  have spaceless := hex_characters (fun character => isIntegerSpace character = false) (by decide)
    (by decide) (by decide) value
  have ascii := hex_characters (fun character => asciiDigit character = character) (by decide)
    (by decide) (by decide) value
  have stripped : (Sequences.strip isIntegerSpace (hex value)).map asciiDigit = hex value := by
    have kept : Sequences.strip isIntegerSpace (hex value) = hex value := by
      have present : hex value ≠ [] := by simp [hex]
      unfold Sequences.strip
      have front : (hex value).dropWhile isIntegerSpace = hex value := by
        cases shape : hex value with
        | nil => rfl
        | cons first rest =>
          rw [shape] at spaceless
          exact List.dropWhile_cons_of_neg (by simp [spaceless first (by simp)])
      rw [front]
      exact Sequences.rdrop_kept isIntegerSpace [] (hex value) present spaceless
    rw [kept]
    exact (List.map_congr_left ascii).trans (List.map_id _)
  unfold parseInteger
  rw [stripped]
  by_cases negative : value < 0
  · have shape : hex value = '-' :: '0' :: 'x' :: Nat.toDigits 16 value.natAbs := by
      simp [hex, negative]
    have same : -(value.natAbs : Int) = value := by omega
    simpa [shape, magnitude_hex] using same
  · have shape : hex value = '0' :: 'x' :: Nat.toDigits 16 value.natAbs := by
      simp [hex, negative]
    have same : (value.natAbs : Int) = value := by omega
    simpa [shape, magnitude_hex] using same

end Text
