import UbootTftp.Sequences
import Mathlib.Data.String.Basic

/-!
# Text

A Python string is the list of its characters. String literals of the source
are written as Lean literals and turned into lists by `String.toList`, which
evaluates.
-/

/-- A Python `str`. -/
abbrev Text := List Char

/-- Equality of texts is decided character by character. -/
instance Text.lawful : LawfulBEq Text := inferInstanceAs (LawfulBEq (List Char))

/-- A Python `bytes`. -/
abbrev Bytes := List UInt8

namespace Text

/-- One character of `str.lower`. ASCII letters and the Kelvin sign have an ASCII
lower case; the dotted capital I yields `i` and a combining dot. Every other
character keeps its place: its lower case contains a non-ASCII character, and
the callers compare lower-cased text with ASCII text only. -/
def lowerChar (character : Char) : Text :=
  if character = Char.ofNat 0x212A then ['k']
  else if character = Char.ofNat 0x130 then ['i', Char.ofNat 0x307]
  else [character.toLower]

/-- `str.lower`. -/
def lower (text : Text) : Text := text.flatMap lowerChar

/-- ASCII casing moves the capitals by 32 and nothing else. Letters that are not ASCII are left
alone by it, which is why `lower` treats two of them on its own. -/
theorem toLower_cases (character : Char) :
    (65 ≤ character.toNat ∧ character.toNat ≤ 90 ∧
        character.toLower.toNat = character.toNat + 32) ∨
      (¬(65 ≤ character.toNat ∧ character.toNat ≤ 90) ∧ character.toLower = character) := by
  unfold Char.toLower
  split
  · rename_i capital
    have upper : character.toNat ≤ 90 := capital.2
    have shifted : (character.val + ('a'.val - 'A'.val)).toNat =
        (character.val.toNat + 32) % 2 ^ 32 := by
      rw [UInt32.toNat_add]
      rfl
    refine .inl ⟨capital.1, upper, shifted.trans (Nat.mod_eq_of_lt ?_)⟩
    change character.toNat + 32 < 2 ^ 32
    omega
  · rename_i other
    exact .inr ⟨other, rfl⟩

/-- ASCII casing yields a non-ASCII character only from that character itself. -/
theorem toLower_ne (character other : Char) (different : character ≠ other)
    (large : 128 ≤ other.toNat) : character.toLower ≠ other := by
  rcases toLower_cases character with ⟨_, upper, moved⟩ | ⟨_, same⟩
  · rintro rfl
    omega
  · rw [same]
    exact different

/-- ASCII casing is idempotent, since its result is not a capital. -/
theorem toLower_toLower (character : Char) : character.toLower.toLower = character.toLower := by
  rcases toLower_cases character.toLower with ⟨lower, upper, _⟩ | ⟨_, same⟩
  · rcases toLower_cases character with ⟨_, _, moved⟩ | ⟨other, same⟩
    · omega
    · rw [same] at lower upper
      exact absurd ⟨lower, upper⟩ other
  · exact same

/-- Lower-casing a lower-cased character changes nothing: no character yields an
ASCII capital, the Kelvin sign or the dotted capital I. -/
theorem lower_lowerChar (character : Char) : lower (lowerChar character) = lowerChar character := by
  by_cases kelvin : character = Char.ofNat 0x212A
  · subst kelvin
    decide
  · by_cases dotted : character = Char.ofNat 0x130
    · subst dotted
      decide
    · simp only [lowerChar, kelvin, dotted, if_false, lower, List.flatMap_cons, List.flatMap_nil,
        List.append_nil, toLower_ne character _ kelvin (by decide),
        toLower_ne character _ dotted (by decide), toLower_toLower]

/-- `str.lower` is idempotent. -/
theorem lower_lower (text : Text) : lower (lower text) = lower text := by
  induction text with
  | nil => rfl
  | cons character rest inductionHypothesis =>
    have split : lower (character :: rest) = lowerChar character ++ lower rest := rfl
    have append : lower (lowerChar character ++ lower rest) =
        lower (lowerChar character) ++ lower (lower rest) := List.flatMap_append
    rw [split, append, lower_lowerChar, inductionHypothesis]

/-- `str.isspace` for one character. The list is that of Unicode's white space with the four ASCII
separators, which Python counts as well. -/
def isSpace (character : Char) : Bool :=
  let code := character.toNat
  (0x9 ≤ code && code ≤ 0xD) || (0x1C ≤ code && code ≤ 0x20) || code == 0x85 || code == 0xA0 ||
    code == 0x1680 || (0x2000 ≤ code && code ≤ 0x200A) || code == 0x2028 || code == 0x2029 ||
    code == 0x202F || code == 0x205F || code == 0x3000

/-- `str.rstrip` without an argument. -/
def rstrip (text : Text) : Text := text.rdropWhile isSpace

/-- `str.strip` without an argument: white space goes at both ends. -/
def strip (text : Text) : Text := Sequences.strip isSpace text

/-- `hex`, with the sign before the prefix. -/
def hex (value : Int) : Text :=
  (if value < 0 then ['-'] else []) ++ '0' :: 'x' :: Nat.toDigits 16 value.natAbs

/-- Join lines with newlines, leaving out the empty ones. This is what the source does with every
list of commands, so an empty command leaves no blank line. -/
def joinLines (lines : List Text) : Text :=
  List.intercalate ['\n'] (lines.filter (fun line => decide (line ≠ [])))

/-- A line that is not empty stands in the joined lines. -/
theorem line_infix (lines : List Text) (line : Text) (member : line ∈ lines) (present : line ≠ []) :
    line <:+: joinLines lines := by
  have kept : line ∈ lines.filter (fun line => decide (line ≠ [])) :=
    List.mem_filter.mpr ⟨member, by simpa using present⟩
  exact Sequences.joined_infix ['\n'] _ line kept

/-- The characters that end a line for `str.splitlines`. -/
def isLineBreak (character : Char) : Bool :=
  let code := character.toNat
  (0xA ≤ code && code ≤ 0xD) || (0x1C ≤ code && code ≤ 0x1E) || code == 0x85 || code == 0x2028 ||
    code == 0x2029

/-- Cut at line breaks, a carriage return and the newline after it being one break, with the
characters of the current line so far. A text that ends in a break has no empty line behind it. -/
def linesFrom (line : Text) : Text → List Text
  | [] => if line = [] then [] else [line]
  | '\r' :: '\n' :: rest => line :: linesFrom [] rest
  | character :: rest =>
    if isLineBreak character then line :: linesFrom [] rest
    else linesFrom (line ++ [character]) rest

/-- `str.splitlines`. -/
def splitLines (text : Text) : List Text := linesFrom [] text

/-- `str.split` without an argument. -/
def words (text : Text) : List Text :=
  (text.splitOnP isSpace).filter (fun word => decide (word ≠ []))

end Text
