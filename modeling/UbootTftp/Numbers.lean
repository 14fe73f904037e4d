import UbootTftp.Protocol

/-!
# Numbers as text

`int` of a text accepts surrounding space, a sign, the digits of any script that has
decimal digits, single underscores between digits and, for base 0, the base in front.
-/

namespace Text

/-- `str` of a number that is not negative. -/
def decimal (number : Nat) : Text := Nat.toDigits 10 number

/-- The zeros of the scripts with decimal digits; the other nine digits follow each. -/
def zeroDigits : List Nat :=
  [0x30, 0x660, 0x6F0, 0x7C0, 0x966, 0x9E6, 0xA66, 0xAE6, 0xB66, 0xBE6, 0xC66, 0xCE6, 0xD66, 0xDE6,
    0xE50, 0xED0, 0xF20, 0x1040, 0x1090, 0x17E0, 0x1810, 0x1946, 0x19D0, 0x1A80, 0x1A90, 0x1B50,
    0x1BB0, 0x1C40, 0x1C50, 0xA620, 0xA8D0, 0xA900, 0xA9D0, 0xA9F0, 0xAA50, 0xABF0, 0xFF10, 0x104A0,
    0x10D30, 0x11066, 0x110F0, 0x11136, 0x111D0, 0x112F0, 0x11450, 0x114D0, 0x11650, 0x116C0,
    0x11730, 0x118E0, 0x11950, 0x11C50, 0x11D50, 0x11DA0, 0x16A60, 0x16AC0, 0x16B50, 0x1D7CE,
    0x1D7D8, 0x1D7E2, 0x1D7EC, 0x1D7F6, 0x1E140, 0x1E2F0, 0x1E950, 0x1FBF0]

/-- A decimal digit of any script as its ASCII digit. -/
def asciiDigit (character : Char) : Char :=
  match zeroDigits.find? (fun first => first ≤ character.toNat ∧ character.toNat < first + 10) with
  | some first => Char.ofNat ('0'.toNat + (character.toNat - first))
  | none => character

/-- What `int` skips around a number: white space except the ASCII separators. -/
def isIntegerSpace (character : Char) : Bool :=
  isSpace character && !(0x1C ≤ character.toNat && character.toNat ≤ 0x1F)

/-- The value of digits in a radix, with single underscores between digits. Decimal numbers
of more than 4300 digits are refused. -/
def digitsValue (radix : Nat) (text : Text) : Option Nat :=
  let groups := text.splitOn '_'
  let digits := groups.flatten
  if [] ∈ groups ∨ radix = 10 ∧ 4300 < digits.length then none
  else (digits.mapM (UbootTftp.digitOf radix)).map (fun values =>
    values.foldl (fun number digit => number * radix + digit) 0)

/-- The radix that a letter behind a zero announces. Either case of the letter will do, and any
other letter announces none. -/
def announcedRadix (letter : Char) : Option Nat :=
  if letter = 'x' ∨ letter = 'X' then some 16
  else if letter = 'o' ∨ letter = 'O' then some 8
  else if letter = 'b' ∨ letter = 'B' then some 2
  else none

/-- A number without sign and space. Base 0 takes the radix from the text, and a decimal number with
a leading zero is zero, which is what the interpreter accepts and no more. -/
def magnitude (base : Nat) (body : Text) : Option Nat :=
  let plain := if base ≠ 0 then digitsValue base body
    else if body.head? = some '0' then
      (digitsValue 10 body).bind (fun number => if number = 0 then some 0 else none)
    else digitsValue 10 body
  match body with
  | '0' :: letter :: rest =>
    match announcedRadix letter with
    | some radix =>
      if base = 0 ∨ base = radix then
        digitsValue radix (if rest.head? = some '_' then rest.tail else rest)
      else plain
    | none => plain
  | _ => plain

/-- `int(text, base)`; `none` stands for its `ValueError`. The sign stands behind the space and in
front of the radix, and digits of other scripts count as theirs in ASCII. -/
def parseInteger (base : Nat) (text : Text) : Option Int :=
  let stripped := (Sequences.strip isIntegerSpace text).map asciiDigit
  match stripped with
  | '-' :: body => (magnitude base body).map (fun number => -number)
  | '+' :: body => (magnitude base body).map (fun number => number)
  | body => (magnitude base body).map (fun number => number)

end Text

example : Text.parseInteger 0 " 0x80_0000\n".toList = some 0x800000 := by decide +kernel
