import UbootTftp.Text

/-!
# Terminal messages

U-Boot commands that print formatted messages. A message is the argument of an
`echo` command, quoted so that its double quotes do not end the argument.
-/

namespace UbootTftp

/-- `ESC 7`: the terminal remembers the place of the cursor. Every message ends by saving it again,
so that the next status line is drawn over the place behind the last message. -/
def saveCursor : Text := "\x1b7".toList

/-- `ESC 8`: the cursor goes back to the place that was saved last. -/
def restoreCursor : Text := "\x1b8".toList

/-- The sequence that moves the cursor to the upper left corner. -/
def homeCursor : Text := "\x1b[H".toList

/-- The sequence that clears the screen from the cursor to its end. -/
def clearRegion : Text := "\x1b[J".toList

/-- The sequence that clears the whole screen. -/
def clearScreen : Text := "\x1b[2J".toList

/-- The sequence that goes back to the colors of the terminal. -/
def restoreStyle : Text := "\x1b[0m".toList

/-- The eight colors that the source knows by name. Its table is closed, so that a name without a
code cannot be asked for here; the source raises `ValueError` for it. -/
inductive ColorName
  | black
  | red
  | green
  | yellow
  | blue
  | magenta
  | cyan
  | white
  deriving DecidableEq

/-- The number of a color in the escape sequence. -/
def ColorName.code : ColorName → Nat
  | black => 30
  | red => 31
  | green => 32
  | yellow => 33
  | blue => 34
  | magenta => 35
  | cyan => 36
  | white => 37

/-- Put a text in double quotes, with a backslash before each of its own. A backslash of the
text itself is not doubled, which is how the source does it; `EchoedMessages` says which texts
survive. -/
def quote (value : Text) : Text :=
  '"' :: value.flatMap (fun character => if character = '"' then ['\\', '"'] else [character]) ++
    ['"']

/-- The command that prints a text, which goes through the quoting above. -/
def echo (value : Text) : Text := "echo ".toList ++ quote value

/-- The escape sequence that selects a color. The number is written in decimal, behind the mark for
bold letters if they are wanted. -/
def style (color : ColorName) (bold : Bool) : Text :=
  "\x1b[".toList ++ (if bold then "1;".toList else []) ++ Nat.toDigits 10 color.code ++ ['m']

/-- A blank screen with the cursor saved in its corner, where the first status line will stand. -/
def ubootTermReset : Text := echo (clearScreen ++ restoreStyle ++ homeCursor ++ saveCursor)

/-- A message in the place of the current status line, and a second command that saves the cursor
behind it. Without a newline the text ends in `\c`, which U-Boot takes as the order to stay on the
line. -/
def ubootMsg (msg : Text) (color : ColorName) (bold newline : Bool) : Text :=
  echo (restoreCursor ++ clearRegion ++ style color bold ++ msg ++ restoreStyle ++
    (if newline then [] else "\\c".toList)) ++ "; ".toList ++ echo saveCursor

/-- Redraw the saved line: the cursor is saved before the text, so that the next status replaces
this one. The color codes are part of the line; a caller that expects the bare text gets them
too. -/
def ubootStatus (msg : Text) (color : ColorName) (bold : Bool) : Text :=
  echo (restoreCursor ++ clearRegion ++ saveCursor ++ style color bold ++ msg ++ restoreStyle)

/-- Keep the status line that was drawn last: what follows is printed behind it. -/
def ubootStatusComplete : Text := echo saveCursor

/-- A bar of so many marks out of a total. More marks than the total are cut off. The numbers are
natural ones; the source takes a negative one for zero. -/
def ubootProgress (done total : Nat) (color : ColorName) (bold : Bool) : Text :=
  let filled := min done total
  ubootStatus ('[' :: List.replicate filled '#' ++ List.replicate (total - filled) ' ' ++ [']'])
    color bold

/-- A message in bold red letters. -/
def ubootErr (msg : Text) : Text := ubootMsg msg .red true true

end UbootTftp
