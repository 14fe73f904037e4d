import UbootTftp.Numbers
import UbootTftp.Scripted

/-!
# U-Boot script snippets

Each function gives the commands of one operation. Temporary variables are numbered by a
counter of the whole server; the number that a snippet draws is an argument here. A snippet
works relative to the load address of its session unless it is given another base.
-/

namespace UbootTftp

/-- `_format_number`. -/
def formatNumber (value : UbootNumber) : Text := formatUbootNumber value

/-- The name of the temporary variable that takes a number of the counter. -/
def nextTmp (kind : Text) (number : Nat) : Text :=
  "__uboot_tftp_".toList ++ kind ++ '_' :: Text.decimal number

/-- `_IDENT_RE.match`, whose end anchor also matches before a trailing newline. -/
def isIdentifier (text : Text) : Bool :=
  let body := if text.getLast? = some '\n' then text.dropLast else text
  match body with
  | [] => false
  | first :: rest => (first.isAlpha || first == '_') && rest.all (fun character =>
      character.isAlphanum || character ∈ ['_', '#', '.', '-'])

/-- `_normalize_base`: without a base the load address of the session, an identifier as the
expansion of the variable of that name, and anything else as it is. -/
def normalizeBase (rambase : Text) : Option Text → Text
  | none => rambase
  | some base =>
    if "$\x7b".toList.isPrefixOf base ∧ base.getLast? = some (Char.ofNat 0x7D) then base
    else if isIdentifier base then expansion base
    else base

/-- The joined lines of a snippet. -/
def snippet (lines : List Text) : Text := List.intercalate ['\n'] lines

/-- Fill a range of the memory with a byte. The address is computed into a temporary variable, which
is cleared again. -/
def ubootMemset (rambase : Text) (number : Nat) (offset value size : UbootNumber)
    (base : Option Text) : Text :=
  let addrVar := nextTmp "addr".toList number
  snippet
    ["setexpr ".toList ++ addrVar ++ ' ' :: normalizeBase rambase base ++ " + ".toList ++
        formatNumber offset,
      "mw.b ".toList ++ expansion addrVar ++ ' ' :: formatNumber value ++ ' ' :: formatNumber size,
      "setenv ".toList ++ addrVar]

/-- Copy a range of the memory. Both addresses are computed first, each into a variable of its
own. -/
def ubootMemcpy (rambase : Text) (source target : Nat) (dstOffset srcOffset size : UbootNumber)
    (base : Option Text) : Text :=
  let srcVar := nextTmp "src".toList source
  let dstVar := nextTmp "dst".toList target
  snippet
    ["setexpr ".toList ++ srcVar ++ ' ' :: normalizeBase rambase base ++ " + ".toList ++
        formatNumber srcOffset,
      "setexpr ".toList ++ dstVar ++ ' ' :: normalizeBase rambase base ++ " + ".toList ++
        formatNumber dstOffset,
      "cp.b ".toList ++ expansion srcVar ++ ' ' :: expansion dstVar ++ ' ' :: formatNumber size,
      "setenv ".toList ++ srcVar,
      "setenv ".toList ++ dstVar]

/-- Erase a range of the flash. The command takes whole sectors only, which is not checked here. -/
def ubootNorErase (offset size : UbootNumber) : Text :=
  snippet
    ["sf probe 0".toList, "sf erase ".toList ++ formatNumber offset ++ ' ' :: formatNumber size]

/-- The commands that move a range between the flash and the memory. The source writes them out for
each direction; they differ in the verb and in the order of the parameters. -/
def ubootNorMove (verb : Text) (rambase : Text) (number : Nat)
    (ramOffset norOffset size : UbootNumber) (base : Option Text) : Text :=
  let addrVar := nextTmp "addr".toList number
  snippet
    ["sf probe 0".toList,
      "setexpr ".toList ++ addrVar ++ ' ' :: normalizeBase rambase base ++ " + ".toList ++
        formatNumber ramOffset,
      "sf ".toList ++ verb ++ ' ' :: expansion addrVar ++ ' ' :: formatNumber norOffset ++
        ' ' :: formatNumber size,
      "setenv ".toList ++ addrVar]

/-- Read a range of the flash into the memory. -/
def ubootNorRead (rambase : Text) (number : Nat) (ramOffset norOffset size : UbootNumber)
    (base : Option Text) : Text :=
  ubootNorMove "read".toList rambase number ramOffset norOffset size base

/-- Write a range of the memory to the flash. The flash has to be erased there before, which is up
to the caller. -/
def ubootNorWrite (rambase : Text) (number : Nat) (norOffset ramOffset size : UbootNumber)
    (base : Option Text) : Text :=
  ubootNorMove "write".toList rambase number ramOffset norOffset size base

/-- The download of a static file into memory. A number of the counter is drawn with or
without an offset. -/
def ubootFetchStatic (rambase serverIp : Text) (number : Nat) (filename : Text)
    (offset : Option UbootNumber) (base : Option Text) : Text :=
  let addrVar := nextTmp "addr".toList number
  let remotePath := filename.dropWhile (· == '/')
  match offset with
  | none => "tftpboot ".toList ++ rambase ++ " \"".toList ++ serverIp ++ ':' :: remotePath ++ ['"']
  | some offset =>
    snippet
      ["setexpr ".toList ++ addrVar ++ ' ' :: normalizeBase rambase base ++ " + ".toList ++
          formatNumber offset,
        "tftpboot ".toList ++ expansion addrVar ++ " \"".toList ++ serverIp ++ ':' :: remotePath ++
          ['"'],
        "setenv ".toList ++ addrVar]

/-- The lines of `uboot_nor_download`: the flash is read over memory that has been filled, between
lines of the caller. -/
def ubootNorDownload (rambase : Text) (fill read : Nat) (size : Int) (preCmds postCmds : List Text) :
    List Text :=
  preCmds.filter (fun cmd => decide (cmd ≠ [])) ++
    [ubootMemset rambase fill (.int 0) (.int 0xFF) (.int size) none,
      ubootNorRead rambase read (.int 0) (.int 0) (.int size) none] ++
    postCmds.filter (fun cmd => decide (cmd ≠ []))

/-- The commands that read ever larger ranges until one fails. The size that was read last is left
in the variable `size`. The recursion doubles the size up to the limit, so it ends; the blocks nest
as deep as it goes. -/
def ubootNorGenProbe (rambase : Text) (size : Nat) (maxSize : Int) (knownGood offset : Int)
    (base : Option Text) (present : 0 < size) : List Text :=
  if maxSize < size then ["size=".toList ++ Text.hex knownGood ++ ";\n".toList]
  else
    ["echo ".toList ++ restoreCursor ++ clearRegion,
      "sf read ".toList ++ normalizeBase rambase base ++ ' ' :: Text.hex offset ++
        ' ' :: Text.hex size ++ ";\n".toList,
      "if test $? -eq 1; then\n".toList,
      "size=".toList ++ Text.hex knownGood ++ ";\n".toList,
      "else\n".toList] ++
    ubootNorGenProbe rambase (size * 2) maxSize size offset base (by omega) ++ ["fi;\n".toList]
  termination_by (maxSize + 1 - size).toNat

end UbootTftp
