import UbootTftp.BoardCommands

/-!
# What the snippets do

An operation is what a snippet is for: to fill, copy, read, erase or write a range, to fetch a
file, or to tell the user something. Its effect speaks of addresses and bytes only; the temporary
variables of its commands are not seen. Each snippet carries out its operation, and so does a
script of any number of them, whatever numbers they have drawn.
-/

namespace UbootTftp

open CodeRefinement (run CarriesOut effects Admits)
open Overlays (replaced)

/-- What the snippets can see of a board. The status, the shell and the temporary variables do not
belong to it. -/
structure BoardView where
  values : Text → Option Text
  memory : Nat → UInt8
  flash : Nat → UInt8

/-- A board that shows a view, does not wait, and has no temporary variables but some. The list of
these changes while the commands of a snippet are run and is empty between snippets. -/
structure Shows (temporaries : List Text) (board : Board) (view : BoardView) : Prop where
  memory : board.memory = view.memory
  flash : board.flash = view.flash
  values : ∀ name, ¬Temporary name → board.values.get name = view.values name
  tidy : ∀ name, Temporary name → name ∉ temporaries → board.values.get name = none
  idle : board.waiting = none

/-- A base address and how it is given: the load address of the session is the one that is meant
without a text. -/
structure Base where
  text : Option Text
  address : Nat

/-- A word of a script locates an address: it is a number, or the expansion of a variable that holds
one. A temporary variable does not count, since another snippet might use it. -/
inductive Locates (view : BoardView) (address : Nat) : Text → Prop
  | literal (word : Text) (constant : Constant word) (number : boardNumber word = some address) :
      Locates view address word
  | held (name text : Text) (loose : Loose name) (closed : Char.ofNat 0x7D ∉ name)
      (lasting : ¬Temporary name) (holds : view.values name = some text)
      (number : boardNumber text = some address) : Locates view address (expansion name)

section Lines

/-- A line of words of which the first is a command. -/
def Written (words : List Text) : Prop :=
  ∃ first rest, words = first :: rest ∧ first ∉ keywords ∧ ∀ word ∈ words, RawWord word

/-- Lines of words are read as these words. -/
theorem reads_written (lines : List (List Text)) (present : lines ≠ [])
    (each : ∀ words ∈ lines, Written words) :
    Reads (snippet (lines.map (List.intercalate [' ']))) (lines.map .command) := by
  have joined := Reads.joined (List.intercalate [' ']) (fun words => [.command words]) lines present
    fun words member => by
      obtain ⟨first, rest, rfl, command, raw⟩ := each words member
      exact .line first rest raw command
  rw [← List.map_eq_flatMap] at joined
  exact joined

/-- What locates an address is read as one word. -/
theorem Locates.raw {view : BoardView} {address : Nat} {word : Text}
    (locates : Locates view address word) : RawWord word := by
  cases locates with
  | literal _ constant _ => exact constant.raw
  | held name text loose _ _ _ _ => exact raw_expansion name loose

/-- The line of a sum. -/
theorem sum_line (name base number : Text) :
    "setexpr ".toList ++ name ++ ' ' :: base ++ " + ".toList ++ number =
      List.intercalate [' '] ["setexpr".toList, name, base, ['+'], number] := by
  have front : "setexpr ".toList = "setexpr".toList ++ [' '] := rfl
  have middle : " + ".toList = [' ', '+', ' '] := rfl
  rw [front, middle]
  simp only [List.intercalate_cons_cons, List.intercalate_singleton, List.append_assoc,
    List.cons_append, List.nil_append]

/-- A line of a command and three words. -/
theorem three_line (verb first second third : Text) :
    verb ++ [' '] ++ first ++ ' ' :: second ++ ' ' :: third =
      List.intercalate [' '] [verb, first, second, third] := by
  simp only [List.intercalate_cons_cons, List.intercalate_singleton, List.append_assoc,
    List.cons_append, List.nil_append]

/-- The line that clears a variable. -/
theorem clear_line (name : Text) :
    "setenv ".toList ++ name = List.intercalate [' '] ["setenv".toList, name] := by
  have front : "setenv ".toList = "setenv".toList ++ [' '] := rfl
  rw [front]
  simp only [List.intercalate_cons_cons, List.intercalate_singleton]

/-- The line that erases a range. -/
theorem erase_line (offset size : Text) :
    "sf erase ".toList ++ offset ++ ' ' :: size =
      List.intercalate [' '] ["sf".toList, "erase".toList, offset, size] := by
  have front : "sf erase ".toList = "sf".toList ++ [' '] ++ "erase".toList ++ [' '] := rfl
  rw [front]
  simp only [List.intercalate_cons_cons, List.intercalate_singleton, List.append_assoc,
    List.cons_append, List.nil_append]

/-- The line that moves a range. -/
theorem move_line (verb address offset size : Text) :
    "sf ".toList ++ verb ++ ' ' :: address ++ ' ' :: offset ++ ' ' :: size =
      List.intercalate [' '] ["sf".toList, verb, address, offset, size] := by
  have front : "sf ".toList = "sf".toList ++ [' '] := rfl
  rw [front]
  simp only [List.intercalate_cons_cons, List.intercalate_singleton, List.append_assoc,
    List.cons_append, List.nil_append]

/-- The line that fetches a file. -/
theorem fetch_line (address serverIp name : Text) :
    "tftpboot ".toList ++ address ++ " \"".toList ++ serverIp ++ ':' :: name ++ ['"'] =
      List.intercalate [' ']
        ["tftpboot".toList, address, '"' :: (serverIp ++ ':' :: name) ++ ['"']] := by
  have front : "tftpboot ".toList = "tftpboot".toList ++ [' '] := rfl
  have middle : " \"".toList = [' ', '"'] := rfl
  rw [front, middle]
  simp only [List.intercalate_cons_cons, List.intercalate_singleton, List.append_assoc,
    List.cons_append, List.nil_append]

/-- A sum is written with words. -/
theorem sum_written {name : Text} (scratch : Scratch name) (offset : Nat) (base : Text)
    (raw : RawWord base) : Written ["setexpr".toList, name, base, ['+'], Text.hex offset] := by
  refine ⟨_, _, rfl, by decide, ?_⟩
  simp only [List.forall_mem_cons, List.not_mem_nil, false_imp_iff, implies_true, and_true]
  exact ⟨.plain _ (by decide) (by decide), scratch.constant.raw, raw,
    .plain _ (by decide) (by decide), (constant_hex offset).raw⟩

/-- The name of a temporary variable is cleared with words. -/
theorem clear_written {name : Text} (scratch : Scratch name) : Written ["setenv".toList, name] := by
  refine ⟨_, _, rfl, by decide, ?_⟩
  simp only [List.forall_mem_cons, List.not_mem_nil, false_imp_iff, implies_true, and_true]
  exact ⟨.plain _ (by decide) (by decide), scratch.constant.raw⟩

/-- A probe is written with words. -/
theorem probe_written : Written ["sf".toList, "probe".toList, "0".toList] := by
  refine ⟨_, _, rfl, by decide, ?_⟩
  simp only [List.forall_mem_cons, List.not_mem_nil, false_imp_iff, implies_true, and_true]
  exact ⟨.plain _ (by decide) (by decide), .plain _ (by decide) (by decide),
    .plain _ (by decide) (by decide)⟩

/-- A range is written with words. -/
theorem range_written (verb : Text) (command : verb ∉ keywords) (present : verb ≠ [])
    (loose : Loose verb) (first second : Text) (size : Nat) (one : RawWord first)
    (other : RawWord second) : Written [verb, first, second, Text.hex size] := by
  refine ⟨_, _, rfl, command, ?_⟩
  simp only [List.forall_mem_cons, List.not_mem_nil, false_imp_iff, implies_true, and_true]
  exact ⟨.plain _ present loose, one, other, (constant_hex size).raw⟩

/-- A range of the flash is moved with words. -/
theorem move_written (verb : Text) (present : verb ≠ []) (loose : Loose verb) {name : Text}
    (scratch : Scratch name) (offset size : Nat) :
    Written ["sf".toList, verb, expansion name, Text.hex offset, Text.hex size] := by
  refine ⟨_, _, rfl, by decide, ?_⟩
  simp only [List.forall_mem_cons, List.not_mem_nil, false_imp_iff, implies_true, and_true]
  exact ⟨.plain _ (by decide) (by decide), .plain _ present loose,
    scratch.raw, (constant_hex offset).raw, (constant_hex size).raw⟩

end Lines

/-- What a snippet is for. The constructors have the arguments of the functions that write the
snippets, and the contents of a file that is fetched. -/
inductive Operation
  | message (msg : Text) (color : ColorName) (bold newline : Bool)
  | memset (offset value size : Nat) (base : Base)
  | memcpy (dstOffset srcOffset size : Nat) (base : Base)
  | norErase (offset size : Nat)
  | norRead (ramOffset norOffset size : Nat) (base : Base)
  | norWrite (norOffset ramOffset size : Nat) (base : Base)
  | fetchStatic (filename : Text) (offset : Option Nat) (body : Bytes) (base : Base)

namespace Operation

/-- The name under which a board asks for a static file. -/
def staticName (serverIp filename : Text) : Text :=
  serverIp ++ ':' :: filename.dropWhile (· == '/')

/-- The snippet of an operation, with the numbers that it draws. An operation that draws fewer
numbers ignores the others. -/
def script (rambase serverIp : Text) (drawn : Nat × Nat) : Operation → Text
  | message msg color bold newline => ubootMsg msg color bold newline
  | memset offset value size base =>
    ubootMemset rambase drawn.1 (.int offset) (.int value) (.int size) base.text
  | memcpy dstOffset srcOffset size base =>
    ubootMemcpy rambase drawn.1 drawn.2 (.int dstOffset) (.int srcOffset) (.int size) base.text
  | norErase offset size => ubootNorErase (.int offset) (.int size)
  | norRead ramOffset norOffset size base =>
    ubootNorRead rambase drawn.1 (.int ramOffset) (.int norOffset) (.int size) base.text
  | norWrite norOffset ramOffset size base =>
    ubootNorWrite rambase drawn.1 (.int norOffset) (.int ramOffset) (.int size) base.text
  | fetchStatic filename offset _ base =>
    ubootFetchStatic rambase serverIp drawn.1 filename
      (offset.map (fun number : Nat => UbootNumber.int number)) base.text

/-- What an operation does, in addresses and bytes. A write to the flash clears bits only, so that
it takes an erasure before it to write what is meant. -/
def effect : Operation → BoardView → BoardView
  | message _ _ _ _, view => view
  | memset offset value size base, view =>
    { view with
      memory := replaced (base.address + offset) size (fun _ => UInt8.ofNat value) view.memory }
  | memcpy dstOffset srcOffset size base, view =>
    { view with
      memory := replaced (base.address + dstOffset) size
        (fun place => view.memory (base.address + srcOffset + place)) view.memory }
  | norErase offset size, view =>
    { view with flash := replaced offset size (fun _ => 0xFF) view.flash }
  | norRead ramOffset norOffset size base, view =>
    { view with
      memory := replaced (base.address + ramOffset) size
        (fun place => view.flash (norOffset + place)) view.memory }
  | norWrite norOffset ramOffset size base, view =>
    { view with
      flash := replaced norOffset size (fun place =>
        view.flash (norOffset + place) &&& view.memory (base.address + ramOffset + place))
          view.flash }
  | fetchStatic _ offset body base, view =>
    { view with
      memory := replaced (base.address + offset.getD 0) body.length (fun place => body.getD place 0)
        view.memory
      values := fun name =>
        if name = "filesize".toList then some (Nat.toDigits 16 body.length) else view.values name }

/-- A base address and an offset from it fit into an address. -/
structure Addressed (hardware : Hardware) (rambase : Text) (view : BoardView) (base : Base)
    (offset : Nat) : Prop where
  located : Locates view base.address (normalizeBase rambase base.text)
  bounded : base.address + offset < 2 ^ hardware.wordSize

/-- A range of the flash. -/
structure Stored (hardware : Hardware) (offset size : Nat) : Prop where
  present : hardware.capacity ≠ 0
  inside : offset + size ≤ hardware.capacity

/-- A file that the server hands out under a name that can be quoted. The last condition keeps it
from being taken for the name of a session. -/
structure Served (hardware : Hardware) (serverIp filename : Text) (body : Bytes) : Prop where
  handed : hardware.served (staticName serverIp filename) = some body
  unquoted : '"' ∉ staticName serverIp filename
  unescaped : '\\' ∉ staticName serverIp filename
  constant : '$' ∉ staticName serverIp filename
  file : Sequences.occurs ":id=".toList (staticName serverIp filename) = false

/-- Where an operation can be carried out.

Addresses have to fit into a word, ranges of the flash into its capacity, and a copy must not write
what it has still to read: `cp.b` goes upwards. -/
def Possible (hardware : Hardware) (rambase serverIp : Text) : Operation → BoardView → Prop
  | message msg _ _ _, _ => QuotedWords.EvenBefore '\\' '"' msg
  | memset offset _ _ base, view => Addressed hardware rambase view base offset
  | memcpy dstOffset srcOffset size base, view =>
    Addressed hardware rambase view base dstOffset ∧ Addressed hardware rambase view base srcOffset ∧
      (dstOffset ≤ srcOffset ∨ srcOffset + size ≤ dstOffset)
  | norErase offset size, _ =>
    Stored hardware offset size ∧ hardware.sector ∣ offset ∧ hardware.sector ∣ size
  | norRead ramOffset norOffset size base, view =>
    Addressed hardware rambase view base ramOffset ∧ Stored hardware norOffset size
  | norWrite norOffset ramOffset size base, view =>
    Addressed hardware rambase view base ramOffset ∧ Stored hardware norOffset size
  | fetchStatic filename offset body base, view =>
    Served hardware serverIp filename body ∧
      match offset with
      | some offset => Addressed hardware rambase view base offset
      | none => Locates view base.address rambase

/-- The commands of an operation, as the words that its snippet consists of. The numbers are those
that the snippet draws for its temporary variables; only copying needs two of them. -/
def code (rambase serverIp : Text) (drawn : Nat × Nat) : Operation → List (List Text)
  | message msg color bold newline =>
    [["echo".toList, quote (messageText msg color bold newline)], ["echo".toList, quote saveCursor]]
  | memset offset value size base =>
    let name := nextTmp "addr".toList drawn.1
    [["setexpr".toList, name, normalizeBase rambase base.text, ['+'], Text.hex offset],
      ["mw.b".toList, expansion name, Text.hex value, Text.hex size], ["setenv".toList, name]]
  | memcpy dstOffset srcOffset size base =>
    let source := nextTmp "src".toList drawn.1
    let target := nextTmp "dst".toList drawn.2
    [["setexpr".toList, source, normalizeBase rambase base.text, ['+'], Text.hex srcOffset],
      ["setexpr".toList, target, normalizeBase rambase base.text, ['+'], Text.hex dstOffset],
      ["cp.b".toList, expansion source, expansion target, Text.hex size],
      ["setenv".toList, source], ["setenv".toList, target]]
  | norErase offset size =>
    [["sf".toList, "probe".toList, "0".toList],
      ["sf".toList, "erase".toList, Text.hex offset, Text.hex size]]
  | norRead ramOffset norOffset size base =>
    let name := nextTmp "addr".toList drawn.1
    [["sf".toList, "probe".toList, "0".toList],
      ["setexpr".toList, name, normalizeBase rambase base.text, ['+'], Text.hex ramOffset],
      ["sf".toList, "read".toList, expansion name, Text.hex norOffset, Text.hex size],
      ["setenv".toList, name]]
  | norWrite norOffset ramOffset size base =>
    let name := nextTmp "addr".toList drawn.1
    [["sf".toList, "probe".toList, "0".toList],
      ["setexpr".toList, name, normalizeBase rambase base.text, ['+'], Text.hex ramOffset],
      ["sf".toList, "write".toList, expansion name, Text.hex norOffset, Text.hex size],
      ["setenv".toList, name]]
  | fetchStatic filename offset _ base =>
    let name := nextTmp "addr".toList drawn.1
    let target := '"' :: staticName serverIp filename ++ ['"']
    match offset with
    | none => [["tftpboot".toList, rambase, target]]
    | some offset =>
      [["setexpr".toList, name, normalizeBase rambase base.text, ['+'], Text.hex offset],
        ["tftpboot".toList, expansion name, target], ["setenv".toList, name]]

section Reading

variable {hardware : Hardware} {rambase serverIp : Text} {view : BoardView}

/-- The name of a file is quoted as one word. -/
theorem Served.raw {filename : Text} {body : Bytes} (served : Served hardware serverIp filename body) :
    RawWord ('"' :: staticName serverIp filename ++ ['"']) :=
  .verbatim _ served.unquoted served.unescaped

/-- The snippet of an operation is read as its commands. Where the operation is possible, what it is
given needs no quoting. -/
theorem reads_script (drawn : Nat × Nat) (operation : Operation)
    (possible : operation.Possible hardware rambase serverIp view) :
    Reads (operation.script rambase serverIp drawn)
      ((operation.code rambase serverIp drawn).map .command) := by
  have address : Scratch (nextTmp "addr".toList drawn.1) := scratch_tmp _ (by decide) drawn.1
  cases operation with
  | message msg color bold newline => exact .message msg color bold newline possible
  | memset offset value size base =>
    have located := possible.located.raw
    have fill : Written ["mw.b".toList, expansion (nextTmp "addr".toList drawn.1), Text.hex value,
        Text.hex size] := range_written _ (by decide) (by decide) (by decide) _ _ size address.raw
      (constant_hex value).raw
    have lines := reads_written (code rambase serverIp drawn (memset offset value size base))
      (by simp [code]) (List.forall_mem_cons.mpr ⟨sum_written address _ _ located,
        List.forall_mem_cons.mpr ⟨fill, List.forall_mem_singleton.mpr (clear_written address)⟩⟩)
    have filled := three_line "mw.b".toList (expansion (nextTmp "addr".toList drawn.1))
      (Text.hex value) (Text.hex size)
    simp only [code, List.map_cons, List.map_nil, ← sum_line, ← filled, ← clear_line] at lines
    exact lines
  | memcpy dstOffset srcOffset size base =>
    have located := possible.1.located.raw
    have source : Scratch (nextTmp "src".toList drawn.1) := scratch_tmp _ (by decide) drawn.1
    have target : Scratch (nextTmp "dst".toList drawn.2) := scratch_tmp _ (by decide) drawn.2
    have copy : Written ["cp.b".toList, expansion (nextTmp "src".toList drawn.1),
        expansion (nextTmp "dst".toList drawn.2), Text.hex size] :=
      range_written _ (by decide) (by decide) (by decide) _ _ size source.raw target.raw
    have lines := reads_written (code rambase serverIp drawn (memcpy dstOffset srcOffset size base))
      (by simp [code]) (List.forall_mem_cons.mpr ⟨sum_written source _ _ located,
        List.forall_mem_cons.mpr ⟨sum_written target _ _ located,
          List.forall_mem_cons.mpr ⟨copy, List.forall_mem_cons.mpr ⟨clear_written source,
            List.forall_mem_singleton.mpr (clear_written target)⟩⟩⟩⟩)
    have copied := three_line "cp.b".toList (expansion (nextTmp "src".toList drawn.1))
      (expansion (nextTmp "dst".toList drawn.2)) (Text.hex size)
    simp only [code, List.map_cons, List.map_nil, ← sum_line, ← copied, ← clear_line] at lines
    exact lines
  | norErase offset size =>
    have erase : Written ["sf".toList, "erase".toList, Text.hex offset, Text.hex size] :=
      range_written _ (by decide) (by decide) (by decide) _ _ size
        (.plain _ (by decide) (by decide)) (constant_hex offset).raw
    have lines := reads_written (code rambase serverIp drawn (norErase offset size)) (by simp [code])
      (List.forall_mem_cons.mpr ⟨probe_written, List.forall_mem_singleton.mpr erase⟩)
    simp only [code, List.map_cons, List.map_nil, ← erase_line] at lines
    exact lines
  | norRead ramOffset norOffset size base =>
    have located := possible.1.located.raw
    have lines := reads_written (code rambase serverIp drawn (norRead ramOffset norOffset size base))
      (by simp [code]) (List.forall_mem_cons.mpr ⟨probe_written, List.forall_mem_cons.mpr
        ⟨sum_written address _ _ located, List.forall_mem_cons.mpr
          ⟨move_written _ (by decide) (by decide) address _ _, List.forall_mem_singleton.mpr
            (clear_written address)⟩⟩⟩)
    simp only [code, List.map_cons, List.map_nil, ← sum_line, ← move_line, ← clear_line] at lines
    exact lines
  | norWrite norOffset ramOffset size base =>
    have located := possible.1.located.raw
    have lines := reads_written (code rambase serverIp drawn (norWrite norOffset ramOffset size base))
      (by simp [code]) (List.forall_mem_cons.mpr ⟨probe_written, List.forall_mem_cons.mpr
        ⟨sum_written address _ _ located, List.forall_mem_cons.mpr
          ⟨move_written _ (by decide) (by decide) address _ _, List.forall_mem_singleton.mpr
            (clear_written address)⟩⟩⟩)
    simp only [code, List.map_cons, List.map_nil, ← sum_line, ← move_line, ← clear_line] at lines
    exact lines
  | fetchStatic filename offset body base =>
    obtain ⟨served, located⟩ := possible
    have fetch (address : Text) (raw : RawWord address) : Written ["tftpboot".toList, address,
        '"' :: staticName serverIp filename ++ ['"']] := by
      refine ⟨_, _, rfl, by decide, ?_⟩
      simp only [List.forall_mem_cons, List.not_mem_nil, false_imp_iff, implies_true, and_true]
      exact ⟨.plain _ (by decide) (by decide), raw, served.raw⟩
    cases offset with
    | none =>
      have lines := reads_written (code rambase serverIp drawn (fetchStatic filename none body base))
        (by simp [code]) (List.forall_mem_singleton.mpr (fetch rambase located.raw))
      simp only [code, List.map_cons, List.map_nil, staticName, ← fetch_line, snippet,
        List.intercalate_singleton] at lines
      exact lines
    | some offset =>
      have based := located.located.raw
      have lines := reads_written
        (code rambase serverIp drawn (fetchStatic filename (some offset) body base)) (by simp [code])
        (List.forall_mem_cons.mpr ⟨sum_written address _ _ based, List.forall_mem_cons.mpr
          ⟨fetch _ address.raw, List.forall_mem_singleton.mpr (clear_written address)⟩⟩)
      simp only [code, List.map_cons, List.map_nil, staticName, ← sum_line, ← fetch_line,
        ← clear_line] at lines
      exact lines

end Reading

section Effects

variable {hardware : Hardware} {rambase serverIp : Text} {board : Board} {view : BoardView}
  {temporaries : List Text}

/-- A board finds the address that a word locates. -/
theorem located_number {address : Nat} {word : Text} (locates : Locates view address word)
    (shows : Shows temporaries board view) (status : Nat) :
    boardNumber (expandFrom board.values.get status .text (bareWord false word)) = some address := by
  cases locates with
  | literal _ constant number =>
    rw [constant.expanded]
    exact number
  | held name text loose closed lasting holds number =>
    rw [expand_variable _ _ name loose closed, shows.values name lasting, holds]
    exact number

/-- A board that holds an address in a temporary variable. -/
def HoldsAddress (board : Board) (name : Text) (address : Nat) : Prop :=
  board.values.get name = some (Nat.toDigits 16 address)

/-- The expansion of the variable is the address. -/
theorem HoldsAddress.number {name : Text} (scratch : Scratch name) {address : Nat}
    (holds : HoldsAddress board name address) (status : Nat) :
    boardNumber (expandFrom board.values.get status .text (bareWord false (expansion name))) =
      some address := by
  rw [expand_variable _ _ name scratch.constant.loose scratch.closed, holds]
  exact board_number_digits address

/-- A sum leaves the address in its temporary variable, and shows the same. The name joins the
temporary ones, of which a view says nothing, and the sum is that of the base and the offset. -/
theorem exec_sum (shows : Shows temporaries board view) {base : Base} {offset : Nat}
    (addressed : Addressed hardware rambase view base offset) {name : Text}
    (scratch : Scratch name) :
    ∃ later, Board.execWords hardware ["setexpr".toList, name, normalizeBase rambase base.text,
        ['+'], Text.hex offset] board = later ∧
      Shows (name :: temporaries) later view ∧ HoldsAddress later name (base.address + offset) ∧
      later.probed = board.probed ∧
      ∀ other, other ≠ name → later.values.get other = board.values.get other := by
  have read : readCommand (board.expandWords ["setexpr".toList, name,
      normalizeBase rambase base.text, ['+'], Text.hex offset]) =
        some (.sum name base.address offset) := by
    have verb : Constant "setexpr".toList := by decide
    have plus : Constant ['+'] := by decide
    simp only [Board.expandWords, List.map_cons, List.map_nil, verb.expanded, plus.expanded,
      scratch.constant.expanded, (constant_hex offset).expanded]
    exact read_sum _ _ _ _ _ (located_number addressed.located shows board.status)
      (board_number_hex offset)
  refine ⟨_, exec_known shows.idle _ _ read, ?_⟩
  rw [BoardCommand.exec, Nat.mod_eq_of_lt addressed.bounded]
  refine ⟨⟨shows.memory, shows.flash, fun other lasting => ?_, fun other temporary unset => ?_,
    shows.idle⟩, Dict.get_set_self _ _ _, rfl, fun other apart => Dict.get_set_other _ _ _ _ apart⟩
  · have apart : other ≠ name := by
      rintro rfl
      exact lasting scratch.temporary
    exact (Dict.get_set_other _ _ _ _ apart).trans (shows.values other lasting)
  · rw [List.mem_cons, not_or] at unset
    exact (Dict.get_set_other _ _ _ _ unset.1).trans (shows.tidy other temporary unset.2)

variable (hardware) in
/-- Clearing a temporary variable shows the same without it. Any other temporary variable may still
be set behind it. -/
theorem exec_clear (shows : Shows temporaries board view) {name : Text} (scratch : Scratch name) :
    Shows (temporaries.filter (fun other => decide (other ≠ name)))
      (Board.execWords hardware ["setenv".toList, name] board) view := by
  have read : readCommand (board.expandWords ["setenv".toList, name]) =
      some (.clearVariable name) := by
    simp only [Board.expandWords, List.map_cons, List.map_nil,
      (by decide : Constant "setenv".toList).expanded, scratch.constant.expanded]
    exact read_clear _ scratch.colonless
  rw [exec_known shows.idle _ _ read]
  refine ⟨shows.memory, shows.flash, fun other lasting => ?_, fun other temporary unset => ?_,
    shows.idle⟩
  · have apart : other ≠ name := by
      rintro rfl
      exact lasting scratch.temporary
    exact (Dict.get_erase_other _ _ _ apart).trans (shows.values other lasting)
  · by_cases same : other = name
    · rw [same]
      exact Dict.get_erase_self _ _
    · have outside : other ∉ temporaries := fun inside =>
        unset (List.mem_filter.mpr ⟨inside, by simpa using same⟩)
      exact (Dict.get_erase_other _ _ _ same).trans (shows.tidy other temporary outside)

/-- Clearing the only temporary variable. -/
theorem exec_clear_last {name : Text} (scratch : Scratch name) (shows : Shows [name] board view) :
    Shows [] (Board.execWords hardware ["setenv".toList, name] board) view := by
  have cleared := exec_clear hardware shows scratch
  rw [List.filter_cons_of_neg (by simp), List.filter_nil] at cleared
  exact cleared

/-- A probe finds the flash that is there. -/
theorem exec_probe (shows : Shows temporaries board view) (present : hardware.capacity ≠ 0) :
    ∃ later, Board.execWords hardware ["sf".toList, "probe".toList, "0".toList] board = later ∧
      Shows temporaries later view ∧ later.probed = true := by
  have read : readCommand (board.expandWords ["sf".toList, "probe".toList, "0".toList]) =
      some .probe := by
    have verb : Constant "sf".toList := by decide
    have action : Constant "probe".toList := by decide
    have bus : Constant "0".toList := by decide
    simp only [Board.expandWords, List.map_cons, List.map_nil, verb.expanded, action.expanded,
      bus.expanded]
    exact read_probe
  refine ⟨_, exec_known shows.idle _ _ read, ?_⟩
  rw [BoardCommand.exec, if_neg present]
  exact ⟨⟨shows.memory, shows.flash, shows.values, shows.tidy, shows.idle⟩, rfl⟩

/-- Filling a range. -/
theorem exec_fill (shows : Shows temporaries board view) {name : Text} (scratch : Scratch name)
    (address value size : Nat) (holds : HoldsAddress board name address) :
    Shows temporaries (Board.execWords hardware ["mw.b".toList, expansion name, Text.hex value,
        Text.hex size] board)
      { view with memory := replaced address size (fun _ => UInt8.ofNat value) view.memory } := by
  have read : readCommand (board.expandWords ["mw.b".toList, expansion name, Text.hex value,
      Text.hex size]) = some (.fill address value size) := by
    simp only [Board.expandWords, List.map_cons, List.map_nil,
      (by decide : Constant "mw.b".toList).expanded,
      (constant_hex value).expanded, (constant_hex size).expanded]
    exact read_fill _ _ _ _ _ _ (holds.number scratch board.status) (board_number_hex value)
      (board_number_hex size)
  rw [exec_known shows.idle _ _ read]
  exact ⟨congrArg (replaced address size fun _ => UInt8.ofNat value) shows.memory, shows.flash,
    shows.values, shows.tidy, shows.idle⟩

variable (hardware) in
/-- Copying a range that is not read where it was written. The bytes are copied one after the other
from the front, so this is the plain copy that the operation means. -/
theorem exec_copy (shows : Shows temporaries board view) {front back : Text}
    (begins : Scratch front) (ends : Scratch back) (source target size : Nat)
    (starts : HoldsAddress board front source) (goes : HoldsAddress board back target)
    (apart : target ≤ source ∨ source + size ≤ target) :
    Shows temporaries (Board.execWords hardware ["cp.b".toList, expansion front, expansion back,
        Text.hex size] board)
      { view with
        memory := replaced target size (fun place => view.memory (source + place)) view.memory } := by
  have read : readCommand (board.expandWords ["cp.b".toList, expansion front, expansion back,
      Text.hex size]) = some (.copy source target size) := by
    simp only [Board.expandWords, List.map_cons, List.map_nil,
      (by decide : Constant "cp.b".toList).expanded,
      (constant_hex size).expanded]
    exact read_copy _ _ _ _ _ _ (starts.number begins board.status)
      (goes.number ends board.status) (board_number_hex size)
  rw [exec_known shows.idle _ _ read]
  refine ⟨?_, shows.flash, shows.values, shows.tidy, shows.idle⟩
  rw [BoardCommand.exec, Overlays.copy_up_replaced size board.memory source target apart, shows.memory]

/-- Reading a range of the flash that has been probed. The bytes come to the address that the
temporary variable holds, and the flash stays as it is. -/
theorem exec_read_flash (shows : Shows temporaries board view) (probed : board.probed = true)
    {name : Text} (scratch : Scratch name) (address offset size : Nat)
    (inside : offset + size ≤ hardware.capacity) (holds : HoldsAddress board name address) :
    Shows temporaries (Board.execWords hardware ["sf".toList, "read".toList, expansion name,
        Text.hex offset, Text.hex size] board)
      { view with
        memory := replaced address size (fun place => view.flash (offset + place)) view.memory } := by
  have read : readCommand (board.expandWords ["sf".toList, "read".toList, expansion name,
      Text.hex offset, Text.hex size]) =
        some (.flashRead address offset size) := by
    simp only [Board.expandWords, List.map_cons, List.map_nil,
      (by decide : Constant "sf".toList).expanded,
      (by decide : Constant "read".toList).expanded,
      (constant_hex offset).expanded, (constant_hex size).expanded]
    exact (read_move _ _ _ _ _ _ (holds.number scratch board.status) (board_number_hex offset)
      (board_number_hex size)).1
  rw [exec_known shows.idle _ _ read, BoardCommand.exec, if_pos ⟨probed, inside⟩]
  refine ⟨?_, shows.flash, shows.values, shows.tidy, shows.idle⟩
  rw [shows.flash, shows.memory]

/-- Writing a range of the flash that has been probed. Writing can only clear bits, so what stands
there afterwards is the conjunction of both unless the range was erased before. -/
theorem exec_write_flash (shows : Shows temporaries board view) (probed : board.probed = true)
    {name : Text} (scratch : Scratch name) (address offset size : Nat)
    (inside : offset + size ≤ hardware.capacity) (holds : HoldsAddress board name address) :
    Shows temporaries (Board.execWords hardware ["sf".toList, "write".toList, expansion name,
        Text.hex offset, Text.hex size] board)
      { view with
        flash := replaced offset size (fun place =>
          view.flash (offset + place) &&& view.memory (address + place)) view.flash } := by
  have read : readCommand (board.expandWords ["sf".toList, "write".toList, expansion name,
      Text.hex offset, Text.hex size]) =
        some (.flashWrite address offset size) := by
    simp only [Board.expandWords, List.map_cons, List.map_nil,
      (by decide : Constant "sf".toList).expanded,
      (by decide : Constant "write".toList).expanded,
      (constant_hex offset).expanded, (constant_hex size).expanded]
    exact (read_move _ _ _ _ _ _ (holds.number scratch board.status) (board_number_hex offset)
      (board_number_hex size)).2
  rw [exec_known shows.idle _ _ read, BoardCommand.exec, if_pos ⟨probed, inside⟩]
  refine ⟨shows.memory, ?_, shows.values, shows.tidy, shows.idle⟩
  rw [shows.flash, shows.memory]

/-- Erasing sectors of the flash that has been probed. A range that is not made of whole sectors is
refused by the board, which is why both ends are asked to be aligned. -/
theorem exec_erase (shows : Shows temporaries board view) (probed : board.probed = true)
    (offset size : Nat)
    (inside : offset + size ≤ hardware.capacity) (begins : hardware.sector ∣ offset)
    (ends : hardware.sector ∣ size) :
    Shows temporaries
      (Board.execWords hardware ["sf".toList, "erase".toList, Text.hex offset, Text.hex size]
        board)
      { view with flash := replaced offset size (fun _ => 0xFF) view.flash } := by
  have read : readCommand (board.expandWords ["sf".toList, "erase".toList, Text.hex offset,
      Text.hex size]) = some (.flashErase offset size) := by
    simp only [Board.expandWords, List.map_cons, List.map_nil,
      (by decide : Constant "sf".toList).expanded,
      (by decide : Constant "erase".toList).expanded,
      (constant_hex offset).expanded, (constant_hex size).expanded]
    exact read_erase _ _ _ _ (board_number_hex offset) (board_number_hex size)
  rw [exec_known shows.idle _ _ read, BoardCommand.exec, if_pos ⟨probed, begins, ends, inside⟩]
  refine ⟨shows.memory, ?_, shows.values, shows.tidy, shows.idle⟩
  rw [shows.flash]

/-- Fetching a file that is served. The board also reports the length of the file, in the variable
that later scripts read it from. -/
theorem exec_fetch (shows : Shows temporaries board view) (address : Nat) (word filename : Text)
    (body : Bytes)
    (served : Served hardware serverIp filename body)
    (locates : boardNumber (expandFrom board.values.get board.status .text (bareWord false word)) =
      some address) :
    Shows temporaries (Board.execWords hardware ["tftpboot".toList, word,
        '"' :: staticName serverIp filename ++ ['"']] board)
      { view with
        memory := replaced address body.length (fun place => body.getD place 0) view.memory
        values := fun name =>
          if name = "filesize".toList then some (Nat.toDigits 16 body.length)
          else view.values name } := by
  have read : readCommand (board.expandWords ["tftpboot".toList, word,
      '"' :: staticName serverIp filename ++ ['"']]) =
        some (.fetch address (staticName serverIp filename)) := by
    simp only [Board.expandWords, List.map_cons, List.map_nil,
      (by decide : Constant "tftpboot".toList).expanded,
      bare_quoted _ served.unquoted served.unescaped, expand_constant _ _ _ served.constant]
    exact read_fetch _ _ _ locates served.file
  rw [exec_known shows.idle _ _ read]
  simp only [BoardCommand.exec, served.handed]
  refine ⟨congrArg (replaced address body.length fun place => body.getD place 0) shows.memory,
    shows.flash, fun name lasting => ?_, fun name temporary unset => ?_, shows.idle⟩
  · rw [Dict.get_set, shows.values name lasting]
  · have other : name ≠ "filesize".toList := by
      rintro rfl
      exact absurd temporary (by decide)
    exact (Dict.get_set_other _ _ _ _ other).trans (shows.tidy name temporary unset)

variable (hardware rambase serverIp) in
/-- The commands of an operation carry it out.

Proof: by cases on the operation; the commands of each are run one after the other, from a board
that shows the view to one that shows the effect, with the temporary variables set in between. -/
theorem carries_out (drawn : Nat × Nat) (operation : Operation) :
    CarriesOut (Board.execWords hardware) (Shows []) (operation.Possible hardware rambase serverIp)
      operation.effect (operation.code rambase serverIp drawn) := by
  intro board view shows possible
  have address : Scratch (nextTmp "addr".toList drawn.1) := scratch_tmp _ (by decide) drawn.1
  cases operation with
  | message msg color bold newline =>
    have echoes (board : Board) (shows : Shows [] board view) (words : List Text) :
        Shows [] (Board.execWords hardware ("echo".toList :: words) board) view := by
      have read : readCommand (board.expandWords ("echo".toList :: words)) = some .succeed := by
        simp only [Board.expandWords, List.map_cons, (by decide : Constant "echo".toList).expanded]
        exact read_echo _
      rw [exec_known shows.idle _ _ read]
      exact ⟨shows.memory, shows.flash, shows.values, shows.tidy, shows.idle⟩
    exact echoes _ (echoes board shows [quote (messageText msg color bold newline)])
      [quote saveCursor]
  | memset offset value size base =>
    obtain ⟨later, summed, shows, holds, -⟩ := exec_sum shows possible address
    simp only [code, run, summed]
    exact exec_clear_last address (exec_fill shows address _ value size holds)
  | memcpy dstOffset srcOffset size base =>
    obtain ⟨goesTo, comesFrom, apart⟩ := possible
    have source : Scratch (nextTmp "src".toList drawn.1) := scratch_tmp _ (by decide) drawn.1
    have target : Scratch (nextTmp "dst".toList drawn.2) := scratch_tmp _ (by decide) drawn.2
    obtain ⟨first, summed, shows, starts, -⟩ := exec_sum shows comesFrom source
    obtain ⟨second, again, shows, goes, -, kept⟩ := exec_sum shows goesTo target
    have different : nextTmp "src".toList drawn.1 ≠ nextTmp "dst".toList drawn.2 := by
      intro same
      have letter : (nextTmp "src".toList drawn.1)[13]? = (nextTmp "dst".toList drawn.2)[13]? := by
        rw [same]
      have first : (nextTmp "src".toList drawn.1)[13]? = some 's' := rfl
      have second : (nextTmp "dst".toList drawn.2)[13]? = some 'd' := rfl
      rw [first, second] at letter
      exact absurd letter (by decide)
    have still : HoldsAddress second (nextTmp "src".toList drawn.1) (base.address + srcOffset) :=
      (kept _ different).trans starts
    have copied := exec_clear hardware
      (exec_copy hardware shows source target _ _ size still goes (by omega)) source
    rw [List.filter_cons_of_pos (by simpa using different.symm), List.filter_cons_of_neg (by simp),
      List.filter_nil] at copied
    simp only [code, run, summed, again]
    exact exec_clear_last target copied
  | norErase offset size =>
    obtain ⟨stored, begins, ends⟩ := possible
    obtain ⟨later, found, shows, probed⟩ := exec_probe shows stored.present
    simp only [code, run, found]
    exact exec_erase shows probed offset size stored.inside begins ends
  | norRead ramOffset norOffset size base =>
    obtain ⟨addressed, stored⟩ := possible
    obtain ⟨first, found, shows, probed⟩ := exec_probe shows stored.present
    obtain ⟨later, summed, shows, holds, same, -⟩ :=
      exec_sum shows addressed address
    simp only [code, run, found, summed]
    exact exec_clear_last address
      (exec_read_flash shows (same.trans probed) address _ norOffset size stored.inside holds)
  | norWrite norOffset ramOffset size base =>
    obtain ⟨addressed, stored⟩ := possible
    obtain ⟨first, found, shows, probed⟩ := exec_probe shows stored.present
    obtain ⟨later, summed, shows, holds, same, -⟩ :=
      exec_sum shows addressed address
    simp only [code, run, found, summed]
    exact exec_clear_last address
      (exec_write_flash shows (same.trans probed) address _ norOffset size stored.inside holds)
  | fetchStatic filename offset body base =>
    obtain ⟨served, located⟩ := possible
    cases offset with
    | none =>
      simp only [code, run]
      exact exec_fetch shows base.address rambase filename body served
        (located_number located shows board.status)
    | some offset =>
      obtain ⟨later, summed, shows, holds, -⟩ :=
        exec_sum shows located address
      simp only [code, run, summed]
      exact exec_clear_last address (exec_fetch shows _ _ filename body served
        (holds.number address later.status))

end Effects

/-- The text of operations is read as their commands. The operations are to be possible one after
another, each on the board that those before it leave. -/
theorem operations_read (hardware : Hardware) (rambase serverIp : Text)
    (program : List (Operation × (Nat × Nat))) (view : BoardView)
    (possible : Admits (fun part => part.1.Possible hardware rambase serverIp)
      (fun part => part.1.effect) program view) :
    Reads (Text.joinLines (program.map fun part => part.1.script rambase serverIp part.2))
      ((program.flatMap fun part => part.1.code rambase serverIp part.2).map .command) := by
  rw [List.map_flatMap]
  refine .lines (fun part : Operation × (Nat × Nat) => part.1.script rambase serverIp part.2) _ program
    fun part member => ?_
  obtain ⟨before, holds⟩ := possible.somewhere part member
  exact reads_script part.2 part.1 holds

/-- The commands of operations run to a board that shows their effects, one after the other, and has
no temporary variables. This is an instance of the general rule for code that carries out
operations. -/
theorem operations_run (hardware : Hardware) (rambase serverIp : Text)
    (program : List (Operation × (Nat × Nat))) (board : Board) (view : BoardView)
    (shows : Shows [] board view)
    (possible : Admits (fun part => part.1.Possible hardware rambase serverIp)
      (fun part => part.1.effect) program view) :
    Shows [] (run (Board.execWords hardware)
        (program.flatMap fun part => part.1.code rambase serverIp part.2) board)
      (effects (fun part : Operation × (Nat × Nat) => part.1.effect) program view) :=
  CarriesOut.program program (fun part _ => carries_out hardware rambase serverIp part.2 part.1)
    board view shows possible

end Operation

end UbootTftp
