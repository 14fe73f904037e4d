import UbootTftp.ConditionalScripts
import UbootTftp.HexNumbers
import UbootTftp.UbootScripts
import Mathlib.Tactic.Ring

/-!
# The size that a probe of the flash finds

The probe reads ever larger ranges of the flash and keeps in a variable the size of the last one
that could be read. Its lines are run here with a meaning of their own: an `echo`, a read of the
flash, an assignment, and a conditional on the status of the command before it. A read succeeds
exactly if the range ends within the flash.

Of a line that reads, the last two words are the offset and the size; what stands before them is
the address, which can be any text.
-/

namespace UbootTftp

open ConditionalScripts (Line Balanced Computes run)

/-- The commands of the probe script that have a meaning for it: printing, reading a range of the
flash and setting a variable. -/
inductive ProbeCommand
  | echo
  | sfRead (offset size : Int)
  | assign (name value : Text)
  deriving DecidableEq

/-- The status of the last command, the variables, and the sizes that were read so far. -/
structure ProbeState where
  status : Int
  env : Dict Text Text
  reads : List Int

section Meaning

/-- The last word of a text. -/
def lastWord (text : Text) : Text := text.rtakeWhile (fun character => decide (character ≠ ' '))

/-- The text before the last word and its blank. -/
def beforeLastWord (text : Text) : Text :=
  (text.rdropWhile (fun character => decide (character ≠ ' '))).dropLast

/-- A line without the white space and the semicolon at its end. -/
def lineBody (line : Text) : Text :=
  let stripped := Text.rstrip line
  if stripped.getLast? = some ';' then stripped.dropLast else stripped

/-- The text between a front and a back. -/
def between (front back text : Text) : Option Text :=
  if front.isPrefixOf text && back.isSuffixOf (text.drop front.length) then
    some ((text.drop front.length).take (text.length - front.length - back.length))
  else none

/-- What a line of a probe means. A test is for one status. Anything that is none of the lines that
the generator writes is not read. -/
def readLine (line : Text) : Option (Line ProbeCommand Int) :=
  let body := lineBody line
  if body = "else".toList then some .otherwise
  else if body = "fi".toList then some .close
  else match between "if test $? -eq ".toList "; then".toList body with
  | some code => (Text.parseInteger 0 code).map .begin
  | none =>
    if "echo ".toList.isPrefixOf body then some (.command .echo)
    else if "sf read ".toList.isPrefixOf body then do
      let size ← Text.parseInteger 0 (lastWord body)
      let offset ← Text.parseInteger 0 (lastWord (beforeLastWord body))
      some (.command (.sfRead offset size))
    else
      match Sequences.partition '=' body with
      | (name, true, value) =>
        if isIdentifier name then some (.command (.assign name value)) else none
      | (_, false, _) => none

/-- What a command does, on a flash of some capacity. The size of every read is kept, so that
results can speak about which sizes were tried. -/
def ProbeCommand.exec (capacity : Int) : ProbeCommand → ProbeState → ProbeState
  | .echo, state => { state with status := 0 }
  | .sfRead offset size, state =>
    { state with
      status := if offset + size ≤ capacity then 0 else 1
      reads := state.reads ++ [size] }
  | .assign name value, state =>
    { state with status := 0, env := state.env.set name value }

/-- `test $? -eq`. -/
def statusIs (code : Int) (state : ProbeState) : Bool := decide (state.status = code)

end Meaning

section Lines

/-- A line that ends in a semicolon and a newline. -/
theorem line_body_terminated (text : Text) : lineBody (text ++ ";\n".toList) = text := by
  have stripped : Text.rstrip (text ++ ";\n".toList) = text ++ [';'] := by
    have shape : text ++ ";\n".toList = text ++ [';'] ++ ['\n'] := by simp
    rw [Text.rstrip, shape, List.rdropWhile_concat_pos _ _ _ (by decide),
      List.rdropWhile_concat_neg _ _ _ (by decide)]
  simp only [lineBody, stripped, List.getLast?_concat, if_true, List.dropLast_concat]

/-- The last word stands behind the last blank. The front may end in blanks, and they belong to what
stands before the word. -/
theorem last_word_behind (front word : Text) (blankless : ' ' ∉ word) :
    lastWord (front ++ ' ' :: word) = word ∧ beforeLastWord (front ++ ' ' :: word) = front := by
  have kept : ∀ character ∈ word, decide (character ≠ ' ') = true := by
    intro character member
    have other : character ≠ ' ' := by
      rintro rfl
      exact blankless member
    simpa using other
  have shape : front ++ ' ' :: word = front ++ [' '] ++ word := by simp
  constructor
  · have reversed : (front ++ [' '] ++ word).reverse = word.reverse ++ ' ' :: front.reverse := by simp
    rw [lastWord, shape, List.rtakeWhile, reversed,
      List.takeWhile_append_of_pos (fun character member => kept character (by simpa using member)),
      List.takeWhile_cons_of_neg (by decide), List.append_nil, List.reverse_reverse]
  · rw [beforeLastWord, shape, Sequences.rdrop_tail _ _ _ kept,
      List.rdropWhile_concat_neg _ _ _ (by decide)]
    simp

/-- A hexadecimal number is one word. -/
theorem hex_blankless (value : Int) : ' ' ∉ Text.hex value := by
  intro member
  exact Text.hex_characters (· ≠ ' ') (by decide) (by decide) (by decide) value ' ' member rfl

/-- A line that reads the flash. The address stands where it is written, and neither of the numbers
after it has a blank, so they are the last two words. -/
theorem read_line_read (base : Text) (offset size : Int) :
    readLine ("sf read ".toList ++ base ++ ' ' :: Text.hex offset ++ ' ' :: Text.hex size ++
      ";\n".toList) = some (.command (.sfRead offset size)) := by
  have body := line_body_terminated ("sf read ".toList ++ base ++ ' ' :: Text.hex offset ++
    ' ' :: Text.hex size)
  obtain ⟨sizeWord, rest⟩ := last_word_behind ("sf read ".toList ++ base ++ ' ' :: Text.hex offset)
    (Text.hex size) (hex_blankless size)
  obtain ⟨offsetWord, -⟩ := last_word_behind ("sf read ".toList ++ base) (Text.hex offset)
    (hex_blankless offset)
  simp only [List.append_assoc, List.cons_append] at body sizeWord rest offsetWord ⊢
  have front : "sf read ".toList.isPrefixOf ("sf read ".toList ++ (base ++ ' ' ::
      (Text.hex offset ++ ' ' :: Text.hex size))) = true := by simp
  have noTest : between "if test $? -eq ".toList "; then".toList ("sf read ".toList ++ (base ++ ' ' ::
      (Text.hex offset ++ ' ' :: Text.hex size))) = none := rfl
  have noEcho : "echo ".toList.isPrefixOf ("sf read ".toList ++ (base ++ ' ' ::
      (Text.hex offset ++ ' ' :: Text.hex size))) = false := rfl
  have noElse : "sf read ".toList ++ (base ++ ' ' :: (Text.hex offset ++ ' ' :: Text.hex size)) ≠
      "else".toList := by simp
  have noEnd : "sf read ".toList ++ (base ++ ' ' :: (Text.hex offset ++ ' ' :: Text.hex size)) ≠
      "fi".toList := by simp
  simp only [readLine, body, noElse, noEnd, if_false, noTest, noEcho, Bool.false_eq_true, front,
    if_true, sizeWord, rest, offsetWord, Text.parse_hex, bind, Option.bind]

/-- A line that assigns a number to the variable of the size. It is none of the other kinds of
lines, and the first equals sign in it is the one behind the name. -/
theorem read_line_size (value : Int) :
    readLine ("size=".toList ++ Text.hex value ++ ";\n".toList) =
      some (.command (.assign "size".toList (Text.hex value))) := by
  have body := line_body_terminated ("size=".toList ++ Text.hex value)
  have cut : Sequences.partition '=' ("size=".toList ++ Text.hex value) =
      ("size".toList, true, Text.hex value) :=
    Sequences.partition_append '=' "size".toList (Text.hex value) (by decide)
  have noTest : between "if test $? -eq ".toList "; then".toList ("size=".toList ++ Text.hex value) =
      none := rfl
  have noEcho : "echo ".toList.isPrefixOf ("size=".toList ++ Text.hex value) = false := rfl
  have noRead : "sf read ".toList.isPrefixOf ("size=".toList ++ Text.hex value) = false := rfl
  have noElse : "size=".toList ++ Text.hex value ≠ "else".toList := by simp
  have noEnd : "size=".toList ++ Text.hex value ≠ "fi".toList := by simp
  have named : isIdentifier "size".toList = true := by decide
  simp only [readLine, body, noElse, noEnd, if_false, noTest, noEcho, noRead, Bool.false_eq_true, cut,
    named, if_true]

end Lines

section Probes

/-- The read of a doubled size is made and succeeds, and so do those of all smaller ones. The first
read that fails ends the probe. -/
def ProbeReaches (size : Nat) (maxSize offset capacity : Int) (doublings : Nat) : Prop :=
  (size : Int) * 2 ^ doublings ≤ maxSize ∧
    ∀ smaller ≤ doublings, offset + (size : Int) * 2 ^ smaller ≤ capacity

/-- A number is the largest doubled size that a probe reaches, or what is known if it reaches none.
It is about numbers only and says nothing of scripts. -/
def ProbeFinds (size : Nat) (maxSize offset capacity known number : Int) : Prop :=
  (∃ doublings, number = (size : Int) * 2 ^ doublings ∧
      ProbeReaches size maxSize offset capacity doublings ∧
      ∀ larger > doublings, ¬ProbeReaches size maxSize offset capacity larger) ∨
    (number = known ∧ ∀ doublings, ¬ProbeReaches size maxSize offset capacity doublings)

variable {size : Nat} {maxSize offset capacity known number : Int}

/-- Without the first read there is none. The size of each read is at least that of the first, and
so is the end of it. -/
theorem reaches_first (doublings : Nat)
    (reaches : ProbeReaches size maxSize offset capacity doublings) :
    (size : Int) ≤ maxSize ∧ offset + size ≤ capacity := by
  obtain ⟨bounded, each⟩ := reaches
  have first := each 0 (Nat.zero_le _)
  have grows : (size : Int) * 1 ≤ size * 2 ^ doublings := by
    apply Int.mul_le_mul_of_nonneg_left _ (Int.natCast_nonneg size)
    exact_mod_cast Nat.one_le_two_pow
  constructor
  · omega
  · simpa using first

/-- One more doubling is a doubling of the doubled size, behind the first read. The first read is
that of the undoubled size, which the larger probe has to succeed with as well. -/
theorem reaches_succ (doublings : Nat) (readable : offset + size ≤ capacity) :
    ProbeReaches size maxSize offset capacity (doublings + 1) ↔
      ProbeReaches (size * 2) maxSize offset capacity doublings := by
  have twice (power : Nat) : ((size * 2 : Nat) : Int) * 2 ^ power = size * 2 ^ (power + 1) := by
    push_cast
    ring
  simp only [ProbeReaches, twice]
  apply and_congr_right
  intro _
  constructor
  · intro each smaller bounded
    exact each (smaller + 1) (by omega)
  · intro each smaller bounded
    cases smaller with
    | zero => simpa using readable
    | succ smaller => exact each smaller (by omega)

/-- A first read that is not made or fails leaves what is known. -/
theorem finds_known (fails : maxSize < size ∨ capacity < offset + size) :
    ProbeFinds size maxSize offset capacity known known := by
  right
  refine ⟨rfl, ?_⟩
  intro doublings reaches
  have first := reaches_first doublings reaches
  omega

/-- What the rest of the probe finds behind a first read is what the probe finds. If the rest finds
nothing larger, the size that was read first is what is found. -/
theorem finds_rest (small : (size : Int) ≤ maxSize) (readable : offset + size ≤ capacity)
    (rest : ProbeFinds (size * 2) maxSize offset capacity size number) :
    ProbeFinds size maxSize offset capacity known number := by
  left
  cases rest with
  | inl further =>
    obtain ⟨doublings, rfl, reaches, largest⟩ := further
    refine ⟨doublings + 1, ?_, (reaches_succ doublings readable).mpr reaches, ?_⟩
    · push_cast
      ring
    · intro larger more
      obtain ⟨larger, rfl⟩ := Nat.exists_eq_add_of_le' (show 1 ≤ larger by omega)
      rw [reaches_succ larger readable]
      exact largest larger (by omega)
  | inr none =>
    obtain ⟨rfl, unreached⟩ := none
    refine ⟨0, by simp, ⟨by simpa using small, ?_⟩, ?_⟩
    · intro smaller bounded
      obtain rfl := Nat.le_zero.mp bounded
      simpa using readable
    · intro larger more
      obtain ⟨larger, rfl⟩ := Nat.exists_eq_add_of_le' (show 1 ≤ larger by omega)
      rw [reaches_succ larger readable]
      exact unreached larger

/-- What a probe leaves behind: the number under `size`, and no read above the maximum. -/
def ProbeLeaves (maxSize number : Int) (function : ProbeState → ProbeState) : Prop :=
  ∀ state, (function state).env.get "size".toList = some (Text.hex number) ∧
    ∃ performed, (function state).reads = state.reads ++ performed ∧
      ∀ read ∈ performed, read ≤ maxSize

/-- A read before a probe: if it fails, the size known so far is left, and else what the probe
leaves. -/
theorem probe_leaves_step {maxSize : Int} (size : Nat) (known number offset capacity : Int)
    (function : ProbeState → ProbeState) (small : ¬(size : Int) > maxSize)
    (leaves : ProbeLeaves maxSize number function) :
    ProbeLeaves maxSize (if offset + size ≤ capacity then number else known) fun state =>
      if statusIs 1 (ProbeCommand.exec capacity (.sfRead offset size)
          (ProbeCommand.exec capacity .echo state)) then
        ProbeCommand.exec capacity (.assign "size".toList (Text.hex known))
          (ProbeCommand.exec capacity (.sfRead offset size)
            (ProbeCommand.exec capacity .echo state))
      else function (ProbeCommand.exec capacity (.sfRead offset size)
        (ProbeCommand.exec capacity .echo state)) := by
  intro state
  by_cases readable : offset + (size : Int) ≤ capacity
  · obtain ⟨found, performed, reads, bounded⟩ := leaves
      (ProbeCommand.exec capacity (.sfRead offset size)
        (ProbeCommand.exec capacity .echo state))
    have passes : statusIs 1 (ProbeCommand.exec capacity (.sfRead offset size)
        (ProbeCommand.exec capacity .echo state)) = false := by
      simp [statusIs, ProbeCommand.exec, readable]
    simp only [passes, Bool.false_eq_true, if_false, if_pos readable]
    refine ⟨found, size :: performed, ?_, ?_⟩
    · rw [reads]
      simp [ProbeCommand.exec]
    · intro read member
      cases List.mem_cons.mp member with
      | inl first => omega
      | inr later => exact bounded read later
  · have fails : statusIs 1 (ProbeCommand.exec capacity (.sfRead offset size)
        (ProbeCommand.exec capacity .echo state)) = true := by
      simp [statusIs, ProbeCommand.exec, readable]
    simp only [fails, if_true, if_neg readable]
    refine ⟨Dict.get_set_self _ _ _, [size], by simp [ProbeCommand.exec], ?_⟩
    intro read member
    rw [List.mem_singleton.mp member]
    omega

/-- The lines of a probe are balanced and compute what it finds, whatever was run before.

Proof: by induction on the generator. Its lines are a read and a conditional around the lines
for the doubled size; the conditional takes its first branch exactly if the read has failed. -/
theorem probe_lines (rambase : Text) (size : Nat) (maxSize known offset : Int)
    (base : Option Text) (present : 0 < size) (capacity : Int) :
    ∃ (script : List (Line ProbeCommand Int)) (function : ProbeState → ProbeState) (number : Int),
      (ubootNorGenProbe rambase size maxSize known offset base present).map readLine =
        script.map some ∧
      Balanced script ∧ Computes (ProbeCommand.exec capacity) statusIs script function ∧
      ProbeFinds size maxSize offset capacity known number ∧
      ProbeLeaves maxSize number function := by
  fun_induction ubootNorGenProbe rambase size maxSize known offset base present with
  | case1 size known present large =>
    refine ⟨[.command (.assign "size".toList (Text.hex known))], _, known, ?_,
      .command _ _ .nil, .command _ .nil, finds_known (.inl large), ?_⟩
    · simp only [List.map_cons, List.map_nil, read_line_size]
    · intro state
      exact ⟨Dict.get_set_self _ _ _, [], by simp [ProbeCommand.exec], by simp⟩
  | case2 size known present small inductionHypothesis =>
    obtain ⟨rest, function, number, read, balanced, computes, finds, leaves⟩ := inductionHypothesis
    have echo : readLine ("echo ".toList ++ restoreCursor ++ clearRegion) =
      some (.command .echo) := by decide
    have test : readLine "if test $? -eq 1; then\n".toList = some (.begin 1) := by decide
    have otherwise : readLine "else\n".toList = some .otherwise := by decide
    have close : readLine "fi;\n".toList = some .close := by decide
    have assigned : Computes (ProbeCommand.exec capacity) statusIs
        [.command (.assign "size".toList (Text.hex known))] _ := .command _ .nil
    have branches := Computes.conditional 1 assigned computes
    have balancedBranches : Balanced (.begin 1 ::
        [.command (.assign "size".toList (Text.hex known))] ++ .otherwise :: rest ++ [.close]) :=
      .closed 1 (.command _ _ .nil) balanced
    refine ⟨.command .echo :: .command (.sfRead offset size) :: (.begin 1 ::
        [.command (.assign "size".toList (Text.hex known))] ++ .otherwise :: rest ++ [.close]), _,
      if offset + size ≤ capacity then number else known, ?_, .command _ _ (.command _ _ balancedBranches),
      .command _ (.command _ branches), ?_, ?_⟩
    · rw [List.map_append, List.map_append, read]
      simp only [List.map_cons, List.map_nil, echo, read_line_read, test, otherwise, close,
        read_line_size]
      simp only [List.cons_append, List.map_cons, List.map_append, List.nil_append, List.map_nil]
    · by_cases readable : offset + (size : Int) ≤ capacity
      · rw [if_pos readable]
        exact finds_rest (by omega) readable finds
      · rw [if_neg readable]
        exact finds_known (.inr (by omega))
    · exact probe_leaves_step size known number offset capacity function small leaves

end Probes

/-- A probe of the flash computes its size: its conditionals are balanced, and running it leaves in
the variable, as a number that `int` reads back, the largest doubled size that is allowed and can be
read together with all smaller ones, or zero if there is none. Nothing larger than the allowed size
is read.

The size from which it starts, the limit, the capacity and the base address are arbitrary, and so is
the state in which the script is run. -/
theorem nor_probe_size (rambase : Text) (size : Nat) (present : 0 < size)
    (maxSize offset capacity : Int) (base : Option Text) (state : ProbeState) :
    ∃ (script : List (Line ProbeCommand Int)) (final : ProbeState) (text : Text) (number : Int),
      (ubootNorGenProbe rambase size maxSize 0 offset base present).mapM readLine = some script ∧
      Balanced script ∧
      run (ProbeCommand.exec capacity) statusIs script state = some final ∧
      final.env.get "size".toList = some text ∧ "0x".toList.isPrefixOf text ∧
      Text.parseInteger 0 text = some number ∧
      ((∃ doublings, number = (size : Int) * 2 ^ doublings ∧
          ProbeReaches size maxSize offset capacity doublings ∧
          ∀ larger > doublings, ¬ProbeReaches size maxSize offset capacity larger) ∨
        (number = 0 ∧ ∀ doublings, ¬ProbeReaches size maxSize offset capacity doublings)) ∧
      ∃ performed, final.reads = state.reads ++ performed ∧ ∀ read ∈ performed, read ≤ maxSize := by
  obtain ⟨script, function, number, lines, balanced, computes, finds, leaves⟩ :=
    probe_lines rambase size maxSize 0 offset base present capacity
  obtain ⟨found, reads⟩ := leaves state
  have positive : ¬number < 0 := by
    cases finds with
    | inl largest =>
      obtain ⟨doublings, rfl, -⟩ := largest
      have product : 0 ≤ (size : Int) * 2 ^ doublings := by positivity
      omega
    | inr none => omega
  refine ⟨script, function state, Text.hex number, number, ?_, balanced, computes.run state, found, ?_,
    Text.parse_hex number, finds, reads⟩
  · exact (map_m_some readLine _ script).mpr lines
  · simp [Text.hex, positive]

/-- A flash of three megabytes, probed from one up to sixteen, has two. The read of four megabytes
fails, so the size that is assigned last is the one before it. -/
theorem nor_probe_sample : ∃ (script : List (Line ProbeCommand Int)) (final : ProbeState)
    (text : Text),
    (ubootNorGenProbe (expansion "baseaddr".toList) (2 ^ 20) (2 ^ 24) 0 0 none
      (by decide)).mapM readLine = some script ∧
    run (ProbeCommand.exec (3 * 2 ^ 20)) statusIs script ⟨0, Dict.empty, []⟩ = some final ∧
    final.env.get "size".toList = some text ∧ Text.parseInteger 0 text = some (2 ^ 21) := by
  obtain ⟨script, final, text, number, lines, -, ran, held, -, parsed, finds, -⟩ :=
    nor_probe_size (expansion "baseaddr".toList) (2 ^ 20) (by decide) (2 ^ 24) 0 (3 * 2 ^ 20) none
      ⟨0, Dict.empty, []⟩
  have second : ProbeReaches (2 ^ 20) (2 ^ 24) 0 (3 * 2 ^ 20) 1 := by
    refine ⟨by decide, ?_⟩
    intro smaller bounded
    have either : smaller = 0 ∨ smaller = 1 := by omega
    cases either with
    | inl zero => subst zero; decide
    | inr one => subst one; decide
  refine ⟨script, final, text, lines, ran, held, ?_⟩
  cases finds with
  | inl largest =>
    obtain ⟨doublings, rfl, reaches, unreached⟩ := largest
    have atLeast : 1 ≤ doublings := by
      by_contra less
      exact unreached 1 (by omega) second
    have third : ¬2 ≤ doublings := by
      intro more
      have read := reaches.2 2 more
      exact absurd read (by decide)
    obtain rfl : doublings = 1 := by omega
    exact parsed
  | inr none => exact absurd second (none.2 1)

end UbootTftp
