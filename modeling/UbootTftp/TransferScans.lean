import UbootTftp.Avoidance
import UbootTftp.TestClient

/-!
# The transfers that the client finds

Both expressions of the client want a command, an address and a target of the form
`"server:id=..."`. A target begins at its opening quote, so a match has to end its address
right before one, and it cannot reach back over an address that is closed. In a text that is
composed of transfers and other parts, the client therefore finds exactly the transfers whose
address is followed by what its expression wants there.
-/

namespace UbootTftp

universe u
variable {β : Type u}

namespace TestClient

/-- Every `${` of the text is closed by a brace. -/
def ClosesExpansions (text : Text) : Prop :=
  ∀ front back, text = front ++ '$' :: '{' :: back → '}' ∈ back

/-- It is seen at the suffixes of the text. -/
theorem closes_iff (text : Text) : ClosesExpansions text ↔
    ∀ suffix ∈ text.tails, "$\x7b".toList <+: suffix → '}' ∈ suffix := by
  constructor
  · rintro closes suffix member ⟨back, rfl⟩
    obtain ⟨front, rfl⟩ := List.mem_tails _ _ |>.mp member
    exact List.mem_append_right _ (closes front back rfl)
  · rintro closes front back rfl
    have member := closes ('$' :: '{' :: back) (List.mem_tails _ _ |>.mpr (List.suffix_append _ _))
      ⟨back, rfl⟩
    simpa using member

instance : DecidablePred ClosesExpansions := fun text => decidable_of_iff _ (closes_iff text).symm

/-- The codes of the characters of a command. -/
theorem command_char_code (character : Char) (word : isCommandChar character = true) :
    (48 ≤ character.toNat ∧ character.toNat ≤ 57) ∨ (65 ≤ character.toNat ∧ character.toNat ≤ 90) ∨
      character.toNat = 95 ∨ (97 ≤ character.toNat ∧ character.toNat ≤ 122) := by
  have shape : isCommandChar character =
      (character.isUpper || character.isLower || character.isDigit || character == '_') := rfl
  rw [shape] at word
  simp only [Bool.or_eq_true, beq_iff_eq] at word
  rcases word with ((upper | lower) | digit) | rfl
  · exact .inr (.inl (of_decide_eq_true upper))
  · obtain ⟨low, high⟩ := (Bool.and_eq_true _ _).mp lower
    exact .inr (.inr (.inr ⟨of_decide_eq_true low, of_decide_eq_true high⟩))
  · obtain ⟨low, high⟩ := (Bool.and_eq_true _ _).mp digit
    exact .inl ⟨of_decide_eq_true low, of_decide_eq_true high⟩
  · exact .inr (.inr (.inl rfl))

/-- A character of a command is no space. -/
theorem command_char_solid (character : Char) (word : isCommandChar character = true) :
    Text.isSpace character = false := by
  have code := command_char_code character word
  simp only [Text.isSpace, Bool.or_eq_false_iff, Bool.and_eq_false_iff, decide_eq_false_iff_not,
    beq_eq_false_iff_ne]
  omega

/-- A text that takes no part in a transfer: it closes its expansions and names no target. -/
structure Inert (text : Text) : Prop where
  closes : ClosesExpansions text
  clear : Sequences.Clear [":id=".toList] text

instance : DecidablePred Inert := fun text =>
  decidable_of_iff (ClosesExpansions text ∧ ¬":id=".toList <:+: text)
    ⟨fun both => ⟨both.1, List.forall_mem_singleton.mpr both.2⟩,
      fun inert => ⟨inert.closes, inert.clear _ (by simp)⟩⟩

/-- A command with an address, and what the expression wants behind it. -/
def Reads (between : Text → Prop) (text : Text) : Prop :=
  ∃ command gap name middle, text = command ++ (gap ++ '$' :: '{' :: (name ++ '}' :: middle)) ∧
    command ≠ [] ∧ (∀ character ∈ command, isCommandChar character = true) ∧
    gap ≠ [] ∧ (∀ character ∈ gap, Text.isSpace character = true) ∧ '}' ∉ name ∧ between middle

/-- A text with a transfer at its front. -/
def HasTransfer (between : Text → Prop) (text : Text) : Prop :=
  ∃ front server rest, text = front ++ '"' :: (server ++ (":id=".toList ++ rest)) ∧
    Reads between front ∧ '"' ∉ server

section Inert

/-- Behind a closing brace and without a dollar sign nothing is open. Whatever was opened in the
front is closed by the brace, if it had not been before. -/
theorem closes_brace (front back : Text) (plain : '$' ∉ back) :
    ClosesExpansions (front ++ '}' :: back) := by
  intro before after shape
  rcases List.append_eq_append_iff.mp shape with ⟨between, rfl, tail⟩ | ⟨between, rfl, tail⟩
  · cases between with
    | nil => simp at tail
    | cons first between =>
      obtain ⟨rfl, rfl⟩ := List.cons.inj tail
      simp at plain
  · match between with
    | [] => simp at tail
    | [only] => simp at tail
    | first :: second :: between =>
      simp only [List.cons_append, List.cons.injEq] at tail
      obtain ⟨-, -, rfl⟩ := tail
      simp

/-- A text without a dollar sign opens nothing. -/
theorem closes_plain (text : Text) (plain : '$' ∉ text) : ClosesExpansions text := by
  rintro front back rfl
  simp at plain

/-- What stands behind a part of a closed text is closed. -/
theorem ClosesExpansions.behind {front text : Text} (closes : ClosesExpansions (front ++ text)) :
    ClosesExpansions text := by
  rintro before after rfl
  exact closes (front ++ before) after (by simp)

/-- A part of a closed text is closed if the rest holds no brace. -/
theorem ClosesExpansions.before {text back : Text} (closes : ClosesExpansions (text ++ back))
    (plain : '}' ∉ back) : ClosesExpansions text := by
  rintro before after rfl
  have member := closes before (after ++ back) (by simp)
  exact (List.mem_append.mp member).resolve_right plain

/-- Two closed parts are closed if no brace opens the second one. Otherwise a dollar sign at the end
of the first one would open an expansion with it. -/
theorem ClosesExpansions.append {first second : Text} (closes : ClosesExpansions first)
    (later : ClosesExpansions second) (apart : second.head? ≠ some '{') :
    ClosesExpansions (first ++ second) := by
  intro before after shape
  rcases List.append_eq_append_iff.mp shape with ⟨between, rfl, tail⟩ | ⟨between, rfl, tail⟩
  · exact later between after tail
  · match between with
    | [] => exact later [] after tail.symm
    | [only] =>
      rw [List.singleton_append, List.cons.injEq] at tail
      rw [← tail.2] at apart
      simp at apart
    | first :: second :: between =>
      simp only [List.cons_append, List.cons.injEq] at tail
      obtain ⟨rfl, rfl, rfl⟩ := tail
      exact List.mem_append_left _ (closes before between rfl)

/-- Inert parts on the two sides of a symbol that opens nothing are inert together. -/
theorem Inert.seam {first second : Text} (inert : Inert first) (symbol : Char)
    (foreign : symbol ∉ ":id=".toList) (dollar : symbol ≠ '$') (brace : symbol ≠ '{')
    (later : Inert second) : Inert (first ++ symbol :: second) := by
  constructor
  · apply inert.closes.append
    · intro before after shape
      cases before with
      | nil => simp [dollar] at shape
      | cons head before =>
        obtain ⟨-, shape⟩ := List.cons.inj shape
        exact later.closes before after shape
    · simpa using brace
  · exact inert.clear.seam symbol (by simpa using foreign) later.clear

/-- What stands behind a part of an inert text is inert. -/
theorem Inert.behind {front text : Text} (inert : Inert (front ++ text)) : Inert text :=
  ⟨inert.closes.behind, inert.clear.part (List.suffix_append front text).isInfix⟩

/-- Nothing is inert. -/
theorem inert_nil : Inert [] :=
  ⟨closes_plain [] (by simp), Sequences.clear_without ':' [] (by simp) (by simp)⟩

end Inert

section Absence

variable {between : Text → Prop}

/-- Without a target there is no transfer. -/
theorem no_target (text : Text) (clear : Sequences.Clear [":id=".toList] text) :
    ¬HasTransfer between text := by
  rintro ⟨front, server, rest, rfl, -, -⟩
  refine clear ":id=".toList (by simp) ⟨front ++ '"' :: server, rest, ?_⟩
  simp only [List.append_assoc, List.cons_append]

/-- A word that no space follows is no command. A command is followed by white space and an address,
and the symbol that stops the word here is neither. -/
theorem no_command (front : Text) (stop : Char) (rest : Text)
    (spaceless : ∀ character ∈ front, Text.isSpace character = false)
    (solid : Text.isSpace stop = false) (foreign : isCommandChar stop = false) :
    ¬HasTransfer between (front ++ stop :: rest) := by
  rintro ⟨_, server, tail, shape, ⟨command, gap, name, middle, rfl, -, word, present, spaces, -⟩, -⟩
  obtain ⟨space, gap, rfl⟩ := List.exists_cons_of_ne_nil present
  have spaced : Text.isSpace space = true := spaces space (by simp)
  have outside : stop ∉ command := by
    intro member
    rw [word stop member] at foreign
    cases foreign
  rw [List.append_assoc] at shape
  obtain ⟨inner, rfl, begins⟩ := Sequences.absent_front stop _ _ _ _ outside shape.symm
  cases inner with
  | nil =>
    obtain ⟨rfl, -⟩ := List.cons.inj begins
    rw [solid] at spaced
    cases spaced
  | cons head inner =>
    obtain ⟨rfl, -⟩ := List.cons.inj begins
    rw [spaceless space (by simp)] at spaced
    cases spaced

/-- A target that begins in an inert text does not end behind it. -/
theorem no_early_quote (front inner server rest after : Text)
    (clear : Sequences.Clear [":id=".toList] (front ++ '"' :: inner)) (quoteless : '"' ∉ server)
    (shape : server ++ (":id=".toList ++ rest) = inner ++ '"' :: after) : False := by
  obtain ⟨between, rfl, named⟩ := Sequences.absent_front '"' _ _ _ _ quoteless shape
  obtain ⟨back, rfl, -⟩ := Sequences.absent_front '"' ":id=".toList _ _ _ (by decide) named
  exact clear ":id=".toList (by simp) ⟨front ++ '"' :: server, back, by
    simp only [List.append_assoc, List.cons_append]⟩

/-- An address does not reach over a quote behind a text that closes its expansions. Its name holds
no closing brace, and the block has one behind every opening. -/
theorem no_late_quote (block inner : Text) (closes : ClosesExpansions block)
    (plain : ∀ middle, between middle → '"' ∉ middle) : ¬Reads between (block ++ '"' :: inner) := by
  rintro ⟨command, gap, name, middle, shape, -, word, -, spaces, braceless, wanted⟩
  have lead : (command ++ (gap ++ ['$', '{'])) ++ (name ++ '}' :: middle) =
      block ++ '"' :: inner := by
    rw [shape]
    simp
  have front : '"' ∉ command ++ (gap ++ ['$', '{']) := by
    simp only [List.mem_append, not_or]
    exact ⟨fun member => absurd (word _ member) (by decide),
      fun member => absurd (spaces _ member) (by decide), by decide⟩
  obtain ⟨opened, rfl, rest⟩ := Sequences.absent_front '"' _ _ _ _ front lead
  have closed : '}' ∈ opened := closes (command ++ gap) opened (by simp)
  obtain ⟨before, after, rfl⟩ := List.append_of_mem closed
  rw [List.append_assoc, List.cons_append] at rest
  obtain ⟨part, -, tail⟩ := Sequences.absent_front '}' _ _ _ _ braceless rest
  have quoted : '"' ∈ '}' :: middle := by
    rw [tail]
    simp
  exact plain middle wanted (by simpa using quoted)

/-- An opening quote behind an inert text begins the target of every transfer that begins in
the text: what stands before the quote is the command and the address.

Proof: the target of the transfer begins at a quote. An earlier quote would put a target into
the text, and a later one would lie in the address, which the text does not leave open. -/
theorem transfer_block (block after : Text) (inert : Inert block)
    (plain : ∀ middle, between middle → '"' ∉ middle)
    (transfer : HasTransfer between (block ++ '"' :: after)) : Reads between block := by
  obtain ⟨front, server, rest, shape, reads, quoteless⟩ := transfer
  rcases Sequences.place_cases '"' _ _ _ _ shape with ⟨rfl, -⟩ | ⟨inner, rfl, -⟩ |
    ⟨inner, rfl, target⟩
  · exact reads
  · exact absurd reads (no_late_quote block inner inert.closes plain)
  · exact (no_early_quote front inner server rest after inert.clear quoteless target).elim

/-- A command that begins before a space, behind which another command has the last address,
would have to leave its own address open.

Proof: the last brace closes both addresses. The word before the space is not the end of the
command and what follows the space is none of the gap, so the address begins before the space;
it is closed there, but holds no brace. -/
theorem no_early_command (front command address middle : Text)
    (closes : ClosesExpansions (front ++ [' '])) (present : command ≠ [])
    (word : ∀ character ∈ command, isCommandChar character = true) (behind : '}' ∉ middle)
    (plain : ∀ middle, between middle → '}' ∉ middle) :
    ¬Reads between (front ++ ' ' :: (command ++ ' ' :: '$' :: '{' :: (address ++ '}' :: middle))) := by
  rintro ⟨other, gap, name, middle', shape, -, otherWord, -, spaces, braceless, wanted⟩
  obtain ⟨first, command, rfl⟩ := List.exists_cons_of_ne_nil present
  have firstWord : isCommandChar first = true := word first (by simp)
  -- the last brace closes both addresses
  have both : front ++ ' ' :: ((first :: command) ++ ' ' :: '$' :: '{' :: address) =
      other ++ (gap ++ '$' :: '{' :: name) := by
    have split := Sequences.last_unique (· = '}')
      (front ++ ' ' :: ((first :: command) ++ ' ' :: '$' :: '{' :: address)) middle
      (other ++ (gap ++ '$' :: '{' :: name)) middle' '}' '}' (by simpa using shape) rfl rfl
      (fun later member same => behind (same ▸ member))
      (fun later member same => plain middle' wanted (same ▸ member))
    exact split.1
  have outside : ' ' ∉ other := fun member => absurd (otherWord _ member) (by decide)
  obtain ⟨between, rfl, rest⟩ := Sequences.absent_front ' ' _ _ _ _ outside both.symm
  have noGap : first ∉ gap := by
    intro member
    have space := spaces first member
    rw [command_char_solid first firstWord] at space
    cases space
  have begins : gap ++ '$' :: '{' :: name =
      (between ++ [' ']) ++ first :: (command ++ ' ' :: '$' :: '{' :: address) := by
    rw [rest]
    simp
  obtain ⟨opened, ends, inside⟩ := Sequences.absent_front first _ _ _ _ noGap begins
  match opened with
  | [] =>
    obtain ⟨rfl, -⟩ := List.cons.inj inside
    cases firstWord
  | [only] =>
    obtain ⟨rfl, -⟩ := List.cons.inj inside
    have last := congrArg List.getLast? ends
    simp at last
  | dollar :: brace :: opened =>
    simp only [List.cons_append, List.cons.injEq] at inside
    obtain ⟨rfl, rfl, rfl⟩ := inside
    have closed := closes (other ++ gap) opened (by simp [ends])
    exact braceless (List.mem_append_left _ closed)

/-- What stands behind the last brace is what the expression wants. -/
theorem no_other_kind (lead block front middle : Text) (unwanted : ¬between middle)
    (whole : lead ++ block = front ++ '}' :: middle) (behind : '}' ∉ middle)
    (plain : ∀ middle, between middle → '}' ∉ middle) : ¬Reads between block := by
  rintro ⟨command, gap, name, other, rfl, -, -, -, -, -, wanted⟩
  have split := Sequences.last_unique (· = '}')
    (lead ++ (command ++ (gap ++ '$' :: '{' :: name))) other front middle '}' '}'
    (by simpa using whole) rfl rfl (fun later member same => plain other wanted (same ▸ member))
    (fun later member same => behind (same ▸ member))
  exact unwanted (split.2.2 ▸ wanted)

end Absence

section Readers

/-- What is read of a command and its address. The gap consists of white space, and the name of the
address ends at the first brace. -/
theorem read_command_some (text command rest : Text)
    (read : readCommand text = some (command, rest)) :
    ∃ gap name, text = command ++ (gap ++ '$' :: '{' :: (name ++ '}' :: rest)) ∧ command ≠ [] ∧
      (∀ character ∈ command, isCommandChar character = true) ∧ gap ≠ [] ∧
      (∀ character ∈ gap, Text.isSpace character = true) ∧ '}' ∉ name := by
  simp only [readCommand, Option.bind_eq_bind, Option.bind_eq_some_iff] at read
  obtain ⟨⟨word, first⟩, words, ⟨gap, second⟩, gaps, third, opened, ⟨name, fourth⟩, named, fifth,
    closed, done⟩ := read
  obtain ⟨rfl, present, each⟩ := Scans.run_some _ _ _ _ words
  obtain ⟨rfl, spaced, spaces⟩ := Scans.run_some _ _ _ _ gaps
  obtain rfl := (Scans.literal_iff _ _ _).mp opened
  obtain ⟨rfl, -, inside⟩ := Scans.run_some _ _ _ _ named
  obtain rfl := (Scans.literal_iff _ _ _).mp closed
  cases done
  refine ⟨gap, name, rfl, present, each, spaced, spaces, fun member => ?_⟩
  simpa using inside '}' member

/-- A command with its address is read. The scan of each part stops where the next one begins, so
the four steps are taken one after the other. -/
theorem read_command_append (command address rest : Text) (present : command ≠ [])
    (word : ∀ character ∈ command, isCommandChar character = true) (addressed : address ≠ [])
    (free : '}' ∉ address) :
    readCommand (command ++ ' ' :: '$' :: '{' :: (address ++ '}' :: rest)) =
      some (command, rest) := by
  have words := Scans.run_append isCommandChar command
    (' ' :: '$' :: '{' :: (address ++ '}' :: rest)) present word (by simp; decide)
  have gap := Scans.run_append Text.isSpace [' '] ('$' :: '{' :: (address ++ '}' :: rest))
    (by simp) (List.forall_mem_singleton.mpr rfl) (by simp; decide)
  have opened := (Scans.literal_iff "$\x7b".toList ('$' :: '{' :: (address ++ '}' :: rest))
    (address ++ '}' :: rest)).mpr rfl
  have named := Scans.run_append (· != '}') address ('}' :: rest) addressed
    (fun character member => bne_iff_ne.mpr fun same => free (same ▸ member)) (by simp)
  have closed := (Scans.literal_iff "\x7d".toList ('}' :: rest) rest).mpr rfl
  rw [List.singleton_append] at gap
  simp only [readCommand, words, gap, opened, named, closed, Option.bind_eq_bind,
    Option.bind_some]

/-- What is read of a target. -/
theorem read_target_some (text server remote rest : Text)
    (read : readTarget text = some ((server, remote), rest)) :
    ∃ tail, text = '"' :: (server ++ (":id=".toList ++ tail)) ∧ '"' ∉ server := by
  simp only [readTarget, Option.bind_eq_bind, Option.bind_eq_some_iff] at read
  obtain ⟨first, opened, ⟨host, second⟩, named, third, marked, ⟨name, fourth⟩, -, fifth, -, done⟩ :=
    read
  obtain rfl := (Scans.literal_iff _ _ _).mp opened
  obtain ⟨rfl, -, inside⟩ := Scans.run_some _ _ _ _ named
  obtain rfl := (Scans.literal_iff _ _ _).mp marked
  cases done
  refine ⟨third, rfl, fun member => ?_⟩
  simpa using inside '"' member

/-- A target is read. The server has no colon and the name no quote, so that the parts are found
again. -/
theorem read_target_append (server remote rest : Text) (served : server ≠ [])
    (plain : ∀ character ∈ server, character ≠ '"' ∧ character ≠ ':') (named : remote ≠ [])
    (free : '"' ∉ remote) :
    readTarget ('"' :: (server ++ (":id=".toList ++ (remote ++ '"' :: rest)))) =
      some ((server, "id=".toList ++ remote), rest) := by
  have opened := (Scans.literal_iff "\"".toList
    ('"' :: (server ++ (":id=".toList ++ (remote ++ '"' :: rest))))
    (server ++ (":id=".toList ++ (remote ++ '"' :: rest)))).mpr rfl
  have host := Scans.run_append (fun character => character != '"' && character != ':') server
    (":id=".toList ++ (remote ++ '"' :: rest)) served
    (fun character member => by simpa using plain character member) (by simp)
  have marked := (Scans.literal_iff ":id=".toList (":id=".toList ++ (remote ++ '"' :: rest))
    (remote ++ '"' :: rest)).mpr rfl
  have name := Scans.run_append (· != '"') remote ('"' :: rest) named
    (fun character member => bne_iff_ne.mpr fun same => free (same ▸ member)) (by simp)
  have closed := (Scans.literal_iff "\"".toList ('"' :: rest) rest).mpr rfl
  simp only [readTarget, opened, host, marked, name, closed, Option.bind_eq_bind,
    Option.bind_some]

/-- A reader of what stands between an address and a target, with the texts that it reads. The texts
hold neither a quote nor a brace, so that the ends of the address and of the target can be told. -/
structure Between (read : Scans.Pattern Char β) (between : Text → Prop) : Prop where
  sound : ∀ text value rest, read text = some (value, rest) →
    ∃ middle, text = middle ++ rest ∧ between middle
  quoteless : ∀ middle, between middle → '"' ∉ middle
  braceless : ∀ middle, between middle → '}' ∉ middle

/-- Where an expression matches there is a transfer. It is assembled of what its three parts match:
the command, what stands between and the target. -/
theorem read_transfer_some {read : Scans.Pattern Char β} {between : Text → Prop}
    (reader : Between read between) (text : Text) (result : Groups β × Text)
    (matched : readTransfer read text = some result) : HasTransfer between text := by
  simp only [readTransfer, Option.bind_eq_some_iff] at matched
  obtain ⟨⟨command, first⟩, commanded, ⟨value, second⟩, middled, ⟨⟨server, remote⟩, third⟩, targeted,
    -⟩ := matched
  obtain ⟨gap, name, rfl, present, word, spaced, spaces, free⟩ := read_command_some _ _ _ commanded
  obtain ⟨middle, rfl, wanted⟩ := reader.sound _ _ _ middled
  obtain ⟨tail, rfl, quoteless⟩ := read_target_some _ _ _ _ targeted
  refine ⟨command ++ (gap ++ '$' :: '{' :: (name ++ '}' :: middle)), server, tail, by simp,
    ⟨command, gap, name, middle, rfl, present, word, spaced, spaces, free, wanted⟩, quoteless⟩

/-- White space between an address and a target. -/
def IsGap (middle : Text) : Prop :=
  middle ≠ [] ∧ ∀ character ∈ middle, Text.isSpace character = true

/-- The characters of a size. -/
def isNumberChar (character : Char) : Bool :=
  isHexChar character || character == 'x' || isDecimalChar character

/-- A size between an address and a target. -/
def IsSize (middle : Text) : Prop :=
  ∃ gap number back, middle = gap ++ (number ++ back) ∧ number ≠ [] ∧
    (∀ character ∈ gap, Text.isSpace character = true) ∧
    (∀ character ∈ number, isNumberChar character = true) ∧
    ∀ character ∈ back, Text.isSpace character = true

/-- `DOWNLOAD_RE` reads white space. -/
theorem gap_between : Between readGap IsGap := by
  constructor
  case sound =>
    intro text value rest read
    simp only [readGap, Option.bind_eq_bind, Option.bind_eq_some_iff] at read
    obtain ⟨⟨gap, rest'⟩, gaps, done⟩ := read
    obtain ⟨rfl, present, spaces⟩ := Scans.run_some _ _ _ _ gaps
    cases done
    exact ⟨gap, rfl, present, spaces⟩
  case quoteless => exact fun middle wanted member => absurd (wanted.2 _ member) (by decide)
  case braceless => exact fun middle wanted member => absurd (wanted.2 _ member) (by decide)

/-- The characters of a size that is read. It begins with `0x` or with a decimal digit, and the
other direction is not needed. -/
theorem read_number_some (text size rest : Text) (read : readNumber text = some (size, rest)) :
    text = size ++ rest ∧ size ≠ [] ∧ ∀ character ∈ size, isNumberChar character = true := by
  unfold readNumber at read
  split at read
  · rename_i digits rest' hexadecimal
    obtain ⟨first, marked, digits'⟩ := Option.bind_eq_some_iff.mp hexadecimal
    obtain rfl := (Scans.literal_iff _ _ _).mp marked
    obtain ⟨rfl, present, each⟩ := Scans.run_some _ _ _ _ digits'
    cases read
    refine ⟨by simp, by simp, fun character member => ?_⟩
    have announced : ∀ character ∈ "0x".toList, isNumberChar character = true :=
      List.all_eq_true.mp (by decide)
    rcases List.mem_append.mp member with front | digit
    · exact announced character front
    · simp [isNumberChar, each character digit]
  · obtain ⟨rfl, present, each⟩ := Scans.run_some _ _ _ _ read
    exact ⟨rfl, present, fun character member => by simp [isNumberChar, each character member]⟩

/-- `UPLOAD_RE` reads a size. Between the address and the target there is then white space, the
number and white space again. -/
theorem size_between : Between readSize IsSize := by
  have no_member : ∀ (symbol : Char) (middle : Text), Text.isSpace symbol = false →
      isNumberChar symbol = false → IsSize middle → symbol ∉ middle := by
    rintro symbol _ solid foreign ⟨gap, number, back, rfl, -, gaps, digits, backs⟩ member
    rcases List.mem_append.mp member with front | member
    · rw [gaps symbol front] at solid
      cases solid
    · rcases List.mem_append.mp member with digit | tail
      · rw [digits symbol digit] at foreign
        cases foreign
      · rw [backs symbol tail] at solid
        cases solid
  constructor
  case sound =>
    intro text value rest read
    simp only [readSize, Option.bind_eq_bind, Option.bind_eq_some_iff] at read
    obtain ⟨⟨gap, first⟩, gaps, ⟨number, second⟩, numbers, ⟨back, third⟩, backs, done⟩ := read
    obtain ⟨rfl, -, spaces⟩ := Scans.run_some _ _ _ _ gaps
    obtain ⟨rfl, present, digits⟩ := read_number_some _ _ _ numbers
    obtain ⟨rfl, -, more⟩ := Scans.run_some _ _ _ _ backs
    cases done
    exact ⟨gap ++ (number ++ back), by simp, gap, number, back, rfl, present, spaces, digits, more⟩
  case quoteless => exact fun middle => no_member '"' middle (by decide) (by decide)
  case braceless => exact fun middle => no_member '}' middle (by decide) (by decide)

end Readers

end TestClient

end UbootTftp
