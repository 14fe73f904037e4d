import UbootTftp.HexNumbers
import UbootTftp.TransferScans

/-!
# Scripts that are composed of transfers

A script of the server is text with transfers in it: a command with an address and a target
follows a space of the text, and in between stands nothing that a client could take for a
transfer. An expression of the client finds in such a script the transfers whose middle it
reads, in their order and with their own words, and nothing else.
-/

namespace UbootTftp

universe u
variable {β : Type u}

namespace TestClient

/-- A transfer of a script with the text before it, cut into the parts that the expressions of the
client read. -/
structure Leg where
  lead : Text
  command : Text
  address : Text
  middle : Text
  server : Text
  remote : Text

namespace Leg

/-- The command up to its target. -/
def call (leg : Leg) : Text :=
  leg.command ++ ' ' :: '$' :: '{' :: (leg.address ++ '}' :: leg.middle)

/-- What an expression reads of the transfer. -/
def groups (leg : Leg) (value : β) : Groups β :=
  ⟨leg.command, value, leg.server, "id=".toList ++ leg.remote⟩

/-- The texts of a transfer cannot be taken for one another. Each field keeps one part from
containing what ends it or what begins another transfer. -/
structure Proper (leg : Leg) : Prop where
  lead : Inert leg.lead
  commanded : leg.command ≠ []
  word : ∀ character ∈ leg.command, isCommandChar character = true
  addressed : leg.address ≠ []
  braceless : '}' ∉ leg.address
  clear : Sequences.Clear [":id=".toList] leg.address
  middle : ∀ character ∈ leg.middle, character ≠ '}' ∧ character ≠ '$' ∧ character ≠ ':'
  served : leg.server ≠ []
  server : ∀ character ∈ leg.server,
    Text.isSpace character = false ∧ character ≠ '"' ∧ character ≠ ':'
  named : leg.remote ≠ []
  quoteless : '"' ∉ leg.remote
  remote : Inert leg.remote

end Leg

/-- A script of transfers and a last text. The text before a transfer belongs to it, so that any
text with transfers has this form. -/
def composed : List Leg → Text → Text
  | [], final => final
  | leg :: legs, final =>
    leg.lead ++ ' ' :: (leg.call ++ '"' :: (leg.server ++ (":id=".toList ++
      (leg.remote ++ '"' :: composed legs final))))

/-- The last text of a script goes on. -/
theorem composed_behind (legs : List Leg) (tail back : Text) :
    composed legs tail ++ back = composed legs (tail ++ back) := by
  induction legs with
  | nil => rfl
  | cons leg legs inductionHypothesis => simp [composed, ← inductionHypothesis]

/-- A script goes on with the transfers of another one. -/
theorem composed_next (legs : List Leg) (between : Text) (leg : Leg) (more : List Leg)
    (final : Text) : composed legs (between ++ composed (leg :: more) final) =
      composed (legs ++ { leg with lead := between ++ leg.lead } :: more) final := by
  induction legs with
  | nil => simp [composed, Leg.call]
  | cons first legs inductionHypothesis =>
    rw [composed, inductionHypothesis, List.cons_append, composed]

/-- Only the last text of a script takes part in its last newline. -/
theorem composed_ensured (legs : List Leg) (final : Text) (present : final ≠ []) :
    ensureNewline (composed legs final) = composed legs (ensureNewline final) := by
  have split : ∀ text, composed legs [] ++ text = composed legs text := composed_behind legs []
  have last : (composed legs final).getLast? = final.getLast? := by
    rw [← split final, List.getLast?_append_of_ne_nil _ present]
  unfold ensureNewline
  rw [last]
  split
  · rfl
  · exact composed_behind legs final ['\n']

/-- An expansion between texts without a target, the last of which opens nothing. The name itself
may hold a dollar sign, since it is between the braces. -/
theorem inert_expansion (front name rest : Text) (begun : Sequences.Clear [":id=".toList] front)
    (named : Sequences.Clear [":id=".toList] name) (later : Sequences.Clear [":id=".toList] rest)
    (plain : '$' ∉ rest) : Inert (front ++ expansion name ++ rest) := by
  constructor
  · have shape : front ++ expansion name ++ rest = (front ++ '$' :: '{' :: name) ++ '}' :: rest := by
      simp [expansion]
    rw [shape]
    exact closes_brace _ _ plain
  · have shape : front ++ expansion name ++ rest =
        front ++ '$' :: ([] ++ '{' :: (name ++ '}' :: rest)) := by
      simp [expansion]
    rw [shape]
    exact begun.seam '$' (by decide)
      (inert_nil.clear.seam '{' (by decide) (named.seam '}' (by decide) later))

section Single

variable {leg : Leg}

/-- An inert text with a command behind it is inert. The reference to the address stands between the
two, and it is closed before anything of the command follows. -/
theorem Leg.Proper.inert_call (proper : leg.Proper) (lead : Text) (inert : Inert lead) :
    Inert (lead ++ ' ' :: leg.call) := by
  have command : Sequences.Clear [":id=".toList] leg.command :=
    Sequences.clear_without ':' _ (fun member => absurd (proper.word _ member) (by decide))
      (by simp)
  have middle : Sequences.Clear [":id=".toList] leg.middle :=
    Sequences.clear_without ':' _ (fun member => (proper.middle ':' member).2.2 rfl) (by simp)
  have front : Sequences.Clear [":id=".toList] (lead ++ ' ' :: (leg.command ++ [' '])) :=
    inert.clear.seam ' ' (by decide) (command.seam ' ' (by decide) inert_nil.clear)
  have whole := inert_expansion _ leg.address leg.middle front proper.clear middle
    fun member => (proper.middle '$' member).2.1 rfl
  have shape : lead ++ ' ' :: leg.call =
      lead ++ ' ' :: (leg.command ++ [' ']) ++ expansion leg.address ++ leg.middle := by
    simp [Leg.call, expansion]
  rw [shape]
  exact whole

variable {read : Scans.Pattern Char β} {between : Text → Prop}

/-- At the front of its call a transfer is read. What is read between the address and the quote is
left to the reader; the rest of the script is handed back whole. -/
theorem Leg.Proper.matched (proper : leg.Proper) (value : β)
    (wanted : ∀ rest, read (leg.middle ++ '"' :: rest) = some (value, '"' :: rest)) (rest : Text) :
    readTransfer read ((leg.call ++ '"' :: (leg.server ++ (":id=".toList ++
      (leg.remote ++ ['"'])))) ++ rest) = some (leg.groups value, rest) := by
  have command := read_command_append leg.command leg.address
    (leg.middle ++ '"' :: (leg.server ++ (":id=".toList ++ (leg.remote ++ '"' :: rest))))
    proper.commanded proper.word proper.addressed proper.braceless
  have target := read_target_append leg.server leg.remote rest proper.served
    (fun character member => (proper.server character member).2) proper.named proper.quoteless
  have shape : (leg.call ++ '"' :: (leg.server ++ (":id=".toList ++
      (leg.remote ++ ['"'])))) ++ rest = leg.command ++ ' ' :: '$' :: '{' :: (leg.address ++
        '}' :: (leg.middle ++ '"' :: (leg.server ++ (":id=".toList ++
          (leg.remote ++ '"' :: rest))))) := by
    simp [Leg.call]
  rw [shape]
  simp only [readTransfer, command, wanted, target, Option.bind_some]
  rfl

/-- Before the call of a transfer nothing is read. A transfer that began there would have to hold
the blank before the call in a part that admits none. -/
theorem Leg.Proper.lead_unread (proper : leg.Proper) (reader : Between read between)
    (lead : Text) (inert : Inert lead) (after : Text) (suffix : Text)
    (inside : suffix <:+ lead ++ [' ']) (present : suffix ≠ []) :
    readTransfer read (suffix ++ (leg.call ++ '"' :: after)) = none := by
  by_contra matched
  obtain ⟨result, found⟩ := Option.ne_none_iff_exists'.mp matched
  have transfer := read_transfer_some reader _ _ found
  obtain ⟨front, split⟩ := inside
  obtain ⟨body, last, rfl⟩ := (List.eq_nil_or_concat' suffix).resolve_left present
  rw [← List.append_assoc] at split
  obtain ⟨rfl, ends⟩ := List.append_inj' split rfl
  obtain ⟨rfl, -⟩ := List.cons.inj ends
  have block : Inert (body ++ ' ' :: leg.call) := by
    have whole := proper.inert_call _ inert
    rw [List.append_assoc] at whole
    exact whole.behind
  have closes : ClosesExpansions (body ++ [' ']) :=
    inert.behind.closes.append (closes_plain [' '] (by decide)) (by simp)
  have reads := transfer_block (body ++ ' ' :: leg.call) after block reader.quoteless
    (by simpa using transfer)
  exact no_early_command body leg.command leg.address leg.middle closes proper.commanded
    proper.word (fun member => (proper.middle '}' member).1 rfl) reader.braceless reads

/-- In a transfer of another kind nothing is read before its target. This keeps the downloads apart
from the uploads: they differ in what stands between the address and the quote. -/
theorem Leg.Proper.other_unread (proper : leg.Proper) (reader : Between read between)
    (unwanted : ¬between leg.middle) (lead : Text) (inert : Inert lead) (after : Text)
    (suffix : Text) (inside : suffix <:+ lead ++ ' ' :: leg.call) :
    readTransfer read (suffix ++ '"' :: after) = none := by
  by_contra matched
  obtain ⟨result, found⟩ := Option.ne_none_iff_exists'.mp matched
  have transfer := read_transfer_some reader _ _ found
  obtain ⟨front, split⟩ := inside
  have whole := proper.inert_call lead inert
  rw [← split] at whole
  have reads := transfer_block suffix after whole.behind reader.quoteless transfer
  refine no_other_kind front suffix
    (lead ++ ' ' :: (leg.command ++ ' ' :: '$' :: '{' :: leg.address)) leg.middle unwanted ?_
    (fun member => (proper.middle '}' member).1 rfl) reader.braceless reads
  rw [split]
  simp [Leg.call]

/-- In the server of a target nothing is read. A transfer needs white space before its target, and
the server holds none. -/
theorem Leg.Proper.target_unread (proper : leg.Proper) (reader : Between read between)
    (after : Text) (suffix : Text) (inside : suffix <:+ '"' :: (leg.server ++ ":id=".toList))
    (present : suffix ≠ []) : readTransfer read (suffix ++ after) = none := by
  by_contra matched
  obtain ⟨result, found⟩ := Option.ne_none_iff_exists'.mp matched
  have transfer := read_transfer_some reader _ _ found
  obtain ⟨front, split⟩ := inside
  obtain ⟨body, last, rfl⟩ := (List.eq_nil_or_concat' suffix).resolve_left present
  have shape : (front ++ body) ++ [last] = ('"' :: (leg.server ++ ":id".toList)) ++ ['='] := by
    rw [List.append_assoc, split]
    simp
  obtain ⟨parts, ends⟩ := List.append_inj' shape rfl
  obtain ⟨rfl, -⟩ := List.cons.inj ends
  have spaceless : ∀ character ∈ body, Text.isSpace character = false := by
    intro character member
    have whole : character ∈ '"' :: (leg.server ++ ":id".toList) :=
      parts ▸ List.mem_append_right front member
    have marks : ∀ mark ∈ ":id".toList, Text.isSpace mark = false := by simp; decide
    rcases List.mem_cons.mp whole with rfl | whole
    · decide
    · rcases List.mem_append.mp whole with served | mark
      · exact (proper.server character served).1
      · exact marks character mark
  rw [List.append_assoc, List.singleton_append] at transfer
  exact no_command body '=' after spaceless (by decide) (by decide) transfer

end Single

section Script

variable {read : Scans.Pattern Char β} {between : Text → Prop} (reader : Between read between)
include reader

/-- In an inert text nothing is read. -/
theorem inert_unread (text : Text) (inert : Inert text) (suffix : Text) (inside : suffix <:+ text) :
    readTransfer read suffix = none := by
  by_contra matched
  obtain ⟨result, found⟩ := Option.ne_none_iff_exists'.mp matched
  exact no_target suffix (inert.clear.part inside.isInfix)
    (read_transfer_some reader suffix result found)

/-- Before a transfer of the wanted kind nothing is found; then it is, and the search goes on behind
it. -/
theorem scan_found (isWord : Char → Bool) (solid : isWord ' ' = false) {leg : Leg}
    (proper : leg.Proper) (value : β)
    (wanted : ∀ rest, read (leg.middle ++ '"' :: rest) = some (value, '"' :: rest))
    (pending : Text) (lead : Inert (pending ++ leg.lead)) (legs : List Leg) (final : Text)
    (before : Option Char) :
    ∃ later, Scans.scanFrom (fun before => before.all fun character => !isWord character)
        (readTransfer read) before 0 (pending ++ composed (leg :: legs) final) =
      leg.groups value :: Scans.scanFrom (fun before => before.all fun character => !isWord character)
        (readTransfer read) later 0 (composed legs final) := by
  have shape : pending ++ composed (leg :: legs) final = ((pending ++ leg.lead) ++ [' ']) ++
      ((leg.call ++ '"' :: (leg.server ++ (":id=".toList ++ (leg.remote ++ ['"'])))) ++
        composed legs final) := by
    simp [composed]
  have front := Scans.scan_skip (fun before => before.all fun character => !isWord character)
    (readTransfer read) before ((pending ++ leg.lead) ++ [' '])
    ((leg.call ++ '"' :: (leg.server ++ (":id=".toList ++ (leg.remote ++ ['"'])))) ++
      composed legs final) fun suffix inside present => by
    rw [List.append_assoc leg.call]
    exact proper.lead_unread reader _ lead _ suffix inside present
  have behind : Scans.lastOr before ((pending ++ leg.lead) ++ [' ']) = some ' ' := by
    simp [Scans.lastOr]
  have here := Scans.scan_match (fun before => before.all fun character => !isWord character)
    (readTransfer read) (some ' ')
    (leg.call ++ '"' :: (leg.server ++ (":id=".toList ++ (leg.remote ++ ['"']))))
    (composed legs final) (leg.groups value) (by simp) (by simp [solid])
    (proper.matched value wanted (composed legs final))
  rw [shape, front, behind, here]
  exact ⟨_, rfl⟩

/-- A transfer of another kind is passed over up to its remote name. The scan goes on from there
with the remote name still in front of it. What stands before it is some character, and which one
plays no part. -/
theorem scan_passed (isWord : Char → Bool) {leg : Leg} (proper : leg.Proper)
    (unwanted : ¬between leg.middle) (pending : Text) (lead : Inert (pending ++ leg.lead))
    (legs : List Leg) (final : Text) (before : Option Char) :
    ∃ later, Scans.scanFrom (fun before => before.all fun character => !isWord character)
        (readTransfer read) before 0 (pending ++ composed (leg :: legs) final) =
      Scans.scanFrom (fun before => before.all fun character => !isWord character)
        (readTransfer read) later 0 ((leg.remote ++ ['"']) ++ composed legs final) := by
  have shape : pending ++ composed (leg :: legs) final =
      ((pending ++ leg.lead) ++ ' ' :: leg.call) ++ ('"' :: (leg.server ++ ":id=".toList) ++
        ((leg.remote ++ ['"']) ++ composed legs final)) := by
    simp [composed]
  have front := Scans.scan_skip (fun before => before.all fun character => !isWord character)
    (readTransfer read) before ((pending ++ leg.lead) ++ ' ' :: leg.call)
    ('"' :: (leg.server ++ ":id=".toList) ++ ((leg.remote ++ ['"']) ++ composed legs final))
    fun suffix inside _ => proper.other_unread reader unwanted _ lead _ suffix inside
  have target := Scans.scan_skip (fun before => before.all fun character => !isWord character)
    (readTransfer read) (Scans.lastOr before ((pending ++ leg.lead) ++ ' ' :: leg.call))
    ('"' :: (leg.server ++ ":id=".toList)) ((leg.remote ++ ['"']) ++ composed legs final)
    fun suffix inside present => proper.target_unread reader _ suffix inside present
  rw [shape, front, target]
  exact ⟨_, rfl⟩

variable (isWord : Char → Bool) (solid : isWord ' ' = false) (value : Leg → Option β)
include solid

/-- The transfers that an expression finds behind a pending text which stays inert with every
inert text behind it.

Proof: induction on the transfers. A transfer of the wanted kind is found behind the space
before it, and nothing is pending then. Of another transfer the remote name stays pending. -/
theorem scan_pending (legs : List Leg) (proper : ∀ leg ∈ legs, leg.Proper)
    (wanted : ∀ leg ∈ legs, ∀ found, value leg = some found →
      ∀ rest, read (leg.middle ++ '"' :: rest) = some (found, '"' :: rest))
    (unwanted : ∀ leg ∈ legs, value leg = none → ¬between leg.middle) (final : Text)
    (last : Inert final) (pending : Text) (joins : ∀ text, Inert text → Inert (pending ++ text))
    (before : Option Char) :
    Scans.scanFrom (fun before => before.all fun character => !isWord character)
        (readTransfer read) before 0 (pending ++ composed legs final) =
      legs.filterMap fun leg => (value leg).map leg.groups := by
  induction legs generalizing pending before with
  | nil =>
    exact Scans.scan_none _ _ before _ fun suffix inside _ =>
      inert_unread reader _ (joins final last) suffix inside
  | cons leg legs inductionHypothesis =>
    have own : leg.Proper := proper leg (by simp)
    have others := inductionHypothesis (fun other member => proper other (by simp [member]))
      (fun other member => wanted other (by simp [member]))
      (fun other member => unwanted other (by simp [member]))
    have lead : Inert (pending ++ leg.lead) := joins leg.lead own.lead
    cases kind : value leg with
    | some found =>
      obtain ⟨later, goesOn⟩ := scan_found reader isWord solid own found
        (wanted leg (by simp) found kind) pending lead legs final before
      rw [goesOn]
      simpa [kind] using others [] (fun text inert => inert) later
    | none =>
      obtain ⟨later, goesOn⟩ := scan_passed reader isWord own (unwanted leg (by simp) kind) pending
        lead legs final before
      have remains : ∀ text, Inert text → Inert ((leg.remote ++ ['"']) ++ text) := by
        intro text inert
        rw [List.append_assoc, List.singleton_append]
        exact own.remote.seam '"' (by decide) (by decide) (by decide) inert
      rw [goesOn]
      simpa [kind] using others (leg.remote ++ ['"']) remains later

/-- The transfers that an expression finds in a composed script: those of the wanted kind, in their
order, with their own words. -/
theorem scan_legs (legs : List Leg) (proper : ∀ leg ∈ legs, leg.Proper)
    (wanted : ∀ leg ∈ legs, ∀ found, value leg = some found →
      ∀ rest, read (leg.middle ++ '"' :: rest) = some (found, '"' :: rest))
    (unwanted : ∀ leg ∈ legs, value leg = none → ¬between leg.middle) (final : Text)
    (last : Inert final) :
    finditer isWord (readTransfer read) (composed legs final) =
      legs.filterMap fun leg => (value leg).map leg.groups :=
  scan_pending reader isWord solid value legs proper wanted unwanted final last []
    (fun _ inert => inert) none

end Script

/-- What stands between an address and its target: a size for an upload, a space else. -/
def middleText : Option Int → Text
  | some size => ' ' :: Text.hex size ++ [' ']
  | none => [' ']

section Flows

/-- The space of a download is read. -/
theorem gap_read (rest : Text) : readGap ([' '] ++ '"' :: rest) = some ((), '"' :: rest) := by
  have gap := Scans.run_append Text.isSpace [' '] ('"' :: rest) (by simp)
    (List.forall_mem_singleton.mpr rfl) (by simp; decide)
  simp only [readGap, gap, Option.bind_eq_bind, Option.bind_some]

/-- The size of an upload is read. The number is written in hexadecimal digits behind `0x`, between
single blanks, and only a number that is not negative is written so. -/
theorem size_read (size : Int) (natural : 0 ≤ size) (rest : Text) :
    readSize (' ' :: Text.hex size ++ [' '] ++ '"' :: rest) =
      some (Text.hex size, '"' :: rest) := by
  have shape : Text.hex size = "0x".toList ++ Nat.toDigits 16 size.natAbs := by
    simp [Text.hex, Int.not_lt.mpr natural]
  have first := Scans.run_append Text.isSpace [' '] (Text.hex size ++ ' ' :: '"' :: rest) (by simp)
    (List.forall_mem_singleton.mpr rfl) (by simp [shape]; decide)
  have announced := (Scans.literal_iff "0x".toList (Text.hex size ++ ' ' :: '"' :: rest)
    (Nat.toDigits 16 size.natAbs ++ ' ' :: '"' :: rest)).mpr (by rw [shape, List.append_assoc])
  have digits := Scans.run_append isHexChar (Nat.toDigits 16 size.natAbs) (' ' :: '"' :: rest)
    (Text.to_digits_present _)
    (Text.to_digits_hex (fun character => isHexChar character = true) (by decide) _)
    (by simp; decide)
  have last := Scans.run_append Text.isSpace [' '] ('"' :: rest) (by simp)
    (List.forall_mem_singleton.mpr rfl) (by simp; decide)
  have number : readNumber (Text.hex size ++ ' ' :: '"' :: rest) =
      some (Text.hex size, ' ' :: '"' :: rest) := by
    simp only [readNumber, announced, digits, Option.bind_some, ← shape]
  rw [List.singleton_append] at first last
  have whole : ' ' :: Text.hex size ++ [' '] ++ '"' :: rest =
      ' ' :: (Text.hex size ++ ' ' :: '"' :: rest) := by simp
  rw [whole]
  simp only [readSize, first, number, last, Option.bind_eq_bind, Option.bind_some]

/-- A size is no white space. -/
theorem size_no_gap (size : Int) : ¬IsGap (' ' :: Text.hex size ++ [' ']) := by
  rintro ⟨-, spaces⟩
  exact absurd (spaces 'x' (by simp [Text.hex])) (by decide)

/-- A space is no size. -/
theorem gap_no_size : ¬IsSize [' '] := by
  rintro ⟨gap, number, back, shape, present, -, digits, -⟩
  obtain ⟨digit, number, rfl⟩ := List.exists_cons_of_ne_nil present
  have member : digit ∈ gap ++ ((digit :: number) ++ back) := by simp
  rw [← shape, List.mem_singleton] at member
  rw [member] at digits
  exact absurd (digits ' ' (by simp)) (by decide)

section Legs

variable (isWord : Char → Bool) (solid : isWord ' ' = false) (size : Leg → Option Int)
  (legs : List Leg) (proper : ∀ leg ∈ legs, leg.Proper)
  (middle : ∀ leg ∈ legs, leg.middle = middleText (size leg)) (final : Text) (last : Inert final)
include solid proper middle last

/-- The uploads of a composed script are those with a size. They come in the order of the script,
and their sizes as the digits that were written. -/
theorem find_uploads (natural : ∀ leg ∈ legs, ∀ number, size leg = some number → 0 ≤ number) :
    finditer isWord uploadRe (composed legs final) =
      legs.filterMap fun leg => ((size leg).map Text.hex).map leg.groups := by
  refine scan_legs size_between isWord solid _ legs proper ?_ ?_ final last
  · intro leg member found sized rest
    obtain ⟨number, known, rfl⟩ := Option.map_eq_some_iff.mp sized
    rw [middle leg member, known]
    exact size_read number (natural leg member number known) rest
  · intro leg member unsized
    rw [middle leg member, Option.map_eq_none_iff.mp unsized]
    exact gap_no_size

/-- The downloads of a composed script are those without a size. They come in the order of the
script. An upload has a size behind its command, which is what the pattern for downloads refuses. -/
theorem find_downloads :
    finditer isWord downloadRe (composed legs final) =
      legs.filterMap fun leg => (if size leg = none then some () else none).map leg.groups := by
  refine scan_legs gap_between isWord solid _ legs proper ?_ ?_ final last
  · intro leg member found gap rest
    split at gap
    · rename_i unsized
      rw [middle leg member, unsized]
      exact gap_read rest
    · cases gap
  · intro leg member sized
    cases known : size leg with
    | none => simp [known] at sized
    | some number =>
      rw [middle leg member, known]
      exact size_no_gap number

/-- What the client makes of a script that is composed of uploads and downloads with different
names: their actions, in their order. A name that both an upload and a download have is dropped from
the downloads by the client, which is why the names must differ. -/
theorem parse_composed (natural : ∀ leg ∈ legs, ∀ number, size leg = some number → 0 ≤ number)
    (apart : ∀ leg ∈ legs, ∀ other ∈ legs, size leg = none → size other ≠ none →
      leg.remote ≠ other.remote) :
    parseFlowActions isWord (composed legs final) =
      some ⟨legs.filterMap fun leg => (size leg).map fun number =>
          ⟨leg.command, leg.server, "id=".toList ++ leg.remote, number⟩,
        legs.filterMap fun leg => if size leg = none then
          some ⟨leg.command, leg.server, "id=".toList ++ leg.remote⟩ else none⟩ := by
  have uploads := find_uploads isWord solid size legs proper middle final last natural
  have downloads := find_downloads isWord solid size legs proper middle final last
  have numbers : (legs.filterMap fun leg => ((size leg).map Text.hex).map leg.groups).mapM
      (fun groups => (Text.parseInteger 0 groups.between).map fun size =>
        UploadAction.mk groups.command groups.server groups.remote size) =
      some (legs.filterMap fun leg => (size leg).map fun number =>
        ⟨leg.command, leg.server, "id=".toList ++ leg.remote, number⟩) := by
    rw [map_m_some, List.map_filterMap, List.map_filterMap]
    refine List.filterMap_congr fun leg _ => ?_
    cases size leg with
    | none => rfl
    | some number => simp [Leg.groups, Text.parse_hex]
  have kept : ∀ leg ∈ legs, size leg = none → "id=".toList ++ leg.remote ∉
      (legs.filterMap fun leg => (size leg).map fun number =>
        UploadAction.mk leg.command leg.server ("id=".toList ++ leg.remote) number).map
        (·.remote) := by
    intro leg member unsized named
    obtain ⟨upload, listed, same⟩ := List.mem_map.mp named
    obtain ⟨other, inside, made⟩ := List.mem_filterMap.mp listed
    obtain ⟨number, known, rfl⟩ := Option.map_eq_some_iff.mp made
    exact apart leg member other inside unsized (by simp [known])
      (List.append_cancel_left same).symm
  simp only [parseFlowActions, uploads, downloads, Option.bind_eq_bind, numbers, Option.bind_some]
  rw [List.filter_eq_self.mpr, List.map_filterMap]
  · refine congrArg (fun downloads => some (FlowActions.mk _ downloads)) ?_
    refine List.filterMap_congr fun leg _ => ?_
    split <;> rfl
  · intro groups listed
    obtain ⟨leg, member, made⟩ := List.mem_filterMap.mp listed
    split at made
    · rename_i unsized
      cases made
      exact decide_eq_true (kept leg member unsized)
    · cases made

end Legs

end Flows

end TestClient

end UbootTftp
