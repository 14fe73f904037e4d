import UbootTftp.BoardFlashing
import UbootTftp.InstallerLines

/-!
# What the requests of the installer do on a board

A board loads the image of a script to its load address and runs it. Behind gentle lines it is as
it was and waits for the server; behind an upload it offers what stands in its memory at the load
address; and two scripts of the installer do more: one puts the variables there, the other writes
an image to the flash.
-/

namespace UbootTftp

open OpenIpc (Surroundings restoreLines spoken received)
open Overlays (replaced window)
open TestClient (FlowClient Returns PlainSession Word)

section Loading

variable {rambase : Text} {base : Nat}

/-- A board stays ready if its variables are kept. -/
theorem Ready.kept {before after : Board} (ready : Ready before rambase base)
    (tidy : ∀ name, Temporary name → after.values.get name = before.values.get name)
    (loads : after.values.get rambase = before.values.get rambase) : Ready after rambase base := by
  obtain ⟨text, held, number⟩ := ready.located
  exact ⟨fun name temporary => (tidy name temporary).trans (ready.tidy name temporary), ready.lasting,
    text, loads.trans held, number⟩

/-- A board that is shown without temporary variables is ready. -/
theorem Ready.shown {before after : Board} {view : BoardView} (ready : Ready before rambase base)
    (shows : Shows [] after view)
    (loads : view.values rambase = before.values.get rambase) : Ready after rambase base := by
  obtain ⟨text, held, number⟩ := ready.located
  exact ⟨fun name temporary => shows.tidy name temporary (List.not_mem_nil), ready.lasting, text,
    (shows.values rambase ready.lasting).trans (loads.trans held), number⟩

/-- Its load address reads as a number. -/
theorem Ready.number {board : Board} (ready : Ready board rambase base) :
    boardNumber (board.report rambase) = some base := by
  obtain ⟨text, held, number⟩ := ready.located
  rw [Board.report, held]
  exact number

/-- Loading a script leaves everything alone but the memory and the size of the last file. The load
address must therefore be another variable. -/
theorem load_unharmed (base : Nat) (board : Board) (image : Bytes)
    (apart : rambase ≠ "filesize".toList) :
    Unharmed rambase board (board.load base image) where
  flash := rfl
  probed := id
  loads := Dict.get_set_other _ _ _ _ apart
  tidy := fun name temporary => Dict.get_set_other _ _ _ _ (by
    rintro rfl
    exact absurd temporary (by decide))
  idle := fun _ => rfl

end Loading

section Steps

universe u
variable {κ : Type u} {hardware : Hardware} {base : Nat} {image : Text → Bytes}
  {isWord : Char → Bool} {peer : Text × Nat} {rounds : Nat} {session : ClientSession κ}
  {token cmdtftp cmdtftpput rambase : Text}

/-- A call that goes on is not the last one. A board that asks for the continuation has found one in
the script, and the last script has none. -/
theorem returns_unfinished {flow : FlowClient Board} {device : Board} {script : Text}
    {awaited : Awaited} {resumption : Resumption} {request : ExecutionRequest}
    (returns : Returns flow device script awaited resumption)
    (asks : awaited.instruction = some request) : request.final = false := by
  cases returns with
  | exec other built more =>
    cases asks
    exact more
  | execRecv other built actions upload read single sized =>
    cases asks
    obtain ⟨script, size, final, keys, offset, made⟩ := built
    cases exec_recv_request _ _ _ _ _ _ made
    rfl

/-- A board that has been sent lines waits behind them, for a continuation under the name that the
script gives. What the lines do is a parameter. -/
theorem spoken_performed (base : Nat) (plain : PlainSession session token cmdtftp cmdtftpput rambase)
    (loose : Loose rambase) (fetches : cmdtftp ∉ ["echo".toList, "true".toList])
    (lines keys : List Text) (function : Board → Board) (performs : Performs hardware lines function)
    (firm : Firm (Text.joinLines lines)) (words : ∀ key ∈ keys, Word key) (tmpName text : Text)
    (written : sentScript token tmpName session (spoken lines keys) = .ok text) (device : Board)
    (bytes : Bytes) : ∃ asked,
      ((device.load base bytes).source hardware (ensureNewline text)).state.store =
        { function (device.load base bytes) with waiting := some asked } :=
  ⟨_, (exec_performed hardware plain loose fetches lines function performs firm keys words tmpName text
    written (device.load base bytes)).2⟩

/-- A board that is unharmed and waits. -/
theorem Unharmed.awaits {before later : Board} (unharmed : Unharmed rambase before later)
    (ready : Ready before rambase base) (asked : List Text) :
    { later with waiting := some asked }.flash = before.flash ∧
      Ready { later with waiting := some asked } rambase base :=
  ⟨unharmed.flash, ready.kept unharmed.tidy unharmed.loads⟩

/-- Operations that keep the variables and the flash keep the board ready behind them; what it
offers is the memory that they leave. -/
theorem received_operations (plain : PlainSession session token cmdtftp cmdtftpput rambase)
    (loose : Loose rambase) (fetches : cmdtftp ∉ ["echo".toList, "true".toList])
    (sends : cmdtftpput ∉ ["echo".toList, "true".toList]) (bounded : base < 2 ^ hardware.wordSize)
    (program : List (Operation × (Nat × Nat))) (size : Nat) (tmpName : Text)
    (fresh : Word tmpName) (temporary : Temporary tmpName) (text : Text)
    (written : sentScript token tmpName session
      (received (operationLines session rambase program) size) = .ok text)
    (board : Board) (ready : Ready board rambase base)
    (possible : Possible hardware session rambase program board.view)
    (values : (outcome program board.view).values = board.values.get)
    (flash : (outcome program board.view).flash = board.flash) :
    ∃ store, (board.source hardware (ensureNewline text)).state.store = store ∧
      store.flash = board.flash ∧ Ready store rambase base ∧
      ∀ count, store.readOut count = window base count (outcome program board.view).memory := by
  have solid : ∀ character ∈ tmpName, Text.isSpace character = false :=
    fun character member => TestClient.command_char_solid character (fresh.2 character member)
  have addressed := ready.addressed hardware loose plain.braceless 0 bounded
    (outcome program board.view) (congrFun values rambase)
  obtain ⟨later, address, shows, located, asks, -⟩ := receive_carried_out hardware plain loose
    program fetches sends size [] (by simp) none _ rfl tmpName (scratch_word fresh temporary) solid text
    written board board.view ready.shows possible base addressed
  have kept := ready.shown shows (congrFun values rambase)
  refine ⟨_, asks, shows.flash.trans flash, kept.kept (fun _ _ => rfl) rfl, fun count => ?_⟩
  · simp only [Board.readOut, located, Option.map_some, Option.getD_some, shows.memory]
    rfl

/-- A board that is sent the lines of `uboot_nor_download` offers the first bytes of its flash. The
memory is filled and the flash read over it, so behind the script the first bytes of the flash stand
at the base and are what is sent. The flash itself is unchanged. -/
theorem download_offers (hardware : Hardware) (base : Nat)
    (plain : PlainSession session token cmdtftp cmdtftpput rambase)
    (loose : Loose rambase) (fetches : cmdtftp ∉ ["echo".toList, "true".toList])
    (sends : cmdtftpput ∉ ["echo".toList, "true".toList]) (bounded : base < 2 ^ hardware.wordSize)
    (present : hardware.capacity ≠ 0) (size : Nat) (inside : size ≤ hardware.capacity)
    (fill read : Nat) (front back : List (Text × ColorName × Bool × Bool))
    (even : ∀ entry ∈ front ++ back, QuotedWords.EvenBefore '\\' '"' entry.1) (tmpName : Text)
    (fresh : Word tmpName) (temporary : Temporary tmpName) (text : Text)
    (written : sentScript token tmpName session
      (received (ubootNorDownload (expansion rambase) fill read size
        (operationLines session rambase (messages front))
        (operationLines session rambase (messages back))) size) = .ok text)
    (board : Board) (ready : Ready board rambase base) : ∃ store,
      (board.source hardware (ensureNewline text)).state.store = store ∧
        store.flash = board.flash ∧ Ready store rambase base ∧
        store.readOut size = window 0 size board.flash := by
  rw [download_operations session rambase base fill read size front back] at written
  have effect := download_outcome base fill read size front back board.view
  have possible := download_possible hardware session rambase loose plain.braceless base fill read size
    board ready bounded present inside front back even
  obtain ⟨store, asks, flash, kept, offers⟩ := received_operations plain loose fetches sends bounded
    (downloadProgram base fill read size front back) size tmpName fresh temporary text written board
    ready possible (by rw [effect]; rfl) (by rw [effect]; rfl)
  refine ⟨store, asks, flash, kept, ?_⟩
  rw [offers, effect]
  refine (Overlays.window_replaced base size _ _).trans (List.map_congr_left fun place _ => ?_)
  rw [Nat.zero_add]
  rfl

/-- A board that is sent the export puts its variables at its load address, which is where the next
script is loaded too. -/
theorem export_performed (plain : PlainSession session token cmdtftp cmdtftpput rambase)
    (loose : Loose rambase) (fetches : cmdtftp ∉ ["echo".toList, "true".toList])
    (tmpName text : Text)
    (written : sentScript token tmpName session
      (spoken ["env export -t ".toList ++ expansion rambase] ["filesize".toList]) = .ok text)
    (device : Board) (bytes : Bytes) (ready : Ready (device.load base bytes) rambase base) : ∃ asked,
      ((device.load base bytes).source hardware (ensureNewline text)).state.store =
        { (BoardCommand.exportText base).exec hardware (device.load base bytes) with
          waiting := some asked } := by
  let line := "env export -t ".toList ++ expansion rambase
  have joined : Text.joinLines [line] = line := List.intercalate_singleton
  have firm : Firm line := by
    have shape : line = ("env export -t ".toList ++ '$' :: Char.ofNat 0x7B :: rambase) ++
        [Char.ofNat 0x7D] := (List.append_assoc _ _ _).symm
    rw [shape]
    exact (firm_solid _ (List.forall_mem_singleton.mpr (by decide))).behind _ (by decide)
  have stripped : Text.rstrip (Text.joinLines [line]) = line := by
    rw [joined, firm.stripped]
  have ran : Board.execWords hardware (exportWords rambase) (device.load base bytes) =
      (BoardCommand.exportText base).exec hardware (device.load base bytes) :=
    exec_known rfl _ _ (export_words_read loose plain.braceless _ base ready.number)
  refine ⟨_, exec_reaches hardware plain loose fetches (Text.joinLines [line])
    [.command (exportWords rambase)] (stripped.symm ▸ export_reads loose) ["filesize".toList]
    (by decide +kernel) tmpName text written (device.load base bytes) _ rfl fun rest => ?_⟩
  have follows := follow_commands hardware [exportWords rambase] rest [] (device.load base bytes)
    (by rw [CodeRefinement.run, CodeRefinement.run, ran]; rfl)
  rw [CodeRefinement.run, CodeRefinement.run, ran] at follows
  exact follows

/-- A board that is sent the image to write holds it in its flash. Between the two the board has
loaded the image of the script over its memory, which does not matter here: the image to write is
fetched afterwards. -/
theorem restore_performed (around : Surroundings) (filename : Text) (body : Bytes)
    (plain : PlainSession session token cmdtftp cmdtftpput rambase) (loose : Loose rambase)
    (fetches : cmdtftp ∉ ["echo".toList, "true".toList]) (tmpName text : Text)
    (written : sentScript token tmpName session
      (spoken (restoreLines around (expansion rambase) session.serverIp filename body.length) []) =
        .ok text)
    (board : Board) (ready : Ready board rambase base) (apart : rambase ≠ "filesize".toList)
    (possible : Possible hardware session rambase (restoreProgram around base filename body)
      board.view) : ∃ store,
      (board.source hardware (ensureNewline text)).state.store = store ∧
        store.flash = replaced 0 body.length (fun place => body.getD place 0) board.flash ∧
        Ready store rambase base := by
  rw [restore_operations around base filename body session rambase] at written
  obtain ⟨later, shows, asks⟩ := exec_carried_out hardware plain loose _ fetches [] (by simp) _
    rfl tmpName text written board board.view ready.shows possible
  have values : (outcome (restoreProgram around base filename body) board.view).values rambase =
      board.values.get rambase := if_neg apart
  have kept := ready.shown shows values
  refine ⟨_, asks, shows.flash.trans (restored_flash around base filename body board.view), ?_⟩
  exact kept.kept (fun _ _ => rfl) rfl

end Steps

end UbootTftp
