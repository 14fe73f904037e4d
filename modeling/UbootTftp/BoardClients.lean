import UbootTftp.LoopConversations
import UbootTftp.SentScripts

/-!
# A board as a client

The simulated client finds the transfers of a script with expressions and runs nothing; a board
runs the script and comes to its transfers. For scripts of operations both ask for the same
names, if the environment of the simulated client has the values of the board's variables. So a
board is described as a client of the same kind, whose state is that of the board; that a server
accepts the names that it asks for is not stated here.
-/

namespace UbootTftp

open Overlays (replaced window)
open TestClient

universe u
variable {κ : Type u}

/-- A board that has loaded the image of a script: the bytes are in its memory, and the size of the
file is in a variable. What it has waited for is over. -/
def Board.load (base : Nat) (image : Bytes) (board : Board) : Board :=
  { board with
    memory := replaced base image.length (fun place => image.getD place 0) board.memory
    values := board.values.set "filesize".toList (Nat.toDigits 16 image.length)
    status := 0
    waiting := none }

/-- What a board sends when it waits for an upload: the memory at the address that it names. -/
def Board.readOut (board : Board) (size : Nat) : Bytes :=
  match board.waiting with
  | some (_ :: address :: _) => ((boardNumber address).map (window · size board.memory)).getD []
  | _ => []

/-- A board that loads the images of scripts to an address and runs them, as a client of the kind
that the loop of the server is proved about. -/
def boardClient (hardware : Hardware) (base : Nat) (image : Text → Bytes) (isWord : Char → Bool)
    (peer : Text × Nat) (rounds : Nat) : FlowClient Board where
  isWord := isWord
  peer := peer
  rounds := rounds
  update := fun script board => ((board.load base (image script)).source hardware script).state.store
  reported := Board.report
  substitute := fun board name => expandFrom board.values.get board.status .text name
  payload := fun board upload => board.readOut upload.size.toNat

section Agreement

/-- An environment that has the values of a board for keys. The simulated client substitutes them
where the board expands its variables. -/
def Mirrors (env : Dict Text Text) (keys : List Text) (board : Board) : Prop :=
  ∀ key ∈ keys, env.get key = some (board.report key)

/-- A word with the mark of temporary variables is one. -/
theorem scratch_word {name : Text} (word : Word name) (temporary : Temporary name) : Scratch name :=
  ⟨temporary, word_constant word, word.foreign ':' (by decide), word.foreign _ (by decide)⟩

/-- The names that are asked for with the same values are the same. -/
theorem mirrored_path (client : ClientId) (token : Text) (status : Option Text) (keys : List Text)
    (env : Dict Text Text) (board : Board) (mirrors : Mirrors env keys board) :
    continuePath client token status keys (fun key => (env.get key).getD (expansion key)) =
      continuePath client token status keys board.report := by
  have same : keys.map (fun key => key ++ '=' :: (env.get key).getD (expansion key)) =
      keys.map (fun key => key ++ '=' :: board.report key) :=
    List.map_congr_left fun key member => by rw [mirrors key member, Option.getD_some]
  rw [continuePath, continuePath, continueSegments, continueSegments, same]

/-- A board that is sent operations carries them out, and asks for what the simulated client asks
for with the values of the board: from `exec` the continuation; from `exec_recv` it offers the
upload that the simulated client finds, from the load address and the offset on, and behind a
successful one the continuation that the simulated client prefers.

The operations have to be possible on the board, one after the other, and their texts must not look
like a transfer to the expressions of the simulated client. What the server makes of the names is
not stated here. -/
theorem board_follows_flow (hardware : Hardware) (isWord : Char → Bool) (blank : isWord ' ' = false)
    (session : ClientSession κ) (token cmdtftp cmdtftpput rambase : Text)
    (plain : PlainSession session token cmdtftp cmdtftpput rambase) (loose : Loose rambase)
    (clear : Sequences.Clear [":id=".toList] rambase)
    (fetches : cmdtftp ∉ ["echo".toList, "true".toList])
    (sends : cmdtftpput ∉ ["echo".toList, "true".toList]) (program : List (Operation × (Nat × Nat)))
    (inert : Inert (joinScriptLines (.lines (operationLines session rambase program))))
    (keys : List Text) (words : ∀ key ∈ keys, Word key) (tmpName : Text) (fresh : Word tmpName)
    (temporary : Temporary tmpName) (board : Board) (view : BoardView)
    (shows : Shows [] { board with waiting := none } view)
    (possible : Possible hardware session rambase program view) (request : ExecutionRequest)
    (text : Text) (written : sentScript token tmpName session request = .ok text) :
    (exec (.lines (operationLines session rambase program)) false keys = .ok request →
      ∃ later actions, Shows [] later (outcome program view) ∧
        parseFlowActions isWord (ensureNewline text) = some actions ∧ actions.uploads = [] ∧
        ∀ env, Mirrors env keys later → ∃ remote,
          chooseNextRemote actions env none = some remote ∧
          (board.source hardware (ensureNewline text)).state.store = { later with
            waiting := some [cmdtftp, later.report rambase, session.serverIp ++ ':' :: remote] }) ∧
    ∀ (size : Nat) (offset : Option Nat) (base : Nat),
      execRecv (.lines (operationLines session rambase program)) size false keys
        (offset.map fun number : Nat => UbootNumber.int number) = .ok request →
      Operation.Addressed hardware (expansion rambase) (outcome program view) ⟨none, base⟩
        (offset.getD 0) →
      ∃ later address actions upload,
        Shows (offset.map fun _ => tmpName).toList later (outcome program view) ∧
        boardNumber address = some (base + offset.getD 0) ∧
        parseFlowActions isWord (ensureNewline text) = some actions ∧
        actions.uploads = [upload] ∧ upload.size = size ∧
        (board.source hardware (ensureNewline text)).state.store = { later with
          waiting := some [cmdtftpput, address, Text.hex size,
            session.serverIp ++ ':' :: upload.remote] } ∧
        ∀ env, Mirrors env keys later → ∃ remote,
          chooseNextRemote actions env (some "ok".toList) = some remote ∧
          ((board.source hardware (ensureNewline text)).proceed hardware 0).state.store =
            { later with
              status := 0
              waiting := some [cmdtftp, later.report rambase,
                session.serverIp ++ ':' :: remote] } := by
  constructor
  · intro made
    obtain ⟨later, shown, asks⟩ := exec_carried_out hardware plain loose program fetches keys words
      request made tmpName text written board view shows possible
    obtain ⟨other, sent, again, built, read⟩ := exec_read plain clear isWord blank
      (.lines (operationLines session rambase program)) inert keys words tmpName
    cases made.symm.trans again
    cases written.symm.trans built
    refine ⟨later, _, shown, read, rfl, fun env mirrors => ⟨_, ?_, asks⟩⟩
    rw [← mirrored_path session.clientId token none keys env later mirrors]
    exact congrArg some (substitute_path plain none (by decide) keys words env)
  · intro size offset base made addressed
    have solid : ∀ character ∈ tmpName, Text.isSpace character = false := fun character member =>
      command_char_solid character (fresh.2 character member)
    obtain ⟨later, address, shown, located, asks, goes⟩ := receive_carried_out hardware plain loose
      program fetches sends size keys words offset request made tmpName (scratch_word fresh temporary)
      solid text written board view shows possible base addressed
    obtain ⟨other, sent, again, built, read, chosen⟩ := TestClient.receive_read plain clear isWord blank
      (.lines (operationLines session rambase program)) inert keys words tmpName fresh size
      (Int.natCast_nonneg size) (offset.map fun number : Nat => UbootNumber.int number)
      (by cases offset <;> simp)
    cases made.symm.trans again
    cases written.symm.trans built
    refine ⟨later, address, _, _, shown, located, read, rfl, rfl, asks, fun env mirrors =>
      ⟨_, ?_, goes 0⟩⟩
    rw [if_pos rfl, ← mirrored_path session.clientId token _ keys env later mirrors]
    exact chosen env

/-- A board with a flash of sixteen bytes in sectors of four. -/
def sampleHardware : Hardware := ⟨32, 16, 4, fun _ => none⟩

/-- Its flash holds the numbers of its places. -/
def sampleBoard : Board where
  values := Dict.ofList [("loadaddr".toList, "42000000".toList)]
  memory := fun _ => 0
  flash := UInt8.ofNat
  probed := false
  status := 0
  waiting := none

/-- What is seen of the sample board. -/
def sampleView : BoardView := ⟨sampleBoard.values.get, sampleBoard.memory, sampleBoard.flash⟩

/-- The sample board is shown. -/
theorem sample_shows : Shows [] sampleBoard sampleView := by
  refine ⟨rfl, rfl, fun _ _ => rfl, fun name temporary _ => ?_, rfl⟩
  have other : name ≠ "loadaddr".toList := by
    rintro rfl
    exact absurd temporary (by decide)
  exact Dict.get_set_other Dict.empty _ _ _ other

/-- The load address of the sample board. -/
theorem sample_addressed (view : BoardView)
    (holds : view.values "loadaddr".toList = some "42000000".toList) :
    Operation.Addressed sampleHardware (expansion "loadaddr".toList) view ⟨none, 0x42000000⟩ 0 :=
  ⟨.held _ _ (by decide) (by decide) (by decide) holds (by decide), by decide⟩

/-- A script that fills four bytes and reads four of the flash over them. -/
def sampleProgram : List (Operation × (Nat × Nat)) :=
  [(.memset 0 0xFF 4 ⟨none, 0x42000000⟩, (0, 0)), (.norRead 0 0 4 ⟨none, 0x42000000⟩, (1, 0))]

/-- It can be run on the sample board. -/
theorem sample_possible (session : ClientSession κ) :
    Possible sampleHardware session "loadaddr".toList sampleProgram sampleView :=
  ⟨sample_addressed _ rfl, ⟨sample_addressed _ rfl, by decide, by decide⟩, trivial⟩

/-- The session of the sample client. -/
def sampleSession : ClientSession Unit :=
  openedSession imagingServer.provider (sampleRequest "id=cam")
    ⟨"id=cam".toList, some sampleClient, ['/'], [], Dict.empty⟩ sampleClient ['t']

/-- A board that is sent the sample script offers the first bytes of its flash under the name
that the simulated client finds. -/
theorem board_follows_flow_sample : ∃ (text : Text) (later : Board) (address : Text)
    (actions : FlowActions) (upload : UploadAction),
    (sampleBoard.source sampleHardware (ensureNewline text)).state.store = { later with
      waiting := some ["tftpput".toList, address, "0x4".toList,
        "10.0.0.1".toList ++ ':' :: upload.remote] } ∧
    parseFlowActions isCommandChar (ensureNewline text) = some actions ∧
    actions.uploads = [upload] ∧
    boardNumber address = some 0x42000000 ∧ window 0x42000000 4 later.memory = [0, 1, 2, 3] := by
  have plain : PlainSession sampleSession ['t'] "tftpboot".toList "tftpput".toList
      "loadaddr".toList := imaging_setting.plain 0
  obtain ⟨later, address, actions, upload, shown, located, read, single, -, asks, -⟩ :=
    (board_follows_flow sampleHardware isCommandChar (by decide) sampleSession _ _ _ _ plain
      (by decide) (List.forall_mem_singleton.mpr (by decide)) (by decide) (by decide) sampleProgram
      (by decide +kernel) ["status".toList] (List.forall_mem_singleton.mpr (by decide))
      "__uboot_tftp_recv_h".toList (by decide) (by decide) sampleBoard sampleView sample_shows
      (sample_possible sampleSession) _ _ rfl).2 4 none 0x42000000 rfl (sample_addressed _ rfl)
  refine ⟨_, later, address, actions, upload, asks, read, single, located, ?_⟩
  rw [shown.memory]
  decide +kernel

end Agreement

end UbootTftp
