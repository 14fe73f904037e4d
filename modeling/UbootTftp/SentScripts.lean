import UbootTftp.SentLines

/-!
# The scripts that are sent, on a board

A board carries out the lines of a handler, and then asks for just the name that the server
waits for, with the values that its variables have by then; and behind an upload for that of its
outcome.
-/

namespace UbootTftp

open CodeRefinement (run effects Admits)
open ConditionalScripts (Line Frame)
open TestClient (Word PlainSession)

universe u
variable {κ : Type u}

/-- What a board puts in for a variable. -/
def Board.report (board : Board) (key : Text) : Text := (board.values.get key).getD []

section Requests

variable (hardware : Hardware)

/-- Commands at the front of a script, and one that asks the server, after which the board waits
with the lines that are left. -/
theorem follow_asks (commands : List (List Text)) (words asked : List Text)
    (rest : List (Line (List Text) Unit)) (frames : List Frame) (board : Board)
    (idle : (run (Board.execWords hardware) commands board).waiting = none)
    (read : readCommand ((run (Board.execWords hardware) commands board).expandWords words) =
      some (.request asked)) :
    Board.follow hardware (commands.map .command ++ .command words :: rest) ⟨true, frames, board⟩ =
      ⟨⟨true, frames, { run (Board.execWords hardware) commands board with waiting := some asked }⟩,
        rest⟩ := by
  have unbound : ¬(run (Board.execWords hardware) commands board).waiting.isSome := by simp [idle]
  rw [follow_commands hardware commands _ frames board idle, Board.follow, if_neg unbound]
  simp only [ConditionalScripts.step, if_true, exec_known idle words _ read, BoardCommand.exec]
  exact follow_waiting hardware rest _ rfl

/-- A branch that is not taken is passed over. -/
theorem follow_passes (cmdtftp rambase serverIp path : Text) (rest : List (Line (List Text) Unit))
    (frames : List Frame) (board : Board) (idle : board.waiting = none) :
    Board.follow hardware (continueLines cmdtftp rambase serverIp path ++ rest)
        ⟨false, frames, board⟩ =
      Board.follow hardware rest ⟨false, frames, board⟩ := by
  have unbound : ¬board.waiting.isSome := by simp [idle]
  simp only [continueLines, List.cons_append, List.nil_append, Board.follow, if_neg unbound,
    ConditionalScripts.step, Bool.false_and, Bool.false_eq_true, if_false]

/-- What asks for a name of a session is a request. -/
theorem read_request (command : Text) (words : List Text)
    (foreign : command ∉ ["echo".toList, "true".toList]) (asks : asksSession words = true) :
    readCommand (command :: words) = some (.request (command :: words)) := by
  simp only [List.mem_cons, List.not_mem_nil, or_false] at foreign
  rw [readCommand, if_neg foreign, if_pos asks]

/-- A name of a session has its mark. -/
theorem asks_session (words : List Text) (serverIp : Text) (client : ClientId)
    (segments : List Text) :
    asksSession (words ++ [serverIp ++ ':' :: sessionPath client segments]) = true := by
  have mark : ":id=".toList = ':' :: "id=".toList := rfl
  rw [asksSession, List.getLast?_concat, Option.getD_some, TestClient.session_path_name, Sequences.occurs,
    List.any_eq_true]
  refine ⟨':' :: ("id=".toList ++ TestClient.remoteName client segments), ?_, ?_⟩
  · exact (List.mem_tails _ _).mpr ⟨serverIp, rfl⟩
  · rw [List.isPrefixOf_iff_prefix, mark]
    exact ⟨TestClient.remoteName client segments, rfl⟩

variable {session : ClientSession κ} {token cmdtftp cmdtftpput rambase : Text}

/-- The words of a continuation with the values of the variables: the name in them is the one that
the server gives for these values. -/
theorem expand_request (plain : PlainSession session token cmdtftp cmdtftpput rambase)
    (loose : Loose rambase) (status : Option Text) (written : status ∈ recvStatuses)
    (keys : List Text) (words : ∀ key ∈ keys, Word key) (board : Board) :
    board.expandWords (requestWords cmdtftp rambase session.serverIp
        (continuePath session.clientId token status keys expansion)) =
      [cmdtftp, board.report rambase, session.serverIp ++ ':' ::
        continuePath session.clientId token status keys board.report] := by
  simp only [Board.expandWords, requestWords, List.map_cons, List.map_nil,
    (word_constant plain.fetching).expanded, expand_variable _ _ rambase loose plain.braceless]
  rw [expand_target plain status written keys words]
  rfl

/-- The words that read out memory with the values of the variables. -/
theorem expand_send (plain : PlainSession session token cmdtftp cmdtftpput rambase)
    (address : Text) (loose : Loose address) (closed : Char.ofNat 0x7D ∉ address) (size : Nat)
    (board : Board) :
    board.expandWords (sendWords cmdtftpput address session.serverIp
        (uploadPath session.clientId token) size) =
      [cmdtftpput, board.report address, Text.hex size, session.serverIp ++ ':' ::
        uploadPath session.clientId token] := by
  simp only [Board.expandWords, sendWords, List.map_cons, List.map_nil,
    (word_constant plain.sending).expanded, expand_variable _ _ address loose closed,
    (constant_hex size).expanded]
  rw [bare_quoted _ (upload_without plain '"' (by decide)) (upload_without plain '\\' (by decide)),
    expand_constant _ _ _ (upload_without plain '$' (by decide))]
  rfl

end Requests

section Sending

/-- The variable that takes the address of an upload. -/
def sendName (rambase tmpName : Text) : Option Nat → Text
  | none => rambase
  | some _ => tmpName

/-- The commands that set it. -/
def sendSetting (rambase tmpName : Text) : Option Nat → List (List Text)
  | none => []
  | some offset => [["setexpr".toList, tmpName, expansion rambase, ['+'], Text.hex offset]]

/-- The commands that clear it. -/
def sendClearing (tmpName : Text) : Option Nat → List (List Text)
  | none => []
  | some _ => [["setenv".toList, tmpName]]

/-- The line that sets it. -/
def sendSettingText (rambase tmpName : Text) : Option Nat → Text
  | none => []
  | some offset =>
    "setexpr ".toList ++ tmpName ++ ' ' :: expansion rambase ++ " + ".toList ++ Text.hex offset

/-- The line that clears it. -/
def sendClearingText (tmpName : Text) : Option Nat → Text
  | none => []
  | some _ => "setenv ".toList ++ tmpName

/-- The text that reads out memory and goes on with the outcome. -/
def receiveText (cmdtftpput address serverIp path success failure : Text) (size : Nat) : Text :=
  "if ".toList ++ cmdtftpput ++ ' ' :: expansion address ++ ' ' :: Text.hex size ++ " \"".toList ++
    serverIp ++ ':' :: path ++ "\";\nthen\n    ".toList ++ success ++ "\nelse\n    ".toList ++
    failure ++ "\nfi".toList

end Sending

section Lines

variable {session : ClientSession κ} {token cmdtftp cmdtftpput rambase : Text}
  (plain : PlainSession session token cmdtftp cmdtftpput rambase) (loose : Loose rambase)

/-- The text of a continuation. -/
def continuationText (cmdtftp rambase serverIp path : Text) : Text :=
  "if ".toList ++ cmdtftp ++ ' ' :: expansion rambase ++ " \"".toList ++ serverIp ++ ':' :: path ++
    "\"; then source ".toList ++ expansion rambase ++
    "; else echo \"uboot-tftp: continuation RRQ failed\"; fi".toList

/-- It ends with a word. -/
theorem continuation_firm (cmdtftp rambase serverIp path : Text) :
    Firm (continuationText cmdtftp rambase serverIp path) := by
  refine Firm.behind _ (fun last ends => ?_) (by decide +kernel)
  have same : some last = some 'i' := ends.symm.trans (by decide +kernel)
  rw [Option.some.inj same]
  decide

include plain loose

/-- The continuation of a session is read as a conditional request. -/
theorem continuation_lines (blanks : Nat) (status : Option Text) (written : status ∈ recvStatuses)
    (keys : List Text) (words : ∀ key ∈ keys, Word key) :
    ReadsLines (List.replicate blanks ' ' ++ continuationText cmdtftp rambase session.serverIp
        (continuePath session.clientId token status keys expansion))
      (continueLines cmdtftp rambase session.serverIp
        (continuePath session.clientId token status keys expansion)) :=
  continuation_read blanks cmdtftp rambase session.serverIp _ plain.fetching loose
    (target_without plain status written keys words '"' (by decide))
    (target_without plain status written keys words '\\' (by decide))

/-- The lines of what `exec` sends. They are those of the script and the four lines of the
continuation, because blanks at the end of the script are stripped. -/
theorem exec_lines (script : Text) (lines : List (Line (List Text) Unit))
    (reads : Reads (Text.rstrip script) lines) (keys : List Text) (words : ∀ key ∈ keys, Word key)
    (tmpName text : Text)
    (written : sentScript token tmpName session ⟨script, false, none, keys, none⟩ = .ok text) :
    scriptLines (ensureNewline text) = lines ++ continueLines cmdtftp rambase session.serverIp
      (continuePath session.clientId token none keys expansion) := by
  have built := continue_command_eq { session with currentToken := some token, phase := .awaitRrq }
    token cmdtftp rambase rfl plain.fetches plain.loads none keys
  have shape : text = Text.joinLines [Text.rstrip script, continuationText cmdtftp rambase
      session.serverIp (continuePath session.clientId token none keys expansion)] := by
    simp only [sentScript, appendContinue, built, Bool.false_eq_true, if_false] at written
    exact (Except.ok.inj written).symm
  have firm : Firm text := by
    rw [shape]
    exact .joined _ (List.forall_mem_cons.mpr ⟨firm_stripped script,
      List.forall_mem_singleton.mpr (continuation_firm _ _ _ _)⟩)
  have read := Reads.lines Prod.fst Prod.snd [(Text.rstrip script, lines),
    (continuationText cmdtftp rambase session.serverIp
      (continuePath session.clientId token none keys expansion),
      continueLines cmdtftp rambase session.serverIp
        (continuePath session.clientId token none keys expansion))]
    (List.forall_mem_cons.mpr ⟨reads, List.forall_mem_singleton.mpr
      (continuation_lines plain loose 0 none (by decide) keys words '\n' rfl)⟩)
  simp only [List.map_cons, List.map_nil, List.flatMap_cons, List.flatMap_nil, List.append_nil] at read
  rw [firm.ensured, shape, read]
  exact List.append_nil _

omit plain loose in
/-- The lines around an upload are read as their commands and end with words. Without an offset
there are none, and with one there are two, the sum in front of the upload and the clearing behind
it. -/
theorem send_lines (loose : Loose rambase) (offset : Option Nat) (tmpName : Text)
    (scratch : Scratch tmpName) (solid : ∀ character ∈ tmpName, Text.isSpace character = false) :
    (Reads (sendSettingText rambase tmpName offset)
        ((sendSetting rambase tmpName offset).map .command) ∧
      Firm (sendSettingText rambase tmpName offset)) ∧
    Reads (sendClearingText tmpName offset) ((sendClearing tmpName offset).map .command) ∧
      Firm (sendClearingText tmpName offset) := by
  cases offset with
  | none =>
    have nothing : Firm [] := fun last ends => by cases ends
    exact ⟨⟨(reads_nothing _).mpr rfl, nothing⟩, (reads_nothing _).mpr rfl, nothing⟩
  | some offset =>
    have summed := sum_line tmpName (expansion rambase) (Text.hex offset)
    have sumReads := reads_written (sendSetting rambase tmpName (some offset)) (by simp [sendSetting])
      (List.forall_mem_singleton.mpr (sum_written scratch offset _ (raw_expansion rambase loose)))
    have clearReads := reads_written (sendClearing tmpName (some offset)) (by simp [sendClearing])
      (List.forall_mem_singleton.mpr (clear_written scratch))
    simp only [sendSetting, sendClearing, List.map_cons, List.map_nil, snippet,
      List.intercalate_singleton, ← summed, ← clear_line] at sumReads clearReads
    exact ⟨⟨sumReads, firm_number _ offset⟩, clearReads,
      (firm_solid _ solid).behind _ scratch.constant.present⟩

/-- The lines of what `exec_recv` sends. They are those of the script, the address of the upload,
the conditional with its two continuations and the clearing of the address. -/
theorem receive_lines (script : Text) (lines : List (Line (List Text) Unit))
    (reads : Reads (Text.rstrip script) lines) (size : Nat) (keys : List Text)
    (words : ∀ key ∈ keys, Word key) (offset : Option Nat) (tmpName : Text)
    (scratch : Scratch tmpName) (solid : ∀ character ∈ tmpName, Text.isSpace character = false)
    (text : Text)
    (written : sentScript token tmpName session ⟨script, false, some size, keys,
      offset.map fun number : Nat => UbootNumber.int number⟩ = .ok text) :
    scriptLines (ensureNewline text) = lines ++ ((sendSetting rambase tmpName offset).map .command ++
      (receiveLines cmdtftp cmdtftpput rambase (sendName rambase tmpName offset) session.serverIp
        (uploadPath session.clientId token)
        (continuePath session.clientId token (some "ok".toList) keys expansion)
        (continuePath session.clientId token (some "failed".toList) keys expansion) size ++
      (sendClearing tmpName offset).map .command)) := by
  have loads : lookupEnv session.env "rambase".toList = .ok rambase := by
    simp only [lookupEnv, plain.loads]
  let waiting : ClientSession κ := { session with
    currentToken := some token
    pendingReceive := some ⟨token, "/upload.bin".toList, size, none⟩
    phase := .awaitUpload }
  have placed : receiveAddress waiting tmpName
      (offset.map fun number : Nat => UbootNumber.int number) =
        .ok (expansion (sendName rambase tmpName offset), sendSettingText rambase tmpName offset,
          sendClearingText tmpName offset) := by
    simp only [receiveAddress, waiting, loads]
    cases offset <;> rfl
  have built (status : Option Text) := continue_command_eq waiting token cmdtftp rambase rfl
    plain.fetches plain.loads status keys
  have sent : sentScript token tmpName session ⟨script, false, some size, keys,
      offset.map fun number : Nat => UbootNumber.int number⟩ =
      .ok (Text.joinLines [Text.rstrip script, sendSettingText rambase tmpName offset,
      receiveText cmdtftpput (sendName rambase tmpName offset) session.serverIp
        (uploadPath session.clientId token)
        (continuationText cmdtftp rambase session.serverIp
          (continuePath session.clientId token (some "ok".toList) keys expansion))
        (continuationText cmdtftp rambase session.serverIp
          (continuePath session.clientId token (some "failed".toList) keys expansion)) size,
      sendClearingText tmpName offset]) := by
    have sends : lookupEnv waiting.env "cmdtftpput".toList = .ok cmdtftpput := by
      simp only [lookupEnv, waiting, plain.sends]
    have expecting : waiting.pendingReceive =
        some ⟨token, "/upload.bin".toList, size, none⟩ := rfl
    change appendReceive (Text.rstrip script) waiting tmpName keys _ = _
    simp only [appendReceive, expecting, built, sends, placed]
    rw [upload_path_eq]
    rfl
  have shape := Except.ok.inj (written.symm.trans sent)
  obtain ⟨⟨setReads, setFirm⟩, clearReads, clearFirm⟩ :=
    send_lines loose offset tmpName scratch solid
  have address : Loose (sendName rambase tmpName offset) := by
    cases offset with
    | none => exact loose
    | some offset => exact scratch.constant.loose
  have received := receive_read cmdtftp cmdtftpput rambase (sendName rambase tmpName offset)
    session.serverIp (uploadPath session.clientId token) _ _ size _ _ plain.sending address
    (upload_without plain '"' (by decide)) (upload_without plain '\\' (by decide))
    (continuation_lines plain loose 4 (some "ok".toList) (by decide) keys words)
    (continuation_lines plain loose 4 (some "failed".toList) (by decide) keys words)
  have ends : Firm "\nfi".toList := fun last ends => by
    have same : some last = some 'i' := ends.symm.trans rfl
    rw [Option.some.inj same]
    decide
  have firm : Firm text := by
    rw [shape]
    refine .joined _ ?_
    simp only [List.forall_mem_cons, List.not_mem_nil, false_imp_iff, implies_true, and_true]
    exact ⟨firm_stripped script, setFirm, ends.behind _ (by simp), clearFirm⟩
  have read := Reads.lines Prod.fst Prod.snd [(Text.rstrip script, lines),
    (sendSettingText rambase tmpName offset, (sendSetting rambase tmpName offset).map .command),
    (receiveText cmdtftpput (sendName rambase tmpName offset) session.serverIp
        (uploadPath session.clientId token)
        (continuationText cmdtftp rambase session.serverIp
          (continuePath session.clientId token (some "ok".toList) keys expansion))
        (continuationText cmdtftp rambase session.serverIp
          (continuePath session.clientId token (some "failed".toList) keys expansion)) size, _),
    (sendClearingText tmpName offset, (sendClearing tmpName offset).map .command)]
    (List.forall_mem_cons.mpr ⟨reads, List.forall_mem_cons.mpr ⟨setReads, List.forall_mem_cons.mpr
      ⟨received '\n' rfl, List.forall_mem_singleton.mpr clearReads⟩⟩⟩)
  simp only [List.map_cons, List.map_nil, List.flatMap_cons, List.flatMap_nil, List.append_nil] at read
  rw [firm.ensured, shape, read]
  exact List.append_nil _

end Lines

section Boards

variable (hardware : Hardware) {session : ClientSession κ}
  {token cmdtftp cmdtftpput rambase : Text}
  (plain : PlainSession session token cmdtftp cmdtftpput rambase) (loose : Loose rambase)
  (program : List (Operation × (Nat × Nat)))

/-- The lines of operations for a session. -/
def operationLines (session : ClientSession κ) (rambase : Text)
    (program : List (Operation × (Nat × Nat))) : List Text :=
  program.map fun part => part.1.script (expansion rambase) session.serverIp part.2

/-- A program can be carried out from a view of a board. -/
def Possible (hardware : Hardware) (session : ClientSession κ) (rambase : Text)
    (program : List (Operation × (Nat × Nat))) (view : BoardView) : Prop :=
  Admits (fun part => part.1.Possible hardware (expansion rambase) session.serverIp)
    (fun part => part.1.effect) program view

/-- What a program does. -/
def outcome (program : List (Operation × (Nat × Nat))) (view : BoardView) : BoardView :=
  effects (fun part => part.1.effect) program view

/-- The joined lines of operations are stripped of nothing. -/
theorem operations_stripped (session : ClientSession κ) (rambase : Text) :
    Text.rstrip (joinScriptLines (.lines (operationLines session rambase program))) =
      Text.joinLines (operationLines session rambase program) := by
  refine (Firm.joined _ fun line member => ?_).stripped
  obtain ⟨part, -, rfl⟩ := List.mem_map.mp member
  exact part.1.firm (expansion rambase) session.serverIp part.2

/-- The commands of operations for a session. -/
def operationCode (session : ClientSession κ) (rambase : Text)
    (program : List (Operation × (Nat × Nat))) : List (List Text) :=
  program.flatMap fun part => part.1.code (expansion rambase) session.serverIp part.2

include plain loose

omit loose in
/-- A continuation is a request. -/
theorem continuation_asks (loose : Loose rambase) (fetches : cmdtftp ∉ ["echo".toList, "true".toList])
    (status : Option Text) (written : status ∈ recvStatuses) (keys : List Text)
    (words : ∀ key ∈ keys, Word key) (board : Board) :
    readCommand (board.expandWords (requestWords cmdtftp rambase session.serverIp
        (continuePath session.clientId token status keys expansion))) =
      some (.request [cmdtftp, board.report rambase, session.serverIp ++ ':' ::
        continuePath session.clientId token status keys board.report]) := by
  rw [expand_request plain loose status written keys words]
  exact read_request cmdtftp _ fetches (asks_session [board.report rambase] session.serverIp
    session.clientId _)

/-- A board that comes to the end of what it is sent with `exec` asks for the continuation, with the
values of the requested variables. That it comes to the end is a hypothesis, so that lines of any
kind are covered. -/
theorem exec_reaches (fetches : cmdtftp ∉ ["echo".toList, "true".toList]) (script : Text)
    (lines : List (Line (List Text) Unit)) (reads : Reads (Text.rstrip script) lines)
    (keys : List Text) (words : ∀ key ∈ keys, Word key) (tmpName text : Text)
    (written : sentScript token tmpName session ⟨script, false, none, keys, none⟩ = .ok text)
    (board later : Board) (idle : later.waiting = none)
    (reaches : ∀ rest, Board.follow hardware (lines ++ rest)
        ⟨true, [], { board with waiting := none }⟩ = Board.follow hardware rest ⟨true, [], later⟩) :
    (board.source hardware (ensureNewline text)).state.store = { later with
      waiting := some [cmdtftp, later.report rambase, session.serverIp ++ ':' ::
        continuePath session.clientId token none keys later.report] } := by
  have sent := exec_lines plain loose script lines reads keys words tmpName text written
  have read := continuation_asks plain loose fetches none (by decide) keys words later
  rw [Board.source, sent, reaches, continueLines]
  exact congrArg (·.state.store) (follow_asks hardware [] _ _ _ [] later idle read)

/-- A board that is sent operations with `exec` carries them out and asks for the continuation.

Proof: the operations run to their end, which leaves the board idle; the continuation behind them is
a command that is a request. -/
theorem exec_carried_out (fetches : cmdtftp ∉ ["echo".toList, "true".toList]) (keys : List Text)
    (words : ∀ key ∈ keys, Word key) (request : ExecutionRequest)
    (made : exec (.lines (operationLines session rambase program)) false keys = .ok request)
    (tmpName text : Text) (written : sentScript token tmpName session request = .ok text)
    (board : Board) (view : BoardView) (shows : Shows [] { board with waiting := none } view)
    (possible : Possible hardware session rambase program view) :
    ∃ later, Shows [] later (outcome program view) ∧
      (board.source hardware (ensureNewline text)).state.store = { later with
        waiting := some [cmdtftp, later.report rambase, session.serverIp ++ ':' ::
          continuePath session.clientId token none keys later.report] } := by
  cases exec_request _ _ _ request made
  have reads := Operation.operations_read hardware (expansion rambase) session.serverIp program view
    possible
  have ran := Operation.operations_run hardware (expansion rambase) session.serverIp program _ view
    shows possible
  refine ⟨_, ran, exec_reaches hardware plain loose fetches _ _
    ((operations_stripped program session rambase).symm ▸ reads) keys words tmpName text written board
    _ ran.idle fun rest => ?_⟩
  exact follow_commands hardware _ rest [] _ ran.idle

omit plain loose in
/-- A board that is sent operations as the last script carries them out and asks for nothing: no
continuation is added to such a script. -/
theorem final_carried_out (keys : List Text) (request : ExecutionRequest)
    (made : exec (.lines (operationLines session rambase program)) true keys = .ok request)
    (tmpName text : Text) (written : sentScript token tmpName session request = .ok text)
    (board : Board) (view : BoardView) (shows : Shows [] { board with waiting := none } view)
    (possible : Possible hardware session rambase program view) :
    Shows [] (board.source hardware (ensureNewline text)).state.store (outcome program view) := by
  cases exec_request _ _ _ request made
  have stripped := operations_stripped program session rambase
  have sent : text = Text.joinLines (operationLines session rambase program) := by
    rw [← stripped]
    exact (Except.ok.inj written).symm
  have firm : Firm text := by
    rw [sent, ← stripped]
    exact firm_stripped _
  have reads := Operation.operations_read hardware (expansion rambase) session.serverIp program view
    possible
  have lines := reads []
  have ran := Operation.operations_run hardware (expansion rambase) session.serverIp program _ view shows
    possible
  have nothing : scriptLines [] = [] := rfl
  rw [Board.source, firm.ensured, sent, operationLines, lines, nothing,
    follow_commands hardware _ _ _ _ ran.idle]
  exact ran

/-- A board whose transfer is over asks for the continuation of its outcome. The lines behind it
find the board waiting and are not carried out. -/
theorem outcome_asks (fetches : cmdtftp ∉ ["echo".toList, "true".toList]) (keys : List Text)
    (words : ∀ key ∈ keys, Word key) (board : Board) (idle : board.waiting = none)
    (rest : List (Line (List Text) Unit)) :
    (Board.follow hardware (.begin () :: (continueLines cmdtftp rambase session.serverIp
          (continuePath session.clientId token (some "ok".toList) keys expansion) ++
        (.otherwise :: (continueLines cmdtftp rambase session.serverIp
          (continuePath session.clientId token (some "failed".toList) keys expansion) ++ rest))))
        ⟨true, [], board⟩).state.store =
      { board with waiting := some [cmdtftp, board.report rambase, session.serverIp ++ ':' ::
        continuePath session.clientId token
          (some (if board.status = 0 then "ok".toList else "failed".toList)) keys board.report] } := by
  have unbound : ¬board.waiting.isSome := by simp [idle]
  have asks (status : Option Text) (written : status ∈ recvStatuses) (frames : List Frame)
      (later : List (Line (List Text) Unit)) := follow_asks hardware [] _ _ later frames board idle
    (continuation_asks plain loose fetches status written keys words board)
  rw [Board.follow, if_neg unbound]
  by_cases success : board.status = 0
  · have taken : succeeded () board = true := by simp [succeeded, success]
    simp only [ConditionalScripts.step, taken, Bool.true_and, if_pos success]
    exact congrArg (·.state.store) (asks (some "ok".toList) (by decide) _ _)
  · have refused : succeeded () board = false := by simp [succeeded, success]
    simp only [ConditionalScripts.step, refused, Bool.and_false, Bool.not_false, if_neg success]
    rw [follow_passes hardware _ _ _ _ _ _ board idle, Board.follow, if_neg unbound]
    exact congrArg (·.state.store) (asks (some "failed".toList) (by decide) _ _)

/-- A board that is sent operations with `exec_recv` carries them out, reads out the memory from the
load address and the offset on, and then asks for the continuation of the outcome.

Both outcomes are covered: how the transfer ended is the status with which the board goes on. -/
theorem receive_carried_out (fetches : cmdtftp ∉ ["echo".toList, "true".toList])
    (sends : cmdtftpput ∉ ["echo".toList, "true".toList]) (size : Nat) (keys : List Text)
    (words : ∀ key ∈ keys, Word key) (offset : Option Nat) (request : ExecutionRequest)
    (made : execRecv (.lines (operationLines session rambase program)) size false keys
      (offset.map fun number : Nat => UbootNumber.int number) = .ok request)
    (tmpName : Text) (scratch : Scratch tmpName)
    (solid : ∀ character ∈ tmpName, Text.isSpace character = false)
    (text : Text) (written : sentScript token tmpName session request = .ok text)
    (board : Board) (view : BoardView) (shows : Shows [] { board with waiting := none } view)
    (possible : Possible hardware session rambase program view) (base : Nat)
    (addressed : Operation.Addressed hardware (expansion rambase) (outcome program view) ⟨none, base⟩
      (offset.getD 0)) :
    ∃ later address, Shows (offset.map fun _ => tmpName).toList later (outcome program view) ∧
      boardNumber address = some (base + offset.getD 0) ∧
      (board.source hardware (ensureNewline text)).state.store = { later with
        waiting := some [cmdtftpput, address, Text.hex size,
          session.serverIp ++ ':' :: uploadPath session.clientId token] } ∧
      ∀ status, ((board.source hardware (ensureNewline text)).proceed hardware status).state.store =
        { later with
          status := status
          waiting := some [cmdtftp, later.report rambase, session.serverIp ++ ':' ::
            continuePath session.clientId token
              (some (if status = 0 then "ok".toList else "failed".toList)) keys later.report] } := by
  cases exec_recv_request _ _ _ _ _ request made
  have reads := Operation.operations_read hardware (expansion rambase) session.serverIp program view
    possible
  have lines := receive_lines plain loose _ _
    ((operations_stripped program session rambase).symm ▸ reads) size keys words offset tmpName scratch
    solid text written
  have ran := Operation.operations_run hardware (expansion rambase) session.serverIp program _ view shows
    possible
  -- The board behind the lines that set the address.
  obtain ⟨later, prepared, idle, set, located, loose', closed⟩ :
      ∃ later, Shows (offset.map fun _ => tmpName).toList later (outcome program view) ∧
        later.waiting = none ∧
        run (Board.execWords hardware) (operationCode session rambase program ++
          sendSetting rambase tmpName offset) { board with waiting := none } = later ∧
        boardNumber (later.report (sendName rambase tmpName offset)) =
          some (base + offset.getD 0) ∧
        Loose (sendName rambase tmpName offset) ∧
        Char.ofNat 0x7D ∉ sendName rambase tmpName offset := by
    rw [CodeRefinement.run_append]
    cases offset with
    | none =>
      have number := Operation.located_number addressed.located ran 0
      rw [normalizeBase, expand_variable _ _ rambase loose plain.braceless] at number
      exact ⟨_, ran, ran.idle, rfl, number, loose, plain.braceless⟩
    | some offset =>
      obtain ⟨later, summed, prepared, holds, -⟩ := Operation.exec_sum ran addressed scratch
      have number := holds.number scratch 0
      rw [expand_variable _ _ tmpName scratch.constant.loose scratch.closed] at number
      exact ⟨later, prepared, prepared.idle, summed, number, scratch.constant.loose, scratch.closed⟩
  have send : readCommand (later.expandWords (sendWords cmdtftpput (sendName rambase tmpName offset)
      session.serverIp (uploadPath session.clientId token) size)) =
      some (.request [cmdtftpput, later.report (sendName rambase tmpName offset), Text.hex size,
        session.serverIp ++ ':' :: uploadPath session.clientId token]) := by
    rw [expand_send plain _ loose' closed size later]
    exact read_request cmdtftpput _ sends
      (asks_session [later.report _, Text.hex size] session.serverIp session.clientId _)
  subst set
  have same : scriptLines (ensureNewline text) = (operationCode session rambase program ++
      sendSetting rambase tmpName offset).map .command ++
        .command (sendWords cmdtftpput (sendName rambase tmpName offset) session.serverIp
          (uploadPath session.clientId token) size) ::
        (.begin () :: (continueLines cmdtftp rambase session.serverIp
          (continuePath session.clientId token (some "ok".toList) keys expansion) ++
        (.otherwise :: (continueLines cmdtftp rambase session.serverIp
          (continuePath session.clientId token (some "failed".toList) keys expansion) ++
            (.close :: (sendClearing tmpName offset).map .command))))) := by
    rw [lines, receiveLines]
    simp only [operationCode, List.map_append, List.append_assoc, List.cons_append, List.nil_append]
  have shape : board.source hardware (ensureNewline text) = _ :=
    (congrArg (fun lines => Board.follow hardware lines ⟨true, [], { board with waiting := none }⟩)
      same).trans (follow_asks hardware _ _ _ _ [] { board with waiting := none } idle send)
  refine ⟨_, _, prepared, located, congrArg (·.state.store) shape, fun status => ?_⟩
  rw [shape]
  exact outcome_asks hardware plain loose fetches keys words { run (Board.execWords hardware)
    (operationCode session rambase program ++ sendSetting rambase tmpName offset)
      { board with waiting := none } with waiting := none, status := status } rfl _

end Boards

end UbootTftp
