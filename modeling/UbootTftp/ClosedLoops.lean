import UbootTftp.Conversations

/-!
# The server and a client in a loop

A client that follows the scripts of the server, with anybody else's events in between, holds a
conversation with its handler. The proof follows the client from one event to the next: what it
does next belongs to a call of the conversation whose script it has carried out, and the
session of the server waits for exactly that.
-/

namespace UbootTftp

namespace TestClient

universe u v
variable {κ : Type u} {δ : Type v}

/-- What the server and the client are taken to be up to the first answer: the tokens of the
server are URL-safe and its images hold the script that is read from them, the client puts what it
reports into names, its first request starts a session, and the settings of that are plain. -/
structure Probing (server : DynamicContentServer κ) (flow : FlowClient δ) (client : ClientId)
    (opening : ContentRequest) (parsed : ParsedPath) (cmdtftp cmdtftpput rambase : Text) :
    Prop where
  urlSafe : server.provider.host.UrlSafe
  reads : ∀ text script, readScript (server.provider.host.compile text) = some script →
    script = text
  substitutes : Substitutes flow
  starts : Starts opening.filename parsed client
  peer : opening.peer = flow.peer
  plain : ∀ draw, PlainSession
    (openedSession server.provider opening parsed client (server.provider.host.token draw))
    (server.provider.host.token draw) cmdtftp cmdtftpput rambase
  clear : ¬":id=".toList <:+: rambase
  solid : flow.isWord ' ' = false

/-- And for what follows: the client reports a shell after the probe, has no slash and no percent
sign in the variables that a call asks for, and the calls of the handler are understood.

These are the conditions of the results on conversations. What happens without the report of a shell
is told elsewhere. -/
structure Setting (server : DynamicContentServer κ) (flow : FlowClient δ) (client : ClientId)
    (opening : ContentRequest) (parsed : ParsedPath) (first : δ)
    (cmdtftp cmdtftpput rambase : Text) : Prop extends
    Probing server flow client opening parsed cmdtftp cmdtftpput rambase where
  named : ∀ draw, ∀ character ∈ server.provider.host.hexToken draw, isCommandChar character = true
  rooted : SlashFree server.provider.host.staticRoot
  greets : ∀ draw text, appendContinue hushProbeScript (openedSession server.provider opening parsed
      client (server.provider.host.token draw) : ClientSession κ) none [hushKey] = .ok text →
    flow.reported (flow.update (ensureNewline text) first) hushKey = "true".toList
  plainly : ∀ turn left awaited next request draw name text,
    Converses server.provider flow client opening parsed first turn →
    server.provider.play turn.state turn.round = (left, .awaited awaited next) →
    awaited.instruction = some request →
    sentScript (server.provider.host.token draw) (recvName server.provider.host name) left.session
      request = .ok text →
    ∀ key ∈ request.returnKeys,
      Plain (flow.reported (flow.update (ensureNewline text) turn.device) key)
  understood : ∀ turn left awaited next,
    Converses server.provider flow client opening parsed first turn →
    server.provider.play turn.state turn.round = (left, .awaited awaited next) →
    ∃ request, awaited.instruction = some request ∧ Understood request

/-- Why a client stops: its rounds are over, an image could not be read, no handler could be made,
or the conversation came to its end: the handler returned or raised, or made its final call. -/
inductive Ends (provider : Provider κ) (flow : FlowClient δ) (client : ClientId)
    (opening : ContentRequest) (parsed : ParsedPath) (first : δ) : Prop
  | spent (round : Nat) (exhausted : flow.rounds ≤ round)
  | unread (text : Text) (failed : readScript (provider.host.compile text) = none)
  | unmade (missing : ∀ start,
      provider.module (routeFor provider.config client).entryFunc ≠ .async start)
  | ended (turn : Turn κ δ) (left : HandleState κ) (codeEnd : CodeEnd κ)
      (converses : Converses provider flow client opening parsed first turn)
      (plays : provider.play turn.state turn.round = (left, codeEnd))
      (ends : ∀ awaited next, codeEnd ≠ .awaited awaited next)
  | final (turn : Turn κ δ) (left : HandleState κ) (request : ExecutionRequest)
      (built : ∃ script final keys, UbootTftp.exec script final keys = .ok request) (next : κ)
      (converses : Converses provider flow client opening parsed first turn)
      (plays : provider.play turn.state turn.round = (left, .awaited (.exec request built) next))
      (last : request.final = true)

/-- A call of a handler with the script that the server has made of it. The fields are what the
parts of the server have made of it, without any claim that they fit together; that is what `Stands`
says. -/
structure Call (κ : Type u) (δ : Type v) where
  turn : Turn κ δ
  left : HandleState κ
  awaited : Awaited
  next : κ
  request : ExecutionRequest
  token : Text
  tmpName : Text
  text : Text

namespace Call

/-- The client after the script. -/
def after (flow : FlowClient δ) (call : Call κ δ) : δ :=
  flow.update (ensureNewline call.text) call.turn.device

/-- The session that waits for the call. -/
def session (call : Call κ δ) : Option (ClientSession κ) :=
  call.left.session.settle call.token (.awaited call.awaited call.next)

/-- What the call asks for, as a name of the server. -/
def continuation (flow : FlowClient δ) (client : ClientId) (status : Option Text)
    (call : Call κ δ) : Text :=
  continuePath client call.token status call.request.returnKeys (flow.reported (call.after flow))

/-- The call is one of the conversation and can be carried out. It has what each step of the client
needs of the call whose script it follows. -/
structure Stands (provider : Provider κ) (flow : FlowClient δ) (client : ClientId)
    (opening : ContentRequest) (parsed : ParsedPath) (first : δ)
    (cmdtftp cmdtftpput rambase : Text) (call : Call κ δ) : Prop where
  converses : Converses provider flow client opening parsed first call.turn
  plays : provider.play call.turn.state call.turn.round =
    (call.left, .awaited call.awaited call.next)
  asks : call.awaited.instruction = some call.request
  written : sentScript call.token call.tmpName call.left.session call.request = .ok call.text
  drawn : ∃ draw, call.token = provider.host.token draw
  named : ∃ name, call.tmpName = recvName provider.host name
  understood : Understood call.request
  plain : PlainSession call.left.session call.token cmdtftp cmdtftpput rambase
  keyed : call.left.session.clientId = client
  passed : call.left.session.preflightPending = false
  idle : call.left.session.pendingReceive = none

/-- Behind it the conversation goes on. The round that follows has to report what the script has
asked for, and to return what the helper gives back there. -/
theorem Stands.called {provider : Provider κ} {flow : FlowClient δ} {client : ClientId}
    {opening : ContentRequest} {parsed : ParsedPath} {first : δ}
    {cmdtftp cmdtftpput rambase : Text} {call : Call κ δ}
    (stands : call.Stands provider flow client opening parsed first cmdtftp cmdtftpput rambase)
    (later : Round κ)
    (reports : Reports flow (call.after flow) call.request.returnKeys call.left.session
      later.found.session)
    (returns : Returns flow (call.after flow) (ensureNewline call.text) call.awaited
      later.resumption) :
    Converses provider flow client opening parsed first ⟨call.next, later, call.after flow⟩ := by
  obtain ⟨draw, drawn⟩ := stands.drawn
  obtain ⟨name, named⟩ := stands.named
  obtain ⟨beginning, begins, calls⟩ := stands.converses
  have written := stands.written
  rw [drawn, named] at written
  exact ⟨beginning, begins, calls.tail (.called call.turn call.left call.awaited call.next
    call.request draw name call.text later stands.plays stands.asks written reports returns)⟩

end Call

/-- How the server's state and what the client does next belong together. There is one
constructor for each kind of thing that the client can be about to do; what the session waits
for is just that. -/
inductive Corresponds (server : DynamicContentServer κ) (flow : FlowClient δ) (client : ClientId)
    (opening : ContentRequest) (parsed : ParsedPath) (first : δ)
    (cmdtftp cmdtftpput rambase : Text) (world : World κ) : Standing δ → Prop
  | unasked : Corresponds server flow client opening parsed first cmdtftp cmdtftpput rambase
      world (.asking 1 first opening.filename)
  | greeted (round draw : Nat) (text : Text)
      (probed : appendContinue hushProbeScript (openedSession server.provider opening parsed client
        (server.provider.host.token draw) : ClientSession κ) none [hushKey] = .ok text)
      (stored : world.sessions.get client = some
        (openedSession server.provider opening parsed client (server.provider.host.token draw))) :
      Corresponds server flow client opening parsed first cmdtftp cmdtftpput rambase world
        (.asking round (flow.update (ensureNewline text) first)
          (continuePath client (server.provider.host.token draw) none [hushKey]
            (flow.reported (flow.update (ensureNewline text) first))))
  | waiting (round : Nat) (call : Call κ δ)
      (stands : call.Stands server.provider flow client opening parsed first cmdtftp
        cmdtftpput rambase)
      (built : ∃ script final keys, UbootTftp.exec script final keys = .ok call.request)
      (executes : call.awaited = .exec call.request built) (more : call.request.final = false)
      (stored : world.sessions.get client = call.session) :
      Corresponds server flow client opening parsed first cmdtftp cmdtftpput rambase world
        (.asking round (call.after flow) (call.continuation flow client none))
  | putting (round : Nat) (call : Call κ δ)
      (stands : call.Stands server.provider flow client opening parsed first cmdtftp
        cmdtftpput rambase)
      (built : ∃ script size final keys offset,
        UbootTftp.execRecv script size final keys offset = .ok call.request)
      (receives : call.awaited = .execRecv call.request built) (size : Int)
      (sized : call.request.receiveSize = some size)
      (read : parseFlowActions flow.isWord (ensureNewline call.text) =
        some (receiveActions call.left.session call.token cmdtftp cmdtftpput size
          call.request.returnKeys))
      (stored : world.sessions.get client = call.session) :
      Corresponds server flow client opening parsed first cmdtftp cmdtftpput rambase world
        (.putting round (call.after flow)
          (receiveActions call.left.session call.token cmdtftp cmdtftpput size
            call.request.returnKeys)
          ⟨cmdtftpput, call.left.session.serverIp, uploadPath client call.token, size⟩ [])
  | sending (round : Nat) (call : Call κ δ)
      (stands : call.Stands server.provider flow client opening parsed first cmdtftp
        cmdtftpput rambase)
      (built : ∃ script size final keys offset,
        UbootTftp.execRecv script size final keys offset = .ok call.request)
      (receives : call.awaited = .execRecv call.request built) (size : Int)
      (sized : call.request.receiveSize = some size)
      (read : parseFlowActions flow.isWord (ensureNewline call.text) =
        some (receiveActions call.left.session call.token cmdtftp cmdtftpput size
          call.request.returnKeys))
      (stored : world.sessions.get client = call.session) (handle : Nat) (request : UploadRequest)
      (sent left : Bytes) (named : request.filename = uploadPath client call.token)
      (held : world.handles[handle]? = some (.capturing ⟨request, sent, false⟩))
      (whole : sent ++ left = flow.payload (call.after flow)
        ⟨cmdtftpput, call.left.session.serverIp, uploadPath client call.token, size⟩) :
      Corresponds server flow client opening parsed first cmdtftp cmdtftpput rambase world
        (.sending round (call.after flow)
          (receiveActions call.left.session call.token cmdtftp cmdtftpput size
            call.request.returnKeys) [] handle left)
  | delivered (round : Nat) (call : Call κ δ)
      (stands : call.Stands server.provider flow client opening parsed first cmdtftp
        cmdtftpput rambase)
      (built : ∃ script size final keys offset,
        UbootTftp.execRecv script size final keys offset = .ok call.request)
      (receives : call.awaited = .execRecv call.request built) (size : Int)
      (sized : call.request.receiveSize = some size)
      (read : parseFlowActions flow.isWord (ensureNewline call.text) =
        some (receiveActions call.left.session call.token cmdtftp cmdtftpput size
          call.request.returnKeys))
      (session : ClientSession κ) (settled : call.session = some session)
      (stored : world.sessions.get client = some { session with
        pendingReceive := some ⟨call.token, "/upload.bin".toList, size,
          some (flow.payload (call.after flow)
            ⟨cmdtftpput, call.left.session.serverIp, uploadPath client call.token, size⟩)⟩ }) :
      Corresponds server flow client opening parsed first cmdtftp cmdtftpput rambase world
        (.asking round (call.after flow) (call.continuation flow client (some "ok".toList)))
  | stopped (ends : Ends server.provider flow client opening parsed first) :
      Corresponds server flow client opening parsed first cmdtftp cmdtftpput rambase world
        .stopped

section Server

variable (server : DynamicContentServer κ) (world : World κ) (now : Nat) (schedule : Schedule)
  (request : ContentRequest)

/-- The callback hands out what `fetch` answers. -/
theorem download_answered (content : ContentResult) :
    (server.openDynamicDownload world now schedule request).2 = .ok (some content) ↔
      (world.fetch server.provider now schedule request).result = .ok content := by
  simp only [DynamicContentServer.openDynamicDownload]
  cases (world.fetch server.provider now schedule request).result with
  | ok result => simp
  | error raised =>
    simp only [reduceCtorEq, iff_false]
    split <;> simp

variable {parsed : ParsedPath} {client : ClientId} {session : ClientSession κ}

/-- A request that enters a handler runs it. The five ways in which an accepted continuation can end
are taken one by one; entering a handler excludes all but the last. -/
theorem fetch_entered (sound : world.Sound server.provider.host)
    (accepts : world.Accepts request.filename parsed client session) {state : κ}
    {point : Suspension} {resumption : Resumption}
    (enters : Enters server.provider request parsed session state point resumption) :
    world.fetch server.provider now schedule request =
      world.runHandler server.provider now schedule (session.entered parsed state point) state
        resumption := by
  have staged := (sound.sessions client session accepts.stored).staged
  rw [accepts.fetch server.provider now schedule]
  have continued := world.continue_cases server.provider now schedule request parsed session staged
  generalize world.continueSession server.provider now schedule request parsed session = outcome
    at continued ⊢
  cases continued with
  | unsupported pending unreported => exact absurd (enters.preflight pending).2.2.1 unreported
  | uncreated raised pending reported refused =>
    cases refused.symm.trans (enters.preflight pending).2.2.2
  | unhandled passed missing => cases missing.symm.trans (enters.later passed).1
  | exhausted passed finished => cases finished.symm.trans (enters.later passed).1
  | ran other place again entersAgain =>
    obtain ⟨rfl, rfl, rfl⟩ := enters.unique entersAgain
    rfl

/-- A start is answered with the probe of the shell and stores the session it opens. An earlier
session of the client is replaced and what it has waited for is forgotten. -/
theorem fetch_started (sound : world.Sound server.provider.host)
    (starts : Starts request.filename parsed client) :
    (world.fetch server.provider now schedule request).world.sessions.get client =
        some (openedSession server.provider request parsed client
          (server.provider.host.token world.tokensDrawn)) ∧
      (world.fetch server.provider now schedule request).result =
        (appendContinue hushProbeScript (openedSession server.provider request parsed client
          (server.provider.host.token world.tokensDrawn) : ClientSession κ) none [hushKey]).map
            fun text => ContentResult.fromBytes
              (server.provider.host.compile (ensureNewline text)) := by
  have fetched : world.fetch server.provider now schedule request =
      ⟨(world.startSession server.provider now request parsed client).1, none,
        (world.startSession server.provider now request parsed client).2⟩ := by
    simp [World.fetch, starts.parse, starts.names, starts.fresh]
  obtain ⟨leaves, -, -⟩ := world.start_opened server.provider now request parsed client
    fun existing stored => (sound.sessions client existing stored).keyed
  rw [fetched]
  refine ⟨leaves.own, ?_⟩
  simp only [World.startSession, World.preflightResult, World.answer_result]
  cases world.sessions.get client <;> rfl

end Server

section Scripts

/-- The script of a call does not depend on where the handler is suspended. -/
theorem sent_script_handler (token tmpName : Text) (session : ClientSession κ)
    (handler : Option (Coroutine κ)) (request : ExecutionRequest) :
    sentScript token tmpName { session with handler := handler } request =
      sentScript token tmpName session request := rfl

/-- The names that a session's settings give depend on its address and three variables. Everything
else about a session may change from one to the other. -/
theorem PlainSession.kept {session : ClientSession κ} {token cmdtftp cmdtftpput rambase : Text}
    (plain : PlainSession session token cmdtftp cmdtftpput rambase) (other : ClientSession κ)
    (server : other.serverIp = session.serverIp)
    (env : ∀ key ∈ hiddenKeys, other.env.get key = session.env.get key) :
    PlainSession other token cmdtftp cmdtftpput rambase where
  urlSafe := plain.urlSafe
  served := server ▸ plain.served
  dotted := server ▸ plain.dotted
  fetches := (env _ (by simp [hiddenKeys])).trans plain.fetches
  fetching := plain.fetching
  sends := (env _ (by simp [hiddenKeys])).trans plain.sends
  sending := plain.sending
  loads := (env _ (by simp [hiddenKeys])).trans plain.loads
  addressed := plain.addressed
  braceless := plain.braceless

/-- Another token that is URL-safe does as well. -/
theorem PlainSession.retoken {session : ClientSession κ} {token cmdtftp cmdtftpput rambase : Text}
    (plain : PlainSession session token cmdtftp cmdtftpput rambase) (other : Text)
    (safe : ∀ character ∈ other, isClientIdChar character = true) :
    PlainSession session other cmdtftp cmdtftpput rambase :=
  { plain with urlSafe := safe }

end Scripts

/-- What an asking client does is a read request, and its answer decides where it stands. Times and
the steps of download threads are left open. -/
theorem asking_acts (server : DynamicContentServer κ) (flow : FlowClient δ) (world : World κ)
    (round : Nat) (device : δ) (remote : Text) (event : Event) (next : Standing δ)
    (acts : flow.Acts server world (.asking round device remote) event next) :
    ∃ now schedule, event = .readRequest ⟨remote, flow.peer⟩ now schedule ∧
      ((∃ content, (world.fetch server.provider now schedule ⟨remote, flow.peer⟩).result =
          .ok content ∧ next = flow.receive round device content.body) ∨
        (∀ content, (world.fetch server.provider now schedule ⟨remote, flow.peer⟩).result ≠
          .ok content) ∧ next = .stopped) := by
  cases acts with
  | answered _ _ _ now schedule content answer =>
    exact ⟨now, schedule, rfl, .inl ⟨content, (download_answered _ _ _ _ _ _).mp answer, rfl⟩⟩
  | refused _ _ _ now schedule answer =>
    exact ⟨now, schedule, rfl, .inr
      ⟨fun content same => answer content ((download_answered _ _ _ _ _ _).mpr same), rfl⟩⟩

/-- The session that waits for the end of a script. -/
theorem Call.executing {call : Call κ δ}
    (built : ∃ script final keys, UbootTftp.exec script final keys = .ok call.request)
    (executes : call.awaited = .exec call.request built) (more : call.request.final = false) :
    call.session = some { call.left.session with
      handler := some (.suspended call.next .inExec)
      currentToken := some call.token
      phase := .awaitRrq } := by
  rw [Call.session, executes, ClientSession.settle, more, if_neg Bool.false_ne_true]

/-- The session that waits for an upload. It is the session that the handler has left, with the new
token and the upload that is expected under it. -/
theorem Call.receiving {call : Call κ δ}
    (built : ∃ script size final keys offset,
      UbootTftp.execRecv script size final keys offset = .ok call.request)
    (receives : call.awaited = .execRecv call.request built) (size : Int)
    (sized : call.request.receiveSize = some size) :
    call.session = some { call.left.session with
      handler := some (.suspended call.next .inExecRecv)
      currentToken := some call.token
      pendingReceive := some ⟨call.token, "/upload.bin".toList, size, none⟩
      phase := .awaitUpload } := by
  rw [Call.session, receives, ClientSession.settle, sized]
  rfl

/-- An upload of the name that a session waits for is for its client and token. -/
theorem upload_is_for (client : ClientId) (token : Text) (plain : Plain token)
    (request : UploadRequest) (named : request.filename = uploadPath client token) :
    request.isFor client token = true := by
  obtain ⟨parsed, parse, names, -, carried⟩ := @upload_path_parsed client token plain
  exact (is_for_iff request client token).mpr ⟨parsed, named ▸ parse, names, carried⟩

section Answers

variable {server : DynamicContentServer κ} {flow : FlowClient δ} {client : ClientId}
  {opening : ContentRequest} {parsed : ParsedPath} {cmdtftp cmdtftpput rambase : Text}
  (probing : Probing server flow client opening parsed cmdtftp cmdtftpput rambase)
include probing

/-- Nothing in the load address is a target. -/
theorem Probing.targetless : Sequences.Clear [":id=".toList] rambase := by
  intro pattern member
  rw [List.mem_singleton.mp member]
  exact probing.clear

/-- An image is read as its script or not at all. -/
theorem Probing.received (round : Nat) (device : δ) (text : Text) :
    flow.receive round device (server.provider.host.compile text) = flow.follow round device text ∨
      readScript (server.provider.host.compile text) = none ∧
        flow.receive round device (server.provider.host.compile text) = .stopped := by
  cases read : readScript (server.provider.host.compile text) with
  | none => exact .inr ⟨rfl, by rw [FlowClient.receive, read]⟩
  | some script =>
    cases probing.reads text script read
    exact .inl (by rw [FlowClient.receive, read])

end Answers

/-- The client goes on with a continuation, unless its rounds are over. Spent rounds are one of the
causes for which the conversation may end. -/
theorem goes_on_or_ends (provider : Provider κ) (flow : FlowClient δ) (client : ClientId)
    (opening : ContentRequest) (parsed : ParsedPath) (first : δ) (round : Nat) (device : δ)
    (actions : FlowActions)
    (preferRecv : Option Text) (remote : Text)
    (chosen : (chooseRemote actions preferRecv).map (flow.substitute device) = some remote) :
    flow.goOn round device actions preferRecv = .asking (round + 1) device remote ∨
      Ends provider flow client opening parsed first ∧
        flow.goOn round device actions preferRecv = .stopped := by
  rw [FlowClient.goOn, chosen]
  by_cases more : round < flow.rounds
  · exact .inl (if_pos more)
  · exact .inr ⟨.spent round (Nat.le_of_not_lt more), if_neg more⟩

section Steps

variable {server : DynamicContentServer κ} {flow : FlowClient δ} {client : ClientId}
  {opening : ContentRequest} {parsed : ParsedPath} {first : δ}
  {cmdtftp cmdtftpput rambase : Text}
  (setting : Setting server flow client opening parsed first cmdtftp cmdtftpput rambase)
include setting

/-- The names of the variables that take the address of an upload are words. -/
theorem Setting.temporary (name : Nat) : Word (recvName server.provider.host name) := by
  refine ⟨List.append_ne_nil_of_left_ne_nil (by decide) _, fun character member => ?_⟩
  rcases List.mem_append.mp member with front | back
  · exact (by decide : Word "__uboot_tftp_recv_".toList).2 character front
  · exact setting.named name character back

/-- After the code of a round, the session that is stored and what the client does next belong
together. The round is one of the conversation, and the request that made it was answered with what
the server makes of its end.

Proof: by cases on the end of the code. A suspension sends a script, in which the client finds the
transfers of the call; every other end stops the client. -/
theorem Setting.settled (round draw : Nat) (turn : Turn κ δ) (left : HandleState κ)
    (codeEnd : CodeEnd κ) (tmpName : Text)
    (named : ∃ name, tmpName = recvName server.provider.host name)
    (converses : Converses server.provider flow client opening parsed first turn)
    (plays : server.provider.play turn.state turn.round = (left, codeEnd))
    (plain : PlainSession left.session (server.provider.host.token draw) cmdtftp cmdtftpput rambase)
    (keyed : left.session.clientId = client) (passed : left.session.preflightPending = false)
    (idle : left.session.pendingReceive = none)
    (world : World κ) (result : Except Raised ContentResult)
    (stored : world.sessions.get client =
      left.session.settle (server.provider.host.token draw) codeEnd)
    (ended : (∀ awaited next, codeEnd ≠ .awaited awaited next) → ∀ content, result ≠ .ok content)
    (answered : ∀ awaited next request, codeEnd = .awaited awaited next →
      awaited.instruction = some request →
      result = (sentScript (server.provider.host.token draw) tmpName left.session request).map
        fun script => ContentResult.fromBytes
          (server.provider.host.compile (ensureNewline script)))
    (next : Standing δ)
    (stands : (∃ content, result = .ok content ∧
        next = flow.receive round turn.device content.body) ∨
      (∀ content, result ≠ .ok content) ∧ next = .stopped) :
    Corresponds server flow client opening parsed first cmdtftp cmdtftpput rambase world
      next := by
  have fresh : Word tmpName := by
    obtain ⟨name, drawn⟩ := named
    exact drawn ▸ setting.temporary name
  cases codeEnd with
  | returned =>
    rcases stands with ⟨content, result, -⟩ | ⟨-, rfl⟩
    · exact absurd result (ended (by simp) content)
    · exact .stopped (.ended turn left _ converses plays (by simp))
  | raised error =>
    rcases stands with ⟨content, result, -⟩ | ⟨-, rfl⟩
    · exact absurd result (ended (by simp) content)
    · exact .stopped (.ended turn left _ converses plays (by simp))
  | awaited awaited later =>
    obtain ⟨request, asks, understood⟩ :=
      setting.understood turn left awaited later converses plays
    have answer := answered awaited later request rfl asks
    -- A script that is built is received as it is, or not at all.
    have built (text : Text)
        (written : sentScript (server.provider.host.token draw) tmpName left.session request =
          .ok text) : next = flow.follow round turn.device (ensureNewline text) ∨
        Ends server.provider flow client opening parsed first ∧ next = .stopped := by
      rw [written] at answer
      rcases stands with ⟨content, given, rfl⟩ | ⟨refused, -⟩
      · cases answer.symm.trans given
        rcases setting.received round turn.device (ensureNewline text) with same | ⟨failed, same⟩
        · exact .inl same
        · exact .inr ⟨.unread _ failed, same⟩
      · exact absurd answer (refused _)
    have standing (text : Text)
        (written : sentScript (server.provider.host.token draw) tmpName left.session request =
          .ok text) : Call.Stands server.provider flow client opening parsed first cmdtftp
        cmdtftpput rambase ⟨turn, left, awaited, later, request,
          server.provider.host.token draw, tmpName, text⟩ :=
      ⟨converses, plays, asks, written, ⟨draw, rfl⟩, named, understood, plain, keyed, passed,
        idle⟩
    cases awaited with
    | foreign => cases asks
    | exec asked made =>
      cases asks
      obtain ⟨script, final, keys, making⟩ := made
      have shape := exec_request script final keys request making
      cases final with
      | true =>
        have last : request.final = true := by rw [shape]
        obtain ⟨other, text, remade, written, read⟩ := final_read left.session
          (server.provider.host.token draw) tmpName flow.isWord setting.solid script
          (by rw [shape] at understood; exact understood.inert) keys
          (by rw [shape] at understood; exact understood.words)
        cases making.symm.trans remade
        rcases built text written with rfl | ⟨ends, rfl⟩
        · rw [FlowClient.follow, read]
          exact .stopped (.final turn left request _ later converses plays last)
        · exact .stopped ends
      | false =>
        have more : request.final = false := by rw [shape]
        have keyNames : request.returnKeys = keys := by rw [shape]
        obtain ⟨other, text, remade, written, read⟩ := exec_read plain setting.targetless flow.isWord
          setting.solid script (by rw [shape] at understood; exact understood.inert) keys
          (by rw [shape] at understood; exact understood.words) tmpName
        cases making.symm.trans remade
        rcases built text written with rfl | ⟨ends, rfl⟩
        · have chosen : (chooseRemote (execActions left.session (server.provider.host.token draw)
              cmdtftp keys) none).map (flow.substitute (flow.update (ensureNewline text) turn.device)) =
              some (continuePath left.session.clientId (server.provider.host.token draw) none keys
                (flow.reported (flow.update (ensureNewline text) turn.device))) :=
            congrArg some (setting.substitutes.continued _ _ _ none keys plain.urlSafe (by decide)
              (by rw [shape] at understood; exact understood.words))
          rw [FlowClient.follow, read]
          simp only [execActions, if_true]
          rcases goes_on_or_ends server.provider flow client opening parsed first round
            (flow.update (ensureNewline text) turn.device) _ none _ chosen with
            same | ⟨ends, same⟩
          · simp only [execActions] at same
            rw [same, keyed, ← keyNames]
            exact .waiting (round + 1) ⟨turn, left, _, later, request,
              server.provider.host.token draw, tmpName, text⟩ (standing text written) _ rfl more stored
          · simp only [execActions] at same
            rw [same]
            exact .stopped ends
        · exact .stopped ends
    | execRecv asked made =>
      cases asks
      obtain ⟨script, size, final, keys, offset, making⟩ := made
      have shape := exec_recv_request script size final keys offset request making
      have sized : request.receiveSize = some size := by rw [shape]
      have keyNames : request.returnKeys = keys := by rw [shape]
      obtain ⟨other, text, remade, written, read, -⟩ := receive_read plain setting.targetless
        flow.isWord setting.solid script (by rw [shape] at understood; exact understood.inert) keys
        (by rw [shape] at understood; exact understood.words) tmpName fresh size
        (understood.natural size sized) offset
        (by rw [shape] at understood; exact understood.closed)
      have same : other = request := by
        rw [shape]
        exact exec_recv_request script size false keys offset other remade
      subst same
      rcases built text written with rfl | ⟨ends, rfl⟩
      · have puts : flow.follow round turn.device (ensureNewline text) =
            .putting round (flow.update (ensureNewline text) turn.device)
              (receiveActions left.session (server.provider.host.token draw) cmdtftp cmdtftpput size
                other.returnKeys)
              ⟨cmdtftpput, left.session.serverIp,
                uploadPath client (server.provider.host.token draw), size⟩ [] := by
          rw [FlowClient.follow, read, keyNames]
          simp only [receiveActions, List.cons_ne_nil, if_false, FlowClient.putNext, keyed]
        rw [puts]
        exact .putting round ⟨turn, left, _, later, other,
          server.provider.host.token draw, tmpName, text⟩ (standing text written) _ rfl size sized
          (by rw [keyNames]; exact read) stored
      · exact .stopped ends

/-- A request that enters the handler is a round of the conversation. What the device does with the
answer is given by the last assumption. Where there is no answer, the device stands still and
nothing more is claimed of it. -/
theorem Setting.entered (world : World κ) (sound : world.Sound server.provider.host)
    (round now : Nat) (schedule : Schedule) (device : δ) (remote : Text) (again : ParsedPath)
    (session : ClientSession κ) (state : κ) (point : Suspension) (resumption : Resumption)
    (accepts : world.Accepts remote again client session)
    (enters : Enters server.provider ⟨remote, flow.peer⟩ again session state point resumption)
    (plain : PlainSession session (server.provider.host.token world.tokensDrawn) cmdtftp cmdtftpput
      rambase)
    (kept : ∀ key ∈ hiddenKeys, (session.continued again).env.get key = session.env.get key)
    (converses : Converses server.provider flow client opening parsed first ⟨state,
      ⟨now, schedule, ⟨session.entered again state point, world.downloads, world.files⟩,
        resumption⟩, device⟩)
    (next : Standing δ)
    (stands : (∃ content, (world.fetch server.provider now schedule ⟨remote, flow.peer⟩).result =
        .ok content ∧ next = flow.receive round device content.body) ∨
      (∀ content, (world.fetch server.provider now schedule ⟨remote, flow.peer⟩).result ≠
        .ok content) ∧ next = .stopped) :
    Corresponds server flow client opening parsed first cmdtftp cmdtftpput rambase
      (server.step world (.readRequest ⟨remote, flow.peer⟩ now schedule)) next := by
  obtain ⟨left, codeEnd, code, -, stored⟩ := enters_settles world server.provider now schedule
    ⟨remote, flow.peer⟩ sound accepts enters
  obtain ⟨environment, artifacts, frame⟩ := Code.run_session server.provider.host now
    (server.provider.resume state resumption) schedule
    ⟨session.entered again state point, world.downloads, world.files⟩
  rw [code] at frame
  have entered := fetch_entered server world now schedule ⟨remote, flow.peer⟩ sound accepts enters
  have keyed := (sound.sessions client session accepts.stored).keyed
  have served : (session.continued again).serverIp = session.serverIp :=
    continued_server_ip session again
  refine setting.settled round world.tokensDrawn _ left codeEnd _
    ⟨world.namesDrawn, rfl⟩ converses code ?_ ?_ ?_ ?_ _
    (world.fetch server.provider now schedule ⟨remote, flow.peer⟩).result ?_ ?_ ?_ next stands
  · rw [frame]
    exact plain.kept _ served kept
  · rw [frame]
    simpa [ClientSession.entered] using keyed
  · rw [frame]
    rfl
  · rw [frame]
    rfl
  · rw [DynamicContentServer.step_read_request]
    exact stored
  · intro unawaited content
    rw [entered, World.runHandler]
    simp only [code]
    cases codeEnd with
    | returned => simp
    | raised error =>
      simp only
      split <;> simp
    | awaited awaited later => exact absurd rfl (unawaited awaited later)
  · rintro awaited later request rfl asks
    rw [entered, World.runHandler]
    simp only [code]
    rw [instruction_sent _ _ _ _ _ request asks, sent_script_handler]
    rfl

end Steps

end TestClient

end UbootTftp
