import UbootTftp.Config
import UbootTftp.Handlers
import UbootTftp.Terminal
import UbootTftp.Uploads

/-!
# The scripted session provider

`fetch` answers one read request. A static request is answered from the files. A
session request without a token starts a session and answers with the preflight
script; one with the session's current token resumes it. Every other session
request is refused.

A session's fields change while a request is handled and keep their values when
the handling raises, so each function returns the state it leaves together with
its result. `Outcome.resumed` records what the request made the handler do: what
the handler got and how its code ended.
-/

namespace UbootTftp

universe u

/-- A read request as the provider sees it: the name that was asked for and who asked. -/
structure ContentRequest where
  filename : Text
  peer : Text × Nat

/-- The bytes of an answer and the size that is announced for them. -/
structure ContentResult where
  body : Bytes
  size : Nat
  deriving DecidableEq

/-- An answer that announces the length of its bytes. -/
def ContentResult.fromBytes (body : Bytes) : ContentResult := ⟨body, body.length⟩

/-- What an entry function is called with: the root of the files, the id of the client, the command
and the parsed form of the request that started the session, and the request that opens the gate.
The last one is the continuation of the preflight and not the first request of the session. -/
structure HandlerArguments where
  root : Path
  ident : Text
  cmd : Text
  parsed : ParsedPath
  request : ContentRequest

/-- What the user's module holds under the name of an entry function. What the entry function is
like decides how a first continuation fails, and only an async one gives a handler. -/
inductive EntryPoint (κ : Type u)
  /-- No attribute of that name, or one that cannot be called. -/
  | missing
  /-- A callable whose call raises, such as one that takes other arguments. -/
  | raising (error : Raised)
  /-- A callable whose call returns no coroutine. -/
  | notAsync
  /-- An async function, by the state of the coroutine that its call returns. -/
  | async (start : HandlerArguments → κ)

/-- The configuration, the user's module and the machine. The module is given as two functions, one
that calls an entry function and one that resumes a suspended coroutine, so that every result is
about arbitrary user code. -/
structure Provider (κ : Type u) where
  config : DaemonConfig
  module : Text → EntryPoint κ
  resume : κ → Resumption → Code κ
  host : Host

/-- A file object that the server has given to tftpy for an upload. A disk file is
written at its own position. -/
inductive UploadFile
  | capturing (upload : CapturingUpload)
  | disk (path : Path) (position : Nat) (closed : Bool)
  deriving DecidableEq

/-- The state of the server. The last two fields count what has been drawn from the host's random
source, so that a run is determined by its events and the tokens of a run can be named. -/
structure World (κ : Type u) where
  sessions : InMemorySessionStore κ
  uploads : InMemoryUploadStore
  handles : List UploadFile
  downloads : DownloadJobStore
  files : FileTree
  tokensDrawn : Nat
  namesDrawn : Nat

/-- What handling a request leaves and returns. That the handler was resumed, and how its code then
ended, is recorded for the statements about runs; the server keeps no such record. -/
structure Outcome (κ : Type u) where
  world : World κ
  resumed : Option (Resumption × CodeEnd κ)
  result : Except Raised ContentResult

/-- The key under which a continuation carries the token of its session. -/
def tokenKey : Text := "token".toList

/-- The key under which a script reports whether its upload succeeded. -/
def recvKey : Text := "recv".toList

/-- The key under which the preflight script reports a hush shell. -/
def hushKey : Text := "hush_shell".toList

/-- The environment keys that handlers do not see. They stay in the environment that the server
builds scripts from, where a continuation can still change them. -/
def hiddenKeys : List Text := ["rambase".toList, "cmdtftp".toList, "cmdtftpput".toList]

/-- A session request with a token continues a session; any other one starts it. -/
def isContinuation (parsed : ParsedPath) : Bool := decide (parsed.values.get tokenKey ≠ none)

/-- The base environment overridden by the route's, overridden by the request's segments after the
command. The first segment is never read as an assignment, even if it has the form of one. -/
def sessionEnv (baseEnv routeEnv : Dict Text Text) (parsed : ParsedPath) : Dict Text Text :=
  keyValues parsed.segments.tail (baseEnv.update routeEnv.entries)

/-- What a handler sees of an environment when the session starts. -/
def publicEnv (env : Dict Text Text) : Dict Text Text :=
  env.filterKeys (fun key => decide (key ∉ hiddenKeys))

/-- Store one reported value in the session's environments. Only the token and the status of an
upload are left out; every other key is stored, whether it was asked for or not. -/
def mergeValue {κ : Type u} (session : ClientSession κ) (entry : Text × Text) :
    ClientSession κ :=
  if entry.1 = tokenKey ∨ entry.1 = recvKey then session
  else
    { session with
      env := session.env.set entry.1 entry.2
      publicEnv := if entry.1 ∈ hiddenKeys then session.publicEnv
        else session.publicEnv.set entry.1 entry.2 }

/-- Store all values of a continuation, in the order in which the request has them. -/
def mergeContinuationValues {κ : Type u} (session : ClientSession κ) (parsed : ParsedPath) :
    ClientSession κ :=
  parsed.values.entries.foldl mergeValue session

/-- The command is the first segment, or empty for a request without one. -/
def commandFromSegments (segments : List Text) : Text := segments.headD []

/-- A script ends in a newline, which is added if it is missing. The empty script gets one too. -/
def ensureNewline (script : Text) : Text :=
  if script.getLast? = some '\n' then script else script ++ ['\n']

/-- The script of the preflight. Only a shell that understands `if` sets the variable, so the value
that comes back tells whether there is one. -/
def hushProbeScript : Text :=
  Text.joinLines
    [ubootTermReset, ubootMsg "Checking hush shell... ".toList .green true true,
      "if true; then setenv hush_shell true; fi".toList]

/-- What a client without a hush shell is told. It has no continuation: the session is over. -/
def hushFailureScript : Text :=
  Text.joinLines
    [ubootErr "U-Boot hush shell is required".toList,
      ubootMsg "uboot-tftp requires hush-compatible if/then support".toList .yellow false true]

/-- `${name}`. -/
def expansion (name : Text) : Text := "$\x7b".toList ++ name ++ "\x7d".toList

/-- A path with an assignment for each requested key, whose value the device puts in when it runs
the script. -/
def appendReturnKeys (path : Text) (keys : List Text) : Text :=
  keys.foldl (fun path key => path ++ '/' :: key ++ '=' :: expansion key) path

/-- A number as it stands in a script: an integer in hexadecimal, a text as it is, so that a handler
can hand over an expression of its own. -/
def formatUbootNumber : UbootNumber → Text
  | .int value => Text.hex value
  | .text value => value

/-- `env[key]`. -/
def lookupEnv (env : Dict Text Text) (key : Text) : Except Raised Text :=
  match env.get key with
  | some value => .ok value
  | none => .error (.missingKey key)

/-- The command that fetches and runs the continuation of a session. It carries the token that the
next request has to show, the status of an upload if there was one, and the requested keys. The
source reads the transfer command and the load address by subscription, so a session without them
raises `KeyError` here. -/
def continueCommand {κ : Type u} (session : ClientSession κ) (recvStatus : Option Text)
    (returnKeys : List Text) : Except Raised Text := do
  match session.currentToken with
  | none => .error .missingContinuationToken
  | some token =>
    let path := "id=".toList ++ session.clientId.text ++ "/token=".toList ++ token
    let path := match recvStatus with
      | some status => path ++ "/recv=".toList ++ status
      | none => path
    let path := appendReturnKeys path returnKeys
    let cmdtftp ← lookupEnv session.env "cmdtftp".toList
    let rambase ← lookupEnv session.env "rambase".toList
    .ok ("if ".toList ++ cmdtftp ++ ' ' :: expansion rambase ++ " \"".toList ++ session.serverIp ++
      ':' :: path ++ "\"; then source ".toList ++ expansion rambase ++
      "; else echo \"uboot-tftp: continuation RRQ failed\"; fi".toList)

/-- A script with the command for the continuation behind it. -/
def appendContinue {κ : Type u} (script : Text) (session : ClientSession κ)
    (recvStatus : Option Text) (returnKeys : List Text) : Except Raised Text := do
  let command ← continueCommand session recvStatus returnKeys
  .ok (Text.joinLines [script, command])

/-- The address an upload is read from, with the commands that set and clear it.
An offset takes a fresh variable name. -/
def receiveAddress {κ : Type u} (session : ClientSession κ) (tmpName : Text)
    (offset : Option UbootNumber) : Except Raised (Text × Text × Text) := do
  let rambase ← lookupEnv session.env "rambase".toList
  match offset with
  | none => .ok (expansion rambase, [], [])
  | some value =>
    .ok (expansion tmpName,
      "setexpr ".toList ++ tmpName ++ ' ' :: expansion rambase ++ " + ".toList ++
        formatUbootNumber value,
      "setenv ".toList ++ tmpName)

/-- The script that uploads the requested bytes and continues with the outcome: the same
continuation is written twice, with `recv=ok` where the transfer succeeds and with `recv=failed`
where it does not. The address variable is cleared behind it. -/
def appendReceive {κ : Type u} (script : Text) (session : ClientSession κ) (tmpName : Text)
    (returnKeys : List Text) (receiveOffset : Option UbootNumber) : Except Raised Text := do
  match session.pendingReceive with
  | none => .error .missingPendingReceive
  | some pending =>
    let uploadRemote := "id=".toList ++ session.clientId.text ++ "/token=".toList ++
      pending.token ++ pending.uploadPath
    let success ← continueCommand session (some "ok".toList) returnKeys
    let failure ← continueCommand session (some "failed".toList) returnKeys
    let (address, prelude, cleanup) ← receiveAddress session tmpName receiveOffset
    let cmdtftpput ← lookupEnv session.env "cmdtftpput".toList
    let receive := "if ".toList ++ cmdtftpput ++ ' ' :: address ++ ' ' :: Text.hex pending.size ++
      " \"".toList ++ session.serverIp ++ ':' :: uploadRemote ++ "\";\nthen\n    ".toList ++
      success ++ "\nelse\n    ".toList ++ failure ++ "\nfi".toList
    .ok (Text.joinLines [script, prelude, receive, cleanup])

/-- The route of a client is the section of its id, or else the default one. -/
def routeFor (config : DaemonConfig) (clientId : ClientId) : ScriptRoute :=
  (config.routes.get clientId.text).getD config.default

/-- Call the entry function of the session's route. The call only makes the coroutine: its first
line runs when it is resumed. The arguments name the request that started the session and the one
that is being handled. -/
def createHandler {κ : Type u} (provider : Provider κ) (session : ClientSession κ)
    (request : ContentRequest) : Except Raised (Coroutine κ) :=
  let route := routeFor provider.config session.clientId
  match session.requests with
  | [] => .error .noRequests
  | initialRequest :: _ =>
    match provider.module route.entryFunc with
    | .missing => .error (.scriptFunctionNotFound route.entryFunc)
    | .raising error => .error error
    | .notAsync => .error .handlerNotAsync
    | .async start =>
      .ok (.suspended (start ⟨provider.host.staticRoot, session.clientId.text,
        commandFromSegments initialRequest.segments, initialRequest, request⟩) .created)

/-- What a pending receive sends to the handler: the uploaded bytes, if the client reports success
and an upload was recorded. In every other case it is `None`, which the suspended helper turns into
`ReceiveFailedError`. -/
def receivedValue (pending : PendingReceive) (parsed : ParsedPath) : Option Bytes :=
  if (parsed.values.get recvKey).getD "failed".toList = "ok".toList then pending.uploaded else none

namespace World

variable {κ : Type u}

/-- Put a session back under its own id. -/
def putSession (world : World κ) (session : ClientSession κ) : World κ :=
  { world with sessions := world.sessions.set session.clientId session }

/-- Release the session's artifacts and drop it from the store. The suspended coroutine goes with
the session; what its `finally` blocks would do is not modelled. -/
def discardSession (world : World κ) (now : Nat) (session : ClientSession κ) : World κ :=
  { world with
    downloads := session.downloadArtifacts.keys.foldl
      (fun downloads artifactKey =>
        downloads.release now artifactKey session.clientId.text) world.downloads
    sessions := world.sessions.erase session.clientId }

/-- Leave the session stored and answer with a script, or raise what building the script raised. In
both cases the session keeps what was set for the answer, such as its new token. -/
def answer (world : World κ) (host : Host) (session : ClientSession κ)
    (script : Except Raised Text) : World κ × Except Raised ContentResult :=
  match script with
  | .error raised => (world.putSession session, .error raised)
  | .ok script =>
    (world.putSession session, .ok (ContentResult.fromBytes (host.compile (ensureNewline script))))

/-- Draw the token and build the script that makes the client report its shell. The session is
stored with the new token even if the script cannot be built. -/
def preflightResult (world : World κ) (host : Host) (session : ClientSession κ) :
    World κ × Except Raised ContentResult :=
  let session := { session with
    currentToken := some (host.token world.tokensDrawn)
    phase := .awaitRrq }
  let world := { world with tokensDrawn := world.tokensDrawn + 1 }
  world.answer host session (appendContinue hushProbeScript session none [hushKey])

/-- Start a session in place of the client's present one, whose artifacts are released first. The
handler is not made yet: that happens behind the gate. -/
def startSession (world : World κ) (provider : Provider κ) (now : Nat) (request : ContentRequest)
    (parsed : ParsedPath) (clientId : ClientId) : World κ × Except Raised ContentResult :=
  let world := match world.sessions.get clientId with
    | some existing => world.discardSession now existing
    | none => world
  let env := sessionEnv provider.config.env (routeFor provider.config clientId).env parsed
  let session := { (ClientSession.create clientId : ClientSession κ).recordRrq parsed with
    serverIp := provider.host.localIp request.peer.1
    env := env
    publicEnv := publicEnv env
    preflightPending := true }
  world.preflightResult provider.host session

/-- Turn what the handler awaits into the next script. A request that is not final draws a token and
ends in a continuation, one that expects an upload registers it under its own token, and a final one
drops the session. An object that is no request of the server's raises `TypeError` and leaves the
session stored. -/
def resultFromInstruction (world : World κ) (host : Host) (now : Nat) (session : ClientSession κ)
    (awaited : Awaited) : World κ × Except Raised ContentResult :=
  match awaited.instruction with
  | none => (world.putSession session, .error .foreignAwaitable)
  | some instruction =>
    let script := Text.rstrip instruction.script
    match instruction.receiveSize with
    | some size =>
      let token := host.token world.tokensDrawn
      let session := { session with
        currentToken := some token
        pendingReceive := some ⟨token, "/upload.bin".toList, size, none⟩
        phase := .awaitUpload }
      let tmpName := "__uboot_tftp_recv_".toList ++ host.hexToken world.namesDrawn
      let namesDrawn := match instruction.receiveOffset with
        | some _ => world.namesDrawn + 1
        | none => world.namesDrawn
      let world := { world with tokensDrawn := world.tokensDrawn + 1, namesDrawn := namesDrawn }
      world.answer host session
        (appendReceive script session tmpName instruction.returnKeys instruction.receiveOffset)
    | none =>
      if instruction.final then
        (world.discardSession now { session with phase := .complete },
          .ok (ContentResult.fromBytes (host.compile (ensureNewline script))))
      else
        let session := { session with
          currentToken := some (host.token world.tokensDrawn)
          phase := .awaitRrq }
        let world := { world with tokensDrawn := world.tokensDrawn + 1 }
        world.answer host session (appendContinue script session none instruction.returnKeys)

/-- Run the session's handler from a suspended state and act on how its code ends. A handler that
returns and one that lets `ReceiveFailedError` out both lose their session; any other exception
leaves the session in the store, with a coroutine that has finished. -/
def runHandler (world : World κ) (provider : Provider κ) (now : Nat) (schedule : Schedule)
    (session : ClientSession κ) (state : κ) (resumption : Resumption) : Outcome κ :=
  let (left, codeEnd) := (provider.resume state resumption).run provider.host now schedule
    ⟨session, world.downloads, world.files⟩
  let world := { world with downloads := left.downloads, files := left.files }
  match codeEnd with
  | .returned =>
    let session := { left.session with handler := some .finished, phase := .complete }
    ⟨world.discardSession now session, some (resumption, .returned),
      .error .completedWithoutScript⟩
  | .raised error =>
    if error.cls = .receiveFailedError then
      let session := { left.session with handler := some .finished, phase := .complete }
      ⟨world.discardSession now session, some (resumption, .raised error),
        .error (.handlerReceiveFailed error)⟩
    else
      let session := { left.session with handler := some .finished }
      ⟨world.putSession session, some (resumption, .raised error), .error error⟩
  | .awaited awaited next =>
    let session := { left.session with handler := some (.suspended next awaited.point) }
    let (world, result) := world.resultFromInstruction provider.host now session awaited
    ⟨world, some (resumption, .awaited awaited next), result⟩

/-- Send a value to the session's handler. As in Python, a finished coroutine cannot be resumed, and
one that has not begun takes no value. -/
def advanceSession (world : World κ) (provider : Provider κ) (now : Nat) (schedule : Schedule)
    (session : ClientSession κ) (handler : Coroutine κ) (sendValue : Option Bytes) : Outcome κ :=
  match handler with
  | .finished => ⟨world.putSession session, none, .error .coroutineReused⟩
  | .suspended state point =>
    if point = .created ∧ sendValue ≠ none then
      ⟨world.putSession session, none, .error .sentToUnstarted⟩
    else world.runHandler provider now schedule session state (point.resumption sendValue)

/-- The part of a resumption after the preflight: the upload that was waited for is taken out of the
session and handed to the handler, or nothing is. A session whose handler was never made refuses. -/
def resumeHandler (world : World κ) (provider : Provider κ) (now : Nat) (schedule : Schedule)
    (session : ClientSession κ) (parsed : ParsedPath) : Outcome κ :=
  match session.handler with
  | none =>
    ⟨world.putSession session, none, .error (.noActiveHandler session.clientId.text)⟩
  | some handler =>
    match session.pendingReceive with
    | some pending =>
      world.advanceSession provider now schedule { session with pendingReceive := none } handler
        (receivedValue pending parsed)
    | none => world.advanceSession provider now schedule session handler none

/-- The part of a resumption after the check of the token. The request's values are merged before
the gate looks at the shell report, and the flag of the preflight is cleared before the handler is
made, so that an exception between the two leaves a session without either. -/
def continueSession (world : World κ) (provider : Provider κ) (now : Nat) (schedule : Schedule)
    (request : ContentRequest) (parsed : ParsedPath) (session : ClientSession κ) : Outcome κ :=
  let session := mergeContinuationValues (session.recordRrq parsed) parsed
  if session.preflightPending then
    let session := { session with preflightPending := false }
    if session.env.get hushKey ≠ some "true".toList then
      ⟨world.discardSession now { session with phase := .complete }, none,
        .ok (ContentResult.fromBytes (provider.host.compile (ensureNewline hushFailureScript)))⟩
    else
      match createHandler provider session request with
      | .error raised => ⟨world.putSession session, none, .error raised⟩
      | .ok handler =>
        world.resumeHandler provider now schedule { session with handler := some handler } parsed
  else world.resumeHandler provider now schedule session parsed

/-- Resume the client's session if the request carries its current token. A session without a token
has none to compare with, and then no continuation gets through. Nothing changes where the token is
wrong. -/
def resumeSession (world : World κ) (provider : Provider κ) (now : Nat) (schedule : Schedule)
    (request : ContentRequest) (parsed : ParsedPath) (clientId : ClientId) : Outcome κ :=
  match world.sessions.require clientId with
  | .error raised => ⟨world, none, .error raised⟩
  | .ok session =>
    if parsed.values.get tokenKey ≠ session.currentToken then
      ⟨world, none, .error (.invalidSessionToken clientId.text)⟩
    else world.continueSession provider now schedule request parsed session

/-- Answer a static request from the files. What is asked for is looked up below the root; a path
that leads out of the root is a miss, and so is a directory. Looking up a path that is too long
raises, which is no miss. -/
def staticResult (world : World κ) (host : Host) (path : Text) : Except Raised ContentResult :=
  match resolveStaticPath host path with
  | .error raised => .error raised
  | .ok none => .error (.missingStaticFile path)
  | .ok (some target) =>
    match world.files.fileContents (host.resolve host.staticRoot) target with
    | .error raised => .error raised
    | .ok (some body) => .ok (ContentResult.fromBytes body)
    | .ok none => .error (.missingStaticFile path)

/-- `ScriptedSessionProvider.fetch`. The three kinds of request are told apart by the parsed name:
one without an id is static, one with a token continues the session of the id, and any other starts
one. -/
def fetch (world : World κ) (provider : Provider κ) (now : Nat) (schedule : Schedule)
    (request : ContentRequest) : Outcome κ :=
  match parseRequestPath request.filename with
  | .error raised => ⟨world, none, .error raised⟩
  | .ok parsed =>
    match parsed.clientId with
    | none => ⟨world, none, world.staticResult provider.host parsed.path⟩
    | some clientId =>
      if isContinuation parsed then
        world.resumeSession provider now schedule request parsed clientId
      else
        let (world, result) := world.startSession provider now request parsed clientId
        ⟨world, none, result⟩

end World

end UbootTftp
