import UbootTftp.Sessions

/-!
# User handlers

A handler is a coroutine of user code. Its suspended states form an arbitrary
type `κ`; resuming one of them yields the code that runs up to the next
suspension. That code is a tree of calls of the session handle: each call has one
continuation for every answer, so a handler can depend on its answers in any way
and can run for any number of suspensions.

Between two suspensions the code runs inside one request. Download threads run
concurrently; `Schedule` lists the reports that they make before each call.
-/

namespace UbootTftp

universe u

/-- A number that is written into a script: a Python `int` or a text. -/
inductive UbootNumber
  | int (value : Int)
  | text (value : Text)

/-- What a helper call yields to the server: the text of the script, whether it is the last one, the
size of the upload it expects, the variables to report and where the upload lies in memory. -/
structure ExecutionRequest where
  script : Text
  final : Bool
  receiveSize : Option Int
  returnKeys : List Text
  receiveOffset : Option UbootNumber

/-- A script argument: one text, or lines of which the empty ones are left out. -/
inductive Script
  | text (value : Text)
  | lines (values : List Text)

/-- The text of a script argument. Lines that are empty are left out where they are joined. -/
def joinScriptLines : Script → Text
  | .text value => value
  | .lines values => Text.joinLines values

/-- A key that cannot be a segment of a continuation path. -/
def invalidReturnKey (key : Text) : Bool :=
  key = [] || key.any (fun character => character ∈ ['/', '=', '\r', '\n'])

/-- Check the keys that a continuation is to report. -/
def normalizeReturnKeys (keys : List Text) : Except Raised (List Text) :=
  match keys.find? invalidReturnKey with
  | some key => .error (.invalidReturnKey key)
  | none => .ok keys

/-- `SessionHandle.exec` up to its suspension. The keys are checked before the coroutine is
suspended, so a wrong one raises inside the handler. -/
def exec (script : Script) (final : Bool) (keys : List Text) : Except Raised ExecutionRequest := do
  let returnKeys ← normalizeReturnKeys keys
  .ok ⟨joinScriptLines script, final, none, returnKeys, none⟩

/-- `SessionHandle.exec_recv` up to its suspension. A final upload is refused: there would be no
request to hand the bytes over with. -/
def execRecv (script : Script) (size : Int) (final : Bool) (keys : List Text)
    (offset : Option UbootNumber) : Except Raised ExecutionRequest :=
  if final then .error .finalReceive
  else do
    let returnKeys ← normalizeReturnKeys keys
    .ok ⟨joinScriptLines script, false, some size, returnKeys, offset⟩

/-- What a handler awaits: a helper call, with the arguments that built its request, or an object
that is no request of the server's. A helper that refuses its arguments raises inside the handler
without suspending it. The proofs that the requests were built make a hand-made one impossible,
which the source's private class does for well-behaved handlers. -/
inductive Awaited
  | exec (request : ExecutionRequest)
      (built : ∃ script final keys, UbootTftp.exec script final keys = .ok request)
  | execRecv (request : ExecutionRequest)
      (built : ∃ script size final keys offset,
        UbootTftp.execRecv script size final keys offset = .ok request)
  | foreign

namespace Awaited

/-- The object that `send` returns, if it is an execution request. -/
def instruction : Awaited → Option ExecutionRequest
  | .exec request _ => some request
  | .execRecv request _ => some request
  | .foreign => none

/-- Where the handler is suspended while it awaits. -/
def point : Awaited → Suspension
  | .exec _ _ => .inExec
  | .execRecv _ _ => .inExecRecv
  | .foreign => .inForeign

end Awaited

/-- A request built by `exec` expects no upload. -/
theorem exec_expects (script : Script) (final : Bool) (keys : List Text)
    (request : ExecutionRequest) (built : exec script final keys = .ok request) :
    request.receiveSize = none := by
  obtain ⟨returnKeys, -, made⟩ := (Except.bind_eq_ok _ _ _).mp built
  cases made
  rfl

/-- A request built by `exec_recv` is never final and expects an upload of the
given size. -/
theorem exec_recv_expects (script : Script) (size : Int) (final : Bool) (keys : List Text)
    (offset : Option UbootNumber) (request : ExecutionRequest)
    (built : execRecv script size final keys offset = .ok request) :
    request.final = false ∧ request.receiveSize = some size := by
  unfold execRecv at built
  split at built
  · cases built
  · obtain ⟨returnKeys, -, made⟩ := (Except.bind_eq_ok _ _ _).mp built
    cases made
    exact ⟨rfl, rfl⟩

/-- What an awaiting handler gets back. -/
inductive Resumption
  /-- The first line of the handler runs. -/
  | started
  /-- `exec` returned. -/
  | execReturned
  /-- `exec_recv` returned the uploaded bytes. -/
  | received (body : Bytes)
  /-- `exec_recv` raised `ReceiveFailedError`. -/
  | receiveFailed
  /-- A foreign awaitable got the sent value. -/
  | sent (value : Option Bytes)
  deriving DecidableEq

/-- What the code at a suspension point makes of the value sent to it: `exec`
ignores it and `exec_recv` raises on `None`. -/
def Suspension.resumption : Suspension → Option Bytes → Resumption
  | .created, _ => .started
  | .inExec, _ => .execReturned
  | .inExecRecv, some body => .received body
  | .inExecRecv, none => .receiveFailed
  | .inForeign, value => .sent value

/-- Handler code from one suspension to the next. The code between two calls of the handle is not
modelled step by step: it shows in which call comes next for each answer of the last one. -/
inductive Code (κ : Type u) : Type u
  /-- Suspend in the awaited object; `next` is the state to resume from. -/
  | await (awaited : Awaited) (next : κ)
  /-- Return. -/
  | finish
  /-- Raise. -/
  | raise (error : Raised)
  /-- Read the session: its id, environments, address and requests. -/
  | inspect (next : ClientSession κ → Code κ)
  /-- Change the environment dictionary that the handler was given. -/
  | setEnv (env : Dict Text Text) (next : Code κ)
  | acquireDownload (artifactKey url destination : Text) (pageUrl : Option Text)
      (headers : Option (Dict Text Text)) (next : Except Raised DownloadArtifact → Code κ)
  | getDownload (artifactKey : Text) (next : Except Raised DownloadArtifact → Code κ)
  | writeFile (destination : Text) (body : Bytes) (next : Except Raised Path → Code κ)
  | fileExists (filename : Text) (next : Except Raised Bool → Code κ)
  | readFile (filename : Text) (next : Except Raised Bytes → Code κ)

/-- How a run of handler code ended: suspended in an awaited object with the state to resume from,
returned, or raised. -/
inductive CodeEnd (κ : Type u)
  | awaited (awaited : Awaited) (next : κ)
  | returned
  | raised (error : Raised)

/-- What handler code reads and changes: its own session, the downloads of all sessions and the
files. -/
structure HandleState (κ : Type u) where
  session : ClientSession κ
  downloads : DownloadJobStore
  files : FileTree

/-- The reports of download threads before each call of the handle. A schedule that is too short
stands for calls without any report. -/
abbrev Schedule := List (List ThreadEvent)

namespace HandleState

variable {κ : Type u}

/-- A thread's report, which for a finished download includes moving the file. -/
def report (now : Nat) (state : HandleState κ) (event : ThreadEvent) : HandleState κ :=
  { state with
    downloads := state.downloads.report now event
    files := event.applied state.files }

/-- The reports that precede a call. -/
def reports (now : Nat) (state : HandleState κ) (events : List ThreadEvent) : HandleState κ :=
  events.foldl (report now) state

/-- `SessionHandle.acquire_download`. The session's own set is extended only after the store has
attached the session, so an exception of the store leaves no artifact to release. -/
def acquireDownload (host : Host) (now : Nat) (state : HandleState κ)
    (artifactKey url destination : Text) (pageUrl : Option Text)
    (headers : Option (Dict Text Text)) : HandleState κ × Except Raised DownloadArtifact :=
  match resolveStaticPath host ('/' :: destination) with
  | .error raised => (state, .error raised)
  | .ok none => (state, .error (.unsafeDestination destination))
  | .ok (some target) =>
    let relativePath := List.intercalate ['/'] (pathParts (destination.dropWhile (· == '/')))
    let relativePath := (if relativePath = [] then ['.'] else relativePath).map
      (fun character => if character = '\\' then '/' else character)
    let outcome := state.downloads.acquire host now
      ⟨artifactKey, state.session.clientId.text, url, relativePath, target, pageUrl, headers⟩
    match outcome.2 with
    | .error raised => ({ state with downloads := outcome.1 }, .error raised)
    | .ok artifact =>
      ({ state with
          downloads := outcome.1
          session := { state.session with
            downloadArtifacts := state.session.downloadArtifacts.set artifactKey () } },
        .ok artifact)

/-- `SessionHandle.get_download`. -/
def getDownload (state : HandleState κ) (artifactKey : Text) : Except Raised DownloadArtifact :=
  match state.downloads.get artifactKey with
  | some entry => .ok entry.snapshot
  | none => .error (.unknownArtifact artifactKey)

/-- `SessionHandle.write_file`: the parents are made, and then the whole file is replaced. A path
out of the root is refused before anything is touched. -/
def writeFile (host : Host) (state : HandleState κ) (destination : Text) (body : Bytes) :
    HandleState κ × Except Raised Path :=
  match resolveStaticPath host ('/' :: destination) with
  | .error raised => (state, .error raised)
  | .ok none => (state, .error (.unsafeDestination destination))
  | .ok (some target) =>
    match state.files.makeParents target with
    | .error raised => (state, .error raised)
    | .ok () =>
      match state.files.writeBytes target body with
      | .error raised => (state, .error raised)
      | .ok files => ({ state with files := files }, .ok target)

/-- `SessionHandle.file_exists`. A path out of the root counts as missing; one that is too long to
be looked up raises. -/
def fileExists (host : Host) (state : HandleState κ) (filename : Text) : Except Raised Bool :=
  match resolveStaticPath host ('/' :: filename) with
  | .error raised => .error raised
  | .ok none => .ok false
  | .ok (some target) => state.files.pathExists (host.resolve host.staticRoot) target

/-- `SessionHandle.read_file`. The source looks first and reads then, so that a directory is found
and raises only when it is read. -/
def readFile (host : Host) (state : HandleState κ) (filename : Text) : Except Raised Bytes :=
  match resolveStaticPath host ('/' :: filename) with
  | .error raised => .error raised
  | .ok none => .error (.unsafeFilename filename)
  | .ok (some target) =>
    match state.files.pathExists (host.resolve host.staticRoot) target with
    | .error raised => .error raised
    | .ok _ => state.files.readBytes target (.missingFile filename)

end HandleState

/-- Run handler code to its next suspension or its end. Before each call the threads report what the
schedule lists for it. The recursion is on the code, which is a tree of finite depth: code that
never suspends is not modelled. -/
def Code.run {κ : Type u} (host : Host) (now : Nat) :
    Code κ → Schedule → HandleState κ → HandleState κ × CodeEnd κ
  | .await awaited next, _, state => (state, .awaited awaited next)
  | .finish, _, state => (state, .returned)
  | .raise error, _, state => (state, .raised error)
  | .inspect next, schedule, state =>
    let state := state.reports now (schedule.headD [])
    (next state.session).run host now schedule.tail state
  | .setEnv env next, schedule, state =>
    let state := state.reports now (schedule.headD [])
    next.run host now schedule.tail
      { state with session := { state.session with publicEnv := env } }
  | .acquireDownload artifactKey url destination pageUrl headers next, schedule, state =>
    let state := state.reports now (schedule.headD [])
    let outcome := state.acquireDownload host now artifactKey url destination pageUrl headers
    (next outcome.2).run host now schedule.tail outcome.1
  | .getDownload artifactKey next, schedule, state =>
    let state := state.reports now (schedule.headD [])
    (next (state.getDownload artifactKey)).run host now schedule.tail state
  | .writeFile destination body next, schedule, state =>
    let state := state.reports now (schedule.headD [])
    let outcome := state.writeFile host destination body
    (next outcome.2).run host now schedule.tail outcome.1
  | .fileExists filename next, schedule, state =>
    let state := state.reports now (schedule.headD [])
    (next (state.fileExists host filename)).run host now schedule.tail state
  | .readFile filename next, schedule, state =>
    let state := state.reports now (schedule.headD [])
    (next (state.readFile host filename)).run host now schedule.tail state

end UbootTftp
