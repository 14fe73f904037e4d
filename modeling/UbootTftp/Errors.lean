import UbootTftp.Text

/-!
# Exceptions

Each raise statement of the server is one constructor that carries the values its
message interpolates; the comment gives the message. `cls` is the exception class,
which is all that an `except` clause sees. A handler may raise anything, so its
exceptions name their class and text.
-/

/-- A sequence of two computations succeeds exactly when both do. -/
theorem Except.bind_eq_ok.{u, v} {ε : Type u} {α β : Type v} (first : Except ε α)
    (second : α → Except ε β) (result : β) :
    (first >>= second) = .ok result ↔ ∃ value, first = .ok value ∧ second value = .ok result := by
  cases first with
  | error raised => simp [bind, Except.bind]
  | ok value => simp [bind, Except.bind]

namespace UbootTftp

/-- Components of an absolute path, outermost first; the root of the file system
has none. -/
abbrev Path := List Text

/-- The exception classes that the server raises or tells apart. An `except` clause of the
source sees nothing but the class, so this is all that a statement about errors that are caught
depends on. -/
inductive ErrorClass
  | valueError
  | typeError
  | keyError
  | indexError
  | runtimeError
  | fileNotFoundError
  | fileExistsError
  | isADirectoryError
  | notADirectoryError
  /-- `OSError` itself, for an error number without a class of its own. -/
  | osError
  /-- `ReceiveFailedError`, a subclass of `RuntimeError` of its own. -/
  | receiveFailedError
  /-- Any other class; only a handler raises one. -/
  | other (name : Text)
  deriving DecidableEq

/-- Attributes that a repeated acquire of an artifact can contradict. The first one that differs is
named in the error, in this order. -/
inductive Conflict
  | url
  | relativePath
  | destination
  | pageUrl
  | headers
  deriving DecidableEq

/-- An exception as its raise statement built it, with the values that its message shows. The
messages themselves are not modelled as texts; equal constructors with equal values give equal
messages. -/
inductive Raised
  /-- `invalid client id: {value!r}` -/
  | invalidClientId (value : Text)
  /-- `no session for client id {client_id!r}` -/
  | noSession (clientId : Text)
  /-- `invalid session token for {client_id!r}` -/
  | invalidSessionToken (clientId : Text)
  /-- `session has no active handler: {client_id!r}` -/
  | noActiveHandler (clientId : Text)
  /-- `session completed without emitting a script` -/
  | completedWithoutScript
  /-- `str(error)` of the `ReceiveFailedError` that ended the handler. -/
  | handlerReceiveFailed (error : Raised)
  /-- `script function not found: {entry_func}` -/
  | scriptFunctionNotFound (entryFunc : Text)
  /-- `session handlers must be async functions` -/
  | handlerNotAsync
  /-- `session handlers must await tftp.exec(...) helpers` -/
  | foreignAwaitable
  /-- `missing continuation token` -/
  | missingContinuationToken
  /-- `missing pending receive state` -/
  | missingPendingReceive
  /-- `cannot reuse already awaited coroutine` -/
  | coroutineReused
  /-- `can't send non-None value to a just-started coroutine` -/
  | sentToUnstarted
  /-- `list index out of range`, for the first request of a session. -/
  | noRequests
  /-- A missing key of an environment dictionary. -/
  | missingKey (key : Text)
  /-- `exec_recv(..., final=True) is not supported` -/
  | finalReceive
  /-- `expected WRQ upload before continuation RRQ` -/
  | uploadExpected
  /-- `invalid return key: {key!r}` -/
  | invalidReturnKey (key : Text)
  /-- A static file that does not exist, with the requested path. -/
  | missingStaticFile (path : Text)
  /-- `embedded null byte`, raised when a path with a NUL reaches the file system. -/
  | embeddedNull
  /-- `unsafe destination path: {destination!r}` -/
  | unsafeDestination (destination : Text)
  /-- `unsafe filename path: {filename!r}` -/
  | unsafeFilename (filename : Text)
  /-- `missing file: {filename!r}` -/
  | missingFile (filename : Text)
  /-- `unknown download artifact: {artifact_key!r}` -/
  | unknownArtifact (artifactKey : Text)
  /-- `artifact key {artifact_key!r} already mapped to a different ...` -/
  | artifactConflict (artifactKey : Text) (conflict : Conflict)
  /-- `static uploads must be written to disk` -/
  | staticUpload
  /-- `unexpected session upload path: {filename!r}` -/
  | unexpectedUploadPath (filename : Text)
  /-- `unsafe upload filename: {filename!r}` -/
  | unsafeUploadFilename (filename : Text)
  /-- Opening a directory for writing or reading it as a file. -/
  | isADirectory (path : Path)
  /-- Creating a directory where a file stands. -/
  | fileExists (path : Path)
  /-- Creating a directory below a file. -/
  | notADirectory (path : Path)
  /-- `File name too long`, when the file system is asked for such a path. -/
  | fileNameTooLong (path : Path)
  /-- Using a file object after it was closed. -/
  | closedFile
  /-- `[server] rootdir must be an absolute path` -/
  | rootNotAbsolute
  /-- `[env] must define: {names}` -/
  | missingEnv (names : List Text)
  /-- `[{section}] must set entry_func` -/
  | missingEntryFunc (route : Text)
  /-- A value that `dict` cannot convert where a table is expected. -/
  | notATable
  /-- An exception that handler code raised itself. -/
  | byHandler (cls : ErrorClass) (text : Text)
  deriving DecidableEq

namespace Raised

/-- The class of the exception. The handlers of the server decide by the class which exceptions they
turn into an answer, and let the others through. -/
def cls : Raised → ErrorClass
  | invalidClientId _ | scriptFunctionNotFound _ | finalReceive | invalidReturnKey _ | embeddedNull
  | unsafeDestination _ | unsafeFilename _ | artifactConflict _ _ | unsafeUploadFilename _
  | closedFile | rootNotAbsolute | missingEnv _ | missingEntryFunc _ => .valueError
  | noSession _ | invalidSessionToken _ | noActiveHandler _ | completedWithoutScript
  | handlerReceiveFailed _ | missingStaticFile _ | missingFile _ | unknownArtifact _
  | staticUpload | unexpectedUploadPath _ => .fileNotFoundError
  | handlerNotAsync | foreignAwaitable | notATable | sentToUnstarted => .typeError
  | noRequests => .indexError
  | uploadExpected => .receiveFailedError
  | missingContinuationToken | missingPendingReceive | coroutineReused => .runtimeError
  | missingKey _ => .keyError
  | isADirectory _ => .isADirectoryError
  | fileExists _ => .fileExistsError
  | notADirectory _ => .notADirectoryError
  | fileNameTooLong _ => .osError
  | byHandler cls _ => cls

end Raised

end UbootTftp
