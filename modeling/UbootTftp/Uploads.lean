import UbootTftp.Sessions

/-!
# Session uploads

A session upload is accepted when its client's session waits for it: the session
has a pending receive, the upload's path ends in the expected upload path and the
upload carries the token of the pending receive. The check is made when the file
object is opened and again when it is closed; only the second one records.
-/

namespace UbootTftp

universe u

/-- An upload request: the file name and the addresses of the two ends. The name decides which
session the upload is for, and the addresses are only kept. -/
structure UploadRequest where
  filename : Text
  peer : Text × Nat
  serverAddr : Text × Nat
  deriving DecidableEq

/-- An upload as it is kept after the transfer. The body is complete: chunks that come behind the
close are not taken any more. -/
structure UploadedFile where
  filename : Text
  peer : Text × Nat
  serverAddr : Text × Nat
  body : Bytes
  deriving DecidableEq

/-- Everything recorded so far, in order and by client. Both views are only ever extended. -/
structure InMemoryUploadStore where
  uploads : List UploadedFile
  byClientId : Dict ClientId (List UploadedFile)
  deriving DecidableEq

/-- The file object of a session upload. Its buffer is closed once captured, so that a second close
records nothing. -/
structure CapturingUpload where
  request : UploadRequest
  value : Bytes
  captured : Bool
  deriving DecidableEq

/-- The record that a captured upload leaves. -/
def CapturingUpload.uploadedFile (upload : CapturingUpload) : UploadedFile :=
  ⟨upload.request.filename, upload.request.peer, upload.request.serverAddr, upload.value⟩

/-- Whether a pending receive waits for the upload that a path names: the path ends in the expected
one and carries the token. What stands before the end is not compared, which lets the server's root
stand in front of the name. -/
def PendingReceive.expects (pending : PendingReceive) (parsed : ParsedPath) : Bool :=
  pending.uploadPath.isSuffixOf parsed.path &&
    decide (parsed.values.get "token".toList = some pending.token)

namespace InMemoryUploadStore

variable {κ : Type u}

/-- The check that `open` and `record` make: the client, its session and the pending receive that
wait for the named upload. It reads the sessions and changes nothing; what it raises depends on how
far it comes. -/
def expected (sessions : InMemorySessionStore κ) (filename : Text) :
    Except Raised (ClientId × ClientSession κ × PendingReceive) :=
  match parseRequestPath filename with
  | .error raised => .error raised
  | .ok parsed =>
    match parsed.clientId with
    | none => .error .staticUpload
    | some clientId =>
      match sessions.require clientId with
      | .error raised => .error raised
      | .ok session =>
        match session.pendingReceive with
        | none => .error (.unexpectedUploadPath filename)
        | some pending =>
          if pending.expects parsed then .ok (clientId, session, pending)
          else .error (.unexpectedUploadPath filename)

/-- `InMemoryUploadStore.open`. A refused upload raises instead of giving no file object. The same
check is made again when the upload is closed. -/
def openUpload (sessions : InMemorySessionStore κ) (request : UploadRequest) :
    Except Raised CapturingUpload :=
  match expected sessions request.filename with
  | .error raised => .error raised
  | .ok _ => .ok ⟨request, [], false⟩

/-- `InMemoryUploadStore.record`. The body replaces what an earlier upload left in the pending
receive, and the session stays where it is: only the next continuation takes the bytes out. -/
def record (store : InMemoryUploadStore) (sessions : InMemorySessionStore κ)
    (request : UploadRequest) (body : Bytes) :
    Except Raised (InMemoryUploadStore × InMemorySessionStore κ) :=
  match expected sessions request.filename with
  | .error raised => .error raised
  | .ok (clientId, session, pending) =>
    let upload : UploadedFile := ⟨request.filename, request.peer, request.serverAddr, body⟩
    let clientUploads := (store.byClientId.get clientId).getD []
    .ok (⟨store.uploads ++ [upload], store.byClientId.set clientId (clientUploads ++ [upload])⟩,
        sessions.set clientId
          { session with pendingReceive := some { pending with uploaded := some body } })

end InMemoryUploadStore

end UbootTftp
