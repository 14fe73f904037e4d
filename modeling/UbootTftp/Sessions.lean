import UbootTftp.DownloadJobs
import UbootTftp.Protocol

/-!
# Client sessions

A session belongs to one client id and holds the suspended handler coroutine with
everything the server needs to check and resume it. The store keeps at most one
session for each id. The store's methods normalize the ids they are given; a
`ClientId` is normalized already.

Handler code is arbitrary, so a session is generic in the type `κ` of the states
in which a handler can be suspended.
-/

namespace UbootTftp

universe u

/-- What a session waits for. The server only ever writes the phase; no check reads it. -/
inductive SessionPhase
  | awaitRrq
  | awaitUpload
  | complete
  deriving DecidableEq

/-- The upload that a suspended `exec_recv` waits for: its token, the path it will come under, the
size that was asked for and the bytes, once they are there. The size is never compared with them. -/
structure PendingReceive where
  token : Text
  uploadPath : Text
  size : Int
  uploaded : Option Bytes
  deriving DecidableEq

/-- Where a coroutine is suspended: before its first line, in one of the two
helpers, or in an awaitable that is none of the server's. -/
inductive Suspension
  | created
  | inExec
  | inExecRecv
  | inForeign
  deriving DecidableEq

/-- A handler coroutine. One that has returned or raised cannot be resumed. -/
inductive Coroutine (κ : Type u)
  | suspended (state : κ) (point : Suspension)
  | finished
  deriving DecidableEq

/-- One client's session: what the client has sent, where its handler stands, the token that its
next request has to carry, and the two environments, of which handlers see the second. -/
structure ClientSession (κ : Type u) where
  clientId : ClientId
  rrqCount : Nat
  lastPath : Text
  requests : List ParsedPath
  phase : SessionPhase
  handler : Option (Coroutine κ)
  pendingReceive : Option PendingReceive
  serverIp : Text
  currentToken : Option Text
  env : Dict Text Text
  publicEnv : Dict Text Text
  preflightPending : Bool
  downloadArtifacts : TextSet

namespace ClientSession

variable {κ : Type u}

/-- A session with the defaults of every field but its id. It has no token yet. -/
def create (clientId : ClientId) : ClientSession κ where
  clientId := clientId
  rrqCount := 0
  lastPath := ['/']
  requests := []
  phase := .awaitRrq
  handler := none
  pendingReceive := none
  serverIp := "127.0.0.1".toList
  currentToken := none
  env := Dict.empty
  publicEnv := Dict.empty
  preflightPending := false
  downloadArtifacts := Dict.empty

/-- Count and remember a request of the session. The requests are kept in their order, so that the
first one stays the first. -/
def recordRrq (session : ClientSession κ) (parsed : ParsedPath) : ClientSession κ :=
  { session with
    rrqCount := session.rrqCount + 1
    lastPath := parsed.path
    requests := session.requests ++ [parsed] }

end ClientSession

/-- The sessions by client id, so that a client has one at most. -/
abbrev InMemorySessionStore (κ : Type u) := Dict ClientId (ClientSession κ)

namespace InMemorySessionStore

variable {κ : Type u}

/-- The session of a client, which must exist. The error names the client by its id. -/
def require (store : InMemorySessionStore κ) (clientId : ClientId) :
    Except Raised (ClientSession κ) :=
  match store.get clientId with
  | some session => .ok session
  | none => .error (.noSession clientId.text)

end InMemorySessionStore

end UbootTftp
