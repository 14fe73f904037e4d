import UbootTftp.ReadRequests
import UbootTftp.Unwinding

/-!
# The part of one client in a run

Requests name the client that they belong to, and a file object belongs to the client
that its upload names. A client that is alone with the server makes the same requests,
but its file objects are then numbered among themselves.

Tokens are random in the source, so what clients do to each other's tokens cannot be
said of the draws of one stream. Here every client has a stream of its own: a step draws
from the stream of the client whose request it serves, where that client stopped.
-/

namespace UbootTftp

universe u
variable {κ : Type u}

/-- The client that a filename names, if any. -/
def namedClient (filename : Text) : Option ClientId :=
  match parseRequestPath filename with
  | .ok parsed => parsed.clientId
  | .error _ => none

/-- The client that a file object belongs to. A disk file belongs to none. -/
def UploadFile.client : UploadFile → Option ClientId
  | .capturing upload => namedClient upload.request.filename
  | .disk _ _ _ => none

/-- Whether a file object belongs to a client. -/
def UploadFile.belongs (client : ClientId) (file : UploadFile) : Bool :=
  decide (file.client = some client)

/-- The client that a step belongs to. A static or malformed request belongs to none, and neither
does what a download thread reports. -/
def DynamicContentServer.actor (server : DynamicContentServer κ) (world : World κ) :
    Event → Option ClientId
  | .readRequest request _ _ => namedClient request.filename
  | .writeRequest path peer => namedClient (server.uploadRequest path peer).filename
  | .write handle _ => (world.handles[handle]?).bind UploadFile.client
  | .close handle => (world.handles[handle]?).bind UploadFile.client
  | .threadReport _ _ => none

/-- The number of a file object among those of its client. -/
def World.ownHandle (world : World κ) (client : ClientId) (handle : Nat) : Nat :=
  Sequences.rank (UploadFile.belongs client) world.handles handle

/-- A step as its client would take it alone. -/
def World.ownEvent (world : World κ) (client : ClientId) : Event → Event
  | .write handle chunk => .write (world.ownHandle client handle) chunk
  | .close handle => .close (world.ownHandle client handle)
  | event => event

/-- Requests that differ in nothing but the time they are served at and the reports of
download threads meanwhile. -/
inductive SameRequest : Event → Event → Prop
  | same (event : Event) : SameRequest event event
  | read (request : ContentRequest) (now later : Nat) (schedule other : Schedule) :
      SameRequest (.readRequest request now schedule) (.readRequest request later other)

/-- The tokens and the temporary names of each client. They are arbitrary: two clients may well draw
the same text. -/
structure Streams where
  token : ClientId → Nat → Text
  hexToken : ClientId → Nat → Text

/-- The server with the random text of one client. Nothing else of the server depends on the client,
so everything else is shared. -/
def DynamicContentServer.drawing (server : DynamicContentServer κ) (streams : Streams)
    (client : ClientId) : DynamicContentServer κ :=
  { server with
    provider := { server.provider with
      host := { server.provider.host with
        token := streams.token client
        hexToken := streams.hexToken client } } }

/-- The state of the server and how many tokens and names each client has drawn. -/
structure PrivateWorld (κ : Type u) where
  world : World κ
  drawn : ClientId → Nat × Nat

namespace PrivateWorld

/-- The state of the server as a client's request finds it. -/
def serving (state : PrivateWorld κ) (client : ClientId) : World κ :=
  { state.world with
    tokensDrawn := (state.drawn client).1
    namesDrawn := (state.drawn client).2 }

/-- The state that a client's request leaves. -/
def served (state : PrivateWorld κ) (client : ClientId) (world : World κ) : PrivateWorld κ where
  world := world
  drawn := Function.update state.drawn client (world.tokensDrawn, world.namesDrawn)

/-- The state of a server that has handled nothing yet. -/
def initial (files : FileTree) : PrivateWorld κ := ⟨World.initial files, fun _ => (0, 0)⟩

end PrivateWorld

/-- What a client gets for a step: the answer to its request, and what its handler got and
did, up to the state in which it is suspended. -/
inductive Received (κ : Type u)
  | read (resumed : Option (Resumption × CodeEnd κ)) (result : Except Raised (Option ContentResult))
  | opened (result : Except Raised (Option UploadFile))
  | used (result : Except Raised Unit)

namespace DynamicContentServer

/-- What a step gives to the client that it belongs to. A report of a download thread is given to
nobody, and so it is the same for everyone. -/
def received (server : DynamicContentServer κ) (world : World κ) : Event → Received κ
  | .readRequest request now schedule =>
    .read (world.fetch server.provider now schedule request).resumed
      (server.openDynamicDownload world now schedule request).2
  | .writeRequest path peer => .opened (server.openUpload world path peer).2
  | .write handle chunk => .used (world.write handle chunk).2
  | .close handle => .used (world.close handle).2
  | .threadReport _ _ => .used (.ok ())

section Private

variable (server : DynamicContentServer κ) (streams : Streams)

/-- A step of the server with a stream for each client. An event that belongs to no client draws
nothing and is served by the server as it is. -/
def privateStep (state : PrivateWorld κ) (event : Event) : PrivateWorld κ :=
  match server.actor state.world event with
  | some client =>
    state.served client ((server.drawing streams client).step (state.serving client) event)
  | none => { state with world := server.step state.world event }

/-- A client's step as it would take it alone; nothing for any other step. -/
def ownStep (client : ClientId) (state : PrivateWorld κ) (event : Event) : Option Event :=
  if server.actor state.world event = some client then some (state.world.ownEvent client event)
  else none

/-- What a step gives to a client; nothing for a step that is not its own. -/
def receives (client : ClientId) (state : PrivateWorld κ) (event : Event) : Option (Received κ) :=
  if server.actor state.world event = some client then
    some ((server.drawing streams client).received (state.serving client) event)
  else none

/-- The state after a sequence of steps from the first one on. -/
def privateAfter (files : FileTree) (events : List Event) : PrivateWorld κ :=
  Runs.run (server.privateStep streams) (PrivateWorld.initial files) events

/-- A client's requests of a run, in order, as the client would make them alone. -/
def ownRequests (client : ClientId) (files : FileTree) (events : List Event) : List Event :=
  Runs.observed (server.privateStep streams) (server.ownStep client) (PrivateWorld.initial files)
    events

/-- All that a client gets in a run, in order. -/
def receivedBy (client : ClientId) (files : FileTree) (events : List Event) : List (Received κ) :=
  Runs.observed (server.privateStep streams) (server.receives streams client)
    (PrivateWorld.initial files) events

end Private

end DynamicContentServer

/-- Whether handler code only awaits its helpers and uses its session: it has no access to the files
and the downloads, which clients share. -/
def Code.Isolated : Code κ → Prop
  | .await _ _ => True
  | .finish => True
  | .raise _ => True
  | .inspect next => ∀ session, (next session).Isolated
  | .setEnv _ next => next.Isolated
  | .acquireDownload _ _ _ _ _ _ => False
  | .getDownload _ _ => False
  | .writeFile _ _ _ => False
  | .fileExists _ _ => False
  | .readFile _ _ => False

/-- Isolated code ends in a way that its session alone decides.

Proof: by induction on the code; the cases of the operations that it cannot have are void. -/
theorem Code.Isolated.run_alike {code : Code κ} (isolated : code.Isolated) (host : Host)
    (now later : Nat) (schedule other : Schedule) (state alone : HandleState κ)
    (same : state.session = alone.session) :
    (code.run host now schedule state).2 = (code.run host later other alone).2 ∧
      (code.run host now schedule state).1.session =
        (code.run host later other alone).1.session := by
  induction code generalizing schedule other state alone with
  | await awaited next => exact ⟨rfl, same⟩
  | finish => exact ⟨rfl, same⟩
  | raise error => exact ⟨rfl, same⟩
  | inspect next inductionHypothesis =>
    have kept : (state.reports now (schedule.headD [])).session =
        (alone.reports later (other.headD [])).session := by
      rw [HandleState.reports_session, HandleState.reports_session, same]
    simp only [Code.run, kept]
    exact inductionHypothesis _ (isolated _) _ _ _ _ kept
  | setEnv env next inductionHypothesis =>
    apply inductionHypothesis isolated
    rw [HandleState.reports_session, HandleState.reports_session, same]
  | acquireDownload artifactKey url destination pageUrl headers next => exact isolated.elim
  | getDownload artifactKey next => exact isolated.elim
  | writeFile destination body next => exact isolated.elim
  | fileExists filename next => exact isolated.elim
  | readFile filename next => exact isolated.elim

end UbootTftp
