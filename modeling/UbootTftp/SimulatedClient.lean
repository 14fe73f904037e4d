import UbootTftp.PendingContents
import UbootTftp.ScriptImages
import UbootTftp.SimulatedFlows
import UbootTftp.StaticUploads

/-!
# A client in a loop with the server

`run_client` asks for a script, reads the transfers in it, carries out the uploads and asks for
the continuation that it has chosen, until there is none. A client is kept general here: what
a script does to its state, what it puts in the place of variables and what is sent for an upload
are given. The simulated camera is one such client, a board another.

The client and the server run together. A step of the two is the next event of the client, with
the answer that the server gives to it, or an event of somebody else.
-/

namespace UbootTftp

namespace TestClient

universe u v
variable {κ : Type u} {δ : Type v}

/-- What a run of the simulated camera is started with. The rounds bound the number of requests that
it makes, and the byte is the one of which its uploads consist. -/
structure ClientConfig where
  host : Text
  clientId : Text
  path : Text
  rounds : Nat
  dummyByte : Nat

/-- `_normalize_path`. -/
def normalizePath (path : Text) : Text :=
  if path = [] then ['/'] else if isAbsolute path then path else '/' :: path

/-- `f"{number:02x}"`. -/
def twoHexDigits (number : Nat) : Text :=
  let digits := Nat.toDigits 16 number
  List.replicate (2 - digits.length) '0' ++ digits

namespace ClientConfig

/-- `_initial_env`. There is no report of a shell among them. -/
def initialEnv (config : ClientConfig) : Dict Text Text :=
  Dict.ofList
    [("bootcmd".toList, "echo boot ".toList ++ config.clientId),
      ("ethaddr".toList, "02:00:00:00:00:".toList ++ twoHexDigits config.dummyByte),
      ("hostname".toList, config.clientId),
      ("ipaddr".toList, "192.168.1.50".toList),
      ("serverip".toList, config.host)]

/-- `_build_dummy_env_export_unpadded`. The entries are separated and ended by NUL bytes, and none
of what scripts have set is among them. -/
def dummyEnvExportUnpadded (config : ClientConfig) : Bytes :=
  Utf8.encode (List.intercalate ['\x00']
    ["bootcmd=echo boot ".toList ++ config.clientId,
      "ethaddr=02:00:00:00:00:".toList ++ twoHexDigits config.dummyByte,
      "hostname=".toList ++ config.clientId,
      "ipaddr=192.168.1.50".toList,
      "serverip=".toList ++ config.host] ++ ['\x00'])

/-- `_build_dummy_env_export`. -/
def dummyEnvExport (config : ClientConfig) (size : Int) : Bytes :=
  let payload := config.dummyEnvExportUnpadded
  if size ≤ payload.length then payload.take size.toNat
  else payload ++ List.replicate (size.toNat - payload.length) 0

/-- `_update_env_from_script`. Scripts are not carried out; the length of the export is the only
thing that a script can bring about. -/
def updateEnvFromScript (config : ClientConfig) (script : Text) (env : Dict Text Text) :
    Dict Text Text :=
  if Sequences.occurs "env export -t ".toList script then
    env.set "filesize".toList (Nat.toDigits 16 config.dummyEnvExportUnpadded.length)
  else env

end ClientConfig

/-- A client that follows scripts: the word characters of its expressions, its address, how many
scripts it asks for, what a script does to its state, what it reports for a variable and makes of a
name with variables, and what it sends for an upload.

The state is arbitrary. For the simulated camera it is an environment, for a board all of the
board. -/
structure FlowClient (δ : Type v) where
  isWord : Char → Bool
  peer : Text × Nat
  rounds : Nat
  update : Text → δ → δ
  reported : δ → Text → Text
  substitute : δ → Text → Text
  payload : δ → UploadAction → Bytes

/-- What stands for `${key}` where an environment may define it. -/
def reportFrom (env : Dict Text Text) (key : Text) : Text := (env.get key).getD (expansion key)

/-- The simulated camera. Its state is its environment. -/
def ClientConfig.flowClient (config : ClientConfig) (isWord : Char → Bool) (peer : Text × Nat) :
    FlowClient (Dict Text Text) where
  isWord := isWord
  peer := peer
  rounds := config.rounds
  update := config.updateEnvFromScript
  reported := reportFrom
  substitute := fun env name => substituteUbootVars name env
  payload := fun _ upload => config.dummyEnvExport upload.size

/-- What the client does next, between two of its events. An upload takes several events, so that
others can come in between. -/
inductive Standing (δ : Type v)
  /-- It asks for a remote name. -/
  | asking (round : Nat) (state : δ) (remote : Text)
  /-- It opens an upload; others may be left. -/
  | putting (round : Nat) (state : δ) (actions : FlowActions) (upload : UploadAction)
      (rest : List UploadAction)
  /-- It sends the bytes that are left of an upload. -/
  | sending (round : Nat) (state : δ) (actions : FlowActions) (rest : List UploadAction)
      (handle : Nat) (left : Bytes)
  | stopped
  deriving DecidableEq

/-- `extract_script` with the decoding of its result. -/
def readScript (image : Bytes) : Option Text :=
  ((extractScriptPayload image).map Utf8.decode).toOption

/-- The download that `choose_next_remote` decides for: the first one with the preferred status in
its name, or the first of all. -/
def chooseRemote (actions : FlowActions) (preferRecv : Option Text) : Option Text :=
  let preferred := preferRecv.bind fun status =>
    actions.downloads.find? (fun download =>
      Sequences.occurs ("/recv=".toList ++ status) download.remote)
  (preferred.or actions.downloads.head?).map (·.remote)

/-- The variables in it are replaced. -/
theorem choose_next_remote (actions : FlowActions) (env : Dict Text Text)
    (preferRecv : Option Text) : chooseNextRemote actions env preferRecv =
      (chooseRemote actions preferRecv).map (substituteUbootVars · env) := by
  rw [chooseRemote, Option.map_map]
  rfl

/-- After a successful upload it is the continuation with this status. -/
theorem success_remote (session : ClientSession κ) (token cmdtftp cmdtftpput : Text) (size : Int)
    (keys : List Text) :
    chooseRemote (receiveActions session token cmdtftp cmdtftpput size keys) (some "ok".toList) =
      some (continuePath session.clientId token (some "ok".toList) keys expansion) := by
  have marked : Sequences.occurs ("/recv=".toList ++ "ok".toList)
      (continueAction session token cmdtftp (some "ok".toList) keys).remote = true :=
    status_occurs session.clientId token "ok".toList keys
  simp only [chooseRemote, receiveActions, Option.bind_some, List.find?_cons, marked,
    Option.some_or, Option.map_some]
  rfl

namespace FlowClient

/-- The end of a round: the continuation, if there is one and a round is left. A continuation for
the outcome is preferred, if the script has one. -/
def goOn (flow : FlowClient δ) (round : Nat) (state : δ) (actions : FlowActions)
    (preferRecv : Option Text) : Standing δ :=
  match (chooseRemote actions preferRecv).map (flow.substitute state) with
  | none => .stopped
  | some remote => if round < flow.rounds then .asking (round + 1) state remote else .stopped

/-- The uploads of a round, and its end. -/
def putNext (flow : FlowClient δ) (round : Nat) (state : δ) (actions : FlowActions) :
    List UploadAction → Standing δ
  | [] => flow.goOn round state actions (some "ok".toList)
  | upload :: rest => .putting round state actions upload rest

/-- What follows on a script that was read. The uploads come first, and the continuation is chosen
when they are over. -/
def follow (flow : FlowClient δ) (round : Nat) (state : δ) (script : Text) : Standing δ :=
  let state := flow.update script state
  match parseFlowActions flow.isWord script with
  | none => .stopped
  | some actions =>
    if actions.uploads = [] then flow.goOn round state actions none
    else flow.putNext round state actions actions.uploads

/-- What follows on an image. One that cannot be read stops the client. -/
def receive (flow : FlowClient δ) (round : Nat) (state : δ) (image : Bytes) : Standing δ :=
  match readScript image with
  | none => .stopped
  | some script => flow.follow round state script

/-- The first request. -/
def begin (flow : FlowClient δ) (state : δ) (remote : Text) : Standing δ :=
  if 0 < flow.rounds then .asking 1 state remote else .stopped

/-- The next event of the client, and where it stands after the server's answer. A transfer that the
server refuses stops it. An upload is sent in any chunks.

The time and the schedule of a request are left open, so that a run may have any. -/
inductive Acts (flow : FlowClient δ) (server : DynamicContentServer κ) (world : World κ) :
    Standing δ → Event → Standing δ → Prop
  | answered (round : Nat) (state : δ) (remote : Text) (now : Nat) (schedule : Schedule)
      (content : ContentResult)
      (answer : (server.openDynamicDownload world now schedule ⟨remote, flow.peer⟩).2 =
        .ok (some content)) :
      Acts flow server world (.asking round state remote)
        (.readRequest ⟨remote, flow.peer⟩ now schedule) (flow.receive round state content.body)
  | refused (round : Nat) (state : δ) (remote : Text) (now : Nat) (schedule : Schedule)
      (answer : ∀ content,
        (server.openDynamicDownload world now schedule ⟨remote, flow.peer⟩).2 ≠ .ok (some content)) :
      Acts flow server world (.asking round state remote)
        (.readRequest ⟨remote, flow.peer⟩ now schedule) .stopped
  | opened (round : Nat) (state : δ) (actions : FlowActions) (upload : UploadAction)
      (rest : List UploadAction) (file : UploadFile)
      (answer : (server.openUpload world (handedPath server.provider.host
        (flow.substitute state upload.remote)) flow.peer).2 =
          .ok (some file)) :
      Acts flow server world (.putting round state actions upload rest)
        (.writeRequest (handedPath server.provider.host
          (flow.substitute state upload.remote)) flow.peer)
        (.sending round state actions rest world.handles.length (flow.payload state upload))
  | unopened (round : Nat) (state : δ) (actions : FlowActions) (upload : UploadAction)
      (rest : List UploadAction)
      (answer : ∀ file, (server.openUpload world (handedPath server.provider.host
        (flow.substitute state upload.remote)) flow.peer).2 ≠
          .ok (some file)) :
      Acts flow server world (.putting round state actions upload rest)
        (.writeRequest (handedPath server.provider.host
          (flow.substitute state upload.remote)) flow.peer) .stopped
  | wrote (round : Nat) (state : δ) (actions : FlowActions) (rest : List UploadAction)
      (handle : Nat) (chunk left : Bytes) (answer : (world.write handle chunk).2 = .ok ()) :
      Acts flow server world (.sending round state actions rest handle (chunk ++ left))
        (.write handle chunk) (.sending round state actions rest handle left)
  | unwritten (round : Nat) (state : δ) (actions : FlowActions) (rest : List UploadAction)
      (handle : Nat) (chunk left : Bytes) (answer : (world.write handle chunk).2 ≠ .ok ()) :
      Acts flow server world (.sending round state actions rest handle (chunk ++ left))
        (.write handle chunk) .stopped
  | closed (round : Nat) (state : δ) (actions : FlowActions) (rest : List UploadAction)
      (handle : Nat) :
      Acts flow server world (.sending round state actions rest handle [])
        (.close handle) (flow.putNext round state actions rest)

end FlowClient

/-- An event of somebody else: it neither starts nor continues the client's session, and neither
writes nor closes an upload that the session waits for. Somebody who knows the token could do all of
this. -/
structure Foreign (client : ClientId) (world : World κ) (event : Event) : Prop where
  unanswered : Unanswered client world event
  apart : ∀ session pending handle upload, world.sessions.get client = some session →
    session.pendingReceive = some pending →
    world.handles[handle]? = some (.capturing upload) →
    upload.request.isFor client pending.token = true →
    event ≠ .close handle ∧ ∀ chunk, event ≠ .write handle chunk

/-- A step of the server and the client together: either one of the client or an event of somebody
else. A run of such steps is an interleaving. -/
inductive Together (flow : FlowClient δ) (server : DynamicContentServer κ) (client : ClientId) :
    World κ × Standing δ → World κ × Standing δ → Prop
  | other (world : World κ) (standing : Standing δ) (event : Event)
      (foreign : Foreign client world event) :
      Together flow server client (world, standing) (server.step world event, standing)
  | own (world : World κ) (standing next : Standing δ) (event : Event)
      (acts : flow.Acts server world standing event next) :
      Together flow server client (world, standing) (server.step world event, next)

section Undisturbed

variable (flow : FlowClient δ) (server : DynamicContentServer κ) (client : ClientId)

/-- The client's next step with nobody else in between, which can be computed: it asks at time
zero and sends what is left of an upload as one chunk. A client that has stopped stays where it
is. The relation above leaves the times, the chunks and the other peers open; this is only one of
the runs it allows. -/
def FlowClient.advance : World κ × Standing δ → World κ × Standing δ
  | (world, .asking round state remote) =>
    (server.step world (.readRequest ⟨remote, flow.peer⟩ 0 []),
      match (server.openDynamicDownload world 0 [] ⟨remote, flow.peer⟩).2 with
      | .ok (some content) => flow.receive round state content.body
      | _ => .stopped)
  | (world, .putting round state actions upload rest) =>
    let name := handedPath server.provider.host (flow.substitute state upload.remote)
    (server.step world (.writeRequest name flow.peer),
      match (server.openUpload world name flow.peer).2 with
      | .ok (some _) =>
        .sending round state actions rest world.handles.length (flow.payload state upload)
      | _ => .stopped)
  | (world, .sending round state actions rest handle []) =>
    (server.step world (.close handle), flow.putNext round state actions rest)
  | (world, .sending round state actions rest handle (byte :: left)) =>
    (server.step world (.write handle (byte :: left)),
      match (world.write handle (byte :: left)).2 with
      | .ok () => .sending round state actions rest handle []
      | .error _ => .stopped)
  | (world, .stopped) => (world, .stopped)

/-- Unless the client has stopped, that is a step of the two together. What the server answers
to the client's request decides what the client does next, and this is read off the server's own
step. -/
theorem FlowClient.advance_together (joint : World κ × Standing δ) (goes : joint.2 ≠ .stopped) :
    Together flow server client joint (flow.advance server joint) := by
  obtain ⟨world, standing⟩ := joint
  cases standing with
  | asking round state remote =>
    refine .own _ _ _ _ ?_
    split
    · rename_i content answer
      exact .answered round state remote 0 [] content answer
    · rename_i unanswered
      exact .refused round state remote 0 [] unanswered
  | putting round state actions upload rest =>
    refine .own _ _ _ _ ?_
    split
    · rename_i file answer
      exact .opened round state actions upload rest file answer
    · rename_i unopened
      exact .unopened round state actions upload rest unopened
  | sending round state actions rest handle left =>
    cases left with
    | nil => exact .own _ _ _ _ (.closed round state actions rest handle)
    | cons byte left =>
      refine .own _ _ _ _ ?_
      split
      · rename_i answer
        have wrote : flow.Acts server world
            (.sending round state actions rest handle (byte :: left ++ []))
            (.write handle (byte :: left)) (.sending round state actions rest handle []) :=
          .wrote round state actions rest handle _ [] answer
        rwa [List.append_nil] at wrote
      · rename_i raised answer
        have refused : (world.write handle (byte :: left)).2 ≠ .ok () := by simp [answer]
        have stopped : flow.Acts server world
            (.sending round state actions rest handle (byte :: left ++ []))
            (.write handle (byte :: left)) .stopped :=
          .unwritten round state actions rest handle _ [] refused
        rwa [List.append_nil] at stopped
  | stopped => exact absurd rfl goes

/-- Any number of them is a run, by induction on the number. -/
theorem FlowClient.advances (joint : World κ × Standing δ) (steps : Nat) :
    Relation.ReflTransGen (Together flow server client) joint
      ((flow.advance server)^[steps] joint) := by
  induction steps with
  | zero => exact .refl
  | succ steps inductionHypothesis =>
    rw [Function.iterate_succ_apply']
    generalize (flow.advance server)^[steps] joint = reached at inductionHypothesis ⊢
    obtain ⟨world, standing⟩ := reached
    by_cases stops : standing = .stopped
    · cases stops
      exact inductionHypothesis
    · exact inductionHypothesis.tail (flow.advance_together server client _ stops)

end Undisturbed

end TestClient

end UbootTftp
