import UbootTftp.ClientParts
import UbootTftp.UploadHandles

/-!
# Clients do not disturb each other

With isolated handlers a request of a client depends on the client's own session, draws
and file objects only, and a request of another client leaves these as they are. By the
unwinding of runs each client receives in any interleaving what it receives alone.
-/

namespace UbootTftp

universe u
variable {κ : Type u}

namespace World

/-- Whether every session is stored under its own id. -/
def Keyed (world : World κ) : Prop :=
  ∀ client session, world.sessions.get client = some session → session.clientId = client

/-- What one request of a client leaves of two states: its session in both, nothing else changed
among the sessions and the uploads of either, and the same number of draws. The two states may
differ in everything that belongs to other clients. -/
structure Paired (left right : World κ) (client : ClientId) (leftAfter rightAfter : World κ) :
    Prop where
  leaves : ∃ stored, left.Leaves leftAfter client stored ∧ right.Leaves rightAfter client stored ∧
    ∀ session, stored = some session → session.clientId = client
  tokens : leftAfter.tokensDrawn = rightAfter.tokensDrawn
  names : leftAfter.namesDrawn = rightAfter.namesDrawn

/-- Two states on the way of handling one request: each has the sessions and uploads of the
state before the request, and both have drawn the same. -/
structure Midway (left right leftNow rightNow : World κ) : Prop where
  left : left.Same leftNow
  right : right.Same rightNow
  tokens : leftNow.tokensDrawn = rightNow.tokensDrawn
  names : leftNow.namesDrawn = rightNow.namesDrawn

variable {left right leftNow rightNow : World κ} {client : ClientId}

/-- Drawing tokens and names in both. -/
theorem Midway.drawing (midway : Midway left right leftNow rightNow) (tokens names : Nat) :
    Midway left right { leftNow with tokensDrawn := tokens, namesDrawn := names }
      { rightNow with tokensDrawn := tokens, namesDrawn := names } where
  left := ⟨midway.left.sessions, midway.left.uploads, midway.left.handles⟩
  right := ⟨midway.right.sessions, midway.right.uploads, midway.right.handles⟩
  tokens := rfl
  names := rfl

/-- Putting the client's session back. -/
theorem Midway.put (midway : Midway left right leftNow rightNow) (session : ClientSession κ)
    (keyed : session.clientId = client) :
    left.Paired right client (leftNow.putSession session) (rightNow.putSession session) where
  leaves := ⟨some session, put_leaves left leftNow midway.left session client keyed,
    put_leaves right rightNow midway.right session client keyed, by rintro _ ⟨⟩; exact keyed⟩
  tokens := midway.tokens
  names := midway.names

/-- Discarding the client's session. -/
theorem Midway.discard (midway : Midway left right leftNow rightNow) (now later : Nat)
    (session : ClientSession κ) (keyed : session.clientId = client) :
    left.Paired right client (leftNow.discardSession now session)
      (rightNow.discardSession later session) where
  leaves := ⟨none, discard_leaves left leftNow midway.left now session client keyed,
    discard_leaves right rightNow midway.right later session client keyed, by rintro _ ⟨⟩⟩
  tokens := midway.tokens
  names := midway.names

/-- The answer to a script does not depend on the state. -/
theorem answer_alike (left right : World κ) (host : Host) (session : ClientSession κ)
    (script : Except Raised Text) :
    (left.answer host session script).2 = (right.answer host session script).2 := by
  rw [answer_result, answer_result]

/-- The answer to a start depends on the number of draws only. A session that the start replaces
makes no difference to it. -/
theorem start_answer (world : World κ) (provider : Provider κ) (now : Nat)
    (request : ContentRequest) (parsed : ParsedPath) (client : ClientId) :
    let opened := openedSession provider request parsed client
      (provider.host.token world.tokensDrawn)
    (world.startSession provider now request parsed client).2 =
      (world.answer provider.host opened
        (appendContinue hushProbeScript opened none [hushKey])).2 := by
  simp only [startSession, preflightResult]
  split
  · exact answer_alike _ _ _ _ _
  · exact answer_alike _ _ _ _ _

/-- A start draws no temporary name. -/
theorem start_names (world : World κ) (provider : Provider κ) (now : Nat)
    (request : ContentRequest) (parsed : ParsedPath) (client : ClientId) :
    (world.startSession provider now request parsed client).1.namesDrawn = world.namesDrawn := by
  simp only [startSession, preflightResult, answer_world]
  split
  · rfl
  · rfl

/-- What the handler awaits becomes the same script. Both have drawn the same numbers of tokens and
names before, so those in the script agree. The times may differ. -/
theorem Midway.instruction (midway : Midway left right leftNow rightNow) (host : Host)
    (now later : Nat) (session : ClientSession κ) (keyed : session.clientId = client)
    (awaited : Awaited) :
    left.Paired right client (leftNow.resultFromInstruction host now session awaited).1
        (rightNow.resultFromInstruction host later session awaited).1 ∧
      (leftNow.resultFromInstruction host now session awaited).2 =
        (rightNow.resultFromInstruction host later session awaited).2 := by
  simp only [resultFromInstruction, midway.tokens, midway.names]
  cases awaited.instruction with
  | none => exact ⟨midway.put session keyed, rfl⟩
  | some request =>
    cases sized : request.receiveSize with
    | some size =>
      simp only [sized, answer_world]
      exact ⟨(midway.drawing _ _).put _ (by exact keyed), answer_alike _ _ _ _ _⟩
    | none =>
      cases last : request.final with
      | true =>
        simp only [sized, last, if_true]
        exact ⟨midway.discard now later _ (by exact keyed), trivial⟩
      | false =>
        simp only [sized, last, Bool.false_eq_true, if_false, answer_world]
        exact ⟨(midway.drawing _ _).put _ (by exact keyed), answer_alike _ _ _ _ _⟩

end World

/-- What one request of a client does in two states: it leaves them paired, and the
handler and the client get the same. -/
structure Outcome.Paired (left right : World κ) (client : ClientId)
    (leftOutcome rightOutcome : Outcome κ) : Prop where
  worlds : left.Paired right client leftOutcome.world rightOutcome.world
  resumed : leftOutcome.resumed = rightOutcome.resumed
  result : leftOutcome.result = rightOutcome.result

section Requests

variable {provider : Provider κ}
  (isolated : ∀ state resumption, (provider.resume state resumption).Isolated)
  {left right : World κ} {client : ClientId} (draws : World.Midway left right left right)
  (now later : Nat) (schedule other : Schedule)

include isolated draws

/-- The handler runs the same way in both states. That it cannot look at the files or the downloads
is what isolated handlers are; all else it reads is its own session. -/
theorem run_handler_paired (session : ClientSession κ) (keyed : session.clientId = client)
    (state : κ) (resumption : Resumption) :
    Outcome.Paired left right client
      (left.runHandler provider now schedule session state resumption)
      (right.runHandler provider later other session state resumption) := by
  obtain ⟨sameEnd, sameSession⟩ := (isolated state resumption).run_alike provider.host now later
    schedule other ⟨session, left.downloads, left.files⟩ ⟨session, right.downloads, right.files⟩ rfl
  obtain ⟨env, artifacts, frame⟩ := Code.run_session provider.host now
    (provider.resume state resumption) schedule ⟨session, left.downloads, left.files⟩
  simp only [World.runHandler]
  generalize (provider.resume state resumption).run provider.host now schedule
    ⟨session, left.downloads, left.files⟩ = first at sameEnd sameSession frame ⊢
  generalize (provider.resume state resumption).run provider.host later other
    ⟨session, right.downloads, right.files⟩ = second at sameEnd sameSession ⊢
  obtain ⟨firstLeft, codeEnd⟩ := first
  obtain ⟨secondLeft, secondEnd⟩ := second
  simp only at sameEnd sameSession frame ⊢
  subst sameEnd
  have keyedLeft : firstLeft.session.clientId = client := by rw [frame, ← keyed]
  rw [← sameSession]
  have midway : World.Midway left right
      { left with downloads := firstLeft.downloads, files := firstLeft.files }
      { right with downloads := secondLeft.downloads, files := secondLeft.files } :=
    ⟨⟨rfl, rfl, rfl⟩, ⟨rfl, rfl, rfl⟩, draws.tokens, draws.names⟩
  cases codeEnd with
  | returned => exact ⟨midway.discard now later _ keyedLeft, rfl, rfl⟩
  | raised error =>
    simp only
    split
    · exact ⟨midway.discard now later _ keyedLeft, rfl, rfl⟩
    · exact ⟨midway.put _ keyedLeft, rfl, rfl⟩
  | awaited awaited next =>
    obtain ⟨worlds, result⟩ := midway.instruction provider.host now later
      { firstLeft.session with handler := some (.suspended next awaited.point) } keyedLeft awaited
    exact ⟨worlds, rfl, result⟩

/-- Sending a value to the handler does the same. A handler that is over raises in both worlds. -/
theorem advance_paired (session : ClientSession κ) (keyed : session.clientId = client)
    (handler : Coroutine κ) (sent : Option Bytes) :
    Outcome.Paired left right client
      (left.advanceSession provider now schedule session handler sent)
      (right.advanceSession provider later other session handler sent) := by
  cases handler with
  | finished => exact ⟨draws.put session keyed, rfl, rfl⟩
  | suspended state point =>
    simp only [World.advanceSession]
    split
    · exact ⟨draws.put session keyed, rfl, rfl⟩
    · exact run_handler_paired isolated draws now later schedule other session keyed state _

/-- Resuming the handler does the same. What it is given is read off the session, which is the same
in both. -/
theorem resume_handler_paired (session : ClientSession κ) (keyed : session.clientId = client)
    (parsed : ParsedPath) :
    Outcome.Paired left right client
      (left.resumeHandler provider now schedule session parsed)
      (right.resumeHandler provider later other session parsed) := by
  simp only [World.resumeHandler]
  cases session.handler with
  | none => exact ⟨draws.put session keyed, rfl, rfl⟩
  | some handler =>
    cases session.pendingReceive with
    | none => exact advance_paired isolated draws now later schedule other session keyed handler none
    | some pending =>
      apply advance_paired isolated draws now later schedule other
      exact keyed

/-- An accepted continuation does the same. The two worlds may differ in everything that concerns
other clients; the handler sees none of it because its code is isolated. -/
theorem continue_paired (request : ContentRequest) (parsed : ParsedPath)
    (session : ClientSession κ) (keyed : session.clientId = client) :
    Outcome.Paired left right client
      (left.continueSession provider now schedule request parsed session)
      (right.continueSession provider later other request parsed session) := by
  have continued : (session.continued parsed).clientId = client := by simp [keyed]
  rw [World.continue_session_eq, World.continue_session_eq]
  split
  · simp only
    split
    · exact ⟨draws.discard now later _ continued, rfl, rfl⟩
    · split
      · exact ⟨draws.put _ continued, rfl, rfl⟩
      · apply resume_handler_paired isolated draws now later schedule other
        exact continued
  · exact resume_handler_paired isolated draws now later schedule other _ continued parsed

omit isolated in
/-- Starting a session does the same. No handler is run at a start, so nothing is asked of the code
of the provider here. -/
theorem start_paired (request : ContentRequest) (parsed : ParsedPath) (leftKeyed : left.Keyed)
    (rightKeyed : right.Keyed) :
    Outcome.Paired left right client
      ⟨(left.startSession provider now request parsed client).1, none,
        (left.startSession provider now request parsed client).2⟩
      ⟨(right.startSession provider later request parsed client).1, none,
        (right.startSession provider later request parsed client).2⟩ := by
  have leftOpened := left.start_opened provider now request parsed client (leftKeyed client)
  have rightOpened := right.start_opened provider later request parsed client (rightKeyed client)
  rw [← draws.tokens] at rightOpened
  refine ⟨⟨⟨_, leftOpened.leaves, rightOpened.leaves, by rintro _ ⟨⟩; rfl⟩, ?_, ?_⟩, rfl, ?_⟩
  case refine_1 => rw [leftOpened.tokens, rightOpened.tokens, draws.tokens]
  case refine_2 => rw [World.start_names, World.start_names, draws.names]
  case refine_3 =>
    rw [World.start_answer, World.start_answer, draws.tokens]
    exact World.answer_alike _ _ _ _ _

/-- A read request of the client does the same in two states that hold the same session of the
client. -/
theorem fetch_paired (request : ContentRequest) (named : namedClient request.filename = some client)
    (same : left.sessions.get client = right.sessions.get client) (leftKeyed : left.Keyed)
    (rightKeyed : right.Keyed) :
    Outcome.Paired left right client (left.fetch provider now schedule request)
      (right.fetch provider later other request) := by
  have unchanged : left.Paired right client left right :=
    ⟨⟨left.sessions.get client, ⟨rfl, fun _ _ => rfl, rfl, rfl⟩,
      ⟨same.symm, fun _ _ => rfl, rfl, rfl⟩, leftKeyed client⟩, draws.tokens, draws.names⟩
  unfold namedClient at named
  simp only [World.fetch]
  cases parse : parseRequestPath request.filename with
  | error raised => simp [parse] at named
  | ok parsed =>
    simp only [parse] at named
    simp only [named]
    cases continues : isContinuation parsed with
    | false => exact start_paired draws now later request parsed leftKeyed rightKeyed
    | true =>
      simp only [if_true, World.resumeSession, InMemorySessionStore.require, ← same]
      cases stored : left.sessions.get client with
      | none => exact ⟨unchanged, rfl, rfl⟩
      | some session =>
        simp only
        split
        · exact ⟨unchanged, rfl, rfl⟩
        · exact continue_paired isolated draws now later schedule other request parsed session
            (leftKeyed client session stored)

end Requests

/-- A read request that names no client leaves the state as it is. -/
theorem fetch_unnamed (world : World κ) (provider : Provider κ) (now : Nat) (schedule : Schedule)
    (request : ContentRequest) (unnamed : namedClient request.filename = none) :
    (world.fetch provider now schedule request).world = world := by
  unfold namedClient at unnamed
  simp only [World.fetch]
  cases parse : parseRequestPath request.filename with
  | error raised => rfl
  | ok parsed =>
    simp only [parse] at unnamed
    simp only [unnamed]

/-- The check of an upload looks at the session of the named client only. So it may be made in a
world in which other clients have other sessions. -/
theorem expected_alike (sessions alone : InMemorySessionStore κ) (filename : Text)
    (client : ClientId) (named : namedClient filename = some client)
    (same : sessions.get client = alone.get client) :
    InMemoryUploadStore.expected sessions filename =
      InMemoryUploadStore.expected alone filename := by
  unfold namedClient at named
  simp only [InMemoryUploadStore.expected]
  cases parse : parseRequestPath filename with
  | error raised => rfl
  | ok parsed =>
    simp only [parse] at named
    simp only [named, InMemorySessionStore.require, same]

namespace World

/-- What a client can notice of one state is the same in a state where it is alone: its session, its
file objects in their order, and what has been recorded for it. -/
structure Alone (client : ClientId) (world alone : World κ) : Prop where
  session : world.sessions.get client = alone.sessions.get client
  handles : alone.handles = world.handles.filter (UploadFile.belongs client)
  recorded : world.uploads.byClientId.get client = alone.uploads.byClientId.get client
  keyed : world.Keyed
  aloneKeyed : alone.Keyed

/-- A step that a client cannot notice: its session, its file objects and its records stay. That
sessions stand under their own clients is kept by any step and is carried along here. -/
structure Spares (client : ClientId) (world after : World κ) : Prop where
  session : after.sessions.get client = world.sessions.get client
  handles : after.handles.filter (UploadFile.belongs client) =
    world.handles.filter (UploadFile.belongs client)
  recorded : after.uploads.byClientId.get client = world.uploads.byClientId.get client
  keyed : after.Keyed

/-- Sessions stay under their own ids. -/
theorem Leaves.keyed {world after : World κ} {client : ClientId}
    {stored : Option (ClientSession κ)} (leaves : world.Leaves after client stored)
    (before : world.Keyed) (own : ∀ session, stored = some session → session.clientId = client) :
    after.Keyed := by
  intro other session held
  by_cases same : other = client
  · subst same
    exact own session (leaves.own.symm.trans held)
  · exact before other session ((leaves.others other same).symm.trans held)

end World

/-- Storing a session under its own id. The other sessions are where they were. -/
theorem World.Keyed.set {world after : World κ} (keyed : world.Keyed) {client : ClientId}
    {session : ClientSession κ} (own : session.clientId = client)
    (stores : after.sessions = world.sessions.set client session) : after.Keyed := by
  intro other later held
  rw [stores] at held
  by_cases same : other = client
  · subst same
    rw [Dict.get_set_self] at held
    cases held
    exact own
  · rw [Dict.get_set_other _ _ _ _ same] at held
    exact keyed other later held

section Spared

variable (server : DynamicContentServer κ)
  (isolated : ∀ state resumption, (server.provider.resume state resumption).Isolated)
  (world : World κ) (keyed : world.Keyed) (client : ClientId)

include isolated keyed in
/-- No client notices the read request of another. A request without an id stores nothing at all;
that of another client changes what is stored under that client's id. -/
theorem fetch_spares (now : Nat) (schedule : Schedule) (request : ContentRequest)
    (foreign : namedClient request.filename ≠ some client) :
    world.Spares client (world.fetch server.provider now schedule request).world := by
  cases named : namedClient request.filename with
  | none =>
    rw [fetch_unnamed world server.provider now schedule request named]
    exact ⟨rfl, rfl, rfl, keyed⟩
  | some other =>
    have draws : World.Midway world world world world := ⟨⟨rfl, rfl, rfl⟩, ⟨rfl, rfl, rfl⟩, rfl, rfl⟩
    obtain ⟨⟨stored, leaves, -, own⟩, -, -⟩ := (fetch_paired isolated draws now now schedule
      schedule request named rfl keyed keyed).worlds
    have different : client ≠ other := by
      rintro rfl
      exact foreign named
    exact ⟨leaves.others client different, by rw [leaves.handles], by rw [leaves.uploads],
      leaves.keyed keyed own⟩

/-- A captured upload belongs to the client that its filename names. -/
theorem capturing_belongs (upload : CapturingUpload) :
    UploadFile.belongs client (.capturing upload) =
      decide (namedClient upload.request.filename = some client) := rfl

include keyed in
/-- No client notices the write request of another. What the request may add is a file object, and
it is one of the other client or one of no client. -/
theorem open_spares (path : Text) (peer : Text × Nat)
    (foreign : namedClient (server.uploadRequest path peer).filename ≠ some client) :
    world.Spares client (server.openUpload world path peer).1 := by
  obtain ⟨sessions, -, uploads, -⟩ := quiet_step server world (.writeRequest path peer)
    (by simp) (by simp)
  simp only [DynamicContentServer.step] at sessions uploads
  refine ⟨by rw [sessions], ?_, by rw [uploads], fun other => by rw [sessions]; exact keyed other⟩
  rcases open_upload_handles server world path peer with same | ⟨target, added⟩ | ⟨added, -⟩
  · rw [same]
  · rw [added, List.filter_append]
    exact List.append_nil _
  · have dropped : UploadFile.belongs client
        (.capturing ⟨server.uploadRequest path peer, [], false⟩) = false := by
      simpa [capturing_belongs] using foreign
    rw [added, List.filter_append, List.filter_cons_of_neg (by simp [dropped])]
    exact List.append_nil _

include keyed in
/-- No client notices a write to the file object of another. Only that file object gets the bytes,
and the client's own ones keep their places. -/
theorem write_spares (handle : Nat) (chunk : Bytes)
    (foreign : (world.handles[handle]?).bind UploadFile.client ≠ some client) :
    world.Spares client (world.write handle chunk).1 := by
  have unnoticed : world.Spares client world := ⟨rfl, rfl, rfl, keyed⟩
  have written := world.write_cases handle chunk
  generalize world.write handle chunk = answer at written ⊢
  cases written with
  | absent missing => exact unnoticed
  | captured upload held captured => exact unnoticed
  | collected upload held uncaptured =>
    rw [held] at foreign
    have dropped : UploadFile.belongs client (.capturing upload) = false := by
      simpa [UploadFile.belongs] using foreign
    exact ⟨rfl, Sequences.filter_set_dropped _ _ _ _ _ held dropped dropped, rfl, keyed⟩
  | closed path position held => exact unnoticed
  | disk path position held =>
    exact ⟨rfl, Sequences.filter_set_dropped _ _ _ _ _ held rfl rfl, rfl, keyed⟩

include keyed in
/-- No client notices the close of the file object of another. Where the close records an upload, it
is recorded under the id that the upload names, and the session that receives it has that id. -/
theorem close_spares (handle : Nat)
    (foreign : (world.handles[handle]?).bind UploadFile.client ≠ some client) :
    world.Spares client (world.close handle).1 := by
  have unnoticed : world.Spares client world := ⟨rfl, rfl, rfl, keyed⟩
  have closed := world.close_cases handle
  generalize world.close handle = result at closed ⊢
  cases closed with
  | absent missing => exact unnoticed
  | again upload held captured => exact unnoticed
  | refused upload raised held uncaptured unexpected => exact unnoticed
  | disk path position closed held =>
    exact ⟨rfl, Sequences.filter_set_dropped _ _ _ _ _ held rfl rfl, rfl, keyed⟩
  | recorded upload other session pending held uncaptured expected =>
    obtain ⟨parsed, parse, names, stored, -, -⟩ :=
      (InMemoryUploadStore.expected_ok _ _ _ _ _).mp expected
    have named : namedClient upload.request.filename = some other := by
      simp [namedClient, parse, names]
    rw [held] at foreign
    have dropped : UploadFile.belongs client (.capturing upload) = false := by
      simpa [UploadFile.belongs] using foreign
    have different : client ≠ other := by
      rintro rfl
      exact foreign named
    exact ⟨Dict.get_set_other _ _ _ _ different,
      Sequences.filter_set_dropped _ _ _ _ _ held dropped dropped,
      Dict.get_set_other _ _ _ _ different, keyed.set (by exact keyed other session stored) rfl⟩

include isolated keyed in
/-- No client notices a step of the others. Static requests and malformed ones belong to nobody, so
they are steps of the others too. -/
theorem step_spares (event : Event) (foreign : server.actor world event ≠ some client) :
    world.Spares client (server.step world event) := by
  cases event with
  | readRequest request now schedule =>
    rw [DynamicContentServer.step_read_request]
    exact fetch_spares server isolated world keyed client now schedule request foreign
  | writeRequest path peer => exact open_spares server world keyed client path peer foreign
  | write handle chunk => exact write_spares world keyed client handle chunk foreign
  | close handle => exact close_spares world keyed client handle foreign
  | threadReport now report => exact ⟨rfl, rfl, rfl, keyed⟩

end Spared

namespace World

/-- A state and one where the client is alone, with the same draws. The streams of tokens are the
client's own, which is what makes this possible: in the source tokens are drawn at random. -/
structure InStep (client : ClientId) (world alone : World κ) : Prop
    extends Alone client world alone where
  tokens : world.tokensDrawn = alone.tokensDrawn
  names : world.namesDrawn = alone.namesDrawn

variable {client : ClientId} {world alone : World κ}

/-- A file object of the client is found under its own number when the client is alone. -/
theorem Alone.held (together : Alone client world alone) {handle : Nat} {file : UploadFile}
    (held : world.handles[handle]? = some file) (own : file.client = some client) :
    alone.handles[world.ownHandle client handle]? = some file := by
  rw [together.handles]
  exact Sequences.filter_get_rank _ _ _ _ held (by simpa [UploadFile.belongs] using own)

/-- Replacing a file object of the client on both sides keeps them in step. The object keeps its
place in both lists, so the numbers of the others stay. -/
theorem InStep.replaced (together : InStep client world alone) {handle : Nat}
    {file other : UploadFile} (held : world.handles[handle]? = some file)
    (own : file.client = some client) (again : other.client = some client) :
    InStep client { world with handles := world.handles.set handle other }
      { alone with handles := alone.handles.set (world.ownHandle client handle) other } where
  session := together.session
  handles := by
    rw [together.handles]
    exact (Sequences.filter_set_kept _ _ _ file other held
      (by simpa [UploadFile.belongs] using own) (by simpa [UploadFile.belongs] using again)).symm
  recorded := together.recorded
  keyed := together.keyed
  aloneKeyed := together.aloneKeyed
  tokens := together.tokens
  names := together.names

/-- Giving the client another file object on both sides keeps them in step. It is the last one in
both worlds, and its numbers there may differ. -/
theorem InStep.added (together : InStep client world alone) {file : UploadFile}
    (own : file.client = some client) :
    InStep client { world with handles := world.handles ++ [file] }
      { alone with handles := alone.handles ++ [file] } where
  session := together.session
  handles := by
    rw [together.handles, List.filter_append, List.filter_cons_of_pos]
    · rfl
    · simpa [UploadFile.belongs] using own
  recorded := together.recorded
  keyed := together.keyed
  aloneKeyed := together.aloneKeyed
  tokens := together.tokens
  names := together.names

/-- Recording an upload of the client on both sides keeps them in step. The records of all uploads
need not agree, only those that are kept for the client. -/
theorem InStep.recording (together : InStep client world alone) (session : ClientSession κ)
    (upload : UploadedFile) (own : session.clientId = client) :
    InStep client
      { world with
        uploads := ⟨world.uploads.uploads ++ [upload], world.uploads.byClientId.set client
          ((world.uploads.byClientId.get client).getD [] ++ [upload])⟩
        sessions := world.sessions.set client session }
      { alone with
        uploads := ⟨alone.uploads.uploads ++ [upload], alone.uploads.byClientId.set client
          ((alone.uploads.byClientId.get client).getD [] ++ [upload])⟩
        sessions := alone.sessions.set client session } where
  session := by rw [Dict.get_set_self, Dict.get_set_self]
  handles := together.handles
  recorded := by rw [Dict.get_set_self, Dict.get_set_self, together.recorded]
  keyed := together.keyed.set own rfl
  aloneKeyed := together.aloneKeyed.set own rfl
  tokens := together.tokens
  names := together.names

/-- A write to a file object of the client. The object has another number in the world of the client
alone, and it holds the same bytes there. -/
theorem InStep.write (together : InStep client world alone) (handle : Nat) (chunk : Bytes)
    (own : (world.handles[handle]?).bind UploadFile.client = some client) :
    InStep client (world.write handle chunk).1
        (alone.write (world.ownHandle client handle) chunk).1 ∧
      (world.write handle chunk).2 = (alone.write (world.ownHandle client handle) chunk).2 := by
  obtain ⟨file, held, belongs⟩ := Option.bind_eq_some_iff.mp own
  have aloneHeld := together.held held belongs
  cases file with
  | disk path position closed => cases belongs
  | capturing upload =>
    simp only [World.write, held, aloneHeld]
    split
    · exact ⟨together, rfl⟩
    · exact ⟨together.replaced held belongs belongs, rfl⟩

/-- A close of a file object of the client. The object has another number in the world of the client
alone, which `ownHandle` gives. Whether the upload is expected is decided by the client's session,
which is the same in both. -/
theorem InStep.close (together : InStep client world alone) (handle : Nat)
    (own : (world.handles[handle]?).bind UploadFile.client = some client) :
    InStep client (world.close handle).1 (alone.close (world.ownHandle client handle)).1 ∧
      (world.close handle).2 = (alone.close (world.ownHandle client handle)).2 := by
  obtain ⟨file, held, belongs⟩ := Option.bind_eq_some_iff.mp own
  have aloneHeld := together.held held belongs
  cases file with
  | disk path position closed => cases belongs
  | capturing upload =>
    have sameCheck := expected_alike world.sessions alone.sessions upload.request.filename client
      belongs together.session
    simp only [World.close, held, aloneHeld, InMemoryUploadStore.record, ← sameCheck]
    split
    · exact ⟨together, rfl⟩
    · cases expected : InMemoryUploadStore.expected world.sessions upload.request.filename with
      | error raised => exact ⟨together, rfl⟩
      | ok waiting =>
        obtain ⟨named, session, pending⟩ := waiting
        obtain ⟨parsed, parse, names, stored, -, -⟩ :=
          (InMemoryUploadStore.expected_ok _ _ _ _ _).mp expected
        obtain rfl : named = client := by
          simpa [UploadFile.client, namedClient, parse, names] using belongs
        exact ⟨(together.replaced held belongs (by exact belongs)).recording _ _
          (by exact together.keyed named session stored), rfl⟩

end World

section Served

variable (server : DynamicContentServer κ) {client : ClientId} {world alone : World κ}

/-- A write request of the client. It is answered alike, since only the session that it names is
looked at. The file object is added to both worlds. -/
theorem open_in_step (together : World.InStep client world alone) (path : Text)
    (peer : Text × Nat) (own : namedClient (server.uploadRequest path peer).filename = some client) :
    World.InStep client (server.openUpload world path peer).1
        (server.openUpload alone path peer).1 ∧
      (server.openUpload world path peer).2 = (server.openUpload alone path peer).2 := by
  have sameCheck := expected_alike world.sessions alone.sessions _ client own together.session
  have named := own
  unfold namedClient at named
  simp only [DynamicContentServer.openUpload, InMemoryUploadStore.openUpload, ← sameCheck]
  cases parse : parseRequestPath (server.uploadRequest path peer).filename with
  | error raised => simp [parse] at named
  | ok parsed =>
    simp only [parse] at named
    simp only [ParsedPath.isSession, named, Option.isSome_some, if_true]
    cases InMemoryUploadStore.expected world.sessions (server.uploadRequest path peer).filename with
    | error raised => exact ⟨together, rfl⟩
    | ok waiting => exact ⟨together.added own, rfl⟩

/-- A read request of the client. The two sides may run it at different times and with different
steps of the download threads of others. -/
theorem read_in_step
    (isolated : ∀ state resumption, (server.provider.resume state resumption).Isolated)
    (together : World.InStep client world alone) (request : ContentRequest) (now later : Nat)
    (schedule other : Schedule) (own : namedClient request.filename = some client) :
    World.InStep client (world.fetch server.provider now schedule request).world
        (alone.fetch server.provider later other request).world ∧
      server.received world (.readRequest request now schedule) =
        server.received alone (.readRequest request later other) := by
  have draws : World.Midway world alone world alone :=
    ⟨⟨rfl, rfl, rfl⟩, ⟨rfl, rfl, rfl⟩, together.tokens, together.names⟩
  obtain ⟨⟨⟨stored, leaves, aloneLeaves, keyed⟩, tokens, names⟩, resumed, result⟩ :=
    fetch_paired isolated draws now later schedule other request own together.session together.keyed
      together.aloneKeyed
  constructor
  · constructor
    case tokens => exact tokens
    case names => exact names
    constructor
    case session => rw [leaves.own, aloneLeaves.own]
    case handles => rw [leaves.handles, aloneLeaves.handles, together.handles]
    case recorded => rw [leaves.uploads, aloneLeaves.uploads, together.recorded]
    case keyed => exact leaves.keyed together.keyed keyed
    case aloneKeyed => exact aloneLeaves.keyed together.aloneKeyed keyed
  · simp only [DynamicContentServer.received, resumed, Received.read.injEq, true_and,
      DynamicContentServer.openDynamicDownload, result]
    cases (alone.fetch server.provider later other request).result with
    | ok content => rfl
    | error raised =>
      simp only
      split
      · rfl
      · rfl

/-- Every step of the client does the same to it as when it is alone, and it is answered the same.
File objects are named by their number among the client's own. -/
theorem step_in_step
    (isolated : ∀ state resumption, (server.provider.resume state resumption).Isolated)
    (together : World.InStep client world alone) (event again : Event)
    (own : server.actor world event = some client)
    (known : SameRequest (world.ownEvent client event) again) :
    World.InStep client (server.step world event) (server.step alone again) ∧
      server.received world event = server.received alone again ∧
      server.actor alone again = some client := by
  cases event with
  | readRequest request now schedule =>
    have read (later : Nat) (other : Schedule) :
        World.InStep client (server.step world (.readRequest request now schedule))
            (server.step alone (.readRequest request later other)) ∧
          server.received world (.readRequest request now schedule) =
            server.received alone (.readRequest request later other) ∧
          server.actor alone (.readRequest request later other) = some client := by
      obtain ⟨keeps, shows⟩ := read_in_step server isolated together request now later schedule other
        own
      rw [DynamicContentServer.step_read_request, DynamicContentServer.step_read_request]
      exact ⟨keeps, shows, own⟩
    cases known with
    | same => exact read now schedule
    | read _ _ later _ other => exact read later other
  | writeRequest path peer =>
    cases known
    obtain ⟨keeps, shows⟩ := open_in_step server together path peer own
    exact ⟨keeps, congrArg Received.opened shows, own⟩
  | write handle chunk =>
    cases known
    obtain ⟨keeps, shows⟩ := together.write handle chunk own
    obtain ⟨file, held, belongs⟩ := Option.bind_eq_some_iff.mp own
    refine ⟨keeps, congrArg Received.used shows, ?_⟩
    exact Option.bind_eq_some_iff.mpr ⟨file, together.held held belongs, belongs⟩
  | close handle =>
    cases known
    obtain ⟨keeps, shows⟩ := together.close handle own
    obtain ⟨file, held, belongs⟩ := Option.bind_eq_some_iff.mp own
    refine ⟨keeps, congrArg Received.used shows, ?_⟩
    exact Option.bind_eq_some_iff.mpr ⟨file, together.held held belongs, belongs⟩
  | threadReport now report => cases own

end Served

/-- The two private states agree for a client. -/
structure PrivateWorld.Alone (client : ClientId) (state alone : PrivateWorld κ) : Prop where
  worlds : World.Alone client state.world alone.world
  drawn : state.drawn client = alone.drawn client

/-- The server with a stream for each client unwinds into the part of each: a step of the client is
matched by its own step, and a step of another one by none. -/
theorem private_unwinds (server : DynamicContentServer κ) (streams : Streams)
    (isolated : ∀ state resumption, (server.provider.resume state resumption).Isolated)
    (client : ClientId) :
    Runs.Unwinds (server.privateStep streams) (server.ownStep client)
      (server.receives streams client) SameRequest (PrivateWorld.Alone client) := by
  constructor
  case others =>
    rintro state alone event ⟨worlds, drawn⟩ foreign
    have notOwn : server.actor state.world event ≠ some client := by
      simpa [DynamicContentServer.ownStep] using foreign
    refine ⟨?_, by simp [DynamicContentServer.receives, notOwn]⟩
    have spared {after : World κ} (spares : state.world.Spares client after) :
        World.Alone client after alone.world :=
      ⟨spares.session.trans worlds.session, worlds.handles.trans spares.handles.symm,
        spares.recorded.trans worlds.recorded, spares.keyed, worlds.aloneKeyed⟩
    unfold DynamicContentServer.privateStep
    cases acts : server.actor state.world event with
    | none => exact ⟨spared (step_spares server isolated _ worlds.keyed client event notOwn), drawn⟩
    | some other =>
      have different : client ≠ other := by
        rintro rfl
        exact notOwn acts
      have spares := step_spares (server.drawing streams other) isolated (state.serving other)
        worlds.keyed client event notOwn
      refine ⟨spared ⟨spares.session, spares.handles, spares.recorded, spares.keyed⟩, ?_⟩
      exact (Function.update_of_ne different _ _).trans drawn
  case consistent =>
    rintro state alone event known again ⟨worlds, drawn⟩ owned alike
    have own : server.actor state.world event = some client := by
      by_contra foreign
      simp [DynamicContentServer.ownStep, foreign] at owned
    rw [DynamicContentServer.ownStep, if_pos own] at owned
    cases owned
    have together : World.InStep client (state.serving client) (alone.serving client) :=
      ⟨⟨worlds.session, worlds.handles, worlds.recorded, worlds.keyed, worlds.aloneKeyed⟩,
        congrArg Prod.fst drawn, congrArg Prod.snd drawn⟩
    obtain ⟨keeps, shows, acts⟩ := step_in_step (server.drawing streams client) isolated together
      event again own alike
    have aloneActs : server.actor alone.world again = some client := acts
    simp only [DynamicContentServer.privateStep, DynamicContentServer.receives, own, aloneActs,
      if_true, shows, and_true]
    exact ⟨keeps.toAlone, by simp [PrivateWorld.served, keeps.tokens, keeps.names]⟩

/-- Whatever the other clients do and whatever static and malformed requests arrive, a client
receives what it receives alone, and its session and its recorded uploads end as they do when it is
alone.

Proof: by the unwinding of runs; what is left out of the statement is what a client can notice of
time and of files, which isolated handlers do not look at. -/
theorem client_isolation (server : DynamicContentServer κ) (streams : Streams)
    (isolated : ∀ state resumption, (server.provider.resume state resumption).Isolated)
    (files : FileTree) (client : ClientId) (events alone : List Event)
    (own : List.Forall₂ SameRequest (server.ownRequests streams client files events) alone) :
    server.receivedBy streams client files events = server.receivedBy streams client files alone ∧
      (server.privateAfter streams files events).world.sessions.get client =
        (server.privateAfter streams files alone).world.sessions.get client ∧
      (server.privateAfter streams files events).world.uploads.byClientId.get client =
        (server.privateAfter streams files alone).world.uploads.byClientId.get client := by
  have empty : (World.initial files : World κ).Keyed := by
    rintro other session ⟨⟩
  obtain ⟨sees, worlds, -⟩ := (private_unwinds server streams isolated client).runs events
    (PrivateWorld.initial files) (PrivateWorld.initial files)
    ⟨⟨rfl, rfl, rfl, empty, empty⟩, rfl⟩ alone own
  exact ⟨sees, worlds.session, worlds.recorded⟩

section Sample

/-- The same random text for every client. -/
def sampleStreams : Streams := ⟨fun _ => sampleHost.token, fun _ => sampleHost.hexToken⟩

/-- The address that the first of two sample clients uploads from. -/
def samplePeer : Text × Nat := ("10.0.0.2".toList, 1069)

/-- A run of two clients that both upload, with a static request among theirs. The ids differ in
case for the same client, and the uploads are closed in the other order than they were opened. -/
def sampleMixed : List Event :=
  [.readRequest (sampleRequest "id=cam") 0 [], .readRequest (sampleRequest "id=dog") 1 [],
    .readRequest (sampleRequest "id=dog/token=t/hush_shell=true") 2 [],
    .writeRequest "/srv/id=dog/token=tt/upload.bin".toList ("10.0.0.3".toList, 1069),
    .readRequest (sampleRequest "id=CAM/token=t/hush_shell=true") 3 [],
    .writeRequest "/srv/id=Cam/token=tt/upload.bin".toList samplePeer,
    .write 1 [1, 2], .write 0 [3], .close 1, .readRequest (sampleRequest "boot.scr") 4 [],
    .close 0, .readRequest (sampleRequest "id=cam/token=tt/recv=ok") 5 []]

/-- The requests of the first client, made by it alone. The file objects have other numbers here,
and the times are other ones. -/
def sampleAlone : List Event :=
  [.readRequest (sampleRequest "id=cam") 0 [],
    .readRequest (sampleRequest "id=CAM/token=t/hush_shell=true") 0 [],
    .writeRequest "/srv/id=Cam/token=tt/upload.bin".toList samplePeer,
    .write 0 [1, 2], .close 0, .readRequest (sampleRequest "id=cam/token=tt/recv=ok") 0 []]

/-- The requests of the first client among those of both. -/
theorem sample_own_requests :
    (sampleServer sampleEntry sampleReceive).ownRequests sampleStreams sampleClient Dict.empty
        sampleMixed =
      [.readRequest (sampleRequest "id=cam") 0 [],
        .readRequest (sampleRequest "id=CAM/token=t/hush_shell=true") 3 [],
        .writeRequest "/srv/id=Cam/token=tt/upload.bin".toList samplePeer,
        .write 0 [1, 2], .close 0, .readRequest (sampleRequest "id=cam/token=tt/recv=ok") 5 []] :=
  Eq.refl _

/-- The first sample client is not disturbed by the second, although both draw the same
tokens. -/
theorem client_isolation_sample :
    let server := sampleServer sampleEntry sampleReceive
    server.receivedBy sampleStreams sampleClient Dict.empty sampleMixed =
        server.receivedBy sampleStreams sampleClient Dict.empty sampleAlone ∧
      (server.privateAfter sampleStreams Dict.empty sampleMixed).world.sessions.get sampleClient =
        (server.privateAfter sampleStreams Dict.empty sampleAlone).world.sessions.get
          sampleClient ∧
      (server.privateAfter sampleStreams Dict.empty sampleMixed).world.uploads.byClientId.get
          sampleClient =
        (server.privateAfter sampleStreams Dict.empty sampleAlone).world.uploads.byClientId.get
          sampleClient := by
  intro server
  have isolated : ∀ state resumption, (server.provider.resume state resumption).Isolated := by
    intro state resumption
    cases resumption <;> exact trivial
  refine client_isolation server sampleStreams isolated Dict.empty sampleClient sampleMixed
    sampleAlone ?_
  rw [sample_own_requests]
  exact .cons (.same _) (.cons (.read _ 3 0 [] []) (.cons (.same _) (.cons (.same _)
    (.cons (.same _) (.cons (.read _ 5 0 [] []) .nil)))))

end Sample

end UbootTftp
