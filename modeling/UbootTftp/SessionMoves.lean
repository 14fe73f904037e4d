import UbootTftp.Answers
import UbootTftp.SoundSessions

/-!
# Steps of one session

Seen from one client's session, a step of the server does nothing, opens a session,
drops it, records an upload body, keeps it after a request that ran no handler code,
or settles it after handler code ran. A step changes the session of at most one
client. Invariants of sessions are proved over these moves.
-/

namespace UbootTftp

universe u
variable {κ : Type u}

/-- What an accepted continuation leaves, in terms of the client's session: what is stored, how many
tokens have been drawn, whether handler code ran and what is answered. -/
inductive World.Accepted (world : World κ) (provider : Provider κ) (now : Nat)
    (schedule : Schedule) (request : ContentRequest) (parsed : ParsedPath) (client : ClientId)
    (session : ClientSession κ) (outcome : Outcome κ) : Prop
  | failed (pending : session.preflightPending = true)
      (unreported : (session.continued parsed).env.get hushKey ≠ some "true".toList)
      (leaves : world.Leaves outcome.world client none)
      (tokens : outcome.world.tokensDrawn = world.tokensDrawn)
      (silent : outcome.resumed = none)
      (answer : outcome.result = .ok (ContentResult.fromBytes
        (provider.host.compile (ensureNewline hushFailureScript))))
  | uncreated (raised : Raised) (pending : session.preflightPending = true)
      (reported : (session.continued parsed).env.get hushKey = some "true".toList)
      (refused : createHandler provider
        { session.continued parsed with preflightPending := false } request = .error raised)
      (leaves : world.Leaves outcome.world client
        (some { session.continued parsed with preflightPending := false }))
      (tokens : outcome.world.tokensDrawn = world.tokensDrawn)
      (silent : outcome.resumed = none) (answer : outcome.result = .error raised)
  | exhausted (passed : session.preflightPending = false)
      (broken : session.handler = none ∨ session.handler = some .finished)
      (leaves : world.Leaves outcome.world client (some (session.continued parsed)))
      (tokens : outcome.world.tokensDrawn = world.tokensDrawn)
      (silent : outcome.resumed = none)
      (answer : session.handler = none ∧
          outcome.result = .error (.noActiveHandler session.clientId.text) ∨
        session.handler = some .finished ∧ outcome.result = .error .coroutineReused)
  | ran (state : κ) (point : Suspension) (resumption : Resumption) (left : HandleState κ)
      (codeEnd : CodeEnd κ) (enters : Enters provider request parsed session state point resumption)
      (code : (provider.resume state resumption).run provider.host now schedule
        ⟨session.entered parsed state point, world.downloads, world.files⟩ = (left, codeEnd))
      (frame : ∃ env artifacts, left.session =
        { session.entered parsed state point with
          publicEnv := env, downloadArtifacts := artifacts })
      (keyed : (session.entered parsed state point).clientId = client)
      (ran : world.Ran provider.host (session.entered parsed state point) left codeEnd outcome.world)
      (resumed : outcome.resumed = some (resumption, codeEnd))
      (answers : Equipped session.env → codeEnd.Answers outcome.result)

/-- In a sound world an accepted continuation leaves one of these.

Proof: the cases of a continuation, with the outcome of handler code split by how the code ended. -/
theorem World.accepted_cases (world : World κ) (provider : Provider κ) (now : Nat)
    (schedule : Schedule) (request : ContentRequest) (parsed : ParsedPath) (client : ClientId)
    (session : ClientSession κ) (sound : world.Sound provider.host)
    (stored : world.sessions.get client = some session) :
    world.Accepted provider now schedule request parsed client session
      (world.continueSession provider now schedule request parsed session) := by
  obtain ⟨keyed, staged, -, -⟩ := sound.sessions client session stored
  have continued := world.continue_cases provider now schedule request parsed session staged
  generalize world.continueSession provider now schedule request parsed session = outcome
    at continued ⊢
  cases continued with
  | unsupported pending unreported =>
    refine .failed pending unreported ?_ rfl rfl rfl
    exact discard_leaves world world ⟨rfl, rfl, rfl⟩ now _ client (by simp [keyed])
  | uncreated raised pending reported refused =>
    refine .uncreated raised pending reported refused ?_ rfl rfl rfl
    exact put_leaves world world ⟨rfl, rfl, rfl⟩ _ client (by simp [keyed])
  | unhandled passed missing =>
    refine .exhausted passed (.inl missing) ?_ rfl rfl (.inl ⟨missing, rfl⟩)
    exact put_leaves world world ⟨rfl, rfl, rfl⟩ _ client (by simp [keyed])
  | exhausted passed finished =>
    refine .exhausted passed (.inr finished) ?_ rfl rfl (.inr ⟨finished, rfl⟩)
    exact put_leaves world world ⟨rfl, rfl, rfl⟩ _ client (by simp [keyed])
  | ran state point resumption enters =>
    cases code : (provider.resume state resumption).run provider.host now schedule
      ⟨session.entered parsed state point, world.downloads, world.files⟩ with
    | mk left codeEnd =>
    have frame := Code.run_session provider.host now (provider.resume state resumption) schedule
      ⟨session.entered parsed state point, world.downloads, world.files⟩
    rw [code] at frame
    obtain ⟨resumed, ran⟩ := run_handler_ran world provider now schedule
      (session.entered parsed state point) state resumption left codeEnd code
    refine .ran state point resumption left codeEnd enters code frame
      (by simp [ClientSession.entered, keyed]) ran resumed fun equipped => ?_
    exact run_handler_answers world provider now schedule (session.entered parsed state point) state
      resumption (continued_equipped session parsed equipped) left codeEnd code

/-- A fetch that is accepted is a continuation of the stored session. -/
theorem World.Accepts.fetch {world : World κ} {parsed : ParsedPath} {client : ClientId}
    {session : ClientSession κ} {request : ContentRequest}
    (accepts : world.Accepts request.filename parsed client session) (provider : Provider κ)
    (now : Nat) (schedule : Schedule) :
    world.fetch provider now schedule request =
      world.continueSession provider now schedule request parsed session := by
  obtain ⟨parse, names, continues, stored, current⟩ := accepts
  simp [World.fetch, parse, names, continues, resumeSession, InMemorySessionStore.require, stored,
    current]

/-- One filename is accepted for one session only. -/
theorem World.Accepts.unique {world : World κ} {filename : Text} {parsed other : ParsedPath}
    {client otherClient : ClientId} {session otherSession : ClientSession κ}
    (accepts : world.Accepts filename parsed client session)
    (again : world.Accepts filename other otherClient otherSession) :
    parsed = other ∧ client = otherClient ∧ session = otherSession := by
  cases accepts.parse.symm.trans again.parse
  cases accepts.names.symm.trans again.names
  cases accepts.stored.symm.trans again.stored
  exact ⟨rfl, rfl, rfl⟩

/-- An accepted continuation changes the session of its own client at most. One case for each way in
which an accepted continuation can end: in all of them only the client's own entry of the sessions
is written or removed. -/
theorem World.Accepted.others {world : World κ} {provider : Provider κ} {now : Nat}
    {schedule : Schedule} {request : ContentRequest} {parsed : ParsedPath} {client : ClientId}
    {session : ClientSession κ} {outcome : Outcome κ}
    (handled : world.Accepted provider now schedule request parsed client session outcome)
    (other : ClientId) (different : other ≠ client) :
    outcome.world.sessions.get other = world.sessions.get other := by
  cases handled with
  | failed pending unreported leaves => exact leaves.others other different
  | uncreated raised pending reported refused leaves => exact leaves.others other different
  | exhausted passed broken leaves => exact leaves.others other different
  | ran state point resumption left codeEnd enters code frame keyed ran =>
    exact (keyed ▸ ran.leaves).others other different

/-- Only an accepted continuation makes handler code run. Starting a session runs none of it. -/
theorem World.resumed_accepted (world : World κ) (provider : Provider κ) (now : Nat)
    (schedule : Schedule) (request : ContentRequest) {result : Resumption × CodeEnd κ}
    (resumed : (world.fetch provider now schedule request).resumed = some result) :
    ∃ parsed client session, world.Accepts request.filename parsed client session := by
  have fetched := world.fetch_cases provider now schedule request
  generalize world.fetch provider now schedule request = outcome at fetched resumed
  cases fetched with
  | missed result cause unstarted refused => cases resumed
  | started parsed client starts => cases resumed
  | accepted parsed client session accepts => exact ⟨parsed, client, session, accepts⟩

/-- An accepted continuation that made handler code run left the session settled by the
end of that code. -/
theorem World.Accepts.ran {world : World κ} {parsed : ParsedPath} {client : ClientId}
    {session : ClientSession κ} {request : ContentRequest}
    (accepts : world.Accepts request.filename parsed client session) (provider : Provider κ)
    (sound : world.Sound provider.host) (now : Nat) (schedule : Schedule)
    {resumption : Resumption} {codeEnd : CodeEnd κ}
    (resumed : (world.fetch provider now schedule request).resumed = some (resumption, codeEnd)) :
    ∃ state point left, Enters provider request parsed session state point resumption ∧
      (provider.resume state resumption).run provider.host now schedule
        ⟨session.entered parsed state point, world.downloads, world.files⟩ = (left, codeEnd) ∧
      (world.fetch provider now schedule request).world.sessions.get client =
        left.session.settle (provider.host.token world.tokensDrawn) codeEnd := by
  have handled := world.accepted_cases provider now schedule request parsed client session sound
    accepts.stored
  rw [← accepts.fetch provider now schedule] at handled
  cases handled with
  | failed pending unreported leaves tokens silent answer => cases silent.symm.trans resumed
  | uncreated raised pending reported refused leaves tokens silent answer =>
    cases silent.symm.trans resumed
  | exhausted passed broken leaves tokens silent answer => cases silent.symm.trans resumed
  | ran state point first left firstEnd enters code frame keyed ran result answers =>
    cases result.symm.trans resumed
    exact ⟨state, point, left, enters, code, (keyed ▸ ran.leaves).own⟩

/-- A request that resumes handler code settles the session by the end of that code: what the code
has left is stored, or dropped, according to how it ended. -/
theorem enters_settles (world : World κ) (provider : Provider κ) (now : Nat) (schedule : Schedule)
    (request : ContentRequest) (sound : world.Sound provider.host) {parsed : ParsedPath}
    {client : ClientId} {session : ClientSession κ} {state : κ} {point : Suspension}
    {resumption : Resumption} (accepts : world.Accepts request.filename parsed client session)
    (enters : Enters provider request parsed session state point resumption) :
    ∃ left codeEnd, (provider.resume state resumption).run provider.host now schedule
        ⟨session.entered parsed state point, world.downloads, world.files⟩ = (left, codeEnd) ∧
      (world.fetch provider now schedule request).resumed = some (resumption, codeEnd) ∧
      (world.fetch provider now schedule request).world.sessions.get client =
        left.session.settle (provider.host.token world.tokensDrawn) codeEnd := by
  rw [accepts.fetch provider now schedule]
  have handled := world.accepted_cases provider now schedule request parsed client session sound
    accepts.stored
  cases handled with
  | failed pending unreported leaves tokens silent answer =>
    exact absurd (enters.preflight pending).2.2.1 unreported
  | uncreated raised pending reported refused leaves tokens silent answer =>
    cases refused.symm.trans (enters.preflight pending).2.2.2
  | exhausted passed broken leaves tokens silent answer =>
    simp [(enters.later passed).1] at broken
  | ran other second again left codeEnd entersAgain code frame keyed ran resumed answers =>
    obtain ⟨rfl, rfl, rfl⟩ := enters.unique entersAgain
    exact ⟨left, codeEnd, code, resumed, (keyed ▸ ran.leaves).own⟩

/-- An accepted request starts no session. -/
theorem World.Accepts.unstarted {world : World κ} {request : ContentRequest} {parsed : ParsedPath}
    {client : ClientId} {session : ClientSession κ} {now : Nat} {schedule : Schedule}
    (accepts : world.Accepts request.filename parsed client session) (other : ClientId)
    (again : ParsedPath) (restart : ContentRequest) (restartNow : Nat) (restartSchedule : Schedule)
    (same : Event.readRequest request now schedule =
      .readRequest restart restartNow restartSchedule) :
    ¬Starts restart.filename again other := by
  rintro ⟨parse, -, fresh⟩
  cases same
  cases accepts.parse.symm.trans parse
  rw [accepts.continues] at fresh
  cases fresh

/-- How a step changes one client's session after a number of token draws. The two sides are
options, since a session can be absent before and behind a step. -/
inductive Move (provider : Provider κ) (draws : Nat) :
    Option (ClientSession κ) → Option (ClientSession κ) → Prop
  | same (session : Option (ClientSession κ)) : Move provider draws session session
  | opened (before : Option (ClientSession κ)) (request : ContentRequest) (parsed : ParsedPath)
      (client : ClientId) :
      Move provider draws before
        (some (openedSession provider request parsed client (provider.host.token draws)))
  | dropped (session : ClientSession κ) : Move provider draws (some session) none
  | uploaded (session : ClientSession κ) (pending : PendingReceive) (body : Bytes)
      (expecting : session.pendingReceive = some pending) :
      Move provider draws (some session)
        (some { session with pendingReceive := some { pending with uploaded := some body } })
  | uncreated (session : ClientSession κ) (request : ContentRequest) (parsed : ParsedPath)
      (raised : Raised) (pending : session.preflightPending = true)
      (refused : createHandler provider
        { session.continued parsed with preflightPending := false } request = .error raised) :
      Move provider draws (some session)
        (some { session.continued parsed with preflightPending := false })
  | exhausted (session : ClientSession κ) (parsed : ParsedPath)
      (passed : session.preflightPending = false)
      (broken : session.handler = none ∨ session.handler = some .finished) :
      Move provider draws (some session) (some (session.continued parsed))
  | settled (session : ClientSession κ) (request : ContentRequest) (parsed : ParsedPath) (state : κ)
      (point : Suspension) (resumption : Resumption) (now : Nat) (schedule : Schedule)
      (downloads : DownloadJobStore) (files : FileTree) (left : HandleState κ)
      (codeEnd : CodeEnd κ) (enters : Enters provider request parsed session state point resumption)
      (code : (provider.resume state resumption).run provider.host now schedule
        ⟨session.entered parsed state point, downloads, files⟩ = (left, codeEnd))
      (frame : ∃ env artifacts, left.session =
        { session.entered parsed state point with
          publicEnv := env, downloadArtifacts := artifacts }) :
      Move provider draws (some session)
        (left.session.settle (provider.host.token draws) codeEnd)

/-- A step moves one client's session and leaves the others. The actor is that client; for a step
that concerns no client it is any one, and the move is the one that does nothing. -/
structure World.Moves (world : World κ) (provider : Provider κ) (after : World κ)
    (actor : ClientId) : Prop where
  own : Move provider world.tokensDrawn (world.sessions.get actor) (after.sessions.get actor)
  others : ∀ other, other ≠ actor → after.sessions.get other = world.sessions.get other
  draws : world.tokensDrawn ≤ after.tokensDrawn

/-- Every client's session is moved, if only by nothing. -/
theorem World.Moves.any {world after : World κ} {provider : Provider κ} {actor : ClientId}
    (moves : world.Moves provider after actor) (client : ClientId) :
    Move provider world.tokensDrawn (world.sessions.get client) (after.sessions.get client) := by
  by_cases same : client = actor
  · exact same ▸ moves.own
  · rw [moves.others client same]
    exact .same _

/-- A step that keeps the sessions moves nothing. -/
theorem World.unmoved {world after : World κ} (provider : Provider κ)
    (sessions : after.sessions = world.sessions) (draws : after.tokensDrawn = world.tokensDrawn) :
    ∃ actor, world.Moves provider after actor := by
  refine ⟨⟨['-'], by decide, by decide⟩, ?_, ?_, draws.ge⟩
  · rw [sessions]
    exact .same _
  · exact fun other _ => by rw [sessions]

/-- A read request moves at most one client's session. The client is the one that the request names.
A request without a client moves no session, for which any client will do. -/
theorem fetch_moves (world : World κ) (provider : Provider κ) (now : Nat) (schedule : Schedule)
    (request : ContentRequest) (sound : world.Sound provider.host) :
    ∃ actor, world.Moves provider (world.fetch provider now schedule request).world actor := by
  have fetched := world.fetch_cases provider now schedule request
  generalize world.fetch provider now schedule request = outcome at fetched ⊢
  cases fetched with
  | missed result cause unstarted refused => exact World.unmoved provider rfl rfl
  | started parsed client starts =>
    refine ⟨client, ?_⟩
    obtain ⟨leaves, tokens, -⟩ := world.start_opened provider now request parsed client
      (fun existing stored => (sound.sessions client existing stored).keyed)
    refine ⟨?_, leaves.others, by rw [tokens]; omega⟩
    rw [leaves.own]
    exact .opened _ request parsed client
  | accepted parsed client session accepts =>
    have handled := world.accepted_cases provider now schedule request parsed client session sound
      accepts.stored
    generalize world.continueSession provider now schedule request parsed session = outcome
      at handled ⊢
    refine ⟨client, ?_⟩
    cases handled with
    | failed pending unreported leaves tokens silent answer =>
      refine ⟨?_, leaves.others, tokens.ge⟩
      rw [leaves.own, accepts.stored]
      exact .dropped session
    | uncreated raised pending reported refused leaves tokens silent answer =>
      refine ⟨?_, leaves.others, tokens.ge⟩
      rw [leaves.own, accepts.stored]
      exact .uncreated session request parsed raised pending refused
    | exhausted passed broken leaves tokens silent answer =>
      refine ⟨?_, leaves.others, tokens.ge⟩
      rw [leaves.own, accepts.stored]
      exact .exhausted session parsed passed broken
    | ran state point resumption left codeEnd enters code frame keyed ran resumed answers =>
      have leaves := keyed ▸ ran.leaves
      refine ⟨?_, leaves.others, by rw [ran.tokens]; omega⟩
      rw [leaves.own, accepts.stored]
      exact .settled session request parsed state point resumption now schedule world.downloads
        world.files left codeEnd enters code frame

/-- A read request that is not accepted for a client leaves its session as it was or
opens a new one. -/
theorem fetch_unaccepted (world : World κ) (provider : Provider κ) (now : Nat)
    (schedule : Schedule) (request : ContentRequest) (sound : world.Sound provider.host)
    (client : ClientId)
    (unaccepted : ∀ parsed session, ¬world.Accepts request.filename parsed client session) :
    ((world.fetch provider now schedule request).world.sessions.get client =
        world.sessions.get client ∧ ∀ parsed, ¬Starts request.filename parsed client) ∨
      ∃ parsed, Starts request.filename parsed client ∧
        (world.fetch provider now schedule request).world.sessions.get client =
          some (openedSession provider request parsed client
            (provider.host.token world.tokensDrawn)) := by
  have fetched := world.fetch_cases provider now schedule request
  generalize world.fetch provider now schedule request = outcome at fetched ⊢
  cases fetched with
  | missed result cause unstarted refused => exact .inl ⟨rfl, fun parsed => unstarted parsed client⟩
  | started parsed other starts =>
    obtain ⟨leaves, -, -⟩ := world.start_opened provider now request parsed other
      (fun existing stored => (sound.sessions other existing stored).keyed)
    by_cases own : client = other
    · subst own
      exact .inr ⟨parsed, starts, leaves.own⟩
    · refine .inl ⟨leaves.others client own, ?_⟩
      rintro again ⟨parse, names, -⟩
      cases starts.parse.symm.trans parse
      exact own (Option.some.inj (names.symm.trans starts.names))
  | accepted parsed other session accepts =>
    have different : client ≠ other := by
      rintro rfl
      exact unaccepted parsed session accepts
    have handled := world.accepted_cases provider now schedule request parsed other session sound
      accepts.stored
    exact .inl ⟨handled.others client different,
      fun again => accepts.unstarted client again request now schedule rfl⟩

/-- A close moves at most one client's session. A close that records an upload body moves the
session that expects it, and every other one leaves the sessions alone. -/
theorem close_moves (world : World κ) (provider : Provider κ) (handle : Nat) :
    ∃ actor, world.Moves provider (world.close handle).1 actor := by
  have closed := world.close_cases handle
  generalize world.close handle = result at closed ⊢
  cases closed with
  | absent missing => exact World.unmoved provider rfl rfl
  | again upload held captured => exact World.unmoved provider rfl rfl
  | refused upload raised held uncaptured unexpected => exact World.unmoved provider rfl rfl
  | disk path position closed held => exact World.unmoved provider rfl rfl
  | recorded upload client session pending held uncaptured expected =>
    obtain ⟨parsed, -, -, stored, expecting, -⟩ :=
      (InMemoryUploadStore.expected_ok _ _ _ _ _).mp expected
    refine ⟨client, ?_, fun other different => Dict.get_set_other _ _ _ _ different, le_rfl⟩
    rw [Dict.get_set_self, stored]
    exact .uploaded session pending upload.value expecting

/-- A step other than a read request leaves each session as it is or records an upload
body in it. -/
theorem unread_step (server : DynamicContentServer κ) (world : World κ) (event : Event)
    (noRead : ∀ request now schedule, event ≠ .readRequest request now schedule)
    (client : ClientId) :
    (server.step world event).sessions.get client = world.sessions.get client ∨
      ∃ session pending body, world.sessions.get client = some session ∧
        session.pendingReceive = some pending ∧ (server.step world event).sessions.get client =
          some { session with pendingReceive := some { pending with uploaded := some body } } := by
  have quiet (noClose : ∀ handle, event ≠ .close handle) :
      (server.step world event).sessions.get client = world.sessions.get client := by
    rw [(quiet_step server world event noRead noClose).1]
  cases event with
  | readRequest request now schedule => exact absurd rfl (noRead request now schedule)
  | writeRequest path peer => exact .inl (quiet fun _ => by simp)
  | write handle chunk => exact .inl (quiet fun _ => by simp)
  | threadReport now report => exact .inl (quiet fun _ => by simp)
  | close handle =>
    simp only [DynamicContentServer.step]
    have closed := world.close_cases handle
    generalize world.close handle = result at closed ⊢
    cases closed with
    | absent missing => exact .inl rfl
    | again upload held captured => exact .inl rfl
    | refused upload raised held uncaptured unexpected => exact .inl rfl
    | disk path position closed held => exact .inl rfl
    | recorded upload other session pending held uncaptured expected =>
      obtain ⟨parsed, -, -, stored, expecting, -⟩ :=
        (InMemoryUploadStore.expected_ok _ _ _ _ _).mp expected
      by_cases same : client = other
      · subst same
        exact .inr ⟨session, pending, upload.value, stored, expecting, Dict.get_set_self _ _ _⟩
      · exact .inl (Dict.get_set_other _ _ _ _ same)

/-- Every step moves at most one client's session. Invariants of a single session follow from this:
it is enough to look at the moves. -/
theorem step_moves (server : DynamicContentServer κ) (world : World κ) (event : Event)
    (sound : world.Sound server.provider.host) :
    ∃ actor, world.Moves server.provider (server.step world event) actor := by
  have quiet (noRead : ∀ request now schedule, event ≠ .readRequest request now schedule)
      (noClose : ∀ handle, event ≠ .close handle) :
      ∃ actor, world.Moves server.provider (server.step world event) actor := by
    obtain ⟨sessions, tokens, -, -⟩ := quiet_step server world event noRead noClose
    exact World.unmoved server.provider sessions tokens
  cases event with
  | readRequest request now schedule =>
    rw [DynamicContentServer.step_read_request]
    exact fetch_moves world server.provider now schedule request sound
  | close handle => exact close_moves world server.provider handle
  | writeRequest path peer => exact quiet (fun _ _ _ => by simp) (fun _ => by simp)
  | write handle chunk => exact quiet (fun _ _ _ => by simp) (fun _ => by simp)
  | threadReport now report => exact quiet (fun _ _ _ => by simp) (fun _ => by simp)

/-- Whether two sessions agree on the fields that settling keeps. They are the ones that later
requests of the session build on. -/
structure SameRecord (left settled : ClientSession κ) : Prop where
  env : settled.env = left.env
  publicEnv : settled.publicEnv = left.publicEnv
  requests : settled.requests = left.requests
  preflightPending : settled.preflightPending = left.preflightPending

/-- A settled session with a suspended handler is suspended in what the code awaits. What it awaits
also decides at which point it is suspended. -/
theorem settle_suspended (left settled : ClientSession κ) (token : Text) (codeEnd : CodeEnd κ)
    (stored : left.settle token codeEnd = some settled) (state : κ) (point : Suspension)
    (suspended : settled.handler = some (.suspended state point)) :
    ∃ awaited, codeEnd = .awaited awaited state ∧ awaited.point = point := by
  cases codeEnd with
  | returned => cases stored
  | raised error =>
    simp only [ClientSession.settle] at stored
    split at stored
    · cases stored
    · cases stored
      cases suspended
  | awaited awaited next =>
    cases awaited with
    | foreign =>
      cases stored
      cases suspended
      exact ⟨.foreign, rfl, rfl⟩
    | execRecv request built =>
      cases stored
      cases suspended
      exact ⟨.execRecv request built, rfl, rfl⟩
    | exec request built =>
      simp only [ClientSession.settle] at stored
      split at stored
      · cases stored
      · cases stored
        cases suspended
        exact ⟨.exec request built, rfl, rfl⟩

/-- Settling keeps the record of a session that stays stored. It consists of the two environments,
the requests and whether the preflight is pending; settling changes the token, the phase and the
handler. -/
theorem settle_record (left settled : ClientSession κ) (token : Text) (codeEnd : CodeEnd κ)
    (stored : left.settle token codeEnd = some settled) : SameRecord left settled := by
  cases codeEnd with
  | returned => cases stored
  | raised error =>
    simp only [ClientSession.settle] at stored
    split at stored
    all_goals cases stored
    exact ⟨rfl, rfl, rfl, rfl⟩
  | awaited awaited next =>
    cases awaited with
    | foreign =>
      cases stored
      exact ⟨rfl, rfl, rfl, rfl⟩
    | execRecv request built =>
      cases stored
      exact ⟨rfl, rfl, rfl, rfl⟩
    | exec request built =>
      simp only [ClientSession.settle] at stored
      split at stored
      all_goals cases stored
      exact ⟨rfl, rfl, rfl, rfl⟩

/-- A move keeps sessions equipped when the base environment is. A start and a continuation put
values under keys and take none away. -/
theorem Move.equipped {provider : Provider κ} (base : Equipped provider.config.env) {draws : Nat}
    {before : Option (ClientSession κ)}
    (equipped : ∀ session, before = some session → Equipped session.env)
    {session : ClientSession κ} (move : Move provider draws before (some session)) :
    Equipped session.env := by
  generalize target : some session = after at move
  cases move with
  | same _ => exact equipped session target.symm
  | opened before request parsed client =>
    cases target
    exact session_env_equipped _ _ parsed base
  | dropped earlier => cases target
  | uploaded earlier pending body expecting =>
    cases target
    exact equipped earlier rfl
  | uncreated earlier request parsed raised pending refused =>
    cases target
    exact continued_equipped earlier parsed (equipped earlier rfl)
  | exhausted earlier parsed passed broken =>
    cases target
    exact continued_equipped earlier parsed (equipped earlier rfl)
  | settled earlier request parsed state point resumption now schedule downloads files left codeEnd
      enters code frame =>
    obtain ⟨env, artifacts, kept⟩ := frame
    rw [(settle_record left.session session _ codeEnd target.symm).env, kept]
    exact continued_equipped earlier parsed (equipped earlier rfl)

/-- A configuration that the loader accepts equips every stored session: those that are opened get
the base environment, and no move removes a key. -/
theorem after_equipped (server : DynamicContentServer κ)
    (base : Equipped server.provider.config.env) (files : FileTree) (events : List Event) :
    ∀ client session, (server.after files events).sessions.get client = some session →
      Equipped session.env := by
  have both := Runs.run_invariant server.step
    (fun world => world.Sound server.provider.host ∧
      ∀ client session, world.sessions.get client = some session → Equipped session.env)
    (fun world event ⟨sound, equipped⟩ => by
      refine ⟨step_sound server world event sound, fun client session stored => ?_⟩
      obtain ⟨actor, moves⟩ := step_moves server world event sound
      exact Move.equipped base (equipped client) (stored ▸ moves.any client))
    (World.initial files) ⟨after_sound server files [], fun _ _ stored => by cases stored⟩ events
  exact both.2

/-- After a move the current token is the one before or the one drawn next. A token is drawn when
the session is opened and whenever a script that continues is sent. -/
theorem Move.token {provider : Provider κ} {draws : Nat} {before : Option (ClientSession κ)}
    {session : ClientSession κ} (move : Move provider draws before (some session)) :
    (∃ earlier, before = some earlier ∧ earlier.currentToken = session.currentToken) ∨
      session.currentToken = some (provider.host.token draws) := by
  generalize target : some session = after at move
  cases move with
  | same _ => exact .inl ⟨session, target.symm, rfl⟩
  | opened before request parsed client =>
    cases target
    exact .inr rfl
  | dropped earlier => cases target
  | uploaded earlier pending body expecting =>
    cases target
    exact .inl ⟨earlier, rfl, rfl⟩
  | uncreated earlier request parsed raised pending refused =>
    cases target
    exact .inl ⟨earlier, rfl, by simp⟩
  | exhausted earlier parsed passed broken =>
    cases target
    exact .inl ⟨earlier, rfl, by simp⟩
  | settled earlier request parsed state point resumption now schedule downloads files left codeEnd
      enters code frame =>
    obtain ⟨env, artifacts, kept⟩ := frame
    have token : left.session.currentToken = earlier.currentToken := by
      rw [kept]
      exact earlier.continued_current_token parsed
    cases codeEnd with
    | returned => cases target
    | raised error =>
      simp only [ClientSession.settle] at target
      split at target
      · cases target
      · cases target
        exact .inl ⟨earlier, rfl, token.symm⟩
    | awaited awaited next =>
      cases awaited with
      | foreign =>
        cases target
        exact .inl ⟨earlier, rfl, token.symm⟩
      | execRecv expected built =>
        cases target
        exact .inr rfl
      | exec expected built =>
        simp only [ClientSession.settle] at target
        split at target
        · cases target
        · cases target
          exact .inr rfl

end UbootTftp
