import UbootTftp.ProperHandlers

/-!
# Cleaning up after a handler

A handler is arbitrary user code. When its code returns or raises
`ReceiveFailedError` the session goes and its artifacts are released. An exception of
another class, or a foreign object that the server rejects, leaves the session
stored with its token and its attachments. The results state exactly when a request
cleans up, and what holds of runs in which every request does.
-/

namespace UbootTftp

universe u
variable {κ : Type u}

/-- An end of handler code after which the session has no use: the handler is over or awaits an
object that the server rejects. A final script is no such end, since the server drops the session
there. -/
def CodeEnd.Stops : CodeEnd κ → Prop
  | .returned => True
  | .raised _ => True
  | .awaited (.exec _ _) _ => False
  | .awaited (.execRecv _ _) _ => False
  | .awaited .foreign _ => True

/-- Whether a request that stops a handler leaves neither the session nor an attachment of its
client. -/
def CleansUp (provider : Provider κ) (world : World κ) (now : Nat) (schedule : Schedule)
    (request : ContentRequest) : Prop :=
  ∀ parsed client session resumption codeEnd,
    world.Accepts request.filename parsed client session →
    (world.fetch provider now schedule request).resumed = some (resumption, codeEnd) →
    codeEnd.Stops →
    (world.fetch provider now schedule request).world.sessions.get client = none ∧
      ∀ key, ¬(world.fetch provider now schedule request).world.downloads.Attached key client.text

/-- Whether the handler code that a request resumes, if it does resume one, awaits a
helper, returns or raises `ReceiveFailedError`. -/
def EndsProperly (provider : Provider κ) (world : World κ) (now : Nat) (schedule : Schedule)
    (request : ContentRequest) : Prop :=
  ∀ parsed client session state point resumption,
    world.Accepts request.filename parsed client session →
    Enters provider request parsed session state point resumption →
    ((provider.resume state resumption).run provider.host now schedule
      ⟨session.entered parsed state point, world.downloads, world.files⟩).2.Proper

/-- An end that is not proper stops the handler and keeps the session. -/
theorem settle_improper (left : ClientSession κ) (token : Text) (codeEnd : CodeEnd κ)
    (improper : ¬codeEnd.Proper) : codeEnd.Stops ∧ left.settle token codeEnd ≠ none := by
  cases codeEnd with
  | returned => exact absurd trivial improper
  | raised error =>
    have unexpected : ¬error.cls = .receiveFailedError := improper
    exact ⟨trivial, by simp [ClientSession.settle, unexpected]⟩
  | awaited awaited next =>
    cases awaited with
    | exec request built => exact absurd trivial improper
    | execRecv request built => exact absurd trivial improper
    | foreign => exact ⟨trivial, by simp [ClientSession.settle]⟩

/-- An end that is proper and stops the handler drops the session. -/
theorem settle_stops (left : ClientSession κ) (token : Text) (codeEnd : CodeEnd κ)
    (proper : codeEnd.Proper) (stops : codeEnd.Stops) : left.settle token codeEnd = none := by
  cases codeEnd with
  | returned => rfl
  | raised error => exact if_pos proper
  | awaited awaited next =>
    cases awaited with
    | exec request built => exact stops.elim
    | execRecv request built => exact stops.elim
    | foreign => exact proper.elim

/-- In a sound world a request cleans up exactly when the handler code it resumes ends properly.

Proof: an improper end stops the handler and settles its session as one that stays stored; a
proper one that stops the handler drops it, and releasing what it knows of releases all that is
attached. -/
theorem cleans_up_iff (provider : Provider κ) (world : World κ) (sound : world.Sound provider.host)
    (now : Nat) (schedule : Schedule) (request : ContentRequest) :
    CleansUp provider world now schedule request ↔
      EndsProperly provider world now schedule request := by
  constructor
  · intro cleans parsed client session state point resumption accepts enters
    obtain ⟨left, codeEnd, code, resumed, stored⟩ := enters_settles world provider now schedule
      request sound accepts enters
    rw [code]
    by_contra improper
    obtain ⟨stops, stays⟩ := settle_improper left.session
      (provider.host.token world.tokensDrawn) codeEnd improper
    exact stays (stored.symm.trans
      (cleans parsed client session resumption codeEnd accepts resumed stops).1)
  · intro ends parsed client session resumption codeEnd accepts resumed stops
    have dropped : (world.fetch provider now schedule request).world.sessions.get client = none := by
      obtain ⟨state, point, left, enters, code, own⟩ :=
        accepts.ran provider sound now schedule resumed
      have proper := ends parsed client session state point resumption accepts enters
      rw [code] at proper
      exact own.trans (settle_stops left.session _ codeEnd proper stops)
    refine ⟨dropped, fun key attached => ?_⟩
    obtain ⟨owner, remaining, stored, text, -⟩ :=
      (fetch_sound world provider now schedule request sound).attached key client.text attached
    rw [owner.text_injective client text, dropped] at stored
    cases stored

/-- The guard of a run in which every request cleans up. -/
def Cleanly (provider : Provider κ) (world : World κ) : Event → Prop
  | .readRequest request now schedule => EndsProperly provider world now schedule request
  | _ => True

/-- No stored session has a handler that is over. -/
def NoneFinished (world : World κ) : Prop :=
  ∀ client session, world.sessions.get client = some session → session.handler ≠ some .finished

/-- A request that cleans up leaves no finished handler in the store. Other events keep the handlers
of all sessions, and so do requests for other clients. -/
theorem step_none_finished (server : DynamicContentServer κ) (world : World κ) (event : Event)
    (sound : world.Sound server.provider.host) (cleanly : Cleanly server.provider world event)
    (unfinished : NoneFinished world) : NoneFinished (server.step world event) := by
  intro client session stored
  by_cases read : ∃ request now schedule, event = .readRequest request now schedule
  · obtain ⟨request, now, schedule, rfl⟩ := read
    rw [DynamicContentServer.step_read_request] at stored
    by_cases accepted : ∃ parsed session, world.Accepts request.filename parsed client session
    · obtain ⟨parsed, earlier, accepts⟩ := accepted
      have handled := world.accepted_cases server.provider now schedule request parsed client
        earlier sound accepts.stored
      rw [← accepts.fetch server.provider now schedule] at handled
      have before := unfinished client earlier accepts.stored
      cases handled with
      | failed pending unreported leaves tokens silent answer =>
        rw [leaves.own] at stored
        cases stored
      | uncreated raised pending reported refused leaves tokens silent answer =>
        cases leaves.own.symm.trans stored
        simpa using before
      | exhausted passed broken leaves tokens silent answer =>
        cases leaves.own.symm.trans stored
        simpa using before
      | ran state point resumption left codeEnd enters code frame keyed ran resumed answers =>
        have proper := cleanly parsed client earlier state point resumption accepts enters
        rw [code] at proper
        have own := (keyed ▸ ran.leaves).own
        rcases settle_proper left.session _ codeEnd proper with
          ⟨-, dropped⟩ | ⟨awaited, next, settled, -, -, stays, handler, -⟩
        · rw [own, dropped] at stored
          cases stored
        · cases (own.trans stays).symm.trans stored
          simp [handler]
    · rcases fetch_unaccepted world server.provider now schedule request sound client
        (fun parsed session accepts => accepted ⟨parsed, session, accepts⟩) with
        ⟨same, -⟩ | ⟨_, -, opened⟩
      · exact unfinished client session (same ▸ stored)
      · cases opened.symm.trans stored
        simp [openedSession, ClientSession.recordRrq, ClientSession.create]
  · rcases unread_step server world event (fun request now schedule same =>
      read ⟨request, now, schedule, same⟩) client with same | ⟨earlier, _, _, present, -, kept⟩
    · exact unfinished client session (same ▸ stored)
    · cases kept.symm.trans stored
      exact unfinished client earlier present

/-- Whether a client's stored session, if there is one, holds a token of a late draw. -/
def TokenSince (host : Host) (client : ClientId) (draws : Nat) (world : World κ) : Prop :=
  draws ≤ world.tokensDrawn ∧ ∀ session, world.sessions.get client = some session →
    ∃ draw, draws ≤ draw ∧ session.currentToken = some (host.token draw)

/-- Steps only ever replace a token by a later one. A start draws one as well, so this also holds
where the session is another one by then. -/
theorem step_token_since (server : DynamicContentServer κ) (world : World κ) (event : Event)
    (sound : world.Sound server.provider.host) (client : ClientId) (draws : Nat)
    (since : TokenSince server.provider.host client draws world) :
    TokenSince server.provider.host client draws (server.step world event) := by
  obtain ⟨actor, moves⟩ := step_moves server world event sound
  refine ⟨since.1.trans moves.draws, fun session stored => ?_⟩
  have move := moves.any client
  rw [stored] at move
  rcases move.token with ⟨earlier, present, kept⟩ | fresh
  · rw [← kept]
    exact since.2 earlier present
  · exact ⟨world.tokensDrawn, since.1, fresh⟩

/-- A request that cleans up and advances a handler renews the session's token. If the session ends
there is no token to be looked at. -/
theorem advanced_token_since (world : World κ) (provider : Provider κ) (now : Nat)
    (schedule : Schedule) (request : ContentRequest) (sound : world.Sound provider.host)
    (ends : EndsProperly provider world now schedule request) {parsed : ParsedPath}
    {client : ClientId} {session : ClientSession κ} {result : Resumption × CodeEnd κ}
    (accepts : world.Accepts request.filename parsed client session)
    (resumed : (world.fetch provider now schedule request).resumed = some result) :
    TokenSince provider.host client world.tokensDrawn
      (world.fetch provider now schedule request).world := by
  obtain ⟨actor, moves⟩ := fetch_moves world provider now schedule request sound
  refine ⟨moves.draws, fun later stored => ?_⟩
  obtain ⟨resumption, codeEnd⟩ := result
  obtain ⟨state, point, left, enters, code, own⟩ :=
    accepts.ran provider sound now schedule resumed
  have proper := ends parsed client session state point resumption accepts enters
  rw [code] at proper
  rcases settle_proper left.session _ codeEnd proper with
    ⟨-, dropped⟩ | ⟨awaited, next, settled, -, -, stays, -, token, -⟩
  · rw [own, dropped] at stored
    cases stored
  · cases (own.trans stays).symm.trans stored
    exact ⟨world.tokensDrawn, le_rfl, token⟩

section Runs

variable (server : DynamicContentServer κ) (files : FileTree)

/-- In the state after the events no stored handler is over, and no stored session still holds the
token of a request that advanced its handler: its token was drawn by that request or later. -/
structure NothingStale (events : List Event) : Prop where
  unfinished : NoneFinished (server.after files events)
  renewed : ∀ before request now schedule between parsed client session result,
    events = before ++ .readRequest request now schedule :: between →
    (server.after files before).Accepts request.filename parsed client session →
    ((server.after files before).fetch server.provider now schedule request).resumed =
      some result →
    TokenSince server.provider.host client (server.after files before).tokensDrawn
      (server.after files events)

/-- A request cleans up after its handler exactly when the handler code it resumes ends properly; in
a run whose requests all do, nothing stale is ever stored.

The handlers are arbitrary. The first part is about single requests in any reachable state, the
second about runs. -/
theorem session_cleanup :
    (∀ events now schedule request,
      CleansUp server.provider (server.after files events) now schedule request ↔
        EndsProperly server.provider (server.after files events) now schedule request) ∧
    ∀ events, Runs.Guarded server.step (Cleanly server.provider) (World.initial files) events →
      NothingStale server files events := by
  refine ⟨fun events now schedule request =>
    cleans_up_iff server.provider _ (after_sound server files events) now schedule request, ?_⟩
  intro events cleanly
  constructor
  case unfinished =>
    have both := Runs.guarded_invariant server.step (Cleanly server.provider)
      (fun world => world.Sound server.provider.host ∧ NoneFinished world)
      (fun world event guard ⟨sound, unfinished⟩ =>
        ⟨step_sound server world event sound,
          step_none_finished server world event sound guard unfinished⟩)
      (World.initial files) ⟨after_sound server files [], fun _ _ stored => by cases stored⟩ events
      cleanly
    exact both.2
  case renewed =>
    rintro before request now schedule between parsed client session result rfl accepts resumed
    have ends : EndsProperly server.provider (server.after files before) now schedule request :=
      (Runs.guarded_iff _ _ _ _).mp cleanly before (.readRequest request now schedule) between rfl
    have sound := after_sound server files before
    have advanced := advanced_token_since _ server.provider now schedule request sound ends accepts
      resumed
    rw [DynamicContentServer.after_step]
    have both := Runs.run_invariant server.step
      (fun world => world.Sound server.provider.host ∧ TokenSince server.provider.host client
        (server.after files before).tokensDrawn world)
      (fun world event ⟨sound, since⟩ =>
        ⟨step_sound server world event sound,
          step_token_since server world event sound client _ since⟩)
      (server.step (server.after files before) (.readRequest request now schedule))
      ⟨step_sound server _ _ sound, by
        rw [DynamicContentServer.step_read_request]
        exact advanced⟩ between
    exact both.2

end Runs

/-- A handler that raises another exception at its first line stays stored, finished, and
its token stays valid. -/
theorem raising_handler_stays_stored :
    let server := sampleServer sampleEntry fun _ => .raise (.byHandler .keyError "size".toList)
    let events := [Event.readRequest (sampleRequest "id=cam") 0 []]
    ¬CleansUp server.provider (server.after Dict.empty events) 0 []
        (sampleRequest "id=cam/token=t/hush_shell=true") ∧
      ¬NothingStale server Dict.empty
        (events ++ [.readRequest (sampleRequest "id=cam/token=t/hush_shell=true") 0 []]) := by
  intro server events
  constructor
  · intro cleans
    have token : ((server.after Dict.empty events).sessions.get sampleClient).map
        (·.currentToken) = some (some "t".toList) := by decide +kernel
    obtain ⟨session, stored, current⟩ := Option.map_eq_some_iff.mp token
    have accepts : (server.after Dict.empty events).Accepts
        (sampleRequest "id=cam/token=t/hush_shell=true").filename sampleContinuation sampleClient
        session :=
      ⟨by decide +kernel, rfl, rfl, stored, current ▸ by decide +kernel⟩
    have dropped := (cleans _ _ _ .started (.raised (.byHandler .keyError "size".toList)) accepts
      rfl trivial).1
    exact absurd (congrArg Option.isSome dropped) (by decide +kernel)
  · intro stale
    have finished : ((server.after Dict.empty (events ++ [.readRequest
        (sampleRequest "id=cam/token=t/hush_shell=true") 0 []])).sessions.get sampleClient).map
        (·.handler) = some (some .finished) := by decide +kernel
    obtain ⟨session, stored, handler⟩ := Option.map_eq_some_iff.mp finished
    exact stale.unfinished sampleClient session stored handler

end UbootTftp
