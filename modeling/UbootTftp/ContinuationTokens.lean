import UbootTftp.DistinctTokens
import UbootTftp.ProperHandlers

/-!
# Continuation tokens

A token is drawn when a script is issued and stops being any session's current
token when it is accepted. Over a whole run each token is therefore accepted at
most once, an accepted request advances the handler once, a refused one changes
nothing, and a handler that has ended is never resumed.
-/

namespace UbootTftp

universe u
variable {κ : Type u}

/-- What an accepted continuation does with a live session: it fails the preflight or runs the
handler, from its suspended state to its next suspension or its end. The session it was has no
further use for the token then. -/
inductive AdvancedOnce (provider : Provider κ) (world : World κ) (request : ContentRequest)
    (parsed : ParsedPath) (client : ClientId) (session : ClientSession κ) (outcome : Outcome κ) :
    Prop
  | preflightFailed (pending : session.preflightPending = true)
      (unreported : (session.continued parsed).env.get hushKey ≠ some "true".toList)
      (silent : outcome.resumed = none) (ended : outcome.world.sessions.get client = none)
  | ended (state : κ) (point : Suspension) (resumption : Resumption) (codeEnd : CodeEnd κ)
      (enters : Enters provider request parsed session state point resumption)
      (resumed : outcome.resumed = some (resumption, codeEnd)) (stopped : codeEnd.Over)
      (dropped : outcome.world.sessions.get client = none)
  | suspended (state : κ) (point : Suspension) (resumption : Resumption) (awaited : Awaited)
      (next : κ) (settled : ClientSession κ)
      (enters : Enters provider request parsed session state point resumption)
      (resumed : outcome.resumed = some (resumption, .awaited awaited next))
      (more : ¬(CodeEnd.awaited awaited next).Over)
      (stored : outcome.world.sessions.get client = some settled)
      (handler : settled.handler = some (.suspended next awaited.point))
      (token : settled.currentToken = some (provider.host.token world.tokensDrawn))

/-- With proper handlers an accepted continuation of a live session advances it once. Handlers that
await anything but the helpers, or raise another exception than the one of a failed upload, are not
covered. -/
theorem accepted_advances (provider : Provider κ) (helpers : provider.HelpersOnly)
    (entries : provider.AsyncEntries) (world : World κ) (sound : world.Sound provider.host)
    (now : Nat) (schedule : Schedule) (request : ContentRequest) (parsed : ParsedPath)
    (client : ClientId) (session : ClientSession κ) (live : Live session)
    (accepts : world.Accepts request.filename parsed client session) :
    AdvancedOnce provider world request parsed client session
      (world.fetch provider now schedule request) := by
  rw [accepts.fetch provider now schedule]
  have handled := world.accepted_cases provider now schedule request parsed client session sound
    accepts.stored
  cases handled with
  | failed pending unreported leaves tokens silent answer =>
    exact .preflightFailed pending unreported silent leaves.own
  | uncreated raised pending reported refused leaves tokens silent answer =>
    exact absurd refused (create_handler_async provider entries _ _ (by simp) raised)
  | exhausted passed broken leaves tokens silent answer =>
    exact absurd broken (live.unbroken passed)
  | ran state point resumption left codeEnd enters code frame keyed ran resumed answers =>
    have proper := helpers state resumption now schedule
      ⟨session.entered parsed state point, world.downloads, world.files⟩
    rw [code] at proper
    have own := (keyed ▸ ran.leaves).own
    rcases settle_proper left.session (provider.host.token world.tokensDrawn) codeEnd proper with
      ⟨stopped, dropped⟩ | ⟨awaited, next, settled, rfl, more, stays, handler, token, -, -⟩
    · exact .ended state point resumption codeEnd enters resumed stopped (own.trans dropped)
    · exact .suspended state point resumption awaited next settled enters resumed more
        (own.trans stays) handler token

section Law

variable (server : DynamicContentServer κ) (files : FileTree)

/-- No two requests of a run are accepted with the same token, not even for different clients and
with any events in between. -/
def TokensAcceptedOnce : Prop :=
  ∀ before request now schedule between (later : ContentRequest) parsed client session again
      otherClient second,
    (server.after files before).Accepts request.filename parsed client session →
    (server.after files (before ++ .readRequest request now schedule :: between)).Accepts
      later.filename again otherClient second →
    again.values.get tokenKey ≠ parsed.values.get tokenKey

/-- Every accepted request advances its session's handler once or fails the preflight, in every
reachable state. -/
def ContinuationsAdvanceOnce : Prop :=
  ∀ events request now schedule parsed client session,
    (server.after files events).Accepts request.filename parsed client session →
    AdvancedOnce server.provider (server.after files events) request parsed client session
      ((server.after files events).fetch server.provider now schedule request)

/-- Every other continuation request misses and leaves the whole state as it was: it merges nothing,
counts nothing and draws nothing. -/
def OtherTokensRefused : Prop :=
  ∀ events request now schedule parsed client,
    parseRequestPath request.filename = .ok parsed → parsed.clientId = some client →
    isContinuation parsed = true →
    (∀ session, (server.after files events).sessions.get client = some session →
      parsed.values.get tokenKey ≠ session.currentToken) →
    let outcome := (server.after files events).fetch server.provider now schedule request
    outcome.world = server.after files events ∧ outcome.resumed = none ∧
      ∃ raised, outcome.result = .error raised ∧ raised.cls = .fileNotFoundError

/-- Whether a request makes the client's handler run, and how. -/
def Resumes (events : List Event) (request : ContentRequest) (now : Nat) (schedule : Schedule)
    (client : ClientId) (resumption : Resumption) (codeEnd : CodeEnd κ) : Prop :=
  (∃ parsed session, (server.after files events).Accepts request.filename parsed client session) ∧
    ((server.after files events).fetch server.provider now schedule request).resumed =
      some (resumption, codeEnd)

/-- After a client's handler has ended, the first request that makes a handler of this client run
begins a new one at its first line. Between the two the client's session has been started again. -/
def EndedHandlersStayEnded : Prop :=
  ∀ before request now schedule between later laterNow laterSchedule client resumption codeEnd
      again laterEnd,
    Resumes server files before request now schedule client resumption codeEnd →
    codeEnd.Over →
    Resumes server files (before ++ .readRequest request now schedule :: between) later laterNow
      laterSchedule client again laterEnd →
    again = .started ∨ ∃ past restart restartNow restartSchedule future restartEnd,
      between = past ++ .readRequest restart restartNow restartSchedule :: future ∧
      Resumes server files (before ++ .readRequest request now schedule :: past) restart restartNow
        restartSchedule client .started restartEnd

/-- An accepted token is spent. Behind the step no session has that token any more, neither its own,
which has a new one or is gone, nor that of another client, since tokens are distinct. -/
theorem accepted_spends (helpers : server.provider.HelpersOnly)
    (entries : server.provider.AsyncEntries)
    (distinct : Function.Injective server.provider.host.token) (before : List Event)
    (request : ContentRequest) (now : Nat) (schedule : Schedule) (parsed : ParsedPath)
    (client : ClientId) (session : ClientSession κ) (token : Text)
    (accepts : (server.after files before).Accepts request.filename parsed client session)
    (current : session.currentToken = some token) :
    Spent server.provider.host token
      (server.step (server.after files before) (.readRequest request now schedule)) := by
  have sound := after_sound server files before
  have apart := after_apart server distinct files before
  have live := after_live server helpers entries files before client session accepts.stored
  generalize server.after files before = world at accepts sound apart
  obtain ⟨draw, drawn, issued⟩ := (sound.sessions client session accepts.stored).issued
  have same : server.provider.host.token draw = token := Option.some.inj (issued.symm.trans current)
  obtain ⟨actor, moves⟩ := fetch_moves world server.provider now schedule request sound
  have advanced := accepted_advances server.provider helpers entries world sound now schedule request
    parsed client session live accepts
  rw [DynamicContentServer.step_read_request]
  refine ⟨⟨draw, by have := moves.draws; omega, same⟩, ?_⟩
  intro other second stored held
  by_cases own : other = client
  · subst own
    cases advanced with
    | preflightFailed pending unreported silent ended =>
      rw [ended] at stored
      cases stored
    | ended state point resumption codeEnd enters resumed stopped dropped =>
      rw [dropped] at stored
      cases stored
    | suspended state point resumption awaited next settled enters resumed more kept handler fresh =>
      cases kept.symm.trans stored
      rw [held, ← same] at fresh
      exact drawn_fresh server distinct draw drawn (Option.some.inj fresh)
  · have move := moves.any other
    rw [stored] at move
    rcases move.token with ⟨earlier, present, kept⟩ | fresh
    · have both : session.currentToken = earlier.currentToken :=
        current.trans (held.symm.trans kept.symm)
      exact own (apart client other session earlier accepts.stored present both).symm
    · rw [held, ← same] at fresh
      exact drawn_fresh server distinct draw drawn (Option.some.inj fresh)

/-- Each token is accepted at most once.

Proof: an accepted token is spent by its request, a spent token stays spent over the run, and a
request is only accepted with a token that some session holds. -/
theorem tokens_accepted_once (helpers : server.provider.HelpersOnly)
    (entries : server.provider.AsyncEntries)
    (distinct : Function.Injective server.provider.host.token) :
    TokensAcceptedOnce server files := by
  intro before request now schedule between later parsed client session again otherClient second
    accepts acceptedAgain sameToken
  have sound := after_sound server files before
  obtain ⟨draw, drawn, issued⟩ := (sound.sessions client session accepts.stored).issued
  have spent := accepted_spends server files helpers entries distinct before request now schedule
    parsed client session _ accepts issued
  have stays := run_spent server distinct _ between
    (step_sound server _ (.readRequest request now schedule) sound) _ spent
  rw [← DynamicContentServer.after_step] at stays
  apply stays.free otherClient second acceptedAgain.stored
  rw [← acceptedAgain.current, sameToken, accepts.current, issued]

/-- A continuation whose token is not current changes nothing. -/
theorem other_tokens_refused : OtherTokensRefused server files := by
  intro events request now schedule parsed client parse names continues stale
  simp only [World.fetch, parse, names, continues, if_true, World.resumeSession,
    InMemorySessionStore.require]
  cases stored : (server.after files events).sessions.get client with
  | none => exact ⟨rfl, rfl, _, rfl, rfl⟩
  | some session =>
    simp only [ne_eq, stale session stored, not_false_eq_true, if_true]
    exact ⟨trivial, trivial, _, rfl, rfl⟩

/-- Whether every stored session of the client waits for its preflight. -/
def Unbegun (client : ClientId) (world : World κ) : Prop :=
  ∀ session, world.sessions.get client = some session → session.preflightPending = true

/-- A step keeps a client's handler unbegun unless it begins it. A start brings the client back into
this state. -/
theorem step_unbegun (entries : server.provider.AsyncEntries) (world : World κ) (event : Event)
    (client : ClientId) (sound : world.Sound server.provider.host)
    (unbegun : Unbegun client world) :
    Unbegun client (server.step world event) ∨ ∃ request now schedule parsed session codeEnd,
      event = .readRequest request now schedule ∧
      world.Accepts request.filename parsed client session ∧
      (world.fetch server.provider now schedule request).resumed = some (.started, codeEnd) := by
  by_cases read : ∃ request now schedule, event = .readRequest request now schedule
  · obtain ⟨request, now, schedule, rfl⟩ := read
    rw [DynamicContentServer.step_read_request]
    by_cases accepted : ∃ parsed session, world.Accepts request.filename parsed client session
    · obtain ⟨parsed, session, accepts⟩ := accepted
      have pending := unbegun session accepts.stored
      have handled := world.accepted_cases server.provider now schedule request parsed client
        session sound accepts.stored
      rw [← accepts.fetch server.provider now schedule] at handled
      cases handled with
      | failed _ unreported leaves tokens silent answer =>
        refine .inl fun later stored => ?_
        rw [leaves.own] at stored
        cases stored
      | uncreated raised _ reported refused leaves tokens silent answer =>
        exact absurd refused (create_handler_async server.provider entries _ _ (by simp) raised)
      | exhausted passed broken leaves tokens silent answer =>
        rw [pending] at passed
        cases passed
      | ran state point resumption left codeEnd enters code frame keyed ran resumed answers =>
        obtain ⟨-, rfl, -⟩ := enters.preflight pending
        exact .inr ⟨request, now, schedule, parsed, session, codeEnd, rfl, accepts, resumed⟩
    · refine .inl fun session stored => ?_
      rcases fetch_unaccepted world server.provider now schedule request sound client
        (fun parsed session accepts => accepted ⟨parsed, session, accepts⟩) with
        ⟨same, -⟩ | ⟨_, -, opened⟩
      · exact unbegun session (same ▸ stored)
      · cases opened.symm.trans stored
        rfl
  · refine .inl fun session stored => ?_
    rcases unread_step server world event (fun request now schedule same =>
      read ⟨request, now, schedule, same⟩) client with same | ⟨earlier, pending, body, present, -, kept⟩
    · exact unbegun session (same ▸ stored)
    · cases kept.symm.trans stored
      exact unbegun earlier present

/-- A handler that has ended is not resumed. Its session is gone with the last reply, and a session
that a later start opens has a handler that has not begun. -/
theorem ended_handlers_stay_ended (helpers : server.provider.HelpersOnly)
    (entries : server.provider.AsyncEntries) : EndedHandlersStayEnded server files := by
  rintro before request now schedule between later laterNow laterSchedule client resumption codeEnd
    again laterEnd ⟨⟨parsed, session, accepts⟩, resumed⟩ stopped ⟨⟨laterParsed, second, accepted⟩, ran⟩
  have sound := after_sound server files before
  have live := after_live server helpers entries files before client session accepts.stored
  have dropped : Unbegun client
      (server.step (server.after files before) (.readRequest request now schedule)) := by
    rw [DynamicContentServer.step_read_request]
    have advanced := accepted_advances server.provider helpers entries (server.after files before)
      sound now schedule request parsed client session live accepts
    intro remaining stored
    cases advanced with
    | preflightFailed pending unreported silent ended =>
      rw [silent] at resumed
      cases resumed
    | ended state point first firstEnd enters result stopped dropped =>
      rw [dropped] at stored
      cases stored
    | suspended state point first awaited next settled enters result more kept handler token =>
      cases result.symm.trans resumed
      exact absurd stopped more
  -- Until a request begins a handler again, a stored session of the client is at its preflight.
  rcases Runs.run_unless server.step
    (fun world => world.Sound server.provider.host ∧ Unbegun client world)
    (fun world event => ∃ request now schedule parsed session codeEnd,
      event = .readRequest request now schedule ∧
      world.Accepts request.filename parsed client session ∧
      (world.fetch server.provider now schedule request).resumed = some (.started, codeEnd))
    (fun world event ⟨sound, unbegun⟩ =>
      (step_unbegun server entries world event client sound unbegun).imp_left
        fun kept => ⟨step_sound server world event sound, kept⟩)
    _ ⟨step_sound server _ (.readRequest request now schedule) sound, dropped⟩ between with
    ⟨laterSound, unbegun⟩ | ⟨past, event, future, split, restart, restartNow, restartSchedule,
      restartParsed, restartSession, restartEnd, rfl, restarted, started⟩
  · refine .inl ?_
    rw [← DynamicContentServer.after_step] at laterSound unbegun
    have pending := unbegun second accepted.stored
    obtain ⟨state, point, left, enters, -⟩ :=
      accepted.ran server.provider laterSound laterNow laterSchedule ran
    exact (enters.preflight pending).2.1
  · refine .inr ⟨past, restart, restartNow, restartSchedule, future, restartEnd, split, ?_, ?_⟩
    · rw [DynamicContentServer.after_step]
      exact ⟨restartParsed, restartSession, restarted⟩
    · rw [DynamicContentServer.after_step]
      exact started

/-- The law of continuation tokens: accepted once, advancing once, refused without a trace
otherwise, and never resuming an ended handler.

It is assumed that no two draws give one token, that handlers only await the helpers, and that entry
functions are async; the first is what the host promises, the others are what the server asks of
handlers. -/
theorem continuation_token_law (helpers : server.provider.HelpersOnly)
    (entries : server.provider.AsyncEntries)
    (distinct : Function.Injective server.provider.host.token) :
    TokensAcceptedOnce server files ∧ ContinuationsAdvanceOnce server files ∧
      OtherTokensRefused server files ∧ EndedHandlersStayEnded server files := by
  refine ⟨tokens_accepted_once server files helpers entries distinct, ?_,
    other_tokens_refused server files, ended_handlers_stay_ended server files helpers entries⟩
  intro events request now schedule parsed client session accepts
  exact accepted_advances server.provider helpers entries _ (after_sound server files events) now
    schedule request parsed client session
    (after_live server helpers entries files events client session accepts.stored) accepts

end Law

/-- The handler that runs one script and returns keeps to the helpers. -/
theorem continuation_token_law_sample :
    let server := sampleServer sampleEntry sampleCode
    TokensAcceptedOnce server Dict.empty ∧ ContinuationsAdvanceOnce server Dict.empty ∧
      OtherTokensRefused server Dict.empty ∧ EndedHandlersStayEnded server Dict.empty :=
  continuation_token_law (sampleServer sampleEntry sampleCode) Dict.empty
    (fun _ resumption _ _ _ => by cases resumption <;> trivial) (fun _ => ⟨_, rfl⟩)
    sample_tokens_distinct

end UbootTftp
