import UbootTftp.Continuations

/-!
# The cases of a read request

A read request misses the sessions, starts one or continues one. A continued
session runs handler code unless its preflight fails or it has no handler to
run. The cases of an upload's close are here too, since it is the only other step
that changes a session.
-/

namespace UbootTftp

universe u
variable {κ : Type u}

/-- The filename of a request that starts a session. -/
structure Starts (filename : Text) (parsed : ParsedPath) (client : ClientId) : Prop where
  parse : parseRequestPath filename = .ok parsed
  names : parsed.clientId = some client
  fresh : isContinuation parsed = false

/-- A continuation request whose token is the current one of its client's session. The comparison is
of options: a session without a token accepts nothing, since a continuation has one. -/
structure World.Accepts (world : World κ) (filename : Text) (parsed : ParsedPath)
    (client : ClientId) (session : ClientSession κ) : Prop where
  parse : parseRequestPath filename = .ok parsed
  names : parsed.clientId = some client
  continues : isContinuation parsed = true
  stored : world.sessions.get client = some session
  current : parsed.values.get tokenKey = session.currentToken

/-- The session that a start request stores. Its handler is made later, so it waits for the
preflight only. -/
def openedSession (provider : Provider κ) (request : ContentRequest) (parsed : ParsedPath)
    (client : ClientId) (token : Text) : ClientSession κ :=
  let env := sessionEnv provider.config.env (routeFor provider.config client).env parsed
  { (ClientSession.create client : ClientSession κ).recordRrq parsed with
    serverIp := provider.host.localIp request.peer.1
    env := env
    publicEnv := publicEnv env
    preflightPending := true
    currentToken := some token
    phase := .awaitRrq }

/-- A start stores a new session, draws its token and releases the artifacts of the
session it replaces. -/
structure World.Opened (world : World κ) (client : ClientId) (session : ClientSession κ)
    (after : World κ) : Prop where
  leaves : world.Leaves after client (some session)
  tokens : after.tokensDrawn = world.tokensDrawn + 1
  attached : ∀ key owner, after.downloads.Attached key owner ↔
    world.downloads.Attached key owner ∧ ∀ existing, world.sessions.get client = some existing →
      ¬(owner = existing.clientId.text ∧ existing.downloadArtifacts.Has key)

/-- What a start request does: every other session stays, the new one is stored under its client and
what the old one had acquired is released. -/
theorem World.start_opened (world : World κ) (provider : Provider κ) (now : Nat)
    (request : ContentRequest) (parsed : ParsedPath) (client : ClientId)
    (keyed : ∀ existing, world.sessions.get client = some existing →
      existing.clientId = client) :
    world.Opened client
      (openedSession provider request parsed client (provider.host.token world.tokensDrawn))
      (world.startSession provider now request parsed client).1 := by
  simp only [startSession, preflightResult, answer_world]
  cases stored : world.sessions.get client with
  | none =>
    refine ⟨put_leaves _ _ ?_ _ _ ?_, rfl, fun key owner => ?_⟩
    · exact ⟨rfl, rfl, rfl⟩
    · rfl
    · simp [putSession, stored]
  | some existing =>
    have same := keyed existing stored
    refine ⟨?_, rfl, fun key owner => ?_⟩
    · constructor
      case own => exact Dict.get_set_self _ _ _
      case others =>
        intro other different
        refine (Dict.get_set_other _ _ _ _ different).trans ?_
        exact (discard_leaves world world ⟨rfl, rfl, rfl⟩ now existing client same).others other
          different
      case uploads => rfl
      case handles => rfl
    · refine (discard_attached world now existing key owner).trans ?_
      simp [stored]

/-- Why a read request touches no session: its client id is malformed, it names none, or it
continues a session that does not wait for its token. The result is part of the case. -/
inductive World.Misses (world : World κ) (host : Host) (filename : Text) :
    Except Raised ContentResult → Prop
  | malformed (raised : Raised) (parse : parseRequestPath filename = .error raised) :
      Misses world host filename (.error raised)
  | static (parsed : ParsedPath) (parse : parseRequestPath filename = .ok parsed)
      (unnamed : parsed.clientId = none) :
      Misses world host filename (world.staticResult host parsed.path)
  | unknown (parsed : ParsedPath) (client : ClientId)
      (parse : parseRequestPath filename = .ok parsed) (names : parsed.clientId = some client) :
      Misses world host filename (.error (.noSession client.text))
  | stale (parsed : ParsedPath) (client : ClientId)
      (parse : parseRequestPath filename = .ok parsed) (names : parsed.clientId = some client) :
      Misses world host filename (.error (.invalidSessionToken client.text))

/-- Only a malformed client id makes a filename unreadable. Anything else in a filename is read
somehow, as a path that need not lead anywhere. -/
theorem parse_error (filename : Text) (raised : Raised)
    (refused : parseRequestPath filename = .error raised) :
    ∃ value, raised = .invalidClientId value := by
  simp only [parseRequestPath] at refused
  split at refused
  · cases refused
  · split at refused
    · split at refused
      · rename_i other unnormalized
        cases refused
        simp only [normalizeClientId] at unnormalized
        split at unnormalized
        · cases unnormalized
        · cases unnormalized
          exact ⟨_, rfl⟩
      · cases refused
    · cases refused

/-- A path with a NUL cannot be resolved. -/
theorem resolve_static_null (host : Host) (path : Text) (null : '\x00' ∈ path) :
    resolveStaticPath host path = .error .embeddedNull := by
  have stripped : '\x00' ∈ path.dropWhile (· == '/') := by
    have cut : path.takeWhile (· == '/') ++ path.dropWhile (· == '/') = path :=
      List.takeWhile_append_dropWhile
    rw [← cut] at null
    rcases List.mem_append.mp null with slash | rest
    · have slashes := List.mem_takeWhile_imp slash
      simp at slashes
    · exact rest
  simp only [resolveStaticPath, Host.resolveBelow, stripped, if_true]

/-- A path without a NUL can be resolved. -/
theorem resolve_static_ok (host : Host) (path : Text) (clean : '\x00' ∉ path) :
    ∃ target, resolveStaticPath host path = .ok target := by
  have stripped : '\x00' ∉ path.dropWhile (· == '/') := fun member =>
    clean ((List.dropWhile_suffix _).subset member)
  simp only [resolveStaticPath, Host.resolveBelow, stripped, if_false]
  split
  · exact ⟨_, rfl⟩
  · split
    · exact ⟨_, rfl⟩
    · exact ⟨_, rfl⟩

/-- A static request fails only on an embedded NUL, on a name that is too long or on a missing file.
The last of them is the only one that the callback turns into a miss. -/
theorem static_error (world : World κ) (host : Host) (path : Text) (raised : Raised)
    (refused : world.staticResult host path = .error raised) :
    raised = .embeddedNull ∧ '\x00' ∈ path ∨ raised = .missingStaticFile path ∨
      ∃ target, resolveStaticPath host path = .ok (some target) ∧
        world.files.statFails (host.resolve host.staticRoot) target = true ∧
        raised = .fileNameTooLong target := by
  by_cases null : '\x00' ∈ path
  · simp only [World.staticResult, resolve_static_null host path null] at refused
    cases refused
    exact .inl ⟨rfl, null⟩
  · obtain ⟨target, resolved⟩ := resolve_static_ok host path null
    simp only [World.staticResult, resolved] at refused
    cases target with
    | none =>
      cases refused
      exact .inr (.inl rfl)
    | some target =>
      simp only [FileTree.fileContents] at refused
      by_cases fails : world.files.statFails (host.resolve host.staticRoot) target = true
      · rw [if_pos fails] at refused
        cases refused
        exact .inr (.inr ⟨target, resolved, fails, rfl⟩)
      · rw [if_neg fails] at refused
        split at refused
        · rename_i failed
          cases failed
        · cases refused
        · cases refused
          exact .inr (.inl rfl)

/-- The three kinds of read requests, with what each of them leaves and answers. Every statement
about a read request is proved by these cases, and none opens the definition of `fetch` again. -/
inductive World.Fetched (world : World κ) (provider : Provider κ) (now : Nat) (schedule : Schedule)
    (request : ContentRequest) : Outcome κ → Prop
  | missed (result : Except Raised ContentResult)
      (cause : world.Misses provider.host request.filename result)
      (unstarted : ∀ parsed client, ¬Starts request.filename parsed client)
      (refused : ∀ parsed client session, ¬world.Accepts request.filename parsed client session) :
      Fetched world provider now schedule request ⟨world, none, result⟩
  | started (parsed : ParsedPath) (client : ClientId)
      (starts : Starts request.filename parsed client) :
      Fetched world provider now schedule request
        ⟨(world.startSession provider now request parsed client).1, none,
          (world.startSession provider now request parsed client).2⟩
  | accepted (parsed : ParsedPath) (client : ClientId) (session : ClientSession κ)
      (accepts : world.Accepts request.filename parsed client session) :
      Fetched world provider now schedule request
        (world.continueSession provider now schedule request parsed session)

/-- A read request is of one of the three kinds. The three are a miss or an error without a session,
a start, and a continuation that is accepted. -/
theorem World.fetch_cases (world : World κ) (provider : Provider κ) (now : Nat)
    (schedule : Schedule) (request : ContentRequest) :
    world.Fetched provider now schedule request (world.fetch provider now schedule request) := by
  unfold fetch
  cases parse : parseRequestPath request.filename with
  | error raised =>
    refine .missed _ (.malformed raised parse) ?_ ?_
    · rintro parsed client ⟨parsed, -, -⟩
      rw [parse] at parsed
      cases parsed
    · rintro parsed client session ⟨parsed, -, -, -, -⟩
      rw [parse] at parsed
      cases parsed
  | ok parsed =>
    cases names : parsed.clientId with
    | none =>
      simp only [names]
      refine .missed _ (.static parsed parse names) ?_ ?_
      · rintro other client ⟨same, named, -⟩
        cases parse.symm.trans same
        rw [names] at named
        cases named
      · rintro other client session ⟨same, named, -, -, -⟩
        cases parse.symm.trans same
        rw [names] at named
        cases named
    | some client =>
      simp only [names]
      cases continues : isContinuation parsed with
      | false =>
        simp only [Bool.false_eq_true, if_false]
        exact .started parsed client ⟨parse, names, continues⟩
      | true =>
        have unstarted : ∀ other named, ¬Starts request.filename other named := by
          rintro other named ⟨same, -, fresh⟩
          cases parse.symm.trans same
          rw [continues] at fresh
          cases fresh
        simp only [if_true, resumeSession, InMemorySessionStore.require]
        cases stored : world.sessions.get client with
        | none =>
          refine .missed _ (.unknown parsed client parse names) unstarted ?_
          rintro other named session ⟨same, sameName, -, present, -⟩
          cases parse.symm.trans same
          cases names.symm.trans sameName
          rw [stored] at present
          cases present
        | some session =>
          by_cases current : parsed.values.get tokenKey = session.currentToken
          · simp only [current, ne_eq, not_true_eq_false, if_false]
            exact .accepted parsed client session ⟨parse, names, continues, stored, current⟩
          · simp only [ne_eq, current, not_false_eq_true, if_true]
            refine .missed _ (.stale parsed client parse names) unstarted ?_
            rintro other named found ⟨same, sameName, -, present, matched⟩
            cases parse.symm.trans same
            cases names.symm.trans sameName
            cases stored.symm.trans present
            exact current matched

/-- The handler state that a continuation resumes, and what the handler gets there. A handler is
begun by the continuation that passes the preflight, and resumed where it is suspended by any later
one. -/
inductive Enters (provider : Provider κ) (request : ContentRequest) (parsed : ParsedPath)
    (session : ClientSession κ) : κ → Suspension → Resumption → Prop
  | begun (state : κ) (pending : session.preflightPending = true)
      (reported : (session.continued parsed).env.get hushKey = some "true".toList)
      (made : createHandler provider
        { session.continued parsed with preflightPending := false } request =
          .ok (.suspended state .created)) :
      Enters provider request parsed session state .created .started
  | resumed (state : κ) (point : Suspension) (passed : session.preflightPending = false)
      (handled : session.handler = some (.suspended state point)) :
      Enters provider request parsed session state point
        (point.resumption (session.pendingReceive.bind (receivedValue · parsed)))

/-- A session at its preflight enters its handler at the first line. The request has then reported
that the shell is there, in the session with its values merged. -/
theorem Enters.preflight {provider : Provider κ} {request : ContentRequest} {parsed : ParsedPath}
    {session : ClientSession κ} {state : κ} {point : Suspension} {resumption : Resumption}
    (enters : Enters provider request parsed session state point resumption)
    (pending : session.preflightPending = true) :
    point = .created ∧ resumption = .started ∧
      (session.continued parsed).env.get hushKey = some "true".toList ∧
      createHandler provider { session.continued parsed with preflightPending := false } request =
        .ok (.suspended state .created) := by
  cases enters with
  | begun _ reported made => exact ⟨rfl, rfl, reported, made⟩
  | resumed _ passed handled =>
    rw [pending] at passed
    cases passed

/-- A session past its preflight enters its handler where the handler is suspended. It is resumed
with what the pending upload has brought, or with nothing where none was pending. -/
theorem Enters.later {provider : Provider κ} {request : ContentRequest} {parsed : ParsedPath}
    {session : ClientSession κ} {state : κ} {point : Suspension} {resumption : Resumption}
    (enters : Enters provider request parsed session state point resumption)
    (passed : session.preflightPending = false) :
    session.handler = some (.suspended state point) ∧
      resumption = point.resumption (session.pendingReceive.bind (receivedValue · parsed)) := by
  cases enters with
  | begun pending reported made =>
    rw [passed] at pending
    cases pending
  | resumed _ _ handled => exact ⟨handled, rfl⟩

/-- A continuation resumes one handler state only. What is passed to the handler is determined as
well, by the place at which it was suspended and by what the session has received. -/
theorem Enters.unique {provider : Provider κ} {request : ContentRequest} {parsed : ParsedPath}
    {session : ClientSession κ} {state other : κ} {point second : Suspension}
    {resumption again : Resumption}
    (enters : Enters provider request parsed session state point resumption)
    (entersAgain : Enters provider request parsed session other second again) :
    state = other ∧ point = second ∧ resumption = again := by
  cases pending : session.preflightPending with
  | true =>
    obtain ⟨rfl, rfl, -, made⟩ := enters.preflight pending
    obtain ⟨rfl, rfl, -, madeAgain⟩ := entersAgain.preflight pending
    cases made.symm.trans madeAgain
    exact ⟨rfl, rfl, rfl⟩
  | false =>
    obtain ⟨handled, rfl⟩ := enters.later pending
    obtain ⟨handledAgain, rfl⟩ := entersAgain.later pending
    cases handled.symm.trans handledAgain
    exact ⟨rfl, rfl, rfl⟩

/-- The session as handler code sees it. The preflight is over and the upload that it has waited for
has been taken out. -/
def ClientSession.entered (session : ClientSession κ) (parsed : ParsedPath) (state : κ)
    (point : Suspension) : ClientSession κ :=
  { session.continued parsed with
    preflightPending := false
    pendingReceive := none
    handler := some (.suspended state point) }

/-- What a continuation does to an accepted session. The handler runs unless the
preflight fails, no handler can be made or the handler is over. -/
inductive World.Continued (world : World κ) (provider : Provider κ) (now : Nat)
    (schedule : Schedule) (request : ContentRequest) (parsed : ParsedPath)
    (session : ClientSession κ) : Outcome κ → Prop
  | unsupported (pending : session.preflightPending = true)
      (unreported : (session.continued parsed).env.get hushKey ≠ some "true".toList) :
      Continued world provider now schedule request parsed session
        ⟨world.discardSession now
          { session.continued parsed with preflightPending := false, phase := .complete }, none,
          .ok (ContentResult.fromBytes
            (provider.host.compile (ensureNewline hushFailureScript)))⟩
  | uncreated (raised : Raised) (pending : session.preflightPending = true)
      (reported : (session.continued parsed).env.get hushKey = some "true".toList)
      (refused : createHandler provider
        { session.continued parsed with preflightPending := false } request = .error raised) :
      Continued world provider now schedule request parsed session
        ⟨world.putSession { session.continued parsed with preflightPending := false }, none,
          .error raised⟩
  | unhandled (passed : session.preflightPending = false) (missing : session.handler = none) :
      Continued world provider now schedule request parsed session
        ⟨world.putSession (session.continued parsed), none,
          .error (.noActiveHandler session.clientId.text)⟩
  | exhausted (passed : session.preflightPending = false)
      (stopped : session.handler = some .finished) :
      Continued world provider now schedule request parsed session
        ⟨world.putSession (session.continued parsed), none, .error .coroutineReused⟩
  | ran (state : κ) (point : Suspension) (resumption : Resumption)
      (enters : Enters provider request parsed session state point resumption) :
      Continued world provider now schedule request parsed session
        (world.runHandler provider now schedule (session.entered parsed state point) state
          resumption)

/-- A handler that can be made is suspended before its first line. -/
theorem create_handler_ok (provider : Provider κ) (session : ClientSession κ)
    (request : ContentRequest) (handler : Coroutine κ)
    (made : createHandler provider session request = .ok handler) :
    ∃ state, handler = .suspended state .created := by
  simp only [createHandler] at made
  repeat' split at made
  all_goals cases made
  exact ⟨_, rfl⟩

/-- A session without a pending receive is written back unchanged by clearing it. -/
theorem ClientSession.cleared (session : ClientSession κ) (idle : session.pendingReceive = none) :
    { session with pendingReceive := none } = session := by
  cases session
  cases idle
  rfl

/-- A session with a suspended handler and past its preflight is entered by clearing
its pending receive. -/
theorem ClientSession.entered_eq (session : ClientSession κ) (state : κ) (point : Suspension)
    (passed : session.preflightPending = false)
    (handled : session.handler = some (.suspended state point)) :
    { session with pendingReceive := none } =
      { session with
        preflightPending := false
        pendingReceive := none
        handler := some (.suspended state point) } := by
  cases session
  cases passed
  cases handled
  rfl

/-- A continuation belongs to the client of its session. -/
@[simp] theorem ClientSession.continued_client_id (session : ClientSession κ)
    (parsed : ParsedPath) : (session.continued parsed).clientId = session.clientId :=
  merge_client_id _ _

/-- The handler stays suspended where it was until the request resumes it. -/
@[simp] theorem ClientSession.continued_handler (session : ClientSession κ)
    (parsed : ParsedPath) : (session.continued parsed).handler = session.handler :=
  merge_handler _ _

/-- Merging takes no upload out of the session. -/
@[simp] theorem ClientSession.continued_pending_receive (session : ClientSession κ)
    (parsed : ParsedPath) : (session.continued parsed).pendingReceive = session.pendingReceive :=
  merge_pending_receive _ _

/-- The token that the request has shown is still the current one. -/
@[simp] theorem ClientSession.continued_current_token (session : ClientSession κ)
    (parsed : ParsedPath) : (session.continued parsed).currentToken = session.currentToken :=
  merge_current_token _ _

/-- Whether the session waits for its preflight is decided behind the merge. -/
@[simp] theorem ClientSession.continued_preflight_pending (session : ClientSession κ)
    (parsed : ParsedPath) :
    (session.continued parsed).preflightPending = session.preflightPending :=
  merge_preflight_pending _ _

/-- The phase is that of before. -/
@[simp] theorem ClientSession.continued_phase (session : ClientSession κ)
    (parsed : ParsedPath) : (session.continued parsed).phase = session.phase :=
  merge_phase _ _

/-- The request is the last one that the session remembers. -/
@[simp] theorem ClientSession.continued_requests (session : ClientSession κ)
    (parsed : ParsedPath) :
    (session.continued parsed).requests = session.requests ++ [parsed] :=
  merge_requests _ _

/-- The request is counted. -/
@[simp] theorem ClientSession.continued_rrq_count (session : ClientSession κ)
    (parsed : ParsedPath) : (session.continued parsed).rrqCount = session.rrqCount + 1 :=
  merge_rrq_count _ _

/-- No artifact is acquired or released by a merge. -/
@[simp] theorem ClientSession.continued_download_artifacts (session : ClientSession κ)
    (parsed : ParsedPath) :
    (session.continued parsed).downloadArtifacts = session.downloadArtifacts :=
  merge_download_artifacts _ _

/-- Resuming a handler that is suspended after its first line: its pending receive is cleared and
the upload, if there is one, goes to it. Before its first line there is no receive to clear. -/
theorem World.resume_suspended (world : World κ) (provider : Provider κ) (now : Nat)
    (schedule : Schedule) (session : ClientSession κ) (parsed : ParsedPath) (state : κ)
    (point : Suspension) (handled : session.handler = some (.suspended state point))
    (begun : point = .created → session.pendingReceive = none) :
    world.resumeHandler provider now schedule session parsed =
      world.runHandler provider now schedule { session with pendingReceive := none } state
        (point.resumption (session.pendingReceive.bind (receivedValue · parsed))) := by
  simp only [resumeHandler, handled]
  cases expecting : session.pendingReceive with
  | none =>
    rw [← session.cleared expecting]
    simp [advanceSession, handled]
  | some pending =>
    have later : point ≠ .created := by
      intro created
      rw [begun created] at expecting
      cases expecting
    simp [advanceSession, later]

/-- A continuation merges the reported values into the session; then it decides on the
preflight or resumes the handler. -/
theorem World.continue_session_eq (world : World κ) (provider : Provider κ) (now : Nat)
    (schedule : Schedule) (request : ContentRequest) (parsed : ParsedPath)
    (session : ClientSession κ) :
    world.continueSession provider now schedule request parsed session =
      if (session.continued parsed).preflightPending then
        let session := { session.continued parsed with preflightPending := false }
        if session.env.get hushKey ≠ some "true".toList then
          ⟨world.discardSession now { session with phase := .complete }, none,
            .ok (ContentResult.fromBytes
              (provider.host.compile (ensureNewline hushFailureScript)))⟩
        else
          match createHandler provider session request with
          | .error raised => ⟨world.putSession session, none, .error raised⟩
          | .ok handler =>
            world.resumeHandler provider now schedule { session with handler := some handler }
              parsed
      else world.resumeHandler provider now schedule (session.continued parsed) parsed := rfl

/-- A continuation of a session in one of the stages does one of these. The stages are an invariant
of every run, so that in a reachable state there is no further case. -/
theorem World.continue_cases (world : World κ) (provider : Provider κ) (now : Nat)
    (schedule : Schedule) (request : ContentRequest) (parsed : ParsedPath)
    (session : ClientSession κ) (staged : Stage session) :
    world.Continued provider now schedule request parsed session
      (world.continueSession provider now schedule request parsed session) := by
  rw [continue_session_eq, session.continued_preflight_pending]
  have settled (state : κ) (point : Suspension) (passed : session.preflightPending = false)
      (handled : session.handler = some (.suspended state point)) (later : point ≠ .created) :
      world.Continued provider now schedule request parsed session
        (world.resumeHandler provider now schedule (session.continued parsed) parsed) := by
    rw [resume_suspended world provider now schedule (session.continued parsed) parsed state point
      (by simp [handled]) (fun created => absurd created later), session.continued_pending_receive,
      ClientSession.entered_eq (session.continued parsed) state point (by simp [passed])
        (by simp [handled])]
    exact .ran state point _ (.resumed state point passed handled)
  cases staged with
  | preflight pending unhandled idle phase =>
    simp only [pending, if_true]
    by_cases reported : (session.continued parsed).env.get hushKey = some "true".toList
    · simp only [reported, ne_eq, not_true_eq_false, if_false]
      cases made : createHandler provider
          { session.continued parsed with preflightPending := false } request with
      | error raised => exact .uncreated raised pending reported made
      | ok handler =>
        obtain ⟨state, rfl⟩ := create_handler_ok _ _ _ _ made
        simp only
        rw [resume_suspended world provider now schedule _ parsed state .created rfl
          (fun _ => by simp [idle])]
        exact .ran state .created .started (.begun state pending reported made)
    · simp only [ne_eq, reported, not_false_eq_true, if_true]
      exact .unsupported pending reported
  | waiting state passed handled idle phase =>
    simp only [passed, Bool.false_eq_true, if_false]
    exact settled state .inExec passed handled (by decide)
  | receiving state pending passed handled expecting sameToken phase =>
    simp only [passed, Bool.false_eq_true, if_false]
    exact settled state .inExecRecv passed handled (by decide)
  | stuck passed broken idle =>
    simp only [passed, Bool.false_eq_true, if_false]
    rcases broken with missing | stopped | ⟨state, handled⟩
    · simp only [resumeHandler, session.continued_handler, missing, session.continued_client_id]
      exact .unhandled passed missing
    · simp only [resumeHandler, session.continued_handler, stopped,
        session.continued_pending_receive, idle, advanceSession]
      exact .exhausted passed stopped
    · exact settled state .inForeign passed handled (by decide)

/-- The check of an upload passes exactly when its client's session waits for it. All three parts of
what it returns are determined by the filename. -/
theorem InMemoryUploadStore.expected_ok (sessions : InMemorySessionStore κ) (filename : Text)
    (client : ClientId) (session : ClientSession κ) (pending : PendingReceive) :
    expected sessions filename = .ok (client, session, pending) ↔
      ∃ parsed, parseRequestPath filename = .ok parsed ∧ parsed.clientId = some client ∧
        sessions.get client = some session ∧ session.pendingReceive = some pending ∧
        pending.expects parsed = true := by
  simp only [expected, InMemorySessionStore.require]
  cases parse : parseRequestPath filename with
  | error raised => simp
  | ok parsed =>
    cases names : parsed.clientId with
    | none => simp [names]
    | some named =>
      cases stored : sessions.get named with
      | none =>
        simp only [names, stored, reduceCtorEq, Except.ok.injEq, false_iff]
        rintro ⟨_, rfl, same, present, -⟩
        cases names.symm.trans same
        rw [stored] at present
        cases present
      | some present =>
        cases expecting : present.pendingReceive with
        | none =>
          simp only [names, stored, expecting, reduceCtorEq, Except.ok.injEq, false_iff]
          rintro ⟨_, rfl, same, found, waits, -⟩
          cases names.symm.trans same
          cases stored.symm.trans found
          rw [expecting] at waits
          cases waits
        | some waiting =>
          simp only [names, stored, expecting, Except.ok.injEq, exists_eq_left', Option.some.injEq]
          constructor
          · intro passed
            split at passed
            · rename_i matched
              cases passed
              exact ⟨rfl, stored, expecting, matched⟩
            · cases passed
          · rintro ⟨rfl, found, waits, matched⟩
            cases stored.symm.trans found
            cases expecting.symm.trans waits
            simp only [matched, if_true]

/-- What closing a file object does: nothing the second time, a refusal when no session waits for
the upload, or its record. A disk file closes without any of that. -/
inductive World.Closed (world : World κ) (handle : Nat) : World κ × Except Raised Unit → Prop
  | absent (missing : world.handles[handle]? = none) : Closed world handle (world, .ok ())
  | again (upload : CapturingUpload) (held : world.handles[handle]? = some (.capturing upload))
      (captured : upload.captured = true) : Closed world handle (world, .ok ())
  | refused (upload : CapturingUpload) (raised : Raised)
      (held : world.handles[handle]? = some (.capturing upload))
      (uncaptured : upload.captured = false)
      (unexpected : InMemoryUploadStore.expected world.sessions upload.request.filename =
        .error raised) : Closed world handle (world, .error raised)
  | recorded (upload : CapturingUpload) (client : ClientId) (session : ClientSession κ)
      (pending : PendingReceive) (held : world.handles[handle]? = some (.capturing upload))
      (uncaptured : upload.captured = false)
      (expected : InMemoryUploadStore.expected world.sessions upload.request.filename =
        .ok (client, session, pending)) :
      Closed world handle
        ({ world with
            uploads :=
              ⟨world.uploads.uploads ++ [upload.uploadedFile],
                world.uploads.byClientId.set client
                  ((world.uploads.byClientId.get client).getD [] ++ [upload.uploadedFile])⟩
            sessions := world.sessions.set client
              { session with pendingReceive := some { pending with uploaded := some upload.value } }
            handles := world.handles.set handle (.capturing { upload with captured := true }) },
          .ok ())
  | disk (path : Path) (position : Nat) (closed : Bool)
      (held : world.handles[handle]? = some (.disk path position closed)) :
      Closed world handle
        ({ world with handles := world.handles.set handle (.disk path position true) }, .ok ())

/-- A close does one of these. The cases of a close of an upload are told apart by whether it was
closed before and by whether a session expects it. -/
theorem World.close_cases (world : World κ) (handle : Nat) :
    world.Closed handle (world.close handle) := by
  unfold close
  split
  · exact .absent (by assumption)
  · rename_i upload held
    cases captured : upload.captured with
    | true =>
      simp only [if_true]
      exact .again upload held captured
    | false =>
      simp only [Bool.false_eq_true, if_false, InMemoryUploadStore.record]
      cases passed : InMemoryUploadStore.expected world.sessions upload.request.filename with
      | error raised => exact .refused upload raised held captured passed
      | ok waiting => exact .recorded upload waiting.1 waiting.2.1 waiting.2.2 held captured passed
  · exact .disk _ _ _ (by assumption)

end UbootTftp
