import UbootTftp.UploadHandles

/-!
# Where a pending receive comes from

A pending receive was set when the session's handler awaited `exec_recv`, together with
the token drawn for its script. It stays until that token is accepted or the session is
replaced; until then only its body changes. Every file object of a session upload was
opened for a token that had been drawn before.
-/

namespace UbootTftp

universe u
variable {κ : Type u}

/-- The request makes the client's handler await `exec_recv`, in the given state and with
the token drawn next. -/
structure World.Issues (world : World κ) (provider : Provider κ) (request : ContentRequest)
    (now : Nat) (schedule : Schedule) (client : ClientId) (token : Text) (state : κ) : Prop where
  accepted : ∃ parsed session, world.Accepts request.filename parsed client session
  awaits : ∃ resumption sent built,
    (world.fetch provider now schedule request).resumed =
      some (resumption, .awaited (.execRecv sent built) state)
  drawn : token = provider.host.token world.tokensDrawn

/-- Settling sets a pending receive only for a handler that awaits `exec_recv`. What the session has
received before is gone by then, because the handler that receives it takes it. -/
theorem settle_pending (left settled : ClientSession κ) (token : Text) (codeEnd : CodeEnd κ)
    (idle : left.pendingReceive = none) (stored : left.settle token codeEnd = some settled)
    (pending : PendingReceive) (expecting : settled.pendingReceive = some pending) :
    ∃ request built next, codeEnd = .awaited (.execRecv request built) next ∧
      settled.handler = some (.suspended next .inExecRecv) ∧
      pending = ⟨token, "/upload.bin".toList, request.receiveSize.getD 0, none⟩ := by
  cases codeEnd with
  | returned => cases stored
  | raised error =>
    simp only [ClientSession.settle] at stored
    split at stored
    · cases stored
    · cases stored
      cases idle.symm.trans expecting
  | awaited awaited next =>
    cases awaited with
    | foreign =>
      cases stored
      cases idle.symm.trans expecting
    | execRecv request built =>
      cases stored
      cases expecting
      exact ⟨request, built, next, rfl, rfl, rfl⟩
    | exec request built =>
      simp only [ClientSession.settle] at stored
      split at stored
      · cases stored
      · cases stored
        cases idle.symm.trans expecting

/-- A session with a pending receive that is stored after a read request was stored before, and the
request did not continue it, or the request made its handler await `exec_recv`. -/
theorem fetch_pending (world : World κ) (provider : Provider κ) (now : Nat) (schedule : Schedule)
    (request : ContentRequest) (sound : world.Sound provider.host) (client : ClientId)
    (session : ClientSession κ) (pending : PendingReceive)
    (stored : (world.fetch provider now schedule request).world.sessions.get client = some session)
    (expecting : session.pendingReceive = some pending) :
    (world.sessions.get client = some session ∧
        ∀ parsed earlier, ¬world.Accepts request.filename parsed client earlier) ∨
      ∃ state, world.Issues provider request now schedule client pending.token state ∧
        session.handler = some (.suspended state .inExecRecv) ∧
        pending.uploadPath = "/upload.bin".toList ∧ pending.uploaded = none := by
  by_cases accepted : ∃ parsed earlier, world.Accepts request.filename parsed client earlier
  · obtain ⟨parsed, earlier, accepts⟩ := accepted
    have staged := (sound.sessions client earlier accepts.stored).staged
    have handled := world.accepted_cases provider now schedule request parsed client earlier sound
      accepts.stored
    rw [← accepts.fetch provider now schedule] at handled
    cases handled with
    | failed pending unreported leaves tokens silent answer =>
      rw [leaves.own] at stored
      cases stored
    | uncreated raised preflight reported refused leaves tokens silent answer =>
      cases leaves.own.symm.trans stored
      rw [earlier.continued_pending_receive, staged.idle (.inl preflight)] at expecting
      cases expecting
    | exhausted passed broken leaves tokens silent answer =>
      cases leaves.own.symm.trans stored
      rw [earlier.continued_pending_receive, staged.idle (.inr broken)] at expecting
      cases expecting
    | ran state point resumption left codeEnd enters code frame keyed ran resumed answers =>
      obtain ⟨env, artifacts, kept⟩ := frame
      have idle : left.session.pendingReceive = none := by rw [kept]; rfl
      have settles := (keyed ▸ ran.leaves).own.symm.trans stored
      obtain ⟨sent, built, next, rfl, handler, rfl⟩ :=
        settle_pending left.session session _ codeEnd idle settles pending expecting
      exact .inr ⟨next, ⟨⟨parsed, earlier, accepts⟩, ⟨resumption, sent, built, resumed⟩, rfl⟩,
        handler, rfl, rfl⟩
  · have unaccepted : ∀ parsed earlier, ¬world.Accepts request.filename parsed client earlier :=
      fun parsed earlier accepts => accepted ⟨parsed, earlier, accepts⟩
    rcases fetch_unaccepted world provider now schedule request sound client unaccepted with
      ⟨same, -⟩ | ⟨parsed, -, opened⟩
    · exact .inl ⟨same ▸ stored, unaccepted⟩
    · cases opened.symm.trans stored
      cases expecting

/-- The request that issued a pending receive, with the events before and after it. The handler has
been suspended in `exec_recv` since that request, so the receive that waits is the one it has
issued. -/
structure PendingOrigin (server : DynamicContentServer κ) (files : FileTree) (events : List Event)
    (client : ClientId) (session : ClientSession κ) (pending : PendingReceive) : Prop where
  uploadPath : pending.uploadPath = "/upload.bin".toList
  issued : ∃ before request now schedule between state,
    events = before ++ .readRequest request now schedule :: between ∧
    (server.after files before).Issues server.provider request now schedule client pending.token
      state ∧
    session.handler = some (.suspended state .inExecRecv)

/-- One more event keeps where a pending receive comes from. -/
theorem PendingOrigin.extended {server : DynamicContentServer κ} {files : FileTree}
    {events : List Event} {client : ClientId} {session : ClientSession κ}
    {pending : PendingReceive}
    (origin : PendingOrigin server files events client session pending) (event : Event) :
    PendingOrigin server files (events ++ [event]) client session pending := by
  obtain ⟨uploadPath, before, request, now, schedule, between, state, split, issues, handler⟩ :=
    origin
  refine ⟨uploadPath, before, request, now, schedule, between ++ [event], state, ?_, issues, handler⟩
  rw [split, List.append_assoc, List.cons_append]

/-- Every pending receive of a stored session was issued by a request of its client, whose handler
has been suspended in that call since. -/
theorem after_pending (server : DynamicContentServer κ) (files : FileTree) (events : List Event) :
    ∀ client session pending, (server.after files events).sessions.get client = some session →
      session.pendingReceive = some pending →
      PendingOrigin server files events client session pending := by
  have history := Runs.run_history server.step (World.initial files)
    (fun past world => ∀ client session pending, world.sessions.get client = some session →
      session.pendingReceive = some pending →
      PendingOrigin server files past client session pending)
    (fun _ _ _ stored => by cases stored)
  apply history
  intro past event origins client session pending stored expecting
  by_cases read : ∃ request now schedule, event = .readRequest request now schedule
  · obtain ⟨request, now, schedule, rfl⟩ := read
    rw [DynamicContentServer.step_read_request] at stored
    rcases fetch_pending _ server.provider now schedule request (after_sound server files past)
      client session pending stored expecting with ⟨before, -⟩ | ⟨state, issues, handler, path, -⟩
    · exact (origins client session pending before expecting).extended _
    · exact ⟨path, past, request, now, schedule, [], state, rfl, issues, handler⟩
  · rcases unread_step server _ event (fun request now schedule same =>
      read ⟨request, now, schedule, same⟩) client with
      same | ⟨earlier, waiting, _, present, waits, kept⟩
    · exact (origins client session pending (same ▸ stored) expecting).extended event
    · cases kept.symm.trans stored
      cases expecting
      obtain ⟨path, issued⟩ := (origins client earlier waiting present waits).extended event
      exact ⟨path, issued⟩

/-- A session upload's request names a client, ends in the upload path and carries a token
drawn before. -/
def Addressed (host : Host) (draws : Nat) (request : UploadRequest) : Prop :=
  ∃ parsed client draw, parseRequestPath request.filename = .ok parsed ∧
    parsed.clientId = some client ∧ "/upload.bin".toList.isSuffixOf parsed.path = true ∧
    draw < draws ∧ parsed.values.get tokenKey = some (host.token draw)

/-- A write request that is given a session upload's file object passed the check. -/
theorem open_upload_given (server : DynamicContentServer κ) (world : World κ) (path : Text)
    (peer : Text × Nat) (upload : CapturingUpload)
    (given : (server.openUpload world path peer).2 = .ok (some (.capturing upload))) :
    ∃ waiting, InMemoryUploadStore.expected world.sessions
      (server.uploadRequest path peer).filename = .ok waiting := by
  have outcome := world.open_upload_cases server path peer
  generalize server.openUpload world path peer = answer at outcome given
  cases outcome
  case captured parsed client waiting parse names passed => exact ⟨waiting, passed⟩
  all_goals cases given

/-- The token draws never decrease. -/
theorem step_draws (server : DynamicContentServer κ) (world : World κ) (event : Event)
    (sound : world.Sound server.provider.host) :
    world.tokensDrawn ≤ (server.step world event).tokensDrawn := by
  obtain ⟨actor, moves⟩ := step_moves server world event sound
  exact moves.draws

/-- The file object of every session upload was opened for a token drawn before. It may be one that
no session waits for any more. -/
theorem after_addressed (server : DynamicContentServer κ) (files : FileTree)
    (events : List Event) :
    ∀ (handle : Nat) (upload : CapturingUpload),
      (server.after files events).handles[handle]? = some (.capturing upload) →
      Addressed server.provider.host (server.after files events).tokensDrawn upload.request := by
  have history := Runs.run_history server.step (World.initial files)
    (fun _ world => ∀ (handle : Nat) (upload : CapturingUpload),
      world.handles[handle]? = some (.capturing upload) →
      Addressed server.provider.host world.tokensDrawn upload.request)
    (fun _ _ held => by cases held)
  apply history
  intro past event addressed handle upload held
  have sound := after_sound server files past
  have later : ∀ request,
      Addressed server.provider.host (server.after files past).tokensDrawn request →
      Addressed server.provider.host (server.step (server.after files past) event).tokensDrawn
        request := by
    rintro request ⟨parsed, client, draw, parse, names, path, drawn, token⟩
    have increased := step_draws server _ event sound
    exact ⟨parsed, client, draw, parse, names, path, by omega, token⟩
  apply later
  have holds := step_holds server _ event sound handle upload held
  cases holds with
  | kept upload present unwritten => exact addressed handle upload present
  | written earlier chunk present uncaptured same => exact addressed handle earlier present
  | captured earlier present uncaptured same => exact addressed handle earlier present
  | opened path peer same fresh given =>
    obtain ⟨⟨client, session, pending⟩, passed⟩ := open_upload_given server _ path peer _ given
    obtain ⟨parsed, parse, names, stored, expecting, expects⟩ :=
      (InMemoryUploadStore.expected_ok _ _ _ _ _).mp passed
    have origin := after_pending server files past client session pending stored expecting
    obtain ⟨draw, drawn, current⟩ := (sound.sessions client session stored).issued
    have token := (sound.sessions client session stored).staged.pending_token pending expecting
    simp only [PendingReceive.expects, Bool.and_eq_true, decide_eq_true_eq, origin.uploadPath]
      at expects
    refine ⟨parsed, client, draw, parse, names, expects.1, drawn, ?_⟩
    exact expects.2.trans (token.symm.trans current)

end UbootTftp
