import UbootTftp.PendingContents
import UbootTftp.UploadRecords

/-!
# The delivery of uploads to receives

Over any interleaving of requests, uploads and closes, and with any handlers, a suspended
`exec_recv` gets the upload that was closed last for it or fails, no upload reaches two
receives, and each upload is recorded at most once and for its own client only.
-/

namespace UbootTftp

universe u
variable {κ : Type u}

/-- What a receive gets from a continuation: the upload closed last for it if the continuation
reports success, else a failure. It is a function of the events and of the request alone, so it says
what the handler gets without looking at the session. -/
def receiveOutcome (server : DynamicContentServer κ) (files : FileTree) (events : List Event)
    (client : ClientId) (token : Text) (parsed : ParsedPath) : Resumption :=
  if parsed.values.get recvKey = some "ok".toList then
    match lastClosed server files events client token with
    | some closing => .received closing.upload.value
    | none => .receiveFailed
  else .receiveFailed

/-- The request continues a session whose handler is suspended in an `exec_recv`, with the token
that was issued for this very call. -/
structure ResumesReceive (server : DynamicContentServer κ) (files : FileTree) (events : List Event)
    (request : ContentRequest) (parsed : ParsedPath) (client : ClientId) (token : Text)
    (state : κ) : Prop where
  accepted : ∃ session, (server.after files events).Accepts request.filename parsed client session ∧
    session.handler = some (.suspended state .inExecRecv) ∧ session.currentToken = some token
  issued : ∃ before issuing now schedule between,
    events = before ++ .readRequest issuing now schedule :: between ∧
    (server.after files before).Issues server.provider issuing now schedule client token state

/-- No stored session waits for an upload with the token, and it will not be drawn again. -/
structure Unawaited (host : Host) (token : Text) (world : World κ) : Prop where
  drawn : ∃ draw < world.tokensDrawn, host.token draw = token
  free : ∀ client session pending, world.sessions.get client = some session →
    session.pendingReceive = some pending → pending.token ≠ token

section Law

variable (server : DynamicContentServer κ) (files : FileTree)

/-- What a pending receive sends is what the receive gets. A failed upload, and one that was
reported but never closed, make the receive fail. -/
theorem received_outcome (events : List Event) (client : ClientId) (pending : PendingReceive)
    (parsed : ParsedPath)
    (contents : pending.uploaded =
      (lastClosed server files events client pending.token).map (·.upload.value)) :
    Suspension.inExecRecv.resumption (receivedValue pending parsed) =
      receiveOutcome server files events client pending.token parsed := by
  have reported : (parsed.values.get recvKey).getD "failed".toList = "ok".toList ↔
      parsed.values.get recvKey = some "ok".toList := by
    cases parsed.values.get recvKey with
    | none => simp
    | some status => simp
  simp only [receivedValue, receiveOutcome, reported, contents]
  by_cases ok : parsed.values.get recvKey = some "ok".toList
  · simp only [ok, if_true]
    cases lastClosed server files events client pending.token with
    | none => rfl
    | some closing => rfl
  · simp only [ok, if_false]
    rfl

/-- An accepted continuation of a handler suspended in `exec_recv` makes it go on with
what the receive gets. -/
theorem receiving_resumed (distinct : Function.Injective server.provider.host.token)
    (events : List Event) (request : ContentRequest) (now : Nat) (schedule : Schedule)
    (parsed : ParsedPath) (client : ClientId) (session : ClientSession κ) (state : κ)
    (accepts : (server.after files events).Accepts request.filename parsed client session)
    (suspended : session.handler = some (.suspended state .inExecRecv)) :
    ∃ token codeEnd, ResumesReceive server files events request parsed client token state ∧
      ((server.after files events).fetch server.provider now schedule request).resumed =
        some (receiveOutcome server files events client token parsed, codeEnd) := by
  have sound := after_sound server files events
  have staged := (sound.sessions client session accepts.stored).staged
  obtain ⟨pending, passed, expecting, current⟩ := staged.received state suspended
  have origin := after_pending server files events client session pending accepts.stored expecting
  have contents := after_holds server files distinct events client session pending accepts.stored
    expecting
  have receiving : ResumesReceive server files events request parsed client pending.token state := by
    obtain ⟨before, issuing, then', plan, between, issuedState, split, issues, handler⟩ :=
      origin.issued
    cases suspended.symm.trans handler
    exact ⟨⟨session, accepts, suspended, current⟩,
      before, issuing, then', plan, between, split, issues⟩
  obtain ⟨_, codeEnd, -, resumed, -⟩ := enters_settles _ server.provider now schedule request sound
    accepts (.resumed state .inExecRecv passed suspended)
  refine ⟨pending.token, codeEnd, receiving, ?_⟩
  rw [resumed, expecting, Option.bind_some, received_outcome server files events client pending parsed
    contents]

/-- A request that makes a handler go on from `exec_recv` gives it what the receive gets. It says so
of any state that a run can lead to, with what has been closed in that run. -/
theorem resumed_receiving (distinct : Function.Injective server.provider.host.token)
    (events : List Event) (request : ContentRequest) (now : Nat) (schedule : Schedule)
    (resumption : Resumption) (codeEnd : CodeEnd κ)
    (resumed : ((server.after files events).fetch server.provider now schedule request).resumed =
      some (resumption, codeEnd))
    (receives : (∃ body, resumption = .received body) ∨ resumption = .receiveFailed) :
    ∃ parsed client token state, ResumesReceive server files events request parsed client token state ∧
      resumption = receiveOutcome server files events client token parsed := by
  have sound := after_sound server files events
  have suspended : ∃ parsed client session state,
      (server.after files events).Accepts request.filename parsed client session ∧
        session.handler = some (.suspended state .inExecRecv) := by
    obtain ⟨parsed, client, session, accepts⟩ :=
      World.resumed_accepted _ server.provider now schedule request resumed
    obtain ⟨state, point, left, enters, -⟩ :=
      accepts.ran server.provider sound now schedule resumed
    refine ⟨parsed, client, session, state, accepts, ?_⟩
    cases enters with
    | begun preflight reported made => simp at receives
    | resumed _ passed handler =>
      cases point with
      | inExecRecv => exact handler
      | created => simp [Suspension.resumption] at receives
      | inExec => simp [Suspension.resumption] at receives
      | inForeign => simp [Suspension.resumption] at receives
  obtain ⟨parsed, client, session, state, accepts, handler⟩ := suspended
  obtain ⟨token, again, receiving, same⟩ := receiving_resumed server files distinct events request
    now schedule parsed client session state accepts handler
  cases same.symm.trans resumed
  exact ⟨parsed, client, token, state, receiving, rfl⟩

/-- A step keeps an upload's token unawaited. Tokens that are drawn later are other ones, and a
session that waits keeps the token that it was given. -/
theorem step_unawaited (distinct : Function.Injective server.provider.host.token)
    (world : World κ) (event : Event) (sound : world.Sound server.provider.host) (token : Text)
    (unawaited : Unawaited server.provider.host token world) :
    Unawaited server.provider.host token (server.step world event) := by
  obtain ⟨draw, drawn, same⟩ := unawaited.drawn
  have increased := step_draws server world event sound
  refine ⟨⟨draw, by omega, same⟩, fun client session pending stored expecting => ?_⟩
  by_cases read : ∃ request now schedule, event = .readRequest request now schedule
  · obtain ⟨request, now, schedule, rfl⟩ := read
    rw [DynamicContentServer.step_read_request] at stored
    rcases fetch_pending world server.provider now schedule request sound client session pending
      stored expecting with ⟨before, -⟩ | ⟨state, issues, -, -, -⟩
    · exact unawaited.free client session pending before expecting
    · rw [issues.drawn, ← same]
      exact (drawn_fresh server distinct draw drawn).symm
  · rcases unread_step server world event (fun request now schedule same =>
      read ⟨request, now, schedule, same⟩) client with
      kept | ⟨earlier, waiting, _, present, waits, kept⟩
    · exact unawaited.free client session pending (kept ▸ stored) expecting
    · cases kept.symm.trans stored
      cases expecting
      exact unawaited.free client earlier waiting present waits

/-- Once its receive has been resumed, no session waits for an upload with its token. It has no
token of another session, since tokens are distinct, and its own session has got a new one or is
gone. -/
theorem receiving_unawaited (distinct : Function.Injective server.provider.host.token)
    (events : List Event) (request : ContentRequest) (now : Nat) (schedule : Schedule)
    (parsed : ParsedPath) (client : ClientId) (token : Text) (state : κ)
    (receiving : ResumesReceive server files events request parsed client token state)
    (between : List Event) :
    Unawaited server.provider.host token
      (server.after files (events ++ .readRequest request now schedule :: between)) := by
  have sound := after_sound server files events
  have apart := after_apart server distinct files events
  obtain ⟨session, accepts, handler, current⟩ := receiving.accepted
  obtain ⟨draw, drawn, issued⟩ := (sound.sessions client session accepts.stored).issued
  have token' : server.provider.host.token draw = token :=
    Option.some.inj (issued.symm.trans current)
  have increased := step_draws server _ (.readRequest request now schedule) sound
  have resumed : Unawaited server.provider.host token
      (server.step (server.after files events) (.readRequest request now schedule)) := by
    refine ⟨⟨draw, by omega, token'⟩, fun other found pending stored expecting => ?_⟩
    rw [DynamicContentServer.step_read_request] at stored
    rcases fetch_pending _ server.provider now schedule request sound other found pending stored
      expecting with ⟨before, unaccepted⟩ | ⟨next, issues, -, -, -⟩
    · -- Another client's session holds another token, and this client's was accepted.
      rintro rfl
      have held := (sound.sessions other found before).staged.pending_token pending expecting
      have same := apart client other session found accepts.stored before (current.trans held.symm)
      subst same
      exact unaccepted parsed session accepts
    · rw [issues.drawn, ← token']
      exact (drawn_fresh server distinct draw drawn).symm
  rw [DynamicContentServer.after_step]
  have both := Runs.run_invariant server.step
    (fun world => world.Sound server.provider.host ∧ Unawaited server.provider.host token world)
    (fun world event ⟨sound, unawaited⟩ =>
      ⟨step_sound server world event sound,
        step_unawaited server distinct world event sound token unawaited⟩)
    _ ⟨step_sound server _ _ sound, resumed⟩ between
  exact both.2

/-- Two receives get different uploads.

Proof: what the first one gets was opened with its token, which no session waits for once the first
receive has been resumed; what the second one gets was closed for another token. -/
theorem receives_separate (distinct : Function.Injective server.provider.host.token)
    (before : List Event) (request : ContentRequest) (now : Nat) (schedule : Schedule)
    (between : List Event) (later : ContentRequest) (parsed again : ParsedPath)
    (client other : ClientId) (token second : Text) (state next : κ) (closing last : Closing)
    (receiving : ResumesReceive server files before request parsed client token state)
    (receivingAgain : ResumesReceive server files
      (before ++ .readRequest request now schedule :: between) later again other second next)
    (first : lastClosed server files before client token = some closing)
    (afterwards : lastClosed server files (before ++ .readRequest request now schedule :: between)
      other second = some last) : closing.handle ≠ last.handle := by
  have unawaited := receiving_unawaited server files distinct before request now schedule parsed
    client token state receiving between
  generalize whole : before ++ Event.readRequest request now schedule :: between = events
    at unawaited receivingAgain afterwards
  have different : second ≠ token := by
    obtain ⟨session, accepts, handler, current⟩ := receivingAgain.accepted
    obtain ⟨pending, -, expecting, held⟩ :=
      ((after_sound server files events).sessions other session accepts.stored).staged.received next
        handler
    rw [← Option.some.inj (held.symm.trans current)]
    exact unawaited.free other session pending accepts.stored expecting
  obtain ⟨member, own⟩ := last_closed_member server files before client token closing first
  obtain ⟨lastMember, lastOwn⟩ := last_closed_member server files events other second last afterwards
  have kept : closing ∈ closings server files events := by
    obtain ⟨past, event, future, split, shown⟩ := (Runs.mem_observed _ _ _ _ _).mp member
    refine (Runs.mem_observed _ _ _ _ _).mpr
      ⟨past, event, future ++ .readRequest request now schedule :: between, ?_, shown⟩
    rw [← whole, split, List.append_assoc, List.cons_append]
  intro same
  obtain ⟨upload, held, request'⟩ := closing_held server files events closing kept
  obtain ⟨lastUpload, lastHeld, lastRequest⟩ := closing_held server files events last lastMember
  rw [same, lastHeld] at held
  cases held
  rw [← request', lastRequest] at own
  exact different (is_for_unique _ _ _ _ _ own lastOwn).2.symm

/-- Every receive that is resumed gets its outcome, and nothing else makes a handler go on from
`exec_recv`. Both directions are stated, so that a receive can neither be skipped nor made up. -/
structure ReceivesGetLastClosed : Prop where
  resumed : ∀ events request now schedule parsed client session state,
    (server.after files events).Accepts request.filename parsed client session →
    session.handler = some (.suspended state .inExecRecv) →
    ∃ token codeEnd, ResumesReceive server files events request parsed client token state ∧
      ((server.after files events).fetch server.provider now schedule request).resumed =
        some (receiveOutcome server files events client token parsed, codeEnd)
  only : ∀ events request now schedule resumption codeEnd,
    ((server.after files events).fetch server.provider now schedule request).resumed =
      some (resumption, codeEnd) →
    (∃ body, resumption = .received body) ∨ resumption = .receiveFailed →
    ∃ parsed client token state,
      ResumesReceive server files events request parsed client token state ∧
      resumption = receiveOutcome server files events client token parsed

/-- An upload that is closed holds all that was written since the write request that opened it, in
the order of the chunks. -/
def UploadsComplete : Prop :=
  ∀ events, ∀ closing ∈ closings server files events,
    ∃ past future before path peer between, events = past ++ .close closing.handle :: future ∧
      Opening server files past closing.handle closing.upload.request before path peer between ∧
      closing.upload.value = writtenTo closing.handle between

/-- The uploads that two receives get are different. -/
def ReceivesSeparate : Prop :=
  ∀ before request now schedule between (later : ContentRequest) parsed again client other token
      second state next closing last,
    ResumesReceive server files before request parsed client token state →
    ResumesReceive server files (before ++ .readRequest request now schedule :: between) later
      again other second next →
    lastClosed server files before client token = some closing →
    lastClosed server files (before ++ .readRequest request now schedule :: between) other second =
      some last →
    closing.handle ≠ last.handle

/-- The records are those of closings of the run, each file object is recorded at most once, and
each record is in the list of its own client only. A close that is refused records nothing and may
be tried again. -/
def UploadsRecordedOnce : Prop :=
  ∀ events,
    (server.after files events).uploads.uploads =
      (recordings server files events).map (·.2.upload.uploadedFile) ∧
    (∀ client, ((server.after files events).uploads.byClientId.get client).getD [] =
      ((recordings server files events).filter
        (fun recording => decide (recording.1 = client))).map (·.2.upload.uploadedFile)) ∧
    ((recordings server files events).map (·.2.handle)).Nodup ∧
    ∀ recording ∈ recordings server files events,
      recording.2 ∈ closings server files events ∧
      ∃ parsed, parseRequestPath recording.2.upload.request.filename = .ok parsed ∧
        parsed.clientId = some recording.1

/-- A recording is a closing of the run for the client that the upload's path names. -/
theorem recording_own (events : List Event) (recording : ClientId × Closing)
    (member : recording ∈ recordings server files events) :
    recording.2 ∈ closings server files events ∧
      ∃ parsed, parseRequestPath recording.2.upload.request.filename = .ok parsed ∧
        parsed.clientId = some recording.1 := by
  obtain ⟨past, event, future, split, shown⟩ := (Runs.mem_observed _ _ _ _ _).mp member
  obtain ⟨closes, session, pending, passed⟩ := (recording_some _ _ _ _).mp shown
  obtain ⟨parsed, parse, names, -⟩ := (InMemoryUploadStore.expected_ok _ _ _ _ _).mp passed
  exact ⟨(Runs.mem_observed _ _ _ _ _).mpr ⟨past, event, future, split, closes⟩,
    parsed, parse, names⟩

/-- If the drawn tokens are pairwise distinct, over every run and with any handlers: a suspended
`exec_recv` gets the complete content of the upload closed last for it or fails, no upload reaches
two receives, and each upload is recorded at most once.

That tokens are distinct is used where two calls have to be told apart; the records do not need
it. -/
theorem upload_delivery_law (distinct : Function.Injective server.provider.host.token) :
    ReceivesGetLastClosed server files ∧ UploadsComplete server files ∧
      ReceivesSeparate server files ∧ UploadsRecordedOnce server files := by
  refine ⟨⟨?_, ?_⟩, closing_complete server files, ?_, ?_⟩
  · exact fun events request now schedule parsed client session state =>
      receiving_resumed server files distinct events request now schedule parsed client session state
  · exact fun events request now schedule resumption codeEnd =>
      resumed_receiving server files distinct events request now schedule resumption codeEnd
  · exact fun before request now schedule between later parsed again client other token second
      state next closing last =>
      receives_separate server files distinct before request now schedule between later parsed again
        client other token second state next closing last
  · intro events
    obtain ⟨uploads, byClient, once, -⟩ := after_records server files events
    exact ⟨uploads, byClient, once, recording_own server files events⟩

/-- The law applies to a server whose handler receives one upload. -/
theorem upload_delivery_law_sample :
    let server := sampleServer sampleEntry sampleReceive
    ReceivesGetLastClosed server Dict.empty ∧ UploadsComplete server Dict.empty ∧
      ReceivesSeparate server Dict.empty ∧ UploadsRecordedOnce server Dict.empty :=
  upload_delivery_law (sampleServer sampleEntry sampleReceive) Dict.empty sample_tokens_distinct

end Law

example :
    let server := sampleServer sampleEntry sampleReceive
    let events := [.readRequest (sampleRequest "id=cam") 0 [],
      .readRequest (sampleRequest "id=cam/token=t/hush_shell=true") 0 [],
      .writeRequest "/srv/id=cam/token=tt/upload.bin".toList ("10.0.0.2".toList, 1069),
      .write 0 [1, 2], .close 0]
    ((server.after Dict.empty events).fetch server.provider 0 []
      (sampleRequest "id=cam/token=tt/recv=ok")).resumed.map Prod.fst =
        some (.received [1, 2]) := by
  decide +kernel

end UbootTftp
