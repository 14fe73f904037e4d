import UbootTftp.SessionMoves

/-!
# Where a stored session comes from

A stored session was opened by a start request of its client, the last one so far.
That request is the first of the session's requests, and until the preflight is over
the session's token is the one drawn for it.
-/

namespace UbootTftp

universe u
variable {κ : Type u}

/-- The start request from which a stored session comes, with the events before and after it. Behind
it there is no other start of the client. -/
structure Origin (server : DynamicContentServer κ) (files : FileTree) (events : List Event)
    (client : ClientId) (session : ClientSession κ) (before : List Event)
    (request : ContentRequest) (parsed : ParsedPath) : Prop where
  starts : Starts request.filename parsed client
  first : session.requests.head? = some parsed
  token : session.preflightPending = true → session.currentToken =
    some (server.provider.host.token (server.after files before).tokensDrawn)
  split : ∃ now schedule between, events = before ++ .readRequest request now schedule :: between ∧
    ∀ again restart restartNow restartSchedule,
      .readRequest restart restartNow restartSchedule ∈ between →
      ¬Starts restart.filename again client

/-- One more event that opens no session of the client keeps the origin of a session
that comes from the same requests. -/
theorem Origin.extended {server : DynamicContentServer κ} {files : FileTree} {events : List Event}
    {client : ClientId} {earlier : ClientSession κ} {before : List Event}
    {request : ContentRequest} {parsed : ParsedPath}
    (origin : Origin server files events client earlier before request parsed) (event : Event)
    (unstarted : ∀ again restart now schedule, event = .readRequest restart now schedule →
      ¬Starts restart.filename again client)
    (session : ClientSession κ) (first : session.requests.head? = some parsed)
    (token : session.preflightPending = true →
      earlier.preflightPending = true ∧ session.currentToken = earlier.currentToken) :
    Origin server files (events ++ [event]) client session before request parsed := by
  obtain ⟨now, schedule, between, split, last⟩ := origin.split
  refine ⟨origin.starts, first, ?_, now, schedule, between ++ [event], ?_, ?_⟩
  · intro pending
    obtain ⟨earlierPending, same⟩ := token pending
    exact same.trans (origin.token earlierPending)
  · rw [split, List.append_assoc, List.cons_append]
  · intro again restart restartNow restartSchedule member
    rcases List.mem_append.mp member with earlier | here
    · exact last again restart restartNow restartSchedule earlier
    · exact unstarted again restart restartNow restartSchedule (List.mem_singleton.mp here).symm

/-- The first request stays the first when one is appended. -/
theorem head_continued (session : ClientSession κ) (parsed first : ParsedPath)
    (head : session.requests.head? = some first) :
    (session.continued parsed).requests.head? = some first := by
  rw [session.continued_requests, List.head?_append, head]
  rfl

/-- Every stored session has an origin.

Proof: by induction on the events from their end. A step that stores a session of the client is a
start, which is the origin, or continues the session that was stored before. -/
theorem after_origin (server : DynamicContentServer κ) (files : FileTree) (events : List Event) :
    ∀ client session, (server.after files events).sessions.get client = some session →
      ∃ before request parsed, Origin server files events client session before request parsed := by
  have history := Runs.run_history server.step (World.initial files)
    (fun past world => ∀ client session, world.sessions.get client = some session →
      ∃ before request parsed, Origin server files past client session before request parsed)
    (fun _ _ stored => by cases stored)
  apply history
  intro past event origins client session stored
  have sound := after_sound server files past
  change (server.step (server.after files past) event).sessions.get client = some session at stored
  change ∀ client session, (server.after files past).sessions.get client = some session → _
    at origins
  by_cases read : ∃ request now schedule, event = .readRequest request now schedule
  · obtain ⟨request, now, schedule, rfl⟩ := read
    rw [DynamicContentServer.step_read_request] at stored
    by_cases accepted : ∃ parsed session,
        (server.after files past).Accepts request.filename parsed client session
    · obtain ⟨parsed, earlier, accepts⟩ := accepted
      obtain ⟨before, start, first, origin⟩ := origins client earlier accepts.stored
      have unstarted : ∀ again restart now' schedule', Event.readRequest request now schedule =
          .readRequest restart now' schedule' → ¬Starts restart.filename again client :=
        accepts.unstarted client
      have head := head_continued earlier parsed first origin.first
      have handled := (server.after files past).accepted_cases server.provider now schedule request
        parsed client earlier sound accepts.stored
      rw [← accepts.fetch server.provider now schedule] at handled
      refine ⟨before, start, first, ?_⟩
      cases handled with
      | failed pending unreported leaves tokens silent answer =>
        rw [leaves.own] at stored
        cases stored
      | uncreated raised pending reported refused leaves tokens silent answer =>
        cases leaves.own.symm.trans stored
        exact origin.extended _ unstarted _ head fun pending => by cases pending
      | exhausted passed broken leaves tokens silent answer =>
        cases leaves.own.symm.trans stored
        refine origin.extended _ unstarted _ head fun pending => ?_
        rw [earlier.continued_preflight_pending, passed] at pending
        cases pending
      | ran state point resumption left codeEnd enters code frame keyed ran resumed answers =>
        obtain ⟨env, artifacts, kept⟩ := frame
        have record := settle_record left.session session _ codeEnd
          ((keyed ▸ ran.leaves).own.symm.trans stored)
        refine origin.extended _ unstarted _ ?_ fun pending => ?_
        · rw [record.requests, kept]
          exact head
        · rw [record.preflightPending, kept] at pending
          cases pending
    · rcases fetch_unaccepted _ server.provider now schedule request sound client
        (fun parsed session accepts => accepted ⟨parsed, session, accepts⟩) with
        ⟨same, unstarted⟩ | ⟨parsed, starts, opened⟩
      · obtain ⟨before, start, first, origin⟩ := origins client session (same ▸ stored)
        refine ⟨before, start, first, origin.extended _ ?_ session origin.first
          fun pending => ⟨pending, rfl⟩⟩
        intro again restart now' schedule' same
        cases same
        exact unstarted again
      · cases opened.symm.trans stored
        exact ⟨past, request, parsed, starts, rfl, fun _ => rfl, now, schedule, [], rfl,
          fun _ _ _ _ member => by cases member⟩
  · have unstarted : ∀ again restart now schedule, event = .readRequest restart now schedule →
        ¬Starts restart.filename again client := by
      intro again restart now schedule same
      exact absurd ⟨restart, now, schedule, same⟩ read
    rcases unread_step server _ event (fun request now schedule same =>
      read ⟨request, now, schedule, same⟩) client with same | ⟨earlier, _, _, present, -, kept⟩
    · obtain ⟨before, start, first, origin⟩ := origins client session (same ▸ stored)
      exact ⟨before, start, first, origin.extended event unstarted session origin.first
        fun pending => ⟨pending, rfl⟩⟩
    · cases kept.symm.trans stored
      obtain ⟨before, start, first, origin⟩ := origins client earlier present
      exact ⟨before, start, first, origin.extended event unstarted _ origin.first
        fun pending => ⟨pending, rfl⟩⟩

end UbootTftp
