import UbootTftp.SessionOrigins

/-!
# The preflight gate

The first continuation of a session decides whether its handler may run. The
decision is taken on the session's environment after the request's values have been
merged into it, so a value that the environment already holds can stand in for the
report. The results state exactly when the decision is the request's own, and what
holds of runs in which it always is.
-/

namespace UbootTftp

universe u
variable {κ : Type u}

/-- A continuation that reports a hush shell itself. -/
def Reports (parsed : ParsedPath) : Prop := parsed.values.get hushKey = some "true".toList

instance (parsed : ParsedPath) : Decidable (Reports parsed) :=
  inferInstanceAs (Decidable (parsed.values.get hushKey = some "true".toList))

/-- What the preflight decides on: the request's own report, or else the value that the
session's environment held before. -/
theorem continued_hush (session : ClientSession κ) (parsed : ParsedPath) :
    (session.continued parsed).env.get hushKey =
      (parsed.values.get hushKey).or (session.env.get hushKey) :=
  continued_env session parsed hushKey

/-- The answer with which a failed preflight ends the session. -/
def hushFailureResult (host : Host) : ContentResult :=
  ContentResult.fromBytes (host.compile (ensureNewline hushFailureScript))

/-- Whether an accepted first continuation either reports a hush shell itself or ends the
session with the failure script and runs no handler code. -/
def Gated (provider : Provider κ) (world : World κ) (now : Nat) (schedule : Schedule)
    (request : ContentRequest) : Prop :=
  ∀ parsed client session, world.Accepts request.filename parsed client session →
    session.preflightPending = true → Reports parsed ∨
      ((world.fetch provider now schedule request).resumed = none ∧
        (world.fetch provider now schedule request).world.sessions.get client = none ∧
        (world.fetch provider now schedule request).result =
          .ok (hushFailureResult provider.host))

/-- Whether an accepted first continuation carries a hush report of its own, or the
session's environment holds none that is true. -/
def OwnReport (world : World κ) (request : ContentRequest) : Prop :=
  ∀ parsed client session, world.Accepts request.filename parsed client session →
    session.preflightPending = true →
    parsed.values.get hushKey ≠ none ∨ session.env.get hushKey ≠ some "true".toList

/-- A first continuation ends the session with the failure script exactly when the merged
environment does not hold a true report. -/
theorem hush_failed_iff (world : World κ) (provider : Provider κ)
    (sound : world.Sound provider.host) (now : Nat) (schedule : Schedule)
    (request : ContentRequest) (parsed : ParsedPath) (client : ClientId)
    (session : ClientSession κ)
    (accepts : world.Accepts request.filename parsed client session)
    (pending : session.preflightPending = true) :
    ((world.fetch provider now schedule request).resumed = none ∧
        (world.fetch provider now schedule request).world.sessions.get client = none ∧
        (world.fetch provider now schedule request).result =
          .ok (hushFailureResult provider.host)) ↔
      (session.continued parsed).env.get hushKey ≠ some "true".toList := by
  have handled := world.accepted_cases provider now schedule request parsed client session sound
    accepts.stored
  rw [← accepts.fetch provider now schedule] at handled
  cases handled with
  | failed _ unreported leaves tokens silent answer =>
    exact ⟨fun _ => unreported, fun _ => ⟨silent, leaves.own, answer⟩⟩
  | uncreated raised _ reported refused leaves tokens silent answer =>
    refine ⟨fun failed => ?_, fun unreported => absurd reported unreported⟩
    cases leaves.own.symm.trans failed.2.1
  | exhausted passed broken leaves tokens silent answer =>
    rw [pending] at passed
    cases passed
  | ran state point resumption left codeEnd enters code frame keyed ran resumed answers =>
    refine ⟨fun failed => ?_, fun unreported => absurd (enters.preflight pending).2.2.1 unreported⟩
    cases resumed.symm.trans failed.1

/-- The preflight is gated by a request's own report exactly when the environment cannot answer for
it.

Proof: a request without a report of its own is decided by the environment from before; one with a
report is decided by that, whatever the environment held. -/
theorem gated_iff (provider : Provider κ) (world : World κ) (sound : world.Sound provider.host)
    (now : Nat) (schedule : Schedule) (request : ContentRequest) :
    Gated provider world now schedule request ↔ OwnReport world request := by
  constructor
  · intro gated parsed client session accepts pending
    by_contra stands
    obtain ⟨unreported, holds⟩ := not_or.mp stands
    have silent : parsed.values.get hushKey = none := not_not.mp unreported
    rcases gated parsed client session accepts pending with reports | failed
    · rw [Reports, silent] at reports
      cases reports
    · apply (hush_failed_iff world provider sound now schedule request parsed client session accepts
        pending).mp failed
      rw [continued_hush, silent]
      exact not_not.mp holds
  · intro own parsed client session accepts pending
    by_cases reports : Reports parsed
    · exact .inl reports
    · right
      apply (hush_failed_iff world provider sound now schedule request parsed client session accepts
        pending).mpr
      rw [continued_hush]
      cases reported : parsed.values.get hushKey with
      | none =>
        rcases own parsed client session accepts pending with carried | unset
        · exact absurd reported carried
        · exact unset
      | some value =>
        rw [Reports, reported] at reports
        exact reports

/-- Whether a request of the events reported a hush shell for the client's present session, bearing
the token of that session's preflight script. Between that request and the end of the events the
client has started no other session. -/
structure GatePassed (server : DynamicContentServer κ) (files : FileTree) (events : List Event)
    (client : ClientId) (before : List Event) (gate : ContentRequest) (parsed : ParsedPath)
    (session : ClientSession κ) : Prop where
  accepts : (server.after files before).Accepts gate.filename parsed client session
  preflight : session.preflightPending = true
  token : ∃ earlier start first, Origin server files before client session earlier start first
  reports : Reports parsed
  split : ∃ now schedule between, events = before ++ .readRequest gate now schedule :: between ∧
    ∀ again restart restartNow restartSchedule,
      .readRequest restart restartNow restartSchedule ∈ between →
      ¬Starts restart.filename again client

/-- One more event that opens no session of the client keeps its gate. The split of the events at
the gate stays where it was, and the new event joins those behind it. -/
theorem GatePassed.extended {server : DynamicContentServer κ} {files : FileTree}
    {events : List Event} {client : ClientId} {before : List Event} {gate : ContentRequest}
    {parsed : ParsedPath} {session : ClientSession κ}
    (passed : GatePassed server files events client before gate parsed session) (event : Event)
    (unstarted : ∀ again restart now schedule, event = .readRequest restart now schedule →
      ¬Starts restart.filename again client) :
    GatePassed server files (events ++ [event]) client before gate parsed session := by
  obtain ⟨now, schedule, between, split, last⟩ := passed.split
  refine ⟨passed.accepts, passed.preflight, passed.token, passed.reports, now, schedule,
    between ++ [event], by rw [split, List.append_assoc, List.cons_append], ?_⟩
  intro again restart restartNow restartSchedule member
  rcases List.mem_append.mp member with earlier | here
  · exact last again restart restartNow restartSchedule earlier
  · exact unstarted again restart restartNow restartSchedule (List.mem_singleton.mp here).symm

/-- The guard of a run in which the environment never answers for a request. -/
def OwnReports (world : World κ) : Event → Prop
  | .readRequest request _ _ => OwnReport world request
  | _ => True

section Law

variable (server : DynamicContentServer κ) (files : FileTree)

/-- A request that takes a session past its preflight has passed the gate. Where the environment
holds a true report already, the request is asked to carry one of its own; a start with such a
variable is what breaks this. -/
theorem gate_at_request (events : List Event) (request : ContentRequest) (now : Nat)
    (schedule : Schedule) (own : OwnReport (server.after files events) request)
    {parsed : ParsedPath} {client : ClientId} {session : ClientSession κ}
    (accepts : (server.after files events).Accepts request.filename parsed client session)
    (pending : session.preflightPending = true)
    (reported : (session.continued parsed).env.get hushKey = some "true".toList) :
    GatePassed server files (events ++ [.readRequest request now schedule]) client events request
      parsed session := by
  refine ⟨accepts, pending, after_origin server files events client session accepts.stored, ?_,
    now, schedule, [], rfl, fun _ _ _ _ member => by cases member⟩
  rw [continued_hush] at reported
  rcases own parsed client session accepts pending with carried | unset
  · obtain ⟨value, held⟩ := Option.ne_none_iff_exists'.mp carried
    rw [held] at reported
    rw [Reports, held]
    exact reported
  · cases held : parsed.values.get hushKey with
    | none =>
      rw [held] at reported
      exact absurd reported unset
    | some value =>
      rw [held] at reported
      rw [Reports, held]
      exact reported

/-- In a run whose requests report for themselves every session past its preflight has passed the
gate. The induction is on the events; the only step that takes a session past its preflight is the
request that passes the gate. -/
theorem after_gate (events : List Event)
    (guarded : Runs.Guarded server.step OwnReports (World.initial files) events) :
    ∀ client session, (server.after files events).sessions.get client = some session →
      session.preflightPending = false →
      ∃ before gate parsed opened, GatePassed server files events client before gate parsed opened := by
  apply Runs.guarded_history server.step OwnReports (World.initial files)
    (fun past world => ∀ client session, world.sessions.get client = some session →
      session.preflightPending = false →
      ∃ before gate parsed opened, GatePassed server files past client before gate parsed opened)
    (fun _ _ stored => by cases stored) _ events guarded
  intro past event own gates client session stored settled
  have sound := after_sound server files past
  change (server.step (server.after files past) event).sessions.get client = some session at stored
  change OwnReports (server.after files past) event at own
  change ∀ client session, (server.after files past).sessions.get client = some session → _
    at gates
  by_cases read : ∃ request now schedule, event = .readRequest request now schedule
  · obtain ⟨request, now, schedule, rfl⟩ := read
    rw [DynamicContentServer.step_read_request] at stored
    by_cases accepted : ∃ parsed session,
        (server.after files past).Accepts request.filename parsed client session
    · obtain ⟨parsed, earlier, accepts⟩ := accepted
      cases pending : earlier.preflightPending with
      | false =>
        obtain ⟨before, gate, first, opened, passed⟩ := gates client earlier accepts.stored pending
        exact ⟨before, gate, first, opened, passed.extended _ (accepts.unstarted client)⟩
      | true =>
        refine ⟨past, request, parsed, earlier, gate_at_request server files past request now
          schedule own accepts pending ?_⟩
        by_contra unreported
        have failed := (hush_failed_iff _ server.provider sound now schedule request parsed client
          earlier accepts pending).mpr unreported
        cases failed.2.1.symm.trans stored
    · rcases fetch_unaccepted _ server.provider now schedule request sound client
        (fun parsed session accepts => accepted ⟨parsed, session, accepts⟩) with
        ⟨same, unstarted⟩ | ⟨parsed, starts, opened⟩
      · obtain ⟨before, gate, first, opened, passed⟩ := gates client session (same ▸ stored) settled
        refine ⟨before, gate, first, opened, passed.extended _ ?_⟩
        intro again restart now' schedule' same
        cases same
        exact unstarted again
      · cases opened.symm.trans stored
        cases settled
  · have unstarted : ∀ again restart now schedule, event = .readRequest restart now schedule →
        ¬Starts restart.filename again client := by
      intro again restart now schedule same
      exact absurd ⟨restart, now, schedule, same⟩ read
    have before : ∃ earlier, (server.after files past).sessions.get client = some earlier ∧
        earlier.preflightPending = false := by
      rcases unread_step server _ event (fun request now schedule same =>
        read ⟨request, now, schedule, same⟩) client with same | ⟨earlier, _, _, present, -, kept⟩
      · exact ⟨session, same ▸ stored, settled⟩
      · cases kept.symm.trans stored
        exact ⟨earlier, present, settled⟩
    obtain ⟨earlier, present, passedEarlier⟩ := before
    obtain ⟨before, gate, first, opened, passed⟩ := gates client earlier present passedEarlier
    exact ⟨before, gate, first, opened, passed.extended event unstarted⟩

/-- The gate of the preflight: a first continuation is decided by its own report exactly when the
environment cannot answer for it, and in a run where that is so for every request no handler code
runs for a session that has not passed the gate.

Nothing is assumed of the handlers or of the tokens. -/
theorem preflight_gate :
    (∀ events now schedule request,
      Gated server.provider (server.after files events) now schedule request ↔
        OwnReport (server.after files events) request) ∧
    ∀ events, Runs.Guarded server.step OwnReports (World.initial files) events →
      ∀ past request now schedule future parsed client session result,
        events = past ++ .readRequest request now schedule :: future →
        (server.after files past).Accepts request.filename parsed client session →
        ((server.after files past).fetch server.provider now schedule request).resumed =
          some result →
        ∃ before gate first opened, GatePassed server files
          (past ++ [.readRequest request now schedule]) client before gate first opened := by
  refine ⟨fun events now schedule request =>
    gated_iff server.provider _ (after_sound server files events) now schedule request, ?_⟩
  rintro events guarded past request now schedule future parsed client session result rfl accepts
    resumed
  have every := (Runs.guarded_iff server.step OwnReports (World.initial files) _).mp guarded
  have own : OwnReport (server.after files past) request := every past _ future rfl
  have pastGuarded : Runs.Guarded server.step OwnReports (World.initial files) past := by
    refine (Runs.guarded_iff _ _ _ _).mpr fun before event between split => ?_
    exact every before event (between ++ .readRequest request now schedule :: future)
      (by rw [split, List.append_assoc, List.cons_append])
  cases pending : session.preflightPending with
  | false =>
    obtain ⟨before, gate, first, opened, passed⟩ :=
      after_gate server files past pastGuarded client session accepts.stored pending
    exact ⟨before, gate, first, opened, passed.extended _ (accepts.unstarted client)⟩
  | true =>
    refine ⟨past, request, parsed, session, gate_at_request server files past request now schedule
      own accepts pending ?_⟩
    by_contra unreported
    have failed := (hush_failed_iff _ server.provider (after_sound server files past) now schedule
      request parsed client session accepts pending).mpr unreported
    cases failed.1.symm.trans resumed

end Law

/-- A hush shell that the start request claims lets the handler run on a continuation that
reports nothing. -/
theorem start_request_opens_gate :
    let server := sampleServer sampleEntry sampleCode
    let events := [Event.readRequest (sampleRequest "id=cam/go/hush_shell=true") 0 []]
    ((server.after Dict.empty events).fetch server.provider 0 []
        (sampleRequest "id=cam/token=t")).resumed.map Prod.fst = some .started ∧
      ¬Gated server.provider (server.after Dict.empty events) 0 []
        (sampleRequest "id=cam/token=t") := by
  intro server events
  refine ⟨by decide +kernel, fun gated => ?_⟩
  have opened : ((server.after Dict.empty events).sessions.get sampleClient).map
      (fun session => (session.currentToken, session.preflightPending)) =
        some (some "t".toList, true) := by decide +kernel
  obtain ⟨session, stored, fields⟩ := Option.map_eq_some_iff.mp opened
  obtain ⟨current, pending⟩ := Prod.mk.inj fields
  have accepts : (server.after Dict.empty events).Accepts (sampleRequest "id=cam/token=t").filename
      ⟨"id=cam/token=t".toList, some sampleClient, "/token=t".toList, ["token=t".toList],
        Dict.ofList [("token".toList, "t".toList)]⟩ sampleClient session :=
    ⟨by decide +kernel, rfl, rfl, stored, current ▸ by decide +kernel⟩
  rcases gated _ _ session accepts pending with reports | ⟨silent, -⟩
  · exact absurd reports (by decide +kernel)
  · exact absurd (congrArg Option.isSome silent) (by decide +kernel)

end UbootTftp
