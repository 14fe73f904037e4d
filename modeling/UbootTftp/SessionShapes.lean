import UbootTftp.ProperHandlers
import UbootTftp.SessionOrigins

/-!
# The three shapes of a session

With an accepted configuration, async entry functions and handlers that keep to the
helpers and only read their environment, a stored session waits for its preflight,
for a continuation or for an upload, and the fields of the session agree on which.
The checks that the provider makes on the way to a script then never fail.
-/

namespace UbootTftp

universe u
variable {κ : Type u}

/-- The handlers change nothing in the environment they are given. -/
def Provider.ReadOnly (provider : Provider κ) : Prop :=
  ∀ state resumption now schedule before,
    ((provider.resume state resumption).run provider.host now schedule before).1.session.publicEnv =
      (before : HandleState κ).session.publicEnv

/-- A session whose first script is out and whose handler does not exist yet. It waits for the
report of the shell. -/
structure AtPreflight (session : ClientSession κ) : Prop where
  pending : session.preflightPending = true
  unhandled : session.handler = none
  idle : session.pendingReceive = none
  phase : session.phase = .awaitRrq

/-- A session whose handler is suspended in `exec`. It expects no upload. -/
structure Waiting (session : ClientSession κ) : Prop where
  passed : session.preflightPending = false
  handled : ∃ state, session.handler = some (.suspended state .inExec)
  idle : session.pendingReceive = none
  phase : session.phase = .awaitRrq

/-- A session whose handler is suspended in `exec_recv`. It expects one upload, under the token that
is current. -/
structure Receiving (session : ClientSession κ) : Prop where
  passed : session.preflightPending = false
  handled : ∃ state, session.handler = some (.suspended state .inExecRecv)
  expecting : ∃ pending, session.pendingReceive = some pending ∧
    session.currentToken = some pending.token
  phase : session.phase = .awaitUpload

/-- Exactly one of the three shapes. The negations are written out, since the shapes exclude each
other by several fields at once. -/
def OneShape (session : ClientSession κ) : Prop :=
  (AtPreflight session ∧ ¬Waiting session ∧ ¬Receiving session) ∨
    (Waiting session ∧ ¬AtPreflight session ∧ ¬Receiving session) ∨
    (Receiving session ∧ ¬AtPreflight session ∧ ¬Waiting session)

/-- A live session in one of the stages has exactly one of the three shapes. The shapes exclude each
other by the handler, by the phase or by what is waited for. -/
theorem Stage.shape {session : ClientSession κ} (staged : Stage session) (live : Live session) :
    OneShape session := by
  cases staged with
  | preflight pending unhandled idle phase =>
    refine .inl ⟨⟨pending, unhandled, idle, phase⟩, ?_, ?_⟩
    · exact fun waiting => by simp [waiting.passed] at pending
    · exact fun receiving => by simp [receiving.passed] at pending
  | waiting state passed handled idle phase =>
    refine .inr (.inl ⟨⟨passed, ⟨state, handled⟩, idle, phase⟩, ?_, ?_⟩)
    · exact fun preflight => by simp [preflight.pending] at passed
    · exact fun receiving => by simp [receiving.phase] at phase
  | receiving state pending passed handled expecting sameToken phase =>
    refine .inr (.inr ⟨⟨passed, ⟨state, handled⟩, ⟨pending, expecting, sameToken⟩, phase⟩, ?_, ?_⟩)
    · exact fun preflight => by simp [preflight.pending] at passed
    · exact fun waiting => by simp [waiting.phase] at phase
  | stuck passed broken idle =>
    rcases broken with missing | stopped | ⟨state, handled⟩
    · exact absurd (.inl missing) (live.unbroken passed)
    · exact absurd (.inr stopped) (live.unbroken passed)
    · rcases live with pending | ⟨other, waiting | receiving⟩
      · simp [passed] at pending
      · simp [handled] at waiting
      · simp [handled] at receiving

/-- Merging one reported value keeps the public environment the visible part of the
session's environment. -/
theorem merge_value_public (session : ClientSession κ) (entry : Text × Text)
    (visible : session.publicEnv = publicEnv session.env) :
    (mergeValue session entry).publicEnv = publicEnv (mergeValue session entry).env := by
  unfold mergeValue
  split
  · exact visible
  · by_cases hidden : entry.1 ∈ hiddenKeys <;>
      simp [publicEnv, Dict.filterKeys_set, hidden, visible]

/-- Merging a continuation keeps the public environment the visible part.

Proof: by induction on the entries, each of which keeps it when it is merged. -/
theorem continued_public (session : ClientSession κ) (parsed : ParsedPath)
    (visible : session.publicEnv = publicEnv session.env) :
    (session.continued parsed).publicEnv = publicEnv (session.continued parsed).env := by
  have merged : ∀ (entries : List (Text × Text)) (session : ClientSession κ),
      session.publicEnv = publicEnv session.env →
      (entries.foldl mergeValue session).publicEnv =
        publicEnv (entries.foldl mergeValue session).env := by
    intro entries
    induction entries with
    | nil => exact fun _ visible => visible
    | cons entry rest inductionHypothesis =>
      exact fun session visible =>
        inductionHypothesis _ (merge_value_public session entry visible)
  exact merged parsed.values.entries _ visible

/-- With read-only handlers a move keeps the public environment the visible part. A handler that
sets its environment could leave the two apart, which is why only readers are allowed here. -/
theorem Move.visible {provider : Provider κ} (readers : provider.ReadOnly) {draws : Nat}
    {before : Option (ClientSession κ)}
    (visible : ∀ session, before = some session → session.publicEnv = publicEnv session.env)
    {session : ClientSession κ} (move : Move provider draws before (some session)) :
    session.publicEnv = publicEnv session.env := by
  generalize target : some session = after at move
  cases move with
  | same _ => exact visible session target.symm
  | opened before request parsed client =>
    cases target
    rfl
  | dropped earlier => cases target
  | uploaded earlier pending body expecting =>
    cases target
    exact visible earlier rfl
  | uncreated earlier request parsed raised pending refused =>
    cases target
    exact continued_public earlier parsed (visible earlier rfl)
  | exhausted earlier parsed passed broken =>
    cases target
    exact continued_public earlier parsed (visible earlier rfl)
  | settled earlier request parsed state point resumption now schedule downloads files left codeEnd
      enters code frame =>
    have unchanged := readers state resumption now schedule
      ⟨earlier.entered parsed state point, downloads, files⟩
    rw [code] at unchanged
    have record := settle_record left.session session _ codeEnd target.symm
    obtain ⟨env, artifacts, kept⟩ := frame
    have sameEnv : left.session.env = (earlier.continued parsed).env := by
      rw [kept]
      rfl
    rw [record.publicEnv, record.env, unchanged, sameEnv]
    exact continued_public earlier parsed (visible earlier rfl)

/-- With read-only handlers every stored session shows its handler exactly the visible part of its
environment. A handler that changes its environment would change it under the server. -/
theorem after_visible (server : DynamicContentServer κ) (readers : server.provider.ReadOnly)
    (files : FileTree) (events : List Event) :
    ∀ client session, (server.after files events).sessions.get client = some session →
      session.publicEnv = publicEnv session.env := by
  have both := Runs.run_invariant server.step
    (fun world => world.Sound server.provider.host ∧
      ∀ client session, world.sessions.get client = some session →
        session.publicEnv = publicEnv session.env)
    (fun world event ⟨sound, visible⟩ => by
      refine ⟨step_sound server world event sound, fun client session stored => ?_⟩
      obtain ⟨actor, moves⟩ := step_moves server world event sound
      exact Move.visible readers (visible client) (stored ▸ moves.any client))
    (World.initial files) ⟨after_sound server files [], fun _ _ stored => by cases stored⟩ events
  exact both.2

/-- The exceptions of the provider's internal checks: a script without a token or an
upload, a session without a handler, a coroutine that cannot take what it is sent, a
session without requests and a missing setting. -/
def Raised.Internal : Raised → Prop
  | .missingContinuationToken => True
  | .missingPendingReceive => True
  | .noActiveHandler _ => True
  | .coroutineReused => True
  | .sentToUnstarted => True
  | .noRequests => True
  | .missingKey _ => True
  | _ => False

/-- What holds of a stored session of a client after the events: its shape, a token, its id, the
request that started it, the count of its requests, the settings of every script, and what its
handler sees. -/
structure WellShaped (server : DynamicContentServer κ) (files : FileTree) (events : List Event)
    (client : ClientId) (session : ClientSession κ) : Prop where
  shape : OneShape session
  token : session.currentToken ≠ none
  keyed : session.clientId = client
  started : ∃ before request parsed, Origin server files events client session before request parsed
  counted : session.rrqCount = session.requests.length
  settings : ∀ key ∈ ["rambase".toList, "cmdtftp".toList, "cmdtftpput".toList],
    session.env.get key ≠ none
  visible : session.publicEnv = session.env.filterKeys (fun key =>
    decide (key ∉ ["rambase".toList, "cmdtftp".toList, "cmdtftpput".toList]))

section Law

variable (server : DynamicContentServer κ) (files : FileTree)

/-- With proper handlers and async entry functions no request of an equipped server fails an
internal check. What can still be raised comes from the request, from the files or from the
handler. -/
theorem fetch_not_internal (base : Equipped server.provider.config.env)
    (helpers : server.provider.HelpersOnly) (entries : server.provider.AsyncEntries)
    (events : List Event) (request : ContentRequest) (now : Nat) (schedule : Schedule)
    (raised : Raised)
    (failed : ((server.after files events).fetch server.provider now schedule request).result =
      .error raised) : ¬raised.Internal := by
  have sound := after_sound server files events
  have live := after_live server helpers entries files events
  have equipped := after_equipped server base files events
  generalize server.after files events = world at sound live equipped failed
  have fetched := world.fetch_cases server.provider now schedule request
  generalize world.fetch server.provider now schedule request = outcome at fetched failed
  cases fetched with
  | missed result cause unstarted refused =>
    cases cause with
    | malformed raised parse =>
      cases failed
      obtain ⟨value, rfl⟩ := parse_error _ _ parse
      exact not_false
    | static parsed parse unnamed =>
      rcases static_error world server.provider.host parsed.path raised failed with
        ⟨rfl, -⟩ | rfl | ⟨target, -, -, rfl⟩
      · exact not_false
      · exact not_false
      · exact not_false
    | unknown parsed client parse names =>
      cases failed
      exact not_false
    | stale parsed client parse names =>
      cases failed
      exact not_false
  | started parsed client starts =>
    obtain ⟨body, answered⟩ := world.start_answers server.provider base now request parsed client
    cases answered.symm.trans failed
  | accepted parsed client session accepts =>
    have handled := world.accepted_cases server.provider now schedule request parsed client session
      sound accepts.stored
    generalize world.continueSession server.provider now schedule request parsed session = outcome
      at handled failed
    cases handled with
    | failed pending unreported leaves tokens silent answer => cases answer.symm.trans failed
    | uncreated other pending reported refused leaves tokens silent answer =>
      exact absurd refused (create_handler_async server.provider entries _ _ (by simp) other)
    | exhausted passed broken leaves tokens silent answer =>
      exact absurd broken ((live client session accepts.stored).unbroken passed)
    | ran state point resumption left codeEnd enters code frame keyed ran resumed answers =>
      have proper := helpers state resumption now schedule
        ⟨session.entered parsed state point, world.downloads, world.files⟩
      rw [code] at proper
      have answered := answers (equipped client session accepts.stored)
      cases codeEnd with
      | returned =>
        cases answered.symm.trans failed
        exact not_false
      | raised error =>
        have expected : error.cls = .receiveFailedError := proper
        simp only [CodeEnd.Answers, CodeEnd.failure, expected, if_true] at answered
        cases answered.symm.trans failed
        exact not_false
      | awaited awaited next =>
        cases awaited with
        | foreign => exact proper.elim
        | exec expected built =>
          obtain ⟨body, answered⟩ := answered
          cases answered.symm.trans failed
        | execRecv expected built =>
          obtain ⟨body, answered⟩ := answered
          cases answered.symm.trans failed

/-- Every stored session is well shaped, and no request fails an internal check.

Proof: each part of the shape is an invariant of its own, proved over the moves of a session; here
they are put together for the same reachable state. -/
theorem session_shapes (data : Dict Text TomlSection) (rootdir : Option Text)
    (loaded : loadDaemonConfig data rootdir = .ok server.provider.config)
    (helpers : server.provider.HelpersOnly) (readers : server.provider.ReadOnly)
    (entries : server.provider.AsyncEntries) (events : List Event) :
    (∀ client session, (server.after files events).sessions.get client = some session →
      WellShaped server files events client session) ∧
    ∀ request now schedule raised,
      ((server.after files events).fetch server.provider now schedule request).result =
        .error raised → ¬raised.Internal := by
  have base : Equipped server.provider.config.env := loaded_env data rootdir _ loaded
  refine ⟨?_, fetch_not_internal server files base helpers entries events⟩
  intro client session stored
  obtain ⟨keyed, staged, ⟨draw, -, token⟩, counted⟩ :=
    (after_sound server files events).sessions client session stored
  have live := after_live server helpers entries files events client session stored
  exact {
    shape := staged.shape live
    token := by simp [token]
    keyed := keyed
    started := after_origin server files events client session stored
    counted := counted
    settings := after_equipped server base files events client session stored
    visible := after_visible server readers files events client session stored }

end Law

/-- The handler that runs one script and returns meets every condition. -/
theorem session_shapes_sample :
    let server := sampleServer sampleEntry sampleCode
    ∀ events, (∀ client session,
        (server.after Dict.empty events).sessions.get client = some session →
          WellShaped server Dict.empty events client session) ∧
      ∀ request now schedule raised,
        ((server.after Dict.empty events).fetch server.provider now schedule request).result =
          .error raised → ¬raised.Internal :=
  session_shapes (sampleServer sampleEntry sampleCode) Dict.empty sampleFile none sample_loaded
    (fun _ resumption _ _ _ => by cases resumption <;> trivial)
    (fun _ resumption _ _ _ => by cases resumption <;> rfl) (fun _ => ⟨_, rfl⟩)

end UbootTftp
