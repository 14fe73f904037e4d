import UbootTftp.Server

/-!
# What a read request does to the sessions

Each lemma here says once what a part of the provider does, so that the
invariants of later modules are case analyses over its cases. Handler code and
the merging of reported values change a few named fields of a session. A read
request leaves the sessions alone, opens a session or continues one; a continued
session that runs handler code is left as `ClientSession.settle` says.
-/

namespace UbootTftp

universe u
variable {κ : Type u}

section HandlerCode

/-- What every operation of the session handle preserves, handler code preserves.

Proof: by induction on the reports for those that come in before an operation; the operations
themselves are the cases of the code. -/
theorem Code.run_preserves (host : Host) (now : Nat) (holds : HandleState κ → Prop)
    (reported : ∀ state event, holds state → holds (state.report now event))
    (changed : ∀ state env, holds state →
      holds { state with session := { state.session with publicEnv := env } })
    (acquired : ∀ state artifactKey url destination pageUrl headers, holds state →
      holds (state.acquireDownload host now artifactKey url destination pageUrl headers).1)
    (written : ∀ state destination body, holds state →
      holds (state.writeFile host destination body).1)
    (code : Code κ) (schedule : Schedule) (state : HandleState κ) (initially : holds state) :
    holds (code.run host now schedule state).1 := by
  have reports : ∀ (events : List ThreadEvent) (state : HandleState κ), holds state →
      holds (state.reports now events) := by
    intro events
    induction events with
    | nil => exact fun _ held => held
    | cons event events inductionHypothesis =>
      exact fun state held => inductionHypothesis _ (reported state event held)
  induction code generalizing schedule state with
  | await awaited next => exact initially
  | finish => exact initially
  | raise error => exact initially
  | inspect next inductionHypothesis =>
    exact inductionHypothesis _ _ _ (reports _ _ initially)
  | setEnv env next inductionHypothesis =>
    exact inductionHypothesis _ _ (changed _ env (reports _ _ initially))
  | acquireDownload artifactKey url destination pageUrl headers next inductionHypothesis =>
    exact inductionHypothesis _ _ _
      (acquired _ artifactKey url destination pageUrl headers (reports _ _ initially))
  | getDownload artifactKey next inductionHypothesis =>
    exact inductionHypothesis _ _ _ (reports _ _ initially)
  | writeFile destination body next inductionHypothesis =>
    exact inductionHypothesis _ _ _ (written _ destination body (reports _ _ initially))
  | fileExists filename next inductionHypothesis =>
    exact inductionHypothesis _ _ _ (reports _ _ initially)
  | readFile filename next inductionHypothesis =>
    exact inductionHypothesis _ _ _ (reports _ _ initially)

/-- Reports of download threads change no session. -/
theorem HandleState.reports_session (now : Nat) (state : HandleState κ) (events : List ThreadEvent) :
    (state.reports now events).session = state.session := by
  unfold HandleState.reports
  induction events generalizing state with
  | nil => rfl
  | cons event events inductionHypothesis => exact inductionHypothesis (state.report now event)

/-- Writing a file changes no session and no attachment. -/
theorem HandleState.write_file_frame (host : Host) (state : HandleState κ) (destination : Text)
    (body : Bytes) :
    (state.writeFile host destination body).1.session = state.session ∧
      (state.writeFile host destination body).1.downloads = state.downloads := by
  unfold HandleState.writeFile
  repeat' split
  all_goals exact ⟨rfl, rfl⟩

/-- An acquire changes only the artifacts of the session. -/
theorem HandleState.acquire_download_session (host : Host) (now : Nat) (state : HandleState κ)
    (artifactKey url destination : Text) (pageUrl : Option Text)
    (headers : Option (Dict Text Text)) :
    ∃ artifacts, (state.acquireDownload host now artifactKey url destination pageUrl
      headers).1.session = { state.session with downloadArtifacts := artifacts } := by
  simp only [HandleState.acquireDownload]
  repeat' split
  all_goals exact ⟨_, rfl⟩

/-- Handler code changes the environment it was given and the session's artifacts, and no other
field of the session. In particular it can neither see nor move its own token. -/
theorem Code.run_session (host : Host) (now : Nat) (code : Code κ) (schedule : Schedule)
    (state : HandleState κ) :
    ∃ env artifacts, (code.run host now schedule state).1.session =
      { state.session with publicEnv := env, downloadArtifacts := artifacts } := by
  apply Code.run_preserves host now (fun after => ∃ env artifacts, after.session =
    { state.session with publicEnv := env, downloadArtifacts := artifacts })
  case reported => exact fun _ _ held => held
  case changed =>
    rintro after env ⟨_, artifacts, same⟩
    exact ⟨env, artifacts, by simp only [same]⟩
  case acquired =>
    rintro after artifactKey url destination pageUrl headers ⟨env, _, same⟩
    obtain ⟨artifacts, acquired⟩ := HandleState.acquire_download_session host now after artifactKey
      url destination pageUrl headers
    exact ⟨env, artifacts, by simp only [acquired, same]⟩
  case written =>
    rintro after destination body ⟨env, artifacts, same⟩
    exact ⟨env, artifacts, by rw [(HandleState.write_file_frame host after destination body).1, same]⟩
  case initially => exact ⟨state.session.publicEnv, state.session.downloadArtifacts, rfl⟩

end HandlerCode

section Merging

/-- Merging reported values keeps every field but the two environments. The fields are covered one
by one below; this is the induction over the values that they share. -/
theorem merge_frame {β : Type*} (field : ClientSession κ → β)
    (kept : ∀ session env publicEnv,
      field { session with env := env, publicEnv := publicEnv } = field session)
    (session : ClientSession κ) (parsed : ParsedPath) :
    field (mergeContinuationValues session parsed) = field session := by
  unfold mergeContinuationValues
  induction parsed.values.entries generalizing session with
  | nil => rfl
  | cons entry rest inductionHypothesis =>
    have one : field (mergeValue session entry) = field session := by
      unfold mergeValue
      split
      · rfl
      · exact kept _ _ _
    rw [List.foldl_cons, inductionHypothesis, one]

variable (session : ClientSession κ) (parsed : ParsedPath)

/-- A merge keeps the id of the session. -/
@[simp] theorem merge_client_id :
    (mergeContinuationValues session parsed).clientId = session.clientId :=
  merge_frame (·.clientId) (fun _ _ _ => rfl) session parsed

/-- A merge keeps the handler where it is suspended. -/
@[simp] theorem merge_handler :
    (mergeContinuationValues session parsed).handler = session.handler :=
  merge_frame (·.handler) (fun _ _ _ => rfl) session parsed

/-- A merge keeps the upload that is waited for. -/
@[simp] theorem merge_pending_receive :
    (mergeContinuationValues session parsed).pendingReceive = session.pendingReceive :=
  merge_frame (·.pendingReceive) (fun _ _ _ => rfl) session parsed

/-- A merge keeps the current token, also where the request has a value under the token's key. -/
@[simp] theorem merge_current_token :
    (mergeContinuationValues session parsed).currentToken = session.currentToken :=
  merge_frame (·.currentToken) (fun _ _ _ => rfl) session parsed

/-- A merge keeps the flag of the preflight. -/
@[simp] theorem merge_preflight_pending :
    (mergeContinuationValues session parsed).preflightPending = session.preflightPending :=
  merge_frame (·.preflightPending) (fun _ _ _ => rfl) session parsed

/-- A merge keeps the phase. -/
@[simp] theorem merge_phase :
    (mergeContinuationValues session parsed).phase = session.phase :=
  merge_frame (·.phase) (fun _ _ _ => rfl) session parsed

/-- A merge remembers no request. -/
@[simp] theorem merge_requests :
    (mergeContinuationValues session parsed).requests = session.requests :=
  merge_frame (·.requests) (fun _ _ _ => rfl) session parsed

/-- A merge counts no request. -/
@[simp] theorem merge_rrq_count :
    (mergeContinuationValues session parsed).rrqCount = session.rrqCount :=
  merge_frame (·.rrqCount) (fun _ _ _ => rfl) session parsed

/-- A merge keeps the acquired artifacts. -/
@[simp] theorem merge_download_artifacts :
    (mergeContinuationValues session parsed).downloadArtifacts = session.downloadArtifacts :=
  merge_frame (·.downloadArtifacts) (fun _ _ _ => rfl) session parsed

/-- Merging into one of the environments, of which `takes` tells the keys that it accepts: an
accepted key holds the reported value, or else the value from before. Both environments are
instances, by their own `takes`.

Proof: by induction on the entries. Keys are distinct in a dictionary, so an entry is not entered
over by a later one. -/
theorem merge_get (field : ClientSession κ → Dict Text Text) (takes : Text → Bool)
    (one : ∀ session entry, field (mergeValue session entry) =
      if takes entry.1 then (field session).set entry.1 entry.2 else field session)
    (key : Text) (values : Dict Text Text) (session : ClientSession κ) :
    (field (values.entries.foldl mergeValue session)).get key =
      if takes key then (values.get key).or ((field session).get key)
      else (field session).get key := by
  obtain ⟨entries, distinct⟩ := values
  induction entries generalizing session with
  | nil => simp [Dict.get]
  | cons entry rest inductionHypothesis =>
    obtain ⟨other, value⟩ := entry
    obtain ⟨absent, restDistinct⟩ := List.nodup_cons.mp distinct
    rw [List.foldl_cons, inductionHypothesis _ restDistinct, Dict.get_cons, one]
    by_cases same : key = other
    · subst same
      have later : (⟨rest, restDistinct⟩ : Dict Text Text).get key = none := by
        by_contra stored
        exact absent ((Dict.mem_keys _ _).mpr stored)
      cases takes key <;> simp [later]
    · rw [if_neg same]
      cases takes other <;> simp [same]

end Merging

/-- The session after an accepted continuation has been recorded and merged. -/
def ClientSession.continued (session : ClientSession κ) (parsed : ParsedPath) : ClientSession κ :=
  mergeContinuationValues (session.recordRrq parsed) parsed

/-- The keys that a continuation's values are merged under. -/
def mergedKey (key : Text) : Bool := decide (key ≠ tokenKey ∧ key ≠ recvKey)

/-- The environment after a continuation: the reported values over those from before. A key is
merged whether the handler has asked for it or not. -/
theorem continued_env (session : ClientSession κ) (parsed : ParsedPath) (key : Text) :
    (session.continued parsed).env.get key =
      if mergedKey key then (parsed.values.get key).or (session.env.get key)
      else session.env.get key := by
  refine merge_get (·.env) mergedKey (fun session entry => ?_) key parsed.values
    (session.recordRrq parsed)
  simp only [mergeValue, mergedKey, decide_eq_true_eq, ← not_or]
  split <;> simp_all

/-- The handler's environment after a continuation: as the session's, without the hidden
keys. -/
theorem continued_public_env (session : ClientSession κ) (parsed : ParsedPath) (key : Text) :
    (session.continued parsed).publicEnv.get key =
      if mergedKey key && decide (key ∉ hiddenKeys) then
        (parsed.values.get key).or (session.publicEnv.get key)
      else session.publicEnv.get key := by
  refine merge_get (·.publicEnv) (fun key => mergedKey key && decide (key ∉ hiddenKeys))
    (fun session entry => ?_) key parsed.values (session.recordRrq parsed)
  by_cases plain : entry.1 = tokenKey ∨ entry.1 = recvKey
  · rcases plain with same | same <;> simp [mergeValue, mergedKey, same]
  · by_cases hidden : entry.1 ∈ hiddenKeys
    · simp [mergeValue, plain, hidden]
    · simp [mergeValue, mergedKey, hidden, not_or.mp plain]

/-- How far a session has come. The last stage is only reached when the handler raised an unexpected
exception, awaited a foreign object or could not be created. The other three determine each other's
fields, which is what the checks of the provider rely on. -/
inductive Stage (session : ClientSession κ) : Prop
  | preflight (pending : session.preflightPending = true) (unhandled : session.handler = none)
      (idle : session.pendingReceive = none) (phase : session.phase = .awaitRrq)
  | waiting (state : κ) (passed : session.preflightPending = false)
      (handled : session.handler = some (.suspended state .inExec))
      (idle : session.pendingReceive = none) (phase : session.phase = .awaitRrq)
  | receiving (state : κ) (pending : PendingReceive) (passed : session.preflightPending = false)
      (handled : session.handler = some (.suspended state .inExecRecv))
      (expecting : session.pendingReceive = some pending)
      (sameToken : session.currentToken = some pending.token)
      (phase : session.phase = .awaitUpload)
  | stuck (passed : session.preflightPending = false)
      (broken : session.handler = none ∨ session.handler = some .finished ∨
        ∃ state, session.handler = some (.suspended state .inForeign))
      (idle : session.pendingReceive = none)

/-- A session waits for an upload only after its preflight and with a handler to resume. -/
theorem Stage.idle {session : ClientSession κ} (staged : Stage session)
    (unhandled : session.preflightPending = true ∨ session.handler = none ∨
      session.handler = some .finished) : session.pendingReceive = none := by
  cases staged with
  | preflight pending missing idle phase => exact idle
  | waiting state passed handled idle phase => exact idle
  | stuck passed broken idle => exact idle
  | receiving state pending passed handled expecting sameToken phase =>
    simp [passed, handled] at unhandled

/-- A pending receive carries the session's current token. -/
theorem Stage.pending_token {session : ClientSession κ} (staged : Stage session)
    (pending : PendingReceive) (expecting : session.pendingReceive = some pending) :
    session.currentToken = some pending.token := by
  cases staged with
  | preflight awaiting missing idle phase => cases idle.symm.trans expecting
  | waiting state passed handled idle phase => cases idle.symm.trans expecting
  | stuck passed broken idle => cases idle.symm.trans expecting
  | receiving state waiting passed handled waits sameToken phase =>
    cases waits.symm.trans expecting
    exact sameToken

/-- A session whose handler is suspended in `exec_recv` waits for an upload. -/
theorem Stage.received {session : ClientSession κ} (staged : Stage session) (state : κ)
    (suspended : session.handler = some (.suspended state .inExecRecv)) :
    ∃ pending, session.preflightPending = false ∧ session.pendingReceive = some pending ∧
      session.currentToken = some pending.token := by
  cases staged with
  | preflight awaiting missing idle phase => cases missing.symm.trans suspended
  | waiting other passed handled idle phase => cases handled.symm.trans suspended
  | receiving other pending passed handled expecting sameToken phase =>
    exact ⟨pending, passed, expecting, sameToken⟩
  | stuck passed broken idle => simp [suspended] at broken

/-- A session whose handler is suspended in `exec` has passed its preflight and waits for
no upload. -/
theorem Stage.waits {session : ClientSession κ} (staged : Stage session) (state : κ)
    (suspended : session.handler = some (.suspended state .inExec)) :
    session.preflightPending = false ∧ session.pendingReceive = none := by
  cases staged with
  | preflight awaiting missing idle phase => cases missing.symm.trans suspended
  | waiting other passed handled idle phase => exact ⟨passed, idle⟩
  | receiving other pending passed handled expecting sameToken phase =>
    cases handled.symm.trans suspended
  | stuck passed broken idle => exact ⟨passed, idle⟩

/-- A session at its preflight has no handler yet. -/
theorem Stage.unhandled {session : ClientSession κ} (staged : Stage session)
    (pending : session.preflightPending = true) : session.handler = none := by
  cases staged with
  | preflight awaiting missing idle phase => exact missing
  | waiting state passed handled idle phase => simp [passed] at pending
  | receiving state receive passed handled expecting sameToken phase => simp [passed] at pending
  | stuck passed broken idle => simp [passed] at pending

/-- The session that is left once its handler's code has ended, if it stays stored. The token is the
one drawn next. A handler that returns, one that lets the failed receive out and one that sends a
final script are dropped; all others stay. -/
def ClientSession.settle (left : ClientSession κ) (token : Text) :
    CodeEnd κ → Option (ClientSession κ)
  | .returned => none
  | .raised error =>
    if error.cls = .receiveFailedError then none else some { left with handler := some .finished }
  | .awaited (.exec request _) next =>
    if request.final then none
    else some { left with
      handler := some (.suspended next .inExec)
      currentToken := some token
      phase := .awaitRrq }
  | .awaited (.execRecv request _) next =>
    some { left with
      handler := some (.suspended next .inExecRecv)
      currentToken := some token
      pendingReceive := some ⟨token, "/upload.bin".toList, request.receiveSize.getD 0, none⟩
      phase := .awaitUpload }
  | .awaited .foreign next => some { left with handler := some (.suspended next .inForeign) }

/-- Whether the server answers the end of handler code with a script that carries a
new token. -/
def CodeEnd.issues : CodeEnd κ → Bool
  | .awaited (.exec request _) _ => !request.final
  | .awaited (.execRecv _ _) _ => true
  | _ => false

/-- The two states agree except that one client's session is as given, and the uploads are those
before. Most results about a request are statements of this form. -/
structure World.Leaves (before after : World κ) (client : ClientId)
    (left : Option (ClientSession κ)) : Prop where
  own : after.sessions.get client = left
  others : ∀ other, other ≠ client → after.sessions.get other = before.sessions.get other
  uploads : after.uploads = before.uploads
  handles : after.handles = before.handles

namespace World

/-- Whether two states hold the same sessions and uploads. -/
structure Same (before after : World κ) : Prop where
  sessions : after.sessions = before.sessions
  uploads : after.uploads = before.uploads
  handles : after.handles = before.handles

/-- Putting a session back is seen under its own id only. -/
theorem put_leaves (before world : World κ) (same : before.Same world) (session : ClientSession κ)
    (client : ClientId) (keyed : session.clientId = client) :
    before.Leaves (world.putSession session) client (some session) where
  own := keyed ▸ Dict.get_set_self _ _ _
  others _ different := by
    rw [← same.sessions]
    exact Dict.get_set_other _ _ _ _ (keyed ▸ different)
  uploads := same.uploads
  handles := same.handles

/-- Discarding a session drops it under its own id only. -/
theorem discard_leaves (before world : World κ) (same : before.Same world) (now : Nat)
    (session : ClientSession κ) (client : ClientId) (keyed : session.clientId = client) :
    before.Leaves (world.discardSession now session) client none where
  own := keyed ▸ Dict.get_erase_self _ _
  others _ different := by
    rw [← same.sessions]
    exact Dict.get_erase_other _ _ _ (keyed ▸ different)
  uploads := same.uploads
  handles := same.handles

/-- An answer changes the world by storing the session, whatever becomes of the script. -/
@[simp] theorem answer_world (world : World κ) (host : Host) (session : ClientSession κ)
    (script : Except Raised Text) :
    (world.answer host session script).1 = world.putSession session := by
  cases script <;> rfl

/-- An answer is the compiled script, or what building it raised. -/
theorem answer_result (world : World κ) (host : Host) (session : ClientSession κ)
    (script : Except Raised Text) :
    (world.answer host session script).2 =
      script.map fun text => ContentResult.fromBytes (host.compile (ensureNewline text)) := by
  cases script <;> rfl

/-- Discarding releases exactly the session's artifacts: an attachment goes if it is the client's
own and the session knows of it.

Proof: by induction on the artifacts that the session remembers. -/
theorem discard_attached (world : World κ) (now : Nat) (session : ClientSession κ)
    (key owner : Text) :
    (world.discardSession now session).downloads.Attached key owner ↔
      world.downloads.Attached key owner ∧
        ¬(owner = session.clientId.text ∧ session.downloadArtifacts.Has key) := by
  have released : ∀ (keys : List Text) (downloads : DownloadJobStore),
      (keys.foldl (fun downloads artifactKey =>
        downloads.release now artifactKey session.clientId.text) downloads).Attached key owner ↔
      downloads.Attached key owner ∧ ¬(owner = session.clientId.text ∧ key ∈ keys) := by
    intro keys
    induction keys with
    | nil => simp
    | cons first rest inductionHypothesis =>
      intro downloads
      rw [List.foldl_cons, inductionHypothesis, DownloadJobStore.release_attached]
      simp only [List.mem_cons]
      tauto
  have listed : key ∈ session.downloadArtifacts.keys ↔ session.downloadArtifacts.Has key := by
    rw [Dict.mem_keys, TextSet.Has, Option.ne_none_iff_exists']
    constructor
    · rintro ⟨_, stored⟩
      exact stored
    · intro stored
      exact ⟨(), stored⟩
  rw [← listed]
  exact released session.downloadArtifacts.keys world.downloads

/-- What running handler code leaves: the session settled by the end of the code, a token drawn when
a script was issued, and the attachments that the code left less those of a discarded session. -/
structure Ran (world : World κ) (host : Host) (session : ClientSession κ) (left : HandleState κ)
    (codeEnd : CodeEnd κ) (after : World κ) : Prop where
  leaves : world.Leaves after session.clientId
    (left.session.settle (host.token world.tokensDrawn) codeEnd)
  tokens : after.tokensDrawn = world.tokensDrawn + codeEnd.issues.toNat
  attached : ∀ key owner, after.downloads.Attached key owner ↔
    left.downloads.Attached key owner ∧
      (left.session.settle (host.token world.tokensDrawn) codeEnd = none →
        ¬(owner = session.clientId.text ∧ left.session.downloadArtifacts.Has key))

/-- Storing what a helper call or a foreign object makes of the session. Only the session of the
client and the streams change here; what the handler has done to the downloads and the files is in
the world already. -/
theorem instruction_ran (world : World κ) (host : Host) (now : Nat) (session : ClientSession κ)
    (left : HandleState κ) (keyed : left.session.clientId = session.clientId) (awaited : Awaited)
    (next : κ) :
    world.Ran host session left (.awaited awaited next)
      (resultFromInstruction
        { world with downloads := left.downloads, files := left.files } host now
        { left.session with handler := some (.suspended next awaited.point) } awaited).1 := by
  cases awaited with
  | foreign =>
    simp only [resultFromInstruction, Awaited.instruction]
    refine ⟨put_leaves _ _ ?_ _ _ ?_, rfl, fun key owner => ?_⟩
    · exact ⟨rfl, rfl, rfl⟩
    · exact keyed
    · simp [putSession, ClientSession.settle]
  | execRecv request built =>
    obtain ⟨script, size, final, keys, offset, made⟩ := built
    have sized := (exec_recv_expects _ _ _ _ _ _ made).2
    simp only [resultFromInstruction, Awaited.instruction, sized, answer_world]
    refine ⟨?_, rfl, fun key owner => ?_⟩
    · simp only [ClientSession.settle, sized, Option.getD_some]
      refine put_leaves _ _ ?_ _ _ ?_
      · exact ⟨rfl, rfl, rfl⟩
      · exact keyed
    · simp [putSession, ClientSession.settle]
  | exec request built =>
    obtain ⟨script, final, keys, made⟩ := built
    have sized := exec_expects _ _ _ _ made
    simp only [resultFromInstruction, Awaited.instruction, sized]
    cases last : request.final with
    | true =>
      simp only [if_true]
      refine ⟨?_, by simp [discardSession, CodeEnd.issues, last], fun key owner => ?_⟩
      · simp only [ClientSession.settle, last, if_true]
        refine discard_leaves _ _ ?_ _ _ _ ?_
        · exact ⟨rfl, rfl, rfl⟩
        · exact keyed
      · rw [discard_attached]
        simp [ClientSession.settle, last, keyed]
    | false =>
      simp only [Bool.false_eq_true, if_false, answer_world]
      refine ⟨?_, by simp [putSession, CodeEnd.issues, last], fun key owner => ?_⟩
      · simp only [ClientSession.settle, last, Bool.false_eq_true, if_false]
        refine put_leaves _ _ ?_ _ _ ?_
        · exact ⟨rfl, rfl, rfl⟩
        · exact keyed
      · simp [putSession, ClientSession.settle, last]

/-- Handler code runs once, and the session is settled by its end. The code itself is opaque here:
the cases are those of how it ended. -/
theorem run_handler_ran (world : World κ) (provider : Provider κ) (now : Nat) (schedule : Schedule)
    (session : ClientSession κ) (state : κ) (resumption : Resumption) (left : HandleState κ)
    (codeEnd : CodeEnd κ)
    (code : (provider.resume state resumption).run provider.host now schedule
      ⟨session, world.downloads, world.files⟩ = (left, codeEnd)) :
    (world.runHandler provider now schedule session state resumption).resumed =
        some (resumption, codeEnd) ∧
      world.Ran provider.host session left codeEnd
        (world.runHandler provider now schedule session state resumption).world := by
  have keyed : left.session.clientId = session.clientId := by
    obtain ⟨env, artifacts, kept⟩ := Code.run_session provider.host now
      (provider.resume state resumption) schedule ⟨session, world.downloads, world.files⟩
    rw [code] at kept
    rw [kept]
  simp only [runHandler, code]
  cases codeEnd with
  | returned =>
    refine ⟨rfl, discard_leaves _ _ ?_ _ _ _ ?_, rfl, fun key owner => ?_⟩
    · exact ⟨rfl, rfl, rfl⟩
    · exact keyed
    · rw [discard_attached]
      simp [ClientSession.settle, keyed]
  | raised error =>
    by_cases expected : error.cls = .receiveFailedError
    · simp only [expected, if_true]
      refine ⟨trivial, ?_, rfl, fun key owner => ?_⟩
      · simp only [ClientSession.settle, expected, if_true]
        refine discard_leaves _ _ ?_ _ _ _ ?_
        · exact ⟨rfl, rfl, rfl⟩
        · exact keyed
      · rw [discard_attached]
        simp [ClientSession.settle, expected, keyed]
    · simp only [expected, if_false]
      refine ⟨trivial, ?_, rfl, fun key owner => ?_⟩
      · simp only [ClientSession.settle, expected, if_false]
        refine put_leaves _ _ ?_ _ _ ?_
        · exact ⟨rfl, rfl, rfl⟩
        · exact keyed
      · simp [putSession, ClientSession.settle, expected]
  | awaited awaited next =>
    exact ⟨rfl, instruction_ran world provider.host now session left keyed awaited next⟩

end World

end UbootTftp
