import UbootTftp.ClosedLoops

/-!
# What a client in a loop gets to do

Each event of the client keeps its place and the state of the server together: the first request
opens the session, the report of the shell and the continuations make the rounds of the handler,
and an upload is opened, filled and recorded for the call that waits for it. Over a run this is
a conversation.
-/

namespace UbootTftp

namespace TestClient

universe u v
variable {κ : Type u} {δ : Type v}

/-- What holds at the first request and is kept by the steps of both sides, from sound worlds, holds
over a run.

Proof: by induction on the run. That the world stays sound is carried along, as both kinds of steps
are steps of the server. -/
theorem joint_invariant (server : DynamicContentServer κ) (flow : FlowClient δ) (client : ClientId)
    (first : δ) (remote : Text) (files : FileTree) (before : List Event)
    (holds : World κ → Standing δ → Prop)
    (begun : holds (server.after files before) (flow.begin first remote))
    (others : ∀ world standing event, world.Sound server.provider.host →
      Foreign client world event → holds world standing → holds (server.step world event) standing)
    (own : ∀ world standing next event, world.Sound server.provider.host →
      flow.Acts server world standing event next → holds world standing →
      holds (server.step world event) next)
    (world : World κ) (standing : Standing δ)
    (run : Relation.ReflTransGen (Together flow server client)
      (server.after files before, flow.begin first remote) (world, standing)) :
    world.Sound server.provider.host ∧ holds world standing := by
  generalize reached : (world, standing) = joint at run
  induction run generalizing world standing with
  | refl =>
    cases reached
    exact ⟨after_sound server files before, begun⟩
  | tail _ step inductionHypothesis =>
    cases step with
    | other world standing event foreign =>
      cases reached
      obtain ⟨sound, held⟩ := inductionHypothesis world standing rfl
      exact ⟨step_sound server world event sound,
        others world standing event sound foreign held⟩
    | own world earlier _ event acts =>
      cases reached
      obtain ⟨sound, held⟩ := inductionHypothesis world earlier rfl
      exact ⟨step_sound server world event sound, own world earlier _ event sound acts held⟩

section Answers

variable {server : DynamicContentServer κ} {flow : FlowClient δ} {client : ClientId}
  {opening : ContentRequest} {parsed : ParsedPath} {cmdtftp cmdtftpput rambase : Text}
  (probing : Probing server flow client opening parsed cmdtftp cmdtftpput rambase)
include probing

/-- The first request opens the session and is answered with the probe. The client goes on with
what the probe asks it to report, unless it has no more rounds or cannot read the image. -/
theorem Probing.first_answer (world : World κ) (sound : world.Sound server.provider.host)
    (first : δ) (event : Event) (next : Standing δ)
    (acts : flow.Acts server world (.asking 1 first opening.filename) event next) :
    ∃ text, appendContinue hushProbeScript (openedSession server.provider opening parsed client
        (server.provider.host.token world.tokensDrawn) : ClientSession κ) none [hushKey] =
          .ok text ∧
      (server.step world event).sessions.get client = some (openedSession server.provider opening
        parsed client (server.provider.host.token world.tokensDrawn)) ∧
      (next = .asking 2 (flow.update (ensureNewline text) first)
          (continuePath client (server.provider.host.token world.tokensDrawn) none [hushKey]
            (flow.reported (flow.update (ensureNewline text) first))) ∨
        next = .stopped ∧ (flow.rounds ≤ 1 ∨
          readScript (server.provider.host.compile (ensureNewline text)) = none)) := by
  obtain ⟨now, schedule, rfl, stands⟩ := asking_acts server flow world 1 first _ event next acts
  have same : (⟨opening.filename, flow.peer⟩ : ContentRequest) = opening := by
    rw [← probing.peer]
  rw [same] at stands ⊢
  obtain ⟨stored, result⟩ := fetch_started server world now schedule opening sound probing.starts
  have plain := probing.plain world.tokensDrawn
  have stripped : Text.rstrip hushProbeScript = hushProbeScript := by decide +kernel
  have inert : Inert hushProbeScript := by decide +kernel
  obtain ⟨request, text, made, written, read⟩ := exec_read plain probing.targetless flow.isWord
    probing.solid (.text hushProbeScript) inert [hushKey] (by decide +kernel) []
  cases exec_request _ _ _ request made
  have probed : appendContinue hushProbeScript (openedSession server.provider opening parsed client
      (server.provider.host.token world.tokensDrawn) : ClientSession κ) none [hushKey] =
        .ok text := by
    rw [← written]
    simp only [sentScript, joinScriptLines, stripped]
    rfl
  rw [probed] at result
  refine ⟨text, probed, ?_, ?_⟩
  · rw [DynamicContentServer.step_read_request]
    exact stored
  have received : next = flow.receive 1 first
      (server.provider.host.compile (ensureNewline text)) := by
    rcases stands with ⟨content, given, rfl⟩ | ⟨refused, -⟩
    · cases result.symm.trans given
      rfl
    · exact absurd result (refused _)
  rcases probing.received 1 first (ensureNewline text) with followed | ⟨failed, stopped⟩
  · have chosen : (chooseRemote (execActions (openedSession server.provider opening parsed client
          (server.provider.host.token world.tokensDrawn) : ClientSession κ)
        (server.provider.host.token world.tokensDrawn) cmdtftp [hushKey]) none).map
          (flow.substitute (flow.update (ensureNewline text) first)) =
        some (continuePath client (server.provider.host.token world.tokensDrawn) none [hushKey]
          (flow.reported (flow.update (ensureNewline text) first))) :=
      congrArg some (probing.substitutes.continued _ client _ none [hushKey] plain.urlSafe
        (by decide) (by decide +kernel))
    rw [received, followed, FlowClient.follow, read]
    simp only [execActions] at chosen
    simp only [execActions, if_true, FlowClient.goOn, chosen]
    by_cases more : 1 < flow.rounds
    · rw [if_pos more]
      exact .inl rfl
    · rw [if_neg more]
      exact .inr ⟨rfl, .inl (Nat.le_of_not_lt more)⟩
  · rw [received, stopped]
    exact .inr ⟨rfl, .inr failed⟩

/-- A continuation with what the client reports is accepted, and brings the reports. The keys are
none of the session's own, so what is reported cannot change the settings, and its values are plain,
so they survive the path. -/
theorem Probing.accepted (world : World κ) (session : ClientSession κ)
    (stored : world.sessions.get client = some session) (draw : Nat)
    (current : session.currentToken = some (server.provider.host.token draw)) (status : Option Text)
    (written : status ∈ recvStatuses) (keys : List Text) (words : ∀ key ∈ keys, Word key)
    (free : ∀ key ∈ keys, key ≠ tokenKey ∧ key ≠ recvKey ∧ key ∉ hiddenKeys) (device : δ)
    (plainly : ∀ key ∈ keys, Plain (flow.reported device key)) :
    ∃ again, world.Accepts (continuePath client (server.provider.host.token draw) status keys
        (flow.reported device)) again client session ∧
      again.values.get recvKey = status ∧
      Reports flow device keys session (session.continued again) ∧
      ∀ key ∈ hiddenKeys, (session.continued again).env.get key = session.env.get key := by
  obtain ⟨again, parse, names, token, received, carries⟩ := continue_values client
    (server.provider.host.token draw) (probing.urlSafe.plain draw) status written keys words free
    (flow.reported device) plainly
  have reports := continued_reports flow device session keys free again carries
  refine ⟨again, ⟨parse, names, by simp [isContinuation, token], stored, token.trans current.symm⟩,
    received, reports, fun key hidden => ?_⟩
  rw [reports.env, if_neg fun inside => (free key inside).2.2 hidden]

end Answers

section Steps

variable {server : DynamicContentServer κ} {flow : FlowClient δ} {client : ClientId}
  {opening : ContentRequest} {parsed : ParsedPath} {first : δ}
  {cmdtftp cmdtftpput rambase : Text}
  (setting : Setting server flow client opening parsed first cmdtftp cmdtftpput rambase)
include setting

/-- The first request opens the session. -/
theorem Setting.step_unasked (world : World κ) (sound : world.Sound server.provider.host)
    (event : Event) (next : Standing δ)
    (acts : flow.Acts server world (.asking 1 first opening.filename) event next) :
    Corresponds server flow client opening parsed first cmdtftp cmdtftpput rambase
      (server.step world event) next := by
  obtain ⟨text, probed, stored, goes⟩ := setting.first_answer world sound first event next acts
  rcases goes with rfl | ⟨rfl, spent | failed⟩
  · exact .greeted 2 world.tokensDrawn text probed stored
  · exact .stopped (.spent 1 spent)
  · exact .stopped (.unread _ failed)

/-- The report of the shell is accepted. That the shell is the right one is asked of the client, not
of the server: a client that reports something else leaves this run. -/
theorem Setting.greeting (world : World κ) (draw : Nat) (text : Text)
    (probed : appendContinue hushProbeScript (openedSession server.provider opening parsed client
      (server.provider.host.token draw) : ClientSession κ) none [hushKey] = .ok text)
    (stored : world.sessions.get client = some
      (openedSession server.provider opening parsed client (server.provider.host.token draw))) :
    ∃ again, world.Accepts (continuePath client (server.provider.host.token draw) none [hushKey]
        (flow.reported (flow.update (ensureNewline text) first))) again client
        (openedSession server.provider opening parsed client (server.provider.host.token draw)) ∧
      Reports flow (flow.update (ensureNewline text) first) [hushKey]
        (openedSession server.provider opening parsed client (server.provider.host.token draw))
        ((openedSession server.provider opening parsed client (server.provider.host.token draw) :
          ClientSession κ).continued again) ∧
      flow.reported (flow.update (ensureNewline text) first) hushKey = "true".toList ∧
      ∀ key ∈ hiddenKeys, ((openedSession server.provider opening parsed client
          (server.provider.host.token draw) : ClientSession κ).continued again).env.get key =
        (openedSession server.provider opening parsed client
          (server.provider.host.token draw) : ClientSession κ).env.get key := by
  have shell := setting.greets draw text probed
  have words : ∀ key ∈ [hushKey], Word key := by decide +kernel
  have free : ∀ key ∈ [hushKey], key ≠ tokenKey ∧ key ≠ recvKey ∧ key ∉ hiddenKeys := by
    decide +kernel
  have plainly : ∀ key ∈ [hushKey],
      Plain (flow.reported (flow.update (ensureNewline text) first) key) := by
    intro key member
    rw [List.mem_singleton.mp member, shell]
    decide
  obtain ⟨again, accepts, -, reports, hidden⟩ := setting.accepted world _ stored draw rfl none
    (by decide) [hushKey] words free (flow.update (ensureNewline text) first) plainly
  exact ⟨again, accepts, reports, shell, hidden⟩

/-- The report of the shell makes the first round. The handler is created there and runs for the
first time, and the conversation begins with that round. -/
theorem Setting.step_greeted (world : World κ) (sound : world.Sound server.provider.host)
    (round draw : Nat) (text : Text)
    (probed : appendContinue hushProbeScript (openedSession server.provider opening parsed client
      (server.provider.host.token draw) : ClientSession κ) none [hushKey] = .ok text)
    (stored : world.sessions.get client = some
      (openedSession server.provider opening parsed client (server.provider.host.token draw)))
    (event : Event) (next : Standing δ)
    (acts : flow.Acts server world (.asking round (flow.update (ensureNewline text) first)
      (continuePath client (server.provider.host.token draw) none [hushKey]
        (flow.reported (flow.update (ensureNewline text) first)))) event next) :
    Corresponds server flow client opening parsed first cmdtftp cmdtftpput rambase
      (server.step world event) next := by
  obtain ⟨now, schedule, rfl, stands⟩ := asking_acts server flow world round _ _ event next acts
  obtain ⟨again, accepts, reports, shell, hidden⟩ := setting.greeting world draw text probed stored
  have reported : ((openedSession server.provider opening parsed client
      (server.provider.host.token draw) : ClientSession κ).continued again).env.get hushKey =
        some "true".toList := by
    rw [reports.env, if_pos (by simp), shell]
  have plain := (setting.plain draw).retoken (server.provider.host.token world.tokensDrawn)
    (setting.urlSafe world.tokensDrawn)
  cases entry : server.provider.module (routeFor server.provider.config client).entryFunc with
  | async start =>
    have made : createHandler server.provider
        { (openedSession server.provider opening parsed client
          (server.provider.host.token draw) : ClientSession κ).continued again with
          preflightPending := false }
        ⟨continuePath client (server.provider.host.token draw) none [hushKey]
          (flow.reported (flow.update (ensureNewline text) first)), flow.peer⟩ =
        .ok (.suspended (start ⟨server.provider.host.staticRoot, client.text,
          commandFromSegments parsed.segments, parsed,
          ⟨continuePath client (server.provider.host.token draw) none [hushKey]
            (flow.reported (flow.update (ensureNewline text) first)), flow.peer⟩⟩) .created) := by
      have named : (openedSession server.provider opening parsed client
        (server.provider.host.token draw) : ClientSession κ).clientId = client := rfl
      have asked : (openedSession server.provider opening parsed client
        (server.provider.host.token draw) : ClientSession κ).requests = [parsed] := rfl
      simp only [createHandler, ClientSession.continued_client_id, named,
        ClientSession.continued_requests, asked, List.singleton_append, entry]
    have enters : Enters server.provider
        ⟨continuePath client (server.provider.host.token draw) none [hushKey]
          (flow.reported (flow.update (ensureNewline text) first)), flow.peer⟩ again _ _ _ _ :=
      .begun _ rfl reported made
    refine setting.entered world sound round now schedule _ _ again _ _ _ _ accepts enters plain
      hidden ?_ next stands
    refine ⟨_, .begun start _ draw text _ entry rfl rfl rfl probed
      ⟨reports.clientId, reports.serverIp, reports.env, reports.publicEnv⟩ rfl, .refl⟩
  | _ =>
    have refused : ∃ raised, createHandler server.provider
        { (openedSession server.provider opening parsed client
          (server.provider.host.token draw) : ClientSession κ).continued again with
          preflightPending := false }
        ⟨continuePath client (server.provider.host.token draw) none [hushKey]
          (flow.reported (flow.update (ensureNewline text) first)), flow.peer⟩ =
        .error raised := by
      have named : (openedSession server.provider opening parsed client
        (server.provider.host.token draw) : ClientSession κ).clientId = client := rfl
      have asked : (openedSession server.provider opening parsed client
        (server.provider.host.token draw) : ClientSession κ).requests = [parsed] := rfl
      simp only [createHandler, ClientSession.continued_client_id, named,
        ClientSession.continued_requests, asked, List.singleton_append, entry, Except.error.injEq,
        exists_eq']
    obtain ⟨raised, refused⟩ := refused
    have failed : (world.fetch server.provider now schedule
        ⟨continuePath client (server.provider.host.token draw) none [hushKey]
          (flow.reported (flow.update (ensureNewline text) first)), flow.peer⟩).result =
        .error raised := by
      rw [accepts.fetch server.provider now schedule, World.continue_session_eq]
      have pending : ((openedSession server.provider opening parsed client
          (server.provider.host.token draw) : ClientSession κ).continued again).preflightPending =
            true := by simp [openedSession]
      rw [if_pos pending]
      simp only [reported, ne_eq, not_true_eq_false, if_false, refused]
    rcases stands with ⟨content, result, -⟩ | ⟨-, rfl⟩
    · cases failed.symm.trans result
    · exact .stopped (.unmade fun start same => by cases entry.symm.trans same)

/-- What the client reports after a call can be carried by a path. -/
theorem Setting.call_plain {call : Call κ δ}
    (stands : call.Stands server.provider flow client opening parsed first cmdtftp cmdtftpput
      rambase) :
    ∀ key ∈ call.request.returnKeys, Plain (flow.reported (call.after flow) key) := by
  obtain ⟨draw, drawn⟩ := stands.drawn
  obtain ⟨name, named⟩ := stands.named
  exact setting.plainly _ _ _ _ _ draw name _ stands.converses stands.plays stands.asks
    (drawn ▸ named ▸ stands.written)

/-- The continuation of an `exec` makes the round behind it. The token in it is that of the session,
because nobody else has changed the session since the script was sent. -/
theorem Setting.step_waiting (world : World κ) (sound : world.Sound server.provider.host)
    (round : Nat) (call : Call κ δ)
    (stands : call.Stands server.provider flow client opening parsed first cmdtftp cmdtftpput
      rambase)
    (built : ∃ script final keys, UbootTftp.exec script final keys = .ok call.request)
    (executes : call.awaited = .exec call.request built) (more : call.request.final = false)
    (stored : world.sessions.get client = call.session) (event : Event) (next : Standing δ)
    (acts : flow.Acts server world
      (.asking round (call.after flow) (call.continuation flow client none)) event next) :
    Corresponds server flow client opening parsed first cmdtftp cmdtftpput rambase
      (server.step world event) next := by
  obtain ⟨now, schedule, rfl, answer⟩ := asking_acts server flow world round _ _ event next acts
  obtain ⟨draw, drawn⟩ := stands.drawn
  let session : ClientSession κ := { call.left.session with
    handler := some (.suspended call.next .inExec)
    currentToken := some call.token
    phase := .awaitRrq }
  have settled : world.sessions.get client = some session :=
    stored.trans (call.executing built executes more)
  obtain ⟨again, accepts, -, reports, hidden⟩ := setting.accepted world session settled draw
    (congrArg some drawn) none (by decide) call.request.returnKeys stands.understood.words
    stands.understood.free (call.after flow) (setting.call_plain stands)
  rw [← drawn] at accepts
  have enters : Enters server.provider ⟨call.continuation flow client none, flow.peer⟩ again session
      call.next .inExec .execReturned := .resumed call.next .inExec stands.passed rfl
  have plain : PlainSession session (server.provider.host.token world.tokensDrawn) cmdtftp cmdtftpput
      rambase :=
    (stands.plain.moved session rfl rfl).retoken _ (setting.urlSafe world.tokensDrawn)
  refine setting.entered world sound round now schedule _ _ again session call.next .inExec
    .execReturned accepts enters plain hidden ?_ next answer
  refine stands.called _ ⟨reports.clientId, reports.serverIp, reports.env, reports.publicEnv⟩ ?_
  rw [executes]
  exact .exec call.request built more

/-- The upload of an `exec_recv` is opened. The session waits for exactly this name, so the server
takes it for an upload and does not look for a file of that name. -/
theorem Setting.step_putting (world : World κ) (round : Nat) (call : Call κ δ)
    (stands : call.Stands server.provider flow client opening parsed first cmdtftp cmdtftpput
      rambase)
    (built : ∃ script size final keys offset,
      UbootTftp.execRecv script size final keys offset = .ok call.request)
    (receives : call.awaited = .execRecv call.request built) (size : Int)
    (sized : call.request.receiveSize = some size)
    (read : parseFlowActions flow.isWord (ensureNewline call.text) =
      some (receiveActions call.left.session call.token cmdtftp cmdtftpput size
        call.request.returnKeys))
    (stored : world.sessions.get client = call.session) (event : Event) (next : Standing δ)
    (acts : flow.Acts server world (.putting round (call.after flow)
      (receiveActions call.left.session call.token cmdtftp cmdtftpput size call.request.returnKeys)
      ⟨cmdtftpput, call.left.session.serverIp, uploadPath client call.token, size⟩ []) event next) :
    Corresponds server flow client opening parsed first cmdtftp cmdtftpput rambase
      (server.step world event) next := by
  obtain ⟨draw, drawn⟩ := stands.drawn
  have safe : Plain call.token := drawn ▸ setting.urlSafe.plain draw
  have kept := setting.substitutes.uploaded (call.after flow) client call.token stands.plain.urlSafe
  have waits := stored.trans (call.receiving built receives size sized)
  have expected : InMemoryUploadStore.expected world.sessions (uploadPath client call.token) = _ :=
    upload_expected safe waits _ rfl rfl rfl
  have handed : (server.uploadRequest (handedPath server.provider.host
      (uploadPath client call.token)) flow.peer).filename = uploadPath client call.token :=
    upload_name_handed server.provider.host setting.rooted client call.token safe
  obtain ⟨named, parse, names, -, -⟩ := @upload_path_parsed client call.token safe
  have opened : server.openUpload world (handedPath server.provider.host
      (uploadPath client call.token)) flow.peer =
      ({ world with handles := world.handles ++ [.capturing ⟨server.uploadRequest
        (handedPath server.provider.host (uploadPath client call.token)) flow.peer, [], false⟩] },
        .ok (some (.capturing ⟨server.uploadRequest (handedPath server.provider.host
          (uploadPath client call.token)) flow.peer, [], false⟩))) := by
    have outcome := world.open_upload_cases server (handedPath server.provider.host
      (uploadPath client call.token)) flow.peer
    generalize server.openUpload world (handedPath server.provider.host
      (uploadPath client call.token)) flow.peer = result at outcome
    have bare : ∀ again, ¬Bare (uploadPath client call.token) again := by
      rintro again ⟨parseAgain, unnamed⟩
      cases parse.symm.trans parseAgain
      rw [names] at unnamed
      cases unnamed
    cases outcome with
    | captured again other waiting parseAgain names passed => rfl
    | malformed raised failed => cases (handed ▸ failed).symm.trans parse
    | unexpected again other raised parseAgain names refused =>
      rw [handed] at refused
      cases refused.symm.trans expected
    | unresolved again raised unnamed => exact absurd (handed ▸ unnamed) (bare again)
    | obstructed again target raised unnamed => exact absurd (handed ▸ unnamed) (bare again)
    | directory again target unnamed => exact absurd (handed ▸ unnamed) (bare again)
    | disk again target unnamed => exact absurd (handed ▸ unnamed) (bare again)
  cases acts with
  | opened _ _ _ _ _ file answer =>
    simp only [kept, DynamicContentServer.step, opened]
    refine .sending round call stands built receives size sized read ?_ _ _ [] _ handed ?_ rfl
    · exact stored
    · simp
  | unopened _ _ _ _ _ answer =>
    rw [kept, opened] at answer
    exact absurd rfl (answer _)

/-- A chunk is added to the upload; after the last one it is recorded for the session. The chunks
add up to the payload that the device hands out, whatever their number and sizes are. -/
theorem Setting.step_sending (world : World κ) (round : Nat) (call : Call κ δ)
    (stands : call.Stands server.provider flow client opening parsed first cmdtftp cmdtftpput
      rambase)
    (built : ∃ script size final keys offset,
      UbootTftp.execRecv script size final keys offset = .ok call.request)
    (receives : call.awaited = .execRecv call.request built) (size : Int)
    (sized : call.request.receiveSize = some size)
    (read : parseFlowActions flow.isWord (ensureNewline call.text) =
      some (receiveActions call.left.session call.token cmdtftp cmdtftpput size
        call.request.returnKeys))
    (stored : world.sessions.get client = call.session) (handle : Nat) (request : UploadRequest)
    (sent left : Bytes) (named : request.filename = uploadPath client call.token)
    (held : world.handles[handle]? = some (.capturing ⟨request, sent, false⟩))
    (whole : sent ++ left = flow.payload (call.after flow)
      ⟨cmdtftpput, call.left.session.serverIp, uploadPath client call.token, size⟩)
    (event : Event) (next : Standing δ)
    (acts : flow.Acts server world (.sending round (call.after flow)
      (receiveActions call.left.session call.token cmdtftp cmdtftpput size call.request.returnKeys)
      [] handle left) event next) :
    Corresponds server flow client opening parsed first cmdtftp cmdtftpput rambase
      (server.step world event) next := by
  obtain ⟨draw, drawn⟩ := stands.drawn
  have safe : Plain call.token := drawn ▸ setting.urlSafe.plain draw
  have inside := (List.getElem?_eq_some_iff.mp held).1
  have collects (chunk : Bytes) : world.write handle chunk =
      ({ world with
          handles := world.handles.set handle (.capturing ⟨request, sent ++ chunk, false⟩) },
        .ok ()) := by
    simp [World.write, held]
  cases acts with
  | wrote _ _ _ _ _ chunk left answer =>
    simp only [DynamicContentServer.step, collects]
    refine .sending round call stands built receives size sized read ?_ handle request
      (sent ++ chunk) left named ?_ (by rw [List.append_assoc]; exact whole)
    · exact stored
    · simp [inside]
  | unwritten _ _ _ _ _ chunk left answer =>
    rw [collects] at answer
    exact absurd rfl answer
  | closed =>
    have waits := stored.trans (call.receiving built receives size sized)
    have expected : InMemoryUploadStore.expected world.sessions request.filename = _ :=
      named ▸ upload_expected safe waits _ rfl rfl rfl
    have chosen : (chooseRemote (receiveActions call.left.session call.token cmdtftp cmdtftpput size
        call.request.returnKeys) (some "ok".toList)).map (flow.substitute (call.after flow)) =
        some (continuePath call.left.session.clientId call.token (some "ok".toList)
          call.request.returnKeys (flow.reported (call.after flow))) := by
      rw [success_remote]
      exact congrArg some (setting.substitutes.continued _ _ _ _ _ stands.plain.urlSafe (by decide)
        stands.understood.words)
    have closes : (world.close handle).1.sessions.get client = some { call.left.session with
        handler := some (.suspended call.next .inExecRecv)
        currentToken := some call.token
        pendingReceive := some ⟨call.token, "/upload.bin".toList, size, some sent⟩
        phase := .awaitUpload } := by
      simp only [World.close, held, Bool.false_eq_true, if_false, InMemoryUploadStore.record,
        expected]
      exact Dict.get_set_self _ _ _
    rw [List.append_nil] at whole
    simp only [FlowClient.putNext]
    rcases goes_on_or_ends server.provider flow client opening parsed first round
      (call.after flow) _ (some "ok".toList) _ chosen with
      same | ⟨ends, same⟩
    · rw [same, stands.keyed]
      refine .delivered (round + 1) call stands built receives size sized read _
        (call.receiving built receives size sized) ?_
      rw [← whole]
      exact closes
    · rw [same]
      exact .stopped ends

/-- The continuation of a successful upload makes the round behind it. What the handler receives
there is the payload itself, which the session has kept since the close of the upload. -/
theorem Setting.step_delivered (world : World κ) (sound : world.Sound server.provider.host)
    (round : Nat) (call : Call κ δ)
    (stands : call.Stands server.provider flow client opening parsed first cmdtftp cmdtftpput
      rambase)
    (built : ∃ script size final keys offset,
      UbootTftp.execRecv script size final keys offset = .ok call.request)
    (receives : call.awaited = .execRecv call.request built) (size : Int)
    (sized : call.request.receiveSize = some size)
    (read : parseFlowActions flow.isWord (ensureNewline call.text) =
      some (receiveActions call.left.session call.token cmdtftp cmdtftpput size
        call.request.returnKeys))
    (waiting : ClientSession κ) (settled : call.session = some waiting)
    (stored : world.sessions.get client = some { waiting with
      pendingReceive := some ⟨call.token, "/upload.bin".toList, size,
        some (flow.payload (call.after flow)
          ⟨cmdtftpput, call.left.session.serverIp, uploadPath client call.token, size⟩)⟩ })
    (event : Event) (next : Standing δ)
    (acts : flow.Acts server world (.asking round (call.after flow)
      (call.continuation flow client (some "ok".toList))) event next) :
    Corresponds server flow client opening parsed first cmdtftp cmdtftpput rambase
      (server.step world event) next := by
  obtain ⟨now, schedule, rfl, answer⟩ := asking_acts server flow world round _ _ event next acts
  obtain ⟨draw, drawn⟩ := stands.drawn
  rw [call.receiving built receives size sized] at settled
  cases settled
  let session : ClientSession κ := { call.left.session with
    handler := some (.suspended call.next .inExecRecv)
    currentToken := some call.token
    pendingReceive := some ⟨call.token, "/upload.bin".toList, size,
      some (flow.payload (call.after flow)
        ⟨cmdtftpput, call.left.session.serverIp, uploadPath client call.token, size⟩)⟩
    phase := .awaitUpload }
  obtain ⟨again, accepts, received, reports, hidden⟩ := setting.accepted world session stored draw
    (congrArg some drawn) (some "ok".toList) (by decide) call.request.returnKeys
    stands.understood.words stands.understood.free (call.after flow) (setting.call_plain stands)
  rw [← drawn] at accepts
  have enters : Enters server.provider
      ⟨call.continuation flow client (some "ok".toList), flow.peer⟩ again session call.next .inExecRecv
        (.received (flow.payload (call.after flow)
          ⟨cmdtftpput, call.left.session.serverIp, uploadPath client call.token, size⟩)) := by
    have value : Suspension.inExecRecv.resumption
        (session.pendingReceive.bind (receivedValue · again)) =
          .received (flow.payload (call.after flow)
            ⟨cmdtftpput, call.left.session.serverIp, uploadPath client call.token, size⟩) := by
      simp only [session, Option.bind_some, receivedValue, received, Option.getD_some, if_true,
        Suspension.resumption]
    rw [← value]
    exact .resumed call.next .inExecRecv stands.passed rfl
  have plain : PlainSession session (server.provider.host.token world.tokensDrawn) cmdtftp cmdtftpput
      rambase :=
    (stands.plain.moved session rfl rfl).retoken _ (setting.urlSafe world.tokensDrawn)
  refine setting.entered world sound round now schedule _ _ again session call.next .inExecRecv _
    accepts enters plain hidden ?_ next answer
  refine stands.called _ ⟨reports.clientId, reports.serverIp, reports.env, reports.publicEnv⟩ ?_
  rw [receives]
  exact .execRecv call.request built _ _ read (by rw [receiveActions, stands.keyed]) sized

/-- A step of somebody else changes nothing of what belongs together. The session, the upload that
is open and the streams of tokens are all that counts, and somebody else's step leaves the first two
as they are. -/
theorem Setting.step_other (world : World κ) (sound : world.Sound server.provider.host)
    (standing : Standing δ) (event : Event) (foreign : Foreign client world event)
    (corresponds : Corresponds server flow client opening parsed first cmdtftp cmdtftpput
      rambase world standing) :
    Corresponds server flow client opening parsed first cmdtftp cmdtftpput rambase
      (server.step world event) standing := by
  have kept := foreign_session server client world event sound foreign
  cases corresponds with
  | unasked => exact .unasked
  | greeted round draw text probed stored =>
    exact .greeted round draw text probed (kept.trans stored)
  | waiting round call stands built executes more stored =>
    exact .waiting round call stands built executes more (kept.trans stored)
  | putting round call stands built receives size sized read stored =>
    exact .putting round call stands built receives size sized read (kept.trans stored)
  | sending round call stands built receives size sized read stored handle request sent left named
      held whole =>
    obtain ⟨draw, drawn⟩ := stands.drawn
    have safe : Plain call.token := drawn ▸ setting.urlSafe.plain draw
    exact .sending round call stands built receives size sized read (kept.trans stored) handle
      request sent left named
      (foreign_upload server client world event sound foreign _ _ handle _
        (stored.trans (call.receiving built receives size sized)) rfl held
        (upload_is_for client call.token safe request named)) whole
  | delivered round call stands built receives size sized read session settled stored =>
    exact .delivered round call stands built receives size sized read session settled
      (kept.trans stored)
  | stopped ends => exact .stopped ends

/-- A step of the client keeps what belongs together. There is one case for each state of the
client, and each of them is a lemma above. -/
theorem Setting.step_own (world : World κ) (sound : world.Sound server.provider.host)
    (standing next : Standing δ) (event : Event)
    (acts : flow.Acts server world standing event next)
    (corresponds : Corresponds server flow client opening parsed first cmdtftp cmdtftpput
      rambase world standing) :
    Corresponds server flow client opening parsed first cmdtftp cmdtftpput rambase
      (server.step world event) next := by
  cases corresponds with
  | unasked => exact setting.step_unasked world sound event next acts
  | greeted round draw text probed stored =>
    exact setting.step_greeted world sound round draw text probed stored event next acts
  | waiting round call stands built executes more stored =>
    exact setting.step_waiting world sound round call stands built executes more stored event next
      acts
  | putting round call stands built receives size sized read stored =>
    exact setting.step_putting world round call stands built receives size sized read stored event
      next acts
  | sending round call stands built receives size sized read stored handle request sent left named
      held whole =>
    exact setting.step_sending world round call stands built receives size sized read stored handle
      request sent left named held whole event next acts
  | delivered round call stands built receives size sized read session settled stored =>
    exact setting.step_delivered world sound round call stands built receives size sized read session
      settled stored event next acts
  | stopped ends => cases acts

/-- What the server and the client do together keeps what belongs together.

Proof: by induction on the run; a step of the client is one of the steps above, and a step of
somebody else leaves the session and the client as they were. -/
theorem Setting.corresponds (files : FileTree) (before : List Event) (world : World κ)
    (standing : Standing δ)
    (run : Relation.ReflTransGen (Together flow server client)
      (server.after files before, flow.begin first opening.filename) (world, standing)) :
    world.Sound server.provider.host ∧
      Corresponds server flow client opening parsed first cmdtftp cmdtftpput rambase world
        standing := by
  apply joint_invariant server flow client first opening.filename files before _ _ _ _ world standing
    run
  · rw [FlowClient.begin]
    split
    · exact .unasked
    · rename_i unasked
      exact .stopped (.spent 0 (Nat.le_of_not_lt unasked))
  · exact fun world standing event sound foreign corresponds =>
      setting.step_other world sound standing event foreign corresponds
  · exact fun world standing next event sound acts corresponds =>
      setting.step_own world sound standing next event acts corresponds

end Steps

/-- The server and the client are in a conversation: while the client goes on, a handler in the
store is where the conversation has brought it, with the environments that it left there, and the
client's next request is one that continues the session; and the client has stopped only where the
conversation ends. -/
structure InConversation (server : DynamicContentServer κ) (flow : FlowClient δ)
    (client : ClientId) (opening : ContentRequest) (parsed : ParsedPath) (first : δ)
    (world : World κ) (standing : Standing δ) : Prop where
  handler : ∀ session state place, standing ≠ .asking 1 first opening.filename →
    standing ≠ .stopped → world.sessions.get client = some session →
    session.handler = some (.suspended state place) →
    ∃ turn left awaited, Converses server.provider flow client opening parsed first turn ∧
      server.provider.play turn.state turn.round = (left, .awaited awaited state) ∧
      awaited.point = place ∧ session.env = left.session.env ∧
      session.publicEnv = left.session.publicEnv
  expected : ∀ round device remote, standing = .asking round device remote →
    standing ≠ .asking 1 first opening.filename →
    ∃ again session, world.Accepts remote again client session
  stopped : standing = .stopped → Ends server.provider flow client opening parsed first

section Sample

/-- An image that is made holds its script. A script that is too long for the size field makes no
image at all, so nothing has to be assumed of its length. -/
theorem image_read (crc32 : Bytes → UInt32) (timestamp : Nat)
    (compiler : LegacyScriptImageCompiler) (timed : timestamp < 2 ^ 32) (text : Text) (image : Bytes)
    (made : compiler.compileText crc32 timestamp text = .ok image) : readScript image = some text := by
  by_cases bounded : (Utf8.encode text).length < 2 ^ 32 - 8
  · obtain ⟨again, remade, read⟩ := text_image_read crc32 timestamp compiler text bounded timed
    cases made.symm.trans remade
    rw [readScript, read]
    rfl
  · -- The size field of the header has no room for the payload.
    obtain ⟨payload, built, made⟩ := (Except.bind_eq_ok _ _ _).mp made
    obtain ⟨head, headed, joined⟩ := (Except.bind_eq_ok _ _ _).mp built
    obtain ⟨header, packed, -⟩ := (Except.bind_eq_ok _ _ _).mp made
    obtain ⟨numbers, numbered, -⟩ := (Except.bind_eq_ok _ _ _).mp packed
    cases joined
    have eight : head.length = 8 := by
      simp only [packNumbers] at headed
      split at headed
      · cases headed
        rfl
      · cases headed
    simp only [packNumbers] at numbered
    split at numbered
    · rename_i fits
      have size := fits (4, (head ++ Utf8.encode text).length) (by simp)
      simp only [List.length_append, eight] at size
      omega
    · cases numbered

/-- A host that makes images, with one token and one name. -/
def imagingHost : Host :=
  { sampleHost with
    token := fun _ => ['t']
    hexToken := fun _ => ['h']
    compile := fun script => ((LegacyScriptImageCompiler.compileText (fun _ => 0) 0
      ⟨"uboot-tftp".toList, .arm, .linux⟩ script).toOption).getD [] }

/-- A server whose handler receives one upload. -/
def imagingServer : DynamicContentServer Unit :=
  { sampleServer sampleEntry sampleReceive with
    provider := { (sampleServer sampleEntry sampleReceive).provider with host := imagingHost } }

/-- A client with a hush shell that sends sevens. -/
def hushClient : FlowClient Unit where
  isWord := isCommandChar
  peer := ("10.0.0.2".toList, 1069)
  rounds := 5
  update := fun _ state => state
  reported := fun _ => reportFrom (Dict.ofList [(hushKey, "true".toList)])
  substitute := fun _ name => substituteUbootVars name (Dict.ofList [(hushKey, "true".toList)])
  payload := fun _ upload => List.replicate upload.size.toNat 7

/-- The images of the host hold their scripts. A text that cannot be compiled has no image, and no
script is read of it. -/
theorem imaging_reads (text script : Text)
    (read : readScript (imagingHost.compile text) = some script) : script = text := by
  cases made : LegacyScriptImageCompiler.compileText (fun _ => 0) 0
      ⟨"uboot-tftp".toList, .arm, .linux⟩ text with
  | error refused =>
    simp only [imagingHost, made, Except.toOption, Option.getD_none] at read
    cases read
  | ok image =>
    have same := image_read _ 0 _ (by decide) text image made
    simp only [imagingHost, made, Except.toOption, Option.getD_some, same, Option.some.injEq] at read
    exact read.symm

/-- The sample server and the sample client meet what is asked of them. The client reports the right
shell and nothing else, and the images of the server hold the scripts that they are made of. -/
theorem imaging_setting : Setting imagingServer hushClient sampleClient (sampleRequest "id=cam")
    ⟨"id=cam".toList, some sampleClient, ['/'], [], Dict.empty⟩ () "tftpboot".toList
    "tftpput".toList "loadaddr".toList where
  urlSafe := fun _ => List.forall_mem_singleton.mpr (by decide)
  named := fun _ => List.forall_mem_singleton.mpr (by decide)
  rooted := List.forall_mem_singleton.mpr (by decide)
  reads := imaging_reads
  substitutes := env_substitutes _ _ (fun _ => rfl) fun _ _ => rfl
  starts := ⟨by decide +kernel, rfl, rfl⟩
  peer := rfl
  plain := fun _ =>
    { urlSafe := List.forall_mem_singleton.mpr (by decide)
      served := (by decide : "10.0.0.1".toList ≠ [])
      dotted := by
        have digits : "10.0.0.1".toList.all
          (fun character => character.isDigit || character == '.') = true := by decide
        intro character member
        simpa using List.all_eq_true.mp digits character member
      fetches := rfl
      fetching := by decide
      sends := rfl
      sending := by decide
      loads := rfl
      addressed := by decide
      braceless := by decide }
  clear := by decide
  solid := by decide
  greets := fun _ _ _ => rfl
  plainly := by
    intro turn left awaited next request draw name text _ plays asks _ key member
    cases started : turn.round.resumption with
    | started =>
      simp only [Provider.play, imagingServer, sampleServer, started, sampleReceive, Code.run] at plays
      cases plays
      cases asks
      cases member
    | _ =>
      simp only [Provider.play, imagingServer, sampleServer, started, sampleReceive, Code.run] at plays
      cases plays
  understood := by
    intro turn left awaited next _ plays
    cases started : turn.round.resumption with
    | started =>
      simp only [Provider.play, imagingServer, sampleServer, started, sampleReceive, Code.run] at plays
      cases plays
      exact ⟨_, rfl, by decide +kernel, by simp, by simp, by simp, by simp⟩
    | _ =>
      simp only [Provider.play, imagingServer, sampleServer, started, sampleReceive, Code.run] at plays
      cases plays

/-- The sample server and the sample client after some steps of the client. -/
def imagingJoint (steps : Nat) : World Unit × Standing Unit :=
  (hushClient.advance imagingServer)^[steps]
    (imagingServer.after Dict.empty [], hushClient.begin () (sampleRequest "id=cam").filename)

end Sample

end TestClient

end UbootTftp
