import UbootTftp.DistinctTokens
import UbootTftp.ReturnKeys

/-!
# The requests that a script carries

A script names the continuations of its session and, when it sends an upload, the upload.
Until the client starts anew or continues, nothing that happens at the server takes these
names back: the session stays as it was sent, up to the body of an upload. After a final
script nothing that was written for the client is accepted any more.
-/

namespace UbootTftp

universe u
variable {κ : Type u}

/-- What the server answers with a script: the start of a session or a helper call. -/
inductive Reply
  | preflight
  | exec (request : ExecutionRequest)
  | execRecv (request : ExecutionRequest)

/-- Whether the reply ends its session. -/
def Reply.isFinal : Reply → Bool
  | .exec request => request.final
  | _ => false

/-- The statuses that the reply's continuations report. -/
def Reply.statuses : Reply → List (Option Text)
  | .preflight => [none]
  | .exec _ => [none]
  | .execRecv _ => [some "ok".toList, some "failed".toList]

/-- The size of the upload that the reply waits for. -/
def Reply.receives : Reply → Option Int
  | .execRecv request => some (request.receiveSize.getD 0)
  | _ => none

/-- How the names of a reply stand in its script: one continuation, or an upload and a
continuation in either branch. -/
def Reply.Written (client : ClientId) (token script : Text) : Reply → Prop
  | .preflight => continuePath client token none [hushKey] expansion <:+: script
  | .exec request => continuePath client token none request.returnKeys expansion <:+: script
  | .execRecv request => ∃ success failure,
    uploadPath client token ++ "\";\nthen\n    ".toList ++ success ++ "\nelse\n    ".toList ++
        failure ++ "\nfi".toList <:+: script ∧
      continuePath client token (some "ok".toList) request.returnKeys expansion <:+: success ∧
      continuePath client token (some "failed".toList) request.returnKeys expansion <:+: failure

/-- The request was answered with a script for the client.

Each constructor names the reply by what was sent, so that a final `exec`, which carries no
continuation, is told from the others by its request. -/
inductive Replied (provider : Provider κ) (world : World κ) (request : ContentRequest) (now : Nat)
    (schedule : Schedule) (client : ClientId) (content : ContentResult) : Reply → Prop
  | preflight (parsed : ParsedPath) (starts : Starts request.filename parsed client)
      (answered : (world.fetch provider now schedule request).result = .ok content) :
      Replied provider world request now schedule client content .preflight
  | exec (parsed : ParsedPath) (session : ClientSession κ) (resumption : Resumption)
      (sent : ExecutionRequest)
      (built : ∃ script final keys, UbootTftp.exec script final keys = .ok sent) (next : κ)
      (accepts : world.Accepts request.filename parsed client session)
      (resumed : (world.fetch provider now schedule request).resumed =
        some (resumption, .awaited (.exec sent built) next))
      (answered : (world.fetch provider now schedule request).result = .ok content) :
      Replied provider world request now schedule client content (.exec sent)
  | execRecv (parsed : ParsedPath) (session : ClientSession κ) (resumption : Resumption)
      (sent : ExecutionRequest)
      (built : ∃ script size final keys offset,
        UbootTftp.execRecv script size final keys offset = .ok sent) (next : κ)
      (accepts : world.Accepts request.filename parsed client session)
      (resumed : (world.fetch provider now schedule request).resumed =
        some (resumption, .awaited (.execRecv sent built) next))
      (answered : (world.fetch provider now schedule request).result = .ok content) :
      Replied provider world request now schedule client content (.execRecv sent)

/-- A session without the body of an upload that it may have received. -/
def ClientSession.bodiless (session : ClientSession κ) : ClientSession κ :=
  { session with
    pendingReceive := session.pendingReceive.map fun pending => { pending with uploaded := none } }

/-- An event that is no start and no accepted continuation of the client. Requests of the client
with a stale token, its uploads and everything that other clients do are such events. -/
def Unanswered (client : ClientId) (world : World κ) (event : Event) : Prop :=
  ∀ request now schedule, event = .readRequest request now schedule →
    (∀ parsed, ¬Starts request.filename parsed client) ∧
      ∀ parsed session, ¬world.Accepts request.filename parsed client session

section Scripts

variable {client : ClientId} {session : ClientSession κ} {token : Text}

/-- The name of a continuation is not empty. -/
theorem continue_path_present (recvStatus : Option Text) (returnKeys : List Text)
    (report : Text → Text) : continuePath client token recvStatus returnKeys report ≠ [] := by
  rw [continuePath, sessionPath, continueSegments, List.cons_append, List.intercalate_cons_cons]
  simp

/-- A script with a continuation names it. The values of the requested keys are still expansions in
it. -/
theorem append_continue_path (script text : Text) (keyed : session.clientId = client)
    (current : session.currentToken = some token) (recvStatus : Option Text)
    (returnKeys : List Text)
    (built : appendContinue script session recvStatus returnKeys = .ok text) :
    continuePath client token recvStatus returnKeys expansion <:+: text := by
  obtain ⟨command, commanded, made⟩ := (Except.bind_eq_ok _ _ _).mp built
  cases made
  have named := command_path command keyed current commanded
  refine named.trans (Text.line_infix _ command (by simp) ?_)
  rintro rfl
  exact continue_path_present _ _ _ (List.infix_nil.mp named)

/-- The name of an upload ends in the path that a pending receive expects. -/
theorem upload_path_eq (client : ClientId) (token : Text) :
    uploadPath client token = "id=".toList ++ client.text ++ "/token=".toList ++ token ++
      "/upload.bin".toList := by
  simp [uploadPath, sessionPath, List.intercalate_cons_cons]

/-- A script with an upload names it before its two branches, and in each of them the
continuation with the branch's status. -/
theorem append_receive_names (script text tmpName : Text) (keyed : session.clientId = client)
    (current : session.currentToken = some token) (size : Int)
    (expecting : session.pendingReceive = some ⟨token, "/upload.bin".toList, size, none⟩)
    (request : ExecutionRequest) (offset : Option UbootNumber)
    (built : appendReceive script session tmpName request.returnKeys offset = .ok text) :
    (Reply.execRecv request).Written client token text := by
  simp only [appendReceive, expecting] at built
  obtain ⟨success, succeeds, built⟩ := (Except.bind_eq_ok _ _ _).mp built
  obtain ⟨failure, fails, built⟩ := (Except.bind_eq_ok _ _ _).mp built
  obtain ⟨⟨address, prelude, cleanup⟩, addressed, built⟩ := (Except.bind_eq_ok _ _ _).mp built
  obtain ⟨cmdtftpput, puts, built⟩ := (Except.bind_eq_ok _ _ _).mp built
  cases built
  refine ⟨success, failure, ?_, command_path success keyed current succeeds,
    command_path failure keyed current fails⟩
  refine List.IsInfix.trans ?_ (Text.line_infix _ _ (by simp only [List.mem_cons]; exact .inr (.inr (.inl rfl)))
    (by simp))
  rw [upload_path_eq, keyed]
  refine ⟨"if ".toList ++ cmdtftpput ++ ' ' :: address ++ ' ' :: Text.hex size ++ " \"".toList ++
    session.serverIp ++ [':'], [], ?_⟩
  simp only [List.append_assoc, List.cons_append, List.nil_append, List.append_nil]

end Scripts

section Replies

variable {world : World κ} {provider : Provider κ} {request : ContentRequest} {now : Nat}
  {schedule : Schedule} {client : ClientId} {content : ContentResult}

/-- A script was built for every answer that is one. -/
theorem answer_content (host : Host) (script : Except Raised Text)
    (answered : (script.map fun text => ContentResult.fromBytes (host.compile (ensureNewline text))) =
      .ok content) :
    ∃ text, script = .ok text ∧
      content = ContentResult.fromBytes (host.compile (ensureNewline text)) := by
  cases script with
  | error raised => cases answered
  | ok text =>
    cases answered
    exact ⟨text, rfl, rfl⟩

/-- A request after which the handler awaits something answers it and leaves the session
settled by it. -/
theorem World.Accepts.awaited {parsed : ParsedPath} {session : ClientSession κ}
    (accepts : world.Accepts request.filename parsed client session)
    (sound : world.Sound provider.host) {resumption : Resumption} {awaited : Awaited} {next : κ}
    (resumed : (world.fetch provider now schedule request).resumed =
      some (resumption, .awaited awaited next)) :
    ∃ left : HandleState κ, left.session.clientId = client ∧
      left.session.pendingReceive = none ∧
      (world.fetch provider now schedule request).result =
        (resultFromInstruction { world with downloads := left.downloads, files := left.files }
          provider.host now { left.session with handler := some (.suspended next awaited.point) }
          awaited).2 ∧
      (world.fetch provider now schedule request).world.sessions.get client =
        left.session.settle (provider.host.token world.tokensDrawn) (.awaited awaited next) := by
  obtain ⟨keyed, staged, -, -⟩ := sound.sessions client session accepts.stored
  rw [accepts.fetch provider now schedule] at resumed ⊢
  have continued := world.continue_cases provider now schedule request parsed session staged
  generalize world.continueSession provider now schedule request parsed session = outcome
    at continued resumed ⊢
  cases continued with
  | unsupported pending unreported => cases resumed
  | uncreated raised pending reported refused => cases resumed
  | unhandled passed missing => cases resumed
  | exhausted passed stopped => cases resumed
  | ran state point first enters =>
    cases code : (provider.resume state first).run provider.host now schedule
      ⟨session.entered parsed state point, world.downloads, world.files⟩ with
    | mk left codeEnd =>
    obtain ⟨env, artifacts, frame⟩ := Code.run_session provider.host now
      (provider.resume state first) schedule
      ⟨session.entered parsed state point, world.downloads, world.files⟩
    rw [code] at frame
    obtain ⟨shown, ran⟩ := World.run_handler_ran world provider now schedule
      (session.entered parsed state point) state first left codeEnd code
    cases shown.symm.trans resumed
    have named : (session.entered parsed state point).clientId = client := by
      simp [ClientSession.entered, keyed]
    refine ⟨left, by rw [frame]; exact named, by rw [frame]; rfl, ?_, (named ▸ ran.leaves).own⟩
    simp only [runHandler, code]

/-- What a reply that keeps its session leaves: a session with a new token, which its script names.
The script is part of it, so that the names are those of what the client really gets. -/
structure Sent (host : Host) (after : World κ) (client : ClientId) (content : ContentResult)
    (reply : Reply) (token script : Text) (sent : ClientSession κ) : Prop where
  stored : after.sessions.get client = some sent
  current : sent.currentToken = some token
  drawn : ∃ draw, token = host.token draw
  expects : sent.pendingReceive =
    reply.receives.map fun size => ⟨token, "/upload.bin".toList, size, none⟩
  content : content = ContentResult.fromBytes (host.compile (ensureNewline script))
  written : reply.Written client token script

/-- A reply leaves its session with the names of its script, or none after a final script,
which is the handler's own. -/
theorem Replied.leaves {reply : Reply} (sound : world.Sound provider.host)
    (replied : Replied provider world request now schedule client content reply) :
    (reply.isFinal = false ∧ ∃ token script sent,
        Sent provider.host (world.fetch provider now schedule request).world client content reply
          token script sent) ∨
      reply.isFinal = true ∧
        (world.fetch provider now schedule request).world.sessions.get client = none ∧
        ∃ helper, reply = .exec helper ∧ content = ContentResult.fromBytes
          (provider.host.compile (ensureNewline (Text.rstrip helper.script))) := by
  cases replied with
  | preflight parsed starts answered =>
    have fetched : world.fetch provider now schedule request =
        ⟨(world.startSession provider now request parsed client).1, none,
          (world.startSession provider now request parsed client).2⟩ := by
      simp [World.fetch, starts.parse, starts.names, starts.fresh]
    rw [fetched] at answered ⊢
    obtain ⟨leaves, -, -⟩ := world.start_opened provider now request parsed client
      fun existing stored => (sound.sessions client existing stored).keyed
    have probe : (world.startSession provider now request parsed client).2 =
        (appendContinue hushProbeScript (openedSession provider request parsed client
          (provider.host.token world.tokensDrawn)) none [hushKey]).map
            fun text => ContentResult.fromBytes (provider.host.compile (ensureNewline text)) := by
      simp only [World.startSession, World.preflightResult, World.answer_result]
      cases world.sessions.get client <;> rfl
    obtain ⟨script, built, shown⟩ := answer_content _ _ (probe.symm.trans answered)
    refine .inl ⟨rfl, provider.host.token world.tokensDrawn, script, _, leaves.own, rfl, ⟨_, rfl⟩, rfl,
      shown, ?_⟩
    exact append_continue_path _ script rfl rfl none [hushKey] built
  | exec parsed session resumption sent built next accepts resumed answered =>
    obtain ⟨left, keyed, idle, result, settled⟩ := accepts.awaited sound resumed
    obtain ⟨_, _, _, made⟩ := built
    have sized := exec_expects _ _ _ _ made
    rw [result] at answered
    simp only [World.resultFromInstruction, Awaited.instruction, sized] at answered
    cases final : sent.final with
    | true =>
      simp only [final, if_true] at answered
      cases answered
      refine .inr ⟨final, ?_, sent, rfl, rfl⟩
      rw [settled, ClientSession.settle, if_pos final]
    | false =>
      simp only [final, Bool.false_eq_true, if_false, World.answer_result] at answered
      obtain ⟨script, appended, shown⟩ := answer_content _ _ answered
      refine .inl ⟨final, provider.host.token world.tokensDrawn, script, { left.session with
          handler := some (.suspended next .inExec)
          currentToken := some (provider.host.token world.tokensDrawn)
          phase := .awaitRrq }, ?_, rfl, ⟨_, rfl⟩, idle, shown,
        append_continue_path _ script (by exact keyed) rfl none sent.returnKeys appended⟩
      rw [settled, ClientSession.settle, if_neg (by simp [final])]
  | execRecv parsed session resumption sent built next accepts resumed answered =>
    obtain ⟨left, keyed, idle, result, settled⟩ := accepts.awaited sound resumed
    obtain ⟨_, size, _, _, _, made⟩ := built
    have sized := (exec_recv_expects _ _ _ _ _ _ made).2
    rw [result] at answered
    simp only [World.resultFromInstruction, Awaited.instruction, sized, World.answer_result] at answered
    obtain ⟨script, appended, shown⟩ := answer_content _ _ answered
    refine .inl ⟨rfl, provider.host.token world.tokensDrawn, script, _, settled, rfl, ⟨_, rfl⟩, rfl,
      shown, ?_⟩
    exact append_receive_names _ script _ (by exact keyed) rfl size rfl sent sent.receiveOffset appended

end Replies

/-- A step that is no start and no accepted continuation of the client leaves its session as it
was, up to the body of an upload, or without one. -/
theorem unanswered_step (server : DynamicContentServer κ) (client : ClientId) (world : World κ)
    (event : Event) (sound : world.Sound server.provider.host)
    (unanswered : Unanswered client world event) :
    ((server.step world event).sessions.get client).map ClientSession.bodiless =
      (world.sessions.get client).map ClientSession.bodiless := by
  by_cases read : ∃ request now schedule, event = .readRequest request now schedule
  · obtain ⟨request, now, schedule, rfl⟩ := read
    obtain ⟨unstarted, unaccepted⟩ := unanswered request now schedule rfl
    rw [DynamicContentServer.step_read_request]
    rcases fetch_unaccepted world server.provider now schedule request sound client unaccepted with
      ⟨same, -⟩ | ⟨parsed, starts, -⟩
    · rw [same]
    · exact absurd starts (unstarted parsed)
  · rcases unread_step server world event (fun request now schedule same =>
      read ⟨request, now, schedule, same⟩) client with same | ⟨session, pending, body, stored, expecting, kept⟩
    · rw [same]
    · rw [kept, stored]
      simp [ClientSession.bodiless, expecting]

/-- Until the client starts anew or continues, its session stays as it was, up to the body of an
upload.

Proof: by induction on the events; each step leaves the session as it was or is the closing of an
upload that the session waits for. -/
theorem unanswered_run (server : DynamicContentServer κ) (client : ClientId) (world : World κ)
    (sound : world.Sound server.provider.host) (between : List Event)
    (unanswered : Runs.Guarded server.step (Unanswered client) world between) :
    ((Runs.run server.step world between).sessions.get client).map ClientSession.bodiless =
      (world.sessions.get client).map ClientSession.bodiless := by
  refine (Runs.guarded_invariant server.step (Unanswered client)
    (fun later => later.Sound server.provider.host ∧
      (later.sessions.get client).map ClientSession.bodiless =
        (world.sessions.get client).map ClientSession.bodiless)
    (fun later event unanswered ⟨sound, same⟩ => ?_) world ⟨sound, rfl⟩ between unanswered).2
  exact ⟨step_sound server later event sound,
    (unanswered_step server client later event sound unanswered).trans same⟩

section Names

variable {world : World κ} {client : ClientId} {session : ClientSession κ} {token : Text}

/-- The name of an upload belongs to its client, ends in the expected path and carries the
token. -/
theorem upload_path_parsed (plain : Plain token) :
    ∃ parsed, parseRequestPath (uploadPath client token) = .ok parsed ∧
      parsed.clientId = some client ∧ "/upload.bin".toList.isSuffixOf parsed.path = true ∧
      parsed.values.get "token".toList = some token := by
  have clean : ∀ segment ∈ ["token=".toList ++ token, "upload.bin".toList],
      segment ≠ [] ∧ '/' ∉ segment := by
    intro segment member
    rcases List.mem_cons.mp member with rfl | last
    · exact ⟨by simp, by simpa using plain.1⟩
    · rw [List.mem_singleton.mp last]
      decide
  have decoded : ["token=".toList ++ token, "upload.bin".toList].map unquote =
      ["token".toList ++ '=' :: token, "upload.bin".toList] := by
    have carried : unquote ("token=".toList ++ token) = "token".toList ++ '=' :: token := by
      rw [show "token=".toList ++ token = "token".toList ++ '=' :: token from rfl, unquote_entry,
        plain.unquoted, unquote, if_neg (by decide)]
    rw [List.map_cons, carried, List.map_singleton, unquote, if_neg (by decide)]
  have parsed := parse_session_path client _ clean
  rw [decoded, if_neg (by simp)] at parsed
  refine ⟨_, parsed, rfl, ?_, ?_⟩
  · rw [List.isSuffixOf_iff_suffix]
    exact ⟨"/token=".toList ++ token, by simp [joinPath, List.intercalate_cons_cons]⟩
  · obtain ⟨last, inside, found⟩ := key_values_named []
      ["token".toList ++ '=' :: token, "upload.bin".toList] "token".toList token (by decide)
      (by decide) (by simp)
    rcases List.mem_cons.mp inside with named | other
    · obtain ⟨-, rfl⟩ := entry_injective _ _ _ _ (by decide) (by decide) named
      exact found
    · have shape := congrArg ('=' ∈ ·) (List.mem_singleton.mp other)
      simp at shape

/-- The upload that a session waits for is accepted under the name that its script gives. -/
theorem upload_expected (plain : Plain token) (stored : world.sessions.get client = some session)
    (pending : PendingReceive) (expecting : session.pendingReceive = some pending)
    (named : pending.token = token) (path : pending.uploadPath = "/upload.bin".toList) :
    InMemoryUploadStore.expected world.sessions (uploadPath client token) =
      .ok (client, session, pending) := by
  obtain ⟨parsed, parse, names, suffix, value⟩ := upload_path_parsed plain
  refine (InMemoryUploadStore.expected_ok _ _ _ _ _).mpr
    ⟨parsed, parse, names, stored, expecting, ?_⟩
  simp only [PendingReceive.expects, path, suffix, value, named, decide_true, Bool.and_self]

/-- The name of a continuation belongs to its client and carries the token. It has no keys here,
only the token and the status. -/
theorem continue_path_parsed (plain : Plain token) (recvStatus : Option Text)
    (written : recvStatus ∈ recvStatuses) :
    ∃ parsed, parseRequestPath (continuePath client token recvStatus [] expansion) = .ok parsed ∧
      parsed.clientId = some client ∧ parsed.values.get tokenKey = some token := by
  obtain ⟨parsed, parse, names, values⟩ :=
    parse_continue_path client token plain recvStatus written [] (by simp) expansion (by simp)
  refine ⟨parsed, parse, names, ?_⟩
  obtain ⟨last, inside, found⟩ := key_values_named [] (decodedSegments token recvStatus [] expansion)
    tokenKey token (by decide) (by decide) (by simp [decodedSegments, tokenKey])
  simp only [decodedSegments, List.map_nil, List.append_nil, List.mem_cons, Option.mem_toList,
    Option.map_eq_some_iff] at inside
  rcases inside with named | ⟨status, -, other⟩
  · obtain ⟨-, rfl⟩ := entry_injective _ _ _ _ (by decide) (by decide) named
    exact values ▸ found
  · exact absurd (entry_injective _ _ _ _ (by decide) (by decide) other).1 (by decide)

/-- A continuation is accepted under the name that its script gives it before the keys. The token is
that of the stored session, and a status is carried over as it was written. -/
theorem continuation_accepted (plain : Plain token)
    (stored : world.sessions.get client = some session)
    (current : session.currentToken = some token) (recvStatus : Option Text)
    (written : recvStatus ∈ recvStatuses) :
    ∃ parsed, world.Accepts (continuePath client token recvStatus [] expansion) parsed client
      session ∧ parsed.values.get recvKey = recvStatus := by
  have undisturbed : Undisturbed world client session recvStatus [] expansion :=
    harmless_undisturbed stored current plain written (by simp) (by simp) expansion (by simp)
  obtain ⟨same, parsed, currentAgain, accepts, received, -⟩ := undisturbed
  cases current.symm.trans currentAgain
  exact ⟨parsed, accepts, received⟩

end Names

/-- Every token that the client's stored session may hold was drawn from some draw on. An older
token is then not the current one, as tokens are distinct. -/
structure Aged (host : Host) (draws : Nat) (client : ClientId) (world : World κ) : Prop where
  drawn : draws ≤ world.tokensDrawn
  newer : ∀ session, world.sessions.get client = some session →
    ∃ draw, draws ≤ draw ∧ session.currentToken = some (host.token draw)

/-- A step keeps the client's tokens new. A session of the client has been opened or continued
since, and either gives it a token from a later draw. -/
theorem step_aged (server : DynamicContentServer κ) (draws : Nat) (client : ClientId)
    (world : World κ) (event : Event) (sound : world.Sound server.provider.host)
    (aged : Aged server.provider.host draws client world) :
    Aged server.provider.host draws client (server.step world event) := by
  obtain ⟨actor, moves⟩ := step_moves server world event sound
  refine ⟨aged.drawn.trans moves.draws, fun session stored => ?_⟩
  have move := moves.any client
  rw [stored] at move
  rcases move.token with ⟨earlier, before, kept⟩ | fresh
  · rw [← kept]
    exact aged.newer earlier before
  · exact ⟨world.tokensDrawn, aged.drawn, fresh⟩

/-- The client's tokens stay new over a run. -/
theorem run_aged (server : DynamicContentServer κ) (draws : Nat) (client : ClientId)
    (world : World κ) (sound : world.Sound server.provider.host)
    (aged : Aged server.provider.host draws client world) (events : List Event) :
    (Runs.run server.step world events).Sound server.provider.host ∧
      Aged server.provider.host draws client (Runs.run server.step world events) :=
  Runs.run_invariant server.step
    (fun later => later.Sound server.provider.host ∧ Aged server.provider.host draws client later)
    (fun later event ⟨sound, aged⟩ =>
      ⟨step_sound server later event sound, step_aged server draws client later event sound aged⟩)
    world ⟨sound, aged⟩ events

/-- No name with an older token of the client is accepted. This is said of both kinds of names,
those that continue a session, with any status of an upload, and those that upload to it. -/
theorem Aged.refuses {host : Host} (urlSafe : host.UrlSafe)
    (distinct : Function.Injective host.token) {draws : Nat} {client : ClientId} {world : World κ}
    (sound : world.Sound host) (aged : Aged host draws client world) (draw : Nat)
    (older : draw < draws) :
    (∀ recvStatus ∈ recvStatuses, ∀ parsed other session,
        ¬world.Accepts (continuePath client (host.token draw) recvStatus [] expansion) parsed other
          session) ∧
      ∀ waiting, InMemoryUploadStore.expected world.sessions (uploadPath client (host.token draw)) ≠
        .ok waiting := by
  have plain := urlSafe.plain draw
  have stale : ∀ session, world.sessions.get client = some session →
      session.currentToken ≠ some (host.token draw) := by
    intro session stored current
    obtain ⟨later, newer, held⟩ := aged.newer session stored
    have index := distinct (Option.some.inj (current.symm.trans held))
    omega
  constructor
  · intro recvStatus written parsed other session accepts
    obtain ⟨again, parse, names, value⟩ := continue_path_parsed plain recvStatus written
    cases accepts.parse.symm.trans parse
    cases accepts.names.symm.trans names
    exact stale session accepts.stored (accepts.current.symm.trans value)
  · rintro ⟨other, session, pending⟩ expected
    obtain ⟨parsed, parse, names, stored, expecting, expects⟩ :=
      (InMemoryUploadStore.expected_ok _ _ _ _ _).mp expected
    obtain ⟨again, parseAgain, namesAgain, -, value⟩ := upload_path_parsed plain
    cases parse.symm.trans parseAgain
    cases names.symm.trans namesAgain
    simp only [PendingReceive.expects, value, Bool.and_eq_true, decide_eq_true_eq,
      Option.some.injEq] at expects
    refine stale session stored ?_
    rw [expects.2]
    exact (sound.sessions client session stored).staged.pending_token pending expecting

/-- The names of a reply are accepted for its session as it was sent: the upload by the store under
any peer, and a continuation with each status that the script can report. -/
structure Reply.Accepted (reply : Reply) (world : World κ) (client : ClientId) (token : Text)
    (session : ClientSession κ) : Prop where
  uploads : ∀ size, reply.receives = some size → ∃ pending,
    session.pendingReceive = some pending ∧ pending.size = size ∧
      InMemoryUploadStore.expected world.sessions (uploadPath client token) =
        .ok (client, session, pending) ∧
      ∀ peer serverAddr, ∃ upload, InMemoryUploadStore.openUpload world.sessions
        ⟨uploadPath client token, peer, serverAddr⟩ = .ok upload
  continuations : ∀ recvStatus ∈ reply.statuses, ∃ parsed,
    world.Accepts (continuePath client token recvStatus [] expansion) parsed client session ∧
      parsed.values.get recvKey = recvStatus

/-- While the session stays as it was sent, up to the body of an upload, the names of its
script are accepted. -/
theorem Sent.accepted {host : Host} {after : World κ} {client : ClientId} {content : ContentResult}
    {reply : Reply} {token script : Text} {sent : ClientSession κ} (urlSafe : host.UrlSafe)
    (sends : Sent host after client content reply token script sent) (world : World κ)
    (session : ClientSession κ) (stored : world.sessions.get client = some session)
    (same : session.bodiless = sent.bodiless) : reply.Accepted world client token session := by
  obtain ⟨draw, rfl⟩ := sends.drawn
  have plain := urlSafe.plain draw
  have current : session.currentToken = some (host.token draw) :=
    (congrArg ClientSession.currentToken same).trans sends.current
  constructor
  case uploads =>
    intro size receives
    have pendings : session.pendingReceive.map (fun pending => { pending with uploaded := none }) =
        some ⟨host.token draw, "/upload.bin".toList, size, none⟩ := by
      have bodies := congrArg ClientSession.pendingReceive same
      simp only [ClientSession.bodiless, sends.expects, receives, Option.map_some] at bodies
      exact bodies
    obtain ⟨pending, expecting, shape⟩ := Option.map_eq_some_iff.mp pendings
    have expected := upload_expected plain stored pending expecting
      (congrArg PendingReceive.token shape) (congrArg PendingReceive.uploadPath shape)
    refine ⟨pending, expecting, congrArg PendingReceive.size shape, expected, fun peer serverAddr => ?_⟩
    simp only [InMemoryUploadStore.openUpload, expected]
    exact ⟨_, rfl⟩
  case continuations =>
    intro recvStatus written
    refine continuation_accepted plain stored current recvStatus ?_
    cases reply with
    | preflight => simp_all [Reply.statuses, recvStatuses]
    | exec helper => simp_all [Reply.statuses, recvStatuses]
    | execRecv helper =>
      simp only [Reply.statuses] at written
      exact List.mem_cons_of_mem _ written

/-- Replies are accepted for as long as they are current. A reply that keeps its session writes
names that are accepted for that session until the client starts anew or continues, whatever else
happens. A final reply is the handler's own script, and after it no name that was written for the
client before is accepted any more.

The tokens are assumed to be URL-safe and distinct, which `secrets` promises of them; nothing is
assumed of the handlers. -/
theorem emitted_requests_accepted (server : DynamicContentServer κ)
    (urlSafe : server.provider.host.UrlSafe)
    (distinct : Function.Injective server.provider.host.token) (files : FileTree)
    (before : List Event) (request : ContentRequest) (now : Nat) (schedule : Schedule)
    (client : ClientId) (content : ContentResult) (reply : Reply)
    (replied : Replied server.provider (server.after files before) request now schedule client
      content reply) :
    let after := server.step (server.after files before) (.readRequest request now schedule)
    (reply.isFinal = false → ∃ token script sent,
        Sent server.provider.host after client content reply token script sent ∧
        ∀ between, Runs.Guarded server.step (Unanswered client) after between →
          ∃ session, (Runs.run server.step after between).sessions.get client = some session ∧
            session.bodiless = sent.bodiless ∧
            reply.Accepted (Runs.run server.step after between) client token session) ∧
      (reply.isFinal = true →
        (∃ helper, reply = .exec helper ∧ content = ContentResult.fromBytes
          (server.provider.host.compile (ensureNewline (Text.rstrip helper.script)))) ∧
        (∀ between, Runs.Guarded server.step (Unanswered client) after between →
          (Runs.run server.step after between).sessions.get client = none) ∧
        ∀ later draw, draw < (server.after files before).tokensDrawn →
          (∀ recvStatus ∈ recvStatuses, ∀ parsed other session,
            ¬(Runs.run server.step after later).Accepts (continuePath client
              (server.provider.host.token draw) recvStatus [] expansion) parsed other session) ∧
          ∀ waiting, InMemoryUploadStore.expected (Runs.run server.step after later).sessions
            (uploadPath client (server.provider.host.token draw)) ≠ .ok waiting) := by
  intro after
  have sound := after_sound server files before
  have afterSound : after.Sound server.provider.host := step_sound server _ _ sound
  have leaves := replied.leaves sound
  rw [← DynamicContentServer.step_read_request server] at leaves
  rcases leaves with ⟨more, token, script, sent, sends⟩ | ⟨final, dropped, helper, same, own⟩
  · refine ⟨fun _ => ⟨token, script, sent, sends, fun between unanswered => ?_⟩,
      fun final => by simp [more] at final⟩
    have kept := unanswered_run server client after afterSound between unanswered
    rw [sends.stored, Option.map_some] at kept
    obtain ⟨session, stored, alike⟩ := Option.map_eq_some_iff.mp kept
    exact ⟨session, stored, alike, sends.accepted urlSafe _ session stored alike⟩
  · refine ⟨fun more => by simp [final] at more, fun _ => ⟨⟨helper, same, own⟩, ?_, ?_⟩⟩
    · intro between unanswered
      have kept := unanswered_run server client after afterSound between unanswered
      rw [dropped, Option.map_none, Option.map_eq_none_iff] at kept
      exact kept
    · intro later draw older
      obtain ⟨actor, moves⟩ := step_moves server _ (.readRequest request now schedule) sound
      have aged : Aged server.provider.host (server.after files before).tokensDrawn client after :=
        ⟨moves.draws, fun session stored => by cases dropped.symm.trans stored⟩
      obtain ⟨laterSound, laterAged⟩ := run_aged server _ client after afterSound aged later
      exact laterAged.refuses urlSafe distinct laterSound draw older

section Sample

/-- The request that the sample handler receives its upload with. -/
def receiveRequest : ExecutionRequest := ⟨"md.b 0".toList, false, some 4, [], none⟩

/-- What happens before the client goes on: another client starts, the client repeats a token that
has been used, and it opens the upload. -/
def meanwhile : List Event :=
  [.readRequest (sampleRequest "id=dome") 0 [], .readRequest (sampleRequest "id=cam/token=t") 0 [],
    .writeRequest "/srv/id=cam/token=tt/upload.bin".toList ("10.0.0.2".toList, 1069)]

/-- A request that is parsed as one of another client, or that carries another token than the
current one, does not concern the client. -/
theorem unanswered_other {client : ClientId} {world : World κ} {request : ContentRequest}
    {now : Nat} {schedule : Schedule} (parsed : ParsedPath)
    (parse : parseRequestPath request.filename = .ok parsed)
    (other : parsed.clientId ≠ some client ∨ isContinuation parsed = true ∧
      parsed.values.get tokenKey ≠ (world.sessions.get client).bind (·.currentToken)) :
    Unanswered client world (.readRequest request now schedule) := by
  rintro _ _ _ ⟨⟩
  constructor
  · rintro again ⟨same, names, fresh⟩
    cases parse.symm.trans same
    rcases other with foreign | ⟨continues, -⟩
    · exact foreign names
    · cases continues.symm.trans fresh
  · rintro again session ⟨same, names, continues, stored, current⟩
    cases parse.symm.trans same
    rcases other with foreign | ⟨-, stale⟩
    · exact foreign names
    · exact stale (by rw [stored]; exact current)

/-- The script of the sample handler's `exec_recv` names an upload and continuations that are still
accepted after events of other clients, a stale continuation and the opening of the upload. -/
theorem emitted_requests_sample :
    let server := sampleServer sampleEntry sampleReceive
    let after := server.step (server.after Dict.empty [.readRequest (sampleRequest "id=cam") 0 []])
      (.readRequest (sampleRequest "id=cam/token=t/hush_shell=true") 0 [])
    ∃ content token script sent session,
      Sent sampleHost after sampleClient content (.execRecv receiveRequest) token script sent ∧
      (Runs.run server.step after meanwhile).sessions.get sampleClient = some session ∧
      (Reply.execRecv receiveRequest).Accepted (Runs.run server.step after meanwhile) sampleClient
        token session := by
  intro server after
  let world := server.after Dict.empty [.readRequest (sampleRequest "id=cam") 0 []]
  let request := sampleRequest "id=cam/token=t/hush_shell=true"
  have waiting : (world.sessions.get sampleClient).map (·.currentToken) = some (some "t".toList) := by
    decide +kernel
  obtain ⟨session, stored, current⟩ := Option.map_eq_some_iff.mp waiting
  have accepts : world.Accepts request.filename
      ⟨"id=cam/token=t/hush_shell=true".toList, some sampleClient,
        "/token=t/hush_shell=true".toList, ["token=t".toList, "hush_shell=true".toList],
        Dict.ofList [("token".toList, "t".toList), ("hush_shell".toList, "true".toList)]⟩ sampleClient
      session :=
    ⟨by decide +kernel, rfl, rfl, stored, current ▸ rfl⟩
  obtain ⟨built, resumed⟩ : ∃ built, (world.fetch server.provider 0 [] request).resumed =
      some (.started, .awaited (.execRecv receiveRequest built) ()) :=
    ⟨⟨.text "md.b 0".toList, 4, false, [], none, rfl⟩, rfl⟩
  have answered : (world.fetch server.provider 0 [] request).result.toOption.isSome = true := by
    decide +kernel
  cases result : (world.fetch server.provider 0 [] request).result with
  | error raised => simp [result, Except.toOption] at answered
  | ok content =>
    obtain ⟨token, script, sent, sends, later⟩ := (emitted_requests_accepted server sample_url_safe
      sample_tokens_distinct Dict.empty [.readRequest (sampleRequest "id=cam") 0 []] request 0 []
      sampleClient content (.execRecv receiveRequest)
      (.execRecv _ session .started receiveRequest built () accepts resumed result)).1 rfl
    obtain ⟨waiting, held, -, accepted⟩ := later meanwhile
      ⟨unanswered_other ⟨"id=dome".toList, normalizeClientId "dome".toList |>.toOption, ['/'], [],
          Dict.empty⟩ (by decide +kernel) (.inl (by decide +kernel)),
        unanswered_other ⟨"id=cam/token=t".toList, some sampleClient, "/token=t".toList,
          ["token=t".toList], Dict.ofList [("token".toList, "t".toList)]⟩ (by decide +kernel)
          (.inr ⟨rfl, by decide +kernel⟩),
        (fun _ _ _ same => by cases same), trivial⟩
    exact ⟨content, token, script, sent, waiting, sends, held, accepted⟩

end Sample

end UbootTftp
