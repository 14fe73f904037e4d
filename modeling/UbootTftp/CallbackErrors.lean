import UbootTftp.SessionCleanup

/-!
# Exceptions that leave the callbacks

The callback for read requests turns `FileNotFoundError` into a miss and lets every
other exception through; the callback for write requests and the close of an upload
catch nothing. The results state exactly which requests, in which states, are answered
without an exception.
-/

namespace UbootTftp

universe u
variable {κ : Type u}

/-- The value of a first segment `id=...`, before it is normalized. The segments are decoded before
they are looked at, and empty ones do not count. -/
def requestedId (filename : Text) : Option Text :=
  let path := Sequences.strip (· == '/') filename
  match ((path.splitOn '/').filter (fun segment => decide (segment ≠ []))).map unquote with
  | [] => none
  | first :: _ =>
    let (key, separated, value) := Sequences.partition '=' first
    if key = "id".toList ∧ separated = true then some value else none

/-- A filename can be parsed exactly when the client id that it names, if it names one, is
well formed. -/
theorem parse_ok_iff (filename : Text) :
    (∃ parsed, parseRequestPath filename = .ok parsed) ↔
      ∀ value, requestedId filename = some value → clientIdMatches (Text.lower value) = true := by
  simp only [parseRequestPath, requestedId]
  generalize ((((Sequences.strip (· == '/') filename).splitOn '/').filter
    (fun segment => decide (segment ≠ []))).map unquote) = segments
  cases segments with
  | nil => simp
  | cons first rest =>
    by_cases named : (Sequences.partition '=' first).1 = "id".toList ∧
        (Sequences.partition '=' first).2.1 = true
    · simp only [named, and_self, if_true, Option.some.injEq, forall_eq', normalizeClientId]
      by_cases accepted :
          clientIdMatches (Text.lower (Sequences.partition '=' first).2.2) = true
      · simp only [accepted, dif_pos, iff_true]
        exact ⟨_, rfl⟩
      · simp [accepted]
    · simp only [named, if_false]
      exact ⟨fun _ _ none => (by cases none), fun _ => ⟨_, rfl⟩⟩

/-- The handlers and the module's callables raise nothing but `ReceiveFailedError`, which is how a
handler that waits for an upload ends when the upload fails. -/
structure Provider.NeverRaises (provider : Provider κ) : Prop where
  calls : ∀ name error, provider.module name ≠ .raising error
  code : ∀ state resumption now schedule before error,
    ((provider.resume state resumption).run provider.host now schedule before).2 = .raised error →
    error.cls = .receiveFailedError

/-- A move of a session whose handler is not over keeps it so when handlers never raise. A
handler that is over but still stored has raised; one that ends by its last reply takes the
session with it. -/
theorem Move.unfinished {provider : Provider κ} (quiet : provider.NeverRaises) {draws : Nat}
    {before : Option (ClientSession κ)}
    (unfinished : ∀ session, before = some session → session.handler ≠ some .finished)
    {session : ClientSession κ} (move : Move provider draws before (some session)) :
    session.handler ≠ some .finished := by
  generalize target : some session = after at move
  cases move with
  | same _ => exact unfinished session target.symm
  | opened before request parsed client =>
    cases target
    simp [openedSession, ClientSession.recordRrq, ClientSession.create]
  | dropped earlier => cases target
  | uploaded earlier pending body expecting =>
    cases target
    exact unfinished earlier rfl
  | uncreated earlier request parsed raised pending refused =>
    cases target
    simpa using unfinished earlier rfl
  | exhausted earlier parsed passed broken =>
    cases target
    simpa using unfinished earlier rfl
  | settled earlier request parsed state point resumption now schedule downloads files left codeEnd
      enters code frame =>
    cases codeEnd with
    | returned => cases target
    | raised error =>
      have expected := quiet.code state resumption now schedule
        ⟨earlier.entered parsed state point, downloads, files⟩ error (by rw [code])
      simp only [ClientSession.settle, expected, if_true] at target
      cases target
    | awaited awaited next =>
      cases awaited with
      | foreign =>
        cases target
        simp
      | execRecv request built =>
        cases target
        simp
      | exec request built =>
        simp only [ClientSession.settle] at target
        split at target
        all_goals cases target
        simp

/-- When handlers never raise, no stored session's handler is over. The induction is over the run,
together with the soundness of its states. -/
theorem after_unfinished (server : DynamicContentServer κ) (quiet : server.provider.NeverRaises)
    (files : FileTree) (events : List Event) :
    ∀ client session, (server.after files events).sessions.get client = some session →
      session.handler ≠ some .finished := by
  have both := Runs.run_invariant server.step
    (fun world => world.Sound server.provider.host ∧
      ∀ client session, world.sessions.get client = some session →
        session.handler ≠ some .finished)
    (fun world event ⟨sound, unfinished⟩ => by
      refine ⟨step_sound server world event sound, fun client session stored => ?_⟩
      obtain ⟨actor, moves⟩ := step_moves server world event sound
      exact Move.unfinished quiet (unfinished client) (stored ▸ moves.any client))
    (World.initial files) ⟨after_sound server files [], fun _ _ stored => by cases stored⟩ events
  exact both.2

/-- What the path of a static read request must meet to be looked at: it holds no NUL, and asking
the file system for the path that it leads to does not fail for the length of a name. -/
def StaticClear (host : Host) (files : FileTree) (path : Text) : Prop :=
  '\x00' ∉ path ∧ ∀ target, resolveStaticPath host path = .ok (some target) →
    files.statFails (host.resolve host.staticRoot) target = false

/-- What a read request must meet to be answered: a well-formed client id, a static path that can
be looked at, an async entry function when the preflight has succeeded, and handler code that does
not await a foreign object. -/
structure DownloadClear (provider : Provider κ) (world : World κ) (now : Nat) (schedule : Schedule)
    (request : ContentRequest) : Prop where
  identifier : ∀ value, requestedId request.filename = some value →
    clientIdMatches (Text.lower value) = true
  path : ∀ parsed, parseRequestPath request.filename = .ok parsed → parsed.clientId = none →
    StaticClear provider.host world.files parsed.path
  entry : ∀ parsed client session, world.Accepts request.filename parsed client session →
    session.preflightPending = true →
    (session.continued parsed).env.get hushKey = some "true".toList →
    ∃ start, provider.module (routeFor provider.config client).entryFunc = .async start
  awaits : ∀ parsed client session state point resumption next,
    world.Accepts request.filename parsed client session →
    Enters provider request parsed session state point resumption →
    ((provider.resume state resumption).run provider.host now schedule
      ⟨session.entered parsed state point, world.downloads, world.files⟩).2 ≠
        .awaited .foreign next

/-- A callback's answer is a result or a miss when the provider's exception is one that
it catches. -/
theorem open_dynamic_download_ok (server : DynamicContentServer κ) (world : World κ) (now : Nat)
    (schedule : Schedule) (request : ContentRequest) :
    (∃ answer, (server.openDynamicDownload world now schedule request).2 = .ok answer) ↔
      ∀ raised, (world.fetch server.provider now schedule request).result = .error raised →
        raised.cls = .fileNotFoundError := by
  simp only [DynamicContentServer.openDynamicDownload]
  cases (world.fetch server.provider now schedule request).result with
  | ok result => simp
  | error raised =>
    by_cases missing : raised.cls = .fileNotFoundError
    · simp [missing]
    · simp [missing]

/-- A handler is made by an async entry function only. In the other cases making one raises. -/
theorem create_handler_entry (provider : Provider κ) (session : ClientSession κ)
    (request : ContentRequest) (handler : Coroutine κ)
    (made : createHandler provider session request = .ok handler) :
    ∃ start, provider.module (routeFor provider.config session.clientId).entryFunc =
      .async start := by
  simp only [createHandler] at made
  split at made
  · cases made
  · split at made
    · cases made
    · cases made
    · cases made
    · exact ⟨_, by assumption⟩

/-- A handler that cannot be made has an entry function that is not async, and the
exception is not caught. -/
theorem create_handler_error (provider : Provider κ) (quiet : provider.NeverRaises)
    (session : ClientSession κ) (request : ContentRequest) (begun : session.requests ≠ [])
    (raised : Raised) (refused : createHandler provider session request = .error raised) :
    raised.cls ≠ .fileNotFoundError ∧
      ∀ start, provider.module (routeFor provider.config session.clientId).entryFunc ≠
        .async start := by
  obtain ⟨first, rest, requests⟩ := List.exists_cons_of_ne_nil begun
  simp only [createHandler, requests] at refused
  cases entry : provider.module (routeFor provider.config session.clientId).entryFunc with
  | missing =>
    simp only [entry] at refused
    cases refused
    simp [Raised.cls]
  | raising error => exact absurd entry (quiet.calls _ error)
  | notAsync =>
    simp only [entry] at refused
    cases refused
    simp [Raised.cls]
  | async start =>
    simp only [entry] at refused
    cases refused

/-- A static read is caught exactly when its path can be looked at. The callback takes only a
missing file for an answer. A name with a null character and one that the file system refuses to
look up are raised out of it. -/
theorem static_caught_iff (world : World κ) (host : Host) (path : Text) :
    (∀ raised, world.staticResult host path = .error raised → raised.cls = .fileNotFoundError) ↔
      StaticClear host world.files path := by
  constructor
  · intro caught
    refine ⟨fun null => ?_, fun target resolved => ?_⟩
    · have failed : world.staticResult host path = .error .embeddedNull := by
        simp only [World.staticResult, resolve_static_null host path null]
      cases caught _ failed
    · cases fails : world.files.statFails (host.resolve host.staticRoot) target with
      | false => rfl
      | true =>
        have failed : world.staticResult host path = .error (.fileNameTooLong target) := by
          simp only [World.staticResult, resolved, FileTree.fileContents, fails, if_true]
        cases caught _ failed
  · rintro ⟨clean, found⟩ raised failed
    rcases static_error world host path raised failed with
      ⟨-, null⟩ | rfl | ⟨target, resolved, fails, -⟩
    · exact absurd null clean
    · rfl
    · cases fails.symm.trans (found target resolved)

/-- A request that touches no session is caught exactly when its client id is well
formed and its static path can be looked at. -/
theorem missed_caught_iff (world : World κ) (host : Host) (filename : Text)
    (result : Except Raised ContentResult) (cause : world.Misses host filename result) :
    (∀ raised, result = .error raised → raised.cls = .fileNotFoundError) ↔
      (∀ value, requestedId filename = some value →
        clientIdMatches (Text.lower value) = true) ∧
      ∀ parsed, parseRequestPath filename = .ok parsed → parsed.clientId = none →
        StaticClear host world.files parsed.path := by
  rw [← parse_ok_iff]
  have named : ∀ (parsed : ParsedPath) (client : ClientId),
      parseRequestPath filename = .ok parsed → parsed.clientId = some client →
      ∀ other, parseRequestPath filename = .ok other → other.clientId = none →
        StaticClear host world.files other.path := by
    intro parsed client parse names other again unnamed
    cases parse.symm.trans again
    rw [names] at unnamed
    cases unnamed
  cases cause with
  | malformed raised parse =>
    obtain ⟨value, rfl⟩ := parse_error filename raised parse
    simp [parse, Raised.cls]
  | unknown parsed client parse names =>
    exact ⟨fun _ => ⟨⟨parsed, parse⟩, named parsed client parse names⟩,
      fun _ raised same => by cases same; rfl⟩
  | stale parsed client parse names =>
    exact ⟨fun _ => ⟨⟨parsed, parse⟩, named parsed client parse names⟩,
      fun _ raised same => by cases same; rfl⟩
  | static parsed parse unnamed =>
    rw [static_caught_iff]
    constructor
    · intro clear
      refine ⟨⟨parsed, parse⟩, fun other again _ => ?_⟩
      cases parse.symm.trans again
      exact clear
    · rintro ⟨-, clear⟩
      exact clear parsed parse unnamed

section Downloads

variable (server : DynamicContentServer κ) (files : FileTree)

/-- What the end of handler code answers is caught exactly when the code did not await a
foreign object, if handlers never raise. -/
theorem answers_caught (codeEnd : CodeEnd κ)
    (quiet : ∀ error, codeEnd = .raised error → error.cls = .receiveFailedError)
    (result : Except Raised ContentResult) (answers : codeEnd.Answers result) :
    (∀ raised, result = .error raised → raised.cls = .fileNotFoundError) ↔
      ∀ next, codeEnd ≠ .awaited .foreign next := by
  cases codeEnd with
  | returned =>
    cases (answers : result = _)
    simp [Raised.cls]
  | raised error =>
    have expected := quiet error rfl
    simp only [CodeEnd.Answers, CodeEnd.failure, expected, if_true] at answers
    simp [answers, Raised.cls]
  | awaited awaited next =>
    cases awaited with
    | foreign =>
      cases (answers : result = _)
      simp [Raised.cls]
    | exec request built =>
      obtain ⟨body, rfl⟩ := answers
      simp
    | execRecv request built =>
      obtain ⟨body, rfl⟩ := answers
      simp

/-- An accepted continuation is answered exactly when it is clear. Scripts can always be built for
an equipped session, so the entry function and what the code awaits are all that is left. -/
theorem accepted_answered_iff (world : World κ) (quiet : server.provider.NeverRaises)
    (sound : world.Sound server.provider.host) (now : Nat) (schedule : Schedule)
    (request : ContentRequest) (parsed : ParsedPath) (client : ClientId)
    (session : ClientSession κ) (equipped : Equipped session.env)
    (unfinished : session.handler ≠ some .finished)
    (accepts : world.Accepts request.filename parsed client session) :
    (∀ raised, (world.fetch server.provider now schedule request).result = .error raised →
        raised.cls = .fileNotFoundError) ↔
      DownloadClear server.provider world now schedule request := by
  have identifier := (parse_ok_iff request.filename).mp ⟨parsed, accepts.parse⟩
  have path : ∀ other, parseRequestPath request.filename = .ok other → other.clientId = none →
      StaticClear server.provider.host world.files other.path := by
    intro other parse unnamed
    cases accepts.parse.symm.trans parse
    rw [accepts.names] at unnamed
    cases unnamed
  have sameId := (sound.sessions client session accepts.stored).keyed
  have handled := world.accepted_cases server.provider now schedule request parsed client session
    sound accepts.stored
  rw [← accepts.fetch server.provider now schedule] at handled
  cases handled with
  | failed pending unreported leaves tokens silent answer =>
    refine ⟨fun _ => ⟨identifier, path, ?_, ?_⟩, fun _ raised refused => ?_⟩
    · intro other owner found again _ reported
      obtain ⟨rfl, rfl, rfl⟩ := accepts.unique again
      exact absurd reported unreported
    · intro other owner found state point resumption next again enters
      obtain ⟨rfl, rfl, rfl⟩ := accepts.unique again
      exact absurd (enters.preflight pending).2.2.1 unreported
    · rw [answer] at refused
      cases refused
  | uncreated raised pending reported refused leaves tokens silent answer =>
    obtain ⟨uncaught, notAsync⟩ := create_handler_error server.provider quiet _ request (by simp)
      raised refused
    constructor
    · intro caught
      exact absurd (caught raised answer) uncaught
    · intro clear
      obtain ⟨start, entry⟩ := clear.entry parsed client session accepts pending reported
      refine absurd ?_ (notAsync start)
      simpa [sameId] using entry
  | exhausted passed broken leaves tokens silent answer =>
    rcases answer with ⟨missing, answer⟩ | ⟨finished, -⟩
    · refine ⟨fun _ => ⟨identifier, path, ?_, ?_⟩, fun _ raised refused => ?_⟩
      · intro other owner found again pending _
        obtain ⟨rfl, rfl, rfl⟩ := accepts.unique again
        rw [passed] at pending
        cases pending
      · intro other owner found state point resumption next again enters
        obtain ⟨rfl, rfl, rfl⟩ := accepts.unique again
        cases missing.symm.trans (enters.later passed).1
      · cases answer.symm.trans refused
        rfl
    · exact absurd finished unfinished
  | ran state point resumption left codeEnd enters code frame keyed ran resumed answers =>
    have expected := quiet.code state resumption now schedule
      ⟨session.entered parsed state point, world.downloads, world.files⟩
    rw [code] at expected
    rw [answers_caught codeEnd expected _ (answers equipped)]
    constructor
    · intro helper
      refine ⟨identifier, path, ?_, ?_⟩
      · intro other owner found again pending reported
        obtain ⟨rfl, rfl, rfl⟩ := accepts.unique again
        simpa [sameId] using create_handler_entry _ _ _ _ (enters.preflight pending).2.2.2
      · intro other owner found second at' again next acceptsAgain entersAgain
        obtain ⟨rfl, rfl, rfl⟩ := accepts.unique acceptsAgain
        obtain ⟨rfl, rfl, rfl⟩ := enters.unique entersAgain
        rw [code]
        exact helper next
    · intro clear next foreign
      apply clear.awaits parsed client session state point resumption next accepts enters
      rw [code]
      exact foreign

/-- With an equipped configuration and handlers that never raise, a read request is answered without
an exception exactly when it is clear.

Proof: by the three kinds of read requests; in each of them the other conditions are about requests
of another kind. -/
theorem fetch_answered_iff (base : Equipped server.provider.config.env)
    (quiet : server.provider.NeverRaises) (events : List Event) (now : Nat) (schedule : Schedule)
    (request : ContentRequest) :
    (∃ answer, (server.openDynamicDownload (server.after files events) now schedule request).2 =
        .ok answer) ↔
      DownloadClear server.provider (server.after files events) now schedule request := by
  rw [open_dynamic_download_ok]
  have sound := after_sound server files events
  have equipped := after_equipped server base files events
  have unfinished := after_unfinished server quiet files events
  generalize server.after files events = world at sound equipped unfinished
  by_cases accepted : ∃ parsed client session,
      world.Accepts request.filename parsed client session
  · obtain ⟨parsed, client, session, accepts⟩ := accepted
    exact accepted_answered_iff server world quiet sound now schedule request parsed client session
      (equipped client session accepts.stored) (unfinished client session accepts.stored) accepts
  · have refused : ∀ parsed client session,
        ¬world.Accepts request.filename parsed client session :=
      fun parsed client session accepts => accepted ⟨parsed, client, session, accepts⟩
    have fetched := world.fetch_cases server.provider now schedule request
    generalize world.fetch server.provider now schedule request = outcome at fetched ⊢
    cases fetched with
    | accepted parsed client session accepts => exact absurd accepts (refused parsed client session)
    | started parsed client starts =>
      obtain ⟨body, answered⟩ := world.start_answers server.provider base now request parsed client
      refine ⟨fun _ => ⟨(parse_ok_iff _).mp ⟨parsed, starts.parse⟩, ?_, ?_, ?_⟩, ?_⟩
      · intro other parse unnamed
        cases starts.parse.symm.trans parse
        rw [starts.names] at unnamed
        cases unnamed
      · exact fun other owner found accepts => absurd accepts (refused other owner found)
      · exact fun other owner found _ _ _ _ accepts => absurd accepts (refused other owner found)
      · intro _ raised failed
        cases answered.symm.trans failed
    | missed result cause unstarted _ =>
      have entry : ∀ parsed client session,
          world.Accepts request.filename parsed client session → session.preflightPending = true →
          (session.continued parsed).env.get hushKey = some "true".toList →
          ∃ start, server.provider.module
            (routeFor server.provider.config client).entryFunc = .async start :=
        fun other owner found accepts => absurd accepts (refused other owner found)
      have awaits : ∀ parsed client session state point resumption next,
          world.Accepts request.filename parsed client session →
          Enters server.provider request parsed session state point resumption →
          ((server.provider.resume state resumption).run server.provider.host now schedule
            ⟨session.entered parsed state point, world.downloads, world.files⟩).2 ≠
              .awaited .foreign next :=
        fun other owner found _ _ _ _ accepts => absurd accepts (refused other owner found)
      rw [missed_caught_iff world server.provider.host request.filename result cause]
      exact ⟨fun ⟨identifier, path⟩ => ⟨identifier, path, entry, awaits⟩,
        fun clear => ⟨clear.identifier, clear.path⟩⟩

/-- With a loaded configuration and handlers that never raise, in every reachable state the callback
for read requests answers a request without an exception exactly when the request is clear.

What an exception does to the listening loop is not modelled; it is part of the answer here. -/
theorem download_answered_iff (data : Dict Text TomlSection) (rootdir : Option Text)
    (loaded : loadDaemonConfig data rootdir = .ok server.provider.config)
    (quiet : server.provider.NeverRaises) (events : List Event) (now : Nat) (schedule : Schedule)
    (request : ContentRequest) :
    (∃ answer, (server.openDynamicDownload (server.after files events) now schedule request).2 =
        .ok answer) ↔
      DownloadClear server.provider (server.after files events) now schedule request := by
  have base : Equipped server.provider.config.env := loaded_env data rootdir _ loaded
  exact fetch_answered_iff server files base quiet events now schedule request

/-- The sample handler never raises. -/
theorem sample_never_raises :
    (sampleServer sampleEntry sampleCode).provider.NeverRaises where
  calls name error same := by cases same
  code state resumption now schedule before error raised := by
    cases resumption
    all_goals cases raised

/-- The law applies to the sample server. -/
theorem download_answered_iff_sample :
    (∃ answer, ((sampleServer sampleEntry sampleCode).openDynamicDownload
        ((sampleServer sampleEntry sampleCode).after Dict.empty []) 0 [] (sampleRequest "id=a.b")).2 =
        .ok answer) ↔
      DownloadClear (sampleServer sampleEntry sampleCode).provider
        ((sampleServer sampleEntry sampleCode).after Dict.empty []) 0 [] (sampleRequest "id=a.b") :=
  download_answered_iff (sampleServer sampleEntry sampleCode) Dict.empty sampleFile none
    sample_loaded sample_never_raises [] 0 [] (sampleRequest "id=a.b")

end Downloads

/-- A client id with a dot makes the callback raise `ValueError` before anything has
happened. -/
theorem malformed_client_id_escapes :
    let server := sampleServer sampleEntry sampleCode
    server.provider.NeverRaises ∧
      (server.openDynamicDownload (server.after Dict.empty []) 0 [] (sampleRequest "id=a.b")).2 =
        .error (.invalidClientId "a.b".toList) ∧
      (Raised.invalidClientId "a.b".toList).cls = .valueError :=
  ⟨sample_never_raises, by decide +kernel, rfl⟩

section Uploads

/-- Whether a session waits for the upload that a filename names. -/
def World.Waits (world : World κ) (filename : Text) : Prop :=
  ∃ parsed client session pending, parseRequestPath filename = .ok parsed ∧
    parsed.clientId = some client ∧ world.sessions.get client = some session ∧
    session.pendingReceive = some pending ∧ pending.expects parsed = true

/-- The check of the upload store passes exactly when a session waits for the upload. -/
theorem expected_ok_iff (world : World κ) (filename : Text) :
    (∃ waiting, InMemoryUploadStore.expected world.sessions filename = .ok waiting) ↔
      world.Waits filename := by
  constructor
  · rintro ⟨⟨client, session, pending⟩, passed⟩
    obtain ⟨parsed, waits⟩ := (InMemoryUploadStore.expected_ok _ _ _ _ _).mp passed
    exact ⟨parsed, client, session, pending, waits⟩
  · rintro ⟨parsed, client, session, pending, waits⟩
    exact ⟨_, (InMemoryUploadStore.expected_ok _ _ _ _ _).mpr ⟨parsed, waits⟩⟩

/-- The path that a static upload's name leads to. -/
def diskTarget (host : Host) (filename : Text) : Path :=
  host.resolve (host.staticRoot ++ pathParts (filename.dropWhile (· == '/')))

/-- What the name of a static upload must meet to be written: it names a path at or below the root
without dot-dot parts, the file system takes a path of that length, no directory has it, and no file
stands where a parent directory has to be. -/
structure DiskClear (host : Host) (files : FileTree) (filename : Text) : Prop where
  upward : ['.', '.'] ∉ pathParts (filename.dropWhile (· == '/'))
  clean : '\x00' ∉ filename.dropWhile (· == '/')
  below : (host.resolve host.staticRoot).isPrefixOf (diskTarget host filename) = true
  short : overlong (diskTarget host filename) = false
  parents : ∀ ancestor, ancestor ∈ (diskTarget host filename).dropLast.inits →
    files.contents ancestor = none
  file : files.isDirectory (diskTarget host filename) = false

/-- What the name in a write request must meet for a file object to be given: a
well-formed client id, a session that waits for the upload if it names a client, and a
path that can be written if it names none. -/
structure UploadClear (host : Host) (world : World κ) (filename : Text) : Prop where
  identifier : ∀ value, requestedId filename = some value →
    clientIdMatches (Text.lower value) = true
  session : ∀ parsed client, parseRequestPath filename = .ok parsed →
    parsed.clientId = some client → world.Waits filename
  disk : ∀ parsed, parseRequestPath filename = .ok parsed → parsed.clientId = none →
    DiskClear host world.files filename

/-- A static upload's name is accepted when it leads to a path at or below the root. The name is
taken as it was sent, without decoding. Two dots as a part are refused even where the path would
stay below the root. -/
theorem resolve_disk_ok (host : Host) (filename : Text) (path : Path) :
    resolveDiskUploadPath host filename = .ok path ↔
      ['.', '.'] ∉ pathParts (filename.dropWhile (· == '/')) ∧
      '\x00' ∉ filename.dropWhile (· == '/') ∧
      (host.resolve host.staticRoot).isPrefixOf (diskTarget host filename) = true ∧
      path = diskTarget host filename := by
  simp only [resolveDiskUploadPath, Host.resolveBelow, diskTarget]
  by_cases upward : ['.', '.'] ∈ pathParts (filename.dropWhile (· == '/'))
  · simp [upward]
  · by_cases null : '\x00' ∈ filename.dropWhile (· == '/')
    · simp [upward, null]
    · simp only [upward, null, if_false, not_false_eq_true, true_and]
      split
      · rename_i below
        simp [below, eq_comm]
      · rename_i outside
        simp [outside]

/-- A filename that names a client is clear when its session waits for the upload. The conditions on
the path on the disk do not apply to it. -/
theorem clear_session (host : Host) (world : World κ) {filename : Text} {parsed : ParsedPath}
    {client : ClientId} (parse : parseRequestPath filename = .ok parsed)
    (names : parsed.clientId = some client) :
    UploadClear host world filename ↔ world.Waits filename := by
  constructor
  · intro clear
    exact clear.session parsed client parse names
  · intro waits
    refine ⟨(parse_ok_iff filename).mp ⟨parsed, parse⟩, fun _ _ _ _ => waits, ?_⟩
    intro other again unnamed
    cases parse.symm.trans again
    rw [names] at unnamed
    cases unnamed

/-- A filename that names no client is clear when its path can be written. No session is looked at
for it. -/
theorem clear_bare (host : Host) (world : World κ) {filename : Text} {parsed : ParsedPath}
    (bare : Bare filename parsed) :
    UploadClear host world filename ↔ DiskClear host world.files filename := by
  constructor
  · intro clear
    exact clear.disk parsed bare.1 bare.2
  · intro clear
    refine ⟨(parse_ok_iff filename).mp ⟨parsed, bare.1⟩, ?_, fun _ _ _ => clear⟩
    intro other client again named
    cases bare.1.symm.trans again
    rw [bare.2] at named
    cases named

/-- The callback for write requests gives a file object exactly to a clear request. Each way in
which the callback can end is taken by itself: where it raises, one of the conditions of
`UploadClear` is broken. -/
theorem open_upload_ok (server : DynamicContentServer κ) (world : World κ) (path : Text)
    (peer : Text × Nat) :
    (∃ file, (server.openUpload world path peer).2 = .ok file) ↔
      UploadClear server.provider.host world (relativePath server.provider.host path) := by
  have outcome := world.open_upload_cases server path peer
  change _ ↔ UploadClear server.provider.host world (server.uploadRequest path peer).filename
  generalize server.openUpload world path peer = answer at outcome ⊢
  cases outcome with
  | malformed raised parse =>
    simp only [reduceCtorEq, exists_false, false_iff]
    intro clear
    obtain ⟨parsed, accepted⟩ := (parse_ok_iff _).mpr clear.identifier
    cases parse.symm.trans accepted
  | unexpected parsed client raised parse names refused =>
    rw [clear_session _ _ parse names, ← expected_ok_iff, refused]
    simp only [reduceCtorEq, exists_false]
  | captured parsed client waiting parse names passed =>
    rw [clear_session _ _ parse names, ← expected_ok_iff, passed]
    simp only [Except.ok.injEq, exists_eq']
  | unresolved parsed raised bare refused =>
    rw [clear_bare _ _ bare]
    simp only [reduceCtorEq, exists_false, false_iff]
    intro clear
    cases refused.symm.trans ((resolve_disk_ok _ _ _).mpr
      ⟨clear.upward, clear.clean, clear.below, rfl⟩)
  | obstructed parsed target raised bare resolved refused =>
    obtain ⟨-, -, -, rfl⟩ := (resolve_disk_ok _ _ _).mp resolved
    rw [clear_bare _ _ bare]
    simp only [reduceCtorEq, exists_false, false_iff]
    intro clear
    cases refused.symm.trans ((FileTree.make_parents_ok _ _).mpr ⟨clear.short, clear.parents⟩)
  | directory parsed target bare resolved occupied =>
    obtain ⟨-, -, -, rfl⟩ := (resolve_disk_ok _ _ _).mp resolved
    rw [clear_bare _ _ bare]
    simp only [reduceCtorEq, exists_false, false_iff]
    intro clear
    cases occupied.symm.trans clear.file
  | disk parsed target bare resolved made file =>
    obtain ⟨upward, clean, below, rfl⟩ := (resolve_disk_ok _ _ _).mp resolved
    rw [clear_bare _ _ bare]
    obtain ⟨short, parents⟩ := (FileTree.make_parents_ok _ _).mp made
    exact ⟨fun _ => ⟨upward, clean, below, short, parents, file⟩, fun _ => ⟨_, rfl⟩⟩

/-- A close raises nothing exactly when the upload, if it is still to be recorded, is one
that a session waits for. -/
theorem close_ok (world : World κ) (handle : Nat) :
    (world.close handle).2 = .ok () ↔
      ∀ upload, world.handles[handle]? = some (.capturing upload) → upload.captured = false →
        world.Waits upload.request.filename := by
  have closed := world.close_cases handle
  generalize world.close handle = outcome at closed ⊢
  cases closed with
  | absent missing => simp [missing]
  | again upload held captured =>
    simp only [true_iff]
    intro other found uncaptured
    cases held.symm.trans found
    rw [captured] at uncaptured
    cases uncaptured
  | refused upload raised held uncaptured unexpected =>
    simp only [reduceCtorEq, false_iff]
    intro waits
    obtain ⟨_, passed⟩ := (expected_ok_iff world _).mpr (waits upload held uncaptured)
    cases unexpected.symm.trans passed
  | recorded upload client session pending held uncaptured expected =>
    simp only [true_iff]
    intro other found _
    cases held.symm.trans found
    exact (expected_ok_iff world _).mp ⟨_, expected⟩
  | disk path position closed held => simp [held]

/-- In every reachable state a write request is given a file object exactly when it is clear, and
closing a file object raises nothing exactly when an upload that is still to be recorded is one that
a session waits for.

Nothing is assumed of handlers or tokens, since neither callback runs any code of them. -/
theorem upload_answered_iff (server : DynamicContentServer κ) (files : FileTree)
    (events : List Event) :
    (∀ path peer, (∃ file, (server.openUpload (server.after files events) path peer).2 = .ok file) ↔
      UploadClear server.provider.host (server.after files events)
        (relativePath server.provider.host path)) ∧
    ∀ handle, ((server.after files events).close handle).2 = .ok () ↔
      ∀ upload, (server.after files events).handles[handle]? = some (.capturing upload) →
        upload.captured = false → (server.after files events).Waits upload.request.filename :=
  ⟨fun path peer => open_upload_ok server _ path peer, fun handle => close_ok _ handle⟩

/-- A write request for a client without a session raises `FileNotFoundError`, and so does
the close of an upload whose session was restarted after the upload was opened. -/
theorem stale_upload_escapes :
    let server := sampleServer sampleEntry sampleReceive
    let peer := ("10.0.0.2".toList, 1069)
    let events := [.readRequest (sampleRequest "id=cam") 0 [],
      .readRequest (sampleRequest "id=cam/token=t/hush_shell=true") 0 [],
      .writeRequest "/srv/id=cam/token=tt/upload.bin".toList peer,
      .readRequest (sampleRequest "id=cam") 0 []]
    (server.openUpload (server.after Dict.empty []) "/srv/id=cam/token=tt/upload.bin".toList peer).2 =
        .error (.noSession "cam".toList) ∧
      (server.after Dict.empty events).handles.length = 1 ∧
      ((server.after Dict.empty events).close 0).2 =
        .error (.unexpectedUploadPath "id=cam/token=tt/upload.bin".toList) := by
  decide +kernel

end Uploads

end UbootTftp
