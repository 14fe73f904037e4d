import UbootTftp.PercentEncoding
import UbootTftp.RequestPaths
import UbootTftp.SessionOrigins

/-!
# Requests that start a session

A client asks for a session with the segments of a path: its id, the command for the handler
and values for the environment. It writes each segment percent-encoded and separates them by
slashes, so whatever a segment holds is read back as it was, and the session that is stored
carries the command and the values.
-/

namespace UbootTftp

universe u
variable {κ : Type u}

section Filenames

/-- Written segments with slashes before, between and behind them. Before each one but the
first stands one slash more than its number says. -/
def slashed (lead : Nat) (first : Text) (rest : List (Nat × Text)) (trail : Nat) : Text :=
  List.replicate lead '/' ++ first ++
    rest.flatMap (fun entry => List.replicate (entry.1 + 1) '/' ++ entry.2) ++
    List.replicate trail '/'

/-- A filename that carries segments: each of them is written somehow, with slashes around. Any
number of slashes may stand between two of them, since empty segments are dropped. -/
def Carries (filename : Text) (names : List Text) : Prop :=
  ∃ lead first rest trail, filename = slashed lead first rest trail ∧
    List.Forall₂ Encodes names (first :: rest.map Prod.snd)

/-- Leading slashes add no segment. -/
theorem segments_lead (lead : Nat) (text : Text) :
    segments (List.replicate lead '/' ++ text) = segments text := by
  induction lead with
  | zero => rfl
  | succ lead inductionHypothesis =>
    rw [List.replicate_succ, List.cons_append, segments_front, inductionHypothesis]

/-- Trailing slashes add no segment. -/
theorem segments_trail (text : Text) (trail : Nat) :
    segments (text ++ List.replicate trail '/') = segments text := by
  cases trail with
  | zero => rw [List.replicate_zero, List.append_nil]
  | succ trail =>
    have slashes := segments_lead trail []
    rw [List.append_nil] at slashes
    rw [List.replicate_succ, segments_slash, slashes]
    exact List.append_nil _

/-- The segments of a filename are those that it was written of.

Proof: by induction on the segments behind the first one, each of which follows on a slash. -/
theorem segments_slashed (lead : Nat) (first : Text) (rest : List (Nat × Text)) (trail : Nat)
    (clean : ∀ text ∈ first :: rest.map Prod.snd, text ≠ [] ∧ '/' ∉ text) :
    segments (slashed lead first rest trail) = first :: rest.map Prod.snd := by
  rw [slashed, segments_trail, List.append_assoc, segments_lead]
  induction rest generalizing first with
  | nil =>
    obtain ⟨present, free⟩ := clean first (by simp)
    rw [List.flatMap_nil, List.append_nil, segments_part first free present]
    rfl
  | cons entry rest inductionHypothesis =>
    obtain ⟨present, free⟩ := clean first (by simp)
    have later := inductionHypothesis entry.2 fun text member =>
      clean text (List.mem_cons_of_mem _ member)
    rw [List.flatMap_cons, List.replicate_succ, List.cons_append, List.cons_append, segments_slash,
      segments_part first free present, List.append_assoc, segments_lead, later]
    rfl

/-- A filename is split into the written segments, and each is decoded to what it stands for.

Proof: the segments are those that were written, and by induction on them each is decoded to what it
stands for. -/
theorem Carries.split {filename : Text} {names : List Text} (carries : Carries filename names)
    (present : ∀ name ∈ names, name ≠ []) :
    (((Sequences.strip (· == '/') filename).splitOn '/').filter
      (fun segment => decide (segment ≠ []))).map unquote = names := by
  obtain ⟨lead, first, rest, trail, rfl, encoded⟩ := carries
  have read : ∀ (names texts : List Text), List.Forall₂ Encodes names texts →
      (∀ name ∈ names, name ≠ []) →
      (∀ text ∈ texts, text ≠ [] ∧ '/' ∉ text) ∧ texts.map unquote = names := by
    intro names texts encoded present
    induction encoded with
    | nil => exact ⟨by simp, rfl⟩
    | cons encodes others inductionHypothesis =>
      obtain ⟨here, there⟩ := List.forall_mem_cons.mp present
      obtain ⟨clean, decoded⟩ := inductionHypothesis there
      refine ⟨List.forall_mem_cons.mpr ⟨⟨encodes.present here, encodes.no_slash⟩, clean⟩, ?_⟩
      rw [List.map_cons, encodes.unquoted, decoded]
  obtain ⟨clean, decoded⟩ := read _ _ encoded present
  have split := segments_strip (slashed lead first rest trail)
  rw [segments_slashed lead first rest trail clean] at split
  exact (congrArg (List.map unquote) split).trans decoded

end Filenames

/-- The segment of a key and its value. -/
def pairSegment (pair : Text × Text) : Text := pair.1 ++ '=' :: pair.2

/-- The value of the last pair with a key. Earlier pairs with the key are overwritten. -/
def lastValue (pairs : List (Text × Text)) (key : Text) : Option Text :=
  (pairs.reverse.find? (fun pair => decide (pair.1 = key))).map Prod.snd

section Parsing

variable (client : ClientId) (id command : Text) (pairs : List (Text × Text))

/-- What the parser makes of a filename that carries an id and the segments of a message. -/
theorem carried_parse (filename : Text) (valid : normalizeClientId id = .ok client)
    (message : List Text) (present : ∀ name ∈ message, name ≠ [])
    (carries : Carries filename (("id=".toList ++ id) :: message)) :
    parseRequestPath filename = .ok ⟨filename, some client,
      if message = [] then ['/'] else joinPath message, message,
      keyValues message Dict.empty⟩ := by
  have split := carries.split (List.forall_mem_cons.mpr ⟨by simp, present⟩)
  have cut := Sequences.partition_append '=' "id".toList id (by decide)
  have named : "id=".toList ++ id = "id".toList ++ '=' :: id := rfl
  simp only [parseRequestPath, split, named, cut, valid, and_self, if_true]

/-- The segments of pairs are entries again. -/
theorem pair_entries (keyed : ∀ pair ∈ pairs, pair.1 ≠ [] ∧ '=' ∉ pair.1) :
    (pairs.map pairSegment).filterMap segmentEntry = pairs := by
  rw [List.filterMap_map]
  have each : ∀ pair ∈ pairs, (segmentEntry ∘ pairSegment) pair = some pair := fun pair member =>
    (segment_entry_iff _ _ _).mpr ⟨(keyed pair member).1, (keyed pair member).2, rfl⟩
  rw [List.filterMap_congr each, List.filterMap_some]

/-- A message without a token is that of a start. -/
theorem message_tokenless (keyed : ∀ pair ∈ pairs, pair.1 ≠ [] ∧ '=' ∉ pair.1)
    (plain : ¬"token=".toList <+: command) (tokenless : ∀ pair ∈ pairs, pair.1 ≠ tokenKey) :
    (keyValues (command :: pairs.map pairSegment) Dict.empty).get tokenKey = none := by
  by_contra held
  obtain ⟨value, found⟩ := Option.ne_none_iff_exists'.mp held
  obtain ⟨-, free, member⟩ := key_values_some _ _ _ found
  rcases List.mem_cons.mp member with same | later
  · exact plain ⟨value, same⟩
  · obtain ⟨pair, inside, same⟩ := List.mem_map.mp later
    exact tokenless pair inside (entry_injective _ _ _ _ (keyed pair inside).2 free same).1

/-- The environment of a session whose request carries the pairs. -/
theorem carried_env (baseEnv routeEnv : Dict Text Text) (parsed : ParsedPath)
    (carried : parsed.segments = command :: pairs.map pairSegment)
    (keyed : ∀ pair ∈ pairs, pair.1 ≠ [] ∧ '=' ∉ pair.1) (key : Text) :
    (sessionEnv baseEnv routeEnv parsed).get key =
      (lastValue pairs key).or ((routeEnv.get key).or (baseEnv.get key)) := by
  rw [sessionEnv, carried, List.tail_cons, key_values_update, pair_entries pairs keyed,
    Dict.get_update, Dict.get_update, Dict.ofList_entries, Dict.get_ofList_last, lastValue]

end Parsing

section Starting

variable (server : DynamicContentServer κ) (files : FileTree)

/-- What comes of a request that starts a session for a client: what the parser reads, the
environment of the stored session, and what a handler is called with that a later request of the
session begins.

The handler is called only after the preflight, so the last field is about every later request
before which the client has not started again, with any events in between. -/
structure StartsWith (events : List Event) (client : ClientId) (command : Text)
    (pairs : List (Text × Text)) (request : ContentRequest) (now : Nat) (schedule : Schedule)
    (parsed : ParsedPath) : Prop where
  starts : Starts request.filename parsed client
  segments : parsed.segments = command :: pairs.map pairSegment
  env : ∃ session,
    (server.after files (events ++ [.readRequest request now schedule])).sessions.get client =
      some session ∧
    ∀ key, session.env.get key = (lastValue pairs key).or
      (((routeFor server.provider.config client).env.get key).or
        (server.provider.config.env.get key))
  handler : ∀ between,
    (∀ again restart restartNow restartSchedule,
      .readRequest restart restartNow restartSchedule ∈ between →
      ¬Starts restart.filename again client) →
    ∀ next nextParsed session state point resumption,
      (server.after files (events ++ .readRequest request now schedule :: between)).Accepts
        next.filename nextParsed client session →
      session.preflightPending = true →
      Enters server.provider next nextParsed session state point resumption →
      ∃ start arguments,
        server.provider.module (routeFor server.provider.config client).entryFunc =
          .async start ∧
        state = start arguments ∧ arguments.cmd = command ∧ arguments.ident = client.text ∧
        arguments.parsed = parsed

variable {server files}

/-- A start request stores a session with its own environment. The token is the one that is drawn
next, and the environment is the base one with the arguments of the start. -/
theorem started_stored (events : List Event) {client : ClientId} {request : ContentRequest}
    {parsed : ParsedPath} (starts : Starts request.filename parsed client) (now : Nat)
    (schedule : Schedule) :
    (server.after files (events ++ [.readRequest request now schedule])).sessions.get client =
      some (openedSession server.provider request parsed client
        (server.provider.host.token (server.after files events).tokensDrawn)) := by
  have sound := after_sound server files events
  have opened := (server.after files events).start_opened server.provider now request parsed client
    fun existing stored => (sound.sessions client existing stored).keyed
  have stepped : server.after files (events ++ [.readRequest request now schedule]) =
      ((server.after files events).startSession server.provider now request parsed client).1 := by
    rw [DynamicContentServer.after, Runs.run_snoc, ← DynamicContentServer.after,
      DynamicContentServer.step_read_request, World.fetch, starts.parse]
    simp only [starts.names, starts.fresh, Bool.false_eq_true, if_false]
  rw [stepped]
  exact opened.leaves.own

/-- The session of a start request that no other start follows comes from that request. Without
another start the only request that can have opened the session is this one. -/
theorem started_first {events between : List Event} {client : ClientId} {request : ContentRequest}
    {now : Nat} {schedule : Schedule} {parsed : ParsedPath} {session : ClientSession κ}
    (starts : Starts request.filename parsed client)
    (unstarted : ∀ again restart restartNow restartSchedule,
      .readRequest restart restartNow restartSchedule ∈ between →
      ¬Starts restart.filename again client)
    (stored : (server.after files
      (events ++ .readRequest request now schedule :: between)).sessions.get client =
        some session) : session.requests.head? = some parsed := by
  obtain ⟨before, start, first, origin⟩ := after_origin server files _ client session stored
  obtain ⟨startNow, startSchedule, rest, split, last⟩ := origin.split
  have none : ∀ tail : List Event, (∀ again restart restartNow restartSchedule,
      .readRequest restart restartNow restartSchedule ∈ tail →
      ¬Starts restart.filename again client) →
      ∀ later ∈ tail, ¬∃ again restart restartNow restartSchedule,
        later = .readRequest restart restartNow restartSchedule ∧
          Starts restart.filename again client := by
    rintro tail unstarted later member ⟨again, restart, restartNow, restartSchedule, rfl, starts⟩
    exact unstarted again restart restartNow restartSchedule member starts
  obtain ⟨-, same, -⟩ := Sequences.last_unique
    (fun event => ∃ again restart restartNow restartSchedule,
      event = .readRequest restart restartNow restartSchedule ∧
        Starts restart.filename again client)
    _ _ _ _ _ _ split ⟨parsed, request, now, schedule, rfl, starts⟩
    ⟨first, start, startNow, startSchedule, rfl, origin.starts⟩ (none between unstarted)
    (none rest last)
  cases same
  cases starts.parse.symm.trans origin.starts.parse
  exact origin.first

/-- A handler that begins is called with the command of its session's first request. Later requests
of the session may carry another path, and the handler is not told. -/
theorem begun_arguments {session : ClientSession κ} {next : ContentRequest}
    {nextParsed parsed : ParsedPath} {state : κ} {point : Suspension} {resumption : Resumption}
    (provider : Provider κ) (client : ClientId) (keyed : session.clientId = client)
    (first : session.requests.head? = some parsed) (pending : session.preflightPending = true)
    (enters : Enters provider next nextParsed session state point resumption) :
    ∃ start arguments,
      provider.module (routeFor provider.config client).entryFunc = .async start ∧
      state = start arguments ∧ arguments.cmd = commandFromSegments parsed.segments ∧
      arguments.ident = client.text ∧ arguments.parsed = parsed := by
  obtain ⟨-, -, -, made⟩ := enters.preflight pending
  obtain ⟨rest, requests⟩ := List.head?_eq_some_iff.mp first
  simp only [createHandler, ClientSession.continued_requests, requests, List.cons_append,
    ClientSession.continued_client_id, keyed] at made
  split at made
  · cases made
  · cases made
  · cases made
  · rename_i start entry
    cases made
    exact ⟨start, _, entry, rfl, rfl, rfl, rfl⟩

end Starting

/-- A request that carries a client's id, a command and pairs starts a session with them: the id is
lower-cased, the segments are read as they were, the pairs override the environments of the route
and of the configuration with the last pair of a key winning, and the handler is called with the
command.

The segments may hold anything, slashes and percent signs included. Only what would make the request
a continuation is excluded: a token among the pairs or in the place of the command. -/
theorem session_request_round_trip (server : DynamicContentServer κ) (files : FileTree)
    (events : List Event) (id : Text) (client : ClientId)
    (valid : normalizeClientId id = .ok client) (command : Text) (present : command ≠ [])
    (pairs : List (Text × Text)) (keyed : ∀ pair ∈ pairs, pair.1 ≠ [] ∧ '=' ∉ pair.1)
    (plain : ¬"token=".toList <+: command) (tokenless : ∀ pair ∈ pairs, pair.1 ≠ tokenKey)
    (request : ContentRequest) (now : Nat) (schedule : Schedule)
    (carries : Carries request.filename
      (("id=".toList ++ id) :: command :: pairs.map pairSegment)) :
    client.text = Text.lower id ∧
      ∃ parsed, StartsWith server files events client command pairs request now schedule
        parsed := by
  have lowered : client.text = Text.lower id := by
    unfold normalizeClientId at valid
    split at valid
    · cases valid
      rfl
    · cases valid
  have message : ∀ name ∈ command :: pairs.map pairSegment, name ≠ [] := by
    intro name member
    rcases List.mem_cons.mp member with rfl | later
    · exact present
    · obtain ⟨pair, -, rfl⟩ := List.mem_map.mp later
      simp [pairSegment]
  have parse := carried_parse client id request.filename valid _ message carries
  have starts : Starts request.filename _ client :=
    ⟨parse, rfl, by simp [isContinuation, message_tokenless command pairs keyed plain tokenless]⟩
  refine ⟨lowered, _, starts, rfl, ?env, ?handler⟩
  case env =>
    exact ⟨_, started_stored events starts now schedule,
      carried_env command pairs server.provider.config.env
        (routeFor server.provider.config client).env _ rfl keyed⟩
  case handler =>
    intro between unstarted next nextParsed session state point resumption accepts pending enters
    have first := started_first starts unstarted accepts.stored
    have keyed := ((after_sound server files _).sessions client session accepts.stored).keyed
    exact begun_arguments server.provider client keyed first pending enters

/-- A command with a slash and two values for one key, the last one with a percent sign. -/
theorem session_request_sample :
    sampleClient.text = Text.lower "Cam".toList ∧
      ∃ parsed, StartsWith (sampleServer sampleEntry sampleCode) Dict.empty [] sampleClient
        "in/stall".toList [("k".toList, "ä=".toList), ("k".toList, "5%".toList)]
        (sampleRequest "//id%3DCam//in%2Fstall/k%3D%C3%A4%3D/k%3D5%25/") 0 [] parsed := by
  refine session_request_round_trip _ Dict.empty [] "Cam".toList sampleClient (by decide)
    "in/stall".toList (by decide) [("k".toList, "ä=".toList), ("k".toList, "5%".toList)]
    (by decide) (by decide) (by decide) _ 0 [] ⟨2, quoteSegment "id=Cam".toList,
      [(1, quoteSegment "in/stall".toList), (0, quoteSegment "k=ä=".toList),
        (0, quoteSegment "k=5%".toList)], 1, by decide, ?_⟩
  exact .cons (quote_encodes _) (.cons (quote_encodes _) (.cons (quote_encodes _)
    (.cons (quote_encodes _) .nil)))

end UbootTftp
