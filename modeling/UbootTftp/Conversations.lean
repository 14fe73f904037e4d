import Mathlib.Logic.Relation
import UbootTftp.SimulatedClient

/-!
# Conversations of a handler and a client

Seen from the code of a handler there is no protocol: a call carries out a script on the client
and returns, with the values of the requested variables in the environment, or with the bytes
that the client has read out. `Converses` says this directly, without tokens, requests or a
server. The rest of the module has what a run of the server and the client needs to be one: what
the continuations of a client carry, and that events of others leave its session alone.
-/

namespace UbootTftp

namespace TestClient

universe u v
variable {κ : Type u} {δ : Type v}

/-- A session after a client has reported keys: they are in its environments, and it belongs to the
same client and server. What else the session holds is not told. -/
structure Reports (flow : FlowClient δ) (state : δ) (keys : List Text)
    (before after : ClientSession κ) : Prop where
  clientId : after.clientId = before.clientId
  serverIp : after.serverIp = before.serverIp
  env : ∀ key, after.env.get key =
    if key ∈ keys then some (flow.reported state key) else before.env.get key
  publicEnv : ∀ key, after.publicEnv.get key =
    if key ∈ keys then some (flow.reported state key) else before.publicEnv.get key

/-- What a call returns when the client has carried out its script: nothing, or the bytes that the
client sends for the one upload in it. A final call returns nothing at all and is not covered. -/
inductive Returns (flow : FlowClient δ) (state : δ) (script : Text) : Awaited → Resumption → Prop
  | exec (request : ExecutionRequest)
      (built : ∃ script final keys, UbootTftp.exec script final keys = .ok request)
      (more : request.final = false) :
      Returns flow state script (.exec request built) .execReturned
  | execRecv (request : ExecutionRequest)
      (built : ∃ script size final keys offset,
        UbootTftp.execRecv script size final keys offset = .ok request)
      (actions : FlowActions) (upload : UploadAction)
      (read : parseFlowActions flow.isWord script = some actions)
      (single : actions.uploads = [upload]) (sized : request.receiveSize = some upload.size) :
      Returns flow state script (.execRecv request built) (.received (flow.payload state upload))

/-- A round of a conversation: the state that the handler resumes, what it finds, and the state of
the client by then. -/
structure Turn (κ : Type u) (δ : Type v) where
  state : κ
  round : Round κ
  device : δ

/-- The variable that takes the address of an upload. -/
def recvName (host : Host) (draw : Nat) : Text := "__uboot_tftp_recv_".toList ++ host.hexToken draw

/-- The first round of a handler that a start request opens. It finds what the request and the
report of the shell give. -/
inductive Begins (provider : Provider κ) (flow : FlowClient δ) (client : ClientId)
    (opening : ContentRequest) (parsed : ParsedPath) (first : δ) : Turn κ δ → Prop
  | begun (start : HandlerArguments → κ) (arguments : HandlerArguments) (draw : Nat) (text : Text)
      (round : Round κ)
      (entry : provider.module (routeFor provider.config client).entryFunc = .async start)
      (ident : arguments.ident = client.text)
      (cmd : arguments.cmd = commandFromSegments parsed.segments)
      (asked : arguments.parsed = parsed)
      (probed : appendContinue hushProbeScript
        (openedSession provider opening parsed client (provider.host.token draw) : ClientSession κ)
          none [hushKey] = .ok text)
      (reports : Reports flow (flow.update (ensureNewline text) first) [hushKey]
        (openedSession provider opening parsed client (provider.host.token draw))
        round.found.session)
      (resumption : round.resumption = .started) :
      Begins provider flow client opening parsed first
        ⟨start arguments, round, flow.update (ensureNewline text) first⟩

/-- A call of the handler leads to its next round: that finds what the round before it left and what
the client has reported since. Files and downloads are not constrained, as others change them. -/
inductive Calls (provider : Provider κ) (flow : FlowClient δ) : Turn κ δ → Turn κ δ → Prop
  | called (turn : Turn κ δ) (left : HandleState κ) (awaited : Awaited) (next : κ)
      (request : ExecutionRequest) (draw name : Nat) (text : Text) (later : Round κ)
      (plays : provider.play turn.state turn.round = (left, .awaited awaited next))
      (asks : awaited.instruction = some request)
      (written : sentScript (provider.host.token draw) (recvName provider.host name) left.session
        request = .ok text)
      (reports : Reports flow (flow.update (ensureNewline text) turn.device) request.returnKeys
        left.session later.found.session)
      (returns : Returns flow (flow.update (ensureNewline text) turn.device) (ensureNewline text)
        awaited later.resumption) :
      Calls provider flow turn ⟨next, later, flow.update (ensureNewline text) turn.device⟩

/-- A direct conversation of a handler and a client, up to a round. No token and no request occurs
in it but in the texts of the scripts. -/
def Converses (provider : Provider κ) (flow : FlowClient δ) (client : ClientId)
    (opening : ContentRequest) (parsed : ParsedPath) (first : δ) (turn : Turn κ δ) : Prop :=
  ∃ beginning, Begins provider flow client opening parsed first beginning ∧
    Relation.ReflTransGen (Calls provider flow) beginning turn

/-- A call that a client understands: its texts hold no transfer of their own, and it asks for words
that have no other meaning. -/
structure Understood (request : ExecutionRequest) : Prop where
  inert : Inert request.script
  words : ∀ key ∈ request.returnKeys, Word key
  free : ∀ key ∈ request.returnKeys, key ≠ tokenKey ∧ key ≠ recvKey ∧ key ∉ hiddenKeys
  natural : ∀ size, request.receiveSize = some size → 0 ≤ size
  closed : ∀ text, request.receiveOffset = some (.text text) → Inert text

section Paths

/-- A word has no escape. -/
theorem Word.unescaped {key : Text} (word : Word key) : ¬Escaped key := fun escaped =>
  word.foreign '%' (by decide) escaped.percent

/-- A word can be a key of a path. -/
theorem Word.clean {key : Text} (word : Word key) : key ≠ [] ∧ '/' ∉ key ∧ '=' ∉ key :=
  ⟨word.1, word.foreign '/' (by decide), word.foreign '=' (by decide)⟩

/-- A continuation with plain reports of words carries the token, the status and, of other keys,
the requested ones with their reports. -/
theorem continue_values (client : ClientId) (token : Text) (plain : Plain token)
    (status : Option Text) (written : status ∈ recvStatuses) (keys : List Text)
    (words : ∀ key ∈ keys, Word key)
    (free : ∀ key ∈ keys, key ≠ tokenKey ∧ key ≠ recvKey ∧ key ∉ hiddenKeys) (report : Text → Text)
    (reports : ∀ key ∈ keys, Plain (report key)) :
    ∃ parsed, parseRequestPath (continuePath client token status keys report) = .ok parsed ∧
      parsed.clientId = some client ∧ parsed.values.get tokenKey = some token ∧
      parsed.values.get recvKey = status ∧
      ∀ key, key ≠ tokenKey → key ≠ recvKey →
        parsed.values.get key = if key ∈ keys then some (report key) else none := by
  obtain ⟨parsed, parse, names, values⟩ := parse_continue_path client token plain status written
    keys (fun key member => (words key member).clean.2.1) report reports
  -- An entry of the path is the token, the status or a report.
  have kinds : ∀ key value, '=' ∉ key →
      (key ++ '=' :: value ∈ decodedSegments token status keys report ↔
        key = tokenKey ∧ value = token ∨ key = recvKey ∧ status = some value ∨
          key ∈ keys ∧ value = report key) := by
    intro key value whole
    simp only [decodedSegments, List.cons_append, List.mem_cons, List.mem_append, Option.mem_toList,
      Option.map_eq_some_iff, List.mem_map]
    constructor
    · rintro (same | ⟨status', wrote, same⟩ | ⟨other, inside, same⟩)
      · exact .inl (entry_injective _ _ _ _ whole (by decide) same)
      · obtain ⟨rfl, rfl⟩ := entry_injective _ _ _ _ (by decide) whole same
        exact .inr (.inl ⟨rfl, wrote⟩)
      · rw [unquote_unescaped other (words other inside).unescaped] at same
        obtain ⟨rfl, rfl⟩ := entry_injective _ _ _ _ (words other inside).clean.2.2 whole same
        exact .inr (.inr ⟨inside, rfl⟩)
    · rintro (⟨rfl, rfl⟩ | ⟨rfl, wrote⟩ | ⟨inside, rfl⟩)
      · exact .inl rfl
      · exact .inr (.inl ⟨value, wrote, rfl⟩)
      · exact .inr (.inr ⟨key, inside, by
          rw [unquote_unescaped key (words key inside).unescaped]⟩)
  -- The value of a key is that of all its entries.
  have decided : ∀ key value, key ≠ [] → '=' ∉ key →
      (∀ other, key ++ '=' :: other ∈ decodedSegments token status keys report ↔ other = value) →
      parsed.values.get key = some value := by
    intro key value present whole only
    obtain ⟨last, inside, found⟩ := key_values_named [] (decodedSegments token status keys report)
      key value present whole ((only value).mpr rfl)
    rw [values, ← (only last).mp inside]
    exact found
  have missing : ∀ key, (∀ value, '=' ∉ key →
      key ++ '=' :: value ∉ decodedSegments token status keys report) →
      parsed.values.get key = none := by
    intro key absent
    refine Option.eq_none_iff_forall_ne_some.mpr fun value found => ?_
    rw [values] at found
    obtain ⟨_, whole, inside⟩ := key_values_some _ _ _ found
    exact absent value whole inside
  refine ⟨parsed, parse, names, ?_, ?_, ?_⟩
  · refine decided tokenKey token (by decide) (by decide) fun other => ?_
    rw [kinds _ _ (by decide)]
    constructor
    · rintro (⟨-, same⟩ | ⟨different, -⟩ | ⟨inside, -⟩)
      · exact same
      · exact absurd different (by decide)
      · exact absurd rfl (free _ inside).1
    · exact fun same => .inl ⟨rfl, same⟩
  · have entry : ∀ other, recvKey ++ '=' :: other ∈ decodedSegments token status keys report ↔
        status = some other := by
      intro other
      rw [kinds _ _ (by decide)]
      constructor
      · rintro (⟨different, -⟩ | ⟨-, wrote⟩ | ⟨inside, -⟩)
        · exact absurd different (by decide)
        · exact wrote
        · exact absurd rfl (free _ inside).2.1
      · exact fun wrote => .inr (.inl ⟨rfl, wrote⟩)
    cases wrote : status with
    | none =>
      refine missing recvKey fun value _ inside => ?_
      have same := (entry value).mp inside
      rw [wrote] at same
      cases same
    | some value =>
      refine decided recvKey value (by decide) (by decide) fun other => ?_
      rw [entry, wrote, Option.some.injEq]
      exact eq_comm
  · intro key notToken notRecv
    split
    · rename_i inside
      refine decided key (report key) (words key inside).clean.1 (words key inside).clean.2.2
        fun other => ?_
      rw [kinds _ _ (words key inside).clean.2.2]
      constructor
      · rintro (⟨same, -⟩ | ⟨same, -⟩ | ⟨-, same⟩)
        · exact absurd same notToken
        · exact absurd same notRecv
        · exact same
      · exact fun same => .inr (.inr ⟨inside, same⟩)
    · rename_i outside
      refine missing key fun value whole inside => ?_
      rcases (kinds key value whole).mp inside with ⟨same, -⟩ | ⟨same, -⟩ | ⟨inside, -⟩
      · exact notToken same
      · exact notRecv same
      · exact outside inside

/-- A continuation leaves the address of the server. -/
theorem continued_server_ip (session : ClientSession κ) (parsed : ParsedPath) :
    (session.continued parsed).serverIp = session.serverIp :=
  merge_frame (·.serverIp) (fun _ _ _ => rfl) _ _

/-- A continuation that carries reports leaves them in the environments of the session and
changes nothing else there. -/
theorem continued_reports (flow : FlowClient δ) (state : δ) (session : ClientSession κ)
    (keys : List Text) (free : ∀ key ∈ keys, key ≠ tokenKey ∧ key ≠ recvKey ∧ key ∉ hiddenKeys)
    (parsed : ParsedPath)
    (carries : ∀ key, key ≠ tokenKey → key ≠ recvKey →
      parsed.values.get key = if key ∈ keys then some (flow.reported state key) else none) :
    Reports flow state keys session (session.continued parsed) := by
  have protocol : ∀ key, mergedKey key = false → key ∉ keys := by
    intro key unmerged inside
    obtain ⟨notToken, notRecv, -⟩ := free key inside
    simp [mergedKey, notToken, notRecv] at unmerged
  constructor
  case clientId => exact session.continued_client_id parsed
  case serverIp => exact continued_server_ip session parsed
  case env =>
    intro key
    rw [continued_env]
    cases merged : mergedKey key with
    | false => rw [if_neg (protocol key merged)]; rfl
    | true =>
      obtain ⟨notToken, notRecv⟩ := of_decide_eq_true merged
      rw [if_pos rfl, carries key notToken notRecv]
      split <;> rfl
  case publicEnv =>
    intro key
    rw [continued_public_env]
    cases merged : mergedKey key with
    | false => rw [if_neg (protocol key merged)]; rfl
    | true =>
      obtain ⟨notToken, notRecv⟩ := of_decide_eq_true merged
      by_cases hidden : key ∈ hiddenKeys
      · have unasked : key ∉ keys := fun inside => (free key inside).2.2 hidden
        simp [hidden, unasked]
      · rw [carries key notToken notRecv]
        simp only [hidden, not_false_eq_true, decide_true, Bool.and_self, if_true]
        split <;> rfl

/-- A client that puts what it reports into the names of its sessions. This is asked of the names
that the server writes only, with tokens of the characters of ids and with keys that are words. -/
structure Substitutes (flow : FlowClient δ) : Prop where
  continued : ∀ state client token status keys,
    (∀ character ∈ token, isClientIdChar character = true) → status ∈ recvStatuses →
    (∀ key ∈ keys, Word key) → flow.substitute state (continuePath client token status keys expansion) =
      continuePath client token status keys (flow.reported state)
  uploaded : ∀ state client token, (∀ character ∈ token, isClientIdChar character = true) →
    flow.substitute state (uploadPath client token) = uploadPath client token

/-- A client with an environment does. -/
theorem env_substitutes (flow : FlowClient δ) (environment : δ → Dict Text Text)
    (reports : ∀ state, flow.reported state = reportFrom (environment state))
    (puts : ∀ state name, flow.substitute state name =
      substituteUbootVars name (environment state)) : Substitutes flow where
  continued state client token status keys urlSafe written words := by
    rw [puts, reports]
    exact substitute_continue client token urlSafe status written keys words (environment state)
  uploaded state client token urlSafe := by
    rw [puts]
    exact substitute_upload client token urlSafe (environment state)

/-- The name of an upload is the one that the callback is given for it. The name is resolved below
the root and cut off again there. Its segments hold no slash and are no dots, so that they survive
both. -/
theorem upload_name_handed (host : Host) (rooted : SlashFree host.staticRoot) (client : ClientId)
    (token : Text) (plain : Plain token) :
    relativePath host (handedPath host (uploadPath client token)) = uploadPath client token := by
  have clean : ∀ segment ∈ ["id=".toList ++ client.text, "token=".toList ++ token,
      "upload.bin".toList], '/' ∉ segment := by
    intro segment member
    simp only [List.mem_cons, List.not_mem_nil, or_false] at member
    rcases member with rfl | rfl | rfl
    · simpa using (client_id_plain client).1
    · simpa using plain.1
    · decide
  have split : (uploadPath client token).splitOn '/' = ["id=".toList ++ client.text,
      "token=".toList ++ token, "upload.bin".toList] :=
    List.splitOn_intercalate '/' clean (by simp)
  have begun : (uploadPath client token).dropWhile (· == '/') = uploadPath client token := rfl
  have down : LexicalPaths.Down Stays Climbs ["id=".toList ++ client.text,
      "token=".toList ++ token, "upload.bin".toList] := by
    intro part member
    simp only [List.mem_cons, List.not_mem_nil, or_false] at member
    rcases member with rfl | rfl | rfl
    · simp
    · simp
    · decide
  have below : lexicalTarget host.staticRoot (uploadPath client token) =
      normalizedParts host.staticRoot ++ ["id=".toList ++ client.text,
        "token=".toList ++ token, "upload.bin".toList] := by
    rw [lexicalTarget, begun, split]
    exact LexicalPaths.normalize_append_down _ _ down
  rw [handed_name host rooted, below, relative_parts_inside]
  rfl

end Paths

section Others

variable (server : DynamicContentServer κ) (client : ClientId) (world : World κ) (event : Event)
  (sound : world.Sound server.provider.host) (foreign : Foreign client world event)

include sound foreign in
/-- An event of somebody else leaves the client's session as it is. An event of somebody else is
neither a request that the server takes for the client's nor a close of a file object that the
session waits for. -/
theorem foreign_session :
    (server.step world event).sessions.get client = world.sessions.get client := by
  by_cases read : ∃ request now schedule, event = .readRequest request now schedule
  · obtain ⟨request, now, schedule, rfl⟩ := read
    obtain ⟨unstarted, unaccepted⟩ := foreign.unanswered request now schedule rfl
    rw [DynamicContentServer.step_read_request]
    rcases fetch_unaccepted world server.provider now schedule request sound client unaccepted with
      ⟨same, -⟩ | ⟨parsed, starts, -⟩
    · exact same
    · exact absurd starts (unstarted parsed)
  have unread : ∀ request now schedule, event ≠ .readRequest request now schedule :=
    fun request now schedule same => read ⟨request, now, schedule, same⟩
  by_cases closes : ∃ handle, event = .close handle
  · obtain ⟨handle, rfl⟩ := closes
    simp only [DynamicContentServer.step]
    have closed := world.close_cases handle
    generalize world.close handle = result at closed ⊢
    cases closed with
    | absent missing => rfl
    | again upload held captured => rfl
    | refused upload raised held uncaptured unexpected => rfl
    | disk path position closed held => rfl
    | recorded upload other session pending held uncaptured expected =>
      obtain ⟨parsed, parse, names, stored, expecting, expects⟩ :=
        (InMemoryUploadStore.expected_ok _ _ _ _ _).mp expected
      by_cases same : other = client
      · subst same
        have carried := (Bool.and_eq_true_iff.mp expects).2
        have mine := (is_for_iff upload.request other pending.token).mpr
          ⟨parsed, parse, names, of_decide_eq_true carried⟩
        exact absurd rfl (foreign.apart session pending handle upload stored expecting held mine).1
      · exact Dict.get_set_other _ _ _ _ (Ne.symm same)
  · rw [(quiet_step server world event unread
      fun handle same => closes ⟨handle, same⟩).1]

include sound foreign in
/-- An event of somebody else leaves an upload that the session waits for as it is. The file object
is neither written to nor closed by such an event, and a later one gets a new number. -/
theorem foreign_upload (session : ClientSession κ) (pending : PendingReceive) (handle : Nat)
    (upload : CapturingUpload) (stored : world.sessions.get client = some session)
    (expecting : session.pendingReceive = some pending)
    (held : world.handles[handle]? = some (.capturing upload))
    (mine : upload.request.isFor client pending.token = true) :
    (server.step world event).handles[handle]? = some (.capturing upload) := by
  obtain ⟨unclosed, unwritten⟩ := foreign.apart session pending handle upload stored expecting held
    mine
  obtain ⟨later, present, -, -⟩ := step_keeps_upload server world event sound handle upload held
  have holds := step_holds server world event sound handle later present
  cases holds with
  | kept _ still _ =>
    cases still.symm.trans held
    exact present
  | written earlier chunk still uncaptured same => exact absurd same (unwritten chunk)
  | captured earlier still uncaptured same => exact absurd same unclosed
  | opened path peer same fresh given =>
    rw [fresh, List.getElem?_eq_none (Nat.le_refl _)] at held
    cases held

end Others

end TestClient

end UbootTftp
