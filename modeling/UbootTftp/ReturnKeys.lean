import Mathlib.Algebra.Order.BigOperators.Group.List
import UbootTftp.RequestPaths
import UbootTftp.SoundSessions

/-!
# Return keys beside the protocol's own keys

A continuation carries the token, the status of an upload and the requested keys as entries
of one flat path, in which the last entry of a key wins and percent escapes are decoded.
`_normalize_return_keys` keeps slashes and equals signs out of the keys. What it lets through
disturbs nothing exactly when no key is one of the protocol's own and none holds an escape.
-/

namespace UbootTftp

universe u
variable {κ : Type u}

/-- What a session's next continuation has to come back with: it is accepted, has the status that
the script wrote, and brings the value of every requested key. -/
def Undisturbed (world : World κ) (client : ClientId) (session : ClientSession κ)
    (recvStatus : Option Text) (returnKeys : List Text) (report : Text → Text) : Prop :=
  ∃ token parsed, session.currentToken = some token ∧
    world.Accepts (continuePath client token recvStatus returnKeys report) parsed client session ∧
    parsed.values.get recvKey = recvStatus ∧
    ∀ key ∈ returnKeys, (session.continued parsed).env.get key = some (report key)

/-- A key that neither is the protocol's nor changes when it is decoded. -/
def Harmless (key : Text) : Prop := ¬Escaped key ∧ key ≠ tokenKey ∧ key ≠ recvKey

/-- A key that is accepted is not empty and holds no character that structures a path. Keys are not
changed by the check. Nothing is said about an escape in them, which the check lets pass. -/
theorem return_key_accepted (keys returnKeys : List Text)
    (accepted : normalizeReturnKeys keys = .ok returnKeys) :
    returnKeys = keys ∧ ∀ key ∈ keys, key ≠ [] ∧ '/' ∉ key ∧ '=' ∉ key := by
  simp only [normalizeReturnKeys] at accepted
  cases refused : keys.find? invalidReturnKey with
  | some key =>
    rw [refused] at accepted
    cases accepted
  | none =>
    rw [refused] at accepted
    cases accepted
    refine ⟨rfl, fun key member => ?_⟩
    have valid := List.find?_eq_none.mp refused key member
    simp only [invalidReturnKey, Bool.or_eq_true, decide_eq_true_eq, List.any_eq_true, not_or,
      not_exists, not_and] at valid
    exact ⟨valid.1, fun slash => valid.2 '/' slash (by decide),
      fun equals => valid.2 '=' equals (by decide)⟩

/-- What `exec` makes of its arguments. -/
theorem exec_request (script : Script) (final : Bool) (keys : List Text)
    (request : ExecutionRequest) (made : exec script final keys = .ok request) :
    request = ⟨joinScriptLines script, final, none, keys, none⟩ := by
  obtain ⟨returnKeys, valid, built⟩ := (Except.bind_eq_ok _ _ _).mp made
  obtain ⟨rfl, -⟩ := return_key_accepted _ _ valid
  cases built
  rfl

/-- What `exec_recv` makes of its arguments. It is not final, and its keys are the given ones, which
have been checked but not changed. -/
theorem exec_recv_request (script : Script) (size : Int) (final : Bool) (keys : List Text)
    (offset : Option UbootNumber) (request : ExecutionRequest)
    (made : execRecv script size final keys offset = .ok request) :
    request = ⟨joinScriptLines script, false, some size, keys, offset⟩ := by
  unfold execRecv at made
  split at made
  · cases made
  · obtain ⟨returnKeys, valid, built⟩ := (Except.bind_eq_ok _ _ _).mp made
    obtain ⟨rfl, -⟩ := return_key_accepted _ _ valid
    cases built
    rfl

/-- An entry of a key with the last part of another entry is no shorter in its value. The equals
sign of the other entry is found in the value or is the one that follows the key, as the key has
none. -/
theorem entry_tail_length (key value front tail : Text) (free : '=' ∉ key)
    (same : key ++ '=' :: value = front ++ '=' :: tail) : tail.length ≤ value.length := by
  rcases List.append_eq_append_iff.mp same with ⟨inner, rfl, rest⟩ | ⟨inner, rfl, rest⟩
  · have length := congrArg List.length rest
    simp only [List.length_append, List.length_cons] at length
    omega
  · cases inner with
    | nil =>
      rw [List.nil_append] at rest
      cases rest
      exact Nat.le_refl _
    | cons first inner =>
      rw [List.cons_append] at rest
      obtain ⟨rfl, _⟩ := List.cons.inj rest
      simp at free

section Continuations

variable {world : World κ} {client : ClientId} {session : ClientSession κ} {token : Text}
  {recvStatus : Option Text} {returnKeys : List Text}

/-- Harmless keys disturb nothing. The values that are reported are plain, so each of them comes
back under its own key, and the token and the status stay as they were written. -/
theorem harmless_undisturbed (stored : world.sessions.get client = some session)
    (current : session.currentToken = some token) (plain : Plain token)
    (written : recvStatus ∈ recvStatuses)
    (keys : ∀ key ∈ returnKeys, key ≠ [] ∧ '/' ∉ key ∧ '=' ∉ key)
    (harmless : ∀ key ∈ returnKeys, Harmless key) (report : Text → Text)
    (reports : ∀ key ∈ returnKeys, Plain (report key)) :
    Undisturbed world client session recvStatus returnKeys report := by
  obtain ⟨parsed, parse, names, values⟩ := parse_continue_path client token plain recvStatus written
    returnKeys (fun key member => (keys key member).2.1) report reports
  have segments : decodedSegments token recvStatus returnKeys report =
      ("token".toList ++ '=' :: token) ::
        (recvStatus.map (fun status => "recv".toList ++ '=' :: status)).toList ++
          returnKeys.map (fun key => key ++ '=' :: report key) := by
    rw [decodedSegments]
    congr 1
    exact List.map_congr_left fun key member => by
      rw [unquote_unescaped key (harmless key member).1]
  -- An entry of the path under a key is one of the three kinds.
  have kinds : ∀ key value, parsed.values.get key = some value →
      key = tokenKey ∧ value = token ∨ key = recvKey ∧ recvStatus = some value ∨
        key ∈ returnKeys ∧ value = report key := by
    intro key value found
    rw [values] at found
    obtain ⟨_, free, member⟩ := key_values_some _ _ _ found
    simp only [segments, List.cons_append, List.mem_cons, List.mem_append, Option.mem_toList,
      Option.map_eq_some_iff, List.mem_map] at member
    rcases member with same | ⟨status, wrote, same⟩ | ⟨other, inside, same⟩
    · exact .inl (entry_injective _ _ _ _ free (by decide) same)
    · obtain ⟨rfl, rfl⟩ := entry_injective _ _ _ _ (by decide) free same
      exact .inr (.inl ⟨rfl, wrote⟩)
    · obtain ⟨rfl, rfl⟩ := entry_injective _ _ _ _ (keys other inside).2.2 free same
      exact .inr (.inr ⟨inside, rfl⟩)
  have present : ∀ key value, key ≠ [] → '=' ∉ key →
      key ++ '=' :: value ∈ decodedSegments token recvStatus returnKeys report →
      ∃ last, parsed.values.get key = some last := by
    intro key value some free member
    obtain ⟨last, _, found⟩ := key_values_named [] _ key value some free member
    exact ⟨last, values ▸ found⟩
  have tokenValue : parsed.values.get tokenKey = some token := by
    obtain ⟨last, found⟩ := present tokenKey token (by decide) (by decide)
      (by simp [segments, tokenKey])
    rcases kinds _ _ found with ⟨_, rfl⟩ | ⟨other, _⟩ | ⟨inside, _⟩
    · exact found
    · exact absurd other (by decide)
    · exact absurd rfl (harmless tokenKey inside).2.1
  refine ⟨token, parsed, current, ⟨parse, names, ?_, stored, tokenValue.trans current.symm⟩, ?_, ?_⟩
  · simp [isContinuation, tokenValue]
  · have received : ∀ value, parsed.values.get recvKey = some value → recvStatus = some value := by
      intro value found
      rcases kinds _ _ found with ⟨other, _⟩ | ⟨_, wrote⟩ | ⟨inside, _⟩
      · exact absurd other (by decide)
      · exact wrote
      · exact absurd rfl (harmless recvKey inside).2.2
    cases status : recvStatus with
    | none =>
      refine Option.eq_none_iff_forall_ne_some.mpr fun value found => ?_
      cases status.symm.trans (received value found)
    | some wrote =>
      obtain ⟨last, found⟩ := present recvKey wrote (by decide) (by decide)
        (by rw [segments, status]; simp [recvKey])
      rw [found, ← received last found, status]
  · intro key member
    obtain ⟨unescaped, notToken, notRecv⟩ := harmless key member
    obtain ⟨last, found⟩ := present key (report key) (keys key member).1 (keys key member).2.2
      (by simp only [segments, List.mem_append, List.mem_map]; exact .inr ⟨key, member, rfl⟩)
    have merged : mergedKey key = true := by simp [mergedKey, notToken, notRecv]
    rcases kinds _ _ found with ⟨other, _⟩ | ⟨other, _⟩ | ⟨_, rfl⟩
    · exact absurd other notToken
    · exact absurd other notRecv
    · rw [continued_env, merged, if_pos rfl, found, Option.some_or]

/-- A requested key that is decoded to a key holds a value that ends in what is reported for one of
the keys. A later key can overwrite an earlier one, but with a value that has been reported. -/
theorem requested_value (plain : Plain token) (written : recvStatus ∈ recvStatuses)
    (keys : ∀ key ∈ returnKeys, key ≠ [] ∧ '/' ∉ key ∧ '=' ∉ key) (report : Text)
    (reports : Plain report) (key : Text) (member : key ∈ returnKeys) (unescaped : ¬Escaped key)
    (parsed : ParsedPath)
    (parse : parseRequestPath (continuePath client token recvStatus returnKeys fun _ => report) =
      .ok parsed) :
    ∃ last, parsed.values.get key = some last ∧ report.length ≤ last.length := by
  obtain ⟨same, parseAgain, _, values⟩ := parse_continue_path client token plain recvStatus written
    returnKeys (fun key member => (keys key member).2.1) (fun _ => report) (fun _ _ => reports)
  cases parse.symm.trans parseAgain
  obtain ⟨present, _, free⟩ := keys key member
  obtain ⟨last, inside, found⟩ := key_values_named
    (("token".toList ++ '=' :: token) ::
      (recvStatus.map (fun status => "recv".toList ++ '=' :: status)).toList)
    (returnKeys.map (fun key => unquote key ++ '=' :: report)) key report present free
    (List.mem_map.mpr ⟨key, member, by rw [unquote_unescaped key unescaped]⟩)
  obtain ⟨other, _, shape⟩ := List.mem_map.mp inside
  exact ⟨last, values ▸ found, entry_tail_length key last _ report free shape.symm⟩

variable (world client) in
/-- The token cannot be a requested key: the reported value would stand for it. The later entry of a
path counts, and requested keys come behind the token. -/
theorem token_key_disturbs (current : session.currentToken = some token) (plain : Plain token)
    (written : recvStatus ∈ recvStatuses)
    (keys : ∀ key ∈ returnKeys, key ≠ [] ∧ '/' ∉ key ∧ '=' ∉ key) (member : tokenKey ∈ returnKeys) :
    ∃ report : Text → Text, (∀ key, Plain (report key)) ∧
      ¬Undisturbed world client session recvStatus returnKeys report := by
  have longer : Plain (token ++ ['x']) := by
    constructor
    · simpa using plain.1
    · simpa using plain.2
  refine ⟨fun _ => token ++ ['x'], fun _ => longer, ?_⟩
  rintro ⟨same, parsed, currentAgain, accepts, _, _⟩
  cases current.symm.trans currentAgain
  obtain ⟨last, found, length⟩ := requested_value plain written keys _ longer tokenKey member
    (fun escaped => absurd escaped.percent (by decide)) parsed accepts.parse
  rw [accepts.current, current] at found
  cases found
  simp at length

variable (world client) in
/-- The status cannot be a requested key: the reported value would stand for it. A value that is
neither of the two statuses makes it a status that no upload has. -/
theorem recv_key_disturbs (current : session.currentToken = some token) (plain : Plain token)
    (written : recvStatus ∈ recvStatuses)
    (keys : ∀ key ∈ returnKeys, key ≠ [] ∧ '/' ∉ key ∧ '=' ∉ key) (member : recvKey ∈ returnKeys) :
    ∃ report : Text → Text, (∀ key, Plain (report key)) ∧
      ¬Undisturbed world client session recvStatus returnKeys report := by
  have longer : Plain "unknown".toList := by decide
  refine ⟨fun _ => "unknown".toList, fun _ => longer, ?_⟩
  rintro ⟨same, parsed, currentAgain, accepts, received, _⟩
  cases current.symm.trans currentAgain
  obtain ⟨last, found, length⟩ := requested_value plain written keys _ longer recvKey member
    (fun escaped => absurd escaped.percent (by decide)) parsed accepts.parse
  rw [received] at found
  subst found
  simp only [recvStatuses, List.mem_cons, reduceCtorEq, Option.some.injEq, List.not_mem_nil,
    or_false, false_or] at written
  rcases written with rfl | rfl
  · exact absurd length (by decide)
  · exact absurd length (by decide)

variable (world client) in
/-- A requested key with an escape does not come back under its own name. The path is decoded before
it is cut into keys and values, so the value arrives under the decoded key. -/
theorem escaped_key_disturbs (current : session.currentToken = some token) (plain : Plain token)
    (written : recvStatus ∈ recvStatuses)
    (keys : ∀ key ∈ returnKeys, key ≠ [] ∧ '/' ∉ key ∧ '=' ∉ key) (key : Text)
    (member : key ∈ returnKeys) (escaped : Escaped key) :
    ∃ report : Text → Text, (∀ key, Plain (report key)) ∧
      ¬Undisturbed world client session recvStatus returnKeys report := by
  -- The reported text is longer than every key and than the value from before.
  let size := (returnKeys.map List.length).sum + ((session.env.get key).getD []).length + 1
  have filled : Plain (List.replicate size 'x') := by
    constructor
    · exact fun slash => absurd (List.mem_replicate.mp slash).2 (by decide)
    · exact fun percent => absurd (List.mem_replicate.mp percent).2 (by decide)
  have reports : ∀ other, Plain ((fun other => if other = key then List.replicate size 'x' else [])
      other) := by
    intro other
    by_cases same : other = key
    · simpa [same] using filled
    · simp [same, Plain]
  refine ⟨_, reports, ?_⟩
  rintro ⟨same, parsed, currentAgain, accepts, _, updated⟩
  cases current.symm.trans currentAgain
  obtain ⟨other, parse, _, values⟩ := parse_continue_path client token plain recvStatus written
    returnKeys (fun key member => (keys key member).2.1) _ (fun key _ => reports key)
  cases parse.symm.trans accepts.parse
  obtain ⟨_, _, free⟩ := keys key member
  have value := updated key member
  have merged : mergedKey key = true := by
    have percent := escaped.percent
    simp only [mergedKey, decide_eq_true_eq]
    constructor
    · rintro rfl
      exact absurd percent (by decide)
    · rintro rfl
      exact absurd percent (by decide)
  rw [continued_env, merged, if_pos rfl] at value
  simp only [if_true] at value
  cases found : parsed.values.get key with
  | none =>
    rw [found, Option.none_or] at value
    have length : ((session.env.get key).getD []).length = size := by rw [value]; simp
    omega
  | some last =>
    rw [found, Option.some_or] at value
    cases value
    rw [values] at found
    obtain ⟨_, _, inside⟩ := key_values_some _ _ _ found
    simp only [decodedSegments, List.cons_append, List.mem_cons, List.mem_append,
      Option.mem_toList, Option.map_eq_some_iff, List.mem_map] at inside
    have percent := escaped.percent
    rcases inside with named | ⟨_, _, named⟩ | ⟨other, asked, named⟩
    · obtain ⟨rfl, _⟩ := entry_injective _ _ _ _ free (by decide) named
      exact absurd percent (by decide)
    · obtain ⟨rfl, _⟩ := entry_injective _ _ _ _ (by decide) free named
      exact absurd percent (by decide)
    · have lengths := congrArg List.length named
      have decoded := unquote_length other
      have bounded : other.length ≤ (returnKeys.map List.length).sum :=
        List.single_le_sum (fun _ _ => Nat.zero_le _) _ (List.mem_map_of_mem asked)
      by_cases itself : other = key
      · have shorter := unquote_shorter key escaped
        rw [itself, if_pos rfl] at named
        rw [itself] at lengths
        simp only [if_true, List.length_append, List.length_cons] at lengths
        omega
      · rw [if_neg itself] at lengths
        simp only [List.length_append, List.length_cons, List.length_replicate,
          List.length_nil] at lengths
        omega

/-- The command that continues a session asks for its continuation path. The values in it are still
expansions, which the client replaces by what it has. -/
theorem command_path (command : Text) (keyed : session.clientId = client)
    (current : session.currentToken = some token)
    (built : continueCommand session recvStatus returnKeys = .ok command) :
    continuePath client token recvStatus returnKeys expansion <:+: command := by
  have shape := continue_command_eq session token
  cases fetches : session.env.get "cmdtftp".toList with
  | none =>
    simp only [continueCommand, current, lookupEnv, fetches] at built
    cases built
  | some cmdtftp =>
    cases loads : session.env.get "rambase".toList with
    | none =>
      simp only [continueCommand, current, lookupEnv, fetches, loads] at built
      cases built
    | some rambase =>
      rw [shape cmdtftp rambase current fetches loads, keyed] at built
      cases built
      refine ⟨"if ".toList ++ cmdtftp ++ ' ' :: expansion rambase ++ " \"".toList ++
        session.serverIp ++ [':'], "\"; then source ".toList ++ expansion rambase ++
        "; else echo \"uboot-tftp: continuation RRQ failed\"; fi".toList, ?_⟩
      simp only [List.append_assoc, List.cons_append, List.nil_append]

end Continuations

/-- In every reachable state and for every session in it: the continuation command asks for the
continuation path of the requested keys, and whatever plain texts are reported the path carries them
beside the protocol's fields, exactly when every key is harmless.

Proof: from left to right each kind of harmful key is given values that disturb the continuation;
from right to left harmless keys are decoded to themselves and merged one by one. -/
theorem return_keys_undisturbed_iff (server : DynamicContentServer κ)
    (urlSafe : server.provider.host.UrlSafe) (files : FileTree) (events : List Event)
    (client : ClientId) (session : ClientSession κ)
    (stored : (server.after files events).sessions.get client = some session)
    (recvStatus : Option Text) (written : recvStatus ∈ recvStatuses) (keys returnKeys : List Text)
    (accepted : normalizeReturnKeys keys = .ok returnKeys) :
    (∀ command, continueCommand session recvStatus returnKeys = .ok command →
        ∃ token, session.currentToken = some token ∧
          continuePath client token recvStatus returnKeys expansion <:+: command) ∧
      ((∀ report : Text → Text, (∀ key ∈ returnKeys, Plain (report key)) →
          Undisturbed (server.after files events) client session recvStatus returnKeys report) ↔
        ∀ key ∈ returnKeys, Harmless key) := by
  obtain ⟨keyed, -, ⟨draw, -, current⟩, -⟩ :=
    (after_sound server files events).sessions client session stored
  have plain := urlSafe.plain draw
  obtain ⟨rfl, clean⟩ := return_key_accepted keys returnKeys accepted
  refine ⟨fun command built => ⟨_, current, command_path command keyed current built⟩, ?_, ?_⟩
  · intro undisturbed key member
    refine ⟨fun escaped => ?_, ?_, ?_⟩
    · obtain ⟨report, reports, disturbed⟩ :=
        escaped_key_disturbs (server.after files events) client current plain
          written clean key member escaped
      exact disturbed (undisturbed report fun key _ => reports key)
    · rintro rfl
      obtain ⟨report, reports, disturbed⟩ :=
        token_key_disturbs (server.after files events) client current plain
          written clean member
      exact disturbed (undisturbed report fun key _ => reports key)
    · rintro rfl
      obtain ⟨report, reports, disturbed⟩ :=
        recv_key_disturbs (server.after files events) client current plain
          written clean member
      exact disturbed (undisturbed report fun key _ => reports key)
  · exact fun harmless report reports =>
      harmless_undisturbed stored current plain written clean harmless report reports

/-- The state of the sample server after a start and its preflight. -/
def sampleWaiting : World Unit :=
  (sampleServer sampleEntry sampleCode).after Dict.empty
    [.readRequest (sampleRequest "id=cam") 0 [],
      .readRequest (sampleRequest "id=cam/token=t/hush_shell=true") 0 []]

/-- The session of the sample state waits for the token drawn second. -/
theorem sample_waiting :
    ∃ session, sampleWaiting.sessions.get sampleClient = some session ∧
      session.currentToken = some "tt".toList := by
  have waiting : (sampleWaiting.sessions.get sampleClient).map (·.currentToken) =
      some (some "tt".toList) := by decide +kernel
  exact Option.map_eq_some_iff.mp waiting

/-- The tokens of the sample host are of the URL-safe alphabet. -/
theorem sample_url_safe : sampleHost.UrlSafe := by
  intro draw character member
  rw [(List.mem_replicate.mp member).2]
  decide

/-- A key that is harmless disturbs nothing in the sample state. -/
theorem return_keys_undisturbed_sample :
    ∃ session, sampleWaiting.sessions.get sampleClient = some session ∧
      ∀ report : Text → Text, (∀ key ∈ ["size".toList], Plain (report key)) →
        Undisturbed sampleWaiting sampleClient session none ["size".toList] report := by
  obtain ⟨session, stored, -⟩ := sample_waiting
  refine ⟨session, stored, (return_keys_undisturbed_iff (sampleServer sampleEntry sampleCode)
    sample_url_safe Dict.empty _ sampleClient session stored none (by decide) ["size".toList]
    ["size".toList] (by decide)).2.mpr ?_⟩
  intro key member
  cases List.mem_singleton.mp member
  exact ⟨fun escaped => absurd escaped.percent (by decide), by decide, by decide⟩

/-- The validator lets the token through as a requested key, and the value that is reported
for it replaces the token. -/
theorem token_key_accepted :
    normalizeReturnKeys ["token".toList] = .ok ["token".toList] ∧
      ∃ session, sampleWaiting.sessions.get sampleClient = some session ∧
        Plain "x".toList ∧
        ¬Undisturbed sampleWaiting sampleClient session none ["token".toList]
          fun _ => "x".toList := by
  refine ⟨by decide, ?_⟩
  obtain ⟨session, stored, current⟩ := sample_waiting
  refine ⟨session, stored, by decide, ?_⟩
  rintro ⟨token, parsed, same, accepts, -, -⟩
  cases current.symm.trans same
  have parse : (parseRequestPath (continuePath sampleClient "tt".toList none ["token".toList]
      fun _ => "x".toList)).toOption.map (·.values.get tokenKey) = some (some "x".toList) := by
    decide +kernel
  rw [accepts.parse] at parse
  have carried : parsed.values.get tokenKey = some "x".toList := Option.some.inj parse
  exact absurd (carried.symm.trans (accepts.current.trans current)) (by decide)

end UbootTftp
