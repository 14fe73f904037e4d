import UbootTftp.ReadRequests
import UbootTftp.Unquoting

/-!
# The request paths that the server writes

The names of a session's uploads and continuations are segments joined by slashes, the first
of which names the client. The parser splits such a name into the same segments, as long as
none of them is empty or holds a slash of its own, and decodes each segment apart.
-/

namespace UbootTftp

universe u
variable {κ : Type u}

/-- The name of a session request: the client's id and the segments of the message. Nothing is
escaped here, as the generator of the scripts escapes nothing. -/
def sessionPath (client : ClientId) (segments : List Text) : Text :=
  List.intercalate ['/'] (("id=".toList ++ client.text) :: segments)

/-- The segments of a continuation: the token, the status of an upload if there was one, and
the requested keys with what the client reports for them. -/
def continueSegments (token : Text) (recvStatus : Option Text) (returnKeys : List Text)
    (report : Text → Text) : List Text :=
  ("token=".toList ++ token) :: (recvStatus.map ("recv=".toList ++ ·)).toList ++
    returnKeys.map (fun key => key ++ '=' :: report key)

/-- The name of a continuation in which every requested `${key}` is replaced by a text.

With the identity of the script for the text this is what the server writes; with the values of a
board it is what the client sends. -/
def continuePath (client : ClientId) (token : Text) (recvStatus : Option Text)
    (returnKeys : List Text) (report : Text → Text) : Text :=
  sessionPath client (continueSegments token recvStatus returnKeys report)

/-- The name of a session's upload. -/
def uploadPath (client : ClientId) (token : Text) : Text :=
  sessionPath client ["token=".toList ++ token, "upload.bin".toList]

section Written

/-- Segments that are appended with a slash before each are joined to what precedes. -/
theorem joined_foldl (front : Text) (segments : List Text) :
    segments.foldl (fun path segment => path ++ '/' :: segment) front =
      List.intercalate ['/'] (front :: segments) := by
  induction segments generalizing front with
  | nil => simp
  | cons segment segments inductionHypothesis =>
    rw [List.foldl_cons, inductionHypothesis, List.intercalate_cons_cons]
    cases segments with
    | nil => simp
    | cons next segments => simp [List.intercalate_cons_cons]

/-- The command that continues a session asks for its continuation path, with the keys
still to be expanded by the client. -/
theorem continue_command_eq (session : ClientSession κ) (token cmdtftp rambase : Text)
    (current : session.currentToken = some token)
    (fetches : session.env.get "cmdtftp".toList = some cmdtftp)
    (loads : session.env.get "rambase".toList = some rambase) (recvStatus : Option Text)
    (returnKeys : List Text) :
    continueCommand session recvStatus returnKeys =
      .ok ("if ".toList ++ cmdtftp ++ ' ' :: expansion rambase ++ " \"".toList ++
        session.serverIp ++ ':' :: continuePath session.clientId token recvStatus returnKeys
          expansion ++ "\"; then source ".toList ++ expansion rambase ++
        "; else echo \"uboot-tftp: continuation RRQ failed\"; fi".toList) := by
  have path : ∀ front, appendReturnKeys front returnKeys =
      (returnKeys.map (fun key => key ++ '=' :: expansion key)).foldl
        (fun path segment => path ++ '/' :: segment) front := by
    intro front
    rw [List.foldl_map]
    simp [appendReturnKeys]
  unfold continueCommand lookupEnv
  rw [current, fetches, loads]
  cases recvStatus with
  | none =>
    have named : continuePath session.clientId token none returnKeys expansion =
        appendReturnKeys ("id=".toList ++ session.clientId.text ++ "/token=".toList ++ token)
          returnKeys := by
      rw [path, continuePath, sessionPath, ← joined_foldl, continueSegments, List.foldl_append]
      simp
    rw [named]
    rfl
  | some status =>
    have named : continuePath session.clientId token (some status) returnKeys expansion =
        appendReturnKeys ("id=".toList ++ session.clientId.text ++ "/token=".toList ++ token ++
          "/recv=".toList ++ status) returnKeys := by
      rw [path, continuePath, sessionPath, ← joined_foldl, continueSegments, List.foldl_append]
      simp
    rw [named]
    rfl

/-- The segment of a key and its value, as the parser collects it. -/
def segmentEntry (segment : Text) : Option (Text × Text) :=
  let (key, separated, value) := Sequences.partition '=' segment
  if separated && key ≠ [] then some (key, value) else none

/-- The collected values are those of the segments that are entries, entered in order.

Proof: by induction on the segments, for any values that were collected before. -/
theorem key_values_update (segments : List Text) (initial : Dict Text Text) :
    keyValues segments initial = initial.update (segments.filterMap segmentEntry) := by
  induction segments generalizing initial with
  | nil => rfl
  | cons segment segments inductionHypothesis =>
    have step : keyValues (segment :: segments) initial = keyValues segments
        (let (key, separated, value) := Sequences.partition '=' segment
         if separated && key ≠ [] then initial.set key value else initial) := rfl
    rw [step, inductionHypothesis, List.filterMap_cons]
    simp only [segmentEntry]
    split <;> rfl

/-- A segment is an entry exactly when it is a key, an equals sign and the value. The cut falls at
the first equals sign, so the value may hold others and may be empty. -/
theorem segment_entry_iff (segment key value : Text) :
    segmentEntry segment = some (key, value) ↔
      key ≠ [] ∧ '=' ∉ key ∧ segment = key ++ '=' :: value := by
  constructor
  · intro entry
    rcases Sequences.partition_cases '=' segment with ⟨_, cut⟩ | ⟨before, after, free, shape, cut⟩
    · simp [segmentEntry, cut] at entry
    · simp only [segmentEntry, cut, Bool.true_and, decide_eq_true_eq] at entry
      split at entry
      · rename_i present
        cases entry
        exact ⟨present, free, shape⟩
      · cases entry
  · rintro ⟨present, free, rfl⟩
    simp [segmentEntry, Sequences.partition_append _ _ _ free, present]

/-- A value under a key comes from a segment. -/
theorem key_values_some (segments : List Text) (key value : Text)
    (found : (keyValues segments Dict.empty).get key = some value) :
    key ≠ [] ∧ '=' ∉ key ∧ key ++ '=' :: value ∈ segments := by
  rw [key_values_update] at found
  rcases Dict.get_update_some _ _ _ _ found with member | none
  · obtain ⟨segment, inside, entry⟩ := List.mem_filterMap.mp member
    obtain ⟨present, free, rfl⟩ := (segment_entry_iff segment key value).mp entry
    exact ⟨present, free, inside⟩
  · cases none

/-- A key that a segment names has the value of one of the segments from there on. Of several
segments for one key the last one counts, so the value may be another one than the given. -/
theorem key_values_named (front back : List Text) (key value : Text) (present : key ≠ [])
    (free : '=' ∉ key) (member : key ++ '=' :: value ∈ back) :
    ∃ last, key ++ '=' :: last ∈ back ∧
      (keyValues (front ++ back) Dict.empty).get key = some last := by
  have entry : (key, value) ∈ back.filterMap segmentEntry :=
    List.mem_filterMap.mpr ⟨_, member, (segment_entry_iff _ _ _).mpr ⟨present, free, rfl⟩⟩
  have split : keyValues (front ++ back) Dict.empty =
      (keyValues front Dict.empty).update (back.filterMap segmentEntry) := by
    rw [keyValues, List.foldl_append]
    exact key_values_update back _
  obtain ⟨last, inside, found⟩ := Dict.get_update_last (keyValues front Dict.empty) _ _ _ entry
  obtain ⟨segment, there, named⟩ := List.mem_filterMap.mp inside
  obtain ⟨_, _, rfl⟩ := (segment_entry_iff segment key last).mp named
  exact ⟨last, there, split ▸ found⟩

/-- Two entries without an equals sign in their keys are the same entry. -/
theorem entry_injective (key other value second : Text) (free : '=' ∉ key) (otherFree : '=' ∉ other)
    (same : key ++ '=' :: value = other ++ '=' :: second) : key = other ∧ value = second := by
  have cut := Sequences.partition_append '=' key value free
  rw [same, Sequences.partition_append '=' other second otherFree] at cut
  cases cut
  exact ⟨rfl, rfl⟩

end Written

section Parsed

/-- A client id is made of the characters of its class and perhaps a newline. The newline can only
be the last one, which the pattern's end admits. -/
theorem client_id_characters (client : ClientId) :
    ∀ character ∈ client.text, isClientIdChar character ∨ character = '\n' := by
  have accepted := client.accepted
  intro character member
  simp only [clientIdMatches, Bool.and_eq_true, List.all_eq_true] at accepted
  by_cases newline : client.text.getLast? = some '\n'
  · simp only [newline, if_true] at accepted
    obtain ⟨front, ended⟩ := List.getLast?_eq_some_iff.mp newline
    rw [ended, List.dropLast_concat] at accepted
    rw [ended] at member
    rcases List.mem_append.mp member with inside | last
    · exact .inl (accepted.2 character inside)
    · exact .inr (List.mem_singleton.mp last)
  · simp only [newline, if_false] at accepted
    exact .inl (accepted.2 character member)

/-- A client id holds neither a slash nor a percent sign. -/
theorem client_id_plain (client : ClientId) : '/' ∉ client.text ∧ '%' ∉ client.text := by
  constructor
  · intro member
    exact absurd (client_id_characters client '/' member) (by decide)
  · intro member
    exact absurd (client_id_characters client '%' member) (by decide)

/-- Joined segments end in the last one. -/
theorem joined_last (segments : List Text) (present : segments ≠ []) :
    ∃ front last, last ∈ segments ∧ List.intercalate ['/'] segments = front ++ last := by
  induction segments with
  | nil => exact absurd rfl present
  | cons segment segments inductionHypothesis =>
    cases segments with
    | nil => exact ⟨[], segment, by simp, by simp⟩
    | cons next segments =>
      obtain ⟨front, last, member, shape⟩ := inductionHypothesis (by simp)
      refine ⟨segment ++ ['/'] ++ front, last, List.mem_cons_of_mem _ member, ?_⟩
      rw [List.intercalate_cons_cons, shape, List.append_assoc (segment ++ ['/'])]

/-- The segments of a session path are what its filename is split into. There is no empty segment to
be dropped, since none of them is empty and the path neither begins nor ends with a slash. -/
theorem session_path_split (client : ClientId) (segments : List Text)
    (clean : ∀ segment ∈ segments, segment ≠ [] ∧ '/' ∉ segment) :
    ((Sequences.strip (· == '/') (sessionPath client segments)).splitOn '/').filter
        (fun segment => decide (segment ≠ [])) =
      ("id=".toList ++ client.text) :: segments := by
  have whole : ∀ segment ∈ ("id=".toList ++ client.text) :: segments,
      segment ≠ [] ∧ '/' ∉ segment := by
    intro segment member
    rcases List.mem_cons.mp member with rfl | later
    · refine ⟨by simp, fun slash => ?_⟩
      rcases List.mem_append.mp slash with prefixed | inside
      · exact absurd prefixed (by decide)
      · exact (client_id_plain client).1 inside
    · exact clean segment later
  have stripped : Sequences.strip (· == '/') (sessionPath client segments) =
      sessionPath client segments := by
    obtain ⟨front, last, member, shape⟩ := joined_last _ (List.cons_ne_nil
      ("id=".toList ++ client.text) segments)
    have ended : ∀ character ∈ last, (character == '/') = false := by
      intro character inside
      exact beq_eq_false_iff_ne.mpr fun slash => (whole last member).2 (slash ▸ inside)
    have begun : (sessionPath client segments).dropWhile (· == '/') = sessionPath client segments := by
      cases segments <;> rfl
    rw [Sequences.strip, begun, sessionPath, shape]
    exact Sequences.rdrop_kept _ front last (whole last member).1 ended
  rw [stripped, sessionPath, List.splitOn_intercalate '/' (fun segment member =>
    (whole segment member).2) (by simp), List.filter_eq_self]
  exact fun segment member => decide_eq_true (whole segment member).1

/-- A filename that is split into the client's segment and others belongs to the client, and
each of the others is decoded apart. -/
theorem parse_split_path (filename : Text) (client : ClientId) (segments : List Text)
    (split : ((Sequences.strip (· == '/') filename).splitOn '/').filter
      (fun segment => decide (segment ≠ [])) = ("id=".toList ++ client.text) :: segments) :
    parseRequestPath filename =
      .ok ⟨filename, some client,
        if segments = [] then ['/'] else joinPath (segments.map unquote),
        segments.map unquote, keyValues (segments.map unquote) Dict.empty⟩ := by
  have name : unquote ("id=".toList ++ client.text) = "id".toList ++ '=' :: client.text := by
    rw [show "id=".toList ++ client.text = "id".toList ++ '=' :: client.text from rfl,
      unquote_entry, unquote, if_neg (by decide), unquote, if_neg (client_id_plain client).2]
  have cut := Sequences.partition_append '=' "id".toList client.text (by decide)
  simp only [parseRequestPath, split, List.map_cons, name, cut, normalize_again, and_self, if_true,
    List.map_eq_nil_iff]

/-- A session path of clean segments is split into them, and each is decoded apart. The client's own
segment needs no condition: an id holds neither a slash nor a percent sign. -/
theorem parse_session_path (client : ClientId) (segments : List Text)
    (clean : ∀ segment ∈ segments, segment ≠ [] ∧ '/' ∉ segment) :
    parseRequestPath (sessionPath client segments) =
      .ok ⟨sessionPath client segments, some client,
        if segments = [] then ['/'] else joinPath (segments.map unquote),
        segments.map unquote, keyValues (segments.map unquote) Dict.empty⟩ :=
  parse_split_path _ client segments (session_path_split client segments clean)

/-- Tokens of the URL-safe alphabet, which `secrets.token_urlsafe` draws them from. It is a
hypothesis on the host, since the tokens come from outside the repository. -/
def Host.UrlSafe (host : Host) : Prop :=
  ∀ draw, ∀ character ∈ host.token draw, isClientIdChar character = true

/-- A text that a request path carries as it is. -/
def Plain (text : Text) : Prop := '/' ∉ text ∧ '%' ∉ text

instance (text : Text) : Decidable (Plain text) :=
  inferInstanceAs (Decidable ('/' ∉ text ∧ '%' ∉ text))

/-- A plain text is decoded to itself. -/
theorem Plain.unquoted {text : Text} (plain : Plain text) : unquote text = text :=
  if_neg plain.2

/-- URL-safe tokens are plain. -/
theorem Host.UrlSafe.plain {host : Host} (urlSafe : host.UrlSafe) (draw : Nat) :
    Plain (host.token draw) :=
  ⟨fun member => absurd (urlSafe draw '/' member) (by decide),
    fun member => absurd (urlSafe draw '%' member) (by decide)⟩

/-- The statuses of an upload that the server writes into a continuation. -/
def recvStatuses : List (Option Text) := [none, some "ok".toList, some "failed".toList]

/-- The segments of a continuation as the parser decodes them. The keys are decoded with their
segments, while the values are those that the client puts in. -/
def decodedSegments (token : Text) (recvStatus : Option Text) (returnKeys : List Text)
    (report : Text → Text) : List Text :=
  ("token".toList ++ '=' :: token) ::
    (recvStatus.map (fun status => "recv".toList ++ '=' :: status)).toList ++
      returnKeys.map (fun key => unquote key ++ '=' :: report key)

/-- A continuation path whose keys hold no slash and whose reports are plain names its client, and
its values are those of the decoded segments.

A key may hold a percent sign: it is decoded, and the value arrives under the decoded key. -/
theorem parse_continue_path (client : ClientId) (token : Text) (plain : Plain token)
    (recvStatus : Option Text) (written : recvStatus ∈ recvStatuses) (returnKeys : List Text)
    (keys : ∀ key ∈ returnKeys, '/' ∉ key) (report : Text → Text)
    (reports : ∀ key ∈ returnKeys, Plain (report key)) :
    ∃ parsed, parseRequestPath (continuePath client token recvStatus returnKeys report) =
        .ok parsed ∧ parsed.clientId = some client ∧
      parsed.values = keyValues (decodedSegments token recvStatus returnKeys report) Dict.empty := by
  have status : ∀ status, recvStatus = some status → Plain status := by
    rintro status rfl
    simp only [recvStatuses, List.mem_cons, reduceCtorEq, Option.some.injEq, List.not_mem_nil,
      or_false, false_or] at written
    rcases written with rfl | rfl <;> decide
  have clean : ∀ segment ∈ continueSegments token recvStatus returnKeys report,
      segment ≠ [] ∧ '/' ∉ segment := by
    intro segment member
    simp only [continueSegments, List.cons_append, List.mem_cons, List.mem_append,
      Option.mem_toList, Option.map_eq_some_iff, List.mem_map] at member
    rcases member with rfl | ⟨status', same, rfl⟩ | ⟨key, inside, rfl⟩
    · exact ⟨by simp, by simpa using plain.1⟩
    · exact ⟨by simp, by simpa using (status status' same).1⟩
    · exact ⟨by simp, by simpa using ⟨keys key inside, (reports key inside).1⟩⟩
  have decoded : (continueSegments token recvStatus returnKeys report).map unquote =
      decodedSegments token recvStatus returnKeys report := by
    have named : unquote ("token=".toList ++ token) = "token".toList ++ '=' :: token := by
      rw [show "token=".toList ++ token = "token".toList ++ '=' :: token from rfl, unquote_entry,
        plain.unquoted, unquote, if_neg (by decide)]
    have reported : (returnKeys.map (fun key => key ++ '=' :: report key)).map unquote =
        returnKeys.map (fun key => unquote key ++ '=' :: report key) := by
      rw [List.map_map]
      refine List.map_congr_left fun key inside => ?_
      rw [Function.comp_apply, unquote_entry, (reports key inside).unquoted]
    rw [continueSegments, decodedSegments, List.map_append, List.map_cons, named, reported]
    cases recvStatus with
    | none => rfl
    | some status' =>
      have received : unquote ("recv=".toList ++ status') = "recv".toList ++ '=' :: status' := by
        rw [show "recv=".toList ++ status' = "recv".toList ++ '=' :: status' from rfl,
          unquote_entry, (status status' rfl).unquoted, unquote, if_neg (by decide)]
      simp only [Option.map_some, Option.toList_some, List.map_cons, List.map_nil, received]
  have parsed := parse_session_path client _ clean
  rw [decoded] at parsed
  exact ⟨_, parsed, rfl, rfl⟩

end Parsed

end UbootTftp
