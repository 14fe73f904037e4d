import UbootTftp.ScriptTransfers

/-!
# What the simulated client makes of the scripts

The scripts that `exec` and `exec_recv` send are composed of transfers, so the client finds the
upload with its size and the continuations, and nothing in the text of the user or between the
transfers. It goes on with the continuation of the outcome it prefers, in which every requested
variable that its environment defines is replaced.

A load address or a text offset can hold a target of its own. Then the client finds another
transfer than the server meant.
-/

namespace UbootTftp

universe u
variable {κ : Type u}

namespace TestClient

section Substitution

/-- A joined name is its first segment and the others with a slash before each. -/
theorem joined_flat (front : Text) (segments : List Text) :
    List.intercalate ['/'] (front :: segments) = front ++ segments.flatMap ('/' :: ·) := by
  induction segments generalizing front with
  | nil => simp
  | cons segment segments inductionHypothesis =>
    rw [List.intercalate_cons_cons, inductionHypothesis]
    simp

/-- Where no variable begins nothing is replaced. -/
theorem var_unread (env : Dict Text Text) (text rest : Text) (plain : '$' ∉ text) :
    ∀ suffix, suffix <:+ text → suffix ≠ [] → ubootVarRe env (suffix ++ rest) = none := by
  intro suffix inside present
  obtain ⟨first, suffix, rfl⟩ := List.exists_cons_of_ne_nil present
  have other : first ≠ '$' := fun same => plain (inside.subset (by simp [same]))
  simp [ubootVarRe, Scans.literal, other]

/-- A variable is read. -/
theorem var_read (env : Dict Text Text) (name rest : Text) (present : name ≠ [])
    (braceless : '}' ∉ name) : ubootVarRe env (expansion name ++ rest) =
      some ((env.get name).getD (expansion name), rest) := by
  have shape : expansion name ++ rest = '$' :: '{' :: (name ++ '}' :: rest) := by simp [expansion]
  have opened := (Scans.literal_iff "$\x7b".toList ('$' :: '{' :: (name ++ '}' :: rest))
    (name ++ '}' :: rest)).mpr rfl
  have named := Scans.run_append (· != '}') name ('}' :: rest) present
    (fun character member => bne_iff_ne.mpr fun same => braceless (same ▸ member)) (by simp)
  have closed := (Scans.literal_iff "\x7d".toList ('}' :: rest) rest).mpr rfl
  rw [shape]
  simp only [ubootVarRe, opened, named, closed, Option.bind_eq_bind, Option.bind_some]

/-- The requested keys of a path are replaced by what the environment defines.

Proof: by induction on the keys; in front of each expansion nothing is replaced, and behind it the
search goes on. -/
theorem substitute_keys (env : Dict Text Text) (keys : List Text)
    (words : ∀ key ∈ keys, Word key) :
    substituteUbootVars (keys.flatMap fun key => '/' :: (key ++ '=' :: expansion key)) env =
      keys.flatMap fun key => '/' :: (key ++ '=' :: (env.get key).getD (expansion key)) := by
  induction keys with
  | nil => rfl
  | cons key keys inductionHypothesis =>
    have later := inductionHypothesis fun other member => words other (by simp [member])
    have foreign := (words key (by simp)).foreign
    have shape : ((key :: keys).flatMap fun key => '/' :: (key ++ '=' :: expansion key)) =
        ('/' :: (key ++ ['='])) ++ (expansion key ++
          keys.flatMap fun key => '/' :: (key ++ '=' :: expansion key)) := by
      simp
    have front := Scans.replace_skip (ubootVarRe env) ('/' :: (key ++ ['=']))
      (expansion key ++ keys.flatMap fun key => '/' :: (key ++ '=' :: expansion key))
      (var_unread env _ _ (by simp [foreign '$' (by decide)]))
    have named := Scans.replace_match (ubootVarRe env) (expansion key)
      (keys.flatMap fun key => '/' :: (key ++ '=' :: expansion key))
      ((env.get key).getD (expansion key)) (by simp [expansion])
      (var_read env key _ (words key (by simp)).1 (foreign '}' (by decide)))
    rw [substituteUbootVars] at later
    rw [shape, substituteUbootVars, front, named, later]
    simp

/-- A continuation path is the client's part and the requested keys. -/
theorem continue_path_flat (client : ClientId) (token : Text) (status : Option Text)
    (keys : List Text) (report : Text → Text) :
    continuePath client token status keys report =
      sessionPath client (continueSegments token status [] report) ++
        keys.flatMap fun key => '/' :: (key ++ '=' :: report key) := by
  rw [continuePath, sessionPath, sessionPath, joined_flat, joined_flat, List.append_assoc]
  simp [continueSegments, List.flatMap_map]

/-- In the name of a continuation the client replaces the requested keys that its environment
defines. -/
theorem substitute_path {session : ClientSession κ} {token cmdtftp cmdtftpput rambase : Text}
    (plain : PlainSession session token cmdtftp cmdtftpput rambase) (status : Option Text)
    (written : status ∈ recvStatuses) (keys : List Text) (words : ∀ key ∈ keys, Word key)
    (env : Dict Text Text) :
    substituteUbootVars (continuePath session.clientId token status keys expansion) env =
      continuePath session.clientId token status keys
        fun key => (env.get key).getD (expansion key) := by
  have front : '$' ∉ sessionPath session.clientId (continueSegments token status [] expansion) := by
    refine joined_without '$' (by decide) _ fun segment member => ?_
    simp only [continueSegments, List.map_nil, List.append_nil, List.mem_cons, Option.mem_toList,
      Option.map_eq_some_iff] at member
    rcases member with rfl | rfl | ⟨word, rfl, rfl⟩
    · simpa using client_id_foreign session.clientId '$' (by decide) (by decide)
    · simpa using plain.foreign '$' (by decide)
    · simp only [recvStatuses, List.mem_cons, reduceCtorEq, Option.some.injEq, List.not_mem_nil,
        or_false, false_or] at written
      rcases written with rfl | rfl <;> decide
  have kept := Scans.replace_skip (ubootVarRe env) _
    (keys.flatMap fun key => '/' :: (key ++ '=' :: expansion key)) (var_unread env _ _ front)
  have later := substitute_keys env keys words
  rw [substituteUbootVars] at later
  rw [continue_path_flat, continue_path_flat, substituteUbootVars, kept, later]
  rfl

/-- The characters of a name without its keys. They are letters, digits and a few signs, and none of
those that mean something to a shell. -/
theorem bare_path_without (client : ClientId) (token : Text)
    (urlSafe : ∀ character ∈ token, isClientIdChar character = true) (status : Option Text)
    (written : status ∈ recvStatuses) (report : Text → Text) (symbol : Char)
    (special : symbol ∈ ['$', '"', '\\']) :
    symbol ∉ sessionPath client (continueSegments token status [] report) := by
  have other : isClientIdChar symbol = false := by
    simp only [List.mem_cons, List.not_mem_nil, or_false] at special
    rcases special with rfl | rfl | rfl <;> decide
  have plain : symbol ≠ '/' ∧ symbol ≠ '\n' ∧ symbol ∉ "id=".toList ∧ symbol ∉ "token=".toList ∧
      symbol ∉ "recv=".toList ∧ symbol ∉ "ok".toList ∧ symbol ∉ "failed".toList := by
    simp only [List.mem_cons, List.not_mem_nil, or_false] at special
    rcases special with rfl | rfl | rfl <;> decide
  obtain ⟨slash, line, named, drawn, marked, success, failure⟩ := plain
  refine joined_without symbol slash _ fun segment member => ?_
  simp only [continueSegments, List.map_nil, List.append_nil, List.mem_cons, Option.mem_toList,
    Option.map_eq_some_iff] at member
  rcases member with rfl | rfl | ⟨word, rfl, rfl⟩
  · rw [List.mem_append, not_or]
    exact ⟨named, client_id_foreign client symbol other line⟩
  · rw [List.mem_append, not_or]
    exact ⟨drawn, fun inside => by simp [urlSafe symbol inside] at other⟩
  · rw [List.mem_append, not_or]
    refine ⟨marked, ?_⟩
    simp only [recvStatuses, List.mem_cons, reduceCtorEq, Option.some.injEq, List.not_mem_nil,
      or_false, false_or] at written
    rcases written with rfl | rfl
    · exact success
    · exact failure

/-- In the name of any continuation the requested keys are replaced. The expansion of a variable
that is not set stays as it is, which is what the client sends then. -/
theorem substitute_continue (client : ClientId) (token : Text)
    (urlSafe : ∀ character ∈ token, isClientIdChar character = true) (status : Option Text)
    (written : status ∈ recvStatuses) (keys : List Text) (words : ∀ key ∈ keys, Word key)
    (env : Dict Text Text) :
    substituteUbootVars (continuePath client token status keys expansion) env =
      continuePath client token status keys fun key => (env.get key).getD (expansion key) := by
  have front := bare_path_without client token urlSafe status written expansion '$' (by decide)
  have kept := Scans.replace_skip (ubootVarRe env) _
    (keys.flatMap fun key => '/' :: (key ++ '=' :: expansion key)) (var_unread env _ _ front)
  have later := substitute_keys env keys words
  rw [substituteUbootVars] at later
  rw [continue_path_flat, continue_path_flat, substituteUbootVars, kept, later]
  rfl

/-- The characters of the name of an upload. It consists of the id, the token and a fixed last
segment. -/
theorem upload_path_without (client : ClientId) (token : Text)
    (urlSafe : ∀ character ∈ token, isClientIdChar character = true) (symbol : Char)
    (special : symbol ∈ ['$', '"', '\\']) : symbol ∉ uploadPath client token := by
  have other : isClientIdChar symbol = false ∧ symbol ≠ '/' ∧ symbol ≠ '\n' ∧
      symbol ∉ "id=".toList ∧ symbol ∉ "token=".toList ∧ symbol ∉ "upload.bin".toList := by
    simp only [List.mem_cons, List.not_mem_nil, or_false] at special
    rcases special with rfl | rfl | rfl <;> decide
  obtain ⟨foreign, slash, line, named, drawn, last⟩ := other
  refine joined_without symbol slash _ fun segment member => ?_
  simp only [List.mem_cons, List.not_mem_nil, or_false] at member
  rcases member with rfl | rfl | rfl
  · rw [List.mem_append, not_or]
    exact ⟨named, client_id_foreign client symbol foreign line⟩
  · rw [List.mem_append, not_or]
    exact ⟨drawn, fun inside => by simp [urlSafe symbol inside] at foreign⟩
  · exact last

/-- In the name of an upload nothing is replaced. -/
theorem substitute_upload (client : ClientId) (token : Text)
    (urlSafe : ∀ character ∈ token, isClientIdChar character = true) (env : Dict Text Text) :
    substituteUbootVars (uploadPath client token) env = uploadPath client token := by
  have closed := upload_path_without client token urlSafe '$' (by decide)
  have skipped := Scans.replace_skip (ubootVarRe env) (uploadPath client token) []
    (var_unread _ _ _ closed)
  rw [List.append_nil] at skipped
  rw [substituteUbootVars, skipped]
  exact List.append_nil _

end Substitution

section Flows

/-- The continuation of a session as the client reads it. -/
def continueAction (session : ClientSession κ) (token cmdtftp : Text) (status : Option Text)
    (keys : List Text) : DownloadAction :=
  ⟨cmdtftp, session.serverIp, continuePath session.clientId token status keys expansion⟩

/-- What the client should find in the script of `exec_recv`. The upload comes with its size, and
there is a continuation for each outcome. -/
def receiveActions (session : ClientSession κ) (token cmdtftp cmdtftpput : Text) (size : Int)
    (keys : List Text) : FlowActions :=
  ⟨[⟨cmdtftpput, session.serverIp, uploadPath session.clientId token, size⟩],
    [continueAction session token cmdtftp (some "ok".toList) keys,
      continueAction session token cmdtftp (some "failed".toList) keys]⟩

/-- What the client should find in the script of `exec`. -/
def execActions (session : ClientSession κ) (token cmdtftp : Text) (keys : List Text) :
    FlowActions :=
  ⟨[], [continueAction session token cmdtftp none keys]⟩

/-- The client reads the script of an upload as it is meant, and goes on with the continuation of a
successful upload. The statement is about the text that the server sends, with its last newline. -/
def ReadsReceive (isWord : Char → Bool) (session : ClientSession κ)
    (token cmdtftp cmdtftpput tmpName : Text) (script : Script) (size : Int) (keys : List Text)
    (offset : Option UbootNumber) : Prop :=
  ∃ request text, execRecv script size false keys offset = .ok request ∧
    sentScript token tmpName session request = .ok text ∧
    parseFlowActions isWord (ensureNewline text) =
      some (receiveActions session token cmdtftp cmdtftpput size keys) ∧
    ∀ env, chooseNextRemote (receiveActions session token cmdtftp cmdtftpput size keys) env
        (some "ok".toList) =
      some (continuePath session.clientId token (some "ok".toList) keys
        fun key => (env.get key).getD (expansion key))

/-- The client reads the script of an execution as it is meant. That the script can be made at all
is part of it. -/
def ReadsExec (isWord : Char → Bool) (session : ClientSession κ) (token cmdtftp tmpName : Text)
    (script : Script) (keys : List Text) : Prop :=
  ∃ request text, exec script false keys = .ok request ∧
    sentScript token tmpName session request = .ok text ∧
    parseFlowActions isWord (ensureNewline text) = some (execActions session token cmdtftp keys)

/-- Keys that are words are accepted. None of their characters is one that the check refuses. -/
theorem word_keys (keys : List Text) (words : ∀ key ∈ keys, Word key) :
    normalizeReturnKeys keys = .ok keys := by
  have valid : keys.find? invalidReturnKey = none := by
    rw [List.find?_eq_none]
    intro key member
    have foreign := (words key member).foreign
    have each : ∀ character ∈ key, character ∉ ['/', '=', '\r', '\n'] := by
      intro character inside structural
      have other : isCommandChar character = false := by
        have all : ∀ symbol ∈ ['/', '=', '\r', '\n'], isCommandChar symbol = false := by simp; decide
        exact all character structural
      exact foreign character other inside
    simp only [invalidReturnKey, Bool.or_eq_true, decide_eq_true_eq, List.any_eq_true, not_or,
      not_exists, not_and]
    exact ⟨(words key member).1, each⟩
  rw [normalizeReturnKeys, valid]

/-- The names of an upload and a continuation behind it differ. -/
theorem upload_apart (client : ClientId) (token status : Text) (keys : List Text) :
    remoteName client (continueSegments token (some status) keys expansion) ≠
      remoteName client ["token=".toList ++ token, "upload.bin".toList] := by
  intro same
  rw [remoteName, remoteName, joined_flat, joined_flat] at same
  have behind := List.append_cancel_left same
  simp [continueSegments] at behind

/-- The status of an upload stands in the name of its continuation. This is what the client looks
for when it chooses between the continuations of an upload. -/
theorem status_occurs (client : ClientId) (token status : Text) (keys : List Text) :
    Sequences.occurs ("/recv=".toList ++ status)
      (continuePath client token (some status) keys expansion) = true := by
  have shape : continuePath client token (some status) keys expansion =
      ("id=".toList ++ client.text ++ '/' :: ("token=".toList ++ token)) ++
        ("/recv=".toList ++ status) ++
          keys.flatMap fun key => '/' :: (key ++ '=' :: expansion key) := by
    rw [continue_path_flat, sessionPath, joined_flat]
    simp [continueSegments]
  rw [shape]
  exact Sequences.occurs_between _ _ _

/-- The client goes on with the continuation of a successful upload. The other continuation, of a
failed upload, has another status in its name. -/
theorem success_chosen {session : ClientSession κ} {token cmdtftp cmdtftpput rambase : Text}
    (plain : PlainSession session token cmdtftp cmdtftpput rambase) (size : Int) (keys : List Text)
    (words : ∀ key ∈ keys, Word key) (env : Dict Text Text) :
    chooseNextRemote (receiveActions session token cmdtftp cmdtftpput size keys) env
        (some "ok".toList) =
      some (continuePath session.clientId token (some "ok".toList) keys
        fun key => (env.get key).getD (expansion key)) := by
  have marked : Sequences.occurs ("/recv=".toList ++ "ok".toList)
      (continueAction session token cmdtftp (some "ok".toList) keys).remote = true :=
    status_occurs session.clientId token "ok".toList keys
  simp only [chooseNextRemote, receiveActions, Option.bind_some, List.find?_cons, marked,
    Option.some_or, Option.map_some]
  exact congrArg some (substitute_path plain _ (by decide) keys words env)

/-- The transfers of a script with an upload are read as they are meant. The upload is told by its
size, and the continuations by their having none. -/
theorem parse_receive_legs (isWord : Char → Bool) (solid : isWord ' ' = false)
    (session : ClientSession κ) (token cmdtftp cmdtftpput rambase address lead : Text) (size : Int)
    (natural : 0 ≤ size) (keys : List Text)
    (proper : ∀ leg ∈ receiveLegs session token cmdtftp cmdtftpput rambase address lead size keys,
      leg.Proper) (final : Text) (last : Inert final) :
    parseFlowActions isWord (composed
        (receiveLegs session token cmdtftp cmdtftpput rambase address lead size keys) final) =
      some (receiveActions session token cmdtftp cmdtftpput size keys) := by
  have middle : ' ' :: Text.hex size ++ [' '] ≠ [' '] := by simp
  have read := parse_composed isWord solid
    (fun leg => if leg.middle = [' '] then none else some size) _ proper
    (by simp [receiveLegs, uploadLeg, continueLeg, sessionLeg, middleText]) final last
    (fun leg _ number known => by
      split at known
      · cases known
      · cases known
        exact natural)
    (fun leg member other inside unsized sized => by
      simp only [receiveLegs, List.mem_cons, List.not_mem_nil, or_false] at member inside
      rcases member with rfl | rfl | rfl
      · simp [uploadLeg, sessionLeg] at unsized
      · rcases inside with rfl | rfl | rfl
        · exact upload_apart _ _ _ _
        · simp [continueLeg, sessionLeg] at sized
        · simp [continueLeg, sessionLeg] at sized
      · rcases inside with rfl | rfl | rfl
        · exact upload_apart _ _ _ _
        · simp [continueLeg, sessionLeg] at sized
        · simp [continueLeg, sessionLeg] at sized)
  rw [read, receiveActions, continueAction, continueAction, continuePath, continuePath, uploadPath,
    session_path_name, session_path_name, session_path_name]
  simp only [receiveLegs, List.filterMap_cons, List.filterMap_nil, uploadLeg, continueLeg,
    sessionLeg, if_neg middle, if_true, Option.map_some, Option.map_none, reduceCtorEq, if_false]

/-- A line that is appended holds no symbol but its newline that it did not hold before. -/
theorem line_after_free (symbol : Char) (inner : symbol ≠ '\n') (line : Text)
    (free : symbol ∉ line) : symbol ∉ [line].flatMap Text.lineAfter := by
  rw [List.flatMap_cons, List.flatMap_nil, List.append_nil, Text.lineAfter]
  split
  · simp
  · simp [inner, free]

/-- A last script is read as one without transfers. -/
theorem final_read (session : ClientSession κ) (token tmpName : Text) (isWord : Char → Bool)
    (solid : isWord ' ' = false) (script : Script) (inert : Inert (joinScriptLines script))
    (keys : List Text) (words : ∀ key ∈ keys, Word key) :
    ∃ request text, exec script true keys = .ok request ∧
      sentScript token tmpName session request = .ok text ∧
      parseFlowActions isWord (ensureNewline text) = some ⟨[], []⟩ := by
  refine ⟨⟨joinScriptLines script, true, none, keys, none⟩, _, ?_, rfl, ?_⟩
  · simp only [exec, word_keys keys words]
    rfl
  · exact parse_composed isWord solid (fun _ => none) [] (by simp) (by simp) _ inert.rstrip.ensured
      (by simp) (by simp)

variable {session : ClientSession κ} {token cmdtftp cmdtftpput rambase : Text}
  (plain : PlainSession session token cmdtftp cmdtftpput rambase)
  (clear : Sequences.Clear [":id=".toList] rambase) (isWord : Char → Bool)
  (solid : isWord ' ' = false) (script : Script) (inert : Inert (joinScriptLines script))
  (keys : List Text) (words : ∀ key ∈ keys, Word key)
include plain clear solid inert words

/-- The script of an execution is read as it is meant. There is one transfer in it, the
continuation, with the keys as they were asked for. -/
theorem exec_read (tmpName : Text) :
    ReadsExec isWord session token cmdtftp tmpName script keys := by
  have moved := plain.moved { session with currentToken := some token, phase := .awaitRrq } rfl rfl
  have built := append_continue_composed moved rfl (Text.rstrip (joinScriptLines script)) none keys
  refine ⟨⟨joinScriptLines script, false, none, keys, none⟩, _, ?_, built, ?_⟩
  · simp only [exec, word_keys keys words]
    rfl
  · have lead : Inert ([Text.rstrip (joinScriptLines script)].flatMap Text.lineBefore ++
        "if".toList) := by
      refine inert_before _ (fun line member => ?_) _ (inert_plain _ (by decide) (by decide))
      rw [List.mem_singleton.mp member]
      exact inert.rstrip
    have final : Inert (ensureNewline (continuationTail rambase)) := by
      have tail := inert_tail rambase clear [] (by simp) (by simp)
      rw [List.append_nil] at tail
      exact tail.ensured
    have proper := continue_leg_proper moved clear _ lead none (by decide) keys words
    have read := parse_composed isWord solid (fun _ => none) _ (List.forall_mem_singleton.mpr proper)
      (by simp [continueLeg, sessionLeg, middleText]) _ final (by simp) (by simp)
    rw [composed_ensured _ _ (continuation_tail_present rambase), read, execActions,
      continueAction, continuePath, session_path_name]
    rfl

/-- The script of an upload is read as it is meant. The order is the one in which the client goes
through them: the upload, then the continuation for its outcome. -/
theorem receive_read (tmpName : Text) (fresh : Word tmpName) (size : Int) (natural : 0 ≤ size)
    (offset : Option UbootNumber) (closed : ∀ text, offset = some (.text text) → Inert text) :
    ReadsReceive isWord session token cmdtftp cmdtftpput tmpName script size keys offset := by
  have moved := plain.moved
    { session with
      currentToken := some token
      pendingReceive := some ⟨token, "/upload.bin".toList, size, none⟩
      phase := .awaitUpload } rfl rfl
  obtain ⟨address, prelude, cleanup, placed, addressed, braceless, apart, before, colonless, plainly⟩ :=
    receive_address_proper moved clear tmpName fresh offset closed
  have built := append_receive_composed moved rfl size rfl (Text.rstrip (joinScriptLines script))
    tmpName address prelude cleanup keys offset placed
  refine ⟨⟨joinScriptLines script, false, some size, keys, offset⟩, _, ?_, built, ?_, ?_⟩
  · simp only [execRecv, word_keys keys words]
    rfl
  · have lead : Inert ([Text.rstrip (joinScriptLines script), prelude].flatMap Text.lineBefore ++
        "if".toList) := by
      refine inert_before _ ?_ _ (inert_plain _ (by decide) (by decide))
      simp only [List.mem_cons, List.not_mem_nil, or_false]
      rintro line (rfl | rfl)
      · exact inert.rstrip
      · exact before
    have final : Inert (ensureNewline (continuationTail rambase ++ "\nfi".toList ++
        [cleanup].flatMap Text.lineAfter)) := by
      rw [List.append_assoc]
      refine (inert_tail rambase clear _ ?_ ?_).ensured
      · exact fun member => (List.mem_append.mp member).elim (by decide)
          (line_after_free ':' (by decide) cleanup colonless)
      · exact fun member => (List.mem_append.mp member).elim (by decide)
          (line_after_free '$' (by decide) cleanup plainly)
    have proper := receive_legs_proper moved clear address _ lead addressed braceless apart size keys
      words
    rw [composed_ensured]
    · exact parse_receive_legs isWord solid _ token cmdtftp cmdtftpput rambase address _ size natural
        keys proper _ final
    · exact List.append_ne_nil_of_left_ne_nil (List.append_ne_nil_of_left_ne_nil
        (continuation_tail_present rambase) _) _
  · exact success_chosen plain size keys words

end Flows

/-- The client reads the scripts of a session as they are meant, if neither the load address nor a
text offset holds a target of its own, and no text leaves an expansion open: from `exec_recv` the
upload with its size and both continuations, of which it goes on with the successful one; from
`exec` the one continuation, and nothing if the script is the last one.

Proof: the scripts are composed of transfers whose texts are proper, so that the expressions find
just these. -/
theorem simulated_flows (session : ClientSession κ) (token cmdtftp cmdtftpput rambase : Text)
    (plain : PlainSession session token cmdtftp cmdtftpput rambase)
    (clear : ¬":id=".toList <:+: rambase) (isWord : Char → Bool) (solid : isWord ' ' = false)
    (tmpName : Text) (fresh : Word tmpName) (keys : List Text) (words : ∀ key ∈ keys, Word key)
    (script : Script) (inert : Inert (joinScriptLines script)) :
    (∀ size offset, 0 ≤ size → (∀ text, offset = some (.text text) → Inert text) →
      ReadsReceive isWord session token cmdtftp cmdtftpput tmpName script size keys offset) ∧
    ReadsExec isWord session token cmdtftp tmpName script keys ∧
    ∃ request text, exec script true keys = .ok request ∧
      sentScript token tmpName session request = .ok text ∧
      parseFlowActions isWord (ensureNewline text) = some ⟨[], []⟩ := by
  have targetless : Sequences.Clear [":id=".toList] rambase := by
    intro pattern member
    rw [List.mem_singleton.mp member]
    exact clear
  refine ⟨?_, ?_, ?_⟩
  · intro size offset natural closed
    exact receive_read plain targetless isWord solid script inert keys words tmpName fresh size
      natural offset closed
  · exact exec_read plain targetless isWord solid script inert keys words tmpName
  · exact final_read session token tmpName isWord solid script inert keys words

section Samples

/-- A session with a load address. -/
def addressedSession (rambase : Text) : ClientSession Unit :=
  { ClientSession.create sampleClient with
    serverIp := "10.0.0.1".toList
    env := Dict.ofList [("cmdtftp".toList, "tftpboot".toList),
      ("cmdtftpput".toList, "tftpput".toList), ("rambase".toList, rambase)] }

/-- Its texts are written as they should be. Only the load address is left open, which has to be a
text that can stand between braces. -/
theorem addressed_plain (rambase : Text) (addressed : rambase ≠ []) (braceless : '}' ∉ rambase) :
    PlainSession (addressedSession rambase) "Zk3_-w".toList "tftpboot".toList "tftpput".toList
      rambase where
  urlSafe := List.all_eq_true.mp (by decide)
  served := (by decide : "10.0.0.1".toList ≠ [])
  dotted := by
    have digits : "10.0.0.1".toList.all (fun character => character.isDigit || character == '.') = true := by
      decide
    intro character member
    simpa using List.all_eq_true.mp digits character member
  fetches := rfl
  fetching := by decide
  sends := rfl
  sending := by decide
  loads := rfl
  addressed := addressed
  braceless := braceless

/-- A script with an expansion and two keys, once with an upload from an offset. Empty lines make no
difference, and the keys come back in their order. -/
theorem simulated_flows_sample :
    ReadsReceive isCommandChar (addressedSession "baseaddr".toList) "Zk3_-w".toList
      "tftpboot".toList "tftpput".toList "__uboot_tftp_recv_1f".toList
      (.lines ["echo $\x7bsoc\x7d".toList, [], "sf probe 0".toList]) 16
      ["soc".toList, "hush_shell".toList] (some (.int 256)) ∧
    ReadsExec isCommandChar (addressedSession "baseaddr".toList) "Zk3_-w".toList
      "tftpboot".toList "__uboot_tftp_recv_1f".toList
      (.lines ["echo $\x7bsoc\x7d".toList, [], "sf probe 0".toList])
      ["soc".toList, "hush_shell".toList] := by
  have read := simulated_flows (addressedSession "baseaddr".toList) "Zk3_-w".toList
    "tftpboot".toList "tftpput".toList "baseaddr".toList
    (addressed_plain _ (by decide) (by decide)) (by decide) isCommandChar (by decide)
    "__uboot_tftp_recv_1f".toList (by decide) ["soc".toList, "hush_shell".toList]
    (List.forall_mem_cons.mpr ⟨by decide, List.forall_mem_singleton.mpr (by decide)⟩)
    (.lines ["echo $\x7bsoc\x7d".toList, [], "sf probe 0".toList]) (by decide +kernel)
  exact ⟨read.1 16 (some (.int 256)) (by decide) (by simp), read.2.1⟩

/-- The client finds another transfer than those of the server in a text offset that holds one,
behind a text offset that leaves an expansion open, and in a load address with a target. -/
theorem foreign_transfers :
    PlainSession (addressedSession "baseaddr".toList) "Zk3_-w".toList "tftpboot".toList
      "tftpput".toList "baseaddr".toList ∧
    ¬ReadsReceive isCommandChar (addressedSession "baseaddr".toList) "Zk3_-w".toList
      "tftpboot".toList "tftpput".toList "__uboot_tftp_recv_1f".toList (.text "sf probe 0".toList)
      16 [] (some (.text "0; tftpboot $\x7bx\x7d \"h:id=z\"".toList)) ∧
    ¬ReadsReceive isCommandChar (addressedSession "baseaddr".toList) "Zk3_-w".toList
      "tftpboot".toList "tftpput".toList "__uboot_tftp_recv_1f".toList (.text "sf probe 0".toList)
      16 [] (some (.text "0; echo $\x7b".toList)) ∧
    PlainSession (addressedSession "x:id=y".toList) "Zk3_-w".toList "tftpboot".toList
      "tftpput".toList "x:id=y".toList ∧
    ClosesExpansions "tftp $\x7bx\x7d \"".toList ∧ ¬"id=".toList <:+: "tftp $\x7bx\x7d \"".toList ∧
    ¬ReadsExec isCommandChar (addressedSession "x:id=y".toList) "Zk3_-w".toList
      "tftpboot".toList "__uboot_tftp_recv_1f".toList (.text "tftp $\x7bx\x7d \"".toList) [] := by
  refine ⟨addressed_plain _ (by decide) (by decide), ?_, ?_, addressed_plain _ (by decide) (by decide),
    by decide, by decide, ?_⟩
  · rintro ⟨request, text, built, sent, read, -⟩
    cases built
    cases sent
    revert read
    decide +kernel
  · rintro ⟨request, text, built, sent, read, -⟩
    cases built
    cases sent
    revert read
    decide +kernel
  · rintro ⟨request, text, built, sent, read⟩
    cases built
    cases sent
    revert read
    decide +kernel

end Samples

end TestClient

end UbootTftp
