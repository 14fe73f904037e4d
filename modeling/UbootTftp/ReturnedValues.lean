import UbootTftp.ReturnKeys
import UbootTftp.SessionMoves

/-!
# Values that a client returns

U-Boot puts the value of a requested variable into the continuation path as it is. The path
is then cut at slashes and its parts are decoded. A value arrives unchanged exactly when it
holds neither a slash nor a percent escape.
-/

namespace UbootTftp

universe u
variable {κ : Type u}

/-- A variable name without the characters that structure a path, other than the names of
the protocol and the hidden settings. Letters, digits and underscores make such names. -/
structure VariableName (key : Text) : Prop where
  present : key ≠ []
  word : ∀ character ∈ key, character ∉ ['/', '=', '%', '\r', '\n']
  notToken : key ≠ tokenKey
  notRecv : key ≠ recvKey
  shown : key ∉ hiddenKeys

namespace VariableName

variable {key : Text}

/-- A variable name has no slash. -/
theorem slash (name : VariableName key) : '/' ∉ key := fun member =>
  name.word '/' member (by decide)

/-- A variable name has no equals sign. -/
theorem equals (name : VariableName key) : '=' ∉ key := fun member =>
  name.word '=' member (by decide)

/-- A variable name is decoded to itself. -/
theorem decoded (name : VariableName key) : unquote key = key :=
  if_neg fun member => name.word '%' member (by decide)

/-- The value of a variable name is merged into both environments. -/
theorem merged (name : VariableName key) : (mergedKey key && decide (key ∉ hiddenKeys)) = true := by
  simp [mergedKey, name.notToken, name.notRecv, name.shown]

/-- A variable name is accepted as a return key. -/
theorem requestable (name : VariableName key) : normalizeReturnKeys [key] = .ok [key] := by
  have valid : invalidReturnKey key = false := by
    simp only [invalidReturnKey, Bool.or_eq_false_iff, decide_eq_false_iff_not,
      List.any_eq_false, decide_eq_true_eq]
    refine ⟨name.present, fun character member structural => name.word character member ?_⟩
    simp only [List.mem_cons, List.not_mem_nil, or_false] at structural ⊢
    tauto
  simp [normalizeReturnKeys, valid]

end VariableName

/-- The request that comes from a client whose variable holds a value, after a script that
asked for the variable. -/
def returnRequest (client : ClientId) (token key value : Text) (peer : Text × Nat) :
    ContentRequest :=
  ⟨continuePath client token none [key] fun _ => value, peer⟩

/-- The handler is resumed with the value under the key and no other change to the environment that
it sees. -/
def Delivered (provider : Provider κ) (world : World κ) (now : Nat) (schedule : Schedule)
    (peer : Text × Nat) (client : ClientId) (session : ClientSession κ) (state : κ)
    (token key value : Text) : Prop :=
  let request := returnRequest client token key value peer
  ∃ parsed left codeEnd, world.Accepts request.filename parsed client session ∧
    (provider.resume state .execReturned).run provider.host now schedule
      ⟨session.entered parsed state .inExec, world.downloads, world.files⟩ = (left, codeEnd) ∧
    (world.fetch provider now schedule request).resumed = some (.execReturned, codeEnd) ∧
    (session.entered parsed state .inExec).publicEnv.get key = some value ∧
    ∀ other, other ≠ key →
      (session.entered parsed state .inExec).publicEnv.get other = session.publicEnv.get other

section Paths

variable {client : ClientId} {token key : Text} (plain : Plain token) (value : Text)

include plain

/-- The path of a return is cut into the client, the token and what the key and the value
are cut into. -/
theorem return_path_split :
    (Sequences.strip (· == '/') (continuePath client token none [key] fun _ => value)).splitOn '/' =
      ("id=".toList ++ client.text) :: ("token".toList ++ '=' :: token) ::
        (key ++ '=' :: value.rdropWhile (· == '/')).splitOn '/' := by
  have named : '/' ∉ "id=".toList ++ client.text := by
    simpa using (client_id_plain client).1
  have carries : '/' ∉ "token".toList ++ '=' :: token := by simpa using plain.1
  have shape : continuePath client token none [key] (fun _ => value) =
      ("id=".toList ++ client.text ++ '/' :: ("token".toList ++ '=' :: token) ++ '/' :: key) ++
        '=' :: value := by
    simp [continuePath, sessionPath, continueSegments, List.intercalate_cons_cons]
  have begun : (continuePath client token none [key] fun _ => value).dropWhile (· == '/') =
      continuePath client token none [key] fun _ => value := by
    rw [shape]
    rfl
  rw [Sequences.strip, begun, shape, Sequences.rdrop_behind _ _ _ '=' (by decide)]
  simp only [List.append_assoc, List.cons_append]
  rw [← List.append_assoc, List.splitOn_append_cons_self_of_not_mem named]
  congr 1
  have parts := List.splitOn_append_cons_self_of_not_mem carries
    (key ++ '=' :: value.rdropWhile (· == '/'))
  simpa only [List.append_assoc, List.cons_append] using parts

variable (client key) in
/-- The values of a return are those of the token and of the parts of the key and the
value. -/
theorem parse_return_path :
    ∃ parsed, parseRequestPath (continuePath client token none [key] fun _ => value) = .ok parsed ∧
      parsed.clientId = some client ∧ parsed.values = keyValues
        (("token".toList ++ '=' :: token) ::
          (((key ++ '=' :: value.rdropWhile (· == '/')).splitOn '/').filter
            (fun part => decide (part ≠ []))).map unquote) Dict.empty := by
  have named : unquote ("token".toList ++ '=' :: token) = "token".toList ++ '=' :: token := by
    rw [unquote_entry, plain.unquoted, unquote, if_neg (by decide)]
  refine ⟨_, parse_split_path _ client (("token".toList ++ '=' :: token) ::
    ((key ++ '=' :: value.rdropWhile (· == '/')).splitOn '/').filter
      (fun part => decide (part ≠ []))) ?_, rfl, ?_⟩
  · rw [return_path_split plain value, List.filter_cons_of_pos (by simp),
      List.filter_cons_of_pos (by simp)]
  · simp only [List.map_cons, named]

end Paths

section Values

variable {client : ClientId} {token key value : Text} {parsed : ParsedPath}
  (plain : Plain token) (name : VariableName key)
  (parse : parseRequestPath (continuePath client token none [key] fun _ => value) = .ok parsed)

include plain name parse

/-- Some value is collected under the key, and each one collected comes from a part of the key and
the value. A value with slashes has several parts. -/
theorem returned_value :
    ∃ last, parsed.values.get key = some last ∧
      ∃ part ∈ (key ++ '=' :: value.rdropWhile (· == '/')).splitOn '/',
        unquote part = key ++ '=' :: last := by
  obtain ⟨again, parseAgain, -, values⟩ :=
    parse_return_path client key plain value
  cases parse.symm.trans parseAgain
  -- The first part names the key, whatever the value is cut into.
  obtain ⟨first, rest, split⟩ := Sequences.split_first '/' (key ++ ['='])
    (value.rdropWhile (· == '/')) (by simp [name.slash])
  rw [List.append_assoc, List.singleton_append, List.append_assoc, List.singleton_append] at split
  have member : key ++ '=' :: unquote first ∈
      (((key ++ '=' :: value.rdropWhile (· == '/')).splitOn '/').filter
        (fun part => decide (part ≠ []))).map unquote := by
    refine List.mem_map.mpr ⟨key ++ '=' :: first, ?_, by rw [unquote_entry, name.decoded]⟩
    rw [split]
    simp
  obtain ⟨last, inside, found⟩ := key_values_named ["token".toList ++ '=' :: token] _ key
    (unquote first) name.present name.equals member
  obtain ⟨part, kept, decoded⟩ := List.mem_map.mp inside
  exact ⟨last, values ▸ found, part, (List.mem_filter.mp kept).1, decoded⟩

/-- A value with a slash comes back shorter. What comes back is decoded from a part without slashes,
which is shorter, and decoding lengthens no text. -/
theorem cut_value_differs (slash : '/' ∈ value) : parsed.values.get key ≠ some value := by
  obtain ⟨last, found, part, member, decoded⟩ := returned_value plain name parse
  rw [found]
  intro same
  cases Option.some.inj same
  obtain ⟨free, taken⟩ := Sequences.split_parts '/' _ part member
  have whole : part.Sublist (key ++ '=' :: value) :=
    taken.trans (((List.rdropWhile_prefix _ value).sublist.cons_cons '=').append_left key)
  have longest : (key ++ '=' :: value).length ≤ part.length := by
    rw [← decoded]
    exact unquote_length part
  rw [whole.eq_of_length_le longest] at free
  simp [slash] at free

/-- The values of a return without a slash are the token and the decoded value. -/
theorem whole_value_collected (uncut : '/' ∉ value) :
    parsed.values = keyValues
      ["token".toList ++ '=' :: token, key ++ '=' :: unquote value] Dict.empty := by
  obtain ⟨again, parseAgain, -, values⟩ :=
    parse_return_path client key plain value
  cases parse.symm.trans parseAgain
  have kept : value.rdropWhile (· == '/') = value := by
    rw [List.rdropWhile_eq_self_iff]
    intro present slash
    exact uncut (beq_iff_eq.mp slash ▸ List.getLast_mem present)
  have single : (key ++ '=' :: value).splitOn '/' = [key ++ '=' :: value] :=
    List.splitOn_eq_singleton (by simp [name.slash, uncut])
  rw [values, kept, single, List.filter_cons_of_pos (by simp), List.filter_nil, List.map_singleton,
    unquote_entry, name.decoded]

/-- A value without a slash comes back decoded. -/
theorem whole_value_decoded (uncut : '/' ∉ value) : parsed.values.get key = some (unquote value) := by
  obtain ⟨last, inside, found⟩ := key_values_named ["token".toList ++ '=' :: token]
    [key ++ '=' :: unquote value] key (unquote value) name.present name.equals (by simp)
  obtain ⟨-, rfl⟩ := entry_injective _ _ _ _ name.equals name.equals (List.mem_singleton.mp inside)
  rw [whole_value_collected plain name parse uncut]
  exact found

/-- A value without a slash comes with no other key. -/
theorem whole_value_alone (uncut : '/' ∉ value) (other : Text) (different : other ≠ key)
    (notToken : other ≠ tokenKey) : parsed.values.get other = none := by
  refine Option.eq_none_iff_forall_ne_some.mpr fun last found => ?_
  rw [whole_value_collected plain name parse uncut] at found
  obtain ⟨-, free, inside⟩ := key_values_some _ _ _ found
  rcases List.mem_cons.mp inside with named | carried
  · exact notToken (entry_injective _ _ _ _ free (by decide) named).1
  · exact different (entry_injective _ _ _ _ free name.equals (List.mem_singleton.mp carried)).1

end Values

/-- A variable name is accepted as a return key. In every reachable state, a session whose handler
is suspended in `exec` asks for the variable under its continuation path, and the handler gets the
value unchanged, with no other change, exactly when the value holds neither a slash nor a percent
escape.

Proof: a value with a slash comes back shorter and one with an escape decoded; a value with neither
is one part of the path and decoded to itself. -/
theorem returned_value_delivered_iff (server : DynamicContentServer κ)
    (urlSafe : server.provider.host.UrlSafe) (files : FileTree) (events : List Event)
    (client : ClientId) (session : ClientSession κ)
    (stored : (server.after files events).sessions.get client = some session) (state : κ)
    (suspended : session.handler = some (.suspended state .inExec)) (key : Text)
    (name : VariableName key) (value : Text) (now : Nat) (schedule : Schedule)
    (peer : Text × Nat) :
    normalizeReturnKeys [key] = .ok [key] ∧ ∃ token, session.currentToken = some token ∧
      (∀ command, continueCommand session none [key] = .ok command →
        continuePath client token none [key] expansion <:+: command) ∧
      (Delivered server.provider (server.after files events) now schedule peer client session
        state token key value ↔ '/' ∉ value ∧ ¬Escaped value) := by
  have sound := after_sound server files events
  obtain ⟨keyed, staged, ⟨draw, -, current⟩, -⟩ := sound.sessions client session stored
  have plain := urlSafe.plain draw
  refine ⟨name.requestable, _, current, fun command built => command_path command keyed current built,
    ?_, ?_⟩
  · rintro ⟨parsed, left, codeEnd, accepts, -, -, arrived, -⟩
    have merged : (session.continued parsed).publicEnv.get key = some value := arrived
    obtain ⟨last, found, -⟩ := returned_value plain name accepts.parse
    rw [continued_public_env, name.merged, if_pos rfl, found, Option.some_or, ← found] at merged
    have uncut : '/' ∉ value := fun slash => cut_value_differs plain name accepts.parse slash merged
    refine ⟨uncut, (unquote_fixed_iff value).mp ?_⟩
    exact Option.some.inj ((whole_value_decoded plain name accepts.parse uncut).symm.trans merged)
  · rintro ⟨uncut, unescaped⟩
    obtain ⟨passed, idle⟩ := staged.waits state suspended
    obtain ⟨parsed, parse, names, values⟩ :=
      parse_return_path client key plain value
    have tokenValue : parsed.values.get tokenKey = some (server.provider.host.token draw) := by
      rw [whole_value_collected plain name parse uncut]
      obtain ⟨last, inside, found⟩ := key_values_named [] ["token".toList ++ '=' ::
        server.provider.host.token draw, key ++ '=' :: unquote value] tokenKey
        (server.provider.host.token draw) (by decide) (by decide) (by simp [tokenKey])
      rcases List.mem_cons.mp inside with named | carried
      · obtain ⟨-, rfl⟩ := entry_injective _ _ _ _ (by decide) (by decide) named
        exact found
      · exact absurd (entry_injective _ _ _ _ (by decide) name.equals
          (List.mem_singleton.mp carried)).1.symm name.notToken
    have accepts : (server.after files events).Accepts
        (returnRequest client (server.provider.host.token draw) key value peer).filename parsed
        client session :=
      ⟨parse, names, by simp [isContinuation, tokenValue], stored, tokenValue.trans current.symm⟩
    have enters : Enters server.provider
        (returnRequest client (server.provider.host.token draw) key value peer) parsed session state
        .inExec _ := .resumed state .inExec passed suspended
    rw [idle] at enters
    obtain ⟨left, codeEnd, code, resumed, -⟩ := enters_settles (server.after files events)
      server.provider now schedule _ sound accepts enters
    refine ⟨parsed, left, codeEnd, accepts, code, resumed, ?_, fun other different => ?_⟩
    · change (session.continued parsed).publicEnv.get key = some value
      rw [continued_public_env, name.merged, if_pos rfl,
        whole_value_decoded plain name parse uncut, unquote_unescaped value unescaped, Option.some_or]
    · change (session.continued parsed).publicEnv.get other = session.publicEnv.get other
      rw [continued_public_env]
      split
      · rename_i merged
        have notToken : other ≠ tokenKey := by
          rintro rfl
          simp [mergedKey] at merged
        rw [whole_value_alone plain name parse uncut other different notToken, Option.none_or]
      · rfl

/-- The code of a handler that asks for one variable and returns. -/
def sampleAsk : Resumption → Code Unit
  | .started =>
    .await (.exec ⟨"version".toList, false, none, ["reply".toList], none⟩
      ⟨.text "version".toList, false, ["reply".toList], rfl⟩) ()
  | _ => .finish

/-- A sample server whose handler asks for a variable, after a start and its preflight. -/
def sampleAsked : World Unit :=
  (sampleServer sampleEntry sampleAsk).after Dict.empty
    [.readRequest (sampleRequest "id=cam") 0 [],
      .readRequest (sampleRequest "id=cam/token=t/hush_shell=true") 0 []]

/-- The session of the sample state has its handler suspended in `exec`. -/
theorem sample_asked :
    ∃ session, sampleAsked.sessions.get sampleClient = some session ∧
      session.currentToken = some "tt".toList ∧
      session.handler = some (.suspended () .inExec) := by
  have asked : (sampleAsked.sessions.get sampleClient).map
      (fun session => (session.currentToken, session.handler)) =
        some (some "tt".toList, some (.suspended () .inExec)) := by decide +kernel
  obtain ⟨session, stored, fields⟩ := Option.map_eq_some_iff.mp asked
  exact ⟨session, stored, Prod.mk.inj fields⟩

/-- The sample variable has a name. -/
theorem sample_variable : VariableName "reply".toList where
  present := by decide
  word := by
    have plain : ("reply".toList.all fun character =>
        decide (character ∉ ['/', '=', '%', '\r', '\n'])) = true := by decide
    simpa only [List.all_eq_true, decide_eq_true_eq] using plain
  notToken := by decide
  notRecv := by decide
  shown := by decide

/-- A value with spaces and equals signs is delivered in the sample state. -/
theorem returned_value_sample :
    ∃ session, sampleAsked.sessions.get sampleClient = some session ∧
      Delivered (sampleServer sampleEntry sampleAsk).provider sampleAsked 0 []
        ("10.0.0.2".toList, 1069) sampleClient session () "tt".toList "reply".toList
        "a = 10%".toList := by
  obtain ⟨session, stored, current, suspended⟩ := sample_asked
  refine ⟨session, stored, ?_⟩
  obtain ⟨-, token, same, -, delivered⟩ := returned_value_delivered_iff
    (sampleServer sampleEntry sampleAsk) sample_url_safe Dict.empty _ sampleClient session stored ()
    suspended "reply".toList sample_variable "a = 10%".toList 0 [] ("10.0.0.2".toList, 1069)
  cases current.symm.trans same
  refine delivered.mpr ⟨by decide, (unquote_fixed_iff _).mp (by decide)⟩

/-- A value with a slash is not delivered in the sample state. The path is cut at the slash, so what
arrives under the key is the text in front of it. -/
theorem slashed_value_lost :
    ∃ session, sampleAsked.sessions.get sampleClient = some session ∧
      session.handler = some (.suspended () .inExec) ∧ session.currentToken = some "tt".toList ∧
      VariableName "reply".toList ∧
      ¬Delivered (sampleServer sampleEntry sampleAsk).provider sampleAsked 0 []
        ("10.0.0.2".toList, 1069) sampleClient session () "tt".toList "reply".toList
        "rootfs/1".toList := by
  obtain ⟨session, stored, current, suspended⟩ := sample_asked
  refine ⟨session, stored, suspended, current, sample_variable, ?_⟩
  rintro ⟨parsed, -, -, accepts, -, -, arrived, -⟩
  have merged : (session.continued parsed).publicEnv.get "reply".toList =
    some "rootfs/1".toList := arrived
  have parse : (parseRequestPath (returnRequest sampleClient "tt".toList "reply".toList
      "rootfs/1".toList ("10.0.0.2".toList, 1069)).filename).toOption.map
        (·.values.get "reply".toList) = some (some "rootfs".toList) := by decide +kernel
  rw [accepts.parse] at parse
  have carried : parsed.values.get "reply".toList = some "rootfs".toList := Option.some.inj parse
  rw [continued_public_env, sample_variable.merged, if_pos rfl, carried, Option.some_or] at merged
  exact absurd merged (by decide)

end UbootTftp
