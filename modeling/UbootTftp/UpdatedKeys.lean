import UbootTftp.ReturnKeys
import UbootTftp.SessionMoves

/-!
# The keys that a continuation updates

A script asks for the keys of the instruction that the handler awaits; the preflight asks
for `hush_shell`. A continuation is merged as it comes, so it updates the asked keys only
if every other key that it carries is one of the protocol's or repeats what is stored.
-/

namespace UbootTftp

universe u
variable {κ : Type u}

/-- What handler code awaits at its end. -/
def CodeEnd.awaiting : CodeEnd κ → Option Awaited
  | .awaited helper _ => some helper
  | .returned => none
  | .raised _ => none

/-- What a step makes the client's handler await. Requests of other clients, and events that are no
read requests, show nothing. -/
def DynamicContentServer.awaits (server : DynamicContentServer κ) (client : ClientId)
    (world : World κ) : Event → Option Awaited
  | .readRequest request now schedule =>
    if (parseRequestPath request.filename).toOption.bind (·.clientId) = some client then
      (world.fetch server.provider now schedule request).resumed.bind (·.2.awaiting)
    else none
  | _ => none

/-- What the client's handler has awaited last in a run. It is read off the run, since a session
does not remember what its handler awaits. -/
def lastAwaited (server : DynamicContentServer κ) (files : FileTree) (events : List Event)
    (client : ClientId) : Option Awaited :=
  (Runs.observed server.step (server.awaits client) (World.initial files) events).getLast?

/-- The keys that the script last sent to the session asks for. During the preflight it is the probe
of the shell that asks, and afterwards the helper call that the handler waits for. -/
def requestedKeys (session : ClientSession κ) (awaited : Option Awaited) : List Text :=
  if session.preflightPending then [hushKey]
  else match session.handler with
    | some (.suspended _ _) => ((awaited.bind (·.instruction)).map (·.returnKeys)).getD []
    | _ => []

/-- A continuation changes no entry of the two environments but those of the keys. -/
def UpdatesOnly (session : ClientSession κ) (parsed : ParsedPath) (keys : List Text) : Prop :=
  ∀ key, key ∉ keys → (session.continued parsed).env.get key = session.env.get key ∧
    (session.continued parsed).publicEnv.get key = session.publicEnv.get key

section Awaiting

variable (server : DynamicContentServer κ) (client : ClientId) (world : World κ)

/-- A request that the client's session accepts shows what its handler code awaits. -/
theorem awaits_accepted (request : ContentRequest) (now : Nat) (schedule : Schedule)
    {parsed : ParsedPath} {session : ClientSession κ}
    (accepts : world.Accepts request.filename parsed client session) :
    server.awaits client world (.readRequest request now schedule) =
      (world.fetch server.provider now schedule request).resumed.bind (·.2.awaiting) := by
  simp [DynamicContentServer.awaits, accepts.parse, accepts.names, Except.toOption]

/-- A step that the client's session does not accept shows nothing. A handler is run by an accepted
continuation only. -/
theorem awaits_unaccepted (event : Event)
    (unaccepted : ∀ request now schedule, event = .readRequest request now schedule →
      ∀ parsed session, ¬world.Accepts request.filename parsed client session) :
    server.awaits client world event = none := by
  cases event with
  | readRequest request now schedule =>
    simp only [DynamicContentServer.awaits]
    split
    · rename_i named
      cases resumed : (world.fetch server.provider now schedule request).resumed with
      | none => rfl
      | some result =>
        obtain ⟨parsed, other, session, accepts⟩ :=
          world.resumed_accepted server.provider now schedule request resumed
        have same : other = client := by
          simpa [accepts.parse, accepts.names, Except.toOption] using named
        exact absurd (same ▸ accepts) (unaccepted request now schedule rfl parsed session)
    · rfl
  | writeRequest path peer => rfl
  | write handle chunk => rfl
  | close handle => rfl
  | threadReport now report => rfl

end Awaiting

/-- A stored session with a suspended handler is suspended in what its client's handler has awaited
last. The induction is on the run; a step that the session does not accept shows nothing. -/
theorem suspended_awaits (server : DynamicContentServer κ) (files : FileTree)
    (events : List Event) (client : ClientId) :
    ∀ session state point, (server.after files events).sessions.get client = some session →
      session.handler = some (.suspended state point) →
      ∃ awaited, lastAwaited server files events client = some awaited ∧
        awaited.point = point := by
  apply Runs.run_history server.step (World.initial files)
    (fun past world => ∀ session state point, world.sessions.get client = some session →
      session.handler = some (.suspended state point) →
      ∃ awaited, lastAwaited server files past client = some awaited ∧ awaited.point = point)
  case base =>
    intro session state point stored
    cases stored
  intro past event known session state point stored suspended
  change ∀ session state point, (server.after files past).sessions.get client = some session → _
    at known
  change (server.step (server.after files past) event).sessions.get client = some session at stored
  have sound := after_sound server files past
  have shown : lastAwaited server files (past ++ [event]) client =
      (server.awaits client (server.after files past) event).or
        (lastAwaited server files past client) := by
    rw [lastAwaited, Runs.observed_snoc, List.getLast?_append]
    congr 1
    change (server.awaits client (server.after files past) event).toList.getLast? = _
    cases server.awaits client (server.after files past) event <;> rfl
  rw [shown]
  by_cases accepted : ∃ request now schedule, event = .readRequest request now schedule ∧
      ∃ parsed earlier, (server.after files past).Accepts request.filename parsed client earlier
  · obtain ⟨request, now, schedule, rfl, parsed, earlier, accepts⟩ := accepted
    have staged := (sound.sessions client earlier accepts.stored).staged
    have handled := (server.after files past).accepted_cases server.provider now schedule request
      parsed client earlier sound accepts.stored
    rw [DynamicContentServer.step_read_request] at stored
    rw [← accepts.fetch server.provider now schedule] at handled
    rw [awaits_accepted server client _ request now schedule accepts]
    cases handled with
    | failed pending unreported leaves tokens silent answer =>
      rw [leaves.own] at stored
      cases stored
    | uncreated raised pending reported refused leaves tokens silent answer =>
      cases leaves.own.symm.trans stored
      simp [staged.unhandled pending] at suspended
    | exhausted passed broken leaves tokens silent answer =>
      cases leaves.own.symm.trans stored
      simp only [earlier.continued_handler] at suspended
      rcases broken with missing | finished
      · cases missing.symm.trans suspended
      · cases finished.symm.trans suspended
    | ran entered place resumption left codeEnd enters code frame keyed ran resumed answers =>
      obtain ⟨awaited, rfl, same⟩ := settle_suspended left.session session _ codeEnd
        ((keyed ▸ ran.leaves).own.symm.trans stored) state point suspended
      exact ⟨awaited, by simp [resumed, CodeEnd.awaiting], same⟩
  · have unaccepted : ∀ request now schedule, event = .readRequest request now schedule →
        ∀ parsed earlier,
          ¬(server.after files past).Accepts request.filename parsed client earlier :=
      fun request now schedule same parsed earlier accepts =>
        accepted ⟨request, now, schedule, same, parsed, earlier, accepts⟩
    rw [awaits_unaccepted server client _ event unaccepted, Option.none_or]
    by_cases read : ∃ request now schedule, event = .readRequest request now schedule
    · obtain ⟨request, now, schedule, rfl⟩ := read
      rw [DynamicContentServer.step_read_request] at stored
      rcases fetch_unaccepted (server.after files past) server.provider now schedule request sound
        client (unaccepted request now schedule rfl) with ⟨same, -⟩ | ⟨parsed, -, opened⟩
      · exact known session state point (same ▸ stored) suspended
      · cases opened.symm.trans stored
        cases suspended
    · rcases unread_step server (server.after files past) event (fun request now schedule same =>
        read ⟨request, now, schedule, same⟩) client with
        same | ⟨earlier, pending, body, present, -, kept⟩
      · exact known session state point (same ▸ stored) suspended
      · cases kept.symm.trans stored
        exact known earlier state point present suspended

/-- A continuation updates the given keys only, exactly when every other key that it carries is one
of the protocol's or repeats what is stored. This is about any session and any request, reachable or
not. -/
theorem updates_only_iff (session : ClientSession κ) (parsed : ParsedPath) (keys : List Text) :
    UpdatesOnly session parsed keys ↔
      ∀ key value, parsed.values.get key = some value →
        key = tokenKey ∨ key = recvKey ∨ key ∈ keys ∨ session.env.get key = some value ∧
          (key ∈ hiddenKeys ∨ session.publicEnv.get key = some value) := by
  simp only [UpdatesOnly, continued_env, continued_public_env]
  constructor
  · intro unchanged key value carried
    by_cases merged : mergedKey key = true
    · by_cases asked : key ∈ keys
      · exact .inr (.inr (.inl asked))
      · obtain ⟨same, shown⟩ := unchanged key asked
        rw [merged, if_pos rfl, carried, Option.some_or] at same
        refine .inr (.inr (.inr ⟨same.symm, ?_⟩))
        by_cases hidden : key ∈ hiddenKeys
        · exact .inl hidden
        · simp only [merged, hidden, not_false_eq_true, decide_true, Bool.and_self, if_true, carried,
            Option.some_or] at shown
          exact .inr shown.symm
    · simp only [mergedKey, decide_eq_true_eq, not_and_or, not_not] at merged
      exact merged.imp_right .inl
  · intro allowed key unasked
    cases carried : parsed.values.get key with
    | none => simp only [Option.none_or, ite_self, and_self]
    | some value =>
      rcases allowed key value carried with token | recv | asked | ⟨same, shown⟩
      · simp [mergedKey, token]
      · simp [mergedKey, recv]
      · exact absurd asked unasked
      · rcases shown with hidden | shown
        · simp [same, hidden]
        · simp [same, shown]

/-- An accepted request leaves the merged environment in the session that stays stored. A handler
that runs in between may change the public environment but not this one. -/
theorem accepted_env (world : World κ) (provider : Provider κ) (now : Nat) (schedule : Schedule)
    (request : ContentRequest) (sound : world.Sound provider.host) {parsed : ParsedPath}
    {client : ClientId} {session : ClientSession κ}
    (accepts : world.Accepts request.filename parsed client session) (left : ClientSession κ)
    (stored : (world.fetch provider now schedule request).world.sessions.get client = some left) :
    left.env = (session.continued parsed).env := by
  have handled := world.accepted_cases provider now schedule request parsed client session sound
    accepts.stored
  rw [← accepts.fetch provider now schedule] at handled
  cases handled with
  | failed pending unreported leaves tokens silent answer =>
    rw [leaves.own] at stored
    cases stored
  | uncreated raised pending reported refused leaves tokens silent answer =>
    cases leaves.own.symm.trans stored
    rfl
  | exhausted passed broken leaves tokens silent answer =>
    cases leaves.own.symm.trans stored
    rfl
  | ran state point resumption after codeEnd enters code frame keyed ran resumed answers =>
    obtain ⟨env, artifacts, kept⟩ := frame
    rw [(settle_record after.session left _ codeEnd ((keyed ▸ ran.leaves).own.symm.trans stored)).env,
      kept]
    rfl

/-- In every reachable state and for every accepted continuation: a suspended handler is suspended
in what it has awaited last, the session that stays stored holds the merged environment, and the
merging updates nothing but the requested keys exactly when every other key of the request is one of
the protocol's or repeats what is stored.

The requested keys are those of the script that the session was sent last, so the statement ties the
request to the run before it. -/
theorem continuation_updates_iff (server : DynamicContentServer κ) (files : FileTree)
    (events : List Event) (request : ContentRequest) (parsed : ParsedPath) (client : ClientId)
    (session : ClientSession κ)
    (accepts : (server.after files events).Accepts request.filename parsed client session) :
    let requested := requestedKeys session (lastAwaited server files events client)
    (∀ state point, session.handler = some (.suspended state point) →
        ∃ awaited, lastAwaited server files events client = some awaited ∧
          awaited.point = point) ∧
      (∀ now schedule left, ((server.after files events).fetch server.provider now schedule
          request).world.sessions.get client = some left →
        left.env = (session.continued parsed).env) ∧
      (UpdatesOnly session parsed requested ↔
        ∀ key value, parsed.values.get key = some value →
          key = tokenKey ∨ key = recvKey ∨ key ∈ requested ∨ session.env.get key = some value ∧
            (key ∈ hiddenKeys ∨ session.publicEnv.get key = some value)) := by
  intro requested
  refine ⟨?_, ?_, updates_only_iff session parsed requested⟩
  · intro state point suspended
    exact suspended_awaits server files events client session state point accepts.stored suspended
  · intro now schedule left stored
    exact accepted_env _ server.provider now schedule request (after_sound server files events)
      accepts left stored

/-- The code of a handler that asks for one variable and returns. -/
def askingCode : Resumption → Code Unit
  | .started =>
    .await (.exec ⟨"version".toList, false, none, ["soc".toList], none⟩
      ⟨.text "version".toList, false, ["soc".toList], rfl⟩) ()
  | _ => .finish

/-- A continuation with the token and the variable that was asked for updates that variable and
nothing else. -/
theorem continuation_updates_sample :
    let server := sampleServer sampleEntry askingCode
    let events := [Event.readRequest (sampleRequest "id=cam") 0 [],
      .readRequest (sampleRequest "id=cam/token=t/hush_shell=true") 0 []]
    ∃ parsed session, (server.after Dict.empty events).Accepts
        (sampleRequest "id=cam/token=tt/soc=x1").filename parsed sampleClient session ∧
      requestedKeys session (lastAwaited server Dict.empty events sampleClient) = ["soc".toList] ∧
      session.env.get "soc".toList = none ∧
      (session.continued parsed).env.get "soc".toList = some "x1".toList ∧
      UpdatesOnly session parsed
        (requestedKeys session (lastAwaited server Dict.empty events sampleClient)) := by
  intro server events
  have waiting : ((server.after Dict.empty events).sessions.get sampleClient).map
      (fun session => (session.currentToken, session.env.get "soc".toList,
        requestedKeys session (lastAwaited server Dict.empty events sampleClient))) =
      some (some "tt".toList, none, ["soc".toList]) := by decide +kernel
  obtain ⟨session, stored, fields⟩ := Option.map_eq_some_iff.mp waiting
  obtain ⟨current, fields⟩ := Prod.mk.inj fields
  obtain ⟨before, asked⟩ := Prod.mk.inj fields
  have accepts : (server.after Dict.empty events).Accepts
      (sampleRequest "id=cam/token=tt/soc=x1").filename
      ⟨"id=cam/token=tt/soc=x1".toList, some sampleClient, "/token=tt/soc=x1".toList,
        ["token=tt".toList, "soc=x1".toList],
        Dict.ofList [("token".toList, "tt".toList), ("soc".toList, "x1".toList)]⟩ sampleClient
      session :=
    ⟨by decide +kernel, rfl, rfl, stored, current ▸ rfl⟩
  have updates := (continuation_updates_iff server Dict.empty events _ _ sampleClient session
    accepts).2.2
  refine ⟨_, session, accepts, asked, before, Dict.get_set_self _ _ _, updates.mpr ?_⟩
  intro key value carried
  rw [asked]
  rcases Dict.get_update_some _ _ _ _ carried with member | none
  · rcases List.mem_cons.mp member with token | soc
    · exact .inl (congrArg Prod.fst token)
    · exact .inr (.inr (.inl (List.mem_singleton.mpr (congrArg Prod.fst (List.mem_singleton.mp soc)))))
  · cases none

/-- A continuation may replace the load address, which no script asks for. The name is a setting of
the server, and the request carries it like any other key. -/
theorem load_address_replaced :
    let server := sampleServer sampleEntry sampleCode
    let events := [Event.readRequest (sampleRequest "id=cam") 0 [],
      .readRequest (sampleRequest "id=cam/token=t/hush_shell=true") 0 []]
    ∃ parsed session, (server.after Dict.empty events).Accepts
        (sampleRequest "id=cam/token=tt/rambase=0").filename parsed sampleClient session ∧
      "rambase".toList ∉
        requestedKeys session (lastAwaited server Dict.empty events sampleClient) ∧
      (session.continued parsed).env.get "rambase".toList ≠ session.env.get "rambase".toList := by
  intro server events
  have waiting : ((server.after Dict.empty events).sessions.get sampleClient).map
      (fun session => (session.currentToken, session.env.get "rambase".toList,
        requestedKeys session (lastAwaited server Dict.empty events sampleClient))) =
      some (some "tt".toList, some "loadaddr".toList, []) := by decide +kernel
  obtain ⟨session, stored, fields⟩ := Option.map_eq_some_iff.mp waiting
  obtain ⟨current, fields⟩ := Prod.mk.inj fields
  obtain ⟨before, asked⟩ := Prod.mk.inj fields
  refine ⟨⟨"id=cam/token=tt/rambase=0".toList, some sampleClient, "/token=tt/rambase=0".toList,
    ["token=tt".toList, "rambase=0".toList],
    Dict.ofList [("token".toList, "tt".toList), ("rambase".toList, "0".toList)]⟩, session,
    ⟨by decide +kernel, rfl, rfl, stored, current ▸ rfl⟩, by rw [asked]; exact List.not_mem_nil, ?_⟩
  rw [continued_env, before]
  decide

end UbootTftp
