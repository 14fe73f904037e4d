import UbootTftp.SessionMoves

/-!
# Runs of one handler

A handler runs in rounds: the server resumes it, and its code runs to the next suspension.
Between two rounds anything may happen to the environments, the downloads and the files, so
a round is given whatever it finds, and what holds of all rounds holds on any server. The
handler of a stored session has come to its state by such rounds.

What all code of a handler does to its session is shown by the rule of `Code.Ensures`, which
follows the code and takes every answer of the handle into account.
-/

namespace UbootTftp

universe u
variable {κ : Type u}

/-- One resumption of a handler: the time, the reports of download threads meanwhile, what the code
finds and what it gets. None of this is tied to the round before. -/
structure Round (κ : Type u) where
  now : Nat
  schedule : Schedule
  found : HandleState κ
  resumption : Resumption

/-- What a round leaves, and how its code ends. -/
def Provider.play (provider : Provider κ) (state : κ) (round : Round κ) :
    HandleState κ × CodeEnd κ :=
  (provider.resume state round.resumption).run provider.host round.now round.schedule round.found

/-- The rounds that lead a handler from one state to another, each with the state that it resumes. A
round that ends the handler is not among them. -/
inductive Provider.Plays (provider : Provider κ) (first : κ) : List (κ × Round κ) → κ → Prop
  | begun : Plays provider first [] first
  | suspended (past : List (κ × Round κ)) (state : κ) (round : Round κ) (awaited : Awaited)
      (next : κ) (plays : Plays provider first past state)
      (suspends : (provider.play state round).2 = .awaited awaited next) :
      Plays provider first (past ++ [(state, round)]) next

/-- Rounds of which each goes on where the one before it was suspended. -/
def Provider.Leads (provider : Provider κ) : κ → List (κ × Round κ) → κ → Prop
  | first, [], last => first = last
  | first, (state, round) :: rest, last => state = first ∧ ∃ awaited next,
      (provider.play state round).2 = .awaited awaited next ∧ provider.Leads next rest last

/-- Such rounds extend a run. By induction on the rounds, each of which lengthens the past of those
after it. -/
theorem Provider.Leads.plays {provider : Provider κ} {start : κ} {past : List (κ × Round κ)}
    (first : κ) (rounds : List (κ × Round κ)) (last : κ) (leads : provider.Leads first rounds last)
    (plays : provider.Plays start past first) : provider.Plays start (past ++ rounds) last := by
  induction rounds generalizing past first with
  | nil =>
    cases leads
    simpa using plays
  | cons entry rounds inductionHypothesis =>
    obtain ⟨state, round⟩ := entry
    obtain ⟨rfl, awaited, next, suspends, later⟩ := leads
    have extended := inductionHypothesis next later (.suspended past state round awaited next plays
      suspends)
    simpa using extended

/-- What holds at first and is kept by every round that meets a condition holds after every run
whose rounds all meet it.

Proof: by induction on the run, from its end. -/
theorem Provider.Plays.guarded {provider : Provider κ} {first : κ} (guard : κ → Round κ → Prop)
    (holds : List (κ × Round κ) → κ → Prop) (base : holds [] first)
    (extended : ∀ past state round awaited next, holds past state → guard state round →
      (provider.play state round).2 = .awaited awaited next →
      holds (past ++ [(state, round)]) next)
    {past : List (κ × Round κ)} {state : κ} (plays : provider.Plays first past state)
    (met : ∀ entry ∈ past, guard entry.1 entry.2) : holds past state := by
  induction plays with
  | begun => exact base
  | suspended past state round awaited next plays suspends inductionHypothesis =>
    apply extended past state round awaited next
    · exact inductionHypothesis fun entry member => met entry (List.mem_append_left _ member)
    · exact met (state, round) (by simp)
    · exact suspends

/-- The script that the server makes of what a handler awaits. White space at its end is stripped.
With an upload it is followed by the commands that send it, and otherwise by the command that
continues, unless it is the last one. -/
def sentScript (token tmpName : Text) (session : ClientSession κ) (request : ExecutionRequest) :
    Except Raised Text :=
  let script := Text.rstrip request.script
  match request.receiveSize with
  | some size =>
    appendReceive script
      { session with
        currentToken := some token
        pendingReceive := some ⟨token, "/upload.bin".toList, size, none⟩
        phase := .awaitUpload } tmpName request.returnKeys request.receiveOffset
  | none =>
    if request.final then .ok script
    else appendContinue script { session with currentToken := some token, phase := .awaitRrq } none
      request.returnKeys

/-- A round of a handler emits a script: what it awaits is an instruction, and this is what the
server makes of it. -/
def Provider.Emits (provider : Provider κ) (state : κ) (round : Round κ) (draw : Nat)
    (tmpName script : Text) : Prop :=
  ∃ awaited next request, (provider.play state round).2 = .awaited awaited next ∧
    awaited.instruction = some request ∧
      sentScript (provider.host.token draw) tmpName (provider.play state round).1.session request =
        .ok script

/-- The server answers with the compiled script, or with what building it raised. The token and the
name of the temporary variable are those that are drawn next. What is stored of the session is no
part of this. -/
theorem instruction_sent (world : World κ) (host : Host) (now : Nat) (session : ClientSession κ)
    (awaited : Awaited) (request : ExecutionRequest) (asks : awaited.instruction = some request) :
    (world.resultFromInstruction host now session awaited).2 =
      (sentScript (host.token world.tokensDrawn)
        ("__uboot_tftp_recv_".toList ++ host.hexToken world.namesDrawn) session request).map
        (fun script => ContentResult.fromBytes (host.compile (ensureNewline script))) := by
  simp only [World.resultFromInstruction, asks, sentScript]
  cases sized : request.receiveSize with
  | some size =>
    simp only
    exact World.answer_result _ _ _ _
  | none =>
    simp only
    split
    · rfl
    · exact World.answer_result _ _ _ _

section Writing

/-- A path that is resolved below the root is the one that the name leads to. Leading slashes are
dropped before the name is put behind the root. Names that are refused or lead outside have no
target. -/
theorem resolved_target (host : Host) (path : Text) (target : Path)
    (resolved : resolveStaticPath host path = .ok (some target)) :
    target = host.resolve (host.staticRoot ++ pathParts (path.dropWhile (· == '/'))) := by
  simp only [resolveStaticPath, Host.resolveBelow] at resolved
  split at resolved
  · cases resolved
  · rename_i candidate found
    split at found
    · cases found
    · cases found
      split at resolved
      · cases resolved
      · split at resolved
        · cases resolved
          rfl
        · cases resolved

/-- A file that a handler has written holds the body, where its name leads to. The name is resolved
twice, once for the check and once here, and a leading slash in it makes no difference. -/
theorem HandleState.write_file_contents (host : Host) (state : HandleState κ) (destination : Text)
    (body : Bytes) (path : Path)
    (written : (state.writeFile host destination body).2 = .ok path) :
    (state.writeFile host destination body).1.files.contents
      (host.resolve (host.staticRoot ++ pathParts (destination.dropWhile (· == '/')))) =
        some body := by
  unfold HandleState.writeFile at written ⊢
  cases resolved : resolveStaticPath host ('/' :: destination) with
  | error raised => simp [resolved] at written
  | ok found =>
    cases found with
    | none => simp [resolved] at written
    | some target =>
      cases made : state.files.makeParents target with
      | error raised => simp [resolved, made] at written
      | ok done =>
        cases stored : state.files.writeBytes target body with
        | error raised => simp [resolved, made, stored] at written
        | ok files =>
          have place := resolved_target host _ target resolved
          simp only [made, stored]
          have held := FileTree.written_contents state.files files target body stored
          rw [place] at held
          exact held
end Writing

section Rules

/-- Every suspension of the code satisfies the postcondition, whatever the handle answers, provided
that sessions satisfy the precondition.

It is defined along the code, so that a goal about a stretch of a handler comes apart into one goal
for each of its operations. -/
def Code.Ensures (pre : ClientSession κ → Prop) (post : Awaited → κ → Prop) : Code κ → Prop
  | .await awaited next => post awaited next
  | .finish => True
  | .raise _ => True
  | .inspect next => ∀ session, pre session → (next session).Ensures pre post
  | .setEnv env next =>
    (∀ session, pre session → pre { session with publicEnv := env }) ∧ next.Ensures pre post
  | .acquireDownload _ _ _ _ _ next => ∀ answer, (next answer).Ensures pre post
  | .getDownload _ next => ∀ answer, (next answer).Ensures pre post
  | .writeFile _ _ next => ∀ answer, (next answer).Ensures pre post
  | .fileExists _ next => ∀ answer, (next answer).Ensures pre post
  | .readFile _ next => ∀ answer, (next answer).Ensures pre post

variable {pre : ClientSession κ → Prop} {post : Awaited → κ → Prop}

/-- The rule is sound: a run that suspends does so with the postcondition, and the session still
satisfies the precondition.

Proof: by induction on the code. Each operation goes on with an answer for which the rule has been
shown, and between two operations the reports of threads change no session. -/
theorem Code.Ensures.run {code : Code κ} (ensures : code.Ensures pre post)
    (unattached : ∀ session artifacts, pre session →
      pre { session with downloadArtifacts := artifacts })
    (host : Host) (now : Nat) (schedule : Schedule) (found : HandleState κ)
    (before : pre found.session) (awaited : Awaited) (next : κ)
    (suspends : (code.run host now schedule found).2 = .awaited awaited next) :
    post awaited next ∧ pre (code.run host now schedule found).1.session := by
  have reported (events : List ThreadEvent) (state : HandleState κ) (holds : pre state.session) :
      pre (state.reports now events).session := by
    rw [HandleState.reports_session]
    exact holds
  induction code generalizing schedule found with
  | await first second =>
    cases suspends
    exact ⟨ensures, before⟩
  | finish => cases suspends
  | raise error => cases suspends
  | inspect code inductionHypothesis =>
    apply inductionHypothesis
    · exact ensures _ (reported _ _ before)
    · exact reported _ _ before
    · exact suspends
  | setEnv env code inductionHypothesis =>
    apply inductionHypothesis ensures.2
    · exact ensures.1 _ (reported _ _ before)
    · exact suspends
  | acquireDownload artifactKey url destination pageUrl headers code inductionHypothesis =>
    apply inductionHypothesis
    · exact ensures _
    · obtain ⟨artifacts, acquired⟩ := HandleState.acquire_download_session host now
        (found.reports now (schedule.headD [])) artifactKey url destination pageUrl headers
      rw [acquired]
      exact unattached _ _ (reported _ _ before)
    · exact suspends
  | getDownload artifactKey code inductionHypothesis =>
    apply inductionHypothesis
    · exact ensures _
    · exact reported _ _ before
    · exact suspends
  | writeFile destination body code inductionHypothesis =>
    apply inductionHypothesis
    · exact ensures _
    · rw [(HandleState.write_file_frame host _ destination body).1]
      exact reported _ _ before
    · exact suspends
  | fileExists filename code inductionHypothesis =>
    apply inductionHypothesis
    · exact ensures _
    · exact reported _ _ before
    · exact suspends
  | readFile filename code inductionHypothesis =>
    apply inductionHypothesis
    · exact ensures _
    · exact reported _ _ before
    · exact suspends

end Rules

/-- A handler of the client has come to a state by rounds from its entry function on. -/
def Provider.Reaches (provider : Provider κ) (client : ClientId) (state : κ) : Prop :=
  ∃ start arguments past, provider.module (routeFor provider.config client).entryFunc =
      .async start ∧ arguments.ident = client.text ∧
    arguments.root = provider.host.staticRoot ∧ provider.Plays (start arguments) past state

/-- The state that a continuation enters is the first one of a new handler or the one that
the stored session is in. -/
theorem Enters.reaches {provider : Provider κ} {request : ContentRequest} {parsed : ParsedPath}
    {session : ClientSession κ} {state : κ} {point : Suspension} {resumption : Resumption}
    (enters : Enters provider request parsed session state point resumption) (client : ClientId)
    (keyed : session.clientId = client)
    (before : ∀ earlier place, session.handler = some (.suspended earlier place) →
      provider.Reaches client earlier) : provider.Reaches client state := by
  cases enters with
  | resumed _ passed handled => exact before state point handled
  | begun pending reported made =>
    simp only [createHandler, ClientSession.continued_client_id, keyed] at made
    split at made
    · cases made
    · split at made
      · cases made
      · cases made
      · cases made
      · rename_i start found
        cases made
        exact ⟨start, _, [], found, rfl, rfl, .begun⟩

/-- The handler of every stored session has come to its state by rounds. Whatever holds of all
rounds of a handler therefore holds on the server. -/
theorem session_reaches (server : DynamicContentServer κ) (files : FileTree) (events : List Event) :
    ∀ client session state point, (server.after files events).sessions.get client = some session →
      session.handler = some (.suspended state point) → server.provider.Reaches client state := by
  refine (Runs.run_invariant server.step (fun world => world.Sound server.provider.host ∧
    ∀ client session state point, world.sessions.get client = some session →
      session.handler = some (.suspended state point) → server.provider.Reaches client state)
    ?_ _ ⟨after_sound server files [], by rintro client session state point ⟨⟩⟩ events).2
  rintro world event ⟨sound, held⟩
  refine ⟨step_sound server world event sound, fun client session state point stored handled => ?_⟩
  obtain ⟨actor, moves⟩ := step_moves server world event sound
  have move := moves.any client
  rw [stored] at move
  generalize earlier : world.sessions.get client = before at move
  generalize present : some session = after at move
  cases move with
  | same =>
    rw [← present] at earlier
    exact held client session state point earlier handled
  | opened =>
    cases present
    cases handled
  | dropped => cases present
  | uploaded first =>
    cases present
    exact held client first state point earlier handled
  | uncreated first request parsed raised pending refused =>
    cases present
    exact held client first state point earlier (by simpa using handled)
  | exhausted first parsed passed broken =>
    cases present
    exact held client first state point earlier (by simpa using handled)
  | settled first request parsed from_ place resumption now schedule downloads tree left codeEnd
      enters code frame =>
    obtain ⟨awaited, rfl, -⟩ := settle_suspended left.session session _ codeEnd present.symm state
      point handled
    obtain ⟨start, arguments, past, entry, named, root, plays⟩ := enters.reaches client
      (sound.sessions client first earlier).keyed
      (fun state place => held client first state place earlier)
    refine ⟨start, arguments, _, entry, named, root, .suspended past from_
      ⟨now, schedule, ⟨first.entered parsed from_ place, downloads, tree⟩, resumption⟩ awaited state
      plays ?_⟩
    exact congrArg Prod.snd code

end UbootTftp
