import UbootTftp.DownloadUrl
import UbootTftp.SessionCleanup

/-!
# Polling a download to its end

A handler that waits for a download is visited by requests of its client: each of them
resumes it after `exec`, and it looks at the download and shows the progress, until the
download is done or failed. Between two visits anything may happen at the server.

A download that is done ends as its helper promises. For one that has failed the helper
raises `NameError`: the client gets no script, and the session stays stored with a handler
that is over.
-/

namespace UbootTftp

universe u
variable {κ : Type u}

/-- A request that resumes a handler: what happened before it, when it comes and what the server
knows of it. What is known is tied to the run by the predicate below. -/
structure Visit (κ : Type u) where
  before : List Event
  request : ContentRequest
  now : Nat
  schedule : Schedule
  client : ClientId
  parsed : ParsedPath
  session : ClientSession κ
  state : κ

namespace Visit

section Server

variable (server : DynamicContentServer κ) (files : FileTree) (visit : Visit κ)

/-- The state of the server that the request meets. -/
def world : World κ := server.after files visit.before

/-- What the request does. -/
def outcome : Outcome κ :=
  (visit.world server files).fetch server.provider visit.now visit.schedule visit.request

/-- The session that the handler sees. -/
def entered : ClientSession κ := visit.session.entered visit.parsed visit.state .inExec

/-- What the code of the handler starts from. -/
def handed : HandleState κ :=
  ⟨visit.entered, (visit.world server files).downloads, (visit.world server files).files⟩

/-- What the first call of the handler finds. -/
def found : HandleState κ :=
  (visit.handed server files).reports visit.now (visit.schedule.headD [])

/-- The request is accepted and resumes the handler in its state after `exec`. So the token is the
current one, the preflight is over and the handler waits for the end of a script. -/
structure Resumes : Prop where
  accepts : (visit.world server files).Accepts visit.request.filename visit.parsed visit.client
    visit.session
  enters : Enters server.provider visit.request visit.parsed visit.session visit.state .inExec
    .execReturned

/-- The request is answered with the compiled script and the command for the continuation. The token
in the command is the one that is drawn for it, and no keys are asked for. -/
def Continues (script : Text) : Prop :=
  ∃ command,
    continueCommand
      { visit.entered with
        currentToken := some (server.provider.host.token (visit.world server files).tokensDrawn) }
      none [] = .ok command ∧
    (visit.outcome server files).result = .ok (ContentResult.fromBytes
      (server.provider.host.compile
        (ensureNewline (Text.joinLines [Text.rstrip script, command]))))

/-- The request is answered with the compiled script alone. -/
def Finishes (script : Text) : Prop :=
  (visit.outcome server files).result = .ok (ContentResult.fromBytes
    (server.provider.host.compile (ensureNewline (Text.rstrip script))))

end Server

section Resumed

variable {server : DynamicContentServer κ} {files : FileTree} {visit : Visit κ}

/-- A request that resumes a handler runs it. The other ways in which the request could end need a
session whose preflight has failed, that has no handler or whose handler is over. -/
theorem Resumes.runs (resumes : visit.Resumes server files) :
    visit.outcome server files = (visit.world server files).runHandler server.provider visit.now
      visit.schedule visit.entered visit.state .execReturned := by
  have sound := after_sound server files visit.before
  have staged := (sound.sessions visit.client visit.session resumes.accepts.stored).staged
  rw [outcome, resumes.accepts.fetch server.provider visit.now visit.schedule]
  have continued := (visit.world server files).continue_cases server.provider visit.now
    visit.schedule visit.request visit.parsed visit.session staged
  generalize (visit.world server files).continueSession server.provider visit.now visit.schedule
    visit.request visit.parsed visit.session = outcome at continued ⊢
  cases continued with
  | unsupported pending unreported =>
    exact absurd (resumes.enters.preflight pending).2.2.1 unreported
  | uncreated raised pending reported refused =>
    cases refused.symm.trans (resumes.enters.preflight pending).2.2.2
  | unhandled passed missing => cases missing.symm.trans (resumes.enters.later passed).1
  | exhausted passed stopped => cases stopped.symm.trans (resumes.enters.later passed).1
  | ran state point resumption enters =>
    obtain ⟨rfl, rfl, rfl⟩ := resumes.enters.unique enters
    rfl

/-- A handler that suspends in `exec` without touching its session sends the lines, and the
command for the continuation. -/
theorem Resumes.continues (resumes : visit.Resumes server files)
    (base : Equipped server.provider.config.env) (lines : List Text) (left : HandleState κ)
    (next : κ) (kept : left.session = visit.entered)
    (built : ∃ script final keys, exec script final keys =
      .ok ⟨Text.joinLines lines, false, none, [], none⟩)
    (code : (server.provider.resume visit.state .execReturned).run server.provider.host visit.now
      visit.schedule (visit.handed server files) =
        (left, .awaited (.exec ⟨Text.joinLines lines, false, none, [], none⟩ built) next)) :
    visit.Continues server files (Text.joinLines lines) := by
  have equipped : Equipped visit.entered.env := continued_equipped visit.session visit.parsed
    (after_equipped server base files visit.before visit.client visit.session
      resumes.accepts.stored)
  obtain ⟨command, commanded⟩ := continue_command_ok
    { visit.entered with
      currentToken := some (server.provider.host.token (visit.world server files).tokensDrawn) }
    equipped _ rfl none []
  refine ⟨command, commanded, ?_⟩
  rw [resumes.runs]
  simp only [World.runHandler]
  rw [show (server.provider.resume visit.state .execReturned).run server.provider.host visit.now
    visit.schedule ⟨visit.entered, (visit.world server files).downloads,
      (visit.world server files).files⟩ = _ from code]
  simp only
  rw [instruction_sent _ _ _ _ _ _ rfl, kept]
  -- the command depends on none of what the suspension changes
  have same : continueCommand
      { visit.entered with
        handler := some (.suspended next .inExec)
        currentToken := some (server.provider.host.token (visit.world server files).tokensDrawn)
        phase := .awaitRrq } none [] = .ok command := commanded
  have sent : sentScript (server.provider.host.token (visit.world server files).tokensDrawn)
      ("__uboot_tftp_recv_".toList ++
        server.provider.host.hexToken (visit.world server files).namesDrawn)
      { visit.entered with handler := some (.suspended next .inExec) }
      ⟨Text.joinLines lines, false, none, [], none⟩ =
        .ok (Text.joinLines [Text.rstrip (Text.joinLines lines), command]) := by
    simp only [sentScript, appendContinue, Bool.false_eq_true, if_false, same]
    rfl
  simp only [Awaited.point]
  rw [sent]
  rfl

end Resumed

end Visit

namespace DownloadCall

/-- Whether the helper looks at the download when it is resumed. -/
def Waits : DownloadPoint → Prop
  | .cached => False
  | .announced => True
  | .polled artifact => artifact.state = .pending

section Polling

variable (call : DownloadCall) (server : DynamicContentServer κ) (files : FileTree)

/-- The visits of a handler that waits for a download, each with the artifact that it observes, up
to the first one that is no longer pending.

The visits are those of one handler at different points of one run or of several: nothing is said of
what happens between them. That the artifact is observed is part of the visit. -/
inductive Polls (embed : DownloadPoint → κ) :
    DownloadPoint → List (Visit κ × DownloadArtifact) → DownloadArtifact → Prop
  | ended (artifact : DownloadArtifact) (decided : artifact.state ≠ .pending) :
      Polls embed (.polled artifact) [] artifact
  | polled (point : DownloadPoint) (waits : Waits point) (visit : Visit κ)
      (artifact : DownloadArtifact) (rest : List (Visit κ × DownloadArtifact))
      (last : DownloadArtifact) (resumes : visit.Resumes server files)
      (placed : visit.state = embed point)
      (observes : (visit.found server files).getDownload call.url = .ok artifact)
      (later : Polls embed (.polled artifact) rest last) :
      Polls embed point ((visit, artifact) :: rest) last

/-- What a download owes to its client. Every visit sends the progress. A download that is done
returns what its destination holds. One that has failed ends the session with one more script, which
shows the error. -/
structure EndsCleanly (returns : Bytes → Code κ) (polls : List (Visit κ × DownloadArtifact))
    (last : DownloadArtifact) (final : Visit κ) : Prop where
  progress : ∀ entry ∈ polls, entry.1.Continues server files
    (Text.joinLines (OpenIpc.downloadProgressLines entry.2))
  done : last.state = .done → ∀ target body,
    resolveStaticPath server.provider.host ('/' :: call.filepath) = .ok (some target) →
    (final.found server files).files.contents target = some body →
    (server.provider.resume final.state .execReturned).run server.provider.host final.now
        final.schedule (final.handed server files) =
      (returns body).run server.provider.host final.now final.schedule.tail
        (final.found server files)
  failed : last.state = .failed →
    final.Finishes server files
      (ubootErr ("Download failed: ".toList ++ last.error.getD "None".toList)) ∧
    (∀ error, (final.outcome server files).resumed ≠ some (.execReturned, .raised error)) ∧
    (final.outcome server files).world.sessions.get final.client = none ∧
    ¬(final.outcome server files).world.downloads.Attached call.url final.client.text

end Polling

section Runs

variable {call : DownloadCall} {server : DynamicContentServer κ} {files : FileTree}
  {embed : DownloadPoint → κ} {returns : Bytes → Code κ}

/-- The polling ends at an artifact that is no longer pending. -/
theorem Polls.decided {point : DownloadPoint} {polls : List (Visit κ × DownloadArtifact)}
    {last : DownloadArtifact} (polled : call.Polls server files embed point polls last) :
    last.state ≠ .pending := by
  induction polled with
  | ended artifact decided => exact decided
  | polled point waits visit artifact rest last resumes placed observes later decided =>
    exact decided

/-- A helper that waits looks at the download. -/
theorem resume_waits (point : DownloadPoint) (waits : Waits point) :
    call.resume embed returns point = call.poll embed := by
  cases point with
  | cached => exact waits.elim
  | announced => rfl
  | polled artifact =>
    have pending : artifact.state = .pending := waits
    simp only [resume, afterPoll, pending]

/-- A visit that looks at the download sends its progress. The download may be at any state of its
own, since the message is sent before the state is looked at. -/
theorem visit_progress (base : Equipped server.provider.config.env)
    (calls : call.CalledBy server.provider embed returns) (point : DownloadPoint)
    (waits : Waits point) (visit : Visit κ) (artifact : DownloadArtifact)
    (resumes : visit.Resumes server files) (placed : visit.state = embed point)
    (observes : (visit.found server files).getDownload call.url = .ok artifact) :
    visit.Continues server files (Text.joinLines (OpenIpc.downloadProgressLines artifact)) := by
  obtain ⟨built, shown⟩ := poll_run embed call server.provider.host visit.now
    visit.schedule (visit.handed server files) artifact observes
  refine resumes.continues base _ (visit.found server files) (embed (.polled artifact)) ?_ built ?_
  · exact HandleState.reports_session visit.now (visit.handed server files) _
  · rw [placed, calls point, resume_waits point waits]
    exact shown

/-- Every visit of the polling sends the progress that it observes. The induction is on the polling,
from its last visit to its first. -/
theorem Polls.progress (base : Equipped server.provider.config.env)
    (calls : call.CalledBy server.provider embed returns) {point : DownloadPoint}
    {polls : List (Visit κ × DownloadArtifact)} {last : DownloadArtifact}
    (polled : call.Polls server files embed point polls last) :
    ∀ entry ∈ polls, entry.1.Continues server files
      (Text.joinLines (OpenIpc.downloadProgressLines entry.2)) := by
  induction polled with
  | ended artifact decided => simp
  | polled point waits visit artifact rest last resumes placed observes later sent =>
    intro entry member
    rcases List.mem_cons.mp member with rfl | later
    · exact visit_progress base calls point waits visit artifact resumes placed observes
    · exact sent entry later

/-- After a failed download the helper raises. -/
theorem failed_code (calls : call.CalledBy server.provider embed returns)
    (artifact : DownloadArtifact) (failed : artifact.state = .failed) :
    server.provider.resume (embed (.polled artifact)) .execReturned =
      .raise undefinedUbootErr := by
  rw [calls]
  simp only [resume, afterPoll, failed]

/-- The visit after a download has failed is answered with `NameError`, and the session stays with a
handler that is over. A later request of the client then finds a finished handler. -/
theorem failed_visit (calls : call.CalledBy server.provider embed returns)
    (artifact : DownloadArtifact) (failed : artifact.state = .failed) (visit : Visit κ)
    (resumes : visit.Resumes server files) (placed : visit.state = embed (.polled artifact)) :
    (visit.outcome server files).result = .error undefinedUbootErr ∧
      ((visit.outcome server files).world.sessions.get visit.client).map (·.handler) =
        some (some .finished) := by
  have code := failed_code calls artifact failed
  rw [← placed] at code
  constructor
  · rw [resumes.runs]
    simp only [World.runHandler, code, Code.run]
    exact congrArg Outcome.result (if_neg (by decide))
  · obtain ⟨left, codeEnd, run, -, stored⟩ := enters_settles (visit.world server files)
      server.provider visit.now visit.schedule visit.request
      (after_sound server files visit.before) resumes.accepts resumes.enters
    rw [code] at run
    cases run
    rw [Visit.outcome, stored]
    rfl

end Runs

end DownloadCall

/-- A download that a handler polls to its end ends as its client may expect exactly when it is
done: the branch for a failed one raises `NameError`.

The handler is arbitrary apart from the states in which it waits for the download, and the
configuration is one that the loader accepts. -/
theorem download_ends_iff (server : DynamicContentServer κ) (files : FileTree)
    (data : Dict Text TomlSection) (rootdir : Option Text)
    (loaded : loadDaemonConfig data rootdir = .ok server.provider.config) (call : DownloadCall)
    (embed : DownloadPoint → κ) (returns : Bytes → Code κ)
    (calls : call.CalledBy server.provider embed returns)
    (polls : List (Visit κ × DownloadArtifact)) (last : DownloadArtifact) (final : Visit κ)
    (polled : call.Polls server files embed .announced polls last)
    (resumes : final.Resumes server files) (placed : final.state = embed (.polled last)) :
    call.EndsCleanly server files returns polls last final ↔ last.state = .done := by
  constructor
  · intro clean
    cases state : last.state with
    | pending => exact absurd state polled.decided
    | done => rfl
    | failed =>
      have finishes := (clean.failed state).1
      have raised := (DownloadCall.failed_visit calls last state final resumes placed).1
      cases finishes.symm.trans raised
  · intro done
    have base : Equipped server.provider.config.env := loaded_env data rootdir _ loaded
    constructor
    case progress => exact polled.progress base calls
    case done =>
      intro _ target body resolved holds
      have code : server.provider.resume final.state .execReturned = call.returnFile returns := by
        rw [placed, calls]
        simp only [DownloadCall.resume, DownloadCall.afterPoll, done]
      rw [code]
      exact return_file_run call server.provider.host final.now final.schedule
        (final.handed server files) target body resolved holds
    case failed =>
      intro failed
      cases done.symm.trans failed

section Sample

/-- A download for the sample client. -/
def sampleDownload : DownloadCall := ⟨"u".toList, "f".toList, none, none, false⟩

/-- What is done with the contents of the download: they are copied. -/
def sampleCopy (body : Bytes) : Code (Option DownloadPoint) :=
  .writeFile "copy".toList body fun _ => .finish

/-- A server whose handler downloads the file and goes on with its contents. -/
def sampleDownloader : DynamicContentServer (Option DownloadPoint) where
  address := "::".toList
  port := 6969
  provider := ⟨sampleConfig, fun _ => .async fun _ => none, fun state resumption =>
    match state, resumption with
    | none, _ => sampleDownload.start some fun _ => false
    | some point, .execReturned => sampleDownload.resume some sampleCopy point
    | some _, _ => .finish, sampleHost⟩

/-- The requests up to the announcement of the download. -/
def sampleAnnounced : List Event :=
  [.readRequest (sampleRequest "id=cam") 0 [],
    .readRequest (sampleRequest "id=cam/token=t/hush_shell=true") 0 []]

/-- A continuation of the sample client. -/
def sampleToken (token : String) : ParsedPath where
  raw := "id=cam/token=".toList ++ token.toList
  clientId := some sampleClient
  path := "/token=".toList ++ token.toList
  segments := ["token=".toList ++ token.toList]
  values := Dict.ofList [("token".toList, token.toList)]

/-- The next visit of the sample client, which holds this token. Its session is looked up in the run
before it, so it fits whatever the run has stored. -/
def sampleVisit (before : List Event) (token : String) (schedule : Schedule)
    (point : DownloadPoint) : Visit (Option DownloadPoint) where
  before := before
  request := sampleRequest ("id=cam/token=" ++ token)
  now := 0
  schedule := schedule
  client := sampleClient
  parsed := sampleToken token
  session := ((sampleDownloader.after Dict.empty before).sessions.get sampleClient).getD
    (ClientSession.create sampleClient)
  state := some point

/-- The copy of the sample artifact that a visit sees. -/
def sampleArtifact (state : ArtifactState) (error : Option Text) : DownloadArtifact :=
  ⟨"u".toList, "u".toList, "f".toList, ["srv".toList, "f".toList], state, 0, none, error, 1, 0,
    0⟩

/-- The events before the second visit. -/
def samplePending : List Event :=
  sampleAnnounced ++ [.readRequest (sampleRequest "id=cam/token=tt") 0 []]

/-- The visits that see the download pending and then what its thread reports. -/
def samplePolls (reports : List ThreadEvent) (last : DownloadArtifact) :
    List (Visit (Option DownloadPoint) × DownloadArtifact) :=
  [(sampleVisit sampleAnnounced "tt" [] .announced, sampleArtifact .pending none),
    (sampleVisit samplePending "ttt" [reports] (.polled (sampleArtifact .pending none)), last)]

/-- The visit after these. -/
def sampleFinal (reports : List ThreadEvent) (last : DownloadArtifact) : Visit (Option DownloadPoint) :=
  sampleVisit (samplePending ++ [.readRequest (sampleRequest "id=cam/token=ttt") 0 [reports]])
    "tttt" [] (.polled last)

/-- A sample visit resumes the handler of a session in the state that it names. What the session has
to hold is compared by evaluation, so only the fields that count are asked for. -/
theorem sample_visit_resumes (before : List Event) (token : String) (schedule : Schedule)
    (point : DownloadPoint)
    (parse : parseRequestPath (sampleRequest ("id=cam/token=" ++ token)).filename =
      .ok (sampleToken token))
    (stored : ((sampleDownloader.after Dict.empty before).sessions.get sampleClient).map
      (fun session => (session.currentToken, session.preflightPending, session.handler)) =
        some (some token.toList, false, some (.suspended (some point) .inExec))) :
    (sampleVisit before token schedule point).Resumes sampleDownloader Dict.empty := by
  obtain ⟨session, held, same⟩ := Option.map_eq_some_iff.mp stored
  simp only [Prod.mk.injEq] at same
  obtain ⟨current, passed, handled⟩ := same
  have shape : (sampleVisit before token schedule point).session = session := by
    simp only [sampleVisit, held, Option.getD_some]
  constructor
  case accepts =>
    rw [shape]
    exact ⟨parse, rfl, rfl, held, current.symm⟩
  case enters =>
    rw [shape]
    exact .resumed (some point) .inExec passed handled

/-- The sample visits poll the download until it is what the second one sees. The first visit finds
the download pending and waits, the second one finds it as it is given here. -/
theorem sample_polls (reports : List ThreadEvent) (last : DownloadArtifact)
    (decided : last.state ≠ .pending)
    (observes : ((sampleVisit samplePending "ttt" [reports]
      (.polled (sampleArtifact .pending none))).found sampleDownloader Dict.empty).getDownload
        sampleDownload.url = .ok last) :
    sampleDownload.Polls sampleDownloader Dict.empty some .announced (samplePolls reports last)
      last := by
  have first := sample_visit_resumes sampleAnnounced "tt" [] .announced (by decide +kernel)
    (by decide +kernel)
  have second := sample_visit_resumes samplePending "ttt" [reports]
    (.polled (sampleArtifact .pending none)) (by decide +kernel) (by decide +kernel)
  have ended : sampleDownload.Polls sampleDownloader Dict.empty some (.polled last) [] last :=
    .ended last decided
  have polled : sampleDownload.Polls sampleDownloader Dict.empty some
      (.polled (sampleArtifact .pending none)) _ last :=
    .polled (.polled (sampleArtifact .pending none)) rfl _ last [] last second rfl observes ended
  exact .polled .announced trivial _ (sampleArtifact .pending none) _ last first rfl
    (by decide +kernel) polled

/-- The bytes that the sample thread downloads, and its reports until they are at the
destination. -/
def sampleReports : List ThreadEvent :=
  [.makeParents ["srv".toList, "f".toList],
    .replaceFile ["srv".toList, "f".toList] [1, 2, 3], .markDone "u".toList]

/-- A download that is done ends cleanly: the handler goes on with the bytes that the thread has
put at the destination. -/
theorem done_download_ends :
    let final := sampleFinal sampleReports (sampleArtifact .done none)
    let resumed := (sampleDownloader.provider.resume final.state .execReturned).run
      sampleHost final.now final.schedule (final.handed sampleDownloader Dict.empty)
    sampleDownload.EndsCleanly sampleDownloader Dict.empty sampleCopy
        (samplePolls sampleReports (sampleArtifact .done none))
        (sampleArtifact .done none) final ∧
      resumed.1.files.contents ["srv".toList, "copy".toList] = some [1, 2, 3] := by
  intro final resumed
  have clean : sampleDownload.EndsCleanly sampleDownloader Dict.empty sampleCopy
      (samplePolls sampleReports (sampleArtifact .done none))
      (sampleArtifact .done none) final :=
    (download_ends_iff sampleDownloader Dict.empty sampleFile none sample_loaded
      sampleDownload some sampleCopy (fun _ => rfl) _ _ _
      (sample_polls _ _ (by decide) (by decide +kernel))
      (sample_visit_resumes _ _ _ _ (by decide +kernel) (by decide +kernel)) rfl).mpr rfl
  refine ⟨clean, ?_⟩
  have returned := clean.done rfl ["srv".toList, "f".toList] [1, 2, 3] (by decide +kernel)
    (by decide +kernel)
  have same : resumed = _ := returned
  rw [same]
  decide +kernel

/-- A download that fails after one visit ends with an exception instead of the message. The handler
names an exception that its module does not import, so the line that should show the message raises
before it shows anything. -/
theorem failed_download_raises :
    ¬∀ polls last final,
      sampleDownload.Polls sampleDownloader Dict.empty some .announced polls last →
      final.Resumes sampleDownloader Dict.empty →
      final.state = some (.polled last) →
      sampleDownload.EndsCleanly sampleDownloader Dict.empty sampleCopy polls last final := by
  intro clean
  have resumes : (sampleFinal [.markFailed "u".toList "gone".toList]
      (sampleArtifact .failed (some "gone".toList))).Resumes sampleDownloader
        Dict.empty :=
    sample_visit_resumes _ _ _ _ (by decide +kernel) (by decide +kernel)
  have finishes := ((clean _ _ _ (sample_polls
    [.markFailed "u".toList "gone".toList] (sampleArtifact .failed (some "gone".toList)) (by decide)
    (by decide +kernel)) resumes rfl).failed rfl).1
  have calls : sampleDownload.CalledBy sampleDownloader.provider some sampleCopy := fun _ => rfl
  have raised := (DownloadCall.failed_visit calls (sampleArtifact .failed (some "gone".toList))
    rfl _ resumes rfl).1
  cases finishes.symm.trans raised

end Sample

end UbootTftp
