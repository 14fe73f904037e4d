import UbootTftp.DownloadJobs
import UbootTftp.Runs

/-!
# Download threads

A first acquire starts the thread of its artifact. The thread takes its request from the
entry, lets the downloader write the temporary file, moves that file to the destination and
records the outcome. Between any two of these steps sessions may acquire, look at and release
artifacts, other threads may run, and a downloader may report progress even after it returned.

A step that a thread cannot take where it stands does nothing, so every list of events is an
interleaving.
-/

namespace UbootTftp

/-- What a thread takes from the entry of its artifact. It is copied out under the lock, so a later
change of the entry does not concern the thread. -/
structure DownloadRequest where
  artifactKey : Text
  url : Text
  finalPath : Path
  tempPath : Path
  pageUrl : Option Text
  headers : Dict Text Text
  deriving DecidableEq

/-- The request of an entry. -/
def ArtifactEntry.request (entry : ArtifactEntry) : DownloadRequest :=
  ⟨entry.artifactKey, entry.url, entry.finalPath, entry.tempPath, entry.pageUrl, entry.headers⟩

/-- How far `_run_download` has come, with the bytes that its downloader has written. The last two
steps of a thread that failed are to record the error and to remove the temporary file. -/
inductive ThreadPhase
  | created
  | downloading (request : DownloadRequest) (written : Option Bytes)
  | returned (request : DownloadRequest) (written : Option Bytes)
  | replaced (request : DownloadRequest) (written : Option Bytes)
  | done (request : DownloadRequest) (written : Option Bytes)
  | raised (request : DownloadRequest) (error : Text)
  | failed (request : DownloadRequest)
  | unlinked
  deriving DecidableEq

/-- The state that the thread has recorded in its entry. The temporary file is removed only after a
failure has been recorded. -/
def ThreadPhase.recorded : ThreadPhase → ArtifactState
  | .done _ _ => .done
  | .failed _ => .failed
  | .unlinked => .failed
  | _ => .pending

/-- The store with its threads, the artifacts whose threads were started, in order, and the
files. -/
structure Downloads where
  store : DownloadJobStore
  threads : Dict Text ThreadPhase
  started : List Text
  files : FileTree

/-- The calls of sessions and the steps of threads. How a downloader reads from the network is left
out; what counts is what it leaves in the file. Any list of events is a run. -/
inductive DownloadEvent
  | acquire (now : Nat) (call : AcquireCall)
  | get (artifactKey : Text)
  | release (now : Nat) (artifactKey sessionId : Text)
  /-- The thread takes its request under the lock. -/
  | takeRequest (artifactKey : Text)
  | updateProgress (now : Nat) (artifactKey : Text) (bytesDone : Nat) (bytesTotal : Option Nat)
  /-- The downloader leaves these bytes in the temporary file. -/
  | writeTemp (artifactKey : Text) (body : Bytes)
  | downloaderReturns (artifactKey : Text)
  | replaceTemp (artifactKey : Text)
  /-- A directory cannot be created, the downloader raises or the file cannot be moved. -/
  | raises (artifactKey error : Text)
  | markDone (now : Nat) (artifactKey : Text)
  | markFailed (now : Nat) (artifactKey : Text)
  | unlinkTemp (artifactKey : Text)

namespace Downloads

/-- Nothing acquired yet. -/
def initial (files : FileTree) : Downloads := ⟨Dict.empty, Dict.empty, [], files⟩

/-- The thread of an artifact goes on. -/
def goOn (state : Downloads) (artifactKey : Text) (phase : ThreadPhase) : Downloads :=
  { state with threads := state.threads.set artifactKey phase }

/-- One call of a session or one step of a thread. An event of a thread that is not in the phase for
it leaves everything as it is. -/
def step (host : Host) (state : Downloads) : DownloadEvent → Downloads
  | .acquire now call =>
    let store := (state.store.acquire host now call).1
    match state.store.get call.artifactKey with
    | none =>
      { state with
        store := store
        threads := state.threads.set call.artifactKey .created
        started := state.started ++ [call.artifactKey] }
    | some _ => { state with store := store }
  | .get _ => state
  | .release now artifactKey sessionId =>
    { state with store := state.store.release now artifactKey sessionId }
  | .takeRequest artifactKey =>
    match state.threads.get artifactKey, state.store.get artifactKey with
    | some .created, some entry => state.goOn artifactKey (.downloading entry.request none)
    | _, _ => state
  | .updateProgress now artifactKey bytesDone bytesTotal =>
    match state.threads.get artifactKey with
    | none => state
    | some .created => state
    | some _ =>
      { state with
        store := state.store.report now (.updateProgress artifactKey bytesDone bytesTotal) }
  | .writeTemp artifactKey body =>
    match state.threads.get artifactKey with
    | some (.downloading request _) =>
      { state.goOn artifactKey (.downloading request (some body)) with
        files := state.files.set request.tempPath (.file body) }
    | _ => state
  | .downloaderReturns artifactKey =>
    match state.threads.get artifactKey with
    | some (.downloading request written) => state.goOn artifactKey (.returned request written)
    | _ => state
  | .replaceTemp artifactKey =>
    match state.threads.get artifactKey with
    | some (.returned request written) =>
      match state.files.get request.tempPath with
      | some (.file body) =>
        { state.goOn artifactKey (.replaced request written) with
          files := (state.files.erase request.tempPath).set request.finalPath (.file body) }
      | _ => state
    | _ => state
  | .raises artifactKey error =>
    match state.threads.get artifactKey with
    | some (.downloading request _) => state.goOn artifactKey (.raised request error)
    | some (.returned request _) => state.goOn artifactKey (.raised request error)
    | _ => state
  | .markDone now artifactKey =>
    match state.threads.get artifactKey with
    | some (.replaced request written) =>
      { state.goOn artifactKey (.done request written) with
        store := state.store.report now (.markDone artifactKey) }
    | _ => state
  | .markFailed now artifactKey =>
    match state.threads.get artifactKey with
    | some (.raised request error) =>
      { state.goOn artifactKey (.failed request) with
        store := state.store.report now (.markFailed artifactKey error) }
    | _ => state
  | .unlinkTemp artifactKey =>
    match state.threads.get artifactKey with
    | some (.failed request) =>
      { state.goOn artifactKey .unlinked with files := state.files.erase request.tempPath }
    | _ => state

/-- The state after a sequence of calls and steps. -/
def after (host : Host) (files : FileTree) (events : List DownloadEvent) : Downloads :=
  Runs.run (step host) (initial files) events

/-- What a call or step does. There is a constructor for each event with the phase that it needs,
and one for all events that change nothing; these are neither an acquire nor a release. -/
inductive Stepped (host : Host) (state : Downloads) : DownloadEvent → Downloads → Prop
  | idle (event : DownloadEvent)
      (noAcquire : ∀ now call, event = .acquire now call → False)
      (noRelease : ∀ now artifactKey sessionId, event = .release now artifactKey sessionId → False) :
      Stepped host state event state
  | opened (now : Nat) (call : AcquireCall) (absent : state.store.get call.artifactKey = none) :
      Stepped host state (.acquire now call)
        { state with
          store := (state.store.acquire host now call).1
          threads := state.threads.set call.artifactKey .created
          started := state.started ++ [call.artifactKey] }
  | repeated (now : Nat) (call : AcquireCall) (entry : ArtifactEntry)
      (stored : state.store.get call.artifactKey = some entry) :
      Stepped host state (.acquire now call)
        { state with store := (state.store.acquire host now call).1 }
  | released (now : Nat) (artifactKey sessionId : Text) :
      Stepped host state (.release now artifactKey sessionId)
        { state with store := state.store.release now artifactKey sessionId }
  | took (artifactKey : Text) (entry : ArtifactEntry)
      (running : state.threads.get artifactKey = some .created)
      (stored : state.store.get artifactKey = some entry) :
      Stepped host state (.takeRequest artifactKey)
        (state.goOn artifactKey (.downloading entry.request none))
  | progressed (now : Nat) (artifactKey : Text) (bytesDone : Nat) (bytesTotal : Option Nat) :
      Stepped host state (.updateProgress now artifactKey bytesDone bytesTotal)
        { state with
          store := state.store.report now (.updateProgress artifactKey bytesDone bytesTotal) }
  | wrote (artifactKey : Text) (body : Bytes) (request : DownloadRequest) (written : Option Bytes)
      (running : state.threads.get artifactKey = some (.downloading request written)) :
      Stepped host state (.writeTemp artifactKey body)
        { state.goOn artifactKey (.downloading request (some body)) with
          files := state.files.set request.tempPath (.file body) }
  | returned (artifactKey : Text) (request : DownloadRequest) (written : Option Bytes)
      (running : state.threads.get artifactKey = some (.downloading request written)) :
      Stepped host state (.downloaderReturns artifactKey)
        (state.goOn artifactKey (.returned request written))
  | replaced (artifactKey : Text) (request : DownloadRequest) (written : Option Bytes)
      (body : Bytes) (running : state.threads.get artifactKey = some (.returned request written))
      (stands : state.files.get request.tempPath = some (.file body)) :
      Stepped host state (.replaceTemp artifactKey)
        { state.goOn artifactKey (.replaced request written) with
          files := (state.files.erase request.tempPath).set request.finalPath (.file body) }
  | raised (artifactKey error : Text) (request : DownloadRequest) (written : Option Bytes)
      (running : state.threads.get artifactKey = some (.downloading request written) ∨
        state.threads.get artifactKey = some (.returned request written)) :
      Stepped host state (.raises artifactKey error)
        (state.goOn artifactKey (.raised request error))
  | markedDone (now : Nat) (artifactKey : Text) (request : DownloadRequest)
      (written : Option Bytes)
      (running : state.threads.get artifactKey = some (.replaced request written)) :
      Stepped host state (.markDone now artifactKey)
        { state.goOn artifactKey (.done request written) with
          store := state.store.report now (.markDone artifactKey) }
  | markedFailed (now : Nat) (artifactKey : Text) (request : DownloadRequest) (error : Text)
      (running : state.threads.get artifactKey = some (.raised request error)) :
      Stepped host state (.markFailed now artifactKey)
        { state.goOn artifactKey (.failed request) with
          store := state.store.report now (.markFailed artifactKey error) }
  | unlinked (artifactKey : Text) (request : DownloadRequest)
      (running : state.threads.get artifactKey = some (.failed request)) :
      Stepped host state (.unlinkTemp artifactKey)
        { state.goOn artifactKey .unlinked with files := state.files.erase request.tempPath }

/-- A call or step does one of these. Results about a step are proved by cases on this relation, so
that none of them looks into `step` again. -/
theorem step_cases (host : Host) (state : Downloads) (event : DownloadEvent) :
    Stepped host state event (step host state event) := by
  have idle (noAcquire : ∀ now call, event = .acquire now call → False)
      (noRelease : ∀ now artifactKey sessionId, event = .release now artifactKey sessionId → False) :
      Stepped host state event state := .idle event noAcquire noRelease
  cases event with
  | acquire now call =>
    simp only [step]
    cases stored : state.store.get call.artifactKey with
    | none => exact .opened now call stored
    | some entry => exact .repeated now call entry stored
  | get artifactKey => exact idle (by simp) (by simp)
  | release now artifactKey sessionId => exact .released now artifactKey sessionId
  | takeRequest artifactKey =>
    simp only [step]
    split
    · rename_i entry running stored
      exact .took artifactKey entry running stored
    · exact idle (by simp) (by simp)
  | updateProgress now artifactKey bytesDone bytesTotal =>
    simp only [step]
    split
    · exact idle (by simp) (by simp)
    · exact idle (by simp) (by simp)
    · exact .progressed now artifactKey bytesDone bytesTotal
  | writeTemp artifactKey body =>
    simp only [step]
    split
    · rename_i request written running
      exact .wrote artifactKey body request written running
    · exact idle (by simp) (by simp)
  | downloaderReturns artifactKey =>
    simp only [step]
    split
    · rename_i request written running
      exact .returned artifactKey request written running
    · exact idle (by simp) (by simp)
  | replaceTemp artifactKey =>
    simp only [step]
    split
    · rename_i request written running
      split
      · rename_i body stands
        exact .replaced artifactKey request written body running stands
      · exact idle (by simp) (by simp)
    · exact idle (by simp) (by simp)
  | raises artifactKey error =>
    simp only [step]
    split
    · rename_i request written running
      exact .raised artifactKey error request written (.inl running)
    · rename_i request written running
      exact .raised artifactKey error request written (.inr running)
    · exact idle (by simp) (by simp)
  | markDone now artifactKey =>
    simp only [step]
    split
    · rename_i request written running
      exact .markedDone now artifactKey request written running
    · exact idle (by simp) (by simp)
  | markFailed now artifactKey =>
    simp only [step]
    split
    · rename_i request error running
      exact .markedFailed now artifactKey request error running
    · exact idle (by simp) (by simp)
  | unlinkTemp artifactKey =>
    simp only [step]
    split
    · rename_i request running
      exact .unlinked artifactKey request running
    · exact idle (by simp) (by simp)

end Downloads

end UbootTftp
