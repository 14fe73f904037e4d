import UbootTftp.Files

/-!
# Shared download jobs

The store keeps one entry for each artifact key. Sessions attach to an entry and
are detached from it; the thread that an entry's first acquire starts reports
progress and the outcome. Each method runs under the store's lock, so it is one
step here.
-/

namespace UbootTftp

/-- A set of texts, iterated in insertion order. Python's sets promise no order; the one loop of the
source over such a set releases its artifacts, where the order does not show. -/
abbrev TextSet := Dict Text Unit

/-- Whether a text is in the set. -/
def TextSet.Has (set : TextSet) (text : Text) : Prop := set.get text = some ()

instance (set : TextSet) (text : Text) : Decidable (set.Has text) :=
  inferInstanceAs (Decidable (set.get text = some ()))

/-- What has become of a download. The state of a failed or finished one never changes again; that
is a theorem about runs and not a part of the type. -/
inductive ArtifactState
  | pending
  | done
  | failed
  deriving DecidableEq

/-- The copy of an entry that callers see. It does not change with the entry: a handler that waits
for a download has to ask for a new one. -/
structure DownloadArtifact where
  artifactKey : Text
  url : Text
  relativePath : Text
  finalPath : Path
  state : ArtifactState
  bytesDone : Nat
  bytesTotal : Option Nat
  error : Option Text
  refCount : Nat
  createdAt : Nat
  updatedAt : Nat
  deriving DecidableEq

/-- One artifact of the store: what its first acquire asked for, how far its thread has come, and
the sessions that are attached to it. -/
structure ArtifactEntry where
  artifactKey : Text
  url : Text
  relativePath : Text
  finalPath : Path
  tempPath : Path
  pageUrl : Option Text
  headers : Dict Text Text
  state : ArtifactState
  bytesDone : Nat
  bytesTotal : Option Nat
  error : Option Text
  createdAt : Nat
  updatedAt : Nat
  attachedSessions : TextSet
  deriving DecidableEq

/-- The copy for a caller, with the number of attached sessions in the place of their names. A
caller that changes it changes nothing in the store. -/
def ArtifactEntry.snapshot (entry : ArtifactEntry) : DownloadArtifact where
  artifactKey := entry.artifactKey
  url := entry.url
  relativePath := entry.relativePath
  finalPath := entry.finalPath
  state := entry.state
  bytesDone := entry.bytesDone
  bytesTotal := entry.bytesTotal
  error := entry.error
  refCount := entry.attachedSessions.entries.length
  createdAt := entry.createdAt
  updatedAt := entry.updatedAt

/-- The artifacts by key. An entry is never removed: a released artifact stays in the store, with no
session attached. -/
abbrev DownloadJobStore := Dict Text ArtifactEntry

/-- The arguments of an acquire. The destination comes twice, as it was given and as the path that
it is resolved to. -/
structure AcquireCall where
  artifactKey : Text
  sessionId : Text
  url : Text
  relativePath : Text
  finalPath : Path
  pageUrl : Option Text
  headers : Option (Dict Text Text)

/-- The reports of a download thread: the store's three callbacks, the directories that it makes for
its files, and the move of its finished temporary file to the destination. A thread can fail between
any two of them, so the move may come without the report that follows it. -/
inductive ThreadEvent
  | updateProgress (artifactKey : Text) (bytesDone : Nat) (bytesTotal : Option Nat)
  | markDone (artifactKey : Text)
  | markFailed (artifactKey : Text) (error : Text)
  | makeParents (path : Path)
  | replaceFile (path : Path) (body : Bytes)

/-- The files after a report. Only the directories and the moved file are visible to others; the
temporary file has a name of its own under the root and is left out. -/
def ThreadEvent.applied (files : FileTree) : ThreadEvent → FileTree
  | .makeParents path => files.withParents path
  | .replaceFile path body => files.set path (.file body)
  | _ => files

namespace DownloadJobStore

/-- The temporary file of an artifact, in the directory `.downloads`. -/
def tempPathFor (host : Host) (artifactKey filename : Text) : Path :=
  host.staticRoot ++
    [".downloads".toList, host.digest artifactKey ++ '-' :: filename ++ ".part".toList]

/-- The first attribute of an entry that a repeated acquire contradicts, in the order in which they
are compared. Headers are compared as dictionaries, so their order does not matter. -/
def validateEntry (entry : ArtifactEntry) (call : AcquireCall) : Option Conflict :=
  if entry.url ≠ call.url then some .url
  else if entry.relativePath ≠ call.relativePath then some .relativePath
  else if entry.finalPath ≠ call.finalPath then some .destination
  else if entry.pageUrl ≠ call.pageUrl then some .pageUrl
  else if ¬ entry.headers.agree (call.headers.getD Dict.empty) then some .headers
  else none

/-- Attach a session to an entry; one that is attached already stays where it is in the order. -/
def attach (entry : ArtifactEntry) (sessionId : Text) (now : Nat) : ArtifactEntry :=
  { entry with attachedSessions := entry.attachedSessions.set sessionId (), updatedAt := now }

/-- Attach a session to an artifact. The first acquire of a key creates its entry and starts its
thread; a later one must repeat the attributes of the first and starts nothing, whatever has become
of the download. -/
def acquire (store : DownloadJobStore) (host : Host) (now : Nat) (call : AcquireCall) :
    DownloadJobStore × Except Raised DownloadArtifact :=
  match store.get call.artifactKey with
  | none =>
    let entry : ArtifactEntry :=
      { artifactKey := call.artifactKey, url := call.url, relativePath := call.relativePath,
        finalPath := call.finalPath,
        tempPath := tempPathFor host call.artifactKey (call.finalPath.getLastD []),
        pageUrl := call.pageUrl, headers := call.headers.getD Dict.empty,
        state := .pending, bytesDone := 0, bytesTotal := none, error := none,
        createdAt := now, updatedAt := now, attachedSessions := Dict.empty }
    let entry := attach entry call.sessionId now
    (store.set call.artifactKey entry, .ok entry.snapshot)
  | some entry =>
    match validateEntry entry call with
    | some conflict => (store, .error (.artifactConflict call.artifactKey conflict))
    | none =>
      let entry := attach entry call.sessionId now
      (store.set call.artifactKey entry, .ok entry.snapshot)

/-- Change an entry in place; an unknown key is ignored. The order of the entries stays, since the
key is not a new one. -/
def amend (store : DownloadJobStore) (artifactKey : Text)
    (change : ArtifactEntry → ArtifactEntry) : DownloadJobStore :=
  match store.get artifactKey with
  | none => store
  | some entry => store.set artifactKey (change entry)

/-- Detach a session from an artifact. -/
def release (store : DownloadJobStore) (now : Nat) (artifactKey sessionId : Text) :
    DownloadJobStore :=
  store.amend artifactKey fun entry =>
    { entry with attachedSessions := entry.attachedSessions.erase sessionId, updatedAt := now }

/-- One report of a download thread. The three callbacks change the entry of their own key and
nothing else; what a thread does to the files leaves the store as it is. -/
def report (store : DownloadJobStore) (now : Nat) : ThreadEvent → DownloadJobStore
  | .updateProgress artifactKey bytesDone bytesTotal =>
    store.amend artifactKey fun entry =>
      { entry with bytesDone := bytesDone, bytesTotal := bytesTotal, updatedAt := now }
  | .markDone artifactKey =>
    store.amend artifactKey fun entry => { entry with state := .done, updatedAt := now }
  | .markFailed artifactKey error =>
    store.amend artifactKey fun entry =>
      { entry with state := .failed, error := some error, updatedAt := now }
  | .makeParents _ | .replaceFile _ _ => store

/-- Whether a session is attached to an artifact. The laws below say what each operation does to
this relation, which is all that the results about reference counts need. -/
def Attached (store : DownloadJobStore) (artifactKey sessionId : Text) : Prop :=
  ∃ entry, store.get artifactKey = some entry ∧ entry.attachedSessions.Has sessionId

/-- An amendment is seen under its own key only. -/
theorem get_amend (store : DownloadJobStore) (artifactKey key : Text)
    (change : ArtifactEntry → ArtifactEntry) :
    (store.amend artifactKey change).get key =
      if key = artifactKey then (store.get key).map change else store.get key := by
  unfold amend
  by_cases here : key = artifactKey
  · subst here
    cases stored : store.get key <;> simp [stored]
  · cases store.get artifactKey <;> simp [here]

/-- An amendment that keeps the attached sessions changes no attachment. -/
theorem amend_attached (store : DownloadJobStore) (artifactKey key session : Text)
    (change : ArtifactEntry → ArtifactEntry)
    (kept : ∀ entry, (change entry).attachedSessions = entry.attachedSessions) :
    (store.amend artifactKey change).Attached key session ↔ store.Attached key session := by
  unfold Attached
  rw [get_amend]
  by_cases here : key = artifactKey
  · cases stored : store.get key <;> simp [here, kept]
  · simp [here]

/-- Releasing an artifact detaches the named session from it and leaves every
other attachment. -/
theorem release_attached (store : DownloadJobStore) (now : Nat)
    (artifactKey sessionId key session : Text) :
    (release store now artifactKey sessionId).Attached key session ↔
      store.Attached key session ∧ ¬(key = artifactKey ∧ session = sessionId) := by
  unfold release Attached
  rw [get_amend]
  by_cases here : key = artifactKey
  · by_cases same : session = sessionId <;>
      cases stored : store.get key <;> simp [here, same, TextSet.Has]
  · simp [here]

/-- Thread reports change no attachment. -/
@[simp] theorem report_attached (store : DownloadJobStore) (now : Nat) (event : ThreadEvent)
    (key session : Text) :
    (report store now event).Attached key session ↔ store.Attached key session := by
  cases event with
  | updateProgress artifactKey bytesDone bytesTotal => exact amend_attached _ _ _ _ _ fun _ => rfl
  | markDone artifactKey => exact amend_attached _ _ _ _ _ fun _ => rfl
  | markFailed artifactKey error => exact amend_attached _ _ _ _ _ fun _ => rfl
  | makeParents path => exact Iff.rfl
  | replaceFile path body => exact Iff.rfl

/-- An acquire attaches at most its own session to its own artifact, and a failed
one attaches nothing. -/
theorem acquire_attached (store : DownloadJobStore) (host : Host) (now : Nat) (call : AcquireCall)
    (key session : Text) :
    (acquire store host now call).1.Attached key session ↔
      store.Attached key session ∨
        ((acquire store host now call).2.isOk = true ∧
          key = call.artifactKey ∧ session = call.sessionId) := by
  unfold acquire Attached
  cases stored : store.get call.artifactKey with
  | none =>
    by_cases here : key = call.artifactKey
    · subst here
      simp [stored, attach, TextSet.Has, Except.isOk, Except.toBool, Dict.get_set]
    · simp [here]
  | some entry =>
    simp only
    cases validateEntry entry call with
    | some conflict => simp [Except.isOk, Except.toBool]
    | none =>
      by_cases here : key = call.artifactKey
      · by_cases same : session = call.sessionId <;>
          simp [here, same, stored, attach, TextSet.Has, Except.isOk, Except.toBool]
      · simp [here]

end DownloadJobStore

end UbootTftp
