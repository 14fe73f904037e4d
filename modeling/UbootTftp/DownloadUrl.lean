import UbootTftp.InstallScripts

/-!
# Downloading a file for a handler

`uboot_download_url` acquires a download, looks at its state in every round and shows the
client the progress. It returns the file when the download is done. The branches for an
address that cannot be parsed and for a failed download build their messages with a function
that the module does not import.

The helper runs inside of a handler, whose states are its own. A handler that calls it has
states which stand for the points of `DownloadPoint` and code that goes on with the file.
-/

namespace UbootTftp

universe u
variable {κ : Type u}

/-- The arguments of `uboot_download_url`. The destination is a name below the static root, and the
URL is the key of the artifact. -/
structure DownloadCall where
  url : Text
  filepath : Text
  pageUrl : Option Text
  headers : Option (Dict Text Text)
  cache : Bool
  deriving DecidableEq

/-- Where the helper is suspended. The last one keeps what was seen of the artifact, since the code
decides by it when it goes on. -/
inductive DownloadPoint
  | cached
  | announced
  | polled (artifact : DownloadArtifact)
  deriving DecidableEq

/-- The exception of a call of `uboot_err`, which `ubootops` does not import. -/
def undefinedUbootErr : Raised :=
  .byHandler (.other "NameError".toList) "name 'uboot_err' is not defined".toList

namespace DownloadCall

section Code

variable (embed : DownloadPoint → κ) (returns : Bytes → Code κ) (call : DownloadCall)

/-- `return tftp.read_file(filepath)`. -/
def returnFile : Code κ :=
  .readFile call.filepath fun read => Code.attempt read returns

/-- The helper from the check of the addresses to its first suspension. An empty address of the page
is not looked at. What `urlparse` refuses is a parameter here. -/
def acquire (unparsable : Text → Bool) : Code κ :=
  if unparsable call.url || call.pageUrl.any (fun page => page ≠ [] && unparsable page) then
    .raise undefinedUbootErr
  else
    .acquireDownload call.url call.url call.filepath call.pageUrl call.headers fun acquired =>
      Code.attempt acquired fun _ =>
        Code.execute [OpenIpc.openMessage ("Downloading ".toList ++ call.filepath ++ ": ".toList)]
          false [] (embed .announced)

/-- `uboot_download_url` up to its first suspension. With the cache and a file under the name
nothing is downloaded; otherwise the artifact is acquired and announced. -/
def start (unparsable : Text → Bool) : Code κ :=
  if call.cache then
    .fileExists call.filepath fun found =>
      Code.attempt found fun found =>
        if found then
          Code.execute
            [OpenIpc.boldMessage ("Using cached download: ".toList ++ call.filepath)] false []
            (embed .cached)
        else call.acquire embed unparsable
  else call.acquire embed unparsable

/-- One turn of the loop, up to its suspension. -/
def poll : Code κ :=
  .getDownload call.url fun polled =>
    Code.attempt polled fun artifact =>
      Code.execute (OpenIpc.downloadProgressLines artifact) false [] (embed (.polled artifact))

/-- The rest of a turn. A failed download should show a message here, but the name of the function
that shows it is not imported, so a `NameError` is raised. -/
def afterPoll (artifact : DownloadArtifact) : Code κ :=
  match artifact.state with
  | .done => call.returnFile returns
  | .failed => .raise undefinedUbootErr
  | .pending => call.poll embed

/-- The helper from a suspension on. -/
def resume : DownloadPoint → Code κ
  | .cached => call.returnFile returns
  | .announced => call.poll embed
  | .polled artifact => call.afterPoll embed returns artifact

end Code

/-- With addresses that can all be parsed the helper acquires the download. -/
theorem acquire_parsable (embed : DownloadPoint → κ) (call : DownloadCall) :
    call.acquire embed (fun _ => false) =
      .acquireDownload call.url call.url call.filepath call.pageUrl call.headers fun acquired =>
        Code.attempt acquired fun _ =>
          Code.execute [OpenIpc.openMessage ("Downloading ".toList ++ call.filepath ++ ": ".toList)]
            false [] (embed .announced) := by
  simp [acquire]

/-- A handler that calls the helper: the states that stand for its points run its code. The rest of
the handler is not constrained. -/
def CalledBy (call : DownloadCall) (provider : Provider κ) (embed : DownloadPoint → κ)
    (returns : Bytes → Code κ) : Prop :=
  ∀ point, provider.resume (embed point) .execReturned = call.resume embed returns point

end DownloadCall

namespace OpenIpc.Locals

variable (locals : Locals)

/-- The call with which the installer fetches the image. -/
def download : DownloadCall where
  url := locals.downloadUrl
  filepath := locals.imageName
  pageUrl := some locals.pageUrl
  headers := none
  cache := true

/-- The states of the installer during that call. -/
def downloadState : DownloadPoint → Point
  | .cached => .cached locals
  | .announced => .downloading locals
  | .polled artifact => .polled locals artifact.state

/-- What the installer does with the image. An empty one ends the handler without a script. -/
def useImage (binary : Bytes) : Code Point :=
  if binary = [] then .finish
  else
    Code.execute [openMessage "Extracting uboot env from image... ".toList] false []
      (.extracting locals binary)

end OpenIpc.Locals

/-- The installer is a handler that calls the helper, so that the results on polling are results
about it. -/
theorem install_downloads (config : DaemonConfig) (module : Text → EntryPoint OpenIpc.Point)
    (host : Host) (around : OpenIpc.Surroundings) (locals : OpenIpc.Locals) :
    OpenIpc.downloadImage locals =
        locals.download.start locals.downloadState (fun _ => false) ∧
      locals.download.CalledBy ⟨config, module, OpenIpc.resume around, host⟩ locals.downloadState
        locals.useImage := by
  constructor
  · have acquires := locals.download.acquire_parsable locals.downloadState
    rw [DownloadCall.start, acquires]
    rfl
  · intro point
    cases point with
    | cached => rfl
    | announced => rfl
    | polled artifact =>
      simp only [OpenIpc.Locals.downloadState, OpenIpc.resume, DownloadCall.resume,
        OpenIpc.afterPoll, DownloadCall.afterPoll]
      cases artifact.state with
      | pending => rfl
      | done => rfl
      | failed => rfl

section Helper

variable (embed : DownloadPoint → κ) {returns : Bytes → Code κ} (call : DownloadCall)
  (host : Host) (now : Nat) (schedule : Schedule) (state : HandleState κ)

/-- Lines without keys are always accepted. -/
theorem execute_keyless (lines : List Text) (final : Bool) (next : κ) :
    ∃ built, Code.execute lines final [] next =
      .await (.exec ⟨Text.joinLines lines, final, none, [], none⟩ built) next :=
  ⟨⟨.lines lines, final, [], rfl⟩, rfl⟩

/-- A turn in which the download is found shows its progress. -/
theorem poll_run (artifact : DownloadArtifact)
    (observed : (state.reports now (schedule.headD [])).getDownload call.url = .ok artifact) :
    ∃ built, (call.poll embed).run host now schedule state =
      (state.reports now (schedule.headD []), .awaited
        (.exec ⟨Text.joinLines (OpenIpc.downloadProgressLines artifact), false, none, [], none⟩
          built) (embed (.polled artifact))) := by
  obtain ⟨built, executed⟩ := execute_keyless (OpenIpc.downloadProgressLines artifact) false
    (embed (.polled artifact))
  refine ⟨built, ?_⟩
  simp only [DownloadCall.poll, Code.run, observed, Code.attempt, executed]

/-- The contents of a regular file are what is read from it. A regular file is no directory and
nothing lies below it. -/
theorem read_file_contents (filename : Text) (target : Path) (body : Bytes)
    (resolved : resolveStaticPath host ('/' :: filename) = .ok (some target))
    (holds : state.files.contents target = some body) : state.readFile host filename = .ok body := by
  have regular : state.files.isDirectory target = false := by
    unfold FileTree.contents at holds
    split at holds
    · cases holds
    · rename_i irregular
      exact Bool.eq_false_iff.mpr irregular
  have there : state.files.present target = true := by
    simp [FileTree.present, holds]
  have found := state.files.stat_present (host.resolve host.staticRoot) target there
  simp [HandleState.readFile, resolved, FileTree.pathExists, found, FileTree.readBytes, regular,
    holds]

/-- A helper that returns its file goes on with the contents. -/
theorem return_file_run (target : Path) (body : Bytes)
    (resolved : resolveStaticPath host ('/' :: call.filepath) = .ok (some target))
    (holds : (state.reports now (schedule.headD [])).files.contents target = some body) :
    (call.returnFile returns).run host now schedule state =
      (returns body).run host now schedule.tail (state.reports now (schedule.headD [])) := by
  have read := read_file_contents host _ call.filepath target body resolved holds
  simp only [DownloadCall.returnFile, Code.run, read, Code.attempt]

end Helper

end UbootTftp
