import UbootTftp.Runs
import UbootTftp.Scripted

/-!
# The TFTP server

`DynamicContentServer` gives tftpy one callback for read requests and one for
write requests. A step of the server is a callback, a write to or a close of a
file object that a callback returned, or a report of a download thread; tftpy
interleaves the steps of different transfers in any order.

An exception that leaves a callback or a file object is part of the result here.
What it does to the listening loop is up to tftpy.
-/

namespace UbootTftp

universe u

/-- `os.path.normpath` of an absolute path. Climbing from the root of the file system stays
there. -/
def normalizedParts (parts : List Text) : Path :=
  parts.foldl (fun path part =>
    if part = [] ∨ part = ['.'] then path
    else if part = ['.', '.'] then path.dropLast
    else path ++ [part]) []

/-- `os.path.abspath`. -/
def absolutePath (host : Host) (path : Text) : Path :=
  let parts := path.splitOn '/'
  normalizedParts (if isAbsolute path then parts else host.workingDirectory ++ parts)

/-- The way from one absolute path to another: up to their last common ancestor
and down from there. -/
def relativeParts : Path → Path → List Text
  | first :: start, second :: target =>
    if first = second then relativeParts start target
    else List.replicate (start.length + 1) ['.', '.'] ++ second :: target
  | start, target => List.replicate start.length ['.', '.'] ++ target

/-- `_relative_path`: `os.path.relpath` to the root. It refuses an empty path, which is then kept.
The way to a path outside the root begins with dots. -/
def relativePath (host : Host) (path : Text) : Text :=
  if path = [] then path
  else match relativeParts (normalizedParts host.staticRoot) (absolutePath host path) with
    | [] => ['.']
    | parts => List.intercalate ['/'] parts

/-- Where an upload that belongs to no session is written: the root or a path below it. Unlike the
guard of the reads, this one refuses two dots anywhere in the name and lets the root itself pass. -/
def resolveDiskUploadPath (host : Host) (filename : Text) : Except Raised Path :=
  let relative := filename.dropWhile (· == '/')
  if ['.', '.'] ∈ pathParts relative then .error (.unsafeUploadFilename filename)
  else match host.resolveBelow relative with
    | .error raised => .error raised
    | .ok candidate =>
      if (host.resolve host.staticRoot).isPrefixOf candidate then .ok candidate
      else .error (.unsafeUploadFilename filename)

/-- Write a chunk into a body at a position, padding a gap with zeros. The tail of a longer body
stays. -/
def overlay (body : Bytes) (position : Nat) (chunk : Bytes) : Bytes :=
  body.take position ++ List.replicate (position - body.length) 0 ++ chunk ++
    body.drop (position + chunk.length)

/-- The steps of the server. File objects are named by their position in the list of all objects
returned for uploads. The order of the events is arbitrary, so a run may interleave transfers in any
way, and an object may be written to or closed at any time. -/
inductive Event
  | readRequest (request : ContentRequest) (now : Nat) (schedule : Schedule)
  | writeRequest (path : Text) (peer : Text × Nat)
  | write (handle : Nat) (chunk : Bytes)
  | close (handle : Nat)
  | threadReport (now : Nat) (report : ThreadEvent)

namespace World

variable {κ : Type u}

/-- The state of a server that has handled nothing yet. The files are those that it finds. -/
def initial (files : FileTree) : World κ where
  sessions := Dict.empty
  uploads := ⟨[], Dict.empty⟩
  handles := []
  downloads := Dict.empty
  files := files
  tokensDrawn := 0
  namesDrawn := 0

/-- `write` of a file object. Once captured, an upload's buffer is closed and refuses; an event for
an object that does not exist changes nothing. -/
def write (world : World κ) (handle : Nat) (chunk : Bytes) : World κ × Except Raised Unit :=
  match world.handles[handle]? with
  | none => (world, .ok ())
  | some (.capturing upload) =>
    if upload.captured then (world, .error .closedFile)
    else
      let upload := { upload with value := upload.value ++ chunk }
      ({ world with handles := world.handles.set handle (.capturing upload) }, .ok ())
  | some (.disk path position closed) =>
    if closed then (world, .error .closedFile)
    else
      let body := overlay ((world.files.contents path).getD []) position chunk
      ({ world with
          handles := world.handles.set handle (.disk path (position + chunk.length) false)
          files := world.files.set path (.file body) }, .ok ())

/-- `close` of a file object. A session upload that is not captured yet is recorded first, and stays
as it is when that raises, so that it can be closed again. -/
def close (world : World κ) (handle : Nat) : World κ × Except Raised Unit :=
  match world.handles[handle]? with
  | none => (world, .ok ())
  | some (.capturing upload) =>
    if upload.captured then (world, .ok ())
    else match world.uploads.record world.sessions upload.request upload.value with
      | .error raised => (world, .error raised)
      | .ok (uploads, sessions) =>
        ({ world with
            uploads := uploads
            sessions := sessions
            handles := world.handles.set handle (.capturing { upload with captured := true }) },
          .ok ())
  | some (.disk path position _) =>
    ({ world with handles := world.handles.set handle (.disk path position true) }, .ok ())

end World

/-- The server's address and its provider. -/
structure DynamicContentServer (κ : Type u) where
  address : Text
  port : Nat
  provider : Provider κ

namespace DynamicContentServer

variable {κ : Type u}

/-- `_open_dynamic_download`: a miss becomes `None`, every other exception escapes. The state behind
the request is kept in either case. -/
def openDynamicDownload (server : DynamicContentServer κ) (world : World κ) (now : Nat)
    (schedule : Schedule) (request : ContentRequest) :
    World κ × Except Raised (Option ContentResult) :=
  let outcome := world.fetch server.provider now schedule request
  match outcome.result with
  | .ok result => (outcome.world, .ok (some result))
  | .error raised =>
    if raised.cls = .fileNotFoundError then (outcome.world, .ok none)
    else (outcome.world, .error raised)

/-- The request that a write request's path makes of the upload store. -/
def uploadRequest (server : DynamicContentServer κ) (path : Text) (peer : Text × Nat) :
    UploadRequest :=
  ⟨relativePath server.provider.host path, peer, (server.address, server.port)⟩

/-- `_open_upload`. The declared result may be `None`, which no branch returns: a refusal raises. A
disk file is opened for writing, which makes its parents and empties it. -/
def openUpload (server : DynamicContentServer κ) (world : World κ) (path : Text)
    (peer : Text × Nat) : World κ × Except Raised (Option UploadFile) :=
  let request := server.uploadRequest path peer
  let given (world : World κ) (file : UploadFile) : World κ × Except Raised (Option UploadFile) :=
    ({ world with handles := world.handles ++ [file] }, .ok (some file))
  match parseRequestPath request.filename with
  | .error raised => (world, .error raised)
  | .ok parsed =>
    if parsed.isSession then
      match InMemoryUploadStore.openUpload world.sessions request with
      | .error raised => (world, .error raised)
      | .ok upload => given world (.capturing upload)
    else match resolveDiskUploadPath server.provider.host request.filename with
      | .error raised => (world, .error raised)
      | .ok diskPath =>
        match world.files.makeParents diskPath with
        | .error raised => (world, .error raised)
        | .ok () =>
          match world.files.writeBytes diskPath [] with
          | .error raised => (world, .error raised)
          | .ok files => given { world with files := files } (.disk diskPath 0 false)

/-- One step of the server. What a callback returns or raises is not part of the state; the
statements about answers speak of the callback itself. -/
def step (server : DynamicContentServer κ) (world : World κ) : Event → World κ
  | .readRequest request now schedule =>
    (server.openDynamicDownload world now schedule request).1
  | .writeRequest path peer => (server.openUpload world path peer).1
  | .write handle chunk => (world.write handle chunk).1
  | .close handle => (world.close handle).1
  | .threadReport now report =>
    { world with
      downloads := world.downloads.report now report
      files := report.applied world.files }

/-- The state after a sequence of steps from the first one on. These are the reachable states of the
server. -/
def after (server : DynamicContentServer κ) (files : FileTree) (events : List Event) : World κ :=
  Runs.run server.step (World.initial files) events

/-- A read request leaves the state that `fetch` leaves, whatever its result. -/
@[simp] theorem step_read_request (server : DynamicContentServer κ) (world : World κ)
    (request : ContentRequest) (now : Nat) (schedule : Schedule) :
    server.step world (.readRequest request now schedule) =
      (world.fetch server.provider now schedule request).world := by
  simp only [step, openDynamicDownload]
  cases (world.fetch server.provider now schedule request).result with
  | ok result => rfl
  | error raised => simp only; split <;> rfl

/-- The events after one step continue from the state that the step leaves. -/
theorem after_step (server : DynamicContentServer κ) (files : FileTree) (before : List Event)
    (event : Event) (between : List Event) :
    server.after files (before ++ event :: between) =
      Runs.run server.step (server.step (server.after files before) event) between := by
  rw [after, Runs.run_append]
  rfl

end DynamicContentServer

section Sample

/-- A host whose tokens are distinct and whose compiler copies the script. -/
def sampleHost : Host where
  staticRoot := ["srv".toList]
  resolve := normalizedParts
  digest := id
  localIp := fun _ => "10.0.0.1".toList
  workingDirectory := []
  token := fun draw => List.replicate (draw + 1) 't'
  hexToken := fun draw => List.replicate draw 'h'
  compile := fun script => script.map (fun character => UInt8.ofNat character.toNat)

/-- The tokens of the sample host are pairwise distinct. -/
theorem sample_tokens_distinct : Function.Injective sampleHost.token := by
  intro first second same
  have length := congrArg List.length same
  simpa [sampleHost] using length

/-- A configuration with the required environment and no routes. -/
def sampleConfig : DaemonConfig where
  server := Dict.empty
  env := Dict.ofList [("rambase".toList, "loadaddr".toList), ("cmdtftp".toList, "tftpboot".toList),
    ("cmdtftpput".toList, "tftpput".toList)]
  routes := Dict.empty
  default := ⟨"default".toList, Dict.empty⟩

/-- A configuration file that loads as the sample configuration. -/
def sampleFile : Dict Text TomlSection :=
  Dict.ofList [("env".toList, .ok (Dict.ofList [("rambase".toList, ⟨"loadaddr".toList, true⟩),
    ("cmdtftp".toList, ⟨"tftpboot".toList, true⟩),
    ("cmdtftpput".toList, ⟨"tftpput".toList, true⟩)]))]

/-- The sample configuration is one that the loader accepts. -/
theorem sample_loaded : loadDaemonConfig sampleFile none = .ok sampleConfig := by rfl

/-- A server whose module holds one entry point and whose handlers all run one code. The samples of
this development differ in these two arguments. -/
def sampleServer (entry : EntryPoint Unit) (code : Resumption → Code Unit) :
    DynamicContentServer Unit where
  address := "::".toList
  port := 6969
  provider := ⟨sampleConfig, fun _ => entry, fun _ => code, sampleHost⟩

/-- The entry point of a handler without a state of its own. -/
def sampleEntry : EntryPoint Unit := .async fun _ => ()

/-- The code of a handler that runs one script and returns. -/
def sampleCode : Resumption → Code Unit
  | .started =>
    .await (.exec ⟨"version".toList, false, none, [], none⟩
      ⟨.text "version".toList, false, [], rfl⟩) ()
  | _ => .finish

/-- The code of a handler that receives one upload and returns. -/
def sampleReceive : Resumption → Code Unit
  | .started =>
    .await (.execRecv ⟨"md.b 0".toList, false, some 4, [], none⟩
      ⟨.text "md.b 0".toList, 4, false, [], none, rfl⟩) ()
  | _ => .finish

/-- A read request from one peer. -/
def sampleRequest (filename : String) : ContentRequest :=
  ⟨filename.toList, ("10.0.0.2".toList, 1069)⟩

/-- The client that the samples use. -/
def sampleClient : ClientId := ⟨"cam".toList, by decide, by decide⟩

/-- The first continuation of a sample session, reporting a hush shell. -/
def sampleContinuation : ParsedPath where
  raw := "id=cam/token=t/hush_shell=true".toList
  clientId := some sampleClient
  path := "/token=t/hush_shell=true".toList
  segments := ["token=t".toList, "hush_shell=true".toList]
  values := Dict.ofList [("token".toList, "t".toList), ("hush_shell".toList, "true".toList)]

end Sample

end UbootTftp
