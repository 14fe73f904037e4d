import UbootTftp.Continuations

/-!
# The cases of a write request

A write request is refused, or it is given a file object: one that collects the upload of a
session, which the store lets pass only if the session waits for it, or one on a new file, if the
filename names no client and leads to a path that can be written. A chunk that is written to a
file object is added to the upload or to the file, unless the file object is closed.
-/

namespace UbootTftp

universe u
variable {κ : Type u}

/-- A request filename that names no client. -/
def Bare (filename : Text) (parsed : ParsedPath) : Prop :=
  parseRequestPath filename = .ok parsed ∧ parsed.clientId = none

/-- What a write request comes to. The first ones are about names with an id and the others about
bare names, in the order of the checks. Only the last ones change the files or the list of file
objects. -/
inductive World.UploadOutcome (world : World κ) (host : Host) (request : UploadRequest) :
    World κ × Except Raised (Option UploadFile) → Prop
  | malformed (raised : Raised) (parse : parseRequestPath request.filename = .error raised) :
      UploadOutcome world host request (world, .error raised)
  | unexpected (parsed : ParsedPath) (client : ClientId) (raised : Raised)
      (parse : parseRequestPath request.filename = .ok parsed)
      (names : parsed.clientId = some client)
      (refused : InMemoryUploadStore.expected world.sessions request.filename = .error raised) :
      UploadOutcome world host request (world, .error raised)
  | captured (parsed : ParsedPath) (client : ClientId)
      (waiting : ClientId × ClientSession κ × PendingReceive)
      (parse : parseRequestPath request.filename = .ok parsed)
      (names : parsed.clientId = some client)
      (passed : InMemoryUploadStore.expected world.sessions request.filename = .ok waiting) :
      UploadOutcome world host request
        ({ world with handles := world.handles ++ [.capturing ⟨request, [], false⟩] },
          .ok (some (.capturing ⟨request, [], false⟩)))
  | unresolved (parsed : ParsedPath) (raised : Raised) (bare : Bare request.filename parsed)
      (refused : resolveDiskUploadPath host request.filename = .error raised) :
      UploadOutcome world host request (world, .error raised)
  | obstructed (parsed : ParsedPath) (target : Path) (raised : Raised)
      (bare : Bare request.filename parsed)
      (resolved : resolveDiskUploadPath host request.filename = .ok target)
      (refused : world.files.makeParents target = .error raised) :
      UploadOutcome world host request (world, .error raised)
  | directory (parsed : ParsedPath) (target : Path) (bare : Bare request.filename parsed)
      (resolved : resolveDiskUploadPath host request.filename = .ok target)
      (occupied : world.files.isDirectory target = true) :
      UploadOutcome world host request (world, .error (.isADirectory target))
  | disk (parsed : ParsedPath) (target : Path) (bare : Bare request.filename parsed)
      (resolved : resolveDiskUploadPath host request.filename = .ok target)
      (made : world.files.makeParents target = .ok ())
      (file : world.files.isDirectory target = false) :
      UploadOutcome world host request
        ({ world with
            files := world.files.set target (.file [])
            handles := world.handles ++ [.disk target 0 false] },
          .ok (some (.disk target 0 false)))

/-- A write request comes to one of these. Results about write requests are proved by cases on this
relation. -/
theorem World.open_upload_cases (server : DynamicContentServer κ) (world : World κ) (path : Text)
    (peer : Text × Nat) :
    world.UploadOutcome server.provider.host (server.uploadRequest path peer)
      (server.openUpload world path peer) := by
  simp only [DynamicContentServer.openUpload]
  generalize server.uploadRequest path peer = request
  cases parse : parseRequestPath request.filename with
  | error raised => exact .malformed raised parse
  | ok parsed =>
    cases named : parsed.clientId with
    | some client =>
      simp only [ParsedPath.isSession, named, Option.isSome_some, if_true,
        InMemoryUploadStore.openUpload]
      cases checked : InMemoryUploadStore.expected world.sessions request.filename with
      | error raised => exact .unexpected parsed client raised parse named checked
      | ok waiting => exact .captured parsed client waiting parse named checked
    | none =>
      have bare : Bare request.filename parsed := ⟨parse, named⟩
      simp only [ParsedPath.isSession, named, Option.isSome_none, Bool.false_eq_true, if_false]
      cases resolved : resolveDiskUploadPath server.provider.host request.filename with
      | error raised => exact .unresolved parsed raised bare resolved
      | ok target =>
        cases made : world.files.makeParents target with
        | error raised =>
          simp only [made]
          exact .obstructed parsed target raised bare resolved made
        | ok done =>
          cases directory : world.files.isDirectory target with
          | true =>
            simp only [made, FileTree.writeBytes, directory, if_true]
            exact .directory parsed target bare resolved directory
          | false =>
            simp only [made, FileTree.writeBytes, directory, Bool.false_eq_true, if_false]
            exact .disk parsed target bare resolved made directory

/-- What a write to a file object does: nothing once it is closed, and otherwise the chunk is
added to the upload that it collects or to the file. -/
inductive World.Written (world : World κ) (handle : Nat) (chunk : Bytes) :
    World κ × Except Raised Unit → Prop
  | absent (missing : world.handles[handle]? = none) : Written world handle chunk (world, .ok ())
  | captured (upload : CapturingUpload) (held : world.handles[handle]? = some (.capturing upload))
      (captured : upload.captured = true) :
      Written world handle chunk (world, .error .closedFile)
  | collected (upload : CapturingUpload) (held : world.handles[handle]? = some (.capturing upload))
      (uncaptured : upload.captured = false) :
      Written world handle chunk
        ({ world with
            handles := world.handles.set handle
              (.capturing { upload with value := upload.value ++ chunk }) }, .ok ())
  | closed (path : Path) (position : Nat)
      (held : world.handles[handle]? = some (.disk path position true)) :
      Written world handle chunk (world, .error .closedFile)
  | disk (path : Path) (position : Nat)
      (held : world.handles[handle]? = some (.disk path position false)) :
      Written world handle chunk
        ({ world with
            handles := world.handles.set handle (.disk path (position + chunk.length) false)
            files := world.files.set path
              (.file (overlay ((world.files.contents path).getD []) position chunk)) }, .ok ())

/-- A write does one of these. By the cases of the file object that the handle names, which may also
be none. -/
theorem World.write_cases (world : World κ) (handle : Nat) (chunk : Bytes) :
    world.Written handle chunk (world.write handle chunk) := by
  unfold write
  split
  · exact .absent (by assumption)
  · rename_i upload held
    by_cases captured : upload.captured = true
    · rw [if_pos captured]
      exact .captured upload held captured
    · rw [if_neg captured]
      exact .collected upload held (Bool.eq_false_iff.mpr captured)
  · rename_i path position closed held
    cases closed with
    | true => exact .closed path position held
    | false => exact .disk path position held

end UbootTftp
