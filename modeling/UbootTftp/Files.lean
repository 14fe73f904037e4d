import UbootTftp.Dict
import UbootTftp.Errors
import UbootTftp.Utf8

/-!
# Files below the static root

A file tree maps absolute paths to regular files or directories; a path with an
entry below it is a directory whether or not it has an entry of its own.

`Host` gathers what the server takes from the machine it runs on: path
resolution, hashing, random tokens and the address of the local interface. None
of them is constrained here. On a tree without symbolic links `resolve` is the
lexical normalization, which is an assumption of the results that need it.

Names have a limit. A path whose name or whose whole is too long cannot be created, and asking
for it fails instead of finding nothing, as soon as the directory is there in which the long name
would stand: `Path.exists` and `Path.is_file` let that error pass.
-/

namespace UbootTftp

/-- What a path of the tree holds. -/
inductive FileEntry
  | file (body : Bytes)
  | directory
  deriving DecidableEq

/-- The files the server can reach. -/
abbrev FileTree := Dict Path FileEntry

section Lengths

/-- `NAME_MAX` of the file system. -/
def nameMax : Nat := 255

/-- `PATH_MAX`, which counts a NUL at the end. -/
def pathMax : Nat := 4096

/-- The length of a name in the file system's encoding. -/
def byteLength (name : Text) : Nat := (Utf8.encode name).length

/-- The length of an absolute path, with a slash in front of each name. -/
def pathLength : Path → Nat
  | [] => 0
  | name :: rest => byteLength name + 1 + pathLength rest

/-- Whether a path is too long to be created. -/
def overlong (path : Path) : Bool :=
  decide (pathMax ≤ pathLength path) || path.any fun name => decide (nameMax < byteLength name)

end Lengths

namespace FileTree

/-- Whether some entry lies strictly below the path. -/
def occupied (files : FileTree) (path : Path) : Bool :=
  files.entries.any (fun entry => path.isPrefixOf entry.1 && decide (path ≠ entry.1))

/-- `Path.is_dir`. -/
def isDirectory (files : FileTree) (path : Path) : Bool :=
  path = [] || files.get path = some .directory || files.occupied path

/-- The contents of a regular file. Neither a directory nor a path at which there is nothing has
contents. -/
def contents (files : FileTree) (path : Path) : Option Bytes :=
  if files.isDirectory path then none
  else match files.get path with
    | some (.file body) => some body
    | _ => none

/-- `Path.exists`. -/
def present (files : FileTree) (path : Path) : Bool :=
  files.isDirectory path || (files.contents path).isSome

/-- Whether looking at a path fails, given the root that the server has made. Names are looked up
one after another, so a long one is only noticed in a directory that exists; before that nothing is
found, and what is there has no such name. The whole path is measured first. -/
def statFails (files : FileTree) (root path : Path) : Bool :=
  !files.present path &&
    (decide (pathMax ≤ pathLength path) || path.inits.any fun front =>
      decide (nameMax < byteLength (front.getLastD [])) &&
        (front.dropLast.isPrefixOf root || files.isDirectory front.dropLast))

/-- `Path.exists`. -/
def pathExists (files : FileTree) (root path : Path) : Except Raised Bool :=
  if files.statFails root path then .error (.fileNameTooLong path) else .ok (files.present path)

/-- `Path.is_file`, and what is read if it holds. -/
def fileContents (files : FileTree) (root path : Path) : Except Raised (Option Bytes) :=
  if files.statFails root path then .error (.fileNameTooLong path) else .ok (files.contents path)

/-- `Path.mkdir(parents=True, exist_ok=True)` on the parent of a path that is opened for writing
next. It fails when the parent or one of its ancestors is a regular file; the directories it creates
are implied by the file that is then written below them. A path that is too long, which makes this
or the opening fail, is refused here. -/
def makeParents (files : FileTree) (path : Path) : Except Raised Unit :=
  if pathMax ≤ pathLength path.dropLast then .error (.fileNameTooLong path)
  else match path.dropLast.inits.find? (fun ancestor => (files.contents ancestor).isSome) with
    | some ancestor =>
      .error (if ancestor = path.dropLast then .fileExists ancestor else .notADirectory ancestor)
    | none => if overlong path then .error (.fileNameTooLong path) else .ok ()

/-- The directories that a download thread makes for a path before it writes there. -/
def withParents (files : FileTree) (path : Path) : FileTree :=
  if files.makeParents path = .ok () ∧ files.isDirectory path.dropLast = false then
    files.set path.dropLast .directory
  else files

/-- Replace the contents of a file, creating it if needed. -/
def writeBytes (files : FileTree) (path : Path) (body : Bytes) : Except Raised FileTree :=
  if files.isDirectory path then .error (.isADirectory path) else .ok (files.set path (.file body))

/-- `Path.read_bytes`; the caller supplies the exception for a missing file. Reading a directory
raises an error of its own. -/
def readBytes (files : FileTree) (path : Path) (missing : Raised) : Except Raised Bytes :=
  if files.isDirectory path then .error (.isADirectory path)
  else match files.contents path with
    | some body => .ok body
    | none => .error missing

/-- Whether something lies below a path is seen by the keys. -/
theorem occupied_iff (files : FileTree) (path : Path) :
    files.occupied path = true ↔ ∃ key ∈ files.keys, path.isPrefixOf key = true ∧ path ≠ key := by
  simp [occupied, Dict.keys]

/-- The parent of a path is no longer than the path. -/
theorem parent_length (path : Path) : pathLength path.dropLast ≤ pathLength path := by
  induction path with
  | nil => exact Nat.le_refl _
  | cons name rest shorter =>
    cases rest with
    | nil => exact Nat.zero_le _
    | cons next rest =>
      rw [List.dropLast_cons_cons]
      exact Nat.add_le_add_left shorter _

/-- Looking at what is there does not fail. -/
theorem stat_present (files : FileTree) (root path : Path) (present : files.present path = true) :
    files.statFails root path = false := by
  simp [statFails, present]

/-- Looking at a path does not fail if the path could be created. The converse does not hold: a name
that is too long does no harm below a directory that does not exist. -/
theorem stat_short (files : FileTree) (root path : Path) (short : overlong path = false) :
    files.statFails root path = false := by
  simp only [overlong, Bool.or_eq_false_iff, List.any_eq_false, decide_eq_true_eq] at short
  obtain ⟨whole, names⟩ := short
  have fronts : (path.inits.any fun front =>
      decide (nameMax < byteLength (front.getLastD [])) &&
        (front.dropLast.isPrefixOf root || files.isDirectory front.dropLast)) = false := by
    rw [List.any_eq_false]
    intro front member
    have inside : front.getLastD [] ∈ front ∨ front.getLastD [] = [] := by
      cases front with
      | nil => exact .inr rfl
      | cons first rest => exact .inl (by simp [List.getLastD_eq_getLast?, List.getLast?_eq_some_getLast])
    have bounded : ¬nameMax < byteLength (front.getLastD []) := by
      rcases inside with name | empty
      · exact names _ (((List.mem_inits _ _).mp member).subset name)
      · rw [empty]
        decide
    rw [decide_eq_false bounded, Bool.false_and]
    exact Bool.false_ne_true
  rw [statFails, whole, fronts]
  simp

/-- What a file holds is found. -/
theorem file_contents_some (files : FileTree) (root path : Path) (body : Bytes)
    (held : files.contents path = some body) : files.fileContents root path = .ok (some body) := by
  have there : files.present path = true := by simp [present, held]
  rw [fileContents, files.stat_present root path there, held]
  rfl

/-- The parents of a path can be made exactly if the path is not too long and no file stands among
them. -/
theorem make_parents_ok (files : FileTree) (path : Path) :
    files.makeParents path = .ok () ↔
      overlong path = false ∧
        ∀ ancestor, ancestor ∈ path.dropLast.inits → files.contents ancestor = none := by
  unfold makeParents
  by_cases long : pathMax ≤ pathLength path.dropLast
  · have whole : overlong path = true := by
      simp [overlong, long.trans (parent_length path)]
    simp [long, whole]
  · rw [if_neg long]
    cases found : path.dropLast.inits.find? (fun ancestor => (files.contents ancestor).isSome) with
    | none =>
      simp only [List.find?_eq_none, Option.isSome_iff_ne_none, ne_eq, not_not] at found
      cases length : overlong path with
      | true => simp
      | false => simpa using found
    | some ancestor =>
      have member := List.mem_of_find?_eq_some found
      have occupied := List.find?_some found
      simp only [reduceCtorEq, false_iff, not_and, not_forall]
      exact fun _ => ⟨ancestor, member, by simpa [Option.isSome_iff_ne_none] using occupied⟩

/-- A file that has been written holds its contents. The root is a directory at all times, so it
cannot have been written. -/
theorem written_contents (files after : FileTree) (path : Path) (body : Bytes)
    (written : files.writeBytes path body = .ok after) : after.contents path = some body := by
  unfold writeBytes at written
  split at written
  · cases written
  · rename_i file
    cases written
    have unoccupied : occupied (files.set path (.file body)) path = false := by
      rw [Bool.eq_false_iff]
      intro below
      obtain ⟨key, member, begins, other⟩ := (occupied_iff _ _).mp below
      have held : key = path ∨ key ∈ files.keys := (Dict.assign_keys path _ _ key).mp member
      have before := (occupied_iff files path).mpr
        ⟨key, held.resolve_left (Ne.symm other), begins, other⟩
      exact file (by simp [isDirectory, before])
    have root : path ≠ [] := by
      rintro rfl
      simp [isDirectory] at file
    simp [contents, isDirectory, unoccupied, root]

end FileTree

/-- What the server takes from its machine and from its constructor arguments. -/
structure Host where
  /-- `static_root`, which is also the root that tftpy is given. -/
  staticRoot : Path
  /-- `Path.resolve` of an absolute path given by its components. -/
  resolve : List Text → Path
  /-- The first sixteen digits of the SHA-256 of a text. -/
  digest : Text → Text
  /-- `_get_local_ip` of the peer's address. -/
  localIp : Text → Text
  /-- `os.getcwd`. -/
  workingDirectory : Path
  /-- The successive draws of `_new_token`. -/
  token : Nat → Text
  /-- The successive draws of `secrets.token_hex(4)` in `_new_tmp_name`. -/
  hexToken : Nat → Text
  /-- `compiler.compile`. -/
  compile : Text → Bytes

/-- The components of a relative `Path`: empty and dot components are dropped,
dot-dot components are kept. -/
def pathParts (path : Text) : List Text :=
  (path.splitOn '/').filter (fun part => decide (part ≠ [] ∧ part ≠ ['.']))

/-- `Path.resolve` of a path below the static root. A NUL reaches the file system
here and is refused. -/
def Host.resolveBelow (host : Host) (relative : Text) : Except Raised Path :=
  if '\x00' ∈ relative then .error .embeddedNull
  else .ok (host.resolve (host.staticRoot ++ pathParts relative))

/-- The path a request or a destination names, unless it is the root itself or
lies outside the root. -/
def resolveStaticPath (host : Host) (path : Text) : Except Raised (Option Path) :=
  match host.resolveBelow (path.dropWhile (· == '/')) with
  | .error raised => .error raised
  | .ok candidate =>
    let root := host.resolve host.staticRoot
    if candidate = root then .ok none
    else if root.isPrefixOf candidate then .ok (some candidate) else .ok none

end UbootTftp
