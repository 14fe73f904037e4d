import UbootTftp.StaticUploads

/-!
# What an uploaded name serves

The write callback opens the path that a bare filename leads to below the root, and a read
request for the filename is answered from where the decoded filename leads. If that is the same
path, the bytes that are written through the file object are what the name serves afterwards;
otherwise some upload is not served, or a name whose upload is refused serves a file.
-/

namespace UbootTftp

open LexicalPaths

universe u
variable {κ : Type u}

section Files

/-- A tree of a single file holds that file only. -/
theorem single_contents (path other : Path) (body : Bytes)
    (held : FileTree.contents (Dict.empty.set path (.file body)) other ≠ none) :
    other = path := by
  by_contra different
  refine held ?_
  unfold FileTree.contents
  split
  · rfl
  · rw [Dict.get_set_other _ _ _ _ different, Dict.get_empty]

/-- A tree of a single file holds its body. -/
theorem single_file (path : Path) (body : Bytes) (present : path ≠ []) :
    FileTree.contents (Dict.empty.set path (.file body)) path = some body := by
  apply FileTree.written_contents Dict.empty
  have unoccupied : FileTree.occupied Dict.empty path = false := rfl
  have free : FileTree.isDirectory Dict.empty path = false := by
    simp [FileTree.isDirectory, unoccupied, present]
  rw [FileTree.writeBytes, if_neg (by simp [free])]

/-- A tree of a single directory holds no file. -/
theorem directory_contents (directory path : Path) :
    FileTree.contents (Dict.empty.set directory .directory) path = none := by
  unfold FileTree.contents
  split
  · rfl
  · rw [Dict.get_set]
    by_cases same : path = directory
    · rw [if_pos same]
    · rw [if_neg same, Dict.get_empty]

/-- Below a single directory there is no other. -/
theorem directory_below (directory rest : Path) (present : rest ≠ []) :
    FileTree.isDirectory (Dict.empty.set directory .directory) (directory ++ rest) = false := by
  have other : directory ++ rest ≠ directory := by simpa using present
  have unoccupied : FileTree.occupied (Dict.empty.set directory .directory) (directory ++ rest) =
      false := by
    rw [Bool.eq_false_iff]
    intro occupied
    obtain ⟨key, member, inside, -⟩ := (FileTree.occupied_iff _ _).mp occupied
    rcases (Dict.assign_keys directory _ _ key).mp member with rfl | absent
    · have length := (List.isPrefixOf_iff_prefix.mp inside).length_le
      rw [List.length_append] at length
      exact present (List.eq_nil_of_length_eq_zero (by omega))
    · cases absent
  rw [FileTree.isDirectory, unoccupied, Dict.get_set_other _ _ _ _ other, Dict.get_empty]
  simp [present]

/-- What holds a file is no directory. -/
theorem contents_file (files : FileTree) (path : Path) (body : Bytes)
    (held : files.contents path = some body) : files.isDirectory path = false := by
  unfold FileTree.contents at held
  split at held
  · cases held
  · rename_i file
    exact Bool.eq_false_iff.mpr file

/-- Writing over a file puts the new body in its place. -/
theorem rewritten_contents (files : FileTree) (path : Path) (body after : Bytes)
    (held : files.contents path = some body) :
    FileTree.contents (files.set path (.file after)) path = some after := by
  apply FileTree.written_contents files
  rw [FileTree.writeBytes, contents_file files path body held]
  rfl

end Files

section Writing

/-- A file object that stands at the end of what it has written to a path. This is what a transfer
keeps from one chunk to the next. -/
structure World.Storing (world : World κ) (handle : Nat) (path : Path) (body : Bytes) : Prop where
  opened : world.handles[handle]? = some (.disk path body.length false)
  held : world.files.contents path = some body

/-- A chunk is written behind what has been written before. The next position is the length of the
file, so the chunk overwrites nothing. -/
theorem World.Storing.write {world : World κ} {handle : Nat} {path : Path} {body : Bytes}
    (storing : world.Storing handle path body) (chunk : Bytes) :
    (world.write handle chunk).1.Storing handle path (body ++ chunk) := by
  obtain ⟨opened, held⟩ := storing
  have inside : handle < world.handles.length := (List.getElem?_eq_some_iff.mp opened).1
  have appended : overlay body body.length chunk = body ++ chunk := by
    simp [overlay]
  simp only [World.write, opened, Bool.false_eq_true, if_false, held, Option.getD_some, appended]
  constructor
  · rw [List.getElem?_set_self inside, List.length_append]
  · exact rewritten_contents _ _ _ _ held

/-- The chunks of an upload are written one behind the other, by induction on the chunks with the
file object at the end of what has been written before. -/
theorem World.Storing.writes {world : World κ} {handle : Nat} {path : Path} {body : Bytes}
    (storing : world.Storing handle path body) (chunks : List Bytes) :
    (chunks.foldl (fun world chunk => (world.write handle chunk).1) world).Storing handle path
      (body ++ chunks.flatten) := by
  induction chunks generalizing world body with
  | nil => simpa using storing
  | cons chunk chunks inductionHypothesis =>
    rw [List.foldl_cons, List.flatten_cons, ← List.append_assoc]
    exact inductionHypothesis (storing.write chunk)

/-- Closing the file object leaves what it has written. -/
theorem World.Storing.closed {world : World κ} {handle : Nat} {path : Path} {body : Bytes}
    (storing : world.Storing handle path body) :
    (world.close handle).1.files.contents path = some body := by
  simp only [World.close, storing.opened, storing.held]

end Writing

section Callbacks

/-- The check of the upload store calls no filename unsafe. So an unsafe filename among the errors
of a write request has come from the path on the disk. -/
theorem expected_error (sessions : InMemorySessionStore κ) (name other : Text) :
    InMemoryUploadStore.expected sessions name ≠ .error (.unsafeUploadFilename other) := by
  intro refused
  unfold InMemoryUploadStore.expected at refused
  cases parse : parseRequestPath name with
  | error raised =>
    obtain ⟨value, rfl⟩ := parse_error name raised parse
    simp [parse] at refused
  | ok parsed =>
    cases names : parsed.clientId with
    | none => simp [parse, names] at refused
    | some client =>
      cases stored : Dict.get sessions client with
      | none => simp [parse, names, InMemorySessionStore.require, stored] at refused
      | some session =>
        simp only [parse, names, InMemorySessionStore.require, stored] at refused
        repeat' split at refused
        all_goals cases refused

variable (server : DynamicContentServer κ)
  (lexical : server.provider.host.resolve = normalizedParts)
  (free : SlashFree server.provider.host.staticRoot) (filename : Text)

include lexical free

/-- A path that the write callback opens lies strictly below the root and is the one that the
filename leads to; the name it got there is bare, the path is not too long, and the file object
stands at its start. -/
theorem opened_inside (world : World κ) (peer : Text × Nat) (target : Path) (position : Nat)
    (closed : Bool)
    (directory : world.files.isDirectory (normalizedParts server.provider.host.staticRoot) = true)
    (opened : (server.openUpload world (handedPath server.provider.host filename) peer).2 =
      .ok (some (.disk target position closed))) :
    target = lexicalTarget server.provider.host.staticRoot filename ∧
      (∃ rest, rest ≠ [] ∧ target = normalizedParts server.provider.host.staticRoot ++ rest ∧
        requestedId (uploadName rest) = none ∧ ∀ part ∈ rest, '\x00' ∉ part) ∧
      overlong target = false ∧
      (server.openUpload world (handedPath server.provider.host filename) peer).1.Storing
        world.handles.length target [] := by
  have outcome := world.open_upload_cases server (handedPath server.provider.host filename) peer
  generalize server.openUpload world (handedPath server.provider.host filename) peer = answer
    at outcome opened ⊢
  cases outcome
  case disk parsed path bare resolved made file =>
    cases opened
    change Bare (relativePath server.provider.host (handedPath server.provider.host filename))
      parsed at bare
    change resolveDiskUploadPath server.provider.host
      (relativePath server.provider.host (handedPath server.provider.host filename)) =
        .ok target at resolved
    by_cases inside : normalizedParts server.provider.host.staticRoot <+:
        lexicalTarget server.provider.host.staticRoot filename
    · obtain ⟨rest, same⟩ := inside
      obtain ⟨down, slashes⟩ := lexical_target_parts server.provider.host.staticRoot free filename
      rw [← same] at down slashes
      have below : Down Stays Climbs rest := fun part member =>
        down part (List.mem_append_right _ member)
      have cut : SlashFree rest := fun part member => slashes part (List.mem_append_right _ member)
      rw [handed_inside _ free filename rest same.symm] at bare resolved
      rw [resolve_upload_name cut below _ lexical] at resolved
      split at resolved
      · cases resolved
      · rename_i clean
        cases resolved
        refine ⟨same, ⟨rest, ?_, rfl, (bare_iff _).mp ⟨parsed, bare⟩, ?_⟩,
          ((FileTree.make_parents_ok _ _).mp made).1, ?_, ?_⟩
        · rintro rfl
          rw [List.append_nil, directory] at file
          cases file
        · intro part member null
          exact clean ((upload_name_null cut).mpr ⟨part, member, null⟩)
        · exact List.getElem?_concat_length
        · apply FileTree.written_contents world.files
          rw [FileTree.writeBytes, file, if_neg Bool.false_ne_true]
    · obtain ⟨rest, climbs⟩ := handed_outside _ free filename inside
      cases (climbing_refused climbs _).symm.trans resolved
  all_goals cases opened

/-- The write callback refuses a filename as unsafe only if it leads out of the root. The converse
does not hold of every name, since one with a null character is refused for that. -/
theorem unsafe_outside (world : World κ) (peer : Text × Nat) (name : Text)
    (refused : (server.openUpload world (handedPath server.provider.host filename) peer).2 =
      .error (.unsafeUploadFilename name)) :
    ¬normalizedParts server.provider.host.staticRoot <+:
      lexicalTarget server.provider.host.staticRoot filename := by
  have outcome := world.open_upload_cases server (handedPath server.provider.host filename) peer
  generalize server.openUpload world (handedPath server.provider.host filename) peer = answer
    at outcome refused
  cases outcome with
  | malformed raised parse =>
    obtain ⟨value, rfl⟩ := parse_error _ raised parse
    cases refused
  | unexpected parsed client raised parse names missing =>
    cases refused
    exact absurd missing (expected_error world.sessions _ _)
  | captured parsed client waiting parse names passed => cases refused
  | unresolved parsed raised bare unsafe_ =>
    cases refused
    rintro ⟨rest, same⟩
    obtain ⟨down, slashes⟩ := lexical_target_parts server.provider.host.staticRoot free filename
    rw [← same] at down slashes
    have resolved := resolve_upload_name
      (fun part member => slashes part (List.mem_append_right _ member))
      (fun part member => down part (List.mem_append_right _ member)) _ lexical
    rw [← handed_inside _ free filename rest same.symm] at resolved
    have both := resolved.symm.trans unsafe_
    split at both
    · cases both
    · cases both
  | obstructed parsed target raised bare resolved blocked =>
    obtain ⟨ancestor, shape⟩ := make_parents_error _ _ _ blocked
    cases refused
    rcases shape with shape | shape | shape <;> cases shape
  | directory parsed target bare resolved occupied => cases refused
  | disk parsed target bare resolved made file => cases refused

omit lexical in
/-- A filename that leads out of the root is refused as unsafe. -/
theorem outside_unsafe (world : World κ) (peer : Text × Nat)
    (outside : ¬normalizedParts server.provider.host.staticRoot <+:
      lexicalTarget server.provider.host.staticRoot filename) :
    ∃ name, (server.openUpload world (handedPath server.provider.host filename) peer).2 =
      .error (.unsafeUploadFilename name) := by
  obtain ⟨rest, climbs⟩ := handed_outside _ free filename outside
  obtain ⟨parsed, parse, unnamed⟩ := climbing_bare climbs
  refine ⟨relativePath server.provider.host (handedPath server.provider.host filename), ?_⟩
  simp only [DynamicContentServer.openUpload, DynamicContentServer.uploadRequest, parse,
    ParsedPath.isSession, unnamed, Option.isSome_none, Bool.false_eq_true, if_false,
    climbing_refused climbs]

/-- On a server whose tree holds nothing but the root, a filename that leads below the root by
bare parts without a NUL, to a path that is not too long, is opened. -/
theorem fresh_opened (peer : Text × Nat) (rest : List Text) (present : rest ≠ [])
    (inside : lexicalTarget server.provider.host.staticRoot filename =
      normalizedParts server.provider.host.staticRoot ++ rest)
    (unnamed : requestedId (uploadName rest) = none) (clean : ∀ part ∈ rest, '\x00' ∉ part)
    (short : overlong (normalizedParts server.provider.host.staticRoot ++ rest) = false) :
    (server.openUpload (World.initial (Dict.empty.set
      (normalizedParts server.provider.host.staticRoot) .directory))
      (handedPath server.provider.host filename) peer).2 =
        .ok (some (.disk (normalizedParts server.provider.host.staticRoot ++ rest) 0 false)) := by
  obtain ⟨parsed, parse, bare⟩ := (bare_iff _).mpr unnamed
  obtain ⟨down, slashes⟩ := lexical_target_parts server.provider.host.staticRoot free filename
  rw [inside] at down slashes
  have cut : SlashFree rest := fun part member => slashes part (List.mem_append_right _ member)
  have resolved := resolve_upload_name cut
    (fun part member => down part (List.mem_append_right _ member)) _ lexical
  have whole : '\x00' ∉ (uploadName rest).dropWhile (· == '/') := fun null => by
    obtain ⟨part, member, inPart⟩ := (upload_name_null cut).mp null
    exact clean part member inPart
  rw [if_neg whole] at resolved
  have made : FileTree.makeParents (Dict.empty.set
      (normalizedParts server.provider.host.staticRoot) .directory)
      (normalizedParts server.provider.host.staticRoot ++ rest) = .ok () :=
    (FileTree.make_parents_ok _ _).mpr ⟨short, fun ancestor _ => directory_contents _ ancestor⟩
  have vacant := directory_below (normalizedParts server.provider.host.staticRoot) rest present
  simp only [DynamicContentServer.openUpload, DynamicContentServer.uploadRequest,
    handed_inside _ free filename rest inside, parse, ParsedPath.isSession, bare,
    Option.isSome_none, Bool.false_eq_true, if_false, resolved, World.initial, made,
    FileTree.writeBytes, vacant]

end Callbacks

section Reading

variable (provider : Provider κ) (lexical : provider.host.resolve = normalizedParts)
  (world : World κ) (now : Nat) (schedule : Schedule) (request : ContentRequest)
  (parsed : ParsedPath) (bare : Bare request.filename parsed)

include lexical bare

/-- A static read that is answered finds a file strictly below the root, where the decoded
filename leads. -/
theorem answered_static (result : ContentResult)
    (answered : (world.fetch provider now schedule request).result = .ok result) :
    '\x00' ∉ unquote request.filename ∧
      Below (normalizedParts provider.host.staticRoot)
        (lexicalTarget provider.host.staticRoot (unquote request.filename)) ∧
      world.files.contents (lexicalTarget provider.host.staticRoot (unquote request.filename)) ≠
        none := by
  have clean : '\x00' ∉ unquote request.filename := by
    intro null
    have inPath := (bare_mem bare '\x00' (by decide)).mpr null
    simp only [World.fetch, bare.1, bare.2, World.staticResult,
      resolve_static_null provider.host parsed.path inPath] at answered
    cases answered
  rw [fetch_static provider.host lexical provider rfl world now schedule request parsed bare
    clean] at answered
  refine ⟨clean, ?_⟩
  simp only at answered
  split at answered
  · rename_i below
    refine ⟨below, fun missing => ?_⟩
    unfold FileTree.fileContents at answered
    rw [missing] at answered
    split at answered
    · cases answered
    · cases answered
  · cases answered

end Reading

section Agreement

variable (server : DynamicContentServer κ) (filename : Text)

/-- What the two callbacks owe each other for one filename, as long as the root is a directory:
a read request is answered from the path that the write callback opens, so that it returns the
chunks that are written there, and a filename that the write callback refuses as unsafe serves
no file. -/
structure UploadServed : Prop where
  reads : ∀ (world : World κ) (peer : Text × Nat) (target : Path) (position : Nat) (closed : Bool),
    world.files.isDirectory (normalizedParts server.provider.host.staticRoot) = true →
    (server.openUpload world (handedPath server.provider.host filename) peer).2 =
      .ok (some (.disk target position closed)) →
    ∃ missing : Raised, missing.cls = .fileNotFoundError ∧
      ∀ (later : World κ) (now : Nat) (schedule : Schedule) (reader : Text × Nat),
        (later.fetch server.provider now schedule ⟨filename, reader⟩).result =
          (later.files.contents target).elim (.error missing) (fun body => .ok (.fromBytes body))
  serves : ∀ (world : World κ) (peer : Text × Nat) (target : Path) (position : Nat) (closed : Bool),
    world.files.isDirectory (normalizedParts server.provider.host.staticRoot) = true →
    (server.openUpload world (handedPath server.provider.host filename) peer).2 =
      .ok (some (.disk target position closed)) →
    ∀ (chunks : List Bytes) (now : Nat) (schedule : Schedule) (reader : Text × Nat),
      let written := chunks.foldl (fun world' chunk => (world'.write world.handles.length chunk).1)
        (server.openUpload world (handedPath server.provider.host filename) peer).1
      ((written.close world.handles.length).1.fetch server.provider now schedule
        ⟨filename, reader⟩).result = .ok (.fromBytes chunks.flatten)
  refuses : ∀ (world : World κ) (peer : Text × Nat) (name : Text),
    (server.openUpload world (handedPath server.provider.host filename) peer).2 =
      .error (.unsafeUploadFilename name) →
    ∀ (later : World κ) (now : Nat) (schedule : Schedule) (reader : Text × Nat)
      (result : ContentResult),
      (later.fetch server.provider now schedule ⟨filename, reader⟩).result ≠ .ok result

/-- Decoding a filename leads nowhere else. If the filename leads below the root by bare parts
without a NUL, to a path that is not too long to be created, so does the decoded filename, to the
same path; and if it leads out of the root, the decoded filename does not come back to a path below
it. -/
structure DecodedInPlace (root : Path) (filename : Text) : Prop where
  inside : ∀ rest, rest ≠ [] → lexicalTarget root filename = normalizedParts root ++ rest →
    requestedId (uploadName rest) = none → (∀ part ∈ rest, '\x00' ∉ part) →
    overlong (normalizedParts root ++ rest) = false →
    '\x00' ∉ unquote filename ∧
      lexicalTarget root (unquote filename) = lexicalTarget root filename
  outside : ¬normalizedParts root <+: lexicalTarget root filename →
    '\x00' ∈ unquote filename ∨ ¬Below (normalizedParts root) (lexicalTarget root (unquote filename))

/-- Filenames without an escape or a NUL are decoded in place. All filenames that fail therefore
hold a percent sign with two digits behind it, or a NUL. -/
theorem unescaped_in_place (root : Path) (unescaped : ¬Escaped filename)
    (clean : '\x00' ∉ filename) : DecodedInPlace root filename := by
  have same := unquote_unescaped filename unescaped
  constructor
  · intro rest _ _ _ _ _
    rw [same]
    exact ⟨clean, rfl⟩
  · intro outside
    rw [same]
    exact .inr fun below => outside below.1

section Bare

variable (lexical : server.provider.host.resolve = normalizedParts)
  (free : SlashFree server.provider.host.staticRoot) (parsed : ParsedPath)
  (bare : Bare filename parsed)

include lexical free bare

/-- A filename that serves its uploads leads where the decoded filename leads. The definition is
about all states, and the proof picks two of them: one without files for the upload and one in which
only the path opened is a file. -/
theorem UploadServed.inside (served : UploadServed server filename) (rest : List Text)
    (present : rest ≠ [])
    (inside : lexicalTarget server.provider.host.staticRoot filename =
      normalizedParts server.provider.host.staticRoot ++ rest)
    (unnamed : requestedId (uploadName rest) = none) (clean : ∀ part ∈ rest, '\x00' ∉ part)
    (short : overlong (normalizedParts server.provider.host.staticRoot ++ rest) = false) :
    '\x00' ∉ unquote filename ∧
      lexicalTarget server.provider.host.staticRoot (unquote filename) =
        lexicalTarget server.provider.host.staticRoot filename := by
  -- The upload is opened where the tree holds the root only, and is read from a tree that
  -- holds a file at the path opened and nothing else.
  have opened := fresh_opened server lexical free filename ("".toList, 0) rest present inside
    unnamed clean short
  have directory : FileTree.isDirectory (Dict.empty.set
      (normalizedParts server.provider.host.staticRoot) .directory)
      (normalizedParts server.provider.host.staticRoot) = true := by
    simp [FileTree.isDirectory]
  obtain ⟨missing, -, read⟩ := served.reads (World.initial _) _ _ _ _ directory opened
  have found := read (World.initial (Dict.empty.set
    (normalizedParts server.provider.host.staticRoot ++ rest) (.file []))) 0 [] ("".toList, 0)
  have nonempty : normalizedParts server.provider.host.staticRoot ++ rest ≠ [] := by
    simp [present]
  rw [World.initial, single_file _ [] nonempty] at found
  obtain ⟨decoded, -, held⟩ := answered_static server.provider lexical _ 0 [] _ parsed bare _ found
  exact ⟨decoded, (single_contents _ _ [] held).trans inside.symm⟩

/-- A filename whose refused uploads are not served does not come back below the root. A file is put
where the decoded name leads, and the read that finds it contradicts the refusal. -/
theorem UploadServed.outside (served : UploadServed server filename)
    (outside : ¬normalizedParts server.provider.host.staticRoot <+:
      lexicalTarget server.provider.host.staticRoot filename) :
    '\x00' ∈ unquote filename ∨
      ¬Below (normalizedParts server.provider.host.staticRoot)
        (lexicalTarget server.provider.host.staticRoot (unquote filename)) := by
  by_contra both
  obtain ⟨clean, below⟩ := not_or.mp both
  obtain ⟨name, refused⟩ := outside_unsafe server free filename (World.initial Dict.empty)
    ("".toList, 0) outside
  obtain ⟨rest, present, shape⟩ := (below_iff _ _).mp (not_not.mp below)
  have nonempty : lexicalTarget server.provider.host.staticRoot (unquote filename) ≠ [] := by
    rw [shape]
    simp [present]
  refine served.refuses _ _ name refused (World.initial (Dict.empty.set
    (lexicalTarget server.provider.host.staticRoot (unquote filename)) (.file []))) 0 []
    ("".toList, 0) (.fromBytes []) ?_
  rw [fetch_static server.provider.host lexical server.provider rfl _ 0 [] ⟨filename, _⟩ parsed
    bare clean]
  have found := FileTree.file_contents_some _ (normalizedParts server.provider.host.staticRoot) _ _
    (single_file (lexicalTarget server.provider.host.staticRoot (unquote filename)) [] nonempty)
  simp only [World.initial, found]
  exact if_pos (not_not.mp below)

/-- A filename that is decoded in place is read from the path that is opened for it. Reading
resolves the decoded filename and opening the filename as it stands, and the two lead to the same
path here. -/
theorem DecodedInPlace.reads (decoded : DecodedInPlace server.provider.host.staticRoot filename)
    (world : World κ) (peer : Text × Nat) (target : Path) (position : Nat) (closed : Bool)
    (directory : world.files.isDirectory (normalizedParts server.provider.host.staticRoot) = true)
    (opened : (server.openUpload world (handedPath server.provider.host filename) peer).2 =
      .ok (some (.disk target position closed)))
    (later : World κ) (now : Nat) (schedule : Schedule) (reader : Text × Nat) :
    (later.fetch server.provider now schedule ⟨filename, reader⟩).result =
      (later.files.contents target).elim (.error (.missingStaticFile parsed.path))
        (fun body => .ok (.fromBytes body)) := by
  obtain ⟨same, ⟨rest, present, below, unnamed, clean⟩, short, -⟩ := opened_inside server lexical
    free filename world peer target position closed directory opened
  obtain ⟨unnulled, leads⟩ := decoded.inside rest present (same ▸ below) unnamed clean (below ▸ short)
  have looks := later.files.stat_short (normalizedParts server.provider.host.staticRoot) target short
  rw [fetch_static server.provider.host lexical server.provider rfl later now schedule
    ⟨filename, reader⟩ parsed bare unnulled]
  simp only [leads, ← same, FileTree.fileContents, looks, Bool.false_eq_true, if_false]
  exact if_pos ((below_iff _ _).mpr ⟨rest, present, below⟩)

/-- A filename that is decoded in place serves its uploads. The bytes that are read are those on the
disk at the time of the read, which the close of the upload has left there. -/
theorem DecodedInPlace.served (decoded : DecodedInPlace server.provider.host.staticRoot filename) :
    UploadServed server filename where
  reads world peer target position closed directory opened :=
    ⟨.missingStaticFile parsed.path, rfl, decoded.reads server filename lexical free parsed bare
      world peer target position closed directory opened⟩
  serves world peer target position closed directory opened chunks now schedule reader := by
    obtain ⟨-, -, -, storing⟩ := opened_inside server lexical free filename world peer target
      position closed directory opened
    have held := (storing.writes chunks).closed
    rw [List.nil_append] at held
    simp only
    rw [decoded.reads server filename lexical free parsed bare world peer target position closed
      directory opened, held]
    rfl
  refuses world peer name refused later now schedule reader result answered := by
    obtain ⟨clean, below, -⟩ := answered_static server.provider lexical later now schedule
      ⟨filename, reader⟩ parsed bare result answered
    rcases decoded.outside (unsafe_outside server lexical free filename world peer name refused)
      with null | level
    · exact clean null
    · exact level below

end Bare

/-- On a tree without symbolic links, a bare filename serves what is uploaded under it, and serves
nothing when its upload is refused as unsafe, exactly when it is decoded in place.

Proof: from left to right the two callbacks are tried on a server whose tree holds nothing but the
root, or one file; from right to left both follow the same path in every world. -/
theorem upload_served_iff (lexical : server.provider.host.resolve = normalizedParts)
    (free : SlashFree server.provider.host.staticRoot) (parsed : ParsedPath)
    (parse : parseRequestPath filename = .ok parsed) (unnamed : parsed.clientId = none) :
    UploadServed server filename ↔ DecodedInPlace server.provider.host.staticRoot filename := by
  have bare : Bare filename parsed := ⟨parse, unnamed⟩
  constructor
  · intro served
    exact ⟨served.inside server filename lexical free parsed bare,
      served.outside server filename lexical free parsed bare⟩
  · intro decoded
    exact decoded.served server filename lexical free parsed bare

/-- The law applies to the sample server, where a name without an escape serves its uploads. -/
theorem upload_served_sample :
    UploadServed (sampleServer sampleEntry sampleCode) "uImage".toList :=
  (upload_served_iff (sampleServer sampleEntry sampleCode) "uImage".toList rfl
    (List.forall_mem_singleton.mpr (by decide))
    ⟨"uImage".toList, none, "/uImage".toList, ["uImage".toList], Dict.empty⟩ (by decide +kernel)
    rfl).mpr
    (unescaped_in_place _ _ (fun escaped => absurd escaped.percent (by decide)) (by decide))

/-- An upload of the name `a%20b` is written to a file of that name, while the name is read from
the file `a b`, so the upload is not served under its name. -/
theorem escaped_name_unserved :
    let server := sampleServer sampleEntry sampleCode
    let world : World Unit := .initial (Dict.ofList [(["srv".toList], .directory)])
    let upload := server.openUpload world
      (handedPath server.provider.host "a%20b".toList) ("10.0.0.2".toList, 1069)
    requestedId "a%20b".toList = none ∧
      upload.2 = .ok (some (.disk ["srv".toList, "a%20b".toList] 0 false)) ∧
      (upload.1.fetch server.provider 0 [] (sampleRequest "a%20b")).result =
        .error (.missingStaticFile "/a b".toList) ∧
      ¬UploadServed server "a%20b".toList := by
  intro server world upload
  have opened : upload.2 = .ok (some (.disk ["srv".toList, "a%20b".toList] 0 false)) := by
    decide +kernel
  have missed : (upload.1.fetch server.provider 0 [] (sampleRequest "a%20b")).result =
      .error (.missingStaticFile "/a b".toList) := by
    decide +kernel
  refine ⟨by decide +kernel, opened, missed, fun served => ?_⟩
  obtain ⟨missing, -, read⟩ := served.reads world _ _ _ _ (by decide +kernel) opened
  have answer := (read upload.1 0 [] _).symm.trans missed
  rw [show upload.1.files.contents ["srv".toList, "a%20b".toList] = some [] by decide +kernel]
    at answer
  cases answer

end Agreement

end UbootTftp
