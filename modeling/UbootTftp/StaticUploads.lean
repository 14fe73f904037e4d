import UbootTftp.PathConfinement

/-!
# Static uploads and static reads of one name

A static upload is written where its filename leads as it stands, while a static read request
is answered from where the percent-decoded filename leads. Both are followed lexically on a
tree without symbolic links, so a name that is uploaded is the name that serves the upload
exactly when decoding does not lead elsewhere.
-/

namespace UbootTftp

open LexicalPaths

universe u
variable {κ : Type u}

/-- `os.path.join` of two paths. -/
def pathJoin (directory name : Text) : Text :=
  if isAbsolute name then name
  else if directory = [] ∨ directory.getLast? = some '/' then directory ++ name
  else directory ++ '/' :: name

/-- The path that the write callback is given for a filename: the root joined with the filename,
whose leading slashes would make the join leave the root. The library does this before the callback
runs. -/
def handedPath (host : Host) (filename : Text) : Text :=
  pathJoin (joinPath host.staticRoot) (filename.dropWhile (· == '/'))

/-- The parts of a path hold no slash. -/
def SlashFree (path : Path) : Prop := ∀ part ∈ path, '/' ∉ part

section Names

/-- The segments of a joined path are its parts that are not empty.

Proof: by induction on the parts. -/
theorem segments_path (path : Path) (free : SlashFree path) :
    segments (List.intercalate ['/'] path) = path.filter (fun part => decide (part ≠ [])) := by
  rw [segments_joined]
  induction path with
  | nil => rfl
  | cons part path inductionHypothesis =>
    obtain ⟨first, others⟩ := List.forall_mem_cons.mp free
    rw [List.flatMap_cons, inductionHypothesis others]
    by_cases empty : part = []
    · subst empty
      rfl
    · rw [segments_part part first empty, List.filter_cons_of_pos (by simpa using empty)]
      rfl

/-- The segments of a join are those of the directory and those of the relative name. A relative
name is put behind the directory, with a slash where the directory has none at its end. -/
theorem segments_join (directory name : Text) (relative : isAbsolute name = false) :
    segments (pathJoin directory name) = segments directory ++ segments name := by
  rw [pathJoin, relative, if_neg Bool.false_ne_true]
  split
  · rename_i ended
    rcases ended with rfl | slash
    · rfl
    · obtain ⟨front, rfl⟩ := List.getLast?_eq_some_iff.mp slash
      rw [List.append_assoc, List.singleton_append, segments_slash, segments_slash]
      simp [segments]
  · exact segments_slash directory name

/-- Without its leading slashes a name is relative. -/
theorem relative_name (name : Text) : isAbsolute (name.dropWhile (· == '/')) = false := by
  have kept := List.head?_dropWhile_not (· == '/') name
  cases rest : name.dropWhile (· == '/') with
  | nil => rfl
  | cons character rest =>
    rw [rest] at kept
    have other : character ≠ '/' := by simpa using kept
    simp [isAbsolute, List.isPrefixOf, Ne.symm other]

/-- The path that is handed over leads where the filename does. Two dots in the filename are
resolved in both in the same way, also where they lead out of the root. -/
theorem handed_target (host : Host) (free : SlashFree host.staticRoot) (filename : Text) :
    absolutePath host (handedPath host filename) = lexicalTarget host.staticRoot filename := by
  have absolute : isAbsolute (handedPath host filename) = true := by
    rw [handedPath, pathJoin, relative_name, if_neg Bool.false_ne_true]
    split <;> rfl
  have parts : segments (handedPath host filename) =
      host.staticRoot.filter (fun part => decide (part ≠ [])) ++ segments filename := by
    rw [handedPath, segments_join _ _ (relative_name filename), segments_dropWhile, joinPath,
      segments_front, segments_path _ free]
  have whole := normalized_segments [] (handedPath host filename)
  rw [List.nil_append, List.nil_append, parts] at whole
  have filled : normalizedParts (host.staticRoot.filter (fun part => decide (part ≠ []))) =
      normalizedParts host.staticRoot := by
    apply normalize_filter _ [] host.staticRoot
    intro part _ dropped
    exact .inl (by simpa using dropped)
  rw [normalized_parts_eq, normalized_parts_eq] at filled
  rw [absolutePath, if_pos absolute, ← whole, lexical_target_segments, normalized_parts_eq,
    normalized_parts_eq, normalize_append, normalize_append, filled]

/-- A path is reached from a directory above it by the parts below the directory. -/
theorem relative_parts_inside (start rest : Path) : relativeParts start (start ++ rest) = rest := by
  induction start with
  | nil => cases rest <;> rfl
  | cons first start inductionHypothesis =>
    rw [List.cons_append, relativeParts, if_pos rfl, inductionHypothesis]

/-- A path outside a directory is reached by climbing first.

Proof: by induction on the directory, along the parts that the two paths have in common. -/
theorem relative_parts_outside (start target : Path) (outside : ¬start <+: target) :
    ∃ rest, relativeParts start target = ['.', '.'] :: rest := by
  induction start generalizing target with
  | nil => exact absurd List.nil_prefix outside
  | cons first start inductionHypothesis =>
    cases target with
    | nil => exact ⟨_, rfl⟩
    | cons second target =>
      by_cases same : first = second
      · subst same
        rw [relativeParts, if_pos rfl]
        exact inductionHypothesis target fun inside =>
          outside ((List.prefix_cons_inj first).mpr inside)
      · rw [relativeParts, if_neg same]
        exact ⟨_, rfl⟩

end Names

section UploadNames

/-- The name that an upload gets: the parts of its path below the root. -/
def uploadName (rest : List Text) : Text :=
  if rest = [] then ['.'] else List.intercalate ['/'] rest

/-- The callback names an upload by the way from the root to where its filename leads. Dots of the
filename are gone by then, so only a name that leaves the root climbs. -/
theorem handed_name (host : Host) (free : SlashFree host.staticRoot) (filename : Text) :
    relativePath host (handedPath host filename) =
      uploadName (relativeParts (normalizedParts host.staticRoot)
        (lexicalTarget host.staticRoot filename)) := by
  have present : handedPath host filename ≠ [] := by
    rw [handedPath, pathJoin, relative_name, if_neg Bool.false_ne_true]
    split <;> simp [joinPath]
  rw [relativePath, if_neg present, handed_target host free, uploadName]
  cases relativeParts (normalizedParts host.staticRoot) (lexicalTarget host.staticRoot filename) with
  | nil => rfl
  | cons part rest => rfl

/-- A name leads down a path whose parts hold no slash. -/
theorem lexical_target_parts (root : Path) (free : SlashFree root) (name : Text) :
    Down Stays Climbs (lexicalTarget root name) ∧ SlashFree (lexicalTarget root name) := by
  rw [lexicalTarget, normalized_parts_eq]
  refine ⟨normalize_down _, fun part member => ?_⟩
  rcases List.mem_append.mp (normalize_mem _ part member) with inRoot | inName
  · exact free part inRoot
  · exact (Sequences.split_parts '/' _ part inName).1

/-- The components of a relative path are its segments other than the dots. -/
theorem path_parts_segments (name : Text) :
    pathParts name = (segments name).filter (fun part => decide (part ≠ ['.'])) := by
  rw [segments, List.filter_filter, pathParts]
  apply List.filter_congr
  intro part _
  rw [Bool.and_comm, Bool.decide_and]

variable {rest : List Text} (free : SlashFree rest)

include free

/-- The components of an upload's name are the parts it was made of. -/
theorem upload_name_parts (down : Down Stays Climbs rest) :
    pathParts ((uploadName rest).dropWhile (· == '/')) = rest := by
  rw [path_parts_segments, segments_dropWhile, uploadName]
  split
  · rename_i empty
    rw [empty]
    decide +kernel
  · rw [segments_path rest free, List.filter_filter, List.filter_eq_self]
    intro part member
    obtain ⟨moves, -⟩ := down part member
    simpa using (not_or.mp moves).symm

/-- An upload's name holds a NUL when one of its parts does. -/
theorem upload_name_null :
    '\x00' ∈ (uploadName rest).dropWhile (· == '/') ↔ ∃ part ∈ rest, '\x00' ∈ part := by
  rw [mem_segments '\x00' (by decide), segments_dropWhile, uploadName]
  split
  · rename_i empty
    rw [empty]
    decide +kernel
  · rw [segments_path rest free]
    constructor
    · rintro ⟨part, member, null⟩
      exact ⟨part, (List.mem_filter.mp member).1, null⟩
    · rintro ⟨part, member, null⟩
      exact ⟨part, List.mem_filter.mpr ⟨member, by simpa using List.ne_nil_of_mem null⟩, null⟩

/-- An upload below the root is resolved to where its parts lead from there, and one whose parts
hold a NUL cannot be resolved. -/
theorem resolve_upload_name (down : Down Stays Climbs rest) (host : Host)
    (lexical : host.resolve = normalizedParts) :
    resolveDiskUploadPath host (uploadName rest) =
      if '\x00' ∈ (uploadName rest).dropWhile (· == '/') then .error .embeddedNull
      else .ok (normalizedParts host.staticRoot ++ rest) := by
  have level : ['.', '.'] ∉ rest := fun climbs => (down _ climbs).2 rfl
  have followed : normalizedParts (host.staticRoot ++ rest) =
      normalizedParts host.staticRoot ++ rest := normalize_append_down _ rest down
  have below : (normalizedParts host.staticRoot).isPrefixOf
      (normalizedParts host.staticRoot ++ rest) = true :=
    List.isPrefixOf_iff_prefix.mpr (List.prefix_append _ rest)
  simp only [resolveDiskUploadPath, Host.resolveBelow, upload_name_parts free down, level, if_false,
    lexical, followed]
  by_cases null : '\x00' ∈ (uploadName rest).dropWhile (· == '/')
  · simp only [null, if_true]
  · simp only [null, if_false, below, if_true]

end UploadNames

section Handed

variable (host : Host) (free : SlashFree host.staticRoot) (filename : Text)

include free

/-- Below the root the name of an upload is made of the parts below the root. -/
theorem handed_inside (rest : List Text)
    (inside : lexicalTarget host.staticRoot filename = normalizedParts host.staticRoot ++ rest) :
    relativePath host (handedPath host filename) = uploadName rest := by
  rw [handed_name host free, inside, relative_parts_inside]

/-- Outside the root the name of an upload climbs. -/
theorem handed_outside
    (outside : ¬normalizedParts host.staticRoot <+: lexicalTarget host.staticRoot filename) :
    ∃ rest, segments (relativePath host (handedPath host filename)) = ['.', '.'] :: rest := by
  obtain ⟨rest, climbs⟩ := relative_parts_outside _ _ outside
  refine ⟨rest.flatMap segments, ?_⟩
  rw [handed_name host free, climbs, uploadName, if_neg (List.cons_ne_nil _ _), segments_joined,
    List.flatMap_cons, segments_part _ (by decide) (by decide), List.singleton_append]

end Handed

section Climbing

variable {name : Text} {rest : List Text} (climbs : segments name = ['.', '.'] :: rest)

include climbs

/-- A name that climbs is refused. -/
theorem climbing_refused (host : Host) :
    resolveDiskUploadPath host name = .error (.unsafeUploadFilename name) := by
  have member : ['.', '.'] ∈ pathParts (name.dropWhile (· == '/')) := by
    rw [path_parts_segments, segments_dropWhile, climbs]
    simp
  rw [resolveDiskUploadPath, if_pos member]

/-- A name that climbs is bare. -/
theorem climbing_bare : ∃ parsed, Bare name parsed := by
  have raw : ((Sequences.strip (· == '/') name).splitOn '/').filter
      (fun segment => decide (segment ≠ [])) = segments name := segments_strip name
  rw [bare_iff]
  simp only [requestedId, raw, climbs, List.map_cons]
  decide

end Climbing

end UbootTftp
