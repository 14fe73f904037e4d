import UbootTftp.CallbackErrors
import UbootTftp.LexicalPaths
import UbootTftp.Unquoting

/-!
# Where static names lead

On a tree without symbolic links a path is resolved lexically, so a name leads to the normal
path of the root followed by the parts of the name. Empty parts stay in the directory. That is
why a slash at either end of a name, or a second one within it, changes nothing, and why the
path that the parser makes of a request filename leads where the decoded filename does.
-/

namespace UbootTftp

/-- A part that stays in its directory. -/
abbrev Stays (part : Text) : Prop := part = [] ∨ part = ['.']

/-- The part that goes up to the parent directory. -/
abbrev Climbs (part : Text) : Prop := part = ['.', '.']

/-- The lexical normalization of the root followed by a name without its leading slashes. Where the
tree has no symbolic links this is where the name leads; where it has some, nothing is said here. -/
def lexicalTarget (root : Path) (name : Text) : Path :=
  normalizedParts (root ++ (name.dropWhile (· == '/')).splitOn '/')

section Normalization

/-- Absolute paths are normalized lexically. -/
theorem normalized_parts_eq (parts : List Text) :
    normalizedParts parts = LexicalPaths.normalize Stays Climbs parts := rfl

/-- The parts of a relative path that stay in their directory can be put back. -/
theorem normalized_path_parts (root : Path) (name : Text) :
    normalizedParts (root ++ pathParts name) = normalizedParts (root ++ name.splitOn '/') := by
  apply LexicalPaths.normalize_filter
  intro part _ dropped
  by_contra moves
  rw [decide_eq_false_iff_not, ← not_or, not_not] at dropped
  exact moves dropped

end Normalization

section Segments

/-- The parts of a text that are not empty. Empty parts stay in the directory, so a name and its
segments lead to one place, which is why most laws below are about segments only. -/
def segments (text : Text) : List Text :=
  (text.splitOn '/').filter (fun part => decide (part ≠ []))

/-- The segments of a text are those before and behind a slash. -/
theorem segments_slash (front back : Text) :
    segments (front ++ '/' :: back) = segments front ++ segments back := by
  rw [segments, List.splitOn_append_cons_self, List.filter_append, ← segments, ← segments]

/-- A part without a slash is its own only segment, if it is one. -/
theorem segments_part (part : Text) (free : '/' ∉ part) (present : part ≠ []) :
    segments part = [part] := by
  rw [segments, List.splitOn_eq_singleton free, List.filter_cons_of_pos (by simpa using present),
    List.filter_nil]

/-- A slash at the front adds no segment. -/
theorem segments_front (text : Text) : segments ('/' :: text) = segments text :=
  segments_slash [] text

/-- Slashes at the front add no segment. -/
theorem segments_dropWhile (text : Text) :
    segments (text.dropWhile (· == '/')) = segments text := by
  induction text with
  | nil => rfl
  | cons character text inductionHypothesis =>
    by_cases slash : character = '/'
    · subst slash
      rw [List.dropWhile_cons_of_pos (by simp), inductionHypothesis, segments_front]
    · rw [List.dropWhile_cons_of_neg (by simpa using slash)]

/-- Slashes at the end add no segment. -/
theorem segments_rdropWhile (text : Text) :
    segments (text.rdropWhile (· == '/')) = segments text := by
  induction text using List.reverseRecOn with
  | nil => rfl
  | append_singleton text character inductionHypothesis =>
    by_cases slash : character = '/'
    · subst slash
      rw [List.rdropWhile_concat_pos _ _ _ (by simp), inductionHypothesis, segments_slash]
      exact (List.append_nil _).symm
    · rw [List.rdropWhile_concat_neg _ _ _ (by simpa using slash)]

/-- Neither do the slashes that are stripped off a request filename. -/
theorem segments_strip (text : Text) :
    segments (Sequences.strip (· == '/') text) = segments text := by
  rw [Sequences.strip, segments_rdropWhile, segments_dropWhile]

/-- A path is followed by its segments. -/
theorem normalized_segments (root : Path) (text : Text) :
    normalizedParts (root ++ segments text) = normalizedParts (root ++ text.splitOn '/') := by
  apply LexicalPaths.normalize_filter
  intro part _ dropped
  exact .inl (by simpa using dropped)

/-- A name leads where its segments lead. -/
theorem lexical_target_segments (root : Path) (name : Text) :
    lexicalTarget root name = normalizedParts (root ++ segments name) := by
  rw [lexicalTarget, ← normalized_segments, segments_dropWhile]

/-- The segments of joined texts are the segments of each. The joints are slashes, which part
segments, so no segment reaches over one. -/
theorem segments_joined (texts : List Text) :
    segments (List.intercalate ['/'] texts) = texts.flatMap segments := by
  induction texts with
  | nil => rfl
  | cons text texts inductionHypothesis =>
    cases texts with
    | nil => simp
    | cons next texts =>
      rw [List.intercalate_cons_cons, List.append_assoc, List.singleton_append, segments_slash,
        inductionHypothesis]
      exact List.flatMap_cons.symm

/-- The segments of a decoded text are those of its decoded segments: decoding may make new slashes
inside a segment, but none of the old ones goes.

Proof: by induction on the parts between the slashes, which are decoded apart. -/
theorem segments_unquote (text : Text) :
    segments (unquote text) = (segments text).flatMap (fun segment => segments (unquote segment)) := by
  have joined : unquote text = List.intercalate ['/'] ((text.splitOn '/').map unquote) := by
    rw [← unquote_joined, List.intercalate_splitOn]
  rw [joined, segments_joined, List.flatMap_map, segments]
  induction text.splitOn '/' with
  | nil => rfl
  | cons part parts inductionHypothesis =>
    by_cases empty : part = []
    · subst empty
      rw [List.filter_cons_of_neg (by simp), List.flatMap_cons, inductionHypothesis]
      rfl
    · rw [List.filter_cons_of_pos (by simpa using empty), List.flatMap_cons, List.flatMap_cons,
        inductionHypothesis]

/-- The symbols of joined texts other than slashes are those of the texts. -/
theorem mem_joined (character : Char) (other : character ≠ '/') (texts : List Text) :
    character ∈ List.intercalate ['/'] texts ↔ ∃ text ∈ texts, character ∈ text := by
  induction texts with
  | nil => simp
  | cons text texts inductionHypothesis =>
    cases texts with
    | nil => simp
    | cons next texts =>
      rw [List.intercalate_cons_cons, List.append_assoc, List.mem_append, List.singleton_append,
        List.mem_cons, inductionHypothesis]
      simp [other]

/-- The symbols of a text other than slashes are those of its segments. -/
theorem mem_segments (character : Char) (other : character ≠ '/') (text : Text) :
    character ∈ text ↔ ∃ segment ∈ segments text, character ∈ segment := by
  have joined := mem_joined character other (text.splitOn '/')
  rw [List.intercalate_splitOn] at joined
  rw [joined, segments]
  constructor
  · rintro ⟨part, member, inside⟩
    exact ⟨part, List.mem_filter.mpr ⟨member, by simpa using List.ne_nil_of_mem inside⟩, inside⟩
  · rintro ⟨part, member, inside⟩
    exact ⟨part, (List.mem_filter.mp member).1, inside⟩

end Segments

section Requests

/-- A filename is bare exactly when it names no client id. The segments are decoded before the id is
looked for, so an escaped one makes a filename that of a session as well. -/
theorem bare_iff (filename : Text) :
    (∃ parsed, Bare filename parsed) ↔ requestedId filename = none := by
  simp only [Bare, parseRequestPath, requestedId]
  generalize ((((Sequences.strip (· == '/') filename).splitOn '/').filter
    (fun segment => decide (segment ≠ []))).map unquote) = segments
  cases segments with
  | nil => exact ⟨fun _ => rfl, fun _ => ⟨_, rfl, rfl⟩⟩
  | cons first rest =>
    by_cases named : (Sequences.partition '=' first).1 = "id".toList ∧
        (Sequences.partition '=' first).2.1 = true
    · simp only [named, and_self, if_true, reduceCtorEq, iff_false]
      rintro ⟨parsed, parse, unnamed⟩
      split at parse
      · cases parse
      · cases parse
        cases unnamed
    · simp only [named, if_false]
      exact ⟨fun _ => trivial, fun _ => ⟨_, rfl, rfl⟩⟩

/-- The path of a bare request is that of its decoded segments, or the root. Empty segments are
dropped, so the number of slashes between two names makes no difference. -/
theorem bare_path {filename : Text} {parsed : ParsedPath} (bare : Bare filename parsed) :
    parsed.path = '/' :: List.intercalate ['/'] ((segments filename).map unquote) := by
  obtain ⟨parse, unnamed⟩ := bare
  have raw : ((Sequences.strip (· == '/') filename).splitOn '/').filter
      (fun segment => decide (segment ≠ [])) = segments filename := segments_strip filename
  simp only [parseRequestPath, raw] at parse
  cases decoded : (segments filename).map unquote with
  | nil =>
    rw [decoded] at parse
    cases parse
    rfl
  | cons first message =>
    rw [decoded] at parse
    simp only at parse
    split at parse
    · split at parse
      · cases parse
      · cases parse
        cases unnamed
    · cases parse
      rfl

/-- The path of a bare request leads where the decoded filename leads. The parser splits before it
decodes and joins again behind that; neither changes the place. -/
theorem bare_target {filename : Text} {parsed : ParsedPath} (bare : Bare filename parsed)
    (root : Path) : lexicalTarget root parsed.path = lexicalTarget root (unquote filename) := by
  rw [lexical_target_segments, lexical_target_segments, bare_path bare, segments_front,
    segments_joined, segments_unquote, List.flatMap_map]

/-- The path of a bare request holds the symbols of the decoded filename. -/
theorem bare_mem {filename : Text} {parsed : ParsedPath} (bare : Bare filename parsed)
    (character : Char) (other : character ≠ '/') :
    character ∈ parsed.path ↔ character ∈ unquote filename := by
  rw [bare_path bare, mem_segments character other ('/' :: _), mem_segments character other,
    segments_front, segments_joined, segments_unquote, List.flatMap_map]

end Requests

section Resolution

variable (host : Host) (lexical : host.resolve = normalizedParts)

include lexical

/-- A relative name without a NUL is resolved to where it leads. -/
theorem resolve_below_lexical (name : Text) (clean : '\x00' ∉ name) :
    host.resolveBelow name = .ok (normalizedParts (host.staticRoot ++ name.splitOn '/')) := by
  rw [Host.resolveBelow, if_neg clean, lexical, normalized_path_parts]

/-- The guard of static names lets pass what leads strictly below the root, and gives the place
itself. The root and everything outside it are refused alike. -/
theorem resolve_static_lexical (name : Text) (clean : '\x00' ∉ name) :
    resolveStaticPath host name =
      .ok (if LexicalPaths.Below (normalizedParts host.staticRoot)
          (lexicalTarget host.staticRoot name) then
        some (lexicalTarget host.staticRoot name) else none) := by
  have relative : '\x00' ∉ name.dropWhile (· == '/') := fun member =>
    clean ((List.dropWhile_suffix _).subset member)
  have found : host.resolveBelow (name.dropWhile (· == '/')) =
      .ok (lexicalTarget host.staticRoot name) := resolve_below_lexical host lexical _ relative
  simp only [resolveStaticPath, found, lexical, LexicalPaths.Below, List.isPrefixOf_iff_prefix]
  by_cases root : lexicalTarget host.staticRoot name = normalizedParts host.staticRoot
  · simp [root]
  · by_cases below : normalizedParts host.staticRoot <+: lexicalTarget host.staticRoot name
    · simp [root, below]
    · simp [root, below]

end Resolution

end UbootTftp
