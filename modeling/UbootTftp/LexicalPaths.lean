import Mathlib.Data.List.Infix

/-!
# Lexical path normalization

A path is a list of parts that is read from the root down. Some parts stay in the directory,
some go up to its parent, and every other part enters a directory below. The parent of the
root is the root itself, so every list of parts leads to a normal path, one whose parts all
lead down.

Nothing here looks at a file system: where no part is a link, the normal path is the one that
the parts lead to.
-/

namespace LexicalPaths

universe u
variable {α : Type u} (stay up : α → Prop) [DecidablePred stay] [DecidablePred up]

/-- Follow one part from a directory. -/
def follow (path : List α) (part : α) : List α :=
  if stay part then path else if up part then path.dropLast else path ++ [part]

/-- The path that parts lead to from the root. -/
def normalize (parts : List α) : List α := parts.foldl (follow stay up) []

/-- A path that only leads down. -/
def Down (path : List α) : Prop := ∀ part ∈ path, ¬stay part ∧ ¬up part

variable {stay up}

/-- Following a part adds at most the part itself. A part that stays adds nothing, and one that
leads up takes a part away. -/
theorem follow_mem (path : List α) (part other : α) (member : other ∈ follow stay up path part) :
    other ∈ path ∨ (other = part ∧ ¬stay part ∧ ¬up part) := by
  unfold follow at member
  split at member
  · exact .inl member
  · rename_i moves
    split at member
    · exact .inl (List.dropLast_subset path member)
    · rename_i down
      rcases List.mem_append.mp member with before | last
      · exact .inl before
      · exact .inr ⟨List.mem_singleton.mp last, moves, down⟩

/-- The parts of the path that is reached are those of the start and parts that lead down.

Proof: by induction on the parts, from any path that has been reached. -/
theorem followed_mem (path parts : List α) (other : α)
    (member : other ∈ parts.foldl (follow stay up) path) :
    other ∈ path ∨ (other ∈ parts ∧ ¬stay other ∧ ¬up other) := by
  induction parts generalizing path with
  | nil => exact .inl member
  | cons part parts inductionHypothesis =>
    rcases inductionHypothesis (follow stay up path part) member with before | ⟨later, moves⟩
    · rcases follow_mem path part other before with start | ⟨rfl, moves⟩
      · exact .inl start
      · exact .inr ⟨List.mem_cons_self, moves⟩
    · exact .inr ⟨List.mem_cons_of_mem _ later, moves⟩

/-- A normal path holds parts of the list only. -/
theorem normalize_mem (parts : List α) (part : α) (member : part ∈ normalize stay up parts) :
    part ∈ parts :=
  ((followed_mem [] parts part member).resolve_left List.not_mem_nil).1

/-- Every list of parts leads to a normal path. -/
theorem normalize_down (parts : List α) : Down stay up (normalize stay up parts) :=
  fun part member => ((followed_mem [] parts part member).resolve_left List.not_mem_nil).2

/-- Parts that lead down are appended. By induction on the parts, with the path that they are
appended to left open. -/
theorem follow_down (path parts : List α) (down : Down stay up parts) :
    parts.foldl (follow stay up) path = path ++ parts := by
  induction parts generalizing path with
  | nil => exact (List.append_nil path).symm
  | cons part parts inductionHypothesis =>
    obtain ⟨moves, falls⟩ := down part List.mem_cons_self
    have step : follow stay up path part = path ++ [part] := by
      rw [follow, if_neg moves, if_neg falls]
    have rest := inductionHypothesis (follow stay up path part) fun other member =>
      down other (List.mem_cons_of_mem _ member)
    rw [List.foldl_cons, rest, step, List.append_assoc, List.singleton_append]

/-- A list of parts is followed from where the parts before it lead. -/
theorem normalize_append (front back : List α) :
    normalize stay up (front ++ back) = back.foldl (follow stay up) (normalize stay up front) := by
  rw [normalize, List.foldl_append, ← normalize]

/-- Parts that lead down continue the normal path of the parts before them. -/
theorem normalize_append_down (front back : List α) (down : Down stay up back) :
    normalize stay up (front ++ back) = normalize stay up front ++ back := by
  rw [normalize_append, follow_down _ back down]

/-- Parts that stay can be left out, some of them or all.

Proof: by induction on the parts; one that is left out leads from a path to itself. -/
theorem follow_filter (keep : α → Bool) (path parts : List α)
    (stays : ∀ part ∈ parts, keep part = false → stay part) :
    (parts.filter keep).foldl (follow stay up) path = parts.foldl (follow stay up) path := by
  induction parts generalizing path with
  | nil => rfl
  | cons part parts inductionHypothesis =>
    obtain ⟨first, others⟩ := List.forall_mem_cons.mp stays
    cases kept : keep part with
    | true =>
      rw [List.filter_cons_of_pos kept, List.foldl_cons, List.foldl_cons,
        inductionHypothesis _ others]
    | false =>
      have step : follow stay up path part = path := if_pos (first kept)
      rw [List.filter_cons_of_neg (by simp [kept]), List.foldl_cons, step,
        inductionHypothesis _ others]

/-- What is left out behind other parts changes no normal path. -/
theorem normalize_filter (keep : α → Bool) (front parts : List α)
    (stays : ∀ part ∈ parts, keep part = false → stay part) :
    normalize stay up (front ++ parts.filter keep) = normalize stay up (front ++ parts) := by
  rw [normalize_append, normalize_append, follow_filter keep _ parts stays]

/-- A path strictly below a directory. -/
def Below (directory path : List α) : Prop := directory <+: path ∧ path ≠ directory

instance [DecidableEq α] (directory path : List α) : Decidable (Below directory path) :=
  inferInstanceAs (Decidable (_ ∧ _))

/-- The way to a path strictly below a directory is not empty. That way is what a prefix leaves of
the path. -/
theorem below_iff (directory path : List α) :
    Below directory path ↔ ∃ rest, rest ≠ [] ∧ path = directory ++ rest := by
  constructor
  · rintro ⟨⟨rest, rfl⟩, other⟩
    refine ⟨rest, ?_, rfl⟩
    rintro rfl
    exact other (List.append_nil directory)
  · rintro ⟨rest, present, rfl⟩
    refine ⟨List.prefix_append directory rest, ?_⟩
    intro same
    exact present (by simpa using same)

/-- What is not strictly below a directory is the directory itself or lies outside it. -/
theorem not_below_iff (directory path : List α) :
    ¬Below directory path ↔ path = directory ∨ ¬directory <+: path := by
  constructor
  · intro outside
    by_cases same : path = directory
    · exact .inl same
    · exact .inr fun inside => outside ⟨inside, same⟩
  · rintro (same | outside) ⟨inside, other⟩
    · exact other same
    · exact outside inside

end LexicalPaths
