import Mathlib.Data.List.TakeWhile
import Mathlib.Data.List.Infix

/-!
# Searching a text with patterns

A pattern reads a text from its front: it gives a value and the rest that it leaves, or it does
not match. Patterns are built of runs and literals. A run takes as many symbols of a class as
there are, which is what a pattern with backtracking comes to as well when no symbol of the
class can follow the run.

A search tries a pattern from left to right at the positions whose preceding symbol is a
boundary and goes on behind every match. What it finds in a composed text is found part by
part: nothing in a part at whose positions the pattern fails, and the value of a match where it
stands.
-/

namespace Scans

universe u v
variable {α : Type u} {β : Type v}

/-- A pattern: the value of a match at the front and the rest. -/
abbrev Pattern (α : Type u) (β : Type v) := List α → Option (β × List α)

/-- All symbols of a class up to the first other one, and at least one. -/
def run (inside : α → Bool) : Pattern α (List α) := fun items =>
  match items.takeWhile inside with
  | [] => none
  | first :: more => some (first :: more, items.dropWhile inside)

/-- The rest behind given symbols. -/
def literal [DecidableEq α] : List α → List α → Option (List α)
  | [], items => some items
  | _ :: _, [] => none
  | expected :: symbols, item :: items => if item = expected then literal symbols items else none

section Patterns

/-- What a run takes. -/
theorem run_some (inside : α → Bool) (items front rest : List α)
    (taken : run inside items = some (front, rest)) :
    items = front ++ rest ∧ front ≠ [] ∧ ∀ item ∈ front, inside item = true := by
  unfold run at taken
  cases shape : items.takeWhile inside with
  | nil => simp [shape] at taken
  | cons first more =>
    simp only [shape, Option.some.injEq, Prod.mk.injEq] at taken
    obtain ⟨rfl, rfl⟩ := taken
    refine ⟨?_, by simp, fun item member => List.mem_takeWhile_imp (shape ▸ member)⟩
    rw [← shape, List.takeWhile_append_dropWhile]

/-- A run stops at the first symbol of another class. The end of the text counts as such a
symbol. -/
theorem run_append (inside : α → Bool) (front rest : List α) (present : front ≠ [])
    (each : ∀ item ∈ front, inside item = true)
    (stops : ∀ item ∈ rest.head?, inside item = false) :
    run inside (front ++ rest) = some (front, rest) := by
  have taken : (front ++ rest).takeWhile inside = front := by
    rw [List.takeWhile_append_of_pos each]
    cases rest with
    | nil => simp
    | cons item rest =>
      have other : inside item = false := stops item (by simp)
      simp [other]
  have left : (front ++ rest).dropWhile inside = rest := by
    rw [List.dropWhile_append_of_pos each]
    cases rest with
    | nil => rfl
    | cons item rest =>
      have other : inside item = false := stops item (by simp)
      simp [other]
  obtain ⟨first, more, rfl⟩ := List.exists_cons_of_ne_nil present
  simp only [run, taken, left]

/-- A literal stands at the front. -/
theorem literal_iff [DecidableEq α] (symbols items rest : List α) :
    literal symbols items = some rest ↔ items = symbols ++ rest := by
  induction symbols generalizing items with
  | nil => simp [literal]
  | cons expected symbols inductionHypothesis =>
    cases items with
    | nil => simp [literal]
    | cons item items =>
      by_cases same : item = expected
      · simp [literal, same, inductionHypothesis]
      · simp [literal, same]

end Patterns

/-- The matches of a pattern from left to right, none overlapping the one before it. The
symbol before the position decides about the boundary; the number counts the symbols that the
last match still covers. -/
def scanFrom (boundary : Option α → Bool) (pattern : Pattern α β) :
    Option α → Nat → List α → List β
  | _, _, [] => []
  | before, 0, item :: items =>
    match if boundary before then pattern (item :: items) else none with
    | some (value, rest) =>
      value :: scanFrom boundary pattern (some item) (items.length - rest.length) items
    | none => scanFrom boundary pattern (some item) 0 items
  | _, covered + 1, item :: items => scanFrom boundary pattern (some item) covered items

/-- The matches in a whole text. -/
def scan (boundary : Option α → Bool) (pattern : Pattern α β) (items : List α) : List β :=
  scanFrom boundary pattern none 0 items

section Searches

variable (boundary : Option α → Bool) (pattern : Pattern α β)

/-- The symbol before what follows a part. -/
def lastOr (before : Option α) (front : List α) : Option α := front.getLast?.or before

/-- The symbols of a part have one before them. -/
theorem last_or_cons (before : Option α) (item : α) (items : List α) :
    lastOr (some item) items = lastOr before (item :: items) := by
  cases items with
  | nil => rfl
  | cons second items =>
    have present := List.getLast?_eq_some_getLast (List.cons_ne_nil second items)
    rw [lastOr, lastOr, List.getLast?_cons_cons, present]
    rfl

/-- What a match covers is passed over. -/
theorem scan_covered (before : Option α) (covered rest : List α) :
    scanFrom boundary pattern before covered.length (covered ++ rest) =
      scanFrom boundary pattern (lastOr before covered) 0 rest := by
  induction covered generalizing before with
  | nil => rfl
  | cons item covered inductionHypothesis =>
    rw [List.length_cons, List.cons_append, scanFrom, inductionHypothesis, ← last_or_cons]

/-- A match at the front is found, and the search goes on behind it. -/
theorem scan_match (before : Option α) (matched rest : List α) (value : β)
    (present : matched ≠ []) (bounded : boundary before = true)
    (found : pattern (matched ++ rest) = some (value, rest)) :
    scanFrom boundary pattern before 0 (matched ++ rest) =
      value :: scanFrom boundary pattern (lastOr before matched) 0 rest := by
  obtain ⟨item, covered, rfl⟩ := List.exists_cons_of_ne_nil present
  rw [List.cons_append] at found ⊢
  simp only [scanFrom, bounded, if_true, found, List.length_append, Nat.add_sub_cancel]
  rw [scan_covered, last_or_cons before]

/-- A part at whose positions the pattern fails is passed over.

Proof: by induction on the part, with any symbol before it. -/
theorem scan_skip (before : Option α) (front rest : List α)
    (fails : ∀ suffix, suffix <:+ front → suffix ≠ [] → pattern (suffix ++ rest) = none) :
    scanFrom boundary pattern before 0 (front ++ rest) =
      scanFrom boundary pattern (lastOr before front) 0 rest := by
  induction front generalizing before with
  | nil => rfl
  | cons item front inductionHypothesis =>
    have here : pattern (item :: (front ++ rest)) = none :=
      fails (item :: front) List.suffix_rfl (by simp)
    have later := inductionHypothesis (some item) fun suffix inside =>
      fails suffix (inside.trans (List.suffix_cons item front))
    rw [List.cons_append, scanFrom]
    simp only [here, ite_self]
    rw [later, last_or_cons before]

/-- In a text at whose positions the pattern fails nothing is found. -/
theorem scan_none (before : Option α) (items : List α)
    (fails : ∀ suffix, suffix <:+ items → suffix ≠ [] → pattern suffix = none) :
    scanFrom boundary pattern before 0 items = [] := by
  have skipped := scan_skip boundary pattern before items [] fun suffix inside present => by
    rw [List.append_nil]
    exact fails suffix inside present
  rw [List.append_nil] at skipped
  rw [skipped, scanFrom]

end Searches

/-- Replace every match of a pattern by its value. The number is that of the items which are still
covered by a match, so that matches do not overlap. -/
def replaceFrom (pattern : Pattern α (List α)) : Nat → List α → List α
  | _, [] => []
  | 0, item :: items =>
    match pattern (item :: items) with
    | some (value, rest) => value ++ replaceFrom pattern (items.length - rest.length) items
    | none => item :: replaceFrom pattern 0 items
  | covered + 1, _ :: items => replaceFrom pattern covered items

/-- Replace every match in a whole text. -/
def replace (pattern : Pattern α (List α)) (items : List α) : List α := replaceFrom pattern 0 items

section Replacements

variable (pattern : Pattern α (List α))

/-- What a match covers is left out. -/
theorem replace_covered (covered rest : List α) :
    replaceFrom pattern covered.length (covered ++ rest) = replace pattern rest := by
  induction covered with
  | nil => rfl
  | cons item covered inductionHypothesis =>
    rw [List.length_cons, List.cons_append, replaceFrom, inductionHypothesis]

/-- A match at the front is replaced. -/
theorem replace_match (matched rest value : List α) (present : matched ≠ [])
    (found : pattern (matched ++ rest) = some (value, rest)) :
    replace pattern (matched ++ rest) = value ++ replace pattern rest := by
  obtain ⟨item, covered, rfl⟩ := List.exists_cons_of_ne_nil present
  rw [List.cons_append] at found ⊢
  simp only [replace, replaceFrom, found, List.length_append, Nat.add_sub_cancel]
  rw [replace_covered, replace]

/-- A part at whose positions the pattern fails is kept. By induction on the part: at each of its
positions one symbol is kept and the scan goes on behind it. -/
theorem replace_skip (front rest : List α)
    (fails : ∀ suffix, suffix <:+ front → suffix ≠ [] → pattern (suffix ++ rest) = none) :
    replace pattern (front ++ rest) = front ++ replace pattern rest := by
  induction front with
  | nil => rfl
  | cons item front inductionHypothesis =>
    have here : pattern (item :: (front ++ rest)) = none :=
      fails (item :: front) List.suffix_rfl (by simp)
    have later := inductionHypothesis fun suffix inside =>
      fails suffix (inside.trans (List.suffix_cons item front))
    rw [replace] at later
    rw [List.cons_append, replace, replaceFrom]
    simp only [here]
    rw [later, List.cons_append]

end Replacements

end Scans
