import UbootTftp.QuotedWords

/-!
# Splitting outside of quotes

A sequence is cut at its separators, but not where they stand in quotes or behind an escape
item. A solid text is one that is not cut anywhere and after which the scan is outside of quotes
again, whatever follows; solid texts can be put together, and a sequence of them is cut where
the separators between them are.
-/

namespace QuotedSplits

universe u
variable {α : Type u} [DecidableEq α]

/-- Where a scan stands: outside of quotes, inside, or behind an escape item. The last one remembers
whether the escape stood inside of quotes, which it does not end. -/
inductive Mode
  | plain
  | quoted
  | literal (inside : Bool)
  deriving DecidableEq

/-- Where a scan stands behind an item. An item behind an escape has no meaning of its own, whatever
it is. -/
def Mode.next (escape delimiter item : α) : Mode → Mode
  | .plain =>
    if item = escape then .literal false else if item = delimiter then .quoted else .plain
  | .quoted =>
    if item = escape then .literal true else if item = delimiter then .plain else .quoted
  | .literal inside => if inside then .quoted else .plain

/-- Put text in front of the first piece. -/
def prepend (text : List α) : List (List α) → List (List α)
  | [] => [text]
  | piece :: pieces => (text ++ piece) :: pieces

/-- The pieces of a sequence. Only a separator outside of quotes and escapes ends a piece, and there
is always one piece more than there are such separators. -/
def cut (escape delimiter : α) (separates : α → Bool) : Mode → List α → List (List α)
  | _, [] => [[]]
  | mode, item :: rest =>
    if mode = .plain ∧ separates item then [] :: cut escape delimiter separates .plain rest
    else prepend [item] (cut escape delimiter separates (mode.next escape delimiter item) rest)

/-- A text that is not cut, and that leaves its quotes, whatever follows it. Being solid is closed
under putting texts together, which being one piece is not. -/
def Solid (escape delimiter : α) (separates : α → Bool) (text : List α) : Prop :=
  ∀ rest, cut escape delimiter separates .plain (text ++ rest) =
    prepend text (cut escape delimiter separates .plain rest)

variable {escape delimiter : α} {separates : α → Bool}

omit [DecidableEq α] in
/-- Texts are put in front one after the other. -/
theorem prepend_append (front text : List α) (pieces : List (List α)) :
    prepend (front ++ text) pieces = prepend front (prepend text pieces) := by
  cases pieces with
  | nil => rfl
  | cons piece pieces => simp [prepend]

/-- There is always a first piece. -/
theorem cut_present (mode : Mode) (text : List α) :
    cut escape delimiter separates mode text ≠ [] := by
  cases text with
  | nil => simp [cut]
  | cons item rest =>
    rw [cut]
    split
    · simp
    · cases cut escape delimiter separates (mode.next escape delimiter item) rest <;> simp [prepend]

omit [DecidableEq α] in
/-- Nothing in front of pieces. -/
theorem prepend_nil (pieces : List (List α)) (present : pieces ≠ []) : prepend [] pieces = pieces := by
  cases pieces with
  | nil => exact absurd rfl present
  | cons piece pieces => rfl

section Solids

/-- No text. -/
theorem solid_nil : Solid escape delimiter separates [] := by
  intro rest
  rw [List.nil_append, prepend_nil _ (cut_present _ _)]

/-- Solid texts can be put together. -/
theorem Solid.append {front back : List α} (first : Solid escape delimiter separates front)
    (second : Solid escape delimiter separates back) :
    Solid escape delimiter separates (front ++ back) := by
  intro rest
  rw [List.append_assoc, first, second, prepend_append]

/-- An item with no meaning of its own. -/
theorem solid_item (item : α) (unescaped : item ≠ escape) (unquoted : item ≠ delimiter)
    (kept : separates item = false) : Solid escape delimiter separates [item] := by
  intro rest
  rw [List.singleton_append, cut]
  simp [kept, Mode.next, unescaped, unquoted]

/-- A text of such items. -/
theorem solid_plain (text : List α)
    (each : ∀ item ∈ text, item ≠ escape ∧ item ≠ delimiter ∧ separates item = false) :
    Solid escape delimiter separates text := by
  induction text with
  | nil => exact solid_nil
  | cons item text inductionHypothesis =>
    obtain ⟨unescaped, unquoted, kept⟩ := each item (by simp)
    exact (solid_item item unescaped unquoted kept).append
      (inductionHypothesis fun other member => each other (by simp [member]))

/-- Inside of quotes nothing is cut up to the delimiter that ends them.

Proof: by the reading of the word; an escape item takes the item behind it along. -/
theorem cut_quoted (distinct : escape ≠ delimiter) (body : List α)
    (closed : QuotedWords.closing escape delimiter body = some []) (rest : List α) :
    cut escape delimiter separates .quoted (body ++ rest) =
      prepend body (cut escape delimiter separates .plain rest) := by
  fun_induction QuotedWords.closing escape delimiter body with
  | case1 => cases closed
  | case2 => simp [cut, Mode.next, distinct.symm]
  | case3 item other => cases closed
  | case4 next behind => cases closed
  | case5 next behind other inductionHypothesis =>
    have read := inductionHypothesis closed
    have split : escape :: next :: behind = [escape, next] ++ behind := rfl
    rw [split, prepend_append, ← read]
    simp [cut, Mode.next, ← prepend_append]
  | case6 item next behind other plain inductionHypothesis =>
    have read := inductionHypothesis closed
    have split : item :: next :: behind = [item] ++ next :: behind := rfl
    rw [split, prepend_append, ← read]
    simp [cut, Mode.next, other, plain]

/-- A quoted word is solid, if its delimiter separates nothing. -/
theorem solid_quoted (distinct : escape ≠ delimiter) (kept : separates delimiter = false)
    (body : List α) (closed : QuotedWords.closing escape delimiter body = some []) :
    Solid escape delimiter separates (delimiter :: body) := by
  intro rest
  have split : delimiter :: body = [delimiter] ++ body := rfl
  rw [split, prepend_append, ← cut_quoted distinct body closed rest]
  simp [cut, kept, Mode.next, distinct.symm]

end Solids

section Pieces

/-- A solid text is one piece. -/
theorem cut_solid {text : List α} (solid : Solid escape delimiter separates text) :
    cut escape delimiter separates .plain text = [text] := by
  have cutting := solid []
  rw [List.append_nil] at cutting
  rw [cutting]
  simp [cut, prepend]

/-- A solid text before a separator is the first piece. -/
theorem cut_before {text : List α} (solid : Solid escape delimiter separates text) (separator : α)
    (separating : separates separator = true) (rest : List α) :
    cut escape delimiter separates .plain (text ++ separator :: rest) =
      text :: cut escape delimiter separates .plain rest := by
  rw [solid, cut]
  simp [separating, prepend]

/-- Solid texts with a separator between them are the pieces.

Proof: by induction on the texts; the first one is cut off at the separator behind it. -/
theorem cut_joined (separator : α) (separating : separates separator = true) (texts : List (List α))
    (present : texts ≠ []) (each : ∀ text ∈ texts, Solid escape delimiter separates text) :
    cut escape delimiter separates .plain (List.intercalate [separator] texts) = texts := by
  induction texts with
  | nil => exact absurd rfl present
  | cons text texts inductionHypothesis =>
    have first : Solid escape delimiter separates text := each text (by simp)
    cases texts with
    | nil =>
      rw [List.intercalate_singleton]
      exact cut_solid first
    | cons other texts =>
      have others := inductionHypothesis (by simp) fun later member => each later (by simp [member])
      rw [List.intercalate_cons_cons, List.append_assoc, List.singleton_append,
        cut_before first separator separating, others]

/-- So is the whole, where other separators count and this one has no meaning. The induction is on
the texts. The separator neither escapes nor quotes, so every text is read from the same state. -/
theorem Solid.joined (separator : α) (unescaped : separator ≠ escape)
    (unquoted : separator ≠ delimiter) (kept : separates separator = false)
    (texts : List (List α)) (each : ∀ text ∈ texts, Solid escape delimiter separates text) :
    Solid escape delimiter separates (List.intercalate [separator] texts) := by
  induction texts with
  | nil => exact solid_nil
  | cons text texts inductionHypothesis =>
    have first : Solid escape delimiter separates text := each text (by simp)
    cases texts with
    | nil =>
      rw [List.intercalate_singleton]
      exact first
    | cons other texts =>
      have others := inductionHypothesis fun later member => each later (by simp [member])
      rw [List.intercalate_cons_cons]
      exact (first.append (solid_item separator unescaped unquoted kept)).append others

end Pieces

end QuotedSplits
