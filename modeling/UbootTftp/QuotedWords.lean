import Mathlib.Data.List.DropRight
import Mathlib.Algebra.Ring.Parity

/-!
# Quoted words

A quoted word ends at the first delimiter that no escape character makes literal. Text that is
put into one has an escape character in front of each of its delimiters. That keeps the text
inside the word unless an escape character of its own makes the one in front of a delimiter
literal: the delimiter is then bare.

What decides is the number of escape characters directly before each delimiter of the text, and
before its end, where the closing delimiter follows.
-/

namespace QuotedWords

universe u
variable {α : Type u} [DecidableEq α] (escape delimiter : α)

/-- What follows the first delimiter that is not literal; an escape character makes the item
behind it literal. -/
def closing : List α → Option (List α)
  | [] => none
  | [item] => if item = delimiter then some [] else none
  | item :: next :: rest =>
    if item = delimiter then some (next :: rest)
    else if item = escape then closing rest
    else closing (next :: rest)

/-- Text with an escape character before each delimiter. -/
def escaped (text : List α) : List α :=
  text.flatMap (fun item => if item = delimiter then [escape, delimiter] else [item])

/-- The number of escape characters at the end. -/
def trailing (text : List α) : Nat := (text.rtakeWhile (fun item => decide (item = escape))).length

/-- Before each delimiter there is an even number of escape characters. They make each other literal
then, and the one that is put in front of the delimiter keeps its meaning. -/
def EvenBefore (text : List α) : Prop :=
  ∀ before after, text = before ++ delimiter :: after → Even (trailing escape before)

/-- One pass over the text that keeps the parity of the escape characters it has just seen. Every
delimiter has to stand behind an odd number of them, and the text to end with an even one. -/
def balanced : Bool → List α → Bool
  | odd, [] => !odd
  | odd, item :: rest =>
    if item = escape then balanced (!odd) rest
    else if item = delimiter then !odd && balanced false rest
    else balanced false rest

variable {escape delimiter} (distinct : escape ≠ delimiter)

section Reading

/-- A literal item is skipped. -/
theorem closing_literal (item : α) (rest : List α) (distinct : escape ≠ delimiter) :
    closing escape delimiter (escape :: item :: rest) = closing escape delimiter rest := by
  simp [closing, distinct]

/-- A delimiter that is not literal ends the word. -/
theorem closing_delimiter (rest : List α) :
    closing escape delimiter (delimiter :: rest) = some rest := by
  cases rest with
  | nil => simp [closing]
  | cons next rest => simp [closing]

/-- An item that is neither is skipped. -/
theorem closing_other (item : α) (rest : List α) (other : item ≠ delimiter)
    (plain : item ≠ escape) :
    closing escape delimiter (item :: rest) = closing escape delimiter rest := by
  cases rest with
  | nil => simp [closing, other]
  | cons next rest => simp [closing, other, plain]

/-- What comes behind the closing delimiter does not matter for finding it. The induction follows
`closing`, and the delimiter that it finds is the same one. -/
theorem closing_append (text rest tail : List α)
    (closed : closing escape delimiter text = some rest) :
    closing escape delimiter (text ++ tail) = some (rest ++ tail) := by
  fun_induction closing escape delimiter text with
  | case1 => cases closed
  | case2 =>
    cases closed
    exact closing_delimiter tail
  | case3 item other => cases closed
  | case4 next behind =>
    cases closed
    exact closing_delimiter _
  | case5 next behind other inductionHypothesis =>
    rw [List.cons_append, List.cons_append, closing_literal _ _ other]
    exact inductionHypothesis closed
  | case6 item next behind other plain inductionHypothesis =>
    rw [List.cons_append, closing_other item _ other plain]
    exact inductionHypothesis closed

include distinct in
/-- Reading escaped text up to the delimiter behind it.

Proof: by induction on the text, with an escape character pending where the pass has seen an
odd number of them. A pending one takes the escape character that was put before a delimiter,
which then ends the word before its closing delimiter. -/
theorem closing_escaped (text : List α) (odd : Bool) :
    closing escape delimiter
        ((if odd then [escape] else []) ++ escaped escape delimiter text ++ [delimiter]) =
          some [] ↔
      balanced escape delimiter odd text = true := by
  induction text generalizing odd with
  | nil =>
    cases odd with
    | false => simp [escaped, closing, balanced]
    | true => simp [escaped, closing, balanced, distinct]
  | cons item rest inductionHypothesis =>
    have split : escaped escape delimiter (item :: rest) =
        (if item = delimiter then [escape, delimiter] else [item]) ++
          escaped escape delimiter rest := rfl
    rw [split]
    by_cases slash : item = escape
    · subst slash
      cases odd with
      | false =>
        have pending := inductionHypothesis true
        simp only [if_true, List.cons_append, List.nil_append] at pending
        simp only [Bool.false_eq_true, if_false, if_neg distinct, List.nil_append,
          List.cons_append, balanced, if_true, Bool.not_false]
        exact pending
      | true =>
        have none := inductionHypothesis false
        simp only [Bool.false_eq_true, if_false, List.nil_append] at none
        simp only [if_true, if_neg distinct, List.cons_append, List.nil_append,
          closing_literal _ _ distinct, balanced, Bool.not_true]
        exact none
    · have none := inductionHypothesis false
      simp only [Bool.false_eq_true, if_false, List.nil_append] at none
      by_cases quote : item = delimiter
      · subst quote
        cases odd with
        | false =>
          simp only [Bool.false_eq_true, if_false, if_true, List.nil_append, List.cons_append,
            closing_literal _ _ distinct, balanced, slash, Bool.not_false, Bool.true_and]
          exact none
        | true =>
          simp [closing_literal _ _ distinct, closing_delimiter, balanced, slash]
      · cases odd with
        | false =>
          simp only [Bool.false_eq_true, if_false, if_neg quote, List.nil_append,
            List.cons_append, closing_other item _ quote slash, balanced, if_neg slash]
          exact none
        | true =>
          simp only [if_true, if_neg quote, List.cons_append, List.nil_append,
            closing_literal _ _ distinct, balanced, if_neg slash]
          exact none

end Reading

section Runs

/-- One more escape character at the end. -/
theorem trailing_escape (text : List α) :
    trailing escape (text ++ [escape]) = trailing escape text + 1 := by
  simp [trailing]

/-- Another item at the end. -/
theorem trailing_other (text : List α) (item : α) (other : item ≠ escape) :
    trailing escape (text ++ [item]) = 0 := by
  simp [trailing, other]

/-- The pass, behind a text that it has already seen, tests the runs before the delimiters and
the one at the end.

Proof: by induction on what is left. An item is moved to what has been seen; the only new
place in front of a delimiter is the one where it stands. -/
theorem balanced_iff (seen rest : List α) (distinct : escape ≠ delimiter) :
    balanced escape delimiter (decide (¬Even (trailing escape seen))) rest = true ↔
      (∀ before after, rest = before ++ delimiter :: after →
        Even (trailing escape (seen ++ before))) ∧ Even (trailing escape (seen ++ rest)) := by
  induction rest generalizing seen with
  | nil => simp [balanced]
  | cons item rest inductionHypothesis =>
    have later := inductionHypothesis (seen ++ [item])
    have moved : seen ++ item :: rest = seen ++ [item] ++ rest := by simp
    have places : (∀ before after, item :: rest = before ++ delimiter :: after →
        Even (trailing escape (seen ++ before))) ↔
          (item = delimiter → Even (trailing escape seen)) ∧
            ∀ before after, rest = before ++ delimiter :: after →
              Even (trailing escape (seen ++ [item] ++ before)) := by
      constructor
      · intro even
        constructor
        · rintro rfl
          simpa using even [] rest rfl
        · rintro before after rfl
          simpa using even (item :: before) after rfl
      · rintro ⟨here, behind⟩ before after cut
        cases before with
        | nil =>
          cases cut
          simpa using here rfl
        | cons first before =>
          cases cut
          simpa using behind before after rfl
    rw [places, moved, and_assoc, ← later]
    by_cases slash : item = escape
    · subst slash
      have parity : decide (¬Even (trailing item (seen ++ [item]))) =
          !decide (¬Even (trailing item seen)) := by
        rw [trailing_escape]
        simp only [Nat.even_add_one, decide_not]
      rw [parity]
      simp [balanced, distinct]
    · have none : decide (¬Even (trailing escape (seen ++ [item]))) = false := by
        simp [trailing_other seen item slash]
      rw [none]
      by_cases quote : item = delimiter
      · simp [balanced, quote, distinct.symm]
      · simp [balanced, slash, quote]

/-- Escaped text is closed by the delimiter behind it, exactly if there is an even number of
escape characters before each of its delimiters and at its end. -/
theorem escaped_closed_iff (text : List α) (distinct : escape ≠ delimiter) :
    closing escape delimiter (escaped escape delimiter text ++ [delimiter]) = some [] ↔
      EvenBefore escape delimiter text ∧ Even (trailing escape text) := by
  have read := closing_escaped distinct text false
  have runs := balanced_iff [] text distinct
  simp only [Bool.false_eq_true, if_false, List.nil_append] at read
  simp only [trailing, List.rtakeWhile_nil, List.length_nil, Even.zero, not_true_eq_false,
    decide_false, List.nil_append] at runs
  rw [read, runs]
  rfl

omit [DecidableEq α] in
/-- A delimiter that is not in the front is behind it. By induction on the front, none of whose
symbols can be the one that is cut at. -/
theorem cut_behind (front rest before after : List α) (plain : delimiter ∉ front)
    (cut : front ++ rest = before ++ delimiter :: after) :
    ∃ inside, before = front ++ inside ∧ rest = inside ++ delimiter :: after := by
  induction front generalizing before with
  | nil => exact ⟨before, rfl, cut⟩
  | cons item front inductionHypothesis =>
    simp only [List.mem_cons, not_or] at plain
    cases before with
    | nil =>
      cases cut
      exact absurd rfl plain.1
    | cons first before =>
      simp only [List.cons_append, List.cons.injEq] at cut
      obtain ⟨inside, same, behind⟩ := inductionHypothesis before plain.2 cut.2
      exact ⟨inside, by rw [cut.1, same, List.cons_append], behind⟩

omit [DecidableEq α] in
/-- A delimiter that is not in the back is before it. The induction is on the part before the
delimiter, with any front. -/
theorem cut_before (front back before after : List α) (plain : delimiter ∉ back)
    (cut : front ++ back = before ++ delimiter :: after) :
    ∃ inside, front = before ++ delimiter :: inside := by
  induction before generalizing front with
  | nil =>
    cases front with
    | nil => exact absurd (by simp [show back = delimiter :: after from cut]) plain
    | cons item front =>
      cases cut
      exact ⟨front, rfl⟩
  | cons first before inductionHypothesis =>
    cases front with
    | nil => exact absurd (by simp [show back = first :: before ++ delimiter :: after from cut]) plain
    | cons item front =>
      simp only [List.cons_append, List.cons.injEq] at cut
      obtain ⟨inside, same⟩ := inductionHypothesis front cut.2
      exact ⟨inside, by rw [cut.1, same, List.cons_append]⟩

/-- Text in front that has no escape character leaves the run at the end as it is.

Proof: by induction on the text from its end: the run goes back through it and ends in it or at the
front, which has no escape character. -/
theorem trailing_behind (front text : List α) (plain : escape ∉ front) :
    trailing escape (front ++ text) = trailing escape text := by
  induction text using List.reverseRecOn with
  | nil =>
    rw [List.append_nil]
    cases front using List.reverseRecOn with
    | nil => rfl
    | append_singleton front item =>
      have other : item ≠ escape := by
        rintro rfl
        exact plain (by simp)
      rw [trailing_other front item other]
      rfl
  | append_singleton text item inductionHypothesis =>
    rw [← List.append_assoc]
    by_cases slash : item = escape
    · rw [slash, trailing_escape, trailing_escape, inductionHypothesis]
    · rw [trailing_other _ item slash, trailing_other _ item slash]

/-- Text around a middle part does not change what is before its delimiters, if it has no
delimiter and no escape character stands in front. -/
theorem even_before_middle (front middle back : List α) (frontPlain : delimiter ∉ front)
    (frontEscape : escape ∉ front) (backPlain : delimiter ∉ back) :
    EvenBefore escape delimiter (front ++ middle ++ back) ↔ EvenBefore escape delimiter middle := by
  constructor
  · rintro even before after rfl
    have run := even (front ++ before) (after ++ back) (by simp)
    rwa [trailing_behind front before frontEscape] at run
  · intro even before after cut
    obtain ⟨later, inside⟩ := cut_before (front ++ middle) back before after backPlain cut
    obtain ⟨own, rfl, held⟩ := cut_behind front middle before later frontPlain inside
    rw [trailing_behind front own frontEscape]
    exact even own later held

end Runs

end QuotedWords
