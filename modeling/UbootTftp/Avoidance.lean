import UbootTftp.Sequences

/-!
# Texts that avoid a pattern

A pattern can occur in a concatenation without occurring in either part, across the seam. It
cannot when the first part ends in no proper front of the pattern, or when the second part
begins with symbols that continue no front of it. Texts that are composed of fixed parts and
arbitrary ones are therefore described by a template: whether the seams of a template are
closed is decided once, and then it avoids the patterns whenever its arbitrary parts do.
-/

namespace Sequences

universe u
variable {α : Type u}

/-- No pattern occurs in the text. -/
def Clear (patterns : List (List α)) (text : List α) : Prop :=
  ∀ pattern ∈ patterns, ¬pattern <:+: text

/-- No proper front of the pattern ends the text. -/
def Closed (pattern text : List α) : Prop :=
  ∀ cut < pattern.length, 0 < cut → ¬pattern.take cut <:+ text

/-- What begins with these symbols continues no proper front of the pattern. -/
def Blocks (pattern text : List α) : Prop :=
  ∀ cut < pattern.length, 0 < cut → ¬pattern.drop cut <+: text ∧ ¬text <+: pattern.drop cut

/-- A pattern occurs in one of two parts or across their seam. In the last case the pattern is cut
in two pieces, neither of which is empty, of which the first ends the first part and the second
begins the second one. -/
theorem infix_append_cases (pattern first second : List α) (occurs : pattern <:+: first ++ second) :
    pattern <:+: first ∨ pattern <:+: second ∨ ∃ cut < pattern.length, 0 < cut ∧
      pattern.take cut <:+ first ∧ pattern.drop cut <+: second := by
  obtain ⟨before, after, split⟩ := occurs
  rw [List.append_assoc, List.append_eq_append_iff] at split
  rcases split with ⟨front, rfl, later⟩ | ⟨between, rfl, rfl⟩
  · rcases List.append_eq_append_iff.mp later with ⟨rest, rfl, rfl⟩ | ⟨back, rfl, rfl⟩
    · exact .inl ⟨before, rest, by simp⟩
    · cases front with
      | nil => exact .inr (.inl ⟨[], after, by simp⟩)
      | cons item front =>
        cases back with
        | nil => exact .inl ⟨before, [], by simp⟩
        | cons other back =>
          refine .inr (.inr ⟨(item :: front).length, by simp, by simp, ?_, ?_⟩)
          · simp
          · simp
  · exact .inr (.inl ⟨between, after, by simp⟩)

variable {patterns : List (List α)}

/-- What is a part of a clear text is clear. -/
theorem Clear.part {text : List α} (clear : Clear patterns text) {inner : List α}
    (inside : inner <:+: text) : Clear patterns inner :=
  fun pattern member occurs => clear pattern member (occurs.trans inside)

/-- A text without a symbol that all patterns have is clear. -/
theorem clear_without (symbol : α) (text : List α) (free : symbol ∉ text)
    (everywhere : ∀ pattern ∈ patterns, symbol ∈ pattern) : Clear patterns text :=
  fun pattern member occurs => free (occurs.subset (everywhere pattern member))

/-- Two clear parts make a clear text when the first one is closed. -/
theorem Clear.append {first second : List α} (clear : Clear patterns first)
    (closed : ∀ pattern ∈ patterns, Closed pattern first) (rest : Clear patterns second) :
    Clear patterns (first ++ second) := by
  intro pattern member occurs
  rcases infix_append_cases pattern first second occurs with front | back |
    ⟨cut, within, present, ends, -⟩
  · exact clear pattern member front
  · exact rest pattern member back
  · exact closed pattern member cut within present ends

/-- Two clear parts make a clear text when the second one begins with blocking symbols. A pattern
that lay across the seam would have to go on into the symbols that block it. -/
theorem Clear.append_blocked {first blocking rest : List α} (clear : Clear patterns first)
    (blocks : ∀ pattern ∈ patterns, Blocks pattern blocking)
    (later : Clear patterns (blocking ++ rest)) : Clear patterns (first ++ (blocking ++ rest)) := by
  intro pattern member occurs
  rcases infix_append_cases pattern first _ occurs with front | back |
    ⟨cut, within, present, -, begins⟩
  · exact clear pattern member front
  · exact later pattern member back
  · obtain ⟨longer, shorter⟩ := blocks pattern member cut within present
    rcases List.prefix_or_prefix_of_prefix begins (List.prefix_append blocking rest) with
      short | long
    · exact longer short
    · exact shorter long

/-- A foreign symbol between two clear parts keeps them apart. No pattern holds the symbol, so none
can lie across it. -/
theorem Clear.seam {first second : List α} (clear : Clear patterns first) (symbol : α)
    (foreign : ∀ pattern ∈ patterns, symbol ∉ pattern) (rest : Clear patterns second) :
    Clear patterns (first ++ symbol :: second) := by
  have blocks : ∀ pattern ∈ patterns, Blocks pattern [symbol] := by
    intro pattern member cut within present
    constructor
    · intro begins
      cases dropped : pattern.drop cut with
      | nil => exact absurd (List.drop_eq_nil_iff.mp dropped) (by omega)
      | cons item items =>
        rw [dropped, List.cons_prefix_cons] at begins
        exact foreign pattern member (begins.1 ▸ List.drop_subset cut pattern (by simp [dropped]))
    · intro begins
      exact foreign pattern member (List.drop_subset cut pattern (begins.subset (by simp)))
  apply clear.append_blocked blocks
  intro pattern member occurs
  rcases List.infix_cons_iff.mp occurs with begins | later
  · cases pattern with
    | nil => exact rest [] member List.nil_infix
    | cons item items =>
      rw [List.cons_prefix_cons] at begins
      exact foreign _ member (by simp [begins.1])
  · exact rest pattern member later

section Escapes

variable [DecidableEq α]

/-- Put an escape before every mark. -/
def escaped (escape mark : α) (text : List α) : List α :=
  text.flatMap (fun item => if item = mark then [escape, mark] else [item])

/-- A text that begins an escaped one and has neither of its symbols begins the text.

Proof: by induction on the text; the escape symbol that is put in front of a delimiter is one of the
two symbols, so the pattern ends before it. -/
theorem escaped_prefix (escape mark : α) (text pattern : List α) (foreignEscape : escape ∉ pattern)
    (foreignMark : mark ∉ pattern) (begins : pattern <+: escaped escape mark text) :
    pattern <+: text := by
  induction text generalizing pattern with
  | nil => simpa [escaped] using begins
  | cons item text inductionHypothesis =>
    cases pattern with
    | nil => exact List.nil_prefix
    | cons first pattern =>
      simp only [escaped, List.flatMap_cons] at begins
      split at begins
      · rw [List.cons_append, List.cons_prefix_cons] at begins
        simp [begins.1] at foreignEscape
      · rw [List.singleton_append, List.cons_prefix_cons] at begins
        rw [List.cons_prefix_cons]
        refine ⟨begins.1, inductionHypothesis pattern ?_ ?_ begins.2⟩
        · exact fun member => foreignEscape (List.mem_cons_of_mem _ member)
        · exact fun member => foreignMark (List.mem_cons_of_mem _ member)

/-- Escaping brings about no pattern of other symbols. The induction is on the text: an escape in
front of a symbol is in no pattern, and neither is the symbol it stands in front of. -/
theorem Clear.escaped {text : List α} (clear : Clear patterns text) (escape mark : α)
    (foreign : ∀ pattern ∈ patterns, escape ∉ pattern ∧ mark ∉ pattern) :
    Clear patterns (Sequences.escaped escape mark text) := by
  intro pattern member
  obtain ⟨foreignEscape, foreignMark⟩ := foreign pattern member
  have apart := clear pattern member
  clear clear
  induction text with
  | nil => exact apart
  | cons item text inductionHypothesis =>
    intro occurs
    have later : ¬pattern <:+: Sequences.escaped escape mark text :=
      inductionHypothesis fun inside => apart (inside.trans (List.infix_cons (List.infix_refl _)))
    by_cases marked : item = mark
    · simp only [Sequences.escaped, List.flatMap_cons, if_pos marked, List.cons_append,
        List.nil_append] at occurs
      rcases List.infix_cons_iff.mp occurs with begins | occurs
      · cases pattern with
        | nil => exact apart List.nil_infix
        | cons first pattern =>
          rw [List.cons_prefix_cons] at begins
          simp [begins.1] at foreignEscape
      · rcases List.infix_cons_iff.mp occurs with begins | occurs
        · cases pattern with
          | nil => exact apart List.nil_infix
          | cons first pattern =>
            rw [List.cons_prefix_cons] at begins
            simp [begins.1] at foreignMark
        · exact later occurs
    · have whole : pattern <:+: item :: Sequences.escaped escape mark text := by
        simpa [Sequences.escaped, List.flatMap_cons, if_neg marked] using occurs
      rcases List.infix_cons_iff.mp whole with begins | occurs
      · apply apart
        apply List.IsPrefix.isInfix
        apply escaped_prefix escape mark (item :: text) pattern foreignEscape foreignMark
        simpa [Sequences.escaped, List.flatMap_cons, if_neg marked] using begins
      · exact later occurs

end Escapes

variable [DecidableEq α]

/-- A template: fixed parts, and holes for arbitrary ones. -/
abbrev Template (α : Type u) := List (Option (List α))

/-- Put texts into the holes. A hole without a text stays empty, and texts that are left over are
dropped. -/
def Template.fill : Template α → List (List α) → List α
  | [], _ => []
  | some part :: rest, holes => part ++ Template.fill rest holes
  | none :: rest, [] => Template.fill rest []
  | none :: rest, hole :: holes => hole ++ Template.fill rest holes

/-- Whether the fixed parts are clear and every seam is closed. It is decidable, so that a fixed
template is checked once by evaluation, for any texts in its holes. -/
def Template.tight (patterns : List (List α)) : Template α → Bool
  | [] => true
  | [none] => true
  | none :: none :: _ => false
  | none :: some part :: rest =>
    decide (∀ pattern ∈ patterns, ∀ cut < pattern.length, 0 < cut →
      ¬pattern.drop cut <+: part ∧ ¬part <+: pattern.drop cut) &&
      Template.tight patterns (some part :: rest)
  | some part :: rest =>
    decide (∀ pattern ∈ patterns, ¬pattern <:+: part ∧
      ∀ cut < pattern.length, 0 < cut → ¬pattern.take cut <:+ part) &&
      Template.tight patterns rest

/-- A tight template with clear texts in its holes is clear.

Proof: by the recursion of the filling. Behind each hole the template goes on with a text that no
pattern can reach over. -/
theorem Template.fill_clear (template : Template α) (tight : template.tight patterns = true)
    (present : [] ∉ patterns) (holes : List (List α))
    (clear : ∀ hole ∈ holes, Clear patterns hole) : Clear patterns (template.fill holes) := by
  have empty : Clear patterns ([] : List α) := by
    intro pattern member occurs
    exact present (List.infix_nil.mp occurs ▸ member)
  induction template, holes using Template.fill.induct with
  | case1 holes => exact empty
  | case2 part rest holes inductionHypothesis =>
    simp only [Template.tight, Bool.and_eq_true, decide_eq_true_eq] at tight
    rw [Template.fill]
    apply Clear.append
    · exact fun pattern member => (tight.1 pattern member).1
    · exact fun pattern member => (tight.1 pattern member).2
    · exact inductionHypothesis tight.2 clear
  | case3 rest inductionHypothesis =>
    rw [Template.fill]
    apply inductionHypothesis ?_ clear
    cases rest with
    | nil => rfl
    | cons next rest =>
      cases next with
      | none => simp [Template.tight] at tight
      | some part =>
        simp only [Template.tight, Bool.and_eq_true] at tight ⊢
        exact tight.2
  | case4 rest hole holes inductionHypothesis =>
    obtain ⟨here, others⟩ := List.forall_mem_cons.mp clear
    rw [Template.fill]
    cases rest with
    | nil => simpa [Template.fill] using here
    | cons next rest =>
      cases next with
      | none => simp [Template.tight] at tight
      | some part =>
        have later : Template.tight patterns (some part :: rest) = true := by
          simp only [Template.tight, Bool.and_eq_true] at tight ⊢
          exact tight.2
        simp only [Template.tight, Bool.and_eq_true, decide_eq_true_eq] at tight
        have filled := inductionHypothesis later others
        rw [Template.fill] at filled ⊢
        exact here.append_blocked tight.1 filled

end Sequences
