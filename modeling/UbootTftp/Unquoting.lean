import UbootTftp.Protocol

/-!
# Percent-decoding of path segments

Decoding changes exactly the texts with a percent escape, which it makes shorter. An equals
sign is no hexadecimal digit and neither is a slash, so the two sides of a segment `key=value`
are decoded apart, and so are the segments of a path.
-/

namespace UbootTftp

/-- A text with a percent sign before two hexadecimal digits. -/
def Escaped (text : Text) : Prop :=
  ∃ before high low after, text = before ++ '%' :: high :: low :: after ∧
    percentOctet high low ≠ none

/-- A text with an escape has a percent sign. -/
theorem Escaped.percent {text : Text} (escaped : Escaped text) : '%' ∈ text := by
  obtain ⟨before, high, low, after, rfl, _⟩ := escaped
  simp

/-- An escape lies at the front or behind the first character. The escape of the first kind has its
two digits at the front of the rest. -/
theorem escaped_cons (character : Char) (text : Text) :
    Escaped (character :: text) ↔
      (character = '%' ∧ ∃ high low after, text = high :: low :: after ∧
        percentOctet high low ≠ none) ∨ Escaped text := by
  constructor
  · rintro ⟨before, high, low, after, shape, digits⟩
    cases before with
    | nil =>
      obtain ⟨rfl, rfl⟩ := List.cons.inj shape
      exact .inl ⟨rfl, high, low, after, rfl, digits⟩
    | cons first before =>
      obtain ⟨rfl, rfl⟩ := List.cons.inj shape
      exact .inr ⟨before, high, low, after, rfl, digits⟩
  · rintro (⟨rfl, high, low, after, rfl, digits⟩ | ⟨before, high, low, after, rfl, digits⟩)
    · exact ⟨[], high, low, after, rfl, digits⟩
    · exact ⟨character :: before, high, low, after, rfl, digits⟩

section Runs

variable (before pending : Bytes) (text : Text)

/-- An escape adds its octet to the run. -/
theorem unquote_run_escape (high low : Char) (octet : UInt8)
    (digits : percentOctet high low = some octet) :
    unquoteRun pending ('%' :: high :: low :: text) = unquoteRun (pending ++ [octet]) text := by
  rw [unquoteRun, digits]

/-- An ASCII character that begins no escape adds its octet to the run. -/
theorem unquote_run_plain (character : Char) (ascii : character.toNat < 0x80)
    (plain : ¬(character = '%' ∧ ∃ high low after, text = high :: low :: after ∧
      percentOctet high low ≠ none)) :
    unquoteRun pending (character :: text) =
      unquoteRun (pending ++ [UInt8.ofNat character.toNat]) text := by
  by_cases escape : character = '%' ∧ ∃ high low after, text = high :: low :: after
  · obtain ⟨rfl, high, low, after, rfl⟩ := escape
    have digits : percentOctet high low = none := by
      by_contra some
      exact plain ⟨rfl, high, low, after, rfl, some⟩
    rw [unquoteRun, digits]
  · rw [unquoteRun, if_pos ascii]
    rintro high low after rfl rfl
    exact escape ⟨rfl, high, low, after, rfl⟩

/-- Any other character ends the run. -/
theorem unquote_run_other (character : Char) (other : ¬character.toNat < 0x80) :
    unquoteRun pending (character :: text) =
      Utf8.decode pending ++ character :: unquoteRun [] text := by
  rw [unquoteRun, if_neg other]
  rintro high low after rfl rfl
  exact other (by decide)

/-- A pending ASCII octet is a character of its own, and the octets before it are decoded apart from
what follows.

Proof: by the recursion of the run, which ends with the text or at a character that is not ASCII;
there the pending octets are decoded, and those before the ASCII one on their own. -/
theorem unquote_run_ascii (character : Char) (ascii : character.toNat < 0x80) :
    unquoteRun (before ++ UInt8.ofNat character.toNat :: pending) text =
      Utf8.decode before ++ character :: unquoteRun pending text := by
  induction pending, text using unquoteRun.induct with
  | case1 pending => exact Utf8.decode_ascii before pending character ascii
  | case2 pending high low rest octet digits inductionHypothesis =>
    rw [unquote_run_escape _ _ high low octet digits, unquote_run_escape _ _ high low octet digits,
      ← inductionHypothesis, List.append_assoc, List.cons_append]
  | case3 pending high low rest digits inductionHypothesis =>
    have plain : ¬('%' = '%' ∧ ∃ first second after, high :: low :: rest = first :: second :: after ∧
        percentOctet first second ≠ none) := by
      rintro ⟨_, first, second, after, shape, some⟩
      cases shape
      exact some digits
    rw [unquote_run_plain _ _ '%' (by decide) plain, unquote_run_plain _ _ '%' (by decide) plain,
      ← inductionHypothesis, List.append_assoc, List.cons_append]
  | case4 pending other rest unescaped low inductionHypothesis =>
    have plain : ¬(other = '%' ∧ ∃ first second after, rest = first :: second :: after ∧
        percentOctet first second ≠ none) := by
      rintro ⟨same, first, second, after, shape, _⟩
      exact unescaped first second after same shape
    rw [unquote_run_plain _ _ other low plain, unquote_run_plain _ _ other low plain,
      ← inductionHypothesis, List.append_assoc, List.cons_append]
  | case5 pending other rest unescaped high _ =>
    rw [unquote_run_other _ _ other high, unquote_run_other _ _ other high,
      Utf8.decode_ascii _ _ _ ascii, List.append_assoc, List.cons_append]

/-- Text without an escape stays as it is. The octets that are pending are decoded first; by
induction on the text, with these left open. -/
theorem unquote_run_unescaped (unescaped : ¬Escaped text) :
    unquoteRun pending text = Utf8.decode pending ++ text := by
  induction text generalizing pending with
  | nil => rw [unquoteRun, List.append_nil]
  | cons character text inductionHypothesis =>
    obtain ⟨plain, rest⟩ := not_or.mp (mt (escaped_cons character text).mpr unescaped)
    by_cases ascii : character.toNat < 0x80
    · have single := unquote_run_ascii pending [] text character ascii
      rw [unquote_run_plain _ _ _ ascii plain, single, inductionHypothesis [] rest]
      rfl
    · rw [unquote_run_other _ _ _ ascii, inductionHypothesis [] rest]
      rfl

/-- Decoding lengthens nothing.

Proof: by the recursion of the run, since a text is decoded to no more characters than it has
octets. -/
theorem unquote_run_length : (unquoteRun pending text).length ≤ pending.length + text.length := by
  induction pending, text using unquoteRun.induct with
  | case1 pending =>
    rw [unquoteRun]
    exact Utf8.decode_length pending
  | case2 pending high low rest octet digits inductionHypothesis =>
    rw [unquote_run_escape _ _ high low octet digits]
    simp only [List.length_append, List.length_cons, List.length_nil] at *
    omega
  | case3 pending high low rest digits inductionHypothesis =>
    rw [unquoteRun, digits]
    simp only [List.length_append, List.length_cons, List.length_nil] at *
    omega
  | case4 pending other rest unescaped low inductionHypothesis =>
    rw [unquoteRun, if_pos low]
    · simp only [List.length_append, List.length_cons, List.length_nil] at *
      omega
    · exact unescaped
  | case5 pending other rest unescaped high inductionHypothesis =>
    have decoded := Utf8.decode_length pending
    rw [unquote_run_other _ _ other high]
    simp only [List.length_append, List.length_cons, List.length_nil] at *
    omega

/-- An escape makes a text shorter.

Proof: by induction on the text, along the run; what is pending is decoded to no more characters
than it has octets, and an escape adds one octet for three characters. -/
theorem unquote_run_shorter (escaped : Escaped text) :
    (unquoteRun pending text).length < pending.length + text.length := by
  induction text generalizing pending with
  | nil =>
    obtain ⟨before, high, low, after, shape, _⟩ := escaped
    simp at shape
  | cons character text inductionHypothesis =>
    by_cases front : character = '%' ∧ ∃ high low after, text = high :: low :: after ∧
        percentOctet high low ≠ none
    · obtain ⟨rfl, high, low, after, rfl, digits⟩ := front
      obtain ⟨octet, digits⟩ := Option.ne_none_iff_exists'.mp digits
      have length := unquote_run_length (pending ++ [octet]) after
      rw [unquote_run_escape _ _ high low octet digits]
      simp only [List.length_append, List.length_cons, List.length_nil] at *
      omega
    · have later := ((escaped_cons character text).mp escaped).resolve_left front
      by_cases ascii : character.toNat < 0x80
      · have shorter := inductionHypothesis (pending ++ [UInt8.ofNat character.toNat]) later
        rw [unquote_run_plain _ _ _ ascii front]
        simp only [List.length_append, List.length_cons, List.length_nil] at *
        omega
      · have shorter := inductionHypothesis [] later
        have decoded := Utf8.decode_length pending
        rw [unquote_run_other _ _ _ ascii]
        simp only [List.length_append, List.length_cons, List.length_nil] at *
        omega

end Runs

/-- Decoding is the run without pending octets, whether or not there is a percent sign. -/
theorem unquote_eq (text : Text) : unquote text = unquoteRun [] text := by
  unfold unquote
  split
  · rfl
  · rename_i plain
    exact (unquote_run_unescaped [] text fun escaped => plain escaped.percent).symm

/-- Decoding lengthens no text. -/
theorem unquote_length (text : Text) : (unquote text).length ≤ text.length := by
  have length := unquote_run_length [] text
  rw [unquote_eq]
  simpa using length

/-- An escape makes a text shorter. -/
theorem unquote_shorter (text : Text) (escaped : Escaped text) :
    (unquote text).length < text.length := by
  have length := unquote_run_shorter [] text escaped
  rw [unquote_eq]
  simpa using length

/-- A text without an escape is decoded to itself. -/
theorem unquote_unescaped (text : Text) (unescaped : ¬Escaped text) : unquote text = text := by
  rw [unquote_eq, unquote_run_unescaped [] text unescaped]
  rfl

/-- Exactly the texts with an escape change. A percent sign alone does no harm. -/
theorem unquote_fixed_iff (text : Text) : unquote text = text ↔ ¬Escaped text := by
  constructor
  · intro fixed escaped
    have shorter := unquote_shorter text escaped
    rw [fixed] at shorter
    exact absurd shorter (Nat.lt_irrefl _)
  · exact unquote_unescaped text

/-- The two sides of an ASCII character are decoded apart when no escape can hold it.

Proof: the decoder collects the octets of a run before it decodes them, and an ASCII octet ends
whatever incomplete sequence stands before it. -/
theorem unquote_separated (separator : Char) (ascii : separator.toNat < 0x80)
    (percent : separator ≠ '%') (digit : hexDigit separator = none) (front back : Text) :
    unquote (front ++ separator :: back) = unquote front ++ separator :: unquote back := by
  have split : ∀ pending, unquoteRun pending (front ++ separator :: back) =
      unquoteRun pending front ++ separator :: unquoteRun [] back := by
    intro pending
    induction pending, front using unquoteRun.induct with
    | case1 pending =>
      rw [List.nil_append, unquote_run_plain _ _ separator ascii (fun both => percent both.1),
        unquote_run_ascii _ _ _ separator ascii, unquoteRun]
    | case2 pending high low rest octet digits inductionHypothesis =>
      rw [List.cons_append, List.cons_append, List.cons_append,
        unquote_run_escape _ _ high low octet digits, unquote_run_escape _ _ high low octet digits,
        inductionHypothesis]
    | case3 pending high low rest digits inductionHypothesis =>
      rw [List.cons_append, List.cons_append, List.cons_append, unquoteRun, unquoteRun, digits]
      exact inductionHypothesis
    | case4 pending other rest unescaped low inductionHypothesis =>
      have plain : ¬(other = '%' ∧ ∃ first second after, rest = first :: second :: after ∧
          percentOctet first second ≠ none) := by
        rintro ⟨same, first, second, after, shape, _⟩
        exact unescaped first second after same shape
      -- The separator is no hexadecimal digit, so no escape reaches across it.
      have across : ¬(other = '%' ∧ ∃ first second after,
          rest ++ separator :: back = first :: second :: after ∧
            percentOctet first second ≠ none) := by
        rintro ⟨same, first, second, after, shape, digits⟩
        match rest with
        | [] =>
          cases shape
          simp [percentOctet, digit] at digits
        | [only] =>
          cases shape
          simp [percentOctet, digit] at digits
        | high :: second :: rest =>
          exact unescaped high second rest same rfl
      rw [List.cons_append, unquote_run_plain _ _ other low across,
        unquote_run_plain _ _ other low plain, inductionHypothesis]
    | case5 pending other rest unescaped high inductionHypothesis =>
      rw [List.cons_append, unquote_run_other _ _ other high, unquote_run_other _ _ other high,
        inductionHypothesis, List.append_assoc, List.cons_append]
  rw [unquote_eq, unquote_eq, unquote_eq, split]

/-- The two sides of an equals sign are decoded apart. -/
theorem unquote_entry (key value : Text) :
    unquote (key ++ '=' :: value) = unquote key ++ '=' :: unquote value :=
  unquote_separated '=' (by decide) (by decide) (by decide) key value

/-- The two sides of a slash are decoded apart. -/
theorem unquote_slash (front back : Text) :
    unquote (front ++ '/' :: back) = unquote front ++ '/' :: unquote back :=
  unquote_separated '/' (by decide) (by decide) (by decide) front back

/-- Segments joined by slashes are decoded apart. Neither an escape nor an encoded character reaches
over a slash. -/
theorem unquote_joined (segments : List Text) :
    unquote (List.intercalate ['/'] segments) =
      List.intercalate ['/'] (segments.map unquote) := by
  induction segments with
  | nil => rfl
  | cons segment segments inductionHypothesis =>
    cases segments with
    | nil => simp
    | cons next segments =>
      rw [List.map_cons, List.map_cons, List.intercalate_cons_cons, List.intercalate_cons_cons,
        List.append_assoc, List.append_assoc, List.singleton_append, List.singleton_append,
        unquote_slash, inductionHypothesis, List.map_cons]

end UbootTftp
