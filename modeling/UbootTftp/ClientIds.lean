import UbootTftp.Casing
import UbootTftp.StaticTargets

/-!
# The ids of session requests

The id of a session request is decoded, put in lower case and matched with a pattern whose end
anchor also matches before a trailing newline. An id is made of lower-case ASCII letters, digits,
underscores and hyphens, unless the decoded id is a well-formed one followed by a newline: the
newline is then part of the client id, and of the commands that the id is written into.
-/

namespace UbootTftp

/-- A filename that is a session request of a client. -/
def NamesClient (filename : Text) (client : ClientId) : Prop :=
  ∃ parsed, parseRequestPath filename = .ok parsed ∧ parsed.clientId = some client

/-- The characters of a clean id. -/
def CleanIdChar (character : Char) : Prop :=
  ('a' ≤ character ∧ character ≤ 'z') ∨ ('0' ≤ character ∧ character ≤ '9') ∨ character = '_' ∨
    character = '-'

instance (character : Char) : Decidable (CleanIdChar character) :=
  inferInstanceAs (Decidable (_ ∨ _))

/-- What a session request's id is: text of clean characters, which normalizing leaves as it is,
which does not depend on the case of ASCII letters, whether they are compared as the filename writes
them or as they are decoded, and in whose place `ValueError` is raised.

Each field is about every client that the filename names, so that a filename that is no session
request satisfies all but the last. -/
structure CleanId (filename : Text) : Prop where
  characters : ∀ client, NamesClient filename client →
    client.text ≠ [] ∧ ∀ character ∈ client.text, CleanIdChar character
  quoted : ∀ client, NamesClient filename client → '"' ∉ client.text ∧ '\n' ∉ client.text
  normal : ∀ client, NamesClient filename client → normalizeClientId client.text = .ok client
  decoded : ∀ other value otherValue, requestedId filename = some value →
    requestedId other = some otherValue → SameButCase value otherValue →
    ∀ client, NamesClient filename client ↔ NamesClient other client
  written : ∀ other part otherPart,
    (segments filename).head? = some ("id=".toList ++ part) →
    (segments other).head? = some ("id=".toList ++ otherPart) → SameButCase part otherPart →
    ∀ client, NamesClient filename client ↔ NamesClient other client
  refused : ∀ value, requestedId filename = some value →
    (∀ client, ¬NamesClient filename client) →
    ∃ raised, parseRequestPath filename = .error raised ∧ raised.cls = .valueError

section Naming

/-- An id is normalized to its lower case. That the lower case is well formed need not be said,
since a client id carries it. -/
theorem normalize_ok_iff (value : Text) (client : ClientId) :
    normalizeClientId value = .ok client ↔ Text.lower value = client.text := by
  unfold normalizeClientId
  constructor
  · intro normalized
    split at normalized
    · cases normalized
      rfl
    · cases normalized
  · intro same
    rw [dif_pos (same ▸ client.accepted)]
    exact congrArg Except.ok (ClientId.text_injective _ _ same)

/-- The parser takes the first segment for an id, or finds none. An id that cannot be normalized
therefore fails the whole request, whatever stands in the segments behind it. -/
theorem parse_named (filename : Text) (value : Text) (named : requestedId filename = some value) :
    (∀ client, normalizeClientId value = .ok client → NamesClient filename client) ∧
      ∀ raised, normalizeClientId value = .error raised →
        parseRequestPath filename = .error raised := by
  simp only [NamesClient, parseRequestPath, requestedId] at named ⊢
  generalize ((((Sequences.strip (· == '/') filename).splitOn '/').filter
    (fun segment => decide (segment ≠ []))).map unquote) = segments at named ⊢
  cases segments with
  | nil => cases named
  | cons first rest =>
    by_cases entry : (Sequences.partition '=' first).1 = "id".toList ∧
        (Sequences.partition '=' first).2.1 = true
    · simp only [entry, and_self, if_true, Option.some.injEq] at named ⊢
      subst named
      constructor
      · intro client normalized
        rw [normalized]
        exact ⟨_, rfl, rfl⟩
      · intro raised refused
        rw [refused]
    · simp only [entry, if_false] at named
      cases named

/-- A session request is one whose id is normalized. Normalizing is lower-casing and a check of the
result, so the equation says both that the check passes and which client it gives. -/
theorem names_client_iff (filename : Text) (client : ClientId) :
    NamesClient filename client ↔
      ∃ value, requestedId filename = some value ∧ Text.lower value = client.text := by
  constructor
  · rintro ⟨parsed, parse, names⟩
    cases named : requestedId filename with
    | none =>
      obtain ⟨other, again, unnamed⟩ := (bare_iff filename).mpr named
      cases parse.symm.trans again
      rw [names] at unnamed
      cases unnamed
    | some value =>
      refine ⟨value, rfl, ?_⟩
      cases normalized : normalizeClientId value with
      | error raised => cases ((parse_named filename value named).2 raised normalized).symm.trans parse
      | ok found =>
        obtain ⟨other, again, same⟩ := (parse_named filename value named).1 found normalized
        cases parse.symm.trans again
        cases names.symm.trans same
        exact (normalize_ok_iff value client).mp normalized
  · rintro ⟨value, named, same⟩
    exact (parse_named filename value named).1 client ((normalize_ok_iff value client).mpr same)

/-- An id that is not accepted raises `ValueError`. The name of the exception is the class that the
caller looks at. -/
theorem unnamed_refused (filename value : Text) (named : requestedId filename = some value)
    (unnamed : ∀ client, ¬NamesClient filename client) :
    ∃ raised, parseRequestPath filename = .error raised ∧ raised.cls = .valueError := by
  cases normalized : normalizeClientId value with
  | ok client =>
    exact absurd ((parse_named filename value named).1 client normalized) (unnamed client)
  | error raised =>
    refine ⟨raised, (parse_named filename value named).2 raised normalized, ?_⟩
    unfold normalizeClientId at normalized
    split at normalized
    · cases normalized
    · cases normalized
      rfl

/-- Ids that differ in ASCII letter case only name the same client. -/
theorem names_same_case (filename other value otherValue : Text)
    (named : requestedId filename = some value) (otherNamed : requestedId other = some otherValue)
    (same : SameButCase value otherValue) (client : ClientId) :
    NamesClient filename client ↔ NamesClient other client := by
  have lowered := lower_same_case value otherValue same
  simp only [names_client_iff, named, otherNamed, Option.some.injEq, exists_eq_left', lowered]

/-- Behind `id=` the first segment of a filename is the id, once it is decoded. -/
theorem requested_id_written (filename part : Text)
    (first : (segments filename).head? = some ("id=".toList ++ part)) :
    requestedId filename = some (unquote part) := by
  have raw : ((Sequences.strip (· == '/') filename).splitOn '/').filter
      (fun segment => decide (segment ≠ [])) = segments filename := segments_strip filename
  have entry : unquote ("id=".toList ++ part) = "id".toList ++ '=' :: unquote part :=
    unquote_entry "id".toList part
  have cut := Sequences.partition_append '=' "id".toList (unquote part) (by decide)
  obtain ⟨rest, shape⟩ := List.head?_eq_some_iff.mp first
  simp only [requestedId, raw, shape, List.map_cons, entry, cut, and_self, if_true]

end Naming

section Characters

/-- A newline at the end of a lower-cased id comes from one at the end of the id. The newline is its
own lower case, and nothing else is lowered to a text that ends in one. -/
theorem lower_newline (value front : Text) (ended : Text.lower value = front ++ ['\n']) :
    ∃ body, value = body ++ ['\n'] ∧ Text.lower body = front := by
  rcases List.eq_nil_or_concat value with rfl | ⟨body, last, rfl⟩
  · exact absurd ended (by simp [Text.lower])
  · have split : Text.lower (body ++ [last]) = Text.lower body ++ Text.lowerChar last := by
      simp [Text.lower]
    rw [List.concat_eq_append] at ended ⊢
    rw [split] at ended
    by_cases kelvin : last = Char.ofNat 0x212A
    · subst kelvin
      have ends := congrArg List.getLast? ended
      simp [Text.lowerChar] at ends
    · by_cases dotted : last = Char.ofNat 0x130
      · subst dotted
        have ends := congrArg List.getLast? ended
        simp [Text.lowerChar] at ends
      · rw [Text.lowerChar, if_neg kelvin, if_neg dotted] at ended
        obtain ⟨same, newline⟩ := List.append_inj' ended rfl
        refine ⟨body, ?_, same⟩
        rcases Text.toLower_cases last with ⟨_, _, moved⟩ | ⟨_, kept⟩
        · rw [List.singleton_inj.mp newline] at moved
          exact absurd moved (by have : '\n'.toNat = 10 := rfl; omega)
        · rw [← kept, List.singleton_inj.mp newline]

/-- A character of the pattern that is no capital is clean. What is left of the pattern are the
small letters, the digits, the underscore and the hyphen. -/
theorem clean_id_character (character : Char) (matched : isClientIdChar character = true)
    (small : ¬(65 ≤ character.toNat ∧ character.toNat ≤ 90)) : CleanIdChar character := by
  have shape : isClientIdChar character =
      (character.isUpper || character.isLower || character.isDigit || character == '_' ||
        character == '-') := rfl
  rw [shape] at matched
  simp only [Bool.or_eq_true, beq_iff_eq] at matched
  rcases matched with (((upper | lower) | digit) | score) | hyphen
  · exact absurd (of_decide_eq_true upper) small
  · obtain ⟨low, high⟩ := (Bool.and_eq_true _ _).mp lower
    exact .inl ⟨of_decide_eq_true low, of_decide_eq_true high⟩
  · obtain ⟨low, high⟩ := (Bool.and_eq_true _ _).mp digit
    exact .inr (.inl ⟨of_decide_eq_true low, of_decide_eq_true high⟩)
  · exact .inr (.inr (.inl score))
  · exact .inr (.inr (.inr hyphen))

/-- An id that does not end in a newline is clean. -/
theorem clean_client_id (client : ClientId) (unended : client.text.getLast? ≠ some '\n') :
    client.text ≠ [] ∧ ∀ character ∈ client.text, CleanIdChar character := by
  have accepted := client.accepted
  simp only [clientIdMatches, if_neg unended, Bool.and_eq_true, decide_eq_true_eq,
    List.all_eq_true] at accepted
  refine ⟨accepted.1, fun character member => clean_id_character character
    (accepted.2 character member) ?_⟩
  rw [← client.lowered] at member
  exact lower_capital _ _ member

/-- A well-formed id with a newline behind it is accepted with the newline. The end anchor of the
pattern also matches in front of a newline, and the newline is not cut off. -/
theorem newline_accepted (filename body : Text)
    (named : requestedId filename = some (body ++ ['\n'])) (present : Text.lower body ≠ [])
    (matched : (Text.lower body).all isClientIdChar = true) :
    ∃ client, NamesClient filename client ∧ '\n' ∈ client.text := by
  have lowered : Text.lower (body ++ ['\n']) = Text.lower body ++ ['\n'] := by
    rw [Text.lower, List.flatMap_append]
    rfl
  have accepted : clientIdMatches (Text.lower (body ++ ['\n'])) = true := by
    simp [clientIdMatches, lowered, present, matched]
  exact ⟨⟨_, Text.lower_lower _, accepted⟩, (names_client_iff _ _).mpr ⟨_, named, rfl⟩,
    by simp [lowered]⟩

/-- A client that is named with a newline at its end is named by a well-formed id with a newline
behind it. -/
theorem newline_named (filename : Text) (client : ClientId) (names : NamesClient filename client)
    (last : client.text.getLast? = some '\n') :
    ∃ body, requestedId filename = some (body ++ ['\n']) ∧ Text.lower body ≠ [] ∧
      (Text.lower body).all isClientIdChar = true := by
  obtain ⟨value, named, same⟩ := (names_client_iff filename client).mp names
  obtain ⟨front, ended⟩ := List.getLast?_eq_some_iff.mp last
  obtain ⟨body, rfl, lowered⟩ := lower_newline value front (same.trans ended)
  have accepted := client.accepted
  simp only [clientIdMatches, ended, List.getLast?_concat, if_true, List.dropLast_concat,
    Bool.and_eq_true, decide_eq_true_eq] at accepted
  exact ⟨body, named, lowered ▸ accepted⟩

end Characters

/-- The id of a filename is clean exactly when the decoded id is not a well-formed one followed by a
newline.

Proof: the pattern's end anchor is the only place where a character outside the class can come in,
and the lower case of a text ends in a newline only if the text does. -/
theorem clean_id_iff (filename : Text) :
    CleanId filename ↔ ¬∃ body, requestedId filename = some (body ++ ['\n']) ∧
      Text.lower body ≠ [] ∧ (Text.lower body).all isClientIdChar = true := by
  constructor
  · rintro clean ⟨body, named, present, matched⟩
    obtain ⟨client, names, newline⟩ := newline_accepted filename body named present matched
    exact (clean.quoted client names).2 newline
  · intro unended
    have characters : ∀ client, NamesClient filename client →
        client.text ≠ [] ∧ ∀ character ∈ client.text, CleanIdChar character :=
      fun client names => clean_client_id client fun last =>
        unended (newline_named filename client names last)
    refine ⟨characters, ?_, fun client _ => normalize_again client, ?_, ?_,
      unnamed_refused filename⟩
    · intro client names
      have clean := (characters client names).2
      exact ⟨fun quote => absurd (clean _ quote) (by decide),
        fun newline => absurd (clean _ newline) (by decide)⟩
    · exact fun other value otherValue => names_same_case filename other value otherValue
    · intro other part otherPart first otherFirst same
      exact names_same_case filename other _ _ (requested_id_written filename part first)
        (requested_id_written other otherPart otherFirst) (unquote_same_case part otherPart same)

/-- The id `cam%0A` is accepted with its newline, which then breaks the line of the command that
continues the session. -/
theorem newline_id_accepted :
    let client : ClientId := ⟨"cam\n".toList, by decide, by decide⟩
    let session : ClientSession Unit := { ClientSession.create client with
      currentToken := some "tok".toList
      env := sampleConfig.env }
    NamesClient "id=cam%0A".toList client ∧
      continueCommand session none [] = .ok
        ("if tftpboot $\x7bloadaddr\x7d \"127.0.0.1:id=cam\n/token=tok\"; ".toList ++
          "then source $\x7bloadaddr\x7d; ".toList ++
          "else echo \"uboot-tftp: continuation RRQ failed\"; fi".toList) ∧
      ¬CleanId "id=cam%0A".toList := by
  intro client session
  have names : NamesClient "id=cam%0A".toList client :=
    ⟨⟨"id=cam%0A".toList, some client, ['/'], [], Dict.empty⟩, by decide +kernel, rfl⟩
  exact ⟨names, by decide +kernel, fun clean => (clean.quoted client names).2 (by decide)⟩

end UbootTftp
