import UbootTftp.PartitionSizes

/-!
# Layouts that variables specify

A variable specifies a layout when its first two partitions are the boot and the environment
partition and their sizes are numbers. The reader converts the size of every partition: a token
that is no size raises, and neither a later variable nor the markers are tried then.
-/

namespace UbootTftp

section Specifications

/-- The partitions of a specification: what the pattern of an entry finds behind the colon. -/
def specEntries (spec : Text) : List (Text × Text) :=
  Sequences.finditer mtdpartsEntryAt (Sequences.partition ':' spec).2.2

/-- The first two partitions are the boot and the environment partition, with these sizes. -/
def FirstTwo (entries : List (Text × Text)) (layout : Int × Int) : Prop :=
  ∃ boot env rest, entries = boot :: env :: rest ∧
    Text.lower (Text.strip boot.2) = "boot".toList ∧ Text.lower (Text.strip env.2) = "env".toList ∧
    NumericSize boot.1 layout.1 ∧ NumericSize env.1 layout.2

/-- A variable specifies a layout: its value holds a specification whose first two partitions are
the boot and the environment partition, and their sizes are numbers. The sizes of the other
partitions do not take part in this. -/
def Specifies (env : Env) (key : Text) (layout : Int × Int) : Prop :=
  ∃ value spec, env.get key = some value ∧ extractMtdpartsSpec value = some spec ∧
    FirstTwo (specEntries spec) layout

/-- Every size in the specification of a variable can be converted, also those of partitions that no
layout is taken from. -/
def WellSized (env : Env) (key : Text) : Prop :=
  ∀ value spec, env.get key = some value → extractMtdpartsSpec value = some spec →
    ∀ entry ∈ specEntries spec, Convertible entry.1

/-- The first entry is read before the others. -/
theorem parse_entries_cons (entry : Text × Text) (entries : List (Text × Text)) :
    parseEntries (entry :: entries) = (parseSizeToken entry.1).bind fun size =>
      (parseEntries entries).map ((size, Text.lower (Text.strip entry.2)) :: ·) := by
  obtain ⟨token, name⟩ := entry
  simp only [parseEntries, List.mapM_cons]
  cases parseSizeToken token with
  | error raised => rfl
  | ok size => rfl

/-- Entries are read one by one.

Proof: by induction on the entries, which are read from the first one on. -/
theorem parse_entries_iff (entries : List (Text × Text)) (read : List (Option Int × Text)) :
    parseEntries entries = .ok read ↔
      List.Forall₂ (fun entry item => parseSizeToken entry.1 = .ok item.1 ∧
        item.2 = Text.lower (Text.strip entry.2)) entries read := by
  induction entries generalizing read with
  | nil =>
    rw [List.forall₂_nil_left_iff]
    constructor
    · intro done
      cases done
      rfl
    · rintro rfl
      rfl
  | cons entry entries inductionHypothesis =>
    rw [parse_entries_cons, List.forall₂_cons_left_iff]
    cases converted : parseSizeToken entry.1 with
    | error raised => simp [Except.bind]
    | ok size =>
      cases others : parseEntries entries with
      | error raised =>
        simp only [Except.bind, Except.map, reduceCtorEq, false_iff]
        rintro ⟨item, items, _, later, _⟩
        rw [(inductionHypothesis items).mpr later] at others
        cases others
      | ok items =>
        simp only [Except.bind, Except.map, Except.ok.injEq]
        constructor
        · rintro rfl
          exact ⟨_, items, ⟨rfl, rfl⟩, (inductionHypothesis items).mp others, rfl⟩
        · rintro ⟨⟨first, name⟩, rest, ⟨same, rfl⟩, later, rfl⟩
          have again := (inductionHypothesis rest).mpr later
          rw [others] at again
          cases again
          cases same
          rfl

/-- Entries are read exactly when all of their sizes can be converted. The induction is on the
entries; reading stops at the first size that raises. -/
theorem parse_entries_convertible (entries : List (Text × Text)) :
    (∃ read, parseEntries entries = .ok read) ↔ ∀ entry ∈ entries, Convertible entry.1 := by
  induction entries with
  | nil =>
    constructor
    · intro _ _ member
      cases member
    · exact fun _ => ⟨[], rfl⟩
  | cons entry entries inductionHypothesis =>
    rw [List.forall_mem_cons, ← inductionHypothesis, convertible_iff, parse_entries_cons]
    cases parseSizeToken entry.1 with
    | error raised => simp [Except.bind]
    | ok size =>
      cases parseEntries entries with
      | error raised => simp [Except.bind, Except.map]
      | ok read => simp [Except.bind, Except.map]

/-- A specification is read exactly when the sizes of all of its partitions can be converted. The
conversion is tried for one entry after another, and the first that fails ends the reading. -/
theorem parse_spec_sized (spec : Text) (separated : ':' ∈ spec) :
    (∃ layout, parseMtdpartsSpec spec = .ok layout) ↔
      ∀ entry ∈ specEntries spec, Convertible entry.1 := by
  rcases Sequences.partition_cases ':' spec with ⟨absent, _⟩ | ⟨before, after, _, _, cut⟩
  · exact absurd separated absent
  rw [← parse_entries_convertible, specEntries, cut]
  simp only [parseMtdpartsSpec, cut, if_true]
  cases parseEntries (Sequences.finditer mtdpartsEntryAt after) with
  | error raised => simp
  | ok read =>
    simp only [Except.ok.injEq, exists_eq', iff_true]
    split
    · contradiction
    · split <;> exact ⟨_, rfl⟩
    · exact ⟨_, rfl⟩

/-- A specification that is read gives a layout exactly when it begins with its partitions. That the
sizes can be converted is asked of all entries, also of those behind the first two, because the code
converts them all. -/
theorem parse_spec_layout (spec : Text) (separated : ':' ∈ spec)
    (sized : ∀ entry ∈ specEntries spec, Convertible entry.1) (layout : Int × Int) :
    parseMtdpartsSpec spec = .ok (some layout) ↔ FirstTwo (specEntries spec) layout := by
  rcases Sequences.partition_cases ':' spec with ⟨absent, _⟩ | ⟨before, after, _, _, cut⟩
  · exact absurd separated absent
  obtain ⟨read, converted⟩ := (parse_entries_convertible _).mpr sized
  have items := (parse_entries_iff _ read).mp converted
  rw [specEntries, cut] at sized converted items
  rw [specEntries, cut]
  have sizes : ∀ entry ∈ Sequences.finditer mtdpartsEntryAt after, ∀ size,
      NumericSize entry.1 size ↔ parseSizeToken entry.1 = .ok (some size) := by
    intro entry member size
    rw [parse_size_some, and_iff_left (sized entry member)]
  simp only [parseMtdpartsSpec, cut, if_true, converted]
  generalize Sequences.finditer mtdpartsEntryAt after = entries at items sizes ⊢
  cases items with
  | nil => simp [FirstTwo]
  | @cons boot first entries read firstRead others =>
    cases others with
    | nil =>
      obtain ⟨size, name⟩ := first
      cases size <;> simp [FirstTwo]
    | @cons env second entries read secondRead _ =>
      obtain ⟨bootSize, bootName⟩ := first
      obtain ⟨envSize, envName⟩ := second
      obtain ⟨bootConverted, rfl⟩ := firstRead
      obtain ⟨envConverted, rfl⟩ := secondRead
      have begins : FirstTwo (boot :: env :: entries) layout ↔
          (Text.lower (Text.strip boot.2) = "boot".toList ∧
            Text.lower (Text.strip env.2) = "env".toList) ∧
          bootSize = some layout.1 ∧ envSize = some layout.2 := by
        have bootNumber := sizes boot (by simp) layout.1
        have envNumber := sizes env (by simp) layout.2
        rw [bootConverted, Except.ok.injEq] at bootNumber
        rw [envConverted, Except.ok.injEq] at envNumber
        rw [← bootNumber, ← envNumber, and_assoc]
        constructor
        · rintro ⟨_, _, _, same, bootName, envName, bootSized, envSized⟩
          cases same
          exact ⟨bootName, envName, bootSized, envSized⟩
        · rintro ⟨bootName, envName, bootSized, envSized⟩
          exact ⟨boot, env, entries, rfl, bootName, envName, bootSized, envSized⟩
      rw [begins]
      cases bootSize with
      | none => simp
      | some bootSize =>
        cases envSize with
        | none => simp
        | some envSize =>
          obtain ⟨layoutBoot, layoutEnv⟩ := layout
          by_cases named : Text.lower (Text.strip boot.2) = "boot".toList ∧
              Text.lower (Text.strip env.2) = "env".toList
          · simp only [named, and_self, if_true, Except.ok.injEq, Option.some.injEq,
              Prod.mk.injEq, true_and]
          · simp only [named, if_false, Except.ok.injEq, reduceCtorEq, false_and]

/-- The specification of a variable holds a colon. -/
theorem extract_separated (value spec : Text) (extracted : extractMtdpartsSpec value = some spec) :
    ':' ∈ spec := by
  have accepted := List.find?_some extracted
  simp only [Bool.and_eq_true, decide_eq_true_eq] at accepted
  exact accepted.1.1

end Specifications

section Variables

variable (env : Env)

/-- The layout of one variable. -/
def keyLayout (key : Text) : Except EnvError (Option (Int × Int)) :=
  match (env.get key).bind extractMtdpartsSpec with
  | none => .ok none
  | some spec => parseMtdpartsSpec spec

/-- A variable is read exactly when the sizes in its specification can be converted. A variable that
is not there, and one without a specification in its value, has no size to be converted. -/
theorem key_layout_sized (key : Text) :
    (∃ layout, keyLayout env key = .ok layout) ↔ WellSized env key := by
  rw [keyLayout]
  cases found : (env.get key).bind extractMtdpartsSpec with
  | none =>
    simp only [Except.ok.injEq, exists_eq', true_iff]
    intro value spec stored extracted
    rw [stored, Option.bind_some, extracted] at found
    cases found
  | some spec =>
    obtain ⟨value, stored, extracted⟩ := Option.bind_eq_some_iff.mp found
    simp only [parse_spec_sized spec (extract_separated value spec extracted)]
    constructor
    · intro sized other again held found
      rw [stored] at held
      cases held
      rw [extracted] at found
      cases found
      exact sized
    · intro sized
      exact sized value spec stored extracted

/-- A variable that is read gives the layout that it specifies. Such a variable specifies nothing,
and then the code finds no layout in it either. -/
theorem key_layout_specified (key : Text) (sized : WellSized env key) (layout : Int × Int) :
    keyLayout env key = .ok (some layout) ↔ Specifies env key layout := by
  rw [keyLayout]
  cases found : (env.get key).bind extractMtdpartsSpec with
  | none =>
    simp only [Except.ok.injEq, reduceCtorEq, false_iff]
    rintro ⟨value, spec, stored, extracted, _⟩
    rw [stored, Option.bind_some, extracted] at found
    cases found
  | some spec =>
    obtain ⟨value, stored, extracted⟩ := Option.bind_eq_some_iff.mp found
    simp only [parse_spec_layout spec (extract_separated value spec extracted)
      (sized value spec stored extracted)]
    constructor
    · intro first
      exact ⟨value, spec, stored, extracted, first⟩
    · rintro ⟨other, again, held, found, first⟩
      rw [stored] at held
      cases held
      rw [extracted] at found
      cases found
      exact first

/-- The first variable that specifies a layout decides. Variables in front of it are skipped
whatever else they hold. -/
inductive FirstSpecified : List Text → Option (Int × Int) → Prop
  | nothing : FirstSpecified [] none
  | here {key : Text} {keys : List Text} {layout : Int × Int}
      (specifies : Specifies env key layout) : FirstSpecified (key :: keys) (some layout)
  | later {key : Text} {keys : List Text} {result : Option (Int × Int)}
      (skipped : ∀ layout, ¬Specifies env key layout) (others : FirstSpecified keys result) :
      FirstSpecified (key :: keys) result

/-- Every variable that is tried has sizes that can be converted: each one before which none
specifies a layout. Nothing is asked of the variables behind the one that decides. -/
def TriedSized (keys : List Text) : Prop :=
  ∀ before key after, keys = before ++ key :: after →
    (∀ earlier ∈ before, ∀ layout, ¬Specifies env earlier layout) → WellSized env key

/-- The variables behind the first one are tried when it specifies no layout. This is the step of
the search through the variables, in the order in which the code tries them. -/
theorem tried_sized_cons (key : Text) (keys : List Text) :
    TriedSized env (key :: keys) ↔ WellSized env key ∧
      ((∀ layout, ¬Specifies env key layout) → TriedSized env keys) := by
  constructor
  · intro tried
    refine ⟨tried [] key keys rfl (by simp), fun skipped before other after split earlier => ?_⟩
    refine tried (key :: before) other after (by rw [split, List.cons_append]) ?_
    exact List.forall_mem_cons.mpr ⟨skipped, earlier⟩
  · rintro ⟨sized, later⟩ before other after split earlier
    cases before with
    | nil =>
      cases split
      exact sized
    | cons first before =>
      cases split
      obtain ⟨skipped, others⟩ := List.forall_mem_cons.mp earlier
      exact later skipped before other after rfl others

/-- A variable is read before the others, which are read when it gives no layout. An error of its
reading is not skipped over: it ends the search. -/
theorem first_layout_cons (key : Text) (keys : List Text) :
    firstMtdpartsLayout env (key :: keys) = (keyLayout env key).bind fun found =>
      found.elim (firstMtdpartsLayout env keys) (fun layout => .ok (some layout)) := by
  simp only [firstMtdpartsLayout, keyLayout]
  cases (env.get key).bind extractMtdpartsSpec with
  | none => rfl
  | some spec =>
    simp only
    cases parsed : parseMtdpartsSpec spec with
    | error raised => rfl
    | ok found => cases found <;> rfl

/-- The variables are read without an exception exactly when the sizes of those that are tried can
be converted.

Proof: by induction on the variables; the ones behind the first are tried when it gives no
layout. -/
theorem first_layout_sized (keys : List Text) :
    (∃ result, firstMtdpartsLayout env keys = .ok result) ↔ TriedSized env keys := by
  induction keys with
  | nil =>
    constructor
    · intro _ before key after split
      simp at split
    · exact fun _ => ⟨none, rfl⟩
  | cons key keys inductionHypothesis =>
    have sized := key_layout_sized env key
    have specified := key_layout_specified env key
    rw [first_layout_cons, tried_sized_cons, ← sized, ← inductionHypothesis]
    cases found : keyLayout env key with
    | error raised => simp [Except.bind]
    | ok layout =>
      have known : WellSized env key := sized.mp ⟨layout, found⟩
      cases layout with
      | none =>
        have skipped : ∀ layout, ¬Specifies env key layout := by
          intro layout specifies
          have other := (specified known layout).mpr specifies
          rw [found] at other
          cases other
        simp [Except.bind, skipped]
      | some layout =>
        have specifies := (specified known layout).mp found
        simp only [Except.bind, Option.elim_some, Except.ok.injEq, exists_eq', true_iff, true_and]
        exact fun skipped => absurd specifies (skipped layout)

/-- What is read without an exception is decided by the first variable with a layout.

Proof: by induction on the variables; the first one gives its layout, or the others decide. -/
theorem first_layout_specified (keys : List Text) (result : Option (Int × Int))
    (done : firstMtdpartsLayout env keys = .ok result) : FirstSpecified env keys result := by
  induction keys with
  | nil =>
    cases done
    exact .nothing
  | cons key keys inductionHypothesis =>
    rw [first_layout_cons] at done
    cases found : keyLayout env key with
    | error raised =>
      rw [found] at done
      cases done
    | ok layout =>
      have known : WellSized env key := (key_layout_sized env key).mp ⟨layout, found⟩
      have specified := key_layout_specified env key known
      rw [found] at done
      cases layout with
      | none =>
        refine .later (fun layout specifies => ?_) (inductionHypothesis done)
        have other := (specified layout).mpr specifies
        rw [found] at other
        cases other
      | some layout =>
        cases done
        exact .here ((specified layout).mp found)

end Variables

section Fallback

variable (codecs : Codecs) (image : Bytes) (bootOffset : Int) (bootSize : Option Int)

/-- The layout that the markers give. It needs a marker and a common size that fits before it, and
each of the two may be missing. -/
def layoutByMarkers : Except EnvError PartitionLayout :=
  match findFirstPostBootMagic image bootOffset with
  | none => .error .noMarkers
  | some boundary =>
    match layoutBefore codecs image bootOffset boundary with
    | none => .error .noBoundaries
    | some layout => .ok layout

/-- The region that an inference probes embeds an environment. -/
def ProbedEnv (env : Env) : Prop :=
  let size := bootSize.getD (guessBootProbeSize image bootOffset)
  let region := Sequences.sliceInt image bootOffset (bootOffset + size)
  (region.length : Int) = size ∧ extractDefaultEnvFromUboot codecs region = .ok env

/-- Without a layout in the probed environment the inference goes on to the markers. -/
theorem infer_by_markers (env : Env) (probed : ProbedEnv codecs image bootOffset bootSize env)
    (unspecified : findMtdpartsLayout env = .ok none) :
    inferPartitionLayout codecs image bootOffset bootSize =
      layoutByMarkers codecs image bootOffset := by
  obtain ⟨sized, extracted⟩ := probed
  simp only [inferPartitionLayout]
  rw [if_neg (not_not.mpr sized)]
  simp only [extracted, unspecified]
  rfl

end Fallback

/-- No variable of the environment aborts an inference: the first one that specifies a layout
decides, and without one an inference goes on to the markers.

The last part is about every image, region and decompressor with which the environment is probed. -/
def NeverAborts (env : Env) : Prop :=
  ∃ result, findMtdpartsLayout env = .ok result ∧
    FirstSpecified env (mtdpartsKeys env) result ∧
    (result = none → ∀ codecs image bootOffset bootSize,
      ProbedEnv codecs image bootOffset bootSize env →
        inferPartitionLayout codecs image bootOffset bootSize =
          layoutByMarkers codecs image bootOffset)

/-- For every environment: no variable aborts an inference exactly when the sizes in the
specifications that are tried can be converted. The variables are those of the code, in its order,
and one behind a variable that gives a layout is not tried. If none gives one, the inference goes on
with the markers for every image. -/
theorem never_aborts_iff (env : Env) : NeverAborts env ↔ TriedSized env (mtdpartsKeys env) := by
  rw [← first_layout_sized]
  constructor
  · rintro ⟨result, found, _⟩
    exact ⟨result, found⟩
  · rintro ⟨result, found⟩
    refine ⟨result, found, first_layout_specified env _ result found, ?_⟩
    rintro rfl codecs image bootOffset bootSize probed
    exact infer_by_markers codecs image bootOffset bootSize env probed found

/-- A third partition whose size is no decimal number aborts the inference. -/
theorem malformed_size_aborts : ¬NeverAborts
    (Dict.ofList [("mtdparts".toList, "f:1k(boot),1k(env),12ab(rest)".toList)]) := by
  rintro ⟨result, found, _⟩
  have raised : findMtdpartsLayout
      (Dict.ofList [("mtdparts".toList, "f:1k(boot),1k(env),12ab(rest)".toList)]) =
        .error (.invalidSize "12ab".toList) := by decide +kernel
  rw [raised] at found
  cases found

end UbootTftp
