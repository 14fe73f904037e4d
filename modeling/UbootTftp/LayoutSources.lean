import UbootTftp.FlashImages
import Mathlib.Data.List.MinMax

/-!
# Where a layout comes from

The bounds of the environment partition are those of the arguments, those that the
embedded environment announces, or those in front of the first marker. The relation here
says so without the order in which the resolution tries them, and the resolution gives
exactly the usable layouts of the relation.
-/

namespace UbootTftp

/-- The boot size that the arguments give. -/
def LayoutArguments.knownBootSize (layout : LayoutArguments) : Option Int :=
  layout.bootSize.or (layout.envOffset.map (· - layout.bootOffset))

/-- The offset of the environment that the arguments give. -/
def LayoutArguments.knownEnvOffset (layout : LayoutArguments) : Option Int :=
  layout.envOffset.or (layout.bootSize.map (layout.bootOffset + ·))

/-- The arguments give the boot size and the offset together or not at all. -/
theorem LayoutArguments.known_together (layout : LayoutArguments) :
    layout.knownBootSize = none ↔ layout.knownEnvOffset = none := by
  obtain ⟨bootOffset, bootSize, envOffset, envSize⟩ := layout
  cases bootSize <;> cases envOffset <;> simp [knownBootSize, knownEnvOffset]

/-- The size of the region that an inference probes. -/
def probeSize (image : Bytes) (layout : LayoutArguments) : Int :=
  layout.knownBootSize.getD (guessBootProbeSize image layout.bootOffset)

/-- The region that an inference probes. -/
def probeRegion (image : Bytes) (layout : LayoutArguments) : Bytes :=
  Sequences.sliceInt image layout.bootOffset (layout.bootOffset + probeSize image layout)

/-- The environment that a region embeds: the first one with the highest score. -/
def Embeds (codecs : Codecs) (region : Bytes) (env : Env) : Prop :=
  ∃ score, (scoredEnvs codecs region).argmax Prod.fst = some (score, env)

/-- Where a layout comes from. The first of them applies only if nothing is missing among the
arguments. -/
inductive LayoutSource
  | arguments
  | mtdparts
  | markers
  deriving DecidableEq

/-- The layouts that the arguments and the image give. An argument is kept, and what is missing is
announced by the environment that the probed region embeds, or lies before the first marker.

Each constructor says under which conditions its source is the one that counts, so that the relation
can be read without the code. That it is the code's choice is a theorem. -/
inductive Announced (codecs : Codecs) (image : Bytes) (layout : LayoutArguments) :
    LayoutSource → PartitionLayout → Prop
  | given {bootSize envOffset envSize : Int} (boot : layout.knownBootSize = some bootSize)
      (offset : layout.knownEnvOffset = some envOffset) (size : layout.envSize = some envSize) :
      Announced codecs image layout .arguments ⟨bootSize, envOffset, envSize, none⟩
  | mtdparts {env : Env} {bootSize envSize : Int}
      (missing : layout.knownBootSize = none ∨ layout.envSize = none)
      (probed : ((probeRegion image layout).length : Int) = probeSize image layout)
      (embedded : Embeds codecs (probeRegion image layout) env)
      (announced : findMtdpartsLayout env = .ok (some (bootSize, envSize))) :
      Announced codecs image layout .mtdparts
        ⟨layout.knownBootSize.getD bootSize,
          layout.knownEnvOffset.getD (layout.bootOffset + bootSize),
          layout.envSize.getD envSize, some env⟩
  | markers {env defaultEnv : Env} {boundary envSize : Int} {before after : List Int}
      (missing : layout.knownBootSize = none ∨ layout.envSize = none)
      (probed : ((probeRegion image layout).length : Int) = probeSize image layout)
      (embedded : Embeds codecs (probeRegion image layout) env)
      (unannounced : findMtdpartsLayout env = .ok none)
      (marked : findFirstPostBootMagic image layout.bootOffset = some boundary)
      (common : commonEnvSizes = before ++ envSize :: after)
      (room : layout.bootOffset < boundary - envSize)
      (bootEnv : Embeds codecs
        (Sequences.sliceInt image layout.bootOffset (boundary - envSize)) defaultEnv)
      (first : ∀ smaller ∈ before, boundary - smaller ≤ layout.bootOffset ∨
        ∀ other, ¬Embeds codecs
          (Sequences.sliceInt image layout.bootOffset (boundary - smaller)) other) :
      Announced codecs image layout .markers
        ⟨layout.knownBootSize.getD (boundary - envSize - layout.bootOffset),
          layout.knownEnvOffset.getD (boundary - envSize),
          layout.envSize.getD envSize, some defaultEnv⟩

/-- The bounds that a resolved layout has to meet. -/
structure Usable (layout : LayoutArguments) (resolved : PartitionLayout) : Prop where
  bootSize : 0 < resolved.bootSize
  envSize : 0 < resolved.envSize
  order : layout.bootOffset ≤ resolved.envOffset

section Inference

variable (codecs : Codecs) (image : Bytes)

/-- Keeping the better of two finds the first of the best. -/
theorem keep_best_argmax (scored : List (Nat × Env)) :
    scored.foldl keepBest none = scored.argmax Prod.fst := by
  rw [List.argmax]
  congr 1
  funext best candidate
  cases best with
  | none => rfl
  | some found => rfl

/-- The extraction gives the environment that the region embeds. -/
theorem extract_default_iff (region : Bytes) (env : Env) :
    extractDefaultEnvFromUboot codecs region = .ok env ↔ Embeds codecs region env := by
  rw [extractDefaultEnvFromUboot, keep_best_argmax, Embeds]
  cases (scoredEnvs codecs region).argmax Prod.fst with
  | none => simp
  | some best =>
    obtain ⟨score, found⟩ := best
    simp

/-- What the search before a marker tries for one size: the boot region that would end where a
partition of this size begins must embed an environment. -/
def layoutOfSize (bootOffset boundary envSize : Int) : Option PartitionLayout :=
  if boundary - envSize ≤ bootOffset then none
  else match extractDefaultEnvFromUboot codecs
      (Sequences.sliceInt image bootOffset (boundary - envSize)) with
    | .error _ => none
    | .ok defaultEnv =>
      some ⟨boundary - envSize - bootOffset, boundary - envSize, envSize, some defaultEnv⟩

/-- A size is taken when there is room and the region before it embeds an environment. The layout is
determined by the size then: the partition ends at the boundary and begins that much before it. -/
theorem layout_of_size_some (bootOffset boundary envSize : Int) (found : PartitionLayout) :
    layoutOfSize codecs image bootOffset boundary envSize = some found ↔
      bootOffset < boundary - envSize ∧ ∃ defaultEnv,
        Embeds codecs (Sequences.sliceInt image bootOffset (boundary - envSize)) defaultEnv ∧
        found = ⟨boundary - envSize - bootOffset, boundary - envSize, envSize, some defaultEnv⟩ := by
  simp only [← extract_default_iff, layoutOfSize]
  by_cases narrow : boundary - envSize ≤ bootOffset
  · simp only [narrow, if_true, reduceCtorEq, false_iff, not_and]
    intro room
    omega
  · have room : bootOffset < boundary - envSize := by omega
    simp only [narrow, if_false, room, true_and]
    cases extractDefaultEnvFromUboot codecs
        (Sequences.sliceInt image bootOffset (boundary - envSize)) with
    | error raised => simp
    | ok defaultEnv =>
      simp [eq_comm]

/-- A size is passed over when there is no room or nothing is embedded. A region that raises while
it is searched is passed over like one in which there is nothing. -/
theorem layout_of_size_none (bootOffset boundary envSize : Int) :
    layoutOfSize codecs image bootOffset boundary envSize = none ↔
      boundary - envSize ≤ bootOffset ∨ ∀ other,
        ¬Embeds codecs (Sequences.sliceInt image bootOffset (boundary - envSize)) other := by
  rw [Option.eq_none_iff_forall_ne_some]
  constructor
  · intro passed
    by_contra taken
    obtain ⟨room, embedded⟩ := not_or.mp taken
    obtain ⟨other, found⟩ := not_forall_not.mp embedded
    exact passed _ ((layout_of_size_some codecs image bootOffset boundary envSize _).mpr
      ⟨by omega, other, found, rfl⟩)
  · intro passed found taken
    obtain ⟨room, other, embedded, _⟩ :=
      (layout_of_size_some codecs image bootOffset boundary envSize found).mp taken
    rcases passed with narrow | nothing
    · omega
    · exact nothing other embedded

/-- The search before a marker gives the layout of the first size that is taken. The sizes in front
of it are those that were passed over, each for its own reason. -/
theorem layout_before_iff (bootOffset boundary : Int) (found : PartitionLayout) :
    layoutBefore codecs image bootOffset boundary = some found ↔
      ∃ before envSize after defaultEnv, commonEnvSizes = before ++ envSize :: after ∧
        bootOffset < boundary - envSize ∧
        Embeds codecs (Sequences.sliceInt image bootOffset (boundary - envSize)) defaultEnv ∧
        (∀ smaller ∈ before, boundary - smaller ≤ bootOffset ∨ ∀ other,
          ¬Embeds codecs (Sequences.sliceInt image bootOffset (boundary - smaller)) other) ∧
        found = ⟨boundary - envSize - bootOffset, boundary - envSize, envSize, some defaultEnv⟩ := by
  have searched : layoutBefore codecs image bootOffset boundary =
      commonEnvSizes.findSome? (layoutOfSize codecs image bootOffset boundary) := rfl
  rw [searched, List.findSome?_eq_some_iff]
  simp only [layout_of_size_some, layout_of_size_none]
  constructor
  · rintro ⟨before, envSize, after, split, ⟨room, defaultEnv, embedded, same⟩, first⟩
    exact ⟨before, envSize, after, defaultEnv, split, room, embedded, first, same⟩
  · rintro ⟨before, envSize, after, defaultEnv, split, room, embedded, first, same⟩
    exact ⟨before, envSize, after, split, ⟨room, defaultEnv, embedded, same⟩, first⟩

end Inference

section Resolution

variable (codecs : Codecs) (image : Bytes) (layout : LayoutArguments)

/-- The layout with what the arguments give. -/
def withKnown (inferred : PartitionLayout) : PartitionLayout :=
  ⟨layout.knownBootSize.getD inferred.bootSize, layout.knownEnvOffset.getD inferred.envOffset,
    layout.envSize.getD inferred.envSize, inferred.defaultEnv⟩

/-- The inference over the probed region. This only puts the code's nested cases in a row: first the
probe, then the announcement in the environment, then the markers. -/
theorem infer_probed :
    inferPartitionLayout codecs image layout.bootOffset layout.knownBootSize =
      if ((probeRegion image layout).length : Int) ≠ probeSize image layout then
        .error .probeBeyondImage
      else match extractDefaultEnvFromUboot codecs (probeRegion image layout) with
        | .error raised => .error raised
        | .ok defaultEnv =>
          match findMtdpartsLayout defaultEnv with
          | .error raised => .error raised
          | .ok (some (bootSize, envSize)) =>
            .ok ⟨bootSize, layout.bootOffset + bootSize, envSize, some defaultEnv⟩
          | .ok none =>
            match findFirstPostBootMagic image layout.bootOffset with
            | none => .error .noMarkers
            | some boundary =>
              match layoutBefore codecs image layout.bootOffset boundary with
              | none => .error .noBoundaries
              | some found => .ok found := rfl

/-- An inference gives the layouts that the relation takes from the image. Each way to a layout in
the code is one of the ways of the relation, with what has made the earlier ones fail. -/
theorem infer_announced (missing : layout.knownBootSize = none ∨ layout.envSize = none)
    (inferred : PartitionLayout)
    (found : inferPartitionLayout codecs image layout.bootOffset layout.knownBootSize =
      .ok inferred) :
    ∃ source, Announced codecs image layout source (withKnown layout inferred) := by
  rw [infer_probed] at found
  by_cases probed : ((probeRegion image layout).length : Int) = probeSize image layout
  case neg =>
    rw [if_pos probed] at found
    cases found
  rw [if_neg (not_not.mpr probed)] at found
  cases extracted : extractDefaultEnvFromUboot codecs (probeRegion image layout) with
  | error raised => simp [extracted] at found
  | ok env =>
    have embedded := (extract_default_iff codecs _ env).mp extracted
    simp only [extracted] at found
    cases announced : findMtdpartsLayout env with
    | error raised => simp [announced] at found
    | ok bounds =>
      cases bounds with
      | some bounds =>
        simp only [announced, Except.ok.injEq] at found
        subst found
        exact ⟨.mtdparts, .mtdparts missing probed embedded announced⟩
      | none =>
        simp only [announced] at found
        cases marked : findFirstPostBootMagic image layout.bootOffset with
        | none => simp [marked] at found
        | some boundary =>
          simp only [marked] at found
          cases searched : layoutBefore codecs image layout.bootOffset boundary with
          | none => simp [searched] at found
          | some before =>
            simp only [searched, Except.ok.injEq] at found
            subst found
            obtain ⟨_, envSize, _, defaultEnv, common, room, bootEnv, first, rfl⟩ :=
              (layout_before_iff codecs image _ _ _).mp searched
            exact ⟨.markers,
              .markers missing probed embedded announced marked common room bootEnv first⟩

/-- Every layout that the relation takes from the image is inferred. With `infer_announced` it makes
the inference and the relation the same, which is what `gather_iff` uses. -/
theorem announced_inferred (source : LayoutSource) (resolved : PartitionLayout)
    (announced : Announced codecs image layout source resolved)
    (missing : layout.knownBootSize = none ∨ layout.envSize = none) :
    ∃ inferred, inferPartitionLayout codecs image layout.bootOffset layout.knownBootSize =
      .ok inferred ∧ resolved = withKnown layout inferred := by
  rw [infer_probed]
  cases announced with
  | given boot offset size => simp [boot, size] at missing
  | mtdparts _ probed embedded announced =>
    have extracted := (extract_default_iff codecs _ _).mpr embedded
    rw [if_neg (not_not.mpr probed)]
    simp only [extracted, announced]
    exact ⟨_, rfl, rfl⟩
  | markers _ probed embedded unannounced marked common room bootEnv first =>
    have extracted := (extract_default_iff codecs _ _).mpr embedded
    have searched := (layout_before_iff codecs image _ _ _).mpr
      ⟨_, _, _, _, common, room, bootEnv, first, rfl⟩
    rw [if_neg (not_not.mpr probed)]
    simp only [extracted, unannounced, marked, searched]
    exact ⟨_, rfl, rfl⟩

/-- The bounds before they are checked. The image is looked at only if one of the three bounds is
missing, and a bound that was given is kept. -/
def gatherBounds : Except EnvError PartitionLayout :=
  match layout.knownBootSize, layout.knownEnvOffset, layout.envSize with
  | some bootSize, some envOffset, some envSize => .ok ⟨bootSize, envOffset, envSize, none⟩
  | _, _, _ =>
    match inferPartitionLayout codecs image layout.bootOffset layout.knownBootSize with
    | .error raised => .error raised
    | .ok inferred => .ok (withKnown layout inferred)

/-- The resolution checks the image, the boot offset and the gathered bounds. The checks come in
this order, so an image that fails several of them is refused for the first one. -/
theorem resolve_gathered :
    resolvePartitionLayout codecs image layout =
      if image = [] then .error .emptyImage
      else if layout.bootOffset < 0 then .error .negativeBootOffset
      else match gatherBounds codecs image layout with
        | .error raised => .error raised
        | .ok resolved =>
          if resolved.bootSize ≤ 0 ∨ resolved.envSize ≤ 0 ∨
              resolved.envOffset < layout.bootOffset then .error .invalidBoundaries
          else .ok resolved := by
  have offset : layout.envOffset.or (layout.knownBootSize.map (layout.bootOffset + ·)) =
      layout.knownEnvOffset := by
    cases given : layout.envOffset with
    | none => simp [LayoutArguments.knownBootSize, LayoutArguments.knownEnvOffset, given]
    | some envOffset => simp [LayoutArguments.knownEnvOffset, given]
  simp only [gatherBounds, withKnown, ← offset]
  rfl

/-- The gathered bounds are those of the relation. Nothing is inferred if both sizes are known from
the arguments; the image is not even looked at then. -/
theorem gather_iff (resolved : PartitionLayout) :
    gatherBounds codecs image layout = .ok resolved ↔
      ∃ source, Announced codecs image layout source resolved := by
  by_cases missing : layout.knownBootSize = none ∨ layout.envSize = none
  · have inferring : gatherBounds codecs image layout =
        match inferPartitionLayout codecs image layout.bootOffset layout.knownBootSize with
        | .error raised => .error raised
        | .ok inferred => .ok (withKnown layout inferred) := by
      rcases missing with boot | size
      · simp only [gatherBounds, boot]
      · simp only [gatherBounds, size]
        split
        · contradiction
        · rfl
    rw [inferring]
    constructor
    · intro found
      cases inference : inferPartitionLayout codecs image layout.bootOffset
          layout.knownBootSize with
      | error raised => simp [inference] at found
      | ok inferred =>
        simp only [inference, Except.ok.injEq] at found
        rw [← found]
        exact infer_announced codecs image layout missing inferred inference
    · rintro ⟨source, announced⟩
      obtain ⟨inferred, inference, rfl⟩ :=
        announced_inferred codecs image layout source resolved announced missing
      rw [inference]
  · obtain ⟨boot, size⟩ := not_or.mp missing
    obtain ⟨bootSize, knownBoot⟩ := Option.ne_none_iff_exists'.mp boot
    obtain ⟨envSize, knownSize⟩ := Option.ne_none_iff_exists'.mp size
    obtain ⟨envOffset, knownOffset⟩ := Option.ne_none_iff_exists'.mp
      (fun none => boot (layout.known_together.mpr none))
    simp only [gatherBounds, knownBoot, knownOffset, knownSize, Except.ok.injEq]
    constructor
    · rintro rfl
      exact ⟨.arguments, .given knownBoot knownOffset knownSize⟩
    · rintro ⟨source, announced⟩
      cases announced with
      | given givenBoot givenOffset givenSize =>
        rw [knownBoot] at givenBoot
        rw [knownOffset] at givenOffset
        rw [knownSize] at givenSize
        cases givenBoot
        cases givenOffset
        cases givenSize
        rfl
      | mtdparts unknown => exact absurd unknown missing
      | markers unknown => exact absurd unknown missing

/-- The resolution gives exactly the usable layouts of the relation. The checks of the image and of
the boot offset come first and are the same for all sources. -/
theorem resolve_iff (resolved : PartitionLayout) :
    resolvePartitionLayout codecs image layout = .ok resolved ↔
      image ≠ [] ∧ 0 ≤ layout.bootOffset ∧
        (∃ source, Announced codecs image layout source resolved) ∧ Usable layout resolved := by
  rw [resolve_gathered, ← gather_iff]
  by_cases empty : image = []
  · simp [empty]
  by_cases negative : layout.bootOffset < 0
  · have refused : ¬0 ≤ layout.bootOffset := by omega
    simp [empty, negative, refused]
  have accepted : 0 ≤ layout.bootOffset := by omega
  simp only [empty, negative, if_false, accepted, ne_eq, not_false_iff, true_and]
  cases gatherBounds codecs image layout with
  | error raised => simp
  | ok gathered =>
    have checked : (gathered.bootSize ≤ 0 ∨ gathered.envSize ≤ 0 ∨
        gathered.envOffset < layout.bootOffset) ↔ ¬Usable layout gathered := by
      constructor
      · rintro refused ⟨bootSize, envSize, order⟩
        omega
      · intro unusable
        by_contra passed
        exact unusable ⟨by omega, by omega, by omega⟩
    simp only [Except.ok.injEq]
    constructor
    · intro found
      by_cases usable : Usable layout gathered
      · rw [if_neg (mt checked.mp (not_not.mpr usable)), Except.ok.injEq] at found
        exact ⟨found, found ▸ usable⟩
      · rw [if_pos (checked.mpr usable)] at found
        cases found
    · rintro ⟨rfl, usable⟩
      rw [if_neg (mt checked.mp (not_not.mpr usable))]

/-- The partition that is found is the one of a usable layout. What can go wrong is thus one of
four: an empty image, a negative offset, no layout and a layout that is not usable. -/
theorem find_iff (info : EnvPartitionInfo) :
    ubootenvFind codecs image layout = .ok info ↔
      image ≠ [] ∧ 0 ≤ layout.bootOffset ∧ ∃ source resolved,
        Announced codecs image layout source resolved ∧ Usable layout resolved ∧
        info = ⟨resolved.envOffset, resolved.envSize⟩ := by
  have resolution := resolve_iff codecs image layout
  rw [ubootenvFind]
  constructor
  · intro found
    cases known : resolvePartitionLayout codecs image layout with
    | error raised => simp [known] at found
    | ok resolved =>
      simp only [known, Except.ok.injEq] at found
      obtain ⟨present, accepted, ⟨source, announced⟩, usable⟩ := (resolution resolved).mp known
      exact ⟨present, accepted, source, resolved, announced, usable, found.symm⟩
  · rintro ⟨present, accepted, source, resolved, announced, usable, rfl⟩
    rw [(resolution resolved).mpr ⟨present, accepted, ⟨source, announced⟩, usable⟩]

end Resolution

end UbootTftp
