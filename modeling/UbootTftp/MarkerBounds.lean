import UbootTftp.PatchBounds

/-!
# Inferred bounds and the next image

Without arguments the inference puts the environment partition right before the first marker.
A bound that is given replaces the inferred one alone: the others stay where they were chosen,
so the partition ends before the marker only when what is given leaves room for them.
-/

namespace UbootTftp

/-- A bound is missing, the probed environment announces no layout, and the marker is the first one
behind the boot region. An environment that announces a layout decides by itself, and markers are
not looked at then. -/
structure MarkerInferred (codecs : Codecs) (image : Bytes) (layout : LayoutArguments)
    (marker : Int) : Prop where
  missing : layout.knownBootSize = none ∨ layout.envSize = none
  probed : ((probeRegion image layout).length : Int) = probeSize image layout
  unannounced : ∃ env, extractDefaultEnvFromUboot codecs (probeRegion image layout) = .ok env ∧
    findMtdpartsLayout env = .ok none
  marked : findFirstPostBootMagic image layout.bootOffset = some marker

/-- The size is the first of the common ones for which there is a boot region before the partition
and it embeds an environment.

The choice is made for a boot region that ends where the partition begins, whatever boot size was
given: that is what goes wrong with a boot size that is longer. -/
def SizeBefore (codecs : Codecs) (image : Bytes) (bootOffset marker size : Int) : Prop :=
  ∃ before after, commonEnvSizes = before ++ size :: after ∧ bootOffset < marker - size ∧
    (∃ env, Embeds codecs (Sequences.sliceInt image bootOffset (marker - size)) env) ∧
    ∀ smaller ∈ before, marker - smaller ≤ bootOffset ∨ ∀ other,
      ¬Embeds codecs (Sequences.sliceInt image bootOffset (marker - smaller)) other

/-- The bounds that are given are in range. A bound that is not given is not restricted. -/
structure LayoutArguments.InRange (layout : LayoutArguments) : Prop where
  bootOffset : 0 ≤ layout.bootOffset
  bootSize : ∀ given, layout.knownBootSize = some given → 0 < given
  envOffset : ∀ given, layout.knownEnvOffset = some given → layout.bootOffset ≤ given
  envSize : ∀ given, layout.envSize = some given → 0 < given

/-- What is given leaves room before the marker for what is inferred with it, by which of the bounds
are given: a partition of the size that is taken, or the place of that size.

The cases are those of the three optional bounds; nothing that the inference computes occurs besides
the marker and the size. -/
def LayoutArguments.FitsBefore (layout : LayoutArguments) (marker size : Int) : Prop :=
  match layout.bootSize, layout.envOffset, layout.envSize with
  | none, none, none => True
  | none, none, some envSize => envSize ≤ size
  | some bootSize, none, _ => layout.bootOffset + bootSize + size ≤ marker
  | none, some envOffset, _ => envOffset + size ≤ marker
  | some bootSize, some envOffset, _ =>
    layout.bootOffset + bootSize ≤ envOffset ∧ envOffset + size ≤ marker

section Bounds

variable (codecs : Codecs) (image : Bytes) (layout : LayoutArguments)

/-- The bounds that an inference from the marker gives: each bound that is given replaces the
inferred one alone. -/
def boundsBefore (marker size : Int) : PartitionLayout :=
  ⟨layout.knownBootSize.getD (marker - size - layout.bootOffset),
    layout.knownEnvOffset.getD (marker - size), layout.envSize.getD size, none⟩

/-- A layout that is resolved where the marker decides has the bounds before the marker. The size is
the first of the common ones that is usable; what the arguments give is kept, and the rest is filled
in from the marker. -/
theorem resolved_before (marker : Int) (inferred : MarkerInferred codecs image layout marker)
    (resolved : PartitionLayout)
    (resolution : resolvePartitionLayout codecs image layout = .ok resolved) :
    ∃ size, SizeBefore codecs image layout.bootOffset marker size ∧
      resolved.bootSize = (boundsBefore layout marker size).bootSize ∧
      resolved.envOffset = (boundsBefore layout marker size).envOffset ∧
      resolved.envSize = (boundsBefore layout marker size).envSize := by
  obtain ⟨probedEnv, extracted, unannounced⟩ := inferred.unannounced
  have embedsOnly : ∀ env, Embeds codecs (probeRegion image layout) env → env = probedEnv := by
    intro env embedded
    have same := ((extract_default_iff codecs _ env).mpr embedded).symm.trans extracted
    exact Except.ok.inj same
  obtain ⟨_, _, ⟨source, announced⟩, _⟩ := (resolve_iff codecs image layout resolved).mp resolution
  cases announced with
  | given boot offset size =>
    rcases inferred.missing with none | none
    · simp [boot] at none
    · simp [size] at none
  | mtdparts _ _ embedded announced =>
    rw [embedsOnly _ embedded, unannounced] at announced
    cases announced
  | @markers _ defaultEnv boundary size before after _ _ _ _ marked common room bootEnv first =>
    cases Option.some.inj (marked.symm.trans inferred.marked)
    exact ⟨size, ⟨before, after, common, room, ⟨defaultEnv, bootEnv⟩, first⟩, rfl, rfl, rfl⟩

/-- Where the marker decides and the bounds that are given are in range, the layout is
resolved. -/
theorem before_resolved (marker size : Int) (inferred : MarkerInferred codecs image layout marker)
    (chosen : SizeBefore codecs image layout.bootOffset marker size)
    (range : layout.InRange) :
    ∃ resolved, resolvePartitionLayout codecs image layout = .ok resolved ∧
      resolved.bootSize = (boundsBefore layout marker size).bootSize ∧
      resolved.envOffset = (boundsBefore layout marker size).envOffset ∧
      resolved.envSize = (boundsBefore layout marker size).envSize := by
  obtain ⟨probedEnv, extracted, unannounced⟩ := inferred.unannounced
  obtain ⟨before, after, common, room, ⟨defaultEnv, bootEnv⟩, first⟩ := chosen
  have sizes : ∀ size ∈ commonEnvSizes, 0 < size := by decide
  have positive : 0 < size := sizes size (by simp [common])
  have present : image ≠ [] := by
    rintro rfl
    have inside := marker_inside [] layout.bootOffset marker inferred.marked
    have bootOffset := range.bootOffset
    simp only [List.length_nil, Nat.cast_zero] at inside
    omega
  refine ⟨_, (resolve_iff codecs image layout _).mpr ⟨present, range.bootOffset,
    ⟨.markers, .markers inferred.missing inferred.probed
      ((extract_default_iff codecs _ _).mp extracted) unannounced inferred.marked common room
      bootEnv first⟩, ?_, ?_, ?_⟩, rfl, rfl, rfl⟩
  · cases given : layout.knownBootSize with
    | none =>
      simp only [Option.getD_none]
      omega
    | some bootSize => exact range.bootSize bootSize given
  · cases given : layout.envSize with
    | none => exact positive
    | some envSize => exact range.envSize envSize given
  · cases given : layout.knownEnvOffset with
    | none => exact room.le
    | some envOffset => exact range.envOffset envOffset given

/-- The bounds of a resolved layout that were given are in range. What was not given is not bounded
here, since the layout gets it from the image. -/
theorem resolved_range (resolved : PartitionLayout)
    (resolution : resolvePartitionLayout codecs image layout = .ok resolved) : layout.InRange := by
  obtain ⟨_, bootOffset, ⟨_, announced⟩, usable⟩ :=
    (resolve_iff codecs image layout resolved).mp resolution
  obtain ⟨bootSize, envSize, order⟩ := usable
  cases announced with
  | given boot offset size =>
    refine ⟨bootOffset, ?_, ?_, ?_⟩
    · simpa [boot] using bootSize
    · simpa [offset] using order
    · simpa [size] using envSize
  | mtdparts =>
    refine ⟨bootOffset, fun given known => ?_, fun given known => ?_, fun given known => ?_⟩
    · simpa [known] using bootSize
    · simpa [known] using order
    · simpa [known] using envSize
  | markers =>
    refine ⟨bootOffset, fun given known => ?_, fun given known => ?_, fun given known => ?_⟩
    · simpa [known] using bootSize
    · simpa [known] using order
    · simpa [known] using envSize

/-- The boot region ends before the partition, and the partition before the marker. -/
def EndsBefore (resolved : PartitionLayout) (marker : Int) : Prop :=
  layout.bootOffset + resolved.bootSize ≤ resolved.envOffset ∧
    resolved.envOffset + resolved.envSize ≤ marker

/-- The bounds before a marker end before it when what is given leaves room. The cases are those of
the arguments that may be given, and in each of them the bounds are linear in the marker and the
size. -/
theorem ends_before_iff (marker size : Int) (resolved : PartitionLayout)
    (missing : layout.knownBootSize = none ∨ layout.envSize = none)
    (bootSize : resolved.bootSize = (boundsBefore layout marker size).bootSize)
    (envOffset : resolved.envOffset = (boundsBefore layout marker size).envOffset)
    (envSize : resolved.envSize = (boundsBefore layout marker size).envSize) :
    EndsBefore layout resolved marker ↔ layout.FitsBefore marker size := by
  rw [EndsBefore, bootSize, envOffset, envSize]
  obtain ⟨bootOffset, boot, offset, env⟩ := layout
  cases boot with
  | none =>
    cases offset with
    | none =>
      cases env with
      | none =>
        simp only [boundsBefore, LayoutArguments.knownBootSize, LayoutArguments.knownEnvOffset,
          LayoutArguments.FitsBefore, Option.or_none, Option.map_none, Option.getD_none, iff_true]
        omega
      | some given =>
        simp only [boundsBefore, LayoutArguments.knownBootSize, LayoutArguments.knownEnvOffset,
          LayoutArguments.FitsBefore, Option.or_none, Option.map_none, Option.getD_none,
          Option.getD_some]
        omega
    | some start =>
      have unknown : env = none := by
        simpa [LayoutArguments.knownBootSize] using missing
      simp only [unknown, boundsBefore, LayoutArguments.knownBootSize,
        LayoutArguments.knownEnvOffset, LayoutArguments.FitsBefore, Option.none_or,
        Option.map_some, Option.or_none, Option.map_none, Option.getD_some, Option.getD_none]
      omega
  | some length =>
    have unknown : env = none := by
      simpa [LayoutArguments.knownBootSize] using missing
    cases offset with
    | none =>
      simp only [unknown, boundsBefore, LayoutArguments.knownBootSize,
        LayoutArguments.knownEnvOffset, LayoutArguments.FitsBefore, Option.none_or,
        Option.some_or, Option.map_some, Option.getD_some, Option.getD_none]
      omega
    | some start =>
      simp only [unknown, boundsBefore, LayoutArguments.knownBootSize,
        LayoutArguments.knownEnvOffset, LayoutArguments.FitsBefore, Option.some_or,
        Option.getD_some, Option.getD_none]

/-- A patch writes nothing at or behind the marker when the partition ends before it. A patch
replaces the bytes of the partition by as many others, so everything behind its end keeps its
place. -/
theorem patch_before (marker : Int) (marked : findFirstPostBootMagic image layout.bootOffset =
      some marker) (resolved : PartitionLayout)
    (resolution : resolvePartitionLayout codecs image layout = .ok resolved)
    (ends : EndsBefore layout resolved marker) (env : Env) (flags : Option Int) (padByte : Int)
    (encoding : Encoding) (patched : Bytes)
    (done : ubootenvPatch codecs image env layout flags padByte encoding = .ok patched)
    (index : Nat) (behind : marker ≤ index) : patched[index]? = image[index]? := by
  obtain ⟨_, written, built, _, patchable, found, building, rfl⟩ :=
    (patch_iff codecs image env layout flags padByte encoding patched).mp done
  simp only [ubootenvFind, resolution, Except.ok.injEq, EnvPartitionInfo.mk.injEq] at found
  obtain ⟨_, ends⟩ := ends
  rw [found.1, found.2] at ends
  have inside := marker_inside image layout.bootOffset marker marked
  have start := patchable.start
  have size := patchable.usable.envSize
  have sized := build_length codecs env flags padByte encoding _ built building
  exact Sequences.splice_behind image built _ _ (by omega) (by omega) index (by omega)

end Bounds

/-- Whenever the marker decides, the partition lies between the boot region and the marker, and no
patch changes a byte of what starts there. -/
def NeverCovers (codecs : Codecs) (image : Bytes) (layout : LayoutArguments) : Prop :=
  ∀ marker resolved, MarkerInferred codecs image layout marker →
    resolvePartitionLayout codecs image layout = .ok resolved →
    EndsBefore layout resolved marker ∧
      ∀ env flags padByte encoding patched,
        ubootenvPatch codecs image env layout flags padByte encoding = .ok patched →
        ∀ index : Nat, marker ≤ index → patched[index]? = image[index]?

/-- Bounds in range leave room before the marker for the size that is taken with it. Bounds out of
range are refused with an exception, so nothing is asked of them. -/
def LeavesRoom (codecs : Codecs) (image : Bytes) (layout : LayoutArguments) : Prop :=
  layout.InRange → ∀ marker size, MarkerInferred codecs image layout marker →
    SizeBefore codecs image layout.bootOffset marker size → layout.FitsBefore marker size

/-- For every image and every subset of the arguments, the partition stays clear of the next image
exactly when the bounds that are given leave room before the marker.

Proof: where the marker decides, the resolved layout is that of the given and the inferred bounds,
so both directions compare the same numbers. That a patch changes nothing behind follows from the
length of what it writes. -/
theorem never_covers_iff (codecs : Codecs) (image : Bytes) (layout : LayoutArguments) :
    NeverCovers codecs image layout ↔ LeavesRoom codecs image layout := by
  constructor
  · intro clear range marker size inferred chosen
    obtain ⟨resolved, resolution, bootSize, envOffset, envSize⟩ :=
      before_resolved codecs image layout marker size inferred chosen range
    obtain ⟨ends, _⟩ := clear marker resolved inferred resolution
    exact (ends_before_iff layout marker size resolved inferred.missing bootSize envOffset
      envSize).mp ends
  · intro leaves marker resolved inferred resolution
    obtain ⟨size, chosen, bootSize, envOffset, envSize⟩ :=
      resolved_before codecs image layout marker inferred resolved resolution
    have range := resolved_range codecs image layout resolved resolution
    have ends := (ends_before_iff layout marker size resolved inferred.missing bootSize envOffset
      envSize).mpr (leaves range marker size inferred chosen)
    exact ⟨ends, patch_before codecs image layout marker inferred.marked resolved resolution ends⟩

section Sample

/-- The default environment of the sample image. -/
def markedEmbedded : Bytes := asciiBytes "bootcmd=\x00bootargs=\x00a=\x00b=\x00c=\x00"

/-- The environment that the sample image embeds. -/
def markedEnv : Env :=
  Dict.ofList [("bootcmd".toList, []), ("bootargs".toList, []), ("a".toList, []), ("b".toList, []),
    ("c".toList, [])]

/-- A flash image with an embedded environment of 28 bytes and a kernel image at 65564. -/
def markedImage : Bytes :=
  markedEmbedded ++ List.replicate 4 0xFF ++
    (List.replicate 65504 0xFF ++ (List.replicate 28 0xFF ++ [0x27, 0x05, 0x19, 0x56]))

/-- The first marker of the sample image. -/
theorem marked_image_marker : findFirstPostBootMagic markedImage 0 = some 65564 := by
  have dropped : markedImage.drop 65536 =
      List.replicate 28 0xFF ++ [0x27, 0x05, 0x19, 0x56] := by
    rw [markedImage, ← List.append_assoc]
    apply List.drop_left'
    rw [List.length_append, List.length_replicate]
    rfl
  simp only [findFirstPostBootMagic, Sequences.findFrom, zero_add, Int.reduceToNat, dropped]
  decide

/-- A front of the sample image. -/
theorem marked_image_front (front rest : Bytes) (size : Nat) (parts : markedImage = front ++ rest)
    (length : front.length = size) : Sequences.sliceInt markedImage 0 size = front := by
  have sliced := Sequences.slice_int_nonneg markedImage 0 size
  rw [Nat.cast_zero] at sliced
  rw [sliced, Sequences.slice, List.drop_zero, parts]
  exact List.take_left' length

end Sample

/-- With a boot size of 32 bytes the size of the partition is taken for a boot region of 28, and
the partition covers the first 4 bytes of the kernel image. -/
theorem boot_size_covers_marker :
    ¬NeverCovers sampleCodecs markedImage ⟨0, some 32, none, none⟩ := by
  intro clear
  have region : probeRegion markedImage ⟨0, some 32, none, none⟩ =
      markedEmbedded ++ List.replicate 4 0xFF :=
    marked_image_front _ _ 32 rfl (by decide)
  have before : Sequences.sliceInt markedImage 0 (65564 - 0x10000) = markedEmbedded :=
    marked_image_front _ _ 28 (List.append_assoc _ _ _) (by decide)
  have inferred : MarkerInferred sampleCodecs markedImage ⟨0, some 32, none, none⟩ 65564 := by
    refine ⟨.inr rfl, ?_, ⟨markedEnv, ?_, by decide +kernel⟩, marked_image_marker⟩
    · rw [region]
      decide
    · rw [region]
      decide +kernel
  have chosen : SizeBefore sampleCodecs markedImage 0 65564 0x10000 := by
    refine ⟨[], [0x20000, 0x40000], rfl, by decide, ⟨markedEnv, ?_⟩, by simp⟩
    rw [before, ← extract_default_iff]
    decide +kernel
  have range : LayoutArguments.InRange ⟨0, some 32, none, none⟩ := by
    refine ⟨le_refl 0, ?_, ?_, ?_⟩ <;> simp [LayoutArguments.knownBootSize,
      LayoutArguments.knownEnvOffset]
  obtain ⟨resolved, resolution, bootSize, envOffset, envSize⟩ :=
    before_resolved sampleCodecs markedImage _ 65564 0x10000 inferred chosen range
  obtain ⟨ends, _⟩ := clear 65564 resolved inferred resolution
  have room := (ends_before_iff _ 65564 0x10000 resolved (.inr rfl) bootSize envOffset envSize).mp
    ends
  simp [LayoutArguments.FitsBefore] at room

end UbootTftp
