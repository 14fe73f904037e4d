import UbootTftp.PatchBounds

/-!
# Patching a given partition

With all bounds given nothing is inferred, and a patch puts the environment's image in the
place of the partition. What was there before does not matter then: the environment is read
back, a second patch with it changes nothing, and a patch with another environment leaves
nothing of it.
-/

namespace UbootTftp

/-- The bounds of a boot region and an environment partition that ends inside an image of the given
length. Nothing else is assumed: the boot region may overlap the partition, end before it or reach
beyond the image. -/
structure ExplicitLayout (length : Nat) where
  bootOffset : Int
  bootSize : Int
  envOffset : Int
  envSize : Int
  start : 0 ≤ bootOffset
  bootRegion : 0 < bootSize
  order : bootOffset ≤ envOffset
  envRegion : 0 < envSize
  inside : envOffset + envSize ≤ length

namespace ExplicitLayout

/-- The arguments that give the bounds. -/
def arguments {length : Nat} (layout : ExplicitLayout length) : LayoutArguments :=
  ⟨layout.bootOffset, some layout.bootSize, some layout.envOffset, some layout.envSize⟩

variable {length : Nat} (layout : ExplicitLayout length)

/-- The offset and the size as numbers of bytes. -/
theorem position : ∃ offset size : Nat, layout.envOffset = offset ∧ layout.envSize = size ∧
    0 < size ∧ offset + size ≤ length := by
  have start := layout.start
  have order := layout.order
  have envRegion := layout.envRegion
  have inside := layout.inside
  refine ⟨layout.envOffset.toNat, layout.envSize.toNat, ?_, ?_, ?_, ?_⟩ <;> omega

include layout in
/-- An image that contains the partition is not empty. -/
theorem present (image : Bytes) (sized : image.length = length) : image ≠ [] := by
  obtain ⟨_, _, _, _, positive, inside⟩ := layout.position
  rw [← List.length_pos_iff]
  omega

variable (codecs : Codecs) (image : Bytes) (sized : image.length = length)

include sized

/-- The given bounds are the ones of the resolved layout. -/
theorem resolved : resolvePartitionLayout codecs image layout.arguments =
    .ok ⟨layout.bootSize, layout.envOffset, layout.envSize, none⟩ :=
  (resolve_iff codecs image layout.arguments _).mpr
    ⟨layout.present image sized, layout.start, ⟨.arguments, .given rfl rfl rfl⟩,
      layout.bootRegion, layout.envRegion, layout.order⟩

/-- The partition is found at the given bounds. -/
theorem found : ubootenvFind codecs image layout.arguments =
    .ok ⟨layout.envOffset, layout.envSize⟩ := by
  simp only [ubootenvFind, layout.resolved codecs image sized]

end ExplicitLayout

section Patches

variable (codecs : Codecs) {length : Nat} (layout : ExplicitLayout length)

/-- The bytes of a partition with an environment and fill: what the encoder builds for the size of
the partition, as an expression without exceptions. -/
def filledPartition (env : Env) (size : Nat) (pad : UInt8) : Bytes :=
  envImage codecs [] (envPayload env ++ List.replicate (size - 4 - payloadSize env) pad)

/-- The image with the environment and fill in the given partition. -/
def patchedWith (image : Bytes) (env : Env) (padByte : Int) : Bytes :=
  Sequences.splice image layout.envOffset.toNat layout.envSize.toNat
    (filledPartition codecs env layout.envSize.toNat (UInt8.ofNat padByte.toNat))

/-- A filled partition has its size. -/
theorem filled_length (env : Env) (size : Nat) (pad : UInt8) (room : 4 + payloadSize env ≤ size) :
    (filledPartition codecs env size pad).length = size := by
  simp only [filledPartition, env_image_length, List.length_append, List.length_nil,
    payload_length, List.length_replicate]
  omega

variable {env : Env} (padByte : Int) (room : 4 + (payloadSize env : Int) ≤ layout.envSize)
variable (image : Bytes) (sized : image.length = length)

include room sized

/-- A patched image has the length of the image. -/
theorem patched_with_length : (patchedWith codecs layout image env padByte).length = length := by
  obtain ⟨offset, size, located, extent, positive, inside⟩ := layout.position
  have filled := filled_length codecs env size (UInt8.ofNat padByte.toNat) (by omega)
  simp only [patchedWith, located, extent, Int.toNat_natCast]
  rw [Sequences.splice_length image _ offset size filled (by omega), sized]

/-- Nothing of an environment in the partition survives the next patch. -/
theorem patched_again (later : Env) (laterPad : Int) :
    patchedWith codecs layout (patchedWith codecs layout image env padByte) later laterPad =
      patchedWith codecs layout image later laterPad := by
  obtain ⟨offset, size, located, extent, positive, inside⟩ := layout.position
  have filled := filled_length codecs env size (UInt8.ofNat padByte.toNat) (by omega)
  simp only [patchedWith, located, extent, Int.toNat_natCast]
  exact Sequences.splice_splice image _ offset size _ filled (by omega)

variable (storable : Storable env)

include storable

/-- A patch puts a storable environment in place, for any fill byte. What the partition held before
appears nowhere on the right-hand side, which is the reason for the laws below. -/
theorem Storable.placed (byte : isByte padByte = true) :
    ubootenvPatch codecs image env layout.arguments none padByte utf8 =
      .ok (patchedWith codecs layout image env padByte) := by
  obtain ⟨offset, size, located, extent, positive, inside⟩ := layout.position
  have built : ubootenvBuild codecs env (some layout.envSize) none padByte utf8 =
      .ok (filledPartition codecs env size (UInt8.ofNat padByte.toNat)) := by
    have fill : ((size : Int) - 4 - payloadSize env).toNat = size - 4 - payloadSize env := by
      omega
    rw [build_ok, extent]
    simp only [headerSize, Option.isNone_none, if_true, payload_length, Option.map_none,
      Option.toList_none, storable.encoded, Except.ok.injEq, exists_eq_left', fill,
      filledPartition, and_true]
    exact ⟨byte, rfl, by omega⟩
  have start : 0 ≤ layout.envOffset := by omega
  rw [patch_splice codecs image env layout.arguments none padByte utf8
    ⟨layout.envOffset, layout.envSize⟩ _ (layout.found codecs image sized) built start
    layout.envRegion.le, patchedWith, extent, Int.toNat_natCast]

/-- The environment is extracted from the image that a patch returns. All bounds are given, so the
second look at the image infers nothing from the bytes that were written. -/
theorem Storable.reread : ubootenvExtract codecs (patchedWith codecs layout image env padByte)
    layout.arguments = .ok env := by
  obtain ⟨offset, size, located, extent, positive, inside⟩ := layout.position
  have filled := filled_length codecs env size (UInt8.ofNat padByte.toNat) (by omega)
  have held : Sequences.sliceInt (patchedWith codecs layout image env padByte) layout.envOffset
      (layout.envOffset + layout.envSize) =
        filledPartition codecs env size (UInt8.ofNat padByte.toNat) := by
    simp only [patchedWith, located, extent, Int.toNat_natCast, ← Int.natCast_add,
      Sequences.slice_int_nonneg]
    exact Sequences.splice_inside image _ offset size filled (by omega)
  have read : ubootenvParsePart codecs
      (filledPartition codecs env size (UInt8.ofNat padByte.toNat)) = .ok env :=
    storable.parsed codecs [] _ _ (.inl rfl)
  have kept := patched_with_length codecs layout padByte room image sized
  have whole : (size : Int) = layout.envSize := extent.symm
  simp only [ubootenvExtract, layout.resolved codecs _ kept, held, filled, whole, ne_eq,
    not_true_eq_false, if_false, read]

end Patches

/-- For every image, every explicit layout with the partition inside it, and environments that an
image can hold and that fit: the first environment is extracted from the image that a patch with it
returns, a patch of that image with it returns the same image, and a patch with the second
environment gives what it gives for the image itself.

The two patches may use different fill bytes. -/
theorem explicit_patch_laws (codecs : Codecs) (image : Bytes)
    (layout : ExplicitLayout image.length) (first second : Env) (firstStorable : Storable first)
    (secondStorable : Storable second) (firstFits : 4 + (payloadSize first : Int) ≤ layout.envSize)
    (secondFits : 4 + (payloadSize second : Int) ≤ layout.envSize) (firstPad secondPad : Int)
    (firstByte : isByte firstPad = true) (secondByte : isByte secondPad = true) :
    ∃ once twice,
      ubootenvPatch codecs image first layout.arguments none firstPad utf8 = .ok once ∧
      ubootenvExtract codecs once layout.arguments = .ok first ∧
      ubootenvPatch codecs once first layout.arguments none firstPad utf8 = .ok once ∧
      ubootenvPatch codecs image second layout.arguments none secondPad utf8 = .ok twice ∧
      ubootenvPatch codecs once second layout.arguments none secondPad utf8 = .ok twice := by
  have kept := patched_with_length codecs layout firstPad firstFits image rfl
  have replaced := patched_again codecs layout firstPad firstFits image rfl
  refine ⟨patchedWith codecs layout image first firstPad,
    patchedWith codecs layout image second secondPad, ?_, ?_, ?_, ?_, ?_⟩
  · exact firstStorable.placed codecs layout firstPad firstFits image rfl firstByte
  · exact firstStorable.reread codecs layout firstPad firstFits image rfl
  · rw [firstStorable.placed codecs layout firstPad firstFits _ kept firstByte, replaced]
  · exact secondStorable.placed codecs layout secondPad secondFits image rfl secondByte
  · rw [secondStorable.placed codecs layout secondPad secondFits _ kept secondByte, replaced]

/-- An explicit layout in an image of 64 bytes: a boot region of 16 bytes and a partition of 16
bytes at its end. -/
def sampleLayout : ExplicitLayout (List.replicate 64 (0xFF : UInt8)).length :=
  ⟨0, 16, 48, 16, by decide, by decide, by decide, by decide, by decide⟩

/-- Two environments in the same partition, one after the other. -/
theorem explicit_patch_laws_sample : ∃ once twice,
    ubootenvPatch sampleCodecs (List.replicate 64 0xFF) (Dict.ofList [("a".toList, "12345".toList)])
      sampleLayout.arguments none 0x3D utf8 = .ok once ∧
    ubootenvExtract sampleCodecs once sampleLayout.arguments =
      .ok (Dict.ofList [("a".toList, "12345".toList)]) ∧
    ubootenvPatch sampleCodecs once (Dict.ofList [("a".toList, "12345".toList)])
      sampleLayout.arguments none 0x3D utf8 = .ok once ∧
    ubootenvPatch sampleCodecs (List.replicate 64 0xFF) sampleEnv sampleLayout.arguments none 0xFF
      utf8 = .ok twice ∧
    ubootenvPatch sampleCodecs once sampleEnv sampleLayout.arguments none 0xFF utf8 = .ok twice :=
  explicit_patch_laws sampleCodecs _ sampleLayout _ _ (by decide) (by decide) (by decide)
    (by decide) 0x3D 0xFF (by decide) (by decide)

end UbootTftp
