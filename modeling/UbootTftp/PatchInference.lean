import UbootTftp.PatchBounds

/-!
# Reading a patched image

Without arguments a patch writes where the inference places the partition, and reading the
result infers the place again. The second inference probes the bytes that were written as
well, so it comes to the same place only if they do not change what it goes by.
-/

namespace UbootTftp

/-- The environment partition of an image lies there by inference: without arguments a usable layout
is announced, and the partition of it has these bounds. -/
def InferredAt (codecs : Codecs) (image : Bytes) (offset size : Int) : Prop :=
  ∃ source resolved, Announced codecs image .inferred source resolved ∧
    Usable .inferred resolved ∧ resolved.envOffset = offset ∧ resolved.envSize = size

/-- A partition of the given size with an environment and fill. -/
def partitionBytes (codecs : Codecs) (env : Env) (size : Nat) : Bytes :=
  envImage codecs [] (envPayload env ++ List.replicate (size - 4 - payloadSize env) 0xFF)

/-- An image with an environment in the partition. -/
def withPartition (codecs : Codecs) (image : Bytes) (env : Env) (offset size : Int) : Bytes :=
  Sequences.splice image offset.toNat size.toNat (partitionBytes codecs env size.toNat)

/-- If a patch without arguments succeeds, the partition is found in the patched image where it was
found in the image, and the environment is read from it.

A patch that is refused satisfies this. -/
def PatchReadsBack (codecs : Codecs) (image : Bytes) (env : Env) : Prop :=
  ∀ patched, ubootenvPatch codecs image env .inferred none 0xFF utf8 = .ok patched →
    ubootenvFind codecs patched .inferred = ubootenvFind codecs image .inferred ∧
      ubootenvExtract codecs patched .inferred = .ok env

/-- A partition that has room for the environment starts inside the image, and with the environment
in it the same place is inferred.

This still speaks of the patched image. The conditions on the image and on the environment that make
it hold are in the module on settled inference. -/
def StaysInferred (codecs : Codecs) (image : Bytes) (env : Env) : Prop :=
  ∀ offset size, InferredAt codecs image offset size → 4 + payloadSize env ≤ size →
    offset ≤ image.length ∧ InferredAt codecs (withPartition codecs image env offset size) offset size

section Inference

variable (codecs : Codecs) (image : Bytes)

/-- Nothing is embedded in an empty region. -/
theorem embeds_present (env : Env) : ¬Embeds codecs [] env := by
  have nothing : scoredEnvs codecs [] = [] := rfl
  rintro ⟨score, best⟩
  rw [nothing, List.argmax_nil] at best
  cases best

/-- No partition is inferred in an empty image. -/
theorem InferredAt.present {codecs : Codecs} {image : Bytes} {offset size : Int}
    (inferred : InferredAt codecs image offset size) : image ≠ [] := by
  rintro rfl
  have region : probeRegion [] .inferred = [] := by
    simp [probeRegion, Sequences.sliceInt, Sequences.slice]
  obtain ⟨_, _, announced, _⟩ := inferred
  cases announced with
  | given boot => cases boot
  | mtdparts _ _ embedded =>
    rw [region] at embedded
    exact embeds_present codecs _ embedded
  | markers _ _ embedded =>
    rw [region] at embedded
    exact embeds_present codecs _ embedded

/-- An inferred partition has a size and does not start before the image. -/
theorem InferredAt.bounds {codecs : Codecs} {image : Bytes} {offset size : Int}
    (inferred : InferredAt codecs image offset size) : 0 ≤ offset ∧ 0 < size := by
  obtain ⟨_, resolved, _, usable, rfl, rfl⟩ := inferred
  exact ⟨usable.order, usable.envSize⟩

/-- Without arguments the partition is found where it is inferred. It is the place of the first
source that announces one, provided that the place can be used. -/
theorem find_inferred (offset size : Int) :
    ubootenvFind codecs image .inferred = .ok ⟨offset, size⟩ ↔
      InferredAt codecs image offset size := by
  rw [find_iff]
  constructor
  · rintro ⟨_, _, source, resolved, announced, usable, same⟩
    cases same
    exact ⟨source, resolved, announced, usable, rfl, rfl⟩
  · intro inferred
    obtain ⟨source, resolved, announced, usable, rfl, rfl⟩ := id inferred
    exact ⟨inferred.present, le_refl 0, source, resolved, announced, usable, rfl⟩

/-- A written partition has its size. -/
theorem partition_length (env : Env) (size : Nat) (room : 4 + payloadSize env ≤ size) :
    (partitionBytes codecs env size).length = size := by
  simp only [partitionBytes, env_image_length, List.length_append, List.length_nil, payload_length,
    List.length_replicate]
  omega

variable {env : Env} (storable : Storable env)

include storable

/-- What is built for a partition. -/
theorem Storable.partition (size : Int) (built : Bytes) :
    ubootenvBuild codecs env (some size) none 0xFF utf8 = .ok built ↔
      4 + payloadSize env ≤ size ∧ built = partitionBytes codecs env size.toNat := by
  have fill : (size - 4 - payloadSize env).toNat = size.toNat - 4 - payloadSize env := by omega
  rw [build_ok]
  simp only [storable.encoded, Except.ok.injEq, exists_eq_left', payload_length, headerSize,
    Option.isNone_none, if_true, Option.map_none, Option.toList_none, fill, partitionBytes]
  constructor
  · rintro ⟨_, _, made⟩
    exact made
  · intro made
    exact ⟨rfl, rfl, made⟩

/-- A patch without arguments succeeds when a partition with room is inferred. It then writes the
partition there and leaves the rest of the image as it is. Where no partition is found, or the
environment does not fit, it raises. -/
theorem Storable.patched (patched : Bytes) :
    ubootenvPatch codecs image env .inferred none 0xFF utf8 = .ok patched ↔
      ∃ offset size, InferredAt codecs image offset size ∧
        4 + payloadSize env ≤ size ∧ patched = withPartition codecs image env offset size := by
  constructor
  · intro done
    obtain ⟨_, resolved, built, _, _, found, building, rfl⟩ :=
      (patch_iff codecs image env .inferred none 0xFF utf8 patched).mp done
    obtain ⟨room, rfl⟩ := (storable.partition codecs _ _).mp building
    exact ⟨_, _, (find_inferred codecs image _ _).mp found, room, rfl⟩
  · rintro ⟨offset, size, inferred, room, rfl⟩
    obtain ⟨start, positive⟩ := inferred.bounds
    exact patch_splice codecs image env .inferred none 0xFF utf8 ⟨offset, size⟩ _
      ((find_inferred codecs image offset size).mpr inferred)
      ((storable.partition codecs size _).mpr ⟨room, rfl⟩) start positive.le

/-- The environment is extracted from a partition that is inferred where it was written. The bytes
that were written are still there, and the parser of the partition reads them back, whatever
surrounds it. -/
theorem Storable.extracted (offset size : Int) (within : offset ≤ image.length)
    (room : 4 + payloadSize env ≤ size)
    (inferred : InferredAt codecs (withPartition codecs image env offset size) offset size) :
    ubootenvExtract codecs (withPartition codecs image env offset size) .inferred = .ok env := by
  obtain ⟨start, positive⟩ := inferred.bounds
  obtain ⟨position, rfl⟩ := Int.eq_ofNat_of_zero_le start
  obtain ⟨length, rfl⟩ := Int.eq_ofNat_of_zero_le positive.le
  have found := (find_inferred codecs _ _ _).mpr inferred
  have sized := partition_length codecs env length (by omega)
  have held : Sequences.sliceInt (withPartition codecs image env position length) position
      (position + length) = partitionBytes codecs env length := by
    rw [← Int.natCast_add, Sequences.slice_int_nonneg]
    exact Sequences.splice_inside image _ position length sized (by omega)
  have read : ubootenvParsePart codecs (partitionBytes codecs env length) = .ok env :=
    storable.parsed codecs [] _ _ (.inl rfl)
  cases resolution : resolvePartitionLayout codecs (withPartition codecs image env position length)
      .inferred with
  | error raised => simp [ubootenvFind, resolution] at found
  | ok resolved =>
    simp only [ubootenvFind, resolution, Except.ok.injEq, EnvPartitionInfo.mk.injEq] at found
    simp only [ubootenvExtract, resolution, found, held, sized, ne_eq, not_true_eq_false, if_false,
      read]

end Inference

/-- For every image and every environment that an image can hold: a patch without arguments can be
read back exactly when the written partition leaves the inferred place as it is.

So nothing else can go wrong: what is read from the right place is the environment that was written,
whatever the checksum does. -/
theorem reads_back_stays (codecs : Codecs) (image : Bytes) (env : Env)
    (storable : Storable env) :
    PatchReadsBack codecs image env ↔ StaysInferred codecs image env := by
  constructor
  · intro readsBack offset size inferred room
    obtain ⟨found, extracted⟩ := readsBack _
      ((storable.patched codecs image _).mpr ⟨offset, size, inferred, room, rfl⟩)
    rw [(find_inferred codecs image offset size).mpr inferred] at found
    refine ⟨?_, (find_inferred codecs _ offset size).mp found⟩
    -- A partition behind the end is appended and read short of its size.
    obtain ⟨start, positive⟩ := inferred.bounds
    have inside := extract_inside codecs _ .inferred env extracted _ found start positive
    have sized := partition_length codecs env size.toNat (by omega)
    simp only [withPartition, Sequences.splice, List.length_append, List.length_take,
      List.length_drop, sized] at inside
    omega
  · intro stays patched done
    obtain ⟨offset, size, inferred, room, rfl⟩ := (storable.patched codecs image patched).mp done
    obtain ⟨within, again⟩ := stays offset size inferred room
    rw [(find_inferred codecs image offset size).mpr inferred]
    exact ⟨(find_inferred codecs _ offset size).mpr again,
      storable.extracted codecs image offset size within room again⟩

section Sample

/-- An image whose embedded environment announces a boot partition of 48 bytes and an
environment partition of 56 bytes. -/
def sampleImage : Bytes :=
  let embedded := asciiBytes "a=\x00b=\x00c=\x00ipaddr=\x00mtdparts=f:48(boot),56(env)\x00"
  embedded ++ List.replicate (104 - embedded.length) 0xFF

/-- A new environment that announces another layout and scores higher than the embedded one. -/
def otherLayoutEnv : Env :=
  Dict.ofList [("a".toList, []), ("b".toList, []), ("c".toList, []), ("d".toList, []),
    ("ipaddr".toList, []), ("mtdparts".toList, "f:40(boot),56(env)".toList)]

end Sample

/-- With the other layout the patched image is read with a boot region of 40 bytes: the environment
that was written scores higher than the one that the boot region embeds, and the layout that it
announces is followed. -/
theorem other_layout_moves :
    Storable otherLayoutEnv ∧ ¬PatchReadsBack sampleCodecs sampleImage otherLayoutEnv := by
  refine ⟨by decide, fun readsBack => ?_⟩
  have moved : (ubootenvPatch sampleCodecs sampleImage otherLayoutEnv .inferred none 0xFF
      utf8).toOption.map (fun patched =>
        (ubootenvFind sampleCodecs patched .inferred,
          ubootenvFind sampleCodecs sampleImage .inferred)) =
      some (.ok ⟨40, 56⟩, .ok ⟨48, 56⟩) := by decide +kernel
  cases done : ubootenvPatch sampleCodecs sampleImage otherLayoutEnv .inferred none 0xFF utf8 with
  | error raised =>
    rw [done] at moved
    cases moved
  | ok patched =>
    obtain ⟨found, _⟩ := readsBack patched done
    simp only [done, Except.toOption, Option.map_some, Option.some.injEq, Prod.mk.injEq] at moved
    rw [moved.1, moved.2] at found
    cases found

end UbootTftp
