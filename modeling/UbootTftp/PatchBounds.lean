import UbootTftp.EnvRoundTrip
import UbootTftp.LayoutSources

/-!
# The bounds of a patch

A patch replaces a slice of the image, and slicing accepts bounds beyond the end. The
partition is in the image when the bounds of the arguments and of the embedded environment
are; a layout that is read off the markers alone always is.
-/

namespace UbootTftp

section Builds

variable (codecs : Codecs) (env : Env) (flags : Option Int) (padByte : Int) (encoding : Encoding)

/-- An environment that can be built for a size: all bytes are in range, every entry can be encoded,
and the entries fit. These are the reasons for which the encoder raises, taken together. -/
structure Buildable (size : Int) : Prop where
  pad : isByte padByte = true
  flagsByte : flags.all isByte = true
  fits : ∃ payload, encodeEnvImagePayload env encoding = .ok payload ∧
    headerSize flags + payload.length ≤ size

/-- What the encoder makes of a buildable environment. Each condition is a check of the code, in its
order: the fill, the flags, the entries and the room for them. -/
theorem build_ok (size : Int) (built : Bytes) :
    ubootenvBuild codecs env (some size) flags padByte encoding = .ok built ↔
      isByte padByte = true ∧ flags.all isByte = true ∧ ∃ payload,
        encodeEnvImagePayload env encoding = .ok payload ∧
        headerSize flags + payload.length ≤ size ∧
        built = envImage codecs (flags.map (fun value => UInt8.ofNat value.toNat)).toList
          (payload ++ List.replicate (size - headerSize flags - payload.length).toNat
            (UInt8.ofNat padByte.toNat)) := by
  by_cases pad : isByte padByte = true
  case neg => simp [ubootenvBuild, pad]
  by_cases flagsByte : flags.all isByte = true
  case neg => simp [ubootenvBuild, pad, flagsByte]
  simp only [ubootenvBuild, pad, flagsByte, Bool.true_eq_false, if_false, true_and]
  cases encodeEnvImagePayload env encoding with
  | error raised => simp [bind, Except.bind]
  | ok payload =>
    by_cases narrow : size - headerSize flags < (payload.length : Int)
    · have tight : ¬headerSize flags + payload.length ≤ size := by omega
      simp [bind, Except.bind, fillPayload, narrow, tight]
    · have fits : headerSize flags + payload.length ≤ size := by omega
      simp only [bind, Except.bind, fillPayload, narrow, if_false, Except.ok.injEq, fits,
        exists_eq_left', true_and, envImage]
      exact eq_comm

/-- Exactly the buildable environments are built. -/
theorem build_iff (size : Int) :
    (∃ built, ubootenvBuild codecs env (some size) flags padByte encoding = .ok built) ↔
      Buildable env flags padByte encoding size := by
  simp only [build_ok]
  constructor
  · rintro ⟨_, pad, flagsByte, payload, encoded, fits, _⟩
    exact ⟨pad, flagsByte, payload, encoded, fits⟩
  · rintro ⟨pad, flagsByte, payload, encoded, fits⟩
    exact ⟨_, pad, flagsByte, payload, encoded, fits, rfl⟩

/-- An image has the requested size. It is filled up to that size, with a header of four or of five
octets; a payload that does not fit is refused. -/
theorem build_length (size : Int) (built : Bytes)
    (done : ubootenvBuild codecs env (some size) flags padByte encoding = .ok built) :
    (built.length : Int) = size := by
  obtain ⟨_, _, payload, _, fits, rfl⟩ := (build_ok codecs env flags padByte encoding _ _).mp done
  simp only [env_image_length, List.length_append, List.length_replicate]
  cases flags with
  | none =>
    simp only [headerSize, Option.isNone_none, if_true, Option.map_none, Option.toList_none,
      List.length_nil] at fits ⊢
    omega
  | some value =>
    simp only [headerSize, Option.isNone_some, Bool.false_eq_true, if_false, Option.map_some,
      Option.toList_some, List.length_singleton] at fits ⊢
    omega

end Builds

section Patches

variable (codecs : Codecs) (image : Bytes) (env : Env) (layout : LayoutArguments)
variable (flags : Option Int) (padByte : Int) (encoding : Encoding)

/-- Where a marker is found, the image goes on. A marker is not empty, so at least its first octet
lies behind the boundary. -/
theorem marker_inside (bootOffset boundary : Int)
    (marked : findFirstPostBootMagic image bootOffset = some boundary) :
    boundary < image.length := by
  obtain ⟨position, least, rfl⟩ := Option.map_eq_some_iff.mp marked
  obtain ⟨magic, known, found⟩ := List.mem_filterMap.mp (List.min?_mem least)
  have nonempty : ∀ magic ∈ postBootMagics, 0 < magic.length := by decide
  have present := nonempty magic known
  rcases Sequences.find_from_bound _ _ _ _ found with bound | empty
  · rw [Int.ofNat_eq_natCast]
    omega
  · rw [empty] at present
    cases present

/-- A layout that is read off the markers alone ends at a marker. That is the one way of resolving a
layout that looks at the bytes behind the partition. -/
theorem markers_inside (resolved : PartitionLayout)
    (announced : Announced codecs image layout .markers resolved)
    (boot : layout.knownBootSize = none) (size : layout.envSize = none) :
    resolved.envOffset + resolved.envSize < image.length := by
  have offset := layout.known_together.mp boot
  cases announced with
  | @markers _ _ boundary _ _ _ _ _ _ _ marked =>
    have inside := marker_inside image layout.bootOffset boundary marked
    simp only [offset, size, Option.getD_none]
    omega

/-- A patch puts what is built in the place of the partition. The image may end inside the partition
or before it; then the splice makes it longer. -/
theorem patch_splice (info : EnvPartitionInfo) (built : Bytes)
    (found : ubootenvFind codecs image layout = .ok info)
    (done : ubootenvBuild codecs env (some info.size) flags padByte encoding = .ok built)
    (start : 0 ≤ info.offset) (size : 0 ≤ info.size) :
    ubootenvPatch codecs image env layout flags padByte encoding =
      .ok (Sequences.splice image info.offset.toNat info.size.toNat built) := by
  obtain ⟨offset, located⟩ := Int.eq_ofNat_of_zero_le start
  obtain ⟨length, sized⟩ := Int.eq_ofNat_of_zero_le size
  have front : Sequences.sliceInt image 0 info.offset = image.take offset := by
    rw [located]
    exact Sequences.slice_int_nonneg image 0 offset
  have back : Sequences.sliceInt image (info.offset + info.size) image.length =
      image.drop (offset + length) := by
    rw [located, sized, ← Int.natCast_add, Sequences.slice_int_nonneg, Sequences.slice]
    exact List.take_of_length_le (by rw [List.length_drop])
  simp only [ubootenvPatch, found, done, front, back]
  rw [located, sized, Int.toNat_natCast, Int.toNat_natCast, Sequences.splice]

/-- When a patch is not refused: the layout is usable and the environment can be built for its
partition. That the partition lies in the image is not among the conditions. -/
structure Patchable (resolved : PartitionLayout) : Prop where
  image : image ≠ []
  bootOffset : 0 ≤ layout.bootOffset
  usable : Usable layout resolved
  buildable : Buildable env flags padByte encoding resolved.envSize

/-- The offset of a patchable layout is not negative. -/
theorem Patchable.start {image : Bytes} {env : Env} {layout : LayoutArguments}
    {flags : Option Int} {padByte : Int} {encoding : Encoding} {resolved : PartitionLayout}
    (patchable : Patchable image env layout flags padByte encoding resolved) :
    0 ≤ resolved.envOffset := by
  have order := patchable.usable.order
  have bootOffset := patchable.bootOffset
  omega

/-- A patch succeeds exactly for an announced layout that is patchable, and it writes the
partition of that layout. -/
theorem patch_iff (patched : Bytes) :
    ubootenvPatch codecs image env layout flags padByte encoding = .ok patched ↔
      ∃ source resolved built, Announced codecs image layout source resolved ∧
        Patchable image env layout flags padByte encoding resolved ∧
        ubootenvFind codecs image layout = .ok ⟨resolved.envOffset, resolved.envSize⟩ ∧
        ubootenvBuild codecs env (some resolved.envSize) flags padByte encoding = .ok built ∧
        patched = Sequences.splice image resolved.envOffset.toNat resolved.envSize.toNat built := by
  constructor
  · intro done
    cases found : ubootenvFind codecs image layout with
    | error raised => simp [ubootenvPatch, found] at done
    | ok info =>
      obtain ⟨present, bootOffset, source, resolved, announced, usable, rfl⟩ :=
        (find_iff codecs image layout info).mp found
      cases building : ubootenvBuild codecs env (some resolved.envSize) flags padByte encoding with
      | error raised => simp [ubootenvPatch, found, building] at done
      | ok built =>
        have patchable : Patchable image env layout flags padByte encoding resolved :=
          ⟨present, bootOffset, usable,
            (build_iff codecs env flags padByte encoding _).mp ⟨built, building⟩⟩
        rw [patch_splice codecs image env layout flags padByte encoding _ built found building
          patchable.start usable.envSize.le, Except.ok.injEq] at done
        exact ⟨source, resolved, built, announced, patchable, rfl, building, done.symm⟩
  · rintro ⟨source, resolved, built, announced, patchable, found, building, rfl⟩
    exact patch_splice codecs image env layout flags padByte encoding _ built found building
      patchable.start patchable.usable.envSize.le

/-- A patch is refused, or it keeps the length of the image and every byte outside the partition
that is found for the same arguments; the partition lies in the image and holds what is built for
its size.

The partition and what is built for it are those of the public functions, so the statement mentions
no intermediate result of the patch. -/
def PatchesInPlace : Prop :=
  ∀ patched, ubootenvPatch codecs image env layout flags padByte encoding = .ok patched →
    ∃ info built, ubootenvFind codecs image layout = .ok info ∧
      ubootenvBuild codecs env (some info.size) flags padByte encoding = .ok built ∧
      patched.length = image.length ∧
      (∀ index : Nat, (index : Int) < info.offset ∨ info.offset + info.size ≤ index →
        patched[index]? = image[index]?) ∧
      0 ≤ info.offset ∧ info.offset + info.size ≤ image.length ∧
      Sequences.sliceInt patched info.offset (info.offset + info.size) = built

/-- Every partition that a patch would write, by the bounds that the arguments give or the image
announces, ends inside the image, unless all bounds are read off the markers.

This is about the arguments and the image before the patch. The exception needs no condition, since
a layout between markers always ends inside. -/
def EndsInside : Prop :=
  ∀ source resolved, Announced codecs image layout source resolved →
    Patchable image env layout flags padByte encoding resolved →
    source = .markers ∧ layout.knownBootSize = none ∧ layout.envSize = none ∨
      resolved.envOffset + resolved.envSize ≤ image.length

/-- A patch stays in its place exactly when the announced partition ends inside the image.

Proof: a slice assignment with bounds inside a list keeps its length and the rest; with an end
beyond the list it makes the list longer, so the length alone tells the two apart. -/
theorem patches_in_place_iff :
    PatchesInPlace codecs image env layout flags padByte encoding ↔
      EndsInside codecs image env layout flags padByte encoding := by
  constructor
  · intro inPlace source resolved announced patchable
    obtain ⟨built, building⟩ :=
      (build_iff codecs env flags padByte encoding _).mpr patchable.buildable
    have found := (find_iff codecs image layout _).mpr
      ⟨patchable.image, patchable.bootOffset, source, resolved, announced, patchable.usable, rfl⟩
    have done := (patch_iff codecs image env layout flags padByte encoding _).mpr
      ⟨source, resolved, built, announced, patchable, found, building, rfl⟩
    obtain ⟨_, _, _, _, kept, _⟩ := inPlace _ done
    right
    by_contra beyond
    have start := patchable.start
    have size := patchable.usable.envSize
    have sized := build_length codecs env flags padByte encoding _ built building
    have longer := Sequences.splice_longer image built resolved.envOffset.toNat
      resolved.envSize.toNat (by omega) (by omega) (by omega)
    omega
  · intro inside patched done
    obtain ⟨source, resolved, built, announced, patchable, found, building, rfl⟩ :=
      (patch_iff codecs image env layout flags padByte encoding patched).mp done
    have ends : resolved.envOffset + resolved.envSize ≤ image.length := by
      rcases inside source resolved announced patchable with ⟨rfl, boot, size⟩ | ends
      · exact (markers_inside codecs image layout resolved announced boot size).le
      · exact ends
    obtain ⟨offset, located⟩ := Int.eq_ofNat_of_zero_le patchable.start
    obtain ⟨length, sized⟩ := Int.eq_ofNat_of_zero_le patchable.usable.envSize.le
    have builtLength := build_length codecs env flags padByte encoding _ built building
    refine ⟨_, built, found, building, ?_⟩
    simp only [located, sized, Int.toNat_natCast] at ends builtLength ⊢
    have place : built.length = length := by omega
    have within : offset ≤ image.length := by omega
    refine ⟨Sequences.splice_length image built offset length place (by omega), ?_, by omega,
      ends, ?_⟩
    · rintro index (before | behind)
      · exact Sequences.splice_before image built offset length within index (by omega)
      · exact Sequences.splice_behind image built offset length place within index (by omega)
    · rw [← Int.natCast_add, Sequences.slice_int_nonneg]
      exact Sequences.splice_inside image built offset length place within

/-- What is extracted without an exception is read within the image: the partition that is
found ends inside. A patch does not ask for this. -/
theorem extract_inside (extracted : Env)
    (done : ubootenvExtract codecs image layout = .ok extracted) (info : EnvPartitionInfo)
    (found : ubootenvFind codecs image layout = .ok info) (start : 0 ≤ info.offset)
    (size : 0 < info.size) : info.offset + info.size ≤ image.length := by
  cases resolution : resolvePartitionLayout codecs image layout with
  | error raised => simp [ubootenvFind, resolution] at found
  | ok resolved =>
    simp only [ubootenvFind, resolution, Except.ok.injEq] at found
    subst found
    obtain ⟨offset, located⟩ := Int.eq_ofNat_of_zero_le start
    obtain ⟨length, sized⟩ := Int.eq_ofNat_of_zero_le size.le
    simp only at located sized size
    simp only [ubootenvExtract, resolution, located, sized, ← Int.natCast_add,
      Sequences.slice_int_nonneg, Sequences.slice, List.length_take, List.length_drop] at done ⊢
    by_contra beyond
    rw [if_pos (by omega)] at done
    cases done

end Patches

/-- A layout whose partition starts inside an image of 16 bytes and ends beyond it: the patch
succeeds, and the image it returns is longer. -/
theorem partition_beyond_image :
    ¬PatchesInPlace sampleCodecs [1, 2, 3, 4, 5, 6, 7, 8, 9, 10, 11, 12, 13, 14, 15, 16] sampleEnv
      ⟨0, some 12, none, some 16⟩ none 0xFF utf8 := by
  intro inPlace
  have grown : (ubootenvPatch sampleCodecs [1, 2, 3, 4, 5, 6, 7, 8, 9, 10, 11, 12, 13, 14, 15, 16]
      sampleEnv ⟨0, some 12, none, some 16⟩ none 0xFF utf8).toOption.map List.length =
        some 28 := by decide +kernel
  obtain ⟨patched, done, length⟩ := Option.map_eq_some_iff.mp grown
  obtain ⟨_, _, _, _, kept, _⟩ := inPlace patched (by
    cases result : ubootenvPatch sampleCodecs _ sampleEnv ⟨0, some 12, none, some 16⟩ none 0xFF
      utf8 with
    | error raised => simp [result, Except.toOption] at done
    | ok value => simpa [result, Except.toOption] using done)
  rw [length] at kept
  cases kept

end UbootTftp
