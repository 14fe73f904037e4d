import UbootTftp.EmbeddedRecovery
import UbootTftp.PatchInference

/-!
# Where a patched image is found again

The inference reads the bytes in front of the first marker, or the first two mebibytes. What a
patch writes there can take part in the next inference: as a marker, or as entries that compete
with those that the boot region embeds. Here the conditions for that to do no harm are stated for
the bytes around the partition and for the partition that is built of the environment, each on its
own. Only a decompressor that starts in front of the partition may read on into it, so the
condition on the members speaks of the whole region.
-/

namespace UbootTftp

section Markers

/-- A marker stands at a place behind the smallest boot region. That is 64 KiB; markers in front of
it belong to the boot region and are passed over by the search. -/
def MarkerAt (image : Bytes) (place : Nat) : Prop :=
  0x10000 ≤ place ∧ ∃ magic ∈ postBootMagics, magic <+: image.drop place

variable {image later : Bytes}

/-- A marker takes four bytes. -/
theorem magic_length : ∀ magic ∈ postBootMagics, magic.length = 4 := by decide

/-- No marker is empty. -/
theorem magic_present : ∀ magic ∈ postBootMagics, magic ≠ [] := by decide

/-- The first marker is the first place at which one stands. The code looks for each kind of marker
and takes the least place; here the kinds no longer matter. -/
theorem first_marker_iff (place : Nat) :
    findFirstPostBootMagic image 0 = some (place : Int) ↔
      MarkerAt image place ∧ ∀ earlier < place, ¬MarkerAt image earlier := by
  have start : ((0 : Int) + 0x10000).toNat = 0x10000 := rfl
  simp only [findFirstPostBootMagic, start, Option.map_eq_some_iff, List.min?_eq_some_iff]
  constructor
  · rintro ⟨least, ⟨member, smallest⟩, same⟩
    obtain rfl : least = place := Int.ofNat.inj same
    obtain ⟨magic, known, found⟩ := List.mem_filterMap.mp member
    obtain ⟨behind, stands, -⟩ :=
      (Sequences.find_from_iff (magic_present magic known) _ _).mp found
    refine ⟨⟨behind, magic, known, stands⟩, ?_⟩
    rintro earlier before ⟨reached, other, listed, matched⟩
    cases first : Sequences.findFrom other image 0x10000 with
    | none =>
      exact (Sequences.find_from_none _).mp first earlier reached matched
    | some position =>
      obtain ⟨-, -, none⟩ := (Sequences.find_from_iff (magic_present other listed) _ _).mp first
      have bound := smallest position (List.mem_filterMap.mpr ⟨other, listed, first⟩)
      exact none earlier reached (by omega) matched
  · rintro ⟨⟨behind, magic, known, stands⟩, first⟩
    refine ⟨place, ⟨List.mem_filterMap.mpr ⟨magic, known,
      (Sequences.find_from_iff (magic_present magic known) _ _).mpr ⟨behind, stands,
        fun earlier reached before matched => first earlier before ⟨reached, magic, known, matched⟩⟩⟩,
      fun position member => ?_⟩, rfl⟩
    obtain ⟨other, listed, found⟩ := List.mem_filterMap.mp member
    obtain ⟨reached, matched, -⟩ :=
      (Sequences.find_from_iff (magic_present other listed) _ _).mp found
    by_contra smaller
    exact first position (by omega) ⟨reached, other, listed, matched⟩

/-- Without a first marker none stands anywhere. If one stood somewhere there would be a least
place, and it would be found there. -/
theorem no_marker_iff :
    findFirstPostBootMagic image 0 = none ↔ ∀ place, ¬MarkerAt image place := by
  constructor
  · intro none place marker
    obtain ⟨least, smallest⟩ : ∃ least, MarkerAt image least ∧
        ∀ earlier < least, ¬MarkerAt image earlier := by
      classical
      exact ⟨Nat.find ⟨place, marker⟩, Nat.find_spec ⟨place, marker⟩,
        fun earlier before => Nat.find_min ⟨place, marker⟩ before⟩
    rw [(first_marker_iff least).mpr smallest] at none
    cases none
  · intro absent
    cases marked : findFirstPostBootMagic image 0 with
    | none => rfl
    | some boundary =>
      obtain ⟨least, -, rfl⟩ := Option.map_eq_some_iff.mp marked
      exact absurd ((first_marker_iff least).mp marked).1 (absent least)

/-- Images with their markers at the same places have the same first one. The first place is the
least one of all markers, so it is determined by the places. -/
theorem first_marker_congr (same : ∀ place, MarkerAt later place ↔ MarkerAt image place) :
    findFirstPostBootMagic later 0 = findFirstPostBootMagic image 0 := by
  cases marked : findFirstPostBootMagic image 0 with
  | none =>
    exact no_marker_iff.mpr fun place marker =>
      no_marker_iff.mp marked place ((same place).mp marker)
  | some boundary =>
    obtain ⟨least, -, rfl⟩ := Option.map_eq_some_iff.mp marked
    obtain ⟨stands, first⟩ := (first_marker_iff least).mp marked
    exact (first_marker_iff least).mpr ⟨(same least).mpr stands,
      fun earlier before marker => first earlier before ((same earlier).mp marker)⟩

end Markers

section Blobs

/-- A row of bytes behind which no entry is continued: the last NUL that can end an entry has
something behind it, and nothing behind it can be part of a key.

Fill of FF seals a row, and so does any other byte that is no key byte. Without this, the last entry
in front of the partition could run into the CRC of what is written. -/
def Sealed (front : Bytes) : Prop :=
  ∃ left behind, front = left ++ 0x00 :: behind ∧ behind ≠ [] ∧
    ∀ octet ∈ behind, isKeyByte octet = false

/-- An entry takes some bytes, and no more than there are. -/
theorem entry_bounds (octets : Bytes) (length : Nat) (found : envEntryLength octets = some length) :
    0 < length ∧ length ≤ octets.length := by
  obtain ⟨key, value, rest, rfl, rfl, -⟩ := entry_split octets length found
  simp only [List.length_append, List.length_cons, List.length_nil]
  omega

/-- An entry is matched whatever follows it. -/
theorem entry_followed (octets rest : Bytes) (length : Nat)
    (found : envEntryLength octets = some length) :
    envEntryLength (octets ++ rest) = some length := by
  obtain ⟨key, value, tail, rfl, rfl, present, short, keyBytes, small, plain⟩ :=
    entry_split octets length found
  rw [List.append_assoc _ (0x00 :: tail), List.cons_append]
  exact entry_length_found key value (tail ++ rest) present short keyBytes small plain

/-- An entry that ends within a row of bytes is matched in it. The pattern looks at nothing behind
the NUL that ends the entry. -/
theorem entry_within (octets rest : Bytes) (length : Nat)
    (found : envEntryLength (octets ++ rest) = some length) (inside : length ≤ octets.length) :
    envEntryLength octets = some length := by
  obtain ⟨key, value, tail, whole, rfl, present, short, keyBytes, small, plain⟩ :=
    entry_split _ length found
  have front :
      octets.take (key ++ 0x3D :: value ++ [0x00]).length = key ++ 0x3D :: value ++ [0x00] := by
    have taken := congrArg (List.take (key ++ 0x3D :: value ++ [0x00]).length) whole
    rw [List.take_append_of_le_length inside] at taken
    rw [taken, ← List.singleton_append (l := tail), ← List.append_assoc, List.take_left]
  have same : octets = key ++ 0x3D :: value ++
      0x00 :: octets.drop (key ++ 0x3D :: value ++ [0x00]).length := by
    conv_lhs => rw [← List.take_append_drop (key ++ 0x3D :: value ++ [0x00]).length octets, front]
    simp
  rw [same]
  exact entry_length_found key value _ present short keyBytes small plain

variable {front : Bytes}

/-- An entry that begins in a sealed row ends in front of its end. It ends at the first NUL behind
its beginning, and the row holds one with padding behind it. -/
theorem Sealed.entry_inside (sealed_ : Sealed front) (left right rest : Bytes)
    (split : front = left ++ right) (present : right ≠ []) (length : Nat)
    (found : envEntryLength (right ++ rest) = some length) : length < right.length := by
  obtain ⟨before, behind, rfl, padded, padding⟩ := sealed_
  obtain ⟨key, value, tail, whole, rfl, named, -, keyBytes, -, plain⟩ :=
    entry_split _ length found
  have solid : (0x00 : UInt8) ∉ key ++ 0x3D :: value := by
    intro member
    rcases List.mem_append.mp member with inKey | inValue
    · exact absurd (keyBytes _ inKey) (by decide)
    · rcases List.mem_cons.mp inValue with separator | later
      · exact absurd separator (by decide)
      · exact (plain _ later).1 rfl
  rcases List.append_eq_append_iff.mp split with ⟨more, -, same⟩ | ⟨more, -, same⟩
  · -- The row is within the NUL and the padding, where no entry begins.
    obtain ⟨first, others, rfl⟩ := List.exists_cons_of_ne_nil named
    obtain ⟨start, remaining, rfl⟩ := List.exists_cons_of_ne_nil present
    have named_ : isKeyByte start = true := by
      rw [List.cons_append, List.cons_append, List.cons_append, List.cons.injEq] at whole
      rw [whole.1]
      exact keyBytes first (by simp)
    have padded_ : isKeyByte start = false := by
      cases more with
      | nil =>
        rw [List.nil_append, List.cons.injEq] at same
        rw [← same.1]
        decide
      | cons zero more =>
        rw [List.cons_append, List.cons.injEq] at same
        exact padding start (by rw [same.2]; simp)
    cases named_.symm.trans padded_
  · -- The row ends with the NUL and the padding: the entry ends at this NUL or an earlier one.
    subst same
    have stem : key ++ 0x3D :: value <+: more := by
      rw [List.append_assoc, List.cons_append] at whole
      rcases List.append_eq_append_iff.mp whole with ⟨later, longer, rest_⟩ | ⟨later, longer, -⟩
      · cases later with
        | nil => exact ⟨[], by rw [longer, List.append_nil, List.append_nil]⟩
        | cons zero others =>
          rw [List.cons_append, List.cons.injEq] at rest_
          exact absurd (by rw [longer, ← rest_.1]; simp) solid
      · exact ⟨later, longer.symm⟩
    have bound := stem.length_le
    have positive := List.length_pos_iff.mpr padded
    simp only [List.length_append, List.length_cons, List.length_nil] at bound ⊢
    omega

/-- What follows a sealed row changes none of its entries. -/
theorem Sealed.entry (sealed_ : Sealed front) (left right rest : Bytes)
    (split : front = left ++ right)
    (present : right ≠ []) : envEntryLength (right ++ rest) = envEntryLength right := by
  ext length
  constructor
  · intro found
    have inside := sealed_.entry_inside left right rest split present length found
    exact entry_within right rest length found inside.le
  · exact entry_followed right rest length

/-- Once the bound allows for all entries in a row it does not matter.

Proof: by induction on the bound, for any other one; an entry takes at least a byte, so both bounds
allow for what is left. -/
theorem entry_run_bound (bound other : Nat) (octets : Bytes) (enough : octets.length ≤ bound)
    (otherEnough : octets.length ≤ other) :
    envEntryRun bound octets = envEntryRun other octets := by
  have nothing : envEntryLength [] = none := rfl
  induction bound generalizing other octets with
  | zero =>
    obtain rfl := List.eq_nil_of_length_eq_zero (Nat.le_zero.mp enough)
    cases other with
    | zero => rfl
    | succ other => simp [envEntryRun, nothing]
  | succ bound inductionHypothesis =>
    cases other with
    | zero =>
      obtain rfl := List.eq_nil_of_length_eq_zero (Nat.le_zero.mp otherEnough)
      simp [envEntryRun, nothing]
    | succ other =>
      cases found : envEntryLength octets with
      | none => simp only [envEntryRun, found]
      | some length =>
        obtain ⟨positive, inside⟩ := entry_bounds octets length found
        have shorter : (octets.drop length).length = octets.length - length := List.length_drop
        have same := inductionHypothesis other (octets.drop length) (by omega) (by omega)
        simp only [envEntryRun, found, same]

/-- Entries in a row take no more bytes than there are.

Proof: by induction on the bound; what an entry takes and what the later ones take adds up. -/
theorem entry_run_within (bound : Nat) (octets : Bytes) :
    (envEntryRun bound octets).2 ≤ octets.length := by
  induction bound generalizing octets with
  | zero => exact Nat.zero_le _
  | succ bound inductionHypothesis =>
    cases found : envEntryLength octets with
    | none => simp [envEntryRun, found]
    | some length =>
      have inside := (entry_bounds octets length found).2
      have later := inductionHypothesis (octets.drop length)
      rw [List.length_drop] at later
      simp only [envEntryRun, found]
      omega

/-- What follows a sealed row changes no run of entries in it.

Proof: by induction on the bound; behind an entry that ends in front of the end of the row, the rest
of the row is one that ends in the same way. -/
theorem Sealed.run (sealed_ : Sealed front) (rest : Bytes) (bound : Nat) (left right : Bytes)
    (split : front = left ++ right) (present : right ≠ []) :
    envEntryRun bound (right ++ rest) = envEntryRun bound right := by
  induction bound generalizing left right with
  | zero => rfl
  | succ bound inductionHypothesis =>
    have same := sealed_.entry left right rest split present
    cases found : envEntryLength right with
    | none => simp only [envEntryRun, same, found]
    | some length =>
      have inside := sealed_.entry_inside left right rest split present length (same.trans found)
      have later : right.drop length ≠ [] := by
        rw [← List.length_pos_iff, List.length_drop]
        omega
      have shape : front = (left ++ right.take length) ++ right.drop length := by
        rw [List.append_assoc, List.take_append_drop, split]
      have others := inductionHypothesis _ _ shape later
      simp only [envEntryRun, same, found, List.drop_append_of_le_length inside.le, others]

/-- What follows a sealed row changes no blob in it. The blob that begins in it also ends in it. -/
theorem Sealed.blob (sealed_ : Sealed front) (left right rest : Bytes)
    (split : front = left ++ right)
    (present : right ≠ []) : envBlobAt (right ++ rest) = envBlobAt right ∧
      ∀ blob length, envBlobAt right = some (blob, length) → length ≤ right.length := by
  have within := entry_run_within right.length right
  have same :
      envEntryRun (right ++ rest).length (right ++ rest) = envEntryRun right.length right := by
    rw [sealed_.run rest _ left right split present]
    exact entry_run_bound _ _ _ (by simp) (Nat.le_refl _)
  constructor
  · simp only [envBlobAt, same, List.take_append_of_le_length within]
  · intro blob length found
    simp only [envBlobAt] at found
    split at found
    · cases found
      exact within
    · cases found

/-- The blobs of a sealed row and of what follows it are those of each on its own.

Proof: the blobs are found from left to right, and none of those that begin in the row reaches its
end, so that the search arrives at what follows with its first byte. -/
theorem Sealed.blobs (sealed_ : Sealed front) (rest : Bytes) :
    Sequences.finditer envBlobAt (front ++ rest) =
      Sequences.finditer envBlobAt front ++ Sequences.finditer envBlobAt rest :=
  Sequences.finditer_append envBlobAt front rest fun left right split present =>
    sealed_.blob left right rest split present

end Blobs

section Weights

/-- The plausible environments of a row of bytes, each with what tells its score from that of others
in the same row. The bytes of the whole candidate count for all of them alike and are left out. -/
def weighedEnvs (octets : Bytes) : List (Nat × Env) :=
  (Sequences.finditer envBlobAt octets).filterMap fun blob =>
    if isPlausibleEmbeddedEnv (parseNulDelimitedEnv blob) then
      some (scoreEnv (parseNulDelimitedEnv blob) + min blob.length 4096 / 64,
        parseNulDelimitedEnv blob)
    else none

/-- A score with what all environments of a candidate get for it. -/
def lifted (base : Nat) (scored : Nat × Env) : Nat × Env := (base + scored.1, scored.2)

/-- What the environments of a candidate score. -/
theorem candidate_envs_weighed (candidate : Bytes) :
    candidateEnvs candidate =
      (weighedEnvs candidate).map (lifted (scoreCandidateBytes candidate)) := by
  rw [candidateEnvs, weighedEnvs, List.map_filterMap]
  congr 1
  funext blob
  split
  · simp [lifted, Nat.add_assoc]
  · rfl

/-- The environments of a sealed row and of what follows it. -/
theorem Sealed.weighed {front : Bytes} (sealed_ : Sealed front) (rest : Bytes) :
    weighedEnvs (front ++ rest) = weighedEnvs front ++ weighedEnvs rest := by
  rw [weighedEnvs, sealed_.blobs, List.filterMap_append]
  rfl

/-- What all get alike does not change which is the first of the best. Raising all scores by the
same number keeps their order, and of equal ones the first is kept in both. -/
theorem best_raised (base : Nat) (scored : List (Nat × Env)) :
    (scored.map (lifted base)).foldl keepBest none =
      (scored.foldl keepBest none).map (lifted base) := by
  rw [List.foldl_map]
  change List.foldl _ (Option.map (lifted base) none) scored = _
  refine List.foldl_hom (Option.map (lifted base)) fun best found => ?_
  cases best with
  | none => rfl
  | some held =>
    change (if base + held.1 < base + found.1 then some (lifted base found)
      else some (lifted base held)) = Option.map (lifted base) (if held.1 < found.1 then some found
        else some held)
    by_cases better : held.1 < found.1
    · rw [if_pos better, if_pos (Nat.add_lt_add_left better base)]
      rfl
    · rw [if_neg better, if_neg fun less => better (Nat.lt_of_add_lt_add_left less)]
      rfl

/-- The best is the one that was held before or one of those that follow.

Proof: by induction on the environments, for any one that is held. -/
theorem best_from (scored : List (Nat × Env)) (held : Nat × Env) :
    ∃ best, scored.foldl keepBest (some held) = some best ∧ (best = held ∨ best ∈ scored) := by
  induction scored generalizing held with
  | nil => exact ⟨held, rfl, .inl rfl⟩
  | cons found scored inductionHypothesis =>
    rw [List.foldl_cons]
    by_cases better : held.1 < found.1
    · obtain ⟨best, kept, from_⟩ := inductionHypothesis found
      refine ⟨best, by simpa only [keepBest, if_pos better] using kept, .inr ?_⟩
      rcases from_ with rfl | later
      · exact List.mem_cons_self
      · exact List.mem_cons_of_mem _ later
    · obtain ⟨best, kept, from_⟩ := inductionHypothesis held
      refine ⟨best, by simpa only [keepBest, if_neg better] using kept, ?_⟩
      exact from_.imp id (List.mem_cons_of_mem _)

end Weights

section Conditions

variable (codecs : Codecs) (image : Bytes) (env : Env) (offset size : Nat)

/-- What the probed region of an image holds behind the partition. -/
def behindPartition : Bytes :=
  Sequences.slice image (offset + size) (probeSize image .inferred).toNat

/-- An environment announces the partition, or it announces nothing and the partition lies right in
front of the first marker, with the smallest of the common sizes, behind an embedded environment.

The smallest size is asked for because it is tried first: for a larger one the bytes in front of the
smaller ones would have to embed nothing. -/
def Confirms (found : Env) : Prop :=
  findMtdpartsLayout found = .ok (some (offset, size)) ∨
    findMtdpartsLayout found = .ok none ∧ size = 0x10000 ∧
      findFirstPostBootMagic image 0 = some ((offset : Int) + size) ∧
      ∃ defaultEnv, Embeds codecs (image.take offset) defaultEnv

/-- The first marker stays the first one: it ends in front of the partition, or it stands behind it
and none is formed by the new partition with up to three bytes on its sides.

A marker of four bytes that is formed anew reaches into the partition with at least one byte, so
three bytes on each side are all that can take part in it. -/
def MarkersKept : Prop :=
  (∃ place : Nat, findFirstPostBootMagic image 0 = some (place : Int) ∧ place + 4 ≤ offset) ∨
    (∀ boundary, findFirstPostBootMagic image 0 = some boundary →
      ((offset + size : Nat) : Int) ≤ boundary) ∧
    ∀ magic ∈ postBootMagics, ¬magic <:+: (image.take offset).drop (offset - 3) ++
      (partitionBytes codecs env size ++ (image.drop (offset + size)).take 3)

/-- The probed region reaches over the partition, and what it then embeds confirms the bounds: no
entry runs into the partition, the first of the best among the environments in front of the
partition, in it and behind it announces the same partition, and so does every environment that a
member holds.

The environments are weighed in the three rows separately. Members are taken from the region as a
whole, since nothing is assumed of how far a decompressor reads. -/
structure RegionConfirms : Prop where
  within : ((offset + size : Nat) : Int) ≤ probeSize image .inferred
  closed : Sealed (image.take offset)
  best : ∃ weight found, (weighedEnvs (image.take offset) ++
    (weighedEnvs (partitionBytes codecs env size) ++
      weighedEnvs (behindPartition image offset size))).argmax Prod.fst = some (weight, found) ∧
        Confirms codecs image offset size found
  members : ∀ member ∈ scanCompressedMembers codecs (image.take offset ++
    (partitionBytes codecs env size ++ behindPartition image offset size)),
      ∀ scored ∈ candidateEnvs member.2.2, Confirms codecs image offset size scored.2

/-- The partition lies inside the image, the markers stay where they are, and the inference stops in
front of the partition or is confirmed by what is written.

In the first of the two cases nothing is asked of the environment but that it forms no marker. -/
structure Settled : Prop where
  inside : offset + size ≤ image.length
  markers : MarkersKept codecs image env offset size
  region : probeSize image .inferred ≤ offset ∨ RegionConfirms codecs image env offset size

end Conditions

section Places

variable {codecs : Codecs} {image : Bytes} {env : Env} {offset size : Nat}

/-- Where the partition is not touched, a marker stands in the patched image as before. Either it
ends before the partition begins or it begins behind its end, and there the images agree. -/
theorem marker_at_apart (replacement : Bytes) (sized : replacement.length = size)
    (inside : offset + size ≤ image.length) (place : Nat)
    (apart : place + 4 ≤ offset ∨ offset + size ≤ place) :
    MarkerAt (Sequences.splice image offset size replacement) place ↔ MarkerAt image place := by
  have same : ∀ magic ∈ postBootMagics,
      magic <+: (Sequences.splice image offset size replacement).drop place ↔
        magic <+: image.drop place := by
    intro magic known
    have four := magic_length magic known
    simp only [List.prefix_iff_getElem?, List.getElem?_drop]
    refine forall_congr' fun index => forall_congr' fun short => ?_
    rcases apart with before | behind
    · rw [Sequences.splice_before image replacement offset size (by omega) _ (by omega)]
    · rw [Sequences.splice_behind image replacement offset size sized (by omega) _ (by omega)]
  unfold MarkerAt
  refine and_congr_right fun _ => exists_congr fun magic => and_congr_right fun known => ?_
  exact same magic known

/-- A marker that reaches into the new partition is formed by it and the bytes on its sides. A
marker has four bytes, so three on either side of the partition are enough to look at. -/
theorem marker_at_inside (replacement : Bytes) (sized : replacement.length = size)
    (inside : offset + size ≤ image.length) (place : Nat) (reaches : offset < place + 4)
    (ahead : place < offset + size)
    (marker : MarkerAt (Sequences.splice image offset size replacement) place) :
    ∃ magic ∈ postBootMagics, magic <:+: (image.take offset).drop (offset - 3) ++
      (replacement ++ (image.drop (offset + size)).take 3) := by
  obtain ⟨-, magic, known, stands⟩ := marker
  have four := magic_length magic known
  have front : (image.take offset).length = offset := by
    rw [List.length_take]
    omega
  refine ⟨magic, known, ?_⟩
  have window : (image.take offset).drop (offset - 3) ++
      (replacement ++ (image.drop (offset + size)).take 3) =
        ((Sequences.splice image offset size replacement).drop (offset - 3)).take
          (offset - (offset - 3) + size + 3) := by
    have kept : ((image.take offset).drop (offset - 3)).length = offset - (offset - 3) := by
      rw [List.length_drop, front]
    rw [Sequences.splice, List.append_assoc,
      List.drop_append_of_le_length (by rw [front]; omega), ← kept, Nat.add_assoc,
      List.take_length_add_append, ← sized, List.take_length_add_append]
  have shifted : (Sequences.splice image offset size replacement).drop place =
      ((Sequences.splice image offset size replacement).drop (offset - 3)).drop
        (place - (offset - 3)) := by
    rw [List.drop_drop]
    congr 1
    omega
  have taken := stands.take 4
  rw [List.take_of_length_le (by omega), shifted, List.take_drop] at taken
  rw [window]
  have shorter : ((Sequences.splice image offset size replacement).drop (offset - 3)).take
      (place - (offset - 3) + 4) <+:
        ((Sequences.splice image offset size replacement).drop (offset - 3)).take
          (offset - (offset - 3) + size + 3) :=
    List.take_prefix_take_left (by omega)
  exact (taken.isInfix.trans (List.drop_suffix _ _).isInfix).trans shorter.isInfix

/-- The patched image has the same first marker.

Proof: apart from the partition a marker stands in one image where it stands in the other. One
that touches the partition is excluded in the patched image; in the image itself it is not the
first one. -/
theorem MarkersKept.first (kept : MarkersKept codecs image env offset size)
    (sized : (partitionBytes codecs env size).length = size)
    (inside : offset + size ≤ image.length) :
    findFirstPostBootMagic (withPartition codecs image env offset size) 0 =
      findFirstPostBootMagic image 0 := by
  have apart := marker_at_apart (partitionBytes codecs env size) sized inside
  simp only [withPartition, Int.toNat_natCast]
  rcases kept with ⟨place, marked, before⟩ | ⟨behind, unformed⟩
  · obtain ⟨stands, first⟩ := (first_marker_iff place).mp marked
    rw [marked]
    exact (first_marker_iff place).mpr ⟨(apart place (.inl before)).mpr stands,
      fun earlier less marker => first earlier less
        ((apart earlier (.inl (by omega))).mp marker)⟩
  · refine first_marker_congr fun place => ?_
    by_cases outside : place + 4 ≤ offset ∨ offset + size ≤ place
    · exact apart place outside
    · have reaches : offset < place + 4 ∧ place < offset + size := by omega
      constructor
      · intro marker
        obtain ⟨magic, known, formed⟩ := marker_at_inside (partitionBytes codecs env size) sized inside
          place reaches.1 reaches.2 marker
        exact absurd formed (unformed magic known)
      · intro marker
        -- The first marker would not stand behind the partition.
        cases marked : findFirstPostBootMagic image 0 with
        | none => exact absurd marker (no_marker_iff.mp marked place)
        | some boundary =>
          obtain ⟨least, -, rfl⟩ := Option.map_eq_some_iff.mp marked
          obtain ⟨-, first⟩ := (first_marker_iff least).mp marked
          have late : offset + size ≤ least := Int.ofNat_le.mp (behind _ marked)
          exact absurd marker (first place (by omega))

/-- Without arguments the probed region ends at the first marker, or with the image, but after two
mebibytes at the latest. -/
theorem probe_size_marker (image : Bytes) :
    (∀ boundary, findFirstPostBootMagic image 0 = some boundary →
      probeSize image .inferred = boundary ∧ 0 < boundary) ∧
    (findFirstPostBootMagic image 0 = none →
      probeSize image .inferred = min (image.length : Int) (2 * 1024 * 1024)) := by
  have start : LayoutArguments.inferred.bootOffset = 0 := rfl
  have size : probeSize image .inferred = guessBootProbeSize image 0 := rfl
  constructor
  · intro boundary marked
    have positive : 0 < boundary := by
      obtain ⟨least, -, rfl⟩ := Option.map_eq_some_iff.mp marked
      have reached := ((first_marker_iff least).mp marked).1.1
      change (0 : Int) < (least : Int)
      omega
    refine ⟨?_, positive⟩
    rw [size, guessBootProbeSize, marked]
    simp [positive]
  · intro none
    rw [size, guessBootProbeSize, none, sub_zero]

/-- Without arguments the probed region is the front of the image. How long it is depends on the
first marker of the image, and it is cut at the end of the image. -/
theorem probe_region_front (image : Bytes) :
    probeRegion image .inferred = image.take (probeSize image .inferred).toNat ∧
      0 ≤ probeSize image .inferred := by
  obtain ⟨marked, unmarked⟩ := probe_size_marker image
  have positive : 0 ≤ probeSize image .inferred := by
    cases first : findFirstPostBootMagic image 0 with
    | none =>
      have size := unmarked first
      omega
    | some boundary =>
      obtain ⟨size, later⟩ := marked boundary first
      omega
  obtain ⟨bound, same⟩ := Int.eq_ofNat_of_zero_le positive
  refine ⟨?_, positive⟩
  have start : LayoutArguments.inferred.bootOffset = ((0 : Nat) : Int) := rfl
  rw [probeRegion, same, start, ← Int.natCast_add, Sequences.slice_int_nonneg, Int.toNat_natCast,
    Sequences.slice, List.drop_zero, Nat.zero_add, Nat.sub_zero]

/-- Images of one length with the same first marker are probed up to the same place. -/
theorem probe_size_congr (image later : Bytes) (length : later.length = image.length)
    (marker : findFirstPostBootMagic later 0 = findFirstPostBootMagic image 0) :
    probeSize later .inferred = probeSize image .inferred := by
  have start : LayoutArguments.inferred.bootOffset = 0 := rfl
  simp only [probeSize, guessBootProbeSize, start, length, marker]

/-- A region that embeds an environment with the bounds of a partition places it there. -/
theorem inferred_by_mtdparts (found : Env)
    (probed : ((probeRegion image .inferred).length : Int) = probeSize image .inferred)
    (embedded : Embeds codecs (probeRegion image .inferred) found)
    (announced : findMtdpartsLayout found = .ok (some (offset, size))) (later : 0 < offset)
    (present : 0 < size) : InferredAt codecs image offset size := by
  refine ⟨.mtdparts, _, .mtdparts (.inl rfl) probed embedded announced, ⟨?_, ?_, ?_⟩, ?_, rfl⟩
  · exact Int.natCast_pos.mpr later
  · exact Int.natCast_pos.mpr present
  · change (0 : Int) ≤ 0 + offset
    omega
  · change (0 : Int) + offset = offset
    omega

/-- A partition of the smallest common size in front of the first marker is inferred when nothing is
announced and there is an embedded environment before it. -/
theorem inferred_by_marker (found : Env)
    (probed : ((probeRegion image .inferred).length : Int) = probeSize image .inferred)
    (embedded : Embeds codecs (probeRegion image .inferred) found)
    (unannounced : findMtdpartsLayout found = .ok none) (smallest : size = 0x10000)
    (marked : findFirstPostBootMagic image 0 = some ((offset : Int) + size))
    (boot : ∃ defaultEnv, Embeds codecs (image.take offset) defaultEnv) (later : 0 < offset) :
    InferredAt codecs image offset size := by
  obtain ⟨defaultEnv, embeds⟩ := boot
  have place : (offset : Int) + size - size = offset := by omega
  have front : Sequences.sliceInt image 0 ((offset : Int) + size - size) = image.take offset := by
    rw [place]
    exact Sequences.slice_int_nonneg image 0 offset
  have common : commonEnvSizes = [] ++ (size : Int) :: [0x20000, 0x40000] := by
    rw [smallest]
    rfl
  have room : LayoutArguments.inferred.bootOffset < (offset : Int) + size - size := by
    change (0 : Int) < _
    omega
  refine ⟨.markers, _, .markers (.inl rfl) probed embedded unannounced marked common room
    (front.symm ▸ embeds) (fun smaller member => by cases member), ⟨?_, ?_, ?_⟩, ?_, rfl⟩
  · change (0 : Int) < (offset : Int) + size - size - 0
    omega
  · change (0 : Int) < size
    omega
  · exact room.le
  · exact place

/-- An inferred partition does not start with the image. The boot size before it is positive, and it
follows that. -/
theorem InferredAt.behind {offset size : Int} (inferred : InferredAt codecs image offset size) :
    0 < offset := by
  obtain ⟨_, _, announced, usable, rfl, -⟩ := inferred
  have positive := usable.bootSize
  cases announced with
  | given boot => cases boot
  | @mtdparts found bootSize envSize =>
    change (0 : Int) < bootSize at positive
    change (0 : Int) < 0 + bootSize
    omega
  | @markers found defaultEnv boundary envSize before after missing probed embedded unannounced marked
      common room => exact room

/-- What an inference that stops in front of the partition goes by is not changed: the probed
region, and for a partition between markers the boot region that must embed an environment. -/
theorem Settled.apart (inferred : InferredAt codecs image offset size)
    (stops : probeSize image .inferred ≤ offset) (patched : Bytes)
    (front : patched.take offset = image.take offset)
    (probes : probeSize patched .inferred = probeSize image .inferred) :
    InferredAt codecs patched offset size := by
  obtain ⟨image_region, positive⟩ := probe_region_front image
  obtain ⟨patched_region, -⟩ := probe_region_front patched
  have region : probeRegion patched .inferred = probeRegion image .inferred := by
    have short : (probeSize image .inferred).toNat ≤ offset := by omega
    rw [patched_region, image_region, probes, ← Nat.min_eq_left short, ← List.take_take, front,
      List.take_take]
  obtain ⟨source, resolved, announced, usable, starts, sized⟩ := inferred
  cases announced with
  | given boot => cases boot
  | @mtdparts found bootSize envSize missing probed embedded announced =>
    refine ⟨.mtdparts, _, .mtdparts missing ?_ ?_ announced, usable, starts, sized⟩
    · rw [region, probes]
      exact probed
    · rw [region]
      exact embedded
  | @markers found defaultEnv boundary envSize before after missing probed embedded unannounced marked
      common room =>
    -- A partition in front of the marker that ends the region lies in the region.
    exfalso
    have ends := ((probe_size_marker image).1 boundary marked).1
    have present := usable.envSize
    change boundary - envSize = _ at starts
    change envSize = _ at sized
    change 0 < envSize at present
    omega

/-- A partition as it is built is sealed: it ends in two NULs and fill. -/
theorem Storable.partition_sealed {env : Env} (storable : Storable env) (codecs : Codecs)
    (size : Nat) :
    Sealed (partitionBytes codecs env size) := by
  obtain ⟨front, last, payload, -, -⟩ := storable.payload_last
  refine ⟨toLittleEndian (codecs.crc32 (envPayload env ++
    List.replicate (size - 4 - payloadSize env) 0xFF)) ++ (front ++ last),
    0x00 :: List.replicate (size - 4 - payloadSize env) 0xFF, ?_, by simp, ?_⟩
  · simp only [partitionBytes, envImage]
    rw [payload]
    simp
  · intro octet member
    rcases List.mem_cons.mp member with rfl | fill
    · decide
    · rw [List.eq_of_mem_replicate fill]
      decide

/-- What a region embeds in which the new partition is confirmed.

Proof: the blobs of the region are those in front of the partition, in it and behind it, so the best
of its own environments is the best of the three; an environment of a member that beats it confirms
the bounds as well. -/
theorem RegionConfirms.embeds (confirms : RegionConfirms codecs image env offset size)
    (storable : Storable env) :
    ∃ found, Embeds codecs (image.take offset ++
      (partitionBytes codecs env size ++ behindPartition image offset size)) found ∧
        Confirms codecs image offset size found := by
  obtain ⟨weight, found, best, confirmed⟩ := confirms.best
  generalize whole : image.take offset ++
    (partitionBytes codecs env size ++ behindPartition image offset size) = region
  have own : (candidateEnvs region).foldl keepBest none =
      some (lifted (scoreCandidateBytes region) (weight, found)) := by
    rw [candidate_envs_weighed, best_raised, ← whole, confirms.closed.weighed,
      (storable.partition_sealed codecs size).weighed, keep_best_argmax, best]
    rfl
  obtain ⟨winner, kept, origin⟩ := best_from
    ((freshMembers codecs [signature codecs region] (scanCompressedMembers codecs region)).flatMap
      fun member => candidateEnvs member.2.2) (lifted (scoreCandidateBytes region) (weight, found))
  refine ⟨winner.2, ⟨winner.1, ?_⟩, ?_⟩
  · rw [← keep_best_argmax, scored_envs_members, List.foldl_append, own, kept]
  · rcases origin with rfl | among
    · exact confirmed
    · obtain ⟨member, fresh, scored⟩ := List.mem_flatMap.mp among
      refine confirms.members member ?_ winner scored
      rw [whole]
      exact fresh_members codecs _ _ fresh

/-- Where the conditions hold, the partition of the patched image is inferred where it was. This is
the only step at which the two ways of being settled are told apart. -/
theorem Settled.stays (settled : Settled codecs image env offset size) (storable : Storable env)
    (inferred : InferredAt codecs image offset size) (room : 4 + payloadSize env ≤ size) :
    InferredAt codecs (withPartition codecs image env offset size) offset size := by
  have sized := partition_length codecs env size room
  have inside := settled.inside
  have marker := settled.markers.first sized inside
  have length : (withPartition codecs image env offset size).length = image.length := by
    simp only [withPartition, Int.toNat_natCast]
    exact Sequences.splice_length image _ offset size sized inside
  have probes := probe_size_congr image _ length marker
  have kept : (image.take offset).length = offset := by
    rw [List.length_take]
    omega
  have front : (withPartition codecs image env offset size).take offset = image.take offset := by
    simp only [withPartition, Int.toNat_natCast, Sequences.splice, List.append_assoc]
    exact List.take_left' kept
  rcases settled.region with stops | confirms
  · exact Settled.apart inferred stops _ front probes
  · have within := confirms.within
    obtain ⟨region, positive⟩ := probe_region_front (withPartition codecs image env offset size)
    have shape : probeRegion (withPartition codecs image env offset size) .inferred =
        image.take offset ++ (partitionBytes codecs env size ++ behindPartition image offset size) := by
      have reaches : offset + size ≤ (probeSize image .inferred).toNat := by omega
      obtain ⟨more, bound⟩ := Nat.exists_eq_add_of_le reaches
      rw [region, probes, behindPartition, Sequences.slice, bound, Nat.add_sub_cancel_left]
      simp only [withPartition, Int.toNat_natCast, Sequences.splice, List.append_assoc]
      have first : offset + size + more = (image.take offset).length +
          ((partitionBytes codecs env size).length + more) := by
        rw [kept, sized]
        omega
      rw [first, List.take_length_add_append, List.take_length_add_append]
    have bounded : probeSize image .inferred ≤ image.length := by
      obtain ⟨_, _, announced, -⟩ := inferred
      obtain ⟨image_region, -⟩ := probe_region_front image
      have probed : ((probeRegion image .inferred).length : Int) = probeSize image .inferred := by
        cases announced with
        | given boot => cases boot
        | mtdparts _ probed => exact probed
        | markers _ probed => exact probed
      rw [image_region, List.length_take] at probed
      omega
    have probed : ((probeRegion (withPartition codecs image env offset size) .inferred).length : Int) =
        probeSize (withPartition codecs image env offset size) .inferred := by
      rw [region, List.length_take, length, probes]
      omega
    have later : 0 < offset := by
      have first := inferred.behind
      omega
    have present : 0 < size := by omega
    obtain ⟨found, embeds, announced | ⟨unannounced, smallest, marked, boot⟩⟩ := confirms.embeds storable
    · exact inferred_by_mtdparts found probed (shape.symm ▸ embeds) announced later present
    · exact inferred_by_marker found probed (shape.symm ▸ embeds) unannounced smallest
        (marker.trans marked) (front.symm ▸ boot) later

end Places

/-- For every image, every environment that an image can hold and all decompressors: if the new
partition leaves the inference settled, for the bounds that the image announces and as far as the
environment fits into them, then the patched image has its partition where the image had it and
gives the environment back.

Proof: the place that is inferred for the patched image is the same one, and at this place stands
the partition that has been built. That the conditions are needed is not claimed. -/
theorem patch_reads_back (codecs : Codecs) (image : Bytes) (env : Env) (storable : Storable env)
    (settled : ∀ offset size : Nat, InferredAt codecs image offset size →
      4 + payloadSize env ≤ size → Settled codecs image env offset size) :
    PatchReadsBack codecs image env := by
  refine (reads_back_stays codecs image env storable).mpr fun offset size inferred room => ?_
  obtain ⟨start, positive⟩ := inferred.bounds
  obtain ⟨place, rfl⟩ := Int.eq_ofNat_of_zero_le start
  obtain ⟨length, rfl⟩ := Int.eq_ofNat_of_zero_le positive.le
  have fits : 4 + payloadSize env ≤ length := by omega
  have settles := settled place length inferred fits
  have inside := settles.inside
  exact ⟨by omega, settles.stays storable inferred fits⟩

section Sample

/-- A new environment with more variables than the embedded one of the sample image, which announces
the same layout. -/
def sameLayoutEnv : Env :=
  Dict.ofList [("a".toList, []), ("b".toList, []), ("c".toList, []), ("d".toList, []),
    ("ipaddr".toList, []), ("mtdparts".toList, "f:48(boot),56(env)".toList)]

/-- The sample image announces a partition of 56 bytes behind a boot region of 48 bytes. -/
theorem sample_image_announces (offset size : Nat)
    (inferred : InferredAt sampleCodecs sampleImage offset size) : offset = 48 ∧ size = 56 := by
  have found := (find_inferred sampleCodecs sampleImage offset size).mpr inferred
  have known : ubootenvFind sampleCodecs sampleImage .inferred = .ok ⟨48, 56⟩ := by decide +kernel
  rw [known, Except.ok.injEq, EnvPartitionInfo.mk.injEq] at found
  omega

/-- What is written there confirms the bounds. The region before the bounds ends with the
environment that announces them and three bytes of fill. -/
theorem sample_confirms : RegionConfirms sampleCodecs sampleImage sameLayoutEnv 48 56 where
  within := by decide +kernel
  closed := by
    refine ⟨sampleImage.take 44, [0xFF, 0xFF, 0xFF], by decide +kernel, by simp, ?_⟩
    intro octet member
    obtain rfl : octet = 0xFF := by simpa using member
    decide
  best := by
    have best : ((weighedEnvs (sampleImage.take 48) ++
        (weighedEnvs (partitionBytes sampleCodecs sameLayoutEnv 56) ++
          weighedEnvs (behindPartition sampleImage 48 56))).argmax Prod.fst).any
            (fun scored => decide (findMtdpartsLayout scored.2 = .ok (some (48, 56)))) = true := by
      decide +kernel
    obtain ⟨scored, found, announced⟩ := (Option.any_eq_true _ _).mp best
    exact ⟨scored.1, scored.2, found, .inl (of_decide_eq_true announced)⟩
  members := by
    intro member found
    simp [scanCompressedMembers, sampleCodecs] at found

end Sample

/-- The law applies to the sample image and the environment with the same layout. -/
theorem patch_reads_back_sample : PatchReadsBack sampleCodecs sampleImage sameLayoutEnv := by
  refine patch_reads_back sampleCodecs sampleImage sameLayoutEnv (by decide)
    fun offset size inferred _ => ?_
  obtain ⟨rfl, rfl⟩ := sample_image_announces offset size inferred
  refine ⟨by decide +kernel, .inr ⟨fun boundary marked => ?_, ?_⟩, .inr sample_confirms⟩
  · have none : findFirstPostBootMagic sampleImage 0 = none := by decide +kernel
    cases none.symm.trans marked
  · decide +kernel

end UbootTftp
