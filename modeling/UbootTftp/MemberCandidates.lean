import UbootTftp.EmbeddedRecovery

/-!
# The members that are tried

The search tells the region and its members apart by their length and the CRC of their first
4096 bytes, and takes the first of those with one signature. Every member takes part exactly
when none of them differs from another one, or from the region, behind those bytes only.
-/

namespace UbootTftp

section Signatures

variable (codecs : Codecs)

/-- A member that is tried has a signature that was not seen before. By induction on the members,
with the signatures that were seen before left open. -/
theorem fresh_unseen (seen : List (Nat × UInt32)) (members : List (MemberKind × Nat × Bytes)) :
    ∀ member ∈ freshMembers codecs seen members, signature codecs member.2.2 ∉ seen := by
  induction members generalizing seen with
  | nil => exact fun member none => by cases none
  | cons first members inductionHypothesis =>
    intro member fresh
    rw [freshMembers] at fresh
    split at fresh
    · exact inductionHypothesis seen member fresh
    · rename_i unseen
      rcases List.mem_cons.mp fresh with rfl | later
      · exact unseen
      · exact fun known => inductionHypothesis _ member later (List.mem_cons_of_mem _ known)

/-- The members that are tried have distinct signatures.

Proof: by induction on the members; none of those that are tried later has a signature that was seen
before. -/
theorem fresh_distinct (seen : List (Nat × UInt32)) (members : List (MemberKind × Nat × Bytes)) :
    ((freshMembers codecs seen members).map
      (fun member => signature codecs member.2.2)).Nodup := by
  induction members generalizing seen with
  | nil => exact List.nodup_nil
  | cons first members inductionHypothesis =>
    rw [freshMembers]
    split
    · exact inductionHypothesis seen
    · rw [List.map_cons, List.nodup_cons]
      refine ⟨?_, inductionHypothesis _⟩
      intro again
      obtain ⟨member, fresh, same⟩ := List.mem_map.mp again
      exact fresh_unseen codecs _ members member fresh (by rw [same]; exact List.mem_cons_self)

/-- The signature of a member was seen before, or a member that is tried has it.

Proof: by induction on the members, for any signatures that were seen; a member that is tried adds
its own. -/
theorem fresh_covers (seen : List (Nat × UInt32)) (members : List (MemberKind × Nat × Bytes)) :
    ∀ member ∈ members, signature codecs member.2.2 ∈ seen ∨
      ∃ fresh ∈ freshMembers codecs seen members,
        signature codecs fresh.2.2 = signature codecs member.2.2 := by
  induction members generalizing seen with
  | nil => exact fun member none => by cases none
  | cons first members inductionHypothesis =>
    intro member inside
    rw [freshMembers]
    by_cases known : signature codecs first.2.2 ∈ seen
    · rw [if_pos known]
      rcases List.mem_cons.mp inside with rfl | later
      · exact .inl known
      · exact inductionHypothesis seen member later
    · rw [if_neg known]
      rcases List.mem_cons.mp inside with rfl | later
      · exact .inr ⟨member, List.mem_cons_self, rfl⟩
      · rcases inductionHypothesis (signature codecs first.2.2 :: seen) member later with
          before | ⟨fresh, tried, same⟩
        · rcases List.mem_cons.mp before with same | earlier
          · exact .inr ⟨first, List.mem_cons_self, same.symm⟩
          · exact .inl earlier
        · exact .inr ⟨fresh, List.mem_cons_of_mem _ tried, same⟩

end Signatures

section Candidates

variable (codecs : Codecs) (region : Bytes)

/-- The region and the payloads of the members that are found in it, before any of them is dropped
for its signature. -/
def searchedData : List Bytes :=
  region :: (scanCompressedMembers codecs region).map (fun member => member.2.2)

/-- The data that is tried. -/
def candidateData : List Bytes := (iterUbootCandidates codecs region).map Prod.snd

/-- What a member at an offset decompresses to is searched if it is long enough. -/
theorem member_searched (kind : MemberKind) (offset : Nat) (payload : Bytes)
    (inside : offset < region.length - 6) (headed : kind ∈ memberKinds (region.drop offset))
    (decompressed : codecs.decompress kind (region.drop offset) = some payload)
    (long : 128 ≤ payload.length) : payload ∈ searchedData codecs region := by
  have found : (kind, offset, payload) ∈ scanCompressedMembers codecs region := by
    refine List.mem_flatMap.mpr ⟨offset, List.mem_range.mpr inside, ?_⟩
    refine List.mem_filterMap.mpr ⟨kind, headed, ?_⟩
    rw [decompressed]
    exact if_neg (by omega)
  exact List.mem_cons_of_mem _ (List.mem_map.mpr ⟨_, found, rfl⟩)

/-- The region is tried first, then its members. -/
theorem candidate_data_members : candidateData codecs region =
    region :: (freshMembers codecs [signature codecs region]
      (scanCompressedMembers codecs region)).map (fun member => member.2.2) := by
  rw [candidateData, iterUbootCandidates, List.map_cons, List.map_map]
  rfl

/-- What is tried has distinct signatures. -/
theorem candidate_signatures : ((candidateData codecs region).map (signature codecs)).Nodup := by
  rw [candidate_data_members, List.map_cons, List.map_map, List.nodup_cons]
  refine ⟨?_, fresh_distinct codecs _ _⟩
  intro again
  obtain ⟨member, fresh, same⟩ := List.mem_map.mp again
  exact fresh_unseen codecs _ _ member fresh (List.mem_singleton.mpr same)

/-- Every signature of the searched data is tried. That is what the search keeps of the members: one
for each signature, be it the member itself or another one that came before. -/
theorem candidate_covers : ∀ payload ∈ searchedData codecs region,
    ∃ candidate ∈ candidateData codecs region,
      signature codecs candidate = signature codecs payload := by
  intro payload searched
  rw [candidate_data_members]
  rcases List.mem_cons.mp searched with rfl | inside
  · exact ⟨payload, List.mem_cons_self, rfl⟩
  · obtain ⟨member, found, rfl⟩ := List.mem_map.mp inside
    rcases fresh_covers codecs [signature codecs region] _ member found with
      same | ⟨fresh, tried, same⟩
    · exact ⟨region, List.mem_cons_self, (List.mem_singleton.mp same).symm⟩
    · exact ⟨fresh.2.2, List.mem_cons_of_mem _ (List.mem_map_of_mem tried), same⟩

/-- The environments of everything that is tried take part in the choice. -/
theorem candidate_scored : ∀ candidate ∈ candidateData codecs region,
    candidateEnvs candidate ⊆ scoredEnvs codecs region := by
  intro candidate tried scored found
  rw [candidate_data_members] at tried
  rw [scored_envs_members]
  rcases List.mem_cons.mp tried with rfl | inside
  · exact List.mem_append_left _ found
  · obtain ⟨member, fresh, rfl⟩ := List.mem_map.mp inside
    exact List.mem_append_right _ (List.mem_flatMap.mpr ⟨member, fresh, found⟩)

/-- Every payload that is found in the region is tried, and its environments take part in the
choice. -/
def NoMemberLost : Prop :=
  ∀ member ∈ scanCompressedMembers codecs region,
    member.2.2 ∈ candidateData codecs region ∧
      candidateEnvs member.2.2 ⊆ scoredEnvs codecs region

/-- Different data among the region and its members differs in its length or in the CRC of its first
4096 bytes. This speaks of what is found in the region, not of what is tried. -/
def SignaturesSeparate : Prop :=
  ∀ first ∈ searchedData codecs region, ∀ second ∈ searchedData codecs region,
    first.length = second.length → codecs.crc32 (first.take 4096) = codecs.crc32 (second.take 4096) →
      first = second

/-- What is tried is told apart by its signature. If two searched data shared a signature, only one
of them would have been tried. -/
theorem lost_none_separate (kept : NoMemberLost codecs region) :
    SignaturesSeparate codecs region := by
  have tried : ∀ payload ∈ searchedData codecs region, payload ∈ candidateData codecs region := by
    intro payload searched
    rcases List.mem_cons.mp searched with rfl | inside
    · rw [candidate_data_members]
      exact List.mem_cons_self
    · obtain ⟨member, found, rfl⟩ := List.mem_map.mp inside
      exact (kept member found).1
  intro first firstSearched second secondSearched lengths checksums
  have same : signature codecs first = signature codecs second := Prod.ext lengths checksums
  exact List.inj_on_of_nodup_map (candidate_signatures codecs region) (tried first firstSearched)
    (tried second secondSearched) same

end Candidates

/-- For every region and all decompressors: no member is lost exactly when no two different searched
data have one signature.

Proof: of the data with one signature exactly one is tried. If a second one differs it is lost; if
all of them are equal, the one that is tried stands for them. -/
theorem no_member_lost_iff (codecs : Codecs) (region : Bytes) :
    NoMemberLost codecs region ↔ SignaturesSeparate codecs region := by
  constructor
  · exact lost_none_separate codecs region
  · intro separate member found
    have searched : member.2.2 ∈ searchedData codecs region :=
      List.mem_cons_of_mem _ (List.mem_map_of_mem found)
    obtain ⟨candidate, tried, same⟩ := candidate_covers codecs region _ searched
    have payload : candidate ∈ searchedData codecs region := by
      rw [candidate_data_members] at tried
      rcases List.mem_cons.mp tried with rfl | inside
      · exact List.mem_cons_self
      · obtain ⟨fresh, kept, rfl⟩ := List.mem_map.mp inside
        exact List.mem_cons_of_mem _ (List.mem_map_of_mem (fresh_members codecs _ _ kept))
    obtain ⟨lengths, checksums⟩ := Prod.ext_iff.mp same
    rw [← separate candidate payload _ searched lengths checksums]
    exact ⟨tried, candidate_scored codecs region candidate tried⟩

/-- A region with two headers of compressed members. -/
def twoMembers : Bytes :=
  [0x1F, 0x8B, 0x08, 0x1F, 0x8B, 0x08, 0x00, 0x00, 0x00, 0x00, 0x00, 0x00]

/-- A payload of 4096 zero bytes and one byte more. -/
def longPayload (last : UInt8) : Bytes := List.replicate 4096 0x00 ++ [last]

/-- Decompressors under which the payloads of the two members differ in their last byte. -/
def twoPayloads : Codecs where
  crc32 := sampleCrc32
  decompress _ body := some (longPayload (if body.length = 12 then 0x00 else 0x01))

/-- The second of two members with the same first 4096 bytes is lost. Their signatures agree, as
these look at the length and the front of the data only. -/
theorem second_member_lost : ¬NoMemberLost twoPayloads twoMembers := by
  intro kept
  have length : ∀ last, (longPayload last).length = 4097 := fun last => by
    rw [longPayload, List.length_append, List.length_replicate, List.length_singleton]
  have front : ∀ last, (longPayload last).take 4096 = List.replicate 4096 0x00 := fun last =>
    List.take_left' (List.length_replicate)
  have first : longPayload 0x00 ∈ searchedData twoPayloads twoMembers :=
    member_searched _ _ .gzip 0 _ (by decide) (by decide) rfl (by rw [length]; decide)
  have second : longPayload 0x01 ∈ searchedData twoPayloads twoMembers :=
    member_searched _ _ .gzip 3 _ (by decide) (by decide) rfl (by rw [length]; decide)
  have same := lost_none_separate _ _ kept _ first _ second (by rw [length, length])
    (by rw [front, front])
  cases (List.append_cancel_left same)

end UbootTftp
