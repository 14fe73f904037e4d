import UbootTftp.EnvRoundTrip
import UbootTftp.EmbeddedEnvs

/-!
# Recovering an embedded environment

Around the entries of a default environment a boot region has bytes that are no entries. The
pattern matches nothing before them, all of them in a row, and nothing behind them, so the
region gives one environment; the members that are found in it give none.
-/

namespace UbootTftp

/-- An environment as a boot region embeds it: with enough entries and core variables, and with keys
and values that the pattern accepts.

The bounds are those of the pattern and of the plausibility check. An environment without them is
passed over by the search, so nothing can be said of it. -/
structure Embeddable (env : Env) : Prop where
  enough : 5 ≤ env.entries.length
  core : 2 ≤ keyHits coreEnvKeys env
  keys : ∀ entry ∈ env.entries, entry.1 ≠ [] ∧ entry.1.length ≤ 64 ∧
    ∀ character ∈ entry.1, isKeyCharacter character
  values : ∀ entry ∈ env.entries, (Utf8.encode entry.2).length ≤ 1024 ∧ '\x00' ∉ entry.2 ∧
    '\r' ∉ entry.2 ∧ '\n' ∉ entry.2

/-- The check that a boot region can embed an environment. The bounds are those of the pattern for
entries, and the number of entries and of core keys is what the code takes for plausible. -/
def isEmbeddable (env : Env) : Bool :=
  decide (5 ≤ env.entries.length) && decide (2 ≤ keyHits coreEnvKeys env) &&
    env.entries.all (fun entry => decide (entry.1 ≠ []) && decide (entry.1.length ≤ 64) &&
      entry.1.all isKeyCharacter) &&
    env.entries.all (fun entry => decide ((Utf8.encode entry.2).length ≤ 1024) &&
      decide ('\x00' ∉ entry.2) && decide ('\r' ∉ entry.2) && decide ('\n' ∉ entry.2))

/-- The check accepts exactly the embeddable environments. -/
theorem is_embeddable_iff (env : Env) : isEmbeddable env = true ↔ Embeddable env := by
  simp only [isEmbeddable, Bool.and_eq_true, decide_eq_true_eq, List.all_eq_true, and_assoc]
  constructor
  · rintro ⟨enough, core, keys, values⟩
    exact ⟨enough, core, keys, values⟩
  · rintro ⟨enough, core, keys, values⟩
    exact ⟨enough, core, keys, values⟩

instance (env : Env) : Decidable (Embeddable env) := decidable_of_iff _ (is_embeddable_iff env)

/-- The entries of an environment in a row. -/
def entryBytes (entries : List (Text × Text)) : Bytes :=
  (entries.map entrySegment).flatMap (· ++ [0x00])

/-- No member that is found in the region holds a plausible environment. One that does would compete
with the region's own, and the higher score would decide. -/
def MembersPlain (codecs : Codecs) (region : Bytes) : Prop :=
  ∀ member ∈ scanCompressedMembers codecs region,
    ∀ blob ∈ Sequences.finditer envBlobAt member.2.2,
      isPlausibleEmbeddedEnv (parseNulDelimitedEnv blob) = false

section Entries

/-- A row of entries begins with the bytes of its first one. -/
theorem entry_bytes_cons (entry : Text × Text) (entries : List (Text × Text)) :
    entryBytes (entry :: entries) = (entrySegment entry ++ [0x00]) ++ entryBytes entries := by
  simp [entryBytes]

/-- A row of entries has a byte at least for each of them. -/
theorem entry_bytes_length (entries : List (Text × Text)) :
    entries.length ≤ (entryBytes entries).length := by
  induction entries with
  | nil => exact Nat.le_refl _
  | cons entry entries inductionHypothesis =>
    simp only [entry_bytes_cons, List.length_append, List.length_cons, List.length_nil]
    omega

/-- An entry that is matched is a key, the separator, a value and a NUL, the first one. The
bounds are those of the pattern: a key has one to 64 bytes and a value at most 1024, without
line breaks. -/
theorem entry_split (octets : Bytes) (length : Nat) (found : envEntryLength octets = some length) :
    ∃ key value rest, octets = key ++ 0x3D :: value ++ 0x00 :: rest ∧
      length = (key ++ 0x3D :: value ++ [0x00]).length ∧ key ≠ [] ∧ key.length ≤ 64 ∧
      (∀ octet ∈ key, isKeyByte octet = true) ∧ value.length ≤ 1024 ∧
      ∀ octet ∈ value, octet ≠ 0x00 ∧ octet ≠ 0x0D ∧ octet ≠ 0x0A := by
  simp only [envEntryLength] at found
  split at found
  · rename_i bounded
    split at found
    · cases found
    · rename_i separator rest behind
      split at found
      · rename_i accepted
        obtain ⟨rfl, short, nul⟩ := accepted
        generalize value : rest.takeWhile
          (fun octet => decide (octet ≠ 0x00 ∧ octet ≠ 0x0D ∧ octet ≠ 0x0A)) = taken at *
        have front : rest = taken ++ rest.drop taken.length := by
          rw [← value]
          exact (List.prefix_iff_eq_append.mp (List.takeWhile_prefix _)).symm
        obtain ⟨tail, last⟩ := List.head?_eq_some_iff.mp nul
        have whole : octets = octets.takeWhile isKeyByte ++
            octets.drop (octets.takeWhile isKeyByte).length :=
          (List.prefix_iff_eq_append.mp (List.takeWhile_prefix _)).symm
        refine ⟨octets.takeWhile isKeyByte, taken, tail, ?_, ?_, ?_, bounded.2,
          fun octet => List.mem_takeWhile_imp, short, fun octet member => ?_⟩
        · rw [List.append_assoc, List.cons_append, ← last, ← front, ← behind]
          exact whole
        · cases found
          simp only [List.length_append, List.length_cons, List.length_nil]
          omega
        · exact List.length_pos_iff.mp bounded.1
        · rw [← value] at member
          have accepted := List.mem_takeWhile_imp member
          exact of_decide_eq_true accepted
      · cases found
  · cases found

/-- An entry that is matched begins with a key and the separator. -/
theorem entry_length_shape (octets : Bytes) (length : Nat)
    (found : envEntryLength octets = some length) :
    ∃ key rest, octets = key ++ 0x3D :: rest ∧ ∀ octet ∈ key, isKeyByte octet = true := by
  obtain ⟨key, value, rest, whole, -, -, -, keyBytes, -, -⟩ := entry_split octets length found
  exact ⟨key, value ++ 0x00 :: rest, by rw [whole, List.append_assoc, List.cons_append], keyBytes⟩

/-- The length of an entry at the front, whatever follows it. This is the other direction of
`entry_split`, and what follows the entry plays no part. -/
theorem entry_length_found (key value rest : Bytes) (present : key ≠ []) (short : key.length ≤ 64)
    (keyBytes : ∀ octet ∈ key, isKeyByte octet = true) (small : value.length ≤ 1024)
    (plain : ∀ octet ∈ value, octet ≠ 0x00 ∧ octet ≠ 0x0D ∧ octet ≠ 0x0A) :
    envEntryLength (key ++ 0x3D :: value ++ 0x00 :: rest) =
      some (key ++ 0x3D :: value ++ [0x00]).length := by
  have separator : isKeyByte 0x3D = false := by decide
  have taken : (key ++ 0x3D :: (value ++ 0x00 :: rest)).takeWhile isKeyByte = key := by
    rw [List.takeWhile_append_of_pos keyBytes, List.takeWhile_cons, separator]
    simp
  have valueTaken : (value ++ 0x00 :: rest).takeWhile
      (fun octet => decide (octet ≠ 0x00 ∧ octet ≠ 0x0D ∧ octet ≠ 0x0A)) = value := by
    rw [List.takeWhile_append_of_pos (fun octet member => decide_eq_true (plain octet member)),
      List.takeWhile_cons]
    simp
  have positive := List.length_pos_iff.mpr present
  rw [List.append_assoc, List.cons_append]
  simp only [envEntryLength, taken, List.drop_left, valueTaken]
  rw [if_pos ⟨positive, short⟩, if_pos ⟨trivial, small, rfl⟩]
  simp only [List.length_append, List.length_cons, List.length_nil]
  congr 1
  omega

/-- An entry of an embeddable environment is matched whole. The bytes of its value are looked at
after encoding: they are no NUL and no line break, since the characters are none. -/
theorem Embeddable.entry_length {env : Env} (embeddable : Embeddable env) (entry : Text × Text)
    (member : entry ∈ env.entries) (rest : Bytes) :
    envEntryLength (entrySegment entry ++ 0x00 :: rest) =
      some (entrySegment entry ++ [0x00]).length := by
  obtain ⟨present, short, accepted⟩ := embeddable.keys entry member
  obtain ⟨small, null, return_, newline⟩ := embeddable.values entry member
  have keyBytes : ∀ octet ∈ entry.1.map (fun character => UInt8.ofNat character.toNat),
      isKeyByte octet = true := by
    intro octet inside
    obtain ⟨character, held, rfl⟩ := List.mem_map.mp inside
    exact ((key_character_iff character).mp (accepted character held)).2
  have plain : ∀ octet ∈ Utf8.encode entry.2, octet ≠ 0x00 ∧ octet ≠ 0x0D ∧ octet ≠ 0x0A := by
    intro octet inside
    obtain ⟨character, held, encoded⟩ := List.mem_flatMap.mp inside
    obtain ⟨low, _⟩ := Utf8.encoded_octet character octet encoded
    have absent : ∀ other : Char, other.toNat < 0x80 → other ∉ entry.2 →
        octet ≠ UInt8.ofNat other.toNat := by
      rintro other ascii outside rfl
      obtain ⟨_, _, number⟩ := Utf8.encode_ascii other ascii
      have same : character.toNat = other.toNat := by
        rw [number] at low
        exact (low ascii).symm
      exact outside (Char.toNat_inj.mp same ▸ held)
    exact ⟨absent '\x00' (by decide) null, absent '\r' (by decide) return_,
      absent '\n' (by decide) newline⟩
  exact entry_length_found _ _ rest (by simpa using present) (by simpa using short) keyBytes small
    plain

/-- A row of entries is matched whole when none follows.

Proof: by induction on the entries; the bound goes down by one with each of them, so any bound that
allows for their number will do. -/
theorem entry_run_found (entries : List (Text × Text)) (rest : Bytes) (bound : Nat)
    (enough : entries.length ≤ bound) (stops : envEntryLength rest = none)
    (each : ∀ entry ∈ entries, ∀ rest, envEntryLength (entrySegment entry ++ 0x00 :: rest) =
      some (entrySegment entry ++ [0x00]).length) :
    envEntryRun bound (entryBytes entries ++ rest) =
      (entries.length, (entryBytes entries).length) := by
  induction entries generalizing bound with
  | nil =>
    cases bound with
    | zero => rfl
    | succ bound => simp [envEntryRun, entryBytes, stops]
  | cons entry entries inductionHypothesis =>
    obtain ⟨first, others⟩ := List.forall_mem_cons.mp each
    obtain ⟨bound, rfl⟩ : ∃ other, bound = other + 1 := ⟨bound - 1, by
      rw [List.length_cons] at enough
      omega⟩
    have whole : ∀ tail : Bytes, entrySegment entry ++ 0x00 :: tail =
        (entrySegment entry ++ [0x00]) ++ tail := fun tail => by simp
    have front := first (entryBytes entries ++ rest)
    have later := inductionHypothesis bound (by simpa using enough) others
    rw [whole] at front
    rw [entry_bytes_cons, List.append_assoc _ (entryBytes entries)]
    simp only [envEntryRun, front, List.drop_left, later]
    have total : (entrySegment entry ++ [0x00] ++ entryBytes entries).length =
        (entrySegment entry ++ [0x00]).length + (entryBytes entries).length := List.length_append
    rw [total, List.length_cons]

/-- Where no entry is there is no blob. -/
theorem blob_none (octets : Bytes) (none : envEntryLength octets = none) :
    envBlobAt octets = .none := by
  have run : envEntryRun octets.length octets = (0, 0) := by
    cases octets.length with
    | zero => rfl
    | succ bound => simp [envEntryRun, none]
  simp [envBlobAt, run]

/-- Bytes that end in no key byte and hold no separator begin no entry, whatever follows. A key that
began in them would either end at a separator among them or reach over their last byte. -/
theorem entry_none_before (front rest : Bytes) (present : front ≠ [])
    (plain : (0x3D : UInt8) ∉ front)
    (ends : ∀ octet, front.getLast? = some octet → isKeyByte octet = false) :
    envEntryLength (front ++ rest) = none := by
  refine Option.eq_none_iff_forall_ne_some.mpr fun length found => ?_
  obtain ⟨key, value, shape, keyBytes⟩ := entry_length_shape _ length found
  rcases List.append_eq_append_iff.mp shape with ⟨more, same, _⟩ | ⟨more, same, _⟩
  · -- The key would reach over the last byte.
    obtain ⟨before, last, rfl⟩ : ∃ before last, front = before ++ [last] :=
      ⟨_, _, (List.dropLast_append_getLast present).symm⟩
    have outside := ends last (by simp)
    rw [keyBytes last (by simp [same])] at outside
    cases outside
  · cases more with
    | nil =>
      obtain ⟨before, last, rfl⟩ : ∃ before last, front = before ++ [last] :=
        ⟨_, _, (List.dropLast_append_getLast present).symm⟩
      have outside := ends last (by simp)
      rw [List.append_nil] at same
      rw [keyBytes last (by simp [← same])] at outside
      cases outside
    | cons separator more =>
      rename_i behind
      cases (List.cons.inj behind).1
      exact plain (by simp [same])

/-- Bytes without a separator begin no entry. -/
theorem entry_none_plain (octets : Bytes) (plain : (0x3D : UInt8) ∉ octets) :
    envEntryLength octets = none := by
  refine Option.eq_none_iff_forall_ne_some.mpr fun length found => ?_
  obtain ⟨key, value, shape, _⟩ := entry_length_shape _ length found
  exact plain (by simp [shape])

end Entries

section Regions

variable {env : Env} (embeddable : Embeddable env)

include embeddable

/-- An embeddable environment can be held by an image. -/
theorem Embeddable.storable : Storable env := by
  refine ⟨?_, fun entry member => ?_, fun entry member => (embeddable.values entry member).2.1⟩
  · intro empty
    have enough := embeddable.enough
    rw [empty] at enough
    cases enough
  · obtain ⟨present, _, accepted⟩ := embeddable.keys entry member
    exact ⟨present, accepted⟩

/-- The entries of an embeddable environment are one blob when no entry follows them. The run of
entries is bounded by the length of the bytes, and every entry has at least one. -/
theorem Embeddable.blob (rest : Bytes) (stops : envEntryLength rest = none) :
    envBlobAt (entryBytes env.entries ++ rest) =
      some (entryBytes env.entries, (entryBytes env.entries).length) := by
  have each : ∀ entry ∈ env.entries, ∀ rest, envEntryLength (entrySegment entry ++ 0x00 :: rest) =
      some (entrySegment entry ++ [0x00]).length := embeddable.entry_length
  have bound : env.entries.length ≤ (entryBytes env.entries ++ rest).length := by
    have longer := entry_bytes_length env.entries
    rw [List.length_append]
    omega
  have run := entry_run_found env.entries rest _ bound stops each
  simp only [envBlobAt, run, embeddable.enough, if_true, List.take_left]

/-- The blob is decoded to the environment. -/
theorem Embeddable.decoded : parseNulDelimitedEnv (entryBytes env.entries) = env := by
  have whole := embeddable.storable.decoded 0 0x00
  have payload : envPayload env = entryBytes env.entries ++ [0x00] := rfl
  have ended : ∀ octet ∈ [(0x00 : UInt8)], isFill octet = true :=
    List.forall_mem_singleton.mpr (by decide)
  rw [List.replicate_zero, List.append_nil, payload] at whole
  calc parseNulDelimitedEnv (entryBytes env.entries)
      = parseNulDelimitedEnv (entryBytes env.entries ++ [0x00]) := by
        rw [parseNulDelimitedEnv, parseNulDelimitedEnv, Sequences.rdrop_tail _ _ _ ended]
    _ = env := whole

/-- The region gives the blob of the environment and no other one: the bytes around it hold no
separator, and what stands right before it is no part of a key. -/
theorem Embeddable.found (front behind : Bytes) (frontPlain : (0x3D : UInt8) ∉ front)
    (ends : ∀ octet, front.getLast? = some octet → isKeyByte octet = false)
    (behindPlain : (0x3D : UInt8) ∉ behind) :
    Sequences.finditer envBlobAt (front ++ (entryBytes env.entries ++ behind)) =
      [entryBytes env.entries] := by
  have present : entryBytes env.entries ≠ [] := by
    have longer := entry_bytes_length env.entries
    have enough := embeddable.enough
    rw [← List.length_pos_iff]
    omega
  rw [Sequences.finditer_skip envBlobAt front,
    Sequences.finditer_match envBlobAt _ _ _ present
      (embeddable.blob _ (entry_none_plain _ behindPlain)),
    Sequences.finditer_none]
  · intro left right split _
    apply blob_none
    apply entry_none_plain
    intro inside
    exact behindPlain (by simp [split, inside])
  · intro left right split nonempty
    apply blob_none
    apply entry_none_before right _ nonempty
    · intro inside
      exact frontPlain (by simp [split, inside])
    · intro octet last
      exact ends octet (by rw [split, List.getLast?_append, last]; rfl)

end Regions

/-- Every member of a region that is tried was found in it. -/
theorem fresh_members (codecs : Codecs) (seen : List (Nat × UInt32))
    (members : List (MemberKind × Nat × Bytes)) :
    freshMembers codecs seen members ⊆ members := by
  induction members generalizing seen with
  | nil => exact List.Subset.refl _
  | cons member members inductionHypothesis =>
    rw [freshMembers]
    split
    · exact List.subset_cons_of_subset _ (inductionHypothesis _)
    · exact List.cons_subset_cons _ (inductionHypothesis _)

/-- The plausible environments of one candidate with their scores. The score has three parts: the
markers in the searched bytes, the keys of the environment and its length. -/
def candidateEnvs (candidate : Bytes) : List (Nat × Env) :=
  (Sequences.finditer envBlobAt candidate).filterMap fun blob =>
    if isPlausibleEmbeddedEnv (parseNulDelimitedEnv blob) then
      some (scoreCandidateBytes candidate + scoreEnv (parseNulDelimitedEnv blob) +
        min blob.length 4096 / 64, parseNulDelimitedEnv blob)
    else none

/-- The environments of a region are its own and those of the members that are tried, in this order.
The first of the best is taken, so the region's own come first among equals. -/
theorem scored_envs_members (codecs : Codecs) (region : Bytes) :
    scoredEnvs codecs region = candidateEnvs region ++
      (freshMembers codecs [signature codecs region]
        (scanCompressedMembers codecs region)).flatMap (fun member => candidateEnvs member.2.2) := by
  rw [scoredEnvs, iterUbootCandidates, List.flatMap_cons, List.flatMap_map]
  rfl

/-- An embeddable environment is extracted from a region in which bytes without separators stand
around its entries and no member holds a plausible environment. -/
theorem Embeddable.extracted {env : Env} (embeddable : Embeddable env) (codecs : Codecs)
    (front behind : Bytes) (frontPlain : (0x3D : UInt8) ∉ front)
    (ends : ∀ octet, front.getLast? = some octet → isKeyByte octet = false)
    (behindPlain : (0x3D : UInt8) ∉ behind)
    (members : MembersPlain codecs (front ++ (entryBytes env.entries ++ behind))) :
    extractDefaultEnvFromUboot codecs (front ++ (entryBytes env.entries ++ behind)) = .ok env := by
  generalize whole : front ++ (entryBytes env.entries ++ behind) = region at members ⊢
  have found := embeddable.found front behind frontPlain ends behindPlain
  rw [whole] at found
  have accepted : isPlausibleEmbeddedEnv env = true := by
    simp [isPlausibleEmbeddedEnv, embeddable.enough, embeddable.core]
  have others : ∀ member ∈ freshMembers codecs [signature codecs region]
      (scanCompressedMembers codecs region), candidateEnvs member.2.2 = [] := by
    intro member fresh
    refine List.filterMap_eq_nil_iff.mpr fun blob inside => ?_
    rw [members member (fresh_members codecs _ _ fresh) blob inside]
    rfl
  obtain ⟨score, own⟩ : ∃ score, candidateEnvs region = [(score, env)] := by
    simp only [candidateEnvs, found, List.filterMap_cons, embeddable.decoded, accepted, if_true,
      List.filterMap_nil]
    exact ⟨_, rfl⟩
  have scored : scoredEnvs codecs region = [(score, env)] := by
    rw [scored_envs_members, own, List.flatMap_eq_nil_iff.mpr others, List.append_nil]
  simp only [extractDefaultEnvFromUboot, scored, List.foldl_cons, List.foldl_nil, keepBest]

/-- For every embeddable environment and all decompressors: it is extracted from a boot region that
has its entries and a NUL behind them, with bytes without separators on both sides and no key byte
right before, when no member in the region holds a plausible environment.

Proof: the pattern finds one blob in the region, the blob is decoded to the environment, and the
only scored environment is the best one. -/
theorem embedded_env_recovered (codecs : Codecs) (env : Env) (embeddable : Embeddable env)
    (front behind : Bytes) (frontPlain : (0x3D : UInt8) ∉ front)
    (ends : ∀ octet, front.getLast? = some octet → isKeyByte octet = false)
    (behindPlain : (0x3D : UInt8) ∉ behind)
    (members : MembersPlain codecs (front ++ (entryBytes env.entries ++ 0x00 :: behind))) :
    extractDefaultEnvFromUboot codecs (front ++ (entryBytes env.entries ++ 0x00 :: behind)) =
      .ok env := by
  apply embeddable.extracted codecs front (0x00 :: behind) frontPlain ends _ members
  intro inside
  rcases List.mem_cons.mp inside with zero | later
  · exact absurd zero (by decide)
  · exact behindPlain later

/-- An environment with two core variables. -/
def embeddedSample : Env :=
  Dict.ofList [("bootcmd".toList, "run x".toList), ("bootargs".toList, []), ("a".toList, []),
    ("b".toList, []), ("c".toList, [])]

/-- No member is found in a region when the decompressors find none. -/
theorem sample_members_plain (region : Bytes) : MembersPlain sampleCodecs region := by
  intro member found
  simp [scanCompressedMembers, sampleCodecs] at found

/-- The sample environment is extracted from a region with bytes on both sides of it. -/
theorem embedded_env_recovered_sample :
    extractDefaultEnvFromUboot sampleCodecs
      ([0x41, 0x00] ++ (entryBytes embeddedSample.entries ++ 0x00 :: [0x42])) =
        .ok embeddedSample := by
  refine embedded_env_recovered sampleCodecs embeddedSample (by decide) [0x41, 0x00] [0x42]
    (by decide) ?_ (by decide) (sample_members_plain _)
  intro octet last
  cases last
  decide

end UbootTftp
