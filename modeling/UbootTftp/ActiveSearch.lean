import UbootTftp.ActiveMemory
import UbootTftp.Casing

/-!
# Exactness of the search for active memory

A round of the search keeps exactly the ranges that meet the active addresses, whatever the
batches. What halving makes of a range are its leaves, and a leaf can be active only in a
range that is. So the search ends with the active leaves of the ranges that it was given.
-/

namespace UbootTftp

variable {σ : Type}

namespace Range

/-- A range contains an active address. -/
def Meets (active : Set Int) (range : Range) : Prop := ∃ address ∈ active, range.Has address

/-- A size that is halved without rest until it is at most the least one. For other sizes
`split_range` raises at some stage. -/
inductive HalvesEvenly (minChunk : Int) : Int → Prop
  | small (size : Int) (small : size ≤ minChunk) : HalvesEvenly minChunk size
  | half (size : Int) (large : minChunk < size) (even : size % 2 = 0)
      (halves : HalvesEvenly minChunk (size / 2)) : HalvesEvenly minChunk size

/-- What halving makes of a range, at any stage, down to the ranges that are small enough. The
halves of an odd size would leave out its last address; the code refuses such a size. -/
inductive Piece (minChunk : Int) : Range → Range → Prop
  | whole (range : Range) : Piece minChunk range range
  | lower (addr size : Int) (piece : Range) (large : minChunk < size)
      (part : Piece minChunk (addr, size / 2) piece) : Piece minChunk (addr, size) piece
  | upper (addr size : Int) (piece : Range) (large : minChunk < size)
      (part : Piece minChunk (addr + size / 2, size / 2) piece) : Piece minChunk (addr, size) piece

/-- A piece that is not halved any more. -/
def Leaf (minChunk : Int) (range leaf : Range) : Prop :=
  Piece minChunk range leaf ∧ leaf.2 ≤ minChunk

/-- A leaf that is active, of one of the ranges. -/
def ActiveLeaf (minChunk : Int) (active : Set Int) (ranges : List Range) (leaf : Range) : Prop :=
  ∃ range ∈ ranges, Leaf minChunk range leaf ∧ leaf.Meets active

/-- The two halves of a range. -/
def halves (range : Range) : List Range :=
  [(range.1, range.2 / 2), (range.1 + range.2 / 2, range.2 / 2)]

/-- A piece of a range is inside it.

Proof: by induction on the way from the range to the piece. -/
theorem piece_inside (minChunk : Int) (range piece : Range) (part : Piece minChunk range piece)
    (address : Int) (inside : piece.Has address) : range.Has address := by
  induction part with
  | whole range => exact inside
  | lower addr size piece large part inductionHypothesis =>
    have within := inductionHypothesis inside
    simp only [Has] at within ⊢
    omega
  | upper addr size piece large part inductionHypothesis =>
    have within := inductionHypothesis inside
    simp only [Has] at within ⊢
    omega

/-- A piece of a piece is a piece. -/
theorem piece_trans (minChunk : Int) (range middle piece : Range)
    (first : Piece minChunk range middle) (second : Piece minChunk middle piece) :
    Piece minChunk range piece := by
  induction first with
  | whole range => exact second
  | lower addr size middle large part inductionHypothesis =>
    exact .lower addr size piece large (inductionHypothesis second)
  | upper addr size middle large part inductionHypothesis =>
    exact .upper addr size piece large (inductionHypothesis second)

/-- The halves of a range that is too large are pieces of it. There are two of them, the lower and
the upper one. -/
theorem half_piece (minChunk : Int) (range half : Range) (large : minChunk < range.2)
    (member : half ∈ halves range) : Piece minChunk range half := by
  obtain ⟨addr, size⟩ := range
  simp only [halves, List.mem_cons, List.not_mem_nil, or_false] at member
  cases member with
  | inl same =>
    subst same
    exact .lower addr size _ large (.whole _)
  | inr same =>
    subst same
    exact .upper addr size _ large (.whole _)

/-- The leaves of a range that is small enough. -/
theorem leaf_small (minChunk : Int) (range leaf : Range) (small : range.2 ≤ minChunk) :
    Leaf minChunk range leaf ↔ leaf = range := by
  constructor
  · intro final
    cases final.1 with
    | whole => rfl
    | lower addr size piece large part => exact absurd small (by simpa using large)
    | upper addr size piece large part => exact absurd small (by simpa using large)
  · rintro rfl
    exact ⟨.whole _, small⟩

/-- The leaves of a range that is too large are those of its halves. The range itself is no leaf,
since it is too large. -/
theorem leaf_large (minChunk : Int) (range leaf : Range) (large : minChunk < range.2) :
    Leaf minChunk range leaf ↔ ∃ half ∈ halves range, Leaf minChunk half leaf := by
  constructor
  · rintro ⟨part, small⟩
    cases part with
    | whole => omega
    | lower addr size piece _ part => exact ⟨(addr, size / 2), by simp [halves], part, small⟩
    | upper addr size piece _ part =>
      exact ⟨(addr + size / 2, size / 2), by simp [halves], part, small⟩
  · rintro ⟨half, member, part, small⟩
    exact ⟨piece_trans minChunk range half leaf (half_piece minChunk range half large member) part,
      small⟩

/-- An address of a range of an even size is in one of its halves. -/
theorem half_of_address (range : Range) (address : Int) (even : range.2 % 2 = 0)
    (inside : range.Has address) : ∃ half ∈ halves range, half.Has address := by
  obtain ⟨addr, size⟩ := range
  simp only [halves, List.mem_cons, List.not_mem_nil, or_false, exists_eq_or_imp, exists_eq_left,
    Has] at inside even ⊢
  omega

/-- A half has half the size of its range, rounded down where that is odd. -/
theorem half_size (range half : Range) (member : half ∈ halves range) : half.2 = range.2 / 2 := by
  simp only [halves, List.mem_cons, List.not_mem_nil, or_false] at member
  cases member with
  | inl same => rw [same]
  | inr same => rw [same]

/-- Every address of a range is in one of its leaves, if it halves evenly.

Proof: by induction on the halving; an address of a range that is halved is in one of its halves,
whose size is one for which the halving goes on evenly. -/
theorem leaf_of_address (minChunk size : Int) (even : HalvesEvenly minChunk size) (range : Range)
    (sized : range.2 = size) (address : Int) (inside : range.Has address) :
    ∃ leaf, Leaf minChunk range leaf ∧ leaf.Has address := by
  induction even generalizing range with
  | small size small =>
    subst sized
    exact ⟨range, (leaf_small minChunk range range small).mpr rfl, inside⟩
  | half size large even halves inductionHypothesis =>
    subst sized
    obtain ⟨half, member, within⟩ := half_of_address range address even inside
    obtain ⟨leaf, final, found⟩ := inductionHypothesis half (half_size range half member) within
    exact ⟨leaf, (leaf_large minChunk range leaf large).mpr ⟨half, member, final⟩, found⟩

end Range

/-- Two successive readings of a device differ exactly for the ranges that meet the active
addresses: this holds of every batch of so many ranges that come from the given ones by halving.

Only the ranges that a search can come to are asked for. The states of the device may change as they
like, as long as this holds in each of them. -/
def Device.Detects (device : Device σ) (rambase : Text) (active : Set Int) (minChunk : Int)
    (maxRanges : Int) (ranges : List Range) : Prop :=
  ∀ (state : σ) (batch : List Range) (request : ExecutionRequest), batch ≠ [] →
    (batch.length : Int) ≤ maxRanges →
    (∀ range ∈ batch, ∃ given ∈ ranges, Range.Piece minChunk given range) →
    crc32Request rambase batch = .ok request →
    ∃ (middle last : σ) (first second : Env), device.exec state request = .ok (middle, first) ∧
      device.exec middle request = .ok (last, second) ∧
      ∀ (index : Nat) (range : Range), batch[index]? = some range →
        ∃ text other : Text, first.get (crc32Key index) = some text ∧
          second.get (crc32Key index) = some other ∧ IsWordText text ∧ IsWordText other ∧
          (hexNumber text ≠ hexNumber other ↔ range.Meets active)

section Rounds

open Classical in
/-- The ranges that meet the active addresses. -/
noncomputable def activeRanges (active : Set Int) (ranges : List Range) : List Range :=
  ranges.filter (fun range => decide (range.Meets active))

/-- A range is kept exactly when it is one of those given and meets the active addresses. -/
theorem mem_active_ranges (active : Set Int) (ranges : List Range) (range : Range) :
    range ∈ activeRanges active ranges ↔ range ∈ ranges ∧ range.Meets active := by
  simp [activeRanges]

/-- The keys of a batch can be reported. They are made from an index each, so none of them repeats
another or is one that a session keeps for itself, and `exec` refuses none. -/
theorem crc32_request_ok (rambase : Text) (ranges : List Range) :
    ∃ request, crc32Request rambase ranges = .ok request := by
  have accepted : normalizeReturnKeys (crc32Keys ranges.length) =
      .ok (crc32Keys ranges.length) := by
    have none : (crc32Keys ranges.length).find? invalidReturnKey = none := by
      apply List.find?_eq_none.mpr
      intro key member
      obtain ⟨index, -, rfl⟩ := List.mem_map.mp member
      have plain : ∀ character ∈ crc32Key index, character ∉ ['/', '=', '\r', '\n'] := by
        intro character among
        cases List.mem_cons.mp among with
        | inl underscore =>
          rw [underscore]
          decide
        | inr digit =>
          have decimal := Nat.isDigit_of_mem_toDigits (b := 10) (by omega) (by omega) digit
          intro special
          simp only [List.mem_cons, List.not_mem_nil, or_false] at special
          rcases special with rfl | rfl | rfl | rfl <;> exact absurd decimal (by decide)
      simp only [invalidReturnKey, crc32Key, Bool.or_eq_true, decide_eq_true_eq, List.any_eq_true,
        not_or, not_exists, not_and]
      exact ⟨by simp, fun character among => by simpa using plain character among⟩
    simp [normalizeReturnKeys, none]
  simp [crc32Request, exec, accepted, bind, Except.bind]

/-- The ranges whose readings differ are the ones that the test accepts, if it says so of each
reading.

Proof: by induction on the batch, along both readings at once. -/
theorem differing_ranges (accepts : Range → Bool) (batch : List Range) (first second : List Nat)
    (firstLength : first.length = batch.length) (secondLength : second.length = batch.length)
    (differ : ∀ (index : Nat) (range : Range), batch[index]? = some range →
      (first[index]? ≠ second[index]? ↔ accepts range = true)) :
    ((batch.zip (first.zip second)).filter (fun entry => entry.2.1 != entry.2.2)).map Prod.fst =
      batch.filter accepts := by
  induction batch generalizing first second with
  | nil => rfl
  | cons range batch inductionHypothesis =>
    match first, second, firstLength, secondLength with
    | value :: first, value' :: second, firstLength, secondLength =>
      have here := differ 0 range rfl
      have later := inductionHypothesis first second (by simpa using firstLength)
        (by simpa using secondLength) (fun index other held => differ (index + 1) other held)
      simp only [List.getElem?_cons_zero, ne_eq, Option.some.injEq] at here
      simp only [List.zip_cons_cons]
      by_cases same : value = value'
      · have refused : accepts range = false := by
          by_contra accepted
          exact here.mpr (by simpa using accepted) same
        rw [List.filter_cons_of_neg (by simp [same]), List.filter_cons_of_neg (by simp [refused])]
        exact later
      · have accepted := here.mp same
        rw [List.filter_cons_of_pos (by simp [same]), List.filter_cons_of_pos accepted,
          List.map_cons, later]

variable {device : Device σ} {rambase : Text} {active : Set Int} {minChunk maxRanges : Int}
  {ranges : List Range}

/-- Two readings of a batch show which of its ranges are active. The device is read twice, and what
is assumed of it is only that a range in which an address changes gives two different numbers and
any other range the same one. The two readings may start from any state of the device. -/
theorem batch_readings (detects : device.Detects rambase active minChunk maxRanges ranges)
    (state : σ) (batch : List Range) (present : batch ≠ [])
    (sized : (batch.length : Int) ≤ maxRanges)
    (pieces : ∀ range ∈ batch, ∃ given ∈ ranges, Range.Piece minChunk given range) :
    ∃ (first second : List Nat) (middle last : σ),
      crc32 device rambase state batch true = .ok (first, middle) ∧
      crc32 device rambase middle batch true = .ok (second, last) ∧
      ((batch.zip (first.zip second)).filter (fun entry => entry.2.1 != entry.2.2)).map Prod.fst =
        activeRanges active batch := by
  classical
  obtain ⟨request, asked⟩ := crc32_request_ok rambase batch
  obtain ⟨middle, last, firstEnv, secondEnv, ran, ranAgain, reports⟩ :=
    detects state batch request present sized pieces asked
  have read : ∀ index : Nat, index < batch.length → ∃ value value' : Nat,
      crc32Value firstEnv true (crc32Key index) = .ok value ∧
      crc32Value secondEnv true (crc32Key index) = .ok value' ∧
      ∀ range, batch[index]? = some range → (value ≠ value' ↔ range.Meets active) := by
    intro index inside
    obtain ⟨text, other, reported, reportedAgain, word, otherWord, differ⟩ :=
      reports index batch[index] (List.getElem?_eq_getElem inside)
    obtain ⟨value, value', readFirst, readSecond, exactly⟩ :=
      crc32_values_differ firstEnv secondEnv _ text other reported reportedAgain word otherWord
    refine ⟨value, value', readFirst, readSecond, ?_⟩
    intro range held
    rw [List.getElem?_eq_getElem inside] at held
    cases held
    exact exactly.trans differ
  choose! first second readFirst readSecond differ using read
  have values (env : Env) (value : Nat → Nat)
      (each : ∀ index < batch.length, crc32Value env true (crc32Key index) = .ok (value index)) :
      (crc32Keys batch.length).mapM (crc32Value env true) =
        .ok ((List.range batch.length).map value) := by
    rw [crc32Keys, List.mapM_map]
    apply map_m_ok
    intro index member
    exact each index (List.mem_range.mp member)
  refine ⟨(List.range batch.length).map first, (List.range batch.length).map second, middle, last,
    ?_, ?_, ?_⟩
  · simp only [crc32, asked, ran, bind, Except.bind, values firstEnv first readFirst]
  · simp only [crc32, asked, ranAgain, bind, Except.bind, values secondEnv second readSecond]
  · apply differing_ranges
    · simp
    · simp
    · intro index range held
      obtain ⟨inside, -⟩ := List.getElem?_eq_some_iff.mp held
      have exactly := differ index inside range held
      simp only [List.getElem?_map, List.getElem?_range inside, Option.map_some, ne_eq,
        Option.some.injEq, decide_eq_true_eq]
      exact exactly

/-- A round keeps the ranges that are active, in their order.

Proof: by induction on the batches, each of which is read twice in a row. -/
theorem changed_ranges (detects : device.Detects rambase active minChunk maxRanges ranges)
    (batches : List (List Range)) (state : σ)
    (shaped : ∀ batch ∈ batches, batch ≠ [] ∧ (batch.length : Int) ≤ maxRanges)
    (pieces : ∀ range ∈ batches.flatten, ∃ given ∈ ranges, Range.Piece minChunk given range) :
    ∃ after, changedRanges device rambase batches state =
      .ok (activeRanges active batches.flatten, after) := by
  induction batches generalizing state with
  | nil => exact ⟨state, rfl⟩
  | cons batch batches inductionHypothesis =>
    obtain ⟨present, sized⟩ := shaped batch (by simp)
    obtain ⟨first, second, middle, last, ran, ranAgain, changed⟩ :=
      batch_readings detects state batch present sized
        (fun range member => pieces range (by simp [member]))
    obtain ⟨after, later⟩ := inductionHypothesis last
      (fun other member => shaped other (List.mem_cons_of_mem _ member))
      (fun range member => pieces range (by
        rw [List.flatten_cons]
        exact List.mem_append_right _ member))
    refine ⟨after, ?_⟩
    simp only [changedRanges, ran, ranAgain, later, bind, Except.bind, changed]
    simp [activeRanges]

end Rounds

section Batches

/-- Cutting a list into parts of one size. -/
theorem chunks_flatten (items : List Range) (size count : Nat) :
    ((List.range count).map fun index => (items.drop (index * size)).take size).flatten =
      items.take (count * size) := by
  induction count with
  | zero => simp
  | succ count inductionHypothesis =>
    rw [List.range_succ, List.map_append, List.flatten_append, inductionHypothesis,
      Nat.succ_mul, List.take_add]
    simp

/-- The batches are not empty, have at most the size asked for, and are all of the list. The size
has to be positive: for zero the code divides by it, and for a negative one it makes no batches at
all. -/
theorem batched_parts (items : List Range) (size : Int) (positive : 1 ≤ size) :
    ∃ batches, batched items size = .ok batches ∧ batches.flatten = items ∧
      ∀ batch ∈ batches, batch ≠ [] ∧ (batch.length : Int) ≤ size := by
  obtain ⟨width, rfl⟩ := Int.eq_ofNat_of_zero_le (show 0 ≤ size by omega)
  have wide : 0 < width := by omega
  have notZero : ¬((width : Int) = 0) := by omega
  have notNegative : ¬((width : Int) < 0) := by omega
  refine ⟨(List.range ((items.length + width - 1) / width)).map fun index =>
    (items.drop (index * width)).take width, ?_, ?_, ?_⟩
  · simp only [batched, notZero, notNegative, if_false, Int.toNat_natCast]
  · rw [chunks_flatten]
    apply List.take_of_length_le
    have rest := Nat.mod_lt (items.length + width - 1) wide
    have division := Nat.div_add_mod (items.length + width - 1) width
    rw [Nat.mul_comm] at division
    omega
  · intro batch member
    obtain ⟨index, counted, rfl⟩ := List.mem_map.mp member
    have before : (index + 1) * width ≤ items.length + width - 1 :=
      (Nat.le_div_iff_mul_le wide).mp (List.mem_range.mp counted)
    have start : index * width < items.length := by
      rw [Nat.succ_mul] at before
      omega
    constructor
    · apply List.ne_nil_of_length_pos
      rw [List.length_take, List.length_drop]
      omega
    · rw [List.length_take]
      omega

/-- A range of an even size is split into its halves. -/
theorem split_range_halves (range : Range) (even : range.2 % 2 = 0) :
    splitRange range.1 range.2 2 = .ok range.halves := by
  simp [splitRange, even, Range.halves, List.range_succ]

end Batches

section Search

variable {active : Set Int} {minChunk size : Int}

/-- The active leaves are those of the ranges that are active. A leaf that holds an active address
lies in a range that holds it as well. -/
theorem active_leaf_ranges (ranges : List Range) (leaf : Range) :
    Range.ActiveLeaf minChunk active (activeRanges active ranges) leaf ↔
      Range.ActiveLeaf minChunk active ranges leaf := by
  constructor
  · rintro ⟨range, member, final, meets⟩
    exact ⟨range, ((mem_active_ranges active ranges range).mp member).1, final, meets⟩
  · rintro ⟨range, member, final, meets⟩
    obtain ⟨address, inActive, inside⟩ := meets
    have within := Range.piece_inside minChunk range leaf final.1 address inside
    exact ⟨range, (mem_active_ranges active ranges range).mpr ⟨member, address, inActive, within⟩,
      final, address, inActive, inside⟩

/-- The active leaves of ranges that are small enough are the active ranges. They are their own
leaves. -/
theorem active_leaf_small (ranges : List Range) (leaf : Range)
    (small : ∀ range ∈ ranges, range.2 ≤ minChunk) :
    Range.ActiveLeaf minChunk active ranges leaf ↔ leaf ∈ activeRanges active ranges := by
  rw [mem_active_ranges]
  constructor
  · rintro ⟨range, member, final, meets⟩
    rw [Range.leaf_small minChunk range leaf (small range member)] at final
    subst final
    exact ⟨member, meets⟩
  · rintro ⟨member, meets⟩
    exact ⟨leaf, member, (Range.leaf_small minChunk leaf leaf (small leaf member)).mpr rfl, meets⟩

/-- Splitting ranges that are too large keeps their active leaves. This and the two before it are
what carries the leaves through the induction over the sizes. -/
theorem active_leaf_large (ranges : List Range) (leaf : Range)
    (large : ∀ range ∈ ranges, minChunk < range.2) :
    Range.ActiveLeaf minChunk active (ranges.flatMap Range.halves) leaf ↔
      Range.ActiveLeaf minChunk active ranges leaf := by
  constructor
  · rintro ⟨half, member, final, meets⟩
    obtain ⟨range, among, part⟩ := List.mem_flatMap.mp member
    exact ⟨range, among, (Range.leaf_large minChunk range leaf (large range among)).mpr
      ⟨half, part, final⟩, meets⟩
  · rintro ⟨range, member, final, meets⟩
    obtain ⟨half, part, smaller⟩ :=
      (Range.leaf_large minChunk range leaf (large range member)).mp final
    exact ⟨half, List.mem_flatMap.mpr ⟨range, member, part⟩, smaller, meets⟩

/-- What the search is to return for ranges: separated ranges with the addresses of their active
leaves, from every device that detects the active addresses, whatever its state and the size of the
batches.

The result is chosen before the device, the batches and the bound on the rounds, so that it does not
depend on them. -/
def Searches (rambase : Text) (active : Set Int) (minChunk : Int) (given ranges : List Range)
    (result : List Range) : Prop :=
  Range.Separated result ∧ (∀ range ∈ result, 0 ≤ range.2) ∧
    (∀ address, Range.Covers result address ↔
      ∃ leaf, Range.ActiveLeaf minChunk active ranges leaf ∧ leaf.Has address) ∧
    ∀ (σ : Type) (device : Device σ) (maxRanges : Int), 1 ≤ maxRanges →
      device.Detects rambase active minChunk maxRanges given → ∀ state : σ,
        ∃ after bound, ∀ rounds, bound ≤ rounds →
          findActive device rambase minChunk 2 maxRanges rounds ranges state =
            .ok (some (result, after))

/-- One round of the search, up to what is done with the active ranges. What the device answers is
used here and nowhere else in the search. -/
theorem round_changed (rambase : Text) (given : List Range) (device : Device σ) (maxRanges : Int)
    (atLeast : 1 ≤ maxRanges) (detects : device.Detects rambase active minChunk maxRanges given)
    (state : σ) (range : Range) (rest : List Range)
    (pieces : ∀ part ∈ range :: rest, ∃ input ∈ given, Range.Piece minChunk input part) :
    ∃ batches after, batched (range :: rest) maxRanges = .ok batches ∧
      changedRanges device rambase batches state =
        .ok (activeRanges active (range :: rest), after) := by
  obtain ⟨batches, cut, whole, shaped⟩ := batched_parts (range :: rest) maxRanges atLeast
  obtain ⟨after, changed⟩ := changed_ranges detects batches state shaped (by
    rw [whole]
    exact pieces)
  rw [whole] at changed
  exact ⟨batches, after, cut, changed⟩

/-- Without an active range the search returns nothing. It does so behind one round of readings, or
at once where there are no ranges to read. -/
theorem search_inactive (rambase : Text) (given ranges : List Range)
    (pieces : ∀ range ∈ ranges, ∃ input ∈ given, Range.Piece minChunk input range)
    (inactive : activeRanges active ranges = []) :
    Searches rambase active minChunk given ranges [] := by
  refine ⟨List.Pairwise.nil, by simp, ?_, ?_⟩
  · intro address
    constructor
    · rintro ⟨range, member, -⟩
      cases member
    · rintro ⟨leaf, final, -⟩
      rw [← active_leaf_ranges, inactive] at final
      obtain ⟨range, member, -⟩ := final
      cases member
  · intro σ device maxRanges atLeast detects state
    cases ranges with
    | nil => exact ⟨state, 0, fun rounds _ => by simp [findActive]⟩
    | cons range rest =>
      obtain ⟨batches, after, cut, changed⟩ := round_changed rambase given device maxRanges atLeast
        detects state range rest pieces
      refine ⟨after, 1, ?_⟩
      intro rounds enough
      obtain ⟨rounds, rfl⟩ := Nat.exists_eq_add_of_le' enough
      simp only [findActive, cut, changed, inactive, bind, Except.bind]

/-- Active ranges that are small enough are merged. The recursion ends here. The result is made of
ranges of at most the smallest size, merged where they touch. -/
theorem search_small (rambase : Text) (given ranges : List Range)
    (pieces : ∀ range ∈ ranges, ∃ input ∈ given, Range.Piece minChunk input range)
    (small : ∀ range ∈ ranges, range.2 ≤ minChunk) (found : activeRanges active ranges ≠ []) :
    Searches rambase active minChunk given ranges (coalesceRanges (activeRanges active ranges)) := by
  have sizes : ∀ range ∈ activeRanges active ranges, 0 ≤ range.2 := by
    intro range member
    obtain ⟨-, address, -, inside⟩ := (mem_active_ranges active ranges range).mp member
    simp only [Range.Has] at inside
    omega
  refine ⟨coalesce_separated _, coalesce_sizes _ sizes, ?_, ?_⟩
  · intro address
    rw [coalesce_covers]
    simp only [Range.Covers, active_leaf_small ranges _ small]
  · intro σ device maxRanges atLeast detects state
    cases ranges with
    | nil => exact absurd rfl found
    | cons range rest =>
      obtain ⟨batches, after, cut, changed⟩ := round_changed rambase given device maxRanges atLeast
        detects state range rest pieces
      refine ⟨after, 1, ?_⟩
      intro rounds enough
      obtain ⟨rounds, rfl⟩ := Nat.exists_eq_add_of_le' enough
      cases head : activeRanges active (range :: rest) with
      | nil => exact absurd head found
      | cons first others =>
        have among : first ∈ activeRanges active (range :: rest) := by simp [head]
        have least := small first ((mem_active_ranges active _ first).mp among).1
        simp only [findActive, cut, changed, head, bind, Except.bind, least, if_true]

/-- Active ranges that are too large are split, and the search goes on with the halves. Halving an
even size loses no address, and every half is again a piece of a given range. The search of the
halves is assumed here; the induction over the sizes supplies it. -/
theorem search_large (rambase : Text) (given ranges result : List Range)
    (pieces : ∀ range ∈ ranges, ∃ input ∈ given, Range.Piece minChunk input range)
    (large : ∀ range ∈ ranges, minChunk < range.2) (even : ∀ range ∈ ranges, range.2 % 2 = 0)
    (found : activeRanges active ranges ≠ [])
    (searches : Searches rambase active minChunk given
      ((activeRanges active ranges).flatMap Range.halves) result) :
    Searches rambase active minChunk given ranges result := by
  have among : ∀ range ∈ activeRanges active ranges, range ∈ ranges := fun range member =>
    ((mem_active_ranges active ranges range).mp member).1
  obtain ⟨separated, sizes, covers, returns⟩ := searches
  refine ⟨separated, sizes, ?_, ?_⟩
  · intro address
    rw [covers]
    simp only [active_leaf_large (activeRanges active ranges) _
      (fun range member => large range (among range member)), active_leaf_ranges]
  · intro σ device maxRanges atLeast detects state
    cases ranges with
    | nil => exact absurd rfl found
    | cons range rest =>
      obtain ⟨batches, middle, cut, changed⟩ := round_changed rambase given device maxRanges atLeast
        detects state range rest pieces
      obtain ⟨after, bound, later⟩ := returns σ device maxRanges atLeast detects middle
      refine ⟨after, bound + 1, ?_⟩
      intro rounds enough
      obtain ⟨rounds, rfl⟩ := Nat.exists_eq_add_of_le' (Nat.le_trans (Nat.le_add_left 1 bound) enough)
      have split : (activeRanges active (range :: rest)).mapM
          (fun range => splitRange range.1 range.2 2) =
            .ok ((activeRanges active (range :: rest)).map Range.halves) :=
        map_m_ok _ Range.halves _ fun part member =>
          split_range_halves part (even part (among part member))
      have rest' := later rounds (by omega)
      rw [List.flatMap_def] at rest'
      cases head : activeRanges active (range :: rest) with
      | nil => exact absurd head found
      | cons first others =>
        have tooLarge := large first (among first (by simp [head]))
        rw [head] at split rest'
        simp only [findActive, cut, changed, head, bind, Except.bind, not_le_of_gt tooLarge,
          if_false, split]
        exact rest'

/-- The search is exact for ranges of one size that halves evenly.

Proof: by induction on the halving. A round keeps the active ranges; it ends the search when
there is none and when they are small enough, and otherwise their halves are searched. -/
theorem search_exact (rambase : Text) (given : List Range)
    (halves : Range.HalvesEvenly minChunk size) (ranges : List Range)
    (common : ∀ range ∈ ranges, range.2 = size)
    (pieces : ∀ range ∈ ranges, ∃ input ∈ given, Range.Piece minChunk input range) :
    ∃ result, Searches rambase active minChunk given ranges result := by
  by_cases found : activeRanges active ranges = []
  · exact ⟨[], search_inactive rambase given ranges pieces found⟩
  · induction halves generalizing ranges with
    | small size small =>
      exact ⟨_, search_small rambase given ranges pieces
        (fun range member => (common range member).trans_le small) found⟩
    | half size large even halves inductionHypothesis =>
      have tooLarge : ∀ range ∈ ranges, minChunk < range.2 := fun range member =>
        large.trans_eq (common range member).symm
      have evenSizes : ∀ range ∈ ranges, range.2 % 2 = 0 := by
        intro range member
        rw [common range member]
        exact even
      have part : ∀ half ∈ (activeRanges active ranges).flatMap Range.halves,
          ∃ range ∈ ranges, half ∈ range.halves := by
        intro half member
        obtain ⟨range, among, inside⟩ := List.mem_flatMap.mp member
        exact ⟨range, ((mem_active_ranges active ranges range).mp among).1, inside⟩
      have halfSizes : ∀ half ∈ (activeRanges active ranges).flatMap Range.halves,
          half.2 = size / 2 := by
        intro half member
        obtain ⟨range, among, inside⟩ := part half member
        rw [← common range among]
        exact Range.half_size range half inside
      have halfPieces : ∀ half ∈ (activeRanges active ranges).flatMap Range.halves,
          ∃ input ∈ given, Range.Piece minChunk input half := by
        intro half member
        obtain ⟨range, among, inside⟩ := part half member
        obtain ⟨input, isGiven, piece⟩ := pieces range among
        exact ⟨input, isGiven, Range.piece_trans minChunk input range half piece
          (Range.half_piece minChunk range half (tooLarge range among) inside)⟩
      have later : ∃ result, Searches rambase active minChunk given
          ((activeRanges active ranges).flatMap Range.halves) result := by
        by_cases none : activeRanges active ((activeRanges active ranges).flatMap Range.halves) = []
        · exact ⟨[], search_inactive rambase given _ halfPieces none⟩
        · exact inductionHypothesis _ halfSizes halfPieces none
      obtain ⟨result, searches⟩ := later
      exact ⟨result, search_large rambase given ranges result pieces tooLarge evenSizes found
        searches⟩

end Search

/-- The search for active memory is exact: for ranges of one size that halves evenly it terminates,
and the result is the same for every size of the batches and every device that detects the active
addresses. It is sorted, leaves a gap between any two ranges, covers exactly the leaves that are
active, and so every active address of the given ranges. -/
theorem find_active_exact (rambase : Text) (active : Set Int) (minChunk size : Int)
    (ranges : List Range) (common : ∀ range ∈ ranges, range.2 = size)
    (even : Range.HalvesEvenly minChunk size) :
    ∃ result : List Range,
      result.Pairwise (fun earlier later =>
        earlier.1 < later.1 ∧ earlier.1 + earlier.2 < later.1) ∧
      (∀ address, Range.Covers result address ↔
        ∃ range ∈ ranges, ∃ leaf, Range.Leaf minChunk range leaf ∧ leaf.Meets active ∧
          leaf.Has address) ∧
      (∀ range ∈ ranges, ∀ address ∈ active, range.Has address → Range.Covers result address) ∧
      ∀ (σ : Type) (device : Device σ) (maxRanges : Int), 1 ≤ maxRanges →
        device.Detects rambase active minChunk maxRanges ranges → ∀ state : σ,
          ∃ after bound, ∀ rounds, bound ≤ rounds →
            findActive device rambase minChunk 2 maxRanges rounds ranges state =
              .ok (some (result, after)) := by
  obtain ⟨result, separated, sizes, covers, returns⟩ :=
    search_exact rambase ranges even ranges common
      (fun range member => ⟨range, member, .whole range⟩)
  have exactly : ∀ address, Range.Covers result address ↔
      ∃ range ∈ ranges, ∃ leaf, Range.Leaf minChunk range leaf ∧ leaf.Meets active ∧
        leaf.Has address := by
    intro address
    rw [covers]
    constructor
    · rintro ⟨leaf, ⟨range, member, final, meets⟩, inside⟩
      exact ⟨range, member, leaf, final, meets, inside⟩
    · rintro ⟨range, member, leaf, final, meets, inside⟩
      exact ⟨leaf, ⟨range, member, final, meets⟩, inside⟩
  refine ⟨result, ?_, exactly, ?_, returns⟩
  · apply List.Pairwise.imp_of_mem _ separated
    intro earlier later member _ gap
    have size := sizes earlier member
    exact ⟨by omega, gap⟩
  · intro range member address inActive inside
    obtain ⟨leaf, final, found⟩ :=
      Range.leaf_of_address minChunk size even range (common range member) address inside
    exact (exactly address).mpr ⟨range, member, leaf, final, ⟨address, inActive, found⟩, found⟩

section Sample

/-- A device that reports another word at every other reading of a range at address 4. -/
def alternating : Device Bool where
  exec state request := .ok (!state, Dict.ofList [(crc32Key 0,
    if state && Sequences.occurs "crc32 0x4 ".toList request.script then ['1'] else ['0'])])

/-- A digit is a word. -/
theorem bit_word (bit : Bool) : IsWordText (if bit then ['1'] else ['0']) := by
  have one (digit : Char) (read : (hexDigit digit).isSome = true) : IsWordText [digit] := by
    refine ⟨by simp, ?_⟩
    intro character member
    rw [List.mem_singleton.mp member]
    exact read
  cases bit with
  | false => exact one '0' (by decide)
  | true => exact one '1' (by decide)

/-- The readings of one range. The device changes its answer with every reading of the range that
holds the address 5, which it tells by the start of the range in the script. -/
theorem alternating_range (state : Bool) (range : Range) (request : ExecutionRequest) (changes : Bool)
    (asked : crc32Request "0x42000000".toList [range] = .ok request)
    (found : (crc32Request "0x42000000".toList [range]).map (fun request =>
      Sequences.occurs "crc32 0x4 ".toList request.script) = .ok changes)
    (exactly : changes = true ↔ range.Meets {5}) :
    ∃ (middle last : Bool) (first second : Env),
      alternating.exec state request = .ok (middle, first) ∧
      alternating.exec middle request = .ok (last, second) ∧
      ∀ (index : Nat) (tested : Range), [range][index]? = some tested →
        ∃ text other : Text, first.get (crc32Key index) = some text ∧
          second.get (crc32Key index) = some other ∧ IsWordText text ∧ IsWordText other ∧
          (hexNumber text ≠ hexNumber other ↔ tested.Meets {5}) := by
  rw [asked] at found
  have occurs : Sequences.occurs "crc32 0x4 ".toList request.script = changes := by
    simpa [Except.map] using found
  refine ⟨!state, !!state, _, _, rfl, rfl, ?_⟩
  intro index tested held
  match index with
  | 0 =>
    simp only [List.getElem?_cons_zero, Option.some.injEq] at held
    subst held
    refine ⟨_, _, Dict.get_set_self _ _ _, Dict.get_set_self _ _ _, ?_, ?_, ?_⟩
    · exact bit_word _
    · exact bit_word _
    · rw [← exactly]
      cases state <;> cases changes <;> simp only [occurs] <;> decide
  | index + 1 => simp at held

/-- The ranges that come from two adjacent ones. There are six of them, the two ranges and their
halves, and each is looked up by itself. -/
theorem alternating_detects :
    alternating.Detects "0x42000000".toList {5} 2 1 [(0, 4), (4, 4)] := by
  intro state batch request present sized pieces asked
  match batch, present, sized with
  | [range], _, _ =>
    obtain ⟨given, member, part⟩ := pieces range (by simp)
    have among : range ∈ [((0 : Int), (4 : Int)), (0, 2), (2, 2), (4, 4), (4, 2), (6, 2)] := by
      have final (addr : Int) (piece : Range) (part : Range.Piece 2 (addr, 2) piece) :
          piece = (addr, 2) :=
        (Range.leaf_small 2 (addr, 2) piece (Int.le_refl 2)).mp ⟨part, by
          cases part with
          | whole => exact Int.le_refl 2
          | lower _ _ _ large => exact absurd large (by decide)
          | upper _ _ _ large => exact absurd large (by decide)⟩
      simp only [List.mem_cons, List.not_mem_nil, or_false] at member
      rcases member with rfl | rfl
      · cases part with
        | whole => decide
        | lower _ _ _ _ part => simp [final 0 range part]
        | upper _ _ _ _ part => simp [final 2 range part]
      · cases part with
        | whole => decide
        | lower _ _ _ _ part => simp [final 4 range part]
        | upper _ _ _ _ part => simp [final 6 range part]
    simp only [List.mem_cons, List.not_mem_nil, or_false] at among
    rcases among with rfl | rfl | rfl | rfl | rfl | rfl
    · exact alternating_range state _ request false asked (by decide) (by simp [Range.Meets, Range.Has])
    · exact alternating_range state _ request false asked (by decide) (by simp [Range.Meets, Range.Has])
    · exact alternating_range state _ request false asked (by decide) (by simp [Range.Meets, Range.Has])
    · exact alternating_range state _ request true asked (by decide) (by simp [Range.Meets, Range.Has])
    · exact alternating_range state _ request true asked (by decide) (by simp [Range.Meets, Range.Has])
    · exact alternating_range state _ request false asked (by decide) (by simp [Range.Meets, Range.Has])

/-- A search that splits one of two ranges, reading one range at a time. -/
theorem found_active : ∃ result after rounds,
    findActive alternating "0x42000000".toList 2 2 1 rounds [(0, 4), (4, 4)] false =
      .ok (some (result, after)) ∧ Range.Covers result 5 := by
  have even : Range.HalvesEvenly 2 4 := .half 4 (by decide) (by decide) (.small _ (by decide))
  obtain ⟨result, -, -, covers, returns⟩ := find_active_exact "0x42000000".toList {5} 2 4
    [(0, 4), (4, 4)] (by decide) even
  obtain ⟨after, bound, searched⟩ := returns Bool alternating 1 (by decide) alternating_detects false
  exact ⟨result, after, bound, searched bound (Nat.le_refl bound),
    covers (4, 4) (by simp) 5 rfl (by simp [Range.Has])⟩

end Sample

end UbootTftp
