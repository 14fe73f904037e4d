import UbootTftp.Errors
import UbootTftp.Intervals

/-!
# Ranges of memory

The search for memory that changes works on ranges of addresses: it cuts a list of them into
batches, splits a range into parts, and at the end merges what it has found. Merging sorts the
ranges as tuples and makes one pass over them, which is that over sorted intervals.
-/

namespace UbootTftp

/-- An address and a size. -/
abbrev Range := Int × Int

section Functions

/-- `batched`. A negative size gives no batches at all, and with a size of zero the call of `range`
raises. -/
def batched (items : List Range) (size : Int) : Except Raised (List (List Range)) :=
  if size = 0 then .error (.byHandler .valueError "range() arg 3 must not be zero".toList)
  else if size < 0 then .ok []
  else
    let size := size.toNat
    let count := (items.length + size - 1) / size
    .ok ((List.range count).map fun index => (items.drop (index * size)).take size)

/-- `split_range`. The parts follow each other without a gap, and a size that the number of parts
does not divide raises. -/
def splitRange (addr size : Int) (parts : Nat) : Except Raised (List Range) :=
  if parts = 0 then
    .error (.byHandler (.other "ZeroDivisionError".toList) "integer modulo by zero".toList)
  else if size % parts ≠ 0 then
    .error (.byHandler .valueError ("range size ".toList ++ Text.hex size ++
      " is not divisible by ".toList ++ Nat.toDigits 10 parts))
  else
    let chunk := size / parts
    .ok ((List.range parts).map fun index => (addr + index * chunk, chunk))

/-- The order of tuples. -/
def Range.before (left right : Range) : Prop :=
  left.1 < right.1 ∨ (left.1 = right.1 ∧ left.2 ≤ right.2)

instance : DecidableRel Range.before := fun left right =>
  inferInstanceAs (Decidable (left.1 < right.1 ∨ (left.1 = right.1 ∧ left.2 ≤ right.2)))

/-- The loop of `coalesce_ranges`, with its current range. A range that begins at or before the end
of the current one is merged into it, and any other one takes its place. -/
def coalesceFrom (curAddr curEnd : Int) : List Range → List Range
  | [] => [(curAddr, curEnd - curAddr)]
  | (addr, size) :: rest =>
    let stop := addr + size
    if addr ≤ curEnd then coalesceFrom curAddr (max curEnd stop) rest
    else (curAddr, curEnd - curAddr) :: coalesceFrom addr stop rest

/-- `coalesce_ranges`: the ranges are sorted as tuples, and one pass merges those that overlap or
touch. -/
def coalesceRanges (ranges : List Range) : List Range :=
  match ranges.insertionSort Range.before with
  | [] => []
  | (addr, size) :: rest => coalesceFrom addr (addr + size) rest

end Functions

namespace Range

/-- An address is in a range. -/
def Has (range : Range) (address : Int) : Prop :=
  range.1 ≤ address ∧ address < range.1 + range.2

/-- An address is in one of the ranges. -/
def Covers (ranges : List Range) (address : Int) : Prop := ∃ range ∈ ranges, range.Has address

/-- Every range ends before the later ones start. Ranges that touch are not separated. -/
def Separated (ranges : List Range) : Prop :=
  ranges.Pairwise (fun earlier later => earlier.1 + earlier.2 < later.1)

/-- The start and the end of a range. -/
def interval (range : Range) : Int × Int := (range.1, range.1 + range.2)

/-- The range with a start and an end. -/
def ofInterval (interval : Int × Int) : Range := (interval.1, interval.2 - interval.1)

/-- A range is given back by its start and its end. -/
@[simp] theorem interval_of_interval (range : Range) : ofInterval (interval range) = range := by
  apply Prod.ext
  · rfl
  · simp only [ofInterval, interval]
    omega

/-- A start and an end are given back by their range. -/
@[simp] theorem of_interval_interval (bounds : Int × Int) :
    interval (ofInterval bounds) = bounds := by
  apply Prod.ext
  · rfl
  · simp only [ofInterval, interval]
    omega

instance : Std.Total Range.before where
  total left right := by
    simp only [Range.before]
    omega

instance : IsTrans Range Range.before where
  trans first second third := by
    simp only [Range.before]
    omega

instance : Std.Antisymm Range.before where
  antisymm left right := by
    intro forth back
    simp only [Range.before] at forth back
    apply Prod.ext
    · omega
    · omega

/-- The sorted ranges are a permutation whose starts do not decrease. -/
theorem sorted_starts (ranges : List Range) :
    (ranges.insertionSort Range.before).Pairwise (fun earlier later => earlier.1 ≤ later.1) := by
  apply List.Pairwise.imp _ (List.pairwise_insertionSort Range.before ranges)
  intro earlier later ordered
  simp only [Range.before] at ordered
  omega

/-- Sorting does not depend on the order. -/
theorem sorted_perm (left right : List Range) (perm : left.Perm right) :
    left.insertionSort Range.before = right.insertionSort Range.before := by
  have same : (left.insertionSort Range.before).Perm (right.insertionSort Range.before) :=
    (List.perm_insertionSort Range.before left).trans
      (perm.trans (List.perm_insertionSort Range.before right).symm)
  exact same.eq_of_pairwise' (List.pairwise_insertionSort Range.before left)
    (List.pairwise_insertionSort Range.before right)

/-- Ranges of no negative size that do not touch are sorted already. -/
theorem separated_sorted (ranges : List Range) (sizes : ∀ range ∈ ranges, 0 ≤ range.2)
    (separated : Separated ranges) : ranges.insertionSort Range.before = ranges := by
  apply List.Pairwise.insertionSort_eq
  apply List.Pairwise.imp_of_mem _ separated
  intro earlier later member _ gap
  have size := sizes earlier member
  left
  omega

end Range

section Merging

/-- The loop is the pass over the intervals. By induction on the ranges that are left, with the
current one left open. -/
theorem coalesce_from_merge (curAddr curEnd : Int) (rest : List Range) :
    coalesceFrom curAddr curEnd rest =
      (Intervals.merge curAddr curEnd (rest.map Range.interval)).map Range.ofInterval := by
  induction rest generalizing curAddr curEnd with
  | nil => rfl
  | cons range rest inductionHypothesis =>
    obtain ⟨addr, size⟩ := range
    simp only [coalesceFrom, List.map_cons, Range.interval, Intervals.merge]
    split
    · exact inductionHypothesis curAddr (max curEnd (addr + size))
    · rw [List.map_cons, inductionHypothesis addr (addr + size)]
      rfl

/-- What `coalesce_ranges` does is a sort and a pass over the intervals. -/
theorem coalesce_sorted (ranges : List Range) (first : Range) (rest : List Range)
    (sorted : ranges.insertionSort Range.before = first :: rest) :
    coalesceRanges ranges = (Intervals.merge first.1 (first.1 + first.2)
      (rest.map Range.interval)).map Range.ofInterval := by
  obtain ⟨addr, size⟩ := first
  simp only [coalesceRanges, sorted]
  exact coalesce_from_merge addr (addr + size) rest

/-- The addresses of ranges are the points of their intervals. -/
theorem covers_interval (ranges : List Range) (address : Int) :
    Range.Covers ranges address ↔ Intervals.Holds (ranges.map Range.interval) address := by
  simp [Range.Covers, Intervals.Holds, Range.interval, Range.Has]

/-- The intervals of sorted ranges are sorted. -/
theorem intervals_ordered (ranges : List Range)
    (starts : ranges.Pairwise (fun earlier later => earlier.1 ≤ later.1)) :
    Intervals.Ordered (ranges.map Range.interval) := by
  apply List.pairwise_map.mpr
  exact starts

/-- Ranges of no negative size have proper intervals. -/
theorem intervals_proper (ranges : List Range) (sizes : ∀ range ∈ ranges, 0 ≤ range.2) :
    Intervals.Proper (ranges.map Range.interval) := by
  intro interval member
  obtain ⟨range, among, rfl⟩ := List.mem_map.mp member
  have size := sizes range among
  simp only [Range.interval]
  omega

/-- The merged ranges cover what the ranges cover. This needs no condition on the sizes: a range of
a negative size covers nothing and adds nothing. -/
theorem coalesce_covers (ranges : List Range) (address : Int) :
    Range.Covers (coalesceRanges ranges) address ↔ Range.Covers ranges address := by
  have perm := List.perm_insertionSort Range.before ranges
  have same : Range.Covers (ranges.insertionSort Range.before) address ↔
      Range.Covers ranges address := by
    simp only [Range.Covers, perm.mem_iff]
  rw [← same]
  cases sorted : ranges.insertionSort Range.before with
  | nil => simp [coalesceRanges, sorted]
  | cons first rest =>
    have starts := Range.sorted_starts ranges
    rw [sorted] at starts
    have ordered := intervals_ordered (first :: rest) starts
    have merged := Intervals.merge_holds first.1 (first.1 + first.2) (rest.map Range.interval)
      address ordered
    rw [coalesce_sorted ranges first rest sorted, covers_interval, covers_interval, List.map_map]
    have back : Range.interval ∘ Range.ofInterval = id := funext Range.of_interval_interval
    rw [back, List.map_id]
    exact merged

/-- The merged ranges do not touch. Ranges that touch have been merged, so there is an address
between each of them and the next one. -/
theorem coalesce_separated (ranges : List Range) : Range.Separated (coalesceRanges ranges) := by
  cases sorted : ranges.insertionSort Range.before with
  | nil =>
    simp only [coalesceRanges, sorted]
    exact List.Pairwise.nil
  | cons first rest =>
    have starts := Range.sorted_starts ranges
    rw [sorted] at starts
    have apart := Intervals.merge_apart first.1 (first.1 + first.2) (rest.map Range.interval)
      (intervals_ordered (first :: rest) starts)
    rw [coalesce_sorted ranges first rest sorted]
    apply List.pairwise_map.mpr
    apply List.Pairwise.imp _ apart
    intro earlier later gap
    simp only [Range.ofInterval]
    omega

/-- The merged ranges have no negative size. The end of a merged range is the largest end of its
ranges, and these do not lie before their starts. -/
theorem coalesce_sizes (ranges : List Range) (sizes : ∀ range ∈ ranges, 0 ≤ range.2) :
    ∀ range ∈ coalesceRanges ranges, 0 ≤ range.2 := by
  cases sorted : ranges.insertionSort Range.before with
  | nil => simp [coalesceRanges, sorted]
  | cons first rest =>
    have among : ∀ range ∈ first :: rest, 0 ≤ range.2 := by
      intro range member
      rw [← sorted] at member
      exact sizes range ((List.mem_insertionSort Range.before).mp member)
    have proper := Intervals.merge_proper first.1 (first.1 + first.2) (rest.map Range.interval)
      (intervals_proper (first :: rest) among)
    rw [coalesce_sorted ranges first rest sorted]
    intro range member
    obtain ⟨interval, result, rfl⟩ := List.mem_map.mp member
    have ordered := proper interval result
    simp only [Range.ofInterval]
    omega

/-- Ranges that do not touch are merged already. -/
theorem coalesce_of_separated (ranges : List Range) (sizes : ∀ range ∈ ranges, 0 ≤ range.2)
    (separated : Range.Separated ranges) : coalesceRanges ranges = ranges := by
  have sorted := Range.separated_sorted ranges sizes separated
  cases ranges with
  | nil => rfl
  | cons first rest =>
    have apart : Intervals.Apart ((first :: rest).map Range.interval) := by
      apply List.pairwise_map.mpr
      exact separated
    have fixed := Intervals.merge_of_apart first.1 (first.1 + first.2) (rest.map Range.interval)
      apart
    have back : Range.ofInterval ∘ Range.interval = id := funext Range.interval_of_interval
    rw [coalesce_sorted (first :: rest) first rest sorted, fixed, List.map_cons, List.map_map, back,
      List.map_id]
    exact congrArg (· :: rest) (Range.interval_of_interval first)

end Merging

/-- Merging is canonical: the result is sorted by address and leaves a gap between any two ranges,
it covers the addresses of the input and no others, it does not depend on the order of the input,
and merging it again changes nothing.

Proof: each part is one of the lemmas above, which are those about sorted intervals. -/
theorem coalesce_ranges_canonical (ranges : List Range) (sizes : ∀ range ∈ ranges, 0 ≤ range.2) :
    (coalesceRanges ranges).Pairwise (fun earlier later => earlier.1 < later.1) ∧
      (coalesceRanges ranges).Pairwise (fun earlier later => earlier.1 + earlier.2 < later.1) ∧
      (∀ address, Range.Covers (coalesceRanges ranges) address ↔ Range.Covers ranges address) ∧
      (∀ other : List Range, other.Perm ranges → coalesceRanges other = coalesceRanges ranges) ∧
      coalesceRanges (coalesceRanges ranges) = coalesceRanges ranges := by
  have separated := coalesce_separated ranges
  have merged := coalesce_sizes ranges sizes
  refine ⟨?_, separated, coalesce_covers ranges, ?_, ?_⟩
  · apply List.Pairwise.imp_of_mem _ separated
    intro earlier later member _ gap
    have size := merged earlier member
    omega
  · intro other perm
    simp only [coalesceRanges, Range.sorted_perm other ranges perm]
  · exact coalesce_of_separated _ merged separated

/-- Ranges that overlap, contain each other, touch and are empty. -/
theorem coalesced_ranges :
    coalesceRanges (coalesceRanges [(16, 4), (0, 8), (2, 1), (8, 0), (8, 2), (12, 0)]) =
        coalesceRanges [(16, 4), (0, 8), (2, 1), (8, 0), (8, 2), (12, 0)] ∧
      coalesceRanges [(16, 4), (0, 8), (2, 1), (8, 0), (8, 2), (12, 0)] =
        [(0, 10), (12, 0), (16, 4)] := by
  have sizes : ∀ range ∈ [(16, 4), (0, 8), (2, 1), (8, 0), (8, 2), ((12 : Int), (0 : Int))],
      0 ≤ range.2 := by decide
  constructor
  · exact (coalesce_ranges_canonical _ sizes).2.2.2.2
  · decide

end UbootTftp
