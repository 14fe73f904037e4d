import Mathlib.Data.List.DropRight
import Mathlib.Data.List.Infix

/-!
# String and byte-string operations over lists

Python's `str` is a list of characters here and `bytes` a list of octets; the
operations both types share are stated once, over a list of any decidable
alphabet. Splitting at a symbol is `List.splitOn` and joining `List.intercalate`.
-/

namespace Sequences

universe u
variable {α : Type u}

/-- Remove leading and trailing symbols of a class. -/
def strip (drop : α → Bool) (items : List α) : List α := (items.dropWhile drop).rdropWhile drop

/-- The symbols from one non-negative bound up to another. Bounds beyond the end
are clamped, so a slice can be shorter than the distance of its bounds. -/
def slice (items : List α) (start stop : Nat) : List α := (items.drop start).take (stop - start)

/-- The matches of a pattern from left to right, none overlapping the one before it. The
pattern gives the value and the length of a match at the front, which is not empty; the
number counts the symbols that the last match still covers. -/
def matchesFrom {β : Type u} (front : List α → Option (β × Nat)) : Nat → List α → List β
  | _, [] => []
  | 0, item :: items =>
    match front (item :: items) with
    | some (value, length) => value :: matchesFrom front (length - 1) items
    | none => matchesFrom front 0 items
  | covered + 1, _ :: items => matchesFrom front covered items

/-- `re.finditer` and `re.findall` of a pattern. -/
def finditer {β : Type u} (front : List α → Option (β × Nat)) (items : List α) : List β :=
  matchesFrom front 0 items

section Matches

variable {β : Type u} (front : List α → Option (β × Nat))

/-- What a match covers is passed over. -/
theorem matches_covered (covered rest : List α) :
    matchesFrom front covered.length (covered ++ rest) = matchesFrom front 0 rest := by
  induction covered with
  | nil => rfl
  | cons item covered inductionHypothesis => exact inductionHypothesis

/-- A match at the front is the first one, and the search goes on behind it. -/
theorem finditer_match (matched rest : List α) (value : β) (present : matched ≠ [])
    (found : front (matched ++ rest) = some (value, matched.length)) :
    finditer front (matched ++ rest) = value :: finditer front rest := by
  obtain ⟨item, covered, rfl⟩ := List.exists_cons_of_ne_nil present
  rw [List.cons_append] at found ⊢
  have stays := matches_covered front covered rest
  simp only [finditer, matchesFrom, found, List.length_cons, Nat.add_sub_cancel, stays]

/-- Where nothing matches the search goes on.

Proof: by induction on the part that is passed over. -/
theorem finditer_skip (before rest : List α)
    (unmatched : ∀ left right, before = left ++ right → right ≠ [] → front (right ++ rest) = none) :
    finditer front (before ++ rest) = finditer front rest := by
  induction before with
  | nil => rfl
  | cons item before inductionHypothesis =>
    have first := unmatched [] (item :: before) rfl (by simp)
    have others := inductionHypothesis fun left right split present =>
      unmatched (item :: left) right (by rw [split, List.cons_append]) present
    rw [List.cons_append] at first ⊢
    rw [← others]
    simp only [finditer, matchesFrom, first]

/-- Nothing is found where the pattern matches nowhere. -/
theorem finditer_none (items : List α)
    (unmatched : ∀ left right, items = left ++ right → right ≠ [] → front right = none) :
    finditer front items = [] := by
  have skipped := finditer_skip front items [] (by simpa using unmatched)
  rwa [List.append_nil] at skipped

/-- The search goes through two rows one after the other when the pattern does not look beyond the
first one: whatever follows, it matches at the same places there, and within it.

Proof: by induction on the first row, with the rest of a match that is still to be passed over. -/
theorem finditer_append (before rest : List α)
    (within : ∀ left right, before = left ++ right → right ≠ [] →
      front (right ++ rest) = front right ∧
        ∀ value length, front right = some (value, length) → length ≤ right.length) :
    finditer front (before ++ rest) = finditer front before ++ finditer front rest := by
  suffices passed : ∀ covered ≤ before.length, matchesFrom front covered (before ++ rest) =
      matchesFrom front covered before ++ matchesFrom front 0 rest from passed 0 (Nat.zero_le _)
  induction before with
  | nil =>
    intro covered none
    obtain rfl : covered = 0 := Nat.le_zero.mp none
    rfl
  | cons item before inductionHypothesis =>
    have others := inductionHypothesis fun left right split present =>
      within (item :: left) right (by rw [split, List.cons_append]) present
    intro covered bound
    cases covered with
    | succ covered => exact others covered (Nat.le_of_succ_le_succ bound)
    | zero =>
      obtain ⟨same, short⟩ := within [] (item :: before) rfl (by simp)
      rw [List.cons_append] at same ⊢
      cases found : front (item :: before) with
      | none =>
        simp only [matchesFrom, same, found]
        exact others 0 (Nat.zero_le _)
      | some matched =>
        obtain ⟨value, length⟩ := matched
        have inside := short value length found
        simp only [matchesFrom, same, found, List.cons_append]
        rw [others (length - 1) (by rw [List.length_cons] at inside; omega)]

end Matches

/-- Python's slice: a negative bound counts from the end, and bounds are clamped. -/
def sliceInt (items : List α) (start stop : Int) : List α :=
  let bound (index : Int) : Nat :=
    if index < 0 then (items.length + index).toNat else index.toNat
  slice items (bound start) (bound stop)

/-- Put other symbols in the place of those from a position on. -/
def splice (items : List α) (start size : Nat) (replacement : List α) : List α :=
  items.take start ++ replacement ++ items.drop (start + size)

section Splices

variable (items replacement : List α) (start size : Nat)

/-- A replacement of the same size keeps the length when the place is inside. -/
theorem splice_length (sized : replacement.length = size) (inside : start + size ≤ items.length) :
    (splice items start size replacement).length = items.length := by
  simp only [splice, List.length_append, List.length_take, List.length_drop, sized]
  omega

/-- A replacement that ends beyond the symbols makes them longer. -/
theorem splice_longer (sized : replacement.length = size) (beyond : items.length < start + size)
    (present : 0 < size) : items.length < (splice items start size replacement).length := by
  simp only [splice, List.length_append, List.length_take, List.length_drop, sized]
  omega

/-- Before the place nothing changes. -/
theorem splice_before (within : start ≤ items.length) (index : Nat) (before : index < start) :
    (splice items start size replacement)[index]? = items[index]? := by
  have front : index < (items.take start).length := by
    rw [List.length_take]
    omega
  rw [splice, List.append_assoc, List.getElem?_append_left front, List.getElem?_take, if_pos before]

/-- Behind the place nothing changes. -/
theorem splice_behind (sized : replacement.length = size) (within : start ≤ items.length)
    (index : Nat) (behind : start + size ≤ index) :
    (splice items start size replacement)[index]? = items[index]? := by
  have front : (items.take start ++ replacement).length = start + size := by
    rw [List.length_append, List.length_take, sized]
    omega
  rw [splice, List.getElem?_append_right (by omega), List.getElem?_drop, front]
  congr 1
  omega

/-- The place holds the replacement. -/
theorem splice_inside (sized : replacement.length = size) (within : start ≤ items.length) :
    slice (splice items start size replacement) start (start + size) = replacement := by
  have front : (items.take start).length = start := by
    rw [List.length_take]
    omega
  rw [slice, splice, List.append_assoc, List.drop_left' front]
  exact List.take_left' (by omega)

/-- What replaced the place before is gone after the next replacement. The first replacement has the
size of what it replaces, so the place is the same one afterwards. -/
theorem splice_splice (later : List α) (sized : replacement.length = size)
    (within : start ≤ items.length) :
    splice (splice items start size replacement) start size later =
      splice items start size later := by
  have front : (items.take start).length = start := by
    rw [List.length_take]
    omega
  have before : (splice items start size replacement).take start = items.take start := by
    rw [splice, List.append_assoc]
    exact List.take_left' front
  have behind : (splice items start size replacement).drop (start + size) =
      items.drop (start + size) := by
    rw [splice]
    exact List.drop_left' (by rw [List.length_append, front, sized])
  calc splice (splice items start size replacement) start size later
      = (splice items start size replacement).take start ++ later ++
          (splice items start size replacement).drop (start + size) := rfl
    _ = items.take start ++ later ++ items.drop (start + size) := by rw [before, behind]

end Splices

/-- A slice between bounds that are not negative. -/
theorem slice_int_nonneg (items : List α) (start stop : Nat) :
    sliceInt items start stop = slice items start stop := by
  have first : ¬(start : Int) < 0 := by omega
  have last : ¬(stop : Int) < 0 := by omega
  simp only [sliceInt, first, last, if_false, Int.toNat_natCast]

/-- Stripping takes symbols away. -/
theorem strip_sublist (drop : α → Bool) (items : List α) : (strip drop items).Sublist items :=
  (List.rdropWhile_prefix drop _).sublist.trans (List.dropWhile_sublist drop)

/-- Trailing symbols of the class are dropped whatever precedes them. -/
theorem rdrop_tail (drop : α → Bool) (items tail : List α) (dropped : ∀ item ∈ tail, drop item) :
    (items ++ tail).rdropWhile drop = items.rdropWhile drop := by
  induction tail using List.reverseRecOn with
  | nil => rw [List.append_nil]
  | append_singleton tail last inductionHypothesis =>
    have lastDropped : drop last := dropped last (by simp)
    rw [← List.append_assoc, List.rdropWhile_concat_pos _ _ _ lastDropped]
    exact inductionHypothesis fun item member => dropped item (by simp [member])

/-- Nothing is dropped behind a symbol outside the class. -/
theorem rdrop_kept (drop : α → Bool) (items kept : List α) (present : kept ≠ [])
    (outside : ∀ item ∈ kept, drop item = false) :
    (items ++ kept).rdropWhile drop = items ++ kept := by
  obtain ⟨front, last, rfl⟩ : ∃ front last, kept = front ++ [last] :=
    ⟨kept.dropLast, kept.getLast present, (List.dropLast_append_getLast present).symm⟩
  have lastKept : ¬drop last := by simp [outside last (by simp)]
  rw [← List.append_assoc, List.rdropWhile_concat_neg _ _ _ lastKept]

/-- What precedes a symbol outside the class stays, and so does the symbol. -/
theorem rdrop_behind (drop : α → Bool) (items tail : List α) (item : α)
    (outside : drop item = false) :
    (items ++ item :: tail).rdropWhile drop = items ++ item :: tail.rdropWhile drop := by
  induction tail using List.reverseRecOn with
  | nil => exact rdrop_kept drop items [item] (by simp) (by simpa using outside)
  | append_singleton tail last inductionHypothesis =>
    have shape : items ++ item :: (tail ++ [last]) = (items ++ item :: tail) ++ [last] := by simp
    cases dropped : drop last with
    | true =>
      rw [shape, List.rdropWhile_concat_pos _ _ _ dropped, inductionHypothesis,
        List.rdropWhile_concat_pos _ _ _ dropped]
    | false =>
      rw [shape, List.rdropWhile_concat_neg _ _ _ (by simp [dropped]),
        List.rdropWhile_concat_neg _ _ _ (by simp [dropped]), ← shape]

/-- What precedes items that are not all of the class stays. -/
theorem rdrop_append (drop : α → Bool) (items tail : List α) (kept : tail.all drop = false) :
    (items ++ tail).rdropWhile drop = items ++ tail.rdropWhile drop := by
  obtain ⟨item, member, outside⟩ := List.all_eq_false.mp kept
  obtain ⟨before, after, rfl⟩ := List.append_of_mem member
  have stays : drop item = false := by simpa using outside
  rw [← List.append_assoc, rdrop_behind drop _ _ item stays, rdrop_behind drop _ _ item stays,
    List.append_assoc]

section Ranks

/-- The number of kept items before a position: where the item at the position stands
among the kept ones. -/
def rank (keep : α → Bool) (items : List α) (index : Nat) : Nat := (items.take index).countP keep

variable (keep : α → Bool)

/-- A kept item stands at its rank.

Proof: by induction on the items, at any index; a dropped item in front does not count. -/
theorem filter_get_rank (items : List α) (index : Nat) (item : α) (held : items[index]? = some item)
    (kept : keep item = true) : (items.filter keep)[rank keep items index]? = some item := by
  induction items generalizing index with
  | nil => simp at held
  | cons first rest inductionHypothesis =>
    cases index with
    | zero =>
      cases Option.some.inj held
      simp [rank, kept]
    | succ index =>
      have later := inductionHypothesis index held
      cases front : keep first <;> simpa [rank, front] using later

/-- Replacing a kept item by a kept item replaces it among the kept ones. Its position among them is
its rank, the number of kept items before it. -/
theorem filter_set_kept (items : List α) (index : Nat) (item other : α)
    (held : items[index]? = some item) (kept : keep item = true) (again : keep other = true) :
    (items.set index other).filter keep = (items.filter keep).set (rank keep items index) other := by
  induction items generalizing index with
  | nil => simp at held
  | cons first rest inductionHypothesis =>
    cases index with
    | zero =>
      cases Option.some.inj held
      simp [rank, kept, again]
    | succ index =>
      have later := inductionHypothesis index held
      cases front : keep first <;> simpa [rank, front] using later

/-- Replacing a dropped item by a dropped item changes nothing among the kept ones. -/
theorem filter_set_dropped (items : List α) (index : Nat) (item other : α)
    (held : items[index]? = some item) (dropped : keep item = false) (again : keep other = false) :
    (items.set index other).filter keep = items.filter keep := by
  induction items generalizing index with
  | nil => rfl
  | cons first rest inductionHypothesis =>
    cases index with
    | zero =>
      cases Option.some.inj held
      simp [dropped, again]
    | succ index =>
      have later := inductionHypothesis index held
      cases front : keep first <;> simpa [front] using later

end Ranks

/-- A symbol that a front does not hold stands behind it. -/
theorem absent_front (symbol : α) (front back before after : List α) (free : symbol ∉ front)
    (same : front ++ back = before ++ symbol :: after) :
    ∃ between, before = front ++ between ∧ back = between ++ symbol :: after := by
  rcases List.append_eq_append_iff.mp same with ⟨between, rfl, shape⟩ | ⟨between, rfl, shape⟩
  · exact ⟨between, rfl, shape⟩
  · cases between with
    | nil => exact ⟨[], by simp, by simpa using shape.symm⟩
    | cons first between =>
      obtain ⟨rfl, -⟩ := List.cons.inj shape
      simp at free

/-- Two places of a symbol in one list are the same, or one is before the other. The other two cases
name what lies between the places. -/
theorem place_cases (symbol : α) (front tail before after : List α)
    (same : front ++ symbol :: tail = before ++ symbol :: after) :
    (front = before ∧ tail = after) ∨
      (∃ between, before = front ++ symbol :: between ∧ tail = between ++ symbol :: after) ∨
      ∃ between, front = before ++ symbol :: between ∧ after = between ++ symbol :: tail := by
  rcases List.append_eq_append_iff.mp same with ⟨between, rfl, shape⟩ | ⟨between, rfl, shape⟩
  · cases between with
    | nil => exact .inl ⟨by simp, (List.cons.inj shape).2⟩
    | cons first between =>
      obtain ⟨rfl, rfl⟩ := List.cons.inj shape
      exact .inr (.inl ⟨between, rfl, rfl⟩)
  · cases between with
    | nil => exact .inl ⟨by simp, (List.cons.inj shape).2.symm⟩
    | cons first between =>
      obtain ⟨rfl, rfl⟩ := List.cons.inj shape
      exact .inr (.inr ⟨between, rfl, rfl⟩)

/-- A list is split in one way only at the last item of a kind. The two items cannot be apart,
because the earlier one would have the later one behind it. -/
theorem last_unique (kind : α → Prop) (front tail other others : List α) (item second : α)
    (same : front ++ item :: tail = other ++ second :: others) (first : kind item)
    (again : kind second) (none : ∀ later ∈ tail, ¬kind later)
    (noOther : ∀ later ∈ others, ¬kind later) : front = other ∧ item = second ∧ tail = others := by
  rcases List.append_eq_append_iff.mp same with ⟨between, rfl, shape⟩ | ⟨between, rfl, shape⟩
  · cases between with
    | nil =>
      obtain ⟨rfl, rfl⟩ := List.cons.inj shape
      exact ⟨(List.append_nil front).symm, rfl, rfl⟩
    | cons head between =>
      obtain ⟨rfl, rfl⟩ := List.cons.inj shape
      exact absurd again (none second (by simp))
  · cases between with
    | nil =>
      obtain ⟨rfl, rfl⟩ := List.cons.inj shape
      exact ⟨List.append_nil other, rfl, rfl⟩
    | cons head between =>
      obtain ⟨rfl, rfl⟩ := List.cons.inj shape
      exact absurd first (noOther item (by simp))

section Joins

/-- What holds of the empty text and is kept by joining two parts holds of joined parts. -/
theorem joined_parts (holds : List α → Prop) (separator : α) (empty : holds [])
    (join : ∀ first second, holds first → holds second → holds (first ++ separator :: second))
    (parts : List (List α)) (each : ∀ part ∈ parts, holds part) :
    holds (List.intercalate [separator] parts) := by
  induction parts with
  | nil => exact empty
  | cons part parts inductionHypothesis =>
    obtain ⟨first, others⟩ := List.forall_mem_cons.mp each
    cases parts with
    | nil => simpa [List.intercalate] using first
    | cons next parts =>
      have joined := join part _ first (inductionHypothesis others)
      simpa [List.intercalate] using joined

/-- Each of the parts that are joined occurs in what is made of them. -/
theorem joined_infix (separator : List α) (parts : List (List α)) :
    ∀ part ∈ parts, part <:+: List.intercalate separator parts := by
  induction parts with
  | nil => simp
  | cons first parts inductionHypothesis =>
    intro part member
    cases parts with
    | nil =>
      rw [List.mem_singleton.mp member]
      simp
    | cons second parts =>
      rw [List.intercalate_cons_cons]
      rcases List.mem_cons.mp member with rfl | later
      · exact ⟨[], separator ++ List.intercalate separator (second :: parts), by simp⟩
      · exact (inductionHypothesis part later).trans (List.suffix_append _ _).isInfix

/-- What is joined last ends the result. -/
theorem joined_suffix (separator : List α) (parts : List (List α)) (last : List α) :
    last <:+ List.intercalate separator (parts ++ [last]) := by
  induction parts with
  | nil => simp
  | cons first parts inductionHypothesis =>
    cases parts with
    | nil =>
      rw [List.singleton_append, List.intercalate_cons_cons, List.intercalate_singleton]
      exact List.suffix_append _ _
    | cons second parts =>
      rw [List.cons_append, List.cons_append, List.intercalate_cons_cons]
      exact inductionHypothesis.trans (List.suffix_append _ _)

end Joins

variable [DecidableEq α]

/-- Cut at the first separator: the part before it, whether it occurs at all,
and the part after it. Without a separator everything is before it. -/
def partition (separator : α) (items : List α) : List α × Bool × List α :=
  match items.dropWhile (fun item => decide (item ≠ separator)) with
  | [] => (items, false, [])
  | _ :: after => (items.takeWhile (fun item => decide (item ≠ separator)), true, after)

/-- The first position at or after the start where the pattern occurs. -/
def findFrom (pattern items : List α) (start : Nat) : Option Nat :=
  ((items.drop start).tails.findIdx? (fun suffix => pattern.isPrefixOf suffix)).map (start + ·)

/-- Where a pattern is found, it lies within the symbols. The empty pattern is found behind the end
as well, so it is named apart. -/
theorem find_from_bound (pattern items : List α) (start position : Nat)
    (found : findFrom pattern items start = some position) :
    position + pattern.length ≤ items.length ∨ pattern = [] := by
  obtain ⟨index, located, rfl⟩ := Option.map_eq_some_iff.mp found
  obtain ⟨valid, matched, _⟩ := List.findIdx?_eq_some_iff_getElem.mp located
  rw [List.getElem_tails, List.isPrefixOf_iff_prefix] at matched
  have short := matched.length_le
  simp only [List.length_drop] at short
  by_cases empty : pattern = []
  · exact .inr empty
  · have present := List.length_pos_iff.mpr empty
    left
    omega

section Finding

variable {pattern items : List α}

/-- Where a pattern is found, it stands there and nowhere before. An empty pattern would be found
everywhere, also behind the end, and is left out. -/
theorem find_from_iff (present : pattern ≠ []) (start place : Nat) :
    findFrom pattern items start = some place ↔
      start ≤ place ∧ pattern <+: items.drop place ∧
        ∀ earlier, start ≤ earlier → earlier < place → ¬pattern <+: items.drop earlier := by
  simp only [findFrom, Option.map_eq_some_iff, List.findIdx?_eq_some_iff_getElem,
    List.getElem_tails, List.drop_drop, List.isPrefixOf_iff_prefix, List.length_tails,
    List.length_drop]
  constructor
  · rintro ⟨index, ⟨inside, stands, first⟩, rfl⟩
    refine ⟨Nat.le_add_right _ _, stands, fun earlier behind before matched => ?_⟩
    obtain ⟨offset, rfl⟩ := Nat.exists_eq_add_of_le behind
    exact first offset (by omega) matched
  · rintro ⟨behind, stands, first⟩
    obtain ⟨index, rfl⟩ := Nat.exists_eq_add_of_le behind
    have reaches := stands.length_le
    have positive := List.length_pos_iff.mpr present
    rw [List.length_drop] at reaches
    exact ⟨index, ⟨by omega, stands, fun offset before matched =>
      first (start + offset) (Nat.le_add_right _ _) (by omega) matched⟩, rfl⟩

/-- A pattern that is not found stands nowhere from the start on. -/
theorem find_from_none (start : Nat) :
    findFrom pattern items start = none ↔ ∀ place, start ≤ place → ¬pattern <+: items.drop place := by
  simp only [findFrom, Option.map_eq_none_iff, List.findIdx?_eq_none_iff, List.mem_tails,
    Bool.eq_false_iff, ne_eq, List.isPrefixOf_iff_prefix]
  constructor
  · intro absent place behind stands
    obtain ⟨offset, rfl⟩ := Nat.exists_eq_add_of_le behind
    exact absent _ (by rw [← List.drop_drop]; exact List.drop_suffix _ _) stands
  · intro absent rest suffix stands
    obtain ⟨front, same⟩ := suffix
    have place : items.drop (start + front.length) = rest := by
      rw [← List.drop_drop, ← same, List.drop_left]
    exact absent _ (Nat.le_add_right _ _) (place ▸ stands)

end Finding

/-- Whether the pattern occurs anywhere. -/
def occurs (pattern items : List α) : Bool := items.tails.any (fun suffix => pattern.isPrefixOf suffix)

/-- A pattern that stands between two parts occurs. -/
theorem occurs_between (front pattern back : List α) :
    occurs pattern (front ++ pattern ++ back) = true := by
  rw [occurs, List.any_eq_true]
  refine ⟨pattern ++ back, ?_, ?_⟩
  · rw [List.mem_tails, List.append_assoc]
    exact List.suffix_append front _
  · exact List.isPrefixOf_iff_prefix.mpr (List.prefix_append pattern back)

/-- A separator that follows a part free of it is where the cut falls. -/
theorem partition_append (separator : α) (before after : List α) (free : separator ∉ before) :
    partition separator (before ++ separator :: after) = (before, true, after) := by
  have different : ∀ item ∈ before, decide (item ≠ separator) = true := by
    intro item member
    exact decide_eq_true fun same => free (same ▸ member)
  have dropped : (before ++ separator :: after).dropWhile (fun item => decide (item ≠ separator)) =
      separator :: after := by
    rw [List.dropWhile_append_of_pos different]
    simp
  have taken : (before ++ separator :: after).takeWhile (fun item => decide (item ≠ separator)) =
      before := by
    rw [List.takeWhile_append_of_pos different]
    simp
  simp only [partition, dropped, taken]

/-- A part free of the separator is not cut. -/
theorem partition_absent (separator : α) (items : List α) (free : separator ∉ items) :
    partition separator items = (items, false, []) := by
  have different : ∀ item ∈ items, decide (item ≠ separator) = true := by
    intro item member
    exact decide_eq_true fun same => free (same ▸ member)
  have dropped : items.dropWhile (fun item => decide (item ≠ separator)) = [] :=
    List.dropWhile_eq_nil_iff.mpr different
  simp only [partition, dropped]

/-- Items either hold no separator or are cut at the first one. -/
theorem partition_cases (separator : α) (items : List α) :
    (separator ∉ items ∧ partition separator items = (items, false, [])) ∨
      ∃ before after, separator ∉ before ∧ items = before ++ separator :: after ∧
        partition separator items = (before, true, after) := by
  by_cases member : separator ∈ items
  · obtain ⟨before, after, rfl, free⟩ := List.eq_append_cons_of_mem member
    exact .inr ⟨before, after, free, rfl, partition_append _ _ _ free⟩
  · exact .inl ⟨member, partition_absent _ _ member⟩

/-- The parts between separators hold none and are taken from the items.

Proof: by induction on the items; a separator begins a new part, and any other item joins the
current one. -/
theorem split_parts (separator : α) (items : List α) :
    ∀ part ∈ items.splitOn separator, separator ∉ part ∧ part.Sublist items := by
  induction items with
  | nil =>
    intro part member
    cases List.mem_singleton.mp member
    exact ⟨List.not_mem_nil, List.Sublist.refl _⟩
  | cons item items inductionHypothesis =>
    intro part member
    rw [List.splitOn_cons_eq_if_modifyHead] at member
    by_cases same : item = separator
    · rw [if_pos (by simpa using same)] at member
      rcases List.mem_cons.mp member with rfl | later
      · exact ⟨List.not_mem_nil, List.nil_sublist _⟩
      · obtain ⟨free, taken⟩ := inductionHypothesis part later
        exact ⟨free, taken.cons item⟩
    · rw [if_neg (by simpa using same)] at member
      cases parts : items.splitOn separator with
      | nil => simp [parts] at member
      | cons first rest =>
        rw [parts] at member inductionHypothesis
        rcases List.mem_cons.mp member with rfl | later
        · obtain ⟨free, taken⟩ := inductionHypothesis first (by simp)
          exact ⟨fun inside => (List.mem_cons.mp inside).elim (same ·.symm) free,
            taken.cons_cons item⟩
        · obtain ⟨free, taken⟩ := inductionHypothesis part (List.mem_cons_of_mem _ later)
          exact ⟨free, taken.cons item⟩

/-- The first part begins with the symbols in front of the first separator. -/
theorem split_first (separator : α) (front tail : List α) (free : separator ∉ front) :
    ∃ first rest, (front ++ tail).splitOn separator = (front ++ first) :: rest := by
  by_cases member : separator ∈ tail
  · obtain ⟨before, after, rfl, beforeFree⟩ := List.eq_append_cons_of_mem member
    refine ⟨before, after.splitOn separator, ?_⟩
    rw [← List.append_assoc]
    exact List.splitOn_append_cons_self_of_not_mem (by simp [free, beforeFree]) after
  · exact ⟨tail, [], List.splitOn_eq_singleton (by simp [free, member])⟩

/-- Cutting after segments that end in the separator gives them back. -/
theorem split_terminated (separator : α) (segments : List (List α)) (rest : List α)
    (free : ∀ segment ∈ segments, separator ∉ segment) :
    (segments.flatMap (· ++ [separator]) ++ rest).splitOn separator =
      segments ++ rest.splitOn separator := by
  induction segments with
  | nil => rfl
  | cons segment segments inductionHypothesis =>
    obtain ⟨first, others⟩ := List.forall_mem_cons.mp free
    rw [List.flatMap_cons, List.append_assoc, List.append_assoc, List.singleton_append,
      List.splitOn_append_cons_self_of_not_mem first, inductionHypothesis others, List.cons_append]

end Sequences
