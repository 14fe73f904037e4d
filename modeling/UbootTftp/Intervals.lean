import Mathlib.Data.List.Sort
import Mathlib.Order.MinMax

/-!
# Merging sorted intervals

An interval is a pair of its start and its end, which it does not contain. One pass over
intervals that are sorted by their starts keeps a current interval: what starts at its end or
before is taken into it, and what starts later takes its place.

The pass holds the same points and leaves a gap between any two of its results. Results with
gaps are where a second pass stops at once.
-/

namespace Intervals

universe u
variable {α : Type u} [LinearOrder α]

/-- A point is in one of the intervals. -/
def Holds (intervals : List (α × α)) (point : α) : Prop :=
  ∃ interval ∈ intervals, interval.1 ≤ point ∧ point < interval.2

/-- No interval ends before its start. -/
def Proper (intervals : List (α × α)) : Prop := ∀ interval ∈ intervals, interval.1 ≤ interval.2

/-- Every interval ends before the later ones start. -/
def Apart (intervals : List (α × α)) : Prop :=
  intervals.Pairwise (fun earlier later => earlier.2 < later.1)

/-- The intervals are sorted by their starts. -/
def Ordered (intervals : List (α × α)) : Prop :=
  intervals.Pairwise (fun earlier later => earlier.1 ≤ later.1)

/-- The pass, with the start and the end of the current interval. An interval that starts at the end
of the current one is taken in, so that no two results touch. -/
def merge (start stop : α) : List (α × α) → List (α × α)
  | [] => [(start, stop)]
  | (first, last) :: rest =>
    if first ≤ stop then merge start (max stop last) rest
    else (start, stop) :: merge first last rest

/-- The points of a first interval and those of the others. -/
theorem holds_cons (interval : α × α) (rest : List (α × α)) (point : α) :
    Holds (interval :: rest) point ↔
      (interval.1 ≤ point ∧ point < interval.2) ∨ Holds rest point := by
  simp [Holds]

/-- An interval that starts inside another one or at its end extends it. A point before the end of
the first one is in the first, and any other point of the union is in the second. -/
theorem extended_holds (start stop first last point : α) (ordered : start ≤ first)
    (touches : first ≤ stop) :
    (start ≤ point ∧ point < max stop last) ↔
      (start ≤ point ∧ point < stop) ∨ (first ≤ point ∧ point < last) := by
  constructor
  · intro inside
    by_cases earlier : point < stop
    · exact .inl ⟨inside.1, earlier⟩
    · have later : stop ≤ point := le_of_not_gt earlier
      refine .inr ⟨touches.trans later, ?_⟩
      exact (lt_max_iff.mp inside.2).resolve_left earlier
  · intro inside
    cases inside with
    | inl current => exact ⟨current.1, lt_max_of_lt_left current.2⟩
    | inr taken => exact ⟨ordered.trans taken.1, lt_max_of_lt_right taken.2⟩

/-- What is left when an interval is taken in is still sorted. -/
theorem absorbed_ordered (start stop extended : α) (interval : α × α) (rest : List (α × α))
    (ordered : Ordered ((start, stop) :: interval :: rest)) :
    Ordered ((start, extended) :: rest) := by
  obtain ⟨starts, later⟩ := List.pairwise_cons.mp ordered
  apply List.pairwise_cons.mpr
  constructor
  · intro other member
    exact starts other (List.mem_cons_of_mem _ member)
  · exact (List.pairwise_cons.mp later).2

/-- The pass holds the points of the current interval and of those to come.

Proof: by induction on the intervals to come. One that is taken in starts at the end of the
current interval or before, so no point between the two is added. -/
theorem merge_holds (start stop : α) (rest : List (α × α)) (point : α)
    (ordered : Ordered ((start, stop) :: rest)) :
    Holds (merge start stop rest) point ↔ Holds ((start, stop) :: rest) point := by
  induction rest generalizing start stop with
  | nil => rfl
  | cons interval rest inductionHypothesis =>
    obtain ⟨first, last⟩ := interval
    obtain ⟨starts, later⟩ := List.pairwise_cons.mp ordered
    by_cases touches : first ≤ stop
    · have kept := absorbed_ordered start stop (max stop last) (first, last) rest ordered
      have extended := extended_holds start stop first last point (starts (first, last) (by simp))
        touches
      rw [merge, if_pos touches, inductionHypothesis start (max stop last) kept, holds_cons,
        holds_cons, holds_cons, extended, or_assoc]
    · rw [merge, if_neg touches, holds_cons, inductionHypothesis first last later, ← holds_cons]

/-- No result starts before the current interval. This is what keeps the gap in front of an interval
that takes the place of the current one. -/
theorem merge_starts (start stop : α) (rest : List (α × α))
    (ordered : Ordered ((start, stop) :: rest)) :
    ∀ interval ∈ merge start stop rest, start ≤ interval.1 := by
  induction rest generalizing start stop with
  | nil => simp [merge]
  | cons interval rest inductionHypothesis =>
    obtain ⟨first, last⟩ := interval
    obtain ⟨starts, later⟩ := List.pairwise_cons.mp ordered
    by_cases touches : first ≤ stop
    · rw [merge, if_pos touches]
      apply inductionHypothesis
      exact absorbed_ordered start stop (max stop last) (first, last) rest ordered
    · rw [merge, if_neg touches]
      intro interval member
      cases List.mem_cons.mp member with
      | inl same => rw [same]
      | inr among =>
        exact (starts (first, last) (by simp)).trans (inductionHypothesis first last later interval among)

/-- The results are proper when all intervals are.

Proof: by induction on the intervals to come; the larger of two ends is no less than the start. -/
theorem merge_proper (start stop : α) (rest : List (α × α))
    (proper : Proper ((start, stop) :: rest)) : Proper (merge start stop rest) := by
  induction rest generalizing start stop with
  | nil => exact proper
  | cons interval rest inductionHypothesis =>
    obtain ⟨first, last⟩ := interval
    have current : start ≤ stop := proper (start, stop) (by simp)
    have others : Proper ((first, last) :: rest) := fun interval member =>
      proper interval (List.mem_cons_of_mem _ member)
    by_cases touches : first ≤ stop
    · rw [merge, if_pos touches]
      apply inductionHypothesis
      intro interval member
      cases List.mem_cons.mp member with
      | inl same =>
        rw [same]
        exact current.trans (le_max_left stop last)
      | inr among => exact others interval (List.mem_cons_of_mem _ among)
    · rw [merge, if_neg touches]
      intro interval member
      cases List.mem_cons.mp member with
      | inl same =>
        rw [same]
        exact current
      | inr among => exact inductionHypothesis first last others interval among

/-- There is a gap between any two results.

Proof: by induction on the intervals to come. A current interval is given up for one that
starts after its end, and no later result starts before that one. -/
theorem merge_apart (start stop : α) (rest : List (α × α))
    (ordered : Ordered ((start, stop) :: rest)) : Apart (merge start stop rest) := by
  induction rest generalizing start stop with
  | nil => exact List.pairwise_singleton _ _
  | cons interval rest inductionHypothesis =>
    obtain ⟨first, last⟩ := interval
    obtain ⟨starts, later⟩ := List.pairwise_cons.mp ordered
    by_cases touches : first ≤ stop
    · rw [merge, if_pos touches]
      apply inductionHypothesis
      exact absorbed_ordered start stop (max stop last) (first, last) rest ordered
    · rw [merge, if_neg touches]
      apply List.pairwise_cons.mpr
      constructor
      · intro interval member
        exact (lt_of_not_ge touches).trans_le (merge_starts first last rest later interval member)
      · exact inductionHypothesis first last later

/-- Intervals with gaps are their own result. -/
theorem merge_of_apart (start stop : α) (rest : List (α × α))
    (apart : Apart ((start, stop) :: rest)) : merge start stop rest = (start, stop) :: rest := by
  induction rest generalizing start stop with
  | nil => rfl
  | cons interval rest inductionHypothesis =>
    obtain ⟨first, last⟩ := interval
    obtain ⟨gaps, later⟩ := List.pairwise_cons.mp apart
    have gap : stop < first := gaps (first, last) (by simp)
    rw [merge, if_neg (not_le_of_gt gap), inductionHypothesis first last later]

end Intervals
