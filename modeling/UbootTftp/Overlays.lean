import Mathlib.Data.List.Basic

/-!
# Cells with a range replaced

Cells are a function of their place. A range of them is replaced by the cells of another function
that counts from the beginning of the range; a window lists the cells of a range. A copy that
moves up cell by cell replaces the range as a whole, unless it would read cells that it has
written before.
-/

namespace Overlays

universe u
variable {β : Type u}

/-- Cells in which a range is replaced. -/
def replaced (start count : Nat) (content cells : Nat → β) : Nat → β := fun place =>
  if start ≤ place ∧ place < start + count then content (place - start) else cells place

/-- The cells of a range. -/
def window (start count : Nat) (cells : Nat → β) : List β :=
  (List.range count).map (fun offset => cells (start + offset))

/-- Copy cells one by one, from the first to the last. -/
def copyUp (source target : Nat) : Nat → (Nat → β) → Nat → β
  | 0, cells => cells
  | count + 1, cells =>
    copyUp (source + 1) (target + 1) count (fun place => if place = target then cells source else cells place)

variable (start count : Nat) (content cells : Nat → β)

/-- A cell of the range. -/
theorem replaced_inside (offset : Nat) (inside : offset < count) :
    replaced start count content cells (start + offset) = content offset := by
  have within : start ≤ start + offset ∧ start + offset < start + count := by omega
  rw [replaced, if_pos within, Nat.add_sub_cancel_left]

/-- A cell outside of the range. -/
theorem replaced_outside (place : Nat) (outside : place < start ∨ start + count ≤ place) :
    replaced start count content cells place = cells place := by
  rw [replaced, if_neg (by omega)]

/-- A range that is replaced twice. -/
theorem replaced_again (earlier : Nat → β) :
    replaced start count content (replaced start count earlier cells) =
      replaced start count content cells := by
  funext place
  by_cases within : start ≤ place ∧ place < start + count
  · simp only [replaced, if_pos within]
  · simp only [replaced, if_neg within]

/-- Only the cells that are put into the range matter. -/
theorem replaced_congr (other : Nat → β) (same : ∀ offset < count, content offset = other offset) :
    replaced start count content cells = replaced start count other cells := by
  funext place
  by_cases within : start ≤ place ∧ place < start + count
  · simp only [replaced, if_pos within]
    exact same _ (by omega)
  · simp only [replaced, if_neg within]

/-- The window on a replaced range. -/
theorem window_replaced :
    window start count (replaced start count content cells) = (List.range count).map content := by
  apply List.map_congr_left
  intro offset member
  exact replaced_inside start count content cells offset (List.mem_range.mp member)

/-- A list is the window on the range that it replaces. -/
theorem window_list (items : List β) (default : β) :
    window start items.length (replaced start items.length (fun offset => items.getD offset default)
      cells) = items := by
  rw [window_replaced]
  apply List.ext_getElem
  · simp
  · intro offset inside within
    simp [List.getElem?_eq_getElem within]

/-- A window that is put back gives the cells that it was taken from, if the others still agree.
Inside the interval the cells are read back from the window, outside they are left alone. -/
theorem window_restored (earlier : Nat → β) (default : β)
    (same : ∀ place, place < start ∨ start + count ≤ place → cells place = earlier place) :
    replaced start count (fun offset => (window start count earlier).getD offset default) cells =
      earlier := by
  funext place
  by_cases within : start ≤ place ∧ place < start + count
  · obtain ⟨offset, rfl⟩ := Nat.exists_eq_add_of_le within.1
    have inside : offset < count := by omega
    rw [replaced_inside _ _ _ _ _ inside]
    simp [window, inside]
  · rw [replaced_outside _ _ _ _ _ (by omega)]
    exact same place (by omega)

/-- A list with another one laid on its beginning, as long as it is. -/
def covered (items cover : List β) : List β := (cover ++ items.drop cover.length).take items.length

/-- The window on the range of a list on whose beginning another one has been put. Where the cover
is the longer one nothing of the list is left in the window. -/
theorem window_covered (items cover : List β) (default : β) :
    window start items.length (replaced start cover.length (fun offset => cover.getD offset default)
      (replaced start items.length (fun offset => items.getD offset default) cells)) =
        covered items cover := by
  apply List.ext_getElem
  · simp only [window, covered, List.length_map, List.length_range, List.length_take,
      List.length_append, List.length_drop]
    omega
  · intro offset inside within
    have bounded : offset < items.length := by simpa [window] using inside
    simp only [window, covered, List.getElem_map, List.getElem_range, List.getElem_take]
    by_cases front : offset < cover.length
    · rw [replaced_inside _ _ _ _ _ front, List.getElem_append_left front]
      simp [List.getElem?_eq_getElem front]
    · have behind : cover.length ≤ offset := Nat.le_of_not_lt front
      rw [replaced_outside _ _ _ _ _ (by omega), replaced_inside _ _ _ _ _ bounded,
        List.getElem_append_right behind, List.getElem_drop]
      simp [List.getElem?_eq_getElem bounded, Nat.add_sub_cancel' behind]

/-- A copy that does not read what it has written replaces the range.

Proof: by induction on the number of cells. The first cell is written where no later one is read,
and the others replace the rest of the range. -/
theorem copy_up_replaced (source target : Nat)
    (apart : target ≤ source ∨ source + count ≤ target) :
    copyUp source target count cells =
      replaced target count (fun offset => cells (source + offset)) cells := by
  induction count generalizing source target cells with
  | zero =>
    funext place
    rw [replaced_outside _ _ _ _ _ (by omega)]
    rfl
  | succ count inductionHypothesis =>
    rw [copyUp, inductionHypothesis _ (source + 1) (target + 1) (by omega)]
    funext place
    by_cases first : place = target
    · have begins : target ≤ target ∧ target < target + (count + 1) := by omega
      have behind : ¬(target + 1 ≤ target ∧ target < target + 1 + count) := by omega
      simp only [replaced, first, if_pos begins, if_neg behind, if_true, Nat.sub_self, Nat.add_zero]
    · by_cases within : target + 1 ≤ place ∧ place < target + 1 + count
      · have both : target ≤ place ∧ place < target + (count + 1) := by omega
        have unwritten : source + (place - target) ≠ target := by omega
        have same : source + 1 + (place - (target + 1)) = source + (place - target) := by omega
        simp only [replaced, if_pos within, if_pos both, same, if_neg unwritten]
      · have outside : ¬(target ≤ place ∧ place < target + (count + 1)) := by omega
        simp only [replaced, if_neg within, if_neg outside, if_neg first]

end Overlays
