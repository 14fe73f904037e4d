import UbootTftp.BoardClients
import UbootTftp.SafeFlashing

/-!
# Backups and images on a board

The installer reads the flash of a camera into its memory and out of it, and later fetches an
image and writes it over the flash. On a board the bytes that are read out are those of the
flash, whatever the memory has held, and the flash then holds the image: every bit that is
written has been set by the erasure before.
-/

namespace UbootTftp

open CodeRefinement (effects Admits)
open Overlays (replaced window)
open TestClient (Word PlainSession)

universe u
variable {κ : Type u}

/-- A board without temporary variables that knows its load address. It is what every script of the
installer starts from and leaves behind. -/
structure Ready (board : Board) (rambase : Text) (base : Nat) : Prop where
  tidy : ∀ name, Temporary name → board.values.get name = none
  lasting : ¬Temporary rambase
  located : ∃ text, board.values.get rambase = some text ∧ boardNumber text = some base

/-- What is seen of a board. -/
def Board.view (board : Board) : BoardView := ⟨board.values.get, board.memory, board.flash⟩

/-- A board that does not wait is shown. -/
theorem Ready.shows {board : Board} {rambase : Text} {base : Nat} (ready : Ready board rambase base) :
    Shows [] { board with waiting := none } board.view :=
  ⟨rfl, rfl, fun _ _ => rfl, fun name temporary _ => ready.tidy name temporary, rfl⟩

/-- Its load address is located, in every view with the same variable. -/
theorem Ready.addressed {board : Board} {rambase : Text} {base : Nat}
    (ready : Ready board rambase base) (hardware : Hardware) (loose : Loose rambase)
    (closed : Char.ofNat 0x7D ∉ rambase) (offset : Nat)
    (bounded : base + offset < 2 ^ hardware.wordSize) (view : BoardView)
    (same : view.values rambase = board.values.get rambase) :
    Operation.Addressed hardware (expansion rambase) view ⟨none, base⟩ offset := by
  obtain ⟨text, held, number⟩ := ready.located
  exact ⟨.held rambase text loose closed ready.lasting (same.trans held) number, bounded⟩

section Restoring

variable (around : OpenIpc.Surroundings) (base : Nat) (filename : Text) (body : Bytes)

/-- The operations of `openipc_nor_restore`, with the numbers that the snippets draw. That they are
its lines is the next theorem. -/
def restoreProgram : List (Operation × (Nat × Nat)) :=
  [(.message ("Uploading ".toList ++ pathName filename ++ "... ".toList) .green true false, (0, 0)),
    (.fetchStatic filename (some 1024) body ⟨none, base⟩, (around.counter 2, 0)),
    (.message "OK".toList .green false true, (0, 0)),
    (.message "Erasing flash... ".toList .green true false, (0, 0)),
    (.norErase 0 body.length, (0, 0)),
    (.message "OK".toList .green false true, (0, 0)),
    (.message "Writing flash... ".toList .green true false, (0, 0)),
    (.norWrite 0 1024 body.length ⟨none, base⟩, (around.counter 3, 0)),
    (.message "OK".toList .green false true, (0, 0))]

/-- They are its lines. -/
theorem restore_operations (session : ClientSession κ) (rambase : Text) :
    OpenIpc.restoreLines around (expansion rambase) session.serverIp filename body.length =
      operationLines session rambase (restoreProgram around base filename body) := rfl

/-- What is written to an erased flash is what it holds: a write is a conjunction with bits that are
all set. -/
theorem erased_written (size : Nat) (flash content : Nat → UInt8) :
    replaced 0 size (fun place => replaced 0 size (fun _ => 0xFF) flash (0 + place) &&& content place)
        (replaced 0 size (fun _ => 0xFF) flash) = replaced 0 size content flash := by
  rw [Overlays.replaced_again]
  refine Overlays.replaced_congr _ _ _ _ _ fun place inside => ?_
  rw [Overlays.replaced_inside _ _ _ _ _ inside]
  exact UInt8.toBitVec_inj.mp BitVec.allOnes_and

/-- The flash behind the operations holds the image, and behind the image it is as it was. -/
theorem restored_flash (view : BoardView) :
    (outcome (restoreProgram around base filename body) view).flash =
      replaced 0 body.length (fun place => body.getD place 0) view.flash := by
  refine (erased_written body.length view.flash fun place => replaced (base + 1024) body.length
    (fun place => body.getD place 0) view.memory (base + 1024 + place)).trans ?_
  refine Overlays.replaced_congr _ _ _ _ _ fun place inside => ?_
  exact Overlays.replaced_inside _ _ _ _ _ inside

/-- The memory behind the operations holds the image behind the load address. -/
theorem restored_memory (view : BoardView) :
    (outcome (restoreProgram around base filename body) view).memory =
      replaced (base + 1024) body.length (fun place => body.getD place 0) view.memory := rfl

/-- The operations can be carried out on a board that knows its load address, if the server hands
out the image and the flash has room for it in whole sectors. An image that ends within a sector
could not be erased for. -/
theorem restore_possible (hardware : Hardware) (session : ClientSession κ) (rambase : Text)
    (loose : Loose rambase) (closed : Char.ofNat 0x7D ∉ rambase) (board : Board)
    (ready : Ready board rambase base) (other : rambase ≠ "filesize".toList)
    (bounded : base + 1024 < 2 ^ hardware.wordSize)
    (served : Operation.Served hardware session.serverIp filename body)
    (shown : QuotedWords.EvenBefore '\\' '"' ("Uploading ".toList ++ pathName filename ++ "... ".toList))
    (present : hardware.capacity ≠ 0) (inside : body.length ≤ hardware.capacity)
    (whole : hardware.sector ∣ body.length) :
    Possible hardware session rambase (restoreProgram around base filename body) board.view := by
  have plain (text : Text) (unquoted : '"' ∉ text) : QuotedWords.EvenBefore '\\' '"' text :=
    even_before_plain text unquoted
  have stored : Operation.Stored hardware 0 body.length := ⟨present, by omega⟩
  refine ⟨shown, ⟨served, ready.addressed hardware loose closed 1024 bounded _ rfl⟩,
    plain _ (by decide), plain _ (by decide), ⟨stored, dvd_zero _, whole⟩, plain _ (by decide),
    plain _ (by decide), ⟨ready.addressed hardware loose closed 1024 bounded _ ?_, stored⟩,
    plain _ (by decide), trivial⟩
  exact if_neg other

/-- The sample board with a server that hands out an image of four bytes. -/
def restoringHardware : Hardware :=
  { sampleHardware with
    served := fun name => if name = "10.0.0.1:fw.bin".toList then some [1, 2, 3, 4] else none }

/-- The sample board knows its load address. -/
theorem sample_ready : Ready sampleBoard "loadaddr".toList 0x42000000 := by
  refine ⟨fun name temporary => ?_, by decide, "42000000".toList, rfl, by decide⟩
  have other : name ≠ "loadaddr".toList := by
    rintro rfl
    exact absurd temporary (by decide)
  exact Dict.get_set_other Dict.empty _ _ _ other

end Restoring

section Backups

/-- Messages of a caller, as operations that draw no numbers. -/
def messages (shown : List (Text × ColorName × Bool × Bool)) : List (Operation × (Nat × Nat)) :=
  shown.map fun entry => (.message entry.1 entry.2.1 entry.2.2.1 entry.2.2.2, (0, 0))

/-- They change nothing. -/
theorem messages_outcome (shown : List (Text × ColorName × Bool × Bool)) (view : BoardView) :
    outcome (messages shown) view = view :=
  CodeRefinement.effects_keep id (messages shown) (fun part member device => by
    obtain ⟨entry, -, rfl⟩ := List.mem_map.mp member
    rfl) view

/-- They can be shown if their quotes are closed. -/
theorem messages_possible (hardware : Hardware) (session : ClientSession κ) (rambase : Text)
    (shown : List (Text × ColorName × Bool × Bool))
    (even : ∀ entry ∈ shown, QuotedWords.EvenBefore '\\' '"' entry.1) (view : BoardView) :
    Possible hardware session rambase (messages shown) view := by
  induction shown with
  | nil => trivial
  | cons entry shown inductionHypothesis =>
    exact ⟨even entry (by simp), inductionHypothesis fun other member => even other (by simp [member])⟩

/-- The operations of `uboot_nor_download`, between messages that a caller may add. -/
def downloadProgram (base fill read size : Nat) (before after : List (Text × ColorName × Bool × Bool)) :
    List (Operation × (Nat × Nat)) :=
  messages before ++ [(.memset 0 0xFF size ⟨none, base⟩, (fill, 0)),
    (.norRead 0 0 size ⟨none, base⟩, (read, 0))] ++ messages after

/-- A message is no empty line. -/
theorem messages_kept (session : ClientSession κ) (rambase : Text)
    (shown : List (Text × ColorName × Bool × Bool)) :
    (operationLines session rambase (messages shown)).filter (fun cmd => decide (cmd ≠ [])) =
      operationLines session rambase (messages shown) := by
  refine List.filter_eq_self.mpr fun line member => ?_
  simp only [operationLines, messages, List.map_map, List.mem_map, Function.comp] at member
  obtain ⟨entry, -, rfl⟩ := member
  exact decide_eq_true (List.append_ne_nil_of_left_ne_nil (List.append_ne_nil_of_left_ne_nil
    (List.append_ne_nil_of_left_ne_nil (by decide) _) _) _)

/-- They are its lines. -/
theorem download_operations (session : ClientSession κ) (rambase : Text) (base fill read size : Nat)
    (before after : List (Text × ColorName × Bool × Bool)) :
    ubootNorDownload (expansion rambase) fill read size
        (operationLines session rambase (messages before))
        (operationLines session rambase (messages after)) =
      operationLines session rambase (downloadProgram base fill read size before after) := by
  rw [ubootNorDownload, messages_kept, messages_kept]
  simp only [downloadProgram, operationLines, List.map_append]
  rfl

/-- Behind the operations the memory holds the flash, which is as it was. That the memory was filled
before cannot be seen any more. -/
theorem download_outcome (base fill read size : Nat)
    (before after : List (Text × ColorName × Bool × Bool)) (view : BoardView) :
    outcome (downloadProgram base fill read size before after) view =
      { view with memory := replaced base size view.flash view.memory } := by
  have inner : outcome [(Operation.memset 0 0xFF size ⟨none, base⟩, (fill, 0)),
      (Operation.norRead 0 0 size ⟨none, base⟩, (read, 0))] view =
        { view with memory := replaced base size (fun place => view.flash (0 + place)) <|
            replaced base size (fun _ => 0xFF) view.memory } := rfl
  simp only [Nat.zero_add, Overlays.replaced_again] at inner
  have front := messages_outcome before view
  have back := messages_outcome after { view with memory := replaced base size view.flash view.memory }
  simp only [outcome, downloadProgram, CodeRefinement.effects_append] at front back inner ⊢
  rw [front, inner, back]

/-- The operations can be carried out on a board that knows its load address and has a flash of
the size. -/
theorem download_possible (hardware : Hardware) (session : ClientSession κ) (rambase : Text)
    (loose : Loose rambase) (closed : Char.ofNat 0x7D ∉ rambase) (base fill read size : Nat)
    (board : Board) (ready : Ready board rambase base) (bounded : base < 2 ^ hardware.wordSize)
    (present : hardware.capacity ≠ 0) (inside : size ≤ hardware.capacity)
    (before after : List (Text × ColorName × Bool × Bool))
    (even : ∀ entry ∈ before ++ after, QuotedWords.EvenBefore '\\' '"' entry.1) :
    Possible hardware session rambase (downloadProgram base fill read size before after)
      board.view := by
  have addressed (view : BoardView) (same : view.values = board.values.get) :
      Operation.Addressed hardware (expansion rambase) view ⟨none, base⟩ 0 :=
    ready.addressed hardware loose closed 0 bounded view (congrFun same rambase)
  refine (CodeRefinement.admits_append _ _ _ _ _).mpr
    ⟨(CodeRefinement.admits_append _ _ _ _ _).mpr ⟨?_, ?_⟩, ?_⟩
  · exact messages_possible hardware session rambase before
      (fun entry member => even entry (by simp [member])) _
  · have front : effects (fun part => part.1.effect) (messages before) board.view = board.view :=
      messages_outcome before board.view
    rw [front]
    exact ⟨addressed _ rfl, ⟨addressed _ rfl, present, by omega⟩, trivial⟩
  · exact messages_possible hardware session rambase after
      (fun entry member => even entry (by simp [member])) _

end Backups

end UbootTftp
