import UbootTftp.BoardRequests

/-!
# Backups that are written back

A backup of the flash is what the board reads into its memory and sends; the restore fetches a
file and writes it to the flash. Between the two the flash can be anything, and its first bytes
are the ones of the backup again.
-/

namespace UbootTftp

open OpenIpc (Surroundings restoreLines spoken received)
open Overlays (replaced window)
open TestClient (PlainSession Word)

section RoundTrip

universe u
variable {κ : Type u} (around : Surroundings) (hardware : Hardware) (base : Nat)
  {session : ClientSession κ} {token cmdtftp cmdtftpput rambase : Text}

end RoundTrip

/-- The sample board with a server that hands out the first four bytes of its flash. -/
def backupHardware : Hardware :=
  { sampleHardware with
    served := fun name => if name = "10.0.0.1:backup.bin".toList then some [0, 1, 2, 3] else none }

/-- The sample board after its first bytes have been erased. -/
def erasedBoard : Board :=
  { sampleBoard with flash := fun place => if place < 4 then 0xFF else UInt8.ofNat place }

end UbootTftp
