import UbootTftp.EmbeddedRecovery
import UbootTftp.InstallScripts
import UbootTftp.PatchInference
import UbootTftp.ReturnKeys

/-!
# The order of flashing

The installer writes the image only after it has saved a backup. Whether the backup is one of
the whole flash depends on the client, whose upload is saved at any length, and whether the
image fits on the flash depends on the download, whose length is not compared with that of the
flash. Where neither goes wrong, and no text that is shown to the user holds a command, the
flash is changed only after it has been probed and backed up, and only within its size.
-/

namespace UbootTftp

namespace OpenIpc

variable (provider : Provider Point) (around : Surroundings)

/-- The texts that the script of a point shows, besides those of its session's server.

They come from the request, from the camera's environment and from the images, and none of them is
escaped: a text can bring a command of its own into the script. -/
def Point.shown (session : ClientSession Point) : Point → List Text
  | .backingUp locals => [locals.ident, locals.soc]
  | .saved locals => [locals.soc]
  | .extracting locals _ => locals.shownValues around
  | .patching locals _ _ => [locals.ident, locals.soc]
  | .flashed locals newEnv =>
    if locals.Readdresses newEnv then (newEnv.get "ethaddr".toList).toList
    else locals.reportTexts session
  | .readdressed locals => locals.reportTexts session
  | _ => []

/-- The directory of the backups. -/
def backupDirectory (host : Host) : Path := host.resolve (host.staticRoot ++ ["backup".toList])

/-- The file that a backup is written to. -/
def Locals.backupTarget (host : Host) (locals : Locals) : Path :=
  host.resolve (host.staticRoot ++ pathParts (locals.backupFile around))

/-- Nothing goes wrong in a round: the texts that it puts into its script hold no command, a backup
has the size of the flash and lands among the backups, and an image that can be patched is no longer
than the flash.

Each field is a condition on what the round starts from, and on points to which it does not apply it
is void. -/
structure Meets (point : Point) (round : Round Point) : Prop where
  server : FreeTexts round.found.session point.serverKeys
  shown : ∀ text ∈ point.shown around round.found.session, FlashFree text
  backup : ∀ locals body, point = .backingUp locals → round.resumption = .received body →
    (body.length : Int) = locals.norSize ∧
      backupDirectory provider.host <+: locals.backupTarget around provider.host
  image : ∀ locals binary newEnv patched, point = .patching locals binary newEnv →
    ubootenvPatch around.codecs binary newEnv .inferred none 0xFF utf8 = .ok patched →
      (binary.length : Int) ≤ locals.norSize

section History

variable (past : List (Point × Round Point))

/-- The client has reported the size of the flash. -/
def Probed (size : Int) : Prop :=
  ∃ call cenv round text, (Point.sizing call cenv, round) ∈ past ∧
    round.found.session.publicEnv.get "size".toList = some text ∧
      Text.parseInteger 0 text = some size

/-- A backup of exactly that size has been received and written among the backups. That it holds the
flash cannot be known at the server: the bytes are the client's. -/
def BackedUp (size : Int) : Prop :=
  ∃ locals round body target, (Point.backingUp locals, round) ∈ past ∧
    round.resumption = .received body ∧ (body.length : Int) = size ∧
      backupDirectory provider.host <+: target ∧
        (provider.play (.backingUp locals) round).1.files.contents target = some body

end History

/-- The local variables of a point after the probe. Before the probe, and behind the last report,
there are none. -/
def Point.probed : Point → Option Locals
  | .announced locals | .backingUp locals | .saved locals | .cached locals | .downloading locals
  | .polled locals _ | .extracting locals _ | .patching locals _ _ | .flashed locals _
  | .readdressed locals => some locals
  | _ => none

/-- The local variables of a point after the backup. -/
def Point.saving : Point → Option Locals
  | .announced _ | .backingUp _ => none
  | point => point.probed

/-- What has happened when a point is reached. It is the invariant of the runs: each field speaks of
the points from which it can be told, and of the history before them. -/
structure Holds (past : List (Point × Round Point)) (point : Point) : Prop where
  probed : ∀ locals, point.probed = some locals → Probed past locals.norSize
  saving : ∀ locals, point.saving = some locals → BackedUp provider past locals.norSize
  firmware : ∀ locals, point.probed = some locals → locals.fw ∈ supportedFirmware
  patching : ∀ locals binary newEnv, point = .patching locals binary newEnv →
    ∃ extracted, ubootenvExtract around.codecs binary .inferred = .ok extracted

/-- What is awaited at a point: only the stretch that writes the image changes the flash. Two
stretches ask for an upload, that of the environment and that of the backup. -/
def Point.Awaits : Point → Awaited → Prop
  | .patching locals _ _, awaited =>
    ∀ request, awaited.instruction = some request → Flashes locals.norSize request
  | .exported _, awaited | .announced _, awaited => Speaks true awaited
  | _, awaited => Speaks false awaited

/-- What a stretch hands on: the size comes from the report, the firmware has been checked, and an
image that is patched has an environment. It is the part of a step lemma that concerns the next
point. -/
structure Follows (publicEnv : Env) (point next : Point) : Prop where
  probed : ∀ locals, next.probed = some locals → point.probed = some locals ∨
    ∃ call cenv text, point = .sizing call cenv ∧ publicEnv.get "size".toList = some text ∧
      Text.parseInteger 0 text = some locals.norSize ∧ locals.fw ∈ supportedFirmware
  saving : ∀ locals, next.saving = some locals →
    point.saving = some locals ∨ point = .backingUp locals
  patching : ∀ locals binary newEnv, next = .patching locals binary newEnv →
    ∃ extracted, ubootenvExtract around.codecs binary .inferred = .ok extracted

/-- Every script names the load address and the download command. -/
theorem server_keys (point : Point) :
    "rambase".toList ∈ point.serverKeys ∧ "cmdtftp".toList ∈ point.serverKeys := by
  unfold Point.serverKeys
  split <;> decide

variable {provider around} {point : Point} {round : Round Point}

/-- A stretch that fetches the image hands on what it got. -/
theorem fetches_follow {locals : Locals} {next : Point} (publicEnv : Env)
    (known : point.probed = some locals) (saved : point.saving = some locals)
    (fetches : next.Fetches locals) : Follows around publicEnv point next := by
  rcases fetches with rfl | rfl | ⟨state, rfl⟩ | ⟨binary, rfl⟩
  · exact ⟨fun _ held => .inl (known.trans held), fun _ held => .inl (saved.trans held), by simp⟩
  · exact ⟨fun _ held => .inl (known.trans held), fun _ held => .inl (saved.trans held), by simp⟩
  · exact ⟨fun _ held => .inl (known.trans held), fun _ held => .inl (saved.trans held), by simp⟩
  · exact ⟨fun _ held => .inl (known.trans held), fun _ held => .inl (saved.trans held), by simp⟩

/-- A point before the probe or after the report hands on nothing. -/
theorem nothing_follows {next : Point} (publicEnv : Env) (unprobed : next.probed = none) :
    Follows around publicEnv point next := by
  have unsaved : next.saving = none := by
    cases next <;> first | exact unprobed | rfl
  refine ⟨by simp [unprobed], by simp [unsaved], ?_⟩
  rintro locals binary newEnv rfl
  cases unprobed

/-- What each stretch awaits and hands on, in a round in which nothing goes wrong.

Proof: one case for each point; the stretches have lemmas of their own, and here they are only put
together. -/
theorem resume_ensures (met : Meets provider around point round)
    (firmware : ∀ locals, point.probed = some locals → locals.fw ∈ supportedFirmware)
    (extracted : ∀ locals binary newEnv, point = .patching locals binary newEnv →
      ∃ extracted, ubootenvExtract around.codecs binary .inferred = .ok extracted) :
    (resume around point round.resumption).Ensures (Attached round.found.session)
      (fun awaited next => point.Awaits awaited ∧
        Follows around round.found.session.publicEnv point next) := by
  obtain ⟨loads, fetches⟩ := server_keys point
  have texts := met.server
  have shown := met.shown
  cases point with
  | started call =>
    refine (export_env_ensures call texts loads).mono ?_
    rintro awaited next ⟨speaks, rfl⟩
    exact ⟨speaks, nothing_follows _ rfl⟩
  | exported call =>
    refine (upload_env_ensures around call).mono ?_
    rintro awaited next ⟨speaks, rfl⟩
    exact ⟨speaks, nothing_follows _ rfl⟩
  | uploading call =>
    cases round.resumption with
    | received body =>
      refine (accept_env_ensures call body).mono ?_
      rintro awaited next ⟨speaks, rfl⟩
      exact ⟨speaks, nothing_follows _ rfl⟩
    | started | execReturned | receiveFailed | sent value => trivial
  | fetched call cenv =>
    refine (probe_flash_ensures around call cenv).mono ?_
    rintro awaited next ⟨speaks, merged, maxSize, rfl⟩
    exact ⟨speaks, nothing_follows _ rfl⟩
  | probing call cenv maxSize =>
    refine (probe_size_ensures call cenv maxSize texts loads fetches).mono ?_
    rintro awaited next ⟨speaks, rfl | rfl⟩
    · exact ⟨speaks, nothing_follows _ rfl⟩
    · exact ⟨speaks, nothing_follows _ rfl⟩
  | sizing call cenv =>
    refine (accept_size_ensures around call cenv texts loads fetches).mono ?_
    rintro awaited next ⟨speaks, rfl | ⟨locals, text, reported, parsed, supported, rfl⟩⟩
    · exact ⟨speaks, nothing_follows _ rfl⟩
    · refine ⟨speaks, ?_, by simp [Point.saving], by simp⟩
      rintro _ ⟨⟩
      exact .inr ⟨call, cenv, text, rfl, reported, parsed, supported⟩
  | announced locals =>
    refine (download_flash_ensures around locals texts loads).mono ?_
    rintro awaited next ⟨speaks, rfl⟩
    exact ⟨speaks, fun _ held => .inl held, by simp [Point.saving], by simp⟩
  | backingUp locals =>
    cases round.resumption with
    | received body =>
      simp only [Point.shown, List.forall_mem_cons] at shown
      refine (save_backup_ensures around locals body shown.1 shown.2.1).mono ?_
      rintro awaited next ⟨speaks, rfl⟩
      refine ⟨speaks, fun _ held => .inl held, ?_, by simp⟩
      rintro _ ⟨⟩
      exact .inr rfl
    | started | execReturned | receiveFailed | sent value => trivial
  | saved locals =>
    simp only [Point.shown, List.forall_mem_cons] at shown
    refine (download_image_ensures locals shown.1 (firmware_free (firmware locals rfl))).mono ?_
    rintro awaited next ⟨speaks, later⟩
    exact ⟨speaks, fetches_follow _ rfl rfl later⟩
  | cached locals =>
    refine (read_image_ensures locals).mono ?_
    rintro awaited next ⟨speaks, later⟩
    exact ⟨speaks, fetches_follow _ rfl rfl later⟩
  | downloading locals =>
    refine (poll_download_ensures locals).mono ?_
    rintro awaited next ⟨speaks, later⟩
    exact ⟨speaks, fetches_follow _ rfl rfl later⟩
  | polled locals state =>
    refine (after_poll_ensures locals state).mono ?_
    rintro awaited next ⟨speaks, later⟩
    exact ⟨speaks, fetches_follow _ rfl rfl later⟩
  | extracting locals binary =>
    refine (patch_env_ensures around locals binary texts loads shown).mono ?_
    rintro awaited next ⟨speaks, extracted, newEnv, done, rfl⟩
    refine ⟨speaks, fun _ held => .inl held, fun _ held => .inl held, ?_⟩
    rintro _ _ _ ⟨⟩
    exact ⟨extracted, done⟩
  | patching locals binary newEnv =>
    simp only [Point.shown, List.forall_mem_cons] at shown
    obtain ⟨env, done⟩ := extracted locals binary newEnv rfl
    refine (flash_image_ensures around locals binary newEnv env texts loads done
      (fun patched written => met.image locals binary newEnv patched rfl written)
      shown.1 shown.2.1 (firmware_free (firmware locals rfl))).mono ?_
    rintro awaited next ⟨flashes, rfl⟩
    exact ⟨flashes, fun _ held => .inl held, fun _ held => .inl held, by simp⟩
  | flashed locals newEnv =>
    refine (readdress_ensures around locals newEnv ?_ ?_).mono ?_
    · intro changed
      simpa [Point.shown, changed] using shown
    · intro same
      simpa [Point.shown, same] using shown
    · rintro awaited next ⟨speaks, rfl | rfl⟩
      · exact ⟨speaks, fun _ held => .inl held, fun _ held => .inl held, by simp⟩
      · exact ⟨speaks, nothing_follows _ rfl⟩
  | readdressed locals =>
    refine (report_ensures around locals shown).mono ?_
    rintro awaited next ⟨speaks, rfl⟩
    exact ⟨speaks, nothing_follows _ rfl⟩
  | reported =>
    refine (count_down_ensures 0).mono ?_
    rintro awaited next ⟨speaks, rfl | rfl⟩
    · exact ⟨speaks, nothing_follows _ rfl⟩
    · exact ⟨speaks, nothing_follows _ rfl⟩
  | counting step =>
    refine (count_down_ensures step).mono ?_
    rintro awaited next ⟨speaks, rfl | rfl⟩
    · exact ⟨speaks, nothing_follows _ rfl⟩
    · exact ⟨speaks, nothing_follows _ rfl⟩
  | stopped => trivial

/-- Code that saves a backup and goes on has written it. Code that cannot write it raises and does
not go on. -/
theorem save_backup_written (locals : Locals) (body : Bytes) (awaited : Awaited) (next : Point)
    (suspends : ((saveBackup around locals body).run provider.host round.now round.schedule
      round.found).2 = .awaited awaited next) :
    ((saveBackup around locals body).run provider.host round.now round.schedule
      round.found).1.files.contents (locals.backupTarget around provider.host) = some body := by
  unfold saveBackup Code.run at suspends ⊢
  simp only at suspends ⊢
  generalize round.found.reports round.now (round.schedule.headD []) = state at suspends ⊢
  have written := state.write_file_contents provider.host (locals.backupFile around) body
  cases answer : (state.writeFile provider.host (locals.backupFile around) body).2 with
  | error raised =>
    rw [answer] at suspends
    cases suspends
  | ok path =>
    have held := written path answer
    simp only [Code.attempt]
    unfold Code.execute
    split
    · exact held
    · exact held

section Rounds

variable (installs : provider.resume = resume around)

include installs

/-- What a round in which nothing goes wrong awaits and hands on; it keeps the session's texts. This
is all that is used of a round afterwards, so that the code of the installer is looked at once. -/
theorem round_follows (met : Meets provider around point round)
    (firmware : ∀ locals, point.probed = some locals → locals.fw ∈ supportedFirmware)
    (extracted : ∀ locals binary newEnv, point = .patching locals binary newEnv →
      ∃ extracted, ubootenvExtract around.codecs binary .inferred = .ok extracted)
    (awaited : Awaited) (next : Point)
    (suspends : (provider.play point round).2 = .awaited awaited next) :
    point.Awaits awaited ∧ Follows around round.found.session.publicEnv point next ∧
      Attached round.found.session (provider.play point round).1.session := by
  have ensures := resume_ensures met firmware extracted
  rw [← installs] at ensures
  have unattached : ∀ session artifacts, Attached round.found.session session →
      Attached round.found.session { session with downloadArtifacts := artifacts } := by
    rintro _ artifacts ⟨_, rfl⟩
    exact ⟨artifacts, rfl⟩
  obtain ⟨⟨awaits, follows⟩, attached⟩ := ensures.run unattached provider.host round.now
    round.schedule round.found ⟨_, rfl⟩ awaited next suspends
  exact ⟨awaits, follows, attached⟩

/-- A round that goes on from the backup has written what it received. An upload that failed raises
there, so the round has received a body, of whatever length. -/
theorem backup_written (locals : Locals) (awaited : Awaited) (next : Point)
    (suspends : (provider.play (.backingUp locals) round).2 = .awaited awaited next) :
    ∃ body, round.resumption = .received body ∧
      (provider.play (.backingUp locals) round).1.files.contents
        (locals.backupTarget around provider.host) = some body := by
  unfold Provider.play at suspends ⊢
  rw [installs] at suspends ⊢
  cases resumed : round.resumption with
  | received body =>
    rw [resumed] at suspends
    exact ⟨body, rfl, save_backup_written locals body awaited next suspends⟩
  | started =>
    rw [resumed] at suspends
    cases suspends
  | execReturned =>
    rw [resumed] at suspends
    cases suspends
  | receiveFailed =>
    rw [resumed] at suspends
    cases suspends
  | sent value =>
    rw [resumed] at suspends
    cases suspends

end Rounds

section History

variable (past : List (Point × Round Point))

/-- What has been probed stays so. -/
theorem Probed.extended {past : List (Point × Round Point)} {size : Int} (probed : Probed past size)
    (later : List (Point × Round Point)) : Probed (past ++ later) size := by
  obtain ⟨call, cenv, round, text, member, reported, parsed⟩ := probed
  exact ⟨call, cenv, round, text, List.mem_append_left _ member, reported, parsed⟩

/-- What has been backed up stays so: the history only grows. -/
theorem BackedUp.extended {past : List (Point × Round Point)} {size : Int}
    (saved : BackedUp provider past size) (later : List (Point × Round Point)) :
    BackedUp provider (past ++ later) size := by
  obtain ⟨locals, round, body, target, member, rest⟩ := saved
  exact ⟨locals, round, body, target, List.mem_append_left _ member, rest⟩

/-- A round in which nothing goes wrong keeps what has happened true. What was known of the rounds
before stays known, and what the point behind this round claims is shown of this round. -/
theorem Holds.step (installs : provider.resume = resume around) (awaited : Awaited) (next : Point)
    (holds : Holds provider around past point) (met : Meets provider around point round)
    (suspends : (provider.play point round).2 = .awaited awaited next) :
    Holds provider around (past ++ [(point, round)]) next := by
  obtain ⟨-, follows, -⟩ :=
    round_follows installs met holds.firmware holds.patching awaited next suspends
  refine ⟨fun locals known => ?_, fun locals saved => ?_, fun locals known => ?_, follows.patching⟩
  · rcases follows.probed locals known with before | ⟨call, cenv, text, rfl, reported, parsed, -⟩
    · exact (holds.probed locals before).extended _
    · exact ⟨call, cenv, round, text, by simp, reported, parsed⟩
  · rcases follows.saving locals saved with before | rfl
    · exact (holds.saving locals before).extended _
    · obtain ⟨body, received, written⟩ := backup_written installs locals awaited next suspends
      obtain ⟨sized, among⟩ := met.backup locals body rfl received
      exact ⟨locals, round, body, _, by simp, received, sized, among, written⟩
  · rcases follows.probed locals known with before | ⟨_, _, _, -, -, -, supported⟩
    · exact holds.firmware locals before
    · exact supported

/-- Rounds in which nothing goes wrong lead to points for which this has happened.

Proof: by induction on the run; the step is the lemma above, and at the beginning there is nothing
to show. -/
theorem plays_hold (installs : provider.resume = resume around) (call : Invocation)
    (plays : provider.Plays (.started call) past point)
    (met : ∀ entry ∈ past, Meets provider around entry.1 entry.2) :
    Holds provider around past point := by
  apply plays.guarded (Meets provider around) (Holds provider around) ?_ ?_ met
  · exact ⟨by simp [Point.probed], by simp [Point.saving, Point.probed], by simp [Point.probed], by simp⟩
  · intro past point round awaited next holds met suspends
    exact holds.step past installs awaited next met suspends

end History

/-- Away from the stretch that writes the image a request is quiet. -/
theorem Point.Awaits.quiet {awaited : Awaited} (awaits : point.Awaits awaited)
    (ordinary : ∀ locals binary newEnv, point ≠ .patching locals binary newEnv)
    (request : ExecutionRequest) (asks : awaited.instruction = some request) :
    ∃ receives, Quiet receives request ∧
      (receives = true → "cmdtftpput".toList ∈ point.serverKeys) := by
  cases point with
  | patching locals binary newEnv => exact absurd rfl (ordinary locals binary newEnv)
  | exported call => exact ⟨true, awaits request asks, fun _ => by simp [serverKeys, hiddenKeys]⟩
  | announced locals => exact ⟨true, awaits request asks, fun _ => by simp [serverKeys, hiddenKeys]⟩
  | _ => exact ⟨false, awaits request asks, by simp⟩

/-- A script that a round emits after a run and that changes the flash is emitted after the flash
has been probed and a backup of exactly the probed size, received from the client, has been written
among the backups, and it changes the flash only within that size.

A script changes the flash if a line of it can be read as a command that does. -/
def FlashesSafely (provider : Provider Point) (past : List (Point × Round Point)) (point : Point)
    (round : Round Point) : Prop :=
  ∀ draw tmpName script, provider.Emits point round draw tmpName script → ¬FlashFree script →
    ∃ size, Probed past size ∧ BackedUp provider past size ∧ FlashLines size script

end OpenIpc

open OpenIpc in
/-- In every run of the installer whose rounds are all clear of what goes wrong, the flash is
changed only after the backup and only within its size.

The rounds of a run find sessions and files that are not constrained, so that whatever happens at
the server in between is covered. -/
theorem flash_after_backup (provider : Provider Point) (around : Surroundings)
    (installs : provider.resume = resume around) (urlSafe : provider.host.UrlSafe)
    (call : Invocation) (past : List (Point × Round Point)) (point : Point) (round : Round Point)
    (plays : provider.Plays (.started call) past point)
    (met : ∀ entry ∈ past ++ [(point, round)], Meets provider around entry.1 entry.2) :
    FlashesSafely provider past point round := by
  intro draw tmpName script emits changes
  obtain ⟨earlier, present⟩ := List.forall_mem_append.mp met
  have now := present (point, round) (by simp)
  have holds := plays_hold past installs call plays earlier
  obtain ⟨awaited, next, request, suspends, asks, sent⟩ := emits
  obtain ⟨awaits, -, artifacts, attached⟩ :=
    round_follows installs now holds.firmware holds.patching awaited next suspends
  have texts : FreeTexts (provider.play point round).1.session point.serverKeys := by
    rw [attached]
    exact ⟨now.server.env, now.server.serverIp⟩
  obtain ⟨loads, fetches⟩ := server_keys point
  have tokenFree : ' ' ∉ provider.host.token draw := fun member =>
    absurd (urlSafe draw ' ' member) (by decide)
  by_cases writing : ∃ locals binary newEnv, point = .patching locals binary newEnv
  · obtain ⟨locals, binary, newEnv, rfl⟩ := writing
    obtain ⟨expects, keysFree, lines⟩ := awaits request asks
    refine ⟨locals.norSize, holds.probed locals rfl, holds.saving locals rfl, ?_⟩
    exact sent_lines _ _ tmpName tokenFree request _ texts loads fetches expects keysFree lines
      script sent
  · refine absurd ?_ changes
    obtain ⟨receives, quiet, puts⟩ := awaits.quiet
      (fun locals binary newEnv same => writing ⟨locals, binary, newEnv, same⟩) request asks
    exact sent_free _ tmpName tokenFree request _ texts loads fetches
      (fun expects => puts (quiet.sized expects)) quiet.offset quiet.keys quiet.script script sent

namespace OpenIpc

/-- The script that writes an image contains the command that erases. So a script in which no
command changes the flash is none of these, and whoever sends one has come to the point at which the
image is written. -/
theorem restore_changes (around : Surroundings) (rambase serverIp filename command : Text)
    (size : Nat) : ¬FlashFree (Text.joinLines
      [Text.rstrip (Text.joinLines (restoreLines around rambase serverIp filename size)),
        command]) := by
  rw [restore_lines_kept]
  intro free
  have present : ubootNorErase (.int 0) (.int size) ≠ [] := by
    unfold ubootNorErase snippet
    simp
  have line : ubootNorErase (.int 0) (.int size) <:+:
      Text.joinLines (restoreLines around rambase serverIp filename size) :=
    Text.line_infix _ _ (by simp [restoreLines]) present
  have erases : "sf erase".toList <:+: ubootNorErase (.int 0) (.int size) := by
    refine ⟨"sf probe 0\n".toList, ' ' :: formatNumber (.int 0) ++ ' ' :: formatNumber (.int size), ?_⟩
    unfold ubootNorErase snippet
    simp [List.intercalate]
  have kept : Text.joinLines (restoreLines around rambase serverIp filename size) ≠ [] := by
    rintro empty
    rw [empty] at line
    exact present (List.infix_nil.mp line)
  have whole := Text.line_infix [Text.joinLines (restoreLines around rambase serverIp filename size),
    command] _ (by simp) kept
  exact free "sf erase".toList (by decide) ((erases.trans line).trans whole)

section Sample

/-- What the installer takes from a machine on the first of January. -/
def sampleAround : Surroundings where
  codecs := sampleCodecs
  repr := id
  message := fun _ => []
  stamp := "20260101-120000".toList
  stamp_plain := by
    have plain : ("20260101-120000".toList.all fun character =>
        character.isDigit || character == '-') = true := by decide
    simpa only [List.all_eq_true, Bool.or_eq_true, beq_iff_eq] using plain
  randomBytes := [1, 2, 3, 4, 5]
  counter := id

/-- A server that installs. -/
def sampleInstaller : Provider Point :=
  ⟨sampleConfig, fun _ => install, resume sampleAround, sampleHost⟩

/-- The invocation of the sample run. -/
def sampleCall : Invocation := ⟨sampleHost.staticRoot, sampleClient.text, "install".toList⟩

/-- A round with the variables that the client has reported and the files that there are. -/
def sampleRound (reported : List (Text × Text)) (files : FileTree) (resumption : Resumption) :
    Round Point :=
  ⟨0, [], ⟨{ (ClientSession.create sampleClient : ClientSession Point) with
      env := sampleConfig.env
      publicEnv := Dict.ofList reported }, Dict.empty, files⟩, resumption⟩

/-- The environment of the camera, with the arguments of the request. -/
def sampleExport : Bytes := asciiBytes "ethaddr=00:11:22:33:44:55\n"

/-- What the request of the sample run names, which is what the installer requires. -/
def sampleArguments : List (Text × Text) :=
  [("vendor".toList, "goke".toList), ("soc".toList, "gk7205v300".toList)]

/-- The environment of the sample camera with these arguments merged into it. -/
def sampleCenv : Env := currentEnv (ubootenvParseExport sampleExport) (Dict.ofList sampleArguments)

/-- The local variables for a flash of 8 MiB. -/
def sampleLocals : Locals :=
  ⟨sampleHost.staticRoot, sampleClient.text, sampleCenv, 0x800000, "lite".toList, "goke".toList,
    "gk7205v300".toList⟩

/-- An image with an environment partition of 576 bytes. It is far smaller than a flash, which the
installer does not mind. -/
def installImage : Bytes :=
  let embedded := asciiBytes "a=\x00b=\x00c=\x00ipaddr=\x00mtdparts=f:64(boot),576(env)\x00"
  embedded ++ List.replicate (640 - embedded.length) 0xFF

/-- The environment that is put into the image. -/
def installedEnv (extracted : Env) : Env :=
  patchedEnv sampleCenv extracted
    (mergedVariables sampleClient.text (genMac sampleAround.randomBytes "00:11:22:33:44:55".toList)
      (expansion "loadaddr".toList))

/-- The files of a server that has downloaded the image before. -/
def sampleFiles : FileTree :=
  Dict.ofList [(["srv".toList, "install".toList, "openipc-gk7205v300-lite-8mb.bin".toList],
    .file installImage)]

/-- A run up to the point where the image is patched, with an upload of the backup. -/
def samplePast (body : Bytes) : List (Point × Round Point) :=
  [(.started sampleCall, sampleRound [] Dict.empty .started),
    (.exported sampleCall, sampleRound [("filesize".toList, "1a".toList)] Dict.empty .execReturned),
    (.uploading sampleCall, sampleRound [] Dict.empty (.received sampleExport)),
    (.fetched sampleCall (ubootenvParseExport sampleExport),
      sampleRound sampleArguments Dict.empty .execReturned),
    (.probing sampleCall sampleCenv (128 * 2 ^ 20),
      sampleRound [("status".toList, "0".toList)] Dict.empty .execReturned),
    (.sizing sampleCall sampleCenv,
      sampleRound [("size".toList, "0x800000".toList)] Dict.empty .execReturned),
    (.announced sampleLocals, sampleRound [] Dict.empty .execReturned),
    (.backingUp sampleLocals, sampleRound [] Dict.empty (.received body)),
    (.saved sampleLocals, sampleRound [] sampleFiles .execReturned),
    (.cached sampleLocals, sampleRound [] sampleFiles .execReturned),
    (.extracting sampleLocals installImage, sampleRound [] sampleFiles .execReturned)]

/-- An image without markers has the layout that its environment announces. The image has to be no
longer than the probed region, so that the whole of it is searched for the environment. -/
theorem announced_layout (codecs : Codecs) (image : Bytes) (env : Env) (bootSize envSize : Int)
    (small : image.length ≤ 2 * 1024 * 1024) (present : image ≠ [])
    (unmarked : findFirstPostBootMagic image 0 = none)
    (embedded : extractDefaultEnvFromUboot codecs image = .ok env)
    (announced : findMtdpartsLayout env = .ok (some (bootSize, envSize)))
    (positive : 0 < bootSize ∧ 0 < envSize) :
    resolvePartitionLayout codecs image .inferred = .ok ⟨bootSize, bootSize, envSize, some env⟩ := by
  have probed : guessBootProbeSize image 0 = image.length := by
    simp only [guessBootProbeSize, unmarked]
    omega
  have whole : Sequences.sliceInt image 0 image.length = image := by
    have bound : ¬(image.length : Int) < 0 := by omega
    simp [Sequences.sliceInt, Sequences.slice, bound]
  have usable : ¬(bootSize ≤ 0 ∨ envSize ≤ 0 ∨ bootSize < 0) := by omega
  simp [resolvePartitionLayout, inferPartitionLayout, LayoutArguments.inferred, present, probed,
    whole, embedded, announced, usable]

/-- An image whose environment partition is erased is patched with the one it embeds. An erased
partition cannot be parsed, and then the environment of the boot loader is taken instead. -/
theorem erased_patched (codecs : Codecs) (image : Bytes) (bootSize envSize : Int) (env newEnv : Env)
    (layout : resolvePartitionLayout codecs image .inferred =
      .ok ⟨bootSize, bootSize, envSize, some env⟩)
    (partition : Bytes) (found : Sequences.sliceInt image bootSize (bootSize + envSize) = partition)
    (whole : (partition.length : Int) = envSize)
    (raised : EnvError) (erased : ubootenvParsePart codecs partition = .error raised)
    (built : (ubootenvBuild codecs newEnv (some envSize) none 0xFF utf8).toOption.isSome = true) :
    ubootenvExtract codecs image .inferred = .ok env ∧
      ∃ patched, ubootenvPatch codecs image newEnv .inferred none 0xFF utf8 = .ok patched := by
  constructor
  · simp [ubootenvExtract, layout, found, whole, erased, embeddedEnv]
  · cases build : ubootenvBuild codecs newEnv (some envSize) none 0xFF utf8 with
    | error raised =>
      rw [build] at built
      cases built
    | ok envImage => simp [ubootenvPatch, ubootenvFind, layout, build]

/-- The environment that the image embeds. -/
def installDefaults : Env :=
  Dict.ofList [("a".toList, []), ("b".toList, []), ("c".toList, []), ("ipaddr".toList, []),
    ("mtdparts".toList, "f:64(boot),576(env)".toList)]

/-- The image embeds its default environment. -/
theorem install_image_embeds :
    extractDefaultEnvFromUboot sampleCodecs installImage = .ok installDefaults := by
  have shape : installImage = [] ++ (entryBytes installDefaults.entries ++
      List.replicate (640 - (entryBytes installDefaults.entries).length) 0xFF) := by decide +kernel
  rw [shape]
  apply Embeddable.extracted (by decide +kernel) sampleCodecs [] _ (by simp) (by simp)
  · intro inside
    exact absurd (List.eq_of_mem_replicate inside) (by decide)
  · exact sample_members_plain _

/-- The environment that the image embeds tells its layout. -/
theorem install_image_layout : resolvePartitionLayout sampleCodecs installImage .inferred =
    .ok ⟨64, 64, 576, some installDefaults⟩ :=
  announced_layout sampleCodecs installImage installDefaults 64 576 (by decide +kernel)
    (by decide +kernel) (by decide +kernel) install_image_embeds (by decide +kernel) (by decide)

/-- The environment that is written fits into its partition. -/
theorem install_image_built : (ubootenvBuild sampleCodecs (installedEnv installDefaults)
    (some 576) none 0xFF utf8).toOption.isSome = true := by decide +kernel

/-- The environment partition of the image is erased. -/
theorem install_image_erased : ubootenvParsePart sampleCodecs (List.replicate 576 0xFF) =
    .error .erasedPartition := by
  rw [ubootenvParsePart, if_neg (by decide +kernel), if_pos (by decide +kernel)]

/-- The image can be extracted from and patched. -/
theorem install_image_patched :
    ubootenvExtract sampleCodecs installImage .inferred = .ok installDefaults ∧
      ∃ patched, ubootenvPatch sampleCodecs installImage (installedEnv installDefaults) .inferred none
        0xFF utf8 = .ok patched := by
  have partition : Sequences.sliceInt installImage 64 640 = List.replicate 576 0xFF := by
    decide +kernel
  exact erased_patched sampleCodecs installImage 64 576 installDefaults
    (installedEnv installDefaults) install_image_layout (List.replicate 576 0xFF) partition
    (by rw [List.length_replicate]; rfl) _ install_image_erased install_image_built

/-- The size of the flash is no number that is too large. -/
theorem sample_size_divides : quotientOverflows 0x800000 = false := by decide +kernel

attribute [local irreducible] quotientOverflows in
/-- The reported size announces the backup. -/
theorem sample_announced : ∃ awaited, (sampleInstaller.play (.sizing sampleCall sampleCenv)
    (sampleRound [("size".toList, "0x800000".toList)] Dict.empty .execReturned)).2 =
      .awaited awaited (.announced sampleLocals) := by
  let round := sampleRound [("size".toList, "0x800000".toList)] Dict.empty .execReturned
  have reduced : sampleInstaller.play (.sizing sampleCall sampleCenv) round =
      (checkInstall sampleCall sampleCenv 0x800000 round.found.session).run sampleHost 0 []
        round.found := Eq.refl _
  rw [reduced]
  unfold checkInstall
  rw [if_neg (by simp [sample_size_divides])]
  exact ⟨_, Eq.refl _⟩

/-- The environment of an image is extracted and patched. -/
theorem sample_patched (image : Bytes) (files : FileTree) (extracted : Env)
    (done : ubootenvExtract sampleCodecs image .inferred = .ok extracted) :
    ∃ awaited, (sampleInstaller.play (.extracting sampleLocals image)
      (sampleRound [] files .execReturned)).2 =
        .awaited awaited (.patching sampleLocals image (installedEnv extracted)) := by
  have reduced : sampleInstaller.play (.extracting sampleLocals image)
      (sampleRound [] files .execReturned) = (patchEnv sampleAround sampleLocals image).run
        sampleHost 0 [] (sampleRound [] files .execReturned).found := Eq.refl _
  have extraction : ubootenvExtract sampleAround.codecs image .inferred = .ok extracted := done
  rw [reduced]
  unfold patchEnv
  rw [extraction]
  exact ⟨_, Eq.refl _⟩

/-- The run, whatever the client uploads. -/
theorem sample_plays (body : Bytes) (extracted : Env)
    (done : ubootenvExtract sampleCodecs installImage .inferred = .ok extracted) :
    sampleInstaller.Plays (.started sampleCall) (samplePast body)
      (.patching sampleLocals installImage (installedEnv extracted)) := by
  obtain ⟨announces, announced⟩ := sample_announced
  obtain ⟨patches, patched⟩ := sample_patched installImage sampleFiles extracted done
  refine Provider.Leads.plays (.started sampleCall) (samplePast body) _ ?_ .begun
  refine ⟨rfl, _, _, Eq.refl _, rfl, _, _, Eq.refl _, rfl, _, _, Eq.refl _, rfl, _, _, Eq.refl _,
    rfl, _, _, Eq.refl _, rfl, announces, _, announced, rfl, _, _, Eq.refl _, rfl, _, _, Eq.refl _,
    rfl, _, _, Eq.refl _, rfl, _, _, Eq.refl _, rfl, patches, _, patched, rfl⟩

/-- From there on the flash is written, whatever the backup. -/
theorem sample_emits (image : Bytes) (newEnv : Env) (patched : Bytes)
    (written : ubootenvPatch sampleCodecs image newEnv .inferred none 0xFF utf8 = .ok patched) :
    ∃ script, sampleInstaller.Emits (.patching sampleLocals image newEnv)
      (sampleRound [] Dict.empty .execReturned) 0 [] script ∧ ¬FlashFree script := by
  have reduced : sampleInstaller.play (.patching sampleLocals image newEnv)
      (sampleRound [] Dict.empty .execReturned) = (flashImage sampleAround sampleLocals image
        newEnv).run sampleHost 0 [] (sampleRound [] Dict.empty .execReturned).found := Eq.refl _
  have done : ubootenvPatch sampleAround.codecs image newEnv .inferred none 0xFF utf8 =
    .ok patched := written
  unfold Provider.Emits
  rw [reduced]
  unfold flashImage
  rw [done]
  exact ⟨_, ⟨_, _, _, Eq.refl _, Eq.refl _, Eq.refl _⟩, restore_changes _ _ _ _ _ _⟩

/-- The texts of the sample session hold no command. -/
theorem sample_server_free (point : Point) (reported : List (Text × Text)) (files : FileTree)
    (resumption : Resumption) :
    FreeTexts (sampleRound reported files resumption).found.session point.serverKeys := by
  have values : ∀ key ∈ hiddenKeys, ∀ value ∈ (sampleConfig.env.get key).toList, FlashFree value := by
    decide +kernel
  have listed : ∀ key ∈ point.serverKeys, key ∈ hiddenKeys := by
    unfold Point.serverKeys
    split <;> decide
  have address : FlashFree "127.0.0.1".toList := by decide
  refine ⟨fun key member value held => ?_, address⟩
  exact values key (listed key member) value (Option.mem_toList.mpr held)

/-- In the run with a backup of 8 MiB nothing goes wrong. The entries of the run are gone through
one by one, with the length of the backup for the one that uploads it. -/
theorem sample_meets (body : Bytes) (sized : (body.length : Int) = 0x800000) (newEnv : Env) :
    ∀ entry ∈ samplePast body ++
      [(.patching sampleLocals installImage newEnv, sampleRound [] Dict.empty .execReturned)],
      Meets sampleInstaller sampleAround entry.1 entry.2 := by
  have plain (point : Point) (reported : List (Text × Text)) (files : FileTree)
      (resumption : Resumption)
      (shown : ∀ text ∈ point.shown sampleAround
        (sampleRound reported files resumption).found.session, FlashFree text)
      (early : ∀ locals, point ≠ .backingUp locals)
      (unwritten : ∀ locals binary newEnv, point ≠ .patching locals binary newEnv) :
      Meets sampleInstaller sampleAround point (sampleRound reported files resumption) :=
    ⟨sample_server_free point reported files resumption, shown,
      fun locals _ same _ => absurd same (early locals),
      fun locals binary newEnv _ same _ => absurd same (unwritten locals binary newEnv)⟩
  simp only [samplePast, List.cons_append, List.nil_append, List.forall_mem_cons]
  refine ⟨?_, ?_, ?_, ?_, ?_, ?_, ?_, ?_, ?_, ?_, ?_, ?_, by simp⟩
  · exact plain _ _ _ _ (by simp [Point.shown]) (by simp) (by simp)
  · exact plain _ _ _ _ (by simp [Point.shown]) (by simp) (by simp)
  · exact plain _ _ _ _ (by simp [Point.shown]) (by simp) (by simp)
  · exact plain _ _ _ _ (by simp [Point.shown]) (by simp) (by simp)
  · exact plain _ _ _ _ (by decide +kernel) (by simp) (by simp)
  · exact plain _ _ _ _ (by decide +kernel) (by simp) (by simp)
  · exact plain _ _ _ _ (by simp [Point.shown]) (by simp) (by simp)
  · have shown : ∀ text ∈ [sampleLocals.ident, sampleLocals.soc], FlashFree text := by
      decide +kernel
    refine ⟨sample_server_free _ _ _ _, shown, ?_, by simp⟩
    rintro _ _ ⟨⟩ ⟨⟩
    exact ⟨sized, by decide +kernel⟩
  · exact plain _ _ _ _ (by decide +kernel) (by simp) (by simp)
  · exact plain _ _ _ _ (by simp [Point.shown]) (by simp) (by simp)
  · exact plain _ _ _ _ (by decide +kernel) (by simp) (by simp)
  · have shown : ∀ text ∈ [sampleLocals.ident, sampleLocals.soc], FlashFree text := by
      decide +kernel
    refine ⟨sample_server_free _ _ _ _, shown, by simp, ?_⟩
    rintro _ _ _ patched ⟨⟩ written
    decide +kernel

end Sample

end OpenIpc

open OpenIpc in
/-- A run with a backup of 8 MiB comes to a script that changes the flash, and does so safely. -/
theorem flash_after_backup_sample : ∃ newEnv script,
    sampleInstaller.Emits (.patching sampleLocals installImage newEnv)
      (sampleRound [] Dict.empty .execReturned) 0 [] script ∧ ¬FlashFree script ∧
    FlashesSafely sampleInstaller (samplePast (List.replicate 0x800000 0))
      (.patching sampleLocals installImage newEnv) (sampleRound [] Dict.empty .execReturned) := by
  obtain ⟨done, patched, written⟩ := install_image_patched
  obtain ⟨script, emits, changes⟩ := sample_emits installImage _ patched written
  refine ⟨_, script, emits, changes, ?_⟩
  exact flash_after_backup sampleInstaller sampleAround rfl sample_url_safe sampleCall _ _ _
    (sample_plays _ _ done)
    (sample_meets _ (by rw [List.length_replicate, Nat.cast_ofNat]) _)

open OpenIpc in
/-- With an upload of a single byte for the backup the flash of 8 MiB is erased as well: the length
of the upload is not compared with that of the flash. -/
theorem flash_without_backup : ¬∀ (provider : Provider Point) (around : Surroundings),
    provider.resume = resume around → provider.host.UrlSafe →
      ∀ (call : Invocation) (past : List (Point × Round Point)) (point : Point)
        (round : Round Point), provider.Plays (.started call) past point →
          FlashesSafely provider past point round := by
  intro safe
  obtain ⟨done, patched, written⟩ := install_image_patched
  obtain ⟨script, emits, changes⟩ := sample_emits installImage _ patched written
  obtain ⟨size, ⟨call, cenv, probe, text, sized, reported, parsed⟩,
    ⟨locals, upload, body, target, saved, received, length, -⟩, -⟩ :=
    safe sampleInstaller sampleAround rfl sample_url_safe sampleCall (samplePast [0]) _ _
      (sample_plays [0] _ done) 0 [] script emits changes
  simp only [samplePast, List.mem_cons, Prod.mk.injEq, reduceCtorEq, false_and, false_or, or_false,
    List.not_mem_nil, Point.sizing.injEq, Point.backingUp.injEq] at sized saved
  obtain ⟨⟨rfl, rfl⟩, rfl⟩ := sized
  obtain ⟨rfl, rfl⟩ := saved
  cases received
  have sent : (sampleRound [("size".toList, "0x800000".toList)] Dict.empty
      .execReturned).found.session.publicEnv.get "size".toList = some "0x800000".toList := Eq.refl _
  rw [sent] at reported
  cases reported
  have large : Text.parseInteger 0 "0x800000".toList = some 0x800000 := by decide +kernel
  rw [large] at parsed
  cases parsed
  exact absurd length (by decide)

end UbootTftp
