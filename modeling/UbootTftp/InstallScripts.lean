import UbootTftp.FlashScripts
import UbootTftp.OpenIpc
import UbootTftp.PatchBounds

/-!
# The scripts of the installer

What the installer asks for, stretch by stretch: which script it awaits, where it goes on,
and what it has come to know. Until the image is written its scripts change nothing on the
flash, as long as the texts that they show do not.
-/

namespace UbootTftp

universe u

section Calls

variable {κ : Type u}

/-- Sessions with the same texts: only the downloads differ. -/
def Attached (found session : ClientSession κ) : Prop :=
  ∃ artifacts, session = { found with downloadArtifacts := artifacts }

/-- A request whose script changes nothing on the flash. Whether it may ask for an upload is a
parameter, since only two of the installer's requests do. -/
structure Quiet (receives : Bool) (request : ExecutionRequest) : Prop where
  sized : request.receiveSize ≠ none → receives = true
  offset : request.receiveOffset = none
  keys : ∀ key ∈ request.returnKeys, ' ' ∉ key
  script : FlashFree request.script

/-- What is awaited is such a request. -/
def Speaks (receives : Bool) (awaited : Awaited) : Prop :=
  ∀ request, awaited.instruction = some request → Quiet receives request

variable {pre : ClientSession κ → Prop} {post : Awaited → κ → Prop}

/-- A weaker postcondition. The induction is on the code, since the postcondition stands at all of
its ends. -/
theorem Code.Ensures.mono {weaker : Awaited → κ → Prop} {code : Code κ}
    (ensures : code.Ensures pre post)
    (implies : ∀ awaited next, post awaited next → weaker awaited next) :
    code.Ensures pre weaker := by
  induction code with
  | await awaited next => exact implies _ _ ensures
  | finish => trivial
  | raise error => trivial
  | inspect next inductionHypothesis =>
    exact fun session holds => inductionHypothesis session (ensures session holds)
  | setEnv env next inductionHypothesis =>
    exact ⟨ensures.1, inductionHypothesis ensures.2⟩
  | acquireDownload _ _ _ _ _ next inductionHypothesis =>
    exact fun answer => inductionHypothesis answer (ensures answer)
  | getDownload _ next inductionHypothesis =>
    exact fun answer => inductionHypothesis answer (ensures answer)
  | writeFile _ _ next inductionHypothesis =>
    exact fun answer => inductionHypothesis answer (ensures answer)
  | fileExists _ next inductionHypothesis =>
    exact fun answer => inductionHypothesis answer (ensures answer)
  | readFile _ next inductionHypothesis =>
    exact fun answer => inductionHypothesis answer (ensures answer)

/-- The code goes on with the value of an answer. -/
theorem attempt_ensures {α : Type} (answer : Except Raised α) (next : α → Code κ)
    (each : ∀ value, answer = .ok value → (next value).Ensures pre post) :
    (Code.attempt answer next).Ensures pre post := by
  cases answer with
  | ok value => exact each value rfl
  | error raised => trivial

/-- A checked list of keys is the list. -/
theorem normalize_keys_ok {keys returnKeys : List Text}
    (checked : normalizeReturnKeys keys = .ok returnKeys) : returnKeys = keys := by
  unfold normalizeReturnKeys at checked
  split at checked
  · cases checked
  · cases checked
    rfl

/-- Awaiting the request that is built of lines. -/
theorem execute_request (lines : List Text) (final : Bool) (keys : List Text) (next : κ)
    (holds : ∀ awaited, awaited.instruction = some ⟨Text.joinLines lines, final, none, keys, none⟩ →
      post awaited next) : (Code.execute lines final keys next).Ensures pre post := by
  unfold Code.execute
  split
  · rename_i request made
    apply holds
    obtain ⟨returnKeys, checked, same⟩ := (Except.bind_eq_ok _ _ _).mp made
    rw [normalize_keys_ok checked] at same
    cases same
    rfl
  · trivial

/-- Awaiting a script of free lines. -/
theorem execute_ensures (lines : List Text) (final : Bool) (keys : List Text) (next : κ)
    (spaceless : ∀ key ∈ keys, ' ' ∉ key) (each : ∀ line ∈ lines, FlashFree line)
    (holds : ∀ awaited, Speaks false awaited → post awaited next) :
    (Code.execute lines final keys next).Ensures pre post := by
  apply execute_request
  intro awaited asks
  apply holds
  intro request same
  cases asks.symm.trans same
  exact ⟨fun expects => absurd rfl expects, rfl, spaceless, lines_free lines each⟩

/-- Awaiting an upload with a script of free lines. -/
theorem receive_ensures (lines : List Text) (size : Int) (next : κ)
    (each : ∀ line ∈ lines, FlashFree line)
    (holds : ∀ awaited, Speaks true awaited → post awaited next) :
    (Code.receive lines size next).Ensures pre post := by
  unfold Code.receive
  split
  · rename_i request made
    apply holds
    rintro _ ⟨⟩
    simp only [execRecv, Bool.false_eq_true, if_false] at made
    obtain ⟨returnKeys, checked, same⟩ := (Except.bind_eq_ok _ _ _).mp made
    rw [normalize_keys_ok checked] at same
    cases same
    exact ⟨fun _ => rfl, rfl, by simp, lines_free lines each⟩
  · trivial

/-- The load address is the expansion of a text of the session. The other case is a session without
the variable, which raises before anything is sent. -/
theorem rambase_ok {session : ClientSession κ} {rambase : Text}
    (found : rambaseOf session = .ok rambase) :
    ∃ text, session.env.get "rambase".toList = some text ∧ rambase = expansion text := by
  unfold rambaseOf at found
  cases held : lookupEnv session.env "rambase".toList with
  | error raised =>
    rw [held] at found
    cases found
  | ok text =>
    rw [held] at found
    cases found
    exact ⟨text, looked_up held, rfl⟩

end Calls

namespace OpenIpc

section Texts

/-- A message of the installer. -/
theorem message_free (msg : Text) (free : FlashFree msg) : FlashFree (message msg) :=
  msg_free msg free .green false true

/-- A message in bold letters holds no command that its text does not hold. -/
theorem bold_message_free (msg : Text) (free : FlashFree msg) : FlashFree (boldMessage msg) :=
  msg_free msg free .green true true

/-- Neither does a message that leaves the cursor on its line. -/
theorem open_message_free (msg : Text) (free : FlashFree msg) : FlashFree (openMessage msg) :=
  msg_free msg free .green true false

/-- A text behind or between fixed ones. -/
theorem behind_free (front text : Text) (free : FlashFree text)
    (tight : Sequences.Template.tight flashCommands [some front, none] = true) :
    FlashFree (front ++ text) := by
  have filled := flash_template [some front, none] [text] tight (List.forall_mem_singleton.mpr free)
  simpa [Sequences.Template.fill] using filled

/-- A text between two fixed ones, neither of which ends or begins a command. -/
theorem around_free (front text back : Text) (free : FlashFree text)
    (tight : Sequences.Template.tight flashCommands [some front, none, some back] = true) :
    FlashFree (front ++ text ++ back) := by
  have filled := flash_template [some front, none, some back] [text] tight
    (List.forall_mem_singleton.mpr free)
  simpa [Sequences.Template.fill] using filled

/-- A truncated text. -/
theorem trunc_free (text : Text) (maxLen : Nat) (free : FlashFree text) :
    FlashFree (trunc text maxLen) := by
  unfold trunc
  split
  · exact free
  · split
    · exact FlashFree.part (by decide) (List.take_prefix _ _).isInfix
    · have front : FlashFree (text.take (maxLen - 3)) := free.part (List.take_prefix _ _).isInfix
      exact front.seam '.' (by decide) (by decide)

/-- The name of the image is made of the soc, the firmware and the size. -/
theorem image_name_free (locals : Locals) (soc : FlashFree locals.soc) (fw : FlashFree locals.fw) :
    FlashFree locals.imageName := by
  have filled := flash_template
    [some "install/openipc-".toList, none, some ['-'], none, some ['-'], none, some "mb.bin".toList]
    [locals.soc, locals.fw, Text.decimal (norSizeMb locals.norSize).toNat] (by decide)
    (by simp [soc, fw, decimal_free])
  unfold Locals.imageName
  simpa [Sequences.Template.fill] using filled

/-- The name of the backup is made of the client id, the soc, the size and the time. The size is a
number and the time is made of digits and dashes, so only the first two are asked to be free. -/
theorem backup_filename_free (around : Surroundings) (locals : Locals)
    (ident : FlashFree locals.ident) (soc : FlashFree locals.soc) :
    FlashFree (locals.backupFilename around) := by
  have stamp : FlashFree around.stamp := by
    refine flash_spaceless _ fun member => ?_
    rcases around.stamp_plain ' ' member with digit | dash
    · exact absurd digit (by decide)
    · exact absurd dash (by decide)
  have filled := flash_template
    [some "install-backup-".toList, none, some ['-'], none, some ['-'], none, some "mb-".toList, none,
      some ".bin".toList]
    [locals.ident, locals.soc, Text.decimal (norSizeMb locals.norSize).toNat, around.stamp]
    (by decide) (by simp [ident, soc, decimal_free, stamp])
  unfold Locals.backupFilename
  simpa [Sequences.Template.fill] using filled

/-- The name at the end of a path. -/
theorem path_name_free (text : Text) (free : FlashFree text) : FlashFree (pathName text) := by
  unfold pathName
  cases parts : pathParts text with
  | nil => decide +kernel
  | cons first rest =>
    have last : (first :: rest).getLastD [] ∈ pathParts text := by
      rw [parts, List.getLastD_eq_getLast?, List.getLast?_eq_some_getLast (by simp)]
      exact List.getLast_mem _
    have split := List.mem_of_mem_filter last
    have inside := Sequences.joined_infix ['/'] _ _ split
    rw [List.intercalate_splitOn] at inside
    exact free.part inside

/-- The patched image is named by the client and the image. -/
theorem patched_file_free (locals : Locals) (ident : FlashFree locals.ident)
    (soc : FlashFree locals.soc) (fw : FlashFree locals.fw) : FlashFree locals.patchedFile := by
  have name := path_name_free _ (image_name_free locals soc fw)
  have front := behind_free "patched/".toList locals.ident ident (by decide)
  exact front.seam '-' (by decide) name

end Texts

/-- The variables of the session that the script of a point names; an upload names one more. -/
def Point.serverKeys : Point → List Text
  | .exported _ | .announced _ => hiddenKeys
  | _ => ["rambase".toList, "cmdtftp".toList]

section Stretches

-- The bound of the quotient is a number that no proof here looks at.
attribute [local irreducible] quotientOverflows

variable (around : Surroundings) {found : ClientSession Point} {keys : List Text}

/-- A free load address. -/
theorem rambase_free (texts : FreeTexts found keys) (loads : "rambase".toList ∈ keys)
    {rambase : Text} (held : rambaseOf found = .ok rambase) :
    ∃ text, FlashFree text ∧ rambase = expansion text := by
  obtain ⟨text, value, rfl⟩ := rambase_ok held
  exact ⟨text, texts.env _ loads text value, rfl⟩

/-- The first stretch asks the board to export its environment, and suspends until that is
reported. -/
theorem export_env_ensures (call : Invocation) (texts : FreeTexts found keys)
    (loads : "rambase".toList ∈ keys) :
    (exportEnv call).Ensures (Attached found)
      (fun awaited next => Speaks false awaited ∧ next = .exported call) := by
  rintro _ ⟨artifacts, rfl⟩
  refine attempt_ensures _ _ fun rambase held => ?_
  obtain ⟨text, free, rfl⟩ := rambase_free texts loads held
  refine execute_ensures _ _ _ _ (by decide) ?_ fun awaited speaks => ⟨speaks, rfl⟩
  exact List.forall_mem_singleton.mpr
    (behind_free "env export -t ".toList _ (expansion_free text free) (by decide))

/-- The second stretch asks for the export in the length that the board has reported. A length that
is missing or no number ends the handler. -/
theorem upload_env_ensures (call : Invocation) :
    (uploadEnv around call).Ensures (Attached found)
      (fun awaited next => Speaks true awaited ∧ next = .uploading call) := by
  rintro _ ⟨artifacts, rfl⟩
  simp only
  split
  · trivial
  · split
    · trivial
    · refine receive_ensures _ _ _ ?_ fun awaited speaks => ⟨speaks, rfl⟩
      exact List.forall_mem_singleton.mpr (open_message_free _ (by decide))

/-- The third stretch takes what has been sent for the environment, whatever it is. -/
theorem accept_env_ensures (call : Invocation) (body : Bytes) :
    (acceptEnv call body).Ensures (Attached found) (fun awaited next =>
      Speaks false awaited ∧ next = .fetched call (ubootenvParseExport body)) := by
  refine execute_ensures _ _ _ _ (by decide) ?_ fun awaited speaks => ⟨speaks, rfl⟩
  exact List.forall_mem_singleton.mpr (message_free _ (by decide))

/-- The script that probes the flash is asked for with the variables as they are merged by then. A
limit that cannot be read ends the handler. -/
theorem probe_flash_ensures (call : Invocation) (cenv : Env) :
    (probeFlash around call cenv).Ensures (Attached found) (fun awaited next =>
      Speaks false awaited ∧ ∃ merged maxSize, next = .probing call merged maxSize) := by
  rintro _ ⟨artifacts, rfl⟩
  simp only
  split
  · trivial
  · refine execute_ensures _ _ _ _ (by decide) ?_ fun awaited speaks => ⟨speaks, _, _, rfl⟩
    simp only [List.forall_mem_cons]
    exact ⟨open_message_free _ (by decide), by decide, by decide, by simp⟩

/-- The check of the arguments returns only if the firmware is one that can be installed. -/
theorem checked_firmware {cmdtftp rambase : Except Raised Text} {cenv : Env} {args : List Text}
    (checked : checkInstallArgs cmdtftp rambase cenv = .ok args) {fw : Text}
    (named : lookupEnv cenv "fw".toList = .ok fw) : fw ∈ supportedFirmware := by
  obtain ⟨name, same, checked⟩ := (Except.bind_eq_ok _ _ _).mp checked
  cases named.symm.trans same
  by_contra unsupported
  simp only [if_pos unsupported] at checked
  cases checked

/-- The firmware that can be installed holds no command. -/
theorem firmware_free {fw : Text} (supported : fw ∈ supportedFirmware) : FlashFree fw := by
  have each : ∀ name ∈ supportedFirmware, FlashFree name := by decide
  exact each fw supported

set_option maxRecDepth 2000 in
/-- The complaints about the arguments are fixed texts and how a session is started. The only texts
from the session in them are the command that fetches and the load address. -/
theorem check_args_free (cmdtftp rambase : Except Raised Text) (cenv : Env)
    (fetches : ∀ text, cmdtftp = .ok text → FlashFree text)
    (loads : ∀ text, rambase = .ok text → ∃ base, FlashFree base ∧ text = expansion base)
    (args : List Text) (checked : checkInstallArgs cmdtftp rambase cenv = .ok args) :
    ∀ line ∈ args, FlashFree line := by
  obtain ⟨name, named, rest⟩ := (Except.bind_eq_ok _ _ _).mp checked
  simp only [if_neg (not_not.mpr (checked_firmware checked named))] at rest
  replace checked := rest
  generalize listed : (if cenv.get "vendor".toList = none then
      [ubootErr "Must pass vendor=name".toList] else []) ++
    (if cenv.get "soc".toList = none then [ubootErr "Must pass soc=name".toList] else []) =
      script at checked
  have free : ∀ line ∈ script, FlashFree line := by
    rw [← listed]
    refine List.forall_mem_append.mpr ⟨?_, ?_⟩
    · split
      · exact List.forall_mem_singleton.mpr (err_free _ (by decide))
      · simp
    · split
      · exact List.forall_mem_singleton.mpr (err_free _ (by decide))
      · simp
  split at checked
  · cases checked
    simp
  · obtain ⟨tftp, fetched, checked⟩ := (Except.bind_eq_ok _ _ _).mp checked
    obtain ⟨base, loaded, checked⟩ := (Except.bind_eq_ok _ _ _).mp checked
    cases checked
    refine List.forall_mem_append.mpr ⟨free, List.forall_mem_singleton.mpr (err_free _ ?_)⟩
    obtain ⟨text, base, rfl⟩ := loads _ loaded
    have filled := flash_template
      [some "ie: ".toList, none, some " $\x7b".toList, none,
        some ("\x7d \x7btftp.server_ip\x7d:id=\x7bident\x7d/\x7bcmd\x7d/vendor=goke/" ++
          "soc=gk7205v300/fw=lite; source \x7btftp.rambase\x7d").toList]
      [tftp, text] (by decide) (by simp [fetches tftp fetched, base])
    simpa [Sequences.Template.fill, expansion] using filled

/-- The complaints about the flash are fixed texts. There is a complaint whenever no flash was
found, which is what keeps the later points from a size of zero. -/
theorem check_flash_free (norSize : Int) (cenv : Env) (flash : List Text)
    (checked : checkFlash norSize cenv = .ok flash) :
    (norSize = 0 → flash ≠ []) ∧ ∀ line ∈ flash, FlashFree line := by
  unfold checkFlash at checked
  split at checked
  · cases checked
    exact ⟨by simp, List.forall_mem_singleton.mpr (err_free _ (by decide))⟩
  · rename_i present
    refine ⟨fun zero => absurd zero present, ?_⟩
    split at checked
    · cases checked
      exact List.forall_mem_singleton.mpr (err_free _ (by decide))
    · split at checked
      · cases checked
      · cases checked
        simp

/-- The backup is announced for a flash that was found, with its size. Where there are complaints
they are sent as the last reply and the handler stops, so that a point behind this one knows that
there were none. -/
theorem check_install_ensures (call : Invocation) (cenv : Env) (norSize : Int)
    (texts : FreeTexts found keys) (loads : "rambase".toList ∈ keys)
    (fetches : "cmdtftp".toList ∈ keys) {session : ClientSession Point}
    (attached : Attached found session) :
    (checkInstall call cenv norSize session).Ensures (Attached found) (fun awaited next =>
      Speaks false awaited ∧ (next = .stopped ∨
        norSize ≠ 0 ∧ ∃ locals, locals.norSize = norSize ∧ locals.fw ∈ supportedFirmware ∧
          next = .announced locals)) := by
  obtain ⟨artifacts, rfl⟩ := attached
  unfold checkInstall
  split
  · trivial
  · refine attempt_ensures _ _ fun args argued => attempt_ensures _ _ fun flash flashed => ?_
    have argsFree := check_args_free _ _ cenv
      (fun text held => texts.env "cmdtftp".toList fetches text (looked_up held))
      (fun text held => rambase_free texts loads held) args argued
    obtain ⟨detected, flashFree⟩ := check_flash_free norSize cenv flash flashed
    split
    · refine execute_ensures _ _ _ _ (by simp) ?_ fun awaited speaks => ⟨speaks, .inl rfl⟩
      exact List.forall_mem_append.mpr ⟨argsFree, flashFree⟩
    · rename_i clear
      refine attempt_ensures _ _ fun firmware named => attempt_ensures _ _ fun vendor _ =>
        attempt_ensures _ _ fun soc _ => ?_
      refine execute_ensures _ _ _ _ (by simp) ?_ fun awaited speaks =>
        ⟨speaks, .inr ⟨fun zero => clear ?_, _, rfl, checked_firmware argued named, rfl⟩⟩
      · exact List.forall_mem_singleton.mpr (bold_message_free _ (by decide))
      · simp [detected zero]

/-- The script that finds the size reads the flash only. Where the first reading has failed the
check of the arguments follows at once, with no size, and stops. -/
theorem probe_size_ensures (call : Invocation) (cenv : Env) (maxSize : Int)
    (texts : FreeTexts found keys) (loads : "rambase".toList ∈ keys)
    (fetches : "cmdtftp".toList ∈ keys) :
    (probeSize call cenv maxSize).Ensures (Attached found) (fun awaited next =>
      Speaks false awaited ∧ (next = .stopped ∨ next = .sizing call cenv)) := by
  rintro _ ⟨artifacts, rfl⟩
  refine attempt_ensures _ _ fun status reported => ?_
  split
  · refine (check_install_ensures call cenv 0 texts loads fetches ⟨artifacts, rfl⟩).mono ?_
    rintro awaited next ⟨speaks, stopped | ⟨present, -⟩⟩
    · exact ⟨speaks, .inl stopped⟩
    · exact absurd rfl present
  · refine attempt_ensures _ _ fun rambase held => ?_
    obtain ⟨text, free, rfl⟩ := rambase_free texts loads held
    refine execute_ensures _ _ _ _ (by decide) ?_ fun awaited speaks => ⟨speaks, .inr rfl⟩
    refine List.forall_mem_append.mpr ⟨gen_probe_free text free _ _ _ _, ?_⟩
    exact List.forall_mem_singleton.mpr (message_free _ (by decide))

/-- The size that the backup is announced with is the one that the client reports. A report that is
no number raises, which ends the handler without a script. -/
theorem accept_size_ensures (call : Invocation) (cenv : Env) (texts : FreeTexts found keys)
    (loads : "rambase".toList ∈ keys) (fetches : "cmdtftp".toList ∈ keys) :
    (acceptSize around call cenv).Ensures (Attached found) (fun awaited next =>
      Speaks false awaited ∧ (next = .stopped ∨ ∃ locals text,
        found.publicEnv.get "size".toList = some text ∧
          Text.parseInteger 0 text = some locals.norSize ∧ locals.fw ∈ supportedFirmware ∧
            next = .announced locals)) := by
  rintro _ ⟨artifacts, rfl⟩
  refine attempt_ensures _ _ fun size reported => ?_
  split
  · trivial
  · rename_i norSize parsed
    refine (check_install_ensures call cenv norSize texts loads fetches ⟨artifacts, rfl⟩).mono ?_
    rintro awaited next ⟨speaks, stopped | ⟨-, locals, rfl, supported, announced⟩⟩
    · exact ⟨speaks, .inl stopped⟩
    · exact ⟨speaks, .inr ⟨locals, size, looked_up reported, parsed, supported, announced⟩⟩

/-- The backup is read with commands that change no flash, and is asked for in an upload. -/
theorem download_flash_ensures (locals : Locals) (texts : FreeTexts found keys)
    (loads : "rambase".toList ∈ keys) :
    (downloadFlash around locals).Ensures (Attached found)
      (fun awaited next => Speaks true awaited ∧ next = .backingUp locals) := by
  rintro _ ⟨artifacts, rfl⟩
  refine attempt_ensures _ _ fun rambase held => ?_
  obtain ⟨text, free, rfl⟩ := rambase_free texts loads held
  refine receive_ensures _ _ _ ?_ fun awaited speaks => ⟨speaks, rfl⟩
  simp only [List.forall_mem_cons]
  exact ⟨open_message_free _ (by decide), memset_free text free _ _,
    nor_read_free text free _ _, message_free _ (by decide),
    bold_message_free _ (by decide), by simp⟩

/-- The stretch that saves the backup shows its file name, which holds the client id and the soc;
that is why both have to be free of commands. -/
theorem save_backup_ensures (locals : Locals) (body : Bytes) (ident : FlashFree locals.ident)
    (soc : FlashFree locals.soc) :
    (saveBackup around locals body).Ensures (Attached found)
      (fun awaited next => Speaks false awaited ∧ next = .saved locals) := by
  intro answer
  refine attempt_ensures _ _ fun written _ => ?_
  refine execute_ensures _ _ _ _ (by simp) ?_ fun awaited speaks => ⟨speaks, rfl⟩
  have file : FlashFree (locals.backupFile around) :=
    behind_free "backup/".toList _ (backup_filename_free around locals ident soc) (by decide)
  exact List.forall_mem_singleton.mpr
    (message_free _ (behind_free "  Saved backup as ".toList _ file (by decide)))

/-- Saving, downloading and reading the image leads to its environment. -/
def Point.Fetches (locals : Locals) (next : Point) : Prop :=
  next = .cached locals ∨ next = .downloading locals ∨ (∃ state, next = .polled locals state) ∨
    ∃ binary, next = .extracting locals binary

/-- The stretch that looks for the image either finds it or starts its download, and shows its name
in both cases. -/
theorem download_image_ensures (locals : Locals) (soc : FlashFree locals.soc)
    (fw : FlashFree locals.fw) :
    (downloadImage locals).Ensures (Attached found)
      (fun awaited next => Speaks false awaited ∧ next.Fetches locals) := by
  have name := image_name_free locals soc fw
  intro answer
  refine attempt_ensures _ _ fun cached _ => ?_
  split
  · refine execute_ensures _ _ _ _ (by simp) ?_ fun awaited speaks => ⟨speaks, .inl rfl⟩
    exact List.forall_mem_singleton.mpr
      (bold_message_free _ (behind_free "Using cached download: ".toList _ name (by decide)))
  · intro acquired
    refine attempt_ensures _ _ fun artifact _ => ?_
    refine execute_ensures _ _ _ _ (by simp) ?_ fun awaited speaks => ⟨speaks, .inr (.inl rfl)⟩
    exact List.forall_mem_singleton.mpr (open_message_free _
      (around_free "Downloading ".toList _ ": ".toList name (by decide)))

/-- The progress is a number. It goes through the printing of a status, whose colour codes are fixed
texts. -/
theorem progress_lines_free (artifact : DownloadArtifact) :
    ∀ line ∈ downloadProgressLines artifact, FlashFree line := by
  have size : FlashFree (kibibytes artifact.bytesDone ++ " kB".toList) := by
    have shape (first second : Nat) :
        FlashFree (Text.decimal first ++ '.' :: Text.decimal second ++ " kB".toList) := by
      have filled := flash_template [none, some ['.'], none, some " kB".toList]
        [Text.decimal first, Text.decimal second] (by decide) (by simp [decimal_free])
      simpa [Sequences.Template.fill] using filled
    exact shape _ _
  refine List.forall_mem_cons.mpr ⟨status_free _ size .green false, ?_⟩
  split
  · exact List.forall_mem_singleton.mpr (by decide)
  · simp

/-- A poll shows a number and nothing of the client. -/
theorem poll_download_ensures (locals : Locals) :
    (pollDownload locals).Ensures (Attached found)
      (fun awaited next => Speaks false awaited ∧ next.Fetches locals) := by
  intro answer
  refine attempt_ensures _ _ fun artifact _ => ?_
  exact execute_ensures _ _ _ _ (by simp) (progress_lines_free artifact) fun awaited speaks =>
    ⟨speaks, .inr (.inr (.inl ⟨_, rfl⟩))⟩

/-- The stretch that reads the image shows nothing of it. An image that cannot be read ends the
handler. -/
theorem read_image_ensures (locals : Locals) :
    (readImage locals).Ensures (Attached found)
      (fun awaited next => Speaks false awaited ∧ next.Fetches locals) := by
  intro answer
  refine attempt_ensures _ _ fun binary _ => ?_
  split
  · trivial
  · refine execute_ensures _ _ _ _ (by simp) ?_ fun awaited speaks =>
      ⟨speaks, .inr (.inr (.inr ⟨binary, rfl⟩))⟩
    exact List.forall_mem_singleton.mpr (open_message_free _ (by decide))

/-- What follows on a poll: the image is read, the handler raises, or the next poll is made. -/
theorem after_poll_ensures (locals : Locals) (state : ArtifactState) :
    (afterPoll locals state).Ensures (Attached found)
      (fun awaited next => Speaks false awaited ∧ next.Fetches locals) := by
  cases state with
  | done => exact read_image_ensures locals
  | failed => trivial
  | pending => exact poll_download_ensures locals

/-- The values that the user is told after the patch. They are cut to twenty characters, and a
variable that the camera does not have is not shown. -/
def Locals.shownValues (around : Surroundings) (locals : Locals) : List Text :=
  (trunc ("uboot.".toList ++ locals.ident) 20 :: trunc locals.ident 20 ::
    ((locals.cenv.get "ethaddr".toList).map
      (fun ethaddr => trunc (genMac around.randomBytes ethaddr) 20)).toList) ++
    keptKeys.filterMap (fun key => (locals.cenv.get key).map (trunc · 20))

/-- The names of the variables that the user is told about. -/
def shownKeys : List Text :=
  ["ethaddr".toList, "bootp_vci".toList, "hostname".toList, "install".toList, "backup".toList,
    "probe_nor".toList, "bootstrap".toList, "netinit".toList] ++ keptKeys

/-- A line about a variable whose shown value is free. -/
theorem variable_free (mark key value : Text) (marked : mark ∈ [['+'], ['>']])
    (named : key ∈ shownKeys) (shown : FlashFree (trunc value 20)) :
    FlashFree (variableLine mark (key, value)) := by
  have tight : ∀ mark ∈ [['+'], ['>']], ∀ key ∈ shownKeys, Sequences.Template.tight flashCommands
      [some (mark ++ "  ".toList ++ padded key ++ " = ".toList), none] = true := by
    decide +kernel
  exact message_free _ (behind_free _ _ shown (tight mark marked key named))

/-- The environment that is put into the image keeps these variables of the camera. They are written
last, over the defaults and over the arguments, so nothing else can stand for them. -/
theorem patched_env_kept (oldEnv newEnv : Env) (merged : List (Text × Text)) (key value : Text)
    (kept : key ∈ keptKeys) (held : oldEnv.get key = some value) :
    (patchedEnv oldEnv newEnv merged).get key = some value := by
  have listed : (key, value) ∈ keptKeys.filterMap
      (fun key => (oldEnv.get key).map (fun value => (key, value))) :=
    List.mem_filterMap.mpr ⟨key, kept, by simp [held]⟩
  obtain ⟨last, assigned, found⟩ := Dict.get_update_last (newEnv.update merged) _ key value listed
  obtain ⟨other, -, entry⟩ := List.mem_filterMap.mp assigned
  obtain ⟨present, present_held, same⟩ := Option.map_eq_some_iff.mp entry
  cases same
  rw [held] at present_held
  cases present_held
  exact found

/-- The lines about the new variables show what is merged into the environment and the kept
variables, each of them truncated. Nothing else that the client has sent comes into them. -/
theorem patched_lines_free (locals : Locals) (ethaddr rambase : Text) (newEnv : Env)
    (hardware : locals.cenv.get "ethaddr".toList = some ethaddr) (base : FlashFree rambase)
    (shown : ∀ text ∈ locals.shownValues around, FlashFree text) :
    ∀ line ∈ patchedLines locals.cenv
      (patchedEnv locals.cenv newEnv
        (mergedVariables locals.ident (genMac around.randomBytes ethaddr) (expansion rambase)))
      (mergedVariables locals.ident (genMac around.randomBytes ethaddr) (expansion rambase)),
      FlashFree line := by
  simp only [Locals.shownValues, hardware, Option.map_some, Option.toList_some, List.cons_append,
    List.nil_append, List.forall_mem_cons] at shown
  obtain ⟨vendorClass, hostname, mac, kept⟩ := shown
  have bootstrap : FlashFree (List.intercalate "; ".toList
      ["run netinit".toList,
        "if tftpboot ".toList ++ expansion rambase ++ ' ' :: bootstrapRequest,
        "then source ".toList ++ expansion rambase,
        "else echo \"TFTP request failed: is TFTP server running?\"".toList,
        "fi".toList]) := by
    have filled := flash_template
      [some "run netinit; if tftpboot $\x7b".toList, none,
        some ("\x7d ".toList ++ bootstrapRequest ++ "; then source $\x7b".toList), none,
        some "\x7d; else echo \"TFTP request failed: is TFTP server running?\"; fi".toList]
      [rambase, rambase] (by decide +kernel) (by simp [base])
    simpa [Sequences.Template.fill, expansion, List.intercalate] using filled
  intro line member
  rcases List.mem_append.mp member with added | carried
  · obtain ⟨entry, listed, rfl⟩ := List.mem_map.mp added
    unfold mergedVariables at listed
    simp only [List.mem_cons, List.not_mem_nil, or_false] at listed
    rcases listed with rfl | rfl | rfl | rfl | rfl | rfl | rfl | rfl
    · exact variable_free _ _ _ (by decide) (by decide) mac
    · exact variable_free _ _ _ (by decide) (by decide) vendorClass
    · exact variable_free _ _ _ (by decide) (by decide) hostname
    · exact variable_free _ _ _ (by decide) (by decide) (by decide)
    · exact variable_free _ _ _ (by decide) (by decide) (by decide)
    · exact variable_free _ _ _ (by decide) (by decide) (by decide)
    · exact variable_free _ _ _ (by decide) (by decide) (trunc_free _ 20 bootstrap)
    · exact variable_free _ _ _ (by decide) (by decide) (by decide +kernel)
  · obtain ⟨entry, listed, rfl⟩ := List.mem_map.mp carried
    obtain ⟨key, inside, found⟩ := List.mem_filterMap.mp listed
    split at found
    · cases found
    · rename_i present
      obtain ⟨old, held⟩ := Option.ne_none_iff_exists'.mp present
      rw [patched_env_kept _ _ _ key old inside held] at found
      cases found
      refine variable_free _ _ _ (by decide) (List.mem_append_right _ inside) ?_
      exact kept _ (List.mem_filterMap.mpr ⟨key, inside, by simp [held]⟩)

/-- The stretch that patches the environment goes on with the environment that the image embeds.
Nothing of the flash is changed by its script. -/
theorem patch_env_ensures (locals : Locals) (binary : Bytes) (texts : FreeTexts found keys)
    (loads : "rambase".toList ∈ keys) (shown : ∀ text ∈ locals.shownValues around, FlashFree text) :
    (patchEnv around locals binary).Ensures (Attached found) (fun awaited next =>
      Speaks false awaited ∧ ∃ extracted newEnv,
        ubootenvExtract around.codecs binary .inferred = .ok extracted ∧
          next = .patching locals binary newEnv) := by
  unfold patchEnv
  split
  · trivial
  · rename_i extracted done
    rintro _ ⟨artifacts, rfl⟩
    refine attempt_ensures _ _ fun ethaddr hardware => attempt_ensures _ _ fun rambase held => ?_
    obtain ⟨text, free, rfl⟩ := rambase_free texts loads held
    refine execute_ensures _ _ _ _ (by simp) ?_ fun awaited speaks =>
      ⟨speaks, extracted, _, done, rfl⟩
    refine List.forall_mem_append.mpr ⟨?_, ?_⟩
    · simp only [List.forall_mem_cons]
      exact ⟨message_free _ (by decide), bold_message_free _ (by decide), by simp⟩
    · exact patched_lines_free around locals ethaddr text extracted (looked_up hardware) free shown

/-- A patch keeps the length of an image that an environment was extracted from. The extraction has
found its environment inside the image, where the patch then writes it, so the image is not
extended. -/
theorem patched_length (codecs : Codecs) (image : Bytes) (extracted env : Env) (patched : Bytes)
    (done : ubootenvExtract codecs image .inferred = .ok extracted)
    (written : ubootenvPatch codecs image env .inferred none 0xFF utf8 = .ok patched) :
    patched.length = image.length := by
  obtain ⟨source, resolved, built, announced, patchable, found, building, rfl⟩ :=
    (patch_iff codecs image env .inferred none 0xFF utf8 patched).mp written
  have start := patchable.start
  have positive := patchable.usable.envSize
  have inside := extract_inside codecs image .inferred extracted done _ found start positive
  have sized := build_length codecs env none 0xFF utf8 _ built building
  simp only at inside
  exact Sequences.splice_length image built _ _ (by omega) (by omega)

/-- A script that changes the flash up to a size, and needs no upload. -/
structure Flashes (size : Int) (request : ExecutionRequest) : Prop where
  sized : request.receiveSize = none
  keys : ∀ key ∈ request.returnKeys, ' ' ∉ key
  script : FlashLines size (Text.rstrip request.script)

/-- The script that writes an image ends in no white space. Its last line is a message, which ends
in a quotation mark. -/
theorem restore_lines_kept (rambase serverIp filename : Text) (size : Nat) :
    Text.rstrip (Text.joinLines (restoreLines around rambase serverIp filename size)) =
      Text.joinLines (restoreLines around rambase serverIp filename size) := by
  have last : message "OK".toList <:+
      Text.joinLines (restoreLines around rambase serverIp filename size) := by
    have split : restoreLines around rambase serverIp filename size =
        (restoreLines around rambase serverIp filename size).dropLast ++ [message "OK".toList] := rfl
    rw [split, Text.joinLines, List.filter_append]
    exact Sequences.joined_suffix ['\n'] _ _
  have mark : ['"'] <:+ message "OK".toList := by decide
  obtain ⟨front, shape⟩ := mark.trans last
  rw [← shape]
  exact Sequences.rdrop_kept _ _ _ (by simp) (List.forall_mem_singleton.mpr (by decide))

/-- Its lines change the flash from the start on, up to the length of the image. The erasing and the
writing are given the length of the image; the other lines do not touch the flash. -/
theorem restore_lines (size : Int) (rambase serverIp filename : Text) (length : Nat)
    (free : FlashFree rambase) (address : FlashFree serverIp) (named : FlashFree filename)
    (within : (length : Int) ≤ size) :
    FlashLines size (Text.joinLines
      (restoreLines around (expansion rambase) serverIp filename length)) := by
  apply flash_lines_joined
  unfold restoreLines
  simp only [List.forall_mem_cons]
  refine ⟨flash_lines_free _ ?_, flash_lines_free _ ?_, flash_lines_free _ (by decide),
    flash_lines_free _ (by decide), nor_erase_lines length within, flash_lines_free _ (by decide),
    flash_lines_free _ (by decide), nor_write_lines rambase free _ length 1024 within,
    flash_lines_free _ (by decide), by simp⟩
  · exact open_message_free _ (around_free _ _ _ (path_name_free filename named) (by decide))
  · exact fetch_static_free rambase free _ serverIp filename address named 1024

/-- The image is written over at most the size of the flash. Patching keeps the length of an image
in which an environment has been found, which is why a bound for the image that was fetched is
enough. -/
theorem flash_image_ensures (locals : Locals) (binary : Bytes) (newEnv extracted : Env)
    (texts : FreeTexts found keys) (loads : "rambase".toList ∈ keys)
    (done : ubootenvExtract around.codecs binary .inferred = .ok extracted)
    (fits : ∀ patched, ubootenvPatch around.codecs binary newEnv .inferred none 0xFF utf8 =
      .ok patched → (binary.length : Int) ≤ locals.norSize)
    (ident : FlashFree locals.ident) (soc : FlashFree locals.soc) (fw : FlashFree locals.fw) :
    (flashImage around locals binary newEnv).Ensures (Attached found) (fun awaited next =>
      (∀ request, awaited.instruction = some request → Flashes locals.norSize request) ∧
        next = .flashed locals newEnv) := by
  unfold flashImage
  split
  · trivial
  · rename_i patchedBin written
    intro answer
    refine attempt_ensures _ _ fun stored _ => ?_
    rintro _ ⟨artifacts, rfl⟩
    refine attempt_ensures _ _ fun rambase held => ?_
    obtain ⟨text, free, rfl⟩ := rambase_free texts loads held
    refine execute_request _ _ _ _ fun awaited asks => ⟨fun request same => ?_, rfl⟩
    cases asks.symm.trans same
    have within : (patchedBin.length : Int) ≤ locals.norSize := by
      rw [patched_length around.codecs binary extracted newEnv patchedBin done written]
      exact fits patchedBin written
    refine ⟨rfl, by simp, ?_⟩
    rw [restore_lines_kept]
    exact restore_lines around locals.norSize text found.serverIp locals.patchedFile _ free
      texts.serverIp (patched_file_free locals ident soc fw) within

/-- The texts of the final messages. -/
def Locals.reportTexts (locals : Locals) (session : ClientSession Point) : List Text :=
  [locals.ident, pathText locals.root, locals.soc] ++
    ((overrideKeys locals.cenv session.publicEnv
      ["ipaddr".toList, "netmask".toList, "gatewayip".toList]).get "ipaddr".toList).toList

set_option maxRecDepth 2000 in
/-- The last report shows the client id, the root, the soc and the address. It changes no flash.
The id, the soc and the address are not escaped there, so they are asked to hold no command
themselves. -/
theorem report_ensures (locals : Locals)
    (shown : ∀ text ∈ locals.reportTexts found, FlashFree text) :
    (report around locals).Ensures (Attached found)
      (fun awaited next => Speaks false awaited ∧ next = .reported) := by
  rintro _ ⟨artifacts, rfl⟩
  refine attempt_ensures _ _ fun ipaddr held => ?_
  refine execute_ensures _ _ _ _ (by simp) ?_ fun awaited speaks => ⟨speaks, rfl⟩
  simp only [Locals.reportTexts, looked_up held, Option.toList_some, List.cons_append,
    List.nil_append, List.forall_mem_cons] at shown
  obtain ⟨ident, root, soc, address, -⟩ := shown
  have backup := backup_filename_free around locals ident soc
  simp only [List.forall_mem_cons]
  refine ⟨by decide, bold_message_free _ (behind_free _ _ ident (by decide)), by decide,
    message_free _ ?_, message_free _ (around_free _ _ _ address (by decide)),
    message_free _ (around_free _ _ _ address (by decide)), by decide, by decide, by simp⟩
  exact (behind_free _ _ root (by decide)).seam '/' (by decide) backup

/-- Whether the camera asks for a new address. -/
def Locals.Readdresses (locals : Locals) (newEnv : Env) : Prop :=
  newEnv.get "ip".toList ≠ some "static".toList ∧
    newEnv.get "ethaddr".toList ≠ locals.cenv.get "ethaddr".toList

instance (locals : Locals) (newEnv : Env) : Decidable (locals.Readdresses newEnv) :=
  inferInstanceAs (Decidable (_ ∧ _))

set_option maxRecDepth 2000 in
/-- Behind the flashing the camera asks for a new address if its hardware address has changed, and
else the report follows at once. The texts that have to be free are those of the branch that is
taken. -/
theorem readdress_ensures (locals : Locals) (newEnv : Env)
    (hardware : locals.Readdresses newEnv → ∀ text, newEnv.get "ethaddr".toList = some text →
      FlashFree text)
    (shown : ¬locals.Readdresses newEnv → ∀ text ∈ locals.reportTexts found, FlashFree text) :
    (readdress around locals newEnv).Ensures (Attached found) (fun awaited next =>
      Speaks false awaited ∧ (next = .readdressed locals ∨ next = .reported)) := by
  refine attempt_ensures _ _ fun ip first => attempt_ensures _ _ fun ethaddr second =>
    attempt_ensures _ _ fun oldEthaddr third => ?_
  have asks : locals.Readdresses newEnv ↔ ip ≠ "static".toList ∧ ethaddr ≠ oldEthaddr := by
    simp only [Locals.Readdresses, looked_up first, looked_up second, looked_up third, ne_eq,
      Option.some.injEq]
  split
  · rename_i changed
    have free := hardware (asks.mpr changed) ethaddr (looked_up second)
    refine execute_ensures _ _ _ _ (by decide) ?_ fun awaited speaks => ⟨speaks, .inl rfl⟩
    simp only [List.forall_mem_cons]
    exact ⟨message_free _ (around_free _ _ _ free (by decide)), behind_free _ _ free (by decide),
      by decide, by decide, by decide, by simp⟩
  · rename_i same
    refine (report_ensures around locals (shown fun changed => same (asks.mp changed))).mono ?_
    rintro awaited next ⟨speaks, rfl⟩
    exact ⟨speaks, .inr rfl⟩

/-- A step of the countdown shows a number; the last one sends the script that resets the camera.
Neither of them changes the flash, and the reset ends the session. -/
theorem count_down_ensures (step : Nat) :
    (countDown step).Ensures (Attached found) (fun awaited next =>
      Speaks false awaited ∧ (next = .counting (step + 1) ∨ next = .stopped)) := by
  unfold countDown
  split
  · refine execute_ensures _ _ _ _ (by simp) ?_ fun awaited speaks => ⟨speaks, .inl rfl⟩
    refine List.forall_mem_append.mpr ⟨?_, List.forall_mem_singleton.mpr ?_⟩
    · split
      · simp only [List.forall_mem_cons]
        exact ⟨by decide, by decide, by simp⟩
      · simp
    · refine status_free _ (Sequences.clear_without 's' _ ?_ (by decide)) .white false
      simp
  · refine execute_ensures _ _ _ _ (by simp) ?_ fun awaited speaks => ⟨speaks, .inr rfl⟩
    simp only [List.forall_mem_cons]
    exact ⟨by decide, by decide, by simp⟩

end Stretches

end OpenIpc

end UbootTftp
