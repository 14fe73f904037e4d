import UbootTftp.PerformedScripts
import UbootTftp.SafeFlashing

/-!
# What the installer asks a client for

Every script of the installer shows something, and few do more: they export the environment or
send it, probe for the flash or its size, read the flash out, write the image, or ask for a new
address. `Asks` says which request a stretch ends with and where it goes on, if it is not the last
one, and `Passes` what the stretches hand on that only show something.
-/

namespace UbootTftp

universe u

section Texts

/-- A text without backslashes. -/
def Unescaped (text : Text) : Prop := '\\' ∉ text

instance (text : Text) : Decidable (Unescaped text) := inferInstanceAs (Decidable ('\\' ∉ text))

variable {front back text : Text}

/-- One behind the other. -/
theorem Unescaped.append (first : Unescaped front) (second : Unescaped back) :
    Unescaped (front ++ back) := by
  intro member
  rcases List.mem_append.mp member with before | behind
  · exact first before
  · exact second behind

/-- A character in front. -/
theorem Unescaped.cons (character : Char) (other : character ≠ '\\') (rest : Unescaped text) :
    Unescaped (character :: text) := by
  intro member
  rcases List.mem_cons.mp member with same | behind
  · exact other same.symm
  · exact rest behind

/-- A number. -/
theorem unescaped_decimal (number : Nat) : Unescaped (Text.decimal number) :=
  decimal_without number '\\' (by decide)

/-- A truncated text. -/
theorem Unescaped.trunc (unescaped : Unescaped text) (maxLen : Nat) :
    Unescaped (OpenIpc.trunc text maxLen) := by
  unfold OpenIpc.trunc
  split
  · exact unescaped
  · split
    · exact fun member => absurd (List.mem_of_mem_take member) (by decide)
    · have front : Unescaped (text.take (maxLen - 3)) :=
        fun member => unescaped (List.mem_of_mem_take member)
      exact front.append (by decide)

/-- The name at the end of a path. -/
theorem Unescaped.pathName (unescaped : Unescaped text) : Unescaped (pathName text) := by
  unfold UbootTftp.pathName
  cases parts : pathParts text with
  | nil => decide
  | cons first rest =>
    have last : (first :: rest).getLastD [] ∈ pathParts text := by
      rw [parts, List.getLastD_eq_getLast?, List.getLast?_eq_some_getLast (by simp)]
      exact List.getLast_mem _
    have split := List.mem_of_mem_filter last
    have inside := Sequences.joined_infix ['/'] _ _ split
    rw [List.intercalate_splitOn] at inside
    exact fun member => unescaped (inside.subset member)

end Texts

namespace OpenIpc

/-- The image has been written, or is written by the script that the round before has sent. -/
def Point.done : Point → Bool
  | .flashed _ _ | .readdressed _ | .reported | .counting _ => true
  | _ => false

section Requests

variable (around : Surroundings) (found : ClientSession Point)

/-- Where a stretch goes on whose script only shows something. What the next point has to know is
asked for in the constructors: the report of the size, and that size and firmware are supported. -/
inductive Passes : Point → Resumption → Point → Prop
  | fetched (call : Invocation) (body : Bytes) :
      Passes (.uploading call) (.received body) (.fetched call (ubootenvParseExport body))
  | announced (call : Invocation) (cenv : Env) (resumption : Resumption) (locals : Locals)
      (text : Text) (reported : found.publicEnv.get "size".toList = some text)
      (parsed : Text.parseInteger 0 text = some locals.norSize)
      (supported : norSizeMb locals.norSize ∈ [8, 16])
      (firmware : locals.fw ∈ supportedFirmware) :
      Passes (.sizing call cenv) resumption (.announced locals)
  | saved (locals : Locals) (body : Bytes) :
      Passes (.backingUp locals) (.received body) (.saved locals)
  | fetches (point next : Point) (locals : Locals) (resumption : Resumption)
      (saving : point.saving = some locals) (early : point.done = false)
      (fetches : next.Fetches locals) : Passes point resumption next
  | patches (locals : Locals) (binary : Bytes) (resumption : Resumption) (newEnv : Env)
      (ethaddr : Text) (held : locals.cenv.get "ethaddr".toList = some ethaddr)
      (given : newEnv.get "ethaddr".toList = some (genMac around.randomBytes ethaddr)) :
      Passes (.extracting locals binary) resumption (.patching locals binary newEnv)
  | reports (point : Point) (resumption : Resumption) (done : point.done = true) :
      Passes point resumption .reported
  | counts (point : Point) (resumption : Resumption) (step : Nat) (done : point.done = true) :
      Passes point resumption (.counting step)

/-- A request that is made of lines. -/
def spoken (lines keys : List Text) : ExecutionRequest :=
  ⟨Text.joinLines lines, false, none, keys, none⟩

/-- A request for an upload that is made of lines. -/
def received (lines : List Text) (size : Int) : ExecutionRequest :=
  ⟨Text.joinLines lines, false, some size, [], none⟩

/-- The lines of the probe for a flash. -/
def probeLines : List Text :=
  [openMessage "Probing NOR flash... ".toList, "sf probe 0".toList, "setenv status $?".toList]

/-- The lines that ask for a new address. -/
def readdressLines (ethaddr : Text) : List Text :=
  [message ("Getting new IP with ethaddr=".toList ++ ethaddr ++ "...".toList),
    "setenv ethaddr ".toList ++ ethaddr, "setenv autoload no".toList, "dhcp".toList,
    message ("Success: ip=".toList ++ expansion "ipaddr".toList ++ " mask=".toList ++
      expansion "netmask".toList ++ " gateway=".toList ++ expansion "gatewayip".toList)]

/-- What a stretch asks for, and where it goes on.

The relation is a summary of the coroutine for its client: one constructor for the stretches that
only show something and one for each of the others. That the code keeps to it is shown below. -/
inductive Asks (rambase : Text) : Point → Resumption → ExecutionRequest → Point → Prop
  | shows (point next : Point) (resumption : Resumption) (lines : List Text)
      (each : ∀ line ∈ lines, Echoed line) (passes : Passes around found point resumption next) :
      Asks rambase point resumption (spoken lines []) next
  | exports (call : Invocation) (resumption : Resumption) :
      Asks rambase (.started call) resumption
        (spoken ["env export -t ".toList ++ expansion rambase] ["filesize".toList]) (.exported call)
  | uploads (call : Invocation) (resumption : Resumption) (text : Text) (size : Int)
      (reported : found.publicEnv.get "filesize".toList = some text)
      (parsed : Text.parseInteger 16 (Text.strip text) = some size) :
      Asks rambase (.exported call) resumption
        (received [openMessage "Fetching current uboot environment... ".toList] size)
        (.uploading call)
  | probes (call : Invocation) (cenv : Env) (resumption : Resumption) (maxSize : Int)
      (bounded : parseMaxSize (found.publicEnv.get "nor_size".toList) = some maxSize) :
      Asks rambase (.fetched call cenv) resumption (spoken probeLines ["status".toList])
        (.probing call (currentEnv cenv found.publicEnv) maxSize)
  | sizes (call : Invocation) (cenv : Env) (maxSize : Int) (resumption : Resumption) :
      Asks rambase (.probing call cenv maxSize) resumption
        (spoken (ubootNorGenProbe (expansion rambase) (2 ^ 20) maxSize 0 0 none (by decide) ++
          [message (expansion "size".toList)]) ["size".toList]) (.sizing call cenv)
  | downloads (locals : Locals) (resumption : Resumption) :
      Asks rambase (.announced locals) resumption
        (received
          [openMessage "Copying NOR to RAM... ".toList,
            ubootMemset (expansion rambase) (around.counter 0) (.int 0) (.int 0xFF)
              (.int locals.norSize) none,
            ubootNorRead (expansion rambase) (around.counter 1) (.int 0) (.int 0)
              (.int locals.norSize) none,
            message "OK".toList, boldMessage "Downloading backup via TFTP...".toList]
          locals.norSize) (.backingUp locals)
  | flashes (locals : Locals) (binary : Bytes) (newEnv : Env) (resumption : Resumption)
      (patched : Bytes)
      (written : ubootenvPatch around.codecs binary newEnv .inferred none 0xFF utf8 = .ok patched) :
      Asks rambase (.patching locals binary newEnv) resumption
        (spoken (restoreLines around (expansion rambase) found.serverIp locals.patchedFile
          patched.length) []) (.flashed locals newEnv)
  | readdresses (locals : Locals) (newEnv : Env) (resumption : Resumption) (ethaddr : Text)
      (held : newEnv.get "ethaddr".toList = some ethaddr)
      (changed : locals.Readdresses newEnv) :
      Asks rambase (.flashed locals newEnv) resumption
        (spoken (readdressLines ethaddr)
          ["ipaddr".toList, "netmask".toList, "gatewayip".toList]) (.readdressed locals)

/-- What is awaited is asked for, unless it ends the handler. A script that is the last one is
followed by nothing, so no client has to answer it. -/
def Asked (rambase : Text) (point : Point) (resumption : Resumption) (awaited : Awaited)
    (next : Point) : Prop :=
  ∀ request, awaited.instruction = some request → request.final = false →
    Asks around found rambase point resumption request next

end Requests

section Shown

variable {around : Surroundings} {locals : Locals}

/-- The messages of the installer. -/
theorem message_echoed {msg : Text} (unescaped : Unescaped msg) : Echoed (message msg) :=
  .message msg .green false true unescaped

/-- Bold messages are printed like the others. -/
theorem bold_echoed {msg : Text} (unescaped : Unescaped msg) : Echoed (boldMessage msg) :=
  .message msg .green true true unescaped

/-- So are those that leave the cursor on their line. -/
theorem open_echoed {msg : Text} (unescaped : Unescaped msg) : Echoed (openMessage msg) :=
  .message msg .green true false unescaped

/-- The name of a firmware that can be installed. -/
theorem firmware_unescaped {fw : Text} (supported : fw ∈ supportedFirmware) : Unescaped fw := by
  have each : ∀ name ∈ supportedFirmware, Unescaped name := by decide
  exact each fw supported

/-- The file names are made of what the user has named and of the checked firmware. -/
theorem image_name_unescaped (soc : Unescaped locals.soc)
    (supported : locals.fw ∈ supportedFirmware) : Unescaped locals.imageName := by
  have fw := firmware_unescaped supported
  have front : Unescaped ("install/openipc-".toList ++ locals.soc) := .append (by decide) soc
  have size := unescaped_decimal (norSizeMb locals.norSize).toNat
  exact ((front.append (.cons '-' (by decide) fw)).append (.cons '-' (by decide) size)).append
    (by decide)

/-- The name of the backup holds no backslash, as neither of its two free parts does. -/
theorem backup_file_unescaped (ident : Unescaped locals.ident) (soc : Unescaped locals.soc) :
    Unescaped (locals.backupFilename around) := by
  have stamp : Unescaped around.stamp := by
    intro member
    rcases around.stamp_plain '\\' member with digit | dash
    · exact absurd digit (by decide)
    · exact absurd dash (by decide)
  have front : Unescaped ("install-backup-".toList ++ locals.ident) := .append (by decide) ident
  have size := unescaped_decimal (norSizeMb locals.norSize).toNat
  exact ((((front.append (.cons '-' (by decide) soc)).append (.cons '-' (by decide) size)).append
    (by decide)).append stamp).append (by decide)

/-- The name of the patched image holds none either. -/
theorem patched_file_unescaped (ident : Unescaped locals.ident) (soc : Unescaped locals.soc)
    (supported : locals.fw ∈ supportedFirmware) : Unescaped locals.patchedFile := by
  have front : Unescaped ("patched/".toList ++ locals.ident) := .append (by decide) ident
  exact front.append (.cons '-' (by decide) (image_name_unescaped soc supported).pathName)

/-- The progress of a download is a number. -/
theorem progress_echoed (artifact : DownloadArtifact) :
    ∀ line ∈ downloadProgressLines artifact, Echoed line := by
  have number (first second : Nat) :
      Unescaped (Text.decimal first ++ '.' :: Text.decimal second ++ " kB".toList) :=
    ((unescaped_decimal first).append (.cons '.' (by decide) (unescaped_decimal second))).append
      (by decide)
  refine List.forall_mem_cons.mpr ⟨.status _ .green false (number _ _), ?_⟩
  split
  · exact List.forall_mem_singleton.mpr .complete
  · simp

/-- A line about a variable. -/
theorem variable_echoed (mark key value : Text) (marked : mark ∈ [['+'], ['>']])
    (named : key ∈ shownKeys) (shown : Unescaped (trunc value 20)) :
    Echoed (variableLine mark (key, value)) := by
  have fronts : ∀ mark ∈ [['+'], ['>']], ∀ key ∈ shownKeys,
      Unescaped (mark ++ "  ".toList ++ padded key ++ " = ".toList) := by
    decide +kernel
  exact message_echoed ((fronts mark marked key named).append shown)

/-- The lines about what was patched. There is a line for each variable that was merged, with the
value from the camera or from the server. -/
theorem patched_lines_echoed (ethaddr rambase : Text) (newEnv : Env)
    (hardware : locals.cenv.get "ethaddr".toList = some ethaddr) (base : Unescaped rambase)
    (shown : ∀ text ∈ locals.shownValues around, Unescaped text) :
    ∀ line ∈ patchedLines locals.cenv
      (patchedEnv locals.cenv newEnv
        (mergedVariables locals.ident (genMac around.randomBytes ethaddr) (expansion rambase)))
      (mergedVariables locals.ident (genMac around.randomBytes ethaddr) (expansion rambase)),
      Echoed line := by
  simp only [Locals.shownValues, hardware, Option.map_some, Option.toList_some, List.cons_append,
    List.nil_append, List.forall_mem_cons] at shown
  obtain ⟨vendorClass, hostname, mac, kept⟩ := shown
  have loads : Unescaped (expansion rambase) :=
    .append (.cons '$' (by decide) (.cons '\x7b' (by decide) base)) (by decide)
  have bootstrap : Unescaped (List.intercalate "; ".toList
      ["run netinit".toList,
        "if tftpboot ".toList ++ expansion rambase ++ ' ' :: bootstrapRequest,
        "then source ".toList ++ expansion rambase,
        "else echo \"TFTP request failed: is TFTP server running?\"".toList,
        "fi".toList]) := by
    have asks : Unescaped ("if tftpboot ".toList ++ expansion rambase ++ ' ' :: bootstrapRequest) :=
      (Unescaped.append (by decide) loads).append (.cons ' ' (by decide) (by decide))
    have runs : Unescaped ("then source ".toList ++ expansion rambase) := .append (by decide) loads
    simp only [List.intercalate_cons_cons, List.intercalate_singleton]
    exact (Unescaped.append (by decide) (by decide)).append (((asks.append (by decide)).append
      ((runs.append (by decide)).append ((Unescaped.append (by decide) (by decide)).append
        (by decide)))))
  intro line member
  rcases List.mem_append.mp member with added | carried
  · obtain ⟨entry, listed, rfl⟩ := List.mem_map.mp added
    unfold mergedVariables at listed
    simp only [List.mem_cons, List.not_mem_nil, or_false] at listed
    rcases listed with rfl | rfl | rfl | rfl | rfl | rfl | rfl | rfl
    · exact variable_echoed _ _ _ (by decide) (by decide) mac
    · exact variable_echoed _ _ _ (by decide) (by decide) vendorClass
    · exact variable_echoed _ _ _ (by decide) (by decide) hostname
    · exact variable_echoed _ _ _ (by decide) (by decide) (by decide)
    · exact variable_echoed _ _ _ (by decide) (by decide) (by decide)
    · exact variable_echoed _ _ _ (by decide) (by decide) (by decide)
    · exact variable_echoed _ _ _ (by decide) (by decide) (bootstrap.trunc 20)
    · exact variable_echoed _ _ _ (by decide) (by decide) (by decide +kernel)
  · obtain ⟨entry, listed, rfl⟩ := List.mem_map.mp carried
    obtain ⟨key, inside, found⟩ := List.mem_filterMap.mp listed
    split at found
    · cases found
    · rename_i present
      obtain ⟨old, held⟩ := Option.ne_none_iff_exists'.mp present
      rw [patched_env_kept _ _ _ key old inside held] at found
      cases found
      refine variable_echoed _ _ _ (by decide) (List.mem_append_right _ inside) ?_
      exact kept _ (List.mem_filterMap.mpr ⟨key, inside, by simp [held]⟩)

/-- The hardware address that is put into the image. It is the last of the updates that concern it:
the keys that are kept from the camera do not name it, and the server's variables do. -/
theorem patched_ethaddr (oldEnv newEnv : Env) (ident ethaddr rambase : Text) :
    (patchedEnv oldEnv newEnv (mergedVariables ident ethaddr rambase)).get "ethaddr".toList =
      some ethaddr := by
  have unkept : (Dict.ofList (keptKeys.filterMap
      (fun key => (oldEnv.get key).map (fun value => (key, value))))).get "ethaddr".toList = none := by
    by_contra present
    obtain ⟨entry, listed, named⟩ := List.mem_map.mp ((Dict.get_ofList_ne_none _ _).mp present)
    obtain ⟨key, kept, given⟩ := List.mem_filterMap.mp listed
    obtain ⟨value, -, rfl⟩ := Option.map_eq_some_iff.mp given
    obtain rfl : key = "ethaddr".toList := named
    exact absurd kept (by decide)
  have merged : ("ethaddr".toList, ethaddr) ∈ mergedVariables ident ethaddr rambase := by
    simp [mergedVariables]
  obtain ⟨last, assigned, found⟩ := Dict.get_update_last newEnv _ _ _ merged
  have same : last = ethaddr := by
    simpa [mergedVariables] using assigned
  rw [patchedEnv, overrideKeys, Dict.get_update, unkept, found, same]
  rfl

end Shown

section Stretches

-- The bound of the quotient is a number that no proof here looks at.
attribute [local irreducible] quotientOverflows

variable {around : Surroundings} {found : ClientSession Point} {rambase : Text} {point : Point}
  {resumption : Resumption} {pre : ClientSession Point → Prop}

/-- Awaiting a script that goes on. -/
theorem execute_asked (lines keys : List Text) (next : Point)
    (asks : Asks around found rambase point resumption (spoken lines keys) next) :
    (Code.execute lines false keys next).Ensures pre (Asked around found rambase point resumption) := by
  apply execute_request
  intro awaited instructs request same _
  cases instructs.symm.trans same
  exact asks

/-- Awaiting the last script. -/
theorem final_asked (lines keys : List Text) (next : Point) :
    (Code.execute lines true keys next).Ensures pre (Asked around found rambase point resumption) := by
  apply execute_request
  intro awaited instructs request same more
  cases instructs.symm.trans same
  cases more

/-- Awaiting an upload. -/
theorem receive_asked (lines : List Text) (size : Int) (next : Point)
    (asks : Asks around found rambase point resumption (received lines size) next) :
    (Code.receive lines size next).Ensures pre (Asked around found rambase point resumption) := by
  unfold Code.receive
  split
  · rename_i request made
    rintro _ ⟨⟩ _
    simp only [execRecv, Bool.false_eq_true, if_false] at made
    obtain ⟨returnKeys, checked, same⟩ := (Except.bind_eq_ok _ _ _).mp made
    rw [normalize_keys_ok checked] at same
    cases same
    exact asks
  · trivial

/-- Awaiting a script that only shows something. -/
theorem shows_asked (lines : List Text) (next : Point) (each : ∀ line ∈ lines, Echoed line)
    (passes : Passes around found point resumption next) :
    (Code.execute lines false [] next).Ensures pre (Asked around found rambase point resumption) :=
  execute_asked lines [] next (.shows point next resumption lines each passes)

/-- The load address of a session that is the found one but for its downloads. -/
theorem loaded_base (loads : found.env.get "rambase".toList = some rambase)
    {session : ClientSession Point} (attached : Attached found session) {text : Text}
    (held : rambaseOf session = .ok text) : text = expansion rambase := by
  obtain ⟨artifacts, rfl⟩ := attached
  obtain ⟨other, value, rfl⟩ := rambase_ok held
  cases loads.symm.trans value
  rfl

/-- From the size of the flash to the announcement of the backup. A size of zero makes a complaint,
so that nothing need be known of where such a size has come from. -/
theorem check_install_asked (call : Invocation) (cenv : Env) (norSize : Int)
    (session : ClientSession Point)
    (sized : norSize ≠ 0 → ∃ text, point = .sizing call cenv ∧
      found.publicEnv.get "size".toList = some text ∧ Text.parseInteger 0 text = some norSize) :
    (checkInstall call cenv norSize session).Ensures pre
      (Asked around found rambase point resumption) := by
  unfold checkInstall
  split
  · trivial
  · refine attempt_ensures _ _ fun args argued => attempt_ensures _ _ fun flash flashed => ?_
    split
    · exact final_asked _ _ _
    · rename_i clear
      obtain ⟨-, nothing⟩ := List.append_eq_nil_iff.mp (not_not.mp clear)
      have checked : norSize ≠ 0 ∧ norSizeMb norSize ∈ [8, 16] := by
        unfold checkFlash at flashed
        split at flashed
        · cases flashed
          cases nothing
        · rename_i present
          split at flashed
          · cases flashed
            cases nothing
          · rename_i supported
            exact ⟨present, not_not.mp supported⟩
      obtain ⟨text, rfl, reported, parsed⟩ := sized checked.1
      refine attempt_ensures _ _ fun fw named => attempt_ensures _ _ fun vendor _ =>
        attempt_ensures _ _ fun soc _ => shows_asked _ _ ?_ ?_
      · exact List.forall_mem_singleton.mpr (bold_echoed (by decide))
      · exact .announced call cenv resumption _ text reported parsed checked.2
          (checked_firmware argued named)

/-- A stretch that reads the image. -/
theorem read_image_asked (locals : Locals) (saving : point.saving = some locals)
    (early : point.done = false) :
    (readImage locals).Ensures pre (Asked around found rambase point resumption) := by
  intro answer
  refine attempt_ensures _ _ fun binary _ => ?_
  split
  · trivial
  · exact shows_asked _ _ (List.forall_mem_singleton.mpr (open_echoed (by decide)))
      (.fetches _ _ locals _ saving early (.inr (.inr (.inr ⟨binary, rfl⟩))))

/-- A stretch that asks about the download. -/
theorem poll_download_asked (locals : Locals) (saving : point.saving = some locals)
    (early : point.done = false) :
    (pollDownload locals).Ensures pre (Asked around found rambase point resumption) := by
  intro answer
  refine attempt_ensures _ _ fun artifact _ => ?_
  exact shows_asked _ _ (progress_echoed artifact)
    (.fetches _ _ locals _ saving early (.inr (.inr (.inl ⟨_, rfl⟩))))

/-- The final messages. They show texts of the session and of the camera, which are asked to hold no
backslash. -/
theorem report_asked (locals : Locals) (done : point.done = true)
    (shown : ∀ text ∈ locals.reportTexts found, Unescaped text) :
    (report around locals).Ensures (Attached found)
      (Asked around found rambase point resumption) := by
  rintro _ ⟨artifacts, rfl⟩
  refine attempt_ensures _ _ fun ipaddr held => ?_
  refine shows_asked _ _ ?_ (.reports _ _ done)
  simp only [Locals.reportTexts, looked_up held, Option.toList_some, List.cons_append,
    List.nil_append, List.forall_mem_cons] at shown
  obtain ⟨ident, root, soc, address, -⟩ := shown
  have backup : Unescaped (locals.backupFilename around) := backup_file_unescaped ident soc
  simp only [List.forall_mem_cons]
  refine ⟨message_echoed (by decide), bold_echoed (.append (by decide) ident),
    message_echoed (by decide), message_echoed ?_,
    message_echoed ((Unescaped.append (by decide) address).append (by decide)),
    message_echoed ((Unescaped.append (by decide) address).append (by decide)),
    message_echoed (by decide), message_echoed (by decide), by simp⟩
  exact (Unescaped.append (by decide) root).append (.cons '/' (by decide) backup)

/-- The steps of the delay show their progress. -/
theorem count_down_asked (step : Nat) (done : point.done = true) :
    (countDown step).Ensures pre (Asked around found rambase point resumption) := by
  unfold countDown
  split
  · refine shows_asked _ _ ?_ (.counts _ _ _ done)
    refine List.forall_mem_append.mpr ⟨?_, List.forall_mem_singleton.mpr ?_⟩
    · split
      · simp only [List.forall_mem_cons]
        exact ⟨.message _ .white false true (by decide), .message _ .white false true (by decide),
          by simp⟩
      · simp
    · refine .status _ .white false ?_
      simp
  · exact final_asked _ _ _

/-- The environment is patched. Where the image holds no environment the handler raises, and nothing
is asked for. -/
theorem patch_env_asked (loads : found.env.get "rambase".toList = some rambase)
    (base : Unescaped rambase) (locals : Locals) (binary : Bytes)
    (shown : ∀ text ∈ locals.shownValues around, Unescaped text) :
    (patchEnv around locals binary).Ensures (Attached found)
      (Asked around found rambase (.extracting locals binary) resumption) := by
  unfold patchEnv
  split
  · trivial
  · intro session attached
    refine attempt_ensures _ _ fun ethaddr hardware => attempt_ensures _ _ fun text held => ?_
    rw [loaded_base loads attached held]
    refine shows_asked _ _ ?_ (.patches locals binary _ _ ethaddr (looked_up hardware)
      (patched_ethaddr _ _ _ _ _))
    refine List.forall_mem_append.mpr ⟨?_, ?_⟩
    · simp only [List.forall_mem_cons]
      exact ⟨message_echoed (by decide), bold_echoed (by decide), by simp⟩
    · exact patched_lines_echoed ethaddr rambase _ (looked_up hardware) base shown

/-- The image is written. A patch that fails or an image that cannot be stored ends the handler, and
then nothing is asked for. -/
theorem flash_image_asked (loads : found.env.get "rambase".toList = some rambase)
    (locals : Locals) (binary : Bytes) (newEnv : Env) :
    (flashImage around locals binary newEnv).Ensures (Attached found)
      (Asked around found rambase (.patching locals binary newEnv) resumption) := by
  unfold flashImage
  split
  · trivial
  · rename_i patched written
    intro answer
    refine attempt_ensures _ _ fun stored _ => ?_
    rintro session ⟨artifacts, rfl⟩
    refine attempt_ensures _ _ fun text held => ?_
    rw [loaded_base loads ⟨artifacts, rfl⟩ held]
    exact execute_asked _ _ _ (.flashes locals binary newEnv resumption patched written)

/-- A new address is asked for, unless it is fixed or has not changed. In the other case the final
messages follow at once, and these have texts of their own to show. -/
theorem readdress_asked (locals : Locals) (newEnv : Env)
    (shown : ∀ text ∈ (Point.flashed locals newEnv).shown around found, Unescaped text) :
    (readdress around locals newEnv).Ensures (Attached found)
      (Asked around found rambase (.flashed locals newEnv) resumption) := by
  refine attempt_ensures _ _ fun ip first => attempt_ensures _ _ fun ethaddr second =>
    attempt_ensures _ _ fun oldEthaddr third => ?_
  have asks : locals.Readdresses newEnv ↔ ip ≠ "static".toList ∧ ethaddr ≠ oldEthaddr := by
    simp only [Locals.Readdresses, looked_up first, looked_up second, looked_up third, ne_eq,
      Option.some.injEq]
  split
  · rename_i changed
    exact execute_asked _ _ _ (.readdresses locals newEnv resumption ethaddr (looked_up second)
      (asks.mpr changed))
  · rename_i same
    refine report_asked locals rfl ?_
    simpa only [Point.shown, if_neg fun changed => same (asks.mp changed)] using shown

/-- What every stretch asks for, if it shows no backslash. The firmware is one that can be
installed wherever it has been checked. -/
theorem resume_asks (loads : found.env.get "rambase".toList = some rambase)
    (base : Unescaped rambase) (shown : ∀ text ∈ point.shown around found, Unescaped text)
    (firmware : ∀ locals, point.probed = some locals → locals.fw ∈ supportedFirmware) :
    (resume around point resumption).Ensures (Attached found)
      (Asked around found rambase point resumption) := by
  cases point with
  | started call =>
    intro session attached
    refine attempt_ensures _ _ fun text held => ?_
    rw [loaded_base loads attached held]
    exact execute_asked _ _ _ (.exports call resumption)
  | exported call =>
    rintro _ ⟨artifacts, rfl⟩
    simp only
    split
    · trivial
    · rename_i reported
      split
      · trivial
      · rename_i size parsed
        exact receive_asked _ _ _ (.uploads call resumption _ size reported parsed)
  | uploading call =>
    cases resumption with
    | received body =>
      exact shows_asked _ _ (List.forall_mem_singleton.mpr (message_echoed (by decide)))
        (.fetched call body)
    | started | execReturned | receiveFailed | sent value => trivial
  | fetched call cenv =>
    rintro _ ⟨artifacts, rfl⟩
    simp only
    split
    · trivial
    · rename_i maxSize bounded
      exact execute_asked _ _ _ (.probes call cenv resumption maxSize bounded)
  | probing call cenv maxSize =>
    intro session attached
    refine attempt_ensures _ _ fun status reported => ?_
    split
    · exact check_install_asked call cenv 0 _ fun present => absurd rfl present
    · refine attempt_ensures _ _ fun text held => ?_
      rw [loaded_base loads attached held]
      exact execute_asked _ _ _ (.sizes call cenv maxSize resumption)
  | sizing call cenv =>
    rintro _ ⟨artifacts, rfl⟩
    refine attempt_ensures _ _ fun size reported => ?_
    split
    · trivial
    · rename_i norSize parsed
      exact check_install_asked call cenv norSize _
        fun _ => ⟨size, rfl, looked_up reported, parsed⟩
  | announced locals =>
    intro session attached
    refine attempt_ensures _ _ fun text held => ?_
    rw [loaded_base loads attached held]
    exact receive_asked _ _ _ (.downloads locals resumption)
  | backingUp locals =>
    cases resumption with
    | received body =>
      simp only [Point.shown, List.forall_mem_cons] at shown
      have file : Unescaped (locals.backupFile around) :=
        .append (by decide) (backup_file_unescaped shown.1 shown.2.1)
      intro answer
      exact attempt_ensures _ _ fun written _ => shows_asked _ _
        (List.forall_mem_singleton.mpr (message_echoed (.append (by decide) file)))
        (.saved locals body)
    | started | execReturned | receiveFailed | sent value => trivial
  | saved locals =>
    simp only [Point.shown, List.forall_mem_cons] at shown
    have name := image_name_unescaped shown.1 (firmware locals rfl)
    intro answer
    refine attempt_ensures _ _ fun cached _ => ?_
    split
    · exact shows_asked _ _ (List.forall_mem_singleton.mpr (bold_echoed (.append (by decide) name)))
        (.fetches _ _ locals _ rfl rfl (.inl rfl))
    · intro acquired
      exact attempt_ensures _ _ fun artifact _ => shows_asked _ _
        (List.forall_mem_singleton.mpr
          (open_echoed ((Unescaped.append (by decide) name).append (by decide))))
        (.fetches _ _ locals _ rfl rfl (.inr (.inl rfl)))
  | cached locals => exact read_image_asked locals rfl rfl
  | downloading locals => exact poll_download_asked locals rfl rfl
  | polled locals state =>
    cases state with
    | done => exact read_image_asked locals rfl rfl
    | failed => trivial
    | pending => exact poll_download_asked locals rfl rfl
  | extracting locals binary => exact patch_env_asked loads base locals binary shown
  | patching locals binary newEnv => exact flash_image_asked loads locals binary newEnv
  | flashed locals newEnv => exact readdress_asked locals newEnv shown
  | readdressed locals => exact report_asked locals rfl shown
  | reported => exact count_down_asked 0 rfl
  | counting step => exact count_down_asked step rfl
  | stopped => trivial

end Stretches

end OpenIpc

end UbootTftp
