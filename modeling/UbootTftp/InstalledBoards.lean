import UbootTftp.BoardInstalls
import UbootTftp.DownloadUrl

/-!
# Installed boards

What a conversation of the installer with a board comes to, whatever the turn it has reached: the
flash is kept until its backup has been written, and then holds the image. What the installer takes
for the environment of the board is not what the board has exported.
-/

namespace UbootTftp

open OpenIpc
open Overlays (covered)
open TestClient (FlowClient Reports Returns Turn Calls Begins PlainSession)

section Conversations

variable (provider : Provider Point) (around : Surroundings) (hardware : Hardware) (base : Nat)
  (image : Text → Bytes) (isWord : Char → Bool) (peer : Text × Nat) (rounds : Nat)

/-- A call on a turn that is fit for the board. -/
def CallsSuitably (before after : Turn Point Board) : Prop :=
  Suits around hardware before ∧
    Calls provider (boardClient hardware base image isWord peer rounds) before after

/-- In every conversation of the installer with a board the flash is as it was until the script that
writes the image is sent. By then the size that the probe found for the capacity of the flash has
been reported, and the bytes of the flash up to that size are in the file of the backup; behind that
script the flash holds the image at its beginning and is as it was behind the image.

Nothing is assumed of the other events at the server. Proof: what is known of a turn holds along the
conversation, and what is said here is part of it. -/
theorem install_keeps_flash (opening : ContentRequest) (parsed : ParsedPath) (client : ClientId)
    (first : Board) (cmdtftp cmdtftpput rambase : Text) (beginning turn : Turn Point Board)
    (bench : Bench provider hardware base opening parsed client first cmdtftp cmdtftpput rambase)
    (installs : provider.resume = resume around)
    (entered : provider.module (routeFor provider.config client).entryFunc = install)
    (begins : Begins provider (boardClient hardware base image isWord peer rounds) client opening
      parsed first beginning)
    (run : Relation.ReflTransGen
      (CallsSuitably provider around hardware base image isWord peer rounds) beginning turn) :
    (turn.state.done = false → turn.device.flash = first.flash) ∧
    (turn.state.done = true → Flashed provider around
      (boardClient hardware base image isWord peer rounds) first beginning turn) ∧
    ∀ locals, turn.state.saving = some locals → Sized hardware beginning locals.norSize ∧
      Saved provider around (boardClient hardware base image isWord peer rounds) first beginning turn
        locals := by
  have onBoard := OnBoard.along bench installs entered begins run
  refine ⟨onBoard.flash, onBoard.done, fun locals saving => ⟨?_, onBoard.saving locals saving⟩⟩
  exact (onBoard.probed locals (saving_probed saving)).1

/-- What the installer takes for the environment of a board is read from the export with the image
of a later script on its beginning: the script that sends the export has been loaded to the address
that the export was written to. Of an export that is no longer than that image nothing is left.

Proof: the bytes that are fetched are part of what is known of the turn. -/
theorem fetched_environment (opening : ContentRequest) (parsed : ParsedPath) (client : ClientId)
    (first : Board) (cmdtftp cmdtftpput rambase : Text) (beginning turn : Turn Point Board)
    (bench : Bench provider hardware base opening parsed client first cmdtftp cmdtftpput rambase)
    (installs : provider.resume = resume around)
    (entered : provider.module (routeFor provider.config client).entryFunc = install)
    (begins : Begins provider (boardClient hardware base image isWord peer rounds) client opening
      parsed first beginning)
    (run : Relation.ReflTransGen
      (CallsSuitably provider around hardware base image isWord peer rounds) beginning turn)
    (call : Invocation) (cenv : Env) (fetched : turn.state = .fetched call cenv) :
    ∃ exporting sending exported,
      Made cmdtftp cmdtftpput rambase (exportRequest rambase) exporting ∧
      exported = (beginning.device.load base (image exporting)).exported ∧
      Made cmdtftp cmdtftpput rambase (sendRequest exported.length) sending ∧
      cenv = ubootenvParseExport (covered exported (image sending)) ∧
      (exported.length ≤ (image sending).length →
        cenv = ubootenvParseExport ((image sending).take exported.length)) := by
  obtain ⟨body, ⟨exporting, sending, exported, exports, same, sends, rfl⟩, parses⟩ :
      ∃ body, Fetched base image beginning cmdtftp cmdtftpput rambase body ∧
        cenv = ubootenvParseExport body := by
    have knows := (OnBoard.along bench installs entered begins run).knows
    rwa [Knows, fetched] at knows
  refine ⟨exporting, sending, exported, exports, same, sends, parses, fun covers => ?_⟩
  have nothing : exported.drop (image sending).length = [] := List.drop_eq_nil_of_le covers
  rw [parses, covered, nothing, List.append_nil]

end Conversations

section Samples

/-- A session that has the values which a client reports for keys. Both environments get them, as a
continuation merges them into both. -/
def reporting (session : ClientSession Point) (keys : List Text) (report : Text → Text) :
    ClientSession Point :=
  { session with
    env := keys.foldl (fun env key => env.set key (report key)) session.env
    publicEnv := keys.foldl (fun env key => env.set key (report key)) session.publicEnv }

/-- The values that are stored for keys. By induction on the keys: a later entry for the same key
stores the same report. -/
theorem stored_reports (report : Text → Text) (keys : List Text) (env : Dict Text Text)
    (tested : Text) :
    (keys.foldl (fun env key => env.set key (report key)) env).get tested =
      if tested ∈ keys then some (report tested) else env.get tested := by
  induction keys generalizing env with
  | nil => rfl
  | cons key keys inductionHypothesis =>
    rw [List.foldl_cons, inductionHypothesis]
    by_cases later : tested ∈ keys
    · rw [if_pos later, if_pos (List.mem_cons_of_mem key later)]
    · rw [if_neg later]
      by_cases same : tested = key
      · rw [same, if_pos List.mem_cons_self, Dict.get_set_self]
      · rw [if_neg (by simp [same, later]), Dict.get_set_other _ _ _ _ same]

/-- The turn behind a call, in which the client has reported. -/
def following (left : HandleState Point) (keys : List Text) (next : Point) (resumption : Resumption)
    (device : Board) : Turn Point Board :=
  ⟨next, ⟨0, [], { left with session := reporting left.session keys device.report }, resumption⟩,
    device⟩

/-- The request that opens the sample session. -/
def sampleParsed : ParsedPath := ⟨"id=cam".toList, some sampleClient, ['/'], [], Dict.empty⟩

/-- A board that loads the images of scripts to the sample address. -/
def sampleFlow (hardware : Hardware) (image : Text → Bytes) : FlowClient Board :=
  boardClient hardware 0x42000000 image TestClient.isCommandChar ("10.0.0.2".toList, 1069) 5

/-- The sample server can install on the sample board. Its flash has 16 bytes, less than the
smallest size that the installer takes. -/
theorem sample_bench : Bench sampleInstaller sampleHardware 0x42000000 (sampleRequest "id=cam")
    sampleParsed sampleClient sampleBoard "tftpboot".toList "tftpput".toList "loadaddr".toList where
  urlSafe := sample_url_safe
  named := fun draw character member => (List.eq_of_mem_replicate member) ▸ (by decide)
  plain := fun draw =>
    { urlSafe := fun character member => (List.eq_of_mem_replicate member) ▸ (by decide)
      served := (by decide : "10.0.0.1".toList ≠ [])
      dotted := by
        have digits : "10.0.0.1".toList.all
          (fun character => character.isDigit || character == '.') = true := by decide
        intro character member
        simpa using List.all_eq_true.mp digits character member
      fetches := rfl
      fetching := by decide
      sends := rfl
      sending := by decide
      loads := rfl
      addressed := by decide
      braceless := by decide }
  loose := by decide
  apart := by decide
  fetches := by decide
  sends := by decide
  ready := sample_ready
  bounded := by decide
  present := by decide

/-- Its session has what the client has reported. -/
theorem following_reports (flow : FlowClient Board) (device : Board) (keys : List Text)
    (session : ClientSession Point) (reported : flow.reported = Board.report) :
    TestClient.Reports flow device keys session (reporting session keys device.report) := by
  refine ⟨rfl, rfl, ?_, ?_⟩
  · rw [reported]
    exact stored_reports _ _ _
  · rw [reported]
    exact stored_reports _ _ _

section Steps

variable (hardware : Hardware) (image : Text → Bytes) (turn : Turn Point Board)
  (left : HandleState Point) (next : Point)

/-- A call of the sample server that a board answers. -/
theorem sample_calls (awaited : Awaited) (request : ExecutionRequest) (text : Text)
    (resumption : Resumption)
    (plays : sampleInstaller.play turn.state turn.round = (left, .awaited awaited next))
    (asks : awaited.instruction = some request)
    (written : sentScript (sampleHost.token 0) (TestClient.recvName sampleHost 0) left.session
      request = .ok text)
    (returns : Returns (sampleFlow hardware image)
      ((sampleFlow hardware image).update (ensureNewline text) turn.device) (ensureNewline text)
      awaited resumption) :
    Calls sampleInstaller (sampleFlow hardware image) turn
      (following left request.returnKeys next resumption
        ((sampleFlow hardware image).update (ensureNewline text) turn.device)) :=
  .called turn left awaited next request 0 0 text _ plays asks written
    (following_reports _ _ _ _ rfl) returns

variable (kept : left.session = turn.round.found.session)
  (plain : PlainSession turn.round.found.session (sampleHost.token 0) "tftpboot".toList
    "tftpput".toList "loadaddr".toList)
include kept plain

/-- A script of the sample server that a board runs. -/
theorem sample_executes (lines keys : List Text)
    (plays : ∃ built, sampleInstaller.play turn.state turn.round =
      (left, .awaited (.exec (spoken lines keys) built) next)) :
    ∃ device, Calls sampleInstaller (sampleFlow hardware image) turn
      (following left keys next .execReturned device) := by
  obtain ⟨built, plays⟩ := plays
  have moved := plain.moved { left.session with
    currentToken := some (sampleHost.token 0), phase := .awaitRrq } (by rw [kept]) (by rw [kept])
  have written := TestClient.append_continue_composed moved rfl
    (Text.rstrip (Text.joinLines lines)) none keys
  exact ⟨_, sample_calls hardware image turn left next _ _ _ .execReturned plays rfl written
    (.exec _ built rfl)⟩

/-- A script of the sample server with an upload that a board sends. -/
theorem sample_sends (lines : List Text) (size : Nat)
    (inert : TestClient.Inert (joinScriptLines (.lines lines)))
    (plays : ∃ built, sampleInstaller.play turn.state turn.round =
      (left, .awaited (.execRecv (received lines size) built) next)) :
    ∃ device body, Calls sampleInstaller (sampleFlow hardware image) turn
      (following left [] next (.received body) device) := by
  obtain ⟨built, plays⟩ := plays
  obtain ⟨request, text, made, written, read, -⟩ := TestClient.receive_read plain
    (List.forall_mem_singleton.mpr (by decide))
    TestClient.isCommandChar (by decide) (.lines lines) inert [] (by simp)
    (TestClient.recvName sampleHost 0) (by decide) size (Int.natCast_nonneg size) none (by simp)
  obtain rfl : received lines size = request := Except.ok.inj made
  rw [← kept] at written
  exact ⟨_, _, sample_calls hardware image turn left next _ _ text (.received _) plays rfl written
    (.execRecv _ built _ _ read rfl rfl)⟩

end Steps

/-- The upload of the export, once its length has been reported. The reported length becomes the
size of the upload, and nothing is written to the file system. -/
theorem upload_played (call : Invocation) (found : HandleState Point) (resumption : Resumption)
    (size : Nat)
    (reported : found.session.publicEnv.get "filesize".toList = some (Nat.toDigits 16 size)) :
    ∃ built, sampleInstaller.play (.exported call) ⟨0, [], found, resumption⟩ =
      (found, .awaited (.execRecv (sendRequest size) built) (.uploading call)) := by
  have plays : sampleInstaller.play (.exported call) ⟨0, [], found, resumption⟩ =
      (uploadEnv sampleAround call).run sampleHost 0 [] found := rfl
  rw [plays, uploadEnv, Code.run]
  have still : found.reports 0 (List.headD ([] : Schedule) []) = found := rfl
  simp only [still, reported, Text.parse_digits]
  exact ⟨⟨.lines [openMessage "Fetching current uboot environment... ".toList], size, false, [], none,
    rfl⟩, rfl⟩

/-- A turn at which nothing is shown and no backup has been saved is fit for a board. -/
theorem quiet_suits (hardware : Hardware) (turn : Turn Point Board) (early : turn.state.saving = none)
    (quiet : turn.state.shown sampleAround turn.round.found.session = []) :
    Suits sampleAround hardware turn := by
  refine ⟨fun text shown => ?_, fun locals binary newEnv _ patches => ?_⟩
  · rw [quiet] at shown
    cases shown
  · rw [patches] at early
    cases early

/-- The sample server and the sample board talk up to the point where the environment of the board
has been fetched. -/
theorem sample_conversation : ∃ (beginning turn : Turn Point Board) (call : Invocation) (cenv : Env),
    Begins sampleInstaller (sampleFlow sampleHardware sampleHost.compile) sampleClient
      (sampleRequest "id=cam") sampleParsed sampleBoard beginning ∧
    Relation.ReflTransGen (CallsSuitably sampleInstaller sampleAround sampleHardware 0x42000000
      sampleHost.compile TestClient.isCommandChar ("10.0.0.2".toList, 1069) 5) beginning turn ∧
    turn.state = .fetched call cenv := by
  let flow := sampleFlow sampleHardware sampleHost.compile
  let opened : ClientSession Point := openedSession sampleInstaller (sampleRequest "id=cam")
    sampleParsed sampleClient (sampleHost.token 0)
  let call : Invocation := ⟨sampleHost.staticRoot, sampleClient.text, []⟩
  obtain ⟨probe, probed⟩ : ∃ text, appendContinue hushProbeScript opened none [hushKey] = .ok text :=
    ⟨_, rfl⟩
  have begins : Begins sampleInstaller flow sampleClient (sampleRequest "id=cam") sampleParsed
      sampleBoard (following ⟨opened, Dict.empty, Dict.empty⟩ [hushKey] (.started call) .started
        (flow.update (ensureNewline probe) sampleBoard)) :=
    .begun (fun arguments => .started ⟨arguments.root, arguments.ident, arguments.cmd⟩)
      ⟨call.root, call.ident, call.cmd, sampleParsed, sampleRequest "id=cam"⟩ 0 probe _ rfl rfl rfl rfl
      probed (following_reports _ _ _ _ rfl) rfl
  have known {turn : Turn Point Board} (run : Relation.ReflTransGen (CallsSuitably sampleInstaller
      sampleAround sampleHardware 0x42000000 sampleHost.compile TestClient.isCommandChar
      ("10.0.0.2".toList, 1069) 5) _ turn) := OnBoard.along sample_bench rfl rfl begins run
  obtain ⟨exported, exports⟩ := sample_executes sampleHardware sampleHost.compile _ _
    (.exported call) rfl ((known .refl).plain 0) ["env export -t ".toList ++ expansion
    "loadaddr".toList] ["filesize".toList] ⟨_, rfl⟩
  have first := Relation.ReflTransGen.single (r := CallsSuitably sampleInstaller sampleAround
    sampleHardware 0x42000000 sampleHost.compile TestClient.isCommandChar ("10.0.0.2".toList, 1069) 5)
    ⟨quiet_suits sampleHardware _ rfl rfl, exports⟩
  obtain ⟨-, bytes, -, -, -, -, filesize⟩ := (known first).knows
  obtain ⟨sent, body, sends⟩ := sample_sends sampleHardware sampleHost.compile _ _ (.uploading call)
    rfl ((known first).plain 0) [openMessage "Fetching current uboot environment... ".toList]
    bytes.length (by decide +kernel) (upload_played call _ _ _ filesize)
  have second := first.tail ⟨quiet_suits sampleHardware _ rfl rfl, sends⟩
  obtain ⟨shown, shows⟩ := sample_executes sampleHardware sampleHost.compile _ _
    (.fetched call (ubootenvParseExport body)) rfl ((known second).plain 0) [message "OK".toList] []
    ⟨_, rfl⟩
  exact ⟨_, _, call, _, begins, second.tail ⟨quiet_suits sampleHardware _ rfl rfl, shows⟩, rfl⟩

/-- What is taken for its environment begins with the image of a script. -/
theorem fetched_environment_sample : ∃ (beginning turn : Turn Point Board) (call : Invocation)
    (cenv : Env) (exporting sending : Text),
    turn.state = .fetched call cenv ∧
    cenv = ubootenvParseExport
      (covered (beginning.device.load 0x42000000 (sampleHost.compile exporting)).exported
        (sampleHost.compile sending)) := by
  obtain ⟨beginning, turn, call, cenv, begins, run, fetched⟩ := sample_conversation
  obtain ⟨exporting, sending, _, -, rfl, -, parses, -⟩ := fetched_environment sampleInstaller
    sampleAround sampleHardware 0x42000000 sampleHost.compile TestClient.isCommandChar
    ("10.0.0.2".toList, 1069) 5 (sampleRequest "id=cam") sampleParsed sampleClient sampleBoard _ _ _
    beginning turn sample_bench rfl rfl begins run call cenv fetched
  exact ⟨beginning, turn, call, cenv, exporting, sending, fetched, parses⟩

end Samples

section Camera

/-- The request of a camera that is to be installed, and what it is parsed as. -/
def installRequest : ContentRequest := sampleRequest "id=cam/install/vendor=goke/soc=gk7205v300"

/-- The request of the sample camera as the server reads it. -/
def installParsed : ParsedPath :=
  ⟨installRequest.filename, some sampleClient, "/install/vendor=goke/soc=gk7205v300".toList,
    ["install".toList, "vendor=goke".toList, "soc=gk7205v300".toList], Dict.ofList sampleArguments⟩

/-- The request is parsed so. -/
example : parseRequestPath installRequest.filename = .ok installParsed := by decide +kernel

/-- A camera whose first variable is longer than the images of its scripts. What is covered of its
export is then a part of that variable only. -/
def cameraBoard : Board where
  values := Dict.ofList [("bootargs".toList, "console=ttyAMA0,115200".toList),
    ("ethaddr".toList, "00:11:22:33:44:55".toList), ("loadaddr".toList, "42000000".toList)]
  memory := fun _ => 0
  flash := UInt8.ofNat
  probed := false
  status := 0
  waiting := none

/-- An image that is the same for all scripts. -/
def scriptImage (_ : Text) : Bytes := asciiBytes "image"

/-- The image that is installed, with the environment of the camera. -/
def patchedImage : Bytes :=
  ((ubootenvPatch sampleCodecs installImage (installedEnv installDefaults) .inferred none 0xFF
    utf8).toOption).getD []

/-- A flash of 8 MiB, and a server that hands out the patched image. No other file is handed out,
and the name is the one under which the installer has written the image. -/
def cameraHardware : Hardware where
  wordSize := 32
  capacity := 0x800000
  sector := 64
  served name :=
    if name = "10.0.0.1:patched/cam-openipc-gk7205v300-lite-8mb.bin".toList then some patchedImage
    else none

/-- The session that the request opens. -/
def installSession : ClientSession Point :=
  openedSession sampleInstaller installRequest installParsed sampleClient (sampleHost.token 0)

/-- The script that asks for the shell. -/
def installProbe : Text :=
  ((appendContinue hushProbeScript installSession none [hushKey]).toOption).getD []

/-- The first turn of the camera. -/
def cameraBeginning : Turn Point Board :=
  following ⟨installSession, Dict.empty, sampleFiles⟩ [hushKey] (.started sampleCall) .started
    ((sampleFlow cameraHardware scriptImage).update (ensureNewline installProbe) cameraBoard)

/-- What the camera exports behind it. -/
def cameraExport : Bytes :=
  asciiBytes "bootargs=console=ttyAMA0,115200\nethaddr=00:11:22:33:44:55\nloadaddr=42000000\n" ++
    asciiBytes "filesize=5\nhush_shell=true\n\x00"

/-- That is what it has in its variables. -/
theorem camera_exported (script : Text) :
    (cameraBeginning.device.load 0x42000000 (scriptImage script)).exported = cameraExport := by
  rw [scriptImage]
  decide +kernel

/-- What the installer takes for its environment, with the arguments of the request. -/
def cameraCenv : Env :=
  currentEnv (ubootenvParseExport (covered cameraExport (asciiBytes "image")))
    (Dict.ofList sampleArguments)

/-- What the installer looks up in it. -/
theorem camera_settings : cameraCenv.get "fw".toList = some "lite".toList ∧
    cameraCenv.get "vendor".toList = some "goke".toList ∧
    cameraCenv.get "soc".toList = some "gk7205v300".toList ∧
    cameraCenv.get "ethaddr".toList = some "00:11:22:33:44:55".toList := by decide +kernel

/-- The local variables of its installation. -/
def cameraLocals : Locals :=
  ⟨sampleHost.staticRoot, sampleClient.text, cameraCenv, 0x800000, "lite".toList, "goke".toList,
    "gk7205v300".toList⟩

/-- The files of the backup, of the image and of the patched image on the server. -/
def backupPath : Path :=
  ["srv".toList, "backup".toList, "install-backup-cam-gk7205v300-8mb-20260101-120000.bin".toList]

/-- Where the cached image of the sample camera stands. -/
def imagePath : Path :=
  ["srv".toList, "install".toList, "openipc-gk7205v300-lite-8mb.bin".toList]

/-- Where its patched image is written. -/
def patchedPath : Path :=
  ["srv".toList, "patched".toList, "cam-openipc-gk7205v300-lite-8mb.bin".toList]

section Plays

/-- A script of words that goes on. -/
theorem code_executes (lines keys : List Text) (words : ∀ key ∈ keys, TestClient.Word key)
    (next : Point) : ∃ built, Code.execute lines false keys next =
      .await (.exec (spoken lines keys) built) next := by
  have made : exec (.lines lines) false keys = .ok (spoken lines keys) := by
    simp only [exec, TestClient.word_keys keys words]
    rfl
  unfold Code.execute
  split
  · rename_i request again
    cases made.symm.trans again
    exact ⟨⟨_, _, _, made⟩, rfl⟩
  · rename_i raised again
    cases made.symm.trans again

variable (found : HandleState Point) (resumption : Resumption)

/-- Nothing is reported while the sample server runs its handler. -/
theorem sample_reports : found.reports 0 (List.headD ([] : Schedule) []) = found := rfl

/-- Only the variables of the request are looked at for the current environment. -/
theorem current_env_same (cenv first second : Env)
    (same : ∀ key ∈ ["nor_size".toList, "fw".toList, "vendor".toList, "soc".toList],
      first.get key = second.get key) : currentEnv cenv first = currentEnv cenv second := by
  have listed : ["nor_size".toList, "fw".toList, "vendor".toList, "soc".toList].filterMap
        (fun key => (first.get key).map fun value => (key, value)) =
      ["nor_size".toList, "fw".toList, "vendor".toList, "soc".toList].filterMap
        (fun key => (second.get key).map fun value => (key, value)) :=
    List.filterMap_congr fun key member => by rw [same key member]
  simp only [currentEnv, overrideKeys, listed]

/-- The probe for the flash, if the request sets no limit. The limit is then the default of 128
MiB. -/
theorem probe_played (call : Invocation) (cenv : Env)
    (unlimited : found.session.publicEnv.get "nor_size".toList = none) :
    ∃ built, sampleInstaller.play (.fetched call cenv) ⟨0, [], found, resumption⟩ =
      (found, .awaited (.exec (spoken probeLines ["status".toList]) built)
        (.probing call (currentEnv cenv found.session.publicEnv) (128 * 2 ^ 20))) := by
  have plays : sampleInstaller.play (.fetched call cenv) ⟨0, [], found, resumption⟩ =
      (probeFlash sampleAround call cenv).run sampleHost 0 [] found := rfl
  obtain ⟨built, executes⟩ := code_executes [openMessage "Probing NOR flash... ".toList,
    "sf probe 0".toList, "setenv status $?".toList] ["status".toList]
    (List.forall_mem_singleton.mpr (by decide))
    (.probing call (currentEnv cenv found.session.publicEnv) (128 * 2 ^ 20))
  refine ⟨built, ?_⟩
  rw [plays, probeFlash, Code.run]
  simp only [sample_reports, unlimited, parseMaxSize, executes]
  rfl

/-- The probe for its size, once the flash has been found. The limit of the probe is that of the
session, and the generated script starts from one MiB. -/
theorem size_played (call : Invocation) (cenv : Env) (maxSize : Int)
    (reported : found.session.publicEnv.get "status".toList = some "0".toList)
    (loads : found.session.env.get "rambase".toList = some "loadaddr".toList) :
    ∃ built, sampleInstaller.play (.probing call cenv maxSize) ⟨0, [], found, resumption⟩ =
      (found, .awaited (.exec (spoken (ubootNorGenProbe (expansion "loadaddr".toList) (2 ^ 20) maxSize
        0 0 none (by decide) ++ [message (expansion "size".toList)]) ["size".toList]) built)
        (.sizing call cenv)) := by
  have plays : sampleInstaller.play (.probing call cenv maxSize) ⟨0, [], found, resumption⟩ =
      (OpenIpc.probeSize call cenv maxSize).run sampleHost 0 [] found := rfl
  obtain ⟨built, executes⟩ := code_executes (ubootNorGenProbe (expansion "loadaddr".toList) (2 ^ 20)
    maxSize 0 0 none (by decide) ++ [message (expansion "size".toList)]) ["size".toList]
    (List.forall_mem_singleton.mpr (by decide)) (.sizing call cenv)
  have passed : "0".toList ≠ "1".toList := by decide
  refine ⟨built, ?_⟩
  rw [plays, OpenIpc.probeSize, Code.run]
  simp only [sample_reports, lookupEnv, reported, Code.attempt, if_neg passed, rambaseOf, loads,
    Except.map, executes]
  rfl

/-- The announcement of the backup, if the flash has 8 MiB. Vendor, soc and firmware are known from
the arguments of the request, so there are no complaints about them. -/
theorem announce_played
    (reported : found.session.publicEnv.get "size".toList = some (Text.hex 0x800000)) :
    ∃ built, sampleInstaller.play (.sizing sampleCall cameraCenv) ⟨0, [], found, resumption⟩ =
      (found, .awaited (.exec (spoken [boldMessage "Backing up NOR flash.".toList] []) built)
        (.announced cameraLocals)) := by
  have plays : sampleInstaller.play (.sizing sampleCall cameraCenv) ⟨0, [], found, resumption⟩ =
      (acceptSize sampleAround sampleCall cameraCenv).run sampleHost 0 [] found := rfl
  obtain ⟨built, executes⟩ := code_executes [boldMessage "Backing up NOR flash.".toList] [] (by simp)
    (.announced cameraLocals)
  have firmware : lookupEnv cameraCenv "fw".toList = .ok "lite".toList := by
    simp only [lookupEnv, camera_settings]
  have vendor : lookupEnv cameraCenv "vendor".toList = .ok "goke".toList := by
    simp only [lookupEnv, camera_settings]
  have soc : lookupEnv cameraCenv "soc".toList = .ok "gk7205v300".toList := by
    simp only [lookupEnv, camera_settings]
  have arguments (cmdtftp rambase : Except Raised Text) :
      checkInstallArgs cmdtftp rambase cameraCenv = .ok [] := by
    have supported : ¬"lite".toList ∉ supportedFirmware := by decide
    simp only [checkInstallArgs, firmware, camera_settings, reduceCtorEq, if_false, List.append_nil,
      bind, Except.bind, if_neg supported, if_true]
  have flash : checkFlash 8388608 cameraCenv = .ok [] := by
    rw [checkFlash, if_neg (by decide), if_neg (by decide), if_neg]
    rintro ⟨-, large⟩
    exact absurd (camera_settings.1.symm.trans large) (by decide)
  have size : Text.parseInteger 0 (Text.hex 0x800000) = some 8388608 := Text.parse_hex 0x800000
  have fits : quotientOverflows 8388608 = false := sample_size_divides
  refine ⟨built, ?_⟩
  rw [plays, acceptSize, Code.run, sample_reports]
  simp only [lookupEnv, reported, Code.attempt]
  rw [size]
  simp only [checkInstall, fits, Bool.false_eq_true, if_false, arguments, flash, firmware, vendor, soc,
    Code.attempt, List.append_nil, ne_eq, not_true_eq_false]
  exact congrArg (fun code : Code Point => code.run sampleHost 0 [] found) executes

/-- The lines that read a flash into the memory. -/
def downloadLines (size : Nat) : List Text :=
  [openMessage "Copying NOR to RAM... ".toList,
    ubootMemset (expansion "loadaddr".toList) 0 (.int 0) (.int 0xFF) (.int size) none,
    ubootNorRead (expansion "loadaddr".toList) 1 (.int 0) (.int 0) (.int size) none,
    message "OK".toList, boldMessage "Downloading backup via TFTP...".toList]

/-- The download of the flash. -/
theorem download_played (locals : Locals) (size : Nat) (sized : locals.norSize = size)
    (loads : found.session.env.get "rambase".toList = some "loadaddr".toList) :
    ∃ built, sampleInstaller.play (.announced locals) ⟨0, [], found, resumption⟩ =
      (found, .awaited (.execRecv (received (downloadLines size) size) built)
        (.backingUp locals)) := by
  have plays : sampleInstaller.play (.announced locals) ⟨0, [], found, resumption⟩ =
      (downloadFlash sampleAround locals).run sampleHost 0 [] found := rfl
  rw [plays, downloadFlash, Code.run, sample_reports]
  simp only [rambaseOf, lookupEnv, loads, Except.map, Code.attempt, sized]
  exact ⟨⟨.lines _, size, false, [], none, rfl⟩, rfl⟩

/-- The files behind the backup. -/
def backedFiles (body : Bytes) : FileTree := sampleFiles.set backupPath (.file body)

/-- The backup is written. The file is new, and its directory comes about with it. -/
theorem save_played (body : Bytes) (files : found.files = sampleFiles) :
    ∃ built, sampleInstaller.play (.backingUp cameraLocals) ⟨0, [], found, .received body⟩ =
      ({ found with files := backedFiles body }, .awaited (.exec (spoken
        [message ("  Saved backup as ".toList ++ cameraLocals.backupFile sampleAround)] []) built)
          (.saved cameraLocals)) := by
  have plays : sampleInstaller.play (.backingUp cameraLocals) ⟨0, [], found, .received body⟩ =
      (saveBackup sampleAround cameraLocals body).run sampleHost 0 [] found := rfl
  have target : resolveStaticPath sampleHost ('/' :: cameraLocals.backupFile sampleAround) =
      .ok (some backupPath) := by decide +kernel
  have parents : sampleFiles.makeParents backupPath = .ok () := by decide +kernel
  have file : sampleFiles.isDirectory backupPath = false := by decide +kernel
  have written : found.writeFile sampleHost (cameraLocals.backupFile sampleAround) body =
      ({ found with files := backedFiles body }, .ok backupPath) := by
    simp only [HandleState.writeFile, target, files, parents, FileTree.writeBytes, file,
      Bool.false_eq_true, if_false, backedFiles]
  obtain ⟨built, executes⟩ := execute_keyless [message ("  Saved backup as ".toList ++
    cameraLocals.backupFile sampleAround)] false (Point.saved cameraLocals)
  refine ⟨built, ?_⟩
  rw [plays, saveBackup, Code.run, sample_reports, written]
  simp only [Code.attempt, executes]
  rfl

/-- The image is on the server. Nothing is downloaded then, and the announcement says that the image
was cached. -/
theorem fetch_played (body : Bytes) (files : found.files = backedFiles body) :
    ∃ built, sampleInstaller.play (.saved cameraLocals) ⟨0, [], found, resumption⟩ =
      (found, .awaited (.exec (spoken
        [boldMessage ("Using cached download: ".toList ++ cameraLocals.imageName)] []) built)
          (.cached cameraLocals)) := by
  have plays : sampleInstaller.play (.saved cameraLocals) ⟨0, [], found, resumption⟩ =
      (downloadImage cameraLocals).run sampleHost 0 [] found := rfl
  have target : resolveStaticPath sampleHost ('/' :: cameraLocals.imageName) =
      .ok (some imagePath) := by decide +kernel
  have there : FileTree.present (backedFiles body) imagePath = true := rfl
  have exists_ : found.fileExists sampleHost cameraLocals.imageName = .ok true := by
    simp only [HandleState.fileExists, target, files, FileTree.pathExists,
      FileTree.stat_present _ _ _ there, there, Bool.false_eq_true, if_false]
  obtain ⟨built, executes⟩ := execute_keyless [boldMessage ("Using cached download: ".toList ++
    cameraLocals.imageName)] false (Point.cached cameraLocals)
  refine ⟨built, ?_⟩
  rw [plays, downloadImage, Code.run, sample_reports, exists_]
  simp only [Code.attempt, if_true, executes]
  rfl

/-- The image is read. It is read from the file tree as the backup has left it, since the two files
are different ones. -/
theorem read_played (body : Bytes) (files : found.files = backedFiles body) :
    ∃ built, sampleInstaller.play (.cached cameraLocals) ⟨0, [], found, resumption⟩ =
      (found, .awaited (.exec (spoken [openMessage "Extracting uboot env from image... ".toList] [])
        built) (.extracting cameraLocals installImage)) := by
  have plays : sampleInstaller.play (.cached cameraLocals) ⟨0, [], found, resumption⟩ =
      (readImage cameraLocals).run sampleHost 0 [] found := rfl
  have target : resolveStaticPath sampleHost ('/' :: cameraLocals.imageName) =
      .ok (some imagePath) := by decide +kernel
  have holds : FileTree.contents (backedFiles body) imagePath = some installImage := rfl
  have read : found.readFile sampleHost cameraLocals.imageName = .ok installImage :=
    read_file_contents sampleHost found _ imagePath installImage target (files ▸ holds)
  have present : installImage ≠ [] := by decide +kernel
  obtain ⟨built, executes⟩ := execute_keyless [openMessage
    "Extracting uboot env from image... ".toList] false (Point.extracting cameraLocals installImage)
  refine ⟨built, ?_⟩
  rw [plays, readImage, Code.run, sample_reports, read]
  simp only [Code.attempt, if_neg present, executes]
  rfl

/-- The lines about the environment of the image. -/
def cameraPatchLines : List Text :=
  [message "OK".toList, boldMessage "Patched env variables:".toList] ++
    patchedLines cameraLocals.cenv (installedEnv installDefaults) (mergedVariables
      cameraLocals.ident (genMac sampleAround.randomBytes "00:11:22:33:44:55".toList)
      (expansion "loadaddr".toList))

/-- The environment of the image is extracted and patched. What the image holds as its environment
is given by the first assumption, so that the run need not decode it here. -/
theorem extract_played
    (done : ubootenvExtract sampleCodecs installImage .inferred = .ok installDefaults)
    (loads : found.session.env.get "rambase".toList = some "loadaddr".toList) :
    ∃ built, sampleInstaller.play (.extracting cameraLocals installImage)
        ⟨0, [], found, resumption⟩ =
      (found, .awaited (.exec (spoken cameraPatchLines []) built)
        (.patching cameraLocals installImage (installedEnv installDefaults))) := by
  have plays (locals : Locals) (binary : Bytes) :
      sampleInstaller.play (.extracting locals binary) ⟨0, [], found, resumption⟩ =
        (patchEnv sampleAround locals binary).run sampleHost 0 [] found := rfl
  have own : cameraLocals.cenv = cameraCenv := by rw [cameraLocals]
  have ethaddr : cameraLocals.cenv.get "ethaddr".toList = some "00:11:22:33:44:55".toList := by
    rw [own]
    exact camera_settings.2.2.2
  have same : patchedEnv cameraLocals.cenv installDefaults (mergedVariables cameraLocals.ident
      (genMac sampleAround.randomBytes "00:11:22:33:44:55".toList) (expansion "loadaddr".toList)) =
        installedEnv installDefaults := by decide +kernel
  obtain ⟨built, executes⟩ := execute_keyless cameraPatchLines false
    (Point.patching cameraLocals installImage (installedEnv installDefaults))
  have extraction : ubootenvExtract sampleAround.codecs installImage .inferred =
    .ok installDefaults := done
  refine ⟨built, ?_⟩
  rw [plays, patchEnv, extraction]
  simp only [Code.run, sample_reports, rambaseOf, lookupEnv, loads, Except.map, Code.attempt, ethaddr,
    same]
  rw [← cameraPatchLines, executes]
  rfl

/-- The patched image is written and flashed. The patched image gets a file of its own on the
server, next to the one that it was made from. -/
theorem flash_played (body patched : Bytes) (files : found.files = backedFiles body)
    (written : ubootenvPatch sampleCodecs installImage (installedEnv installDefaults) .inferred none
      0xFF utf8 = .ok patched)
    (loads : found.session.env.get "rambase".toList = some "loadaddr".toList) :
    ∃ files built, sampleInstaller.play
        (.patching cameraLocals installImage (installedEnv installDefaults))
        ⟨0, [], found, resumption⟩ =
      ({ found with files := files }, .awaited (.exec (spoken (restoreLines sampleAround
        (expansion "loadaddr".toList) found.session.serverIp cameraLocals.patchedFile patched.length)
          []) built) (.flashed cameraLocals (installedEnv installDefaults))) := by
  have plays (locals : Locals) (binary : Bytes) (newEnv : Env) :
      sampleInstaller.play (.patching locals binary newEnv) ⟨0, [], found, resumption⟩ =
        (flashImage sampleAround locals binary newEnv).run sampleHost 0 [] found := rfl
  have target : resolveStaticPath sampleHost ('/' :: cameraLocals.patchedFile) =
      .ok (some patchedPath) := by decide +kernel
  have parents : FileTree.makeParents (backedFiles body) patchedPath = .ok () := rfl
  have file : FileTree.isDirectory (backedFiles body) patchedPath = false := rfl
  have stored : found.writeFile sampleHost cameraLocals.patchedFile patched =
      ({ found with files := (backedFiles body).set patchedPath (.file patched) },
        .ok patchedPath) := by
    simp only [HandleState.writeFile, target, files, parents, FileTree.writeBytes, file,
      Bool.false_eq_true, if_false]
  obtain ⟨built, executes⟩ := execute_keyless (restoreLines sampleAround
    (expansion "loadaddr".toList) found.session.serverIp cameraLocals.patchedFile patched.length)
    false (Point.flashed cameraLocals (installedEnv installDefaults))
  have done : ubootenvPatch sampleAround.codecs installImage (installedEnv installDefaults) .inferred
    none 0xFF utf8 = .ok patched := written
  refine ⟨(backedFiles body).set patchedPath (.file patched), built, ?_⟩
  rw [plays, flashImage, done]
  simp only [Code.run, sample_reports, stored, Code.attempt]
  simp only [List.tail_nil, sample_reports, rambaseOf, lookupEnv, loads, Except.map, executes]
  rfl

end Plays

/-- The probe finds all of the flash. It is 8 MiB, the third doubling of what the probe starts from,
and the probe is bounded at 128 MiB. -/
theorem camera_size (beginning : Turn Point Board) (number : Nat)
    (unlimited : limit beginning = some (128 * 2 ^ 20))
    (sized : Sized cameraHardware beginning number) : number = 0x800000 := by
  obtain ⟨maxSize, limited, finds⟩ := sized
  cases unlimited.symm.trans limited
  have eight : ProbeReaches (2 ^ 20) (128 * 2 ^ 20) 0 cameraHardware.capacity 3 := by
    refine ⟨by decide, fun smaller bound => ?_⟩
    have grows : (2 : Int) ^ smaller ≤ 2 ^ 3 := by
      gcongr
      simp
    have capacity : ((cameraHardware.capacity : Nat) : Int) = 2 ^ 20 * 2 ^ 3 := by decide
    rw [capacity]
    push_cast
    omega
  rcases finds with ⟨doublings, found, ⟨-, each⟩, last⟩ | ⟨-, none⟩
  · have least : 3 ≤ doublings := by
      by_contra less
      exact last 3 (by omega) eight
    have most : doublings ≤ 3 := by
      by_contra more
      have four := each 4 (by omega)
      revert four
      decide
    obtain rfl : doublings = 3 := by omega
    have same : (number : Int) = 0x800000 := by simpa using found
    exact_mod_cast same
  · exact absurd eight (none 3)

/-- The camera on the sample server. It has a flash of 8 MiB, and the load address that the scripts
mention among its variables. -/
theorem camera_bench : Bench sampleInstaller cameraHardware 0x42000000 installRequest installParsed
    sampleClient cameraBoard "tftpboot".toList "tftpput".toList "loadaddr".toList where
  urlSafe := sample_url_safe
  named := fun draw character member => (List.eq_of_mem_replicate member) ▸ (by decide)
  plain := fun draw =>
    { urlSafe := fun character member => (List.eq_of_mem_replicate member) ▸ (by decide)
      served := (by decide : "10.0.0.1".toList ≠ [])
      dotted := by
        have digits : "10.0.0.1".toList.all
          (fun character => character.isDigit || character == '.') = true := by decide
        intro character member
        simpa using List.all_eq_true.mp digits character member
      fetches := rfl
      fetching := by decide
      sends := rfl
      sending := by decide
      loads := rfl
      addressed := by decide
      braceless := by decide }
  loose := by decide
  apart := by decide
  fetches := by decide
  sends := by decide
  ready := by
    refine ⟨fun name temporary => ?_, by decide, "42000000".toList, rfl, by decide⟩
    have other : name ∉ ["bootargs".toList, "ethaddr".toList, "loadaddr".toList] := by
      intro member
      have lasting : ∀ key ∈ ["bootargs".toList, "ethaddr".toList, "loadaddr".toList],
          ¬Temporary key := by decide
      exact lasting name member temporary
    simp only [List.mem_cons, List.not_mem_nil, or_false, not_or] at other
    simp only [cameraBoard, Dict.ofList, Dict.update, List.foldl_cons, List.foldl_nil]
    rw [Dict.get_set_other _ _ _ _ other.2.2, Dict.get_set_other _ _ _ _ other.2.1,
      Dict.get_set_other _ _ _ _ other.1]
    rfl
  bounded := by decide
  present := by decide

/-- The image that is handed out is the patched one, and fits. -/
theorem patched_image : ubootenvExtract sampleCodecs installImage .inferred = .ok installDefaults ∧
    ubootenvPatch sampleCodecs installImage (installedEnv installDefaults) .inferred none 0xFF utf8 =
      .ok patchedImage ∧ patchedImage.length = 640 := by
  obtain ⟨done, patched, written⟩ := install_image_patched
  have same : patchedImage = patched := by rw [patchedImage, written]; rfl
  refine ⟨done, same ▸ written, ?_⟩
  rw [same, patched_length sampleCodecs installImage _ _ patched done written]
  decide +kernel

/-- The turns of the installation are fit for the camera. What a turn has to be fit for is the image
that is fetched back from the server: the camera gets the bytes that the server has written. -/
theorem camera_suits (turn : Turn Point Board)
    (shown : ∀ text ∈ turn.state.shown sampleAround turn.round.found.session, Unescaped text)
    (server : turn.round.found.session.serverIp = "10.0.0.1".toList)
    (own : ∀ locals binary newEnv, turn.state = .patching locals binary newEnv →
      locals = cameraLocals ∧ binary = installImage ∧ newEnv = installedEnv installDefaults) :
    Suits sampleAround cameraHardware turn := by
  refine ⟨shown, fun locals binary newEnv patched patching written => ?_⟩
  obtain ⟨rfl, rfl, rfl⟩ := own locals binary newEnv patching
  obtain ⟨-, expected, length⟩ := patched_image
  have done : ubootenvPatch sampleCodecs installImage (installedEnv installDefaults) .inferred none
    0xFF utf8 = .ok patched := written
  have same : patched = patchedImage := Except.ok.inj (done.symm.trans expected)
  have name : Operation.staticName turn.round.found.session.serverIp cameraLocals.patchedFile =
      "10.0.0.1:patched/cam-openipc-gk7205v300-lite-8mb.bin".toList := by
    rw [server]
    decide +kernel
  rw [same]
  refine ⟨⟨?_, ?_, ?_, ?_, ?_⟩, ?_, ?_⟩
  · rw [name, cameraHardware]
    simp only [if_true]
  · rw [name]
    decide
  · rw [name]
    decide
  · rw [name]
    decide
  · rw [name]
    decide
  · rw [length]
    decide
  · rw [length]
    decide

/-- A step of the camera on the sample server. -/
def CameraCalls : Turn Point Board → Turn Point Board → Prop :=
  CallsSuitably sampleInstaller sampleAround cameraHardware 0x42000000 scriptImage
    TestClient.isCommandChar ("10.0.0.2".toList, 1069) 5

/-- It is one. -/
theorem camera_begins : Begins sampleInstaller (sampleFlow cameraHardware scriptImage) sampleClient
    installRequest installParsed cameraBoard cameraBeginning := by
  have probed : appendContinue hushProbeScript installSession none [hushKey] = .ok installProbe := by
    decide +kernel
  have reports : TestClient.Reports (sampleFlow cameraHardware scriptImage)
      ((sampleFlow cameraHardware scriptImage).update (ensureNewline installProbe) cameraBoard)
      [hushKey] installSession cameraBeginning.round.found.session :=
    following_reports _ _ _ _ rfl
  refine .begun (fun arguments => .started ⟨arguments.root, arguments.ident, arguments.cmd⟩)
    ⟨sampleCall.root, sampleCall.ident, sampleCall.cmd, installParsed, installRequest⟩ 0 installProbe
    cameraBeginning.round ?_ ?_ (by decide +kernel) ?_ probed reports ?_
  · rfl
  · rfl
  · rfl
  · rfl

/-- Where the installation of the camera has come to, and what the next stretch finds. The settings
that came with the request are named one by one, as later stretches look them up. -/
structure CameraAt (point : Point) (resumption : Resumption) (files : FileTree)
    (turn : Turn Point Board) : Prop where
  run : Relation.ReflTransGen CameraCalls cameraBeginning turn
  state : turn.state = point
  round : turn.round = ⟨0, [], turn.round.found, resumption⟩
  files : turn.round.found.files = files
  server : turn.round.found.session.serverIp = "10.0.0.1".toList
  settings : ∀ key ∈ ["nor_size".toList, "fw".toList, "vendor".toList, "soc".toList],
    turn.round.found.session.publicEnv.get key = (Dict.ofList sampleArguments).get key

section Stages

variable {point : Point} {resumption : Resumption} {files : FileTree} {turn : Turn Point Board}
  (reached : CameraAt point resumption files turn)
  (shown : ∀ text ∈ point.shown sampleAround turn.round.found.session, Unescaped text)
  (own : ∀ locals binary newEnv, point = .patching locals binary newEnv →
    locals = cameraLocals ∧ binary = installImage ∧ newEnv = installedEnv installDefaults)
include reached

/-- What is known there. -/
theorem CameraAt.known : OnBoard sampleInstaller sampleAround cameraHardware
    (sampleFlow cameraHardware scriptImage) cameraBoard 0x42000000 scriptImage cameraBeginning turn
    "tftpboot".toList "tftpput".toList "loadaddr".toList :=
  OnBoard.along camera_bench rfl rfl camera_begins reached.run

include shown own

/-- A call leads on. The reported variables are none of those that the installer has taken from the
request, so these stay known. -/
theorem CameraAt.leads (left : HandleState Point) (kept : left.session = turn.round.found.session)
    (keys : List Text) (apart : ∀ key ∈ ["nor_size".toList, "fw".toList, "vendor".toList,
      "soc".toList], key ∉ keys) (next : Point) (later : Resumption) (device : Board)
    (calls : Calls sampleInstaller (sampleFlow cameraHardware scriptImage) turn
      (following left keys next later device)) :
    CameraCalls turn (following left keys next later device) ∧
      CameraAt next later left.files (following left keys next later device) := by
  have step : CameraCalls turn (following left keys next later device) := by
    refine ⟨camera_suits turn ?_ reached.server ?_, calls⟩
    · rw [reached.state]
      exact shown
    · rw [reached.state]
      exact own
  refine ⟨step, reached.run.tail step, rfl, rfl, rfl, ?_, fun key member => ?_⟩
  · simp only [following, reporting, kept]
    exact reached.server
  · simp only [following, reporting, stored_reports, apart key member, if_false, kept]
    exact reached.settings key member

/-- A script that the camera runs leads on. The keys that the script asks for must not be among
those that the request has set, as the answer would change them in the session. -/
theorem CameraAt.executes (left : HandleState Point)
    (kept : left.session = turn.round.found.session) {after : FileTree} (stored : left.files = after)
    (lines keys : List Text) (apart : ∀ key ∈ ["nor_size".toList, "fw".toList, "vendor".toList,
      "soc".toList], key ∉ keys) (next : Point)
    (plays : ∃ built, sampleInstaller.play point ⟨0, [], turn.round.found, resumption⟩ =
      (left, .awaited (.exec (spoken lines keys) built) next)) :
    ∃ later, CameraCalls turn later ∧ CameraAt next .execReturned after later := by
  rw [← reached.state, ← reached.round] at plays
  obtain ⟨device, calls⟩ := sample_executes cameraHardware scriptImage turn left next kept
    (reached.known.plain 0) lines keys plays
  exact ⟨_, stored ▸ reached.leads shown own left kept keys apart next _ device calls⟩

/-- A script with an upload leads on. -/
theorem CameraAt.sends (lines : List Text) (size : Nat)
    (inert : TestClient.Inert (joinScriptLines (.lines lines))) (next : Point)
    (plays : ∃ built, sampleInstaller.play point ⟨0, [], turn.round.found, resumption⟩ =
      (turn.round.found, .awaited (.execRecv (received lines size) built) next)) :
    ∃ later body, CameraCalls turn later ∧ CameraAt next (.received body) files later := by
  rw [← reached.state, ← reached.round] at plays
  obtain ⟨device, body, calls⟩ := sample_sends cameraHardware scriptImage turn _ next rfl
    (reached.known.plain 0) lines size inert plays
  obtain ⟨step, again⟩ := reached.leads shown own _ rfl [] (by simp) next _ device calls
  exact ⟨_, body, step, reached.files ▸ again⟩

end Stages

/-- Where the installation of the camera begins. -/
theorem camera_started : CameraAt (.started sampleCall) .started sampleFiles cameraBeginning := by
  refine ⟨.refl, rfl, rfl, rfl, rfl, fun key member => ?_⟩
  have apart : key ∉ [hushKey] := by
    have others : ∀ key ∈ ["nor_size".toList, "fw".toList, "vendor".toList, "soc".toList],
        key ∉ [hushKey] := by decide
    exact others key member
  have same : installSession.publicEnv = Dict.ofList sampleArguments := by decide +kernel
  simp only [cameraBeginning, following, reporting, stored_reports, apart, if_false, same]

/-- The server and the camera talk until the environment of the camera has been fetched. These are
the export, its upload and a message. The beginning of the export is covered by the image of the
script that sends it. -/
theorem camera_fetched : ∃ turn, CameraAt (.fetched sampleCall (ubootenvParseExport
    (covered cameraExport (asciiBytes "image")))) .execReturned sampleFiles turn := by
  obtain ⟨turn, -, exported⟩ := camera_started.executes (by simp [Point.shown]) (by simp) _ rfl
    camera_started.files
    ["env export -t ".toList ++ expansion "loadaddr".toList] ["filesize".toList]
    (by decide) (.exported sampleCall) ⟨_, rfl⟩
  obtain ⟨bytes, filesize⟩ : ∃ bytes : Bytes, turn.round.found.session.publicEnv.get
      "filesize".toList = some (Nat.toDigits 16 bytes.length) := by
    have knows := exported.known.knows
    rw [Knows, exported.state] at knows
    obtain ⟨-, bytes, -, -, -, -, filesize⟩ := knows
    exact ⟨bytes, filesize⟩
  obtain ⟨turn, body, -, uploading⟩ := exported.sends (by simp [Point.shown]) (by simp)
    [openMessage "Fetching current uboot environment... ".toList] bytes.length (by decide +kernel)
    (.uploading sampleCall) (upload_played sampleCall _ _ _ filesize)
  have fetched : body = covered cameraExport (asciiBytes "image") := by
    have knows := uploading.known.knows
    rw [Knows, uploading.state] at knows
    obtain ⟨exporting, sending, bytes, -, own, -, same⟩ := knows body (by rw [uploading.round])
    rw [same, own, camera_exported, scriptImage]
  subst fetched
  obtain ⟨turn, -, fetched⟩ := uploading.executes (by simp [Point.shown]) (by simp) _ rfl
    uploading.files [message "OK".toList] [] (by simp) (.fetched sampleCall _) ⟨_, rfl⟩
  exact ⟨turn, fetched⟩

/-- They talk until the size of the flash has been reported. These are the probe of the flash and
that of its size. -/
theorem camera_sized : ∃ turn, CameraAt (.sizing sampleCall cameraCenv) .execReturned sampleFiles
    turn := by
  obtain ⟨turn, fetched⟩ := camera_fetched
  have unlimited : turn.round.found.session.publicEnv.get "nor_size".toList = none :=
    fetched.settings _ (by simp)
  obtain ⟨turn, -, probing⟩ := fetched.executes (by simp [Point.shown]) (by simp) _ rfl
    fetched.files probeLines ["status".toList] (by decide) _ (probe_played _ _ _ _ unlimited)
  rw [current_env_same _ _ _ fetched.settings] at probing
  have status : turn.round.found.session.publicEnv.get "status".toList = some "0".toList := by
    have knows := probing.known.knows
    rw [Knows, probing.state] at knows
    exact knows.2.2
  obtain ⟨turn, -, sizing⟩ := probing.executes (by simp [Point.shown]) (by simp) _ rfl
    probing.files _ ["size".toList] (by decide) _
    (size_played _ _ _ _ _ status (probing.known.plain 0).loads)
  exact ⟨turn, sizing⟩

/-- They talk until the backup has been saved. These are an announcement, the upload of the flash
and the message that it was saved. What was uploaded is not looked at here. -/
theorem camera_saved : ∃ turn body, CameraAt (.saved cameraLocals) .execReturned (backedFiles body)
    turn := by
  obtain ⟨turn, sizing⟩ := camera_sized
  have size : turn.round.found.session.publicEnv.get "size".toList = some (Text.hex 0x800000) := by
    have knows := sizing.known.knows
    rw [Knows, sizing.state] at knows
    obtain ⟨number, sized, reported⟩ := knows
    rwa [camera_size cameraBeginning number rfl sized] at reported
  obtain ⟨turn, -, announced⟩ := sizing.executes (by simp [Point.shown]) (by simp) _ rfl sizing.files
    _ [] (by simp) _ (announce_played _ _ size)
  have whole : cameraLocals.norSize = ((0x800000 : Nat) : Int) := by
    rw [cameraLocals]
    decide
  obtain ⟨turn, body, -, backing⟩ := announced.sends (by simp [Point.shown]) (by simp)
    (downloadLines 0x800000) 0x800000 (by decide +kernel) _
    (download_played _ _ _ _ whole (announced.known.plain 0).loads)
  obtain ⟨turn, -, saved⟩ := backing.executes (by simp only [Point.shown]; decide +kernel) (by simp)
    { turn.round.found with files := backedFiles body } rfl rfl _ [] (by simp) _
    (save_played _ body backing.files)
  exact ⟨turn, body, saved⟩

/-- They talk until the environment has been put into the image. -/
theorem camera_patching : ∃ turn body, CameraAt (.patching cameraLocals installImage
    (installedEnv installDefaults)) .execReturned (backedFiles body) turn := by
  obtain ⟨turn, body, saved⟩ := camera_saved
  obtain ⟨turn, -, cached⟩ := saved.executes (by simp only [Point.shown]; decide +kernel) (by simp) _
    rfl saved.files _ [] (by simp) _ (fetch_played _ _ body saved.files)
  obtain ⟨turn, -, extracting⟩ := cached.executes (by simp [Point.shown]) (by simp) _ rfl cached.files
    _ [] (by simp) _ (read_played _ _ body cached.files)
  obtain ⟨turn, -, patching⟩ := extracting.executes (by simp only [Point.shown]; decide +kernel)
    (by simp) _ rfl extracting.files _ [] (by simp) _
    (extract_played _ _ patched_image.1 (extracting.known.plain 0).loads)
  exact ⟨turn, body, patching⟩

/-- The camera has 8 MiB of flash, and what is said of every conversation holds when the image
has been written: up to the script that writes it the flash is as it was, the size is the one that
the probe finds, the backup has been saved, and the flash holds the image. -/
theorem install_keeps_flash_sample : ∃ patching flashed : Turn Point Board,
    Begins sampleInstaller (sampleFlow cameraHardware scriptImage) sampleClient installRequest
      installParsed cameraBoard cameraBeginning ∧
    Relation.ReflTransGen CameraCalls cameraBeginning patching ∧ CameraCalls patching flashed ∧
    patching.state = .patching cameraLocals installImage (installedEnv installDefaults) ∧
    flashed.state = .flashed cameraLocals (installedEnv installDefaults) ∧
    patching.device.flash = cameraBoard.flash ∧
    Sized cameraHardware cameraBeginning 0x800000 ∧
    Saved sampleInstaller sampleAround (sampleFlow cameraHardware scriptImage) cameraBoard
      cameraBeginning flashed cameraLocals ∧
    Flashed sampleInstaller sampleAround (sampleFlow cameraHardware scriptImage) cameraBoard
      cameraBeginning flashed := by
  obtain ⟨patching, body, reached⟩ := camera_patching
  obtain ⟨-, written, -⟩ := patched_image
  obtain ⟨files, plays⟩ := flash_played patching.round.found .execReturned body patchedImage
    reached.files written (reached.known.plain 0).loads
  have shown : ∀ text ∈ (Point.patching cameraLocals installImage
      (installedEnv installDefaults)).shown sampleAround patching.round.found.session,
      Unescaped text := by
    simp only [Point.shown]
    decide +kernel
  obtain ⟨flashed, step, done⟩ := reached.executes shown (by simp)
    { patching.round.found with files := files } rfl rfl _ [] (by simp) _ plays
  have kept (turn : Turn Point Board) (run : Relation.ReflTransGen CameraCalls cameraBeginning turn) :=
    install_keeps_flash sampleInstaller sampleAround cameraHardware 0x42000000 scriptImage
      TestClient.isCommandChar ("10.0.0.2".toList, 1069) 5 installRequest installParsed sampleClient
      cameraBoard _ _ _ cameraBeginning turn camera_bench rfl rfl camera_begins run
  obtain ⟨unchanged, -, -⟩ := kept patching reached.run
  obtain ⟨-, holds, each⟩ := kept flashed done.run
  obtain ⟨sized, saved⟩ := each cameraLocals (by rw [done.state]; rfl)
  exact ⟨patching, flashed, camera_begins, reached.run, step, reached.state, done.state,
    unchanged (by rw [reached.state]; rfl), sized, saved, holds (by rw [done.state]; rfl)⟩

end Camera

end UbootTftp
