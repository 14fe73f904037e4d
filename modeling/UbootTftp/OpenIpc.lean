import UbootTftp.FlashImages
import UbootTftp.UbootScripts

/-!
# The installer of OpenIPC

`openipc_install` takes a camera from its own firmware to OpenIPC: it reads the camera's
environment, probes the flash, saves a backup, fetches the image, puts the camera's
settings into the environment of the image and writes the image to the flash.

The coroutine is a state machine: a state of `OpenIpc.Point` is an `await` at which it is
suspended with the local variables that it uses afterwards, and `OpenIpc.resume` is its code
from there on. What it takes from the machine besides the server is in `Surroundings`.
-/

namespace UbootTftp

universe u

section Helpers

variable {κ : Type u}

/-- `await tftp.exec(lines, final=final, keys=keys)`.

A request that the helper refuses raises here, before anything is awaited, so that an awaited
request carries the proof that it was built. -/
def Code.execute (lines : List Text) (final : Bool) (keys : List Text) (next : κ) : Code κ :=
  match made : exec (.lines lines) final keys with
  | .ok request => .await (.exec request ⟨.lines lines, final, keys, made⟩) next
  | .error raised => .raise raised

/-- `await tftp.exec_recv(lines, size)`, with the same proof about its request. -/
def Code.receive (lines : List Text) (size : Int) (next : κ) : Code κ :=
  match made : execRecv (.lines lines) size false [] none with
  | .ok request => .await (.execRecv request ⟨.lines lines, size, false, [], none, made⟩) next
  | .error raised => .raise raised

/-- Go on with a value, or let the exception leave the handler. -/
def Code.attempt {α : Type} (answer : Except Raised α) (next : α → Code κ) : Code κ :=
  match answer with
  | .ok value => next value
  | .error raised => .raise raised

/-- `tftp.rambase`. -/
def rambaseOf (session : ClientSession κ) : Except Raised Text :=
  (lookupEnv session.env "rambase".toList).map expansion

end Helpers

/-- `quote` of `urllib.parse`: UTF-8 octets other than letters, digits, slashes and `_.-~`
are escaped. -/
def urlQuote (text : Text) : Text :=
  (Utf8.encode text).flatMap fun octet =>
    let character := Char.ofNat octet.toNat
    if character.isAlphanum || character ∈ ['_', '.', '-', '~', '/'] then [character]
    else '%' :: [Nat.digitChar (octet.toNat / 16), Nat.digitChar (octet.toNat % 16)].map Char.toUpper

/-- `Path(text).name`. -/
def pathName (text : Text) : Text := (pathParts text).getLastD []

/-- `str` of an absolute path. -/
def pathText (path : Path) : Text := joinPath path

namespace OpenIpc

/-- What the installer takes from its libraries and from the machine. None of it is constrained but
the form of the stamp, which goes into a file name. -/
structure Surroundings where
  codecs : Codecs
  /-- `repr` of a text. -/
  repr : Text → Text
  /-- The message of an exception of the environment functions. -/
  message : EnvError → Text
  /-- The time at which the backup is named, as `%Y%m%d-%H%M%S`. -/
  stamp : Text
  stamp_plain : ∀ character ∈ stamp, character.isDigit = true ∨ character = '-'
  /-- The random bytes of a new hardware address. -/
  randomBytes : List UInt8
  /-- The numbers that the installer draws from the counter of temporary variables. -/
  counter : Nat → Nat

/-- What the installer is called with. -/
structure Invocation where
  root : Path
  ident : Text
  cmd : Text

/-- The local variables from the backup on. They are set once, when the checks have passed, and
handed on unchanged from there. -/
structure Locals where
  root : Path
  ident : Text
  cenv : Env
  norSize : Int
  fw : Text
  vendor : Text
  soc : Text

/-- Where the installer is suspended.

Each constructor carries the local variables that the code behind its `await` still reads. A helper
that awaits in a loop has one point for all turns. -/
inductive Point
  | started (call : Invocation)
  | exported (call : Invocation)
  | uploading (call : Invocation)
  | fetched (call : Invocation) (cenv : Env)
  | probing (call : Invocation) (cenv : Env) (maxSize : Int)
  | sizing (call : Invocation) (cenv : Env)
  | announced (locals : Locals)
  | backingUp (locals : Locals)
  | saved (locals : Locals)
  | cached (locals : Locals)
  | downloading (locals : Locals)
  | polled (locals : Locals) (state : ArtifactState)
  | extracting (locals : Locals) (binary : Bytes)
  | patching (locals : Locals) (binary : Bytes) (newEnv : Env)
  | flashed (locals : Locals) (newEnv : Env)
  | readdressed (locals : Locals)
  | reported
  | counting (step : Nat)
  | stopped

/-- A plain message. -/
def message (msg : Text) : Text := ubootMsg msg .green false true

/-- A bold message. -/
def boldMessage (msg : Text) : Text := ubootMsg msg .green true true

/-- A bold message that is continued on its line. -/
def openMessage (msg : Text) : Text := ubootMsg msg .green true false

/-- `dict.setdefault` without its result. -/
def setDefault (env : Env) (key value : Text) : Env :=
  if env.get key = none then env.set key value else env

/-- `env.update` with the listed keys of another environment that are present in it. -/
def overrideKeys (env other : Env) (keys : List Text) : Env :=
  env.update (keys.filterMap (fun key => (other.get key).map (fun value => (key, value))))

/-- `_parse_max_size`. Without the variable it is 128 MiB, and a number with an `m` of either case
behind it counts MiB. Anything that is no number gives none. -/
def parseMaxSize : Option Text → Option Int
  | none => some (128 * 2 ^ 20)
  | some maxSize =>
    let text := Text.strip maxSize
    if text.getLast? = some 'm' ∨ text.getLast? = some 'M' then
      (Text.parseInteger 0 text.dropLast).map (fun number => number * 2 ^ 20)
    else Text.parseInteger 0 text

/-- `int(nor_size / 2**20)`. The quotient is exact where it matters: a rounded one is far
beyond the supported sizes. -/
def norSizeMb (norSize : Int) : Int := norSize.tdiv (2 ^ 20)

/-- Whether `nor_size / 2**20` is too large for a float. The bound is the first number that is no
longer rounded to the largest float. -/
def quotientOverflows (norSize : Int) : Bool :=
  decide ((2 ^ 1024 - 2 ^ 970) * 2 ^ 20 ≤ norSize.natAbs)

/-- `f"{size / 1024:.1f}"`, rounded half to even. -/
def kibibytes (size : Nat) : Text :=
  let tenths := 10 * size / 1024
  let rest := 10 * size % 1024
  let rounded := if 512 < rest ∨ rest = 512 ∧ tenths % 2 = 1 then tenths + 1 else tenths
  Text.decimal (rounded / 10) ++ '.' :: Text.decimal (rounded % 10)

/-- `_download_progress_lines`. -/
def downloadProgressLines (artifact : DownloadArtifact) : List Text :=
  ubootStatus (kibibytes artifact.bytesDone ++ " kB".toList) .green false ::
    (if artifact.state = .done then [ubootStatusComplete] else [])

/-- `trunc` with its default suffix. -/
def trunc (text : Text) (maxLen : Nat) : Text :=
  if text.length ≤ maxLen then text
  else if maxLen ≤ 3 then "...".toList.take maxLen
  else text.take (maxLen - 3) ++ "...".toList

/-- `build_runcmd` without arguments. -/
def buildRuncmd (cmd : Text) : Text := "cmd=".toList ++ cmd ++ "; ; run bootstrap".toList

/-- Two hexadecimal digits of a byte. -/
def hexByte (octet : UInt8) : Text :=
  [Nat.digitChar (octet.toNat / 16), Nat.digitChar (octet.toNat % 16)]

/-- `gen_mac`: a random local address in the place of the two that cameras share. Any other address
is kept. -/
def genMac (randomBytes : List UInt8) (mac : Text) : Text :=
  if mac ∈ ["00:00:23:34:45:66".toList, "00:00:00:00:00:00".toList] then
    List.intercalate [':'] ((0x02 :: randomBytes).map hexByte)
  else mac

/-- `f"{text:<10}"`. -/
def padded (text : Text) : Text := text ++ List.replicate (10 - text.length) ' '

/-- `${serverip}:id=${hostname}/${cmd}/${args}`. -/
def bootstrapRequest : Text :=
  expansion "serverip".toList ++ ":id=".toList ++ expansion "hostname".toList ++
    '/' :: expansion "cmd".toList ++ '/' :: expansion "args".toList

/-- The variables that the installer adds to the environment of the image. They come in this order,
and each of them replaces a variable of the same name. -/
def mergedVariables (ident ethaddr rambase : Text) : List (Text × Text) :=
  [("ethaddr".toList, ethaddr),
    ("bootp_vci".toList, "uboot.".toList ++ ident),
    ("hostname".toList, ident),
    ("install".toList, buildRuncmd "install".toList),
    ("backup".toList, buildRuncmd "backup".toList),
    ("probe_nor".toList, buildRuncmd "probe".toList),
    ("bootstrap".toList, List.intercalate "; ".toList
      ["run netinit".toList,
        "if tftpboot ".toList ++ rambase ++ ' ' :: bootstrapRequest,
        "then source ".toList ++ rambase,
        "else echo \"TFTP request failed: is TFTP server running?\"".toList,
        "fi".toList]),
    ("netinit".toList, List.intercalate "; ".toList
      ["if test \"".toList ++ expansion "ip".toList ++
          "\" = \"static\" || test -n \"$netdone\" && test \"$netdone\" -eq 1".toList,
        "then echo \"Networking OK\"".toList,
        "else setenv autoload no".toList,
        "dhcp".toList,
        "netdone=1".toList,
        "fi".toList])]

/-- The variables that the camera keeps. -/
def keptKeys : List Text :=
  ["ipaddr".toList, "netmask".toList, "gatewayip".toList, "dnsip".toList, "serverip".toList,
    "fw".toList, "ip".toList]

/-- `openipc_patch_env`: the environment of the image with both kinds of variables. The variables
that the camera keeps come last, and those that it does not have are left as the image has them. -/
def patchedEnv (oldEnv newEnv : Env) (merged : List (Text × Text)) : Env :=
  overrideKeys (newEnv.update merged) oldEnv keptKeys

/-- A line about one variable. -/
def variableLine (mark : Text) (entry : Text × Text) : Text :=
  message (mark ++ "  ".toList ++ padded entry.1 ++ " = ".toList ++ trunc entry.2 20)

/-- `openipc_patch_env`: the lines that tell the user what was patched, first the variables that the
installer adds and then those that the camera keeps. -/
def patchedLines (oldEnv newEnv : Env) (merged : List (Text × Text)) : List Text :=
  merged.map (variableLine ['+']) ++
    (keptKeys.filterMap (fun key => if oldEnv.get key = none then none
      else (newEnv.get key).map (fun value => (key, value)))).map (variableLine ['>'])

/-- The firmware that can be installed. -/
def supportedFirmware : List Text := ["lite".toList, "ultimate".toList]

/-- The complaint about any other firmware interpolates a name that `check_install_args` does not
have: its evaluation raises, and no script shows it. -/
def undefinedFw : Raised :=
  .byHandler (.other "NameError".toList) "name 'fw' is not defined".toList

/-- `check_install_args`. The last line was meant to name the server, the client and the
command; its braces are not those of a format string. -/
def checkInstallArgs (cmdtftp rambase : Except Raised Text) (env : Env) :
    Except Raised (List Text) := do
  let fw ← lookupEnv env "fw".toList
  let script :=
    (if env.get "vendor".toList = none then [ubootErr "Must pass vendor=name".toList] else []) ++
    (if env.get "soc".toList = none then [ubootErr "Must pass soc=name".toList] else [])
  if fw ∉ supportedFirmware then .error undefinedFw
  else if script = [] then .ok []
  else do
    let cmdtftp ← cmdtftp
    let rambase ← rambase
    .ok (script ++ [ubootErr ("ie: ".toList ++ cmdtftp ++ ' ' :: rambase ++ ' ' ::
      ("\x7btftp.server_ip\x7d:id=\x7bident\x7d/\x7bcmd\x7d/vendor=goke/soc=gk7205v300/fw=lite; " ++
        "source \x7btftp.rambase\x7d").toList)])

namespace Locals

/-- The file name of the image. -/
def imageName (locals : Locals) : Text :=
  "install/openipc-".toList ++ locals.soc ++ '-' :: locals.fw ++
    '-' :: Text.decimal (norSizeMb locals.norSize).toNat ++ "mb.bin".toList

/-- The file name of the backup. -/
def backupFilename (around : Surroundings) (locals : Locals) : Text :=
  "install-backup-".toList ++ locals.ident ++ '-' :: locals.soc ++
    '-' :: Text.decimal (norSizeMb locals.norSize).toNat ++ "mb-".toList ++ around.stamp ++
    ".bin".toList

/-- The file that the backup is written to. -/
def backupFile (around : Surroundings) (locals : Locals) : Text :=
  "backup/".toList ++ locals.backupFilename around

/-- The file that the patched image is written to. -/
def patchedFile (locals : Locals) : Text :=
  "patched/".toList ++ locals.ident ++ '-' :: pathName locals.imageName

/-- The page that the image is offered on. -/
def pageUrl (locals : Locals) : Text :=
  "https://openipc.org/cameras/vendors/".toList ++ urlQuote locals.vendor ++ "/socs/".toList ++
    urlQuote locals.soc

/-- The address of the image. -/
def downloadUrl (locals : Locals) : Text :=
  locals.pageUrl ++ "/download_full_image?flash_size=".toList ++
    Text.decimal (norSizeMb locals.norSize).toNat ++ "&flash_type=nor&fw_release=".toList ++
    urlQuote locals.fw

end Locals

section Stretches

variable (around : Surroundings)

/-- `ValueError` of `int`. -/
def notANumber (text : Text) : Raised :=
  .byHandler .valueError ("invalid literal for int() with base 0: ".toList ++ around.repr text)

/-- `fetch_env` up to the export. -/
def exportEnv (call : Invocation) : Code Point :=
  .inspect fun session =>
    Code.attempt (rambaseOf session) fun rambase =>
      Code.execute ["env export -t ".toList ++ rambase] false ["filesize".toList] (.exported call)

/-- `fetch_env` from the export to the upload. The reported length is hexadecimal. A camera that
reports none, or something else, ends the handler with an error. -/
def uploadEnv (call : Invocation) : Code Point :=
  .inspect fun session =>
    match session.publicEnv.get "filesize".toList with
    | none => .raise (.byHandler .valueError
        "missing 'filesize' after environment export".toList)
    | some sizeText =>
      match Text.parseInteger 16 (Text.strip sizeText) with
      | none => .raise (.byHandler .valueError
          ("invalid 'filesize' value: ".toList ++ around.repr sizeText))
      | some size =>
        Code.receive [openMessage "Fetching current uboot environment... ".toList] size
          (.uploading call)

/-- The environment has arrived. -/
def acceptEnv (call : Invocation) (body : Bytes) : Code Point :=
  Code.execute [message "OK".toList] false [] (.fetched call (ubootenvParseExport body))

/-- The environment of the camera, overridden by the request, with the defaults. The size
that is entered as missing is never read. -/
def currentEnv (cenv tftpEnv : Env) : Env :=
  let merged := overrideKeys cenv tftpEnv
    ["nor_size".toList, "fw".toList, "vendor".toList, "soc".toList]
  setDefault (setDefault merged "fw".toList "lite".toList) "ip".toList "dhcp".toList

/-- From the environment to the probe for a flash. The limit is looked up first, so that a limit
that is no number raises before anything is sent. -/
def probeFlash (call : Invocation) (cenv : Env) : Code Point :=
  .inspect fun session =>
    match parseMaxSize (session.publicEnv.get "nor_size".toList) with
    | none => .raise (notANumber around ((session.publicEnv.get "nor_size".toList).getD []))
    | some maxSize =>
      Code.execute [openMessage "Probing NOR flash... ".toList, "sf probe 0".toList,
        "setenv status $?".toList] false ["status".toList]
        (.probing call (currentEnv cenv session.publicEnv) maxSize)

/-- What the installer finds wrong with the flash. The message for a flash that is too small
for the firmware is added to a variable that does not exist. -/
def checkFlash (norSize : Int) (cenv : Env) : Except Raised (List Text) :=
  if norSize = 0 then .ok [ubootErr "NOR flash not detected! Aborting...".toList]
  else if norSizeMb norSize ∉ [8, 16] then
    .ok [ubootErr "Only 8M or 16M NOR flash supported.".toList]
  else if norSizeMb norSize < 16 ∧ cenv.get "fw".toList = some "ultimate".toList then
    .error (.byHandler (.other "UnboundLocalError".toList)
      "cannot access local variable 'msg' where it is not associated with a value".toList)
  else .ok []

/-- From the size of the flash to the announcement of the backup. The arguments are checked before
the flash, so an unknown firmware raises before anything is said about the flash. -/
def checkInstall (call : Invocation) (cenv : Env) (norSize : Int) (session : ClientSession Point) :
    Code Point :=
  if quotientOverflows norSize then
    .raise (.byHandler (.other "OverflowError".toList)
      "integer division result too large for a float".toList)
  else
    Code.attempt (checkInstallArgs (lookupEnv session.env "cmdtftp".toList) (rambaseOf session) cenv)
      fun args =>
    Code.attempt (checkFlash norSize cenv) fun flash =>
    if args ++ flash ≠ [] then Code.execute (args ++ flash) true [] .stopped
    else
      Code.attempt (lookupEnv cenv "fw".toList) fun fw =>
      Code.attempt (lookupEnv cenv "vendor".toList) fun vendor =>
      Code.attempt (lookupEnv cenv "soc".toList) fun soc =>
      Code.execute [boldMessage "Backing up NOR flash.".toList] false []
        (.announced ⟨call.root, call.ident, cenv, norSize, fw, vendor, soc⟩)

/-- From the probe for a flash to that of its size. A failed probe goes to the checks with a size of
zero, which makes them complain about the flash. -/
def probeSize (call : Invocation) (cenv : Env) (maxSize : Int) : Code Point :=
  .inspect fun session =>
    Code.attempt (lookupEnv session.publicEnv "status".toList) fun status =>
      if status = "1".toList then checkInstall call cenv 0 session
      else
        Code.attempt (rambaseOf session) fun rambase =>
          Code.execute (ubootNorGenProbe rambase (2 ^ 20) maxSize 0 0 none (by decide) ++
            [message (expansion "size".toList)]) false ["size".toList] (.sizing call cenv)

/-- The size has been reported. A report that is no number raises. -/
def acceptSize (call : Invocation) (cenv : Env) : Code Point :=
  .inspect fun session =>
    Code.attempt (lookupEnv session.publicEnv "size".toList) fun size =>
      match Text.parseInteger 0 size with
      | none => .raise (notANumber around size)
      | some norSize => checkInstall call cenv norSize session

/-- `uboot_nor_download` up to the upload. The memory is filled before the flash is read over it, so
that what the flash does not cover is known. -/
def downloadFlash (locals : Locals) : Code Point :=
  .inspect fun session =>
    Code.attempt (rambaseOf session) fun rambase =>
      Code.receive
        [openMessage "Copying NOR to RAM... ".toList,
          ubootMemset rambase (around.counter 0) (.int 0) (.int 0xFF) (.int locals.norSize) none,
          ubootNorRead rambase (around.counter 1) (.int 0) (.int 0) (.int locals.norSize) none,
          message "OK".toList, boldMessage "Downloading backup via TFTP...".toList]
        locals.norSize (.backingUp locals)

/-- `openipc_nor_backup` from the upload on. The length of what was received is not compared with
the size of the flash. -/
def saveBackup (locals : Locals) (body : Bytes) : Code Point :=
  .writeFile (locals.backupFile around) body fun written =>
    Code.attempt written fun _ =>
      Code.execute [message ("  Saved backup as ".toList ++ locals.backupFile around)] false []
        (.saved locals)

/-- `uboot_download_url` up to its first suspension. Its addresses can always be parsed. -/
def downloadImage (locals : Locals) : Code Point :=
  .fileExists locals.imageName fun found =>
    Code.attempt found fun found =>
      if found then
        Code.execute [boldMessage ("Using cached download: ".toList ++ locals.imageName)] false []
          (.cached locals)
      else
        .acquireDownload locals.downloadUrl locals.downloadUrl locals.imageName
          (some locals.pageUrl) none fun acquired =>
          Code.attempt acquired fun _ =>
            Code.execute [openMessage ("Downloading ".toList ++ locals.imageName ++ ": ".toList)]
              false [] (.downloading locals)

/-- One turn of the loop of `uboot_download_url`. A download that is not over is polled again by the
next request of the camera. -/
def pollDownload (locals : Locals) : Code Point :=
  .getDownload locals.downloadUrl fun polled =>
    Code.attempt polled fun artifact =>
      Code.execute (downloadProgressLines artifact) false []
        (.polled locals artifact.state)

/-- The image is at hand, unless it is empty. -/
def readImage (locals : Locals) : Code Point :=
  .readFile locals.imageName fun read =>
    Code.attempt read fun binary =>
      if binary = [] then .finish
      else
        Code.execute [openMessage "Extracting uboot env from image... ".toList] false []
          (.extracting locals binary)

/-- The state of the download has been shown. The message about a failed download is built
with a function that the module does not import. -/
def afterPoll (locals : Locals) (state : ArtifactState) : Code Point :=
  match state with
  | .done => readImage locals
  | .failed => .raise (.byHandler (.other "NameError".toList)
      "name 'uboot_err' is not defined".toList)
  | .pending => pollDownload locals

/-- The environment of the image is extracted and patched. The message about an image
without one is built with an argument that does not exist. -/
def patchEnv (locals : Locals) (binary : Bytes) : Code Point :=
  match ubootenvExtract around.codecs binary .inferred with
  | .error _ => .raise (.byHandler .typeError
      "uboot_err() got an unexpected keyword argument 'final'".toList)
  | .ok newEnv =>
    .inspect fun session =>
      Code.attempt (lookupEnv locals.cenv "ethaddr".toList) fun ethaddr =>
      Code.attempt (rambaseOf session) fun rambase =>
        let merged := mergedVariables locals.ident (genMac around.randomBytes ethaddr) rambase
        let patched := patchedEnv locals.cenv newEnv merged
        Code.execute ([message "OK".toList, boldMessage "Patched env variables:".toList] ++
          patchedLines locals.cenv patched merged) false [] (.patching locals binary patched)

/-- `openipc_nor_restore`. -/
def restoreLines (rambase serverIp filename : Text) (size : Nat) : List Text :=
  [openMessage ("Uploading ".toList ++ pathName filename ++ "... ".toList),
    ubootFetchStatic rambase serverIp (around.counter 2) filename (some (.int 1024)) none,
    message "OK".toList,
    openMessage "Erasing flash... ".toList,
    ubootNorErase (.int 0) (.int size),
    message "OK".toList,
    openMessage "Writing flash... ".toList,
    ubootNorWrite rambase (around.counter 3) (.int 0) (.int 1024) (.int size) none,
    message "OK".toList]

/-- The image is patched, stored and written to the flash. The patched image is stored as a file
first, since the camera fetches it from the server; its length is what is erased and written. -/
def flashImage (locals : Locals) (binary : Bytes) (newEnv : Env) : Code Point :=
  match ubootenvPatch around.codecs binary newEnv .inferred none 0xFF utf8 with
  | .error raised => .raise (.byHandler .valueError (around.message raised))
  | .ok patchedBin =>
    .writeFile locals.patchedFile patchedBin fun written =>
      Code.attempt written fun _ =>
        .inspect fun session =>
          Code.attempt (rambaseOf session) fun rambase =>
            Code.execute (restoreLines around rambase session.serverIp locals.patchedFile
              patchedBin.length) false [] (.flashed locals newEnv)

/-- The final messages. The address is the one that the camera has reported last, if it has reported
any. -/
def report (locals : Locals) : Code Point :=
  .inspect fun session =>
    let cenv := overrideKeys locals.cenv session.publicEnv
      ["ipaddr".toList, "netmask".toList, "gatewayip".toList]
    Code.attempt (lookupEnv cenv "ipaddr".toList) fun ipaddr =>
      Code.execute
        [message [], boldMessage ("Install finished for ".toList ++ locals.ident),
          message "------------------------------".toList,
          message ("Flash backup: ".toList ++ pathText locals.root ++
            '/' :: locals.backupFilename around),
          message ("Web UI: http://".toList ++ ipaddr ++ ['/']),
          message ("SSH: ssh root@".toList ++ ipaddr ++ " (password: 12345)".toList),
          message "Support OpenIPC: https://opencollective.com/openipc/contribute".toList,
          message []] false [] .reported

/-- A camera with a new hardware address asks for a new network address. An address that is fixed in
the camera's environment is left alone, and so is one whose hardware address has not changed. -/
def readdress (locals : Locals) (newEnv : Env) : Code Point :=
  Code.attempt (lookupEnv newEnv "ip".toList) fun ip =>
  Code.attempt (lookupEnv newEnv "ethaddr".toList) fun ethaddr =>
  Code.attempt (lookupEnv locals.cenv "ethaddr".toList) fun oldEthaddr =>
    if ip ≠ "static".toList ∧ ethaddr ≠ oldEthaddr then
      Code.execute
        [message ("Getting new IP with ethaddr=".toList ++ ethaddr ++ "...".toList),
          "setenv ethaddr ".toList ++ ethaddr, "setenv autoload no".toList, "dhcp".toList,
          message ("Success: ip=".toList ++ expansion "ipaddr".toList ++ " mask=".toList ++
            expansion "netmask".toList ++ " gateway=".toList ++ expansion "gatewayip".toList)]
        false ["ipaddr".toList, "netmask".toList, "gatewayip".toList] (.readdressed locals)
    else report around locals

/-- `uboot_exec_delay` from one of its ten steps on. Each step is a script of its own, to which the
camera answers with its next request; the last one resets the camera and ends the session. -/
def countDown (step : Nat) : Code Point :=
  if step < 10 then
    Code.execute
      ((if step = 0 then [ubootMsg "Rebooting in 10 seconds".toList .white false true,
        ubootMsg "Enter Ctrl+C to cancel...".toList .white false true] else []) ++
        [ubootProgress step 10 .white false]) false [] (.counting (step + 1))
  else
    Code.execute [ubootMsg "Rebooting...".toList .white false true, "reset".toList] true [] .stopped

/-- `openipc_install` from a suspension to the next one. A point at which an upload is awaited goes
on with what was received; a resumption of another kind does not occur there and raises. -/
def resume : Point → Resumption → Code Point
  | .started call, _ => exportEnv call
  | .exported call, _ => uploadEnv around call
  | .uploading call, .received body => acceptEnv call body
  | .uploading _, _ => .raise .uploadExpected
  | .fetched call cenv, _ => probeFlash around call cenv
  | .probing call cenv maxSize, _ => probeSize call cenv maxSize
  | .sizing call cenv, _ => acceptSize around call cenv
  | .announced locals, _ => downloadFlash around locals
  | .backingUp locals, .received body => saveBackup around locals body
  | .backingUp _, _ => .raise .uploadExpected
  | .saved locals, _ => downloadImage locals
  | .cached locals, _ => readImage locals
  | .downloading locals, _ => pollDownload locals
  | .polled locals state, _ => afterPoll locals state
  | .extracting locals binary, _ => patchEnv around locals binary
  | .patching locals binary newEnv, _ => flashImage around locals binary newEnv
  | .flashed locals newEnv, _ => readdress around locals newEnv
  | .readdressed locals, _ => report around locals
  | .reported, _ => countDown 0
  | .counting step, _ => countDown step
  | .stopped, _ => .finish

end Stretches

/-- `openipc_install` as an entry function. -/
def install : EntryPoint Point :=
  .async fun arguments => .started ⟨arguments.root, arguments.ident, arguments.cmd⟩

end OpenIpc

end UbootTftp
