import UbootTftp.BoardRequests

/-!
# Installing on a board

A conversation of the installer with a board. The board keeps its flash until the script that
writes the image is sent to it; by then the size that the probe has found is known, and the bytes
of the flash up to that size have been written to a file of the server.

What is taken for the environment of the board is another matter: its export stands at the load
address, and the image of the next script is loaded over it before it is sent.
-/

namespace UbootTftp

open OpenIpc
open Overlays (replaced window)
open TestClient (FlowClient Reports Returns Turn Calls Begins PlainSession Word recvName)

/-- The variables that the scripts of the installer set. -/
def installKeys : List Text :=
  ["filesize".toList, "status".toList, "size".toList, "ethaddr".toList, "autoload".toList, hushKey]

/-- A board that a server can install on: its load address is a variable of its own, its flash can
be found, and the settings of the server are plain.

These are conditions on the configuration, the board and the tokens; nothing is said of what the
installer does. -/
structure Bench (provider : Provider Point) (hardware : Hardware) (base : Nat)
    (opening : ContentRequest) (parsed : ParsedPath) (client : ClientId) (first : Board)
    (cmdtftp cmdtftpput rambase : Text) : Prop where
  urlSafe : provider.host.UrlSafe
  named : ∀ draw, ∀ character ∈ provider.host.hexToken draw,
    TestClient.isCommandChar character = true
  plain : ∀ draw, PlainSession
    (openedSession provider opening parsed client (provider.host.token draw))
    (provider.host.token draw) cmdtftp cmdtftpput rambase
  loose : Loose rambase
  apart : rambase ∉ installKeys
  fetches : cmdtftp ∉ ["echo".toList, "true".toList]
  sends : cmdtftpput ∉ ["echo".toList, "true".toList]
  ready : Ready first rambase base
  bounded : base + 1024 < 2 ^ hardware.wordSize
  present : hardware.capacity ≠ 0

/-- What the installer needs of a turn: no text that it shows holds a backslash, and an image that
it writes is handed out and fits the flash in whole sectors. A turn at another point satisfies the
second part by itself. -/
structure Suits (around : Surroundings) (hardware : Hardware) (turn : Turn Point Board) : Prop where
  shown : ∀ text ∈ turn.state.shown around turn.round.found.session, Unescaped text
  image : ∀ locals binary newEnv patched, turn.state = .patching locals binary newEnv →
    ubootenvPatch around.codecs binary newEnv .inferred none 0xFF utf8 = .ok patched →
      Operation.Served hardware turn.round.found.session.serverIp locals.patchedFile patched ∧
        patched.length ≤ hardware.capacity ∧ hardware.sector ∣ patched.length

section Knowledge

variable (provider : Provider Point) (around : Surroundings) (hardware : Hardware)
  (flow : FlowClient Board) (first : Board) (base : Nat) (image : Text → Bytes)
  (beginning turn : Turn Point Board) (cmdtftp cmdtftpput rambase : Text)

/-- A turn that has led to another one of the same conversation, or is the same. -/
def Precedes (earlier : Turn Point Board) : Prop :=
  Relation.ReflTransGen (Calls provider flow) beginning earlier ∧
    Relation.ReflTransGen (Calls provider flow) earlier turn

/-- The limit for the size of the flash that the request has set. -/
def limit : Option Int :=
  parseMaxSize (beginning.round.found.session.publicEnv.get "nor_size".toList)

/-- The size of the flash is the one that the probe finds for its capacity, within the limit. It
need not be the capacity: the probe doubles the size until a read fails. -/
def Sized (norSize : Int) : Prop :=
  ∃ maxSize, limit beginning = some maxSize ∧
    ProbeFinds (2 ^ 20) maxSize 0 hardware.capacity 0 norSize

/-- The flash has been written to the file of the backup. The bytes are those that the board began
with, not those that it has now. -/
def Saved (locals : Locals) : Prop :=
  ∃ earlier, Precedes provider flow beginning turn earlier ∧ earlier.state = .backingUp locals ∧
    (provider.play earlier.state earlier.round).1.files.contents
      (locals.backupTarget around provider.host) =
        some (window 0 locals.norSize.toNat first.flash)

/-- The flash holds an image that has been patched after the backup, at its beginning; the rest is
as it was at first. -/
def Flashed : Prop :=
  ∃ earlier locals binary newEnv patched, Precedes provider flow beginning turn earlier ∧
    earlier.state = .patching locals binary newEnv ∧
    Saved provider around flow first beginning earlier locals ∧
    ubootenvPatch around.codecs binary newEnv .inferred none 0xFF utf8 = .ok patched ∧
    turn.device.flash = replaced 0 patched.length (fun place => patched.getD place 0) first.flash

/-- A script that is made of a request. -/
def Made (request : ExecutionRequest) (script : Text) : Prop :=
  ∃ (session : ClientSession Point) (token tmpName text : Text),
    PlainSession session token cmdtftp cmdtftpput rambase ∧
      sentScript token tmpName session request = .ok text ∧ script = ensureNewline text

/-- The request that exports the variables. -/
def exportRequest : ExecutionRequest :=
  spoken ["env export -t ".toList ++ expansion rambase] ["filesize".toList]

/-- The request that sends them. -/
def sendRequest (size : Int) : ExecutionRequest :=
  received [openMessage "Fetching current uboot environment... ".toList] size

/-- The bytes that are fetched for an environment: the export of the variables, on whose beginning
the image of the script that sends it has been loaded. -/
def Fetched (body : Bytes) : Prop :=
  ∃ exporting sending exported,
    Made cmdtftp cmdtftpput rambase (exportRequest rambase) exporting ∧
    exported = (beginning.device.load base (image exporting)).exported ∧
    Made cmdtftp cmdtftpput rambase (sendRequest exported.length) sending ∧
    body = Overlays.covered exported (image sending)

/-- What is known at single points of the installer, from the export of the variables to the reading
of what was fetched. It leads up to one result only and says nothing at all other points. -/
def Knows : Prop :=
  match turn.state with
  | .started _ => turn = beginning
  | .exported _ => ∃ exporting exported cells,
      Made cmdtftp cmdtftpput rambase (exportRequest rambase) exporting ∧
      exported = (beginning.device.load base (image exporting)).exported ∧
      turn.device.memory =
        replaced base exported.length (fun place => exported.getD place 0) cells ∧
      turn.round.found.session.publicEnv.get "filesize".toList =
        some (Nat.toDigits 16 exported.length)
  | .uploading _ => ∀ body, turn.round.resumption = .received body →
      Fetched base image beginning cmdtftp cmdtftpput rambase body
  | .fetched _ cenv => ∃ body, Fetched base image beginning cmdtftp cmdtftpput rambase body ∧
      cenv = ubootenvParseExport body
  | .probing _ _ maxSize => turn.device.probed = true ∧ limit beginning = some maxSize ∧
      turn.round.found.session.publicEnv.get "status".toList = some "0".toList
  | .sizing _ _ => ∃ number : Nat, Sized hardware beginning number ∧
      turn.round.found.session.publicEnv.get "size".toList = some (Text.hex number)
  | .backingUp locals => ∀ body, turn.round.resumption = .received body →
      body = window 0 locals.norSize.toNat first.flash
  | .patching locals _ newEnv | .flashed locals newEnv => ∃ ethaddr,
      locals.cenv.get "ethaddr".toList = some ethaddr ∧
        newEnv.get "ethaddr".toList = some (genMac around.randomBytes ethaddr)
  | _ => True

/-- What holds of a turn of a conversation with a board. It is the invariant of the conversation:
the flash is kept until the image is written, and each kind of point has its own part of the
history. -/
structure OnBoard : Prop where
  run : Relation.ReflTransGen (Calls provider flow) beginning turn
  plain : ∀ draw, PlainSession turn.round.found.session (provider.host.token draw) cmdtftp cmdtftpput
    rambase
  limited : turn.round.found.session.publicEnv.get "nor_size".toList =
    beginning.round.found.session.publicEnv.get "nor_size".toList
  ready : Ready turn.device rambase base
  flash : turn.state.done = false → turn.device.flash = first.flash
  probed : ∀ locals, turn.state.probed = some locals →
    Sized hardware beginning locals.norSize ∧ norSizeMb locals.norSize ∈ [8, 16] ∧
      locals.fw ∈ supportedFirmware
  saving : ∀ locals, turn.state.saving = some locals →
    Saved provider around flow first beginning turn locals
  done : turn.state.done = true → Flashed provider around flow first beginning turn
  knows : Knows around hardware first base image beginning turn cmdtftp cmdtftpput rambase

end Knowledge

section Turns

variable {provider : Provider Point} {around : Surroundings} {hardware : Hardware} {base : Nat}
  {image : Text → Bytes} {isWord : Char → Bool} {peer : Text × Nat} {rounds : Nat}
  {opening : ContentRequest} {parsed : ParsedPath} {client : ClientId} {first : Board}
  {cmdtftp cmdtftpput rambase : Text} {beginning turn next : Turn Point Board}

/-- A call of the installer, with the script that is made of it, the session that it leaves and the
names that were drawn for it. -/
structure Errand where
  request : ExecutionRequest
  left : ClientSession Point
  awaited : Awaited
  token : Text
  tmpName : Text
  text : Text

/-- A call leads a board from one turn to the next. Here meet what the server has sent, what the
board has made of it and what it reports. -/
structure Errand.Leads (hardware : Hardware) (base : Nat) (image : Text → Bytes)
    (flow : FlowClient Board) (cmdtftp cmdtftpput rambase : Text) (turn next : Turn Point Board)
    (errand : Errand) : Prop where
  plain : PlainSession errand.left errand.token cmdtftp cmdtftpput rambase
  server : errand.left.serverIp = turn.round.found.session.serverIp
  fresh : Word errand.tmpName
  temporary : Temporary errand.tmpName
  written : sentScript errand.token errand.tmpName errand.left errand.request = .ok errand.text
  reports : ∀ key ∈ errand.request.returnKeys,
    next.round.found.session.publicEnv.get key = some (next.device.report key)
  returns : Returns flow next.device (ensureNewline errand.text) errand.awaited next.round.resumption
  instructs : errand.awaited.instruction = some errand.request
  updated : next.device = ((turn.device.load base (image (ensureNewline errand.text))).source hardware
    (ensureNewline errand.text)).state.store

/-- The names of uploads are words that can be thrown away. -/
theorem recv_name_fresh (host : Host)
    (named : ∀ draw, ∀ character ∈ host.hexToken draw, TestClient.isCommandChar character = true)
    (name : Nat) : Word (recvName host name) ∧ Temporary (recvName host name) := by
  have front : "__uboot_tftp_recv_".toList.all TestClient.isCommandChar = true := by decide
  constructor
  · exact ⟨List.append_ne_nil_of_left_ne_nil (by decide) _,
      List.forall_mem_append.mpr ⟨List.all_eq_true.mp front, named name⟩⟩
  · have marked : "__uboot_tftp_".toList <+: "__uboot_tftp_recv_".toList := by decide +kernel
    exact marked.trans (List.prefix_append _ _)

/-- The installer asks for words that are not settings of the server. Nor does it ask for the size
of the flash under the name that the session uses for its limit, so what the camera reports never
changes that limit. -/
theorem asks_keys {found : ClientSession Point} {point after : Point} {resumption : Resumption}
    {request : ExecutionRequest}
    (asks : Asks around found rambase point resumption request after) :
    ∀ key ∈ request.returnKeys, key ∉ hiddenKeys ∧ key ≠ "nor_size".toList := by
  have listed : ∀ key ∈ ["filesize".toList, "status".toList, "size".toList, "ipaddr".toList,
      "netmask".toList, "gatewayip".toList], key ∉ hiddenKeys ∧ key ≠ "nor_size".toList := by
    decide +kernel
  intro key member
  apply listed key
  cases asks with
  | shows | uploads | downloads | flashes => cases member
  | exports | probes | sizes =>
    rw [List.mem_singleton.mp member]
    decide
  | readdresses =>
    exact List.mem_append_right ["filesize".toList, "status".toList, "size".toList] member

/-- Every call of the installer is one that it asks for, and leaves the settings and the limit of
the session. The cases of the step below are those of the relation. -/
theorem OnBoard.calls
    (bench : Bench provider hardware base opening parsed client first cmdtftp cmdtftpput rambase)
    (installs : provider.resume = resume around)
    (onBoard : OnBoard provider around hardware (boardClient hardware base image isWord peer rounds)
      first base image beginning turn cmdtftp cmdtftpput rambase)
    (suits : Suits around hardware turn)
    (call : Calls provider (boardClient hardware base image isWord peer rounds) turn next) :
    ∃ errand : Errand, errand.Leads hardware base image
        (boardClient hardware base image isWord peer rounds) cmdtftp cmdtftpput rambase turn next ∧
      Asks around turn.round.found.session rambase turn.state turn.round.resumption errand.request
        next.state ∧
      (∀ draw, PlainSession next.round.found.session (provider.host.token draw) cmdtftp cmdtftpput
        rambase) ∧
      next.round.found.session.publicEnv.get "nor_size".toList =
        beginning.round.found.session.publicEnv.get "nor_size".toList := by
  cases call with
  | called left awaited after request draw name text later plays instructs written reports returns =>
    have plain := onBoard.plain draw
    have unescaped : Unescaped rambase := fun member => bench.loose '\\' member (by decide)
    have ensures : (resume around turn.state turn.round.resumption).Ensures
        (Attached turn.round.found.session)
        (Asked around turn.round.found.session rambase turn.state turn.round.resumption) :=
      resume_asks plain.loads unescaped suits.shown fun locals known =>
        (onBoard.probed locals known).2.2
    rw [← installs] at ensures
    have unattached : ∀ session artifacts, Attached turn.round.found.session session →
        Attached turn.round.found.session { session with downloadArtifacts := artifacts } := by
      rintro _ artifacts ⟨_, rfl⟩
      exact ⟨artifacts, rfl⟩
    obtain ⟨asked, artifacts, attached⟩ := ensures.run unattached provider.host turn.round.now
      turn.round.schedule turn.round.found ⟨_, rfl⟩ awaited after (congrArg Prod.snd plays)
    have same : left.session = { turn.round.found.session with downloadArtifacts := artifacts } :=
      (congrArg (·.1.session) plays).symm.trans attached
    have asks := asked request instructs (returns_unfinished returns instructs)
    have keys := asks_keys asks
    have moved : PlainSession left.session (provider.host.token draw) cmdtftp cmdtftpput rambase :=
      plain.moved left.session (congrArg (·.serverIp) same) (congrArg (·.env) same)
    obtain ⟨fresh, temporary⟩ := recv_name_fresh provider.host bench.named name
    refine ⟨⟨request, left.session, awaited, _, _, text⟩, ⟨moved, congrArg (·.serverIp) same, fresh,
      temporary, written, fun key member => ?_, returns, instructs, rfl⟩, asks, fun other => ?_, ?_⟩
    · rw [reports.publicEnv, if_pos member]
      rfl
    · refine (moved.kept _ reports.serverIp fun key hidden => ?_).retoken _ (bench.urlSafe other)
      rw [reports.env, if_neg fun member => (keys key member).1 hidden]
    · rw [reports.publicEnv, if_neg fun member => (keys _ member).2 rfl, same]
      exact onBoard.limited

/-- What a turn hands on to the next one, unless the image is written between them. A call that
changes neither the flash nor what is known has only to show this. -/
structure Handed (provider : Provider Point) (around : Surroundings) (hardware : Hardware)
    (flow : FlowClient Board) (first : Board) (base : Nat) (image : Text → Bytes)
    (beginning turn next : Turn Point Board) (cmdtftp cmdtftpput rambase : Text) : Prop where
  done : next.state.done = turn.state.done
  probed : ∀ locals, next.state.probed = some locals → turn.state.probed = some locals ∨
    Sized hardware beginning locals.norSize ∧ norSizeMb locals.norSize ∈ [8, 16] ∧
      locals.fw ∈ supportedFirmware
  saving : ∀ locals, next.state.saving = some locals → turn.state.saving = some locals ∨
    Saved provider around flow first beginning next locals
  knows : Knows around hardware first base image beginning next cmdtftp cmdtftpput rambase

/-- A turn whose call keeps the flash. Everything that is known of a turn is carried on to the next
one: what has been flashed stays as it was, and for the rest the conditions that the turn hands on
are used. -/
theorem OnBoard.goes {flow : FlowClient Board}
    (onBoard : OnBoard provider around hardware flow first base image beginning turn cmdtftp cmdtftpput
      rambase)
    (call : Calls provider flow turn next)
    (plain : ∀ draw, PlainSession next.round.found.session (provider.host.token draw) cmdtftp
      cmdtftpput rambase)
    (limited : next.round.found.session.publicEnv.get "nor_size".toList =
      beginning.round.found.session.publicEnv.get "nor_size".toList)
    (flash : next.device.flash = turn.device.flash) (ready : Ready next.device rambase base)
    (handed : Handed provider around hardware flow first base image beginning turn next cmdtftp
      cmdtftpput rambase) :
    OnBoard provider around hardware flow first base image beginning next cmdtftp cmdtftpput
      rambase where
  run := onBoard.run.tail call
  plain := plain
  limited := limited
  ready := ready
  flash := fun early => flash.trans (onBoard.flash (handed.done ▸ early))
  probed := fun locals held => (handed.probed locals held).elim (onBoard.probed locals) id
  saving := by
    intro locals held
    rcases handed.saving locals held with before | now
    · obtain ⟨earlier, ⟨begins, leads⟩, backing, contents⟩ := onBoard.saving locals before
      exact ⟨earlier, ⟨begins, leads.tail call⟩, backing, contents⟩
    · exact now
  done := by
    intro ended
    obtain ⟨earlier, locals, binary, newEnv, patched, ⟨begins, leads⟩, patching, saved, written,
        holds⟩ :=
      onBoard.done (handed.done ▸ ended)
    exact ⟨earlier, locals, binary, newEnv, patched, ⟨begins, leads.tail call⟩, patching, saved,
      written, flash.trans holds⟩
  knows := handed.knows

/-- The local variables of a point after the backup are those of a point after the probe. -/
theorem saving_probed {point : Point} {locals : Locals} (saving : point.saving = some locals) :
    point.probed = some locals := by
  cases point with
  | announced | backingUp => cases saving
  | _ => exact saving

/-- What the stretches hand on that only show something. What the next point knows of the camera
follows from what the stretch had to look up in the answers of the board. -/
theorem OnBoard.passes {flow : FlowClient Board} (installs : provider.resume = resume around)
    (onBoard : OnBoard provider around hardware flow first base image beginning turn cmdtftp cmdtftpput
      rambase)
    (call : Calls provider flow turn next)
    (passes : Passes around turn.round.found.session turn.state turn.round.resumption next.state) :
    Handed provider around hardware flow first base image beginning turn next cmdtftp cmdtftpput
      rambase := by
  obtain ⟨awaited, suspends⟩ : ∃ awaited, (provider.play turn.state turn.round).2 =
      .awaited awaited next.state := by
    cases call with
    | called _ awaited _ _ _ _ _ _ plays => exact ⟨awaited, congrArg Prod.snd plays⟩
  obtain ⟨state, ⟨now, schedule, found, resumption⟩, device⟩ := turn
  obtain ⟨after, later, store⟩ := next
  simp only at passes suspends
  cases passes with
  | fetched call body =>
    exact ⟨rfl, fun _ held => (by cases held), fun _ held => (by cases held), body,
      onBoard.knows body rfl, rfl⟩
  | announced call cenv resumption locals text reported parsed supported firmware =>
    obtain ⟨number, sized, reports⟩ := onBoard.knows
    cases reports.symm.trans reported
    have same := Option.some.inj ((Text.parse_hex number).symm.trans parsed)
    refine ⟨rfl, fun _ held => ?_, fun _ held => (by cases held), trivial⟩
    cases held
    exact .inr ⟨same ▸ sized, supported, firmware⟩
  | saved locals body =>
    obtain ⟨upload, resumed, contents⟩ := backup_written installs locals awaited _ suspends
    cases resumed
    refine ⟨rfl, fun _ held => .inl held, fun _ held => ?_, trivial⟩
    cases held
    exact .inr ⟨_, ⟨onBoard.run, .single call⟩, rfl,
      contents.trans (congrArg some (onBoard.knows body rfl))⟩
  | fetches _ _ locals _ saving early fetches =>
    have known := saving_probed saving
    rcases fetches with rfl | rfl | ⟨progress, rfl⟩ | ⟨binary, rfl⟩
    all_goals exact ⟨early.symm, fun _ held => .inl (known.trans held),
      fun _ held => .inl (saving.trans held), trivial⟩
  | patches locals binary resumption newEnv ethaddr held given =>
    exact ⟨rfl, fun _ held => .inl held, fun _ held => .inl held, ethaddr, held, given⟩
  | reports point resumption done =>
    exact ⟨done.symm, fun _ held => (by cases held), fun _ held => (by cases held), trivial⟩
  | counts point resumption step done =>
    exact ⟨done.symm, fun _ held => (by cases held), fun _ held => (by cases held), trivial⟩

/-- What is handed on between points of which the later one knows no more local variables. What was
known of the probed size and of the backup either still concerns the same local variables or nothing
any more. -/
theorem Handed.between {flow : FlowClient Board} {point following : Point}
    (before : turn.state = point) (after : next.state = following)
    (done : following.done = point.done)
    (probed : following.probed = point.probed ∨ following.probed = none)
    (saving : following.saving = point.saving ∨ following.saving = none)
    (knows : Knows around hardware first base image beginning next cmdtftp cmdtftpput rambase) :
    Handed provider around hardware flow first base image beginning turn next cmdtftp cmdtftpput
      rambase := by
  subst before
  subst after
  refine ⟨done, fun locals held => ?_, fun locals held => ?_, knows⟩
  · rcases probed with same | none
    · exact .inl (same ▸ held)
    · rw [none] at held
      cases held
  · rcases saving with same | none
    · exact .inl (same ▸ held)
    · rw [none] at held
      cases held

variable {flow : FlowClient Board} {errand : Errand}

/-- A board that has loaded the script of a call is as it was, and ready. -/
theorem loaded_ready
    (bench : Bench provider hardware base opening parsed client first cmdtftp cmdtftpput rambase)
    (ready : Ready turn.device rambase base) (bytes : Bytes) :
    Unharmed rambase turn.device (turn.device.load base bytes) ∧
      Ready (turn.device.load base bytes) rambase base := by
  have filesize : rambase ≠ "filesize".toList := fun same => bench.apart (same ▸ by decide)
  have unharmed := load_unharmed base turn.device bytes filesize
  exact ⟨unharmed, ready.kept unharmed.tidy unharmed.loads⟩

/-- The board behind a call whose lines are gentle. Lines that only speak neither send nor fetch a
file, so that the board is the one that their commands leave, with a script image in its memory and
the next request waiting. -/
theorem Errand.Leads.spoke
    (bench : Bench provider hardware base opening parsed client first cmdtftp cmdtftpput rambase)
    (leads : errand.Leads hardware base image flow cmdtftp cmdtftpput rambase turn next)
    (ready : Ready turn.device rambase base) (lines keys : List Text)
    (same : errand.request = spoken lines keys) (function : Board → Board)
    (performs : Performs hardware lines function)
    (gentle : ∀ board, Unharmed rambase board (function board))
    (firm : Firm (Text.joinLines lines)) (words : ∀ key ∈ keys, Word key) :
    next.device.flash = turn.device.flash ∧ Ready next.device rambase base ∧ ∃ bytes asked,
      next.device = { function (turn.device.load base bytes) with waiting := some asked } := by
  have written := leads.written
  rw [same] at written
  obtain ⟨asked, store⟩ := spoken_performed base leads.plain bench.loose bench.fetches lines
    keys function performs firm words errand.tmpName errand.text written turn.device
    (image (ensureNewline errand.text))
  obtain ⟨unharmed, -⟩ := loaded_ready bench ready (image (ensureNewline errand.text))
  obtain ⟨flash, still⟩ := (unharmed.trans (gentle _)).awaits ready asked
  rw [leads.updated, store]
  exact ⟨flash, still, _, asked, rfl⟩

/-- A call for an upload finds what the board sends. The other helpers return no body, so the call
has been one for an upload. -/
theorem Errand.Leads.offered
    (leads : errand.Leads hardware base image flow cmdtftp cmdtftpput rambase turn next)
    (lines : List Text) (size : Int) (same : errand.request = received lines size) (body : Bytes)
    (resumed : next.round.resumption = .received body) :
    ∃ upload : TestClient.UploadAction,
      upload.size = size ∧ body = flow.payload next.device upload := by
  have returns := leads.returns
  have instructs := leads.instructs
  rw [resumed] at returns
  generalize errand.awaited = awaited at returns instructs
  cases returns with
  | execRecv other built actions upload read single sized =>
    obtain rfl : other = errand.request := Option.some.inj instructs
    rw [same] at sized
    exact ⟨upload, (Option.some.inj sized).symm, rfl⟩

/-- A size that the probe has found and that is supported is one of the flash. -/
theorem sized_inside (locals : Locals) (sized : Sized hardware beginning locals.norSize)
    (supported : norSizeMb locals.norSize ∈ [8, 16]) :
    ∃ size : Nat, locals.norSize = size ∧ size ≤ hardware.capacity := by
  obtain ⟨maxSize, -, ⟨doublings, found, ⟨-, reaches⟩, -⟩ | ⟨nothing, -⟩⟩ := sized
  · have inside := reaches doublings (Nat.le_refl _)
    refine ⟨2 ^ 20 * 2 ^ doublings, by rw [found]; push_cast; rfl, ?_⟩
    exact_mod_cast (by simpa using inside : ((2 ^ 20 : Nat) : Int) * 2 ^ doublings ≤ hardware.capacity)
  · rw [nothing] at supported
    exact absurd supported (by decide)

/-- What has been saved stays so. -/
theorem Saved.later {locals : Locals}
    (saved : Saved provider around flow first beginning turn locals)
    (call : Calls provider flow turn next) :
    Saved provider around flow first beginning next locals := by
  obtain ⟨earlier, ⟨begins, leads⟩, backing, contents⟩ := saved
  exact ⟨earlier, ⟨begins, leads.tail call⟩, backing, contents⟩

section Requests

variable
  (bench : Bench provider hardware base opening parsed client first cmdtftp cmdtftpput rambase)
  (onBoard : OnBoard provider around hardware (boardClient hardware base image isWord peer rounds)
    first base image beginning turn cmdtftp cmdtftpput rambase)
  (leads : errand.Leads hardware base image (boardClient hardware base image isWord peer rounds)
    cmdtftp cmdtftpput rambase turn next)
include bench onBoard leads

/-- An environment is exported. The first call of the installer does this. The variables of the
board stand in the memory as text then, from the base on, and their length has been reported. -/
theorem OnBoard.exports
    (call : Invocation) (before : turn.state = .started call) (after : next.state = .exported call)
    (same : errand.request =
      spoken ["env export -t ".toList ++ expansion rambase] ["filesize".toList]) :
    next.device.flash = turn.device.flash ∧ Ready next.device rambase base ∧
      Handed provider around hardware (boardClient hardware base image isWord peer rounds) first base
        image beginning turn next cmdtftp cmdtftpput rambase := by
  have begun : turn = beginning := by
    have knows := onBoard.knows
    rwa [Knows, before] at knows
  have filesize : rambase ≠ "filesize".toList := fun same => bench.apart (same ▸ by decide)
  obtain ⟨unharmed, loaded⟩ := loaded_ready bench onBoard.ready (image (ensureNewline errand.text))
  have written := leads.written
  rw [same] at written
  obtain ⟨asked, store⟩ :=
    export_performed leads.plain bench.loose bench.fetches errand.tmpName errand.text
    written turn.device (image (ensureNewline errand.text)) loaded
  have updated := leads.updated.trans store
  have reported := leads.reports "filesize".toList (by rw [same]; exact List.mem_singleton.mpr rfl)
  refine ⟨?_, ?_, .between before after rfl (.inr rfl) (.inr rfl) ?_⟩
  · rw [updated]
    rfl
  · rw [updated]
    refine loaded.kept (fun name temporary => Dict.get_set_other _ _ _ _ ?_)
      (Dict.get_set_other _ _ _ _ filesize)
    rintro rfl
    exact absurd temporary (by decide)
  · have held := Dict.get_set_self (turn.device.load base (image (ensureNewline errand.text))).values
      "filesize".toList (Nat.toDigits 16
        (turn.device.load base (image (ensureNewline errand.text))).exported.length)
    rw [Knows, after]
    refine ⟨ensureNewline errand.text,
      (turn.device.load base (image (ensureNewline errand.text))).exported,
      (turn.device.load base (image (ensureNewline errand.text))).memory,
      ⟨errand.left, errand.token, errand.tmpName, errand.text, leads.plain, written, rfl⟩,
      by rw [begun], ?_, ?_⟩
    · rw [updated]
      rfl
    · rw [reported, updated]
      exact congrArg (fun value => some (value.getD [])) held

/-- The export is sent, as it stands behind the image of the script that sends it. The script that
sends the export is loaded to the same address, so its image covers the beginning of the text. What
is sent is therefore described by `covered` and not by the export alone. -/
theorem OnBoard.uploads
    (call : Invocation) (before : turn.state = .exported call) (after : next.state = .uploading call)
    (reported : Text) (size : Int)
    (held : turn.round.found.session.publicEnv.get "filesize".toList = some reported)
    (parsed : Text.parseInteger 16 (Text.strip reported) = some size)
    (same : errand.request =
      received [openMessage "Fetching current uboot environment... ".toList] size) :
    next.device.flash = turn.device.flash ∧ Ready next.device rambase base ∧
      Handed provider around hardware (boardClient hardware base image isWord peer rounds) first base
        image beginning turn next cmdtftp cmdtftpput rambase := by
  obtain ⟨exporting, exported, cells, made, own, memory, filesize⟩ :
      ∃ exporting exported cells, Made cmdtftp cmdtftpput rambase (exportRequest rambase) exporting ∧
        exported = (beginning.device.load base (image exporting)).exported ∧
        turn.device.memory =
          replaced base exported.length (fun place => exported.getD place 0) cells ∧
        turn.round.found.session.publicEnv.get "filesize".toList =
          some (Nat.toDigits 16 exported.length) := by
    have knows := onBoard.knows
    rwa [Knows, before] at knows
  cases filesize.symm.trans held
  obtain rfl := Option.some.inj ((Text.parse_digits _).symm.trans parsed)
  obtain ⟨unharmed, loaded⟩ := loaded_ready bench onBoard.ready (image (ensureNewline errand.text))
  let shown := [("Fetching current uboot environment... ".toList, ColorName.green, true, false)]
  have even : ∀ entry ∈ shown, QuotedWords.EvenBefore '\\' '"' entry.1 :=
    List.forall_mem_singleton.mpr (even_before_plain _ (by decide))
  have silent := messages_outcome shown (turn.device.load base (image (ensureNewline errand.text))).view
  have written := leads.written
  rw [same] at written
  have bounded : base < 2 ^ hardware.wordSize := Nat.lt_of_le_of_lt (Nat.le_add_right _ _) bench.bounded
  obtain ⟨store, asks, flash, ready, offers⟩ := received_operations leads.plain bench.loose bench.fetches
    bench.sends bounded (messages shown) _ errand.tmpName leads.fresh leads.temporary errand.text written
    (turn.device.load base (image (ensureNewline errand.text))) loaded
    (messages_possible hardware errand.left rambase shown even _) (by rw [silent]; rfl)
    (by rw [silent]; rfl)
  have updated := leads.updated.trans asks
  refine ⟨updated ▸ flash, updated ▸ ready, .between before after rfl (.inr rfl) (.inr rfl) ?_⟩
  rw [Knows, after]
  intro body resumed
  obtain ⟨upload, sizes, sent⟩ := leads.offered _ _ same body resumed
  refine ⟨exporting, ensureNewline errand.text, exported, made, own, ⟨errand.left, errand.token,
    errand.tmpName, errand.text, leads.plain, written, rfl⟩, ?_⟩
  have offered : body = store.readOut upload.size.toNat := updated ▸ sent
  rw [offered, sizes, Int.toNat_natCast, offers, silent]
  refine Eq.trans ?_ (Overlays.window_covered base cells _ (image (ensureNewline errand.text)) 0)
  rw [← memory]
  rfl

/-- The flash is probed. The board reports whether the probe has succeeded. The limit for the size
is the one with which the session has begun. -/
theorem OnBoard.probes
    (call : Invocation) (cenv merged : Env) (maxSize : Int) (before : turn.state = .fetched call cenv)
    (after : next.state = .probing call merged maxSize)
    (bounded : parseMaxSize (turn.round.found.session.publicEnv.get "nor_size".toList) = some maxSize)
    (same : errand.request = spoken probeLines ["status".toList]) :
    next.device.flash = turn.device.flash ∧ Ready next.device rambase base ∧
      Handed provider around hardware (boardClient hardware base image isWord peer rounds) first base
        image beginning turn next cmdtftp cmdtftpput rambase := by
  have status : rambase ≠ "status".toList := fun same => bench.apart (same ▸ by decide)
  obtain ⟨function, performs, gentle, probed⟩ :=
    probe_lines_performed hardware bench.present status
  have firm : Firm (Text.joinLines probeLines) := by
    have last : Firm "setenv status $?".toList := by
      intro last ends
      cases ends
      decide
    exact Firm.ended [_, _] last (by decide)
  obtain ⟨flash, ready, bytes, asked, store⟩ :=
    leads.spoke bench onBoard.ready _ _ same function performs
    gentle firm (by decide +kernel)
  refine ⟨flash, ready, .between before after rfl (.inr rfl) (.inr rfl) ?_⟩
  have reported := leads.reports "status".toList (by rw [same]; exact List.mem_singleton.mpr rfl)
  obtain ⟨found, held⟩ := probed (turn.device.load base bytes) rfl
  rw [Knows, after]
  refine ⟨?_, ?_, ?_⟩
  · rw [store]
    exact found
  · rw [limit, ← onBoard.limited]
    exact bounded
  · rw [reported, store]
    exact congrArg (fun value => some (value.getD [])) held

/-- The size of the flash is probed for. The flash is read for it and not written, and what is
reported is the size that the generated script finds. -/
theorem OnBoard.sizes
    (call : Invocation) (cenv : Env) (maxSize : Int) (before : turn.state = .probing call cenv maxSize)
    (after : next.state = .sizing call cenv)
    (same : errand.request = spoken (ubootNorGenProbe (expansion rambase) (2 ^ 20) maxSize 0 0 none
      (by decide) ++ [message (expansion "size".toList)]) ["size".toList]) :
    next.device.flash = turn.device.flash ∧ Ready next.device rambase base ∧
      Handed provider around hardware (boardClient hardware base image isWord peer rounds) first base
        image beginning turn next cmdtftp cmdtftpput rambase := by
  obtain ⟨probed, limited, -⟩ : turn.device.probed = true ∧ limit beginning = some maxSize ∧
      turn.round.found.session.publicEnv.get "status".toList = some "0".toList := by
    have knows := onBoard.knows
    rwa [Knows, before] at knows
  have size : rambase ≠ "size".toList := fun same => bench.apart (same ▸ by decide)
  obtain ⟨function, number, performs, gentle, finds, leaves⟩ := size_lines_performed hardware
    bench.loose leads.plain.braceless size maxSize
  have shown : Echoed (message (expansion "size".toList)) := message_echoed (by decide)
  obtain ⟨flash, ready, bytes, asked, store⟩ :=
    leads.spoke bench onBoard.ready _ _ same function performs
    gentle (Firm.ended _ shown.firm (by decide)) (by decide +kernel)
  have reported := leads.reports "size".toList (by rw [same]; exact List.mem_singleton.mpr rfl)
  refine ⟨flash, ready, .between before after rfl (.inr rfl) (.inr rfl) ?_⟩
  rw [Knows, after]
  obtain ⟨unharmed, loaded⟩ := loaded_ready bench onBoard.ready bytes
  refine ⟨number, ⟨maxSize, limited, by exact_mod_cast finds⟩, ?_⟩
  rw [reported, store]
  exact congrArg (fun value => some (value.getD []))
    (leaves _ ⟨rfl, unharmed.probed probed, base, loaded.number⟩)

/-- The flash is read into the memory and sent. The memory is filled before the flash is read into
it, and the reported size is inside the capacity, so what the server records for the backup is the
flash itself. -/
theorem OnBoard.downloads
    (locals : Locals) (before : turn.state = .announced locals) (after : next.state = .backingUp locals)
    (same : errand.request = received
      [openMessage "Copying NOR to RAM... ".toList,
        ubootMemset (expansion rambase) (around.counter 0) (.int 0) (.int 0xFF)
          (.int locals.norSize) none,
        ubootNorRead (expansion rambase) (around.counter 1) (.int 0) (.int 0)
          (.int locals.norSize) none,
        message "OK".toList, boldMessage "Downloading backup via TFTP...".toList]
      locals.norSize) :
    next.device.flash = turn.device.flash ∧ Ready next.device rambase base ∧
      Handed provider around hardware (boardClient hardware base image isWord peer rounds) first base
        image beginning turn next cmdtftp cmdtftpput rambase := by
  obtain ⟨sized, supported, -⟩ := onBoard.probed locals (by rw [before]; rfl)
  obtain ⟨size, known, inside⟩ := sized_inside locals sized supported
  rw [known] at same
  obtain ⟨unharmed, loaded⟩ := loaded_ready bench onBoard.ready (image (ensureNewline errand.text))
  let front := [("Copying NOR to RAM... ".toList, ColorName.green, true, false)]
  let back := [("OK".toList, ColorName.green, false, true),
    ("Downloading backup via TFTP...".toList, ColorName.green, true, true)]
  have even : ∀ entry ∈ front ++ back, QuotedWords.EvenBefore '\\' '"' entry.1 := by
    refine List.forall_mem_cons.mpr ⟨even_before_plain _ (by decide), List.forall_mem_cons.mpr
      ⟨even_before_plain _ (by decide), List.forall_mem_singleton.mpr
        (even_before_plain _ (by decide))⟩⟩
  have written := leads.written
  rw [same] at written
  have bounded : base < 2 ^ hardware.wordSize := Nat.lt_of_le_of_lt (Nat.le_add_right _ _) bench.bounded
  obtain ⟨store, asks, flash, ready, offers⟩ := download_offers hardware base leads.plain bench.loose
    bench.fetches bench.sends bounded bench.present size inside (around.counter 0) (around.counter 1)
    front back even errand.tmpName leads.fresh leads.temporary errand.text
    (by rw [download_operations errand.left rambase base]; exact written)
    (turn.device.load base (image (ensureNewline errand.text))) loaded
  have updated := leads.updated.trans asks
  refine ⟨updated ▸ flash, updated ▸ ready, .between before after rfl (.inl rfl) (.inr rfl) ?_⟩
  rw [Knows, after]
  intro body resumed
  obtain ⟨upload, sizes, sent⟩ := leads.offered _ _ same body resumed
  have offered : body = store.readOut upload.size.toNat := updated ▸ sent
  have held : (turn.device.load base (image (ensureNewline errand.text))).flash = first.flash :=
    onBoard.flash (by rw [before]; rfl)
  rw [offered, sizes, known, Int.toNat_natCast, offers, held]

/-- The image is written. This is the only point at which the flash changes. It has been saved
before, and what is written lies inside the size that has been probed. -/
theorem OnBoard.flashes
    (suits : Suits around hardware turn)
    (call : Calls provider (boardClient hardware base image isWord peer rounds) turn next)
    (plain : ∀ draw, PlainSession next.round.found.session (provider.host.token draw) cmdtftp
      cmdtftpput rambase)
    (limited : next.round.found.session.publicEnv.get "nor_size".toList =
      beginning.round.found.session.publicEnv.get "nor_size".toList)
    (locals : Locals) (binary : Bytes) (newEnv : Env) (patched : Bytes)
    (before : turn.state = .patching locals binary newEnv) (after : next.state = .flashed locals newEnv)
    (patches : ubootenvPatch around.codecs binary newEnv .inferred none 0xFF utf8 = .ok patched)
    (same : errand.request = spoken (restoreLines around (expansion rambase)
      turn.round.found.session.serverIp locals.patchedFile patched.length) []) :
    OnBoard provider around hardware (boardClient hardware base image isWord peer rounds) first base
      image beginning next cmdtftp cmdtftpput rambase := by
  have filesize : rambase ≠ "filesize".toList := fun same => bench.apart (same ▸ by decide)
  obtain ⟨unharmed, loaded⟩ := loaded_ready bench onBoard.ready (image (ensureNewline errand.text))
  obtain ⟨served, inside, whole⟩ := suits.image locals binary newEnv patched before patches
  have shown := suits.shown
  rw [before] at shown
  simp only [Point.shown, List.forall_mem_cons] at shown
  obtain ⟨ident, soc, -⟩ := shown
  obtain ⟨-, -, firmware⟩ := onBoard.probed locals (by rw [before]; rfl)
  have named : Unescaped ("Uploading ".toList ++ pathName locals.patchedFile ++ "... ".toList) :=
    (Unescaped.append (by decide) (patched_file_unescaped ident soc firmware).pathName).append
      (by decide)
  have written := leads.written
  rw [same, ← leads.server] at written
  rw [← leads.server] at served
  have possible := restore_possible around base locals.patchedFile patched hardware errand.left rambase
    bench.loose leads.plain.braceless _ loaded filesize bench.bounded served
    (unescaped_word _ named).2 bench.present inside whole
  obtain ⟨store, asks, flash, ready⟩ := restore_performed around locals.patchedFile patched leads.plain
    bench.loose bench.fetches errand.tmpName errand.text written _ loaded filesize possible
  have updated := leads.updated.trans asks
  have held : (turn.device.load base (image (ensureNewline errand.text))).flash = first.flash :=
    onBoard.flash (by rw [before]; rfl)
  refine ⟨onBoard.run.tail call, plain, limited, updated ▸ ready, ?_, ?_, ?_, ?_, ?_⟩
  · intro early
    rw [after] at early
    cases early
  · intro other probed
    rw [after] at probed
    exact onBoard.probed other (by rw [before]; exact probed)
  · intro other saving
    rw [after] at saving
    exact (onBoard.saving other (by rw [before]; exact saving)).later call
  · intro _
    refine ⟨turn, locals, binary, newEnv, patched, ⟨onBoard.run, .single call⟩, before,
      onBoard.saving locals (by rw [before]; rfl), patches, ?_⟩
    rw [updated, flash, held]
  · have knows := onBoard.knows
    rw [Knows, before] at knows
    rw [Knows, after]
    exact knows

/-- A new address is asked for. The flash has been written by then and stays as it is; what is asked
for is the address that the camera gets under its new hardware address. -/
theorem OnBoard.readdresses
    (locals : Locals) (newEnv : Env) (ethaddr : Text) (before : turn.state = .flashed locals newEnv)
    (after : next.state = .readdressed locals) (held : newEnv.get "ethaddr".toList = some ethaddr)
    (changed : locals.Readdresses newEnv)
    (same : errand.request = spoken (readdressLines ethaddr)
      ["ipaddr".toList, "netmask".toList, "gatewayip".toList]) :
    next.device.flash = turn.device.flash ∧ Ready next.device rambase base ∧
      Handed provider around hardware (boardClient hardware base image isWord peer rounds) first base
        image beginning turn next cmdtftp cmdtftpput rambase := by
  obtain ⟨old, own, given⟩ : ∃ ethaddr, locals.cenv.get "ethaddr".toList = some ethaddr ∧
      newEnv.get "ethaddr".toList = some (genMac around.randomBytes ethaddr) := by
    have knows := onBoard.knows
    rwa [Knows, before] at knows
  cases held.symm.trans given
  have address := changed_address around.randomBytes old fun unchanged =>
    changed.2 (by rw [own, given, unchanged])
  have apart : rambase ∉ ["ethaddr".toList, "autoload".toList] := by
    intro member
    apply bench.apart
    rcases List.mem_cons.mp member with rfl | other
    · decide
    · rw [List.mem_singleton.mp other]
      decide
  obtain ⟨⟨function, performs, gentle⟩, firm⟩ := readdress_gentle hardware _ address apart
  obtain ⟨flash, ready, -⟩ := leads.spoke bench onBoard.ready _ _ same function performs gentle firm
    (by decide +kernel)
  refine ⟨flash, ready, .between before after rfl (.inl rfl) (.inl rfl) ?_⟩
  rw [Knows, after]
  trivial

end Requests

/-- In a conversation with a board that is fit for it what is known of a turn stays known.

Proof: by cases on what the installer asks for. Scripts that show, export, probe or readdress keep
the flash; the two uploads offer what stands in the memory at the load address; only the script
that writes the image changes the flash. -/
theorem OnBoard.step
    (bench : Bench provider hardware base opening parsed client first cmdtftp cmdtftpput rambase)
    (installs : provider.resume = resume around)
    (onBoard : OnBoard provider around hardware (boardClient hardware base image isWord peer rounds)
      first base image beginning turn cmdtftp cmdtftpput rambase)
    (suits : Suits around hardware turn)
    (call : Calls provider (boardClient hardware base image isWord peer rounds) turn next) :
    OnBoard provider around hardware (boardClient hardware base image isWord peer rounds) first base
      image beginning next cmdtftp cmdtftpput rambase := by
  obtain ⟨errand, leads, asks, plain, limited⟩ := onBoard.calls bench installs suits call
  have goes (kept : next.device.flash = turn.device.flash ∧ Ready next.device rambase base ∧
      Handed provider around hardware (boardClient hardware base image isWord peer rounds) first base
        image beginning turn next cmdtftp cmdtftpput rambase) :
      OnBoard provider around hardware (boardClient hardware base image isWord peer rounds) first
        base image beginning next cmdtftp cmdtftpput rambase :=
    onBoard.goes call plain limited kept.1 kept.2.1 kept.2.2
  generalize before : turn.state = point at asks
  generalize resumed : turn.round.resumption = resumption at asks
  generalize after : next.state = following at asks
  generalize same : errand.request = request at asks
  cases asks with
  | shows _ _ _ lines each passes =>
    obtain ⟨⟨function, performs, gentle⟩, firm⟩ := echoed_lines hardware rambase lines each
    obtain ⟨flash, ready, -⟩ := leads.spoke bench onBoard.ready lines [] same function performs gentle
      firm (by simp)
    rw [← before, ← resumed, ← after] at passes
    exact goes ⟨flash, ready, onBoard.passes installs call passes⟩
  | exports invocation => exact goes (onBoard.exports bench leads invocation before after same)
  | uploads invocation _ text size reported parsed =>
    exact goes (onBoard.uploads bench leads invocation before after text size reported parsed same)
  | probes invocation cenv _ maxSize bounded =>
    exact goes (onBoard.probes bench leads invocation cenv _ maxSize before after bounded same)
  | sizes invocation cenv maxSize =>
    exact goes (onBoard.sizes bench leads invocation cenv maxSize before after same)
  | downloads locals => exact goes (onBoard.downloads bench leads locals before after same)
  | flashes locals binary newEnv _ patched written =>
    exact onBoard.flashes bench leads suits call plain limited locals binary newEnv patched before after
      written same
  | readdresses locals newEnv _ ethaddr held changed =>
    exact goes (onBoard.readdresses bench leads locals newEnv ethaddr before after held changed same)

/-- The first turn. Nothing has been asked yet but whether the shell of the board is the right one,
and the flash is the one that the board came with. -/
theorem OnBoard.begin
    (bench : Bench provider hardware base opening parsed client first cmdtftp cmdtftpput rambase)
    (entered : provider.module (routeFor provider.config client).entryFunc = install)
    (begins : Begins provider (boardClient hardware base image isWord peer rounds) client opening
      parsed first beginning) :
    OnBoard provider around hardware (boardClient hardware base image isWord peer rounds) first base
      image beginning beginning cmdtftp cmdtftpput rambase := by
  cases begins with
  | begun start arguments draw text round entry ident cmd asked probed reports resumption =>
    have started : start = fun arguments =>
        .started ⟨arguments.root, arguments.ident, arguments.cmd⟩ := by
      cases entry.symm.trans entered
      rfl
    subst started
    have plain := bench.plain draw
    have filesize : rambase ≠ "filesize".toList := fun same => bench.apart (same ▸ by decide)
    have hush : rambase ≠ hushKey := fun same => bench.apart (same ▸ by decide)
    obtain ⟨function, performs, gentle, -⟩ := hush_performed hardware hush
    have stripped : Text.rstrip hushProbeScript = hushProbeScript := by decide +kernel
    have written : sentScript (provider.host.token draw) []
        (openedSession provider opening parsed client (provider.host.token draw))
        (spoken hushLines [hushKey]) = .ok text := by
      rw [← probed]
      simp only [sentScript, spoken, hush_lines_joined, stripped]
      rfl
    have firm : Firm (Text.joinLines hushLines) := by
      rw [hush_lines_joined, ← stripped]
      exact firm_stripped _
    obtain ⟨asked, store⟩ := spoken_performed base plain bench.loose bench.fetches hushLines [hushKey]
      function performs firm (by decide +kernel) [] text written first (image (ensureNewline text))
    have unharmed := load_unharmed base first (image (ensureNewline text)) filesize
    obtain ⟨flash, ready⟩ := (unharmed.trans (gentle _)).awaits bench.ready asked
    refine ⟨.refl, fun other => ?_, rfl, ?_, fun _ => ?_, fun _ held => ?_, fun _ held => ?_,
      fun ended => ?_, rfl⟩
    · refine (plain.kept _ reports.serverIp fun key hidden => ?_).retoken _ (bench.urlSafe other)
      have foreign : key ∉ [hushKey] := by
        intro same
        rw [List.mem_singleton.mp same] at hidden
        exact absurd hidden (by decide)
      rw [reports.env, if_neg foreign]
    · exact (congrArg (Ready · rambase base) store).mpr ready
    · exact (congrArg Board.flash store).trans flash
    · cases held
    · cases held
    · cases ended

/-- Along a conversation whose turns are fit for the board what is known stays true.

Proof: by induction on the conversation; each turn must be fit for the board before its call is
made. -/
theorem OnBoard.along
    (bench : Bench provider hardware base opening parsed client first cmdtftp cmdtftpput rambase)
    (installs : provider.resume = resume around)
    (entered : provider.module (routeFor provider.config client).entryFunc = install)
    (begins : Begins provider (boardClient hardware base image isWord peer rounds) client opening
      parsed first beginning)
    (run : Relation.ReflTransGen (fun before after => Suits around hardware before ∧
      Calls provider (boardClient hardware base image isWord peer rounds) before after)
        beginning turn) :
    OnBoard provider around hardware (boardClient hardware base image isWord peer rounds) first base
      image beginning turn cmdtftp cmdtftpput rambase := by
  induction run with
  | refl => exact .begin bench entered begins
  | tail _ step inductionHypothesis => exact inductionHypothesis.step bench installs step.1 step.2

end Turns

end UbootTftp
