import UbootTftp.Avoidance
import UbootTftp.HandlerRuns
import UbootTftp.RequestPaths
import UbootTftp.UbootScripts

/-!
# Scripts that change the flash

A script changes the flash when it contains `sf erase` or `sf write`. Whether one of the
snippets does depends on the texts that it interpolates: its own words leave no seam at which
a command could come about. The lines of the script that writes an image are the ones that
are meant to.
-/

namespace UbootTftp

universe u

/-- The commands that change the flash. -/
def flashCommands : List Text := ["sf erase".toList, "sf write".toList]

/-- No command that changes the flash occurs in a text. -/
def FlashFree (text : Text) : Prop := Sequences.Clear flashCommands text

instance (text : Text) : Decidable (FlashFree text) :=
  inferInstanceAs (Decidable (∀ command ∈ flashCommands, ¬command <:+: text))

/-- A template without a command that changes the flash, for any texts without one. -/
theorem flash_template (template : Sequences.Template Char) (holes : List Text)
    (tight : template.tight flashCommands = true) (free : ∀ hole ∈ holes, FlashFree hole) :
    FlashFree (template.fill holes) :=
  template.fill_clear tight (by decide) holes free

/-- A text without spaces has no room for a command. -/
theorem flash_spaceless (text : Text) (spaceless : ' ' ∉ text) : FlashFree text :=
  Sequences.clear_without ' ' text spaceless (by decide)

/-- A part of a text. -/
theorem FlashFree.part {text inner : Text} (free : FlashFree text) (inside : inner <:+: text) :
    FlashFree inner :=
  Sequences.Clear.part free inside

/-- Two texts around a character that no command has. -/
theorem FlashFree.seam {first second : Text} (free : FlashFree first) (character : Char)
    (foreign : ∀ command ∈ flashCommands, character ∉ command) (rest : FlashFree second) :
    FlashFree (first ++ character :: second) :=
  Sequences.Clear.seam free character foreign rest

section Numbers

/-- The hexadecimal digits of a number. The induction is on the number, from a number to its
quotient by sixteen. -/
theorem hex_digits (number : Nat) :
    ∀ character ∈ Nat.toDigits 16 number, character.isAlphanum = true := by
  have small : ∀ digit < 16, (Nat.digitChar digit).isAlphanum = true := by decide
  induction number using Nat.strong_induction_on with
  | h number inductionHypothesis =>
    by_cases last : number < 16
    · rw [Nat.toDigits_of_lt_base last]
      simpa using small number last
    · have split := Nat.toDigits_append_toDigits (b := 16) (n := number / 16) (d := number % 16)
        (by decide) (by omega) (by omega)
      rw [Nat.div_add_mod, Nat.toDigits_of_lt_base (Nat.mod_lt _ (by decide))] at split
      rw [← split]
      intro character member
      rcases List.mem_append.mp member with front | back
      · exact inductionHypothesis (number / 16) (by omega) character front
      · rw [List.mem_singleton.mp back]
        exact small _ (Nat.mod_lt _ (by decide))

/-- A number in hexadecimal has alphanumeric characters and a sign. -/
theorem hex_without (value : Int) (character : Char) (other : character.isAlphanum = false)
    (unsigned : character ≠ '-') : character ∉ Text.hex value := by
  intro member
  simp only [Text.hex, List.mem_append, List.mem_cons] at member
  rcases member with sign | rfl | rfl | digit
  · split at sign
    · exact unsigned (List.mem_singleton.mp sign)
    · cases sign
  · exact absurd other (by decide)
  · exact absurd other (by decide)
  · simp [hex_digits _ character digit] at other

/-- A decimal number has digits only. -/
theorem decimal_without (number : Nat) (character : Char) (other : character.isDigit = false) :
    character ∉ Text.decimal number := by
  intro member
  have digit := Nat.isDigit_of_mem_toDigits (b := 10) (by omega) (by omega) member
  simp [digit] at other

/-- The name of a temporary variable has no character but those of its kind, digits and the
ones in front. -/
theorem tmp_without (kind : Text) (number : Nat) (character : Char) (foreign : character ∉ kind)
    (front : character ∉ "__uboot_tftp_".toList) (other : character.isDigit = false) :
    character ∉ nextTmp kind number := by
  unfold nextTmp
  rw [List.mem_append, List.mem_append, List.mem_cons]
  rintro ((before | named) | rfl | digit)
  · exact front before
  · exact foreign named
  · exact front (by decide)
  · exact decimal_without number character other digit

/-- A number in hexadecimal holds no command. -/
theorem hex_free (value : Int) : FlashFree (Text.hex value) :=
  flash_spaceless _ (hex_without value ' ' (by decide) (by decide))

/-- A decimal number holds no command. -/
theorem decimal_free (number : Nat) : FlashFree (Text.decimal number) :=
  flash_spaceless _ (decimal_without number ' ' (by decide))

/-- The name of a temporary variable holds no command. -/
theorem tmp_free (kind : Text) (number : Nat) (spaceless : ' ' ∉ kind) :
    FlashFree (nextTmp kind number) :=
  flash_spaceless _ (tmp_without kind number ' ' spaceless (by decide) (by decide))

end Numbers

section Messages

/-- A message of a free text. -/
theorem echo_free (value : Text) (free : FlashFree value) : FlashFree (echo value) := by
  have escaped : FlashFree (Sequences.escaped '\\' '"' value) :=
    Sequences.Clear.escaped free '\\' '"' (by decide)
  have filled := flash_template [some "echo \"".toList, none, some ['"']] [_] (by decide)
    (List.forall_mem_singleton.mpr escaped)
  simpa [Sequences.Template.fill, echo, quote, Sequences.escaped] using filled

/-- A text between a style and the end of the style. The style ends with a letter that occurs in no
such command, and the parts around it hold no blank. -/
theorem styled_free (msg : Text) (free : FlashFree msg) (color : ColorName) (bold : Bool)
    (front back : Text) (before : ' ' ∉ front) (after : ' ' ∉ back) :
    FlashFree (front ++ style color bold ++ msg ++ restoreStyle ++ back) := by
  have opening : FlashFree (front ++ "\x1b[".toList ++ (if bold then "1;".toList else []) ++
      Nat.toDigits 10 color.code) := by
    refine flash_spaceless _ ?_
    simp only [List.mem_append, not_or]
    refine ⟨⟨⟨before, by decide⟩, ?_⟩, decimal_without color.code ' ' (by decide)⟩
    split
    · decide
    · decide
  have closing : FlashFree ("[0m".toList ++ back) := by
    refine flash_spaceless _ ?_
    simp only [List.mem_append, not_or]
    exact ⟨by decide, after⟩
  have whole := opening.seam 'm' (by decide) (free.seam '\x1b' (by decide) closing)
  simpa [style, restoreStyle] using whole

/-- A message holds no command that its text does not hold. -/
theorem msg_free (msg : Text) (free : FlashFree msg) (color : ColorName) (bold newline : Bool) :
    FlashFree (ubootMsg msg color bold newline) := by
  have shown := styled_free msg free color bold (restoreCursor ++ clearRegion)
    (if newline then [] else "\\c".toList) (by decide) (by split <;> decide)
  have closing : FlashFree (' ' :: echo saveCursor) := by decide
  have whole := (echo_free _ shown).seam ';' (by decide) closing
  simpa [ubootMsg] using whole

/-- An error message holds no command that its text does not hold. -/
theorem err_free (msg : Text) (free : FlashFree msg) : FlashFree (ubootErr msg) :=
  msg_free msg free .red true true

/-- A status line holds no command that its text does not hold. -/
theorem status_free (msg : Text) (free : FlashFree msg) (color : ColorName) (bold : Bool) :
    FlashFree (ubootStatus msg color bold) := by
  have shown := styled_free msg free color bold (restoreCursor ++ clearRegion ++ saveCursor) [] (by decide)
    (by decide)
  rw [List.append_nil] at shown
  exact echo_free _ shown

end Messages

section Snippets

/-- Joined lines of which each is free. -/
theorem snippet_free (lines : List Text) (each : ∀ line ∈ lines, FlashFree line) :
    FlashFree (snippet lines) :=
  Sequences.joined_parts FlashFree '\n' (by decide)
    (fun _ _ free rest => free.seam '\n' (by decide) rest) lines each

/-- Joined lines hold no command that none of them holds: the commands that are looked for hold no
newline. -/
theorem lines_free (lines : List Text) (each : ∀ line ∈ lines, FlashFree line) :
    FlashFree (Text.joinLines lines) :=
  snippet_free _ fun line member => each line (List.mem_of_mem_filter member)

variable (rambase : Text) (free : FlashFree rambase) (number : Nat)

/-- Giving up a temporary variable. -/
theorem setenv_free : FlashFree ("setenv ".toList ++ nextTmp "addr".toList number) := by
  have addr := tmp_free "addr".toList number (by decide)
  have filled := flash_template [some "setenv ".toList, none] [nextTmp "addr".toList number]
    (by decide) (List.forall_mem_singleton.mpr addr)
  simpa [Sequences.Template.fill] using filled

include free

/-- The commands name the load address by its expansion. -/
theorem expansion_free : FlashFree (expansion rambase) := by
  have filled := flash_template [some "$\x7b".toList, none, some "\x7d".toList] [rambase]
    (by decide) (List.forall_mem_singleton.mpr free)
  simpa [Sequences.Template.fill, expansion] using filled

/-- Computing the address in a temporary variable. -/
theorem setexpr_free (offset : Int) :
    FlashFree ("setexpr ".toList ++ nextTmp "addr".toList number ++ ' ' ::
      normalizeBase (expansion rambase) none ++ " + ".toList ++ formatNumber (.int offset)) := by
  have filled := flash_template
    [some "setexpr ".toList, none, some " $\x7b".toList, none, some "\x7d + ".toList, none]
    [nextTmp "addr".toList number, rambase, Text.hex offset] (by decide)
    (by simp [tmp_free, free, hex_free])
  simpa [Sequences.Template.fill, normalizeBase, expansion, formatNumber, formatUbootNumber]
    using filled

/-- The commands that fill memory change no flash. The first command computes the address, the
second one fills and the last one clears the temporary variable again. -/
theorem memset_free (size : Int) :
    FlashFree (ubootMemset (expansion rambase) number (.int 0) (.int 0xFF) (.int size) none) := by
  have filling : FlashFree ("mw.b ".toList ++ expansion (nextTmp "addr".toList number) ++ ' ' ::
      formatNumber (.int 0xFF) ++ ' ' :: formatNumber (.int size)) := by
    have filled := flash_template
      [some "mw.b $\x7b".toList, none, some "\x7d 0xff ".toList, none]
      [nextTmp "addr".toList number, Text.hex size] (by decide) (by simp [tmp_free, hex_free])
    have value : Text.hex 0xFF = "0xff".toList := by decide
    simpa [Sequences.Template.fill, expansion, formatNumber, formatUbootNumber, value] using filled
  apply snippet_free
  intro line member
  simp only [List.mem_cons, List.not_mem_nil, or_false] at member
  rcases member with rfl | rfl | rfl
  · exact setexpr_free rambase free number 0
  · exact filling
  · exact setenv_free number

/-- The commands that read the flash change none of it. One of them is `sf read`, which begins with
the name of the commands that change the flash but goes on with another word. -/
theorem nor_read_free (size : Int) :
    FlashFree (ubootNorRead (expansion rambase) number (.int 0) (.int 0) (.int size) none) := by
  have reading : FlashFree ("sf ".toList ++ "read".toList ++ ' ' ::
      expansion (nextTmp "addr".toList number) ++ ' ' :: formatNumber (.int 0) ++
        ' ' :: formatNumber (.int size)) := by
    have filled := flash_template
      [some "sf read $\x7b".toList, none, some "\x7d 0x0 ".toList, none]
      [nextTmp "addr".toList number, Text.hex size] (by decide) (by simp [tmp_free, hex_free])
    have value : Text.hex 0 = "0x0".toList := by decide
    simpa [Sequences.Template.fill, expansion, formatNumber, formatUbootNumber, value] using filled
  apply snippet_free
  intro line member
  simp only [List.mem_cons, List.not_mem_nil, or_false] at member
  rcases member with rfl | rfl | rfl | rfl
  · decide +kernel
  · exact setexpr_free rambase free number 0
  · exact reading
  · exact setenv_free number

/-- The commands that load a file change no flash, if its name holds no command. The name stands in
the command itself and is not quoted there, so a name with such a command in it would not be
harmless. -/
theorem fetch_static_free (serverIp filename : Text) (address : FlashFree serverIp)
    (named : FlashFree filename) (offset : Int) :
    FlashFree (ubootFetchStatic (expansion rambase) serverIp number filename (some (.int offset))
      none) := by
  have remote : FlashFree (filename.dropWhile (· == '/')) :=
    named.part (List.dropWhile_suffix _).isInfix
  have fetching : FlashFree ("tftpboot ".toList ++ expansion (nextTmp "addr".toList number) ++
      " \"".toList ++ serverIp ++ ':' :: filename.dropWhile (· == '/') ++ ['"']) := by
    have filled := flash_template
      [some "tftpboot $\x7b".toList, none, some "\x7d \"".toList, none, some [':'], none, some ['"']]
      [nextTmp "addr".toList number, serverIp, filename.dropWhile (· == '/')] (by decide)
      (by simp [tmp_free, address, remote])
    simpa [Sequences.Template.fill, expansion] using filled
  apply snippet_free
  intro line member
  simp only [List.mem_cons, List.not_mem_nil, or_false] at member
  rcases member with rfl | rfl | rfl
  · exact setexpr_free rambase free number offset
  · exact fetching
  · exact setenv_free number

/-- The probe for the size reads only.

Proof: by the recursion of the generator; the lines of one size hold no command that changes the
flash, and those of the doubled size are covered by the induction. -/
theorem gen_probe_free (size : Nat) (maxSize knownGood : Int) (present : 0 < size) :
    ∀ line ∈ ubootNorGenProbe (expansion rambase) size maxSize knownGood 0 none present,
      FlashFree line := by
  have reported (known : Int) : FlashFree ("size=".toList ++ Text.hex known ++ ";\n".toList) := by
    have filled := flash_template [some "size=".toList, none, some ";\n".toList] [Text.hex known]
      (by decide) (List.forall_mem_singleton.mpr (hex_free known))
    simpa [Sequences.Template.fill] using filled
  have reading (size : Int) : FlashFree ("sf read ".toList ++
      normalizeBase (expansion rambase) none ++ ' ' :: Text.hex 0 ++ ' ' :: Text.hex size ++
        ";\n".toList) := by
    have filled := flash_template
      [some "sf read $\x7b".toList, none, some "\x7d 0x0 ".toList, none, some ";\n".toList]
      [rambase, Text.hex size] (by decide) (by simp [free, hex_free])
    have value : Text.hex 0 = "0x0".toList := by decide
    simpa [Sequences.Template.fill, normalizeBase, expansion, value] using filled
  induction size, knownGood, present using ubootNorGenProbe.induct maxSize with
  | case1 size knownGood present beyond =>
    rw [ubootNorGenProbe, if_pos beyond]
    exact List.forall_mem_singleton.mpr (reported knownGood)
  | case2 size knownGood present within inductionHypothesis =>
    rw [ubootNorGenProbe, if_neg within]
    intro line member
    simp only [List.mem_append, List.mem_cons, List.not_mem_nil, or_false] at member
    rcases member with ((rfl | rfl | rfl | rfl | rfl) | inner) | rfl
    · decide +kernel
    · exact reading size
    · decide +kernel
    · exact reported knownGood
    · decide +kernel
    · exact inductionHypothesis line inner
    · decide +kernel

end Snippets

section Sent

variable {κ : Type u} (session : ClientSession κ)

/-- The id of a client has no space. -/
theorem client_spaceless (client : ClientId) : ' ' ∉ client.text := by
  obtain ⟨text, lowered, accepted⟩ := client
  simp only [clientIdMatches, Bool.and_eq_true, List.all_eq_true] at accepted
  intro member
  split at accepted
  · rename_i last
    obtain ⟨front, rfl⟩ := List.getLast?_eq_some_iff.mp last
    rw [List.dropLast_concat] at accepted
    rcases List.mem_append.mp member with inside | ended
    · exact absurd (accepted.2 ' ' inside) (by decide)
    · exact absurd (List.mem_singleton.mp ended) (by decide)
  · exact absurd (accepted.2 ' ' member) (by decide)

/-- The name of a continuation has no space if its token and its keys have none. The other segments
are the client id, which has none, and the status of an upload, if one is given; the names of the
segments are fixed. -/
theorem path_spaceless (client : ClientId) (token : Text) (tokenFree : ' ' ∉ token)
    (recvStatus : Option Text) (status : ∀ status ∈ recvStatus, ' ' ∉ status)
    (returnKeys : List Text) (keysFree : ∀ key ∈ returnKeys, ' ' ∉ key) :
    ' ' ∉ continuePath client token recvStatus returnKeys expansion := by
  refine Sequences.joined_parts (fun text => ' ' ∉ text) '/' List.not_mem_nil ?_ _ ?_
  · intro first second free rest
    simp [free, rest]
  · intro segment member
    simp only [continueSegments, List.cons_append, List.mem_cons, List.mem_append,
      Option.mem_toList, Option.map_eq_some_iff, List.mem_map] at member
    rcases member with rfl | rfl | ⟨status', same, rfl⟩ | ⟨key, inside, rfl⟩
    · simp [client_spaceless]
    · simp [tokenFree]
    · simp [status status' same]
    · simp [expansion, keysFree key inside]

/-- The texts of the session that its server puts into scripts. -/
structure FreeTexts (keys : List Text) : Prop where
  env : ∀ key ∈ keys, ∀ value, session.env.get key = some value → FlashFree value
  serverIp : FlashFree session.serverIp

variable {session}

/-- A text that is looked up with success is there. -/
theorem looked_up {env : Dict Text Text} {key value : Text} (found : lookupEnv env key = .ok value) :
    env.get key = some value := by
  unfold lookupEnv at found
  split at found
  · rename_i held
    cases found
    exact held
  · cases found

/-- The command that continues a session. The path in it holds no blank, so that no command can
begin inside it. -/
theorem continue_free (keys : List Text) (texts : FreeTexts session keys)
    (fetches : "cmdtftp".toList ∈ keys) (loads : "rambase".toList ∈ keys)
    (recvStatus : Option Text) (returnKeys : List Text)
    (spaceless : ∀ token, session.currentToken = some token →
      ' ' ∉ continuePath session.clientId token recvStatus returnKeys expansion)
    (command : Text) (built : continueCommand session recvStatus returnKeys = .ok command) :
    FlashFree command := by
  cases current : session.currentToken with
  | none => simp [continueCommand, current] at built
  | some token =>
    have parts := built
    simp only [continueCommand, current] at parts
    obtain ⟨cmdtftp, fetched, parts⟩ := (Except.bind_eq_ok _ _ _).mp parts
    obtain ⟨rambase, loaded, -⟩ := (Except.bind_eq_ok _ _ _).mp parts
    have fetched := looked_up fetched
    have loaded := looked_up loaded
    rw [continue_command_eq session token cmdtftp rambase current fetched loaded] at built
    have filled := flash_template
      [some "if ".toList, none, some " $\x7b".toList, none, some "\x7d \"".toList, none,
        some [':'], none, some "\"; then source $\x7b".toList, none,
        some "\x7d; else echo \"uboot-tftp: continuation RRQ failed\"; fi".toList]
      [cmdtftp, rambase, session.serverIp,
        continuePath session.clientId token recvStatus returnKeys expansion, rambase]
      (by decide)
      (by simp [texts.env _ fetches _ fetched, texts.env _ loads _ loaded, texts.serverIp,
        flash_spaceless _ (spaceless token current)])
    cases built
    simpa [Sequences.Template.fill, expansion] using filled

/-- The continuation that the server appends to a script is free. It is built of the session's load
address and fetch command, of the fresh token and of the requested keys, and each of them is free by
assumption. -/
theorem appended_free (keys : List Text) (texts : FreeTexts session keys)
    (loads : "rambase".toList ∈ keys) (fetches : "cmdtftp".toList ∈ keys) (token : Text)
    (tokenFree : ' ' ∉ token) (returnKeys : List Text) (keysFree : ∀ key ∈ returnKeys, ' ' ∉ key)
    (script text : Text)
    (built : appendContinue script { session with currentToken := some token, phase := .awaitRrq }
      none returnKeys = .ok text) :
    ∃ command, FlashFree command ∧ text = Text.joinLines [script, command] := by
  obtain ⟨command, made, same⟩ := (Except.bind_eq_ok _ _ _).mp built
  cases same
  have kept : FreeTexts { session with currentToken := some token, phase := .awaitRrq } keys :=
    ⟨texts.env, texts.serverIp⟩
  refine ⟨command, continue_free keys kept fetches loads _ _ ?_ _ made, rfl⟩
  rintro drawn ⟨⟩
  exact path_spaceless session.clientId token tokenFree none (by simp) _ keysFree

/-- The commands that upload a range and continue with the outcome. There are two branches, one for
each outcome of the upload, and each of them continues with its own status. -/
theorem receive_free (texts : FreeTexts session hiddenKeys) (script tmpName : Text)
    (free : FlashFree script) (returnKeys : List Text) (token : Text) (size : Int)
    (expecting : session.pendingReceive = some ⟨token, "/upload.bin".toList, size, none⟩)
    (current : session.currentToken = some token) (tokenFree : ' ' ∉ token)
    (keysFree : ∀ key ∈ returnKeys, ' ' ∉ key) (text : Text)
    (built : appendReceive script session tmpName returnKeys none = .ok text) : FlashFree text := by
  simp only [appendReceive, expecting] at built
  obtain ⟨success, succeeds, built⟩ := (Except.bind_eq_ok _ _ _).mp built
  obtain ⟨failure, fails, built⟩ := (Except.bind_eq_ok _ _ _).mp built
  obtain ⟨_, addressed, built⟩ := (Except.bind_eq_ok _ _ _).mp built
  obtain ⟨rambase, loaded, addressed⟩ := (Except.bind_eq_ok _ _ _).mp addressed
  obtain ⟨cmdtftpput, puts, built⟩ := (Except.bind_eq_ok _ _ _).mp built
  cases addressed
  cases built
  have branch (status command : Text) (statusFree : ' ' ∉ status)
      (made : continueCommand session (some status) returnKeys = .ok command) :
      FlashFree command := by
    refine continue_free hiddenKeys texts (by decide) (by decide) _ _ ?_ command made
    intro drawn same
    rw [current] at same
    cases same
    exact path_spaceless session.clientId token tokenFree _ (by simpa using statusFree) _ keysFree
  have remote : FlashFree ("id=".toList ++ session.clientId.text ++ "/token=".toList ++ token ++
      "/upload.bin".toList) := by
    refine flash_spaceless _ ?_
    simp [client_spaceless, tokenFree]
  have putsFree : FlashFree cmdtftpput :=
    texts.env "cmdtftpput".toList (by decide) cmdtftpput (looked_up puts)
  have loadsFree : FlashFree rambase :=
    texts.env "rambase".toList (by decide) rambase (looked_up loaded)
  have filled := flash_template
    [some "if ".toList, none, some " $\x7b".toList, none, some "\x7d ".toList, none,
      some " \"".toList, none, some [':'], none, some "\";\nthen\n    ".toList, none,
      some "\nelse\n    ".toList, none, some "\nfi".toList]
    [cmdtftpput, rambase, Text.hex size, session.serverIp,
      "id=".toList ++ session.clientId.text ++ "/token=".toList ++ token ++ "/upload.bin".toList,
      success, failure]
    (by decide)
    (by simp only [List.forall_mem_cons]
        exact ⟨putsFree, loadsFree, hex_free size, texts.serverIp, remote,
          branch _ _ (by decide) succeeds, branch _ _ (by decide) fails, by simp⟩)
  apply lines_free
  intro line member
  simp only [List.mem_cons, List.not_mem_nil, or_false] at member
  rcases member with rfl | rfl | rfl | rfl
  · exact free
  · decide +kernel
  · simpa [Sequences.Template.fill, expansion] using filled
  · decide +kernel

/-- What is sent for a request is free when the script of the request is. An upload has two
continuations and other requests have one. The settings that have to be free are those that stand in
these. -/
theorem sent_free (token tmpName : Text) (tokenFree : ' ' ∉ token) (request : ExecutionRequest)
    (keys : List Text) (texts : FreeTexts session keys) (loads : "rambase".toList ∈ keys)
    (fetches : "cmdtftp".toList ∈ keys)
    (puts : request.receiveSize ≠ none → "cmdtftpput".toList ∈ keys)
    (offset : request.receiveOffset = none) (keysFree : ∀ key ∈ request.returnKeys, ' ' ∉ key)
    (free : FlashFree request.script) (script : Text)
    (sent : sentScript token tmpName session request = .ok script) : FlashFree script := by
  have stripped : FlashFree (Text.rstrip request.script) :=
    free.part (List.rdropWhile_prefix _ _).isInfix
  unfold sentScript at sent
  split at sent
  · rename_i size sized
    rw [offset] at sent
    refine receive_free ?_ _ _ stripped request.returnKeys token size rfl rfl tokenFree keysFree _ sent
    refine ⟨fun key member value held => ?_, texts.serverIp⟩
    have listed : key ∈ keys := by
      simp only [hiddenKeys, List.mem_cons, List.not_mem_nil, or_false] at member
      rcases member with rfl | rfl | rfl
      · exact loads
      · exact fetches
      · exact puts (by simp [sized])
    exact texts.env key listed value held
  · split at sent
    · cases sent
      exact stripped
    · obtain ⟨command, appended, rfl⟩ := appended_free keys texts loads fetches token tokenFree _
        keysFree _ _ sent
      apply lines_free
      intro line member
      simp only [List.mem_cons, List.not_mem_nil, or_false] at member
      rcases member with rfl | rfl
      · exact stripped
      · exact appended

end Sent

/-- A line that changes the flash only from its start on and at most up to a size. The start is
always zero, in the flash and for both commands; the address in the memory may be anything without a
blank. -/
inductive FlashLine (size : Int) : Text → Prop
  | free (line : Text) (free : FlashFree line) : FlashLine size line
  | erase (length : Nat) (within : (length : Int) ≤ size) :
      FlashLine size ("sf erase 0x0 ".toList ++ Text.hex length)
  | write (address : Text) (spaceless : ' ' ∉ address) (length : Nat)
      (within : (length : Int) ≤ size) :
      FlashLine size ("sf write ".toList ++ address ++ " 0x0 ".toList ++ Text.hex length)

/-- Every line of a script is such a line. -/
def FlashLines (size : Int) (script : Text) : Prop :=
  ∀ line ∈ script.splitOn '\n', FlashLine size line

section Lines

variable {size : Int}

/-- A free script changes nothing. -/
theorem flash_lines_free (script : Text) (free : FlashFree script) : FlashLines size script := by
  intro line member
  have inside : line <:+: script := by
    have joined := Sequences.joined_infix ['\n'] _ line member
    rwa [List.intercalate_splitOn] at joined
  exact .free line (free.part inside)

/-- A script of one line. -/
theorem flash_lines_single (line : Text) (single : '\n' ∉ line) (changes : FlashLine size line) :
    FlashLines size line := by
  rw [FlashLines, List.splitOn_eq_singleton single]
  exact List.forall_mem_singleton.mpr changes

/-- Two scripts that are joined. -/
theorem flash_lines_join (first second : Text) (before : FlashLines size first)
    (after : FlashLines size second) : FlashLines size (first ++ '\n' :: second) := by
  rw [FlashLines, List.splitOn_append_cons_self]
  exact List.forall_mem_append.mpr ⟨before, after⟩

/-- A snippet changes the flash within the size only, if each of its texts does. -/
theorem flash_lines_snippet (lines : List Text) (each : ∀ line ∈ lines, FlashLines size line) :
    FlashLines size (snippet lines) :=
  Sequences.joined_parts (FlashLines size) '\n' (flash_lines_free [] (by decide))
    flash_lines_join lines each

/-- So do joined texts; leaving out the empty ones changes nothing. -/
theorem flash_lines_joined (lines : List Text) (each : ∀ line ∈ lines, FlashLines size line) :
    FlashLines size (Text.joinLines lines) :=
  flash_lines_snippet _ fun line member => each line (List.mem_of_mem_filter member)

/-- Erasing from the beginning of the flash on stays within the size, if the length does. The other
line of the snippet probes for the flash and changes none of it. -/
theorem nor_erase_lines (length : Nat) (within : (length : Int) ≤ size) :
    FlashLines size (ubootNorErase (.int 0) (.int length)) := by
  have erasing : FlashLines size ("sf erase 0x0 ".toList ++ Text.hex length) := by
    refine flash_lines_single _ ?_ (.erase length within)
    exact List.not_mem_append (by decide) (hex_without length '\n' (by decide) (by decide))
  apply flash_lines_snippet
  intro line member
  simp only [List.mem_cons, List.not_mem_nil, or_false] at member
  rcases member with rfl | rfl
  · exact flash_lines_free _ (by decide)
  · have value : Text.hex 0 = "0x0".toList := by decide
    simpa [formatNumber, formatUbootNumber, value] using erasing

/-- Writing to the beginning of the flash stays within the size, if the length does. The offset is
that in the memory; in the flash the data goes to the beginning. -/
theorem nor_write_lines (rambase : Text) (free : FlashFree rambase) (number length : Nat)
    (offset : Int) (within : (length : Int) ≤ size) :
    FlashLines size
      (ubootNorWrite (expansion rambase) number (.int 0) (.int offset) (.int length) none) := by
  have writing : FlashLines size ("sf write ".toList ++ expansion (nextTmp "addr".toList number) ++
      " 0x0 ".toList ++ Text.hex length) := by
    have spaceless := tmp_without "addr".toList number ' ' (by decide) (by decide) (by decide)
    have single := tmp_without "addr".toList number '\n' (by decide) (by decide) (by decide)
    have digits := hex_without length '\n' (by decide) (by decide)
    refine flash_lines_single _ ?_ (.write _ ?_ length within)
    · simp only [expansion, List.mem_append, not_or]
      exact ⟨⟨⟨by decide, ⟨by decide, single⟩, by decide⟩, by decide⟩, digits⟩
    · simp only [expansion, List.mem_append, not_or]
      exact ⟨⟨by decide, spaceless⟩, by decide⟩
  apply flash_lines_snippet
  intro line member
  simp only [List.mem_cons, List.not_mem_nil, or_false] at member
  rcases member with rfl | rfl | rfl | rfl
  · exact flash_lines_free _ (by decide)
  · exact flash_lines_free _ (setexpr_free rambase free number offset)
  · have value : Text.hex 0 = "0x0".toList := by decide
    simpa [formatNumber, formatUbootNumber, value] using writing
  · exact flash_lines_free _ (setenv_free number)

/-- What is sent for a request without an upload changes the flash as its script does. The line that
is appended continues the session and changes no flash itself. -/
theorem sent_lines {κ : Type u} (session : ClientSession κ) (token tmpName : Text)
    (tokenFree : ' ' ∉ token) (request : ExecutionRequest) (keys : List Text)
    (texts : FreeTexts session keys) (loads : "rambase".toList ∈ keys)
    (fetches : "cmdtftp".toList ∈ keys) (expects : request.receiveSize = none)
    (keysFree : ∀ key ∈ request.returnKeys, ' ' ∉ key)
    (changes : FlashLines size (Text.rstrip request.script)) (script : Text)
    (sent : sentScript token tmpName session request = .ok script) : FlashLines size script := by
  simp only [sentScript, expects] at sent
  split at sent
  · cases sent
    exact changes
  · obtain ⟨command, appended, rfl⟩ := appended_free keys texts loads fetches token tokenFree _
      keysFree _ _ sent
    apply flash_lines_joined
    intro line member
    simp only [List.mem_cons, List.not_mem_nil, or_false] at member
    rcases member with rfl | rfl
    · exact changes
    · exact flash_lines_free _ appended

end Lines

end UbootTftp
