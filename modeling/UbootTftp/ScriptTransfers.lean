import UbootTftp.ComposedScripts
import UbootTftp.EmittedRequests
import UbootTftp.HandlerRuns
import UbootTftp.HexNumbers

/-!
# The transfers in the scripts of the server

The server puts a continuation behind the script of the user, or an upload with a continuation
for each of its outcomes. Both are scripts that are composed of transfers. The address of an
upload is the load address or a variable that is computed before it, and what stands between
its address and its target is the size, where a download has a space only.
-/

namespace Text

/-- A line before others, with its newline unless it is left out. -/
def lineBefore (line : Text) : Text := if line = [] then [] else line ++ ['\n']

/-- A line behind others, with the newline before it unless it is left out. -/
def lineAfter (line : Text) : Text := if line = [] then [] else '\n' :: line

/-- The lines behind one that is not empty. -/
theorem join_behind (line : Text) (present : line ≠ []) (back : List Text) :
    joinLines (line :: back) = line ++ back.flatMap lineAfter := by
  induction back generalizing line with
  | nil => simp [joinLines, present]
  | cons next back inductionHypothesis =>
    by_cases empty : next = []
    · have skipped : joinLines (line :: next :: back) = joinLines (line :: back) := by
        simp [joinLines, present, empty]
      rw [skipped, inductionHypothesis line present, List.flatMap_cons, lineAfter, if_pos empty,
        List.nil_append]
    · have later := inductionHypothesis next empty
      have joined : joinLines (line :: next :: back) = line ++ '\n' :: joinLines (next :: back) := by
        simp [joinLines, present, empty, List.intercalate_cons_cons]
      rw [joined, later, List.flatMap_cons, lineAfter, if_neg empty, List.cons_append]

/-- The lines around one that is not empty.

Proof: by induction on the lines in front. -/
theorem join_around (front : List Text) (line : Text) (present : line ≠ []) (back : List Text) :
    joinLines (front ++ line :: back) =
      front.flatMap lineBefore ++ (line ++ back.flatMap lineAfter) := by
  induction front with
  | nil => exact join_behind line present back
  | cons first front inductionHypothesis =>
    rw [List.cons_append, List.flatMap_cons, lineBefore]
    by_cases empty : first = []
    · have skipped : joinLines (first :: (front ++ line :: back)) =
          joinLines (front ++ line :: back) := by
        simp [joinLines, empty]
      rw [skipped, inductionHypothesis, if_pos empty, List.nil_append]
    · have kept : (front ++ line :: back).filter (fun line => decide (line ≠ [])) ≠ [] := by
        simp [present]
      obtain ⟨next, rest, shape⟩ := List.exists_cons_of_ne_nil kept
      have joined : joinLines (first :: (front ++ line :: back)) =
          first ++ '\n' :: joinLines (front ++ line :: back) := by
        rw [joinLines, List.filter_cons_of_pos (by simpa using empty), shape,
          List.intercalate_cons_cons, joinLines, shape]
        simp
      rw [joined, inductionHypothesis, if_neg empty]
      simp

end Text

namespace UbootTftp

universe u
variable {κ : Type u}

namespace TestClient

section Inert

/-- A text without a colon and a dollar sign is inert. -/
theorem inert_plain (text : Text) (colonless : ':' ∉ text) (plain : '$' ∉ text) : Inert text :=
  ⟨closes_plain text plain, Sequences.clear_without ':' text colonless (by simp)⟩

/-- Inert lines before an inert text are inert with it. By induction on the lines, each of which is
parted from the next by a line break, where nothing can begin. -/
theorem inert_before (front : List Text) (inert : ∀ line ∈ front, Inert line) (text : Text)
    (last : Inert text) : Inert (front.flatMap Text.lineBefore ++ text) := by
  induction front with
  | nil => exact last
  | cons line front inductionHypothesis =>
    have later := inductionHypothesis fun other member => inert other (by simp [member])
    rw [List.flatMap_cons, List.append_assoc, Text.lineBefore]
    split
    · exact later
    · rw [List.append_assoc, List.singleton_append]
      exact (inert line (by simp)).seam '\n' (by decide) (by decide) (by decide) later

/-- The front of an inert text is inert if no brace is cut off. -/
theorem Inert.front {text back : Text} (inert : Inert (text ++ back)) (plain : '}' ∉ back) :
    Inert text :=
  ⟨inert.closes.before plain, inert.clear.part (List.prefix_append text back).isInfix⟩

/-- Without its last spaces an inert text is inert. -/
theorem Inert.rstrip {text : Text} (inert : Inert text) : Inert (Text.rstrip text) := by
  have split : Text.rstrip text ++ text.rtakeWhile Text.isSpace = text :=
    List.rdropWhile_append_rtakeWhile
  have plain : '}' ∉ text.rtakeWhile Text.isSpace := by
    intro member
    exact absurd (List.mem_rtakeWhile_imp member) (by decide)
  rw [← split] at inert
  exact inert.front plain

/-- A last newline changes nothing. -/
theorem Inert.ensured {text : Text} (inert : Inert text) : Inert (ensureNewline text) := by
  unfold ensureNewline
  split
  · exact inert
  · exact inert.seam '\n' (by decide) (by decide) (by decide) inert_nil

/-- A name that is joined of inert segments is inert. By induction on the segments. A slash between
two of them opens no transfer and no reference. -/
theorem inert_joined (segments : List Text) (inert : ∀ segment ∈ segments, Inert segment) :
    Inert (List.intercalate ['/'] segments) := by
  induction segments with
  | nil => exact inert_nil
  | cons first segments inductionHypothesis =>
    cases segments with
    | nil => simpa using inert first (by simp)
    | cons second segments =>
      have later := inductionHypothesis fun other member => inert other (by simp [member])
      rw [List.intercalate_cons_cons, List.append_assoc, List.singleton_append]
      exact (inert first (by simp)).seam '/' (by decide) (by decide) (by decide) later

/-- A symbol of a joined name that is no slash is one of a segment. -/
theorem joined_without (symbol : Char) (foreign : symbol ≠ '/') (segments : List Text)
    (free : ∀ segment ∈ segments, symbol ∉ segment) :
    symbol ∉ List.intercalate ['/'] segments := by
  induction segments with
  | nil => simp
  | cons first segments inductionHypothesis =>
    cases segments with
    | nil => simpa using free first (by simp)
    | cons second segments =>
      have later := inductionHypothesis fun other member => free other (by simp [member])
      rw [List.intercalate_cons_cons, List.append_assoc, List.singleton_append]
      simp only [List.mem_append, List.mem_cons, not_or]
      exact ⟨free first (by simp), foreign, later⟩

end Inert

/-- A word over `[A-Za-z0-9_]`. -/
def Word (text : Text) : Prop := text ≠ [] ∧ ∀ character ∈ text, isCommandChar character = true

instance : DecidablePred Word := fun text =>
  decidable_of_iff (text ≠ [] ∧ text.all isCommandChar = true)
    (and_congr_right fun _ => List.all_eq_true)

/-- A word holds no other characters. -/
theorem Word.foreign {text : Text} (word : Word text) (symbol : Char)
    (other : isCommandChar symbol = false) : symbol ∉ text := by
  intro member
  rw [word.2 symbol member] at other
  cases other

/-- A session whose settings and token the server writes into scripts as they should be: the
token is URL-safe, the address of the server has digits and dots, the commands are words, and
the load address is a variable that can be expanded. -/
structure PlainSession (session : ClientSession κ) (token cmdtftp cmdtftpput rambase : Text) :
    Prop where
  urlSafe : ∀ character ∈ token, isClientIdChar character = true
  served : session.serverIp ≠ []
  dotted : ∀ character ∈ session.serverIp, character.isDigit = true ∨ character = '.'
  fetches : session.env.get "cmdtftp".toList = some cmdtftp
  fetching : Word cmdtftp
  sends : session.env.get "cmdtftpput".toList = some cmdtftpput
  sending : Word cmdtftpput
  loads : session.env.get "rambase".toList = some rambase
  addressed : rambase ≠ []
  braceless : '}' ∉ rambase

/-- Only the address of the server and the environment of the session matter. -/
theorem PlainSession.moved {session : ClientSession κ} {token cmdtftp cmdtftpput rambase : Text}
    (plain : PlainSession session token cmdtftp cmdtftpput rambase) (other : ClientSession κ)
    (server : other.serverIp = session.serverIp) (env : other.env = session.env) :
    PlainSession other token cmdtftp cmdtftpput rambase where
  urlSafe := plain.urlSafe
  served := server ▸ plain.served
  dotted := server ▸ plain.dotted
  fetches := env ▸ plain.fetches
  fetching := plain.fetching
  sends := env ▸ plain.sends
  sending := plain.sending
  loads := env ▸ plain.loads
  addressed := plain.addressed
  braceless := plain.braceless

/-- The token holds no other characters. -/
theorem PlainSession.foreign {session : ClientSession κ}
    {token cmdtftp cmdtftpput rambase : Text}
    (plain : PlainSession session token cmdtftp cmdtftpput rambase) (symbol : Char)
    (other : isClientIdChar symbol = false) : symbol ∉ token := by
  intro member
  rw [plain.urlSafe symbol member] at other
  cases other

/-- A client id holds no other characters. -/
theorem client_id_foreign (client : ClientId) (symbol : Char)
    (other : isClientIdChar symbol = false) (inner : symbol ≠ '\n') : symbol ∉ client.text := by
  intro member
  rcases client_id_characters client symbol member with inside | newline
  · rw [inside] at other
    cases other
  · exact inner newline

/-- The name of a session request behind the mark of its client. -/
def remoteName (client : ClientId) (segments : List Text) : Text :=
  List.intercalate ['/'] (client.text :: segments)

/-- A session path is the mark and the name. -/
theorem session_path_name (client : ClientId) (segments : List Text) :
    sessionPath client segments = "id=".toList ++ remoteName client segments := by
  cases segments with
  | nil => simp [sessionPath, remoteName]
  | cons first segments => simp [sessionPath, remoteName, List.intercalate_cons_cons]

/-- A transfer of a session. -/
def sessionLeg (session : ClientSession κ) (lead command address middle : Text)
    (segments : List Text) : Leg :=
  ⟨lead, command, address, middle, session.serverIp, remoteName session.clientId segments⟩

/-- What stands behind the target of a continuation. -/
def continuationTail (rambase : Text) : Text :=
  "; then source ".toList ++ expansion rambase ++
    "; else echo \"uboot-tftp: continuation RRQ failed\"; fi".toList

/-- The transfer of a continuation. -/
def continueLeg (session : ClientSession κ) (lead token cmdtftp rambase : Text)
    (status : Option Text) (keys : List Text) : Leg :=
  sessionLeg session lead cmdtftp rambase [' '] (continueSegments token status keys expansion)

/-- The transfer of an upload. -/
def uploadLeg (session : ClientSession κ) (lead token cmdtftpput address : Text) (size : Int) :
    Leg :=
  sessionLeg session lead cmdtftpput address (' ' :: Text.hex size ++ [' '])
    ["token=".toList ++ token, "upload.bin".toList]

/-- The transfers of a script with an upload. -/
def receiveLegs (session : ClientSession κ)
    (token cmdtftp cmdtftpput rambase address lead : Text) (size : Int) (keys : List Text) :
    List Leg :=
  [uploadLeg session lead token cmdtftpput address size,
    continueLeg session (";\nthen\n    ".toList ++ "if".toList) token cmdtftp rambase
      (some "ok".toList) keys,
    continueLeg session (continuationTail rambase ++ "\nelse\n    ".toList ++ "if".toList) token
      cmdtftp rambase (some "failed".toList) keys]

section Texts

/-- A transfer behind the word before it. -/
theorem composed_text (lead command address middle server remote tail : Text) :
    composed [⟨lead, command, address, middle, server, remote⟩] tail =
      lead ++ ' ' :: command ++ ' ' :: expansion address ++ middle ++ '"' :: server ++
        ':' :: ("id=".toList ++ remote) ++ '"' :: tail := by
  simp [composed, Leg.call, expansion]

/-- The conditional of an upload with its continuations is composed of them. The server writes it as
a text with the paths in their places, and the composition has the same characters in another
grouping. -/
theorem receive_text (session : ClientSession κ)
    (token cmdtftp cmdtftpput rambase address : Text) (size : Int) (keys : List Text) :
    "if ".toList ++ cmdtftpput ++ ' ' :: expansion address ++ ' ' :: Text.hex size ++
      " \"".toList ++ session.serverIp ++ ':' :: uploadPath session.clientId token ++
      "\";\nthen\n    ".toList ++
      composed [continueLeg session "if".toList token cmdtftp rambase (some "ok".toList) keys]
        (continuationTail rambase) ++ "\nelse\n    ".toList ++
      composed [continueLeg session "if".toList token cmdtftp rambase (some "failed".toList) keys]
        (continuationTail rambase) ++ "\nfi".toList =
    composed (receiveLegs session token cmdtftp cmdtftpput rambase address "if".toList size keys)
      (continuationTail rambase ++ "\nfi".toList) := by
  have quoted : "\";\nthen\n    ".toList = '"' :: ";\nthen\n    ".toList := by decide +kernel
  have begins : ∀ path opened success middle failure closed : Text,
      "if ".toList ++ cmdtftpput ++ ' ' :: expansion address ++ ' ' :: Text.hex size ++
        " \"".toList ++ session.serverIp ++ ':' :: path ++ '"' :: opened ++ success ++ middle ++
          failure ++ closed =
        "if".toList ++ ' ' :: cmdtftpput ++ ' ' :: expansion address ++
          (' ' :: Text.hex size ++ [' ']) ++ '"' :: session.serverIp ++ ':' :: path ++
            '"' :: (opened ++ (success ++ (middle ++ (failure ++ closed)))) := by simp
  have inner : ∀ (first second : Leg) (tail middle closed : Text),
      composed [first] tail ++ (middle ++ (composed [second] tail ++ closed)) =
        composed [first, { second with lead := (tail ++ middle) ++ second.lead }]
          (tail ++ closed) := by
    intro first second tail middle closed
    rw [composed_behind, composed_behind, ← List.append_assoc tail]
    exact composed_next [first] (tail ++ middle) second [] (tail ++ closed)
  rw [quoted]
  refine (begins _ _ _ _ _ _).trans ?_
  rw [inner, uploadPath, session_path_name, ← composed_text]
  exact composed_next [uploadLeg session "if".toList token cmdtftpput address size] _ _ _ _

/-- Something stands behind a target. -/
theorem continuation_tail_present (rambase : Text) : continuationTail rambase ≠ [] := by
  have front : "; then source ".toList ≠ [] := by decide
  exact List.append_ne_nil_of_left_ne_nil (List.append_ne_nil_of_left_ne_nil front _) _

/-- Behind a load address without a target nothing is left open. It holds a colon in its message,
but no name of a session begins at it. -/
theorem inert_tail (rambase : Text) (clear : Sequences.Clear [":id=".toList] rambase) (back : Text)
    (colonless : ':' ∉ back) (closed : '$' ∉ back) : Inert (continuationTail rambase ++ back) := by
  have front : Inert "; then source ".toList := inert_plain _ (by decide +kernel) (by decide +kernel)
  have warned : Sequences.Clear [":id=".toList] "; else echo \"uboot-tftp:".toList := by
    intro pattern member
    rw [List.mem_singleton.mp member]
    decide +kernel
  have message : ':' ∉ "continuation RRQ failed\"; fi".toList := by decide +kernel
  have unexpanded : '$' ∉ "; else echo \"uboot-tftp: continuation RRQ failed\"; fi".toList := by
    decide +kernel
  -- the colon of the message is followed by a space
  have spaced : "; else echo \"uboot-tftp: continuation RRQ failed\"; fi".toList =
      "; else echo \"uboot-tftp:".toList ++ ' ' :: "continuation RRQ failed\"; fi".toList := by
    decide +kernel
  have behind : Sequences.Clear [":id=".toList]
      ("; else echo \"uboot-tftp: continuation RRQ failed\"; fi".toList ++ back) := by
    rw [spaced, List.append_assoc, List.cons_append]
    exact warned.seam ' ' (by decide) (Sequences.clear_without ':' _
      (fun member => (List.mem_append.mp member).elim message colonless) (by simp))
  have whole := inert_expansion _ rambase _ front.clear clear behind
    fun member => (List.mem_append.mp member).elim unexpanded closed
  have shape : continuationTail rambase ++ back = "; then source ".toList ++ expansion rambase ++
      ("; else echo \"uboot-tftp: continuation RRQ failed\"; fi".toList ++ back) :=
    List.append_assoc _ _ back
  exact shape ▸ whole

end Texts

section Legs

variable {session : ClientSession κ} {token cmdtftp cmdtftpput rambase : Text}
  (plain : PlainSession session token cmdtftp cmdtftpput rambase)
include plain

/-- A transfer of the session is proper if its own texts are. What is asked of the settings is what
the parser needs: a command of command characters, an address that can be told from the reference
around it, and a server without a blank. -/
theorem session_leg_proper (lead command address middle : Text) (segments : List Text)
    (begun : Inert lead) (commanded : Word command) (addressed : address ≠ [])
    (braceless : '}' ∉ address) (clear : Sequences.Clear [":id=".toList] address)
    (spaced : ∀ character ∈ middle, character ≠ '}' ∧ character ≠ '$' ∧ character ≠ ':')
    (present : segments ≠ []) (named : ∀ segment ∈ segments, Inert segment)
    (quoteless : ∀ segment ∈ segments, '"' ∉ segment) :
    (sessionLeg session lead command address middle segments).Proper := by
  have client := client_id_foreign session.clientId
  constructor
  case lead => exact begun
  case commanded => exact commanded.1
  case word => exact commanded.2
  case addressed => exact addressed
  case braceless => exact braceless
  case clear => exact clear
  case middle => exact spaced
  case served => exact plain.served
  case server =>
    intro character member
    rcases plain.dotted character member with digit | rfl
    · have code : 48 ≤ character.toNat ∧ character.toNat ≤ 57 := by
        obtain ⟨low, high⟩ := (Bool.and_eq_true _ _).mp digit
        exact ⟨of_decide_eq_true low, of_decide_eq_true high⟩
      refine ⟨command_char_solid character (by simp [isCommandChar, Char.isAlphanum, digit]), ?_, ?_⟩
      · rintro rfl
        exact absurd code (by decide)
      · rintro rfl
        exact absurd code (by decide)
    · decide
  case named =>
    obtain ⟨first, rest, rfl⟩ := List.exists_cons_of_ne_nil present
    simp [sessionLeg, remoteName, List.intercalate_cons_cons]
  case quoteless =>
    refine joined_without '"' (by decide) _ fun segment member => ?_
    rcases List.mem_cons.mp member with rfl | later
    · exact client '"' (by decide) (by decide)
    · exact quoteless segment later
  case remote =>
    refine inert_joined _ fun segment member => ?_
    rcases List.mem_cons.mp member with rfl | later
    · exact inert_plain _ (client ':' (by decide) (by decide)) (client '$' (by decide) (by decide))
    · exact named segment later

/-- What the server writes into the path of a continuation is inert and holds no quote. The keys
stand there as expansions, and these are closed. -/
theorem continue_segments_inert (status : Option Text) (written : status ∈ recvStatuses)
    (keys : List Text) (words : ∀ key ∈ keys, Word key) :
    ∀ segment ∈ continueSegments token status keys expansion, Inert segment ∧ '"' ∉ segment := by
  have tokens := plain.foreign
  intro segment member
  simp only [continueSegments, List.cons_append, List.mem_cons, List.mem_append,
    Option.mem_toList, Option.map_eq_some_iff, List.mem_map] at member
  rcases member with rfl | ⟨word, rfl, rfl⟩ | ⟨key, inside, rfl⟩
  · exact ⟨inert_plain _ (by simpa using tokens ':' (by decide))
      (by simpa using tokens '$' (by decide)), by simpa using tokens '"' (by decide)⟩
  · simp only [recvStatuses, List.mem_cons, reduceCtorEq, Option.some.injEq, List.not_mem_nil,
      or_false, false_or] at written
    rcases written with rfl | rfl
    · exact ⟨inert_plain _ (by decide) (by decide), by decide⟩
    · exact ⟨inert_plain _ (by decide) (by decide), by decide⟩
  · have foreign := (words key inside).foreign
    refine ⟨⟨?_, ?_⟩, ?_⟩
    · have shape : key ++ '=' :: expansion key = (key ++ '=' :: '$' :: '{' :: key) ++ '}' :: [] := by
        simp [expansion]
      rw [shape]
      exact closes_brace _ _ (by simp)
    · exact Sequences.clear_without ':' _ (by simp [expansion, foreign ':' (by decide)]) (by simp)
    · simp [expansion, foreign '"' (by decide)]

/-- The transfer of a continuation is proper. -/
theorem continue_leg_proper (clear : Sequences.Clear [":id=".toList] rambase) (lead : Text)
    (begun : Inert lead) (status : Option Text) (written : status ∈ recvStatuses)
    (keys : List Text) (words : ∀ key ∈ keys, Word key) :
    (continueLeg session lead token cmdtftp rambase status keys).Proper := by
  have segments := continue_segments_inert plain status written keys words
  exact session_leg_proper plain lead cmdtftp rambase [' '] _ begun plain.fetching plain.addressed
    plain.braceless clear (List.forall_mem_singleton.mpr (by decide)) (by simp [continueSegments])
    (fun segment member => (segments segment member).1)
    (fun segment member => (segments segment member).2)

/-- The transfer of an upload is proper. Between its address and its target stands the size, which
is what tells it from a continuation. -/
theorem upload_leg_proper (lead address : Text) (begun : Inert lead) (addressed : address ≠ [])
    (braceless : '}' ∉ address) (clear : Sequences.Clear [":id=".toList] address) (size : Int) :
    (uploadLeg session lead token cmdtftpput address size).Proper := by
  have tokens := plain.foreign
  have digits := Text.hex_characters
    (fun character => character ≠ '}' ∧ character ≠ '$' ∧ character ≠ ':') (by decide) (by decide)
    (by decide) size
  refine session_leg_proper plain lead cmdtftpput address _ _ begun plain.sending addressed
    braceless clear ?_ (by simp) ?_ ?_
  · intro character member
    rcases List.mem_append.mp member with front | back
    · rcases List.mem_cons.mp front with rfl | digit
      · decide
      · exact digits character digit
    · rw [List.mem_singleton.mp back]
      decide
  · simp only [List.mem_cons, List.not_mem_nil, or_false]
    rintro segment (rfl | rfl)
    · exact inert_plain _ (by simpa using tokens ':' (by decide))
        (by simpa using tokens '$' (by decide))
    · exact inert_plain _ (by decide) (by decide)
  · simp only [List.mem_cons, List.not_mem_nil, or_false]
    rintro segment (rfl | rfl)
    · simpa using tokens '"' (by decide)
    · decide

/-- The transfers of a script with an upload are proper. They are the upload and the two
continuations, and what stands between them is inert as well. -/
theorem receive_legs_proper (clear : Sequences.Clear [":id=".toList] rambase) (address lead : Text)
    (begun : Inert lead) (addressed : address ≠ []) (braceless : '}' ∉ address)
    (placed : Sequences.Clear [":id=".toList] address) (size : Int) (keys : List Text)
    (words : ∀ key ∈ keys, Word key) :
    ∀ leg ∈ receiveLegs session token cmdtftp cmdtftpput rambase address lead size keys,
      leg.Proper := by
  have opened : Inert (";\nthen\n    ".toList ++ "if".toList) :=
    inert_plain _ (by decide) (by decide)
  have between : Inert (continuationTail rambase ++ "\nelse\n    ".toList ++ "if".toList) := by
    rw [List.append_assoc]
    exact inert_tail rambase clear _ (by decide) (by decide)
  have upload := upload_leg_proper plain lead address begun addressed braceless placed size
  have success := continue_leg_proper plain clear _ opened (some "ok".toList) (by decide) keys words
  have failure := continue_leg_proper plain clear _ between (some "failed".toList) (by decide) keys
    words
  exact List.forall_mem_cons.mpr ⟨upload, List.forall_mem_cons.mpr
    ⟨success, List.forall_mem_singleton.mpr failure⟩⟩

/-- The command of a continuation is a transfer. What is behind its target, the lines that run the
fetched script, belongs to no transfer. -/
theorem continue_command_composed (current : session.currentToken = some token)
    (status : Option Text) (keys : List Text) :
    continueCommand session status keys =
      .ok (composed [continueLeg session "if".toList token cmdtftp rambase status keys]
        (continuationTail rambase)) := by
  have quoted : "\"; then source ".toList = '"' :: "; then source ".toList := by decide +kernel
  have ends : ∀ front source back : Text, front ++ '"' :: source ++ expansion rambase ++ back =
      front ++ '"' :: (source ++ expansion rambase ++ back) := by simp
  have begins : ∀ path tail : Text, "if ".toList ++ cmdtftp ++ ' ' :: expansion rambase ++
      " \"".toList ++ session.serverIp ++ ':' :: path ++ '"' :: tail =
        "if".toList ++ ' ' :: cmdtftp ++ ' ' :: expansion rambase ++ [' '] ++
          '"' :: session.serverIp ++ ':' :: path ++ '"' :: tail := by simp
  rw [continue_command_eq session token cmdtftp rambase current plain.fetches plain.loads, quoted]
  refine congrArg Except.ok ((ends _ _ _).trans ((begins _ _).trans ?_))
  rw [continueLeg, sessionLeg, composed_text, continuePath, session_path_name]
  rfl

/-- The script of a continuation is composed of it. -/
theorem append_continue_composed (current : session.currentToken = some token) (script : Text)
    (status : Option Text) (keys : List Text) :
    appendContinue script session status keys =
      .ok (composed [continueLeg session ([script].flatMap Text.lineBefore ++ "if".toList) token
        cmdtftp rambase status keys] (continuationTail rambase)) := by
  have joined := Text.join_around [script]
    (composed [continueLeg session "if".toList token cmdtftp rambase status keys]
      (continuationTail rambase)) (by simp [composed]) []
  rw [List.flatMap_nil, List.append_nil] at joined
  have glued := joined.trans (composed_next [] _ _ [] _)
  simp only [appendContinue, continue_command_composed plain current]
  exact congrArg Except.ok glued

/-- The script of an upload is composed of the upload and a continuation for each outcome. The lines
in front of the upload, its address among them, are what leads to it, and the lines that clear the
temporary variable come at the end. -/
theorem append_receive_composed (current : session.currentToken = some token) (size : Int)
    (expecting : session.pendingReceive = some ⟨token, "/upload.bin".toList, size, none⟩)
    (script tmpName address prelude cleanup : Text) (keys : List Text)
    (offset : Option UbootNumber)
    (placed : receiveAddress session tmpName offset = .ok (expansion address, prelude, cleanup)) :
    appendReceive script session tmpName keys offset =
      .ok (composed (receiveLegs session token cmdtftp cmdtftpput rambase address
        ([script, prelude].flatMap Text.lineBefore ++ "if".toList) size keys)
        (continuationTail rambase ++ "\nfi".toList ++ [cleanup].flatMap Text.lineAfter)) := by
  have sends : lookupEnv session.env "cmdtftpput".toList = .ok cmdtftpput := by
    simp only [lookupEnv, plain.sends]
  have joined := Text.join_around [script, prelude]
    (composed (receiveLegs session token cmdtftp cmdtftpput rambase address "if".toList size keys)
      (continuationTail rambase ++ "\nfi".toList)) (by simp [composed, receiveLegs]) [cleanup]
  rw [composed_behind] at joined
  have glued := joined.trans (composed_next [] _ _ _ _)
  have text := receive_text session token cmdtftp cmdtftpput rambase address size keys
  rw [upload_path_eq] at text
  simp only [appendReceive, expecting, continue_command_composed plain current, placed, sends]
  refine congrArg Except.ok (Eq.trans ?_ glued)
  exact congrArg (fun receive => Text.joinLines [script, prelude, receive, cleanup]) text

/-- The address of an upload is a variable that can be expanded, and what sets and clears it
names no target. -/
theorem receive_address_proper (clear : Sequences.Clear [":id=".toList] rambase) (tmpName : Text)
    (fresh : Word tmpName) (offset : Option UbootNumber)
    (inert : ∀ text, offset = some (.text text) → Inert text) :
    ∃ address prelude cleanup,
      receiveAddress session tmpName offset = .ok (expansion address, prelude, cleanup) ∧
        address ≠ [] ∧ '}' ∉ address ∧ Sequences.Clear [":id=".toList] address ∧ Inert prelude ∧
          ':' ∉ cleanup ∧ '$' ∉ cleanup := by
  have loads : lookupEnv session.env "rambase".toList = .ok rambase := by
    simp only [lookupEnv, plain.loads]
  have foreign := fresh.foreign
  cases offset with
  | none =>
    refine ⟨rambase, [], [], ?_, plain.addressed, plain.braceless, clear, inert_nil, by simp,
      by simp⟩
    simp only [receiveAddress, loads]
    rfl
  | some value =>
    have number : Inert (formatUbootNumber value) := by
      cases value with
      | int value =>
        have digits := Text.hex_characters (fun character => character ≠ ':' ∧ character ≠ '$')
          (by decide) (by decide) (by decide) value
        exact inert_plain _ (fun member => (digits ':' member).1 rfl)
          (fun member => (digits '$' member).2 rfl)
      | text value => exact inert value rfl
    have named : Sequences.Clear [":id=".toList] ("setexpr ".toList ++ tmpName ++ [' ']) :=
      Sequences.clear_without ':' _ (by simp [foreign ':' (by decide)]) (by simp)
    have summed : Sequences.Clear [":id=".toList] " +".toList :=
      Sequences.clear_without ':' _ (by decide) (by simp)
    have prelude := (inert_expansion _ rambase _ named clear summed (by decide)).seam ' '
      (by decide) (by decide) (by decide) number
    refine ⟨tmpName, "setexpr ".toList ++ tmpName ++ ' ' :: expansion rambase ++ " + ".toList ++
      formatUbootNumber value, "setenv ".toList ++ tmpName, ?_, fresh.1, foreign '}' (by decide),
      Sequences.clear_without ':' _ (foreign ':' (by decide)) (by simp), ?_,
      by simp [foreign ':' (by decide)], by simp [foreign '$' (by decide)]⟩
    · simp only [receiveAddress, loads]
      rfl
    · simpa using prelude

end Legs

end TestClient

end UbootTftp
