import UbootTftp.DistinctTokens
import UbootTftp.PendingReceives

/-!
# What a pending receive holds

The closings of a run that are for one client and one token are in the order in which
they happened. At every moment the pending receive of a stored session holds the content
of the last of them, or nothing before the first.
-/

namespace UbootTftp

universe u
variable {κ : Type u}

/-- Whether an upload's request names the client and carries the token. A name that cannot be parsed
is for nobody. -/
def UploadRequest.isFor (request : UploadRequest) (client : ClientId) (token : Text) : Bool :=
  match parseRequestPath request.filename with
  | .error _ => false
  | .ok parsed =>
    decide (parsed.clientId = some client) && decide (parsed.values.get tokenKey = some token)

/-- A request is for a client and a token when its path names both. -/
theorem is_for_iff (request : UploadRequest) (client : ClientId) (token : Text) :
    request.isFor client token = true ↔ ∃ parsed, parseRequestPath request.filename = .ok parsed ∧
      parsed.clientId = some client ∧ parsed.values.get tokenKey = some token := by
  simp only [UploadRequest.isFor]
  cases parseRequestPath request.filename with
  | error raised => simp
  | ok parsed => simp

/-- A request is for one client and one token. -/
theorem is_for_unique (request : UploadRequest) (client other : ClientId) (token second : Text)
    (first : request.isFor client token = true) (again : request.isFor other second = true) :
    client = other ∧ token = second := by
  obtain ⟨parsed, parse, names, carries⟩ := (is_for_iff _ _ _).mp first
  obtain ⟨reparsed, reparse, otherNames, otherCarries⟩ := (is_for_iff _ _ _).mp again
  cases parse.symm.trans reparse
  exact ⟨Option.some.inj (names.symm.trans otherNames),
    Option.some.inj (carries.symm.trans otherCarries)⟩

/-- The upload that was closed last among those for a client and a token. Closings that are refused
are among them, but none is refused while the client waits with that token. -/
def lastClosed (server : DynamicContentServer κ) (files : FileTree) (events : List Event)
    (client : ClientId) (token : Text) : Option Closing :=
  ((closings server files events).filter
    (fun closing => closing.upload.request.isFor client token)).getLast?

section LastClosed

variable (server : DynamicContentServer κ) (files : FileTree) (events : List Event)
  (client : ClientId) (token : Text)

/-- The upload closed last is a closing of the run for the client and the token. -/
theorem last_closed_member (closing : Closing)
    (last : lastClosed server files events client token = some closing) :
    closing ∈ closings server files events ∧
      closing.upload.request.isFor client token = true :=
  List.mem_filter.mp (List.mem_of_getLast? last)

/-- An event that closes no upload for the client and the token changes nothing. -/
theorem last_closed_kept (event : Event)
    (others : ∀ closing, (server.after files events).closing event = some closing →
      closing.upload.request.isFor client token = false) :
    lastClosed server files (events ++ [event]) client token =
      lastClosed server files events client token := by
  simp only [lastClosed, closings_snoc, List.filter_append]
  cases shown : (server.after files events).closing event with
  | none => simp
  | some closing => simp [others closing shown]

/-- An event that closes an upload for the client and the token makes it the last. -/
theorem last_closed_replaced (event : Event) (closing : Closing)
    (shown : (server.after files events).closing event = some closing)
    (own : closing.upload.request.isFor client token = true) :
    lastClosed server files (events ++ [event]) client token = some closing := by
  simp only [lastClosed, closings_snoc, List.filter_append, shown]
  simp [own]

/-- No upload has been closed for a token that is not drawn yet. An upload is closed for the token
in its name, which the server has drawn before it gave the upload a file object. -/
theorem last_closed_fresh (distinct : Function.Injective server.provider.host.token)
    (fresh : token = server.provider.host.token (server.after files events).tokensDrawn) :
    lastClosed server files events client token = none := by
  cases last : lastClosed server files events client token with
  | none => rfl
  | some closing =>
    obtain ⟨member, own⟩ := last_closed_member server files events client token closing last
    obtain ⟨upload, held, same⟩ := closing_held server files events closing member
    obtain ⟨parsed, named, draw, parse, -, -, drawn, carries⟩ :=
      after_addressed server files events closing.handle upload held
    obtain ⟨reparsed, reparse, -, reports⟩ := (is_for_iff _ _ _).mp own
    rw [same] at parse
    cases parse.symm.trans reparse
    have both := Option.some.inj (carries.symm.trans reports)
    rw [fresh] at both
    exact absurd both (drawn_fresh server distinct draw drawn)

end LastClosed

/-- The pending receive of a stored session holds what the upload closed last for its client and
token holds. This is the invariant of a run that the delivery rests on. -/
def HoldsLastClosed (server : DynamicContentServer κ) (files : FileTree) (past : List Event)
    (world : World κ) : Prop :=
  ∀ client session pending, world.sessions.get client = some session →
    session.pendingReceive = some pending →
    pending.uploaded = (lastClosed server files past client pending.token).map (·.upload.value)

section Contents

variable (server : DynamicContentServer κ) (files : FileTree)

/-- A close of an upload for a waiting client and its token passes the check, since every
session upload's path ends in the upload path. -/
theorem closing_expected (events : List Event) (closing : Closing)
    (held : (server.after files events).handles[closing.handle]? =
      some (.capturing closing.upload))
    (client : ClientId) (session : ClientSession κ) (pending : PendingReceive)
    (stored : (server.after files events).sessions.get client = some session)
    (expecting : session.pendingReceive = some pending)
    (own : closing.upload.request.isFor client pending.token = true) :
    InMemoryUploadStore.expected (server.after files events).sessions
      closing.upload.request.filename = .ok (client, session, pending) := by
  obtain ⟨parsed, named, draw, parse, -, path, -, -⟩ :=
    after_addressed server files events closing.handle closing.upload held
  obtain ⟨reparsed, reparse, names, carries⟩ := (is_for_iff _ _ _).mp own
  cases parse.symm.trans reparse
  have origin := after_pending server files events client session pending stored expecting
  refine (InMemoryUploadStore.expected_ok _ _ _ _ _).mpr
    ⟨parsed, parse, names, stored, expecting, ?_⟩
  simp only [PendingReceive.expects, origin.uploadPath, path, Bool.true_and, decide_eq_true_eq]
  exact carries

/-- A close keeps what the pending receives hold up to date. Only the close that records an upload
is an event that counts as closing one, and it is recorded in the session whose token its name
carries. -/
theorem close_holds (past : List Event) (handle : Nat)
    (holds : HoldsLastClosed server files past (server.after files past)) :
    HoldsLastClosed server files (past ++ [.close handle])
      (server.step (server.after files past) (.close handle)) := by
  intro client session pending stored expecting
  simp only [DynamicContentServer.step] at stored
  have unclosed (none : (server.after files past).closing (.close handle) = none)
      (same : (server.after files past).sessions.get client = some session) :
      pending.uploaded = (lastClosed server files (past ++ [.close handle]) client
        pending.token).map (·.upload.value) := by
    rw [last_closed_kept server files past client pending.token (.close handle)
      fun closing shown => by rw [none] at shown; cases shown]
    exact holds client session pending same expecting
  have closed := (server.after files past).close_cases handle
  generalize (server.after files past).close handle = result at closed stored
  cases closed with
  | absent missing => exact unclosed (by simp [World.closing, missing]) stored
  | again upload held captured => exact unclosed (by simp [World.closing, held, captured]) stored
  | disk path position shut held => exact unclosed (by simp [World.closing, held]) stored
  | refused upload raised held uncaptured unexpected =>
    have kept := last_closed_kept server files past client pending.token (.close handle)
    rw [kept]
    · exact holds client session pending stored expecting
    · intro closing shown
      obtain ⟨same, present, -⟩ := (closing_some _ _ _).mp shown
      cases same
      cases held.symm.trans present
      rw [Bool.eq_false_iff]
      intro own
      have expected := closing_expected server files past closing held client session pending stored
        expecting own
      cases unexpected.symm.trans expected
  | recorded upload other waiting receive held uncaptured expected =>
    have shown : (server.after files past).closing (.close handle) = some ⟨handle, upload⟩ :=
      (closing_some _ _ _).mpr ⟨rfl, held, uncaptured⟩
    obtain ⟨parsed, parse, names, present, waits, expects⟩ :=
      (InMemoryUploadStore.expected_ok _ _ _ _ _).mp expected
    simp only [PendingReceive.expects, Bool.and_eq_true, decide_eq_true_eq] at expects
    have own : upload.request.isFor other receive.token = true :=
      (is_for_iff _ _ _).mpr ⟨parsed, parse, names, expects.2⟩
    simp only [Dict.get_set] at stored
    split at stored
    · rename_i same
      subst same
      cases stored
      cases expecting
      rw [last_closed_replaced server files past client receive.token _ _ shown own]
      rfl
    · rename_i different
      rw [last_closed_kept server files past client pending.token (.close handle)]
      · exact holds client session pending stored expecting
      · intro closing again
        cases shown.symm.trans again
        rw [Bool.eq_false_iff]
        intro foreign
        exact different (is_for_unique _ _ _ _ _ foreign own).1

/-- In every reachable state the pending receives hold what was closed last for them. The
induction is on the events from the last one back. -/
theorem after_holds (distinct : Function.Injective server.provider.host.token)
    (events : List Event) :
    HoldsLastClosed server files events (server.after files events) := by
  have history := Runs.run_history server.step (World.initial files)
    (fun past world => HoldsLastClosed server files past world) (fun _ _ _ stored => by cases stored)
  apply history
  intro past event holds client session pending stored expecting
  change HoldsLastClosed server files past (server.after files past) at holds
  have sound := after_sound server files past
  have unclosed (none : (server.after files past).closing event = none) :
      lastClosed server files (past ++ [event]) client pending.token =
        lastClosed server files past client pending.token := by
    apply last_closed_kept
    intro closing shown
    rw [none] at shown
    cases shown
  have quiet (noRead : ∀ request now schedule, event ≠ .readRequest request now schedule)
      (noClose : ∀ handle, event ≠ .close handle) (none : (server.after files past).closing event =
        none) : pending.uploaded = (lastClosed server files (past ++ [event]) client
          pending.token).map (·.upload.value) := by
    rw [unclosed none]
    change (server.step (server.after files past) event).sessions.get client = some session at stored
    rw [(quiet_step server _ event noRead noClose).1] at stored
    exact holds client session pending stored expecting
  cases event with
  | writeRequest path peer => exact quiet (fun _ _ _ => by simp) (fun _ => by simp) rfl
  | write handle chunk => exact quiet (fun _ _ _ => by simp) (fun _ => by simp) rfl
  | threadReport now report => exact quiet (fun _ _ _ => by simp) (fun _ => by simp) rfl
  | close handle =>
    exact close_holds server files past handle holds client session pending stored expecting
  | readRequest request now schedule =>
    rw [unclosed rfl]
    rw [DynamicContentServer.step_read_request] at stored
    rcases fetch_pending _ server.provider now schedule request sound client session pending stored
      expecting with ⟨before, -⟩ | ⟨state, issues, -, -, empty⟩
    · exact holds client session pending before expecting
    · rw [last_closed_fresh server files past client pending.token distinct issues.drawn, empty]
      rfl

end Contents

end UbootTftp
