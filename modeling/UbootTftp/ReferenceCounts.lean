import UbootTftp.SoundSessions

/-!
# Reference counts of downloads

An acquire attaches a session in the store and then remembers the artifact in the session;
every end of a session releases what the session remembers. After every step an artifact is
therefore attached to exactly the stored sessions that remember it.
-/

namespace UbootTftp

universe u
variable {κ : Type u}

/-- Whether every artifact that a stored session remembers is attached to it. This is the direction
that needs an argument about handlers; that nothing else is attached follows from the endings of
sessions. -/
def World.Covered (world : World κ) : Prop :=
  ∀ client session key, world.sessions.get client = some session →
    session.downloadArtifacts.Has key → world.downloads.Attached key client.text

/-- Whether the artifacts that the client's session remembers are attached to it, and the
attachments of the other clients are kept. -/
structure HandleState.Covers (before : DownloadJobStore) (client : ClientId)
    (state : HandleState κ) : Prop where
  keyed : state.session.clientId = client
  own : ∀ key, state.session.downloadArtifacts.Has key → state.downloads.Attached key client.text
  others : ∀ key owner, owner ≠ client.text → before.Attached key owner →
    state.downloads.Attached key owner

/-- An acquire keeps the session's artifacts attached. Where the acquire is refused nothing changes,
and a second acquire of the same artifact attaches nothing new. -/
theorem acquire_download_covers (before : DownloadJobStore) (client : ClientId) (host : Host)
    (now : Nat) (state : HandleState κ) (artifactKey url destination : Text)
    (pageUrl : Option Text) (headers : Option (Dict Text Text))
    (covers : state.Covers before client) :
    (state.acquireDownload host now artifactKey url destination pageUrl headers).1.Covers before
      client := by
  obtain ⟨keyed, own, others⟩ := covers
  simp only [HandleState.acquireDownload]
  split
  · exact ⟨keyed, own, others⟩
  · exact ⟨keyed, own, others⟩
  · split
    · refine ⟨keyed, fun key has => ?_, fun key owner different attached => ?_⟩
      · exact (DownloadJobStore.acquire_attached _ _ _ _ _ _).mpr (.inl (own key has))
      · exact (DownloadJobStore.acquire_attached _ _ _ _ _ _).mpr
          (.inl (others key owner different attached))
    · rename_i accepted
      refine ⟨keyed, fun key has => ?_, fun key owner different attached => ?_⟩
      · rw [DownloadJobStore.acquire_attached]
        simp only [TextSet.Has, Dict.get_set] at has
        split at has
        · rename_i same
          exact .inr ⟨by rw [accepted]; rfl, same, by rw [keyed]⟩
        · exact .inl (own key has)
      · exact (DownloadJobStore.acquire_attached _ _ _ _ _ _).mpr
          (.inl (others key owner different attached))

/-- Handler code keeps its session's artifacts attached.

Proof: by induction on the code; of its steps only an acquire touches the artifacts, and it attaches
what it remembers. -/
theorem run_covers (host : Host) (now : Nat) (before : DownloadJobStore) (client : ClientId)
    (code : Code κ) (schedule : Schedule) (state : HandleState κ)
    (covers : state.Covers before client) :
    (code.run host now schedule state).1.Covers before client := by
  apply Code.run_preserves host now (HandleState.Covers before client)
  case reported =>
    rintro state event ⟨keyed, own, others⟩
    exact ⟨keyed, fun key has => (DownloadJobStore.report_attached _ _ _ _ _).mpr (own key has),
      fun key owner different attached => (DownloadJobStore.report_attached _ _ _ _ _).mpr
        (others key owner different attached)⟩
  case changed => exact fun state env covers => ⟨covers.keyed, covers.own, covers.others⟩
  case acquired =>
    exact fun state artifactKey url destination pageUrl headers covers =>
      acquire_download_covers before client host now state artifactKey url destination pageUrl
        headers covers
  case written =>
    rintro state destination body ⟨keyed, own, others⟩
    obtain ⟨session, downloads⟩ := HandleState.write_file_frame host state destination body
    exact ⟨session ▸ keyed, session ▸ downloads ▸ own, downloads ▸ others⟩
  case initially => exact covers

/-- Changing one session keeps the artifacts attached when those of the session left are, and the
other clients' attachments are kept. Every way in which a request leaves a session goes through
this. -/
theorem World.Covered.changed {world after : World κ} (covered : world.Covered)
    (client : ClientId) (left : Option (ClientSession κ)) (leaves : world.Leaves after client left)
    (own : ∀ session key, left = some session → session.downloadArtifacts.Has key →
      after.downloads.Attached key client.text)
    (others : ∀ key owner, owner ≠ client.text → world.downloads.Attached key owner →
      after.downloads.Attached key owner) : after.Covered := by
  intro other session key stored has
  by_cases same : other = client
  · subst same
    exact own session key (leaves.own.symm.trans stored) has
  · rw [leaves.others other same] at stored
    exact others key other.text (fun text => same (other.text_injective client text))
      (covered other session key stored has)

section ReadRequest

variable (world : World κ) (provider : Provider κ) (now : Nat) (schedule : Schedule)
  (request : ContentRequest)

/-- Running handler code on a stored session keeps its artifacts attached. If the session is gone
behind it, its artifacts have been released; if it stays, they are those that its handler has
acquired. -/
theorem run_handler_covered (covered : world.Covered) (client : ClientId)
    (stored session : ClientSession κ) (state : κ) (resumption : Resumption)
    (present : world.sessions.get client = some stored) (keyed : session.clientId = client)
    (artifacts : session.downloadArtifacts = stored.downloadArtifacts) :
    (world.runHandler provider now schedule session state resumption).world.Covered := by
  cases code : (provider.resume state resumption).run provider.host now schedule
    ⟨session, world.downloads, world.files⟩ with
  | mk left codeEnd =>
  have covers := run_covers provider.host now world.downloads client
    (provider.resume state resumption) schedule ⟨session, world.downloads, world.files⟩
    ⟨keyed, fun key has => covered client stored key present (artifacts ▸ has),
      fun key owner _ attached => attached⟩
  rw [code] at covers
  obtain ⟨-, ran⟩ := World.run_handler_ran world provider now schedule session state resumption left
    codeEnd code
  refine covered.changed client _ (keyed ▸ ran.leaves) ?_ ?_
  · intro settled key stays has
    rw [settle_artifacts left.session settled _ codeEnd stays] at has
    refine (ran.attached key client.text).mpr ⟨covers.own key has, fun dropped => ?_⟩
    rw [dropped] at stays
    cases stays
  · intro key owner different attached
    refine (ran.attached key owner).mpr ⟨covers.others key owner different attached, ?_⟩
    rintro - ⟨same, -⟩
    exact different (same.trans (by rw [keyed]))

/-- Putting back a session with the same artifacts keeps them attached. -/
theorem put_session_covered (covered : world.Covered) (client : ClientId)
    (stored session : ClientSession κ) (present : world.sessions.get client = some stored)
    (keyed : session.clientId = client)
    (artifacts : session.downloadArtifacts = stored.downloadArtifacts) :
    (world.putSession session).Covered := by
  refine covered.changed client _ (World.put_leaves world world ⟨rfl, rfl, rfl⟩ session client keyed)
    ?_ (fun key owner _ attached => attached)
  intro settled key stays has
  cases stays
  exact covered client stored key present (artifacts ▸ has)

/-- Continuing a session keeps the artifacts attached. Each way of ending is taken by itself: a
session that is dropped has released everything, and the others keep what they had. -/
theorem continue_covered (sound : world.Sound provider.host) (covered : world.Covered)
    (parsed : ParsedPath) (client : ClientId) (session : ClientSession κ)
    (present : world.sessions.get client = some session) :
    (world.continueSession provider now schedule request parsed session).world.Covered := by
  obtain ⟨keyed, staged, -, -⟩ := sound.sessions client session present
  have continued := world.continue_cases provider now schedule request parsed session staged
  generalize world.continueSession provider now schedule request parsed session = outcome
    at continued ⊢
  cases continued with
  | unsupported pending unreported =>
    refine covered.changed client none
      (World.discard_leaves world world ⟨rfl, rfl, rfl⟩ now _ client (by simp [keyed]))
      (fun _ _ stays => by cases stays) ?_
    intro key owner different attached
    refine (World.discard_attached world now _ key owner).mpr ⟨attached, ?_⟩
    rintro ⟨same, -⟩
    exact different (same.trans (by simp [keyed]))
  | uncreated raised pending reported refused =>
    exact put_session_covered world covered client session _ present (by simp [keyed]) (by simp)
  | unhandled passed missing =>
    exact put_session_covered world covered client session _ present (by simp [keyed]) (by simp)
  | exhausted passed stopped =>
    exact put_session_covered world covered client session _ present (by simp [keyed]) (by simp)
  | ran state point resumption enters =>
    exact run_handler_covered world provider now schedule covered client session
      (session.entered parsed state point) state resumption present
      (by simp [ClientSession.entered, keyed]) (by simp [ClientSession.entered])

/-- A read request keeps the artifacts of the stored sessions attached. A start releases the
artifacts of the session that it replaces, if there is one. -/
theorem fetch_covered (sound : world.Sound provider.host) (covered : world.Covered) :
    (world.fetch provider now schedule request).world.Covered := by
  have fetched := world.fetch_cases provider now schedule request
  generalize world.fetch provider now schedule request = outcome at fetched ⊢
  cases fetched with
  | missed result cause unstarted refused => exact covered
  | started parsed client starts =>
    have keyed : ∀ existing, world.sessions.get client = some existing →
        existing.clientId = client := fun existing stored =>
      (sound.sessions client existing stored).keyed
    obtain ⟨leaves, -, attached⟩ := world.start_opened provider now request parsed client keyed
    refine covered.changed client _ leaves ?_ ?_
    · intro opened key stays has
      cases stays
      cases has
    · intro key owner different before
      refine (attached key owner).mpr ⟨before, ?_⟩
      rintro existing stored ⟨same, -⟩
      exact different (same.trans (by rw [keyed existing stored]))
  | accepted parsed client session accepts =>
    exact continue_covered world provider now schedule request sound covered parsed client session
      accepts.stored

end ReadRequest

/-- Every step keeps the artifacts of the stored sessions attached. The step of a download thread
changes entries but attaches nobody and releases nobody. -/
theorem step_covered (server : DynamicContentServer κ) (world : World κ) (event : Event)
    (sound : world.Sound server.provider.host) (covered : world.Covered) :
    (server.step world event).Covered := by
  have quiet (noRead : ∀ request now schedule, event ≠ .readRequest request now schedule)
      (noClose : ∀ handle, event ≠ .close handle) : (server.step world event).Covered := by
    obtain ⟨sessions, -, -, attached⟩ := quiet_step server world event noRead noClose
    intro client session key stored has
    rw [sessions] at stored
    exact (attached key client.text).mpr (covered client session key stored has)
  cases event with
  | readRequest request now schedule =>
    rw [DynamicContentServer.step_read_request]
    exact fetch_covered world server.provider now schedule request sound covered
  | writeRequest path peer => exact quiet (fun _ _ _ => by simp) (fun _ => by simp)
  | write handle chunk => exact quiet (fun _ _ _ => by simp) (fun _ => by simp)
  | threadReport now report => exact quiet (fun _ _ _ => by simp) (fun _ => by simp)
  | close handle =>
    simp only [DynamicContentServer.step]
    have closed := world.close_cases handle
    generalize world.close handle = result at closed ⊢
    cases closed with
    | absent missing => exact covered
    | again upload held captured => exact covered
    | refused upload raised held uncaptured unexpected => exact covered
    | disk path position closed held => exact covered
    | recorded upload client session pending held uncaptured expected =>
      obtain ⟨parsed, -, -, present, expecting, -⟩ :=
        (InMemoryUploadStore.expected_ok _ _ _ _ _).mp expected
      intro other found key stored has
      by_cases same : other = client
      · subst same
        cases (Dict.get_set_self _ _ _).symm.trans stored
        exact covered other session key present has
      · rw [Dict.get_set_other _ _ _ _ same] at stored
        exact covered other found key stored has

/-- In every reachable state the artifacts of the stored sessions are attached. -/
theorem after_covered (server : DynamicContentServer κ) (files : FileTree) (events : List Event) :
    (server.after files events).Covered := by
  have both := Runs.run_invariant server.step
    (fun world => world.Sound server.provider.host ∧ world.Covered)
    (fun world event ⟨sound, covered⟩ =>
      ⟨step_sound server world event sound, step_covered server world event sound covered⟩)
    (World.initial files) ⟨after_sound server files [], fun _ _ _ stored => by cases stored⟩ events
  exact both.2

/-- In every reachable state an artifact is attached to exactly the clients whose stored session
remembers it. -/
theorem attached_iff (server : DynamicContentServer κ) (files : FileTree) (events : List Event)
    (key owner : Text) :
    (server.after files events).downloads.Attached key owner ↔
      ∃ client session, (server.after files events).sessions.get client = some session ∧
        session.downloadArtifacts.Has key ∧ client.text = owner := by
  constructor
  · intro attached
    obtain ⟨client, session, stored, text, has⟩ :=
      (after_sound server files events).attached key owner attached
    exact ⟨client, session, stored, has, text⟩
  · rintro ⟨client, session, stored, has, rfl⟩
    exact after_covered server files events client session key stored has

/-- The sessions that remember an artifact. -/
def World.users (world : World κ) (key : Text) : List (ClientId × ClientSession κ) :=
  world.sessions.entries.filter fun entry => decide (entry.2.downloadArtifacts.Has key)

/-- In every reachable state, the sessions attached to an artifact are the clients whose stored
session remembers it, every remembered artifact has an entry, and the reference count is the number
of those sessions, so 0 when there is none.

Nothing is assumed of handlers, tokens or threads: the events of a run include every step of the
download threads. -/
theorem reference_counts_exact (server : DynamicContentServer κ) (files : FileTree)
    (events : List Event) :
    let world := server.after files events
    (∀ key entry, world.downloads.get key = some entry → ∀ owner,
        entry.attachedSessions.Has owner ↔ ∃ client session,
          world.sessions.get client = some session ∧ session.downloadArtifacts.Has key ∧
            client.text = owner) ∧
      (∀ client session key, world.sessions.get client = some session →
        session.downloadArtifacts.Has key → ∃ entry, world.downloads.get key = some entry) ∧
      (∀ key entry, world.downloads.get key = some entry →
        entry.snapshot.refCount = (world.users key).length) ∧
      (∀ key entry, world.downloads.get key = some entry →
        (∀ client session, world.sessions.get client = some session →
          ¬session.downloadArtifacts.Has key) → entry.snapshot.refCount = 0) := by
  intro world
  have attached : ∀ key entry, world.downloads.get key = some entry → ∀ owner,
      entry.attachedSessions.Has owner ↔ ∃ client session,
        world.sessions.get client = some session ∧ session.downloadArtifacts.Has key ∧
          client.text = owner := by
    intro key entry stored owner
    rw [← attached_iff server files events key owner]
    constructor
    · intro has
      exact ⟨entry, stored, has⟩
    · rintro ⟨other, present, has⟩
      cases stored.symm.trans present
      exact has
  have counted : ∀ key entry, world.downloads.get key = some entry →
      entry.snapshot.refCount = (world.users key).length := by
    intro key entry stored
    refine Dict.length_keys_eq entry.attachedSessions world.sessions _ (·.text)
      (fun first second => first.text_injective second) fun owner => ?_
    have has : entry.attachedSessions.get owner ≠ none ↔ entry.attachedSessions.Has owner := by
      rw [TextSet.Has, Option.ne_none_iff_exists']
      constructor
      · rintro ⟨_, present⟩
        exact present
      · intro present
        exact ⟨(), present⟩
    rw [has, attached key entry stored owner]
    simp only [decide_eq_true_eq]
  refine ⟨attached, ?_, counted, ?_⟩
  · intro client session key stored has
    obtain ⟨entry, present, -⟩ := after_covered server files events client session key stored has
    exact ⟨entry, present⟩
  · intro key entry stored unused
    rw [counted key entry stored, List.length_eq_zero_iff, World.users, List.filter_eq_nil_iff]
    rintro ⟨client, session⟩ member
    simpa using unused client session ((Dict.mem_entries _ _ _).mp member)

end UbootTftp
