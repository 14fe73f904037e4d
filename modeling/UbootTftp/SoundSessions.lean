import UbootTftp.ReadRequests
import UbootTftp.WriteRequests

/-!
# The session invariant

Whatever the handlers do and in whatever order requests, uploads and reports
arrive, every stored session is under its own id, is in one of the stages, counts
its requests and holds a token drawn before. Every attachment of an artifact
belongs to a stored session that knows of it.
-/

namespace UbootTftp

universe u
variable {κ : Type u}

/-- What holds of every session that is stored under a client id after a number of token draws: it
is under its own id, in one of the stages, with a token that has been drawn, and it has counted its
requests. -/
structure Sound (host : Host) (draws : Nat) (client : ClientId) (session : ClientSession κ) :
    Prop where
  keyed : session.clientId = client
  staged : Stage session
  issued : ∃ draw < draws, session.currentToken = some (host.token draw)
  counted : session.rrqCount = session.requests.length

/-- More draws keep a session sound. -/
theorem Sound.later {host : Host} {draws : Nat} {client : ClientId} {session : ClientSession κ}
    (sound : Sound host draws client session) (more : Nat) (increased : draws ≤ more) :
    Sound host more client session := by
  obtain ⟨draw, drawn, token⟩ := sound.issued
  exact ⟨sound.keyed, sound.staged, ⟨draw, by omega, token⟩, sound.counted⟩

/-- Every stored session is sound, and every attachment is known to a stored session. The second
part is what makes releasing the artifacts of a session enough. -/
structure World.Sound (world : World κ) (host : Host) : Prop where
  sessions : ∀ client session, world.sessions.get client = some session →
    UbootTftp.Sound host world.tokensDrawn client session
  attached : ∀ key owner, world.downloads.Attached key owner →
    ∃ client session, world.sessions.get client = some session ∧ client.text = owner ∧
      session.downloadArtifacts.Has key

/-- A session that has passed the preflight and waits for nothing is sound however
it is settled. -/
theorem settle_sound (host : Host) (draws : Nat) (client : ClientId) (left : ClientSession κ)
    (codeEnd : CodeEnd κ) (keyed : left.clientId = client)
    (passed : left.preflightPending = false) (idle : left.pendingReceive = none)
    (issued : ∃ draw < draws, left.currentToken = some (host.token draw))
    (counted : left.rrqCount = left.requests.length) (settled : ClientSession κ)
    (stored : left.settle (host.token draws) codeEnd = some settled) :
    Sound host (draws + codeEnd.issues.toNat) client settled := by
  obtain ⟨draw, drawn, token⟩ := issued
  cases codeEnd with
  | returned => cases stored
  | raised error =>
    simp only [ClientSession.settle] at stored
    split at stored
    · cases stored
    · cases stored
      exact ⟨keyed, .stuck passed (.inr (.inl rfl)) idle, ⟨draw, by omega, token⟩, counted⟩
  | awaited awaited next =>
    cases awaited with
    | foreign =>
      cases stored
      exact ⟨keyed, .stuck passed (.inr (.inr ⟨next, rfl⟩)) idle, ⟨draw, by omega, token⟩, counted⟩
    | execRecv request built =>
      cases stored
      refine ⟨keyed, .receiving next _ passed rfl rfl rfl rfl, ⟨draws, ?_, rfl⟩, counted⟩
      simp [CodeEnd.issues]
    | exec request built =>
      simp only [ClientSession.settle] at stored
      split at stored
      · cases stored
      · rename_i more
        cases stored
        refine ⟨keyed, .waiting next passed rfl idle rfl, ⟨draws, ?_, rfl⟩, counted⟩
        simp [CodeEnd.issues, more]

/-- Whether the attachments of one client are known to its session and those of the others are as
before. Handler code keeps this while its acquires attach the session step by step. -/
def HandleState.Tracks (before : DownloadJobStore) (client : ClientId) (state : HandleState κ) :
    Prop :=
  state.session.clientId = client ∧ ∀ key owner, state.downloads.Attached key owner →
    (owner = client.text ∧ state.session.downloadArtifacts.Has key) ∨
      (owner ≠ client.text ∧ before.Attached key owner)

/-- An acquire attaches its own session only, which then knows of the artifact. Sessions that were
attached before stay so, whether or not the acquire is refused. -/
theorem acquire_download_tracks (before : DownloadJobStore) (client : ClientId) (host : Host)
    (now : Nat) (state : HandleState κ) (artifactKey url destination : Text)
    (pageUrl : Option Text) (headers : Option (Dict Text Text))
    (tracks : state.Tracks before client) :
    (state.acquireDownload host now artifactKey url destination pageUrl headers).1.Tracks before
      client := by
  obtain ⟨keyed, known⟩ := tracks
  simp only [HandleState.acquireDownload]
  split
  · exact ⟨keyed, known⟩
  · exact ⟨keyed, known⟩
  · split
    · rename_i refused
      refine ⟨keyed, fun key owner attached => ?_⟩
      rw [DownloadJobStore.acquire_attached, refused] at attached
      rcases attached with earlier | ⟨accepted, -⟩
      · exact known key owner earlier
      · cases accepted
    · refine ⟨keyed, fun key owner attached => ?_⟩
      rw [DownloadJobStore.acquire_attached] at attached
      simp only [TextSet.Has, Dict.get_set]
      rcases attached with earlier | ⟨-, sameKey, sameOwner⟩
      · rcases known key owner earlier with ⟨own, has⟩ | other
        · refine .inl ⟨own, ?_⟩
          split
          · rfl
          · exact has
        · exact .inr other
      · exact .inl ⟨by rw [sameOwner, keyed], by rw [if_pos sameKey]⟩

/-- Handler code attaches its own session only. The induction is on the code; of its calls the
acquire alone changes anything that matters here. -/
theorem run_tracks (host : Host) (now : Nat) (before : DownloadJobStore) (client : ClientId)
    (code : Code κ) (schedule : Schedule) (state : HandleState κ)
    (tracks : state.Tracks before client) :
    (code.run host now schedule state).1.Tracks before client := by
  apply Code.run_preserves host now (HandleState.Tracks before client)
  case reported =>
    rintro state event ⟨keyed, known⟩
    exact ⟨keyed, fun key owner attached =>
      known key owner ((DownloadJobStore.report_attached _ _ _ _ _).mp attached)⟩
  case changed => exact fun state env tracks => tracks
  case acquired =>
    exact fun state artifactKey url destination pageUrl headers tracks =>
      acquire_download_tracks before client host now state artifactKey url destination pageUrl
        headers tracks
  case written =>
    rintro state destination body ⟨keyed, known⟩
    obtain ⟨session, downloads⟩ := HandleState.write_file_frame host state destination body
    simp only [HandleState.Tracks, session, downloads]
    exact ⟨keyed, known⟩
  case initially => exact tracks

/-- Settling keeps the artifacts of a session that stays stored. Whether they are released is
decided by whether the session stays, and not here. -/
theorem settle_artifacts (left settled : ClientSession κ) (token : Text) (codeEnd : CodeEnd κ)
    (stored : left.settle token codeEnd = some settled) :
    settled.downloadArtifacts = left.downloadArtifacts := by
  cases codeEnd with
  | returned => cases stored
  | raised error =>
    simp only [ClientSession.settle] at stored
    split at stored
    all_goals cases stored
    rfl
  | awaited awaited next =>
    cases awaited with
    | foreign =>
      cases stored
      rfl
    | execRecv request built =>
      cases stored
      rfl
    | exec request built =>
      simp only [ClientSession.settle] at stored
      split at stored
      all_goals cases stored
      rfl

/-- In a sound world the attachments of a stored session's client are its own. Two clients with the
same id are the same, so an attachment under the id is one of the session's. -/
theorem World.Sound.tracks {world : World κ} {host : Host} (sound : world.Sound host)
    (client : ClientId) (stored session : ClientSession κ)
    (present : world.sessions.get client = some stored) (keyed : session.clientId = client)
    (artifacts : session.downloadArtifacts = stored.downloadArtifacts) :
    (⟨session, world.downloads, world.files⟩ : HandleState κ).Tracks world.downloads client := by
  refine ⟨keyed, fun key owner attached => ?_⟩
  by_cases own : owner = client.text
  · obtain ⟨other, found, otherStored, text, has⟩ := sound.attached key owner attached
    have same : other = client := other.text_injective client (text.trans own)
    subst same
    cases present.symm.trans otherStored
    exact .inl ⟨own, artifacts ▸ has⟩
  · exact .inr ⟨own, attached⟩

/-- Changing one session keeps the world sound when the session left is sound and the client's
attachments are known to it. Every step of the server is brought into this form. -/
theorem World.Sound.changed {world after : World κ} {host : Host} (sound : world.Sound host)
    (client : ClientId) (left : Option (ClientSession κ)) (leaves : world.Leaves after client left)
    (increased : world.tokensDrawn ≤ after.tokensDrawn)
    (leftSound : ∀ session, left = some session →
      UbootTftp.Sound host after.tokensDrawn client session)
    (known : ∀ key owner, after.downloads.Attached key owner →
      (∃ session, left = some session ∧ owner = client.text ∧ session.downloadArtifacts.Has key) ∨
        (owner ≠ client.text ∧ world.downloads.Attached key owner)) :
    after.Sound host := by
  constructor
  case sessions =>
    intro other session stored
    by_cases same : other = client
    · subst same
      exact leftSound session (leaves.own ▸ stored)
    · rw [leaves.others other same] at stored
      exact (sound.sessions other session stored).later _ increased
  case attached =>
    intro key owner attached
    rcases known key owner attached with ⟨session, stays, own, has⟩ | ⟨different, earlier⟩
    · exact ⟨client, session, leaves.own.trans stays, own.symm, has⟩
    · obtain ⟨other, session, stored, text, has⟩ := sound.attached key owner earlier
      have distinct : other ≠ client := fun same => different (same ▸ text.symm)
      exact ⟨other, session, (leaves.others other distinct).trans stored, text, has⟩

section ReadRequest

variable (world : World κ) (provider : Provider κ) (now : Nat) (schedule : Schedule)
  (request : ContentRequest)

/-- Running handler code on a session of a sound world keeps the world sound. The code may do
anything that the helpers allow. Its own session is settled afterwards, and other sessions are not
touched. -/
theorem run_handler_sound (sound : world.Sound provider.host) (client : ClientId)
    (stored session : ClientSession κ) (state : κ) (resumption : Resumption)
    (present : world.sessions.get client = some stored) (keyed : session.clientId = client)
    (artifacts : session.downloadArtifacts = stored.downloadArtifacts)
    (passed : session.preflightPending = false) (idle : session.pendingReceive = none)
    (token : session.currentToken = stored.currentToken)
    (counted : session.rrqCount = session.requests.length) :
    (world.runHandler provider now schedule session state resumption).world.Sound provider.host := by
  cases code : (provider.resume state resumption).run provider.host now schedule
    ⟨session, world.downloads, world.files⟩ with
  | mk left codeEnd =>
  obtain ⟨env, changed, kept⟩ := Code.run_session provider.host now
    (provider.resume state resumption) schedule ⟨session, world.downloads, world.files⟩
  have tracks := run_tracks provider.host now world.downloads client
    (provider.resume state resumption) schedule _
    (sound.tracks client stored session present keyed artifacts)
  rw [code] at kept tracks
  obtain ⟨-, ran⟩ := World.run_handler_ran world provider now schedule session state resumption left
    codeEnd code
  have issued := (sound.sessions client stored present).issued
  refine sound.changed client _ (keyed ▸ ran.leaves) (by rw [ran.tokens]; omega) ?_ ?_
  · intro settled stays
    rw [ran.tokens]
    refine settle_sound provider.host world.tokensDrawn client left.session codeEnd ?_ ?_ ?_ ?_ ?_
      settled stays
    all_goals rw [kept]
    · exact keyed
    · exact passed
    · exact idle
    · exact token ▸ issued
    · exact counted
  · intro key owner attached
    obtain ⟨before, kept⟩ := (ran.attached key owner).mp attached
    rcases tracks.2 key owner before with ⟨own, has⟩ | other
    · cases settled : left.session.settle (provider.host.token world.tokensDrawn) codeEnd with
      | none => exact absurd ⟨own.trans (by rw [keyed]), has⟩ (kept settled)
      | some final =>
        refine .inl ⟨final, rfl, own, ?_⟩
        rw [settle_artifacts left.session final _ codeEnd settled]
        exact has
    · exact .inr other

/-- Putting back a session of a sound world with the same artifacts and token. This is how a request
is recorded that neither runs a handler nor draws a token. -/
theorem put_session_sound (sound : world.Sound provider.host) (client : ClientId)
    (stored session : ClientSession κ) (present : world.sessions.get client = some stored)
    (keyed : session.clientId = client) (staged : Stage session)
    (artifacts : session.downloadArtifacts = stored.downloadArtifacts)
    (token : session.currentToken = stored.currentToken)
    (counted : session.rrqCount = session.requests.length) :
    (world.putSession session).Sound provider.host := by
  have issued := (sound.sessions client stored present).issued
  refine sound.changed client _ (World.put_leaves world world ⟨rfl, rfl, rfl⟩ session client keyed)
    le_rfl ?_ ?_
  · intro settled stays
    cases stays
    exact ⟨keyed, staged, token ▸ issued, counted⟩
  · intro key owner attached
    rcases (sound.tracks client stored session present keyed artifacts).2 key owner attached with
      ⟨own, has⟩ | other
    · exact .inl ⟨session, rfl, own, has⟩
    · exact .inr other

/-- Continuing a session of a sound world keeps the world sound. The cases are those of a
continuation, and in each of them one of the lemmas above applies. -/
theorem continue_sound (sound : world.Sound provider.host) (parsed : ParsedPath)
    (client : ClientId) (session : ClientSession κ)
    (present : world.sessions.get client = some session) :
    (world.continueSession provider now schedule request parsed session).world.Sound
      provider.host := by
  obtain ⟨keyed, staged, issued, counted⟩ := sound.sessions client session present
  have requests : (session.continued parsed).rrqCount =
      (session.continued parsed).requests.length := by
    simp [counted]
  have continued := world.continue_cases provider now schedule request parsed session staged
  generalize world.continueSession provider now schedule request parsed session = outcome
    at continued ⊢
  cases continued with
  | unsupported pending unreported =>
    refine sound.changed client none
      (World.discard_leaves world world ⟨rfl, rfl, rfl⟩ now _ client (by simp [keyed])) le_rfl
      (fun _ stays => by cases stays) ?_
    intro key owner attached
    obtain ⟨before, released⟩ := (World.discard_attached world now _ key owner).mp attached
    rcases (sound.tracks client session (session.continued parsed) present (by simp [keyed])
      (by simp)).2 key owner before with ⟨own, has⟩ | other
    · exact absurd ⟨by simp [own, keyed], has⟩ released
    · exact .inr other
  | uncreated raised pending reported refused =>
    cases staged with
    | preflight pending unhandled idle phase =>
      exact put_session_sound world provider sound client session _ present (by simp [keyed])
        (.stuck rfl (.inl (by simp [unhandled])) (by simp [idle])) (by simp) (by simp) requests
    | waiting state passed => simp [passed] at pending
    | receiving state pending' passed => simp [passed] at pending
    | stuck passed => simp [passed] at pending
  | unhandled passed missing =>
    have idle : session.pendingReceive = none := by
      cases staged with
      | preflight pending unhandled idle phase => exact idle
      | waiting state passed handled => simp [missing] at handled
      | receiving state pending passed handled => simp [missing] at handled
      | stuck passed broken idle => exact idle
    exact put_session_sound world provider sound client session _ present (by simp [keyed])
      (.stuck (by simp [passed]) (.inl (by simp [missing])) (by simp [idle])) (by simp) (by simp)
      requests
  | exhausted passed stopped =>
    have idle : session.pendingReceive = none := by
      cases staged with
      | preflight pending unhandled idle phase => exact idle
      | waiting state passed handled => simp [stopped] at handled
      | receiving state pending passed handled => simp [stopped] at handled
      | stuck passed broken idle => exact idle
    exact put_session_sound world provider sound client session _ present (by simp [keyed])
      (.stuck (by simp [passed]) (.inr (.inl (by simp [stopped]))) (by simp [idle])) (by simp)
      (by simp) requests
  | ran state point resumption enters =>
    exact run_handler_sound world provider now schedule sound client session
      (session.entered parsed state point) state resumption present
      (by simp [ClientSession.entered, keyed]) (by simp [ClientSession.entered]) rfl rfl
      (by simp [ClientSession.entered]) requests

/-- A read request keeps the world sound. The three kinds of requests are taken one by one: a miss
changes nothing, a start opens a session, and a continuation has a lemma of its own. -/
theorem fetch_sound (sound : world.Sound provider.host) :
    (world.fetch provider now schedule request).world.Sound provider.host := by
  have fetched := world.fetch_cases provider now schedule request
  generalize world.fetch provider now schedule request = outcome at fetched ⊢
  cases fetched with
  | missed result cause unstarted refused => exact sound
  | started parsed client starts =>
    have keyed : ∀ existing, world.sessions.get client = some existing →
        existing.clientId = client := fun existing stored =>
      (sound.sessions client existing stored).keyed
    obtain ⟨leaves, tokens, attached⟩ := world.start_opened provider now request parsed client keyed
    refine sound.changed client _ leaves (by rw [tokens]; omega) ?_ ?_
    · intro opened stays
      cases stays
      exact ⟨rfl, .preflight rfl rfl rfl rfl, ⟨world.tokensDrawn, by rw [tokens]; omega, rfl⟩, rfl⟩
    · intro key owner after
      obtain ⟨before, released⟩ := (attached key owner).mp after
      refine .inr ⟨?_, before⟩
      intro own
      obtain ⟨other, existing, stored, text, has⟩ := sound.attached key owner before
      have same : other = client := other.text_injective client (text.trans own)
      subst same
      exact released existing stored ⟨by rw [keyed existing stored, own], has⟩
  | accepted parsed client session accepts =>
    exact continue_sound world provider now schedule request sound parsed client session
      accepts.stored

end ReadRequest

/-- An upload body does not change the stage of its session. -/
theorem uploaded_sound {host : Host} {draws : Nat} {client : ClientId} {session : ClientSession κ}
    (sound : Sound host draws client session) (pending : PendingReceive) (body : Bytes)
    (expecting : session.pendingReceive = some pending) :
    Sound host draws client
      { session with pendingReceive := some { pending with uploaded := some body } } := by
  obtain ⟨keyed, staged, issued, counted⟩ := sound
  refine ⟨keyed, ?_, issued, counted⟩
  cases staged with
  | preflight pending unhandled idle phase => simp [idle] at expecting
  | waiting state passed handled idle phase => simp [idle] at expecting
  | stuck passed broken idle => simp [idle] at expecting
  | receiving state waiting passed handled expected sameToken phase =>
    cases expected.symm.trans expecting
    exact .receiving state _ passed handled rfl sameToken phase

/-- A close keeps the world sound. Only the close that records an upload changes a session, and that
session still waits for it. -/
theorem close_sound (world : World κ) (host : Host) (sound : world.Sound host) (handle : Nat) :
    (world.close handle).1.Sound host := by
  have closed := world.close_cases handle
  generalize world.close handle = result at closed ⊢
  cases closed with
  | absent missing => exact sound
  | again upload held captured => exact sound
  | refused upload raised held uncaptured unexpected => exact sound
  | disk path position closed held => exact ⟨sound.sessions, sound.attached⟩
  | recorded upload client session pending held uncaptured expected =>
    obtain ⟨parsed, -, -, stored, expecting, -⟩ :=
      (InMemoryUploadStore.expected_ok _ _ _ _ _).mp expected
    constructor
    case sessions =>
      intro other found present
      rw [Dict.get_set] at present
      split at present
      · rename_i same
        subst same
        cases present
        exact uploaded_sound (sound.sessions _ session stored) pending upload.value expecting
      · exact sound.sessions other found present
    case attached =>
      intro key owner attached
      obtain ⟨other, found, present, text, has⟩ := sound.attached key owner attached
      simp only [Dict.get_set]
      by_cases same : other = client
      · subst same
        cases stored.symm.trans present
        exact ⟨other, _, if_pos rfl, text, has⟩
      · exact ⟨other, found, (if_neg same).trans present, text, has⟩

/-- A step other than a read request or a close keeps the sessions, the token draws and the
attachments. A report of a download thread changes artifacts, but attaches nobody. -/
theorem quiet_step (server : DynamicContentServer κ) (world : World κ) (event : Event)
    (noRead : ∀ request now schedule, event ≠ .readRequest request now schedule)
    (noClose : ∀ handle, event ≠ .close handle) :
    (server.step world event).sessions = world.sessions ∧
      (server.step world event).tokensDrawn = world.tokensDrawn ∧
      (server.step world event).uploads = world.uploads ∧
      ∀ key owner, (server.step world event).downloads.Attached key owner ↔
        world.downloads.Attached key owner := by
  cases event with
  | readRequest request now schedule => exact absurd rfl (noRead request now schedule)
  | close handle => exact absurd rfl (noClose handle)
  | writeRequest path peer =>
    have outcome := world.open_upload_cases server path peer
    simp only [DynamicContentServer.step]
    generalize server.openUpload world path peer = answer at outcome ⊢
    cases outcome
    all_goals exact ⟨rfl, rfl, rfl, fun _ _ => Iff.rfl⟩
  | write handle chunk =>
    have written := world.write_cases handle chunk
    simp only [DynamicContentServer.step]
    generalize world.write handle chunk = answer at written ⊢
    cases written
    all_goals exact ⟨rfl, rfl, rfl, fun _ _ => Iff.rfl⟩
  | threadReport now report =>
    exact ⟨rfl, rfl, rfl, fun key owner =>
      DownloadJobStore.report_attached world.downloads now report key owner⟩

/-- Every step keeps the world sound: reads and closes by the lemmas above, and all other steps
change nothing that soundness speaks of. -/
theorem step_sound (server : DynamicContentServer κ) (world : World κ) (event : Event)
    (sound : world.Sound server.provider.host) :
    (server.step world event).Sound server.provider.host := by
  have quiet (noRead : ∀ request now schedule, event ≠ .readRequest request now schedule)
      (noClose : ∀ handle, event ≠ .close handle) :
      (server.step world event).Sound server.provider.host := by
    obtain ⟨sessions, tokens, -, attached⟩ := quiet_step server world event noRead noClose
    constructor
    case sessions =>
      rw [sessions, tokens]
      exact sound.sessions
    case attached =>
      intro key owner after
      rw [sessions]
      exact sound.attached key owner ((attached key owner).mp after)
  cases event with
  | readRequest request now schedule =>
    rw [DynamicContentServer.step_read_request]
    exact fetch_sound world server.provider now schedule request sound
  | close handle => exact close_sound world server.provider.host sound handle
  | writeRequest path peer => exact quiet (fun _ _ _ => by simp) (fun _ => by simp)
  | write handle chunk => exact quiet (fun _ _ _ => by simp) (fun _ => by simp)
  | threadReport now report => exact quiet (fun _ _ _ => by simp) (fun _ => by simp)

/-- Every reachable state is sound, from the empty server on and with any handlers. -/
theorem after_sound (server : DynamicContentServer κ) (files : FileTree) (events : List Event) :
    (server.after files events).Sound server.provider.host := by
  apply Runs.run_invariant server.step (World.Sound · server.provider.host)
  case preserved => exact fun world event sound => step_sound server world event sound
  case base =>
    constructor
    case sessions =>
      intro client session stored
      cases stored
    case attached =>
      rintro key owner ⟨entry, stored, -⟩
      cases stored

end UbootTftp
