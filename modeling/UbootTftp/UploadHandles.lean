import UbootTftp.SessionMoves

/-!
# File objects of session uploads

A file object that was returned for a session upload holds the chunks written to it
since, until it is recorded. Its request never changes. What is said here of a file
object is said in terms of the events of the run that opened and wrote it.
-/

namespace UbootTftp

universe u
variable {κ : Type u}

/-- The bytes that the events write to a file object, in order. -/
def writtenTo (handle : Nat) (events : List Event) : Bytes :=
  events.flatMap fun event => match event with
    | .write target chunk => if target = handle then chunk else []
    | _ => []

/-- One more event writes its own bytes at the end. -/
theorem written_to_snoc (handle : Nat) (events : List Event) (event : Event) :
    writtenTo handle (events ++ [event]) = writtenTo handle events ++ writtenTo handle [event] := by
  simp [writtenTo]

/-- An event that is no write to the file object writes nothing to it. -/
theorem written_to_other (handle : Nat) (event : Event)
    (unwritten : ∀ chunk, event ≠ .write handle chunk) : writtenTo handle [event] = [] := by
  cases event with
  | write target chunk =>
    have different : target ≠ handle := by
      rintro rfl
      exact unwritten chunk rfl
    simp [writtenTo, different]
  | _ => rfl

/-- How the file object of a session upload comes to hold what it holds after a step: it is kept,
written to, captured or opened. No read request changes one. -/
inductive World.Holds (server : DynamicContentServer κ) (world : World κ) (event : Event)
    (handle : Nat) : CapturingUpload → Prop
  | kept (upload : CapturingUpload) (held : world.handles[handle]? = some (.capturing upload))
      (unwritten : upload.captured = false → ∀ chunk, event ≠ .write handle chunk) :
      Holds server world event handle upload
  | written (upload : CapturingUpload) (chunk : Bytes)
      (held : world.handles[handle]? = some (.capturing upload))
      (uncaptured : upload.captured = false) (same : event = .write handle chunk) :
      Holds server world event handle { upload with value := upload.value ++ chunk }
  | captured (upload : CapturingUpload)
      (held : world.handles[handle]? = some (.capturing upload))
      (uncaptured : upload.captured = false) (same : event = .close handle) :
      Holds server world event handle { upload with captured := true }
  | opened (path : Text) (peer : Text × Nat) (same : event = .writeRequest path peer)
      (fresh : handle = world.handles.length)
      (given : (server.openUpload world path peer).2 =
        .ok (some (.capturing ⟨server.uploadRequest path peer, [], false⟩))) :
      Holds server world event handle ⟨server.uploadRequest path peer, [], false⟩

/-- A read request leaves the uploads and their file objects. Even a session that is dropped leaves
the file objects that were opened for it. -/
theorem fetch_uploads (world : World κ) (provider : Provider κ) (now : Nat) (schedule : Schedule)
    (request : ContentRequest) (sound : world.Sound provider.host) :
    (world.fetch provider now schedule request).world.handles = world.handles ∧
      (world.fetch provider now schedule request).world.uploads = world.uploads := by
  have fetched := world.fetch_cases provider now schedule request
  generalize world.fetch provider now schedule request = outcome at fetched ⊢
  cases fetched with
  | missed result cause unstarted refused => exact ⟨rfl, rfl⟩
  | started parsed client starts =>
    obtain ⟨leaves, -, -⟩ := world.start_opened provider now request parsed client
      (fun existing stored => (sound.sessions client existing stored).keyed)
    exact ⟨leaves.handles, leaves.uploads⟩
  | accepted parsed client session accepts =>
    have handled := world.accepted_cases provider now schedule request parsed client session sound
      accepts.stored
    generalize world.continueSession provider now schedule request parsed session = outcome
      at handled ⊢
    cases handled with
    | failed pending unreported leaves tokens silent answer =>
      exact ⟨leaves.handles, leaves.uploads⟩
    | uncreated raised pending reported refused leaves tokens silent answer =>
      exact ⟨leaves.handles, leaves.uploads⟩
    | exhausted passed broken leaves tokens silent answer =>
      exact ⟨leaves.handles, leaves.uploads⟩
    | ran state point resumption left codeEnd enters code frame keyed ran resumed answers =>
      exact ⟨ran.leaves.handles, ran.leaves.uploads⟩

/-- What a write request adds to the file objects: nothing, or the one that it is given. -/
theorem open_upload_handles (server : DynamicContentServer κ) (world : World κ) (path : Text)
    (peer : Text × Nat) :
    (server.openUpload world path peer).1.handles = world.handles ∨
      (∃ target, (server.openUpload world path peer).1.handles =
        world.handles ++ [.disk target 0 false]) ∨
      (server.openUpload world path peer).1.handles =
          world.handles ++ [.capturing ⟨server.uploadRequest path peer, [], false⟩] ∧
        (server.openUpload world path peer).2 =
          .ok (some (.capturing ⟨server.uploadRequest path peer, [], false⟩)) := by
  have outcome := world.open_upload_cases server path peer
  generalize server.openUpload world path peer = answer at outcome ⊢
  cases outcome
  case captured => exact .inr (.inr ⟨rfl, rfl⟩)
  case disk => exact .inr (.inl ⟨_, rfl⟩)
  all_goals exact .inl rfl

/-- What replacing one file object leaves in a file object. -/
theorem replaced_handle (handles : List UploadFile) (target handle : Nat) (file : UploadFile)
    (upload : CapturingUpload)
    (held : (handles.set target file)[handle]? = some (.capturing upload)) :
    target = handle ∧ file = .capturing upload ∨
      target ≠ handle ∧ handles[handle]? = some (.capturing upload) := by
  rw [List.getElem?_set] at held
  split at held
  · rename_i same
    split at held
    · exact .inl ⟨same, Option.some.inj held⟩
    · cases held
  · rename_i different
    exact .inr ⟨different, held⟩

/-- What the file object of a session upload holds after a step comes from the step. The cases are
that it was held before, with or without the bytes that are written now, and that it is opened or
closed now. -/
theorem step_holds (server : DynamicContentServer κ) (world : World κ) (event : Event)
    (sound : world.Sound server.provider.host) (handle : Nat) (upload : CapturingUpload)
    (held : (server.step world event).handles[handle]? = some (.capturing upload)) :
    world.Holds server event handle upload := by
  cases event with
  | readRequest request now schedule =>
    rw [DynamicContentServer.step_read_request,
      (fetch_uploads world server.provider now schedule request sound).1] at held
    exact .kept upload held fun _ _ => by simp
  | threadReport now report => exact .kept upload held fun _ _ => by simp
  | writeRequest path peer =>
    have handles := open_upload_handles server world path peer
    simp only [DynamicContentServer.step] at held
    rcases handles with same | ⟨target, added⟩ | ⟨added, given⟩
    · rw [same] at held
      exact .kept upload held fun _ _ => by simp
    · rw [added, List.getElem?_append] at held
      split at held
      · exact .kept upload held fun _ _ => by simp
      · simp [List.getElem?_singleton] at held
    · rw [added, List.getElem?_append] at held
      split at held
      · exact .kept upload held fun _ _ => by simp
      · rename_i beyond
        simp only [List.getElem?_singleton] at held
        split at held
        · cases held
          exact .opened path peer rfl (by omega) given
        · cases held
  | write target chunk =>
    simp only [DynamicContentServer.step] at held
    have written := world.write_cases target chunk
    generalize world.write target chunk = result at written held
    cases written with
    | absent missing =>
      refine .kept upload held fun _ other same => ?_
      cases same
      rw [missing] at held
      cases held
    | captured earlier found captured =>
      refine .kept upload held fun uncaptured other same => ?_
      cases same
      cases found.symm.trans held
      rw [captured] at uncaptured
      cases uncaptured
    | collected earlier found uncaptured =>
      rcases replaced_handle _ _ _ _ upload held with ⟨rfl, same⟩ | ⟨different, present⟩
      · cases same
        exact .written earlier chunk found uncaptured rfl
      · refine .kept upload present fun _ other same => ?_
        cases same
        exact different rfl
    | closed path position found =>
      refine .kept upload held fun _ other same => ?_
      cases same
      cases found.symm.trans held
    | disk path position found =>
      rcases replaced_handle _ _ _ _ upload held with ⟨-, same⟩ | ⟨different, present⟩
      · cases same
      · refine .kept upload present fun _ other same => ?_
        cases same
        exact different rfl
  | close target =>
    simp only [DynamicContentServer.step] at held
    have unwritten : ∀ chunk, Event.close target ≠ .write handle chunk := fun _ => by simp
    have closed := world.close_cases target
    generalize world.close target = result at closed held
    cases closed with
    | absent missing => exact .kept upload held fun _ => unwritten
    | again earlier present captured => exact .kept upload held fun _ => unwritten
    | refused earlier raised present uncaptured unexpected =>
      exact .kept upload held fun _ => unwritten
    | disk path position shut present =>
      rcases replaced_handle _ _ _ _ upload held with ⟨-, same⟩ | ⟨-, still⟩
      · cases same
      · exact .kept upload still fun _ => unwritten
    | recorded earlier client session pending present uncaptured expected =>
      rcases replaced_handle _ _ _ _ upload held with ⟨rfl, same⟩ | ⟨-, still⟩
      · cases same
        exact .captured earlier present uncaptured rfl
      · exact .kept upload still fun _ => unwritten

/-- Where a session upload's file object comes from: the write request that it was
returned for, with the events before and after that. -/
structure Opening (server : DynamicContentServer κ) (files : FileTree) (events : List Event)
    (handle : Nat) (request : UploadRequest) (before : List Event) (path : Text)
    (peer : Text × Nat) (between : List Event) : Prop where
  split : events = before ++ .writeRequest path peer :: between
  requested : request = server.uploadRequest path peer
  position : (server.after files before).handles.length = handle
  given : (server.openUpload (server.after files before) path peer).2 =
    .ok (some (.capturing ⟨request, [], false⟩))

/-- One more event keeps where a file object comes from. -/
theorem Opening.extended {server : DynamicContentServer κ} {files : FileTree}
    {events : List Event} {handle : Nat} {request : UploadRequest} {before : List Event}
    {path : Text} {peer : Text × Nat} {between : List Event}
    (opening : Opening server files events handle request before path peer between)
    (event : Event) :
    Opening server files (events ++ [event]) handle request before path peer
      (between ++ [event]) := by
  obtain ⟨split, requested, position, given⟩ := opening
  exact ⟨by rw [split, List.append_assoc, List.cons_append], requested, position, given⟩

/-- Every file object of a session upload was opened by a write request, and holds what was written
to it since unless it is captured. The induction is on the events from the last one back. -/
theorem upload_opening (server : DynamicContentServer κ) (files : FileTree) (events : List Event) :
    ∀ handle upload, (server.after files events).handles[handle]? = some (.capturing upload) →
      ∃ before path peer between,
        Opening server files events handle upload.request before path peer between ∧
        (upload.captured = false → upload.value = writtenTo handle between) := by
  have history := Runs.run_history server.step (World.initial files)
    (fun past world => ∀ handle upload, world.handles[handle]? = some (.capturing upload) →
      ∃ before path peer between,
        Opening server files past handle upload.request before path peer between ∧
        (upload.captured = false → upload.value = writtenTo handle between))
    (fun _ _ held => by cases held)
  apply history
  intro past event openings handle upload held
  have holds := step_holds server _ event (after_sound server files past) handle upload held
  cases holds with
  | kept upload present unwritten =>
    obtain ⟨before, path, peer, between, opening, content⟩ := openings handle upload present
    refine ⟨before, path, peer, between ++ [event], opening.extended event, fun uncaptured => ?_⟩
    rw [written_to_snoc, written_to_other handle event (unwritten uncaptured), List.append_nil]
    exact content uncaptured
  | written earlier chunk present uncaptured same =>
    obtain ⟨before, path, peer, between, opening, content⟩ := openings handle earlier present
    refine ⟨before, path, peer, between ++ [event], opening.extended event, fun _ => ?_⟩
    rw [written_to_snoc, ← content uncaptured, same]
    simp [writtenTo]
  | captured earlier present uncaptured same =>
    obtain ⟨before, path, peer, between, opening, -⟩ := openings handle earlier present
    exact ⟨before, path, peer, between ++ [event], opening.extended event, fun again => by cases again⟩
  | opened path peer same fresh given =>
    refine ⟨past, path, peer, [], ⟨?_, rfl, fresh.symm, given⟩, fun _ => rfl⟩
    rw [same]

/-- A step keeps the request of every session upload's file object, and all of it once it
is captured. -/
theorem step_keeps_upload (server : DynamicContentServer κ) (world : World κ) (event : Event)
    (sound : world.Sound server.provider.host) (handle : Nat) (upload : CapturingUpload)
    (held : world.handles[handle]? = some (.capturing upload)) :
    ∃ later, (server.step world event).handles[handle]? = some (.capturing later) ∧
      later.request = upload.request ∧ (upload.captured = true → later.captured = true) := by
  have kept (same : (server.step world event).handles[handle]? = world.handles[handle]?) :
      ∃ later, (server.step world event).handles[handle]? = some (.capturing later) ∧
        later.request = upload.request ∧ (upload.captured = true → later.captured = true) :=
    ⟨upload, same.trans held, rfl, id⟩
  have inside := (List.getElem?_eq_some_iff.mp held).1
  cases event with
  | readRequest request now schedule =>
    apply kept
    rw [DynamicContentServer.step_read_request,
      (fetch_uploads world server.provider now schedule request sound).1]
  | threadReport now report => exact kept rfl
  | writeRequest path peer =>
    apply kept
    simp only [DynamicContentServer.step]
    rcases open_upload_handles server world path peer with same | ⟨target, added⟩ | ⟨added, -⟩
    · rw [same]
    · rw [added, List.getElem?_append_left inside]
    · rw [added, List.getElem?_append_left inside]
  | write target chunk =>
    simp only [DynamicContentServer.step] at kept ⊢
    have written := world.write_cases target chunk
    generalize world.write target chunk = result at written kept ⊢
    cases written with
    | absent missing => exact kept rfl
    | captured earlier found captured => exact kept rfl
    | closed path position found => exact kept rfl
    | disk path position found =>
      apply kept
      refine List.getElem?_set_ne ?_
      rintro rfl
      rw [found] at held
      cases held
    | collected earlier found uncaptured =>
      by_cases own : target = handle
      · subst own
        cases found.symm.trans held
        exact ⟨{ upload with value := upload.value ++ chunk }, by simp [inside], rfl, id⟩
      · exact kept (List.getElem?_set_ne own)
  | close target =>
    simp only [DynamicContentServer.step] at kept ⊢
    have closed := world.close_cases target
    generalize world.close target = result at closed kept ⊢
    cases closed with
    | absent missing => exact kept rfl
    | again earlier present captured => exact kept rfl
    | refused earlier raised present uncaptured unexpected => exact kept rfl
    | disk path position shut present =>
      apply kept
      refine List.getElem?_set_ne ?_
      rintro rfl
      rw [present] at held
      cases held
    | recorded earlier client session pending present uncaptured expected =>
      by_cases own : target = handle
      · subst own
        cases present.symm.trans held
        exact ⟨{ upload with captured := true }, by simp [inside], rfl, fun _ => rfl⟩
      · exact kept (List.getElem?_set_ne own)

section Closings

/-- The close of a session upload that is not captured, with what the upload holds. -/
structure Closing where
  handle : Nat
  upload : CapturingUpload

/-- The upload that an event closes for the first time since it was opened, or tries to. Closing an
upload a second time is no closing, and neither is closing a file on the disk. -/
def World.closing (world : World κ) : Event → Option Closing
  | .close handle =>
    match world.handles[handle]? with
    | some (.capturing upload) => if upload.captured then none else some ⟨handle, upload⟩
    | _ => none
  | _ => none

/-- The closings of a run, in order. -/
def closings (server : DynamicContentServer κ) (files : FileTree) (events : List Event) :
    List Closing :=
  Runs.observed server.step World.closing (World.initial files) events

/-- A closing is a close of an upload that is held uncaptured. A second close of the same file
object is no closing. -/
theorem closing_some (world : World κ) (event : Event) (closing : Closing) :
    world.closing event = some closing ↔ event = .close closing.handle ∧
      world.handles[closing.handle]? = some (.capturing closing.upload) ∧
      closing.upload.captured = false := by
  obtain ⟨handle, upload⟩ := closing
  cases event with
  | close target =>
    simp only [World.closing, Event.close.injEq]
    constructor
    · intro shown
      split at shown
      · rename_i found held
        split at shown
        · cases shown
        · rename_i uncaptured
          cases shown
          exact ⟨rfl, held, by simpa using uncaptured⟩
      · cases shown
    · rintro ⟨rfl, held, uncaptured⟩
      simp [held, uncaptured]
  | _ => simp [World.closing]

/-- One more event adds its own closing at the end. -/
theorem closings_snoc (server : DynamicContentServer κ) (files : FileTree) (events : List Event)
    (event : Event) : closings server files (events ++ [event]) =
      closings server files events ++ ((server.after files events).closing event).toList :=
  Runs.observed_snoc _ _ _ _ _

/-- An upload that is closed holds exactly what was written to it since it was opened, with nothing
of other file objects in between. -/
theorem closing_complete (server : DynamicContentServer κ) (files : FileTree) (events : List Event)
    (closing : Closing) (member : closing ∈ closings server files events) :
    ∃ past future before path peer between, events = past ++ .close closing.handle :: future ∧
      Opening server files past closing.handle closing.upload.request before path peer between ∧
      closing.upload.value = writtenTo closing.handle between := by
  obtain ⟨past, event, future, split, shown⟩ := (Runs.mem_observed _ _ _ _ _).mp member
  obtain ⟨rfl, held, uncaptured⟩ := (closing_some _ _ _).mp shown
  obtain ⟨before, path, peer, between, opening, content⟩ :=
    upload_opening server files past closing.handle closing.upload held
  exact ⟨past, future, before, path, peer, between, split, opening, content uncaptured⟩

/-- The file object of a closed upload is still there, with its request.

Proof: by induction on the events from their end; no step takes a file object away. -/
theorem closing_held (server : DynamicContentServer κ) (files : FileTree) (events : List Event) :
    ∀ closing ∈ closings server files events, ∃ upload,
      (server.after files events).handles[closing.handle]? = some (.capturing upload) ∧
        upload.request = closing.upload.request := by
  induction events using List.reverseRecOn with
  | nil => exact fun _ member => by cases member
  | append_singleton past event inductionHypothesis =>
    intro closing member
    have earlier : ∃ upload,
        (server.after files past).handles[closing.handle]? = some (.capturing upload) ∧
          upload.request = closing.upload.request := by
      rw [closings_snoc, List.mem_append] at member
      rcases member with before | here
      · exact inductionHypothesis closing before
      · obtain ⟨-, held, -⟩ := (closing_some _ _ _).mp (Option.mem_toList.mp here)
        exact ⟨closing.upload, held, rfl⟩
    obtain ⟨upload, held, same⟩ := earlier
    obtain ⟨later, stays, kept, -⟩ := step_keeps_upload server _ event
      (after_sound server files past) closing.handle upload held
    refine ⟨later, ?_, kept.trans same⟩
    rw [DynamicContentServer.after_step]
    exact stays

end Closings

end UbootTftp
