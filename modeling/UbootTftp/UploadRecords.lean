import UbootTftp.UploadHandles

/-!
# Records of uploads

The upload store grows with every closing that passes the check. Each upload is
recorded at most once, in the order of the closings, and for the client that its path
names.
-/

namespace UbootTftp

universe u
variable {κ : Type u}

/-- The recording of an upload that an event closes, with the client it is recorded for. It depends
on what the session waits for at the close, not at the opening. -/
def World.recording (world : World κ) (event : Event) : Option (ClientId × Closing) :=
  match world.closing event with
  | none => none
  | some closing =>
    match InMemoryUploadStore.expected world.sessions closing.upload.request.filename with
    | .error _ => none
    | .ok (client, _, _) => some (client, closing)

/-- The recordings of a run, in order. -/
def recordings (server : DynamicContentServer κ) (files : FileTree) (events : List Event) :
    List (ClientId × Closing) :=
  Runs.observed server.step World.recording (World.initial files) events

/-- A recording is a closing of an upload that passes the check. The check is made at the close, so
an upload whose session has gone on in the meantime is not recorded. -/
theorem recording_some (world : World κ) (event : Event) (client : ClientId) (closing : Closing) :
    world.recording event = some (client, closing) ↔ world.closing event = some closing ∧
      ∃ session pending, InMemoryUploadStore.expected world.sessions
        closing.upload.request.filename = .ok (client, session, pending) := by
  simp only [World.recording]
  cases world.closing event with
  | none => simp
  | some shown =>
    simp only [Option.some.injEq]
    constructor
    · intro recorded
      split at recorded
      · cases recorded
      · rename_i passed
        cases recorded
        exact ⟨rfl, _, _, passed⟩
    · rintro ⟨rfl, session, pending, passed⟩
      simp [passed]

/-- What has been recorded so far is what the recordings of the run say, and every recorded upload
is captured. The last part carries the induction: a captured upload is not recorded again. -/
structure RecordsKept (server : DynamicContentServer κ) (files : FileTree) (past : List Event)
    (world : World κ) : Prop where
  uploads : world.uploads.uploads =
    (recordings server files past).map (·.2.upload.uploadedFile)
  byClient : ∀ client, (world.uploads.byClientId.get client).getD [] =
    ((recordings server files past).filter (fun recording => decide (recording.1 = client))).map
      (·.2.upload.uploadedFile)
  once : ((recordings server files past).map (·.2.handle)).Nodup
  captured : ∀ recording ∈ recordings server files past, ∃ upload,
    world.handles[recording.2.handle]? = some (.capturing upload) ∧ upload.captured = true

section Records

variable (server : DynamicContentServer κ) (files : FileTree)

/-- One more event adds its own recording at the end. -/
theorem recordings_snoc (events : List Event) (event : Event) :
    recordings server files (events ++ [event]) =
      recordings server files events ++ ((server.after files events).recording event).toList :=
  Runs.observed_snoc _ _ _ _ _

/-- An event that records nothing and keeps the records keeps them in step with the run. What was
captured stays captured, since no event opens a file object again. -/
theorem RecordsKept.unrecorded {past : List Event} {event : Event}
    (kept : RecordsKept server files past (server.after files past))
    (none : (server.after files past).recording event = none)
    (same : (server.step (server.after files past) event).uploads =
      (server.after files past).uploads) :
    RecordsKept server files (past ++ [event]) (server.step (server.after files past) event) := by
  have unchanged : recordings server files (past ++ [event]) = recordings server files past := by
    rw [recordings_snoc, none, Option.toList_none, List.append_nil]
  constructor
  case uploads =>
    rw [same, unchanged]
    exact kept.uploads
  case byClient =>
    intro client
    rw [same, unchanged]
    exact kept.byClient client
  case once =>
    rw [unchanged]
    exact kept.once
  case captured =>
    rw [unchanged]
    intro recording member
    obtain ⟨upload, held, captured⟩ := kept.captured recording member
    obtain ⟨later, stays, -, still⟩ := step_keeps_upload server _ event
      (after_sound server files past) recording.2.handle upload held
    exact ⟨later, stays, still captured⟩

/-- A close keeps the records in step with the run. An upload that is recorded was not
captured before, so its file object is none of those recorded earlier. -/
theorem close_records (past : List Event) (handle : Nat)
    (kept : RecordsKept server files past (server.after files past)) :
    RecordsKept server files (past ++ [.close handle])
      (server.step (server.after files past) (.close handle)) := by
  have silent (none : (server.after files past).recording (.close handle) = none)
      (same : ((server.after files past).close handle).1.uploads =
        (server.after files past).uploads) :
      RecordsKept server files (past ++ [.close handle])
        (server.step (server.after files past) (.close handle)) :=
    kept.unrecorded server files none same
  have keeps := step_keeps_upload server (server.after files past) (.close handle)
    (after_sound server files past)
  have added := recordings_snoc server files past (.close handle)
  simp only [DynamicContentServer.step] at silent keeps ⊢
  have closed := (server.after files past).close_cases handle
  generalize (server.after files past).close handle = result at closed silent keeps ⊢
  cases closed with
  | absent missing => exact silent (by simp [World.recording, World.closing, missing]) rfl
  | again upload held captured =>
    exact silent (by simp [World.recording, World.closing, held, captured]) rfl
  | disk path position shut held =>
    exact silent (by simp [World.recording, World.closing, held]) rfl
  | refused upload raised held uncaptured unexpected =>
    exact silent (by simp [World.recording, World.closing, held, uncaptured, unexpected]) rfl
  | recorded upload client session pending held uncaptured expected =>
    have shown : (server.after files past).recording (.close handle) =
        some (client, ⟨handle, upload⟩) :=
      (recording_some _ _ _ _).mpr
        ⟨(closing_some _ _ _).mpr ⟨rfl, held, uncaptured⟩, session, pending, expected⟩
    rw [shown, Option.toList_some] at added
    constructor
    case uploads =>
      rw [added, List.map_append, ← kept.uploads]
      rfl
    case byClient =>
      intro other
      rw [added, List.filter_append, List.map_append, ← kept.byClient other]
      simp only [Dict.get_set]
      by_cases same : other = client
      · subst same
        simp
      · simp [same, Ne.symm same]
    case once =>
      rw [added, List.map_append]
      refine List.nodup_append.mpr ⟨kept.once, by simp, ?_⟩
      rintro earlier member target here rfl
      obtain ⟨recording, recorded, same⟩ := List.mem_map.mp member
      obtain ⟨old, present, captured⟩ := kept.captured recording recorded
      simp only [List.map_cons, List.map_nil, List.mem_singleton] at here
      rw [same, here, held] at present
      cases present
      rw [uncaptured] at captured
      cases captured
    case captured =>
      intro recording member
      rw [added] at member
      rcases List.mem_append.mp member with earlier | here
      · obtain ⟨old, present, captured⟩ := kept.captured recording earlier
        obtain ⟨later, stays, -, still⟩ := keeps recording.2.handle old present
        exact ⟨later, stays, still captured⟩
      · cases List.mem_singleton.mp here
        have inside := (List.getElem?_eq_some_iff.mp held).1
        exact ⟨{ upload with captured := true }, List.getElem?_set_self inside, rfl⟩

/-- In every reachable state the records are those of the run. Only a close can add one; all other
events keep the store and the captured uploads. -/
theorem after_records (events : List Event) :
    RecordsKept server files events (server.after files events) := by
  have history := Runs.run_history server.step (World.initial files)
    (fun past world => RecordsKept server files past world)
    ⟨rfl, fun _ => rfl, List.nodup_nil, fun _ member => by cases member⟩
  apply history
  intro past event kept
  have quiet (noRead : ∀ request now schedule, event ≠ .readRequest request now schedule)
      (noClose : ∀ handle, event ≠ .close handle)
      (none : (server.after files past).recording event = none) :
      RecordsKept server files (past ++ [event]) (server.step (server.after files past) event) :=
    RecordsKept.unrecorded server files kept none (quiet_step server _ event noRead noClose).2.2.1
  cases event with
  | writeRequest path peer => exact quiet (fun _ _ _ => by simp) (fun _ => by simp) rfl
  | write handle chunk => exact quiet (fun _ _ _ => by simp) (fun _ => by simp) rfl
  | threadReport now report => exact quiet (fun _ _ _ => by simp) (fun _ => by simp) rfl
  | close handle => exact close_records server files past handle kept
  | readRequest request now schedule =>
    apply RecordsKept.unrecorded server files kept rfl
    rw [DynamicContentServer.step_read_request]
    exact (fetch_uploads _ server.provider now schedule request (after_sound server files past)).2

end Records

end UbootTftp
