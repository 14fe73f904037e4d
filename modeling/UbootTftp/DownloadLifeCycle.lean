import UbootTftp.DownloadThreads

/-!
# The life cycle of a download

An artifact is opened by the first acquire of its key, which fixes its attributes and starts
its one thread. Its state is what that thread has recorded, so it leaves `pending` at most
once. Later acquires and releases change attachments only.
-/

namespace UbootTftp

/-- The request that the first acquire of a key fixes. -/
def AcquireCall.request (call : AcquireCall) (host : Host) : DownloadRequest :=
  ⟨call.artifactKey, call.url, call.finalPath,
    DownloadJobStore.tempPathFor host call.artifactKey (call.finalPath.getLastD []), call.pageUrl,
    call.headers.getD Dict.empty⟩

/-- The entry that the first acquire of a key creates. It is pending, nothing of it has been
downloaded, and the session that makes the call is its only user. -/
def AcquireCall.entry (call : AcquireCall) (host : Host) (now : Nat) : ArtifactEntry where
  artifactKey := call.artifactKey
  url := call.url
  relativePath := call.relativePath
  finalPath := call.finalPath
  tempPath := DownloadJobStore.tempPathFor host call.artifactKey (call.finalPath.getLastD [])
  pageUrl := call.pageUrl
  headers := call.headers.getD Dict.empty
  state := .pending
  bytesDone := 0
  bytesTotal := none
  error := none
  createdAt := now
  updatedAt := now
  attachedSessions := Dict.empty.set call.sessionId ()

/-- Whether an acquire contradicts an attribute of the entry. -/
def ArtifactEntry.Conflicts (entry : ArtifactEntry) (call : AcquireCall) : Prop :=
  entry.url ≠ call.url ∨ entry.relativePath ≠ call.relativePath ∨
    entry.finalPath ≠ call.finalPath ∨ entry.pageUrl ≠ call.pageUrl ∨
    entry.headers.agree (call.headers.getD Dict.empty) = false

/-- An entry after one more call or step: with the same attributes, and with the same outcome unless
it was pending. An outcome is the state together with the error. -/
structure ArtifactEntry.Follows (entry next : ArtifactEntry) : Prop where
  request : next.request = entry.request
  relativePath : next.relativePath = entry.relativePath
  outcome : next.state = entry.state ∧ next.error = entry.error ∨
    entry.state = .pending ∧ (next.state = .done ∨ next.state = .failed)

namespace DownloadJobStore

variable (store : DownloadJobStore) (host : Host) (now : Nat) (call : AcquireCall)

/-- The first acquire of a key stores its entry. -/
theorem acquire_absent (absent : store.get call.artifactKey = none) :
    store.acquire host now call =
      (store.set call.artifactKey (call.entry host now), .ok (call.entry host now).snapshot) := by
  simp only [acquire, absent]
  rfl

/-- An acquire is refused exactly when it contradicts an attribute. -/
theorem validate_entry_iff (entry : ArtifactEntry) :
    validateEntry entry call ≠ none ↔ entry.Conflicts call := by
  simp only [validateEntry, ArtifactEntry.Conflicts]
  repeat' split
  all_goals simp_all

/-- A conflicting acquire raises and leaves the store. -/
theorem acquire_conflict (entry : ArtifactEntry)
    (stored : store.get call.artifactKey = some entry) (conflicts : entry.Conflicts call) :
    (store.acquire host now call).1 = store ∧
      ∃ raised, (store.acquire host now call).2 = .error raised ∧ raised.cls = .valueError := by
  obtain ⟨conflict, found⟩ :=
    Option.ne_none_iff_exists'.mp ((validate_entry_iff call entry).mpr conflicts)
  simp only [acquire, stored, found]
  exact ⟨trivial, _, rfl, rfl⟩

/-- A matching acquire attaches its session. -/
theorem acquire_matching (entry : ArtifactEntry)
    (stored : store.get call.artifactKey = some entry) (agrees : ¬entry.Conflicts call) :
    store.acquire host now call =
      (store.set call.artifactKey (attach entry call.sessionId now),
        .ok (attach entry call.sessionId now).snapshot) := by
  have valid := not_not.mp (mt (validate_entry_iff call entry).mp agrees)
  simp only [acquire, stored, valid]

/-- A repeated acquire amends its entry by an attachment, or leaves the store. -/
theorem acquire_repeated (entry : ArtifactEntry)
    (stored : store.get call.artifactKey = some entry) :
    (store.acquire host now call).1 = store ∨
      (store.acquire host now call).1 =
        store.amend call.artifactKey fun entry => attach entry call.sessionId now := by
  by_cases conflicts : entry.Conflicts call
  · exact .inl (acquire_conflict store host now call entry stored conflicts).1
  · rw [acquire_matching store host now call entry stored conflicts]
    simp only [amend, stored, or_true]

end DownloadJobStore

namespace Downloads

/-- What holds between the store and its threads. A key has an entry, a thread and one place in
the list of started threads, or none of them; and the state of an entry is what its thread has
recorded. -/
structure Consistent (state : Downloads) : Prop where
  threaded : ∀ key, state.threads.get key = none ↔ state.store.get key = none
  listed : ∀ key, key ∈ state.started ↔ state.store.get key ≠ none
  once : state.started.Nodup
  recorded : ∀ key entry phase, state.store.get key = some entry →
    state.threads.get key = some phase → entry.state = phase.recorded
  error : ∀ key entry, state.store.get key = some entry →
    (entry.error ≠ none ↔ entry.state = .failed)

namespace Consistent

variable {state : Downloads} (consistent : state.Consistent)

include consistent

/-- The files do not matter. -/
theorem withFiles (files : FileTree) : Consistent { state with files := files } :=
  ⟨consistent.threaded, consistent.listed, consistent.once, consistent.recorded, consistent.error⟩

/-- An amendment that keeps state and error keeps the threads' records. Such amendments are those of
the progress, of the last use and of the users of an entry. -/
theorem amended (artifactKey : Text) (change : ArtifactEntry → ArtifactEntry)
    (kept : ∀ entry, (change entry).state = entry.state ∧ (change entry).error = entry.error) :
    Consistent { state with store := state.store.amend artifactKey change } := by
  have entries : ∀ key entry, (state.store.amend artifactKey change).get key = some entry →
      ∃ earlier, state.store.get key = some earlier ∧ entry.state = earlier.state ∧
        entry.error = earlier.error := by
    intro key entry stored
    rw [DownloadJobStore.get_amend] at stored
    split at stored
    · obtain ⟨earlier, present, rfl⟩ := Option.map_eq_some_iff.mp stored
      exact ⟨earlier, present, kept earlier⟩
    · exact ⟨entry, stored, rfl, rfl⟩
  have absent : ∀ key, (state.store.amend artifactKey change).get key = none ↔
      state.store.get key = none := by
    intro key
    rw [DownloadJobStore.get_amend]
    split
    · exact Option.map_eq_none_iff
    · exact Iff.rfl
  constructor
  case threaded => exact fun key => (consistent.threaded key).trans (absent key).symm
  case listed => exact fun key => (consistent.listed key).trans (not_congr (absent key).symm)
  case once => exact consistent.once
  case recorded =>
    intro key entry phase stored running
    obtain ⟨earlier, present, same, -⟩ := entries key entry stored
    exact same.trans (consistent.recorded key earlier phase present running)
  case error =>
    intro key entry stored
    obtain ⟨earlier, present, same, error⟩ := entries key entry stored
    rw [same, error]
    exact consistent.error key earlier present

/-- A thread that goes on without a new record keeps the threads' records. Most steps of a thread
are of this kind: until the outcome is recorded, every phase stands for a pending entry. -/
theorem goneOn (artifactKey : Text) (phase next : ThreadPhase)
    (running : state.threads.get artifactKey = some phase)
    (same : next.recorded = phase.recorded) : (state.goOn artifactKey next).Consistent := by
  constructor
  case threaded =>
    intro key
    simp only [goOn, Dict.get_set]
    split
    · rename_i here
      rw [← consistent.threaded, here, running]
      simp
    · exact consistent.threaded key
  case listed => exact consistent.listed
  case once => exact consistent.once
  case recorded =>
    intro key entry current stored running'
    simp only [goOn, Dict.get_set] at running'
    split at running'
    · rename_i here
      cases running'
      rw [same]
      exact consistent.recorded key entry phase stored (here ▸ running)
    · exact consistent.recorded key entry current stored running'
  case error => exact consistent.error

/-- A thread that records its outcome in its entry keeps the threads' records. The entry and the
phase of the thread change together, in one step. -/
theorem finished (artifactKey : Text) (phase next : ThreadPhase)
    (running : state.threads.get artifactKey = some phase)
    (change : ArtifactEntry → ArtifactEntry)
    (outcome : ∀ entry, entry.error = none → (change entry).state = next.recorded ∧
      ((change entry).error ≠ none ↔ next.recorded = .failed))
    (pending : phase.recorded = .pending) :
    Consistent { state.goOn artifactKey next with
      store := state.store.amend artifactKey change } := by
  have unset : ∀ entry, state.store.get artifactKey = some entry → entry.error = none := by
    intro entry stored
    by_contra set
    have failed := (consistent.error artifactKey entry stored).mp set
    rw [consistent.recorded artifactKey entry phase stored running, pending] at failed
    cases failed
  constructor
  case threaded =>
    intro key
    simp only [goOn, Dict.get_set, DownloadJobStore.get_amend]
    split
    · rename_i here
      rw [Option.map_eq_none_iff, ← consistent.threaded, here, running]
      simp
    · exact consistent.threaded key
  case listed =>
    intro key
    simp only [goOn, DownloadJobStore.get_amend]
    split
    · rw [ne_eq, Option.map_eq_none_iff]
      exact consistent.listed key
    · exact consistent.listed key
  case once => exact consistent.once
  case recorded =>
    intro key entry current stored running'
    simp only [goOn, Dict.get_set, DownloadJobStore.get_amend] at stored running'
    split at stored
    · rename_i here
      rw [if_pos here] at running'
      cases running'
      obtain ⟨earlier, present, rfl⟩ := Option.map_eq_some_iff.mp stored
      exact (outcome earlier (unset earlier (here ▸ present))).1
    · rename_i other
      rw [if_neg other] at running'
      exact consistent.recorded key entry current stored running'
  case error =>
    intro key entry stored
    simp only [DownloadJobStore.get_amend] at stored
    split at stored
    · rename_i here
      obtain ⟨earlier, present, rfl⟩ := Option.map_eq_some_iff.mp stored
      obtain ⟨recorded, error⟩ := outcome earlier (unset earlier (here ▸ present))
      rw [recorded, error]
    · exact consistent.error key entry stored

/-- The first acquire of a key opens its entry and its thread. No thread has run for the key before,
so no thread is started twice for it. -/
theorem opened (host : Host) (now : Nat) (call : AcquireCall)
    (absent : state.store.get call.artifactKey = none) :
    Consistent { state with
      store := (state.store.acquire host now call).1
      threads := state.threads.set call.artifactKey .created
      started := state.started ++ [call.artifactKey] } := by
  rw [DownloadJobStore.acquire_absent _ _ _ _ absent]
  constructor
  case threaded =>
    intro key
    simp only [Dict.get_set]
    split
    · simp
    · exact consistent.threaded key
  case listed =>
    intro key
    rw [List.mem_append, List.mem_singleton, consistent.listed, Dict.get_set]
    by_cases here : key = call.artifactKey
    · simp [here]
    · simp [here]
  case once =>
    refine List.nodup_append.mpr ⟨consistent.once, List.nodup_singleton _, ?_⟩
    intro key member other single same
    rw [List.mem_singleton.mp single] at same
    exact (consistent.listed key).mp member (same ▸ absent)
  case recorded =>
    intro key entry phase stored running
    simp only [Dict.get_set] at stored running
    split at stored
    · rename_i here
      rw [if_pos here] at running
      cases running
      cases stored
      rfl
    · rename_i other
      rw [if_neg other] at running
      exact consistent.recorded key entry phase stored running
  case error =>
    intro key entry stored
    simp only [Dict.get_set] at stored
    split at stored
    · cases stored
      simp [AcquireCall.entry]
    · exact consistent.error key entry stored

end Consistent

/-- Every call and every step keeps the threads' records.

Proof: by what the step does. An acquire opens an entry and its thread together, and every other
step either leaves the record of its thread or writes it into the entry. -/
theorem step_consistent (host : Host) (state : Downloads) (event : DownloadEvent)
    (consistent : state.Consistent) : (step host state event).Consistent := by
  have stepped := step_cases host state event
  generalize step host state event = next at stepped ⊢
  cases stepped with
  | idle noAcquire noRelease => exact consistent
  | opened now call absent => exact consistent.opened host now call absent
  | repeated now call entry stored =>
    rcases DownloadJobStore.acquire_repeated state.store host now call entry stored with
      same | attached
    · rw [same]
      exact consistent
    · rw [attached]
      exact consistent.amended _ _ fun _ => ⟨rfl, rfl⟩
  | released now artifactKey sessionId => exact consistent.amended _ _ fun _ => ⟨rfl, rfl⟩
  | took artifactKey entry running stored => exact consistent.goneOn _ _ _ running rfl
  | progressed now artifactKey bytesDone bytesTotal =>
    exact consistent.amended _ _ fun _ => ⟨rfl, rfl⟩
  | wrote artifactKey body request written running =>
    exact (consistent.goneOn artifactKey _ (.downloading request (some body)) running rfl).withFiles _
  | returned artifactKey request written running => exact consistent.goneOn _ _ _ running rfl
  | replaced artifactKey request written body running stands =>
    exact (consistent.goneOn artifactKey _ (.replaced request written) running rfl).withFiles _
  | raised artifactKey error request written running =>
    rcases running with downloading | returned
    · exact consistent.goneOn _ _ _ downloading rfl
    · exact consistent.goneOn _ _ _ returned rfl
  | markedDone now artifactKey request written running =>
    exact consistent.finished artifactKey _ _ running _
      (fun entry unset => ⟨rfl, by simp [unset, ThreadPhase.recorded]⟩) rfl
  | markedFailed now artifactKey request error running =>
    exact consistent.finished artifactKey _ _ running _
      (fun entry unset => ⟨rfl, by simp [ThreadPhase.recorded]⟩) rfl
  | unlinked artifactKey request running =>
    exact (consistent.goneOn artifactKey _ .unlinked running rfl).withFiles _

/-- The threads' records are right in every reachable state. -/
theorem after_consistent (host : Host) (files : FileTree) (events : List DownloadEvent) :
    (after host files events).Consistent := by
  refine Runs.run_invariant (step host) Consistent (step_consistent host) (initial files) ?_ events
  constructor
  case threaded => exact fun key => by simp [initial]
  case listed => exact fun key => by simp [initial]
  case once => exact List.nodup_nil
  case recorded => exact fun key entry phase stored => by cases stored
  case error => exact fun key entry stored => by cases stored

/-- An amendment that makes each entry follow makes those of the store follow. -/
theorem amend_follows (store : DownloadJobStore) (artifactKey : Text)
    (change : ArtifactEntry → ArtifactEntry) (key : Text) (entry : ArtifactEntry)
    (stored : store.get key = some entry) (follows : key = artifactKey → entry.Follows (change entry)) :
    ∃ next, (store.amend artifactKey change).get key = some next ∧ entry.Follows next := by
  rw [DownloadJobStore.get_amend, stored]
  split
  · rename_i here
    exact ⟨change entry, rfl, follows here⟩
  · exact ⟨entry, rfl, ⟨rfl, rfl, .inl ⟨rfl, rfl⟩⟩⟩

/-- Every call and every step keeps each entry, up to its outcome while it is pending. Once the
outcome is recorded it stays, and the request of the entry stays at any time. -/
theorem step_follows (host : Host) (state : Downloads) (event : DownloadEvent)
    (consistent : state.Consistent) (key : Text) (entry : ArtifactEntry)
    (stored : state.store.get key = some entry) :
    ∃ next, (step host state event).store.get key = some next ∧ entry.Follows next := by
  have stays : entry.Follows entry := ⟨rfl, rfl, .inl ⟨rfl, rfl⟩⟩
  have pending (phase : ThreadPhase) (running : state.threads.get key = some phase)
      (unrecorded : phase.recorded = .pending) : entry.state = .pending :=
    (consistent.recorded key entry phase stored running).trans unrecorded
  have stepped := step_cases host state event
  generalize step host state event = next at stepped ⊢
  cases stepped with
  | idle noAcquire noRelease => exact ⟨entry, stored, stays⟩
  | opened now call absent =>
    have other : key ≠ call.artifactKey := by
      rintro rfl
      cases absent.symm.trans stored
    rw [DownloadJobStore.acquire_absent _ _ _ _ absent]
    exact ⟨entry, (Dict.get_set_other _ _ _ _ other).trans stored, stays⟩
  | repeated now call present here =>
    rcases DownloadJobStore.acquire_repeated state.store host now call present here with
      same | attached
    · rw [same]
      exact ⟨entry, stored, stays⟩
    · rw [attached]
      exact amend_follows _ _ _ key entry stored fun _ => ⟨rfl, rfl, .inl ⟨rfl, rfl⟩⟩
  | released now artifactKey sessionId =>
    exact amend_follows _ _ _ key entry stored fun _ => ⟨rfl, rfl, .inl ⟨rfl, rfl⟩⟩
  | took artifactKey present running here => exact ⟨entry, stored, stays⟩
  | progressed now artifactKey bytesDone bytesTotal =>
    exact amend_follows _ _ _ key entry stored fun _ => ⟨rfl, rfl, .inl ⟨rfl, rfl⟩⟩
  | wrote artifactKey body request written running => exact ⟨entry, stored, stays⟩
  | returned artifactKey request written running => exact ⟨entry, stored, stays⟩
  | replaced artifactKey request written body running stands => exact ⟨entry, stored, stays⟩
  | raised artifactKey error request written running => exact ⟨entry, stored, stays⟩
  | markedDone now artifactKey request written running =>
    exact amend_follows _ _ _ key entry stored fun here =>
      ⟨rfl, rfl, .inr ⟨pending _ (here ▸ running) rfl, .inl rfl⟩⟩
  | markedFailed now artifactKey request error running =>
    exact amend_follows _ _ _ key entry stored fun here =>
      ⟨rfl, rfl, .inr ⟨pending _ (here ▸ running) rfl, .inr rfl⟩⟩
  | unlinked artifactKey request running => exact ⟨entry, stored, stays⟩

/-- A key gets its entry by an acquire only. The steps of threads amend the entries that are there,
and a release never adds one. -/
theorem step_absent (host : Host) (state : Downloads) (event : DownloadEvent) (key : Text)
    (absent : state.store.get key = none)
    (unacquired : ∀ now call, event = .acquire now call → call.artifactKey ≠ key) :
    (step host state event).store.get key = none := by
  have amended (artifactKey : Text) (change : ArtifactEntry → ArtifactEntry) :
      (state.store.amend artifactKey change).get key = none := by
    rw [DownloadJobStore.get_amend, absent]
    simp
  have stepped := step_cases host state event
  generalize step host state event = next at stepped ⊢
  cases stepped with
  | idle noAcquire noRelease => exact absent
  | opened now call none =>
    rw [DownloadJobStore.acquire_absent _ _ _ _ none]
    exact (Dict.get_set_other _ _ _ _ (unacquired now call rfl).symm).trans absent
  | repeated now call present here =>
    rcases DownloadJobStore.acquire_repeated state.store host now call present here with
      same | attached
    · rw [same]
      exact absent
    · rw [attached]
      exact amended _ _
  | released now artifactKey sessionId => exact amended _ _
  | took artifactKey present running here => exact absent
  | progressed now artifactKey bytesDone bytesTotal => exact amended _ _
  | wrote artifactKey body request written running => exact absent
  | returned artifactKey request written running => exact absent
  | replaced artifactKey request written body running stands => exact absent
  | raised artifactKey error request written running => exact absent
  | markedDone now artifactKey request written running => exact amended _ _
  | markedFailed now artifactKey request error running => exact amended _ _
  | unlinked artifactKey request running => exact absent

/-- The first acquire of a key among the calls so far. It need not be the call of a session that is
still attached. -/
structure FirstAcquire (events : List DownloadEvent) (key : Text) (call : AcquireCall) : Prop where
  names : call.artifactKey = key
  first : ∃ past now future, events = past ++ .acquire now call :: future ∧
    ∀ earlier other, .acquire earlier other ∈ past → other.artifactKey ≠ key

/-- Every entry has the attributes of the first acquire of its key, and a key without an entry has
not been acquired.

Proof: by induction on the events from their end; both halves are needed, since a step opens an
entry exactly for a key that was not acquired before. -/
theorem first_acquire (host : Host) (files : FileTree) (events : List DownloadEvent) (key : Text) :
    (∀ entry, (after host files events).store.get key = some entry →
      ∃ call, FirstAcquire events key call ∧ entry.request = call.request host ∧
        entry.relativePath = call.relativePath) ∧
      ((after host files events).store.get key = none →
        ∀ now call, .acquire now call ∈ events → call.artifactKey ≠ key) := by
  apply Runs.run_history (step host) (initial files) (fun past state =>
    (∀ entry, state.store.get key = some entry →
      ∃ call, FirstAcquire past key call ∧ entry.request = call.request host ∧
        entry.relativePath = call.relativePath) ∧
      (state.store.get key = none → ∀ now call, .acquire now call ∈ past → call.artifactKey ≠ key))
  case base =>
    exact ⟨fun entry stored => by simp [initial] at stored, fun _ _ _ member => by cases member⟩
  intro past event known
  have consistent := after_consistent host files past
  change (∀ entry, (after host files past).store.get key = some entry → _) ∧
    ((after host files past).store.get key = none → _) at known
  change (∀ entry, (step host (after host files past) event).store.get key = some entry → _) ∧
    ((step host (after host files past) event).store.get key = none → _)
  obtain ⟨described, unacquired⟩ := known
  cases stored : (after host files past).store.get key with
  | some entry =>
    obtain ⟨next, kept, follows⟩ := step_follows host _ event consistent key entry stored
    obtain ⟨call, ⟨names, before, now, future, split, first⟩, request, relative⟩ :=
      described entry stored
    refine ⟨fun present here => ?_, fun none => ?_⟩
    · cases kept.symm.trans here
      refine ⟨call, ⟨names, before, now, future ++ [event], by rw [split]; simp, first⟩, ?_, ?_⟩
      · exact follows.request.trans request
      · exact follows.relativePath.trans relative
    · cases kept.symm.trans none
  | none =>
    have earlier := unacquired stored
    by_cases acquires : ∃ now call, event = .acquire now call ∧ call.artifactKey = key
    · obtain ⟨now, call, rfl, rfl⟩ := acquires
      have opens : (step host (after host files past) (.acquire now call)).store.get
          call.artifactKey = some (call.entry host now) := by
        simp only [step, stored, DownloadJobStore.acquire_absent _ _ _ _ stored, Dict.get_set_self]
      refine ⟨fun present here => ?_, fun none => ?_⟩
      · cases opens.symm.trans here
        exact ⟨call, ⟨rfl, past, now, [], rfl, earlier⟩, rfl, rfl⟩
      · cases opens.symm.trans none
    · have still : (step host (after host files past) event).store.get key = none :=
        step_absent host _ event key stored fun now call same names =>
          acquires ⟨now, call, same, names⟩
      refine ⟨fun present here => ?_, fun _ now call member => ?_⟩
      · cases still.symm.trans here
      · rcases List.mem_append.mp member with before | here
        · exact earlier now call before
        · exact fun same => acquires ⟨now, call, (List.mem_singleton.mp here).symm, same⟩

/-- A step starts the thread of the key that it acquires first, and no other. A later acquire of the
same key finds the entry and starts nothing, whatever has become of the thread. -/
theorem step_started (host : Host) (state : Downloads) (event : DownloadEvent)
    (consistent : state.Consistent) (key : Text) :
    key ∈ (step host state event).started ↔
      key ∈ state.started ∨ ∃ now call, event = .acquire now call ∧ call.artifactKey = key := by
  rw [(step_consistent host state event consistent).listed, consistent.listed]
  constructor
  · intro present
    by_contra neither
    obtain ⟨absent, unacquired⟩ := not_or.mp neither
    exact present (step_absent host state event key (not_not.mp absent) fun now call same names =>
      unacquired ⟨now, call, same, names⟩)
  · rintro (present | ⟨now, call, rfl, rfl⟩)
    · obtain ⟨entry, stored⟩ := Option.ne_none_iff_exists'.mp present
      obtain ⟨next, kept, -⟩ := step_follows host state event consistent key entry stored
      rw [kept]
      exact Option.some_ne_none _
    · cases stored : state.store.get call.artifactKey with
      | none =>
        simp only [step, stored, DownloadJobStore.acquire_absent _ _ _ _ stored, Dict.get_set_self]
        exact Option.some_ne_none _
      | some entry =>
        obtain ⟨next, kept, -⟩ :=
          step_follows host state (.acquire now call) consistent call.artifactKey entry stored
        rw [kept]
        exact Option.some_ne_none _

/-- What one more call or step does to a store after the events so far. The events are arbitrary, so
that a step of a thread that cannot be taken is among them; it changes nothing. -/
structure LifeCycle (host : Host) (files : FileTree) (events : List DownloadEvent)
    (event : DownloadEvent) : Prop where
  /-- No thread is started twice, and one is started by the first acquire of its key. -/
  once : (after host files (events ++ [event])).started.Nodup
  starts : ∀ key, key ∈ (after host files (events ++ [event])).started ↔
    key ∈ (after host files events).started ∨
      ∃ now call, event = .acquire now call ∧ call.artifactKey = key
  /-- Attributes are those of the first acquire. -/
  attributes : ∀ key entry, (after host files events).store.get key = some entry →
    ∃ call, FirstAcquire events key call ∧ entry.request = call.request host ∧
      entry.relativePath = call.relativePath
  /-- Attributes stay, and an outcome stays once it is recorded. -/
  follows : ∀ key entry, (after host files events).store.get key = some entry →
    ∃ next, (after host files (events ++ [event])).store.get key = some next ∧
      entry.Follows next
  error : ∀ key entry, (after host files events).store.get key = some entry →
    (entry.error ≠ none ↔ entry.state = .failed)
  /-- A conflicting acquire raises and changes nothing. -/
  conflicting : ∀ now call entry, event = .acquire now call →
    (after host files events).store.get call.artifactKey = some entry → entry.Conflicts call →
    after host files (events ++ [event]) = after host files events ∧
      ∃ raised, ((after host files events).store.acquire host now call).2 = .error raised ∧
        raised.cls = .valueError
  /-- A matching acquire attaches its session and changes nothing else. -/
  matching : ∀ now call entry, event = .acquire now call →
    (after host files events).store.get call.artifactKey = some entry → ¬entry.Conflicts call →
    after host files (events ++ [event]) = { after host files events with
      store := (after host files events).store.set call.artifactKey
        { entry with
          attachedSessions := entry.attachedSessions.set call.sessionId ()
          updatedAt := now } }
  /-- A release detaches its session and changes nothing else. -/
  releases : ∀ now key sessionId, event = .release now key sessionId →
    after host files (events ++ [event]) = { after host files events with
      store := (after host files events).store.amend key fun entry =>
        { entry with
          attachedSessions := entry.attachedSessions.erase sessionId
          updatedAt := now } }

/-- Every interleaving of calls and thread steps keeps to the life cycle of a download. Nothing is
assumed of the order of the steps, of the downloaders or of the sessions. The run is any list of
events, and each clause is about the state that it leads to or about the next event. What a
downloader leaves in its file, and whether it raises, are events as well, so a download that never
ends is among the runs. -/
theorem download_life_cycle (host : Host) (files : FileTree) (events : List DownloadEvent)
    (event : DownloadEvent) : LifeCycle host files events event := by
  have consistent := after_consistent host files events
  have last : after host files (events ++ [event]) = step host (after host files events) event :=
    Runs.run_snoc _ _ _ _
  constructor
  case once => exact (after_consistent host files _).once
  case starts =>
    rw [last]
    exact step_started host _ event consistent
  case attributes => exact fun key => (first_acquire host files events key).1
  case follows =>
    rw [last]
    exact step_follows host _ event consistent
  case error => exact consistent.error
  case conflicting =>
    rintro now call entry rfl stored conflicts
    obtain ⟨same, refused⟩ :=
      DownloadJobStore.acquire_conflict _ host now call entry stored conflicts
    refine ⟨?_, refused⟩
    rw [last]
    simp only [step, stored, same]
  case matching =>
    rintro now call entry rfl stored agrees
    rw [last]
    simp only [step, stored, DownloadJobStore.acquire_matching _ host now call entry stored agrees]
    rfl
  case releases =>
    rintro now key sessionId rfl
    rw [last]
    rfl

end Downloads

end UbootTftp
