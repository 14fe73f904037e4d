import UbootTftp.DownloadLifeCycle
import UbootTftp.Server

/-!
# What the file of a finished artifact holds

Threads write into one file tree, and the store compares destinations of one key only. As
long as no two artifacts share a destination or a temporary file, each thread's files are its
own, and the destination of a finished artifact holds what its downloader wrote.
-/

namespace UbootTftp

/-- The request that a thread has taken and still works on. Before the first step there is none yet,
and behind the last one the thread no longer needs it. -/
def ThreadPhase.request : ThreadPhase → Option DownloadRequest
  | .created => none
  | .downloading request _ => some request
  | .returned request _ => some request
  | .replaced request _ => some request
  | .done request _ => some request
  | .raised request _ => some request
  | .failed request => some request
  | .unlinked => none

/-- Whether two downloads share neither a destination nor a temporary file. The four inequalities
are what the threads need of each other. -/
structure DownloadRequest.Apart (left right : DownloadRequest) : Prop where
  finals : left.finalPath ≠ right.finalPath
  finalTemp : left.finalPath ≠ right.tempPath
  tempFinal : left.tempPath ≠ right.finalPath
  temps : left.tempPath ≠ right.tempPath

/-- Being apart is symmetric. -/
theorem DownloadRequest.Apart.symm {left right : DownloadRequest} (apart : left.Apart right) :
    right.Apart left :=
  ⟨apart.finals.symm, apart.tempFinal.symm, apart.finalTemp.symm, apart.temps.symm⟩

/-- Whether the files are as the thread has left them: while it downloads the temporary file holds
what it wrote, and once it has moved that file the destination does. -/
def ThreadPhase.Held (files : FileTree) : ThreadPhase → Prop
  | .downloading request written =>
    ∀ body, written = some body → files.get request.tempPath = some (.file body)
  | .returned request written =>
    ∀ body, files.get request.tempPath = some (.file body) → written = some body
  | .replaced request written =>
    ∃ body, written = some body ∧ files.get request.finalPath = some (.file body)
  | .done request written =>
    ∃ body, written = some body ∧ files.get request.finalPath = some (.file body)
  | _ => True

/-- Changes of other files do not concern a thread. Only the two files that the thread works on have
to be as before, the temporary one and the final one. -/
theorem ThreadPhase.Held.frame {files after : FileTree} {phase : ThreadPhase}
    (held : phase.Held files)
    (same : ∀ request, phase.request = some request →
      after.get request.tempPath = files.get request.tempPath ∧
        after.get request.finalPath = files.get request.finalPath) : phase.Held after := by
  cases phase with
  | created => trivial
  | raised request error => trivial
  | failed request => trivial
  | unlinked => trivial
  | downloading request written =>
    intro body wrote
    rw [(same request rfl).1]
    exact held body wrote
  | returned request written =>
    intro body stands
    rw [(same request rfl).1] at stands
    exact held body stands
  | replaced request written =>
    obtain ⟨body, wrote, stands⟩ := held
    exact ⟨body, wrote, (same request rfl).2.trans stands⟩
  | done request written =>
    obtain ⟨body, wrote, stands⟩ := held
    exact ⟨body, wrote, (same request rfl).2.trans stands⟩

namespace Downloads

/-- Whether a finished artifact's destination holds the bytes that its downloader wrote for
its URL. -/
def HoldsOwnBytes (state : Downloads) : Prop :=
  ∀ key entry, state.store.get key = some entry → entry.snapshot.state = .done →
    ∃ request body, state.threads.get key = some (.done request (some body)) ∧
      request.url = entry.url ∧ request.finalPath = entry.finalPath ∧
      state.files.get entry.finalPath = some (.file body)

/-- A first acquire names files that no other artifact has, and a downloader that returns without
having written anything leaves no temporary file of an earlier run behind.

The condition is on an event and the state before it. An acquire of a known artifact starts nothing
and is always separate. -/
def Separate (host : Host) (state : Downloads) : DownloadEvent → Prop
  | .acquire _ call => state.store.get call.artifactKey = none →
    ∀ key entry, state.store.get key = some entry → (call.request host).Apart entry.request
  | .downloaderReturns artifactKey => ∀ request,
    state.threads.get artifactKey = some (.downloading request none) →
      ∀ body, state.files.get request.tempPath ≠ some (.file body)
  | _ => True

/-- What holds while artifacts are kept separate: threads work on the requests of their entries,
these share no files, and the files are as their threads have left them. It is the invariant of the
runs below. -/
structure Isolated (state : Downloads) : Prop where
  consistent : state.Consistent
  carried : ∀ key entry phase request, state.store.get key = some entry →
    state.threads.get key = some phase → phase.request = some request → request = entry.request
  apart : ∀ key other entry second, state.store.get key = some entry →
    state.store.get other = some second → key ≠ other → entry.request.Apart second.request
  held : ∀ key phase, state.threads.get key = some phase → phase.Held state.files

/-- An entry after a step is an earlier one with the same request or has just been opened. The
request of an entry is thus fixed when it is opened. Releases and the thread change the state of an
entry and the number of its users only. -/
theorem step_entries (host : Host) (state : Downloads) (event : DownloadEvent)
    (consistent : state.Consistent) (key : Text) (next : ArtifactEntry)
    (stored : (step host state event).store.get key = some next) :
    (∃ entry, state.store.get key = some entry ∧ next.request = entry.request) ∨
      ∃ now call, event = .acquire now call ∧ state.store.get call.artifactKey = none ∧
        call.artifactKey = key ∧ next.request = call.request host := by
  cases before : state.store.get key with
  | some entry =>
    obtain ⟨after, kept, follows⟩ := step_follows host state event consistent key entry before
    cases kept.symm.trans stored
    exact .inl ⟨entry, rfl, follows.request⟩
  | none =>
    by_cases acquires : ∃ now call, event = .acquire now call ∧ call.artifactKey = key
    · obtain ⟨now, call, rfl, rfl⟩ := acquires
      simp only [step, before, DownloadJobStore.acquire_absent _ _ _ _ before,
        Dict.get_set_self] at stored
      cases stored
      exact .inr ⟨now, call, rfl, before, rfl, rfl⟩
    · have absent := step_absent host state event key before fun now call same names =>
        acquires ⟨now, call, same, names⟩
      cases absent.symm.trans stored

/-- A thread works on the request that it had before or on that of its entry. The second case is
that of a thread that starts to work: it takes the request from the entry under its key. -/
theorem step_requests (host : Host) (state : Downloads) (event : DownloadEvent) (key : Text)
    (phase : ThreadPhase) (request : DownloadRequest)
    (running : (step host state event).threads.get key = some phase)
    (works : phase.request = some request) :
    (∃ earlier, state.threads.get key = some earlier ∧ earlier.request = some request) ∨
      ∃ entry, state.store.get key = some entry ∧ request = entry.request := by
  have advanced (artifactKey : Text) (earlier next : ThreadPhase)
      (before : state.threads.get artifactKey = some earlier)
      (kept : ∀ request, next.request = some request → earlier.request = some request)
      (after : (state.threads.set artifactKey next).get key = some phase) :
      ∃ earlier, state.threads.get key = some earlier ∧ earlier.request = some request := by
    rw [Dict.get_set] at after
    split at after
    · rename_i here
      cases after
      exact ⟨earlier, here ▸ before, kept request works⟩
    · exact ⟨phase, after, works⟩
  have stepped := step_cases host state event
  generalize step host state event = next at stepped running
  cases stepped with
  | idle noAcquire noRelease => exact .inl ⟨phase, running, works⟩
  | opened now call absent =>
    rw [Dict.get_set] at running
    split at running
    · cases running
      cases works
    · exact .inl ⟨phase, running, works⟩
  | repeated now call entry stored => exact .inl ⟨phase, running, works⟩
  | released now artifactKey sessionId => exact .inl ⟨phase, running, works⟩
  | progressed now artifactKey bytesDone bytesTotal => exact .inl ⟨phase, running, works⟩
  | took artifactKey entry created stored =>
    simp only [goOn, Dict.get_set] at running
    split at running
    · rename_i here
      cases running
      cases works
      exact .inr ⟨entry, here ▸ stored, rfl⟩
    · exact .inl ⟨phase, running, works⟩
  | wrote artifactKey body taken written before =>
    exact .inl (advanced artifactKey _ (.downloading taken (some body)) before
      (fun _ same => same) running)
  | returned artifactKey taken written before =>
    exact .inl (advanced artifactKey _ (.returned taken written) before (fun _ same => same) running)
  | replaced artifactKey taken written body before stands =>
    exact .inl (advanced artifactKey _ (.replaced taken written) before (fun _ same => same) running)
  | raised artifactKey error taken written before =>
    rcases before with downloading | returned
    · exact .inl (advanced artifactKey _ (.raised taken error) downloading (fun _ same => same) running)
    · exact .inl (advanced artifactKey _ (.raised taken error) returned (fun _ same => same) running)
  | markedDone now artifactKey taken written before =>
    exact .inl (advanced artifactKey _ (.done taken written) before (fun _ same => same) running)
  | markedFailed now artifactKey taken error before =>
    exact .inl (advanced artifactKey _ (.failed taken) before (fun _ same => same) running)
  | unlinked artifactKey taken before =>
    exact .inl (advanced artifactKey _ .unlinked before (fun _ same => by cases same) running)

/-- Changing only files of one thread leaves the other threads' files as they were. The files of two
entries are apart in an isolated state, so that a frame for the one thread is a frame for the other
as well. -/
theorem Isolated.others_held {state : Downloads} (isolated : state.Isolated) (artifactKey : Text)
    (phase : ThreadPhase) (request : DownloadRequest)
    (running : state.threads.get artifactKey = some phase) (works : phase.request = some request)
    (files : FileTree)
    (frame : ∀ path, path ≠ request.tempPath → path ≠ request.finalPath →
      files.get path = state.files.get path)
    (key : Text) (other : ThreadPhase) (different : key ≠ artifactKey)
    (before : state.threads.get key = some other) : other.Held files := by
  refine (isolated.held key other before).frame fun second carries => ?_
  have stored (key : Text) (phase : ThreadPhase) (running : state.threads.get key = some phase) :
      ∃ entry, state.store.get key = some entry := by
    refine Option.ne_none_iff_exists'.mp fun absent => ?_
    rw [(isolated.consistent.threaded key).mpr absent] at running
    cases running
  obtain ⟨entry, present⟩ := stored artifactKey phase running
  obtain ⟨otherEntry, otherPresent⟩ := stored key other before
  have apart := isolated.apart key artifactKey otherEntry entry otherPresent present different
  rw [← isolated.carried key otherEntry other second otherPresent before carries,
    ← isolated.carried artifactKey entry phase request present running works] at apart
  exact ⟨frame _ apart.temps apart.tempFinal, frame _ apart.finalTemp apart.finals⟩

/-- A separate step leaves every thread's files as the thread has left them. The thread that goes on
holds its files by what it has just done to them, the other threads hold theirs by the frame. -/
theorem step_held (host : Host) (state : Downloads) (event : DownloadEvent)
    (isolated : state.Isolated) (separate : Separate host state event) (key : Text)
    (phase : ThreadPhase) (running : (step host state event).threads.get key = some phase) :
    phase.Held (step host state event).files := by
  -- A thread that goes on holds its files by its own new phase, the others by the frame.
  have advanced (artifactKey : Text) (earlier next : ThreadPhase) (request : DownloadRequest)
      (files : FileTree) (before : state.threads.get artifactKey = some earlier)
      (works : earlier.request = some request) (own : next.Held files)
      (frame : ∀ path, path ≠ request.tempPath → path ≠ request.finalPath →
        files.get path = state.files.get path)
      (after : (state.threads.set artifactKey next).get key = some phase) : phase.Held files := by
    rw [Dict.get_set] at after
    split at after
    · cases after
      exact own
    · rename_i other
      exact isolated.others_held artifactKey earlier request before works files frame key phase other
        after
  have stepped := step_cases host state event
  generalize step host state event = next at stepped running
  cases stepped with
  | idle noAcquire noRelease => exact isolated.held key phase running
  | opened now call absent =>
    rw [Dict.get_set] at running
    split at running
    · cases running
      trivial
    · exact isolated.held key phase running
  | repeated now call entry stored => exact isolated.held key phase running
  | released now artifactKey sessionId => exact isolated.held key phase running
  | progressed now artifactKey bytesDone bytesTotal => exact isolated.held key phase running
  | took artifactKey entry created stored =>
    simp only [goOn, Dict.get_set] at running
    split at running
    · cases running
      intro body none
      cases none
    · exact isolated.held key phase running
  | wrote artifactKey body request written before =>
    refine advanced artifactKey _ (.downloading request (some body)) request _ before rfl ?_ ?_ running
    · intro same wrote
      cases wrote
      exact Dict.get_set_self _ _ _
    · exact fun path temp final => Dict.get_set_other _ _ _ _ temp
  | returned artifactKey request written before =>
    refine advanced artifactKey _ (.returned request written) request _ before rfl ?_
      (fun _ _ _ => rfl) running
    intro body stands
    cases written with
    | none => exact absurd stands (separate request before body)
    | some wrote =>
      have own := isolated.held artifactKey _ before wrote rfl
      cases own.symm.trans stands
      rfl
  | replaced artifactKey request written body before stands =>
    refine advanced artifactKey _ (.replaced request written) request _ before rfl ?_ ?_ running
    · exact ⟨body, isolated.held artifactKey _ before body stands, Dict.get_set_self _ _ _⟩
    · intro path temp final
      rw [Dict.get_set_other _ _ _ _ final, Dict.get_erase_other _ _ _ temp]
  | raised artifactKey error request written before =>
    rcases before with downloading | returned
    · exact advanced artifactKey _ (.raised request error) request _ downloading rfl trivial
        (fun _ _ _ => rfl) running
    · exact advanced artifactKey _ (.raised request error) request _ returned rfl trivial
        (fun _ _ _ => rfl) running
  | markedDone now artifactKey request written before =>
    have own : ThreadPhase.Held state.files (.done request written) :=
      isolated.held artifactKey (.replaced request written) before
    exact advanced artifactKey _ (.done request written) request _ before rfl own (fun _ _ _ => rfl)
      running
  | markedFailed now artifactKey request error before =>
    exact advanced artifactKey _ (.failed request) request _ before rfl trivial (fun _ _ _ => rfl)
      running
  | unlinked artifactKey request before =>
    exact advanced artifactKey _ .unlinked request _ before rfl trivial
      (fun path temp final => Dict.get_erase_other _ _ _ temp) running

/-- A separate step keeps artifacts isolated. That the step is separate is needed in one place only,
for an entry that is opened: its files must not be those of another entry. -/
theorem step_isolated (host : Host) (state : Downloads) (event : DownloadEvent)
    (separate : Separate host state event) (isolated : state.Isolated) :
    (step host state event).Isolated := by
  have consistent := isolated.consistent
  constructor
  case consistent => exact step_consistent host state event consistent
  case held => exact step_held host state event isolated separate
  case carried =>
    intro key next phase request stored running works
    rcases step_requests host state event key phase request running works with
      ⟨earlier, before, carries⟩ | ⟨entry, present, rfl⟩
    · obtain ⟨entry, present⟩ : ∃ entry, state.store.get key = some entry := by
        refine Option.ne_none_iff_exists'.mp fun absent => ?_
        rw [(consistent.threaded key).mpr absent] at before
        cases before
      obtain ⟨after, kept, follows⟩ := step_follows host state event consistent key entry present
      cases kept.symm.trans stored
      rw [follows.request]
      exact isolated.carried key entry earlier request present before carries
    · obtain ⟨after, kept, follows⟩ := step_follows host state event consistent key entry present
      cases kept.symm.trans stored
      exact follows.request.symm
  case apart =>
    intro key other entry second stored otherStored different
    rcases step_entries host state event consistent key entry stored with
      ⟨earlier, before, same⟩ | ⟨now, call, rfl, absent, names, same⟩
    · rcases step_entries host state event consistent other second otherStored with
        ⟨otherEarlier, otherBefore, otherSame⟩ | ⟨now, call, rfl, absent, names, otherSame⟩
      · rw [same, otherSame]
        exact isolated.apart key other earlier otherEarlier before otherBefore different
      · rw [same, otherSame]
        exact (separate absent key earlier before).symm
    · rcases step_entries host state (.acquire now call) consistent other second otherStored with
        ⟨otherEarlier, otherBefore, otherSame⟩ | ⟨again, acquired, twice, _, otherNames, _⟩
      · rw [same, otherSame]
        exact separate absent other otherEarlier otherBefore
      · cases twice
        exact absurd (names.symm.trans otherNames) different

/-- While artifacts are isolated, a finished one holds its own bytes. The entry is finished only if
its thread is, and the thread has left the bytes of its own request at the destination. -/
theorem Isolated.holds_own_bytes {state : Downloads} (isolated : state.Isolated) :
    state.HoldsOwnBytes := by
  intro key entry stored finished
  obtain ⟨phase, running⟩ : ∃ phase, state.threads.get key = some phase := by
    refine Option.ne_none_iff_exists'.mp fun absent => ?_
    rw [(isolated.consistent.threaded key).mp absent] at stored
    cases stored
  have recorded := (isolated.consistent.recorded key entry phase stored running).symm.trans finished
  have held := isolated.held key phase running
  cases phase with
  | done request written =>
    obtain ⟨body, rfl, stands⟩ := held
    have same := isolated.carried key entry _ request stored running rfl
    rw [same] at stands
    exact ⟨request, body, running, by rw [same]; rfl, by rw [same]; rfl, stands⟩
  | created => cases recorded
  | downloading request written => cases recorded
  | returned request written => cases recorded
  | replaced request written => cases recorded
  | raised request error => cases recorded
  | failed request => cases recorded
  | unlinked => cases recorded

/-- In every run whose steps are separate, finished artifacts hold their own bytes in every state.

Proof: a separate step keeps artifacts isolated, so every state of the run is isolated; of a
finished artifact the thread has moved its own file to the destination, and no other one has touched
it since. -/
theorem separate_runs_hold_own_bytes (host : Host) (files : FileTree)
    (events : List DownloadEvent)
    (separate : Runs.Guarded (step host) (Separate host) (initial files) events) :
    (after host files events).HoldsOwnBytes := by
  refine (Runs.guarded_invariant (step host) (Separate host) Isolated
    (fun state event => step_isolated host state event) (initial files) ?_ events
    separate).holds_own_bytes
  exact ⟨after_consistent host files [], fun _ _ _ _ stored => by simp [initial] at stored,
    fun _ _ _ _ stored => by simp [initial] at stored,
    fun _ _ running => by simp [initial] at running⟩

section Sample

/-- An acquire of a file by one session under its URL, as `uboot_download_url` makes it. -/
def sampleAcquire (session url file : String) : AcquireCall where
  artifactKey := url.toList
  sessionId := session.toList
  url := url.toList
  relativePath := "install/".toList ++ file.toList
  finalPath := ["srv".toList, "install".toList, file.toList]
  pageUrl := none
  headers := none

/-- The steps of a thread that downloads some bytes. -/
def sampleDownload (key : String) (body : Bytes) : List DownloadEvent :=
  [.takeRequest key.toList, .writeTemp key.toList body, .downloaderReturns key.toList,
    .replaceTemp key.toList, .markDone 1 key.toList]

/-- Two downloads to different files, step by step side by side. Their steps are mixed on purpose:
each thread writes while the other one is between its own steps. -/
def sideBySide : List DownloadEvent :=
  [.acquire 0 (sampleAcquire "cam" "http://a/fw" "fw.bin"),
    .acquire 0 (sampleAcquire "dome" "http://b/fw" "new.bin"),
    .takeRequest "http://a/fw".toList, .takeRequest "http://b/fw".toList,
    .writeTemp "http://b/fw".toList [2, 3], .writeTemp "http://a/fw".toList [1],
    .downloaderReturns "http://a/fw".toList, .downloaderReturns "http://b/fw".toList,
    .replaceTemp "http://b/fw".toList, .replaceTemp "http://a/fw".toList,
    .markDone 1 "http://a/fw".toList, .markDone 2 "http://b/fw".toList]

/-- The first download is in the store when the second is acquired; the two share no file. The two
have different names for their final files, and the temporary ones are named after these and the
keys. -/
theorem side_by_side_apart : Separate sampleHost
    (step sampleHost (initial Dict.empty) (.acquire 0 (sampleAcquire "cam" "http://a/fw" "fw.bin")))
    (.acquire 0 (sampleAcquire "dome" "http://b/fw" "new.bin")) := by
  intro _ key entry stored
  have single : (step sampleHost (initial Dict.empty)
      (.acquire 0 (sampleAcquire "cam" "http://a/fw" "fw.bin"))).store =
        Dict.empty.set "http://a/fw".toList
          ((sampleAcquire "cam" "http://a/fw" "fw.bin").entry sampleHost 0) := rfl
  rw [single] at stored
  by_cases same : key = "http://a/fw".toList
  · rw [same, Dict.get_set_self] at stored
    cases stored
    exact ⟨by decide, by decide, by decide, by decide⟩
  · rw [Dict.get_set_other _ _ _ _ same, Dict.get_empty] at stored
    cases stored

/-- Both downloads are done and their destinations hold their own bytes. -/
theorem separate_runs_sample :
    let state := after sampleHost Dict.empty sideBySide
    state.HoldsOwnBytes ∧
      (state.store.get "http://a/fw".toList).map (·.snapshot.state) = some .done ∧
      (state.store.get "http://b/fw".toList).map (·.snapshot.state) = some .done := by
  refine ⟨separate_runs_hold_own_bytes sampleHost Dict.empty sideBySide ?_, by decide +kernel,
    by decide +kernel⟩
  refine ⟨fun _ key entry stored => by simp [initial] at stored, side_by_side_apart, trivial, trivial,
    trivial, trivial, ?_, ?_, trivial, trivial, trivial, trivial, trivial⟩
  · intro request running
    cases running
  · intro request running
    cases running

/-- Two URLs with one destination: the second download replaces the file of the first, which
stays done. -/
theorem shared_destination_replaced :
    let events := [.acquire 0 (sampleAcquire "cam" "http://a/fw" "fw.bin"),
        .acquire 0 (sampleAcquire "dome" "http://b/fw" "fw.bin")] ++
      sampleDownload "http://a/fw" [1] ++ sampleDownload "http://b/fw" [2]
    let state := after sampleHost Dict.empty events
    (state.store.get "http://a/fw".toList).map (·.snapshot.state) = some .done ∧
      state.files.get (sampleAcquire "cam" "http://a/fw" "fw.bin").finalPath = some (.file [2]) ∧
      ¬state.HoldsOwnBytes := by
  intro events state
  have finished : (state.store.get "http://a/fw".toList).map
      (fun entry => (entry.snapshot.state, entry.finalPath)) =
        some (.done, (sampleAcquire "cam" "http://a/fw" "fw.bin").finalPath) := by decide +kernel
  have replaced : state.files.get (sampleAcquire "cam" "http://a/fw" "fw.bin").finalPath =
      some (.file [2]) := by decide +kernel
  have own : state.threads.get "http://a/fw".toList =
      some (.done ((sampleAcquire "cam" "http://a/fw" "fw.bin").request sampleHost) (some [1])) := by
    decide +kernel
  refine ⟨by decide +kernel, replaced, fun holds => ?_⟩
  obtain ⟨entry, stored, fields⟩ := Option.map_eq_some_iff.mp finished
  obtain ⟨done, final⟩ := Prod.mk.inj fields
  obtain ⟨request, body, running, -, -, stands⟩ := holds _ entry stored done
  cases own.symm.trans running
  rw [final, replaced] at stands
  cases stands

end Sample

end Downloads

end UbootTftp
