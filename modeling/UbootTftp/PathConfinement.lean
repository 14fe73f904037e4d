import UbootTftp.DownloadLifeCycle
import UbootTftp.StaticTargets

/-!
# Names stay below the root

Static read requests and the four file operations of a session handle share one guard, and
uploads have another. On a tree without symbolic links both let pass only names that lead into
the root: the first what lies strictly below it, the second also the root itself. What passes
the guard of the first is accessed where the name leads, and nowhere else.
-/

namespace UbootTftp

open LexicalPaths

universe u
variable {κ : Type u}

/-- Every file operation of a session handle refuses the name and leaves the state. The existence
test is the only one that answers instead of raising. -/
structure HandleState.Refuses (host : Host) (state : HandleState κ) (name : Text) : Prop where
  write : ∀ body, state.writeFile host name body = (state, .error (.unsafeDestination name))
  exist : state.fileExists host name = .ok false
  read : state.readFile host name = .error (.unsafeFilename name)
  acquire : ∀ now artifactKey url pageUrl headers,
    state.acquireDownload host now artifactKey url name pageUrl headers =
      (state, .error (.unsafeDestination name))

/-- No file operation of a session handle refuses the name, and each accesses one path: a
write changes no other, the reads look at no other, and an acquired artifact has it as its
final path, in the answer and in the store. -/
structure HandleState.Accesses (host : Host) (state : HandleState κ) (name : Text)
    (target : Path) : Prop where
  write : ∀ body, (state.writeFile host name body).2 ≠ .error (.unsafeDestination name) ∧
    (∀ path, (state.writeFile host name body).2 = .ok path → path = target) ∧
    ∀ other, other ≠ target →
      (state.writeFile host name body).1.files.get other = state.files.get other
  exist : state.fileExists host name =
    state.files.pathExists (host.resolve host.staticRoot) target
  read : state.readFile host name =
    (state.files.pathExists (host.resolve host.staticRoot) target).bind fun _ =>
      state.files.readBytes target (.missingFile name)
  acquire : ∀ now artifactKey url pageUrl headers,
    (state.acquireDownload host now artifactKey url name pageUrl headers).2 ≠
        .error (.unsafeDestination name) ∧
      (state.acquireDownload host now artifactKey url name pageUrl headers).1.files = state.files ∧
      ∀ artifact, (state.acquireDownload host now artifactKey url name pageUrl headers).2 =
          .ok artifact →
        artifact.finalPath = target ∧ ∀ entry,
          (state.acquireDownload host now artifactKey url name pageUrl headers).1.downloads.get
            artifactKey = some entry → entry.finalPath = target

section Acquiring

/-- An acquired artifact has the final path of the call, in the answer and in the store. A repeated
acquire has to give the same path, or it is refused. -/
theorem acquire_final_path (store : DownloadJobStore) (host : Host) (now : Nat) (call : AcquireCall)
    (artifact : DownloadArtifact) (acquired : (store.acquire host now call).2 = .ok artifact) :
    artifact.finalPath = call.finalPath ∧ ∀ entry,
      (store.acquire host now call).1.get call.artifactKey = some entry →
        entry.finalPath = call.finalPath := by
  cases stored : store.get call.artifactKey with
  | none =>
    rw [DownloadJobStore.acquire_absent store host now call stored] at acquired ⊢
    cases acquired
    refine ⟨rfl, fun entry found => ?_⟩
    cases (Dict.get_set_self _ _ _).symm.trans found
    rfl
  | some first =>
    by_cases conflicts : first.Conflicts call
    · obtain ⟨-, raised, refused, -⟩ :=
        DownloadJobStore.acquire_conflict store host now call first stored conflicts
      cases refused.symm.trans acquired
    · have agrees : first.finalPath = call.finalPath := by
        by_contra differs
        exact conflicts (by simp [ArtifactEntry.Conflicts, differs])
      rw [DownloadJobStore.acquire_matching store host now call first stored conflicts]
        at acquired ⊢
      cases acquired
      refine ⟨agrees, fun entry found => ?_⟩
      cases (Dict.get_set_self _ _ _).symm.trans found
      exact agrees

/-- An acquire is never refused as an unsafe destination. -/
theorem acquire_error (store : DownloadJobStore) (host : Host) (now : Nat) (call : AcquireCall)
    (raised : Raised) (refused : (store.acquire host now call).2 = .error raised) :
    ∃ conflict, raised = .artifactConflict call.artifactKey conflict := by
  simp only [DownloadJobStore.acquire] at refused
  split at refused
  · cases refused
  · split at refused
    · cases refused
      exact ⟨_, rfl⟩
    · cases refused

end Acquiring

section Writing

/-- What stands in the way of a directory is a file or below one, or its path is too long; the
name is not called unsafe. -/
theorem make_parents_error (files : FileTree) (path : Path) (raised : Raised)
    (refused : files.makeParents path = .error raised) :
    ∃ place, raised = .fileExists place ∨ raised = .notADirectory place ∨
      raised = .fileNameTooLong place := by
  unfold FileTree.makeParents at refused
  split at refused
  · cases refused
    exact ⟨path, .inr (.inr rfl)⟩
  · split at refused
    · rename_i ancestor _
      cases refused
      refine ⟨ancestor, ?_⟩
      by_cases parent : ancestor = path.dropLast
      · exact .inl (if_pos parent)
      · exact .inr (.inl (if_neg parent))
    · split at refused
      · cases refused
        exact ⟨path, .inr (.inr rfl)⟩
      · cases refused

/-- A write changes the one path, if it is possible at all. -/
theorem write_bytes_cases (files : FileTree) (path : Path) (body : Bytes) :
    files.writeBytes path body = .error (.isADirectory path) ∨
      files.writeBytes path body = .ok (files.set path (.file body)) := by
  by_cases directory : files.isDirectory path = true
  · exact .inl (if_pos directory)
  · exact .inr (if_neg directory)

end Writing

section Handles

variable (host : Host) (state : HandleState κ) (name : Text)

/-- A name whose path the guard refuses is refused by every operation, before anything is looked
up. -/
theorem HandleState.refuses_unresolved
    (resolved : resolveStaticPath host ('/' :: name) = .ok none) : state.Refuses host name where
  write body := by simp only [HandleState.writeFile, resolved]
  exist := by simp only [HandleState.fileExists, resolved]
  read := by simp only [HandleState.readFile, resolved]
  acquire now artifactKey url pageUrl headers := by
    simp only [HandleState.acquireDownload, resolved]

/-- Every operation accesses the path that the guard lets pass. The existence test, the read, the
write and the download are taken one after the other. -/
theorem HandleState.accesses_resolved (target : Path)
    (resolved : resolveStaticPath host ('/' :: name) = .ok (some target)) :
    state.Accesses host name target where
  write body := by
    simp only [HandleState.writeFile, resolved]
    cases made : state.files.makeParents target with
    | error raised =>
      obtain ⟨ancestor, shape⟩ := make_parents_error state.files target raised made
      refine ⟨?_, ?_, fun _ _ => rfl⟩
      · rintro same
        cases same
        rcases shape with shape | shape | shape <;> cases shape
      · rintro path written
        cases written
    | ok done =>
      rcases write_bytes_cases state.files target body with failed | written
      · rw [failed]
        exact ⟨fun same => (by cases same), fun path written => (by cases written),
          fun _ _ => rfl⟩
      · rw [written]
        refine ⟨fun same => (by cases same), fun path written => (by cases written; rfl), ?_⟩
        exact fun other different => Dict.get_set_other _ _ _ _ different
  exist := by simp only [HandleState.fileExists, resolved]
  read := by
    simp only [HandleState.readFile, resolved]
    cases state.files.pathExists (host.resolve host.staticRoot) target with
    | error raised => rfl
    | ok there => rfl
  acquire now artifactKey url pageUrl headers := by
    simp only [HandleState.acquireDownload, resolved]
    generalize call : (AcquireCall.mk artifactKey state.session.clientId.text url _ target pageUrl
      headers) = acquiring
    have key : acquiring.artifactKey = artifactKey := by rw [← call]
    have final : acquiring.finalPath = target := by rw [← call]
    cases outcome : (state.downloads.acquire host now acquiring).2 with
    | error raised =>
      obtain ⟨conflict, rfl⟩ := acquire_error _ _ _ _ _ outcome
      exact ⟨fun same => (by cases same), rfl, fun artifact acquired => (by cases acquired)⟩
    | ok acquired =>
      obtain ⟨answered, kept⟩ := acquire_final_path _ _ _ _ _ outcome
      refine ⟨fun same => (by cases same), rfl, ?_⟩
      rintro artifact same
      cases same
      exact ⟨answered.trans final, fun entry found => (kept entry (key ▸ found)).trans final⟩

end Handles

section Confinement

variable (host : Host) (lexical : host.resolve = normalizedParts)

include lexical

/-- The slash that a handle puts before a name changes nothing. -/
theorem resolve_handle_name (name : Text) (clean : '\x00' ∉ name) :
    resolveStaticPath host ('/' :: name) =
      .ok (if Below (normalizedParts host.staticRoot) (lexicalTarget host.staticRoot name) then
        some (lexicalTarget host.staticRoot name) else none) := by
  have slashed : lexicalTarget host.staticRoot ('/' :: name) =
      lexicalTarget host.staticRoot name := by
    rw [lexical_target_segments, lexical_target_segments, segments_front]
  rw [resolve_static_lexical host lexical ('/' :: name) (by simp [clean]), slashed]

/-- A bare read request is answered with what is found where the decoded filename leads to. The path
is decoded before it is guarded, and whether it stays below the root is decided lexically. A name
that is too long for the file system makes the request raise. -/
theorem fetch_static (provider : Provider κ) (same : provider.host = host) (world : World κ)
    (now : Nat) (schedule : Schedule) (request : ContentRequest) (parsed : ParsedPath)
    (bare : Bare request.filename parsed) (clean : '\x00' ∉ unquote request.filename) :
    world.fetch provider now schedule request = ⟨world, none,
      if Below (normalizedParts host.staticRoot)
          (lexicalTarget host.staticRoot (unquote request.filename)) then
        (world.files.fileContents (normalizedParts host.staticRoot)
          (lexicalTarget host.staticRoot (unquote request.filename))).bind fun found =>
            found.elim (.error (.missingStaticFile parsed.path)) fun body => .ok (.fromBytes body)
      else .error (.missingStaticFile parsed.path)⟩ := by
  have free : '\x00' ∉ parsed.path := fun member =>
    clean ((bare_mem bare '\x00' (by decide)).mp member)
  have resolved := resolve_static_lexical host lexical parsed.path free
  rw [bare_target bare] at resolved
  by_cases below : Below (normalizedParts host.staticRoot)
      (lexicalTarget host.staticRoot (unquote request.filename))
  · rw [if_pos below] at resolved ⊢
    simp only [World.fetch, bare.1, bare.2, World.staticResult, same, resolved, lexical]
    rcases world.files.fileContents (normalizedParts host.staticRoot)
      (lexicalTarget host.staticRoot (unquote request.filename)) with raised | found | body
    · rfl
    · rfl
    · rfl
  · rw [if_neg below] at resolved ⊢
    simp only [World.fetch, bare.1, bare.2, World.staticResult, same, resolved]

end Confinement

section Guards

variable (host : Host) (lexical : host.resolve = normalizedParts)

include lexical

/-- A name that leads to the root or out of it is refused by a handle, and any other is accessed
where it leads. A name with a NUL is left out: the guard raises for it, which is neither. -/
theorem handle_confined (state : HandleState κ) (name : Text) (clean : '\x00' ∉ name) :
    let root := normalizedParts host.staticRoot
    let target := lexicalTarget host.staticRoot name
    (state.Refuses host name ↔ target = root ∨ ¬root <+: target) ∧
      (¬(target = root ∨ ¬root <+: target) → Below root target ∧
        state.Accesses host name target) := by
  intro root target
  have resolved := resolve_handle_name host lexical name clean
  by_cases below : Below root target
  · rw [if_pos below] at resolved
    have accesses := state.accesses_resolved host name target resolved
    have inside := mt (not_below_iff root target).mpr (not_not.mpr below)
    refine ⟨⟨fun refuses => ?_, fun outside => absurd outside inside⟩, fun _ => ⟨below, accesses⟩⟩
    exact absurd (by rw [refuses.write]) (accesses.write []).1
  · rw [if_neg below] at resolved
    have outside := (not_below_iff root target).mp below
    exact ⟨⟨fun _ => outside, fun _ => state.refuses_unresolved host name resolved⟩,
      fun inside => absurd outside inside⟩

/-- A read request is refused where its decoded filename leads to the root or out of it. A request
for the root itself counts as one that leads out, as nothing strictly below the root is meant. -/
theorem read_refused_iff (filename : Text) (parsed : ParsedPath) (bare : Bare filename parsed)
    (clean : '\x00' ∉ unquote filename) :
    let root := normalizedParts host.staticRoot
    let target := lexicalTarget host.staticRoot (unquote filename)
    resolveStaticPath host parsed.path = .ok none ↔ target = root ∨ ¬root <+: target := by
  intro root target
  have free : '\x00' ∉ parsed.path := fun member =>
    clean ((bare_mem bare '\x00' (by decide)).mp member)
  rw [resolve_static_lexical host lexical parsed.path free, bare_target bare, ← not_below_iff]
  by_cases below : Below root target
  · simp [root, target, below]
  · simp [root, target, below]

end Guards

/-- A write request opens no path outside the root, and changes none. The path that is handed over
is arbitrary here; it need not be one that the library joins. -/
theorem write_confined (server : DynamicContentServer κ)
    (lexical : server.provider.host.resolve = normalizedParts) (world : World κ) (path : Text)
    (peer : Text × Nat) :
    let root := normalizedParts server.provider.host.staticRoot
    (∀ target position closed,
      (server.openUpload world path peer).2 = .ok (some (.disk target position closed)) →
        root <+: target) ∧
      ∀ other, ¬root <+: other →
        (server.openUpload world path peer).1.files.get other = world.files.get other := by
  intro root
  have opened := world.open_upload_cases server path peer
  generalize server.openUpload world path peer = outcome at opened ⊢
  cases opened
  case disk parsed target bare resolved made file =>
    obtain ⟨-, -, below, rfl⟩ := (resolve_disk_ok _ _ _).mp resolved
    rw [lexical, List.isPrefixOf_iff_prefix] at below
    refine ⟨fun other position closed given => ?_, fun other outside => ?_⟩
    · cases given
      exact below
    · exact Dict.get_set_other _ _ _ _ fun same => outside (same ▸ below)
  -- No other outcome changes a file.
  all_goals exact ⟨fun target position closed given => (by cases given), fun _ _ => rfl⟩

/-- On a tree without symbolic links, a name that a handler passes and that holds no NUL is refused
by the operations of its handle exactly when it leads to the root or out of it, and otherwise they
access the path strictly below the root that it leads to. A bare read request whose decoded filename
holds no NUL is answered with what is found where the decoded filename leads to, if that is strictly
below the root, and with nothing else. The path that a write request opens lies at or below the
root, and no write request changes any other path.

Nothing is assumed of the files, so the law also covers names that nothing stands under and paths
that are too long to be looked up. -/
theorem paths_confined (server : DynamicContentServer κ)
    (lexical : server.provider.host.resolve = normalizedParts) :
    let host := server.provider.host
    let root := normalizedParts host.staticRoot
    (∀ (state : HandleState κ) (name : Text), '\x00' ∉ name →
      let target := lexicalTarget host.staticRoot name
      (state.Refuses host name ↔ target = root ∨ ¬root <+: target) ∧
        (¬(target = root ∨ ¬root <+: target) → Below root target ∧
          state.Accesses host name target)) ∧
    (∀ (world : World κ) (now : Nat) (schedule : Schedule) (request : ContentRequest)
      (parsed : ParsedPath), parseRequestPath request.filename = .ok parsed →
      parsed.clientId = none → '\x00' ∉ unquote request.filename →
      let target := lexicalTarget host.staticRoot (unquote request.filename)
      (resolveStaticPath host parsed.path = .ok none ↔ target = root ∨ ¬root <+: target) ∧
        world.fetch server.provider now schedule request = ⟨world, none,
          if Below root target then
            (world.files.fileContents root target).bind fun found =>
              found.elim (.error (.missingStaticFile parsed.path)) fun body => .ok (.fromBytes body)
          else .error (.missingStaticFile parsed.path)⟩) ∧
    ∀ (world : World κ) (path : Text) (peer : Text × Nat),
      (∀ target position closed,
        (server.openUpload world path peer).2 = .ok (some (.disk target position closed)) →
          root <+: target) ∧
        ∀ other, ¬root <+: other →
          (server.openUpload world path peer).1.files.get other = world.files.get other := by
  intro host root
  refine ⟨handle_confined host lexical, ?_, write_confined server lexical⟩
  intro world now schedule request parsed parse unnamed clean target
  have bare : Bare request.filename parsed := ⟨parse, unnamed⟩
  exact ⟨read_refused_iff host lexical request.filename parsed bare clean,
    fetch_static host lexical server.provider rfl world now schedule request parsed bare clean⟩

/-- The law applies to the sample server: a name that climbs out is refused and one that comes
back is accessed where it leads, an escape that climbs out is answered with a miss, and an
upload to the root's parent opens nothing outside. -/
theorem paths_confined_sample :
    let server := sampleServer sampleEntry sampleCode
    let state : HandleState Unit := ⟨.create sampleClient, Dict.empty, Dict.empty⟩
    let world : World Unit := .initial (Dict.ofList [(["etc".toList], .file [])])
    state.Refuses server.provider.host "../etc".toList ∧
      state.Accesses server.provider.host "a/../b".toList
        (lexicalTarget ["srv".toList] "a/../b".toList) ∧
      (world.fetch server.provider 0 [] (sampleRequest "..%2Fetc")).result =
        .error (.missingStaticFile "/../etc".toList) ∧
      (server.openUpload world "/etc".toList ("10.0.0.2".toList, 1069)).1.files.get
        ["etc".toList] = some (.file []) := by
  obtain ⟨handles, reads, writes⟩ := paths_confined (sampleServer sampleEntry sampleCode) rfl
  refine ⟨?_, ?_, ?_, ?_⟩
  · exact (handles _ _ (by decide)).1.mpr (by decide +kernel)
  · exact ((handles _ _ (by decide)).2 (by decide +kernel)).2
  · rw [(reads _ _ _ _ ⟨"..%2Fetc".toList, none, "/../etc".toList, ["../etc".toList], Dict.empty⟩
      (by decide +kernel) rfl (by decide +kernel)).2]
    decide +kernel
  · exact (writes _ _ _).2 _ (by decide +kernel)

end UbootTftp
