import UbootTftp.LoopConversations
import UbootTftp.PreflightGate

/-!
# A client that cannot report its shell

What the probe of the preflight sets, the client has to send back. A client that does not know the
variable sends its expansion, and the server takes that for a shell that is missing. Such a
client makes two requests; the second ends its session, and no handler is made for it. The
simulated camera is one.
-/

namespace UbootTftp

namespace TestClient

universe u v
variable {κ : Type u} {δ : Type v}

/-- After any script, what a client in a state reports for the shell is not the true report, and can
be carried by a path. -/
def Shellless (flow : FlowClient δ) (first : δ) : Prop :=
  ∀ script, flow.reported (flow.update script first) hushKey ≠ "true".toList ∧
    Plain (flow.reported (flow.update script first) hushKey)

/-- What a client without a shell does next, and the session that the server has for it: it has not
asked yet, or it has been asked for its shell, or it has stopped. -/
inductive Unserved (server : DynamicContentServer κ) (flow : FlowClient δ) (client : ClientId)
    (opening : ContentRequest) (parsed : ParsedPath) (first : δ) (world : World κ) :
    Standing δ → Prop
  | unasked : Unserved server flow client opening parsed first world
      (.asking 1 first opening.filename)
  | probed (draw : Nat) (script : Text) (stored : world.sessions.get client = some
        (openedSession server.provider opening parsed client (server.provider.host.token draw))) :
      Unserved server flow client opening parsed first world
        (.asking 2 (flow.update script first)
          (continuePath client (server.provider.host.token draw) none [hushKey]
            (flow.reported (flow.update script first))))
  | stopped (unhandled : ∀ session, world.sessions.get client = some session →
        session.handler = none)
      (cause : flow.rounds ≤ 1 ∨
        (∃ text, readScript (server.provider.host.compile text) = none) ∨
        world.sessions.get client = none) :
      Unserved server flow client opening parsed first world .stopped

/-- The script about a missing shell has no transfers. -/
theorem failure_script_read (isWord : Char → Bool) (solid : isWord ' ' = false) :
    parseFlowActions isWord (ensureNewline hushFailureScript) = some ⟨[], []⟩ :=
  parse_composed isWord solid (fun _ => none) [] (by simp) (by simp) _ (by decide +kernel)
    (by simp) (by simp)

section Steps

variable {server : DynamicContentServer κ} {flow : FlowClient δ} {client : ClientId}
  {opening : ContentRequest} {parsed : ParsedPath} {first : δ} {cmdtftp cmdtftpput rambase : Text}
  (probing : Probing server flow client opening parsed cmdtftp cmdtftpput rambase)
  (shellless : Shellless flow first)
include probing

/-- The first request leaves a session that asks for the shell. It is a session at its preflight,
without a handler, whose script asks for a report that this client does not give. -/
theorem Probing.step_unserved (world : World κ) (sound : world.Sound server.provider.host)
    (event : Event) (next : Standing δ)
    (acts : flow.Acts server world (.asking 1 first opening.filename) event next) :
    Unserved server flow client opening parsed first (server.step world event) next := by
  obtain ⟨text, -, stored, goes⟩ := probing.first_answer world sound first event next acts
  have unhandled : ∀ session, (server.step world event).sessions.get client = some session →
      session.handler = none := by
    intro session found
    cases stored.symm.trans found
    rfl
  rcases goes with rfl | ⟨rfl, spent | failed⟩
  · exact .probed world.tokensDrawn _ stored
  · exact .stopped unhandled (.inl spent)
  · exact .stopped unhandled (.inr (.inl ⟨_, failed⟩))

include shellless in
/-- The second request ends the session. Its report of the shell is not the one that is asked for,
so the server answers with the script of the failure and drops the session, and the client finds
nothing in it to go on with. -/
theorem Probing.step_failed (world : World κ) (sound : world.Sound server.provider.host)
    (draw : Nat) (script : Text) (stored : world.sessions.get client = some
      (openedSession server.provider opening parsed client (server.provider.host.token draw)))
    (event : Event) (next : Standing δ)
    (acts : flow.Acts server world (.asking 2 (flow.update script first)
      (continuePath client (server.provider.host.token draw) none [hushKey]
        (flow.reported (flow.update script first)))) event next) :
    Unserved server flow client opening parsed first (server.step world event) next := by
  obtain ⟨now, schedule, rfl, stands⟩ := asking_acts server flow world 2 _ _ event next acts
  obtain ⟨unequal, plain⟩ := shellless script
  obtain ⟨again, accepts, -, reports, -⟩ := probing.accepted world _ stored draw rfl none
    (by decide) [hushKey] (by decide +kernel) (by decide +kernel) (flow.update script first)
    (List.forall_mem_singleton.mpr plain)
  have unreported : ((openedSession server.provider opening parsed client
      (server.provider.host.token draw) : ClientSession κ).continued again).env.get hushKey ≠
        some "true".toList := by
    rw [reports.env, if_pos (by simp), ne_eq, Option.some.injEq]
    exact unequal
  obtain ⟨-, removed, answer⟩ := (hush_failed_iff world server.provider sound now schedule
    ⟨_, flow.peer⟩ again client _ accepts rfl).mpr unreported
  have gone : (server.step world (.readRequest ⟨continuePath client
      (server.provider.host.token draw) none [hushKey]
        (flow.reported (flow.update script first)), flow.peer⟩ now schedule)).sessions.get client =
          none := by
    rw [DynamicContentServer.step_read_request]
    exact removed
  have halts : next = .stopped := by
    rcases stands with ⟨content, given, rfl⟩ | ⟨-, rfl⟩
    · cases answer.symm.trans given
      rcases probing.received 2 (flow.update script first) (ensureNewline hushFailureScript) with
        followed | ⟨-, stopped⟩
      · have halted : flow.follow 2 (flow.update script first) (ensureNewline hushFailureScript) =
            .stopped := by
          rw [FlowClient.follow, failure_script_read flow.isWord probing.solid]
          rfl
        exact followed.trans halted
      · exact stopped
    · rfl
  rw [halts]
  refine .stopped (fun session found => ?_) (.inr (.inr gone))
  cases gone.symm.trans found

include shellless in
/-- Over a run of the server and the client, whatever others do in between.

Proof: by induction on the run. A client without a shell makes two requests of its own, so there are
only three kinds of states. -/
theorem Probing.unserved (files : FileTree) (before : List Event) (world : World κ)
    (standing : Standing δ) (asks : 0 < flow.rounds)
    (run : Relation.ReflTransGen (Together flow server client)
      (server.after files before, flow.begin first opening.filename) (world, standing)) :
    world.Sound server.provider.host ∧
      Unserved server flow client opening parsed first world standing := by
  apply joint_invariant server flow client first opening.filename files before _ _ _ _ world standing
    run
  · rw [FlowClient.begin, if_pos asks]
    exact .unasked
  · intro world standing event sound foreign unserved
    have same := foreign_session server client world event sound foreign
    cases unserved with
    | unasked => exact .unasked
    | probed draw script stored => exact .probed draw script (same.trans stored)
    | stopped unhandled cause =>
      refine .stopped (fun session found => unhandled session (same.symm.trans found)) ?_
      rw [same]
      exact cause
  · intro world standing next event sound acts unserved
    cases unserved with
    | unasked => exact probing.step_unserved world sound event next acts
    | probed draw script stored =>
      exact probing.step_failed shellless world sound draw script stored event next acts
    | stopped => cases acts

end Steps

section Simulated

variable (config : ClientConfig)

/-- The name that `run_client` asks for first. -/
def ClientConfig.firstRemote : Text :=
  "id=".toList ++ config.clientId ++ normalizePath config.path

/-- The environment of the simulated camera never defines the shell. -/
theorem simulated_unreported (isWord : Char → Bool) (peer : Text × Nat) (script : Text) :
    (config.flowClient isWord peer).reported
      (config.updateEnvFromScript script config.initialEnv) hushKey = expansion hushKey := by
  have unknown : (config.updateEnvFromScript script config.initialEnv).get hushKey = none := by
    have initially : config.initialEnv.get hushKey = none := rfl
    unfold ClientConfig.updateEnvFromScript
    split
    · exact (Dict.get_set_other _ _ _ _ (by decide)).trans initially
    · exact initially
  simp only [ClientConfig.flowClient, reportFrom, unknown, Option.getD_none]

/-- The simulated camera has no shell. -/
theorem simulated_shellless (isWord : Char → Bool) (peer : Text × Nat) :
    Shellless (config.flowClient isWord peer) config.initialEnv := by
  intro script
  have reported := simulated_unreported config isWord peer script
  have same : (config.flowClient isWord peer).reported
      ((config.flowClient isWord peer).update script config.initialEnv) hushKey =
        expansion hushKey := reported
  rw [same]
  decide +kernel

/-- The simulated camera makes two requests at most. The second sends the expansion of the shell's
variable back as it is. No handler is made for the camera, and once the camera has stopped its
session is gone, unless it was allowed one request only or could not read an image. -/
structure Unattended (server : DynamicContentServer κ) (client : ClientId) (world : World κ)
    (standing : Standing (Dict Text Text)) : Prop where
  asks : standing = .asking 1 config.initialEnv config.firstRemote ∨
    (∃ draw env, standing = .asking 2 env
      (continuePath client (server.provider.host.token draw) none [hushKey] expansion)) ∨
    standing = .stopped
  unhandled : standing ≠ .asking 1 config.initialEnv config.firstRemote →
    ∀ session, world.sessions.get client = some session → session.handler = none
  ends : standing = .stopped → config.rounds = 1 ∨
    (∃ text, readScript (server.provider.host.compile text) = none) ∨
    world.sessions.get client = none

/-- A simulated camera with the settings that the command line gives it. -/
def sampleCamera : ClientConfig :=
  ⟨"10.0.0.1".toList, "cam".toList, [], 20, 0x41⟩

/-- The name that the sample camera asks for first. -/
def sampleOpening : ContentRequest := ⟨sampleCamera.firstRemote, ("10.0.0.2".toList, 1069)⟩

/-- The sample server and the sample camera meet what is asked of them. The camera has no variables,
so it reports an empty value for the shell. -/
theorem sample_probing : Probing imagingServer
    (sampleCamera.flowClient isCommandChar ("10.0.0.2".toList, 1069)) sampleClient sampleOpening
    ⟨"id=cam/".toList, some sampleClient, ['/'], [], Dict.empty⟩ "tftpboot".toList
    "tftpput".toList "loadaddr".toList where
  urlSafe := fun _ => List.forall_mem_singleton.mpr (by decide)
  reads := imaging_reads
  substitutes := env_substitutes _ id (fun _ => rfl) fun _ _ => rfl
  starts := ⟨by decide +kernel, rfl, rfl⟩
  peer := rfl
  plain := fun _ =>
    { urlSafe := List.forall_mem_singleton.mpr (by decide)
      served := (by decide : "10.0.0.1".toList ≠ [])
      dotted := by
        have digits : "10.0.0.1".toList.all
          (fun character => character.isDigit || character == '.') = true := by decide
        intro character member
        simpa using List.all_eq_true.mp digits character member
      fetches := rfl
      fetching := by decide
      sends := rfl
      sending := by decide
      loads := rfl
      addressed := by decide
      braceless := by decide }
  clear := by decide
  solid := by decide

/-- The sample server and the sample camera after some steps of the camera. -/
def cameraJoint (steps : Nat) : World Unit × Standing (Dict Text Text) :=
  ((sampleCamera.flowClient isCommandChar ("10.0.0.2".toList, 1069)).advance imagingServer)^[steps]
    (imagingServer.after Dict.empty [],
      (sampleCamera.flowClient isCommandChar ("10.0.0.2".toList, 1069)).begin
        sampleCamera.initialEnv sampleCamera.firstRemote)

end Simulated

end TestClient

end UbootTftp
