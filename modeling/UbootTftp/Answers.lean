import UbootTftp.ReadRequests

/-!
# What a read request answers

A script is built from three settings of the session's environment. A configuration
that the loader accepts defines them and nothing ever removes a key, so building a
script cannot fail. The answer to a read request then depends only on how the
handler code ends.
-/

namespace UbootTftp

universe u
variable {κ : Type u}

/-- An environment that defines the settings every script needs. Sessions start with one, no step
removes a key, and so it holds of every session of a run. -/
def Equipped (env : Dict Text Text) : Prop := ∀ key ∈ requiredEnv, env.get key ≠ none

/-- Collecting segments keeps every key that is present. The induction is on the segments, with any
dictionary that has the key already. -/
theorem key_values_present (segments : List Text) (initial : Dict Text Text) (key : Text)
    (present : initial.get key ≠ none) : (keyValues segments initial).get key ≠ none := by
  unfold keyValues
  induction segments generalizing initial with
  | nil => exact present
  | cons segment rest inductionHypothesis =>
    apply inductionHypothesis
    dsimp only
    split
    · rw [Dict.get_set]
      split
      · exact Option.some_ne_none _
      · exact present
    · exact present

/-- A session's environment is equipped when the base environment is: routes and requests override
values and remove none. -/
theorem session_env_equipped (baseEnv routeEnv : Dict Text Text) (parsed : ParsedPath)
    (equipped : Equipped baseEnv) : Equipped (sessionEnv baseEnv routeEnv parsed) := by
  intro key required
  exact key_values_present _ _ key (Dict.update_present _ _ key (equipped key required))

/-- Merging reported values keeps an environment equipped.

Proof: by induction on the values; one that is entered gives its key a value and leaves the other
keys as they are. -/
theorem merge_equipped (session : ClientSession κ) (parsed : ParsedPath)
    (equipped : Equipped session.env) :
    Equipped (mergeContinuationValues session parsed).env := by
  unfold mergeContinuationValues
  induction parsed.values.entries generalizing session with
  | nil => exact equipped
  | cons entry rest inductionHypothesis =>
    apply inductionHypothesis
    unfold mergeValue
    split
    · exact equipped
    · intro key required
      simp only [Dict.get_set]
      split
      · exact Option.some_ne_none _
      · exact equipped key required

/-- The session after a continuation has been merged is equipped like before. -/
theorem continued_equipped (session : ClientSession κ) (parsed : ParsedPath)
    (equipped : Equipped session.env) : Equipped (session.continued parsed).env :=
  merge_equipped _ parsed equipped

/-- A required setting can be looked up. -/
theorem lookup_env_ok (env : Dict Text Text) (equipped : Equipped env) (key : Text)
    (required : key ∈ requiredEnv) : ∃ value, lookupEnv env key = .ok value := by
  obtain ⟨value, stored⟩ := Option.ne_none_iff_exists'.mp (equipped key required)
  exact ⟨value, by simp only [lookupEnv, stored]⟩

section Scripts

variable (session : ClientSession κ) (equipped : Equipped session.env)

include equipped

/-- The continuation command of a session with a token can be built. -/
theorem continue_command_ok (token : Text) (current : session.currentToken = some token)
    (recvStatus : Option Text) (returnKeys : List Text) :
    ∃ command, continueCommand session recvStatus returnKeys = .ok command := by
  obtain ⟨cmdtftp, first⟩ := lookup_env_ok session.env equipped "cmdtftp".toList (by decide)
  obtain ⟨rambase, second⟩ := lookup_env_ok session.env equipped "rambase".toList (by decide)
  simp only [continueCommand, current, first, second]
  exact ⟨_, rfl⟩

/-- A script with a continuation can be built. -/
theorem append_continue_ok (token : Text) (current : session.currentToken = some token)
    (script : Text) (recvStatus : Option Text) (returnKeys : List Text) :
    ∃ text, appendContinue script session recvStatus returnKeys = .ok text := by
  obtain ⟨command, built⟩ := continue_command_ok session equipped token current recvStatus returnKeys
  simp only [appendContinue, built]
  exact ⟨_, rfl⟩

/-- A script with an upload can be built. The session has the settings that the lines mention, and
the token and the expected upload have been recorded before the lines are made. Without these the
code raises instead. -/
theorem append_receive_ok (token : Text) (current : session.currentToken = some token)
    (pending : PendingReceive) (expecting : session.pendingReceive = some pending)
    (script tmpName : Text) (returnKeys : List Text) (offset : Option UbootNumber) :
    ∃ text, appendReceive script session tmpName returnKeys offset = .ok text := by
  obtain ⟨success, first⟩ := continue_command_ok session equipped token current
    (some "ok".toList) returnKeys
  obtain ⟨failure, second⟩ := continue_command_ok session equipped token current
    (some "failed".toList) returnKeys
  obtain ⟨rambase, third⟩ := lookup_env_ok session.env equipped "rambase".toList (by decide)
  obtain ⟨cmdtftpput, fourth⟩ := lookup_env_ok session.env equipped "cmdtftpput".toList (by decide)
  cases offset with
  | none =>
    simp only [appendReceive, expecting, first, second, receiveAddress, third, fourth]
    exact ⟨_, rfl⟩
  | some value =>
    simp only [appendReceive, expecting, first, second, receiveAddress, third, fourth]
    exact ⟨_, rfl⟩

end Scripts

/-- An answer with a script that could be built is that script. -/
theorem World.answer_ok (world : World κ) (host : Host) (session : ClientSession κ)
    (script : Except Raised Text) (built : ∃ text, script = .ok text) :
    ∃ body, (world.answer host session script).2 = .ok body := by
  obtain ⟨text, rfl⟩ := built
  exact ⟨_, rfl⟩

/-- A start is always answered with the preflight script, whatever else the server holds. -/
theorem World.start_answers (world : World κ) (provider : Provider κ)
    (equipped : Equipped provider.config.env) (now : Nat) (request : ContentRequest)
    (parsed : ParsedPath) (client : ClientId) :
    ∃ body, (world.startSession provider now request parsed client).2 = .ok body := by
  simp only [startSession, preflightResult]
  apply answer_ok
  apply append_continue_ok
  case equipped => exact session_env_equipped _ _ parsed equipped
  case current => rfl

/-- The exception that the end of handler code makes of a request, if any. Returning is one: the
request has no script to answer with. -/
def CodeEnd.failure : CodeEnd κ → Option Raised
  | .returned => some .completedWithoutScript
  | .raised error =>
    some (if error.cls = .receiveFailedError then .handlerReceiveFailed error else error)
  | .awaited (.exec _ _) _ => none
  | .awaited (.execRecv _ _) _ => none
  | .awaited .foreign _ => some .foreignAwaitable

/-- The answer to a request that ran handler code. -/
def CodeEnd.Answers (codeEnd : CodeEnd κ) (result : Except Raised ContentResult) : Prop :=
  match codeEnd.failure with
  | some failure => result = .error failure
  | none => ∃ body, result = .ok body

/-- A helper call of an equipped session is answered with its script. One that is not a helper call
raises instead, and that is the answer then. The script of an upload can be made because the pending
upload is recorded first. -/
theorem World.instruction_answers (world : World κ) (host : Host) (now : Nat)
    (session : ClientSession κ) (equipped : Equipped session.env) (awaited : Awaited) (next : κ) :
    (CodeEnd.awaited awaited next).Answers
      (world.resultFromInstruction host now session awaited).2 := by
  cases awaited with
  | foreign => rfl
  | execRecv request built =>
    obtain ⟨script, size, final, keys, offset, made⟩ := built
    have sized := (exec_recv_expects _ _ _ _ _ _ made).2
    simp only [resultFromInstruction, Awaited.instruction, sized]
    apply answer_ok
    apply append_receive_ok
    case equipped => exact equipped
    case current => rfl
    case expecting => rfl
  | exec request built =>
    obtain ⟨script, final, keys, made⟩ := built
    have sized := exec_expects _ _ _ _ made
    simp only [resultFromInstruction, Awaited.instruction, sized]
    split
    · exact ⟨_, rfl⟩
    · apply answer_ok
      apply append_continue_ok
      case equipped => exact equipped
      case current => rfl

/-- Running handler code on an equipped session is answered as the code ends. This is the one place
where the results about requests look at how handler code ends. -/
theorem World.run_handler_answers (world : World κ) (provider : Provider κ) (now : Nat)
    (schedule : Schedule) (session : ClientSession κ) (state : κ) (resumption : Resumption)
    (equipped : Equipped session.env) (left : HandleState κ) (codeEnd : CodeEnd κ)
    (code : (provider.resume state resumption).run provider.host now schedule
      ⟨session, world.downloads, world.files⟩ = (left, codeEnd)) :
    codeEnd.Answers
      (world.runHandler provider now schedule session state resumption).result := by
  have kept : left.session.env = session.env := by
    obtain ⟨env, artifacts, frame⟩ := Code.run_session provider.host now
      (provider.resume state resumption) schedule ⟨session, world.downloads, world.files⟩
    rw [code] at frame
    rw [frame]
  simp only [runHandler, code]
  cases codeEnd with
  | returned => rfl
  | raised error =>
    simp only [CodeEnd.Answers, CodeEnd.failure]
    split <;> rfl
  | awaited awaited next =>
    exact instruction_answers _ provider.host now _ (kept.symm ▸ equipped) awaited next

end UbootTftp
