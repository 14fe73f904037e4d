import UbootTftp.SessionMoves

/-!
# Handlers that keep to the helpers

A proper handler awaits only the helpers of the session handle and ends by returning
or by raising `ReceiveFailedError`. With such handlers, and entry functions that
exist and are async, no session is ever stuck: each one waits for its preflight or
has a handler suspended in a helper.
-/

namespace UbootTftp

universe u
variable {κ : Type u}

/-- An end of handler code that keeps to the helpers. The one exception that it may raise is that of
a receive that failed. -/
def CodeEnd.Proper : CodeEnd κ → Prop
  | .returned => True
  | .raised error => error.cls = .receiveFailedError
  | .awaited (.exec _ _) _ => True
  | .awaited (.execRecv _ _) _ => True
  | .awaited .foreign _ => False

/-- An end of handler code that is the end of the handler: it returned, raised or
awaited its final script. -/
def CodeEnd.Over : CodeEnd κ → Prop
  | .returned => True
  | .raised _ => True
  | .awaited (.exec request _) _ => request.final = true
  | .awaited (.execRecv _ _) _ => False
  | .awaited .foreign _ => False

/-- The handlers await only the helpers and end by returning or by raising
`ReceiveFailedError`. -/
def Provider.HelpersOnly (provider : Provider κ) : Prop :=
  ∀ state resumption now schedule before,
    ((provider.resume state resumption).run provider.host now schedule before).2.Proper

/-- Every route's entry function exists and is async. -/
def Provider.AsyncEntries (provider : Provider κ) : Prop :=
  ∀ client, ∃ start, provider.module (routeFor provider.config client).entryFunc = .async start

/-- A session that waits for its preflight or has a handler suspended in a helper. -/
def Live (session : ClientSession κ) : Prop :=
  session.preflightPending = true ∨
    ∃ state, session.handler = some (.suspended state .inExec) ∨
      session.handler = some (.suspended state .inExecRecv)

/-- A proper end either ends the handler and drops the session, or leaves the handler
suspended in the helper under the token drawn next. -/
theorem settle_proper (left : ClientSession κ) (token : Text) (codeEnd : CodeEnd κ)
    (proper : codeEnd.Proper) :
    (codeEnd.Over ∧ left.settle token codeEnd = none) ∨
      ∃ awaited next settled, codeEnd = .awaited awaited next ∧ ¬codeEnd.Over ∧
        left.settle token codeEnd = some settled ∧
        settled.handler = some (.suspended next awaited.point) ∧
        settled.currentToken = some token ∧ awaited.point ≠ .inForeign ∧
        settled.preflightPending = left.preflightPending := by
  cases codeEnd with
  | returned => exact .inl ⟨trivial, rfl⟩
  | raised error => exact .inl ⟨trivial, if_pos proper⟩
  | awaited awaited next =>
    cases awaited with
    | foreign => exact proper.elim
    | execRecv request built =>
      exact .inr ⟨_, next, _, rfl, not_false, rfl, rfl, rfl, by simp [Awaited.point], rfl⟩
    | exec request built =>
      cases final : request.final with
      | true => exact .inl ⟨final, if_pos final⟩
      | false =>
        have more : ¬request.final = true := by simp [final]
        exact .inr ⟨_, next, _, rfl, more, if_neg more, rfl, rfl, by simp [Awaited.point], rfl⟩

/-- A session with an async entry function gets its handler. -/
theorem create_handler_async (provider : Provider κ) (entries : provider.AsyncEntries)
    (session : ClientSession κ) (request : ContentRequest) (begun : session.requests ≠ [])
    (raised : Raised) : createHandler provider session request ≠ .error raised := by
  obtain ⟨start, entry⟩ := entries session.clientId
  obtain ⟨first, rest, requests⟩ := List.exists_cons_of_ne_nil begun
  simp [createHandler, requests, entry]

/-- A live session is in none of the states that a broken one is in. -/
theorem Live.unbroken {session : ClientSession κ} (live : Live session)
    (passed : session.preflightPending = false) :
    ¬(session.handler = none ∨ session.handler = some .finished) := by
  rcases live with pending | ⟨state, waiting | receiving⟩
  · rw [passed] at pending
    cases pending
  · simp [waiting]
  · simp [receiving]

/-- A move of a live session leaves a live one. The handlers are asked to await the helpers only, so
that a session that stays is one that waits for a helper. -/
theorem Move.live {provider : Provider κ} (helpers : provider.HelpersOnly)
    (entries : provider.AsyncEntries) {draws : Nat} {before : Option (ClientSession κ)}
    (live : ∀ session, before = some session → Live session) {session : ClientSession κ}
    (move : Move provider draws before (some session)) : Live session := by
  generalize target : some session = after at move
  cases move with
  | same _ => exact live session target.symm
  | opened before request parsed client =>
    cases target
    exact .inl rfl
  | dropped earlier => cases target
  | uploaded earlier pending body expecting =>
    cases target
    exact live earlier rfl
  | uncreated earlier request parsed raised pending refused =>
    exact absurd refused (create_handler_async provider entries _ _ (by simp) raised)
  | exhausted earlier parsed passed broken => exact absurd broken ((live earlier rfl).unbroken passed)
  | settled earlier request parsed state point resumption now schedule downloads files left codeEnd
      enters code frame =>
    have proper := helpers state resumption now schedule
      ⟨earlier.entered parsed state point, downloads, files⟩
    rw [code] at proper
    rcases settle_proper left.session (provider.host.token draws) codeEnd proper with
      ⟨-, dropped⟩ | ⟨awaited, next, settled, -, -, stays, handler, -, helper, -⟩
    · rw [dropped] at target
      cases target
    · cases target.trans stays
      cases awaited with
      | foreign => exact absurd rfl helper
      | exec request built => exact .inr ⟨next, .inl handler⟩
      | execRecv request built => exact .inr ⟨next, .inr handler⟩

/-- With proper handlers and async entry functions every stored session is live.

Proof: by the moves of sessions; each of them stores a session that waits for its preflight, one
whose handler is suspended in a helper, or none. -/
theorem after_live (server : DynamicContentServer κ) (helpers : server.provider.HelpersOnly)
    (entries : server.provider.AsyncEntries) (files : FileTree) (events : List Event) :
    ∀ client session, (server.after files events).sessions.get client = some session →
      Live session := by
  have both := Runs.run_invariant server.step
    (fun world => world.Sound server.provider.host ∧
      ∀ client session, world.sessions.get client = some session → Live session)
    (fun world event ⟨sound, live⟩ => by
      refine ⟨step_sound server world event sound, fun client session stored => ?_⟩
      obtain ⟨actor, moves⟩ := step_moves server world event sound
      exact Move.live helpers entries (live client) (stored ▸ moves.any client))
    (World.initial files) ⟨after_sound server files [], fun _ _ stored => by cases stored⟩ events
  exact both.2

end UbootTftp
