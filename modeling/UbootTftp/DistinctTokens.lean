import UbootTftp.SessionMoves

/-!
# Distinct tokens

If no two draws give the same token, the current tokens of different sessions differ in
every reachable state, and a token that no stored session holds any more is never held
again.
-/

namespace UbootTftp

universe u
variable {κ : Type u}

/-- No stored session holds the token, and it will not be drawn again. -/
structure Spent (host : Host) (token : Text) (world : World κ) : Prop where
  drawn : ∃ draw < world.tokensDrawn, host.token draw = token
  free : ∀ client session, world.sessions.get client = some session →
    session.currentToken ≠ some token

/-- Two stored sessions with one current token are the same. -/
def Apart (world : World κ) : Prop :=
  ∀ client other session second, world.sessions.get client = some session →
    world.sessions.get other = some second → session.currentToken = second.currentToken →
      client = other

section Distinct

variable (server : DynamicContentServer κ)
  (distinct : Function.Injective server.provider.host.token)

include distinct

/-- A token drawn before is not the one drawn next. -/
theorem drawn_fresh {world : World κ} (draw : Nat) (drawn : draw < world.tokensDrawn) :
    server.provider.host.token draw ≠ server.provider.host.token world.tokensDrawn := by
  intro same
  have index := distinct same
  omega

/-- Every step keeps current tokens apart: a step gives a token to one session at most, and the one
it gives has not been drawn before. -/
theorem step_apart (world : World κ) (event : Event) (sound : world.Sound server.provider.host)
    (apart : Apart world) : Apart (server.step world event) := by
  obtain ⟨actor, moves⟩ := step_moves server world event sound
  -- Only the acting client can hold the new token; every other session is as before.
  have fresh : ∀ client session earlier, world.sessions.get client = some earlier →
      session = earlier.currentToken → session ≠
        some (server.provider.host.token world.tokensDrawn) := by
    intro client token earlier stored held new
    obtain ⟨draw, drawn, current⟩ := (sound.sessions client earlier stored).issued
    rw [held, current] at new
    exact drawn_fresh server distinct draw drawn (Option.some.inj new)
  have actorAlone : ∀ other session second,
      (server.step world event).sessions.get actor = some session →
      (server.step world event).sessions.get other = some second →
      session.currentToken = second.currentToken → actor = other := by
    intro other session second stored otherStored same
    by_cases different : other = actor
    · exact different.symm
    · rw [moves.others other different] at otherStored
      have move := moves.own
      rw [stored] at move
      rcases move.token with ⟨earlier, before, kept⟩ | new
      · exact apart actor other earlier second before otherStored (kept.trans same)
      · exact absurd (same ▸ new) (fresh other _ second otherStored rfl)
  intro client other session second stored otherStored same
  by_cases own : client = actor
  · subst own
    exact actorAlone other session second stored otherStored same
  · by_cases otherOwn : other = actor
    · subst otherOwn
      exact (actorAlone client second session otherStored stored same.symm).symm
    · rw [moves.others client own] at stored
      rw [moves.others other otherOwn] at otherStored
      exact apart client other session second stored otherStored same

/-- Current tokens are apart in every reachable state. -/
theorem after_apart (files : FileTree) (events : List Event) :
    Apart (server.after files events) := by
  have both := Runs.run_invariant server.step
    (fun world => world.Sound server.provider.host ∧ Apart world)
    (fun world event ⟨sound, apart⟩ =>
      ⟨step_sound server world event sound, step_apart server distinct world event sound apart⟩)
    (World.initial files)
    ⟨after_sound server files [], fun _ _ _ _ stored => by cases stored⟩ events
  exact both.2

/-- A spent token stays spent: no step gives a session an older token. The token that a step gives
is drawn in it, and draws are never repeated. -/
theorem step_spent (world : World κ) (event : Event) (sound : world.Sound server.provider.host)
    (token : Text) (spent : Spent server.provider.host token world) :
    Spent server.provider.host token (server.step world event) := by
  obtain ⟨draw, drawn, same⟩ := spent.drawn
  obtain ⟨actor, moves⟩ := step_moves server world event sound
  refine ⟨⟨draw, by have := moves.draws; omega, same⟩, ?_⟩
  intro client session stored held
  have move := moves.any client
  rw [stored] at move
  rcases move.token with ⟨earlier, before, kept⟩ | new
  · exact spent.free client earlier before (kept.trans held)
  · rw [held, ← same] at new
    exact drawn_fresh server distinct draw drawn (Option.some.inj new)

/-- A spent token stays spent over a run. -/
theorem run_spent (world : World κ) (events : List Event) (sound : world.Sound server.provider.host)
    (token : Text) (spent : Spent server.provider.host token world) :
    Spent server.provider.host token (Runs.run server.step world events) := by
  have both := Runs.run_invariant server.step
    (fun world => world.Sound server.provider.host ∧ Spent server.provider.host token world)
    (fun world event ⟨sound, spent⟩ =>
      ⟨step_sound server world event sound,
        step_spent server distinct world event sound token spent⟩)
    world ⟨sound, spent⟩ events
  exact both.2

end Distinct

end UbootTftp
