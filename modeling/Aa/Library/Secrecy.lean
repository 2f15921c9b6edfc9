import Mathlib.Data.List.Basic

/-!
# Secrets behind a keeper

A keeper answers queries with the help of a secret. A query shows some guesses, and a query that is
shut out gets an answer that depends on the query alone, and leaves the state as it is, unless the
secret is among its guesses. A client chooses each query from the answers to those before, and
between two of them others may change the state. Such a client sees and does the same whatever the
secret is, except for the secrets that it guesses.
-/

namespace Aa.Library

/-- Answers queries with the help of a secret. -/
structure Keeper (Secret State Query Answer : Type) where
  respond : Secret → State → Query → Answer × State
  guesses : Query → List Secret
  refusal : Query → Answer

namespace Keeper

variable {Secret State Query Answer : Type} (keeper : Keeper Secret State Query Answer)

/-- Whether a query is refused unless it guesses the secret. -/
def ShutsOut (query : Query) : Prop :=
  ∀ secret state, secret ∉ keeper.guesses query →
    keeper.respond secret state query = (keeper.refusal query, state)

variable (client : List Answer → Query) (others : ℕ → State → State)

/-- The answers to the first queries of a client, and the state after them. -/
def interact (secret : Secret) (state : State) : ℕ → List Answer × State
  | 0 => ([], state)
  | count + 1 =>
      let before := interact secret state count
      let response := keeper.respond secret (others count before.2) (client before.1)
      (before.1 ++ [response.1], response.2)

/-- The answers to the first queries of a client that is always refused. -/
def refusals : ℕ → List Answer
  | 0 => []
  | count + 1 => refusals count ++ [keeper.refusal (client (refusals count))]

/-- What such a client guesses in its first queries. -/
def guessed : ℕ → List Secret
  | 0 => []
  | count + 1 => guessed count ++ keeper.guesses (client (keeper.refusals client count))

/-- The state that others alone lead to. -/
def leftAlone (state : State) : ℕ → State
  | 0 => state
  | count + 1 => others count (leftAlone state count)

variable {keeper client others} {secret : Secret} {most : ℕ}

/-- A client that does not guess the secret sees the refusals and changes nothing. -/
theorem interact_of_not_guessed (shut : ∀ seen, keeper.ShutsOut (client seen)) (state : State)
    (count : ℕ) (missed : secret ∉ keeper.guessed client count) :
    keeper.interact client others secret state count =
      (keeper.refusals client count, leftAlone others state count) := by
  induction count with
  | zero => rfl
  | succ count ih =>
      rw [guessed, List.mem_append, not_or] at missed
      have before := ih missed.1
      rw [interact, before]
      simp only [shut _ _ _ missed.2, refusals, leftAlone]

theorem length_guessed_le (few : ∀ query, (keeper.guesses query).length ≤ most) (count : ℕ) :
    (keeper.guessed client count).length ≤ most * count := by
  induction count with
  | zero => simp [guessed]
  | succ count ih =>
      have here := few (client (keeper.refusals client count))
      simp only [guessed, List.length_append, Nat.mul_succ]
      omega

/-- Each answer to a client that is always refused is the refusal of one of its queries. -/
theorem mem_refusals {answer : Answer} {count : ℕ}
    (isThere : answer ∈ keeper.refusals client count) :
    ∃ seen, answer = keeper.refusal (client seen) := by
  induction count with
  | zero => cases isThere
  | succ count ih =>
      rcases List.mem_append.mp isThere with isEarlier | isLast
      · exact ih isEarlier
      · exact ⟨_, List.mem_singleton.mp isLast⟩

end Keeper

end Aa.Library
