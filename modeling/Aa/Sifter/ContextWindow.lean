import Aa.Sifter.Context.Window
import Aa.Sifter.Outgoing

/-!
# Outbound messages and the context window

The messages of a run are few, so fitting them always reaches its budget. Redaction comes after
the fit, and may put a longer marker in the place of a shorter secret: what it adds has to find
room in what the fit has left.
-/

namespace Aa.Sifter

open Aa.Library

namespace ComputeSifter

variable {sifter : ComputeSifter} {task : Task} {tier : Tier} {messages : List (Message Char)}

/-- The tokens that the messages of a tier may have beside its output. -/
def window (sifter : ComputeSifter) (tier : Tier) : ℤ :=
  (sifter.modelConfig tier).contextLimit - sifter.maxOutput tier

/-- The messages of a call as they are before redaction. -/
def fitted (sifter : ComputeSifter) (tier : Tier) (messages : List (Message Char)) :
    List (Message Char) :=
  fitToContext messages (sifter.modelConfig tier) (sifter.maxOutput tier)

/-- The tokens that redaction adds to the fitted messages. -/
def added (sifter : ComputeSifter) (tier : Tier) (messages : List (Message Char)) : ℤ :=
  totalTokens (sifter.prepared tier messages) - totalTokens (sifter.fitted tier messages)

/-- The tokens that the fit leaves free. -/
def slack (sifter : ComputeSifter) (tier : Tier) (messages : List (Message Char)) : ℤ :=
  sifter.window tier - totalTokens (sifter.fitted tier messages)

/-- The tier has a context limit to fit messages to, and what redaction adds to the messages of a
call that leaves the machine finds room; without a limit, the messages are few enough. -/
structure FindsRoom (sifter : ComputeSifter) (tier : Tier) (messages : List (Message Char)) :
    Prop where
  limited : 0 < (sifter.modelConfig tier).contextLimit ∨ sifter.added tier messages ≤
    sifter.slack tier messages
  redacted : isCloudBound tier (sifter.modelConfig tier) = true → sifter.config.redactSecrets = true →
    sifter.added tier messages ≤ sifter.slack tier messages

theorem prepared_eq_fitted (notRedacted : isCloudBound tier (sifter.modelConfig tier) = false ∨
    sifter.config.redactSecrets = false) :
    sifter.prepared tier messages = sifter.fitted tier messages := by
  simp only [prepared]
  split
  · rename_i isBound
    rw [isBound] at notRedacted
    rcases notRedacted with notBound | isDisabled
    · cases notBound
    · exact SecretRedactor.redactModelMessages_disabled isDisabled _
  · rfl

/-- Five messages are always fitted into a window of 1024 tokens or more. -/
theorem totalTokens_fitted_le (few : messages.length ≤ 5)
    (isLimited : 0 < (sifter.modelConfig tier).contextLimit)
    (isRoomy : sifter.maxOutput tier + 1024 ≤ (sifter.modelConfig tier).contextLimit) :
    (totalTokens (sifter.fitted tier messages) : ℤ) ≤ sifter.window tier := by
  have within := totalTokens_fitMessages_le messages
    (max 1024 ((sifter.modelConfig tier).contextLimit - max 0 (sifter.maxOutput tier))).toNat
  rw [fitted, fitToContext, if_neg (by omega), window]
  omega

/-- The prepared messages are within the window exactly if what redaction adds finds room. -/
theorem totalTokens_prepared_le_iff (few : messages.length ≤ 5)
    (isRoomy : sifter.maxOutput tier + 1024 ≤ (sifter.modelConfig tier).contextLimit) :
    (totalTokens (sifter.prepared tier messages) : ℤ) ≤ sifter.window tier ↔
      sifter.FindsRoom tier messages := by
  have within : (totalTokens (sifter.prepared tier messages) : ℤ) ≤ sifter.window tier ↔
      sifter.added tier messages ≤ sifter.slack tier messages := by
    rw [added, slack]
    omega
  rw [within]
  refine ⟨fun fits => ⟨.inr fits, fun _ _ => fits⟩, fun finds => ?_⟩
  rcases finds.limited with isLimited | fits
  · by_cases isRedacted : isCloudBound tier (sifter.modelConfig tier) = true ∧
        sifter.config.redactSecrets = true
    · exact finds.redacted isRedacted.1 isRedacted.2
    · have notRedacted : isCloudBound tier (sifter.modelConfig tier) = false ∨
          sifter.config.redactSecrets = false := by
        rwa [not_and_or, Bool.not_eq_true, Bool.not_eq_true] at isRedacted
      rw [← within, prepared_eq_fitted notRedacted]
      exact totalTokens_fitted_le few isLimited isRoomy
  · exact fits

/-- A local model in the cloud with a window of 1024 tokens. -/
def narrowConfig : SifterConfig where
  localModel := "m:cloud"
  localContextLimit := 1280
  localMaxOutputTokens := some 256
  routingPolicy := "local_only"

def narrowSifter : ComputeSifter where
  config := narrowConfig
  registry := buildRegistry narrowConfig
  rules := { unicode := .ascii }

/-- A long prompt, and a connection string that is shorter than its marker. -/
def filling (count : ℕ) : Task where
  prompt := String.ofList (List.replicate count 'x')
  context := some "redis://a"

theorem filling_notNeeded (count : ℕ) :
    (narrowSifter.classification (filling count)).requiresHumanApproval = false := by
  have isRoutine : (narrowSifter.classification (filling count)).level = .routine := by
    refine DecisionClassifier.levelForSignals_of_letters fun c isThere => ?_
    rw [filling, String.toList_ofList] at isThere
    simp [List.eq_of_mem_replicate isThere]
  change narrowSifter.gate.approvalNeeded (narrowSifter.classification (filling count)).level = false
  rw [isRoutine]
  rfl

def localSystem : String :=
  "You are a capable local software engineer. Follow existing project patterns. " ++
  "Return a complete, coherent answer."

theorem executionMessages_filling (count : ℕ) :
    executionMessages (filling count) [] [] =
      [Message.system localSystem, Message.user ("Context:\n" ++ "redis://a"),
        ⟨.user, List.replicate count 'x'⟩] := by
  have isPrompt : Message.user (filling count).prompt = ⟨.user, List.replicate count 'x'⟩ := by
    rw [Message.user, filling, String.toList_ofList]
  rw [executionMessages, isPrompt]
  rfl

/-- What the secret patterns make of the texts of the run: the letters of the instructions rule
out all of them but that of a bearer token. The patterns are compiled once for the three facts. -/
theorem secretPatterns_filling :
    (∀ pattern ∈ secretPatterns, pattern.2.blocked localSystem.toList ∨
      pattern.2.found .ascii localSystem.toList = false) ∧
    (narrowSifter.redactor.redact ("Context:\n" ++ "redis://a").toList).text =
      "Context:\n[REDACTED:connection_string]".toList ∧
    ∀ pattern ∈ secretPatterns, pattern.2.blocked ['x'] := by
  decide +kernel

/-- Redaction leaves the instructions and the prompt as they are, and writes a marker of 28
characters for the connection string. -/
theorem redact_filling (count : ℕ) :
    (narrowSifter.redactor.redactModelMessages (executionMessages (filling count) [] [])).1 =
      [Message.system localSystem,
        ⟨.user, "Context:\n[REDACTED:connection_string]".toList⟩,
        ⟨.user, List.replicate count 'x'⟩] := by
  rcases secretPatterns_filling with ⟨areUnfound, isContext, areBlocked⟩
  have isSystem : (narrowSifter.redactor.redact localSystem.toList).text = localSystem.toList := by
    rw [SecretRedactor.redact_of_unfound]
    intro pattern isSecret
    rw [Glyph.chars_char]
    rcases areUnfound pattern isSecret with isBlocked | isUnfound
    · exact Regex.found_of_blocked isBlocked fun _ isThere => isThere
    · exact isUnfound
  have isPrompt : (narrowSifter.redactor.redact (List.replicate count 'x')).text =
      List.replicate count 'x' := by
    rw [SecretRedactor.redact_of_blocked areBlocked]
    intro c isThere
    rw [Glyph.chars_char] at isThere
    simp [List.eq_of_mem_replicate isThere]
  rw [executionMessages_filling, SecretRedactor.redactModelMessages]
  simp only [List.map_cons, List.map_nil, Message.system, Message.user, isSystem, isContext, isPrompt]

/-- The messages fill the window before their redaction, and are five tokens over it after. -/
theorem prepared_filling :
    totalTokens (narrowSifter.prepared .local (executionMessages (filling 3968) [] [])) = 1029 := by
  have totals (first second : List Char) (isFirst : estimateTokens first = 28) (count : ℕ) :
      totalTokens [⟨.system, first⟩, ⟨.user, second⟩, (⟨.user, List.replicate count 'x'⟩ : Message Char)] =
        28 + (estimateTokens second + (max 1 (count / 4) + 0)) := by
    rw [totalTokens, isFirst, totalTokens, totalTokens, totalTokens, estimateTokens.eq_def
      (List.replicate count 'x'), List.length_replicate]
  have isSystem : estimateTokens localSystem.toList = 28 := by decide +kernel
  have isFull : totalTokens (executionMessages (filling 3968) [] []) = 1024 := by
    rw [executionMessages_filling]
    exact (totals _ _ isSystem 3968).trans (by decide +kernel)
  have isFitted : fitToContext (executionMessages (filling 3968) [] [])
      (narrowSifter.modelConfig .local) (narrowSifter.maxOutput .local) =
      executionMessages (filling 3968) [] [] := by
    rw [fitToContext, if_neg (by decide)]
    exact fitMessages_of_total_le (isFull.trans_le (by decide))
  have isBound : isCloudBound .local (narrowSifter.modelConfig .local) = true := by decide +kernel
  rw [prepared, isFitted, if_pos isBound, redact_filling]
  exact (totals _ _ isSystem 3968).trans (by decide +kernel)

def fillingCall : Call :=
  narrowSifter.callOf .local .localExecute (.ollama "http://localhost:11434")
    (executionMessages (filling 3968) [] [])

/-- A run of the sifter begins with that call, whatever is answered. -/
theorem filling_does (result : GenerationResult) :
    ∃ rest outcome after, (narrowSifter.run (filling 3968)).Does
      (narrowSifter.newSession (filling 3968)) (⟨.generate fillingCall, .ok result⟩ :: rest) outcome
      after := by
  let environment := raising "no answer"
  have isProvider : narrowSifter.registry.providerFor (narrowSifter.modelConfig .local).name
      (narrowSifter.modelConfig .local).provider = .ok (.ollama "http://localhost:11434") := by
    decide +kernel
  have calls := callTier_local_answers isProvider rfl (executionMessages (filling 3968) [] [])
    .localExecute result (narrowSifter.newSession (filling 3968))
  have tries : (narrowSifter.tryLocally (executionMessages (filling 3968) [] [])).Starts
      (narrowSifter.newSession (filling 3968)) [⟨.generate fillingCall, .ok result⟩] := by
    refine Coroutine.starts_catching environment (Coroutine.starts_bind_left environment ?_)
    exact Coroutine.starts_of_does calls
  have executes : (narrowSifter.attemptLocally (executionMessages (filling 3968) [] []) 3 1 {}).Starts
      (narrowSifter.newSession (filling 3968)) [⟨.generate fillingCall, .ok result⟩] :=
    Coroutine.starts_bind_left environment tries
  have runs : (narrowSifter.run (filling 3968)).Starts (narrowSifter.newSession (filling 3968))
      [⟨.generate fillingCall, .ok result⟩] := by
    refine Coroutine.starts_catching environment ?_
    rw [runBody, if_neg (by simp [filling_notNeeded])]
    refine Coroutine.starts_bind (Coroutine.does_read.mpr ⟨rfl, rfl, rfl⟩) ?_
    exact Coroutine.starts_bind_left environment executes
  rcases runs with ⟨rest, outcome, after, does⟩
  exact ⟨rest, outcome, after, does⟩

end ComputeSifter

end Aa.Sifter
