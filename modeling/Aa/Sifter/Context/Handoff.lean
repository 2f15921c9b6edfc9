import Aa.Library.Regex
import Aa.Sifter.Context.Compression

/-!
# Redaction before a cloud handoff

The redactor replaces what its patterns match, one pattern after another. Like the
fitting it is written over glyphs, so that it can be run on text whose characters
remember their place.
-/

namespace Aa.Sifter

open Aa.Library

/-- The secret patterns: name, flags and source of each. -/
def secretPatternSources : List (String × Regex.Flags × String) :=
  [("private_key", { dotall := true },
      "-----BEGIN [A-Z ]*PRIVATE KEY-----.*?-----END [A-Z ]*PRIVATE KEY-----"),
    ("aws_access_key", {}, "\\bAKIA[0-9A-Z]\x7b16\x7d\\b"),
    ("github_token", {}, "\\b(gh[pousr]_[A-Za-z0-9]\x7b20,\x7d)\\b"),
    ("slack_token", {}, "\\bxox[baprs]-[A-Za-z0-9-]\x7b10,\x7d\\b"),
    ("openai_key", {}, "\\bsk-[A-Za-z0-9]\x7b16,\x7d\\b"),
    ("bearer_token", {}, "(?i)\\bbearer\\s+[A-Za-z0-9._\\-]\x7b12,\x7d"),
    ("env_assignment", {},
      "(?im)^\\s*[A-Z0-9_]*(?:KEY|TOKEN|SECRET|PASSWORD|PASSWD|PWD|CREDENTIAL)[A-Z0-9_]*\\s*=\\s*.+$"),
    ("password_field", {}, "(?i)\\bpassword\\s*[:=]\\s*[^\\s\\\"']\x7b4,\x7d"),
    ("connection_string", {},
      "(?i)\\b(?:postgres(?:ql)?|mysql|mongodb|redis)(?:\\+\\w+)?://[^\\s]+")]

/-- The compiled secret patterns. -/
def secretPatterns : List (String × Regex) :=
  secretPatternSources.filterMap fun source =>
    (Regex.compile source.2.1 source.2.2).map fun pattern => (source.1, pattern)

theorem secretPatterns_all_compile : secretPatterns.map (·.1) = secretPatternSources.map (·.1) := by
  decide +kernel

structure RedactionResult (α : Type) where
  text : List α
  findings : List String := []

def RedactionResult.redacted {α : Type} (result : RedactionResult α) : Bool :=
  !result.findings.isEmpty

/-- The redactor; `unicode` is the database its patterns are matched with. -/
structure SecretRedactor where
  unicode : PyUnicode
  enabled : Bool := true

namespace SecretRedactor

variable (redactor : SecretRedactor) {α : Type} [Glyph α]

def replacement (name : String) : List α :=
  Glyph.ofString s!"[REDACTED:{name}]"

/-- Replaces the matches of one pattern and notes its name if there are any. -/
def redactOne (result : RedactionResult α) (pattern : String × Regex) : RedactionResult α :=
  if pattern.2.found redactor.unicode (Glyph.chars result.text) then
    { text := pattern.2.sub redactor.unicode (replacement pattern.1) result.text
      findings := result.findings ++ [pattern.1] }
  else result

def redact (text : List α) : RedactionResult α :=
  if !redactor.enabled || text.isEmpty then { text := text }
  else secretPatterns.foldl redactor.redactOne { text := text }

/-- The redacted messages and the sorted names of the patterns found in them. -/
def redactModelMessages (messages : List (Message α)) : List (Message α) × List String :=
  (messages.map fun message => { message with content := (redactor.redact message.content).text },
    ((messages.flatMap fun message => (redactor.redact message.content).findings).dedup).insertionSort
      (· ≤ ·))

variable {redactor}

/-- Redacting glyphs and then looking at the characters is redacting the characters. -/
theorem chars_redact (text : List α) :
    Glyph.chars (redactor.redact text).text = (redactor.redact (Glyph.chars text)).text := by
  have step (patterns : List (String × Regex)) (result : RedactionResult α)
      (plain : RedactionResult Char) (sameText : Glyph.chars result.text = plain.text)
      (sameFindings : result.findings = plain.findings) :
      Glyph.chars (patterns.foldl redactor.redactOne result).text =
        (patterns.foldl redactor.redactOne plain).text := by
    induction patterns generalizing result plain with
    | nil => exact sameText
    | cons pattern rest ih =>
        refine ih _ _ ?_ ?_
        · simp only [redactOne, sameText, Glyph.chars_char]
          split
          · rw [Regex.chars_sub, sameText, replacement, Glyph.chars_ofString, replacement,
              ofString_char]
          · exact sameText
        · simp only [redactOne, sameText, Glyph.chars_char]
          split
          · rw [sameFindings]
          · exact sameFindings
  have sameEmpty : (Glyph.chars text).isEmpty = text.isEmpty := by
    cases text <;> rfl
  simp only [redact, sameEmpty]
  split
  · rfl
  · exact step secretPatterns { text := text } { text := Glyph.chars text } rfl rfl

theorem redact_disabled (isDisabled : redactor.enabled = false) (text : List α) :
    redactor.redact text = { text := text } := by
  rw [redact, isDisabled, Bool.not_false, Bool.true_or, if_pos rfl]

theorem redactModelMessages_disabled (isDisabled : redactor.enabled = false)
    (messages : List (Message α)) : (redactor.redactModelMessages messages).1 = messages := by
  simp only [redactModelMessages, redact_disabled isDisabled]
  exact List.map_id messages

/-- A text in which no secret pattern is found is sent as it is. -/
theorem redact_of_unfound {text : List α}
    (areUnfound : ∀ pattern ∈ secretPatterns,
      pattern.2.found redactor.unicode (Glyph.chars text) = false) :
    redactor.redact text = { text := text } := by
  have unchanged (patterns : List (String × Regex))
      (areSecret : ∀ pattern ∈ patterns, pattern ∈ secretPatterns) :
      patterns.foldl redactor.redactOne { text := text } = { text := text } := by
    induction patterns with
    | nil => rfl
    | cons pattern rest ih =>
        have notFound := areUnfound pattern (areSecret pattern List.mem_cons_self)
        rw [List.foldl_cons, redactOne, notFound, if_neg Bool.false_ne_true]
        exact ih fun other isLater => areSecret other (List.mem_cons_of_mem _ isLater)
  unfold redact
  split
  · rfl
  · exact unchanged secretPatterns fun _ isSecret => isSecret

/-- A text over an alphabet that blocks every secret pattern is sent as it is. -/
theorem redact_of_blocked {alphabet : List Char}
    (areBlocked : ∀ pattern ∈ secretPatterns, pattern.2.blocked alphabet) {text : List α}
    (within : ∀ c ∈ Glyph.chars text, c ∈ alphabet) :
    redactor.redact text = { text := text } :=
  redact_of_unfound fun pattern isSecret =>
    Regex.found_of_blocked (areBlocked pattern isSecret) within

end SecretRedactor

/-! ## Packets for the expert -/

structure EscalationPacket where
  originalTask : String
  currentPlan : String := ""
  completedWork : String := ""
  relevantFiles : List String := []
  failedAttempts : List String := []
  testResults : String := ""
  openQuestions : List String := []
  reasonForEscalation : String := ""
  humanConstraints : List String := []
  approvedDecisions : List String := []

/-- `"\n".join(f"- {item}" for item in items)`. -/
def bullets (items : List String) : String :=
  Py.join "\n" (items.map ("- " ++ ·))

/-- The human constraints and approved decisions as they stand in a prompt. -/
def authoritativeSections (humanConstraints approvedDecisions : List String) : List String :=
  (if humanConstraints.isEmpty then [] else
    ["HUMAN CONSTRAINTS (authoritative, must not be reinterpreted as optional):\n" ++
      bullets humanConstraints]) ++
  (if approvedDecisions.isEmpty then [] else
    ["APPROVED DECISIONS (authoritative):\n" ++ bullets approvedDecisions])

/-- A titled section, left out when it has no text. -/
def textSection (title text : String) : List String :=
  if text = "" then [] else [title ++ ":\n" ++ text]

/-- A titled list, left out when it is empty. -/
def listSection (title : String) (items : List String) : List String :=
  if items.isEmpty then [] else [title ++ ":\n" ++ bullets items]

def EscalationPacket.toPrompt (packet : EscalationPacket) : String :=
  Py.join "\n\n"
    (["Original task:\n" ++ packet.originalTask] ++
      textSection "Current plan" packet.currentPlan ++
      textSection "Completed work" packet.completedWork ++
      listSection "Relevant files" packet.relevantFiles ++
      listSection "Failed attempts" packet.failedAttempts ++
      textSection "Test results" packet.testResults ++
      listSection "Open questions" packet.openQuestions ++
      textSection "Reason for escalation" packet.reasonForEscalation ++
      authoritativeSections packet.humanConstraints packet.approvedDecisions)

end Aa.Sifter
