import Aa.Library.Double
import Aa.Sifter.Models

/-!
# Fitting messages into a context window

Compaction keeps the system messages and the latest turns and shortens the older
ones to snippets; fitting then halves the largest message, cutting out its middle,
until the estimated tokens are within the budget. All of it is written over glyphs,
so that the run on characters and the run that follows each character from its place
in the original messages are the same code (`chars_fitMessages`).
-/

namespace Aa.Sifter

open Aa.Library

variable {α : Type}

def estimateTokens (text : List α) : ℕ :=
  max 1 (text.length / 4)

/-- The summed estimate of a list of messages. -/
def totalTokens : List (Message α) → ℕ
  | [] => 0
  | message :: rest => estimateTokens message.content + totalTokens rest

theorem totalTokens_pair_le {first second : Message α} {firstBound secondBound : ℕ}
    (isFirst : first.content.length ≤ firstBound) (isSecond : second.content.length ≤ secondBound) :
    totalTokens [first, second] ≤ firstBound + secondBound + 2 := by
  simp only [totalTokens, estimateTokens]
  omega

section Fitting

variable [Glyph α]

def truncateMarker : String := "\n...[truncated]...\n"

/-- `int(max_chars * 0.7)`. -/
def headChars (maxChars : ℕ) : ℕ :=
  Double.truncMul maxChars 3152519739159347 52

def truncate (text : List α) (maxTokens : ℕ) : List α :=
  if estimateTokens text ≤ maxTokens then text
  else
    let maxChars := maxTokens * 4
    let head := headChars maxChars
    let tail := maxChars - head
    text.take head ++ Glyph.ofString truncateMarker ++ Py.lastItems tail text

/-- One line of the summary of older messages. -/
def summaryPart (message : Message α) : List α :=
  let snippet := Glyph.replaceChar '\n' ' ' (Glyph.strip message.content)
  Glyph.ofString (message.role.value ++ ": ") ++ snippet.take 160

/-- The lines of the summary, separated by newlines. -/
def summaryLines : List (Message α) → List α
  | [] => []
  | [message] => summaryPart message
  | message :: next :: rest =>
      summaryPart message ++ Glyph.ofString "\n" ++ summaryLines (next :: rest)

def compressMessages (messages : List (Message α)) (maxTokens keepRecent : ℕ) :
    List (Message α) :=
  if totalTokens messages ≤ maxTokens then messages
  else
    let system := messages.filter fun message => message.role = .system
    let rest := messages.filter fun message => message.role ≠ .system
    let recent := Py.lastItems keepRecent rest
    let older := if keepRecent < rest.length then Py.allButLast keepRecent rest else []
    if older.isEmpty then system ++ recent
    else
      let summary : Message α :=
        ⟨.system, Glyph.ofString "Compressed earlier context:\n" ++ summaryLines older⟩
      system ++ [summary] ++ recent

/-- The largest estimate of a message. -/
def maxEstimate : List (Message α) → ℕ
  | [] => 0
  | message :: rest => max (estimateTokens message.content) (maxEstimate rest)

/-- The first message with the largest estimate cut to half its tokens, if that makes
it smaller. -/
def reduceLargest : List (Message α) → Option (List (Message α))
  | [] => none
  | message :: rest =>
      let current := estimateTokens message.content
      if maxEstimate rest ≤ current then
        let reduced := truncate message.content (max 1 (current / 2))
        if current ≤ 1 ∨ current ≤ estimateTokens reduced then none
        else some ({ message with content := reduced } :: rest)
      else (reduceLargest rest).map (message :: ·)

theorem totalTokens_reduceLargest {messages reduced : List (Message α)}
    (isReduced : reduceLargest messages = some reduced) :
    totalTokens reduced < totalTokens messages := by
  induction messages generalizing reduced with
  | nil => simp [reduceLargest] at isReduced
  | cons message rest ih =>
      simp only [reduceLargest] at isReduced
      split at isReduced
      · split at isReduced
        · simp at isReduced
        · rename_i shrinks
          cases isReduced
          simp only [totalTokens]
          omega
      · rcases Option.map_eq_some_iff.mp isReduced with ⟨restReduced, isRest, rfl⟩
        have smaller := ih isRest
        simp only [totalTokens]
        omega

/-- The loop of `fit_messages`. -/
def shrink (messages : List (Message α)) (maxTokens : ℕ) : List (Message α) :=
  if totalTokens messages ≤ maxTokens then messages
  else
    match _isReduced : reduceLargest messages with
    | none => messages
    | some reduced => shrink reduced maxTokens
termination_by totalTokens messages
decreasing_by exact totalTokens_reduceLargest _isReduced

def fitMessages (messages : List (Message α)) (maxTokens : ℕ) (keepRecent : ℕ := 6) :
    List (Message α) :=
  shrink (compressMessages messages maxTokens keepRecent) maxTokens

theorem fitMessages_of_total_le {messages : List (Message α)} {maxTokens keepRecent : ℕ}
    (fits : totalTokens messages ≤ maxTokens) :
    fitMessages messages maxTokens keepRecent = messages := by
  rw [fitMessages, compressMessages, if_pos fits, shrink, if_pos fits]

/-! ## Fitting sees only the characters -/

/-- The message without what its glyphs carry besides their characters. -/
def Message.plain (message : Message α) : Message Char :=
  ⟨message.role, Glyph.chars message.content⟩

theorem estimateTokens_chars (text : List α) :
    estimateTokens (Glyph.chars text) = estimateTokens text := by
  rw [estimateTokens, estimateTokens, Glyph.length_chars]

theorem totalTokens_plain (messages : List (Message α)) :
    totalTokens (messages.map Message.plain) = totalTokens messages := by
  induction messages with
  | nil => rfl
  | cons message rest ih =>
      simp only [List.map_cons, totalTokens, ih, Message.plain, estimateTokens_chars]

theorem maxEstimate_plain (messages : List (Message α)) :
    maxEstimate (messages.map Message.plain) = maxEstimate messages := by
  induction messages with
  | nil => rfl
  | cons message rest ih =>
      simp only [List.map_cons, maxEstimate, ih, Message.plain, estimateTokens_chars]

theorem ofString_char (text : String) : (Glyph.ofString text : List Char) = text.toList :=
  (Glyph.chars_char _).symm.trans (Glyph.chars_ofString text)

theorem chars_take (count : ℕ) (text : List α) :
    Glyph.chars (text.take count) = (Glyph.chars text).take count :=
  List.map_take

theorem chars_truncate (text : List α) (maxTokens : ℕ) :
    Glyph.chars (truncate text maxTokens) = truncate (Glyph.chars text) maxTokens := by
  unfold truncate
  simp only [estimateTokens_chars]
  split
  · rfl
  · simp only [Glyph.chars_append, Glyph.chars_ofString, chars_take, ofString_char]
    exact congrArg _ (Py.lastItems_map Glyph.char _ text)

theorem chars_summaryPart (message : Message α) :
    Glyph.chars (summaryPart message) = summaryPart message.plain := by
  simp only [summaryPart, Message.plain, Glyph.chars_append, Glyph.chars_ofString, chars_take,
    Glyph.chars_replaceChar, Glyph.chars_strip, ofString_char]

theorem chars_summaryLines (messages : List (Message α)) :
    Glyph.chars (summaryLines messages) = summaryLines (messages.map Message.plain) := by
  induction messages with
  | nil => rfl
  | cons message rest ih =>
      cases rest with
      | nil => exact chars_summaryPart message
      | cons next later =>
          simp only [List.map_cons, summaryLines, Glyph.chars_append, chars_summaryPart,
            Glyph.chars_ofString, ofString_char] at ih ⊢
          rw [ih]

theorem filter_plain (keep : Role → Bool) (messages : List (Message α)) :
    (messages.filter fun message => keep message.role).map Message.plain =
      (messages.map Message.plain).filter fun message => keep message.role := by
  rw [List.filter_map]
  rfl

theorem chars_compressMessages (messages : List (Message α)) (maxTokens keepRecent : ℕ) :
    (compressMessages messages maxTokens keepRecent).map Message.plain =
      compressMessages (messages.map Message.plain) maxTokens keepRecent := by
  unfold compressMessages
  rw [totalTokens_plain]
  split
  · rfl
  · have restPlain := filter_plain (fun role => role ≠ .system) messages
    have systemPlain := filter_plain (fun role => role = .system) messages
    have restLength : (messages.filter fun message => message.role ≠ .system).length =
        ((messages.map Message.plain).filter fun message => message.role ≠ .system).length := by
      rw [← restPlain, List.length_map]
    have recentPlain := Py.lastItems_map Message.plain keepRecent
      (messages.filter fun message => message.role ≠ .system)
    have olderPlain := Py.allButLast_map Message.plain keepRecent
      (messages.filter fun message => message.role ≠ .system)
    rw [restPlain] at recentPlain olderPlain
    dsimp only
    rw [← restLength, ← olderPlain, ← recentPlain, ← systemPlain]
    split
    · rw [List.isEmpty_map]
      split
      · rw [List.map_append]
      · simp only [List.map_append, List.map_cons, List.map_nil, Message.plain,
          Glyph.chars_append, Glyph.chars_ofString, chars_summaryLines, ofString_char]
    · simp

theorem chars_reduceLargest (messages : List (Message α)) :
    (reduceLargest messages).map (List.map Message.plain) =
      reduceLargest (messages.map Message.plain) := by
  induction messages with
  | nil => rfl
  | cons message rest ih =>
      have head : message.plain.content = Glyph.chars message.content := rfl
      simp only [reduceLargest, List.map_cons, maxEstimate_plain, head, estimateTokens_chars,
        ← chars_truncate]
      split
      · split
        · rfl
        · rfl
      · rw [← ih, Option.map_map, Option.map_map]
        rfl

theorem chars_shrink (messages : List (Message α)) (maxTokens : ℕ) :
    (shrink messages maxTokens).map Message.plain =
      shrink (messages.map Message.plain) maxTokens := by
  fun_induction shrink messages maxTokens with
  | case1 messages fits =>
      rw [shrink, if_pos (by rwa [totalTokens_plain])]
  | case2 messages exceeds stuck =>
      have plainStuck : reduceLargest (messages.map Message.plain) = none := by
        rw [← chars_reduceLargest, stuck, Option.map_none]
      rw [shrink, if_neg (by rwa [totalTokens_plain])]
      split
      · rfl
      · simp_all
  | case3 messages exceeds reduced isReduced ih =>
      have plainReduced :
          reduceLargest (messages.map Message.plain) = some (reduced.map Message.plain) := by
        rw [← chars_reduceLargest, isReduced, Option.map_some]
      rw [ih, shrink.eq_1 (messages.map Message.plain), if_neg (by rwa [totalTokens_plain])]
      split
      · simp_all
      · rename_i plainReduction isPlain
        rw [plainReduced] at isPlain
        cases isPlain
        rfl

/-- Fitting glyphs and then looking at the characters is fitting the characters. -/
theorem chars_fitMessages (messages : List (Message α)) (maxTokens keepRecent : ℕ) :
    (fitMessages messages maxTokens keepRecent).map Message.plain =
      fitMessages (messages.map Message.plain) maxTokens keepRecent := by
  rw [fitMessages, chars_shrink, chars_compressMessages, fitMessages]

end Fitting

end Aa.Sifter
