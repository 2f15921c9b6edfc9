import Aa.Sifter.Context.Compression

/-!
# Fitting reaches the budget

Halving a message replaces it by a text of half its tokens and the marker, which is smaller from
nine tokens on. The loop therefore stops above its budget only at messages of at most eight
tokens each.
-/

namespace Aa.Sifter

open Aa.Library

/-- Seven tenths of a positive number of characters leave some for the tail. -/
theorem headChars_lt {maxChars : ℕ} (isPositive : 0 < maxChars) : headChars maxChars < maxChars := by
  have first := Double.round53_le maxChars
  have second := Double.round53_le (Double.round53 maxChars * 3152519739159347)
  rw [headChars, Double.truncMul]
  omega

variable {α : Type} [Glyph α]

theorem length_truncateMarker : (Glyph.ofString truncateMarker : List α).length = 19 := by
  rw [← Glyph.length_chars, Glyph.chars_ofString]
  rfl

/-- A text that is cut comes out with the tokens it is cut to and those of the marker. -/
theorem estimateTokens_truncate {text : List α} {maxTokens : ℕ} (isPositive : 0 < maxTokens)
    (isCut : maxTokens < estimateTokens text) :
    estimateTokens (truncate text maxTokens) = maxTokens + 4 := by
  have head := headChars_lt (by omega : 0 < maxTokens * 4)
  have isLong : maxTokens * 4 ≤ text.length := by
    rw [estimateTokens] at isCut
    omega
  have isTail : maxTokens * 4 - headChars (maxTokens * 4) ≠ 0 := by omega
  have isLength : (truncate text maxTokens).length = maxTokens * 4 + 19 := by
    rw [truncate, if_neg (by omega)]
    dsimp only
    rw [Py.lastItems, if_neg isTail]
    simp only [List.length_append, List.length_take, List.length_drop, length_truncateMarker]
    omega
  rw [estimateTokens, isLength]
  omega

theorem maxEstimate_le_of_stuck {messages : List (Message α)}
    (isStuck : reduceLargest messages = none) : maxEstimate messages ≤ 8 := by
  induction messages with
  | nil => simp [maxEstimate]
  | cons message rest ih =>
      simp only [reduceLargest] at isStuck
      split at isStuck
      · rename_i isLargest
        split at isStuck
        · rename_i stops
          have few : estimateTokens message.content ≤ 8 := by
            by_contra isMany
            have cut : estimateTokens (truncate message.content
                (max 1 (estimateTokens message.content / 2))) =
                max 1 (estimateTokens message.content / 2) + 4 :=
              estimateTokens_truncate (by omega) (by omega)
            omega
          simp only [maxEstimate]
          omega
        · cases isStuck
      · rename_i notLargest
        have restStuck := ih (by simpa using isStuck)
        simp only [maxEstimate]
        omega

omit [Glyph α] in
theorem totalTokens_le_maxEstimate (messages : List (Message α)) :
    totalTokens messages ≤ maxEstimate messages * messages.length := by
  induction messages with
  | nil => simp [totalTokens]
  | cons message rest ih =>
      simp only [totalTokens, maxEstimate, List.length_cons]
      calc estimateTokens message.content + totalTokens rest
        _ ≤ estimateTokens message.content + maxEstimate rest * rest.length := by omega
        _ ≤ max (estimateTokens message.content) (maxEstimate rest) +
              max (estimateTokens message.content) (maxEstimate rest) * rest.length := by
            gcongr
            · exact le_max_left _ _
            · exact le_max_right _ _
        _ = max (estimateTokens message.content) (maxEstimate rest) * (rest.length + 1) := by ring

theorem length_reduceLargest {messages reduced : List (Message α)}
    (isReduced : reduceLargest messages = some reduced) : reduced.length = messages.length := by
  induction messages generalizing reduced with
  | nil => simp [reduceLargest] at isReduced
  | cons message rest ih =>
      simp only [reduceLargest] at isReduced
      split at isReduced
      · split at isReduced
        · cases isReduced
        · cases isReduced
          rfl
      · rcases Option.map_eq_some_iff.mp isReduced with ⟨restReduced, isRest, rfl⟩
        rw [List.length_cons, List.length_cons, ih isRest]

/-- The loop stops within its budget, or at eight tokens a message. -/
theorem totalTokens_shrink_le (messages : List (Message α)) (maxTokens : ℕ) :
    totalTokens (shrink messages maxTokens) ≤ max maxTokens (8 * messages.length) := by
  fun_induction shrink messages maxTokens with
  | case1 messages fits => exact fits.trans (le_max_left _ _)
  | case2 messages exceeds isStuck =>
      calc totalTokens messages ≤ maxEstimate messages * messages.length :=
            totalTokens_le_maxEstimate messages
        _ ≤ 8 * messages.length := by
            gcongr
            exact maxEstimate_le_of_stuck isStuck
        _ ≤ max maxTokens (8 * messages.length) := le_max_right _ _
  | case3 messages exceeds reduced isReduced ih => rwa [length_reduceLargest isReduced] at ih

theorem length_lastItems {item : Type} {count : ℕ} (isPositive : 0 < count) (items : List item) :
    (Py.lastItems count items).length = min count items.length := by
  rw [Py.lastItems, if_neg (by omega), List.length_drop]
  omega

/-- Compaction does not make more messages. -/
theorem length_compressMessages_le {keepRecent : ℕ} (isPositive : 0 < keepRecent)
    (messages : List (Message α)) (maxTokens : ℕ) :
    (compressMessages messages maxTokens keepRecent).length ≤ messages.length := by
  have parts : (messages.filter fun message => message.role = .system).length +
      (messages.filter fun message => message.role ≠ .system).length = messages.length := by
    simpa using (@List.length_eq_length_filter_add _ messages
      fun message => decide (message.role = .system)).symm
  have recent := length_lastItems isPositive (messages.filter fun message => message.role ≠ .system)
  unfold compressMessages
  split
  · exact le_rfl
  · dsimp only
    split
    · rename_i isLong
      split
      · rw [List.length_append]
        omega
      · simp only [List.length_append, List.length_cons, List.length_nil]
        omega
    · rw [if_pos List.isEmpty_nil, List.length_append]
      omega

/-- Fitted messages are within the budget, or at eight tokens a message. -/
theorem totalTokens_fitMessages_le (messages : List (Message α)) (maxTokens : ℕ) :
    totalTokens (fitMessages messages maxTokens) ≤ max maxTokens (8 * messages.length) := by
  have few := length_compressMessages_le (by decide : 0 < 6) messages maxTokens
  refine (totalTokens_shrink_le _ maxTokens).trans ?_
  exact max_le_max le_rfl (by omega)

end Aa.Sifter
