import Mathlib.Data.List.Forall2
import Mathlib.Logic.Relation
import Aa.Sifter.Context.Window

/-!
# When fitting fits

Every message of more than eight tokens can be halved until eight are left, and a message of eight
or fewer is never cut. Fitting therefore reaches exactly the budgets that leave eight tokens, or
its own if it has fewer, to every message that compaction keeps.
-/

namespace Aa.Sifter

open Aa.Library

variable {α : Type}

/-- The tokens that fitting cannot save: at most eight for each message. -/
def leastTokens : List (Message α) → ℕ
  | [] => 0
  | message :: rest => min (estimateTokens message.content) 8 + leastTokens rest

theorem leastTokens_append (first second : List (Message α)) :
    leastTokens (first ++ second) = leastTokens first + leastTokens second := by
  induction first with
  | nil => simp [leastTokens]
  | cons message rest ih =>
      simp only [List.cons_append, leastTokens, ih]
      omega

theorem leastTokens_le_totalTokens (messages : List (Message α)) :
    leastTokens messages ≤ totalTokens messages := by
  induction messages with
  | nil => exact le_refl _
  | cons message rest ih =>
      simp only [leastTokens, totalTokens]
      omega

theorem leastTokens_eq_of_maxEstimate_le {messages : List (Message α)}
    (few : maxEstimate messages ≤ 8) : leastTokens messages = totalTokens messages := by
  induction messages with
  | nil => rfl
  | cons message rest ih =>
      simp only [maxEstimate] at few
      simp only [leastTokens, totalTokens]
      have restFew := ih (by omega)
      omega

variable [Glyph α]

/-! ## What the loop keeps -/

/-- A message with the middle of its content cut out, which makes it smaller. -/
def Cut (message shorter : Message α) : Prop :=
  ∃ maxTokens, shorter = { message with content := truncate message.content maxTokens } ∧
    estimateTokens shorter.content < estimateTokens message.content

/-- A message that was cut any number of times, or never. -/
def Shortened : Message α → Message α → Prop := Relation.ReflTransGen Cut

/-- Every message is still there, possibly shortened. -/
abbrev AllShortened : List (Message α) → List (Message α) → Prop := List.Forall₂ Shortened

theorem AllShortened.refl (messages : List (Message α)) : AllShortened messages messages :=
  List.forall₂_same.mpr fun _ _ => .refl

theorem AllShortened.trans {first second third : List (Message α)}
    (left : AllShortened first second) (right : AllShortened second third) :
    AllShortened first third := by
  induction left generalizing third with
  | nil =>
      cases right
      exact .nil
  | cons shortened _ ih =>
      cases right with
      | cons later rest => exact .cons (Relation.ReflTransGen.trans shortened later) (ih rest)

/-- One turn of the loop cuts one message, and takes nothing from what cannot be saved. -/
theorem reduceLargest_keeps {messages reduced : List (Message α)}
    (isReduced : reduceLargest messages = some reduced) :
    leastTokens reduced = leastTokens messages ∧ AllShortened messages reduced := by
  induction messages generalizing reduced with
  | nil => simp [reduceLargest] at isReduced
  | cons message rest ih =>
      simp only [reduceLargest] at isReduced
      split at isReduced
      · split at isReduced
        · cases isReduced
        · rename_i shrinks
          cases isReduced
          have isCut : estimateTokens (truncate message.content
              (max 1 (estimateTokens message.content / 2))) =
              max 1 (estimateTokens message.content / 2) + 4 :=
            estimateTokens_truncate (by omega) (by omega)
          constructor
          · simp only [leastTokens]
            omega
          · refine .cons (.single ⟨_, rfl, ?_⟩) (AllShortened.refl rest)
            dsimp only
            omega
      · rcases Option.map_eq_some_iff.mp isReduced with ⟨restReduced, isRest, rfl⟩
        rcases ih isRest with ⟨sameLeast, shortened⟩
        constructor
        · simp only [leastTokens, sameLeast]
        · exact .cons .refl shortened

theorem shrink_shortened (messages : List (Message α)) (maxTokens : ℕ) :
    AllShortened messages (shrink messages maxTokens) := by
  fun_induction shrink messages maxTokens with
  | case1 messages fits => exact .refl messages
  | case2 messages exceeds isStuck => exact .refl messages
  | case3 messages exceeds reduced isReduced ih => exact (reduceLargest_keeps isReduced).2.trans ih

/-- The loop reaches exactly the budgets that cover what cannot be saved. -/
theorem totalTokens_shrink_le_iff {messages : List (Message α)} {maxTokens : ℕ} :
    totalTokens (shrink messages maxTokens) ≤ maxTokens ↔ leastTokens messages ≤ maxTokens := by
  fun_induction shrink messages maxTokens with
  | case1 messages fits =>
      have least := leastTokens_le_totalTokens messages
      omega
  | case2 messages exceeds isStuck =>
      rw [leastTokens_eq_of_maxEstimate_le (maxEstimate_le_of_stuck isStuck)]
  | case3 messages exceeds reduced isReduced ih => rw [ih, (reduceLargest_keeps isReduced).1]

/-! ## What compaction keeps -/

def systemMessages (messages : List (Message α)) : List (Message α) :=
  messages.filter fun message => message.role = .system

def otherMessages (messages : List (Message α)) : List (Message α) :=
  messages.filter fun message => message.role ≠ .system

/-- The tokens that a summary of older messages comes down to: eight if there is one. -/
def summaryTokens (messages : List (Message α)) (keepRecent : ℕ) : ℕ :=
  if 0 < keepRecent ∧ keepRecent < (otherMessages messages).length then 8 else 0

theorem length_ofString (text : String) :
    (Glyph.ofString text : List α).length = text.length := by
  rw [Glyph.ofString, List.length_map, String.length_toList]

theorem six_le_length_summaryPart (message : Message α) : 6 ≤ (summaryPart message).length := by
  have isRole : 6 ≤ (message.role.value ++ ": ").length := by
    cases message.role <;> decide
  rw [summaryPart, List.length_append, length_ofString]
  omega

theorem six_le_length_summaryLines {messages : List (Message α)} (nonempty : messages ≠ []) :
    6 ≤ (summaryLines messages).length := by
  cases messages with
  | nil => exact absurd rfl nonempty
  | cons message rest =>
      have first := six_le_length_summaryPart message
      cases rest with
      | nil => exact first
      | cons next later =>
          simp only [summaryLines, List.length_append]
          omega

/-- A summary has at least eight tokens. -/
theorem leastTokens_summary {older : List (Message α)} (nonempty : older ≠ []) :
    leastTokens [(⟨.system, Glyph.ofString "Compressed earlier context:\n" ++
      summaryLines older⟩ : Message α)] = 8 := by
  have lines := six_le_length_summaryLines nonempty
  have heading : (Glyph.ofString "Compressed earlier context:\n" : List α).length = 28 := by
    rw [length_ofString]
    rfl
  simp only [leastTokens, estimateTokens, List.length_append, heading]
  omega

/-- The messages that are left after compaction: a summary may stand between the system messages
and the latest others. -/
theorem compressMessages_parts {messages : List (Message α)} {maxTokens keepRecent : ℕ}
    (exceeds : ¬ totalTokens messages ≤ maxTokens) :
    ∃ summary, compressMessages messages maxTokens keepRecent =
        systemMessages messages ++ summary ++ Py.lastItems keepRecent (otherMessages messages) ∧
      leastTokens summary = summaryTokens messages keepRecent := by
  rw [compressMessages, if_neg exceeds]
  dsimp only
  generalize isOlder : (if keepRecent < (messages.filter fun message =>
      decide (message.role ≠ .system)).length then
    Py.allButLast keepRecent (messages.filter fun message => decide (message.role ≠ .system))
    else []) = older
  have isLong : 0 < keepRecent ∧ keepRecent < (otherMessages messages).length ↔ older ≠ [] := by
    rw [← isOlder, otherMessages]
    split
    · rename_i isMore
      by_cases isZero : keepRecent = 0
      · simp [isZero, Py.allButLast]
      · rw [Py.allButLast, if_neg isZero, ← List.length_pos_iff, List.length_take]
        omega
    · rename_i notMore
      exact ⟨fun isMore => absurd isMore.2 notMore, fun nonempty => absurd rfl nonempty⟩
  by_cases nonempty : older = []
  · rw [nonempty, if_pos List.isEmpty_nil, summaryTokens, if_neg (by simp [isLong, nonempty])]
    refine ⟨[], ?_, rfl⟩
    rw [List.append_nil]
    rfl
  · rw [if_neg (by simpa using nonempty), summaryTokens, if_pos (isLong.mpr nonempty)]
    exact ⟨_, rfl, leastTokens_summary nonempty⟩

theorem lastItems_sublist {item : Type} (count : ℕ) (items : List item) :
    (Py.lastItems count items).Sublist items := by
  rw [Py.lastItems]
  split
  · exact .refl items
  · exact List.drop_sublist _ _

theorem compressMessages_sublists (messages : List (Message α)) (maxTokens keepRecent : ℕ) :
    (systemMessages messages).Sublist (compressMessages messages maxTokens keepRecent) ∧
      (Py.lastItems keepRecent (otherMessages messages)).Sublist
        (compressMessages messages maxTokens keepRecent) := by
  by_cases fits : totalTokens messages ≤ maxTokens
  · rw [compressMessages, if_pos fits]
    exact ⟨List.filter_sublist, (lastItems_sublist _ _).trans List.filter_sublist⟩
  · rcases compressMessages_parts fits with ⟨summary, isCompressed, _⟩
    rw [isCompressed]
    constructor
    · rw [List.append_assoc]
      exact List.sublist_append_left _ _
    · exact List.sublist_append_right _ _

/-! ## When it fits -/

/-- There is room for the messages as they are, or for eight tokens of each that is kept. -/
def Spacious (messages : List (Message α)) (maxTokens keepRecent : ℕ) : Prop :=
  totalTokens messages ≤ maxTokens ∨
    leastTokens (systemMessages messages) + summaryTokens messages keepRecent +
      leastTokens (Py.lastItems keepRecent (otherMessages messages)) ≤ maxTokens

theorem leastTokens_compressMessages_le_iff {messages : List (Message α)}
    {maxTokens keepRecent : ℕ} :
    leastTokens (compressMessages messages maxTokens keepRecent) ≤ maxTokens ↔
      Spacious messages maxTokens keepRecent := by
  by_cases fits : totalTokens messages ≤ maxTokens
  · have least := leastTokens_le_totalTokens messages
    rw [compressMessages, if_pos fits]
    exact ⟨fun _ => .inl fits, fun _ => by omega⟩
  · rcases compressMessages_parts fits with ⟨summary, isCompressed, isSummary⟩
    rw [isCompressed, leastTokens_append, leastTokens_append, isSummary, Spacious,
      or_iff_right fits]

/-- What fitting is for: the estimates are within the budget, messages that fit are left alone,
and every system message and the latest others are there, in order and possibly shortened. -/
structure Fits (messages : List (Message α)) (maxTokens keepRecent : ℕ) : Prop where
  within : totalTokens (fitMessages messages maxTokens keepRecent) ≤ maxTokens
  unchanged : totalTokens messages ≤ maxTokens →
    fitMessages messages maxTokens keepRecent = messages
  systems : List.SublistForall₂ Shortened (systemMessages messages)
    (fitMessages messages maxTokens keepRecent)
  recent : List.SublistForall₂ Shortened (Py.lastItems keepRecent (otherMessages messages))
    (fitMessages messages maxTokens keepRecent)

/-- What is part of some messages is part of them shortened. -/
theorem AllShortened.sublist {part messages shorter : List (Message α)}
    (shortened : AllShortened messages shorter) (isPart : part.Sublist messages) :
    List.SublistForall₂ Shortened part shorter := by
  induction shortened generalizing part with
  | nil =>
      cases List.sublist_nil.mp isPart
      exact .nil
  | cons first _ ih =>
      cases isPart with
      | cons _ isPart => exact .cons_right (ih isPart)
      | cons_cons _ isPart => exact .cons first (ih isPart)

/-- Fitting fits exactly if the messages fit as they are or eight tokens of each message that is
kept do. -/
theorem fitMessages_fits_iff (messages : List (Message α)) (maxTokens keepRecent : ℕ) :
    Fits messages maxTokens keepRecent ↔ Spacious messages maxTokens keepRecent := by
  have reached : totalTokens (fitMessages messages maxTokens keepRecent) ≤ maxTokens ↔
      Spacious messages maxTokens keepRecent := by
    rw [fitMessages, totalTokens_shrink_le_iff, leastTokens_compressMessages_le_iff]
  have shortened : AllShortened (compressMessages messages maxTokens keepRecent)
      (fitMessages messages maxTokens keepRecent) := shrink_shortened _ _
  rcases compressMessages_sublists messages maxTokens keepRecent with ⟨systems, recent⟩
  constructor
  · intro fits
    exact reached.mp fits.within
  · intro spacious
    exact
      { within := reached.mpr spacious
        unchanged := fitMessages_of_total_le
        systems := shortened.sublist systems
        recent := shortened.sublist recent }

/-- A question of thirty-two characters. -/
def question : List (Message Char) := [⟨.user, List.replicate 32 'x'⟩]

/-- It is the one message that is kept, and stays at eight tokens with a budget of one. -/
theorem question_not_fitted :
    (compressMessages question 1 6).length ≤ 1 ∧ ¬ Fits question 1 6 := by
  refine ⟨by decide, fun fits => ?_⟩
  have least := totalTokens_shrink_le_iff.mp fits.within
  exact absurd least (by decide)

end Aa.Sifter
