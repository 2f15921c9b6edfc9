import Mathlib.Algebra.BigOperators.Group.List.Basic
import Mathlib.Algebra.Order.BigOperators.Group.List
import Mathlib.Algebra.Ring.Int.Defs
import Aa.Kernel.Evidence

/-!
# When a compiled context depends on the order of its inputs

The compiler sorts its inputs by kind and id and includes them until the budget is exhausted.
The sort leaves the order of inputs of the same kind and id open, so that their texts compete:
which of them comes first decides what is kept, what is truncated and what is dropped. The
order is without effect exactly if inputs of the same kind and id with different texts come
after the budget is exhausted, or are cut there to the same text.
-/

namespace Aa.Kernel.Context

open Aa.Library

/-- What `sort.Slice` promises, and that it leaves a sorted list as it is. It is not stable. -/
structure SortsSlice (sort : List Input → List Input) : Prop where
  perm : ∀ inputs, (sort inputs).Perm inputs
  sorted : ∀ inputs, (sort inputs).Pairwise precedes
  stays : ∀ inputs, inputs.Pairwise precedes → sort inputs = inputs

def budgetOf (maxTokens : ℤ) : ℤ := if maxTokens ≤ 0 then defaultMaxTokens else maxTokens

/-- The bundle of sorted inputs. -/
def bundleOf (sha256Hex : String → String) (maxTokens : ℤ) (projectId workPackageId : String)
    (sorted : List Input) : Bundle :=
  let (sections, used, truncated) := includeInputs (budgetOf maxTokens) 0 sorted
  let bundle : Bundle :=
    { projectId := projectId
      workPackageId := workPackageId
      sections := sections
      tokenBudget := budgetOf maxTokens
      tokensUsed := used
      truncated := truncated }
  { bundle with digest := sha256Hex (digestText bundle) }

/-- The compiler over a sort. -/
def compileWith (sort : List Input → List Input) (sha256Hex : String → String) (maxTokens : ℤ)
    (projectId workPackageId : String) (inputs : List Input) : Bundle :=
  bundleOf sha256Hex maxTokens projectId workPackageId (sort inputs)

theorem compile_eq_compileWith (sha256Hex : String → String) (maxTokens : ℤ)
    (projectId workPackageId : String) (inputs : List Input) :
    compile sha256Hex maxTokens projectId workPackageId inputs =
      compileWith (·.insertionSort precedes) sha256Hex maxTokens projectId workPackageId inputs :=
  rfl

/-- Two texts are cut to the same one where `remaining` tokens are left: both are truncated, or
one is and the other one takes all that is left. -/
def CutAlike (remaining : ℤ) (first second : String) : Prop :=
  truncateToTokens first remaining = truncateToTokens second remaining ∧
    ((remaining < estimateTokens first ∧ remaining < estimateTokens second) ∨
      remaining ≤ estimateTokens (truncateToTokens first remaining))

instance (remaining : ℤ) (first second : String) : Decidable (CutAlike remaining first second) :=
  inferInstanceAs (Decidable (_ ∧ _))

/-- The tokens of the inputs that precede an input strictly. -/
def tokensBefore (input : Input) (inputs : List Input) : ℤ :=
  ((inputs.filter fun other => ¬ precedes input other).map (estimateTokens ·.text)).sum

/-- Inputs of the same kind and id with different texts come after the budget is exhausted, or
are cut to the same text. -/
def Settled (budget : ℤ) (inputs : List Input) : Prop :=
  ∀ first ∈ inputs, ∀ second ∈ inputs, first.kind = second.kind → first.id = second.id →
    first.text ≠ "" → second.text ≠ "" → first.text ≠ second.text →
      budget ≤ tokensBefore first inputs ∨
        CutAlike (budget - tokensBefore first inputs) first.text second.text

instance (budget : ℤ) (inputs : List Input) : Decidable (Settled budget inputs) :=
  inferInstanceAs (Decidable (∀ first ∈ inputs, _))

/-! ## The order of inputs -/

theorem precedes_trans {first second third : Input} (left : precedes first second)
    (right : precedes second third) : precedes first third := by
  unfold precedes at *
  rcases left with kind | ⟨kind, id⟩
  · rcases right with kind' | ⟨kind', -⟩
    · exact .inl (lt_trans kind kind')
    · exact .inl (kind' ▸ kind)
  · rcases right with kind' | ⟨kind', id'⟩
    · exact .inl (kind ▸ kind')
    · exact .inr ⟨kind.trans kind', le_trans id id'⟩

theorem precedes_total (first second : Input) : precedes first second ∨ precedes second first := by
  unfold precedes
  rcases lt_trichotomy first.kind second.kind with less | same | more
  · exact .inl (.inl less)
  · rcases le_total first.id second.id with id | id
    · exact .inl (.inr ⟨same, id⟩)
    · exact .inr (.inr ⟨same.symm, id⟩)
  · exact .inr (.inl more)

instance : Std.Total precedes := ⟨precedes_total⟩

instance : IsTrans Input precedes := ⟨fun _ _ _ => precedes_trans⟩

theorem precedes_of_same {first second : Input} (kind : first.kind = second.kind)
    (id : first.id = second.id) : precedes first second :=
  .inr ⟨kind, le_of_eq id⟩

theorem same_of_precedes {first second : Input} (left : precedes first second)
    (right : precedes second first) : first.kind = second.kind ∧ first.id = second.id := by
  unfold precedes at *
  rcases left with kind | ⟨kind, id⟩
  · rcases right with kind' | ⟨kind', -⟩
    · exact absurd kind' (lt_asymm kind)
    · exact absurd kind (kind' ▸ lt_irrefl _)
  · rcases right with kind' | ⟨-, id'⟩
    · exact absurd kind' (kind ▸ lt_irrefl _)
    · exact ⟨kind, le_antisymm id id'⟩

/-! ## Tokens -/

@[simp] theorem estimateTokens_empty : estimateTokens "" = 0 := rfl

theorem estimateTokens_nonneg (text : String) : 0 ≤ estimateTokens text := by
  unfold estimateTokens
  omega

theorem estimateTokens_pos {text : String} (nonempty : text ≠ "") : 1 ≤ estimateTokens text := by
  have length : text.toList.length ≠ 0 := by
    intro isZero
    exact nonempty (String.toList_eq_nil_iff.mp (List.length_eq_zero_iff.mp isZero))
  unfold estimateTokens
  omega

/-- A text that fits is not truncated. -/
theorem truncateToTokens_of_fits {text : String} {remaining : ℤ}
    (fits : estimateTokens text ≤ remaining) : truncateToTokens text remaining = text := by
  unfold estimateTokens at fits
  rw [truncateToTokens, if_pos (by omega)]

theorem truncateToTokens_ne_empty {text : String} {remaining : ℤ} (positive : 0 < remaining)
    (nonempty : text ≠ "") : truncateToTokens text remaining ≠ "" := by
  simp only [truncateToTokens]
  split
  · exact nonempty
  · rw [if_neg (by omega)]
    intro isEmpty
    have chars := congrArg String.toList isEmpty
    simp [String.toList_append] at chars

/-! ## Inclusion -/

variable {budget used : ℤ}

theorem includeInputs_filter (inputs : List Input) :
    includeInputs budget used (inputs.filter (·.text ≠ "")) = includeInputs budget used inputs := by
  induction inputs generalizing used with
  | nil => rfl
  | cons input rest ih =>
      by_cases isEmpty : input.text = ""
      · rw [List.filter_cons_of_neg (by simp [isEmpty]), includeInputs, if_pos isEmpty, ih]
      · rw [List.filter_cons_of_pos (by simp [isEmpty]), includeInputs, includeInputs,
          if_neg isEmpty, if_neg isEmpty]
        simp only [ih]

/-- An input that fits. -/
theorem includeInputs_of_fits {input : Input} {rest : List Input} (nonempty : input.text ≠ "")
    (fits : estimateTokens input.text ≤ budget - used) :
    includeInputs budget used (input :: rest) =
      let later := includeInputs budget (used + estimateTokens input.text) rest
      (⟨input.kind, input.id, input.text, estimateTokens input.text⟩ :: later.1, later.2) := by
  rw [includeInputs, if_neg nonempty]
  simp only
  rw [if_pos (by omega)]

/-- An input that is truncated. -/
theorem includeInputs_of_cut {input : Input} {rest : List Input} (nonempty : input.text ≠ "")
    (long : budget - used < estimateTokens input.text) (positive : 0 < budget - used) :
    includeInputs budget used (input :: rest) =
      let cut := truncateToTokens input.text (budget - used)
      ([⟨input.kind, input.id, cut, estimateTokens cut⟩], used + estimateTokens cut, true) := by
  rw [includeInputs, if_neg nonempty]
  simp only
  rw [if_neg (by omega), if_neg (by omega), if_neg (truncateToTokens_ne_empty positive nonempty)]

/-- Where the budget is exhausted, the next text that is not empty ends the inclusion. -/
theorem includeInputs_of_exhausted {input : Input} {rest : List Input}
    (nonempty : input.text ≠ "") (exhausted : budget - used ≤ 0) :
    includeInputs budget used (input :: rest) = ([], used, true) := by
  have positive := estimateTokens_pos nonempty
  rw [includeInputs, if_neg nonempty]
  simp only
  rw [if_neg (by omega), if_pos exhausted]

/-! ## Settled inputs -/

theorem tokensBefore_cons (input first : Input) (rest : List Input) :
    tokensBefore input (first :: rest) =
      (if precedes input first then 0 else estimateTokens first.text) +
        tokensBefore input rest := by
  by_cases isBefore : precedes input first
  · simp [tokensBefore, isBefore]
  · simp [tokensBefore, isBefore]

theorem tokensBefore_perm {input : Input} {inputs others : List Input}
    (perm : inputs.Perm others) : tokensBefore input inputs = tokensBefore input others :=
  ((perm.filter _).map _).sum_eq

theorem tokensBefore_filter (input : Input) (inputs : List Input) :
    tokensBefore input (inputs.filter (·.text ≠ "")) = tokensBefore input inputs := by
  induction inputs with
  | nil => rfl
  | cons first rest ih =>
      by_cases isEmpty : first.text = ""
      · rw [List.filter_cons_of_neg (by simp [isEmpty]), tokensBefore_cons, ih]
        simp [isEmpty]
      · rw [List.filter_cons_of_pos (by simp [isEmpty]), tokensBefore_cons, tokensBefore_cons, ih]

/-- No input comes before the first of sorted inputs, or before another one of its kind and
id. -/
theorem tokensBefore_of_sorted {input : Input} {inputs : List Input}
    (first : ∀ other ∈ inputs, precedes input other) : tokensBefore input inputs = 0 := by
  have isNil : (inputs.filter fun other => ¬ precedes input other) = [] :=
    List.filter_eq_nil_iff.mpr fun other isThere => by simpa using first other isThere
  rw [tokensBefore, isNil]
  rfl

theorem precedes_of_sorted {input first : Input} {rest : List Input}
    (sorted : (first :: rest).Pairwise precedes) (same : precedes input first) :
    ∀ other ∈ first :: rest, precedes input other := by
  intro other isThere
  rcases List.mem_cons.mp isThere with rfl | later
  · exact same
  · exact precedes_trans same (List.rel_of_pairwise_cons sorted later)

theorem Settled.perm {inputs others : List Input} (perm : inputs.Perm others)
    (settled : Settled budget inputs) : Settled budget others := by
  intro first isFirst second isSecond kind id firstNonempty secondNonempty differ
  rw [← tokensBefore_perm perm]
  exact settled first (perm.mem_iff.mpr isFirst) second (perm.mem_iff.mpr isSecond) kind id
    firstNonempty secondNonempty differ

theorem Settled.filter {inputs : List Input} (settled : Settled budget inputs) :
    Settled budget (inputs.filter (·.text ≠ "")) := by
  intro first isFirst second isSecond
  rw [tokensBefore_filter]
  exact settled first (List.mem_of_mem_filter isFirst) second (List.mem_of_mem_filter isSecond)

/-- Of settled inputs, the first one and a different one of its kind and id compete for what is
left of the budget. -/
theorem Settled.competing {input other : Input} {rest : List Input}
    (settled : Settled budget (input :: rest)) (sorted : (input :: rest).Pairwise precedes)
    (isOther : other ∈ input :: rest) (kind : input.kind = other.kind) (id : input.id = other.id)
    (nonempty : input.text ≠ "") (otherNonempty : other.text ≠ "")
    (differ : input.text ≠ other.text) :
    budget ≤ 0 ∨ CutAlike budget input.text other.text := by
  have competing := settled input List.mem_cons_self other isOther kind id nonempty otherNonempty
    differ
  rw [tokensBefore_of_sorted (precedes_of_sorted sorted (precedes_of_same rfl rfl)),
    Int.sub_zero] at competing
  exact competing

/-- The rest of settled inputs after one that fits is settled. -/
theorem Settled.rest {input : Input} {rest : List Input}
    (settled : Settled budget (input :: rest)) (sorted : (input :: rest).Pairwise precedes)
    (nonempty : input.text ≠ "") (fits : estimateTokens input.text ≤ budget) :
    Settled (budget - estimateTokens input.text) rest := by
  intro first isFirst second isSecond kind id firstNonempty secondNonempty differ
  by_cases isTied : precedes first input
  · -- one of the two differs from the tied input, which takes all that is left
    have tied := same_of_precedes isTied (List.rel_of_pairwise_cons sorted isFirst)
    have exhausted : ∀ other ∈ rest, input.kind = other.kind → input.id = other.id →
        other.text ≠ "" → input.text ≠ other.text → budget ≤ estimateTokens input.text := by
      intro other isOther otherKind otherId otherNonempty otherDiffers
      have positive := estimateTokens_pos nonempty
      rcases settled.competing sorted (List.mem_cons_of_mem _ isOther) otherKind otherId nonempty
        otherNonempty otherDiffers with isLess | ⟨-, both | whole⟩
      · omega
      · omega
      · rwa [truncateToTokens_of_fits fits] at whole
    have isNone : tokensBefore first rest = 0 :=
      tokensBefore_of_sorted fun other isOther =>
        precedes_of_sorted sorted isTied other (List.mem_cons_of_mem _ isOther)
    rw [isNone]
    refine .inl ?_
    by_cases sameText : input.text = first.text
    · have taken := exhausted second isSecond (tied.1.symm.trans kind) (tied.2.symm.trans id)
        secondNonempty (sameText ▸ differ)
      omega
    · have taken := exhausted first isFirst tied.1.symm tied.2.symm firstNonempty sameText
      omega
  · have competing := settled first (List.mem_cons_of_mem _ isFirst) second
      (List.mem_cons_of_mem _ isSecond) kind id firstNonempty secondNonempty differ
    rw [tokensBefore_cons, if_neg isTied] at competing
    rw [Int.sub_sub]
    rcases competing with isLess | alike
    · exact .inl (by omega)
    · exact .inr alike

theorem CutAlike.symm {remaining : ℤ} {first second : String}
    (alike : CutAlike remaining first second) : CutAlike remaining second first := by
  rcases alike with ⟨cuts, both | whole⟩
  · exact ⟨cuts.symm, .inl both.symm⟩
  · exact ⟨cuts.symm, .inr (cuts ▸ whole)⟩

/-- An input that takes all that is left, before others, does what an input that is cut to it
does. -/
theorem includeInputs_of_alike {first second : Input} {rest later : List Input}
    (kind : first.kind = second.kind) (id : first.id = second.id) (nonempty : first.text ≠ "")
    (otherNonempty : second.text ≠ "") (fits : estimateTokens first.text ≤ budget - used)
    (long : budget - used < estimateTokens second.text)
    (alike : CutAlike (budget - used) first.text second.text) (isRest : rest ≠ [])
    (nonemptyRest : ∀ input ∈ rest, input.text ≠ "") :
    includeInputs budget used (first :: rest) = includeInputs budget used (second :: later) := by
  rcases alike with ⟨cuts, both | whole⟩
  · omega
  · have positive := estimateTokens_pos nonempty
    rw [truncateToTokens_of_fits fits] at cuts whole
    rcases List.exists_cons_of_ne_nil isRest with ⟨next, more, rfl⟩
    rw [includeInputs_of_fits nonempty fits,
      includeInputs_of_cut otherNonempty long (by omega), ← cuts,
      includeInputs_of_exhausted (nonemptyRest next List.mem_cons_self) (by omega), kind, id]

/-- What follows an input is not empty if another one is listed. -/
theorem rest_ne_nil {input other : Input} {rest : List Input} (isThere : other ∈ input :: rest)
    (differ : other ≠ input) : rest ≠ [] := by
  rintro rfl
  exact differ (List.mem_singleton.mp isThere)

/-- Different inputs at the front that are cut alike. -/
theorem includeInputs_of_cutAlike {first second : Input} {rest later : List Input}
    (kind : first.kind = second.kind) (id : first.id = second.id)
    (nonempty : ∀ input ∈ first :: rest, input.text ≠ "")
    (otherNonempty : ∀ input ∈ second :: later, input.text ≠ "")
    (isSecond : second ∈ first :: rest) (isFirst : first ∈ second :: later)
    (differ : first.text ≠ second.text) (positive : 0 < budget - used)
    (alike : CutAlike (budget - used) first.text second.text) :
    includeInputs budget used (first :: rest) = includeInputs budget used (second :: later) := by
  have firstNonempty := nonempty first List.mem_cons_self
  have secondNonempty := otherNonempty second List.mem_cons_self
  have distinct : first ≠ second := fun same => differ (congrArg Input.text same)
  by_cases fits : estimateTokens first.text ≤ budget - used
  · by_cases otherFits : estimateTokens second.text ≤ budget - used
    · have cuts := alike.1
      rw [truncateToTokens_of_fits fits, truncateToTokens_of_fits otherFits] at cuts
      exact absurd cuts differ
    · exact includeInputs_of_alike kind id firstNonempty secondNonempty fits (by omega) alike
        (rest_ne_nil isSecond distinct.symm)
        (fun input isThere => nonempty input (List.mem_cons_of_mem _ isThere))
  · by_cases otherFits : estimateTokens second.text ≤ budget - used
    · exact (includeInputs_of_alike kind.symm id.symm secondNonempty firstNonempty otherFits
        (by omega) alike.symm (rest_ne_nil isFirst distinct)
        (fun input isThere => otherNonempty input (List.mem_cons_of_mem _ isThere))).symm
    · rw [includeInputs_of_cut firstNonempty (by omega) positive,
        includeInputs_of_cut secondNonempty (by omega) positive, alike.1, kind, id]

/-- Settled inputs in another sorted order are included alike. -/
theorem includeInputs_of_settled {inputs others : List Input} (perm : inputs.Perm others)
    (sorted : inputs.Pairwise precedes) (othersSorted : others.Pairwise precedes)
    (nonempty : ∀ input ∈ inputs, input.text ≠ "") (settled : Settled (budget - used) inputs) :
    includeInputs budget used inputs = includeInputs budget used others := by
  induction inputs generalizing used others with
  | nil => rw [List.nil_perm.mp perm]
  | cons input rest ih =>
      cases others with
      | nil => exact absurd perm (by simp)
      | cons other later =>
          have isOther : other ∈ input :: rest := perm.mem_iff.mpr List.mem_cons_self
          have isInput : input ∈ other :: later := perm.mem_iff.mp List.mem_cons_self
          have left : precedes input other :=
            precedes_of_sorted sorted (precedes_of_same rfl rfl) other isOther
          have right : precedes other input :=
            precedes_of_sorted othersSorted (precedes_of_same rfl rfl) input isInput
          rcases same_of_precedes left right with ⟨kind, id⟩
          have inputNonempty := nonempty input List.mem_cons_self
          have otherNonempty := nonempty other isOther
          by_cases exhausted : budget - used ≤ 0
          · rw [includeInputs_of_exhausted inputNonempty exhausted,
              includeInputs_of_exhausted otherNonempty exhausted]
          · by_cases sameText : input.text = other.text
            · have same : input = other := Input.ext kind id sameText
              subst same
              by_cases fits : estimateTokens input.text ≤ budget - used
              · have later := settled.rest sorted inputNonempty fits
                rw [Int.sub_sub] at later
                rw [includeInputs_of_fits inputNonempty fits,
                  includeInputs_of_fits inputNonempty fits,
                  ih ((List.perm_cons input).mp perm) sorted.of_cons othersSorted.of_cons
                    (fun next isNext => nonempty next (List.mem_cons_of_mem _ isNext)) later]
              · rw [includeInputs_of_cut inputNonempty (by omega) (by omega),
                  includeInputs_of_cut inputNonempty (by omega) (by omega)]
            · rcases settled.competing sorted isOther kind id inputNonempty otherNonempty
                sameText with isLess | alike
              · omega
              · exact includeInputs_of_cutAlike kind id nonempty
                  (fun next isNext => nonempty next (perm.mem_iff.mpr isNext)) isOther isInput
                  sameText (by omega) alike

/-! ## Orders that show a competition -/

theorem includeInputs_append (budget used : ℤ) (early : List Input) :
    (early.map (estimateTokens ·.text)).sum ≤ budget - used →
      ∃ sections, ∀ rest, (includeInputs budget used (early ++ rest)).1 = sections ++
        (includeInputs budget (used + (early.map (estimateTokens ·.text)).sum) rest).1 := by
  induction early generalizing used with
  | nil =>
      intro _
      exact ⟨[], fun rest => by simp⟩
  | cons input early ih =>
      intro fits
      rw [List.map_cons, List.sum_cons] at fits
      by_cases isEmpty : input.text = ""
      · rw [isEmpty, estimateTokens_empty, Int.zero_add] at fits
        rcases ih used fits with ⟨sections, included⟩
        refine ⟨sections, fun rest => ?_⟩
        rw [List.cons_append, includeInputs, if_pos isEmpty, included, List.map_cons,
          List.sum_cons, isEmpty, estimateTokens_empty, Int.zero_add]
      · have nonnegative : 0 ≤ (early.map (estimateTokens ·.text)).sum :=
          List.sum_nonneg (by simp [estimateTokens_nonneg])
        rcases ih (used + estimateTokens input.text) (by omega) with ⟨sections, included⟩
        refine ⟨⟨input.kind, input.id, input.text, estimateTokens input.text⟩ :: sections,
          fun rest => ?_⟩
        rw [List.cons_append, includeInputs_of_fits isEmpty (by omega)]
        simp only [included, List.map_cons, List.sum_cons, List.cons_append, Int.add_assoc]

/-- What is left of the budget is given to the next text that is not empty. -/
theorem exhausted_of_no_sections {input : Input} {rest : List Input} (nonempty : input.text ≠ "")
    (isNone : (includeInputs budget used (input :: rest)).1 = []) : budget - used ≤ 0 := by
  by_contra positive
  by_cases fits : estimateTokens input.text ≤ budget - used
  · rw [includeInputs_of_fits nonempty fits] at isNone
    simp at isNone
  · rw [includeInputs_of_cut nonempty (by omega) (by omega)] at isNone
    simp at isNone

/-- Two inputs at the front whose order leaves the sections alone are cut alike. -/
theorem cutAlike_of_sections {first second : Input} {late : List Input}
    (nonempty : first.text ≠ "") (otherNonempty : second.text ≠ "")
    (differ : first.text ≠ second.text) (positive : 0 < budget - used)
    (same : (includeInputs budget used (first :: second :: late)).1 =
      (includeInputs budget used (second :: first :: late)).1) :
    CutAlike (budget - used) first.text second.text := by
  by_cases fits : estimateTokens first.text ≤ budget - used
  · rw [includeInputs_of_fits nonempty fits] at same
    by_cases otherFits : estimateTokens second.text ≤ budget - used
    · rw [includeInputs_of_fits otherNonempty otherFits] at same
      simp [differ] at same
    · rw [includeInputs_of_cut otherNonempty (by omega) positive] at same
      simp only [List.cons.injEq, Section.mk.injEq] at same
      rcases same with ⟨⟨-, -, cut, -⟩, isNone⟩
      have exhausted := exhausted_of_no_sections otherNonempty isNone
      have alike : truncateToTokens first.text (budget - used) = first.text :=
        truncateToTokens_of_fits fits
      exact ⟨alike.trans cut, .inr (by rw [alike]; omega)⟩
  · rw [includeInputs_of_cut nonempty (by omega) positive] at same
    by_cases otherFits : estimateTokens second.text ≤ budget - used
    · rw [includeInputs_of_fits otherNonempty otherFits] at same
      simp only [List.cons.injEq, Section.mk.injEq] at same
      rcases same with ⟨⟨-, -, cut, -⟩, isNone⟩
      have exhausted := exhausted_of_no_sections nonempty isNone.symm
      have alike : truncateToTokens second.text (budget - used) = second.text :=
        truncateToTokens_of_fits otherFits
      exact ⟨cut.trans alike.symm, .inr (by rw [cut]; omega)⟩
    · rw [includeInputs_of_cut otherNonempty (by omega) positive] at same
      simp only [List.cons.injEq, Section.mk.injEq] at same
      exact ⟨same.1.2.2.1, .inl ⟨by omega, by omega⟩⟩

/-- Inputs can be listed in order with two of the same kind and id next to each other. -/
theorem exists_listing {inputs : List Input} {first second : Input} (isFirst : first ∈ inputs)
    (isSecond : second ∈ inputs) (kind : first.kind = second.kind) (id : first.id = second.id)
    (distinct : first ≠ second) :
    ∃ early late, (early ++ first :: second :: late).Perm inputs ∧
      (early.map (estimateTokens ·.text)).sum = tokensBefore first inputs ∧
      (early ++ first :: second :: late).Pairwise precedes ∧
      (early ++ second :: first :: late).Pairwise precedes := by
  let early := inputs.filter fun other => ¬ precedes first other
  let tied := inputs.filter fun other => precedes first other
  let late := (tied.erase first).erase second
  have forward : precedes first second := precedes_of_same kind id
  have backward : precedes second first := precedes_of_same kind.symm id.symm
  have lateTied : ∀ other ∈ late, precedes first other := by
    intro other isLate
    have isTied := List.mem_of_mem_erase (List.mem_of_mem_erase isLate)
    simpa using (List.mem_filter.mp isTied).2
  have earlyBefore : ∀ other ∈ early, ¬ precedes first other := by
    intro other isEarly
    simpa using (List.mem_filter.mp isEarly).2
  have tiedPerm : (first :: second :: late).Perm tied := by
    have isTied : first ∈ tied :=
      List.mem_filter.mpr ⟨isFirst, by simpa using precedes_of_same rfl rfl⟩
    have isOther : second ∈ tied.erase first :=
      (List.mem_erase_of_ne distinct.symm).mpr (List.mem_filter.mpr ⟨isSecond, by simpa⟩)
    exact ((List.perm_cons_erase isOther).cons first).symm.trans (List.perm_cons_erase isTied).symm
  -- both pairs stay in order, since each of the two precedes whatever the first one precedes
  have inOrder : ∀ left right : Input, precedes first left → precedes left first →
      precedes left right → precedes right first → precedes first right →
      (early.insertionSort precedes ++ left :: right :: late.insertionSort precedes).Pairwise
        precedes := by
    intro left right toLeft ofLeft pair ofRight toRight
    refine List.pairwise_append.mpr ⟨List.pairwise_insertionSort precedes _, ?_, ?_⟩
    · simp only [List.pairwise_cons, List.mem_cons, List.mem_insertionSort, forall_eq_or_imp]
      exact ⟨⟨pair, fun other isLate => precedes_trans ofLeft (lateTied other isLate)⟩,
        fun other isLate => precedes_trans ofRight (lateTied other isLate),
        List.pairwise_insertionSort precedes _⟩
    · intro other isEarly next isNext
      have isBefore : precedes other first :=
        (precedes_total other first).resolve_right
          (earlyBefore other ((List.mem_insertionSort precedes).mp isEarly))
      simp only [List.mem_cons, List.mem_insertionSort] at isNext
      rcases isNext with rfl | rfl | isLate
      · exact precedes_trans isBefore toLeft
      · exact precedes_trans isBefore toRight
      · exact precedes_trans isBefore (lateTied next isLate)
  refine ⟨early.insertionSort precedes, late.insertionSort precedes, ?_, ?_, ?_, ?_⟩
  · have tail : (first :: second :: late.insertionSort precedes).Perm tied :=
      (((List.perm_insertionSort precedes late).cons second).cons first).trans tiedPerm
    have parts : (tied ++ early).Perm inputs := by
      simpa [tied, early] using List.filter_append_perm (fun other => decide (precedes first other))
        inputs
    exact (((List.perm_insertionSort precedes early).append tail).trans
      List.perm_append_comm).trans parts
  · exact ((List.perm_insertionSort precedes early).map _).sum_eq
  · exact inOrder first second (precedes_of_same rfl rfl) (precedes_of_same rfl rfl) forward
      backward forward
  · exact inOrder second first forward backward backward (precedes_of_same rfl rfl)
      (precedes_of_same rfl rfl)

/-! ## The compiler -/

theorem bundleOf_sections (sha256Hex : String → String) (maxTokens : ℤ)
    (projectId workPackageId : String) (sorted : List Input) :
    (bundleOf sha256Hex maxTokens projectId workPackageId sorted).sections =
      (includeInputs (budgetOf maxTokens) 0 sorted).1 :=
  rfl

theorem bundleOf_congr (sha256Hex : String → String) (maxTokens : ℤ)
    (projectId workPackageId : String) {sorted others : List Input}
    (same : includeInputs (budgetOf maxTokens) 0 sorted =
      includeInputs (budgetOf maxTokens) 0 others) :
    bundleOf sha256Hex maxTokens projectId workPackageId sorted =
      bundleOf sha256Hex maxTokens projectId workPackageId others := by
  simp only [bundleOf, same]

/-- Every order of the inputs gives the same bundle exactly if the inputs are settled. -/
theorem compileWith_orderIndependent_iff {sort : List Input → List Input}
    (sorts : SortsSlice sort) (sha256Hex : String → String) (maxTokens : ℤ)
    (projectId workPackageId : String) (inputs : List Input) :
    (∀ listed, listed.Perm inputs →
      compileWith sort sha256Hex maxTokens projectId workPackageId listed =
        compileWith sort sha256Hex maxTokens projectId workPackageId inputs) ↔
      Settled (budgetOf maxTokens) inputs := by
  constructor
  · intro independent first isFirst second isSecond kind id nonempty otherNonempty differ
    by_cases isLess : budgetOf maxTokens ≤ tokensBefore first inputs
    · exact .inl isLess
    refine .inr ?_
    have distinct : first ≠ second := fun same => differ (congrArg Input.text same)
    rcases exists_listing isFirst isSecond kind id distinct with
      ⟨early, late, perm, total, sorted, swapped⟩
    have swap : (early ++ second :: first :: late).Perm inputs :=
      ((List.Perm.swap first second late).append_left early).trans perm
    have same := (independent _ perm).trans (independent _ swap).symm
    rw [compileWith, compileWith, sorts.stays _ sorted, sorts.stays _ swapped] at same
    have sections := congrArg Bundle.sections same
    rw [bundleOf_sections, bundleOf_sections] at sections
    rcases includeInputs_append (budgetOf maxTokens) 0 early (by omega) with
      ⟨initial, included⟩
    rw [included, included, total, Int.zero_add] at sections
    exact cutAlike_of_sections nonempty otherNonempty differ (by omega)
      (List.append_cancel_left sections)
  · intro settled listed perm
    apply bundleOf_congr
    have sorted : (sort inputs).Perm (sort listed) :=
      (sorts.perm inputs).trans (perm.symm.trans (sorts.perm listed).symm)
    have isSettled := (settled.perm (sorts.perm inputs).symm).filter
    rw [← includeInputs_filter (sort listed), ← includeInputs_filter (sort inputs)]
    refine (includeInputs_of_settled (sorted.filter _) ((sorts.sorted inputs).filter _)
      ((sorts.sorted listed).filter _) (fun input isThere => ?_) (by simpa using isSettled)).symm
    simpa using (List.mem_filter.mp isThere).2

theorem insertionSort_sortsSlice : SortsSlice (·.insertionSort precedes) where
  perm := List.perm_insertionSort precedes
  sorted := List.pairwise_insertionSort precedes
  stays := fun _ => List.Pairwise.insertionSort_eq

/-- Two inputs of one kind and id, where both are cut to the same text. -/
theorem compileWith_alike :
    compileWith (·.insertionSort precedes) (fun _ => "") 1 "p" "w"
        [⟨"memory", "m1", "aaaac"⟩, ⟨"memory", "m1", "aaaab"⟩] =
      compileWith (·.insertionSort precedes) (fun _ => "") 1 "p" "w"
        [⟨"memory", "m1", "aaaab"⟩, ⟨"memory", "m1", "aaaac"⟩] :=
  (compileWith_orderIndependent_iff insertionSort_sortsSlice (fun _ => "") 1 "p" "w" _).mpr
    (by decide +kernel) _ (List.Perm.swap _ _ _)

/-- Which of two inputs of one kind and id comes first is told by the bundle. -/
theorem compile_orderDependent :
    ¬ ∀ (sha256Hex : String → String) (maxTokens : ℤ) (projectId workPackageId : String)
      (inputs listed : List Input), listed.Perm inputs →
        compile sha256Hex maxTokens projectId workPackageId listed =
          compile sha256Hex maxTokens projectId workPackageId inputs := by
  intro independent
  have same := independent (fun _ => "") 0 "p" "w"
    [⟨"memory", "m1", "a"⟩, ⟨"memory", "m1", "b"⟩] [⟨"memory", "m1", "b"⟩, ⟨"memory", "m1", "a"⟩]
    (List.Perm.swap _ _ _)
  have sections := congrArg (fun bundle => bundle.sections.map (·.text)) same
  revert sections
  decide +kernel

end Aa.Kernel.Context
