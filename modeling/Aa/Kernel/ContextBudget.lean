import Aa.Kernel.ContextOrder

/-!
# What a compiled context holds

The texts that are not empty are included whole until one does not fit. That one is cut to what
is left of the budget, and nothing comes after it.
-/

namespace Aa.Kernel.Context

open Aa.Library

/-- The section of an input that is included whole. -/
def Section.whole (input : Input) : Section :=
  ⟨input.kind, input.id, input.text, estimateTokens input.text⟩

/-- A shorter text: the first runes of another one, trimmed, and an ellipsis. -/
def CutOf (text cut : String) : Prop :=
  ∃ count, count + 1 < text.toList.length ∧
    cut = Go.trimSpace (String.ofList (text.toList.take count)) ++ "…"

/-- The section of an input whose text is cut. -/
def Section.cut (input : Input) (text : String) : Section :=
  ⟨input.kind, input.id, text, estimateTokens text⟩

/-- The sections of the first inputs, all but the last of them whole. -/
def Leading (order : List Input) (sections : List Section) : Prop :=
  ∃ whole rest, order = whole ++ rest ∧
    (sections = whole.map Section.whole ∨
      ∃ input later text, rest = input :: later ∧ CutOf input.text text ∧
        sections = whole.map Section.whole ++ [Section.cut input text])

/-- Each of the sections is of one of the inputs, whole or cut. -/
theorem Leading.of_mem {order : List Input} {sections : List Section}
    (leading : Leading order sections) {part : Section} (isPart : part ∈ sections) :
    ∃ input ∈ order, part = Section.whole input ∨
      ∃ text, CutOf input.text text ∧ part = Section.cut input text := by
  rcases leading with ⟨whole, rest, rfl, isWhole | ⟨input, later, text, rfl, isCut, isLast⟩⟩
  · rw [isWhole] at isPart
    rcases List.mem_map.mp isPart with ⟨input, inputMem, isInput⟩
    exact ⟨input, List.mem_append_left _ inputMem, .inl isInput.symm⟩
  · rw [isLast] at isPart
    rcases List.mem_append.mp isPart with isFull | isEnd
    · rcases List.mem_map.mp isFull with ⟨first, firstMem, isFirst⟩
      exact ⟨first, List.mem_append_left _ firstMem, .inl isFirst.symm⟩
    · exact ⟨input, by simp, .inr ⟨text, isCut, List.mem_singleton.mp isEnd⟩⟩

/-- What a bundle says of its sections, and what these are of the inputs in order. -/
structure KeepsBudget (order : List Input) (bundle : Bundle) : Prop where
  used : bundle.tokensUsed = (bundle.sections.map (·.tokens)).sum
  within : bundle.tokensUsed ≤ bundle.tokenBudget
  estimates : ∀ part ∈ bundle.sections, part.tokens = estimateTokens part.text
  leading : Leading order bundle.sections
  truncated : bundle.truncated = true ↔
    ∃ (index : ℕ) (input : Input), order[index]? = some input ∧
      bundle.sections[index]? ≠ some (Section.whole input)

/-! ## Cut texts -/

theorem length_trimSpace_le (text : String) :
    (Go.trimSpace text).toList.length ≤ text.toList.length := by
  have front : (text.toList.dropWhile Go.isSpace).length ≤ text.toList.length :=
    (List.dropWhile_sublist _).length_le
  have back : ((text.toList.dropWhile Go.isSpace).reverse.dropWhile Go.isSpace).length ≤
      (text.toList.dropWhile Go.isSpace).reverse.length := (List.dropWhile_sublist _).length_le
  simp only [Go.trimSpace, String.toList_ofList, List.length_reverse] at back ⊢
  omega

theorem CutOf.length_lt {text cut : String} (isCut : CutOf text cut) :
    cut.toList.length < text.toList.length := by
  rcases isCut with ⟨count, inside, rfl⟩
  have trimmed := length_trimSpace_le (String.ofList (text.toList.take count))
  simp only [String.toList_ofList, List.length_take] at trimmed
  have ellipsis : ("…" : String).toList.length = 1 := rfl
  simp only [String.toList_append, List.length_append, ellipsis]
  omega

/-- A text that does not fit is cut to one that fits. -/
theorem truncateToTokens_of_long {text : String} {remaining : ℤ} (positive : 0 < remaining)
    (long : remaining < estimateTokens text) :
    CutOf text (truncateToTokens text remaining) ∧
      estimateTokens (truncateToTokens text remaining) ≤ remaining := by
  unfold estimateTokens at long
  have notWhole : ¬ (text.toList.length : ℤ) ≤ remaining * 4 := by omega
  have isCut : truncateToTokens text remaining =
      Go.trimSpace (String.ofList (text.toList.take (remaining * 4 - 1).toNat)) ++ "…" := by
    rw [truncateToTokens, if_neg notWhole, if_neg (by omega)]
  have trimmed := length_trimSpace_le (String.ofList (text.toList.take (remaining * 4 - 1).toNat))
  simp only [String.toList_ofList, List.length_take] at trimmed
  have ellipsis : ("…" : String).toList.length = 1 := rfl
  constructor
  · exact ⟨(remaining * 4 - 1).toNat, by omega, isCut⟩
  · simp only [isCut, estimateTokens, String.toList_append, List.length_append, ellipsis]
    omega

/-! ## Inclusion -/

/-- The outcome of including inputs: all are whole, or the first that does not fit is cut or
left out with everything after it. -/
inductive Included (budget used : ℤ) (order : List Input) : List Section × ℤ × Bool → Prop
  | whole (fits : used + (order.map (estimateTokens ·.text)).sum ≤ budget) :
      Included budget used order
        (order.map Section.whole, used + (order.map (estimateTokens ·.text)).sum, false)
  | leftOut (whole : List Input) (input : Input) (later : List Input)
      (isOrder : order = whole ++ input :: later)
      (fits : used + (whole.map (estimateTokens ·.text)).sum ≤ budget) :
      Included budget used order
        (whole.map Section.whole, used + (whole.map (estimateTokens ·.text)).sum, true)
  | cut (whole : List Input) (input : Input) (later : List Input) (text : String)
      (isOrder : order = whole ++ input :: later) (isCut : CutOf input.text text)
      (fits : used + (whole.map (estimateTokens ·.text)).sum + estimateTokens text ≤ budget) :
      Included budget used order
        (whole.map Section.whole ++ [Section.cut input text],
          used + (whole.map (estimateTokens ·.text)).sum + estimateTokens text, true)

/-- An input that fits goes before whatever is included after it. -/
theorem Included.cons {budget used : ℤ} {input : Input} {order : List Input}
    {result : List Section × ℤ × Bool}
    (included : Included budget (used + estimateTokens input.text) order result) :
    Included budget used (input :: order) (Section.whole input :: result.1, result.2) := by
  have regroup : ∀ inputs : List Input,
      used + estimateTokens input.text + (inputs.map (estimateTokens ·.text)).sum =
        used + ((input :: inputs).map (estimateTokens ·.text)).sum := by
    intro inputs
    simp [add_assoc]
  cases included with
  | whole fits =>
      rw [regroup] at fits
      rw [regroup]
      exact .whole fits
  | leftOut whole next later isOrder fits =>
      rw [regroup] at fits
      rw [regroup]
      exact .leftOut (input :: whole) next later (by rw [isOrder, List.cons_append]) fits
  | cut whole next later text isOrder isCut fits =>
      rw [regroup] at fits
      rw [regroup]
      exact .cut (input :: whole) next later text (by rw [isOrder, List.cons_append]) isCut fits

theorem included_includeInputs {budget used : ℤ} {order : List Input} (spent : used ≤ budget)
    (nonempty : ∀ input ∈ order, input.text ≠ "") :
    Included budget used order (includeInputs budget used order) := by
  induction order generalizing used with
  | nil =>
      have included : Included budget used [] _ := .whole (by simpa using spent)
      simpa [includeInputs] using included
  | cons input rest ih =>
      have inputNonempty := nonempty input List.mem_cons_self
      have restNonempty : ∀ next ∈ rest, next.text ≠ "" :=
        fun next isNext => nonempty next (List.mem_cons_of_mem _ isNext)
      by_cases fits : estimateTokens input.text ≤ budget - used
      · rw [includeInputs_of_fits inputNonempty fits]
        exact (ih (by omega) restNonempty).cons
      · by_cases exhausted : budget - used ≤ 0
        · rw [includeInputs_of_exhausted inputNonempty exhausted]
          have included : Included budget used (input :: rest) _ :=
            .leftOut [] input rest rfl (by simpa using spent)
          simpa using included
        · rw [includeInputs_of_cut inputNonempty (by omega) (by omega)]
          have positive : 0 < budget - used := by omega
          have long : budget - used < estimateTokens input.text := by omega
          rcases truncateToTokens_of_long positive long with ⟨isCut, small⟩
          have included : Included budget used (input :: rest) _ :=
            .cut [] input rest _ rfl isCut (by simp; omega)
          simpa [Section.cut] using included

theorem sum_whole (inputs : List Input) :
    ((inputs.map Section.whole).map (·.tokens)).sum =
      (inputs.map (estimateTokens ·.text)).sum := by
  simp [Section.whole, Function.comp_def]

theorem estimates_whole {inputs : List Input} :
    ∀ part ∈ inputs.map Section.whole, part.tokens = estimateTokens part.text := by
  intro part isPart
  rcases List.mem_map.mp isPart with ⟨input, -, rfl⟩
  rfl

theorem whole_ne_cut {input : Input} {text : String} (isCut : CutOf input.text text) :
    Section.cut input text ≠ Section.whole input := by
  intro same
  have shorter := isCut.length_lt
  have texts : text = input.text := congrArg Section.text same
  rw [texts] at shorter
  exact lt_irrefl _ shorter

/-- Of the inputs included so, exactly where some are cut or left out one is not whole. -/
theorem Included.truncated_iff {budget used : ℤ} {order : List Input}
    {result : List Section × ℤ × Bool} (included : Included budget used order result) :
    result.2.2 = true ↔ ∃ (index : ℕ) (input : Input), order[index]? = some input ∧
      result.1[index]? ≠ some (Section.whole input) := by
  cases included with
  | whole fits =>
      refine iff_of_false (by simp) ?_
      rintro ⟨index, input, isInput, isNot⟩
      simp [isInput] at isNot
  | leftOut whole input later isOrder fits =>
      refine iff_of_true rfl ⟨whole.length, input, by simp [isOrder], ?_⟩
      simp
  | cut whole input later text isOrder isCut fits =>
      refine iff_of_true rfl ⟨whole.length, input, by simp [isOrder], ?_⟩
      simpa using whole_ne_cut isCut

theorem Included.leading {budget used : ℤ} {order : List Input} {result : List Section × ℤ × Bool}
    (included : Included budget used order result) : Leading order result.1 := by
  cases included with
  | whole fits => exact ⟨order, [], (List.append_nil order).symm, .inl rfl⟩
  | leftOut whole input later isOrder fits => exact ⟨whole, input :: later, isOrder, .inl rfl⟩
  | cut whole input later text isOrder isCut fits =>
      exact ⟨whole, input :: later, isOrder, .inr ⟨input, later, text, rfl, isCut, rfl⟩⟩

theorem Included.tokens {budget used : ℤ} {order : List Input} {result : List Section × ℤ × Bool}
    (included : Included budget used order result) :
    result.2.1 = used + (result.1.map (·.tokens)).sum ∧ result.2.1 ≤ budget ∧
      ∀ part ∈ result.1, part.tokens = estimateTokens part.text := by
  cases included with
  | whole fits => exact ⟨by rw [sum_whole], fits, estimates_whole⟩
  | leftOut whole input later isOrder fits => exact ⟨by rw [sum_whole], fits, estimates_whole⟩
  | cut whole input later text isOrder isCut fits =>
      refine ⟨?_, fits, ?_⟩
      · rw [List.map_append, List.sum_append, sum_whole]
        simp [Section.cut, add_assoc]
      · intro part isPart
        rcases List.mem_append.mp isPart with isWhole | isLast
        · exact estimates_whole part isWhole
        · rw [List.mem_singleton.mp isLast]
          rfl

theorem budgetOf_pos (maxTokens : ℤ) : 0 < budgetOf maxTokens := by
  unfold budgetOf defaultMaxTokens
  split <;> omega

/-- What a compiler includes of sorted inputs. -/
theorem included_sorted (maxTokens : ℤ) (sorted : List Input) :
    Included (budgetOf maxTokens) 0 (sorted.filter (·.text ≠ ""))
      (includeInputs (budgetOf maxTokens) 0 sorted) := by
  have nonempty : ∀ input ∈ sorted.filter (·.text ≠ ""), input.text ≠ "" := by simp
  have included := included_includeInputs (budgetOf_pos maxTokens).le nonempty
  rwa [includeInputs_filter] at included

/-- The compiled context keeps to its budget: it holds the first inputs in the order of the
compiler, empty texts dropped, and says so if anything is missing. -/
theorem compileWith_keepsBudget {sort : List Input → List Input} (sorts : SortsSlice sort)
    (sha256Hex : String → String) (maxTokens : ℤ) (projectId workPackageId : String)
    (inputs : List Input) :
    ∃ order, order.Perm (inputs.filter (·.text ≠ "")) ∧ order.Pairwise precedes ∧
      order = (sort inputs).filter (·.text ≠ "") ∧
      KeepsBudget order (compileWith sort sha256Hex maxTokens projectId workPackageId inputs) := by
  refine ⟨_, (sorts.perm inputs).filter _, (sorts.sorted inputs).filter _, rfl, ?_⟩
  have included := included_sorted maxTokens (sort inputs)
  rcases included.tokens with ⟨used, within, estimates⟩
  exact
    { used := used.trans (zero_add _)
      within := within
      estimates := estimates
      leading := included.leading
      truncated := included.truncated_iff }

theorem compile_keepsBudget_cut :
    ∃ order, order.Perm ([⟨"b", "2", "long text"⟩, ⟨"a", "1", ""⟩].filter
        (fun input : Input => input.text ≠ "")) ∧
      order.Pairwise precedes ∧
      order = (([⟨"b", "2", "long text"⟩, ⟨"a", "1", ""⟩] : List Input).insertionSort
        precedes).filter (·.text ≠ "") ∧
      KeepsBudget order (compileWith (·.insertionSort precedes) id 1 "p" "w"
        [⟨"b", "2", "long text"⟩, ⟨"a", "1", ""⟩]) :=
  compileWith_keepsBudget insertionSort_sortsSlice id 1 "p" "w" _

end Aa.Kernel.Context
