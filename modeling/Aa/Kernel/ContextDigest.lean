import Aa.Kernel.ContextBudget
import Aa.Library.Fields

/-!
# What the digest of a context identifies

The digest of a bundle is taken over its header and its sections, with NUL and newline
between their fields, which are written as they are. The estimate of the tokens stands before
each text and bounds how long it can be, so that a text may hold any characters as long as
no name holds a NUL or a newline.
-/

namespace Aa.Kernel.Context

open Aa.Library

/-- What a compiled context is made from, and the sort it was made with. -/
structure Call where
  sort : List Input → List Input
  sorts : SortsSlice sort
  maxTokens : ℤ
  projectId : String
  workPackageId : String
  inputs : List Input

/-- The compiled context of a call. -/
def Call.bundle (sha256Hex : String → String) (call : Call) : Bundle :=
  compileWith call.sort sha256Hex call.maxTokens call.projectId call.workPackageId call.inputs

/-- What a digest is to tell of a bundle. -/
def SameContext (first second : Bundle) : Prop :=
  first.projectId = second.projectId ∧ first.workPackageId = second.workPackageId ∧
    first.tokenBudget = second.tokenBudget ∧ first.sections = second.sections

/-- The separator after a name. -/
def nul : Char := Char.ofNat 0

/-- The fields of a section and the separators after them. -/
def sectionFields (part : Section) : List (List Char × Char) :=
  [(part.kind.toList, nul), (part.id.toList, nul), ((Go.itoa part.tokens).toList, nul),
    (part.text.toList, '\n')]

/-- The fields of a bundle. -/
def bundleFields (bundle : Bundle) : List (List Char × Char) :=
  [(bundle.projectId.toList, nul), (bundle.workPackageId.toList, nul),
    ((Go.itoa bundle.tokenBudget).toList, '\n')] ++ bundle.sections.flatMap sectionFields

/-- Whether a character separates fields. -/
def isSeparator (c : Char) : Bool := c = nul || c = '\n'

/-- The pieces into which the separators cut the fields of a bundle. -/
def Bundle.pieces (bundle : Bundle) : List (List Char × Char) :=
  Fields.pieces isSeparator (bundleFields bundle)

/-! ## The text of a bundle -/

theorem sectionText_toList (part : Section) :
    (part.kind ++ "\x00" ++ part.id ++ "\x00" ++ Go.itoa part.tokens ++ "\x00" ++
      part.text ++ "\n").toList = Fields.text (sectionFields part) := by
  have separator : "\x00".toList = [nul] := rfl
  have newline : "\n".toList = ['\n'] := rfl
  simp [sectionFields, separator, newline]

theorem digestText_toList (bundle : Bundle) :
    (digestText bundle).toList = Fields.text (bundleFields bundle) := by
  have separator : "\x00".toList = [nul] := rfl
  have newline : "\n".toList = ['\n'] := rfl
  have ofSections : ∀ parts : List Section,
      (String.join (parts.map fun part =>
        part.kind ++ "\x00" ++ part.id ++ "\x00" ++ Go.itoa part.tokens ++ "\x00" ++
          part.text ++ "\n")).toList = Fields.text (parts.flatMap sectionFields) := by
    intro parts
    induction parts with
    | nil => rfl
    | cons part rest ih =>
        rw [List.map_cons, String.join_cons, String.toList_append, ih, sectionText_toList,
          List.flatMap_cons, Fields.text_append]
  rw [digestText, String.toList_append, ofSections, bundleFields, Fields.text_append]
  simp [separator, newline]

theorem digestText_eq_iff {first second : Bundle} :
    digestText first = digestText second ↔
      Fields.text (bundleFields first) = Fields.text (bundleFields second) := by
  rw [← String.toList_inj, digestText_toList, digestText_toList]

theorem bundleFields_ended (bundle : Bundle) :
    ∀ field ∈ bundleFields bundle, isSeparator field.2 = true := by
  intro field isThere
  rcases List.mem_append.mp isThere with isHeader | isSection
  · simp only [List.mem_cons, List.not_mem_nil, or_false] at isHeader
    rcases isHeader with rfl | rfl | rfl <;> rfl
  · rcases List.mem_flatMap.mp isSection with ⟨part, -, isField⟩
    simp only [sectionFields, List.mem_cons, List.not_mem_nil, or_false] at isField
    rcases isField with rfl | rfl | rfl | rfl <;> rfl

/-- Two bundles have the same text exactly if their fields are cut into the same pieces. -/
theorem digestText_eq_iff_pieces {first second : Bundle} :
    digestText first = digestText second ↔ first.pieces = second.pieces := by
  rw [digestText_eq_iff]
  exact Fields.text_eq_iff (bundleFields_ended first) (bundleFields_ended second)

theorem text_sectionFields_append (part : Section) (rest : List Char) :
    Fields.text (sectionFields part) ++ rest =
      part.kind.toList ++ nul :: (part.id.toList ++ nul ::
        ((Go.itoa part.tokens).toList ++ nul :: (part.text.toList ++ '\n' :: rest))) := by
  simp [sectionFields]

/-! ## Names and texts of a call -/

/-- The names and the texts of a call are written with the allowed characters. -/
structure Call.Over (names texts : Char → Prop) (call : Call) : Prop where
  project : ∀ c ∈ call.projectId.toList, names c
  workPackage : ∀ c ∈ call.workPackageId.toList, names c
  inputs : ∀ input ∈ call.inputs,
    (∀ c ∈ input.kind.toList ++ input.id.toList, names c) ∧ ∀ c ∈ input.text.toList, texts c

/-- What is known of a section of a compiled context. -/
structure Section.Known (names texts : Char → Prop) (part : Section) : Prop where
  names : ∀ c ∈ part.kind.toList ++ part.id.toList, names c
  newline : '\n' ∈ part.text.toList → texts '\n'
  tokens : part.tokens = estimateTokens part.text

/-- A cut text has no newlines of its own. -/
theorem newline_of_cutOf {text cut : String} (isCut : CutOf text cut)
    (isThere : '\n' ∈ cut.toList) : '\n' ∈ text.toList := by
  rcases isCut with ⟨count, -, rfl⟩
  rw [String.toList_append, List.mem_append] at isThere
  rcases isThere with isTrimmed | isEllipsis
  · rw [Go.trimSpace, String.toList_ofList, String.toList_ofList, List.mem_reverse] at isTrimmed
    have isFront := (List.dropWhile_sublist _).subset isTrimmed
    rw [List.mem_reverse] at isFront
    exact List.mem_of_mem_take ((List.dropWhile_sublist _).subset isFront)
  · exact absurd isEllipsis (by decide)

theorem known_of_over {sha256Hex : String → String} {names texts : Char → Prop} {call : Call}
    (isOver : call.Over names texts) :
    ∀ part ∈ (call.bundle sha256Hex).sections, Section.Known names texts part := by
  have included := included_sorted call.maxTokens (call.sort call.inputs)
  intro part isPart
  have estimates := included.tokens.2.2 part isPart
  rcases included.leading.of_mem isPart with ⟨input, inputMem, isSection⟩
  have known := isOver.inputs input
    ((call.sorts.perm call.inputs).mem_iff.mp (List.mem_of_mem_filter inputMem))
  rcases isSection with rfl | ⟨text, isCut, rfl⟩
  · exact ⟨known.1, fun isThere => known.2 _ isThere, estimates⟩
  · exact ⟨known.1, fun isThere => known.2 _ (newline_of_cutOf isCut isThere), estimates⟩

/-! ## Which texts are read back -/

/-- The digits of a number that is not negative hold no separator, and tell the number. -/
theorem isDigit_of_nonneg {value : ℤ} (nonneg : 0 ≤ value) :
    ∀ c ∈ (Go.itoa value).toList, c.isDigit = true := by
  obtain ⟨number, rfl⟩ := Int.eq_ofNat_of_zero_le nonneg
  exact fun c isThere => Fields.isDigit_itoa isThere

theorem itoa_inj_of_nonneg {value other : ℤ} (nonneg : 0 ≤ value) (otherNonneg : 0 ≤ other)
    (same : (Go.itoa value).toList = (Go.itoa other).toList) : value = other := by
  obtain ⟨number, rfl⟩ := Int.eq_ofNat_of_zero_le nonneg
  obtain ⟨otherNumber, rfl⟩ := Int.eq_ofNat_of_zero_le otherNonneg
  rw [Fields.itoa_inj same]

section Step

variable {names texts : Char → Prop} {part other : Section} {rest later : List Char}

/-- What stands before the text of a section is read back where no name holds a NUL. -/
theorem names_of_text (nulless : ¬ names nul) (known : part.Known names texts)
    (otherKnown : other.Known names texts)
    (same : Fields.text (sectionFields part) ++ rest =
      Fields.text (sectionFields other) ++ later) :
    part.kind = other.kind ∧ part.id = other.id ∧ part.tokens = other.tokens ∧
      part.text.toList ++ '\n' :: rest = other.text.toList ++ '\n' :: later := by
  rw [text_sectionFields_append, text_sectionFields_append] at same
  have tokens : 0 ≤ part.tokens := known.tokens ▸ estimateTokens_nonneg part.text
  have otherTokens : 0 ≤ other.tokens := otherKnown.tokens ▸ estimateTokens_nonneg other.text
  have notDigit : ∀ {value : ℤ}, 0 ≤ value → nul ∉ (Go.itoa value).toList :=
    fun nonneg isThere => absurd (isDigit_of_nonneg nonneg nul isThere) (by decide)
  rcases Go.append_cons_inj
    (fun isThere => nulless (known.names nul (List.mem_append_left _ isThere)))
    (fun isThere => nulless (otherKnown.names nul (List.mem_append_left _ isThere))) same with
    ⟨kind, afterKind⟩
  rcases Go.append_cons_inj
    (fun isThere => nulless (known.names nul (List.mem_append_right _ isThere)))
    (fun isThere => nulless (otherKnown.names nul (List.mem_append_right _ isThere)))
    afterKind with ⟨id, afterId⟩
  rcases Go.append_cons_inj (notDigit tokens) (notDigit otherTokens) afterId with
    ⟨number, afterTokens⟩
  exact ⟨String.toList_inj.mp kind, String.toList_inj.mp id,
    itoa_inj_of_nonneg tokens otherTokens number, afterTokens⟩

/-- A section begins with three characters that are no newline, if its names hold none. -/
theorem newline_notMem_take (newlineless : ¬ names '\n') (known : part.Known names texts) :
    '\n' ∉ (Fields.text (sectionFields part) ++ rest).take 3 := by
  have tokens : 0 ≤ part.tokens := known.tokens ▸ estimateTokens_nonneg part.text
  have isHead : Fields.text (sectionFields part) ++ rest =
      (part.kind.toList ++ nul :: (part.id.toList ++ nul :: (Go.itoa part.tokens).toList)) ++
        nul :: (part.text.toList ++ '\n' :: rest) := by
    rw [text_sectionFields_append]
    simp
  have notDigit : '\n' ∉ (Go.itoa part.tokens).toList := fun isThere =>
    absurd (isDigit_of_nonneg tokens _ isThere) (by decide)
  have notKind : '\n' ∉ part.kind.toList := fun isThere =>
    newlineless (known.names _ (List.mem_append_left _ isThere))
  have notId : '\n' ∉ part.id.toList := fun isThere =>
    newlineless (known.names _ (List.mem_append_right _ isThere))
  have long : 3 ≤ (part.kind.toList ++ nul ::
      (part.id.toList ++ nul :: (Go.itoa part.tokens).toList)).length := by
    obtain ⟨number, isNumber⟩ := Int.eq_ofNat_of_zero_le tokens
    have positive := List.length_pos_iff.mpr (Fields.itoa_ne_nil number)
    rw [isNumber]
    simp only [List.length_append, List.length_cons]
    omega
  rw [isHead, List.take_append_of_le_length long]
  intro isThere
  have inHead := List.mem_of_mem_take isThere
  have nulNe : '\n' ≠ nul := by decide
  simp [notDigit, notKind, notId, nulNe] at inHead

/-- Two texts of one estimate end at the same newline, if no newline follows soon. -/
theorem text_inj_of_estimate {text otherText : String}
    (estimates : estimateTokens text = estimateTokens otherText)
    (calm : '\n' ∉ rest.take 3)
    (same : text.toList ++ '\n' :: rest = otherText.toList ++ '\n' :: later) :
    otherText.toList <+: text.toList := by
  rcases List.append_eq_append_iff.mp same with ⟨more, isOther, isRest⟩ | ⟨more, isText, -⟩
  · cases more with
    | nil => exact ⟨[], by rw [List.append_nil, isOther, List.append_nil]⟩
    | cons c more =>
        exfalso
        have afterNewline : rest = more ++ '\n' :: later := (List.cons.inj isRest).2
        have lengths := congrArg List.length isOther
        simp only [estimateTokens, Nat.cast_inj] at estimates
        simp only [List.length_append, List.length_cons] at lengths
        have short : more.length < 3 := by omega
        refine calm ?_
        rw [afterNewline, List.take_append, List.mem_append]
        right
        obtain ⟨count, isCount⟩ : ∃ count, 3 - more.length = count + 1 :=
          ⟨2 - more.length, by omega⟩
        rw [isCount, List.take_succ_cons]
        exact List.mem_cons_self
  · exact ⟨more, isText.symm⟩

end Step

/-- The names and texts that a digest tells apart: no name holds a NUL, and no newline stands
both in names and in texts. -/
def Separable (names texts : Char → Prop) : Prop :=
  ¬ names nul ∧ (¬ names '\n' ∨ ¬ texts '\n')

section Sections

variable {names texts : Char → Prop} {parts others : List Section}

theorem newline_notMem_take_text (newlineless : ¬ names '\n')
    (known : ∀ part ∈ parts, Section.Known names texts part) :
    '\n' ∉ (Fields.text (parts.flatMap sectionFields)).take 3 := by
  cases parts with
  | nil => simp
  | cons part rest =>
      rw [List.flatMap_cons, Fields.text_append]
      exact newline_notMem_take newlineless (known part List.mem_cons_self)

/-- The sections of a compiled context are read back. -/
theorem sections_of_text (separable : Separable names texts)
    (known : ∀ part ∈ parts, Section.Known names texts part)
    (otherKnown : ∀ part ∈ others, Section.Known names texts part)
    (same : Fields.text (parts.flatMap sectionFields) =
      Fields.text (others.flatMap sectionFields)) : parts = others := by
  suffices contents : parts.map id = others.map id by simpa using contents
  refine Fields.map_eq_of_text (Section.Known names texts) (fun _ => List.cons_ne_nil _ _) ?_ known
    otherKnown same
  intro part other rest later partKnown otherKnown restKnown laterKnown sameText
  rcases names_of_text separable.1 partKnown otherKnown sameText with
    ⟨kind, id, tokens, afterTokens⟩
  have text : part.text.toList = other.text.toList := by
    rcases separable.2 with inNames | inTexts
    · have estimates : estimateTokens part.text = estimateTokens other.text := by
        rw [← partKnown.tokens, ← otherKnown.tokens, tokens]
      have shorter := text_inj_of_estimate estimates
        (newline_notMem_take_text inNames restKnown) afterTokens
      have longer := text_inj_of_estimate estimates.symm
        (newline_notMem_take_text inNames laterKnown) afterTokens.symm
      exact longer.eq_of_length_le shorter.length_le
    · exact (Go.append_cons_inj (fun isThere => inTexts (partKnown.newline isThere))
        (fun isThere => inTexts (otherKnown.newline isThere)) afterTokens).1
  rw [text] at afterTokens
  refine ⟨?_, (List.cons.inj (List.append_cancel_left afterTokens)).2⟩
  cases part
  cases other
  simp_all [String.toList_inj]

end Sections

section Compiled

variable {sha256Hex : String → String} {names texts : Char → Prop} {call other : Call}

theorem sameContext_of_separable (separable : Separable names texts)
    (isOver : call.Over names texts) (otherOver : other.Over names texts)
    (same : digestText (call.bundle sha256Hex) = digestText (other.bundle sha256Hex)) :
    SameContext (call.bundle sha256Hex) (other.bundle sha256Hex) := by
  rw [digestText_eq_iff, bundleFields, bundleFields, Fields.text_append, Fields.text_append] at same
  have budget : 0 ≤ (call.bundle sha256Hex).tokenBudget := (budgetOf_pos call.maxTokens).le
  have otherBudget : 0 ≤ (other.bundle sha256Hex).tokenBudget := (budgetOf_pos other.maxTokens).le
  have notDigit : ∀ {value : ℤ}, 0 ≤ value → '\n' ∉ (Go.itoa value).toList :=
    fun nonneg isThere => absurd (isDigit_of_nonneg nonneg _ isThere) (by decide)
  simp only [Fields.text_cons, Fields.text_nil, List.append_assoc, List.cons_append,
    List.nil_append] at same
  rcases Go.append_cons_inj (fun isThere => separable.1 (isOver.project _ isThere))
    (fun isThere => separable.1 (otherOver.project _ isThere)) same with ⟨project, afterProject⟩
  rcases Go.append_cons_inj (fun isThere => separable.1 (isOver.workPackage _ isThere))
    (fun isThere => separable.1 (otherOver.workPackage _ isThere)) afterProject with
    ⟨workPackage, afterWorkPackage⟩
  rcases Go.append_cons_inj (notDigit budget) (notDigit otherBudget) afterWorkPackage with
    ⟨number, sections⟩
  exact ⟨String.toList_inj.mp project, String.toList_inj.mp workPackage,
    itoa_inj_of_nonneg budget otherBudget number,
    sections_of_text separable (known_of_over isOver) (known_of_over otherOver) sections⟩

end Compiled

/-! ## Calls that share a text -/

/-- A call without inputs. -/
def headerCall (projectId workPackageId : String) : Call where
  sort := (·.insertionSort precedes)
  sorts := insertionSort_sortsSlice
  maxTokens := 0
  projectId := projectId
  workPackageId := workPackageId
  inputs := []

/-- A call with a text that ends in newlines, before another section. -/
def newlineCall (text kind : String) : Call where
  sort := (·.insertionSort precedes)
  sorts := insertionSort_sortsSlice
  maxTokens := 0
  projectId := ""
  workPackageId := ""
  inputs := [⟨"", "", text⟩, ⟨kind, "\n", "\n"⟩]

variable (sha256Hex : String → String)

/-- A NUL in a name can stand on either side of the separator. -/
theorem shares_of_nul {names texts : Char → Prop} (isName : names nul) :
    ∃ call other : Call, call.Over names texts ∧ other.Over names texts ∧
      digestText (call.bundle sha256Hex) = digestText (other.bundle sha256Hex) ∧
      ¬ SameContext (call.bundle sha256Hex) (other.bundle sha256Hex) := by
  have isNul : "\x00".toList = [nul] := rfl
  refine ⟨headerCall "\x00" "", headerCall "" "\x00", ⟨?_, ?_, ?_⟩, ⟨?_, ?_, ?_⟩, rfl, ?_⟩
  · simp [headerCall, isNul, isName]
  · simp [headerCall]
  · simp [headerCall]
  · simp [headerCall]
  · simp [headerCall, isNul, isName]
  · simp [headerCall]
  · intro same
    have projects : "\x00" = "" := same.1
    exact absurd projects (by decide)

/-- The sections of the calls with newlines. -/
theorem sections_newlineCall :
    ((newlineCall "\n" "\n").bundle sha256Hex).sections =
      [⟨"", "", "\n", 1⟩, ⟨"\n", "\n", "\n", 1⟩] ∧
    ((newlineCall "\n\n" "").bundle sha256Hex).sections =
      [⟨"", "", "\n\n", 1⟩, ⟨"", "\n", "\n", 1⟩] :=
  ⟨rfl, rfl⟩

/-- A newline at the end of a text can begin the name after it. -/
theorem shares_of_newline {names texts : Char → Prop} (isName : names '\n') (isText : texts '\n') :
    ∃ call other : Call, call.Over names texts ∧ other.Over names texts ∧
      digestText (call.bundle sha256Hex) = digestText (other.bundle sha256Hex) ∧
      ¬ SameContext (call.bundle sha256Hex) (other.bundle sha256Hex) := by
  rcases sections_newlineCall sha256Hex with ⟨parts, others⟩
  refine ⟨newlineCall "\n" "\n", newlineCall "\n\n" "", ⟨?_, ?_, ?_⟩, ⟨?_, ?_, ?_⟩, ?_, ?_⟩
  · simp [newlineCall]
  · simp [newlineCall]
  · simp [newlineCall, isName, isText]
  · simp [newlineCall]
  · simp [newlineCall]
  · simp [newlineCall, isName, isText]
  · rw [digestText, digestText, parts, others]
    rfl
  · intro same
    have sections := same.2.2.2
    rw [parts, others] at sections
    simp at sections

/-- The text of a compiled context tells what it is made of exactly as far as its pieces do; it
does so for all contexts whose names and texts are written with some characters exactly if no
name holds a NUL and no newline stands both in names and in texts. -/
theorem digest_identifies_iff (call other : Call) (names texts : Char → Prop) :
    ((digestText (call.bundle sha256Hex) = digestText (other.bundle sha256Hex) →
        SameContext (call.bundle sha256Hex) (other.bundle sha256Hex)) ↔
      ((call.bundle sha256Hex).pieces = (other.bundle sha256Hex).pieces →
        SameContext (call.bundle sha256Hex) (other.bundle sha256Hex))) ∧
    ((∀ first second : Call, first.Over names texts → second.Over names texts →
        digestText (first.bundle sha256Hex) = digestText (second.bundle sha256Hex) →
          SameContext (first.bundle sha256Hex) (second.bundle sha256Hex)) ↔
      Separable names texts) := by
  refine ⟨?_, fun identifies => ?_, ?_⟩
  · rw [digestText_eq_iff_pieces]
  · by_contra unseparable
    have shared : ∃ first second : Call, first.Over names texts ∧ second.Over names texts ∧
        digestText (first.bundle sha256Hex) = digestText (second.bundle sha256Hex) ∧
        ¬ SameContext (first.bundle sha256Hex) (second.bundle sha256Hex) := by
      rw [Separable, not_and_or, not_not, not_or, not_not, not_not] at unseparable
      rcases unseparable with isName | ⟨isName, isText⟩
      · exact shares_of_nul sha256Hex isName
      · exact shares_of_newline sha256Hex isName isText
    rcases shared with ⟨first, second, isOver, otherOver, sameText, different⟩
    exact different (identifies first second isOver otherOver sameText)
  · intro separable first second isOver otherOver same
    exact sameContext_of_separable separable isOver otherOver same

/-- Two contexts of different projects and work packages share a text. -/
theorem nulProject_shares :
    digestText ((headerCall "a\x00b" "c").bundle id) =
        digestText ((headerCall "a" "b\x00c").bundle id) ∧
      ¬ SameContext ((headerCall "a\x00b" "c").bundle id)
        ((headerCall "a" "b\x00c").bundle id) := by
  refine ⟨rfl, fun same => ?_⟩
  have projects : "a\x00b" = "a" := same.1
  exact absurd projects (by decide)

end Aa.Kernel.Context
