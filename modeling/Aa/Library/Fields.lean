import Aa.Library.GoText

/-!
# Texts of fields and separators

A text in which every field is followed by a separator. Where a field may hold separators
itself the text does not tell the fields apart: it only tells the pieces into which the
separators cut them, and two lists of fields have the same text exactly if they are cut into
the same pieces. A field without the separator that ends it, or of characters unlike the one
after it, can be read back from the text.
-/

namespace Aa.Library.Fields

variable {Symbol : Type*}

/-- The text of fields, each followed by the separator that ends it. -/
def text (fields : List (List Symbol × Symbol)) : List Symbol :=
  fields.flatMap fun field => field.1 ++ [field.2]

@[simp]
theorem text_nil : text ([] : List (List Symbol × Symbol)) = [] := rfl

@[simp]
theorem text_cons (field : List Symbol × Symbol) (rest : List (List Symbol × Symbol)) :
    text (field :: rest) = field.1 ++ field.2 :: text rest := by
  simp [text]

theorem text_append (first second : List (List Symbol × Symbol)) :
    text (first ++ second) = text first ++ text second := by
  simp [text]

theorem text_ne_nil {fields : List (List Symbol × Symbol)} (nonempty : fields ≠ []) :
    text fields ≠ [] := by
  cases fields with
  | nil => exact absurd rfl nonempty
  | cons field rest => simp

/-- Adds a character to the first of some pieces. -/
def prepend (c : Symbol) : List (List Symbol × Symbol) → List (List Symbol × Symbol)
  | [] => []
  | piece :: later => (c :: piece.1, piece.2) :: later

/-- The pieces of a field that is cut at the separators in it. -/
def cut (isSeparator : Symbol → Bool) (stop : Symbol) : List Symbol → List (List Symbol × Symbol)
  | [] => [([], stop)]
  | c :: rest =>
      if isSeparator c then ([], c) :: cut isSeparator stop rest
      else prepend c (cut isSeparator stop rest)

/-- The pieces of fields. -/
def pieces (isSeparator : Symbol → Bool) (fields : List (List Symbol × Symbol)) :
    List (List Symbol × Symbol) :=
  fields.flatMap fun field => cut isSeparator field.2 field.1

/-- A piece holds no separator and is ended by one. -/
def Whole (isSeparator : Symbol → Bool) (piece : List Symbol × Symbol) : Prop :=
  (∀ c ∈ piece.1, isSeparator c = false) ∧ isSeparator piece.2 = true

variable {isSeparator : Symbol → Bool} {stop : Symbol}

theorem cut_ne_nil (field : List Symbol) : cut isSeparator stop field ≠ [] := by
  induction field with
  | nil => simp [cut]
  | cons c rest ih =>
      rw [cut]
      split
      · simp
      · cases isRest : cut isSeparator stop rest with
        | nil => exact absurd isRest ih
        | cons piece later => simp [prepend]

/-- Cutting does not change the text. -/
theorem text_cut (field : List Symbol) : text (cut isSeparator stop field) = field ++ [stop] := by
  induction field with
  | nil => simp [cut]
  | cons c rest ih =>
      rw [cut]
      split
      · rw [text_cons, ih]
        rfl
      · cases isRest : cut isSeparator stop rest with
        | nil => exact absurd isRest (cut_ne_nil rest)
        | cons piece later =>
            rw [isRest, text_cons] at ih
            rw [prepend, text_cons, List.cons_append, ih]
            rfl

theorem text_pieces (isSeparator : Symbol → Bool) (fields : List (List Symbol × Symbol)) :
    text (pieces isSeparator fields) = text fields := by
  induction fields with
  | nil => rfl
  | cons field rest ih =>
      have isText : text (pieces isSeparator (field :: rest)) =
          text (cut isSeparator field.2 field.1) ++ text (pieces isSeparator rest) := by
        rw [← text_append]
        rfl
      rw [isText, ih, text_cut, text_cons, List.append_assoc]
      rfl

theorem whole_of_mem_cut (isStop : isSeparator stop = true) (field : List Symbol) :
    ∀ piece ∈ cut isSeparator stop field, Whole isSeparator piece := by
  induction field with
  | nil => simp [cut, Whole, isStop]
  | cons c rest ih =>
      intro piece isThere
      rw [cut] at isThere
      split at isThere
      · rename_i isCut
        rcases List.mem_cons.mp isThere with rfl | isLater
        · exact ⟨by simp, isCut⟩
        · exact ih piece isLater
      · rename_i isKept
        cases isRest : cut isSeparator stop rest with
        | nil => exact absurd isRest (cut_ne_nil rest)
        | cons first later =>
            rw [isRest] at ih isThere
            rcases List.mem_cons.mp isThere with rfl | isLater
            · have firstWhole := ih first List.mem_cons_self
              refine ⟨fun other isOther => ?_, firstWhole.2⟩
              rcases List.mem_cons.mp isOther with rfl | isRest
              · simpa using isKept
              · exact firstWhole.1 other isRest
            · exact ih piece (List.mem_cons_of_mem first isLater)

theorem whole_of_mem_pieces {fields : List (List Symbol × Symbol)}
    (ended : ∀ field ∈ fields, isSeparator field.2 = true) :
    ∀ piece ∈ pieces isSeparator fields, Whole isSeparator piece := by
  intro piece isThere
  rcases List.mem_flatMap.mp isThere with ⟨field, fieldMem, isPiece⟩
  exact whole_of_mem_cut (ended field fieldMem) field.1 piece isPiece

/-- What stands before the first character of a class determines the text on either side. -/
theorem append_inj_of_first (inClass : Symbol → Prop) {left right leftRest rightRest : List Symbol}
    {leftStop rightStop : Symbol} (notLeft : ∀ c ∈ left, ¬ inClass c)
    (notRight : ∀ c ∈ right, ¬ inClass c) (isLeft : inClass leftStop) (isRight : inClass rightStop)
    (same : left ++ leftStop :: leftRest = right ++ rightStop :: rightRest) :
    left = right ∧ leftStop = rightStop ∧ leftRest = rightRest := by
  induction left generalizing right with
  | nil =>
      cases right with
      | nil => exact ⟨rfl, List.cons.inj same⟩
      | cons d right =>
          have isHead := (List.cons.inj same).1
          exact absurd (isHead ▸ isLeft) (notRight d List.mem_cons_self)
  | cons c left ih =>
      cases right with
      | nil =>
          have isHead := (List.cons.inj same).1
          exact absurd (isHead ▸ isRight) (notLeft c List.mem_cons_self)
      | cons d right =>
          rcases List.cons.inj same with ⟨rfl, rest⟩
          rcases ih (fun e isThere => notLeft e (List.mem_cons_of_mem c isThere))
            (fun e isThere => notRight e (List.mem_cons_of_mem c isThere)) rest with ⟨rfl, stops⟩
          exact ⟨rfl, stops⟩

/-- What stands after the last separator determines the text on either side. -/
theorem append_inj_of_last {separator : Symbol} {left right leftRest rightRest : List Symbol}
    (notLeft : separator ∉ leftRest) (notRight : separator ∉ rightRest)
    (same : left ++ separator :: leftRest = right ++ separator :: rightRest) :
    left = right ∧ leftRest = rightRest := by
  have reversed := congrArg List.reverse same
  simp only [List.reverse_append, List.reverse_cons, List.append_assoc, List.singleton_append]
    at reversed
  rcases append_inj_of_first (· = separator)
    (fun c isThere isSeparator => notLeft (isSeparator ▸ List.mem_reverse.mp isThere))
    (fun c isThere isSeparator => notRight (isSeparator ▸ List.mem_reverse.mp isThere)) rfl rfl
    reversed with ⟨rests, -, lefts⟩
  exact ⟨List.reverse_inj.mp lefts, List.reverse_inj.mp rests⟩

/-- Whole pieces are read back from their text. -/
theorem eq_of_text {first second : List (List Symbol × Symbol)}
    (firstWhole : ∀ piece ∈ first, Whole isSeparator piece)
    (secondWhole : ∀ piece ∈ second, Whole isSeparator piece) (same : text first = text second) :
    first = second := by
  induction first generalizing second with
  | nil =>
      cases second with
      | nil => rfl
      | cons other rest => simp at same
  | cons piece rest ih =>
      cases second with
      | nil => simp at same
      | cons other later =>
          rw [text_cons, text_cons] at same
          have pieceWhole := firstWhole piece List.mem_cons_self
          have otherWhole := secondWhole other List.mem_cons_self
          rcases append_inj_of_first (fun c => isSeparator c = true)
            (fun c isThere => by simp [pieceWhole.1 c isThere])
            (fun c isThere => by simp [otherWhole.1 c isThere]) pieceWhole.2 otherWhole.2 same with
            ⟨sameField, sameStop, sameRest⟩
          rw [ih (fun each isThere => firstWhole each (List.mem_cons_of_mem _ isThere))
            (fun each isThere => secondWhole each (List.mem_cons_of_mem _ isThere)) sameRest,
            Prod.ext sameField sameStop]

/-- Two lists of fields have the same text exactly if they are cut into the same pieces. -/
theorem text_eq_iff {first second : List (List Symbol × Symbol)}
    (firstEnded : ∀ field ∈ first, isSeparator field.2 = true)
    (secondEnded : ∀ field ∈ second, isSeparator field.2 = true) :
    text first = text second ↔ pieces isSeparator first = pieces isSeparator second := by
  constructor
  · intro same
    refine eq_of_text (whole_of_mem_pieces firstEnded) (whole_of_mem_pieces secondEnded) ?_
    rw [text_pieces, text_pieces, same]
  · intro same
    rw [← text_pieces isSeparator first, same, text_pieces]

/-- Entries whose first one can always be read back from their text are all read back. -/
theorem map_eq_of_text {Entry Content : Type*} {fieldsOf : Entry → List (List Symbol × Symbol)}
    {contents : Entry → Content} (known : Entry → Prop) (nonempty : ∀ entry, fieldsOf entry ≠ [])
    (step : ∀ (entry other : Entry) (rest later : List Entry), known entry → known other →
      (∀ each ∈ rest, known each) → (∀ each ∈ later, known each) →
      text (fieldsOf entry) ++ text (rest.flatMap fieldsOf) =
        text (fieldsOf other) ++ text (later.flatMap fieldsOf) →
      contents entry = contents other ∧
        text (rest.flatMap fieldsOf) = text (later.flatMap fieldsOf))
    {first second : List Entry} (firstKnown : ∀ entry ∈ first, known entry)
    (secondKnown : ∀ entry ∈ second, known entry)
    (same : text (first.flatMap fieldsOf) = text (second.flatMap fieldsOf)) :
    first.map contents = second.map contents := by
  induction first generalizing second with
  | nil =>
      cases second with
      | nil => rfl
      | cons other later =>
          rw [List.flatMap_nil, text_nil, List.flatMap_cons, text_append] at same
          exact absurd (List.append_eq_nil_iff.mp same.symm).1 (text_ne_nil (nonempty other))
  | cons entry rest ih =>
      cases second with
      | nil =>
          rw [List.flatMap_nil, text_nil, List.flatMap_cons, text_append] at same
          exact absurd (List.append_eq_nil_iff.mp same).1 (text_ne_nil (nonempty entry))
      | cons other later =>
          rw [List.flatMap_cons, List.flatMap_cons, text_append, text_append] at same
          rw [List.forall_mem_cons] at firstKnown secondKnown
          rcases step entry other rest later firstKnown.1 secondKnown.1 firstKnown.2 secondKnown.2
            same with ⟨sameEntry, sameRest⟩
          rw [List.map_cons, List.map_cons, sameEntry, ih firstKnown.2 secondKnown.2 sameRest]

/-! ## Numbers -/

theorem toList_itoa (value : ℕ) : (Go.itoa value).toList = Nat.toDigits 10 value := by
  have isText : Go.itoa value = value.repr := by
    rw [Go.itoa, Int.toString_eq_repr, Int.repr_eq_if, if_pos (Int.natCast_nonneg value)]
    rfl
  rw [isText, Nat.toList_repr]

theorem isDigit_itoa {value : ℕ} {c : Char} (isThere : c ∈ (Go.itoa value).toList) :
    c.isDigit = true := by
  rw [toList_itoa] at isThere
  exact Nat.isDigit_of_mem_toDigits (by decide) (by decide) isThere

theorem itoa_ne_nil (value : ℕ) : (Go.itoa value).toList ≠ [] := by
  rw [toList_itoa]
  exact Nat.toDigits_ne_nil

theorem itoa_inj {value other : ℕ} (same : (Go.itoa value).toList = (Go.itoa other).toList) :
    value = other := by
  rw [toList_itoa, toList_itoa] at same
  have read := congrArg (Nat.ofDigitChars 10 · 0) same
  simpa using read

end Aa.Library.Fields
