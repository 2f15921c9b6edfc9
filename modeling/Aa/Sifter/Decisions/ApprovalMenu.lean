import Aa.Library.PyCase
import Aa.Sifter.App

/-!
# The approval menu

What the console shows of a request, and what it makes of the line the human enters. The
parser looks for its own words first and for the keys of the options after them, so that a
key that is one of the words has the word's meaning, whatever its label says.
-/

namespace Aa.Sifter

open Aa.Library

namespace ApprovalMenu

def approveWords : List String := ["approve", "approved", "yes", "y", "ok", "a"]

def rejectWords : List String := ["reject", "no", "n"]

def stopWords : List String := ["stop", "d", "cancel", "abort"]

def modifyWords : List String := ["modify", "c", "change", "different"]

def localWords : List String := ["more", "more local", "analyze locally", "local analysis"]

def expertWords : List String :=
  ["allow deepseek", "allow expert", "allow expert analysis", "deepseek"]

def continueWords : List String := ["continue", "keep", "keep current", "current"]

/-- The action of a word of the parser's own; those of approval are words only if no option has
the key `A`. -/
def shortcut (keyA : Bool) (lowered : String) : Option ApprovalAction :=
  if lowered ∈ approveWords ∧ ¬ keyA then some .approve
  else if lowered ∈ rejectWords then some .reject
  else if lowered ∈ stopWords then some .stop
  else if lowered ∈ modifyWords then some .modify
  else if lowered ∈ localWords then some .moreLocalAnalysis
  else if lowered ∈ expertWords then some .allowExpertAnalysis
  else if lowered ∈ continueWords then some .continueCurrent
  else none

/-- The action that a lowercased label denotes. -/
def labelAction (label : String) : ApprovalAction :=
  if Py.contains label "stop" then .stop
  else if Py.contains label "keep" || Py.contains label "current" then .continueCurrent
  else if Py.contains label "analysis" || Py.contains label "analyze" ||
      Py.contains label "deepseek" || Py.contains label "expert" then .allowExpertAnalysis
  else if Py.contains label "different" || Py.contains label "instruction" then .modify
  else .chooseOption

section Parser

variable (casing : PyCasing)

def denoted (option : ApprovalOption) : ApprovalAction :=
  labelAction (casing.lowered option.label)

/-- The decision for an option whose key was entered. -/
def chosen (key : String) (option : ApprovalOption) : HumanDecision where
  action := denoted casing option
  selectedOptions :=
    match denoted casing option with
    | .allowExpertAnalysis | .modify | .chooseOption => [key]
    | _ => []

def validKeys (options : List ApprovalOption) : List String :=
  options.map fun option => casing.uppered option.key

/-- The parts of a line of constraints. -/
def constraintsOf (text : String) : List String :=
  ((Py.splitOn ';' (Py.afterFirst ':' text)).map Py.strip).filter (· ≠ "")

def hasConstraints (lowered : String) : Bool :=
  Py.startsWith lowered "constraint:" || Py.startsWith lowered "constraints:"

/-- The decision for a word of the parser's own. -/
def ofWord (text : String) : ApprovalAction → HumanDecision
  | .modify => { action := .modify, note := text }
  | action => { action := action }

/-- The option whose key the text is, in any case. -/
def named (options : List ApprovalOption) (text : String) : Option ApprovalOption :=
  options.find? fun option => casing.uppered option.key = casing.uppered text

/-- The decision for any other text: an approval with constraints, or other instructions. -/
def freeText (text : String) : HumanDecision :=
  if hasConstraints (casing.lowered text) then
    { action := .approve, constraints := constraintsOf text, note := text }
  else { action := .modify, note := text }

def parseDecisionInput (raw : String) (options : List ApprovalOption) : HumanDecision :=
  let text := Py.strip raw
  match shortcut ((validKeys casing options).contains "A") (casing.lowered text) with
  | some action => ofWord text action
  | none =>
      match named casing options text with
      | some option => chosen casing (casing.uppered text) option
      | none => freeText casing text

/-- What is offered besides the options of a request. -/
def defaultChoices (options : List ApprovalOption) : List ApprovalOption :=
  (if "C" ∈ validKeys casing options then []
    else [{ key := "C", label := "Give different instructions" }]) ++
  (if "D" ∈ validKeys casing options then [] else [{ key := "D", label := "Stop this work" }])

def titled (title text : String) : List String := if text = "" then [] else ["", title, text]

/-- The text the human is shown. -/
def renderRequest (request : ApprovalRequest) : String :=
  let choice (option : ApprovalOption) : String := "[" ++ option.key ++ "] " ++ option.label
  Py.join "\n" <|
    [casing.uppered request.category.value ++ " DECISION REQUIRED", "", "Issue:", request.issue] ++
    titled "Why this matters:" request.whyItMatters ++
    titled "Current approach:" request.currentApproach ++
    (if request.options.isEmpty then [] else
      ["", "Possible directions:"] ++ request.options.flatMap fun option =>
        (option.key ++ ". " ++ option.label) ::
          (if option.description = "" then [] else ["   " ++ option.description])) ++
    titled "Recommended next step:" request.recommendedAction ++
    ["", if request.cloudReasoningInvoked then "Cloud reasoning HAS been invoked for analysis."
      else "Cloud reasoning has NOT been invoked yet.", "", "Choose:"] ++
    (request.options ++ defaultChoices casing request.options).map choice

end Parser

/-! ## What an entered key means -/

/-- The decision is the one the label of the option denotes. -/
structure Means (casing : PyCasing) (decision : HumanDecision) (option : ApprovalOption) :
    Prop where
  action : decision.action = denoted casing option
  selected : denoted casing option = .chooseOption →
    decision.selectedOptions = [casing.uppered option.key]

/-- The text is none of the keys as it is, and what the parser makes of it is what the option
denotes all the same: another option that denotes it too, or the decision to modify. -/
def SameAnyway (casing : PyCasing) (options : List ApprovalOption) (option : ApprovalOption)
    (text : String) : Prop :=
  (∃ other ∈ options, casing.uppered other.key = casing.uppered text ∧
      denoted casing other = denoted casing option ∧ denoted casing option ≠ .chooseOption) ∨
    ((∀ other ∈ options, casing.uppered other.key ≠ casing.uppered text) ∧
      hasConstraints (casing.lowered text) = false ∧ denoted casing option = .modify)

/-- An entered key keeps the meaning of its label: without the blanks around it, it is no word
of the parser's own that means something else, and it is still the key. -/
structure Clear (casing : PyCasing) (options : List ApprovalOption) (option : ApprovalOption)
    (entered : String) : Prop where
  word : ∀ action, shortcut ((validKeys casing options).contains "A")
      (casing.lowered (Py.strip entered)) = some action → action = denoted casing option
  blanks : shortcut ((validKeys casing options).contains "A")
      (casing.lowered (Py.strip entered)) = none →
    casing.uppered (Py.strip entered) ≠ casing.uppered entered →
      SameAnyway casing options option (Py.strip entered)

variable {casing : PyCasing} {options : List ApprovalOption} {option : ApprovalOption}
  {raw entered : String}

/-- No word of the parser's own chooses an option. -/
theorem shortcut_ne_choose {keyA : Bool} {lowered : String} :
    shortcut keyA lowered ≠ some .chooseOption := by
  unfold shortcut
  split_ifs <;> simp

theorem parse_of_shortcut {action : ApprovalAction}
    (isWord : shortcut ((validKeys casing options).contains "A")
      (casing.lowered (Py.strip raw)) = some action) :
    parseDecisionInput casing raw options = ofWord (Py.strip raw) action := by
  unfold parseDecisionInput
  dsimp only
  rw [isWord]

theorem parse_of_named
    (notWord : shortcut ((validKeys casing options).contains "A")
      (casing.lowered (Py.strip raw)) = none)
    (isNamed : named casing options (Py.strip raw) = some option) :
    parseDecisionInput casing raw options =
      chosen casing (casing.uppered (Py.strip raw)) option := by
  unfold parseDecisionInput
  dsimp only
  rw [notWord, isNamed]

theorem parse_of_other
    (notWord : shortcut ((validKeys casing options).contains "A")
      (casing.lowered (Py.strip raw)) = none)
    (notNamed : named casing options (Py.strip raw) = none) :
    parseDecisionInput casing raw options = freeText casing (Py.strip raw) := by
  unfold parseDecisionInput
  dsimp only
  rw [notWord, notNamed]

@[simp]
theorem ofWord_action (text : String) (action : ApprovalAction) :
    (ofWord text action).action = action := by
  cases action <;> rfl

theorem means_ofWord {text : String} {action : ApprovalAction} (notChoose : action ≠ .chooseOption) :
    Means casing (ofWord text action) option ↔ action = denoted casing option := by
  constructor
  · intro means
    rw [← ofWord_action text action, means.action]
  · intro same
    refine ⟨(ofWord_action text action).trans same, fun chooses => ?_⟩
    exact absurd (same.trans chooses) notChoose

@[simp]
theorem chosen_action (key : String) (option : ApprovalOption) :
    (chosen casing key option).action = denoted casing option := by
  simp only [chosen]

theorem means_chosen {key : String} {other : ApprovalOption} :
    Means casing (chosen casing key other) option ↔ denoted casing other = denoted casing option ∧
      (denoted casing option = .chooseOption → key = casing.uppered option.key) := by
  constructor
  · intro means
    have same : denoted casing other = denoted casing option :=
      (chosen_action key other).symm.trans means.action
    refine ⟨same, fun chooses => ?_⟩
    have selected := means.selected chooses
    simp only [chosen, same, chooses] at selected
    exact List.singleton_inj.mp selected
  · rintro ⟨same, isKey⟩
    refine ⟨(chosen_action key other).trans same, fun chooses => ?_⟩
    simp only [chosen, same, chooses, isKey chooses]

/-- No label denotes approval. -/
theorem denoted_ne_approve : denoted casing option ≠ .approve := by
  unfold denoted labelAction
  split_ifs <;> simp

theorem means_freeText {text : String} :
    Means casing (freeText casing text) option ↔
      hasConstraints (casing.lowered text) = false ∧ denoted casing option = .modify := by
  constructor
  · intro means
    have isAction := means.action
    rw [freeText] at isAction
    split at isAction
    · exact absurd isAction.symm denoted_ne_approve
    · rename_i noConstraints
      exact ⟨by simpa using noConstraints, isAction.symm⟩
  · rintro ⟨noConstraints, modifies⟩
    simp only [freeText, noConstraints, Bool.false_eq_true, if_false]
    exact ⟨modifies.symm, fun chooses => by rw [modifies] at chooses; cases chooses⟩

/-- With distinct keys, the option a text names is the one with that key. -/
theorem named_of_key {options : List ApprovalOption} (distinct : (validKeys casing options).Nodup)
    {option : ApprovalOption} (isOption : option ∈ options) {text : String}
    (isKey : casing.uppered option.key = casing.uppered text) :
    named casing options text = some option := by
  cases found : named casing options text with
  | none => exact absurd (decide_eq_true isKey) (List.find?_eq_none.mp found option isOption)
  | some other =>
      have otherKey : casing.uppered other.key = casing.uppered text := by
        simpa using List.find?_some found
      rw [List.inj_on_of_nodup_map distinct (List.mem_of_find?_eq_some found) isOption
        (otherKey.trans isKey.symm)]

/-- What a text that is no word of the parser's own and not the key of the option means. -/
theorem sameAnyway_iff (distinct : (validKeys casing options).Nodup)
    (notWord : shortcut ((validKeys casing options).contains "A")
      (casing.lowered (Py.strip raw)) = none)
    (notKey : casing.uppered (Py.strip raw) ≠ casing.uppered option.key) :
    Means casing (parseDecisionInput casing raw options) option ↔
      SameAnyway casing options option (Py.strip raw) := by
  cases isNamed : named casing options (Py.strip raw) with
  | some other =>
      have otherThere : other ∈ options := List.mem_of_find?_eq_some isNamed
      have otherKey : casing.uppered other.key = casing.uppered (Py.strip raw) := by
        simpa using List.find?_some isNamed
      rw [parse_of_named notWord isNamed, means_chosen]
      constructor
      · rintro ⟨same, isKey⟩
        exact .inl ⟨other, otherThere, otherKey, same, fun chooses => notKey (isKey chooses)⟩
      · rintro (⟨another, isThere, anotherKey, same, notChoose⟩ | ⟨notNamed, _, _⟩)
        · rw [named_of_key distinct isThere anotherKey] at isNamed
          rw [Option.some.inj isNamed] at same
          exact ⟨same, fun chooses => absurd chooses notChoose⟩
        · exact absurd otherKey (notNamed other otherThere)
  | none =>
      rw [parse_of_other notWord isNamed, means_freeText]
      have noOption : ∀ other ∈ options,
          casing.uppered other.key ≠ casing.uppered (Py.strip raw) := by
        intro other isThere isKey
        exact List.find?_eq_none.mp isNamed other isThere (decide_eq_true isKey)
      constructor
      · exact fun modifies => .inr ⟨noOption, modifies⟩
      · rintro (⟨other, isThere, isKey, _⟩ | ⟨_, modifies⟩)
        · exact absurd isKey (noOption other isThere)
        · exact modifies

/-- An option is meant by a text that is a word of the parser's own with the action that its
label denotes. -/
theorem means_of_word {word label : String} {action : ApprovalAction}
    (isWord : ∀ keyA, shortcut keyA word = some action) (denotes : labelAction label = action)
    (isText : casing.lowered (Py.strip raw) = word) (isLabel : casing.lowered option.label = label) :
    Means casing (parseDecisionInput casing raw options) option := by
  have isShortcut := isWord ((validKeys casing options).contains "A")
  rw [← isText] at isShortcut
  have notChoose : action ≠ .chooseOption := by
    rintro rfl
    exact shortcut_ne_choose isShortcut
  rw [parse_of_shortcut isShortcut, means_ofWord notChoose, denoted, isLabel, denotes]

/-- A key entered in either case is the word that it is in lower case. -/
theorem entered_lowered {key word : String} (isLower : casing.lowered key = word)
    (same : casing.lowered word = word) (isKey : Py.strip key = key) (isWord : Py.strip word = word)
    (enters : entered = key ∨ entered = casing.lowered key)
    (isRaw : Py.strip raw = Py.strip entered) : casing.lowered (Py.strip raw) = word := by
  rw [isRaw]
  rcases enters with rfl | rfl
  · rw [isKey, isLower]
  · rw [isLower, isWord, same]

/-- The default choices are words of the parser's own. -/
theorem default_means {option : ApprovalOption} (isDefault : option ∈ defaultChoices casing options)
    (enters : entered = option.key ∨ entered = casing.lowered option.key)
    (isRaw : Py.strip raw = Py.strip entered) :
    Means casing (parseDecisionInput casing raw options) option := by
  rcases List.mem_append.mp isDefault with isThere | isThere
  · split at isThere
    · cases isThere
    obtain rfl := List.mem_singleton.mp isThere
    have isLower : casing.lowered "C" = "c" :=
      casing.lowered_of_ascii (by decide +kernel) (by decide +kernel)
    have same : casing.lowered "c" = "c" :=
      casing.lowered_of_ascii (by decide +kernel) (by decide +kernel)
    have isLabel : casing.lowered "Give different instructions" = "give different instructions" :=
      casing.lowered_of_ascii (by decide +kernel) (by decide +kernel)
    have isWord (keyA : Bool) : shortcut keyA "c" = some .modify := by
      cases keyA <;> decide
    have modifies : labelAction "give different instructions" = .modify := by decide +kernel
    refine means_of_word isWord modifies ?_ isLabel
    exact entered_lowered isLower same (by decide +kernel) (by decide +kernel) enters isRaw
  · split at isThere
    · cases isThere
    obtain rfl := List.mem_singleton.mp isThere
    have isLower : casing.lowered "D" = "d" :=
      casing.lowered_of_ascii (by decide +kernel) (by decide +kernel)
    have same : casing.lowered "d" = "d" :=
      casing.lowered_of_ascii (by decide +kernel) (by decide +kernel)
    have isLabel : casing.lowered "Stop this work" = "stop this work" :=
      casing.lowered_of_ascii (by decide +kernel) (by decide +kernel)
    have isWord (keyA : Bool) : shortcut keyA "d" = some .stop := by
      cases keyA <;> decide
    have stops : labelAction "stop this work" = .stop := by decide +kernel
    refine means_of_word isWord stops ?_ isLabel
    exact entered_lowered isLower same (by decide +kernel) (by decide +kernel) enters isRaw

/-- Entering the key of an option means what its label says exactly if the key is clear of the
parser's own words and of blanks of its own; the default choices always mean what they say. -/
theorem menu_means_iff (distinct : (validKeys casing options).Nodup) {before after : String}
    (isBefore : Py.Blank before) (isAfter : Py.Blank after) :
    (∀ option ∈ options, casing.uppered entered = casing.uppered option.key →
      (Means casing (parseDecisionInput casing (before ++ entered ++ after) options) option ↔
        Clear casing options option entered)) ∧
    ∀ option ∈ defaultChoices casing options,
      entered = option.key ∨ entered = casing.lowered option.key →
        Means casing (parseDecisionInput casing (before ++ entered ++ after) options) option := by
  have stripped : Py.strip (before ++ entered ++ after) = Py.strip entered :=
    Py.strip_surrounded isBefore isAfter
  generalize before ++ entered ++ after = raw at stripped ⊢
  refine ⟨fun option isOption isKey => ?_, fun option isDefault enters =>
    default_means isDefault enters stripped⟩
  cases isWord : shortcut ((validKeys casing options).contains "A")
      (casing.lowered (Py.strip raw)) with
  | some action =>
      have notChoose : action ≠ .chooseOption := by
        rintro rfl
        exact shortcut_ne_choose isWord
      rw [parse_of_shortcut isWord, means_ofWord notChoose]
      rw [stripped] at isWord
      constructor
      · intro same
        refine ⟨fun other isOther => ?_, fun isNone => ?_⟩
        · rw [isWord] at isOther
          rw [← Option.some.inj isOther, same]
        · rw [isWord] at isNone
          cases isNone
      · exact fun clear => clear.word action isWord
  | none =>
      have noWord : Clear casing options option entered ↔
          (casing.uppered (Py.strip entered) ≠ casing.uppered entered →
            SameAnyway casing options option (Py.strip entered)) := by
        rw [stripped] at isWord
        refine ⟨fun clear => clear.blanks isWord, fun blanks => ⟨fun action isOther => ?_,
          fun _ => blanks⟩⟩
        rw [isWord] at isOther
        cases isOther
      rw [noWord, isKey]
      by_cases sameKey : casing.uppered (Py.strip raw) = casing.uppered option.key
      · rw [parse_of_named isWord (named_of_key distinct isOption sameKey.symm), means_chosen]
        rw [stripped] at sameKey
        exact ⟨fun _ notSame => absurd sameKey notSame, fun _ => ⟨rfl, fun _ => stripped ▸ sameKey⟩⟩
      · rw [sameAnyway_iff distinct isWord sameKey, stripped]
        rw [stripped] at sameKey
        exact ⟨fun same _ => same, fun same => same sameKey⟩

/-- The options of the implementation stage. -/
def implementMenu : List ApprovalOption := (ComputeSifter.implementRequest .major "").options

theorem implementMenu_nodup : (validKeys .ascii implementMenu).Nodup := by
  decide +kernel

/-- That menu offers to stop under the key `C`, and entering `C` gives other instructions. -/
theorem stopKey_modifies :
    (validKeys .ascii implementMenu).Nodup ∧
      { key := "C", label := "Stop this work" } ∈ implementMenu ∧
      denoted .ascii { key := "C", label := "Stop this work" } = .stop ∧
      (parseDecisionInput .ascii "C" implementMenu).action = .modify := by
  refine ⟨implementMenu_nodup, ?_, by decide +kernel, by decide +kernel⟩
  simp [implementMenu, ComputeSifter.implementRequest]

/-- Its key `A` means what the label says, also with blanks around it. -/
theorem approveKey_chooses :
    ((∀ option ∈ implementMenu, PyCasing.ascii.uppered "a" = PyCasing.ascii.uppered option.key →
        (Means .ascii (parseDecisionInput .ascii (" " ++ "a" ++ "\n") implementMenu) option ↔
          Clear .ascii implementMenu option "a")) ∧
      ∀ option ∈ defaultChoices .ascii implementMenu,
        "a" = option.key ∨ "a" = PyCasing.ascii.lowered option.key →
          Means .ascii (parseDecisionInput .ascii (" " ++ "a" ++ "\n") implementMenu) option) ∧
      (parseDecisionInput .ascii " a\n" implementMenu).action = .chooseOption := by
  refine ⟨menu_means_iff implementMenu_nodup ?_ ?_, by decide +kernel⟩
  · simp [Py.Blank, Py.isSpace]
  · simp [Py.Blank, Py.isSpace]

end ApprovalMenu

end Aa.Sifter
