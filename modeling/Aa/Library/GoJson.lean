import Mathlib.Data.Rat.Defs
import Mathlib.Data.List.Sort
import Mathlib.Data.String.Basic
import Aa.Library.GoText

/-!
# JSON values and decoding into Go structures

A decoded JSON document, and `json.Unmarshal` into a structure: object keys are
taken in their written order, a key selects the field of that name or of the same
name up to case, and a null leaves the target as it is.
-/

namespace Aa.Library

/-- A JSON value as `encoding/json` holds it in an `any`. -/
inductive Json where
  | null
  | bool (value : Bool)
  | num (value : ℚ)
  | str (value : String)
  | arr (items : List Json)
  | obj (fields : List (String × Json))

namespace Json

/-- The entries of a `map[string]any`. -/
abbrev Object := List (String × Json)

instance : Inhabited Json := ⟨.null⟩

/-- The kind name in an `UnmarshalTypeError`. -/
def kindName : Json → String
  | .null => "null"
  | .bool _ => "bool"
  | .num _ => "number"
  | .str _ => "string"
  | .arr _ => "array"
  | .obj _ => "object"

/-- The type assertion `value.(string)`. -/
def asString : Json → Option String
  | .str value => some value
  | _ => none

/-- The type assertion `value.(map[string]any)`. -/
def asObject : Json → Option Object
  | .obj fields => some fields
  | _ => none

/-- The read `m[field].(string)` of a possibly nil map. -/
def stringAt (params : Option Object) (field : String) : Option String :=
  ((params.getD []).lookup field).bind asString

end Json

namespace GoJson

/-- A decoder writes a JSON value over an existing target. -/
abbrev Decoder (α : Type) := Json → α → Except String α

/-- The error for a value that does not fit the target type. -/
def typeError (value : Json) (target : String) : String :=
  "json: cannot unmarshal " ++ value.kindName ++ " into Go value of type " ++ target

def string : Decoder String
  | .null, target => .ok target
  | .str value, _ => .ok value
  | value, _ => .error (typeError value "string")

def bool : Decoder Bool
  | .null, target => .ok target
  | .bool value, _ => .ok value
  | value, _ => .error (typeError value "bool")

/-- A 64-bit `int`: an integer literal in range. -/
def int : Decoder ℤ
  | .null, target => .ok target
  | .num value, _ =>
      if value.den = 1 ∧ -9223372036854775808 ≤ value.num ∧ value.num ≤ 9223372036854775807 then
        .ok value.num
      else .error (typeError (.num value) "int")
  | value, _ => .error (typeError value "int")

/-- A pointer: null clears it, anything else decodes into a new target. -/
def pointer {α : Type} (zero : α) (decode : Decoder α) : Decoder (Option α)
  | .null, _ => .ok none
  | value, _ => (decode value zero).map some

/-- A slice: null clears it, an array decodes each item into a new target. -/
def slice {α : Type} (zero : α) (decode : Decoder α) : Decoder (List α)
  | .null, _ => .ok []
  | .arr items, _ => items.mapM fun item => decode item zero
  | value, _ => .error (typeError value "slice")

/-- A `map[string]any`. -/
def anyMap : Decoder Json.Object
  | .null, _ => .ok []
  | .obj fields, _ => .ok fields
  | value, _ => .error (typeError value "map[string]interface {}")

/-- The case fold `encoding/json` compares field names with. -/
def foldChar (c : Char) : Char :=
  if c.val = 0x17f then 's' else if c.val = 0x212a then 'k' else c.toLower

def foldName (name : String) : List Char := name.toList.map foldChar

/-- The decoder of the field a key selects: of that very name, else of the name up to case. -/
def fieldFor {α : Type} (fields : List (String × Decoder α)) (key : String) :
    Option (Decoder α) :=
  match fields.lookup key with
  | some decode => some decode
  | none => (fields.find? fun field => foldName field.1 == foldName key).map Prod.snd

/-- A structure: each key of the object in turn writes the field it selects. -/
def struct {α : Type} (name : String) (fields : List (String × Decoder α)) : Decoder α
  | .null, target => .ok target
  | .obj entries, target =>
      (entries.insertionSort fun left right => left.1 ≤ right.1).foldlM
        (fun current entry =>
          match fieldFor fields entry.1 with
          | some decode => decode entry.2 current
          | none => .ok current)
        target
  | value, _ => .error (typeError value name)

/-- The decoder of one field of a structure. -/
def field {α β : Type} (name : String) (decode : Decoder β) (read : α → β)
    (write : α → β → α) : String × Decoder α :=
  (name, fun value target => (decode value (read target)).map (write target))

/-- A field that is decoded writes some value into the target. -/
theorem eq_write_of_field {α β : Type} {name : String} {decode : Decoder β} {read : α → β}
    {write : α → β → α} {value : Json} {current next : α}
    (decodes : (field name decode read write).2 value current = .ok next) :
    ∃ written, decode value (read current) = .ok written ∧ next = write current written := by
  unfold field at decodes
  cases isWritten : decode value (read current) with
  | error message =>
      simp only [isWritten] at decodes
      cases decodes
  | ok written =>
      simp only [isWritten] at decodes
      cases decodes
      exact ⟨written, rfl, rfl⟩

/-- A field keeps what writing it keeps. -/
theorem keeps_field {α β γ : Type} {name : String} {decode : Decoder β} {read : α → β}
    {write : α → β → α} {project : α → γ}
    (keeps : ∀ current written, project (write current written) = project current) (value : Json)
    (current next : α) (decodes : (field name decode read write).2 value current = .ok next) :
    project next = project current := by
  rcases eq_write_of_field decodes with ⟨written, -, rfl⟩
  exact keeps current written

section Struct

variable {α β ε : Type}

/-- A sequence that succeeds is a first part that succeeds and a rest that succeeds on it. -/
theorem ok_of_bind {first : Except ε α} {rest : α → Except ε β} {result : β}
    (succeeds : first >>= rest = .ok result) :
    ∃ middle, first = .ok middle ∧ rest middle = .ok result := by
  cases first with
  | error message => cases succeeds
  | ok middle => exact ⟨middle, rfl, succeeds⟩

/-- What no step of a loop changes, the loop does not change. -/
theorem foldlM_keeps {γ : Type} {step : α → γ → Except ε α} {project : α → β} {entries : List γ}
    {target result : α}
    (keeps : ∀ entry ∈ entries, ∀ current next, step current entry = .ok next →
      project next = project current)
    (loops : entries.foldlM step target = .ok result) : project result = project target := by
  induction entries generalizing target with
  | nil =>
      cases loops
      rfl
  | cons entry rest ih =>
      rw [List.foldlM_cons] at loops
      rcases ok_of_bind loops with ⟨next, isNext, fromNext⟩
      rw [ih (fun other isThere => keeps other (List.mem_cons_of_mem _ isThere)) fromNext]
      exact keeps entry List.mem_cons_self target next isNext

/-- A key that is the very name of a field selects a field of that name. -/
theorem mem_of_fieldFor {fields : List (String × Decoder α)} {key : String} {decode : Decoder α}
    (known : key ∈ fields.map Prod.fst) (isField : fieldFor fields key = some decode) :
    (key, decode) ∈ fields := by
  unfold fieldFor at isField
  cases found : fields.lookup key with
  | some exact =>
      simp only [found, Option.some.injEq] at isField
      subst isField
      rcases List.lookup_eq_some_iff.mp found with ⟨before, after, isSplit, -⟩
      simp [isSplit]
  | none =>
      rcases List.mem_map.mp known with ⟨field, isThere, isName⟩
      have noMatch := List.lookup_eq_none_iff.mp found field isThere
      simp [isName] at noMatch

/-- A part of a structure that only the field of one key writes is what the value under that key
makes of it. -/
theorem struct_part {fields : List (String × Decoder α)} {name key : String} {value : Json}
    {entries : Json.Object} (project : α → β) {part : β} {decode : Decoder α} {target result : α}
    (decodes : struct name fields (.obj entries) target = .ok result)
    (nodup : (entries.map Prod.fst).Nodup) (known : entries.map Prod.fst ⊆ fields.map Prod.fst)
    (isThere : (key, value) ∈ entries) (isField : fieldFor fields key = some decode)
    (sets : ∀ current next, decode value current = .ok next → project next = part)
    (keeps : ∀ other ∈ fields, other.1 ≠ key → ∀ value current next,
      other.2 value current = .ok next → project next = project current) : project result = part := by
  simp only [struct] at decodes
  have sorted := List.perm_insertionSort (fun left right : String × Json => left.1 ≤ right.1) entries
  generalize entries.insertionSort (fun left right => left.1 ≤ right.1) = order at decodes sorted
  have orderNodup : (order.map Prod.fst).Nodup := (sorted.map Prod.fst).nodup_iff.mpr nodup
  rcases List.mem_iff_append.mp (sorted.mem_iff.mpr isThere) with ⟨before, after, rfl⟩
  rw [List.foldlM_append] at decodes
  rcases ok_of_bind decodes with ⟨middle, -, fromMiddle⟩
  rw [List.foldlM_cons, isField] at fromMiddle
  rcases ok_of_bind fromMiddle with ⟨next, decoded, fromNext⟩
  rw [← sets middle next decoded]
  refine foldlM_keeps ?_ fromNext
  intro entry isAfter current following steps
  have keyNe : entry.1 ≠ key := by
    intro isKey
    rw [List.map_append, List.map_cons] at orderNodup
    refine (List.nodup_cons.mp (List.nodup_append.mp orderNodup).2.1).1 ?_
    rw [← isKey]
    exact List.mem_map.mpr ⟨entry, isAfter, rfl⟩
  have isEntry : entry ∈ entries := sorted.mem_iff.mp (by simp [isAfter])
  have isKnown : entry.1 ∈ fields.map Prod.fst := known (List.mem_map.mpr ⟨entry, isEntry, rfl⟩)
  split at steps
  · rename_i other isOther
    exact keeps (entry.1, other) (mem_of_fieldFor isKnown isOther) keyNe entry.2 current following
      steps
  · cases steps
    rfl

/-- The decoder a key selects is that of a field of that name, up to case. -/
theorem exists_of_fieldFor {fields : List (String × Decoder α)} {key : String} {decode : Decoder α}
    (isField : fieldFor fields key = some decode) :
    ∃ field ∈ fields, field.2 = decode ∧ foldName field.1 = foldName key := by
  unfold fieldFor at isField
  cases found : fields.lookup key with
  | some exact =>
      simp only [found, Option.some.injEq] at isField
      subst isField
      rcases List.lookup_eq_some_iff.mp found with ⟨before, after, isSplit, -⟩
      exact ⟨(key, exact), by simp [isSplit], rfl, rfl⟩
  | none =>
      simp only [found, Option.map_eq_some_iff] at isField
      rcases isField with ⟨field, isFound, isDecode⟩
      exact ⟨field, List.mem_of_find?_eq_some isFound, isDecode,
        by simpa using List.find?_some isFound⟩

/-- A key that selects no field is not the name of one, up to case. -/
theorem foldName_ne_of_fieldFor {fields : List (String × Decoder α)} {key : String}
    (isNone : fieldFor fields key = none) : ∀ field ∈ fields, foldName field.1 ≠ foldName key := by
  unfold fieldFor at isNone
  cases found : fields.lookup key with
  | some exact => simp [found] at isNone
  | none => simpa [found] using isNone

/-- The one field of a structure is selected by its name, up to case. -/
theorem fieldFor_single (key other : String) (decode : Decoder α) :
    fieldFor [(key, decode)] other = if foldName key = foldName other then some decode else none := by
  by_cases same : other = key
  · subst same
    simp [fieldFor]
  · simp only [fieldFor, List.lookup_cons, beq_eq_false_iff_ne.mpr same, List.lookup_nil,
      List.find?_cons, List.find?_nil]
    by_cases folds : foldName key = foldName other
    · simp [folds]
    · simp [folds, beq_eq_false_iff_ne.mpr folds]

/-- What an entry of an object makes of a target. -/
def enter (fields : List (String × Decoder α)) (current : α) (entry : String × Json) :
    Except String α :=
  match fieldFor fields entry.1 with
  | some decode => decode entry.2 current
  | none => .ok current

theorem struct_obj (name : String) (fields : List (String × Decoder α)) (entries : Json.Object)
    (target : α) : struct name fields (.obj entries) target =
      (entries.insertionSort fun left right => left.1 ≤ right.1).foldlM (enter fields) target := rfl

theorem enter_single (key : String) (decode : Decoder α) (current : α) (entry : String × Json) :
    enter [(key, decode)] current entry =
      if foldName key = foldName entry.1 then decode entry.2 current else .ok current := by
  rw [enter, fieldFor_single]
  by_cases folds : foldName key = foldName entry.1
  · simp [folds]
  · simp [folds]

/-- Where one field alone writes a part, an entry makes of the part what the field makes of it. -/
theorem enter_project {fields : List (String × Decoder α)} {key : String} {decode : Decoder β}
    (project : α → β) (known : key ∈ fields.map Prod.fst)
    (projects : ∀ field ∈ fields,
      (foldName field.1 = foldName key ∧ ∀ value current next, field.2 value current = .ok next →
        decode value (project current) = .ok (project next)) ∨
      (foldName field.1 ≠ foldName key ∧ ∀ value current next, field.2 value current = .ok next →
        project next = project current))
    {entry : String × Json} {current next : α} (enters : enter fields current entry = .ok next) :
    enter [(key, decode)] (project current) entry = .ok (project next) := by
  rw [enter] at enters
  rw [enter_single]
  cases selected : fieldFor fields entry.1 with
  | none =>
      rw [selected] at enters
      cases enters
      rcases List.mem_map.mp known with ⟨field, isThere, rfl⟩
      rw [if_neg (foldName_ne_of_fieldFor selected field isThere)]
  | some selects =>
      rw [selected] at enters
      rcases exists_of_fieldFor selected with ⟨field, isThere, rfl, folds⟩
      rcases projects field isThere with ⟨isKey, writes⟩ | ⟨notKey, keeps⟩
      · rw [if_pos (isKey.symm.trans folds)]
        exact writes _ _ _ enters
      · rw [if_neg fun same => notKey (folds.trans same.symm), keeps _ _ _ enters]

/-- What a structure decodes into a part that one field alone writes is what that field decodes. -/
theorem struct_project {fields : List (String × Decoder α)} {name other key : String}
    {decode : Decoder β} {value : Json} {target result : α} (project : α → β)
    (known : key ∈ fields.map Prod.fst)
    (projects : ∀ field ∈ fields,
      (foldName field.1 = foldName key ∧ ∀ value current next, field.2 value current = .ok next →
        decode value (project current) = .ok (project next)) ∨
      (foldName field.1 ≠ foldName key ∧ ∀ value current next, field.2 value current = .ok next →
        project next = project current))
    (decodes : struct name fields value target = .ok result) :
    struct other [(key, decode)] value (project target) = .ok (project result) := by
  have loop : ∀ (entries : Json.Object) (target : α),
      entries.foldlM (enter fields) target = .ok result →
      entries.foldlM (enter [(key, decode)]) (project target) = .ok (project result) := by
    intro entries
    induction entries with
    | nil =>
        intro target loops
        cases loops
        rfl
    | cons entry rest ih =>
        intro target loops
        rw [List.foldlM_cons] at loops ⊢
        rcases ok_of_bind loops with ⟨next, isNext, fromNext⟩
        rw [enter_project project known projects isNext]
        exact ih next fromNext
  cases value with
  | null =>
      cases decodes
      rfl
  | obj entries => exact loop _ target decodes
  | _ => cases decodes

/-- A string field reads the string under its name, if no other name is the same up to case. -/
theorem struct_string {name key text : String} {entries : Json.Object}
    (nodup : (entries.map Prod.fst).Nodup)
    (alone : ∀ other ∈ entries.map Prod.fst, foldName key = foldName other → other = key)
    (isThere : (key, .str text) ∈ entries) (target : String) :
    struct name [(key, string)] (.obj entries) target = .ok text := by
  have sorted := List.perm_insertionSort (fun left right : String × Json => left.1 ≤ right.1) entries
  rw [struct_obj]
  generalize entries.insertionSort (fun left right => left.1 ≤ right.1) = order at sorted
  have orderNodup : (order.map Prod.fst).Nodup := (sorted.map Prod.fst).nodup_iff.mpr nodup
  have skips : ∀ (part : Json.Object) (current : String),
      (∀ entry ∈ part, entry ∈ entries ∧ entry.1 ≠ key) →
      part.foldlM (enter [(key, string)]) current = .ok current := by
    intro part
    induction part with
    | nil => exact fun current _ => rfl
    | cons entry rest ih =>
        intro current others
        rcases others entry List.mem_cons_self with ⟨isEntry, keyNe⟩
        have unselected : foldName key ≠ foldName entry.1 := fun folds =>
          keyNe (alone entry.1 (List.mem_map.mpr ⟨entry, isEntry, rfl⟩) folds)
        rw [List.foldlM_cons, enter_single, if_neg unselected]
        exact ih current fun other isOther => others other (List.mem_cons_of_mem _ isOther)
  rcases List.mem_iff_append.mp (sorted.mem_iff.mpr isThere) with ⟨before, after, rfl⟩
  simp only [List.map_append, List.map_cons] at orderNodup
  rcases List.nodup_append.mp orderNodup with ⟨-, afterNodup, apart⟩
  have skipsBefore := skips before target fun entry isBefore =>
    ⟨sorted.mem_iff.mp (by simp [isBefore]),
      apart entry.1 (List.mem_map.mpr ⟨entry, isBefore, rfl⟩) key List.mem_cons_self⟩
  have skipsAfter := skips after text fun entry isAfter =>
    ⟨sorted.mem_iff.mp (by simp [isAfter]), by
      intro isKey
      refine (List.nodup_cons.mp afterNodup).1 ?_
      rw [← isKey]
      exact List.mem_map.mpr ⟨entry, isAfter, rfl⟩⟩
  have enters : enter [(key, string)] target (key, .str text) = .ok text := by
    rw [enter_single, if_pos rfl]
    rfl
  have continues : ((key, Json.str text) :: after).foldlM (enter [(key, string)]) target =
      .ok text := by
    rw [List.foldlM_cons, enters]
    exact skipsAfter
  rw [List.foldlM_append, skipsBefore]
  exact continues

/-- What a field decodes is what is written. -/
theorem decodes_of_field {name : String} {decode : Decoder β} {read : α → β} {write : α → β → α}
    (reads : ∀ current written, read (write current written) = written) {value : Json}
    {current next : α} (decodes : (field name decode read write).2 value current = .ok next) :
    decode value (read current) = .ok (read next) := by
  rcases eq_write_of_field decodes with ⟨written, isWritten, rfl⟩
  rw [reads, isWritten]

end Struct

end GoJson

end Aa.Library
