import Aa.Contracts.Bindings
import Aa.Contracts.Python

/-!
# Go objects read by Python

An object that the Go validator accepts is written as JSON and read by Python. The Python
validator accepts it as well, unless it is an execution contract whose slice of
capabilities is nil: that is written as null, which Python does not count as there.
-/

namespace Aa.Library

/-! ## What Python reads of what Go writes -/

/-- The float nearest to a rational number. -/
def PyFloat.ofRat (value : ℚ) : PyFloat :=
  match isNearest : Binary64.nearest |value| with
  | none => .infinite (value < 0)
  | some magnitude =>
      .finite
        { negative := value < 0
          magnitude := magnitude
          nonneg := Binary64.nearest_nonneg (abs_nonneg _) isNearest
          isDouble := Binary64.nearest_of_nearest (abs_nonneg _) isNearest }

/-- Go writes a number without a point where it is integral and below `1e21`, which Python reads
as an `int`. -/
def PyNumber.ofGo (value : ℚ) : PyNumber :=
  if value.isInt ∧ |value| < 10 ^ 21 then .int value.num else .float (.ofRat value)

/-- The float nearest to a number that is not negative. -/
theorem PyFloat.ofRat_of_nonneg {value : ℚ} (nonneg : 0 ≤ value) :
    (Binary64.nearest value = none ∧ PyFloat.ofRat value = .infinite false) ∨
    ∃ double, PyFloat.ofRat value = .finite double ∧ 0 ≤ double.value ∧
      Binary64.nearest value = some double.value := by
  have notNegative : ¬ value < 0 := not_lt.mpr nonneg
  rw [PyFloat.ofRat]
  split
  · rename_i isNone
    rw [abs_of_nonneg nonneg] at isNone
    refine .inl ⟨isNone, ?_⟩
    simp [notNegative]
  · rename_i magnitude isSome
    rw [abs_of_nonneg nonneg] at isSome
    refine .inr ⟨_, rfl, ?_⟩
    simp only [JsonNumber.Double.value, notNegative, decide_false, Bool.false_eq_true, if_false]
    exact ⟨Binary64.nearest_nonneg nonneg isSome, isSome⟩

/-- A number below one is rounded to one at most. -/
theorem Binary64.rounded_le_one {value : ℚ} (positive : 0 < value) (below : value < 1) :
    Binary64.rounded value ≤ 1 := by
  have isLog : Int.log 2 value < 0 :=
    (Int.lt_zpow_iff_log_lt (by norm_num) positive).mp (by simpa using below)
  calc Binary64.rounded value ≤ 2 ^ (Binary64.unitExponent value + 53) :=
        Binary64.rounded_le_two_zpow
    _ ≤ 2 ^ (0 : ℤ) := by
        refine zpow_le_zpow_right₀ (by norm_num) ?_
        rw [Binary64.unitExponent]
        omega
    _ = 1 := zpow_zero _

theorem Binary64.nearest_le_one {value : ℚ} (positive : 0 < value) (below : value < 1) :
    ∃ double ≤ 1, Binary64.nearest value = some double := by
  have isSmall := Binary64.rounded_le_one positive below
  have inRange : Binary64.rounded value < 2 ^ 1024 :=
    isSmall.trans_lt (one_lt_pow₀ (by norm_num) (by norm_num))
  exact ⟨_, isSmall, if_pos inRange⟩

mutual

/-- `json.loads` of what `json.Marshal` writes. -/
def Json.toPy : Json → PyValue
  | .null => .null
  | .bool value => .bool value
  | .num value => .num (.ofGo value)
  | .str text => .str text
  | .arr items => .arr (Json.itemsToPy items)
  | .obj fields => .obj (Json.fieldsToPy fields)

def Json.itemsToPy : List Json → List PyValue
  | [] => []
  | item :: rest => item.toPy :: Json.itemsToPy rest

def Json.fieldsToPy : Json.Object → List (String × PyValue)
  | [] => []
  | (name, value) :: rest => (name, value.toPy) :: Json.fieldsToPy rest

end

namespace Json

/-- The members of an object. -/
def members : Json → Object
  | .obj fields => fields
  | _ => []

@[simp]
theorem toPy_str (text : String) : (Json.str text).toPy = .str text := by rw [toPy]

@[simp]
theorem toPy_bool (value : Bool) : (Json.bool value).toPy = .bool value := by rw [toPy]

@[simp]
theorem toPy_num (value : ℚ) : (Json.num value).toPy = .num (.ofGo value) := by rw [toPy]

@[simp]
theorem toPy_null : Json.null.toPy = .null := by rw [toPy]

@[simp]
theorem toPy_obj (fields : Object) : (Json.obj fields).toPy = .obj (fieldsToPy fields) := by rw [toPy]

theorem itemsToPy_eq_map (items : List Json) : itemsToPy items = items.map toPy := by
  induction items with
  | nil => rfl
  | cons item rest ih => rw [itemsToPy, ih, List.map_cons]

@[simp]
theorem toPy_arr (items : List Json) : (Json.arr items).toPy = .arr (items.map toPy) := by
  rw [toPy, itemsToPy_eq_map]

theorem lookup_fieldsToPy (fields : Object) (name : String) :
    (fieldsToPy fields).lookup name = (fields.lookup name).map toPy := by
  induction fields with
  | nil => rfl
  | cons field rest ih =>
      obtain ⟨other, value⟩ := field
      rw [fieldsToPy, List.lookup_cons, List.lookup_cons]
      split
      · rfl
      · exact ih

/-- What `dict.get` returns. -/
theorem get_fieldsToPy (fields : Object) (name : String) :
    PyValue.get (fieldsToPy fields) name = ((fields.lookup name).map toPy).getD .null := by
  rw [PyValue.get, lookup_fieldsToPy]

end Json

end Aa.Library

namespace Aa.Contracts

open Aa.Library

namespace V1

variable {field value : String} {allowed : List String}

theorem requireIdentifier_iff :
    requireIdentifier field value = .ok () ↔
      value ≠ "" ∧ byteLength value ≤ 256 ∧ matchesIdentifier value = true := by
  rw [requireIdentifier]
  split
  · rename_i isEmpty
    exact ⟨(fun no => nomatch no), fun accepted => absurd isEmpty accepted.1⟩
  · rename_i notEmpty
    split
    · rename_i isBad
      refine ⟨(fun no => nomatch no), fun accepted => ?_⟩
      rcases isBad with isLong | unmatched
      · exact absurd accepted.2.1 (by omega)
      · rw [accepted.2.2] at unmatched
        cases unmatched
    · rename_i isGood
      push Not at isGood
      exact ⟨fun _ => ⟨notEmpty, isGood.1, by simpa using isGood.2⟩, fun _ => rfl⟩

theorem requireVersion_iff : requireVersion field value = .ok () ↔ matchesVersion value = true := by
  rw [requireVersion]
  split
  · rename_i isVersion
    exact ⟨fun _ => isVersion, fun _ => rfl⟩
  · rename_i notVersion
    exact ⟨(fun no => nomatch no), fun isVersion => absurd isVersion notVersion⟩

theorem requireEnum_iff : requireEnum field value allowed = .ok () ↔ value ∈ allowed := by
  rw [requireEnum]
  split
  · rename_i isAllowed
    exact ⟨fun _ => isAllowed, fun _ => rfl⟩
  · rename_i notAllowed
    exact ⟨(fun no => nomatch no), fun isAllowed => absurd isAllowed notAllowed⟩

theorem requireHash_iff :
    requireHash field value = .ok () ↔
      value.toList.length = 64 ∧ value.toList.all isLowerHex = true := by
  rw [requireHash]
  split
  · rename_i isHash
    exact ⟨fun _ => isHash, fun _ => rfl⟩
  · rename_i notHash
    exact ⟨(fun no => nomatch no), fun isHash => absurd isHash notHash⟩

theorem requireCapability_iff {index : ℕ} :
    ExecutionContract.validate.requireCapability field index value = .ok () ↔
      value ∈ capabilities := by
  rw [ExecutionContract.validate.requireCapability]
  split
  · rename_i isKnown
    exact ⟨fun _ => isKnown, fun _ => rfl⟩
  · rename_i notKnown
    exact ⟨(fun no => nomatch no), fun isKnown => absurd isKnown notKnown⟩

theorem ok_of_within {place : String} {check : Check} (accepted : within place check = .ok ()) :
    check = .ok () := by
  cases check with
  | ok _ => rfl
  | error message => cases accepted

theorem ne_empty_of_requireTimestamp (accepted : requireTimestamp field value = .ok ()) :
    value ≠ "" := by
  rintro rfl
  cases accepted

/-- A text has at least as many bytes as characters. -/
theorem length_le_byteLength (value : String) : value.length ≤ byteLength value := by
  have counted (characters : List Char) (start : ℕ) :
      start + characters.length ≤ characters.foldl (fun length c => length + c.utf8Size) start := by
    induction characters generalizing start with
    | nil => exact Nat.le_refl _
    | cons c rest ih =>
        have positive := Char.utf8Size_pos c
        have later := ih (start + c.utf8Size)
        rw [List.foldl_cons, List.length_cons]
        omega
  have all := counted value.toList 0
  rwa [Nat.zero_add, String.length_toList] at all

end V1

namespace Python

variable {interpreter : PyInterpreter} {field text : String} {allowed : List String}

theorem identifier_of_go {goField : String}
    (accepted : V1.requireIdentifier goField text = .ok ()) :
    identifier interpreter field (.str text) = .ok () := by
  rcases V1.requireIdentifier_iff.mp accepted with ⟨notEmpty, fits, isIdentifier⟩
  have short : ¬ 256 < text.length := by
    have bounded := V1.length_le_byteLength text
    omega
  have isTruthy : PyValue.truthy (.str text) = true := by simpa [PyValue.truthy] using notEmpty
  have isLine : matchesLine V1.matchesIdentifier text = true := by
    rw [matchesLine, isIdentifier, Bool.true_or]
  rw [identifier, if_pos isTruthy]
  simp [short, isLine]

theorem version_of_go {goField : String} (accepted : V1.requireVersion goField text = .ok ()) :
    version interpreter field (.str text) = .ok () := by
  rw [version, matchesLine, V1.requireVersion_iff.mp accepted, Bool.true_or]
  rfl

theorem enum_iff : enum interpreter field (.str text) allowed = .ok () ↔ text ∈ allowed := by
  rw [enum]
  split
  · rename_i isAllowed
    exact ⟨fun _ => isAllowed, fun _ => rfl⟩
  · rename_i notAllowed
    refine ⟨fun no => ?_, fun isAllowed => absurd isAllowed notAllowed⟩
    rw [invalidValue] at no
    split at no
    · cases no
    · cases no

theorem required_str_iff : required field (.str text) = .ok () ↔ text ≠ "" := by
  rw [required]
  split
  · rename_i isEmpty
    exact ⟨(fun no => nomatch no), fun notEmpty => absurd isEmpty notEmpty⟩
  · rename_i notEmpty
    exact ⟨fun _ => notEmpty, fun _ => rfl⟩

theorem hash_of_go {goField : String} (accepted : V1.requireHash goField text = .ok ()) :
    optionalHash field (.str text) = .ok () := by
  rcases V1.requireHash_iff.mp accepted with ⟨isLong, isHex⟩
  rw [optionalHash, matchesLine, matchesHash, isLong, isHex]
  rfl

end Python

namespace V1

@[simp]
theorem lookup_member (name value key : String) :
    (member name value).lookup key = if key = name then some (.str value) else none := by
  by_cases isKey : key = name
  · simp [member, isKey]
  · have notKey : (key == name) = false := by simpa using isKey
    simp [member, List.lookup_cons, notKey, isKey]

@[simp]
theorem lookup_optionalMember (name value key : String) :
    (optionalMember name value).lookup key =
      if key = name ∧ value ≠ "" then some (.str value) else none := by
  unfold optionalMember
  split
  · simp [*]
  · simp [*]

@[simp]
theorem lookup_listMember {α : Type} (name : String) (encode : α → Json) (items : List α)
    (key : String) :
    (listMember name encode items).lookup key =
      if key = name ∧ items ≠ [] then some (.arr (items.map encode)) else none := by
  by_cases isKey : key = name
  · cases items <;> simp [listMember, isKey]
  · have notKey : (key == name) = false := by simpa using isKey
    cases items <;> simp [listMember, List.lookup_cons, notKey, isKey]

@[simp]
theorem lookup_pointerMember {α : Type} (name : String) (encode : α → Json) (value : Option α)
    (key : String) :
    (pointerMember name encode value).lookup key =
      if key = name then value.map encode else none := by
  by_cases isKey : key = name
  · cases value <;> simp [pointerMember, isKey]
  · have notKey : (key == name) = false := by simpa using isKey
    cases value <;> simp [pointerMember, List.lookup_cons, notKey, isKey]

@[simp]
theorem lookup_sliceMember {α : Type} (name : String) (encode : α → Json) (items : List α)
    (isNil : Bool) (key : String) :
    (sliceMember name encode items isNil).lookup key =
      if key = name then some (if isNil then .null else .arr (items.map encode)) else none := by
  by_cases isKey : key = name
  · simp [sliceMember, isKey]
  · have notKey : (key == name) = false := by simpa using isKey
    simp [sliceMember, List.lookup_cons, notKey, isKey]

@[simp]
theorem lookup_mapMember (name : String) (entries : Json.Object) (key : String) :
    (mapMember name entries).lookup key =
      if key = name ∧ entries ≠ [] then some (.obj entries) else none := by
  by_cases isKey : key = name
  · cases entries <;> simp [mapMember, isKey]
  · have notKey : (key == name) = false := by simpa using isKey
    cases entries <;> simp [mapMember, List.lookup_cons, notKey, isKey]

@[simp]
theorem lookup_pair (name : String) (value : Json) (rest : Json.Object) (key : String) :
    List.lookup key ((name, value) :: rest) =
      if key = name then some value else rest.lookup key := by
  by_cases isKey : key = name
  · simp [isKey]
  · have notKey : (key == name) = false := by simpa using isKey
    simp [List.lookup_cons, notKey, isKey]

end V1

/-- Whether an object is an execution contract with a nil slice of capabilities. -/
def V1.Contract.hasNilCapabilities : V1.Contract → Bool
  | .executionContract contract => contract.nilCapabilities
  | _ => false

/-! ## The kinds -/

namespace Python

theorem below_ofGo {value : ℚ} (nonneg : 0 ≤ value) : below (.ofGo value) 0 = false := by
  rw [PyNumber.ofGo]
  split
  · have isThere : (0 : ℚ) ≤ value.num := by exact_mod_cast Rat.num_nonneg.mpr nonneg
    simpa [below] using isThere
  · rcases PyFloat.ofRat_of_nonneg nonneg with ⟨-, isInfinite⟩ | ⟨double, isFinite, isThere, -⟩
    · rw [isInfinite]
      rfl
    · rw [isFinite]
      simpa [below] using isThere

theorem unit_ofGo {value : ℚ} (nonneg : 0 ≤ value) (le_one : value ≤ 1) :
    (atLeast (.ofGo value) 0 && atMost (.ofGo value) 1) = true := by
  rw [PyNumber.ofGo]
  split
  · rename_i isIntegral
    have isNum : (value.num : ℚ) = value :=
      Rat.coe_int_num_of_den_eq_one (by simpa [Rat.isInt] using isIntegral.1)
    simp [atLeast, atMost, isNum, nonneg, le_one]
  · rename_i notIntegral
    have isSmall : |value| < 10 ^ 21 := by
      rw [abs_of_nonneg nonneg]
      exact le_one.trans_lt (by norm_num)
    have notInteger (number : ℤ) : value ≠ number := by
      rintro rfl
      exact notIntegral ⟨by simp [Rat.isInt], isSmall⟩
    have positive : 0 < value := lt_of_le_of_ne nonneg (by simpa using (notInteger 0).symm)
    have isBelow : value < 1 := lt_of_le_of_ne le_one (by simpa using notInteger 1)
    rcases Binary64.nearest_le_one positive isBelow with ⟨nearest, isLe, isNearest⟩
    rcases PyFloat.ofRat_of_nonneg nonneg with ⟨isNone, -⟩ | ⟨double, isFinite, isThere, isDouble⟩
    · rw [isNearest] at isNone
      cases isNone
    · rw [isNearest] at isDouble
      rw [isFinite]
      have isUnit : double.value ≤ 1 := Option.some.inj isDouble ▸ isLe
      simp [atLeast, atMost, isThere, isUnit]

variable {members : Json.Object} {kind : String} {fields : List String} {envelope : V1.Envelope}

theorem lookup_of_prefix {header : Json.Object} {value : Json} (starts : header <+: members)
    (isMember : header.lookup field = some value) : members.lookup field = some value := by
  rcases starts with ⟨rest, rfl⟩
  rw [List.lookup_append, isMember]
  rfl

/-- The Python validator on an object whose header the Go validator accepts. -/
theorem accepts_iff (valid : envelope.validate = .ok ()) (isKind : envelope.kind = kind)
    (starts : envelope.members <+: members) (isKnown : requiredFields.lookup kind = some fields) :
    validate interpreter (Json.obj members).toPy = .ok () ↔
      (∀ field ∈ fields, required field (PyValue.get (Json.fieldsToPy members) field) = .ok ()) ∧
      (∀ pair ∈ (enumFields.lookup kind).getD [],
        optionalEnum interpreter (Json.fieldsToPy members) pair.1 pair.2 = .ok ()) ∧
      extra interpreter kind (Json.fieldsToPy members) = .ok () := by
  have header : V1.requireVersion "contractVersion" envelope.contractVersion = .ok () ∧
      V1.requireIdentifier "id" envelope.id = .ok () := by
    simp only [V1.Envelope.validate, Checks.seq_iff] at valid
    exact ⟨valid.1, valid.2.2.1⟩
  have hasKind : members.lookup "kind" = some (.str kind) :=
    lookup_of_prefix starts (by simp [V1.Envelope.members, List.lookup_append, isKind])
  have hasVersion : members.lookup "contractVersion" = some (.str envelope.contractVersion) :=
    lookup_of_prefix starts (by simp [V1.Envelope.members, List.lookup_append])
  have hasId : members.lookup "id" = some (.str envelope.id) :=
    lookup_of_prefix starts (by simp [V1.Envelope.members, List.lookup_append])
  simp only [validate, Json.toPy_obj, Json.get_fieldsToPy, hasKind, Option.map_some,
    Option.getD_some, Json.toPy_str, isKnown, validateKind, Checks.seq_iff, hasVersion, hasId,
    version_of_go header.1, identifier_of_go header.2, true_and, Checks.each_iff]

/-- An enumeration of a field marked `omitempty`. -/
theorem optionalEnum_of (value : String) (isMember : members.lookup field =
      if value ≠ "" then some (.str value) else none)
    (isAllowed : value ≠ "" → value ∈ allowed) :
    optionalEnum interpreter (Json.fieldsToPy members) field allowed = .ok () := by
  rw [optionalEnum, Json.get_fieldsToPy, isMember]
  by_cases isEmpty : value = ""
  · simp [isEmpty]
  · simp only [ne_eq, isEmpty, not_false_eq_true, if_true, Option.map_some, Option.getD_some,
      Json.toPy_str]
    exact enum_iff.mpr (isAllowed isEmpty)

/-- An enumeration of a field that is always there. -/
theorem optionalEnum_of_some {value : String} (isMember : members.lookup field = some (.str value))
    (isAllowed : value ∈ allowed) :
    optionalEnum interpreter (Json.fieldsToPy members) field allowed = .ok () := by
  rw [optionalEnum, Json.get_fieldsToPy, isMember]
  simp only [Option.map_some, Option.getD_some, Json.toPy_str]
  exact enum_iff.mpr isAllowed

/-- A loop over a slice that is a member. -/
theorem forEach_of_some {α : Type} {encode : α → Json} {items : List α}
    {check : ℕ → PyValue → Check}
    (isMember : members.lookup field = some (.arr (items.map encode)))
    (accepts : ∀ index, ∀ item ∈ items, check index (encode item).toPy = .ok ()) :
    forEach (PyValue.get (Json.fieldsToPy members) field) check = .ok () := by
  rw [Json.get_fieldsToPy, isMember, Option.map_some, Option.getD_some, Json.toPy_arr, forEach]
  split
  · refine Checks.each_of_forall fun index item isItem => ?_
    rw [List.map_map] at isItem
    rcases List.mem_map.mp isItem with ⟨original, isOriginal, rfl⟩
    exact accepts index original isOriginal
  · rfl

/-- A loop over a slice marked `omitempty`. -/
theorem forEach_of {α : Type} (encode : α → Json) (items : List α)
    {check : ℕ → PyValue → Check} (isMember : members.lookup field =
      if items ≠ [] then some (.arr (items.map encode)) else none)
    (accepts : ∀ index, ∀ item ∈ items, check index (encode item).toPy = .ok ()) :
    forEach (PyValue.get (Json.fieldsToPy members) field) check = .ok () := by
  by_cases isEmpty : items = []
  · rw [Json.get_fieldsToPy, isMember, isEmpty]
    rfl
  · rw [if_pos isEmpty] at isMember
    exact forEach_of_some isMember accepts

/-- A value that `_required` accepts. -/
def Present : Json → Prop
  | .null => False
  | .str text => text ≠ ""
  | _ => True

/-- A required field that is a member. -/
theorem required_of {name : String} {value : Json} (isMember : members.lookup field = some value)
    (isPresent : Present value) :
    required name (PyValue.get (Json.fieldsToPy members) field) = .ok () := by
  rw [Json.get_fieldsToPy, isMember, Option.map_some, Option.getD_some]
  cases value with
  | null => exact False.elim isPresent
  | str text =>
      rw [Json.toPy_str]
      exact required_str_iff.mpr isPresent
  | bool _ | num _ | arr _ | obj _ => simp [required]

theorem get_of (value : Json) (isMember : members.lookup field = some value) :
    PyValue.get (Json.fieldsToPy members) field = value.toPy := by
  rw [Json.get_fieldsToPy, isMember]
  rfl

theorem subscript_of {value : Json} (isMember : members.lookup field = some value) :
    subscript (Json.fieldsToPy members) field = .ok value.toPy := by
  rw [subscript, Json.lookup_fieldsToPy, isMember]
  rfl

theorem lookup_toPy :
    lookup (Json.obj members).toPy field = .ok (PyValue.get (Json.fieldsToPy members) field) := by
  rw [Json.toPy_obj]
  rfl

/-- A list that is not empty is true. -/
theorem truthy_of {α : Type} {encode : α → Json} {items : List α} (notEmpty : items ≠ []) :
    PyValue.truthy (Json.arr (items.map encode)).toPy = true := by
  rw [Json.toPy_arr, PyValue.truthy]
  simpa using notEmpty

/-- An object that is not empty is true. -/
theorem orElse_obj {default : PyValue} (notEmpty : members ≠ []) :
    PyValue.orElse (Json.obj members).toPy default = (Json.obj members).toPy := by
  rw [PyValue.orElse, if_pos]
  cases members with
  | nil => exact absurd rfl notEmpty
  | cons field rest =>
      rw [Json.toPy_obj, Json.fieldsToPy, PyValue.truthy, List.isEmpty_cons, Bool.not_false]

theorem event_accepted {object : V1.FullEvent} (valid : object.toEvent.validate = .ok ()) :
    validate interpreter (Json.obj object.toJson).toPy = .ok () := by
  simp only [V1.Event.validate, Checks.optional_iff, Checks.seq_iff, Checks.throw_iff,
    imp_false, not_not] at valid
  rcases valid with ⟨isKind, envelope, -, occurredAt, -, isType, aggregateKind, aggregateId,
    actor, -, -⟩
  simp only [V1.Actor.validate, Checks.seq_iff] at actor
  have hasSequence : object.toJson.lookup "sequence" = some (.num object.sequence) := by
    simp [V1.FullEvent.toJson, V1.Envelope.members, V1.intMember, List.lookup_append]
  have hasOccurredAt : object.toJson.lookup "occurredAt" = some (.str object.occurredAt) := by
    simp [V1.FullEvent.toJson, V1.Envelope.members, V1.intMember, List.lookup_append]
  have hasType : object.toJson.lookup "type" = some (.str object.type) := by
    simp [V1.FullEvent.toJson, V1.Envelope.members, V1.intMember, List.lookup_append]
  have hasAggregate : object.toJson.lookup "aggregate" =
      some (.obj (V1.member "kind" object.aggregate.kind ++ V1.member "id" object.aggregate.id ++
        V1.optionalInt "version" object.aggregateVersion)) := by
    simp [V1.FullEvent.toJson, V1.Envelope.members, V1.intMember, List.lookup_append]
  have hasActor : object.toJson.lookup "actor" = some object.actor.toJson := by
    simp [V1.FullEvent.toJson, V1.Envelope.members, V1.intMember, List.lookup_append]
  refine (accepts_iff envelope isKind (by simp [V1.FullEvent.toJson]) rfl).mpr ⟨?_, ?_, ?_⟩
  · simp only [List.forall_mem_cons, List.not_mem_nil, false_implies, implies_true, and_true]
    exact ⟨required_of hasSequence trivial,
      required_of hasOccurredAt (V1.ne_empty_of_requireTimestamp occurredAt),
      required_of hasType (ne_of_mem_of_not_mem isType (by decide)),
      required_of hasAggregate trivial, required_of hasActor trivial⟩
  · exact List.forall_mem_singleton.mpr (optionalEnum_of_some hasType isType)
  · simp only [extra, validateEvent, subscript_of hasAggregate, subscript_of hasActor,
      V1.Actor.toJson, lookup_toPy, Checks.ok_bind, Checks.seq_iff]
    refine ⟨?_, ?_, ?_, ?_⟩
    · rw [get_of (.str object.aggregate.id) (by simp [List.lookup_append]), Json.toPy_str]
      exact identifier_of_go aggregateId
    · rw [get_of (.str object.aggregate.kind) (by simp [List.lookup_append]), Json.toPy_str]
      exact enum_iff.mpr (V1.requireEnum_iff.mp aggregateKind)
    · rw [get_of (.str object.actor.kind) (by simp [List.lookup_append]), Json.toPy_str]
      exact enum_iff.mpr (V1.requireEnum_iff.mp actor.1)
    · rw [get_of (.str object.actor.id) (by simp [List.lookup_append]), Json.toPy_str]
      exact identifier_of_go actor.2

theorem workPackage_accepted {package : V1.WorkPackage} (valid : package.validate = .ok ()) :
    validate interpreter (Json.obj package.toJson).toPy = .ok () := by
  simp only [V1.WorkPackage.validate, Checks.optional_iff, Checks.seq_iff, Checks.throw_iff,
    Checks.optional_last_iff, imp_false, not_not] at valid
  rcases valid with ⟨isKind, envelope, titled, state, accepted, -, -, risk⟩
  have hasTitle : package.toJson.lookup "title" = some (.str package.title) := by
    simp [V1.WorkPackage.toJson, V1.Envelope.members, List.lookup_append]
  have hasState : package.toJson.lookup "state" = some (.str package.state) := by
    simp [V1.WorkPackage.toJson, V1.Envelope.members, List.lookup_append]
  have hasAcceptance : package.toJson.lookup "acceptance" =
      some (.arr (package.acceptance.map Json.str)) := by
    simp [V1.WorkPackage.toJson, V1.Envelope.members, List.lookup_append, accepted]
  have isState := V1.requireEnum_iff.mp state
  refine (accepts_iff envelope isKind (by simp [V1.WorkPackage.toJson]) rfl).mpr ⟨?_, ?_, ?_⟩
  · simp only [List.forall_mem_cons, List.not_mem_nil, false_implies, implies_true, and_true]
    refine ⟨required_of hasTitle titled, required_of hasState ?_, required_of hasAcceptance trivial⟩
    rintro isEmpty
    rw [isEmpty] at isState
    revert isState
    decide
  · refine List.forall_mem_cons.mpr ⟨optionalEnum_of_some hasState isState,
      List.forall_mem_singleton.mpr (optionalEnum_of package.risk ?_ ?_)⟩
    · simp [V1.WorkPackage.toJson, V1.Envelope.members, List.lookup_append]
    · exact fun isThere => V1.requireEnum_iff.mp (risk isThere)
  · rw [extra, validateWorkPackage, get_of _ hasAcceptance, truthy_of accepted]
    rfl

theorem taskGraph_accepted {graph : V1.TaskGraph} (valid : graph.validate = .ok ()) :
    validate interpreter (Json.obj graph.toJson).toPy = .ok () := by
  simp only [V1.TaskGraph.validate, Checks.optional_iff, Checks.seq_iff, Checks.throw_iff,
    imp_false, not_not] at valid
  rcases valid with ⟨isKind, envelope, project, revision, nodes, accepted, -⟩
  rcases hasNumber : graph.revision with _ | number
  · simp [hasNumber] at revision
  have nonneg : (0 : ℚ) ≤ number := by
    simp only [hasNumber, Option.all_some, decide_eq_true_eq, not_lt] at revision
    exact_mod_cast revision
  have hasProject : graph.toJson.lookup "projectId" = some (.str graph.projectId) := by
    simp [V1.TaskGraph.toJson, V1.Envelope.members, List.lookup_append,
      (V1.requireIdentifier_iff.mp project).1]
  have hasRevision : graph.toJson.lookup "revision" = some (.num number) := by
    simp [V1.TaskGraph.toJson, V1.Envelope.members, List.lookup_append, hasNumber]
  have hasNodes : graph.toJson.lookup "nodes" =
      some (.arr (graph.nodes.map V1.TaskGraphNode.toJson)) := by
    simp [V1.TaskGraph.toJson, V1.Envelope.members, List.lookup_append, nodes]
  refine (accepts_iff envelope isKind (by simp [V1.TaskGraph.toJson]) rfl).mpr
    ⟨?_, List.forall_mem_nil _, ?_⟩
  · simp only [List.forall_mem_cons, List.not_mem_nil, false_implies, implies_true, and_true]
    exact ⟨required_of hasProject (V1.requireIdentifier_iff.mp project).1,
      required_of hasNodes trivial, required_of hasRevision trivial⟩
  · have isNumber : PyValue.member (Json.fieldsToPy graph.toJson) "revision" (.num (.int (-1))) =
        .num (.ofGo number) := by
      rw [PyValue.member, Json.lookup_fieldsToPy, hasRevision, Option.map_some, Option.getD_some,
        Json.toPy_num]
    simp only [extra, validateTaskGraph, isNumber, asNumber, below_ofGo nonneg,
      Checks.ok_bind]
    refine forEach_of_some hasNodes fun index node isNode => ?_
    rcases Checks.forall_of_each accepted node isNode with ⟨position, isValid⟩
    simp only [V1.TaskGraphNode.validate, Checks.seq_iff] at isValid
    simp only [V1.TaskGraphNode.toJson, lookup_toPy, Checks.ok_bind, Checks.seq_iff]
    rw [get_of (.str node.workPackageId) (by simp [List.lookup_append]),
      get_of (.str node.readiness) (by simp [List.lookup_append]), Json.toPy_str, Json.toPy_str]
    exact ⟨identifier_of_go isValid.1,
      enum_iff.mpr (V1.requireEnum_iff.mp (V1.ok_of_within isValid.2.1))⟩

/-- The one object that Go writes and Python refuses. -/
theorem executionContract_accepted_iff {contract : V1.FullExecutionContract}
    (valid : contract.toExecutionContract.validate = .ok ()) :
    validate interpreter (Json.obj contract.toJson).toPy = .ok () ↔
      contract.nilCapabilities = false := by
  simp only [V1.ExecutionContract.validate, Checks.seq_iff, Checks.optional_iff, Checks.throw_iff,
    imp_false, not_not] at valid
  rcases valid with ⟨isKind, envelope, package, assignment, granted, denied, -, -⟩
  have hasPackage : contract.toJson.lookup "workPackageId" = some (.str contract.workPackageId) := by
    simp [V1.FullExecutionContract.toJson, V1.Envelope.members, List.lookup_append]
  have hasAssignment : contract.toJson.lookup "assignmentId" = some (.str contract.assignmentId) := by
    simp [V1.FullExecutionContract.toJson, V1.Envelope.members, List.lookup_append]
  have hasBudget : contract.toJson.lookup "budget" = some contract.budget.toJson := by
    simp [V1.FullExecutionContract.toJson, V1.Envelope.members, List.lookup_append]
  have hasCapabilities : contract.toJson.lookup "capabilities" =
      some (if contract.nilCapabilities then .null else .arr (contract.capabilities.map .str)) := by
    simp [V1.FullExecutionContract.toJson, V1.Envelope.members, List.lookup_append]
  have isAllowed {field : String} {items : List String} {index : ℕ} {name : String}
      (accepted : Checks.each (V1.ExecutionContract.validate.requireCapability name) index items =
        .ok ()) :
      ∀ item ∈ items, enum interpreter field (Json.str item).toPy capabilities = .ok () := by
    intro item isItem
    rcases Checks.forall_of_each accepted item isItem with ⟨position, isKnown⟩
    rw [Json.toPy_str, enum_iff]
    exact V1.requireCapability_iff.mp isKnown
  rw [accepts_iff envelope isKind (by simp [V1.FullExecutionContract.toJson]) rfl]
  simp only [List.forall_mem_cons, List.not_mem_nil, false_implies, implies_true, and_true]
  constructor
  · rintro ⟨⟨-, -, present, -⟩, -, -⟩
    by_contra isNil
    rw [Bool.not_eq_false] at isNil
    rw [isNil, if_pos rfl] at hasCapabilities
    rw [get_of _ hasCapabilities, Json.toPy_null] at present
    cases present
  · intro isThere
    rw [isThere] at hasCapabilities
    refine ⟨⟨required_of hasPackage (V1.requireIdentifier_iff.mp package).1,
      required_of hasAssignment (V1.requireIdentifier_iff.mp assignment).1,
      required_of hasCapabilities trivial, required_of hasBudget trivial⟩,
      List.forall_mem_nil _, ?_⟩
    refine Checks.seq_iff.mpr ⟨?_, ?_⟩
    · exact forEach_of_some hasCapabilities fun index => isAllowed granted
    · refine forEach_of .str contract.denied ?_ fun index => isAllowed denied
      simp [V1.FullExecutionContract.toJson, V1.Envelope.members, List.lookup_append]

theorem hash_member_of {index : ℕ} {name hash : String}
    (accepted : hash ≠ "" → V1.requireHash name hash = .ok ())
    (isMember : members.lookup "hash" = if hash ≠ "" then some (.str hash) else none) :
    optionalHash (itemField "artifacts" index ".hash") (PyValue.get (Json.fieldsToPy members) "hash") =
      .ok () := by
  rw [Json.get_fieldsToPy, isMember]
  by_cases isEmpty : hash = ""
  · rw [if_neg (not_not.mpr isEmpty)]
    rfl
  · rw [if_pos isEmpty, Option.map_some, Option.getD_some, Json.toPy_str]
    exact hash_of_go (accepted isEmpty)

theorem resultEnvelope_accepted {result : V1.ResultEnvelope} (valid : result.validate = .ok ()) :
    validate interpreter (Json.obj result.toJson).toPy = .ok () := by
  simp only [V1.ResultEnvelope.validate, Checks.seq_iff, Checks.optional_iff, Checks.throw_iff,
    imp_false, not_not] at valid
  rcases valid with ⟨isKind, envelope, attempt, assignment, package, status, artifacts, tests, -⟩
  have isStatus := V1.requireEnum_iff.mp status
  have hasAttempt : result.toJson.lookup "attemptId" = some (.str result.attemptId) := by
    simp [V1.ResultEnvelope.toJson, V1.Envelope.members, List.lookup_append]
  have hasAssignment : result.toJson.lookup "assignmentId" = some (.str result.assignmentId) := by
    simp [V1.ResultEnvelope.toJson, V1.Envelope.members, List.lookup_append]
  have hasPackage : result.toJson.lookup "workPackageId" = some (.str result.workPackageId) := by
    simp [V1.ResultEnvelope.toJson, V1.Envelope.members, List.lookup_append]
  have hasStatus : result.toJson.lookup "status" = some (.str result.status) := by
    simp [V1.ResultEnvelope.toJson, V1.Envelope.members, List.lookup_append]
  refine (accepts_iff envelope isKind (by simp [V1.ResultEnvelope.toJson]) rfl).mpr ⟨?_, ?_, ?_⟩
  · simp only [List.forall_mem_cons, List.not_mem_nil, false_implies, implies_true, and_true]
    exact ⟨required_of hasAttempt (V1.requireIdentifier_iff.mp attempt).1,
      required_of hasAssignment (V1.requireIdentifier_iff.mp assignment).1,
      required_of hasPackage (V1.requireIdentifier_iff.mp package).1,
      required_of hasStatus (ne_of_mem_of_not_mem isStatus (by decide))⟩
  · exact List.forall_mem_singleton.mpr (optionalEnum_of_some hasStatus isStatus)
  · refine Checks.seq_iff.mpr ⟨?_, ?_⟩
    · refine forEach_of V1.ResultArtifact.toJson result.artifacts ?_
        fun index artifact isArtifact => ?_
      · simp [V1.ResultEnvelope.toJson, V1.Envelope.members, List.lookup_append]
      · rcases Checks.forall_of_each artifacts artifact isArtifact with ⟨position, isValid⟩
        simp only [V1.ResultArtifact.validate, Checks.seq_iff, Checks.optional_last_iff] at isValid
        rw [V1.ResultArtifact.toJson, lookup_toPy, Checks.ok_bind]
        exact hash_member_of isValid.2.2 (by simp [List.lookup_append])
    · refine forEach_of V1.TestResult.toJson result.tests ?_
        fun index test isTest => ?_
      · simp [V1.ResultEnvelope.toJson, V1.Envelope.members, List.lookup_append]
      · rcases Checks.forall_of_each tests test isTest with ⟨position, isValid⟩
        simp only [V1.TestResult.validate, Checks.optional_iff, Checks.throw_iff] at isValid
        rw [V1.TestResult.toJson, lookup_toPy, Checks.ok_bind,
          get_of (.str test.outcome) (by simp [List.lookup_append]), Json.toPy_str]
        exact enum_iff.mpr (V1.requireEnum_iff.mp isValid.2)

theorem telemetry_accepted {telemetry : V1.Telemetry} (valid : telemetry.validate = .ok ()) :
    validate interpreter (Json.obj telemetry.toJson).toPy = .ok () := by
  simp only [V1.Telemetry.validate, Checks.seq_iff, Checks.optional_iff, Checks.throw_iff,
    imp_false, not_not] at valid
  rcases valid with ⟨isKind, envelope, attempt, metric, outcome⟩
  have isOutcome := V1.requireEnum_iff.mp outcome
  have hasAttempt : telemetry.toJson.lookup "attemptId" = some (.str telemetry.attemptId) := by
    simp [V1.Telemetry.toJson, V1.Envelope.members, List.lookup_append]
  have hasMetric : telemetry.toJson.lookup "metricVersion" = some (.str telemetry.metricVersion) := by
    simp [V1.Telemetry.toJson, V1.Envelope.members, List.lookup_append]
  have hasOutcome : telemetry.toJson.lookup "outcome" = some (.str telemetry.outcome) := by
    simp [V1.Telemetry.toJson, V1.Envelope.members, List.lookup_append]
  refine (accepts_iff envelope isKind (by simp [V1.Telemetry.toJson]) rfl).mpr ⟨?_, ?_, rfl⟩
  · simp only [List.forall_mem_cons, List.not_mem_nil, false_implies, implies_true, and_true]
    exact ⟨required_of hasAttempt (V1.requireIdentifier_iff.mp attempt).1,
      required_of hasMetric metric,
      required_of hasOutcome (ne_of_mem_of_not_mem isOutcome (by decide))⟩
  · exact List.forall_mem_singleton.mpr (optionalEnum_of_some hasOutcome isOutcome)

theorem projectRecord_accepted {project : V1.ProjectRecord} (valid : project.validate = .ok ()) :
    validate interpreter (Json.obj project.toJson).toPy = .ok () := by
  simp only [V1.ProjectRecord.validate, Checks.seq_iff, Checks.optional_iff, Checks.throw_iff,
    imp_false, not_not] at valid
  rcases valid with ⟨isKind, envelope, named, state, layout, -, -⟩
  have isState := V1.requireEnum_iff.mp state
  have hasName : project.toJson.lookup "name" = some (.str project.name) := by
    simp [V1.ProjectRecord.toJson, V1.Envelope.members, List.lookup_append]
  have hasState : project.toJson.lookup "state" = some (.str project.state) := by
    simp [V1.ProjectRecord.toJson, V1.Envelope.members, List.lookup_append]
  have hasLayout : project.toJson.lookup "layoutVersion" = some (.str project.layoutVersion) := by
    simp [V1.ProjectRecord.toJson, V1.Envelope.members, List.lookup_append]
  refine (accepts_iff envelope isKind (by simp [V1.ProjectRecord.toJson]) rfl).mpr ⟨?_, ?_, rfl⟩
  · simp only [List.forall_mem_cons, List.not_mem_nil, false_implies, implies_true, and_true]
    exact ⟨required_of hasName named,
      required_of hasState (ne_of_mem_of_not_mem isState (by decide)), required_of hasLayout layout⟩
  · exact List.forall_mem_singleton.mpr (optionalEnum_of_some hasState isState)

theorem memoryRecord_accepted {record : V1.MemoryRecord} (valid : record.validate = .ok ()) :
    validate interpreter (Json.obj record.toJson).toPy = .ok () := by
  simp only [V1.MemoryRecord.validate, Checks.seq_iff, Checks.optional_iff, Checks.throw_iff,
    imp_false, not_not] at valid
  rcases valid with ⟨isKind, envelope, level, lifecycle, summary, confidence, -⟩
  have isLevel := V1.requireEnum_iff.mp level
  have isLifecycle := V1.requireEnum_iff.mp lifecycle
  have hasLevel : record.toJson.lookup "level" = some (.str record.level) := by
    simp [V1.MemoryRecord.toJson, V1.Envelope.members, List.lookup_append]
  have hasLifecycle : record.toJson.lookup "lifecycle" = some (.str record.lifecycle) := by
    simp [V1.MemoryRecord.toJson, V1.Envelope.members, List.lookup_append]
  have hasContent : record.toJson.lookup "content" = some record.content.toJson := by
    simp [V1.MemoryRecord.toJson, V1.Envelope.members, List.lookup_append]
  have hasConfidence : record.toJson.lookup "confidence" = record.confidence.map .num := by
    simp [V1.MemoryRecord.toJson, V1.Envelope.members, List.lookup_append, V1.optionalFloat]
  refine (accepts_iff envelope isKind (by simp [V1.MemoryRecord.toJson]) rfl).mpr ⟨?_, ?_, ?_⟩
  · simp only [List.forall_mem_cons, List.not_mem_nil, false_implies, implies_true, and_true]
    exact ⟨required_of hasLevel (ne_of_mem_of_not_mem isLevel (by decide)),
      required_of hasLifecycle (ne_of_mem_of_not_mem isLifecycle (by decide)),
      required_of hasContent trivial⟩
  · exact List.forall_mem_singleton.mpr (optionalEnum_of_some hasLifecycle isLifecycle)
  · simp only [extra, validateMemoryRecord, Checks.seq_iff]
    refine ⟨?_, ?_⟩
    · rw [get_of _ hasLevel, Json.toPy_str]
      exact enum_iff.mpr isLevel
    · have isContent : PyValue.orElse record.content.toJson.toPy (.obj []) =
          record.content.toJson.toPy := orElse_obj (by simp [V1.member])
      rw [get_of _ hasContent, isContent, V1.MemoryContent.toJson, lookup_toPy]
      refine Checks.seq_iff.mpr ⟨?_, ?_⟩
      · exact required_of
          (show _ = some (Json.str record.content.summary) by simp [List.lookup_append]) summary
      · rw [Json.get_fieldsToPy, hasConfidence]
        rcases hasNumber : record.confidence with _ | number
        · rfl
        · simp only [hasNumber, Option.any_some, decide_eq_true_eq, not_or, not_lt] at confidence
          simp [checkConfidence, asNumber, unit_ofGo confidence.1 confidence.2]

theorem issue_accepted {issue : V1.Issue} (valid : issue.validate = .ok ()) :
    validate interpreter issue.toJson.toPy = .ok () := by
  simp only [V1.Issue.validate, Checks.seq_iff, Checks.optional_iff, Checks.throw_iff,
    imp_false, not_not] at valid
  rcases valid with ⟨isKind, envelope, titled, type, status, severity, -⟩
  have isType := V1.requireEnum_iff.mp type
  have isStatus := V1.requireEnum_iff.mp status
  have isObject : issue.toJson = .obj issue.toJson.members := by rw [V1.Issue.toJson, Json.members]
  have hasTitle : issue.toJson.members.lookup "title" = some (.str issue.title) := by
    simp [V1.Issue.toJson, Json.members, V1.Envelope.members, List.lookup_append]
  have hasType : issue.toJson.members.lookup "type" = some (.str issue.type) := by
    simp [V1.Issue.toJson, Json.members, V1.Envelope.members, List.lookup_append]
  have hasStatus : issue.toJson.members.lookup "status" = some (.str issue.status) := by
    simp [V1.Issue.toJson, Json.members, V1.Envelope.members, List.lookup_append]
  rw [isObject]
  refine (accepts_iff envelope isKind (by simp [V1.Issue.toJson, Json.members]) rfl).mpr
    ⟨?_, ?_, ?_⟩
  · simp only [List.forall_mem_cons, List.not_mem_nil, false_implies, implies_true, and_true]
    exact ⟨required_of hasTitle titled,
      required_of hasType (ne_of_mem_of_not_mem isType (by decide)),
      required_of hasStatus (ne_of_mem_of_not_mem isStatus (by decide))⟩
  · refine List.forall_mem_cons.mpr ⟨optionalEnum_of_some hasStatus isStatus,
      List.forall_mem_singleton.mpr (optionalEnum_of issue.severity ?_ ?_)⟩
    · simp [V1.Issue.toJson, Json.members, V1.Envelope.members, List.lookup_append]
    · exact fun isThere => V1.requireEnum_iff.mp (severity isThere)
  · rw [extra, validateIssue, get_of _ hasType, Json.toPy_str]
    exact enum_iff.mpr isType

theorem strategy_accepted {strategy : V1.Strategy} (valid : strategy.validate = .ok ()) :
    validate interpreter strategy.toJson.toPy = .ok () := by
  simp only [V1.Strategy.validate, Checks.seq_iff, Checks.optional_iff, Checks.throw_iff,
    imp_false, not_not] at valid
  rcases valid with ⟨isKind, envelope, titled, lifecycle, guided, -⟩
  have isLifecycle := V1.requireEnum_iff.mp lifecycle
  have isObject : strategy.toJson = .obj strategy.toJson.members := by
    rw [V1.Strategy.toJson, Json.members]
  have hasTitle : strategy.toJson.members.lookup "title" = some (.str strategy.title) := by
    simp [V1.Strategy.toJson, Json.members, V1.Envelope.members, List.lookup_append]
  have hasLifecycle : strategy.toJson.members.lookup "lifecycle" =
      some (.str strategy.lifecycle) := by
    simp [V1.Strategy.toJson, Json.members, V1.Envelope.members, List.lookup_append]
  have hasGuidance : strategy.toJson.members.lookup "guidance" = some (.str strategy.guidance) := by
    simp [V1.Strategy.toJson, Json.members, V1.Envelope.members, List.lookup_append]
  rw [isObject]
  refine (accepts_iff envelope isKind (by simp [V1.Strategy.toJson, Json.members]) rfl).mpr
    ⟨?_, ?_, rfl⟩
  · simp only [List.forall_mem_cons, List.not_mem_nil, false_implies, implies_true, and_true]
    exact ⟨required_of hasTitle titled,
      required_of hasLifecycle (ne_of_mem_of_not_mem isLifecycle (by decide)),
      required_of hasGuidance guided⟩
  · exact List.forall_mem_singleton.mpr (optionalEnum_of_some hasLifecycle isLifecycle)

theorem routeRequest_accepted {request : V1.RouteRequest} (valid : request.validate = .ok ()) :
    validate interpreter (Json.obj request.toJson).toPy = .ok () := by
  simp only [V1.RouteRequest.validate, Checks.seq_iff, Checks.optional_iff, Checks.throw_iff,
    imp_false, not_not] at valid
  rcases valid with ⟨isKind, envelope, prompt, policy, -⟩
  have hasPrompt : request.toJson.lookup "prompt" = some (.str request.prompt) := by
    simp [V1.RouteRequest.toJson, V1.Envelope.members, List.lookup_append]
  refine (accepts_iff envelope isKind (by simp [V1.RouteRequest.toJson]) rfl).mpr
    ⟨?_, List.forall_mem_nil _, ?_⟩
  · exact List.forall_mem_singleton.mpr (required_of hasPrompt prompt)
  · refine Checks.seq_iff.mpr ⟨required_of hasPrompt prompt, optionalEnum_of request.policy ?_ ?_⟩
    · simp [V1.RouteRequest.toJson, V1.Envelope.members, List.lookup_append]
    · exact fun isThere => V1.requireEnum_iff.mp (policy isThere)

theorem routeResponse_accepted {response : V1.RouteResponse} (valid : response.validate = .ok ()) :
    validate interpreter (Json.obj response.toJson).toPy = .ok () := by
  simp only [V1.RouteResponse.validate, Checks.seq_iff, Checks.optional_iff, Checks.throw_iff,
    imp_false, not_not] at valid
  rcases valid with ⟨isKind, envelope, requested, route, level, -⟩
  have isRoute := V1.requireEnum_iff.mp route
  have isLevel := V1.requireEnum_iff.mp level
  have notEmpty := (V1.requireIdentifier_iff.mp requested).1
  have hasRequest : response.toJson.lookup "requestId" = some (.str response.requestId) := by
    simp [V1.RouteResponse.toJson, V1.Envelope.members, List.lookup_append]
  have hasRoute : response.toJson.lookup "route" = some (.str response.route) := by
    simp [V1.RouteResponse.toJson, V1.Envelope.members, List.lookup_append]
  have hasLevel : response.toJson.lookup "decisionLevel" = some (.str response.decisionLevel) := by
    simp [V1.RouteResponse.toJson, V1.Envelope.members, List.lookup_append]
  have hasApproval : response.toJson.lookup "requiresHumanApproval" =
      some (.bool response.requiresHumanApproval) := by
    simp [V1.RouteResponse.toJson, V1.Envelope.members, List.lookup_append]
  refine (accepts_iff envelope isKind (by simp [V1.RouteResponse.toJson]) rfl).mpr ⟨?_, ?_, ?_⟩
  · simp only [List.forall_mem_cons, List.not_mem_nil, false_implies, implies_true, and_true]
    exact ⟨required_of hasRequest notEmpty,
      required_of hasRoute (ne_of_mem_of_not_mem isRoute (by decide)),
      required_of hasLevel (ne_of_mem_of_not_mem isLevel (by decide)),
      required_of hasApproval trivial⟩
  · exact List.forall_mem_cons.mpr ⟨optionalEnum_of_some hasRoute isRoute,
      List.forall_mem_singleton.mpr (optionalEnum_of_some hasLevel isLevel)⟩
  · simp only [extra, validateRouteResponse, Checks.seq_iff]
    rw [get_of _ hasRoute, get_of _ hasLevel, Json.toPy_str, Json.toPy_str]
    exact ⟨required_of hasRequest notEmpty, enum_iff.mpr isRoute, enum_iff.mpr isLevel⟩

theorem toolManifest_accepted {manifest : V1.ToolManifest} (valid : manifest.validate = .ok ()) :
    validate interpreter (Json.obj manifest.toJson).toPy = .ok () := by
  simp only [V1.ToolManifest.validate, Checks.seq_iff, Checks.optional_iff, Checks.throw_iff,
    Checks.optional_last_iff, imp_false, not_not] at valid
  rcases valid with ⟨isKind, envelope, named, toolKind, versioned, capable⟩
  have isToolKind := V1.requireEnum_iff.mp toolKind
  have hasName : manifest.toJson.lookup "name" = some (.str manifest.name) := by
    simp [V1.ToolManifest.toJson, V1.Envelope.members, List.lookup_append]
  have hasToolKind : manifest.toJson.lookup "toolKind" = some (.str manifest.toolKind) := by
    simp [V1.ToolManifest.toJson, V1.Envelope.members, List.lookup_append]
  have hasVersion : manifest.toJson.lookup "version" = some (.str manifest.version) := by
    simp [V1.ToolManifest.toJson, V1.Envelope.members, List.lookup_append]
  have hasCapabilities : manifest.toJson.lookup "capabilities" =
      some (.arr (manifest.capabilities.map .str)) := by
    simp [V1.ToolManifest.toJson, V1.Envelope.members, List.lookup_append, capable]
  refine (accepts_iff envelope isKind (by simp [V1.ToolManifest.toJson]) rfl).mpr
    ⟨?_, List.forall_mem_nil _, ?_⟩
  · simp only [List.forall_mem_cons, List.not_mem_nil, false_implies, implies_true, and_true]
    exact ⟨required_of hasName named,
      required_of hasToolKind (ne_of_mem_of_not_mem isToolKind (by decide)),
      required_of hasVersion versioned, required_of hasCapabilities trivial⟩
  · refine Checks.seq_iff.mpr ⟨?_, ?_⟩
    · rw [get_of _ hasToolKind, Json.toPy_str]
      exact enum_iff.mpr isToolKind
    · rw [get_of _ hasCapabilities, if_pos (truthy_of capable)]

/-- The steps that Go accepts, with the ids that were seen before them. -/
theorem validateSteps_of_go {index : ℕ} {seen : List String} {steps : List V1.WorkflowStep}
    (valid : V1.validateSteps index seen steps = .ok ()) :
    validateSteps interpreter index (seen.map .str)
      (steps.map fun step => step.toJson.toPy) = .ok () := by
  induction steps generalizing index seen with
  | nil => rfl
  | cons step rest ih =>
      simp only [V1.validateSteps, Checks.seq_iff, Checks.optional_iff, Checks.throw_iff,
        imp_false] at valid
      rcases valid with ⟨identified, isNew, kind, -, later⟩
      have hasId : PyValue.get (Json.fieldsToPy step.toJson.members) "id" = .str step.id := by
        rw [get_of (.str step.id), Json.toPy_str]
        simp [V1.WorkflowStep.toJson, Json.members, List.lookup_append]
      have hasKind : PyValue.get (Json.fieldsToPy step.toJson.members) "kind" = .str step.kind := by
        rw [get_of (.str step.kind), Json.toPy_str]
        simp [V1.WorkflowStep.toJson, Json.members, List.lookup_append]
      have isObject : step.toJson = .obj step.toJson.members := by
        rw [V1.WorkflowStep.toJson, Json.members]
      have notSeen : (seen.map JsonTree.str).any
          (fun other : PyValue => other.text? == some step.id) = false := by
        simpa [PyValue.text?] using fun other isSeen => ne_of_mem_of_not_mem isSeen isNew
      rw [List.map_cons, validateSteps, isObject]
      simp only [lookup_toPy, Checks.ok_bind, hasId, hasKind, Checks.seq_iff]
      have isText : PyValue.text? (.str step.id) = some step.id := rfl
      refine ⟨identifier_of_go identified, ?_⟩
      rw [isText, notSeen, if_neg Bool.false_ne_true, Checks.seq_iff, enum_iff]
      exact ⟨V1.requireEnum_iff.mp kind, ih later⟩

theorem workflow_accepted {workflow : V1.Workflow} (valid : workflow.validate = .ok ()) :
    validate interpreter (Json.obj workflow.toJson).toPy = .ok () := by
  simp only [V1.Workflow.validate, Checks.seq_iff, Checks.optional_iff, Checks.throw_iff,
    imp_false, not_not] at valid
  rcases valid with ⟨isKind, envelope, versioned, notEmpty, steps⟩
  have hasVersion : workflow.toJson.lookup "version" = some (.str workflow.version) := by
    simp [V1.Workflow.toJson, V1.Envelope.members, List.lookup_append]
  have hasSteps : workflow.toJson.lookup "steps" =
      some (.arr (workflow.steps.map V1.WorkflowStep.toJson)) := by
    simp [V1.Workflow.toJson, V1.Envelope.members, List.lookup_append, notEmpty]
  refine (accepts_iff envelope isKind (by simp [V1.Workflow.toJson]) rfl).mpr
    ⟨?_, List.forall_mem_nil _, ?_⟩
  · simp only [List.forall_mem_cons, List.not_mem_nil, false_implies, implies_true, and_true]
    exact ⟨required_of hasVersion versioned, required_of hasSteps trivial⟩
  · refine Checks.seq_iff.mpr ⟨required_of hasVersion versioned, ?_⟩
    have isList : PyValue.orElse (Json.arr (workflow.steps.map V1.WorkflowStep.toJson)).toPy (.arr []) =
        .arr (workflow.steps.map fun step => step.toJson.toPy) := by
      rw [PyValue.orElse, if_pos (truthy_of notEmpty), Json.toPy_arr, List.map_map]
      rfl
    have isThere : PyValue.truthy (.arr (workflow.steps.map fun step => step.toJson.toPy)) = true := by
      simpa [PyValue.truthy] using notEmpty
    rw [get_of _ hasSteps, isList]
    simp only [isThere, if_true]
    exact validateSteps_of_go steps

/-- What Go accepts and writes, Python accepts, but for a nil slice of capabilities. -/
theorem validate_marshal_iff {object : V1.Contract} (valid : object.validate = .ok ()) :
    validate interpreter object.marshal.toPy = .ok () ↔ object.hasNilCapabilities = false := by
  have others : object.hasNilCapabilities = false →
      validate interpreter object.marshal.toPy = .ok () →
      (validate interpreter object.marshal.toPy = .ok () ↔ object.hasNilCapabilities = false) :=
    fun isThere accepted => ⟨fun _ => isThere, fun _ => accepted⟩
  cases object with
  | event _ => exact others rfl (event_accepted valid)
  | workPackage _ => exact others rfl (workPackage_accepted valid)
  | taskGraph _ => exact others rfl (taskGraph_accepted valid)
  | executionContract _ => exact executionContract_accepted_iff valid
  | resultEnvelope _ => exact others rfl (resultEnvelope_accepted valid)
  | telemetry _ => exact others rfl (telemetry_accepted valid)
  | projectRecord _ => exact others rfl (projectRecord_accepted valid)
  | memoryRecord _ => exact others rfl (memoryRecord_accepted valid)
  | issue _ => exact others rfl (issue_accepted valid)
  | strategy _ => exact others rfl (strategy_accepted valid)
  | routeRequest _ => exact others rfl (routeRequest_accepted valid)
  | routeResponse _ => exact others rfl (routeResponse_accepted valid)
  | toolManifest _ => exact others rfl (toolManifest_accepted valid)
  | workflow _ => exact others rfl (workflow_accepted valid)

/-- A contract that grants nothing, as Go writes it if no slice was ever made. -/
def grantsNothing : V1.FullExecutionContract where
  contractVersion := "1.0"
  kind := "execution_contract"
  id := "contract-1"
  workPackageId := "wp-1"
  assignmentId := "as-1"
  nilCapabilities := true
  noneOfNil := fun _ => rfl

/-- An interpreter that parses no numbers of texts; none is parsed here. -/
def textInterpreter : PyInterpreter where
  int := fun _ => none
  float := fun _ => none
  quoted := fun text => "'" ++ text ++ "'"
  floatText := fun _ => ""
  depth := 1000

theorem grantsNothing_refused :
    validate textInterpreter (V1.Contract.executionContract grantsNothing).marshal.toPy ≠ .ok () :=
  fun accepted => Bool.false_ne_true.symm ((validate_marshal_iff (by decide +kernel)).mp accepted)

end Python

end Aa.Contracts
