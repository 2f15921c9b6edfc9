import Mathlib.Data.List.DropRight
import Mathlib.Data.List.Perm.Basic
import Aa.Library.PyRepr
import Aa.Library.PyText
import Aa.Library.Toml

/-!
# Writing a configuration

`aa_sifter.config.toml`: the values of a table first, on a line each, then its tables, then its
arrays of tables, each under a header with its whole path. What is written is read as the same
data, members of a table perhaps in another order, if keys are bare and strings on one line.
-/

namespace Aa.Sifter.Config.Toml

open Library Library.Toml

/-! ## The writer -/

/-- `text.replace(old, new)` for one character. -/
def replace (old : Char) (new chars : List Char) : List Char :=
  chars.flatMap fun c => if c = old then new else [c]

def escaped (chars : List Char) : List Char :=
  replace '"' ['\\', '"'] (replace '\\' ['\\', '\\'] chars)

mutual

def scalar : PyValue → List Char
  | .bool value => if value then ['t', 'r', 'u', 'e'] else ['f', 'a', 'l', 's', 'e']
  | .str text => '"' :: (escaped text.toList ++ ['"'])
  | .num value => value.repr
  | .arr items => '[' :: (comma.intercalate (scalars items) ++ [']'])
  | .obj members => '\x7b' :: ' ' :: (comma.intercalate (parts members) ++ [' ', '\x7d'])
  | .null => ['"', 'N', 'o', 'n', 'e', '"']

def scalars : List PyValue → List (List Char)
  | [] => []
  | item :: items => scalar item :: scalars items

/-- The parts of an inline table. -/
def parts : List (String × PyValue) → List (List Char)
  | [] => []
  | (key, value) :: members => binding key (scalar value) :: parts members

end

def isDict : PyValue → Bool
  | .obj _ => true
  | _ => false

/-- A list that is written as an array of tables. -/
def isTables (items : List PyValue) : Bool := !items.isEmpty && items.all isDict

/-- What goes among the values of a table, and not below a header. -/
def isScalar : PyValue → Bool
  | .obj _ => false
  | .arr items => !isTables items
  | _ => true

def dumpScalars (members : List (String × PyValue)) : List (List Char) :=
  (members.filter fun member => isScalar member.2).map fun (key, value) =>
    binding key (scalar value)

/-- `[path]` -/
def tableHeader (path : List String) : List Char := '[' :: (dotted path ++ [']'])

/-- `[[path]]` -/
def itemHeader (path : List String) : List Char := '[' :: '[' :: (dotted path ++ [']', ']'])

mutual

def dumpTables (path : List String) : List (String × PyValue) → List (List Char)
  | [] => []
  | (key, value) :: members => dumpUnder (path ++ [key]) value ++ dumpTables path members

/-- The table that a key leads to. -/
def dumpUnder (path : List String) : PyValue → List (List Char)
  | .obj members =>
      [] :: tableHeader path ::
        (dumpScalars members ++ (dumpTables path members ++ dumpArrays path members))
  | _ => []

def dumpArrays (path : List String) : List (String × PyValue) → List (List Char)
  | [] => []
  | (key, value) :: members => dumpItemsUnder (path ++ [key]) value ++ dumpArrays path members

/-- The array of tables that a key leads to. -/
def dumpItemsUnder (path : List String) : PyValue → List (List Char)
  | .arr items => if isTables items then dumpItems path items else []
  | _ => []

def dumpItems (path : List String) : List PyValue → List (List Char)
  | [] => []
  | item :: items => dumpItem path item ++ dumpItems path items

def dumpItem (path : List String) : PyValue → List (List Char)
  | .obj members =>
      [] :: itemHeader path ::
        (dumpScalars members ++ (dumpTables path members ++ dumpArrays path members))
  | _ => []

end

def dumpTable (path : List String) (members : List (String × PyValue)) : List (List Char) :=
  dumpScalars members ++ (dumpTables path members ++ dumpArrays path members)

/-- `text.rstrip()`. -/
def rstrip (chars : List Char) : List Char := chars.rdropWhile Py.isSpace

def dumps (data : List (String × PyValue)) : List Char :=
  rstrip (['\n'].intercalate (dumpTable [] data)) ++ ['\n']

/-! ## Values -/

/-- A character that a string may have: all but the control characters. -/
def isPlain (c : Char) : Bool := isTextChar c || c == '"' || c == '\\'

mutual

/-- Data that the writer has a notation for. -/
def writable : PyValue → Bool
  | .null => false
  | .bool _ => true
  | .num _ => true
  | .str text => text.toList.all isPlain
  | .arr items => writableItems items
  | .obj members => writableMembers members

def writableItems : List PyValue → Bool
  | [] => true
  | item :: items => writable item && writableItems items

def writableMembers : List (String × PyValue) → Bool
  | [] => true
  | (key, value) :: members =>
      isBare key && decide (key ∉ members.map Prod.fst) && writable value &&
        writableMembers members

end

section Values

variable {items : List PyValue} {members : List (String × PyValue)}

theorem writable_arr : writable (.arr items) = true ↔ ∀ item ∈ items, writable item = true := by
  rw [writable]
  induction items with
  | nil => exact iff_of_true rfl (fun _ isIn => nomatch isIn)
  | cons item items ih => rw [writableItems, Bool.and_eq_true, ih, List.forall_mem_cons]

theorem writable_obj : writable (.obj members) = true ↔
    (∀ member ∈ members, isBare member.1 = true ∧ writable member.2 = true) ∧
      (members.map Prod.fst).Nodup := by
  rw [writable]
  induction members with
  | nil => exact iff_of_true rfl ⟨(fun _ isIn => nomatch isIn), List.nodup_nil⟩
  | cons member members ih =>
      obtain ⟨key, value⟩ := member
      rw [writableMembers, Bool.and_eq_true, Bool.and_eq_true, Bool.and_eq_true, ih,
        decide_eq_true_eq, List.forall_mem_cons, List.map_cons, List.nodup_cons]
      tauto

theorem scalars_eq (items : List PyValue) : scalars items = items.map scalar := by
  induction items with
  | nil => rfl
  | cons item items ih => rw [scalars, ih, List.map_cons]

theorem parts_eq (members : List (String × PyValue)) :
    parts members = members.map fun member => binding member.1 (scalar member.2) := by
  induction members with
  | nil => rfl
  | cons member members ih => rw [parts, ih, List.map_cons]

theorem escaped_cons (c : Char) (chars : List Char) :
    escaped (c :: chars) =
      (if c = '\\' then ['\\', '\\'] else if c = '"' then ['\\', '"'] else [c]) ++
        escaped chars := by
  rw [escaped, replace, replace, List.flatMap_cons, List.flatMap_append]
  refine congrArg (· ++ _) ?_
  split_ifs with isBackslash isQuote
  · rfl
  · rw [isQuote]
    rfl
  · simp [isQuote]

/-- An escaped string is read as it was. -/
theorem text_escaped {chars : List Char} (plain : ∀ c ∈ chars, isPlain c = true)
    (rest : List Char) : text (escaped chars ++ '"' :: rest) = some (chars, rest) := by
  induction chars with
  | nil => exact text_close rest
  | cons c chars ih =>
      have isText := plain c List.mem_cons_self
      have others := ih fun next isIn => plain next (List.mem_cons_of_mem _ isIn)
      rw [escaped_cons, List.append_assoc]
      split_ifs with isBackslash isQuote
      · have isEscape : unescape '\\' = some '\\' := rfl
        rw [List.cons_append, List.singleton_append, text_escape isEscape, others, isBackslash]
        rfl
      · have isEscape : unescape '"' = some '"' := rfl
        rw [List.cons_append, List.singleton_append, text_escape isEscape, others, isQuote]
        rfl
      · rw [isPlain, Bool.or_eq_true, Bool.or_eq_true, beq_iff_eq, beq_iff_eq] at isText
        have isText := (isText.resolve_right isBackslash).resolve_right isQuote
        rw [List.singleton_append, text_plain isText (by simp), others]
        rfl

theorem oneLine_escaped {chars : List Char} (plain : ∀ c ∈ chars, isPlain c = true) :
    '\n' ∉ escaped chars := by
  induction chars with
  | nil => exact fun isIn => nomatch isIn
  | cons c chars ih =>
      have isText := plain c List.mem_cons_self
      rw [escaped_cons, List.mem_append, not_or]
      refine ⟨?_, ih fun next isIn => plain next (List.mem_cons_of_mem _ isIn)⟩
      split_ifs with isBackslash isQuote
      · decide
      · decide
      · rintro isNewline
        rw [← List.mem_singleton.mp isNewline] at isText
        cases isText

theorem isWordChar_repr (value : PyNumber) : ∀ c ∈ value.repr, isWordChar c = true := by
  intro c isIn
  rcases value.isNumberChar_repr c isIn with isNumber | isAlpha
  · simp only [JsonNumber.isNumberChar, Bool.or_eq_true, beq_iff_eq] at isNumber
    rcases isNumber with (((isDigit | rfl) | rfl) | rfl) | rfl
    · simp [isWordChar, isKeyChar, Char.isAlphanum, isDigit]
    · rfl
    · rfl
    · rfl
    · rfl
  · simp [isWordChar, isKeyChar, Char.isAlphanum, isAlpha]

theorem reads_repr (value : PyNumber) : Reads PyNumber.read value.repr (.num value) := by
  rcases value.repr_opens with ⟨c, rest, opens, isOpen⟩
  refine reads_number (by simp [opens]) (isWordChar_repr value) ?_ ?_ value.read_repr
  · rw [opens]
    rintro ⟨⟩
    rcases isOpen with isOpen | isOpen | isOpen | isOpen <;> cases isOpen
  · rw [opens]
    rintro ⟨⟩
    rcases isOpen with isOpen | isOpen | isOpen | isOpen <;> cases isOpen

/-- A value on one line is read as it is. -/
theorem reads_scalar (value : PyValue) (isWritable : writable value = true) :
    Reads PyNumber.read (scalar value) value := by
  induction value using JsonTree.induct with
  | null => cases isWritable
  | bool value => exact reads_bool value
  | num value => exact reads_repr value
  | str text =>
      rw [writable, List.all_eq_true] at isWritable
      have isText : Reads PyNumber.read (scalar (.str text)) (.str (String.ofList text.toList)) :=
        reads_text (oneLine_escaped isWritable) (text_escaped isWritable)
      rwa [String.ofList_toList] at isText
  | arr items ih =>
      rw [writable_arr] at isWritable
      rw [scalar, scalars_eq]
      refine reads_array (List.forall₂_map_left_iff.mpr (List.forall₂_same.mpr fun item isIn => ?_))
      exact ih item isIn (isWritable item isIn)
  | obj members ih =>
      rw [writable_obj] at isWritable
      rw [scalar, parts_eq]
      refine reads_table (List.forall₂_map_left_iff.mpr
        (List.forall₂_same.mpr fun member isIn => ?_)) isWritable.2
      have isMember := isWritable.1 member isIn
      exact ⟨isMember.1, _, rfl, ih member isIn isMember.2⟩

end Values

/-! ## What is read -/

def isValueNode : Node PyNumber → Bool
  | .value _ => true
  | _ => false

def isTableNode : Node PyNumber → Bool
  | .table _ => true
  | _ => false

def isTablesNode : Node PyNumber → Bool
  | .tables _ => true
  | _ => false

/-- Members in the order in which they are written. -/
def arrange (members : Members PyNumber) : Members PyNumber :=
  members.filter (fun member => isValueNode member.2) ++
    (members.filter (fun member => isTableNode member.2) ++
      members.filter fun member => isTablesNode member.2)

mutual

/-- What the lines that are written for a value are read as. -/
def node : PyValue → Node PyNumber
  | .obj members => .table (arrange (nodes members))
  | .arr items => if isTables items then .tables (itemNodes items) else .value (.arr items)
  | .null => .value .null
  | .bool value => .value (.bool value)
  | .num value => .value (.num value)
  | .str text => .value (.str text)

def nodes : List (String × PyValue) → Members PyNumber
  | [] => []
  | (key, value) :: members => (key, node value) :: nodes members

def itemNodes : List PyValue → List (Members PyNumber)
  | [] => []
  | item :: items => itemNode item :: itemNodes items

def itemNode : PyValue → Members PyNumber
  | .obj members => arrange (nodes members)
  | _ => []

end

section Nodes

variable {members : List (String × PyValue)}

theorem nodes_eq (members : List (String × PyValue)) :
    nodes members = members.map fun member => (member.1, node member.2) := by
  induction members with
  | nil => rfl
  | cons member members ih => rw [nodes, ih, List.map_cons]

theorem itemNodes_eq (items : List PyValue) : itemNodes items = items.map itemNode := by
  induction items with
  | nil => rfl
  | cons item items ih => rw [itemNodes, ih, List.map_cons]

theorem arrange_perm (members : Members PyNumber) : (arrange members).Perm members := by
  induction members with
  | nil => exact .nil
  | cons member members ih =>
      obtain ⟨key, node⟩ := member
      cases node with
      | value value => exact ih.cons _
      | table entries => exact (List.perm_middle).trans (ih.cons _)
      | tables items =>
          rw [arrange, ← List.append_assoc]
          refine (List.perm_middle).trans (.cons _ ?_)
          rw [List.append_assoc]
          exact ih

/-- Values before tables stay in order. -/
theorem arrange_append {values tables : Members PyNumber}
    (areValues : ∀ member ∈ values, isValueNode member.2 = true)
    (areTables : ∀ member ∈ tables, isTableNode member.2 = true) :
    arrange (values ++ tables) = values ++ tables := by
  have notTable (member : String × Node PyNumber) (isValue : isValueNode member.2 = true) :
      ¬isTableNode member.2 = true ∧ ¬isTablesNode member.2 = true := by
    obtain ⟨key, node⟩ := member
    cases node with
    | value value => exact ⟨Bool.false_ne_true, Bool.false_ne_true⟩
    | table entries => cases isValue
    | tables items => cases isValue
  have notValue (member : String × Node PyNumber) (isTable : isTableNode member.2 = true) :
      ¬isValueNode member.2 = true ∧ ¬isTablesNode member.2 = true := by
    obtain ⟨key, node⟩ := member
    cases node with
    | value value => cases isTable
    | table entries => exact ⟨Bool.false_ne_true, Bool.false_ne_true⟩
    | tables items => cases isTable
  rw [arrange, List.filter_append, List.filter_append, List.filter_append,
    List.filter_eq_self.mpr areValues, List.filter_eq_self.mpr areTables,
    List.filter_eq_nil_iff.mpr fun member isIn => (notValue member (areTables member isIn)).1,
    List.filter_eq_nil_iff.mpr fun member isIn => (notTable member (areValues member isIn)).1,
    List.filter_eq_nil_iff.mpr fun member isIn => (notTable member (areValues member isIn)).2,
    List.filter_eq_nil_iff.mpr fun member isIn => (notValue member (areTables member isIn)).2]
  simp

theorem arrange_nodup (distinct : (members.map Prod.fst).Nodup) :
    ((arrange (nodes members)).map Prod.fst).Nodup := by
  refine (((arrange_perm (nodes members)).map Prod.fst).nodup_iff).mpr ?_
  rw [nodes_eq, List.map_map]
  exact distinct

theorem isScalar_iff (value : PyValue) : isScalar value = isValueNode (node value) := by
  cases value with
  | arr items =>
      rw [isScalar, node]
      rcases isTables items with _ | _
      · rfl
      · rfl
  | null => rfl
  | bool value => rfl
  | num value => rfl
  | str text => rfl
  | obj members => rfl

theorem node_of_isScalar {value : PyValue} (scalar : isScalar value = true) :
    node value = .value value := by
  cases value with
  | arr items =>
      rw [isScalar, Bool.not_eq_true'] at scalar
      rw [node, scalar]
      rfl
  | null => rfl
  | bool value => rfl
  | num value => rfl
  | str text => rfl
  | obj members => cases scalar

end Nodes

/-! ## Lines as they are read -/

/-- A line does not end with a space. -/
def Closes (line : List Char) : Prop := ∃ chars c, line = chars ++ [c] ∧ Py.isSpace c = false

/-- Whole lines, of which the last one does not end with a space. -/
structure Whole (lines : List (List Char)) : Prop where
  oneLine : ∀ line ∈ lines, '\n' ∉ line
  closes : ∀ line ∈ lines.getLast?, Closes line

/-- Lines that change the table at a path, read after any others. -/
structure Leads (lines : List (List Char)) (path : List String)
    (change : Members PyNumber → Option (Members PyNumber)) : Prop where
  whole : Whole lines
  reads : ∀ root changed last, within path change root = some changed →
    ∃ after, execute PyNumber.read lines ⟨root, last⟩ = some ⟨changed, after⟩

/-- The lines of a table, read below its header, give it its members. -/
structure Fills (path : List String) (members : List (String × PyValue)) : Prop where
  whole : Whole (dumpTable path members)
  reads : ∀ root changed, within path (extend (arrange (nodes members))) root = some changed →
    ∃ after, execute PyNumber.read (dumpTable path members) ⟨root, path⟩ = some ⟨changed, after⟩

section Lines

variable {path : List String} {key : String} {members : List (String × PyValue)}
  {lines others : List (List Char)}
  {first second : Members PyNumber → Option (Members PyNumber)}

theorem Whole.nil : Whole [] := ⟨(fun _ isIn => nomatch isIn), (fun _ isIn => nomatch isIn)⟩

theorem Whole.append (whole : Whole lines) (other : Whole others) : Whole (lines ++ others) := by
  refine ⟨fun line isIn => ?_, fun line isLast => ?_⟩
  · rcases List.mem_append.mp isIn with isIn | isIn
    · exact whole.oneLine line isIn
    · exact other.oneLine line isIn
  · rw [List.getLast?_append] at isLast
    rcases isOther : others.getLast? with _ | last
    · rw [isOther] at isLast
      exact whole.closes line isLast
    · rw [isOther] at isLast
      rcases isLast with ⟨⟩
      exact other.closes _ isOther

theorem Whole.below {header : List Char} (oneLine : '\n' ∉ header) (closes : Closes header)
    (whole : Whole lines) : Whole ([] :: header :: lines) := by
  have isWhole : Whole [[], header] := by
    refine ⟨fun line isIn => ?_, fun line isLast => ?_⟩
    · simp only [List.mem_cons, List.not_mem_nil, or_false] at isIn
      rcases isIn with rfl | rfl
      · exact fun isIn => nomatch isIn
      · exact oneLine
    · rcases isLast with ⟨⟩
      exact closes
  exact isWhole.append whole

theorem Leads.nil : Leads [] path some := by
  refine ⟨.nil, fun root changed last isWithin => ?_⟩
  rw [within_some isWithin]
  exact ⟨last, rfl⟩

theorem Leads.append (leads : Leads lines path first) (other : Leads others path second) :
    Leads (lines ++ others) path fun members => (first members).bind second := by
  refine ⟨leads.whole.append other.whole, fun root changed last isWithin => ?_⟩
  rcases within_bind.mp isWithin with ⟨between, isFirst, isSecond⟩
  rcases leads.reads root between last isFirst with ⟨after, isRead⟩
  rcases other.reads between changed after isSecond with ⟨final, isLast⟩
  refine ⟨final, ?_⟩
  rw [execute_append, isRead]
  exact isLast

theorem oneLine_dotted {keys : List String} (bare : ∀ name ∈ keys, isBare name = true) :
    '\n' ∉ dotted keys := fun isIn => nomatch isPathChar_dotted bare _ isIn

theorem oneLine_tableHeader {keys : List String} (bare : ∀ name ∈ keys, isBare name = true) :
    '\n' ∉ tableHeader keys := by
  simp [tableHeader, oneLine_dotted bare]

theorem oneLine_itemHeader {keys : List String} (bare : ∀ name ∈ keys, isBare name = true) :
    '\n' ∉ itemHeader keys := by
  simp [itemHeader, oneLine_dotted bare]

theorem tableHeader_closes (keys : List String) : Closes (tableHeader keys) :=
  ⟨'[' :: dotted keys, ']', rfl, by rfl⟩

theorem itemHeader_closes (keys : List String) : Closes (itemHeader keys) :=
  ⟨'[' :: '[' :: (dotted keys ++ [']']), ']', by simp [itemHeader], by rfl⟩

theorem execute_below {header : List Char} {line : Line PyNumber} {root changed : Members PyNumber}
    {last after : List String} (isLine : Toml.line PyNumber.read header = some line)
    (isApplied : apply line ⟨root, last⟩ = some ⟨changed, after⟩) :
    execute PyNumber.read ([] :: header :: lines) ⟨root, last⟩ =
      execute PyNumber.read lines ⟨changed, after⟩ := by
  have isBlank : Toml.line PyNumber.read [] = some .blank := rfl
  rw [execute, isBlank]
  change execute PyNumber.read (header :: lines) ⟨root, last⟩ = _
  rw [execute, isLine]
  dsimp only
  rw [isApplied, Option.bind_some]

variable (bare : ∀ name ∈ path ++ [key], isBare name = true)
  (distinct : (members.map Prod.fst).Nodup)

include bare distinct in
theorem leads_table (fills : Fills (path ++ [key]) members) :
    Leads (dumpUnder (path ++ [key]) (.obj members)) path
      (Toml.insert key (.table (arrange (nodes members)))) := by
  refine ⟨fills.whole.below (oneLine_tableHeader bare) (tableHeader_closes _),
    fun root changed last isWithin => ?_⟩
  have isFilled : Toml.insert key (.table (arrange (nodes members))) = fun table =>
      (Toml.insert key (.table []) table).bind
        (alter key (inTable (extend (arrange (nodes members))))) := by
    funext table
    rw [insert_alter, inTable, extend_nil (arrange_nodup distinct)]
    rfl
  rw [isFilled, within_bind] at isWithin
  rcases isWithin with ⟨between, isInserted, isExtended⟩
  rw [← within_append] at isExtended
  rcases fills.reads between changed isExtended with ⟨after, isRead⟩
  refine ⟨after, ?_⟩
  have isApplied : apply (.table path key) ⟨root, last⟩ = some ⟨between, path ++ [key]⟩ := by
    rw [apply, isInserted, Option.map_some]
  exact (execute_below (line_table bare) isApplied).trans isRead

include bare distinct in
theorem leads_item (fills : Fills (path ++ [key]) members) :
    Leads (dumpItem (path ++ [key]) (.obj members)) path
      (Toml.append key (arrange (nodes members))) := by
  refine ⟨fills.whole.below (oneLine_itemHeader bare) (itemHeader_closes _),
    fun root changed last isWithin => ?_⟩
  have isFilled : Toml.append key (arrange (nodes members)) = fun table =>
      (Toml.append key [] table).bind
        (alter key (inTable (extend (arrange (nodes members))))) := by
    funext table
    rw [append_alter, extend_nil (arrange_nodup distinct)]
    rfl
  rw [isFilled, within_bind] at isWithin
  rcases isWithin with ⟨between, isInserted, isExtended⟩
  rw [← within_append] at isExtended
  rcases fills.reads between changed isExtended with ⟨after, isRead⟩
  refine ⟨after, ?_⟩
  have isApplied : apply (.item path key) ⟨root, last⟩ = some ⟨between, path ++ [key]⟩ := by
    rw [apply, isInserted, Option.map_some]
  exact (execute_below (line_item bare) isApplied).trans isRead

end Lines

/-- The tables that stand right under a key: itself, or the items of an array of tables. -/
def tablesOf : PyValue → List (List (String × PyValue))
  | .obj members => [members]
  | .arr items => items.flatMap fun item =>
      match item with
      | .obj members => [members]
      | _ => []
  | _ => []

section Tables

variable {path : List String} {members : List (String × PyValue)}

theorem execute_scalars {root changed : Members PyNumber}
    (good : ∀ member ∈ members, isBare member.1 = true ∧ writable member.2 = true)
    (isWithin : within path (extend ((nodes members).filter fun member => isValueNode member.2))
      root = some changed) :
    execute PyNumber.read (dumpScalars members) ⟨root, path⟩ = some ⟨changed, path⟩ := by
  induction members generalizing root with
  | nil =>
      rw [within_some isWithin]
      rfl
  | cons member members ih =>
      obtain ⟨key, value⟩ := member
      have isGood := good _ List.mem_cons_self
      have others := fun next isIn => good next (List.mem_cons_of_mem _ isIn)
      rw [nodes, List.filter_cons, ← isScalar_iff] at isWithin
      rw [dumpScalars, List.filter_cons]
      split_ifs at isWithin ⊢ with scalar
      · rw [node_of_isScalar scalar] at isWithin
        rcases within_bind.mp isWithin with ⟨between, isInserted, isExtended⟩
        rw [List.map_cons, execute, line_binding isGood.1 (reads_scalar value isGood.2)]
        dsimp only
        rw [apply, isInserted]
        exact ih others isExtended
      · exact ih others isWithin

theorem not_isSpace_of_isWordChar {c : Char} (isWord : isWordChar c = true) :
    Py.isSpace c = false := by
  rcases toNat_of_isWordChar isWord with ⟨low, high⟩
  rw [Bool.eq_false_iff]
  intro isSpace
  simp only [Py.isSpace, Bool.or_eq_true, Bool.and_eq_true, beq_iff_eq, decide_eq_true_eq,
    List.contains_iff_mem] at isSpace
  rcases isSpace with ((rfl | isControl) | isControl) | isWide
  · cases isWord
  · omega
  · omega
  · have isLarge : ∀ code ∈ Py.wideSpaces, 133 ≤ code := by decide
    have := isLarge _ isWide
    omega

/-- No value ends with a space. -/
theorem scalar_closes (value : PyValue) : Closes (scalar value) := by
  cases value with
  | null => exact ⟨['"', 'N', 'o', 'n', 'e'], '"', rfl, by rfl⟩
  | bool value =>
      cases value with
      | true => exact ⟨['t', 'r', 'u'], 'e', rfl, by rfl⟩
      | false => exact ⟨['f', 'a', 'l', 's'], 'e', rfl, by rfl⟩
  | num value =>
      have notEmpty : value.repr ≠ [] := by
        rcases value.repr_opens with ⟨c, rest, opens, -⟩
        simp [opens]
      exact ⟨_, _, (List.dropLast_append_getLast notEmpty).symm,
        not_isSpace_of_isWordChar (isWordChar_repr value _ (List.getLast_mem notEmpty))⟩
  | str text => exact ⟨'"' :: escaped text.toList, '"', rfl, by rfl⟩
  | arr items => exact ⟨'[' :: comma.intercalate (scalars items), ']', rfl, by rfl⟩
  | obj members =>
      exact ⟨'\x7b' :: ' ' :: (comma.intercalate (parts members) ++ [' ']), '\x7d',
        by simp [scalar], by rfl⟩

theorem whole_dumpScalars
    (good : ∀ member ∈ members, isBare member.1 = true ∧ writable member.2 = true) :
    Whole (dumpScalars members) := by
  refine ⟨fun line isIn => ?_, fun line isLast => ?_⟩
  · rcases List.mem_map.mp isIn with ⟨⟨key, value⟩, isMember, rfl⟩
    have isGood := good _ (List.mem_of_mem_filter isMember)
    exact oneLine_binding isGood.1 (reads_scalar value isGood.2).oneLine
  · rcases List.mem_map.mp (List.mem_of_getLast? isLast) with ⟨⟨key, value⟩, isMember, rfl⟩
    rcases scalar_closes value with ⟨chars, c, isScalar, notSpace⟩
    exact ⟨binding key chars, c, by simp [binding, isScalar], notSpace⟩

theorem isBare_append {key : String} (bare : ∀ name ∈ path, isBare name = true)
    (isKey : isBare key = true) : ∀ name ∈ path ++ [key], isBare name = true := by
  intro name isIn
  rcases List.mem_append.mp isIn with isIn | isIn
  · exact bare name isIn
  · rw [List.mem_singleton.mp isIn]
    exact isKey

theorem leads_tables (bare : ∀ name ∈ path, isBare name = true)
    (good : ∀ member ∈ members, isBare member.1 = true ∧ writable member.2 = true)
    (fills : ∀ member ∈ members, ∀ entries ∈ tablesOf member.2,
      Fills (path ++ [member.1]) entries) :
    Leads (dumpTables path members) path
      (extend ((nodes members).filter fun member => isTableNode member.2)) := by
  induction members with
  | nil => exact .nil
  | cons member members ih =>
      obtain ⟨key, value⟩ := member
      have isGood := good _ List.mem_cons_self
      have isFilled := fills _ List.mem_cons_self
      have others := ih (fun next isIn => good next (List.mem_cons_of_mem _ isIn))
        fun next isIn => fills next (List.mem_cons_of_mem _ isIn)
      rw [dumpTables, nodes]
      cases value with
      | obj entries =>
          exact (leads_table (isBare_append bare isGood.1) (writable_obj.mp isGood.2).2
            (isFilled entries List.mem_cons_self)).append others
      | arr items =>
          rw [node]
          split_ifs with areTables
          · exact others
          · exact others
      | null => exact others
      | bool value => exact others
      | num value => exact others
      | str text => exact others

theorem leads_items {key : String} {items : List PyValue}
    (isPath : ∀ name ∈ path ++ [key], isBare name = true)
    (good : ∀ item ∈ items, writable item = true) (dicts : items.all isDict = true)
    (fills : ∀ entries ∈ tablesOf (.arr items), Fills (path ++ [key]) entries) :
    Leads (dumpItems (path ++ [key]) items) path (appendAll key (itemNodes items)) := by
  induction items with
  | nil => exact .nil
  | cons item items ih =>
      rw [List.all_cons, Bool.and_eq_true] at dicts
      cases item with
      | obj entries =>
          have isGood := good _ List.mem_cons_self
          have isFilled := fills entries List.mem_cons_self
          have others := ih (fun next isIn => good next (List.mem_cons_of_mem _ isIn)) dicts.2
            fun next isIn => fills next (List.mem_cons_of_mem _ isIn)
          exact (leads_item isPath (writable_obj.mp isGood).2 isFilled).append others
      | null => cases dicts.1
      | bool value => cases dicts.1
      | num value => cases dicts.1
      | str text => cases dicts.1
      | arr items => cases dicts.1

theorem leads_arrays (bare : ∀ name ∈ path, isBare name = true)
    (good : ∀ member ∈ members, isBare member.1 = true ∧ writable member.2 = true)
    (fills : ∀ member ∈ members, ∀ entries ∈ tablesOf member.2,
      Fills (path ++ [member.1]) entries) :
    Leads (dumpArrays path members) path
      (extend ((nodes members).filter fun member => isTablesNode member.2)) := by
  induction members with
  | nil => exact .nil
  | cons member members ih =>
      obtain ⟨key, value⟩ := member
      have isGood := good _ List.mem_cons_self
      have isFilled := fills _ List.mem_cons_self
      have others := ih (fun next isIn => good next (List.mem_cons_of_mem _ isIn))
        fun next isIn => fills next (List.mem_cons_of_mem _ isIn)
      rw [dumpArrays, nodes]
      cases value with
      | arr items =>
          rw [dumpItemsUnder, node]
          split_ifs with areTables
          · rw [isTables, Bool.and_eq_true] at areTables
            rcases items with _ | ⟨item, items⟩
            · cases areTables.1
            have leads := leads_items (isBare_append bare isGood.1)
              (writable_arr.mp isGood.2) areTables.2 isFilled
            -- the items are appended in turn to what is inserted as one array
            refine Leads.append ⟨leads.whole, fun root changed last isWithin => ?_⟩ others
            rw [itemNodes] at isWithin leads
            exact leads.reads root changed last
              (within_mono (fun _ _ => appendAll_of_insert) isWithin)
          · exact others
      | obj entries => exact others
      | null => exact others
      | bool value => exact others
      | num value => exact others
      | str text => exact others

/-- A table is read as its members, if the tables in it are. -/
theorem fills_of (bare : ∀ name ∈ path, isBare name = true)
    (isWritable : writable (.obj members) = true)
    (fills : ∀ member ∈ members, ∀ entries ∈ tablesOf member.2,
      Fills (path ++ [member.1]) entries) : Fills path members := by
  have good := (writable_obj.mp isWritable).1
  have leads := (leads_tables bare good fills).append (leads_arrays bare good fills)
  refine ⟨(whole_dumpScalars good).append leads.whole, fun root changed isWithin => ?_⟩
  have isSplit : extend (arrange (nodes members)) = fun table =>
      (extend ((nodes members).filter fun member => isValueNode member.2) table).bind
        fun table =>
          (extend ((nodes members).filter fun member => isTableNode member.2) table).bind
            (extend ((nodes members).filter fun member => isTablesNode member.2)) := by
    funext table
    rw [arrange, extend_append]
    exact congrArg (Option.bind _) (funext (extend_append _ _))
  rw [isSplit] at isWithin
  rcases within_bind.mp isWithin with ⟨between, isFirst, isRest⟩
  rcases leads.reads between changed path isRest with ⟨after, isRead⟩
  refine ⟨after, ?_⟩
  rw [dumpTable, execute_append, execute_scalars good isFirst]
  exact isRead

end Tables

/-- The tables of a value are read as their members, wherever they stand. -/
theorem fills_tablesOf (value : PyValue) (isWritable : writable value = true) :
    ∀ entries ∈ tablesOf value, ∀ path, (∀ name ∈ path, isBare name = true) →
      Fills path entries := by
  induction value using JsonTree.induct with
  | obj members ih =>
      intro entries isTable path bare
      rw [List.mem_singleton.mp isTable]
      have good := (writable_obj.mp isWritable).1
      refine fills_of bare isWritable fun member isIn entries isTable => ?_
      exact ih member isIn (good member isIn).2 entries isTable _
        (isBare_append bare (good member isIn).1)
  | arr items ih =>
      intro entries isTable path bare
      rcases List.mem_flatMap.mp isTable with ⟨item, isIn, isItem⟩
      have good := writable_arr.mp isWritable item isIn
      cases item with
      | obj members => exact ih _ isIn good entries isItem path bare
      | null => cases isItem
      | bool value => cases isItem
      | num value => cases isItem
      | str text => cases isItem
      | arr items => cases isItem
  | null => exact fun _ isTable => nomatch isTable
  | bool value => exact fun _ isTable => nomatch isTable
  | num value => exact fun _ isTable => nomatch isTable
  | str text => exact fun _ isTable => nomatch isTable

theorem fills_root {data : List (String × PyValue)} (isWritable : writable (.obj data) = true) :
    Fills [] data :=
  fills_tablesOf (.obj data) isWritable data List.mem_cons_self [] fun _ isIn => nomatch isIn

/-! ## The text as it is read -/

theorem reordered_node (value : PyValue) (isWritable : writable value = true) :
    Reordered (node value).read value := by
  induction value using JsonTree.induct with
  | null => exact .refl _
  | bool value => exact .refl _
  | num value => exact .refl _
  | str text => exact .refl _
  | arr items ih =>
      rw [node]
      split_ifs with areTables
      · rw [Node.read, readItems_eq, itemNodes_eq, List.map_map]
        refine .arr (List.forall₂_map_left_iff.mpr (List.forall₂_same.mpr fun item isIn => ?_))
        rw [isTables, Bool.and_eq_true, List.all_eq_true] at areTables
        have isItem := ih item isIn (writable_arr.mp isWritable item isIn)
        cases item with
        | obj entries => exact isItem
        | null => cases areTables.2 _ isIn
        | bool value => cases areTables.2 _ isIn
        | num value => cases areTables.2 _ isIn
        | str text => cases areTables.2 _ isIn
        | arr items => cases areTables.2 _ isIn
      · exact .refl _
  | obj members ih =>
      rw [node, Node.read, readMembers_eq]
      have good := (writable_obj.mp isWritable).1
      refine .obj ((arrange_perm (nodes members)).map _) ?_ ?_
      · rw [nodes_eq, List.map_map, List.map_map]
        rfl
      · rw [nodes_eq, List.map_map, List.map_map, List.forall₂_map_left_iff,
          List.forall₂_map_right_iff, List.forall₂_same]
        exact fun member isIn => ih member isIn (good member isIn).2

theorem intercalate_concat (lines : List (List Char)) (last : List Char) :
    ∃ chars, ['\n'].intercalate (lines ++ [last]) = chars ++ last := by
  induction lines with
  | nil => exact ⟨[], List.intercalate_singleton⟩
  | cons line lines ih =>
      rcases ih with ⟨chars, isLast⟩
      rcases lines with _ | ⟨next, lines⟩
      · refine ⟨line ++ ['\n'], ?_⟩
        rw [List.singleton_append, List.intercalate_cons_cons, List.intercalate_singleton]
      · refine ⟨line ++ ['\n'] ++ chars, ?_⟩
        rw [List.cons_append, List.cons_append, List.intercalate_cons_cons, ← List.cons_append,
          isLast]
        simp

theorem rstrip_lines {lines : List (List Char)} (whole : Whole lines) :
    rstrip (['\n'].intercalate lines) = ['\n'].intercalate lines := by
  rcases List.eq_nil_or_concat lines with rfl | ⟨before, last, rfl⟩
  · rfl
  · rcases whole.closes last (by simp) with ⟨chars, c, rfl, notSpace⟩
    rcases intercalate_concat before (chars ++ [c]) with ⟨others, isText⟩
    rw [List.concat_eq_append, isText, ← List.append_assoc, rstrip, List.rdropWhile_concat_neg _ _ _ (by simp [notSpace])]

theorem intercalate_newline {line : List Char} {lines : List (List Char)} :
    ['\n'].intercalate (line :: lines) ++ ['\n'] =
      ['\n'].intercalate (line :: (lines ++ [[]])) := by
  induction lines generalizing line with
  | nil =>
      rw [List.nil_append, List.intercalate_cons_cons, List.intercalate_singleton,
        List.intercalate_singleton, List.append_nil]
  | cons next lines ih =>
      rw [List.cons_append, List.intercalate_cons_cons, List.intercalate_cons_cons, ← ih]
      simp

/-- The lines of a text are those it is made of, and an empty one. -/
theorem execute_lines {lines : List (List Char)} (whole : Whole lines)
    (document : Document PyNumber) :
    execute PyNumber.read ((['\n'].intercalate lines ++ ['\n']).splitOn '\n') document =
      execute PyNumber.read lines document := by
  rcases lines with _ | ⟨line, lines⟩
  · rfl
  have oneLine : ∀ chars ∈ line :: (lines ++ [[]]), '\n' ∉ chars := by
    intro chars isIn
    rw [← List.cons_append] at isIn
    rcases List.mem_append.mp isIn with isIn | isIn
    · exact whole.oneLine chars isIn
    · rw [List.mem_singleton.mp isIn]
      exact fun isIn => nomatch isIn
  rw [intercalate_newline, List.splitOn_intercalate _ oneLine (List.cons_ne_nil _ _),
    ← List.cons_append, execute_append]
  rcases execute PyNumber.read (line :: lines) document with _ | after
  · rfl
  · rfl

theorem loads_dumps_eq {data : List (String × PyValue)}
    (isWritable : writable (.obj data) = true) :
    loads PyNumber.read (dumps data) = some (readMembers (arrange (nodes data))) := by
  have fills := fills_root isWritable
  rcases fills.reads [] _ (extend_nil (arrange_nodup (writable_obj.mp isWritable).2)) with
    ⟨after, isRead⟩
  rw [loads, dumps, rstrip_lines fills.whole, execute_lines fills.whole, isRead]
  rfl

/-- What is written is read as the same data, members perhaps in another order. -/
theorem loads_dumps {data : List (String × PyValue)} (isWritable : writable (.obj data) = true) :
    ∃ result, loads PyNumber.read (dumps data) = some result ∧
      Reordered (.obj result) (.obj data) := by
  exact ⟨_, loads_dumps_eq isWritable, reordered_node (.obj data) isWritable⟩

/-- A profile with a rule of each kind of value. -/
def sample : List (String × PyValue) :=
  [("profiles", .obj [("default", .obj [("name", .str "a \"default\" \\ one"),
      ("options", .arr [.num (.int (-3)), .obj [("deep", .arr [])]]),
      ("local_fallbacks", .arr [.obj [("model", .str "m"), ("enabled", .bool true)], .obj []])])]),
    ("version", .num (.int 1))]

theorem loads_dumps_sample : ∃ result, loads PyNumber.read (dumps sample) = some result ∧
    Reordered (.obj result) (.obj sample) :=
  loads_dumps (by decide +kernel)

end Aa.Sifter.Config.Toml
