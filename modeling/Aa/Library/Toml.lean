import Mathlib.Data.List.Basic
import Mathlib.Logic.Function.Basic
import Aa.Library.JsonTree

/-!
# Reading TOML

A document is read line by line: headers of tables and of items of arrays of tables, and keys
with their values. Of TOML this is the part in which each value stands on one line, keys are
bare, strings are basic ones, and tables are declared after the one they are in. Everything else
is refused.
-/

namespace Aa.Library.Toml

/-- A value as a reader holds it; a table is a list of members. -/
abbrev Value (N : Type) := JsonTree N String

/-! ## Values on one line -/

def isBlank (c : Char) : Bool := c == ' ' || c == '\t'

def skip (chars : List Char) : List Char := chars.dropWhile isBlank

/-- A character of a bare key. -/
def isKeyChar (c : Char) : Bool := c.isAlphanum || c == '_' || c == '-'

def isBare (key : String) : Bool := !key.toList.isEmpty && key.toList.all isKeyChar

/-- A character of a number or a word. -/
def isWordChar (c : Char) : Bool := isKeyChar c || c == '+' || c == '.'

/-- A character that stands for itself in a basic string. -/
def isTextChar (c : Char) : Bool :=
  (32 ≤ c.toNat || c == '\t') && c.toNat != 127 && c != '\\' && c != '"'

def unescape (c : Char) : Option Char :=
  match c with
  | '"' => some '"'
  | '\\' => some '\\'
  | 'b' => some '\x08'
  | 't' => some '\t'
  | 'n' => some '\n'
  | 'f' => some '\x0c'
  | 'r' => some '\r'
  | _ => none

/-- The rest of a basic string, and what follows it. -/
def text : List Char → Option (List Char × List Char)
  | [] => none
  | [c] => if c = '"' then some ([], []) else none
  | c :: next :: rest =>
      if c = '"' then some ([], next :: rest)
      else if c = '\\' then
        match unescape next with
        | some value => (text rest).map fun (chars, rest) => (value :: chars, rest)
        | none => none
      else if isTextChar c then (text (next :: rest)).map fun (chars, rest) => (c :: chars, rest)
      else none

variable {N : Type} (number : List Char → Option N)

def word (chars : List Char) : Option (Value N) :=
  if chars = ['t', 'r', 'u', 'e'] then some (.bool true)
  else if chars = ['f', 'a', 'l', 's', 'e'] then some (.bool false)
  else (number chars).map .num

mutual

/-- A value with what follows it, read in so many calls at most. -/
def value : ℕ → List Char → Option (Value N × List Char)
  | 0, _ => none
  | _ + 1, [] => none
  | calls + 1, c :: rest =>
      if c = '"' then (text rest).map fun (chars, rest) => (.str (String.ofList chars), rest)
      else if c = '[' then (items calls (skip rest)).map fun (items, rest) => (.arr items, rest)
      else if c = '\x7b' then
        match skip rest with
        | '\x7d' :: rest => some (.obj [], rest)
        | rest =>
            match members calls rest with
            | some (members, rest) =>
                if (members.map Prod.fst).Nodup then some (.obj members, rest) else none
            | none => none
      else
        (word number ((c :: rest).takeWhile isWordChar)).map fun value =>
          (value, (c :: rest).dropWhile isWordChar)

/-- The items of an array that are left. -/
def items : ℕ → List Char → Option (List (Value N) × List Char)
  | 0, _ => none
  | calls + 1, chars =>
      match chars with
      | ']' :: rest => some ([], rest)
      | _ =>
          match value calls chars with
          | some (item, rest) =>
              match skip rest with
              | ',' :: rest =>
                  (items calls (skip rest)).map fun (items, rest) => (item :: items, rest)
              | ']' :: rest => some ([item], rest)
              | _ => none
          | none => none

/-- The members of an inline table that are left, one at least. -/
def members : ℕ → List Char → Option (List (String × Value N) × List Char)
  | 0, _ => none
  | calls + 1, chars =>
      let key := String.ofList (chars.takeWhile isKeyChar)
      match skip (chars.dropWhile isKeyChar) with
      | '=' :: rest =>
          if key = "" then none
          else
            match value calls (skip rest) with
            | some (item, rest) =>
                match skip rest with
                | ',' :: rest =>
                    (members calls (skip rest)).map fun (members, rest) =>
                      ((key, item) :: members, rest)
                | '\x7d' :: rest => some ([(key, item)], rest)
                | _ => none
            | none => none
      | _ => none

end

/-! ## Lines -/

inductive Line (N : Type) where
  | blank
  /-- `[path.key]` -/
  | table (path : List String) (key : String)
  /-- `[[path.key]]` -/
  | item (path : List String) (key : String)
  | entry (key : String) (value : Value N)

def isPathChar (c : Char) : Bool := isKeyChar c || c == '.'

/-- The keys of a header, and what closes it. -/
def header (chars : List Char) : Option (List String × String × List Char) :=
  let keys := ((chars.takeWhile isPathChar).splitOn '.').map String.ofList
  match keys.getLast? with
  | some key =>
      if keys.all isBare then some (keys.dropLast, key, chars.dropWhile isPathChar) else none
  | none => none

def entry (chars : List Char) : Option (Line N) :=
  let key := String.ofList (chars.takeWhile isKeyChar)
  match skip (chars.dropWhile isKeyChar) with
  | '=' :: rest =>
      if key = "" then none
      else
        match value number (2 * rest.length + 1) (skip rest) with
        | some (value, rest) => if skip rest = [] then some (.entry key value) else none
        | none => none
  | _ => none

def itemLine (chars : List Char) : Option (Line N) :=
  match header chars with
  | some (path, key, rest) =>
      match rest with
      | ']' :: ']' :: rest => if skip rest = [] then some (.item path key) else none
      | _ => none
  | none => none

def tableLine (chars : List Char) : Option (Line N) :=
  match header chars with
  | some (path, key, rest) =>
      match rest with
      | ']' :: rest => if skip rest = [] then some (.table path key) else none
      | _ => none
  | none => none

def line (chars : List Char) : Option (Line N) :=
  match skip chars with
  | [] => some .blank
  | '[' :: '[' :: rest => itemLine rest
  | '[' :: rest => tableLine rest
  | chars => entry number chars

/-! ## Documents -/

/-- What stands under a key of a document that is being read: a value, a table or an array of
tables. Only the last two are extended by later lines. -/
inductive Node (N : Type) where
  | value (value : Value N)
  | table (members : List (String × Node N))
  | tables (items : List (List (String × Node N)))

abbrev Members (N : Type) := List (String × Node N)

/-- Changes what stands under a key. -/
def alter (key : String) (change : Node N → Option (Node N)) : Members N → Option (Members N)
  | [] => none
  | (name, node) :: rest =>
      if name = key then (change node).map fun node => (name, node) :: rest
      else (alter key change rest).map fun rest => (name, node) :: rest

/-- Adds a key that is not there yet. -/
def insert (key : String) (node : Node N) (members : Members N) : Option (Members N) :=
  if key ∈ members.map Prod.fst then none else some (members ++ [(key, node)])

/-- Changes a table, or the last item of an array of tables. -/
def inTable (change : Members N → Option (Members N)) : Node N → Option (Node N)
  | .value _ => none
  | .table members => (change members).map .table
  | .tables items =>
      match items.getLast? with
      | some last => (change last).map fun last => .tables (items.dropLast ++ [last])
      | none => none

/-- A node with one more item, if it is an array of tables. -/
def Node.concat (item : List (String × Node N)) : Node N → Option (Node N)
  | .tables items => some (.tables (items ++ [item]))
  | _ => none

/-- Adds an item to an array of tables, the first one if there is none. -/
def append (key : String) (item members : Members N) : Option (Members N) :=
  if key ∈ members.map Prod.fst then alter key (Node.concat item) members
  else some (members ++ [(key, .tables [item])])

/-- Changes the table that a path leads to. -/
def within : List String → (Members N → Option (Members N)) → Members N → Option (Members N)
  | [], change => change
  | key :: path, change => alter key (inTable (within path change))

/-- A document that is being read: what was read, and the table that the keys go to. -/
structure Document (N : Type) where
  root : Members N
  path : List String

def apply (line : Line N) (document : Document N) : Option (Document N) :=
  match line with
  | .blank => some document
  | .table path key =>
      (within path (insert key (.table [])) document.root).map fun root => ⟨root, path ++ [key]⟩
  | .item path key =>
      (within path (append key []) document.root).map fun root => ⟨root, path ++ [key]⟩
  | .entry key value =>
      (within document.path (insert key (.value value)) document.root).map fun root =>
        ⟨root, document.path⟩

def execute : List (List Char) → Document N → Option (Document N)
  | [], document => some document
  | chars :: rest, document =>
      match line number chars with
      | some line => (apply line document).bind (execute rest)
      | none => none

mutual

def Node.read : Node N → Value N
  | .value value => value
  | .table members => .obj (readMembers members)
  | .tables items => .arr (readItems items)

def readMembers : Members N → List (String × Value N)
  | [] => []
  | (key, node) :: rest => (key, node.read) :: readMembers rest

def readItems : List (Members N) → List (Value N)
  | [] => []
  | members :: rest => .obj (readMembers members) :: readItems rest

end

/-- Reads a document to the members of its root. -/
def loads (chars : List Char) : Option (List (String × Value N)) :=
  (execute number (chars.splitOn '\n') ⟨[], []⟩).map fun document => readMembers document.root

/-- Values that differ in nothing but the order of the members of tables. -/
inductive Reordered : Value N → Value N → Prop
  | refl (value : Value N) : Reordered value value
  | arr {items others : List (Value N)} (same : List.Forall₂ Reordered items others) :
      Reordered (.arr items) (.arr others)
  | obj {members others shuffled : List (String × Value N)} (perm : members.Perm shuffled)
      (keys : shuffled.map Prod.fst = others.map Prod.fst)
      (same : List.Forall₂ Reordered (shuffled.map Prod.snd) (others.map Prod.snd)) :
      Reordered (.obj members) (.obj others)

theorem readMembers_eq (members : Members N) :
    readMembers members = members.map fun member => (member.1, member.2.read) := by
  induction members with
  | nil => rfl
  | cons member members ih => rw [readMembers, ih, List.map_cons]

theorem readItems_eq (items : List (Members N)) :
    readItems items = items.map fun members => .obj (readMembers members) := by
  induction items with
  | nil => rfl
  | cons item items ih => rw [readItems, ih, List.map_cons]

/-! ## What changes of a document do -/

section Changes

variable {key : String} {node : Node N} {first second change : Members N → Option (Members N)}

theorem alter_alter {first second : Node N → Option (Node N)} (members : Members N) :
    (alter key first members).bind (alter key second) =
      alter key (fun node => (first node).bind second) members := by
  induction members with
  | nil => rfl
  | cons member rest ih =>
      obtain ⟨name, node⟩ := member
      rw [alter, alter]
      split_ifs with isKey
      · rcases first node with _ | changed
        · rfl
        · simp [alter, isKey]
      · rw [← ih]
        rcases alter key first rest with _ | changed
        · rfl
        · simp [alter, isKey]

theorem inTable_inTable (node : Node N) :
    (inTable first node).bind (inTable second) =
      inTable (fun members => (first members).bind second) node := by
  cases node with
  | value value => rfl
  | table members =>
      rw [inTable, inTable]
      rcases first members with _ | changed
      · rfl
      · rfl
  | tables items =>
      rw [inTable, inTable]
      rcases items.getLast? with _ | last
      · rfl
      · rcases isFirst : first last with _ | changed
        · simp [isFirst]
        · simp [isFirst, inTable]

/-- Two changes of one table are one change. -/
theorem within_within (path : List String) (root : Members N) :
    (within path first root).bind (within path second) =
      within path (fun members => (first members).bind second) root := by
  induction path generalizing root with
  | nil => rfl
  | cons key path ih =>
      rw [within, within, alter_alter, within]
      refine congrArg (fun change => alter key change root) (funext fun node => ?_)
      rw [inTable_inTable]
      exact congrArg (fun change => inTable change node) (funext ih)

/-- A change of a table is one of the table it is in. -/
theorem within_append (path : List String) :
    within (path ++ [key]) change = within path (alter key (inTable change)) := by
  induction path with
  | nil => rfl
  | cons name path ih => rw [List.cons_append, within, ih, within]

/-- What was added last is what is changed. -/
theorem alter_concat {change : Node N → Option (Node N)} {members : Members N}
    (isNew : key ∉ members.map Prod.fst) :
    alter key change (members ++ [(key, node)]) =
      (change node).map fun node => members ++ [(key, node)] := by
  induction members with
  | nil =>
      rw [List.nil_append, alter, if_pos rfl]
      rfl
  | cons member rest ih =>
      rw [List.map_cons, List.mem_cons, not_or] at isNew
      rw [List.cons_append, alter, if_neg (Ne.symm isNew.1), ih isNew.2, Option.map_map]
      rfl

theorem insert_alter {change : Node N → Option (Node N)} (members : Members N) :
    (insert key node members).bind (alter key change) =
      (change node).bind fun node => insert key node members := by
  unfold insert
  split_ifs with isThere
  · rcases change node with _ | changed
    · rfl
    · rfl
  · rw [Option.bind_some, alter_concat isThere]
    rcases change node with _ | changed
    · rfl
    · rfl

/-- Adds members that are not there yet, in turn. -/
def extend : Members N → Members N → Option (Members N)
  | [], members => some members
  | (key, node) :: rest, members => (insert key node members).bind (extend rest)

theorem extend_append (added others : Members N) (members : Members N) :
    extend (added ++ others) members = (extend added members).bind (extend others) := by
  induction added generalizing members with
  | nil => rfl
  | cons member rest ih =>
      rw [List.cons_append, extend, extend, Option.bind_assoc]
      exact congrArg (Option.bind _) (funext ih)

theorem extend_eq {added members : Members N}
    (distinct : ((members ++ added).map Prod.fst).Nodup) :
    extend added members = some (members ++ added) := by
  induction added generalizing members with
  | nil => rw [extend, List.append_nil]
  | cons member rest ih =>
      obtain ⟨key, node⟩ := member
      have isNew : key ∉ members.map Prod.fst := by
        rw [List.map_append, List.map_cons] at distinct
        exact fun isThere => (List.disjoint_of_nodup_append distinct) isThere List.mem_cons_self
      have isSame : members ++ (key, node) :: rest = members ++ [(key, node)] ++ rest := by simp
      rw [isSame] at distinct ⊢
      rw [extend, insert, if_neg isNew, Option.bind_some, ih distinct]

theorem extend_nil {added : Members N} (distinct : (added.map Prod.fst).Nodup) :
    extend added [] = some added := extend_eq distinct

/-- An item is added as a whole if it is added empty and then changed. -/
theorem append_alter (members : Members N) :
    (append key [] members).bind (alter key (inTable change)) =
      (change []).bind fun item => append key item members := by
  unfold append
  split_ifs with isThere
  · rw [alter_alter]
    rcases isItem : change [] with _ | item
    · have isNone (node : Node N) : (Node.concat [] node).bind (inTable change) = none := by
        cases node <;> simp [Node.concat, inTable, isItem]
      rw [Option.bind_none]
      clear isThere
      induction members with
      | nil => rfl
      | cons member rest ih =>
          rw [alter, isNone, ih]
          simp
    · rw [Option.bind_some]
      refine congrArg (fun change => alter key change members) (funext fun node => ?_)
      cases node <;> simp [Node.concat, inTable, isItem]
  · rw [Option.bind_some, alter_concat isThere]
    rcases isItem : change [] with _ | item
    · simp [inTable, isItem]
    · simp [inTable, isItem]

/-- Adds items to an array of tables, in turn. -/
def appendAll (key : String) : List (Members N) → Members N → Option (Members N)
  | [], members => some members
  | item :: rest, members => (append key item members).bind (appendAll key rest)

theorem appendAll_concat {items others : List (Members N)} {members : Members N}
    (isNew : key ∉ members.map Prod.fst) :
    appendAll key others (members ++ [(key, .tables items)]) =
      some (members ++ [(key, .tables (items ++ others))]) := by
  induction others generalizing items with
  | nil => rw [appendAll, List.append_nil]
  | cons item rest ih =>
      have isThere : key ∈ (members ++ [(key, Node.tables items)]).map Prod.fst := by simp
      rw [appendAll, append, if_pos isThere, alter_concat isNew, Node.concat, Option.map_some,
        Option.bind_some, ih, List.append_assoc]
      rfl

/-- An array of tables is added item by item. -/
theorem appendAll_of_insert {item : Members N} {items : List (Members N)}
    {members added : Members N}
    (inserted : insert key (.tables (item :: items)) members = some added) :
    appendAll key (item :: items) members = some added := by
  unfold insert at inserted
  split_ifs at inserted with isThere
  rw [← Option.some.inj inserted, appendAll, append, if_neg isThere, Option.bind_some,
    appendAll_concat isThere]
  rfl

theorem alter_mono {first second : Node N → Option (Node N)} {members changed : Members N}
    (isSame : ∀ node changed, first node = some changed → second node = some changed)
    (changes : alter key first members = some changed) :
    alter key second members = some changed := by
  induction members generalizing changed with
  | nil => cases changes
  | cons member rest ih =>
      obtain ⟨name, node⟩ := member
      rw [alter] at changes ⊢
      split_ifs at changes ⊢
      · rcases Option.map_eq_some_iff.mp changes with ⟨node, isNode, rfl⟩
        rw [isSame _ _ isNode, Option.map_some]
      · rcases Option.map_eq_some_iff.mp changes with ⟨rest, isRest, rfl⟩
        rw [ih isRest, Option.map_some]

/-- A change that does what another one does, does so in each table. -/
theorem within_mono {path : List String} {root changed : Members N}
    (isSame : ∀ members changed, first members = some changed → second members = some changed)
    (changes : within path first root = some changed) : within path second root = some changed := by
  induction path generalizing root changed with
  | nil => exact isSame root changed changes
  | cons key path ih =>
      refine alter_mono (fun node after isChanged => ?_) changes
      cases node with
      | value value => cases isChanged
      | table members =>
          rw [inTable] at isChanged ⊢
          rcases Option.map_eq_some_iff.mp isChanged with ⟨members, isMembers, rfl⟩
          rw [ih isMembers, Option.map_some]
      | tables items =>
          rw [inTable] at isChanged ⊢
          split at isChanged
          · rename_i last isLast
            rcases Option.map_eq_some_iff.mp isChanged with ⟨last, isChange, rfl⟩
            rw [ih isChange, Option.map_some]
          · cases isChanged

/-- A change that changes nothing. -/
theorem within_some {path : List String} {root changed : Members N}
    (changes : within path some root = some changed) : changed = root := by
  induction path generalizing root changed with
  | nil => exact (Option.some.inj changes).symm
  | cons key path ih =>
      have isSame (node after : Node N) (isChanged : inTable (within path some) node = some after) :
          some node = some after := by
        cases node with
        | value value => cases isChanged
        | table members =>
            rcases Option.map_eq_some_iff.mp isChanged with ⟨members, isMembers, rfl⟩
            rw [ih isMembers]
        | tables items =>
            rw [inTable] at isChanged
            split at isChanged
            · rename_i last isLast
              rcases Option.map_eq_some_iff.mp isChanged with ⟨last, isChange, rfl⟩
              rw [ih isChange, List.dropLast_append_getLast? _ isLast]
            · cases isChanged
      have isAltered := alter_mono isSame changes
      clear changes isSame ih
      induction root generalizing changed with
      | nil => cases isAltered
      | cons member rest ih =>
          obtain ⟨name, node⟩ := member
          rw [alter] at isAltered
          split_ifs at isAltered
          · exact (Option.some.inj isAltered).symm
          · rcases Option.map_eq_some_iff.mp isAltered with ⟨rest, isRest, rfl⟩
            rw [ih isRest]

theorem within_bind {path : List String} {root changed : Members N} :
    within path (fun members => (first members).bind second) root = some changed ↔
      ∃ between, within path first root = some between ∧
        within path second between = some changed := by
  rw [← within_within, Option.bind_eq_some_iff]

end Changes

theorem execute_append (before after : List (List Char)) (document : Document N) :
    execute number (before ++ after) document =
      (execute number before document).bind (execute number after) := by
  induction before generalizing document with
  | nil => rfl
  | cons chars rest ih =>
      rw [List.cons_append, execute, execute]
      split
      · rw [Option.bind_assoc]
        exact congrArg (Option.bind _) (funext ih)
      · rfl

/-! ## What a line says -/

/-- What follows a number or a word. -/
def Ends (rest : List Char) : Prop := ∀ c ∈ rest.head?, isWordChar c = false

/-- A text that starts a value, and is read as it whatever follows. -/
structure Reads (chars : List Char) (item : Value N) : Prop where
  opens : ∃ c rest, chars = c :: rest ∧ isBlank c = false ∧ c ≠ ']'
  oneLine : '\n' ∉ chars
  reads : ∀ calls rest, 2 * (chars ++ rest).length ≤ calls → Ends rest →
    value number calls (chars ++ rest) = some (item, rest)

theorem skip_of_not_blank {c : Char} {rest : List Char} (notBlank : isBlank c = false) :
    skip (c :: rest) = c :: rest := by
  rw [skip, List.dropWhile_cons_of_neg (by simp [notBlank])]

theorem skip_blank (rest : List Char) : skip (' ' :: rest) = skip rest := by
  rw [skip, List.dropWhile_cons_of_pos (by rfl), skip]

variable {number} {chars rest : List Char} {item : Value N}

theorem Reads.skip_append (reads : Reads number chars item) (rest : List Char) :
    skip (chars ++ rest) = chars ++ rest := by
  rcases reads.opens with ⟨c, others, rfl, notBlank, -⟩
  exact skip_of_not_blank notBlank

/-- The separator of the values on one line. -/
def comma : List Char := [',', ' ']

theorem ends_cons {c : Char} (ends : isWordChar c = false) : Ends (c :: rest) := by
  intro other isOther
  rcases isOther with ⟨⟩
  exact ends

theorem items_of_not_closed {c : Char} {calls : ℕ} (notClosed : c ≠ ']') :
    items number (calls + 1) (c :: rest) =
      (value number calls (c :: rest)).bind fun (item, rest) =>
        match skip rest with
        | ',' :: rest =>
            (items number calls (skip rest)).map fun (items, rest) => (item :: items, rest)
        | ']' :: rest => some ([item], rest)
        | _ => none := by
  rw [items]
  · rcases value number calls (c :: rest) with _ | ⟨item, rest⟩
    · rfl
    · rfl
  · exact fun after isClosed => notClosed (List.cons.inj isClosed).1

theorem Reads.items_comma (reads : Reads number chars item) {calls : ℕ}
    (enough : 2 * (chars ++ (comma ++ rest)).length ≤ calls) :
    items number (calls + 1) (chars ++ (comma ++ rest)) =
      (items number calls (skip rest)).map fun (items, rest) => (item :: items, rest) := by
  have isRead := reads.reads calls (comma ++ rest) enough (ends_cons (by rfl))
  rcases reads.opens with ⟨c, others, rfl, -, notClosed⟩
  rw [List.cons_append] at isRead ⊢
  rw [items_of_not_closed notClosed, isRead]
  rfl

theorem Reads.items_close (reads : Reads number chars item) {calls : ℕ}
    (enough : 2 * (chars ++ ']' :: rest).length ≤ calls) :
    items number (calls + 1) (chars ++ ']' :: rest) = some ([item], rest) := by
  have isRead := reads.reads calls (']' :: rest) enough (ends_cons (by rfl))
  rcases reads.opens with ⟨c, others, rfl, -, notClosed⟩
  rw [List.cons_append] at isRead ⊢
  rw [items_of_not_closed notClosed, isRead]
  rfl

theorem oneLine_intercalate {α : Type} {relation : List Char → α → Prop}
    {texts : List (List Char)} {others : List α}
    (oneLine : ∀ text other, relation text other → '\n' ∉ text)
    (related : List.Forall₂ relation texts others) : '\n' ∉ comma.intercalate texts := by
  induction related with
  | nil => exact fun isIn => nomatch isIn
  | @cons text other texts others isFirst related ih =>
      rcases texts with _ | ⟨next, texts⟩
      · rw [List.intercalate_singleton]
        exact oneLine text other isFirst
      · rw [List.intercalate_cons_cons, List.mem_append, List.mem_append, not_or, not_or]
        exact ⟨⟨oneLine text other isFirst, by decide⟩, ih⟩

theorem length_comma_intercalate_cons (next : List Char) (texts : List (List Char)) :
    (comma.intercalate (chars :: next :: texts)).length =
      chars.length + 2 + (comma.intercalate (next :: texts)).length := by
  have isComma : comma.length = 2 := rfl
  rw [List.intercalate_cons_cons, List.length_append, List.length_append, isComma,
    Nat.add_assoc]

/-- What begins a list of texts that are read begins its first text. -/
theorem skip_intercalate {texts : List (List Char)} {values : List (Value N)}
    (reads : List.Forall₂ (Reads number) (chars :: texts) values) (rest : List Char) :
    skip (comma.intercalate (chars :: texts) ++ rest) =
      comma.intercalate (chars :: texts) ++ rest := by
  rcases reads with _ | ⟨read, reads⟩
  cases texts with
  | nil =>
      rw [List.intercalate_singleton]
      exact read.skip_append rest
  | cons next texts =>
      rw [List.intercalate_cons_cons, List.append_assoc, List.append_assoc]
      exact read.skip_append _

theorem items_intercalate {texts : List (List Char)} {values : List (Value N)} {calls : ℕ}
    (reads : List.Forall₂ (Reads number) texts values) (notEmpty : values ≠ [])
    (enough : 2 * (comma.intercalate texts ++ ']' :: rest).length + 1 ≤ calls) :
    items number calls (comma.intercalate texts ++ ']' :: rest) = some (values, rest) := by
  induction reads generalizing calls with
  | nil => exact absurd rfl notEmpty
  | @cons chars item texts values read reads ih =>
      rcases calls with _ | calls
      · omega
      cases reads with
      | nil =>
          rw [List.intercalate_singleton] at enough ⊢
          exact read.items_close (by omega)
      | @cons next after texts values isNext reads =>
          rw [List.length_append, length_comma_intercalate_cons] at enough
          rw [List.intercalate_cons_cons, List.append_assoc, List.append_assoc]
          rw [read.items_comma (by simp [comma] at enough ⊢; omega),
            skip_intercalate (.cons isNext reads), ih (List.cons_ne_nil _ _)]
          · rfl
          · rw [List.length_append]
            omega

/-! ## Members of inline tables -/

/-- A key with the text of its value. -/
def binding (key : String) (chars : List Char) : List Char :=
  key.toList ++ (' ' :: '=' :: ' ' :: chars)

variable {key : String} {c : Char}

theorem isKeyChar_of_isBare (bare : isBare key = true) : ∀ c ∈ key.toList, isKeyChar c = true := by
  rw [isBare, Bool.and_eq_true, List.all_eq_true] at bare
  exact bare.2

theorem isBare_opens (bare : isBare key = true) :
    ∃ c rest, key.toList = c :: rest ∧ isKeyChar c = true := by
  rcases isKey : key.toList with _ | ⟨c, rest⟩
  · rw [isBare, isKey] at bare
    cases bare
  · exact ⟨c, rest, rfl, isKeyChar_of_isBare bare c (by simp [isKey])⟩

theorem takeWhile_key (bare : isBare key = true) (ends : isKeyChar c = false) :
    (key.toList ++ c :: rest).takeWhile isKeyChar = key.toList := by
  rw [List.takeWhile_append_of_pos (isKeyChar_of_isBare bare),
    List.takeWhile_cons_of_neg (by simp [ends]), List.append_nil]

theorem dropWhile_key (bare : isBare key = true) (ends : isKeyChar c = false) :
    (key.toList ++ c :: rest).dropWhile isKeyChar = c :: rest := by
  rw [List.dropWhile_append_of_pos (isKeyChar_of_isBare bare),
    List.dropWhile_cons_of_neg (by simp [ends])]

theorem not_isBlank_of_isKeyChar (isKey : isKeyChar c = true) : isBlank c = false := by
  rcases isBlank? : isBlank c with _ | _
  · rfl
  · rw [isBlank, Bool.or_eq_true, beq_iff_eq, beq_iff_eq] at isBlank?
    rcases isBlank? with rfl | rfl
    · cases isKey
    · cases isKey

theorem ne_empty_of_isBare (bare : isBare key = true) : key ≠ "" := by
  rintro rfl
  cases bare

/-- A text is that of a member. -/
def Binds (number : List Char → Option N) (chars : List Char) (member : String × Value N) : Prop :=
  isBare member.1 = true ∧ ∃ item, chars = binding member.1 item ∧ Reads number item member.2

theorem oneLine_binding (bare : isBare key = true) (oneLine : '\n' ∉ chars) :
    '\n' ∉ binding key chars := by
  intro isIn
  rw [binding, List.mem_append] at isIn
  rcases isIn with isKey | isIn
  · cases isKeyChar_of_isBare bare _ isKey
  · simp [oneLine] at isIn

theorem Binds.oneLine {member : String × Value N} (binds : Binds number chars member) :
    '\n' ∉ chars := by
  rcases binds with ⟨bare, item, rfl, read⟩
  exact oneLine_binding bare read.oneLine

/-- A list of members begins with a key. -/
theorem Binds.opens {texts : List (List Char)} {entries : List (String × Value N)}
    (binds : List.Forall₂ (Binds number) (chars :: texts) entries) :
    ∃ c others, comma.intercalate (chars :: texts) = c :: others ∧ isKeyChar c = true := by
  rcases binds with _ | ⟨⟨bare, item, rfl, -⟩, binds⟩
  rcases isBare_opens bare with ⟨c, others, isKey, isKeyChar⟩
  refine ⟨c, ?_⟩
  cases texts with
  | nil =>
      rw [List.intercalate_singleton, binding, isKey]
      exact ⟨_, rfl, isKeyChar⟩
  | cons next texts =>
      rw [List.intercalate_cons_cons, binding, isKey]
      exact ⟨_, rfl, isKeyChar⟩

theorem Binds.skip_intercalate {texts : List (List Char)} {entries : List (String × Value N)}
    (binds : List.Forall₂ (Binds number) (chars :: texts) entries) (rest : List Char) :
    skip (comma.intercalate (chars :: texts) ++ rest) =
      comma.intercalate (chars :: texts) ++ rest := by
  rcases Binds.opens binds with ⟨c, others, isOpen, isKey⟩
  rw [isOpen]
  exact skip_of_not_blank (not_isBlank_of_isKeyChar isKey)

theorem Binds.members_append {member : String × Value N} {calls : ℕ}
    (binds : Binds number chars member) (enough : 2 * (chars ++ rest).length ≤ calls + 1)
    (ends : Ends rest) :
    members number (calls + 1) (chars ++ rest) =
      match skip rest with
      | ',' :: rest =>
          (members number calls (skip rest)).map fun (members, rest) => (member :: members, rest)
      | '\x7d' :: rest => some ([member], rest)
      | _ => none := by
  obtain ⟨key, value⟩ := member
  rcases binds with ⟨bare, item, rfl, read⟩
  dsimp only at bare read
  have isRead := read.reads calls rest (by simp [binding] at enough ⊢; omega) ends
  rw [members, binding, List.append_assoc, List.cons_append, dropWhile_key bare (by rfl),
    takeWhile_key bare (by rfl), String.ofList_toList, skip_blank, List.cons_append,
    skip_of_not_blank (by rfl)]
  refine (if_neg (ne_empty_of_isBare bare)).trans ?_
  rw [List.cons_append, skip_blank, read.skip_append, isRead]

theorem Binds.members_comma {member : String × Value N} {calls : ℕ}
    (binds : Binds number chars member)
    (enough : 2 * (chars ++ (comma ++ rest)).length ≤ calls + 1) :
    members number (calls + 1) (chars ++ (comma ++ rest)) =
      (members number calls (skip rest)).map fun (members, rest) => (member :: members, rest) := by
  rw [binds.members_append enough (ends_cons (by rfl))]
  rfl

theorem Binds.members_close {member : String × Value N} {calls : ℕ}
    (binds : Binds number chars member)
    (enough : 2 * (chars ++ (' ' :: '\x7d' :: rest)).length ≤ calls + 1) :
    members number (calls + 1) (chars ++ (' ' :: '\x7d' :: rest)) = some ([member], rest) := by
  rw [binds.members_append enough (ends_cons (by rfl))]
  rfl

theorem members_intercalate {texts : List (List Char)} {entries : List (String × Value N)}
    {calls : ℕ} (binds : List.Forall₂ (Binds number) texts entries) (notEmpty : entries ≠ [])
    (enough : 2 * (comma.intercalate texts ++ (' ' :: '\x7d' :: rest)).length ≤ calls) :
    members number calls (comma.intercalate texts ++ (' ' :: '\x7d' :: rest)) =
      some (entries, rest) := by
  induction binds generalizing calls with
  | nil => exact absurd rfl notEmpty
  | @cons chars member texts entries bind binds ih =>
      rcases calls with _ | calls
      · simp at enough
      cases binds with
      | nil =>
          rw [List.intercalate_singleton] at enough ⊢
          exact bind.members_close enough
      | @cons next after texts entries isNext binds =>
          rw [List.length_append, length_comma_intercalate_cons] at enough
          rw [List.intercalate_cons_cons, List.append_assoc, List.append_assoc]
          rw [bind.members_comma (by simp [comma] at enough ⊢; omega),
            Binds.skip_intercalate (.cons isNext binds), ih (List.cons_ne_nil _ _)]
          · rfl
          · rw [List.length_append]
            omega

/-! ## Values -/

theorem takeWhile_of_ends (ends : Ends rest) : rest.takeWhile isWordChar = [] := by
  rcases rest with _ | ⟨c, rest⟩
  · rfl
  · exact List.takeWhile_cons_of_neg (by simp [ends c rfl])

theorem dropWhile_of_ends (ends : Ends rest) : rest.dropWhile isWordChar = rest := by
  rcases rest with _ | ⟨c, rest⟩
  · rfl
  · exact List.dropWhile_cons_of_neg (by simp [ends c rfl])

theorem not_isBlank_of_isWordChar (isWord : isWordChar c = true) : isBlank c = false := by
  rcases isBlank? : isBlank c with _ | _
  · rfl
  · rw [isBlank, Bool.or_eq_true, beq_iff_eq, beq_iff_eq] at isBlank?
    rcases isBlank? with rfl | rfl
    · cases isWord
    · cases isWord

theorem toNat_of_isWordChar (isWord : isWordChar c = true) : 43 ≤ c.toNat ∧ c.toNat ≤ 122 := by
  simp only [isWordChar, isKeyChar, Char.isAlphanum] at isWord
  delta Char.isAlpha Char.isUpper Char.isLower at isWord
  simp only [Char.isDigit, Bool.or_eq_true, Bool.and_eq_true, decide_eq_true_eq, beq_iff_eq,
    UInt32.le_iff_toNat_le, ge_iff_le] at isWord
  rcases isWord with (((((⟨low, high⟩ | ⟨low, high⟩) | ⟨low, high⟩) | rfl) | rfl) | rfl) | rfl
  · exact ⟨Nat.le_trans (by decide) low, Nat.le_trans high (by decide)⟩
  · exact ⟨Nat.le_trans (by decide) low, Nat.le_trans high (by decide)⟩
  · exact ⟨Nat.le_trans (by decide) low, Nat.le_trans high (by decide)⟩
  all_goals decide

theorem reads_word (notEmpty : chars ≠ []) (isWord : ∀ c ∈ chars, isWordChar c = true)
    (isItem : word number chars = some item) : Reads number chars item := by
  rcases chars with _ | ⟨c, others⟩
  · exact absurd rfl notEmpty
  have opens := isWord c List.mem_cons_self
  refine ⟨⟨c, others, rfl, not_isBlank_of_isWordChar opens, ?_⟩,
    (fun isIn => nomatch isWord _ isIn), fun calls rest enough ends => ?_⟩
  · rintro rfl
    cases opens
  · rcases calls with _ | calls
    · simp at enough
    rw [List.cons_append, value, if_neg, if_neg, if_neg, ← List.cons_append,
      List.takeWhile_append_of_pos isWord, List.dropWhile_append_of_pos isWord,
      takeWhile_of_ends ends, dropWhile_of_ends ends, List.append_nil, isItem, Option.map_some]
    · rintro rfl
      cases opens
    · rintro rfl
      cases opens
    · rintro rfl
      cases opens

theorem reads_bool (value : Bool) :
    Reads number (if value then ['t', 'r', 'u', 'e'] else ['f', 'a', 'l', 's', 'e'])
      (.bool value) := by
  cases value with
  | true => exact reads_word (List.cons_ne_nil _ _) (List.all_eq_true.mp (by decide)) (by rfl)
  | false => exact reads_word (List.cons_ne_nil _ _) (List.all_eq_true.mp (by decide)) (by rfl)

theorem reads_number {read : N} (notEmpty : chars ≠ [])
    (isWord : ∀ c ∈ chars, isWordChar c = true) (notTrue : chars ≠ ['t', 'r', 'u', 'e'])
    (notFalse : chars ≠ ['f', 'a', 'l', 's', 'e']) (isRead : number chars = some read) :
    Reads number chars (.num read) := by
  refine reads_word notEmpty isWord ?_
  rw [word, if_neg notTrue, if_neg notFalse, isRead, Option.map_some]

/-- A basic string is read as the characters that its text stands for, whatever follows. -/
theorem reads_text {content : List Char} (oneLine : '\n' ∉ chars)
    (isText : ∀ rest, text (chars ++ '"' :: rest) = some (content, rest)) :
    Reads number ('"' :: (chars ++ ['"'])) (.str (String.ofList content)) := by
  refine ⟨⟨'"', _, rfl, by rfl, by decide⟩, by simp [oneLine], fun calls rest enough _ => ?_⟩
  rcases calls with _ | calls
  · simp at enough
  rw [List.cons_append, value, if_pos rfl, List.append_assoc]
  exact congrArg (Option.map _) (isText rest)

theorem reads_empty_array : Reads number ['[', ']'] (.arr []) := by
  refine ⟨⟨'[', _, rfl, by rfl, by decide⟩, by decide, fun calls rest enough _ => ?_⟩
  rcases calls with _ | _ | calls
  · simp at enough
  · simp at enough
    omega
  · rfl

theorem reads_array {texts : List (List Char)} {values : List (Value N)}
    (reads : List.Forall₂ (Reads number) texts values) :
    Reads number ('[' :: (comma.intercalate texts ++ [']'])) (.arr values) := by
  rcases texts with _ | ⟨chars, texts⟩
  · rcases reads with ⟨⟩
    exact reads_empty_array
  have oneLine : '\n' ∉ comma.intercalate (chars :: texts) :=
    oneLine_intercalate (fun _ _ => Reads.oneLine) reads
  refine ⟨⟨'[', _, rfl, by rfl, by decide⟩, by simp [oneLine], fun calls rest enough _ => ?_⟩
  rcases calls with _ | calls
  · simp at enough
  rw [List.cons_append, value, if_neg (by decide), if_pos rfl, List.append_assoc,
    skip_intercalate reads]
  have notEmpty : values ≠ [] := by
    rcases reads with _ | _
    exact List.cons_ne_nil _ _
  rw [List.singleton_append, items_intercalate reads notEmpty (by simp at enough ⊢; omega)]
  rfl

theorem value_of_table {calls : ℕ} {others : List Char} (opens : skip rest = c :: others)
    (notClosed : c ≠ '\x7d') :
    value number (calls + 1) ('\x7b' :: rest) =
      match members number calls (c :: others) with
      | some (members, rest) =>
          if (members.map Prod.fst).Nodup then some (.obj members, rest) else none
      | none => none := by
  rw [value, if_neg (by decide), if_neg (by decide), if_pos rfl, opens]
  split
  · rename_i isClosed
    exact absurd (List.cons.inj isClosed).1 notClosed
  · rfl

theorem reads_empty_table : Reads number ['\x7b', ' ', ' ', '\x7d'] (.obj []) := by
  refine ⟨⟨'\x7b', _, rfl, by rfl, by decide⟩, by decide, fun calls rest enough _ => ?_⟩
  rcases calls with _ | calls
  · simp at enough
  · rfl

theorem reads_table {texts : List (List Char)} {entries : List (String × Value N)}
    (binds : List.Forall₂ (Binds number) texts entries)
    (distinct : (entries.map Prod.fst).Nodup) :
    Reads number ('\x7b' :: ' ' :: (comma.intercalate texts ++ [' ', '\x7d'])) (.obj entries) := by
  rcases texts with _ | ⟨chars, texts⟩
  · rcases binds with ⟨⟩
    exact reads_empty_table
  have oneLine : '\n' ∉ comma.intercalate (chars :: texts) :=
    oneLine_intercalate (fun _ _ => Binds.oneLine) binds
  refine ⟨⟨'\x7b', _, rfl, by rfl, by decide⟩, by simp [oneLine], fun calls rest enough _ => ?_⟩
  rcases calls with _ | calls
  · simp at enough
  have notEmpty : entries ≠ [] := by
    rcases binds with _ | _
    exact List.cons_ne_nil _ _
  have isRead : members number calls
      (comma.intercalate (chars :: texts) ++ (' ' :: '\x7d' :: rest)) = some (entries, rest) :=
    members_intercalate binds notEmpty (by simp at enough ⊢; omega)
  have isSkipped : skip (' ' :: (comma.intercalate (chars :: texts) ++ [' ', '\x7d']) ++ rest) =
      comma.intercalate (chars :: texts) ++ (' ' :: '\x7d' :: rest) := by
    rw [List.cons_append, skip_blank, List.append_assoc]
    exact Binds.skip_intercalate binds _
  rcases Binds.opens binds with ⟨c, others, isOpen, isKey⟩
  rw [isOpen] at isRead isSkipped ⊢
  rw [List.cons_append, value_of_table isSkipped]
  change (match members number calls (c :: others ++ (' ' :: '\x7d' :: rest)) with
    | some (members, rest) => _
    | none => none) = _
  rw [isRead]
  · exact if_pos distinct
  · rintro rfl
    cases isKey

/-! ## Strings -/

theorem text_close (rest : List Char) : text ('"' :: rest) = some ([], rest) := by
  rcases rest with _ | ⟨c, rest⟩
  · rfl
  · rfl

theorem text_plain (isText : isTextChar c = true) (notEmpty : rest ≠ []) :
    text (c :: rest) = (text rest).map fun (chars, rest) => (c :: chars, rest) := by
  rcases rest with _ | ⟨next, rest⟩
  · exact absurd rfl notEmpty
  rw [text, if_neg, if_neg, if_pos isText]
  · rintro rfl
    cases isText
  · rintro rfl
    cases isText

theorem text_escape {value : Char} (isEscape : unescape c = some value) :
    text ('\\' :: c :: rest) = (text rest).map fun (chars, rest) => (value :: chars, rest) := by
  rw [text, if_neg (by decide), if_pos rfl, isEscape]

/-! ## Lines -/

/-- The text of a header. -/
def dotted (keys : List String) : List Char := ['.'].intercalate (keys.map String.toList)

theorem dotted_cons_cons (key next : String) (keys : List String) :
    dotted (key :: next :: keys) = key.toList ++ ('.' :: dotted (next :: keys)) := by
  rw [dotted, List.map_cons, List.map_cons, List.intercalate_cons_cons, List.append_assoc]
  rfl

theorem dotted_singleton (key : String) : dotted [key] = key.toList := by
  rw [dotted, List.map_singleton, List.intercalate_singleton]

theorem isPathChar_dotted {keys : List String} (bare : ∀ key ∈ keys, isBare key = true) :
    ∀ c ∈ dotted keys, isPathChar c = true := by
  induction keys with
  | nil =>
      intro c isChar
      cases isChar
  | cons key keys ih =>
      have isKey (c : Char) (isChar : c ∈ key.toList) : isPathChar c = true := by
        rw [isPathChar, isKeyChar_of_isBare (bare key List.mem_cons_self) c isChar]
        rfl
      intro c isChar
      rcases keys with _ | ⟨next, keys⟩
      · rw [dotted_singleton] at isChar
        exact isKey c isChar
      · rw [dotted_cons_cons, List.mem_append, List.mem_cons] at isChar
        rcases isChar with isChar | rfl | isChar
        · exact isKey c isChar
        · rfl
        · exact ih (fun key isIn => bare key (List.mem_cons_of_mem _ isIn)) c isChar

theorem dotted_opens {keys : List String} (bare : ∀ key ∈ keys, isBare key = true)
    (notEmpty : keys ≠ []) : ∃ c rest, dotted keys = c :: rest ∧ isKeyChar c = true := by
  rcases keys with _ | ⟨key, keys⟩
  · exact absurd rfl notEmpty
  rcases isBare_opens (bare key List.mem_cons_self) with ⟨c, rest, isKey, isKeyChar⟩
  rcases keys with _ | ⟨next, keys⟩
  · rw [dotted_singleton]
    exact ⟨c, rest, isKey, isKeyChar⟩
  · rw [dotted_cons_cons, isKey]
    exact ⟨c, _, rfl, isKeyChar⟩

theorem not_mem_dot (bare : isBare key = true) : '.' ∉ key.toList :=
  fun isIn => nomatch isKeyChar_of_isBare bare '.' isIn

theorem header_dotted {path : List String} (bare : ∀ name ∈ path ++ [key], isBare name = true)
    (ends : isPathChar c = false) :
    header (dotted (path ++ [key]) ++ c :: rest) = some (path, key, c :: rest) := by
  have isPath := isPathChar_dotted bare
  have isSplit : (dotted (path ++ [key])).splitOn '.' = (path ++ [key]).map String.toList := by
    refine List.splitOn_intercalate _ (fun chars isIn => ?_) (by simp)
    rcases List.mem_map.mp isIn with ⟨name, isName, rfl⟩
    exact not_mem_dot (bare name isName)
  have isKeys : ((path ++ [key]).map String.toList).map String.ofList = path ++ [key] := by
    rw [List.map_map]
    exact (List.map_congr_left fun name _ => String.ofList_toList).trans (List.map_id _)
  rw [header, List.takeWhile_append_of_pos isPath, List.dropWhile_append_of_pos isPath,
    List.takeWhile_cons_of_neg (by simp [ends]), List.dropWhile_cons_of_neg (by simp [ends]),
    List.append_nil, isSplit, isKeys, List.getLast?_concat]
  dsimp only
  rw [if_pos (List.all_eq_true.mpr bare), List.dropLast_concat]

/-- `[path.key]` -/
theorem line_table {path : List String} (bare : ∀ name ∈ path ++ [key], isBare name = true) :
    line number ('[' :: (dotted (path ++ [key]) ++ [']'])) = some (.table path key) := by
  have isTable : tableLine (dotted (path ++ [key]) ++ [']']) = some (Line.table (N := N) path key) := by
    rw [tableLine, header_dotted bare (by rfl)]
    rfl
  rcases dotted_opens bare (by simp) with ⟨c, others, isOpen, isKey⟩
  rw [isOpen, List.cons_append] at isTable ⊢
  rw [line, skip_of_not_blank (by rfl)]
  split
  · rename_i isEmpty
    cases isEmpty
  · rename_i isItem
    rcases isItem with ⟨⟩
    cases isKey
  · rename_i isRest
    rcases isRest with ⟨⟩
    exact isTable
  · rename_i isOther
    exact absurd rfl (isOther _)

/-- `[[path.key]]` -/
theorem line_item {path : List String} (bare : ∀ name ∈ path ++ [key], isBare name = true) :
    line number ('[' :: '[' :: (dotted (path ++ [key]) ++ [']', ']'])) = some (.item path key) := by
  rw [line, skip_of_not_blank (by rfl)]
  change itemLine _ = _
  rw [itemLine, header_dotted bare (by rfl)]
  rfl

theorem line_binding (bare : isBare key = true) (reads : Reads number chars item) :
    line number (binding key chars) = some (.entry key item) := by
  have isEntry : entry number (binding key chars) = some (.entry key item) := by
    have isRead := reads.reads (2 * (' ' :: chars).length + 1) [] (by simp; omega) (by simp [Ends])
    rw [List.append_nil] at isRead
    rw [entry, binding, dropWhile_key bare (by rfl), takeWhile_key bare (by rfl),
      String.ofList_toList, skip_blank, skip_of_not_blank (by rfl)]
    refine (if_neg (ne_empty_of_isBare bare)).trans ?_
    rw [skip_blank, ← List.append_nil chars, reads.skip_append, List.append_nil, isRead]
    rfl
  rcases isBare_opens bare with ⟨c, others, isKey, isKeyChar⟩
  rw [binding, isKey, List.cons_append] at isEntry ⊢
  rw [line, skip_of_not_blank (not_isBlank_of_isKeyChar isKeyChar)]
  split
  · rename_i isEmpty
    cases isEmpty
  · rename_i isItem
    rw [(List.cons.inj isItem).1] at isKeyChar
    cases isKeyChar
  · rename_i isRest
    rw [(List.cons.inj isRest).1] at isKeyChar
    cases isKeyChar
  · exact isEntry

end Aa.Library.Toml
