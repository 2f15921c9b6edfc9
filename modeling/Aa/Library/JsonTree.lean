import Mathlib.Data.List.Sort
import Mathlib.Order.Defs.LinearOrder
import Aa.Library.JsonText
import Aa.Library.JsonNumber

/-!
# JSON values, and what is read of them

A JSON value over numbers and strings of any kind. An object is a list of members, and what a
reader that keeps the last member of each name makes of two values is the same exactly if they
agree member by member.
-/

namespace Aa.Library

universe u

/-- A JSON value with numbers and strings of some kind. -/
inductive JsonTree (N S : Type) where
  | null
  | bool (value : Bool)
  | num (number : N)
  | str (text : S)
  | arr (items : List (JsonTree N S))
  | obj (members : List (S × JsonTree N S))

namespace JsonTree

variable {N M S T : Type}

/-- Induction over the items of arrays and the values of members. -/
@[elab_as_elim]
theorem induct {motive : JsonTree N S → Prop} (null : motive .null)
    (bool : ∀ value, motive (.bool value)) (num : ∀ number, motive (.num number))
    (str : ∀ text, motive (.str text))
    (arr : ∀ items, (∀ item ∈ items, motive item) → motive (.arr items))
    (obj : ∀ members, (∀ member ∈ members, motive member.2) → motive (.obj members))
    (tree : JsonTree N S) : motive tree := by
  refine @JsonTree.rec N S motive (fun items => ∀ item ∈ items, motive item)
    (fun members => ∀ member ∈ members, motive member.2) (fun member => motive member.2)
    null bool num str arr obj ?_ ?_ ?_ ?_ ?_ tree
  · simp
  · intro item items ofItem ofItems
    simpa [ofItem] using ofItems
  · simp
  · intro member members ofMember ofMembers
    simpa [ofMember] using ofMembers
  · intro name value ofValue
    exact ofValue

mutual

/-- A value with its numbers and strings read, and the members of its objects arranged. -/
def convert (number : N → M) (text : S → T)
    (arrange : List (T × JsonTree M T) → List (T × JsonTree M T)) : JsonTree N S → JsonTree M T
  | .null => .null
  | .bool value => .bool value
  | .num value => .num (number value)
  | .str value => .str (text value)
  | .arr items => .arr (convertItems number text arrange items)
  | .obj members => .obj (arrange (convertMembers number text arrange members))

def convertItems (number : N → M) (text : S → T)
    (arrange : List (T × JsonTree M T) → List (T × JsonTree M T)) :
    List (JsonTree N S) → List (JsonTree M T)
  | [] => []
  | item :: items =>
      convert number text arrange item :: convertItems number text arrange items

def convertMembers (number : N → M) (text : S → T)
    (arrange : List (T × JsonTree M T) → List (T × JsonTree M T)) :
    List (S × JsonTree N S) → List (T × JsonTree M T)
  | [] => []
  | (name, value) :: members =>
      (text name, convert number text arrange value) :: convertMembers number text arrange members

end

section Convert

variable {number : N → M} {text : S → T}
  {arrange : List (T × JsonTree M T) → List (T × JsonTree M T)}

theorem convertItems_eq (items : List (JsonTree N S)) :
    convertItems number text arrange items = items.map (convert number text arrange) := by
  induction items with
  | nil => rfl
  | cons item items ih => rw [convertItems, ih, List.map_cons]

theorem convertMembers_eq (members : List (S × JsonTree N S)) :
    convertMembers number text arrange members =
      members.map fun member => (text member.1, convert number text arrange member.2) := by
  induction members with
  | nil => rfl
  | cons member members ih =>
      rcases member with ⟨name, value⟩
      rw [convertMembers, ih, List.map_cons]

end Convert

/-! ## The last member of a name -/

section Members

variable {α β : Type}

/-- The value of the last member whose name is read as a name. -/
def lastUnder [DecidableEq T] (text : S → T) (name : T) : List (S × α) → Option α
  | [] => none
  | (key, value) :: rest =>
      (lastUnder text name rest).or (if text key = name then some value else none)

/-- The members that no later member of the same name replaces. -/
def keepLast [DecidableEq T] : List (T × α) → List (T × α)
  | [] => []
  | member :: rest =>
      if member.1 ∈ rest.map Prod.fst then keepLast rest else member :: keepLast rest

/-- Members in the order of their names. -/
def sortByName [LE T] [DecidableLE T] (members : List (T × α)) : List (T × α) :=
  members.insertionSort fun left right => left.1 ≤ right.1

variable [DecidableEq T] {text : S → T} {name : T}

theorem lastUnder_eq_none {members : List (S × α)} :
    lastUnder text name members = none ↔ ∀ member ∈ members, text member.1 ≠ name := by
  induction members with
  | nil => simp [lastUnder]
  | cons member rest ih =>
      rcases member with ⟨key, value⟩
      simp only [lastUnder, Option.or_eq_none_iff, ih, List.forall_mem_cons]
      by_cases isName : text key = name
      · simp [isName]
      · simp [isName]

theorem mem_of_lastUnder {members : List (S × α)} {value : α}
    (isLast : lastUnder text name members = some value) :
    ∃ key, text key = name ∧ (key, value) ∈ members := by
  induction members with
  | nil => cases isLast
  | cons member rest ih =>
      rcases member with ⟨key, first⟩
      rw [lastUnder, Option.or_eq_some_iff] at isLast
      rcases isLast with isLater | ⟨-, isFirst⟩
      · rcases ih isLater with ⟨key, isName, isThere⟩
        exact ⟨key, isName, List.mem_cons_of_mem _ isThere⟩
      · split_ifs at isFirst with isName
        cases isFirst
        exact ⟨key, isName, List.mem_cons_self⟩

theorem lastUnder_map (read : α → β) (members : List (S × α)) :
    lastUnder id name (members.map fun member => (text member.1, read member.2)) =
      (lastUnder text name members).map read := by
  induction members with
  | nil => rfl
  | cons member rest ih =>
      rcases member with ⟨key, value⟩
      rw [List.map_cons, lastUnder, lastUnder, ih, Option.map_or]
      by_cases isName : text key = name
      · simp [isName]
      · simp [isName]

theorem mem_keepLast {members : List (T × α)} {value : α} :
    (name, value) ∈ keepLast members ↔ lastUnder id name members = some value := by
  induction members with
  | nil => simp [keepLast, lastUnder]
  | cons member rest ih =>
      rcases member with ⟨key, first⟩
      have replaced_iff : key ∈ rest.map Prod.fst ↔ lastUnder id key rest ≠ none := by
        rw [Ne, lastUnder_eq_none]
        simp
      rw [keepLast, lastUnder]
      by_cases isName : key = name
      · subst isName
        by_cases replaced : key ∈ rest.map Prod.fst
        · rw [if_pos replaced, ih]
          cases later : lastUnder id key rest with
          | none => exact absurd later (replaced_iff.mp replaced)
          | some found => simp
        · have notLater : lastUnder id key rest = none := not_not.mp (mt replaced_iff.mpr replaced)
          rw [notLater] at ih
          rw [if_neg replaced, notLater]
          simp [ih, eq_comm]
      · have isOther : ¬ name = key := fun same => isName same.symm
        have skips : (name, value) ∈ (if key ∈ rest.map Prod.fst then keepLast rest
            else (key, first) :: keepLast rest) ↔ (name, value) ∈ keepLast rest := by
          by_cases replaced : key ∈ rest.map Prod.fst
          · rw [if_pos replaced]
          · rw [if_neg replaced]
            simp [isOther]
        rw [skips, ih]
        simp [isName]

theorem nodup_keepLast (members : List (T × α)) : ((keepLast members).map Prod.fst).Nodup := by
  induction members with
  | nil => simp [keepLast]
  | cons member rest ih =>
      rw [keepLast]
      split_ifs with replaced
      · exact ih
      · rw [List.map_cons, List.nodup_cons]
        refine ⟨?_, ih⟩
        intro isThere
        rcases List.mem_map.mp isThere with ⟨other, isOther, sameName⟩
        rcases mem_of_lastUnder (mem_keepLast.mp (show (other.1, other.2) ∈ keepLast rest from isOther))
          with ⟨key, isKey, isMember⟩
        refine replaced (List.mem_map.mpr ⟨_, isMember, ?_⟩)
        exact isKey.trans sameName

end Members

section Order

variable {α : Type} [PartialOrder T] [DecidableLE T] [Std.Total fun left right : T => left ≤ right]

instance : Std.Total fun left right : T × α => left.1 ≤ right.1 where
  total left right :=
    (inferInstance : Std.Total fun left right : T => left ≤ right).total left.1 right.1

instance : IsTrans (T × α) fun left right => left.1 ≤ right.1 where
  trans _ _ _ := le_trans

/-- Members of different names are determined by their order and what they are. -/
theorem sortByName_eq_iff {members others : List (T × α)} (nodup : (members.map Prod.fst).Nodup)
    (othersNodup : (others.map Prod.fst).Nodup) :
    sortByName members = sortByName others ↔ ∀ member, member ∈ members ↔ member ∈ others := by
  have sorted := List.perm_insertionSort (fun left right : T × α => left.1 ≤ right.1) members
  have othersSorted := List.perm_insertionSort (fun left right : T × α => left.1 ≤ right.1) others
  constructor
  · intro same member
    rw [← sorted.mem_iff, ← othersSorted.mem_iff]
    rw [sortByName, sortByName] at same
    rw [same]
  · intro same
    have perm : members.Perm others :=
      (List.perm_ext_iff_of_nodup nodup.of_map othersNodup.of_map).mpr same
    have unique : ∀ member ∈ members, ∀ other ∈ members, member.1 = other.1 → member = other :=
      fun member isThere other isOther sameName =>
        List.inj_on_of_nodup_map nodup isThere isOther sameName
    refine List.Perm.eq_of_pairwise ?_ (List.pairwise_insertionSort _ members)
      (List.pairwise_insertionSort _ others) (sorted.trans (perm.trans othersSorted.symm))
    intro member other isThere isOther below above
    refine unique member (sorted.mem_iff.mp isThere) other ?_ (le_antisymm below above)
    exact (same other).mpr (othersSorted.mem_iff.mp isOther)

/-- What is kept of two lists of members is the same exactly if the last values are. -/
theorem keepLast_eq_iff [DecidableEq T] {members others : List (T × α)} :
    sortByName (keepLast members) = sortByName (keepLast others) ↔
      ∀ name, lastUnder id name members = lastUnder id name others := by
  rw [sortByName_eq_iff (nodup_keepLast members) (nodup_keepLast others)]
  constructor
  · intro same name
    refine Option.ext fun value => ?_
    rw [← mem_keepLast, ← mem_keepLast]
    exact same (name, value)
  · intro same member
    rcases member with ⟨name, value⟩
    rw [mem_keepLast, mem_keepLast, same name]

end Order

/-! ## What agrees for a reader -/

section Agree

variable {number : N → M} {text : S → T}

/-- Values that a reader does not tell apart: numbers and strings that it reads alike, arrays item
by item, and objects by the last member of each name. -/
inductive Agree [DecidableEq T] (number : N → M) (text : S → T) :
    JsonTree N S → JsonTree N S → Prop
  | null : Agree number text .null .null
  | bool (value : Bool) : Agree number text (.bool value) (.bool value)
  | num {first second : N} (same : number first = number second) :
      Agree number text (.num first) (.num second)
  | str {first second : S} (same : text first = text second) :
      Agree number text (.str first) (.str second)
  | arr {items others : List (JsonTree N S)}
      (same : List.Forall₂ (Agree number text) items others) :
      Agree number text (.arr items) (.arr others)
  | obj {members others : List (S × JsonTree N S)}
      (same : ∀ name, Option.Rel (Agree number text) (lastUnder text name members)
        (lastUnder text name others)) : Agree number text (.obj members) (.obj others)

/-- The value a reader makes: numbers and strings read, the last member of each name, by name. -/
def read [DecidableEq T] [LE T] [DecidableLE T] (number : N → M) (text : S → T) :
    JsonTree N S → JsonTree M T :=
  convert number text fun members => sortByName (keepLast members)

theorem map_eq_iff_rel {read : JsonTree N S → JsonTree M T}
    {relation : JsonTree N S → JsonTree N S → Prop} {first second : Option (JsonTree N S)}
    (related : ∀ value ∈ first, ∀ other, read value = read other ↔ relation value other) :
    first.map read = second.map read ↔ Option.Rel relation first second := by
  cases first with
  | none =>
      cases second with
      | none => exact iff_of_true rfl .none
      | some other => exact iff_of_false (fun same => nomatch same) (fun rel => nomatch rel)
  | some value =>
      cases second with
      | none => exact iff_of_false (fun same => nomatch same) (fun rel => nomatch rel)
      | some other =>
          rw [Option.map_some, Option.map_some, Option.some.injEq, related value rfl other]
          constructor
          · exact .some
          · rintro ⟨rel⟩
            exact rel

theorem map_eq_iff_forall₂ {read : JsonTree N S → JsonTree M T}
    {relation : JsonTree N S → JsonTree N S → Prop} {items others : List (JsonTree N S)}
    (related : ∀ item ∈ items, ∀ other, read item = read other ↔ relation item other) :
    items.map read = others.map read ↔ List.Forall₂ relation items others := by
  induction items generalizing others with
  | nil =>
      cases others with
      | nil => exact iff_of_true rfl .nil
      | cons other others =>
          exact iff_of_false (fun same => nomatch same) (fun rel => nomatch rel)
  | cons item items ih =>
      cases others with
      | nil => exact iff_of_false (fun same => nomatch same) (fun rel => nomatch rel)
      | cons other others =>
          rw [List.map_cons, List.map_cons, List.cons.injEq, List.forall₂_cons,
            related item List.mem_cons_self other,
            ih fun next isNext => related next (List.mem_cons_of_mem _ isNext)]

/-- A value whose numbers and strings, names included, are all of some kind. -/
inductive All (number : N → Prop) (text : S → Prop) : JsonTree N S → Prop
  | null : All number text .null
  | bool (value : Bool) : All number text (.bool value)
  | num {value : N} (good : number value) : All number text (.num value)
  | str {value : S} (good : text value) : All number text (.str value)
  | arr {items : List (JsonTree N S)} (good : ∀ item ∈ items, All number text item) :
      All number text (.arr items)
  | obj {members : List (S × JsonTree N S)} (names : ∀ member ∈ members, text member.1)
      (good : ∀ member ∈ members, All number text member.2) : All number text (.obj members)

section Readers

variable {K L : Type} [DecidableEq T] [DecidableEq L] {otherNumber : N → K} {otherText : S → L}
  {good : N → Prop} {goodText : S → Prop}

theorem lastUnder_congr {α : Type} {name : T} {otherName : L} {members : List (S × α)}
    (same : ∀ member ∈ members, text member.1 = name ↔ otherText member.1 = otherName) :
    lastUnder text name members = lastUnder otherText otherName members := by
  induction members with
  | nil => rfl
  | cons member members ih =>
      rcases member with ⟨key, value⟩
      rw [lastUnder, lastUnder, ih fun next isNext => same next (List.mem_cons_of_mem _ isNext)]
      simp only [same (key, value) List.mem_cons_self]

/-- What agrees for one reader agrees for another that reads no more of such numbers and strings. -/
theorem Agree.of_all (numbers : ∀ first second, good first → good second →
      number first = number second → otherNumber first = otherNumber second)
    (texts : ∀ first second, goodText first → goodText second →
      (text first = text second ↔ otherText first = otherText second))
    {first second : JsonTree N S} (firstGood : All good goodText first)
    (secondGood : All good goodText second) (agree : Agree number text first second) :
    Agree otherNumber otherText first second := by
  induction first using induct generalizing second with
  | null =>
      cases agree
      exact .null
  | bool value =>
      cases agree
      exact .bool value
  | num value =>
      cases agree with
      | num same =>
          cases firstGood with
          | num isGood =>
              cases secondGood with
              | num otherGood => exact .num (numbers _ _ isGood otherGood same)
  | str value =>
      cases agree with
      | str same =>
          cases firstGood with
          | str isGood =>
              cases secondGood with
              | str otherGood => exact .str ((texts _ _ isGood otherGood).mp same)
  | arr items ih =>
      cases agree with
      | arr same =>
          cases firstGood with
          | arr areGood =>
              cases secondGood with
              | arr othersGood =>
                  refine .arr (List.forall₂_iff_get.mpr ?_)
                  rcases List.forall₂_iff_get.mp same with ⟨lengths, sames⟩
                  refine ⟨lengths, fun index inside otherInside => ?_⟩
                  exact ih _ (List.get_mem _ _) (areGood _ (List.get_mem _ _))
                    (othersGood _ (List.get_mem _ _)) (sames index inside otherInside)
  | obj members ih =>
      cases agree with
      | @obj _ others same =>
          cases firstGood with
          | obj names areGood =>
              cases secondGood with
              | obj otherNames othersGood =>
                  refine .obj fun otherName => ?_
                  by_cases hit : ∃ key, goodText key ∧ otherText key = otherName
                  · rcases hit with ⟨key, isGood, rfl⟩
                    rw [← lastUnder_congr fun member isMember =>
                        texts member.1 key (names member isMember) isGood,
                      ← lastUnder_congr fun member isMember =>
                        texts member.1 key (otherNames member isMember) isGood]
                    have agrees := same (text key)
                    cases isFirst : lastUnder text (text key) members with
                    | none =>
                        cases isSecond : lastUnder text (text key) others with
                        | none => exact .none
                        | some other =>
                            rw [isFirst, isSecond] at agrees
                            cases agrees
                    | some value =>
                        cases isSecond : lastUnder text (text key) others with
                        | none =>
                            rw [isFirst, isSecond] at agrees
                            cases agrees
                        | some other =>
                            rw [isFirst, isSecond] at agrees
                            rcases agrees with ⟨agree⟩
                            rcases mem_of_lastUnder isFirst with ⟨_, -, isMember⟩
                            rcases mem_of_lastUnder isSecond with ⟨_, -, isOther⟩
                            exact .some (ih _ isMember (areGood _ isMember)
                              (othersGood _ isOther) agree)
                  · have misses : ∀ {list : List (S × JsonTree N S)},
                        (∀ member ∈ list, goodText member.1) →
                          lastUnder otherText otherName list = none := by
                      intro list areNames
                      refine lastUnder_eq_none.mpr fun member isMember isName => hit ?_
                      exact ⟨member.1, areNames member isMember, isName⟩
                    rw [misses names, misses otherNames]
                    exact .none

/-- Two readers that tell the same numbers and strings apart tell the same values apart. -/
theorem agree_iff_of_all (numbers : ∀ first second, good first → good second →
      (number first = number second ↔ otherNumber first = otherNumber second))
    (texts : ∀ first second, goodText first → goodText second →
      (text first = text second ↔ otherText first = otherText second))
    {first second : JsonTree N S} (firstGood : All good goodText first)
    (secondGood : All good goodText second) :
    Agree number text first second ↔ Agree otherNumber otherText first second := by
  constructor
  · exact Agree.of_all (fun _ _ isGood otherGood => (numbers _ _ isGood otherGood).mp) texts
      firstGood secondGood
  · exact Agree.of_all (fun _ _ isGood otherGood => (numbers _ _ isGood otherGood).mpr)
      (fun _ _ isGood otherGood => (texts _ _ isGood otherGood).symm) firstGood secondGood

end Readers

section Read

variable [DecidableEq T] [LE T] [DecidableLE T]

theorem read_arr (items : List (JsonTree N S)) :
    read number text (.arr items) = .arr (items.map (read number text)) := by
  rw [read, convert, convertItems_eq]

theorem read_obj (members : List (S × JsonTree N S)) :
    read number text (.obj members) =
      .obj (sortByName (keepLast (members.map fun member =>
        (text member.1, read number text member.2)))) := by
  rw [read, convert, convertMembers_eq]

end Read

variable [DecidableEq T] [PartialOrder T] [DecidableLE T]
  [Std.Total fun left right : T => left ≤ right]

/-- A reader makes the same of two values exactly if they agree for it. -/
theorem read_eq_iff (first second : JsonTree N S) :
    read number text first = read number text second ↔ Agree number text first second := by
  induction first using induct generalizing second with
  | null =>
      cases second
      case null => exact iff_of_true rfl .null
      all_goals exact iff_of_false (fun same => nomatch same) (fun agree => nomatch agree)
  | bool value =>
      cases second
      case bool other =>
        constructor
        · intro same
          cases same
          exact .bool value
        · intro agree
          cases agree
          rfl
      all_goals exact iff_of_false (fun same => nomatch same) (fun agree => nomatch agree)
  | num value =>
      cases second
      case num other =>
        constructor
        · intro same
          exact .num (JsonTree.num.inj same)
        · rintro ⟨same⟩
          exact congrArg JsonTree.num ‹_›
      all_goals exact iff_of_false (fun same => nomatch same) (fun agree => nomatch agree)
  | str value =>
      cases second
      case str other =>
        constructor
        · intro same
          exact .str (JsonTree.str.inj same)
        · rintro ⟨same⟩
          exact congrArg JsonTree.str ‹_›
      all_goals exact iff_of_false (fun same => nomatch same) (fun agree => nomatch agree)
  | arr items ih =>
      cases second
      case arr others =>
        rw [read_arr, read_arr, JsonTree.arr.injEq, map_eq_iff_forall₂ ih]
        constructor
        · exact .arr
        · rintro ⟨same⟩
          assumption
      all_goals exact iff_of_false (fun same => nomatch same) (fun agree => nomatch agree)
  | obj members ih =>
      cases second
      case obj others =>
        have related : ∀ name, ∀ value ∈ lastUnder text name members, ∀ other,
            read number text value = read number text other ↔ Agree number text value other := by
          intro name value isLast
          rcases mem_of_lastUnder isLast with ⟨key, -, isMember⟩
          exact ih _ isMember
        rw [read_obj, read_obj, JsonTree.obj.injEq, keepLast_eq_iff]
        simp only [lastUnder_map]
        constructor
        · intro same
          exact .obj fun name => (map_eq_iff_rel (related name)).mp (same name)
        · intro agree name
          cases agree with
          | obj same => exact (map_eq_iff_rel (related name)).mpr (same name)
      all_goals exact iff_of_false (fun same => nomatch same) (fun agree => nomatch agree)

end Agree

/-! ## Writing -/

section Encode

open JsonText JsonNumber

/-- A Go string without bytes that belong to no rune. -/
def quote (text : List Char) : List Char := quoteText (text.map .rune)

mutual

/-- The compact text of a value. -/
def encode : JsonTree Double (List Char) → List Char
  | .null => ['n', 'u', 'l', 'l']
  | .bool true => ['t', 'r', 'u', 'e']
  | .bool false => ['f', 'a', 'l', 's', 'e']
  | .num number => number.text
  | .str text => quote text
  | .arr items => block '[' ']' (encodeItems items)
  | .obj members => block '\x7b' '\x7d' (encodeMembers members)

def encodeItems : List (JsonTree Double (List Char)) → List (List Char)
  | [] => []
  | item :: items => encode item :: encodeItems items

def encodeMembers : List (List Char × JsonTree Double (List Char)) → List (List Char)
  | [] => []
  | (name, value) :: members => (quote name ++ ':' :: encode value) :: encodeMembers members

end

def encodeMember (member : List Char × JsonTree Double (List Char)) : List Char :=
  quote member.1 ++ ':' :: encode member.2

theorem encodeItems_eq (items : List (JsonTree Double (List Char))) :
    encodeItems items = items.map encode := by
  induction items with
  | nil => rfl
  | cons item items ih => rw [encodeItems, ih, List.map_cons]

theorem encodeMembers_eq (members : List (List Char × JsonTree Double (List Char))) :
    encodeMembers members = members.map encodeMember := by
  induction members with
  | nil => rfl
  | cons member members ih =>
      rcases member with ⟨name, value⟩
      rw [encodeMembers, ih, List.map_cons, encodeMember]

/-- The kind of value that a character starts. -/
def kindOf (c : Char) : ℕ :=
  if c = 'n' then 0
  else if c = 't' ∨ c = 'f' then 1
  else if c = '-' ∨ c.isDigit = true then 2
  else if c = '"' then 3
  else if c = '[' then 4
  else if c = '\x7b' then 5
  else 6

def kind : JsonTree N S → ℕ
  | .null => 0
  | .bool _ => 1
  | .num _ => 2
  | .str _ => 3
  | .arr _ => 4
  | .obj _ => 5

theorem kindOf_number {c : Char} (isNumber : c = '-' ∨ c.isDigit = true) : kindOf c = 2 := by
  have others : c ≠ 'n' ∧ c ≠ 't' ∧ c ≠ 'f' := by
    refine ⟨?_, ?_, ?_⟩
    all_goals
      rintro rfl
      simp at isNumber
  simp [kindOf, others, isNumber]

/-- The first character of a text tells the kind of the value. -/
theorem encode_opens (value : JsonTree Double (List Char)) :
    ∃ c rest, encode value = c :: rest ∧ kindOf c = value.kind := by
  cases value with
  | null => exact ⟨'n', _, rfl, rfl⟩
  | bool value =>
      cases value
      · exact ⟨'f', _, rfl, rfl⟩
      · exact ⟨'t', _, rfl, rfl⟩
  | num number =>
      rcases number.text_opens with ⟨c, rest, opens, isNumber⟩
      exact ⟨c, rest, opens, kindOf_number isNumber⟩
  | str text => exact ⟨'"', _, rfl, rfl⟩
  | arr items =>
      rcases Encoding.block_opens '[' ']' (encodeItems items) with ⟨rest, opens⟩
      exact ⟨'[', rest, opens, rfl⟩
  | obj members =>
      rcases Encoding.block_opens '\x7b' '\x7d' (encodeMembers members) with ⟨rest, opens⟩
      exact ⟨'\x7b', rest, opens, rfl⟩

/-- A text of another kind is another text. -/
theorem kind_of_encode {value other : JsonTree Double (List Char)} {rest more : List Char}
    (same : encode value ++ rest = encode other ++ more) : value.kind = other.kind := by
  rcases encode_opens value with ⟨c, chars, opens, isKind⟩
  rcases encode_opens other with ⟨d, others, otherOpens, otherKind⟩
  rw [opens, otherOpens, List.cons_append, List.cons_append, List.cons.injEq] at same
  rw [← isKind, ← otherKind, same.1]

theorem number_delimits {first second : Double} {rest more : List Char} (ends : Ends rest)
    (moreEnds : Ends more) (same : first.text ++ rest = second.text ++ more) :
    first = second ∧ rest = more := by
  have taken : ∀ (number : Double) {rest : List Char}, Ends rest →
      (number.text ++ rest).takeWhile isNumberChar = number.text := by
    intro number rest ends
    rw [List.takeWhile_append_of_pos number.isNumberChar_text]
    cases rest with
    | nil => simp
    | cons c rest =>
        rcases ends c rfl with rfl | rfl | rfl
        all_goals simp [isNumberChar]
  have texts := congrArg (List.takeWhile isNumberChar) same
  rw [taken first ends, taken second moreEnds] at texts
  rw [texts] at same
  exact ⟨Double.text_inj texts, List.append_cancel_left same⟩

theorem quote_delimits {first second rest more : List Char}
    (same : quote first ++ rest = quote second ++ more) : first = second ∧ rest = more := by
  rcases quoteText_inj same with ⟨alike, rests⟩
  refine ⟨?_, rests⟩
  simp only [Alike, List.map_map] at alike
  exact List.map_injective_iff.mpr (fun _ _ => Option.some.inj) alike

/-- The text of a value tells the value and where it ends. -/
theorem encode_delimits (value other : JsonTree Double (List Char)) {rest more : List Char}
    (ends : Ends rest) (moreEnds : Ends more) (same : encode value ++ rest = encode other ++ more) :
    value = other ∧ rest = more := by
  induction value using induct generalizing other rest more with
  | null =>
      have kinds := kind_of_encode same
      cases other
      case null => exact ⟨rfl, List.append_cancel_left same⟩
      all_goals cases kinds
  | bool value =>
      have kinds := kind_of_encode same
      cases other
      case bool other =>
        cases value
        all_goals cases other
        all_goals simp [encode] at same
        all_goals exact ⟨rfl, same⟩
      all_goals cases kinds
  | num number =>
      have kinds := kind_of_encode same
      cases other
      case num other =>
        rcases number_delimits ends moreEnds same with ⟨numbers, rests⟩
        exact ⟨congrArg JsonTree.num numbers, rests⟩
      all_goals cases kinds
  | str text =>
      have kinds := kind_of_encode same
      cases other
      case str other =>
        rcases quote_delimits same with ⟨texts, rests⟩
        exact ⟨congrArg JsonTree.str texts, rests⟩
      all_goals cases kinds
  | arr items ih =>
      have kinds := kind_of_encode same
      cases other
      case arr others =>
        have opens : ∀ item : JsonTree Double (List Char),
            ∃ c rest, encode item = c :: rest ∧ c ≠ ']' := by
          intro item
          rcases encode_opens item with ⟨c, rest, opens, isKind⟩
          refine ⟨c, rest, opens, ?_⟩
          rintro rfl
          cases item
          all_goals cases isKind
        have are : Items ']' (· = ·) encode encode items others :=
          { closes := .inl rfl
            opens := fun item _ => opens item
            othersOpen := fun other _ => opens other
            delimits := fun item isThere other _ _ _ => ih item isThere other }
        rw [encode, encode, encodeItems_eq, encodeItems_eq] at same
        rcases block_inj are same with ⟨sames, rests⟩
        rw [List.forall₂_eq_eq_eq] at sames
        exact ⟨congrArg JsonTree.arr sames, rests⟩
      all_goals cases kinds
  | obj members ih =>
      have kinds := kind_of_encode same
      cases other
      case obj others =>
        have are : Items '\x7d' (· = ·) encodeMember encodeMember members others :=
          { closes := .inr rfl
            opens := fun member _ => ⟨'"', _, rfl, by decide⟩
            othersOpen := fun member _ => ⟨'"', _, rfl, by decide⟩
            delimits := by
              intro member isThere other _ rest more ends moreEnds same
              simp only [encodeMember, List.append_assoc, List.cons_append] at same
              rcases quote_delimits same with ⟨names, values⟩
              rcases ih member isThere other.2 ends moreEnds (List.cons.inj values).2 with
                ⟨isValue, rests⟩
              exact ⟨Prod.ext names isValue, rests⟩ }
        rw [encode, encode, encodeMembers_eq, encodeMembers_eq] at same
        rcases block_inj are same with ⟨sames, rests⟩
        rw [List.forall₂_eq_eq_eq] at sames
        exact ⟨congrArg JsonTree.obj sames, rests⟩
      all_goals cases kinds

theorem encode_inj {value other : JsonTree Double (List Char)} :
    encode value = encode other ↔ value = other := by
  constructor
  · intro same
    have ends : Ends [] := by simp [Ends]
    exact (encode_delimits value other ends ends (congrArg (· ++ []) same)).1
  · rintro rfl
    rfl

end Encode

end JsonTree

end Aa.Library
