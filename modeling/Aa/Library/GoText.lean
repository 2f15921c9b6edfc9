import Mathlib.Data.List.Sort
import Mathlib.Data.List.AList
import Mathlib.Data.String.Basic

/-!
# Text and map primitives of Go

The string functions and maps of Go's standard library that the modelled services
call. Strings compare as Go compares them: code point order agrees with the byte
order of UTF-8. A Go map is a list of entries without duplicate keys, so that it
can be enumerated; a reader that ranges over one sorts what it collects.
-/

namespace Aa.Library

/-- A Go map. -/
abbrev GoMap (Key Value : Type*) := AList (fun _ : Key => Value)

namespace Go

/-- `unicode.IsSpace`. -/
def isSpace (c : Char) : Bool :=
  (0x09 ≤ c.val && c.val ≤ 0x0d) || c.val == 0x20 || c.val == 0x85 || c.val == 0xa0 ||
    c.val == 0x1680 || (0x2000 ≤ c.val && c.val ≤ 0x200a) || c.val == 0x2028 ||
    c.val == 0x2029 || c.val == 0x202f || c.val == 0x205f || c.val == 0x3000

/-- `strings.TrimSpace`. -/
def trimSpace (text : String) : String :=
  String.ofList (((text.toList.dropWhile isSpace).reverse.dropWhile isSpace).reverse)

theorem trimSpace_of_solid {text : String} (solid : ∀ c ∈ text.toList, isSpace c = false) :
    trimSpace text = text := by
  have untouched (chars : List Char) (areSolid : ∀ c ∈ chars, isSpace c = false) :
      chars.dropWhile isSpace = chars := by
    cases chars with
    | nil => rfl
    | cons c rest => simp [List.dropWhile, areSolid c (by simp)]
  rw [trimSpace, untouched _ solid, untouched, List.reverse_reverse, String.ofList_toList]
  intro c isThere
  exact solid c (List.mem_reverse.mp isThere)

/-- `strings.Join`. -/
def join (separator : String) : List String → String
  | [] => ""
  | [part] => part
  | part :: next :: rest => part ++ separator ++ join separator (next :: rest)

theorem append_cons_inj {α : Type*} {separator : α} {left right leftRest rightRest : List α}
    (notLeft : separator ∉ left) (notRight : separator ∉ right)
    (same : left ++ separator :: leftRest = right ++ separator :: rightRest) :
    left = right ∧ leftRest = rightRest := by
  induction left generalizing right with
  | nil =>
      cases right with
      | nil => exact ⟨rfl, (List.cons.inj same).2⟩
      | cons d right => exact absurd (List.cons.inj same).1 (fun isHead => notRight (by simp [isHead]))
  | cons c left ih =>
      cases right with
      | nil => exact absurd (List.cons.inj same).1 (fun isHead => notLeft (by simp [isHead]))
      | cons d right =>
          rcases List.cons.inj same with ⟨rfl, rest⟩
          rcases ih (fun isThere => notLeft (by simp [isThere]))
            (fun isThere => notRight (by simp [isThere])) rest with ⟨rfl, rfl⟩
          exact ⟨rfl, rfl⟩

/-- What precedes the first separator determines the text on either side of it. -/
theorem append_separator_inj {separator : Char} {left right leftRest rightRest : String}
    (notLeft : separator ∉ left.toList) (notRight : separator ∉ right.toList)
    (same : left ++ String.ofList [separator] ++ leftRest =
      right ++ String.ofList [separator] ++ rightRest) : left = right ∧ leftRest = rightRest := by
  have chars := congrArg String.toList same
  simp only [String.toList_append, String.toList_ofList, List.append_assoc, List.cons_append,
    List.nil_append] at chars
  rcases append_cons_inj notLeft notRight chars with ⟨lefts, rights⟩
  exact ⟨String.toList_inj.mp lefts, String.toList_inj.mp rights⟩

/-- `sort.Strings`. -/
def sortStrings (values : List String) : List String :=
  values.insertionSort (· ≤ ·)

theorem sortStrings_perm (values : List String) : (sortStrings values).Perm values :=
  List.perm_insertionSort _ values

/-- The sorted list depends on what it is sorted from only up to order. -/
theorem sortStrings_congr {first second : List String} (perm : first.Perm second) :
    sortStrings first = sortStrings second :=
  List.Perm.eq_of_pairwise (fun _ _ _ _ => le_antisymm) (List.pairwise_insertionSort _ first)
    (List.pairwise_insertionSort _ second)
    ((sortStrings_perm first).trans (perm.trans (sortStrings_perm second).symm))

/-- The escape Go's `%q` writes for a character; printable characters stand for themselves. -/
def quoteChar (c : Char) : List Char :=
  if c = '"' then ['\\', '"']
  else if c = '\\' then ['\\', '\\']
  else if c = '\n' then ['\\', 'n']
  else if c = '\t' then ['\\', 't']
  else if c = '\r' then ['\\', 'r']
  else [c]

/-- `strconv.Quote`, the `%q` verb. -/
def quote (text : String) : String :=
  String.ofList ('"' :: text.toList.flatMap quoteChar ++ ['"'])

/-- `strconv.Itoa`, the `%d` verb. -/
def itoa (value : ℤ) : String := toString value

end Go

end Aa.Library
