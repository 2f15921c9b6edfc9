import Mathlib.Data.List.Basic

/-!
# Python text

The string operations of Python that the models use, on lists of characters. Python
classifies and lowercases characters by the Unicode database; `PyUnicode` is such a
database, fixed on the ASCII characters and arbitrary on the others.

A `Glyph` is something that shows a character. Text operations written over glyphs
run on plain characters and, unchanged, on characters that carry extra data such as
the place they come from.
-/

namespace Aa.Library

/-- A Unicode database: what `str.isalnum`, `str.isdecimal` and `str.lower` say of
one character. -/
structure PyUnicode where
  isAlnum : Char → Bool
  isDecimal : Char → Bool
  lower : Char → List Char
  isAlnum_ascii : ∀ c : Char, c.toNat < 128 → isAlnum c = c.isAlphanum
  isDecimal_ascii : ∀ c : Char, c.toNat < 128 → isDecimal c = c.isDigit
  lower_ascii : ∀ c : Char, c.toNat < 128 → lower c = [c.toLower]

namespace PyUnicode

/-- The database that knows only the ASCII characters. -/
def ascii : PyUnicode where
  isAlnum c := c.isAlphanum
  isDecimal c := c.isDigit
  lower c := [c.toLower]
  isAlnum_ascii _ _ := rfl
  isDecimal_ascii _ _ := rfl
  lower_ascii _ _ := rfl

/-- A character of a word, as `\w` matches it. -/
def isWord (unicode : PyUnicode) (c : Char) : Bool :=
  unicode.isAlnum c || c == '_'

/-- `text.lower()`. -/
def lowered (unicode : PyUnicode) (text : String) : String :=
  String.ofList (text.toList.flatMap unicode.lower)

end PyUnicode

namespace Py

/-- The code points that `str.isspace` and `\s` accept outside ASCII. -/
def wideSpaces : List Nat :=
  [0x85, 0xA0, 0x1680, 0x2000, 0x2001, 0x2002, 0x2003, 0x2004, 0x2005, 0x2006, 0x2007, 0x2008,
    0x2009, 0x200A, 0x2028, 0x2029, 0x202F, 0x205F, 0x3000]

def isSpace (c : Char) : Bool :=
  c == ' ' || (9 ≤ c.toNat && c.toNat ≤ 13) || (28 ≤ c.toNat && c.toNat ≤ 31) ||
    wideSpaces.contains c.toNat

/-- Whether `needle` occurs in the text: `needle in text`. -/
def occurs (needle : List Char) : List Char → Bool
  | [] => needle.isEmpty
  | c :: rest => needle.isPrefixOf (c :: rest) || occurs needle rest

def contains (text needle : String) : Bool :=
  occurs needle.toList text.toList

/-- `separator.join(parts)`. -/
def join (separator : String) : List String → String
  | [] => ""
  | [part] => part
  | part :: next :: rest => part ++ separator ++ join separator (next :: rest)

/-- Every part stands in the joined text. -/
theorem infix_join (separator : String) {item : String} {items : List String}
    (isItem : item ∈ items) :
    item.toList <:+: (join separator items).toList := by
  induction items with
  | nil => cases isItem
  | cons first rest ih =>
      cases rest with
      | nil =>
          rw [List.mem_singleton.mp isItem]
          exact List.infix_rfl
      | cons next rest =>
          rw [join, String.toList_append, String.toList_append]
          rcases List.mem_cons.mp isItem with rfl | isLater
          · rw [List.append_assoc]
            exact (List.prefix_append _ _).isInfix
          · exact (ih isLater).trans (List.suffix_append _ _).isInfix

theorem length_ofList {text : List Char} {bound : ℕ} (isShort : text.length ≤ bound) :
    (String.ofList text).toList.length ≤ bound := by
  rwa [String.toList_ofList]

theorem length_append_le {first second : String} {firstBound secondBound : ℕ}
    (isFirst : first.toList.length ≤ firstBound) (isSecond : second.toList.length ≤ secondBound) :
    (first ++ second).toList.length ≤ firstBound + secondBound := by
  rw [String.toList_append, List.length_append]
  exact Nat.add_le_add isFirst isSecond

theorem ofList_ne_empty {first : Char} {rest : List Char} :
    String.ofList (first :: rest) ≠ "" := by
  intro isEmpty
  have isNil := congrArg String.toList isEmpty
  rw [String.toList_ofList] at isNil
  cases isNil

/-- `text[:count]`. -/
def takeText (text : String) (count : Nat) : String :=
  String.ofList (text.toList.take count)

/-- `text.endswith(suffix)`. -/
def endsWith (text suffix : String) : Bool :=
  suffix.toList.isSuffixOf text.toList

/-- `items[-count:]`: the whole list when `count` is 0. -/
def lastItems {α : Type} (count : Nat) (items : List α) : List α :=
  if count = 0 then items else items.drop (items.length - count)

/-- `items[:-count]`: nothing when `count` is 0. -/
def allButLast {α : Type} (count : Nat) (items : List α) : List α :=
  if count = 0 then [] else items.take (items.length - count)

theorem lastItems_map {α β : Type} (f : α → β) (count : Nat) (items : List α) :
    (lastItems count items).map f = lastItems count (items.map f) := by
  unfold lastItems
  split
  · rfl
  · rw [List.map_drop, List.length_map]

theorem allButLast_map {α β : Type} (f : α → β) (count : Nat) (items : List α) :
    (allButLast count items).map f = allButLast count (items.map f) := by
  unfold allButLast
  split
  · rfl
  · rw [List.map_take, List.length_map]

end Py

/-- Something that shows a character, and the way to show a given one. -/
class Glyph (α : Type) where
  char : α → Char
  literal : Char → α
  char_literal : ∀ c, char (literal c) = c

namespace Glyph

instance : Glyph Char where
  char c := c
  literal c := c
  char_literal _ := rfl

variable {α : Type} [Glyph α]

/-- A text written by the program itself. -/
def ofString (text : String) : List α :=
  text.toList.map literal

def chars (text : List α) : List Char :=
  text.map char

@[simp]
theorem char_char (c : Char) : char c = c := rfl

@[simp]
theorem chars_char (text : List Char) : chars text = text := by
  rw [chars]
  exact List.map_id text

@[simp]
theorem chars_nil : chars ([] : List α) = [] := rfl

@[simp]
theorem chars_cons (glyph : α) (text : List α) :
    chars (glyph :: text) = char glyph :: chars text := rfl

@[simp]
theorem chars_append (first second : List α) :
    chars (first ++ second) = chars first ++ chars second :=
  List.map_append

@[simp]
theorem length_chars (text : List α) : (chars text).length = text.length :=
  List.length_map char

@[simp]
theorem chars_ofString (text : String) : chars (ofString text : List α) = text.toList := by
  simp [chars, ofString, Function.comp_def, char_literal]

/-- The text without the blanks at its two ends: `text.strip()`. -/
def strip (text : List α) : List α :=
  ((text.dropWhile (fun glyph => Py.isSpace (char glyph))).reverse.dropWhile
    (fun glyph => Py.isSpace (char glyph))).reverse

/-- `text.replace(old, new)` for two characters. -/
def replaceChar (old new : Char) (text : List α) : List α :=
  text.map fun glyph => if char glyph = old then literal new else glyph

theorem chars_dropWhile (blank : Char → Bool) (text : List α) :
    chars (text.dropWhile fun glyph => blank (char glyph)) = (chars text).dropWhile blank := by
  induction text with
  | nil => rfl
  | cons glyph rest ih =>
      simp only [chars_cons, List.dropWhile_cons]
      split
      · exact ih
      · rfl

theorem chars_reverse (text : List α) : chars text.reverse = (chars text).reverse :=
  List.map_reverse

theorem chars_strip (text : List α) : chars (strip text) = strip (chars text) := by
  simp only [strip, chars_reverse, chars_dropWhile Py.isSpace, char_char]

theorem chars_replaceChar (old new : Char) (text : List α) :
    chars (replaceChar old new text) = replaceChar old new (chars text) := by
  simp only [chars, replaceChar, List.map_map]
  refine List.map_congr_left fun glyph _ => ?_
  simp only [Function.comp_apply]
  split
  · rename_i isOld
    simp [char_literal, isOld, literal]
  · rename_i isOther
    simp [isOther]

end Glyph

end Aa.Library
