import Mathlib.Data.List.TakeWhile
import Aa.Library.PyText

/-!
# Python text in upper case

`str.upper` over a Unicode database that also knows the upper case of a character, and what
`str.strip` leaves of a text with blanks around it.
-/

namespace Aa.Library

/-- A Unicode database with what `str.upper` says of one character. -/
structure PyCasing extends PyUnicode where
  upper : Char → List Char
  upper_ascii : ∀ c : Char, c.toNat < 128 → upper c = [c.toUpper]

/-- An ASCII text is lowercased character by character. -/
theorem PyUnicode.lowered_of_ascii (unicode : PyUnicode) {text result : String}
    (isAscii : text.toList.all (fun c => decide (c.toNat < 128)) = true)
    (isResult : String.ofList (text.toList.map Char.toLower) = result) :
    unicode.lowered text = result := by
  have lowered (c : Char) (isThere : c ∈ text.toList) : unicode.lower c = [c.toLower] :=
    unicode.lower_ascii c (of_decide_eq_true (List.all_eq_true.mp isAscii c isThere))
  rw [PyUnicode.lowered, List.flatMap_congr lowered, ← List.map_eq_flatMap, isResult]

namespace PyCasing

/-- The database that knows only the ASCII characters. -/
def ascii : PyCasing where
  toPyUnicode := .ascii
  upper c := [c.toUpper]
  upper_ascii _ _ := rfl

/-- `text.upper()`. -/
def uppered (casing : PyCasing) (text : String) : String :=
  String.ofList (text.toList.flatMap casing.upper)

end PyCasing

namespace Py

/-- `text.strip()`. -/
def strip (text : String) : String := String.ofList (Glyph.strip text.toList)

/-- A text of blanks. -/
def Blank (text : String) : Prop := ∀ c ∈ text.toList, isSpace c = true

/-- `text.startswith(start)`. -/
def startsWith (text start : String) : Bool := start.toList.isPrefixOf text.toList

/-- `text.split(separator)` for one character. -/
def splitOn (separator : Char) (text : String) : List String :=
  (text.toList.splitOn separator).map String.ofList

/-- `text.split(separator, 1)[1]` for one character. -/
def afterFirst (separator : Char) (text : String) : String :=
  String.ofList (text.toList.dropWhile (· != separator)).tail

theorem dropWhile_blank_append {blank text : List Char} (isBlank : ∀ c ∈ blank, isSpace c = true) :
    (blank ++ text).dropWhile (fun c => isSpace (Glyph.char c)) =
      text.dropWhile fun c => isSpace (Glyph.char c) := by
  induction blank with
  | nil => rfl
  | cons c rest ih =>
      have isSpaceC := isBlank c List.mem_cons_self
      rw [List.cons_append, List.dropWhile_cons_of_pos (by simpa using isSpaceC),
        ih fun d isThere => isBlank d (List.mem_cons_of_mem c isThere)]

theorem strip_append_blank {text blank : List Char} (isBlank : ∀ c ∈ blank, isSpace c = true) :
    Glyph.strip (text ++ blank) = Glyph.strip text := by
  have reversed : ∀ c ∈ blank.reverse, isSpace c = true := fun c isThere =>
    isBlank c (List.mem_reverse.mp isThere)
  have dropped : (text ++ blank).dropWhile (fun c => isSpace (Glyph.char c)) =
      if (text.dropWhile fun c => isSpace (Glyph.char c)).isEmpty then
        blank.dropWhile fun c => isSpace (Glyph.char c)
      else (text.dropWhile fun c => isSpace (Glyph.char c)) ++ blank := List.dropWhile_append
  rw [Glyph.strip, dropped, Glyph.strip]
  split
  · rename_i isEmpty
    have allBlank : blank.dropWhile (fun c => isSpace (Glyph.char c)) = [] :=
      List.dropWhile_eq_nil_iff.mpr fun c isThere => by simpa using isBlank c isThere
    rw [allBlank, List.isEmpty_iff.mp isEmpty]
  · rw [List.reverse_append, dropWhile_blank_append reversed]

/-- Blanks around a text are stripped with those it has. -/
theorem strip_surrounded {before text after : String} (isBefore : Blank before)
    (isAfter : Blank after) : strip (before ++ text ++ after) = strip text := by
  rw [strip, String.toList_append, strip_append_blank isAfter, String.toList_append, Glyph.strip,
    dropWhile_blank_append isBefore]
  rfl

end Py

end Aa.Library
