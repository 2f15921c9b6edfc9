import Mathlib.Data.List.Basic
import Mathlib.Data.String.Basic

/-!
# RFC 3339 timestamps as Go reads them

`time.Parse(time.RFC3339, value)`, with the leniencies of that function: an hour
may have one digit, a fraction of any length after a period or a comma may follow
the seconds, and an offset hour of 24 and an offset minute of 60 are in range.
-/

namespace Aa.Library.GoTime

/-- The two-digit number at the head, or a one-digit one unless `fixed`. -/
def getnum (fixed : Bool) : List Char → Option (ℕ × List Char)
  | first :: second :: rest =>
      if !first.isDigit then none
      else if second.isDigit then
        some ((first.toNat - 48) * 10 + (second.toNat - 48), rest)
      else if fixed then none
      else some (first.toNat - 48, second :: rest)
  | [first] => if first.isDigit && !fixed then some (first.toNat - 48, []) else none
  | [] => none

def skip (expected : Char) : List Char → Option (List Char)
  | first :: rest => if first = expected then some rest else none
  | [] => none

def year : List Char → Option (ℕ × List Char)
  | a :: b :: c :: d :: rest =>
      if a.isDigit && b.isDigit && c.isDigit && d.isDigit then
        some ((a.toNat - 48) * 1000 + (b.toNat - 48) * 100 + (c.toNat - 48) * 10
          + (d.toNat - 48), rest)
      else none
  | _ => none

/-- The text after a fraction of a second, when there is one. -/
def dropFraction : List Char → List Char
  | point :: digit :: rest =>
      if (point = '.' ∨ point = ',') ∧ digit.isDigit then rest.dropWhile Char.isDigit
      else point :: digit :: rest
  | text => text

/-- A zone: `Z`, or a signed offset. -/
def zone : List Char → Option (List Char)
  | 'Z' :: rest => some rest
  | sign :: h1 :: h2 :: ':' :: m1 :: m2 :: rest => do
      let (hour, _) ← getnum true [h1, h2]
      let (minute, _) ← getnum true [m1, m2]
      if hour ≤ 24 ∧ minute ≤ 60 ∧ (sign = '+' ∨ sign = '-') then some rest else none
  | _ => none

def isLeap (year : ℕ) : Bool :=
  year % 4 == 0 && (year % 100 != 0 || year % 400 == 0)

def daysIn (month year : ℕ) : ℕ :=
  if month = 2 then (if isLeap year then 29 else 28)
  else if month = 4 ∨ month = 6 ∨ month = 9 ∨ month = 11 then 30
  else 31

/-- Whether `time.Parse(time.RFC3339, value)` succeeds. -/
def parsesRFC3339 (value : String) : Bool :=
  (do
    let (year, text) ← year value.toList
    let text ← skip '-' text
    let (month, text) ← getnum true text
    let text ← skip '-' text
    let (day, text) ← getnum true text
    let text ← skip 'T' text
    let (hour, text) ← getnum false text
    let text ← skip ':' text
    let (minute, text) ← getnum true text
    let text ← skip ':' text
    let (second, text) ← getnum true text
    let text ← zone (dropFraction text)
    guard (1 ≤ month ∧ month ≤ 12 ∧ 1 ≤ day ∧ day ≤ daysIn month year)
    guard (hour < 24 ∧ minute < 60 ∧ second < 60 ∧ text = [])).isSome

/-- Whether `Time.UnmarshalJSON` accepts the text: what `time.Parse` accepts, without its
leniencies. -/
def parsesStrictRFC3339 (value : String) : Bool :=
  let text := value.toList
  parsesRFC3339 value && text[12]? != some ':' && text[19]? != some ',' &&
    (text.getLast? == some 'Z' ||
      match text.drop (text.length - 5) with
      | [h1, h2, _, m1, m2] =>
          (getnum true [h1, h2]).any (·.1 < 24) && (getnum true [m1, m2]).any (·.1 < 60)
      | _ => false)

end Aa.Library.GoTime
