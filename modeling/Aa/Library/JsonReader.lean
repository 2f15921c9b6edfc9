import Mathlib.Data.Nat.Digits.Defs
import Aa.Library.JsonTree

/-!
# Reading JSON texts

What `json.Unmarshal` accepts as a document: tokens, one part of the text after the other, and
then nested values on a stack. Numbers are kept as they are written, and so are the units of
strings that stand for no rune.
-/

namespace Aa.Library.JsonReader

open JsonText JsonNumber

/-- A unit of a string: a rune, an escaped surrogate without its other half, or a byte that
belongs to no rune. -/
inductive Piece where
  | rune (value : Char)
  | surrogate (code : ℕ)
  | invalid (byte : UInt8)
deriving DecidableEq

/-- The rune that a Go string holds for a unit. -/
def Piece.read : Piece → Char
  | .rune value => value
  | .surrogate _ => Char.ofNat 0xfffd
  | .invalid _ => Char.ofNat 0xfffd

/-- A number literal within the range of doubles. -/
structure Number where
  literal : Literal
  double : Double
  isNearest : parseFloat literal = some double

def Number.value (number : Number) : ℚ := number.literal.value

/-- A document as it is written. -/
abbrev Document := JsonTree Number (List Piece)

/-! ## Tokens -/

inductive Token where
  | openArray
  | closeArray
  | openObject
  | closeObject
  | colon
  | comma
  | scalar (value : Document)
  | text (pieces : List Piece)

def invalidCharacter : String := "invalid character"

def unexpectedEnd : String := "unexpected end of JSON input"

def wordToken (word : List Char) : Except String Token :=
  if word = ['n', 'u', 'l', 'l'] then .ok (.scalar .null)
  else if word = ['t', 'r', 'u', 'e'] then .ok (.scalar (.bool true))
  else if word = ['f', 'a', 'l', 's', 'e'] then .ok (.scalar (.bool false))
  else .error invalidCharacter

def numberToken (number : List Char) : Except String Token :=
  match readNumber number with
  | none => .error invalidCharacter
  | some literal =>
      match isNearest : parseFloat literal with
      | none => .error "cannot unmarshal number into Go value of type float64"
      | some double => .ok (.scalar (.num ⟨literal, double, isNearest⟩))

/-- Where the reader stands, with what it has read of the token, last character first. -/
inductive Mode where
  | between
  | word (read : List Char)
  | number (read : List Char)
  | text (read : List Piece)
  | escape (read : List Piece)
  | unicode (read : List Piece) (digits : List ℕ)

def isSpace (c : Char) : Bool := c = ' ' ∨ c = '\t' ∨ c = '\r' ∨ c = '\n'

def hexDigitValue (c : Char) : Option ℕ :=
  if '0' ≤ c ∧ c ≤ '9' then some (c.toNat - '0'.toNat)
  else if 'a' ≤ c ∧ c ≤ 'f' then some (c.toNat - 'a'.toNat + 10)
  else if 'A' ≤ c ∧ c ≤ 'F' then some (c.toNat - 'A'.toNat + 10)
  else none

def pieceOf (code : ℕ) : Piece :=
  if 0xd800 ≤ code ∧ code < 0xe000 then .surrogate code else .rune (Char.ofNat code)

/-- A code unit after the units before it. The second half of a surrogate pair completes it. -/
def pushUnit (code : ℕ) : List Piece → List Piece
  | .surrogate high :: rest =>
      if high < 0xdc00 ∧ 0xdc00 ≤ code ∧ code < 0xe000 then
        .rune (Char.ofNat (0x10000 + (high - 0xd800) * 0x400 + (code - 0xdc00))) :: rest
      else pieceOf code :: .surrogate high :: rest
  | read => pieceOf code :: read

/-- The character an escape of one letter stands for. -/
def simpleEscape (c : Char) : Option Char :=
  if c = '"' ∨ c = '\\' ∨ c = '/' then some c
  else if c = 'b' then some '\x08'
  else if c = 'f' then some '\x0c'
  else if c = 'n' then some '\n'
  else if c = 'r' then some '\r'
  else if c = 't' then some '\t'
  else none

def startToken (c : Char) : Except String (List Token × Mode) :=
  if isSpace c then .ok ([], .between)
  else if c = '[' then .ok ([.openArray], .between)
  else if c = ']' then .ok ([.closeArray], .between)
  else if c = '\x7b' then .ok ([.openObject], .between)
  else if c = '\x7d' then .ok ([.closeObject], .between)
  else if c = ':' then .ok ([.colon], .between)
  else if c = ',' then .ok ([.comma], .between)
  else if c = '"' then .ok ([], .text [])
  else if c = '-' ∨ c.isDigit then .ok ([], .number [c])
  else if c.isLower then .ok ([], .word [c])
  else .error invalidCharacter

/-- What a reader does outside of strings, where every character starts or continues a token. -/
def stepOutside (c : Char) : Mode → Except String (List Token × Mode)
  | .word read =>
      if c.isLower then .ok ([], .word (c :: read))
      else do
        let token ← wordToken read.reverse
        let (tokens, mode) ← startToken c
        return (token :: tokens, mode)
  | .number read =>
      if isNumberChar c ∨ c = 'E' then .ok ([], .number (c :: read))
      else do
        let token ← numberToken read.reverse
        let (tokens, mode) ← startToken c
        return (token :: tokens, mode)
  | _ => startToken c

def step : Mode → Part → Except String (List Token × Mode)
  | .text read, .rune c =>
      if c = '"' then .ok ([.text read.reverse], .between)
      else if c = '\\' then .ok ([], .escape read)
      else if c.toNat < 0x20 then .error invalidCharacter
      else .ok ([], .text (.rune c :: read))
  | .text read, .invalid byte => .ok ([], .text (.invalid byte :: read))
  | .escape read, .rune c =>
      if c = 'u' then .ok ([], .unicode read [])
      else
        match simpleEscape c with
        | none => .error invalidCharacter
        | some value => .ok ([], .text (.rune value :: read))
  | .unicode read digits, .rune c =>
      match hexDigitValue c with
      | none => .error invalidCharacter
      | some digit =>
          if digits.length = 3 then
            .ok ([], .text (pushUnit (Nat.ofDigits 16 (digit :: digits)) read))
          else .ok ([], .unicode read (digit :: digits))
  | mode, .rune c => stepOutside c mode
  | _, .invalid _ => .error invalidCharacter

def finish : Mode → Except String (List Token)
  | .between => .ok []
  | .word read => (wordToken read.reverse).map fun token => [token]
  | .number read => (numberToken read.reverse).map fun token => [token]
  | _ => .error unexpectedEnd

def tokens : Mode → Text → Except String (List Token)
  | mode, [] => finish mode
  | mode, part :: rest => do
      let (found, mode) ← step mode part
      let others ← tokens mode rest
      return found ++ others

/-! ## Nested values -/

/-- `maxNestingDepth`. -/
def maxNestingDepth : ℕ := 10000

/-- An array or object that is not closed yet, with what it holds so far, last first. -/
inductive Frame where
  | array (items : List Document)
  | object (members : List (List Piece × Document)) (name : List Piece)

/-- What a token is read as: a value, the first item or member of what was opened, the name of a
member, the colon after it, or what follows a value. -/
inductive Expect where
  | value
  | item
  | member
  | name (members : List (List Piece × Document))
  | colon (members : List (List Piece × Document)) (name : List Piece)
  | after (value : Document)

/-- The first token of a value. -/
def startValue (stack : List Frame) : Token → Except String (List Frame × Expect)
  | .scalar value => .ok (stack, .after value)
  | .text pieces => .ok (stack, .after (.str pieces))
  | .openArray =>
      if stack.length < maxNestingDepth then .ok (.array [] :: stack, .item)
      else .error "exceeded max depth"
  | .openObject =>
      if stack.length < maxNestingDepth then .ok (stack, .member)
      else .error "exceeded max depth"
  | _ => .error invalidCharacter

def place : List Frame × Expect → Token → Except String (List Frame × Expect)
  | (stack, .value), token => startValue stack token
  | (.array items :: outer, .item), .closeArray => .ok (outer, .after (.arr items.reverse))
  | (stack, .item), token => startValue stack token
  | (stack, .member), .closeObject => .ok (stack, .after (.obj []))
  | (stack, .member), .text name => .ok (stack, .colon [] name)
  | (stack, .name members), .text name => .ok (stack, .colon members name)
  | (stack, .colon members name), .colon => .ok (.object members name :: stack, .value)
  | (.array items :: outer, .after value), .comma =>
      .ok (.array (value :: items) :: outer, .value)
  | (.array items :: outer, .after value), .closeArray =>
      .ok (outer, .after (.arr (value :: items).reverse))
  | (.object members name :: outer, .after value), .comma =>
      .ok (outer, .name ((name, value) :: members))
  | (.object members name :: outer, .after value), .closeObject =>
      .ok (outer, .after (.obj ((name, value) :: members).reverse))
  | _, _ => .error invalidCharacter

def build : List Frame × Expect → List Token → Except String Document
  | ([], .after value), [] => .ok value
  | _, [] => .error unexpectedEnd
  | state, token :: rest => do
      let state ← place state token
      build state rest

/-- Reads a text that is one document. -/
def parse (text : Text) : Except String Document := do
  let found ← tokens .between text
  build ([], .value) found

/-! ## What is told apart -/

/-- The value that Go holds for a document. -/
def goValue : Document → JsonTree Double (List Char) :=
  JsonTree.read Number.double (List.map Piece.read)

/-- Documents that stand for one value: numbers compared exactly, objects by the last member of
each name, in any order. -/
def SameValue : Document → Document → Prop := JsonTree.Agree Number.value id

/-- Documents that read as one value: numbers by the nearest double, strings by their runes, and
objects by the last member of each name that is read. -/
def ReadAlike : Document → Document → Prop := JsonTree.Agree Number.double (List.map Piece.read)

theorem goValue_eq_iff {first second : Document} :
    goValue first = goValue second ↔ ReadAlike first second :=
  JsonTree.read_eq_iff first second

/-- The number that a document is, if it is one. -/
def exactNumber : Document → Option ℚ
  | .num number => some number.value
  | _ => none

theorem SameValue.exactNumber_eq {first second : Document} (same : SameValue first second) :
    exactNumber first = exactNumber second := by
  cases same with
  | num numbers => exact congrArg some numbers
  | _ => rfl

/-- A number that is a double, and not a negative zero. -/
def Number.Exact (number : Number) : Prop :=
  number.literal.magnitude = number.double.magnitude ∧
    (number.double.magnitude = 0 → number.double.negative = false)

/-- A document whose numbers are doubles and whose strings hold runes only. -/
def Exact : Document → Prop :=
  JsonTree.All Number.Exact fun pieces => ∀ piece ∈ pieces, ∃ value, piece = .rune value

theorem Number.value_eq {number : Number} (exact : number.Exact) :
    number.value =
      if number.double.negative then -number.double.magnitude else number.double.magnitude := by
  rw [value, Literal.value, exact.1, (parseFloat_eq_some.mp number.isNearest).1]

theorem Number.double_eq_iff {first second : Number} (firstExact : first.Exact)
    (secondExact : second.Exact) : first.double = second.double ↔ first.value = second.value := by
  rw [value_eq firstExact, value_eq secondExact]
  constructor
  · intro same
    rw [same]
  · intro same
    have firstNonneg := first.double.nonneg
    have secondNonneg := second.double.nonneg
    cases isFirst : first.double.negative
    all_goals cases isSecond : second.double.negative
    all_goals simp only [isFirst, isSecond, if_true, if_false, Bool.false_eq_true] at same
    · exact Double.eq_of (isFirst.trans isSecond.symm) same
    · have isZero : second.double.magnitude = 0 := by linarith
      exact absurd (secondExact.2 isZero) (by simp [isSecond])
    · have isZero : first.double.magnitude = 0 := by linarith
      exact absurd (firstExact.2 isZero) (by simp [isFirst])
    · exact Double.eq_of (isFirst.trans isSecond.symm) (neg_inj.mp same)

theorem pieces_eq_iff {first second : List Piece}
    (firstRunes : ∀ piece ∈ first, ∃ value, piece = .rune value)
    (secondRunes : ∀ piece ∈ second, ∃ value, piece = .rune value) :
    first.map Piece.read = second.map Piece.read ↔ first = second := by
  induction first generalizing second with
  | nil => simp [eq_comm]
  | cons piece pieces ih =>
      cases second with
      | nil => simp
      | cons other others =>
          rcases firstRunes piece List.mem_cons_self with ⟨value, rfl⟩
          rcases secondRunes other List.mem_cons_self with ⟨otherValue, rfl⟩
          rw [List.map_cons, List.map_cons, List.cons.injEq, List.cons.injEq,
            ih (fun next isNext => firstRunes next (List.mem_cons_of_mem _ isNext))
              (fun next isNext => secondRunes next (List.mem_cons_of_mem _ isNext)),
            Piece.rune.injEq]
          rfl

/-- Of exact documents, those that read alike are those of one value. -/
theorem readAlike_iff_sameValue {first second : Document} (firstExact : Exact first)
    (secondExact : Exact second) : ReadAlike first second ↔ SameValue first second :=
  JsonTree.agree_iff_of_all (fun _ _ => Number.double_eq_iff)
    (fun _ _ firstRunes secondRunes => pieces_eq_iff firstRunes secondRunes)
    firstExact secondExact

end Aa.Library.JsonReader
