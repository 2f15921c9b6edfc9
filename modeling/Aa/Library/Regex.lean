import Aa.Library.PyText

/-!
# Regular expressions of Python's `re`

Syntax, parser and backtracking semantics of the part of Python's regular expressions
that the models use. `lengths` lists the lengths of all matches at a place of a text
in the order in which the backtracking engine finds them, so its head is the match
that `re` reports; `found` is `re.search` and `sub` is `re.sub` with a literal
replacement.

A pattern that cannot match without a character that a text does not have finds
nothing in it: `blocked` is that check on the pattern alone, and `found_of_blocked` the
fact about searching.
-/

namespace Aa.Library

namespace Regex

/-- One entry of a character class. -/
inductive ClassItem
  | single (c : Char)
  | range (low high : Char)
  | digit
  | word
  | space
  deriving DecidableEq

/-- A character class, possibly negated, possibly blind to case. -/
structure CharSet where
  negated : Bool := false
  ignoreCase : Bool := false
  items : List ClassItem
  deriving DecidableEq

/-- The flags of a pattern. -/
structure Flags where
  ignoreCase : Bool := false
  multiline : Bool := false
  dotall : Bool := false
  deriving DecidableEq

end Regex

open Regex in
/-- Patterns. A repetition has its least and, if bounded, its greatest count. -/
inductive Regex
  | empty
  | set (chars : CharSet)
  | any (dotall : Bool)
  | seq (first second : Regex)
  | alt (first second : Regex)
  | rep (body : Regex) (least : Nat) (most : Option Nat) (greedy : Bool)
  | wordBoundary
  | lineStart (multiline : Bool)
  | lineEnd (multiline : Bool)
  | notAhead (body : Regex)
  deriving DecidableEq

namespace Regex

/-! ## Characters -/

/-- The lowercase ASCII letter a character is the same as when case is ignored: its
own, or the one that the characters K, ſ, İ and ı outside ASCII fold to. -/
def foldCase (c : Char) : Char :=
  if c.toNat = 0x212A then 'k'
  else if c.toNat = 0x17F then 's'
  else if c.toNat = 0x130 || c.toNat = 0x131 then 'i'
  else c.toLower

def between (low high c : Char) : Bool :=
  low.toNat ≤ c.toNat && c.toNat ≤ high.toNat

/-- Whether a class entry contains a character. -/
def ClassItem.mem (unicode : PyUnicode) (ignoreCase : Bool) (c : Char) : ClassItem → Bool
  | single d => c == d || (ignoreCase && foldCase c == foldCase d)
  | range low high =>
      between low high c ||
        (ignoreCase && (between low high (foldCase c) || between low high (foldCase c).toUpper))
  | digit => unicode.isDecimal c
  | word => unicode.isWord c
  | space => Py.isSpace c

def CharSet.mem (unicode : PyUnicode) (chars : CharSet) (c : Char) : Bool :=
  chars.negated != chars.items.any (·.mem unicode chars.ignoreCase c)

/-! ## Matching -/

section Matching

variable (unicode : PyUnicode)

/-- The character before the rest of a text of which `count` characters are passed. -/
def previous (before : Option Char) (text : List Char) (count : Nat) : Option Char :=
  (text.take count).getLast?.or before

/-- Runs `next` after every match of `first`, adding up the lengths. -/
def andThen (first next : Option Char → List Char → List Nat) (before : Option Char)
    (text : List Char) : List Nat :=
  (first before text).flatMap fun count =>
    (next (previous before text count) (text.drop count)).map (count + ·)

/-- At most `extra` further iterations, each of which consumes something. -/
def iterateUpTo (body : Option Char → List Char → List Nat) (greedy : Bool) :
    Nat → Option Char → List Char → List Nat
  | 0, _, _ => [0]
  | extra + 1, before, text =>
      let more := andThen (fun before text => (body before text).filter (0 < ·))
        (iterateUpTo body greedy extra) before text
      if greedy then more ++ [0] else 0 :: more

/-- Exactly `needed` iterations and then at most `extra` more. -/
def iterate (body : Option Char → List Char → List Nat) (greedy : Bool)
    (extra : List Char → Nat) : Nat → Option Char → List Char → List Nat
  | 0, before, text => iterateUpTo body greedy (extra text) before text
  | needed + 1, before, text => andThen body (iterate body greedy extra needed) before text

def isWordAt : Option Char → Bool
  | some c => unicode.isWord c
  | none => false

/-- The lengths of the matches at the head of a text, in the order of backtracking. -/
def lengths : Regex → Option Char → List Char → List Nat
  | empty, _, _ => [0]
  | set _, _, [] => []
  | set chars, _, c :: _ => if chars.mem unicode c then [1] else []
  | any _, _, [] => []
  | any dotall, _, c :: _ => if dotall || c != '\n' then [1] else []
  | seq first second, before, text => andThen first.lengths second.lengths before text
  | alt first second, before, text => first.lengths before text ++ second.lengths before text
  | rep body least most greedy, before, text =>
      iterate body.lengths greedy
        (fun rest => match most with
          | some bound => bound - least
          | none => rest.length)
        least before text
  | wordBoundary, before, text =>
      if isWordAt unicode before != isWordAt unicode text.head? then [0] else []
  | lineStart multiline, before, _ =>
      if before.isNone || (multiline && before == some '\n') then [0] else []
  | lineEnd multiline, _, text =>
      if text.isEmpty || text == ['\n'] || (multiline && text.head? == some '\n') then [0] else []
  | notAhead body, before, text => if (body.lengths before text).isEmpty then [0] else []

/-- The length of the match at the head of a text. -/
def matchLength (pattern : Regex) (before : Option Char) (text : List Char) : Option Nat :=
  (pattern.lengths unicode before text).head?

/-- Whether the pattern matches somewhere: `re.search(pattern, text) is not None`. -/
def foundFrom (pattern : Regex) : Option Char → List Char → Bool
  | before, [] => !(pattern.lengths unicode before []).isEmpty
  | before, c :: rest =>
      !(pattern.lengths unicode before (c :: rest)).isEmpty || foundFrom pattern (some c) rest

def found (pattern : Regex) (text : List Char) : Bool :=
  pattern.foundFrom unicode none text

variable {α : Type} [Glyph α]

/-- Replaces the matches from here on, `skip` glyphs being part of the last one. -/
def subFrom (pattern : Regex) (replacement : List α) : Nat → Option Char → List α → List α
  | _, _, [] => []
  | skip + 1, _, glyph :: rest =>
      subFrom pattern replacement skip (some (Glyph.char glyph)) rest
  | 0, before, glyph :: rest =>
      match pattern.matchLength unicode before (Glyph.chars (glyph :: rest)) with
      | some (length + 1) =>
          replacement ++ subFrom pattern replacement length (some (Glyph.char glyph)) rest
      | _ => glyph :: subFrom pattern replacement 0 (some (Glyph.char glyph)) rest

/-- `re.sub(pattern, replacement, text)` for a pattern that matches no empty text. -/
def sub (pattern : Regex) (replacement : List α) (text : List α) : List α :=
  pattern.subFrom unicode replacement 0 none text

end Matching

/-! ## Substitution -/

section Substitution

variable {unicode : PyUnicode} {pattern : Regex} {α : Type} [Glyph α]

/-- Substitution depends only on the characters that the glyphs show. -/
theorem chars_subFrom (replacement : List α) (skip : Nat) (before : Option Char) (text : List α) :
    Glyph.chars (pattern.subFrom unicode replacement skip before text) =
      pattern.subFrom unicode (Glyph.chars replacement) skip before (Glyph.chars text) := by
  induction text generalizing skip before with
  | nil => cases skip <;> rfl
  | cons glyph rest ih =>
      cases skip with
      | succ skip => exact ih skip _
      | zero =>
          simp only [subFrom, Glyph.chars_cons, Glyph.char_char, Glyph.chars_char]
          split
          · rw [Glyph.chars_append, ih]
          · rw [Glyph.chars_cons, ih]

theorem chars_sub (replacement text : List α) :
    Glyph.chars (pattern.sub unicode replacement text) =
      pattern.sub unicode (Glyph.chars replacement) (Glyph.chars text) :=
  chars_subFrom replacement 0 none text

end Substitution

/-! ## Texts that lack a character of the pattern -/

section Blocked

variable {unicode : PyUnicode} {alphabet : List Char}

/-- Whether an entry may contain a character, whatever the Unicode database. -/
def ClassItem.mayContain (ignoreCase : Bool) (c : Char) : ClassItem → Bool
  | single d => c == d || (ignoreCase && foldCase c == foldCase d)
  | range low high =>
      between low high c ||
        (ignoreCase && (between low high (foldCase c) || between low high (foldCase c).toUpper))
  | _ => true

def CharSet.mayContain (chars : CharSet) (c : Char) : Bool :=
  chars.negated || chars.items.any (·.mayContain chars.ignoreCase c)

/-- Whether every match of the pattern needs a character outside `alphabet`. -/
def blocked (alphabet : List Char) : Regex → Bool
  | set chars => alphabet.all fun c => !chars.mayContain c
  | seq first second => first.blocked alphabet || second.blocked alphabet
  | alt first second => first.blocked alphabet && second.blocked alphabet
  | rep body least _ _ => 0 < least && body.blocked alphabet
  | _ => false

theorem CharSet.mayContain_of_mem {chars : CharSet} {c : Char} (isMem : chars.mem unicode c) :
    chars.mayContain c := by
  have item_of_mem {item : ClassItem} (isMem : item.mem unicode chars.ignoreCase c) :
      item.mayContain chars.ignoreCase c := by
    cases item with
    | single _ => exact isMem
    | range _ _ => exact isMem
    | digit => rfl
    | word => rfl
    | space => rfl
  rw [CharSet.mayContain, Bool.or_eq_true]
  cases isNegated : chars.negated with
  | true => exact .inl rfl
  | false =>
      rw [CharSet.mem, isNegated, Bool.false_bne, List.any_eq_true] at isMem
      rcases isMem with ⟨item, itemMem, contains⟩
      exact .inr (List.any_eq_true.mpr ⟨item, itemMem, item_of_mem contains⟩)

theorem andThen_eq_nil_left {first next : Option Char → List Char → List Nat}
    {before : Option Char} {text : List Char} (noMatch : first before text = []) :
    andThen first next before text = [] := by
  simp [andThen, noMatch]

theorem andThen_eq_nil_right {first next : Option Char → List Char → List Nat}
    {before : Option Char} {text : List Char}
    (noMatch : ∀ before count, next before (text.drop count) = []) :
    andThen first next before text = [] := by
  simp [andThen, noMatch]

/-- A blocked pattern matches nowhere in a text over the alphabet. -/
theorem lengths_of_blocked {pattern : Regex} (isBlocked : pattern.blocked alphabet)
    {before : Option Char} {text : List Char} (within : ∀ c ∈ text, c ∈ alphabet) :
    pattern.lengths unicode before text = [] := by
  induction pattern generalizing before text with
  | set chars =>
      cases text with
      | nil => rfl
      | cons c rest =>
          have excluded := List.all_eq_true.mp isBlocked c (within c List.mem_cons_self)
          have notMem : chars.mem unicode c = false := by
            by_contra isMem
            simp [CharSet.mayContain_of_mem (Bool.not_eq_false _ ▸ isMem)] at excluded
          simp [lengths, notMem]
  | seq first second firstBlocked secondBlocked =>
      rcases Bool.or_eq_true _ _ |>.mp isBlocked with isFirst | isSecond
      · exact andThen_eq_nil_left (firstBlocked isFirst within)
      · exact andThen_eq_nil_right fun _ _ =>
          secondBlocked isSecond fun c isThere => within c (List.mem_of_mem_drop isThere)
  | alt first second firstBlocked secondBlocked =>
      rcases Bool.and_eq_true _ _ |>.mp isBlocked with ⟨isFirst, isSecond⟩
      simp [lengths, firstBlocked isFirst within, secondBlocked isSecond within]
  | rep body least most greedy bodyBlocked =>
      rcases Bool.and_eq_true _ _ |>.mp isBlocked with ⟨positive, isBody⟩
      cases least with
      | zero => simp at positive
      | succ least => exact andThen_eq_nil_left (bodyBlocked isBody within)
  | empty => simp [blocked] at isBlocked
  | any _ => simp [blocked] at isBlocked
  | wordBoundary => simp [blocked] at isBlocked
  | lineStart _ => simp [blocked] at isBlocked
  | lineEnd _ => simp [blocked] at isBlocked
  | notAhead _ => simp [blocked] at isBlocked

theorem found_of_blocked {pattern : Regex} (isBlocked : pattern.blocked alphabet)
    {text : List Char} (within : ∀ c ∈ text, c ∈ alphabet) :
    pattern.found unicode text = false := by
  have nowhere (before : Option Char) : pattern.foundFrom unicode before text = false := by
    induction text generalizing before with
    | nil => simp [foundFrom, lengths_of_blocked isBlocked within]
    | cons c rest ih =>
        simp only [foundFrom, lengths_of_blocked isBlocked within, List.isEmpty_nil, Bool.not_true,
          Bool.false_or]
        exact ih (fun c isThere => within c (List.mem_cons_of_mem _ isThere)) _
  exact nowhere none

end Blocked

/-! ## Parsing -/

section Parsing

/-- The class entry of a character after a backslash. -/
def escaped (c : Char) : ClassItem :=
  if c = 's' then .space else if c = 'd' then .digit else if c = 'w' then .word else .single c

/-- The entries of a class up to its closing bracket. -/
def parseItems : Nat → List Char → Option (List ClassItem × List Char)
  | 0, _ => none
  | _ + 1, [] => none
  | fuel + 1, c :: rest =>
      if c = ']' then some ([], rest)
      else if c = '\\' then
        (parseItems fuel rest.tail).map fun parsed =>
          (escaped (rest.headD '\\') :: parsed.1, parsed.2)
      else if rest.head? = some '-' && rest.tail.head? != some ']' then
        (parseItems fuel rest.tail.tail).map fun parsed =>
          (.range c (rest.tail.headD c) :: parsed.1, parsed.2)
      else (parseItems fuel rest).map fun parsed => (.single c :: parsed.1, parsed.2)

/-- The number at the head of a text. -/
def parseNumber : Nat → List Char → Nat × List Char
  | value, [] => (value, [])
  | value, c :: rest =>
      if c.isDigit then parseNumber (10 * value + (c.toNat - '0'.toNat)) rest else (value, c :: rest)

/-- The counts of a quantifier, without the mark that makes it lazy. -/
def parseCount : List Char → Option ((Nat × Option Nat) × List Char)
  | [] => none
  | c :: rest =>
      if c = '*' then some ((0, none), rest)
      else if c = '+' then some ((1, none), rest)
      else if c = '?' then some ((0, some 1), rest)
      else if c = '{' then
        let least := parseNumber 0 rest
        if least.2.head? = some '}' then some ((least.1, some least.1), least.2.tail)
        else
          let most := parseNumber 0 least.2.tail
          if most.2 = least.2.tail then some ((least.1, none), most.2.tail)
          else some ((least.1, some most.1), most.2.tail)
      else none

/-- Puts the quantifier that follows, if there is one, on `body`. -/
def parseQuantifier (body : Regex) (text : List Char) : Regex × List Char :=
  match parseCount text with
  | none => (body, text)
  | some (count, rest) =>
      if rest.head? = some '?' then (rep body count.1 count.2 false, rest.tail)
      else (rep body count.1 count.2 true, rest)

variable (flags : Flags)

/-- The pattern of one class entry. -/
def literal (item : ClassItem) : Regex :=
  set { ignoreCase := flags.ignoreCase, items := [item] }

/-- An assertion, an escape or a single character. -/
def parseSimple (c : Char) (rest : List Char) : Regex × List Char :=
  if c = '\\' then
    if rest.head? = some 'b' then (wordBoundary, rest.tail)
    else (literal flags (escaped (rest.headD '\\')), rest.tail)
  else if c = '^' then (lineStart flags.multiline, rest)
  else if c = '$' then (lineEnd flags.multiline, rest)
  else if c = '.' then (any flags.dotall, rest)
  else (literal flags (.single c), rest)

/-- The syntactic categories of the parser. -/
inductive Category
  | alternatives
  | sequence
  | atom

/-- Parses one category at the head of a text. -/
def parse : Nat → Category → List Char → Option (Regex × List Char)
  | 0, _, _ => none
  | fuel + 1, .alternatives, text =>
      match parse fuel .sequence text with
      | none => none
      | some (first, rest) =>
          if rest.head? = some '|' then
            (parse fuel .alternatives rest.tail).map fun parsed => (alt first parsed.1, parsed.2)
          else some (first, rest)
  | _ + 1, .sequence, [] => some (empty, [])
  | fuel + 1, .sequence, c :: rest =>
      if c = '|' || c = ')' then some (empty, c :: rest)
      else
        match parse fuel .atom (c :: rest) with
        | none => none
        | some (atom, rest) =>
            let quantified := parseQuantifier atom rest
            (parse fuel .sequence quantified.2).map fun parsed =>
              (seq quantified.1 parsed.1, parsed.2)
  | _ + 1, .atom, [] => none
  | fuel + 1, .atom, c :: rest =>
      if c = '(' then
        let marked := rest.take 2 = ['?', ':'] || rest.take 2 = ['?', '!']
        match parse fuel .alternatives (if marked then rest.drop 2 else rest) with
        | none => none
        | some (group, after) =>
            if after.head? != some ')' then none
            else if rest.take 2 = ['?', '!'] then some (notAhead group, after.tail)
            else some (group, after.tail)
      else if c = '[' then
        let negated := rest.head? = some '^'
        (parseItems fuel (if negated then rest.tail else rest)).map fun parsed =>
          (set { negated := negated, ignoreCase := flags.ignoreCase, items := parsed.1 }, parsed.2)
      else some (parseSimple flags c rest)

/-- The flags a pattern starts with, as in `(?im)`. -/
def leadingFlags (text : List Char) : Flags × List Char :=
  if text.take 4 = ['(', '?', 'i', ')'] then ({ flags with ignoreCase := true }, text.drop 4)
  else if text.take 5 = ['(', '?', 'i', 'm', ')'] then
    ({ flags with ignoreCase := true, multiline := true }, text.drop 5)
  else (flags, text)

/-- `re.compile(pattern, flags)`, if the pattern is in the modelled syntax. -/
def compile (pattern : String) : Option Regex :=
  let start := leadingFlags flags pattern.toList
  match parse start.1 (3 * start.2.length + 3) .alternatives start.2 with
  | some (regex, []) => some regex
  | _ => none

/-- `compile` on the characters of the pattern. -/
def compileChars (pattern : List Char) : Option Regex :=
  let start := leadingFlags flags pattern
  match parse start.1 (3 * start.2.length + 3) .alternatives start.2 with
  | some (regex, []) => some regex
  | _ => none

theorem compile_ofList (pattern : List Char) :
    compile flags (String.ofList pattern) = compileChars flags pattern := by
  simp only [compile, String.toList_ofList]
  rfl

/-- Whether every match of the pattern written with these characters needs a character outside
`alphabet`. -/
def needsOther (alphabet pattern : List Char) : Bool :=
  ((compileChars flags pattern).map (blocked alphabet)).getD true

end Parsing

end Regex

end Aa.Library
