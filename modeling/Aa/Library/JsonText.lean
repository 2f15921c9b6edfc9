import Mathlib.Data.List.Forall2
import Mathlib.Data.Option.Defs
import Mathlib.Data.String.Basic

/-!
# The JSON text that Go writes

What `json.Marshal` writes for strings, slices and structures. A text tells where it ends, so
that what follows it cannot be taken for a part of it: two texts that agree as prefixes of
longer ones stand for the same value, as far as the encoding tells values apart.
-/

namespace Aa.Library.JsonText

universe u v

/-! ## Strings -/

/-- A part of a Go string: a rune, or a byte that belongs to no rune. -/
inductive Part where
  | rune (value : Char)
  | invalid (byte : UInt8)
deriving DecidableEq

/-- A Go string as it is ranged over. -/
abbrev Text := List Part

def Text.of (text : String) : Text := text.toList.map .rune

/-- What is read of a part. Bytes that belong to no rune are not told apart. -/
def Part.read : Part → Option Char
  | .rune value => some value
  | .invalid _ => none

/-- Strings that differ at most in bytes that belong to no rune. -/
def Alike (first second : Text) : Prop := first.map Part.read = second.map Part.read

instance : DecidableRel Alike := fun _ _ => inferInstanceAs (Decidable (_ = _))

theorem alike_of_iff {first second : String} :
    Alike (Text.of first) (Text.of second) ↔ first = second := by
  simp only [Alike, Text.of, List.map_map]
  constructor
  · intro same
    exact String.toList_inj.mp (List.map_injective_iff.mpr (fun _ _ => Option.some.inj) same)
  · rintro rfl
    rfl

def hexDigit (value : ℕ) : Char :=
  if value < 10 then Char.ofNat (48 + value) else Char.ofNat (87 + value)

def hexValue (digit : Char) : ℕ :=
  if digit.toNat < 87 then digit.toNat - 48 else digit.toNat - 87

theorem hexValue_hexDigit {value : ℕ} (small : value < 16) :
    hexValue (hexDigit value) = value := by
  revert value
  decide

def escapeUnicode (value : ℕ) : List Char :=
  ['\\', 'u', hexDigit (value / 4096 % 16), hexDigit (value / 256 % 16),
    hexDigit (value / 16 % 16), hexDigit (value % 16)]

/-- Controls, quotes and what HTML gives a meaning to are escaped. -/
def escapeChar (c : Char) : List Char :=
  if c = '"' then ['\\', '"']
  else if c = '\\' then ['\\', '\\']
  else if c = '\x08' then ['\\', 'b']
  else if c = '\x0c' then ['\\', 'f']
  else if c = '\n' then ['\\', 'n']
  else if c = '\r' then ['\\', 'r']
  else if c = '\t' then ['\\', 't']
  else if c.toNat < 0x20 ∨ c = '<' ∨ c = '>' ∨ c = '&' ∨ c.toNat = 0x2028 ∨ c.toNat = 0x2029 then
    escapeUnicode c.toNat
  else [c]

def escapePart : Part → List Char
  | .rune value => escapeChar value
  | .invalid _ => escapeUnicode 0xfffd

def quoteText (text : Text) : List Char := '"' :: text.flatMap escapePart ++ ['"']

/-- Reads one escape or rune. -/
def unescape : List Char → Option (Option Char × List Char)
  | '\\' :: 'u' :: a :: b :: c :: d :: rest =>
      let value := ((hexValue a * 16 + hexValue b) * 16 + hexValue c) * 16 + hexValue d
      some (if value = 0xfffd then none else some (Char.ofNat value), rest)
  | '\\' :: 'b' :: rest => some (some '\x08', rest)
  | '\\' :: 'f' :: rest => some (some '\x0c', rest)
  | '\\' :: 'n' :: rest => some (some '\n', rest)
  | '\\' :: 'r' :: rest => some (some '\r', rest)
  | '\\' :: 't' :: rest => some (some '\t', rest)
  | '\\' :: c :: rest => some (some c, rest)
  | c :: rest => some (some c, rest)
  | [] => none

theorem unescape_escapeUnicode {value : ℕ} (small : value < 65536) (rest : List Char) :
    unescape (escapeUnicode value ++ rest) =
      some (if value = 0xfffd then none else some (Char.ofNat value), rest) := by
  have digits : ((value / 4096 % 16 * 16 + value / 256 % 16) * 16 + value / 16 % 16) * 16 +
      value % 16 = value := by omega
  simp only [escapeUnicode, List.cons_append, List.nil_append, unescape]
  rw [hexValue_hexDigit (by omega), hexValue_hexDigit (by omega), hexValue_hexDigit (by omega),
    hexValue_hexDigit (by omega), digits]

theorem unescape_of_plain {c : Char} (plain : c ≠ '\\') (rest : List Char) :
    unescape (c :: rest) = some (some c, rest) := by
  simp [unescape, plain]

theorem unescape_escapeChar (c : Char) (rest : List Char) :
    unescape (escapeChar c ++ rest) = some (some c, rest) := by
  unfold escapeChar
  split_ifs with quotes backslash backspace feed newline carriage tab special
  · simp [unescape, quotes]
  · simp [unescape, backslash]
  · simp [unescape, backspace]
  · simp [unescape, feed]
  · simp [unescape, newline]
  · simp [unescape, carriage]
  · simp [unescape, tab]
  · have small : c.toNat < 65536 ∧ c.toNat ≠ 0xfffd := by
      rcases special with control | rfl | rfl | rfl | separator | separator
      · omega
      · decide
      · decide
      · decide
      · omega
      · omega
    rw [unescape_escapeUnicode small.1, if_neg small.2, Char.ofNat_toNat]
  · exact unescape_of_plain backslash rest

theorem unescape_escapePart (part : Part) (rest : List Char) :
    unescape (escapePart part ++ rest) = some (part.read, rest) := by
  cases part with
  | rune value => exact unescape_escapeChar value rest
  | invalid byte =>
      rw [escapePart, unescape_escapeUnicode (by decide), if_pos rfl]
      rfl

theorem escapeChar_opens (c : Char) : ∃ d rest, escapeChar c = d :: rest ∧ d ≠ '"' := by
  unfold escapeChar
  split_ifs with quotes
  all_goals first
    | exact ⟨_, _, rfl, quotes⟩
    | exact ⟨_, _, rfl, by decide⟩

theorem escapePart_opens (part : Part) : ∃ d rest, escapePart part = d :: rest ∧ d ≠ '"' := by
  cases part with
  | rune value => exact escapeChar_opens value
  | invalid byte => exact ⟨_, _, rfl, by decide⟩

theorem escapePart_congr {first second : Part} (same : first.read = second.read) :
    escapePart first = escapePart second := by
  cases first with
  | rune value =>
      cases second with
      | rune other => rw [Option.some.inj same]
      | invalid byte => cases same
  | invalid byte =>
      cases second with
      | rune other => cases same
      | invalid other => rfl

/-- A closing quote ends a string, wherever it stands in a text. -/
theorem quoted_inj {first second : Text} {rest others : List Char}
    (same : first.flatMap escapePart ++ '"' :: rest = second.flatMap escapePart ++ '"' :: others) :
    Alike first second ∧ rest = others := by
  induction first generalizing second with
  | nil =>
      cases second with
      | nil => exact ⟨rfl, by simpa using same⟩
      | cons part more =>
          rcases escapePart_opens part with ⟨d, chars, opens, notQuote⟩
          simp only [List.flatMap_nil, List.nil_append, List.flatMap_cons, opens,
            List.cons_append, List.cons.injEq] at same
          exact absurd same.1.symm notQuote
  | cons part more ih =>
      cases second with
      | nil =>
          rcases escapePart_opens part with ⟨d, chars, opens, notQuote⟩
          simp only [List.flatMap_nil, List.nil_append, List.flatMap_cons, opens,
            List.cons_append, List.cons.injEq] at same
          exact absurd same.1 notQuote
      | cons other later =>
          simp only [List.flatMap_cons, List.append_assoc] at same
          have reads := congrArg unescape same
          rw [unescape_escapePart, unescape_escapePart] at reads
          simp only [Option.some.injEq, Prod.mk.injEq] at reads
          rcases ih reads.2 with ⟨alike, rests⟩
          refine ⟨?_, rests⟩
          rw [Alike, List.map_cons, List.map_cons, reads.1, alike]

theorem quoteText_inj {first second : Text} {rest others : List Char}
    (same : quoteText first ++ rest = quoteText second ++ others) :
    Alike first second ∧ rest = others := by
  simp only [quoteText, List.cons_append, List.append_assoc, List.nil_append,
    List.cons.injEq, true_and] at same
  exact quoted_inj same

theorem quoteText_congr {first second : Text} (alike : Alike first second) :
    quoteText first = quoteText second := by
  have parts : first.flatMap escapePart = second.flatMap escapePart := by
    induction first generalizing second with
    | nil =>
        cases second with
        | nil => rfl
        | cons other later => cases alike
    | cons part more ih =>
        cases second with
        | nil => cases alike
        | cons other later =>
            rcases List.cons.inj alike with ⟨head, tail⟩
            rw [List.flatMap_cons, List.flatMap_cons, escapePart_congr head, ih tail]
  rw [quoteText, parts, quoteText]

/-! ## Brackets -/

/-- What may follow a value: nothing, a separator or a closing bracket. -/
def Ends (rest : List Char) : Prop := ∀ c ∈ rest.head?, c = ',' ∨ c = ']' ∨ c = '\x7d'

def blockTail (closing : Char) : List (List Char) → List Char
  | [] => [closing]
  | item :: rest => ',' :: item ++ blockTail closing rest

/-- Items between brackets, with separators. -/
def block (opening closing : Char) : List (List Char) → List Char
  | [] => [opening, closing]
  | item :: rest => opening :: item ++ blockTail closing rest

/-- Items whose texts tell where they end, and do not start with the closing bracket. -/
structure Items {α : Type u} {β : Type v} (closing : Char) (same : α → β → Prop)
    (encode : α → List Char) (encodeOther : β → List Char) (items : List α) (others : List β) :
    Prop where
  closes : closing = ']' ∨ closing = '\x7d'
  opens : ∀ item ∈ items, ∃ c rest, encode item = c :: rest ∧ c ≠ closing
  othersOpen : ∀ other ∈ others, ∃ c rest, encodeOther other = c :: rest ∧ c ≠ closing
  delimits : ∀ item ∈ items, ∀ other ∈ others, ∀ rest more, Ends rest → Ends more →
    encode item ++ rest = encodeOther other ++ more → same item other ∧ rest = more

section Brackets

variable {α : Type u} {β : Type v} {opening closing : Char} {same : α → β → Prop}
  {encode : α → List Char} {encodeOther : β → List Char} {items : List α} {others : List β}
  {rest more : List Char}

theorem Items.tail {item : α} {other : β}
    (are : Items closing same encode encodeOther (item :: items) (other :: others)) :
    Items closing same encode encodeOther items others where
  closes := are.closes
  opens := fun next isNext => are.opens next (List.mem_cons_of_mem _ isNext)
  othersOpen := fun next isNext => are.othersOpen next (List.mem_cons_of_mem _ isNext)
  delimits := fun next isNext later isLater =>
    are.delimits next (List.mem_cons_of_mem _ isNext) later (List.mem_cons_of_mem _ isLater)

theorem ends_blockTail (closes : closing = ']' ∨ closing = '\x7d') (texts : List (List Char)) :
    Ends (blockTail closing texts ++ rest) := by
  cases texts with
  | nil => simpa [Ends, blockTail] using .inr closes
  | cons text texts => simp [Ends, blockTail]

theorem ne_separator (closes : closing = ']' ∨ closing = '\x7d') : closing ≠ ',' := by
  rcases closes with rfl | rfl <;> decide

theorem blockTail_inj (are : Items closing same encode encodeOther items others)
    (equal : blockTail closing (items.map encode) ++ rest =
      blockTail closing (others.map encodeOther) ++ more) :
    List.Forall₂ same items others ∧ rest = more := by
  induction items generalizing others with
  | nil =>
      cases others with
      | nil => exact ⟨.nil, by simpa [blockTail] using equal⟩
      | cons other others =>
          simp only [List.map_nil, List.map_cons, blockTail, List.cons_append, List.nil_append,
            List.cons.injEq] at equal
          exact absurd equal.1 (ne_separator are.closes)
  | cons item items ih =>
      cases others with
      | nil =>
          simp only [List.map_nil, List.map_cons, blockTail, List.cons_append, List.nil_append,
            List.cons.injEq] at equal
          exact absurd equal.1.symm (ne_separator are.closes)
      | cons other others =>
          simp only [List.map_cons, blockTail, List.cons_append, List.append_assoc,
            List.cons.injEq, true_and] at equal
          rcases are.delimits item List.mem_cons_self other List.mem_cons_self _ _
            (ends_blockTail are.closes _) (ends_blockTail are.closes _) equal with ⟨heads, tails⟩
          rcases ih are.tail tails with ⟨sames, rests⟩
          exact ⟨.cons heads sames, rests⟩

/-- A block tells its items and where it ends. -/
theorem block_inj (are : Items closing same encode encodeOther items others)
    (equal : block opening closing (items.map encode) ++ rest =
      block opening closing (others.map encodeOther) ++ more) :
    List.Forall₂ same items others ∧ rest = more := by
  cases items with
  | nil =>
      cases others with
      | nil => exact ⟨.nil, by simpa [block] using equal⟩
      | cons other others =>
          rcases are.othersOpen other List.mem_cons_self with ⟨c, chars, opens, notClosing⟩
          simp only [List.map_nil, List.map_cons, block, opens, List.cons_append, List.nil_append,
            List.cons.injEq, true_and] at equal
          exact absurd equal.1.symm notClosing
  | cons item items =>
      cases others with
      | nil =>
          rcases are.opens item List.mem_cons_self with ⟨c, chars, opens, notClosing⟩
          simp only [List.map_nil, List.map_cons, block, opens, List.cons_append, List.nil_append,
            List.cons.injEq, true_and] at equal
          exact absurd equal.1 notClosing
      | cons other others =>
          simp only [List.map_cons, block, List.cons_append, List.append_assoc,
            List.cons.injEq, true_and] at equal
          rcases are.delimits item List.mem_cons_self other List.mem_cons_self _ _
            (ends_blockTail are.closes _) (ends_blockTail are.closes _) equal with ⟨heads, tails⟩
          rcases blockTail_inj are.tail tails with ⟨sames, rests⟩
          exact ⟨.cons heads sames, rests⟩

end Brackets

/-! ## Encodings -/

/-- An encoding, with the values it does not tell apart. -/
structure Encoding (α : Type u) where
  encode : α → List Char
  same : α → α → Prop
  congr : ∀ {first second}, same first second → encode first = encode second
  opens : ∀ value, ∃ c rest, encode value = c :: rest ∧ c ≠ ']'
  delimits : ∀ {first second rest others}, Ends rest → Ends others →
    encode first ++ rest = encode second ++ others → same first second ∧ rest = others

namespace Encoding

variable {α : Type u} {β : Type v}

theorem encode_eq_iff (encoding : Encoding α) {first second : α} :
    encoding.encode first = encoding.encode second ↔ encoding.same first second := by
  constructor
  · intro equal
    have ends : Ends [] := by simp [Ends]
    exact (encoding.delimits ends ends (congrArg (· ++ []) equal)).1
  · exact encoding.congr

def text : Encoding Text where
  encode := quoteText
  same := Alike
  congr := quoteText_congr
  opens := fun value => ⟨'"', _, rfl, by decide⟩
  delimits := fun _ _ => quoteText_inj

/-- The encoding of a part. -/
def comap (encoding : Encoding β) (part : α → β) : Encoding α where
  encode := fun value => encoding.encode (part value)
  same := fun first second => encoding.same (part first) (part second)
  congr := encoding.congr
  opens := fun value => encoding.opens (part value)
  delimits := encoding.delimits

def encodeSlice (encode : α → List Char) : Option (List α) → List Char
  | none => "null".toList
  | some items => block '[' ']' (items.map encode)

theorem block_opens (opening closing : Char) (texts : List (List Char)) :
    ∃ rest, block opening closing texts = opening :: rest := by
  cases texts with
  | nil => exact ⟨_, rfl⟩
  | cons text texts => exact ⟨_, rfl⟩

/-- A slice. Nil is told from empty. -/
def slice (encoding : Encoding α) : Encoding (Option (List α)) where
  encode := encodeSlice encoding.encode
  same := Option.Rel (List.Forall₂ encoding.same)
  congr := by
    rintro _ _ (⟨sames⟩ | _)
    · have texts : _ = _ := List.forall₂_eq_eq_eq ▸ List.forall₂_map_left_iff.mpr
        (List.forall₂_map_right_iff.mpr (sames.imp fun _ _ => encoding.congr))
      rw [encodeSlice, encodeSlice, texts]
    · rfl
  opens := by
    rintro (_ | items)
    · exact ⟨'n', _, rfl, by decide⟩
    · rcases block_opens '[' ']' (items.map encoding.encode) with ⟨rest, opens⟩
      exact ⟨'[', rest, opens, by decide⟩
  delimits := by
    rintro (_ | items) (_ | others) rest more _ _ equal
    · exact ⟨.none, List.append_cancel_left equal⟩
    · rcases block_opens '[' ']' (others.map encoding.encode) with ⟨chars, opens⟩
      simp [encodeSlice, opens] at equal
    · rcases block_opens '[' ']' (items.map encoding.encode) with ⟨chars, opens⟩
      simp [encodeSlice, opens] at equal
    · have are : Items ']' encoding.same encoding.encode encoding.encode items others :=
        { closes := .inl rfl
          opens := fun item _ => encoding.opens item
          othersOpen := fun other _ => encoding.opens other
          delimits := fun _ _ _ _ _ _ => encoding.delimits }
      rcases block_inj are equal with ⟨sames, rests⟩
      exact ⟨.some sames, rests⟩

/-- A field of a structure under its name. -/
def encodeField (value : α) (field : String × Encoding α) : List Char :=
  '"' :: field.1.toList ++ '"' :: ':' :: field.2.encode value

def encodeStruct (fields : List (String × Encoding α)) (value : α) : List Char :=
  block '\x7b' '\x7d' (fields.map (encodeField value))

theorem encodeField_delimits {field : String × Encoding α} {first second : α}
    {rest more : List Char} (ends : Ends rest) (moreEnds : Ends more)
    (equal : encodeField first field ++ rest = encodeField second field ++ more) :
    field.2.same first second ∧ rest = more := by
  simp only [encodeField, List.cons_append, List.append_assoc, List.cons.injEq, true_and] at equal
  have values := (List.cons.inj (List.append_cancel_left equal)).2
  exact field.2.delimits ends moreEnds (List.cons.inj values).2

theorem fieldTail_inj {fields : List (String × Encoding α)} {first second : α}
    {rest more : List Char}
    (equal : blockTail '\x7d' (fields.map (encodeField first)) ++ rest =
      blockTail '\x7d' (fields.map (encodeField second)) ++ more) :
    (∀ field ∈ fields, field.2.same first second) ∧ rest = more := by
  induction fields with
  | nil => exact ⟨by simp, by simpa [blockTail] using equal⟩
  | cons field fields ih =>
      simp only [List.map_cons, blockTail, List.cons_append, List.append_assoc,
        List.cons.injEq, true_and] at equal
      rcases encodeField_delimits (ends_blockTail (.inr rfl) _) (ends_blockTail (.inr rfl) _)
        equal with ⟨isSame, tails⟩
      rcases ih tails with ⟨sames, rests⟩
      exact ⟨by simpa [isSame] using sames, rests⟩

/-- A structure, field after field. -/
def struct (fields : List (String × Encoding α)) : Encoding α where
  encode := encodeStruct fields
  same := fun first second => ∀ field ∈ fields, field.2.same first second
  congr := by
    intro first second sames
    have texts : fields.map (encodeField first) = fields.map (encodeField second) :=
      List.map_congr_left fun field isField => by
        rw [encodeField, field.2.congr (sames field isField), encodeField]
    rw [encodeStruct, texts, encodeStruct]
  opens := by
    intro value
    rcases block_opens '\x7b' '\x7d' (fields.map (encodeField value)) with ⟨rest, opens⟩
    exact ⟨'\x7b', rest, opens, by decide⟩
  delimits := by
    intro first second rest more _ _ equal
    cases fields with
    | nil => exact ⟨by simp, by simpa [encodeStruct, block] using equal⟩
    | cons field fields =>
        simp only [encodeStruct, List.map_cons, block, List.cons_append, List.append_assoc,
          List.cons.injEq, true_and] at equal
        rcases encodeField_delimits (ends_blockTail (.inr rfl) _) (ends_blockTail (.inr rfl) _)
          equal with ⟨isSame, tails⟩
        rcases fieldTail_inj tails with ⟨sames, rests⟩
        exact ⟨by simpa [isSame] using sames, rests⟩

end Encoding

end Aa.Library.JsonText
