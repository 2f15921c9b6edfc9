import Mathlib.Data.List.Basic

/-!
# Scanning lines with a bounded buffer

Go's `bufio.Scanner` with `ScanLines`: the lines of a text without their line breaks, up
to the first one that the buffer cannot hold with its line break. A text of lines that
were each written with a line break is read back line by line exactly if every line is
shorter than the buffer.
-/

namespace Aa.Library

namespace LineScanner

abbrev Bytes := List UInt8

def newline : UInt8 := 10

def carriageReturn : UInt8 := 13

/-- The line without a carriage return at its end. -/
def dropCarriageReturn (line : Bytes) : Bytes :=
  if line.getLast? = some carriageReturn then line.dropLast else line

/-- The lines of the rest of a text, of whose current line some bytes are in the buffer, and
whether a line filled the buffer. -/
def scanFrom (size : ℕ) (line : Bytes) : Bytes → List Bytes × Bool
  | [] => (if line = [] then [] else [dropCarriageReturn line], false)
  | byte :: rest =>
      if byte = newline then
        let later := scanFrom size [] rest
        (dropCarriageReturn line :: later.1, later.2)
      else if line.length + 1 ≥ size then ([], true)
      else scanFrom size (line ++ [byte]) rest

/-- The lines of a text, and whether one of them filled the buffer. -/
def scan (size : ℕ) (text : Bytes) : List Bytes × Bool := scanFrom size [] text

/-- A line as it is written. -/
def written (line : Bytes) : Bytes := line ++ [newline]

/-- A line that can be told from its line break. -/
def Solid (line : Bytes) : Prop := ∀ byte ∈ line, byte ≠ newline ∧ byte ≠ carriageReturn

variable {size : ℕ} {line rest : Bytes}

theorem dropCarriageReturn_of_solid (solid : Solid line) : dropCarriageReturn line = line := by
  rw [dropCarriageReturn, if_neg]
  intro isLast
  exact (solid carriageReturn (List.mem_of_getLast? isLast)).2 rfl

theorem scanFrom_of_short (before : Bytes) (solid : Solid (before ++ line))
    (short : (before ++ line).length < size) :
    scanFrom size before (line ++ newline :: rest) =
      ((before ++ line) :: (scan size rest).1, (scan size rest).2) := by
  induction line generalizing before with
  | nil =>
      rw [List.append_nil] at solid ⊢
      simp [scanFrom, scan, dropCarriageReturn_of_solid solid]
  | cons byte later ih =>
      have notBreak : byte ≠ newline := (solid byte (by simp)).1
      simp only [List.length_append, List.length_cons] at short
      have fits : ¬ before.length + 1 ≥ size := by omega
      rw [List.cons_append, scanFrom, if_neg notBreak, if_neg fits]
      have again : before ++ byte :: later = (before ++ [byte]) ++ later := by simp
      rw [again] at solid ⊢
      refine ih (before ++ [byte]) solid ?_
      simp only [List.length_append, List.length_cons, List.length_nil]
      omega

/-- A line shorter than the buffer is read back. -/
theorem scan_of_short (solid : Solid line) (short : line.length < size) :
    scan size (written line ++ rest) = (line :: (scan size rest).1, (scan size rest).2) := by
  have isScan : scanFrom size [] (line ++ newline :: rest) = _ := scanFrom_of_short [] solid short
  simpa [written, scan] using isScan

theorem scanFrom_of_long (before : Bytes) (solid : Solid line) (fits : before.length < size)
    (long : size ≤ (before ++ line).length) :
    scanFrom size before (line ++ newline :: rest) = ([], true) := by
  induction line generalizing before with
  | nil =>
      rw [List.append_nil] at long
      omega
  | cons byte later ih =>
      have notBreak : byte ≠ newline := (solid byte (by simp)).1
      rw [List.cons_append, scanFrom, if_neg notBreak]
      by_cases isFull : before.length + 1 ≥ size
      · rw [if_pos isFull]
      · rw [if_neg isFull]
        refine ih (before ++ [byte]) (fun other isThere => solid other (by simp [isThere])) ?_ ?_
        · simp only [List.length_append, List.length_cons, List.length_nil]
          omega
        · simpa using long

/-- At a line that fills the buffer the scan ends. -/
theorem scan_of_long (solid : Solid line) (positive : 0 < size) (long : size ≤ line.length) :
    scan size (written line ++ rest) = ([], true) := by
  have isScan : scanFrom size [] (line ++ newline :: rest) = _ :=
    scanFrom_of_long [] solid positive long
  simpa [written, scan] using isScan

/-- Lines shorter than the buffer are read back. -/
theorem scan_written {lines : List Bytes} (solid : ∀ line ∈ lines, Solid line)
    (short : ∀ line ∈ lines, line.length < size) (rest : Bytes) :
    scan size (lines.flatMap written ++ rest) =
      (lines ++ (scan size rest).1, (scan size rest).2) := by
  induction lines with
  | nil => rfl
  | cons line later ih =>
      rw [List.flatMap_cons, List.append_assoc,
        scan_of_short (solid line List.mem_cons_self) (short line List.mem_cons_self),
        ih (fun other isThere => solid other (List.mem_cons_of_mem line isThere))
          fun other isThere => short other (List.mem_cons_of_mem line isThere)]
      rfl

end LineScanner

end Aa.Library
