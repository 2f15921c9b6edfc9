import Aa.Library.Fields
import Aa.Library.Grouping
import Aa.Sync.Revision

/-!
# What the digest of a replica identifies

The digest of a replica is taken over its records in the order of their paths, one on each
line, their fields separated by bars. Paths and hashes are written as they are, so that two
replicas have the same text exactly if the separators cut their fields into the same pieces.
A text belongs to one replica only if bars are kept out of the fields, or if what is written
in them cannot look like what the digest writes between them.
-/

namespace Aa.Sync.Revision

open Aa.Library

/-- The `%t` verb. -/
def formatBool (value : Bool) : String := if value then "true" else "false"

/-- The line of a record. -/
def line (record : RevisionRecord) : String :=
  record.path ++ "|" ++ Go.itoa record.revision ++ "|" ++ record.hash ++ "|" ++
    formatBool record.deleted ++ "\n"

namespace Set

/-- The records sorted by path. -/
def recordList (set : Set) : List RevisionRecord :=
  sortBy RevisionRecord.path (set.records.entries.map Sigma.snd)

/-- The text that the digest is taken over. -/
def digestText (set : Set) : String := String.join (set.recordList.map line)

/-- A digest of the replica contents. -/
def digest (hash : String → String) (set : Set) : String := hash set.digestText

end Set

/-- What a digest is to tell of a record. -/
def contents (record : RevisionRecord) : String × ℕ × String × Bool :=
  (record.path, record.revision, record.hash, record.deleted)

/-- Two replicas hold the same records. -/
def Set.SameRecords (first second : Set) : Prop :=
  ∀ path, (first.get path).map contents = (second.get path).map contents

/-- The fields of a record and the separators after them. -/
def fieldsOf (record : RevisionRecord) : List (List Char × Char) :=
  [(record.path.toList, '|'), ((Go.itoa record.revision).toList, '|'), (record.hash.toList, '|'),
    ((formatBool record.deleted).toList, '\n')]

/-- Whether a character separates fields or records. -/
def isSeparator (c : Char) : Bool := c = '|' || c = '\n'

/-- The pieces into which the separators cut the fields of a replica. -/
def Set.pieces (set : Set) : List (List Char × Char) :=
  Fields.pieces isSeparator (set.recordList.flatMap fieldsOf)

/-! ## The records of a replica -/

namespace Set

variable {first second : Set}

theorem recordList_filter (set : Set) (path : String) :
    set.recordList.filter (·.path = path) = (set.get path).toList := by
  rw [recordList, filter_sortBy]
  refine Grouping.filter_values set.records.nodupKeys fun entry isThere => ?_
  exact (set.keyed entry.1 entry.2 (AList.mem_lookup_iff.mpr isThere)).1

theorem contents_filter (set : Set) (path : String) :
    (set.recordList.map contents).filter (·.1 = path) = ((set.get path).map contents).toList := by
  rw [List.filter_map]
  have isFiltered := recordList_filter set path
  have asList : (set.recordList.filter ((fun told => decide (told.1 = path)) ∘ contents)).map
      contents = (set.get path).toList.map contents := by
    rw [← isFiltered]
    rfl
  rw [asList]
  cases set.get path <;> rfl

/-- Replicas hold the same records exactly if they list the same. -/
theorem sameRecords_iff :
    first.SameRecords second ↔
      first.recordList.map contents = second.recordList.map contents := by
  constructor
  · intro same
    have sorted : ∀ set : Set, (set.recordList.map contents).Pairwise
        fun left right => left.1 ≤ right.1 := by
      intro set
      rw [List.pairwise_map]
      exact sortBy_sorted _
    refine eq_of_sorted_of_filter (sorted first) (sorted second) fun path => ?_
    rw [contents_filter, contents_filter, same]
  · intro same path
    have filtered := contents_filter first path
    rw [same, contents_filter] at filtered
    simpa using (congrArg List.head? filtered).symm

end Set

/-! ## The text of the records -/

theorem line_toList (record : RevisionRecord) :
    (line record).toList = Fields.text (fieldsOf record) := by
  have bar : "|".toList = ['|'] := rfl
  have newline : "\n".toList = ['\n'] := rfl
  simp [line, fieldsOf, bar, newline]

theorem digestText_toList (set : Set) :
    set.digestText.toList = Fields.text (set.recordList.flatMap fieldsOf) := by
  rw [Set.digestText]
  induction set.recordList with
  | nil => rfl
  | cons record rest ih =>
      rw [List.map_cons, String.join_cons, String.toList_append, ih, line_toList,
        List.flatMap_cons, Fields.text_append]

theorem digestText_eq_iff {first second : Set} :
    first.digestText = second.digestText ↔
      Fields.text (first.recordList.flatMap fieldsOf) =
        Fields.text (second.recordList.flatMap fieldsOf) := by
  rw [← String.toList_inj, digestText_toList, digestText_toList]

theorem fieldsOf_ended (records : List RevisionRecord) :
    ∀ field ∈ records.flatMap fieldsOf, isSeparator field.2 = true := by
  intro field isThere
  rcases List.mem_flatMap.mp isThere with ⟨record, -, isField⟩
  simp only [fieldsOf, List.mem_cons, List.not_mem_nil, or_false] at isField
  rcases isField with rfl | rfl | rfl | rfl <;> rfl

/-- Two replicas have the same text exactly if their fields are cut into the same pieces. -/
theorem digestText_eq_iff_pieces {first second : Set} :
    first.digestText = second.digestText ↔ first.pieces = second.pieces := by
  rw [digestText_eq_iff]
  exact Fields.text_eq_iff (fieldsOf_ended _) (fieldsOf_ended _)

/-- The contents of a record are known from its fields. -/
theorem fieldsOf_congr {first second : RevisionRecord} (same : contents first = contents second) :
    fieldsOf first = fieldsOf second := by
  simp only [contents, Prod.mk.injEq] at same
  rcases same with ⟨path, revision, hash, deleted⟩
  rw [fieldsOf, fieldsOf, path, revision, hash, deleted]

theorem digestText_of_sameRecords {first second : Set} (same : first.SameRecords second) :
    first.digestText = second.digestText := by
  have lists := Set.sameRecords_iff.mp same
  rw [digestText_eq_iff]
  generalize first.recordList = left at lists
  generalize second.recordList = right at lists
  induction left generalizing right with
  | nil => rw [List.map_eq_nil_iff.mp lists.symm]
  | cons record rest ih =>
      cases right with
      | nil => cases lists
      | cons other later =>
          rcases List.cons.inj lists with ⟨sameRecord, sameRest⟩
          rw [List.flatMap_cons, List.flatMap_cons, Fields.text_append, Fields.text_append,
            fieldsOf_congr sameRecord, ih later sameRest]

/-! ## Which texts are read back -/

/-- The end of a line: the deleted flag and the newline. -/
def flagLine (deleted : Bool) : List Char := (formatBool deleted).toList ++ ['\n']

theorem bar_notMem_flagLine (deleted : Bool) : '|' ∉ flagLine deleted := by
  cases deleted <;> simp [flagLine, formatBool]

theorem flagLine_inj {deleted other : Bool} {rest later : List Char}
    (same : flagLine deleted ++ rest = flagLine other ++ later) :
    deleted = other ∧ rest = later := by
  cases deleted <;> cases other <;> simp_all [flagLine, formatBool]

theorem text_fieldsOf_append (record : RevisionRecord) (rest : List Char) :
    Fields.text (fieldsOf record) ++ rest =
      record.path.toList ++ '|' :: ((Go.itoa record.revision).toList ++ '|' ::
        (record.hash.toList ++ '|' :: (flagLine record.deleted ++ rest))) := by
  simp [fieldsOf, flagLine]

theorem bar_notMem_itoa (revision : ℕ) : '|' ∉ (Go.itoa revision).toList := fun isThere =>
  absurd (Fields.isDigit_itoa isThere) (by decide)

theorem newline_notMem_itoa (revision : ℕ) : '\n' ∉ (Go.itoa revision).toList := fun isThere =>
  absurd (Fields.isDigit_itoa isThere) (by decide)

section Step

variable {record other : RevisionRecord} {rest later : List Char}

/-- Without bars in paths and hashes a line is read back. -/
theorem contents_of_barless
    (barless : '|' ∉ record.path.toList ∧ '|' ∉ record.hash.toList)
    (otherBarless : '|' ∉ other.path.toList ∧ '|' ∉ other.hash.toList)
    (same : Fields.text (fieldsOf record) ++ rest = Fields.text (fieldsOf other) ++ later) :
    contents record = contents other ∧ rest = later := by
  rw [text_fieldsOf_append, text_fieldsOf_append] at same
  rcases Go.append_cons_inj barless.1 otherBarless.1 same with ⟨path, afterPath⟩
  rcases Go.append_cons_inj (bar_notMem_itoa _) (bar_notMem_itoa _) afterPath with
    ⟨revision, afterRevision⟩
  rcases Go.append_cons_inj barless.2 otherBarless.2 afterRevision with ⟨hash, afterHash⟩
  rcases flagLine_inj afterHash with ⟨deleted, sameRest⟩
  refine ⟨?_, sameRest⟩
  simp only [contents, String.toList_inj.mp path, Fields.itoa_inj revision,
    String.toList_inj.mp hash, deleted]

/-- Without newlines in paths, and bars and newlines in hashes, a line is read back from its
end. -/
theorem contents_of_lined
    (lined : '\n' ∉ record.path.toList ∧ '|' ∉ record.hash.toList ∧ '\n' ∉ record.hash.toList)
    (otherLined : '\n' ∉ other.path.toList ∧ '|' ∉ other.hash.toList ∧ '\n' ∉ other.hash.toList)
    (same : Fields.text (fieldsOf record) ++ rest = Fields.text (fieldsOf other) ++ later) :
    contents record = contents other ∧ rest = later := by
  have asLine : ∀ (each : RevisionRecord) (after : List Char),
      Fields.text (fieldsOf each) ++ after =
        (((each.path.toList ++ '|' :: (Go.itoa each.revision).toList) ++ '|' :: each.hash.toList) ++
          '|' :: (formatBool each.deleted).toList) ++ '\n' :: after := by
    intro each after
    simp [text_fieldsOf_append, flagLine]
  have flagPlain : ∀ deleted, '|' ∉ (formatBool deleted).toList ∧
      '\n' ∉ (formatBool deleted).toList := by
    intro deleted
    cases deleted <;> simp [formatBool]
  have linePlain : ∀ each : RevisionRecord, '\n' ∉ each.path.toList →
      '\n' ∉ each.hash.toList → '\n' ∉ (((each.path.toList ++ '|' ::
        (Go.itoa each.revision).toList) ++ '|' :: each.hash.toList) ++
          '|' :: (formatBool each.deleted).toList) := by
    intro each plainPath plainHash
    have plainRevision := newline_notMem_itoa each.revision
    have plainFlag := (flagPlain each.deleted).2
    simp [plainPath, plainHash, plainRevision, plainFlag]
  rw [asLine, asLine] at same
  rcases Go.append_cons_inj (linePlain record lined.1 lined.2.2)
    (linePlain other otherLined.1 otherLined.2.2) same with ⟨sameLine, sameRest⟩
  rcases Fields.append_inj_of_last (flagPlain _).1 (flagPlain _).1 sameLine with
    ⟨beforeFlag, flag⟩
  rcases Fields.append_inj_of_last lined.2.1 otherLined.2.1 beforeFlag with ⟨beforeHash, hash⟩
  rcases Fields.append_inj_of_last (bar_notMem_itoa _) (bar_notMem_itoa _) beforeHash with
    ⟨path, revision⟩
  have deleted : record.deleted = other.deleted := by
    have sameEnd : flagLine record.deleted ++ [] = flagLine other.deleted ++ [] := by
      rw [flagLine, flagLine, flag]
    exact (flagLine_inj sameEnd).1
  refine ⟨?_, sameRest⟩
  simp only [contents, String.toList_inj.mp path, Fields.itoa_inj revision,
    String.toList_inj.mp hash, deleted]

/-- A hash that lacks a character of the end of every line ends where the line says. -/
theorem hash_inj {hash otherHash : List Char} {deleted otherDeleted : Bool}
    (lacks : ∃ c ∈ flagLine deleted, c ∉ otherHash)
    (same : hash ++ '|' :: (flagLine deleted ++ rest) =
      otherHash ++ '|' :: (flagLine otherDeleted ++ later)) : otherHash <+: hash := by
  rcases List.append_eq_append_iff.mp same with ⟨more, isOther, isRest⟩ | ⟨more, isHash, -⟩
  · cases more with
    | nil => exact ⟨[], by rw [List.append_nil, isOther, List.append_nil]⟩
    | cons bar more =>
        exfalso
        have afterBar := (List.cons.inj isRest).2
        -- The other hash reaches behind the bar, and must then hold the end of the line.
        rcases List.append_eq_append_iff.mp afterBar with
          ⟨further, isMore, -⟩ | ⟨further, isEnd, isFurther⟩
        · rcases lacks with ⟨c, isThere, isLacking⟩
          refine isLacking ?_
          rw [isOther, isMore]
          simp [isThere]
        · cases further with
          | nil =>
              rcases lacks with ⟨c, isThere, isLacking⟩
              refine isLacking ?_
              rw [isEnd, List.append_nil] at isThere
              rw [isOther]
              simp [isThere]
          | cons c further =>
              have isBar : '|' = c := (List.cons.inj isFurther).1
              refine bar_notMem_flagLine deleted ?_
              rw [isEnd, isBar]
              simp
  · exact ⟨more, isHash.symm⟩

/-- Without digits in paths and hashes, and without all characters that end a line, a line is
read back. -/
theorem contents_of_digitless
    (digitless : ∀ c ∈ record.path.toList, c.isDigit = false)
    (otherDigitless : ∀ c ∈ other.path.toList, c.isDigit = false)
    (lacks : ∀ deleted, ∃ c ∈ flagLine deleted, c ∉ record.hash.toList ∧ c ∉ other.hash.toList)
    (same : Fields.text (fieldsOf record) ++ rest = Fields.text (fieldsOf other) ++ later) :
    contents record = contents other ∧ rest = later := by
  rw [text_fieldsOf_append, text_fieldsOf_append] at same
  have notBar : ∀ chars : List Char, (∀ c ∈ chars, c.isDigit = false) →
      ∀ c ∈ chars ++ ['|'], ¬ c.isDigit = true := by
    intro chars areNot c isThere
    rcases List.mem_append.mp isThere with isChar | isBar
    · simp [areNot c isChar]
    · rw [List.mem_singleton.mp isBar]
      decide
  -- The first digit begins the revision.
  obtain ⟨digit, digits, isRevision⟩ := List.exists_cons_of_ne_nil (Fields.itoa_ne_nil record.revision)
  obtain ⟨otherDigit, otherDigits, isOtherRevision⟩ :=
    List.exists_cons_of_ne_nil (Fields.itoa_ne_nil other.revision)
  have isDigit : digit.isDigit = true := Fields.isDigit_itoa (by rw [isRevision]; simp)
  have isOtherDigit : otherDigit.isDigit = true :=
    Fields.isDigit_itoa (by rw [isOtherRevision]; simp)
  have regrouped : (record.path.toList ++ ['|']) ++ digit :: (digits ++ '|' ::
      (record.hash.toList ++ '|' :: (flagLine record.deleted ++ rest))) =
        (other.path.toList ++ ['|']) ++ otherDigit :: (otherDigits ++ '|' ::
          (other.hash.toList ++ '|' :: (flagLine other.deleted ++ later))) := by
    rw [isRevision, isOtherRevision] at same
    simpa using same
  rcases Fields.append_inj_of_first (·.isDigit = true) (notBar _ digitless)
    (notBar _ otherDigitless) isDigit isOtherDigit regrouped with ⟨paths, sameDigit, afterDigit⟩
  have path : record.path.toList = other.path.toList := (List.append_left_inj _).mp paths
  have barless : '|' ∉ digits := fun isThere =>
    bar_notMem_itoa record.revision (by rw [isRevision]; exact List.mem_cons_of_mem _ isThere)
  have otherBarless : '|' ∉ otherDigits := fun isThere =>
    bar_notMem_itoa other.revision (by rw [isOtherRevision]; exact List.mem_cons_of_mem _ isThere)
  rcases Go.append_cons_inj barless otherBarless afterDigit with ⟨sameDigits, afterRevision⟩
  have revision : record.revision = other.revision := by
    refine Fields.itoa_inj ?_
    rw [isRevision, isOtherRevision, sameDigit, sameDigits]
  -- Neither hash reaches behind the end of the other one.
  rcases lacks record.deleted with ⟨c, isThere, -, isLacking⟩
  have shorter := hash_inj ⟨c, isThere, isLacking⟩ afterRevision
  rcases lacks other.deleted with ⟨d, isOther, isOtherLacking, -⟩
  have longer := hash_inj ⟨d, isOther, isOtherLacking⟩ afterRevision.symm
  have hash : record.hash.toList = other.hash.toList :=
    longer.eq_of_length_le shorter.length_le
  rw [hash] at afterRevision
  rcases flagLine_inj (List.cons.inj (List.append_cancel_left afterRevision)).2 with
    ⟨deleted, sameRest⟩
  refine ⟨?_, sameRest⟩
  simp only [contents, String.toList_inj.mp path, revision, String.toList_inj.mp hash, deleted]

end Step

/-! ## Which characters may stand in paths and hashes -/

namespace Set

/-- The paths and hashes of a replica are written with the allowed characters. -/
def Over (allowed : Char → Prop) (set : Set) : Prop :=
  ∀ record ∈ set.recordList, ∀ c ∈ record.path.toList ++ record.hash.toList, allowed c

/-- No path holds a newline, and no hash a newline or a bar. -/
def Lined (set : Set) : Prop :=
  ∀ record ∈ set.recordList,
    '\n' ∉ record.path.toList ∧ '|' ∉ record.hash.toList ∧ '\n' ∉ record.hash.toList

end Set

/-- What is written with the allowed characters cannot look like a part of a line: no bar is
allowed, or no digit is and of each end of a line some character is not. -/
def Separable (allowed : Char → Prop) : Prop :=
  ¬ allowed '|' ∨
    (∀ c, c.isDigit = true → ¬ allowed c) ∧ ∀ deleted, ∃ c ∈ flagLine deleted, ¬ allowed c

theorem sameRecords_of_separable {allowed : Char → Prop} (separable : Separable allowed)
    {first second : Set} (firstOver : first.Over allowed) (secondOver : second.Over allowed)
    (same : first.digestText = second.digestText) : first.SameRecords second := by
  rw [Set.sameRecords_iff]
  refine Fields.map_eq_of_text (fun record : RevisionRecord =>
    ∀ c ∈ record.path.toList ++ record.hash.toList, allowed c) (fun _ => List.cons_ne_nil _ _) ?_
    firstOver secondOver (digestText_eq_iff.mp same)
  intro record other rest later known otherKnown _ _ sameText
  rcases separable with barless | ⟨digitless, lacks⟩
  · exact contents_of_barless
      ⟨fun isThere => barless (known _ (List.mem_append_left _ isThere)),
        fun isThere => barless (known _ (List.mem_append_right _ isThere))⟩
      ⟨fun isThere => barless (otherKnown _ (List.mem_append_left _ isThere)),
        fun isThere => barless (otherKnown _ (List.mem_append_right _ isThere))⟩ sameText
  · refine contents_of_digitless ?_ ?_ ?_ sameText
    · intro c isThere
      by_contra isDigit
      exact digitless c (by simpa using isDigit) (known c (List.mem_append_left _ isThere))
    · intro c isThere
      by_contra isDigit
      exact digitless c (by simpa using isDigit) (otherKnown c (List.mem_append_left _ isThere))
    · intro deleted
      rcases lacks deleted with ⟨c, isThere, isLacking⟩
      exact ⟨c, isThere, fun isHash => isLacking (known c (List.mem_append_right _ isHash)),
        fun isHash => isLacking (otherKnown c (List.mem_append_right _ isHash))⟩

theorem sameRecords_of_lined {first second : Set} (firstLined : first.Lined)
    (secondLined : second.Lined) (same : first.digestText = second.digestText) :
    first.SameRecords second := by
  rw [Set.sameRecords_iff]
  exact Fields.map_eq_of_text _ (fun _ => List.cons_ne_nil _ _)
    (fun _ _ _ _ lined otherLined _ _ => contents_of_lined lined otherLined) firstLined
    secondLined (digestText_eq_iff.mp same)

/-! ## Replicas that share a text -/

section Shared

variable {record other : RevisionRecord}

theorem recordList_single (pathed : record.path ≠ "") :
    (Set.empty.insert record pathed).recordList = [record] := rfl

/-- The replica of two records with different paths. -/
def pair (record other : RevisionRecord) (pathed : record.path ≠ "") (otherPathed : other.path ≠ "") :
    Set :=
  (Set.empty.insert record pathed).insert other otherPathed

theorem recordList_pair (pathed : record.path ≠ "") (otherPathed : other.path ≠ "")
    (below : record.path < other.path) :
    (pair record other pathed otherPathed).recordList = [record, other] := by
  have notThere : other.path ∉ (Set.empty.insert record pathed).records := by
    simp only [Set.insert, Set.empty, AList.mem_insert]
    rintro (isSame | isThere)
    · exact below.ne' isSame
    · exact AList.notMem_empty _ isThere
  have entries : (pair record other pathed otherPathed).records.entries =
      [⟨other.path, other⟩, ⟨record.path, record⟩] :=
    AList.entries_insert_of_notMem notThere
  rw [Set.recordList, entries]
  have notBelow : ¬ other.path ≤ record.path := not_le_of_gt below
  simp [sortBy, notBelow]

/-- Two records with different paths and revisions but one line. -/
def shifted (digit : Char) (revision : ℕ) : RevisionRecord × RevisionRecord :=
  ({ id := "", path := String.ofList [digit], revision := revision
     hash := String.ofList [digit, '|'] },
    { id := "", path := String.ofList [digit, '|', digit], revision := revision })

theorem text_shifted {digit : Char} {revision : ℕ}
    (isDigit : (Go.itoa revision).toList = [digit]) :
    Fields.text (fieldsOf (shifted digit revision).1) =
      Fields.text (fieldsOf (shifted digit revision).2) := by
  simp [fieldsOf, shifted, isDigit]

theorem exists_itoa_of_isDigit {c : Char} (isDigit : c.isDigit = true) :
    ∃ revision : ℕ, (Go.itoa revision).toList = [c] := by
  have bounds : 48 ≤ c.toNat ∧ c.toNat ≤ 57 := by
    simpa [Char.isDigit, UInt32.le_iff_toNat_le] using isDigit
  refine ⟨c.toNat - 48, ?_⟩
  have digits : ∀ value < 10, value.digitChar = Char.ofNat (value + 48) := by decide
  rw [Fields.toList_itoa, Nat.toDigits_of_lt_base (by omega), digits _ (by omega),
    Nat.sub_add_cancel bounds.1, Char.ofNat_toNat]

/-- The letter with which a flag begins. -/
def initial (deleted : Bool) : Char := if deleted then 't' else 'f'

/-- Two records, the second of which has the end of a line in its path. -/
def splitPath (deleted : Bool) : RevisionRecord × RevisionRecord :=
  ({ id := "", path := "e", revision := 1, deleted := deleted },
    { id := "", path := String.ofList ('|' :: (flagLine deleted ++ [initial deleted])), revision := 1 })

/-- Two records, the first of which has the end of a line in its hash. -/
def splitHash (deleted : Bool) : RevisionRecord × RevisionRecord :=
  ({ id := "", path := "e", revision := 1, hash := String.ofList ('|' :: flagLine deleted)
     deleted := deleted },
    { id := "", path := String.ofList [initial deleted], revision := 1 })

theorem text_split (deleted : Bool) :
    Fields.text (fieldsOf (splitPath deleted).1 ++ fieldsOf (splitPath deleted).2) =
      Fields.text (fieldsOf (splitHash deleted).1 ++ fieldsOf (splitHash deleted).2) := by
  cases deleted <;> simp [fieldsOf, splitPath, splitHash, flagLine]

theorem splitPath_lt (deleted : Bool) : (splitPath deleted).1.path < (splitPath deleted).2.path := by
  cases deleted <;> decide

theorem splitHash_lt (deleted : Bool) : (splitHash deleted).1.path < (splitHash deleted).2.path := by
  cases deleted <;> decide

/-- With a bar and a digit, two replicas of one record share a text. -/
theorem shares_of_digit {allowed : Char → Prop} {digit : Char} (bar : allowed '|')
    (isDigit : digit.isDigit = true) (isAllowed : allowed digit) :
    ∃ first second : Set, first.Over allowed ∧ second.Over allowed ∧
      first.digestText = second.digestText ∧ ¬ first.SameRecords second := by
  rcases exists_itoa_of_isDigit isDigit with ⟨revision, isRevision⟩
  have pathed : (shifted digit revision).1.path ≠ "" := by simp [shifted]
  have otherPathed : (shifted digit revision).2.path ≠ "" := by simp [shifted]
  refine ⟨Set.empty.insert _ pathed, Set.empty.insert _ otherPathed, ?_, ?_, ?_, ?_⟩
  · intro record isThere
    rw [recordList_single, List.mem_singleton] at isThere
    rw [isThere]
    simp [shifted, bar, isAllowed]
  · intro record isThere
    rw [recordList_single, List.mem_singleton] at isThere
    rw [isThere]
    simp [shifted, bar, isAllowed]
  · rw [digestText_eq_iff, recordList_single, recordList_single, List.flatMap_singleton,
      List.flatMap_singleton]
    exact text_shifted isRevision
  · intro same
    have lists := Set.sameRecords_iff.mp same
    rw [recordList_single, recordList_single] at lists
    simp [shifted, contents] at lists

/-- With a bar and the characters of an end of a line, two replicas of two records share a
text. -/
theorem shares_of_flagLine {allowed : Char → Prop} {deleted : Bool} (bar : allowed '|')
    (ends : ∀ c ∈ flagLine deleted, allowed c) :
    ∃ first second : Set, first.Over allowed ∧ second.Over allowed ∧
      first.digestText = second.digestText ∧ ¬ first.SameRecords second := by
  have isInitial : allowed (initial deleted) := ends _ (by cases deleted <;> decide)
  have isFirst : allowed 'e' := ends _ (by cases deleted <;> decide)
  have pathed : (splitPath deleted).1.path ≠ "" ∧ (splitPath deleted).2.path ≠ "" := by
    simp [splitPath]
  have otherPathed : (splitHash deleted).1.path ≠ "" ∧ (splitHash deleted).2.path ≠ "" := by
    simp [splitHash]
  have list := recordList_pair pathed.1 pathed.2 (splitPath_lt deleted)
  have otherList := recordList_pair otherPathed.1 otherPathed.2 (splitHash_lt deleted)
  refine ⟨pair _ _ pathed.1 pathed.2, pair _ _ otherPathed.1 otherPathed.2, ?_, ?_, ?_, ?_⟩
  · rw [Set.Over, list]
    simp only [List.forall_mem_cons, List.not_mem_nil, false_implies, implies_true, and_true]
    simp [splitPath, bar, isFirst, isInitial, or_imp, forall_and]
    exact ends
  · rw [Set.Over, otherList]
    simp only [List.forall_mem_cons, List.not_mem_nil, false_implies, implies_true, and_true]
    simp [splitHash, bar, isFirst, isInitial, or_imp, forall_and]
    exact ends
  · rw [digestText_eq_iff, list, otherList]
    simpa using text_split deleted
  · intro same
    have lists := Set.sameRecords_iff.mp same
    rw [list, otherList] at lists
    simp [splitPath, splitHash, contents] at lists

end Shared

/-- The text of a replica tells its records exactly as far as its pieces do; it does so for
replicas without newlines in paths and without bars and newlines in hashes, and for all
replicas written with some characters exactly if these cannot look like a part of a line. -/
theorem digestText_identifies_iff (first second : Set) (allowed : Char → Prop) :
    ((first.digestText = second.digestText ↔ first.SameRecords second) ↔
      (first.pieces = second.pieces → first.SameRecords second)) ∧
    (first.Lined → second.Lined →
      (first.digestText = second.digestText ↔ first.SameRecords second)) ∧
    ((∀ replica other : Set, replica.Over allowed → other.Over allowed →
        (replica.digestText = other.digestText ↔ replica.SameRecords other)) ↔
      Separable allowed) := by
  refine ⟨?_, fun firstLined secondLined => ?_, ?_⟩
  · rw [digestText_eq_iff_pieces]
    refine ⟨fun tells => tells.mp, fun known => ⟨known, fun same => ?_⟩⟩
    exact digestText_eq_iff_pieces.mp (digestText_of_sameRecords same)
  · exact ⟨sameRecords_of_lined firstLined secondLined, digestText_of_sameRecords⟩
  · constructor
    · intro identifies
      by_contra unseparable
      have shared : ∃ replica other : Set, replica.Over allowed ∧ other.Over allowed ∧
          replica.digestText = other.digestText ∧ ¬ replica.SameRecords other := by
        rw [Separable, not_or, not_not, not_and_or] at unseparable
        rcases unseparable with ⟨bar, someDigit | someEnd⟩
        · push Not at someDigit
          rcases someDigit with ⟨digit, isDigit, isAllowed⟩
          exact shares_of_digit bar isDigit isAllowed
        · push Not at someEnd
          rcases someEnd with ⟨deleted, ends⟩
          exact shares_of_flagLine bar ends
      rcases shared with ⟨replica, other, isOver, otherOver, sameText, different⟩
      exact different ((identifies replica other isOver otherOver).mp sameText)
    · intro separable replica other isOver otherOver
      exact ⟨sameRecords_of_separable separable isOver otherOver, digestText_of_sameRecords⟩

/-- A record whose path looks like a record and the beginning of another one. -/
def barredRecord : RevisionRecord := { id := "", path := "a|1|h|false\nb", revision := 1, hash := "h" }

def plainRecord (path : String) : RevisionRecord :=
  { id := "", path := path, revision := 1, hash := "h" }

/-- A replica of one record has the text of a replica of two. -/
theorem barredRecord_shares :
    ∃ first second : Set, Set.empty.put barredRecord = .ok first ∧
      ((Set.empty.put (plainRecord "a")).bind fun set => set.put (plainRecord "b")) = .ok second ∧
      first.digestText = second.digestText ∧ ¬ first.SameRecords second := by
  have pathed : barredRecord.path ≠ "" := by decide
  have one : (Go.itoa 1).toList = ['1'] := Fields.toList_itoa 1
  refine ⟨Set.empty.insert barredRecord pathed,
    pair (plainRecord "a") (plainRecord "b") (by decide) (by decide), rfl, rfl, ?_, ?_⟩
  · rw [digestText_eq_iff, recordList_single, recordList_pair _ _ (by decide)]
    simp [fieldsOf, barredRecord, plainRecord, formatBool, one]
  · intro same
    have lists := Set.sameRecords_iff.mp same
    rw [recordList_single, recordList_pair _ _ (by decide)] at lists
    simp at lists

end Aa.Sync.Revision
