/-
  File:      OpenVac/Artifacts/Spec.lean
  Subject:   Artifact specifications: `artifactSpecSchema` of server/chat-v3/contracts.ts and
             `parseArtifactSpec` of server/artifacts/validation.ts.

  * `artifactSpecSchema` -- the checks on a value of the right shape, and its trimmed form.
  * `parseArtifactSpec` -- the schema, the limit on the whole text and the control characters.
  * `Accepted`, `wellFormed_of_accepted` -- what is accepted and what is known of it.
-/
import OpenVac.Lib.CodePoints

namespace OpenVac.Artifacts

/-! ## 1. Specifications -/

inductive ArtifactKind where
  | diagnosis_report
  | selection_report
  | inspection_checklist
  | parameter_table
  deriving DecidableEq, Repr

inductive ArtifactFormat where
  | md
  | docx
  | pdf
  | csv
  deriving DecidableEq, Repr

structure ArtifactSection where
  heading : Points
  paragraphs : List Points
  deriving DecidableEq

structure ArtifactTable where
  title : Option Points
  columns : List Points
  rows : List (List Points)
  deriving DecidableEq

structure ArtifactSpec where
  kind : ArtifactKind
  title : Points
  formats : List ArtifactFormat
  summary : Points
  sections : List ArtifactSection
  tables : List ArtifactTable
  sourceTurnId : Points
  deriving DecidableEq

/-- The host's `toLocaleLowerCase("zh-CN")`. -/
class LowerCaseTable where
  toLocaleLowerCase : Points → Points

/-- `/[\u0000-\u0008\u000b\u000c\u000e-\u001f\u007f]/u`. -/
def isDisallowedControl (n : Nat) : Bool :=
  decide (n ≤ 0x08) || n == 0x0B || n == 0x0C || (decide (0x0E ≤ n) && decide (n ≤ 0x1F)) ||
    n == 0x7F

/-- `DISALLOWED_CONTROL_CHARACTERS.test(s)`. -/
def hasControlCharacter (s : Points) : Bool := s.any fun c => isDisallowedControl c.toNat

/-- `z.string().uuid()`. -/
class UuidFormat where
  isUuid : Points → Bool

section Schema

variable [LowerCaseTable] [UuidFormat]

/-! ## 2. The schema -/

/-- `z.string().trim().min(1).max(max)`. -/
def boundedText (max : Nat) (s : Points) : Option Points :=
  if 1 ≤ Points.length (Points.trim s) ∧ Points.length (Points.trim s) ≤ max then
    some (Points.trim s)
  else none

/-- `z.string().max(10_000)`. -/
def cellText (s : Points) : Option Points := if Points.length s ≤ 10000 then some s else none

/-- `z.array(item).min(min).max(max)`. -/
def boundedArray {α : Type} (min max : Nat) (item : α → Option α) (items : List α) :
    Option (List α) :=
  if min ≤ items.length ∧ items.length ≤ max then items.mapM item else none

def uuidText (s : Points) : Option Points := if UuidFormat.isUuid s then some s else none

def artifactTableSchema (table : ArtifactTable) : Option ArtifactTable := do
  return {
    title := ← table.title.mapM (boundedText 240)
    columns := ← boundedArray 1 32 (boundedText 240) table.columns
    rows := ← boundedArray 1 2000 (boundedArray 1 32 cellText) table.rows }

def artifactSectionSchema (part : ArtifactSection) : Option ArtifactSection := do
  return {
    heading := ← boundedText 240 part.heading
    paragraphs := ← boundedArray 1 100 (boundedText 10000) part.paragraphs }

def artifactSpecBaseSchema (spec : ArtifactSpec) : Option ArtifactSpec := do
  return {
    kind := spec.kind
    title := ← boundedText 240 spec.title
    formats := ← boundedArray 1 4 some spec.formats
    summary := ← boundedText 2000 spec.summary
    sections := ← boundedArray 0 64 artifactSectionSchema spec.sections
    tables := ← boundedArray 0 32 artifactTableSchema spec.tables
    sourceTurnId := ← uuidText spec.sourceTurnId }

/-- Columns that differ in more than case, and rows of their number. -/
def tableMatches (table : ArtifactTable) : Bool :=
  decide (table.columns.map LowerCaseTable.toLocaleLowerCase).Nodup &&
    table.rows.all fun row => row.length == table.columns.length

/-- The refinements of the whole. -/
def specMatches (spec : ArtifactSpec) : Bool :=
  decide spec.formats.Nodup &&
    !(spec.sections.isEmpty && spec.tables.isEmpty) &&
    !(spec.formats.contains .csv && spec.tables.isEmpty) &&
    !(spec.kind == .parameter_table && spec.tables.isEmpty) &&
    spec.tables.all tableMatches

def artifactSpecSchema (input : ArtifactSpec) : Option ArtifactSpec :=
  (artifactSpecBaseSchema input).bind fun spec => if specMatches spec then some spec else none

/-! ## 3. Validation -/

def MAX_ARTIFACT_TEXT_CHARACTERS : Nat := 2000000

/-- A table's title counts where it is not empty. -/
def collectArtifactStrings (spec : ArtifactSpec) : List Points :=
  spec.title :: spec.summary ::
    (spec.sections.flatMap (fun part => part.heading :: part.paragraphs) ++
      spec.tables.flatMap fun table =>
        (table.title.filter fun title => decide (0 < Points.length title)).toList ++
          (table.columns ++ table.rows.flatten))

inductive ArtifactSpecIssue where
  /-- The issues of the schema library. -/
  | schema
  /-- `spec: artifact text exceeds 2000000 characters`. -/
  | tooLong
  /-- `spec: disallowed control character in text item n`. -/
  | controlCharacter (item : Nat)
  deriving DecidableEq

/-- `parseArtifactSpec` of a value whose fields have the right types and no others. -/
def parseArtifactSpec (input : ArtifactSpec) : Except ArtifactSpecIssue (ArtifactSpec) :=
  match artifactSpecSchema input with
  | none => .error .schema
  | some spec =>
      if ((collectArtifactStrings spec).map Points.length).sum > MAX_ARTIFACT_TEXT_CHARACTERS then
        .error .tooLong
      else
        match (collectArtifactStrings spec).findIdx? hasControlCharacter with
        | some item => .error (.controlCharacter item)
        | none => .ok spec

/-! ## 4. What is accepted -/

/-- A specification that some value is parsed to. -/
def Accepted (spec : ArtifactSpec) : Prop := ∃ input, parseArtifactSpec input = .ok spec

theorem parse_eq_ok_iff {input spec : ArtifactSpec} :
    parseArtifactSpec input = .ok spec ↔
      artifactSpecSchema input = some spec ∧
        ((collectArtifactStrings spec).map Points.length).sum ≤ MAX_ARTIFACT_TEXT_CHARACTERS ∧
        ∀ s ∈ collectArtifactStrings spec, hasControlCharacter s = false := by
  unfold parseArtifactSpec
  cases hschema : artifactSpecSchema input with
  | none => exact ⟨(fun h => nomatch h), fun h => nomatch h.1⟩
  | some found =>
    dsimp only
    by_cases hlong : ((collectArtifactStrings found).map Points.length).sum >
        MAX_ARTIFACT_TEXT_CHARACTERS
    · rw [if_pos hlong]
      constructor
      · intro h
        nomatch h
      · rintro ⟨hfound, hle, -⟩
        obtain rfl := Option.some.inj hfound
        omega
    · rw [if_neg hlong]
      cases hcontrol : (collectArtifactStrings found).findIdx? hasControlCharacter with
      | some item =>
        constructor
        · intro h
          nomatch h
        · rintro ⟨hfound, -, hall⟩
          obtain rfl := Option.some.inj hfound
          rw [List.findIdx?_eq_none_iff.mpr hall] at hcontrol
          nomatch hcontrol
      | none =>
        have hall := List.findIdx?_eq_none_iff.mp hcontrol
        constructor
        · intro h
          obtain rfl := Except.ok.inj h
          exact ⟨rfl, by omega, hall⟩
        · rintro ⟨hfound, -, -⟩
          rw [Option.some.inj hfound]

omit [LowerCaseTable] [UuidFormat] in
/-- Every item of an accepted array is one that its schema yields. -/
theorem boundedArray_spec {α : Type} {min max : Nat} {item : α → Option α} {items found : List α}
    (h : boundedArray min max item items = some found) :
    min ≤ found.length ∧ found.length ≤ max ∧ ∀ value ∈ found, ∃ a, item a = some value := by
  unfold boundedArray at h
  split at h
  · rename_i hbounds
    have hall : found.length = items.length ∧ ∀ value ∈ found, ∃ a, item a = some value := by
      clear hbounds
      induction items generalizing found with
      | nil =>
        rw [List.mapM_nil] at h
        obtain rfl := Option.some.inj h
        exact ⟨rfl, fun _ h => nomatch h⟩
      | cons a items ih =>
        rw [List.mapM_cons] at h
        obtain ⟨value, hvalue, hrest⟩ := Option.bind_eq_some_iff.mp h
        obtain ⟨rest, hmore, hfound⟩ := Option.bind_eq_some_iff.mp hrest
        obtain rfl := Option.some.inj hfound
        obtain ⟨hlength, hmem⟩ := ih hmore
        refine ⟨by rw [List.length_cons, hlength, List.length_cons], fun other hother => ?_⟩
        rcases List.mem_cons.mp hother with rfl | hother
        · exact ⟨a, hvalue⟩
        · exact hmem other hother
    obtain ⟨hlength, hmem⟩ := hall
    rw [hlength]
    exact ⟨hbounds.1, hbounds.2, hmem⟩
  · nomatch h

/-- What is known of an accepted specification. -/
structure WellFormed (spec : ArtifactSpec) : Prop where
  columns : ∀ table ∈ spec.tables, table.columns ≠ []
  rows : ∀ table ∈ spec.tables, ∀ row ∈ table.rows, row.length = table.columns.length
  plain : ∀ s ∈ collectArtifactStrings spec, hasControlCharacter s = false

/-- **An accepted specification** has tables with columns, rows of their number, and no
    disallowed control character. -/
theorem wellFormed_of_accepted {spec : ArtifactSpec} (h : Accepted spec) : WellFormed spec := by
  obtain ⟨input, hparse⟩ := h
  obtain ⟨hschema, -, hplain⟩ := parse_eq_ok_iff.mp hparse
  obtain ⟨base, hbase, hmatches⟩ := Option.bind_eq_some_iff.mp hschema
  obtain ⟨htrue, rfl⟩ : specMatches base = true ∧ base = spec := by
    split at hmatches
    · rename_i htrue
      exact ⟨htrue, Option.some.inj hmatches⟩
    · nomatch hmatches
  have htables : ∀ table ∈ base.tables, ∃ a, artifactTableSchema a = some table := by
    unfold artifactSpecBaseSchema at hbase
    obtain ⟨title, -, hbase⟩ := Option.bind_eq_some_iff.mp hbase
    obtain ⟨formats, -, hbase⟩ := Option.bind_eq_some_iff.mp hbase
    obtain ⟨summary, -, hbase⟩ := Option.bind_eq_some_iff.mp hbase
    obtain ⟨sections, -, hbase⟩ := Option.bind_eq_some_iff.mp hbase
    obtain ⟨tables, htables, hbase⟩ := Option.bind_eq_some_iff.mp hbase
    obtain ⟨turn, -, hbase⟩ := Option.bind_eq_some_iff.mp hbase
    rw [← Option.some.inj hbase]
    exact (boundedArray_spec htables).2.2
  unfold specMatches at htrue
  rw [Bool.and_eq_true] at htrue
  have hmatch := List.all_eq_true.mp htrue.2
  refine ⟨fun table htable => ?_, fun table htable row hrow => ?_, hplain⟩
  · obtain ⟨a, ha⟩ := htables table htable
    unfold artifactTableSchema at ha
    obtain ⟨title, -, ha⟩ := Option.bind_eq_some_iff.mp ha
    obtain ⟨columns, hcolumns, ha⟩ := Option.bind_eq_some_iff.mp ha
    obtain ⟨rows, -, ha⟩ := Option.bind_eq_some_iff.mp ha
    rw [← Option.some.inj ha]
    intro hnil
    have hone := (boundedArray_spec hcolumns).1
    rw [show columns = [] from hnil] at hone
    simp at hone
  · have htable := hmatch table htable
    unfold tableMatches at htable
    rw [Bool.and_eq_true] at htable
    exact beq_iff_eq.mp (List.all_eq_true.mp htable.2 row hrow)

end Schema

end OpenVac.Artifacts
