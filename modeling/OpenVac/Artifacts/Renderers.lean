/-
  File:      OpenVac/Artifacts/Renderers.lean
  Subject:   Tables as CSV and Markdown: server/artifacts/renderers.ts.

  * `csvCell`, `renderCsv` -- cells in quotes, formulas behind an apostrophe.
  * `markdownCell`, `markdownTable`, `renderMarkdown` -- the document, its tables by pipes.
  * `csvRecords`, `Neutralised` -- what a CSV file should hold.
  * `TableRows`, `breaksAsTags` -- what the lines of a Markdown table should hold.
-/
import OpenVac.Artifacts.Spec
import OpenVac.Lib.Csv
import OpenVac.Lib.PipeRows

namespace OpenVac.Artifacts

open CodePoints

/-! ## 1. Names of tables -/

/-- A number in a template. -/
def decimalPoints (n : Nat) : Points := (Nat.toDigits 10 n).map .scalar

/-- `表 ${index + 1}`. -/
def tableNumber (index : Nat) : Points := .scalar '表' :: .scalar ' ' :: decimalPoints (index + 1)

/-- `table.title ?? 表 n`. -/
def tableTitle (table : ArtifactTable) (index : Nat) : Points :=
  table.title.getD (tableNumber index)

/-! ## 2. CSV -/

/-- `[\t\r\n ]`. -/
def isFormulaBlank (c : CodePoint) : Bool := c == '\t' || c == '\r' || c == '\n' || c == ' '

/-- `[=+\-@]`. -/
def isFormulaSign (c : CodePoint) : Bool := c == '=' || c == '+' || c == '-' || c == '@'

/-- `/^[\t\r\n ]*[=+\-@]/u.test(value)`. -/
def startsFormula (value : Points) : Bool := (value.dropWhile isFormulaBlank).head?.any isFormulaSign

def safeValue (value : Points) : Points :=
  if startsFormula value then .scalar '\'' :: value else value

def csvCell (value : Points) : Points :=
  .scalar '"' :: (replaceAll [.scalar '"'] [.scalar '"', .scalar '"'] (safeValue value) ++
    [.scalar '"'])

/-- The rows of a table: its title where the file has several. -/
def csvRows (tables : Nat) (table : ArtifactTable) (index : Nat) : List (List Points) :=
  (if tables > 1 then [[tableTitle table index]] else []) ++ (table.columns :: table.rows)

def csvChunk (rows : List (List Points)) : Points :=
  List.intercalate [.scalar '\r', .scalar '\n']
    (rows.map fun row => List.intercalate [.scalar ','] (row.map csvCell))

def byteOrderMark : CodePoint := .scalar '\uFEFF'

def renderCsv (spec : ArtifactSpec) : Points :=
  byteOrderMark :: (List.intercalate [.scalar '\r', .scalar '\n', .scalar '\r', .scalar '\n']
    (spec.tables.mapIdx fun index table => csvChunk (csvRows spec.tables.length table index)) ++
      [.scalar '\r', .scalar '\n'])

/-! ## 3. Markdown -/

/-- `<br>`. -/
def lineBreakTag : Points := [.scalar '<', .scalar 'b', .scalar 'r', .scalar '>']

def markdownCell (value : Points) : Points :=
  replaceAll [.scalar '\r'] lineBreakTag
    (replaceAll [.scalar '\n'] lineBreakTag
      (replaceAll [.scalar '\r', .scalar '\n'] lineBreakTag
        (replaceAll [.scalar '|'] [.scalar '\\', .scalar '|']
          (replaceAll [.scalar '\\'] [.scalar '\\', .scalar '\\'] value))))

/-- `| ${cells.map(markdownCell).join(" | ")} |`. -/
def markdownRow (cells : List Points) : Points :=
  .scalar '|' :: .scalar ' ' ::
    (List.intercalate [.scalar ' ', .scalar '|', .scalar ' '] (cells.map markdownCell) ++
      [.scalar ' ', .scalar '|'])

/-- `---`. -/
def columnRule : Points := [.scalar '-', .scalar '-', .scalar '-']

/-- The rows of a Markdown table: columns, rules, and the table's rows. -/
def markdownRows (table : ArtifactTable) : List (List Points) :=
  table.columns :: (table.columns.map fun _ => columnRule) :: table.rows

def markdownTable (table : ArtifactTable) : Points :=
  List.intercalate [.scalar '\n'] ((markdownRows table).map markdownRow)

def escapeMarkdownInline (value : Points) : Points :=
  replaceAll [.scalar '#'] [.scalar '\\', .scalar '#']
    (replaceAll [.scalar '\\'] [.scalar '\\', .scalar '\\'] value)

/-- `## ${escapeMarkdownInline(heading)}`. -/
def secondHeading (heading : Points) : Points :=
  .scalar '#' :: .scalar '#' :: .scalar ' ' :: escapeMarkdownInline heading

/-- The lines before the tables. -/
def openingLines (spec : ArtifactSpec) : List Points :=
  [.scalar '#' :: .scalar ' ' :: escapeMarkdownInline spec.title, [], spec.summary, []] ++
    spec.sections.flatMap fun part =>
      secondHeading part.heading :: [] :: part.paragraphs.flatMap fun paragraph => [paragraph, []]

/-- The lines of a table, the table itself one of them. -/
def tableLines (table : ArtifactTable) (index : Nat) : List Points :=
  [secondHeading (tableTitle table index), [], markdownTable table, []]

def renderMarkdown (spec : ArtifactSpec) : Points :=
  Points.trimEnd (List.intercalate [.scalar '\n']
    (openingLines spec ++ (spec.tables.mapIdx fun index table => tableLines table index).flatten)) ++
    [.scalar '\n']

/-! ## 4. What the files should hold -/

/-- A formula character, before it only tabs, CRs, LFs and blanks. -/
def StartsFormula (value : Points) : Prop :=
  ∃ blanks sign rest, value = blanks ++ sign :: rest ∧ isFormulaSign sign = true ∧
    ∀ c ∈ blanks, isFormulaBlank c = true

/-- The text of a cell, behind an apostrophe where it would start a formula. -/
def Neutralised (value cell : Points) : Prop :=
  (¬ StartsFormula value ∧ cell = value) ∨ (StartsFormula value ∧ cell = .scalar '\'' :: value)

/-- The records of a CSV file: titles, columns and rows, and the empty field between tables. -/
def csvRecords (spec : ArtifactSpec) : List (List Points) :=
  List.intercalate [[[]]]
    (spec.tables.mapIdx fun index table => csvRows spec.tables.length table index)

/-- The records of a file with a byte order mark. -/
def decodeCsv : Points → Option (List (List Points))
  | c :: file => if c = byteOrderMark then Csv.records file else none
  | [] => none

/-- A text with its line breaks, CR LF being one, as tags. -/
def breaksAsTags : Points → Points
  | [] => []
  | .scalar '\r' :: .scalar '\n' :: rest => lineBreakTag ++ breaksAsTags rest
  | .scalar '\r' :: rest => lineBreakTag ++ breaksAsTags rest
  | .scalar '\n' :: rest => lineBreakTag ++ breaksAsTags rest
  | c :: rest => c :: breaksAsTags rest

/-- One line that its unescaped pipes cut into that many cells, with those texts. -/
structure RowLine (columns : Nat) (cells : List Points) (line : Points) : Prop where
  oneLine : OneLine line
  pieces : PipeRows.splitPipes line = [] :: (PipeRows.cellPieces line ++ [[]])
  count : (PipeRows.cellPieces line).length = columns
  texts : PipeRows.rowCells line = cells.map breaksAsTags

/-- The lines of a table: one each for the columns, the rule and every row. -/
def TableRows (table : ArtifactTable) (lines : List Points) : Prop :=
  List.Forall₂ (RowLine table.columns.length) (markdownRows table) lines

end OpenVac.Artifacts
