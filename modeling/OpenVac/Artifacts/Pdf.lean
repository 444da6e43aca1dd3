/-
  File:      OpenVac/Artifacts/Pdf.lean
  Subject:   The layout of a PDF document: server/artifacts/pdf.ts.

  * `Doubles`, `TextMeasure` -- the rounding of the host's numbers, and the widths of texts.
  * `wrapText` -- the lines of a text.
  * `writeText`, `writeTable`, `drawSegmentedTableRow` -- what is drawn, page by page.
  * `layoutSteps`, `renderPdf` -- a specification's texts and tables in order, and their draws.
-/
import Mathlib.Data.Rat.Floor
import OpenVac.Artifacts.Renderers

namespace OpenVac.Artifacts.Pdf

open CodePoints

/-! ## 1. Numbers and widths -/

/-- The host's numbers: each operation yields the rounded exact result. Up to 1024 a double is
    off by less than 2^-43; less than 2^-20 is all that is used. -/
class Doubles where
  round : ℚ → ℚ
  close : ∀ x, |x| ≤ 1024 → |round x - x| ≤ 1 / 2 ^ 20

/-- `font.widthOfTextAtSize(text, size)`. -/
class TextMeasure where
  widthOfTextAtSize : Points → ℚ → ℚ

variable [Doubles]

/-- `a + b`, `a - b` and `a / b`. -/
def sub (a b : ℚ) : ℚ := Doubles.round (a - b)

def div (a b : ℚ) : ℚ := Doubles.round (a / b)

/-! ## 2. Pages -/

structure PageSize where
  width : ℚ
  height : ℚ

def margin : ℕ := 44

/-- The number of the page and the height that is reached on it. -/
structure Cursor where
  page : ℕ
  y : ℚ

/-- What a line is drawn for: a text, a cell of the row at hand, or a cell of a header that is
    drawn again. -/
inductive Part where
  | line
  | cell (column : ℕ)
  | repeated (column : ℕ)
  deriving DecidableEq

/-- A call of `drawText`. -/
structure Drawn where
  page : ℕ
  y : ℚ
  size : ℚ
  text : Points
  part : Part

/-- `line || " "`. -/
def shown (line : Points) : Points := if line = [] then [.scalar ' '] else line

section Layout

variable (pageSize : PageSize)

def startNewPage (c : Cursor) : Cursor := ⟨c.page + 1, sub pageSize.height margin⟩

def ensureSpace (points : ℚ) (c : Cursor) : Cursor :=
  if sub c.y points ≥ margin + 18 then c else startNewPage pageSize c

def addGap (points : ℚ) (c : Cursor) : Cursor := { c with y := sub c.y points }

/-! ## 3. Texts -/

/-- The lines of a line of the source, of which the part before is read. -/
def wrapFrom [TextMeasure] (size maxWidth : ℚ) (current : Points) : Points → List Points
  | [] => [current]
  | character :: rest =>
      if current ≠ [] ∧ TextMeasure.widthOfTextAtSize (current ++ [character]) size > maxWidth then
        current :: wrapFrom size maxWidth [character] rest
      else wrapFrom size maxWidth (current ++ [character]) rest

def wrapLine [TextMeasure] (size maxWidth : ℚ) (sourceLine : Points) : List Points :=
  if sourceLine = [] then [[]] else wrapFrom size maxWidth [] sourceLine

/-- `value.replaceAll("\t", "  ").split("\n")`. -/
def sourceLines (value : Points) : List Points :=
  (replaceAll [.scalar '\t'] [.scalar ' ', .scalar ' '] value).splitOn (.scalar '\n')

def wrapText [TextMeasure] (value : Points) (size maxWidth : ℚ) : List Points :=
  (sourceLines value).flatMap (wrapLine size maxWidth)

structure TextStyle where
  size : ℚ
  lineHeight : ℚ

def writeLine (style : TextStyle) (line : Points) (c : Cursor) : Cursor × Drawn :=
  let c := ensureSpace pageSize style.lineHeight c
  (⟨c.page, sub c.y style.lineHeight⟩,
    { page := c.page, y := sub c.y style.size, size := style.size, text := shown line,
      part := .line })

def writeLines (style : TextStyle) : List Points → Cursor → Cursor × List Drawn
  | [], c => (c, [])
  | line :: lines, c =>
      let first := writeLine pageSize style line c
      let rest := writeLines style lines first.1
      (rest.1, first.2 :: rest.2)

/-- `pageSize[0] - this.margin * 2`. -/
def contentWidth : ℚ := sub pageSize.width (margin * 2 : ℕ)

def writeText [TextMeasure] (text : Points) (style : TextStyle) (c : Cursor) :
    Cursor × List Drawn :=
  writeLines pageSize style (wrapText text style.size (contentWidth pageSize)) c

/-! ## 4. Tables -/

structure TableRowLayout where
  wrapped : List (List Points)
  size : ℚ

def lineHeight : ℕ := 11

def padding : ℕ := 4

def layoutTableRow [TextMeasure] (cells : List Points) (columnWidth : ℚ) (header : Bool) :
    TableRowLayout :=
  let size : ℚ := if header then 17 / 2 else 8
  { wrapped := cells.map fun cell => wrapText cell size (max (sub columnWidth (padding * 2 : ℕ)) 8)
    size := size }

/-- The lines of the row's longest cell. -/
def tableRowLineCount (layout : TableRowLayout) : ℕ :=
  (layout.wrapped.map List.length).foldr max 0

def tableRowHeight (lineCount : ℕ) : ℕ := max 20 (lineCount * lineHeight + padding * 2)

def tableBottom : ℕ := margin + 18

def availableTableHeight (c : Cursor) : ℚ := sub c.y tableBottom

/-- The lines of a cell within a segment, the first at the top. -/
def drawCellLines (layout : TableRowLayout) (part : Part) (c : Cursor) (lines : List Points) :
    List Drawn :=
  lines.mapIdx fun lineIndex line =>
    { page := c.page
      y := sub (sub (sub c.y padding) layout.size) (lineIndex * lineHeight : ℕ)
      size := layout.size
      text := shown line
      part := part }

def drawTableRowSegment (layout : TableRowLayout) (part : ℕ → Part) (lineOffset lineCount : ℕ)
    (c : Cursor) : Cursor × List Drawn :=
  (⟨c.page, sub c.y (tableRowHeight lineCount)⟩,
    (layout.wrapped.mapIdx fun columnIndex lines =>
      drawCellLines layout (part columnIndex) c ((lines.drop lineOffset).take lineCount)).flatten)

def startTableContinuation (repeatedHeader : Option TableRowLayout) (c : Cursor) :
    Cursor × List Drawn :=
  match repeatedHeader with
  | none => (startNewPage pageSize c, [])
  | some header =>
      drawTableRowSegment header .repeated 0 (tableRowLineCount header) (startNewPage pageSize c)

/-- `Math.max(1, Math.floor((this.availableTableHeight - padding * 2) / lineHeight))`. -/
def availableLines (c : Cursor) : ℕ :=
  max 1 ⌊div (sub (availableTableHeight c) (padding * 2 : ℕ)) lineHeight⌋.toNat

/-- The lines of a row from a line on. Each turn draws at least one of them. -/
def drawSegmentsFrom (layout : TableRowLayout) (repeatedHeader : Option TableRowLayout)
    (lineOffset : ℕ) (c : Cursor) : Cursor × List Drawn :=
  if _h : lineOffset < tableRowLineCount layout then
    let start := if availableTableHeight c < 20 then
      startTableContinuation pageSize repeatedHeader c else (c, [])
    let segmentLines := min (tableRowLineCount layout - lineOffset) (availableLines start.1)
    let drawn := drawTableRowSegment layout .cell lineOffset segmentLines start.1
    let next := if lineOffset + segmentLines < tableRowLineCount layout then
      startTableContinuation pageSize repeatedHeader drawn.1 else (drawn.1, [])
    let rest := drawSegmentsFrom layout repeatedHeader (lineOffset + segmentLines) next.1
    (rest.1, start.2 ++ (drawn.2 ++ (next.2 ++ rest.2)))
  else (c, [])
termination_by tableRowLineCount layout - lineOffset
decreasing_by
  have hone : 1 ≤ availableLines start.1 := le_max_left _ _
  have hsegment : 1 ≤ segmentLines := le_min (Nat.sub_pos_of_lt _h) hone
  exact Nat.sub_lt_sub_left _h (Nat.lt_add_of_pos_right hsegment)

def drawSegmentedTableRow (layout : TableRowLayout) (repeatedHeader : Option TableRowLayout)
    (c : Cursor) : Cursor × List Drawn :=
  drawSegmentsFrom pageSize layout repeatedHeader 0 c

/-- `this.pageSize[1] - this.margin - this.tableBottom - 20`. -/
def fullPageHeight : ℚ := sub (sub (sub pageSize.height margin) tableBottom) 20

/-- The header: drawn at once and kept for the pages after, or in segments once. -/
def drawTableHeader (layout : TableRowLayout) (c : Cursor) :
    Option TableRowLayout × (Cursor × List Drawn) :=
  let lineCount := tableRowLineCount layout
  let rowHeight := tableRowHeight lineCount
  if (rowHeight : ℚ) ≤ fullPageHeight pageSize then
    (some layout, drawTableRowSegment layout .cell 0 lineCount
      (ensureSpace pageSize (rowHeight + 20 : ℕ) c))
  else (none, drawSegmentedTableRow pageSize layout none c)

/-- The rows after the header, the draws of each apart. -/
def drawRows (repeatedHeader : Option TableRowLayout) :
    List TableRowLayout → Cursor → Cursor × List (List Drawn)
  | [], c => (c, [])
  | layout :: layouts, c =>
      let first := drawSegmentedTableRow pageSize layout repeatedHeader c
      let rest := drawRows repeatedHeader layouts first.1
      (rest.1, first.2 :: rest.2)

/-- The layouts of a table's rows, the header's first. -/
def tableLayouts [TextMeasure] (table : ArtifactTable) : TableRowLayout × List TableRowLayout :=
  let columnWidth := div (contentWidth pageSize) table.columns.length
  (layoutTableRow table.columns columnWidth true,
    table.rows.map fun row => layoutTableRow row columnWidth false)

def writeTable [TextMeasure] (table : ArtifactTable) (c : Cursor) : Cursor × List (List Drawn) :=
  let layouts := tableLayouts pageSize table
  let header := drawTableHeader pageSize layouts.1 c
  let rows := drawRows pageSize header.1 layouts.2 header.2.1
  (rows.1, header.2.2 :: rows.2)

/-! ## 5. The document -/

/-- A call of `renderPdf` on the layout. -/
inductive Step where
  | text (value : Points) (style : TextStyle)
  | gap (points : ℚ)
  | table (table : ArtifactTable)

/-- The draws of a step: those of a text, or of each row of a table. -/
def runStep [TextMeasure] (step : Step) (c : Cursor) : Cursor × List (List Drawn) :=
  match step with
  | .text value style =>
      let written := writeText pageSize value style c
      (written.1, [written.2])
  | .gap points => (addGap points c, [])
  | .table table => writeTable pageSize table c

def runSteps [TextMeasure] : List Step → Cursor → Cursor × List (List (List Drawn))
  | [], c => (c, [])
  | step :: steps, c =>
      let first := runStep pageSize step c
      let rest := runSteps steps first.1
      (rest.1, first.2 :: rest.2)

end Layout

end OpenVac.Artifacts.Pdf
