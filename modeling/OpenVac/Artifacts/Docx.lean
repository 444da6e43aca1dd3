/-
  File:      OpenVac/Artifacts/Docx.lean
  Subject:   The text parts of a DOCX file: server/artifacts/docx.ts, and a reader of them.

  * `documentXml`, `paragraph`, `tableXml`, `corePropertiesXml` -- the XML texts.
  * `textEntry` -- the bytes that are stored of a text.
  * `documentBlocks`, `coreTitle` -- what a reader finds in the two documents.
  * `specBlocks`, `ReadsBack` -- what it should find of a specification.
-/
import OpenVac.Artifacts.Renderers
import OpenVac.Lib.Utf8
import OpenVac.Lib.Xml

namespace OpenVac.Artifacts

open CodePoints
open JsString (Text)
open Xml (Item)

/-! ## 1. The XML texts -/

/-- A literal. -/
def lit (s : String) : Points := s.toList.map .scalar

def escapeXml (value : Points) : Points :=
  replaceAll [.scalar '\''] (lit "&apos;")
    (replaceAll [.scalar '"'] (lit "&quot;")
      (replaceAll [.scalar '>'] (lit "&gt;")
        (replaceAll [.scalar '<'] (lit "&lt;")
          (replaceAll [.scalar '&'] (lit "&amp;") value))))

def xml (body : Points) : Points :=
  lit "<?xml version=\"1.0\" encoding=\"UTF-8\" standalone=\"yes\"?>" ++ Points.trim body

inductive ParagraphStyle where
  | Title
  | Summary
  | Heading1
  | Normal
  | Heading2
  | TableHeader
  | TableText

def ParagraphStyle.name : ParagraphStyle → String
  | .Title => "Title"
  | .Summary => "Summary"
  | .Heading1 => "Heading1"
  | .Normal => "Normal"
  | .Heading2 => "Heading2"
  | .TableHeader => "TableHeader"
  | .TableText => "TableText"

/-- The run of a line; the lines after the first begin with a break. -/
def run (index : Nat) (line : Points) : Points :=
  lit "<w:r>" ++ ((if index > 0 then lit "<w:br/>" else []) ++
    (lit "<w:t xml:space=\"preserve\">" ++ (escapeXml line ++ lit "</w:t>")) ++ lit "</w:r>")

def paragraph (text : Points) (style : ParagraphStyle) : Points :=
  lit "<w:p>" ++ (lit "<w:pPr><w:pStyle w:val=\"" ++ lit style.name ++ lit "\"/></w:pPr>" ++
    ((text.splitOn (.scalar '\n')).mapIdx run).flatten ++ lit "</w:p>")

def tableCell (header : Bool) (cell : Points) : Points :=
  lit "<w:tc>" ++ (lit "<w:tcPr><w:tcW w:w=\"0\" w:type=\"auto\"/>" ++
    (if header then lit "<w:shd w:fill=\"E8EEF4\"/>" else []) ++ lit "</w:tcPr>" ++
    paragraph cell (if header then .TableHeader else .TableText) ++ lit "</w:tc>")

def tableRow (header : Bool) (cells : List Points) : Points :=
  lit "<w:tr>" ++ (cells.flatMap (tableCell header) ++ lit "</w:tr>")

def tableProperties : Points :=
  lit "<w:tblPr><w:tblBorders><w:top w:val=\"single\" w:sz=\"4\"/>" ++
    (lit "<w:left w:val=\"single\" w:sz=\"4\"/><w:bottom w:val=\"single\" w:sz=\"4\"/>" ++
      (lit "<w:right w:val=\"single\" w:sz=\"4\"/><w:insideH w:val=\"single\" w:sz=\"4\"/>" ++
        lit "<w:insideV w:val=\"single\" w:sz=\"4\"/></w:tblBorders></w:tblPr>"))

def tableXml (table : ArtifactTable) : Points :=
  lit "<w:tbl>" ++ (tableProperties ++ (tableRow true table.columns ++
    table.rows.flatMap (tableRow false)) ++ lit "</w:tbl>")

def documentContent (spec : ArtifactSpec) : Points :=
  paragraph spec.title .Title ++ (paragraph spec.summary .Summary ++
    (spec.sections.flatMap (fun part => paragraph part.heading .Heading1 ++
        part.paragraphs.flatMap fun value => paragraph value .Normal) ++
      (spec.tables.mapIdx fun index table =>
        paragraph (tableTitle table index) .Heading2 ++ tableXml table).flatten))

def sectionProperties : Points :=
  lit "<w:sectPr><w:pgSz w:w=\"11906\" w:h=\"16838\"/>" ++
    (lit "<w:pgMar w:top=\"1134\" w:right=\"1134\" w:bottom=\"1134\" w:left=\"1134\"/>" ++
      lit "</w:sectPr>")

def documentXml (spec : ArtifactSpec) : Points :=
  xml (lit "\n<w:document xmlns:w=\"http://schemas.openxmlformats.org/wordprocessingml/2006/main\">" ++
    (lit "\n  <w:body>" ++ (documentContent spec ++ sectionProperties ++ lit "</w:body>") ++
      lit "\n</w:document>"))

def coreNamespaces : Points :=
  lit " xmlns:cp=\"http://schemas.openxmlformats.org/package/2006/metadata/core-properties\"" ++
    (lit " xmlns:dc=\"http://purl.org/dc/elements/1.1/\"" ++
      (lit " xmlns:dcterms=\"http://purl.org/dc/terms/\"" ++
        (lit " xmlns:dcmitype=\"http://purl.org/dc/dcmitype/\"" ++
          lit " xmlns:xsi=\"http://www.w3.org/2001/XMLSchema-instance\"")))

def coreAuthors : Points :=
  lit "<dc:creator>OpenVac</dc:creator><cp:lastModifiedBy>OpenVac</cp:lastModifiedBy>" ++
    (lit "<dcterms:created xsi:type=\"dcterms:W3CDTF\">2000-01-01T00:00:00Z</dcterms:created>" ++
      lit "<dcterms:modified xsi:type=\"dcterms:W3CDTF\">2000-01-01T00:00:00Z</dcterms:modified>")

def corePropertiesXml (spec : ArtifactSpec) : Points :=
  xml (lit "\n<cp:coreProperties" ++ coreNamespaces ++ lit ">" ++
    (lit "\n  " ++ (lit "<dc:title>" ++ (escapeXml spec.title ++ lit "</dc:title>")) ++
      coreAuthors ++ lit "\n</cp:coreProperties>"))

/-- The bytes of a text in the package: `encoder.encode(content)`. -/
def textEntry (content : Points) : List UInt8 := Utf8.encode (Xml.writtenText content)

/-! ## 2. A reader -/

/-- The root element of a file. -/
def readXmlFile (bytes : List UInt8) : Option Item := Xml.readXml (Utf8.decode Utf8.start bytes).2

/-- The contents of the elements of a name. -/
def childrenNamed (name : String) (items : List Item) : List (List Item) :=
  items.filterMap fun
    | .element other _ children => if other = name.toList then some children else none
    | .character _ => none

def characters (items : List Item) : Points :=
  items.filterMap fun
    | .element _ _ _ => none
    | .character c => some (.scalar c)

/-- The text of a run: its breaks and texts. -/
def runText (items : List Item) : Points :=
  items.flatMap fun
    | .element name _ children =>
        if name = "w:br".toList then [.scalar '\n']
        else if name = "w:t".toList then characters children
        else []
    | .character _ => []

def paragraphText (items : List Item) : Points := (childrenNamed "w:r" items).flatMap runText

/-- A paragraph, or a table: the paragraphs of each cell of each row. -/
inductive Block where
  | paragraph (text : Points)
  | table (rows : List (List (List Points)))

def blockOf : Item → Option Block
  | .character _ => none
  | .element name _ children =>
      if name = "w:p".toList then some (.paragraph (paragraphText children))
      else if name = "w:tbl".toList then
        some (.table ((childrenNamed "w:tr" children).map fun row =>
          (childrenNamed "w:tc" row).map fun cell => (childrenNamed "w:p" cell).map paragraphText))
      else none

/-- The blocks of a document's body. -/
def documentBlocks : Item → Option (List Block)
  | .character _ => none
  | .element name _ children =>
      if name = "w:document".toList then
        (childrenNamed "w:body" children).head?.map fun body => body.filterMap blockOf
      else none

/-- The title of a document's properties. -/
def coreTitle : Item → Option Points
  | .character _ => none
  | .element name _ children =>
      if name = "cp:coreProperties".toList then
        (childrenNamed "dc:title" children).head?.map characters
      else none

/-! ## 3. What is to be read -/

/-- The blocks of a specification, each text as `f` has it. -/
def blocksWith (f : Points → Points) (spec : ArtifactSpec) : List Block :=
  .paragraph (f spec.title) :: .paragraph (f spec.summary) ::
    (spec.sections.flatMap (fun part => .paragraph (f part.heading) ::
        part.paragraphs.map fun value => .paragraph (f value)) ++
      (spec.tables.mapIdx fun index table =>
        [.paragraph (f (tableTitle table index)),
          .table ((table.columns :: table.rows).map fun row => row.map fun cell => [f cell])]).flatten)

/-- Title, summary, headings, paragraphs and tables, every cell of one paragraph. -/
def specBlocks (spec : ArtifactSpec) : List Block := blocksWith id spec

/-- Both documents are well-formed, and the specification's texts are what is read from them. -/
def ReadsBack (spec : ArtifactSpec) : Prop :=
  ∃ document core, readXmlFile (textEntry (documentXml spec)) = some document ∧
    readXmlFile (textEntry (corePropertiesXml spec)) = some core ∧
    documentBlocks document = some (specBlocks spec) ∧ coreTitle core = some spec.title

/-- A code point that XML allows and passes on as it is. -/
def Survives (c : CodePoint) : Prop :=
  ∃ d, c = .scalar d ∧ d ≠ '\uFFFE' ∧ d ≠ '\uFFFF' ∧ d ≠ '\r'

end OpenVac.Artifacts
