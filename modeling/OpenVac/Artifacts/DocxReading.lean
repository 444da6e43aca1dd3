/-
  File:      OpenVac/Artifacts/DocxReading.lean
  Subject:   What a reader of a DOCX file finds in its two XML texts.

  * `Markup` -- a literal that is read as its tokens and holds only characters XML allows.
  * `parses_paragraph`, `parses_tableXml`, `parses_documentContent` -- the items of the parts.
  * `filterMap_contentItems` -- the blocks that are read of them.
-/
import OpenVac.Artifacts.Docx

namespace OpenVac.Artifacts

open CodePoints
open JsString (Text)
open Xml (Item Token Attributes Reads Parses Builds readText)

/-! ## 1. Escapes -/

theorem escapeXml_eq (value : Points) : escapeXml value = Xml.escapeXml value := by
  have hamp : lit "&amp;" = [.scalar '&', .scalar 'a', .scalar 'm', .scalar 'p', .scalar ';'] := by
    decide
  have hlt : lit "&lt;" = [.scalar '&', .scalar 'l', .scalar 't', .scalar ';'] := by decide
  have hgt : lit "&gt;" = [.scalar '&', .scalar 'g', .scalar 't', .scalar ';'] := by decide
  have hquot : lit "&quot;" =
      [.scalar '&', .scalar 'q', .scalar 'u', .scalar 'o', .scalar 't', .scalar ';'] := by decide
  have hapos : lit "&apos;" =
      [.scalar '&', .scalar 'a', .scalar 'p', .scalar 'o', .scalar 's', .scalar ';'] := by decide
  unfold escapeXml Xml.escapeXml
  rw [hamp, hlt, hgt, hquot, hapos]
  simp only [replaceAll_single, List.flatMap_assoc]
  refine congrArg (fun f => List.flatMap f value) (funext fun c => ?_)
  unfold Xml.escapePoint
  -- a character that is replaced yields none of those replaced after it
  by_cases h1 : c = .scalar '&'
  · rw [if_pos h1, if_pos h1]
    decide
  · rw [if_neg h1, if_neg h1, List.flatMap_singleton]
    by_cases h2 : c = .scalar '<'
    · rw [if_pos h2, if_pos h2]
      decide
    · rw [if_neg h2, if_neg h2, List.flatMap_singleton]
      by_cases h3 : c = .scalar '>'
      · rw [if_pos h3, if_pos h3]
        decide
      · rw [if_neg h3, if_neg h3, List.flatMap_singleton]
        by_cases h4 : c = .scalar '"'
        · rw [if_pos h4, if_pos h4]
          decide
        · rw [if_neg h4, if_neg h4, List.flatMap_singleton]

/-! ## 2. Literals -/

/-- The string holds only characters that XML allows. -/
def fits (s : Points) : Bool := s.all fun c => Xml.isXmlChar (Xml.written c)

theorem fits_append (s t : Points) : fits (s ++ t) = (fits s && fits t) := List.all_append

/-- A literal that is read as those tokens and holds only characters that XML allows. -/
structure Markup (s : Points) (tokens : List Token) : Prop where
  reads : Reads s tokens
  fits : fits s = true

/-- The tokens of a literal, evaluated. -/
def checks (s : Points) (tokens : List Token) : Bool :=
  decide (Xml.lexFrom .content (Xml.writtenText s) = some tokens) &&
    ((Xml.writtenText s).all (fun c => c != '\r') && fits s)

theorem lit_ofList (l : List Char) : lit (String.ofList l) = l.map .scalar := by
  rw [lit, String.toList_ofList]

theorem literal_append {s t : Points} {l m : List Char} (hs : s = l.map .scalar)
    (ht : t = m.map .scalar) : s ++ t = (l ++ m).map .scalar := by
  rw [hs, ht, List.map_append]

theorem markup_of_checks {s : Points} {l : List Char} {tokens : List Token}
    (hs : s = l.map .scalar) (h : checks (l.map .scalar) tokens = true) : Markup s tokens := by
  rw [hs]
  unfold checks at h
  rw [Bool.and_eq_true, Bool.and_eq_true] at h
  obtain ⟨hlex, hcr, hfits⟩ := h
  refine ⟨Xml.reads_literal (fun hmem => ?_) (of_decide_eq_true hlex), hfits⟩
  have hne := List.all_eq_true.mp hcr _ hmem
  nomatch hne

/-- The name of a tag or an attribute. -/
abbrev tag (name : String) : Text := name.toList

theorem markup_p : Markup (lit "<w:p>") [.startTag (tag "w:p") []] :=
  markup_of_checks (lit_ofList _) (by decide)

theorem markup_p_end : Markup (lit "</w:p>") [.endTag (tag "w:p")] :=
  markup_of_checks (lit_ofList _) (by decide)

theorem markup_r : Markup (lit "<w:r>") [.startTag (tag "w:r") []] :=
  markup_of_checks (lit_ofList _) (by decide)

theorem markup_r_end : Markup (lit "</w:r>") [.endTag (tag "w:r")] :=
  markup_of_checks (lit_ofList _) (by decide)

theorem markup_br : Markup (lit "<w:br/>") [.emptyTag (tag "w:br") []] :=
  markup_of_checks (lit_ofList _) (by decide)

/-- `xml:space="preserve"`. -/
def preserved : Attributes := [(tag "xml:space", tag "preserve")]

theorem markup_t : Markup (lit "<w:t xml:space=\"preserve\">") [.startTag (tag "w:t") preserved] :=
  markup_of_checks (lit_ofList _) (by decide)

theorem markup_t_end : Markup (lit "</w:t>") [.endTag (tag "w:t")] :=
  markup_of_checks (lit_ofList _) (by decide)

theorem markup_style (style : ParagraphStyle) :
    Markup (lit "<w:pPr><w:pStyle w:val=\"" ++ lit style.name ++ lit "\"/></w:pPr>")
      [.startTag (tag "w:pPr") [], .emptyTag (tag "w:pStyle") [(tag "w:val", tag style.name)],
        .endTag (tag "w:pPr")] := by
  cases style
  all_goals
    exact markup_of_checks (literal_append (literal_append (lit_ofList _) (lit_ofList _))
      (lit_ofList _)) (by decide)

theorem markup_tc : Markup (lit "<w:tc>") [.startTag (tag "w:tc") []] :=
  markup_of_checks (lit_ofList _) (by decide)

theorem markup_tc_end : Markup (lit "</w:tc>") [.endTag (tag "w:tc")] :=
  markup_of_checks (lit_ofList _) (by decide)

/-- The properties of a cell; those of the header are shaded. -/
def cellShade (header : Bool) : Points := if header then lit "<w:shd w:fill=\"E8EEF4\"/>" else []

def shadeTokens (header : Bool) : List Token :=
  if header then [.emptyTag (tag "w:shd") [(tag "w:fill", tag "E8EEF4")]] else []

theorem markup_tcPr (header : Bool) :
    Markup (lit "<w:tcPr><w:tcW w:w=\"0\" w:type=\"auto\"/>" ++ cellShade header ++
        lit "</w:tcPr>")
      (.startTag (tag "w:tcPr") [] ::
        .emptyTag (tag "w:tcW") [(tag "w:w", tag "0"), (tag "w:type", tag "auto")] ::
          (shadeTokens header ++ [.endTag (tag "w:tcPr")])) := by
  cases header with
  | false =>
    have hnone : cellShade false = ([] : List Char).map .scalar := rfl
    exact markup_of_checks (literal_append (literal_append (lit_ofList _) hnone) (lit_ofList _))
      (by decide)
  | true =>
    have hshade : cellShade true = lit "<w:shd w:fill=\"E8EEF4\"/>" := rfl
    exact markup_of_checks (literal_append (literal_append (lit_ofList _)
      (hshade.trans (lit_ofList _))) (lit_ofList _)) (by decide)

theorem markup_tr : Markup (lit "<w:tr>") [.startTag (tag "w:tr") []] :=
  markup_of_checks (lit_ofList _) (by decide)

theorem markup_tr_end : Markup (lit "</w:tr>") [.endTag (tag "w:tr")] :=
  markup_of_checks (lit_ofList _) (by decide)

theorem markup_tbl : Markup (lit "<w:tbl>") [.startTag (tag "w:tbl") []] :=
  markup_of_checks (lit_ofList _) (by decide)

theorem markup_tbl_end : Markup (lit "</w:tbl>") [.endTag (tag "w:tbl")] :=
  markup_of_checks (lit_ofList _) (by decide)

/-- The tag of a border. -/
def border (side : String) : Token :=
  .emptyTag (tag side) [(tag "w:val", tag "single"), (tag "w:sz", tag "4")]

set_option maxRecDepth 4000 in
theorem markup_tblPr : Markup tableProperties
    [.startTag (tag "w:tblPr") [], .startTag (tag "w:tblBorders") [], border "w:top",
      border "w:left", border "w:bottom", border "w:right", border "w:insideH",
      border "w:insideV", .endTag (tag "w:tblBorders"), .endTag (tag "w:tblPr")] :=
  markup_of_checks (literal_append (lit_ofList _) (literal_append (lit_ofList _)
    (literal_append (lit_ofList _) (lit_ofList _)))) (by decide)

set_option maxRecDepth 4000 in
theorem markup_sectPr : Markup sectionProperties
    [.startTag (tag "w:sectPr") [],
      .emptyTag (tag "w:pgSz") [(tag "w:w", tag "11906"), (tag "w:h", tag "16838")],
      .emptyTag (tag "w:pgMar") [(tag "w:top", tag "1134"), (tag "w:right", tag "1134"),
        (tag "w:bottom", tag "1134"), (tag "w:left", tag "1134")],
      .endTag (tag "w:sectPr")] :=
  markup_of_checks (literal_append (lit_ofList _) (literal_append (lit_ofList _) (lit_ofList _)))
    (by decide)

/-- White space before a tag. -/
def blanks (s : String) : List Token := s.toList.map .character

theorem markup_body : Markup (lit "\n  <w:body>") (blanks "\n  " ++ [.startTag (tag "w:body") []]) :=
  markup_of_checks (lit_ofList _) (by decide)

theorem markup_body_end : Markup (lit "</w:body>") [.endTag (tag "w:body")] :=
  markup_of_checks (lit_ofList _) (by decide)

theorem markup_declaration :
    Markup (lit "<?xml version=\"1.0\" encoding=\"UTF-8\" standalone=\"yes\"?>") [.declaration] :=
  markup_of_checks (lit_ofList _) (by decide)

set_option maxRecDepth 4000 in
theorem markup_document : Markup
    (lit "<w:document xmlns:w=\"http://schemas.openxmlformats.org/wordprocessingml/2006/main\">")
    [.startTag (tag "w:document") [(tag "xmlns:w",
      tag "http://schemas.openxmlformats.org/wordprocessingml/2006/main")]] :=
  markup_of_checks (lit_ofList _) (by decide)

theorem markup_document_end :
    Markup (lit "\n</w:document>") (blanks "\n" ++ [.endTag (tag "w:document")]) :=
  markup_of_checks (lit_ofList _) (by decide)

/-- The namespaces of the properties. -/
def coreAttributes : Attributes :=
  [(tag "xmlns:cp", tag "http://schemas.openxmlformats.org/package/2006/metadata/core-properties"),
    (tag "xmlns:dc", tag "http://purl.org/dc/elements/1.1/"),
    (tag "xmlns:dcterms", tag "http://purl.org/dc/terms/"),
    (tag "xmlns:dcmitype", tag "http://purl.org/dc/dcmitype/"),
    (tag "xmlns:xsi", tag "http://www.w3.org/2001/XMLSchema-instance")]

set_option maxRecDepth 4000 in
theorem markup_core : Markup (lit "<cp:coreProperties" ++ coreNamespaces ++ lit ">")
    [.startTag (tag "cp:coreProperties") coreAttributes] :=
  markup_of_checks (literal_append (literal_append (lit_ofList _) (literal_append (lit_ofList _)
    (literal_append (lit_ofList _) (literal_append (lit_ofList _)
      (literal_append (lit_ofList _) (lit_ofList _))))))
    (lit_ofList _)) (by decide)

theorem markup_core_end :
    Markup (lit "\n</cp:coreProperties>") (blanks "\n" ++ [.endTag (tag "cp:coreProperties")]) :=
  markup_of_checks (lit_ofList _) (by decide)

theorem markup_space : Markup (lit "\n  ") (blanks "\n  ") :=
  markup_of_checks (lit_ofList _) (by decide)

theorem markup_title : Markup (lit "<dc:title>") [.startTag (tag "dc:title") []] :=
  markup_of_checks (lit_ofList _) (by decide)

theorem markup_title_end : Markup (lit "</dc:title>") [.endTag (tag "dc:title")] :=
  markup_of_checks (lit_ofList _) (by decide)

/-- An element of characters. -/
def simpleElement (name : String) (attributes : Attributes) (text : String) : List Token :=
  .startTag (tag name) attributes :: (blanks text ++ [.endTag (tag name)])

def dateAttributes : Attributes := [(tag "xsi:type", tag "dcterms:W3CDTF")]

set_option maxRecDepth 4000 in
theorem markup_authors : Markup coreAuthors
    (simpleElement "dc:creator" [] "OpenVac" ++ (simpleElement "cp:lastModifiedBy" [] "OpenVac" ++
      (simpleElement "dcterms:created" dateAttributes "2000-01-01T00:00:00Z" ++
        simpleElement "dcterms:modified" dateAttributes "2000-01-01T00:00:00Z"))) :=
  markup_of_checks (literal_append (lit_ofList _) (literal_append (lit_ofList _) (lit_ofList _)))
    (by decide)

/-! ## 3. Items of the parts -/

theorem Markup.parses {s : Points} {tokens : List Token} {items : List Item}
    (h : Markup s tokens) (hbuilds : Builds tokens items) : Parses s items :=
  ⟨tokens, h.reads, hbuilds⟩

/-- A line as it is read back. -/
def readLine (line : Points) : Points := (readText line).map .scalar

/-- A text as it is read back from a paragraph. -/
def readParagraph (text : Points) : Points :=
  List.intercalate [.scalar '\n'] ((text.splitOn (.scalar '\n')).map readLine)

def breakItems (index : Nat) : List Item := if index > 0 then [.element (tag "w:br") [] []] else []

def runItem (index : Nat) (line : Points) : Item :=
  .element (tag "w:r") [] (breakItems index ++
    [.element (tag "w:t") preserved ((readText line).map .character)])

theorem parses_escaped {first last : Points} {name : Text} {attributes : Attributes}
    (value : Points) (hfirst : Reads first [.startTag name attributes])
    (hlast : Reads last [.endTag name]) (hmarkup : ∃ more, Xml.writtenText last = '<' :: more) :
    Parses (first ++ (escapeXml value ++ last))
      [.element name attributes ((readText value).map Item.character)] := by
  rw [escapeXml_eq]
  exact Xml.parses_textElement value hfirst hlast hmarkup

theorem parses_run (index : Nat) (line : Points) : Parses (run index line) [runItem index line] := by
  have hbreak : Parses (if index > 0 then lit "<w:br/>" else []) (breakItems index) := by
    unfold breakItems
    by_cases hindex : index > 0
    · rw [if_pos hindex, if_pos hindex]
      exact Xml.parses_empty markup_br.reads
    · rw [if_neg hindex, if_neg hindex]
      exact Xml.parses_nil
  have htext := parses_escaped line markup_t.reads markup_t_end.reads ⟨_, rfl⟩
  exact Xml.parses_element markup_r.reads (Xml.parses_append hbreak htext) markup_r_end.reads

theorem flatten_mapIdx {α β : Type} (f : Nat → α → List β) (items : List α) :
    (items.mapIdx f).flatten = items.zipIdx.flatMap fun item => f item.2 item.1 := by
  rw [List.mapIdx_eq_zipIdx_map, List.flatMap_def]

def styleItem (style : ParagraphStyle) : Item :=
  .element (tag "w:pPr") [] [.element (tag "w:pStyle") [(tag "w:val", tag style.name)] []]

/-- The runs of a text, one a line. -/
def runItems (text : Points) : List Item := (text.splitOn (.scalar '\n')).mapIdx runItem

def paragraphItem (text : Points) (style : ParagraphStyle) : Item :=
  .element (tag "w:p") [] (styleItem style :: runItems text)

/-- **A paragraph** is read as its style and its runs. -/
theorem parses_paragraph (text : Points) (style : ParagraphStyle) :
    Parses (paragraph text style) [paragraphItem text style] := by
  have hstyle : Parses (lit "<w:pPr><w:pStyle w:val=\"" ++ lit style.name ++ lit "\"/></w:pPr>")
      [styleItem style] := by
    refine (markup_style style).parses fun before stack rest => ?_
    simp [Xml.build, styleItem]
  have hruns : Parses ((text.splitOn (.scalar '\n')).mapIdx run).flatten (runItems text) := by
    have hflat : runItems text =
        ((text.splitOn (.scalar '\n')).mapIdx fun index line => [runItem index line]).flatten := by
      rw [flatten_mapIdx, runItems, List.mapIdx_eq_zipIdx_map, List.map_eq_flatMap]
    rw [hflat, flatten_mapIdx, flatten_mapIdx]
    exact Xml.parses_flatMap fun item _ => parses_run item.2 item.1
  exact Xml.parses_element markup_p.reads (Xml.parses_append hstyle hruns) markup_p_end.reads

def shadeItems (header : Bool) : List Item :=
  if header then [.element (tag "w:shd") [(tag "w:fill", tag "E8EEF4")] []] else []

def cellPropertiesItem (header : Bool) : Item :=
  .element (tag "w:tcPr") []
    (.element (tag "w:tcW") [(tag "w:w", tag "0"), (tag "w:type", tag "auto")] [] ::
      shadeItems header)

def cellItem (header : Bool) (cell : Points) : Item :=
  .element (tag "w:tc") []
    [cellPropertiesItem header, paragraphItem cell (if header then .TableHeader else .TableText)]

theorem parses_tableCell (header : Bool) (cell : Points) :
    Parses (tableCell header cell) [cellItem header cell] := by
  have hproperties : Parses (lit "<w:tcPr><w:tcW w:w=\"0\" w:type=\"auto\"/>" ++
      cellShade header ++ lit "</w:tcPr>") [cellPropertiesItem header] := by
    refine (markup_tcPr header).parses fun before stack rest => ?_
    cases header <;> simp [Xml.build, cellPropertiesItem, shadeItems, shadeTokens]
  have hparagraph := parses_paragraph cell (if header then .TableHeader else .TableText)
  exact Xml.parses_element markup_tc.reads (Xml.parses_append hproperties hparagraph)
    markup_tc_end.reads

def rowItem (header : Bool) (cells : List Points) : Item :=
  .element (tag "w:tr") [] (cells.map (cellItem header))

theorem parses_tableRow (header : Bool) (cells : List Points) :
    Parses (tableRow header cells) [rowItem header cells] := by
  have hcells : Parses (cells.flatMap (tableCell header)) (cells.map (cellItem header)) := by
    rw [List.map_eq_flatMap]
    exact Xml.parses_flatMap fun cell _ => parses_tableCell header cell
  exact Xml.parses_element markup_tr.reads hcells markup_tr_end.reads

def borderItem (side : String) : Item :=
  .element (tag side) [(tag "w:val", tag "single"), (tag "w:sz", tag "4")] []

def tablePropertiesItem : Item :=
  .element (tag "w:tblPr") [] [.element (tag "w:tblBorders") []
    [borderItem "w:top", borderItem "w:left", borderItem "w:bottom", borderItem "w:right",
      borderItem "w:insideH", borderItem "w:insideV"]]

def tableItem (table : ArtifactTable) : Item :=
  .element (tag "w:tbl") [] (tablePropertiesItem ::
    (rowItem true table.columns :: table.rows.map (rowItem false)))

/-- **A table** is read as its properties and its rows. -/
theorem parses_tableXml (table : ArtifactTable) :
    Parses (tableXml table) [tableItem table] := by
  have hproperties : Parses tableProperties [tablePropertiesItem] := by
    refine markup_tblPr.parses fun before stack rest => ?_
    simp [Xml.build, tablePropertiesItem, border, borderItem]
  have hrows : Parses (table.rows.flatMap (tableRow false)) (table.rows.map (rowItem false)) := by
    rw [List.map_eq_flatMap]
    exact Xml.parses_flatMap fun cells _ => parses_tableRow false cells
  exact Xml.parses_element markup_tbl.reads (Xml.parses_append hproperties
    (Xml.parses_append (parses_tableRow true table.columns) hrows)) markup_tbl_end.reads

/-- The items of a specification's paragraphs and tables. -/
def contentItems (spec : ArtifactSpec) : List Item :=
  paragraphItem spec.title .Title :: paragraphItem spec.summary .Summary ::
    (spec.sections.flatMap (fun part => paragraphItem part.heading .Heading1 ::
        part.paragraphs.map fun value => paragraphItem value .Normal) ++
      (spec.tables.mapIdx fun index table =>
        [paragraphItem (tableTitle table index) .Heading2, tableItem table]).flatten)

theorem parses_documentContent (spec : ArtifactSpec) :
    Parses (documentContent spec) (contentItems spec) := by
  have hsection (part : ArtifactSection) : Parses (paragraph part.heading .Heading1 ++
      part.paragraphs.flatMap fun value => paragraph value .Normal)
      (paragraphItem part.heading .Heading1 ::
        part.paragraphs.map fun value => paragraphItem value .Normal) := by
    rw [List.map_eq_flatMap]
    exact Xml.parses_append (parses_paragraph _ _)
      (Xml.parses_flatMap fun value _ => parses_paragraph value .Normal)
  have htables : Parses (spec.tables.mapIdx fun index table =>
      paragraph (tableTitle table index) .Heading2 ++ tableXml table).flatten
      (spec.tables.mapIdx fun index table =>
        [paragraphItem (tableTitle table index) .Heading2, tableItem table]).flatten := by
    rw [flatten_mapIdx, flatten_mapIdx]
    exact Xml.parses_flatMap fun item _ =>
      Xml.parses_append (parses_paragraph _ _) (parses_tableXml item.1)
  exact Xml.parses_append (parses_paragraph _ _) (Xml.parses_append (parses_paragraph _ _)
    (Xml.parses_append (Xml.parses_flatMap fun part _ => hsection part) htables))

/-! ## 4. What is read of the parts -/

theorem characters_readText (line : Points) :
    characters ((readText line).map Item.character) = readLine line := by
  unfold characters readLine
  rw [List.filterMap_map, ← List.filterMap_eq_map]
  rfl

theorem childrenNamed_named (name : String) (attributes : Attributes) (children rest : List Item) :
    childrenNamed name (.element (tag name) attributes children :: rest) =
      children :: childrenNamed name rest := by
  unfold childrenNamed
  rw [List.filterMap_cons_some]
  exact if_pos rfl

theorem childrenNamed_other {name other : String} (h : tag other ≠ tag name)
    (attributes : Attributes) (children rest : List Item) :
    childrenNamed name (.element (tag other) attributes children :: rest) =
      childrenNamed name rest := by
  unfold childrenNamed
  rw [List.filterMap_cons_none]
  exact if_neg h

/-- The children of elements of one name. -/
theorem childrenNamed_map {α : Type} (name : String) (children : α → List Item) (items : List α) :
    childrenNamed name (items.map fun item => .element (tag name) [] (children item)) =
      items.map children := by
  induction items with
  | nil => rfl
  | cons item items ih => rw [List.map_cons, childrenNamed_named, ih, List.map_cons]

/-- The text of a run. -/
theorem runText_run (index : Nat) (line : Points) :
    runText (breakItems index ++
        [.element (tag "w:t") preserved ((readText line).map .character)]) =
      (if index > 0 then [.scalar '\n'] else []) ++ readLine line := by
  have htext : runText [.element (tag "w:t") preserved ((readText line).map .character)] =
      readLine line := by
    unfold runText
    rw [List.flatMap_singleton]
    dsimp only
    rw [if_neg (by decide), if_pos rfl, characters_readText]
  have happend (items more : List Item) : runText (items ++ more) = runText items ++ runText more :=
    List.flatMap_append
  rw [happend, htext]
  refine congrArg (· ++ readLine line) ?_
  unfold breakItems
  split_ifs
  · rfl
  · rfl

/-- The text of the runs after the first. -/
theorem runText_later (lines : List Points) (place : Nat → Nat) (hplace : ∀ index, place index > 0) :
    (childrenNamed "w:r" (lines.mapIdx fun index line => runItem (place index) line)).flatMap
        runText =
      lines.flatMap fun line => .scalar '\n' :: readLine line := by
  induction lines generalizing place with
  | nil => rfl
  | cons line lines ih =>
    rw [List.mapIdx_cons, runItem, childrenNamed_named, List.flatMap_cons, List.flatMap_cons,
      runText_run, if_pos (hplace 0), ih (fun index => place (index + 1)) fun index => hplace _]
    rfl

theorem intercalate_cons {α : Type} (a : α) (first : List α) (parts : List (List α)) :
    List.intercalate [a] (first :: parts) = first ++ parts.flatMap fun part => a :: part := by
  induction parts generalizing first with
  | nil => simp [List.intercalate]
  | cons second parts ih =>
    have hstep : List.intercalate [a] (first :: second :: parts) =
        first ++ a :: List.intercalate [a] (second :: parts) := by simp [List.intercalate]
    rw [hstep, ih second, List.flatMap_cons]
    rfl

/-- **The text of a paragraph** is read line by line. -/
theorem paragraphText_runs (text : Points) (style : ParagraphStyle) :
    paragraphText (styleItem style :: runItems text) = readParagraph text := by
  unfold paragraphText readParagraph runItems
  rw [styleItem, childrenNamed_other (by decide)]
  cases hlines : text.splitOn (.scalar '\n') with
  | nil => exact absurd hlines (List.splitOn_ne_nil _ _)
  | cons line lines =>
    rw [List.mapIdx_cons, runItem, childrenNamed_named, List.flatMap_cons, runText_run,
      runText_later lines (fun index => index + 1) fun index => Nat.succ_pos index,
      List.map_cons, intercalate_cons, List.flatMap_map]
    rfl

theorem blockOf_paragraphItem (text : Points) (style : ParagraphStyle) :
    blockOf (paragraphItem text style) = some (.paragraph (readParagraph text)) := by
  rw [paragraphItem, blockOf, if_pos rfl, paragraphText_runs]

theorem cellParagraphs (header : Bool) (cell : Points) :
    (childrenNamed "w:p" [cellPropertiesItem header,
        paragraphItem cell (if header then .TableHeader else .TableText)]).map paragraphText =
      [readParagraph cell] := by
  rw [cellPropertiesItem, childrenNamed_other (by decide), paragraphItem, childrenNamed_named,
    List.map_cons, paragraphText_runs]
  rfl

theorem rowCells (header : Bool) (cells : List Points) :
    (childrenNamed "w:tc" (cells.map (cellItem header))).map (fun cell =>
        (childrenNamed "w:p" cell).map paragraphText) =
      cells.map fun cell => [readParagraph cell] := by
  have hchildren : childrenNamed "w:tc" (cells.map (cellItem header)) =
      cells.map fun cell => [cellPropertiesItem header,
        paragraphItem cell (if header then .TableHeader else .TableText)] :=
    childrenNamed_map _ _ _
  rw [hchildren, List.map_map]
  exact List.map_congr_left fun cell _ => cellParagraphs header cell

theorem blockOf_tableItem (table : ArtifactTable) :
    blockOf (tableItem table) = some (.table ((table.columns :: table.rows).map fun row =>
      row.map fun cell => [readParagraph cell])) := by
  have hrows : childrenNamed "w:tr" (table.rows.map (rowItem false)) =
      table.rows.map fun cells => cells.map (cellItem false) := childrenNamed_map _ _ _
  rw [tableItem, blockOf, if_neg (by decide), if_pos rfl, tablePropertiesItem,
    childrenNamed_other (by decide), rowItem, childrenNamed_named, hrows, List.map_cons, rowCells,
    List.map_map, List.map_cons]
  refine congrArg (fun rows => some (Block.table (_ :: rows))) ?_
  exact List.map_congr_left fun cells _ => rowCells false cells

/-- **The blocks that are read** are the specification's, each text as paragraphs are read. -/
theorem filterMap_contentItems (spec : ArtifactSpec) :
    (contentItems spec).filterMap blockOf = blocksWith readParagraph spec := by
  have hparagraphs (texts : List Points) (style : ParagraphStyle) :
      (texts.map fun text => paragraphItem text style).filterMap blockOf =
        texts.map fun text => .paragraph (readParagraph text) := by
    rw [List.filterMap_map, ← List.filterMap_eq_map]
    exact congrArg (fun f => texts.filterMap f) (funext fun text => blockOf_paragraphItem text style)
  have hsections : (spec.sections.flatMap fun part => paragraphItem part.heading .Heading1 ::
      part.paragraphs.map fun value => paragraphItem value .Normal).filterMap blockOf =
      spec.sections.flatMap fun part => .paragraph (readParagraph part.heading) ::
        part.paragraphs.map fun value => .paragraph (readParagraph value) := by
    rw [List.filterMap_flatMap]
    refine congrArg (fun f => spec.sections.flatMap f) (funext fun part => ?_)
    rw [List.filterMap_cons_some (blockOf_paragraphItem _ _), hparagraphs]
  have htables : (spec.tables.mapIdx fun index table =>
      [paragraphItem (tableTitle table index) .Heading2, tableItem table]).flatten.filterMap blockOf =
      (spec.tables.mapIdx fun index table =>
        [Block.paragraph (readParagraph (tableTitle table index)),
          .table ((table.columns :: table.rows).map fun row =>
            row.map fun cell => [readParagraph cell])]).flatten := by
    rw [flatten_mapIdx, flatten_mapIdx, List.filterMap_flatMap]
    refine congrArg (fun f => spec.tables.zipIdx.flatMap f) (funext fun item => ?_)
    rw [List.filterMap_cons_some (blockOf_paragraphItem _ _),
      List.filterMap_cons_some (blockOf_tableItem _), List.filterMap_nil]
  rw [contentItems, List.filterMap_cons_some (blockOf_paragraphItem _ _),
    List.filterMap_cons_some (blockOf_paragraphItem _ _), List.filterMap_append, hsections, htables]
  rfl

end OpenVac.Artifacts
