/-
  File:      OpenVac/Artifacts/DocxReadBack.lean
  Subject:   Which specifications are read back from the DOCX file's two XML texts.

  * `readXmlFile_of_parses` -- what is read where only allowed characters stand.
  * `fits_documentXml` -- when only allowed characters stand in the document.
  * `readParagraph_eq_iff` -- which texts a paragraph gives back.
  * `docx_reads_back_iff` -- a specification is read back when each code point of its texts
    survives.
-/
import OpenVac.Artifacts.DocxReading

namespace OpenVac.Artifacts

open CodePoints
open JsString (Text)
open Xml (Item Token Attributes Reads Parses Builds readText)

/-! ## 1. Whole documents -/

/-- `trim` takes the blanks before a text that ends with another character. -/
theorem trim_eq {first rest last : Points} {c : CodePoint} (middle : Points)
    (hfirst : first.dropWhile CodePoint.isWhiteSpace = rest) (hne : rest ≠ [])
    (hlast : last.getLast? = some c) (hsolid : c.isWhiteSpace = false) :
    Points.trim (first ++ (middle ++ last)) = rest ++ (middle ++ last) := by
  obtain ⟨init, hinit⟩ := List.getLast?_eq_some_iff.mp hlast
  have hstart : (first ++ (middle ++ last)).dropWhile CodePoint.isWhiteSpace =
      rest ++ (middle ++ last) := by
    rw [List.dropWhile_append, hfirst, if_neg (by simpa using hne)]
  have hend : rest ++ (middle ++ last) = rest ++ (middle ++ init) ++ [c] := by
    rw [hinit, List.append_assoc, List.append_assoc]
  unfold Points.trim Points.trimEnd
  rw [hstart, hend]
  exact List.rdropWhile_concat_neg _ _ _ (by rw [hsolid]; exact Bool.false_ne_true)

def xmlDeclaration : Points := lit "<?xml version=\"1.0\" encoding=\"UTF-8\" standalone=\"yes\"?>"

def documentTag : Points :=
  lit "<w:document xmlns:w=\"http://schemas.openxmlformats.org/wordprocessingml/2006/main\">"

/-- The body's element, its tags' blanks before it. -/
def bodyText (spec : ArtifactSpec) : Points :=
  lit "\n  <w:body>" ++ (documentContent spec ++ sectionProperties ++ lit "</w:body>")

theorem documentXml_eq (spec : ArtifactSpec) :
    documentXml spec =
      xmlDeclaration ++ (documentTag ++ (bodyText spec ++ lit "\n</w:document>")) := by
  have hfirst : List.dropWhile CodePoint.isWhiteSpace (lit
      "\n<w:document xmlns:w=\"http://schemas.openxmlformats.org/wordprocessingml/2006/main\">") =
        documentTag := by
    rw [documentTag, lit_ofList, lit_ofList]
    rfl
  have hne : documentTag ≠ [] := by
    rw [documentTag, lit_ofList]
    exact List.cons_ne_nil _ _
  have hlast : (lit "\n</w:document>").getLast? = some (.scalar '>') := by decide
  unfold documentXml xml
  exact congrArg (xmlDeclaration ++ ·) (trim_eq (bodyText spec) hfirst hne hlast (by decide))

def coreTag : Points := lit "<cp:coreProperties" ++ coreNamespaces ++ lit ">"

/-- The properties, their blanks before them. -/
def propertiesText (spec : ArtifactSpec) : Points :=
  lit "\n  " ++ (lit "<dc:title>" ++ (escapeXml spec.title ++ lit "</dc:title>")) ++ coreAuthors

theorem corePropertiesXml_eq (spec : ArtifactSpec) :
    corePropertiesXml spec =
      xmlDeclaration ++ (coreTag ++ (propertiesText spec ++ lit "\n</cp:coreProperties>")) := by
  have hfirst : (lit "\n<cp:coreProperties" ++ coreNamespaces ++ lit ">").dropWhile
      CodePoint.isWhiteSpace = coreTag := by
    rw [coreTag, lit_ofList, lit_ofList]
    rfl
  have hne : coreTag ≠ [] := by
    rw [coreTag, lit_ofList]
    exact List.cons_ne_nil _ _
  have hlast : (lit "\n</cp:coreProperties>").getLast? = some (.scalar '>') := by decide
  unfold corePropertiesXml xml
  exact congrArg (xmlDeclaration ++ ·) (trim_eq (propertiesText spec) hfirst hne hlast (by decide))

/-- What is stored is what is read: only lone surrogates are replaced. -/
theorem readXmlFile_textEntry (content : Points) :
    readXmlFile (textEntry content) = Xml.readXml (Xml.writtenText content) := by
  rw [readXmlFile, textEntry, Utf8.decode_encode]

theorem all_writtenText (s : Points) : (Xml.writtenText s).all Xml.isXmlChar = fits s := by
  rw [Xml.writtenText, List.all_map]
  rfl

/-- **A document of one element** is read as this element where its characters are allowed. -/
theorem readXmlFile_of_parses {s : Points} {name : Text} {attributes : Attributes}
    {children : List Item} (h : Parses s [.element name attributes children]) :
    readXmlFile (textEntry (xmlDeclaration ++ s)) =
      if fits s then some (.element name attributes children) else none := by
  obtain ⟨tokens, hreads, hbuilds⟩ := h
  have hfits : fits (xmlDeclaration ++ s) = fits s := by
    rw [fits_append, xmlDeclaration, markup_declaration.fits, Bool.true_and]
  have hlex : Xml.lexFrom .content (Xml.normalizeLines (Xml.writtenText (xmlDeclaration ++ s))) =
      some ([.declaration] ++ tokens) := by
    have hall := Xml.reads_append markup_declaration.reads hreads []
    rw [List.append_nil] at hall
    rw [xmlDeclaration, hall]
    simp [Xml.writtenText, Xml.normalizeLines, Xml.lexFrom]
  have hbuild : Xml.build [] [] tokens = some [.element name attributes children] := by
    have hall := hbuilds [] [] []
    rw [List.append_nil] at hall
    rw [hall]
    rfl
  rw [readXmlFile_textEntry, Xml.readXml, all_writtenText, hfits, hlex]
  by_cases hs : fits s = true
  · rw [if_pos hs, if_pos hs, Option.bind_some, List.singleton_append, Xml.readTokens, hbuild]
    rfl
  · rw [if_neg hs, if_neg hs]

theorem childrenNamed_append (name : String) (items more : List Item) :
    childrenNamed name (items ++ more) = childrenNamed name items ++ childrenNamed name more :=
  List.filterMap_append

theorem childrenNamed_characters (name : String) (chars : Text) :
    childrenNamed name (chars.map Item.character) = [] := by
  unfold childrenNamed
  rw [List.filterMap_map]
  exact List.filterMap_eq_nil_iff.mpr fun _ _ => rfl

/-- The size and margins of the pages. -/
def sectionItem : Item :=
  .element (tag "w:sectPr") []
    [.element (tag "w:pgSz") [(tag "w:w", tag "11906"), (tag "w:h", tag "16838")] [],
      .element (tag "w:pgMar") [(tag "w:top", tag "1134"), (tag "w:right", tag "1134"),
        (tag "w:bottom", tag "1134"), (tag "w:left", tag "1134")] []]

/-- The children of the body. -/
def bodyItems (spec : ArtifactSpec) : List Item := contentItems spec ++ [sectionItem]

/-- The children of the root: the body, between white space. -/
def rootItems (spec : ArtifactSpec) : List Item :=
  "\n  ".toList.map Item.character ++ [.element (tag "w:body") [] (bodyItems spec)] ++
    "\n".toList.map Item.character

theorem parses_document (spec : ArtifactSpec) :
    Parses (documentTag ++ (bodyText spec ++ lit "\n</w:document>"))
      [.element (tag "w:document") [(tag "xmlns:w",
        tag "http://schemas.openxmlformats.org/wordprocessingml/2006/main")] (rootItems spec)] := by
  have hsection : Parses sectionProperties [sectionItem] := by
    refine markup_sectPr.parses fun before stack rest => ?_
    simp [Xml.build, sectionItem]
  have hbodyEnd : Reads (lit "</w:body>")
      (([] : Text).map Token.character ++ [.endTag (tag "w:body")]) := markup_body_end.reads
  have hbody := Xml.parses_spacedElement markup_body.reads
    (Xml.parses_append (parses_documentContent spec) hsection) hbodyEnd
  rw [List.map_nil, List.append_nil] at hbody
  have htag : Reads documentTag (([] : Text).map Token.character ++
      [.startTag (tag "w:document") [(tag "xmlns:w",
        tag "http://schemas.openxmlformats.org/wordprocessingml/2006/main")]]) :=
    markup_document.reads
  exact Xml.parses_spacedElement htag hbody markup_document_end.reads

/-- **The document**: its blocks as they are read, where its characters are allowed. -/
theorem read_documentXml (spec : ArtifactSpec) :
    (readXmlFile (textEntry (documentXml spec))).map documentBlocks =
      if fits (documentXml spec) then some (some (blocksWith readParagraph spec)) else none := by
  have hfits : fits (documentXml spec) =
      fits (documentTag ++ (bodyText spec ++ lit "\n</w:document>")) := by
    rw [documentXml_eq, fits_append, xmlDeclaration, markup_declaration.fits, Bool.true_and]
  have hbody : childrenNamed "w:body" (rootItems spec) = [bodyItems spec] := by
    rw [rootItems, childrenNamed_append, childrenNamed_append, childrenNamed_characters,
      childrenNamed_characters, childrenNamed_named]
    rfl
  have hblocks : (bodyItems spec).filterMap blockOf = blocksWith readParagraph spec := by
    have hsection : [sectionItem].filterMap blockOf = [] := by
      rw [List.filterMap_cons_none, List.filterMap_nil]
      rw [sectionItem, blockOf, if_neg (by decide), if_neg (by decide)]
    rw [bodyItems, List.filterMap_append, filterMap_contentItems, hsection, List.append_nil]
  rw [hfits, documentXml_eq, readXmlFile_of_parses (parses_document spec)]
  split_ifs
  · rw [Option.map_some, documentBlocks, if_pos rfl, hbody, List.head?_cons, Option.map_some,
      hblocks]
  · rfl

/-- An element of the properties. -/
def simpleItem (name : String) (attributes : Attributes) (text : String) : Item :=
  .element (tag name) attributes (text.toList.map .character)

/-- The children of the properties, from the title on. -/
def propertyItems (spec : ArtifactSpec) : List Item :=
  [.element (tag "dc:title") [] ((readText spec.title).map Item.character)] ++
    ([simpleItem "dc:creator" [] "OpenVac"] ++ ([simpleItem "cp:lastModifiedBy" [] "OpenVac"] ++
      ([simpleItem "dcterms:created" dateAttributes "2000-01-01T00:00:00Z"] ++
        [simpleItem "dcterms:modified" dateAttributes "2000-01-01T00:00:00Z"])))

theorem builds_simpleElement (name : String) (attributes : Attributes) (text : String) :
    Builds (simpleElement name attributes text) [simpleItem name attributes text] :=
  Xml.builds_element (tag name) attributes (Xml.builds_characters text.toList)

theorem parses_core (spec : ArtifactSpec) :
    Parses (coreTag ++ (propertiesText spec ++ lit "\n</cp:coreProperties>"))
      [.element (tag "cp:coreProperties") coreAttributes
        ("\n  ".toList.map Item.character ++ propertyItems spec ++ "\n".toList.map Item.character)] := by
  have hspace : Parses (lit "\n  ") ("\n  ".toList.map Item.character) :=
    Xml.parses_characters markup_space.reads
  have htitle := parses_escaped spec.title markup_title.reads markup_title_end.reads ⟨_, rfl⟩
  have hauthors : Parses coreAuthors _ := markup_authors.parses
    (Xml.builds_append (builds_simpleElement _ _ _) (Xml.builds_append (builds_simpleElement _ _ _)
      (Xml.builds_append (builds_simpleElement _ _ _) (builds_simpleElement _ _ _))))
  have hinner := Xml.parses_append (Xml.parses_append hspace htitle) hauthors
  rw [List.append_assoc] at hinner
  have htag : Reads coreTag (([] : Text).map Token.character ++
      [.startTag (tag "cp:coreProperties") coreAttributes]) := markup_core.reads
  exact Xml.parses_spacedElement htag hinner markup_core_end.reads

/-- **The properties**: their title as it is read, where their characters are allowed. -/
theorem read_corePropertiesXml (spec : ArtifactSpec) :
    (readXmlFile (textEntry (corePropertiesXml spec))).map coreTitle =
      if fits (corePropertiesXml spec) then some (some (readLine spec.title)) else none := by
  have hfits : fits (corePropertiesXml spec) =
      fits (coreTag ++ (propertiesText spec ++ lit "\n</cp:coreProperties>")) := by
    rw [corePropertiesXml_eq, fits_append, xmlDeclaration, markup_declaration.fits, Bool.true_and]
  have htitle : (childrenNamed "dc:title" ("\n  ".toList.map Item.character ++ propertyItems spec ++
      "\n".toList.map Item.character)).head? =
        some ((readText spec.title).map Item.character) := by
    rw [childrenNamed_append, childrenNamed_append, childrenNamed_characters, propertyItems,
      List.singleton_append, childrenNamed_named]
    rfl
  rw [hfits, corePropertiesXml_eq, readXmlFile_of_parses (parses_core spec)]
  split_ifs
  · rw [Option.map_some, coreTitle, if_pos rfl, htitle, Option.map_some, characters_readText]
  · rfl

/-! ## 2. Allowed characters -/

theorem fits_flatMap {α : Type} (items : List α) (f : α → Points) :
    fits (items.flatMap f) = items.all fun item => fits (f item) := List.all_flatMap

theorem fits_escapeXml (value : Points) : fits (escapeXml value) = fits value := by
  have hpoint (c : CodePoint) : fits (Xml.escapePoint c) = Xml.isXmlChar (Xml.written c) := by
    unfold Xml.escapePoint
    split_ifs with hamp hlt hgt hquot hapos
    · rw [hamp]; decide
    · rw [hlt]; decide
    · rw [hgt]; decide
    · rw [hquot]; decide
    · rw [hapos]; decide
    · exact Bool.and_true _
  rw [escapeXml_eq, Xml.escapeXml, fits_flatMap]
  exact congrArg value.all (funext hpoint)

theorem fits_run (index : Nat) (line : Points) : fits (run index line) = fits line := by
  have hbreak : fits (if index > 0 then lit "<w:br/>" else []) = true := by
    split_ifs
    · exact markup_br.fits
    · rfl
  unfold run
  simp only [fits_append, markup_r.fits, hbreak, markup_t.fits, fits_escapeXml, markup_t_end.fits,
    markup_r_end.fits, Bool.true_and, Bool.and_true]

/-- A text is allowed when its lines are. -/
theorem fits_splitOn (text : Points) :
    ((text.splitOn (.scalar '\n')).all fits) = fits text := by
  have hjoin : List.intercalate [CodePoint.scalar '\n'] (text.splitOn (.scalar '\n')) = text :=
    List.intercalate_splitOn _
  cases hlines : text.splitOn (.scalar '\n') with
  | nil => exact absurd hlines (List.splitOn_ne_nil _ _)
  | cons first lines =>
    have hline (line : Points) : fits (.scalar '\n' :: line) = fits line := Bool.true_and _
    rw [hlines, intercalate_cons] at hjoin
    rw [← hjoin, fits_append, fits_flatMap, List.all_cons]
    exact congrArg (fits first && ·) (congrArg lines.all (funext fun line => (hline line).symm))

theorem fits_paragraph (text : Points) (style : ParagraphStyle) :
    fits (paragraph text style) = fits text := by
  have hruns : fits ((text.splitOn (.scalar '\n')).mapIdx run).flatten = fits text := by
    rw [flatten_mapIdx, fits_flatMap, ← fits_splitOn]
    have hpoint : (fun item : Points × Nat => fits (run item.2 item.1)) = fits ∘ Prod.fst :=
      funext fun item => fits_run item.2 item.1
    rw [hpoint, ← List.all_map, List.zipIdx_map_fst]
  unfold paragraph
  rw [fits_append, fits_append, fits_append, markup_p.fits, (markup_style style).fits, hruns,
    markup_p_end.fits, Bool.true_and, Bool.true_and, Bool.and_true]

theorem fits_tableCell (header : Bool) (cell : Points) :
    fits (tableCell header cell) = fits cell := by
  have hproperties : fits (lit "<w:tcPr><w:tcW w:w=\"0\" w:type=\"auto\"/>" ++
      (if header then lit "<w:shd w:fill=\"E8EEF4\"/>" else []) ++ lit "</w:tcPr>") = true :=
    (markup_tcPr header).fits
  unfold tableCell
  rw [fits_append, fits_append, fits_append, markup_tc.fits, hproperties, fits_paragraph,
    markup_tc_end.fits, Bool.true_and, Bool.true_and, Bool.and_true]

theorem fits_tableRow (header : Bool) (cells : List Points) :
    fits (tableRow header cells) = cells.all fits := by
  unfold tableRow
  rw [fits_append, fits_append, markup_tr.fits, fits_flatMap, markup_tr_end.fits, Bool.true_and,
    Bool.and_true]
  exact congrArg cells.all (funext fun cell => fits_tableCell header cell)

theorem fits_tableXml (table : ArtifactTable) :
    fits (tableXml table) = (table.columns :: table.rows).flatten.all fits := by
  unfold tableXml
  rw [fits_append, fits_append, fits_append, fits_append, markup_tbl.fits, markup_tblPr.fits,
    fits_tableRow, fits_flatMap, markup_tbl_end.fits, Bool.true_and, Bool.true_and, Bool.and_true,
    List.flatten_cons, List.all_append, List.all_flatten]
  exact congrArg (table.columns.all fits && ·)
    (congrArg table.rows.all (funext fun cells => fits_tableRow false cells))

/-- The texts of the document's paragraphs and cells, in order. -/
def documentTexts (spec : ArtifactSpec) : List Points :=
  spec.title :: spec.summary ::
    (spec.sections.flatMap (fun part => part.heading :: part.paragraphs) ++
      spec.tables.zipIdx.flatMap fun item =>
        tableTitle item.1 item.2 :: (item.1.columns :: item.1.rows).flatten)

/-- **The document holds only allowed characters** when its texts do. -/
theorem fits_documentXml (spec : ArtifactSpec) :
    fits (documentXml spec) = (documentTexts spec).all fits := by
  have hsections : fits (spec.sections.flatMap fun part => paragraph part.heading .Heading1 ++
      part.paragraphs.flatMap fun value => paragraph value .Normal) =
      (spec.sections.flatMap fun part => part.heading :: part.paragraphs).all fits := by
    rw [fits_flatMap, List.all_flatMap]
    refine congrArg spec.sections.all (funext fun part => ?_)
    rw [fits_append, fits_paragraph, fits_flatMap, List.all_cons]
    exact congrArg (fits part.heading && ·)
      (congrArg part.paragraphs.all (funext fun value => fits_paragraph value .Normal))
  have htables : fits (spec.tables.mapIdx fun index table =>
      paragraph (tableTitle table index) .Heading2 ++ tableXml table).flatten =
      (spec.tables.zipIdx.flatMap fun item =>
        tableTitle item.1 item.2 :: (item.1.columns :: item.1.rows).flatten).all fits := by
    rw [flatten_mapIdx, fits_flatMap, List.all_flatMap]
    refine congrArg spec.tables.zipIdx.all (funext fun item => ?_)
    rw [fits_append, fits_paragraph, fits_tableXml, List.all_cons]
  rw [documentXml_eq, bodyText, documentContent, documentTexts, List.all_cons, List.all_cons,
    List.all_append, ← hsections, ← htables]
  simp only [fits_append, xmlDeclaration, markup_declaration.fits, documentTag, markup_document.fits,
    markup_body.fits, fits_paragraph, markup_sectPr.fits, markup_body_end.fits,
    markup_document_end.fits, Bool.true_and, Bool.and_true]

theorem fits_corePropertiesXml (spec : ArtifactSpec) :
    fits (corePropertiesXml spec) = fits spec.title := by
  have hcore : fits coreTag = true := markup_core.fits
  rw [corePropertiesXml_eq, propertiesText]
  simp only [fits_append, xmlDeclaration, markup_declaration.fits, hcore, markup_space.fits,
    markup_title.fits, fits_escapeXml, markup_title_end.fits, markup_authors.fits,
    markup_core_end.fits, Bool.true_and, Bool.and_true]

/-! ## 3. Texts that are read back -/

theorem mem_normalizeLines {c : Char} {s : Text} (h : c ∈ Xml.normalizeLines s) : c ≠ '\r' := by
  fun_induction Xml.normalizeLines s with
  | case1 => nomatch h
  | case2 rest ih =>
    rcases List.mem_cons.mp h with rfl | h
    · decide
    · exact ih h
  | case3 rest hnot ih =>
    rcases List.mem_cons.mp h with rfl | h
    · decide
    · exact ih h
  | case4 d rest hpair hcr ih =>
    rcases List.mem_cons.mp h with rfl | h
    · exact hcr
    · exact ih h

/-- The code points of what is read are characters other than CR. -/
theorem mem_readLine {c : CodePoint} {line : Points} (h : c ∈ readLine line) :
    ∃ d, c = .scalar d ∧ d ≠ '\r' := by
  obtain ⟨d, hd, rfl⟩ := List.mem_map.mp h
  exact ⟨d, rfl, mem_normalizeLines hd⟩

/-- A text whose code points are characters other than CR. -/
def Plain (s : Points) : Prop := ∀ c ∈ s, ∃ d, c = .scalar d ∧ d ≠ '\r'

theorem readLine_of_plain {line : Points} (h : Plain line) : readLine line = line := by
  have hcr : '\r' ∉ Xml.writtenText line := by
    intro hmem
    obtain ⟨c, hc, hwritten⟩ := List.mem_map.mp hmem
    obtain ⟨d, rfl, hd⟩ := h c hc
    exact hd hwritten
  have hread : readText line = Xml.writtenText line := by
    have hall := Xml.normalizeLines_append hcr []
    rw [List.append_nil] at hall
    rw [readText, hall]
    exact List.append_nil _
  rw [readLine, hread, Xml.writtenText, List.map_map]
  refine (List.map_congr_left fun c hc => ?_).trans (List.map_id line)
  obtain ⟨d, rfl, -⟩ := h c hc
  rfl

theorem mem_intercalate_of_mem {a c : CodePoint} {part : Points} {parts : List Points}
    (hpart : part ∈ parts) (hc : c ∈ part) : c ∈ List.intercalate [a] parts := by
  cases parts with
  | nil => nomatch hpart
  | cons first parts =>
    rw [intercalate_cons]
    rcases List.mem_cons.mp hpart with rfl | hpart
    · exact List.mem_append_left _ hc
    · exact List.mem_append_right _
        (List.mem_flatMap.mpr ⟨part, hpart, List.mem_cons_of_mem _ hc⟩)

/-- **A paragraph gives its text back** when the text is plain, and only then. -/
theorem readParagraph_eq_iff (text : Points) : readParagraph text = text ↔ Plain text := by
  have hjoin : List.intercalate [CodePoint.scalar '\n'] (text.splitOn (.scalar '\n')) = text :=
    List.intercalate_splitOn _
  constructor
  · intro h c hc
    rw [← h] at hc
    unfold readParagraph at hc
    rcases PipeRows.mem_intercalate hc with hc | ⟨line, hline, hc⟩
    · exact ⟨'\n', List.mem_singleton.mp hc, by decide⟩
    · obtain ⟨source, -, rfl⟩ := List.mem_map.mp hline
      exact mem_readLine hc
  · intro h
    have hlines : (text.splitOn (.scalar '\n')).map readLine = text.splitOn (.scalar '\n') := by
      refine (List.map_congr_left fun line hline => ?_).trans (List.map_id _)
      refine readLine_of_plain fun c hc => h c ?_
      rw [← hjoin]
      exact mem_intercalate_of_mem hline hc
    rw [readParagraph, hlines, hjoin]

/-- The texts of a block. -/
def Block.texts : Block → List Points
  | .paragraph text => [text]
  | .table rows => rows.flatten.flatten

theorem texts_blocksWith (f : Points → Points) (spec : ArtifactSpec) :
    (blocksWith f spec).flatMap Block.texts = (documentTexts spec).map f := by
  have hparagraphs (texts : List Points) :
      (texts.map fun text => Block.paragraph (f text)).flatMap Block.texts = texts.map f := by
    rw [List.flatMap_map, List.map_eq_flatMap]
    rfl
  have hcells (rows : List (List Points)) :
      ((rows.map fun row => row.map fun cell => [f cell]).flatten.flatten) =
        rows.flatten.map f := by
    induction rows with
    | nil => rfl
    | cons row rows ih =>
      have hrow : (row.map fun cell => [f cell]).flatten = row.map f := by
        rw [← List.flatMap_def, List.map_eq_flatMap]
      rw [List.map_cons, List.flatten_cons, List.flatten_append, ih, hrow, List.flatten_cons,
        List.map_append]
  have hsections : (spec.sections.flatMap fun part => Block.paragraph (f part.heading) ::
      part.paragraphs.map fun value => .paragraph (f value)).flatMap Block.texts =
      (spec.sections.flatMap fun part => part.heading :: part.paragraphs).map f := by
    rw [List.flatMap_assoc, List.map_flatMap]
    refine congrArg (fun g => spec.sections.flatMap g) (funext fun part => ?_)
    rw [List.flatMap_cons, hparagraphs, List.map_cons]
    rfl
  have htables : (spec.tables.zipIdx.flatMap fun item =>
      [Block.paragraph (f (tableTitle item.1 item.2)),
        .table ((item.1.columns :: item.1.rows).map fun row => row.map fun cell => [f cell])]).flatMap
          Block.texts =
      (spec.tables.zipIdx.flatMap fun item =>
        tableTitle item.1 item.2 :: (item.1.columns :: item.1.rows).flatten).map f := by
    rw [List.flatMap_assoc, List.map_flatMap]
    refine congrArg (fun g => spec.tables.zipIdx.flatMap g) (funext fun item => ?_)
    rw [List.flatMap_cons, List.flatMap_singleton, List.map_cons]
    have hrows := hcells (item.1.columns :: item.1.rows)
    exact congrArg (f (tableTitle item.1 item.2) :: ·) hrows
  rw [blocksWith, documentTexts, List.flatMap_cons, List.flatMap_cons, List.flatMap_append,
    hsections, flatten_mapIdx, htables, List.map_cons, List.map_cons, List.map_append]
  rfl

theorem blocksWith_congr {f g : Points → Points} {spec : ArtifactSpec}
    (h : ∀ text ∈ documentTexts spec, f text = g text) : blocksWith f spec = blocksWith g spec := by
  unfold documentTexts at h
  have hsections : (spec.sections.flatMap fun part => Block.paragraph (f part.heading) ::
      part.paragraphs.map fun value => .paragraph (f value)) =
      spec.sections.flatMap fun part => Block.paragraph (g part.heading) ::
        part.paragraphs.map fun value => .paragraph (g value) := by
    refine List.flatMap_congr fun part hpart => ?_
    have hin {text : Points} (htext : text ∈ part.heading :: part.paragraphs) : f text = g text :=
      h text (List.mem_cons_of_mem _ (List.mem_cons_of_mem _ (List.mem_append_left _
        (List.mem_flatMap.mpr ⟨part, hpart, htext⟩))))
    rw [hin List.mem_cons_self]
    refine congrArg (Block.paragraph (g part.heading) :: ·) (List.map_congr_left fun value hvalue => ?_)
    rw [hin (List.mem_cons_of_mem _ hvalue)]
  have htables : (spec.tables.zipIdx.flatMap fun item =>
      [Block.paragraph (f (tableTitle item.1 item.2)),
        .table ((item.1.columns :: item.1.rows).map fun row => row.map fun cell => [f cell])]) =
      spec.tables.zipIdx.flatMap fun item =>
        [Block.paragraph (g (tableTitle item.1 item.2)),
          .table ((item.1.columns :: item.1.rows).map fun row => row.map fun cell => [g cell])] := by
    refine List.flatMap_congr fun item hitem => ?_
    have hin {text : Points} (htext : text ∈ tableTitle item.1 item.2 ::
        (item.1.columns :: item.1.rows).flatten) : f text = g text :=
      h text (List.mem_cons_of_mem _ (List.mem_cons_of_mem _ (List.mem_append_right _
        (List.mem_flatMap.mpr ⟨item, hitem, htext⟩))))
    have hrows : ((item.1.columns :: item.1.rows).map fun row => row.map fun cell => [f cell]) =
        (item.1.columns :: item.1.rows).map fun row => row.map fun cell => [g cell] := by
      refine List.map_congr_left fun row hrow => List.map_congr_left fun cell hcell => ?_
      rw [hin (List.mem_cons_of_mem _ (List.mem_flatten.mpr ⟨row, hrow, hcell⟩))]
    rw [hin List.mem_cons_self, hrows]
  rw [blocksWith, blocksWith, h _ List.mem_cons_self,
    h _ (List.mem_cons_of_mem _ List.mem_cons_self), hsections, flatten_mapIdx, flatten_mapIdx,
    htables]

/-! ## 4. Specifications that are read back -/

theorem isDisallowedControl_eq_false_iff {n : Nat} : isDisallowedControl n = false ↔
    n = 0x9 ∨ n = 0xA ∨ n = 0xD ∨ (0x20 ≤ n ∧ n ≠ 0x7F) := by
  simp only [isDisallowedControl, Bool.or_eq_false_iff, Bool.and_eq_false_iff, beq_eq_false_iff_ne,
    decide_eq_false_iff_not]
  omega

theorem survives_digit {c : CodePoint} {n : Nat} (h : c ∈ decimalPoints n) :
    Survives c ∧ isDisallowedControl c.toNat = false := by
  obtain ⟨d, hd, rfl⟩ := List.mem_map.mp h
  have hdigit : d.isDigit = true := Nat.isDigit_of_mem_toDigits (by decide) (by decide) hd
  have hrange : 48 ≤ d.toNat ∧ d.toNat ≤ 57 := by
    simp only [Char.isDigit, Bool.and_eq_true, decide_eq_true_eq] at hdigit
    exact hdigit
  have hne (e : Char) (he : 57 < e.toNat ∨ e.toNat < 48) : d ≠ e := by
    rintro rfl
    omega
  refine ⟨⟨d, rfl, hne _ (by decide), hne _ (by decide), hne _ (by decide)⟩, ?_⟩
  refine isDisallowedControl_eq_false_iff.mpr (.inr (.inr (.inr ?_)))
  show 32 ≤ d.toNat ∧ d.toNat ≠ 127
  omega

theorem tableNumber_survives {c : CodePoint} {index : Nat} (h : c ∈ tableNumber index) :
    Survives c ∧ isDisallowedControl c.toNat = false := by
  rcases List.mem_cons.mp h with rfl | h
  · exact ⟨⟨'表', rfl, by decide, by decide, by decide⟩, by decide⟩
  · rcases List.mem_cons.mp h with rfl | h
    · exact ⟨⟨' ', rfl, by decide, by decide, by decide⟩, by decide⟩
    · exact survives_digit h

/-- What holds of the texts of a specification, of the empty text and of table numbers, holds of
    the texts of the document, and conversely. -/
theorem forall_documentTexts_iff {spec : ArtifactSpec} {P : Points → Prop} (hnil : P [])
    (hnumber : ∀ index, P (tableNumber index)) :
    (∀ text ∈ documentTexts spec, P text) ↔ ∀ text ∈ collectArtifactStrings spec, P text := by
  have htitle (table : ArtifactTable) (index : Nat) : P (tableTitle table index) ↔
      ∀ text ∈ (table.title.filter fun title => decide (0 < Points.length title)).toList, P text := by
    cases hcase : table.title with
    | none => simpa [tableTitle, hcase] using hnumber index
    | some title =>
      rw [tableTitle, hcase, Option.getD_some]
      by_cases hempty : 0 < Points.length title
      · simp [Option.filter, hempty]
      · have hnone : title = [] := by
          cases title with
          | nil => rfl
          | cons c rest =>
            refine absurd ?_ hempty
            have hunits : 0 < c.units := by
              cases c with
              | scalar c => rw [CodePoint.units]; split_ifs <;> omega
              | surrogate n => exact Nat.one_pos
            rw [Points.length, List.map_cons, List.sum_cons]
            omega
        rw [hnone]
        simpa [Option.filter, Points.length] using hnil
  have htables : (∀ text ∈ spec.tables.zipIdx.flatMap fun item =>
        tableTitle item.1 item.2 :: (item.1.columns :: item.1.rows).flatten, P text) ↔
      ∀ text ∈ spec.tables.flatMap fun table =>
        (table.title.filter fun title => decide (0 < Points.length title)).toList ++
          (table.columns ++ table.rows.flatten), P text := by
    constructor
    · intro hall text htext
      obtain ⟨table, htable, hin⟩ := List.mem_flatMap.mp htext
      obtain ⟨index, hindex, rfl⟩ := List.mem_iff_getElem.mp htable
      have hitem : (spec.tables[index], index) ∈ spec.tables.zipIdx :=
        List.mk_mem_zipIdx_iff_getElem?.mpr (List.getElem?_eq_getElem hindex)
      have hone {text : Points} (h : text ∈ tableTitle spec.tables[index] index ::
          (spec.tables[index].columns :: spec.tables[index].rows).flatten) : P text :=
        hall text (List.mem_flatMap.mpr ⟨_, hitem, h⟩)
      rcases List.mem_append.mp hin with hin | hin
      · exact (htitle _ index).mp (hone List.mem_cons_self) text hin
      · exact hone (List.mem_cons_of_mem _ (by rw [List.flatten_cons]; exact hin))
    · intro hall text htext
      obtain ⟨item, hitem, hin⟩ := List.mem_flatMap.mp htext
      have htable : item.1 ∈ spec.tables := List.fst_mem_of_mem_zipIdx hitem
      have hone {text : Points} (h : text ∈ (item.1.title.filter fun title =>
          decide (0 < Points.length title)).toList ++ (item.1.columns ++ item.1.rows.flatten)) :
          P text := hall text (List.mem_flatMap.mpr ⟨_, htable, h⟩)
      rcases List.mem_cons.mp hin with rfl | hin
      · exact (htitle _ _).mpr fun text h => hone (List.mem_append_left _ h)
      · rw [List.flatten_cons] at hin
        exact hone (List.mem_append_right _ hin)
  unfold documentTexts collectArtifactStrings
  simp only [List.forall_mem_cons, List.forall_mem_append]
  rw [htables]

theorem isXmlChar_iff {c : Char} (h : isDisallowedControl c.toNat = false) :
    Xml.isXmlChar c = true ↔ c ≠ '\uFFFE' ∧ c ≠ '\uFFFF' := by
  have hne (d : Char) : c ≠ d ↔ c.toNat ≠ d.toNat :=
    not_congr ⟨fun h => congrArg Char.toNat h, fun h => Char.ext (UInt32.toNat_inj.mp h)⟩
  have hvalid := Utf8.char_bounds c
  rw [hne, hne, show '\uFFFE'.toNat = 0xFFFE from rfl, show '\uFFFF'.toNat = 0xFFFF from rfl]
  rw [isDisallowedControl_eq_false_iff] at h
  simp only [Xml.isXmlChar, Bool.or_eq_true, Bool.and_eq_true, beq_iff_eq, decide_eq_true_eq]
  omega

/-- Of the characters that validation lets through, XML forbids U+FFFE and U+FFFF. -/
theorem fits_plain_iff {s : Points} (h : hasControlCharacter s = false) :
    fits s = true ∧ Plain s ↔ ∀ c ∈ s, Survives c := by
  have hcontrol : ∀ c ∈ s, isDisallowedControl c.toNat = false := by
    intro c hc
    exact Bool.eq_false_iff.mpr (List.any_eq_false.mp h c hc)
  constructor
  · rintro ⟨hfits, hplain⟩ c hc
    obtain ⟨d, rfl, hd⟩ := hplain c hc
    have hallowed : Xml.isXmlChar d = true := List.all_eq_true.mp hfits _ hc
    have hne := (isXmlChar_iff (hcontrol _ hc)).mp hallowed
    exact ⟨d, rfl, hne.1, hne.2, hd⟩
  · intro hall
    refine ⟨List.all_eq_true.mpr fun c hc => ?_, fun c hc => ?_⟩
    · obtain ⟨d, rfl, hfe, hff, -⟩ := hall c hc
      exact (isXmlChar_iff (hcontrol _ hc)).mpr ⟨hfe, hff⟩
    · obtain ⟨d, rfl, -, -, hd⟩ := hall c hc
      exact ⟨d, rfl, hd⟩

/-- What has to hold of a specification that is read back. -/
theorem readsBack_iff (spec : ArtifactSpec) : ReadsBack spec ↔
    ∀ text ∈ documentTexts spec, fits text = true ∧ Plain text := by
  have hdocument := read_documentXml spec
  have hcore := read_corePropertiesXml spec
  have htitle : spec.title ∈ documentTexts spec := List.mem_cons_self
  constructor
  · rintro ⟨document, core, hread, -, hblocks, -⟩
    rw [hread, Option.map_some, hblocks] at hdocument
    split_ifs at hdocument with hfits
    have hequal := Option.some.inj (Option.some.inj hdocument)
    rw [fits_documentXml] at hfits
    intro text htext
    refine ⟨List.all_eq_true.mp hfits text htext, (readParagraph_eq_iff text).mp ?_⟩
    have htexts : (documentTexts spec).map id = (documentTexts spec).map readParagraph := by
      rw [← texts_blocksWith, ← texts_blocksWith, ← hequal]
      rfl
    exact (List.map_inj_left.mp htexts text htext).symm
  · intro hall
    have hfits : fits (documentXml spec) = true := by
      rw [fits_documentXml]
      exact List.all_eq_true.mpr fun text htext => (hall text htext).1
    have hfitsCore : fits (corePropertiesXml spec) = true := by
      rw [fits_corePropertiesXml]
      exact (hall _ htitle).1
    have hblocks : blocksWith readParagraph spec = specBlocks spec :=
      blocksWith_congr fun text htext => (readParagraph_eq_iff text).mpr (hall text htext).2
    rw [if_pos hfits, hblocks] at hdocument
    rw [if_pos hfitsCore, readLine_of_plain (hall _ htitle).2] at hcore
    obtain ⟨document, hread, hdocumentBlocks⟩ := Option.map_eq_some_iff.mp hdocument
    obtain ⟨core, hreadCore, hcoreTitle⟩ := Option.map_eq_some_iff.mp hcore
    exact ⟨document, core, hread, hreadCore, hdocumentBlocks, hcoreTitle⟩

/-- **A specification is read back** from its DOCX file exactly when each code point of its texts
    survives: it is no lone surrogate, not U+FFFE or U+FFFF, and no CR. -/
theorem docx_reads_back_iff [LowerCaseTable] [UuidFormat] {input spec : ArtifactSpec}
    (hparse : parseArtifactSpec input = .ok spec) :
    ReadsBack spec ↔ ∀ text ∈ collectArtifactStrings spec, ∀ c ∈ text, Survives c := by
  have hplain := (wellFormed_of_accepted ⟨input, hparse⟩).plain
  have hcontrol : ∀ text ∈ documentTexts spec, hasControlCharacter text = false := by
    refine (forall_documentTexts_iff (P := fun text => hasControlCharacter text = false) rfl
      fun index => ?_).mpr hplain
    refine List.any_eq_false.mpr fun c hc => ?_
    rw [(tableNumber_survives hc).2]
    exact Bool.false_ne_true
  rw [readsBack_iff, ← forall_documentTexts_iff (P := fun text => ∀ c ∈ text, Survives c)
    (fun c hc => nomatch hc) fun index c hc => (tableNumber_survives hc).1]
  constructor
  · intro hall text htext
    exact (fits_plain_iff (hcontrol text htext)).mp (hall text htext)
  · intro hall text htext
    exact (fits_plain_iff (hcontrol text htext)).mpr (hall text htext)

/-- A report of one section whose paragraph is the text. -/
def reportOf (text : Points) : ArtifactSpec where
  kind := .diagnosis_report
  title := [.scalar 't']
  formats := [.docx]
  summary := [.scalar 's']
  sections := [{ heading := [.scalar 'h'], paragraphs := [text] }]
  tables := []
  sourceTurnId := (List.replicate 8 '0' ++ ['-'] ++ List.replicate 4 '0' ++ ['-', '4'] ++
    List.replicate 3 '0' ++ ['-', '8'] ++ List.replicate 3 '0' ++ ['-'] ++
    List.replicate 12 '0').map .scalar

theorem docx_reads_back_iff_report :
    ReadsBack (reportOf [.scalar '<', .scalar '\n', .scalar '&']) ↔
      ∀ text ∈ collectArtifactStrings (reportOf [.scalar '<', .scalar '\n', .scalar '&']),
        ∀ c ∈ text, Survives c := by
  let _ : LowerCaseTable := ⟨id⟩
  let _ : UuidFormat := ⟨fun s => s.length == 36⟩
  have hparse : parseArtifactSpec (reportOf [.scalar '<', .scalar '\n', .scalar '&']) =
      .ok (reportOf [.scalar '<', .scalar '\n', .scalar '&']) := by decide
  exact docx_reads_back_iff hparse

/-- A paragraph of U+FFFE is accepted, and the document that holds it is not XML. -/
theorem noncharacter_not_read_back :
    ¬ ∀ [LowerCaseTable] [UuidFormat] (input spec : ArtifactSpec),
      parseArtifactSpec input = .ok spec → ReadsBack spec := by
  intro hall
  let _ : LowerCaseTable := ⟨id⟩
  let _ : UuidFormat := ⟨fun s => s.length == 36⟩
  have hparse : parseArtifactSpec (reportOf [.scalar '\uFFFE']) =
      .ok (reportOf [.scalar '\uFFFE']) := by decide
  have hread := (readsBack_iff _).mp (hall _ _ hparse)
  have hmem : [CodePoint.scalar '\uFFFE'] ∈ documentTexts (reportOf [.scalar '\uFFFE']) := by
    simp [documentTexts, reportOf]
  exact absurd (hread _ hmem).1 (by decide)

end OpenVac.Artifacts
