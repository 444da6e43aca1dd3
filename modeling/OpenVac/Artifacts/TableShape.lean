/-
  File:      OpenVac/Artifacts/TableShape.lean
  Subject:   The tables of an accepted specification are read back from CSV and Markdown.

  * `rowLine_markdownRow` -- a row of a Markdown table is one line with the cells' texts.
  * `renderMarkdown_eq` -- the document, its tables one after the other.
  * `table_shapes` -- both renderings of an accepted specification.
-/
import OpenVac.Artifacts.Renderers
import Mathlib.Data.List.Forall2

namespace OpenVac.Artifacts

open CodePoints

/-! ## 1. CSV cells -/

theorem startsFormula_iff (value : Points) : startsFormula value = true ↔ StartsFormula value := by
  unfold startsFormula
  constructor
  · intro h
    cases hrest : value.dropWhile isFormulaBlank with
    | nil =>
      rw [hrest] at h
      nomatch h
    | cons sign rest =>
      rw [hrest] at h
      refine ⟨value.takeWhile isFormulaBlank, sign, rest, ?_, h, ?_⟩
      · rw [← hrest, List.takeWhile_append_dropWhile]
      · exact fun c hc => List.mem_takeWhile_imp hc
  · rintro ⟨blanks, sign, rest, rfl, hsign, hblanks⟩
    have hsolid : ¬ isFormulaBlank sign = true := by
      intro hblank
      simp only [isFormulaBlank, isFormulaSign, Bool.or_eq_true, beq_iff_eq] at hblank hsign
      rcases hsign with ((rfl | rfl) | rfl) | rfl <;> simp at hblank
    rw [List.dropWhile_append_of_pos hblanks, List.dropWhile_cons_of_neg hsolid]
    exact hsign

theorem not_startsFormula_apostrophe (value : Points) :
    ¬ StartsFormula (.scalar '\'' :: value) := by
  rw [← startsFormula_iff]
  have hsolid : ¬ isFormulaBlank (.scalar '\'') = true := by decide
  unfold startsFormula
  rw [List.dropWhile_cons_of_neg hsolid, List.head?_cons, Option.any_some]
  decide

theorem neutralised_safeValue (value : Points) :
    Neutralised value (safeValue value) ∧ ¬ StartsFormula (safeValue value) := by
  unfold safeValue
  by_cases hformula : startsFormula value = true
  · rw [if_pos hformula]
    exact ⟨.inr ⟨(startsFormula_iff value).mp hformula, rfl⟩, not_startsFormula_apostrophe value⟩
  · rw [if_neg hformula]
    have hplain : ¬ StartsFormula value := fun h => hformula ((startsFormula_iff value).mpr h)
    exact ⟨.inl ⟨hplain, rfl⟩, hplain⟩

/-! ## 2. The CSV file -/

theorem csvChunk_eq (rows : List (List Points)) :
    csvChunk rows = Csv.recordsText (rows.map fun row => row.map safeValue) := by
  unfold csvChunk Csv.recordsText Csv.recordText
  rw [List.map_map]
  refine congrArg _ (List.map_congr_left fun row _ => ?_)
  rw [Function.comp_apply, List.map_map]
  rfl

/-- The groups of records of a CSV file, one a table. -/
def csvGroups (spec : ArtifactSpec) : List (List (List Points)) :=
  spec.tables.mapIdx fun index table => csvRows spec.tables.length table index

theorem renderCsv_eq (spec : ArtifactSpec) :
    renderCsv spec = byteOrderMark :: (Csv.groupsText
      ((csvGroups spec).map fun group => group.map fun row => row.map safeValue) ++
        Csv.lineEnd) := by
  have hchunks : (spec.tables.mapIdx fun index table =>
      csvChunk (csvRows spec.tables.length table index)) =
      ((csvGroups spec).map fun group => group.map fun row => row.map safeValue).map
        Csv.recordsText := by
    refine List.ext_getElem? fun index => ?_
    rw [csvGroups, List.map_map, List.getElem?_map, List.getElem?_mapIdx, List.getElem?_mapIdx,
      Option.map_map]
    exact congrArg (fun f => Option.map f spec.tables[index]?) (funext fun table => csvChunk_eq _)
  rw [renderCsv, hchunks]
  rfl

theorem csvGroups_ne_nil [LowerCaseTable] [UuidFormat] {spec : ArtifactSpec}
    (hspec : WellFormed spec) {group : List (List Points)} (h : group ∈ csvGroups spec) :
    group ≠ [] ∧ ∀ fields ∈ group, fields ≠ [] := by
  obtain ⟨index, hindex, rfl⟩ := List.mem_mapIdx.mp h
  have htable : spec.tables[index] ∈ spec.tables := List.getElem_mem hindex
  have hcolumns := hspec.columns _ htable
  refine ⟨by simp [csvRows], fun fields hfields => ?_⟩
  rcases List.mem_append.mp hfields with htitle | hrow
  · split at htitle
    · rw [List.mem_singleton.mp htitle]
      simp
    · nomatch htitle
  · rcases List.mem_cons.mp hrow with rfl | hrow
    · exact hcolumns
    · intro hnil
      have hlength := hspec.rows _ htable fields hrow
      rw [hnil] at hlength
      exact hcolumns (List.length_eq_zero_iff.mp hlength.symm)

theorem map_intercalate {α β : Type} (f : α → β) (separator : List α) (parts : List (List α)) :
    (List.intercalate separator parts).map f =
      List.intercalate (separator.map f) (parts.map fun part => part.map f) := by
  induction parts with
  | nil => rfl
  | cons part parts ih =>
    cases parts with
    | nil => simp [List.intercalate]
    | cons other more => simp_all [List.intercalate]

/-- **The CSV file of an accepted specification** is decoded to its records, the cells that would
    start a formula behind an apostrophe. -/
theorem decodeCsv_renderCsv [LowerCaseTable] [UuidFormat] {spec : ArtifactSpec}
    (hspec : WellFormed spec) (htables : spec.tables ≠ []) :
    decodeCsv (renderCsv spec) =
      some ((csvRecords spec).map fun record => record.map safeValue) := by
  have hne : (csvGroups spec).map (fun group => group.map fun row => row.map safeValue) ≠ [] := by
    simpa [csvGroups] using htables
  rw [renderCsv_eq, decodeCsv, if_pos rfl, Csv.records_groupsText hne]
  · have hblank : ([[[]]] : List (List Points)) = [[[]]].map fun record => record.map safeValue := rfl
    rw [csvRecords, map_intercalate, ← hblank]
    rfl
  · intro group hgroup
    obtain ⟨rows, hrows, rfl⟩ := List.mem_map.mp hgroup
    obtain ⟨hrowsNe, hfields⟩ := csvGroups_ne_nil hspec hrows
    refine ⟨by simpa using hrowsNe, fun fields hin => ?_⟩
    obtain ⟨row, hrow, rfl⟩ := List.mem_map.mp hin
    simpa using hfields row hrow

/-! ## 3. Markdown cells -/

/-- A line break of either kind, replaced. -/
def tagBreak (c : CodePoint) : Points :=
  if c = .scalar '\n' ∨ c = .scalar '\r' then lineBreakTag else [c]

theorem replaceBreaks_eq (s : Points) :
    replaceAll [.scalar '\r'] lineBreakTag (replaceAll [.scalar '\n'] lineBreakTag s) =
      s.flatMap tagBreak := by
  rw [replaceAll_single, replaceAll_single, List.flatMap_assoc]
  refine congrArg (fun f => List.flatMap f s) (funext fun c => ?_)
  unfold tagBreak
  by_cases hlf : c = .scalar '\n'
  · rw [if_pos hlf, if_pos (.inl hlf)]
    decide
  · by_cases hcr : c = .scalar '\r'
    · rw [if_neg hlf, if_pos (.inr hcr), List.flatMap_singleton, if_pos hcr]
    · rw [if_neg hlf, if_neg (by simp [hlf, hcr]), List.flatMap_singleton, if_neg hcr]

/-- The three replacements of line breaks. -/
theorem replaceAllBreaks_eq (s : Points) :
    (replaceAll [.scalar '\r', .scalar '\n'] lineBreakTag s).flatMap tagBreak =
      breaksAsTags s := by
  fun_induction breaksAsTags s with
  | case1 => rfl
  | case2 rest ih =>
    rw [replaceAll_pair_match, List.flatMap_append, ih]
    rfl
  | case3 rest hnot ih =>
    have hother : ¬ [CodePoint.scalar '\r', .scalar '\n'] <+: .scalar '\r' :: rest := by
      rintro ⟨more, hmore⟩
      exact hnot more (List.cons.inj hmore).2.symm
    rw [replaceAll_pair_other _ hother, List.flatMap_cons, ih]
    rfl
  | case4 rest ih =>
    have hother : ¬ [CodePoint.scalar '\r', .scalar '\n'] <+: .scalar '\n' :: rest := by
      rintro ⟨more, hmore⟩
      nomatch (List.cons.inj hmore).1
    rw [replaceAll_pair_other _ hother, List.flatMap_cons, ih]
    rfl
  | case5 c rest hpair hcr hlf ih =>
    have hother : ¬ [CodePoint.scalar '\r', .scalar '\n'] <+: c :: rest := by
      rintro ⟨more, hmore⟩
      exact hcr (List.cons.inj hmore).1.symm
    have hkept : tagBreak c = [c] := if_neg fun h => h.elim hlf hcr
    rw [replaceAll_pair_other _ hother, List.flatMap_cons, ih, hkept]
    rfl

theorem replaceEscapes_eq (s : Points) :
    replaceAll [.scalar '|'] [.scalar '\\', .scalar '|']
        (replaceAll [.scalar '\\'] [.scalar '\\', .scalar '\\'] s) = PipeRows.escaped s := by
  rw [replaceAll_single, replaceAll_single, List.flatMap_assoc]
  refine congrArg (fun f => List.flatMap f s) (funext fun c => ?_)
  unfold PipeRows.escapeOne
  by_cases hbackslash : c = .scalar '\\'
  · rw [if_pos hbackslash, if_pos hbackslash]
    decide
  · rw [if_neg hbackslash, if_neg hbackslash, List.flatMap_singleton]

theorem breaksAsTags_plain {c : CodePoint} (hcr : c ≠ '\r') (hlf : c ≠ '\n') (rest : Points) :
    breaksAsTags (c :: rest) = c :: breaksAsTags rest := by
  rw [breaksAsTags]
  · intro _ h
    exact absurd h hcr
  · exact hcr
  · exact hlf

/-- A CR that no LF follows. -/
theorem breaksAsTags_cr {rest : Points} (h : ∀ more, rest ≠ .scalar '\n' :: more) :
    breaksAsTags (.scalar '\r' :: rest) = lineBreakTag ++ breaksAsTags rest := by
  rw [breaksAsTags]
  exact h

/-- Escapes and line breaks do not meet. -/
theorem breaksAsTags_escaped (s : Points) :
    breaksAsTags (PipeRows.escaped s) = PipeRows.escaped (breaksAsTags s) := by
  have htag (rest : Points) : PipeRows.escaped (lineBreakTag ++ rest) =
      lineBreakTag ++ PipeRows.escaped rest := rfl
  fun_induction breaksAsTags s with
  | case1 => rfl
  | case2 rest ih =>
    rw [htag, ← ih]
    rfl
  | case3 rest hnot ih =>
    have hafter : ∀ more, PipeRows.escaped rest ≠ .scalar '\n' :: more := by
      intro more hmore
      cases rest with
      | nil => nomatch hmore
      | cons d rest =>
        have hd : d ≠ '\n' := fun hd => hnot rest (by rw [hd])
        unfold PipeRows.escaped at hmore
        rw [List.flatMap_cons] at hmore
        unfold PipeRows.escapeOne at hmore
        split_ifs at hmore
        · nomatch (List.cons.inj hmore).1
        · nomatch (List.cons.inj hmore).1
        · exact hd (List.cons.inj hmore).1
    have hcell : PipeRows.escaped (.scalar '\r' :: rest) = .scalar '\r' :: PipeRows.escaped rest :=
      rfl
    rw [hcell, breaksAsTags_cr hafter, ih, htag]
  | case4 rest ih =>
    rw [htag, ← ih]
    rfl
  | case5 c rest hpair hcr hlf ih =>
    unfold PipeRows.escaped
    rw [List.flatMap_cons, List.flatMap_cons]
    unfold PipeRows.escaped at ih
    unfold PipeRows.escapeOne
    split_ifs with hbackslash hpipe
    · rw [List.cons_append, List.singleton_append, breaksAsTags_plain (by decide) (by decide),
        breaksAsTags_plain (by decide) (by decide)]
      exact congrArg (fun s => CodePoint.scalar '\\' :: .scalar '\\' :: s) ih
    · rw [List.cons_append, List.singleton_append, breaksAsTags_plain (by decide) (by decide),
        breaksAsTags_plain (by decide) (by decide)]
      exact congrArg (fun s => CodePoint.scalar '\\' :: .scalar '|' :: s) ih
    · rw [List.singleton_append, breaksAsTags_plain hcr hlf]
      exact congrArg (c :: ·) ih

/-- **A Markdown cell** is the escaped text with its line breaks as tags. -/
theorem markdownCell_eq (value : Points) :
    markdownCell value = PipeRows.escaped (breaksAsTags value) := by
  unfold markdownCell
  rw [replaceBreaks_eq, replaceAllBreaks_eq, replaceEscapes_eq, breaksAsTags_escaped]

theorem oneLine_breaksAsTags (value : Points) : OneLine (breaksAsTags value) := by
  have htag {rest : Points} (h : OneLine rest) : OneLine (lineBreakTag ++ rest) := by
    refine ⟨fun hc => ?_, fun hc => ?_⟩
    · exact (List.mem_append.mp hc).elim (by decide) h.1
    · exact (List.mem_append.mp hc).elim (by decide) h.2
  fun_induction breaksAsTags value with
  | case1 => exact ⟨List.not_mem_nil, List.not_mem_nil⟩
  | case2 rest ih => exact htag ih
  | case3 rest hnot ih => exact htag ih
  | case4 rest ih => exact htag ih
  | case5 c rest hpair hcr hlf ih =>
    refine ⟨fun hc => ?_, fun hc => ?_⟩
    · exact (List.mem_cons.mp hc).elim (fun h => hcr h.symm) ih.1
    · exact (List.mem_cons.mp hc).elim (fun h => hlf h.symm) ih.2

/-! ## 4. Markdown rows -/

/-- **A row of a Markdown table** is one line, cut into its cells' texts. -/
theorem rowLine_markdownRow {cells : List Points} (hne : cells ≠ []) :
    RowLine cells.length cells (markdownRow cells) := by
  have htext : markdownRow cells =
      PipeRows.rowText ((cells.map breaksAsTags).map PipeRows.escaped) := by
    rw [List.map_map, markdownRow, PipeRows.rowText]
    have hcells : cells.map markdownCell = cells.map (PipeRows.escaped ∘ breaksAsTags) :=
      List.map_congr_left fun cell _ => markdownCell_eq cell
    rw [hcells]
  have hmap : cells.map breaksAsTags ≠ [] := by simpa using hne
  obtain ⟨hsplit, htexts⟩ := PipeRows.rowCells_rowText hmap
  rw [htext]
  have hpieces : PipeRows.cellPieces
      (PipeRows.rowText ((cells.map breaksAsTags).map PipeRows.escaped)) =
      (cells.map breaksAsTags).map PipeRows.padded := by
    rw [PipeRows.cellPieces, hsplit, List.tail_cons, List.dropLast_concat]
  refine ⟨PipeRows.oneLine_rowText fun text htext => ?_, ?_, ?_, htexts⟩
  · obtain ⟨cell, -, rfl⟩ := List.mem_map.mp htext
    exact oneLine_breaksAsTags cell
  · rw [hsplit, hpieces]
  · rw [hpieces, List.length_map, List.length_map]

theorem mem_markdownRows [LowerCaseTable] [UuidFormat] {spec : ArtifactSpec}
    (hspec : WellFormed spec) {table : ArtifactTable} (htable : table ∈ spec.tables)
    {cells : List Points} (h : cells ∈ markdownRows table) :
    cells ≠ [] ∧ cells.length = table.columns.length := by
  have hcolumns := hspec.columns table htable
  have hlength : cells.length = table.columns.length := by
    simp only [markdownRows, List.mem_cons] at h
    rcases h with rfl | rfl | hrow
    · rfl
    · exact List.length_map _
    · exact hspec.rows table htable cells hrow
  refine ⟨fun hnil => hcolumns ?_, hlength⟩
  rw [hnil] at hlength
  exact List.length_eq_zero_iff.mp hlength.symm

/-- The lines that a table is written in. -/
def markdownLines (table : ArtifactTable) : List Points := (markdownRows table).map markdownRow

theorem tableRows_markdownLines [LowerCaseTable] [UuidFormat] {spec : ArtifactSpec}
    (hspec : WellFormed spec) {table : ArtifactTable} (htable : table ∈ spec.tables) :
    TableRows table (markdownLines table) := by
  unfold TableRows markdownLines
  rw [List.forall₂_map_right_iff, List.forall₂_same]
  intro cells hcells
  obtain ⟨hne, hlength⟩ := mem_markdownRows hspec htable hcells
  rw [← hlength]
  exact rowLine_markdownRow hne

/-! ## 5. The document -/

/-- Lines that are joined, and the text after them. -/
theorem textLines_joined {lines : List Points} (hne : lines ≠ [])
    (hline : ∀ line ∈ lines, OneLine line) (rest : Points) :
    textLines (List.intercalate [.scalar '\n'] lines ++ .scalar '\n' :: rest) =
      lines ++ textLines rest := by
  induction lines with
  | nil => exact absurd rfl hne
  | cons line lines ih =>
    have hfirst := hline line List.mem_cons_self
    cases lines with
    | nil =>
      have htext : List.intercalate [CodePoint.scalar '\n'] [line] = line := by
        simp [List.intercalate]
      rw [htext, textLines_append_lf hfirst]
      rfl
    | cons other more =>
      have htext : List.intercalate [CodePoint.scalar '\n'] (line :: other :: more) =
          line ++ .scalar '\n' :: List.intercalate [.scalar '\n'] (other :: more) := by
        simp [List.intercalate]
      have htail := ih (by simp) fun l h => hline l (List.mem_cons_of_mem _ h)
      rw [htext, List.append_assoc, List.cons_append, textLines_append_lf hfirst, htail]
      rfl

/-- The text of tables with their headings, from the line feed before them on. -/
def tableTexts (heading : Nat → ArtifactTable → Points) : List ArtifactTable → Points
  | [] => []
  | table :: more =>
      .scalar '\n' :: (heading 0 table ++ .scalar '\n' :: .scalar '\n' ::
        (markdownTable table ++ .scalar '\n' :: tableTexts (fun index => heading (index + 1)) more))

/-- The tables stand one after the other in the lines of a text that ends with them. -/
theorem within_tableTexts (heading : Nat → ArtifactTable → Points) {tables : List ArtifactTable}
    (hone : ∀ table ∈ tables, ∀ line ∈ markdownLines table, OneLine line) (before : Points) :
    Within (tables.map markdownLines) (textLines (before ++ tableTexts heading tables)) := by
  induction tables generalizing heading before with
  | nil => exact .nil _
  | cons table more ih =>
    have hne : markdownLines table ≠ [] := by simp [markdownLines, markdownRows]
    have hlines := textLines_joined hne (hone table List.mem_cons_self)
      (tableTexts (fun index => heading (index + 1)) more)
    obtain ⟨gap, -, hgap⟩ := textLines_after_lf
      (before ++ .scalar '\n' :: (heading 0 table ++ [.scalar '\n']))
      (markdownTable table ++ .scalar '\n' :: tableTexts (fun index => heading (index + 1)) more)
    have htext : before ++ tableTexts heading (table :: more) =
        before ++ .scalar '\n' :: (heading 0 table ++ [.scalar '\n']) ++ .scalar '\n' ::
          (markdownTable table ++
            .scalar '\n' :: tableTexts (fun index => heading (index + 1)) more) := by
      simp [tableTexts]
    rw [htext, hgap]
    have hrest := ih (fun index => heading (index + 1))
      (fun other h => hone other (List.mem_cons_of_mem _ h)) []
    unfold markdownTable
    rw [show (markdownRows table).map markdownRow = markdownLines table from rfl, hlines]
    exact .cons gap (markdownLines table) hrest

theorem joined_flatMap {lines : List Points} (hne : lines ≠ []) :
    List.intercalate [CodePoint.scalar '\n'] lines ++ [.scalar '\n'] =
      lines.flatMap fun line => line ++ [.scalar '\n'] := by
  induction lines with
  | nil => exact absurd rfl hne
  | cons line lines ih =>
    cases lines with
    | nil => simp [List.intercalate]
    | cons other more =>
      have htext : List.intercalate [CodePoint.scalar '\n'] (line :: other :: more) =
          line ++ .scalar '\n' :: List.intercalate [.scalar '\n'] (other :: more) := by
        simp [List.intercalate]
      rw [List.flatMap_cons, ← ih (by simp), htext]
      simp

theorem tableTexts_flatMap (heading : Nat → ArtifactTable → Points) (tables : List ArtifactTable) :
    .scalar '\n' :: ((tables.mapIdx fun index table =>
        [heading index table, [], markdownTable table, []]).flatten.flatMap fun line =>
          line ++ [.scalar '\n']) =
      tableTexts heading tables ++ [.scalar '\n'] := by
  induction tables generalizing heading with
  | nil => rfl
  | cons table more ih =>
    have htail := ih fun index => heading (index + 1)
    rw [List.mapIdx_cons, List.flatten_cons, List.flatMap_append]
    simp only [List.flatMap_cons, List.flatMap_nil, List.nil_append, List.append_assoc,
      List.append_nil, List.cons_append, tableTexts]
    rw [htail]

/-- A table's text ends with the pipe of its last row. -/
theorem markdownTable_ends (table : ArtifactTable) :
    ∃ text, markdownTable table = text ++ [.scalar '|'] := by
  have hrow (cells : List Points) : ∃ text, markdownRow cells = text ++ [.scalar '|'] :=
    ⟨.scalar '|' :: .scalar ' ' :: (List.intercalate [.scalar ' ', .scalar '|', .scalar ' ']
      (cells.map markdownCell) ++ [.scalar ' ']), by simp [markdownRow]⟩
  have hrows (first : List Points) (rows : List (List Points)) : ∃ text,
      List.intercalate [CodePoint.scalar '\n'] ((first :: rows).map markdownRow) =
        text ++ [.scalar '|'] := by
    induction rows generalizing first with
    | nil =>
      obtain ⟨text, htext⟩ := hrow first
      exact ⟨text, by simp [List.intercalate, htext]⟩
    | cons second rows ih =>
      obtain ⟨text, htext⟩ := ih second
      refine ⟨markdownRow first ++ .scalar '\n' :: text, ?_⟩
      rw [List.append_assoc, List.cons_append, ← htext]
      simp [List.intercalate]
  exact hrows _ _

theorem tableTexts_ends (heading : Nat → ArtifactTable → Points) {tables : List ArtifactTable}
    (hne : tables ≠ []) :
    ∃ text, tableTexts heading tables = text ++ [.scalar '|', .scalar '\n'] := by
  induction tables generalizing heading with
  | nil => exact absurd rfl hne
  | cons table more ih =>
    obtain ⟨last, hlast⟩ := markdownTable_ends table
    cases more with
    | nil =>
      refine ⟨.scalar '\n' :: (heading 0 table ++ .scalar '\n' :: .scalar '\n' :: last), ?_⟩
      simp [tableTexts, hlast]
    | cons other more =>
      obtain ⟨text, htext⟩ := ih (fun index => heading (index + 1)) (by simp)
      refine ⟨.scalar '\n' :: (heading 0 table ++ .scalar '\n' :: .scalar '\n' ::
        (markdownTable table ++ .scalar '\n' :: text)), ?_⟩
      rw [tableTexts, htext]
      simp

/-- **The Markdown document** of a specification with tables ends with the tables' texts. -/
theorem renderMarkdown_eq (spec : ArtifactSpec) (htables : spec.tables ≠ []) :
    ∃ before, renderMarkdown spec = before ++
      tableTexts (fun index table => secondHeading (tableTitle table index)) spec.tables := by
  obtain ⟨init, final, hopening⟩ : ∃ init final, openingLines spec = init ++ [final] :=
    ⟨_, _, (List.dropLast_append_getLast (by simp [openingLines])).symm⟩
  obtain ⟨text, htext⟩ := tableTexts_ends
    (fun index table => secondHeading (tableTitle table index)) htables
  refine ⟨(init.flatMap fun line => line ++ [.scalar '\n']) ++ final, ?_⟩
  have hjoined : List.intercalate [CodePoint.scalar '\n'] (openingLines spec ++
      (spec.tables.mapIdx fun index table => tableLines table index).flatten) =
      (init.flatMap fun line => line ++ [.scalar '\n']) ++ final ++
        tableTexts (fun index table => secondHeading (tableTitle table index)) spec.tables := by
    refine (List.append_left_inj [CodePoint.scalar '\n']).mp ?_
    rw [joined_flatMap (by simp [openingLines]), List.flatMap_append, hopening,
      List.flatMap_append, List.append_assoc _ _ [CodePoint.scalar '\n'], ← tableTexts_flatMap]
    simp [tableLines]
  rw [renderMarkdown, hjoined, htext]
  have htrim (start : Points) : Points.trimEnd (start ++ [.scalar '|', .scalar '\n']) =
      start ++ [.scalar '|'] := by
    have hsplit : start ++ [CodePoint.scalar '|', .scalar '\n'] =
        (start ++ [.scalar '|']) ++ [.scalar '\n'] := by simp
    rw [Points.trimEnd, hsplit, List.rdropWhile_concat_pos _ _ _ (by decide),
      List.rdropWhile_concat_neg _ _ _ (by decide)]
  rw [← List.append_assoc, htrim]
  simp

/-! ## 6. The claim of both renderings -/

/-- **The tables of an accepted specification keep their shape.** The CSV file is decoded to its
    records, no cell of which starts a formula; each row of the Markdown document's tables is one
    line that is cut into the table's cells. -/
theorem table_shapes [LowerCaseTable] [UuidFormat] {input spec : ArtifactSpec}
    (hparse : parseArtifactSpec input = .ok spec) (htables : spec.tables ≠ []) :
    (∃ decoded, decodeCsv (renderCsv spec) = some decoded ∧
      List.Forall₂ (List.Forall₂ Neutralised) (csvRecords spec) decoded ∧
      ∀ record ∈ decoded, ∀ cell ∈ record, ¬ StartsFormula cell) ∧
    ∃ blocks, Within blocks (textLines (renderMarkdown spec)) ∧
      List.Forall₂ TableRows spec.tables blocks := by
  have hspec := wellFormed_of_accepted ⟨input, hparse⟩
  refine ⟨⟨_, decodeCsv_renderCsv hspec htables, ?_, ?_⟩, spec.tables.map markdownLines, ?_, ?_⟩
  · rw [List.forall₂_map_right_iff, List.forall₂_same]
    intro record _
    rw [List.forall₂_map_right_iff, List.forall₂_same]
    exact fun value _ => (neutralised_safeValue value).1
  · intro record hrecord cell hcell
    obtain ⟨values, -, rfl⟩ := List.mem_map.mp hrecord
    obtain ⟨value, -, rfl⟩ := List.mem_map.mp hcell
    exact (neutralised_safeValue value).2
  · obtain ⟨before, hbefore⟩ := renderMarkdown_eq spec htables
    rw [hbefore]
    refine within_tableTexts _ (fun table htable line hline => ?_) before
    obtain ⟨cells, hcells, rfl⟩ := List.mem_map.mp hline
    exact (rowLine_markdownRow (mem_markdownRows hspec htable hcells).1).oneLine
  · rw [List.forall₂_map_right_iff, List.forall₂_same]
    exact fun table htable => tableRows_markdownLines hspec htable

/-- A table of one column whose cell would start a formula and holds a pipe and a line break. -/
def sampleSpec : ArtifactSpec where
  kind := .parameter_table
  title := [.scalar 't']
  formats := [.md, .csv]
  summary := [.scalar 's']
  sections := []
  tables := [{ title := none, columns := [[.scalar 'a']],
               rows := [[[.scalar '\n', .scalar '=', .scalar '|', .scalar '"']]] }]
  sourceTurnId := (List.replicate 8 '0' ++ ['-'] ++ List.replicate 4 '0' ++ ['-', '4'] ++
    List.replicate 3 '0' ++ ['-', '8'] ++ List.replicate 3 '0' ++ ['-'] ++
    List.replicate 12 '0').map .scalar

theorem table_shapes_sample :
    let _ : LowerCaseTable := ⟨id⟩
    let _ : UuidFormat := ⟨fun s => s.length == 36⟩
    (∃ decoded, decodeCsv (renderCsv sampleSpec) = some decoded ∧
      List.Forall₂ (List.Forall₂ Neutralised) (csvRecords sampleSpec) decoded ∧
      ∀ record ∈ decoded, ∀ cell ∈ record, ¬ StartsFormula cell) ∧
    ∃ blocks, Within blocks (textLines (renderMarkdown sampleSpec)) ∧
      List.Forall₂ TableRows sampleSpec.tables blocks := by
  let _ : LowerCaseTable := ⟨id⟩
  let _ : UuidFormat := ⟨fun s => s.length == 36⟩
  have hparse : parseArtifactSpec sampleSpec = .ok sampleSpec := by decide
  exact table_shapes hparse (by decide)

end OpenVac.Artifacts
