/-
  File:      OpenVac/Agent/ParameterTableClosure.lean
  Subject:   What the contract of parameter tables lets through, the later stages of `preflight`
             let through, up to the limit on visible characters.

  * `PayloadAccepted` -- what is known of an accepted payload.
  * `createArtifactSchema_mapped`, `artifactSpecSchema_mapped`, `semantics_mapped` -- the later
    stages, one by one.
  * `visible_mapped` -- how the visible characters of payload and arguments differ.
  * `mapped_arguments_pass_iff` -- all stages together.
  * `samplePayload`, `filledSection` -- a payload of one parameter, and paragraphs that fill it.
-/
import OpenVac.Agent.ParameterTableContract

namespace OpenVac.Agent.ArtifactContract

open JsString JsRegex OpenVac.Artifacts ArtifactSemantics

/-! ## 1. Texts -/

/-- A text that `providerParameterText` accepts. -/
structure ParameterText (maximum : Nat) (value : Points) : Prop where
  nonempty : 1 ≤ Points.length value
  short : visibleText value ≤ maximum
  trimmed : Points.trim value = value

theorem providerParameterText_eq_some {maximum : Nat} {value found : Points}
    (h : providerParameterText maximum value = some found) :
    found = value ∧ ParameterText maximum value := by
  unfold providerParameterText at h
  split at h
  · rename_i hvalue
    exact ⟨(Option.some.inj h).symm, hvalue.1, hvalue.2.1, hvalue.2.2.symm⟩
  · nomatch h

/-- A code point has two units at most. -/
theorem length_le_two_mul (value : Points) : Points.length value ≤ 2 * visibleText value := by
  unfold Points.length visibleText
  induction value with
  | nil => exact Nat.le_refl _
  | cons c rest ih =>
    have hunits : c.units ≤ 2 := by
      cases c with
      | scalar c =>
        show (if c.toNat < 0x10000 then 1 else 2) ≤ 2
        split
        · exact Nat.le_succ 1
        · exact Nat.le_refl 2
      | surrogate n => exact Nat.le_succ 1
    rw [List.map_cons, List.sum_cons, List.length_cons]
    omega

section Texts

variable {maximum : Nat} {value : Points}

theorem ParameterText.provider (h : ParameterText maximum value) :
    providerParameterText maximum value = some value :=
  if_pos ⟨h.nonempty, h.short, h.trimmed.symm⟩

theorem ParameterText.trimmedProvider (h : ParameterText maximum value) :
    trimmedProviderText maximum value = some value := by
  unfold trimmedProviderText
  rw [h.trimmed]
  exact if_pos ⟨h.nonempty, h.short⟩

theorem ParameterText.providerText (h : ParameterText maximum value) :
    providerTextWithMaximum maximum value = some value := if_pos h.short

theorem ParameterText.bounded (h : ParameterText maximum value) {max : Nat}
    (hmax : 2 * maximum ≤ max) : boundedText max value = some value := by
  have hlength := length_le_two_mul value
  have hshort := h.short
  unfold boundedText
  rw [h.trimmed]
  exact if_pos ⟨h.nonempty, by omega⟩

theorem ParameterText.cell (h : ParameterText maximum value) (hmax : 2 * maximum ≤ 10000) :
    cellText value = some value := by
  have hlength := length_le_two_mul value
  have hshort := h.short
  exact if_pos (by omega)

end Texts

/-- An array whose items are all accepted as they are. -/
theorem boundedArray_self {α : Type} {min max : Nat} {item : α → Option α} {items : List α}
    (hlength : min ≤ items.length ∧ items.length ≤ max) (h : ∀ x ∈ items, item x = some x) :
    boundedArray min max item items = some items := by
  have hitems : items.mapM item = some items := by
    clear hlength
    induction items with
    | nil => rfl
    | cons x items ih =>
      rw [List.mapM_cons, h x List.mem_cons_self, ih fun y hy => h y (List.mem_cons_of_mem _ hy)]
      rfl
  unfold boundedArray
  rw [if_pos hlength, hitems]

/-! ## 2. Accepted payloads -/

structure SectionAccepted (part : ArtifactSection) : Prop where
  heading : ParameterText 120 part.heading
  count : 1 ≤ part.paragraphs.length ∧ part.paragraphs.length ≤ 4
  paragraphs : ∀ paragraph ∈ part.paragraphs, ParameterText 600 paragraph

section Accepted

variable [CharacterClasses] [UnicodeTables]

structure RowAccepted (row : ParameterRow) : Prop where
  cells : ∀ cell ∈ row.cells, ParameterText 160 cell
  issues : parameterRowIssues row = []

structure TableAccepted (table : ParameterTable) : Prop where
  title : ParameterText 120 table.title
  count : 1 ≤ table.rows.length ∧ table.rows.length ≤ 64
  rows : ∀ row ∈ table.rows, RowAccepted row

/-- What is known of a payload that the contract accepts. -/
structure PayloadAccepted (spec : ParameterTablePayload) : Prop where
  contractVersion : spec.contractVersion = PARAMETER_TABLE_PROVIDER_CONTRACT_VERSION
  title : ParameterText 120 spec.title
  formatCount : 1 ≤ spec.formats.length ∧ spec.formats.length ≤ 4
  summary : ParameterText 600 spec.summary
  sectionCount : spec.sections.length ≤ 4
  sections : ∀ part ∈ spec.sections, SectionAccepted part
  tableCount : 1 ≤ spec.tables.length ∧ spec.tables.length ≤ 2
  tables : ∀ table ∈ spec.tables, TableAccepted table
  totalRows : (spec.tables.map fun table => table.rows.length).sum ≤ 64
  dimensional : ∃ table ∈ spec.tables, ∃ row ∈ table.rows, isDimensionalRow row = true
  visible : spec.visible ≤ 6000

omit [CharacterClasses] [UnicodeTables] in
theorem sectionAccepted_of {part found : ArtifactSection}
    (h : providerSectionSchema providerParameterText part = some found) : SectionAccepted found := by
  unfold providerSectionSchema at h
  obtain ⟨heading, hheading, h⟩ := Option.bind_eq_some_iff.mp h
  obtain ⟨paragraphs, hparagraphs, h⟩ := Option.bind_eq_some_iff.mp h
  obtain rfl := Option.some.inj h
  obtain ⟨hmin, hmax, hmem⟩ := boundedArray_spec hparagraphs
  obtain ⟨rfl, htext⟩ := providerParameterText_eq_some hheading
  refine ⟨htext, ⟨hmin, hmax⟩, fun paragraph hparagraph => ?_⟩
  obtain ⟨a, ha⟩ := hmem paragraph hparagraph
  obtain ⟨rfl, htext⟩ := providerParameterText_eq_some ha
  exact htext

theorem rowAccepted_of {row found : ParameterRow}
    (h : parameterTableProviderRowSchema row = some found) : RowAccepted found := by
  unfold parameterTableProviderRowSchema at h
  obtain ⟨parameter, hparameter, h⟩ := Option.bind_eq_some_iff.mp h
  obtain ⟨valueOrStatus, hvalue, h⟩ := Option.bind_eq_some_iff.mp h
  obtain ⟨unit, hunit, h⟩ := Option.bind_eq_some_iff.mp h
  obtain ⟨assumption, hassumption, h⟩ := Option.bind_eq_some_iff.mp h
  obtain ⟨rfl, hparameter⟩ := providerParameterText_eq_some hparameter
  obtain ⟨rfl, hvalue⟩ := providerParameterText_eq_some hvalue
  obtain ⟨rfl, hunit⟩ := providerParameterText_eq_some hunit
  obtain ⟨rfl, hassumption⟩ := providerParameterText_eq_some hassumption
  dsimp only at h
  split at h
  · rename_i hissues
    obtain rfl := Option.some.inj h
    refine ⟨fun cell hcell => ?_, hissues⟩
    simp only [ParameterRow.cells, List.mem_cons, List.not_mem_nil, or_false] at hcell
    rcases hcell with rfl | rfl | rfl | rfl <;> assumption
  · nomatch h

theorem tableAccepted_of {table found : ParameterTable} (h : parameterTableSchema table = some found) :
    TableAccepted found := by
  unfold parameterTableSchema at h
  obtain ⟨title, htitle, h⟩ := Option.bind_eq_some_iff.mp h
  obtain ⟨rows, hrows, h⟩ := Option.bind_eq_some_iff.mp h
  obtain rfl := Option.some.inj h
  obtain ⟨rfl, htext⟩ := providerParameterText_eq_some htitle
  obtain ⟨hmin, hmax, hmem⟩ := boundedArray_spec hrows
  refine ⟨htext, ⟨hmin, hmax⟩, fun row hrow => ?_⟩
  obtain ⟨a, ha⟩ := hmem row hrow
  exact rowAccepted_of ha

theorem payloadAccepted_of {input spec : ParameterTablePayload}
    (h : parameterTableProviderSchema input = some spec) : PayloadAccepted spec := by
  unfold parameterTableProviderSchema at h
  obtain ⟨version, hversion, h⟩ := Option.bind_eq_some_iff.mp h
  obtain ⟨title, htitle, h⟩ := Option.bind_eq_some_iff.mp h
  obtain ⟨formats, hformats, h⟩ := Option.bind_eq_some_iff.mp h
  obtain ⟨summary, hsummary, h⟩ := Option.bind_eq_some_iff.mp h
  obtain ⟨sections, hsections, h⟩ := Option.bind_eq_some_iff.mp h
  obtain ⟨tables, htables, h⟩ := Option.bind_eq_some_iff.mp h
  dsimp only at h
  split at h
  · rename_i hmatches
    obtain rfl := Option.some.inj h
    obtain ⟨rfl, htitleText⟩ := providerParameterText_eq_some htitle
    obtain ⟨rfl, hsummaryText⟩ := providerParameterText_eq_some hsummary
    obtain ⟨hformatMin, hformatMax, -⟩ := boundedArray_spec hformats
    obtain ⟨-, hsectionMax, hsectionMem⟩ := boundedArray_spec hsections
    obtain ⟨htableMin, htableMax, htableMem⟩ := boundedArray_spec htables
    unfold payloadMatches at hmatches
    simp only [Bool.and_eq_true, decide_eq_true_eq, List.any_eq_true] at hmatches
    obtain ⟨⟨htotal, hdimensional⟩, hvisible⟩ := hmatches
    have hversionText : version = PARAMETER_TABLE_PROVIDER_CONTRACT_VERSION := by
      unfold literalText at hversion
      split at hversion
      · rename_i heq
        rw [← Option.some.inj hversion, heq]
      · nomatch hversion
    refine ⟨hversionText, htitleText, ⟨hformatMin, hformatMax⟩, hsummaryText, hsectionMax,
      fun part hpart => ?_, ⟨htableMin, htableMax⟩, fun table htable => ?_, htotal, hdimensional,
      hvisible⟩
    · obtain ⟨a, ha⟩ := hsectionMem part hpart
      exact sectionAccepted_of ha
    · obtain ⟨a, ha⟩ := htableMem table htable
      exact tableAccepted_of ha
  · nomatch h

/-- What is known of an accepted payload is all that the contract asks for. -/
theorem parameterTableProviderSchema_self {spec : ParameterTablePayload} (h : PayloadAccepted spec) :
    parameterTableProviderSchema spec = some spec := by
  have hsection : ∀ part ∈ spec.sections,
      providerSectionSchema providerParameterText part = some part := by
    intro part hpart
    obtain ⟨hheading, hcount, hparagraphs⟩ := h.sections part hpart
    have hheadingText : providerParameterText 120 part.heading = some part.heading :=
      hheading.provider
    have hparagraphTexts : boundedArray 1 4 (providerParameterText 600) part.paragraphs =
        some part.paragraphs :=
      boundedArray_self hcount fun paragraph hparagraph =>
        (hparagraphs paragraph hparagraph).provider
    unfold providerSectionSchema
    simp only [ARTIFACT_PROVIDER_LIMITS.titleCharacters,
      ARTIFACT_PROVIDER_LIMITS.paragraphsPerSection, ARTIFACT_PROVIDER_LIMITS.paragraphCharacters,
      hheadingText, hparagraphTexts]
    rfl
  have hrow (row : ParameterRow) (hrow : RowAccepted row) :
      parameterTableProviderRowSchema row = some row := by
    have htext (cell : Points) (hcell : cell ∈ row.cells) :
        providerParameterText 160 cell = some cell := (hrow.cells cell hcell).provider
    unfold parameterTableProviderRowSchema
    simp only [ARTIFACT_PROVIDER_LIMITS.cellCharacters, htext row.parameter (by simp [ParameterRow.cells]),
      htext row.valueOrStatus (by simp [ParameterRow.cells]),
      htext row.unit (by simp [ParameterRow.cells]),
      htext row.assumptionOrCondition (by simp [ParameterRow.cells]), Option.bind_eq_bind,
      Option.bind_some]
    exact if_pos hrow.issues
  have htable : ∀ table ∈ spec.tables, parameterTableSchema table = some table := by
    intro table htable
    obtain ⟨htitle, hcount, hrows⟩ := h.tables table htable
    have htitleText : providerParameterText 120 table.title = some table.title := htitle.provider
    have hrowTexts : boundedArray 1 64 parameterTableProviderRowSchema table.rows =
        some table.rows := boundedArray_self hcount fun row hmem => hrow row (hrows row hmem)
    unfold parameterTableSchema
    simp only [ARTIFACT_PROVIDER_LIMITS.titleCharacters, ARTIFACT_PROVIDER_LIMITS.rowsPerTable,
      htitleText, hrowTexts]
    rfl
  have hversion : literalText PARAMETER_TABLE_PROVIDER_CONTRACT_VERSION spec.contractVersion =
      some spec.contractVersion := if_pos h.contractVersion
  have htitle : providerParameterText 120 spec.title = some spec.title := h.title.provider
  have hsummary : providerParameterText 600 spec.summary = some spec.summary := h.summary.provider
  have hformats : boundedArray 1 4 some spec.formats = some spec.formats :=
    boundedArray_self h.formatCount fun _ _ => rfl
  have hsections : boundedArray 0 4 (providerSectionSchema providerParameterText) spec.sections =
      some spec.sections := boundedArray_self ⟨Nat.zero_le _, h.sectionCount⟩ hsection
  have htables : boundedArray 1 2 parameterTableSchema spec.tables = some spec.tables :=
    boundedArray_self h.tableCount htable
  have hmatches : payloadMatches spec = true := by
    unfold payloadMatches
    simp only [Bool.and_eq_true, decide_eq_true_eq, List.any_eq_true]
    exact ⟨⟨h.totalRows, h.dimensional⟩, h.visible⟩
  unfold parameterTableProviderSchema
  simp only [ARTIFACT_PROVIDER_LIMITS.titleCharacters, ARTIFACT_PROVIDER_LIMITS.formats,
    ARTIFACT_PROVIDER_LIMITS.summaryCharacters, ARTIFACT_PROVIDER_LIMITS.sections,
    ARTIFACT_PROVIDER_LIMITS.tables, hversion, htitle, hsummary, hformats, hsections, htables,
    Option.bind_eq_bind, Option.bind_some]
  exact if_pos hmatches

end Accepted

/-! ## 3. The stages -/

/-- The host's lower case leaves ideographs alone. -/
class IdeographCase extends LowerCaseTable where
  lower_ideographs : ∀ s : Points, (∀ c ∈ s, 0x4E00 ≤ c.toNat ∧ c.toNat ≤ 0x9FFF) →
    toLocaleLowerCase s = s

theorem columns_text : ∀ column ∈ PARAMETER_TABLE_COLUMNS, ParameterText 80 column := by
  intro column hcolumn
  have hall : PARAMETER_TABLE_COLUMNS.all (fun column => decide (1 ≤ Points.length column ∧
      visibleText column ≤ 80 ∧ Points.trim column = column)) = true := by decide
  obtain ⟨hnonempty, hshort, htrimmed⟩ := of_decide_eq_true (List.all_eq_true.mp hall column hcolumn)
  exact ⟨hnonempty, hshort, htrimmed⟩

section Stages

variable [CharacterClasses] [UnicodeTables] {spec : ParameterTablePayload}

theorem sections_provider (h : PayloadAccepted spec) :
    boundedArray 0 4 (providerSectionSchema trimmedProviderText) spec.sections =
      some spec.sections := by
  refine boundedArray_self ⟨Nat.zero_le _, h.sectionCount⟩ fun part hpart => ?_
  obtain ⟨hheading, hcount, hparagraphs⟩ := h.sections part hpart
  have hheadingText : trimmedProviderText 120 part.heading = some part.heading :=
    hheading.trimmedProvider
  have hparagraphTexts : boundedArray 1 4 (trimmedProviderText 600) part.paragraphs =
      some part.paragraphs :=
    boundedArray_self hcount fun paragraph hparagraph =>
      (hparagraphs paragraph hparagraph).trimmedProvider
  unfold providerSectionSchema
  simp only [ARTIFACT_PROVIDER_LIMITS.titleCharacters, ARTIFACT_PROVIDER_LIMITS.paragraphsPerSection,
    ARTIFACT_PROVIDER_LIMITS.paragraphCharacters, hheadingText, hparagraphTexts]
  rfl

theorem sections_schema (h : PayloadAccepted spec) :
    boundedArray 0 64 artifactSectionSchema spec.sections = some spec.sections := by
  have hcount := h.sectionCount
  refine boundedArray_self ⟨Nat.zero_le _, by omega⟩ fun part hpart => ?_
  obtain ⟨hheading, hcount, hparagraphs⟩ := h.sections part hpart
  have hparagraphTexts : boundedArray 1 100 (boundedText 10000) part.paragraphs =
      some part.paragraphs :=
    boundedArray_self ⟨hcount.1, by omega⟩ fun paragraph hparagraph =>
      (hparagraphs paragraph hparagraph).bounded (by omega)
  unfold artifactSectionSchema
  rw [hheading.bounded (by omega), hparagraphTexts]
  rfl

/-- The table that a parameter table is mapped to. -/
def mappedTable (table : ParameterTable) : ArtifactTable where
  title := some table.title
  columns := PARAMETER_TABLE_COLUMNS
  rows := table.rows.map ParameterRow.cells

theorem mappedTable_provider {table : ParameterTable} (h : TableAccepted table) :
    artifactProviderTableSchema (mappedTable table) = some (mappedTable table) := by
  have htitle : (some table.title).mapM (trimmedProviderText 120) = some (some table.title) := by
    rw [Option.mapM_some, h.title.trimmedProvider]
    rfl
  have hcolumns : boundedArray 1 8 (trimmedProviderText 80) PARAMETER_TABLE_COLUMNS =
      some PARAMETER_TABLE_COLUMNS :=
    boundedArray_self ⟨by decide, by decide⟩ fun column hcolumn =>
      (columns_text column hcolumn).trimmedProvider
  have hrows : boundedArray 1 64 (boundedArray 1 8 (providerTextWithMaximum 160))
      (table.rows.map ParameterRow.cells) = some (table.rows.map ParameterRow.cells) := by
    refine boundedArray_self (by rw [List.length_map]; exact h.count) fun cells hcells => ?_
    obtain ⟨row, hrow, rfl⟩ := List.mem_map.mp hcells
    refine boundedArray_self ⟨?_, ?_⟩ fun cell hcell => ((h.rows row hrow).cells cell hcell).providerText
    · exact Nat.le_add_left 1 3
    · exact Nat.le_add_right 4 4
  unfold artifactProviderTableSchema mappedTable
  simp only [ARTIFACT_PROVIDER_LIMITS.titleCharacters, ARTIFACT_PROVIDER_LIMITS.columnsPerTable,
    ARTIFACT_PROVIDER_LIMITS.columnHeaderCharacters, ARTIFACT_PROVIDER_LIMITS.rowsPerTable,
    ARTIFACT_PROVIDER_LIMITS.cellCharacters, htitle, hcolumns, hrows]
  rfl

theorem mappedTable_schema {table : ParameterTable} (h : TableAccepted table) :
    artifactTableSchema (mappedTable table) = some (mappedTable table) := by
  have htitle : (some table.title).mapM (boundedText 240) = some (some table.title) := by
    rw [Option.mapM_some, h.title.bounded (by omega)]
    rfl
  have hcolumns : boundedArray 1 32 (boundedText 240) PARAMETER_TABLE_COLUMNS =
      some PARAMETER_TABLE_COLUMNS :=
    boundedArray_self ⟨by decide, by decide⟩ fun column hcolumn =>
      (columns_text column hcolumn).bounded (by omega)
  have hrows : boundedArray 1 2000 (boundedArray 1 32 cellText)
      (table.rows.map ParameterRow.cells) = some (table.rows.map ParameterRow.cells) := by
    have hcount := h.count
    refine boundedArray_self (by rw [List.length_map]; omega) fun cells hcells => ?_
    obtain ⟨row, hrow, rfl⟩ := List.mem_map.mp hcells
    refine boundedArray_self ⟨?_, ?_⟩ fun cell hcell =>
      ((h.rows row hrow).cells cell hcell).cell (by omega)
    · exact Nat.le_add_left 1 3
    · exact Nat.le_add_right 4 28
  unfold artifactTableSchema mappedTable
  simp only [htitle, hcolumns, hrows]
  rfl

omit [CharacterClasses] [UnicodeTables] in
theorem mapped_tables (spec : ParameterTablePayload) :
    (parameterTableProviderPayloadToArtifactArguments spec).tables = spec.tables.map mappedTable :=
  rfl

theorem tables_accepted {item : ArtifactTable → Option ArtifactTable} {max : Nat}
    (h : PayloadAccepted spec) (hmax : 2 ≤ max)
    (hitem : ∀ table, TableAccepted table → item (mappedTable table) = some (mappedTable table)) :
    boundedArray 0 max item (spec.tables.map mappedTable) = some (spec.tables.map mappedTable) := by
  have hcount := h.tableCount
  refine boundedArray_self ⟨Nat.zero_le _, by rw [List.length_map]; omega⟩ fun table htable => ?_
  obtain ⟨source, hsource, rfl⟩ := List.mem_map.mp htable
  exact hitem source (h.tables source hsource)

theorem formats_accepted (h : PayloadAccepted spec) :
    boundedArray 1 4 some spec.formats = some spec.formats :=
  boundedArray_self h.formatCount fun _ _ => rfl

/-- **The contract of artifacts** checks the visible characters of the arguments, and nothing else
    can go wrong. -/
theorem createArtifactProviderSchema_mapped (h : PayloadAccepted spec) :
    createArtifactProviderSchema (parameterTableProviderPayloadToArtifactArguments spec) =
      if (parameterTableProviderPayloadToArtifactArguments spec).visible ≤ 6000 then
        some (parameterTableProviderPayloadToArtifactArguments spec)
      else none := by
  have hversion : literalText ARTIFACT_SCHEMA_VERSION ARTIFACT_SCHEMA_VERSION =
      some ARTIFACT_SCHEMA_VERSION := if_pos rfl
  have htitle : trimmedProviderText 120 spec.title = some spec.title := h.title.trimmedProvider
  have hsummary : trimmedProviderText 600 spec.summary = some spec.summary :=
    h.summary.trimmedProvider
  have htables := tables_accepted h (Nat.le_refl 2) fun table => mappedTable_provider
  have htotal : ((spec.tables.map mappedTable).map fun table => table.rows.length).sum ≤ 64 := by
    have hrows : (fun table : ParameterTable => (mappedTable table).rows.length) =
        fun table => table.rows.length := funext fun table => List.length_map _
    rw [List.map_map]
    show (spec.tables.map fun table => (mappedTable table).rows.length).sum ≤ 64
    rw [hrows]
    exact h.totalRows
  unfold createArtifactProviderSchema
  simp only [ARTIFACT_PROVIDER_LIMITS.titleCharacters, ARTIFACT_PROVIDER_LIMITS.formats,
    ARTIFACT_PROVIDER_LIMITS.summaryCharacters, ARTIFACT_PROVIDER_LIMITS.sections,
    ARTIFACT_PROVIDER_LIMITS.tables, mapped_tables, htables]
  simp only [parameterTableProviderPayloadToArtifactArguments, hversion, htitle, hsummary,
    formats_accepted h, sections_provider h, Option.bind_eq_bind, Option.bind_some]
  simp only [argumentsMatch, ARTIFACT_PROVIDER_LIMITS.totalRows,
    ARTIFACT_PROVIDER_LIMITS.visibleCharacters, htotal, decide_true, Bool.true_and]
  exact if_congr decide_eq_true_iff rfl rfl

theorem createArtifactSchema_mapped (h : PayloadAccepted spec) :
    createArtifactSchema (parameterTableProviderPayloadToArtifactArguments spec) =
      some (parameterTableProviderPayloadToArtifactArguments spec) := by
  have hversion : literalText ARTIFACT_SCHEMA_VERSION ARTIFACT_SCHEMA_VERSION =
      some ARTIFACT_SCHEMA_VERSION := if_pos rfl
  have htitle : boundedText 240 spec.title = some spec.title := h.title.bounded (by omega)
  have hsummary : boundedText 2000 spec.summary = some spec.summary := h.summary.bounded (by omega)
  have htables := @tables_accepted _ _ spec artifactTableSchema 32 h (by omega) fun table =>
    mappedTable_schema
  unfold createArtifactSchema
  simp only [mapped_tables, htables]
  simp only [parameterTableProviderPayloadToArtifactArguments, hversion, htitle, hsummary,
    formats_accepted h, sections_schema h, Option.bind_eq_bind, Option.bind_some]
  rfl

omit [CharacterClasses] [UnicodeTables] in
/-- The columns of a parameter table differ in more than case. -/
theorem columns_nodup [IdeographCase] :
    (PARAMETER_TABLE_COLUMNS.map LowerCaseTable.toLocaleLowerCase).Nodup := by
  have hsame : PARAMETER_TABLE_COLUMNS.map LowerCaseTable.toLocaleLowerCase =
      PARAMETER_TABLE_COLUMNS.map id := by
    refine List.map_congr_left fun column hcolumn => IdeographCase.lower_ideographs column ?_
    have hall : PARAMETER_TABLE_COLUMNS.all (fun column => column.all fun c =>
        decide (0x4E00 ≤ c.toNat ∧ c.toNat ≤ 0x9FFF)) = true := by decide
    intro c hc
    exact of_decide_eq_true (List.all_eq_true.mp (List.all_eq_true.mp hall column hcolumn) c hc)
  rw [hsame, List.map_id]
  decide

theorem artifactSpecSchema_mapped [IdeographCase] [UuidFormat] (h : PayloadAccepted spec)
    (hformats : spec.formats.Nodup) {turnId : Points} (hturn : UuidFormat.isUuid turnId = true) :
    artifactSpecSchema
        (candidateSpec turnId (parameterTableProviderPayloadToArtifactArguments spec)) =
      some (candidateSpec turnId (parameterTableProviderPayloadToArtifactArguments spec)) := by
  have hbase : artifactSpecBaseSchema
      (candidateSpec turnId (parameterTableProviderPayloadToArtifactArguments spec)) =
      some (candidateSpec turnId (parameterTableProviderPayloadToArtifactArguments spec)) := by
    have htitle : boundedText 240 spec.title = some spec.title := h.title.bounded (by omega)
    have hsummary : boundedText 2000 spec.summary = some spec.summary :=
      h.summary.bounded (by omega)
    have huuid : uuidText turnId = some turnId := if_pos hturn
    have htables := @tables_accepted _ _ spec artifactTableSchema 32 h (by omega) fun table =>
      mappedTable_schema
    unfold artifactSpecBaseSchema
    simp only [candidateSpec, mapped_tables, htables]
    simp only [parameterTableProviderPayloadToArtifactArguments, htitle, hsummary,
      formats_accepted h, sections_schema h, huuid, Option.bind_eq_bind, Option.bind_some]
    rfl
  have hmatches : specMatches
      (candidateSpec turnId (parameterTableProviderPayloadToArtifactArguments spec)) = true := by
    have hsome : spec.tables.isEmpty = false := by
      have hcount := h.tableCount.1
      cases hcase : spec.tables with
      | nil =>
        rw [hcase] at hcount
        nomatch hcount
      | cons table rest => rfl
    have hempty : (spec.tables.map mappedTable).isEmpty = false := by
      rw [List.isEmpty_map]
      exact hsome
    have htables : (spec.tables.map mappedTable).all tableMatches = true := by
      refine List.all_eq_true.mpr fun table htable => ?_
      obtain ⟨source, hsource, rfl⟩ := List.mem_map.mp htable
      unfold tableMatches
      rw [Bool.and_eq_true]
      refine ⟨decide_eq_true columns_nodup, List.all_eq_true.mpr fun cells hcells => ?_⟩
      obtain ⟨row, hrow, rfl⟩ := List.mem_map.mp hcells
      rfl
    unfold specMatches
    simp only [candidateSpec, mapped_tables, hempty, htables]
    simp [parameterTableProviderPayloadToArtifactArguments, hformats]
  unfold artifactSpecSchema
  rw [hbase, Option.bind_some, if_pos hmatches]

/-! ## 4. Units and assumptions -/

omit [UnicodeTables] in
/-- The heading of the last column is one of assumptions: `假设或` stands before `工况`. -/
theorem assumption_heading : test assumptionScopedField (chars (literal "假设或工况")) = true := by
  have hopt {r : Regex} (s : Cursor) : Matches (opt r) s s :=
    ⟨0, Nat.zero_le _, fun _ _ => Nat.zero_le _, .zero s⟩
  have hhan (c : Char) (hc : 0x4E00 ≤ c.toNat ∧ c.toNat ≤ 0x9FFF) (before : Option Char)
      (rest : Text) : Matches (.set CharacterClasses.han) ⟨before, c :: rest⟩ ⟨some c, rest⟩ :=
    ⟨c, rest, rfl, CharacterClasses.han_ideograph c hc.1 hc.2, rfl⟩
  refine (test_iff _ _).mpr ⟨[], _, ⟨some '况', []⟩, rfl, ?_⟩
  refine ⟨_, ⟨rfl, rfl⟩, ⟨some '况', []⟩, .inl ?_, _, ⟨rfl, rfl⟩, rfl⟩
  refine ⟨_, hopt _, ⟨some '或', ['工', '况']⟩, ?_, ?_⟩
  · -- three ideographs, one round of the optional run
    refine ⟨1, Nat.zero_le _, fun m hm => by rw [← Option.some.inj hm], .succ ?_ (.zero _)⟩
    refine ⟨3, Nat.zero_le _, fun m hm => by rw [← Option.some.inj hm]; decide, ?_⟩
    exact .succ (hhan '假' (by decide) _ _) (.succ (hhan '设' (by decide) _ _)
      (.succ (hhan '或' (by decide) _ _) (.zero _)))
  · obtain ⟨last, hword⟩ := @matches_lit "工况" ['工', '况'] rfl (some '或') []
    refine ⟨⟨some '况', []⟩, .inr (.inl ?_), _, ?_, _, hopt _, rfl⟩
    · exact ⟨_, ⟨'工', ['况'], rfl, rfl, rfl⟩, _, ⟨'况', [], rfl, rfl, rfl⟩, rfl⟩
    · exact ⟨0, Nat.zero_le _, (fun _ h => nomatch h), .zero _⟩

omit [CharacterClasses] [UnicodeTables] in
theorem unit_heading : test unitField (chars (literal "单位")) = true := by decide

omit [CharacterClasses] [UnicodeTables] in
/-- A column of a mapped table with a heading and a row's cell in it. -/
theorem columnHolds_mapped {table : ParameterTable} {row : ParameterRow} (hrow : row ∈ table.rows)
    {heading cell : Text → Bool} (index : Nat) {column value : Points}
    (hcolumn : PARAMETER_TABLE_COLUMNS[index]? = some column)
    (hvalue : row.cells[index]? = some value) (hheading : heading (chars column) = true)
    (hcell : cell (chars value) = true) : columnHolds (mappedTable table) heading cell = true := by
  unfold columnHolds
  refine List.any_eq_true.mpr ⟨true, ?_, rfl⟩
  obtain ⟨hindex, hget⟩ := List.getElem?_eq_some_iff.mp hcolumn
  refine List.mem_mapIdx.mpr ⟨index, hindex, ?_⟩
  have hheld : heading (chars ((mappedTable table).columns.get ⟨index, hindex⟩)) = true := by
    rw [← hget] at hheading
    exact hheading
  refine (Bool.and_eq_true _ _).mpr ⟨hheld, ?_⟩
  refine List.any_eq_true.mpr ⟨row.cells, List.mem_map_of_mem hrow, ?_⟩
  rw [hvalue]
  exact hcell

/-- **A mapped payload has units and assumptions**: those of the row that the contract asks for. -/
theorem semantics_mapped (h : PayloadAccepted spec) (turnId : Points) :
    missingParameterTableInputs (inspectParameterTableSemantics
      (candidateSpec turnId (parameterTableProviderPayloadToArtifactArguments spec))) = [] := by
  obtain ⟨table, htable, row, hrow, hdimensional⟩ := h.dimensional
  have haccepted := (h.tables table htable).rows row hrow
  have hmem : mappedTable table ∈ spec.tables.map mappedTable := List.mem_map_of_mem htable
  unfold isDimensionalRow hasDimensionalPhysicalUnitValue at hdimensional
  simp only [Bool.and_eq_true] at hdimensional
  have hassumption : hasAssumptionValueText (chars row.assumptionOrCondition) = true := by
    have hissues := haccepted.issues
    unfold parameterRowIssues at hissues
    have hlast := (List.append_eq_nil_iff.mp hissues).2
    split at hlast
    · assumption
    · nomatch hlast
  have hunits : (spec.tables.map mappedTable).any
      (columnHolds · (test unitField) hasPhysicalUnitValue) = true :=
    List.any_eq_true.mpr ⟨_, hmem, columnHolds_mapped hrow 2 rfl rfl unit_heading
      hdimensional.2.1⟩
  have hassumptions : (spec.tables.map mappedTable).any
      (columnHolds · (test assumptionScopedField) hasAssumptionValueText) = true :=
    List.any_eq_true.mpr ⟨_, hmem, columnHolds_mapped hrow 3 rfl rfl assumption_heading
      hassumption⟩
  unfold inspectParameterTableSemantics
  simp only [candidateSpec, mapped_tables, hunits, hassumptions]
  simp [parameterTableProviderPayloadToArtifactArguments, missingParameterTableInputs]

end Stages

/-! ## 5. Visible characters -/

/-- The lengths of the words that a payload's `parameterKind` fields hold. -/
def parameterKindCharacters (spec : ParameterTablePayload) : Nat :=
  (spec.tables.map fun table =>
    (table.rows.map fun row => row.parameterKind.name.length).sum).sum

/-- **The arguments have other visible characters than the payload**: the version of the contract
    and the kinds of the parameters go, the version of the schema, the kind of the artifact and the
    headings of each table come. -/
theorem visible_mapped {spec : ParameterTablePayload}
    (h : spec.contractVersion = PARAMETER_TABLE_PROVIDER_CONTRACT_VERSION) :
    (parameterTableProviderPayloadToArtifactArguments spec).visible +
        parameterKindCharacters spec + 1 = spec.visible + 14 * spec.tables.length := by
  have hrow (row : ParameterRow) : row.visible =
      row.parameterKind.name.length + (row.cells.map visibleText).sum := by
    simp only [ParameterRow.visible, ParameterRow.cells, List.map_cons, List.map_nil, List.sum_cons,
      List.sum_nil]
    omega
  have htable (table : ParameterTable) :
      tableVisible (mappedTable table) +
          (table.rows.map fun row => row.parameterKind.name.length).sum =
        table.visible + 14 := by
    have hcolumns : (PARAMETER_TABLE_COLUMNS.map visibleText).sum = 14 := by decide
    have hrows : (table.rows.map ParameterRow.visible).sum =
        (table.rows.map fun row => row.parameterKind.name.length).sum +
          ((table.rows.map ParameterRow.cells).map fun row => (row.map visibleText).sum).sum := by
      rw [List.map_map, ← List.sum_map_add]
      exact congrArg List.sum (List.map_congr_left fun row _ => hrow row)
    simp only [tableVisible, mappedTable, hcolumns, ParameterTable.visible, hrows, Option.map_some,
      Option.getD_some]
    omega
  have htables : ((spec.tables.map mappedTable).map tableVisible).sum + parameterKindCharacters spec =
      (spec.tables.map ParameterTable.visible).sum + 14 * spec.tables.length := by
    unfold parameterKindCharacters
    induction spec.tables with
    | nil => rfl
    | cons table tables ih =>
      have hfirst := htable table
      simp only [List.map_cons, List.sum_cons, List.length_cons] at ih ⊢
      omega
  have hschema : visibleText ARTIFACT_SCHEMA_VERSION = 19 := by decide
  have hversion : visibleText spec.contractVersion = 35 := by rw [h]; decide
  have hkind : (ArtifactKind.name .parameter_table).length = 15 := by decide
  have hleft : (parameterTableProviderPayloadToArtifactArguments spec).visible =
      19 + 15 + visibleText spec.title + formatsVisible spec.formats + visibleText spec.summary +
        (spec.sections.map sectionVisible).sum + ((spec.tables.map mappedTable).map tableVisible).sum := by
    rw [← hschema, ← hkind]
    rfl
  rw [hleft, ParameterTablePayload.visible, hversion]
  omega

/-! ## 6. All stages -/

/-- The texts of every row stand in the columns of their own, row by row and table by table. -/
structure InPlace (payload : ParameterTablePayload) (spec : ArtifactSpec) : Prop where
  columns : ∀ table ∈ spec.tables, table.columns = PARAMETER_TABLE_COLUMNS
  rows : spec.tables.map ArtifactTable.rows =
    payload.tables.map fun table => table.rows.map fun row =>
      [row.parameter, row.valueOrStatus, row.unit, row.assumptionOrCondition]

/-- Arguments that pass are within the limit. -/
theorem visible_of_preflight [CharacterClasses] [UnicodeTables] [LowerCaseTable] [UuidFormat]
    {payload : ParameterTablePayload} (h : PayloadAccepted payload) {turnId : Points}
    {spec : ArtifactSpec} (hspec : preflightArguments turnId
      (parameterTableProviderPayloadToArtifactArguments payload) = .ok spec) :
    (parameterTableProviderPayloadToArtifactArguments payload).visible ≤ 6000 := by
  by_contra hlong
  unfold preflightArguments at hspec
  rw [createArtifactProviderSchema_mapped h, if_neg hlong] at hspec
  nomatch hspec

/-- **The contract of parameter tables is closed under its mapping**, up to the limit on the
    visible characters of the arguments. -/
theorem mapped_arguments_pass_iff [CharacterClasses] [UnicodeTables] [IdeographCase] [UuidFormat]
    {input payload : ParameterTablePayload} {turnId : Points}
    (haccepted : parameterTableProviderSchema input = some payload)
    (hformats : payload.formats.Nodup) (hturn : UuidFormat.isUuid turnId = true) :
    (∃ spec, preflightArguments turnId (parameterTableProviderPayloadToArtifactArguments payload) =
        .ok spec ∧ InPlace payload spec) ↔
      payload.visible + 14 * payload.tables.length ≤ 6001 + parameterKindCharacters payload := by
  have h := payloadAccepted_of haccepted
  have hvisible := visible_mapped h.contractVersion
  constructor
  · rintro ⟨spec, hspec, -⟩
    have hfits := visible_of_preflight h hspec
    omega
  · intro hle
    have hprovider := createArtifactProviderSchema_mapped h
    rw [if_pos (by omega)] at hprovider
    refine ⟨candidateSpec turnId (parameterTableProviderPayloadToArtifactArguments payload), ?_, ?_, ?_⟩
    · unfold preflightArguments
      rw [hprovider, createArtifactSchema_mapped h]
      dsimp only
      rw [artifactSpecSchema_mapped h hformats hturn]
      dsimp only
      rw [if_neg fun hmissing => hmissing.2 (semantics_mapped h turnId)]
    · intro table htable
      obtain ⟨source, hsource, rfl⟩ := List.mem_map.mp htable
      rfl
    · exact List.map_map

/-! ## 7. At the limit -/

section Samples

abbrev sampleClasses : CharacterClasses where
  letter := fun c => c.isAlpha
  number := fun c => c.isDigit
  mark := fun _ => false
  punctuation := fun _ => false
  symbol := fun _ => false
  han := fun c => decide (0x4E00 ≤ c.toNat ∧ c.toNat ≤ 0x9FFF)
  han_ideograph := fun _ hlow hhigh => decide_eq_true ⟨hlow, hhigh⟩

abbrev sampleTables : UnicodeTables := ⟨id, id⟩

abbrev sampleCase : IdeographCase where
  toLocaleLowerCase := id
  lower_ideographs := fun _ _ => rfl

def sampleTurn : Points := literal "3f2504e0-4f89-41d3-9a0c-0305e82c3301"

abbrev sampleUuids : UuidFormat := ⟨fun s => decide (s = sampleTurn)⟩

def sampleRow : ParameterRow where
  parameterKind := .physical
  parameter := literal "入口压力"
  valueOrStatus := literal "值"
  unit := literal "Pa"
  assumptionOrCondition := literal "待用户确认"

/-- A payload with one parameter and the given sections. -/
def samplePayload (sections : List ArtifactSection) : ParameterTablePayload where
  contractVersion := PARAMETER_TABLE_PROVIDER_CONTRACT_VERSION
  title := literal "表"
  formats := [.csv]
  summary := literal "说明"
  sections := sections
  tables := [⟨literal "表", [sampleRow]⟩]

set_option maxRecDepth 4000 in
theorem sampleRow_checked :
    let _ := sampleClasses
    let _ := sampleTables
    parameterRowIssues sampleRow = [] ∧ isDimensionalRow sampleRow = true := by
  exact ⟨by decide, by decide⟩

/-- A literal that the contract accepts. -/
theorem parameterText_of {maximum : Nat} {value : Points} (h : 1 ≤ Points.length value ∧
    visibleText value ≤ maximum ∧ Points.trim value = value) : ParameterText maximum value :=
  ⟨h.1, h.2.1, h.2.2⟩

theorem samplePayload_visible (sections : List ArtifactSection) :
    (samplePayload sections).visible = 62 + (sections.map sectionVisible).sum := by
  have hversion : visibleText PARAMETER_TABLE_PROVIDER_CONTRACT_VERSION = 35 := by decide
  have htableVisible : ParameterTable.visible ⟨literal "表", [sampleRow]⟩ = 21 := by decide
  have htitleVisible : visibleText (literal "表") = 1 := by decide
  have hsummaryVisible : visibleText (literal "说明") = 2 := by decide
  have hformats : formatsVisible [.csv] = 3 := by decide
  simp only [ParameterTablePayload.visible, samplePayload, List.map_cons, List.map_nil,
    List.sum_cons, List.sum_nil, hversion, htableVisible, htitleVisible, hsummaryVisible, hformats]
  omega

/-- The sample is accepted with sections that the contract accepts and that leave it the room. -/
theorem samplePayload_accepted {sections : List ArtifactSection} (hcount : sections.length ≤ 4)
    (hsections : ∀ part ∈ sections, SectionAccepted part)
    (hvisible : (sections.map sectionVisible).sum ≤ 5938) :
    let _ := sampleClasses
    let _ := sampleTables
    PayloadAccepted (samplePayload sections) := by
  intro _ _
  obtain ⟨hissues, hdimensional⟩ := sampleRow_checked
  have htitle : 1 ≤ Points.length (literal "表") ∧ visibleText (literal "表") ≤ 120 ∧
    Points.trim (literal "表") = literal "表" := by decide
  have hsummary : 1 ≤ Points.length (literal "说明") ∧ visibleText (literal "说明") ≤ 600 ∧
    Points.trim (literal "说明") = literal "说明" := by decide
  have hcells : ∀ cell ∈ sampleRow.cells, ParameterText 160 cell := by
    have hall : sampleRow.cells.all (fun cell => decide (1 ≤ Points.length cell ∧
        visibleText cell ≤ 160 ∧ Points.trim cell = cell)) = true := by decide
    exact fun cell hcell => parameterText_of (of_decide_eq_true (List.all_eq_true.mp hall cell hcell))
  have hrows : ∀ row ∈ [sampleRow], RowAccepted row := by
    intro row hrow
    rw [List.mem_singleton.mp hrow]
    exact ⟨hcells, hissues⟩
  exact {
    contractVersion := rfl
    title := parameterText_of htitle
    formatCount := ⟨Nat.le_refl 1, Nat.le_add_right 1 3⟩
    summary := parameterText_of hsummary
    sectionCount := hcount
    sections := hsections
    tableCount := ⟨Nat.le_refl 1, Nat.le_succ 1⟩
    tables := by
      intro table htable
      rw [List.mem_singleton.mp htable]
      exact ⟨parameterText_of htitle, ⟨Nat.le_refl 1, Nat.le_add_right 1 63⟩, hrows⟩
    totalRows := Nat.le_add_right 1 63
    dimensional := ⟨_, List.mem_singleton_self _, _, List.mem_singleton_self _, hdimensional⟩
    visible := by
      rw [samplePayload_visible]
      omega }

/-- A payload without sections passes all stages. -/
theorem mapped_arguments_pass_sample :
    let _ := sampleClasses
    let _ := sampleTables
    let _ := sampleCase
    let _ := sampleUuids
    (∃ spec, preflightArguments sampleTurn
        (parameterTableProviderPayloadToArtifactArguments (samplePayload [])) = .ok spec ∧
      InPlace (samplePayload []) spec) ↔
      (samplePayload []).visible + 14 * (samplePayload []).tables.length ≤
        6001 + parameterKindCharacters (samplePayload []) := by
  intro _ _ _ _
  have haccepted : PayloadAccepted (samplePayload []) :=
    samplePayload_accepted (Nat.zero_le 4) (fun _ h => nomatch h) (Nat.zero_le _)
  exact mapped_arguments_pass_iff (parameterTableProviderSchema_self haccepted)
    (List.nodup_cons.mpr ⟨List.not_mem_nil, .nil⟩) (decide_eq_true rfl)

/-- `"x".repeat(n)`. -/
def repeated (n : Nat) : Points := List.replicate n (.scalar 'x')

theorem repeated_text {n maximum : Nat} (h : 1 ≤ n ∧ n ≤ maximum) :
    ParameterText maximum (repeated n) := by
  have hplain : CodePoint.isWhiteSpace (.scalar 'x') = false := by decide
  have hstart : (repeated n).dropWhile CodePoint.isWhiteSpace = repeated n := by
    obtain ⟨k, rfl⟩ := Nat.exists_eq_add_of_le' h.1
    rw [repeated, List.replicate_succ, List.dropWhile_cons, hplain]
    rfl
  have hend : Points.trimEnd (repeated n) = repeated n := by
    refine List.rdropWhile_eq_self_iff.mpr fun hne => ?_
    have hlast := List.eq_of_mem_replicate (List.getLast_mem hne)
    rw [hlast, hplain]
    exact Bool.false_ne_true
  have hlength : Points.length (repeated n) = n := by
    unfold Points.length repeated
    rw [List.map_replicate, List.sum_replicate]
    exact Nat.mul_one n
  refine ⟨by omega, ?_, ?_⟩
  · unfold visibleText repeated
    rw [List.length_replicate]
    exact h.2
  · unfold Points.trim
    rw [hstart, hend]

/-- A section with paragraphs of the given lengths. -/
def filledSection (lengths : List Nat) : ArtifactSection := ⟨literal "节", lengths.map repeated⟩

theorem filledSection_accepted {lengths : List Nat} (hcount : 1 ≤ lengths.length ∧ lengths.length ≤ 4)
    (hlengths : ∀ n ∈ lengths, 1 ≤ n ∧ n ≤ 600) : SectionAccepted (filledSection lengths) := by
  have hheading : 1 ≤ Points.length (literal "节") ∧ visibleText (literal "节") ≤ 120 ∧
    Points.trim (literal "节") = literal "节" := by decide
  refine ⟨parameterText_of hheading, ?_, fun paragraph hparagraph => ?_⟩
  · show 1 ≤ (lengths.map repeated).length ∧ (lengths.map repeated).length ≤ 4
    rw [List.length_map]
    exact hcount
  · obtain ⟨n, hn, rfl⟩ := List.mem_map.mp hparagraph
    exact repeated_text (hlengths n hn)

theorem filledSection_visible (lengths : List Nat) :
    sectionVisible (filledSection lengths) = 1 + lengths.sum := by
  have hheading : visibleText (literal "节") = 1 := by decide
  have hparagraphs : (lengths.map repeated).map visibleText = lengths := by
    rw [List.map_map]
    refine (List.map_congr_left fun n _ => ?_).trans (List.map_id lengths)
    exact List.length_replicate
  rw [sectionVisible, filledSection, hheading, hparagraphs]

/-- The lengths of ten paragraphs that fill the sample to 6,000 visible characters. -/
def fullLengths : List (List Nat) :=
  [[600, 600, 600, 600], [600, 600, 600, 600], [600, 535]]

/-- A payload of 6,000 visible characters is accepted; its arguments have 6,005 and are not. -/
theorem full_payload_rejected :
    ¬ ∀ [CharacterClasses] [UnicodeTables] [IdeographCase] [UuidFormat]
      (input payload : ParameterTablePayload) (turnId : Points),
      parameterTableProviderSchema input = some payload → payload.formats.Nodup →
        UuidFormat.isUuid turnId = true →
          ∃ spec, preflightArguments turnId
              (parameterTableProviderPayloadToArtifactArguments payload) = .ok spec ∧
            InPlace payload spec := by
  intro hall
  let _ := sampleClasses
  let _ := sampleTables
  let _ := sampleCase
  let _ := sampleUuids
  have hsections : ∀ part ∈ fullLengths.map filledSection, SectionAccepted part := by
    have hlengths : fullLengths.all (fun lengths => decide (1 ≤ lengths.length ∧
        lengths.length ≤ 4) && lengths.all fun n => decide (1 ≤ n ∧ n ≤ 600)) = true := by decide
    intro part hpart
    obtain ⟨lengths, hmem, rfl⟩ := List.mem_map.mp hpart
    have hboth := List.all_eq_true.mp hlengths lengths hmem
    rw [Bool.and_eq_true] at hboth
    exact filledSection_accepted (of_decide_eq_true hboth.1) fun n hn =>
      of_decide_eq_true (List.all_eq_true.mp hboth.2 n hn)
  have hsum : ((fullLengths.map filledSection).map sectionVisible).sum = 5938 := by
    have hfull : (fullLengths.map fun lengths => 1 + lengths.sum).sum = 5938 := by decide
    rw [List.map_map, ← hfull]
    exact congrArg List.sum (List.map_congr_left fun lengths _ => filledSection_visible lengths)
  have haccepted : PayloadAccepted (samplePayload (fullLengths.map filledSection)) :=
    samplePayload_accepted (Nat.le_succ 3) hsections (le_of_eq hsum)
  obtain ⟨spec, hspec, -⟩ := hall _ (samplePayload (fullLengths.map filledSection)) sampleTurn
    (parameterTableProviderSchema_self haccepted) (List.nodup_cons.mpr ⟨List.not_mem_nil, .nil⟩) (decide_eq_true rfl)
  have hfits := visible_of_preflight haccepted hspec
  have hvisible := @visible_mapped (samplePayload (fullLengths.map filledSection)) rfl
  have hcharacters := samplePayload_visible (fullLengths.map filledSection)
  have hkinds : parameterKindCharacters (samplePayload (fullLengths.map filledSection)) = 8 := rfl
  have hone : (samplePayload (fullLengths.map filledSection)).tables.length = 1 := rfl
  omega

end Samples

end OpenVac.Agent.ArtifactContract
