/-
  File:      OpenVac/Agent/ParameterTableContract.lean
  Subject:   The provider's contract of parameter tables: `parameterTableProviderSchema`,
             `createArtifactProviderSchema`, the mapping between them and the later stages of
             `preflight`, server/agent/tool-registry.ts.

  * `parameterKindForLabel` -- the kind that the vocabulary gives a parameter.
  * `parameterTableProviderSchema`, `createArtifactProviderSchema` -- the two contracts.
  * `parameterTableProviderPayloadToArtifactArguments` -- the mapping.
  * `preflightArguments` -- what `preflight` does with arguments that are parsed and mapped.
-/
import OpenVac.Agent.ArtifactSemantics
import OpenVac.ChatV3.VerifiedLinkLabel

namespace OpenVac.Agent.ArtifactContract

open JsString JsRegex OpenVac.Artifacts ArtifactSemantics

/-! ## 1. Limits -/

namespace ARTIFACT_PROVIDER_LIMITS

def visibleCharacters : Nat := 6000

def titleCharacters : Nat := 120

def summaryCharacters : Nat := 600

def sections : Nat := 4

def paragraphsPerSection : Nat := 4

def paragraphCharacters : Nat := 600

def tables : Nat := 2

def columnsPerTable : Nat := 8

def columnHeaderCharacters : Nat := 80

def rowsPerTable : Nat := 64

def totalRows : Nat := 64

def cellCharacters : Nat := 160

def formats : Nat := 4

end ARTIFACT_PROVIDER_LIMITS

/-- The code points of a literal. -/
def literal (s : String) : Points := s.toList.map .scalar

def PARAMETER_TABLE_PROVIDER_CONTRACT_VERSION : Points :=
  literal "openvac.parameter-table-provider.v2"

/-! ## 2. The vocabulary -/

inductive ParameterKind where
  | physical
  | descriptor
  | count
  | ratio
  deriving DecidableEq, Repr

def ParameterKind.name : ParameterKind → String
  | .physical => "physical"
  | .descriptor => "descriptor"
  | .count => "count"
  | .ratio => "ratio"

def nonDimensionalUnitValue : Regex :=
  whole (alts
    [words ["无量纲", "不适用", "百分比", "台", "套", "级", "个", "dimensionless"],
     cats [lit "n", opt (lit "/"), lit "a"], lit "%"])

/-- `allowedUnitByParameterKind`; physical parameters have none. -/
def allowedUnitByParameterKind : ParameterKind → Option Regex
  | .physical => none
  | .descriptor => some (whole (alts [lit "不适用", cats [lit "n", opt (lit "/"), lit "a"]]))
  | .count => some (whole (words ["无量纲", "台", "套", "级", "个", "dimensionless"]))
  | .ratio => some (whole (words ["无量纲", "百分比", "dimensionless", "%"]))

def parameterKindSuffixes : ParameterKind → List String
  | .descriptor =>
      ["型号", "泵型", "类型", "类别", "品牌", "厂商", "制造商", "系列", "名称", "配置", "形式", "方案",
       "介质", "气体", "冷却方式", "密封方式", "接口", "法兰", "备注", "说明", "清洁度要求", "model",
       "model name", "model number", "model no.", "type", "category", "brand", "manufacturer",
       "series", "name", "configuration", "arrangement", "scheme", "medium", "gas",
       "cooling method", "sealing method", "seal method", "interface", "flange", "note",
       "description"]
  | .count => ["数量", "台数", "级数", "count", "quantity", "stage", "stages"]
  | .ratio =>
      ["压缩比", "比例", "系数", "效率", "compression ratio", "ratio", "coefficient", "efficiency"]
  | .physical =>
      ["压力", "真空度", "抽速", "抽气速度", "流量", "进气量", "气载", "漏率", "吞吐量", "容积", "流导",
       "功率", "温度", "尺寸", "直径", "长度", "质量", "转速", "噪声", "时间", "pressure",
       "vacuum level", "pumping speed", "flow", "flow rate", "gas load", "leak rate", "throughput",
       "volume", "conductance", "power", "temperature", "size", "diameter", "length", "mass",
       "rotational speed", "noise", "time"]

/-- `Object.keys(parameterKindSuffixes)`. -/
def parameterKinds : List ParameterKind := [.descriptor, .count, .ratio, .physical]

section Vocabulary

variable [CharacterClasses]

/-- `/[\p{L}\p{N}\p{M}\p{Cf}\p{Cc}]$/u`, of the last character. -/
def isWordLike (c : Char) : Bool :=
  CharacterClasses.letter c || CharacterClasses.number c || CharacterClasses.mark c ||
    ChatV3.isControlOrFormat c

/-- Does a label end with a word of the vocabulary? An ASCII word stands for itself. -/
def endsWithParameter (normalized normalizedSuffix : Text) : Bool :=
  if !decide (normalizedSuffix <:+ normalized) then false
  else if normalizedSuffix.any fun c => decide (0x7F < c.toNat) then true
  else
    let before := normalized.take (normalized.length - normalizedSuffix.length)
    before.isEmpty || !before.getLast?.any isWordLike

variable [UnicodeTables]

def parameterKindForLabel (parameter : Points) : Option ParameterKind :=
  let normalized :=
    UnicodeTables.toLocaleLowerCase (trim (collapseSpaces (nfkc (chars parameter))))
  parameterKinds.find? fun kind =>
    (parameterKindSuffixes kind).any fun suffix =>
      endsWithParameter normalized (UnicodeTables.toLocaleLowerCase suffix.toList)

end Vocabulary

def hasDimensionalPhysicalUnitValue (unit : Text) : Bool :=
  hasPhysicalUnitValue unit && !test nonDimensionalUnitValue (trim unit)

def isAllowedUnit (kind : ParameterKind) (unit : Text) : Bool :=
  (allowedUnitByParameterKind kind).any fun allowed => test allowed (trim unit)

def hasSupportedParameterUnitValue (unit : Text) : Bool :=
  hasDimensionalPhysicalUnitValue unit || parameterKinds.any fun kind => isAllowedUnit kind unit

/-! ## 3. The contract of parameter tables -/

/-- A string's code points: `Array.from(value).length`. -/
def visibleText (value : Points) : Nat := List.length value

/-- `z.literal(expected)`. -/
def literalText (expected value : Points) : Option Points :=
  if value = expected then some value else none

/-- `providerParameterText`. -/
def providerParameterText (maximum : Nat) (value : Points) : Option Points :=
  if 1 ≤ Points.length value ∧ visibleText value ≤ maximum ∧ value = Points.trim value then
    some value
  else none

structure ParameterRow where
  parameterKind : ParameterKind
  parameter : Points
  valueOrStatus : Points
  unit : Points
  assumptionOrCondition : Points
  deriving DecidableEq

structure ParameterTable where
  title : Points
  rows : List ParameterRow
  deriving DecidableEq

structure ParameterTablePayload where
  contractVersion : Points
  title : Points
  formats : List ArtifactFormat
  summary : Points
  sections : List ArtifactSection
  tables : List ParameterTable
  deriving DecidableEq

/-- The fields that the issues of a row name. -/
inductive ParameterRowField where
  | parameter
  | parameterKind
  | unit
  | assumptionOrCondition
  deriving DecidableEq, Repr

def ArtifactFormat.name : ArtifactFormat → String
  | .md => "md"
  | .docx => "docx"
  | .pdf => "pdf"
  | .csv => "csv"

def formatsVisible (formats : List ArtifactFormat) : Nat :=
  (formats.map fun format => (ArtifactFormat.name format).length).sum

def sectionVisible (part : ArtifactSection) : Nat :=
  visibleText part.heading + (part.paragraphs.map visibleText).sum

def ParameterRow.visible (row : ParameterRow) : Nat :=
  row.parameterKind.name.length + visibleText row.parameter + visibleText row.valueOrStatus +
    visibleText row.unit + visibleText row.assumptionOrCondition

def ParameterTable.visible (table : ParameterTable) : Nat :=
  visibleText table.title + (table.rows.map ParameterRow.visible).sum

/-- `visibleStringCharacters` of a payload. -/
def ParameterTablePayload.visible (spec : ParameterTablePayload) : Nat :=
  visibleText spec.contractVersion + visibleText spec.title + formatsVisible spec.formats +
    visibleText spec.summary + (spec.sections.map sectionVisible).sum +
    (spec.tables.map ParameterTable.visible).sum

open ARTIFACT_PROVIDER_LIMITS in
def providerSectionSchema (text : Nat → Points → Option Points) (part : ArtifactSection) :
    Option ArtifactSection := do
  return {
    heading := ← text titleCharacters part.heading
    paragraphs := ← boundedArray 1 paragraphsPerSection (text paragraphCharacters) part.paragraphs }

section Contract

variable [CharacterClasses] [UnicodeTables]

/-- The issues of a row's own check. -/
def parameterRowIssues (row : ParameterRow) : List ParameterRowField :=
  let serverKind := parameterKindForLabel row.parameter
  let validUnit :=
    match serverKind with
    | none => hasSupportedParameterUnitValue (chars row.unit)
    | some .physical => hasDimensionalPhysicalUnitValue (chars row.unit)
    | some kind => isAllowedUnit kind (chars row.unit)
  (match serverKind with
    | none => [.parameter, .parameterKind]
    | some kind => if kind != row.parameterKind then [.parameterKind] else []) ++
    (if validUnit then [] else [.unit]) ++
    if hasAssumptionValueText (chars row.assumptionOrCondition) then []
    else [.assumptionOrCondition]

open ARTIFACT_PROVIDER_LIMITS in
def parameterTableProviderRowSchema (row : ParameterRow) : Option ParameterRow := do
  let parsed : ParameterRow := {
    parameterKind := row.parameterKind
    parameter := ← providerParameterText cellCharacters row.parameter
    valueOrStatus := ← providerParameterText cellCharacters row.valueOrStatus
    unit := ← providerParameterText cellCharacters row.unit
    assumptionOrCondition := ← providerParameterText cellCharacters row.assumptionOrCondition }
  if parameterRowIssues parsed = [] then some parsed else none

open ARTIFACT_PROVIDER_LIMITS in
def parameterTableSchema (table : ParameterTable) : Option ParameterTable := do
  return {
    title := ← providerParameterText titleCharacters table.title
    rows := ← boundedArray 1 rowsPerTable parameterTableProviderRowSchema table.rows }

/-- A row of a physical quantity with its unit. -/
def isDimensionalRow (row : ParameterRow) : Bool :=
  parameterKindForLabel row.parameter == some .physical &&
    hasDimensionalPhysicalUnitValue (chars row.unit)

open ARTIFACT_PROVIDER_LIMITS in
/-- The refinements of the whole. -/
def payloadMatches (spec : ParameterTablePayload) : Bool :=
  decide ((spec.tables.map fun table => table.rows.length).sum ≤ totalRows) &&
    (spec.tables.any fun table => table.rows.any isDimensionalRow) &&
    decide (spec.visible ≤ visibleCharacters)

open ARTIFACT_PROVIDER_LIMITS in
def parameterTableProviderSchema (input : ParameterTablePayload) : Option ParameterTablePayload := do
  let parsed : ParameterTablePayload := {
    contractVersion := ← literalText PARAMETER_TABLE_PROVIDER_CONTRACT_VERSION input.contractVersion
    title := ← providerParameterText titleCharacters input.title
    formats := ← boundedArray 1 formats some input.formats
    summary := ← providerParameterText summaryCharacters input.summary
    sections := ← boundedArray 0 sections (providerSectionSchema providerParameterText) input.sections
    tables := ← boundedArray 1 tables parameterTableSchema input.tables }
  if payloadMatches parsed then some parsed else none

end Contract

/-! ## 4. The contract of artifacts -/

/-- The arguments of `create_artifact`. -/
structure ArtifactArguments where
  schemaVersion : Points
  kind : ArtifactKind
  title : Points
  formats : List ArtifactFormat
  summary : Points
  sections : List ArtifactSection
  tables : List ArtifactTable
  deriving DecidableEq

def ArtifactKind.name : ArtifactKind → String
  | .diagnosis_report => "diagnosis_report"
  | .selection_report => "selection_report"
  | .inspection_checklist => "inspection_checklist"
  | .parameter_table => "parameter_table"

def ARTIFACT_SCHEMA_VERSION : Points := literal "openvac.artifact.v1"

def providerTextWithMaximum (maximum : Nat) (value : Points) : Option Points :=
  if visibleText value ≤ maximum then some value else none

def trimmedProviderText (maximum : Nat) (value : Points) : Option Points :=
  if 1 ≤ Points.length (Points.trim value) ∧ visibleText (Points.trim value) ≤ maximum then
    some (Points.trim value)
  else none

def tableVisible (table : ArtifactTable) : Nat :=
  (table.title.map visibleText).getD 0 + (table.columns.map visibleText).sum +
    (table.rows.map fun row => (row.map visibleText).sum).sum

/-- `visibleStringCharacters` of arguments. -/
def ArtifactArguments.visible (spec : ArtifactArguments) : Nat :=
  visibleText spec.schemaVersion + (ArtifactKind.name spec.kind).length + visibleText spec.title +
    formatsVisible spec.formats + visibleText spec.summary + (spec.sections.map sectionVisible).sum +
    (spec.tables.map tableVisible).sum

open ARTIFACT_PROVIDER_LIMITS in
def artifactProviderTableSchema (table : ArtifactTable) : Option ArtifactTable := do
  return {
    title := ← table.title.mapM (trimmedProviderText titleCharacters)
    columns := ← boundedArray 1 columnsPerTable (trimmedProviderText columnHeaderCharacters)
      table.columns
    rows := ← boundedArray 1 rowsPerTable
      (boundedArray 1 columnsPerTable (providerTextWithMaximum cellCharacters)) table.rows }

open ARTIFACT_PROVIDER_LIMITS in
/-- The refinements of the whole. -/
def argumentsMatch (spec : ArtifactArguments) : Bool :=
  decide ((spec.tables.map fun table => table.rows.length).sum ≤ totalRows) &&
    decide (spec.visible ≤ visibleCharacters)

open ARTIFACT_PROVIDER_LIMITS in
def createArtifactProviderSchema (input : ArtifactArguments) : Option ArtifactArguments := do
  let parsed : ArtifactArguments := {
    schemaVersion := ← literalText ARTIFACT_SCHEMA_VERSION input.schemaVersion
    kind := input.kind
    title := ← trimmedProviderText titleCharacters input.title
    formats := ← boundedArray 1 formats some input.formats
    summary := ← trimmedProviderText summaryCharacters input.summary
    sections := ← boundedArray 0 sections (providerSectionSchema trimmedProviderText) input.sections
    tables := ← boundedArray 0 tables artifactProviderTableSchema input.tables }
  if argumentsMatch parsed then some parsed else none

/-- `artifactSpecBaseSchema.omit({ sourceTurnId: true })`. -/
def createArtifactSchema (input : ArtifactArguments) : Option ArtifactArguments := do
  return {
    schemaVersion := ← literalText ARTIFACT_SCHEMA_VERSION input.schemaVersion
    kind := input.kind
    title := ← boundedText 240 input.title
    formats := ← boundedArray 1 4 some input.formats
    summary := ← boundedText 2000 input.summary
    sections := ← boundedArray 0 64 artifactSectionSchema input.sections
    tables := ← boundedArray 0 32 artifactTableSchema input.tables }

/-! ## 5. The mapping and the later stages -/

def PARAMETER_TABLE_COLUMNS : List Points :=
  [literal "参数", literal "数值或状态", literal "单位", literal "假设或工况"]

def ParameterRow.cells (row : ParameterRow) : List Points :=
  [row.parameter, row.valueOrStatus, row.unit, row.assumptionOrCondition]

def parameterTableProviderPayloadToArtifactArguments (input : ParameterTablePayload) :
    ArtifactArguments where
  schemaVersion := ARTIFACT_SCHEMA_VERSION
  kind := .parameter_table
  title := input.title
  formats := input.formats
  summary := input.summary
  sections := input.sections
  tables := input.tables.map fun table =>
    { title := some table.title
      columns := PARAMETER_TABLE_COLUMNS
      rows := table.rows.map ParameterRow.cells }

inductive ParameterTableInput where
  /-- `parameterTable.unit`. -/
  | unit
  /-- `parameterTable.assumption`. -/
  | assumption
  deriving DecidableEq, Repr

/-- The stage of `preflight` that rejects arguments. -/
inductive PreflightFailure where
  | createArtifactProviderSchema
  | createArtifactSchema
  | artifactSpecSchema
  | missingInputs (inputs : List ParameterTableInput)
  deriving DecidableEq

section Preflight

variable [CharacterClasses] [LowerCaseTable] [UuidFormat]

/-- `{ ...parsed.data, sourceTurnId: this.options.turnId }`. -/
def candidateSpec (turnId : Points) (parsed : ArtifactArguments) : ArtifactSpec where
  kind := parsed.kind
  title := parsed.title
  formats := parsed.formats
  summary := parsed.summary
  sections := parsed.sections
  tables := parsed.tables
  sourceTurnId := turnId

def missingParameterTableInputs (semantics : ParameterTableSemantics) : List ParameterTableInput :=
  (if semantics.hasUnitValue then [] else [.unit]) ++
    if semantics.hasAssumptionValue then [] else [.assumption]

/-- `preflight` from `createArtifactProviderSchema` on, in a run with a turn. -/
def preflightArguments (turnId : Points) (raw : ArtifactArguments) :
    Except PreflightFailure ArtifactSpec :=
  match createArtifactProviderSchema raw with
  | none => .error .createArtifactProviderSchema
  | some _ =>
      match createArtifactSchema raw with
      | none => .error .createArtifactSchema
      | some parsed =>
          match artifactSpecSchema (candidateSpec turnId parsed) with
          | none => .error .artifactSpecSchema
          | some validated =>
              if validated.kind = .parameter_table ∧
                  missingParameterTableInputs (inspectParameterTableSemantics validated) ≠ [] then
                .error (.missingInputs
                  (missingParameterTableInputs (inspectParameterTableSemantics validated)))
              else .ok validated

end Preflight

end OpenVac.Agent.ArtifactContract
