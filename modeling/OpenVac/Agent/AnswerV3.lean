/-
  File:      OpenVac/Agent/AnswerV3.lean
  Subject:   The answer format `openvac.answer.v3`: its strict schema, the traversals that collect
             ids and visible text, and its rendering, from server/agent/answer-v3.ts.

  * The schema library is a parameter where its own code decides: the formats of a uuid and of a
    url, and the issues it reports for a rejected value.
  * `strictAnswerV3Schema` -- what a JSON value is parsed to; texts are trimmed.
  * `collectUserVisibleText`, `collectAnswerV3References`, `renderAnswerV3`.
-/
import OpenVac.Lib.Json

namespace OpenVac.Agent

open JsString

inductive RiskLevel where
  | low
  | medium
  | high
  deriving DecidableEq, Repr

inductive AnswerKind where
  | direct
  | expert
  | clarification
  | safe_refusal
  deriving DecidableEq, Repr

inductive HeadingLevel where
  | two
  | three
  deriving DecidableEq, Repr

inductive ListStyle where
  | ordered
  | unordered
  deriving DecidableEq, Repr

inductive CalloutTone where
  | info
  | warning
  | danger
  deriving DecidableEq, Repr

/-- A calculation as the user sees it. -/
structure PublicCalculation where
  calculationId : Text
  title : Text
  result : Text
  unit : Option Text
  assumptions : List Text
  warnings : List Text
  deriving DecidableEq, Repr

inductive AnswerBlock where
  | paragraph (text : Text) (evidenceIds : List Text)
  | heading (level : HeadingLevel) (text : Text)
  | list (style : ListStyle) (items : List Text) (evidenceIds : List Text)
  | table (columns : List Text) (rows : List (List Text)) (evidenceIds : List Text)
  | code (language : Option Text) (code : Text)
  | callout (tone : CalloutTone) (title : Option Text) (body : Text) (evidenceIds : List Text)
  | calculation (calculation : PublicCalculation)
  | linkReference (linkId label : Text)
  | artifactReference (artifactId label : Text)
  deriving DecidableEq, Repr

structure AnswerV3 where
  answerKind : AnswerKind
  riskLevel : RiskLevel
  blocks : List AnswerBlock
  missingInputs : List Text
  usedEvidenceIds : List Text
  usedLinkIds : List Text
  deriving DecidableEq, Repr

/-- The parts of the schema library its own code decides. -/
class SchemaLibrary where
  isUuid : Text → Bool
  isUrl : Text → Bool
  issues : Json → List Text

/-! ## 1. The schema -/

/-- `z.string().trim().min(min).max(max)`. -/
def trimmedText (min max : Nat) : Json → Option Text
  | .str s =>
      let value := trim s
      if min ≤ utf16Length value ∧ utf16Length value ≤ max then some value else none
  | _ => none

def visibleText : Json → Option Text := trimmedText 1 16000

def shortText : Json → Option Text := trimmedText 1 500

/-- `z.string().regex(/^E\d+$/u)`. -/
def evidenceId : Json → Option Text
  | .str ('E' :: digits) =>
      if !digits.isEmpty && digits.all fun c => decide ('0' ≤ c ∧ c ≤ '9') then some ('E' :: digits)
      else none
  | _ => none

/-- `z.array(item).min(min).max(max)`. -/
def arrayOf {α : Type} (item : Json → Option α) (min max : Nat) : Json → Option (List α)
  | .arr items => if min ≤ items.length ∧ items.length ≤ max then items.mapM item else none
  | _ => none

def evidenceIds : Json → Option (List Text) := arrayOf evidenceId 0 64

/-- One of several literals. -/
def literal {α : Type} (values : List (String × α)) : Json → Option α
  | .str s => (values.find? fun value => value.1.toList == s).map (·.2)
  | _ => none

/-- A required field. -/
def field {α : Type} (fields : List (Text × Json)) (key : String) (schema : Json → Option α) :
    Option α :=
  (Json.lookup fields key.toList).bind schema

/-- An optional field: absent, or as the schema has it. -/
def optionalField {α : Type} (fields : List (Text × Json)) (key : String)
    (schema : Json → Option α) : Option (Option α) :=
  match Json.lookup fields key.toList with
  | none => some none
  | some value => (schema value).map some

/-- `z.object({…}).strict()`: no other keys. -/
def onlyKeys (keys : List String) (fields : List (Text × Json)) : Option Unit :=
  if Json.strict (keys.map String.toList) fields then some () else none

def headingLevel : Json → Option HeadingLevel
  | .num text =>
      if text = ['2'] then some .two else if text = ['3'] then some .three else none
  | _ => none

def listStyle : Json → Option ListStyle :=
  literal [("ordered", .ordered), ("unordered", .unordered)]

def calloutTone : Json → Option CalloutTone :=
  literal [("info", .info), ("warning", .warning), ("danger", .danger)]

/-- `z.string().min(1).max(64_000)`: code is not trimmed. -/
def codeText : Json → Option Text
  | .str s => if 1 ≤ utf16Length s ∧ utf16Length s ≤ 64000 then some s else none
  | _ => none

/-- The discriminator of a block. -/
inductive BlockType where
  | paragraph
  | heading
  | list
  | table
  | code
  | callout
  | calculation
  | link_reference
  | artifact_reference
  deriving DecidableEq, Repr

def blockType : Json → Option BlockType :=
  literal
    [("paragraph", .paragraph), ("heading", .heading), ("list", .list), ("table", .table),
     ("code", .code), ("callout", .callout), ("calculation", .calculation),
     ("link_reference", .link_reference), ("artifact_reference", .artifact_reference)]

section Library

variable [SchemaLibrary]

/-- `z.string().uuid()`. -/
def uuid : Json → Option Text
  | .str s => if SchemaLibrary.isUuid s then some s else none
  | _ => none

/-- The schema of one block type, on an object's fields. -/
def blockSchema (fields : List (Text × Json)) : BlockType → Option AnswerBlock
  | .paragraph => do
      onlyKeys ["type", "text", "evidenceIds"] fields
      return .paragraph (← field fields "text" visibleText) (← field fields "evidenceIds" evidenceIds)
  | .heading => do
      onlyKeys ["type", "level", "text"] fields
      return .heading (← field fields "level" headingLevel)
        (← field fields "text" (trimmedText 1 240))
  | .list => do
      onlyKeys ["type", "style", "items", "evidenceIds"] fields
      return .list (← field fields "style" listStyle) (← field fields "items" (arrayOf shortText 1 64))
        (← field fields "evidenceIds" evidenceIds)
  | .table => do
      onlyKeys ["type", "columns", "rows", "evidenceIds"] fields
      let columns ← field fields "columns" (arrayOf shortText 1 32)
      let rows ← field fields "rows" (arrayOf (arrayOf shortText 0 32) 0 500)
      let ids ← field fields "evidenceIds" evidenceIds
      if rows.all fun row => row.length == columns.length then return .table columns rows ids
      else none
  | .code => do
      onlyKeys ["type", "language", "code"] fields
      return .code (← optionalField fields "language" (trimmedText 0 40))
        (← field fields "code" codeText)
  | .callout => do
      onlyKeys ["type", "tone", "title", "body", "evidenceIds"] fields
      return .callout (← field fields "tone" calloutTone)
        (← optionalField fields "title" (trimmedText 1 160)) (← field fields "body" visibleText)
        (← field fields "evidenceIds" evidenceIds)
  | .calculation => do
      onlyKeys ["type", "calculationId", "title", "result", "unit", "assumptions", "warnings"] fields
      return .calculation
        { calculationId := ← field fields "calculationId" (trimmedText 1 160)
          title := ← field fields "title" (trimmedText 1 240)
          result := ← field fields "result" (trimmedText 1 500)
          unit := ← optionalField fields "unit" (trimmedText 1 80)
          assumptions := ← field fields "assumptions" (arrayOf shortText 0 32)
          warnings := ← field fields "warnings" (arrayOf shortText 0 32) }
  | .link_reference => do
      onlyKeys ["type", "linkId", "label"] fields
      return .linkReference (← field fields "linkId" (trimmedText 1 160))
        (← field fields "label" (trimmedText 1 240))
  | .artifact_reference => do
      onlyKeys ["type", "artifactId", "label"] fields
      return .artifactReference (← field fields "artifactId" uuid)
        (← field fields "label" (trimmedText 1 240))

def strictAnswerBlockSchema : Json → Option AnswerBlock
  | .obj fields => do blockSchema fields (← field fields "type" blockType)
  | _ => none

def answerKind : Json → Option AnswerKind :=
  literal
    [("direct", .direct), ("expert", .expert), ("clarification", .clarification),
     ("safe_refusal", .safe_refusal)]

def riskLevel : Json → Option RiskLevel :=
  literal [("low", .low), ("medium", .medium), ("high", .high)]

/-- `strictAnswerV3Schema.safeParse(value)`: the parsed answer of an accepted value. -/
def strictAnswerV3Schema : Json → Option AnswerV3
  | .obj fields => do
      onlyKeys
        ["schemaVersion", "answerKind", "riskLevel", "blocks", "missingInputs", "usedEvidenceIds",
         "usedLinkIds"] fields
      let _ ← field fields "schemaVersion" (literal [("openvac.answer.v3", ())])
      return {
        answerKind := ← field fields "answerKind" answerKind
        riskLevel := ← field fields "riskLevel" riskLevel
        blocks := ← field fields "blocks" (arrayOf strictAnswerBlockSchema 1 128)
        missingInputs := ← field fields "missingInputs" (arrayOf shortText 0 64)
        usedEvidenceIds := ← field fields "usedEvidenceIds" evidenceIds
        usedLinkIds := ← field fields "usedLinkIds" (arrayOf (trimmedText 1 160) 0 64) }
  | _ => none

end Library

/-! ## 2. Traversals -/

/-- `[...new Set(values)]`. -/
def unique (values : List Text) : List Text := values.eraseDups

def collectBlockEvidenceIds : AnswerBlock → List Text
  | .paragraph _ ids | .list _ _ ids | .table _ _ ids | .callout _ _ _ ids => ids
  | .heading .. | .code .. | .calculation _ | .linkReference .. | .artifactReference .. => []

def collectBlockLinkIds : AnswerBlock → List Text
  | .linkReference linkId _ => [linkId]
  | _ => []

def collectBlockArtifactIds : AnswerBlock → List Text
  | .artifactReference artifactId _ => [artifactId]
  | _ => []

def collectBlockCalculationIds : AnswerBlock → List Text
  | .calculation calculation => [calculation.calculationId]
  | _ => []

structure AnswerV3References where
  evidenceIds : List Text
  linkIds : List Text
  artifactIds : List Text
  calculationIds : List Text
  deriving DecidableEq, Repr

def collectAnswerV3References (answer : AnswerV3) : AnswerV3References where
  evidenceIds := unique (answer.blocks.flatMap collectBlockEvidenceIds)
  linkIds := unique (answer.blocks.flatMap collectBlockLinkIds)
  artifactIds := unique (answer.blocks.flatMap collectBlockArtifactIds)
  calculationIds := unique (answer.blocks.flatMap collectBlockCalculationIds)

def blockVisibleText : AnswerBlock → List Text
  | .paragraph text _ => [text]
  | .heading _ text => [text]
  | .list _ items _ => items
  | .table columns rows _ => columns ++ rows.flatten
  | .code language code => [language.getD [], code]
  | .callout _ title body _ => [title.getD [], body]
  | .calculation c => [c.title, c.result, c.unit.getD []] ++ c.assumptions ++ c.warnings
  | .linkReference _ label | .artifactReference _ label => [label]

def collectUserVisibleText (answer : AnswerV3) : List Text :=
  answer.missingInputs ++ answer.blocks.flatMap blockVisibleText

/-! ## 3. Rendering -/

/-- A number in decimal. -/
def decimal (n : Nat) : Text := (toString n).toList

def appendCitations (text : Text) (evidenceIds : List Text) (citationNumbers : Text → Option Nat) :
    Text :=
  let markers := (unique (evidenceIds.flatMap fun id =>
    match citationNumbers id with
    | none => []
    | some number => ["[".toList ++ decimal number ++ "]".toList])).flatten
  if markers.isEmpty then text else text ++ [' '] ++ markers

/-- A table cell: `|` is escaped and a line feed becomes a blank. -/
def escapeCell (value : Text) : Text :=
  value.flatMap fun c => if c == '|' then ['\\', '|'] else if c == '\n' then [' '] else [c]

def tableRow (cells : List Text) : Text :=
  "| ".toList ++ join " | ".toList cells ++ " |".toList

def renderBlock (citationNumbers : Text → Option Nat) : AnswerBlock → Text
  | .paragraph text ids => appendCitations text ids citationNumbers
  | .heading level text =>
      (match level with
        | .two => "## ".toList
        | .three => "### ".toList) ++ text
  | .list style items ids =>
      let lines := items.mapIdx fun index item =>
        (match style with
          | .ordered => decimal (index + 1) ++ ['.']
          | .unordered => ['-']) ++ [' '] ++ item
      appendCitations (join ['\n'] lines) ids citationNumbers
  | .table columns rows ids =>
      let lines := [tableRow (columns.map escapeCell), tableRow (columns.map fun _ => "---".toList)]
        ++ rows.map fun row => tableRow (row.map escapeCell)
      appendCitations (join ['\n'] lines) ids citationNumbers
  | .code language code =>
      "```".toList ++ language.getD [] ++ ['\n'] ++ code ++ "\n```".toList
  | .callout _ title body ids =>
      let cited := appendCitations body ids citationNumbers
      join ['\n']
        ((if (title.getD []).isEmpty then [] else ["> ".toList ++ title.getD []]) ++
          ["> ".toList ++ cited])
  | .calculation c =>
      join ['\n']
        (["### ".toList ++ c.title,
          "结果：".toList ++ c.result ++
            (if (c.unit.getD []).isEmpty then [] else ' ' :: c.unit.getD [])]
          ++ (if c.assumptions.isEmpty then []
            else "假设：".toList :: c.assumptions.map ("- ".toList ++ ·))
          ++ (if c.warnings.isEmpty then []
            else "注意：".toList :: c.warnings.map ("- ".toList ++ ·)))
  | .linkReference _ label => label
  | .artifactReference _ label => label

def renderAnswerV3 (answer : AnswerV3) (citationNumbers : Text → Option Nat) : Text :=
  join ['\n', '\n']
    ((answer.blocks.map (renderBlock citationNumbers)).filter fun text => !text.isEmpty)

end OpenVac.Agent
