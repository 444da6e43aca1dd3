/-
  File:      OpenVac/Agent/AnswerValidation.lean
  Subject:   `validateAnswerV3` of server/agent/answer-v3.ts.

  * Every check is a function to the errors it reports; an answer is valid if there are none.
  * The sets a caller may leave out are options, and an absent set is not checked.
-/
import OpenVac.Agent.AnswerV3
import OpenVac.Agent.HighRiskBoundaries
import OpenVac.ChatV3.VerifiedLinkLabel

namespace OpenVac.Agent

open JsString JsRegex JsUrl ChatV3

/-! ## 1. Questions -/

def COMPLEX_QUESTION : Regex :=
  alts
    [cats [lit "故障", words ["诊断", "原因", "排查"]], lit "选型", cats [lit "推荐", words ["型号", "泵"]],
     words ["采购", "报价", "库存"], cats [lit "标准", words ["条文", "要求", "编号"]], lit "GB/T",
     cats [lit "ISO", star space, digit],
     words ["是否安全", "能否继续运行", "拆修", "带电", "联锁", "抽空时间", "有效抽速", "流导", "漏率", "放气率"],
     cats [lit "工程", words ["设计", "批准"]],
     cats
       [digit, opt (cats [star (oneOfOr ".," (within '0' '9')), digit]), star space,
        words
          ["Pa", "kPa", "mbar", "bar", "Torr", "L/s", "m3/h", "m³/h", "℃", "°C", "K", "mm", "cm",
           "m"]]]

section Host

variable [UnicodeTables]

def requiresExpertAnswer (question : Text) (risk : RiskLevel) : Bool :=
  if risk ≠ .low then true
  else test COMPLEX_QUESTION (trim (collapseSpaces (nfkc question)))

end Host

/-! ## 2. The input -/

structure LinkBinding where
  linkId : Text
  label : Option Text
  evidenceIds : List Text
  deriving DecidableEq, Repr

structure AnswerV3ValidationInput where
  value : Json
  riskLevel : Option RiskLevel
  question : Option Text
  requiresExpert : Bool
  minimumLinkCount : Nat
  knownEvidenceIds : Option (List Text)
  knownLinkIds : Option (List Text)
  knownLinkBindings : Option (List LinkBinding)
  knownArtifactIds : Option (List Text)
  knownCalculationIds : Option (List Text)
  verifiedEvidenceIds : List Text
  forbiddenVisibleTerms : List Text

inductive AnswerV3ValidationResult where
  | valid (answer : AnswerV3) (references : AnswerV3References)
  | invalid (errors : List Text) (references : AnswerV3References) (answer : Option AnswerV3)
  deriving DecidableEq, Repr

/-! ## 3. The checks -/

def validateKnownReferences (references : List Text) (knownValues : Option (List Text))
    (kind : String) : List Text :=
  match knownValues with
  | none => []
  | some known =>
      (references.filter fun id => !known.contains id).map fun id =>
        "回答引用了未知".toList ++ kind.toList ++ [' '] ++ id ++ "。".toList

def compareDeclaredReferences (declared collected : List Text) (fieldName : String) : List Text :=
  let missing := collected.filter fun id => !declared.contains id
  let unused := declared.filter fun id => !collected.contains id
  (if missing.isEmpty then []
    else [fieldName.toList ++ " 未声明正文引用：".toList ++ join ", ".toList (unique missing)]) ++
  (if unused.isEmpty then []
    else [fieldName.toList ++ " 声明了正文未使用的引用：".toList ++ join ", ".toList (unique unused)])

def validateUniqueReferences (references : List Text) (fieldName : String) : List Text :=
  if (unique references).length ≠ references.length then
    [fieldName.toList ++ " 不得重复声明同一链接。".toList]
  else []

/-- The link references of an answer, with their labels. -/
def linkReferences (answer : AnswerV3) : List (Text × Text) :=
  answer.blocks.flatMap fun block =>
    match block with
    | .linkReference linkId label => [(linkId, label)]
    | _ => []

/-- An entry of `bindingMap`: the evidence of every binding of a link, and the label of the first. -/
def bindingOf (bindings : List LinkBinding) (linkId : Text) : Option (List Text × Option Text) :=
  match bindings.filter fun binding => binding.linkId == linkId with
  | [] => none
  | first :: rest => some ((first :: rest).flatMap (·.evidenceIds), first.label)

def riskName : RiskLevel → Text
  | .low => "low".toList
  | .medium => "medium".toList
  | .high => "high".toList

def BoundaryRequirement.name : BoundaryRequirement → Text
  | .stop => "stop".toList
  | .isolate => "isolate".toList
  | .external_professional => "external_professional".toList

section Host

variable [UnicodeTables]

def validateKnownLinkBindings [UrlParser] (references : List (Text × Text))
    (evidenceIds : List Text) (bindings : Option (List LinkBinding)) : List Text :=
  if references.isEmpty then []
  else
    match bindings with
    | none => ["回答中的链接缺少已验证证据绑定映射。".toList]
    | some bindings =>
        ((bindings.filter fun binding =>
            binding.label.any fun label => canonicalVerifiedLinkLabel label != label).map
          fun binding => "链接 ".toList ++ binding.linkId ++ " 的服务端显示标签不满足安全边界。".toList) ++
        references.flatMap fun reference =>
          let binding := bindingOf bindings reference.1
          (if binding.any fun b => b.1.any evidenceIds.contains then []
            else ["链接 ".toList ++ reference.1 ++ " 未与回答引用的已验证证据绑定。".toList]) ++
          (if (binding.bind (·.2)).any fun label =>
              reference.2 != canonicalVerifiedLinkLabel label then
            ["链接 ".toList ++ reference.1 ++ " 未使用服务端核验的显示标签。".toList]
          else [])

/-- The first of the forbidden terms that the joined visible text contains. -/
def leakedTerm (visible : List Text) (forbidden : List Text) : Option Text :=
  let visibleText := UnicodeTables.toLocaleLowerCase (nfkc (join ['\n'] visible))
  ((forbidden.map fun term => trim (nfkc term)).filter fun term => 3 ≤ utf16Length term).find?
    fun term => includes visibleText (UnicodeTables.toLocaleLowerCase term)

/-- The errors about the answer's kind, given its references. -/
def kindErrors (answer : AnswerV3) (references : AnswerV3References) (effectiveRisk : RiskLevel)
    (expertRequired : Bool) : List Text :=
  (if expertRequired && answer.answerKind == .direct then
    ["中高风险或复杂问题不能使用 direct 回答。".toList] else []) ++
  (if effectiveRisk == .high &&
      !([AnswerKind.expert, .clarification, .safe_refusal].contains answer.answerKind) then
    ["高风险问题只能使用 expert、clarification 或 safe_refusal 回答。".toList] else []) ++
  (if expertRequired && answer.answerKind == .expert && references.evidenceIds.isEmpty &&
      references.calculationIds.isEmpty then
    ["复杂或中高风险 expert 回答至少需要证据或本地确定性计算。".toList] else [])

/-- The errors about verified evidence and safety boundaries. -/
def highRiskErrors (answer : AnswerV3) (references : AnswerV3References) (effectiveRisk : RiskLevel)
    (verified : List Text) : List Text :=
  (if effectiveRisk == .high && answer.answerKind == .expert then
    if references.evidenceIds.isEmpty then ["高风险 expert 回答至少需要一个已验证证据引用。".toList]
    else
      let unverified := references.evidenceIds.filter fun id => !verified.contains id
      if unverified.isEmpty then []
      else ["高风险 expert 回答引用了未验证证据：".toList ++ join ", ".toList (unique unverified)]
  else []) ++
  (if effectiveRisk == .high then
    let missing := validateHighRiskAnswerBoundaries (renderAnswerV3 answer fun _ => none)
    if missing.isEmpty then []
    else ["高风险安全边界不完整：".toList ++ join [','] (missing.map BoundaryRequirement.name)]
  else [])

/-- The errors about the visible text. -/
def visibleTextErrors (answer : AnswerV3) (forbidden : List Text) : List Text :=
  (match (collectUserVisibleText answer).find? containsUnsafeAnswerVisibleText with
    | none => []
    | some unsafeText =>
        ["回答正文包含 URL、内部字段或未受控引用标记：".toList ++ clip 80 unsafeText]) ++
  (match leakedTerm (collectUserVisibleText answer) forbidden with
    | none => []
    | some term => ["回答正文包含内部计算字段：".toList ++ clip 80 term])

variable [UrlParser]

/-- The errors about ids: unknown ones, undeclared ones, unbound links. -/
def referenceErrors (input : AnswerV3ValidationInput) (answer : AnswerV3)
    (references : AnswerV3References) : List Text :=
  validateKnownReferences (unique (references.evidenceIds ++ answer.usedEvidenceIds))
    input.knownEvidenceIds "证据" ++
  validateKnownReferences (unique (references.linkIds ++ answer.usedLinkIds))
    input.knownLinkIds "链接" ++
  validateKnownReferences references.artifactIds input.knownArtifactIds "制品" ++
  validateKnownReferences references.calculationIds input.knownCalculationIds "计算" ++
  compareDeclaredReferences answer.usedEvidenceIds references.evidenceIds "usedEvidenceIds" ++
  compareDeclaredReferences answer.usedLinkIds references.linkIds "usedLinkIds" ++
  validateKnownLinkBindings (linkReferences answer) references.evidenceIds input.knownLinkBindings

/-- All the errors of a parsed answer, in the order of the source. -/
def answerErrors (input : AnswerV3ValidationInput) (answer : AnswerV3) : List Text :=
  let references := collectAnswerV3References answer
  let effectiveRisk := input.riskLevel.getD answer.riskLevel
  let expertRequired := effectiveRisk != .low || input.requiresExpert ||
    input.question.any fun question =>
      !question.isEmpty && requiresExpertAnswer question effectiveRisk
  validateUniqueReferences (answer.blocks.flatMap collectBlockLinkIds) "link_reference" ++
  validateUniqueReferences answer.usedLinkIds "usedLinkIds" ++
  (if references.linkIds.length < input.minimumLinkCount then
    ["回答必须选择至少一个已验证链接。".toList] else []) ++
  (if answer.riskLevel ≠ effectiveRisk then
    ["回答风险等级 ".toList ++ riskName answer.riskLevel ++ " 与已判定等级 ".toList ++
      riskName effectiveRisk ++ " 不一致。".toList] else []) ++
  kindErrors answer references effectiveRisk expertRequired ++
  referenceErrors input answer references ++
  visibleTextErrors answer input.forbiddenVisibleTerms ++
  highRiskErrors answer references effectiveRisk input.verifiedEvidenceIds

def validateAnswerV3 [SchemaLibrary] (input : AnswerV3ValidationInput) : AnswerV3ValidationResult :=
  match strictAnswerV3Schema input.value with
  | none =>
      .invalid (SchemaLibrary.issues input.value)
        { evidenceIds := [], linkIds := [], artifactIds := [], calculationIds := [] } none
  | some answer =>
      let deduped := unique (answerErrors input answer)
      if deduped.isEmpty then .valid answer (collectAnswerV3References answer)
      else .invalid deduped (collectAnswerV3References answer) (some answer)

end Host

end OpenVac.Agent
