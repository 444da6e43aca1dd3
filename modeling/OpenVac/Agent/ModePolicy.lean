/-
  File:      OpenVac/Agent/ModePolicy.lean
  Subject:   The policies that depend on a run's mode and question alone:
             server/agent/mode-policy.ts, with `hasExplicitArtifactIntent` of
             server/agent/artifact-tools.ts and `selectAgentRunTimeoutMs` of
             server/agent/orchestrator.ts.

  * An environment maps names to values; a missing variable is `none`.
  * The regular expressions are the source's, part by part.
-/
import OpenVac.Lib.JsNumber
import OpenVac.Lib.JsRegex

namespace OpenVac.Agent

open JsRegex JsString JsNumber

inductive RequestedAgentMode where
  | auto
  | deep
  deriving DecidableEq, Repr

inductive ResolvedAgentMode where
  | fast
  | deep
  deriving DecidableEq, Repr

/-- `process.env`. -/
abbrev Environment := String → Option String

structure AgentRunBudgetProfile where
  timeoutEnvironmentName : String
  timeoutFallbackMs : Nat
  maxToolRounds : Nat
  inputTokenBudget : Nat
  deriving DecidableEq, Repr

def agentRunBudgetProfile : RequestedAgentMode → AgentRunBudgetProfile
  | .deep =>
      { timeoutEnvironmentName := "AGENT_DEEP_TIMEOUT_MS", timeoutFallbackMs := 180000
        maxToolRounds := 3, inputTokenBudget := 131072 }
  | .auto =>
      { timeoutEnvironmentName := "AGENT_AUTO_TIMEOUT_MS", timeoutFallbackMs := 120000
        maxToolRounds := 1, inputTokenBudget := 65536 }

/-- `Number.parseInt(environment[name] ?? "", 10)`. -/
def environmentInteger (environment : Environment) (name : String) : Number :=
  parseInt ((environment name).getD "").toList

/-- A resolved mode's profile: `mode === "deep" ? "deep" : "auto"`. -/
def ResolvedAgentMode.requested : ResolvedAgentMode → RequestedAgentMode
  | .deep => .deep
  | .fast => .auto

def effectiveAgentRunTimeoutMs (mode : ResolvedAgentMode) (environment : Environment) : Nat :=
  let profile := agentRunBudgetProfile mode.requested
  match (environmentInteger environment profile.timeoutEnvironmentName).safePositive with
  | none => profile.timeoutFallbackMs
  | some configured => max configured profile.timeoutFallbackMs

/-! ## 1. Artifact intent -/

def MAX_QUESTION_CHARACTERS : Nat := 16000

/-- `(?:报告|清单|…|Markdown)` of the refusals. -/
def refusedArtifactNoun : Regex :=
  words ["报告", "清单", "检查表", "参数表", "表格", "文档", "PDF", "DOCX", "CSV", "Markdown"]

/-- `(?:诊断报告|…|Markdown)` of the requests. -/
def artifactNoun : Regex :=
  words ["诊断报告", "选型报告", "报告", "检查清单", "检查表", "参数表", "表格", "文档", "PDF", "DOCX", "CSV",
    "Markdown"]

def englishCreate : Regex :=
  words ["create", "generate", "export", "download", "make", "produce", "write"]

def ARTIFACT_DECLINED : Regex :=
  cats [words ["不要", "无需", "不需要", "不必", "禁止", "别", "不得", "没有", "尚未"], gap 12,
    words ["生成", "创建", "制作", "导出", "下载", "整理成", "写"], gap 32, refusedArtifactNoun]

def ARTIFACT_HOW : Regex :=
  cats [words ["如何", "怎么", "怎样", "是否", "能否", "可否", "可不可以"], gap 16,
    words ["生成", "创建", "制作", "导出", "下载"], gap 32, refusedArtifactNoun]

def ARTIFACT_DECLINED_ENGLISH : Regex :=
  cats
    [alts
      [cats [lit "do", plus space, lit "not"], lit "don't", lit "didn't",
        cats [lit "did", plus space, lit "not"],
        cats [lit "no", plus space, lit "need", plus space, lit "to"], lit "without",
        cats [lit "how", plus space, words ["do", "can", "to"]],
        cats [lit "can", plus space, words ["you", "i"]]],
      gap 32, englishCreate, gap 48,
      words ["report", "checklist", "parameter table", "document", "pdf", "docx", "csv",
        "markdown"]]

def ARTIFACT_REQUESTED : Regex :=
  cats [opt (words ["请", "帮我", "为我", "我要", "我需要", "现在"]), star space,
    words ["生成", "创建", "制作", "导出", "下载", "整理成", "写一份"], gap 32, artifactNoun]

def ARTIFACT_REQUESTED_REVERSED : Regex :=
  cats [artifactNoun, gap 16, words ["生成", "创建", "制作", "导出", "下载"]]

def ARTIFACT_REQUESTED_ENGLISH : Regex :=
  cats [opt (cats [lit "please", plus space]), englishCreate, gap 48,
    words ["diagnosis report", "selection report", "report", "inspection checklist", "checklist",
      "parameter table", "document", "pdf", "docx", "csv", "markdown"]]

section Question

variable [UnicodeTables]

def hasExplicitArtifactIntent (question : List Char) : Bool :=
  let normalized := trim (nfkc question)
  if normalized.isEmpty || utf16Length normalized > MAX_QUESTION_CHARACTERS then false
  else if test ARTIFACT_DECLINED normalized || test ARTIFACT_HOW normalized ||
      test ARTIFACT_DECLINED_ENGLISH normalized then
    false
  else
    test ARTIFACT_REQUESTED normalized || test ARTIFACT_REQUESTED_REVERSED normalized ||
      test ARTIFACT_REQUESTED_ENGLISH normalized

def EXPLICIT_ARTIFACT_RUN_TIMEOUT_FLOOR_MS : Nat := 300000

/-- How long the orchestrator keeps a run alive. -/
def selectAgentRunTimeoutMs (resolvedMode : ResolvedAgentMode) (question : List Char)
    (environment : Environment) : Nat :=
  let modeTimeoutMs := effectiveAgentRunTimeoutMs resolvedMode environment
  if hasExplicitArtifactIntent question then
    max modeTimeoutMs EXPLICIT_ARTIFACT_RUN_TIMEOUT_FLOOR_MS
  else modeTimeoutMs

end Question

end OpenVac.Agent
