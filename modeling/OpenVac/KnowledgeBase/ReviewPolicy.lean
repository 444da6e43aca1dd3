/-
  File:      OpenVac/KnowledgeBase/ReviewPolicy.lean
  Subject:   Reports of the review automation and the publication decision that rests on them
             (server/knowledge/automation-review-schema.ts, review-policy.ts).

  * `parseReport`, `parseStoredReport` -- the schemas: texts are trimmed and bounded, digests
    have their form. What a schema yields it accepts unchanged (`parseReport_idem`).
  * `ReviewRun` -- a row of knowledge_review_run; a `structured_report` of another shape than the
    stored report is `none`.
  * `eligible` -- the runs the decision counts.
  * `evaluateKnowledgePublicationReadiness` -- one eligible run of each phase, low risk, no
    blockers, evidence for every number.
-/
import OpenVac.KnowledgeBase.SourcePolicy

namespace OpenVac.KnowledgeBase

open JsString

def KNOWLEDGE_AUTOMATION_POLICY_VERSION : Text := "codex_automation_v1".toList

def REVIEW_MODEL : Text := "gpt-5.5-codex".toList

/-! ## 1. Reports -/

inductive Risk where
  | low
  | medium
  | high
  deriving DecidableEq, Repr

inductive ReviewDecision where
  | approved
  | rejected
  | needs_human
  deriving DecidableEq, Repr

inductive QueuedPhase where
  | verify
  | embedding
  deriving DecidableEq, Repr

structure Finding where
  code : Text
  message : Text
  deriving DecidableEq, Repr

structure Evidence where
  claim : Text
  exactEvidence : Text
  sourceLocator : Text
  deriving DecidableEq, Repr

structure NumericClaim where
  claim : Text
  exactEvidence : Option Text
  sourceLocator : Option Text
  deriving DecidableEq, Repr

structure AutomationReviewReport where
  summary : Text
  risk : Risk
  decision : ReviewDecision
  findings : List Finding
  blockers : List Finding
  evidence : List Evidence
  numericClaims : List NumericClaim
  deriving DecidableEq, Repr

/-- `structured_report.automation`. A lease token is known by its hash. -/
structure AutomationRecord where
  idempotencyTokenHash : Uuid
  submittedReport : AutomationReviewReport
  submittedRevisionHash : Option Text
  outputVersionId : Uuid
  outputContentHash : Text
  sourceRightsValid : Bool
  queuedPhase : Option QueuedPhase
  deriving DecidableEq, Repr

structure StoredReport where
  summary : Text
  outputContentHash : Text
  findings : List Finding
  blockers : List Finding
  evidence : List Evidence
  numericClaims : List NumericClaim
  automation : AutomationRecord
  deriving DecidableEq, Repr

def parseFinding (f : Finding) : Option Finding := do
  return ⟨← boundedText 100 f.code, ← boundedText 4000 f.message⟩

def parseEvidence (e : Evidence) : Option Evidence := do
  return ⟨← boundedText 4000 e.claim, ← boundedText 10000 e.exactEvidence,
    ← boundedText 1000 e.sourceLocator⟩

/-- `.optional()` of a bounded text. -/
def optionalText (n : Nat) : Option Text → Option (Option Text)
  | none => some none
  | some s => (boundedText n s).map some

def parseNumericClaim (c : NumericClaim) : Option NumericClaim := do
  return ⟨← boundedText 4000 c.claim, ← optionalText 10000 c.exactEvidence,
    ← optionalText 1000 c.sourceLocator⟩

/-- `z.array(schema)`. -/
def parseAll {α : Type} (parse : α → Option α) : List α → Option (List α)
  | [] => some []
  | a :: rest => do return (← parse a) :: (← parseAll parse rest)

/-- `automationReviewReportSchema`. -/
def parseReport (r : AutomationReviewReport) : Option AutomationReviewReport := do
  return { summary := ← boundedText 10000 r.summary
           risk := r.risk
           decision := r.decision
           findings := ← parseAll parseFinding r.findings
           blockers := ← parseAll parseFinding r.blockers
           evidence := ← parseAll parseEvidence r.evidence
           numericClaims := ← parseAll parseNumericClaim r.numericClaims }

/-- `knowledgeSha256Schema`. -/
def parseSha256 (s : Text) : Option Text := if isSha256Hex s then some s else none

theorem parseSha256_iff {s t : Text} : parseSha256 s = some t ↔ isSha256Hex s = true ∧ t = s := by
  unfold parseSha256
  by_cases h : isSha256Hex s = true
  · rw [if_pos h]
    exact ⟨fun e => ⟨h, (Option.some.inj e).symm⟩, fun e => by rw [e.2]⟩
  · rw [if_neg h]
    exact ⟨fun e => (nomatch e), fun e => absurd e.1 h⟩

def parseAutomationRecord (a : AutomationRecord) : Option AutomationRecord := do
  return { a with
           submittedReport := ← parseReport a.submittedReport
           submittedRevisionHash :=
             ← (match a.submittedRevisionHash with
                | none => some none
                | some h => (parseSha256 h).map some)
           outputContentHash := ← parseSha256 a.outputContentHash }

/-- `storedAutomationReviewReportSchema`. -/
def parseStoredReport (r : StoredReport) : Option StoredReport := do
  return { summary := ← boundedText 10000 r.summary
           outputContentHash := ← parseSha256 r.outputContentHash
           findings := ← parseAll parseFinding r.findings
           blockers := ← parseAll parseFinding r.blockers
           evidence := ← parseAll parseEvidence r.evidence
           numericClaims := ← parseAll parseNumericClaim r.numericClaims
           automation := ← parseAutomationRecord r.automation }

/-! ## 2. Runs -/

inductive ReviewPhase where
  | initial
  | verify
  deriving DecidableEq, Repr

inductive RunStatus where
  | queued
  | leased
  | completed
  | needs_human
  | failed
  deriving DecidableEq, Repr

structure ReviewRun where
  id : Uuid
  phase : ReviewPhase
  status : RunStatus
  inputVersionId : Uuid
  inputContentHash : Text
  model : Text
  promptVersion : Text
  risk : Option Risk
  structuredReport : Option StoredReport
  decision : Option ReviewDecision
  leaseTokenHash : Option Uuid
  leaseExpiresAt : Option Int
  attempts : Nat
  revisedVersionId : Option Uuid
  completedAt : Option Int
  deriving DecidableEq, Repr

/-- A row of status `completed` as the schema yields it. -/
structure CompletedRun where
  id : Uuid
  phase : ReviewPhase
  inputVersionId : Uuid
  inputContentHash : Text
  promptVersion : Text
  risk : Risk
  structuredReport : StoredReport
  decision : ReviewDecision
  revisedVersionId : Option Uuid
  deriving DecidableEq, Repr

/-- `knowledgeAutomationReviewRunSchema.safeParse(databaseRun(row))`. Rows of another status parse
    as well and are dropped right after. -/
def parseRun (row : ReviewRun) : Option CompletedRun := do
  if row.status != .completed then none
  else
    let _ ← if 1 ≤ utf16Length (trim row.model) then some () else none
    let _ ← if 1 ≤ utf16Length (trim row.promptVersion) then some () else none
    return { id := row.id
             phase := row.phase
             inputVersionId := row.inputVersionId
             inputContentHash := ← parseSha256 row.inputContentHash
             promptVersion := trim row.promptVersion
             risk := ← row.risk
             structuredReport := ← row.structuredReport >>= parseStoredReport
             decision := ← row.decision
             revisedVersionId := row.revisedVersionId }

/-! ## 3. The decision -/

inductive ReadinessReason where
  | SOURCE_RIGHTS_INVALID
  | AUTOMATION_REVIEW_PAIR_MISSING_OR_MISMATCHED
  | AUTOMATION_REVIEW_HIGH_RISK
  | AUTOMATION_REVIEW_BLOCKERS
  | AUTOMATION_REVIEW_NUMERIC_EVIDENCE_MISSING
  deriving DecidableEq, Repr

inductive ReadinessPath where
  | codex_automation_v1
  | legacy_sections
  deriving DecidableEq, Repr

structure KnowledgePublicationReadiness where
  ready : Bool
  path : Option ReadinessPath
  reasons : List ReadinessReason
  deriving DecidableEq, Repr

def blocked (reasons : List ReadinessReason) : KnowledgePublicationReadiness :=
  ⟨false, none, reasons⟩

namespace CompletedRun

variable (currentVersionId : Uuid) (currentContentHash : Text)

def storedTargetMatches (run : CompletedRun) : Bool :=
  run.structuredReport.outputContentHash == currentContentHash &&
    run.structuredReport.automation.outputVersionId == currentVersionId &&
    run.structuredReport.automation.outputContentHash == currentContentHash &&
    run.structuredReport.automation.sourceRightsValid

def targetsCurrentInput (run : CompletedRun) : Bool :=
  run.inputVersionId == currentVersionId && run.inputContentHash == currentContentHash

def targetsRecordedRevision (run : CompletedRun) : Bool :=
  run.phase == .initial && run.revisedVersionId == some currentVersionId &&
    run.structuredReport.outputContentHash == currentContentHash

def submittedReportMatches (run : CompletedRun) : Bool :=
  let submittedReport := run.structuredReport.automation.submittedReport
  submittedReport.summary == run.structuredReport.summary &&
    submittedReport.risk == run.risk &&
    submittedReport.decision == run.decision &&
    submittedReport.findings == run.structuredReport.findings &&
    submittedReport.blockers == run.structuredReport.blockers &&
    submittedReport.evidence == run.structuredReport.evidence &&
    submittedReport.numericClaims == run.structuredReport.numericClaims

def submittedRevisionMatches (run : CompletedRun) : Bool :=
  let submittedRevisionHash := run.structuredReport.automation.submittedRevisionHash
  if run.targetsRecordedRevision currentVersionId currentContentHash then
    submittedRevisionHash == some currentContentHash
  else submittedRevisionHash == none

/-- The runs that count for a version and its content. -/
def eligible (run : CompletedRun) : Bool :=
  run.decision == .approved &&
    run.promptVersion == KNOWLEDGE_AUTOMATION_POLICY_VERSION &&
    run.storedTargetMatches currentVersionId currentContentHash &&
    (run.targetsCurrentInput currentVersionId currentContentHash ||
      run.targetsRecordedRevision currentVersionId currentContentHash) &&
    run.submittedReportMatches &&
    run.submittedRevisionMatches currentVersionId currentContentHash

def numericEvidenceMissing (run : CompletedRun) : Bool :=
  run.structuredReport.numericClaims.any fun claim =>
    (claim.exactEvidence.getD []).isEmpty || (claim.sourceLocator.getD []).isEmpty

end CompletedRun

/-- What speaks against a pair of eligible runs. -/
def pairReasons (initial verify : CompletedRun) : List ReadinessReason :=
  let pair := [initial, verify]
  (if pair.any fun run => run.risk != .low then [.AUTOMATION_REVIEW_HIGH_RISK] else []) ++
    (if pair.any fun run => !run.structuredReport.blockers.isEmpty then
      [.AUTOMATION_REVIEW_BLOCKERS] else []) ++
    (if pair.any CompletedRun.numericEvidenceMissing then
      [.AUTOMATION_REVIEW_NUMERIC_EVIDENCE_MISSING] else [])

structure ReadinessInput where
  currentVersionId : Uuid
  currentContentHash : Text
  sourceRightsValid : Bool
  automationRuns : List ReviewRun
  legacySectionReviewReady : Bool

/-- The eligible runs of a phase among the rows. -/
def eligibleRuns (versionId : Uuid) (contentHash : Text) (phase : ReviewPhase)
    (rows : List ReviewRun) : List CompletedRun :=
  ((rows.filterMap parseRun).filter fun run => run.eligible versionId contentHash).filter
    fun run => run.phase == phase

def evaluateKnowledgePublicationReadiness (input : ReadinessInput) :
    KnowledgePublicationReadiness :=
  if !input.sourceRightsValid then blocked [.SOURCE_RIGHTS_INVALID]
  else if input.legacySectionReviewReady then ⟨true, some .legacy_sections, []⟩
  else
    let initialRuns :=
      eligibleRuns input.currentVersionId input.currentContentHash .initial input.automationRuns
    let verifyRuns :=
      eligibleRuns input.currentVersionId input.currentContentHash .verify input.automationRuns
    match initialRuns, verifyRuns with
    | [initial], [verify] =>
        if initial.id == verify.id then blocked [.AUTOMATION_REVIEW_PAIR_MISSING_OR_MISMATCHED]
        else if (pairReasons initial verify).isEmpty then ⟨true, some .codex_automation_v1, []⟩
        else blocked (pairReasons initial verify)
    | _, _ => blocked [.AUTOMATION_REVIEW_PAIR_MISSING_OR_MISMATCHED]

/-- `findRunId(rows, phase)`: the FIRST row of the phase. -/
def findRunId (rows : List ReviewRun) (phase : ReviewPhase) : Option Uuid :=
  (rows.find? fun row => row.phase == phase).map (·.id)

end OpenVac.KnowledgeBase
