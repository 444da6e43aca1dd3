/-
  File:      OpenVac/KnowledgeBase/AutomationReview.lean
  Subject:   The review automation (server/knowledge/automation-review-service.ts,
             automation-review-repository.ts, pending-review-requeue.ts).

  * `claim` -- expired leases return to the queue, then queued runs are leased.
  * `complete` -- the result of a leased run: a revision becomes the current version, an approved
    initial run queues its verification, an approved verification publishes or queues the
    embedding, everything else goes to a person.
  * `replay`, `replayOutcome` -- the answer to a result that was submitted before.
  * `requeuePending` -- an initial run for every version that waits for its review without one.
-/
import OpenVac.KnowledgeBase.Store

namespace OpenVac.KnowledgeBase

open Rows JsString JsUrl

/-! ## 1. Leases -/

/-- Two hours. -/
def REVIEW_LEASE_MS : Int := 7200000

def leaseExpired (now : Int) (r : ReviewRun) : Bool :=
  r.status == .leased && r.leaseExpiresAt.any fun t => decide (t ≤ now)

/-- The first statement of `claim`. -/
def expireLeases (now : Int) (db : Database) : Database :=
  { db with
    runs := updateWhere (leaseExpired now)
      (fun r => { r with status := .queued, leaseTokenHash := none, leaseExpiresAt := none })
      db.runs }

/-- The version and the document of a run whose input is still current. -/
def currentInput (db : Database) (r : ReviewRun) : Option (KnowledgeVersion × KnowledgeDocument) :=
  match db.version r.inputVersionId with
  | none => none
  | some version =>
      match db.document version.documentId with
      | none => none
      | some document =>
          if document.currentVersionId == some version.id &&
              version.contentHash == some r.inputContentHash then
            some (version, document)
          else none

def claimable (phase : ReviewPhase) (db : Database) (r : ReviewRun) : Bool :=
  r.status == .queued && r.phase == phase &&
    r.promptVersion == KNOWLEDGE_AUTOMATION_POLICY_VERSION && r.model == REVIEW_MODEL &&
    (currentInput db r).any fun target =>
      target.2.status == .review || target.2.status == .processing

structure LeaseCandidate where
  id : Uuid
  phase : ReviewPhase
  inputVersionId : Uuid
  inputContentHash : Text
  leaseToken : Uuid
  leaseExpiresAt : Int
  deriving DecidableEq, Repr

/-- One candidate is leased under a new token. -/
def leaseRun (phase : ReviewPhase) (now : Int) (acc : List LeaseCandidate × Database)
    (id : Uuid) : List LeaseCandidate × Database :=
  match acc.2.runs.find? fun r => r.id == id && claimable phase acc.2 r with
  | none => acc
  | some r =>
      let (token, db) := acc.2.draw
      (acc.1 ++ [⟨id, phase, r.inputVersionId, r.inputContentHash, token, now + REVIEW_LEASE_MS⟩],
        db.setRun id fun r =>
          { r with
            status := .leased
            leaseTokenHash := some token
            leaseExpiresAt := some (now + REVIEW_LEASE_MS)
            attempts := r.attempts + 1 })

/-- `picked` are the candidates that `FOR UPDATE SKIP LOCKED LIMIT` leaves. -/
def claim (phase : ReviewPhase) (picked : List Uuid) (now : Int) (db : Database) :
    List LeaseCandidate × Database :=
  picked.foldl (leaseRun phase now) ([], expireLeases now db)

/-! ## 2. Results -/

structure CompleteInput where
  id : Uuid
  phase : ReviewPhase
  leaseTokenHash : Uuid
  inputVersionId : Uuid
  inputContentHash : Text
  report : AutomationReviewReport
  revisedContent : Option Text
  deriving DecidableEq, Repr

structure AutomationReviewOutcome where
  runId : Uuid
  status : RunStatus
  decision : ReviewDecision
  currentVersionId : Uuid
  queuedPhase : Option QueuedPhase
  idempotent : Bool
  deriving DecidableEq, Repr

def leaseInvalid : KnowledgeError :=
  .api 409 "KNOWLEDGE_REVIEW_LEASE_INVALID"
    "Review lease is expired, stale, replayed with different data, or invalid."

def staleVersion : KnowledgeError :=
  .api 409 "KNOWLEDGE_REVIEW_STALE"
    "Knowledge review target changed before the result could be applied."

/-- The run, the version and the document of `complete`'s first query. -/
def leasedTarget (input : CompleteInput) (now : Int) (db : Database) :
    Option (ReviewRun × KnowledgeVersion × KnowledgeDocument) :=
  match db.runs.find? fun r =>
    r.id == input.id && r.phase == input.phase &&
      r.leaseTokenHash == some input.leaseTokenHash &&
      r.inputVersionId == input.inputVersionId &&
      r.inputContentHash == input.inputContentHash && r.status == .leased &&
      r.leaseExpiresAt.any fun t => decide (now < t) with
  | none => none
  | some r => (currentInput db r).map fun target => (r, target)

section AutomationReview

variable [Sha256] [UrlParser]

def submittedRevisionHash (input : CompleteInput) : Option Text :=
  input.revisedContent.map Sha256.hex

/-- The run whose stored result is the submitted one. -/
def replay (input : CompleteInput) (db : Database) : Option ReviewRun :=
  db.runs.find? fun r =>
    r.id == input.id && r.phase == input.phase && r.inputVersionId == input.inputVersionId &&
      r.inputContentHash == input.inputContentHash &&
      r.structuredReport.any fun report =>
        report.automation.idempotencyTokenHash == input.leaseTokenHash &&
          report.automation.submittedReport == input.report &&
          report.automation.submittedRevisionHash == submittedRevisionHash input

def replayOutcome (r : ReviewRun) : Except KnowledgeError AutomationReviewOutcome :=
  match r.structuredReport, r.decision with
  | some report, some decision =>
      if r.status == .completed || r.status == .needs_human || r.status == .failed then
        .ok
          { runId := r.id
            status := r.status
            decision := decision
            currentVersionId := report.automation.outputVersionId
            queuedPhase := report.automation.queuedPhase
            idempotent := true }
      else .error staleVersion
  | _, _ => .error staleVersion

def revisedVersion (version : KnowledgeVersion) (content : Text) (versionId : Uuid)
    (number : Nat) : KnowledgeVersion :=
  { id := versionId
    documentId := version.documentId
    version := number
    contentHash := some (Sha256.hex content)
    content := content
    citationMetadata := version.citationMetadata
    status := .review
    metadata :=
      { version.metadata with
        review := none
        reviewStatus := some .required
        embeddingStatus := some .pending_review }
    createdBy := version.createdBy
    publishedAt := none }

/-- The text of a revision as a new current version of the document. -/
def insertRevision (version : KnowledgeVersion) (content : Text) (db : Database) :
    Except KnowledgeError (Uuid × Database) := do
  let (versionId, db) := db.draw
  let db ← db.insertVersion
    (revisedVersion version content versionId (db.maxVersion version.documentId + 1))
  return (versionId, db.setDocument version.documentId (withCurrent .review versionId))

/-- `lockCurrentSourceForPublication`: whether the source is authorized, and the citation. -/
def lockCurrentSourceForPublication (documentId versionId : Uuid) (contentHash : Text)
    (db : Database) : Option (Bool × CitationMetadata) := do
  let document ← db.document documentId
  let version ← db.version versionId
  if document.currentVersionId != some versionId || version.contentHash != some contentHash then
    none
  else
    let source ← db.source document.sourceId
    return (isSourceAuthorized (some source) version.citationMetadata, version.citationMetadata)

def needsHumanVersion (v : KnowledgeVersion) : KnowledgeVersion :=
  { v with status := .review, metadata := { v.metadata with reviewStatus := some .required } }

/-- `UPDATE knowledge_document SET status = … WHERE id = … AND current_version_id = …`. -/
def Database.setCurrentStatus (db : Database) (documentId versionId : Uuid)
    (status : KnowledgeStatus) : Database :=
  { db with
    documents := updateWhere
      (fun d => d.id == documentId && d.currentVersionId == some versionId)
      (withStatus status) db.documents }

def markNeedsHuman (documentId versionId : Uuid) (db : Database) : Database :=
  (db.setVersion versionId needsHumanVersion).setCurrentStatus documentId versionId .review

/-- The status a decision gives a run. -/
def statusOf : ReviewDecision → RunStatus
  | .approved => .completed
  | .needs_human => .needs_human
  | .rejected => .failed

/-- What `complete` has found out before it stores the result. -/
structure Judged where
  decision : ReviewDecision
  sourceRightsValid : Bool
  currentVersionId : Uuid
  currentContentHash : Text
  revisedVersionId : Option Uuid

def Judged.status (j : Judged) : RunStatus := statusOf j.decision

/-- The version an approved initial run ends with, its hash, and the revision if there is one. -/
def revise (input : CompleteInput) (version : KnowledgeVersion) (db : Database) :
    Except KnowledgeError ((Uuid × Text × Option Uuid) × Database) :=
  match input.revisedContent with
  | none => .ok ((version.id, input.inputContentHash, none), db)
  | some content =>
      match insertRevision version content db with
      | .ok (id, db) => .ok ((id, Sha256.hex content, some id), db)
      | .error e => .error e

/-- The decision on a result: an approved initial run may revise the text, and its source is
    looked at once more. -/
def judge (input : CompleteInput) (version : KnowledgeVersion) (document : KnowledgeDocument)
    (db : Database) : Except KnowledgeError (Judged × Database) :=
  let sourceValid := isSourceAuthorized (db.source document.sourceId) version.citationMetadata
  let decision := if sourceValid then input.report.decision else .needs_human
  if input.phase = .initial ∧ decision = .approved then
    match revise input version db with
    | .error e => .error e
    | .ok ((currentVersionId, currentContentHash, revisedVersionId), db) =>
        let rightsValid :=
          (lockCurrentSourceForPublication document.id currentVersionId currentContentHash
            db).any (·.1)
        .ok
          (⟨if rightsValid then .approved else .needs_human, rightsValid, currentVersionId,
            currentContentHash, revisedVersionId⟩, db)
  else .ok (⟨decision, sourceValid, version.id, input.inputContentHash, none⟩, db)

def storedReport (input : CompleteInput) (j : Judged) : StoredReport :=
  { summary := input.report.summary
    outputContentHash := j.currentContentHash
    findings := input.report.findings
    blockers := input.report.blockers
    evidence := input.report.evidence
    numericClaims := input.report.numericClaims
    automation :=
      { idempotencyTokenHash := input.leaseTokenHash
        submittedReport := input.report
        submittedRevisionHash := submittedRevisionHash input
        outputVersionId := j.currentVersionId
        outputContentHash := j.currentContentHash
        sourceRightsValid := j.sourceRightsValid
        queuedPhase := none } }

def storeResult (input : CompleteInput) (j : Judged) (now : Int) (db : Database) : Database :=
  db.setRun input.id fun r =>
    { r with
      status := j.status
      risk := some input.report.risk
      structuredReport := some (storedReport input j)
      decision := some j.decision
      revisedVersionId := j.revisedVersionId
      completedAt := some now
      leaseTokenHash := none
      leaseExpiresAt := none }

/-- The runs that the decision about a version looks at, oldest first. -/
def runsOfVersion (db : Database) (versionId : Uuid) (contentHash : Text) : List ReviewRun :=
  db.runs.filter fun r =>
    r.promptVersion == KNOWLEDGE_AUTOMATION_POLICY_VERSION &&
      ((r.inputVersionId == versionId && r.inputContentHash == contentHash) ||
        r.revisedVersionId == some versionId)

/-- The review that a verification records when the version is ready. -/
def automationReview (input : CompleteInput) (contentHash : Text) (runs : List ReviewRun)
    (now : Int) : Review :=
  { status := .approved
    reviewedBy := .automation
    reviewedAt := now
    contentHash := contentHash
    policyVersion := some KNOWLEDGE_AUTOMATION_POLICY_VERSION
    risk := some input.report.risk
    initialRunId := findRunId runs .initial
    verifyRunId := some input.id }

def verifiedVersion (review : Review) (fullText : Bool) (now : Int) (v : KnowledgeVersion) :
    KnowledgeVersion :=
  { v with
    status := if fullText then .review else .published
    publishedAt := if fullText then v.publishedAt else some now
    metadata :=
      { v.metadata with
        reviewStatus := some .approved
        embeddingStatus := some (if fullText then .queued else .metadata_only)
        review := some review } }

/-- What a ready verification does: the embedding is queued, or the version published. -/
def publishVerified (documentId versionId : Uuid) (contentHash : Text) (fullText : Bool)
    (review : Review) (now : Int) (db : Database) : Option QueuedPhase × Database :=
  let db := db.setVersion versionId (verifiedVersion review fullText now)
  if fullText then
    (some .embedding,
      db.queueTask (.embedding versionId contentHash .automation)
        { stage := .embedding_pending
          documentId := documentId
          versionId := versionId
          review := some review }
        now)
  else (none, db.setCurrentStatus documentId versionId .published)

/-- What is settled after the result is stored. -/
structure Settled where
  status : RunStatus
  decision : ReviewDecision
  sourceRightsValid : Bool
  queuedPhase : Option QueuedPhase

/-- The readiness that an approved verification finds. -/
def verifiedReadiness (documentId : Uuid) (j : Judged) (db : Database) :
    KnowledgePublicationReadiness :=
  evaluateKnowledgePublicationReadiness
    { currentVersionId := j.currentVersionId
      currentContentHash := j.currentContentHash
      sourceRightsValid :=
        (lockCurrentSourceForPublication documentId j.currentVersionId j.currentContentHash
          db).any (·.1)
      automationRuns := runsOfVersion db j.currentVersionId j.currentContentHash
      legacySectionReviewReady := false }

def publicationReady (readiness : KnowledgePublicationReadiness) : Bool :=
  readiness.ready && readiness.path == some .codex_automation_v1

def settleVerified (input : CompleteInput) (documentId : Uuid) (j : Judged) (now : Int)
    (db : Database) : Settled × Database :=
  let lockedSource :=
    lockCurrentSourceForPublication documentId j.currentVersionId j.currentContentHash db
  let rightsValid := lockedSource.any (·.1)
  if publicationReady (verifiedReadiness documentId j db) then
    let runs := runsOfVersion db j.currentVersionId j.currentContentHash
    let published := publishVerified documentId j.currentVersionId j.currentContentHash
      (lockedSource.bind (·.2.ingestionMode) == some .full_text)
      (automationReview input j.currentContentHash runs now) now db
    (⟨.completed, .approved, rightsValid, published.1⟩, published.2)
  else
    let db := db.setRun input.id fun r =>
      { r with status := .needs_human, decision := some .needs_human }
    (⟨.needs_human, .needs_human, rightsValid, none⟩,
      markNeedsHuman documentId j.currentVersionId db)

def settle (input : CompleteInput) (documentId : Uuid) (model : Text) (j : Judged) (now : Int)
    (db : Database) : Settled × Database :=
  if j.decision == .approved then
    match input.phase with
    | .initial =>
        (⟨.completed, .approved, j.sourceRightsValid, some .verify⟩,
          db.insertRun .verify j.currentVersionId j.currentContentHash model)
    | .verify => settleVerified input documentId j now db
  else
    (⟨j.status, j.decision, j.sourceRightsValid, none⟩,
      markNeedsHuman documentId j.currentVersionId db)

/-- The last statement of `complete`: what was settled goes into the stored report. -/
def recordSettled (id : Uuid) (settled : Settled) (db : Database) : Database :=
  db.setRun id fun r =>
    { r with
      structuredReport := r.structuredReport.map fun report =>
        { report with
          automation :=
            { report.automation with
              queuedPhase := settled.queuedPhase
              sourceRightsValid := settled.sourceRightsValid } } }

def complete (input : CompleteInput) (now : Int) (db : Database) :
    Except KnowledgeError (AutomationReviewOutcome × Database) :=
  match leasedTarget input now db with
  | none =>
      match replay input db with
      | some r =>
          match replayOutcome r with
          | .ok outcome => .ok (outcome, db)
          | .error e => .error e
      | none => .error leaseInvalid
  | some (r, version, document) =>
      match judge input version document db with
      | .error e => .error e
      | .ok (j, db) =>
          let settled := settle input document.id r.model j now (storeResult input j now db)
          .ok
            ({ runId := input.id
               status := settled.1.status
               decision := settled.1.decision
               currentVersionId := j.currentVersionId
               queuedPhase := settled.1.queuedPhase
               idempotent := false },
              recordSettled input.id settled.1 settled.2)

def resultInvalid : KnowledgeError :=
  .api 422 "KNOWLEDGE_REVIEW_RESULT_INVALID"
    "Knowledge review result does not match the required structured report."

/-- `submitResult(input)`: a result as the schema yields it. -/
def parseResult (input : CompleteInput) : Except KnowledgeError CompleteInput := do
  let inputContentHash ← orThrow (parseSha256 input.inputContentHash) resultInvalid
  let report ← orThrow (parseReport input.report) resultInvalid
  let revisedContent ← orThrow (optionalText 5000000 input.revisedContent) resultInvalid
  throwIf (input.phase == .verify && revisedContent.isSome)
    (.api 422 "KNOWLEDGE_REVIEW_REVISION_NOT_ALLOWED" "Verification runs cannot revise content.")
  return { input with
           inputContentHash := inputContentHash
           report := report
           revisedContent := revisedContent }

def submitResult (input : CompleteInput) (now : Int) (db : Database) :
    Except KnowledgeError (AutomationReviewOutcome × Database) := do
  let parsed ← parseResult input
  complete parsed now db

end AutomationReview

/-! ## 3. The requeue of versions that wait -/

/-- `length(trim(content)) > 0`: the database's `trim` removes blanks only. -/
def nonBlank (content : Text) : Bool := content.any fun c => c != ' '

def pendingCandidate (db : Database) (d : KnowledgeDocument) : Option (Uuid × Text) := do
  let version ← d.currentVersionId >>= db.version
  let contentHash ← version.contentHash
  if (d.status == .review || d.status == .processing) &&
      version.metadata.reviewStatus == some .required && isSha256Hex contentHash &&
      nonBlank version.content &&
      !db.runs.any (Database.runConflicts .initial version.id contentHash) then
    some (version.id, contentHash)
  else none

def requeuePending (db : Database) : Database :=
  (db.documents.filterMap (pendingCandidate db)).foldl
    (fun db candidate => db.insertRun .initial candidate.1 candidate.2 REVIEW_MODEL) db

end OpenVac.KnowledgeBase
