/-
  File:      OpenVac/KnowledgeBase/Ingestion.lean
  Subject:   Uploads of originals, and the transactions of the ingestion worker
             (server/knowledge/original-upload-repository.ts, worker/postgres-repository.ts,
             worker/knowledge-ingestion.ts).

  * `initiateUpload`, `completeUpload` -- an uploaded original waits for its text.
  * `claimNext` -- a task that is due, or whose worker has been silent for 15 minutes.
  * `saveParsedForReview` -- the text of an original becomes its version's content.
  * `loadApprovedContent`, `saveEmbeddingsAndComplete` -- the embedding of an approved version;
    `isAutomationPublicationReady` -- whether it publishes at once.
  * `markOcrSubmitted`, `deferOcrPoll`, `markReviewRequired`, `markFailed` -- how else a claimed
    task ends.
-/
import OpenVac.ChatStorage.Chunks
import OpenVac.KnowledgeBase.Store

namespace OpenVac.KnowledgeBase

open Rows JsString JsUrl JsRegex
open ChatStorage (ParsedPage ParsedDocument)

/-! ## 1. Uploads -/

structure KnowledgeUploadInput where
  sourceUrl : Option Text
  sha256 : Text
  uploadedBy : UserId

/-- `findExactGovernedSourceId(sourceUrl)`. -/
def findExactGovernedSourceId (db : Database) (sourceUrl : Text) : Option Uuid :=
  match db.sources.filter fun s =>
    s.canonicalUrl == some sourceUrl && s.enabled && s.deletedAt.isNone with
  | [source] => some source.id
  | _ => none

/-- The version of an upload: no text yet. -/
def uploadedVersion (input : KnowledgeUploadInput) (documentId versionId : Uuid) :
    KnowledgeVersion :=
  { id := versionId
    documentId := documentId
    version := 1
    contentHash := none
    content := []
    citationMetadata := ⟨some .full_text, input.sourceUrl, none, none, none⟩
    status := .processing
    metadata := { reviewStatus := some .required, embeddingStatus := some .pending_review }
    createdBy := some input.uploadedBy
    publishedAt := none }

def initiateUpload (input : KnowledgeUploadInput) (db : Database) :
    Except KnowledgeError (Uuid × Database) := do
  let (documentId, db) := db.draw
  let (versionId, db) := db.draw
  let db := db.insertDocument
    { id := documentId
      sourceId := input.sourceUrl.bind (findExactGovernedSourceId db)
      externalKey := none
      status := .processing
      currentVersionId := some versionId }
  let db ← db.insertVersion (uploadedVersion input documentId versionId)
  return (versionId, db.insertOriginal ⟨versionId, input.sha256, input.uploadedBy⟩)

def uploadNotFound : KnowledgeError :=
  .api 404 "KNOWLEDGE_UPLOAD_NOT_FOUND" "上传记录不存在、已变化或不属于当前管理员。"

def processingVersion (v : KnowledgeVersion) : KnowledgeVersion := { v with status := .processing }

/-- The object itself has been verified. -/
def completeUpload (versionId : Uuid) (uploadedBy : UserId) (now : Int) (db : Database) :
    Except KnowledgeError (Unit × Database) := do
  let original ← orThrow
    (db.originals.find? fun o => o.versionId == versionId && o.uploadedBy == uploadedBy)
    uploadNotFound
  let version ← orThrow (db.version versionId) uploadNotFound
  let document ← orThrow (db.document version.documentId) uploadNotFound
  throwIf (document.currentVersionId != some versionId) uploadNotFound
  let key : TaskKey := .ingestion versionId original.sha256
  if db.tasks.any fun task => task.idempotencyKey == key then return ((), db)
  let db := db.queueTask key
    { stage := .ocr_pending, documentId := document.id, versionId := versionId } now
  let db := db.setVersion versionId processingVersion
  return ((), db.setDocument document.id (withStatus .processing))

/-! ## 2. Claims and leases -/

structure KnowledgeIngestionJob where
  id : Uuid
  workerId : Text
  leaseToken : Uuid
  payload : KnowledgeIngestionPayload
  attempts : Nat
  maxAttempts : Nat
  deriving DecidableEq, Repr

/-- Fifteen minutes. -/
def TASK_LEASE_MS : Int := 900000

/-- The candidates of CLAIM_NEXT_SQL. -/
def taskClaimable (now : Int) (t : BackgroundTask) : Bool :=
  (t.status == .queued && decide (t.runAt ≤ now)) ||
    (t.status == .running && t.lockedAt.any fun at_ => decide (at_ < now - TASK_LEASE_MS))

def leasedTask (workerId : Text) (token : Uuid) (now : Int) (t : BackgroundTask) :
    BackgroundTask :=
  { t with
    status := .running
    attempts := t.attempts + 1
    lockedAt := some now
    lockedBy := some workerId
    leaseToken := some token }

/-- `taskId` is the candidate that `FOR UPDATE SKIP LOCKED LIMIT 1` leaves. -/
def claimNext (taskId : Uuid) (workerId : Text) (now : Int) (db : Database) :
    Option KnowledgeIngestionJob × Database :=
  match db.tasks.find? fun t => t.id == taskId && taskClaimable now t with
  | none => (none, db)
  | some t =>
      let (token, db) := db.draw
      (some ⟨t.id, workerId, token, t.payload, t.attempts + 1, t.maxAttempts⟩,
        db.setTask t.id (leasedTask workerId token now))

/-- `status = 'running' AND locked_by = … AND lease_token = …`. -/
def holdsLease (job : KnowledgeIngestionJob) (t : BackgroundTask) : Bool :=
  t.id == job.id && t.status == .running && t.lockedBy == some job.workerId &&
    t.leaseToken == some job.leaseToken

/-- An update of the job's own task; a worker without the lease finds no row. -/
def updateLeased (job : KnowledgeIngestionJob) (f : BackgroundTask → BackgroundTask)
    (db : Database) : Except KnowledgeError Database :=
  if db.tasks.any (holdsLease job) then
    .ok { db with tasks := updateWhere (holdsLease job) f db.tasks }
  else .error (.staleWorkerLease job.id)

def assertCurrentLease (job : KnowledgeIngestionJob) (db : Database) :
    Except KnowledgeError Unit :=
  throwIf (!db.tasks.any (holdsLease job)) (.staleWorkerLease job.id)

def released (t : BackgroundTask) : BackgroundTask :=
  { t with lockedAt := none, lockedBy := none, leaseToken := none }

def succeeded (t : BackgroundTask) : BackgroundTask := { released t with status := .succeeded }

def renewLease (job : KnowledgeIngestionJob) (now : Int) (db : Database) :
    Except KnowledgeError (Unit × Database) := do
  let db ← updateLeased job (fun t => { t with lockedAt := some now }) db
  return ((), db)

def requeued (retryAt : Int) (payload : KnowledgeIngestionPayload) (t : BackgroundTask) :
    BackgroundTask :=
  { released t with
    status := .queued
    attempts := t.attempts - 1
    payload := payload
    runAt := retryAt }

/-- `requeue(job, retryAt, payload)`: the attempt is given back. -/
def requeue (job : KnowledgeIngestionJob) (retryAt : Int) (payload : KnowledgeIngestionPayload)
    (db : Database) : Except KnowledgeError (Unit × Database) := do
  let db ← updateLeased job (requeued retryAt payload) db
  return ((), db)

def markOcrSubmitted (job : KnowledgeIngestionJob) (parserJobId : Text) (now retryAt : Int)
    (db : Database) : Except KnowledgeError (Unit × Database) :=
  requeue job retryAt
    { job.payload with
      stage := .ocr_processing
      parserJobId := some parserJobId
      parserSubmittedAt := some now
      parserPollCount := some 0 } db

def deferOcrPoll (job : KnowledgeIngestionJob) (retryAt : Int) (db : Database) :
    Except KnowledgeError (Unit × Database) :=
  requeue job retryAt
    { job.payload with
      stage := .ocr_processing
      parserPollCount := some (job.payload.parserPollCount.getD 0 + 1) } db

def markReviewRequired (job : KnowledgeIngestionJob) (db : Database) :
    Except KnowledgeError (Unit × Database) := do
  let db ← updateLeased job succeeded db
  return ((), db)

def failedTask (terminal : Bool) (retryAt : Int) (t : BackgroundTask) : BackgroundTask :=
  { released t with
    status := if terminal then .failed else .queued
    runAt := retryAt }

/-- `retryable` is false for a ProviderError that says so. -/
def markFailed (job : KnowledgeIngestionJob) (retryable : Bool) (retryAt : Int) (db : Database) :
    Except KnowledgeError (Unit × Database) := do
  let terminal := decide (job.maxAttempts ≤ job.attempts) || !retryable
  let db ← updateLeased job (failedTask terminal retryAt) db
  return ((), db)

/-! ## 3. The text of an original -/

section Worker

variable [Sha256] [LocaleOrder] [UrlParser]

def pageText (page : ParsedPage) : Text := trim (page.markdown.getD [])

/-- `renderParsedDocument(parsed)`. -/
def renderParsedDocument (parsed : ParsedDocument) : Text :=
  let pages := parsed.pages.filter fun page => !(pageText page).isEmpty
  join "\n\n".toList (pages.zipIdx.map fun (page, index) =>
    "<!-- openvac-page:".toList ++ Nat.toDigits 10 (page.pageNumber.getD (index + 1)) ++
      " -->\n".toList ++ pageText page)

/-- The pages of the sections, as the parser counts them. -/
def parsedPages (parsed : ParsedDocument) : List PageRange :=
  (parsed.pages.zipIdx.map fun (page, pageIndex) =>
    let number := page.pageNumber.getD (pageIndex + 1)
    (((splitAt blankLine (page.markdown.getD [])).map trim).filter fun s => !s.isEmpty).map
      fun _ => (⟨some number, some number⟩ : PageRange)).flatten

def ocrTargetMissing : KnowledgeError :=
  .thrown "OCR target knowledge version no longer exists."

/-- The rights that the sections of a parsed original pin. -/
def parsedRightsSnapshot (source : Option KnowledgeSource) (citation : CitationMetadata) :
    Except KnowledgeError RightsSnapshot :=
  match source with
  | some source =>
      match assertKnowledgeSourceAuthorized (some source) citation with
      | .ok () => .ok (rightsSnapshot source)
      | .error e => .error (.policy 500 e.code e.message)
  | none =>
      .ok
        [ ("status".toList, .str "pending".toList),
          ("decision".toList, .str "needs_human".toList),
          ("basis".toList, .str "uploaded_original_without_governed_source".toList),
          ("sourceId".toList, .null),
          ("canonicalUrl".toList, nullable citation.sourceUrl),
          ("sourceTier".toList, .null),
          ("publisher".toList, .null) ]

def parsedVersion (content : Text) (v : KnowledgeVersion) : KnowledgeVersion :=
  { v with
    content := content
    contentHash := some (Sha256.hex content)
    status := .review
    metadata :=
      { v.metadata with
        review := none
        reviewStatus := some .required
        embeddingStatus := some .pending_review } }

/-- The text, its sections and its first review. -/
def storeParsed (documentId versionId : Uuid) (content : Text)
    (sections : List KnowledgeReviewSection) (db : Database) : Database :=
  let db := db.setVersion versionId (parsedVersion content)
  let db := db.setDocument documentId (withStatus .review)
  let db := (db.deleteSections versionId).insertSections sections
  db.insertRun .initial versionId (Sha256.hex content) REVIEW_MODEL

def saveParsedForReview (job : KnowledgeIngestionJob) (parsed : ParsedDocument) (db : Database) :
    Except KnowledgeError (Unit × Database) := do
  let renderedContent := renderParsedDocument parsed
  let contentHash := Sha256.hex renderedContent
  let versionId := job.payload.versionId
  let documentId := job.payload.documentId
  assertCurrentLease job db
  let version ← orThrow (db.version versionId) ocrTargetMissing
  let document ← orThrow (db.document version.documentId) ocrTargetMissing
  throwIf (version.documentId != documentId || document.currentVersionId != some versionId)
    ocrTargetMissing
  let citation := version.citationMetadata
  let snapshot ← parsedRightsSnapshot (db.source document.sourceId) citation
  let sections := buildPageAwareKnowledgeReviewSections
    { versionId := versionId
      versionContentHash := contentHash
      contentZh := renderedContent
      officialText := citation.officialText.getD renderedContent
      rightsSnapshot := snapshot
      pages := some (parsedPages parsed) }
  throwIf sections.isEmpty (.thrown "OCR output contains no reviewable paragraphs.")
  let db ← updateLeased job succeeded
    (storeParsed documentId versionId renderedContent sections db)
  return ((), db)

/-! ## 4. Embeddings -/

/-- The conditions on `payload.review` that the worker and `saveEmbeddingsAndComplete` share. -/
def validJobReview (review : Review) : Bool :=
  review.status == .approved && isSha256Hex review.contentHash

/-- The version of `loadApprovedContent`'s query. -/
def approvedVersion (job : KnowledgeIngestionJob) (review : Review) (db : Database) :
    Option (KnowledgeVersion × KnowledgeDocument) := do
  let version ← db.version job.payload.versionId
  let document ← db.document version.documentId
  if version.documentId == job.payload.documentId &&
      document.currentVersionId == some version.id && version.status == .review &&
      document.status == .review && version.contentHash == some review.contentHash &&
      version.metadata.reviewStatus == some .approved &&
      (version.metadata.review.any fun r =>
        r.status == .approved && r.contentHash == review.contentHash) &&
      version.citationMetadata.ingestionMode == some .full_text then
    some (version, document)
  else none

/-- The content to embed, or nothing where the worker calls `markReviewRequired`. -/
def loadApprovedContent (job : KnowledgeIngestionJob) (db : Database) : Option Text := do
  let review ← job.payload.review
  if !validJobReview review then none
  else
    let (version, document) ← approvedVersion job review db
    if (assertKnowledgeSourceAuthorized (db.source document.sourceId)
        version.citationMetadata).isOk && Sha256.hex version.content == review.contentHash then
      some version.content
    else none

/-- The rows of `isAutomationPublicationReady`'s second query. -/
def recordedRuns (db : Database) (initialRunId verifyRunId : Uuid) : List ReviewRun :=
  db.runs.filter fun r =>
    (r.id == initialRunId || r.id == verifyRunId) &&
      r.promptVersion == KNOWLEDGE_AUTOMATION_POLICY_VERSION && r.status == .completed &&
      r.decision == some .approved

def isAutomationPublicationReady (job : KnowledgeIngestionJob) (db : Database) : Bool :=
  match job.payload.review with
  | none => false
  | some review =>
      match review.initialRunId, review.verifyRunId with
      | some initialRunId, some verifyRunId =>
          if review.policyVersion != some KNOWLEDGE_AUTOMATION_POLICY_VERSION ||
              review.risk != some .low || initialRunId == verifyRunId then false
          else
            match db.version job.payload.versionId with
            | none => false
            | some version =>
                match db.document version.documentId with
                | none => false
                | some document =>
                    let source := db.source document.sourceId
                    if version.documentId != job.payload.documentId ||
                        version.contentHash != some review.contentHash ||
                        document.currentVersionId != some version.id ||
                        version.status != .review || document.status != .review ||
                        !isSourceAuthorized source version.citationMetadata then false
                    else
                      let rows := recordedRuns db initialRunId verifyRunId
                      if rows.length != 2 || rows.any fun r => r.risk != some .low then false
                      else
                        let readiness := evaluateKnowledgePublicationReadiness
                          { currentVersionId := job.payload.versionId
                            currentContentHash := review.contentHash
                            sourceRightsValid := true
                            automationRuns := rows
                            legacySectionReviewReady := false }
                        readiness.ready && readiness.path == some .codex_automation_v1
      | _, _ => false

def embeddedVersion (review : Review) (autoPublish : Bool) (now : Int) (v : KnowledgeVersion) :
    KnowledgeVersion :=
  { v with
    status := if autoPublish then .published else .review
    publishedAt := if autoPublish then some now else v.publishedAt
    metadata :=
      { v.metadata with
        reviewStatus := some .approved
        embeddingStatus := some .completed
        review := some review } }

/-- `chunkCount` is the number of chunks the worker made of the approved content. -/
def saveEmbeddingsAndComplete (job : KnowledgeIngestionJob) (chunkCount : Nat) (now : Int)
    (db : Database) : Except KnowledgeError (Unit × Database) := do
  let versionId := job.payload.versionId
  let documentId := job.payload.documentId
  let review ← orThrow (job.payload.review.filter validJobReview)
    (.thrown "Embedding completion requires valid human review.")
  assertCurrentLease job db
  let autoPublish := isAutomationPublicationReady job db
  let db := db.replaceChunks versionId chunkCount
  throwIf
    (!(db.version versionId).any fun v =>
      v.documentId == documentId && v.status == .review &&
        v.contentHash == some review.contentHash)
    (.thrown "Reviewed knowledge content changed before embeddings were saved.")
  let db := db.setVersion versionId (embeddedVersion review autoPublish now)
  throwIf
    (!(db.document documentId).any fun d =>
      d.currentVersionId == some versionId && d.status == .review)
    (.thrown "Reviewed knowledge version is no longer the current document version.")
  let db := db.setDocument documentId (withStatus (if autoPublish then .published else .review))
  let db ← updateLeased job succeeded db
  return ((), db)

end Worker

end OpenVac.KnowledgeBase
