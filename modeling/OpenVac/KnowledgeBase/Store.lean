/-
  File:      OpenVac/KnowledgeBase/Store.lean
  Subject:   The operations of knowledge editors (server/api/store.ts).

  * `createKnowledgeDraft`, `importKnowledgeCandidate` -- a document with its first version.
  * `updateKnowledgeDraft` -- the document is read WITHOUT a lock: the read comes in as an
    argument. A changed text or changed evidence withdraws the review.
  * `reviewKnowledgeDocument` -- approval or rejection of the current version, also of one that
    was activated before its review.
  * `publishKnowledgeDraft`, `assertKnowledgePublicationGate` -- what a publication demands.
  * `archiveKnowledgeDocument`, `rollbackKnowledgeDocument`.
-/
import OpenVac.KnowledgeBase.ReviewSections

namespace OpenVac.KnowledgeBase

open Rows JsString JsUrl

section Store

variable [Sha256] [LocaleOrder] [UrlParser]

def sha256KnowledgeContent (content : Text) : Text := Sha256.hex content

/-! ## 1. Drafts and imports -/

structure KnowledgeDraftInput where
  sourceId : Option Uuid
  ingestionMode : IngestionMode
  content : Text
  citationMetadata : CitationMetadata

/-- The first version of a draft. -/
def draftVersion (input : KnowledgeDraftInput) (actor : UserId) (documentId versionId : Uuid) :
    KnowledgeVersion :=
  { id := versionId
    documentId := documentId
    version := 1
    contentHash := some (sha256KnowledgeContent input.content)
    content := input.content
    citationMetadata := { input.citationMetadata with ingestionMode := some input.ingestionMode }
    status := .draft
    metadata := { reviewStatus := some .required, embeddingStatus := some .pending_review }
    createdBy := some actor
    publishedAt := none }

def createKnowledgeDraft (input : KnowledgeDraftInput) (actor : UserId) (db : Database) :
    Except KnowledgeError (Uuid × Database) := do
  let (documentId, db) := db.draw
  let (versionId, db) := db.draw
  throwIf (input.sourceId.isSome && (db.source input.sourceId).isNone) .foreignKeyViolation
  let db := db.insertDocument
    { id := documentId
      sourceId := input.sourceId
      externalKey := none
      status := .draft
      currentVersionId := some versionId }
  let db ← db.insertVersion (draftVersion input actor documentId versionId)
  return (documentId, db.writeAudit actor .draft_create documentId (some versionId))

def candidateExists : KnowledgeError :=
  conflict409 "KNOWLEDGE_CANDIDATE_ALREADY_EXISTS"
    "该来源的 externalKey 已存在；请修改现有草稿或使用新的 externalKey。"

/-- A policy error, as the code passes it on. -/
def withPolicy (result : Except KnowledgeSourcePolicyError Unit)
    (wrap : KnowledgeSourcePolicyError → KnowledgeError) : Except KnowledgeError Unit :=
  match result with
  | .ok () => .ok ()
  | .error e => .error (wrap e)

/-- The version of an imported candidate. -/
def candidateVersion (input : KnowledgeCandidate) (actor : UserId) (documentId versionId : Uuid) :
    KnowledgeVersion :=
  { id := versionId
    documentId := documentId
    version := 1
    contentHash := some (sha256KnowledgeContent (renderKnowledgeCandidate input))
    content := renderKnowledgeCandidate input
    citationMetadata := input.citation.citationMetadata
    status := .review
    metadata :=
      { reviewStatus := some .required
        embeddingStatus :=
          some (if input.citation.ingestionMode = .full_text then .pending_review
            else .not_applicable) }
    createdBy := some actor
    publishedAt := none }

def importKnowledgeCandidate (input : KnowledgeCandidate) (actor : UserId) (db : Database) :
    Except KnowledgeError (Uuid × Database) := do
  let contentHash := sha256KnowledgeContent (renderKnowledgeCandidate input)
  let (documentId, db) := db.draw
  let (versionId, db) := db.draw
  let source ← orThrow
    (db.sources.find? fun s =>
      s.canonicalUrl == some input.sourceCanonicalUrl && s.deletedAt.isNone)
    (conflict409 "KNOWLEDGE_SOURCE_NOT_GOVERNED"
      "请先在来源白名单创建并批准该官方来源，再导入知识资料。")
  withPolicy (assertKnowledgeSourceAuthorized (some source) input.citation.citationMetadata)
    fun e => .policy 500 e.code e.message
  throwIf
    (db.documents.any fun d =>
      d.sourceId == some source.id && d.externalKey == some input.externalKey)
    candidateExists
  let sections ← buildCandidateKnowledgeReviewSections input versionId contentHash
    (rightsSnapshot source)
  let db := db.insertDocument
    { id := documentId
      sourceId := some source.id
      externalKey := some input.externalKey
      status := .review
      currentVersionId := some versionId }
  let db ← db.insertVersion (candidateVersion input actor documentId versionId)
  let db := db.insertSections sections
  return (documentId, db.writeAudit actor .candidate_import documentId (some versionId))

/-! ## 2. Updates of a draft -/

structure KnowledgeDraftUpdate where
  sourceId : Option Uuid := none
  ingestionMode : Option IngestionMode := none
  content : Option Text := none
  citationMetadata : Option CitationMetadata := none

def knowledgeEvidenceMetadataChanged (currentSourceId : Option Uuid)
    (input : KnowledgeDraftUpdate) : Bool :=
  input.ingestionMode.isSome || input.citationMetadata.isSome ||
    (input.sourceId.isSome && input.sourceId != currentSourceId)

/-- The metadata of a version whose review no longer holds. -/
def invalidated (metadata : VersionMetadata) : VersionMetadata :=
  { metadata with
    reviewStatus := some .required
    embeddingStatus := some .pending_review
    review := metadata.review.map fun review => { review with status := .invalidated } }

def invalidateKnowledgeReviewAfterHashChange (metadata : VersionMetadata)
    (previousContentHash nextContentHash : Text) : Bool × VersionMetadata :=
  if lowerAscii previousContentHash = lowerAscii nextContentHash then (false, metadata)
  else (true, invalidated metadata)

def updatedCitation (current : CitationMetadata) (input : KnowledgeDraftUpdate) :
    CitationMetadata :=
  match input.citationMetadata with
  | some next => { next with ingestionMode := input.ingestionMode.or next.ingestionMode }
  | none => { current with ingestionMode := input.ingestionMode.or current.ingestionMode }

def previousContentHash (v : KnowledgeVersion) : Text :=
  v.contentHash.getD (sha256KnowledgeContent v.content)

def nextContentHash (input : KnowledgeDraftUpdate) (v : KnowledgeVersion) : Text :=
  match input.content with
  | none => previousContentHash v
  | some content => sha256KnowledgeContent content

def hashTransition (input : KnowledgeDraftUpdate) (v : KnowledgeVersion) :
    Bool × VersionMetadata :=
  invalidateKnowledgeReviewAfterHashChange v.metadata (previousContentHash v)
    (nextContentHash input v)

def reviewInvalidated (document : KnowledgeDocument) (input : KnowledgeDraftUpdate)
    (v : KnowledgeVersion) : Bool :=
  (hashTransition input v).1 || knowledgeEvidenceMetadataChanged document.sourceId input

/-- `versionPatch`, applied. -/
def updatedVersion (document : KnowledgeDocument) (input : KnowledgeDraftUpdate)
    (v : KnowledgeVersion) : KnowledgeVersion :=
  { v with
    status := if reviewInvalidated document input v then .draft else v.status
    content := input.content.getD v.content
    contentHash := if input.content.isSome then some (nextContentHash input v) else v.contentHash
    citationMetadata := updatedCitation v.citationMetadata input
    metadata :=
      if knowledgeEvidenceMetadataChanged document.sourceId input then
        invalidated (hashTransition input v).2
      else if (hashTransition input v).1 then (hashTransition input v).2
      else v.metadata }

/-- `documentPatch`, applied. -/
def updatedDocument (invalidates : Bool) (input : KnowledgeDraftUpdate) (d : KnowledgeDocument) :
    KnowledgeDocument :=
  { d with
    status := if invalidates then .draft else d.status
    sourceId := input.sourceId.or d.sourceId }

/-- `status === "draft" || status === "review"`. -/
def editable (status : KnowledgeStatus) : Bool := status == .draft || status == .review

/-- `document` is the row as the transaction's first query read it. -/
def updateKnowledgeDraft (document : KnowledgeDocument) (input : KnowledgeDraftUpdate)
    (actor : UserId) (db : Database) : Except KnowledgeError (Option Uuid × Database) := do
  if !editable document.status then return (none, db)
  let some currentVersionId := document.currentVersionId | return (none, db)
  let some currentVersion := db.version currentVersionId | return (none, db)
  if currentVersion.documentId != document.id || !editable currentVersion.status then
    return (none, db)
  throwIf (input.sourceId.isSome && (db.source input.sourceId).isNone) .foreignKeyViolation
  let db := db.setDocument document.id
    (updatedDocument (reviewInvalidated document input currentVersion) input)
  let db := db.setVersion currentVersionId (updatedVersion document input)
  return (some document.id,
    db.writeAudit actor .draft_update document.id (some currentVersionId))

/-! ## 3. The review of a version -/

structure KnowledgeReviewInput where
  versionId : Uuid
  expectedContentHash : Text
  /-- `"approved"`, or else `"rejected"`. -/
  approved : Bool
  note : Option Text

structure ReviewTask where
  idempotencyKey : TaskKey
  payload : KnowledgeIngestionPayload

structure KnowledgeReviewTransition where
  documentStatus : KnowledgeStatus
  versionStatus : KnowledgeStatus
  contentHash : Text
  review : Review
  embeddingStatus : EmbeddingStatus
  task : Option ReviewTask

structure ReviewTransitionInput where
  documentId : Uuid
  versionId : Uuid
  content : Text
  storedContentHash : Option Text
  ingestionMode : Option IngestionMode
  reviewerId : UserId
  reviewedAt : Int

def buildKnowledgeReviewTransition (target : ReviewTransitionInput)
    (input : KnowledgeReviewInput) : Except KnowledgeError KnowledgeReviewTransition := do
  let actualHash := sha256KnowledgeContent target.content
  let expectedHash := lowerAscii input.expectedContentHash
  throwIf
    (target.versionId != input.versionId ||
      target.storedContentHash.map lowerAscii != some expectedHash || actualHash != expectedHash)
    (conflict409 "KNOWLEDGE_REVIEW_CONFLICT" "知识内容或版本已变化，请刷新详情后重新复核。")
  let ingestionMode ← orThrow target.ingestionMode
    (conflict409 "KNOWLEDGE_INGESTION_MODE_INVALID" "知识版本缺少有效的入库模式。")
  throwIf (!input.approved && (trim (input.note.getD [])).isEmpty)
    (.api 422 "KNOWLEDGE_REJECTION_NOTE_REQUIRED" "驳回知识时必须填写审核备注。")
  let review : Review :=
    { status := if input.approved then .approved else .rejected
      reviewedBy := .user target.reviewerId
      reviewedAt := target.reviewedAt
      contentHash := actualHash
      note := input.note.filter fun note => !note.isEmpty }
  if !input.approved then
    return ⟨.draft, .draft, actualHash, review, .pending_review, none⟩
  match ingestionMode with
  | .full_text =>
      return ⟨.review, .review, actualHash, review, .queued,
        some ⟨.embedding target.versionId actualHash .version_review,
          { stage := .embedding_pending
            documentId := target.documentId
            versionId := target.versionId
            review := some review }⟩⟩
  | .metadata_only => return ⟨.review, .review, actualHash, review, .not_applicable, none⟩

def isPendingReviewRetrievalActive (metadata : VersionMetadata) (contentHash : Option Text) :
    Bool :=
  metadata.reviewStatus == some .required &&
    metadata.retrievalStatus == some .active_pending_review &&
    (metadata.retrievalContentHash.any fun h => utf16Length h == 64) &&
    metadata.retrievalContentHash == contentHash

def existingKnowledgeEmbeddingMatchesReview (ingestionMode : Option IngestionMode)
    (reviewedContentHash : Option Text) (nextContentHash : Text) : Bool :=
  ingestionMode == some .full_text &&
    reviewedContentHash.map lowerAscii == some (lowerAscii nextContentHash)

def hasCompleteKnowledgeEmbeddingSet (totalChunks embeddedChunks : Nat) : Bool :=
  decide (0 < totalChunks) && embeddedChunks == totalChunks

def reviewStateInvalid (message : String) : KnowledgeError :=
  conflict409 "KNOWLEDGE_REVIEW_STATE_INVALID" message

/-- `assertPublishableKnowledgeSource(source, citationMetadata, operation)`. -/
def assertPublishableKnowledgeSource (source : Option KnowledgeSource)
    (citationMetadata : CitationMetadata) (operation : String) : Except KnowledgeError Unit := do
  let wrap (e : KnowledgeSourcePolicyError) : KnowledgeError :=
    .policy 409 e.code (e.message ++ " 当前操作：" ++ operation ++ "。")
  withPolicy (assertKnowledgeSourceAuthorized source citationMetadata) wrap
  withPolicy (assertKnowledgePublicationEvidence source citationMetadata) wrap

/-- Where a review moves a version that was published before it. -/
def settledStatus (approved : Bool) : KnowledgeStatus := if approved then .published else .archived

def reviewedVersion (approved publishedPendingReview preserveCompletedEmbedding : Bool)
    (transition : KnowledgeReviewTransition) (v : KnowledgeVersion) : KnowledgeVersion :=
  { v with
    status := if publishedPendingReview then settledStatus approved else transition.versionStatus
    contentHash := some transition.contentHash
    metadata :=
      { v.metadata with
        reviewStatus := some (if approved then .approved else .rejected)
        embeddingStatus :=
          some (if preserveCompletedEmbedding then .completed else transition.embeddingStatus)
        review := some transition.review
        retrievalStatus :=
          if publishedPendingReview then
            some (if approved then .active_reviewed else .inactive_rejected)
          else v.metadata.retrievalStatus } }

/-- The embedding job of a transition, where the chunks are not kept. -/
def queueReviewTask (transition : KnowledgeReviewTransition) (preserveCompletedEmbedding : Bool)
    (now : Int) (db : Database) : Database :=
  match transition.task with
  | some task =>
      if preserveCompletedEmbedding then db else db.queueTask task.idempotencyKey task.payload now
  | none => db

def publishedPendingReview (document : KnowledgeDocument) (version : KnowledgeVersion) : Bool :=
  document.status == .published && version.status == .published &&
    isPendingReviewRetrievalActive version.metadata version.contentHash

/-- The embedded chunks of a version remain valid under a new review of its content. -/
def preserveCompletedEmbedding (document : KnowledgeDocument) (version : KnowledgeVersion)
    (nextHash : Text) (db : Database) : Bool :=
  existingKnowledgeEmbeddingMatchesReview version.citationMetadata.ingestionMode
      (if publishedPendingReview document version then version.metadata.retrievalContentHash
       else version.metadata.review.map (·.contentHash)) nextHash &&
    hasCompleteKnowledgeEmbeddingSet (db.chunkCount version.id) (db.embeddedChunkCount version.id)

def reviewKnowledgeDocument (documentId : Uuid) (input : KnowledgeReviewInput) (actor : UserId)
    (now : Int) (db : Database) : Except KnowledgeError (Option Uuid × Database) := do
  let some document := db.document documentId | return (none, db)
  let stateInvalid := reviewStateInvalid "只有当前草稿或待复核版本可以完成人工复核。"
  let currentVersionId ← orThrow document.currentVersionId stateInvalid
  throwIf (!editable document.status && document.status != .published) stateInvalid
  let some version := db.version currentVersionId | return (none, db)
  if version.documentId != documentId then return (none, db)
  let pending := publishedPendingReview document version
  throwIf (!editable version.status && !pending)
    (reviewStateInvalid "当前知识版本不能完成人工复核。")
  let transition ← buildKnowledgeReviewTransition
    { documentId := documentId
      versionId := currentVersionId
      content := version.content
      storedContentHash := version.contentHash
      ingestionMode := version.citationMetadata.ingestionMode
      reviewerId := actor
      reviewedAt := now } input
  onlyIf input.approved
    (assertPublishableKnowledgeSource (db.source document.sourceId) version.citationMetadata
      "发布")
  let preserve := preserveCompletedEmbedding document version transition.contentHash db
  throwIf
    (pending && input.approved && version.citationMetadata.ingestionMode == some .full_text &&
      !preserve)
    (conflict409 "KNOWLEDGE_PROVISIONAL_EMBEDDING_INCOMPLETE"
      "待复核知识的向量数据不完整，不能记录人工批准。")
  let db := db.setVersion currentVersionId
    (reviewedVersion input.approved pending preserve transition)
  let db := db.setDocument documentId
    (withStatus (if pending then settledStatus input.approved else transition.documentStatus))
  let db := queueReviewTask transition preserve now db
  return (some documentId,
    db.writeAudit actor (if input.approved then .review_approve else .review_reject) documentId
      (some currentVersionId))

/-! ## 4. Publication -/

structure KnowledgePublicationGateInput where
  documentStatus : KnowledgeStatus
  versionStatus : KnowledgeStatus
  content : Text
  contentHash : Option Text
  citationMetadata : CitationMetadata
  metadata : VersionMetadata
  chunkCount : Nat

def humanReviewRequired : KnowledgeError :=
  conflict409 "KNOWLEDGE_HUMAN_REVIEW_REQUIRED" "发布前必须记录有效的人工复核人和复核时间。"

/-- `stringValue(note)` is there. -/
def noteGiven (review : Review) : Bool := review.note.any fun note => !(trim note).isEmpty

def manualResolution (review : Review) : Bool :=
  review.mode == some .manual_document_resolution && noteGiven review

def assertReviewedKnowledgeEvidence (input : KnowledgePublicationGateInput) (now : Int) :
    Except KnowledgeError Unit := do
  throwIf (input.metadata.reviewStatus != some .approved) humanReviewRequired
  let review ← orThrow input.metadata.review humanReviewRequired
  throwIf (decide (now + 300000 < review.reviewedAt)) humanReviewRequired
  let sectionReview :=
    review.mode == some .section && review.sectionCount.any fun count => decide (1 ≤ count)
  throwIf (!sectionReview && !manualResolution review)
    (conflict409 "KNOWLEDGE_SECTION_REVIEW_REQUIRED" "发布前必须完成全部稳定段落的逐段人工审核。")
  let mismatch := conflict409 "KNOWLEDGE_CONTENT_HASH_MISMATCH"
    "复核哈希与当前知识内容不一致，必须重新人工复核。"
  let contentHash ← orThrow (input.contentHash.map lowerAscii) mismatch
  let reviewHash := lowerAscii review.contentHash
  throwIf
    (!isSha256Hex contentHash || !isSha256Hex reviewHash || contentHash != reviewHash ||
      contentHash != sha256KnowledgeContent input.content)
    mismatch
  match input.citationMetadata.ingestionMode with
  | some .full_text =>
      throwIf
        (input.metadata.embeddingStatus != some .completed || decide (input.chunkCount < 1))
        (conflict409 "KNOWLEDGE_EMBEDDING_REQUIRED"
          "全文知识必须完成向量化且至少生成一个检索片段后才能发布。")
  | some .metadata_only =>
      throwIf (input.metadata.embeddingStatus != some .not_applicable)
        (conflict409 "KNOWLEDGE_EMBEDDING_STATUS_INVALID" "仅元数据知识必须明确标记为无需向量化。")
  | none =>
      .error (conflict409 "KNOWLEDGE_INGESTION_MODE_INVALID" "知识版本缺少有效的入库模式。")

def assertKnowledgePublicationGate (input : KnowledgePublicationGateInput) (now : Int) :
    Except KnowledgeError Unit := do
  throwIf (input.documentStatus != .review || input.versionStatus != .review)
    (conflict409 "KNOWLEDGE_REVIEW_REQUIRED"
      "知识文档和当前版本必须处于人工复核状态后才能发布。")
  assertReviewedKnowledgeEvidence input now

/-- The stored sections of a version with their decisions, in the order of their index. -/
def decidedSections (db : Database) (versionId : Uuid) : List DecidedSection :=
  ((db.sections.filter fun s => s.versionId == versionId).insertionSort
    fun l r => l.sectionIndex ≤ r.sectionIndex).map fun s =>
      ⟨s, db.decisions.find? fun d => d.sectionId == s.id⟩

def sourceRequired : KnowledgeError :=
  conflict409 "KNOWLEDGE_SOURCE_REQUIRED" "知识版本必须关联受治理的来源记录。"

/-- What a publication checks about the document and its version. -/
def assertPublishable (document : KnowledgeDocument) (version : KnowledgeVersion) (now : Int)
    (db : Database) : Except KnowledgeError Unit := do
  assertKnowledgePublicationGate
    { documentStatus := document.status
      versionStatus := version.status
      content := version.content
      contentHash := version.contentHash
      citationMetadata := version.citationMetadata
      metadata := version.metadata
      chunkCount := db.chunkCount version.id } now
  let source := db.source document.sourceId
  assertPublishableKnowledgeSource source version.citationMetadata "发布"
  if !version.metadata.review.any manualResolution then
    let source ← orThrow source sourceRequired
    assertKnowledgeSectionPublicationReady
      { versionId := version.id
        versionContentHash := version.contentHash.getD []
        versionCreatedBy := version.createdBy
        currentRightsSnapshot := rightsSnapshot source
        sections := decidedSections db version.id }

def publishConflict (message : String) : KnowledgeError :=
  conflict409 "KNOWLEDGE_PUBLISH_CONFLICT" message

def publishedVersion (now : Int) (v : KnowledgeVersion) : KnowledgeVersion :=
  { v with status := .published, publishedAt := some now }

def publishKnowledgeDraft (documentId : Uuid) (actor : UserId) (now : Int) (db : Database) :
    Except KnowledgeError (Option Uuid × Database) := do
  let some document := db.document documentId | return (none, db)
  let some currentVersionId := document.currentVersionId | return (none, db)
  let some version := db.version currentVersionId | return (none, db)
  assertPublishable document version now db
  throwIf (version.status != .review) (publishConflict "知识版本状态已变化，请刷新后重试。")
  throwIf (document.status != .review) (publishConflict "知识文档状态已变化，请刷新后重试。")
  let db := db.setVersion currentVersionId (publishedVersion now)
  let db := db.setDocument documentId (withStatus .published)
  return (some documentId, db.writeAudit actor .publish documentId (some currentVersionId))

/-! ## 5. Archive and rollback -/

/-- `unchanged` is what the second component of the result says. -/
def archiveKnowledgeDocument (documentId : Uuid) (actor : UserId) (db : Database) :
    Except KnowledgeError (Option (Uuid × Bool) × Database) := do
  let some document := db.document documentId | return (none, db)
  if document.status == .archived then return (some (documentId, true), db)
  let db :=
    match document.currentVersionId with
    | some versionId => db.setVersion versionId archivedVersion
    | none => db
  let db := db.setDocument documentId (withStatus .archived)
  return (some (documentId, false),
    db.writeAudit actor .archive documentId document.currentVersionId)

def assertHistoricalRollbackTarget (target : KnowledgeVersion) (currentVersionId : Uuid) :
    Except KnowledgeError Unit :=
  throwIf
    (target.id == currentVersionId || target.publishedAt.isNone ||
      (target.status != .published && target.status != .archived))
    (conflict409 "ROLLBACK_TARGET_NOT_PUBLISHED"
      "只能回滚到曾经正式发布且不是当前版本的历史版本。")

/-- The version a rollback publishes: the target's text, hash and metadata under a new id. -/
def rolledBackVersion (target : KnowledgeVersion) (versionId : Uuid) (version : Nat)
    (actor : UserId) (now : Int) : KnowledgeVersion :=
  { target with
    id := versionId
    version := version
    status := .published
    createdBy := some actor
    publishedAt := some now }

def rollbackKnowledgeDocument (documentId versionId : Uuid) (actor : UserId) (now : Int)
    (db : Database) : Except KnowledgeError (Option Uuid × Database) := do
  let some document := db.document documentId | return (none, db)
  let requiresPublished := conflict409 "ROLLBACK_REQUIRES_PUBLISHED_DOCUMENT"
    "只能对当前已发布的知识文档执行回滚。"
  throwIf (document.status != .published) requiresPublished
  let currentVersionId ← orThrow document.currentVersionId requiresPublished
  let some target := db.version versionId | return (none, db)
  if target.documentId != documentId then return (none, db)
  assertHistoricalRollbackTarget target currentVersionId
  assertReviewedKnowledgeEvidence
    { documentStatus := document.status
      versionStatus := target.status
      content := target.content
      contentHash := target.contentHash
      citationMetadata := target.citationMetadata
      metadata := target.metadata
      chunkCount := db.chunkCount target.id } now
  assertPublishableKnowledgeSource (db.source document.sourceId) target.citationMetadata
    "回滚发布"
  let (newVersionId, db) := db.draw
  let db := db.archivePublished documentId
  let db ← db.insertVersion
    (rolledBackVersion target newVersionId (db.maxVersion documentId + 1) actor now)
  let db := db.copyChunks target.id newVersionId
  let db := db.setDocument documentId (withCurrent .published newVersionId)
  return (some documentId, db.writeAudit actor .rollback documentId (some newVersionId))

end Store

end OpenVac.KnowledgeBase
