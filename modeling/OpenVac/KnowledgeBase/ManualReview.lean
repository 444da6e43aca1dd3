/-
  File:      OpenVac/KnowledgeBase/ManualReview.lean
  Subject:   Manual decisions on a document that the review automation left to people
             (server/knowledge/manual-review-service.ts, manual-review-repository.ts).

  * `loadCurrentTarget` -- version and content are those the person saw.
  * `queueAutomationRun` -- a run starts over unless it is leased or completed.
  * `retry`, `resolve` -- a new automated review; approval with a note, an edited text, adoption
    of a revision, archive.
-/
import OpenVac.KnowledgeBase.Store

namespace OpenVac.KnowledgeBase

open Rows JsString JsUrl

section ManualReview

variable [Sha256] [LocaleOrder] [UrlParser]

structure KnowledgeManualReviewTarget where
  documentId : Uuid
  expectedVersionId : Uuid
  expectedContentHash : Text
  actorId : UserId
  deriving DecidableEq, Repr

structure CurrentTarget where
  document : KnowledgeDocument
  version : KnowledgeVersion
  contentHash : Text
  createdBy : UserId
  sourceId : Option Uuid

def reviewConflict : KnowledgeError :=
  conflict409 "KNOWLEDGE_REVIEW_CONFLICT" "知识内容或版本已变化，请刷新详情后重新处理。"

def openToManualReview : KnowledgeStatus → Bool
  | .processing => true
  | .review => true
  | .failed => true
  | .draft => true
  | .published => false
  | .archived => false

def loadCurrentTarget (input : KnowledgeManualReviewTarget) (db : Database) :
    Except KnowledgeError CurrentTarget := do
  let document ← orThrow (db.document input.documentId) reviewConflict
  let version ← orThrow (document.currentVersionId >>= db.version) reviewConflict
  throwIf
    (version.id != input.expectedVersionId ||
      version.contentHash != some input.expectedContentHash ||
      !openToManualReview document.status)
    reviewConflict
  let invalidRow : KnowledgeError := .thrown "Knowledge manual review database row is invalid."
  throwIf (trim version.content).isEmpty invalidRow
  let createdBy ← orThrow version.createdBy invalidRow
  return { document := document
           version := version
           contentHash := input.expectedContentHash
           createdBy := createdBy
           sourceId := document.sourceId }

/-- A document without a source is linked to the one governed source of its citation. -/
def resolveCurrentSourceLink (target : CurrentTarget) (db : Database) :
    CurrentTarget × Database :=
  match target.sourceId, target.version.citationMetadata.sourceUrl with
  | none, some sourceUrl =>
      if (trim sourceUrl).isEmpty then (target, db)
      else
        match db.sources.filter fun s =>
          s.canonicalUrl == some sourceUrl && s.enabled && s.deletedAt.isNone with
        | [source] =>
            ({ target with sourceId := some source.id },
              db.setDocument target.document.id fun d => { d with sourceId := some source.id })
        | _ => (target, db)
  | _, _ => (target, db)

def assertCurrentSourceRights (target : CurrentTarget) (db : Database) :
    Except KnowledgeError Unit := do
  let wrap (e : KnowledgeSourcePolicyError) : KnowledgeError :=
    conflict409 "KNOWLEDGE_SOURCE_RIGHTS_INVALID" e.message
  let source := db.source target.sourceId
  withPolicy (assertKnowledgeSourceAuthorized source target.version.citationMetadata) wrap
  withPolicy (assertKnowledgePublicationEvidence source target.version.citationMetadata) wrap

/-- `status IN ('failed', 'needs_human', 'queued')`. -/
def restartable (status : RunStatus) : Bool :=
  status == .failed || status == .needs_human || status == .queued

def restarted (run : ReviewRun) : ReviewRun :=
  { run with
    status := .queued
    risk := none
    decision := none
    structuredReport := none
    revisedVersionId := none
    completedAt := none
    leaseTokenHash := none
    leaseExpiresAt := none }

def queueAutomationRun (versionId : Uuid) (contentHash : Text) (phase : ReviewPhase)
    (db : Database) : Except KnowledgeError Database :=
  match db.runs.find? (Database.runConflicts phase versionId contentHash) with
  | none => .ok (db.insertRun phase versionId contentHash REVIEW_MODEL)
  | some run =>
      if restartable run.status then .ok (db.setRun run.id restarted)
      else
        .error (conflict409 "KNOWLEDGE_REVIEW_RETRY_CONFLICT"
          "当前审核任务仍在运行或已完成，不能重复排队。")

/-- The current target with its source link settled and its rights checked. -/
def authorizedTarget (input : KnowledgeManualReviewTarget) (db : Database) :
    Except KnowledgeError (CurrentTarget × Database) := do
  let target ← loadCurrentTarget input db
  let linked := resolveCurrentSourceLink target db
  assertCurrentSourceRights linked.1 linked.2
  return linked

def retry (input : KnowledgeManualReviewTarget) (db : Database) :
    Except KnowledgeError (Unit × Database) := do
  let (target, db) ← authorizedTarget input db
  let db ← queueAutomationRun target.version.id target.contentHash .initial db
  return ((), db.writeAudit input.actorId .automation_review_retry input.documentId
    (some target.version.id))

inductive KnowledgeManualResolution where
  | adopt_revision_and_retry
  | manual_edit_and_retry (revisedContent : Text)
  | manual_approve_with_note (note : Text)
  | archive
  deriving DecidableEq, Repr

/-- `resolutionSchema`, as far as it bounds a text. -/
def parseResolution : KnowledgeManualResolution → Option KnowledgeManualResolution
  | .manual_edit_and_retry revisedContent =>
      (boundedText 5000000 revisedContent).map .manual_edit_and_retry
  | .manual_approve_with_note note => (boundedText 2000 note).map .manual_approve_with_note
  | resolution => some resolution

/-- The review that an approval with a note records. -/
def manualReview (actorId : UserId) (now : Int) (contentHash note : Text) : Review :=
  { status := .approved
    mode := some .manual_document_resolution
    reviewedBy := .user actorId
    reviewedAt := now
    contentHash := contentHash
    note := some note }

def manuallyApproved (review : Review) (fullText : Bool) (now : Int) (v : KnowledgeVersion) :
    KnowledgeVersion :=
  { v with
    status := if fullText then .review else .published
    publishedAt := if fullText then v.publishedAt else some now
    metadata :=
      { v.metadata with
        reviewStatus := some .approved
        embeddingStatus := some (if fullText then .queued else .not_applicable)
        review := some review } }

def embeddingPayload (documentId versionId : Uuid) (review : Review) :
    KnowledgeIngestionPayload :=
  { stage := .embedding_pending
    documentId := documentId
    versionId := versionId
    review := some review }

def approveWithNote (target : CurrentTarget) (actorId : UserId) (note : Text) (now : Int)
    (db : Database) : Database :=
  let review := manualReview actorId now target.contentHash note
  let fullText := target.version.citationMetadata.ingestionMode == some .full_text
  let db := db.setVersion target.version.id (manuallyApproved review fullText now)
  let db :=
    if fullText then
      db.queueTask (.embedding target.version.id target.contentHash .manual)
        (embeddingPayload target.document.id target.version.id review) now
    else db
  db.setDocument target.document.id (withStatus (if fullText then .review else .published))

def editedVersion (target : CurrentTarget) (revisedContent : Text) (versionId : Uuid) :
    KnowledgeVersion :=
  { id := versionId
    documentId := target.document.id
    version := target.version.version + 1
    contentHash := some (sha256KnowledgeContent revisedContent)
    content := revisedContent
    citationMetadata := target.version.citationMetadata
    status := .review
    metadata :=
      { target.version.metadata with
        reviewStatus := some .required
        embeddingStatus := some .pending_review }
    createdBy := some target.createdBy
    publishedAt := none }

/-- The edited text becomes a version of its own, by the CREATOR of the old one. -/
def insertManualEdit (target : CurrentTarget) (revisedContent : Text) (db : Database) :
    Except KnowledgeError (Uuid × Database) := do
  let (versionId, db) := db.draw
  let db ← db.insertVersion (editedVersion target revisedContent versionId)
  return (versionId, db.setDocument target.document.id (withCurrent .review versionId))

def resolve (input : KnowledgeManualReviewTarget) (resolution : KnowledgeManualResolution)
    (now : Int) (db : Database) : Except KnowledgeError (Unit × Database) := do
  let resolution ← orThrow (parseResolution resolution)
    (.api 422 "KNOWLEDGE_MANUAL_RESOLUTION_INVALID" "人工处理参数不符合要求。")
  match resolution with
  | .archive =>
      let target ← loadCurrentTarget input db
      let db := db.setVersion target.version.id archivedVersion
      let db := db.setDocument target.document.id (withStatus .archived)
      return ((), db.writeAudit input.actorId .manual_review_archived input.documentId
        (some target.version.id))
  | .manual_approve_with_note note =>
      let (target, db) ← authorizedTarget input db
      let db := approveWithNote target input.actorId note now db
      return ((), db.writeAudit input.actorId .manual_review_approved input.documentId
        (some target.version.id))
  | .manual_edit_and_retry revisedContent =>
      let (target, db) ← authorizedTarget input db
      let (versionId, db) ← insertManualEdit target revisedContent db
      let db ← queueAutomationRun versionId (sha256KnowledgeContent revisedContent) .initial db
      return ((), db.writeAudit input.actorId .manual_review_edited_retry input.documentId
        (some versionId))
  | .adopt_revision_and_retry =>
      let (target, db) ← authorizedTarget input db
      let db ← queueAutomationRun target.version.id target.contentHash .verify db
      return ((), db.writeAudit input.actorId .manual_review_adopted_retry input.documentId
        (some target.version.id))

end ManualReview

end OpenVac.KnowledgeBase
