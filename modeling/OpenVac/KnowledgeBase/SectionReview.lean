/-
  File:      OpenVac/KnowledgeBase/SectionReview.lean
  Subject:   The review of a version section by section (server/knowledge/
             review-sections-service.ts, review-sections-repository.ts).

  * `getTarget` -- the current version of a document, with the users who edited it.
  * `openWorkspace` -- the sections of a version; where none are stored, those to be stored.
  * `checkDecision`, `writeDecision` -- a decision is checked on one state of the tables and
    written on another.
  * `checkCompletion`, `completeReview` -- the same for the completion of a review.
-/
import OpenVac.KnowledgeBase.Store

namespace OpenVac.KnowledgeBase

open Rows JsString JsUrl

section SectionReview

variable [Sha256] [LocaleOrder] [UrlParser]

/-! ## 1. Targets -/

structure KnowledgeSectionReviewTarget where
  document : KnowledgeDocument
  currentVersionId : Uuid
  editorUserIds : List UserId
  source : Option KnowledgeSource
  version : KnowledgeVersion

/-- The users whom the audit log names as editors of a version. -/
def auditedEditors (db : Database) (documentId versionId : Uuid) : List UserId :=
  (db.audit.filter fun row =>
    row.targetId == documentId &&
      (row.action == .draft_create || row.action == .draft_update) &&
      row.versionId == some versionId).map (·.actorUserId)

def getTarget (documentId : Uuid) (versionId : Option Uuid) (db : Database) :
    Option KnowledgeSectionReviewTarget := do
  let document ← db.document documentId
  let currentVersionId ← document.currentVersionId
  if versionId.any fun id => id != currentVersionId then none
  else
    let version ← db.version currentVersionId
    if version.documentId != documentId then none
    else
      some
        { document := document
          currentVersionId := currentVersionId
          editorUserIds := version.createdBy.toList ++ auditedEditors db documentId version.id
          source := db.source document.sourceId
          version := version }

def currentKnowledgeRightsSnapshot (target : KnowledgeSectionReviewTarget) :
    Except KnowledgeError RightsSnapshot :=
  match assertKnowledgeSourceAuthorized target.source target.version.citationMetadata with
  | .error e =>
      .error (conflict409 "KNOWLEDGE_SOURCE_RIGHTS_INVALID" ("来源权利无效：" ++ e.message))
  | .ok () =>
      match target.source with
      | some source => .ok (rightsSnapshot source)
      | none => .error (conflict409 "KNOWLEDGE_SOURCE_RIGHTS_INVALID" "来源权利无效，不能审核。")

/-- `contentHash(target)`. -/
def targetContentHash (target : KnowledgeSectionReviewTarget) : Except KnowledgeError Text :=
  orThrow (target.version.contentHash.filter isSha256Hex)
    (conflict409 "KNOWLEDGE_CONTENT_HASH_REQUIRED" "知识版本缺少有效内容哈希，不能生成审核段落。")

def requiredSectionsForTarget (target : KnowledgeSectionReviewTarget) :
    Except KnowledgeError (List KnowledgeReviewSection) := do
  let hash ← targetContentHash target
  let snapshot ← currentKnowledgeRightsSnapshot target
  return buildPageAwareKnowledgeReviewSections
    { versionId := target.version.id
      versionContentHash := hash
      contentZh := target.version.content
      officialText := target.version.citationMetadata.officialText.getD []
      rightsSnapshot := snapshot
      pages := target.version.citationMetadata.reviewSectionPages }

def notFound (message : String) : KnowledgeError := .api 404 "NOT_FOUND" message

/-! ## 2. The workspace -/

inductive WorkspaceRead where
  | stored (sections : List DecidedSection)
  /-- The sections still to be stored. -/
  | missing (required : List KnowledgeReviewSection)

/-- `getWorkspace(documentId)` up to its insert. -/
def openWorkspace (documentId : Uuid) (db : Database) : Except KnowledgeError WorkspaceRead := do
  let target ← orThrow (getTarget documentId none db) (notFound "知识文档不存在或无权访问。")
  let _ ← targetContentHash target
  let sections := decidedSections db target.version.id
  if !sections.isEmpty then return .stored sections
  let required ← requiredSectionsForTarget target
  throwIf required.isEmpty
    (conflict409 "KNOWLEDGE_REVIEW_CONTENT_EMPTY" "知识正文为空，不能生成审核段落。")
  return .missing required

/-! ## 3. Decisions -/

structure SectionDecisionInput where
  documentId : Uuid
  versionId : Uuid
  sectionId : Uuid
  expectedSectionHash : Text
  expectedRevision : Nat
  decision : SectionDecision
  note : Option Text
  reviewerId : UserId

/-- A checked decision on its way to `writeDecision`. -/
structure PendingDecision where
  documentId : Uuid
  versionId : Uuid
  sectionId : Uuid
  sectionHash : Text
  expectedRevision : Nat
  decision : SectionDecision
  note : Option Text
  reviewerId : UserId
  deriving DecidableEq, Repr

def sectionChanged (message : String) : KnowledgeError :=
  conflict409 "KNOWLEDGE_SECTION_CHANGED" message

/-- `decide(input)` up to its transaction. -/
def checkDecision (input : SectionDecisionInput) (db : Database) :
    Except KnowledgeError PendingDecision := do
  let target ← orThrow (getTarget input.documentId (some input.versionId) db)
    (notFound "知识版本不存在或无权访问。")
  throwIf (target.editorUserIds.contains input.reviewerId) selfReviewForbidden
  let stored ← orThrow
    (db.sections.find? fun s => s.id == input.sectionId && s.versionId == input.versionId)
    (notFound "审核段落不存在或已变化。")
  let changed := sectionChanged "段落、版本或来源权利已变化，请刷新后重新审核。"
  throwIf (stored.sectionHash != input.expectedSectionHash) changed
  let hash ← targetContentHash target
  throwIf (stored.versionContentHash != hash) changed
  let snapshot ← currentKnowledgeRightsSnapshot target
  throwIf (stored.rightsSnapshotHash != knowledgeRightsSnapshotHash snapshot) changed
  throwIf (input.decision != .approved && (trim (input.note.getD [])).isEmpty)
    (.api 422 "KNOWLEDGE_SECTION_NOTE_REQUIRED" "驳回或要求修改段落时必须填写审核备注。")
  return { documentId := input.documentId
           versionId := input.versionId
           sectionId := input.sectionId
           sectionHash := stored.sectionHash
           expectedRevision := input.expectedRevision
           decision := input.decision
           note := input.note
           reviewerId := input.reviewerId }

def revisionConflict : KnowledgeError :=
  conflict409 "KNOWLEDGE_SECTION_REVISION_CONFLICT" "该段落决定已被其他审核人修改，请刷新后重试。"

def writeDecision (input : PendingDecision) (db : Database) :
    Except KnowledgeError (Unit × Database) :=
  let row (revision : Nat) : DecisionRow :=
    { sectionId := input.sectionId
      sectionHash := input.sectionHash
      decision := input.decision
      reviewerId := input.reviewerId
      note := input.note
      revision := revision }
  match db.decisions.find? fun d => d.sectionId == input.sectionId with
  | some current =>
      if current.revision != input.expectedRevision then .error revisionConflict
      else
        .ok ((), { db with
          decisions := updateWhere (fun d => d.sectionId == input.sectionId)
            (fun _ => row (current.revision + 1)) db.decisions })
  | none =>
      if input.expectedRevision != 0 then .error revisionConflict
      else if !db.sections.any fun s => s.id == input.sectionId then .error .foreignKeyViolation
      else .ok ((), { db with decisions := db.decisions ++ [row 1] })

/-! ## 4. Completion -/

structure SectionCompletionInput where
  documentId : Uuid
  versionId : Uuid
  expectedContentHash : Text
  reviewerId : UserId

/-- A checked completion on its way to `completeReview`. -/
structure PendingCompletion where
  documentId : Uuid
  versionId : Uuid
  contentHash : Text
  reviewerId : UserId
  reviewedAt : Int
  sectionCount : Nat
  ingestionMode : IngestionMode
  deriving DecidableEq, Repr

/-- The stored sections are, one by one, those that the version requires now. -/
def sectionsAgree (required : List KnowledgeReviewSection) (stored : List DecidedSection) : Bool :=
  required.length == stored.length &&
    (required.zip stored).all fun pair =>
      pair.1.sectionHash == pair.2.section_.sectionHash &&
        pair.1.versionContentHash == pair.2.section_.versionContentHash

/-- `complete(input)` up to its transaction. -/
def checkCompletion (input : SectionCompletionInput) (now : Int) (db : Database) :
    Except KnowledgeError PendingCompletion := do
  let target ← orThrow (getTarget input.documentId (some input.versionId) db)
    (notFound "知识版本不存在或无权访问。")
  let sections := decidedSections db input.versionId
  let currentSections ← requiredSectionsForTarget target
  throwIf (!sectionsAgree currentSections sections)
    (sectionChanged "当前内容、原文、页码或来源权利对应的审核段落已变化。")
  throwIf
    (target.editorUserIds.contains input.reviewerId ||
      sections.any fun s => s.decision.any fun d => target.editorUserIds.contains d.reviewerId)
    (conflict409 "KNOWLEDGE_SELF_REVIEW_FORBIDDEN"
      "创建或修改者不能审核自己参与编写的知识版本。")
  let hash ← targetContentHash target
  let snapshot ← currentKnowledgeRightsSnapshot target
  assertKnowledgeSectionReviewComplete
    { versionId := input.versionId
      currentVersionId := target.currentVersionId
      versionContentHash := hash
      expectedContentHash := input.expectedContentHash
      versionCreatedBy := target.version.createdBy
      reviewerId := input.reviewerId
      currentRightsSnapshot := snapshot
      sections := sections }
  return { documentId := input.documentId
           versionId := input.versionId
           contentHash := input.expectedContentHash
           reviewerId := input.reviewerId
           reviewedAt := now
           sectionCount := sections.length
           ingestionMode :=
             if target.version.citationMetadata.ingestionMode = some .metadata_only then
               .metadata_only
             else .full_text }

/-- The review that a completion records, and the copy of it that its job carries. -/
def PendingCompletion.review (input : PendingCompletion) : Review :=
  { status := .approved
    mode := some .section
    reviewedBy := .user input.reviewerId
    reviewedAt := input.reviewedAt
    contentHash := input.contentHash
    sectionCount := some input.sectionCount }

def PendingCompletion.jobReview (input : PendingCompletion) : Review :=
  { status := .approved
    reviewedBy := .user input.reviewerId
    reviewedAt := input.reviewedAt
    contentHash := input.contentHash }

/-- The version once its sections are all approved. -/
def sectionsCompleted (input : PendingCompletion) (v : KnowledgeVersion) : KnowledgeVersion :=
  { v with
    status := .review
    metadata :=
      { v.metadata with
        reviewStatus := some .approved
        embeddingStatus :=
          some (if input.ingestionMode = .full_text then .queued else .not_applicable)
        review := some input.review } }

def PendingCompletion.key (input : PendingCompletion) : TaskKey :=
  .embedding input.versionId input.contentHash .section_review

def PendingCompletion.payload (input : PendingCompletion) : KnowledgeIngestionPayload :=
  { stage := .embedding_pending
    documentId := input.documentId
    versionId := input.versionId
    review := some input.jobReview }

def completeReview (input : PendingCompletion) (db : Database) :
    Except KnowledgeError (Unit × Database) := do
  let conflict := conflict409 "KNOWLEDGE_REVIEW_CONFLICT" "知识内容或版本已变化，请刷新后重试。"
  let version ← orThrow (db.version input.versionId) conflict
  throwIf
    (version.documentId != input.documentId || version.contentHash != some input.contentHash)
    conflict
  let document := db.document input.documentId
  throwIf (!document.any fun d => d.currentVersionId == some input.versionId)
    (conflict409 "KNOWLEDGE_VERSION_CHANGED" "当前知识版本已变化，请刷新后重试。")
  let db := db.setVersion input.versionId (sectionsCompleted input)
  let db := db.setDocument input.documentId (withStatus .review)
  let db :=
    if input.ingestionMode = .full_text then db.queueTask input.key input.payload input.reviewedAt
    else db
  return ((), db.writeAudit input.reviewerId .section_review_complete input.documentId
    (some input.versionId))

end SectionReview

end OpenVac.KnowledgeBase
