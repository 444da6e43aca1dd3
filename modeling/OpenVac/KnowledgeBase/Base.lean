/-
  File:      OpenVac/KnowledgeBase/Base.lean
  Subject:   The knowledge base as a machine: complete transactions of editors, reviewers, the
             review automation and the ingestion workers, in any order, on the tables.

  * What a request has read before its transaction is part of the state: `reads` of a draft
    update, `workspaces`, `decisions`, `completions`; so are the tasks that workers hold (`jobs`)
    and those whose approved content they have loaded (`embedding`). A worker that lost its lease
    still holds its job.
  * The administration of sources (`putSource`) and the activation of documents before their
    review (`activatePending`, scripts/activate-phase-one-knowledge.ts) are the environment's.
-/
import OpenVac.KnowledgeBase.SectionReview
import OpenVac.KnowledgeBase.ManualReview
import OpenVac.KnowledgeBase.AutomationReview
import OpenVac.KnowledgeBase.Ingestion

namespace OpenVac.KnowledgeBase

open Rows JsString JsUrl
open ChatStorage (ParsedDocument)

structure Base where
  now : Int
  db : Database
  reads : List KnowledgeDocument
  workspaces : List (List KnowledgeReviewSection)
  decisions : List PendingDecision
  completions : List PendingCompletion
  jobs : List KnowledgeIngestionJob
  embedding : List KnowledgeIngestionJob

def Base.initial : Base := ⟨0, .empty, [], [], [], [], [], []⟩

inductive Action where
  | tick (ms : Nat)
  -- the environment
  | putSource (source : KnowledgeSource)
  | activatePending (documentId : Uuid) (chunkCount : Nat)
  -- editors
  | createKnowledgeDraft (input : KnowledgeDraftInput) (actor : UserId)
  | importKnowledgeCandidate (input : KnowledgeCandidate) (actor : UserId)
  | readDraft (documentId : Uuid)
  | updateKnowledgeDraft (document : KnowledgeDocument) (input : KnowledgeDraftUpdate)
      (actor : UserId)
  | reviewKnowledgeDocument (documentId : Uuid) (input : KnowledgeReviewInput) (actor : UserId)
  | publishKnowledgeDraft (documentId : Uuid) (actor : UserId)
  | archiveKnowledgeDocument (documentId : Uuid) (actor : UserId)
  | rollbackKnowledgeDocument (documentId versionId : Uuid) (actor : UserId)
  -- reviewers of sections
  | openWorkspace (documentId : Uuid)
  | insertRequiredSections (index : Nat)
  | decide (input : SectionDecisionInput)
  | writeDecision (pending : PendingDecision)
  | completeSections (input : SectionCompletionInput)
  | completeReview (pending : PendingCompletion)
  -- manual resolutions
  | retry (input : KnowledgeManualReviewTarget)
  | resolve (input : KnowledgeManualReviewTarget) (resolution : KnowledgeManualResolution)
  -- the review automation
  | claim (phase : ReviewPhase) (picked : List Uuid)
  | submitResult (input : CompleteInput)
  | requeuePending
  -- uploads and the worker
  | initiateUpload (input : KnowledgeUploadInput)
  | completeUpload (versionId : Uuid) (uploadedBy : UserId)
  | claimNext (taskId : Uuid) (workerId : Text)
  | renewLease (job : KnowledgeIngestionJob)
  | markOcrSubmitted (job : KnowledgeIngestionJob) (parserJobId : Text) (retryAt : Int)
  | deferOcrPoll (job : KnowledgeIngestionJob) (retryAt : Int)
  | saveParsedForReview (job : KnowledgeIngestionJob) (parsed : ParsedDocument)
  | loadApprovedContent (job : KnowledgeIngestionJob)
  | saveEmbeddingsAndComplete (job : KnowledgeIngestionJob) (chunkCount : Nat)
  | markReviewRequired (job : KnowledgeIngestionJob)
  | markFailed (job : KnowledgeIngestionJob) (retryable : Bool) (retryAt : Int)

/-! ## 1. The environment -/

/-- A source is added or replaced. -/
def Database.putSource (db : Database) (source : KnowledgeSource) : Database :=
  { db with sources := deleteWhere (fun s => s.id == source.id) db.sources ++ [source] }

/-- `buildPendingReviewActivationMetadata(input)`. -/
def buildPendingReviewActivationMetadata (existing : VersionMetadata) (contentHash : Text)
    (embeddingStatus : EmbeddingStatus) : VersionMetadata :=
  let alreadyApproved :=
    existing.reviewStatus == some .approved &&
      existing.review.any fun r => r.status == .approved && r.contentHash == contentHash
  { existing with
    reviewStatus := some (if alreadyApproved then .approved else .required)
    retrievalStatus := some (if alreadyApproved then .active_reviewed else .active_pending_review)
    retrievalContentHash := some contentHash
    embeddingStatus := some embeddingStatus }

def activatedVersion (contentHash : Text) (chunkCount : Nat) (now : Int) (v : KnowledgeVersion) :
    KnowledgeVersion :=
  { v with
    status := .published
    publishedAt := some (v.publishedAt.getD now)
    metadata := buildPendingReviewActivationMetadata v.metadata contentHash
      (if chunkCount = 0 then .not_applicable else .completed) }

/-- The current version of a document is activated before its review. The script refuses a
    version whose content is not the candidate's. -/
def activatePending [Sha256] (documentId : Uuid) (chunkCount : Nat) (now : Int) (db : Database) :
    Database :=
  match db.document documentId with
  | none => db
  | some document =>
      match document.currentVersionId >>= db.version with
      | none => db
      | some version =>
          if version.contentHash != some (Sha256.hex version.content) then db
          else
            let db := db.setVersion version.id
              (activatedVersion (Sha256.hex version.content) chunkCount now)
            let db := db.replaceChunks version.id chunkCount
            db.setDocument documentId (withStatus .published)

/-! ## 2. Steps -/

namespace Base

/-- A transaction commits or leaves the tables as they were. -/
def transact {β : Type} (s : Base) (tx : Database → Except KnowledgeError (β × Database)) : Base :=
  { s with db := Machine.commit s.db (tx s.db) }

/-- A transaction for a task that a worker holds. -/
def jobStep (s : Base) (job : KnowledgeIngestionJob) (allowed : IngestionStage → Bool)
    (tx : Database → Except KnowledgeError (Unit × Database)) : Base :=
  if s.jobs.contains job && allowed job.payload.stage then s.transact tx else s

/-- The stages whose tasks `embedApprovedContent` handles. -/
def embeddingStage (stage : IngestionStage) : Bool :=
  stage == .embedding_pending || stage == .embedding_processing

section Step

variable [Sha256] [LocaleOrder] [UrlParser]

def step (s : Base) (action : Action) : Base :=
  match action with
  | .tick ms => { s with now := s.now + ms }
  | .putSource source => { s with db := s.db.putSource source }
  | .activatePending documentId chunkCount =>
      { s with db := KnowledgeBase.activatePending documentId chunkCount s.now s.db }
  | .createKnowledgeDraft input actor =>
      s.transact (KnowledgeBase.createKnowledgeDraft input actor)
  | .importKnowledgeCandidate input actor =>
      s.transact (KnowledgeBase.importKnowledgeCandidate input actor)
  | .readDraft documentId => { s with reads := (s.db.document documentId).toList ++ s.reads }
  | .updateKnowledgeDraft document input actor =>
      if s.reads.contains document then
        { s.transact (KnowledgeBase.updateKnowledgeDraft document input actor) with
          reads := s.reads.erase document }
      else s
  | .reviewKnowledgeDocument documentId input actor =>
      s.transact (KnowledgeBase.reviewKnowledgeDocument documentId input actor s.now)
  | .publishKnowledgeDraft documentId actor =>
      s.transact (KnowledgeBase.publishKnowledgeDraft documentId actor s.now)
  | .archiveKnowledgeDocument documentId actor =>
      s.transact (KnowledgeBase.archiveKnowledgeDocument documentId actor)
  | .rollbackKnowledgeDocument documentId versionId actor =>
      s.transact (KnowledgeBase.rollbackKnowledgeDocument documentId versionId actor s.now)
  | .openWorkspace documentId =>
      match KnowledgeBase.openWorkspace documentId s.db with
      | .ok (.missing required) => { s with workspaces := s.workspaces ++ [required] }
      | _ => s
  | .insertRequiredSections index =>
      match s.workspaces[index]? with
      | some required =>
          { s with
            db := s.db.insertSections required
            workspaces := s.workspaces.eraseIdx index }
      | none => s
  | .decide input =>
      match checkDecision input s.db with
      | .ok pending => { s with decisions := pending :: s.decisions }
      | .error _ => s
  | .writeDecision pending =>
      if s.decisions.contains pending then
        { s.transact (KnowledgeBase.writeDecision pending) with
          decisions := s.decisions.erase pending }
      else s
  | .completeSections input =>
      match checkCompletion input s.now s.db with
      | .ok pending => { s with completions := pending :: s.completions }
      | .error _ => s
  | .completeReview pending =>
      if s.completions.contains pending then
        { s.transact (KnowledgeBase.completeReview pending) with
          completions := s.completions.erase pending }
      else s
  | .retry input => s.transact (KnowledgeBase.retry input)
  | .resolve input resolution => s.transact (KnowledgeBase.resolve input resolution s.now)
  | .claim phase picked => { s with db := (KnowledgeBase.claim phase picked s.now s.db).2 }
  | .submitResult input => s.transact (KnowledgeBase.submitResult input s.now)
  | .requeuePending => { s with db := KnowledgeBase.requeuePending s.db }
  | .initiateUpload input => s.transact (KnowledgeBase.initiateUpload input)
  | .completeUpload versionId uploadedBy =>
      s.transact (KnowledgeBase.completeUpload versionId uploadedBy s.now)
  | .claimNext taskId workerId =>
      let claimed := KnowledgeBase.claimNext taskId workerId s.now s.db
      { s with db := claimed.2, jobs := claimed.1.toList ++ s.jobs }
  | .renewLease job =>
      s.jobStep job (fun _ => true) (KnowledgeBase.renewLease job s.now)
  | .markOcrSubmitted job parserJobId retryAt =>
      s.jobStep job (fun stage => stage == .ocr_pending)
        (KnowledgeBase.markOcrSubmitted job parserJobId s.now retryAt)
  | .deferOcrPoll job retryAt =>
      s.jobStep job (fun stage => stage == .ocr_processing)
        (KnowledgeBase.deferOcrPoll job retryAt)
  | .saveParsedForReview job parsed =>
      s.jobStep job (fun stage => stage == .ocr_processing)
        (KnowledgeBase.saveParsedForReview job parsed)
  | .loadApprovedContent job =>
      if s.jobs.contains job && embeddingStage job.payload.stage &&
          (assertCurrentLease job s.db).isOk &&
          (KnowledgeBase.loadApprovedContent job s.db).isSome then
        { s with embedding := job :: s.embedding }
      else s
  | .saveEmbeddingsAndComplete job chunkCount =>
      if s.embedding.contains job && decide (0 < chunkCount) then
        s.transact (KnowledgeBase.saveEmbeddingsAndComplete job chunkCount s.now)
      else s
  | .markReviewRequired job =>
      s.jobStep job (fun stage => stage != .ocr_pending && stage != .ocr_processing)
        (KnowledgeBase.markReviewRequired job)
  | .markFailed job retryable retryAt =>
      s.jobStep job (fun _ => true) (KnowledgeBase.markFailed job retryable retryAt)

/-! Reading a draft's sections and judging a request write nothing. -/

theorem db_openWorkspace (s : Base) (documentId : Uuid) :
    (s.step (.openWorkspace documentId)).db = s.db := by
  unfold step
  dsimp only
  split <;> rfl

theorem db_decide (s : Base) (input : SectionDecisionInput) :
    (s.step (.decide input)).db = s.db := by
  unfold step
  dsimp only
  split <;> rfl

theorem db_completeSections (s : Base) (input : SectionCompletionInput) :
    (s.step (.completeSections input)).db = s.db := by
  unfold step
  dsimp only
  split <;> rfl

theorem db_insertRequiredSections (s : Base) (index : Nat) :
    (s.step (.insertRequiredSections index)).db = s.db ∨
      ∃ required, (s.step (.insertRequiredSections index)).db = s.db.insertSections required := by
  unfold step
  dsimp only
  split
  · exact .inr ⟨_, rfl⟩
  · exact .inl rfl

/-- The state after actions, from the empty tables on. -/
def after (actions : List Action) : Base := Machine.run step .initial actions

end Step

end Base

end OpenVac.KnowledgeBase
