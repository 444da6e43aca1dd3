/-
  File:      OpenVac/KnowledgeBase/Steps.lean
  Subject:   What one step of the knowledge base does to versions, documents and tasks.

  * `Agree db' db` -- two databases with the same versions, documents, tasks and originals.
  * `Effect s db' a` -- action `a` takes the tables of state `s` to `db'`; a constructor for each
    way, with the guards it passed. `quiet` is every step that touches no version, no task and
    of the documents at most the source of one.
  * `step_effect` -- **every step has an effect.**
-/
import OpenVac.KnowledgeBase.Effects

namespace OpenVac.KnowledgeBase

open Rows JsString JsUrl
open ChatStorage (ParsedDocument)

/-! ## 1. Databases that agree -/

structure Agree (db' db : Database) : Prop where
  versions : db'.versions = db.versions
  documents : db'.documents = db.documents
  tasks : db'.tasks = db.tasks
  originals : db'.originals = db.originals
  next : db.nextId ≤ db'.nextId

namespace Agree

variable {db db' db'' : Database}

theorem refl (db : Database) : Agree db db := ⟨rfl, rfl, rfl, rfl, Nat.le_refl _⟩

theorem trans (h : Agree db'' db') (h' : Agree db' db) : Agree db'' db :=
  ⟨h.versions.trans h'.versions, h.documents.trans h'.documents, h.tasks.trans h'.tasks,
    h.originals.trans h'.originals, Nat.le_trans h'.next h.next⟩

theorem insertRun (phase : ReviewPhase) (versionId : Uuid) (contentHash model : Text)
    (db : Database) : Agree (db.insertRun phase versionId contentHash model) db := by
  unfold Database.insertRun
  split
  · exact refl db
  · exact ⟨rfl, rfl, rfl, rfl, Nat.le_succ _⟩

theorem setRun (id : Uuid) (f : ReviewRun → ReviewRun) (db : Database) :
    Agree (db.setRun id f) db := ⟨rfl, rfl, rfl, rfl, Nat.le_refl _⟩

theorem writeAudit (actor : UserId) (action : AuditAction) (documentId : Uuid)
    (versionId : Option Uuid) (db : Database) :
    Agree (db.writeAudit actor action documentId versionId) db := ⟨rfl, rfl, rfl, rfl, Nat.le_refl _⟩

theorem insertSections (sections : List KnowledgeReviewSection) (db : Database) :
    Agree (db.insertSections sections) db := ⟨rfl, rfl, rfl, rfl, Nat.le_add_right _ _⟩

theorem queueAutomationRun {versionId : Uuid} {contentHash : Text} {phase : ReviewPhase}
    (h : queueAutomationRun versionId contentHash phase db = .ok db') : Agree db' db := by
  rcases queueAutomationRun_ok h with ⟨_, rfl⟩ | ⟨run, _, _, _, rfl⟩
  · exact insertRun ..
  · exact setRun ..

theorem queueTask (h : Agree db' db) (hn : db'.nextId = db.nextId) (key : TaskKey)
    (payload : KnowledgeIngestionPayload) (runAt : Int) :
    Agree (db'.queueTask key payload runAt) (db.queueTask key payload runAt) := by
  unfold Database.queueTask
  rw [h.tasks, hn]
  split
  · exact ⟨h.versions, h.documents, h.tasks, h.originals, h.next⟩
  · exact ⟨h.versions, h.documents, rfl, h.originals, Nat.le_refl _⟩

end Agree

theorem versions_queueTask (db : Database) (key : TaskKey) (payload : KnowledgeIngestionPayload)
    (runAt : Int) : (db.queueTask key payload runAt).versions = db.versions := by
  unfold Database.queueTask
  split <;> rfl

theorem documents_queueTask (db : Database) (key : TaskKey) (payload : KnowledgeIngestionPayload)
    (runAt : Int) : (db.queueTask key payload runAt).documents = db.documents := by
  unfold Database.queueTask
  split <;> rfl

theorem originals_queueTask (db : Database) (key : TaskKey) (payload : KnowledgeIngestionPayload)
    (runAt : Int) : (db.queueTask key payload runAt).originals = db.originals := by
  unfold Database.queueTask
  split <;> rfl

/-- A queued task, or the task that has its key already. -/
theorem tasks_queueTask (db : Database) (key : TaskKey) (payload : KnowledgeIngestionPayload)
    (runAt : Int) :
    ((∃ t ∈ db.tasks, t.idempotencyKey = key) ∧
      (db.queueTask key payload runAt).tasks = db.tasks) ∨
    ((∀ t ∈ db.tasks, t.idempotencyKey ≠ key) ∧
      (db.queueTask key payload runAt).tasks = db.tasks ++
        [⟨db.nextId, key, .queued, payload, 0, 3, runAt, none, none, none⟩]) := by
  unfold Database.queueTask
  split
  · next h =>
      obtain ⟨t, ht, e⟩ := List.any_eq_true.mp h
      exact Or.inl ⟨⟨t, ht, beq_iff_eq.mp e⟩, rfl⟩
  · next h =>
      refine Or.inr ⟨fun t ht e => h (List.any_eq_true.mpr ⟨t, ht, beq_iff_eq.mpr e⟩), rfl⟩

/-- Queueing gives no id back. -/
theorem le_nextId_queueTask {n : Uuid} {db : Database} (h : n ≤ db.nextId) (key : TaskKey)
    (payload : KnowledgeIngestionPayload) (runAt : Int) :
    n ≤ (db.queueTask key payload runAt).nextId := by
  unfold Database.queueTask
  split
  · exact h
  · exact Nat.le_succ_of_le h

/-- Where only a task may be queued, the other tables stay. -/
theorem queueReviewTask_rest (transition : KnowledgeReviewTransition) (preserve : Bool)
    (now : Int) (db : Database) :
    (queueReviewTask transition preserve now db).versions = db.versions ∧
      (queueReviewTask transition preserve now db).documents = db.documents ∧
      (queueReviewTask transition preserve now db).originals = db.originals ∧
      ∀ n ≤ db.nextId, n ≤ (queueReviewTask transition preserve now db).nextId := by
  unfold queueReviewTask
  split
  · split
    · exact ⟨rfl, rfl, rfl, fun _ h => h⟩
    · exact ⟨versions_queueTask .., documents_queueTask .., originals_queueTask ..,
        fun _ h => le_nextId_queueTask h ..⟩
  · exact ⟨rfl, rfl, rfl, fun _ h => h⟩

theorem approveWithNote_rest (target : CurrentTarget) (actorId : UserId) (note : Text)
    (now : Int) (db : Database) :
    (approveWithNote target actorId note now db).versions =
        (db.setVersion target.version.id
          (manuallyApproved (manualReview actorId now target.contentHash note)
            (target.version.citationMetadata.ingestionMode == some .full_text) now)).versions ∧
      (approveWithNote target actorId note now db).documents =
        (db.setDocument target.document.id (withStatus
          (if target.version.citationMetadata.ingestionMode == some .full_text then .review
            else .published))).documents ∧
      (approveWithNote target actorId note now db).originals = db.originals ∧
      ∀ n ≤ db.nextId, n ≤ (approveWithNote target actorId note now db).nextId := by
  unfold approveWithNote
  dsimp only
  split
  · refine ⟨versions_queueTask .., ?_, originals_queueTask .., fun _ h => ?_⟩
    · show updateWhere _ _ (Database.queueTask _ _ _ _).documents = updateWhere _ _ db.documents
      rw [documents_queueTask]
      rfl
    · refine le_nextId_queueTask ?_ ..
      exact h
  · exact ⟨rfl, rfl, rfl, fun _ h => h⟩

theorem publishVerified_rest (documentId versionId : Uuid) (contentHash : Text) (fullText : Bool)
    (review : Review) (now : Int) (db : Database) :
    (publishVerified documentId versionId contentHash fullText review now db).2.versions =
        (db.setVersion versionId (verifiedVersion review fullText now)).versions ∧
      (publishVerified documentId versionId contentHash fullText review now db).2.documents =
        (if fullText then db else db.setCurrentStatus documentId versionId .published).documents ∧
      (publishVerified documentId versionId contentHash fullText review now db).2.originals =
        db.originals ∧
      ∀ n ≤ db.nextId, n ≤
        (publishVerified documentId versionId contentHash fullText review now db).2.nextId := by
  unfold publishVerified
  dsimp only
  split
  · refine ⟨versions_queueTask .., documents_queueTask .., originals_queueTask .., fun _ h => ?_⟩
    refine le_nextId_queueTask ?_ ..
    exact h
  · exact ⟨rfl, rfl, rfl, fun _ h => h⟩

theorem completeReview_rest (pending : PendingCompletion) (db : Database) :
    (if pending.ingestionMode = .full_text then
        db.queueTask pending.key pending.payload pending.reviewedAt else db).versions =
        db.versions ∧
      (if pending.ingestionMode = .full_text then
        db.queueTask pending.key pending.payload pending.reviewedAt else db).documents =
        db.documents ∧
      (if pending.ingestionMode = .full_text then
        db.queueTask pending.key pending.payload pending.reviewedAt else db).originals =
        db.originals ∧
      ∀ n ≤ db.nextId, n ≤ (if pending.ingestionMode = .full_text then
        db.queueTask pending.key pending.payload pending.reviewedAt else db).nextId := by
  split
  · exact ⟨versions_queueTask .., documents_queueTask .., originals_queueTask ..,
      fun _ h => le_nextId_queueTask h ..⟩
  · exact ⟨rfl, rfl, rfl, fun _ h => h⟩

/-! ## 2. Effects -/

/-- What a worker does to the task it holds, other than to save its result. -/
inductive LeasedUpdate (now : Int) (job : KnowledgeIngestionJob) :
    (BackgroundTask → BackgroundTask) → Action → Prop where
  | renewLease : LeasedUpdate now job (fun t => { t with lockedAt := some now }) (.renewLease job)
  | markOcrSubmitted {parserJobId : Text} {retryAt : Int}
      (stage : job.payload.stage = .ocr_pending) :
      LeasedUpdate now job
        (requeued retryAt
          { job.payload with
            stage := .ocr_processing
            parserJobId := some parserJobId
            parserSubmittedAt := some now
            parserPollCount := some 0 })
        (.markOcrSubmitted job parserJobId retryAt)
  | deferOcrPoll {retryAt : Int} (stage : job.payload.stage = .ocr_processing) :
      LeasedUpdate now job
        (requeued retryAt
          { job.payload with
            stage := .ocr_processing
            parserPollCount := some (job.payload.parserPollCount.getD 0 + 1) })
        (.deferOcrPoll job retryAt)
  | markReviewRequired
      (stage : job.payload.stage ≠ .ocr_pending ∧ job.payload.stage ≠ .ocr_processing) :
      LeasedUpdate now job succeeded (.markReviewRequired job)
  | markFailed {retryable : Bool} {retryAt : Int} :
      LeasedUpdate now job
        (failedTask (decide (job.maxAttempts ≤ job.attempts) || !retryable) retryAt)
        (.markFailed job retryable retryAt)

section Step

variable [Sha256] [LocaleOrder] [UrlParser]

/-- **What an action does** to versions, documents and tasks. -/
inductive Effect (s : Base) (db' : Database) : Action → Prop where
  | quiet {a : Action} (documentId : Uuid) (sourceId : Option Uuid)
      (effect : Agree db' (s.db.setDocument documentId (linked sourceId))) : Effect s db' a
  -- the environment
  | activatePending {documentId : Uuid} {chunkCount : Nat} {document : KnowledgeDocument}
      {version : KnowledgeVersion}
      (found : s.db.document documentId = some document)
      (current : document.currentVersionId = some version.id)
      (mem : version ∈ s.db.versions)
      (hash : version.contentHash = some (Sha256.hex version.content))
      (effect : Agree db' ((s.db.setVersion version.id
        (activatedVersion (Sha256.hex version.content) chunkCount s.now)).setDocument documentId
          (withStatus .published))) :
      Effect s db' (.activatePending documentId chunkCount)
  -- editors
  | createKnowledgeDraft {input : KnowledgeDraftInput} {actor : UserId}
      (effect : Agree db' { s.db with
        nextId := s.db.nextId + 2
        documents := s.db.documents ++
          [⟨s.db.nextId, input.sourceId, none, .draft, some (s.db.nextId + 1)⟩]
        versions := s.db.versions ++
          [draftVersion input actor s.db.nextId (s.db.nextId + 1)] }) :
      Effect s db' (.createKnowledgeDraft input actor)
  | importKnowledgeCandidate {input : KnowledgeCandidate} {actor : UserId} (sourceId : Uuid)
      (effect : Agree db' { s.db with
        nextId := s.db.nextId + 2
        documents := s.db.documents ++
          [⟨s.db.nextId, some sourceId, some input.externalKey, .review, some (s.db.nextId + 1)⟩]
        versions := s.db.versions ++
          [candidateVersion input actor s.db.nextId (s.db.nextId + 1)] }) :
      Effect s db' (.importKnowledgeCandidate input actor)
  | updateKnowledgeDraft {document : KnowledgeDocument} {input : KnowledgeDraftUpdate}
      {actor : UserId} {version : KnowledgeVersion}
      (read : document ∈ s.reads)
      (status : editable document.status = true)
      (current : document.currentVersionId = some version.id)
      (mem : version ∈ s.db.versions)
      (owner : version.documentId = document.id)
      (versionStatus : editable version.status = true)
      (effect : Agree db' ((s.db.setDocument document.id
        (updatedDocument (reviewInvalidated document input version) input)).setVersion version.id
          (updatedVersion document input))) :
      Effect s db' (.updateKnowledgeDraft document input actor)
  | reviewKnowledgeDocument {documentId : Uuid} {input : KnowledgeReviewInput} {actor : UserId}
      {document : KnowledgeDocument} {version : KnowledgeVersion}
      {transition : KnowledgeReviewTransition}
      (found : s.db.document documentId = some document)
      (current : document.currentVersionId = some version.id)
      (status : editable document.status = true ∨ document.status = .published)
      (mem : version ∈ s.db.versions)
      (owner : version.documentId = documentId)
      (versionStatus :
        editable version.status = true ∨ publishedPendingReview document version = true)
      (built : buildKnowledgeReviewTransition
        ⟨documentId, version.id, version.content, version.contentHash,
          version.citationMetadata.ingestionMode, actor, s.now⟩ input = .ok transition)
      (preserved : publishedPendingReview document version = true → input.approved = true →
        version.citationMetadata.ingestionMode = some .full_text →
          preserveCompletedEmbedding document version transition.contentHash s.db = true)
      (effect : Agree db' (queueReviewTask transition
        (preserveCompletedEmbedding document version transition.contentHash s.db) s.now
        ((s.db.setVersion version.id
          (reviewedVersion input.approved (publishedPendingReview document version)
            (preserveCompletedEmbedding document version transition.contentHash s.db)
              transition)).setDocument documentId
            (withStatus (if publishedPendingReview document version then
              settledStatus input.approved else transition.documentStatus))))) :
      Effect s db' (.reviewKnowledgeDocument documentId input actor)
  | publishKnowledgeDraft {documentId : Uuid} {actor : UserId} {document : KnowledgeDocument}
      {version : KnowledgeVersion}
      (found : s.db.document documentId = some document)
      (current : document.currentVersionId = some version.id)
      (mem : version ∈ s.db.versions)
      (publishable : assertPublishable document version s.now s.db = .ok ())
      (versionStatus : version.status = .review)
      (status : document.status = .review)
      (effect : Agree db' ((s.db.setVersion version.id (publishedVersion s.now)).setDocument
        documentId (withStatus .published))) :
      Effect s db' (.publishKnowledgeDraft documentId actor)
  | archiveKnowledgeDocument {documentId : Uuid} {actor : UserId} {document : KnowledgeDocument}
      (found : s.db.document documentId = some document)
      (effect : Agree db' ((match document.currentVersionId with
        | some versionId => s.db.setVersion versionId archivedVersion
        | none => s.db).setDocument documentId (withStatus .archived))) :
      Effect s db' (.archiveKnowledgeDocument documentId actor)
  | rollbackKnowledgeDocument {documentId versionId : Uuid} {actor : UserId}
      {document : KnowledgeDocument} {target : KnowledgeVersion} (number : Nat)
      (found : s.db.document documentId = some document)
      (status : document.status = .published)
      (mem : target ∈ s.db.versions)
      (owner : target.documentId = documentId)
      (reviewed : assertReviewedKnowledgeEvidence
        ⟨document.status, target.status, target.content, target.contentHash,
          target.citationMetadata, target.metadata, s.db.chunkCount target.id⟩ s.now = .ok ())
      (effect : Agree db' (({ s.db with
        nextId := s.db.nextId + 1
        versions := (s.db.archivePublished documentId).versions ++
          [rolledBackVersion target s.db.nextId number actor s.now] } : Database).setDocument
            documentId (withCurrent .published s.db.nextId))) :
      Effect s db' (.rollbackKnowledgeDocument documentId versionId actor)
  -- reviewers of sections
  | completeReview {pending : PendingCompletion} {version : KnowledgeVersion}
      {document : KnowledgeDocument}
      (checked : pending ∈ s.completions)
      (mem : version ∈ s.db.versions)
      (hid : version.id = pending.versionId)
      (owner : version.documentId = pending.documentId)
      (hash : version.contentHash = some pending.contentHash)
      (found : s.db.document pending.documentId = some document)
      (current : document.currentVersionId = some pending.versionId)
      (effect : Agree db' (if pending.ingestionMode = .full_text then
        ((s.db.setVersion pending.versionId (sectionsCompleted pending)).setDocument
          pending.documentId (withStatus .review)).queueTask pending.key pending.payload
            pending.reviewedAt
        else (s.db.setVersion pending.versionId (sectionsCompleted pending)).setDocument
          pending.documentId (withStatus .review))) :
      Effect s db' (.completeReview pending)
  -- manual resolutions
  | archive {input : KnowledgeManualReviewTarget} {resolution : KnowledgeManualResolution}
      {target : CurrentTarget}
      (parsed : parseResolution resolution = some .archive)
      (loaded : loadCurrentTarget input s.db = .ok target)
      (effect : Agree db' ((s.db.setVersion target.version.id archivedVersion).setDocument
        target.document.id (withStatus .archived))) :
      Effect s db' (.resolve input resolution)
  | manual_approve_with_note {input : KnowledgeManualReviewTarget}
      {resolution : KnowledgeManualResolution} {note : Text} {loaded target : CurrentTarget}
      (sourceId : Option Uuid)
      (parsed : parseResolution resolution = some (.manual_approve_with_note note))
      (found : loadCurrentTarget input s.db = .ok loaded)
      (document : target.document = loaded.document)
      (version : target.version = loaded.version)
      (hash : target.contentHash = loaded.contentHash)
      (effect : Agree db' (approveWithNote target input.actorId note s.now
        (s.db.setDocument target.document.id (linked sourceId)))) :
      Effect s db' (.resolve input resolution)
  | manual_edit_and_retry {input : KnowledgeManualReviewTarget}
      {resolution : KnowledgeManualResolution} {content : Text} {loaded target : CurrentTarget}
      (sourceId : Option Uuid)
      (parsed : parseResolution resolution = some (.manual_edit_and_retry content))
      (found : loadCurrentTarget input s.db = .ok loaded)
      (document : target.document = loaded.document)
      (version : target.version = loaded.version)
      (creator : target.createdBy = loaded.createdBy)
      (effect : Agree db' (({ s.db.setDocument target.document.id (linked sourceId) with
        nextId := s.db.nextId + 1
        versions := s.db.versions ++ [editedVersion target content s.db.nextId] } :
          Database).setDocument target.document.id (withCurrent .review s.db.nextId))) :
      Effect s db' (.resolve input resolution)
  -- the review automation
  | revised {input parsed : CompleteInput} {run : ReviewRun} {version : KnowledgeVersion}
      {document : KnowledgeDocument} {content : Text} (number : Nat)
      (schema : parseResult input = .ok parsed)
      (leased : leasedTarget parsed s.now s.db = some (run, version, document))
      (phase : parsed.phase = .initial)
      (revision : parsed.revisedContent = some content)
      (effect : Agree db' (({ s.db with
        nextId := s.db.nextId + 1
        versions := s.db.versions ++ [revisedVersion version content s.db.nextId number] } :
          Database).setDocument version.documentId (withCurrent .review s.db.nextId))) :
      Effect s db' (.submitResult input)
  | needsHuman {input parsed : CompleteInput} {run : ReviewRun} {version : KnowledgeVersion}
      {document : KnowledgeDocument}
      (schema : parseResult input = .ok parsed)
      (leased : leasedTarget parsed s.now s.db = some (run, version, document))
      (effect : Agree db' (markNeedsHuman document.id version.id s.db)) :
      Effect s db' (.submitResult input)
  | verified {input parsed : CompleteInput} {run : ReviewRun} {version : KnowledgeVersion}
      {document : KnowledgeDocument} (runs : List ReviewRun) (fullText : Bool)
      (schema : parseResult input = .ok parsed)
      (leased : leasedTarget parsed s.now s.db = some (run, version, document))
      (phase : parsed.phase = .verify)
      (effect : Agree db' (publishVerified document.id version.id parsed.inputContentHash fullText
        (automationReview parsed parsed.inputContentHash runs s.now) s.now s.db).2) :
      Effect s db' (.submitResult input)
  -- uploads and the worker
  | initiateUpload {input : KnowledgeUploadInput} (sourceId : Option Uuid)
      (effect : Agree db' { s.db with
        nextId := s.db.nextId + 2
        documents := s.db.documents ++
          [⟨s.db.nextId, sourceId, none, .processing, some (s.db.nextId + 1)⟩]
        versions := s.db.versions ++
          [uploadedVersion input s.db.nextId (s.db.nextId + 1)]
        originals := s.db.originals ++
          [⟨s.db.nextId + 1, input.sha256, input.uploadedBy⟩] }) :
      Effect s db' (.initiateUpload input)
  | completeUpload {versionId : Uuid} {uploadedBy : UserId} {original : KnowledgeOriginal}
      {version : KnowledgeVersion} {document : KnowledgeDocument}
      (stored : original ∈ s.db.originals)
      (origin : original.versionId = versionId)
      (mem : version ∈ s.db.versions)
      (hid : version.id = versionId)
      (found : s.db.document version.documentId = some document)
      (current : document.currentVersionId = some versionId)
      (fresh : ∀ t ∈ s.db.tasks, t.idempotencyKey ≠ .ingestion versionId original.sha256)
      (effect : Agree db' (((s.db.queueTask (.ingestion versionId original.sha256)
        { stage := .ocr_pending, documentId := document.id, versionId := versionId }
          s.now).setVersion versionId processingVersion).setDocument document.id
            (withStatus .processing))) :
      Effect s db' (.completeUpload versionId uploadedBy)
  | claimNext {taskId : Uuid} {workerId : Text} {task : BackgroundTask}
      (mem : task ∈ s.db.tasks)
      (hid : task.id = taskId)
      (claimable : taskClaimable s.now task = true)
      (effect : Agree db' { s.db with
        nextId := s.db.nextId + 1
        tasks := updateWhere (fun t => t.id == task.id)
          (leasedTask workerId s.db.nextId s.now) s.db.tasks }) :
      Effect s db' (.claimNext taskId workerId)
  | leasedUpdate {a : Action} {job : KnowledgeIngestionJob}
      {f : BackgroundTask → BackgroundTask}
      (held : job ∈ s.jobs)
      (update : LeasedUpdate s.now job f a)
      (effect : Agree db' { s.db with tasks := updateWhere (holdsLease job) f s.db.tasks }) :
      Effect s db' a
  | saveParsedForReview {job : KnowledgeIngestionJob} {parsed : ParsedDocument}
      {version : KnowledgeVersion} {document : KnowledgeDocument}
      (held : job ∈ s.jobs)
      (stage : job.payload.stage = .ocr_processing)
      (lease : ∃ t ∈ s.db.tasks, holdsLease job t = true)
      (mem : version ∈ s.db.versions)
      (hid : version.id = job.payload.versionId)
      (found : s.db.document version.documentId = some document)
      (owner : version.documentId = job.payload.documentId)
      (current : document.currentVersionId = some job.payload.versionId)
      (effect : Agree db' { (s.db.setVersion job.payload.versionId
          (parsedVersion (renderParsedDocument parsed))).setDocument job.payload.documentId
            (withStatus .review) with
        tasks := updateWhere (holdsLease job) succeeded s.db.tasks }) :
      Effect s db' (.saveParsedForReview job parsed)
  | saveEmbeddingsAndComplete {job : KnowledgeIngestionJob} {chunkCount : Nat} {review : Review}
      {version : KnowledgeVersion} {document : KnowledgeDocument} (autoPublish : Bool)
      (held : job ∈ s.embedding)
      (payload : job.payload.review = some review)
      (valid : validJobReview review = true)
      (lease : ∃ t ∈ s.db.tasks, holdsLease job t = true)
      (mem : version ∈ s.db.versions)
      (hid : version.id = job.payload.versionId)
      (owner : version.documentId = job.payload.documentId)
      (versionStatus : version.status = .review)
      (hash : version.contentHash = some review.contentHash)
      (found : s.db.document job.payload.documentId = some document)
      (current : document.currentVersionId = some job.payload.versionId)
      (status : document.status = .review)
      (effect : Agree db' { (s.db.setVersion job.payload.versionId
          (embeddedVersion review autoPublish s.now)).setDocument job.payload.documentId
            (withStatus (if autoPublish then .published else .review)) with
        tasks := updateWhere (holdsLease job) succeeded s.db.tasks }) :
      Effect s db' (.saveEmbeddingsAndComplete job chunkCount)

/-! ## 3. Every step has an effect -/

/-- A step that touches no version, document or task. -/
theorem Effect.unchanged {s : Base} {db' : Database} {a : Action} (h : Agree db' s.db) :
    Effect s db' a := by
  refine .quiet 0 none ?_
  rw [setDocument_linked_none]
  exact h

theorem Effect.same {s : Base} {a : Action} : Effect s s.db a := .unchanged (Agree.refl s.db)

omit [LocaleOrder] [UrlParser] in
theorem agree_storeResult (input : CompleteInput) (j : Judged) (now : Int) (db : Database) :
    Agree (storeResult input j now db) db := Agree.setRun ..

omit [Sha256] [LocaleOrder] [UrlParser] in
theorem agree_recordSettled (id : Uuid) (settled : Settled) (db : Database) :
    Agree (recordSettled id settled db) db := Agree.setRun ..

omit [Sha256] [LocaleOrder] [UrlParser] in
theorem agree_publishVerified {db db' : Database} (h : Agree db' db)
    (hn : db'.nextId = db.nextId) (documentId versionId : Uuid) (contentHash : Text)
    (fullText : Bool) (review : Review) (now : Int) :
    Agree (publishVerified documentId versionId contentHash fullText review now db').2
      (publishVerified documentId versionId contentHash fullText review now db).2 := by
  have hset : Agree (db'.setVersion versionId (verifiedVersion review fullText now))
      (db.setVersion versionId (verifiedVersion review fullText now)) := by
    refine ⟨?_, h.documents, h.tasks, h.originals, h.next⟩
    show updateWhere _ _ db'.versions = updateWhere _ _ db.versions
    rw [h.versions]
  unfold publishVerified
  dsimp only
  split
  · exact hset.queueTask hn _ _ _
  · refine ⟨hset.versions, ?_, hset.tasks, hset.originals, hset.next⟩
    show updateWhere _ _ db'.documents = updateWhere _ _ db.documents
    rw [h.documents]

/-- A result moves a version to a person, publishes it, or adds its revision. -/
theorem submitResult_effect {s : Base} {input : CompleteInput} {db' : Database}
    {outcome : AutomationReviewOutcome} (hfresh : ∀ v ∈ s.db.versions, v.id ≠ s.db.nextId)
    (h : submitResult input s.now s.db = .ok (outcome, db')) :
    Effect s db' (.submitResult input) := by
  obtain ⟨parsed, hp, ⟨_, rfl, _⟩ | ⟨r, version, document, j, db₁, hl, hj, _, rfl⟩⟩ :=
    submitResult_ok h
  · exact .same
  have target := leasedTarget_ok hl
  have hdoc : document.id = version.documentId := by
    simpa using List.find?_some target.found
  rcases judge_ok hj with ⟨rfl, hcur, hhash, _⟩ | ⟨content, number, hphase, _, hrev, hcur, _, _, rfl⟩
  · -- no revision: the tables are those the run was leased on
    unfold settle
    rw [hcur, hhash]
    split
    · cases hphase : parsed.phase with
      | initial =>
        refine .unchanged ((agree_recordSettled ..).trans ?_)
        exact (Agree.insertRun ..).trans (agree_storeResult ..)
      | verify =>
        dsimp only
        unfold settleVerified
        rw [hcur, hhash]
        dsimp only
        split
        · exact .verified _ _ hp hl hphase ((agree_recordSettled ..).trans
            (agree_publishVerified (agree_storeResult parsed j s.now s.db) rfl ..))
        · refine .needsHuman hp hl ((agree_recordSettled ..).trans ?_)
          exact ⟨rfl, rfl, rfl, rfl, Nat.le_refl _⟩
    · refine .needsHuman hp hl ((agree_recordSettled ..).trans ?_)
      exact ⟨rfl, rfl, rfl, rfl, Nat.le_refl _⟩
  · refine .revised number hp hl hphase hrev ((agree_recordSettled ..).trans ?_)
    unfold settle
    rw [hcur]
    split
    · simp only [hphase]
      exact (Agree.insertRun ..).trans (agree_storeResult ..)
    · -- the new version is in review already
      have hold : ∀ v ∈ s.db.versions, (v.id == s.db.nextId) = false := fun v hv =>
        beq_false_of_ne (hfresh v hv)
      refine ⟨?_, ?_, rfl, rfl, Nat.le_refl _⟩
      · show updateWhere _ _ (s.db.versions ++ [_]) = s.db.versions ++ [_]
        refine updateWhere_eq_self fun v hv he => ?_
        rcases List.mem_append.mp hv with hv | hv
        · rw [hold v hv] at he
          cases he
        · rw [List.mem_singleton.mp hv]
          rfl
      · show updateWhere _ _ (updateWhere _ _ s.db.documents) = updateWhere _ _ s.db.documents
        refine updateWhere_eq_self fun d hd he => ?_
        simp only [Bool.and_eq_true, beq_iff_eq] at he
        obtain ⟨d₀, _, rfl⟩ := mem_updateWhere.mp hd
        by_cases hid : (d₀.id == version.documentId) = true
        · rw [if_pos hid]
          rfl
        · rw [if_neg hid] at he
          exact absurd (beq_iff_eq.mpr (he.1.trans hdoc)) hid

/-- A transaction of the step, once committed, has the effect its successful run has. -/
theorem transact_effect {β : Type} {s : Base} {a : Action}
    {tx : Database → Except KnowledgeError (β × Database)}
    (h : ∀ b db', tx s.db = .ok (b, db') → Effect s db' a) :
    Effect s (s.transact tx).db a := by
  rcases Machine.commit_cases s.db (tx s.db) with e | ⟨b, db', hok, e⟩
  · rw [show (s.transact tx).db = s.db from e]
    exact .same
  · rw [show (s.transact tx).db = db' from e]
    exact h b db' hok

theorem jobStep_effect {s : Base} {a : Action} {job : KnowledgeIngestionJob}
    {allowed : IngestionStage → Bool}
    {tx : Database → Except KnowledgeError (Unit × Database)}
    (h : ∀ u db', job ∈ s.jobs → allowed job.payload.stage = true → tx s.db = .ok (u, db') →
      Effect s db' a) :
    Effect s (s.jobStep job allowed tx).db a := by
  unfold Base.jobStep
  split
  · next hc =>
      simp only [Bool.and_eq_true, List.contains_iff_mem] at hc
      exact transact_effect fun u db' => h u db' hc.1 hc.2
  · exact .same

/-- An update of the task a worker holds. -/
theorem leasedUpdate_effect {s : Base} {a : Action} {job : KnowledgeIngestionJob}
    {f : BackgroundTask → BackgroundTask} {db' : Database} {u : Unit} (hj : job ∈ s.jobs)
    (hf : LeasedUpdate s.now job f a)
    (h : (do let db ← updateLeased job f s.db; return ((), db) :
      Except KnowledgeError (Unit × Database)) = .ok (u, db')) : Effect s db' a := by
  obtain ⟨_, rfl⟩ := updateLeased_bind_ok h
  exact .leasedUpdate hj hf (Agree.refl _)

theorem resolve_effect {s : Base} {input : KnowledgeManualReviewTarget}
    {resolution : KnowledgeManualResolution} {db' : Database} {u : Unit}
    (h : resolve input resolution s.now s.db = .ok (u, db')) :
    Effect s db' (.resolve input resolution) := by
  obtain ⟨parsed, hp, h⟩ := resolve_ok h
  cases parsed with
  | archive =>
    obtain ⟨target, ht, rfl⟩ := h
    exact .archive hp ht (Agree.writeAudit ..)
  | manual_approve_with_note note =>
    obtain ⟨target, db₁, ha, rfl⟩ := h
    obtain ⟨⟨loaded, hl, hd, hv, hh, _⟩, sourceId, rfl⟩ := authorizedTarget_ok ha
    exact .manual_approve_with_note sourceId hp hl hd hv hh (Agree.writeAudit ..)
  | manual_edit_and_retry content =>
    obtain ⟨target, db₁, versionId, db₂, db₃, ha, hi, hq, rfl⟩ := h
    obtain ⟨⟨loaded, hl, hd, hv, _, hc⟩, sourceId, rfl⟩ := authorizedTarget_ok ha
    obtain ⟨rfl, rfl⟩ := insertManualEdit_ok hi
    exact .manual_edit_and_retry sourceId hp hl hd hv hc
      ((Agree.writeAudit ..).trans (Agree.queueAutomationRun hq))
  | adopt_revision_and_retry =>
    obtain ⟨target, db₁, db₂, ha, hq, rfl⟩ := h
    obtain ⟨_, sourceId, rfl⟩ := authorizedTarget_ok ha
    exact .quiet _ sourceId ((Agree.writeAudit ..).trans (Agree.queueAutomationRun hq))

omit [Sha256] [LocaleOrder] [UrlParser] in
theorem agree_writeDecision {pending : PendingDecision} {db db' : Database} {u : Unit}
    (h : writeDecision pending db = .ok (u, db')) : Agree db' db := by
  unfold writeDecision at h
  dsimp only at h
  split at h
  · split at h
    · cases h
    · cases h
      exact ⟨rfl, rfl, rfl, rfl, Nat.le_refl _⟩
  · split at h
    · cases h
    · split at h
      · cases h
      · cases h
        exact ⟨rfl, rfl, rfl, rfl, Nat.le_refl _⟩

omit [Sha256] [LocaleOrder] [UrlParser] in
theorem agree_claim (phase : ReviewPhase) (picked : List Uuid) (now : Int) (db : Database) :
    Agree (claim phase picked now db).2 db := by
  unfold claim
  have hstart : Agree (expireLeases now db) db := ⟨rfl, rfl, rfl, rfl, Nat.le_refl _⟩
  generalize expireLeases now db = start at hstart
  generalize ([] : List LeaseCandidate) = acc
  induction picked generalizing start acc with
  | nil => exact hstart
  | cons id picked ih =>
    rw [List.foldl_cons]
    unfold leaseRun
    dsimp only
    split
    · exact ih start hstart acc
    · refine ih _ ?_ _
      exact ⟨hstart.versions, hstart.documents, hstart.tasks, hstart.originals,
        Nat.le_succ_of_le hstart.next⟩

omit [Sha256] [LocaleOrder] [UrlParser] in
theorem agree_requeuePending (db : Database) : Agree (requeuePending db) db := by
  unfold requeuePending
  generalize db.documents.filterMap (pendingCandidate db) = candidates
  have hrounds : ∀ start, Agree start db → Agree
      (candidates.foldl (fun db c => db.insertRun .initial c.1 c.2 REVIEW_MODEL) start) db := by
    induction candidates with
    | nil => exact fun start hstart => hstart
    | cons c candidates ih =>
      exact fun start hstart => ih _ ((Agree.insertRun ..).trans hstart)
  exact hrounds db (.refl db)

omit [LocaleOrder] [UrlParser] in
theorem agree_storeParsed (documentId versionId : Uuid) (content : Text)
    (sections : List KnowledgeReviewSection) (db : Database) :
    Agree (storeParsed documentId versionId content sections db)
      ((db.setVersion versionId (parsedVersion content)).setDocument documentId
        (withStatus .review)) := by
  unfold storeParsed
  exact (Agree.insertRun ..).trans ((Agree.insertSections ..).trans
    ⟨rfl, rfl, rfl, rfl, Nat.le_refl _⟩)

/-- **Every step has an effect.** -/
theorem step_effect {s : Base} (hfresh : ∀ v ∈ s.db.versions, v.id ≠ s.db.nextId) (a : Action) :
    Effect s (s.step a).db a := by
  cases a with
  | tick ms => exact .same
  | putSource source => exact .unchanged ⟨rfl, rfl, rfl, rfl, Nat.le_refl _⟩
  | activatePending documentId chunkCount =>
    show Effect s (activatePending documentId chunkCount s.now s.db) _
    unfold activatePending
    split
    · exact .same
    · next document hd =>
        split
        · exact .same
        · next version hv =>
            split
            · exact .same
            · next hh =>
                obtain ⟨versionId, hc, hv'⟩ := Option.bind_eq_some_iff.mp hv
                have hid : version.id = versionId := by simpa using List.find?_some hv'
                subst hid
                simp only [bne_iff_ne, ne_eq, Decidable.not_not] at hh
                exact .activatePending hd hc (List.mem_of_find?_eq_some hv') hh
                  ⟨rfl, rfl, rfl, rfl, Nat.le_refl _⟩
  | createKnowledgeDraft input actor =>
    refine transact_effect fun r db' h => ?_
    rw [createKnowledgeDraft_ok h]
    exact .createKnowledgeDraft ⟨rfl, rfl, rfl, rfl, Nat.le_refl _⟩
  | importKnowledgeCandidate input actor =>
    refine transact_effect fun r db' h => ?_
    obtain ⟨source, sections, _, _, _, rfl⟩ := importKnowledgeCandidate_ok h
    exact .importKnowledgeCandidate source.id ((Agree.writeAudit ..).trans
      (Agree.insertSections ..))
  | readDraft documentId => exact .same
  | updateKnowledgeDraft document input actor =>
    show Effect s (ite _ _ _ : Base).db _
    split
    · next hr =>
        refine transact_effect fun r db' h => ?_
        rcases updateKnowledgeDraft_ok h with rfl | ⟨versionId, version, hs, hc, hv, ho, hvs, rfl⟩
        · exact .same
        · have hid : version.id = versionId := by simpa using List.find?_some hv
          subst hid
          exact .updateKnowledgeDraft (List.contains_iff_mem.mp hr) hs hc
            (List.mem_of_find?_eq_some hv) ho hvs (Agree.writeAudit ..)
    · exact .same
  | reviewKnowledgeDocument documentId input actor =>
    refine transact_effect fun r db' h => ?_
    rcases reviewKnowledgeDocument_ok h with
      rfl | ⟨document, version, transition, hd, hc, hs, hm, ho, hvs, hb, hp, rfl⟩
    · exact .same
    · exact .reviewKnowledgeDocument hd hc hs hm ho hvs hb hp (Agree.writeAudit ..)
  | publishKnowledgeDraft documentId actor =>
    refine transact_effect fun r db' h => ?_
    rcases publishKnowledgeDraft_ok h with rfl | ⟨document, version, hd, hc, hm, hp, hvs, hs, rfl⟩
    · exact .same
    · exact .publishKnowledgeDraft hd hc hm hp hvs hs (Agree.writeAudit ..)
  | archiveKnowledgeDocument documentId actor =>
    refine transact_effect fun r db' h => ?_
    rcases archiveKnowledgeDocument_ok h with rfl | ⟨document, hd, rfl⟩
    · exact .same
    · exact .archiveKnowledgeDocument hd (Agree.writeAudit ..)
  | rollbackKnowledgeDocument documentId versionId actor =>
    refine transact_effect fun r db' h => ?_
    rcases rollbackKnowledgeDocument_ok h with
      rfl | ⟨document, target, number, hd, hs, hm, ho, hr, rfl⟩
    · exact .same
    · exact .rollbackKnowledgeDocument number hd hs hm ho hr ⟨rfl, rfl, rfl, rfl, Nat.le_refl _⟩
  | openWorkspace documentId =>
    rw [Base.db_openWorkspace]
    exact .same
  | insertRequiredSections index =>
    rcases s.db_insertRequiredSections index with hdb | ⟨required, hdb⟩
    · rw [hdb]
      exact .same
    · rw [hdb]
      exact .unchanged (Agree.insertSections ..)
  | decide input =>
    rw [Base.db_decide]
    exact .same
  | writeDecision pending =>
    show Effect s (ite _ _ _ : Base).db _
    split
    · exact transact_effect fun u db' h => .unchanged (agree_writeDecision h)
    · exact .same
  | completeSections input =>
    rw [Base.db_completeSections]
    exact .same
  | completeReview pending =>
    show Effect s (ite _ _ _ : Base).db _
    split
    · next hp =>
        refine transact_effect fun u db' h => ?_
        obtain ⟨version, document, hv, ho, hh, hd, hc, rfl⟩ := completeReview_ok h
        exact .completeReview (List.contains_iff_mem.mp hp) (List.mem_of_find?_eq_some hv)
          (by simpa using List.find?_some hv) ho hh hd hc (Agree.writeAudit ..)
    · exact .same
  | retry input =>
    refine transact_effect fun u db' h => ?_
    obtain ⟨target, db₁, db₂, ha, hq, rfl⟩ := retry_ok h
    obtain ⟨_, sourceId, rfl⟩ := authorizedTarget_ok ha
    exact .quiet _ sourceId ((Agree.writeAudit ..).trans (Agree.queueAutomationRun hq))
  | resolve input resolution => exact transact_effect fun u db' h => resolve_effect h
  | claim phase picked => exact .unchanged (agree_claim phase picked s.now s.db)
  | submitResult input => exact transact_effect fun o db' h => submitResult_effect hfresh h
  | requeuePending => exact .unchanged (agree_requeuePending s.db)
  | initiateUpload input =>
    refine transact_effect fun r db' h => ?_
    obtain ⟨sourceId, rfl⟩ := initiateUpload_ok h
    exact .initiateUpload sourceId ⟨rfl, rfl, rfl, rfl, Nat.le_refl _⟩
  | completeUpload versionId uploadedBy =>
    refine transact_effect fun u db' h => ?_
    rcases completeUpload_ok h with
      rfl | ⟨original, version, document, hm, ho, hv, hd, hc, hf, rfl⟩
    · exact .same
    · exact .completeUpload hm ho (List.mem_of_find?_eq_some hv)
        (by simpa using List.find?_some hv) hd hc hf (Agree.refl _)
  | claimNext taskId workerId =>
    show Effect s (claimNext taskId workerId s.now s.db).2 _
    unfold claimNext
    split
    · exact .same
    · next t ht =>
        have hp := List.find?_some ht
        simp only [Bool.and_eq_true, beq_iff_eq] at hp
        exact .claimNext (List.mem_of_find?_eq_some ht) hp.1 hp.2 (Agree.refl _)
  | renewLease job =>
    exact jobStep_effect fun u db' hj _ h => leasedUpdate_effect hj .renewLease h
  | markOcrSubmitted job parserJobId retryAt =>
    exact jobStep_effect fun u db' hj hs h =>
      leasedUpdate_effect hj (.markOcrSubmitted (beq_iff_eq.mp hs)) h
  | deferOcrPoll job retryAt =>
    exact jobStep_effect fun u db' hj hs h =>
      leasedUpdate_effect hj (.deferOcrPoll (beq_iff_eq.mp hs)) h
  | saveParsedForReview job parsed =>
    refine jobStep_effect fun u db' hj hs h => ?_
    obtain ⟨version, document, sections, hl, hv, hd, ho, hc, rfl⟩ := saveParsedForReview_ok h
    refine .saveParsedForReview hj (beq_iff_eq.mp hs) hl (List.mem_of_find?_eq_some hv)
      (by simpa using List.find?_some hv) hd ho hc ?_
    have hstored := agree_storeParsed job.payload.documentId job.payload.versionId
      (renderParsedDocument parsed) sections s.db
    exact ⟨hstored.versions, hstored.documents, rfl, hstored.originals, hstored.next⟩
  | loadApprovedContent job =>
    show Effect s (ite _ _ _ : Base).db _
    split <;> exact .same
  | saveEmbeddingsAndComplete job chunkCount =>
    show Effect s (ite _ _ _ : Base).db _
    split
    · next hc =>
        simp only [Bool.and_eq_true, List.contains_iff_mem] at hc
        refine transact_effect fun u db' h => ?_
        obtain ⟨review, version, document, hr, hok, hl, hv, ho, hvs, hh, hd, hcur, hs, rfl⟩ :=
          saveEmbeddingsAndComplete_ok h
        exact .saveEmbeddingsAndComplete _ hc.1 hr hok hl (List.mem_of_find?_eq_some hv)
          (by simpa using List.find?_some hv) ho hvs hh hd hcur hs ⟨rfl, rfl, rfl, rfl, Nat.le_refl _⟩
    · exact .same
  | markReviewRequired job =>
    refine jobStep_effect fun u db' hj hs h => leasedUpdate_effect hj (.markReviewRequired ?_) h
    simpa using hs
  | markFailed job retryable retryAt =>
    exact jobStep_effect fun u db' hj _ h => leasedUpdate_effect hj .markFailed h

end Step

end OpenVac.KnowledgeBase
