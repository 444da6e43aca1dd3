/-
  File:      OpenVac/KnowledgeBase/Tables.lean
  Subject:   The knowledge tables (db/schema/knowledge.ts), the background tasks of type
             knowledge_ingestion, and the audit rows that name a document.

  * What no modelled function reads is left out: titles, tags, object keys, the texts and
    vectors of chunks, the fields of `metadata` that only the admin view shows.
  * A `metadata` object is a record of its keys; `none` is a missing key.
  * `TaskKey` -- an idempotency key by its parts; its text joins them with `:`.
  * `Database.draw` -- `randomUUID` and `gen_random_uuid`: no id comes twice.
-/
import OpenVac.KnowledgeBase.ReviewPolicy
import OpenVac.Lib.Machine
import OpenVac.Lib.Rows

namespace OpenVac.KnowledgeBase

open Rows JsString

/-- A person with an account. -/
abbrev UserId := Nat

/-! ## 1. Versions and documents -/

inductive KnowledgeStatus where
  | draft
  | processing
  | review
  | published
  | failed
  | archived
  deriving DecidableEq, Repr

inductive ReviewStatus where
  | required
  | approved
  | rejected
  deriving DecidableEq, Repr

inductive EmbeddingStatus where
  | pending_review
  | queued
  | completed
  | not_applicable
  | metadata_only
  deriving DecidableEq, Repr

inductive RetrievalStatus where
  | active_pending_review
  | active_reviewed
  | inactive_rejected
  deriving DecidableEq, Repr

inductive ReviewOutcome where
  | approved
  | rejected
  | invalidated
  deriving DecidableEq, Repr

inductive ReviewMode where
  | section
  | manual_document_resolution
  deriving DecidableEq, Repr

/-- `reviewedBy`: a user's id, or `SYSTEM_ACTOR_ID`. -/
inductive Reviewer where
  | user (id : UserId)
  | automation
  deriving DecidableEq, Repr

/-- `metadata.review`, and the copy of it in a task's payload. -/
structure Review where
  status : ReviewOutcome
  mode : Option ReviewMode := none
  reviewedBy : Reviewer
  reviewedAt : Int
  contentHash : Text
  note : Option Text := none
  sectionCount : Option Nat := none
  policyVersion : Option Text := none
  risk : Option Risk := none
  initialRunId : Option Uuid := none
  verifyRunId : Option Uuid := none
  deriving DecidableEq, Repr

structure VersionMetadata where
  reviewStatus : Option ReviewStatus := none
  embeddingStatus : Option EmbeddingStatus := none
  review : Option Review := none
  retrievalStatus : Option RetrievalStatus := none
  retrievalContentHash : Option Text := none
  deriving DecidableEq, Repr

structure KnowledgeVersion where
  id : Uuid
  documentId : Uuid
  version : Nat
  contentHash : Option Text
  content : Text
  citationMetadata : CitationMetadata
  status : KnowledgeStatus
  metadata : VersionMetadata
  createdBy : Option UserId
  publishedAt : Option Int
  deriving DecidableEq, Repr

def archivedVersion (v : KnowledgeVersion) : KnowledgeVersion := { v with status := .archived }

structure KnowledgeDocument where
  id : Uuid
  sourceId : Option Uuid
  externalKey : Option Text
  status : KnowledgeStatus
  currentVersionId : Option Uuid
  deriving DecidableEq, Repr

def withStatus (status : KnowledgeStatus) (d : KnowledgeDocument) : KnowledgeDocument :=
  { d with status := status }

def withCurrent (status : KnowledgeStatus) (versionId : Uuid) (d : KnowledgeDocument) :
    KnowledgeDocument :=
  { d with status := status, currentVersionId := some versionId }

structure KnowledgeChunk where
  versionId : Uuid
  /-- `embedding IS NOT NULL AND embedded_at IS NOT NULL`. -/
  embedded : Bool
  deriving DecidableEq, Repr

/-- A row of knowledge_original. -/
structure KnowledgeOriginal where
  versionId : Uuid
  sha256 : Text
  uploadedBy : UserId
  deriving DecidableEq, Repr

/-! ## 2. Sections and decisions -/

structure KnowledgeReviewSectionInput where
  sectionIndex : Nat
  contentZh : Text
  officialText : Text
  pageStart : Option Nat
  pageEnd : Option Nat
  rightsSnapshot : RightsSnapshot

/-- A section before its row has an id. -/
structure KnowledgeReviewSection extends KnowledgeReviewSectionInput where
  versionId : Uuid
  versionContentHash : Text
  sectionHash : Text
  rightsSnapshotHash : Text

structure SectionRow extends KnowledgeReviewSection where
  id : Uuid

inductive SectionDecision where
  | approved
  | rejected
  | changes_requested
  deriving DecidableEq, Repr

structure DecisionRow where
  sectionId : Uuid
  sectionHash : Text
  decision : SectionDecision
  reviewerId : UserId
  note : Option Text
  revision : Nat
  deriving DecidableEq, Repr

/-! ## 3. Tasks and audit rows -/

inductive TaskStatus where
  | queued
  | running
  | succeeded
  | failed
  deriving DecidableEq, Repr

/-- What queued an embedding: the end of `knowledge-embedding:<version>:<hash>…`. -/
inductive EmbeddingProducer where
  /-- no suffix: the review of a version. -/
  | version_review
  /-- `:section-review`. -/
  | section_review
  /-- `:manual`. -/
  | manual
  /-- `:codex_automation_v1`. -/
  | automation
  deriving DecidableEq, Repr

inductive TaskKey where
  /-- `knowledge-ingestion:<version>:<sha256>`. -/
  | ingestion (versionId : Uuid) (sha256 : Text)
  | embedding (versionId : Uuid) (contentHash : Text) (producer : EmbeddingProducer)
  deriving DecidableEq, Repr

inductive IngestionStage where
  | ocr_pending
  | ocr_processing
  | review_required
  | embedding_pending
  | embedding_processing
  | completed
  deriving DecidableEq, Repr

structure KnowledgeIngestionPayload where
  stage : IngestionStage
  documentId : Uuid
  versionId : Uuid
  parserJobId : Option Text := none
  parserSubmittedAt : Option Int := none
  parserPollCount : Option Nat := none
  review : Option Review := none
  deriving DecidableEq, Repr

structure BackgroundTask where
  id : Uuid
  idempotencyKey : TaskKey
  status : TaskStatus
  payload : KnowledgeIngestionPayload
  attempts : Nat
  maxAttempts : Nat
  runAt : Int
  lockedAt : Option Int
  lockedBy : Option Text
  leaseToken : Option Uuid
  deriving DecidableEq, Repr

inductive AuditAction where
  | draft_create
  | draft_update
  | candidate_import
  | review_approve
  | review_reject
  | publish
  | archive
  | rollback
  | automation_review_retry
  | manual_review_archived
  | manual_review_approved
  | manual_review_edited_retry
  | manual_review_adopted_retry
  | section_review_complete
  deriving DecidableEq, Repr

/-- A row of audit_log with `target_type = 'knowledge_document'`. -/
structure AuditRow where
  actorUserId : UserId
  action : AuditAction
  targetId : Uuid
  /-- `metadata.versionId`. -/
  versionId : Option Uuid
  deriving DecidableEq, Repr

structure Database where
  nextId : Uuid
  sources : List KnowledgeSource
  documents : List KnowledgeDocument
  versions : List KnowledgeVersion
  originals : List KnowledgeOriginal
  chunks : List KnowledgeChunk
  sections : List SectionRow
  decisions : List DecisionRow
  /-- In the order of `created_at`. -/
  runs : List ReviewRun
  tasks : List BackgroundTask
  audit : List AuditRow

def Database.empty : Database := ⟨0, [], [], [], [], [], [], [], [], [], []⟩

/-! ## 4. Errors -/

inductive KnowledgeError where
  | api (status : Nat) (code message : String)
  /-- An `ApiError` that carries a policy error: its code and its message, extended. -/
  | policy (status : Nat) (code : KnowledgeSourcePolicyCode) (message : String)
  | thrown (message : String)
  | staleWorkerLease (jobId : Uuid)
  | uniqueViolation
  | foreignKeyViolation
  deriving DecidableEq, Repr

/-- `if (condition) throw error`. -/
def throwIf (condition : Bool) (error : KnowledgeError) : Except KnowledgeError Unit :=
  if condition then .error error else .ok ()

theorem throwIf_ok {condition : Bool} {error : KnowledgeError} {u : Unit} :
    throwIf condition error = .ok u ↔ condition = false := by
  cases condition <;> simp [throwIf]

/-- `if (condition) check(…)`. -/
def onlyIf (condition : Bool) (check : Except KnowledgeError Unit) : Except KnowledgeError Unit :=
  if condition then check else .ok ()

/-- A value that must be there. -/
def orThrow {α : Type} (value : Option α) (error : KnowledgeError) : Except KnowledgeError α :=
  match value with
  | some a => .ok a
  | none => .error error

theorem orThrow_ok {α : Type} {value : Option α} {error : KnowledgeError} {a : α} :
    orThrow value error = .ok a ↔ value = some a := by
  cases value <;> simp [orThrow]

/-! ## 5. Statements -/

namespace Database

/-- A new id. -/
def draw (db : Database) : Uuid × Database := (db.nextId, { db with nextId := db.nextId + 1 })

def document (db : Database) (id : Uuid) : Option KnowledgeDocument :=
  db.documents.find? fun d => d.id == id

def version (db : Database) (id : Uuid) : Option KnowledgeVersion :=
  db.versions.find? fun v => v.id == id

def source (db : Database) (id : Option Uuid) : Option KnowledgeSource :=
  id.bind fun id => db.sources.find? fun s => s.id == id

def setDocument (db : Database) (id : Uuid) (f : KnowledgeDocument → KnowledgeDocument) :
    Database :=
  { db with documents := updateWhere (fun d => d.id == id) f db.documents }

def setVersion (db : Database) (id : Uuid) (f : KnowledgeVersion → KnowledgeVersion) : Database :=
  { db with versions := updateWhere (fun v => v.id == id) f db.versions }

def setRun (db : Database) (id : Uuid) (f : ReviewRun → ReviewRun) : Database :=
  { db with runs := updateWhere (fun r => r.id == id) f db.runs }

def setTask (db : Database) (id : Uuid) (f : BackgroundTask → BackgroundTask) : Database :=
  { db with tasks := updateWhere (fun t => t.id == id) f db.tasks }

def insertDocument (db : Database) (d : KnowledgeDocument) : Database :=
  { db with documents := db.documents ++ [d] }

def insertOriginal (db : Database) (o : KnowledgeOriginal) : Database :=
  { db with originals := db.originals ++ [o] }

/-- The published versions of a document are archived. -/
def archivePublished (db : Database) (documentId : Uuid) : Database :=
  { db with
    versions := updateWhere (fun v => v.documentId == documentId && v.status == .published)
      archivedVersion db.versions }

/-- `INSERT INTO knowledge_version`, with the unique index on (document_id, version). -/
def insertVersion (db : Database) (v : KnowledgeVersion) : Except KnowledgeError Database :=
  if db.versions.any fun known => known.documentId == v.documentId && known.version == v.version
  then .error .uniqueViolation
  else .ok { db with versions := db.versions ++ [v] }

/-- `SELECT coalesce(max(version), 0)` of a document. -/
def maxVersion (db : Database) (documentId : Uuid) : Nat :=
  (db.versions.filter fun v => v.documentId == documentId).foldl (fun m v => max m v.version) 0

/-- `INSERT INTO background_task … ON CONFLICT (idempotency_key) DO NOTHING`. -/
def queueTask (db : Database) (key : TaskKey) (payload : KnowledgeIngestionPayload)
    (runAt : Int) : Database :=
  if db.tasks.any fun task => task.idempotencyKey == key then db
  else
    { db with
      nextId := db.nextId + 1
      tasks := db.tasks ++
        [{ id := db.nextId
           idempotencyKey := key
           status := .queued
           payload := payload
           attempts := 0
           maxAttempts := 3
           runAt := runAt
           lockedAt := none
           lockedBy := none
           leaseToken := none }] }

def queuedRun (id : Uuid) (phase : ReviewPhase) (versionId : Uuid) (contentHash model : Text) :
    ReviewRun :=
  { id := id
    phase := phase
    status := .queued
    inputVersionId := versionId
    inputContentHash := contentHash
    model := model
    promptVersion := KNOWLEDGE_AUTOMATION_POLICY_VERSION
    risk := none
    structuredReport := none
    decision := none
    leaseTokenHash := none
    leaseExpiresAt := none
    attempts := 0
    revisedVersionId := none
    completedAt := none }

/-- The rows an inserted run would conflict with. -/
def runConflicts (phase : ReviewPhase) (versionId : Uuid) (contentHash : Text) (r : ReviewRun) :
    Bool :=
  r.phase == phase && r.inputVersionId == versionId && r.inputContentHash == contentHash &&
    r.promptVersion == KNOWLEDGE_AUTOMATION_POLICY_VERSION

/-- `INSERT INTO knowledge_review_run … ON CONFLICT (…) DO NOTHING`. -/
def insertRun (db : Database) (phase : ReviewPhase) (versionId : Uuid)
    (contentHash model : Text) : Database :=
  if db.runs.any (runConflicts phase versionId contentHash) then db
  else
    { db with
      nextId := db.nextId + 1
      runs := db.runs ++ [queuedRun db.nextId phase versionId contentHash model] }

/-- `INSERT INTO knowledge_review_section … ON CONFLICT (version_id, section_index) DO NOTHING`. -/
def insertSections (db : Database) (sections : List KnowledgeReviewSection) : Database :=
  let fresh := sections.filter fun s =>
    !db.sections.any fun known =>
      known.versionId == s.versionId && known.sectionIndex == s.sectionIndex
  { db with
    nextId := db.nextId + fresh.length
    sections := db.sections ++ fresh.zipIdx.map fun s => ⟨s.1, db.nextId + s.2⟩ }

/-- `DELETE FROM knowledge_review_section`; the foreign key takes the decisions along. -/
def deleteSections (db : Database) (versionId : Uuid) : Database :=
  { db with
    sections := deleteWhere (fun s => s.versionId == versionId) db.sections
    decisions := deleteWhere
      (fun d => db.sections.any fun s => s.id == d.sectionId && s.versionId == versionId)
      db.decisions }

def chunkCount (db : Database) (versionId : Uuid) : Nat :=
  db.chunks.countP fun c => c.versionId == versionId

def embeddedChunkCount (db : Database) (versionId : Uuid) : Nat :=
  db.chunks.countP fun c => c.versionId == versionId && c.embedded

/-- The chunks of a version are replaced by `n` embedded ones. -/
def replaceChunks (db : Database) (versionId : Uuid) (n : Nat) : Database :=
  { db with
    chunks := deleteWhere (fun c => c.versionId == versionId) db.chunks ++
      List.replicate n ⟨versionId, true⟩ }

/-- The chunks of a version, once more for another version. -/
def copyChunks (db : Database) (fromVersionId toVersionId : Uuid) : Database :=
  { db with
    chunks := db.chunks ++
      (db.chunks.filter fun c => c.versionId == fromVersionId).map fun c =>
        { c with versionId := toVersionId } }

def writeAudit (db : Database) (actor : UserId) (action : AuditAction) (documentId : Uuid)
    (versionId : Option Uuid) : Database :=
  { db with audit := db.audit ++ [⟨actor, action, documentId, versionId⟩] }

end Database

end OpenVac.KnowledgeBase
