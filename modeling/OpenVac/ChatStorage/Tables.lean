/-
  File:      OpenVac/ChatStorage/Tables.lean
  Subject:   The chat-storage tables of one user (db/schema/chat-storage.ts) and the rows of
             other tables its transactions look at.

  * Every statement of the transactions names the user; other users' rows are not touched, so
    the user id is left out.
  * `ObjectKey` -- an object's key by its parts; the text joins them with `/`, which no id and
    no sanitized filename contains.
  * `Tables.release` -- the decrement of both counters, `GREATEST(counter - bytes, 0)`; the floor
    is a parameter (`greatest` is the source's).
  * `Tables.insertJob` -- `ON CONFLICT (object_key) DO NOTHING`.
-/
import OpenVac.Lib.JsString
import OpenVac.Lib.Machine
import OpenVac.Lib.Rows

namespace OpenVac.ChatStorage

open Rows JsString

/-- An id of `randomUUID`. -/
abbrev Uuid := Nat

/-! ## 1. Enumerations -/

inductive AttachmentKind where
  | document
  | image
  deriving DecidableEq, Repr

inductive AttachmentStatus where
  | initiated
  | uploading
  | scanning
  | processing
  | ready
  | failed
  | deleted
  deriving DecidableEq, Repr

inductive ParseStatus where
  | not_required
  | queued
  | processing
  | ready
  | failed
  deriving DecidableEq, Repr

inductive QuotaState where
  | reserved
  | committed
  | released
  deriving DecidableEq, Repr

inductive DeletionStatus where
  | active
  | queued
  | deleting
  | deleted
  | failed
  deriving DecidableEq, Repr

inductive ArtifactStatus where
  | generating
  | ready
  | failed
  | deleted
  deriving DecidableEq, Repr

inductive ArtifactFormat where
  | md
  | docx
  | pdf
  | csv
  deriving DecidableEq, Repr

inductive ObjectType where
  | attachment
  | artifact
  deriving DecidableEq, Repr

inductive DeletionJobStatus where
  | queued
  | running
  | succeeded
  | failed
  deriving DecidableEq, Repr

/-- `attachmentObjectKey` and `artifactObjectKey`. -/
inductive ObjectKey where
  | attachment (conversationId attachmentId : Uuid) (filename : String)
  | artifact (conversationId artifactId fileId : Uuid) (filename : String)
  deriving DecidableEq, Repr

/-! ## 2. Rows -/

/-- `status <> 'deleted' AND deleted_at IS NULL` is `live`. -/
structure Conversation where
  id : Uuid
  live : Bool
  deriving DecidableEq, Repr

structure Message where
  id : Uuid
  conversationId : Uuid
  /-- `role = 'user'`. -/
  fromUser : Bool
  deriving DecidableEq, Repr

/-- A run with the conversation of its turn and of its assistant message. -/
structure AgentRun where
  id : Uuid
  turnId : Uuid
  assistantMessageId : Uuid
  conversationId : Uuid
  /-- `status IN ('pending', 'running')`. -/
  active : Bool
  deriving DecidableEq, Repr

structure StorageAccount where
  usedBytes : ℤ
  reservedBytes : ℤ
  limitBytes : ℤ
  deriving DecidableEq, Repr

/-- The `parse_` columns. -/
structure ParseColumns where
  status : ParseStatus
  provider : Option String
  jobId : Option String
  attempts : Nat
  maxAttempts : Nat
  pollCount : Nat
  submittedAt : Option Int
  runAt : Int
  lockedAt : Option Int
  lockedBy : Option String
  leaseToken : Option Uuid
  deriving DecidableEq, Repr

structure Attachment where
  id : Uuid
  conversationId : Uuid
  messageId : Option Uuid
  kind : AttachmentKind
  status : AttachmentStatus
  parse : ParseColumns
  quotaState : QuotaState
  deletionStatus : DeletionStatus
  originalFilename : String
  mimeType : String
  declaredSizeBytes : ℤ
  sizeBytes : Option ℤ
  objectKey : ObjectKey
  objectEtag : Option String
  uploadExpiresAt : Int
  orphanExpiresAt : Int
  failureCode : Option String
  failureMessage : Option String
  readyAt : Option Int
  deriving DecidableEq, Repr

/-- Where a passage stands in its document. -/
inductive Locator where
  | page (page : Nat) (characterStart characterEnd : Nat)
  | lines (markdown : Bool) (lineStart lineEnd : Nat)
  | csvRows (rowStart rowEnd : Nat)
  | csvRow (row : Nat)
  deriving DecidableEq, Repr

structure PrivateAttachmentChunk where
  ordinal : Nat
  content : Text
  contentHash : Text
  locator : Locator
  /-- `metadata.parserJobId`. -/
  parserJobId : Option String
  deriving DecidableEq, Repr

/-- A row of `chat_attachment_chunk`. -/
structure ChunkRow where
  attachmentId : Uuid
  chunk : PrivateAttachmentChunk
  deriving DecidableEq, Repr

structure Artifact where
  id : Uuid
  conversationId : Uuid
  messageId : Option Uuid
  sourceTurnId : Uuid
  status : ArtifactStatus
  /-- `spec -> 'formats'`. -/
  formats : List ArtifactFormat
  readyAt : Option Int
  deletedAt : Option Int
  deriving DecidableEq, Repr

structure ArtifactFile where
  id : Uuid
  artifactId : Uuid
  format : ArtifactFormat
  filename : String
  sizeBytes : ℤ
  objectKey : ObjectKey
  quotaState : QuotaState
  deletionStatus : DeletionStatus
  createdAt : Int
  deletedAt : Option Int
  deriving DecidableEq, Repr

structure DeletionJob where
  objectType : ObjectType
  sourceId : Uuid
  objectKey : ObjectKey
  status : DeletionJobStatus
  attempts : Nat
  maxAttempts : Nat
  runAt : Int
  lockedAt : Option Int
  lockedBy : Option String
  leaseToken : Option Uuid
  lastError : Option String
  completedAt : Option Int
  deriving DecidableEq, Repr

structure Tables where
  /-- The user's row exists. -/
  user : Bool
  deletionRequestedAt : Option Int
  conversations : List Conversation
  messages : List Message
  runs : List AgentRun
  account : Option StorageAccount
  attachments : List Attachment
  chunks : List ChunkRow
  artifacts : List Artifact
  files : List ArtifactFile
  jobs : List DeletionJob
  deriving DecidableEq, Repr

def Tables.empty : Tables := ⟨true, none, [], [], [], none, [], [], [], [], []⟩

/-! ## 3. Errors -/

inductive StorageError where
  /-- `notFound`. -/
  | notFound (resource : String)
  | api (status : Nat) (code message : String)
  | quotaExceeded (usedBytes reservedBytes limitBytes : ℤ)
  | thrown (message : String)
  | uniqueViolation
  | checkViolation
  deriving DecidableEq, Repr

/-! ## 4. Statements that several transactions share -/

def MAX_CHAT_STORAGE_BYTES : ℤ := 524288000

/-- The largest attachment the table's CHECK admits. -/
def MAX_ATTACHMENT_BYTES : ℤ := 26214400

/-- `GREATEST(n, 0)`. -/
def greatest (n : ℤ) : ℤ := max n 0

namespace Tables

/-- The user exists and has not asked for the account's deletion. -/
def accountOpen (t : Tables) : Bool := t.user && t.deletionRequestedAt.isNone

def conversationLive (t : Tables) (conversationId : Uuid) : Bool :=
  t.conversations.any fun c => c.id == conversationId && c.live

/-- The account's row after `INSERT … ON CONFLICT (user_id) DO NOTHING`. -/
def accountRow (t : Tables) : StorageAccount := t.account.getD ⟨0, 0, MAX_CHAT_STORAGE_BYTES⟩

/-- `UPDATE chat_storage_account SET …`: nothing without a row. -/
def updateAccount (t : Tables) (f : StorageAccount → StorageAccount) : Tables :=
  { t with account := t.account.map f }

/-- Both counters are decremented, down to the floor. -/
def release (floor : ℤ → ℤ) (t : Tables) (used reserved : ℤ) : Tables :=
  t.updateAccount fun account =>
    { account with
      usedBytes := floor (account.usedBytes - used)
      reservedBytes := floor (account.reservedBytes - reserved) }

def queuedJob (objectType : ObjectType) (sourceId : Uuid) (objectKey : ObjectKey) (runAt : Int) :
    DeletionJob :=
  { objectType := objectType
    sourceId := sourceId
    objectKey := objectKey
    status := .queued
    attempts := 0
    maxAttempts := 5
    runAt := runAt
    lockedAt := none
    lockedBy := none
    leaseToken := none
    lastError := none
    completedAt := none }

def insertJob (t : Tables) (job : DeletionJob) : Tables :=
  if t.jobs.any fun known => known.objectKey == job.objectKey then t
  else { t with jobs := t.jobs ++ [job] }

def insertJobs (t : Tables) (jobs : List DeletionJob) : Tables := jobs.foldl insertJob t

def setAttachment (t : Tables) (id : Uuid) (f : Attachment → Attachment) : Tables :=
  { t with attachments := updateWhere (fun a => a.id == id) f t.attachments }

/-- `DELETE FROM chat_attachment`; the foreign key takes the chunks along. -/
def deleteAttachments (t : Tables) (p : Attachment → Bool) : Tables :=
  { t with
    attachments := deleteWhere p t.attachments
    chunks := deleteWhere
      (fun row => t.attachments.any fun a => a.id == row.attachmentId && p a) t.chunks }

def setArtifact (t : Tables) (id : Uuid) (f : Artifact → Artifact) : Tables :=
  { t with artifacts := updateWhere (fun a => a.id == id) f t.artifacts }

def setFile (t : Tables) (id : Uuid) (f : ArtifactFile → ArtifactFile) : Tables :=
  { t with files := updateWhere (fun file => file.id == id) f t.files }

end Tables

end OpenVac.ChatStorage
