/-
  File:      OpenVac/ChatStorage/ParseJobs.lean
  Subject:   The parse jobs of attachments: the lease operations and the save of
             worker/chat-storage.ts.

  * A claim writes a fresh lease token; every other operation names the job's worker and token
    in its WHERE clause and throws where no row matches (`leasedParse`).
  * `saveChunksAndComplete` is one transaction; a thrown error leaves the tables as they were.
-/
import OpenVac.ChatStorage.Chunks
import OpenVac.ChatStorage.Deletion

namespace OpenVac.ChatStorage

open Rows JsString

/-- A claimed job, as the worker holds it. -/
structure ChatAttachmentParseJob where
  id : Uuid
  objectKey : ObjectKey
  filename : String
  mimeType : String
  parserJobId : Option String
  parserPollCount : Nat
  parserSubmittedAt : Option Int
  attempts : Nat
  maxAttempts : Nat
  workerId : String
  leaseToken : Uuid
  deriving DecidableEq, Repr

/-- The candidates of `CLAIM_ATTACHMENT_PARSE_SQL`. -/
def parseClaimable (now : Int) (a : Attachment) : Bool :=
  a.kind == .document && a.quotaState == .committed && a.deletionStatus == .active &&
    a.status == .processing &&
    ((a.parse.status == .queued && decide (a.parse.runAt ≤ now)) ||
      (a.parse.status == .processing &&
        match a.parse.lockedAt with
        | some lockedAt => decide (lockedAt < now - LEASE_TIMEOUT_MS)
        | none => false))

/-- The row of a claimed job. -/
def claimedRow (workerId : String) (leaseToken : Uuid) (now : Int) (a : Attachment) : Attachment :=
  { a with
    parse :=
      { a.parse with
        status := .processing
        attempts := a.parse.attempts + 1
        lockedAt := some now
        lockedBy := some workerId
        leaseToken := some leaseToken } }

/-- `parseAttachmentJob` of the returned row. -/
def parseAttachmentJob (workerId : String) (leaseToken : Uuid) (a : Attachment) :
    ChatAttachmentParseJob :=
  { id := a.id
    objectKey := a.objectKey
    filename := a.originalFilename
    mimeType := a.mimeType
    parserJobId := a.parse.jobId
    parserPollCount := a.parse.pollCount
    parserSubmittedAt := a.parse.submittedAt
    attempts := a.parse.attempts
    maxAttempts := a.parse.maxAttempts
    workerId := workerId
    leaseToken := leaseToken }

/-- The order and `SKIP LOCKED` decide which candidate is taken. -/
def claimAttachmentParse (id : Uuid) (workerId : String) (leaseToken : Uuid) (now : Int)
    (t : Tables) : Option ChatAttachmentParseJob × Tables :=
  match t.attachments.find? fun a => a.id == id && parseClaimable now a with
  | none => (none, t)
  | some a =>
      (some (parseAttachmentJob workerId leaseToken (claimedRow workerId leaseToken now a)),
        t.setAttachment id (claimedRow workerId leaseToken now))

/-- The row of a job under its lease: what every WHERE clause below asks for. -/
def leasedParse (job : ChatAttachmentParseJob) (a : Attachment) : Bool :=
  a.id == job.id && a.parse.status == .processing && a.parse.lockedBy == some job.workerId &&
    a.parse.leaseToken == some job.leaseToken

def staleParseLease : StorageError := .thrown "attachment parse lease is no longer current."

/-- `UPDATE chat_attachment SET … WHERE …`, then `assertLease`. -/
def updateLeased (job : ChatAttachmentParseJob) (f : Attachment → Attachment) (t : Tables) :
    Except StorageError (Unit × Tables) :=
  if t.attachments.any (leasedParse job) then
    .ok ((), { t with attachments := updateWhere (leasedParse job) f t.attachments })
  else .error staleParseLease

/-- The lock columns are cleared. -/
def unlocked (p : ParseColumns) : ParseColumns :=
  { p with lockedAt := none, lockedBy := none, leaseToken := none }

def renewAttachmentLease (job : ChatAttachmentParseJob) (now : Int) :
    Tables → Except StorageError (Unit × Tables) :=
  updateLeased job fun a => { a with parse := { a.parse with lockedAt := some now } }

def markParserSubmitted (job : ChatAttachmentParseJob) (parserJobId provider : String)
    (retryAt now : Int) : Tables → Except StorageError (Unit × Tables) :=
  updateLeased job fun a =>
    { a with
      parse := unlocked
        { a.parse with
          status := .queued
          provider := some provider
          jobId := some parserJobId
          runAt := retryAt
          pollCount := 0
          submittedAt := some now
          attempts := a.parse.attempts - 1 } }

def deferParserPoll (job : ChatAttachmentParseJob) (retryAt : Int) :
    Tables → Except StorageError (Unit × Tables) :=
  updateLeased job fun a =>
    { a with
      parse := unlocked
        { a.parse with
          status := .queued
          runAt := retryAt
          pollCount := a.parse.pollCount + 1
          attempts := a.parse.attempts - 1 } }

/-- `INSERT INTO chat_attachment_chunk`: the unique index and the CHECK of the table. -/
def insertChunks (id : Uuid) (chunks : List PrivateAttachmentChunk) (t : Tables) :
    Except StorageError Tables :=
  if (chunks.map (·.ordinal)).dedup.length ≠ chunks.length ∨
      (chunks.any fun chunk => t.chunks.any fun row =>
        row.attachmentId == id && row.chunk.ordinal == chunk.ordinal) then
    .error .uniqueViolation
  else if chunks.any fun chunk => chunk.content.isEmpty then .error .checkViolation
  else .ok { t with chunks := t.chunks ++ chunks.map fun chunk => ⟨id, chunk⟩ }

def saveChunksAndComplete (job : ChatAttachmentParseJob) (chunks : List PrivateAttachmentChunk)
    (provider : String) (now : Int) (t : Tables) : Except StorageError (Unit × Tables) :=
  if chunks.length < 1 ∨ chunks.length > MAX_CHUNKS then
    .error (.thrown "Attachment parser returned an invalid chunk count.")
  else if !t.attachments.any (leasedParse job) then .error staleParseLease
  else do
    let t := { t with chunks := deleteWhere (fun row => row.attachmentId == job.id) t.chunks }
    let t ← insertChunks job.id chunks t
    updateLeased job
      (fun a =>
        { a with
          status := .ready
          parse := unlocked { a.parse with status := .ready, provider := some provider }
          failureCode := none
          failureMessage := none
          readyAt := some now }) t

/-- `retryable` is false for a provider's error that says so. -/
def markAttachmentFailed (job : ChatAttachmentParseJob) (retryable : Bool) (retryAt : Int) :
    Tables → Except StorageError (Unit × Tables) :=
  let terminal := job.attempts ≥ job.maxAttempts || !retryable
  updateLeased job fun a =>
    { a with
      status := if terminal then .failed else .processing
      parse := unlocked
        { a.parse with
          status := if terminal then .failed else .queued
          runAt := retryAt }
      failureCode := if terminal then some "ATTACHMENT_PARSE_FAILED" else none
      failureMessage :=
        if terminal then some "附件解析失败，请重新上传或更换文件格式。" else none }

end OpenVac.ChatStorage
