/-
  File:      OpenVac/ChatStorage/Deletion.lean
  Subject:   Removing storage: server/chat-attachments/deletion.ts with its callers in
             server/api/store.ts and server/auth/account-cleanup.ts, and the orphan queue and
             the deletion jobs of worker/chat-storage.ts.

  * `clearConversationData` is one transaction here; statement by statement it is in Clearing.
  * `deleteUser` -- the account's row goes after `prepareUserDeletion`; the foreign keys take the
    user's rows along, the deletion jobs stay.
-/
import OpenVac.ChatStorage.Artifacts
import OpenVac.ChatStorage.Attachments

namespace OpenVac.ChatStorage

open Rows

structure ChatStorageDeletionSummary where
  attachmentsDeleted : Nat
  artifactsDeleted : Nat
  objectsQueued : Nat
  committedBytesReleased : ℤ
  reservedBytesReleased : ℤ
  deriving DecidableEq, Repr

/-- The filter on a conversation: no ids mean every conversation. -/
def conversationFilter (conversationIds : List Uuid) (conversationId : Uuid) : Bool :=
  conversationIds.isEmpty || conversationIds.contains conversationId

def attachmentJobs (attachments : List Attachment) (now : Int) : List DeletionJob :=
  attachments.map fun a => Tables.queuedJob .attachment a.id a.objectKey
    (deletionRunAt a.quotaState (a.uploadExpiresAt + 60000) now)

def committedAttachmentBytes (attachments : List Attachment) : ℤ :=
  sumWhere (fun a => a.quotaState == .committed) (fun a => a.sizeBytes.getD 0) attachments

def reservedAttachmentBytes (attachments : List Attachment) : ℤ :=
  sumWhere (fun a => a.quotaState == .reserved) (·.declaredSizeBytes) attachments

def enqueueConversationStorageDeletion (floor : ℤ → ℤ) (conversationIds : List Uuid)
    (deleteMetadata : Bool) (now : Int) (t : Tables) : ChatStorageDeletionSummary × Tables :=
  let attachments := t.attachments.filter fun a =>
    conversationFilter conversationIds a.conversationId
  let selected (a : Artifact) : Bool := conversationFilter conversationIds a.conversationId
  let artifacts := t.artifacts.filter selected
  let files := filesOf t selected
  let jobs := attachmentJobs attachments now ++
    fileJobs files fun file => deletionRunAt file.quotaState (file.createdAt + 3600000) now
  let t := t.insertJobs jobs
  let committedBytes := committedAttachmentBytes attachments + fileBytes .committed files
  let reservedBytes := reservedAttachmentBytes attachments + fileBytes .reserved files
  let removing :=
    deleteMetadata && !(attachments.isEmpty && artifacts.isEmpty && files.isEmpty)
  let t :=
    if removing then
      let t := t.release floor committedBytes reservedBytes
      let attachmentIds := attachments.map (·.id)
      let artifactIds := artifacts.map (·.id)
      let t := t.deleteAttachments fun a => attachmentIds.contains a.id
      { t with
        artifacts := deleteWhere (fun a => artifactIds.contains a.id) t.artifacts
        -- the foreign key takes the files along
        files := deleteWhere (fun file => artifactIds.contains file.artifactId) t.files }
    else t
  ({ attachmentsDeleted := if deleteMetadata then attachments.length else 0
     artifactsDeleted := if deleteMetadata then artifacts.length else 0
     objectsQueued := jobs.length
     committedBytesReleased := if deleteMetadata then committedBytes else 0
     reservedBytesReleased := if deleteMetadata then reservedBytes else 0 }, t)

/-! ## 1. Conversations -/

/-- The conversation is marked as deleted and its storage removed; `none` where it was not live. -/
def deleteConversation (floor : ℤ → ℤ) (conversationId : Uuid) (now : Int) (t : Tables) :
    Option ChatStorageDeletionSummary × Tables :=
  if !t.conversationLive conversationId then (none, t)
  else
    let t :=
      { t with
        conversations := updateWhere (fun c => c.id == conversationId)
          (fun c => { c with live := false }) t.conversations }
    let (summary, t) := enqueueConversationStorageDeletion floor [conversationId] true now t
    (some summary, t)

/-- `DELETE FROM conversation WHERE …` with what the foreign keys take along. -/
def deleteConversations (p : Uuid → Bool) (t : Tables) : Tables :=
  let t := t.deleteAttachments fun a => p a.conversationId
  { t with
    conversations := deleteWhere (fun c => p c.id) t.conversations
    messages := deleteWhere (fun m => p m.conversationId) t.messages
    runs := deleteWhere (fun run => p run.conversationId) t.runs
    artifacts := deleteWhere (fun a => p a.conversationId) t.artifacts
    files := deleteWhere
      (fun file => t.artifacts.any fun a => a.id == file.artifactId && p a.conversationId) t.files }

def clearConversationData (floor : ℤ → ℤ) (now : Int) (t : Tables) :
    ChatStorageDeletionSummary × Tables :=
  let conversationIds := t.conversations.map (·.id)
  let (summary, t) := enqueueConversationStorageDeletion floor conversationIds true now t
  (summary, if conversationIds.isEmpty then t else deleteConversations (fun _ => true) t)

/-! ## 2. The account -/

/-- What `prepareUserDeletion` does to the chat storage: the deletions are queued, the rows stay
    until the account's row goes. -/
def prepareUserDeletion (now : Int) (t : Tables) : Tables :=
  if !t.user then t
  else
    let t := (enqueueConversationStorageDeletion greatest [] false now t).2
    { t with deletionRequestedAt := some (t.deletionRequestedAt.getD now) }

/-- The account's row is deleted, after the hook. -/
def deleteUser (t : Tables) : Tables :=
  if t.deletionRequestedAt.isNone then t
  else
    { t with
      user := false
      conversations := []
      messages := []
      runs := []
      account := none
      attachments := []
      chunks := []
      artifacts := []
      files := [] }

/-! ## 3. Expired uploads -/

/-- One expired attachment. -/
def expireOrphan (floor : ℤ → ℤ) (now : Int) (t : Tables) (row : Attachment) : Tables :=
  let t := t.insertJob (Tables.queuedJob .attachment row.id row.objectKey now)
  let t := t.release floor
    (if row.quotaState = .committed then row.sizeBytes.getD 0 else 0)
    (if row.quotaState = .reserved then row.declaredSizeBytes else 0)
  t.deleteAttachments fun a => a.id == row.id

/-- The attachments the query may pick. -/
def isExpiredOrphan (now : Int) (a : Attachment) : Bool :=
  a.messageId.isNone && a.deletionStatus == .active && decide (a.orphanExpiresAt ≤ now)

/-- `LIMIT` and `SKIP LOCKED` decide which of the expired attachments are picked. -/
def enqueueExpiredOrphans (floor : ℤ → ℤ) (picked : List Uuid) (now : Int) (t : Tables) :
    Nat × Tables :=
  let rows := t.attachments.filter fun a => picked.contains a.id && isExpiredOrphan now a
  (rows.length, rows.foldl (expireOrphan floor now) t)

/-! ## 4. The worker's deletion jobs -/

/-- A lease is given up after a quarter of an hour. -/
def LEASE_TIMEOUT_MS : Int := 900000

/-- A claimed job, as the worker holds it. -/
structure ClaimedDeletion where
  objectKey : ObjectKey
  attempts : Nat
  maxAttempts : Nat
  workerId : String
  leaseToken : Uuid
  deriving DecidableEq, Repr

def deletionClaimable (now : Int) (job : DeletionJob) : Bool :=
  (job.status == .queued && decide (job.runAt ≤ now)) ||
    (job.status == .running &&
      match job.lockedAt with
      | some lockedAt => decide (lockedAt < now - LEASE_TIMEOUT_MS)
      | none => false)

/-- The order and `SKIP LOCKED` decide which claimable job is taken. -/
def claimDeletion (objectKey : ObjectKey) (workerId : String) (leaseToken : Uuid) (now : Int)
    (t : Tables) : Option ClaimedDeletion × Tables :=
  match t.jobs.find? fun job => job.objectKey == objectKey && deletionClaimable now job with
  | none => (none, t)
  | some job =>
      (some ⟨objectKey, job.attempts + 1, job.maxAttempts, workerId, leaseToken⟩,
        { t with
          jobs := updateWhere (fun job => job.objectKey == objectKey)
            (fun job =>
              { job with
                status := .running
                attempts := job.attempts + 1
                lockedAt := some now
                lockedBy := some workerId
                leaseToken := some leaseToken })
            t.jobs })

/-- The row of a job under the worker's lease. -/
def leasedDeletion (claimed : ClaimedDeletion) (job : DeletionJob) : Bool :=
  job.objectKey == claimed.objectKey && job.status == .running &&
    job.lockedBy == some claimed.workerId && job.leaseToken == some claimed.leaseToken

def staleDeletionLease : StorageError := .thrown "storage deletion lease is no longer current."

def markDeletionSucceeded (claimed : ClaimedDeletion) (now : Int) (t : Tables) :
    Except StorageError (Unit × Tables) :=
  if !t.jobs.any (leasedDeletion claimed) then .error staleDeletionLease
  else
    .ok ((),
      { t with
        jobs := updateWhere (leasedDeletion claimed)
          (fun job =>
            { job with
              status := .succeeded
              completedAt := some now
              lastError := none
              lockedAt := none
              lockedBy := none
              leaseToken := none })
          t.jobs })

/-- `retryable` is false for a provider's error that says so. -/
def markDeletionFailed (claimed : ClaimedDeletion) (message : String) (retryable : Bool)
    (retryAt now : Int) (t : Tables) : Except StorageError (Unit × Tables) :=
  let terminal := claimed.attempts ≥ claimed.maxAttempts || !retryable
  if !t.jobs.any (leasedDeletion claimed) then .error staleDeletionLease
  else
    .ok ((),
      { t with
        jobs := updateWhere (leasedDeletion claimed)
          (fun job =>
            { job with
              status := if terminal then .failed else .queued
              runAt := retryAt
              lastError := some message
              completedAt := if terminal then some now else none
              lockedAt := none
              lockedBy := none
              leaseToken := none })
          t.jobs })

end OpenVac.ChatStorage
