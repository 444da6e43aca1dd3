/-
  File:      OpenVac/ChatStorage/Artifacts.lean
  Subject:   The artifact repository and the cleanup of a failed run's artifacts:
             server/chat-attachments/artifact-storage.ts, server/agent/run-settlement.ts.
-/
import OpenVac.ChatStorage.Tables

namespace OpenVac.ChatStorage

open Rows

structure CreateArtifactInput where
  artifactId : Uuid
  conversationId : Uuid
  runId : Uuid
  assistantMessageId : Uuid
  sourceTurnId : Uuid
  formats : List ArtifactFormat

def createArtifact (input : CreateArtifactInput) (t : Tables) :
    Except StorageError (Artifact × Tables) :=
  if !t.accountOpen then .error (.notFound "会话轮次")
  else if !t.conversationLive input.conversationId then .error (.notFound "会话轮次")
  else
    let scope := t.runs.any fun run =>
      run.id == input.runId && run.turnId == input.sourceTurnId &&
        run.assistantMessageId == input.assistantMessageId && run.active &&
        run.conversationId == input.conversationId
    if !scope then .error (.notFound "会话轮次")
    else if t.artifacts.any fun a => a.id == input.artifactId then .error .uniqueViolation
    else
      let row : Artifact :=
        { id := input.artifactId
          conversationId := input.conversationId
          messageId := some input.assistantMessageId
          sourceTurnId := input.sourceTurnId
          status := .generating
          formats := input.formats
          readyAt := none
          deletedAt := none }
      .ok (row, { t with artifacts := t.artifacts ++ [row] })

structure ReserveFileInput where
  fileId : Uuid
  artifactId : Uuid
  conversationId : Uuid
  format : ArtifactFormat
  filename : String
  sizeBytes : ℤ
  objectKey : ObjectKey

def generatingArtifact (t : Tables) (artifactId : Uuid) : Option Artifact :=
  t.artifacts.find? fun a =>
    a.id == artifactId && a.status == .generating && a.deletedAt.isNone

/-- The row a file starts with. -/
def reservedFile (input : ReserveFileInput) (now : Int) : ArtifactFile :=
  { id := input.fileId
    artifactId := input.artifactId
    format := input.format
    filename := input.filename
    sizeBytes := input.sizeBytes
    objectKey := input.objectKey
    quotaState := .reserved
    deletionStatus := .active
    createdAt := now
    deletedAt := none }

def reserveFile (input : ReserveFileInput) (now : Int) (t : Tables) :
    Except StorageError (Unit × Tables) :=
  if !t.accountOpen then .error (.notFound "产物")
  else if !t.conversationLive input.conversationId then .error (.notFound "产物")
  else
    match generatingArtifact t input.artifactId with
    | none => .error (.notFound "产物")
    | some artifact =>
        if artifact.conversationId ≠ input.conversationId ∨
            !(artifact.formats.contains input.format) then
          .error (.notFound "产物")
        else
          let account := t.accountRow
          if account.usedBytes + account.reservedBytes + input.sizeBytes > account.limitBytes then
            .error (.quotaExceeded account.usedBytes account.reservedBytes account.limitBytes)
          else if t.files.any fun file =>
              file.artifactId == input.artifactId && file.format == input.format then
            .error (.api 409 "ARTIFACT_FORMAT_EXISTS" "该产物格式已经生成。")
          else if input.sizeBytes ≤ 0 || input.sizeBytes > MAX_CHAT_STORAGE_BYTES then
            .error .checkViolation
          else if t.files.any fun file =>
              file.id == input.fileId || file.objectKey == input.objectKey then
            .error .uniqueViolation
          else
            let t :=
              { t with
                files := t.files ++ [reservedFile input now]
                account := some
                  { account with reservedBytes := account.reservedBytes + input.sizeBytes } }
            .ok ((), t.setArtifact input.artifactId fun a => { a with status := .generating })

def commitFile (fileId artifactId : Uuid) (t : Tables) :
    Except StorageError (ArtifactFile × Tables) :=
  match t.files.find? fun file =>
      file.id == fileId && file.artifactId == artifactId && file.quotaState == .reserved &&
        file.deletionStatus == .active && (generatingArtifact t artifactId).isSome with
  | none => .error (.notFound "产物文件")
  | some file =>
      let t := t.updateAccount fun account =>
        { account with
          reservedBytes := account.reservedBytes - file.sizeBytes
          usedBytes := account.usedBytes + file.sizeBytes }
      .ok (file, t.setFile fileId fun file => { file with quotaState := .committed })

/-- `ON CONFLICT (object_key) DO UPDATE`: the deletion is queued anew. -/
def requeueJob (t : Tables) (sourceId : Uuid) (objectKey : ObjectKey) (now : Int) : Tables :=
  if t.jobs.any fun job => job.objectKey == objectKey then
    { t with
      jobs := updateWhere (fun job => job.objectKey == objectKey)
        (fun job =>
          { job with
            sourceId := sourceId
            status := .queued
            attempts := 0
            runAt := now
            lockedAt := none
            lockedBy := none
            leaseToken := none
            lastError := none
            completedAt := none })
        t.jobs }
  else t.insertJob (Tables.queuedJob .artifact sourceId objectKey now)

def abortFile (floor : ℤ → ℤ) (fileId artifactId : Uuid) (objectKey : ObjectKey) (now : Int)
    (t : Tables) : Except StorageError (Unit × Tables) :=
  let failed (t : Tables) : Tables := t.setArtifact artifactId fun a => { a with status := .failed }
  match t.files.find? fun file =>
      file.id == fileId && file.artifactId == artifactId && file.quotaState == .reserved with
  | some file =>
      if file.objectKey ≠ objectKey then
        .error (.thrown "Artifact cleanup object key does not match.")
      else
        let t := t.release floor 0 file.sizeBytes
        let t := requeueJob t fileId objectKey now
        let t :=
          { t with
            files := deleteWhere (fun file => file.id == fileId && file.artifactId == artifactId)
              t.files }
        .ok ((), failed t)
  | none => .ok ((), failed (requeueJob t fileId objectKey now))

def sameFormats (left right : List ArtifactFormat) : Bool :=
  left.length == right.length && left.dedup.length == left.length &&
    left.all fun format => right.contains format

def completeArtifact (artifactId conversationId : Uuid) (now : Int) (t : Tables) :
    Except StorageError (Artifact × Tables) :=
  match generatingArtifact t artifactId with
  | none => .error (.notFound "产物")
  | some artifact =>
      if artifact.conversationId ≠ conversationId ∨ !t.conversationLive conversationId then
        .error (.notFound "产物")
      else
        let files := t.files.filter fun file =>
          file.artifactId == artifactId && file.quotaState == .committed &&
            file.deletionStatus == .active && file.deletedAt.isNone
        if !sameFormats (files.map (·.format)) artifact.formats then
          .error (.api 409 "ARTIFACT_INCOMPLETE" "产物文件尚未全部生成。")
        else
          .ok ({ artifact with status := .ready, readyAt := some now },
            t.setArtifact artifactId fun a => { a with status := .ready, readyAt := some now })

/-- The bytes of the files of one quota state. -/
def fileBytes (quotaState : QuotaState) (files : List ArtifactFile) : ℤ :=
  sumWhere (fun file => file.quotaState == quotaState) (·.sizeBytes) files

/-- The deletion jobs of files. -/
def fileJobs (files : List ArtifactFile) (runAt : ArtifactFile → Int) : List DeletionJob :=
  files.map fun file => Tables.queuedJob .artifact file.id file.objectKey (runAt file)

/-- The object keys whose deletion was queued. -/
def failArtifact (floor : ℤ → ℤ) (artifactId conversationId : Uuid) (now : Int) (t : Tables) :
    Except StorageError (List ObjectKey × Tables) :=
  match t.artifacts.find? fun a =>
      a.id == artifactId && a.conversationId == conversationId && a.deletedAt.isNone with
  | none => .error (.notFound "产物")
  | some artifact =>
      if artifact.status = .deleted then .ok ([], t)
      else
        let files := t.files.filter fun file =>
          file.artifactId == artifactId && file.deletionStatus == .active
        let t := t.insertJobs (fileJobs files fun _ => now)
        let committedBytes := fileBytes .committed files
        let reservedBytes := fileBytes .reserved files
        let t :=
          if committedBytes > 0 ∨ reservedBytes > 0 then
            t.release floor committedBytes reservedBytes
          else t
        let t := { t with files := deleteWhere (fun file => file.artifactId == artifactId) t.files }
        .ok (files.map (·.objectKey),
          { t with
            artifacts := updateWhere (fun a => a.id == artifactId && a.status != .deleted)
              (fun a => { a with status := .failed, readyAt := none }) t.artifacts })

structure CleanupInput where
  runId : Uuid
  conversationId : Uuid
  turnId : Uuid
  assistantMessageId : Uuid

/-- The artifacts of the run, as each statement of the cleanup selects them. -/
def runArtifact (t : Tables) (input : CleanupInput) (a : Artifact) : Bool :=
  (t.runs.any fun run =>
      run.id == input.runId && run.turnId == input.turnId &&
        run.assistantMessageId == input.assistantMessageId) &&
    a.conversationId == input.conversationId && a.sourceTurnId == input.turnId &&
    a.messageId == some input.assistantMessageId && a.status != .deleted && a.deletedAt.isNone

/-- The files of the artifacts a predicate selects. -/
def filesOf (t : Tables) (selected : Artifact → Bool) : List ArtifactFile :=
  t.files.filter fun file => t.artifacts.any fun a => a.id == file.artifactId && selected a

def cleanupRunArtifacts (floor : ℤ → ℤ) (input : CleanupInput) (now : Int) (t : Tables) : Tables :=
  let selected := runArtifact t input
  let files := filesOf t selected
  let counted := files.filter fun file => file.deletionStatus == .active
  let committedBytes := fileBytes .committed counted
  let reservedBytes := fileBytes .reserved counted
  let t :=
    if committedBytes > 0 ∨ reservedBytes > 0 then t.release floor committedBytes reservedBytes
    else t
  let t := t.insertJobs (fileJobs files fun _ => now)
  let t :=
    { t with
      files := deleteWhere
        (fun file => t.artifacts.any fun a => a.id == file.artifactId && selected a) t.files }
  { t with
    artifacts := updateWhere selected (fun a => { a with status := .failed, readyAt := none })
      t.artifacts }

end OpenVac.ChatStorage
