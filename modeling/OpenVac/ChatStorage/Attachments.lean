/-
  File:      OpenVac/ChatStorage/Attachments.lean
  Subject:   The attachment repository: server/chat-attachments/repository.ts.

  * Every transaction is a function to `Except StorageError (result × tables)`; the row locks
    serialise them. `now` is the clock of the transaction.
-/
import OpenVac.ChatStorage.Tables

namespace OpenVac.ChatStorage

open Rows

structure InitiateInput where
  id : Uuid
  conversationId : Uuid
  kind : AttachmentKind
  filename : String
  mimeType : String
  declaredSizeBytes : ℤ
  objectKey : ObjectKey
  uploadExpiresAt : Int
  orphanExpiresAt : Int

/-- The row an upload starts with. -/
def initiatedRow (input : InitiateInput) (now : Int) : Attachment :=
  { id := input.id
    conversationId := input.conversationId
    messageId := none
    kind := input.kind
    status := .initiated
    parse :=
      { status := if input.kind = .image then .not_required else .queued
        provider := none
        jobId := none
        attempts := 0
        maxAttempts := 3
        pollCount := 0
        submittedAt := none
        runAt := now
        lockedAt := none
        lockedBy := none
        leaseToken := none }
    quotaState := .reserved
    deletionStatus := .active
    originalFilename := input.filename
    mimeType := input.mimeType
    declaredSizeBytes := input.declaredSizeBytes
    sizeBytes := none
    objectKey := input.objectKey
    objectEtag := none
    uploadExpiresAt := input.uploadExpiresAt
    orphanExpiresAt := input.orphanExpiresAt
    failureCode := none
    failureMessage := none
    readyAt := none }

def initiate (input : InitiateInput) (now : Int) (t : Tables) :
    Except StorageError (Attachment × Tables) :=
  if !t.accountOpen then .error (.notFound "会话")
  else if !t.conversationLive input.conversationId then .error (.notFound "会话")
  else
    let account := t.accountRow
    if account.usedBytes + account.reservedBytes + input.declaredSizeBytes > account.limitBytes then
      .error (.quotaExceeded account.usedBytes account.reservedBytes account.limitBytes)
    else if input.declaredSizeBytes ≤ 0 || input.declaredSizeBytes > MAX_ATTACHMENT_BYTES then
      .error .checkViolation
    else if t.attachments.any fun a => a.id == input.id || a.objectKey == input.objectKey then
      .error .uniqueViolation
    else
      let row := initiatedRow input now
      .ok (row,
        { t with
          account := some
            { account with reservedBytes := account.reservedBytes + input.declaredSizeBytes }
          attachments := t.attachments ++ [row] })

/-- The attachment, in a conversation that is not deleted. -/
def findTarget (t : Tables) (attachmentId : Uuid) : Option Attachment :=
  t.attachments.find? fun a => a.id == attachmentId && t.conversationLive a.conversationId

def attachmentStateConflict (message : String) : StorageError :=
  .api 409 "ATTACHMENT_STATE_CONFLICT" message

/-- The target and whether it was complete already. -/
def beginCompletion (attachmentId : Uuid) (t : Tables) :
    Except StorageError ((Attachment × Bool) × Tables) :=
  match findTarget t attachmentId with
  | none => .error (.notFound "附件")
  | some target =>
      if target.quotaState = .committed then .ok ((target, true), t)
      else if target.quotaState ≠ .reserved ∨ target.deletionStatus ≠ .active ∨
          !([.initiated, .uploading].contains target.status) then
        .error (attachmentStateConflict
          (if target.status = .scanning then "附件正在校验，请勿重复提交。"
            else "附件当前状态不能完成上传。"))
      else
        .ok (({ target with status := .scanning }, false),
          t.setAttachment attachmentId fun a =>
            { a with status := .scanning, failureCode := none, failureMessage := none })

/-- The attachment while its upload is being verified. -/
def findScanning (t : Tables) (attachmentId : Uuid) : Option Attachment :=
  t.attachments.find? fun a =>
    a.id == attachmentId && a.status == .scanning && a.quotaState == .reserved

def completeVerified (attachmentId : Uuid) (sizeBytes : ℤ) (etag : Option String) (now : Int)
    (t : Tables) : Except StorageError (Option Attachment × Tables) :=
  match t.attachments.find? fun a =>
      a.id == attachmentId && a.status == .scanning && a.quotaState == .reserved &&
        a.deletionStatus == .active with
  | none => .error (attachmentStateConflict "附件状态已变化，请刷新后重试。")
  | some target =>
      if target.declaredSizeBytes ≠ sizeBytes then
        .error (.api 409 "ATTACHMENT_UPLOAD_MISMATCH" "已上传附件的真实大小与登记信息不一致。")
      else
        let t := t.updateAccount fun account =>
          { account with
            reservedBytes := account.reservedBytes - target.declaredSizeBytes
            usedBytes := account.usedBytes + sizeBytes }
        let image := target.kind == .image
        let t := t.setAttachment attachmentId fun a =>
          { a with
            sizeBytes := some sizeBytes
            objectEtag := etag
            quotaState := .committed
            status := if image then .ready else .processing
            parse :=
              { a.parse with
                status := if image then .not_required else .queued
                runAt := now }
            readyAt := if image then some now else none }
        .ok (t.attachments.find? fun a => a.id == attachmentId, t)

def resetCompletion (attachmentId : Uuid) (t : Tables) : Tables :=
  { t with
    attachments := updateWhere
      (fun a => a.id == attachmentId && a.status == .scanning && a.quotaState == .reserved &&
        a.deletionStatus == .active)
      (fun a => { a with status := .initiated }) t.attachments }

def rejectCompletion (attachmentId : Uuid) (code message : String) (now : Int) (t : Tables) :
    Tables :=
  match findScanning t attachmentId with
  | none => t
  | some target =>
      let t := t.updateAccount fun account =>
        { account with reservedBytes := account.reservedBytes - target.declaredSizeBytes }
      let t := t.setAttachment attachmentId fun a =>
        { a with
          status := .failed
          parse := { a.parse with status := .failed }
          quotaState := .released
          deletionStatus := .queued
          failureCode := some code
          failureMessage := some message }
      t.insertJob (Tables.queuedJob .attachment attachmentId target.objectKey now)

/-- What `bindToMessage` locks: ready attachments that are free or bound to this message. -/
def bindable (conversationId messageId : Uuid) (a : Attachment) : Bool :=
  a.conversationId == conversationId && a.quotaState == .committed &&
    a.deletionStatus == .active && a.status == .ready &&
    [.ready, .not_required].contains a.parse.status &&
    (a.messageId.isNone || a.messageId == some messageId)

def bindToMessage (attachmentIds : List Uuid) (conversationId messageId : Uuid) (t : Tables) :
    Except StorageError (List Attachment × Tables) :=
  let ownedMessage := t.messages.any fun m =>
    m.id == messageId && m.conversationId == conversationId && m.fromUser &&
      t.conversationLive conversationId
  if !ownedMessage then .error (.notFound "消息")
  else
    let alreadyBound := t.attachments.filter fun a =>
      a.conversationId == conversationId && a.messageId == some messageId
    let combinedIds := (alreadyBound.map (·.id) ++ attachmentIds).dedup
    if combinedIds.length > 5 then
      .error (.api 422 "ATTACHMENT_BIND_INVALID" "每条消息最多绑定 5 个附件。")
    else
      let locked := t.attachments.filter fun a =>
        attachmentIds.contains a.id && bindable conversationId messageId a
      if locked.length ≠ attachmentIds.length then
        .error (.api 409 "ATTACHMENT_BIND_CONFLICT"
          "附件尚未解析就绪、已绑定其他消息或不属于当前会话。")
      else
        let named (a : Attachment) : Bool :=
          attachmentIds.contains a.id && a.conversationId == conversationId
        let t :=
          { t with
            attachments := updateWhere named (fun a => { a with messageId := some messageId })
              t.attachments }
        .ok (t.attachments.filter named, t)

/-- When the deletion of an object may run: not before its upload URL has expired, as long as
    the upload is still reserved. -/
def deletionRunAt (quotaState : QuotaState) (expiresAt now : Int) : Int :=
  if quotaState = .reserved then expiresAt else now

def deleteUnbound (floor : ℤ → ℤ) (attachmentId : Uuid) (now : Int) (t : Tables) :
    Except StorageError (Unit × Tables) :=
  match t.attachments.find? fun a =>
      a.id == attachmentId && t.conversationLive a.conversationId && a.messageId.isNone &&
        a.deletionStatus == .active with
  | none => .error (.notFound "附件")
  | some target =>
      let t := t.insertJob (Tables.queuedJob .attachment target.id target.objectKey
        (deletionRunAt target.quotaState (target.uploadExpiresAt + 60000) now))
      let t := t.release floor
        (if target.quotaState = .committed then
          target.sizeBytes.getD target.declaredSizeBytes else 0)
        (if target.quotaState = .reserved then target.declaredSizeBytes else 0)
      .ok ((), t.deleteAttachments fun a => a.id == attachmentId)

end OpenVac.ChatStorage
