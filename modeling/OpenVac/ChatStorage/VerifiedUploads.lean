/-
  File:      OpenVac/ChatStorage/VerifiedUploads.lean
  Subject:   `ChatAttachmentService.complete` (server/chat-attachments/service.ts): a call verifies
             the bytes in the bucket between two transactions.

  * `assertHeaderBoundUpload`, `assertStoredObjectMetadata`, `assertStoredObjectMatches` -- the
    checks of the service.
  * `CompleteCall` -- a call past `beginCompletion`, by what it does next; `VerifiedUploads.step`
    interleaves its steps with PUTs, deletions and everything else the storage does.
  * The store refuses a PUT to a key that holds an object when the URL's headers ask for that.

  The store and the tables may fail at every step of a call: before the transaction commits, or
  after it, so that the caller does not hear of it; and a call may end with its process.
-/
import OpenVac.ChatStorage.Storage
import OpenVac.Lib.JsUrl
import OpenVac.Lib.Utf8

namespace OpenVac.ChatStorage

open JsString JsUrl

/-- `createHash("sha256").update(bytes).digest("hex")`. -/
class BytesDigest where
  sha256 : List UInt8 → Text

def MAX_CHAT_ATTACHMENT_BYTES : Nat := 26214400

def MAX_CHAT_IMAGE_ATTACHMENT_BYTES : Nat := 10485760

/-! ## 1. Objects and URLs -/

/-- An object of the bucket, with what its PUT said of it. -/
structure StoredBytes where
  bytes : List UInt8
  contentType : Option Text
  metadata : List (Text × Text)
  etag : Option String

/-- What the store says of an object. -/
structure PrivateObjectStat where
  key : ObjectKey
  sizeBytes : Nat
  etag : Option String
  contentType : Option Text
  metadata : List (Text × Text)

def StoredBytes.stat (object : StoredBytes) (key : ObjectKey) : PrivateObjectStat :=
  ⟨key, object.bytes.length, object.etag, object.contentType, object.metadata⟩

/-- `isPut` is `method === "PUT"`. -/
structure PrivateUploadUrl where
  key : ObjectKey
  isPut : Bool
  requiredHeaders : List (Text × Text)
  expiresAt : Int
  deriving DecidableEq

/-- The row of an attachment with its column `sha256`. -/
structure ChatAttachmentTarget where
  row : Attachment
  sha256 : Text

/-- The text of an id; ids are numbers here. -/
def uuidText (id : Uuid) : Text := Nat.toDigits 10 id

/-- `String(n)`. -/
def integerText (n : ℤ) : Text :=
  if n < 0 then '-' :: Nat.toDigits 10 n.natAbs else Nat.toDigits 10 n.natAbs

/-! ## 2. The checks -/

section Checks

variable [CaseTables]

/-- Of several keys that are equal in lower case the last one counts. -/
def lowerCaseRecord (input : List (Text × Text)) : List (Text × Text) :=
  (input.map fun entry => (CaseTables.toLowerCase entry.1, entry.2)).reverse

def header (record : List (Text × Text)) (key : String) : Option Text :=
  (record.find? fun entry => entry.1 == key.toList).map (·.2)

structure ExpectedUpload where
  attachmentId : Uuid
  objectKey : ObjectKey
  mimeType : String
  sizeBytes : ℤ
  sha256 : Text

/-- `assertHeaderBoundUpload` does not throw. -/
def assertHeaderBoundUpload (upload : PrivateUploadUrl) (expected : ExpectedUpload) : Bool :=
  let headers := lowerCaseRecord upload.requiredHeaders
  upload.isPut && upload.key == expected.objectKey &&
    header headers "content-type" == some expected.mimeType.toList &&
    header headers "x-oss-object-acl" == some "private".toList &&
    header headers "x-oss-forbid-overwrite" == some "true".toList &&
    header headers "x-oss-meta-attachment-id" == some (uuidText expected.attachmentId) &&
    header headers "x-oss-meta-size-bytes" == some (integerText expected.sizeBytes) &&
    header headers "x-oss-meta-sha256" == some expected.sha256

/-- The PUT is refused where the key holds an object. -/
def PrivateUploadUrl.forbidsOverwrite (url : PrivateUploadUrl) : Bool :=
  header (lowerCaseRecord url.requiredHeaders) "x-oss-forbid-overwrite" == some "true".toList

/-- `assertStoredObjectMetadata` does not throw. -/
def assertStoredObjectMetadata (target : ChatAttachmentTarget) (stat : PrivateObjectStat) : Bool :=
  let metadata := lowerCaseRecord stat.metadata
  let contentType :=
    stat.contentType.map fun value => CaseTables.toLowerCase (trim ((split ';' value).headD []))
  let maxBytes :=
    if target.row.kind = .image then MAX_CHAT_IMAGE_ATTACHMENT_BYTES else MAX_CHAT_ATTACHMENT_BYTES
  stat.key == target.row.objectKey &&
    (stat.sizeBytes : ℤ) == target.row.declaredSizeBytes &&
    decide (stat.sizeBytes ≤ maxBytes) &&
    contentType == some (CaseTables.toLowerCase target.row.mimeType.toList) &&
    header metadata "attachment-id" == some (uuidText target.row.id) &&
    header metadata "sha256" == some target.sha256 &&
    header metadata "size-bytes" == some (integerText target.row.declaredSizeBytes)

end Checks

def asciiPrefix (bytes : List UInt8) (start : String) : Bool :=
  start.toList.isPrefixOf (bytes.map fun b => Char.ofNat b.toNat)

/-- `new TextDecoder("utf-8", { fatal: true }).decode(bytes)`: nothing for ill-formed bytes, which
    are not those of the text they are read as. -/
def decodeFatal (bytes : List UInt8) : Option Text :=
  let (state, text) := Utf8.decode Utf8.start bytes
  let text := text ++ Utf8.flush state
  if Utf8.encode text = bytes then some (Utf8.dropBom false text).2 else none

/-- Latin-1 reads an ASCII character from its own byte only, so that an archive's names are found
    as they are. -/
def bytesMatchMime (bytes : List UInt8) (mimeType : String) : Bool :=
  if mimeType = "application/pdf" then asciiPrefix bytes "%PDF-"
  else if mimeType = "image/png" then
    ([137, 80, 78, 71, 13, 10, 26, 10] : List UInt8).isPrefixOf bytes
  else if mimeType = "image/jpeg" then ([0xff, 0xd8, 0xff] : List UInt8).isPrefixOf bytes
  else if mimeType =
        "application/vnd.openxmlformats-officedocument.wordprocessingml.document" ∨
      mimeType = "application/vnd.openxmlformats-officedocument.spreadsheetml.sheet" then
    if !([0x50, 0x4b] : List UInt8).isPrefixOf bytes then false
    else
      let archiveIndex := bytes.map fun b => Char.ofNat b.toNat
      if includes mimeType.toList "wordprocessingml".toList then
        includes archiveIndex "word/".toList
      else includes archiveIndex "xl/".toList
  else
    match decodeFatal bytes with
    | some text => !text.isEmpty && !text.contains '\x00'
    | none => false

/-- `assertStoredObjectMatches` does not throw. -/
def assertStoredObjectMatches [CaseTables] [BytesDigest] (target : ChatAttachmentTarget)
    (stat : PrivateObjectStat) (bytes : List UInt8) : Bool :=
  assertStoredObjectMetadata target stat &&
    (bytes.length : ℤ) == target.row.declaredSizeBytes &&
    BytesDigest.sha256 bytes == target.sha256 && bytesMatchMime bytes target.row.mimeType

/-! ## 3. The machine -/

/-- What a call does next. -/
inductive CallPhase where
  | stat
  | read (stat : PrivateObjectStat)
  | commit (sizeBytes : Nat) (etag : Option String)
  | reject (code message : String)
  | reset

/-- A call of `complete` that is past `beginCompletion`. -/
structure CompleteCall where
  target : ChatAttachmentTarget
  phase : CallPhase

structure VerifiedUploads where
  storage : Storage
  /-- The column `sha256` of the attachments. -/
  sha256 : Uuid → Text
  /-- The URLs clients were given. -/
  urls : List PrivateUploadUrl
  objects : ObjectKey → Option StoredBytes
  calls : List CompleteCall

def VerifiedUploads.initial : VerifiedUploads :=
  ⟨.initial, fun _ => [], [], fun _ => none, []⟩

/-- How a transaction ends for its caller. -/
inductive Answer where
  | heard
  /-- It committed, the caller sees an error. -/
  | unheard
  /-- It did not commit. -/
  | failed
  deriving DecidableEq, Repr

inductive VerifiedAction where
  /-- `initiate` of the service, with what the storage provider signed. -/
  | initiate (id conversationId : Uuid) (kind : AttachmentKind) (filename mimeType : String)
      (sizeBytes : ℤ) (sha256 : Text) (startedAt : Int) (upload : PrivateUploadUrl)
  | put (url : PrivateUploadUrl) (object : StoredBytes)
  | begin (id : Uuid) (answer : Answer)
  /-- A step of the call at this place; `answers` is false when the provider fails. -/
  | stat (call : Nat) (answers : Bool)
  | read (call : Nat) (answers : Bool)
  | commit (call : Nat) (answer : Answer)
  | reset (call : Nat) (reaches : Bool)
  | reject (call : Nat) (reaches : Bool)
  /-- The process of the call ends. -/
  | abandon (call : Nat)
  | deletePrivate (claimed : ClaimedDeletion)
  | other (action : Action)

def uploadMismatch : CallPhase :=
  .reject "ATTACHMENT_UPLOAD_MISMATCH" "已上传附件与登记信息不一致，请重新发起上传。"

section Step

variable [Sha256] [CaseTables] [BytesDigest]

namespace VerifiedUploads

def apply (u : VerifiedUploads) (action : Action) : VerifiedUploads :=
  { u with storage := u.storage.step greatest action }

def goOn (u : VerifiedUploads) (call : Nat) (target : ChatAttachmentTarget) (phase : CallPhase) :
    VerifiedUploads :=
  { u with calls := u.calls.set call ⟨target, phase⟩ }

def finish (u : VerifiedUploads) (call : Nat) : VerifiedUploads :=
  { u with calls := u.calls.eraseIdx call }

def initiate (u : VerifiedUploads) (id conversationId : Uuid) (kind : AttachmentKind)
    (filename mimeType : String) (sizeBytes : ℤ) (sha256 : Text) (startedAt : Int)
    (upload : PrivateUploadUrl) : VerifiedUploads :=
  let expected : ExpectedUpload :=
    { attachmentId := id, objectKey := .attachment conversationId id filename
      mimeType := mimeType, sizeBytes := sizeBytes, sha256 := sha256 }
  if id ∈ u.storage.issued ∨ assertHeaderBoundUpload upload expected = false then u
  else
    let u := u.apply (.initiate id conversationId kind filename mimeType sizeBytes startedAt)
    if u.storage.tables.attachments.any fun a => a.id == id then
      { u with sha256 := Function.update u.sha256 id sha256, urls := upload :: u.urls }
    else u

def put (u : VerifiedUploads) (url : PrivateUploadUrl) (object : StoredBytes) : VerifiedUploads :=
  if url ∉ u.urls ∨ url.expiresAt ≤ u.storage.now then u
  else if url.forbidsOverwrite = true ∧ (u.objects url.key).isSome = true then u
  else { u with objects := Function.update u.objects url.key (some object) }

/-- `beginCompletion` comes before the `try`: its errors end the call. -/
def beginCall (u : VerifiedUploads) (id : Uuid) (answer : Answer) : VerifiedUploads :=
  match answer, ChatStorage.beginCompletion id u.storage.tables with
  | .failed, _ => u
  | _, .error _ => u
  | _, .ok ((_, true), _) => u
  | .unheard, .ok ((_, false), _) => u.apply (.beginCompletion id)
  | .heard, .ok ((row, false), _) =>
      let target : ChatAttachmentTarget := { row := row, sha256 := u.sha256 id }
      { u.apply (.beginCompletion id) with calls := u.calls ++ [⟨target, .stat⟩] }

def statCall (u : VerifiedUploads) (call : Nat) (target : ChatAttachmentTarget) (answers : Bool) :
    VerifiedUploads :=
  match answers, u.objects target.row.objectKey with
  | true, some object =>
      let stat := object.stat target.row.objectKey
      if assertStoredObjectMetadata target stat then u.goOn call target (.read stat)
      else u.goOn call target uploadMismatch
  -- `statPrivate` throws, with status 404 where there is no object
  | _, _ => u.goOn call target .reset

def readCall (u : VerifiedUploads) (call : Nat) (target : ChatAttachmentTarget)
    (stat : PrivateObjectStat) (answers : Bool) : VerifiedUploads :=
  match answers, u.objects target.row.objectKey with
  | true, some object =>
      if assertStoredObjectMatches target stat object.bytes then
        u.goOn call target (.commit object.bytes.length stat.etag)
      else u.goOn call target uploadMismatch
  | _, _ => u.goOn call target .reset

def commitCall (u : VerifiedUploads) (call : Nat) (target : ChatAttachmentTarget)
    (sizeBytes : Nat) (etag : Option String) (answer : Answer) : VerifiedUploads :=
  let committed := u.apply (.completeVerified target.row.id sizeBytes etag)
  match answer with
  | .failed => u.goOn call target .reset
  | .unheard => committed.goOn call target .reset
  | .heard =>
      match ChatStorage.completeVerified target.row.id sizeBytes etag u.storage.now
          u.storage.tables with
      | .ok _ => committed.finish call
      -- an `ApiError` rejects the upload, any other error reopens it
      | .error (.api _ code message) => u.goOn call target (.reject code message)
      | .error _ => u.goOn call target .reset

def step (u : VerifiedUploads) : VerifiedAction → VerifiedUploads
  | .initiate id conversationId kind filename mimeType sizeBytes sha256 startedAt upload =>
      u.initiate id conversationId kind filename mimeType sizeBytes sha256 startedAt upload
  | .put url object => u.put url object
  | .begin id answer => u.beginCall id answer
  | .stat call answers =>
      match u.calls[call]? with
      | some ⟨target, .stat⟩ => u.statCall call target answers
      | _ => u
  | .read call answers =>
      match u.calls[call]? with
      | some ⟨target, .read stat⟩ => u.readCall call target stat answers
      | _ => u
  | .commit call answer =>
      match u.calls[call]? with
      | some ⟨target, .commit sizeBytes etag⟩ => u.commitCall call target sizeBytes etag answer
      | _ => u
  | .reset call reaches =>
      match u.calls[call]? with
      | some ⟨target, .reset⟩ =>
          (if reaches then u.apply (.resetCompletion target.row.id) else u).finish call
      | _ => u
  | .reject call reaches =>
      match u.calls[call]? with
      | some ⟨target, .reject code message⟩ =>
          (if reaches then u.apply (.rejectCompletion target.row.id code message) else u).finish
            call
      | _ => u
  | .abandon call => u.finish call
  | .deletePrivate claimed =>
      if claimed ∈ u.storage.deleting then
        { u with objects := Function.update u.objects claimed.objectKey none }
      else u
  -- the steps of an upload are those of its calls
  | .other (.initiate ..) => u
  | .other (.beginCompletion ..) => u
  | .other (.completeVerified ..) => u
  | .other (.resetCompletion ..) => u
  | .other (.rejectCompletion ..) => u
  | .other action => u.apply action

def after (actions : List VerifiedAction) : VerifiedUploads :=
  Machine.run step .initial actions

end VerifiedUploads

end Step

end OpenVac.ChatStorage
