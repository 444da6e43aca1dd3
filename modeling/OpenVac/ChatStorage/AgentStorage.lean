/-
  File:      OpenVac/ChatStorage/AgentStorage.lean
  Subject:   How the agent reads an attachment: `parseAuthorizedAttachment` and `parseChunk` of
             server/chat-attachments/agent-storage.ts.

  * A row is what the authorizing query returns of it; a bigint's text is read as the number.
  * A passage's locator is the one the worker wrote: only that of a page names a page.
  * `attachmentObjectKey_safe` -- a key of the service passes the reader's checks of keys.
-/
import OpenVac.ChatStorage.AttachmentNames

namespace OpenVac.ChatStorage

open JsString JsUrl

def MAX_SAFE_INTEGER : Nat := 9007199254740991

inductive AgentAttachmentStorageErrorCode where
  | ATTACHMENT_STORAGE_INVALID
  | ATTACHMENT_INTEGRITY_MISMATCH
  | ATTACHMENT_STORAGE_READ_ONLY
  deriving DecidableEq, Repr

structure AgentAttachmentStorageError where
  code : AgentAttachmentStorageErrorCode
  message : String
  deriving DecidableEq, Repr

structure AttachmentAccessScope where
  attachmentId : Text
  userId : Text
  conversationId : Text
  messageId : Text
  deriving DecidableEq, Repr

/-- The columns that say whose row it is. -/
structure ScopeColumns where
  attachmentId : Text
  userId : Text
  conversationId : Text
  messageId : Option Text
  kind : AttachmentKind
  deriving DecidableEq, Repr

/-- A row of `AUTHORIZED_ATTACHMENT_SQL`. -/
structure AuthorizedRow where
  scope : ScopeColumns
  originalFilename : Text
  mimeType : Text
  sizeBytes : Option ℤ
  sha256 : Text
  objectKey : Text
  deriving DecidableEq, Repr

/-- A row of `AUTHORIZED_CHUNKS_SQL`. -/
structure AuthorizedChunkRow where
  scope : ScopeColumns
  chunkId : Text
  content : Text
  locator : Locator
  deriving DecidableEq, Repr

structure AuthorizedAttachment where
  scope : AttachmentAccessScope
  kind : AttachmentKind
  filename : Text
  mimeType : Text
  sizeBytes : Nat
  objectKey : Text
  sha256 : Text
  deriving DecidableEq, Repr

structure AttachmentTextChunk where
  chunkId : Text
  attachmentId : Text
  text : Text
  pageNumber : Option Nat
  deriving DecidableEq, Repr

/-! ## 1. The checks -/

def invalidStorage {α : Type} (message : String) : Except AgentAttachmentStorageError α :=
  .error ⟨.ATTACHMENT_STORAGE_INVALID, message⟩

def assertScopeColumns (row : ScopeColumns) (scope : AttachmentAccessScope) :
    Except AgentAttachmentStorageError Unit :=
  if row.attachmentId ≠ scope.attachmentId ∨ row.userId ≠ scope.userId ∨
      row.conversationId ≠ scope.conversationId ∨ row.messageId ≠ some scope.messageId then
    invalidStorage "Attachment authorization result is invalid."
  else .ok ()

def requiredString (value : Text) (field : String) : Except AgentAttachmentStorageError Text :=
  if value.isEmpty ∨ 1024 < utf16Length value then invalidStorage (field ++ " is invalid.")
  else .ok value

/-- `Number(null)` is 0. -/
def positiveInteger (value : Option ℤ) (field : String) : Except AgentAttachmentStorageError Nat :=
  let parsed := value.getD 0
  if parsed < 1 ∨ (MAX_SAFE_INTEGER : ℤ) < parsed then invalidStorage (field ++ " is invalid.")
  else .ok parsed.toNat

/-- `\p{Cc}`. -/
def isControl (c : Char) : Bool := c.toNat ≤ 0x1F || (0x7F ≤ c.toNat && c.toNat ≤ 0x9F)

/-- `/[/\\\p{Cc}]/u`. -/
def hasPathOrControl (filename : Text) : Bool :=
  filename.any fun c => c == '/' || c == '\\' || isControl c

/-- The prefix of attachments, a letter or a digit, then key characters and slashes. -/
def SAFE_OBJECT_KEY (objectKey : Text) : Bool :=
  "private/chat-attachments/".toList.isPrefixOf objectKey &&
    match objectKey.drop "private/chat-attachments/".toList.length with
    | [] => false
    | c :: rest => isAsciiAlphanumeric c && rest.all fun c => isPartChar c || c == '/'

def IMAGE_MIME_TYPES : List String := ["image/jpeg", "image/png"]

def isOneOf (types : List String) (mimeType : Text) : Bool :=
  types.any fun known => known.toList == mimeType

/-- What `parseAuthorizedAttachment` refuses of the columns' values. -/
def invalidMetadata (kind : AttachmentKind) (filename mimeType : Text) (sizeBytes : Nat)
    (sha256 objectKey : Text) : Bool :=
  decide (240 < utf16Length filename) || hasPathOrControl filename ||
    !isOneOf CHAT_ATTACHMENT_MIME_TYPES mimeType ||
    (kind == .image) != isOneOf IMAGE_MIME_TYPES mimeType ||
    decide (MAX_CHAT_ATTACHMENT_BYTES < sizeBytes) || !isSha256Text sha256 ||
    !SAFE_OBJECT_KEY objectKey || includes objectKey "//".toList ||
    (split '/' objectKey).contains "..".toList

def parseAuthorizedAttachment (row : AuthorizedRow) (scope : AttachmentAccessScope) :
    Except AgentAttachmentStorageError AuthorizedAttachment := do
  assertScopeColumns row.scope scope
  let filename ← requiredString row.originalFilename "attachment filename"
  let mimeType ← requiredString row.mimeType "attachment MIME type"
  let sizeBytes ← positiveInteger row.sizeBytes "attachment size"
  let sha256 ← requiredString row.sha256 "attachment SHA-256"
  let objectKey ← requiredString row.objectKey "attachment object key"
  if invalidMetadata row.scope.kind filename mimeType sizeBytes sha256 objectKey then
    invalidStorage "Attachment metadata is invalid."
  else
    .ok ⟨scope, row.scope.kind, filename, mimeType, sizeBytes, objectKey, sha256⟩

def requiredChunkText (value : Text) : Except AgentAttachmentStorageError Text :=
  if value.isEmpty ∨ 8000 < utf16Length value then
    invalidStorage "Attachment chunk content is invalid."
  else .ok value

def pageNumberFromLocator : Locator → Except AgentAttachmentStorageError (Option Nat)
  | .page page _ _ =>
      if MAX_SAFE_INTEGER < page ∨ page < 1 then
        invalidStorage "Attachment chunk page number is invalid."
      else .ok (some page)
  | .lines .. | .csvRows .. | .csvRow _ => .ok none

def parseChunk (row : AuthorizedChunkRow) (scope : AttachmentAccessScope) :
    Except AgentAttachmentStorageError AttachmentTextChunk := do
  assertScopeColumns row.scope scope
  if row.scope.kind ≠ .document then
    invalidStorage "Attachment chunk is not bound to a document."
  let chunkId ← requiredString row.chunkId "attachment chunk id"
  let text ← requiredChunkText row.content
  if 240 < utf16Length chunkId then invalidStorage "Attachment chunk is invalid."
  let pageNumber ← pageNumberFromLocator row.locator
  return ⟨chunkId, scope.attachmentId, text, pageNumber⟩

/-! ## 2. The keys the service makes -/

theorem slash_not_part : isPartChar '/' = false := by decide

section Keys

variable [CaseTables] [Decomposition] [Sha256]

theorem attachmentObjectKey_eq (attachmentId conversationId filename userId : Text) :
    attachmentObjectKey attachmentId conversationId filename userId =
      "private/chat-attachments/".toList ++
        (slice 0 24 (Sha256.hex userId) ++
          (['/'] ++ (conversationId ++ (['/'] ++ (attachmentId ++
            (['/'] ++ sanitizeChatAttachmentFilename filename)))))) := by
  have hprefix : "private/chat-attachments/".toList =
      "private".toList ++ (['/'] ++ ("chat-attachments".toList ++ ['/'])) := by
    decide
  unfold attachmentObjectKey keyParts
  rw [join_cons_cons, join_cons_cons, join_cons_cons, join_cons_cons, join_cons_cons,
    join_singleton, hprefix, List.append_assoc, List.append_assoc, List.append_assoc]

/-- **The reader takes every key the service makes.** -/
theorem attachmentObjectKey_safe {attachmentId conversationId userId : Text}
    (hattachment : KeyPart attachmentId) (hconversation : KeyPart conversationId)
    (hdigest : isSha256Text (Sha256.hex userId) = true) (filename : Text) :
    SAFE_OBJECT_KEY (attachmentObjectKey attachmentId conversationId filename userId) = true ∧
      includes (attachmentObjectKey attachmentId conversationId filename userId) "//".toList =
        false ∧
      (split '/' (attachmentObjectKey attachmentId conversationId filename userId)).contains
        "..".toList = false ∧
      attachmentObjectKey attachmentId conversationId filename userId ≠ [] ∧
      utf16Length (attachmentObjectKey attachmentId conversationId filename userId) ≤ 1024 := by
  obtain ⟨hpartition, head, tail, hhead, halpha⟩ := partition_part hdigest
  have hname := sanitizeChatAttachmentFilename_part filename
  have hparts : ∀ part ∈ keyParts attachmentId conversationId filename userId, KeyPart part := by
    have hprivate : KeyPart "private".toList :=
      keyPart_of_chars (by decide) (by decide) (by decide)
    have hchat : KeyPart "chat-attachments".toList :=
      keyPart_of_chars (by decide) (by decide) (by decide)
    unfold keyParts
    rw [List.forall_mem_cons, List.forall_mem_cons, List.forall_mem_cons, List.forall_mem_cons,
      List.forall_mem_cons, List.forall_mem_singleton]
    exact ⟨hprivate, hchat, hpartition, hconversation, hattachment, hname⟩
  have hchars : ∀ part ∈ keyParts attachmentId conversationId filename userId,
      ∀ c ∈ part, isPartChar c = true :=
    fun part hpart => List.all_eq_true.mp (hparts part hpart).chars
  have hsplit : split '/' (attachmentObjectKey attachmentId conversationId filename userId) =
      keyParts attachmentId conversationId filename userId := by
    refine split_join (List.cons_ne_nil _ _) fun part hpart hslash => ?_
    have hfalse := hchars part hpart _ hslash
    rw [slash_not_part] at hfalse
    nomatch hfalse
  have hkeyChars : ∀ c ∈ attachmentObjectKey attachmentId conversationId filename userId,
      (isPartChar c || c == '/') = true := by
    intro c hc
    rcases mem_join hc with rfl | ⟨part, hpart, hc⟩
    · decide
    · rw [hchars part hpart c hc]
      rfl
  refine ⟨?_, ?_, ?_, ?_, ?_⟩
  · unfold SAFE_OBJECT_KEY
    rw [attachmentObjectKey_eq] at hkeyChars ⊢
    rw [List.drop_left, Bool.and_eq_true]
    refine ⟨List.isPrefixOf_iff_prefix.mpr (List.prefix_append _ _), ?_⟩
    rw [hhead, List.cons_append] at hkeyChars ⊢
    dsimp only
    rw [halpha, Bool.true_and, List.all_eq_true]
    exact fun c hc => hkeyChars c (List.mem_append_right _ (List.mem_cons_of_mem _ hc))
  · rw [Bool.eq_false_iff]
    intro hdouble
    have hempty := @nil_mem_split '/' _ hdouble
    rw [hsplit] at hempty
    exact (hparts [] hempty).nonempty rfl
  · rw [Bool.eq_false_iff]
    intro hup
    rw [hsplit] at hup
    exact (hparts _ (List.contains_iff_mem.mp hup)).not_up rfl
  · rw [attachmentObjectKey_eq]
    exact List.append_ne_nil_of_left_ne_nil (by decide) _
  · have hplain : (attachmentObjectKey attachmentId conversationId filename userId).all isPlain =
        true := by
      rw [List.all_eq_true]
      intro c hc
      have hchar := hkeyChars c hc
      rw [Bool.or_eq_true, beq_iff_eq] at hchar
      rcases hchar with hpart | rfl
      · exact isPlain_of_part hpart
      · decide
    rw [utf16Length_of_plain hplain, attachmentObjectKey_eq]
    have hprefix : "private/chat-attachments/".toList.length = 25 := by decide
    have h1 := hpartition.length_le
    have h2 := hconversation.length_le
    have h3 := hattachment.length_le
    have h4 := hname.length_le
    simp only [List.length_append, List.length_singleton, hprefix]
    omega

end Keys

end OpenVac.ChatStorage
