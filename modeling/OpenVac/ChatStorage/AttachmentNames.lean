/-
  File:      OpenVac/ChatStorage/AttachmentNames.lean
  Subject:   What an upload is called: the request of `ChatAttachmentService.initiate`, the shown
             filename and the object's key (server/chat-attachments/service.ts).

  * `displayFilename` -- the last part of a path, `fileExtension` -- a known extension of it.
  * `sanitizeChatAttachmentFilename`, `attachmentObjectKey` -- what the key is made of.
  * `displayFilename_clean` -- a shown name is not empty and has no slash of either kind.
  * `sanitizeChatAttachmentFilename_part`, `uuid_part`, `partition_part` -- what a key's parts look
    like.
-/
import OpenVac.Agent.AnswerV3
import OpenVac.ChatStorage.VerifiedUploads
import OpenVac.Lib.JsText

namespace OpenVac.ChatStorage

open JsString JsUrl Agent

/-! ## 1. The request -/

def CHAT_ATTACHMENT_MIME_TYPES : List String :=
  ["application/pdf", "application/vnd.openxmlformats-officedocument.wordprocessingml.document",
   "application/vnd.openxmlformats-officedocument.spreadsheetml.sheet", "text/csv", "text/plain",
   "text/markdown", "image/jpeg", "image/png"]

def MIME_BY_EXTENSION : List (String × String) :=
  [("pdf", "application/pdf"),
   ("docx", "application/vnd.openxmlformats-officedocument.wordprocessingml.document"),
   ("xlsx", "application/vnd.openxmlformats-officedocument.spreadsheetml.sheet"),
   ("csv", "text/csv"), ("txt", "text/plain"), ("md", "text/markdown"), ("jpg", "image/jpeg"),
   ("jpeg", "image/jpeg"), ("png", "image/png")]

/-- The names in lower case that `in` finds in every object: they have no content type. -/
def INHERITED_NAMES : List String := ["constructor", "__proto__"]

def isExtension (extension : Text) : Bool :=
  (MIME_BY_EXTENSION.any fun entry => entry.1.toList == extension) ||
    INHERITED_NAMES.any fun name => name.toList == extension

def mimeByExtension (extension : Text) : Option Text :=
  (MIME_BY_EXTENSION.find? fun entry => entry.1.toList == extension).map (·.2.toList)

/-- `filename.replaceAll("\\", "/").split("/")`. -/
def pathSegments (filename : Text) : List Text :=
  split '/' (filename.map fun c => if c = '\\' then '/' else c)

def displayFilename (filename : Text) : Text :=
  ((pathSegments filename).reverse.find? fun segment =>
    !segment.isEmpty && segment != "..".toList).getD "attachment".toList

/-- The text before the last dot and the text behind it; no dot, no parts. -/
def lastDot (base : Text) : Option (Text × Text) :=
  match (split '.' base).reverse with
  | behind :: before :: more => some (join ['.'] (before :: more).reverse, behind)
  | _ => none

section Names

variable [CaseTables]

def fileExtension (filename : Text) : Option Text :=
  match lastDot (displayFilename filename) with
  | none => none
  | some (before, behind) =>
      if before.isEmpty || behind.isEmpty then none
      else
        let extension := CaseTables.toLowerCase behind
        if isExtension extension then some extension else none

structure InitiateChatAttachmentInput where
  conversationId : Text
  filename : Text
  mimeType : Text
  /-- `none` where the number is not finite. -/
  sizeBytes : Option ℚ
  sha256 : Text
  userId : Text

structure ParsedInitiateInput where
  conversationId : Text
  filename : Text
  mimeType : Text
  sizeBytes : Nat
  sha256 : Text
  userId : Text
  deriving DecidableEq

/-- `z.number().int().positive().max(MAX_CHAT_ATTACHMENT_BYTES)`. -/
def sizeSchema (sizeBytes : Option ℚ) : Option Nat :=
  match sizeBytes with
  | some q =>
      if q.den = 1 ∧ 0 < q ∧ q ≤ MAX_CHAT_ATTACHMENT_BYTES then some q.num.toNat else none
  | none => none

/-- `/^[0-9a-f]{64}$/u`. -/
def isSha256Text (s : Text) : Bool :=
  s.length == 64 && s.all fun c => isDigit c || decide ('a' ≤ c ∧ c ≤ 'f')

def isImageType (mimeType : Text) : Bool := "image/".toList.isPrefixOf mimeType

/-- `parseInitiateInput`: `initiateSchema`, and the user. -/
def parseInitiateInput [SchemaLibrary] (input : InitiateChatAttachmentInput) :
    Option ParsedInitiateInput := do
  let filename := trim input.filename
  let sizeBytes ← sizeSchema input.sizeBytes
  if SchemaLibrary.isUuid input.conversationId && 1 ≤ utf16Length filename &&
      utf16Length filename ≤ 255 &&
      (CHAT_ATTACHMENT_MIME_TYPES.any fun known => known.toList == input.mimeType) &&
      isSha256Text input.sha256 &&
      (fileExtension filename).bind mimeByExtension == some input.mimeType &&
      !(isImageType input.mimeType && decide (MAX_CHAT_IMAGE_ATTACHMENT_BYTES < sizeBytes)) then
    return ⟨input.conversationId, filename, input.mimeType, sizeBytes, input.sha256, input.userId⟩
  else none

end Names

/-! ## 2. The key -/

/-- The decomposition of the host: `normalize("NFKD")`. -/
class Decomposition where
  nfkd : Text → Text

def isAsciiAlphanumeric (c : Char) : Bool :=
  isDigit c || decide ('A' ≤ c ∧ c ≤ 'Z') || decide ('a' ≤ c ∧ c ≤ 'z')

/-- The rest of a stem of which a run of other characters was just replaced, or not. -/
def dashesFrom (inRun : Bool) : Text → Text
  | [] => []
  | c :: rest =>
      if isAsciiAlphanumeric c then c :: dashesFrom false rest
      else if inRun then dashesFrom true rest
      else '-' :: dashesFrom true rest

/-- `.replace(/[^A-Za-z0-9]+/gu, "-").replace(/^-+|-+$/gu, "").slice(0, 120)`. -/
def safeStem (stem : Text) : Text :=
  clip 120 (((dashesFrom false stem).dropWhile (· == '-')).rdropWhile (· == '-'))

section Keys

variable [CaseTables] [Decomposition]

def sanitizeChatAttachmentFilename (filename : Text) : Text :=
  let base := Decomposition.nfkd (displayFilename filename)
  let extension := (fileExtension base).getD "bin".toList
  let stem := safeStem (slice 0 (utf16Length base - (utf16Length extension + 1)) base)
  (if stem.isEmpty then "attachment".toList else stem) ++ '.' :: extension

/-- What `attachmentObjectKey` puts between its slashes. -/
def keyParts [Sha256] (attachmentId conversationId filename userId : Text) : List Text :=
  ["private".toList, "chat-attachments".toList, slice 0 24 (Sha256.hex userId), conversationId,
   attachmentId, sanitizeChatAttachmentFilename filename]

def attachmentObjectKey [Sha256] (attachmentId conversationId filename userId : Text) : Text :=
  join ['/'] (keyParts attachmentId conversationId filename userId)

end Keys

/-! ## 3. Shown names -/

/-- **A shown name** is not empty and has no slash. -/
theorem displayFilename_clean (filename : Text) :
    displayFilename filename ≠ [] ∧ '/' ∉ displayFilename filename ∧
      '\\' ∉ displayFilename filename := by
  unfold displayFilename
  cases hfind : (pathSegments filename).reverse.find? fun segment =>
      !segment.isEmpty && segment != "..".toList with
  | none =>
    show "attachment".toList ≠ [] ∧ '/' ∉ "attachment".toList ∧ '\\' ∉ "attachment".toList
    decide
  | some segment =>
    have hcond := List.find?_some hfind
    have hmem := List.mem_reverse.mp (List.mem_of_find?_eq_some hfind)
    simp only [Bool.and_eq_true, Bool.not_eq_true', List.isEmpty_eq_false_iff] at hcond
    refine ⟨hcond.1, not_mem_of_mem_split hmem, fun hc => ?_⟩
    -- the text that is split has no backslash left
    obtain ⟨d, -, hd⟩ := List.mem_map.mp (mem_of_mem_split hmem _ hc)
    split at hd
    · nomatch hd
    · rename_i hne
      exact hne hd

/-! ## 4. Keys -/

/-- A character of a key's part. -/
def isPartChar (c : Char) : Bool := isAsciiAlphanumeric c || c == '.' || c == '_' || c == '-'

theorem isPartChar_of_alphanumeric {c : Char} (h : isAsciiAlphanumeric c = true) :
    isPartChar c = true := by
  simp [isPartChar, h]

theorem isPlain_of_part {c : Char} (h : isPartChar c = true) : isPlain c = true := by
  have hbetween : ∀ {lo hi : Char}, lo ≤ c ∧ c ≤ hi → lo.toNat ≤ c.toNat ∧ c.toNat ≤ hi.toNat :=
    fun h => h
  unfold isPartChar isAsciiAlphanumeric isDigit at h
  simp only [Bool.or_eq_true, decide_eq_true_eq, beq_iff_eq] at h
  simp only [isPlain, Bool.and_eq_true, decide_eq_true_eq]
  rcases h with ((((h | h) | h) | rfl) | rfl) | rfl
  · have h := hbetween h
    simp at h
    omega
  · have h := hbetween h
    simp at h
    omega
  · have h := hbetween h
    simp at h
    omega
  · decide
  · decide
  · decide

theorem dashesFrom_part (inRun : Bool) (s : Text) : (dashesFrom inRun s).all isPartChar = true := by
  induction s generalizing inRun with
  | nil => rfl
  | cons c rest ih =>
    unfold dashesFrom
    split
    · rename_i hc
      rw [List.all_cons, isPartChar_of_alphanumeric hc, ih]
      rfl
    · split
      · exact ih true
      · rw [List.all_cons, ih]
        rfl

theorem safeStem_part (stem : Text) : (safeStem stem).all isPartChar = true := by
  have hsub : (safeStem stem).Sublist (dashesFrom false stem) :=
    (clip_sublist _ _).trans
      ((List.rdropWhile_prefix _ _).sublist.trans (List.dropWhile_suffix _).sublist)
  have hall := List.all_eq_true.mp (dashesFrom_part false stem)
  exact List.all_eq_true.mpr fun c hc => hall c (hsub.subset hc)

theorem isExtension_part {extension : Text} (h : isExtension extension = true) :
    extension.all isPartChar = true ∧ 2 ≤ extension.length ∧ extension.length ≤ 11 := by
  unfold isExtension at h
  rw [Bool.or_eq_true, List.any_eq_true, List.any_eq_true] at h
  rcases h with ⟨entry, hentry, heq⟩ | ⟨name, hname, heq⟩
  · rw [← beq_iff_eq.mp heq]
    have hall : ∀ entry ∈ MIME_BY_EXTENSION, entry.1.toList.all isPartChar = true ∧
        2 ≤ entry.1.toList.length ∧ entry.1.toList.length ≤ 11 := by
      decide
    exact hall entry hentry
  · rw [← beq_iff_eq.mp heq]
    have hall : ∀ name ∈ INHERITED_NAMES, name.toList.all isPartChar = true ∧
        2 ≤ name.toList.length ∧ name.toList.length ≤ 11 := by
      decide
    exact hall name hname

theorem fileExtension_isExtension [CaseTables] {filename extension : Text}
    (h : fileExtension filename = some extension) : isExtension extension = true := by
  unfold fileExtension at h
  cases hdot : lastDot (displayFilename filename) with
  | none =>
    rw [hdot] at h
    nomatch h
  | some parts =>
    rw [hdot] at h
    dsimp only at h
    split at h
    · nomatch h
    · split at h
      · rename_i hknown
        rw [← Option.some.inj h]
        exact hknown
      · nomatch h

/-- What a part of a key is: not empty, not too long, of the characters of a key's parts. -/
structure KeyPart (part : Text) : Prop where
  nonempty : part ≠ []
  not_up : part ≠ "..".toList
  chars : part.all isPartChar = true
  length_le : part.length ≤ 132

section Host

variable [CaseTables] [Decomposition]

/-- **A sanitized name** is a part of a key, whatever the decomposition makes of the name. -/
theorem sanitizeChatAttachmentFilename_part (filename : Text) :
    KeyPart (sanitizeChatAttachmentFilename filename) := by
  unfold sanitizeChatAttachmentFilename
  dsimp only
  generalize Decomposition.nfkd (displayFilename filename) = base
  have hextension : ((fileExtension base).getD "bin".toList).all isPartChar = true ∧
      2 ≤ ((fileExtension base).getD "bin".toList).length ∧
      ((fileExtension base).getD "bin".toList).length ≤ 11 := by
    cases hext : fileExtension base with
    | none => decide
    | some extension => exact isExtension_part (fileExtension_isExtension hext)
  generalize (fileExtension base).getD "bin".toList = extension at hextension ⊢
  obtain ⟨hchars, hlo, hhi⟩ := hextension
  generalize hstem : safeStem (slice 0 (utf16Length base - (utf16Length extension + 1)) base) = stem
  have hpart : stem.all isPartChar = true := hstem ▸ safeStem_part _
  have hplain : stem.all isPlain = true := by
    rw [List.all_eq_true] at hpart ⊢
    intro c hc
    exact isPlain_of_part (hpart c hc)
  have hlength : stem.length ≤ 120 := by
    rw [← utf16Length_of_plain hplain, ← hstem]
    exact utf16Length_clip_le 120 _
  have hname : (if stem.isEmpty then "attachment".toList else stem).all isPartChar = true ∧
      1 ≤ (if stem.isEmpty then "attachment".toList else stem).length ∧
      (if stem.isEmpty then "attachment".toList else stem).length ≤ 120 := by
    cases stem with
    | nil => decide
    | cons c rest => exact ⟨hpart, Nat.succ_pos _, hlength⟩
  generalize (if stem.isEmpty then "attachment".toList else stem) = name at hname ⊢
  obtain ⟨hnchars, hnlo, hnhi⟩ := hname
  have hsize : (name ++ '.' :: extension).length = name.length + (extension.length + 1) := by
    rw [List.length_append, List.length_cons]
  refine ⟨?_, ?_, ?_, ?_⟩
  · intro h
    rw [h, List.length_nil] at hsize
    omega
  · intro h
    rw [h] at hsize
    have htwo : "..".toList.length = 2 := rfl
    omega
  · rw [List.all_append, List.all_cons, hnchars, hchars]
    rfl
  · omega

/-- An id as zod's `uuid()` accepts it. -/
def isUuidText (s : Text) : Bool :=
  s.length == 36 && s.all fun c =>
    isDigit c || decide ('a' ≤ c ∧ c ≤ 'f') || decide ('A' ≤ c ∧ c ≤ 'F') || c == '-'

end Host

theorem keyPart_of_chars {part : Text} (hlength : part.length ≤ 132) (hlo : 3 ≤ part.length)
    (h : part.all isPartChar = true) : KeyPart part := by
  have htwo : "..".toList.length = 2 := rfl
  refine ⟨?_, ?_, h, hlength⟩
  · intro he
    rw [he, List.length_nil] at hlo
    omega
  · intro he
    rw [he] at hlo
    omega

theorem uuid_part {s : Text} (h : isUuidText s = true) : KeyPart s := by
  unfold isUuidText at h
  rw [Bool.and_eq_true, beq_iff_eq] at h
  refine keyPart_of_chars (by omega) (by omega) ?_
  rw [List.all_eq_true]
  intro c hc
  have hchar := List.all_eq_true.mp h.2 c hc
  simp only [Bool.or_eq_true, decide_eq_true_eq, beq_iff_eq] at hchar
  rcases hchar with ((hdigit | ⟨hlo, hhi⟩) | ⟨hlo, hhi⟩) | rfl
  · exact isPartChar_of_alphanumeric (by simp [isAsciiAlphanumeric, hdigit])
  · have hz : c ≤ 'z' := Char.le_trans hhi (by decide)
    exact isPartChar_of_alphanumeric (by simp [isAsciiAlphanumeric, hlo, hz])
  · have hz : c ≤ 'Z' := Char.le_trans hhi (by decide)
    exact isPartChar_of_alphanumeric (by simp [isAsciiAlphanumeric, hlo, hz])
  · decide

theorem randomUuid_text (id : RandomUuid) : isUuidText id.text = true := by
  unfold isUuidText
  rw [id.length_eq, Bool.and_eq_true]
  refine ⟨rfl, ?_⟩
  rw [List.all_eq_true]
  intro c hc
  have hchar := List.all_eq_true.mp id.chars c hc
  rw [Bool.or_eq_true, Bool.or_eq_true] at hchar
  rcases hchar with (h | h) | h <;> simp [h]

theorem alphanumeric_of_sha256 {digest : Text} (h : isSha256Text digest = true) :
    ∀ c ∈ digest, isAsciiAlphanumeric c = true := by
  unfold isSha256Text at h
  rw [Bool.and_eq_true] at h
  intro c hc
  have hchar := List.all_eq_true.mp h.2 c hc
  simp only [Bool.or_eq_true, decide_eq_true_eq] at hchar
  rcases hchar with hdigit | ⟨hlo, hhi⟩
  · simp [isAsciiAlphanumeric, hdigit]
  · have hz : c ≤ 'z' := Char.le_trans hhi (by decide)
    simp [isAsciiAlphanumeric, hlo, hz]

theorem isPlain_of_sha256 {digest : Text} (h : isSha256Text digest = true) {c : Char}
    (hc : c ∈ digest) : isPlain c = true :=
  isPlain_of_part (isPartChar_of_alphanumeric (alphanumeric_of_sha256 h c hc))

/-- The first 24 digits of a digest, which begin with a letter or a digit. -/
theorem partition_part {digest : Text} (h : isSha256Text digest = true) :
    KeyPart (slice 0 24 digest) ∧
      ∃ c rest, slice 0 24 digest = c :: rest ∧ isAsciiAlphanumeric c = true := by
  have hword := alphanumeric_of_sha256 h
  have hplain : digest.all isPlain = true := by
    rw [List.all_eq_true]
    exact fun c hc => isPlain_of_sha256 h hc
  have hlength : digest.length = 64 := by
    unfold isSha256Text at h
    rw [Bool.and_eq_true, beq_iff_eq] at h
    exact h.1
  rw [slice_of_plain hplain, List.drop_zero]
  constructor
  · have htake : (digest.take 24).length = 24 := by
      rw [List.length_take, hlength]
      rfl
    refine keyPart_of_chars (by omega) (by omega) ?_
    rw [List.all_eq_true]
    exact fun c hc => isPartChar_of_alphanumeric (hword c (List.mem_of_mem_take hc))
  · cases digest with
    | nil => nomatch hlength
    | cons c rest => exact ⟨c, rest.take 23, rfl, hword c List.mem_cons_self⟩

end OpenVac.ChatStorage
