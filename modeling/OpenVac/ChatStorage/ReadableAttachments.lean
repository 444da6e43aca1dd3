/-
  File:      OpenVac/ChatStorage/ReadableAttachments.lean
  Subject:   Does the agent read every attachment the service has accepted?

  * `Requests` -- the texts behind a run: every upload was initiated by an accepted request.
  * `step_origin`, `after_origin` -- a row says of its file what its request said, and a committed
    row has the size it declared.
  * `parseAuthorizedAttachment_named` -- of all the reader's checks only those of the name are not
    implied by the service's.
  * `readable_attachments` -- the row and its passages are read exactly if the shown name has at
    most 240 units and no control character.
-/
import OpenVac.ChatStorage.ReadableChunks
import OpenVac.ChatStorage.VerifiedBytes

namespace OpenVac.ChatStorage

open Rows JsString JsUrl Agent

/-! ## 1. Rows and their requests -/

def kindOf (mimeType : Text) : AttachmentKind := if isImageType mimeType then .image else .document

/-- The texts behind a run: the user's, those of the ids, and the request of each upload. -/
structure Requests where
  userId : Text
  uuid : Uuid → RandomUuid
  input : Uuid → InitiateChatAttachmentInput

namespace Requests

variable [SchemaLibrary] [CaseTables]

/-- The service initiates the uploads of the run, each for a request it accepts. -/
def Behind (r : Requests) (actions : List Action) : Prop :=
  ∀ id conversationId kind filename mimeType sizeBytes startedAt,
    Action.initiate id conversationId kind filename mimeType sizeBytes startedAt ∈ actions →
    ∃ parsed, parseInitiateInput (r.input id) = some parsed ∧ kind = kindOf parsed.mimeType ∧
      filename.toList = displayFilename parsed.filename ∧ mimeType.toList = parsed.mimeType ∧
      sizeBytes = parsed.sizeBytes

end Requests

section Rows

variable (r : Requests) (a : Attachment)

/-- The scope of a row that is bound to a message. -/
def Requests.scope (messageId : Uuid) : AttachmentAccessScope :=
  ⟨(r.uuid a.id).text, r.userId, (r.uuid a.conversationId).text, (r.uuid messageId).text⟩

def Requests.scopeColumns : ScopeColumns :=
  ⟨(r.uuid a.id).text, r.userId, (r.uuid a.conversationId).text,
    a.messageId.map fun messageId => (r.uuid messageId).text, a.kind⟩

/-- The row as the agent's query returns it. -/
def Requests.authorizedRow [CaseTables] [Decomposition] [Sha256] : AuthorizedRow :=
  { scope := r.scopeColumns a
    originalFilename := a.originalFilename.toList
    mimeType := a.mimeType.toList
    sizeBytes := a.sizeBytes
    sha256 := (r.input a.id).sha256
    objectKey := attachmentObjectKey (r.uuid a.id).text (r.input a.id).conversationId
      a.originalFilename.toList r.userId }

def Requests.chunkRow (chunkId : RandomUuid) (chunk : PrivateAttachmentChunk) :
    AuthorizedChunkRow :=
  ⟨r.scopeColumns a, chunkId.text, chunk.content, chunk.locator⟩

end Rows

/-- The passages the agent's queries return: those of a parsed document. -/
def authorizedChunks (t : Tables) (a : Attachment) : List PrivateAttachmentChunk :=
  if a.kind = .document ∧ a.parse.status = .ready then t.passagesOf a.id else []

/-! ## 2. What a row says of its file -/

/-- A committed row has the size it declared. -/
def Attachment.Sized (a : Attachment) : Prop :=
  a.quotaState = .committed → a.sizeBytes = some a.declaredSizeBytes

/-- A row and the row it was before: the same file. -/
structure Attachment.SameFile (a a' : Attachment) : Prop where
  id : a'.id = a.id
  declared : a'.declaredSizeBytes = a.declaredSizeBytes
  origin : a'.origin = a.origin
  sized : a.Sized → a'.Sized

theorem Attachment.Stays.sameFile {a a' : Attachment} (h : a.Stays a') : a.SameFile a' where
  id := h.id
  declared := h.declared
  origin := h.origin
  sized := fun hs hc => by
    rw [h.size, h.declared]
    exact hs (h.committed hc)

theorem completeVerified_sameFile {t t' : Tables} (hw : WellFormed t) {id : Uuid} {sizeBytes : ℤ}
    {etag : Option String} {now : Int} {result : Option Attachment}
    (h : completeVerified id sizeBytes etag now t = .ok (result, t')) {a' : Attachment}
    (ha : a' ∈ t'.attachments) : ∃ a ∈ t.attachments, a.SameFile a' := by
  unfold completeVerified at h
  split at h
  · nomatch h
  · next target hfind =>
    split at h
    · nomatch h
    · next hsize =>
      rw [not_not] at hsize
      obtain rfl := congrArg Prod.snd (Except.ok.inj h)
      obtain ⟨a, hmem, rfl⟩ := mem_updateWhere.mp ha
      refine ⟨a, hmem, ?_⟩
      by_cases hid : (a.id == id) = true
      · rw [if_pos hid]
        have hcond := List.find?_some hfind
        simp only [Bool.and_eq_true, beq_iff_eq] at hcond
        have hsame := hw.attachmentIds.eq hmem (List.mem_of_find?_eq_some hfind)
          ((beq_iff_eq.mp hid).trans hcond.1.1.1.symm)
        refine ⟨rfl, rfl, rfl, fun _ _ => ?_⟩
        show some sizeBytes = some a.declaredSizeBytes
        rw [hsame, hsize]
      · rw [if_neg hid]
        exact ⟨rfl, rfl, rfl, fun hs => hs⟩

section Steps

variable [JsString.Sha256]

/-- **One step**: a row is the file it was, or its upload begins. -/
theorem step_origin {s : Storage} (hs : Sound s) (action : Action) {a' : Attachment}
    (ha : a' ∈ (s.step greatest action).tables.attachments) :
    (∃ a ∈ s.tables.attachments, a.SameFile a') ∨
      ∃ startedAt, a'.quotaState = .reserved ∧
        action = .initiate a'.id a'.conversationId a'.kind a'.originalFilename a'.mimeType
          a'.declaredSizeBytes startedAt := by
  have hsame : ∀ {t : Tables}, (∃ a ∈ t.attachments, a.Stays a') →
      ∃ a ∈ t.attachments, a.SameFile a' := by
    rintro t ⟨a, hmem, hstays⟩
    exact ⟨a, hmem, hstays.sameFile⟩
  cases hmoves : action.movesUpload with
  | false => exact Or.inl (hsame (step_stays hs hmoves a' ha))
  | true =>
    cases action with
    | initiate id conversationId kind filename mimeType sizeBytes startedAt =>
      unfold Storage.step Storage.transact at ha
      dsimp only at ha
      split at ha
      · exact Or.inl (hsame ⟨a', ha, .refl a'⟩)
      · dsimp only at ha
        generalize hinput : (⟨id, conversationId, kind, filename, mimeType, sizeBytes, _, _, _⟩ :
          InitiateInput) = input at ha
        rcases Machine.commit_cases (s.draw id).tables (initiate input s.now (s.draw id).tables)
          with he | ⟨row, t', ht, he⟩
        · rw [he] at ha
          exact Or.inl (hsame ⟨a', ha, .refl a'⟩)
        · rw [he] at ha
          obtain ⟨-, -, -, -, -, rfl⟩ := initiate_ok ht
          rcases List.mem_append.mp ha with ha | ha
          · exact Or.inl (hsame ⟨a', ha, .refl a'⟩)
          · rw [List.mem_singleton.mp ha]
            subst hinput
            exact Or.inr ⟨startedAt, rfl, rfl⟩
    | completeVerified id sizeBytes etag =>
      unfold Storage.step Storage.transact at ha
      dsimp only at ha
      rcases Machine.commit_cases s.tables (completeVerified id sizeBytes etag s.now s.tables)
        with he | ⟨row, t', ht, he⟩
      · rw [he] at ha
        exact Or.inl (hsame ⟨a', ha, .refl a'⟩)
      · rw [he] at ha
        exact Or.inl (completeVerified_sameFile hs.wellFormed ht ha)
    | resetCompletion id =>
      obtain ⟨a, hmem, rfl⟩ := mem_updateWhere.mp ha
      refine Or.inl ⟨a, hmem, ?_⟩
      split
      · exact ⟨rfl, rfl, rfl, fun hs => hs⟩
      · exact ⟨rfl, rfl, rfl, fun hs => hs⟩
    | _ => nomatch hmoves

/-- **Every row** says of its file what began its upload, and a committed row has the size it
    declared. -/
theorem after_origin (actions : List Action) :
    ∀ a ∈ (Storage.after greatest actions).tables.attachments,
      a.Sized ∧ ∃ startedAt, .initiate a.id a.conversationId a.kind a.originalFilename a.mimeType
        a.declaredSizeBytes startedAt ∈ actions := by
  induction actions using List.reverseRecOn with
  | nil => exact fun _ h => nomatch h
  | append_singleton actions action ih =>
    intro a' ha'
    rw [after_append] at ha'
    rcases step_origin (Storage.after_sound greatest_exact actions) action ha' with
      ⟨a, ha, hsame⟩ | ⟨startedAt, hreserved, haction⟩
    · obtain ⟨hsized, startedAt, hmem⟩ := ih a ha
      refine ⟨hsame.sized hsized, startedAt, List.mem_append_left _ ?_⟩
      have horigin := hsame.origin
      unfold Attachment.origin at horigin
      injection horigin with h1 h2 h3 h4
      rw [hsame.id, hsame.declared, h1, h2, h3, h4]
      exact hmem
    · refine ⟨fun hc => ?_, startedAt, List.mem_append_right _ ?_⟩
      · rw [hreserved] at hc
        nomatch hc
      · rw [haction]
        exact List.mem_singleton_self _

end Steps

/-! ## 3. The reader's checks -/

/-- What the reader asks of a name that the service does not. -/
def ShownWell (filename : Text) : Prop :=
  utf16Length filename ≤ 240 ∧ filename.any isControl = false

instance (filename : Text) : Decidable (ShownWell filename) :=
  inferInstanceAs (Decidable (_ ∧ _))

theorem requiredString_ok {value : Text} (hne : value ≠ []) (hle : utf16Length value ≤ 1024)
    (field : String) : requiredString value field = .ok value := by
  unfold requiredString
  rw [if_neg]
  rintro (h | h)
  · exact hne (List.isEmpty_iff.mp h)
  · omega

theorem hasPathOrControl_eq_false_iff {filename : Text} (hslash : '/' ∉ filename)
    (hbackslash : '\\' ∉ filename) :
    hasPathOrControl filename = false ↔ filename.any isControl = false := by
  unfold hasPathOrControl
  rw [List.any_eq_false, List.any_eq_false]
  constructor
  · intro h c hc
    have hno := h c hc
    simp only [Bool.or_eq_true, not_or, Bool.not_eq_true] at hno
    simp [hno.2]
  · intro h c hc
    have h1 : c ≠ '/' := fun e => hslash (e ▸ hc)
    have h2 : c ≠ '\\' := fun e => hbackslash (e ▸ hc)
    have h3 : ¬ isControl c = true := h c hc
    simp [h1, h2, h3]

/-- A content type of the table: a text that is not too long, an image's exactly if it begins so. -/
theorem mimeType_known {mimeType : Text} (h : isOneOf CHAT_ATTACHMENT_MIME_TYPES mimeType = true) :
    mimeType ≠ [] ∧ utf16Length mimeType ≤ 1024 ∧
      (kindOf mimeType == .image) = isOneOf IMAGE_MIME_TYPES mimeType := by
  unfold isOneOf at h
  rw [List.any_eq_true] at h
  obtain ⟨known, hmem, heq⟩ := h
  rw [← beq_iff_eq.mp heq]
  have hall : ∀ known ∈ CHAT_ATTACHMENT_MIME_TYPES, known.toList ≠ [] ∧
      utf16Length known.toList ≤ 1024 ∧
      (kindOf known.toList == .image) = isOneOf IMAGE_MIME_TYPES known.toList := by
    decide +kernel
  exact hall known hmem

/-- **Only the name is left**: where everything else is as the service has it, the row is read
    exactly if its name shows well. -/
theorem parseAuthorizedAttachment_named {row : AuthorizedRow} {scope : AttachmentAccessScope}
    (hscope : assertScopeColumns row.scope scope = .ok ()) (hne : row.originalFilename ≠ [])
    (hslash : '/' ∉ row.originalFilename) (hbackslash : '\\' ∉ row.originalFilename)
    (hmime : isOneOf CHAT_ATTACHMENT_MIME_TYPES row.mimeType = true)
    (hkind : row.scope.kind = kindOf row.mimeType) {size : Nat}
    (hsize : row.sizeBytes = some (size : ℤ)) (hpos : 1 ≤ size)
    (hmax : size ≤ MAX_CHAT_ATTACHMENT_BYTES) (hsha : isSha256Text row.sha256 = true)
    (hkey : SAFE_OBJECT_KEY row.objectKey = true ∧ includes row.objectKey "//".toList = false ∧
      (split '/' row.objectKey).contains "..".toList = false ∧ row.objectKey ≠ [] ∧
      utf16Length row.objectKey ≤ 1024) :
    (∃ parsed, parseAuthorizedAttachment row scope = .ok parsed) ↔
      ShownWell row.originalFilename := by
  obtain ⟨hmne, hmle, himage⟩ := mimeType_known hmime
  obtain ⟨hsafe, hdouble, hup, hkne, hkle⟩ := hkey
  have hshaLength : row.sha256.length = 64 := by
    unfold isSha256Text at hsha
    rw [Bool.and_eq_true, beq_iff_eq] at hsha
    exact hsha.1
  have hshaOk : requiredString row.sha256 "attachment SHA-256" = .ok row.sha256 := by
    have hplain : row.sha256.all isPlain = true := by
      rw [List.all_eq_true]
      exact fun c hc => isPlain_of_sha256 hsha hc
    refine requiredString_ok ?_ ?_ _
    · intro he
      rw [he] at hshaLength
      nomatch hshaLength
    · rw [utf16Length_of_plain hplain]
      omega
  have hsizeOk : positiveInteger row.sizeBytes "attachment size" = .ok size := by
    have hmaxValue : MAX_CHAT_ATTACHMENT_BYTES = 26214400 := rfl
    have hsafeValue : MAX_SAFE_INTEGER = 9007199254740991 := rfl
    unfold positiveInteger
    rw [hsize, Option.getD_some]
    dsimp only
    rw [if_neg (by omega), Int.toNat_natCast]
  unfold ShownWell
  rw [← hasPathOrControl_eq_false_iff hslash hbackslash]
  unfold parseAuthorizedAttachment
  rw [hscope, requiredString_ok hmne hmle, hsizeOk, hshaOk, requiredString_ok hkne hkle]
  cases hname : requiredString row.originalFilename "attachment filename" with
  | error e =>
    -- such a name has more than 1,024 units
    have hlong : ¬ utf16Length row.originalFilename ≤ 1024 := by
      intro hle
      rw [requiredString_ok hne hle] at hname
      nomatch hname
    constructor
    · rintro ⟨parsed, h⟩
      nomatch h
    · rintro ⟨h, -⟩
      omega
  | ok name =>
    have hsame : name = row.originalFilename := by
      unfold requiredString at hname
      split at hname
      · nomatch hname
      · exact (Except.ok.inj hname).symm
    subst hsame
    have hinvalid : invalidMetadata row.scope.kind row.originalFilename row.mimeType size
        row.sha256 row.objectKey =
        (decide (240 < utf16Length row.originalFilename) ||
          hasPathOrControl row.originalFilename) := by
      have hfits : decide (MAX_CHAT_ATTACHMENT_BYTES < size) = false :=
        decide_eq_false (Nat.not_lt.mpr hmax)
      unfold invalidMetadata
      rw [hmime, hkind, himage, hsha, hsafe, hdouble, hup, hfits]
      simp
    show (∃ parsed, (if invalidMetadata row.scope.kind row.originalFilename row.mimeType size
        row.sha256 row.objectKey = true then invalidStorage "Attachment metadata is invalid."
      else Except.ok (⟨scope, row.scope.kind, row.originalFilename, row.mimeType, size,
        row.objectKey, row.sha256⟩ : AuthorizedAttachment)) = Except.ok parsed) ↔ _
    rw [hinvalid]
    constructor
    · rintro ⟨parsed, h⟩
      split at h
      · nomatch h
      · rename_i hno
        simp only [Bool.or_eq_true, decide_eq_true_eq, not_or, Nat.not_lt,
          Bool.not_eq_true] at hno
        exact hno
    · rintro ⟨hle, hclean⟩
      refine ⟨_, if_neg ?_⟩
      rw [hclean, Bool.or_false, decide_eq_true_eq]
      exact Nat.not_lt.mpr hle

/-- A passage that fits is read. -/
theorem parseChunk_ok {row : AuthorizedChunkRow} {scope : AttachmentAccessScope}
    (hscope : assertScopeColumns row.scope scope = .ok ()) (hkind : row.scope.kind = .document)
    (hid : requiredString row.chunkId "attachment chunk id" = .ok row.chunkId)
    (hidLength : utf16Length row.chunkId ≤ 240) (hne : row.content ≠ [])
    (hle : utf16Length row.content ≤ MAX_CHUNK_CHARACTERS) (hlocator : GoodLocator row.locator) :
    ∃ chunk, parseChunk row scope = .ok chunk := by
  obtain ⟨page, hpage⟩ := hlocator
  have htext : requiredChunkText row.content = .ok row.content := by
    unfold requiredChunkText
    rw [if_neg]
    rintro (h | h)
    · exact hne (List.isEmpty_iff.mp h)
    · exact absurd hle (Nat.not_le.mpr h)
  refine ⟨⟨row.chunkId, scope.attachmentId, row.content, page⟩, ?_⟩
  unfold parseChunk
  rw [hscope, hid, htext, hpage]
  simp [hkind, Nat.not_lt.mpr hidLength, bind, Except.bind, pure, Except.pure]

/-! ## 4. Every run -/

theorem assertScopeColumns_bound (r : Requests) {a : Attachment} {messageId : Uuid}
    (hbound : a.messageId = some messageId) :
    assertScopeColumns (r.scopeColumns a) (r.scope a messageId) = .ok () := by
  unfold assertScopeColumns Requests.scopeColumns Requests.scope
  rw [hbound]
  simp

section Runs

variable [SchemaLibrary] [CaseTables]

/-- What an accepted request establishes. -/
theorem parseInitiateInput_ok {input : InitiateChatAttachmentInput} {parsed : ParsedInitiateInput}
    (h : parseInitiateInput input = some parsed) :
    parsed.filename = trim input.filename ∧ SchemaLibrary.isUuid input.conversationId = true ∧
      isOneOf CHAT_ATTACHMENT_MIME_TYPES parsed.mimeType = true ∧
      isSha256Text input.sha256 = true ∧ 1 ≤ parsed.sizeBytes ∧
      parsed.sizeBytes ≤ MAX_CHAT_ATTACHMENT_BYTES := by
  unfold parseInitiateInput at h
  obtain ⟨sizeBytes, hsize, h⟩ := Option.bind_eq_some_iff.mp h
  split at h
  · rename_i hall
    simp only [Bool.and_eq_true] at hall
    obtain ⟨⟨⟨⟨⟨⟨huuid, -⟩, -⟩, hmime⟩, hsha⟩, -⟩, -⟩ := hall
    obtain rfl := Option.some.inj h
    have hbounds : 1 ≤ sizeBytes ∧ sizeBytes ≤ MAX_CHAT_ATTACHMENT_BYTES := by
      unfold sizeSchema at hsize
      cases hq : input.sizeBytes with
      | none =>
        rw [hq] at hsize
        nomatch hsize
      | some q =>
        rw [hq] at hsize
        dsimp only at hsize
        split at hsize
        · rename_i hok
          obtain ⟨hden, hpos, hle⟩ := hok
          rw [← Option.some.inj hsize]
          have hnum : (q.num : ℚ) = q := Rat.coe_int_num_of_den_eq_one hden
          rw [← hnum] at hpos hle
          have hlo : 0 < q.num := by exact_mod_cast hpos
          have hhi : q.num ≤ (MAX_CHAT_ATTACHMENT_BYTES : ℤ) := by exact_mod_cast hle
          omega
        · nomatch hsize
    exact ⟨rfl, huuid, hmime, hsha, hbounds.1, hbounds.2⟩
  · nomatch h

variable [Decomposition] [JsString.Sha256]

/-- **The agent reads what the service accepted** exactly if the name shows well: the row and every
    passage of an attachment that is committed, parsed and bound to a message. -/
theorem readable_attachments
    (huuid : ∀ s, SchemaLibrary.isUuid s = true → isUuidText s = true)
    (hhex : ∀ s, isSha256Text (Sha256.hex s) = true)
    {r : Requests} {actions : List Action} (hrequests : r.Behind actions)
    (hpages : ∀ job document provider,
      Action.saveChunksAndComplete job (.parsed document) provider ∈ actions →
        document.WellNumbered)
    {a : Attachment} (ha : a ∈ (Storage.after greatest actions).tables.attachments)
    (hcommitted : a.quotaState = .committed) {messageId : Uuid}
    (hbound : a.messageId = some messageId) :
    ((∃ attachment,
        parseAuthorizedAttachment (r.authorizedRow a) (r.scope a messageId) = .ok attachment) ∧
      ∀ passage ∈ authorizedChunks (Storage.after greatest actions).tables a,
        ∀ chunkId : RandomUuid,
          ∃ chunk, parseChunk (r.chunkRow a chunkId passage) (r.scope a messageId) = .ok chunk) ↔
      ShownWell (displayFilename (trim (r.input a.id).filename)) := by
  obtain ⟨hsized, startedAt, hinitiated⟩ := after_origin actions a ha
  obtain ⟨parsed, hparsed, hkind, hname, hmimeType, hdeclared⟩ :=
    hrequests _ _ _ _ _ _ _ hinitiated
  obtain ⟨htrim, hconversation, hmime, hsha, hpos, hmax⟩ := parseInitiateInput_ok hparsed
  have hscope := assertScopeColumns_bound r hbound
  obtain ⟨hne, hslash, hbackslash⟩ := displayFilename_clean parsed.filename
  rw [← hname] at hne hslash hbackslash
  have hrow := @parseAuthorizedAttachment_named (r.authorizedRow a) (r.scope a messageId) hscope
    hne hslash hbackslash (show isOneOf _ a.mimeType.toList = true by rw [hmimeType]; exact hmime)
    (show a.kind = kindOf a.mimeType.toList by rw [hmimeType]; exact hkind)
    parsed.sizeBytes (by rw [← hdeclared]; exact hsized hcommitted) hpos hmax hsha
    (attachmentObjectKey_safe (uuid_part (randomUuid_text _)) (uuid_part (huuid _ hconversation))
      (hhex r.userId) a.originalFilename.toList)
  have hchunks : ∀ passage ∈ authorizedChunks (Storage.after greatest actions).tables a,
      ∀ chunkId : RandomUuid,
        ∃ chunk, parseChunk (r.chunkRow a chunkId passage) (r.scope a messageId) = .ok chunk := by
    intro passage hpassage chunkId
    unfold authorizedChunks at hpassage
    split at hpassage
    · rename_i hdocument
      obtain ⟨before, later, job, source, provider, hactions, -, -, -, hsource, -⟩ :=
        ready_saved actions a ha hdocument.2
      have hfits : Fits passage := by
        cases source with
        | localText text => exact chunksForLocalText_fits hsource passage hpassage
        | parsed document =>
          have hwell := hpages job document provider (by rw [hactions]; simp)
          exact chunksForParsedDocument_fits hwell hsource passage hpassage
      have hidLength : utf16Length chunkId.text = 36 := by
        rw [utf16Length_of_plain chunkId.plain, chunkId.length_eq]
      have hidNe : chunkId.text ≠ [] := by
        intro he
        rw [he] at hidLength
        exact absurd hidLength (by decide)
      exact parseChunk_ok hscope hdocument.1 (requiredString_ok hidNe (by omega) _)
        (show utf16Length chunkId.text ≤ 240 by omega) hfits.1 hfits.2.1 hfits.2.2
    · exact absurd hpassage List.not_mem_nil
  rw [← htrim, ← hname]
  exact ⟨fun h => hrow.mp h.1, fun h => ⟨hrow.mpr h, hchunks⟩⟩

end Runs

/-! ### A table and a picture -/

/-- An id that ends in a digit. -/
def digitUuid (n : Nat) : RandomUuid where
  text := "00000000-0000-4000-8000-00000000000".toList ++ [Char.ofNat (48 + n % 10)]
  length_eq := by
    rw [List.length_append]
    rfl
  chars := by
    have hlt : n % 10 < 10 := Nat.mod_lt n (by decide)
    have hall : ∀ d < 10, (("00000000-0000-4000-8000-00000000000".toList ++
        [Char.ofNat (48 + d)]).all fun c =>
          isDigit c || decide ('a' ≤ c ∧ c ≤ 'f') || c == '-') = true := by
      decide
    exact hall _ hlt

/-- One upload of ten bytes under this name, of the user `u`. -/
def oneUpload (filename mimeType : String) : Requests where
  userId := ['u']
  uuid := digitUuid
  input := fun _ =>
    { conversationId := (digitUuid 1).text
      filename := filename.toList
      mimeType := mimeType.toList
      sizeBytes := some 10
      sha256 := List.replicate 64 '0'
      userId := ['u'] }

/-- Attachment 3 of conversation 1 is uploaded. -/
def uploadActions (kind : AttachmentKind) (filename mimeType : String) : List Action :=
  [.addConversation 1, .initiate 3 1 kind filename mimeType 10 0, .beginCompletion 3,
   .completeVerified 3 10 none]

/-- It is bound to message 2. -/
def bindActions : List Action := [.addMessage ⟨2, 1, true⟩, .bindToMessage [3] 1 2]

def tableJob : ChatAttachmentParseJob :=
  { id := 3
    objectKey := .attachment 1 3 "flow.csv"
    filename := "flow.csv"
    mimeType := "text/csv"
    parserJobId := none
    parserPollCount := 0
    parserSubmittedAt := none
    attempts := 1
    maxAttempts := 3
    workerId := "worker"
    leaseToken := 9 }

/-- The row of the upload when it is bound to its message. -/
def boundRow (kind : AttachmentKind) (filename mimeType : String) (parse : ParseColumns) :
    Attachment :=
  { id := 3
    conversationId := 1
    messageId := some 2
    kind := kind
    status := .ready
    parse := parse
    quotaState := .committed
    deletionStatus := .active
    originalFilename := filename
    mimeType := mimeType
    declaredSizeBytes := 10
    sizeBytes := some 10
    objectKey := .attachment 1 3 filename
    objectEtag := none
    uploadExpiresAt := 900000
    orphanExpiresAt := 86400000
    failureCode := none
    failureMessage := none
    readyAt := some 0 }

/-- The `parse_` columns of a job that is over, or was never needed. -/
def restingParse (status : ParseStatus) (provider : Option String) (attempts : Nat) :
    ParseColumns :=
  ⟨status, provider, none, attempts, 3, 0, none, 0, none, none, none⟩

def tableActions : List Action :=
  uploadActions .document "flow.csv" "text/csv" ++
    [.claimAttachmentParse 3 "worker" 9,
     .saveChunksAndComplete tableJob (.localText "t,p".toList) "local"] ++ bindActions

section Examples

/-- Only the first step is the start of an upload. -/
theorem initiate_mem {kind kind' : AttachmentKind} {filename mimeType filename' mimeType' : String}
    {more : List Action} (hmore : ∀ action ∈ more, action.movesUpload = false)
    {id conversationId : Uuid} {sizeBytes : ℤ} {startedAt : Int}
    (h : Action.initiate id conversationId kind' filename' mimeType' sizeBytes startedAt ∈
      uploadActions kind filename mimeType ++ more) :
    kind' = kind ∧ filename' = filename ∧ mimeType' = mimeType ∧ sizeBytes = 10 := by
  rcases List.mem_append.mp h with h | h
  · simp only [uploadActions, List.mem_cons, reduceCtorEq, Action.initiate.injEq, List.not_mem_nil,
      or_false, false_or] at h
    exact ⟨h.2.2.1, h.2.2.2.1, h.2.2.2.2.1, h.2.2.2.2.2.1⟩
  · exact absurd (hmore _ h) Bool.true_eq_false_eq_False

theorem readable_attachments_table :
    let _ : SchemaLibrary := ⟨isUuidText, fun _ => true, fun _ => []⟩
    let _ : CaseTables := ⟨id⟩
    let _ : Decomposition := ⟨id⟩
    let _ : JsString.Sha256 := ⟨fun _ => List.replicate 64 '0'⟩
    (∃ attachment, parseAuthorizedAttachment
      ((oneUpload "flow.csv" "text/csv").authorizedRow
        (boundRow .document "flow.csv" "text/csv" (restingParse .ready (some "local") 1)))
      ((oneUpload "flow.csv" "text/csv").scope
        (boundRow .document "flow.csv" "text/csv" (restingParse .ready (some "local") 1)) 2) =
        .ok attachment) ∧
    ∀ passage ∈ authorizedChunks (Storage.after greatest tableActions).tables
        (boundRow .document "flow.csv" "text/csv" (restingParse .ready (some "local") 1)),
      ∀ chunkId : RandomUuid, ∃ chunk, parseChunk
        ((oneUpload "flow.csv" "text/csv").chunkRow
          (boundRow .document "flow.csv" "text/csv" (restingParse .ready (some "local") 1))
          chunkId passage)
        ((oneUpload "flow.csv" "text/csv").scope
          (boundRow .document "flow.csv" "text/csv" (restingParse .ready (some "local") 1)) 2) =
          .ok chunk := by
  intro _ _ _ _
  have hhex : isSha256Text (List.replicate 64 '0') = true := by decide +kernel
  have hrequest : parseInitiateInput ((oneUpload "flow.csv" "text/csv").input 3) =
      some ⟨(digitUuid 1).text, "flow.csv".toList, "text/csv".toList, 10, List.replicate 64 '0',
        ['u']⟩ := by
    decide +kernel
  refine (readable_attachments (fun _ h => h) (fun _ => hhex) ?_ ?_ (by decide +kernel) rfl
    rfl).mpr (by decide +kernel)
  · intro id conversationId kind filename mimeType sizeBytes startedAt hmem
    obtain ⟨rfl, rfl, rfl, rfl⟩ := initiate_mem (by decide) hmem
    exact ⟨_, hrequest, by decide +kernel, by decide +kernel, rfl, rfl⟩
  · intro job document provider hmem
    simp [tableActions, uploadActions, bindActions] at hmem

/-- A name with a tab is accepted, and the agent cannot read the attachment. -/
theorem attachment_unreadable_tab :
    ¬ ∀ [SchemaLibrary] [CaseTables] [Decomposition] [JsString.Sha256],
      (∀ s, SchemaLibrary.isUuid s = true → isUuidText s = true) →
      (∀ s, isSha256Text (Sha256.hex s) = true) →
      ∀ (r : Requests) (actions : List Action), r.Behind actions →
        (∀ job document provider,
          Action.saveChunksAndComplete job (.parsed document) provider ∈ actions →
            document.WellNumbered) →
        ∀ a ∈ (Storage.after greatest actions).tables.attachments, a.quotaState = .committed →
          ∀ messageId, a.messageId = some messageId →
            ∃ attachment, parseAuthorizedAttachment (r.authorizedRow a) (r.scope a messageId) =
              .ok attachment := by
  intro h
  let _ : SchemaLibrary := ⟨isUuidText, fun _ => true, fun _ => []⟩
  let _ : CaseTables := ⟨id⟩
  let _ : Decomposition := ⟨id⟩
  let _ : JsString.Sha256 := ⟨fun _ => List.replicate 64 '0'⟩
  have hhex : isSha256Text (List.replicate 64 '0') = true := by decide +kernel
  have hrequest : parseInitiateInput ((oneUpload "a\tb.png" "image/png").input 3) =
      some ⟨(digitUuid 1).text, "a\tb.png".toList, "image/png".toList, 10,
        List.replicate 64 '0', ['u']⟩ := by
    decide +kernel
  have hmem : boundRow .image "a\tb.png" "image/png" (restingParse .not_required none 0) ∈
      (Storage.after greatest
        (uploadActions .image "a\tb.png" "image/png" ++ bindActions)).tables.attachments := by
    decide +kernel
  obtain ⟨attachment, hread⟩ := h (fun _ h => h) (fun _ => hhex) (oneUpload "a\tb.png" "image/png")
    (uploadActions .image "a\tb.png" "image/png" ++ bindActions)
    (fun id conversationId kind filename mimeType sizeBytes startedAt hmem => by
      obtain ⟨rfl, rfl, rfl, rfl⟩ := initiate_mem (by decide) hmem
      exact ⟨_, hrequest, by decide +kernel, by decide +kernel, rfl, rfl⟩)
    (fun job document provider hmem => by simp [uploadActions, bindActions] at hmem)
    _ hmem rfl 2 rfl
  have hfails : (parseAuthorizedAttachment
      ((oneUpload "a\tb.png" "image/png").authorizedRow
        (boundRow .image "a\tb.png" "image/png" (restingParse .not_required none 0)))
      ((oneUpload "a\tb.png" "image/png").scope
        (boundRow .image "a\tb.png" "image/png" (restingParse .not_required none 0)) 2)).isOk =
      false := by
    decide +kernel
  rw [hread] at hfails
  nomatch hfails

end Examples

end OpenVac.ChatStorage
