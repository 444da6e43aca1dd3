/-
  File:      OpenVac/ChatStorage/ClientUploads.lean
  Subject:   What the browser says of a file before it uploads it: `validateChatAttachmentFile` of
             lib/chat-attachments.ts, beside the service's `initiateSchema`.

  * `validateChatAttachmentFile` -- the browser's answer; `uploadRequest` -- the request it sends.
  * `fileExtension_trim` -- where the browser knows the text behind the last dot, the service finds
    it too, if a stem stands before that dot.
  * `client_server_agree_iff` -- both sides agree exactly on the files that are `Agreeable`.
-/
import OpenVac.ChatStorage.ReadableAttachments

namespace OpenVac.ChatStorage

open JsString JsUrl Agent

/-! ## 1. The browser -/

/-- The host's case tables leave white space and slashes alone. -/
class SeparatorCaseTables extends CaseTables where
  toLowerCase_nil : toLowerCase [] = []
  toLowerCase_keeps : ∀ text c, c ∈ text → (isWhiteSpace c || c == '/' || c == '\\') = true →
    c ∈ toLowerCase text

inductive FileValidation where
  | ok (mimeType : Text) (kind : AttachmentKind)
  | refused (message : String)
  /-- `mimeType.startsWith` is no function of what every object inherits. -/
  | thrown
  deriving DecidableEq

def unsupportedFile : FileValidation := .refused "仅支持 PDF、DOCX、XLSX、CSV、TXT、MD、JPG 和 PNG。"

def fileTooLarge : FileValidation := .refused "单个附件不能超过 25 MiB。"

def imageTooLarge : FileValidation :=
  .refused "单张 JPG 或 PNG 图片不能超过 10 MiB；文档仍可上传至 25 MiB。"

section Client

variable [CaseTables]

/-- `file.name.split(".").pop()?.toLowerCase() ?? ""`: a name without a dot is all of it. -/
def clientExtension (name : Text) : Text :=
  CaseTables.toLowerCase ((split '.' name).getLast?.getD [])

def isInherited (extension : Text) : Bool :=
  INHERITED_NAMES.any fun known => known.toList == extension

def validateChatAttachmentFile (name : Text) (size : Nat) : FileValidation :=
  match mimeByExtension (clientExtension name) with
  | none =>
      if isInherited (clientExtension name) then
        if size > MAX_CHAT_ATTACHMENT_BYTES then fileTooLarge else .thrown
      else unsupportedFile
  | some mimeType =>
      if size > MAX_CHAT_ATTACHMENT_BYTES then fileTooLarge
      else if isImageType mimeType && decide (size > MAX_CHAT_IMAGE_ATTACHMENT_BYTES) then
        imageTooLarge
      else .ok mimeType (kindOf mimeType)

/-- What `uploadChatAttachment` posts, with the user the server adds; no request for a file that
    is not ok. -/
def uploadRequest (conversationId sha256 userId name : Text) (size : Nat) :
    Option InitiateChatAttachmentInput :=
  match validateChatAttachmentFile name size with
  | .ok mimeType _ => some ⟨conversationId, name, mimeType, some size, sha256, userId⟩
  | .refused _ | .thrown => none

/-- The browser does not throw, it is content exactly if the service accepts its request, and then
    both have the same content type and kind. -/
structure SidesAgree [SchemaLibrary] (conversationId sha256 userId name : Text) (size : Nat) :
    Prop where
  answers : validateChatAttachmentFile name size ≠ .thrown
  accepted : (∃ mimeType kind, validateChatAttachmentFile name size = .ok mimeType kind) ↔
    ∃ request parsed, uploadRequest conversationId sha256 userId name size = some request ∧
      parseInitiateInput request = some parsed
  same : ∀ mimeType kind request parsed,
    validateChatAttachmentFile name size = .ok mimeType kind →
    uploadRequest conversationId sha256 userId name size = some request →
    parseInitiateInput request = some parsed →
      parsed.mimeType = mimeType ∧ kindOf parsed.mimeType = kind

/-- The largest file of a content type. -/
def sizeLimit (mimeType : Text) : Nat :=
  if isImageType mimeType then MAX_CHAT_IMAGE_ATTACHMENT_BYTES else MAX_CHAT_ATTACHMENT_BYTES

omit [CaseTables] in
/-- Something stands before the last dot of the last part of the name. -/
def hasStem (name : Text) : Bool :=
  match lastDot (displayFilename (trim name)) with
  | some (before, _) => !before.isEmpty
  | none => false

/-- The files both sides judge alike: no inherited name, unless the size is refused first; and a
    file of a listed type within its limit is not empty and has a stem and no more than 255 units
    in its name. -/
structure Agreeable (name : Text) (size : Nat) : Prop where
  inherited : isInherited (clientExtension name) = true → MAX_CHAT_ATTACHMENT_BYTES < size
  listed : ∀ mimeType, mimeByExtension (clientExtension name) = some mimeType →
    size ≤ sizeLimit mimeType → 0 < size ∧ utf16Length (trim name) ≤ 255 ∧ hasStem name = true

end Client

/-! ## 2. The name -/

/-- The last piece of a text, and what stands before it. -/
theorem split_last (separator : Char) (s : Text) :
    (separator ∉ s ∧ split separator s = [s]) ∨
      ∃ before last, s = before ++ separator :: last ∧ separator ∉ last ∧
        split separator s = split separator before ++ [last] := by
  by_cases hmem : separator ∈ s
  · refine .inr ?_
    have hcut : ∃ before last, s = before ++ separator :: last ∧ separator ∉ last := by
      induction s with
      | nil => exact absurd hmem List.not_mem_nil
      | cons c rest ih =>
        by_cases hrest : separator ∈ rest
        · obtain ⟨before, last, rfl, hlast⟩ := ih hrest
          exact ⟨c :: before, last, rfl, hlast⟩
        · rcases List.mem_cons.mp hmem with rfl | h
          · exact ⟨[], rest, rfl, hrest⟩
          · exact absurd h hrest
    obtain ⟨before, last, rfl, hlast⟩ := hcut
    exact ⟨before, last, rfl, hlast, by rw [split_append_cons, split_eq_singleton hlast]⟩
  · exact .inl ⟨hmem, split_eq_singleton hmem⟩

theorem join_split (separator : Char) (s : Text) : join [separator] (split separator s) = s := by
  induction s with
  | nil => rfl
  | cons c rest ih =>
    unfold split
    obtain ⟨first, more, hpieces⟩ := List.exists_cons_of_ne_nil (split_ne_nil separator rest)
    rw [hpieces] at ih ⊢
    by_cases hc : c = separator
    · rw [if_pos hc, join_cons_cons, ih, hc]
      rfl
    · rw [if_neg hc]
      cases more with
      | nil =>
        rw [join_singleton] at ih ⊢
        rw [ih]
      | cons next more =>
        rw [join_cons_cons] at ih ⊢
        rw [← ih]
        rfl

/-- A text behind which no separator stands lengthens the last piece. -/
theorem split_append_tail {separator : Char} (s : Text) {tail : Text} (h : separator ∉ tail) :
    ∃ before last, split separator (s ++ tail) = before ++ [last ++ tail] := by
  rcases split_last separator s with ⟨hs, -⟩ | ⟨before, last, rfl, hlast, -⟩
  · refine ⟨[], s, ?_⟩
    have hnone : separator ∉ s ++ tail := by simp [hs, h]
    rw [split_eq_singleton hnone, List.nil_append]
  · have hnone : separator ∉ last ++ tail := by simp [hlast, h]
    refine ⟨split separator before, last, ?_⟩
    rw [List.append_assoc, List.cons_append, split_append_cons, split_eq_singleton hnone]

theorem trim_append_tail (s : Text) {c : Char} {tail : Text}
    (h : ∀ d ∈ c :: tail, isWhiteSpace d = false) :
    trim (s ++ c :: tail) = trimStart s ++ c :: tail := by
  have hc : isWhiteSpace c = false := h c List.mem_cons_self
  have hstart : trimStart (s ++ c :: tail) = trimStart s ++ c :: tail := by
    unfold trimStart
    rw [List.dropWhile_append]
    split
    · rename_i hempty
      rw [List.isEmpty_iff.mp hempty, List.nil_append,
        List.dropWhile_cons_of_neg (by rw [hc]; exact Bool.false_ne_true)]
    · rfl
  obtain ⟨before, last, hlast⟩ : ∃ before last, c :: tail = before ++ [last] :=
    ⟨(c :: tail).dropLast, (c :: tail).getLast (List.cons_ne_nil _ _),
      (List.dropLast_concat_getLast _).symm⟩
  have hblank : isWhiteSpace last = false := h last (by rw [hlast]; simp)
  unfold trim trimEnd
  rw [hstart, hlast, ← List.append_assoc,
    List.rdropWhile_concat_neg _ _ _ (by rw [hblank]; exact Bool.false_ne_true)]

/-! ## 3. The extension on both sides -/

section Sides

variable [SeparatorCaseTables]

omit [SeparatorCaseTables] in
theorem mimeByExtension_isExtension {extension mimeType : Text}
    (h : mimeByExtension extension = some mimeType) : isExtension extension = true := by
  unfold mimeByExtension at h
  obtain ⟨entry, hfind, -⟩ := Option.map_eq_some_iff.mp h
  have hkey : (entry.1.toList == extension) = true :=
    @List.find?_some _ (fun known : String × String => known.1.toList == extension) _ _ hfind
  unfold isExtension
  rw [Bool.or_eq_true]
  exact .inl (List.any_eq_true.mpr ⟨entry, List.mem_of_find?_eq_some hfind, hkey⟩)

/-- What lowers to a known extension is not empty and has neither white space nor slashes. -/
theorem piece_of_extension {piece : Text}
    (h : isExtension (CaseTables.toLowerCase piece) = true) :
    piece ≠ [] ∧ ∀ c ∈ piece, (isWhiteSpace c || c == '/' || c == '\\') = false := by
  obtain ⟨hparts, hlength, -⟩ := isExtension_part h
  refine ⟨?_, ?_⟩
  · rintro rfl
    rw [SeparatorCaseTables.toLowerCase_nil, List.length_nil] at hlength
    omega
  · intro c hc
    by_contra hseparates
    rw [Bool.not_eq_false] at hseparates
    have hkept := SeparatorCaseTables.toLowerCase_keeps piece c hc hseparates
    have hpart : isPartChar c = true := List.all_eq_true.mp hparts c hkept
    have hplain := not_whiteSpace_of_plain (isPlain_of_part hpart)
    rw [hplain, Bool.false_or, Bool.or_eq_true, beq_iff_eq, beq_iff_eq] at hseparates
    rcases hseparates with rfl | rfl
    · exact absurd hpart (by decide)
    · exact absurd hpart (by decide)

omit [SeparatorCaseTables] in
/-- The shown name of a name that ends in an extension ends in it. -/
theorem displayFilename_tail (s : Text) {tail : Text} (hne : tail ≠ []) (hdot : '.' ∉ tail)
    (htail : ∀ c ∈ tail, (isWhiteSpace c || c == '/' || c == '\\') = false) :
    ∃ stem, displayFilename (s ++ '.' :: tail) = stem ++ '.' :: tail := by
  have hclean : ∀ c ∈ '.' :: tail, c ≠ '/' ∧ c ≠ '\\' := by
    intro c hc
    rcases List.mem_cons.mp hc with rfl | hc
    · decide
    · have hflags := htail c hc
      simp only [Bool.or_eq_false_iff, beq_eq_false_iff_ne] at hflags
      exact ⟨hflags.1.2, hflags.2⟩
  have hmap : ('.' :: tail).map (fun c => if c = '\\' then '/' else c) = '.' :: tail := by
    refine List.map_congr_left (g := id) (fun c hc => if_neg (hclean c hc).2) |>.trans ?_
    exact List.map_id _
  have hslash : '/' ∉ '.' :: tail := fun hc => (hclean '/' hc).1 rfl
  obtain ⟨before, last, hsplit⟩ :=
    split_append_tail (s.map fun c => if c = '\\' then '/' else c) hslash
  refine ⟨last, ?_⟩
  have hup : (last ++ '.' :: tail) ≠ "..".toList := by
    intro heq
    have hlength := congrArg List.length heq
    have htailpos : 0 < tail.length := List.length_pos_iff.mpr hne
    have htwo : "..".toList.length = 2 := by decide
    rw [List.length_append, List.length_cons, htwo] at hlength
    have hlast : last = [] := List.length_eq_zero_iff.mp (by omega)
    rw [hlast, List.nil_append] at heq
    have hrest : tail = ['.'] := (List.cons.inj heq).2
    exact hdot (hrest ▸ List.mem_singleton.mpr rfl)
  have hfirst :
      (!(last ++ '.' :: tail).isEmpty && (last ++ '.' :: tail) != "..".toList) = true := by
    rw [Bool.and_eq_true, bne_iff_ne]
    exact ⟨by simp, hup⟩
  unfold displayFilename pathSegments
  rw [List.map_append, hmap, hsplit, List.reverse_append, List.reverse_singleton,
    List.singleton_append, List.find?_cons, hfirst]
  rfl

omit [SeparatorCaseTables] in
/-- A dot of the shown name is a dot of the name. -/
theorem dot_of_displayFilename {filename : Text} (h : '.' ∈ displayFilename filename) :
    '.' ∈ filename := by
  unfold displayFilename at h
  cases hfind : (pathSegments filename).reverse.find? (fun segment =>
      !segment.isEmpty && segment != "..".toList) with
  | none =>
    rw [hfind] at h
    exact absurd h (by decide)
  | some segment =>
    rw [hfind, Option.getD_some] at h
    have hsegment := List.mem_reverse.mp (List.mem_of_find?_eq_some hfind)
    obtain ⟨c, hc, hmap⟩ := List.mem_map.mp (mem_of_mem_split hsegment '.' h)
    split at hmap
    · exact absurd hmap (by decide)
    · rw [← hmap]
      exact hc

/-- **The service finds the browser's extension** behind the last dot of the trimmed name, if it
    has a stem. -/
theorem fileExtension_trim {name mimeType : Text}
    (h : mimeByExtension (clientExtension name) = some mimeType) :
    fileExtension (trim name) = if hasStem name then some (clientExtension name) else none := by
  have hknown := mimeByExtension_isExtension h
  rcases split_last '.' name with ⟨hdot, hsplit⟩ | ⟨before, tail, rfl, hdot, hsplit⟩
  · -- no dot: the browser takes all of the name, the service finds no extension
    have hext : clientExtension name = CaseTables.toLowerCase name := by
      unfold clientExtension
      rw [hsplit]
      rfl
    rw [hext] at hknown
    have hnone : lastDot (displayFilename (trim name)) = none := by
      have hname : '.' ∉ displayFilename (trim name) := fun hmem =>
        hdot ((trim_sublist name).subset (dot_of_displayFilename hmem))
      unfold lastDot
      rw [split_eq_singleton hname]
      rfl
    unfold fileExtension hasStem
    rw [hnone]
    rfl
  · have hext : clientExtension (before ++ '.' :: tail) = CaseTables.toLowerCase tail := by
      unfold clientExtension
      rw [hsplit, List.getLast?_concat]
      rfl
    rw [hext] at hknown ⊢
    obtain ⟨hne, htail⟩ := piece_of_extension hknown
    have hsolid : ∀ d ∈ '.' :: tail, isWhiteSpace d = false := by
      intro d hd
      rcases List.mem_cons.mp hd with rfl | hd
      · decide
      · have hflags := htail d hd
        simp only [Bool.or_eq_false_iff] at hflags
        exact hflags.1.1
    have htrim := trim_append_tail before hsolid
    obtain ⟨stem, hshown⟩ := displayFilename_tail (trimStart before) hne hdot htail
    have hlast : lastDot (displayFilename (trim (before ++ '.' :: tail))) = some (stem, tail) := by
      unfold lastDot
      rw [htrim, hshown, split_append_cons, split_eq_singleton hdot, List.reverse_append,
        List.reverse_singleton, List.singleton_append]
      obtain ⟨piece, more, hpieces⟩ :=
        List.exists_cons_of_ne_nil (List.reverse_ne_nil_iff.mpr (split_ne_nil '.' stem))
      rw [hpieces]
      dsimp only
      rw [← hpieces, List.reverse_reverse, join_split]
    have htailEmpty : tail.isEmpty = false := by
      cases tail with
      | nil => exact absurd rfl hne
      | cons c rest => rfl
    unfold fileExtension hasStem
    rw [hlast]
    dsimp only
    rw [htailEmpty, Bool.or_false]
    cases stem with
    | nil => rfl
    | cons c rest => simp [hknown]

omit [SeparatorCaseTables] in
theorem sizeSchema_natCast (size : Nat) :
    sizeSchema (some (size : ℚ)) =
      if 0 < size ∧ size ≤ MAX_CHAT_ATTACHMENT_BYTES then some size else none := by
  have hle : (size : ℚ) ≤ MAX_CHAT_ATTACHMENT_BYTES ↔ size ≤ MAX_CHAT_ATTACHMENT_BYTES :=
    Nat.cast_le
  unfold sizeSchema
  simp [hle]

omit [SeparatorCaseTables] in
theorem mimeByExtension_known {extension mimeType : Text}
    (h : mimeByExtension extension = some mimeType) :
    (CHAT_ATTACHMENT_MIME_TYPES.any fun known => known.toList == mimeType) = true := by
  unfold mimeByExtension at h
  obtain ⟨entry, hfind, rfl⟩ := Option.map_eq_some_iff.mp h
  have hall : ∀ entry ∈ MIME_BY_EXTENSION,
      (CHAT_ATTACHMENT_MIME_TYPES.any fun known => known.toList == entry.2.toList) = true := by
    decide
  exact hall entry (List.mem_of_find?_eq_some hfind)

omit [SeparatorCaseTables] in
theorem trim_of_hasStem {name : Text} (h : hasStem name = true) : 1 ≤ utf16Length (trim name) := by
  cases htrim : trim name with
  | nil =>
    unfold hasStem at h
    rw [htrim] at h
    exact absurd h (by decide)
  | cons c rest =>
    rw [utf16Length_cons]
    split
    · omega
    · omega

variable [SchemaLibrary] {conversationId sha256 : Text}

/-- **The service accepts the browser's request** for a listed type within its limit, if the file is
    not empty and the name has a stem and no more than 255 units. -/
theorem parseInitiateInput_request (hid : SchemaLibrary.isUuid conversationId = true)
    (hsha : isSha256Text sha256 = true) (userId : Text) {name mimeType : Text} {size : Nat}
    (hmime : mimeByExtension (clientExtension name) = some mimeType)
    (hlimit : size ≤ sizeLimit mimeType) :
    parseInitiateInput ⟨conversationId, name, mimeType, some size, sha256, userId⟩ =
      if 0 < size ∧ utf16Length (trim name) ≤ 255 ∧ hasStem name = true then
        some ⟨conversationId, trim name, mimeType, size, sha256, userId⟩
      else none := by
  have himage : isImageType mimeType = false ∨ size ≤ MAX_CHAT_IMAGE_ATTACHMENT_BYTES := by
    unfold sizeLimit at hlimit
    cases hkind : isImageType mimeType with
    | false => exact .inl rfl
    | true =>
      rw [hkind, if_pos rfl] at hlimit
      exact .inr hlimit
  have hmax : size ≤ MAX_CHAT_ATTACHMENT_BYTES := by
    have hle : MAX_CHAT_IMAGE_ATTACHMENT_BYTES ≤ MAX_CHAT_ATTACHMENT_BYTES := by decide
    unfold sizeLimit at hlimit
    split at hlimit
    · omega
    · exact hlimit
  have hextension := fileExtension_trim hmime
  have hknown := mimeByExtension_known hmime
  unfold parseInitiateInput
  dsimp only
  rw [sizeSchema_natCast, hextension, hid, hknown, hsha]
  by_cases hpos : 0 < size
  · rw [if_pos ⟨hpos, hmax⟩]
    cases hstem : hasStem name with
    | false => simp
    | true =>
      have hone := trim_of_hasStem hstem
      simp [hmime, hone, hpos, himage]
  · simp [hpos]

omit [SchemaLibrary] in
/-- The browser's answer for a listed type. -/
theorem validate_listed {name mimeType : Text} {size : Nat}
    (hmime : mimeByExtension (clientExtension name) = some mimeType) :
    (size ≤ sizeLimit mimeType ∧
      validateChatAttachmentFile name size = .ok mimeType (kindOf mimeType)) ∨
    (¬ size ≤ sizeLimit mimeType ∧
      ∃ message, validateChatAttachmentFile name size = .refused message) := by
  have hle : MAX_CHAT_IMAGE_ATTACHMENT_BYTES ≤ MAX_CHAT_ATTACHMENT_BYTES := by decide
  unfold validateChatAttachmentFile sizeLimit
  rw [hmime]
  dsimp only
  by_cases hmax : size > MAX_CHAT_ATTACHMENT_BYTES
  · rw [if_pos hmax]
    refine .inr ⟨?_, _, rfl⟩
    split <;> omega
  · rw [if_neg hmax]
    cases hkind : isImageType mimeType with
    | false => exact .inl ⟨by simpa using Nat.le_of_not_lt hmax, rfl⟩
    | true =>
      rw [Bool.true_and, if_pos rfl]
      by_cases himage : size > MAX_CHAT_IMAGE_ATTACHMENT_BYTES
      · rw [if_pos (decide_eq_true himage)]
        exact .inr ⟨by omega, _, rfl⟩
      · rw [if_neg (by simpa using himage)]
        exact .inl ⟨by omega, rfl⟩

/-- **Browser and service agree** exactly on the agreeable files. -/
theorem client_server_agree_iff (hid : SchemaLibrary.isUuid conversationId = true)
    (hsha : isSha256Text sha256 = true) (userId name : Text) (size : Nat) :
    SidesAgree conversationId sha256 userId name size ↔ Agreeable name size := by
  cases hmime : mimeByExtension (clientExtension name) with
  | none =>
    have hnotOk : ∀ mimeType kind, validateChatAttachmentFile name size ≠ .ok mimeType kind := by
      intro mimeType kind hok
      unfold validateChatAttachmentFile at hok
      rw [hmime] at hok
      dsimp only at hok
      split at hok
      · split at hok <;> nomatch hok
      · nomatch hok
    have hthrown : validateChatAttachmentFile name size = .thrown ↔
        isInherited (clientExtension name) = true ∧ ¬ MAX_CHAT_ATTACHMENT_BYTES < size := by
      unfold validateChatAttachmentFile
      rw [hmime]
      dsimp only
      constructor
      · intro h
        split at h
        · rename_i hinherited
          split at h
          · nomatch h
          · rename_i hsize
            exact ⟨hinherited, hsize⟩
        · nomatch h
      · rintro ⟨hinherited, hsize⟩
        rw [if_pos hinherited, if_neg hsize]
    have hnoRequest : uploadRequest conversationId sha256 userId name size = none := by
      unfold uploadRequest
      cases hvalid : validateChatAttachmentFile name size with
      | ok mimeType kind => exact absurd hvalid (hnotOk mimeType kind)
      | refused message => rfl
      | thrown => rfl
    constructor
    · intro h
      refine ⟨fun hinherited => ?_, fun mimeType hsome => by rw [hmime] at hsome; nomatch hsome⟩
      by_contra hsize
      exact h.answers (hthrown.mpr ⟨hinherited, hsize⟩)
    · intro h
      refine ⟨fun hvalid => ?_, ⟨?_, ?_⟩, ?_⟩
      · obtain ⟨hinherited, hsize⟩ := hthrown.mp hvalid
        exact hsize (h.inherited hinherited)
      · rintro ⟨mimeType, kind, hok⟩
        exact absurd hok (hnotOk mimeType kind)
      · rintro ⟨request, parsed, hrequest, -⟩
        rw [hnoRequest] at hrequest
        nomatch hrequest
      · intro mimeType kind request parsed hok
        exact absurd hok (hnotOk mimeType kind)
  | some mimeType =>
    have hinherited : isInherited (clientExtension name) = false := by
      unfold mimeByExtension at hmime
      obtain ⟨entry, hfind, -⟩ := Option.map_eq_some_iff.mp hmime
      have hkey : (entry.1.toList == clientExtension name) = true :=
        @List.find?_some _ (fun known : String × String => known.1.toList == _) _ _ hfind
      have hall : ∀ entry ∈ MIME_BY_EXTENSION, isInherited entry.1.toList = false := by decide
      rw [← beq_iff_eq.mp hkey]
      exact hall entry (List.mem_of_find?_eq_some hfind)
    rcases @validate_listed _ name mimeType size hmime with
      ⟨hlimit, hvalid⟩ | ⟨hlimit, message, hvalid⟩
    · have hrequest : uploadRequest conversationId sha256 userId name size =
          some ⟨conversationId, name, mimeType, some size, sha256, userId⟩ := by
        unfold uploadRequest
        rw [hvalid]
      have hparsed := parseInitiateInput_request hid hsha userId hmime hlimit
      constructor
      · intro h
        refine ⟨fun hbad => absurd (hinherited.symm.trans hbad) Bool.false_ne_true, ?_⟩
        intro known hknown _
        rw [hmime] at hknown
        obtain ⟨request, parsed, hsent, haccepted⟩ := h.accepted.mp ⟨mimeType, _, hvalid⟩
        rw [hrequest] at hsent
        obtain rfl := Option.some.inj hsent
        rw [hparsed] at haccepted
        by_contra hcondition
        rw [if_neg hcondition] at haccepted
        nomatch haccepted
      · intro h
        rw [if_pos (h.listed mimeType hmime hlimit)] at hparsed
        refine ⟨by rw [hvalid]; nofun, ⟨fun _ => ⟨_, _, hrequest, hparsed⟩,
          fun _ => ⟨mimeType, _, hvalid⟩⟩, ?_⟩
        intro known kind request parsed hok hsent haccepted
        rw [hvalid] at hok
        injection hok with hknown hkind
        rw [hrequest] at hsent
        obtain rfl := Option.some.inj hsent
        rw [hparsed] at haccepted
        obtain rfl := Option.some.inj haccepted
        exact ⟨hknown, hkind⟩
    · have hrequest : uploadRequest conversationId sha256 userId name size = none := by
        unfold uploadRequest
        rw [hvalid]
      constructor
      · intro _
        refine ⟨fun hbad => absurd (hinherited.symm.trans hbad) Bool.false_ne_true, ?_⟩
        intro known hknown hle
        rw [hmime] at hknown
        obtain rfl := Option.some.inj hknown
        exact absurd hle hlimit
      · intro _
        refine ⟨by rw [hvalid]; nofun, ⟨?_, ?_⟩, ?_⟩
        · rintro ⟨known, kind, hok⟩
          rw [hvalid] at hok
          nomatch hok
        · rintro ⟨request, parsed, hsent, -⟩
          rw [hrequest] at hsent
          nomatch hsent
        · intro known kind request parsed hok
          rw [hvalid] at hok
          nomatch hok

end Sides

/-! ## 4. Two files -/

theorem toLower_of_separator {c : Char}
    (h : (isWhiteSpace c || c == '/' || c == '\\') = true) : c.toLower = c := by
  unfold Char.toLower
  split
  · rename_i hupper
    exfalso
    have hall : ∀ n < 128, (Char.ofNat n).isUpper = true →
        (isWhiteSpace (Char.ofNat n) || Char.ofNat n == '/' || Char.ofNat n == '\\') = false := by
      decide
    have hlow : c.toNat < 128 := by
      have hle : c.toNat ≤ 'Z'.toNat := hupper.2
      have hz : 'Z'.toNat = 90 := by decide
      omega
    have hfalse := hall c.toNat hlow
    rw [Char.ofNat_toNat] at hfalse
    have hletter : c.isUpper = true := decide_eq_true hupper
    rw [hfalse hletter] at h
    exact absurd h Bool.false_ne_true
  · rfl

/-- Letters lowered one by one. -/
abbrev letterTables : SeparatorCaseTables where
  toLowerCase := List.map Char.toLower
  toLowerCase_nil := rfl
  toLowerCase_keeps := fun _ c hc h =>
    List.mem_map.mpr ⟨c, hc, toLower_of_separator h⟩

theorem client_server_agree_report :
    let _ : SchemaLibrary := ⟨isUuidText, fun _ => true, fun _ => []⟩
    let _ : SeparatorCaseTables := letterTables
    SidesAgree (digitUuid 1).text (List.replicate 64 '0') ['u'] "Leak report.PDF".toList 10 := by
  intro _ _
  have hid : isUuidText (digitUuid 1).text = true := randomUuid_text _
  have hsha : isSha256Text (List.replicate 64 '0') = true := by decide
  refine (client_server_agree_iff hid hsha ['u'] "Leak report.PDF".toList 10).mpr ⟨?_, ?_⟩
  · intro hinherited
    exact absurd hinherited (by decide)
  · intro mimeType _ _
    decide

/-- A name that ends in what every object inherits: the browser throws. -/
theorem inherited_name_throws :
    ¬ ∀ [SchemaLibrary] [SeparatorCaseTables] (conversationId sha256 userId name : Text)
      (size : Nat), SchemaLibrary.isUuid conversationId = true → isSha256Text sha256 = true →
        SidesAgree conversationId sha256 userId name size := by
  intro h
  let _ : SchemaLibrary := ⟨isUuidText, fun _ => true, fun _ => []⟩
  let _ : SeparatorCaseTables := letterTables
  have hid : isUuidText (digitUuid 1).text = true := randomUuid_text _
  have hsha : isSha256Text (List.replicate 64 '0') = true := by decide
  have hagree :=
    h (digitUuid 1).text (List.replicate 64 '0') ['u'] "x.constructor".toList 1 hid hsha
  exact hagree.answers (by decide)

end OpenVac.ChatStorage
