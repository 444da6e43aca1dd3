/-
  File:      OpenVac/Agent/AttachmentChunks.lean
  Subject:   The passages of a parsed attachment: `chunkParsedDocument` of
             server/agent/attachment-tools.ts.

  * `AttachmentToolService` -- the sizes a service may have; the overlap is below the chunk size.
  * `chunkPageFrom_eq` -- the loop over a page takes the windows of its text that hold something.
  * `nodup_chunkIds` -- the running number in an id tells the chunks apart.
  * `chunks_cover_nfkc` -- the chunks hold the text of every page after NFKC; what NFKC replaces is
    in none of them (`circled_digit_replaced`).
-/
import OpenVac.ChatStorage.Chunks
import OpenVac.KnowledgeBase.SectionCoverage
import OpenVac.Lib.CodeUnits

namespace OpenVac.AttachmentTools

open JsString JsRegex
open ChatStorage (ParsedPage)
open KnowledgeBase (normalizeNewlines visible)

/-! ## 1. The service -/

def DEFAULT_CHUNK_CHARACTERS : Nat := 2400

def DEFAULT_CHUNK_OVERLAP : Nat := 200

def DEFAULT_MAX_CHUNKS : Nat := 256

def MAX_SAFE_INTEGER : Int := 9007199254740991

structure AttachmentToolServiceOptions where
  chunkCharacters : Option Int := none
  chunkOverlap : Option Int := none
  maxChunks : Option Int := none

structure AttachmentToolService where
  chunkCharacters : Nat
  chunkOverlap : Nat
  maxChunks : Nat
  overlap_lt : chunkOverlap < chunkCharacters
  maxChunks_pos : 0 < maxChunks

def positiveInteger (value : Int) : Except String { n : Nat // 0 < n } :=
  if h : value ≤ MAX_SAFE_INTEGER ∧ 1 ≤ value then .ok ⟨value.toNat, by omega⟩
  else .error "Expected a positive integer."

def nonNegativeInteger (value : Int) : Except String Nat :=
  if value ≤ MAX_SAFE_INTEGER ∧ 0 ≤ value then .ok value.toNat
  else .error "Expected a non-negative integer."

/-- `new AttachmentToolService(options)`, with the message of its `TypeError`. -/
def AttachmentToolServiceOptions.service (options : AttachmentToolServiceOptions) :
    Except String AttachmentToolService := do
  let chunkCharacters ← positiveInteger (options.chunkCharacters.getD DEFAULT_CHUNK_CHARACTERS)
  let chunkOverlap ← nonNegativeInteger (options.chunkOverlap.getD DEFAULT_CHUNK_OVERLAP)
  let maxChunks ← positiveInteger (options.maxChunks.getD DEFAULT_MAX_CHUNKS)
  if h : chunkOverlap < chunkCharacters.val then
    .ok ⟨chunkCharacters.val, chunkOverlap, maxChunks.val, h, maxChunks.property⟩
  else .error "chunkOverlap must be smaller than chunkCharacters."

/-- How far the windows of a page stand apart. -/
def AttachmentToolService.stride (service : AttachmentToolService) : Nat :=
  service.chunkCharacters - service.chunkOverlap

theorem AttachmentToolService.stride_pos (service : AttachmentToolService) :
    0 < service.stride := by
  have h := service.overlap_lt
  unfold AttachmentToolService.stride
  omega

theorem AttachmentToolService.stride_le (service : AttachmentToolService) :
    service.stride ≤ service.chunkCharacters := Nat.sub_le _ _

/-! ## 2. Chunks -/

inductive AttachmentToolErrorCode where
  | DOCUMENT_PARSE_FAILED
  deriving DecidableEq, Repr

structure AttachmentToolError where
  code : AttachmentToolErrorCode
  message : String
  deriving DecidableEq, Repr

/-- A passage; its text is kept by code units. -/
structure AttachmentTextChunk where
  chunkId : Text
  attachmentId : Text
  text : Units
  pageNumber : Option Nat

/-- `[\t\f\v]+`. -/
def tabs : Regex := plus (.set fun c => c == '\t' || c == '\x0C' || c == '\x0B')

/-- ` {2,}`. -/
def spaces : Regex := .rep (.set fun c => c == ' ') 2 none true

/-- `\n{3,}`. -/
def feeds : Regex := .rep (.set fun c => c == '\n') 3 none true

def noReadableText : AttachmentToolError :=
  ⟨.DOCUMENT_PARSE_FAILED, "The parsed document contained no readable text."⟩

section Chunking

variable [UnicodeTables] [Sha256]

omit [Sha256] in
def normalizeText (value : Text) : Text :=
  trim (replaceAll feeds ['\n', '\n'] (replaceAll spaces [' '] (replaceAll tabs [' ']
    (normalizeNewlines (nfkc value)))))

omit [UnicodeTables] in
def createChunkId (attachmentId : Text) (index : Nat) (text : Units) : Text :=
  let digest := Sha256.hex
    (attachmentId ++ '\x00' :: (Nat.toDigits 10 index ++ '\x00' :: ofCodeUnits text))
  'A' :: 'C' :: (Nat.toDigits 10 (index + 1) ++ '-' :: slice 0 16 digest)

omit [UnicodeTables] in
/-- The chunks of a page's text from `start` on, behind those collected so far. -/
def chunkPageFrom (service : AttachmentToolService) (attachmentId : Text)
    (pageNumber : Option Nat) (text : Units) (start : Nat) (chunks : List AttachmentTextChunk) :
    List AttachmentTextChunk :=
  if h : start < text.length ∧ chunks.length < service.maxChunks then
    let value := trimUnits (sliceUnits start (start + service.chunkCharacters) text)
    let next := start + (service.chunkCharacters - service.chunkOverlap)
    if value.isEmpty then chunkPageFrom service attachmentId pageNumber text next chunks
    else
      chunkPageFrom service attachmentId pageNumber text next
        (chunks ++
          [⟨createChunkId attachmentId chunks.length value, attachmentId, value, pageNumber⟩])
  else chunks
termination_by text.length - start
decreasing_by
  all_goals
    have hlt := service.overlap_lt
    omega

/-- The pages, one after the other; a full list ends the loop. -/
def chunkPages (service : AttachmentToolService) (attachmentId : Text) :
    List ParsedPage → List AttachmentTextChunk → List AttachmentTextChunk
  | [], chunks => chunks
  | page :: more, chunks =>
      let text := codeUnits (normalizeText (page.markdown.getD []))
      let chunks := chunkPageFrom service attachmentId page.pageNumber text 0 chunks
      if chunks.length = service.maxChunks then chunks
      else chunkPages service attachmentId more chunks

def chunkParsedDocument (service : AttachmentToolService) (attachmentId : Text)
    (pages : List ParsedPage) : Except AttachmentToolError (List AttachmentTextChunk) :=
  let chunks := chunkPages service attachmentId pages []
  if chunks.length = 0 then .error noReadableText else .ok chunks

end Chunking

/-! ## 3. One page -/

section Normalised

theorem visible_join {separator : Text} (h : ∀ c ∈ separator, isWhiteSpace c = true)
    (parts : List Text) : visible (join separator parts) = visible parts.flatten := by
  induction parts with
  | nil => rfl
  | cons part more ih =>
    cases more with
    | nil => rw [join_singleton, List.flatten_cons, List.flatten_nil, List.append_nil]
    | cons next more =>
      rw [join_cons_cons, KnowledgeBase.visible_append, KnowledgeBase.visible_append, ih,
        KnowledgeBase.visible_blank h, @List.flatten_cons _ part, KnowledgeBase.visible_append,
        List.nil_append]

/-- **Replacing white space by white space** leaves everything visible. -/
theorem visible_replaceAll {r : Regex} (hr : Within (fun c => isWhiteSpace c = true) r)
    (hproper : Proper r) {replacement : Text} (h : ∀ c ∈ replacement, isWhiteSpace c = true)
    (text : Text) : visible (replaceAll r replacement text) = visible text := by
  have hscan := scans_execAll hproper text
  rw [replaceAll_eq_join, visible_join h, KnowledgeBase.visible_of_scans hr hscan]

theorem visible_normalizeText [UnicodeTables] (value : Text) :
    visible (normalizeText value) = visible (nfkc value) := by
  have hspace : ∀ c ∈ [' '], isWhiteSpace c = true := List.all_eq_true.mp (by decide)
  have hfeed : ∀ c ∈ ['\n', '\n'], isWhiteSpace c = true := List.all_eq_true.mp (by decide)
  have htabs : Within (fun c => isWhiteSpace c = true) tabs := by
    intro c hc
    simp only [Bool.or_eq_true, beq_iff_eq] at hc
    rcases hc with (rfl | rfl) | rfl <;> decide
  have hspaces : Within (fun c => isWhiteSpace c = true) spaces := by
    intro c hc
    rw [beq_iff_eq.mp hc]
    decide
  have hfeeds : Within (fun c => isWhiteSpace c = true) feeds := by
    intro c hc
    rw [beq_iff_eq.mp hc]
    decide
  unfold normalizeText
  rw [KnowledgeBase.visible_trim,
    visible_replaceAll hfeeds ((proper_set _).rep (by decide) _ _) hfeed,
    visible_replaceAll hspaces ((proper_set _).rep (by decide) _ _) hspace,
    visible_replaceAll htabs ((proper_set _).rep (by decide) _ _) hspace,
    KnowledgeBase.visible_normalizeNewlines]

end Normalised

section Pages

variable [Sha256] {service : AttachmentToolService} {attachmentId : Text}

/-- The passages of one page, numbered from `index` on. -/
def pageChunks (attachmentId : Text) (pageNumber : Option Nat) (index : Nat)
    (values : List Units) : List AttachmentTextChunk :=
  (values.zipIdx index).map fun entry =>
    ⟨createChunkId attachmentId entry.2 entry.1, attachmentId, entry.1, pageNumber⟩

/-- The windows of a page that hold something, without their outer blanks. -/
def AttachmentToolService.passages (service : AttachmentToolService) (text : Units) : List Units :=
  readable CodeUnit.isBlank (windows service.stride service.chunkCharacters text)

omit [Sha256] in
theorem passages_drop {text : Units} {start : Nat} (h : start < text.length) {value : Units}
    (hvalue : trimUnits (sliceUnits start (start + service.chunkCharacters) text) = value) :
    service.passages (text.drop start) =
      if value = [] then service.passages (text.drop (start + service.stride))
      else value :: service.passages (text.drop (start + service.stride)) := by
  have hne : text.drop start ≠ [] := by
    rw [ne_eq, List.drop_eq_nil_iff]
    omega
  have hwindow : sliceUnits start (start + service.chunkCharacters) text =
      (text.drop start).take service.chunkCharacters := by
    unfold sliceUnits
    rw [List.drop_take, Nat.add_sub_cancel_left]
  rw [hwindow] at hvalue
  unfold trimUnits at hvalue
  unfold AttachmentToolService.passages
  rw [windows_of_ne_nil service.stride_pos _ hne, List.drop_drop]
  by_cases hblank : value = []
  · rw [if_pos hblank, readable_cons_blank (hvalue.trans hblank)]
  · rw [if_neg hblank, readable_cons (fun h => hblank (hvalue.symm.trans h)), hvalue]

/-- **The loop over a page takes the passages of its text**, if there is room for them. -/
theorem chunkPageFrom_eq {pageNumber : Option Nat} {text : Units} {start : Nat}
    {chunks : List AttachmentTextChunk}
    (hroom : chunks.length + (service.passages (text.drop start)).length ≤ service.maxChunks) :
    chunkPageFrom service attachmentId pageNumber text start chunks =
      chunks ++ pageChunks attachmentId pageNumber chunks.length
        (service.passages (text.drop start)) := by
  fun_induction chunkPageFrom service attachmentId pageNumber text start chunks with
  | case1 start chunks h value next hempty ih =>
    have hvalue : value = [] := List.isEmpty_iff.mp hempty
    have hdrop := @passages_drop service text start h.1 value rfl
    rw [if_pos hvalue] at hdrop
    rw [hdrop] at hroom ⊢
    exact ih hroom
  | case2 start chunks h value next hempty ih =>
    have hvalue : value ≠ [] := fun heq => hempty (List.isEmpty_iff.mpr heq)
    have hdrop := @passages_drop service text start h.1 value rfl
    have hnext : start + service.stride = next := rfl
    rw [if_neg hvalue, hnext] at hdrop
    rw [hdrop] at hroom ⊢
    rw [List.length_cons] at hroom
    have hlength (chunk : AttachmentTextChunk) :
        (chunks ++ [chunk]).length = chunks.length + 1 := List.length_append
    rw [hlength] at ih
    rw [ih (by omega), List.append_assoc]
    rfl
  | case3 start chunks h =>
    have hnone : service.passages (text.drop start) = [] := by
      by_cases hstart : start < text.length
      · have hfull : ¬ chunks.length < service.maxChunks := fun hlt => h ⟨hstart, hlt⟩
        exact List.length_eq_zero_iff.mp (by omega)
      · rw [List.drop_of_length_le (Nat.le_of_not_lt hstart)]
        unfold AttachmentToolService.passages
        rw [windows_nil]
        rfl
    rw [hnone]
    exact (List.append_nil chunks).symm

theorem mem_pageChunks {attachmentId : Text} {pageNumber : Option Nat} {index : Nat}
    {values : List Units} : ∀ chunk ∈ pageChunks attachmentId pageNumber index values,
      chunk.attachmentId = attachmentId ∧ chunk.pageNumber = pageNumber ∧ chunk.text ∈ values := by
  intro chunk hchunk
  obtain ⟨entry, hentry, rfl⟩ := List.mem_map.mp hchunk
  exact ⟨rfl, rfl, List.fst_mem_of_mem_zipIdx hentry⟩

theorem text_pageChunks (attachmentId : Text) (pageNumber : Option Nat) (index : Nat)
    (values : List Units) :
    (pageChunks attachmentId pageNumber index values).map (·.text) = values := by
  unfold pageChunks
  rw [List.map_map]
  exact List.zipIdx_map_fst index values

/-- Every id is made from the chunk's place and text. -/
def Numbered (attachmentId : Text) (chunks : List AttachmentTextChunk) : Prop :=
  chunks.map (·.chunkId) =
    chunks.zipIdx.map fun entry => createChunkId attachmentId entry.2 entry.1.text

theorem numbered_append {chunks : List AttachmentTextChunk} (h : Numbered attachmentId chunks)
    (pageNumber : Option Nat) (values : List Units) :
    Numbered attachmentId
      (chunks ++ pageChunks attachmentId pageNumber chunks.length values) := by
  have hnew (index : Nat) : (pageChunks attachmentId pageNumber index values).map (·.chunkId) =
      ((pageChunks attachmentId pageNumber index values).zipIdx index).map fun entry =>
        createChunkId attachmentId entry.2 entry.1.text := by
    unfold pageChunks
    induction values generalizing index with
    | nil => rfl
    | cons value values ih =>
      rw [List.zipIdx_cons, List.map_cons, List.map_cons, List.zipIdx_cons, List.map_cons]
      exact congrArg _ (ih (index + 1))
  unfold Numbered at *
  rw [List.map_append, List.zipIdx_append, List.map_append, h, Nat.zero_add, hnew]

/-- The running number in an id. -/
def chunkNumber (chunkId : Text) : Text := (chunkId.drop 2).takeWhile fun c => c != '-'

theorem chunkNumber_createChunkId (attachmentId : Text) (index : Nat) (text : Units) :
    chunkNumber (createChunkId attachmentId index text) = Nat.toDigits 10 (index + 1) := by
  have hdigits : ∀ c ∈ Nat.toDigits 10 (index + 1), (c != '-') = true := by
    intro c hc
    have hdigit : c.isDigit = true := Nat.isDigit_of_mem_toDigits (by decide) (by decide) hc
    rw [bne_iff_ne]
    rintro rfl
    exact absurd hdigit (by decide)
  unfold chunkNumber createChunkId
  dsimp only
  rw [List.drop_succ_cons, List.drop_succ_cons, List.drop_zero,
    List.takeWhile_append_of_pos hdigits, List.takeWhile_cons_of_neg (by simp), List.append_nil]

/-- **The ids are pairwise different**, whatever the digests are. -/
theorem nodup_chunkIds {chunks : List AttachmentTextChunk} (h : Numbered attachmentId chunks) :
    (chunks.map (·.chunkId)).Nodup := by
  have hinjective : Function.Injective fun n => Nat.toDigits 10 (n + 1) := by
    intro m n hmn
    have hvalue := congrArg (Nat.ofDigitChars 10 · 0) hmn
    simp only [Nat.ofDigitChars_ten_toDigits] at hvalue
    omega
  have hnumbers : (chunks.map (·.chunkId)).map chunkNumber =
      (List.range chunks.length).map fun n => Nat.toDigits 10 (n + 1) := by
    rw [h, List.map_map, List.range_eq_range', ← List.zipIdx_map_snd 0 chunks, List.map_map]
    refine List.map_congr_left fun entry _ => ?_
    exact chunkNumber_createChunkId attachmentId entry.2 entry.1.text
  refine List.Nodup.of_map chunkNumber ?_
  rw [hnumbers]
  exact List.Nodup.map hinjective List.nodup_range

end Pages

/-! ## 4. The document -/

section Document

variable [UnicodeTables] [Sha256]

omit [Sha256] in
/-- The passages of a page. -/
def AttachmentToolService.pagePassages (service : AttachmentToolService) (page : ParsedPage) :
    List Units :=
  service.passages (codeUnits (normalizeText (page.markdown.getD [])))

omit [Sha256] in
/-- How many chunks a document has, were there no limit. -/
def AttachmentToolService.chunkCount (service : AttachmentToolService) (pages : List ParsedPage) :
    Nat :=
  (pages.map fun page => (service.pagePassages page).length).sum

omit [Sha256] in
theorem chunkCount_cons (service : AttachmentToolService) (page : ParsedPage)
    (more : List ParsedPage) :
    service.chunkCount (page :: more) =
      (service.pagePassages page).length + service.chunkCount more := by
  unfold AttachmentToolService.chunkCount
  rw [List.map_cons, List.sum_cons]

omit [Sha256] in
/-- Chunks that hold a page: its text after NFKC is read off them in order, and none of its
    characters is cut in two everywhere. -/
structure HoldsPage (service : AttachmentToolService) (attachmentId : Text) (page : ParsedPage)
    (chunks : List AttachmentTextChunk) : Prop where
  labels : ∀ chunk ∈ chunks,
    chunk.attachmentId = attachmentId ∧ chunk.pageNumber = page.pageNumber
  inOrder : InOrder (solid CodeUnit.isBlank (codeUnits (nfkc (page.markdown.getD []))))
    (chunks.map fun chunk => solid CodeUnit.isBlank chunk.text)
  whole : ∀ c ∈ nfkc (page.markdown.getD []), isWhiteSpace c = false →
    (c.toNat < 0x10000 ∨ 0 < service.chunkOverlap) →
      ∃ chunk ∈ chunks, codeUnits [c] <:+: chunk.text

omit [Sha256] in
/-- What the chunks of a document are, page by page. -/
structure Chunked (service : AttachmentToolService) (attachmentId : Text)
    (pages : List ParsedPage) (chunks : List AttachmentTextChunk) : Prop where
  fits : ∀ chunk ∈ chunks, chunk.text.length ≤ service.chunkCharacters
  distinct : (chunks.map (·.chunkId)).Nodup
  holds : ∃ parts, parts.flatten = chunks ∧
    List.Forall₂ (HoldsPage service attachmentId) pages parts

omit [Sha256] in
theorem solid_normalizeText (value : Text) :
    solid CodeUnit.isBlank (codeUnits (normalizeText value)) =
      solid CodeUnit.isBlank (codeUnits (nfkc value)) := by
  have hvisible := visible_normalizeText value
  unfold visible at hvisible
  rw [solid_codeUnits, solid_codeUnits, hvisible]

omit [UnicodeTables] [Sha256] in
/-- A character that is not cut by every window stands whole in a passage. -/
theorem mem_passages {service : AttachmentToolService} {text : Text} {c : Char} (hc : c ∈ text)
    (hblank : isWhiteSpace c = false) (hwidth : c.toNat < 0x10000 ∨ 0 < service.chunkOverlap) :
    ∃ value ∈ service.passages (codeUnits text), codeUnits [c] <:+: value := by
  have hne := codeUnits_ne_nil c
  have hfits : (codeUnits [c]).length ≤ service.chunkCharacters - service.stride + 1 := by
    have hlt := service.overlap_lt
    rw [length_codeUnits, utf16Length_cons]
    simp only [AttachmentToolService.stride, utf16Length, List.map_nil, List.sum_nil]
    split
    · omega
    · rcases hwidth with hlow | hoverlap
      · omega
      · omega
  obtain ⟨w, hw, hin⟩ :=
    infix_windows service.stride_pos service.stride_le hne hfits (codeUnits_within hc)
  have hstrip := infix_strip hne (isBlank_of_mem_codeUnits hblank) hin
  refine ⟨strip CodeUnit.isBlank w, mem_readable_iff.mpr ⟨?_, w, hw, rfl⟩, hstrip⟩
  intro hnil
  rw [hnil, List.infix_nil] at hstrip
  exact hne hstrip

/-- **The passages of a page hold it.** -/
theorem pageChunks_hold (service : AttachmentToolService) (attachmentId : Text) (page : ParsedPage)
    (index : Nat) :
    HoldsPage service attachmentId page
      (pageChunks attachmentId page.pageNumber index (service.pagePassages page)) where
  labels := by
    intro chunk hchunk
    obtain ⟨hid, hnumber, -⟩ := mem_pageChunks chunk hchunk
    exact ⟨hid, hnumber⟩
  inOrder := by
    have hwindows := @windows_inOrder _ CodeUnit.isBlank _ _ service.stride_pos
      service.stride_le (codeUnits (normalizeText (page.markdown.getD [])))
    have htexts := text_pageChunks attachmentId page.pageNumber index (service.pagePassages page)
    have hsolid (chunks : List AttachmentTextChunk) :
        (chunks.map fun chunk => solid CodeUnit.isBlank chunk.text) =
          (chunks.map (·.text)).map (solid CodeUnit.isBlank) := by
      rw [List.map_map]
      rfl
    rw [hsolid, htexts, ← solid_normalizeText]
    exact hwindows.readable
  whole := by
    intro c hc hblank hwidth
    have hmem : c ∈ visible (nfkc (page.markdown.getD [])) :=
      List.mem_filter.mpr ⟨hc, by rw [hblank]; rfl⟩
    rw [← visible_normalizeText] at hmem
    obtain ⟨value, hvalue, hin⟩ := mem_passages (List.mem_of_mem_filter hmem) hblank hwidth
    have hpassage : value ∈ service.pagePassages page := hvalue
    rw [← text_pageChunks attachmentId page.pageNumber index (service.pagePassages page)]
      at hpassage
    obtain ⟨chunk, hchunk, rfl⟩ := List.mem_map.mp hpassage
    exact ⟨chunk, hchunk, hin⟩

theorem pageChunks_fit {service : AttachmentToolService} {attachmentId : Text} {page : ParsedPage}
    {index : Nat} :
    ∀ chunk ∈ pageChunks attachmentId page.pageNumber index (service.pagePassages page),
      chunk.text.length ≤ service.chunkCharacters := by
  intro chunk hchunk
  obtain ⟨-, -, hvalue⟩ := mem_pageChunks chunk hchunk
  obtain ⟨-, w, hw, hstrip⟩ := mem_readable_iff.mp hvalue
  have hwindow := length_of_mem_windows service.stride_pos hw
  have hle := length_strip_le CodeUnit.isBlank w
  rw [hstrip] at hle
  omega

/-- Pages that have no chunks need none. -/
theorem holdsPage_none {service : AttachmentToolService} {attachmentId : Text}
    {pages : List ParsedPage} (h : service.chunkCount pages = 0) :
    List.Forall₂ (HoldsPage service attachmentId) pages (pages.map fun _ => []) := by
  induction pages with
  | nil => exact .nil
  | cons page more ih =>
    rw [chunkCount_cons] at h
    have hpage := pageChunks_hold service attachmentId page 0
    have hnone : service.pagePassages page = [] := List.length_eq_zero_iff.mp (by omega)
    rw [hnone] at hpage
    exact .cons hpage (ih (by omega))

/-- One page of the loop. -/
theorem chunkPages_cons {service : AttachmentToolService} {attachmentId : Text} {page : ParsedPage}
    {more : List ParsedPage} {chunks part : List AttachmentTextChunk}
    (hroom : chunks.length + (service.pagePassages page).length ≤ service.maxChunks)
    (hpart : pageChunks attachmentId page.pageNumber chunks.length (service.pagePassages page) =
      part) :
    chunkPages service attachmentId (page :: more) chunks =
        (if (chunks ++ part).length = service.maxChunks then chunks ++ part
        else chunkPages service attachmentId more (chunks ++ part)) ∧
      (chunks ++ part).length = chunks.length + (service.pagePassages page).length := by
  constructor
  · have hpage := @chunkPageFrom_eq _ service attachmentId page.pageNumber
      (codeUnits (normalizeText (page.markdown.getD []))) 0 chunks
    rw [List.drop_zero] at hpage
    have hchunks := hpage hroom
    unfold AttachmentToolService.pagePassages at hpart
    rw [hpart] at hchunks
    rw [chunkPages, hchunks]
  · have htexts := congrArg List.length
      (text_pageChunks attachmentId page.pageNumber chunks.length (service.pagePassages page))
    rw [List.length_map, hpart] at htexts
    rw [List.length_append, htexts]

/-- **The loop over the pages**: every page gets its chunks, behind those collected so far. -/
theorem chunkPages_parts {service : AttachmentToolService} {attachmentId : Text}
    {pages : List ParsedPage} {chunks : List AttachmentTextChunk}
    (hroom : chunks.length + service.chunkCount pages ≤ service.maxChunks)
    (hnumbered : Numbered attachmentId chunks) :
    ∃ parts, chunkPages service attachmentId pages chunks = chunks ++ parts.flatten ∧
      Numbered attachmentId (chunks ++ parts.flatten) ∧
      (∀ chunk ∈ parts.flatten, chunk.text.length ≤ service.chunkCharacters) ∧
      List.Forall₂ (HoldsPage service attachmentId) pages parts := by
  induction pages generalizing chunks with
  | nil =>
    refine ⟨[], ?_, ?_, ?_, .nil⟩
    · rw [chunkPages, List.flatten_nil, List.append_nil]
    · rw [List.flatten_nil, List.append_nil]
      exact hnumbered
    · exact fun chunk hchunk => absurd hchunk List.not_mem_nil
  | cons page more ih =>
    rw [chunkCount_cons] at hroom
    have hnext := numbered_append hnumbered page.pageNumber (service.pagePassages page)
    have hholds := pageChunks_hold service attachmentId page chunks.length
    have hfits := @pageChunks_fit _ _ service attachmentId page chunks.length
    generalize hpart :
      pageChunks attachmentId page.pageNumber chunks.length (service.pagePassages page) = part
      at hnext hholds hfits
    obtain ⟨hstep, hlength⟩ := @chunkPages_cons _ _ service attachmentId page more chunks part
      (by omega) hpart
    rw [hstep]
    by_cases hfull : (chunks ++ part).length = service.maxChunks
    · have hnone : service.chunkCount more = 0 := by omega
      have hflat :
          (part :: more.map fun _ => ([] : List AttachmentTextChunk)).flatten = part := by
        simp
      rw [if_pos hfull]
      refine ⟨part :: more.map fun _ => [], ?_, ?_, ?_, .cons hholds (holdsPage_none hnone)⟩
      · rw [hflat]
      · rw [hflat]
        exact hnext
      · rw [hflat]
        exact hfits
    · have hroom' : (chunks ++ part).length + service.chunkCount more ≤ service.maxChunks := by
        omega
      obtain ⟨parts, hpages, hnum, hfit, hrest⟩ := ih hroom' hnext
      rw [if_neg hfull]
      refine ⟨part :: parts, ?_, ?_, ?_, .cons hholds hrest⟩
      · rw [hpages, List.flatten_cons, List.append_assoc]
      · rw [List.flatten_cons, ← List.append_assoc]
        exact hnum
      · intro chunk hchunk
        rcases List.mem_append.mp hchunk with hfirst | hlater
        · exact hfits chunk hfirst
        · exact hfit chunk hlater

omit [Sha256] in
/-- Pages whose chunks are none hold no text. -/
theorem blank_of_holds {service : AttachmentToolService} {attachmentId : Text}
    {pages : List ParsedPage} {parts : List (List AttachmentTextChunk)}
    (h : List.Forall₂ (HoldsPage service attachmentId) pages parts) (hnone : parts.flatten = []) :
    ∀ page ∈ pages, visible (nfkc (page.markdown.getD [])) = [] := by
  induction h with
  | nil => exact fun page hpage => absurd hpage List.not_mem_nil
  | cons hfirst _ ih =>
    rw [List.flatten_cons, List.append_eq_nil_iff] at hnone
    intro page hpage
    rcases List.mem_cons.mp hpage with rfl | hmore
    · have hsolid := hfirst.inOrder
      rw [hnone.1, List.map_nil, solid_codeUnits] at hsolid
      have hunits := inOrder_nil_right hsolid
      cases hvisible : visible (nfkc (page.markdown.getD [])) with
      | nil => rfl
      | cons c rest =>
        unfold visible at hvisible
        rw [hvisible, codeUnits_cons, List.append_eq_nil_iff] at hunits
        exact absurd hunits.1 (codeUnits_ne_nil c)
    · exact ih hnone.2 page hmore

/-- **Every document within the limit is cut into chunks that hold it after NFKC**, or has no
    text at all. -/
theorem chunks_cover_nfkc (service : AttachmentToolService) (attachmentId : Text)
    (pages : List ParsedPage) (hlimit : service.chunkCount pages ≤ service.maxChunks) :
    (∃ chunks, chunkParsedDocument service attachmentId pages = .ok chunks ∧
      Chunked service attachmentId pages chunks) ∨
    (chunkParsedDocument service attachmentId pages = .error noReadableText ∧
      ∀ page ∈ pages, visible (nfkc (page.markdown.getD [])) = []) := by
  obtain ⟨parts, hpages, hnumbered, hfit, hholds⟩ :=
    @chunkPages_parts _ _ service attachmentId pages [] (by simpa using hlimit) rfl
  rw [List.nil_append] at hpages hnumbered
  unfold chunkParsedDocument
  rw [hpages]
  dsimp only
  by_cases hnone : parts.flatten.length = 0
  · exact .inr ⟨if_pos hnone, blank_of_holds hholds (List.length_eq_zero_iff.mp hnone)⟩
  · exact .inl ⟨parts.flatten, if_neg hnone, hfit, nodup_chunkIds hnumbered, parts, rfl, hholds⟩

end Document

theorem chunks_cover_nfkc_page :
    let _ : UnicodeTables := ⟨id, id⟩
    let _ : Sha256 := ⟨id⟩
    let service : AttachmentToolService := ⟨4, 1, 2, by decide, by decide⟩
    let pages : List ParsedPage := [⟨some ['a', 'b'], some 1⟩]
    service.chunkCount pages ≤ service.maxChunks ∧
      ((∃ chunks, chunkParsedDocument service ['d'] pages = .ok chunks ∧
        Chunked service ['d'] pages chunks) ∨
      (chunkParsedDocument service ['d'] pages = .error noReadableText ∧
        ∀ page ∈ pages, visible (nfkc (page.markdown.getD [])) = [])) := by
  intro _ _ service pages
  have htext : normalizeText ['a', 'b'] = ['a', 'b'] := by decide
  have hwindows : windows 3 4 (codeUnits ['a', 'b']) = [codeUnits ['a', 'b']] :=
    windows_short (by decide) (by decide) (by decide)
  have hcount : service.chunkCount pages = 1 := by
    unfold AttachmentToolService.chunkCount AttachmentToolService.pagePassages
      AttachmentToolService.passages
    rw [List.map_singleton, Option.getD_some, htext]
    show ([(readable CodeUnit.isBlank (windows 3 4 (codeUnits ['a', 'b']))).length]).sum = 1
    rw [hwindows]
    rfl
  have hlimit : service.chunkCount pages ≤ service.maxChunks := by
    rw [hcount]
    exact Nat.le_succ 1
  exact ⟨hlimit, chunks_cover_nfkc service ['d'] pages hlimit⟩

/-- NFKC makes `1` of `①`, and the chunks hold that. -/
theorem circled_digit_replaced :
    let _ : UnicodeTables := ⟨fun s => s.map fun c => if c = '①' then '1' else c, id⟩
    let _ : Sha256 := ⟨id⟩
    ∃ service, AttachmentToolServiceOptions.service {} = .ok service ∧
      service.chunkCount [⟨some ['①'], some 1⟩] ≤ service.maxChunks ∧
      ∃ chunks, chunkParsedDocument service ['d'] [⟨some ['①'], some 1⟩] = .ok chunks ∧
        ¬ ∃ chunk ∈ chunks, codeUnits ['①'] <:+: chunk.text := by
  intro _ _
  have hservice : AttachmentToolServiceOptions.service {} =
      .ok ⟨2400, 200, 256, by decide, by decide⟩ := rfl
  have htext : normalizeText ['①'] = ['1'] := by decide
  have hwindows : windows 2200 2400 (codeUnits ['1']) = [codeUnits ['1']] :=
    windows_short (by decide) (by decide) (by decide)
  have hpassages : AttachmentToolService.passages ⟨2400, 200, 256, by decide, by decide⟩
      (codeUnits (normalizeText ['①'])) = [codeUnits ['1']] := by
    unfold AttachmentToolService.passages
    rw [htext]
    show readable CodeUnit.isBlank (windows 2200 2400 (codeUnits ['1'])) = _
    rw [hwindows]
    rfl
  have hchunks : chunkPageFrom ⟨2400, 200, 256, by decide, by decide⟩ ['d'] (some 1)
      (codeUnits (normalizeText ['①'])) 0 [] =
        [⟨createChunkId ['d'] 0 (codeUnits ['1']), ['d'], codeUnits ['1'], some 1⟩] := by
    have hroom := @chunkPageFrom_eq _ ⟨2400, 200, 256, by decide, by decide⟩ ['d'] (some 1)
      (codeUnits (normalizeText ['①'])) 0 []
    rw [List.drop_zero, hpassages] at hroom
    exact hroom (by decide)
  refine ⟨_, hservice, ?_,
    [⟨createChunkId ['d'] 0 (codeUnits ['1']), ['d'], codeUnits ['1'], some 1⟩], ?_, ?_⟩
  · unfold AttachmentToolService.chunkCount AttachmentToolService.pagePassages
    rw [List.map_singleton, Option.getD_some, hpassages]
    show 1 ≤ 256
    omega
  · unfold chunkParsedDocument chunkPages
    dsimp only
    rw [Option.getD_some, hchunks]
    rfl
  · rintro ⟨chunk, hchunk, hin⟩
    rw [List.mem_singleton.mp hchunk] at hin
    exact absurd hin (by decide)

end OpenVac.AttachmentTools
