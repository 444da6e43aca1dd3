/-
  File:      OpenVac/ChatStorage/Chunks.lean
  Subject:   The passages of a document: chunksForLocalText and chunksForParsedDocument of
             worker/chat-storage.ts.

  * `Numbered` -- the ordinals of passages are 0, 1, …; every way of cutting a document yields
    numbered passages (`chunksForLocalText_numbered`, `chunksForParsedDocument_numbered`).
-/
import OpenVac.ChatStorage.Tables

namespace OpenVac.ChatStorage

open JsString

def MAX_CHUNK_CHARACTERS : Nat := 8000

def CHUNK_OVERLAP_CHARACTERS : Nat := 200

def MAX_CHUNKS : Nat := 4096

def tooManyChunks : StorageError := .thrown "Attachment parsing exceeds 4096 private chunks."

/-- `assertChunkLimit`. -/
def withinLimit {α : Type} (chunks : List α) : Except StorageError (List α) :=
  if chunks.length > MAX_CHUNKS then .error tooManyChunks else .ok chunks

theorem withinLimit_ok {α : Type} {chunks chunks' : List α}
    (h : withinLimit chunks = .ok chunks') : chunks' = chunks := by
  unfold withinLimit at h
  split at h
  · nomatch h
  · injection h with h
    exact h.symm

structure TextChunk where
  content : Text
  start : Nat
  stop : Nat

/-- The passages of a text from an offset on, behind those collected so far. -/
def chunkTextFrom (text : Text) (start : Nat) (chunks : List TextChunk) :
    Except StorageError (List TextChunk) :=
  if h : start < utf16Length text then do
    let raw := slice start (start + MAX_CHUNK_CHARACTERS) text
    let content := trim raw
    let chunks ←
      if content.isEmpty then .ok chunks
      else
        let leading := utf16Length raw - utf16Length (trimStart raw)
        withinLimit
          (chunks ++ [⟨content, start + leading, start + leading + utf16Length content⟩])
    if start + MAX_CHUNK_CHARACTERS ≥ utf16Length text then .ok chunks
    else chunkTextFrom text (start + (MAX_CHUNK_CHARACTERS - CHUNK_OVERLAP_CHARACTERS)) chunks
  else .ok chunks
termination_by utf16Length text - start
decreasing_by
  simp only [MAX_CHUNK_CHARACTERS, CHUNK_OVERLAP_CHARACTERS]
  omega

def chunkText (text : Text) : Except StorageError (List TextChunk) := chunkTextFrom text 0 []

def lineNumberAt (text : Text) (offset : Nat) : Nat := (split '\n' (slice 0 offset text)).length

/-- `text.split(/\r?\n/u)`. -/
def splitLines (text : Text) : List Text :=
  match (split '\n' text).reverse with
  | [] => []
  | last :: before =>
      -- every line but the last ends in a line feed, which may follow a carriage return
      (before.map fun line => if line.getLast? = some '\r' then line.dropLast else line).reverse ++
        [last]

/-- The ordinals are the positions. -/
def Numbered (chunks : List PrivateAttachmentChunk) : Prop :=
  chunks.map (·.ordinal) = List.range chunks.length

theorem numbered_nil : Numbered [] := rfl

section Cutting

variable [Sha256]

def passage (ordinal : Nat) (content : Text) (locator : Locator) (parserJobId : Option String) :
    PrivateAttachmentChunk :=
  ⟨ordinal, content, Sha256.hex content, locator, parserJobId⟩

structure CsvState where
  chunks : List PrivateAttachmentChunk
  rowStart : Nat
  buffer : List Text

/-- `flush`: a buffer of blanks stays. -/
def csvFlush (s : CsvState) : Except StorageError CsvState :=
  let content := trim (join ['\n'] s.buffer)
  if content.isEmpty then .ok s
  else do
    let chunks ← withinLimit
      (s.chunks ++ [passage s.chunks.length content
        (.csvRows s.rowStart (s.rowStart + s.buffer.length - 1)) none])
    .ok ⟨chunks, s.rowStart + s.buffer.length, []⟩

def csvFlushIf (condition : Bool) (s : CsvState) : Except StorageError CsvState :=
  if condition then csvFlush s else .ok s

/-- One passage more, numbered by the passages before it. -/
def pushPassage (locator : Locator) (parserJobId : Option String)
    (chunks : List PrivateAttachmentChunk) (content : Text) :
    Except StorageError (List PrivateAttachmentChunk) :=
  withinLimit (chunks ++ [passage chunks.length content locator parserJobId])

def csvLine (s : CsvState) (line : Text) : Except StorageError CsvState := do
  let candidate := join ['\n'] (s.buffer ++ [line])
  let s ← csvFlushIf (s.buffer.length > 0 && utf16Length candidate > MAX_CHUNK_CHARACTERS) s
  if utf16Length line > MAX_CHUNK_CHARACTERS then
    let s ← csvFlushIf (s.buffer.length > 0) s
    let parts ← chunkText line
    let chunks ← parts.foldlM (fun chunks part =>
      pushPassage (.csvRow s.rowStart) none chunks part.content) s.chunks
    .ok { s with chunks := chunks, rowStart := s.rowStart + 1 }
  else .ok { s with buffer := s.buffer ++ [line] }

def chunksForCsv (text : Text) : Except StorageError (List PrivateAttachmentChunk) := do
  let s ← (splitLines text).foldlM csvLine ⟨[], 1, []⟩
  let s ← csvFlushIf (s.buffer.length > 0) s
  if s.chunks.isEmpty then .error (.thrown "CSV attachment contains no rows.") else .ok s.chunks

/-- The text is the decoded file; a file that is not UTF-8 has none. -/
def chunksForLocalText (mimeType : String) (text : Text) :
    Except StorageError (List PrivateAttachmentChunk) :=
  if (trim text).isEmpty || text.contains '\x00' then
    .error (.thrown "Attachment text is empty or invalid UTF-8.")
  else if mimeType = "text/csv" then chunksForCsv text
  else do
    let chunks ← chunkText text
    .ok (chunks.zipIdx.map fun entry =>
      passage entry.2 entry.1.content
        (.lines (decide (mimeType = "text/markdown")) (lineNumberAt text entry.1.start)
          (lineNumberAt text entry.1.stop)) none)

structure ParsedPage where
  markdown : Option Text
  pageNumber : Option Nat

structure ParsedDocument where
  jobId : String
  pages : List ParsedPage

/-- The passages of one page, behind those of the pages before it. -/
def chunkPage (jobId : String) (chunks : List PrivateAttachmentChunk) (entry : ParsedPage × Nat) :
    Except StorageError (List PrivateAttachmentChunk) :=
  let markdown := trim (entry.1.markdown.getD [])
  if markdown.isEmpty then .ok chunks
  else do
    let pageChunks ← chunkText markdown
    pageChunks.foldlM (fun chunks chunk =>
      pushPassage (.page (entry.1.pageNumber.getD (entry.2 + 1)) chunk.start chunk.stop)
        (some jobId) chunks chunk.content) chunks

def chunksForParsedDocument (parsed : ParsedDocument) :
    Except StorageError (List PrivateAttachmentChunk) := do
  let chunks ← parsed.pages.zipIdx.foldlM (chunkPage parsed.jobId) []
  if chunks.isEmpty then .error (.thrown "Attachment parser returned no extractable text.")
  else .ok chunks

/-! ## Ordinals -/

theorem numbered_push {chunks : List PrivateAttachmentChunk} (h : Numbered chunks)
    (content : Text) (locator : Locator) (parserJobId : Option String) :
    Numbered (chunks ++ [passage chunks.length content locator parserJobId]) := by
  unfold Numbered at *
  rw [List.map_append, h, List.length_append, List.length_singleton, List.range_succ]
  rfl

theorem pushPassage_numbered {locator : Locator} {parserJobId : Option String}
    {chunks chunks' : List PrivateAttachmentChunk} {content : Text} (h : Numbered chunks)
    (hp : pushPassage locator parserJobId chunks content = .ok chunks') : Numbered chunks' := by
  rw [withinLimit_ok hp]
  exact numbered_push h content locator parserJobId

theorem csvFlush_numbered {s s' : CsvState} (h : Numbered s.chunks) (hf : csvFlush s = .ok s') :
    Numbered s'.chunks := by
  unfold csvFlush at hf
  simp only at hf
  split at hf
  · injection hf with hf
    rw [← hf]
    exact h
  · obtain ⟨chunks, h1, h2⟩ := Except.bind_ok_iff.mp hf
    injection h2 with h2
    rw [← h2]
    show Numbered chunks
    rw [withinLimit_ok h1]
    exact numbered_push h _ _ _

theorem csvFlushIf_numbered {s s' : CsvState} {condition : Bool} (h : Numbered s.chunks)
    (hf : csvFlushIf condition s = .ok s') : Numbered s'.chunks := by
  unfold csvFlushIf at hf
  split at hf
  · exact csvFlush_numbered h hf
  · injection hf with hf
    rw [← hf]
    exact h

theorem csvLine_numbered {s s' : CsvState} {line : Text} (h : Numbered s.chunks)
    (hl : csvLine s line = .ok s') : Numbered s'.chunks := by
  unfold csvLine at hl
  obtain ⟨s₁, h1, hl⟩ := Except.bind_ok_iff.mp hl
  have hn1 := csvFlushIf_numbered h h1
  split at hl
  · obtain ⟨s₂, h2, hl⟩ := Except.bind_ok_iff.mp hl
    have hn2 := csvFlushIf_numbered hn1 h2
    obtain ⟨parts, -, hl⟩ := Except.bind_ok_iff.mp hl
    obtain ⟨chunks, h3, hl⟩ := Except.bind_ok_iff.mp hl
    injection hl with hl
    rw [← hl]
    exact Except.foldlM_invariant hn2
      (fun _ _ _ _ hb hp => pushPassage_numbered hb hp) h3
  · injection hl with hl
    rw [← hl]
    exact hn1

theorem chunksForCsv_numbered {text : Text} {chunks : List PrivateAttachmentChunk}
    (h : chunksForCsv text = .ok chunks) : Numbered chunks := by
  unfold chunksForCsv at h
  obtain ⟨s, h1, h⟩ := Except.bind_ok_iff.mp h
  have hrule := @Except.foldlM_invariant _ _ _ (fun s : CsvState => Numbered s.chunks) csvLine
  have hn : Numbered s.chunks :=
    hrule numbered_nil (fun _ _ _ _ hb hl => csvLine_numbered hb hl) h1
  obtain ⟨s', h2, h⟩ := Except.bind_ok_iff.mp h
  have hn' := csvFlushIf_numbered hn h2
  split at h
  · nomatch h
  · injection h with h
    rw [← h]
    exact hn'

/-- **Every local text is cut into numbered passages.** -/
theorem chunksForLocalText_numbered {mimeType : String} {text : Text}
    {chunks : List PrivateAttachmentChunk} (h : chunksForLocalText mimeType text = .ok chunks) :
    Numbered chunks := by
  unfold chunksForLocalText at h
  split at h
  · nomatch h
  · split at h
    · exact chunksForCsv_numbered h
    · obtain ⟨parts, -, h⟩ := Except.bind_ok_iff.mp h
      injection h with h
      rw [← h]
      unfold Numbered
      rw [List.map_map, List.length_map, List.length_zipIdx]
      have hsnd : parts.zipIdx.map (·.2) = List.range parts.length := by
        rw [List.zipIdx_eq_zip_range', List.map_snd_zip, List.range_eq_range']
        rw [List.length_range']
      exact hsnd

/-- **Every parsed document is cut into numbered passages.** -/
theorem chunksForParsedDocument_numbered {parsed : ParsedDocument}
    {chunks : List PrivateAttachmentChunk} (h : chunksForParsedDocument parsed = .ok chunks) :
    Numbered chunks := by
  unfold chunksForParsedDocument at h
  obtain ⟨all, h1, h⟩ := Except.bind_ok_iff.mp h
  have hn : Numbered all := by
    refine Except.foldlM_invariant numbered_nil ?_ h1
    intro before entry after _ hb hp
    unfold chunkPage at hp
    simp only at hp
    split at hp
    · injection hp with hp
      rw [← hp]
      exact hb
    · obtain ⟨pageChunks, -, hp⟩ := Except.bind_ok_iff.mp hp
      exact Except.foldlM_invariant hb
        (fun _ _ _ _ hb' hq => pushPassage_numbered hb' hq) hp
  split at h
  · nomatch h
  · injection h with h
    rw [← h]
    exact hn

end Cutting

end OpenVac.ChatStorage
