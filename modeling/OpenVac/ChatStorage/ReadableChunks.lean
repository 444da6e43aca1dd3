/-
  File:      OpenVac/ChatStorage/ReadableChunks.lean
  Subject:   The agent reads every passage the worker writes.

  * `Fits` -- a passage as the reader wants it: some text, not too much, a good page number.
  * `WellNumbered` -- what is asked of a parser: page numbers from 1 on.
  * `chunksForLocalText_fits`, `chunksForParsedDocument_fits` -- every way of cutting a document.
    A buffer of blank CSV lines may grow without bound, but blanks do not count.
-/
import OpenVac.ChatStorage.AgentStorage

namespace OpenVac.ChatStorage

open JsString

/-! ## 1. Blanks -/

theorem blank_of_trim {s : Text} (h : trim s = []) : ∀ c ∈ s, isWhiteSpace c = true := by
  unfold trim trimEnd at h
  rw [List.rdropWhile_eq_nil_iff] at h
  have hstart : trimStart s = [] := by
    cases hs : trimStart s with
    | nil => rfl
    | cons c rest =>
      -- the first character that is kept is no blank
      have hblank := h c (hs ▸ List.mem_cons_self)
      have hne : s.dropWhile isWhiteSpace ≠ [] := by
        intro he
        unfold trimStart at hs
        rw [he] at hs
        nomatch hs
      have hhead := List.head_dropWhile_not isWhiteSpace hne
      have hc : (s.dropWhile isWhiteSpace).head hne = c := by
        unfold trimStart at hs
        simp [hs]
      rw [hc, hblank] at hhead
      nomatch hhead
  unfold trimStart at hstart
  rw [List.dropWhile_eq_nil_iff] at hstart
  exact hstart

theorem trim_append_of_blank {blank : Text} (h : ∀ c ∈ blank, isWhiteSpace c = true) (s : Text) :
    trim (blank ++ s) = trim s := by
  unfold trim trimStart
  rw [List.dropWhile_append_of_pos h]

theorem join_append_singleton {separator : Text} {parts : List Text} (hne : parts ≠ [])
    (line : Text) :
    join separator (parts ++ [line]) = join separator parts ++ (separator ++ line) := by
  induction parts with
  | nil => exact absurd rfl hne
  | cons part rest ih =>
    cases rest with
    | nil => rw [List.singleton_append, join_cons_cons, join_singleton, join_singleton]
    | cons next more =>
      have hrest := ih (List.cons_ne_nil _ _)
      rw [List.cons_append, List.cons_append, join_cons_cons, join_cons_cons,
        ← List.cons_append, hrest, List.append_assoc, List.append_assoc]

/-! ## 2. Passages that fit -/

def GoodLocator (locator : Locator) : Prop := ∃ page, pageNumberFromLocator locator = .ok page

theorem goodLocator_page {page : Nat} (h : 1 ≤ page ∧ page ≤ MAX_SAFE_INTEGER) (start stop : Nat) :
    GoodLocator (.page page start stop) := by
  refine ⟨some page, ?_⟩
  simp only [pageNumberFromLocator]
  rw [if_neg]
  omega

/-- The reader takes the passage's text and its page number. -/
def Fits (chunk : PrivateAttachmentChunk) : Prop :=
  chunk.content ≠ [] ∧ utf16Length chunk.content ≤ MAX_CHUNK_CHARACTERS ∧ GoodLocator chunk.locator

/-- The text of a piece fits. -/
def TextChunk.Fits (chunk : TextChunk) : Prop :=
  chunk.content ≠ [] ∧ utf16Length chunk.content ≤ MAX_CHUNK_CHARACTERS

theorem chunkTextFrom_fits {text : Text} {start : Nat} {chunks chunks' : List TextChunk}
    (hb : ∀ chunk ∈ chunks, chunk.Fits) (h : chunkTextFrom text start chunks = .ok chunks') :
    ∀ chunk ∈ chunks', chunk.Fits := by
  induction hn : utf16Length text - start using Nat.strong_induction_on generalizing start chunks
  next n ih =>
    unfold chunkTextFrom at h
    by_cases hstart : start < utf16Length text
    · rw [dif_pos hstart] at h
      -- what follows the push of this piece
      have hrest : ∀ {pushed : List TextChunk}, (∀ chunk ∈ pushed, chunk.Fits) →
          (if start + MAX_CHUNK_CHARACTERS ≥ utf16Length text then Except.ok pushed
            else chunkTextFrom text (start + (MAX_CHUNK_CHARACTERS - CHUNK_OVERLAP_CHARACTERS))
              pushed) = .ok chunks' → ∀ chunk ∈ chunks', chunk.Fits := by
        intro pushed hpushed hp
        have hstep : 0 < MAX_CHUNK_CHARACTERS - CHUNK_OVERLAP_CHARACTERS := by decide
        split at hp
        · injection hp with hp
          rw [← hp]
          exact hpushed
        · exact ih _ (by omega) hpushed hp rfl
      dsimp only at h
      split at h
      · exact hrest hb h
      · rename_i hcontent
        obtain ⟨pushed, hpush, h⟩ := Except.bind_ok_iff.mp h
        refine hrest (fun chunk hchunk => ?_) h
        rw [withinLimit_ok hpush] at hchunk
        rcases List.mem_append.mp hchunk with hchunk | hchunk
        · exact hb chunk hchunk
        · rw [List.mem_singleton.mp hchunk]
          refine ⟨fun he => hcontent (List.isEmpty_iff.mpr he), ?_⟩
          calc
            utf16Length (trim (slice start (start + MAX_CHUNK_CHARACTERS) text))
                ≤ utf16Length (slice start (start + MAX_CHUNK_CHARACTERS) text) :=
              utf16Length_trim_le _
            _ ≤ start + MAX_CHUNK_CHARACTERS - start := utf16Length_slice_le _ _ _
            _ = MAX_CHUNK_CHARACTERS := Nat.add_sub_cancel_left _ _
    · rw [dif_neg hstart] at h
      injection h with h
      rw [← h]
      exact hb

theorem chunkText_fits {text : Text} {chunks : List TextChunk} (h : chunkText text = .ok chunks) :
    ∀ chunk ∈ chunks, chunk.Fits :=
  chunkTextFrom_fits (fun _ hc => absurd hc List.not_mem_nil) h

/-- What pushes fitting passages only. -/
theorem foldlM_fits {α : Type}
    {f : List PrivateAttachmentChunk → α → Except StorageError (List PrivateAttachmentChunk)}
    {l : List α} {chunks chunks' : List PrivateAttachmentChunk} (h0 : ∀ chunk ∈ chunks, Fits chunk)
    (hs : ∀ before a after, a ∈ l → (∀ chunk ∈ before, Fits chunk) → f before a = .ok after →
      ∀ chunk ∈ after, Fits chunk) (h : l.foldlM f chunks = .ok chunks') :
    ∀ chunk ∈ chunks', Fits chunk :=
  @Except.foldlM_invariant _ _ _ (fun chunks => ∀ chunk ∈ chunks, Fits chunk) _ _ _ _ h0 hs h

section Cutting

variable [Sha256]

theorem pushPassage_fits {locator : Locator} {parserJobId : Option String}
    {chunks chunks' : List PrivateAttachmentChunk} {content : Text}
    (hb : ∀ chunk ∈ chunks, Fits chunk) (hlocator : GoodLocator locator) (hne : content ≠ [])
    (hle : utf16Length content ≤ MAX_CHUNK_CHARACTERS)
    (h : pushPassage locator parserJobId chunks content = .ok chunks') :
    ∀ chunk ∈ chunks', Fits chunk := by
  rw [withinLimit_ok h]
  intro chunk hchunk
  rcases List.mem_append.mp hchunk with hchunk | hchunk
  · exact hb chunk hchunk
  · rw [List.mem_singleton.mp hchunk]
    exact ⟨hne, hle, hlocator⟩

/-! ### CSV -/

/-- What is in the buffer fits, but for blanks around it. -/
structure CsvState.Sound (s : CsvState) : Prop where
  chunks : ∀ chunk ∈ s.chunks, Fits chunk
  buffer : utf16Length (trim (join ['\n'] s.buffer)) ≤ MAX_CHUNK_CHARACTERS

/-- A flush empties the buffer, or the buffer is blank and stays. -/
theorem csvFlush_sound {s s' : CsvState} (hs : s.Sound) (h : csvFlush s = .ok s') :
    s'.Sound ∧ (s'.buffer = [] ∨ s' = s ∧ trim (join ['\n'] s.buffer) = []) := by
  unfold csvFlush at h
  dsimp only at h
  split at h
  · rename_i hblank
    injection h with h
    rw [← h]
    exact ⟨hs, Or.inr ⟨rfl, List.isEmpty_iff.mp hblank⟩⟩
  · rename_i hcontent
    obtain ⟨chunks, hpush, h⟩ := Except.bind_ok_iff.mp h
    injection h with h
    rw [← h]
    refine ⟨⟨?_, Nat.zero_le _⟩, Or.inl rfl⟩
    exact pushPassage_fits hs.chunks ⟨none, rfl⟩ (fun he => hcontent (List.isEmpty_iff.mpr he))
      hs.buffer hpush

theorem csvFlushIf_sound {s s' : CsvState} {condition : Bool} (hs : s.Sound)
    (h : csvFlushIf condition s = .ok s') : s'.Sound := by
  unfold csvFlushIf at h
  split at h
  · exact (csvFlush_sound hs h).1
  · injection h with h
    rw [← h]
    exact hs

/-- **One line more.** -/
theorem csvLine_sound {s s' : CsvState} {line : Text} (hs : s.Sound)
    (h : csvLine s line = .ok s') : s'.Sound := by
  unfold csvLine at h
  dsimp only at h
  obtain ⟨s₁, h₁, h⟩ := Except.bind_ok_iff.mp h
  have hs₁ := csvFlushIf_sound hs h₁
  split at h
  · obtain ⟨s₂, h₂, h⟩ := Except.bind_ok_iff.mp h
    have hs₂ := csvFlushIf_sound hs₁ h₂
    obtain ⟨parts, hparts, h⟩ := Except.bind_ok_iff.mp h
    obtain ⟨chunks, hchunks, h⟩ := Except.bind_ok_iff.mp h
    injection h with h
    rw [← h]
    refine ⟨?_, hs₂.buffer⟩
    refine foldlM_fits hs₂.chunks (fun before part after hpart hb hp => ?_) hchunks
    have hfits := chunkText_fits hparts part hpart
    exact pushPassage_fits hb ⟨none, rfl⟩ hfits.1 hfits.2 hp
  · rename_i hline
    injection h with h
    rw [← h]
    refine ⟨hs₁.chunks, ?_⟩
    show utf16Length (trim (join ['\n'] (s₁.buffer ++ [line]))) ≤ MAX_CHUNK_CHARACTERS
    have hshort : utf16Length (trim line) ≤ MAX_CHUNK_CHARACTERS :=
      Nat.le_trans (utf16Length_trim_le line) (Nat.not_lt.mp hline)
    by_cases hempty : s₁.buffer = []
    · rw [hempty, List.nil_append, join_singleton]
      exact hshort
    · unfold csvFlushIf at h₁
      split at h₁
      · -- flushed, yet not empty: the lines so far are blank
        rcases (csvFlush_sound hs h₁).2 with he | ⟨he, hblank⟩
        · exact absurd he hempty
        · subst he
          have hall : ∀ c ∈ join ['\n'] s₁.buffer ++ ['\n'], isWhiteSpace c = true := by
            intro c hc
            rcases List.mem_append.mp hc with hc | hc
            · exact blank_of_trim hblank c hc
            · rw [List.mem_singleton.mp hc]
              decide
          rw [join_append_singleton hempty, ← List.append_assoc, trim_append_of_blank hall]
          exact hshort
      · rename_i hfull
        injection h₁ with h₁
        rw [h₁] at hfull
        have hpos : 0 < s₁.buffer.length := List.length_pos_iff.mpr hempty
        simp only [hpos, decide_true, Bool.true_and, decide_eq_true_eq, Nat.not_lt] at hfull
        exact Nat.le_trans (utf16Length_trim_le _) hfull

theorem chunksForCsv_fits {text : Text} {chunks : List PrivateAttachmentChunk}
    (h : chunksForCsv text = .ok chunks) : ∀ chunk ∈ chunks, Fits chunk := by
  unfold chunksForCsv at h
  obtain ⟨s, h₁, h⟩ := Except.bind_ok_iff.mp h
  have hinitial : CsvState.Sound ⟨[], 1, []⟩ :=
    ⟨fun _ hc => absurd hc List.not_mem_nil, Nat.zero_le _⟩
  have hs : s.Sound :=
    Except.foldlM_invariant hinitial (fun _ _ _ _ hb hl => csvLine_sound hb hl) h₁
  obtain ⟨s', h₂, h⟩ := Except.bind_ok_iff.mp h
  have hs' := csvFlushIf_sound hs h₂
  split at h
  · nomatch h
  · injection h with h
    rw [← h]
    exact hs'.chunks

/-! ### Texts and parsed documents -/

/-- **Every passage of a local text fits.** -/
theorem chunksForLocalText_fits {mimeType : String} {text : Text}
    {chunks : List PrivateAttachmentChunk} (h : chunksForLocalText mimeType text = .ok chunks) :
    ∀ chunk ∈ chunks, Fits chunk := by
  unfold chunksForLocalText at h
  split at h
  · nomatch h
  · split at h
    · exact chunksForCsv_fits h
    · obtain ⟨parts, hparts, h⟩ := Except.bind_ok_iff.mp h
      injection h with h
      rw [← h]
      intro chunk hchunk
      obtain ⟨entry, hentry, rfl⟩ := List.mem_map.mp hchunk
      have hfits := chunkText_fits hparts entry.1 (List.fst_mem_of_mem_zipIdx hentry)
      exact ⟨hfits.1, hfits.2, none, rfl⟩

/-- The parser's page numbers are safe integers from 1 on; an array has less than 2^32 items. -/
structure ParsedDocument.WellNumbered (parsed : ParsedDocument) : Prop where
  length_lt : parsed.pages.length < 4294967296
  pages : ∀ page ∈ parsed.pages, ∀ n, page.pageNumber = some n → 1 ≤ n ∧ n ≤ MAX_SAFE_INTEGER

/-- **Every passage of a parsed document fits.** -/
theorem chunksForParsedDocument_fits {parsed : ParsedDocument} (hparsed : parsed.WellNumbered)
    {chunks : List PrivateAttachmentChunk} (h : chunksForParsedDocument parsed = .ok chunks) :
    ∀ chunk ∈ chunks, Fits chunk := by
  unfold chunksForParsedDocument at h
  obtain ⟨all, h₁, h⟩ := Except.bind_ok_iff.mp h
  have hall : ∀ chunk ∈ all, Fits chunk := by
    refine foldlM_fits (fun _ hc => absurd hc List.not_mem_nil) ?_ h₁
    intro before entry after hentry hb hp
    unfold chunkPage at hp
    dsimp only at hp
    split at hp
    · injection hp with hp
      rw [← hp]
      exact hb
    · obtain ⟨pageChunks, hpage, hp⟩ := Except.bind_ok_iff.mp hp
      have hnumber : 1 ≤ entry.1.pageNumber.getD (entry.2 + 1) ∧
          entry.1.pageNumber.getD (entry.2 + 1) ≤ MAX_SAFE_INTEGER := by
        cases hn : entry.1.pageNumber with
        | some n => exact hparsed.pages entry.1 (List.fst_mem_of_mem_zipIdx hentry) n hn
        | none =>
          have hlt := List.snd_lt_of_mem_zipIdx hentry
          have hlength := hparsed.length_lt
          show 1 ≤ entry.2 + 1 ∧ entry.2 + 1 ≤ 9007199254740991
          omega
      refine foldlM_fits hb (fun before part after hpart hb hq => ?_) hp
      have hfits := chunkText_fits hpage part hpart
      exact pushPassage_fits hb (goodLocator_page hnumber _ _) hfits.1 hfits.2 hq
  split at h
  · nomatch h
  · injection h with h
    rw [← h]
    exact hall

end Cutting

end OpenVac.ChatStorage
