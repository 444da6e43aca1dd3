/-
  File:      OpenVac/ChatStorage/Passages.lean
  Subject:   What the passages of a local text hold.

  * `ReadOff` -- the visible characters of a text are read off passages, each of them whole.
  * `textPieces`, `csvPieces` -- the passages of a text and of rows, without the limit;
    `chunkText_eq`, `chunksForCsv_eq`.
  * `textPieces_stretch` -- where a passage stands in its text.
  * `csvRows_rule` -- an induction for rows; `csvPieces_above`, `csvPieces_readOff`.
-/
import OpenVac.ChatStorage.ReadableChunks
import OpenVac.KnowledgeBase.SectionCoverage
import OpenVac.Lib.CodeWindows

namespace OpenVac.ChatStorage

open JsString
open KnowledgeBase (visible visible_append visible_cons visible_blank visible_flatten visible_trim)

/-! ## 1. Reading -/

/-- The visible characters of a text are read off passages in order, a stretch of each. -/
def ReadOff (characters : Text) (contents : List Text) : Prop :=
  ∃ parts : List Text, parts.flatten = characters ∧
    List.Forall₂ (fun part content => part <:+: visible content) parts contents

theorem readOff_nil : ReadOff [] [] := ⟨[], rfl, .nil⟩

theorem readOff_single {characters content : Text} (h : characters <:+: visible content) :
    ReadOff characters [content] := ⟨[characters], List.append_nil _, .cons h .nil⟩

theorem ReadOff.append {s t : Text} {contents more : List Text} (hs : ReadOff s contents)
    (ht : ReadOff t more) : ReadOff (s ++ t) (contents ++ more) := by
  obtain ⟨parts, rfl, hparts⟩ := hs
  obtain ⟨others, rfl, hothers⟩ := ht
  exact ⟨parts ++ others, List.flatten_append, List.rel_append hparts hothers⟩

theorem visible_eq_nil_iff {s : Text} : visible s = [] ↔ trim s = [] := by
  constructor
  · intro h
    unfold visible at h
    rw [List.filter_eq_nil_iff] at h
    have hblank : ∀ c ∈ s, isWhiteSpace c = true := fun c hc => by simpa using h c hc
    have htrim := trim_append_of_blank hblank []
    rw [List.append_nil] at htrim
    rw [htrim]
    rfl
  · intro h
    exact visible_blank (blank_of_trim h)

/-! ## 2. Texts -/

/-- The passage of a window, if there is anything in it. -/
def textChunk (w : Nat × Units) : List TextChunk :=
  let raw := ofCodeUnits w.2
  let content := trim raw
  let leading := utf16Length raw - utf16Length (trimStart raw)
  if content.isEmpty then []
  else [⟨content, w.1 + leading, w.1 + leading + utf16Length content⟩]

def textWindows (text : Text) (start : Nat) : List (Nat × Units) :=
  windowsFrom MAX_CHUNK_CHARACTERS (MAX_CHUNK_CHARACTERS - CHUNK_OVERLAP_CHARACTERS)
    (codeUnits text) start

/-- The passages of a text, were there no limit. -/
def textPieces (text : Text) : List TextChunk := (textWindows text 0).flatMap textChunk

/-- **The passages of a text are those of its windows.** -/
theorem chunkTextFrom_eq {text : Text} {start : Nat} {chunks chunks' : List TextChunk}
    (h : chunkTextFrom text start chunks = .ok chunks') :
    chunks' = chunks ++ (textWindows text start).flatMap textChunk := by
  unfold textWindows
  induction hn : utf16Length text - start using Nat.strong_induction_on generalizing start chunks
  next n ih =>
    have hstep : 0 < MAX_CHUNK_CHARACTERS - CHUNK_OVERLAP_CHARACTERS := by decide
    unfold chunkTextFrom at h
    rw [windowsFrom, length_codeUnits]
    by_cases hstart : start < utf16Length text
    · rw [dif_pos hstart] at h
      rw [if_pos ⟨hstart, hstep⟩, List.flatMap_cons]
      -- what follows the push of this piece
      have hrest : ∀ {pushed : List TextChunk},
          (if start + MAX_CHUNK_CHARACTERS ≥ utf16Length text then Except.ok pushed
            else chunkTextFrom text (start + (MAX_CHUNK_CHARACTERS - CHUNK_OVERLAP_CHARACTERS))
              pushed) = .ok chunks' →
          chunks' = pushed ++ (if utf16Length text ≤ start + MAX_CHUNK_CHARACTERS then []
            else windowsFrom MAX_CHUNK_CHARACTERS
              (MAX_CHUNK_CHARACTERS - CHUNK_OVERLAP_CHARACTERS) (codeUnits text)
              (start + (MAX_CHUNK_CHARACTERS - CHUNK_OVERLAP_CHARACTERS))).flatMap textChunk := by
        intro pushed hp
        by_cases hend : utf16Length text ≤ start + MAX_CHUNK_CHARACTERS
        · rw [if_pos hend] at hp ⊢
          rw [List.flatMap_nil, List.append_nil]
          exact (Except.ok.inj hp).symm
        · rw [if_neg hend] at hp ⊢
          exact ih _ (by omega) hp rfl
      have hraw : slice start (start + MAX_CHUNK_CHARACTERS) text =
          ofCodeUnits (sliceUnits start (start + MAX_CHUNK_CHARACTERS) (codeUnits text)) := rfl
      dsimp only at h
      unfold textChunk
      dsimp only
      rw [hraw] at h
      split at h
      · rename_i hempty
        rw [if_pos hempty, List.nil_append]
        exact hrest h
      · rename_i hcontent
        obtain ⟨pushed, hpush, h⟩ := Except.bind_ok_iff.mp h
        have hmore := hrest h
        rw [withinLimit_ok hpush, List.append_assoc] at hmore
        rw [if_neg hcontent]
        exact hmore
    · rw [dif_neg hstart] at h
      rw [if_neg fun hmore => hstart hmore.1, List.flatMap_nil, List.append_nil]
      exact (Except.ok.inj h).symm

theorem chunkText_eq {text : Text} {chunks : List TextChunk} (h : chunkText text = .ok chunks) :
    chunks = textPieces text := by
  have hchunks := chunkTextFrom_eq h
  rw [List.nil_append] at hchunks
  exact hchunks

/-- **A text is read off its passages.** -/
theorem textPieces_readOff (text : Text) :
    ReadOff (visible text) ((textPieces text).map (·.content)) := by
  obtain ⟨parts, hparts, hwindows⟩ := @windowsFrom_read MAX_CHUNK_CHARACTERS
    (MAX_CHUNK_CHARACTERS - CHUNK_OVERLAP_CHARACTERS) (by decide) (by decide) text
    (fun h => absurd h (by decide))
  unfold textPieces textWindows
  generalize windowsFrom MAX_CHUNK_CHARACTERS (MAX_CHUNK_CHARACTERS - CHUNK_OVERLAP_CHARACTERS)
    (codeUnits text) 0 = windows at hwindows ⊢
  rw [← hparts]
  clear hparts
  induction hwindows with
  | nil => exact readOff_nil
  | @cons part w _ _ hfirst _ ih =>
    have hread : visible part <:+: visible (ofCodeUnits w.2) :=
      (ofCodeUnits_within hfirst).filter _
    rw [List.flatten_cons, visible_append, List.flatMap_cons, List.map_append]
    refine ReadOff.append ?_ ih
    unfold textChunk
    dsimp only
    by_cases hempty : (trim (ofCodeUnits w.2)).isEmpty = true
    · rw [visible_eq_nil_iff.mpr (List.isEmpty_iff.mp hempty), List.infix_nil] at hread
      rw [if_pos hempty, hread]
      exact readOff_nil
    · rw [if_neg hempty]
      refine readOff_single ?_
      rw [visible_trim]
      exact hread

/-- **Where a passage stands in its text.** -/
theorem textPieces_stretch {text : Text} {chunk : TextChunk} (hchunk : chunk ∈ textPieces text) :
    ∃ before piece after : Units, codeUnits text = before ++ piece ++ after ∧
      chunk.content = ofCodeUnits piece ∧ (∀ unit ∈ piece.head?, unit.isBlank = false) ∧
      (∀ unit ∈ piece.getLast?, unit.isBlank = false) ∧
      chunk.start = before.length ∧ chunk.stop = (before ++ piece).length := by
  obtain ⟨w, hw, hchunk⟩ := List.mem_flatMap.mp hchunk
  obtain ⟨hoffset, hslice⟩ := slice_of_mem_windowsFrom w hw
  have hsound : ∀ unit ∈ w.2, unit.Sound := by
    intro unit hunit
    rw [hslice] at hunit
    exact sound_codeUnits text unit (List.mem_of_mem_take (List.mem_of_mem_drop hunit))
  have hwhole : codeUnits text = (codeUnits text).take w.1 ++ w.2 ++
      (codeUnits text).drop (w.1 + MAX_CHUNK_CHARACTERS) := by
    have hfront : (codeUnits text).take (w.1 + MAX_CHUNK_CHARACTERS) =
        (codeUnits text).take w.1 ++ w.2 := by
      have hcut := List.take_append_drop w.1 ((codeUnits text).take (w.1 + MAX_CHUNK_CHARACTERS))
      rw [List.take_take, Nat.min_eq_left (Nat.le_add_right _ _)] at hcut
      rw [hslice]
      exact hcut.symm
    rw [← hfront, List.take_append_drop]
  have hlead : w.2.takeWhile CodeUnit.isBlank ++ w.2.dropWhile CodeUnit.isBlank = w.2 :=
    List.takeWhile_append_dropWhile
  have htail : trimUnits w.2 ++ (w.2.dropWhile CodeUnit.isBlank).rtakeWhile CodeUnit.isBlank =
      w.2.dropWhile CodeUnit.isBlank := List.rdropWhile_append_rtakeWhile
  have hsuffix : ∀ unit ∈ w.2.dropWhile CodeUnit.isBlank, unit.Sound := fun unit hunit =>
    hsound unit ((List.dropWhile_suffix CodeUnit.isBlank).subset hunit)
  have hcore : ∀ unit ∈ trimUnits w.2, unit.Sound := fun unit hunit =>
    hsuffix unit ((List.rdropWhile_prefix CodeUnit.isBlank _).subset hunit)
  have hleading : utf16Length (ofCodeUnits w.2) - utf16Length (trimStart (ofCodeUnits w.2)) =
      (w.2.takeWhile CodeUnit.isBlank).length := by
    have hlengths := congrArg List.length hlead
    rw [List.length_append] at hlengths
    rw [trimStart_ofCodeUnits hsound, length_ofCodeUnits hsound, length_ofCodeUnits hsuffix]
    omega
  have hfront : ((codeUnits text).take w.1 ++ w.2.takeWhile CodeUnit.isBlank).length =
      w.1 + (w.2.takeWhile CodeUnit.isBlank).length := by
    rw [List.length_append, List.length_take, Nat.min_eq_left (Nat.le_of_lt hoffset)]
  unfold textChunk at hchunk
  dsimp only at hchunk
  split at hchunk
  · nomatch hchunk
  · rw [List.mem_singleton.mp hchunk]
    refine ⟨(codeUnits text).take w.1 ++ w.2.takeWhile CodeUnit.isBlank, trimUnits w.2,
      (w.2.dropWhile CodeUnit.isBlank).rtakeWhile CodeUnit.isBlank ++
        (codeUnits text).drop (w.1 + MAX_CHUNK_CHARACTERS), ?_, trim_ofCodeUnits hsound,
      head?_trimUnits w.2, getLast?_trimUnits w.2, ?_, ?_⟩
    · calc codeUnits text
          = (codeUnits text).take w.1 ++ (w.2.takeWhile CodeUnit.isBlank ++ (trimUnits w.2 ++
              (w.2.dropWhile CodeUnit.isBlank).rtakeWhile CodeUnit.isBlank)) ++
              (codeUnits text).drop (w.1 + MAX_CHUNK_CHARACTERS) := by
            rw [htail, hlead]
            exact hwhole
        _ = _ := by simp only [List.append_assoc]
    · dsimp only
      rw [hleading, hfront]
    · dsimp only
      rw [hleading, trim_ofCodeUnits hsound, length_ofCodeUnits hcore,
        @List.length_append _ (_ ++ _), hfront]

/-! ## 3. The passages of rows -/

/-- A text of CSV and what is said of where it stands. -/
abbrev CsvPiece := Text × Locator

def Locator.firstRow : Locator → Nat
  | .csvRows first _ => first
  | .csvRow row => row
  | _ => 0

def Locator.lastRow : Locator → Nat
  | .csvRows _ last => last
  | .csvRow row => row
  | _ => 0

/-- The rows of a passage end before those of another begin, or both are of one long row. -/
def Above (piece later : CsvPiece) : Prop :=
  piece.2.lastRow < later.2.firstRow ∨ ∃ row, piece.2 = .csvRow row ∧ later.2 = .csvRow row

/-- A row closes the rows that wait when there is no room for it; blank rows go on waiting. -/
def Closes (pending : List Text) (row : Text) : Prop :=
  pending ≠ [] ∧ MAX_CHUNK_CHARACTERS < utf16Length (join ['\n'] (pending ++ [row])) ∧
    trim (join ['\n'] pending) ≠ []

instance (pending : List Text) (row : Text) : Decidable (Closes pending row) :=
  inferInstanceAs (Decidable (_ ∧ _ ∧ _))

/-- The row is a passage, or several, of its own. -/
def IsLong (row : Text) : Prop := MAX_CHUNK_CHARACTERS < utf16Length row

instance (row : Text) : Decidable (IsLong row) := inferInstanceAs (Decidable (_ < _))

/-- What still waits when a row is met. -/
def kept (pending : List Text) (row : Text) : List Text :=
  if Closes pending row then [] else pending

/-- What waits after a row. -/
def packStep (pending : List Text) (row : Text) : List Text :=
  if IsLong row then kept pending row else kept pending row ++ [row]

/-- The start row when a row is met, after the passage it closes. -/
def startOf (rowStart : Nat) (pending : List Text) (row : Text) : Nat :=
  if Closes pending row then rowStart + pending.length else rowStart

def waitingPiece (rowStart : Nat) (pending : List Text) : CsvPiece :=
  (trim (join ['\n'] pending), .csvRows rowStart (rowStart + pending.length - 1))

def closedPieces (rowStart : Nat) (pending : List Text) (row : Text) : List CsvPiece :=
  if Closes pending row then [waitingPiece rowStart pending] else []

def rowPieces (rowStart : Nat) (row : Text) : List CsvPiece :=
  (textPieces row).map fun part => (part.content, .csvRow rowStart)

/-- The passages of the rows that wait and of those to come, were there no limit. -/
def csvPieces (rowStart : Nat) (pending : List Text) : List Text → List CsvPiece
  | [] => if trim (join ['\n'] pending) = [] then [] else [waitingPiece rowStart pending]
  | row :: rest =>
      let start := startOf rowStart pending row
      closedPieces rowStart pending row ++
        if IsLong row then rowPieces start row ++ csvPieces (start + 1) (packStep pending row) rest
        else csvPieces start (packStep pending row) rest

theorem length_join_append (pending : List Text) (row : Text) :
    utf16Length row ≤ utf16Length (join ['\n'] (pending ++ [row])) := by
  by_cases hne : pending = []
  · rw [hne, List.nil_append, join_singleton]
  · rw [join_append_singleton hne, utf16Length_append, utf16Length_append]
    omega

section Run

variable [Sha256]

def pieceOf (chunk : PrivateAttachmentChunk) : CsvPiece := (chunk.content, chunk.locator)

theorem csvFlush_eq {s s' : CsvState} (h : csvFlush s = .ok s') :
    (trim (join ['\n'] s.buffer) = [] ∧ s' = s) ∨
      (trim (join ['\n'] s.buffer) ≠ [] ∧ s'.buffer = [] ∧
        s'.rowStart = s.rowStart + s.buffer.length ∧
        s'.chunks.map pieceOf = s.chunks.map pieceOf ++ [waitingPiece s.rowStart s.buffer]) := by
  unfold csvFlush at h
  dsimp only at h
  by_cases hblank : (trim (join ['\n'] s.buffer)).isEmpty = true
  · rw [if_pos hblank] at h
    exact .inl ⟨List.isEmpty_iff.mp hblank, (Except.ok.inj h).symm⟩
  · rw [if_neg hblank] at h
    obtain ⟨chunks, hpush, h⟩ := Except.bind_ok_iff.mp h
    rw [← Except.ok.inj h]
    refine .inr ⟨fun he => hblank (List.isEmpty_iff.mpr he), rfl, rfl, ?_⟩
    show chunks.map pieceOf = _
    rw [withinLimit_ok hpush, List.map_append]
    rfl

/-- A row that finds no room closes what waits. -/
theorem csvFlushIf_eq {s s' : CsvState} {row : Text}
    (h : csvFlushIf (s.buffer.length > 0 &&
      utf16Length (join ['\n'] (s.buffer ++ [row])) > MAX_CHUNK_CHARACTERS) s = .ok s') :
    s'.buffer = kept s.buffer row ∧ s'.rowStart = startOf s.rowStart s.buffer row ∧
      s'.chunks.map pieceOf = s.chunks.map pieceOf ++ closedPieces s.rowStart s.buffer row := by
  unfold csvFlushIf at h
  unfold kept startOf closedPieces
  by_cases hfull : s.buffer ≠ [] ∧
      MAX_CHUNK_CHARACTERS < utf16Length (join ['\n'] (s.buffer ++ [row]))
  · have hcond : (s.buffer.length > 0 &&
        utf16Length (join ['\n'] (s.buffer ++ [row])) > MAX_CHUNK_CHARACTERS) = true := by
      rw [Bool.and_eq_true, decide_eq_true_iff, decide_eq_true_iff]
      exact ⟨List.length_pos_iff.mpr hfull.1, hfull.2⟩
    rw [if_pos hcond] at h
    rcases csvFlush_eq h with ⟨hblank, rfl⟩ | ⟨htext, hbuffer, hstart, hchunks⟩
    · have hno : ¬ Closes s'.buffer row := fun hc => hc.2.2 hblank
      rw [if_neg hno, if_neg hno, if_neg hno, List.append_nil]
      exact ⟨rfl, rfl, rfl⟩
    · have hyes : Closes s.buffer row := ⟨hfull.1, hfull.2, htext⟩
      rw [if_pos hyes, if_pos hyes, if_pos hyes]
      exact ⟨hbuffer, hstart, hchunks⟩
  · have hcond : ¬ (s.buffer.length > 0 &&
        utf16Length (join ['\n'] (s.buffer ++ [row])) > MAX_CHUNK_CHARACTERS) = true := by
      rw [Bool.and_eq_true, decide_eq_true_iff, decide_eq_true_iff]
      exact fun hboth => hfull ⟨List.length_pos_iff.mp hboth.1, hboth.2⟩
    rw [if_neg hcond] at h
    have hno : ¬ Closes s.buffer row := fun hc => hfull ⟨hc.1, hc.2.1⟩
    rw [if_neg hno, if_neg hno, if_neg hno, List.append_nil, ← Except.ok.inj h]
    exact ⟨rfl, rfl, rfl⟩

theorem foldlM_pushPassage {locator : Locator} {parts : List TextChunk}
    {chunks chunks' : List PrivateAttachmentChunk}
    (h : parts.foldlM (fun chunks part => pushPassage locator none chunks part.content) chunks =
      .ok chunks') :
    chunks'.map pieceOf = chunks.map pieceOf ++ parts.map fun part => (part.content, locator) := by
  induction parts generalizing chunks with
  | nil =>
    rw [← Except.ok.inj h, List.map_nil, List.append_nil]
  | cons part rest ih =>
    rw [List.foldlM_cons] at h
    obtain ⟨pushed, hpush, h⟩ := Except.bind_ok_iff.mp h
    rw [ih h, withinLimit_ok hpush, List.map_append, List.map_cons, List.append_assoc]
    rfl

/-- **One more row.** -/
theorem csvLine_eq {s s' : CsvState} {row : Text} (h : csvLine s row = .ok s') :
    s'.buffer = packStep s.buffer row ∧
      s'.rowStart = startOf s.rowStart s.buffer row + (if IsLong row then 1 else 0) ∧
      s'.chunks.map pieceOf = s.chunks.map pieceOf ++ (closedPieces s.rowStart s.buffer row ++
        if IsLong row then rowPieces (startOf s.rowStart s.buffer row) row else []) := by
  unfold csvLine at h
  dsimp only at h
  obtain ⟨first, hfirst, h⟩ := Except.bind_ok_iff.mp h
  obtain ⟨hbuffer, hstart, hchunks⟩ := csvFlushIf_eq hfirst
  unfold packStep
  by_cases hlong : IsLong row
  · rw [if_pos hlong, if_pos hlong, if_pos hlong]
    rw [if_pos (show utf16Length row > MAX_CHUNK_CHARACTERS from hlong)] at h
    obtain ⟨second, hsecond, h⟩ := Except.bind_ok_iff.mp h
    -- there was no room for the row, so that what waits now is blank
    have hsame : second = first := by
      unfold csvFlushIf at hsecond
      split at hsecond
      · rename_i hmore
        rcases csvFlush_eq hsecond with ⟨-, heq⟩ | ⟨htext, -⟩
        · exact heq
        · exfalso
          have hne : first.buffer ≠ [] := by
            rw [decide_eq_true_iff] at hmore
            exact List.length_pos_iff.mp hmore
          rw [hbuffer] at hne htext
          unfold kept at hne htext
          by_cases hcloses : Closes s.buffer row
          · rw [if_pos hcloses] at hne
            exact hne rfl
          · rw [if_neg hcloses] at hne htext
            exact hcloses ⟨hne, Nat.lt_of_lt_of_le hlong (length_join_append _ _), htext⟩
      · exact (Except.ok.inj hsecond).symm
    rw [hsame] at h
    obtain ⟨parts, hparts, h⟩ := Except.bind_ok_iff.mp h
    obtain ⟨chunks, hpush, h⟩ := Except.bind_ok_iff.mp h
    rw [← Except.ok.inj h]
    refine ⟨hbuffer, congrArg (· + 1) hstart, ?_⟩
    show chunks.map pieceOf = _
    rw [foldlM_pushPassage hpush, hchunks, chunkText_eq hparts, hstart, List.append_assoc]
    rfl
  · rw [if_neg hlong, if_neg hlong, if_neg hlong]
    rw [if_neg (show ¬ utf16Length row > MAX_CHUNK_CHARACTERS from hlong)] at h
    rw [← Except.ok.inj h]
    refine ⟨congrArg (· ++ [row]) hbuffer, hstart, ?_⟩
    rw [List.append_nil]
    exact hchunks

theorem csvFlush_end {s s' : CsvState} (h : csvFlushIf (s.buffer.length > 0) s = .ok s') :
    s'.chunks.map pieceOf = s.chunks.map pieceOf ++ csvPieces s.rowStart s.buffer [] := by
  unfold csvPieces
  unfold csvFlushIf at h
  split at h
  · rcases csvFlush_eq h with ⟨hblank, rfl⟩ | ⟨htext, -, -, hchunks⟩
    · rw [if_pos hblank, List.append_nil]
    · rw [if_neg htext]
      exact hchunks
  · rename_i hempty
    have hnil : s.buffer = [] := by
      rw [decide_eq_true_iff] at hempty
      exact List.length_eq_zero_iff.mp (by omega)
    have hblank : trim (join ['\n'] ([] : List Text)) = [] := rfl
    rw [← Except.ok.inj h, hnil, if_pos hblank, List.append_nil]

theorem foldlM_csvLine_eq {rows : List Text} {s s' last : CsvState}
    (h : rows.foldlM csvLine s = .ok s')
    (hlast : csvFlushIf (s'.buffer.length > 0) s' = .ok last) :
    last.chunks.map pieceOf = s.chunks.map pieceOf ++ csvPieces s.rowStart s.buffer rows := by
  induction rows generalizing s with
  | nil =>
    rw [List.foldlM_nil] at h
    have heq : s = s' := Except.ok.inj h
    rw [heq]
    exact csvFlush_end hlast
  | cons row rest ih =>
    rw [List.foldlM_cons] at h
    obtain ⟨next, hnext, h⟩ := Except.bind_ok_iff.mp h
    obtain ⟨hbuffer, hstart, hchunks⟩ := csvLine_eq hnext
    rw [ih h, hbuffer, hstart, hchunks, List.append_assoc, List.append_assoc]
    rw [csvPieces]
    by_cases hlong : IsLong row
    · rw [if_pos hlong, if_pos hlong, if_pos hlong]
    · rw [if_neg hlong, if_neg hlong, if_neg hlong, List.nil_append, Nat.add_zero]

/-- **The passages of a CSV file are those of its rows.** -/
theorem chunksForCsv_eq {text : Text} {chunks : List PrivateAttachmentChunk}
    (h : chunksForCsv text = .ok chunks) :
    chunks.map pieceOf = csvPieces 1 [] (splitLines text) := by
  unfold chunksForCsv at h
  obtain ⟨s, hrows, h⟩ := Except.bind_ok_iff.mp h
  obtain ⟨last, hlast, h⟩ := Except.bind_ok_iff.mp h
  have hpieces := foldlM_csvLine_eq hrows hlast
  split at h
  · nomatch h
  · rw [← Except.ok.inj h]
    exact hpieces

end Run

/-! ## 4. Rows that wait -/

theorem not_closes_nil (row : Text) : ¬ Closes [] row := fun h => h.1 rfl

/-- **A rule for rows**: what waits is closed, or a row is long, or a row waits. -/
theorem csvRows_rule {motive : Nat → List Text → List Text → Prop}
    (stop : ∀ start pending, motive start pending [])
    (close : ∀ start pending row rest, Closes pending row →
      motive (start + pending.length) [] (row :: rest) → motive start pending (row :: rest))
    (long : ∀ start pending row rest, ¬ Closes pending row → IsLong row →
      motive (start + 1) pending rest → motive start pending (row :: rest))
    (wait : ∀ start pending row rest, ¬ Closes pending row → ¬ IsLong row →
      motive start (pending ++ [row]) rest → motive start pending (row :: rest))
    (start : Nat) (pending rows : List Text) : motive start pending rows := by
  induction rows generalizing start pending with
  | nil => exact stop start pending
  | cons row rest ih =>
    have hopen : ∀ start pending, ¬ Closes pending row → motive start pending (row :: rest) := by
      intro start pending hno
      by_cases hlong : IsLong row
      · exact long start pending row rest hno hlong (ih _ _)
      · exact wait start pending row rest hno hlong (ih _ _)
    by_cases hcloses : Closes pending row
    · exact close start pending row rest hcloses (hopen _ _ (not_closes_nil row))
    · exact hopen start pending hcloses

section Steps

variable {start : Nat} {pending rest : List Text} {row : Text}

theorem packStep_close (h : Closes pending row) : packStep pending row = packStep [] row := by
  unfold packStep kept
  rw [if_pos h, if_neg (not_closes_nil row)]

theorem packStep_long (hno : ¬ Closes pending row) (hlong : IsLong row) :
    packStep pending row = pending := by
  unfold packStep kept
  rw [if_pos hlong, if_neg hno]

theorem packStep_wait (hno : ¬ Closes pending row) (hshort : ¬ IsLong row) :
    packStep pending row = pending ++ [row] := by
  unfold packStep kept
  rw [if_neg hshort, if_neg hno]

theorem csvPieces_close (h : Closes pending row) :
    csvPieces start pending (row :: rest) =
      waitingPiece start pending :: csvPieces (start + pending.length) [] (row :: rest) := by
  rw [csvPieces, csvPieces, packStep_close h]
  unfold closedPieces startOf
  rw [if_pos h, if_pos h, if_neg (not_closes_nil row), if_neg (not_closes_nil row),
    List.nil_append]
  rfl

theorem csvPieces_long (hno : ¬ Closes pending row) (hlong : IsLong row) :
    csvPieces start pending (row :: rest) =
      rowPieces start row ++ csvPieces (start + 1) pending rest := by
  rw [csvPieces, packStep_long hno hlong]
  unfold closedPieces startOf
  rw [if_neg hno, if_neg hno, if_pos hlong, List.nil_append]

theorem csvPieces_wait (hno : ¬ Closes pending row) (hshort : ¬ IsLong row) :
    csvPieces start pending (row :: rest) = csvPieces start (pending ++ [row]) rest := by
  rw [csvPieces, packStep_wait hno hshort]
  unfold closedPieces startOf
  rw [if_neg hno, if_neg hno, if_neg hshort, List.nil_append]

/-- A long row leaves no room, so that what waits is blank, if anything does. -/
theorem blank_of_long (hno : ¬ Closes pending row) (hlong : IsLong row) :
    trim (join ['\n'] pending) = [] := by
  by_cases hne : pending = []
  · rw [hne]
    rfl
  · by_contra htext
    exact hno ⟨hne, Nat.lt_of_lt_of_le hlong (length_join_append _ _), htext⟩

end Steps

/-! ### The order of the passages -/

theorem rowPieces_locator {start : Nat} {row : Text} :
    ∀ piece ∈ rowPieces start row, piece.2 = .csvRow start := by
  intro piece hpiece
  obtain ⟨part, -, rfl⟩ := List.mem_map.mp hpiece
  rfl

theorem csvPieces_firstRow (start : Nat) (pending rows : List Text) :
    ∀ piece ∈ csvPieces start pending rows, start ≤ piece.2.firstRow := by
  induction start, pending, rows using csvRows_rule with
  | stop start pending =>
    rw [csvPieces]
    split
    · exact fun piece h => nomatch h
    · intro piece h
      rw [List.mem_singleton.mp h]
      exact Nat.le_refl start
  | close start pending row rest hcloses ih =>
    rw [csvPieces_close hcloses]
    intro piece h
    rcases List.mem_cons.mp h with rfl | h
    · exact Nat.le_refl start
    · have hrow := ih piece h
      omega
  | long start pending row rest hno hlong ih =>
    rw [csvPieces_long hno hlong]
    intro piece h
    rcases List.mem_append.mp h with h | h
    · rw [rowPieces_locator piece h]
      exact Nat.le_refl start
    · have hrow := ih piece h
      omega
  | wait start pending row rest hno hshort ih =>
    rw [csvPieces_wait hno hshort]
    exact ih

/-- **The rows of the passages go up.** -/
theorem csvPieces_above (start : Nat) (pending rows : List Text) :
    (csvPieces start pending rows).Pairwise Above := by
  induction start, pending, rows using csvRows_rule with
  | stop start pending =>
    rw [csvPieces]
    split
    · exact .nil
    · exact List.pairwise_singleton _ _
  | close start pending row rest hcloses ih =>
    rw [csvPieces_close hcloses, List.pairwise_cons]
    refine ⟨fun piece h => .inl ?_, ih⟩
    have hrow := csvPieces_firstRow _ _ _ piece h
    have hsome : 0 < pending.length := List.length_pos_iff.mpr hcloses.1
    show start + pending.length - 1 < _
    omega
  | long start pending row rest hno hlong ih =>
    rw [csvPieces_long hno hlong, List.pairwise_append]
    refine ⟨?_, ih, fun piece h later hlater => .inl ?_⟩
    · refine List.pairwise_of_forall_mem_list fun piece h later hlater => ?_
      exact .inr ⟨start, rowPieces_locator piece h, rowPieces_locator later hlater⟩
    · have hrow := csvPieces_firstRow _ _ _ later hlater
      rw [rowPieces_locator piece h]
      show start < _
      omega
  | wait start pending row rest hno hshort ih =>
    rw [csvPieces_wait hno hshort]
    exact ih

/-! ### Every row is read -/

theorem visible_join (rows : List Text) : visible (join ['\n'] rows) = visible rows.flatten := by
  induction rows with
  | nil => rfl
  | cons row rest ih =>
    cases rest with
    | nil => rw [join_singleton, List.flatten_cons, List.flatten_nil, List.append_nil]
    | cons next more =>
      have hbreak : visible ['\n'] = [] := rfl
      rw [join_cons_cons, visible_append, visible_append, ih, hbreak, List.nil_append,
        ← visible_append]
      rfl

theorem visible_rows_of_blank {rows : List Text} (h : trim (join ['\n'] rows) = []) :
    visible rows.flatten = [] := by
  rw [← visible_join]
  exact visible_eq_nil_iff.mpr h

theorem waitingPiece_readOff (start : Nat) (pending : List Text) :
    ReadOff (visible pending.flatten) [(waitingPiece start pending).1] := by
  refine readOff_single ?_
  show _ <:+: visible (trim (join ['\n'] pending))
  rw [visible_trim, visible_join]

/-- **The rows are read off the passages.** -/
theorem csvPieces_readOff (start : Nat) (pending rows : List Text) :
    ReadOff (visible (pending ++ rows).flatten) ((csvPieces start pending rows).map Prod.fst) := by
  induction start, pending, rows using csvRows_rule with
  | stop start pending =>
    rw [csvPieces, List.append_nil]
    by_cases hblank : trim (join ['\n'] pending) = []
    · rw [if_pos hblank, visible_rows_of_blank hblank]
      exact readOff_nil
    · rw [if_neg hblank]
      exact waitingPiece_readOff start pending
  | close start pending row rest hcloses ih =>
    rw [csvPieces_close hcloses, List.flatten_append, visible_append]
    exact (waitingPiece_readOff start pending).append ih
  | long start pending row rest hno hlong ih =>
    have hblank := visible_rows_of_blank (blank_of_long hno hlong)
    rw [List.flatten_append, visible_append, hblank, List.nil_append] at ih
    rw [csvPieces_long hno hlong, List.flatten_append, visible_append, hblank, List.nil_append,
      List.flatten_cons, visible_append, List.map_append]
    refine ReadOff.append ?_ ih
    have hcontents : (rowPieces start row).map Prod.fst =
        (textPieces row).map (·.content) := by
      unfold rowPieces
      rw [List.map_map]
      rfl
    rw [hcontents]
    exact textPieces_readOff row
  | wait start pending row rest hno hshort ih =>
    rw [csvPieces_wait hno hshort]
    rw [List.append_assoc] at ih
    exact ih

theorem visible_split (text : Text) : visible (split '\n' text).flatten = visible text := by
  induction text with
  | nil => rfl
  | cons c rest ih =>
    unfold split
    by_cases hc : c = '\n'
    · rw [if_pos hc, hc, List.flatten_cons, List.nil_append, ih]
      rfl
    · rw [if_neg hc]
      cases hrest : split '\n' rest with
      | nil => exact absurd hrest (split_ne_nil '\n' rest)
      | cons first more =>
        rw [hrest] at ih
        show visible (c :: (first ++ more.flatten)) = _
        rw [visible_cons, visible_cons c rest, ← ih]
        rfl

/-- A line end loses nothing but white space. -/
theorem visible_splitLines (text : Text) : visible (splitLines text).flatten = visible text := by
  rw [← visible_split text]
  unfold splitLines
  have hsplit : (split '\n' text).reverse.reverse = split '\n' text := List.reverse_reverse _
  cases hlines : (split '\n' text).reverse with
  | nil =>
    rw [hlines] at hsplit
    rw [← hsplit]
    rfl
  | cons last before =>
    rw [hlines, List.reverse_cons] at hsplit
    rw [← hsplit]
    dsimp only
    rw [← List.map_reverse, List.flatten_append, List.flatten_append, visible_append,
      visible_append, visible_flatten (List.map _ before.reverse), visible_flatten before.reverse,
      List.map_map]
    congr 2
    refine List.map_congr_left fun line _ => ?_
    show visible (if line.getLast? = some '\r' then line.dropLast else line) = visible line
    by_cases hreturn : line.getLast? = some '\r'
    · obtain ⟨front, rfl⟩ := List.getLast?_eq_some_iff.mp hreturn
      rw [if_pos hreturn, List.dropLast_concat, visible_append]
      exact (List.append_nil _).symm
    · rw [if_neg hreturn]

end OpenVac.ChatStorage
