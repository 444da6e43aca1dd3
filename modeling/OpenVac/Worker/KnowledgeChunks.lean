/-
  File:      OpenVac/Worker/KnowledgeChunks.lean
  Subject:   The chunks of a reviewed text: `chunkReviewedMarkdown` of
             worker/knowledge-ingestion.ts.

  * `ChunkSizes` -- the sizes that are accepted.
  * `piecesFrom` -- a long paragraph in pieces that overlap.
  * `packFrom` -- the loop over the paragraphs of a page, with its buffer.
  * `pagesOf` -- the pages of a text, by its markers.
  * `chunkReviewedMarkdown` -- the chunks, or the message of the error.
-/
import OpenVac.KnowledgeBase.ReviewSections
import OpenVac.Lib.CodeUnits

namespace OpenVac.KnowledgeIngestion

open JsString JsRegex
open KnowledgeBase (markerPage pageMarker splitAt stretches)

/-! ## 1. Sizes -/

def DEFAULT_CHUNK_CHARACTERS : Int := 2400

def DEFAULT_CHUNK_OVERLAP : Int := 200

structure ChunkSizes where
  maxCharacters : Nat
  overlapCharacters : Nat
  overlap_lt : overlapCharacters < maxCharacters

/-- The checks on the sizes, with the messages of their errors. -/
def chunkSizes (maxCharacters overlapCharacters : Int) : Except String ChunkSizes :=
  if maxCharacters ≤ 0 then .error "maxCharacters must be a positive integer."
  else if h : 0 ≤ overlapCharacters ∧ overlapCharacters < maxCharacters then
    .ok ⟨maxCharacters.toNat, overlapCharacters.toNat, by omega⟩
  else .error "overlapCharacters must be an integer from 0 to maxCharacters - 1."

namespace ChunkSizes

variable (sizes : ChunkSizes)

def step : Nat := sizes.maxCharacters - sizes.overlapCharacters

theorem step_pos : 0 < sizes.step := by
  have h := sizes.overlap_lt
  unfold step
  omega

theorem step_le : sizes.step ≤ sizes.maxCharacters := Nat.sub_le _ _

end ChunkSizes

/-! ## 2. Paragraphs of a page -/

section Pack

variable (sizes : ChunkSizes)

def blankLine : Units := [.whole '\n', .whole '\n']

/-- The loop over the offsets of a long paragraph; blank pieces are left out. -/
def piecesFrom (paragraph : Units) (offset : Nat) : List Units :=
  if offset < paragraph.length then
    let piece := trimUnits (sliceUnits offset (offset + sizes.maxCharacters) paragraph)
    let first := if piece.isEmpty then [] else [piece]
    if paragraph.length ≤ offset + sizes.maxCharacters then first
    else first ++ piecesFrom paragraph (offset + sizes.step)
  else []
termination_by paragraph.length - offset
decreasing_by
  have hstep := sizes.step_pos
  omega

/-- `flush()`: what it pushes, and the buffer after it. -/
def flush (buffer : Units) : List Units × Units :=
  let normalized := trimUnits buffer
  if normalized.isEmpty then ([], buffer)
  else
    ([normalized],
      if 0 < sizes.overlapCharacters then
        normalized.drop (normalized.length - sizes.overlapCharacters)
      else [])

/-- A paragraph behind what the buffer holds. -/
def behind (buffer paragraph : Units) : Units :=
  if buffer.isEmpty then paragraph else buffer ++ blankLine ++ paragraph

/-- The loop over the paragraphs, with the buffer; what is left of it is flushed at the end. -/
def packFrom : Units → List Units → List Units
  | buffer, [] => if (trimUnits buffer).isEmpty then [] else (flush sizes buffer).1
  | buffer, paragraph :: rest =>
      if sizes.maxCharacters < paragraph.length then
        let (flushed, buffer) :=
          if (trimUnits buffer).isEmpty then ([], buffer) else ((flush sizes buffer).1, [])
        flushed ++ piecesFrom sizes paragraph 0 ++ packFrom buffer rest
      else
        let candidate := behind buffer paragraph
        if sizes.maxCharacters < candidate.length then
          let (flushed, buffer) := flush sizes buffer
          let buffer := behind buffer paragraph
          let buffer := if sizes.maxCharacters < buffer.length then paragraph else buffer
          flushed ++ packFrom buffer rest
        else packFrom candidate rest

/-- `/\n{2,}/u`. -/
def feeds : Regex := .rep (.set fun c => c == '\n') 2 none true

def paragraphs (text : Text) : List Text :=
  ((splitAt feeds text).map trim).filter fun value => !value.isEmpty

def pageContents (text : Text) : List Units :=
  if text.isEmpty then [] else packFrom sizes [] ((paragraphs text).map codeUnits)

end Pack

/-! ## 3. Chunks -/

structure ChunkedKnowledgeText where
  chunkIndex : Nat
  content : Units
  pageStart : Option Nat
  pageEnd : Option Nat
  sectionPath : List Units

/-- `/^#{1,6}\s+\S/u`. -/
def isHeading (line : Units) : Bool :=
  let hashes := line.takeWhile (· == .whole '#')
  let rest := line.dropWhile (· == .whole '#')
  1 ≤ hashes.length && hashes.length ≤ 6 && rest.head?.any CodeUnit.isBlank &&
    !(rest.dropWhile CodeUnit.isBlank).isEmpty

def inferSectionPath (content : Units) : List Units :=
  match (content.splitOn (.whole '\n')).find? isHeading with
  | some heading => [trimUnits ((heading.dropWhile (· == .whole '#')).dropWhile CodeUnit.isBlank)]
  | none => []

/-- The pages of a text with markers, or the whole text; what stands before the first marker is
    left out. -/
def pagesOf (content : Text) : List (Option Nat × Text) :=
  let markers := execAll pageMarker content
  if markers.isEmpty then [(none, trim content)]
  else (markers.zip (stretches content 0 markers).tail).map fun part =>
    (some (markerPage ((content.drop part.1.1).take (part.1.2 - part.1.1))), trim part.2)

def ChunkSizes.chunks (sizes : ChunkSizes) (content : Text) : List ChunkedKnowledgeText :=
  let contents := (pagesOf content).flatMap fun page =>
    (pageContents sizes page.2).map fun normalized => (page.1, normalized)
  contents.zipIdx.map fun entry =>
    { chunkIndex := entry.2
      content := entry.1.2
      pageStart := entry.1.1
      pageEnd := entry.1.1
      sectionPath := inferSectionPath entry.1.2 }

def chunkReviewedMarkdown (content : Text) (maxCharacters overlapCharacters : Int) :
    Except String (List ChunkedKnowledgeText) :=
  (chunkSizes maxCharacters overlapCharacters).map (·.chunks content)

end OpenVac.KnowledgeIngestion
