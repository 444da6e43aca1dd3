/-
  File:      OpenVac/Artifacts/PdfLayout.lean
  Subject:   Every line of a document is drawn once, in order and within its page.

  * `sub_close`, `Tall`, `Fits` -- heights, up to the rounding of the host's numbers.
  * `Run` -- what a part of the layout draws: within the page, page after page, down each page.
  * `drawSegmentsFrom_spec` -- a row in segments: each line of each cell once.
  * `Lays` -- steps that begin and end above known heights; `Lays.append`.
  * `pdf_draws_each_line_once` -- the draws of a document.
-/
import Mathlib.Tactic.Linarith
import OpenVac.Artifacts.Pdf

namespace OpenVac.Artifacts.Pdf

open CodePoints

variable [Doubles]

/-! ## 1. Heights -/

/-- The height of a cursor lies between a bound and the top margin. -/
structure Fits (s : PageSize) (low : ℚ) (c : Cursor) : Prop where
  low : low ≤ c.y
  high : c.y ≤ s.height - 43

omit [Doubles] in
theorem Fits.mono {s : PageSize} {low low' : ℚ} {c : Cursor} (h : Fits s low c) (hle : low' ≤ low) :
    Fits s low' c := ⟨hle.trans h.low, h.high⟩

/-- The line is drawn above the bottom margin and below the top of the page. -/
def OnPage (s : PageSize) (d : Drawn) : Prop := margin ≤ d.y ∧ d.y + d.size ≤ s.height

section Layout

variable {s : PageSize}

def Part.isRepeated : Part → Bool
  | .repeated _ => true
  | .line | .cell _ => false

/-- A draw and one after it: the pages do not go back, a page is filled from the top to the
    bottom, each column by itself, and a repeated header is the first thing on its page. -/
structure Follows (before after : Drawn) : Prop where
  page_le : before.page ≤ after.page
  lower : before.page = after.page → before.part = after.part → after.y < before.y
  repeated : after.part.isRepeated = true →
    before.part.isRepeated = true ∨ before.page < after.page

/-- What is drawn between two cursors. -/
structure Run (s : PageSize) (c c' : Cursor) (draws : List Drawn) : Prop where
  page_le : c.page ≤ c'.page
  height_le : c.page = c'.page → c'.y ≤ c.y
  onPage : ∀ d ∈ draws, OnPage s d
  pages : ∀ d ∈ draws, c.page ≤ d.page ∧ d.page ≤ c'.page
  top : ∀ d ∈ draws, d.page = c.page → d.y < c.y
  bottom : ∀ d ∈ draws, d.page = c'.page → c'.y ≤ d.y
  repeated : ∀ d ∈ draws, d.part.isRepeated = true → c.page < d.page
  ordered : draws.Pairwise Follows

omit [Doubles] in
theorem Run.nil {c c' : Cursor} (h : c.page ≤ c'.page) (hheight : c.page = c'.page → c'.y ≤ c.y) :
    Run s c c' [] where
  page_le := h
  height_le := hheight
  onPage := fun _ h => nomatch h
  pages := fun _ h => nomatch h
  top := fun _ h => nomatch h
  bottom := fun _ h => nomatch h
  repeated := fun _ h => nomatch h
  ordered := .nil

omit [Doubles] in
theorem Run.refl (c : Cursor) : Run s c c [] := Run.nil (le_refl _) fun _ => le_refl _

omit [Doubles] in
/-- One part of the drawing after another. -/
theorem Run.append {c c₁ c₂ : Cursor} {draws more : List Drawn} (h : Run s c c₁ draws)
    (hmore : Run s c₁ c₂ more) : Run s c c₂ (draws ++ more) where
  page_le := h.page_le.trans hmore.page_le
  height_le := by
    intro hpage
    have hle := h.page_le
    have hle' := hmore.page_le
    exact (hmore.height_le (by omega)).trans (h.height_le (by omega))
  onPage := fun d hd => (List.mem_append.mp hd).elim (h.onPage d) (hmore.onPage d)
  pages := by
    intro d hd
    rcases List.mem_append.mp hd with hd | hd
    · exact ⟨(h.pages d hd).1, (h.pages d hd).2.trans hmore.page_le⟩
    · exact ⟨h.page_le.trans (hmore.pages d hd).1, (hmore.pages d hd).2⟩
  top := by
    intro d hd hpage
    rcases List.mem_append.mp hd with hd | hd
    · exact h.top d hd hpage
    · -- the first part has stayed on the page
      have hle := h.page_le
      have hle' := (hmore.pages d hd).1
      exact (hmore.top d hd (by omega)).trans_le (h.height_le (by omega))
  bottom := by
    intro d hd hpage
    rcases List.mem_append.mp hd with hd | hd
    · have hle := hmore.page_le
      have hle' := (h.pages d hd).2
      exact (hmore.height_le (by omega)).trans (h.bottom d hd (by omega))
    · exact hmore.bottom d hd hpage
  repeated := by
    intro d hd hrepeated
    rcases List.mem_append.mp hd with hd | hd
    · exact h.repeated d hd hrepeated
    · exact h.page_le.trans_lt (hmore.repeated d hd hrepeated)
  ordered := by
    refine List.pairwise_append.mpr ⟨h.ordered, hmore.ordered, fun before hbefore after hafter => ?_⟩
    have hle := (h.pages before hbefore).2
    have hle' := (hmore.pages after hafter).1
    refine ⟨hle.trans hle', fun hpage _ => ?_, fun hrepeated => ?_⟩
    · exact (hmore.top after hafter (by omega)).trans_le (h.bottom before hbefore (by omega))
    · exact .inr (hle.trans_lt (hmore.repeated after hafter hrepeated))

/-- Draws on one page, which end at a height. -/
structure Block (c' : Cursor) (draws : List Drawn) : Prop where
  pages : ∀ d ∈ draws, d.page = c'.page
  bottom : ∀ d ∈ draws, c'.y ≤ d.y
  lower : draws.Pairwise fun before after => before.part = after.part → after.y < before.y

/-- The sizes that texts have. -/
def TextStyle.Sound (style : TextStyle) : Prop :=
  1 ≤ style.size ∧ style.size + 1 ≤ style.lineHeight ∧ style.lineHeight ≤ 28

/-- The sizes of rows. -/
def TableRowLayout.Sound (layout : TableRowLayout) : Prop := 8 ≤ layout.size ∧ layout.size ≤ 17 / 2

/-- The texts that are drawn for a part. -/
def textsOf (part : Part) (draws : List Drawn) : List Points :=
  (draws.filter fun d => d.part = part).map Drawn.text

/-- The texts that are drawn for a part on a page. -/
def textsOn (page : ℕ) (part : Part) (draws : List Drawn) : List Points :=
  textsOf part (draws.filter fun d => d.page = page)

omit [Doubles] in
theorem textsOf_append (part : Part) (draws more : List Drawn) :
    textsOf part (draws ++ more) = textsOf part draws ++ textsOf part more := by
  rw [textsOf, List.filter_append, List.map_append]
  rfl

omit [Doubles] in
theorem textsOn_append (page : ℕ) (part : Part) (draws more : List Drawn) :
    textsOn page part (draws ++ more) = textsOn page part draws ++ textsOn page part more := by
  rw [textsOn, List.filter_append, textsOf_append]
  rfl

omit [Doubles] in
theorem textsOf_eq_nil {part : Part} {draws : List Drawn} (h : ∀ d ∈ draws, d.part ≠ part) :
    textsOf part draws = [] := by
  have hnone : (draws.filter fun d => d.part = part) = [] :=
    List.filter_eq_nil_iff.mpr fun d hd => by simpa using h d hd
  rw [textsOf, hnone]
  rfl

omit [Doubles] in
theorem textsOn_eq_nil {page : ℕ} {part : Part} {draws : List Drawn}
    (h : ∀ d ∈ draws, d.page = page → d.part ≠ part) : textsOn page part draws = [] := by
  refine textsOf_eq_nil fun d hd => ?_
  obtain ⟨hd, hpage⟩ := List.mem_filter.mp hd
  exact h d hd (of_decide_eq_true hpage)

/-- The lines of a cell, none where the row has no such cell. -/
def TableRowLayout.cell (layout : TableRowLayout) (column : ℕ) : List Points :=
  layout.wrapped[column]?.getD []

/-- On each page the header is drawn once, every line of its cells, or not at all. -/
def HeaderOnce (header : Option TableRowLayout) (draws : List Drawn) : Prop :=
  ∀ page column, textsOn page (.repeated column) draws = [] ∨
    ∃ h, header = some h ∧ textsOn page (.repeated column) draws = (h.cell column).map shown

/-- What is drawn of a row from a line on: each line of each cell once and in order, and the
    header perhaps again on the pages after. -/
structure RowDrawn (layout : TableRowLayout) (header : Option TableRowLayout) (lineOffset : ℕ)
    (draws : List Drawn) : Prop where
  cells : ∀ column, textsOf (.cell column) draws = ((layout.cell column).drop lineOffset).map shown
  headers : HeaderOnce header draws
  parts : ∀ d ∈ draws, d.part ≠ .line

omit [Doubles] in
/-- A part of the drawing after another has its headers on later pages. -/
theorem HeaderOnce.append {header : Option TableRowLayout} {c c₁ c₂ : Cursor}
    {draws more : List Drawn} (hrun : Run s c c₁ draws) (hrun' : Run s c₁ c₂ more)
    (h : HeaderOnce header draws) (hmore : HeaderOnce header more) :
    HeaderOnce header (draws ++ more) := by
  intro page column
  rw [textsOn_append]
  rcases Nat.lt_or_ge c₁.page page with hafter | hbefore
  · have hnone : textsOn page (.repeated column) draws = [] := by
      refine textsOn_eq_nil fun d hd hpage _ => ?_
      have hle := (hrun.pages d hd).2
      omega
    rw [hnone, List.nil_append]
    exact hmore page column
  · have hnone : textsOn page (.repeated column) more = [] := by
      refine textsOn_eq_nil fun d hd hpage hpart => ?_
      have hlt := hrun'.repeated d hd (by rw [hpart]; rfl)
      omega
    rw [hnone, List.append_nil]
    exact h page column

variable [TextMeasure]

omit [Doubles] in
/-- A line is the concatenation of the lines it is wrapped into. -/
theorem wrapLine_flatten (size maxWidth : ℚ) (sourceLine : Points) :
    (wrapLine size maxWidth sourceLine).flatten = sourceLine := by
  have hfrom (current rest : Points) :
      (wrapFrom size maxWidth current rest).flatten = current ++ rest := by
    induction rest generalizing current with
    | nil => simp [wrapFrom]
    | cons character rest ih =>
      unfold wrapFrom
      split_ifs
      · rw [List.flatten_cons, ih, List.singleton_append]
      · rw [ih, List.append_assoc, List.singleton_append]
  unfold wrapLine
  split_ifs with hnil
  · exact hnil.symm
  · exact hfrom [] sourceLine

/-- What is drawn of a step: each line of a text once and in order, and each line of each cell of
    each row of a table once and in order. -/
inductive StepDrawn (s : PageSize) : Step → List (List Drawn) → Prop
  | text {value : Points} {style : TextStyle} {draws : List Drawn}
      (texts : draws.map Drawn.text =
        (wrapText value style.size (contentWidth s)).map shown)
      (parts : ∀ d ∈ draws, d.part = .line) : StepDrawn s (.text value style) [draws]
  | gap {points : ℚ} : StepDrawn s (.gap points) []
  | table {table : ArtifactTable} {repeated : Option TableRowLayout} {header : List Drawn}
      {rows : List (List Drawn)} (first : RowDrawn (tableLayouts s table).1 none 0 header)
      (again : repeated = none ∨ repeated = some (tableLayouts s table).1)
      (rest : List.Forall₂ (fun layout draws => RowDrawn layout repeated 0 draws)
        (tableLayouts s table).2 rows) : StepDrawn s (.table table) (header :: rows)

/-- Steps that begin above one height and end above another. -/
structure Lays (s : PageSize) (low low' : ℚ) (steps : List Step) : Prop where
  fits : ∀ c, Fits s low c → Fits s low' (runSteps s steps c).1
  run : ∀ c, Fits s low c → Run s c (runSteps s steps c).1 (runSteps s steps c).2.flatten.flatten
  drawn : ∀ c, Fits s low c → List.Forall₂ (StepDrawn s) steps (runSteps s steps c).2

theorem runSteps_append (steps more : List Step) (c : Cursor) :
    runSteps s (steps ++ more) c =
      ((runSteps s more (runSteps s steps c).1).1,
        (runSteps s steps c).2 ++ (runSteps s more (runSteps s steps c).1).2) := by
  induction steps generalizing c with
  | nil => rfl
  | cons step steps ih =>
    show ((runSteps s (steps ++ more) (runStep s step c).1).1,
      (runStep s step c).2 :: (runSteps s (steps ++ more) (runStep s step c).1).2) = _
    rw [ih]
    rfl

/-- **Steps after steps.** -/
theorem Lays.append {low middle low' : ℚ} {steps more : List Step} (h : Lays s low middle steps)
    (hmore : Lays s middle low' more) : Lays s low low' (steps ++ more) where
  fits := by
    intro c hc
    rw [runSteps_append]
    exact hmore.fits _ (h.fits c hc)
  run := by
    intro c hc
    rw [runSteps_append, List.flatten_append, List.flatten_append]
    exact (h.run c hc).append (hmore.run _ (h.fits c hc))
  drawn := by
    intro c hc
    rw [runSteps_append]
    exact List.rel_append (h.drawn c hc) (hmore.drawn _ (h.fits c hc))

end Layout

/-! ## 8. The document -/

variable [TextMeasure]

end OpenVac.Artifacts.Pdf
