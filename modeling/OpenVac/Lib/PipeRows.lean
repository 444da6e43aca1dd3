/-
  File:      OpenVac/Lib/PipeRows.lean
  Subject:   Rows of Markdown tables: cells between pipes, with backslash escapes.

  * `splitPipes` -- a row cut at its pipes that no backslash escapes.
  * `unescape`, `unpad`, `rowCells` -- a cell's text, and the texts of a row.
  * `escaped`, `rowText` -- cells with their escapes, and the row of them.
  * `rowCells_rowText` -- a row of escaped cells is cut into these cells again.
-/
import OpenVac.Lib.CodePoints

namespace PipeRows

open CodePoints

/-! ## 1. Reading a row -/

/-- A row cut at its pipes: a backslash takes the next character with it. -/
def splitPipes : Points → List Points
  | [] => [[]]
  | .scalar '\\' :: c :: rest => consLine (.scalar '\\') (consLine c (splitPipes rest))
  | .scalar '|' :: rest => [] :: splitPipes rest
  | c :: rest => consLine c (splitPipes rest)

/-- The text of a cell: a backslash before a backslash or a pipe is left out. -/
def unescape : Points → Points
  | [] => []
  | .scalar '\\' :: .scalar '\\' :: rest => .scalar '\\' :: unescape rest
  | .scalar '\\' :: .scalar '|' :: rest => .scalar '|' :: unescape rest
  | c :: rest => c :: unescape rest

/-- A cell without the blank on either side. -/
def unpad (cell : Points) : Points := cell.tail.dropLast

/-- The cells of a row: what stands between its first pipe and its last. -/
def cellPieces (row : Points) : List Points := (splitPipes row).tail.dropLast

/-- The texts of a row's cells. -/
def rowCells (row : Points) : List Points := (cellPieces row).map fun cell => unescape (unpad cell)

/-! ## 2. Writing a row -/

/-- The characters of a cell that are escaped. -/
def escapeOne (c : CodePoint) : Points :=
  if c = .scalar '\\' then [.scalar '\\', .scalar '\\']
  else if c = .scalar '|' then [.scalar '\\', .scalar '|']
  else [c]

def escaped (text : Points) : Points := text.flatMap escapeOne

/-- A row: a pipe before and after, a blank on either side of each cell. -/
def rowText (cells : List Points) : Points :=
  .scalar '|' :: .scalar ' ' ::
    (List.intercalate [.scalar ' ', .scalar '|', .scalar ' '] cells ++ [.scalar ' ', .scalar '|'])

/-! ## 3. What is read of what is written -/

theorem splitPipes_plain {c : CodePoint} (hbackslash : c ≠ '\\') (hpipe : c ≠ '|')
    (rest : Points) : splitPipes (c :: rest) = consLine c (splitPipes rest) := by
  rw [splitPipes]
  · intro _ _ h
    exact absurd h hbackslash
  · exact hpipe

theorem splitPipes_ne_nil (s : Points) : splitPipes s ≠ [] := by
  have hcons (c : CodePoint) (lines : List Points) : consLine c lines ≠ [] := by
    cases lines <;> simp [consLine]
  fun_cases splitPipes s with
  | case1 => simp
  | case2 c rest => exact hcons _ _
  | case3 rest => simp
  | case4 c rest => exact hcons _ _

/-- Characters put before the first piece. -/
def beforeFirst (part : Points) : List Points → List Points
  | [] => [part]
  | first :: more => (part ++ first) :: more

theorem consLine_beforeFirst (c : CodePoint) (part : Points) (pieces : List Points) :
    consLine c (beforeFirst part pieces) = beforeFirst (c :: part) pieces := by
  cases pieces <;> rfl

/-- An escaped text has no pipe of its own. -/
theorem splitPipes_escaped (text rest : Points) :
    splitPipes (escaped text ++ rest) = beforeFirst (escaped text) (splitPipes rest) := by
  unfold escaped
  induction text with
  | nil =>
    cases hpieces : splitPipes rest with
    | nil => exact absurd hpieces (splitPipes_ne_nil rest)
    | cons first more =>
      rw [List.flatMap_nil, List.nil_append, hpieces]
      rfl
  | cons c text ih =>
    rw [List.flatMap_cons, List.append_assoc]
    by_cases hbackslash : c = .scalar '\\'
    · have hone : escapeOne c = [.scalar '\\', .scalar '\\'] := if_pos hbackslash
      rw [hone, List.cons_append, List.singleton_append, splitPipes, ih, consLine_beforeFirst,
        consLine_beforeFirst]
      rfl
    · by_cases hpipe : c = .scalar '|'
      · have hone : escapeOne c = [.scalar '\\', .scalar '|'] := by
          rw [escapeOne, if_neg hbackslash, if_pos hpipe]
        rw [hone, List.cons_append, List.singleton_append, splitPipes, ih, consLine_beforeFirst,
          consLine_beforeFirst]
        rfl
      · have hone : escapeOne c = [c] := by rw [escapeOne, if_neg hbackslash, if_neg hpipe]
        rw [hone, List.singleton_append, splitPipes_plain hbackslash hpipe, ih,
          consLine_beforeFirst]
        rfl

theorem unescape_plain {c : CodePoint} (hbackslash : c ≠ '\\') (rest : Points) :
    unescape (c :: rest) = c :: unescape rest := by
  rw [unescape]
  · intro _ h
    exact absurd h hbackslash
  · intro _ h
    exact absurd h hbackslash

theorem unescape_escaped (text : Points) : unescape (escaped text) = text := by
  unfold escaped
  induction text with
  | nil => rfl
  | cons c text ih =>
    rw [List.flatMap_cons]
    by_cases hbackslash : c = .scalar '\\'
    · have hone : escapeOne c = [.scalar '\\', .scalar '\\'] := if_pos hbackslash
      rw [hone, List.cons_append, List.singleton_append, unescape, ih, hbackslash]
    · by_cases hpipe : c = .scalar '|'
      · have hone : escapeOne c = [.scalar '\\', .scalar '|'] := by
          rw [escapeOne, if_neg hbackslash, if_pos hpipe]
        rw [hone, List.cons_append, List.singleton_append, unescape, ih, hpipe]
      · have hone : escapeOne c = [c] := by rw [escapeOne, if_neg hbackslash, if_neg hpipe]
        rw [hone, List.singleton_append, unescape_plain hbackslash, ih]

/-- A cell with its blanks. -/
def padded (text : Points) : Points := .scalar ' ' :: (escaped text ++ [.scalar ' '])

theorem unpad_padded (text : Points) : unpad (padded text) = escaped text := by
  simp [unpad, padded]

/-- The pieces after a row's first pipe. -/
theorem splitPipes_cells {texts : List Points} (hne : texts ≠ []) :
    splitPipes (.scalar ' ' :: (List.intercalate [.scalar ' ', .scalar '|', .scalar ' ']
        (texts.map escaped) ++ [.scalar ' ', .scalar '|'])) =
      texts.map padded ++ [[]] := by
  have hpiece (text rest : Points) :
      splitPipes (.scalar ' ' :: (escaped text ++ .scalar ' ' :: .scalar '|' :: rest)) =
        padded text :: splitPipes rest := by
    rw [splitPipes_plain (by decide) (by decide), splitPipes_escaped,
      splitPipes_plain (by decide) (by decide), splitPipes, consLine_beforeFirst]
    rfl
  induction texts with
  | nil => exact absurd rfl hne
  | cons text texts ih =>
    cases texts with
    | nil =>
      have htext : List.intercalate [CodePoint.scalar ' ', .scalar '|', .scalar ' ']
          ([text].map escaped) = escaped text := by simp [List.intercalate]
      rw [htext, hpiece]
      rfl
    | cons other more =>
      have htext : List.intercalate [CodePoint.scalar ' ', .scalar '|', .scalar ' ']
          ((text :: other :: more).map escaped) ++ [.scalar ' ', .scalar '|'] =
          escaped text ++ .scalar ' ' :: .scalar '|' :: .scalar ' ' ::
            (List.intercalate [CodePoint.scalar ' ', .scalar '|', .scalar ' ']
              ((other :: more).map escaped) ++ [.scalar ' ', .scalar '|']) := by
        simp [List.intercalate]
      rw [htext, hpiece, ih (by simp)]
      rfl

/-- **A row of escaped cells** is cut into as many cells, each with its text. -/
theorem rowCells_rowText {texts : List Points} (hne : texts ≠ []) :
    splitPipes (rowText (texts.map escaped)) = [] :: (texts.map padded ++ [[]]) ∧
      rowCells (rowText (texts.map escaped)) = texts := by
  have hsplit : splitPipes (rowText (texts.map escaped)) = [] :: (texts.map padded ++ [[]]) := by
    unfold rowText
    rw [splitPipes, splitPipes_cells hne]
  refine ⟨hsplit, ?_⟩
  unfold rowCells cellPieces
  rw [hsplit, List.tail_cons, List.dropLast_concat, List.map_map]
  refine List.map_id'' (fun text => ?_) texts
  rw [Function.comp_apply, unpad_padded, unescape_escaped]

theorem mem_intercalate {c : CodePoint} {separator : Points} {parts : List Points}
    (h : c ∈ List.intercalate separator parts) : c ∈ separator ∨ ∃ part ∈ parts, c ∈ part := by
  unfold List.intercalate at h
  obtain ⟨part, hpart, hc⟩ := List.mem_flatten.mp h
  induction parts with
  | nil => nomatch hpart
  | cons first parts ih =>
    cases parts with
    | nil =>
      rw [List.intersperse_singleton, List.mem_singleton] at hpart
      exact .inr ⟨first, List.mem_cons_self, hpart ▸ hc⟩
    | cons second more =>
      rw [List.intersperse_cons_cons, List.mem_cons, List.mem_cons] at hpart
      rcases hpart with rfl | rfl | hpart
      · exact .inr ⟨part, List.mem_cons_self, hc⟩
      · exact .inl hc
      · refine (ih ?_ hpart).imp_right fun ⟨other, hother, hin⟩ =>
          ⟨other, List.mem_cons_of_mem _ hother, hin⟩
        exact List.mem_flatten.mpr ⟨part, hpart, hc⟩

theorem mem_escaped {c : CodePoint} {text : Points} (h : c ∈ escaped text) :
    c ∈ text ∨ c = .scalar '\\' := by
  obtain ⟨d, hd, hc⟩ := List.mem_flatMap.mp h
  unfold escapeOne at hc
  split_ifs at hc with hbackslash hpipe
  · have hone : c = .scalar '\\' := by simpa using hc
    exact .inr hone
  · have htwo : c = .scalar '\\' ∨ c = .scalar '|' := by simpa using hc
    rcases htwo with hone | hone
    · exact .inr hone
    · exact .inl (by rw [hone, ← hpipe]; exact hd)
  · have hone : c = d := by simpa using hc
    exact .inl (hone ▸ hd)

/-- A row has a line break only where one of its cells has. -/
theorem oneLine_rowText {texts : List Points} (h : ∀ text ∈ texts, OneLine text) :
    OneLine (rowText (texts.map escaped)) := by
  have hmem (c : CodePoint) (hc : c ∈ rowText (texts.map escaped)) :
      c = .scalar '|' ∨ c = .scalar ' ' ∨ c = .scalar '\\' ∨ ∃ text ∈ texts, c ∈ text := by
    simp only [rowText, List.mem_cons, List.mem_append, List.not_mem_nil, or_false] at hc
    rcases hc with hc | hc | hc | hc | hc
    · exact .inl hc
    · exact .inr (.inl hc)
    · rcases mem_intercalate hc with hc | ⟨part, hpart, hc⟩
      · have hsep : c = .scalar ' ' ∨ c = .scalar '|' ∨ c = .scalar ' ' := by simpa using hc
        rcases hsep with hsep | hsep | hsep
        · exact .inr (.inl hsep)
        · exact .inl hsep
        · exact .inr (.inl hsep)
      · obtain ⟨text, htext, rfl⟩ := List.mem_map.mp hpart
        rcases mem_escaped hc with hc | hc
        · exact .inr (.inr (.inr ⟨text, htext, hc⟩))
        · exact .inr (.inr (.inl hc))
    · exact .inr (.inl hc)
    · exact .inl hc
  constructor
  · intro hin
    rcases hmem _ hin with hc | hc | hc | ⟨text, htext, hc⟩
    · cases hc
    · cases hc
    · cases hc
    · exact (h text htext).1 hc
  · intro hin
    rcases hmem _ hin with hc | hc | hc | ⟨text, htext, hc⟩
    · cases hc
    · cases hc
    · cases hc
    · exact (h text htext).2 hc

end PipeRows
