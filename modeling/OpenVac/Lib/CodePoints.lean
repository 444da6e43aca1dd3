/-
  File:      OpenVac/Lib/CodePoints.lean
  Subject:   Strings by their code points, surrogates without a partner included.

  * `CodePoint`, `Points` -- what iterating over a string yields.
  * `Points.length`, `Points.trim`, `Points.trimEnd` -- `length`, `trim` and `trimEnd`;
    `Points.trim_trim` -- what is trimmed stays.
  * `replaceAll` -- `s.replaceAll(pattern, replacement)`; `replaceAll_single` for one character.
  * `textLines` -- the lines of a text, by CR, LF and CR LF.
  * `Within` -- blocks that stand in a list one after the other.
-/
import OpenVac.Lib.JsString

/-- A character, or a surrogate that is not half of a pair. -/
inductive CodePoint where
  | scalar (c : Char)
  | surrogate (n : Fin 0x800)
  deriving DecidableEq

instance : Coe Char CodePoint := ⟨.scalar⟩

/-- A string, by its code points. A high surrogate before a low one is a character, so the lists
    that strings have keep the two apart; nothing below asks for that. -/
abbrev Points := List CodePoint

namespace CodePoint

def toNat : CodePoint → Nat
  | .scalar c => c.toNat
  | .surrogate n => 0xD800 + n.val

/-- The UTF-16 units of a code point. -/
def units : CodePoint → Nat
  | .scalar c => if c.toNat < 0x10000 then 1 else 2
  | .surrogate _ => 1

def isWhiteSpace : CodePoint → Bool
  | .scalar c => JsString.isWhiteSpace c
  | .surrogate _ => false

end CodePoint

namespace Points

/-- `s.length`. -/
def length (s : Points) : Nat := (s.map CodePoint.units).sum

def trimEnd (s : Points) : Points := s.rdropWhile CodePoint.isWhiteSpace

def trim (s : Points) : Points := trimEnd (s.dropWhile CodePoint.isWhiteSpace)

/-- A stretch from the start begins as the text does, so nothing is dropped of it. -/
theorem dropWhile_trimEnd_dropWhile (s : Points) :
    (trimEnd (s.dropWhile CodePoint.isWhiteSpace)).dropWhile CodePoint.isWhiteSpace =
      trimEnd (s.dropWhile CodePoint.isWhiteSpace) := by
  have hprefix : trimEnd (s.dropWhile CodePoint.isWhiteSpace) <+:
      s.dropWhile CodePoint.isWhiteSpace := List.rdropWhile_prefix _ _
  cases hcase : trimEnd (s.dropWhile CodePoint.isWhiteSpace) with
  | nil => rfl
  | cons c rest =>
    obtain ⟨more, hmore⟩ := hprefix
    rw [hcase, List.cons_append] at hmore
    have hc : ¬ CodePoint.isWhiteSpace c = true := by
      have hhead := List.head_dropWhile_not CodePoint.isWhiteSpace
        (show s.dropWhile CodePoint.isWhiteSpace ≠ [] by
          rw [← hmore]
          exact List.cons_ne_nil _ _)
      simp only [← hmore, List.head_cons] at hhead
      rw [hhead]
      exact Bool.false_ne_true
    rw [List.dropWhile_cons, if_neg hc]

theorem trim_trim (s : Points) : trim (trim s) = trim s := by
  unfold trim
  rw [dropWhile_trimEnd_dropWhile]
  exact List.rdropWhile_idempotent CodePoint.isWhiteSpace _

end Points

namespace CodePoints

/-! ## 1. Replacement -/

section Replace

variable {α : Type} [DecidableEq α]

/-- The replaced rest of a string, the next `skip` places of which belong to a match. -/
def replaceFrom (pattern replacement : List α) : Nat → List α → List α
  | _, [] => []
  | skip + 1, _ :: rest => replaceFrom pattern replacement skip rest
  | 0, c :: rest =>
      if pattern <+: c :: rest then
        replacement ++ replaceFrom pattern replacement (pattern.length - 1) rest
      else c :: replaceFrom pattern replacement 0 rest

/-- `s.replaceAll(pattern, replacement)`, of a pattern that is not empty. -/
def replaceAll (pattern replacement s : List α) : List α := replaceFrom pattern replacement 0 s

/-- One character is replaced place by place. -/
theorem replaceAll_single (a : α) (replacement s : List α) :
    replaceAll [a] replacement s = s.flatMap fun c => if c = a then replacement else [c] := by
  unfold replaceAll
  induction s with
  | nil => rfl
  | cons c rest ih =>
    rw [replaceFrom, List.flatMap_cons]
    by_cases hc : c = a
    · have hhead : [a] <+: c :: rest := by simp [hc]
      rw [if_pos hhead, if_pos hc]
      exact congrArg (replacement ++ ·) ih
    · have hhead : ¬ [a] <+: c :: rest := fun h => hc ((List.cons_prefix_cons.mp h).1).symm
      rw [if_neg hhead, if_neg hc, ih]
      rfl

/-- Two characters that are met are replaced. -/
theorem replaceAll_pair_match (a b : α) (replacement rest : List α) :
    replaceAll [a, b] replacement (a :: b :: rest) =
      replacement ++ replaceAll [a, b] replacement rest := by
  have hhead : [a, b] <+: a :: b :: rest := ⟨rest, rfl⟩
  unfold replaceAll
  rw [replaceFrom, if_pos hhead]
  rfl

/-- A character that does not begin the two stays. -/
theorem replaceAll_pair_other {a b c : α} (replacement : List α) {rest : List α}
    (h : ¬ [a, b] <+: c :: rest) :
    replaceAll [a, b] replacement (c :: rest) = c :: replaceAll [a, b] replacement rest := by
  unfold replaceAll
  rw [replaceFrom, if_neg h]

end Replace

/-! ## 2. Lines -/

/-- A character put before the first line. -/
def consLine {α : Type} (c : α) : List (List α) → List (List α)
  | [] => [[c]]
  | first :: more => (c :: first) :: more

/-- The lines of a text: each ends at CR LF, CR or LF. -/
def textLines : Points → List Points
  | [] => [[]]
  | .scalar '\r' :: .scalar '\n' :: rest => [] :: textLines rest
  | .scalar '\r' :: rest => [] :: textLines rest
  | .scalar '\n' :: rest => [] :: textLines rest
  | c :: rest => consLine c (textLines rest)

/-- A text without line breaks. -/
def OneLine (s : Points) : Prop := CodePoint.scalar '\r' ∉ s ∧ CodePoint.scalar '\n' ∉ s

theorem textLines_cons {c : CodePoint} (hcr : c ≠ '\r') (hlf : c ≠ '\n') (rest : Points) :
    textLines (c :: rest) = consLine c (textLines rest) := by
  rw [textLines]
  · intro _ h
    exact absurd h hcr
  · exact fun h => hcr h
  · exact hlf

/-- A line, its end, and the lines after it. -/
theorem textLines_append_lf {line : Points} (h : OneLine line) (rest : Points) :
    textLines (line ++ .scalar '\n' :: rest) = line :: textLines rest := by
  induction line with
  | nil => rfl
  | cons c line ih =>
    have hcr : c ≠ '\r' := fun hc => h.1 (by simp [hc])
    have hlf : c ≠ '\n' := fun hc => h.2 (by simp [hc])
    have hline : OneLine line :=
      ⟨fun hc => h.1 (List.mem_cons_of_mem _ hc), fun hc => h.2 (List.mem_cons_of_mem _ hc)⟩
    rw [List.cons_append, textLines_cons hcr hlf, ih hline]
    rfl

/-- Whatever stands before a line feed, the lines after it are those of the rest. -/
theorem textLines_after_lf (before rest : Points) :
    ∃ lines, lines ≠ [] ∧ textLines (before ++ .scalar '\n' :: rest) = lines ++ textLines rest := by
  fun_induction textLines before with
  | case1 => exact ⟨[[]], by simp, rfl⟩
  | case2 before ih =>
    obtain ⟨lines, -, hlines⟩ := ih
    refine ⟨[] :: lines, by simp, ?_⟩
    rw [List.cons_append, List.cons_append, textLines, hlines]
    rfl
  | case3 before hnot ih =>
    obtain ⟨lines, -, hlines⟩ := ih
    cases before with
    | nil => exact ⟨[[]], by simp, rfl⟩
    | cons d more =>
      have hd : d ≠ '\n' := fun hd => hnot more (by rw [hd])
      refine ⟨[] :: lines, by simp, ?_⟩
      rw [List.cons_append, textLines, hlines]
      · rfl
      · intro rest' heq
        exact hd (List.cons.inj heq).1
  | case4 before ih =>
    obtain ⟨lines, -, hlines⟩ := ih
    refine ⟨[] :: lines, by simp, ?_⟩
    rw [List.cons_append, textLines, hlines]
    rfl
  | case5 c before hpair hcr hlf ih =>
    obtain ⟨lines, hne, hlines⟩ := ih
    rw [List.cons_append, textLines_cons (fun h => hcr h) (fun h => hlf h), hlines]
    cases lines with
    | nil => exact absurd rfl hne
    | cons first more => exact ⟨(c :: first) :: more, by simp, rfl⟩

/-! ## 3. Blocks within a list -/

/-- The blocks stand in the list in this order, none of them over another. -/
inductive Within {α : Type} : List (List α) → List α → Prop where
  | nil (rest : List α) : Within [] rest
  | cons (gap block : List α) {blocks : List (List α)} {rest : List α} :
      Within blocks rest → Within (block :: blocks) (gap ++ (block ++ rest))

end CodePoints
