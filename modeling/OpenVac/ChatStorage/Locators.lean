/-
  File:      OpenVac/ChatStorage/Locators.lean
  Subject:   Where the passages of a local text come from.

  * `FromLines`, `FromRows` -- a passage and the lines or rows it names; `SolidEnds` -- and no
    more rows than it has text from.
  * `Waiting` -- where the rows that wait stand; blank rows may stand for others (`Alike`).
  * `Tidy` -- no long row is met while only blank rows wait; `csvPieces_fromRows`,
    `csvPieces_stale` -- what this is worth.
  * `locators_exact_iff` -- when the locators are exact.
-/
import OpenVac.ChatStorage.Passages

namespace OpenVac.ChatStorage

open JsString
open KnowledgeBase (visible visible_blank visible_flatten visible_trim)

/-! ## 1. What locators should say -/

/-- The line of a place, by what stands before it. -/
def lineOf (before : Units) : Nat := List.count (.whole '\n') before + 1

/-- A passage is a stretch of the text and names the lines of its first and of its last
    character. -/
def FromLines (text : Text) (chunk : PrivateAttachmentChunk) : Prop :=
  ∃ (before piece after : Units) (markdown : Bool),
    codeUnits text = before ++ piece ++ after ∧ chunk.content = ofCodeUnits piece ∧
      (∀ unit ∈ piece.head?, unit.isBlank = false) ∧
      (∀ unit ∈ piece.getLast?, unit.isBlank = false) ∧
      chunk.locator = .lines markdown (lineOf before) (lineOf (before ++ piece.dropLast))

/-- A passage is the text of the rows it names, or a stretch of the one row it names. -/
def FromRows (rows : List Text) (piece : CsvPiece) : Prop :=
  match piece.2 with
  | .csvRows first last =>
      1 ≤ first ∧ first ≤ last ∧ last ≤ rows.length ∧
        piece.1 = trim (join ['\n'] ((rows.drop (first - 1)).take (last + 1 - first)))
  | .csvRow row =>
      1 ≤ row ∧ ∃ (text : Text) (before stretch after : Units), rows[row - 1]? = some text ∧
        codeUnits text = before ++ stretch ++ after ∧ piece.1 = ofCodeUnits stretch
  | _ => False

/-- There is text in the first and in the last of some rows. -/
def SolidRows (rows : List Text) : Prop :=
  (∀ row ∈ rows.head?, trim row ≠ []) ∧ ∀ row ∈ rows.getLast?, trim row ≠ []

/-- The rows a passage names begin and end with text. -/
def SolidEnds (rows : List Text) (piece : CsvPiece) : Prop :=
  match piece.2 with
  | .csvRows first last => SolidRows ((rows.drop (first - 1)).take (last + 1 - first))
  | _ => True

/-! ## 2. Lines -/

theorem length_split (separator : Char) (s : Text) :
    (split separator s).length = List.count separator s + 1 := by
  induction s with
  | nil => rfl
  | cons c rest ih =>
    unfold split
    by_cases hc : c = separator
    · rw [if_pos hc, hc, List.length_cons, ih, List.count_cons_self]
    · rw [if_neg hc, List.count_cons_of_ne hc, ← ih]
      cases hrest : split separator rest with
      | nil => exact absurd hrest (split_ne_nil separator rest)
      | cons first more => rfl

theorem lineNumberAt_eq (text : Text) (offset : Nat) :
    lineNumberAt text offset = lineOf ((codeUnits text).take offset) := by
  have hsound : ∀ unit ∈ (codeUnits text).take offset, unit.Sound := fun unit hunit =>
    sound_codeUnits text unit (List.mem_of_mem_take hunit)
  unfold lineNumberAt lineOf slice
  rw [length_split, List.drop_zero, count_ofCodeUnits hsound]

/-- The last character of a passage is no line feed. -/
theorem lineOf_append {before piece : Units}
    (h : ∀ unit ∈ piece.getLast?, unit.isBlank = false) :
    lineOf (before ++ piece) = lineOf (before ++ piece.dropLast) := by
  unfold lineOf
  by_cases hne : piece = []
  · rw [hne]
    rfl
  · have hlast := h (piece.getLast hne) (List.getLast?_eq_getLast_of_ne_nil hne)
    have hsplit := List.dropLast_append_getLast hne
    have hnot : piece.getLast hne ≠ .whole '\n' := by
      intro heq
      rw [heq] at hlast
      nomatch hlast
    have hcount : List.count (CodeUnit.whole '\n') piece =
        List.count (.whole '\n') piece.dropLast := by
      rw [← hsplit, List.count_append, List.count_cons_of_ne hnot, List.count_nil, hsplit]
      rfl
    rw [List.count_append, List.count_append, hcount]

/-- **The lines of a passage are exact.** -/
theorem fromLines {text : Text} {chunk : TextChunk} (hchunk : chunk ∈ textPieces text)
    (ordinal : Nat) (markdown : Bool) (hash : Text) :
    FromLines text ⟨ordinal, chunk.content, hash,
      .lines markdown (lineNumberAt text chunk.start) (lineNumberAt text chunk.stop), none⟩ := by
  obtain ⟨before, piece, after, hwhole, hcontent, hhead, hlast, hstart, hstop⟩ :=
    textPieces_stretch hchunk
  refine ⟨before, piece, after, markdown, hwhole, hcontent, hhead, hlast, ?_⟩
  show Locator.lines markdown _ _ = _
  rw [lineNumberAt_eq, lineNumberAt_eq, hstart, hstop, hwhole, List.take_left, List.append_assoc,
    List.take_left, ← lineOf_append hlast]

/-! ## 3. Where rows stand -/

theorem trim_join_eq_nil_iff {rows : List Text} :
    trim (join ['\n'] rows) = [] ↔ ∀ row ∈ rows, trim row = [] := by
  rw [← visible_eq_nil_iff, visible_join, visible_flatten, List.flatten_eq_nil_iff]
  constructor
  · intro h row hrow
    exact visible_eq_nil_iff.mp (h _ (List.mem_map_of_mem hrow))
  · intro h part hpart
    obtain ⟨row, hrow, rfl⟩ := List.mem_map.mp hpart
    exact visible_eq_nil_iff.mpr (h row hrow)

/-- Blank rows in front are lost. -/
theorem trim_join_blanks {blanks : List Text} (h : ∀ row ∈ blanks, trim row = [])
    (rows : List Text) : trim (join ['\n'] (blanks ++ rows)) = trim (join ['\n'] rows) := by
  induction blanks with
  | nil => rfl
  | cons blank more ih =>
    have hrest := ih fun row hrow => h row (List.mem_cons_of_mem _ hrow)
    have hblank := h blank List.mem_cons_self
    rw [← hrest, List.cons_append]
    cases hmore : more ++ rows with
    | nil => rw [join_singleton, hblank]; rfl
    | cons next later =>
      rw [join_cons_cons, ← List.append_assoc]
      refine trim_append_of_blank (fun c hc => ?_) _
      rcases List.mem_append.mp hc with hc | hc
      · exact blank_of_trim hblank c hc
      · rw [List.mem_singleton.mp hc]
        rfl

/-- Two lists of rows, but for blank rows in front. -/
def Alike (rows others : List Text) : Prop :=
  ∃ blanks more common : List Text, rows = blanks ++ common ∧ others = more ++ common ∧
    blanks.length = more.length ∧ (∀ row ∈ blanks, trim row = []) ∧ ∀ row ∈ more, trim row = []

namespace Alike

variable {rows others : List Text}

theorem refl (rows : List Text) : Alike rows rows :=
  ⟨[], [], rows, rfl, rfl, rfl, (fun _ h => nomatch h), fun _ h => nomatch h⟩

theorem length_eq (h : Alike rows others) : rows.length = others.length := by
  obtain ⟨blanks, more, common, rfl, rfl, hlength, -, -⟩ := h
  rw [List.length_append, List.length_append, hlength]

theorem concat (h : Alike rows others) (row : Text) : Alike (rows ++ [row]) (others ++ [row]) := by
  obtain ⟨blanks, more, common, rfl, rfl, hlength, hblank, hmore⟩ := h
  exact ⟨blanks, more, common ++ [row], List.append_assoc _ _ _, List.append_assoc _ _ _, hlength,
    hblank, hmore⟩

theorem trim_join (h : Alike rows others) :
    trim (join ['\n'] rows) = trim (join ['\n'] others) := by
  obtain ⟨blanks, more, common, rfl, rfl, -, hblank, hmore⟩ := h
  rw [trim_join_blanks hblank, trim_join_blanks hmore]

theorem solidRows_iff (h : Alike rows others) : SolidRows rows ↔ SolidRows others := by
  obtain ⟨blanks, more, common, rfl, rfl, hlength, hblank, hmore⟩ := h
  cases blanks with
  | nil =>
    rw [List.eq_nil_of_length_eq_zero hlength.symm]
  | cons blank blanks =>
    cases more with
    | nil => nomatch hlength
    | cons other more =>
      -- both begin with a blank row
      constructor
      · exact fun hsolid => absurd (hblank blank List.mem_cons_self) (hsolid.1 blank rfl)
      · exact fun hsolid => absurd (hmore other List.mem_cons_self) (hsolid.1 other rfl)

/-- A blank row may stand for one in front of the blank rows that wait. -/
theorem shift {first row : Text} (h : Alike rows (first :: others))
    (hblank : trim (join ['\n'] rows) = []) (hrow : trim row = []) :
    Alike rows (others ++ [row]) := by
  have hothers : trim (join ['\n'] (first :: others)) = [] := by
    rw [← h.trim_join]
    exact hblank
  refine ⟨rows, others ++ [row], [], (List.append_nil _).symm, (List.append_nil _).symm, ?_,
    trim_join_eq_nil_iff.mp hblank, fun other hother => ?_⟩
  · rw [h.length_eq, List.length_cons, List.length_append, List.length_singleton]
  · rcases List.mem_append.mp hother with hmem | hmem
    · exact trim_join_eq_nil_iff.mp hothers other (List.mem_cons_of_mem _ hmem)
    · rw [List.mem_singleton.mp hmem]
      exact hrow

end Alike

/-- The rows that wait stand at the start row, in front of those to come. -/
def Waiting (rows : List Text) (start : Nat) (pending rest : List Text) : Prop :=
  ∃ front real : List Text, rows = front ++ real ++ rest ∧ start = front.length + 1 ∧
    Alike pending real

/-- No long row with text in it is met while blank rows wait, and only such. -/
def Tidy (pending : List Text) : List Text → Prop
  | [] => True
  | row :: rest =>
      (IsLong row → trim row ≠ [] → pending ≠ [] → trim (join ['\n'] pending) ≠ []) ∧
        Tidy (packStep pending row) rest

instance : ∀ pending rows, Decidable (Tidy pending rows)
  | _, [] => inferInstanceAs (Decidable True)
  | pending, row :: rest =>
      have _ : Decidable (Tidy (packStep pending row) rest) := instDecidableTidy _ _
      inferInstanceAs (Decidable (_ ∧ _))

/-- The rows of each passage but the long ones. -/
def rowGroups (pending : List Text) : List Text → List (List Text)
  | [] => if trim (join ['\n'] pending) = [] then [] else [pending]
  | row :: rest => (if Closes pending row then [pending] else []) ++
      rowGroups (packStep pending row) rest

namespace Waiting

variable {rows pending rest : List Text} {start : Nat} {row : Text}

theorem begin (rows : List Text) : Waiting rows 1 [] rows :=
  ⟨[], [], rfl, rfl, .refl []⟩

theorem close (h : Waiting rows start pending rest) :
    Waiting rows (start + pending.length) [] rest := by
  obtain ⟨front, real, hrows, hstart, halike⟩ := h
  refine ⟨front ++ real, [], ?_, ?_, .refl []⟩
  · rw [List.append_nil]
    exact hrows
  · rw [List.length_append, hstart, halike.length_eq]
    omega

theorem wait (h : Waiting rows start pending (row :: rest)) :
    Waiting rows start (pending ++ [row]) rest := by
  obtain ⟨front, real, hrows, hstart, halike⟩ := h
  refine ⟨front, real ++ [row], ?_, hstart, halike.concat row⟩
  rw [hrows, List.append_assoc, List.append_assoc, List.append_assoc, List.singleton_append]

/-- **A long row passes**: nothing waits, or all is blank. -/
theorem long (h : Waiting rows start pending (row :: rest)) (hno : ¬ Closes pending row)
    (hlong : IsLong row)
    (htidy : trim row ≠ [] → pending ≠ [] → trim (join ['\n'] pending) ≠ []) :
    Waiting rows (start + 1) pending rest := by
  have hblank := blank_of_long hno hlong
  obtain ⟨front, real, hrows, hstart, halike⟩ := h
  cases real with
  | nil =>
    have hnil : pending = [] := List.eq_nil_of_length_eq_zero halike.length_eq
    refine ⟨front ++ [row], [], ?_, ?_, hnil ▸ .refl []⟩
    · rw [hrows, List.append_nil, List.append_nil, List.append_assoc, List.singleton_append]
    · rw [List.length_append, List.length_singleton, hstart]
  | cons first real =>
    have hne : pending ≠ [] := by
      intro hnil
      rw [hnil] at halike
      exact absurd halike.length_eq (by rw [List.length_cons, List.length_nil]; omega)
    have hrow : trim row = [] := by
      by_contra htext
      exact htidy htext hne hblank
    refine ⟨front ++ [first], real ++ [row], ?_, ?_, halike.shift hblank hrow⟩
    · rw [hrows]
      simp only [List.append_assoc, List.cons_append, List.nil_append]
    · rw [List.length_append, List.length_singleton, hstart]

/-- The rows that a passage of the waiting rows names. -/
theorem named (h : Waiting rows start pending rest) :
    ∃ real, (rows.drop (start - 1)).take (start + pending.length - 1 + 1 - start) = real ∧
      Alike pending real := by
  obtain ⟨front, real, hrows, hstart, halike⟩ := h
  refine ⟨real, ?_, halike⟩
  have hcount : start + pending.length - 1 + 1 - start = real.length := by
    rw [← halike.length_eq]
    omega
  rw [hcount, hstart, Nat.add_sub_cancel, hrows, List.append_assoc, List.drop_left,
    List.take_left]

end Waiting

/-! ## 4. Exact rows -/

/-- A stretch of a blank text is blank. -/
theorem visible_stretch_of_blank {text : Text} (h : trim text = []) {before stretch after : Units}
    (hunits : codeUnits text = before ++ stretch ++ after) :
    visible (ofCodeUnits stretch) = [] := by
  have hsolid : solid CodeUnit.isBlank (codeUnits text) = [] := by
    rw [solid_codeUnits]
    have hvisible := visible_eq_nil_iff.mpr h
    unfold visible at hvisible
    rw [hvisible]
    rfl
  unfold solid at hsolid
  rw [List.filter_eq_nil_iff] at hsolid
  refine visible_blank (ofCodeUnits_blank fun unit hunit => ?_)
  have hmem : unit ∈ codeUnits text := by
    rw [hunits]
    exact List.mem_append_left _ (List.mem_append_right _ hunit)
  have hblank := hsolid unit hmem
  simpa using hblank

theorem visible_textPieces {text : Text} {chunk : TextChunk} (h : chunk ∈ textPieces text) :
    visible chunk.content ≠ [] := by
  obtain ⟨w, -, h⟩ := List.mem_flatMap.mp h
  unfold textChunk at h
  dsimp only at h
  split at h
  · nomatch h
  · rename_i hcontent
    rw [List.mem_singleton.mp h]
    show visible (trim (ofCodeUnits w.2)) ≠ []
    rw [visible_trim]
    exact fun hnone => hcontent (List.isEmpty_iff.mpr (visible_eq_nil_iff.mp hnone))

theorem rowPieces_blank {row : Text} (h : trim row = []) (start : Nat) :
    rowPieces start row = [] := by
  refine List.eq_nil_iff_forall_not_mem.mpr fun piece hpiece => ?_
  obtain ⟨part, hpart, -⟩ := List.mem_map.mp hpiece
  obtain ⟨before, stretch, after, hunits, hcontent, -⟩ := textPieces_stretch hpart
  have hvisible := visible_textPieces hpart
  rw [hcontent] at hvisible
  exact hvisible (visible_stretch_of_blank h hunits)

theorem exists_textPieces {row : Text} (h : trim row ≠ []) : ∃ part, part ∈ textPieces row := by
  refine List.exists_mem_of_ne_nil _ fun hnone => h ?_
  have hread := textPieces_readOff row
  rw [hnone] at hread
  obtain ⟨parts, hparts, hall⟩ := hread
  rw [List.map_nil] at hall
  cases hall
  exact visible_eq_nil_iff.mp hparts.symm

section Exactness

variable {rows pending rest : List Text} {start : Nat} {row : Text}

theorem waitingPiece_fromRows (h : Waiting rows start pending rest) (hne : pending ≠ []) :
    FromRows rows (waitingPiece start pending) := by
  obtain ⟨real, hnamed, halike⟩ := h.named
  obtain ⟨front, other, hrows, hstart, hother⟩ := h
  have hpos : 0 < pending.length := List.length_pos_iff.mpr hne
  have hlength := hother.length_eq
  refine ⟨by omega, by omega, ?_, ?_⟩
  · rw [hrows, List.length_append, List.length_append]
    omega
  · show trim (join ['\n'] pending) = trim (join ['\n'] (List.take _ _))
    rw [hnamed]
    exact halike.trim_join

theorem waitingPiece_solidEnds (h : Waiting rows start pending rest) :
    SolidEnds rows (waitingPiece start pending) ↔ SolidRows pending := by
  obtain ⟨real, hnamed, halike⟩ := h.named
  show SolidRows (List.take _ _) ↔ _
  rw [hnamed]
  exact halike.solidRows_iff.symm

theorem rowPieces_fromRows (h : Waiting rows start [] (row :: rest)) :
    ∀ piece ∈ rowPieces start row, FromRows rows piece := by
  intro piece hpiece
  obtain ⟨part, hpart, rfl⟩ := List.mem_map.mp hpiece
  obtain ⟨before, stretch, after, hunits, hcontent, -⟩ := textPieces_stretch hpart
  obtain ⟨front, real, hrows, hstart, halike⟩ := h
  have hreal : real = [] := List.eq_nil_of_length_eq_zero halike.length_eq.symm
  refine ⟨by omega, row, before, stretch, after, ?_, hunits, hcontent⟩
  rw [hstart, Nat.add_sub_cancel, hrows, hreal, List.append_nil, List.getElem?_append_right
    (Nat.le_refl _), Nat.sub_self]
  rfl

theorem tidy_close (h : Closes pending row) :
    Tidy pending (row :: rest) ↔ Tidy [] (row :: rest) := by
  rw [Tidy, Tidy, packStep_close h]
  constructor
  · exact fun htidy => ⟨fun _ _ hne => absurd rfl hne, htidy.2⟩
  · exact fun htidy => ⟨fun _ _ _ => h.2.2, htidy.2⟩

theorem tidy_long (hno : ¬ Closes pending row) (hlong : IsLong row) :
    Tidy pending (row :: rest) ↔
      (trim row ≠ [] → pending ≠ [] → trim (join ['\n'] pending) ≠ []) ∧ Tidy pending rest := by
  rw [Tidy, packStep_long hno hlong]
  exact and_congr_left fun _ => ⟨fun h => h hlong, fun h _ => h⟩

theorem tidy_wait (hno : ¬ Closes pending row) (hshort : ¬ IsLong row) :
    Tidy pending (row :: rest) ↔ Tidy (pending ++ [row]) rest := by
  rw [Tidy, packStep_wait hno hshort]
  exact ⟨fun h => h.2, fun h => ⟨fun hlong => absurd hlong hshort, h⟩⟩

/-- **Tidy rows are named exactly.** -/
theorem csvPieces_fromRows (h : Waiting rows start pending rest) (htidy : Tidy pending rest) :
    ∀ piece ∈ csvPieces start pending rest, FromRows rows piece := by
  induction start, pending, rest using csvRows_rule with
  | stop start pending =>
    rw [csvPieces]
    split
    · exact fun piece hpiece => absurd hpiece List.not_mem_nil
    · rename_i htext
      intro piece hpiece
      rw [List.mem_singleton.mp hpiece]
      exact waitingPiece_fromRows h fun hnil => htext (by rw [hnil]; rfl)
  | close start pending row rest hcloses ih =>
    rw [csvPieces_close hcloses]
    intro piece hpiece
    rcases List.mem_cons.mp hpiece with rfl | hpiece
    · exact waitingPiece_fromRows h hcloses.1
    · exact ih h.close ((tidy_close hcloses).mp htidy) piece hpiece
  | long start pending row rest hno hlong ih =>
    obtain ⟨hfirst, hmore⟩ := (tidy_long hno hlong).mp htidy
    rw [csvPieces_long hno hlong]
    intro piece hpiece
    rcases List.mem_append.mp hpiece with hpiece | hpiece
    · by_cases hne : pending = []
      · rw [hne] at h
        exact rowPieces_fromRows h piece hpiece
      · have hrow : trim row = [] := by
          by_contra htext
          exact hfirst htext hne (blank_of_long hno hlong)
        rw [rowPieces_blank hrow] at hpiece
        exact absurd hpiece List.not_mem_nil
    · exact ih (h.long hno hlong hfirst) hmore piece hpiece
  | wait start pending row rest hno hshort ih =>
    rw [csvPieces_wait hno hshort]
    exact ih h.wait ((tidy_wait hno hshort).mp htidy)

/-- **A long row behind blank rows that wait is given the first of these.** -/
theorem rowPieces_stale (h : Waiting rows start pending (row :: rest)) (hne : pending ≠ [])
    (hblank : trim (join ['\n'] pending) = []) (hrow : trim row ≠ []) :
    ∃ piece ∈ rowPieces start row, ¬ FromRows rows piece := by
  obtain ⟨part, hpart⟩ := exists_textPieces hrow
  refine ⟨(part.content, .csvRow start), List.mem_map.mpr ⟨part, hpart, rfl⟩, ?_⟩
  rintro ⟨-, text, before, stretch, after, hnamed, hunits, hcontent⟩
  obtain ⟨front, real, hrows, hstart, halike⟩ := h
  cases real with
  | nil => exact hne (List.eq_nil_of_length_eq_zero halike.length_eq)
  | cons first real =>
    have hfirst : trim first = [] := by
      rw [halike.trim_join] at hblank
      exact trim_join_eq_nil_iff.mp hblank first List.mem_cons_self
    have htext : text = first := by
      rw [hstart, Nat.add_sub_cancel, hrows, List.append_assoc,
        List.getElem?_append_right (Nat.le_refl _), Nat.sub_self] at hnamed
      exact (Option.some.inj hnamed).symm
    rw [htext] at hunits
    have hvisible := visible_textPieces hpart
    rw [show part.content = ofCodeUnits stretch from hcontent] at hvisible
    exact hvisible (visible_stretch_of_blank hfirst hunits)

/-- **Untidy rows are not.** -/
theorem csvPieces_stale (h : Waiting rows start pending rest) (htidy : ¬ Tidy pending rest) :
    ∃ piece ∈ csvPieces start pending rest, ¬ FromRows rows piece := by
  induction start, pending, rest using csvRows_rule with
  | stop start pending => exact absurd trivial htidy
  | close start pending row rest hcloses ih =>
    rw [csvPieces_close hcloses]
    obtain ⟨piece, hpiece, hbad⟩ := ih h.close fun hmore => htidy ((tidy_close hcloses).mpr hmore)
    exact ⟨piece, List.mem_cons_of_mem _ hpiece, hbad⟩
  | long start pending row rest hno hlong ih =>
    rw [csvPieces_long hno hlong]
    by_cases hfirst : trim row ≠ [] → pending ≠ [] → trim (join ['\n'] pending) ≠ []
    · have hmore : ¬ Tidy pending rest := fun hmore =>
        htidy ((tidy_long hno hlong).mpr ⟨hfirst, hmore⟩)
      obtain ⟨piece, hpiece, hbad⟩ := ih (h.long hno hlong hfirst) hmore
      exact ⟨piece, List.mem_append_right _ hpiece, hbad⟩
    · push Not at hfirst
      obtain ⟨hrow, hne, hblank⟩ := hfirst
      obtain ⟨piece, hpiece, hbad⟩ := rowPieces_stale h hne hblank hrow
      exact ⟨piece, List.mem_append_left _ hpiece, hbad⟩
  | wait start pending row rest hno hshort ih =>
    rw [csvPieces_wait hno hshort]
    exact ih h.wait fun hmore => htidy ((tidy_wait hno hshort).mpr hmore)

theorem csvPieces_fromRows_iff (rows : List Text) :
    (∀ piece ∈ csvPieces 1 [] rows, FromRows rows piece) ↔ Tidy [] rows := by
  constructor
  · intro h
    by_contra htidy
    obtain ⟨piece, hpiece, hbad⟩ := csvPieces_stale (.begin rows) htidy
    exact hbad (h piece hpiece)
  · exact csvPieces_fromRows (.begin rows)

/-- **The ends of the passages are those of their rows.** -/
theorem csvPieces_solidEnds (h : Waiting rows start pending rest) (htidy : Tidy pending rest) :
    (∀ piece ∈ csvPieces start pending rest, SolidEnds rows piece) ↔
      ∀ group ∈ rowGroups pending rest, SolidRows group := by
  induction start, pending, rest using csvRows_rule with
  | stop start pending =>
    rw [csvPieces, rowGroups]
    by_cases hblank : trim (join ['\n'] pending) = []
    · rw [if_pos hblank, if_pos hblank]
      exact ⟨fun _ group hgroup => absurd hgroup List.not_mem_nil,
        fun _ piece hpiece => absurd hpiece List.not_mem_nil⟩
    · rw [if_neg hblank, if_neg hblank, List.forall_mem_singleton, List.forall_mem_singleton]
      exact waitingPiece_solidEnds h
  | close start pending row rest hcloses ih =>
    have hgroups : rowGroups pending (row :: rest) = pending :: rowGroups [] (row :: rest) := by
      rw [rowGroups, rowGroups, packStep_close hcloses, if_pos hcloses,
        if_neg (not_closes_nil row)]
      rfl
    rw [csvPieces_close hcloses, hgroups, List.forall_mem_cons, List.forall_mem_cons,
      waitingPiece_solidEnds h, ih h.close ((tidy_close hcloses).mp htidy)]
  | long start pending row rest hno hlong ih =>
    obtain ⟨hfirst, hmore⟩ := (tidy_long hno hlong).mp htidy
    have hrow : ∀ piece ∈ rowPieces start row, SolidEnds rows piece := by
      intro piece hpiece
      unfold SolidEnds
      rw [rowPieces_locator piece hpiece]
      trivial
    rw [csvPieces_long hno hlong, rowGroups, packStep_long hno hlong, if_neg hno,
      List.nil_append, ← ih (h.long hno hlong hfirst) hmore, List.forall_mem_append]
    exact ⟨fun hall => hall.2, fun hall => ⟨hrow, hall⟩⟩
  | wait start pending row rest hno hshort ih =>
    rw [csvPieces_wait hno hshort, rowGroups, packStep_wait hno hshort, if_neg hno,
      List.nil_append]
    exact ih h.wait ((tidy_wait hno hshort).mp htidy)

end Exactness

/-! ## 5. Exact locators -/

/-- What is asked of the passages of a text. -/
structure Located (mimeType : String) (text : Text) (chunks : List PrivateAttachmentChunk) :
    Prop where
  numbered : Numbered chunks
  fits : ∀ chunk ∈ chunks, utf16Length chunk.content ≤ 8000
  read : ReadOff (visible text) (chunks.map (·.content))
  lines : mimeType ≠ "text/csv" → ∀ chunk ∈ chunks, FromLines text chunk
  rows : mimeType = "text/csv" → ∀ chunk ∈ chunks, FromRows (splitLines text) (pieceOf chunk)
  above : mimeType = "text/csv" → (chunks.map pieceOf).Pairwise Above

/-- No passage of a CSV file is said to begin or to end in a blank row. -/
def Close (mimeType : String) (text : Text) (chunks : List PrivateAttachmentChunk) : Prop :=
  mimeType = "text/csv" → ∀ chunk ∈ chunks, SolidEnds (splitLines text) (pieceOf chunk)

section Local

variable [Sha256] {mimeType : String} {text : Text} {chunks : List PrivateAttachmentChunk}

theorem chunksForLocalText_csv (h : chunksForLocalText mimeType text = .ok chunks)
    (hcsv : mimeType = "text/csv") : chunks.map pieceOf = csvPieces 1 [] (splitLines text) := by
  unfold chunksForLocalText at h
  split at h
  · nomatch h
  · exact chunksForCsv_eq h

/-- What is not CSV is cut as a text. -/
theorem chunksForLocalText_text (h : chunksForLocalText mimeType text = .ok chunks)
    (hcsv : mimeType ≠ "text/csv") :
    chunks.map (·.content) = (textPieces text).map (·.content) ∧
      ∀ chunk ∈ chunks, FromLines text chunk := by
  unfold chunksForLocalText at h
  split at h
  · nomatch h
  · obtain ⟨parts, hparts, h⟩ := Except.bind_ok_iff.mp h
    rw [← Except.ok.inj h, ← chunkText_eq hparts]
    constructor
    · rw [List.map_map]
      show parts.zipIdx.map (fun entry => entry.1.content) = _
      have hfirst := congrArg (List.map TextChunk.content) (List.zipIdx_map_fst 0 parts)
      rw [List.map_map] at hfirst
      exact hfirst
    · intro chunk hchunk
      obtain ⟨entry, hentry, rfl⟩ := List.mem_map.mp hchunk
      have hpart : entry.1 ∈ textPieces text := by
        rw [← chunkText_eq hparts]
        exact List.fst_mem_of_mem_zipIdx hentry
      exact fromLines hpart _ _ _

theorem chunksForLocalText_readOff (h : chunksForLocalText mimeType text = .ok chunks) :
    ReadOff (visible text) (chunks.map (·.content)) := by
  by_cases hcsv : mimeType = "text/csv"
  · have hread := csvPieces_readOff 1 [] (splitLines text)
    rw [List.nil_append, visible_splitLines, ← chunksForLocalText_csv h hcsv, List.map_map] at hread
    exact hread
  · rw [(chunksForLocalText_text h hcsv).1]
    exact textPieces_readOff text

theorem rows_of_csv (h : chunksForLocalText mimeType text = .ok chunks)
    (hcsv : mimeType = "text/csv") {P : CsvPiece → Prop} :
    (∀ chunk ∈ chunks, P (pieceOf chunk)) ↔
      ∀ piece ∈ csvPieces 1 [] (splitLines text), P piece := by
  rw [← chunksForLocalText_csv h hcsv]
  exact List.forall_mem_map.symm

theorem located_iff (h : chunksForLocalText mimeType text = .ok chunks) :
    Located mimeType text chunks ↔ (mimeType = "text/csv" → Tidy [] (splitLines text)) := by
  constructor
  · intro hlocated hcsv
    rw [← csvPieces_fromRows_iff, ← rows_of_csv h hcsv]
    exact hlocated.rows hcsv
  · intro htidy
    refine ⟨chunksForLocalText_numbered h, fun chunk hchunk => ?_, chunksForLocalText_readOff h,
      fun hother => (chunksForLocalText_text h hother).2, fun hcsv => ?_, fun hcsv => ?_⟩
    · exact (chunksForLocalText_fits h chunk hchunk).2.1
    · rw [rows_of_csv h hcsv, csvPieces_fromRows_iff]
      exact htidy hcsv
    · rw [chunksForLocalText_csv h hcsv]
      exact csvPieces_above 1 [] (splitLines text)

theorem close_iff (h : chunksForLocalText mimeType text = .ok chunks)
    (htidy : mimeType = "text/csv" → Tidy [] (splitLines text)) :
    Close mimeType text chunks ↔
      (mimeType = "text/csv" → ∀ group ∈ rowGroups [] (splitLines text), SolidRows group) := by
  unfold Close
  constructor
  · intro hclose hcsv
    rw [← csvPieces_solidEnds (.begin _) (htidy hcsv), ← rows_of_csv h hcsv]
    exact hclose hcsv
  · intro hgroups hcsv
    rw [rows_of_csv h hcsv, csvPieces_solidEnds (.begin _) (htidy hcsv)]
    exact hgroups hcsv

end Local

/-- **Locators are exact** but where a long row is met while blank rows wait; they take in no
    blank row at their ends when none is at the ends of what waits. -/
theorem locators_exact_iff [Sha256] {mimeType : String} {text : Text}
    {chunks : List PrivateAttachmentChunk} (h : chunksForLocalText mimeType text = .ok chunks) :
    (Located mimeType text chunks ↔ (mimeType = "text/csv" → Tidy [] (splitLines text))) ∧
      (Located mimeType text chunks ∧ Close mimeType text chunks ↔
        (mimeType = "text/csv" → Tidy [] (splitLines text) ∧
          ∀ group ∈ rowGroups [] (splitLines text), SolidRows group)) := by
  refine ⟨located_iff h, ?_⟩
  constructor
  · rintro ⟨hlocated, hclose⟩ hcsv
    have htidy := (located_iff h).mp hlocated
    exact ⟨htidy hcsv, (close_iff h htidy).mp hclose hcsv⟩
  · intro hboth
    have htidy : mimeType = "text/csv" → Tidy [] (splitLines text) := fun hcsv => (hboth hcsv).1
    exact ⟨(located_iff h).mpr htidy, (close_iff h htidy).mpr fun hcsv => (hboth hcsv).2⟩

/-- Two rows of a CSV file are named by their one passage. -/
theorem locators_exact_two_rows :
    let _ : Sha256 := ⟨fun text => text⟩
    Located "text/csv" "a,b\nc".toList [passage 0 "a,b\nc".toList (.csvRows 1 2) none] := by
  intro _
  exact (locators_exact_iff rfl).1.mpr fun _ => by decide +kernel

/-! ### A long row behind a blank one -/

theorem chunkTextFrom_ok {text : Text} {windows : Nat} :
    ∀ {start : Nat} {chunks : List TextChunk},
      utf16Length text ≤ start + windows * (MAX_CHUNK_CHARACTERS - CHUNK_OVERLAP_CHARACTERS) →
      chunks.length + windows ≤ MAX_CHUNKS →
      ∃ chunks', chunkTextFrom text start chunks = .ok chunks' ∧
        chunks'.length ≤ chunks.length + windows := by
  induction windows with
  | zero =>
    intro start chunks hlength hfew
    unfold chunkTextFrom
    rw [dif_neg (by omega)]
    exact ⟨chunks, rfl, Nat.le_refl _⟩
  | succ windows ih =>
    intro start chunks hlength hfew
    unfold chunkTextFrom
    by_cases hstart : start < utf16Length text
    · rw [dif_pos hstart]
      -- with or without a passage of this window
      have hrest : ∀ pushed : List TextChunk, pushed.length ≤ chunks.length + 1 →
          ∃ chunks', (if start + MAX_CHUNK_CHARACTERS ≥ utf16Length text then Except.ok pushed
            else chunkTextFrom text (start + (MAX_CHUNK_CHARACTERS - CHUNK_OVERLAP_CHARACTERS))
              pushed) = .ok chunks' ∧ chunks'.length ≤ chunks.length + (windows + 1) := by
        intro pushed hpushed
        by_cases hend : start + MAX_CHUNK_CHARACTERS ≥ utf16Length text
        · rw [if_pos hend]
          exact ⟨pushed, rfl, by omega⟩
        · rw [if_neg hend]
          obtain ⟨chunks', hok, hcount⟩ := @ih
            (start + (MAX_CHUNK_CHARACTERS - CHUNK_OVERLAP_CHARACTERS)) pushed
            (by rw [Nat.succ_mul] at hlength; omega) (by omega)
          exact ⟨chunks', hok, by omega⟩
      dsimp only
      split
      · exact hrest chunks (by omega)
      · unfold withinLimit
        rw [if_neg (by rw [List.length_append, List.length_singleton]; omega)]
        exact hrest _ (by rw [List.length_append, List.length_singleton])
    · rw [dif_neg hstart]
      exact ⟨chunks, rfl, by omega⟩

section LongRow

variable [Sha256]

theorem foldlM_pushPassage_ok {locator : Locator} {parts : List TextChunk}
    {chunks : List PrivateAttachmentChunk} (h : chunks.length + parts.length ≤ MAX_CHUNKS) :
    ∃ chunks', parts.foldlM (fun chunks part => pushPassage locator none chunks part.content)
      chunks = .ok chunks' := by
  induction parts generalizing chunks with
  | nil => exact ⟨chunks, rfl⟩
  | cons part rest ih =>
    rw [List.length_cons] at h
    rw [List.foldlM_cons]
    unfold pushPassage withinLimit
    rw [if_neg (by rw [List.length_append, List.length_singleton]; omega)]
    exact ih (by rw [List.length_append, List.length_singleton]; omega)

variable {row : Text}

/-- A blank row that waits is not closed by a long one. -/
theorem csvLine_blank_long (hlong : IsLong row)
    (hroom : utf16Length row ≤ 2 * MAX_CHUNK_CHARACTERS - 2 * CHUNK_OVERLAP_CHARACTERS)
    (htext : trim row ≠ []) :
    ∃ s, csvLine ⟨[], 1, [[]]⟩ row = .ok s ∧ s.buffer = [[]] ∧ s.chunks ≠ [] := by
  have hflush : ∀ condition : Bool, csvFlushIf condition ⟨[], 1, [[]]⟩ = .ok ⟨[], 1, [[]]⟩ := by
    intro condition
    cases condition <;> rfl
  obtain ⟨parts, hparts, hfew⟩ := @chunkTextFrom_ok row 2 0 [] (by
    simp only [MAX_CHUNK_CHARACTERS, CHUNK_OVERLAP_CHARACTERS] at hroom ⊢
    omega) (by decide)
  have hcount : parts.length ≤ 2 := by simpa using hfew
  obtain ⟨chunks, hchunks⟩ := @foldlM_pushPassage_ok _ (.csvRow 1) parts [] (by
    simp only [MAX_CHUNKS, List.length_nil]
    omega)
  have hline : csvLine ⟨[], 1, [[]]⟩ row = .ok ⟨chunks, 2, [[]]⟩ := by
    unfold csvLine
    dsimp only
    rw [hflush]
    show (if utf16Length row > MAX_CHUNK_CHARACTERS then _ else _) = _
    rw [if_pos (show utf16Length row > MAX_CHUNK_CHARACTERS from hlong), hflush]
    have hcut : chunkText row = .ok parts := hparts
    refine Except.bind_ok_iff.mpr ⟨⟨[], 1, [[]]⟩, rfl, ?_⟩
    refine Except.bind_ok_iff.mpr ⟨parts, hcut, ?_⟩
    exact Except.bind_ok_iff.mpr ⟨chunks, hchunks, rfl⟩
  refine ⟨_, hline, rfl, ?_⟩
  show chunks ≠ []
  intro hnone
  obtain ⟨part, hpart⟩ := exists_textPieces htext
  have hmap := foldlM_pushPassage hchunks
  rw [hnone, chunkText_eq hparts] at hmap
  have hnil := List.map_eq_nil_iff.mp hmap.symm
  rw [hnil] at hpart
  nomatch hpart

omit [Sha256] in
theorem splitLines_blank_row (hrow : '\n' ∉ row) : splitLines ('\n' :: row) = [[], row] := by
  have hsplit : split '\n' ('\n' :: row) = [[], row] := by
    unfold split
    rw [if_pos rfl, split_eq_singleton hrow]
  unfold splitLines
  rw [hsplit]
  rfl

theorem chunksForLocalText_blank_long (hlong : IsLong row)
    (hroom : utf16Length row ≤ 2 * MAX_CHUNK_CHARACTERS - 2 * CHUNK_OVERLAP_CHARACTERS)
    (htext : trim row ≠ []) (hbreak : '\n' ∉ row) (hzero : '\x00' ∉ row) :
    ∃ chunks, chunksForLocalText "text/csv" ('\n' :: row) = .ok chunks := by
  obtain ⟨s, hline, hbuffer, hsome⟩ := csvLine_blank_long hlong hroom htext
  have hrows : [[], row].foldlM csvLine ⟨[], 1, []⟩ = .ok s := by
    rw [List.foldlM_cons]
    show (csvLine ⟨[], 1, [[]]⟩ row >>= fun s => [].foldlM csvLine s) = _
    rw [hline]
    rfl
  have hlast : csvFlushIf (s.buffer.length > 0) s = .ok s := by
    rw [hbuffer]
    show csvFlush s = _
    unfold csvFlush
    rw [hbuffer]
    rfl
  refine ⟨s.chunks, ?_⟩
  unfold chunksForLocalText
  have hbad : ¬ ((trim ('\n' :: row)).isEmpty || List.contains ('\n' :: row) '\x00') = true := by
    rw [Bool.or_eq_true, List.isEmpty_iff, List.contains_iff_mem, List.mem_cons]
    rintro (hblank | hnul | hnul)
    · exact htext hblank
    · nomatch hnul
    · exact hzero hnul
  rw [if_neg hbad, if_pos rfl]
  unfold chunksForCsv
  rw [splitLines_blank_row hbreak, hrows]
  show (csvFlushIf _ s >>= _) = _
  rw [hlast]
  show (if s.chunks.isEmpty then _ else _) = _
  rw [if_neg fun hempty => hsome (List.isEmpty_iff.mp hempty)]

end LongRow

/-- A blank row and one of 8001 characters: the passages of the long row name the blank one. -/
theorem blank_row_named : ¬ ∀ [Sha256] (mimeType : String) (text : Text)
    (chunks : List PrivateAttachmentChunk), chunksForLocalText mimeType text = .ok chunks →
      Located mimeType text chunks := by
  intro hclaim
  let _ : Sha256 := ⟨fun text => text⟩
  obtain ⟨row, hrow⟩ : ∃ row : Text, row = List.replicate 8001 'x' := ⟨_, rfl⟩
  have honly : ∀ c ∈ row, c = 'x' := by
    intro c hc
    rw [hrow] at hc
    exact List.eq_of_mem_replicate hc
  have hlength : utf16Length row = 8001 := by
    rw [utf16Length_of_plain (List.all_eq_true.mpr fun c hc => honly c hc ▸ rfl), hrow]
    exact List.length_replicate
  have hlong : IsLong row := by
    unfold IsLong
    rw [hlength]
    decide
  have htext : trim row ≠ [] := by
    intro hblank
    have hmem : 'x' ∈ row := by
      rw [hrow]
      exact List.mem_replicate.mpr ⟨by decide, rfl⟩
    nomatch blank_of_trim hblank 'x' hmem
  have hbreak : '\n' ∉ row := fun h => nomatch honly _ h
  obtain ⟨chunks, h⟩ := chunksForLocalText_blank_long hlong (by rw [hlength]; decide) htext hbreak
    fun h => nomatch honly _ h
  have htidy := (located_iff h).mp (hclaim _ _ _ h) rfl
  rw [splitLines_blank_row hbreak] at htidy
  exact htidy.2.1 hlong htext (List.cons_ne_nil _ _) rfl

end OpenVac.ChatStorage
