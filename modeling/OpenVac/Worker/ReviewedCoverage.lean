/-
  File:      OpenVac/Worker/ReviewedCoverage.lean
  Subject:   What of a reviewed text its chunks hold.

  * `Reads` -- the characters of a text are read off pieces in order, each of them whole.
  * `piecesFrom_reads` -- the pieces of a long paragraph, if no character is cut in two.
  * `packFrom_reads`, `length_of_mem_packFrom` -- the loop over the paragraphs of a page.
  * `Covers` -- the chunks hold the text outside the markers, page by page.
  * `chunks_cover_iff` -- they do exactly if nothing stands before the first marker and, without an
    overlap, no character is cut.
-/
import OpenVac.KnowledgeBase.SectionCoverage
import OpenVac.Lib.CodeWindows
import OpenVac.Worker.KnowledgeChunks

namespace OpenVac.KnowledgeIngestion

open JsString JsRegex
open KnowledgeBase (beforeFirstMarker markerPage pageMarker stretches visible)

/-! ## 1. Reading characters -/

/-- A text is read off pieces: whole characters of each, blanks aside, one piece after the other. -/
def Reads (text : Text) (pieces : List Units) : Prop :=
  ∃ parts : List Text, parts.flatten = text ∧
    List.Forall₂ (fun part piece => codeUnits part <:+: solid CodeUnit.isBlank piece) parts pieces

theorem reads_nil : Reads [] [] := ⟨[], rfl, .nil⟩

theorem reads_single {text : Text} {piece : Units}
    (h : codeUnits text <:+: solid CodeUnit.isBlank piece) : Reads text [piece] :=
  ⟨[text], List.append_nil text, .cons h .nil⟩

theorem Reads.append {s t : Text} {pieces more : List Units} (hs : Reads s pieces)
    (ht : Reads t more) : Reads (s ++ t) (pieces ++ more) := by
  obtain ⟨parts, rfl, hparts⟩ := hs
  obtain ⟨others, rfl, hothers⟩ := ht
  exact ⟨parts ++ others, List.flatten_append, List.rel_append hparts hothers⟩

theorem solid_visible (text : Text) :
    solid CodeUnit.isBlank (codeUnits text) = codeUnits (visible text) := solid_codeUnits text

/-- A stretch of a text is read off a trimmed piece that has it, or there is nothing to read. -/
theorem reads_trimmed {text : Text} {window : Units} (h : codeUnits text <:+: window) :
    Reads (visible text)
      (if (trimUnits window).isEmpty then [] else [trimUnits window]) := by
  have hsolid : codeUnits (visible text) <:+: solid CodeUnit.isBlank (trimUnits window) := by
    have hstretch := h.filter fun unit => !CodeUnit.isBlank unit
    unfold trimUnits
    rw [solid_strip, ← solid_visible]
    exact hstretch
  by_cases hempty : (trimUnits window).isEmpty = true
  · rw [List.isEmpty_iff.mp hempty] at hsolid
    have hnone := codeUnits_eq_nil_iff.mp (List.infix_nil.mp hsolid)
    rw [if_pos hempty, hnone]
    exact reads_nil
  · rw [if_neg hempty]
    exact reads_single hsolid

/-! ## 2. Long paragraphs -/

/-- No multiple of a size falls between the halves of a character. -/
def Uncut (size : Nat) (paragraph : Text) : Prop :=
  ∀ k c, (codeUnits paragraph)[k * size]? ≠ some (.trail c)

section Pack

variable {sizes : ChunkSizes}

/-- The pieces are the windows of the paragraph, without outer blanks and none of those that are
    blank. -/
theorem piecesFrom_eq (paragraph : Units) (offset : Nat) :
    piecesFrom sizes paragraph offset =
      (windowsFrom sizes.maxCharacters sizes.step paragraph offset).flatMap fun w =>
        if (trimUnits w.2).isEmpty then [] else [trimUnits w.2] := by
  have hstep := sizes.step_pos
  fun_induction piecesFrom sizes paragraph offset with
  | case1 offset hmore piece first hend =>
    rw [windowsFrom, if_pos ⟨hmore, hstep⟩, if_pos hend]
    exact (List.flatMap_singleton _ _).symm
  | case2 offset hmore piece first hend ih =>
    rw [windowsFrom, if_pos ⟨hmore, hstep⟩, if_neg hend, List.flatMap_cons, ih]
    rfl
  | case3 offset hmore =>
    rw [windowsFrom, if_neg fun h => hmore h.1]
    rfl

/-- **The pieces of a long paragraph** hold it, if no character is cut. -/
theorem piecesFrom_reads {paragraph : Text}
    (huncut : sizes.overlapCharacters = 0 → Uncut sizes.maxCharacters paragraph) :
    Reads (visible paragraph) (piecesFrom sizes (codeUnits paragraph) 0) := by
  have hexact : sizes.step = sizes.maxCharacters → Uncut sizes.maxCharacters paragraph := by
    intro hsame
    have hlt := sizes.overlap_lt
    unfold ChunkSizes.step at hsame
    exact huncut (by omega)
  obtain ⟨parts, hparts, hwindows⟩ :=
    windowsFrom_read sizes.step_pos sizes.step_le paragraph hexact
  rw [piecesFrom_eq]
  generalize windowsFrom sizes.maxCharacters sizes.step (codeUnits paragraph) 0 = windows
    at hwindows ⊢
  rw [← hparts]
  clear hparts
  induction hwindows with
  | nil => exact reads_nil
  | cons hfirst _ ih =>
    rw [List.flatten_cons, KnowledgeBase.visible_append, List.flatMap_cons]
    exact (reads_trimmed hfirst).append ih

/-! ## 3. The buffer -/

theorem solid_blankLine : solid CodeUnit.isBlank blankLine = [] := by decide

theorem solid_behind (buffer paragraph : Units) :
    solid CodeUnit.isBlank (behind buffer paragraph) =
      solid CodeUnit.isBlank buffer ++ solid CodeUnit.isBlank paragraph := by
  unfold behind
  by_cases hempty : buffer.isEmpty = true
  · rw [if_pos hempty, List.isEmpty_iff.mp hempty]
    rfl
  · rw [if_neg hempty, solid_append, solid_append, solid_blankLine, List.append_nil]

theorem trimUnits_isEmpty_iff (buffer : Units) :
    (trimUnits buffer).isEmpty = true ↔ solid CodeUnit.isBlank buffer = [] := by
  rw [List.isEmpty_iff]
  exact strip_eq_nil_iff CodeUnit.isBlank buffer

/-- **A flush reads what is pending**, and leaves nothing of it. -/
theorem flush_reads {buffer : Units} {pending : Text}
    (h : codeUnits pending <:+ solid CodeUnit.isBlank buffer) :
    Reads pending (flush sizes buffer).1 := by
  unfold flush
  dsimp only
  by_cases hempty : (trimUnits buffer).isEmpty = true
  · rw [(trimUnits_isEmpty_iff buffer).mp hempty, List.suffix_nil] at h
    rw [if_pos hempty, codeUnits_eq_nil_iff.mp h]
    exact reads_nil
  · rw [if_neg hempty]
    refine reads_single ?_
    unfold trimUnits
    rw [solid_strip]
    exact h.isInfix

/-- What is flushed at the end of a page or before a long paragraph. -/
theorem flushed_reads {buffer : Units} {pending : Text}
    (h : codeUnits pending <:+ solid CodeUnit.isBlank buffer) :
    Reads pending (if (trimUnits buffer).isEmpty then [] else (flush sizes buffer).1) := by
  by_cases hempty : (trimUnits buffer).isEmpty = true
  · rw [(trimUnits_isEmpty_iff buffer).mp hempty, List.suffix_nil] at h
    rw [if_pos hempty, codeUnits_eq_nil_iff.mp h]
    exact reads_nil
  · rw [if_neg hempty]
    exact flush_reads h

theorem suffix_behind (buffer : Units) (paragraph : Text) :
    codeUnits (visible paragraph) <:+
      solid CodeUnit.isBlank (behind buffer (codeUnits paragraph)) := by
  rw [solid_behind, solid_visible]
  exact List.suffix_append _ _

/-- **The loop over the paragraphs** reads what is pending in the buffer, and the paragraphs. -/
theorem packFrom_reads {paragraphs : List Text}
    (huncut : sizes.overlapCharacters = 0 →
      ∀ paragraph ∈ paragraphs, Uncut sizes.maxCharacters paragraph)
    {buffer : Units} {pending : Text}
    (h : codeUnits pending <:+ solid CodeUnit.isBlank buffer) :
    Reads (pending ++ visible paragraphs.flatten)
      (packFrom sizes buffer (paragraphs.map codeUnits)) := by
  induction paragraphs generalizing buffer pending with
  | nil =>
    have hnone : visible ([] : List Text).flatten = [] := rfl
    rw [hnone, List.append_nil, List.map_nil, packFrom]
    exact flushed_reads h
  | cons paragraph rest ih =>
    have hrest : sizes.overlapCharacters = 0 → ∀ other ∈ rest, Uncut sizes.maxCharacters other :=
      fun hzero other hother => huncut hzero other (List.mem_cons_of_mem _ hother)
    have hvisible : visible (paragraph :: rest).flatten =
        visible paragraph ++ visible rest.flatten := KnowledgeBase.visible_append _ _
    rw [hvisible, List.map_cons, packFrom]
    by_cases hlong : sizes.maxCharacters < (codeUnits paragraph).length
    · rw [if_pos hlong]
      have hpieces : Reads (visible paragraph) (piecesFrom sizes (codeUnits paragraph) 0) :=
        piecesFrom_reads fun hzero => huncut hzero _ List.mem_cons_self
      have hflushed := @flushed_reads sizes _ _ h
      have hnone (left : Units) : codeUnits [] <:+ solid CodeUnit.isBlank left :=
        List.nil_suffix
      by_cases hempty : (trimUnits buffer).isEmpty = true
      · rw [if_pos hempty] at hflushed ⊢
        rw [← List.append_assoc]
        exact (hflushed.append hpieces).append (ih hrest (hnone buffer))
      · rw [if_neg hempty] at hflushed ⊢
        rw [← List.append_assoc]
        exact (hflushed.append hpieces).append (ih hrest (hnone []))
    · rw [if_neg hlong]
      dsimp only
      by_cases hfull : sizes.maxCharacters < (behind buffer (codeUnits paragraph)).length
      · rw [if_pos hfull]
        refine (flush_reads h).append (ih hrest ?_)
        by_cases hagain : sizes.maxCharacters <
            (behind (flush sizes buffer).2 (codeUnits paragraph)).length
        · rw [if_pos hagain, solid_visible]
        · rw [if_neg hagain]
          exact suffix_behind _ _
      · rw [if_neg hfull, ← List.append_assoc]
        refine ih hrest ?_
        obtain ⟨before, hbefore⟩ := h
        rw [solid_behind, ← hbefore, solid_visible, codeUnits_append, List.append_assoc]
        exact List.suffix_append _ _

/-! ## 4. Sizes -/

theorem length_trimUnits_le (s : Units) : (trimUnits s).length ≤ s.length :=
  length_strip_le CodeUnit.isBlank s

theorem length_of_mem_trimmed {size : Nat} {window : Units} (h : window.length ≤ size) :
    ∀ piece ∈ (if (trimUnits window).isEmpty then [] else [trimUnits window]),
      piece.length ≤ size := by
  intro piece hpiece
  split_ifs at hpiece
  · nomatch hpiece
  · rw [List.mem_singleton.mp hpiece]
    exact (length_trimUnits_le window).trans h

theorem length_of_mem_piecesFrom (paragraph : Units) (offset : Nat) :
    ∀ piece ∈ piecesFrom sizes paragraph offset, piece.length ≤ sizes.maxCharacters := by
  have hwindow (offset : Nat) :
      (sliceUnits offset (offset + sizes.maxCharacters) paragraph).length ≤ sizes.maxCharacters := by
    unfold sliceUnits
    rw [List.length_drop, List.length_take]
    omega
  fun_induction piecesFrom sizes paragraph offset with
  | case1 offset hmore piece first hend => exact length_of_mem_trimmed (hwindow offset)
  | case2 offset hmore piece first hend ih =>
    intro other hother
    rcases List.mem_append.mp hother with hfirst | hrest
    · exact length_of_mem_trimmed (hwindow offset) other hfirst
    · exact ih other hrest
  | case3 => exact fun piece hpiece => nomatch hpiece

theorem length_of_mem_flush {buffer : Units} (h : buffer.length ≤ sizes.maxCharacters) :
    ∀ piece ∈ (flush sizes buffer).1, piece.length ≤ sizes.maxCharacters := by
  unfold flush
  dsimp only
  intro piece hpiece
  by_cases hempty : (trimUnits buffer).isEmpty = true
  · rw [if_pos hempty] at hpiece
    nomatch hpiece
  · rw [if_neg hempty] at hpiece
    rw [List.mem_singleton.mp hpiece]
    exact (length_trimUnits_le buffer).trans h

/-- **No chunk is too long**: neither is the buffer, at any time. -/
theorem length_of_mem_packFrom {paragraphs : List Units} {buffer : Units}
    (h : buffer.length ≤ sizes.maxCharacters) :
    ∀ piece ∈ packFrom sizes buffer paragraphs, piece.length ≤ sizes.maxCharacters := by
  induction paragraphs generalizing buffer with
  | nil =>
    rw [packFrom]
    intro piece hpiece
    split_ifs at hpiece
    · nomatch hpiece
    · exact length_of_mem_flush h piece hpiece
  | cons paragraph rest ih =>
    rw [packFrom]
    by_cases hlong : sizes.maxCharacters < paragraph.length
    · rw [if_pos hlong]
      have hnil : ([] : Units).length ≤ sizes.maxCharacters := Nat.zero_le _
      intro piece hpiece
      by_cases hempty : (trimUnits buffer).isEmpty = true
      · rw [if_pos hempty] at hpiece
        rcases List.mem_append.mp hpiece with hfirst | hmore
        · rcases List.mem_append.mp hfirst with hnone | hpieces
          · nomatch hnone
          · exact length_of_mem_piecesFrom paragraph 0 piece hpieces
        · exact ih h piece hmore
      · rw [if_neg hempty] at hpiece
        rcases List.mem_append.mp hpiece with hfirst | hmore
        · rcases List.mem_append.mp hfirst with hflushed | hpieces
          · exact length_of_mem_flush h piece hflushed
          · exact length_of_mem_piecesFrom paragraph 0 piece hpieces
        · exact ih hnil piece hmore
    · rw [if_neg hlong]
      dsimp only
      by_cases hfull : sizes.maxCharacters < (behind buffer paragraph).length
      · rw [if_pos hfull]
        intro piece hpiece
        rcases List.mem_append.mp hpiece with hflushed | hmore
        · exact length_of_mem_flush h piece hflushed
        · refine ih ?_ piece hmore
          split_ifs with hagain
          · exact Nat.le_of_not_lt hlong
          · exact Nat.le_of_not_lt hagain
      · rw [if_neg hfull]
        exact ih (Nat.le_of_not_lt hfull)

/-! ## 5. Without an overlap -/

theorem trimmed_eq {window : Units} (h : (trimUnits window).isEmpty = false) :
    (if (trimUnits window).isEmpty then [] else [trimUnits window]) = [trimUnits window] := by
  rw [h]
  rfl

theorem trimmed_solid (window : Units) :
    (if (trimUnits window).isEmpty then [] else [trimUnits window]).flatMap
        (solid CodeUnit.isBlank) = solid CodeUnit.isBlank window := by
  by_cases hempty : (trimUnits window).isEmpty = true
  · rw [if_pos hempty, (trimUnits_isEmpty_iff window).mp hempty]
    rfl
  · rw [if_neg hempty, List.flatMap_singleton]
    exact solid_strip CodeUnit.isBlank window

theorem step_eq (hzero : sizes.overlapCharacters = 0) : sizes.step = sizes.maxCharacters := by
  unfold ChunkSizes.step
  omega

theorem slice_eq (offset : Nat) (paragraph : Units) :
    sliceUnits offset (offset + sizes.maxCharacters) paragraph =
      (paragraph.drop offset).take sizes.maxCharacters := by
  unfold sliceUnits
  rw [List.drop_take, Nat.add_sub_cancel_left]

/-- The pieces are the paragraph, every unit once. -/
theorem piecesFrom_solid (hzero : sizes.overlapCharacters = 0) (paragraph : Units) (offset : Nat) :
    (piecesFrom sizes paragraph offset).flatMap (solid CodeUnit.isBlank) =
      solid CodeUnit.isBlank (paragraph.drop offset) := by
  fun_induction piecesFrom sizes paragraph offset with
  | case1 offset hmore piece first hend =>
    have hwhole : (paragraph.drop offset).take sizes.maxCharacters = paragraph.drop offset := by
      refine List.take_of_length_le ?_
      rw [List.length_drop]
      omega
    have hfirst : first.flatMap (solid CodeUnit.isBlank) =
        solid CodeUnit.isBlank (sliceUnits offset (offset + sizes.maxCharacters) paragraph) :=
      trimmed_solid _
    rw [hfirst, slice_eq, hwhole]
  | case2 offset hmore piece first hend ih =>
    have hfirst : first.flatMap (solid CodeUnit.isBlank) =
        solid CodeUnit.isBlank (sliceUnits offset (offset + sizes.maxCharacters) paragraph) :=
      trimmed_solid _
    have hsplit : solid CodeUnit.isBlank (paragraph.drop offset) =
        solid CodeUnit.isBlank ((paragraph.drop offset).take sizes.maxCharacters) ++
          solid CodeUnit.isBlank (paragraph.drop (offset + sizes.maxCharacters)) := by
      rw [← solid_append, ← List.drop_drop, List.take_append_drop]
    rw [List.flatMap_append, hfirst, ih, step_eq hzero, hsplit, ← slice_eq]
  | case3 offset hmore =>
    rw [List.drop_of_length_le (Nat.le_of_not_lt hmore)]
    rfl

theorem flush_solid (hzero : sizes.overlapCharacters = 0) (buffer : Units) :
    (flush sizes buffer).1.flatMap (solid CodeUnit.isBlank) = solid CodeUnit.isBlank buffer ∧
      solid CodeUnit.isBlank (flush sizes buffer).2 = [] := by
  unfold flush
  dsimp only
  by_cases hempty : (trimUnits buffer).isEmpty = true
  · have hnone := (trimUnits_isEmpty_iff buffer).mp hempty
    rw [if_pos hempty]
    exact ⟨hnone.symm, hnone⟩
  · rw [if_neg hempty, if_neg (by omega)]
    have h := trimmed_solid buffer
    rw [if_neg hempty] at h
    exact ⟨h, rfl⟩

/-- **The chunks of a page are its paragraphs**, every unit once. -/
theorem packFrom_solid (hzero : sizes.overlapCharacters = 0) (paragraphs : List Units)
    (buffer : Units) :
    (packFrom sizes buffer paragraphs).flatMap (solid CodeUnit.isBlank) =
      solid CodeUnit.isBlank buffer ++ solid CodeUnit.isBlank paragraphs.flatten := by
  induction paragraphs generalizing buffer with
  | nil =>
    rw [packFrom, List.flatten_nil]
    split_ifs with hempty
    · rw [(trimUnits_isEmpty_iff buffer).mp hempty]
      rfl
    · rw [(flush_solid hzero buffer).1]
      exact (List.append_nil _).symm
  | cons paragraph rest ih =>
    have hpieces := piecesFrom_solid hzero paragraph 0
    obtain ⟨hflushed, hleft⟩ := flush_solid hzero buffer
    rw [List.drop_zero] at hpieces
    rw [packFrom, List.flatten_cons, solid_append]
    by_cases hlong : sizes.maxCharacters < paragraph.length
    · rw [if_pos hlong]
      by_cases hempty : (trimUnits buffer).isEmpty = true
      · rw [if_pos hempty]
        dsimp only
        rw [List.nil_append, List.flatMap_append, hpieces, ih,
          (trimUnits_isEmpty_iff buffer).mp hempty, List.nil_append, List.nil_append]
      · rw [if_neg hempty]
        dsimp only
        rw [List.flatMap_append, List.flatMap_append, hflushed, hpieces, ih, List.append_assoc]
        rfl
    · rw [if_neg hlong]
      dsimp only
      by_cases hfull : sizes.maxCharacters < (behind buffer paragraph).length
      · rw [if_pos hfull, List.flatMap_append, hflushed, ih]
        split_ifs with hagain
        · rfl
        · rw [solid_behind, hleft, List.nil_append]
      · rw [if_neg hfull, ih, solid_behind, List.append_assoc]

/-- The window that begins `count` steps after an offset is a piece, if there is anything in it. -/
theorem mem_piecesFrom (hzero : sizes.overlapCharacters = 0) (paragraph : Units) (count : Nat) :
    ∀ offset, offset + count * sizes.maxCharacters < paragraph.length →
      (trimUnits ((paragraph.drop (offset + count * sizes.maxCharacters)).take
          sizes.maxCharacters)).isEmpty = false →
        trimUnits ((paragraph.drop (offset + count * sizes.maxCharacters)).take
          sizes.maxCharacters) ∈ piecesFrom sizes paragraph offset := by
  induction count with
  | zero =>
    intro offset hlt hne
    rw [Nat.zero_mul, Nat.add_zero] at hlt hne ⊢
    rw [piecesFrom, if_pos hlt, slice_eq]
    dsimp only
    rw [trimmed_eq hne]
    split_ifs
    · exact List.mem_singleton_self _
    · exact List.mem_append_left _ (List.mem_singleton_self _)
  | succ count ih =>
    intro offset hlt hne
    have hplace : offset + (count + 1) * sizes.maxCharacters =
        offset + sizes.maxCharacters + count * sizes.maxCharacters := by
      rw [Nat.succ_mul]
      omega
    rw [hplace] at hlt hne ⊢
    have hrest := ih (offset + sizes.maxCharacters) hlt hne
    rw [piecesFrom, if_pos (by omega)]
    dsimp only
    rw [if_neg (by omega), step_eq hzero]
    exact List.mem_append_right _ hrest

/-- **A cut character is in two pieces**, by halves. -/
theorem exists_cut_piece (hzero : sizes.overlapCharacters = 0) {paragraph : Text} {k : Nat} {c : Char}
    (h : (codeUnits paragraph)[k * sizes.maxCharacters]? = some (.trail c)) :
    ∃ piece ∈ piecesFrom sizes (codeUnits paragraph) 0,
      ∀ text, codeUnits text ≠ solid CodeUnit.isBlank piece := by
  obtain ⟨m, hm, hlead⟩ := lead_of_trail h
  have hpos : 0 < sizes.maxCharacters := Nat.zero_lt_of_lt sizes.overlap_lt
  obtain ⟨count, rfl⟩ : ∃ count, k = count + 1 := by
    cases k with
    | zero =>
      rw [Nat.zero_mul] at hm
      nomatch hm
    | succ count => exact ⟨count, rfl⟩
  rw [Nat.succ_mul] at hm
  have hmlt : m < (codeUnits paragraph).length := (List.getElem?_eq_some_iff.mp hlead).1
  -- the window ends in the first half
  have hwindow : (((codeUnits paragraph).drop (count * sizes.maxCharacters)).take
      sizes.maxCharacters).getLast? = some (.lead c) := by
    rw [List.getLast?_eq_getElem?, List.length_take, List.length_drop, List.getElem?_take,
      List.getElem?_drop]
    rw [if_pos (by omega)]
    have hplace : count * sizes.maxCharacters +
        (min sizes.maxCharacters ((codeUnits paragraph).length - count * sizes.maxCharacters) - 1) =
          m := by omega
    rw [hplace]
    exact hlead
  generalize hw : ((codeUnits paragraph).drop (count * sizes.maxCharacters)).take
    sizes.maxCharacters = window at hwindow
  have hsolid : (solid CodeUnit.isBlank window).getLast? = some (.lead c) := by
    obtain ⟨before, rfl⟩ := List.getLast?_eq_some_iff.mp hwindow
    rw [solid_append]
    exact List.getLast?_concat
  refine ⟨trimUnits window, ?_, fun text htext => ?_⟩
  · have hmem := mem_piecesFrom hzero (codeUnits paragraph) count 0
    rw [Nat.zero_add, hw] at hmem
    refine hmem (by omega) ?_
    rw [Bool.eq_false_iff]
    intro hempty
    rw [(trimUnits_isEmpty_iff window).mp hempty] at hsolid
    nomatch hsolid
  · have hlast := getLast?_codeUnits text c
    rw [htext] at hlast
    unfold trimUnits at hlast
    rw [solid_strip] at hlast
    exact hlast hsolid

theorem mem_packFrom {paragraph : Units} (hlong : sizes.maxCharacters < paragraph.length)
    {piece : Units} (hpiece : piece ∈ piecesFrom sizes paragraph 0) {paragraphs : List Units}
    (h : paragraph ∈ paragraphs) (buffer : Units) : piece ∈ packFrom sizes buffer paragraphs := by
  induction paragraphs generalizing buffer with
  | nil => nomatch h
  | cons other rest ih =>
    rw [packFrom]
    rcases List.mem_cons.mp h with rfl | hrest
    · rw [if_pos hlong]
      exact List.mem_append_left _ (List.mem_append_right _ hpiece)
    · by_cases hother : sizes.maxCharacters < other.length
      · rw [if_pos hother]
        exact List.mem_append_right _ (ih hrest _)
      · rw [if_neg hother]
        dsimp only
        by_cases hfull : sizes.maxCharacters < (behind buffer other).length
        · rw [if_pos hfull]
          exact List.mem_append_right _ (ih hrest _)
        · rw [if_neg hfull]
          exact ih hrest _

end Pack

/-! ## 6. Pages -/

theorem within_feeds : Within (fun c => isWhiteSpace c = true) feeds := by
  intro c hc
  rw [beq_iff_eq.mp hc]
  decide

theorem proper_feeds : Proper feeds := (proper_set _).rep (by decide) _ _

/-- **Nothing visible is lost when a page falls into paragraphs.** -/
theorem visible_paragraphs (text : Text) : visible (paragraphs text).flatten = visible text := by
  have hscan := scans_execAll proper_feeds text
  have htrim : visible ∘ trim = visible := funext KnowledgeBase.visible_trim
  unfold paragraphs KnowledgeBase.splitAt
  rw [KnowledgeBase.visible_filter, KnowledgeBase.visible_flatten, List.map_map, htrim,
    ← KnowledgeBase.visible_flatten, KnowledgeBase.stretches_eq_between,
    KnowledgeBase.visible_of_scans within_feeds hscan]

theorem solid_paragraphs (text : Text) :
    solid CodeUnit.isBlank ((paragraphs text).map codeUnits).flatten =
      codeUnits (visible text) := by
  have hflatten : ((paragraphs text).map codeUnits).flatten = codeUnits (paragraphs text).flatten := by
    induction paragraphs text with
    | nil => rfl
    | cons paragraph rest ih =>
      rw [List.map_cons, List.flatten_cons, List.flatten_cons, codeUnits_append, ih]
  rw [hflatten, solid_visible, visible_paragraphs]

section Page

variable (sizes : ChunkSizes)

/-- **A page is read off its chunks**, if none of its characters is cut. -/
theorem pageContents_reads {text : Text}
    (huncut : sizes.overlapCharacters = 0 →
      ∀ paragraph ∈ paragraphs text, Uncut sizes.maxCharacters paragraph) :
    Reads (visible text) (pageContents sizes text) := by
  unfold pageContents
  by_cases hempty : text.isEmpty = true
  · rw [if_pos hempty, List.isEmpty_iff.mp hempty]
    exact reads_nil
  · have hnone : codeUnits [] <:+ solid CodeUnit.isBlank ([] : Units) := List.nil_suffix
    have hread := packFrom_reads huncut hnone
    rw [if_neg hempty]
    rw [visible_paragraphs, List.nil_append] at hread
    exact hread

theorem length_of_mem_pageContents {text : Text} :
    ∀ piece ∈ pageContents sizes text, piece.length ≤ sizes.maxCharacters := by
  unfold pageContents
  split_ifs
  · exact fun piece hpiece => nomatch hpiece
  · exact length_of_mem_packFrom (Nat.zero_le _)

variable {sizes}

theorem pageContents_solid (hzero : sizes.overlapCharacters = 0) (text : Text) :
    (pageContents sizes text).flatMap (solid CodeUnit.isBlank) = codeUnits (visible text) := by
  unfold pageContents
  by_cases hempty : text.isEmpty = true
  · rw [if_pos hempty, List.isEmpty_iff.mp hempty]
    rfl
  · rw [if_neg hempty, packFrom_solid hzero, solid_paragraphs]
    rfl

/-- A page with a character that is cut has a chunk that is no text. -/
theorem pageContents_uncut (hzero : sizes.overlapCharacters = 0) {text : Text}
    (h : ∀ piece ∈ pageContents sizes text, ∃ part, codeUnits part = solid CodeUnit.isBlank piece) :
    ∀ paragraph ∈ paragraphs text, Uncut sizes.maxCharacters paragraph := by
  intro paragraph hparagraph k c hcut
  obtain ⟨piece, hpiece, hnone⟩ := exists_cut_piece hzero hcut
  have hempty : ¬ text.isEmpty = true := by
    intro hempty
    rw [List.isEmpty_iff.mp hempty] at hparagraph
    have hblank : paragraphs [] = [] := by decide
    rw [hblank] at hparagraph
    nomatch hparagraph
  have hlong : sizes.maxCharacters < (codeUnits paragraph).length := by
    obtain ⟨m, hm, -⟩ := lead_of_trail hcut
    have hlt := (List.getElem?_eq_some_iff.mp hcut).1
    cases k with
    | zero =>
      rw [Nat.zero_mul] at hm
      nomatch hm
    | succ k =>
      rw [Nat.succ_mul] at hlt
      omega
  have hmem := mem_packFrom hlong hpiece (List.mem_map_of_mem (f := codeUnits) hparagraph) []
  obtain ⟨part, hpart⟩ := h piece (by
    unfold pageContents
    rw [if_neg hempty]
    exact hmem)
  exact hnone part hpart

end Page

/-! ## 7. Documents -/

/-- The text outside the markers, by the page it stands on. -/
def standsOn (content : Text) : List (Option Nat × Text) :=
  let markers := execAll pageMarker content
  (none :: markers.map fun marker =>
    some (markerPage ((content.drop marker.1).take (marker.2 - marker.1)))).zip
      (stretches content 0 markers)

/-- Chunks that hold a text, under the number of its page. -/
structure Holds (page : Option Nat × Text) (chunks : List ChunkedKnowledgeText) : Prop where
  numbers : ∀ chunk ∈ chunks, chunk.pageStart = page.1 ∧ chunk.pageEnd = page.1
  text : Reads (visible page.2) (chunks.map (·.content))

/-- **The chunks hold the text outside the markers**: every visible character in order, whole, and
    under the number of its page. -/
def Covers (content : Text) (chunks : List ChunkedKnowledgeText) : Prop :=
  ∃ parts, parts.flatten = chunks ∧ List.Forall₂ Holds (standsOn content) parts

/-- The pages with what stands before the first marker, which is nothing without markers. -/
theorem standsOn_eq (content : Text) :
    ∃ before pages, standsOn content = before ++ pages ∧
      pagesOf content = pages.map (fun page => (page.1, trim page.2)) ∧
      ((before = [] ∧ beforeFirstMarker content = []) ∨
        before = [(none, beforeFirstMarker content)] ∧ ∀ page ∈ pages, page.1 ≠ none) := by
  unfold standsOn pagesOf beforeFirstMarker
  dsimp only
  cases execAll pageMarker content with
  | nil => exact ⟨[], [(none, content)], rfl, rfl, .inl ⟨rfl, rfl⟩⟩
  | cons first rest =>
    refine ⟨[(none, content.take first.1)], ((first :: rest).map fun marker =>
      some (markerPage ((content.drop marker.1).take (marker.2 - marker.1)))).zip
        (stretches content first.2 rest), rfl, ?_, .inr ⟨rfl, ?_⟩⟩
    · rw [if_neg (by simp), List.zip_map_left, List.map_map]
      rfl
    · intro page hpage hnone
      rw [List.zip_map_left] at hpage
      obtain ⟨entry, -, rfl⟩ := List.mem_map.mp hpage
      nomatch hnone

/-- The chunks of some contents, numbered from `n` on. -/
def label (n : Nat) (contents : List (Option Nat × Units)) : List ChunkedKnowledgeText :=
  (contents.zipIdx n).map fun entry =>
    { chunkIndex := entry.2
      content := entry.1.2
      pageStart := entry.1.1
      pageEnd := entry.1.1
      sectionPath := inferSectionPath entry.1.2 }

theorem label_append (n : Nat) (contents more : List (Option Nat × Units)) :
    label n (contents ++ more) = label n contents ++ label (n + contents.length) more := by
  unfold label
  rw [List.zipIdx_append, List.map_append]

theorem contents_label (n : Nat) (contents : List (Option Nat × Units)) :
    (label n contents).map (·.content) = contents.map (·.2) := by
  unfold label
  rw [List.map_map, ← List.zipIdx_map_fst n contents, List.map_map, List.zipIdx_map_fst]
  rfl

theorem mem_label {n : Nat} {contents : List (Option Nat × Units)} {chunk : ChunkedKnowledgeText}
    (h : chunk ∈ label n contents) :
    (chunk.pageStart, chunk.content) ∈ contents ∧ chunk.pageEnd = chunk.pageStart := by
  obtain ⟨entry, hentry, rfl⟩ := List.mem_map.mp h
  exact ⟨List.fst_mem_of_mem_zipIdx hentry, rfl⟩

section Document

variable (sizes : ChunkSizes)

/-- The contents of the chunks of a page, with its number. -/
def numbered (page : Option Nat × Text) : List (Option Nat × Units) :=
  (pageContents sizes (trim page.2)).map fun content => (page.1, content)

theorem contents_numbered (page : Option Nat × Text) :
    (numbered sizes page).map (·.2) = pageContents sizes (trim page.2) := by
  unfold numbered
  rw [List.map_map]
  exact List.map_id _

/-- **The pages are held by their chunks**, from any number on. -/
theorem label_holds {pages : List (Option Nat × Text)}
    (huncut : sizes.overlapCharacters = 0 → ∀ page ∈ pages,
      ∀ paragraph ∈ paragraphs (trim page.2), Uncut sizes.maxCharacters paragraph) (n : Nat) :
    ∃ parts, parts.flatten = label n (pages.flatMap (numbered sizes)) ∧
      List.Forall₂ Holds pages parts := by
  induction pages generalizing n with
  | nil => exact ⟨[], rfl, .nil⟩
  | cons page rest ih =>
    obtain ⟨parts, hflat, hparts⟩ := ih
      (fun hzero other hother => huncut hzero other (List.mem_cons_of_mem _ hother))
      (n + (numbered sizes page).length)
    refine ⟨label n (numbered sizes page) :: parts, ?_, .cons ⟨?_, ?_⟩ hparts⟩
    · rw [List.flatten_cons, hflat, List.flatMap_cons, label_append]
    · intro chunk hchunk
      obtain ⟨hmem, hend⟩ := mem_label hchunk
      obtain ⟨content, -, heq⟩ := List.mem_map.mp hmem
      have hstart : chunk.pageStart = page.1 := (congrArg Prod.fst heq).symm
      exact ⟨hstart, hend.trans hstart⟩
    · have hread := pageContents_reads sizes fun hzero =>
        huncut hzero page List.mem_cons_self
      rw [KnowledgeBase.visible_trim] at hread
      rw [contents_label, contents_numbered]
      exact hread

/-- What the parts of a document are read off, all of it is. -/
theorem reads_of_holds {pages : List (Option Nat × Text)} {parts : List (List ChunkedKnowledgeText)}
    (h : List.Forall₂ Holds pages parts) :
    Reads (visible (pages.map (·.2)).flatten) (parts.flatten.map (·.content)) := by
  induction h with
  | nil => exact reads_nil
  | cons hfirst _ ih =>
    rw [List.map_cons, List.flatten_cons, KnowledgeBase.visible_append, List.flatten_cons,
      List.map_append]
    exact hfirst.text.append ih

/-- Where a text is as long as the pieces it is read off, every piece is a text. -/
theorem Reads.exact {text : Text} {pieces : List Units} (h : Reads text pieces)
    (hlength : (pieces.flatMap (solid CodeUnit.isBlank)).length ≤ (codeUnits text).length) :
    ∀ piece ∈ pieces, ∃ part, codeUnits part = solid CodeUnit.isBlank piece := by
  obtain ⟨parts, rfl, hparts⟩ := h
  have hle {parts : List Text} {pieces : List Units} (h : List.Forall₂ (fun part piece =>
      codeUnits part <:+: solid CodeUnit.isBlank piece) parts pieces) :
      (codeUnits parts.flatten).length ≤ (pieces.flatMap (solid CodeUnit.isBlank)).length := by
    induction h with
    | nil => exact Nat.le_refl _
    | cons hfirst _ ih =>
      rw [List.flatten_cons, codeUnits_append, List.flatMap_cons, List.length_append,
        List.length_append]
      exact Nat.add_le_add hfirst.length_le ih
  induction hparts with
  | nil => exact fun piece hpiece => nomatch hpiece
  | cons hfirst hrest ih =>
    rw [List.flatten_cons, codeUnits_append, List.flatMap_cons, List.length_append,
      List.length_append] at hlength
    have hfirstLe := hfirst.length_le
    have hrestLe := hle hrest
    intro piece hpiece
    rcases List.mem_cons.mp hpiece with rfl | hmore
    · exact ⟨_, hfirst.eq_of_length (by omega)⟩
    · exact ih (by omega) piece hmore

theorem reads_nil_right {text : Text} (h : Reads text []) : text = [] := by
  obtain ⟨parts, rfl, hparts⟩ := h
  cases hparts
  rfl

variable {sizes}

theorem numbered_solid (hzero : sizes.overlapCharacters = 0) (pages : List (Option Nat × Text)) :
    ((pages.flatMap (numbered sizes)).map (·.2)).flatMap (solid CodeUnit.isBlank) =
      codeUnits (visible (pages.map (·.2)).flatten) := by
  induction pages with
  | nil => rfl
  | cons page rest ih =>
    rw [List.flatMap_cons, List.map_append, List.flatMap_append, ih, contents_numbered,
      pageContents_solid hzero, KnowledgeBase.visible_trim, List.map_cons, List.flatten_cons,
      KnowledgeBase.visible_append, codeUnits_append]

/-- The chunks of a document, page by page. -/
theorem chunks_eq {content : Text} {pages : List (Option Nat × Text)}
    (hpages : pagesOf content = pages.map fun page => (page.1, trim page.2)) :
    sizes.chunks content = label 0 (pages.flatMap (numbered sizes)) := by
  unfold ChunkSizes.chunks
  rw [hpages, List.flatMap_map]
  rfl

theorem mem_chunks {content : Text} {pages : List (Option Nat × Text)}
    (hpages : pagesOf content = pages.map fun page => (page.1, trim page.2))
    {chunk : ChunkedKnowledgeText} (h : chunk ∈ sizes.chunks content) :
    ∃ page ∈ pages, chunk.pageStart = page.1 ∧
      chunk.content ∈ pageContents sizes (trim page.2) := by
  rw [chunks_eq hpages] at h
  obtain ⟨page, hpage, hentry⟩ := List.mem_flatMap.mp (mem_label h).1
  obtain ⟨held, hheld, heq⟩ := List.mem_map.mp hentry
  obtain ⟨hstart, rfl⟩ := Prod.mk.inj heq
  exact ⟨page, hpage, hstart.symm, hheld⟩

/-- **What stands before the first marker is in no chunk.** -/
theorem foreword_of_covers {content : Text} (h : Covers content (sizes.chunks content)) :
    visible (beforeFirstMarker content) = [] := by
  obtain ⟨parts, hflat, hparts⟩ := h
  obtain ⟨before, pages, hstands, hpages, ⟨-, hnone⟩ | ⟨hbefore, hnumbers⟩⟩ := standsOn_eq content
  · rw [hnone]
    rfl
  · rw [hstands, hbefore] at hparts
    cases hparts with
    | cons hfirst hrest =>
      rename_i first rest
      -- every chunk has the number of a page
      have hnil : first = [] := by
        refine List.eq_nil_iff_forall_not_mem.mpr fun chunk hchunk => ?_
        have hin : chunk ∈ sizes.chunks content := by
          rw [← hflat]
          exact List.mem_append_left _ hchunk
        obtain ⟨page, hpage, hstart, -⟩ := mem_chunks hpages hin
        exact hnumbers page hpage (hstart.symm.trans (hfirst.numbers chunk hchunk).1)
      have htext := hfirst.text
      rw [hnil] at htext
      exact reads_nil_right htext

/-- Without an overlap, no chunk ends within a character. -/
theorem uncut_of_covers (hzero : sizes.overlapCharacters = 0) {content : Text}
    (h : Covers content (sizes.chunks content)) :
    ∀ page ∈ pagesOf content, ∀ paragraph ∈ paragraphs page.2,
      Uncut sizes.maxCharacters paragraph := by
  have hforeword := foreword_of_covers h
  obtain ⟨parts, hflat, hparts⟩ := h
  obtain ⟨before, pages, hstands, hpages, hbefore⟩ := standsOn_eq content
  have hread := reads_of_holds hparts
  have hvisible : visible ((standsOn content).map (·.2)).flatten =
      visible (pages.map (·.2)).flatten := by
    rw [hstands, List.map_append, List.flatten_append, KnowledgeBase.visible_append]
    rcases hbefore with ⟨hbefore, -⟩ | ⟨hbefore, -⟩
    · rw [hbefore]
      rfl
    · have hone : visible (([(none, beforeFirstMarker content)] :
          List (Option Nat × Text)).map (·.2)).flatten = [] := by
        show visible (beforeFirstMarker content ++ []) = []
        rw [List.append_nil, hforeword]
      rw [hbefore, hone, List.nil_append]
  rw [hflat, hvisible, chunks_eq hpages, contents_label] at hread
  have hexact := hread.exact (Nat.le_of_eq (congrArg List.length (numbered_solid hzero pages)))
  rw [hpages, List.forall_mem_map]
  intro page hpage
  refine pageContents_uncut hzero fun piece hpiece => hexact piece ?_
  rw [← contents_numbered] at hpiece
  obtain ⟨entry, hentry, rfl⟩ := List.mem_map.mp hpiece
  exact List.mem_map_of_mem (List.mem_flatMap.mpr ⟨page, hpage, hentry⟩)

theorem covers_of_uncut {content : Text} (hforeword : visible (beforeFirstMarker content) = [])
    (hcut : sizes.overlapCharacters = 0 → ∀ page ∈ pagesOf content,
      ∀ paragraph ∈ paragraphs page.2, Uncut sizes.maxCharacters paragraph) :
    Covers content (sizes.chunks content) := by
  obtain ⟨before, pages, hstands, hpages, hbefore⟩ := standsOn_eq content
  rw [hpages, List.forall_mem_map] at hcut
  obtain ⟨parts, hflat, hparts⟩ := label_holds sizes hcut 0
  rw [← chunks_eq hpages] at hflat
  rcases hbefore with ⟨hbefore, -⟩ | ⟨hbefore, -⟩
  · refine ⟨parts, hflat, ?_⟩
    rw [hstands, hbefore]
    exact hparts
  · refine ⟨[] :: parts, hflat, ?_⟩
    rw [hstands, hbefore]
    refine .cons ⟨(fun chunk hchunk => nomatch hchunk), ?_⟩ hparts
    show Reads (visible (beforeFirstMarker content)) []
    rw [hforeword]
    exact reads_nil

theorem chunkReviewedMarkdown_eq (sizes : ChunkSizes) (content : Text) :
    chunkReviewedMarkdown content sizes.maxCharacters sizes.overlapCharacters =
      .ok (sizes.chunks content) := by
  have haccepted : chunkSizes sizes.maxCharacters sizes.overlapCharacters = .ok sizes := by
    have hlt := sizes.overlap_lt
    unfold chunkSizes
    rw [if_neg (by omega), dif_pos (by omega)]
    rfl
  unfold chunkReviewedMarkdown
  rw [haccepted]
  rfl

/-- **Chunks hold a reviewed text exactly if** nothing visible stands before its first marker and,
    where chunks do not overlap, none ends within a character. Always they are numbered from 0 on
    and none is too long. -/
theorem chunks_cover_iff (sizes : ChunkSizes) (content : Text) :
    ∃ chunks, chunkReviewedMarkdown content sizes.maxCharacters sizes.overlapCharacters =
        .ok chunks ∧
      chunks.map (·.chunkIndex) = List.range chunks.length ∧
      (∀ chunk ∈ chunks, chunk.content.length ≤ sizes.maxCharacters) ∧
      (Covers content chunks ↔
        visible (beforeFirstMarker content) = [] ∧
          (sizes.overlapCharacters = 0 → ∀ page ∈ pagesOf content,
            ∀ paragraph ∈ paragraphs page.2, Uncut sizes.maxCharacters paragraph)) := by
  obtain ⟨before, pages, -, hpages, -⟩ := standsOn_eq content
  refine ⟨sizes.chunks content, chunkReviewedMarkdown_eq sizes content, ?_, ?_, ?_⟩
  · rw [chunks_eq hpages]
    unfold label
    rw [List.map_map, List.length_map, List.length_zipIdx, List.range_eq_range',
      ← List.zipIdx_map_snd 0]
    rfl
  · intro chunk hchunk
    obtain ⟨page, -, -, hheld⟩ := mem_chunks hpages hchunk
    exact length_of_mem_pageContents sizes _ hheld
  · constructor
    · exact fun h => ⟨foreword_of_covers h, fun hzero => uncut_of_covers hzero h⟩
    · rintro ⟨hforeword, hcut⟩
      exact covers_of_uncut hforeword hcut

end Document

/-- A word before the first page is in no chunk. -/
theorem foreword_not_covered :
    ¬ ∀ (sizes : ChunkSizes) (content : Text), ∃ chunks,
      chunkReviewedMarkdown content sizes.maxCharacters sizes.overlapCharacters = .ok chunks ∧
        Covers content chunks := by
  intro h
  obtain ⟨chunks, heq, hcovers⟩ :=
    h ⟨2400, 200, by decide⟩ "a\n\n<!-- openvac-page:1 -->\nb".toList
  rw [chunkReviewedMarkdown_eq] at heq
  obtain rfl := Except.ok.inj heq
  have hforeword := foreword_of_covers hcovers
  exact absurd hforeword (by decide)

end OpenVac.KnowledgeIngestion
