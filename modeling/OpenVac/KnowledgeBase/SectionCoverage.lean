/-
  File:      OpenVac/KnowledgeBase/SectionCoverage.lean
  Subject:   What of a document's text its review sections hold.

  * `visible` -- the characters of a text that are not white space.
  * `visible_paragraphs` -- a text loses nothing visible when it falls into paragraphs.
  * `markerPieces` -- the pieces of a text between its page markers, by a scan of its characters;
    the matches of the pattern cut it there (`scans_pageMarker`), and line ends and outer blanks
    make no difference (`markerPieces_normalizeText`).
  * `sections_cover_iff` -- the sections hold all of the text exactly if nothing stands before the
    first page marker.
-/
import OpenVac.KnowledgeBase.ReviewSections
import OpenVac.Lib.RegexScan

namespace OpenVac.KnowledgeBase

open JsString JsRegex

/-! ## 1. Visible text -/

/-- The characters that are not white space. -/
def visible (text : Text) : Text := text.filter fun c => !isWhiteSpace c

theorem visible_append (s t : Text) : visible (s ++ t) = visible s ++ visible t :=
  List.filter_append s t

theorem visible_cons (c : Char) (t : Text) : visible (c :: t) = visible [c] ++ visible t :=
  visible_append [c] t

theorem visible_blank {blanks : Text} (h : ∀ c ∈ blanks, isWhiteSpace c = true) :
    visible blanks = [] := by
  unfold visible
  rw [List.filter_eq_nil_iff]
  intro c hc
  rw [h c hc]
  exact Bool.false_ne_true

theorem visible_flatten (parts : List Text) :
    visible parts.flatten = (parts.map visible).flatten := List.filter_flatten

theorem visible_trimStart (t : Text) : visible (trimStart t) = visible t := by
  have hsplit : t.takeWhile isWhiteSpace ++ trimStart t = t := List.takeWhile_append_dropWhile
  have hblank : visible (t.takeWhile isWhiteSpace) = [] :=
    visible_blank fun c hc => List.mem_takeWhile_imp hc
  calc visible (trimStart t)
      = visible (t.takeWhile isWhiteSpace) ++ visible (trimStart t) := by
        rw [hblank, List.nil_append]
    _ = visible t := by rw [← visible_append, hsplit]

/-- The white space that `trimEnd` takes. -/
theorem trimEnd_append (t : Text) :
    ∃ blanks, t = trimEnd t ++ blanks ∧ ∀ c ∈ blanks, isWhiteSpace c = true := by
  refine ⟨t.rtakeWhile isWhiteSpace, ?_, fun c hc => List.mem_rtakeWhile_imp hc⟩
  exact List.rdropWhile_append_rtakeWhile.symm

theorem visible_trimEnd (t : Text) : visible (trimEnd t) = visible t := by
  obtain ⟨blanks, hsplit, hblank⟩ := trimEnd_append t
  have happend := congrArg visible hsplit
  rw [visible_append, visible_blank hblank, List.append_nil] at happend
  exact happend.symm

theorem visible_trim (t : Text) : visible (trim t) = visible t := by
  unfold trim
  rw [visible_trimEnd, visible_trimStart]

theorem visible_normalizeNewlines (t : Text) : visible (normalizeNewlines t) = visible t := by
  fun_induction normalizeNewlines t with
  | case1 rest ih =>
    rw [visible_cons, ih]
    rfl
  | case2 rest _ ih =>
    rw [visible_cons, ih]
    rfl
  | case3 c rest _ _ ih => rw [visible_cons, ih, ← visible_cons]
  | case4 => rfl

theorem visible_normalizeText (t : Text) : visible (normalizeText t) = visible t := by
  unfold normalizeText
  rw [visible_trim, visible_normalizeNewlines]

/-! ## 2. Paragraphs -/

theorem stretches_eq_between (text : Text) (from_ : Nat) (found : List (Nat × Nat)) :
    stretches text from_ found = between text from_ found := by
  induction found generalizing from_ with
  | nil => rfl
  | cons first rest ih => exact congrArg _ (ih first.2)

/-- A pattern that takes only white space leaves everything visible. -/
theorem visible_of_scans {r : Regex} (hr : Within (fun c => isWhiteSpace c = true) r)
    {prev : Option Char} {text : Text} {pieces : List Text} (h : Scans r prev text pieces) :
    visible pieces.flatten = visible text := by
  induction h with
  | done => rfl
  | step prev c rest piece more _ _ ih =>
    rw [List.flatten_cons, List.cons_append, visible_cons, ← List.flatten_cons, ih,
      ← visible_cons]
  | hit prev text s' pieces hmatch _ ih =>
    obtain ⟨taken, htext, hblank⟩ := matches_suffix hr hmatch
    have htext : text = taken ++ s'.rest := htext
    rw [List.flatten_cons, List.nil_append, ih, htext, visible_append, visible_blank hblank,
      List.nil_append]

theorem within_newline : Within (fun c => isWhiteSpace c = true) (exact "\n") := by
  refine ⟨fun d hd => ?_, trivial⟩
  obtain rfl : d = '\n' := Char.toNat_inj.mp (beq_iff_eq.mp hd)
  decide

theorem within_blankLine : Within (fun c => isWhiteSpace c = true) blankLine :=
  ⟨within_newline, fun _ hd => hd, within_newline, trivial⟩

theorem proper_exact {word : String} {c : Char} {rest : List Char} (h : word.toList = c :: rest) :
    Proper (exact word) := by
  unfold exact
  rw [h]
  exact (proper_set _).cat _

theorem proper_blankLine : Proper blankLine := (@proper_exact "\n" '\n' [] rfl).cat _

theorem visible_filter (parts : List Text) :
    visible (parts.filter fun s => !s.isEmpty).flatten = visible parts.flatten := by
  rw [List.flatten_filter_not_isEmpty]

/-- **Nothing visible is lost when a text falls into paragraphs.** -/
theorem visible_paragraphs (value : Text) : visible (paragraphs value).flatten = visible value := by
  unfold paragraphs
  dsimp only
  by_cases hempty : (normalizeText value).isEmpty = true
  · rw [if_pos hempty, ← visible_normalizeText value, List.isEmpty_iff.mp hempty]
    rfl
  · rw [if_neg hempty, visible_filter, visible_flatten, List.map_map]
    have hmap : visible ∘ normalizeText = visible := funext visible_normalizeText
    rw [hmap, ← visible_flatten]
    unfold splitAt
    rw [stretches_eq_between,
      visible_of_scans within_blankLine (scans_execAll proper_blankLine (normalizeText value)),
      visible_normalizeText]

/-! ## 3. A page marker, character by character -/

/-- The text after a word it begins with. -/
def dropWord (word text : Text) : Option Text :=
  if word <+: text then some (text.drop word.length) else none

def pageDigit (c : Char) : Bool := within '0' '9' c.toNat

/-- The text after its first digits, of which there is one at least. -/
def dropDigits (text : Text) : Option Text :=
  if (text.head?.any pageDigit) = true then some (text.dropWhile pageDigit) else none

/-- The text after the page marker it begins with; the blanks behind a marker stay. -/
def markerRest (text : Text) : Option Text :=
  (dropWord "<!--".toList text).bind fun opened =>
    (dropWord "openvac-page:".toList (trimStart opened)).bind fun named =>
      (dropDigits named).bind fun numbered => dropWord "-->".toList (trimStart numbered)

theorem dropWord_append (word text : Text) : dropWord word (word ++ text) = some text := by
  unfold dropWord
  rw [if_pos (List.prefix_append word text), List.drop_left]

theorem dropWord_eq_some {word text rest : Text} (h : dropWord word text = some rest) :
    text = word ++ rest := by
  unfold dropWord at h
  by_cases hword : word <+: text
  · rw [if_pos hword] at h
    cases h
    obtain ⟨rest, rfl⟩ := hword
    rw [List.drop_left]
  · rw [if_neg hword] at h
    cases h

theorem dropDigits_append {digits text : Text} (hne : digits ≠ [])
    (hdigits : ∀ c ∈ digits, pageDigit c = true) (htext : ∀ c ∈ text.head?, pageDigit c = false) :
    dropDigits (digits ++ text) = some text := by
  unfold dropDigits
  have hhead : ((digits ++ text).head?.any pageDigit) = true := by
    cases digits with
    | nil => exact absurd rfl hne
    | cons c digits => exact hdigits c List.mem_cons_self
  have hrest : text.dropWhile pageDigit = text := by
    cases text with
    | nil => rfl
    | cons c text => exact List.dropWhile_cons_of_neg (by simpa using htext c rfl)
  rw [if_pos hhead, List.dropWhile_append_of_pos hdigits, hrest]

theorem dropDigits_eq_some {text rest : Text} (h : dropDigits text = some rest) :
    ∃ digits, text = digits ++ rest ∧ digits ≠ [] ∧ ∀ c ∈ digits, pageDigit c = true := by
  unfold dropDigits at h
  by_cases hhead : (text.head?.any pageDigit) = true
  · rw [if_pos hhead] at h
    cases h
    refine ⟨text.takeWhile pageDigit, List.takeWhile_append_dropWhile.symm, ?_,
      fun c hc => List.mem_takeWhile_imp hc⟩
    cases text with
    | nil => exact absurd hhead Bool.false_ne_true
    | cons c text =>
      have hdigit : pageDigit c = true := hhead
      rw [List.takeWhile_cons_of_pos hdigit]
      exact List.cons_ne_nil _ _
  · rw [if_neg hhead] at h
    cases h

theorem trimStart_append {blanks text : Text} (hblank : ∀ c ∈ blanks, isWhiteSpace c = true)
    (htext : ∀ c ∈ text.head?, isWhiteSpace c = false) : trimStart (blanks ++ text) = text := by
  unfold trimStart
  rw [List.dropWhile_append_of_pos hblank]
  exact trimStart_eq_self_of_head htext

/-- The blanks `trimStart` takes. -/
theorem trimStart_eq_append (text : Text) :
    ∃ blanks, text = blanks ++ trimStart text ∧ ∀ c ∈ blanks, isWhiteSpace c = true :=
  ⟨text.takeWhile isWhiteSpace, List.takeWhile_append_dropWhile.symm,
    fun _ hc => List.mem_takeWhile_imp hc⟩

/-- A page marker in its parts. -/
theorem markerRest_marker {opening digits closing rest : Text}
    (hopening : ∀ c ∈ opening, isWhiteSpace c = true)
    (hdigits : ∀ c ∈ digits, pageDigit c = true) (hne : digits ≠ [])
    (hclosing : ∀ c ∈ closing, isWhiteSpace c = true) :
    markerRest ("<!--".toList ++ (opening ++ ("openvac-page:".toList ++
      (digits ++ (closing ++ ("-->".toList ++ rest)))))) = some rest := by
  unfold markerRest
  have hnumber : ∀ c ∈ (closing ++ ("-->".toList ++ rest)).head?, pageDigit c = false := by
    intro c hc
    cases closing with
    | nil =>
      obtain rfl : '-' = c := Option.some.inj hc
      decide
    | cons d closing =>
      obtain rfl : d = c := Option.some.inj hc
      have hspace := hclosing d List.mem_cons_self
      revert hspace
      unfold isWhiteSpace isWhiteSpaceCode pageDigit within
      simp only [Bool.or_eq_true, Bool.and_eq_true, decide_eq_true_eq, beq_iff_eq,
        Bool.and_eq_false_iff, decide_eq_false_iff_not]
      have hzero : '0'.toNat = 48 := rfl
      have hnine : '9'.toNat = 57 := rfl
      omega
  rw [dropWord_append, Option.bind_some, trimStart_append hopening (by
    intro c hc
    cases hc
    decide), dropWord_append, Option.bind_some, dropDigits_append hne hdigits hnumber,
    Option.bind_some, trimStart_append hclosing (by
    intro c hc
    cases hc
    decide), dropWord_append]

/-- **Where the pattern matches, the scan stops, up to the blanks behind.** -/
theorem markerRest_of_matches {s s' : Cursor} (h : Matches pageMarker s s') :
    ∃ blanks, markerRest s.rest = some (blanks ++ s'.rest) ∧
      ∀ c ∈ blanks, isWhiteSpace c = true := by
  obtain ⟨s₁, hopen, s₂, hspace, s₃, hname, s₄, hdigits, s₅, hgap, s₆, hclose, s₇, hbehind,
    hlast⟩ := h
  obtain rfl : s' = s₇ := hlast
  obtain ⟨opening, hopening, hspaces⟩ := matches_star hspace
  obtain ⟨digits, hnumber, hall, hne⟩ := matches_plus hdigits
  obtain ⟨closing, hclosing, hgaps⟩ := matches_star hgap
  obtain ⟨blanks, hblanks, hblank⟩ := matches_star hbehind
  refine ⟨blanks, ?_, hblank⟩
  rw [matches_exact hopen, hopening, matches_exact hname, hnumber, hclosing, matches_exact hclose,
    hblanks]
  exact markerRest_marker hspaces hall hne hgaps

/-- The parts of the marker the scan finds. -/
theorem markerRest_eq_some {text rest : Text} (h : markerRest text = some rest) :
    ∃ opening digits closing, text = "<!--".toList ++ (opening ++ ("openvac-page:".toList ++
        (digits ++ (closing ++ ("-->".toList ++ rest))))) ∧
      (∀ c ∈ opening, isWhiteSpace c = true) ∧ (∀ c ∈ digits, pageDigit c = true) ∧
      digits ≠ [] ∧ ∀ c ∈ closing, isWhiteSpace c = true := by
  unfold markerRest at h
  obtain ⟨opened, hopened, h⟩ := Option.bind_eq_some_iff.mp h
  obtain ⟨named, hnamed, h⟩ := Option.bind_eq_some_iff.mp h
  obtain ⟨numbered, hnumbered, hclosed⟩ := Option.bind_eq_some_iff.mp h
  obtain ⟨opening, hopening, hspaces⟩ := trimStart_eq_append opened
  obtain ⟨digits, hdigits, hne, hall⟩ := dropDigits_eq_some hnumbered
  obtain ⟨closing, hclosing, hgaps⟩ := trimStart_eq_append numbered
  refine ⟨opening, digits, closing, ?_, hspaces, hall, hne, hgaps⟩
  rw [dropWord_eq_some hopened, hopening, dropWord_eq_some hnamed, hdigits, hclosing,
    dropWord_eq_some hclosed]

/-- Where the scan finds a marker, the pattern matches. -/
theorem matches_of_markerRest {text rest : Text} (h : markerRest text = some rest)
    (prev : Option Char) : ∃ s', Matches pageMarker ⟨prev, text⟩ s' := by
  obtain ⟨opening, digits, closing, rfl, hspaces, hall, hne, hgaps⟩ := markerRest_eq_some h
  exact ⟨_, _, exact_matches "<!--" prev _, _, star_matches hspaces _ _, _,
    exact_matches "openvac-page:" _ _, _, plus_matches hall hne _ _, _, star_matches hgaps _ _, _,
    exact_matches "-->" _ _, _,
    @star_matches _ [] (fun c hc => absurd hc List.not_mem_nil) _ _, rfl⟩

theorem proper_pageMarker : Proper pageMarker :=
  (@proper_exact "<!--" '<' "!--".toList rfl).cat _

/-! ## 4. The pieces between page markers -/

theorem markerRest_length {text rest : Text} (h : markerRest text = some rest) :
    rest.length < text.length := by
  obtain ⟨opening, digits, closing, rfl, -⟩ := markerRest_eq_some h
  simp only [List.length_append]
  have hopen : "<!--".toList.length = 4 := rfl
  omega

/-- A marker begins with its `<`. -/
theorem markerRest_cons_of_ne {c : Char} (hc : c ≠ '<') (text : Text) :
    markerRest (c :: text) = none := by
  cases h : markerRest (c :: text) with
  | none => rfl
  | some rest =>
    obtain ⟨opening, digits, closing, htext, -⟩ := markerRest_eq_some h
    exact absurd (List.cons.inj htext).1 hc

/-- A character in front of the first piece. -/
def ahead (c : Char) : List Text → List Text
  | [] => [[c]]
  | piece :: more => (c :: piece) :: more

/-- The pieces of a text between its page markers. -/
def markerPieces (text : Text) : List Text :=
  match _hrest : markerRest text with
  | some rest => [] :: markerPieces rest
  | none =>
      match text with
      | [] => [[]]
      | c :: more => ahead c (markerPieces more)
termination_by text.length
decreasing_by
  · exact markerRest_length _hrest
  · exact Nat.lt_succ_self _

theorem markerPieces_marker {text rest : Text} (h : markerRest text = some rest) :
    markerPieces text = [] :: markerPieces rest := by
  rw [markerPieces]
  split
  · next other hother =>
    rw [h] at hother
    cases hother
    rfl
  · next hnone =>
    rw [h] at hnone
    cases hnone

theorem markerPieces_nil : markerPieces [] = [[]] := by
  rw [markerPieces]
  rfl

theorem markerPieces_cons {c : Char} {more : Text} (h : markerRest (c :: more) = none) :
    markerPieces (c :: more) = ahead c (markerPieces more) := by
  rw [markerPieces]
  split
  · next rest hrest =>
    rw [h] at hrest
    cases hrest
  · rfl

theorem ahead_ne_nil (c : Char) (pieces : List Text) : ahead c pieces ≠ [] := by
  cases pieces with
  | nil => exact List.cons_ne_nil _ _
  | cons piece more => exact List.cons_ne_nil _ _

theorem markerPieces_ne_nil (text : Text) : markerPieces text ≠ [] := by
  cases h : markerRest text with
  | some rest =>
    rw [markerPieces_marker h]
    exact List.cons_ne_nil _ _
  | none =>
    cases text with
    | nil =>
      rw [markerPieces_nil]
      exact List.cons_ne_nil _ _
    | cons c more =>
      rw [markerPieces_cons h]
      exact ahead_ne_nil c _

theorem ahead_congr {c : Char} {pieces others : List Text}
    (h : pieces.map visible = others.map visible) :
    (ahead c pieces).map visible = (ahead c others).map visible := by
  cases pieces with
  | nil =>
    obtain rfl := List.map_eq_nil_iff.mp h.symm
    rfl
  | cons piece more =>
    cases others with
    | nil => exact absurd h (List.cons_ne_nil _ _)
    | cons other rest =>
      obtain ⟨hpiece, hmore⟩ := List.cons.inj h
      show visible (c :: piece) :: more.map visible = visible (c :: other) :: rest.map visible
      rw [visible_cons, hpiece, hmore, ← visible_cons]

theorem ahead_blank {c : Char} (hc : isWhiteSpace c = true) {pieces : List Text}
    (hne : pieces ≠ []) : (ahead c pieces).map visible = pieces.map visible := by
  cases pieces with
  | nil => exact absurd rfl hne
  | cons piece more =>
    have hblank : visible [c] = [] :=
      visible_blank fun d hd => (List.mem_singleton.mp hd) ▸ hc
    show visible (c :: piece) :: more.map visible = visible piece :: more.map visible
    rw [visible_cons, hblank, List.nil_append]

theorem ne_of_blank {c d : Char} (hc : isWhiteSpace c = true) (hd : isWhiteSpace d = false) :
    c ≠ d := by
  rintro rfl
  rw [hc] at hd
  cases hd

theorem markerPieces_blank {c : Char} (hc : isWhiteSpace c = true) (more : Text) :
    (markerPieces (c :: more)).map visible = (markerPieces more).map visible := by
  rw [markerPieces_cons (markerRest_cons_of_ne (ne_of_blank hc (by decide)) more),
    ahead_blank hc (markerPieces_ne_nil more)]

/-- Blanks in front make no difference. -/
theorem markerPieces_blanks {blanks : Text} (h : ∀ c ∈ blanks, isWhiteSpace c = true)
    (text : Text) :
    (markerPieces (blanks ++ text)).map visible = (markerPieces text).map visible := by
  induction blanks with
  | nil => rfl
  | cons c blanks ih =>
    rw [List.cons_append, markerPieces_blank (h c List.mem_cons_self),
      ih fun d hd => h d (List.mem_cons_of_mem c hd)]

/-- **The matches of the pattern cut a text where the scan does.** -/
theorem scans_pageMarker {prev : Option Char} {text : Text} {pieces : List Text}
    (h : Scans pageMarker prev text pieces) :
    pieces.map visible = (markerPieces text).map visible := by
  induction h with
  | done => rw [markerPieces_nil]
  | step prev c rest piece more hno _ ih =>
    have hnone : markerRest (c :: rest) = none := by
      cases hrest : markerRest (c :: rest) with
      | none => rfl
      | some after =>
        obtain ⟨s', hmatch⟩ := matches_of_markerRest hrest prev
        exact absurd hmatch (hno s')
    rw [markerPieces_cons hnone]
    exact ahead_congr ih
  | hit prev text s' pieces hmatch _ ih =>
    obtain ⟨blanks, hrest, hblank⟩ := markerRest_of_matches hmatch
    rw [markerPieces_marker hrest, List.map_cons, List.map_cons, ih,
      markerPieces_blanks hblank]

/-! ## 5. Line ends and outer blanks -/

theorem normalizeNewlines_cons {c : Char} (hc : c ≠ '\r') (text : Text) :
    normalizeNewlines (c :: text) = c :: normalizeNewlines text := by
  rw [normalizeNewlines]
  · rintro rest rfl -
    exact hc rfl
  · exact hc

theorem normalizeNewlines_append {word : Text} (hword : '\r' ∉ word) (text : Text) :
    normalizeNewlines (word ++ text) = word ++ normalizeNewlines text := by
  induction word with
  | nil => rfl
  | cons c word ih =>
    have hc : c ≠ '\r' := fun h => hword (h ▸ List.mem_cons_self)
    rw [List.cons_append, normalizeNewlines_cons hc,
      ih fun h => hword (List.mem_cons_of_mem c h), List.cons_append]

/-- A carriage return, with or without its line feed, becomes a line feed. -/
theorem normalizeNewlines_return (text : Text) :
    ∃ rest, normalizeNewlines ('\r' :: text) = '\n' :: normalizeNewlines rest ∧
      (text = rest ∨ text = '\n' :: rest) := by
  cases text with
  | nil => exact ⟨[], rfl, .inl rfl⟩
  | cons d rest =>
    by_cases hd : d = '\n'
    · subst hd
      exact ⟨rest, rfl, .inr rfl⟩
    · refine ⟨d :: rest, ?_, .inl rfl⟩
      rw [normalizeNewlines]
      rintro other h
      exact hd (List.cons.inj h).1

theorem prefix_of_normalizeNewlines {word text : Text} (hreturn : '\r' ∉ word)
    (hfeed : '\n' ∉ word) (h : word <+: normalizeNewlines text) : word <+: text := by
  induction word generalizing text with
  | nil => exact List.nil_prefix
  | cons w word ih =>
    cases text with
    | nil => exact h
    | cons c text =>
      by_cases hc : c = '\r'
      · subst hc
        obtain ⟨rest, heq, -⟩ := normalizeNewlines_return text
        rw [heq] at h
        have hw : w = '\n' := (List.cons_prefix_cons.mp h).1
        exact absurd (hw ▸ List.mem_cons_self) hfeed
      · rw [normalizeNewlines_cons hc] at h
        obtain ⟨rfl, hmore⟩ := List.cons_prefix_cons.mp h
        exact List.cons_prefix_cons.mpr ⟨rfl,
          ih (fun hr => hreturn (List.mem_cons_of_mem _ hr))
            (fun hf => hfeed (List.mem_cons_of_mem _ hf)) hmore⟩

theorem dropWord_normalizeNewlines {word : Text} (hreturn : '\r' ∉ word) (hfeed : '\n' ∉ word)
    (text : Text) :
    dropWord word (normalizeNewlines text) = (dropWord word text).map normalizeNewlines := by
  by_cases hword : word <+: text
  · obtain ⟨rest, rfl⟩ := hword
    rw [normalizeNewlines_append hreturn, dropWord_append, dropWord_append]
    rfl
  · have hnormal : ¬ word <+: normalizeNewlines text :=
      fun h => hword (prefix_of_normalizeNewlines hreturn hfeed h)
    unfold dropWord
    rw [if_neg hword, if_neg hnormal]
    rfl

/-- A class that does not tell a carriage return from a line feed. -/
theorem dropWhile_normalizeNewlines {p : Char → Bool} (hp : p '\r' = p '\n') (text : Text) :
    (normalizeNewlines text).dropWhile p = normalizeNewlines (text.dropWhile p) := by
  fun_induction normalizeNewlines text with
  | case1 rest ih =>
    cases hfeed : p '\n' with
    | true =>
      rw [List.dropWhile_cons_of_pos hfeed, List.dropWhile_cons_of_pos (hp.trans hfeed),
        List.dropWhile_cons_of_pos hfeed, ih]
    | false =>
      have hno : ¬ p '\n' = true := by rw [hfeed]; exact Bool.false_ne_true
      rw [List.dropWhile_cons_of_neg hno, List.dropWhile_cons_of_neg (hp ▸ hno)]
      rfl
  | case2 rest hrest ih =>
    cases hfeed : p '\n' with
    | true =>
      rw [List.dropWhile_cons_of_pos hfeed, List.dropWhile_cons_of_pos (hp.trans hfeed), ih]
    | false =>
      have hno : ¬ p '\n' = true := by rw [hfeed]; exact Bool.false_ne_true
      rw [List.dropWhile_cons_of_neg hno, List.dropWhile_cons_of_neg (hp ▸ hno)]
      rw [normalizeNewlines]
      exact hrest
  | case3 c rest _ hc ih =>
    cases hchar : p c with
    | true => rw [List.dropWhile_cons_of_pos hchar, List.dropWhile_cons_of_pos hchar, ih]
    | false =>
      have hno : ¬ p c = true := by rw [hchar]; exact Bool.false_ne_true
      rw [List.dropWhile_cons_of_neg hno, List.dropWhile_cons_of_neg hno,
        normalizeNewlines_cons hc]
  | case4 => rfl

theorem head?_normalizeNewlines {p : Char → Bool} (hp : p '\r' = p '\n') (text : Text) :
    (normalizeNewlines text).head?.any p = text.head?.any p := by
  cases text with
  | nil => rfl
  | cons c text =>
    by_cases hc : c = '\r'
    · subst hc
      obtain ⟨rest, heq, -⟩ := normalizeNewlines_return text
      rw [heq]
      exact hp.symm
    · rw [normalizeNewlines_cons hc]
      rfl

theorem dropDigits_normalizeNewlines (text : Text) :
    dropDigits (normalizeNewlines text) = (dropDigits text).map normalizeNewlines := by
  have hp : pageDigit '\r' = pageDigit '\n' := by decide
  unfold dropDigits
  rw [head?_normalizeNewlines hp, dropWhile_normalizeNewlines hp]
  by_cases hhead : (text.head?.any pageDigit) = true
  · rw [if_pos hhead, if_pos hhead]
    rfl
  · rw [if_neg hhead, if_neg hhead]
    rfl

theorem trimStart_normalizeNewlines (text : Text) :
    trimStart (normalizeNewlines text) = normalizeNewlines (trimStart text) :=
  dropWhile_normalizeNewlines (by decide) text

/-- **The scan does not see which line ends a text has.** -/
theorem markerRest_normalizeNewlines (text : Text) :
    markerRest (normalizeNewlines text) = (markerRest text).map normalizeNewlines := by
  unfold markerRest
  rw [dropWord_normalizeNewlines (by decide) (by decide)]
  cases dropWord "<!--".toList text with
  | none => rfl
  | some opened =>
    rw [Option.map_some, Option.bind_some, Option.bind_some, trimStart_normalizeNewlines,
      dropWord_normalizeNewlines (by decide) (by decide)]
    cases dropWord "openvac-page:".toList (trimStart opened) with
    | none => rfl
    | some named =>
      rw [Option.map_some, Option.bind_some, Option.bind_some, dropDigits_normalizeNewlines]
      cases dropDigits named with
      | none => rfl
      | some numbered =>
        rw [Option.map_some, Option.bind_some, Option.bind_some,
          trimStart_normalizeNewlines, dropWord_normalizeNewlines (by decide) (by decide)]

theorem markerPieces_normalizeNewlines (text : Text) :
    (markerPieces (normalizeNewlines text)).map visible = (markerPieces text).map visible := by
  induction text using markerPieces.induct with
  | case1 text rest hrest ih =>
    have hnormal : markerRest (normalizeNewlines text) = some (normalizeNewlines rest) := by
      rw [markerRest_normalizeNewlines, hrest]
      rfl
    rw [markerPieces_marker hrest, markerPieces_marker hnormal, List.map_cons, List.map_cons, ih]
  | case2 => rfl
  | case3 c more hnone ih =>
    by_cases hc : c = '\r'
    · subst hc
      obtain ⟨rest, heq, hcases⟩ := normalizeNewlines_return more
      rw [heq, markerPieces_blank (by decide), markerPieces_blank (by decide), ← ih]
      rcases hcases with rfl | rfl
      · rfl
      · rw [normalizeNewlines_cons (by decide), markerPieces_blank (by decide)]
    · have hnormal : markerRest (c :: normalizeNewlines more) = none := by
        rw [← normalizeNewlines_cons hc, markerRest_normalizeNewlines, hnone]
        rfl
      rw [normalizeNewlines_cons hc, markerPieces_cons hnormal, markerPieces_cons hnone]
      exact ahead_congr ih

theorem markerPieces_trimStart (text : Text) :
    (markerPieces (trimStart text)).map visible = (markerPieces text).map visible := by
  obtain ⟨blanks, htext, hblank⟩ := trimStart_eq_append text
  have hsame := markerPieces_blanks hblank (trimStart text)
  rw [← htext] at hsame
  exact hsame.symm

/-- Blanks behind a text are behind its last marker too. -/
theorem markerRest_append_blanks {blanks : Text} (hblank : ∀ c ∈ blanks, isWhiteSpace c = true)
    (text : Text) : markerRest (text ++ blanks) = (markerRest text).map (· ++ blanks) := by
  cases hrest : markerRest text with
  | some rest =>
    obtain ⟨opening, digits, closing, rfl, hspaces, hall, hne, hgaps⟩ := markerRest_eq_some hrest
    have hmarker := @markerRest_marker _ _ _ (rest ++ blanks) hspaces hall hne hgaps
    simp only [List.append_assoc] at hmarker ⊢
    exact hmarker
  | none =>
    cases hlong : markerRest (text ++ blanks) with
    | none => rfl
    | some rest =>
      exfalso
      obtain ⟨opening, digits, closing, htext, hspaces, hall, hne, hgaps⟩ :=
        markerRest_eq_some hlong
      -- the marker ends in a character that is no blank, so it ends inside the text
      have hshape : text ++ blanks =
          ("<!--".toList ++ (opening ++ ("openvac-page:".toList ++
            (digits ++ (closing ++ "--".toList))))) ++ '>' :: rest := by
        rw [htext]
        simp only [List.append_assoc]
        rfl
      rcases List.append_eq_append_iff.mp hshape with
        ⟨more, hhead, htail⟩ | ⟨more, hhead, htail⟩
      · have hmem : '>' ∈ blanks := by
          rw [htail]
          exact List.mem_append_right more List.mem_cons_self
        exact absurd (hblank '>' hmem) (by decide)
      · cases more with
        | nil =>
          have hmem : '>' ∈ blanks := by
            rw [← List.nil_append blanks, ← htail]
            exact List.mem_cons_self
          exact absurd (hblank '>' hmem) (by decide)
        | cons d more =>
          obtain ⟨rfl, rfl⟩ := List.cons.inj htail
          have hmarker := @markerRest_marker _ _ _ more hspaces hall hne hgaps
          have htext' : text = "<!--".toList ++ (opening ++ ("openvac-page:".toList ++
              (digits ++ (closing ++ ("-->".toList ++ more))))) := by
            rw [hhead]
            simp only [List.append_assoc]
            rfl
          rw [htext', hmarker] at hrest
          cases hrest

theorem markerPieces_append_blanks {blanks : Text} (hblank : ∀ c ∈ blanks, isWhiteSpace c = true)
    (text : Text) :
    (markerPieces (text ++ blanks)).map visible = (markerPieces text).map visible := by
  induction text using markerPieces.induct with
  | case1 text rest hrest ih =>
    have hlong : markerRest (text ++ blanks) = some (rest ++ blanks) := by
      rw [markerRest_append_blanks hblank, hrest]
      rfl
    rw [markerPieces_marker hrest, markerPieces_marker hlong, List.map_cons, List.map_cons, ih]
  | case2 =>
    have hsame := markerPieces_blanks hblank []
    rwa [List.append_nil] at hsame
  | case3 c more hnone ih =>
    have hlong : markerRest (c :: (more ++ blanks)) = none := by
      have happend := markerRest_append_blanks hblank (c :: more)
      rw [hnone] at happend
      exact happend
    rw [List.cons_append, markerPieces_cons hlong, markerPieces_cons hnone]
    exact ahead_congr ih

/-- **Neither line ends nor outer blanks change the pieces.** -/
theorem markerPieces_normalizeText (text : Text) :
    (markerPieces (normalizeText text)).map visible = (markerPieces text).map visible := by
  obtain ⟨blanks, htrim, hblank⟩ := trimEnd_append (trimStart (normalizeNewlines text))
  have hend := markerPieces_append_blanks hblank (trimEnd (trimStart (normalizeNewlines text)))
  rw [← htrim] at hend
  calc (markerPieces (normalizeText text)).map visible
      = (markerPieces (trimStart (normalizeNewlines text))).map visible := hend.symm
    _ = (markerPieces (normalizeNewlines text)).map visible := markerPieces_trimStart _
    _ = (markerPieces text).map visible := markerPieces_normalizeNewlines text

/-! ## 6. What the sections hold -/

/-- The text outside the page markers. -/
def outsideMarkers (value : Text) : Text :=
  (stretches value 0 (execAll pageMarker value)).flatten

/-- The text before the first page marker, where there is one. -/
def beforeFirstMarker (value : Text) : Text :=
  match execAll pageMarker value with
  | [] => []
  | (start, _) :: _ => value.take start

theorem stretches_pageMarker (value : Text) :
    (stretches value 0 (execAll pageMarker value)).map visible =
      (markerPieces value).map visible := by
  rw [stretches_eq_between]
  exact scans_pageMarker (scans_execAll proper_pageMarker value)

theorem length_stretches (text : Text) (from_ : Nat) (found : List (Nat × Nat)) :
    (stretches text from_ found).length = found.length + 1 := by
  induction found generalizing from_ with
  | nil => rfl
  | cons first rest ih => exact congrArg (· + 1) (ih first.2)

theorem texts_of_pages (parts : List ((Nat × Nat) × Text)) (page : (Nat × Nat) → Nat) :
    (parts.map fun part =>
        (paragraphs part.2).map fun text =>
          (⟨text, some (page part.1), some (page part.1)⟩ : PageParagraph)).flatten.map (·.text) =
      ((parts.map (·.2)).map paragraphs).flatten := by
  induction parts with
  | nil => rfl
  | cons part parts ih =>
    have hpart : ((paragraphs part.2).map fun text =>
        (⟨text, some (page part.1), some (page part.1)⟩ : PageParagraph)).map (·.text) =
        paragraphs part.2 := by
      rw [List.map_map]
      exact List.map_id _
    simp only [List.map_cons, List.flatten_cons, List.map_append]
    rw [hpart, ih]

theorem visible_flatten_paragraphs (parts : List Text) :
    visible (parts.map paragraphs).flatten.flatten = visible parts.flatten := by
  induction parts with
  | nil => rfl
  | cons part parts ih =>
    rw [List.map_cons, List.flatten_cons, List.flatten_append, visible_append,
      visible_paragraphs, ih, List.flatten_cons, visible_append]

/-- What the paragraphs of a text with markers hold, and what they leave out. -/
theorem visible_pageParagraphs (value : Text) :
    visible (beforeFirstMarker (normalizeText value)) ++
        visible ((pageParagraphs value).map (·.text)).flatten =
      visible (outsideMarkers (normalizeText value)) := by
  unfold pageParagraphs beforeFirstMarker outsideMarkers
  dsimp only
  cases hfound : execAll pageMarker (normalizeText value) with
  | nil =>
    have hwhole : visible (((paragraphs (normalizeText value)).map fun text =>
        (⟨text, none, none⟩ : PageParagraph)).map (·.text)).flatten =
        visible (normalizeText value) := by
      rw [List.map_map]
      exact (congrArg (fun parts => visible (List.flatten parts)) (List.map_id _)).trans
        (visible_paragraphs _)
    have hone : (stretches (normalizeText value) 0 []).flatten = normalizeText value :=
      List.append_nil _
    rw [hone]
    by_cases hempty : (normalizeText value).isEmpty = true
    · rw [if_pos hempty, List.isEmpty_iff.mp hempty]
      rfl
    · rw [if_neg hempty]
      exact hwhole
  | cons first rest =>
    have hempty : ¬ (normalizeText value).isEmpty = true := by
      intro h
      have hnone : execAll pageMarker [] = [] := by decide +kernel
      rw [List.isEmpty_iff.mp h, hnone] at hfound
      cases hfound
    rw [if_neg hempty, if_neg (by simp)]
    have hlength : (first :: rest).length =
        (stretches (normalizeText value) 0 (first :: rest)).tail.length := by
      rw [List.length_tail, length_stretches]
      rfl
    rw [texts_of_pages _ fun place =>
        markerPage (((normalizeText value).drop place.1).take (place.2 - place.1)),
      List.map_snd_zip hlength.symm.le, visible_flatten_paragraphs]
    exact (visible_append _ _).symm

theorem contentZh_pageAware [LocaleOrder] [Sha256] (input : SectionBuilderInput) :
    (buildPageAwareKnowledgeReviewSections input).map (·.contentZh) =
      (pageParagraphs input.contentZh).map (·.text) := by
  unfold buildPageAwareKnowledgeReviewSections
  dsimp only
  rw [List.map_map]
  apply List.ext_getElem
  · simp
  · intro n h1 h2
    simp [hashedSection]

/-- The pieces before the first marker, of the text as given and as the sections see it. -/
theorem visible_beforeFirstMarker (value : Text) :
    visible (beforeFirstMarker (normalizeText value)) = visible (beforeFirstMarker value) := by
  have hpieces : (stretches (normalizeText value) 0 (execAll pageMarker (normalizeText value))).map
      visible = (stretches value 0 (execAll pageMarker value)).map visible := by
    rw [stretches_pageMarker, stretches_pageMarker, markerPieces_normalizeText]
  have hlength := congrArg List.length hpieces
  rw [List.length_map, List.length_map, length_stretches, length_stretches] at hlength
  unfold beforeFirstMarker
  cases hleft : execAll pageMarker (normalizeText value) with
  | nil =>
    cases hright : execAll pageMarker value with
    | nil => rfl
    | cons first rest =>
      rw [hleft, hright] at hlength
      simp at hlength
  | cons first rest =>
    cases hright : execAll pageMarker value with
    | nil =>
      rw [hleft, hright] at hlength
      simp at hlength
    | cons other more =>
      rw [hleft, hright] at hpieces
      exact (List.cons.inj hpieces).1

theorem visible_outsideMarkers (value : Text) :
    visible (outsideMarkers (normalizeText value)) = visible (outsideMarkers value) := by
  unfold outsideMarkers
  rw [visible_flatten, visible_flatten, stretches_pageMarker, stretches_pageMarker,
    markerPieces_normalizeText]

section Sections

variable [LocaleOrder] [Sha256]

/-- **The sections hold, in order, everything but what stands before the first marker.** -/
theorem visible_sections (input : SectionBuilderInput) :
    visible (beforeFirstMarker input.contentZh) ++
        visible ((buildPageAwareKnowledgeReviewSections input).map (·.contentZh)).flatten =
      visible (outsideMarkers input.contentZh) := by
  rw [contentZh_pageAware, ← visible_beforeFirstMarker, ← visible_outsideMarkers,
    visible_pageParagraphs]

/-- **The sections hold all of the text outside the page markers, each character once and in
    order, exactly if nothing visible stands before the first marker.** -/
theorem sections_cover_iff (input : SectionBuilderInput) :
    visible ((buildPageAwareKnowledgeReviewSections input).map (·.contentZh)).flatten =
        visible (outsideMarkers input.contentZh) ↔
      visible (beforeFirstMarker input.contentZh) = [] := by
  rw [← visible_sections input]
  constructor
  · intro h
    have hlength := congrArg List.length h
    rw [List.length_append] at hlength
    exact List.length_eq_zero_iff.mp (by omega)
  · intro h
    rw [h, List.nil_append]

end Sections

/-- A foreword before the first page is in no section. -/
theorem foreword_dropped :
    ¬ ∀ [LocaleOrder] [Sha256] (input : SectionBuilderInput),
        visible ((buildPageAwareKnowledgeReviewSections input).map (·.contentZh)).flatten =
          visible (outsideMarkers input.contentZh) := by
  intro hclaim
  let _ : LocaleOrder := ⟨fun _ _ => true⟩
  let _ : Sha256 := ⟨fun _ => []⟩
  let input : SectionBuilderInput :=
    { versionId := 1
      versionContentHash := []
      contentZh := "a\n\n<!-- openvac-page:1 -->\nb".toList
      officialText := []
      rightsSnapshot := []
      pages := none }
  have hcovered := hclaim input
  rw [contentZh_pageAware] at hcovered
  exact absurd hcovered (by decide +kernel)

end OpenVac.KnowledgeBase
