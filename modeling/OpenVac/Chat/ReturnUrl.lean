/-
  File:      OpenVac/Chat/ReturnUrl.lean
  Subject:   What the URL parser makes of a return target, and of its own result.

  * `valuePieces`, `valuePieces_safe` -- a value that passes the check, cut at its separators.
  * `resultPieces` -- the pieces of the result: kept segments, query and fragment, encoded.
  * `Normal`, `relativeUrl_normal` -- the parser leaves its own results as they are.
  * `resolve_passed` -- the result of a value that passes the check.
-/
import OpenVac.Chat.ReturnTarget

namespace OpenVac.ReturnTarget

open JsString PercentCoding UrlPath

/-! ## 1. A value as pieces -/

theorem flatten_split (s : Text) :
    flatten ((split '/' s).map fun segment => ('/', segment)) = '/' :: s := by
  induction s with
  | nil => rfl
  | cons c s ih =>
    unfold split
    split
    · rename_i hslash
      rw [List.map_cons, flatten_cons, ih, hslash]
      rfl
    · cases hsplit : split '/' s with
      | nil => exact absurd hsplit (split_ne_nil '/' s)
      | cons first more =>
        rw [hsplit, List.map_cons, flatten_cons] at ih
        rw [List.map_cons, flatten_cons, List.cons_append, (List.cons_eq_cons.mp ih).2]

/-- The fragment with what begins it. -/
def fragmentPieces : Text → List Piece
  | [] => []
  | mark :: more => [(mark, more)]

/-- The query and the fragment with what begins them. -/
def tailPieces : Text → List Piece
  | [] => []
  | mark :: more =>
      if mark = '?' then
        ('?', more.takeWhile (· != '#')) :: fragmentPieces (more.dropWhile (· != '#'))
      else [(mark, more)]

theorem tailPieces_cons (mark : Char) (more : Text) :
    tailPieces (mark :: more) =
      if mark = '?' then
        ('?', more.takeWhile (· != '#')) :: fragmentPieces (more.dropWhile (· != '#'))
      else [(mark, more)] := rfl

theorem flatten_fragmentPieces (s : Text) : flatten (fragmentPieces s) = s := by
  cases s with
  | nil => rfl
  | cons mark more =>
    show mark :: (more ++ []) = _
    rw [List.append_nil]

theorem flatten_tailPieces (s : Text) : flatten (tailPieces s) = s := by
  cases s with
  | nil => rfl
  | cons mark more =>
    rw [tailPieces_cons]
    split
    · rename_i hmark
      rw [flatten_cons, flatten_fragmentPieces, List.takeWhile_append_dropWhile, hmark]
    · exact flatten_fragmentPieces (mark :: more)

theorem dropWhile_head (p : Char → Bool) {s : Text} {c : Char} {more : Text}
    (h : s.dropWhile p = c :: more) : p c = false := by
  have hhead := List.head?_dropWhile_not p s
  rw [h] at hhead
  simpa using hhead

/-- Pieces begin with a slash, a question mark or a number sign. -/
def Marked (piece : Piece) : Prop := piece.1 = '/' ∨ piece.1 = '?' ∨ piece.1 = '#'

theorem cut_of_marked {pieces : List Piece} (h : ∀ piece ∈ pieces, Marked piece) : Cut pieces := by
  intro piece hpiece
  rcases h piece hpiece with hmark | hmark | hmark
  · rw [hmark]
    decide
  · rw [hmark]
    decide
  · rw [hmark]
    decide

theorem marked_fragmentPieces (s : Text) :
    ∀ piece ∈ fragmentPieces (s.dropWhile (· != '#')), Marked piece := by
  intro piece hpiece
  cases hrest : s.dropWhile (· != '#') with
  | nil =>
    rw [hrest] at hpiece
    nomatch hpiece
  | cons mark more =>
    rw [hrest] at hpiece
    have hmark : (mark != '#') = false := dropWhile_head (· != '#') hrest
    rw [List.mem_singleton.mp hpiece]
    exact .inr (.inr (bne_eq_false_iff_eq.mp hmark))

theorem marked_tailPieces (input : Text) :
    ∀ piece ∈ tailPieces (afterPath input), Marked piece := by
  intro piece hpiece
  cases hrest : afterPath input with
  | nil =>
    rw [hrest] at hpiece
    nomatch hpiece
  | cons mark more =>
    have hmark : isPathEnd mark = true := by
      have hnot := dropWhile_head (fun c => !isPathEnd c) hrest
      rwa [Bool.not_eq_false'] at hnot
    rw [hrest] at hpiece
    rw [tailPieces_cons] at hpiece
    split at hpiece
    · rcases List.mem_cons.mp hpiece with rfl | hpiece
      · exact .inr (.inl rfl)
      · exact marked_fragmentPieces more piece hpiece
    · rename_i hquestion
      rw [List.mem_singleton.mp hpiece]
      unfold isPathEnd at hmark
      rw [Bool.or_eq_true, beq_iff_eq, beq_iff_eq] at hmark
      exact .inr (.inr (hmark.resolve_left hquestion))

def valuePieces (input : Text) : List Piece :=
  ((segments input).map fun segment => ('/', segment)) ++ tailPieces (afterPath input)

theorem marked_valuePieces (input : Text) : ∀ piece ∈ valuePieces input, Marked piece := by
  intro piece hpiece
  rcases List.mem_append.mp hpiece with hpath | htail
  · obtain ⟨segment, -, rfl⟩ := List.mem_map.mp hpath
    exact .inl rfl
  · exact marked_tailPieces input piece htail

/-- The path up to its end, where it has no backslash. -/
theorem segments_eq {t : Text} (h : '\\' ∉ t) :
    segments ('/' :: t) = split '/' (t.takeWhile fun c => !isPathEnd c) := by
  have hmap : ((t.takeWhile fun c => !isPathEnd c).map fun c => if c = '\\' then '/' else c) =
      t.takeWhile fun c => !isPathEnd c := by
    refine (List.map_congr_left fun c hc => ?_).trans (List.map_id _)
    have hne : c ≠ '\\' := by
      rintro rfl
      exact h ((List.takeWhile_sublist _).subset hc)
    exact if_neg hne
  unfold segments
  rw [List.drop_one, List.tail_cons, hmap]

/-- **A value is its pieces.** -/
theorem flatten_valuePieces {t : Text} (h : '\\' ∉ t) :
    flatten (valuePieces ('/' :: t)) = '/' :: t := by
  unfold valuePieces
  rw [flatten_append, flatten_tailPieces, segments_eq h, flatten_split]
  unfold afterPath
  rw [List.drop_one, List.tail_cons, List.cons_append, List.takeWhile_append_dropWhile]

theorem query_mem (input : Text) (h : queryText (afterPath input) ≠ []) :
    ('?', queryText (afterPath input)) ∈ tailPieces (afterPath input) := by
  cases hrest : afterPath input with
  | nil =>
    rw [hrest] at h
    exact absurd rfl h
  | cons mark more =>
    rw [hrest] at h
    by_cases hmark : mark = '?'
    · subst hmark
      exact List.mem_cons_self
    · refine absurd ?_ h
      unfold queryText
      split
      · rename_i heq
        exact absurd (List.cons_eq_cons.mp heq).1 hmark
      · rfl

theorem fragment_mem (input : Text) (h : fragmentText (afterPath input) ≠ []) :
    ('#', fragmentText (afterPath input)) ∈ tailPieces (afterPath input) := by
  have hdrop (s : Text) (h : (s.dropWhile (· != '#')).drop 1 ≠ []) :
      ('#', (s.dropWhile (· != '#')).drop 1) ∈ fragmentPieces (s.dropWhile (· != '#')) := by
    cases hrest : s.dropWhile (· != '#') with
    | nil =>
      rw [hrest] at h
      exact absurd rfl h
    | cons mark more =>
      have hhash : (mark != '#') = false := dropWhile_head (· != '#') hrest
      rw [bne_eq_false_iff_eq.mp hhash]
      exact List.mem_singleton_self _
  cases hrest : afterPath input with
  | nil =>
    rw [hrest] at h
    exact absurd rfl h
  | cons mark more =>
    rw [hrest] at h
    rw [tailPieces_cons]
    split
    · rename_i hquestion
      subst hquestion
      exact List.mem_cons_of_mem _ (hdrop more h)
    · rename_i hquestion
      have hmarked := marked_tailPieces input (mark, more) (by
        rw [hrest]
        rw [tailPieces_cons]
        rw [if_neg hquestion]
        exact List.mem_singleton_self _)
      have hhash : mark = '#' := by
        rcases hmarked with hslash | hquery | hhash
        · have hend : isPathEnd mark = true := by
            have hnot := dropWhile_head (fun c => !isPathEnd c) hrest
            rwa [Bool.not_eq_false'] at hnot
          rw [show mark = '/' from hslash] at hend
          nomatch hend
        · exact absurd hquery hquestion
        · exact hhash
      subst hhash
      exact List.mem_singleton_self _

/-- What the URL parser reads of a value that the check passes. -/
theorem urlInput_spec {value : Text} (h : isUnsafeForm value = false) :
    ∃ t spaces, urlInput value = '/' :: t ∧ value = '/' :: t ++ spaces ∧
      ∀ c ∈ spaces, c = ' ' := by
  obtain ⟨hslash, -, hplain⟩ := isUnsafeForm_eq_false_iff.mp h
  have hplain := isPlainForm_iff.mp hplain
  obtain ⟨v, rfl⟩ := isPrefixOf_slash hslash
  have hstart : ('/' :: v).dropWhile isC0OrSpace = '/' :: v :=
    List.dropWhile_cons_of_neg (by decide)
  have hsplit : ('/' :: v).rdropWhile isC0OrSpace ++ ('/' :: v).rtakeWhile isC0OrSpace =
      '/' :: v := List.rdropWhile_append_rtakeWhile
  have hspaces : ∀ c ∈ ('/' :: v).rtakeWhile isC0OrSpace, c = ' ' := by
    intro c hc
    have hblank : isC0OrSpace c = true := List.mem_rtakeWhile_imp hc
    have hlow : c.toNat ≤ 0x20 := of_decide_eq_true hblank
    have hmem : c ∈ '/' :: v := by
      rw [← hsplit]
      exact List.mem_append_right _ hc
    have hcontrol := (hplain c hmem).2
    unfold isControlCharacter at hcontrol
    rw [Bool.or_eq_false_iff, decide_eq_false_iff_not] at hcontrol
    have hnat : c.toNat = 0x20 := by omega
    exact Char.ext (UInt32.toNat_inj.mp hnat)
  have hfilter : (('/' :: v).rdropWhile isC0OrSpace).filter (fun c =>
      !(c.toNat == 0x09 || c.toNat == 0x0A || c.toNat == 0x0D)) =
        ('/' :: v).rdropWhile isC0OrSpace := by
    refine List.filter_eq_self.mpr fun c hc => ?_
    have hmem : c ∈ '/' :: v := by
      rw [← hsplit]
      exact List.mem_append_left _ hc
    have hcontrol := (hplain c hmem).2
    unfold isControlCharacter at hcontrol
    rw [Bool.or_eq_false_iff, decide_eq_false_iff_not] at hcontrol
    rw [Bool.not_eq_true', Bool.or_eq_false_iff, Bool.or_eq_false_iff, beq_eq_false_iff_ne,
      beq_eq_false_iff_ne, beq_eq_false_iff_ne]
    omega
  cases hinput : ('/' :: v).rdropWhile isC0OrSpace with
  | nil =>
    have hall := List.rdropWhile_eq_nil_iff.mp hinput '/' List.mem_cons_self
    nomatch hall
  | cons c t =>
    rw [hinput] at hsplit hfilter
    obtain rfl := (List.cons_eq_cons.mp hsplit).1
    refine ⟨t, _, ?_, hsplit.symm, hspaces⟩
    unfold urlInput
    rw [hstart, hinput, hfilter]

/-- **Every piece of what the parser reads has passed the check.** -/
theorem valuePieces_safe {value : Text} (h : hasUnsafeDecodedForm value = false) :
    ∀ piece ∈ valuePieces (urlInput value), PieceSafe 4 piece.2 := by
  obtain ⟨hform, -⟩ := hasUnsafeFrom_succ.mp h
  obtain ⟨t, spaces, hinput, hvalue, hspaces⟩ := urlInput_spec hform
  have hplain := isPlainForm_iff.mp (isUnsafeForm_eq_false_iff.mp hform).2.2
  have hbackslash : '\\' ∉ t := by
    intro hmem
    refine (hplain '\\' ?_).1 rfl
    rw [hvalue]
    exact List.mem_append_left _ (List.mem_cons_of_mem _ hmem)
  have hflatten : flatten (valuePieces ('/' :: t) ++ spaces.map fun c => (c, [])) = value := by
    have hend : flatten (spaces.map fun c => ((c, []) : Piece)) = spaces := by
      clear hvalue hspaces
      induction spaces with
      | nil => rfl
      | cons c spaces ih => rw [List.map_cons, flatten_cons, ih, List.nil_append]
    rw [flatten_append, flatten_valuePieces hbackslash, hend, hvalue]
  have hcut : Cut (valuePieces ('/' :: t) ++ spaces.map fun c => (c, [])) := by
    intro piece hpiece
    rcases List.mem_append.mp hpiece with hold | hspace
    · exact cut_of_marked (marked_valuePieces _) piece hold
    · obtain ⟨c, hc, rfl⟩ := List.mem_map.mp hspace
      rw [hspaces c hc]
      decide
  intro piece hpiece
  rw [hinput] at hpiece
  refine hasUnsafeFrom_pieces hcut ?_ (List.mem_append_left _ hpiece)
  rw [hflatten]
  exact h

/-! ## 2. The result as pieces -/

/-- The segments that are left without the dot segments. -/
def keptSegments (value : Text) : List Text := dotSegments [] (segments (urlInput value))

def markedPieces (mark : Char) (s : Text) : List Piece := if s.isEmpty then [] else [(mark, s)]

theorem flatten_markedPieces (mark : Char) (s : Text) :
    flatten (markedPieces mark s) = markedText mark s := by
  unfold markedPieces markedText
  split
  · rfl
  · show mark :: (s ++ []) = _
    rw [List.append_nil]

theorem mem_markedPieces {mark : Char} {s : Text} {piece : Piece}
    (h : piece ∈ markedPieces mark s) : piece = (mark, s) ∧ s ≠ [] := by
  unfold markedPieces at h
  split at h
  · nomatch h
  · rename_i hne
    refine ⟨List.mem_singleton.mp h, ?_⟩
    rintro rfl
    exact hne rfl

section Result

variable [UrlHost]

/-- The pieces of a path, a query and a fragment that are encoded already. -/
def targetPieces (path : List Text) (query fragment : Text) : List Piece :=
  (path.map fun segment => ('/', segment)) ++
    (markedPieces '?' query ++ markedPieces '#' fragment)

def resultPieces (value : Text) : List Piece :=
  targetPieces ((keptSegments value).map (percentEncode (isPathSet UrlHost.caret)))
    (percentEncode isSpecialQuerySet (queryText (afterPath (urlInput value))))
    (percentEncode isFragmentSet (fragmentText (afterPath (urlInput value))))

omit [UrlHost] in
theorem marked_targetPieces (path : List Text) (query fragment : Text) :
    ∀ piece ∈ targetPieces path query fragment, Marked piece := by
  intro piece hpiece
  rcases List.mem_append.mp hpiece with hpath | htail
  · obtain ⟨segment, -, rfl⟩ := List.mem_map.mp hpath
    exact .inl rfl
  rcases List.mem_append.mp htail with hquery | hfragment
  · rw [(mem_markedPieces hquery).1]
    exact .inr (.inl rfl)
  · rw [(mem_markedPieces hfragment).1]
    exact .inr (.inr rfl)

theorem flatten_resultPieces (value : Text) :
    flatten (resultPieces value) =
      (relativeUrl (urlInput value)).pathname ++ ((relativeUrl (urlInput value)).search ++
        (relativeUrl (urlInput value)).hash) := by
  have hpath : (keptSegments value).map (percentEncode (isPathSet UrlHost.caret)) =
      dotSegments [] ((segments (urlInput value)).map (percentEncode (isPathSet UrlHost.caret))) :=
    (dotSegments_percentEncode (urlSet_path UrlHost.caret) [] _).symm
  unfold resultPieces targetPieces
  rw [flatten_append, flatten_append, flatten_markedPieces, flatten_markedPieces, hpath]
  rfl

omit [UrlHost] in
theorem isPlainForm_percentEncode {set : Char → Bool} {s : Text} (h : isPlainForm s = true) :
    isPlainForm (percentEncode set s) = true := by
  refine isPlainForm_iff.mpr fun c hc => ?_
  rcases mem_percentEncode hc with ⟨hmem, -⟩ | heq | hhex
  · exact isPlainForm_iff.mp h c hmem
  · rw [heq]
    decide
  · have hrange := hexValue_range hhex
    refine ⟨?_, ?_⟩
    · rintro rfl
      revert hrange
      decide
    · unfold isControlCharacter
      rw [Bool.or_eq_false_iff, decide_eq_false_iff_not, beq_eq_false_iff_ne]
      omega

omit [UrlHost] in
theorem pieceSafe_percentEncode {set : Char → Bool} (hset : UrlSet set) {n : Nat} {s : Text}
    (h : PieceSafe (n + 2) s) : PieceSafe (n + 2) (percentEncode set s) := by
  obtain ⟨hplain, d, hd, hsafe⟩ := h
  refine ⟨isPlainForm_percentEncode hplain, d, ?_, hsafe⟩
  rw [decode_percentEncode hset.escapes, hd]

/-- **Every piece of the result is safe**: it was a piece of the value, or it is empty. -/
theorem resultPieces_safe {value : Text} (h : hasUnsafeDecodedForm value = false) :
    ∀ piece ∈ resultPieces value, PieceSafe 4 piece.2 := by
  intro piece hpiece
  have hvalue := valuePieces_safe h
  have htail {mark : Char} {s : Text} (hmem : (mark, s) ∈ tailPieces (afterPath (urlInput value))) :
      PieceSafe 4 s := hvalue (mark, s) (List.mem_append_right _ hmem)
  rcases List.mem_append.mp hpiece with hpath | hrest
  · obtain ⟨encoded, hencoded, rfl⟩ := List.mem_map.mp hpath
    obtain ⟨segment, hsegment, rfl⟩ := List.mem_map.mp hencoded
    refine pieceSafe_percentEncode (urlSet_path UrlHost.caret) ?_
    rcases mem_dotSegments hsegment with hnil | ⟨hmem, -⟩ | rfl
    · nomatch hnil
    · exact hvalue ('/', segment)
        (List.mem_append_left _ (List.mem_map.mpr ⟨segment, hmem, rfl⟩))
    · exact pieceSafe_of_fixed rfl rfl 3
  rcases List.mem_append.mp hrest with hquery | hfragment
  · obtain ⟨rfl, hne⟩ := mem_markedPieces hquery
    refine pieceSafe_percentEncode urlSet_query (htail (query_mem (urlInput value) ?_))
    intro hnil
    rw [hnil] at hne
    exact hne rfl
  · obtain ⟨rfl, hne⟩ := mem_markedPieces hfragment
    refine pieceSafe_percentEncode urlSet_fragment (htail (fragment_mem (urlInput value) ?_))
    intro hnil
    rw [hnil] at hne
    exact hne rfl

/-! ## 3. Reading the result again -/

omit [UrlHost] in
theorem flatten_slashes {path : List Text} (h : path ≠ []) :
    flatten (path.map fun segment => ('/', segment)) = '/' :: join ['/'] path := by
  induction path with
  | nil => exact absurd rfl h
  | cons first more ih =>
    cases more with
    | nil =>
      rw [join_singleton]
      show '/' :: (first ++ []) = _
      rw [List.append_nil]
    | cons next more =>
      rw [List.map_cons, flatten_cons, ih (List.cons_ne_nil _ _), join_cons_cons]
      rfl

omit [UrlHost] in
theorem afterPath_split {p rest : Text} (hp : ∀ c ∈ p, isPathEnd c = false)
    (hrest : ∀ c ∈ rest.head?, isPathEnd c = true) :
    (p ++ rest).takeWhile (fun c => !isPathEnd c) = p ∧
      (p ++ rest).dropWhile (fun c => !isPathEnd c) = rest := by
  have hall : ∀ c ∈ p, (!isPathEnd c) = true := fun c hc => by rw [hp c hc]; rfl
  rw [List.takeWhile_append_of_pos hall, List.dropWhile_append_of_pos hall]
  cases rest with
  | nil => exact ⟨List.append_nil p, rfl⟩
  | cons c rest =>
    have hc : ¬ (!isPathEnd c) = true := by
      rw [hrest c rfl]
      decide
    rw [List.takeWhile_cons_of_neg (p := fun c => !isPathEnd c) hc,
      List.dropWhile_cons_of_neg (p := fun c => !isPathEnd c) hc, List.append_nil]
    exact ⟨rfl, rfl⟩

omit [UrlHost] in
theorem tail_head (query fragment : Text) :
    ∀ c ∈ (markedText '?' query ++ markedText '#' fragment).head?, isPathEnd c = true := by
  intro c hc
  unfold markedText at hc
  split at hc
  · split at hc
    · nomatch hc
    · obtain rfl := Option.some.inj hc
      rfl
  · obtain rfl := Option.some.inj hc
    rfl

omit [UrlHost] in
/-- The query and the fragment are found again. -/
theorem query_fragment_split {query : Text} (h : '#' ∉ query) (fragment : Text) :
    queryText (markedText '?' query ++ markedText '#' fragment) = query ∧
      fragmentText (markedText '?' query ++ markedText '#' fragment) = fragment := by
  have hall : ∀ c ∈ query, (c != '#') = true := by
    intro c hc
    rw [bne_iff_ne]
    rintro rfl
    exact h hc
  have hdrop : fragmentText (markedText '#' fragment) = fragment := by
    unfold markedText
    split
    · rename_i hempty
      exact (List.isEmpty_iff.mp hempty).symm
    · rfl
  have htake : (markedText '#' fragment).takeWhile (· != '#') = [] := by
    unfold markedText
    split <;> rfl
  cases query with
  | nil =>
    refine ⟨?_, hdrop⟩
    show queryText (markedText '#' fragment) = []
    unfold markedText
    split <;> rfl
  | cons c query =>
    constructor
    · show ((c :: query) ++ markedText '#' fragment).takeWhile (· != '#') = _
      rw [List.takeWhile_append_of_pos hall, htake, List.append_nil]
    · show ((('?' :: c :: query) ++ markedText '#' fragment).dropWhile (· != '#')).drop 1 = _
      have hmark : ∀ d ∈ '?' :: c :: query, (d != '#') = true := by
        intro d hd
        rcases List.mem_cons.mp hd with rfl | hd
        · rfl
        · exact hall d hd
      rw [List.dropWhile_append_of_pos hmark]
      exact hdrop

omit [UrlHost] in
/-- A text of visible characters is read as it is. -/
theorem urlInput_visible {s : Text} (h : ∀ c ∈ s, 0x20 < c.toNat) : urlInput s = s := by
  have hnot : ∀ c ∈ s, isC0OrSpace c = false := fun c hc => by
    have := h c hc
    exact decide_eq_false (by omega)
  have hdrop : s.dropWhile isC0OrSpace = s := by
    cases s with
    | nil => rfl
    | cons c s => exact List.dropWhile_cons_of_neg (by rw [hnot c List.mem_cons_self]; decide)
  have hrdrop : s.rdropWhile isC0OrSpace = s := by
    rw [List.rdropWhile_eq_self_iff]
    intro hne
    rw [hnot _ (List.getLast_mem hne)]
    decide
  unfold urlInput
  rw [hdrop, hrdrop]
  refine List.filter_eq_self.mpr fun c hc => ?_
  have hlow := h c hc
  rw [Bool.not_eq_true', Bool.or_eq_false_iff, Bool.or_eq_false_iff, beq_eq_false_iff_ne,
    beq_eq_false_iff_ne, beq_eq_false_iff_ne]
  omega

/-- A path, a query and a fragment as the parser leaves them. -/
structure Normal (path : List Text) (query fragment : Text) : Prop where
  nonempty : path ≠ []
  clean : ∀ segment ∈ path, isClean segment = true
  plain : ∀ segment ∈ path, ∀ c ∈ segment, c ≠ '/' ∧ c ≠ '\\' ∧ isPathEnd c = false
  fixedPath : ∀ segment ∈ path, percentEncode (isPathSet UrlHost.caret) segment = segment
  fixedQuery : percentEncode isSpecialQuerySet query = query
  fixedFragment : percentEncode isFragmentSet fragment = fragment
  noHash : '#' ∉ query
  visible : ∀ piece ∈ targetPieces path query fragment, ∀ c ∈ piece.2,
    0x20 < c.toNat ∧ c.toNat ≤ 0x7E

theorem Normal.text_eq {path : List Text} {query fragment : Text} (h : Normal path query fragment) :
    flatten (targetPieces path query fragment) =
      '/' :: (join ['/'] path ++ (markedText '?' query ++ markedText '#' fragment)) := by
  unfold targetPieces
  rw [flatten_append, flatten_append, flatten_slashes h.nonempty, flatten_markedPieces,
    flatten_markedPieces, List.cons_append]

theorem Normal.text_visible {path : List Text} {query fragment : Text}
    (h : Normal path query fragment) :
    ∀ c ∈ flatten (targetPieces path query fragment), 0x20 < c.toNat ∧ c.toNat ≤ 0x7E := by
  intro c hc
  obtain ⟨piece, hpiece, hmem⟩ := List.mem_flatMap.mp hc
  rcases List.mem_cons.mp hmem with rfl | hmem
  · rcases marked_targetPieces path query fragment piece hpiece with hmark | hmark | hmark
    · rw [hmark]
      decide
    · rw [hmark]
      decide
    · rw [hmark]
      decide
  · exact h.visible piece hpiece c hmem

/-- **The parser leaves a normal target as it is.** -/
theorem relativeUrl_normal {path : List Text} {query fragment : Text}
    (h : Normal path query fragment) :
    relativeUrl (flatten (targetPieces path query fragment)) =
      ⟨BASE_ORIGIN, pathname path, markedText '?' query, markedText '#' fragment⟩ := by
  have hjoin : ∀ c ∈ join ['/'] path, c ≠ '\\' ∧ isPathEnd c = false := by
    intro c hc
    rcases mem_join hc with rfl | ⟨segment, hsegment, hmem⟩
    · decide
    · exact (h.plain segment hsegment c hmem).2
  obtain ⟨htake, hdrop⟩ := afterPath_split (p := join ['/'] path)
    (fun c hc => (hjoin c hc).2) (tail_head query fragment)
  have hsegments : segments (flatten (targetPieces path query fragment)) = path := by
    have hmap : ((join ['/'] path).map fun c => if c = '\\' then '/' else c) = join ['/'] path :=
      (List.map_congr_left fun c hc => if_neg (hjoin c hc).1).trans (List.map_id _)
    unfold segments
    rw [h.text_eq, List.drop_one, List.tail_cons, htake, hmap]
    refine split_join h.nonempty fun segment hsegment hmem => ?_
    exact (h.plain segment hsegment '/' hmem).1 rfl
  have hafter : afterPath (flatten (targetPieces path query fragment)) =
      markedText '?' query ++ markedText '#' fragment := by
    unfold afterPath
    rw [h.text_eq, List.drop_one, List.tail_cons, hdrop]
  have hencoded : path.map (percentEncode (isPathSet UrlHost.caret)) = path :=
    (List.map_congr_left h.fixedPath).trans (List.map_id _)
  obtain ⟨hquery, hfragment⟩ := query_fragment_split h.noHash fragment
  unfold relativeUrl
  rw [hsegments, hafter, hquery, hfragment, hencoded, dotSegments_clean h.clean, h.fixedQuery,
    h.fixedFragment, List.nil_append]

theorem newUrl_normal {path : List Text} {query fragment : Text} (h : Normal path query fragment)
    (hone : ['/', '/'].isPrefixOf (flatten (targetPieces path query fragment)) = false) :
    newUrl (flatten (targetPieces path query fragment)) =
      some ⟨BASE_ORIGIN, pathname path, markedText '?' query, markedText '#' fragment⟩ := by
  have hinput := urlInput_visible fun c hc => (h.text_visible c hc).1
  have hbackslash :
      ['/', '\\'].isPrefixOf (flatten (targetPieces path query fragment)) = false := by
    refine Bool.eq_false_iff.mpr fun hprefix => ?_
    obtain ⟨rest, hrest⟩ := List.isPrefixOf_iff_prefix.mp hprefix
    rw [h.text_eq] at hrest
    have htail := (List.cons_eq_cons.mp hrest).2
    cases hjoin : join ['/'] path with
    | nil =>
      have hhead := tail_head query fragment '\\' (by
        rw [hjoin] at htail
        rw [show markedText '?' query ++ markedText '#' fragment = '\\' :: rest from htail.symm]
        rfl)
      nomatch hhead
    | cons c more =>
      rw [hjoin] at htail
      obtain rfl : '\\' = c := (List.cons_eq_cons.mp htail).1
      have hmem : '\\' ∈ join ['/'] path := by
        rw [hjoin]
        exact List.mem_cons_self
      rcases mem_join hmem with heq | ⟨segment, hsegment, hc⟩
      · nomatch heq
      · exact (h.plain segment hsegment _ hc).2.1 rfl
  have habsolute : isPathAbsolute (flatten (targetPieces path query fragment)) = true := by
    unfold isPathAbsolute
    rw [hone, hbackslash, h.text_eq, slash_isPrefixOf]
    rfl
  unfold newUrl
  rw [hinput, if_pos habsolute, relativeUrl_normal h]

omit [UrlHost] in
theorem flatten_targetPieces (path : List Text) (query fragment : Text) :
    flatten (targetPieces path query fragment) =
      pathname path ++ (markedText '?' query ++ markedText '#' fragment) := by
  unfold targetPieces
  rw [flatten_append, flatten_append, flatten_markedPieces, flatten_markedPieces]
  rfl

/-- **A normal target that passes the check is its own result.** -/
theorem resolve_normal {path : List Text} {query fragment : Text} (h : Normal path query fragment)
    (hlen : utf16Length (flatten (targetPieces path query fragment)) ≤ MAX_RETURN_TO_LENGTH)
    (hsafe : hasUnsafeDecodedForm (flatten (targetPieces path query fragment)) = false) :
    resolveSafeReturnTo (some (flatten (targetPieces path query fragment))) =
      flatten (targetPieces path query fragment) := by
  obtain ⟨hform, -⟩ := hasUnsafeFrom_succ.mp hsafe
  obtain ⟨-, hone, -⟩ := isUnsafeForm_eq_false_iff.mp hform
  have hpathname : pathname path = '/' :: join ['/'] path := flatten_slashes h.nonempty
  have htwo : ['/', '/'].isPrefixOf (pathname path) = false := by
    refine Bool.eq_false_iff.mpr fun hprefix => ?_
    have hlong := List.isPrefixOf_iff_prefix.mp hprefix
    rw [flatten_targetPieces] at hone
    rw [List.isPrefixOf_iff_prefix.mpr (hlong.trans (List.prefix_append _ _))] at hone
    nomatch hone
  have hbackslash : (pathname path).contains '\\' = false := by
    refine Bool.eq_false_iff.mpr fun hmem => ?_
    rw [List.contains_iff_mem, hpathname] at hmem
    rcases List.mem_cons.mp hmem with heq | hmem
    · nomatch heq
    rcases mem_join hmem with heq | ⟨segment, hsegment, hc⟩
    · nomatch heq
    · exact (h.plain segment hsegment _ hc).2.1 rfl
  have hempty : (flatten (targetPieces path query fragment)).isEmpty = false := by
    rw [h.text_eq]
    rfl
  have hslash : ['/'].isPrefixOf (pathname path) = true := by
    rw [hpathname, slash_isPrefixOf]
  unfold resolveSafeReturnTo
  dsimp only
  rw [hempty, decide_eq_false (by omega), hsafe, newUrl_normal h hone]
  dsimp only
  rw [if_neg (by decide), hslash, htwo, hbackslash, bne_self_eq_false, if_neg (by decide),
    flatten_targetPieces]

theorem default_normal : Normal [['c', 'h', 'a', 't']] [] [] where
  nonempty := List.cons_ne_nil _ _
  clean := by
    intro segment hsegment
    rw [List.mem_singleton.mp hsegment]
    rfl
  plain := by
    intro segment hsegment
    rw [List.mem_singleton.mp hsegment]
    have hall : (['c', 'h', 'a', 't'].all fun c => c != '/' && c != '\\' && !isPathEnd c) = true :=
      rfl
    intro c hc
    simpa [and_assoc] using List.all_eq_true.mp hall c hc
  fixedPath := by
    intro segment hsegment
    rw [List.mem_singleton.mp hsegment]
    have hall (caret : Bool) : (['c', 'h', 'a', 't'].all fun c => !isPathSet caret c) = true := by
      cases caret <;> rfl
    refine percentEncode_of_plain fun c hc => ?_
    simpa using List.all_eq_true.mp (hall UrlHost.caret) c hc
  fixedQuery := rfl
  fixedFragment := rfl
  noHash := List.not_mem_nil
  visible := by
    intro piece hpiece c hc
    have hall : ((targetPieces [['c', 'h', 'a', 't']] [] []).all fun piece =>
        piece.2.all fun c => decide (0x20 < c.toNat) && decide (c.toNat ≤ 0x7E)) = true := rfl
    simpa using List.all_eq_true.mp (List.all_eq_true.mp hall piece hpiece) c hc

theorem resolve_default : resolveSafeReturnTo (some DEFAULT_RETURN_TO) = DEFAULT_RETURN_TO :=
  resolve_normal default_normal (by decide) (by decide)

/-! ## 4. The result of a value -/

def resultPath (value : Text) : List Text :=
  (keptSegments value).map (percentEncode (isPathSet UrlHost.caret))

omit [UrlHost] in
theorem visible_percentEncode {set : Char → Bool} (hset : UrlSet set) {s : Text} {c : Char}
    (h : c ∈ percentEncode set s) : 0x20 < c.toNat ∧ c.toNat ≤ 0x7E := by
  rcases mem_percentEncode h with ⟨-, hout⟩ | rfl | hhex
  · exact hset.visible c hout
  · decide
  · have hrange := hexValue_range hhex
    omega

omit [UrlHost] in
/-- What a kept segment is made of. -/
theorem mem_keptSegments {value : Text} (h : isUnsafeForm value = false) {segment : Text}
    (hsegment : segment ∈ keptSegments value) :
    ∀ c ∈ segment, c ≠ '/' ∧ c ≠ '\\' ∧ isPathEnd c = false := by
  intro c hc
  obtain ⟨t, spaces, hinput, hvalue, -⟩ := urlInput_spec h
  have hplain := isPlainForm_iff.mp (isUnsafeForm_eq_false_iff.mp h).2.2
  have hbackslash : ∀ d ∈ t, d ≠ '\\' := by
    intro d hd
    refine (hplain d ?_).1
    rw [hvalue]
    exact List.mem_append_left _ (List.mem_cons_of_mem _ hd)
  rcases mem_dotSegments hsegment with hnil | ⟨hmem, -⟩ | rfl
  · nomatch hnil
  · rw [hinput, segments_eq fun hmem => hbackslash _ hmem rfl] at hmem
    have htake := mem_of_mem_split hmem c hc
    have hend : (!isPathEnd c) = true := List.mem_takeWhile_imp (p := fun c => !isPathEnd c) htake
    rw [Bool.not_eq_true'] at hend
    refine ⟨?_, hbackslash c ((List.takeWhile_sublist _).subset htake), hend⟩
    rintro rfl
    exact not_mem_of_mem_split hmem hc
  · nomatch hc

omit [UrlHost] in
theorem isClean_percentEncode {set : Char → Bool} (hset : UrlSet set) (s : Text) :
    isClean (percentEncode set s) = isClean s := by
  unfold isClean
  rw [isDoubleDot_percentEncode hset, isSingleDot_percentEncode hset]

omit [UrlHost] in
theorem mem_encoded {set : Char → Bool} {s : Text}
    (h : ∀ c ∈ s, c ≠ '/' ∧ c ≠ '\\' ∧ isPathEnd c = false) {c : Char}
    (hc : c ∈ percentEncode set s) : c ≠ '/' ∧ c ≠ '\\' ∧ isPathEnd c = false := by
  rcases mem_percentEncode hc with ⟨hmem, -⟩ | rfl | hhex
  · exact h c hmem
  · decide
  · have hrange := hexValue_range hhex
    have hne {d : Char} (hd : ¬ (0x30 ≤ d.toNat ∧ d.toNat ≤ 0x39) ∧
        ¬ (0x41 ≤ d.toNat ∧ d.toNat ≤ 0x46) ∧ ¬ (0x61 ≤ d.toNat ∧ d.toNat ≤ 0x66)) : c ≠ d := by
      rintro rfl
      omega
    refine ⟨hne (by decide), hne (by decide), ?_⟩
    unfold isPathEnd
    rw [Bool.or_eq_false_iff, beq_eq_false_iff_ne, beq_eq_false_iff_ne]
    exact ⟨hne (by decide), hne (by decide)⟩

theorem normal_result {value : Text} (h : isUnsafeForm value = false) :
    Normal (resultPath value)
      (percentEncode isSpecialQuerySet (queryText (afterPath (urlInput value))))
      (percentEncode isFragmentSet (fragmentText (afterPath (urlInput value)))) where
  nonempty := by
    unfold resultPath keptSegments segments
    intro hnil
    exact dotSegments_ne_nil (split_ne_nil _ _) (List.map_eq_nil_iff.mp hnil)
  clean := by
    intro encoded hencoded
    obtain ⟨segment, hsegment, rfl⟩ := List.mem_map.mp hencoded
    rw [isClean_percentEncode (urlSet_path UrlHost.caret)]
    exact isClean_of_mem hsegment
  plain := by
    intro encoded hencoded c hc
    obtain ⟨segment, hsegment, rfl⟩ := List.mem_map.mp hencoded
    exact mem_encoded (mem_keptSegments h hsegment) hc
  fixedPath := by
    intro encoded hencoded
    obtain ⟨segment, -, rfl⟩ := List.mem_map.mp hencoded
    exact percentEncode_idem (urlSet_path UrlHost.caret).escapes segment
  fixedQuery := percentEncode_idem urlSet_query.escapes _
  fixedFragment := percentEncode_idem urlSet_fragment.escapes _
  noHash := by
    intro hmem
    rcases mem_percentEncode hmem with ⟨-, hout⟩ | heq | hhex
    · nomatch hout
    · nomatch heq
    · exact hhex rfl
  visible := by
    intro piece hpiece c hc
    rcases List.mem_append.mp hpiece with hpath | hrest
    · obtain ⟨encoded, hencoded, rfl⟩ := List.mem_map.mp hpath
      obtain ⟨segment, -, rfl⟩ := List.mem_map.mp hencoded
      exact visible_percentEncode (urlSet_path UrlHost.caret) hc
    rcases List.mem_append.mp hrest with hquery | hfragment
    · rw [(mem_markedPieces hquery).1] at hc
      exact visible_percentEncode urlSet_query hc
    · rw [(mem_markedPieces hfragment).1] at hc
      exact visible_percentEncode urlSet_fragment hc

/-- An empty segment in front of another: the path would begin with two slashes. -/
def startsEmpty : List Text → Bool
  | [] :: _ :: _ => true
  | _ => false

omit [UrlHost] in
theorem percentEncode_eq_nil {set : Char → Bool} {s : Text} (h : percentEncode set s = []) :
    s = [] := by
  cases s with
  | nil => rfl
  | cons c s =>
    rw [percentEncode_cons] at h
    have hhead : percentEncodeChar set c = [] := (List.append_eq_nil_iff.mp h).1
    unfold percentEncodeChar at hhead
    split at hhead
    · cases hbytes : String.utf8EncodeChar c with
      | nil =>
        have hone := one_le_encodeChar c
        rw [hbytes] at hone
        exact absurd hone (by decide)
      | cons byte bytes =>
        rw [hbytes] at hhead
        nomatch hhead
    · nomatch hhead

omit [UrlHost] in
theorem no_slash_start {s : Text} (h : ∀ c ∈ s, c ≠ '/') : ['/'].isPrefixOf s = false := by
  refine Bool.eq_false_iff.mpr fun hprefix => ?_
  obtain ⟨rest, rfl⟩ := isPrefixOf_slash hprefix
  exact h '/' List.mem_cons_self rfl

/-- The result of a value that passes the check. -/
theorem resolve_passed {value : Text} (hvalue : value ≠ [])
    (hlen : utf16Length value ≤ MAX_RETURN_TO_LENGTH)
    (hsafe : hasUnsafeDecodedForm value = false) :
    resolveSafeReturnTo (some value) =
      if startsEmpty (keptSegments value) then DEFAULT_RETURN_TO
      else flatten (resultPieces value) := by
  obtain ⟨hform, -⟩ := hasUnsafeFrom_succ.mp hsafe
  have hnormal := normal_result hform
  have hflatten := flatten_resultPieces value
  obtain ⟨t, spaces, hinput, hsplit, -⟩ := urlInput_spec hform
  obtain ⟨hslash, hone, hplain⟩ := isUnsafeForm_eq_false_iff.mp hform
  have habsolute : isPathAbsolute (urlInput value) = true := by
    have hprefix : (urlInput value) <+: value := by
      rw [hinput]
      exact ⟨spaces, hsplit.symm⟩
    have hnot {start : Text} (h : start.isPrefixOf value = false) :
        start.isPrefixOf (urlInput value) = false := by
      refine Bool.eq_false_iff.mpr fun hstart => ?_
      have hlong := (List.isPrefixOf_iff_prefix.mp hstart).trans hprefix
      rw [List.isPrefixOf_iff_prefix.mpr hlong] at h
      nomatch h
    have hbackslash : ['/', '\\'].isPrefixOf value = false := by
      refine Bool.eq_false_iff.mpr fun hstart => ?_
      obtain ⟨rest, rfl⟩ := List.isPrefixOf_iff_prefix.mp hstart
      exact (isPlainForm_iff.mp hplain '\\' (by simp)).1 rfl
    unfold isPathAbsolute
    rw [hnot hone, hnot hbackslash, hinput, slash_isPrefixOf]
    rfl
  have hpathname : (relativeUrl (urlInput value)).pathname = pathname (resultPath value) := by
    unfold resultPath keptSegments relativeUrl
    rw [← dotSegments_percentEncode (urlSet_path UrlHost.caret)]
    rfl
  have hpath : pathname (resultPath value) = '/' :: join ['/'] (resultPath value) :=
    flatten_slashes hnormal.nonempty
  have hbackslash : (pathname (resultPath value)).contains '\\' = false := by
    refine Bool.eq_false_iff.mpr fun hmem => ?_
    rw [List.contains_iff_mem, hpath] at hmem
    rcases List.mem_cons.mp hmem with heq | hmem
    · nomatch heq
    rcases mem_join hmem with heq | ⟨segment, hsegment, hc⟩
    · nomatch heq
    · exact (hnormal.plain segment hsegment _ hc).2.1 rfl
  have htwo : ['/', '/'].isPrefixOf (pathname (resultPath value)) =
      startsEmpty (keptSegments value) := by
    have hplainPath := hnormal.plain
    unfold resultPath at hplainPath ⊢
    cases hkept : keptSegments value with
    | nil => rfl
    | cons first others =>
      rw [hkept] at hplainPath
      have hfirst : ['/'].isPrefixOf (percentEncode (isPathSet UrlHost.caret) first) = false :=
        no_slash_start fun c hc => (hplainPath _ List.mem_cons_self c hc).1
      unfold pathname
      rw [List.map_cons, List.map_cons, flatten_cons, slashes_isPrefixOf]
      cases first with
      | nil =>
        cases others with
        | nil => rfl
        | cons next others => exact slash_isPrefixOf _
      | cons c first =>
        cases hencoded : percentEncode (isPathSet UrlHost.caret) (c :: first) with
        | nil => nomatch percentEncode_eq_nil hencoded
        | cons d encoded =>
          rw [hencoded] at hfirst
          exact hfirst
  have hempty : value.isEmpty = false := by
    cases value with
    | nil => exact absurd rfl hvalue
    | cons c value => rfl
  have hurl : newUrl value = some (relativeUrl (urlInput value)) := if_pos habsolute
  have horigin : (relativeUrl (urlInput value)).origin = BASE_ORIGIN := rfl
  unfold resolveSafeReturnTo
  dsimp only
  rw [hempty, decide_eq_false (by omega), hsafe, hurl, if_neg (by decide)]
  dsimp only
  rw [horigin, hpathname, htwo, hbackslash, hpath, slash_isPrefixOf, bne_self_eq_false]
  cases startsEmpty (keptSegments value) with
  | true => rfl
  | false =>
    rw [hflatten, hpathname, hpath]
    rfl

end Result

end OpenVac.ReturnTarget
