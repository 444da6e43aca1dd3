/-
  File:      OpenVac/Chat/ReturnSafety.lean
  Subject:   When a return target stays on the site and is its own result.

  * `returnSize`, `utf16Length_result` -- the length of a result, from the value.
  * `returnsSafely_passed` -- a value that passes the check.
  * `return_target_iff` -- every value; `escaped_slash_first` -- one that goes wrong.
-/
import OpenVac.Chat.ReturnUrl

namespace OpenVac.ReturnTarget

open JsString PercentCoding UrlPath

section Result

variable [UrlHost]

/-! ## 1. The length of a result -/

/-- How many characters a URL writes for a text. -/
def encodedSize (set : Char → Bool) (s : Text) : Nat :=
  (s.map fun c => if set c then 3 * (String.utf8EncodeChar c).length else 1).sum

def markedSize (set : Char → Bool) (s : Text) : Nat :=
  if s.isEmpty then 0 else 1 + encodedSize set s

/-- The characters of what is left of a value without its dot segments, each part encoded. -/
def returnSize (value : Text) : Nat :=
  ((keptSegments value).map fun segment =>
      1 + encodedSize (isPathSet UrlHost.caret) segment).sum +
    (markedSize isSpecialQuerySet (queryText (afterPath (urlInput value))) +
      markedSize isFragmentSet (fragmentText (afterPath (urlInput value))))

omit [UrlHost] in
theorem length_percentEncode (set : Char → Bool) (s : Text) :
    (percentEncode set s).length = encodedSize set s := by
  induction s with
  | nil => rfl
  | cons c s ih =>
    have hbytes (bytes : List UInt8) :
        (bytes.flatMap percentEncodeByte).length = 3 * bytes.length := by
      induction bytes with
      | nil => rfl
      | cons byte bytes ih =>
        have hthree : (percentEncodeByte byte).length = 3 := rfl
        rw [List.flatMap_cons, List.length_append, ih, hthree, List.length_cons]
        omega
    have hhead : (percentEncodeChar set c).length =
        if set c then 3 * (String.utf8EncodeChar c).length else 1 := by
      unfold percentEncodeChar
      split
      · exact hbytes _
      · rfl
    rw [percentEncode_cons, List.length_append, hhead, ih]
    rfl

omit [UrlHost] in
theorem length_flatten (pieces : List Piece) :
    (flatten pieces).length = (pieces.map fun piece => 1 + piece.2.length).sum := by
  induction pieces with
  | nil => rfl
  | cons piece pieces ih =>
    rw [flatten_cons, List.length_cons, List.length_append, ih, List.map_cons, List.sum_cons]
    omega

omit [UrlHost] in
theorem utf16Length_visible {s : Text} (h : ∀ c ∈ s, 0x20 < c.toNat ∧ c.toNat ≤ 0x7E) :
    utf16Length s = s.length := by
  induction s with
  | nil => rfl
  | cons c s ih =>
    have hc := h c List.mem_cons_self
    rw [utf16Length_cons, ih fun d hd => h d (List.mem_cons_of_mem c hd), if_pos (by omega),
      List.length_cons]
    omega

theorem utf16Length_result {value : Text} (h : isUnsafeForm value = false) :
    utf16Length (flatten (resultPieces value)) = returnSize value := by
  have hmarked (set : Char → Bool) (mark : Char) (s : Text) :
      ((markedPieces mark (percentEncode set s)).map fun piece => 1 + piece.2.length).sum =
        markedSize set s := by
    unfold markedPieces markedSize
    cases s with
    | nil => rfl
    | cons c s =>
      cases hencoded : percentEncode set (c :: s) with
      | nil => nomatch percentEncode_eq_nil hencoded
      | cons d more =>
        show 1 + (d :: more).length + 0 = _
        rw [← hencoded, length_percentEncode]
        rfl
  have hpath (path : List Text) (set : Char → Bool) :
      (((path.map (percentEncode set)).map fun segment => (('/', segment) : Piece)).map
        fun piece => 1 + piece.2.length).sum =
        (path.map fun segment => 1 + encodedSize set segment).sum := by
    rw [List.map_map, List.map_map]
    congr 1
    refine List.map_congr_left fun segment _ => ?_
    show 1 + (percentEncode set segment).length = _
    rw [length_percentEncode]
  have hvisible : utf16Length (flatten (resultPieces value)) =
      (flatten (resultPieces value)).length := utf16Length_visible (normal_result h).text_visible
  rw [hvisible, length_flatten]
  unfold resultPieces targetPieces
  rw [List.map_append, List.map_append, List.sum_append, List.sum_append, hmarked, hmarked, hpath]
  rfl

/-! ## 2. Return targets -/

/-- A browser stays on the site: one leading slash, the base's origin, and none of the forms the
    check looks at begins with two slashes or has a backslash or a control character. -/
def OnSite (result : Text) : Prop :=
  (newUrl result).map (·.origin) = some BASE_ORIGIN ∧ ['/'].isPrefixOf result = true ∧
    ∀ k < 4, ∀ form, decoding k result = some form →
      ['/', '/'].isPrefixOf form = false ∧ isPlainForm form = true

def ReturnsSafely (value : Option Text) : Prop :=
  (resolveSafeReturnTo value = DEFAULT_RETURN_TO ∨ OnSite (resolveSafeReturnTo value)) ∧
    resolveSafeReturnTo (some (resolveSafeReturnTo value)) = resolveSafeReturnTo value

/-- The values that get the fallback. -/
def isRefused (value : Text) : Bool :=
  value.isEmpty || decide (utf16Length value > MAX_RETURN_TO_LENGTH) ||
    hasUnsafeDecodedForm value || startsEmpty (keptSegments value)

theorem resolve_refused {value : Text} (h : isRefused value = true) :
    resolveSafeReturnTo (some value) = DEFAULT_RETURN_TO := by
  unfold isRefused at h
  by_cases hfirst : (value.isEmpty || decide (utf16Length value > MAX_RETURN_TO_LENGTH) ||
      hasUnsafeDecodedForm value) = true
  · unfold resolveSafeReturnTo
    dsimp only
    rw [if_pos hfirst]
  · have hstart : startsEmpty (keptSegments value) = true :=
      (Bool.or_eq_true _ _ ▸ h).resolve_left hfirst
    rw [Bool.not_eq_true, Bool.or_eq_false_iff, Bool.or_eq_false_iff,
      decide_eq_false_iff_not] at hfirst
    obtain ⟨⟨hempty, hlen⟩, hsafe⟩ := hfirst
    have hne : value ≠ [] := by
      rintro rfl
      nomatch hempty
    rw [resolve_passed hne (by omega) hsafe, hstart]
    rfl

/-- The pieces of a result whose path does not begin with an empty segment. -/
theorem resultPieces_rooted {value : Text} (hform : isUnsafeForm value = false)
    (hstart : startsEmpty (keptSegments value) = false) :
    ∃ more, resultPieces value =
        ('/', percentEncode (isPathSet UrlHost.caret) ((keptSegments value).headD [])) :: more ∧
      Rooted (percentEncode (isPathSet UrlHost.caret) ((keptSegments value).headD [])) more := by
  have hnormal := normal_result hform
  cases hkept : keptSegments value with
  | nil =>
    refine absurd ?_ hnormal.nonempty
    unfold resultPath
    rw [hkept]
    rfl
  | cons first others =>
    rw [hkept] at hstart
    refine ⟨(others.map fun segment =>
        ('/', percentEncode (isPathSet UrlHost.caret) segment)) ++
          (markedPieces '?' (percentEncode isSpecialQuerySet
            (queryText (afterPath (urlInput value)))) ++
          markedPieces '#' (percentEncode isFragmentSet
            (fragmentText (afterPath (urlInput value))))), ?_, ?_⟩
    · unfold resultPieces targetPieces
      rw [hkept, List.map_map]
      rfl
    · intro hnil piece hpiece
      obtain rfl : first = [] := percentEncode_eq_nil hnil
      cases others with
      | cons next others => nomatch hstart
      | nil =>
        have hmem := List.mem_of_mem_head? hpiece
        rcases List.mem_append.mp hmem with hnone | htail
        · nomatch hnone
        rcases List.mem_append.mp htail with hquery | hfragment
        · rw [(mem_markedPieces hquery).1]
          exact (by decide : '?' ≠ '/')
        · rw [(mem_markedPieces hfragment).1]
          exact (by decide : '#' ≠ '/')

omit [UrlHost] in
theorem reachesSlash_percentEncode {set : Char → Bool} (hset : UrlSet set) {s : Text}
    (h : ∀ c ∈ s, c ≠ '/' ∧ c ≠ '\\' ∧ isPathEnd c = false) (n : Nat) :
    reachesSlash n (percentEncode set s) = reachesSlash n s := by
  cases n with
  | zero => rfl
  | succ n =>
    rw [reachesSlash, reachesSlash, decode_percentEncode hset.escapes,
      no_slash_start fun c hc => (h c hc).1,
      no_slash_start fun c hc => (@mem_encoded set s h c hc).1]

omit [UrlHost] in
theorem default_forms {k : Nat} (hk : k < 4) {form : Text}
    (hform : decoding k DEFAULT_RETURN_TO = some form) :
    ['/', '/'].isPrefixOf form = false := by
  have hgood := decoding_of_hasUnsafeFrom (n := 4) (by decide) hk hform
  exact (isUnsafeForm_eq_false_iff.mp hgood).2.1

/-- **A value that passes the check**: its result stays on the site and is its own result
    exactly where its first segment has no slash in front, and the result is not too long. -/
theorem returnsSafely_passed {value : Text} (h : isRefused value = false) :
    ReturnsSafely (some value) ↔
      reachesSlash 4 ((keptSegments value).headD []) = false ∧
        returnSize value ≤ MAX_RETURN_TO_LENGTH := by
  unfold isRefused at h
  rw [Bool.or_eq_false_iff, Bool.or_eq_false_iff, Bool.or_eq_false_iff,
    decide_eq_false_iff_not] at h
  obtain ⟨⟨⟨hempty, hlen⟩, hsafe⟩, hstart⟩ := h
  have hne : value ≠ [] := by
    rintro rfl
    nomatch hempty
  obtain ⟨hform, -⟩ := hasUnsafeFrom_succ.mp hsafe
  have hresult : resolveSafeReturnTo (some value) = flatten (resultPieces value) := by
    rw [resolve_passed hne (by omega) hsafe, hstart]
    rfl
  obtain ⟨more, hpieces, hrooted⟩ := resultPieces_rooted hform hstart
  have hnormal := normal_result hform
  have hcut : Cut (resultPieces value) := cut_of_marked (marked_targetPieces _ _ _)
  have hpiecesSafe := resultPieces_safe hsafe
  have hfirst : ∀ c ∈ (keptSegments value).headD [], c ≠ '/' ∧ c ≠ '\\' ∧ isPathEnd c = false := by
    cases hkept : keptSegments value with
    | nil => exact fun c hc => nomatch hc
    | cons first others =>
      exact mem_keptSegments hform (by rw [hkept]; exact List.mem_cons_self)
  have hslash := reachesSlash_percentEncode (urlSet_path UrlHost.caret) hfirst 4
  rw [hpieces] at hcut hpiecesSafe
  have honeSlash : ['/', '/'].isPrefixOf (flatten (resultPieces value)) = false := by
    rw [hpieces]
    refine one_slash hrooted (no_slash_start fun c hc => ?_)
    exact (mem_encoded hfirst hc).1
  unfold ReturnsSafely
  rw [hresult]
  constructor
  · rintro ⟨hsite, hidem⟩
    have hreach : reachesSlash 4 ((keptSegments value).headD []) = false := by
      refine Bool.eq_false_iff.mpr fun hreach => ?_
      rw [← hslash] at hreach
      obtain ⟨k, hk, form, hdecoding, htwo⟩ := reachesSlash_decoding hcut hreach hpiecesSafe
      rw [← hpieces] at hdecoding
      rcases hsite with hdefault | ⟨-, -, hforms⟩
      · rw [hdefault] at hdecoding
        rw [default_forms hk hdecoding] at htwo
        nomatch htwo
      · rw [(hforms k hk form hdecoding).1] at htwo
        nomatch htwo
    refine ⟨hreach, Nat.le_of_not_lt fun hlong => ?_⟩
    have hrefused : isRefused (flatten (resultPieces value)) = true := by
      unfold isRefused
      rw [utf16Length_result hform, decide_eq_true hlong, Bool.or_true, Bool.true_or, Bool.true_or]
    rw [resolve_refused hrefused] at hidem
    have hsize := utf16Length_result hform
    rw [← hidem] at hsize
    have hfive : utf16Length DEFAULT_RETURN_TO = 5 := rfl
    have hmax : MAX_RETURN_TO_LENGTH = 2048 := rfl
    omega
  · rintro ⟨hreach, hsize⟩
    rw [← hslash] at hreach
    have hpassed : hasUnsafeDecodedForm (flatten (resultPieces value)) = false := by
      rw [hpieces]
      exact pieces_hasUnsafeFrom hcut hrooted hreach hpiecesSafe
    rw [← utf16Length_result hform] at hsize
    refine ⟨.inr ⟨?_, ?_, ?_⟩, resolve_normal hnormal hsize hpassed⟩
    · have hurl := newUrl_normal hnormal honeSlash
      have hsame : newUrl (flatten (resultPieces value)) = _ := hurl
      rw [hsame]
      rfl
    · rw [hpieces]
      exact slash_isPrefixOf _
    · intro k hk form hdecoding
      have hgood := decoding_of_hasUnsafeFrom hpassed hk hdecoding
      exact (isUnsafeForm_eq_false_iff.mp hgood).2

/-- **Return targets**: the claim holds of a value exactly where it gets the fallback, or the
    first segment it keeps has no form with a slash in front and its result has a length that
    the function takes. -/
theorem return_target_iff (value : Option Text) :
    ReturnsSafely value ↔
      ∀ target, value = some target → isRefused target = false →
        reachesSlash 4 ((keptSegments target).headD []) = false ∧
          returnSize target ≤ MAX_RETURN_TO_LENGTH := by
  have hfallback {value : Option Text} (h : resolveSafeReturnTo value = DEFAULT_RETURN_TO) :
      ReturnsSafely value := by
    unfold ReturnsSafely
    rw [h]
    exact ⟨.inl rfl, resolve_default⟩
  cases value with
  | none => exact ⟨(fun _ _ h => nomatch h), fun _ => hfallback rfl⟩
  | some target =>
    cases hrefused : isRefused target with
    | true =>
      refine ⟨fun _ other hother hpassed => ?_, fun _ => hfallback (resolve_refused hrefused)⟩
      obtain rfl := Option.some.inj hother
      rw [hrefused] at hpassed
      nomatch hpassed
    | false =>
      rw [returnsSafely_passed hrefused]
      constructor
      · intro h other hother _
        rw [← Option.some.inj hother]
        exact h
      · exact fun h => h target rfl hrefused

end Result

/-- `/a/../%2fevil`. -/
def climbingTarget : Text :=
  ['/', 'a', '/', '.', '.', '/', '%', '2', 'f', 'e', 'v', 'i', 'l']

/-- Removing `/a/..` puts an escaped slash first. -/
theorem escaped_slash_first : ¬ ∀ [UrlHost], ∀ value, ReturnsSafely value := by
  intro h
  let _ : UrlHost := ⟨true, fun _ => none⟩
  have hdecoded : decodeURIComponent climbingTarget =
      some ['/', 'a', '/', '.', '.', '/', '/', 'e', 'v', 'i', 'l'] :=
    decode_eq_some_iff.mpr (by decide)
  have hplain : decodeURIComponent ['/', 'a', '/', '.', '.', '/', '/', 'e', 'v', 'i', 'l'] =
      some ['/', 'a', '/', '.', '.', '/', '/', 'e', 'v', 'i', 'l'] := decode_plain (by decide)
  have hsafe : hasUnsafeDecodedForm climbingTarget = false :=
    hasUnsafeFrom_succ.mpr ⟨by decide, _, hdecoded, .inr
      (hasUnsafeFrom_succ.mpr ⟨by decide, _, hplain, .inl rfl⟩)⟩
  have hrefused : isRefused climbingTarget = false := by
    unfold isRefused
    rw [hsafe]
    decide
  have hkept : (keptSegments climbingTarget).headD [] = ['%', '2', 'f', 'e', 'v', 'i', 'l'] := by
    decide
  have hfirst : decodeURIComponent ['%', '2', 'f', 'e', 'v', 'i', 'l'] =
      some ['/', 'e', 'v', 'i', 'l'] :=
    decode_eq_some_iff.mpr (by decide)
  have hreach : reachesSlash 4 ((keptSegments climbingTarget).headD []) = true := by
    rw [hkept, reachesSlash_succ hfirst, reachesSlash]
    rfl
  have hnot := ((returnsSafely_passed hrefused).mp (h (some climbingTarget))).1
  rw [hreach] at hnot
  exact Bool.false_ne_true hnot.symm

end OpenVac.ReturnTarget
