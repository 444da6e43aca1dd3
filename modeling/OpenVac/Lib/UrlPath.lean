/-
  File:      OpenVac/Lib/UrlPath.lean
  Subject:   The path of a URL as the parser reads it: percent-encode sets and dot segments.

  * `isQuerySet`, `isPathSet`, `isFragmentSet` -- what is written encoded; `UrlSet` -- what these
    sets have in common.
  * `isSingleDot`, `isDoubleDot`, `dotSegments` -- the path state.
  * `dotSegments_percentEncode` -- it does not matter whether a path is encoded before or after.
  * `dotSegments_clean` -- a path without dot segments is left as it is.
-/
import OpenVac.Lib.Digest
import OpenVac.Lib.PercentCoding

open JsString PercentCoding

namespace UrlPath

/-! ## 1. The parser -/

def isQuerySet (c : Char) : Bool :=
  decide (c.toNat < 0x20) || decide (0x7E < c.toNat) ||
    [0x20, 0x22, 0x23, 0x3C, 0x3E].contains c.toNat

/-- The query of a special scheme. -/
def isSpecialQuerySet (c : Char) : Bool := isQuerySet c || c.toNat == 0x27

/-- U+005E came into the path set late: a host has it or not. -/
def isPathSet (caret : Bool) (c : Char) : Bool :=
  isQuerySet c || [0x3F, 0x60, 0x7B, 0x7D].contains c.toNat ||
    (caret && c.toNat == 0x5E)

def isFragmentSet (c : Char) : Bool :=
  decide (c.toNat < 0x20) || decide (0x7E < c.toNat) ||
    [0x20, 0x22, 0x3C, 0x3E, 0x60].contains c.toNat

def isSingleDot (segment : Text) : Bool :=
  [['.'], ['%', '2', 'e']].contains (lowerAscii segment)

def isDoubleDot (segment : Text) : Bool :=
  [['.', '.'], ['.', '%', '2', 'e'], ['%', '2', 'e', '.'],
    ['%', '2', 'e', '%', '2', 'e']].contains (lowerAscii segment)

/-- The end of a segment: the segments kept so far, and whether it is the last. -/
def endSegment (path : List Text) (segment : Text) (last : Bool) : List Text :=
  if isDoubleDot segment then path.dropLast ++ (if last then [[]] else [])
  else if isSingleDot segment then path ++ (if last then [[]] else [])
  else path ++ [segment]

/-- The path state. -/
def dotSegments : List Text → List Text → List Text
  | path, [] => path
  | path, segment :: more => dotSegments (endSegment path segment more.isEmpty) more

/-! ## 2. What every set has -/

/-- What every set of the URL parser has. -/
structure UrlSet (set : Char → Bool) : Prop where
  escapes : isEncodeSet set
  dot : set '.' = false
  visible : ∀ c, set c = false → 0x20 < c.toNat ∧ c.toNat ≤ 0x7E

theorem urlSet_of {set : Char → Bool} (codes : List Nat)
    (hset : ∀ c, set c = false ↔
      ¬ c.toNat < 0x20 ∧ ¬ 0x7E < c.toNat ∧ c.toNat ∉ codes)
    (hspace : 0x20 ∈ codes)
    (hcodes : ∀ n ∈ codes, n ≠ 0x25 ∧ n ≠ 0x2E ∧ ¬ (0x30 ≤ n ∧ n ≤ 0x39) ∧
      ¬ (0x41 ≤ n ∧ n ≤ 0x46) ∧ ¬ (0x61 ≤ n ∧ n ≤ 0x66)) : UrlSet set where
  escapes := by
    intro c hc
    rw [hset]
    rcases hc with rfl | hhex
    · exact ⟨by decide, by decide, fun h => (hcodes _ h).1 rfl⟩
    · have hrange := hexValue_range hhex
      refine ⟨by omega, by omega, fun h => ?_⟩
      obtain ⟨-, -, hdigit, hupper, hlower⟩ := hcodes _ h
      omega
  dot := by
    rw [hset]
    exact ⟨by decide, by decide, fun h => (hcodes _ h).2.1 rfl⟩
  visible := by
    intro c hc
    obtain ⟨hlow, hhigh, hout⟩ := (hset c).mp hc
    have hne : c.toNat ≠ 0x20 := fun heq => hout (heq ▸ hspace)
    omega

theorem urlSet_query : UrlSet isSpecialQuerySet := by
  refine urlSet_of [0x20, 0x22, 0x23, 0x3C, 0x3E, 0x27] (fun c => ?_) (by decide)
    (by decide)
  simp [isSpecialQuerySet, isQuerySet, and_assoc]

theorem urlSet_fragment : UrlSet isFragmentSet := by
  refine urlSet_of [0x20, 0x22, 0x3C, 0x3E, 0x60] (fun c => ?_) (by decide) (by decide)
  simp [isFragmentSet, and_assoc]

theorem urlSet_path (caret : Bool) : UrlSet (isPathSet caret) := by
  cases caret with
  | false =>
    refine urlSet_of [0x20, 0x22, 0x23, 0x3C, 0x3E, 0x3F, 0x60, 0x7B, 0x7D]
      (fun c => ?_) (by decide) (by decide)
    simp [isPathSet, isQuerySet, and_assoc]
  | true =>
    refine urlSet_of [0x20, 0x22, 0x23, 0x3C, 0x3E, 0x3F, 0x60, 0x7B, 0x7D, 0x5E]
      (fun c => ?_) (by decide) (by decide)
    simp [isPathSet, isQuerySet, and_assoc]

/-! ## 3. Dots -/

theorem lowerAsciiChar_eq {c d : Char} (h : lowerAsciiChar c = d)
    (hd : ¬ ('a' ≤ d ∧ d ≤ 'z')) : c = d := by
  unfold lowerAsciiChar at h
  split at h
  · rename_i hupper
    have hle : 'A'.toNat ≤ c.toNat ∧ c.toNat ≤ 'Z'.toNat := hupper
    have hA : 'A'.toNat = 65 := rfl
    have hZ : 'Z'.toNat = 90 := rfl
    have hvalid : (c.toNat + 32).isValidChar := .inl (by omega)
    have hnat : d.toNat = c.toNat + 32 := by
      rw [← h]
      exact Utf8.toNat_ofNat hvalid
    refine absurd ⟨?_, ?_⟩ hd
    · show 'a'.toNat ≤ d.toNat
      have ha : 'a'.toNat = 97 := rfl
      omega
    · show d.toNat ≤ 'z'.toNat
      have hz : 'z'.toNat = 122 := rfl
      omega
  · exact h

theorem hexValue_of_lower_e {c : Char} (h : lowerAsciiChar c = 'e') : hexValue c = some 14 := by
  unfold lowerAsciiChar at h
  split at h
  · rename_i hupper
    have hle : 'A'.toNat ≤ c.toNat ∧ c.toNat ≤ 'Z'.toNat := hupper
    have hA : 'A'.toNat = 65 := rfl
    have hZ : 'Z'.toNat = 90 := rfl
    have hvalid : (c.toNat + 32).isValidChar := .inl (by omega)
    have hnat : 'e'.toNat = c.toNat + 32 := by
      rw [← h]
      exact Utf8.toNat_ofNat hvalid
    have he : 'e'.toNat = 101 := rfl
    have hc : c = 'E' := Char.ext (UInt32.toNat_inj.mp (by show c.toNat = 69; omega))
    rw [hc]
    rfl
  · rw [h]
    rfl

/-- A dot, written as itself or escaped. -/
theorem octets_dot {s form : Text}
    (h : lowerAscii s = '.' :: form ∨ lowerAscii s = '%' :: '2' :: 'e' :: form) :
    ∃ rest, lowerAscii rest = form ∧ octets s = (octets rest).map (0x2E :: ·) := by
  rcases h with h | h
  · obtain ⟨c, rest, rfl, hc, hrest⟩ := List.map_eq_cons_iff.mp h
    obtain rfl := lowerAsciiChar_eq hc (by decide)
    exact ⟨rest, hrest, octets_cons (by decide) rest⟩
  · obtain ⟨c, afterPercent, rfl, hc, hpercent⟩ := List.map_eq_cons_iff.mp h
    obtain rfl := lowerAsciiChar_eq hc (by decide)
    obtain ⟨d, afterTwo, rfl, hd, htwo⟩ := List.map_eq_cons_iff.mp hpercent
    obtain rfl := lowerAsciiChar_eq hd (by decide)
    obtain ⟨e, rest, rfl, he, hrest⟩ := List.map_eq_cons_iff.mp htwo
    refine ⟨rest, hrest, ?_⟩
    rw [octets_percent, hexValue_of_lower_e he]
    rfl

theorem octets_lower_nil {s : Text} (h : lowerAscii s = []) : octets s = some [] := by
  rw [List.map_eq_nil_iff.mp h]
  rfl

theorem octets_singleDot {s : Text} (h : isSingleDot s = true) : octets s = some [0x2E] := by
  have hform : lowerAscii s = '.' :: [] ∨ lowerAscii s = '%' :: '2' :: 'e' :: [] := by
    simpa [isSingleDot] using h
  obtain ⟨rest, hrest, hoctets⟩ := octets_dot hform
  rw [hoctets, octets_lower_nil hrest]
  rfl

theorem octets_doubleDot {s : Text} (h : isDoubleDot s = true) :
    octets s = some [0x2E, 0x2E] := by
  have hform : ∃ form, (lowerAscii s = '.' :: form ∨ lowerAscii s = '%' :: '2' :: 'e' :: form) ∧
      (form = '.' :: [] ∨ form = '%' :: '2' :: 'e' :: []) := by
    have hcases : lowerAscii s = ['.', '.'] ∨ lowerAscii s = ['.', '%', '2', 'e'] ∨
        lowerAscii s = ['%', '2', 'e', '.'] ∨ lowerAscii s = ['%', '2', 'e', '%', '2', 'e'] := by
      simpa [isDoubleDot] using h
    rcases hcases with h | h | h | h
    · exact ⟨_, .inl h, .inl rfl⟩
    · exact ⟨_, .inl h, .inr rfl⟩
    · exact ⟨_, .inr h, .inl rfl⟩
    · exact ⟨_, .inr h, .inr rfl⟩
  obtain ⟨form, hfirst, hsecond⟩ := hform
  obtain ⟨rest, hrest, hoctets⟩ := octets_dot hfirst
  rw [← hrest] at hsecond
  obtain ⟨last, hlast, hmore⟩ := octets_dot hsecond
  rw [hoctets, hmore, octets_lower_nil hlast]
  rfl

/-- Text whose bytes are dots is written as it is. -/
theorem percentEncode_dots {set : Char → Bool} (hset : UrlSet set) {s : Text} {n : Nat}
    (h : octets s = some (List.replicate n 0x2E)) : percentEncode set s = s := by
  refine percentEncode_of_plain fun c hc => ?_
  rcases octets_mem h hc with heq | hhex | hall
  · exact hset.escapes c (.inl heq)
  · exact hset.escapes c (.inr hhex)
  · cases hbytes : String.utf8EncodeChar c with
    | nil =>
      have hone := one_le_encodeChar c
      rw [hbytes] at hone
      exact absurd hone (by decide)
    | cons byte bytes =>
      have hmem : byte ∈ String.utf8EncodeChar c := by
        rw [hbytes]
        exact List.mem_cons_self
      have hdot : byte = UInt8.ofNat '.'.toNat := (List.mem_replicate.mp (hall byte hmem)).2
      rw [hdot] at hmem
      rw [encodeChar_mem_ascii (by decide) hmem]
      exact hset.dot

/-- **Encoding makes no dot segment** and hides none. -/
theorem isDoubleDot_percentEncode {set : Char → Bool} (hset : UrlSet set) (s : Text) :
    isDoubleDot (percentEncode set s) = isDoubleDot s := by
  have hkeep (h : octets s = some [0x2E, 0x2E]) : percentEncode set s = s :=
    percentEncode_dots (n := 2) hset h
  cases hraw : isDoubleDot s with
  | true => rw [hkeep (octets_doubleDot hraw), hraw]
  | false =>
    refine Bool.eq_false_iff.mpr fun hencoded => ?_
    have hbytes := octets_doubleDot hencoded
    rw [octets_percentEncode hset.escapes] at hbytes
    rw [hkeep hbytes, hraw] at hencoded
    nomatch hencoded

theorem isSingleDot_percentEncode {set : Char → Bool} (hset : UrlSet set) (s : Text) :
    isSingleDot (percentEncode set s) = isSingleDot s := by
  have hkeep (h : octets s = some [0x2E]) : percentEncode set s = s :=
    percentEncode_dots (n := 1) hset h
  cases hraw : isSingleDot s with
  | true => rw [hkeep (octets_singleDot hraw), hraw]
  | false =>
    refine Bool.eq_false_iff.mpr fun hencoded => ?_
    have hbytes := octets_singleDot hencoded
    rw [octets_percentEncode hset.escapes] at hbytes
    rw [hkeep hbytes, hraw] at hencoded
    nomatch hencoded

/-! ## 4. Paths -/

theorem endSegment_percentEncode {set : Char → Bool} (hset : UrlSet set) (path : List Text)
    (segment : Text) (last : Bool) :
    endSegment (path.map (percentEncode set)) (percentEncode set segment) last =
      (endSegment path segment last).map (percentEncode set) := by
  have hend : (if last then [[]] else [] : List Text) =
      (if last then [[]] else [] : List Text).map (percentEncode set) := by cases last <;> rfl
  unfold endSegment
  rw [isDoubleDot_percentEncode hset, isSingleDot_percentEncode hset]
  split
  · rw [List.map_append, List.map_dropLast, ← hend]
  split
  · rw [List.map_append, ← hend]
  · rw [List.map_append, List.map_singleton]

/-- **Encoding and the path state** do not get in each other's way. -/
theorem dotSegments_percentEncode {set : Char → Bool} (hset : UrlSet set)
    (path more : List Text) :
    dotSegments (path.map (percentEncode set)) (more.map (percentEncode set)) =
      (dotSegments path more).map (percentEncode set) := by
  induction more generalizing path with
  | nil => rfl
  | cons segment more ih =>
    rw [List.map_cons, dotSegments, dotSegments, List.isEmpty_map,
      endSegment_percentEncode hset, ih]

/-- No dot segment. -/
def isClean (segment : Text) : Bool := !isDoubleDot segment && !isSingleDot segment

theorem isClean_iff {segment : Text} :
    isClean segment = true ↔ isDoubleDot segment = false ∧ isSingleDot segment = false := by
  unfold isClean
  rw [Bool.and_eq_true, Bool.not_eq_true', Bool.not_eq_true']

/-- What a segment leaves: kept ones, itself where it is clean, or the empty one at the end. -/
theorem mem_endSegment {path : List Text} {segment kept : Text} {last : Bool}
    (h : kept ∈ endSegment path segment last) :
    kept ∈ path ∨ kept = segment ∧ isClean segment = true ∨ kept = [] := by
  have hend (h : kept ∈ (if last then [[]] else [] : List Text)) : kept = [] := by
    cases last with
    | false => nomatch h
    | true => exact List.mem_singleton.mp h
  unfold endSegment at h
  split at h
  · rcases List.mem_append.mp h with hold | hnew
    · exact .inl (List.dropLast_subset path hold)
    · exact .inr (.inr (hend hnew))
  split at h
  · rcases List.mem_append.mp h with hold | hnew
    · exact .inl hold
    · exact .inr (.inr (hend hnew))
  · rename_i hdouble hsingle
    rcases List.mem_append.mp h with hold | hnew
    · exact .inl hold
    · exact .inr (.inl ⟨List.mem_singleton.mp hnew,
        isClean_iff.mpr ⟨Bool.eq_false_iff.mpr hdouble, Bool.eq_false_iff.mpr hsingle⟩⟩)

/-- A kept segment was there, or is the empty one at the end. -/
theorem mem_dotSegments {path more : List Text} {kept : Text} (h : kept ∈ dotSegments path more) :
    kept ∈ path ∨ kept ∈ more ∧ isClean kept = true ∨ kept = [] := by
  induction more generalizing path with
  | nil => exact .inl h
  | cons segment more ih =>
    rcases ih h with hpath | ⟨hmore, hclean⟩ | hnil
    · rcases mem_endSegment hpath with hold | ⟨rfl, hclean⟩ | hnil
      · exact .inl hold
      · exact .inr (.inl ⟨List.mem_cons_self, hclean⟩)
      · exact .inr (.inr hnil)
    · exact .inr (.inl ⟨List.mem_cons_of_mem _ hmore, hclean⟩)
    · exact .inr (.inr hnil)

/-- **What the path state keeps is clean.** -/
theorem isClean_of_mem {more : List Text} {kept : Text} (h : kept ∈ dotSegments [] more) :
    isClean kept = true := by
  rcases mem_dotSegments h with hpath | ⟨-, hclean⟩ | rfl
  · nomatch hpath
  · exact hclean
  · rfl

/-- A clean path is left as it is. -/
theorem dotSegments_clean {path more : List Text} (h : ∀ segment ∈ more, isClean segment = true) :
    dotSegments path more = path ++ more := by
  induction more generalizing path with
  | nil => exact (List.append_nil path).symm
  | cons segment more ih =>
    obtain ⟨hdouble, hsingle⟩ := isClean_iff.mp (h segment List.mem_cons_self)
    have hend : endSegment path segment more.isEmpty = path ++ [segment] := by
      unfold endSegment
      rw [hdouble, hsingle]
      rfl
    rw [dotSegments, hend, ih fun other hother => h other (List.mem_cons_of_mem _ hother),
      List.append_assoc]
    rfl

/-- The last segment always leaves one. -/
theorem dotSegments_ne_nil {path more : List Text} (h : more ≠ []) :
    dotSegments path more ≠ [] := by
  induction more generalizing path with
  | nil => exact absurd rfl h
  | cons segment more ih =>
    cases more with
    | nil =>
      show endSegment path segment true ≠ []
      unfold endSegment
      split
      · simp
      split
      · simp
      · simp
    | cons next more => exact ih (List.cons_ne_nil next more)

end UrlPath
