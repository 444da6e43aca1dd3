/-
  File:      OpenVac/Chat/ReturnTarget.lean
  Subject:   Where a visitor goes after the login: `resolveSafeReturnTo` of lib/safe-return-to.ts.

  * `hasUnsafeDecodedForm` -- the value and what it is decoded to, four forms at most.
  * `newUrl` -- `new URL(value, base)`: a value with one leading slash keeps the base's origin.
  * `hasUnsafeFrom_pieces` -- what the loop passes, it passes piece by piece.
  * `pieces_hasUnsafeFrom`, `reachesSlash_decoding` -- the way back: safe pieces pass, where no
    form of the first has a slash in front.
-/
import Mathlib.Tactic.Common
import OpenVac.Lib.JsText
import OpenVac.Lib.UrlPath

namespace OpenVac.ReturnTarget

open JsString PercentCoding UrlPath

/-! ## 1. The check -/

def DEFAULT_RETURN_TO : Text := ['/', 'c', 'h', 'a', 't']

def MAX_RETURN_TO_LENGTH : Nat := 2048

/-- `/[\u0000-\u001f\u007f]/`. -/
def isControlCharacter (c : Char) : Bool := decide (c.toNat < 0x20) || c.toNat == 0x7F

/-- `!current.startsWith("/") || current.startsWith("//") || current.includes("\\") ||
    CONTROL_CHARACTER.test(current)`. -/
def isUnsafeForm (current : Text) : Bool :=
  !(['/'].isPrefixOf current) || ['/', '/'].isPrefixOf current || current.contains '\\' ||
    current.any isControlCharacter

/-- The loop, with the number of rounds that are left. -/
def hasUnsafeFrom : Nat → Text → Bool
  | 0, _ => true
  | depth + 1, current =>
      if isUnsafeForm current then true
      else
        match decodeURIComponent current with
        | none => true
        | some decoded => if decoded = current then false else hasUnsafeFrom depth decoded

def hasUnsafeDecodedForm (value : Text) : Bool := hasUnsafeFrom 4 value

/-! ## 2. The URL parser -/

structure TargetUrl where
  origin : Text
  pathname : Text
  search : Text
  hash : Text
  deriving DecidableEq

/-- The URL parser of the host: whether its path percent-encode set has U+005E (it was added to
    the standard late), and what it yields of a value that does not begin with one slash. -/
class UrlHost where
  caret : Bool
  parse : Text → Option TargetUrl

def isC0OrSpace (c : Char) : Bool := decide (c.toNat ≤ 0x20)

/-- What the parser reads: C0 controls and spaces at the ends, tabs and newlines are dropped. -/
def urlInput (value : Text) : Text :=
  ((value.dropWhile isC0OrSpace).rdropWhile isC0OrSpace).filter fun c =>
    !(c.toNat == 0x09 || c.toNat == 0x0A || c.toNat == 0x0D)

def isPathEnd (c : Char) : Bool := c == '?' || c == '#'

/-- The segments after the first slash; `\` is a slash here. -/
def segments (input : Text) : List Text :=
  split '/' (((input.drop 1).takeWhile fun c => !isPathEnd c).map fun c =>
    if c = '\\' then '/' else c)

/-- The query and the fragment with what begins them. -/
def afterPath (input : Text) : Text := (input.drop 1).dropWhile fun c => !isPathEnd c

def queryText (rest : Text) : Text :=
  match rest with
  | '?' :: more => more.takeWhile (· != '#')
  | _ => []

def fragmentText (rest : Text) : Text := (rest.dropWhile (· != '#')).drop 1

def BASE_ORIGIN : Text := "https://openvac.invalid".toList

def pathname (path : List Text) : Text := flatten (path.map fun segment => ('/', segment))

/-- An empty query or fragment is not written. -/
def markedText (mark : Char) (s : Text) : Text := if s.isEmpty then [] else mark :: s

section Parser

variable [UrlHost]

/-- One leading slash: the authority is the base's. -/
def relativeUrl (input : Text) : TargetUrl where
  origin := BASE_ORIGIN
  pathname := pathname
    (dotSegments [] ((segments input).map (percentEncode (isPathSet UrlHost.caret))))
  search := markedText '?' (percentEncode isSpecialQuerySet (queryText (afterPath input)))
  hash := markedText '#' (percentEncode isFragmentSet (fragmentText (afterPath input)))

def isPathAbsolute (input : Text) : Bool :=
  ['/'].isPrefixOf input && !(['/', '/'].isPrefixOf input) && !(['/', '\\'].isPrefixOf input)

/-- `new URL(value, base)`. A lone surrogate is read as U+FFFD and is no text of this model. -/
def newUrl (value : Text) : Option TargetUrl :=
  if isPathAbsolute (urlInput value) then some (relativeUrl (urlInput value))
  else UrlHost.parse value

def resolveSafeReturnTo (value : Option Text) : Text :=
  match value with
  | none => DEFAULT_RETURN_TO
  | some value =>
      if value.isEmpty || decide (utf16Length value > MAX_RETURN_TO_LENGTH) ||
          hasUnsafeDecodedForm value then DEFAULT_RETURN_TO
      else
        match newUrl value with
        | none => DEFAULT_RETURN_TO
        | some target =>
            if target.origin != BASE_ORIGIN || !(['/'].isPrefixOf target.pathname) ||
                ['/', '/'].isPrefixOf target.pathname || target.pathname.contains '\\' then
              DEFAULT_RETURN_TO
            else target.pathname ++ (target.search ++ target.hash)

end Parser

/-! ## 3. The forms of a value -/

/-- `decodeURIComponent`, a number of times. -/
def decoding : Nat → Text → Option Text
  | 0, s => some s
  | k + 1, s => (decodeURIComponent s).bind (decoding k)

/-- No backslash and no control character. -/
def isPlainForm (s : Text) : Bool := !s.contains '\\' && !s.any isControlCharacter

theorem isUnsafeForm_eq_false_iff {current : Text} :
    isUnsafeForm current = false ↔
      ['/'].isPrefixOf current = true ∧ ['/', '/'].isPrefixOf current = false ∧
        isPlainForm current = true := by
  unfold isUnsafeForm isPlainForm
  rw [Bool.or_eq_false_iff, Bool.or_eq_false_iff, Bool.or_eq_false_iff, Bool.not_eq_false',
    Bool.and_eq_true, Bool.not_eq_true', Bool.not_eq_true', and_assoc, and_assoc]

theorem isPlainForm_iff {s : Text} :
    isPlainForm s = true ↔ ∀ c ∈ s, c ≠ '\\' ∧ isControlCharacter c = false := by
  unfold isPlainForm
  rw [Bool.and_eq_true, Bool.not_eq_true', Bool.not_eq_true']
  constructor
  · rintro ⟨hbackslash, hcontrol⟩ c hc
    refine ⟨?_, ?_⟩
    · rintro rfl
      rw [List.contains_iff_mem.mpr hc] at hbackslash
      nomatch hbackslash
    · cases hc' : isControlCharacter c with
      | false => rfl
      | true =>
        rw [List.any_eq_true.mpr ⟨c, hc, hc'⟩] at hcontrol
        nomatch hcontrol
  · intro h
    refine ⟨?_, ?_⟩
    · refine Bool.eq_false_iff.mpr fun hmem => ?_
      exact (h '\\' (List.contains_iff_mem.mp hmem)).1 rfl
    · refine Bool.eq_false_iff.mpr fun hany => ?_
      obtain ⟨c, hc, hcontrol⟩ := List.any_eq_true.mp hany
      rw [(h c hc).2] at hcontrol
      nomatch hcontrol

theorem decoding_fixed {s : Text} (h : decodeURIComponent s = some s) (k : Nat) :
    decoding k s = some s := by
  induction k with
  | zero => rfl
  | succ k ih =>
    rw [decoding, h]
    exact ih

/-- One round of the loop. -/
theorem hasUnsafeFrom_succ {depth : Nat} {current : Text} :
    hasUnsafeFrom (depth + 1) current = false ↔
      isUnsafeForm current = false ∧ ∃ decoded, decodeURIComponent current = some decoded ∧
        (decoded = current ∨ hasUnsafeFrom depth decoded = false) := by
  rw [hasUnsafeFrom]
  split
  · rename_i hbad
    rw [hbad]
    exact ⟨(fun h => nomatch h), fun h => nomatch h.1⟩
  · rename_i hgood
    have hgood : isUnsafeForm current = false := Bool.eq_false_iff.mpr hgood
    cases hdecoded : decodeURIComponent current with
    | none => exact ⟨(fun h => nomatch h), fun ⟨_, _, h, _⟩ => nomatch h⟩
    | some decoded =>
      dsimp only
      split
      · rename_i heq
        exact ⟨fun _ => ⟨hgood, decoded, rfl, .inl heq⟩, fun _ => rfl⟩
      · rename_i hne
        constructor
        · exact fun h => ⟨hgood, decoded, rfl, .inr h⟩
        · rintro ⟨-, other, hother, hcase⟩
          obtain rfl := Option.some.inj hother
          exact hcase.resolve_left hne

/-- **What the loop has passed**: none of the forms it looks at is unsafe. -/
theorem decoding_of_hasUnsafeFrom {n : Nat} {s form : Text} (h : hasUnsafeFrom n s = false)
    {k : Nat} (hk : k < n) (hform : decoding k s = some form) : isUnsafeForm form = false := by
  induction n generalizing k s with
  | zero => exact absurd hk (Nat.not_lt_zero k)
  | succ n ih =>
    obtain ⟨hgood, decoded, hdecoded, hrest⟩ := hasUnsafeFrom_succ.mp h
    cases k with
    | zero =>
      rw [← Option.some.inj hform]
      exact hgood
    | succ k =>
      rcases hrest with rfl | hrest
      · rw [decoding_fixed hdecoded] at hform
        rw [← Option.some.inj hform]
        exact hgood
      · rw [decoding, hdecoded] at hform
        exact ih hrest (Nat.lt_of_succ_lt_succ hk) hform

/-! ## 4. Pieces -/

/-- A piece that the loop passes in so many rounds. -/
def PieceSafe : Nat → Text → Prop
  | 0, _ => False
  | 1, s => isPlainForm s = true ∧ decodeURIComponent s = some s
  | n + 2, s => isPlainForm s = true ∧ ∃ d, decodeURIComponent s = some d ∧ PieceSafe (n + 1) d

theorem PieceSafe.plain {n : Nat} {s : Text} (h : PieceSafe n s) : isPlainForm s = true :=
  match n, h with
  | 1, h => h.1
  | _ + 2, h => h.1

theorem PieceSafe.decoded {n : Nat} {s : Text} (h : PieceSafe n s) :
    ∃ d, decodeURIComponent s = some d :=
  match n, h with
  | 1, h => ⟨s, h.2⟩
  | _ + 2, ⟨_, d, hd, _⟩ => ⟨d, hd⟩

theorem pieceSafe_of_fixed {s : Text} (hplain : isPlainForm s = true)
    (h : decodeURIComponent s = some s) (n : Nat) : PieceSafe (n + 1) s := by
  induction n with
  | zero => exact ⟨hplain, h⟩
  | succ n ih => exact ⟨hplain, s, h, ih⟩

/-- Separators of a target: a piece begins with one of them. -/
def Cut (pieces : List Piece) : Prop :=
  ∀ piece ∈ pieces, isSeparator piece.1 = true ∧ isPlainForm [piece.1] = true

theorem isPlainForm_flatten {pieces : List Piece} (h : isPlainForm (flatten pieces) = true)
    {piece : Piece} (hpiece : piece ∈ pieces) : isPlainForm piece.2 = true := by
  refine isPlainForm_iff.mpr fun c hc => isPlainForm_iff.mp h c ?_
  exact List.mem_flatMap.mpr ⟨piece, hpiece, List.mem_cons_of_mem _ hc⟩

theorem flatten_isPlainForm {pieces : List Piece} (hcut : Cut pieces)
    (h : ∀ piece ∈ pieces, isPlainForm piece.2 = true) : isPlainForm (flatten pieces) = true := by
  refine isPlainForm_iff.mpr fun c hc => ?_
  obtain ⟨piece, hpiece, hmem⟩ := List.mem_flatMap.mp hc
  rcases List.mem_cons.mp hmem with rfl | hmem
  · exact isPlainForm_iff.mp (hcut piece hpiece).2 _ (List.mem_singleton_self _)
  · exact isPlainForm_iff.mp (h piece hpiece) c hmem

theorem cut_decoded {pieces next : List Piece} (hcut : Cut pieces)
    (h : List.Forall₂ Decoded pieces next) : Cut next := by
  induction h with
  | nil => exact hcut
  | cons hpiece hnext ih =>
    rename_i piece other pieces next
    intro q hq
    rcases List.mem_cons.mp hq with rfl | hq
    · rw [hpiece.1]
      exact hcut piece List.mem_cons_self
    · exact ih (fun r hr => hcut r (List.mem_cons_of_mem _ hr)) q hq

/-- A piece and what it is decoded to. -/
theorem forall_decoded {pieces next : List Piece} (h : List.Forall₂ Decoded pieces next)
    {piece : Piece} (hpiece : piece ∈ pieces) :
    ∃ other ∈ next, decodeURIComponent piece.2 = some other.2 := by
  induction h with
  | nil => nomatch hpiece
  | cons hfirst hnext ih =>
    rename_i first other pieces next
    rcases List.mem_cons.mp hpiece with rfl | hpiece
    · exact ⟨other, List.mem_cons_self, hfirst.2⟩
    · obtain ⟨found, hfound, hdecoded⟩ := ih hpiece
      exact ⟨found, List.mem_cons_of_mem _ hfound, hdecoded⟩

/-- Where the whole is left alone, every piece is. -/
theorem pieces_fixed {pieces : List Piece}
    (h : decodeURIComponent (flatten pieces) = some (flatten pieces)) {piece : Piece}
    (hpiece : piece ∈ pieces) : decodeURIComponent piece.2 = some piece.2 := by
  refine decode_eq_self_iff.mpr fun hmem => decode_eq_self_iff.mp h ?_
  exact List.mem_flatMap.mpr ⟨piece, hpiece, List.mem_cons_of_mem _ hmem⟩

/-- **The loop looks at every piece.** -/
theorem hasUnsafeFrom_pieces {n : Nat} {pieces : List Piece} (hcut : Cut pieces)
    (h : hasUnsafeFrom n (flatten pieces) = false) {piece : Piece} (hpiece : piece ∈ pieces) :
    PieceSafe n piece.2 := by
  induction n generalizing pieces piece with
  | zero => nomatch h
  | succ n ih =>
    obtain ⟨hgood, decoded, hdecoded, hrest⟩ := hasUnsafeFrom_succ.mp h
    have hplain := isPlainForm_flatten (isUnsafeForm_eq_false_iff.mp hgood).2.2 hpiece
    rcases hrest with rfl | hrest
    · exact pieceSafe_of_fixed hplain (pieces_fixed hdecoded hpiece) n
    · obtain ⟨next, hnext, rfl⟩ :=
        (decode_flatten fun q hq => (hcut q hq).1).mp hdecoded
      obtain ⟨other, hother, hvalue⟩ := forall_decoded hnext hpiece
      have hsafe := ih (cut_decoded hcut hnext) hrest hother
      cases n with
      | zero => nomatch hrest
      | succ n => exact ⟨hplain, other.2, hvalue, hsafe⟩

/-- Some of the first forms of a piece begins with a slash. -/
def reachesSlash : Nat → Text → Bool
  | 0, _ => false
  | n + 1, s =>
      ['/'].isPrefixOf s ||
        match decodeURIComponent s with
        | none => false
        | some decoded => reachesSlash n decoded

theorem reachesSlash_succ {n : Nat} {s d : Text} (hd : decodeURIComponent s = some d) :
    reachesSlash (n + 1) s = (['/'].isPrefixOf s || reachesSlash n d) := by
  rw [reachesSlash, hd]

/-- A path whose first piece is not empty, or is followed by no slash. -/
def Rooted (first : Text) (more : List Piece) : Prop :=
  first = [] → ∀ piece ∈ more.head?, piece.1 ≠ '/'

theorem slash_isPrefixOf (s : Text) : ['/'].isPrefixOf ('/' :: s) = true := by
  simp [List.isPrefixOf]

theorem isPrefixOf_slash {s : Text} (h : ['/'].isPrefixOf s = true) : ∃ t, s = '/' :: t := by
  obtain ⟨t, rfl⟩ := List.isPrefixOf_iff_prefix.mp h
  exact ⟨t, rfl⟩

theorem slashes_isPrefixOf (s : Text) :
    ['/', '/'].isPrefixOf ('/' :: s) = ['/'].isPrefixOf s := by
  simp [List.isPrefixOf]

/-- One leading slash. -/
theorem one_slash {first : Text} {more : List Piece} (hrooted : Rooted first more)
    (hfirst : ['/'].isPrefixOf first = false) :
    ['/', '/'].isPrefixOf (flatten (('/', first) :: more)) = false := by
  rw [flatten_cons, slashes_isPrefixOf]
  cases first with
  | cons c rest => exact hfirst
  | nil =>
    cases more with
    | nil => rfl
    | cons piece more =>
      have hne : piece.1 ≠ '/' := hrooted rfl piece rfl
      rw [List.nil_append, flatten_cons, List.isPrefixOf]
      simp [Ne.symm hne]

/-- The decoded pieces are rooted as these are. -/
theorem Rooted.decoded {first : Text} {more : List Piece} (h : Rooted first more) {d : Text}
    {next : List Piece} (hd : decodeURIComponent first = some d)
    (hnext : List.Forall₂ Decoded more next) : Rooted d next := by
  rintro rfl piece hpiece
  have hempty := h (decode_eq_nil hd)
  cases hnext with
  | nil => nomatch hpiece
  | cons hfirst hmore =>
    rename_i old new olds news
    obtain rfl := Option.some.inj hpiece
    rw [hfirst.1]
    exact hempty old rfl

/-- The next forms of safe pieces. -/
theorem decodedPieces {n : Nat} {pieces : List Piece}
    (h : ∀ piece ∈ pieces, PieceSafe (n + 2) piece.2) :
    ∃ next, List.Forall₂ Decoded pieces next ∧ ∀ piece ∈ next, PieceSafe (n + 1) piece.2 := by
  induction pieces with
  | nil => exact ⟨[], .nil, fun _ h => nomatch h⟩
  | cons piece pieces ih =>
    obtain ⟨-, d, hd, hsafe⟩ := h piece List.mem_cons_self
    obtain ⟨next, hnext, hall⟩ := ih fun q hq => h q (List.mem_cons_of_mem _ hq)
    refine ⟨(piece.1, d) :: next, .cons ⟨rfl, hd⟩ hnext, fun q hq => ?_⟩
    rcases List.mem_cons.mp hq with rfl | hq
    · exact hsafe
    · exact hall q hq

/-- **The way back**: safe pieces, no slash in front of the first, and the loop passes. -/
theorem pieces_hasUnsafeFrom {n : Nat} {first : Text} {more : List Piece}
    (hcut : Cut (('/', first) :: more)) (hrooted : Rooted first more)
    (hslash : reachesSlash (n + 1) first = false)
    (hsafe : ∀ piece ∈ ('/', first) :: more, PieceSafe (n + 1) piece.2) :
    hasUnsafeFrom (n + 1) (flatten (('/', first) :: more)) = false := by
  induction n generalizing first more with
  | zero =>
    have hfixed (piece : Piece) (hpiece : piece ∈ ('/', first) :: more) : '%' ∉ piece.2 :=
      decode_eq_self_iff.mp (hsafe piece hpiece).2
    have hplain : '%' ∉ flatten (('/', first) :: more) := by
      intro hmem
      obtain ⟨piece, hpiece, hc⟩ := List.mem_flatMap.mp hmem
      rcases List.mem_cons.mp hc with heq | hc
      · exact (isSeparator_spec (hcut piece hpiece).1).2.1 heq.symm
      · exact hfixed piece hpiece hc
    rw [reachesSlash, Bool.or_eq_false_iff] at hslash
    refine hasUnsafeFrom_succ.mpr ⟨isUnsafeForm_eq_false_iff.mpr ⟨?_, ?_, ?_⟩, _,
      decode_plain hplain, .inl rfl⟩
    · exact slash_isPrefixOf _
    · exact one_slash hrooted hslash.1
    · exact flatten_isPlainForm hcut fun piece hpiece => (hsafe piece hpiece).plain
  | succ n ih =>
    obtain ⟨-, d, hd, hdsafe⟩ := hsafe ('/', first) List.mem_cons_self
    have hslash' := hslash
    rw [reachesSlash_succ hd, Bool.or_eq_false_iff] at hslash'
    obtain ⟨next, hnext, hnextSafe⟩ := decodedPieces
      fun piece hpiece => hsafe piece (List.mem_cons_of_mem _ hpiece)
    have hall : List.Forall₂ Decoded (('/', first) :: more) (('/', d) :: next) :=
      .cons ⟨rfl, hd⟩ hnext
    refine hasUnsafeFrom_succ.mpr ⟨isUnsafeForm_eq_false_iff.mpr ⟨?_, ?_, ?_⟩, _,
      (decode_flatten fun q hq => (hcut q hq).1).mpr ⟨_, hall, rfl⟩, .inr ?_⟩
    · exact slash_isPrefixOf _
    · exact one_slash hrooted hslash'.1
    · exact flatten_isPlainForm hcut fun piece hpiece => (hsafe piece hpiece).plain
    · refine ih (cut_decoded hcut hall) (hrooted.decoded hd hnext) hslash'.2
        fun piece hpiece => ?_
      rcases List.mem_cons.mp hpiece with rfl | hpiece
      · exact hdsafe
      · exact hnextSafe piece hpiece

/-- A slash in front of the first piece, at some form, is a second slash of the whole. -/
theorem reachesSlash_decoding {n : Nat} {first : Text} {more : List Piece}
    (hcut : Cut (('/', first) :: more)) (hslash : reachesSlash n first = true)
    (hsafe : ∀ piece ∈ ('/', first) :: more, PieceSafe n piece.2) :
    ∃ k < n, ∃ form, decoding k (flatten (('/', first) :: more)) = some form ∧
      ['/', '/'].isPrefixOf form = true := by
  induction n generalizing first more with
  | zero => nomatch hslash
  | succ n ih =>
    by_cases hhead : ['/'].isPrefixOf first = true
    · refine ⟨0, Nat.succ_pos n, _, rfl, ?_⟩
      obtain ⟨rest, rfl⟩ := isPrefixOf_slash hhead
      rw [flatten_cons, slashes_isPrefixOf]
      exact slash_isPrefixOf _
    · obtain ⟨d, hd⟩ := (hsafe ('/', first) List.mem_cons_self).decoded
      rw [reachesSlash_succ hd, Bool.or_eq_true] at hslash
      have hslash := hslash.resolve_left hhead
      cases n with
      | zero => nomatch hslash
      | succ n =>
        obtain ⟨next, hnext, hnextSafe⟩ := decodedPieces hsafe
        have hcutNext := cut_decoded hcut hnext
        have hwhole := (decode_flatten fun q hq => (hcut q hq).1).mpr ⟨_, hnext, rfl⟩
        cases hnext with
        | cons hfirst hmore =>
          rename_i head tail
          obtain ⟨mark, text⟩ := head
          obtain ⟨rfl, hvalue⟩ : mark = '/' ∧ decodeURIComponent first = some text := hfirst
          obtain rfl : d = text := Option.some.inj (hd.symm.trans hvalue)
          obtain ⟨k, hk, form, hform, htwo⟩ := ih hcutNext hslash hnextSafe
          refine ⟨k + 1, Nat.succ_lt_succ hk, form, ?_, htwo⟩
          rw [decoding, hwhole]
          exact hform

end OpenVac.ReturnTarget
