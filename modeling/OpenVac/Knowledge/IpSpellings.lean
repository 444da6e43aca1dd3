/-
  File:      OpenVac/Knowledge/IpSpellings.lean
  Subject:   The spellings of an IPv6 address, and what `isPublicIpAddress` makes of them.

  * `Spells` -- the texts of an address: hexadecimal groups with or without leading zeros in
    either case, a `::`, a dotted tail, a zone.
  * `splitCompression_join`, `expandDotted_tail` -- the parser on the pieces of a spelling.
  * `ipv6ToBigInt_spells` -- every spelling reads as its address.
  * `public_by_address` -- two spellings have one answer, and no spelling of an address that
    embeds an IPv4 address is public where that is not.
-/
import Mathlib.Data.List.Forall2
import OpenVac.Knowledge.IpAddress
import OpenVac.Lib.JsText

namespace OpenVac.Knowledge

open JsString JsUrl

/-! ## 1. Spellings -/

/-- A hexadecimal digit in either case. -/
def hexDigitValue (c : Char) : Option Nat :=
  if '0' ≤ c ∧ c ≤ '9' then some (c.toNat - '0'.toNat)
  else if 'a' ≤ c ∧ c ≤ 'f' then some (c.toNat - 'a'.toNat + 10)
  else if 'A' ≤ c ∧ c ≤ 'F' then some (c.toNat - 'A'.toNat + 10)
  else none

/-- One to four digits in base 16. -/
def SpellsGroup (text : Text) (value : Nat) : Prop :=
  ∃ digits : List Nat, text.map hexDigitValue = digits.map some ∧ digits ≠ [] ∧
    digits.length ≤ 4 ∧ value = digits.foldl (fun n d => 16 * n + d) 0

/-- Four octets in base 10, as two groups. -/
def SpellsDotted (text : Text) (g h : Nat) : Prop :=
  ∃ a b c d : Nat, a ≤ 255 ∧ b ≤ 255 ∧ c ≤ 255 ∧ d ≤ 255 ∧
    text = join ['.'] [Nat.toDigits 10 a, Nat.toDigits 10 b, Nat.toDigits 10 c, Nat.toDigits 10 d] ∧
    g = 256 * a + b ∧ h = 256 * c + d

abbrev SpellsGroups (texts : List Text) (values : List Nat) : Prop :=
  List.Forall₂ SpellsGroup texts values

/-- Groups, the last two of them dotted or not. -/
inductive SpellsTail : List Text → List Nat → Prop where
  | groups {texts values} (h : SpellsGroups texts values) : SpellsTail texts values
  | dotted {texts values text g h} (hgroups : SpellsGroups texts values)
      (hdotted : SpellsDotted text g h) : SpellsTail (texts ++ [text]) (values ++ [g, h])

/-- The eight groups of an address, `::` for one or more that are 0. -/
inductive SpellsAddress : Text → List Nat → Prop where
  | full {texts values} (h : SpellsTail texts values) (length : values.length = 8) :
      SpellsAddress (join [':'] texts) values
  | compressed {left before right after} (hleft : SpellsGroups left before)
      (hright : SpellsTail right after) (length : before.length + after.length ≤ 7) :
      SpellsAddress (join [':'] left ++ ':' :: ':' :: join [':'] right)
        (before ++ List.replicate (8 - before.length - after.length) 0 ++ after)

/-- The name of a zone: letters, digits, hyphens, dots and colons. -/
def isZoneChar (c : Char) : Bool :=
  isDigit c || decide ('a' ≤ c ∧ c ≤ 'z') || decide ('A' ≤ c ∧ c ≤ 'Z') || c == '-' || c == '.' ||
    c == ':'

/-- The texts of an address, with or without a zone. -/
def Spells (text : Text) (values : List Nat) : Prop :=
  ∃ address, SpellsAddress address values ∧
    (text = address ∨
      ∃ zone, zone ≠ [] ∧ zone.all isZoneChar = true ∧ text = address ++ '%' :: zone)

/-! ## 2. Letters -/

/-- The host lowers ASCII letter by letter. -/
class AsciiCaseTables extends CaseTables where
  toLowerCase_ascii : ∀ text : Text, (∀ c ∈ text, c.toNat < 128) →
    toLowerCase text = text.map Char.toLower

theorem char_eq_ofNat (c : Char) : c = Char.ofNat c.toNat := (Char.ofNat_toNat c).symm

theorem hexDigitValue_ascii {c : Char} {d : Nat} (h : hexDigitValue c = some d) :
    c.toNat < 128 := by
  unfold hexDigitValue at h
  have hbound {top : Char} (hc : c ≤ top) (htop : top.toNat < 128) : c.toNat < 128 := by
    have : c.toNat ≤ top.toNat := hc
    omega
  split at h
  · next hc => exact hbound hc.2 (by decide)
  · split at h
    · next hc => exact hbound hc.2 (by decide)
    · split at h
      · next hc => exact hbound hc.2 (by decide)
      · cases h

theorem hexDigit_toLower {c : Char} {d : Nat} (h : hexDigitValue c = some d) :
    hexDigit c.toLower = some d := by
  have hall : ∀ n < 128, (hexDigitValue (Char.ofNat n)).all
      (fun d => hexDigit (Char.ofNat n).toLower == some d) = true := by decide
  have hc := hall c.toNat (hexDigitValue_ascii h)
  rw [← char_eq_ofNat, h] at hc
  exact eq_of_beq hc

theorem hexDigit_some {c : Char} {d : Nat} (h : hexDigit c = some d) :
    c ≠ ':' ∧ c ≠ '.' ∧ c ≠ '%' := by
  refine ⟨?_, ?_, ?_⟩ <;> rintro rfl <;> cases h

/-! ## 3. Pieces -/

/-- A lower-case group as the parser reads it. -/
abbrev Pieces (texts : List Text) (values : List Nat) : Prop :=
  List.Forall₂ (fun text value => hexGroup text = some value) texts values

/-- Nothing in the text separates, and there is something. -/
def Solid (text : Text) : Prop := text ≠ [] ∧ ∀ c ∈ text, c ≠ ':' ∧ c ≠ '.' ∧ c ≠ '%'

theorem hexFold_some {text : Text} {n value : Nat}
    (h : text.foldl (fun n c => n.bind fun n => (hexDigit c).map fun d => 16 * n + d) (some n) =
      some value) : ∀ c ∈ text, c ≠ ':' ∧ c ≠ '.' ∧ c ≠ '%' := by
  induction text generalizing n with
  | nil => exact fun c hc => absurd hc List.not_mem_nil
  | cons c rest ih =>
    obtain ⟨d, hd, h⟩ := hexFold_cons h
    intro other hother
    rcases List.mem_cons.mp hother with rfl | hother
    · exact hexDigit_some hd
    · exact ih h other hother

theorem solid_of_hexGroup {text : Text} {value : Nat} (h : hexGroup text = some value) :
    Solid text := by
  unfold hexGroup at h
  split at h
  · cases h
  · next hlength =>
    refine ⟨?_, hexFold_some h⟩
    rintro rfl
    exact hlength (Or.inl rfl)

theorem solid_of_pieces {texts : List Text} {values : List Nat} (h : Pieces texts values) :
    ∀ text ∈ texts, Solid text := by
  induction h with
  | nil => exact fun text htext => absurd htext List.not_mem_nil
  | cons hgroup _ ih =>
    intro text htext
    rcases List.mem_cons.mp htext with rfl | htext
    · exact solid_of_hexGroup hgroup
    · exact ih text htext

theorem hexFold_digits {text : Text} {digits : List Nat}
    (h : text.map hexDigitValue = digits.map some) (n : Nat) :
    (text.map Char.toLower).foldl
        (fun n c => n.bind fun n => (hexDigit c).map fun d => 16 * n + d) (some n) =
      some (digits.foldl (fun n d => 16 * n + d) n) := by
  induction text generalizing digits n with
  | nil =>
    cases digits with
    | nil => rfl
    | cons d rest => cases h
  | cons c text ih =>
    cases digits with
    | nil => cases h
    | cons d digits =>
      rw [List.map_cons, List.map_cons] at h
      obtain ⟨hc, hrest⟩ := List.cons.inj h
      rw [List.map_cons, List.foldl_cons, List.foldl_cons, Option.bind_some,
        hexDigit_toLower hc, Option.map_some]
      exact ih hrest _

/-- **A group of any case reads as its value.** -/
theorem hexGroup_spells {text : Text} {value : Nat} (h : SpellsGroup text value) :
    hexGroup (text.map Char.toLower) = some value := by
  obtain ⟨digits, hdigits, hne, hshort, rfl⟩ := h
  have hlength : text.length = digits.length := by
    have := congrArg List.length hdigits
    simpa using this
  have hpos : 0 < digits.length := List.length_pos_iff.mpr hne
  unfold hexGroup
  rw [List.length_map, if_neg (by omega)]
  exact hexFold_digits hdigits 0

theorem pieces_spells {texts : List Text} {values : List Nat} (h : SpellsGroups texts values) :
    Pieces (texts.map (List.map Char.toLower)) values := by
  induction h with
  | nil => exact List.Forall₂.nil
  | cons hgroup _ ih => exact List.Forall₂.cons (hexGroup_spells hgroup) ih

theorem hexFold_toHex (n : Nat) :
    (toHex n).foldl (fun n c => n.bind fun n => (hexDigit c).map fun d => 16 * n + d) (some 0) =
      some n := by
  have hdigit : ∀ d < 16, hexDigit (Nat.digitChar d) = some d := by decide
  induction n using Nat.strong_induction_on with
  | _ n ih =>
    unfold toHex at ih ⊢
    rw [Nat.toDigits_eq_if (by decide)]
    by_cases hn : n < 16
    · rw [if_pos hn, List.foldl_cons, List.foldl_nil, Option.bind_some, hdigit n hn,
        Option.map_some, Nat.mul_zero, Nat.zero_add]
    · rw [if_neg hn, List.foldl_append, ih (n / 16) (by omega), List.foldl_cons, List.foldl_nil,
        Option.bind_some, hdigit _ (Nat.mod_lt n (by decide)), Option.map_some,
        Nat.div_add_mod]

/-- **Below 2^16, `toString(16)` is a group.** -/
theorem hexGroup_toHex {value : Nat} (h : value < 65536) : hexGroup (toHex value) = some value := by
  have hpos : 0 < (toHex value).length := Nat.length_toDigits_pos
  have hshort : (toHex value).length ≤ 4 :=
    (Nat.length_toDigits_le_iff (by decide) (by decide)).mpr h
  unfold hexGroup
  rw [if_neg (by omega)]
  exact hexFold_toHex value

/-! ## 4. Dotted tails -/

theorem all_isDigit_toDigits (n : Nat) : (Nat.toDigits 10 n).all isDigit = true := by
  refine List.all_eq_true.mpr fun c hc => ?_
  have hdigit : c.isDigit = true := Nat.isDigit_of_mem_toDigits (by decide) (by decide) hc
  obtain ⟨hlow, hhigh⟩ := Bool.and_eq_true_iff.mp hdigit
  exact decide_eq_true ⟨of_decide_eq_true hlow, of_decide_eq_true hhigh⟩

theorem decimalPart_toDigits (n : Nat) : decimalPart (Nat.toDigits 10 n) = some n := by
  have hvalue := Nat.ofDigitChars_toDigits (b := 10) (n := n) (by decide) (by decide)
  rw [Nat.ofDigitChars_eq_foldl] at hvalue
  unfold decimalPart
  rw [if_pos (all_isDigit_toDigits n), hvalue]

theorem isDigit_plain {c : Char} (h : isDigit c = true) :
    c ≠ ':' ∧ c ≠ '.' ∧ c ≠ '%' ∧ c.toLower = c ∧ c.toNat < 128 := by
  obtain ⟨hlow, hhigh⟩ := of_decide_eq_true h
  have hlow' : 48 ≤ c.toNat := hlow
  have hhigh' : c.toNat ≤ 57 := hhigh
  have hall : ∀ n < 58, 48 ≤ n → Char.ofNat n ≠ ':' ∧ Char.ofNat n ≠ '.' ∧ Char.ofNat n ≠ '%' ∧
      (Char.ofNat n).toLower = Char.ofNat n := by decide
  obtain ⟨hcolon, hdot, hpercent, hlower⟩ := hall c.toNat (by omega) hlow'
  rw [← char_eq_ofNat] at hcolon hdot hpercent hlower
  exact ⟨hcolon, hdot, hpercent, hlower, by omega⟩

theorem mem_dotted {text : Text} {g h : Nat} (hdotted : SpellsDotted text g h) {c : Char}
    (hc : c ∈ text) : c = '.' ∨ isDigit c = true := by
  obtain ⟨a, b, c', d, -, -, -, -, rfl, -, -⟩ := hdotted
  rcases mem_join hc with rfl | ⟨part, hpart, hc⟩
  · exact Or.inl rfl
  · have hdigits (n : Nat) (hn : c ∈ Nat.toDigits 10 n) : isDigit c = true :=
      List.all_eq_true.mp (all_isDigit_toDigits n) c hn
    simp only [List.mem_cons, List.not_mem_nil, or_false] at hpart
    rcases hpart with rfl | rfl | rfl | rfl
    · exact Or.inr (hdigits a hc)
    · exact Or.inr (hdigits b hc)
    · exact Or.inr (hdigits c' hc)
    · exact Or.inr (hdigits d hc)

theorem toLower_dotted {text : Text} {g h : Nat} (hdotted : SpellsDotted text g h) :
    text.map Char.toLower = text := by
  refine (List.map_congr_left fun c hc => ?_).trans (List.map_id _)
  rcases mem_dotted hdotted hc with rfl | hdigit
  · rfl
  · exact (isDigit_plain hdigit).2.2.2.1

/-- **Four octets read as their number.** -/
theorem ipv4ToNumber_dotted {text : Text} {g h : Nat} (hdotted : SpellsDotted text g h) :
    ipv4ToNumber text = some (g * 65536 + h) ∧ g < 65536 ∧ h < 65536 := by
  obtain ⟨a, b, c, d, ha, hb, hc, hd, rfl, rfl, rfl⟩ := hdotted
  have hparts : ∀ part ∈ [Nat.toDigits 10 a, Nat.toDigits 10 b, Nat.toDigits 10 c,
      Nat.toDigits 10 d], '.' ∉ part := by
    intro part hpart hdot
    have hdigits (n : Nat) (hn : '.' ∈ Nat.toDigits 10 n) : False := by
      have := List.all_eq_true.mp (all_isDigit_toDigits n) '.' hn
      exact absurd this (by decide)
    simp only [List.mem_cons, List.not_mem_nil, or_false] at hpart
    rcases hpart with rfl | rfl | rfl | rfl
    · exact hdigits a hdot
    · exact hdigits b hdot
    · exact hdigits c hdot
    · exact hdigits d hdot
  unfold ipv4ToNumber
  rw [split_join (List.cons_ne_nil _ _) hparts]
  simp only [List.map_cons, List.map_nil, decimalPart_toDigits]
  have hvalue : a * 2 ^ 24 + b * 2 ^ 16 + c * 2 ^ 8 + d =
      (256 * a + b) * 65536 + (256 * c + d) := by omega
  rw [if_pos ⟨ha, hb, hc, hd⟩, hvalue]
  exact ⟨rfl, by omega, by omega⟩

/-! ## 5. The parser on pieces -/

theorem join_append {left right : List Text} (hleft : left ≠ []) (hright : right ≠ []) :
    join [':'] (left ++ right) = join [':'] left ++ ':' :: join [':'] right := by
  induction left with
  | nil => exact absurd rfl hleft
  | cons text left ih =>
    cases left with
    | nil =>
      cases right with
      | nil => exact absurd rfl hright
      | cons next more =>
        rw [List.singleton_append, join_cons_cons, join_singleton]
        rfl
    | cons next more =>
      rw [List.cons_append, List.cons_append, join_cons_cons, join_cons_cons,
        ← List.cons_append, ih (List.cons_ne_nil _ _)]
      simp

theorem join_map (texts : List Text) {f : Char → Char} (hf : f ':' = ':') :
    (join [':'] texts).map f = join [':'] (texts.map (List.map f)) := by
  induction texts with
  | nil => rfl
  | cons text texts ih =>
    cases texts with
    | nil => rw [List.map_cons, List.map_nil, join_singleton, join_singleton]
    | cons next more =>
      rw [join_cons_cons, List.map_append, List.map_append, ih]
      show text.map f ++ ([f ':'] ++ join [':'] (next.map f :: more.map (List.map f))) =
        join [':'] (text.map f :: next.map f :: more.map (List.map f))
      rw [join_cons_cons, hf]

theorem splitCompression_solid {text : Text} (h : ∀ c ∈ text, c ≠ ':') (rest : Text) :
    splitCompression (text ++ rest) =
      (splitCompression rest).map fun parts => (text ++ parts.1, parts.2) := by
  induction text with
  | nil => exact Option.map_id'.symm
  | cons c text ih =>
    have hc := h c List.mem_cons_self
    rw [List.cons_append, splitCompression]
    · rw [ih fun c hc => h c (List.mem_cons_of_mem _ hc), Option.map_map]
      rfl
    · rintro rest rfl
      exact absurd rfl hc

theorem join_head {c : Char} {text : Text} (more : List Text) :
    ∃ rest, join [':'] ((c :: text) :: more) = c :: rest := by
  cases more with
  | nil => exact ⟨text, join_singleton _ _⟩
  | cons next more => exact ⟨_, join_cons_cons _ _ _ _⟩

/-- **Pieces between single colons are not cut.** -/
theorem splitCompression_join {texts : List Text} (h : ∀ text ∈ texts, Solid text) (rest : Text) :
    splitCompression (join [':'] texts ++ rest) =
      (splitCompression rest).map fun parts => (join [':'] texts ++ parts.1, parts.2) := by
  induction texts with
  | nil => exact Option.map_id'.symm
  | cons text texts ih =>
    have htext := (h text List.mem_cons_self).2
    cases texts with
    | nil =>
      rw [join_singleton]
      exact splitCompression_solid (fun c hc => (htext c hc).1) rest
    | cons next more =>
      have hrest := ih fun text htext => h text (List.mem_cons_of_mem _ htext)
      obtain ⟨hne, hnext⟩ := h next (List.mem_cons_of_mem _ List.mem_cons_self)
      obtain ⟨c, next, rfl⟩ := List.exists_cons_of_ne_nil hne
      obtain ⟨tail, htail⟩ : ∃ tail, join [':'] ((c :: next) :: more) = c :: tail :=
        join_head more
      -- the colon in front of a piece is followed by the piece
      have hcolon : splitCompression (':' :: (join [':'] ((c :: next) :: more) ++ rest)) =
          (splitCompression (join [':'] ((c :: next) :: more) ++ rest)).map
            fun parts => (':' :: parts.1, parts.2) := by
        rw [htail, List.cons_append, splitCompression]
        intro rest' _ hrest'
        exact absurd (List.cons.inj hrest').1 (hnext c List.mem_cons_self).1
      rw [join_cons_cons, List.append_assoc, List.append_assoc,
        splitCompression_solid fun c hc => (htext c hc).1]
      show (splitCompression (':' :: (join [':'] ((c :: next) :: more) ++ rest))).map _ = _
      rw [hcolon, hrest, Option.map_map, Option.map_map]
      refine congrArg (fun f => (splitCompression rest).map f) (funext fun parts => ?_)
      simp

theorem splitLastColon_append {head tail : Text} (h : ':' ∉ tail) :
    splitLastColon (head ++ ':' :: tail) = some (head, tail) := by
  have htail : ∀ c ∈ tail.reverse, (c != ':') = true := by
    intro c hc
    refine bne_iff_ne.mpr ?_
    rintro rfl
    exact h (List.mem_reverse.mp hc)
  have hspan : (head ++ ':' :: tail).reverse.span (· != ':') =
      (tail.reverse, ':' :: head.reverse) := by
    rw [List.span_eq_takeWhile_dropWhile, List.reverse_append, List.reverse_cons,
      List.append_assoc, List.takeWhile_append_of_pos htail, List.dropWhile_append_of_pos htail]
    simp
  unfold splitLastColon
  rw [hspan]
  simp

theorem expandDotted_plain {text : Text} (h : '.' ∉ text) : expandDotted text = some text := by
  unfold expandDotted
  rw [if_neg]
  simpa using h

/-- **A dotted tail becomes two groups.** -/
theorem expandDotted_append {before text : Text} {g h : Nat} (hdotted : SpellsDotted text g h) :
    expandDotted (before ++ ':' :: text) =
      some (before ++ ':' :: join [':'] [toHex g, toHex h]) := by
  obtain ⟨hvalue, hg, hh⟩ := ipv4ToNumber_dotted hdotted
  have hcolon : ':' ∉ text := by
    intro hc
    rcases mem_dotted hdotted hc with hdot | hdigit
    · cases hdot
    · exact (isDigit_plain hdigit).1 rfl
  have hdot : '.' ∈ before ++ ':' :: text := by
    obtain ⟨a, b, c, d, -, -, -, -, rfl, -, -⟩ := hdotted
    rw [join_cons_cons]
    simp
  have hhigh : (g * 65536 + h) / 2 ^ 16 % 2 ^ 16 = g := by omega
  have hlow : (g * 65536 + h) % 2 ^ 16 = h := by omega
  unfold expandDotted
  rw [if_pos (by simpa using hdot), splitLastColon_append hcolon]
  simp only [hvalue, Option.map_some, hhigh, hlow]
  rw [join_cons_cons, join_singleton]
  simp

theorem not_mem_join {texts : List Text} (h : ∀ text ∈ texts, Solid text) {c : Char}
    (hcolon : c ≠ ':') (hplain : ∀ d : Char, d ≠ ':' ∧ d ≠ '.' ∧ d ≠ '%' → c ≠ d) :
    c ∉ join [':'] texts := by
  intro hc
  rcases mem_join hc with rfl | ⟨text, htext, hc⟩
  · exact hcolon rfl
  · exact hplain c ((h text htext).2 c hc) rfl

/-- What stands before a tail: nothing, if there is room for it, or a text up to a colon. -/
theorem expandDotted_tail {texts : List Text} {values : List Nat} (h : SpellsTail texts values)
    {before : Text} (hdot : '.' ∉ before)
    (hbefore : before = [] ∧ 3 ≤ values.length ∨ ∃ start, before = start ++ [':']) :
    ∃ pieces, Pieces pieces values ∧
      expandDotted (before ++ (join [':'] texts).map Char.toLower) =
        some (before ++ join [':'] pieces) := by
  cases h with
  | groups hgroups =>
    have hpieces := pieces_spells hgroups
    refine ⟨_, hpieces, ?_⟩
    rw [join_map texts rfl]
    refine expandDotted_plain fun hmem => ?_
    rcases List.mem_append.mp hmem with hmem | hmem
    · exact hdot hmem
    · exact not_mem_join (solid_of_pieces hpieces) (by decide)
        (fun d hd hne => hd.2.1 hne.symm) hmem
  | @dotted texts values text g h hgroups hdotted =>
    obtain ⟨-, hg, hh⟩ := ipv4ToNumber_dotted hdotted
    have hpieces := pieces_spells hgroups
    have htail : Pieces [toHex g, toHex h] [g, h] :=
      .cons (hexGroup_toHex hg) (.cons (hexGroup_toHex hh) .nil)
    refine ⟨_, List.rel_append hpieces htail, ?_⟩
    by_cases hnil : texts = []
    · subst hnil
      obtain rfl := List.forall₂_nil_left_iff.mp hgroups
      rcases hbefore with ⟨-, hlength⟩ | ⟨start, rfl⟩
      · simp at hlength
      · rw [List.nil_append, join_singleton, toLower_dotted hdotted, List.append_assoc]
        show expandDotted (start ++ ':' :: text) = _
        rw [expandDotted_append hdotted]
        simp
    · have hlower : texts.map (List.map Char.toLower) ≠ [] := by simpa using hnil
      rw [join_append hnil (List.cons_ne_nil _ _), join_singleton, List.map_append, List.map_cons,
        join_map texts rfl, toLower_dotted hdotted, ← List.append_assoc]
      show expandDotted
        (before ++ join [':'] (texts.map (List.map Char.toLower)) ++ ':' :: text) = _
      rw [expandDotted_append hdotted, join_append hlower (List.cons_ne_nil _ _)]
      simp

theorem groupsOf_join {texts : List Text} (h : ∀ text ∈ texts, Solid text) :
    groupsOf (join [':'] texts) = texts := by
  cases texts with
  | nil => rfl
  | cons text more =>
    obtain ⟨c, rest, rfl⟩ := List.exists_cons_of_ne_nil (h text List.mem_cons_self).1
    obtain ⟨tail, htail⟩ : ∃ tail, join [':'] ((c :: rest) :: more) = c :: tail := join_head more
    unfold groupsOf
    rw [if_neg (by rw [htail]; exact Bool.false_ne_true)]
    exact split_join (List.cons_ne_nil _ _)
      fun part hpart hcolon => ((h part hpart).2 ':' hcolon).1 rfl

theorem splitCompression_join_none {texts : List Text} (h : ∀ text ∈ texts, Solid text) :
    splitCompression (join [':'] texts) = none := by
  have hnone := splitCompression_join h []
  rw [List.append_nil] at hnone
  exact hnone

theorem mapM_pieces {texts : List Text} {values : List Nat} (h : Pieces texts values) :
    texts.mapM hexGroup = some values := by
  induction h with
  | nil => rfl
  | cons hgroup _ ih =>
    rw [List.mapM_cons, hgroup, ih]
    rfl

theorem pieces_zero (n : Nat) : Pieces (List.replicate n ['0']) (List.replicate n 0) := by
  induction n with
  | zero => exact .nil
  | succ n ih => exact .cons (by decide) ih

/-- **The groups of a spelling**, in lower case. -/
theorem ipv6Groups_spells {text : Text} {values : List Nat} (h : SpellsAddress text values) :
    ∃ normalized pieces, expandDotted (text.map Char.toLower) = some normalized ∧
      ipv6Groups normalized = some pieces ∧ Pieces pieces values := by
  cases h with
  | @full texts values htail hlength =>
    obtain ⟨pieces, hpieces, hexpand⟩ :=
      expandDotted_tail htail List.not_mem_nil (Or.inl ⟨rfl, by omega⟩)
    have hsolid := solid_of_pieces hpieces
    refine ⟨_, pieces, hexpand, ?_, hpieces⟩
    have hpiecesLength : pieces.length = 8 := hpieces.length_eq.trans hlength
    unfold ipv6Groups
    rw [List.nil_append, splitCompression_join_none hsolid]
    simp only [groupsOf_join hsolid, hpiecesLength]
    rfl
  | @compressed left before right after hleft hright hlength =>
    have hpieces := pieces_spells hleft
    have hsolid := solid_of_pieces hpieces
    have hdot : '.' ∉ join [':'] (left.map (List.map Char.toLower)) ++ [':'] ++ [':'] := by
      have hleftDot := not_mem_join hsolid (c := '.') (by decide) fun d hd hne => hd.2.1 hne.symm
      simpa using hleftDot
    obtain ⟨tail, htail, hexpand⟩ := expandDotted_tail hright hdot (Or.inr ⟨_, rfl⟩)
    have htailSolid := solid_of_pieces htail
    have hlower : (join [':'] left ++ ':' :: ':' :: join [':'] right).map Char.toLower =
        join [':'] (left.map (List.map Char.toLower)) ++ [':'] ++ [':'] ++
          (join [':'] right).map Char.toLower := by
      rw [List.map_append, join_map left rfl]
      simp
    rw [hlower]
    refine ⟨_, _, hexpand, ?_, List.rel_append (List.rel_append hpieces (pieces_zero _)) htail⟩
    have hleftLength := hpieces.length_eq
    have htailLength := htail.length_eq
    have hsplit : splitCompression (join [':'] (left.map (List.map Char.toLower)) ++ [':'] ++
        [':'] ++ join [':'] tail) =
          some (join [':'] (left.map (List.map Char.toLower)), join [':'] tail) := by
      rw [List.append_assoc, List.append_assoc, splitCompression_join hsolid]
      simp [splitCompression]
    unfold ipv6Groups
    rw [hsplit]
    simp only [splitCompression_join_none htailSolid, groupsOf_join hsolid,
      groupsOf_join htailSolid]
    rw [if_neg (by decide), if_neg (by omega), hleftLength, htailLength]

/-! ## 6. The parser on spellings -/

/-- An ASCII character that does not begin a zone, in either case. -/
def AddressChar (c : Char) : Prop := c.toNat < 128 ∧ c.toLower ≠ '%'

theorem addressChar_group {text : Text} {value : Nat} (h : SpellsGroup text value) :
    ∀ c ∈ text, AddressChar c := by
  obtain ⟨digits, hdigits, -, -, -⟩ := h
  intro c hc
  have hmem : hexDigitValue c ∈ digits.map some := hdigits ▸ List.mem_map_of_mem hc
  obtain ⟨d, -, hd⟩ := List.mem_map.mp hmem
  exact ⟨hexDigitValue_ascii hd.symm, (hexDigit_some (hexDigit_toLower hd.symm)).2.2⟩

theorem addressChar_groups {texts : List Text} {values : List Nat}
    (h : SpellsGroups texts values) : ∀ text ∈ texts, ∀ c ∈ text, AddressChar c := by
  induction h with
  | nil => exact fun text htext => absurd htext List.not_mem_nil
  | cons hgroup _ ih =>
    intro text htext
    rcases List.mem_cons.mp htext with rfl | htext
    · exact addressChar_group hgroup
    · exact ih text htext

theorem addressChar_dotted {text : Text} {g h : Nat} (hdotted : SpellsDotted text g h) :
    ∀ c ∈ text, AddressChar c := by
  intro c hc
  rcases mem_dotted hdotted hc with rfl | hdigit
  · exact ⟨by decide, by decide⟩
  · obtain ⟨-, -, hpercent, hlower, hascii⟩ := isDigit_plain hdigit
    exact ⟨hascii, hlower.symm ▸ hpercent⟩

theorem addressChar_join {texts : List Text} (h : ∀ text ∈ texts, ∀ c ∈ text, AddressChar c) :
    ∀ c ∈ join [':'] texts, AddressChar c := by
  intro c hc
  rcases mem_join hc with rfl | ⟨text, htext, hc⟩
  · exact ⟨by decide, by decide⟩
  · exact h text htext c hc

theorem addressChar_tail {texts : List Text} {values : List Nat} (h : SpellsTail texts values) :
    ∀ c ∈ join [':'] texts, AddressChar c := by
  cases h with
  | groups hgroups => exact addressChar_join (addressChar_groups hgroups)
  | dotted hgroups hdotted =>
    refine addressChar_join fun text htext => ?_
    rcases List.mem_append.mp htext with htext | htext
    · exact addressChar_groups hgroups text htext
    · obtain rfl := List.mem_singleton.mp htext
      exact addressChar_dotted hdotted

theorem addressChar_spells {text : Text} {values : List Nat} (h : SpellsAddress text values) :
    ∀ c ∈ text, AddressChar c := by
  cases h with
  | full htail _ => exact addressChar_tail htail
  | compressed hleft hright _ =>
    intro c hc
    rcases List.mem_append.mp hc with hc | hc
    · exact addressChar_join (addressChar_groups hleft) c hc
    · rcases List.mem_cons.mp hc with rfl | hc
      · exact ⟨by decide, by decide⟩
      · rcases List.mem_cons.mp hc with rfl | hc
        · exact ⟨by decide, by decide⟩
        · exact addressChar_tail hright c hc

theorem isZoneChar_ascii {c : Char} (h : isZoneChar c = true) : c.toNat < 128 := by
  have hbound {top : Char} (hc : c ≤ top) (htop : top.toNat < 128) : c.toNat < 128 := by
    have : c.toNat ≤ top.toNat := hc
    omega
  simp only [isZoneChar, isDigit, Bool.or_eq_true, decide_eq_true_iff, beq_iff_eq] at h
  rcases h with ((((h | h) | h) | rfl) | rfl) | rfl
  · exact hbound h.2 (by decide)
  · exact hbound h.2 (by decide)
  · exact hbound h.2 (by decide)
  · decide
  · decide
  · decide

/-- The number of an address. -/
def addressNumber (values : List Nat) : Nat :=
  values.foldl (fun result group => result * 2 ^ 16 + group) 0

section Host

variable [AsciiCaseTables]

/-- The address of a spelling in lower case, once the zone is off. -/
theorem bare_spells {text address : Text} {values : List Nat} (h : SpellsAddress address values)
    (htext : text = address ∨
      ∃ zone, zone ≠ [] ∧ zone.all isZoneChar = true ∧ text = address ++ '%' :: zone) :
    (CaseTables.toLowerCase text).takeWhile (· != '%') = address.map Char.toLower := by
  have hchars := addressChar_spells h
  have hbefore : ∀ c ∈ address.map Char.toLower, (c != '%') = true := by
    intro c hc
    obtain ⟨letter, hletter, rfl⟩ := List.mem_map.mp hc
    exact bne_iff_ne.mpr (hchars letter hletter).2
  rcases htext with rfl | ⟨zone, -, hzone, rfl⟩
  · rw [AsciiCaseTables.toLowerCase_ascii _ fun c hc => (hchars c hc).1]
    exact List.takeWhile_eq_self_iff.mpr hbefore
  · have hascii : ∀ c ∈ address ++ '%' :: zone, c.toNat < 128 := by
      intro c hc
      rcases List.mem_append.mp hc with hc | hc
      · exact (hchars c hc).1
      · rcases List.mem_cons.mp hc with rfl | hc
        · decide
        · exact isZoneChar_ascii (List.all_eq_true.mp hzone c hc)
    rw [AsciiCaseTables.toLowerCase_ascii _ hascii, List.map_append,
      List.takeWhile_append_of_pos hbefore]
    show address.map Char.toLower ++ List.takeWhile _ ('%' :: zone.map Char.toLower) = _
    simp

/-- **Every spelling reads as its address.** -/
theorem ipv6ToBigInt_spells {text : Text} {values : List Nat} (h : Spells text values) :
    ipv6ToBigInt text = some (addressNumber values) := by
  obtain ⟨address, haddress, htext⟩ := h
  obtain ⟨normalized, pieces, hexpand, hgroups, hpieces⟩ := ipv6Groups_spells haddress
  unfold ipv6ToBigInt
  simp only [bare_spells haddress htext]
  rw [hexpand]
  simp only [Option.bind_eq_bind, Option.bind_some, hgroups, mapM_pieces hpieces]
  rfl

end Host

/-! ## 7. Public addresses -/

/-- `isIP` of node:net recognizes the spellings. -/
class NodeNetAddress extends NetAddress where
  isIP_dotted : ∀ text g h, SpellsDotted text g h → isIP text = 4
  isIP_spells : ∀ text values, Spells text values → isIP text = 6

/-- The addresses that stand for the IPv4 address of two groups. -/
inductive Embeds : List Nat → Nat → Nat → Prop where
  | mapped (g h : Nat) : Embeds [0, 0, 0, 0, 0, 0xffff, g, h] g h
  | compatible (g h : Nat) : Embeds [0, 0, 0, 0, 0, 0, g, h] g h
  | nat64 (g h : Nat) : Embeds [0x64, 0xff9b, 0, 0, 0, 0, g, h] g h
  | sixToFour (g h c d e f k : Nat) : Embeds [0x2002, g, h, c, d, e, f, k] g h

section Host

variable [NodeNetAddress] [AsciiCaseTables]

theorem isPublicIpAddress_spells {text : Text} {values : List Nat} (h : Spells text values) :
    isPublicIpAddress text = ipv6Public (addressNumber values) := by
  have hfamily : NetAddress.isIP text = 6 := NodeNetAddress.isIP_spells text values h
  unfold isPublicIpAddress
  rw [hfamily, if_neg (by decide), if_pos rfl, ipv6ToBigInt_spells h]
  rfl

theorem isPublicIpAddress_dotted {text : Text} {g h : Nat} (hdotted : SpellsDotted text g h) :
    isPublicIpAddress text = ipv4Public (g * 65536 + h) := by
  have hfamily : NetAddress.isIP text = 4 := NodeNetAddress.isIP_dotted text g h hdotted
  unfold isPublicIpAddress
  rw [hfamily, if_pos rfl, (ipv4ToNumber_dotted hdotted).1]
  rfl

omit [NodeNetAddress] [AsciiCaseTables] in
theorem spells_lt {text : Text} {values : List Nat} (h : Spells text values) :
    ∀ value ∈ values, value < 65536 := by
  obtain ⟨address, haddress, -⟩ := h
  obtain ⟨-, pieces, -, -, hpieces⟩ := ipv6Groups_spells haddress
  exact (mapM_hexGroup (mapM_pieces hpieces)).2

omit [NodeNetAddress] [AsciiCaseTables] in
/-- **No embedding is public where the embedded address is not.** -/
theorem embeds_not_public {values : List Nat} {g h : Nat} (hembeds : Embeds values g h)
    (hlt : ∀ value ∈ values, value < 65536) (hpublic : ipv4Public (g * 65536 + h) = false) :
    ipv6Public (addressNumber values) = false := by
  rw [← Bool.not_eq_true] at hpublic ⊢
  intro hvalue
  cases hembeds with
  | mapped =>
    have hg := hlt g (by simp)
    have hh := hlt h (by simp)
    have heq : addressNumber [0, 0, 0, 0, 0, 0xffff, g, h] = groups 0 0 0 0 0 0xffff g h := by
      simp [addressNumber, groups]
    rw [heq, ipv6Public_iff (by decide) (by decide) (by decide) (by decide) (by decide)
      (by decide) hg hh] at hvalue
    exact hpublic ((embedded_octets hg hh).mpr hvalue)
  | compatible =>
    have hg := hlt g (by simp)
    have hh := hlt h (by simp)
    have heq : addressNumber [0, 0, 0, 0, 0, 0, g, h] = groups 0 0 0 0 0 0 g h := by
      simp [addressNumber, groups]
    rw [heq, ipv6Public_iff (by decide) (by decide) (by decide) (by decide) (by decide)
      (by decide) hg hh] at hvalue
    exact hpublic ((embedded_octets hg hh).mpr hvalue)
  | nat64 =>
    have hg := hlt g (by simp)
    have hh := hlt h (by simp)
    have heq : addressNumber [0x64, 0xff9b, 0, 0, 0, 0, g, h] =
        groups 0x64 0xff9b 0 0 0 0 g h := by
      simp [addressNumber, groups]
    rw [heq, ipv6Public_iff (by decide) (by decide) (by decide) (by decide) (by decide)
      (by decide) hg hh] at hvalue
    exact hvalue.1 ⟨rfl, rfl, rfl, rfl, rfl, rfl⟩
  | sixToFour _ _ c d e f k =>
    have heq : addressNumber [0x2002, g, h, c, d, e, f, k] = groups 0x2002 g h c d e f k := by
      simp [addressNumber, groups]
    rw [heq, ipv6Public_iff (by decide) (hlt g (by simp)) (hlt h (by simp)) (hlt c (by simp))
      (hlt d (by simp)) (hlt e (by simp)) (hlt f (by simp)) (hlt k (by simp))] at hvalue
    exact hvalue.2.2.2.2.2.2.2.1 rfl

/-- **The answer is the address's**: two spellings of an address have the same, and a spelling of
    an address that embeds an IPv4 address is refused if the IPv4 address is. -/
theorem public_by_address :
    (∀ left right values, Spells left values → Spells right values →
      isPublicIpAddress left = isPublicIpAddress right) ∧
    (∀ dotted g h, SpellsDotted dotted g h → isPublicIpAddress dotted = false →
      ∀ text values, Embeds values g h → Spells text values → isPublicIpAddress text = false) := by
  refine ⟨fun left right values hleft hright => ?_, ?_⟩
  · rw [isPublicIpAddress_spells hleft, isPublicIpAddress_spells hright]
  · intro dotted g h hdotted hpublic text values hembeds htext
    rw [isPublicIpAddress_dotted hdotted] at hpublic
    rw [isPublicIpAddress_spells htext]
    exact embeds_not_public hembeds (spells_lt htext) hpublic

end Host

/-! ## 8. A mapped address -/

theorem colon_mem_join {texts : List Text} (h : 2 ≤ texts.length) : ':' ∈ join [':'] texts := by
  match texts, h with
  | text :: next :: more, _ =>
    rw [join_cons_cons]
    simp

theorem colon_mem_spells {text : Text} {values : List Nat} (h : Spells text values) :
    ':' ∈ text := by
  obtain ⟨address, haddress, htext⟩ := h
  have hmem : ':' ∈ address := by
    cases haddress with
    | compressed _ _ _ => simp
    | full htail hlength =>
      refine colon_mem_join ?_
      cases htail with
      | groups hgroups =>
        have := hgroups.length_eq
        omega
      | dotted hgroups _ =>
        have := hgroups.length_eq
        rw [List.length_append] at hlength ⊢
        simp only [List.length_cons, List.length_nil] at hlength ⊢
        omega
  rcases htext with rfl | ⟨zone, -, -, rfl⟩
  · exact hmem
  · exact List.mem_append_left _ hmem

/-- A host that tells the families apart by their separators. -/
@[reducible] def separatorAddress : NodeNetAddress where
  isIP text := if ':' ∈ text then 6 else if '.' ∈ text then 4 else 0
  isIP_dotted text g h hdotted := by
    have hcolon : ':' ∉ text := by
      intro hc
      rcases mem_dotted hdotted hc with hdot | hdigit
      · cases hdot
      · exact (isDigit_plain hdigit).1 rfl
    have hdot : '.' ∈ text := by
      obtain ⟨a, b, c, d, -, -, -, -, rfl, -, -⟩ := hdotted
      rw [join_cons_cons]
      simp
    rw [if_neg hcolon, if_pos hdot]
  isIP_spells text values hspells := if_pos (colon_mem_spells hspells)

@[reducible] def letterCase : AsciiCaseTables where
  toLowerCase := List.map Char.toLower
  toLowerCase_ascii _ _ := rfl

theorem public_by_address_mapped :
    let _ : NodeNetAddress := separatorAddress
    let _ : AsciiCaseTables := letterCase
    isPublicIpAddress "::ffff:10.0.0.1".toList = isPublicIpAddress "0:0:0:0:0:FFFF:0A00:1".toList ∧
      isPublicIpAddress "::ffff:10.0.0.1".toList = false := by
  intro _ _
  have hdotted : SpellsDotted "10.0.0.1".toList (256 * 10 + 0) (256 * 0 + 1) :=
    ⟨10, 0, 0, 1, by decide, by decide, by decide, by decide, by decide, rfl, rfl⟩
  have hffff : SpellsGroup "ffff".toList 0xffff :=
    ⟨[15, 15, 15, 15], by decide, by decide, by decide, by decide⟩
  have hFFFF : SpellsGroup "FFFF".toList 0xffff :=
    ⟨[15, 15, 15, 15], by decide, by decide, by decide, by decide⟩
  have h0A00 : SpellsGroup "0A00".toList 0x0a00 :=
    ⟨[0, 10, 0, 0], by decide, by decide, by decide, by decide⟩
  have hzero : SpellsGroup "0".toList 0 := ⟨[0], by decide, by decide, by decide, by decide⟩
  have hone : SpellsGroup "1".toList 1 := ⟨[1], by decide, by decide, by decide, by decide⟩
  have hshort : Spells "::ffff:10.0.0.1".toList [0, 0, 0, 0, 0, 0xffff, 0x0a00, 1] :=
    ⟨_, .compressed .nil (.dotted (.cons hffff .nil) hdotted) (by decide), Or.inl (by decide)⟩
  have hlong : Spells "0:0:0:0:0:FFFF:0A00:1".toList [0, 0, 0, 0, 0, 0xffff, 0x0a00, 1] :=
    ⟨_, .full (.groups (.cons hzero (.cons hzero (.cons hzero (.cons hzero (.cons hzero
      (.cons hFFFF (.cons h0A00 (.cons hone .nil))))))))) rfl, Or.inl (by decide)⟩
  obtain ⟨hsame, hembedded⟩ := public_by_address
  exact ⟨hsame _ _ _ hshort hlong,
    hembedded _ _ _ hdotted (by decide) _ _ (.mapped 0x0a00 1) hshort⟩

end OpenVac.Knowledge
