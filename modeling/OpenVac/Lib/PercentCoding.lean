/-
  File:      OpenVac/Lib/PercentCoding.lean
  Subject:   Percent-encoding of texts: what `decodeURIComponent` reads and what a URL writes.

  * `octets`, `decodeURIComponent` -- a text as bytes, and the text these bytes are.
  * `percentEncode` -- the characters of a set, byte by byte; `decode_percentEncode`: what was
    encoded is decoded to what the text itself is decoded to.
  * `decode_eq_self_iff` -- a text without `%` is all that decoding leaves alone.
  * `Piece`, `flatten`, `decode_flatten` -- a text cut at separators is decoded piece by piece.
-/
import OpenVac.Lib.Utf8

open JsString

namespace PercentCoding

/-! ## 1. Decoding -/

def hexValue (c : Char) : Option Nat :=
  if '0' ≤ c ∧ c ≤ '9' then some (c.toNat - '0'.toNat)
  else if 'a' ≤ c ∧ c ≤ 'f' then some (c.toNat - 'a'.toNat + 10)
  else if 'A' ≤ c ∧ c ≤ 'F' then some (c.toNat - 'A'.toNat + 10)
  else none

/-- `%XX` is a byte, any other character its UTF-8 bytes; `none` where digits are missing. -/
def octets : Text → Option (List UInt8)
  | [] => some []
  | c :: rest =>
      if c = '%' then
        match rest with
        | a :: b :: more =>
            match hexValue a, hexValue b with
            | some high, some low => (octets more).map (UInt8.ofNat (16 * high + low) :: ·)
            | _, _ => none
        | _ => none
      else (octets rest).map (String.utf8EncodeChar c ++ ·)

/-- The text of well-formed UTF-8. -/
def fromUtf8 (bytes : List UInt8) : Option Text :=
  if Utf8.encode (Utf8.decode Utf8.start bytes).2 = bytes then
    some (Utf8.decode Utf8.start bytes).2
  else none

/-- `decodeURIComponent`; `none` where it throws. The bytes of a character that is not
    encoded are well-formed by themselves, so the escapes between two of them have to be. -/
def decodeURIComponent (s : Text) : Option Text := (octets s).bind fromUtf8

theorem fromUtf8_eq_some_iff {bytes : List UInt8} {t : Text} :
    fromUtf8 bytes = some t ↔ Utf8.encode t = bytes := by
  unfold fromUtf8
  constructor
  · intro h
    split at h
    · rename_i hbytes
      rw [← Option.some.inj h]
      exact hbytes
    · nomatch h
  · rintro rfl
    rw [Utf8.decode_encode, if_pos rfl]

theorem decode_eq_some_iff {s t : Text} :
    decodeURIComponent s = some t ↔ octets s = some (Utf8.encode t) := by
  unfold decodeURIComponent
  rw [Option.bind_eq_some_iff]
  constructor
  · rintro ⟨bytes, hbytes, htext⟩
    rw [hbytes, fromUtf8_eq_some_iff.mp htext]
  · intro h
    exact ⟨_, h, fromUtf8_eq_some_iff.mpr rfl⟩

theorem octets_cons {c : Char} (h : c ≠ '%') (s : Text) :
    octets (c :: s) = (octets s).map (String.utf8EncodeChar c ++ ·) := by
  rw [octets.eq_def]
  dsimp only
  rw [if_neg h]

theorem octets_percent (a b : Char) (s : Text) :
    octets ('%' :: a :: b :: s) =
      match hexValue a, hexValue b with
      | some high, some low => (octets s).map (UInt8.ofNat (16 * high + low) :: ·)
      | _, _ => none := by
  rw [octets, if_pos rfl]

theorem octets_percent_left {a : Char} (h : hexValue a = none) (s : Text) :
    octets ('%' :: a :: s) = none := by
  cases s with
  | nil => rfl
  | cons b s => rw [octets_percent, h]

theorem octets_percent_right (a : Char) {b : Char} (h : hexValue b = none) (s : Text) :
    octets ('%' :: a :: b :: s) = none := by
  rw [octets_percent, h]
  cases hexValue a <;> rfl

theorem hexValue_range {c : Char} (h : hexValue c ≠ none) :
    0x30 ≤ c.toNat ∧ c.toNat ≤ 0x39 ∨ 0x41 ≤ c.toNat ∧ c.toNat ≤ 0x46 ∨
      0x61 ≤ c.toNat ∧ c.toNat ≤ 0x66 := by
  unfold hexValue at h
  split at h
  · rename_i hdigit
    exact .inl hdigit
  split at h
  · rename_i hlower
    exact .inr (.inr hlower)
  split at h
  · rename_i hupper
    exact .inr (.inl hupper)
  · exact absurd rfl h

/-- Every character of a text is in its bytes, or belongs to an escape. -/
theorem octets_mem {s : Text} {bytes : List UInt8} (h : octets s = some bytes) {c : Char}
    (hc : c ∈ s) :
    c = '%' ∨ hexValue c ≠ none ∨ ∀ byte ∈ String.utf8EncodeChar c, byte ∈ bytes := by
  induction s using octets.induct generalizing bytes with
  | case1 => nomatch hc
  | case2 a b more high low hlow hhigh ih =>
    rw [octets_percent, hhigh, hlow] at h
    obtain ⟨tail, htail, rfl⟩ := Option.map_eq_some_iff.mp h
    rcases List.mem_cons.mp hc with rfl | hc
    · exact .inl rfl
    rcases List.mem_cons.mp hc with rfl | hc
    · exact .inr (.inl (by rw [hhigh]; nofun))
    rcases List.mem_cons.mp hc with rfl | hc
    · exact .inr (.inl (by rw [hlow]; nofun))
    · rcases ih htail hc with heq | hhex | hall
      · exact .inl heq
      · exact .inr (.inl hhex)
      · exact .inr (.inr fun byte hbyte => List.mem_cons_of_mem _ (hall byte hbyte))
  | case3 a b more hbad =>
    rw [octets_percent] at h
    split at h
    · rename_i high low hhigh hlow
      exact absurd hlow (hbad high low hhigh)
    · nomatch h
  | case4 rest hshort =>
    match rest, hshort with
    | [], _ => nomatch h
    | [a], _ => nomatch h
    | a :: b :: more, hshort => exact absurd rfl (hshort a b more)
  | case5 d rest hd ih =>
    rw [octets_cons hd] at h
    obtain ⟨tail, htail, rfl⟩ := Option.map_eq_some_iff.mp h
    rcases List.mem_cons.mp hc with rfl | hc
    · exact .inr (.inr fun byte hbyte => List.mem_append_left _ hbyte)
    · rcases ih htail hc with heq | hhex | hall
      · exact .inl heq
      · exact .inr (.inl hhex)
      · exact .inr (.inr fun byte hbyte => List.mem_append_right _ (hall byte hbyte))

/-! ## 2. Separators -/

/-- An ASCII character that no escape contains. -/
def isSeparator (c : Char) : Bool :=
  decide (c.toNat < 0x80) && c != '%' && (hexValue c).isNone

theorem isSeparator_spec {c : Char} (h : isSeparator c = true) :
    c.toNat < 0x80 ∧ c ≠ '%' ∧ hexValue c = none := by
  unfold isSeparator at h
  rw [Bool.and_eq_true, Bool.and_eq_true, decide_eq_true_eq, bne_iff_ne, Option.isNone_iff_eq_none]
    at h
  exact ⟨h.1.1, h.1.2, h.2⟩

/-- The bytes on either side of a separator. -/
theorem octets_append_separator {c : Char} (h : isSeparator c = true) (s t : Text) :
    octets (s ++ c :: t) =
      (octets s).bind fun before =>
        (octets t).map fun after => before ++ (String.utf8EncodeChar c ++ after) := by
  obtain ⟨-, hpercent, hhex⟩ := isSeparator_spec h
  induction s using octets.induct with
  | case1 =>
    rw [List.nil_append, octets_cons hpercent]
    rfl
  | case2 a b more high low hlow hhigh ih =>
    rw [List.cons_append, List.cons_append, List.cons_append, octets_percent, octets_percent,
      hhigh, hlow]
    dsimp only
    rw [ih]
    cases octets more with
    | none => rfl
    | some before => cases octets t <;> rfl
  | case3 a b more hbad =>
    have hnone (u : Text) : octets ('%' :: a :: b :: u) = none := by
      rw [octets_percent]
      cases hhigh : hexValue a with
      | none => rfl
      | some high =>
        cases hlow : hexValue b with
        | none => rfl
        | some low => exact absurd hlow (hbad high low hhigh)
    rw [List.cons_append, List.cons_append, List.cons_append, hnone, hnone]
    rfl
  | case4 rest hshort =>
    match rest, hshort with
    | [], _ =>
      rw [List.cons_append, List.nil_append, octets_percent_left hhex]
      rfl
    | [a], _ =>
      rw [List.cons_append, List.cons_append, List.nil_append, octets_percent_right a hhex]
      rfl
    | a :: b :: more, hshort => exact absurd rfl (hshort a b more)
  | case5 d rest hd ih =>
    rw [List.cons_append, octets_cons hd, octets_cons hd, ih]
    cases octets rest with
    | none => rfl
    | some before =>
      cases octets t with
      | none => rfl
      | some after => simp [List.append_assoc]

/-- The bytes of a character: itself where it is ASCII, else none of them is. -/
theorem encodeChar_ascii {c : Char} (h : c.toNat < 0x80) :
    String.utf8EncodeChar c = [UInt8.ofNat c.toNat] := by
  have hval : c.val.toNat = c.toNat := rfl
  unfold String.utf8EncodeChar
  simp only [hval]
  rw [if_pos (by omega)]

theorem encodeChar_mem_ascii {c d : Char} (hc : c.toNat < 0x80)
    (h : UInt8.ofNat c.toNat ∈ String.utf8EncodeChar d) : d = c := by
  have hbyte : (UInt8.ofNat c.toNat).toNat = c.toNat := by
    rw [UInt8.toNat_ofNat']
    omega
  obtain ⟨e, he, hnat⟩ := Utf8.mem_encode_ascii (s := [d]) (List.mem_flatMap.mpr ⟨d, by simp, h⟩)
    (by omega)
  rw [List.mem_singleton.mp he, hbyte] at hnat
  exact Char.ext (UInt32.toNat_inj.mp hnat)

theorem encode_append (s t : Text) : Utf8.encode (s ++ t) = Utf8.encode s ++ Utf8.encode t :=
  List.flatMap_append

theorem encode_cons (c : Char) (s : Text) :
    Utf8.encode (c :: s) = String.utf8EncodeChar c ++ Utf8.encode s := rfl

/-- **UTF-8 keeps its place**: an ASCII byte ends one text and begins another. -/
theorem encode_cut {c : Char} (hc : c.toNat < 0x80) {before after : List UInt8} {t : Text}
    (h : Utf8.encode t = before ++ UInt8.ofNat c.toNat :: after) :
    ∃ s u, t = s ++ c :: u ∧ Utf8.encode s = before ∧ Utf8.encode u = after := by
  induction t generalizing before with
  | nil =>
    have hnil : before ++ UInt8.ofNat c.toNat :: after = [] := h.symm
    exact absurd hnil (by simp)
  | cons d t ih =>
    rw [encode_cons] at h
    rcases List.append_eq_append_iff.mp h with ⟨rest, hbefore, hrest⟩ | ⟨rest, hchar, hrest⟩
    · obtain ⟨s, u, rfl, hs, hu⟩ := ih hrest
      refine ⟨d :: s, u, rfl, ?_, hu⟩
      rw [encode_cons, hs, hbefore]
    · cases rest with
      | nil =>
        rw [List.append_nil] at hchar
        rw [List.nil_append] at hrest
        obtain ⟨s, u, rfl, hs, hu⟩ := @ih [] hrest.symm
        refine ⟨d :: s, u, rfl, ?_, hu⟩
        rw [encode_cons, hs, List.append_nil, hchar]
      | cons byte rest =>
        obtain ⟨rfl, hafter⟩ := List.cons_eq_cons.mp hrest
        obtain rfl : d = c := encodeChar_mem_ascii hc (by rw [hchar]; simp)
        rw [encodeChar_ascii hc] at hchar
        have hempty : before = [] ∧ rest = [] := by
          cases before with
          | nil => exact ⟨rfl, (List.cons_eq_cons.mp hchar).2.symm⟩
          | cons first more => exact absurd (List.cons_eq_cons.mp hchar).2 (by simp)
        obtain ⟨rfl, rfl⟩ := hempty
        exact ⟨[], t, rfl, rfl, hafter.symm⟩

/-- **Decoding stops at no separator**: what is before it and what is after it are decoded by
    themselves. -/
theorem decode_append_separator {c : Char} (h : isSeparator c = true) {s t w : Text} :
    decodeURIComponent (s ++ c :: t) = some w ↔
      ∃ x y, decodeURIComponent s = some x ∧ decodeURIComponent t = some y ∧ w = x ++ c :: y := by
  have hascii := (isSeparator_spec h).1
  simp only [decode_eq_some_iff]
  rw [octets_append_separator h, Option.bind_eq_some_iff]
  constructor
  · rintro ⟨before, hbefore, hmap⟩
    obtain ⟨after, hafter, hbytes⟩ := Option.map_eq_some_iff.mp hmap
    rw [encodeChar_ascii hascii, List.singleton_append] at hbytes
    obtain ⟨x, y, rfl, hx, hy⟩ := encode_cut hascii hbytes.symm
    exact ⟨x, y, by rw [hbefore, hx], by rw [hafter, hy], rfl⟩
  · rintro ⟨x, y, hx, hy, rfl⟩
    refine ⟨_, hx, ?_⟩
    rw [hy, Option.map_some, encode_append, encode_cons]

/-! ## 3. What decoding leaves alone -/

theorem octets_plain {s : Text} (h : '%' ∉ s) : octets s = some (Utf8.encode s) := by
  induction s with
  | nil => rfl
  | cons c s ih =>
    rw [List.mem_cons, not_or] at h
    rw [octets_cons (Ne.symm h.1), ih h.2]
    rfl

theorem decode_plain {s : Text} (h : '%' ∉ s) : decodeURIComponent s = some s :=
  decode_eq_some_iff.mpr (octets_plain h)

theorem one_le_encodeChar (c : Char) : 1 ≤ (String.utf8EncodeChar c).length := by
  have hval : c.val.toNat = c.toNat := rfl
  unfold String.utf8EncodeChar
  simp only [hval]
  split
  · exact Nat.le_refl 1
  split
  · simp
  split
  · simp
  · simp

/-- Each escape is two bytes shorter when it is decoded. -/
theorem octets_length {s : Text} {bytes : List UInt8} (h : octets s = some bytes) :
    bytes.length ≤ (Utf8.encode s).length ∧
      ('%' ∈ s → bytes.length < (Utf8.encode s).length) := by
  induction s using octets.induct generalizing bytes with
  | case1 =>
    obtain rfl := Option.some.inj h
    exact ⟨Nat.le_refl 0, fun hmem => absurd hmem (by simp)⟩
  | case2 a b more high low hlow hhigh ih =>
    rw [octets_percent, hhigh, hlow] at h
    obtain ⟨tail, htail, rfl⟩ := Option.map_eq_some_iff.mp h
    have hle := (ih htail).1
    have ha := one_le_encodeChar a
    have hb := one_le_encodeChar b
    have hlen : (Utf8.encode ('%' :: a :: b :: more)).length =
        (String.utf8EncodeChar '%').length + ((String.utf8EncodeChar a).length +
          ((String.utf8EncodeChar b).length + (Utf8.encode more).length)) := by
      rw [encode_cons, encode_cons, encode_cons, List.length_append, List.length_append,
        List.length_append]
    have hpercent := one_le_encodeChar '%'
    rw [List.length_cons, hlen]
    omega
  | case3 a b more hbad =>
    rw [octets_percent] at h
    cases hhigh : hexValue a with
    | none =>
      rw [hhigh] at h
      nomatch h
    | some high =>
      cases hlow : hexValue b with
      | none =>
        rw [hhigh, hlow] at h
        nomatch h
      | some low => exact absurd hlow (hbad high low hhigh)
  | case4 rest hshort =>
    match rest, hshort with
    | [], _ => nomatch h
    | [a], _ => nomatch h
    | a :: b :: more, hshort => exact absurd rfl (hshort a b more)
  | case5 c rest hc ih =>
    rw [octets_cons hc] at h
    obtain ⟨tail, htail, rfl⟩ := Option.map_eq_some_iff.mp h
    obtain ⟨hle, hlt⟩ := ih htail
    rw [encode_cons, List.length_append, List.length_append]
    refine ⟨by omega, fun hmem => ?_⟩
    rw [List.mem_cons] at hmem
    rcases hmem with hhead | hrest
    · exact absurd hhead.symm hc
    · have := hlt hrest
      omega

/-- **Decoding leaves exactly the texts without `%` alone.** -/
theorem decode_eq_self_iff {s : Text} : decodeURIComponent s = some s ↔ '%' ∉ s := by
  refine ⟨fun h hmem => ?_, decode_plain⟩
  have hlt := (octets_length (decode_eq_some_iff.mp h)).2 hmem
  omega

/-- A text that is not empty is decoded to one that is not. -/
theorem decode_eq_nil {s : Text} (h : decodeURIComponent s = some []) : s = [] := by
  have hoctets : octets s = some [] := decode_eq_some_iff.mp h
  cases s with
  | nil => rfl
  | cons c s =>
    by_cases hc : c = '%'
    · subst hc
      match s with
      | [] => nomatch hoctets
      | [a] => nomatch hoctets
      | a :: b :: more =>
        rw [octets_percent] at hoctets
        split at hoctets
        · obtain ⟨_, _, hnil⟩ := Option.map_eq_some_iff.mp hoctets
          nomatch hnil
        · nomatch hoctets
    · rw [octets_cons hc] at hoctets
      obtain ⟨tail, _, hnil⟩ := Option.map_eq_some_iff.mp hoctets
      have hlen := congrArg List.length hnil
      have hone := one_le_encodeChar c
      rw [List.length_append, List.length_nil] at hlen
      omega

/-! ## 4. Encoding -/

/-- An upper-case hexadecimal digit. -/
def hexDigit (n : Nat) : Char := Char.ofNat (if n < 10 then '0'.toNat + n else 'A'.toNat + n - 10)

def percentEncodeByte (byte : UInt8) : Text :=
  ['%', hexDigit (byte.toNat / 16), hexDigit (byte.toNat % 16)]

/-- A character as a URL writes it where the set asks for it to be encoded. -/
def percentEncodeChar (set : Char → Bool) (c : Char) : Text :=
  if set c then (String.utf8EncodeChar c).flatMap percentEncodeByte else [c]

def percentEncode (set : Char → Bool) (s : Text) : Text := s.flatMap (percentEncodeChar set)

/-- A set that leaves escapes alone. -/
def isEncodeSet (set : Char → Bool) : Prop := ∀ c, c = '%' ∨ hexValue c ≠ none → set c = false

theorem hexDigit_spec : ∀ n : Fin 16, hexValue (hexDigit n) = some n.val ∧
    isSeparator (hexDigit n) = false ∧ (hexDigit n).toNat < 0x80 := by decide

theorem hexValue_hexDigit {n : Nat} (h : n < 16) : hexValue (hexDigit n) = some n :=
  (hexDigit_spec ⟨n, h⟩).1

theorem byte_lt (byte : UInt8) : byte.toNat < 256 := byte.toNat_lt

theorem octets_percentEncodeByte (byte : UInt8) (t : Text) :
    octets (percentEncodeByte byte ++ t) = (octets t).map (byte :: ·) := by
  have hbyte := byte_lt byte
  have hvalue : UInt8.ofNat (16 * (byte.toNat / 16) + byte.toNat % 16) = byte := by
    rw [show 16 * (byte.toNat / 16) + byte.toNat % 16 = byte.toNat by omega]
    exact UInt8.ofNat_toNat
  show octets ('%' :: hexDigit (byte.toNat / 16) :: hexDigit (byte.toNat % 16) :: t) = _
  rw [octets_percent, hexValue_hexDigit (by omega), hexValue_hexDigit (by omega)]
  dsimp only
  rw [hvalue]

theorem octets_percentEncodeBytes (bytes : List UInt8) (t : Text) :
    octets (bytes.flatMap percentEncodeByte ++ t) = (octets t).map (bytes ++ ·) := by
  induction bytes with
  | nil =>
    rw [List.flatMap_nil, List.nil_append]
    cases octets t <;> rfl
  | cons byte bytes ih =>
    rw [List.flatMap_cons, List.append_assoc, octets_percentEncodeByte, ih]
    cases octets t <;> rfl

theorem percentEncode_cons (set : Char → Bool) (c : Char) (s : Text) :
    percentEncode set (c :: s) = percentEncodeChar set c ++ percentEncode set s := rfl

/-- What stands for a character that is no digit does not begin with one. -/
theorem percentEncodeChar_head (set : Char → Bool) {c : Char} (h : hexValue c = none) :
    ∃ d tail, percentEncodeChar set c = d :: tail ∧ hexValue d = none := by
  unfold percentEncodeChar
  split
  · cases hbytes : String.utf8EncodeChar c with
    | nil =>
      have hone := one_le_encodeChar c
      rw [hbytes] at hone
      exact absurd hone (by decide)
    | cons byte bytes => exact ⟨'%', _, rfl, by decide⟩
  · exact ⟨c, [], rfl, h⟩

/-- **Encoding changes no byte.** -/
theorem octets_percentEncode {set : Char → Bool} (hset : isEncodeSet set) (s : Text) :
    octets (percentEncode set s) = octets s := by
  have hkeep {c : Char} (h : c = '%' ∨ hexValue c ≠ none) : percentEncodeChar set c = [c] :=
    if_neg (by rw [hset c h]; decide)
  induction s using octets.induct with
  | case1 => rfl
  | case2 a b more high low hlow hhigh ih =>
    rw [percentEncode_cons, percentEncode_cons, percentEncode_cons, hkeep (.inl rfl),
      hkeep (.inr (by rw [hhigh]; nofun)), hkeep (.inr (by rw [hlow]; nofun))]
    simp only [List.singleton_append]
    rw [octets_percent, octets_percent, ih]
  | case3 a b more hbad =>
    rw [percentEncode_cons, percentEncode_cons, percentEncode_cons, hkeep (.inl rfl)]
    cases hhigh : hexValue a with
    | none =>
      obtain ⟨d, tail, hd, hnone⟩ := percentEncodeChar_head set hhigh
      rw [hd, octets_percent_left hhigh]
      exact octets_percent_left hnone _
    | some high =>
      cases hlow : hexValue b with
      | none =>
        obtain ⟨d, tail, hd, hnone⟩ := percentEncodeChar_head set hlow
        rw [hkeep (.inr (by rw [hhigh]; nofun)), hd, octets_percent_right a hlow]
        exact octets_percent_right a hnone _
      | some low => exact absurd hlow (hbad high low hhigh)
  | case4 rest hshort =>
    match rest, hshort with
    | [], _ =>
      rw [percentEncode_cons, hkeep (.inl rfl)]
      rfl
    | [a], _ =>
      rw [percentEncode_cons, percentEncode_cons, hkeep (.inl rfl)]
      cases hhigh : hexValue a with
      | none =>
        obtain ⟨d, tail, hd, hnone⟩ := percentEncodeChar_head set hhigh
        rw [hd]
        exact octets_percent_left hnone _
      | some high =>
        rw [hkeep (.inr (by rw [hhigh]; nofun))]
        rfl
    | a :: b :: more, hshort => exact absurd rfl (hshort a b more)
  | case5 c rest hc ih =>
    rw [percentEncode_cons, octets_cons hc]
    unfold percentEncodeChar
    split
    · rw [octets_percentEncodeBytes, ih]
    · rw [List.singleton_append, octets_cons hc, ih]

theorem decode_percentEncode {set : Char → Bool} (hset : isEncodeSet set) (s : Text) :
    decodeURIComponent (percentEncode set s) = decodeURIComponent s := by
  unfold decodeURIComponent
  rw [octets_percentEncode hset]

/-- What an encoded text is made of. -/
theorem mem_percentEncode {set : Char → Bool} {s : Text} {c : Char} (h : c ∈ percentEncode set s) :
    c ∈ s ∧ set c = false ∨ c = '%' ∨ hexValue c ≠ none := by
  obtain ⟨d, hd, hc⟩ := List.mem_flatMap.mp h
  unfold percentEncodeChar at hc
  split at hc
  · refine .inr ?_
    obtain ⟨byte, _, hbyte⟩ := List.mem_flatMap.mp hc
    have hlt := byte_lt byte
    rcases List.mem_cons.mp hbyte with rfl | hbyte
    · exact .inl rfl
    rcases List.mem_cons.mp hbyte with rfl | hbyte
    · rw [hexValue_hexDigit (by omega)]
      exact .inr nofun
    · rw [List.mem_singleton.mp hbyte, hexValue_hexDigit (by omega)]
      exact .inr nofun
  · rename_i hset
    rw [List.mem_singleton.mp hc]
    exact .inl ⟨hd, Bool.eq_false_iff.mpr hset⟩

theorem percentEncode_of_plain {set : Char → Bool} {s : Text} (h : ∀ c ∈ s, set c = false) :
    percentEncode set s = s := by
  induction s with
  | nil => rfl
  | cons c s ih =>
    rw [percentEncode_cons, ih fun d hd => h d (List.mem_cons_of_mem c hd)]
    unfold percentEncodeChar
    rw [if_neg (by rw [h c List.mem_cons_self]; decide)]
    rfl

theorem percentEncode_idem {set : Char → Bool} (hset : isEncodeSet set) (s : Text) :
    percentEncode set (percentEncode set s) = percentEncode set s := by
  refine percentEncode_of_plain fun c hc => ?_
  rcases mem_percentEncode hc with ⟨-, hfalse⟩ | hescape
  · exact hfalse
  · exact hset c hescape

/-! ## 5. Pieces -/

/-- A separator with what follows it. -/
abbrev Piece := Char × Text

def flatten (pieces : List Piece) : Text := pieces.flatMap fun piece => piece.1 :: piece.2

/-- The pieces of the decoded text. -/
def Decoded (piece next : Piece) : Prop :=
  next.1 = piece.1 ∧ decodeURIComponent piece.2 = some next.2

@[simp] theorem flatten_nil : flatten [] = [] := rfl

theorem flatten_cons (piece : Piece) (pieces : List Piece) :
    flatten (piece :: pieces) = piece.1 :: (piece.2 ++ flatten pieces) := rfl

theorem flatten_append (pieces more : List Piece) :
    flatten (pieces ++ more) = flatten pieces ++ flatten more := List.flatMap_append

theorem decode_append_flatten {pieces : List Piece}
    (h : ∀ piece ∈ pieces, isSeparator piece.1 = true) {s w : Text} :
    decodeURIComponent (s ++ flatten pieces) = some w ↔
      ∃ x y, decodeURIComponent s = some x ∧ decodeURIComponent (flatten pieces) = some y ∧
        w = x ++ y := by
  cases pieces with
  | nil =>
    rw [flatten_nil, List.append_nil]
    constructor
    · intro hw
      exact ⟨w, [], hw, rfl, (List.append_nil w).symm⟩
    · rintro ⟨x, y, hx, hy, rfl⟩
      obtain rfl : [] = y := Option.some.inj hy
      rw [List.append_nil]
      exact hx
  | cons piece pieces =>
    have hpiece := h piece List.mem_cons_self
    rw [flatten_cons, decode_append_separator hpiece]
    constructor
    · rintro ⟨x, y, hx, hy, rfl⟩
      exact ⟨x, piece.1 :: y, hx,
        (decode_append_separator (s := []) hpiece).mpr ⟨[], y, rfl, hy, rfl⟩, rfl⟩
    · rintro ⟨x, y, hx, hy, rfl⟩
      obtain ⟨z, rest, hz, hrest, rfl⟩ := (decode_append_separator (s := []) hpiece).mp hy
      obtain rfl : [] = z := Option.some.inj hz
      exact ⟨x, rest, hx, hrest, rfl⟩

/-- **A text cut at separators is decoded piece by piece.** -/
theorem decode_flatten {pieces : List Piece} (h : ∀ piece ∈ pieces, isSeparator piece.1 = true)
    {w : Text} :
    decodeURIComponent (flatten pieces) = some w ↔
      ∃ next, List.Forall₂ Decoded pieces next ∧ w = flatten next := by
  induction pieces generalizing w with
  | nil =>
    constructor
    · intro hw
      exact ⟨[], .nil, (Option.some.inj hw).symm⟩
    · rintro ⟨next, hnext, rfl⟩
      cases hnext
      rfl
  | cons piece pieces ih =>
    have hrest : ∀ piece ∈ pieces, isSeparator piece.1 = true :=
      fun other hother => h other (List.mem_cons_of_mem piece hother)
    have hhead := decode_append_separator (s := []) (t := piece.2 ++ flatten pieces) (w := w)
      (h piece List.mem_cons_self)
    rw [List.nil_append] at hhead
    rw [flatten_cons, hhead]
    constructor
    · rintro ⟨z, y, hz, hy, rfl⟩
      obtain rfl : [] = z := Option.some.inj hz
      obtain ⟨x, tail, hx, htail, rfl⟩ := (decode_append_flatten hrest).mp hy
      obtain ⟨next, hnext, rfl⟩ := (ih hrest).mp htail
      exact ⟨(piece.1, x) :: next, .cons ⟨rfl, hx⟩ hnext, rfl⟩
    · rintro ⟨next, hnext, rfl⟩
      cases hnext with
      | cons hfirst hnext =>
        rename_i first next
        refine ⟨[], first.2 ++ flatten next, rfl, ?_, ?_⟩
        · exact (decode_append_flatten hrest).mpr
            ⟨_, _, hfirst.2, (ih hrest).mpr ⟨next, hnext, rfl⟩, rfl⟩
        · rw [flatten_cons, hfirst.1, List.nil_append]

end PercentCoding
