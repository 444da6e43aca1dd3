/-
  File:      OpenVac/Lib/Utf8.lean
  Subject:   UTF-8 as the Encoding Standard decodes and encodes it, one byte at a time.

  * `State`, `step`, `decode` -- the decoder: an ill-formed sequence is one U+FFFD, and the byte
    that ends it is read again.
  * `TextDecoder` -- `decode(bytes, { stream })`, which drops a leading U+FEFF once.
  * `encode` -- `TextEncoder.encode`.
  * `decode_append` -- what is decoded does not depend on how the bytes are cut.
  * `decode_encode` -- a text comes back from its bytes.
  * `decode_getLast_ascii`, `decode_head_ascii` -- an ASCII character at either end is a byte of
    its own there.
-/
import Mathlib.Tactic.Linarith
import OpenVac.Lib.JsString

open JsString

namespace Utf8

/-! ## 1. The decoder -/

/-- Between two bytes: the bits read so far, how many bytes of the character are missing, and
    the bounds of the next one. A character that is not one byte long ends above U+007F. -/
structure State where
  codePoint : Nat
  remaining : Nat
  lower : Nat
  upper : Nat
  wide : 0 < remaining → 0x80 ≤ lower ∧ upper ≤ 0xBF ∧ 2 ≤ codePoint * 64 + (lower - 0x80) ∧
    (remaining = 1 → 0x80 ≤ codePoint * 64 + (lower - 0x80))

/-- Between two characters. -/
def start : State := ⟨0, 0, 0x80, 0xBF, by omega⟩

def replacement : Char := '\uFFFD'

/-- The first byte of a character. -/
def first (b : Nat) : State × Text :=
  if b ≤ 0x7F then (start, [Char.ofNat b])
  else if h : 0xC2 ≤ b ∧ b ≤ 0xDF then (⟨b - 0xC0, 1, 0x80, 0xBF, by omega⟩, [])
  else if h : 0xE0 ≤ b ∧ b ≤ 0xEF then
    (⟨b - 0xE0, 2, if b = 0xE0 then 0xA0 else 0x80, if b = 0xED then 0x9F else 0xBF,
      by split <;> split <;> omega⟩, [])
  else if h : 0xF0 ≤ b ∧ b ≤ 0xF4 then
    (⟨b - 0xF0, 3, if b = 0xF0 then 0x90 else 0x80, if b = 0xF4 then 0x8F else 0xBF,
      by split <;> split <;> omega⟩, [])
  else (start, [replacement])

/-- One byte. -/
def step (s : State) (b : Nat) : State × Text :=
  if _ : s.remaining = 0 then first b
  else if _ : b < s.lower ∨ s.upper < b then ((first b).1, replacement :: (first b).2)
  else if _ : s.remaining = 1 then (start, [Char.ofNat (s.codePoint * 64 + (b - 0x80))])
  else
    (⟨s.codePoint * 64 + (b - 0x80), s.remaining - 1, 0x80, 0xBF,
      by have := s.wide (by omega); omega⟩, [])

def decode (s : State) : List UInt8 → State × Text
  | [] => (s, [])
  | b :: rest =>
      ((decode (step s b.toNat).1 rest).1, (step s b.toNat).2 ++ (decode (step s b.toNat).1 rest).2)

/-- The end of the bytes. -/
def flush (s : State) : Text := if s.remaining = 0 then [] else [replacement]

def encode (s : Text) : List UInt8 := s.flatMap String.utf8EncodeChar

/-- **Decoding goes on where it stopped.** -/
theorem decode_append (s : State) (a b : List UInt8) :
    decode s (a ++ b) =
      ((decode (decode s a).1 b).1, (decode s a).2 ++ (decode (decode s a).1 b).2) := by
  induction a generalizing s with
  | nil => simp [decode]
  | cons x a ih => simp [decode, ih, List.append_assoc]

/-! ## 2. What one byte can do -/

theorem first_cases (b : Nat) :
    (b ≤ 0x7F ∧ first b = (start, [Char.ofNat b])) ∨
      ((first b).2 = [] ∧ (first b).1.remaining ≠ 0) ∨ first b = (start, [replacement]) := by
  unfold first
  split
  · next hb => exact Or.inl ⟨hb, rfl⟩
  split
  · exact Or.inr (Or.inl ⟨rfl, Nat.one_ne_zero⟩)
  split
  · exact Or.inr (Or.inl ⟨rfl, Nat.succ_ne_zero 1⟩)
  split
  · exact Or.inr (Or.inl ⟨rfl, Nat.succ_ne_zero 2⟩)
  · exact Or.inr (Or.inr rfl)

theorem step_of_remaining_eq {s : State} (hs : s.remaining = 0) (b : Nat) : step s b = first b := by
  unfold step
  rw [dif_pos hs]

/-- A byte inside a character ends it as ill-formed and is read again, ends it above U+007F, or
    leaves it open. -/
theorem step_inside {s : State} (hs : s.remaining ≠ 0) (b : Nat) :
    step s b = ((first b).1, replacement :: (first b).2) ∨
      (∃ n, 0x80 ≤ n ∧ step s b = (start, [Char.ofNat n])) ∨
      ((step s b).2 = [] ∧ (step s b).1.remaining ≠ 0) := by
  have hw := s.wide (by omega)
  unfold step
  rw [dif_neg hs]
  split
  · exact Or.inl rfl
  split
  · exact Or.inr (Or.inl ⟨_, by omega, rfl⟩)
  · refine Or.inr (Or.inr ⟨rfl, ?_⟩)
    have : s.remaining - 1 ≠ 0 := by omega
    exact this

/-- A byte that writes nothing leaves a character open. -/
theorem step_silent {s : State} {b : Nat} (h : (step s b).2 = []) :
    (step s b).1.remaining ≠ 0 := by
  by_cases hs : s.remaining = 0
  · rw [step_of_remaining_eq hs] at h ⊢
    obtain ⟨_, hf⟩ | ⟨_, hf⟩ | hf := first_cases b
    · simp [hf] at h
    · exact hf
    · simp [hf] at h
  · obtain hf | ⟨_, _, hf⟩ | ⟨_, hf⟩ := step_inside hs b
    · simp [hf] at h
    · simp [hf] at h
    · exact hf

theorem decode_silent {bytes : List UInt8} {s : State} (hb : bytes ≠ [])
    (h : (decode s bytes).2 = []) : (decode s bytes).1.remaining ≠ 0 := by
  induction bytes generalizing s with
  | nil => exact absurd rfl hb
  | cons b rest ih =>
    simp only [decode, List.append_eq_nil_iff] at h ⊢
    cases rest with
    | nil => exact step_silent h.1
    | cons d more => exact ih (List.cons_ne_nil d more) h.2

/-! ## 3. ASCII characters at the ends -/

theorem toNat_ofNat {n : Nat} (h : n.isValidChar) : (Char.ofNat n).toNat = n := by
  unfold Char.ofNat
  rw [dif_pos h]
  rfl

/-- A code point above U+007F is no ASCII character (and no scalar value at all where it would
    be a surrogate). -/
theorem ofNat_ne_ascii {n : Nat} (h : 0x80 ≤ n) {c : Char} (hc : 0 < c.toNat ∧ c.toNat < 0x80) :
    Char.ofNat n ≠ c := by
  rintro rfl
  by_cases hv : n.isValidChar
  · rw [toNat_ofNat hv] at hc
    omega
  · have : (Char.ofNat n).toNat = 0 := by
      unfold Char.ofNat
      rw [dif_neg hv]
      rfl
    omega

theorem replacement_ne {c : Char} (hc : c.toNat < 0x80) : replacement ≠ c := by
  rintro rfl
  exact absurd hc (by decide)

variable {c : Char}

/-- The first byte of a character writes an ASCII character only by being it. -/
theorem first_ascii (hc : 0 < c.toNat ∧ c.toNat < 0x80) {b : Nat} (h : c ∈ (first b).2) :
    b = c.toNat := by
  obtain ⟨hb, hf⟩ | ⟨hf, _⟩ | hf := first_cases b
  · rw [hf, List.mem_singleton] at h
    rw [h, toNat_ofNat (Or.inl (by omega))]
  · simp [hf] at h
  · rw [hf, List.mem_singleton] at h
    exact absurd h.symm (replacement_ne hc.2)

theorem step_last (hc : 0 < c.toNat ∧ c.toNat < 0x80) {s : State} {b : Nat}
    (h : c ∈ (step s b).2.getLast?) : b = c.toNat := by
  by_cases hs : s.remaining = 0
  · rw [step_of_remaining_eq hs] at h
    exact first_ascii hc (List.mem_of_getLast? h)
  · obtain hf | ⟨n, hn, hf⟩ | ⟨hf, _⟩ := step_inside hs b
    · rw [hf] at h
      have hmem := List.mem_of_getLast? h
      rw [List.mem_cons] at hmem
      obtain hrep | hmem := hmem
      · exact absurd hrep.symm (replacement_ne hc.2)
      · exact first_ascii hc hmem
    · simp only [hf, List.getLast?_singleton, Option.mem_def, Option.some.injEq] at h
      exact absurd h (ofNat_ne_ascii hn hc)
    · simp [hf] at h

/-- A byte inside a character does not write an ASCII character first. -/
theorem step_head (hc : 0 < c.toNat ∧ c.toNat < 0x80) {s : State} (hs : s.remaining ≠ 0)
    {b : Nat} : c ∉ (step s b).2.head? := by
  intro h
  obtain hf | ⟨n, hn, hf⟩ | ⟨hf, _⟩ := step_inside hs b
  · simp only [hf, List.head?_cons, Option.mem_def, Option.some.injEq] at h
    exact replacement_ne hc.2 h
  · simp only [hf, List.head?_cons, Option.mem_def, Option.some.injEq] at h
    exact ofNat_ne_ascii hn hc h
  · simp [hf] at h

/-- **Inside a character, the next one written is not ASCII.** -/
theorem decode_head_inside (hc : 0 < c.toNat ∧ c.toNat < 0x80) (bytes : List UInt8) {s : State}
    (hs : s.remaining ≠ 0) : c ∉ (decode s bytes).2.head? := by
  induction bytes generalizing s with
  | nil => simp [decode]
  | cons b rest ih =>
    intro h
    simp only [decode] at h
    by_cases hnil : (step s b.toNat).2 = []
    · rw [hnil, List.nil_append] at h
      exact ih (step_silent hnil) h
    · rw [List.head?_append_of_ne_nil _ hnil] at h
      exact step_head hc hs h

/-- **Between characters, an ASCII character comes first only from its own byte.** -/
theorem decode_head_ascii (hc : 0 < c.toNat ∧ c.toNat < 0x80) {bytes : List UInt8} {s : State}
    (h : c ∈ (decode s bytes).2.head?) :
    s.remaining = 0 ∧ ∃ b ∈ bytes.head?, b.toNat = c.toNat := by
  have hs : s.remaining = 0 := by
    by_contra hs
    exact decode_head_inside hc bytes hs h
  refine ⟨hs, ?_⟩
  cases bytes with
  | nil => simp [decode] at h
  | cons b rest =>
    refine ⟨b, rfl, ?_⟩
    simp only [decode] at h
    by_cases hnil : (step s b.toNat).2 = []
    · rw [hnil, List.nil_append] at h
      exact absurd h (decode_head_inside hc rest (step_silent hnil))
    · rw [List.head?_append_of_ne_nil _ hnil, step_of_remaining_eq hs] at h
      exact first_ascii hc (List.mem_of_mem_head? h)

/-- **Between characters, an ASCII character comes last only from its own byte.** -/
theorem decode_getLast_ascii (hc : 0 < c.toNat ∧ c.toNat < 0x80) {bytes : List UInt8} {s : State}
    (h : c ∈ (decode s bytes).2.getLast?) (hend : (decode s bytes).1.remaining = 0) :
    ∃ b ∈ bytes.getLast?, b.toNat = c.toNat := by
  induction bytes generalizing s with
  | nil => simp [decode] at h
  | cons b rest ih =>
    cases rest with
    | nil =>
      simp only [decode, List.append_nil] at h
      exact ⟨b, rfl, step_last hc h⟩
    | cons d more =>
      rw [List.getLast?_cons_cons]
      refine ih (s := (step s b.toNat).1) ?_ hend
      have hne : (decode (step s b.toNat).1 (d :: more)).2 ≠ [] := by
        intro hnil
        exact decode_silent (List.cons_ne_nil d more) hnil hend
      rw [decode, List.getLast?_append_of_ne_nil _ hne] at h
      exact h

/-! ## 4. Encoding -/

theorem char_bounds (c : Char) : c.toNat < 0xD800 ∨ 0xDFFF < c.toNat ∧ c.toNat < 0x110000 := c.valid

theorem first_two {b : Nat} (hb : 0xC2 ≤ b ∧ b ≤ 0xDF) :
    ∃ s : State, first b = (s, []) ∧ s.codePoint = b - 0xC0 ∧ s.remaining = 1 ∧ s.lower = 0x80 ∧
      s.upper = 0xBF := by
  unfold first
  rw [if_neg (show ¬ b ≤ 0x7F by omega), dif_pos hb]
  exact ⟨_, rfl, rfl, rfl, rfl, rfl⟩

theorem first_three {b : Nat} (hb : 0xE0 ≤ b ∧ b ≤ 0xEF) :
    ∃ s : State, first b = (s, []) ∧ s.codePoint = b - 0xE0 ∧ s.remaining = 2 ∧
      s.lower = (if b = 0xE0 then 0xA0 else 0x80) ∧ s.upper = if b = 0xED then 0x9F else 0xBF := by
  unfold first
  rw [if_neg (show ¬ b ≤ 0x7F by omega), dif_neg (show ¬ (0xC2 ≤ b ∧ b ≤ 0xDF) by omega),
    dif_pos hb]
  exact ⟨_, rfl, rfl, rfl, rfl, rfl⟩

theorem first_four {b : Nat} (hb : 0xF0 ≤ b ∧ b ≤ 0xF4) :
    ∃ s : State, first b = (s, []) ∧ s.codePoint = b - 0xF0 ∧ s.remaining = 3 ∧
      s.lower = (if b = 0xF0 then 0x90 else 0x80) ∧ s.upper = if b = 0xF4 then 0x8F else 0xBF := by
  unfold first
  rw [if_neg (show ¬ b ≤ 0x7F by omega), dif_neg (show ¬ (0xC2 ≤ b ∧ b ≤ 0xDF) by omega),
    dif_neg (show ¬ (0xE0 ≤ b ∧ b ≤ 0xEF) by omega), dif_pos hb]
  exact ⟨_, rfl, rfl, rfl, rfl, rfl⟩

theorem step_tail {s : State} {b : Nat} (hs : 1 < s.remaining) (hb : s.lower ≤ b ∧ b ≤ s.upper) :
    ∃ t : State, step s b = (t, []) ∧ t.codePoint = s.codePoint * 64 + (b - 0x80) ∧
      t.remaining = s.remaining - 1 ∧ t.lower = 0x80 ∧ t.upper = 0xBF := by
  unfold step
  rw [dif_neg (by omega), dif_neg (by omega), dif_neg (by omega)]
  exact ⟨_, rfl, rfl, rfl, rfl, rfl⟩

theorem step_end {s : State} {b : Nat} (hs : s.remaining = 1) (hb : s.lower ≤ b ∧ b ≤ s.upper) :
    step s b = (start, [Char.ofNat (s.codePoint * 64 + (b - 0x80))]) := by
  unfold step
  rw [dif_neg (by omega), dif_neg (by omega), dif_pos hs]

/-- **A character comes back from its bytes.** -/
theorem decode_encodeChar (c : Char) : decode start (String.utf8EncodeChar c) = (start, [c]) := by
  have hc := char_bounds c
  have hv : Char.ofNat c.toNat = c := Char.ofNat_toNat c
  have hval : c.val.toNat = c.toNat := rfl
  have byte {n : Nat} (h : n < 256) : (UInt8.ofNat n).toNat = n := by
    rw [UInt8.toNat_ofNat']
    exact Nat.mod_eq_of_lt h
  unfold String.utf8EncodeChar
  simp only [hval]
  generalize hn : c.toNat = n at hc hv
  split
  · next h1 =>
    simp only [decode, byte (show n < 256 by omega), step_of_remaining_eq (s := start) rfl, first,
      if_pos h1, hv, List.append_nil]
  split
  · next h1 h2 =>
    obtain ⟨s, hfirst, hcp, hrem, hlo, hup⟩ := first_two (b := n / 64 % 0x20 + 0xc0) (by omega)
    have hend := step_end (b := n % 0x40 + 0x80) hrem (by omega)
    have hjoin : s.codePoint * 64 + (n % 0x40 + 0x80 - 0x80) = n := by omega
    rw [hjoin, hv] at hend
    simp only [decode, byte (show n / 64 % 0x20 + 0xc0 < 256 by omega),
      byte (show n % 0x40 + 0x80 < 256 by omega), step_of_remaining_eq (s := start) rfl, hfirst,
      hend, List.nil_append, List.append_nil]
  split
  · next h1 h2 h3 =>
    obtain ⟨s, hfirst, hcp, hrem, hlo, hup⟩ := first_three (b := n / 4096 % 0x10 + 0xe0) (by omega)
    obtain ⟨t, htail, hcp', hrem', hlo', hup'⟩ := step_tail (s := s) (b := n / 64 % 0x40 + 0x80)
      (by omega) (by rw [hlo, hup]; split <;> split <;> omega)
    have hend := step_end (s := t) (b := n % 0x40 + 0x80) (by omega) (by omega)
    have hjoin : t.codePoint * 64 + (n % 0x40 + 0x80 - 0x80) = n := by omega
    rw [hjoin, hv] at hend
    simp only [decode, byte (show n / 4096 % 0x10 + 0xe0 < 256 by omega),
      byte (show n / 64 % 0x40 + 0x80 < 256 by omega), byte (show n % 0x40 + 0x80 < 256 by omega),
      step_of_remaining_eq (s := start) rfl, hfirst, htail, hend, List.nil_append, List.append_nil]
  · next h1 h2 h3 =>
    obtain ⟨s, hfirst, hcp, hrem, hlo, hup⟩ := first_four (b := n / 262144 % 0x08 + 0xf0) (by omega)
    obtain ⟨t, htail, hcp', hrem', hlo', hup'⟩ := step_tail (s := s) (b := n / 4096 % 0x40 + 0x80)
      (by omega) (by rw [hlo, hup]; split <;> split <;> omega)
    obtain ⟨u, htail', hcp'', hrem'', hlo'', hup''⟩ := step_tail (s := t)
      (b := n / 64 % 0x40 + 0x80) (by omega) (by omega)
    have hend := step_end (s := u) (b := n % 0x40 + 0x80) (by omega) (by omega)
    have hjoin : u.codePoint * 64 + (n % 0x40 + 0x80 - 0x80) = n := by omega
    rw [hjoin, hv] at hend
    simp only [decode, byte (show n / 262144 % 0x08 + 0xf0 < 256 by omega),
      byte (show n / 4096 % 0x40 + 0x80 < 256 by omega),
      byte (show n / 64 % 0x40 + 0x80 < 256 by omega), byte (show n % 0x40 + 0x80 < 256 by omega),
      step_of_remaining_eq (s := start) rfl, hfirst, htail, htail', hend, List.nil_append,
      List.append_nil]

/-- **A text comes back from its bytes.** -/
theorem decode_encode (s : Text) : decode start (encode s) = (start, s) := by
  induction s with
  | nil => rfl
  | cons c rest ih =>
    have hcons : encode (c :: rest) = String.utf8EncodeChar c ++ encode rest := rfl
    rw [hcons, decode_append, decode_encodeChar]
    simp [ih]

/-- An ASCII byte is written for its own character only. -/
theorem mem_encode_ascii {b : UInt8} {s : Text} (h : b ∈ encode s) (hb : b.toNat < 0x80) :
    ∃ d ∈ s, d.toNat = b.toNat := by
  obtain ⟨d, hd, hmem⟩ := List.mem_flatMap.mp h
  refine ⟨d, hd, ?_⟩
  have hval : d.val.toNat = d.toNat := rfl
  have byte (n : Nat) : (UInt8.ofNat n).toNat = n % 256 := UInt8.toNat_ofNat'
  unfold String.utf8EncodeChar at hmem
  simp only [hval] at hmem
  split at hmem
  · simp only [List.mem_singleton] at hmem
    rw [hmem, byte]
    omega
  split at hmem
  · simp only [List.mem_cons, List.not_mem_nil, or_false] at hmem
    obtain rfl | rfl := hmem <;> rw [byte] at hb <;> omega
  split at hmem
  · simp only [List.mem_cons, List.not_mem_nil, or_false] at hmem
    obtain rfl | rfl | rfl := hmem <;> rw [byte] at hb <;> omega
  · simp only [List.mem_cons, List.not_mem_nil, or_false] at hmem
    obtain rfl | rfl | rfl | rfl := hmem <;> rw [byte] at hb <;> omega

/-! ## 5. `TextDecoder` -/

/-- A decoder of a stream: whether it has seen its first character. -/
structure TextDecoder where
  state : State
  bomSeen : Bool

def TextDecoder.new : TextDecoder := ⟨start, false⟩

/-- What of a stream's characters is kept: a leading U+FEFF is not. -/
def dropBom (bomSeen : Bool) : Text → Bool × Text
  | [] => (bomSeen, [])
  | c :: rest => (true, if bomSeen = false ∧ c = '\uFEFF' then rest else c :: rest)

/-- `decoder.decode(bytes, { stream: true })`. -/
def TextDecoder.decode (d : TextDecoder) (bytes : List UInt8) : TextDecoder × Text :=
  let (state, out) := Utf8.decode d.state bytes
  (⟨state, (dropBom d.bomSeen out).1⟩, (dropBom d.bomSeen out).2)

/-- `decoder.decode()`. -/
def TextDecoder.finish (d : TextDecoder) : Text := (dropBom d.bomSeen (flush d.state)).2

theorem dropBom_true (t : Text) : dropBom true t = (true, t) := by
  cases t <;> simp [dropBom]

theorem dropBom_append (seen : Bool) (a b : Text) :
    dropBom seen (a ++ b) =
      ((dropBom (dropBom seen a).1 b).1, (dropBom seen a).2 ++ (dropBom (dropBom seen a).1 b).2) := by
  cases a with
  | nil => rfl
  | cons c rest =>
    have hcons (t : Text) :
        dropBom seen (c :: t) = (true, if seen = false ∧ c = '\uFEFF' then t else c :: t) := rfl
    rw [List.cons_append, hcons, hcons]
    simp only [dropBom_true]
    split <;> rfl

/-- **What a stream's decoder yields does not depend on how the bytes are cut.** -/
theorem TextDecoder.decode_append (d : TextDecoder) (a b : List UInt8) :
    d.decode (a ++ b) =
      (((d.decode a).1.decode b).1, (d.decode a).2 ++ ((d.decode a).1.decode b).2) := by
  simp only [TextDecoder.decode, Utf8.decode_append, dropBom_append]

/-- An ASCII character at the end of one part and another at the start of the rest are bytes at
    the two ends. -/
theorem TextDecoder.decode_adjacent {c d : Char} (hc : 0 < c.toNat ∧ c.toNat < 0x80)
    (hd : 0 < d.toNat ∧ d.toNat < 0x80) {s : TextDecoder} {a b : List UInt8}
    (hlast : c ∈ (s.decode a).2.getLast?) (hhead : d ∈ ((s.decode a).1.decode b).2.head?) :
    (∃ x ∈ a.getLast?, x.toNat = c.toNat) ∧ ∃ y ∈ b.head?, y.toNat = d.toNat := by
  have hkeep (t : Text) : (dropBom s.bomSeen t).2.getLast? = none ∨
      (dropBom s.bomSeen t).2.getLast? = t.getLast? := by
    cases t with
    | nil => exact Or.inl rfl
    | cons e rest =>
      simp only [dropBom]
      split
      · cases rest with
        | nil => exact Or.inl rfl
        | cons f more => exact Or.inr (by rw [List.getLast?_cons_cons])
      · exact Or.inr rfl
  -- a character was written, so the rest of the stream keeps every one
  have hseen : (s.decode a).1.bomSeen = true := by
    simp only [TextDecoder.decode] at hlast ⊢
    cases hout : (Utf8.decode s.state a).2 with
    | nil => simp [hout, dropBom] at hlast
    | cons e rest => rfl
  have hrest : ((s.decode a).1.decode b).2 = (Utf8.decode (s.decode a).1.state b).2 := by
    show (dropBom (s.decode a).1.bomSeen (Utf8.decode (s.decode a).1.state b).2).2 = _
    rw [hseen, dropBom_true]
  rw [hrest] at hhead
  obtain ⟨hopen, hy⟩ := decode_head_ascii hd hhead
  refine ⟨decode_getLast_ascii hc (s := s.state) ?_ hopen, hy⟩
  obtain hk | hk := hkeep (Utf8.decode s.state a).2
  · simp [TextDecoder.decode, hk] at hlast
  · simpa [TextDecoder.decode, hk] using hlast

end Utf8
