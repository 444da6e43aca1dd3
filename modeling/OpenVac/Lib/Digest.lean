/-
  File:      OpenVac/Lib/Digest.lean
  Subject:   SHA-256 digests as lower-case hexadecimal texts, and digests of JSON values.

  * `isSha256Hex` -- `/^[a-f0-9]{64}$/u.test(s)`.
  * `Sha256Digest` -- a hash function whose digests have that form; `lowerAscii_hex`: case
    mapping leaves them alone.
  * `stable`, `digest` -- an object's keys are sorted on every level before the hash.
  * `assign` -- `{ ...fields, [key]: value }`.
  * `boundedText` -- `z.string().trim().min(1).max(n)`.
-/
import Mathlib.Data.List.Sort
import OpenVac.Lib.Json

namespace JsString

/-! ## 1. Digests -/

/-- `/[a-f0-9]/`. -/
def isHexDigit (c : Char) : Bool := isDigit c || decide ('a' ≤ c ∧ c ≤ 'f')

def isSha256Hex (s : Text) : Bool := s.length == 64 && s.all isHexDigit

def lowerAsciiChar (c : Char) : Char :=
  if 'A' ≤ c ∧ c ≤ 'Z' then Char.ofNat (c.toNat + 32) else c

/-- `toLowerCase()` of a text to be compared with a digest: it maps no character outside ASCII
    to a hexadecimal digit. -/
def lowerAscii (s : Text) : Text := s.map lowerAsciiChar

/-- The hash function of the host, with the form of its digests. -/
class Sha256Digest extends Sha256 where
  hex_isSha256Hex : ∀ s, isSha256Hex (hex s) = true

theorem lowerAsciiChar_of_isHexDigit {c : Char} (h : isHexDigit c = true) :
    lowerAsciiChar c = c := by
  have hn : ¬('A' ≤ c ∧ c ≤ 'Z') := by
    simp only [isHexDigit, isDigit, Bool.or_eq_true, decide_eq_true_eq, Char.le_def] at h
    rintro ⟨h1, h2⟩
    rw [Char.le_def] at h1 h2
    rcases h with ⟨-, h⟩ | ⟨h, -⟩
    · exact absurd (UInt32.le_trans h1 h) (by decide)
    · exact absurd (UInt32.le_trans h h2) (by decide)
  exact if_neg hn

theorem lowerAscii_of_isSha256Hex {s : Text} (h : isSha256Hex s = true) : lowerAscii s = s := by
  have hall := List.all_eq_true.mp (Bool.and_eq_true_iff.mp h).2
  have hmap : s.map lowerAsciiChar = s.map id :=
    List.map_congr_left fun c hc => lowerAsciiChar_of_isHexDigit (hall c hc)
  unfold lowerAscii
  rw [hmap, List.map_id]

@[simp] theorem lowerAscii_hex [Sha256Digest] (s : Text) :
    lowerAscii (Sha256.hex s) = Sha256.hex s :=
  lowerAscii_of_isSha256Hex (Sha256Digest.hex_isSha256Hex s)

/-- A hash function for examples: the digest repeats one digit, which the length of the text
    decides. -/
@[reducible] def lengthDigest : Sha256Digest where
  hex s := List.replicate 64 ("0123456789abcdef".toList.getD (s.length % 16) '0')
  hex_isSha256Hex s := by
    have hd : ∀ k < 16, isHexDigit ("0123456789abcdef".toList.getD k '0') = true := by decide
    have hk := hd (s.length % 16) (Nat.mod_lt _ (by decide))
    simp only [isSha256Hex, List.length_replicate, beq_self_eq_true, Bool.true_and,
      List.all_replicate, hk]
    decide

/-! ## 2. Texts within bounds -/

/-- `z.string().trim().min(1).max(n)`: the trimmed text, or nothing. -/
def boundedText (n : Nat) (s : Text) : Option Text :=
  if 1 ≤ utf16Length (trim s) ∧ utf16Length (trim s) ≤ n then some (trim s) else none

theorem trimStart_eq_self_of_head {s : Text} (h : ∀ c ∈ s.head?, isWhiteSpace c = false) :
    trimStart s = s := by
  cases s with
  | nil => rfl
  | cons c rest =>
    unfold trimStart
    rw [List.dropWhile_cons_of_neg]
    rw [h c rfl]
    exact Bool.false_ne_true

theorem head?_trimStart (s : Text) : ∀ c ∈ (trimStart s).head?, isWhiteSpace c = false := by
  intro c hc
  have h := List.head?_dropWhile_not isWhiteSpace s
  rw [show (s.dropWhile isWhiteSpace).head? = some c from hc] at h
  exact h

/-- What is left at the front of a text whose end was trimmed. -/
theorem head?_trimEnd {s : Text} (h : ∀ c ∈ s.head?, isWhiteSpace c = false) :
    ∀ c ∈ (trimEnd s).head?, isWhiteSpace c = false := by
  intro c hc
  have hp : trimEnd s <+: s := List.rdropWhile_prefix isWhiteSpace s
  obtain ⟨t, ht⟩ := hp
  cases he : trimEnd s with
  | nil => rw [he] at hc; exact nomatch hc
  | cons d rest =>
    rw [he, List.head?_cons, Option.mem_some_iff] at hc
    subst hc
    refine h d ?_
    rw [← ht, he]
    rfl

theorem trim_trim (s : Text) : trim (trim s) = trim s := by
  have hstart : trimStart (trim s) = trim s :=
    trimStart_eq_self_of_head (head?_trimEnd (head?_trimStart s))
  show trimEnd (trimStart (trim s)) = trim s
  rw [hstart]
  exact List.rdropWhile_idempotent isWhiteSpace (trimStart s)

end JsString

/-! ## 3. Digests of JSON values -/

/-- `left.localeCompare(right) <= 0` of the host. -/
class LocaleOrder where
  le : JsString.Text → JsString.Text → Bool

namespace Json

open JsString

variable [LocaleOrder]

mutual

/-- `stableValue(value)`: every object with its keys in order. -/
def stable : Json → Json
  | .arr items => .arr (stableItems items)
  | .obj fields =>
      .obj ((stableFields fields).insertionSort fun l r => LocaleOrder.le l.1 r.1 = true)
  | value => value

def stableItems : List Json → List Json
  | [] => []
  | item :: rest => stable item :: stableItems rest

def stableFields : List (Text × Json) → List (Text × Json)
  | [] => []
  | (key, value) :: rest => (key, stable value) :: stableFields rest

end

/-- `createHash("sha256").update(JSON.stringify(stableValue(value))).digest("hex")`. -/
def digest [Sha256] (value : Json) : Text := Sha256.hex (stable value).stringify

/-- `{ ...fields, [key]: value }`. -/
def assign (fields : List (Text × Json)) (key : Text) (value : Json) : List (Text × Json) :=
  if fields.any fun field => field.1 == key then
    fields.map fun field => if field.1 == key then (key, value) else field
  else fields ++ [(key, value)]

omit [LocaleOrder]

theorem lookup_cons_self (key : Text) (value : Json) (rest : List (Text × Json)) :
    lookup ((key, value) :: rest) key = some value := by
  simp [lookup]

theorem lookup_cons_of_ne {field : Text × Json} {key : Text} (h : field.1 ≠ key)
    (rest : List (Text × Json)) : lookup (field :: rest) key = lookup rest key := by
  simp [lookup, h]

theorem assign_cons_self {field : Text × Json} {key : Text} (h : field.1 = key)
    (rest : List (Text × Json)) (value : Json) :
    assign (field :: rest) key value =
      (key, value) :: rest.map fun field => if field.1 == key then (key, value) else field := by
  simp [assign, h]

theorem assign_cons_of_ne {field : Text × Json} {key : Text} (h : field.1 ≠ key)
    (rest : List (Text × Json)) (value : Json) :
    assign (field :: rest) key value = field :: assign rest key value := by
  simp only [assign, List.any_cons, beq_eq_false_iff_ne.mpr h, Bool.false_or, List.map_cons,
    Bool.false_eq_true, if_false, List.cons_append]
  split <;> rfl

theorem lookup_assign_self (fields : List (Text × Json)) (key : Text) (value : Json) :
    lookup (assign fields key value) key = some value := by
  induction fields with
  | nil => exact lookup_cons_self key value []
  | cons field rest ih =>
    by_cases hk : field.1 = key
    · rw [assign_cons_self hk, lookup_cons_self]
    · rw [assign_cons_of_ne hk, lookup_cons_of_ne hk, ih]

theorem lookup_assign_of_ne (fields : List (Text × Json)) {key other : Text} (h : key ≠ other)
    (value : Json) : lookup (assign fields key value) other = lookup fields other := by
  have hmap (rest : List (Text × Json)) :
      lookup (rest.map fun field => if field.1 == key then (key, value) else field) other =
        lookup rest other := by
    induction rest with
    | nil => rfl
    | cons field rest ih =>
      by_cases hk : field.1 = key
      · have hf : field.1 ≠ other := hk ▸ h
        simp only [List.map_cons, hk, beq_self_eq_true, if_true]
        rw [lookup_cons_of_ne h, lookup_cons_of_ne hf, ih]
      · simp only [List.map_cons, beq_eq_false_iff_ne.mpr hk, Bool.false_eq_true, if_false]
        by_cases ho : field.1 = other
        · simp [lookup, ho]
        · rw [lookup_cons_of_ne ho, lookup_cons_of_ne ho, ih]
  induction fields with
  | nil => exact lookup_cons_of_ne h []
  | cons field rest ih =>
    by_cases hk : field.1 = key
    · have hf : field.1 ≠ other := hk ▸ h
      rw [assign_cons_self hk, lookup_cons_of_ne h, lookup_cons_of_ne hf, hmap]
    · rw [assign_cons_of_ne hk]
      by_cases ho : field.1 = other
      · simp [lookup, ho]
      · rw [lookup_cons_of_ne ho, lookup_cons_of_ne ho, ih]

/-- A key that has a value is there. -/
theorem any_of_lookup {fields : List (Text × Json)} {key : Text} {value : Json}
    (h : lookup fields key = some value) : (fields.any fun field => field.1 == key) = true := by
  obtain ⟨field, hfind, _⟩ := Option.map_eq_some_iff.mp h
  have hkey := List.find?_some hfind
  exact List.any_eq_true.mpr ⟨field, List.mem_of_find?_eq_some hfind, hkey⟩

end Json
