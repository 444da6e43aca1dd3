/-
  File:      OpenVac/Lib/Json.lean
  Subject:   JSON values as JavaScript programs see them.

  * A number is the text `Number::toString` gives it, which determines it.
  * An object's keys are distinct and keep their order.
  * `stringify` -- `JSON.stringify`; `stringify_printable`: it writes no control characters.
  * `JsonText` -- `JSON.parse` as the host has it.
  * `JsonNumber` -- the value of a number, by its text.
-/
import Mathlib.Data.Rat.Defs
import OpenVac.Lib.JsString

open JsString

inductive Json where
  | null
  | bool (value : Bool)
  | num (text : Text)
  | str (value : Text)
  | arr (items : List Json)
  | obj (fields : List (Text × Json))

namespace Json

/-- `value[key]` of an object's fields. -/
def lookup (fields : List (Text × Json)) (key : Text) : Option Json :=
  (fields.find? fun field => field.1 == key).map (·.2)

/-- No other keys than these. -/
def strict (keys : List Text) (fields : List (Text × Json)) : Bool :=
  fields.all fun field => keys.contains field.1

/-- The hexadecimal digits of a number below 256. -/
def hexByte (n : Nat) : Text :=
  let digit (d : Nat) : Char := Char.ofNat (if d < 10 then '0'.toNat + d else 'a'.toNat + d - 10)
  [digit (n / 16), digit (n % 16)]

/-- A character inside a quoted text. -/
def escape (c : Char) : Text :=
  let n := c.toNat
  if n = 0x22 then ['\\', '"']
  else if n = 0x5C then ['\\', '\\']
  else if n = 0x8 then ['\\', 'b']
  else if n = 0x9 then ['\\', 't']
  else if n = 0xA then ['\\', 'n']
  else if n = 0xC then ['\\', 'f']
  else if n = 0xD then ['\\', 'r']
  else if n < 0x20 then ['\\', 'u', '0', '0'] ++ hexByte n
  else [c]

def quote (s : Text) : Text := '"' :: (s.flatMap escape ++ ['"'])

mutual

/-- `JSON.stringify(value)`. -/
def stringify : Json → Text
  | .null => "null".toList
  | .bool true => "true".toList
  | .bool false => "false".toList
  | .num text => text
  | .str value => quote value
  | .arr items => '[' :: (join [','] (stringifyItems items) ++ [']'])
  | .obj fields => '\x7b' :: (join [','] (stringifyFields fields) ++ ['\x7d'])

def stringifyItems : List Json → List Text
  | [] => []
  | item :: rest => stringify item :: stringifyItems rest

def stringifyFields : List (Text × Json) → List Text
  | [] => []
  | (key, value) :: rest => (quote key ++ ':' :: stringify value) :: stringifyFields rest

end

mutual

/-- Every number is spelled without control characters. -/
def plainNumbers : Json → Bool
  | .null | .bool _ | .str _ => true
  | .num text => text.all fun c => decide (0x20 ≤ c.toNat)
  | .arr items => plainItems items
  | .obj fields => plainFields fields

def plainItems : List Json → Bool
  | [] => true
  | item :: rest => plainNumbers item && plainItems rest

def plainFields : List (Text × Json) → Bool
  | [] => true
  | (_, value) :: rest => plainNumbers value && plainFields rest

end

/-- An object with keys as the source writes them. -/
def record (fields : List (String × Json)) : Json :=
  .obj (fields.map fun field => (field.1.toList, field.2))

def text (s : String) : Json := .str s.toList

/-- A text the check of its characters accepts has no control characters. -/
theorem printable_of_all {s : Text} (h : (s.all fun c => decide (0x20 ≤ c.toNat)) = true) :
    ∀ c ∈ s, 0x20 ≤ c.toNat := by
  simpa only [List.all_eq_true, decide_eq_true_eq] using h

theorem quote_printable (s : Text) : ∀ c ∈ quote s, 0x20 ≤ c.toNat := by
  have hhex : ∀ n < 0x20, ((hexByte n).all fun c => decide (0x20 ≤ c.toNat)) = true := by decide
  have hescape (d : Char) : ∀ c ∈ escape d, 0x20 ≤ c.toNat := by
    intro c hc
    unfold escape at hc
    dsimp only at hc
    split at hc
    · exact printable_of_all (by decide) c hc
    split at hc
    · exact printable_of_all (by decide) c hc
    split at hc
    · exact printable_of_all (by decide) c hc
    split at hc
    · exact printable_of_all (by decide) c hc
    split at hc
    · exact printable_of_all (by decide) c hc
    split at hc
    · exact printable_of_all (by decide) c hc
    split at hc
    · exact printable_of_all (by decide) c hc
    split at hc
    · next hlow =>
      rw [List.mem_append] at hc
      obtain hc | hc := hc
      · exact printable_of_all (by decide) c hc
      · exact printable_of_all (hhex _ hlow) c hc
    · rw [List.mem_singleton] at hc
      rw [hc]
      omega
  intro c hc
  simp only [quote, List.mem_cons, List.mem_append, List.mem_flatMap, List.not_mem_nil,
    or_false] at hc
  obtain rfl | ⟨d, _, hd⟩ | rfl := hc
  · decide
  · exact hescape d c hd
  · decide

theorem join_printable {parts : List Text} (h : ∀ part ∈ parts, ∀ c ∈ part, 0x20 ≤ c.toNat) :
    ∀ c ∈ join [','] parts, 0x20 ≤ c.toNat := by
  induction parts with
  | nil => simp [join]
  | cons part rest ih =>
    cases rest with
    | nil => simpa [join] using h
    | cons next more =>
      intro c hc
      have hrest := ih fun part hp => h part (List.mem_cons_of_mem _ hp)
      simp only [join, List.intercalate_cons_cons, List.mem_append, List.mem_singleton] at hc hrest
      obtain (hc | rfl) | hc := hc
      · exact h part List.mem_cons_self c hc
      · decide
      · exact hrest c hc

mutual

/-- **What `JSON.stringify` writes has no control characters**, line ends among them. -/
theorem stringify_printable : (value : Json) → plainNumbers value = true →
    ∀ c ∈ stringify value, 0x20 ≤ c.toNat
  | .null, _ => printable_of_all (by decide)
  | .bool true, _ => printable_of_all (by decide)
  | .bool false, _ => printable_of_all (by decide)
  | .num text, h => by
      intro c hc
      simp only [plainNumbers, List.all_eq_true, decide_eq_true_eq] at h
      exact h c hc
  | .str value, _ => quote_printable value
  | .arr items, h => by
      intro c hc
      simp only [stringify, List.mem_cons, List.mem_append, List.not_mem_nil, or_false] at hc
      obtain rfl | hc | rfl := hc
      · decide
      · exact join_printable (stringifyItems_printable items h) c hc
      · decide
  | .obj fields, h => by
      intro c hc
      simp only [stringify, List.mem_cons, List.mem_append, List.not_mem_nil, or_false] at hc
      obtain rfl | hc | rfl := hc
      · decide
      · exact join_printable (stringifyFields_printable fields h) c hc
      · decide

theorem stringifyItems_printable : (items : List Json) → plainItems items = true →
    ∀ part ∈ stringifyItems items, ∀ c ∈ part, 0x20 ≤ c.toNat
  | [], _ => by simp [stringifyItems]
  | item :: rest, h => by
      simp only [plainItems, Bool.and_eq_true] at h
      intro part hp
      rw [stringifyItems, List.mem_cons] at hp
      obtain rfl | hp := hp
      · exact stringify_printable item h.1
      · exact stringifyItems_printable rest h.2 part hp

theorem stringifyFields_printable : (fields : List (Text × Json)) → plainFields fields = true →
    ∀ part ∈ stringifyFields fields, ∀ c ∈ part, 0x20 ≤ c.toNat
  | [], _ => by simp [stringifyFields]
  | (key, value) :: rest, h => by
      simp only [plainFields, Bool.and_eq_true] at h
      intro part hp
      rw [stringifyFields, List.mem_cons] at hp
      obtain rfl | hp := hp
      · intro c hc
        rw [List.mem_append, List.mem_cons] at hc
        obtain hc | rfl | hc := hc
        · exact quote_printable key c hc
        · decide
        · exact stringify_printable value h.1 c hc
      · exact stringifyFields_printable rest h.2 part hp

end

end Json

/-- `JSON.parse` of the host; `none` where it throws. -/
class JsonText where
  parse : Text → Option Json

/-- The value of a number's text; `none` where it is not finite. -/
class JsonNumber where
  finite : Text → Option ℚ
