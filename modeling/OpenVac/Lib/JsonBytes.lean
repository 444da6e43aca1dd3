/-
  File:      OpenVac/Lib/JsonBytes.lean
  Subject:   How many bytes a JSON text is in UTF-8.

  * `byteLength` -- `Buffer.byteLength(s, "utf8")`.
  * `byteLength_quote_le` -- a quoted character is six bytes at most.
  * `byteLength_obj_le` -- an object is its keys and values, and four bytes for each of them.
-/
import OpenVac.Lib.Json
import OpenVac.Lib.Utf8

open JsString

namespace Json

def byteLength (s : Text) : Nat := (Utf8.encode s).length

theorem byteLength_append (s t : Text) : byteLength (s ++ t) = byteLength s + byteLength t := by
  unfold byteLength Utf8.encode
  rw [List.flatMap_append, List.length_append]

theorem byteLength_cons (c : Char) (s : Text) :
    byteLength (c :: s) = c.utf8Size + byteLength s := by
  unfold byteLength Utf8.encode
  rw [List.flatMap_cons, List.length_append, String.length_utf8EncodeChar]

theorem byteLength_nil : byteLength [] = 0 := rfl

theorem byteLength_hexByte (n : Nat) (h : n < 0x20) : byteLength (hexByte n) = 2 := by
  have hall : ∀ n < 0x20, byteLength (hexByte n) = 2 := by decide +kernel
  exact hall n h

theorem byteLength_escape_le (c : Char) : byteLength (escape c) ≤ 6 := by
  unfold escape
  dsimp only
  split
  · decide +kernel
  split
  · decide +kernel
  split
  · decide +kernel
  split
  · decide +kernel
  split
  · decide +kernel
  split
  · decide +kernel
  split
  · decide +kernel
  split
  · next hlow =>
    have hfront : byteLength ['\\', 'u', '0', '0'] = 4 := by decide +kernel
    rw [byteLength_append, hfront, byteLength_hexByte _ hlow]
  · have hsize : c.utf8Size ≤ 4 := c.utf8Size_le_four
    rw [byteLength_cons, byteLength_nil]
    omega

/-- Six bytes for a character, and the quotation marks. -/
theorem byteLength_quote_le (s : Text) : byteLength (quote s) ≤ 6 * s.length + 2 := by
  have hbody : byteLength (s.flatMap escape) ≤ 6 * s.length := by
    induction s with
    | nil => exact Nat.le_refl 0
    | cons c s ih =>
      have hc := byteLength_escape_le c
      rw [List.flatMap_cons, byteLength_append, List.length_cons]
      omega
  have hquote : ('"' : Char).utf8Size = 1 := by decide
  unfold quote
  rw [byteLength_cons, byteLength_append, byteLength_cons, byteLength_nil, hquote]
  omega

theorem byteLength_join_le (parts : List Text) :
    byteLength (join [','] parts) ≤ (parts.map fun part => byteLength part + 1).sum := by
  have hcomma : byteLength [','] = 1 := by decide +kernel
  induction parts with
  | nil => exact Nat.le_refl 0
  | cons part rest ih =>
    cases rest with
    | nil =>
      have hone : join [','] [part] = part := by simp [join]
      rw [hone]
      simp
    | cons next rest =>
      have hmore : join [','] (part :: next :: rest) =
          part ++ ([','] ++ join [','] (next :: rest)) := by simp [join]
      rw [hmore, byteLength_append, byteLength_append, hcomma, List.map_cons, List.sum_cons]
      omega

/-- **The size of an object**: every key and value with the colon and the comma, and the braces. -/
theorem byteLength_obj_le (fields : List (Text × Json)) :
    byteLength (stringify (.obj fields)) ≤
      (fields.map fun field =>
        byteLength (quote field.1) + byteLength (stringify field.2) + 2).sum + 2 := by
  have hfields : ((stringifyFields fields).map fun part => byteLength part + 1).sum =
      (fields.map fun field =>
        byteLength (quote field.1) + byteLength (stringify field.2) + 2).sum := by
    have hcolon : (':' : Char).utf8Size = 1 := by decide
    induction fields with
    | nil => rfl
    | cons field rest ih =>
      rw [stringifyFields, List.map_cons, List.sum_cons, ih, List.map_cons, List.sum_cons,
        byteLength_append, byteLength_cons, hcolon]
      omega
  have hopen : ('\x7b' : Char).utf8Size = 1 := by decide
  have hclose : ('\x7d' : Char).utf8Size = 1 := by decide
  have hjoin := byteLength_join_le (stringifyFields fields)
  rw [stringify, byteLength_cons, byteLength_append, byteLength_cons, byteLength_nil, hopen, hclose]
  omega

end Json
