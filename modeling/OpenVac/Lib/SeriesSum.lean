/-
  File:      OpenVac/Lib/SeriesSum.lean
  Subject:   Quantities whose reciprocals add, in an ordered field.

  * `seriesSum` -- `1 / (1 / a + 1 / b)`.
  * `seriesSum_lt_left`, `seriesSum_lt_right` -- below both of its terms.
  * `seriesSum_lt_seriesSum` -- it increases with either term.
  * `foldl_some`, `foldl_none` -- a sum of optional terms, one of them missing or none.
-/
import Mathlib.Algebra.Order.Field.Basic
import Mathlib.Algebra.BigOperators.Group.List.Basic
import Mathlib.Tactic.Linarith

namespace OpenVac

section Field

variable {K : Type} [Field K] [LinearOrder K] [IsStrictOrderedRing K] {a b c d : K}

def seriesSum (a b : K) : K := 1 / (1 / a + 1 / b)

theorem reciprocals_pos (ha : 0 < a) (hb : 0 < b) : 0 < 1 / a + 1 / b :=
  add_pos (one_div_pos.mpr ha) (one_div_pos.mpr hb)

theorem seriesSum_pos (ha : 0 < a) (hb : 0 < b) : 0 < seriesSum a b :=
  one_div_pos.mpr (reciprocals_pos ha hb)

omit [LinearOrder K] [IsStrictOrderedRing K] in
theorem seriesSum_comm (a b : K) : seriesSum a b = seriesSum b a := by
  unfold seriesSum
  rw [add_comm]

theorem seriesSum_lt_left (ha : 0 < a) (hb : 0 < b) : seriesSum a b < a := by
  unfold seriesSum
  rw [one_div_lt (reciprocals_pos ha hb) ha]
  exact lt_add_of_pos_right _ (one_div_pos.mpr hb)

theorem seriesSum_lt_right (ha : 0 < a) (hb : 0 < b) : seriesSum a b < b := by
  rw [seriesSum_comm]
  exact seriesSum_lt_left hb ha

/-- **More of either term, and none less of the other, is more.** -/
theorem seriesSum_lt_seriesSum (ha : 0 < a) (hb : 0 < b) (hac : a ≤ c) (hbd : b ≤ d)
    (h : a < c ∨ b < d) : seriesSum a b < seriesSum c d := by
  have hc : 0 < c := ha.trans_le hac
  have hd : 0 < d := hb.trans_le hbd
  have hsum : 1 / c + 1 / d < 1 / a + 1 / b := by
    rcases h with h | h
    · exact add_lt_add_of_lt_of_le (one_div_lt_one_div_of_lt ha h) (one_div_le_one_div_of_le hb hbd)
    · exact add_lt_add_of_le_of_lt (one_div_le_one_div_of_le ha hac) (one_div_lt_one_div_of_lt hb h)
  exact one_div_lt_one_div_of_lt (reciprocals_pos hc hd) hsum

end Field

section Optional

variable {M : Type} [AddMonoid M] {add : Option M → Option M → Option M}

theorem foldl_some (hadd : ∀ x y, add (some x) (some y) = some (x + y)) (terms : List M) (x : M) :
    (terms.map some).foldl add (some x) = some (x + terms.sum) := by
  induction terms generalizing x with
  | nil =>
    show some x = some (x + 0)
    rw [add_zero]
  | cons y terms ih =>
    show (terms.map some).foldl add (add (some x) (some y)) = _
    rw [hadd, ih, List.sum_cons, add_assoc]

omit [AddMonoid M] in
theorem foldl_none (hleft : ∀ y, add none y = none) (hright : ∀ x, add x none = none)
    {terms : List (Option M)} (h : none ∈ terms) (start : Option M) :
    terms.foldl add start = none := by
  have hrest : ∀ rest : List (Option M), rest.foldl add none = none := by
    intro rest
    induction rest with
    | nil => rfl
    | cons y rest ih =>
      show rest.foldl add (add none y) = none
      rw [hleft]
      exact ih
  induction terms generalizing start with
  | nil => nomatch h
  | cons y terms ih =>
    rcases List.mem_cons.mp h with rfl | h
    · show terms.foldl add (add start none) = none
      rw [hright]
      exact hrest terms
    · exact ih h _

end Optional

end OpenVac
