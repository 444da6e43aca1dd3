/-
  File:      OpenVac/Lib/SiUnits.lean
  Subject:   What the name of a unit says: products and quotients of symbols, each with an SI
             prefix or without, and a power.

  * `reading` -- the places of the prefixes and the symbols in a name, whose letters are folded
    to one case.
  * `Reading.exponent` -- the power of ten that the prefixes stand for, as their letters are
    written: `m` is milli and `M` is mega.
  * `siFactor` -- how many SI units the unit is; `Near` -- a decimal for it.
  * `near_exponent` -- a decimal is near to one power of ten only.
-/
import Mathlib.Algebra.Order.Field.Rat
import Mathlib.Algebra.Order.Field.Power
import Mathlib.Algebra.BigOperators.Group.List.Basic
import Mathlib.Tactic.Linarith
import Mathlib.Tactic.NormNum
import OpenVac.Lib.JsString

namespace SiUnits

open JsString

/-! ## 1. Prefixes and symbols -/

/-- The power of ten of an SI prefix, by its letter. `u` stands in for `µ`. -/
def prefixExponent : Char → Option ℤ
  | 'Q' => some 30
  | 'R' => some 27
  | 'Y' => some 24
  | 'Z' => some 21
  | 'E' => some 18
  | 'P' => some 15
  | 'T' => some 12
  | 'G' => some 9
  | 'M' => some 6
  | 'k' => some 3
  | 'h' => some 2
  | 'd' => some (-1)
  | 'c' => some (-2)
  | 'm' => some (-3)
  | 'µ' => some (-6)
  | 'μ' => some (-6)
  | 'u' => some (-6)
  | 'n' => some (-9)
  | 'p' => some (-12)
  | 'f' => some (-15)
  | 'a' => some (-18)
  | 'z' => some (-21)
  | 'y' => some (-24)
  | 'r' => some (-27)
  | 'q' => some (-30)
  | _ => none

/-- Symbols of vacuum technique in SI units: the torr is 1/760 atm, the micron 1/1000 torr, the
    cubic foot a minute 0.3048³/60 m³/s. -/
def SYMBOLS : List (Text × ℚ) :=
  [("pa".toList, 1), ("bar".toList, 100000), ("atm".toList, 101325), ("torr".toList, 101325 / 760),
   ("micron".toList, 101325 / 760000), ("m".toList, 1), ("l".toList, 1 / 1000),
   ("liter".toList, 1 / 1000), ("litre".toList, 1 / 1000), ("s".toList, 1), ("h".toList, 3600),
   ("cfm".toList, 3048 ^ 3 / (60 * 10000 ^ 3))]

/-- The places of the prefixes in a name with their powers, and its symbols with theirs. -/
structure Reading where
  prefixes : List (ℕ × ℤ)
  symbols : List (ℚ × ℤ)
  deriving DecidableEq

def Reading.times (r t : Reading) : Reading := ⟨r.prefixes ++ t.prefixes, r.symbols ++ t.symbols⟩

/-! ## 2. Names -/

/-- A component without its power. -/
def power (name : Text) : Text × ℤ :=
  match name.getLast? with
  | some '2' => (name.dropLast, 2)
  | some '²' => (name.dropLast, 2)
  | some '3' => (name.dropLast, 3)
  | some '³' => (name.dropLast, 3)
  | _ => (name, 1)

/-- A symbol, or a prefix and a symbol, from a place of the name on. -/
def component (place : ℕ) (sign : ℤ) (name : Text) : Option Reading :=
  let (stem, n) := power name
  match SYMBOLS.lookup stem with
  | some q => some ⟨[], [(q, sign * n)]⟩
  | none => (SYMBOLS.lookup stem.tail).map fun q => ⟨[(place, sign * n)], [(q, sign * n)]⟩

/-- Components with `*`, `·` or `/` between them; the last one so far is `current`. -/
def readFrom (place : ℕ) (sign : ℤ) (current : Text) : Text → Option Reading
  | [] => component place sign current
  | c :: rest =>
      if c = '*' ∨ c = '·' then do
        let r ← component place sign current
        let t ← readFrom (place + current.length + 1) 1 [] rest
        some (r.times t)
      else if c = '/' then do
        let r ← component place sign current
        let t ← readFrom (place + current.length + 1) (-1) [] rest
        some (r.times t)
      else readFrom place sign (current ++ [c]) rest

def reading (name : Text) : Option Reading := readFrom 0 1 [] name

/-- The power of ten that the prefixes stand for, as their letters are written. -/
def Reading.exponent (r : Reading) (written : Text) : Option ℤ :=
  r.prefixes.foldr
    (fun p total => do
      let c ← written[p.1]?
      let e ← prefixExponent c
      let t ← total
      some (p.2 * e + t))
    (some 0)

/-- What the symbols stand for. -/
def Reading.coefficient (r : Reading) : ℚ := (r.symbols.map fun s => s.1 ^ s.2).prod

/-- How many SI units the unit is that is written so, where the name is the same but for case. -/
def siFactor (written name : Text) : Option ℚ := do
  let r ← reading name
  let e ← r.exponent written
  some (10 ^ e * r.coefficient)

/-! ## 3. Decimals -/

/-- Equal to seven digits. -/
def Near (decimal x : ℚ) : Prop := |decimal - x| * 10 ^ 7 ≤ x

instance (decimal x : ℚ) : Decidable (Near decimal x) :=
  inferInstanceAs (Decidable (_ ≤ _))

theorem near_lt {decimal q : ℚ} (hq : 0 < q) {a b : ℤ} (ha : Near decimal (10 ^ a * q))
    (hb : Near decimal (10 ^ b * q)) : ¬ a < b := by
  intro hlt
  have hpos : (0 : ℚ) < 10 ^ a := by positivity
  have hten : (10 : ℚ) ^ (a + 1) ≤ 10 ^ b := zpow_le_zpow_right₀ (by norm_num) hlt
  have hstep : (10 : ℚ) ^ (a + 1) = 10 ^ a * 10 := zpow_add_one₀ (by norm_num) a
  rw [hstep] at hten
  have hscaled : 10 * (10 ^ a * q) ≤ 10 ^ b * q := by
    have h := mul_le_mul_of_nonneg_right hten hq.le
    linarith
  have hsmall : 0 < 10 ^ a * q := mul_pos hpos hq
  unfold Near at ha hb
  have hupper := le_abs_self (decimal - 10 ^ a * q)
  have hlower := neg_abs_le (decimal - 10 ^ b * q)
  norm_num at ha hb
  linarith

/-- **A decimal is near to one power of ten only.** -/
theorem near_exponent {decimal q : ℚ} (hq : 0 < q) {a b : ℤ} (ha : Near decimal (10 ^ a * q))
    (hb : Near decimal (10 ^ b * q)) : a = b := by
  rcases lt_trichotomy a b with h | h | h
  · exact absurd h (near_lt hq ha hb)
  · exact h
  · exact absurd h (near_lt hq hb ha)

end SiUnits
