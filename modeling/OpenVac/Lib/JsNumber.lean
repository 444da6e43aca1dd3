/-
  File:      OpenVac/Lib/JsNumber.lean
  Subject:   JavaScript numbers as far as integers need them: the double nearest to a natural
             number.

  * `nearest n` -- `n` rounded to 53 significant bits, ties to even.
  * `Number`, `parseInt` -- the numbers `Number.parseInt(text, 10)` yields.
  * `nearest_of_lt` -- integers below 2^53 are exact; `nearest_ge` -- rounding does not cross
    2^53 downwards. A comparison with a bound below 2^53 needs no more.
-/
import Mathlib.Data.Nat.Log
import Mathlib.Tactic.Ring
import OpenVac.Lib.JsString

namespace JsNumber

/-- `Number.MAX_SAFE_INTEGER + 1`, from which on doubles skip integers. -/
def twoTo53 : Nat := 9007199254740992

/-- `n / 2^e` rounded to the nearest integer, ties to even. -/
def roundHalfEven (n e : Nat) : Nat :=
  let q := n / 2 ^ e
  let r := n % 2 ^ e
  if 2 * r > 2 ^ e ∨ 2 * r = 2 ^ e ∧ q % 2 = 1 then q + 1 else q

/-- The double nearest to `n` (of those that are not `Infinity`), which is an integer. -/
def nearest (n : Nat) : Nat :=
  if n < twoTo53 then n
  else
    let e := Nat.log2 n - 52
    roundHalfEven n e * 2 ^ e

/-- `Number.isSafeInteger` on a non-negative integer. -/
def isSafeInteger (n : Nat) : Bool := decide (n < twoTo53)

/-- What `parseInt` yields: an integral double or none. -/
inductive Number where
  | nan
  | infinity (negative : Bool)
  | int (value : Int)
  deriving DecidableEq, Repr

/-- The double of an integer, given its sign and magnitude. -/
def Number.ofMagnitude (negative : Bool) (magnitude : Nat) : Number :=
  let rounded := nearest magnitude
  if 2 ^ 1024 ≤ rounded then .infinity negative
  else .int (if negative then -(rounded : Int) else rounded)

/-- `Number.parseInt(text, 10)`: blanks, a sign, then the digits up to the first other character. -/
def parseInt (text : List Char) : Number :=
  let s := JsString.trimStart text
  let (negative, s) :=
    match s with
    | '-' :: s => (true, s)
    | '+' :: s => (false, s)
    | s => (false, s)
  let digits := s.takeWhile fun c => decide ('0' ≤ c ∧ c ≤ '9')
  if digits.isEmpty then .nan
  else .ofMagnitude negative (digits.foldl (fun n c => 10 * n + (c.toNat - '0'.toNat)) 0)

/-- `Number.isSafeInteger(value) && value > 0`. -/
def Number.safePositive : Number → Option Nat
  | .int value => if 0 < value ∧ value < twoTo53 then some value.toNat else none
  | .nan | .infinity _ => none

/-- The value of a finite number. -/
def Number.finite : Number → Option Int
  | .int value => some value
  | .nan | .infinity _ => none

/-- Integers below 2^53 are doubles. -/
theorem nearest_of_lt {n : Nat} (h : n < twoTo53) : nearest n = n := by
  unfold nearest
  rw [if_pos h]

theorem le_roundHalfEven (n e : Nat) : n / 2 ^ e ≤ roundHalfEven n e := by
  unfold roundHalfEven
  simp only
  split
  · exact Nat.le_succ _
  · exact Nat.le_refl _

/-- **Rounding does not cross 2^53 downwards.** -/
theorem nearest_ge {n : Nat} (h : twoTo53 ≤ n) : twoTo53 ≤ nearest n := by
  unfold nearest
  rw [if_neg (Nat.not_lt.mpr h)]
  simp only
  -- the quotient keeps 53 bits, so it is at least 2^52
  have hn : n ≠ 0 := by
    rintro rfl
    exact absurd h (by decide)
  have hlog : 53 ≤ Nat.log2 n := (Nat.le_log2 hn).mpr h
  have hpow : 2 ^ Nat.log2 n ≤ n := Nat.log2_self_le hn
  have hsplit : 2 ^ 52 * 2 ^ (Nat.log2 n - 52) = 2 ^ Nat.log2 n := by
    rw [← Nat.pow_add]
    congr 1
    omega
  have hq : 2 ^ 52 ≤ n / 2 ^ (Nat.log2 n - 52) := by
    rw [Nat.le_div_iff_mul_le (Nat.two_pow_pos _), hsplit]
    exact hpow
  have htwo : 2 ≤ 2 ^ (Nat.log2 n - 52) := by
    calc 2 = 2 ^ 1 := rfl
      _ ≤ 2 ^ (Nat.log2 n - 52) := Nat.pow_le_pow_right (by decide) (by omega)
  calc twoTo53 = 2 ^ 52 * 2 := by decide
    _ ≤ roundHalfEven n (Nat.log2 n - 52) * 2 ^ (Nat.log2 n - 52) :=
        Nat.mul_le_mul (Nat.le_trans hq (le_roundHalfEven _ _)) htwo

theorem roundHalfEven_le (n e : Nat) : roundHalfEven n e ≤ n / 2 ^ e + 1 := by
  unfold roundHalfEven
  simp only
  split
  · exact Nat.le_refl _
  · exact Nat.le_succ _

/-- **Rounding moves an integer by less than one part in 2^52.** -/
theorem nearest_near (n : Nat) :
    nearest n ≤ n + n / 2 ^ 52 ∧ n ≤ nearest n + n / 2 ^ 52 := by
  by_cases h : n < twoTo53
  · rw [nearest_of_lt h]
    exact ⟨Nat.le_add_right _ _, Nat.le_add_right _ _⟩
  · unfold nearest
    rw [if_neg h]
    simp only
    have hn : n ≠ 0 := by
      rintro rfl
      exact h (by decide)
    have hlog : 53 ≤ Nat.log2 n := (Nat.le_log2 hn).mpr (Nat.not_lt.mp h)
    -- one unit of the last place is at most the allowed difference
    have hunit : 2 ^ (Nat.log2 n - 52) ≤ n / 2 ^ 52 := by
      rw [Nat.le_div_iff_mul_le (by decide), ← Nat.pow_add, Nat.sub_add_cancel (by omega)]
      exact Nat.log2_self_le hn
    have hdiv := Nat.div_add_mod' n (2 ^ (Nat.log2 n - 52))
    have hmod := Nat.mod_lt n (Nat.two_pow_pos (Nat.log2 n - 52))
    have hlow := Nat.mul_le_mul_right (2 ^ (Nat.log2 n - 52))
      (le_roundHalfEven n (Nat.log2 n - 52))
    have hhigh := Nat.mul_le_mul_right (2 ^ (Nat.log2 n - 52))
      (roundHalfEven_le n (Nat.log2 n - 52))
    rw [Nat.add_mul, Nat.one_mul] at hhigh
    constructor
    · omega
    · omega

/-- Comparing the rounded number with a bound below 2^53 is comparing the number itself. -/
theorem nearest_le_iff {n bound : Nat} (hb : bound < twoTo53) : nearest n ≤ bound ↔ n ≤ bound := by
  by_cases h : n < twoTo53
  · rw [nearest_of_lt h]
  · have h1 := nearest_ge (Nat.not_lt.mp h)
    omega

/-- Adding to a safe integer makes it larger, also where the sum is rounded. -/
theorem lt_nearest_add {n k bound : Nat} (hb : bound < n + k)
    (hs : bound < twoTo53) : bound < nearest (n + k) := by
  by_cases h : n + k < twoTo53
  · rw [nearest_of_lt h]
    exact hb
  · have := nearest_ge (Nat.not_lt.mp h)
    omega

theorem Number.safePositive_lt {x : Number} {n : Nat} (h : x.safePositive = some n) :
    0 < n ∧ n < twoTo53 := by
  unfold safePositive at h
  split at h
  · split at h
    · next hv =>
      injection h with h
      omega
    · nomatch h
  · nomatch h
  · nomatch h

end JsNumber
