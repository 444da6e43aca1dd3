/-
  File:      OpenVac/Lib/JsDate.lean
  Subject:   The calendar of ECMAScript's `Date` in UTC, from 1970 on.

  * `dayFromYear`, `yearFromDay`, `monthFromDay`, `dateFromDay`, `makeDay` -- the
    specification's DayFromYear, YearFromTime, MonthFromTime, DateFromTime and MakeDay, on day
    numbers.
  * `firstOfMonth k` -- the first day of month `k`, months counted through the years.
  * `makeDay_self` -- a day's own parts make that day; `monthIndex_iff` -- the months are the
    cells of a strictly increasing sequence, so every day is in exactly one.
-/
import Mathlib.Data.Nat.Find
import Mathlib.Tactic.IntervalCases

namespace JsDate

def msPerDay : Nat := 86400000

def inLeapYear (y : Nat) : Bool := y % 4 == 0 && (y % 100 != 0 || y % 400 == 0)

/-- The number of the first day of a year. -/
def dayFromYear (y : Nat) : Nat :=
  365 * (y - 1970) + (y - 1969) / 4 + (y - 1601) / 400 - (y - 1901) / 100

/-- The year of a day: the largest one that does not begin after it. -/
def yearFromDay (d : Nat) : Nat :=
  Nat.findGreatest (fun y => 1970 ≤ y ∧ dayFromYear y ≤ d) (1970 + d / 365)

def dayWithinYear (d : Nat) : Nat := d - dayFromYear (yearFromDay d)

/-- The day within the year on which month `m` (from 0) begins; month 12 is the end. -/
def monthStart (leap : Bool) (m : Nat) : Nat :=
  let l := if leap then 1 else 0
  match m with
  | 0 => 0
  | 1 => 31
  | 2 => 59 + l
  | 3 => 90 + l
  | 4 => 120 + l
  | 5 => 151 + l
  | 6 => 181 + l
  | 7 => 212 + l
  | 8 => 243 + l
  | 9 => 273 + l
  | 10 => 304 + l
  | 11 => 334 + l
  | _ => 365 + l

/-- The month of a day, from 0. -/
def monthFromDay (d : Nat) : Nat :=
  Nat.findGreatest (fun m => monthStart (inLeapYear (yearFromDay d)) m ≤ dayWithinYear d) 11

/-- The day of the month, from 1. -/
def dateFromDay (d : Nat) : Nat :=
  dayWithinYear d - monthStart (inLeapYear (yearFromDay d)) (monthFromDay d) + 1

/-- `MakeDay`: a month past 11 carries into the year, a date past the end into the month. -/
def makeDay (year month date : Nat) : Nat :=
  dayFromYear (year + month / 12) + monthStart (inLeapYear (year + month / 12)) (month % 12) +
    (date - 1)

/-! ## 1. Years -/

/-- The formula without subtractions, from 1970 on. -/
theorem dayFromYear_add (k : Nat) :
    dayFromYear (k + 1970) = 365 * k + (k + 1) / 4 + (k + 369) / 400 - (k + 69) / 100 := by
  have hsub : ∀ a b c : Nat, a = b + c → k + a - b = k + c := fun a b c h => by omega
  unfold dayFromYear
  rw [hsub 1970 1970 0 rfl, hsub 1970 1969 1 rfl, hsub 1970 1601 369 rfl, hsub 1970 1901 69 rfl,
    Nat.add_zero]

theorem div_step (a n : Nat) : (a + 1) / n = a / n + if (a + 1) % n = 0 then 1 else 0 := by
  rw [Nat.succ_div]
  congr 1
  exact if_congr Nat.dvd_iff_mod_eq_zero rfl rfl

theorem dayFromYear_succ {y : Nat} (h : 1970 ≤ y) :
    dayFromYear (y + 1) = dayFromYear y + 365 + if inLeapYear y then 1 else 0 := by
  obtain ⟨k, rfl⟩ := Nat.exists_eq_add_of_le' h
  have h4 : (k + 1 + 1) / 4 = (k + 1) / 4 + if (k + 1970) % 4 = 0 then 1 else 0 := by
    rw [div_step, show (k + 1 + 1) % 4 = (k + 1970) % 4 by omega]
  have h400 : (k + 1 + 369) / 400 = (k + 369) / 400 + if (k + 1970) % 400 = 0 then 1 else 0 := by
    rw [show k + 1 + 369 = k + 369 + 1 by omega, div_step,
      show (k + 369 + 1) % 400 = (k + 1970) % 400 by omega]
  have h100 : (k + 1 + 69) / 100 = (k + 69) / 100 + if (k + 1970) % 100 = 0 then 1 else 0 := by
    rw [show k + 1 + 69 = k + 69 + 1 by omega, div_step,
      show (k + 69 + 1) % 100 = (k + 1970) % 100 by omega]
  have hle : (k + 69) / 100 ≤ (k + 1) / 4 + (k + 369) / 400 := by omega
  have h40 : (k + 1970) % 100 = 0 → (k + 1970) % 4 = 0 := by omega
  have h41 : (k + 1970) % 400 = 0 → (k + 1970) % 100 = 0 := by omega
  rw [show k + 1970 + 1 = (k + 1) + 1970 by omega, dayFromYear_add, dayFromYear_add, h4, h400, h100]
  unfold inLeapYear
  generalize (k + 69) / 100 = q100 at *
  generalize (k + 1) / 4 = q4 at *
  generalize (k + 369) / 400 = q400 at *
  generalize k + 1970 = y at *
  by_cases c4 : y % 4 = 0 <;> by_cases c100 : y % 100 = 0 <;> by_cases c400 : y % 400 = 0 <;>
    simp [c4, c100, c400] at h40 h41 ⊢ <;> omega

theorem le_dayFromYear {y : Nat} (h : 1970 ≤ y) : 365 * (y - 1970) ≤ dayFromYear y := by
  unfold dayFromYear
  omega

/-- **A day lies in its year.** -/
theorem yearFromDay_spec (d : Nat) : 1970 ≤ yearFromDay d ∧ dayFromYear (yearFromDay d) ≤ d ∧
    d < dayFromYear (yearFromDay d + 1) := by
  have hspec : 1970 ≤ yearFromDay d ∧ dayFromYear (yearFromDay d) ≤ d :=
    Nat.findGreatest_spec (P := fun y => 1970 ≤ y ∧ dayFromYear y ≤ d) (m := 1970)
      (Nat.le_add_right _ _) ⟨Nat.le_refl _, Nat.zero_le _⟩
  refine ⟨hspec.1, hspec.2, ?_⟩
  by_contra hlt
  have hle : dayFromYear (yearFromDay d + 1) ≤ d := Nat.not_lt.mp hlt
  -- the next year would have been found
  have hbound : yearFromDay d + 1 ≤ 1970 + d / 365 := by
    have := le_dayFromYear (y := yearFromDay d + 1) (by omega)
    omega
  have hfound : yearFromDay d + 1 ≤ yearFromDay d :=
    Nat.le_findGreatest hbound ⟨by omega, hle⟩
  omega

theorem dayWithinYear_lt (d : Nat) :
    dayWithinYear d < monthStart (inLeapYear (yearFromDay d)) 12 := by
  obtain ⟨h1, h2, h3⟩ := yearFromDay_spec d
  rw [dayFromYear_succ h1] at h3
  unfold dayWithinYear
  simp only [monthStart]
  omega

/-! ## 2. Months -/

theorem monthStart_lt (leap : Bool) {m : Nat} (h : m ≤ 11) :
    monthStart leap m < monthStart leap (m + 1) := by
  interval_cases m <;> cases leap <;> decide

theorem monthFromDay_spec (d : Nat) : monthFromDay d ≤ 11 ∧
    monthStart (inLeapYear (yearFromDay d)) (monthFromDay d) ≤ dayWithinYear d ∧
    dayWithinYear d < monthStart (inLeapYear (yearFromDay d)) (monthFromDay d + 1) := by
  have hle : monthFromDay d ≤ 11 := Nat.findGreatest_le 11
  have hspec : monthStart (inLeapYear (yearFromDay d)) (monthFromDay d) ≤ dayWithinYear d :=
    Nat.findGreatest_spec
      (P := fun m => monthStart (inLeapYear (yearFromDay d)) m ≤ dayWithinYear d) (m := 0)
      (Nat.zero_le _) (Nat.zero_le _)
  refine ⟨hle, hspec, ?_⟩
  by_cases h11 : monthFromDay d = 11
  · rw [h11]
    exact dayWithinYear_lt d
  · by_contra hlt
    have hfound : monthFromDay d + 1 ≤ monthFromDay d :=
      Nat.le_findGreatest (by omega) (Nat.not_lt.mp hlt)
    omega

/-- The months counted through the years: month `m` of year `y` is number `12 y + m`. -/
def monthIndex (d : Nat) : Nat := 12 * yearFromDay d + monthFromDay d

/-- The first day of the month with a number. -/
def firstOfMonth (k : Nat) : Nat :=
  dayFromYear (k / 12) + monthStart (inLeapYear (k / 12)) (k % 12)

theorem firstOfMonth_lt {k : Nat} (h : 12 * 1970 ≤ k) : firstOfMonth k < firstOfMonth (k + 1) := by
  unfold firstOfMonth
  by_cases h11 : k % 12 = 11
  · have h1 : (k + 1) / 12 = k / 12 + 1 := by omega
    have h2 : (k + 1) % 12 = 0 := by omega
    rw [h1, h2, h11, dayFromYear_succ (by omega)]
    simp only [monthStart]
    omega
  · have h1 : (k + 1) / 12 = k / 12 := by omega
    have h2 : (k + 1) % 12 = k % 12 + 1 := by omega
    rw [h1, h2]
    have := monthStart_lt (inLeapYear (k / 12)) (show k % 12 ≤ 11 by omega)
    omega

theorem firstOfMonth_mono {j k : Nat} (hj : 12 * 1970 ≤ j) (h : j ≤ k) :
    firstOfMonth j ≤ firstOfMonth k := by
  induction k, h using Nat.le_induction with
  | base => exact Nat.le_refl _
  | succ k hk ih => exact Nat.le_trans ih (Nat.le_of_lt (firstOfMonth_lt (Nat.le_trans hj hk)))

/-- **A day's own parts make that day**, and the date before the first of the next month is
    counted on. -/
theorem makeDay_self (d n : Nat) :
    makeDay (yearFromDay d) (monthFromDay d) (dateFromDay d + n) = d + n := by
  obtain ⟨_, h2, _⟩ := yearFromDay_spec d
  obtain ⟨h4, h5, _⟩ := monthFromDay_spec d
  have hdiv : monthFromDay d / 12 = 0 := by omega
  have hmod : monthFromDay d % 12 = monthFromDay d := by omega
  unfold makeDay dateFromDay
  rw [hdiv, hmod, Nat.add_zero]
  unfold dayWithinYear at h5 ⊢
  omega

/-- The first of a month, also of the one after December. -/
theorem makeDay_first (y m : Nat) : makeDay y m 1 = firstOfMonth (12 * y + m) := by
  have h1 : (12 * y + m) / 12 = y + m / 12 := by omega
  have h2 : (12 * y + m) % 12 = m % 12 := by omega
  unfold makeDay firstOfMonth
  rw [h1, h2]
  rfl

/-- A day lies in its month. -/
theorem monthIndex_spec (d : Nat) : 12 * 1970 ≤ monthIndex d ∧
    firstOfMonth (monthIndex d) ≤ d ∧ d < firstOfMonth (monthIndex d + 1) := by
  obtain ⟨h1, h2, h3⟩ := yearFromDay_spec d
  obtain ⟨h4, h5, h6⟩ := monthFromDay_spec d
  have hdiv : monthIndex d / 12 = yearFromDay d := by unfold monthIndex; omega
  have hmod : monthIndex d % 12 = monthFromDay d := by unfold monthIndex; omega
  refine ⟨by unfold monthIndex; omega, ?_, ?_⟩
  · unfold firstOfMonth
    rw [hdiv, hmod]
    unfold dayWithinYear at h5
    omega
  · unfold firstOfMonth
    by_cases h11 : monthFromDay d = 11
    · have h7 : (monthIndex d + 1) / 12 = yearFromDay d + 1 := by unfold monthIndex; omega
      have h8 : (monthIndex d + 1) % 12 = 0 := by unfold monthIndex; omega
      rw [h7, h8]
      simp only [monthStart]
      omega
    · have h7 : (monthIndex d + 1) / 12 = yearFromDay d := by unfold monthIndex; omega
      have h8 : (monthIndex d + 1) % 12 = monthFromDay d + 1 := by unfold monthIndex; omega
      rw [h7, h8]
      unfold dayWithinYear at h6
      omega

/-- **Every day is in exactly one month.** -/
theorem monthIndex_iff {d k : Nat} (hk : 12 * 1970 ≤ k) :
    firstOfMonth k ≤ d ∧ d < firstOfMonth (k + 1) ↔ monthIndex d = k := by
  obtain ⟨h1, h2, h3⟩ := monthIndex_spec d
  constructor
  · rintro ⟨h4, h5⟩
    rcases Nat.lt_trichotomy (monthIndex d) k with h | h | h
    · have := firstOfMonth_mono (j := monthIndex d + 1) (by omega) h
      omega
    · exact h
    · have := firstOfMonth_mono (j := k + 1) (by omega) h
      omega
  · rintro rfl
    exact ⟨h2, h3⟩

example : (yearFromDay 20000, monthFromDay 20000, dateFromDay 20000) = (2024, 9, 4) := by decide

end JsDate
