/-
  File:      OpenVac/Operations/BeijingDay.lean
  Subject:   The Beijing day of the quotas (server/quota/window.ts) and of the spending limits
             (`beijingUsageWindows`, server/operations/model-runtime.ts).

  * `timeClip` -- a `Date` past the last representable instant is invalid.
  * `TimeZones` -- the offset of Asia/Shanghai in the Intl database, eight hours since 1992.
  * `shanghaiDailyWindow`, `beijingUsageWindows` -- the two computations.
  * `key_inj` -- the key of a window determines its day.
  * `beijing_days_agree` -- the two give the same day; `last_day_invalid` -- not on the last one.
-/
import OpenVac.Operations.SpendingCap

namespace OpenVac.Operations

open Quota

/-! ## 1. Dates -/

/-- The last time value of a `Date`. -/
def maxTime : Nat := 8640000000000000

/-- `TimeClip`; `none` is the time value of an invalid date. -/
def timeClip (time : Int) : Option Int := if time.natAbs ≤ maxTime then some time else none

/-- `Date.UTC(year, month, day)`. -/
def dateUTC (year month day : Nat) : Option Int :=
  timeClip ((JsDate.makeDay year month day * JsDate.msPerDay : Nat) : Int)

/-- 1992-01-01T00:00:00+08:00. -/
def since1992 : Nat := 694195200000

/-- Asia/Shanghai in the Intl database: the offset from UTC at an instant. China has had no
    daylight saving time since 1992. -/
class TimeZones where
  shanghaiOffset : Nat → Nat
  shanghai_since_1992 : ∀ at_, since1992 ≤ at_ → shanghaiOffset at_ = BEIJING_OFFSET_MS

/-! ## 2. The two computations -/

def SHANGHAI_UTC_OFFSET_MILLISECONDS : Nat := 8 * 60 * 60 * 1000

/-- `n.toString().padStart(width, "0")`. -/
def padStart (width n : Nat) : List Char := (Nat.toDigits 10 n).leftpad width '0'

section Shanghai

variable [TimeZones]

/-- The day the parts of `dateFormatter.formatToParts(at)` name. -/
def shanghaiDay (at_ : Nat) : Nat := (at_ + TimeZones.shanghaiOffset at_) / JsDate.msPerDay

/-- Year, month from 1, and day. -/
def dateParts (at_ : Nat) : Nat × Nat × Nat :=
  let d := shanghaiDay at_
  (JsDate.yearFromDay d, JsDate.monthFromDay d + 1, JsDate.dateFromDay d)

def windowKey (year month day : Nat) : List Char :=
  padStart 4 year ++ ('-' :: padStart 2 month) ++ ('-' :: padStart 2 day)

/-- The window of a valid date; none where its `resetAt` is an invalid one. -/
def shanghaiDailyWindow (at_ : Nat) : Option QuotaWindow := do
  let (year, month, day) := dateParts at_
  let nextLocalMidnightAsUtc ← dateUTC year (month - 1) (day + 1)
  let resetAt ← timeClip (nextLocalMidnightAsUtc - SHANGHAI_UTC_OFFSET_MILLISECONDS)
  return { key := String.ofList (windowKey year month day), resetAt := resetAt }

end Shanghai

structure BeijingUsageWindows where
  dayStart : Option Int
  dayEnd : Option Int
  monthStart : Option Int
  monthEnd : Option Int
  deriving DecidableEq, Repr

/-- `new Date(Date.UTC(year, month, day) - BEIJING_OFFSET_MS)`. -/
def dateFromBeijingParts (year month day : Nat) : Option Int := do
  let utc ← dateUTC year month day
  timeClip (utc - BEIJING_OFFSET_MS)

/-- The windows around a date whose UTC parts are those of Beijing. -/
def windowsOfShifted : Option Int → BeijingUsageWindows
  -- the parts of an invalid date are not numbers, and neither is what is made of them
  | none => ⟨none, none, none, none⟩
  | some shifted =>
      let d := shifted.toNat / JsDate.msPerDay
      let year := JsDate.yearFromDay d
      let month := JsDate.monthFromDay d
      let day := JsDate.dateFromDay d
      { dayStart := dateFromBeijingParts year month day
        dayEnd := dateFromBeijingParts year month (day + 1)
        monthStart := dateFromBeijingParts year month 1
        monthEnd := dateFromBeijingParts year (month + 1) 1 }

def beijingUsageWindows (at_ : Nat) : BeijingUsageWindows :=
  windowsOfShifted (timeClip ((at_ + BEIJING_OFFSET_MS : Nat) : Int))

/-! ## 3. Keys -/

theorem padStart_value (width n : Nat) : Nat.ofDigitChars 10 (padStart width n) 0 = n := by
  unfold padStart List.leftpad
  rw [Nat.ofDigitChars_append, Nat.ofDigitChars_replicate_zero, Nat.mul_zero,
    Nat.ofDigitChars_ten_toDigits]

theorem padStart_inj {width m n : Nat} (h : padStart width m = padStart width n) : m = n := by
  rw [← padStart_value width m, h, padStart_value]

theorem length_padStart {width n : Nat} (hw : 0 < width) (h : n < 10 ^ width) :
    (padStart width n).length = width := by
  have hdigits : (Nat.toDigits 10 n).length ≤ width :=
    (Nat.length_toDigits_le_iff (by decide) hw).mpr h
  unfold padStart List.leftpad
  rw [List.length_append, List.length_replicate]
  omega

/-- The parts of a key of two-digit months and days. -/
theorem windowKey_inj {year month day year' month' day' : Nat} (hmonth : month < 100)
    (hday : day < 100) (hmonth' : month' < 100) (hday' : day' < 100)
    (h : windowKey year month day = windowKey year' month' day') :
    year = year' ∧ month = month' ∧ day = day' := by
  unfold windowKey at h
  have hlength {n : Nat} (hn : n < 100) : ('-' :: padStart 2 n).length = 3 := by
    rw [List.length_cons, length_padStart (by decide) hn]
  obtain ⟨hfront, hdays⟩ := List.append_inj' h ((hlength hday).trans (hlength hday').symm)
  obtain ⟨hyears, hmonths⟩ :=
    List.append_inj' hfront ((hlength hmonth).trans (hlength hmonth').symm)
  exact ⟨padStart_inj hyears, padStart_inj (List.tail_eq_of_cons_eq hmonths),
    padStart_inj (List.tail_eq_of_cons_eq hdays)⟩

theorem dateFromDay_le (d : Nat) : JsDate.dateFromDay d ≤ 31 := by
  obtain ⟨hmonth, hstart, hend⟩ := JsDate.monthFromDay_spec d
  have hlength (leap : Bool) {m : Nat} (hm : m ≤ 11) :
      JsDate.monthStart leap (m + 1) ≤ JsDate.monthStart leap m + 31 := by
    interval_cases m <;> cases leap <;> decide
  have h := hlength (JsDate.inLeapYear (JsDate.yearFromDay d)) hmonth
  unfold JsDate.dateFromDay
  omega

/-- The key of a day. -/
def dayKey (d : Nat) : List Char :=
  windowKey (JsDate.yearFromDay d) (JsDate.monthFromDay d + 1) (JsDate.dateFromDay d)

/-- **A key determines its day.** -/
theorem key_inj {d e : Nat} (h : dayKey d = dayKey e) : d = e := by
  have hmonth (d : Nat) : JsDate.monthFromDay d + 1 < 100 := by
    have := (JsDate.monthFromDay_spec d).1
    omega
  have hday (d : Nat) : JsDate.dateFromDay d < 100 := by
    have := dateFromDay_le d
    omega
  obtain ⟨hy, hm, hd⟩ := windowKey_inj (hmonth d) (hday d) (hmonth e) (hday e) h
  have hself := JsDate.makeDay_self d 0
  rw [hy, Nat.add_right_cancel hm, hd, JsDate.makeDay_self] at hself
  omega

/-! ## 4. Agreement -/

/-- 275760-09-01T00:00:00+08:00: the end of that month is past the last `Date`. -/
def lastMonth : Nat := 8639998934400000

theorem timeClip_some {t : Int} (hlow : 0 ≤ t + maxTime) (hhigh : t ≤ maxTime) :
    timeClip t = some t := by
  have habs : t.natAbs ≤ maxTime := by omega
  exact if_pos habs

theorem dateFromBeijingParts_of_utc {year month day : Nat} {utc : Int}
    (hutc : dateUTC year month day = some utc)
    (hclip : timeClip (utc - BEIJING_OFFSET_MS) = some (utc - BEIJING_OFFSET_MS)) :
    dateFromBeijingParts year month day = some (utc - BEIJING_OFFSET_MS) := by
  unfold dateFromBeijingParts
  rw [hutc]
  exact hclip

theorem beijingUsageWindows_of_shifted {at_ d : Nat} {shifted : Int}
    (hshifted : timeClip ((at_ + BEIJING_OFFSET_MS : Nat) : Int) = some shifted)
    (hd : shifted.toNat / JsDate.msPerDay = d) :
    beijingUsageWindows at_ =
      ⟨dateFromBeijingParts (JsDate.yearFromDay d) (JsDate.monthFromDay d) (JsDate.dateFromDay d),
        dateFromBeijingParts (JsDate.yearFromDay d) (JsDate.monthFromDay d)
          (JsDate.dateFromDay d + 1),
        dateFromBeijingParts (JsDate.yearFromDay d) (JsDate.monthFromDay d) 1,
        dateFromBeijingParts (JsDate.yearFromDay d) (JsDate.monthFromDay d + 1) 1⟩ := by
  unfold beijingUsageWindows
  rw [hshifted]
  unfold windowsOfShifted
  dsimp only
  rw [hd]

/-- A day up to the last one is a date. -/
theorem dateFromBeijingParts_eq {year month day n : Nat} (h : JsDate.makeDay year month day = n)
    (hn : n ≤ 100000000) :
    dateFromBeijingParts year month day =
      some (((n * JsDate.msPerDay : Nat) : Int) - BEIJING_OFFSET_MS) := by
  have hms : n * JsDate.msPerDay ≤ maxTime := by
    unfold JsDate.msPerDay maxTime
    omega
  have hutc : dateUTC year month day = some ((n * JsDate.msPerDay : Nat) : Int) := by
    unfold dateUTC
    rw [h]
    exact timeClip_some (by omega) (by exact_mod_cast hms)
  have hoffset : BEIJING_OFFSET_MS ≤ maxTime := by decide
  exact dateFromBeijingParts_of_utc hutc (timeClip_some (by omega) (by omega))

theorem beijingDay_lt {at_ : Nat} (h : at_ < lastMonth) : beijingDay at_ < 99999988 := by
  unfold beijingDay
  rw [Nat.div_lt_iff_lt_mul (by decide)]
  simp only [lastMonth, BEIJING_OFFSET_MS, JsDate.msPerDay] at h ⊢
  omega

/-- The end of a month before the last one. -/
theorem firstOfMonth_le {d : Nat} (h : d < 99999988) :
    JsDate.firstOfMonth (JsDate.monthIndex d + 1) ≤ 99999988 := by
  have hlast : JsDate.firstOfMonth (12 * 275760 + 8) = 99999988 := by decide
  have hmonth : JsDate.monthIndex d < 12 * 275760 + 8 := by
    by_contra hge
    have hle := JsDate.firstOfMonth_mono (by decide) (Nat.not_lt.mp hge)
    have := (JsDate.monthIndex_spec d).2.1
    omega
  have hfirst := (JsDate.monthIndex_spec d).1
  rw [← hlast]
  exact JsDate.firstOfMonth_mono (by omega) hmonth

/-- The windows of the spending limits, as long as their ends are dates. -/
theorem beijingUsageWindows_eq {at_ : Nat} (h : at_ < lastMonth) :
    beijingUsageWindows at_ =
      ⟨some (dayWindow at_).start, some (dayWindow at_).stop, some (monthWindow at_).start,
        some (monthWindow at_).stop⟩ := by
  have hday := beijingDay_lt h
  have hshifted : timeClip ((at_ + BEIJING_OFFSET_MS : Nat) : Int) =
      some ((at_ + BEIJING_OFFSET_MS : Nat) : Int) := by
    have hoffset : lastMonth + BEIJING_OFFSET_MS ≤ maxTime := by decide
    exact timeClip_some (by omega) (by omega)
  have hparts : ((at_ + BEIJING_OFFSET_MS : Nat) : Int).toNat / JsDate.msPerDay =
      beijingDay at_ := by
    rw [Int.toNat_natCast, beijingDay]
  have hself := JsDate.makeDay_self (beijingDay at_) 0
  have htomorrow := JsDate.makeDay_self (beijingDay at_) 1
  have hfirst := JsDate.makeDay_first (JsDate.yearFromDay (beijingDay at_))
    (JsDate.monthFromDay (beijingDay at_))
  have hnext := JsDate.makeDay_first (JsDate.yearFromDay (beijingDay at_))
    (JsDate.monthFromDay (beijingDay at_) + 1)
  have hmonthEnd := firstOfMonth_le hday
  have hmonth := (JsDate.monthIndex_spec (beijingDay at_)).2.1
  rw [Nat.add_zero, Nat.add_zero] at hself
  rw [← Nat.add_assoc] at hnext
  unfold JsDate.monthIndex at hmonthEnd hmonth
  rw [beijingUsageWindows_of_shifted hshifted hparts, dayWindow_eq, monthWindow_eq,
    dateFromBeijingParts_eq hself (by omega), dateFromBeijingParts_eq htomorrow (by omega),
    dateFromBeijingParts_eq hfirst (by omega),
    dateFromBeijingParts_eq hnext (Nat.le_trans hmonthEnd (by decide))]
  unfold beijingMonth JsDate.monthIndex
  rfl

theorem dateParts_eq [TimeZones] {at_ : Nat} (hsince : since1992 ≤ at_) :
    dateParts at_ =
      (JsDate.yearFromDay (beijingDay at_), JsDate.monthFromDay (beijingDay at_) + 1,
        JsDate.dateFromDay (beijingDay at_)) := by
  have hday : shanghaiDay at_ = beijingDay at_ := by
    unfold shanghaiDay beijingDay
    rw [TimeZones.shanghai_since_1992 at_ hsince]
  unfold dateParts
  rw [hday]

theorem shanghaiDailyWindow_of_parts [TimeZones] {at_ year month day : Nat} {reset : Int}
    (hparts : dateParts at_ = (year, month + 1, day))
    (hreset : dateFromBeijingParts year month (day + 1) = some reset) :
    shanghaiDailyWindow at_ = some ⟨String.ofList (windowKey year (month + 1) day), reset⟩ := by
  unfold dateFromBeijingParts at hreset
  unfold shanghaiDailyWindow
  rw [hparts]
  dsimp only
  rw [Nat.add_sub_cancel]
  cases hutc : dateUTC year month (day + 1) with
  | none =>
    rw [hutc] at hreset
    cases hreset
  | some utc =>
    rw [hutc] at hreset
    have hclip : timeClip (utc - SHANGHAI_UTC_OFFSET_MILLISECONDS) = some reset := hreset
    show (timeClip (utc - SHANGHAI_UTC_OFFSET_MILLISECONDS)).bind _ = _
    rw [hclip]
    rfl

/-- The window of the quotas is the day of the spending limits, keyed by its date. -/
theorem shanghaiDailyWindow_eq [TimeZones] {at_ : Nat} (hsince : since1992 ≤ at_)
    (h : at_ < lastMonth) :
    shanghaiDailyWindow at_ =
      some ⟨String.ofList (dayKey (beijingDay at_)), (dayWindow at_).stop⟩ := by
  have hlast := beijingDay_lt h
  have hreset := dateFromBeijingParts_eq (JsDate.makeDay_self (beijingDay at_) 1) (by omega)
  rw [shanghaiDailyWindow_of_parts (dateParts_eq hsince) hreset, dayWindow_eq]
  unfold dayKey
  rfl

/-- What it is for the two computations to agree at an instant: the reset is the end of the day
    and a day after its start, the key names that day among all instants, and the month contains
    it. -/
def DaysAgree [TimeZones] (at_ : Nat) : Prop :=
  ∃ (window : QuotaWindow) (dayStart dayEnd monthStart monthEnd : Int),
    shanghaiDailyWindow at_ = some window ∧
    beijingUsageWindows at_ = ⟨some dayStart, some dayEnd, some monthStart, some monthEnd⟩ ∧
    (window.resetAt - JsDate.msPerDay ≤ at_ ∧ (at_ : Int) < window.resetAt) ∧
    window.resetAt = dayEnd ∧ window.resetAt - JsDate.msPerDay = dayStart ∧
    (∀ other otherWindow, since1992 ≤ other → shanghaiDailyWindow other = some otherWindow →
      (otherWindow.key = window.key ↔
        window.resetAt - JsDate.msPerDay ≤ other ∧ (other : Int) < window.resetAt)) ∧
    monthStart ≤ dayStart ∧ dayEnd ≤ monthEnd

/-- The key of a window, whatever its reset is. -/
theorem key_eq [TimeZones] {at_ : Nat} (hsince : since1992 ≤ at_) {window : QuotaWindow}
    (h : shanghaiDailyWindow at_ = some window) :
    window.key = String.ofList (dayKey (beijingDay at_)) := by
  unfold shanghaiDailyWindow at h
  rw [dateParts_eq hsince] at h
  obtain ⟨utc, _, h⟩ := Option.bind_eq_some_iff.mp h
  obtain ⟨reset, _, h⟩ := Option.bind_eq_some_iff.mp h
  cases h
  rfl

/-- **The two Beijing days agree.** -/
theorem beijing_days_agree [TimeZones] {at_ : Nat} (hsince : since1992 ≤ at_)
    (hlast : at_ < lastMonth) : DaysAgree at_ := by
  have hcovers := (dayWindow_covers_day at_ at_).mpr rfl
  rw [UsageWindow.covers_iff] at hcovers
  have hlength : (dayWindow at_).stop - JsDate.msPerDay = (dayWindow at_).start := by
    rw [dayWindow_eq]
    push_cast
    ring
  refine ⟨_, _, _, _, _, shanghaiDailyWindow_eq hsince hlast, beijingUsageWindows_eq hlast, ?_,
    rfl, hlength, ?_, ?_⟩
  · rw [hlength]
    exact hcovers
  · intro other otherWindow hother hwindow
    rw [hlength, key_eq hother hwindow, ← UsageWindow.covers_iff, dayWindow_covers_day]
    constructor
    · intro hkey
      exact key_inj (String.ofList_injective hkey)
    · intro hday
      rw [hday]
  · have hmonth := JsDate.monthIndex_spec (beijingDay at_)
    have hstart := Nat.mul_le_mul_right JsDate.msPerDay hmonth.2.1
    have hend := Nat.mul_le_mul_right JsDate.msPerDay (Nat.succ_le_of_lt hmonth.2.2)
    rw [dayWindow_eq, monthWindow_eq]
    unfold beijingMonth
    constructor
    · exact sub_le_sub_right (by exact_mod_cast hstart) _
    · exact sub_le_sub_right (by exact_mod_cast hend) _

/-- Asia/Shanghai at eight hours throughout. -/
@[reducible] def eightHours : TimeZones := ⟨fun _ => BEIJING_OFFSET_MS, fun _ _ => rfl⟩

theorem beijing_days_agree_2026 :
    let _ := eightHours
    since1992 ≤ 1790000000000 ∧ 1790000000000 < lastMonth ∧ DaysAgree 1790000000000 := by
  let _ := eightHours
  exact ⟨by decide, by decide, beijing_days_agree (by decide) (by decide)⟩

/-- At the last `Date` the usage windows are invalid dates. -/
theorem last_day_invalid :
    ¬ ∀ [TimeZones] (at_ : Nat), since1992 ≤ at_ → at_ ≤ maxTime → DaysAgree at_ := by
  intro h
  let _ := eightHours
  obtain ⟨_, dayStart, dayEnd, monthStart, monthEnd, _, hwindows, _⟩ :=
    h 8640000000000000 (by decide) (by decide)
  have hinvalid : beijingUsageWindows 8640000000000000 = ⟨none, none, none, none⟩ := by decide
  rw [hinvalid] at hwindows
  cases hwindows

end OpenVac.Operations
