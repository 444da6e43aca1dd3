/-
  File:      OpenVac/Operations/DailyUsage.lean
  Subject:   The table `daily_usage`, which completions of invocations fill (the second statement
             of `completeModelInvocation`), and `getBudgetOverview` of server/api/store.ts, which
             reads it.

  * `insertDailyUsage` -- the upsert; a value the `integer` columns do not hold aborts it.
  * `Reporting`, `reportingStep` -- the machine of model-runtime.ts with `daily_usage` and the
    column `completed_at`, which only finished invocations have.
  * `getBudgetOverview` -- the windows are days and months of UTC, the rows carry the first
    instant of a day in Beijing.

  The two ratios are compared with 1 and 0.8 as exact fractions: the divisor is a limit of at
  most 10^9 cents, and the quotient of doubles is on the same side.
-/
import OpenVac.Operations.ModelRuntime

namespace OpenVac.Operations

open Rows Quota

/-! ## 1. The table -/

/-- The columns of `daily_usage_date_provider_model_unique`. -/
structure UsageKey where
  date : Int
  provider : String
  model : String
  deriving DecidableEq, Repr

structure DailyUsageRow where
  date : Int
  provider : String
  model : String
  requestCount : Int
  inputTokens : Int
  outputTokens : Int
  costCents : Int
  updatedAt : Nat
  deriving DecidableEq, Repr

def DailyUsageRow.key (u : DailyUsageRow) : UsageKey := ⟨u.date, u.provider, u.model⟩

/-- The `integer` columns hold the row. -/
def DailyUsageRow.fits (u : DailyUsageRow) : Bool :=
  isInt4 u.requestCount && isInt4 u.inputTokens && isInt4 u.outputTokens && isInt4 u.costCents

/-- `ON CONFLICT DO UPDATE`: the counters add up. -/
def DailyUsageRow.add (u new : DailyUsageRow) : DailyUsageRow :=
  { u with
    requestCount := u.requestCount + new.requestCount
    inputTokens := u.inputTokens + new.inputTokens
    outputTokens := u.outputTokens + new.outputTokens
    costCents := u.costCents + new.costCents
    updatedAt := new.updatedAt }

inductive ReportingError where
  | runtime (error : RuntimeError)
  /-- A number an `integer` column does not hold. -/
  | integerOutOfRange
  deriving DecidableEq, Repr

def insertDailyUsage (rows : List DailyUsageRow) (new : DailyUsageRow) :
    Except ReportingError (List DailyUsageRow) :=
  if !new.fits then .error .integerOutOfRange
  else
    match rows.find? fun u => u.key == new.key with
    | none => .ok (rows ++ [new])
    | some old =>
        if !(old.add new).fits then .error .integerOutOfRange
        else .ok (updateWhere (fun u => u.key == old.key) (fun u => u.add new) rows)

/-- `Math.ceil(costMicros / MICROS_PER_CENT)`. -/
def ceilCents (costMicros : Nat) : Nat := (costMicros + (MICROS_PER_CENT - 1)) / MICROS_PER_CENT

/-! ## 2. The machine -/

/-- The accounting with the usage table; `completedAt` is the column of the invocations. -/
structure Reporting where
  runtime : Runtime
  completedAt : Nat → Option Nat
  dailyUsage : List DailyUsageRow

inductive ReportingOp where
  | updateBudgets (budgets : List ModelBudgetPolicy)
  | start (now : Nat) (input : StartInvocationInput)
  | complete (input : CompleteInvocationInput) (completedAt : Nat)
  | fail (input : FailInvocationInput) (completedAt : Nat)

section Machine

variable [DoubleRounding]

/-- The row a completion proposes. -/
def usageOf (input : CompleteInvocationInput) (completedAt : Nat) : DailyUsageRow where
  date := (dayWindow completedAt).start
  provider := input.handle.provider
  model := input.handle.model
  requestCount := 1
  inputTokens := (input.usage.bind (·.inputTokens)).getD 0
  outputTokens := (input.usage.bind (·.outputTokens)).getD 0
  costCents := ceilCents (completionCost input)
  updatedAt := completedAt

/-- The whole transaction of `completeModelInvocation`. -/
def completeAndReport (s : Reporting) (input : CompleteInvocationInput) (completedAt : Nat) :
    Except ReportingError (Unit × Reporting) := do
  let (_, db) ← (completeModelInvocation s.runtime.db input).mapError .runtime
  let dailyUsage ← insertDailyUsage s.dailyUsage (usageOf input completedAt)
  .ok ((),
    { runtime := s.runtime.settle input.handle (.ok ((), db))
      completedAt := Function.update s.completedAt input.handle.id (some completedAt)
      dailyUsage })

/-- As `failModelInvocation` writes it; `daily_usage` has no part in it. -/
def failAndReport (s : Reporting) (input : FailInvocationInput) (completedAt : Nat) : Reporting :=
  { s with
    runtime := s.runtime.settle input.handle (failModelInvocation s.runtime.db input)
    completedAt := Function.update s.completedAt input.handle.id (some completedAt) }

def reportingStep (s : Reporting) : ReportingOp → Reporting
  | .updateBudgets budgets => { s with runtime := step s.runtime (.updateBudgets budgets) }
  | .start now input => { s with runtime := step s.runtime (.start now input) }
  | .complete input completedAt =>
      if s.runtime.handles.contains input.handle then
        Machine.commit s (completeAndReport s input completedAt)
      else s
  | .fail input completedAt =>
      if s.runtime.handles.contains input.handle then failAndReport s input completedAt else s

def initialReporting (users : List UserRow) : Reporting where
  runtime := initial users
  completedAt := fun _ => none
  dailyUsage := []

end Machine

/-! ## 3. The overview -/

inductive CircuitStatus where
  | disabled
  | tripped
  | warning
  | ok
  deriving DecidableEq, Repr

/-- `{ ...budget, ...used, projectedMonthlyCents, circuitStatus }`. -/
structure BudgetOverview where
  budget : ModelBudgetPolicy
  dailyUsedCents : Nat
  monthlyUsedCents : Nat
  projectedMonthlyCents : Int
  circuitStatus : CircuitStatus
  deriving DecidableEq, Repr

/-- The day number of an instant in UTC. -/
def utcDay (at_ : Nat) : Nat := at_ / JsDate.msPerDay

/-- `setUTCHours(0, 0, 0, 0)`. -/
def utcDayStart (now : Nat) : Nat := utcDay now * JsDate.msPerDay

/-- `new Date(Date.UTC(now.getUTCFullYear(), now.getUTCMonth(), 1))`. -/
def utcMonthStart (now : Nat) : Nat :=
  let d := utcDay now
  JsDate.makeDay (JsDate.yearFromDay d) (JsDate.monthFromDay d) 1 * JsDate.msPerDay

/-- The date of the day before the next month's first. -/
def daysInMonth (now : Nat) : Nat :=
  let d := utcDay now
  JsDate.dateFromDay (JsDate.makeDay (JsDate.yearFromDay d) (JsDate.monthFromDay d + 1) 1 - 1)

/-- `coalesce(sum(cost_cents), 0)` over the model's rows from both instants on, as a JavaScript
    number; a model without rows has no group, and nothing used. -/
def usedCents (rows : List DailyUsageRow) (model : String) (monthStart dayStart : Nat) : Nat :=
  JsNumber.nearest
    (sumWhere
      (fun u => u.model == model &&
        (decide ((monthStart : Int) ≤ u.date) && decide ((dayStart : Int) ≤ u.date)))
      (·.costCents) rows).toNat

/-- `limit > 0 ? used / limit : 0`. -/
def usedRatio (used limit : Nat) : ℚ := if 0 < limit then (used : ℚ) / limit else 0

def circuitStatus (budget : ModelBudgetPolicy) (dailyUsed monthlyUsed : Nat) : CircuitStatus :=
  let dailyRatio := usedRatio dailyUsed budget.dailyLimitCents
  let monthlyRatio := usedRatio monthlyUsed budget.monthlyLimitCents
  if !budget.enabled then .disabled
  else if dailyRatio ≥ 1 ∨ monthlyRatio ≥ 1 then .tripped
  else if dailyRatio ≥ 4 / 5 ∨ monthlyRatio ≥ 4 / 5 then .warning
  else .ok

section Overview

variable [DoubleRounding]

open DoubleRounding in
/-- `Math.round((monthlyUsedCents / daysElapsed) * daysInMonth)`. -/
def projectedMonthly (now monthlyUsed : Nat) : Int :=
  let daysElapsed := max 1 (JsDate.dateFromDay (utcDay now))
  ⌊toDouble (toDouble ((monthlyUsed : ℚ) / daysElapsed) * daysInMonth now) + 1 / 2⌋

def overviewOf (rows : List DailyUsageRow) (now : Nat) (budget : ModelBudgetPolicy) :
    BudgetOverview :=
  let dailyUsedCents := usedCents rows budget.model (utcMonthStart now) (utcDayStart now)
  let monthlyUsedCents := usedCents rows budget.model (utcMonthStart now) (utcMonthStart now)
  { budget, dailyUsedCents, monthlyUsedCents
    projectedMonthlyCents := projectedMonthly now monthlyUsedCents
    circuitStatus := circuitStatus budget dailyUsedCents monthlyUsedCents }

def getBudgetOverview (s : Reporting) (now : Nat) : List BudgetOverview :=
  (s.runtime.db.budgets.getD []).map (overviewOf s.dailyUsage now)

end Overview

end OpenVac.Operations
