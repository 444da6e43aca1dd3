/-
  File:      OpenVac/Operations/ModelRuntime.lean
  Subject:   The accounting of model invocations: server/operations/model-runtime.ts, with the
             budget half of server/api/admin.ts.

  * Transactions are functions to `Except RuntimeError (result × tables)`; the advisory lock of
    a model's budget serialises them. There is no other writer of `model_invocation` than
    start, complete and fail; nothing reconciles stale invocations.
  * An instant is its milliseconds since the epoch. Money and tokens are integers; the price
    arithmetic is the host's double arithmetic (`DoubleRounding`), and sums are compared as
    doubles (`JsNumber.nearest`), as the source does.
  * A caller settles an invocation once, through the handle `startModelInvocation` returned;
    the machine keeps the handles that are still open.

  Left out: latencies, metadata.
-/
import Mathlib.Algebra.Order.Floor.Defs
import Mathlib.Data.Rat.Floor
import OpenVac.Lib.JsDate
import OpenVac.Lib.JsNumber
import OpenVac.Quota.Repository

namespace OpenVac.Operations

open Rows Quota

/-- The double nearest to a rational: every arithmetic operation of the host ends with it. -/
class DoubleRounding where
  toDouble : ℚ → ℚ

def BEIJING_OFFSET_MS : Nat := 8 * 60 * 60 * 1000

def MICROS_PER_CENT : Nat := 10000

inductive OperationStatus where
  | queued
  | running
  | succeeded
  | failed
  | cancelled
  deriving DecidableEq, Repr

def BUDGET_ACCOUNTED_INVOCATION_STATUSES : List OperationStatus :=
  [.running, .succeeded, .failed, .cancelled]

structure ModelPricing where
  inputMicrosPerMillionTokens : ℚ
  outputMicrosPerMillionTokens : ℚ
  deriving DecidableEq

structure ModelBudgetPolicy where
  model : String
  dailyLimitCents : Nat
  monthlyLimitCents : Nat
  enabled : Bool
  deriving DecidableEq, Repr

structure InvocationHandle where
  id : Nat
  provider : String
  model : String
  startedAt : Nat
  reservedCostMicros : Nat
  estimatedInputTokens : Nat
  maximumOutputTokens : Nat
  pricing : ModelPricing
  deriving DecidableEq

/-- `pricing` is what `readModelPricing` reads from the environment. -/
structure StartInvocationInput where
  userId : String
  provider : String
  model : String
  messages : List String
  maximumOutputTokens : Nat
  pricing : ModelPricing

structure ModelUsage where
  inputTokens : Option Int
  outputTokens : Option Int
  deriving DecidableEq

structure CompleteInvocationInput where
  handle : InvocationHandle
  usage : Option ModelUsage
  providerRequestId : Option String

/-- The two statuses `failModelInvocation` writes. -/
inductive FailedStatus where
  | failed
  | cancelled
  deriving DecidableEq, Repr

structure FailInvocationInput where
  handle : InvocationHandle
  status : Option FailedStatus
  retainReservedEstimate : Option Bool

inductive RuntimeError where
  /-- `ModelRuntimeError`. -/
  | modelRuntime (code : String)
  | accountDeletionInProgress
  /-- A number the `bigint` column does not hold. -/
  | bigintOutOfRange
  | uniqueViolation
  deriving DecidableEq, Repr

/-! ## 1. Costs and windows -/

section Cost

variable [DoubleRounding]

open DoubleRounding in
/-- `calculateModelCostMicros`, one rounding for each operation of the host. -/
def calculateModelCostMicros (inputTokens outputTokens : Int) (pricing : ModelPricing) : Nat :=
  let inputCost :=
    toDouble (toDouble ((max 0 inputTokens : Int) * pricing.inputMicrosPerMillionTokens) / 1000000)
  let outputCost :=
    toDouble (toDouble ((max 0 outputTokens : Int) * pricing.outputMicrosPerMillionTokens) / 1000000)
  ⌈toDouble (inputCost + outputCost)⌉.toNat

end Cost

def estimateInputTokens (messages : List String) : Nat :=
  let characters := messages.foldl (fun total message => total + message.toList.length) 0
  max 1 (characters + messages.length * 12)

/-- A half-open interval of instants. -/
structure UsageWindow where
  start : Int
  stop : Int
  deriving DecidableEq, Repr

/-- `gte(startedAt, start) and lt(startedAt, stop)`. -/
def UsageWindow.covers (w : UsageWindow) (instant : Nat) : Bool :=
  decide (w.start ≤ instant) && decide ((instant : Int) < w.stop)

/-- `new Date(Date.UTC(year, month, day) - BEIJING_OFFSET_MS)`. -/
def fromBeijingParts (year month day : Nat) : Int :=
  (JsDate.makeDay year month day * JsDate.msPerDay : Nat) - (BEIJING_OFFSET_MS : Int)

/-- The Beijing day number of an instant. -/
def beijingDay (at_ : Nat) : Nat := (at_ + BEIJING_OFFSET_MS) / JsDate.msPerDay

/-- `beijingUsageWindows(at).dayStart` and `.dayEnd`. -/
def dayWindow (at_ : Nat) : UsageWindow :=
  let d := beijingDay at_
  let year := JsDate.yearFromDay d
  let month := JsDate.monthFromDay d
  let day := JsDate.dateFromDay d
  { start := fromBeijingParts year month day, stop := fromBeijingParts year month (day + 1) }

/-- `beijingUsageWindows(at).monthStart` and `.monthEnd`. -/
def monthWindow (at_ : Nat) : UsageWindow :=
  let d := beijingDay at_
  let year := JsDate.yearFromDay d
  let month := JsDate.monthFromDay d
  { start := fromBeijingParts year month 1, stop := fromBeijingParts year (month + 1) 1 }

/-! ## 2. The tables and the budget -/

structure InvocationRow where
  id : Nat
  userId : String
  provider : String
  model : String
  providerRequestId : Option String
  status : OperationStatus
  costMicros : Nat
  startedAt : Nat
  deriving DecidableEq, Repr

/-- `budgets` is the setting `model_budgets`. -/
structure RuntimeDb where
  users : List UserRow
  budgets : Option (List ModelBudgetPolicy)
  invocations : List InvocationRow
  nextId : Nat
  deriving DecidableEq

/-- The largest `bigint`. -/
def maxBigint : Nat := 9223372036854775807

def findModelBudget (raw : Option (List ModelBudgetPolicy)) (model : String) :
    Option ModelBudgetPolicy :=
  match raw with
  | none => none
  | some items => items.find? fun value =>
      value.model == model && JsNumber.isSafeInteger value.dailyLimitCents &&
        JsNumber.isSafeInteger value.monthlyLimitCents

/-- The invocations of a model that a window counts. -/
def InvocationRow.counted (model : String) (w : UsageWindow) (r : InvocationRow) : Bool :=
  r.model == model && BUDGET_ACCOUNTED_INVOCATION_STATUSES.contains r.status && w.covers r.startedAt

/-- `coalesce(sum(cost_micros), 0)` over a window. -/
def costIn (db : RuntimeDb) (model : String) (w : UsageWindow) : Int :=
  sumWhere (InvocationRow.counted model w) (fun r => (r.costMicros : Int)) db.invocations

/-- `sumReservedModelCost`: the sum as a JavaScript number. -/
def sumReservedModelCost (db : RuntimeDb) (model : String) (w : UsageWindow) : Nat :=
  JsNumber.nearest (costIn db model w).toNat

def assertUsablePricing (pricing : ModelPricing) : Except RuntimeError Unit :=
  if pricing.inputMicrosPerMillionTokens ≤ 0 ∨ pricing.outputMicrosPerMillionTokens ≤ 0 then
    .error (.modelRuntime "MODEL_PRICING_UNCONFIGURED")
  else .ok ()

def assertWithinModelBudget (policy : ModelBudgetPolicy)
    (daySpendMicros monthSpendMicros reservedCostMicros : Nat) : Except RuntimeError Unit :=
  if !policy.enabled then .error (.modelRuntime "MODEL_DISABLED")
  else if JsNumber.nearest (daySpendMicros + reservedCostMicros) >
      JsNumber.nearest (policy.dailyLimitCents * MICROS_PER_CENT) then
    .error (.modelRuntime "MODEL_DAILY_BUDGET_EXHAUSTED")
  else if JsNumber.nearest (monthSpendMicros + reservedCostMicros) >
      JsNumber.nearest (policy.monthlyLimitCents * MICROS_PER_CENT) then
    .error (.modelRuntime "MODEL_MONTHLY_BUDGET_EXHAUSTED")
  else .ok ()

def assertAccountWritable (db : RuntimeDb) (userId : String) : Except RuntimeError Unit :=
  match db.users.find? fun u => u.id == userId with
  | none => .error .accountDeletionInProgress
  | some account =>
      if account.deletionRequestedAt.isSome then .error .accountDeletionInProgress else .ok ()

/-- The checks a model's budget makes before an invocation is admitted. -/
def assertAdmissible (db : RuntimeDb) (now : Nat) (model : String) (pricing : ModelPricing)
    (reservedCostMicros : Nat) : Option ModelBudgetPolicy → Except RuntimeError Unit
  | none => .ok ()
  | some policy =>
      if !policy.enabled then .error (.modelRuntime "MODEL_DISABLED")
      else do
        assertUsablePricing pricing
        assertWithinModelBudget policy (sumReservedModelCost db model (dayWindow now))
          (sumReservedModelCost db model (monthWindow now)) reservedCostMicros

/-! ## 3. The transactions -/

section Cost

variable [DoubleRounding]

def startModelInvocation (db : RuntimeDb) (now : Nat) (input : StartInvocationInput) :
    Except RuntimeError (InvocationHandle × RuntimeDb) := do
  let estimatedInputTokens := estimateInputTokens input.messages
  let reservedCostMicros :=
    calculateModelCostMicros estimatedInputTokens input.maximumOutputTokens input.pricing
  assertAccountWritable db input.userId
  let policy := findModelBudget db.budgets input.model
  assertAdmissible db now input.model input.pricing reservedCostMicros policy
  if reservedCostMicros > maxBigint then .error .bigintOutOfRange
  else
    let row : InvocationRow :=
      { id := db.nextId, userId := input.userId, provider := input.provider, model := input.model
        providerRequestId := none, status := .running, costMicros := reservedCostMicros
        startedAt := now }
    .ok
      ({ id := db.nextId, provider := input.provider, model := input.model, startedAt := now
         reservedCostMicros, estimatedInputTokens
         maximumOutputTokens := input.maximumOutputTokens, pricing := input.pricing },
        { db with invocations := db.invocations ++ [row], nextId := db.nextId + 1 })

/-- The final cost of a completed invocation: from its usage when that is complete, else its
    reserved estimate. -/
def completionCost (input : CompleteInvocationInput) : Nat :=
  match input.usage with
  | some { inputTokens := some inputTokens, outputTokens := some outputTokens } =>
      calculateModelCostMicros inputTokens outputTokens input.handle.pricing
  | _ => input.handle.reservedCostMicros

/-- `UPDATE model_invocation SET f WHERE id = …`. -/
def RuntimeDb.updateInvocation (db : RuntimeDb) (id : Nat) (f : InvocationRow → InvocationRow) :
    RuntimeDb :=
  { db with invocations := updateWhere (fun r => r.id == id) f db.invocations }

/-- `completeModelInvocation`, with `model_invocation_provider_request_unique`. -/
def completeModelInvocation (db : RuntimeDb) (input : CompleteInvocationInput) :
    Except RuntimeError (Unit × RuntimeDb) :=
  let costMicros := completionCost input
  if costMicros > maxBigint then .error .bigintOutOfRange
  else if input.providerRequestId.isSome && db.invocations.any fun r =>
      r.id != input.handle.id && r.provider == input.handle.provider &&
        r.providerRequestId == input.providerRequestId then
    .error .uniqueViolation
  else
    .ok ((), db.updateInvocation input.handle.id fun r =>
      { r with
        providerRequestId := input.providerRequestId.or r.providerRequestId
        status := .succeeded, costMicros })

end Cost

/-- `failedInvocationAccounting(…).costMicros`. -/
def failedInvocationCost (handle : InvocationHandle) (retainReservedEstimate : Bool) : Nat :=
  if !retainReservedEstimate then 0 else handle.reservedCostMicros

def FailedStatus.operation : FailedStatus → OperationStatus
  | .failed => .failed
  | .cancelled => .cancelled

def failModelInvocation (db : RuntimeDb) (input : FailInvocationInput) :
    Except RuntimeError (Unit × RuntimeDb) :=
  .ok ((), db.updateInvocation input.handle.id fun r =>
    { r with
      status := (input.status.getD .failed).operation
      costMicros := failedInvocationCost input.handle (input.retainReservedEstimate.getD true) })

/-- `budgetsSchema`: what `handleUpdateBudgets` accepts, with trimmed model names. -/
def budgetsSchema (budgets : List ModelBudgetPolicy) : Option (List ModelBudgetPolicy) :=
  let parsed := budgets.map fun b => { b with model := String.ofList (JsString.trim b.model.toList) }
  if decide (parsed.length ≤ 100) &&
      (parsed.all fun b =>
        decide (1 ≤ JsString.utf16Length b.model.toList) &&
        decide (JsString.utf16Length b.model.toList ≤ 160) &&
        decide (b.dailyLimitCents ≤ 100000000) && decide (b.monthlyLimitCents ≤ 1000000000)) &&
      decide (parsed.map (·.model)).Nodup then
    some parsed
  else none

def updateBudgets (db : RuntimeDb) (budgets : List ModelBudgetPolicy) : RuntimeDb :=
  match budgetsSchema budgets with
  | none => db
  | some parsed => { db with budgets := some parsed }

/-! ## 4. The machine -/

/-- The record of one admission: the policy that was in force, if the model had one. -/
structure Admission where
  model : String
  startedAt : Nat
  policy : Option ModelBudgetPolicy
  deriving DecidableEq, Repr

/-- The tables, the handles that are still open, and the admissions in their order. -/
structure Runtime where
  db : RuntimeDb
  handles : List InvocationHandle
  admissions : List Admission
  deriving DecidableEq

inductive RuntimeOp where
  | updateBudgets (budgets : List ModelBudgetPolicy)
  | start (now : Nat) (input : StartInvocationInput)
  | complete (input : CompleteInvocationInput)
  | fail (input : FailInvocationInput)

/-- Settling an invocation closes its handle; a failed transaction leaves it open. -/
def Runtime.settle (s : Runtime) (handle : InvocationHandle)
    (tx : Except RuntimeError (Unit × RuntimeDb)) : Runtime :=
  match tx with
  | .ok ((), db) => { s with db, handles := s.handles.filter fun h => h.id != handle.id }
  | .error _ => s

section Machine

variable [DoubleRounding]

def step (s : Runtime) : RuntimeOp → Runtime
  | .updateBudgets budgets => { s with db := Operations.updateBudgets s.db budgets }
  | .start now input =>
      match startModelInvocation s.db now input with
      | .ok (handle, db) =>
          { db, handles := s.handles ++ [handle]
            admissions := s.admissions ++
              [{ model := input.model, startedAt := now
                 policy := findModelBudget s.db.budgets input.model }] }
      | .error _ => s
  | .complete input =>
      if s.handles.contains input.handle then
        s.settle input.handle (completeModelInvocation s.db input)
      else s
  | .fail input =>
      if s.handles.contains input.handle then
        s.settle input.handle (failModelInvocation s.db input)
      else s

/-- Any users, no budget and no invocation yet. -/
def initial (users : List UserRow) : Runtime where
  db := { users, budgets := none, invocations := [], nextId := 0 }
  handles := []
  admissions := []

/-- The final cost of a completion is within the estimate that was reserved for it. -/
def RuntimeOp.WithinEstimate : RuntimeOp → Prop
  | .complete input => completionCost input ≤ input.handle.reservedCostMicros
  | .updateBudgets _ | .start .. | .fail _ => True

end Machine

end OpenVac.Operations
