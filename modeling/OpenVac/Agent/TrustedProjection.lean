/-
  File:      OpenVac/Agent/TrustedProjection.lean
  Subject:   What a pump-down calculation must be before an answer may rest on it alone:
             server/agent/trusted-calculation-projection.ts.

  * `pumpdownCalculation` -- the shape of the result, every key of it and no other.
  * `consistencyIssues` -- `superRefine`: the formula is worked out again from the inputs, and
    the texts are the two that are allowed.
  * `buildTrustedPumpdownProjection` -- the identifier is worked out again as well; what is left
    is the outcome in at most 1024 bytes.
-/
import OpenVac.Agent.Calculators
import OpenVac.Lib.Utf8

namespace OpenVac.Agent

open JsString JsUrl JsArithmetic

/-! ## 1. The texts that are allowed -/

def MAX_PROJECTION_BYTES : ℕ := 1024

def PUMPDOWN_TOOL : Text := "estimate_pumpdown_time".toList

def PUMPDOWN_FORMULA : Text := "p(t)=peq+(p0-peq)exp(-St/V)".toList

def PUMPDOWN_VERSION : Text := "1.1.0".toList

def REACHABLE_ASSUMPTION : Text :=
  "容器充分混合；抽速与气载恒定；未计入泵启动、导流变化和材料解吸瞬态。".toList

def REACHABLE_WARNING : Text := "这是理想化估算，不能替代泵曲线和实测抽空曲线。".toList

def UNREACHABLE_ASSUMPTION : Text := "抽速与恒定气载在整个压力区间内保持不变。".toList

def UNREACHABLE_WARNING : Text := "目标压力不高于理论平衡压力，按该模型不可达。".toList

def PUMPDOWN_SOURCE : Text := "openvac.formula.pumpdown.constant-speed-load.v1".toList

/-- `/^calc_[0-9a-f]{20}$/u.test(id)`. -/
def isCalculationId (id : Text) : Bool :=
  id.take 5 == "calc_".toList && id.length == 25 && (id.drop 5).all isHexDigit

section Projection

variable {ν : Type} [JsArithmetic ν] [Sha256]

/-! ## 2. The shape -/

structure PumpdownInputs (ν : Type) where
  volumeM3 : ν
  speedM3S : ν
  initialPa : ν
  targetPa : ν
  gasLoadPaM3S : ν

structure PumpdownResult (ν : Type) where
  reachable : Bool
  equilibriumPressurePa : ν
  time : Option ν
  unit : TimeUnit

structure PumpdownCalculation (ν : Type) where
  id : Text
  tool : Text
  formulaId : Text
  formulaVersion : Text
  normalizedInputs : PumpdownInputs ν
  result : PumpdownResult ν
  assumptions : List Text
  warnings : List Text
  sourceIds : List Text

omit [JsArithmetic ν] [Sha256] in
/-- `fields[key]`. -/
def recorded (fields : List (Text × Scalar ν)) (key : String) : Option (Scalar ν) :=
  (fields.find? fun field => field.1 == key.toList).map (·.2)

omit [JsArithmetic ν] [Sha256] in
/-- A number under this key that the schema takes. -/
def numberAt (accepts : ν → Bool) (fields : List (Text × Scalar ν)) (key : String) : Option ν :=
  match recorded fields key with
  | some (.number x) => if accepts x then some x else none
  | _ => none

omit [JsArithmetic ν] [Sha256] in
/-- `.strict()`. -/
def noOtherKeys (keys : List String) (fields : List (Text × Scalar ν)) : Bool :=
  fields.all fun field => (keys.map String.toList).contains field.1

omit [Sha256] in
def pumpdownInputs (fields : List (Text × Scalar ν)) : Option (PumpdownInputs ν) := do
  let volumeM3 ← numberAt positive fields "volumeM3"
  let speedM3S ← numberAt positive fields "speedM3S"
  let initialPa ← numberAt positive fields "initialPa"
  let targetPa ← numberAt positive fields "targetPa"
  let gasLoadPaM3S ← numberAt nonNegative fields "gasLoadPaM3S"
  if noOtherKeys ["volumeM3", "speedM3S", "initialPa", "targetPa", "gasLoadPaM3S"] fields then
    some ⟨volumeM3, speedM3S, initialPa, targetPa, gasLoadPaM3S⟩
  else none

/-- `z.enum(["s", "min", "h"])`. -/
def timeUnit (text : Text) : Option TimeUnit :=
  [TimeUnit.s, .min, .h].find? fun unit => unit.text == text

omit [Sha256] in
def pumpdownResult (fields : List (Text × Scalar ν)) : Option (PumpdownResult ν) := do
  let reachable ←
    match recorded fields "reachable" with
    | some (.bool reachable) => some reachable
    | _ => none
  let equilibriumPressurePa ← numberAt nonNegative fields "equilibriumPressurePa"
  let time ←
    match recorded fields "time" with
    | some (.number time) => if positive time then some (some time) else none
    | some .null => some none
    | _ => none
  let unit ←
    match recorded fields "unit" with
    | some (.text unit) => timeUnit unit
    | _ => none
  if noOtherKeys ["reachable", "equilibriumPressurePa", "time", "unit"] fields then
    some ⟨reachable, equilibriumPressurePa, time, unit⟩
  else none

/-- `z.array(z.string().max(length)).max(8)`. -/
def shortTexts (length : ℕ) (texts : List Text) : Bool :=
  decide (texts.length ≤ 8) && texts.all fun text => decide (utf16Length text ≤ length)

omit [Sha256] in
/-- The schema without its `superRefine`. -/
def pumpdownCalculation (value : CalculationResult ν) : Option (PumpdownCalculation ν) :=
  if isCalculationId value.id && value.tool == PUMPDOWN_TOOL &&
      value.formulaId == PUMPDOWN_FORMULA && value.formulaVersion == PUMPDOWN_VERSION &&
      shortTexts 1000 value.assumptions && shortTexts 1000 value.warnings &&
      shortTexts 200 value.sourceIds then do
    let normalizedInputs ← pumpdownInputs value.normalizedInputs
    let result ← pumpdownResult value.result
    some
      ⟨value.id, value.tool, value.formulaId, value.formulaVersion, normalizedInputs, result,
        value.assumptions, value.warnings, value.sourceIds⟩
  else none

/-! ## 3. `superRefine` -/

omit [Sha256] in
/-- `Math.abs`. -/
def mathAbs (x : ν) : ν := if lt x (ofRat 0) then ofRat 0 - x else x

omit [Sha256] in
/-- Within 64 times `Number.EPSILON`, which is 2 to the power of -52. -/
def nearlyEqual (left right : ν) : Bool :=
  if !isFinite left || !isFinite right then false
  else if JsArithmetic.eq left right then true
  else
    le (mathAbs (left - right))
      ((ofRat (1 / 2 ^ 52) : ν) * ofRat 64 * mathMax (mathAbs left) (mathAbs right))

/-- `JSON.stringify(left) === JSON.stringify(right)` of two lists of texts. -/
def sameJson (left right : List Text) : Bool :=
  (Json.arr (left.map .str)).stringify == (Json.arr (right.map .str)).stringify

/-- An issue: its path and its message. -/
structure ProjectionIssue where
  path : List String
  message : String
  deriving DecidableEq, Repr

omit [Sha256] in
def outcomeIssues (value : PumpdownCalculation ν) (equilibrium : ν) : List ProjectionIssue :=
  let inputs := value.normalizedInputs
  if value.result.reachable then
    match value.result.time with
    | none => [⟨["result"], "reachable result is inconsistent"⟩]
    | some time =>
        if le inputs.targetPa equilibrium then
          [⟨["result"], "reachable result is inconsistent"⟩]
        else
          let seconds :=
            (inputs.volumeM3 / inputs.speedM3S) *
              log ((inputs.initialPa - equilibrium) / (inputs.targetPa - equilibrium))
          let expectedTime := seconds / timeDivisor value.result.unit
          if !isFinite expectedTime || !nearlyEqual expectedTime time then
            [⟨["result", "time"], "pumpdown time is inconsistent"⟩]
          else []
  else if value.result.time.isSome || lt equilibrium inputs.targetPa then
    [⟨["result"], "unreachable result is inconsistent"⟩]
  else []

omit [Sha256] in
def consistencyIssues (value : PumpdownCalculation ν) : List ProjectionIssue :=
  let inputs := value.normalizedInputs
  let equilibrium := inputs.gasLoadPaM3S / inputs.speedM3S
  if !isFinite equilibrium then
    [⟨["result", "equilibriumPressurePa"], "equilibrium pressure is not finite"⟩]
  else
    (if le inputs.initialPa inputs.targetPa then
      [⟨["normalizedInputs", "targetPa"], "target pressure must be below initial pressure"⟩]
     else []) ++
    (if !nearlyEqual equilibrium value.result.equilibriumPressurePa then
      [⟨["result", "equilibriumPressurePa"], "equilibrium pressure is inconsistent"⟩]
     else []) ++
    outcomeIssues value equilibrium ++
    (if !sameJson value.assumptions
        [if value.result.reachable then REACHABLE_ASSUMPTION else UNREACHABLE_ASSUMPTION] then
      [⟨["assumptions"], "pumpdown assumptions are not allowlisted"⟩]
     else []) ++
    (if !sameJson value.warnings
        [if value.result.reachable then REACHABLE_WARNING else UNREACHABLE_WARNING] then
      [⟨["warnings"], "pumpdown warnings are not allowlisted"⟩]
     else []) ++
    (if !sameJson value.sourceIds [PUMPDOWN_SOURCE] then
      [⟨["sourceIds"], "pumpdown sources are not allowlisted"⟩]
     else [])

/-! ## 4. The projection -/

inductive ProjectionData (ν : Type) where
  | reachable (estimatedTime : ν) (timeUnit : TimeUnit) (equilibriumPressurePa : ν)
  | unreachable (equilibriumPressurePa : ν)

structure TrustedPumpdownProjection (ν : Type) where
  calculationId : Text
  data : ProjectionData ν

omit [Sha256] in
def ProjectionData.json : ProjectionData ν → Json
  | .reachable estimatedTime timeUnit equilibriumPressurePa =>
      Json.record
        [("outcome", Json.text "reachable"), ("estimatedTime", jsonNumber estimatedTime),
         ("timeUnit", .str timeUnit.text),
         ("equilibriumPressurePa", jsonNumber equilibriumPressurePa)]
  | .unreachable equilibriumPressurePa =>
      Json.record
        [("outcome", Json.text "unreachable"),
         ("equilibriumPressurePa", jsonNumber equilibriumPressurePa)]

omit [Sha256] in
def TrustedPumpdownProjection.json (projection : TrustedPumpdownProjection ν) : Json :=
  Json.record
    [("schemaVersion", Json.text "openvac.trusted-calculation.v1"),
     ("kind", Json.text "pumpdown_time"), ("calculationId", .str projection.calculationId),
     ("data", projection.data.json)]

/-- The payload the identifier is made of, in the order of the schema. -/
def PumpdownCalculation.expectedId (calculation : PumpdownCalculation ν) : Text :=
  let inputs := calculation.normalizedInputs
  let result := calculation.result
  calculationId calculation.tool calculation.formulaId
    [("volumeM3".toList, .number inputs.volumeM3), ("speedM3S".toList, .number inputs.speedM3S),
     ("initialPa".toList, .number inputs.initialPa), ("targetPa".toList, .number inputs.targetPa),
     ("gasLoadPaM3S".toList, .number inputs.gasLoadPaM3S)]
    [("reachable".toList, .bool result.reachable),
     ("equilibriumPressurePa".toList, .number result.equilibriumPressurePa),
     ("time".toList, match result.time with | some time => .number time | none => .null),
     ("unit".toList, .text result.unit.text)]

/-- What `buildTrustedPumpdownProjection` throws: the issues of the schema, none of them listed
    where the shape is wrong, or a text. -/
inductive ProjectionError where
  | schema (issues : List ProjectionIssue)
  | thrown (message : String)
  deriving DecidableEq, Repr

def buildTrustedPumpdownProjection (value : CalculationResult ν) :
    Except ProjectionError (TrustedPumpdownProjection ν) :=
  match pumpdownCalculation value with
  | none => .error (.schema [])
  | some calculation =>
      if consistencyIssues calculation ≠ [] then .error (.schema (consistencyIssues calculation))
      else if calculation.id ≠ calculation.expectedId then
        .error (.thrown "Calculation identifier does not match its payload.")
      else
        let result := calculation.result
        let projection : TrustedPumpdownProjection ν :=
          { calculationId := calculation.id
            data :=
              if result.reachable then
                -- A reachable result that was checked has a time.
                .reachable (result.time.getD nan) result.unit result.equilibriumPressurePa
              else .unreachable result.equilibriumPressurePa }
        if (Utf8.encode projection.json.stringify).length > MAX_PROJECTION_BYTES then
          .error (.thrown "Trusted calculation projection exceeds its byte limit.")
        else .ok projection

end Projection

end OpenVac.Agent
