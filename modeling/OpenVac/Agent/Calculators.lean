/-
  File:      OpenVac/Agent/Calculators.lean
  Subject:   The vacuum calculators: server/agent/calculators.ts.

  * `JsArithmetic` -- the numbers a calculator works on, with what is not a number among them.
  * `property` -- `factors[key]` of a table written as an object: an own entry, a member every
    object inherits, or nothing.
  * `toBase`, `fromBase` -- a value to and from the SI unit; an unknown unit is thrown.
  * The eight calculators, each on what its schema let through, and `executeCalculator`.
-/
import Mathlib.Algebra.Field.Rat
import OpenVac.Lib.Digest
import OpenVac.Lib.JsUrl

namespace OpenVac.Agent

open JsString JsUrl

/-! ## 1. Numbers and units -/

/-- JavaScript's numbers, or an idealization of them. Comparisons with what is not a number
    fail. -/
class JsArithmetic (ν : Type) where
  ofRat : ℚ → ν
  nan : ν
  add : ν → ν → ν
  sub : ν → ν → ν
  mul : ν → ν → ν
  div : ν → ν → ν
  pow : ν → ℕ → ν
  sqrt : ν → ν
  log : ν → ν
  pi : ν
  lt : ν → ν → Bool
  eq : ν → ν → Bool
  isFinite : ν → Bool
  /-- `Number.prototype.toString`. -/
  text : ν → Text

instance {ν : Type} [JsArithmetic ν] : Add ν := ⟨JsArithmetic.add⟩
instance {ν : Type} [JsArithmetic ν] : Sub ν := ⟨JsArithmetic.sub⟩
instance {ν : Type} [JsArithmetic ν] : Mul ν := ⟨JsArithmetic.mul⟩
instance {ν : Type} [JsArithmetic ν] : Div ν := ⟨JsArithmetic.div⟩

/-- A table of units, `Record<string, number>`. -/
abbrev UnitTable := List (Text × ℚ)

def PRESSURE_TO_PA : UnitTable :=
  [("pa".toList, 1), ("kpa".toList, 1000), ("mpa".toList, 1000000), ("bar".toList, 100000),
   ("mbar".toList, 100), ("torr".toList, 133.32236842105263),
   ("mtorr".toList, 0.13332236842105263), ("micron".toList, 0.13332236842105263),
   ("atm".toList, 101325)]

def SPEED_TO_M3_S : UnitTable :=
  [("m3/s".toList, 1), ("m³/s".toList, 1), ("l/s".toList, 1e-3), ("m3/h".toList, 1 / 3600),
   ("m³/h".toList, 1 / 3600), ("cfm".toList, 0.00047194745)]

def THROUGHPUT_TO_PA_M3_S : UnitTable :=
  [("pa*m3/s".toList, 1), ("pa·m3/s".toList, 1), ("pa·m³/s".toList, 1), ("mbar*l/s".toList, 0.1),
   ("mbar·l/s".toList, 0.1), ("torr*l/s".toList, 0.13332236842105263),
   ("torr·l/s".toList, 0.13332236842105263)]

def LENGTH_TO_M : UnitTable :=
  [("m".toList, 1), ("cm".toList, 0.01), ("mm".toList, 0.001), ("um".toList, 1e-6),
   ("µm".toList, 1e-6)]

def VOLUME_TO_M3 : UnitTable :=
  [("m3".toList, 1), ("m³".toList, 1), ("l".toList, 0.001), ("liter".toList, 0.001),
   ("litre".toList, 0.001)]

def AREA_TO_M2 : UnitTable :=
  [("m2".toList, 1), ("m²".toList, 1), ("cm2".toList, 1e-4), ("cm²".toList, 1e-4),
   ("mm2".toList, 1e-6), ("mm²".toList, 1e-6)]

def OUTGASSING_TO_PA_M3_S_M2 : UnitTable :=
  [("pa*m3/s/m2".toList, 1), ("pa·m3/s/m2".toList, 1), ("pa·m³/s/m²".toList, 1),
   ("mbar*l/s/cm2".toList, 1000), ("mbar·l/s/cm²".toList, 1000),
   ("torr*l/s/cm2".toList, 1333.2236842105262), ("torr·l/s/cm²".toList, 1333.2236842105262)]

/-- The members of `Object.prototype`; each of them is truthy. -/
def OBJECT_PROTOTYPE : List Text :=
  ["constructor".toList, "__defineGetter__".toList, "__defineSetter__".toList,
   "hasOwnProperty".toList, "__lookupGetter__".toList, "__lookupSetter__".toList,
   "isPrototypeOf".toList, "propertyIsEnumerable".toList, "toString".toList, "valueOf".toList,
   "__proto__".toList, "toLocaleString".toList]

/-- What `factors[key]` finds. -/
inductive Property where
  | own (factor : ℚ)
  | inherited
  | absent
  deriving DecidableEq, Repr

def property (factors : UnitTable) (key : Text) : Property :=
  match factors.find? fun entry => entry.1 == key with
  | some entry => .own entry.2
  | none => if OBJECT_PROTOTYPE.contains key then .inherited else .absent

/-- A quantity as the schemas take it. -/
structure Quantity (ν : Type) where
  value : ν
  unit : Text
  deriving DecidableEq, Repr

/-- What a calculation records: `number | string | boolean | null`. -/
inductive Scalar (ν : Type) where
  | number (x : ν)
  | text (t : Text)
  | bool (b : Bool)
  | null
  deriving DecidableEq, Repr

structure CalculationResult (ν : Type) where
  id : Text
  tool : Text
  formulaId : Text
  formulaVersion : Text
  normalizedInputs : List (Text × Scalar ν)
  result : List (Text × Scalar ν)
  assumptions : List Text
  warnings : List Text
  sourceIds : List Text
  deriving DecidableEq, Repr

inductive CalculationToolOutput (ν : Type) where
  | ok (calculation : CalculationResult ν)
  | failed (missingInputs warnings : List Text)
  deriving DecidableEq, Repr

inductive TimeUnit where
  | s
  | min
  | h
  deriving DecidableEq, Repr

def TimeUnit.text : TimeUnit → Text
  | .s => "s".toList
  | .min => "min".toList
  | .h => "h".toList

section Calculators

variable {ν : Type} [JsArithmetic ν] [CaseTables] [Sha256]

open JsArithmetic

omit [Sha256] [JsArithmetic ν] in
def normalizeUnit (unit : Text) : Text :=
  (CaseTables.toLowerCase (trim unit)).filter fun c => !isWhiteSpace c

/-- `factors[normalizeUnit(unit)]`, refused where it is falsy; a function or an object in place of
    the factor makes every product and quotient not a number. -/
def factorOf (unit : Text) (factors : UnitTable) (message : String) :
    Except Text (Option ℚ) :=
  match property factors (normalizeUnit unit) with
  | .own factor => if factor = 0 then .error (message.toList ++ unit) else .ok (some factor)
  | .inherited => .ok none
  | .absent => .error (message.toList ++ unit)

def toBase (value : ν) (unit : Text) (factors : UnitTable) : Except Text ν := do
  match ← factorOf unit factors "Unsupported unit: " with
  | some factor => .ok (value * ofRat factor)
  | none => .ok nan

def fromBase (value : ν) (unit : Text) (factors : UnitTable) : Except Text ν := do
  match ← factorOf unit factors "Unsupported unit: " with
  | some factor => .ok (value / ofRat factor)
  | none => .ok nan

/-- `quantity ? toBase(quantity.value, quantity.unit, factors) : 0`. -/
def toBaseOrZero (quantity : Option (Quantity ν)) (factors : UnitTable) : Except Text ν :=
  match quantity with
  | some quantity => toBase quantity.value quantity.unit factors
  | none => .ok (ofRat 0)

def timeDivisor : TimeUnit → ν
  | .s => ofRat 1
  | .min => ofRat 60
  | .h => ofRat 3600

/-- `a <= b`. -/
def le (a b : ν) : Bool := lt a b || eq a b

/-! ## 2. Results -/

/-- A number in JSON: null where it is not finite. -/
def jsonNumber (x : ν) : Json := if isFinite x then .num (JsArithmetic.text x) else .null

def Scalar.json : Scalar ν → Json
  | .number x => jsonNumber x
  | .text t => .str t
  | .bool b => .bool b
  | .null => .null

def jsonRecord (fields : List (Text × Scalar ν)) : Json :=
  .obj (fields.map fun field => (field.1, field.2.json))

/-- `calc_` and the head of the digest of what was calculated. -/
def calculationId (tool formulaId : Text) (normalizedInputs result : List (Text × Scalar ν)) :
    Text :=
  let digest := (Sha256.hex
    (Json.record
      [("tool", .str tool), ("formulaId", .str formulaId),
       ("normalizedInputs", jsonRecord normalizedInputs), ("result", jsonRecord result)]).stringify)
  "calc_".toList ++ digest.take 20

def success (tool formulaId formulaVersion : String)
    (normalizedInputs result : List (String × Scalar ν))
    (assumptions warnings sourceIds : List String) : CalculationToolOutput ν :=
  let inputs := normalizedInputs.map fun field => (field.1.toList, field.2)
  let outputs := result.map fun field => (field.1.toList, field.2)
  .ok
    { id := calculationId tool.toList formulaId.toList inputs outputs
      tool := tool.toList
      formulaId := formulaId.toList
      formulaVersion := formulaVersion.toList
      normalizedInputs := inputs
      result := outputs
      assumptions := assumptions.map String.toList
      warnings := warnings.map String.toList
      sourceIds := sourceIds.map String.toList }

/-! ## 3. The calculators -/

inductive UnitQuantity where
  | pressure
  | pumping_speed
  | throughput
  deriving DecidableEq, Repr

def UnitQuantity.text : UnitQuantity → Text
  | .pressure => "pressure".toList
  | .pumping_speed => "pumping_speed".toList
  | .throughput => "throughput".toList

def UnitQuantity.factors : UnitQuantity → UnitTable
  | .pressure => PRESSURE_TO_PA
  | .pumping_speed => SPEED_TO_M3_S
  | .throughput => THROUGHPUT_TO_PA_M3_S

structure ConvertInput (ν : Type) where
  quantity : UnitQuantity
  value : ν
  fromUnit : Text
  toUnit : Text

def convertVacuumUnits (input : ConvertInput ν) : Except Text (CalculationToolOutput ν) := do
  let factors := input.quantity.factors
  let base ← toBase input.value input.fromUnit factors
  let value ← fromBase base input.toUnit factors
  .ok
    (success "convert_vacuum_units" "unit-conversion" "1.0.0"
      [("quantity", .text input.quantity.text), ("value", .number input.value),
       ("fromUnit", .text input.fromUnit), ("toUnit", .text input.toUnit)]
      [("value", .number value), ("unit", .text input.toUnit)] [] [] [])

structure ThroughputInput (ν : Type) where
  pressure : Quantity ν
  pumpingSpeed : Quantity ν
  outputUnit : Text

def calculateThroughput (input : ThroughputInput ν) : Except Text (CalculationToolOutput ν) := do
  let pressurePa ← toBase input.pressure.value input.pressure.unit PRESSURE_TO_PA
  let speedM3S ← toBase input.pumpingSpeed.value input.pumpingSpeed.unit SPEED_TO_M3_S
  let throughput := pressurePa * speedM3S
  let value ← fromBase throughput input.outputUnit THROUGHPUT_TO_PA_M3_S
  .ok
    (success "calculate_throughput" "Q=pS" "1.0.0"
      [("pressurePa", .number pressurePa), ("speedM3S", .number speedM3S)]
      [("value", .number value), ("unit", .text input.outputUnit)]
      ["压力与抽速取同一工作点的稳态值。"] []
      ["openvac.formula.throughput.q-equals-p-times-s.v1"])

structure EffectiveSpeedInput (ν : Type) where
  pumpSpeed : Quantity ν
  conductance : Quantity ν
  outputUnit : Text

/-- `1 / (1 / a + 1 / b)`. -/
def inSeries (a b : ν) : ν :=
  (ofRat 1 : ν) / ((ofRat 1 : ν) / a + (ofRat 1 : ν) / b)

def calculateEffectivePumpingSpeed (input : EffectiveSpeedInput ν) :
    Except Text (CalculationToolOutput ν) := do
  let pumpSpeedM3S ← toBase input.pumpSpeed.value input.pumpSpeed.unit SPEED_TO_M3_S
  let conductanceM3S ← toBase input.conductance.value input.conductance.unit SPEED_TO_M3_S
  let effectiveM3S := inSeries pumpSpeedM3S conductanceM3S
  let value ← fromBase effectiveM3S input.outputUnit SPEED_TO_M3_S
  .ok
    (success "calculate_effective_pumping_speed" "1/Seff=1/Spump+1/C" "1.0.0"
      [("pumpSpeedM3S", .number pumpSpeedM3S), ("conductanceM3S", .number conductanceM3S)]
      [("value", .number value), ("unit", .text input.outputUnit)]
      ["泵与真空容器之间按单一等效导流元件处理。"] []
      ["openvac.formula.effective-pumping-speed.series.v1"])

structure PumpdownInput (ν : Type) where
  volume : Quantity ν
  pumpingSpeed : Quantity ν
  initialPressure : Quantity ν
  targetPressure : Quantity ν
  gasLoad : Option (Quantity ν)
  outputUnit : TimeUnit

def estimatePumpdownTime (input : PumpdownInput ν) : Except Text (CalculationToolOutput ν) := do
  let volumeM3 ← toBase input.volume.value input.volume.unit VOLUME_TO_M3
  let speedM3S ← toBase input.pumpingSpeed.value input.pumpingSpeed.unit SPEED_TO_M3_S
  let initialPa ← toBase input.initialPressure.value input.initialPressure.unit PRESSURE_TO_PA
  let targetPa ← toBase input.targetPressure.value input.targetPressure.unit PRESSURE_TO_PA
  let gasLoadPaM3S ← toBaseOrZero input.gasLoad THROUGHPUT_TO_PA_M3_S
  if le initialPa targetPa then
    .ok
      (.failed ["targetPressure 必须低于 initialPressure".toList] ["抽空模型不适用于升压过程。".toList])
  else
    let equilibriumPa := gasLoadPaM3S / speedM3S
    let normalizedInputs : List (String × Scalar ν) :=
      [("volumeM3", .number volumeM3), ("speedM3S", .number speedM3S),
       ("initialPa", .number initialPa), ("targetPa", .number targetPa),
       ("gasLoadPaM3S", .number gasLoadPaM3S)]
    if le targetPa equilibriumPa then
      .ok
        (success "estimate_pumpdown_time" "p(t)=peq+(p0-peq)exp(-St/V)" "1.1.0" normalizedInputs
          [("reachable", .bool false), ("equilibriumPressurePa", .number equilibriumPa),
           ("time", .null), ("unit", .text input.outputUnit.text)]
          ["抽速与恒定气载在整个压力区间内保持不变。"]
          ["目标压力不高于理论平衡压力，按该模型不可达。"]
          ["openvac.formula.pumpdown.constant-speed-load.v1"])
    else
      let seconds :=
        (volumeM3 / speedM3S) *
          log ((initialPa - equilibriumPa) / (targetPa - equilibriumPa))
      .ok
        (success "estimate_pumpdown_time" "p(t)=peq+(p0-peq)exp(-St/V)" "1.1.0" normalizedInputs
          [("reachable", .bool true), ("equilibriumPressurePa", .number equilibriumPa),
           ("time", .number (seconds / timeDivisor input.outputUnit)),
           ("unit", .text input.outputUnit.text)]
          ["容器充分混合；抽速与气载恒定；未计入泵启动、导流变化和材料解吸瞬态。"]
          ["这是理想化估算，不能替代泵曲线和实测抽空曲线。"]
          ["openvac.formula.pumpdown.constant-speed-load.v1"])

structure FlowRegimeInput (ν : Type) where
  meanFreePath : Quantity ν
  characteristicLength : Quantity ν

def classifyFlowRegime (input : FlowRegimeInput ν) : Except Text (CalculationToolOutput ν) := do
  let meanFreePathM ← toBase input.meanFreePath.value input.meanFreePath.unit LENGTH_TO_M
  let characteristicLengthM ←
    toBase input.characteristicLength.value input.characteristicLength.unit LENGTH_TO_M
  let knudsenNumber := meanFreePathM / characteristicLengthM
  let regime :=
    if lt knudsenNumber (ofRat 0.01) then "viscous"
    else if lt (ofRat 10) knudsenNumber then "molecular"
    else "transition"
  .ok
    (success "classify_flow_regime" "Kn=lambda/L" "1.0.0"
      [("meanFreePathM", .number meanFreePathM),
       ("characteristicLengthM", .number characteristicLengthM)]
      [("knudsenNumber", .number knudsenNumber), ("regime", .text regime.toList)]
      ["特征长度由用户按流道几何选择。"]
      (if regime = "transition" then ["过渡流不应套用单一纯粘滞流或纯分子流公式。"] else [])
      ["openvac.formula.knudsen-flow-regime.v1"])

inductive Geometry where
  | circular_orifice
  | straight_circular_tube
  deriving DecidableEq, Repr

def Geometry.text : Geometry → Text
  | .circular_orifice => "circular_orifice".toList
  | .straight_circular_tube => "straight_circular_tube".toList

inductive Regime where
  | molecular
  | viscous
  | transition
  deriving DecidableEq, Repr

def Regime.text : Regime → Text
  | .molecular => "molecular".toList
  | .viscous => "viscous".toList
  | .transition => "transition".toList

structure ConductanceInput (ν : Type) where
  geometry : Geometry
  diameter : Quantity ν
  length : Option (Quantity ν)
  regime : Regime
  meanPressure : Option (Quantity ν)
  dynamicViscosityPaS : Option ν
  gas : Text
  temperatureK : ν
  outputUnit : Text

def conductanceSuccess (input : ConductanceInput ν) (diameterM lowerLs upperLs : ν)
    (regime : Regime) : Except Text (CalculationToolOutput ν) := do
  let factor ← factorOf input.outputUnit SPEED_TO_M3_S "Unsupported conductance unit: "
  let perUnit (speedLs : ν) : ν :=
    match factor with
    | some factor => (speedLs * ofRat 1e-3) / ofRat factor
    | none => nan
  .ok
    (success "calculate_orifice_or_tube_conductance"
      (match regime with
        | .molecular =>
            if input.geometry = .circular_orifice then "C=11.6A (air, 293.15K)"
            else "C=12.1D^3/L (air, 293.15K)"
        | .viscous => "C=pi*d^4*pmean/(128*eta*L)"
        | .transition => "validated molecular/viscous bounds")
      "1.0.0"
      [("diameterM", .number diameterM), ("temperatureK", .number input.temperatureK),
       ("geometry", .text input.geometry.text), ("regime", .text regime.text)]
      (if regime = .transition then
        [("lower", .number (perUnit lowerLs)), ("upper", .number (perUnit upperLs)),
         ("unit", .text input.outputUnit), ("range", .bool true)]
      else
        [("value", .number (perUnit lowerLs)), ("unit", .text input.outputUnit),
         ("range", .bool false)])
      ["空气；直圆管；给定流态和温度在公式适用范围内。"]
      (if regime = .transition then
        ["过渡流仅返回纯流态公式形成的估算范围，不宣称单点精度。"] else [])
      ["openvac.formula.conductance.circular-air.v1"])

/-- `Math.min` and `Math.max` of two numbers. -/
def mathMin (a b : ν) : ν := if !eq a a || !eq b b then nan else if lt b a then b else a

def mathMax (a b : ν) : ν := if !eq a a || !eq b b then nan else if lt a b then b else a

/-- The molecular conductance in L/s; none for a tube without length. -/
def molecularConductance (input : ConductanceInput ν) (diameterCm : ν) :
    Except Text (Option ν) := do
  let areaCm2 := pi * pow (diameterCm / ofRat 2) 2
  let temperatureFactor := sqrt (input.temperatureK / ofRat 293.15)
  match input.geometry with
  | .circular_orifice => .ok (some (ofRat 11.6 * areaCm2 * temperatureFactor))
  | .straight_circular_tube =>
      match input.length with
      | none => .ok none
      | some length => do
          let lengthM ← toBase length.value length.unit LENGTH_TO_M
          .ok
            (some
              ((ofRat 12.1 * pow diameterCm 3) / (lengthM * ofRat 100) * temperatureFactor))

def calculateConductance (input : ConductanceInput ν) :
    Except Text (CalculationToolOutput ν) := do
  if CaseTables.toLowerCase input.gas ≠ "air".toList then
    .ok
      (.failed ["仅支持 air；其他气体需要经验证的气体修正参数".toList] ["未对未知气体伪造导流系数。".toList])
  else
    let diameterM ← toBase input.diameter.value input.diameter.unit LENGTH_TO_M
    match ← molecularConductance input (diameterM * ofRat 100) with
    | none => .ok (.failed ["length".toList] ["直圆管导流计算需要管长。".toList])
    | some molecularLs =>
        if input.regime = .molecular then
          conductanceSuccess input diameterM molecularLs molecularLs .molecular
        else if input.geometry = .circular_orifice then
          .ok
            (.failed ["粘滞流圆孔需要孔板厚度、压差和经验证的孔口流量模型".toList]
              ["当前版本只对分子流圆孔给出确定性导流值。".toList])
        else
          match input.length, input.meanPressure, input.dynamicViscosityPaS with
          | some length, some meanPressure, some dynamicViscosityPaS => do
              let lengthM ← toBase length.value length.unit LENGTH_TO_M
              let meanPressurePa ← toBase meanPressure.value meanPressure.unit PRESSURE_TO_PA
              let viscousM3S :=
                (pi * pow diameterM 4 * meanPressurePa) /
                  (ofRat 128 * dynamicViscosityPaS * lengthM)
              let viscousLs := viscousM3S * ofRat 1000
              if input.regime = .transition then
                conductanceSuccess input diameterM (mathMin molecularLs viscousLs)
                  (mathMax molecularLs viscousLs) .transition
              else conductanceSuccess input diameterM viscousLs viscousLs .viscous
          | length, meanPressure, dynamicViscosityPaS =>
              .ok
                (.failed
                  ((if length.isNone then ["length".toList] else []) ++
                    (if meanPressure.isNone then ["meanPressure".toList] else []) ++
                    (if dynamicViscosityPaS.isNone then ["dynamicViscosityPaS".toList] else []))
                  ["粘滞流和过渡流范围需要平均压力及动力粘度。".toList])

structure PumpBranch (ν : Type) where
  speed : Quantity ν
  conductance : Option (Quantity ν)

structure ParallelInput (ν : Type) where
  pumps : List (PumpBranch ν)
  outputUnit : Text

def branchSpeed (pump : PumpBranch ν) : Except Text ν := do
  let speed ← toBase pump.speed.value pump.speed.unit SPEED_TO_M3_S
  match pump.conductance with
  | none => .ok speed
  | some conductance => do
      let conductance ← toBase conductance.value conductance.unit SPEED_TO_M3_S
      .ok (inSeries speed conductance)

def combineParallelPumps (input : ParallelInput ν) : Except Text (CalculationToolOutput ν) := do
  let branchSpeedsM3S ← input.pumps.mapM branchSpeed
  let combined := branchSpeedsM3S.foldl (· + ·) (ofRat 0)
  let value ← fromBase combined input.outputUnit SPEED_TO_M3_S
  .ok
    (success "combine_parallel_pumps" "Stotal=sum(Seffective,i)" "1.0.0"
      [("branchCount", .number (ofRat branchSpeedsM3S.length))]
      [("value", .number value), ("unit", .text input.outputUnit)]
      ["各并联支路工作压力相同，且泵曲线在该工作点允许相加。"]
      ["不适用于缺少制造商曲线的串联泵简化。"]
      ["openvac.formula.parallel-pumps.sum.v1"])

structure GasLoadInput (ν : Type) where
  leakRate : Option (Quantity ν)
  outgassingRate : Option (Quantity ν)
  surfaceArea : Option (Quantity ν)
  outputUnit : Text

/-- The load of the surface, once there is an area for it. -/
def outgassingLoad (input : GasLoadInput ν) : Except Text ν :=
  match input.outgassingRate, input.surfaceArea with
  | some rate, some area => do
      let perArea ← toBase rate.value rate.unit OUTGASSING_TO_PA_M3_S_M2
      let areaM2 ← toBase area.value area.unit AREA_TO_M2
      .ok (perArea * areaM2)
  | _, _ => .ok (ofRat 0)

def estimateLeakOrOutgassingLoad (input : GasLoadInput ν) :
    Except Text (CalculationToolOutput ν) := do
  if input.leakRate.isNone && input.outgassingRate.isNone then
    .ok (.failed ["leakRate 或 outgassingRate".toList] [])
  else if input.outgassingRate.isSome && input.surfaceArea.isNone then
    .ok (.failed ["surfaceArea".toList] ["材料放气负载需要暴露表面积。".toList])
  else
    let leak ← toBaseOrZero input.leakRate THROUGHPUT_TO_PA_M3_S
    let outgassing ← outgassingLoad input
    let value ← fromBase (leak + outgassing) input.outputUnit THROUGHPUT_TO_PA_M3_S
    .ok
      (success "estimate_leak_or_outgassing_load" "Qtotal=Qleak+qoutgassing*A" "1.0.0"
        [("leakPaM3S", .number leak), ("outgassingPaM3S", .number outgassing)]
        [("value", .number value), ("unit", .text input.outputUnit)]
        ["漏率与单位面积放气率在所述时间和温度下恒定。"]
        ["不能据此自动给出故障定论或最终工程批准。"]
        ["openvac.formula.gas-load.sum.v1"])

/-! ## 4. `executeCalculator` -/

/-- A call with the arguments of its schema, defaults filled in. -/
inductive CalculatorCall (ν : Type) where
  | convert_vacuum_units (input : ConvertInput ν)
  | calculate_throughput (input : ThroughputInput ν)
  | calculate_effective_pumping_speed (input : EffectiveSpeedInput ν)
  | estimate_pumpdown_time (input : PumpdownInput ν)
  | classify_flow_regime (input : FlowRegimeInput ν)
  | calculate_orifice_or_tube_conductance (input : ConductanceInput ν)
  | combine_parallel_pumps (input : ParallelInput ν)
  | estimate_leak_or_outgassing_load (input : GasLoadInput ν)

omit [CaseTables] [Sha256] in
/-- `z.number().finite().positive()`. -/
def positive (x : ν) : Bool := isFinite x && lt (ofRat 0) x

omit [CaseTables] [Sha256] in
def nonNegative (x : ν) : Bool := isFinite x && le (ofRat 0) x

omit [CaseTables] [Sha256] in
def positiveQuantity (quantity : Quantity ν) : Bool :=
  positive quantity.value && !quantity.unit.isEmpty

omit [CaseTables] [Sha256] in
def nonNegativeQuantity (quantity : Quantity ν) : Bool :=
  nonNegative quantity.value && !quantity.unit.isEmpty

omit [CaseTables] [Sha256] in
/-- `calculatorSchemas[name]` on arguments of the right shape. -/
def schemaAccepts : CalculatorCall ν → Bool
  | .convert_vacuum_units input =>
      isFinite input.value && !input.fromUnit.isEmpty && !input.toUnit.isEmpty
  | .calculate_throughput input =>
      positiveQuantity input.pressure && positiveQuantity input.pumpingSpeed
  | .calculate_effective_pumping_speed input =>
      positiveQuantity input.pumpSpeed && positiveQuantity input.conductance
  | .estimate_pumpdown_time input =>
      positiveQuantity input.volume && positiveQuantity input.pumpingSpeed &&
        positiveQuantity input.initialPressure && positiveQuantity input.targetPressure &&
        input.gasLoad.all nonNegativeQuantity
  | .classify_flow_regime input =>
      positiveQuantity input.meanFreePath && positiveQuantity input.characteristicLength
  | .calculate_orifice_or_tube_conductance input =>
      positiveQuantity input.diameter && input.length.all positiveQuantity &&
        input.meanPressure.all positiveQuantity && input.dynamicViscosityPaS.all positive &&
        positive input.temperatureK
  | .combine_parallel_pumps input =>
      !input.pumps.isEmpty && decide (input.pumps.length ≤ 32) &&
        input.pumps.all fun pump =>
          positiveQuantity pump.speed && pump.conductance.all positiveQuantity
  | .estimate_leak_or_outgassing_load input =>
      input.leakRate.all nonNegativeQuantity && input.outgassingRate.all nonNegativeQuantity &&
        input.surfaceArea.all positiveQuantity

def runCalculator : CalculatorCall ν → Except Text (CalculationToolOutput ν)
  | .convert_vacuum_units input => convertVacuumUnits input
  | .calculate_throughput input => calculateThroughput input
  | .calculate_effective_pumping_speed input => calculateEffectivePumpingSpeed input
  | .estimate_pumpdown_time input => estimatePumpdownTime input
  | .classify_flow_regime input => classifyFlowRegime input
  | .calculate_orifice_or_tube_conductance input => calculateConductance input
  | .combine_parallel_pumps input => combineParallelPumps input
  | .estimate_leak_or_outgassing_load input => estimateLeakOrOutgassingLoad input

/-- A thrown unit or parameter becomes what is missing. The issues of a schema are not listed. -/
def executeCalculator (call : CalculatorCall ν) : CalculationToolOutput ν :=
  if schemaAccepts call then
    match runCalculator call with
    | .ok output => output
    | .error message => .failed [message] ["单位或参数不在当前已验证公式覆盖范围内。".toList]
  else .failed [] ["计算参数未通过 OpenVac 本地 Schema 校验。".toList]

end Calculators

end OpenVac.Agent
