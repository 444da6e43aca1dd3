/-
  File:      OpenVac/Agent/PumpdownAgreement.lean
  Subject:   The pump-down calculator and the projection that checks it, on exact reals.

  * `ExactFunctions` -- a logarithm that increases and is 0 at 1, and the spelling of a number;
    the reals with one value for what is not a number are then a `JsArithmetic`.
  * `Pumpdown` -- a pump-down in SI units; `time_pos`, `time_le_of_target_le`.
  * `estimatePumpdownTime_report` -- the calculator reports the solution of that pump-down.
  * `build_report` -- the projection accepts the report.
  * `pumpdown_projection_agrees` -- both, for whatever the calculator accepts;
    `inputs_not_projected`.
-/
import Mathlib.Analysis.SpecialFunctions.Log.Basic
import Mathlib.Analysis.SpecialFunctions.Trigonometric.Basic
import OpenVac.Agent.TrustedProjection
import OpenVac.Agent.UnitFactors
import OpenVac.Lib.JsonBytes

namespace OpenVac.Agent

open JsString JsUrl JsArithmetic

/-! ## 1. Exact reals -/

/-- What is left open about the reals: the logarithm, and how a number is spelled; no spelling
    is longer than that of a binary64. -/
class ExactFunctions where
  ln : ℝ → ℝ
  ln_one : ln 1 = 0
  ln_increasing : StrictMonoOn ln (Set.Ioi 0)
  spelling : ℝ → Text
  spelling_short : ∀ x, (Utf8.encode (spelling x)).length ≤ 25

/-- The reals, and `none` for what is not a number. -/
noncomputable instance exactArithmetic [ExactFunctions] : JsArithmetic (Option ℝ) where
  ofRat q := some q
  nan := none
  add a b := Option.map₂ (· + ·) a b
  sub a b := Option.map₂ (· - ·) a b
  mul a b := Option.map₂ (· * ·) a b
  div a b := b.bind fun d => if d = 0 then none else a.map (· / d)
  pow a n := a.map (· ^ n)
  sqrt a := a.bind fun x => if x < 0 then none else some (Real.sqrt x)
  log a := a.bind fun x => if 0 < x then some (ExactFunctions.ln x) else none
  pi := some Real.pi
  lt a b := match a, b with
    | some x, some y => decide (x < y)
    | _, _ => false
  eq a b := match a, b with
    | some x, some y => decide (x = y)
    | _, _ => false
  isFinite a := a.isSome
  text a := match a with
    | some x => ExactFunctions.spelling x
    | none => "NaN".toList

section Exact

variable [ExactFunctions]

@[simp] theorem exact_ofRat (q : ℚ) : (ofRat q : Option ℝ) = some (q : ℝ) := rfl

@[simp] theorem exact_mul (x y : ℝ) : (some x * some y : Option ℝ) = some (x * y) := rfl

@[simp] theorem exact_sub (x y : ℝ) : (some x - some y : Option ℝ) = some (x - y) := rfl

theorem exact_div {x y : ℝ} (h : y ≠ 0) : (some x / some y : Option ℝ) = some (x / y) :=
  if_neg h

theorem exact_log {x : ℝ} (h : 0 < x) : log (some x) = some (ExactFunctions.ln x) := if_pos h

@[simp] theorem exact_lt (x y : ℝ) : lt (some x) (some y) = true ↔ x < y := by
  show decide (x < y) = true ↔ x < y
  exact decide_eq_true_iff

@[simp] theorem exact_eq (x y : ℝ) : JsArithmetic.eq (some x) (some y) = true ↔ x = y := by
  show decide (x = y) = true ↔ x = y
  exact decide_eq_true_iff

@[simp] theorem exact_le (x y : ℝ) : le (some x) (some y) = true ↔ x ≤ y := by
  unfold le
  rw [Bool.or_eq_true, exact_lt, exact_eq, le_iff_lt_or_eq]

@[simp] theorem exact_isFinite (x : ℝ) : isFinite (some x) = true := rfl

theorem exact_positive {a : Option ℝ} : positive a = true ↔ ∃ x, a = some x ∧ 0 < x := by
  unfold positive
  cases a with
  | none =>
    constructor
    · intro h
      cases h
    · rintro ⟨_, h, -⟩
      cases h
  | some x => simp

theorem exact_nonNegative {a : Option ℝ} : nonNegative a = true ↔ ∃ x, a = some x ∧ 0 ≤ x := by
  unfold nonNegative
  cases a with
  | none =>
    constructor
    · intro h
      cases h
    · rintro ⟨_, h, -⟩
      cases h
  | some x => simp

/-! ## 2. The pump-down -/

/-- A pump-down at constant speed and load, in SI units. -/
structure Pumpdown where
  volume : ℝ
  speed : ℝ
  initial : ℝ
  target : ℝ
  load : ℝ
  volume_pos : 0 < volume
  speed_pos : 0 < speed
  target_pos : 0 < target
  load_nonneg : 0 ≤ load
  target_lt : target < initial

namespace Pumpdown

/-- Where the load and the speed balance. -/
noncomputable def equilibrium (p : Pumpdown) : ℝ := p.load / p.speed

/-- When `p(t) = peq + (p0 - peq) exp(-S t / V)` is the target. -/
noncomputable def time (p : Pumpdown) : ℝ :=
  p.volume / p.speed *
    ExactFunctions.ln ((p.initial - p.equilibrium) / (p.target - p.equilibrium))

omit [ExactFunctions] in
theorem equilibrium_nonneg (p : Pumpdown) : 0 ≤ p.equilibrium :=
  div_nonneg p.load_nonneg p.speed_pos.le

omit [ExactFunctions] in
theorem initial_pos (p : Pumpdown) : 0 < p.initial := p.target_pos.trans p.target_lt

omit [ExactFunctions] in
theorem one_lt_ratio (p : Pumpdown) (h : p.equilibrium < p.target) :
    1 < (p.initial - p.equilibrium) / (p.target - p.equilibrium) := by
  have hd : 0 < p.target - p.equilibrium := sub_pos.mpr h
  rw [one_lt_div hd]
  have := p.target_lt
  linarith

theorem time_pos (p : Pumpdown) (h : p.equilibrium < p.target) : 0 < p.time := by
  have hratio := p.one_lt_ratio h
  have hln : ExactFunctions.ln 1 <
      ExactFunctions.ln ((p.initial - p.equilibrium) / (p.target - p.equilibrium)) :=
    ExactFunctions.ln_increasing (Set.mem_Ioi.mpr one_pos)
      (Set.mem_Ioi.mpr (one_pos.trans hratio)) hratio
  rw [ExactFunctions.ln_one] at hln
  exact mul_pos (div_pos p.volume_pos p.speed_pos) hln

/-- **A higher target is reached no later.** -/
theorem time_le_of_target_le {p q : Pumpdown} (hvolume : q.volume = p.volume)
    (hspeed : q.speed = p.speed) (hinitial : q.initial = p.initial) (hload : q.load = p.load)
    (hreach : p.equilibrium < p.target) (h : p.target ≤ q.target) : q.time ≤ p.time := by
  have hequilibrium : q.equilibrium = p.equilibrium := by
    unfold equilibrium
    rw [hload, hspeed]
  have hd : 0 < p.target - p.equilibrium := sub_pos.mpr hreach
  have hinit : 0 < p.initial - p.equilibrium := sub_pos.mpr (hreach.trans p.target_lt)
  have hd' : 0 < q.target - p.equilibrium := hd.trans_le (sub_le_sub_right h _)
  have hratio : (p.initial - p.equilibrium) / (q.target - p.equilibrium) ≤
      (p.initial - p.equilibrium) / (p.target - p.equilibrium) :=
    div_le_div_of_nonneg_left hinit.le hd (sub_le_sub_right h _)
  have hln := ExactFunctions.ln_increasing.monotoneOn (Set.mem_Ioi.mpr (div_pos hinit hd'))
    (Set.mem_Ioi.mpr (div_pos hinit hd)) hratio
  unfold time
  rw [hequilibrium, hvolume, hspeed, hinitial]
  exact mul_le_mul_of_nonneg_left hln (div_pos p.volume_pos p.speed_pos).le

omit [ExactFunctions] in
/-- The seconds of a unit of time. -/
def secondsIn : TimeUnit → ℝ
  | .s => 1
  | .min => 60
  | .h => 3600

/-- The time in this unit; none where the target lies at the equilibrium or below. -/
noncomputable def outcome (p : Pumpdown) (unit : TimeUnit) : Option ℝ :=
  if p.target ≤ p.equilibrium then none else some (p.time / secondsIn unit)

end Pumpdown

/-! ## 3. The calculator -/

section Calculator

variable [CaseTables]

/-- A quantity in the unit of its table. -/
noncomputable def siValue (factors : UnitTable) (quantity : Quantity (Option ℝ)) : ℝ :=
  quantity.value.getD 0 * tableFactor factors quantity.unit

/-- The gas load; none is a load of 0. -/
noncomputable def siLoad (gasLoad : Option (Quantity (Option ℝ))) : ℝ :=
  match gasLoad with
  | some gasLoad => siValue THROUGHPUT_TO_PA_M3_S gasLoad
  | none => 0

/-- Every unit of the input is an entry of its table. -/
def PumpdownInput.UnitsListed (input : PumpdownInput (Option ℝ)) : Prop :=
  Listed VOLUME_TO_M3 input.volume.unit ∧ Listed SPEED_TO_M3_S input.pumpingSpeed.unit ∧
    Listed PRESSURE_TO_PA input.initialPressure.unit ∧
    Listed PRESSURE_TO_PA input.targetPressure.unit ∧
    ∀ gasLoad ∈ input.gasLoad, Listed THROUGHPUT_TO_PA_M3_S gasLoad.unit

/-- The input is this pump-down. -/
structure PumpdownInput.Describes (input : PumpdownInput (Option ℝ)) (p : Pumpdown) : Prop where
  volume : siValue VOLUME_TO_M3 input.volume = p.volume
  speed : siValue SPEED_TO_M3_S input.pumpingSpeed = p.speed
  initial : siValue PRESSURE_TO_PA input.initialPressure = p.initial
  target : siValue PRESSURE_TO_PA input.targetPressure = p.target
  load : siLoad input.gasLoad = p.load

theorem toBase_positive {factors : UnitTable} (hfactors : PositiveTable factors)
    {quantity : Quantity (Option ℝ)} (hlisted : Listed factors quantity.unit)
    (h : positiveQuantity quantity = true) :
    toBase quantity.value quantity.unit factors = .ok (some (siValue factors quantity)) ∧
      0 < siValue factors quantity := by
  obtain ⟨x, hx, hpos⟩ := exact_positive.mp (Bool.and_eq_true_iff.mp h).1
  have hfactor : (0 : ℝ) < tableFactor factors quantity.unit :=
    Rat.cast_pos.mpr (tableFactor_pos hfactors hlisted)
  unfold siValue
  rw [toBase_listed hfactors hlisted, hx]
  exact ⟨rfl, mul_pos hpos hfactor⟩

theorem toBase_nonNegative {factors : UnitTable} (hfactors : PositiveTable factors)
    {quantity : Quantity (Option ℝ)} (hlisted : Listed factors quantity.unit)
    (h : nonNegativeQuantity quantity = true) :
    toBase quantity.value quantity.unit factors = .ok (some (siValue factors quantity)) ∧
      0 ≤ siValue factors quantity := by
  obtain ⟨x, hx, hpos⟩ := exact_nonNegative.mp (Bool.and_eq_true_iff.mp h).1
  have hfactor : (0 : ℝ) < tableFactor factors quantity.unit :=
    Rat.cast_pos.mpr (tableFactor_pos hfactors hlisted)
  unfold siValue
  rw [toBase_listed hfactors hlisted, hx]
  exact ⟨rfl, mul_nonneg hpos hfactor.le⟩

theorem toBaseOrZero_siLoad {gasLoad : Option (Quantity (Option ℝ))}
    (hlisted : ∀ quantity ∈ gasLoad, Listed THROUGHPUT_TO_PA_M3_S quantity.unit)
    (h : gasLoad.all nonNegativeQuantity = true) :
    toBaseOrZero gasLoad THROUGHPUT_TO_PA_M3_S = .ok (some (siLoad gasLoad)) ∧
      0 ≤ siLoad gasLoad := by
  cases gasLoad with
  | none =>
    refine ⟨?_, le_refl _⟩
    show Except.ok (some ((0 : ℚ) : ℝ)) = Except.ok (some 0)
    rw [Rat.cast_zero]
  | some quantity =>
    exact toBase_nonNegative positive_THROUGHPUT_TO_PA_M3_S (hlisted quantity rfl) h

variable [Sha256]

/-- A time as it is recorded. -/
def timeScalar : Option ℝ → Scalar (Option ℝ)
  | some time => .number (some time)
  | none => .null

namespace Pumpdown

/-- The inputs as they are recorded. -/
def inputs (p : Pumpdown) : List (Text × Scalar (Option ℝ)) :=
  [("volumeM3".toList, .number (some p.volume)), ("speedM3S".toList, .number (some p.speed)),
   ("initialPa".toList, .number (some p.initial)), ("targetPa".toList, .number (some p.target)),
   ("gasLoadPaM3S".toList, .number (some p.load))]

/-- The outcome as it is recorded. -/
noncomputable def result (p : Pumpdown) (unit : TimeUnit) : List (Text × Scalar (Option ℝ)) :=
  [("reachable".toList, .bool (p.outcome unit).isSome),
   ("equilibriumPressurePa".toList, .number (some p.equilibrium)),
   ("time".toList, timeScalar (p.outcome unit)), ("unit".toList, .text unit.text)]

omit [CaseTables] in
/-- What the calculator records of a pump-down. -/
noncomputable def report (p : Pumpdown) (unit : TimeUnit) : CalculationResult (Option ℝ) where
  id := calculationId PUMPDOWN_TOOL PUMPDOWN_FORMULA p.inputs (p.result unit)
  tool := PUMPDOWN_TOOL
  formulaId := PUMPDOWN_FORMULA
  formulaVersion := PUMPDOWN_VERSION
  normalizedInputs := p.inputs
  result := p.result unit
  assumptions :=
    [if (p.outcome unit).isSome then REACHABLE_ASSUMPTION else UNREACHABLE_ASSUMPTION]
  warnings := [if (p.outcome unit).isSome then REACHABLE_WARNING else UNREACHABLE_WARNING]
  sourceIds := [PUMPDOWN_SOURCE]

end Pumpdown

omit [CaseTables] [Sha256] in
/-- The formula of both sides. -/
theorem exact_seconds {p : Pumpdown} (h : p.equilibrium < p.target) :
    (some p.volume / some p.speed : Option ℝ) *
      log ((some p.initial - some p.equilibrium) / (some p.target - some p.equilibrium)) =
      some p.time := by
  have hpos : 0 < p.target - p.equilibrium := sub_pos.mpr h
  have hratio := p.one_lt_ratio h
  rw [exact_sub, exact_sub, exact_div hpos.ne', exact_div p.speed_pos.ne',
    exact_log (one_pos.trans hratio), exact_mul]
  rfl

omit [ExactFunctions] [CaseTables] [Sha256] in
theorem secondsIn_pos (unit : TimeUnit) : 0 < Pumpdown.secondsIn unit := by
  cases unit <;> norm_num [Pumpdown.secondsIn]

omit [CaseTables] [Sha256] in
theorem timeDivisor_eq (unit : TimeUnit) :
    (timeDivisor unit : Option ℝ) = some (Pumpdown.secondsIn unit) := by
  cases unit
  · show some ((1 : ℚ) : ℝ) = some 1
    norm_num
  · show some ((60 : ℚ) : ℝ) = some 60
    norm_num
  · show some ((3600 : ℚ) : ℝ) = some 3600
    norm_num

omit [Sha256] in
/-- The five conversions, and what the schema says of their results. -/
theorem converted {input : PumpdownInput (Option ℝ)} (hunits : input.UnitsListed)
    (haccepts : schemaAccepts (.estimate_pumpdown_time input) = true) :
    (toBase input.volume.value input.volume.unit VOLUME_TO_M3 =
        .ok (some (siValue VOLUME_TO_M3 input.volume)) ∧ 0 < siValue VOLUME_TO_M3 input.volume) ∧
      (toBase input.pumpingSpeed.value input.pumpingSpeed.unit SPEED_TO_M3_S =
        .ok (some (siValue SPEED_TO_M3_S input.pumpingSpeed)) ∧
          0 < siValue SPEED_TO_M3_S input.pumpingSpeed) ∧
      (toBase input.initialPressure.value input.initialPressure.unit PRESSURE_TO_PA =
        .ok (some (siValue PRESSURE_TO_PA input.initialPressure)) ∧
          0 < siValue PRESSURE_TO_PA input.initialPressure) ∧
      (toBase input.targetPressure.value input.targetPressure.unit PRESSURE_TO_PA =
        .ok (some (siValue PRESSURE_TO_PA input.targetPressure)) ∧
          0 < siValue PRESSURE_TO_PA input.targetPressure) ∧
      toBaseOrZero input.gasLoad THROUGHPUT_TO_PA_M3_S = .ok (some (siLoad input.gasLoad)) ∧
        0 ≤ siLoad input.gasLoad := by
  obtain ⟨hvolume, hspeed, hinitial, htarget, hload⟩ := hunits
  simp only [schemaAccepts, Bool.and_eq_true] at haccepts
  obtain ⟨⟨⟨⟨avolume, aspeed⟩, ainitial⟩, atarget⟩, aload⟩ := haccepts
  exact ⟨toBase_positive positive_VOLUME_TO_M3 hvolume avolume,
    toBase_positive positive_SPEED_TO_M3_S hspeed aspeed,
    toBase_positive positive_PRESSURE_TO_PA hinitial ainitial,
    toBase_positive positive_PRESSURE_TO_PA htarget atarget, toBaseOrZero_siLoad hload aload⟩

/-- A target that is not below the start is refused. -/
theorem estimatePumpdownTime_rise {input : PumpdownInput (Option ℝ)} (hunits : input.UnitsListed)
    (haccepts : schemaAccepts (.estimate_pumpdown_time input) = true)
    (hrise : siValue PRESSURE_TO_PA input.initialPressure ≤
      siValue PRESSURE_TO_PA input.targetPressure) :
    estimatePumpdownTime input =
      .ok
        (.failed ["targetPressure 必须低于 initialPressure".toList]
          ["抽空模型不适用于升压过程。".toList]) := by
  obtain ⟨hvolume, hspeed, hinitial, htarget, hload⟩ := converted hunits haccepts
  unfold estimatePumpdownTime
  rw [hvolume.1, hspeed.1, hinitial.1, htarget.1, hload.1]
  dsimp only [bind, Except.bind]
  rw [if_pos ((exact_le _ _).mpr hrise)]

/-- **The calculator solves the pump-down it is given.** -/
theorem estimatePumpdownTime_report {input : PumpdownInput (Option ℝ)} (hunits : input.UnitsListed)
    (haccepts : schemaAccepts (.estimate_pumpdown_time input) = true) {p : Pumpdown}
    (hp : input.Describes p) :
    estimatePumpdownTime input = .ok (.ok (p.report input.outputUnit)) := by
  obtain ⟨hvolume, hspeed, hinitial, htarget, hload⟩ := converted hunits haccepts
  have hlt : ¬le (some p.initial) (some p.target) = true := by
    rw [exact_le]
    exact not_le.mpr p.target_lt
  have hequilibrium : (some p.load / some p.speed : Option ℝ) = some p.equilibrium :=
    exact_div p.speed_pos.ne'
  unfold estimatePumpdownTime
  rw [hvolume.1, hspeed.1, hinitial.1, htarget.1, hload.1, hp.volume, hp.speed, hp.initial,
    hp.target, hp.load]
  dsimp only [bind, Except.bind]
  rw [if_neg hlt, hequilibrium]
  by_cases hreach : p.target ≤ p.equilibrium
  · have houtcome : p.outcome input.outputUnit = none := if_pos hreach
    rw [if_pos ((exact_le _ _).mpr hreach)]
    have hno : ¬(none : Option ℝ).isSome = true := Bool.false_ne_true
    unfold Pumpdown.report Pumpdown.result
    rw [houtcome, if_neg hno, if_neg hno]
    rfl
  · have houtcome : p.outcome input.outputUnit =
        some (p.time / Pumpdown.secondsIn input.outputUnit) := if_neg hreach
    rw [if_neg (fun h => hreach ((exact_le _ _).mp h)), exact_seconds (not_le.mp hreach),
      timeDivisor_eq, exact_div (secondsIn_pos _).ne']
    have hyes (time : ℝ) : (some time).isSome = true := rfl
    unfold Pumpdown.report Pumpdown.result
    rw [houtcome, if_pos (hyes _), if_pos (hyes _)]
    rfl

theorem executeCalculator_ok {input : PumpdownInput (Option ℝ)}
    (haccepts : schemaAccepts (.estimate_pumpdown_time input) = true)
    {output : CalculationToolOutput (Option ℝ)} (h : estimatePumpdownTime input = .ok output) :
    executeCalculator (.estimate_pumpdown_time input) = output := by
  unfold executeCalculator runCalculator
  rw [if_pos haccepts]
  dsimp only
  rw [h]

/-- What the calculator accepts is a pump-down. -/
theorem pumpdown_of_ok {input : PumpdownInput (Option ℝ)} (hunits : input.UnitsListed)
    {calculation : CalculationResult (Option ℝ)}
    (h : executeCalculator (.estimate_pumpdown_time input) = .ok calculation) :
    ∃ p : Pumpdown, input.Describes p ∧ p.report input.outputUnit = calculation := by
  by_cases haccepts : schemaAccepts (.estimate_pumpdown_time input) = true
  · by_cases hrise : siValue PRESSURE_TO_PA input.initialPressure ≤
        siValue PRESSURE_TO_PA input.targetPressure
    · rw [executeCalculator_ok haccepts (estimatePumpdownTime_rise hunits haccepts hrise)] at h
      cases h
    · obtain ⟨hvolume, hspeed, hinitial, htarget, hload⟩ := converted hunits haccepts
      let p : Pumpdown :=
        ⟨_, _, _, _, _, hvolume.2, hspeed.2, htarget.2, hload.2, not_le.mp hrise⟩
      have hp : input.Describes p := ⟨rfl, rfl, rfl, rfl, rfl⟩
      rw [executeCalculator_ok haccepts (estimatePumpdownTime_report hunits haccepts hp)] at h
      cases h
      exact ⟨p, hp, rfl⟩
  · have hrefused : executeCalculator (.estimate_pumpdown_time input) =
        .failed [] ["计算参数未通过 OpenVac 本地 Schema 校验。".toList] := if_neg haccepts
    rw [hrefused] at h
    cases h

/-! ## 4. The projection -/

omit [ExactFunctions] [CaseTables] [Sha256] in
theorem recorded_map {ν : Type} (fields : List (String × Scalar ν)) (key : String) :
    recorded (fields.map fun field => (field.1.toList, field.2)) key =
      (fields.find? fun field => field.1 == key).map (·.2) := by
  have hkey (field : String × Scalar ν) :
      ((field.1.toList, field.2).1 == key.toList) = (field.1 == key) := by
    rw [Bool.eq_iff_iff, beq_iff_eq, beq_iff_eq]
    exact String.toList_inj
  unfold recorded
  rw [List.find?_map, Option.map_map]
  simp only [Function.comp_def, hkey]

omit [ExactFunctions] [CaseTables] [Sha256] in
theorem noOtherKeys_map {ν : Type} (keys : List String) (fields : List (String × Scalar ν)) :
    noOtherKeys keys (fields.map fun field => (field.1.toList, field.2)) =
      fields.all fun field => keys.contains field.1 := by
  have hkey (key : String) : (keys.map String.toList).contains key.toList = keys.contains key := by
    rw [Bool.eq_iff_iff, List.contains_iff_mem, List.contains_iff_mem,
      List.mem_map_of_injective fun a b => String.toList_inj.mp]
  unfold noOtherKeys
  rw [List.all_map]
  simp only [Function.comp_def, hkey]

omit [CaseTables] [Sha256] in
theorem pumpdownInputs_inputs (p : Pumpdown) :
    pumpdownInputs p.inputs =
      some ⟨some p.volume, some p.speed, some p.initial, some p.target, some p.load⟩ := by
  have hvolume : positive (some p.volume) = true := exact_positive.mpr ⟨_, rfl, p.volume_pos⟩
  have hspeed : positive (some p.speed) = true := exact_positive.mpr ⟨_, rfl, p.speed_pos⟩
  have hinitial : positive (some p.initial) = true := exact_positive.mpr ⟨_, rfl, p.initial_pos⟩
  have htarget : positive (some p.target) = true := exact_positive.mpr ⟨_, rfl, p.target_pos⟩
  have hload : nonNegative (some p.load) = true := exact_nonNegative.mpr ⟨_, rfl, p.load_nonneg⟩
  have hfields : p.inputs =
      ([("volumeM3", .number (some p.volume)), ("speedM3S", .number (some p.speed)),
        ("initialPa", .number (some p.initial)), ("targetPa", .number (some p.target)),
        ("gasLoadPaM3S", .number (some p.load))] : List (String × Scalar (Option ℝ))).map
          fun field => (field.1.toList, field.2) := rfl
  rw [hfields]
  simp only [pumpdownInputs, numberAt, recorded_map, noOtherKeys_map]
  simp [hvolume, hspeed, hinitial, htarget, hload]

omit [ExactFunctions] [CaseTables] [Sha256] in
theorem timeUnit_text (unit : TimeUnit) : timeUnit unit.text = some unit := by
  cases unit <;> decide

omit [CaseTables] [Sha256] in
theorem outcome_pos {p : Pumpdown} {unit : TimeUnit} {time : ℝ} (h : p.outcome unit = some time) :
    0 < time := by
  unfold Pumpdown.outcome at h
  split at h
  · cases h
  · next hreach =>
    cases h
    exact div_pos (p.time_pos (not_le.mp hreach)) (secondsIn_pos unit)

omit [CaseTables] [Sha256] in
theorem result_fields (p : Pumpdown) (unit : TimeUnit) :
    p.result unit =
      ([("reachable", .bool (p.outcome unit).isSome),
        ("equilibriumPressurePa", .number (some p.equilibrium)),
        ("time", timeScalar (p.outcome unit)), ("unit", .text unit.text)] :
          List (String × Scalar (Option ℝ))).map fun field => (field.1.toList, field.2) := rfl

omit [CaseTables] [Sha256] in
theorem pumpdownResult_result (p : Pumpdown) (unit : TimeUnit) :
    pumpdownResult (p.result unit) =
      some ⟨(p.outcome unit).isSome, some p.equilibrium, (p.outcome unit).map some, unit⟩ := by
  have hequilibrium : nonNegative (some p.equilibrium) = true :=
    exact_nonNegative.mpr ⟨_, rfl, p.equilibrium_nonneg⟩
  rw [result_fields]
  simp only [pumpdownResult, numberAt, recorded_map, noOtherKeys_map]
  cases houtcome : p.outcome unit with
  | none => simp [timeScalar, hequilibrium, timeUnit_text]
  | some time =>
    have hpositive : positive (some time) = true :=
      exact_positive.mpr ⟨_, rfl, outcome_pos houtcome⟩
    simp [timeScalar, hequilibrium, timeUnit_text, hpositive]

omit [CaseTables] [Sha256] in
theorem nearlyEqual_self (x : ℝ) : nearlyEqual (some x) (some x) = true := by
  have heq : JsArithmetic.eq (some x) (some x) = true := (exact_eq x x).mpr rfl
  unfold nearlyEqual
  simp [heq]

end Calculator

section Accepted

variable [Sha256Digest]

omit [ExactFunctions] in
/-- The digest the identifier ends in. -/
theorem calculationId_eq {ν : Type} [JsArithmetic ν] (tool formulaId : Text)
    (inputs result : List (Text × Scalar ν)) :
    ∃ digest, calculationId tool formulaId inputs result = "calc_".toList ++ digest ∧
      digest.length = 20 ∧ digest.all isHexDigit = true := by
  unfold calculationId
  generalize Json.stringify _ = payload
  have hdigest := Sha256Digest.hex_isSha256Hex payload
  rw [isSha256Hex, Bool.and_eq_true_iff, beq_iff_eq] at hdigest
  obtain ⟨hlength, hall⟩ := hdigest
  refine ⟨_, rfl, ?_, ?_⟩
  · rw [List.length_take, hlength]
    rfl
  · exact List.all_eq_true.mpr fun c hc => List.all_eq_true.mp hall c (List.mem_of_mem_take hc)

omit [ExactFunctions] in
theorem isCalculationId_calculationId {ν : Type} [JsArithmetic ν] (tool formulaId : Text)
    (inputs result : List (Text × Scalar ν)) :
    isCalculationId (calculationId tool formulaId inputs result) = true := by
  obtain ⟨digest, hid, hlength, hall⟩ := calculationId_eq tool formulaId inputs result
  have hprefix : "calc_".toList.length = 5 := by decide
  unfold isCalculationId
  rw [hid, List.take_left' hprefix, List.drop_left' hprefix, List.length_append, hprefix, hlength,
    hall, beq_self_eq_true]
  rfl

omit [Sha256Digest] in
theorem byteLength_jsonNumber_le (x : Option ℝ) :
    Json.byteLength (jsonNumber x).stringify ≤ 25 := by
  cases x with
  | none =>
    show Json.byteLength "null".toList ≤ 25
    decide
  | some x => exact ExactFunctions.spelling_short x

omit [Sha256Digest] in
theorem byteLength_data_le (data : ProjectionData (Option ℝ)) :
    Json.byteLength data.json.stringify ≤ 200 := by
  have hkeys : Json.byteLength (Json.quote "outcome".toList) = 9 ∧
      Json.byteLength (Json.quote "estimatedTime".toList) = 15 ∧
      Json.byteLength (Json.quote "timeUnit".toList) = 10 ∧
      Json.byteLength (Json.quote "equilibriumPressurePa".toList) = 23 ∧
      Json.byteLength (Json.text "reachable").stringify = 11 ∧
      Json.byteLength (Json.text "unreachable").stringify = 13 := by decide
  obtain ⟨houtcome, htime, hunit, hequilibrium, hreachable, hunreachable⟩ := hkeys
  cases data with
  | reachable time unit e =>
    have hspelled : Json.byteLength (Json.str unit.text).stringify ≤ 5 := by
      cases unit <;> decide
    have hte := byteLength_jsonNumber_le time
    have hee := byteLength_jsonNumber_le e
    refine (Json.byteLength_obj_le _).trans ?_
    simp only [List.map_cons, List.map_nil, List.sum_cons, List.sum_nil]
    omega
  | unreachable e =>
    have hee := byteLength_jsonNumber_le e
    refine (Json.byteLength_obj_le _).trans ?_
    simp only [List.map_cons, List.map_nil, List.sum_cons, List.sum_nil]
    omega

omit [Sha256Digest] in
/-- A projection with an identifier of the usual length fits. -/
theorem byteLength_projection_le {projection : TrustedPumpdownProjection (Option ℝ)}
    (hid : projection.calculationId.length = 25) :
    (Utf8.encode projection.json.stringify).length ≤ MAX_PROJECTION_BYTES := by
  have hkeys : Json.byteLength (Json.quote "schemaVersion".toList) = 15 ∧
      Json.byteLength (Json.quote "kind".toList) = 6 ∧
      Json.byteLength (Json.quote "calculationId".toList) = 15 ∧
      Json.byteLength (Json.quote "data".toList) = 6 ∧
      Json.byteLength (Json.text "openvac.trusted-calculation.v1").stringify = 32 ∧
      Json.byteLength (Json.text "pumpdown_time").stringify = 15 := by decide
  obtain ⟨hversion, hkind, hkey, hdata, hschema, hpumpdown⟩ := hkeys
  have hquoted : Json.byteLength (Json.str projection.calculationId).stringify ≤ 152 := by
    have h := Json.byteLength_quote_le projection.calculationId
    rw [hid] at h
    exact h
  have hd := byteLength_data_le projection.data
  refine (Json.byteLength_obj_le _).trans ?_
  simp only [List.map_cons, List.map_nil, List.sum_cons, List.sum_nil, MAX_PROJECTION_BYTES]
  omega

namespace Pumpdown

/-- The report as the schema reads it. -/
noncomputable def checked (p : Pumpdown) (unit : TimeUnit) : PumpdownCalculation (Option ℝ) where
  id := (p.report unit).id
  tool := PUMPDOWN_TOOL
  formulaId := PUMPDOWN_FORMULA
  formulaVersion := PUMPDOWN_VERSION
  normalizedInputs := ⟨some p.volume, some p.speed, some p.initial, some p.target, some p.load⟩
  result := ⟨(p.outcome unit).isSome, some p.equilibrium, (p.outcome unit).map some, unit⟩
  assumptions := (p.report unit).assumptions
  warnings := (p.report unit).warnings
  sourceIds := (p.report unit).sourceIds

/-- The outcome as it is projected. -/
noncomputable def projected (p : Pumpdown) (unit : TimeUnit) : ProjectionData (Option ℝ) :=
  match p.outcome unit with
  | some time => .reachable (some time) unit (some p.equilibrium)
  | none => .unreachable (some p.equilibrium)

omit [ExactFunctions] [Sha256Digest] in
theorem shortTexts_allowed (reachable : Bool) :
    shortTexts 1000 [if reachable then REACHABLE_ASSUMPTION else UNREACHABLE_ASSUMPTION] = true ∧
      shortTexts 1000 [if reachable then REACHABLE_WARNING else UNREACHABLE_WARNING] = true ∧
      shortTexts 200 [PUMPDOWN_SOURCE] = true := by
  have hreached : shortTexts 1000 [REACHABLE_ASSUMPTION] = true := by
    unfold REACHABLE_ASSUMPTION
    rw [String.toList_ofList]
    decide
  have hmissed : shortTexts 1000 [UNREACHABLE_ASSUMPTION] = true := by
    unfold UNREACHABLE_ASSUMPTION
    rw [String.toList_ofList]
    decide
  have hidealized : shortTexts 1000 [REACHABLE_WARNING] = true := by
    unfold REACHABLE_WARNING
    rw [String.toList_ofList]
    decide
  have hbelow : shortTexts 1000 [UNREACHABLE_WARNING] = true := by
    unfold UNREACHABLE_WARNING
    rw [String.toList_ofList]
    decide
  have hsource : shortTexts 200 [PUMPDOWN_SOURCE] = true := by
    unfold PUMPDOWN_SOURCE
    rw [String.toList_ofList]
    decide
  cases reachable with
  | true =>
    rw [if_pos rfl, if_pos rfl]
    exact ⟨hreached, hidealized, hsource⟩
  | false =>
    rw [if_neg Bool.false_ne_true, if_neg Bool.false_ne_true]
    exact ⟨hmissed, hbelow, hsource⟩

theorem pumpdownCalculation_report (p : Pumpdown) (unit : TimeUnit) :
    pumpdownCalculation (p.report unit) = some (p.checked unit) := by
  have hid : isCalculationId (p.report unit).id = true := isCalculationId_calculationId _ _ _ _
  obtain ⟨hassumptions, hwarnings, hsources⟩ := shortTexts_allowed (p.outcome unit).isSome
  have hinputs : pumpdownInputs (p.report unit).normalizedInputs =
      some ⟨some p.volume, some p.speed, some p.initial, some p.target, some p.load⟩ :=
    pumpdownInputs_inputs p
  have hresult : pumpdownResult (p.report unit).result =
      some ⟨(p.outcome unit).isSome, some p.equilibrium, (p.outcome unit).map some, unit⟩ :=
    pumpdownResult_result p unit
  have htool : ((p.report unit).tool == PUMPDOWN_TOOL) = true := beq_self_eq_true PUMPDOWN_TOOL
  have hformula : ((p.report unit).formulaId == PUMPDOWN_FORMULA) = true :=
    beq_self_eq_true PUMPDOWN_FORMULA
  have hversion : ((p.report unit).formulaVersion == PUMPDOWN_VERSION) = true :=
    beq_self_eq_true PUMPDOWN_VERSION
  have hshape : (isCalculationId (p.report unit).id && (p.report unit).tool == PUMPDOWN_TOOL &&
      (p.report unit).formulaId == PUMPDOWN_FORMULA &&
      (p.report unit).formulaVersion == PUMPDOWN_VERSION &&
      shortTexts 1000 (p.report unit).assumptions && shortTexts 1000 (p.report unit).warnings &&
      shortTexts 200 (p.report unit).sourceIds) = true := by
    simp only [Bool.and_eq_true]
    exact ⟨⟨⟨⟨⟨⟨hid, htool⟩, hformula⟩, hversion⟩, hassumptions⟩, hwarnings⟩, hsources⟩
  unfold pumpdownCalculation
  rw [if_pos hshape, hinputs, hresult]
  rfl

omit [ExactFunctions] [Sha256Digest] in
theorem sameJson_self (texts : List Text) : sameJson texts texts = true := beq_self_eq_true _

/-- The formula worked out again gives what was recorded. -/
theorem outcomeIssues_checked (p : Pumpdown) (unit : TimeUnit) :
    outcomeIssues (p.checked unit) (some p.equilibrium) = [] := by
  by_cases hreach : p.target ≤ p.equilibrium
  · have houtcome : p.outcome unit = none := if_pos hreach
    have hlt : lt (some p.equilibrium) (some p.target) = false := by
      rw [Bool.eq_false_iff, ne_eq, exact_lt]
      exact not_lt.mpr hreach
    simp [outcomeIssues, checked, houtcome, hlt]
  · have houtcome : p.outcome unit = some (p.time / secondsIn unit) := if_neg hreach
    have hle : le (some p.target) (some p.equilibrium) = false := by
      rw [Bool.eq_false_iff, ne_eq, exact_le]
      exact hreach
    have hexpected : (some p.volume / some p.speed : Option ℝ) *
        log ((some p.initial - some p.equilibrium) / (some p.target - some p.equilibrium)) /
          timeDivisor unit = some (p.time / secondsIn unit) := by
      rw [exact_seconds (not_le.mp hreach), timeDivisor_eq, exact_div (secondsIn_pos _).ne']
    simp [-exact_sub, outcomeIssues, checked, houtcome, hle, hexpected, nearlyEqual_self]

theorem consistencyIssues_checked (p : Pumpdown) (unit : TimeUnit) :
    consistencyIssues (p.checked unit) = [] := by
  have hequilibrium : (some p.load / some p.speed : Option ℝ) = some p.equilibrium :=
    exact_div p.speed_pos.ne'
  have hle : le (some p.initial) (some p.target) = false := by
    rw [Bool.eq_false_iff, ne_eq, exact_le]
    exact not_le.mpr p.target_lt
  have houtcome := outcomeIssues_checked p unit
  have hinputs : (p.checked unit).normalizedInputs =
      ⟨some p.volume, some p.speed, some p.initial, some p.target, some p.load⟩ := rfl
  have hrecorded : (p.checked unit).result.equilibriumPressurePa = some p.equilibrium := rfl
  have hassumptions : sameJson (p.checked unit).assumptions
      [if (p.checked unit).result.reachable then REACHABLE_ASSUMPTION
       else UNREACHABLE_ASSUMPTION] = true := sameJson_self _
  have hwarnings : sameJson (p.checked unit).warnings
      [if (p.checked unit).result.reachable then REACHABLE_WARNING else UNREACHABLE_WARNING] =
      true := sameJson_self _
  have hsources : sameJson (p.checked unit).sourceIds [PUMPDOWN_SOURCE] = true := sameJson_self _
  unfold consistencyIssues
  rw [hinputs, hrecorded, hassumptions, hwarnings, hsources]
  dsimp only
  rw [hequilibrium, houtcome, hle, nearlyEqual_self]
  rfl

/-- **The projection accepts the report.** -/
theorem build_report (p : Pumpdown) (unit : TimeUnit) :
    buildTrustedPumpdownProjection (p.report unit) =
      .ok ⟨(p.report unit).id, p.projected unit⟩ := by
  have hid : (p.checked unit).id = (p.checked unit).expectedId := by
    show calculationId PUMPDOWN_TOOL PUMPDOWN_FORMULA p.inputs (p.result unit) =
      (p.checked unit).expectedId
    unfold PumpdownCalculation.expectedId result checked
    cases p.outcome unit <;> rfl
  have hlength : (p.report unit).id.length = 25 := by
    obtain ⟨digest, hdigest, hlength, -⟩ :=
      calculationId_eq PUMPDOWN_TOOL PUMPDOWN_FORMULA p.inputs (p.result unit)
    have hprefix : "calc_".toList.length = 5 := by decide
    show (calculationId PUMPDOWN_TOOL PUMPDOWN_FORMULA p.inputs (p.result unit)).length = 25
    rw [hdigest, List.length_append, hprefix, hlength]
  have hdata : (if (p.checked unit).result.reachable then
      ProjectionData.reachable ((p.checked unit).result.time.getD nan)
        (p.checked unit).result.unit (p.checked unit).result.equilibriumPressurePa
      else .unreachable (p.checked unit).result.equilibriumPressurePa) = p.projected unit := by
    unfold projected checked
    cases p.outcome unit <;> rfl
  unfold buildTrustedPumpdownProjection
  rw [pumpdownCalculation_report]
  dsimp only
  rw [consistencyIssues_checked, if_neg (fun h => h rfl), if_neg (fun h => h hid), hdata]
  exact if_neg (Nat.not_lt.mpr (byteLength_projection_le hlength))

end Pumpdown

end Accepted

/-! ## 5. Agreement -/

section Agreement

variable [CaseTables] [Sha256Digest]

omit [ExactFunctions] [CaseTables] [Sha256Digest] in
/-- The fields of a recorded outcome that a projection carries. -/
def ProjectionData.outputs {ν : Type} : ProjectionData ν → List (Text × Scalar ν)
  | .reachable time unit e =>
      [("reachable".toList, .bool true), ("equilibriumPressurePa".toList, .number e),
       ("time".toList, .number time), ("unit".toList, .text unit.text)]
  | .unreachable e =>
      [("reachable".toList, .bool false), ("equilibriumPressurePa".toList, .number e),
       ("time".toList, .null)]

/-- The calculation says the target is reached. -/
def CalculationResult.Reachable (calculation : CalculationResult (Option ℝ)) : Prop :=
  recorded calculation.result "reachable" = some (.bool true)

omit [CaseTables] [Sha256Digest] in
theorem recorded_reachable (p : Pumpdown) (unit : TimeUnit) :
    recorded (p.result unit) "reachable" = some (.bool (p.outcome unit).isSome) := by
  rw [result_fields, recorded_map]
  rfl

omit [CaseTables] [Sha256Digest] in
theorem recorded_time (p : Pumpdown) (unit : TimeUnit) :
    recorded (p.result unit) "time" = some (timeScalar (p.outcome unit)) := by
  rw [result_fields, recorded_map]
  rfl

omit [CaseTables] in
theorem reachable_report (p : Pumpdown) (unit : TimeUnit) :
    (p.report unit).Reachable ↔ p.equilibrium < p.target := by
  have hrecorded : recorded (p.report unit).result "reachable" =
      some (.bool (p.outcome unit).isSome) := recorded_reachable p unit
  unfold CalculationResult.Reachable
  rw [hrecorded, Option.some_inj, Scalar.bool.injEq]
  unfold Pumpdown.outcome
  split
  · next h => exact ⟨fun hfalse => (nomatch hfalse), fun hlt => absurd hlt (not_lt.mpr h)⟩
  · next h => exact ⟨fun _ => not_le.mp h, fun _ => rfl⟩

omit [CaseTables] in
theorem outputs_projected (p : Pumpdown) (unit : TimeUnit) :
    ∀ field ∈ (p.projected unit).outputs, field ∈ (p.report unit).result := by
  show ∀ field ∈ (p.projected unit).outputs, field ∈ p.result unit
  unfold Pumpdown.projected Pumpdown.result
  cases p.outcome unit with
  | none =>
    intro field hfield
    simp only [ProjectionData.outputs, List.mem_cons, List.not_mem_nil, or_false] at hfield ⊢
    rcases hfield with rfl | rfl | rfl
    · exact .inl rfl
    · exact .inr (.inl rfl)
    · exact .inr (.inr (.inl rfl))
  | some time =>
    intro field hfield
    exact hfield

/-- **Calculator and projection agree**: what the calculator reports of listed units is accepted
    with its identifier and its outcome; the target is reached exactly above the equilibrium, and
    a higher one no later. -/
theorem pumpdown_projection_agrees {input : PumpdownInput (Option ℝ)}
    (hunits : input.UnitsListed) {calculation : CalculationResult (Option ℝ)}
    (h : executeCalculator (.estimate_pumpdown_time input) = .ok calculation) :
    (∃ projection, buildTrustedPumpdownProjection calculation = .ok projection ∧
      projection.calculationId = calculation.id ∧
      calculation.id = calculationId calculation.tool calculation.formulaId
        calculation.normalizedInputs calculation.result ∧
      ∀ field ∈ projection.data.outputs, field ∈ calculation.result) ∧
    (calculation.Reachable ↔ siLoad input.gasLoad / siValue SPEED_TO_M3_S input.pumpingSpeed <
      siValue PRESSURE_TO_PA input.targetPressure) ∧
    (calculation.Reachable →
      ∃ time, recorded calculation.result "time" = some (.number (some time)) ∧ 0 ≤ time ∧
        ∀ targetPressure calculation', Listed PRESSURE_TO_PA targetPressure.unit →
          executeCalculator (.estimate_pumpdown_time { input with targetPressure }) =
            .ok calculation' →
          siValue PRESSURE_TO_PA input.targetPressure ≤ siValue PRESSURE_TO_PA targetPressure →
          ∃ time', recorded calculation'.result "time" = some (.number (some time')) ∧
            time' ≤ time) := by
  obtain ⟨p, hp, rfl⟩ := pumpdown_of_ok hunits h
  have houtcome {q : Pumpdown} (hq : q.equilibrium < q.target) :
      q.outcome input.outputUnit = some (q.time / Pumpdown.secondsIn input.outputUnit) :=
    if_neg (not_le.mpr hq)
  refine ⟨⟨_, Pumpdown.build_report p input.outputUnit, rfl, rfl, outputs_projected p _⟩, ?_, ?_⟩
  · rw [hp.load, hp.speed, hp.target]
    exact reachable_report p input.outputUnit
  · intro hreachable
    have hreach := (reachable_report p input.outputUnit).mp hreachable
    refine ⟨p.time / Pumpdown.secondsIn input.outputUnit, ?_, ?_, ?_⟩
    · rw [← timeScalar, ← houtcome hreach]
      exact recorded_time p input.outputUnit
    · exact (div_pos (p.time_pos hreach) (secondsIn_pos _)).le
    · intro targetPressure calculation' hlisted h' htarget
      have hunits' : PumpdownInput.UnitsListed { input with targetPressure } :=
        ⟨hunits.1, hunits.2.1, hunits.2.2.1, hlisted, hunits.2.2.2.2⟩
      obtain ⟨q, hq, rfl⟩ := pumpdown_of_ok hunits' h'
      have hvolume : q.volume = p.volume := hq.volume.symm.trans hp.volume
      have hspeed : q.speed = p.speed := hq.speed.symm.trans hp.speed
      have hinitial : q.initial = p.initial := hq.initial.symm.trans hp.initial
      have hload : q.load = p.load := hq.load.symm.trans hp.load
      have hle : p.target ≤ q.target := hp.target ▸ hq.target ▸ htarget
      have hequilibrium : q.equilibrium = p.equilibrium := by
        unfold Pumpdown.equilibrium
        rw [hload, hspeed]
      have hreach' : q.equilibrium < q.target := hequilibrium ▸ hreach.trans_le hle
      refine ⟨q.time / Pumpdown.secondsIn input.outputUnit, ?_, ?_⟩
      · rw [← timeScalar, ← houtcome hreach']
        exact recorded_time q input.outputUnit
      · exact div_le_div_of_nonneg_right
          (Pumpdown.time_le_of_target_le hvolume hspeed hinitial hload hreach hle)
          (secondsIn_pos _).le

omit [ExactFunctions] [CaseTables] [Sha256Digest] in
/-- The input of a pump-down in the first unit of every table. -/
def siInput (p : Pumpdown) : PumpdownInput (Option ℝ) where
  volume := ⟨some p.volume, "m3".toList⟩
  pumpingSpeed := ⟨some p.speed, "m3/s".toList⟩
  initialPressure := ⟨some p.initial, "pa".toList⟩
  targetPressure := ⟨some p.target, "pa".toList⟩
  gasLoad := some ⟨some p.load, "pa*m3/s".toList⟩
  outputUnit := .s

end Agreement

/-- Units in lower case stay as they are. -/
@[reducible] def lowerCaseUnits : CaseTables := ⟨id⟩

omit [ExactFunctions] in
theorem property_si :
    let _ := lowerCaseUnits
    property VOLUME_TO_M3 (normalizeUnit "m3".toList) = .own 1 ∧
      property SPEED_TO_M3_S (normalizeUnit "m3/s".toList) = .own 1 ∧
      property PRESSURE_TO_PA (normalizeUnit "pa".toList) = .own 1 ∧
      property THROUGHPUT_TO_PA_M3_S (normalizeUnit "pa*m3/s".toList) = .own 1 := by
  decide

omit [ExactFunctions] in
theorem siInput_listed (p : Pumpdown) : @PumpdownInput.UnitsListed lowerCaseUnits (siInput p) := by
  obtain ⟨hvolume, hspeed, hpressure, hload⟩ := property_si
  refine ⟨⟨1, hvolume⟩, ⟨1, hspeed⟩, ⟨1, hpressure⟩, ⟨1, hpressure⟩, ?_⟩
  rintro gasLoad ⟨⟩
  exact ⟨1, hload⟩

theorem siInput_report [Sha256Digest] (p : Pumpdown) :
    @executeCalculator _ _ lowerCaseUnits _ (.estimate_pumpdown_time (siInput p)) =
      .ok (p.report .s) := by
  let _ := lowerCaseUnits
  obtain ⟨hvolume, hspeed, hpressure, hload⟩ := property_si
  have hsi {factors : UnitTable} {unit : Text}
      (hunit : property factors (normalizeUnit unit) = .own 1) (x : ℝ) :
      siValue factors ⟨some x, unit⟩ = x := by
    unfold siValue tableFactor
    rw [hunit]
    show x * ((1 : ℚ) : ℝ) = x
    rw [Rat.cast_one, mul_one]
  have hp : (siInput p).Describes p :=
    ⟨hsi hvolume p.volume, hsi hspeed p.speed, hsi hpressure p.initial, hsi hpressure p.target,
      hsi hload p.load⟩
  have hpositive {x : ℝ} (hx : 0 < x) {unit : Text} (hunit : unit.isEmpty = false) :
      positiveQuantity ⟨some x, unit⟩ = true := by
    unfold positiveQuantity
    rw [exact_positive.mpr ⟨x, rfl, hx⟩, hunit]
    rfl
  have hgas : (siInput p).gasLoad.all nonNegativeQuantity = true := by
    show nonNegativeQuantity ⟨some p.load, "pa*m3/s".toList⟩ = true
    have hunit : "pa*m3/s".toList.isEmpty = false := by decide
    unfold nonNegativeQuantity
    rw [exact_nonNegative.mpr ⟨p.load, rfl, p.load_nonneg⟩, hunit]
    rfl
  have haccepts : schemaAccepts (.estimate_pumpdown_time (siInput p)) = true := by
    unfold schemaAccepts
    dsimp only
    rw [hgas]
    unfold siInput
    dsimp only
    rw [hpositive p.volume_pos (by decide), hpositive p.speed_pos (by decide +kernel),
      hpositive p.initial_pos (by decide), hpositive p.target_pos (by decide +kernel)]
    rfl
  exact executeCalculator_ok haccepts (estimatePumpdownTime_report (siInput_listed p) haccepts hp)

end Exact

/-- The natural logarithm, and the numbers of the two pump-downs below as they are spelled. -/
@[reducible] noncomputable def naturalFunctions : ExactFunctions where
  ln := Real.log
  ln_one := Real.log_one
  ln_increasing := Real.strictMonoOn_log
  spelling x :=
    if x = 0 then "0".toList
    else if x = 1 then "1".toList
    else if x = 2 then "2".toList
    else if x = 10 then "10".toList
    else "2.302585092994046".toList
  spelling_short x := by
    split
    · decide
    split
    · decide
    split
    · decide
    split
    · decide
    · decide

/-- One volume a second without a load, from 10 Pa to 1 Pa. -/
def tenfold : Pumpdown :=
  ⟨1, 1, 10, 1, 0, one_pos, one_pos, one_pos, le_refl 0, by norm_num⟩

theorem tenfold_projected :
    let _ := naturalFunctions
    let _ := lowerCaseUnits
    let _ := lengthDigest
    ∃ projection, buildTrustedPumpdownProjection (tenfold.report .s) = .ok projection ∧
      projection.calculationId = (tenfold.report .s).id ∧ (tenfold.report .s).Reachable := by
  let _ := naturalFunctions
  let _ := lowerCaseUnits
  let _ := lengthDigest
  obtain ⟨⟨projection, hbuild, hid, -⟩, hiff, -⟩ :=
    pumpdown_projection_agrees (siInput_listed tenfold) (siInput_report tenfold)
  refine ⟨projection, hbuild, hid, (reachable_report tenfold .s).mpr ?_⟩
  show (0 : ℝ) / 1 < 1
  norm_num

/-- A load of 2 Pa m³/s at 1 m³/s: 1 Pa is never reached, whatever the volume. -/
def overloaded (volume : ℝ) (h : 0 < volume) : Pumpdown :=
  ⟨volume, 1, 10, 1, 2, h, one_pos, one_pos, zero_le_two, by norm_num⟩

/-- **The inputs are not projected**: they cannot be read from what is. -/
theorem inputs_not_projected :
    ¬ ∀ [ExactFunctions] [CaseTables] [Sha256Digest],
      ∃ read : ProjectionData (Option ℝ) → List (Text × Scalar (Option ℝ)),
        ∀ (input : PumpdownInput (Option ℝ)) calculation projection,
          executeCalculator (.estimate_pumpdown_time input) = .ok calculation →
          buildTrustedPumpdownProjection calculation = .ok projection →
          read projection.data = calculation.normalizedInputs := by
  intro h
  let _ := naturalFunctions
  let _ := lowerCaseUnits
  let _ := lengthDigest
  obtain ⟨read, hread⟩ := h
  have hprojected (volume : ℝ) (hv : 0 < volume) :
      (overloaded volume hv).projected .s = .unreachable (some (2 / 1)) := by
    have houtcome : (overloaded volume hv).outcome .s = none := by
      refine if_pos ?_
      show (1 : ℝ) ≤ 2 / 1
      norm_num
    unfold Pumpdown.projected
    rw [houtcome]
    rfl
  have hinputs (volume : ℝ) (hv : 0 < volume) :
      read (.unreachable (some (2 / 1))) = (overloaded volume hv).inputs := by
    rw [← hprojected volume hv]
    exact hread _ _ _ (siInput_report _) (Pumpdown.build_report _ .s)
  have heq := (hinputs 1 one_pos).symm.trans (hinputs 2 two_pos)
  simp [Pumpdown.inputs, overloaded] at heq

end OpenVac.Agent
