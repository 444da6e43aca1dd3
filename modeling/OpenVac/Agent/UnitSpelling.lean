/-
  File:      OpenVac/Agent/UnitSpelling.lean
  Subject:   Units as users write them, and the numbers that calculators report.

  * `entryExponent` -- the power of ten that the prefixes of an entry stand for; `entries_sound`.
  * `UnitSound` -- a unit is an own entry of its table, with the SI factor of the unit as written.
  * `WellSpelled` -- an own entry, its prefixes written as the entry takes them;
    `unitSound_iff`.
  * `formulaNumbers` -- the numbers of the eight formulas, with the factors of the tables;
    `numbers_of_listed`.
  * `calculator_units_sound_iff`; `milli_taken_for_mega`.
-/
import OpenVac.Agent.PumpAlgebra
import OpenVac.Lib.Machine
import OpenVac.Lib.SiUnits

namespace OpenVac.Agent

open JsString JsUrl JsArithmetic SiUnits

/-! ## 1. Entries of the tables -/

def UNIT_TABLES : List UnitTable :=
  [PRESSURE_TO_PA, SPEED_TO_M3_S, THROUGHPUT_TO_PA_M3_S, LENGTH_TO_M, VOLUME_TO_M3, AREA_TO_M2,
   OUTGASSING_TO_PA_M3_S_M2]

/-- The prefixes that entries are named with. -/
def ENTRY_EXPONENTS : List (Text × ℤ) :=
  [("kpa".toList, 3), ("mpa".toList, 6), ("mbar".toList, -3), ("mtorr".toList, -3),
   ("mbar*l/s".toList, -3), ("mbar·l/s".toList, -3), ("cm".toList, -2), ("mm".toList, -3),
   ("um".toList, -6), ("µm".toList, -6), ("cm2".toList, -4), ("cm²".toList, -4),
   ("mm2".toList, -6), ("mm²".toList, -6), ("mbar*l/s/cm2".toList, 1),
   ("mbar·l/s/cm²".toList, 1), ("torr*l/s/cm2".toList, 4), ("torr·l/s/cm²".toList, 4)]

/-- The power of ten that the prefixes of an entry stand for. -/
def entryExponent (key : Text) : ℤ := (ENTRY_EXPONENTS.lookup key).getD 0

/-- The factor of an entry is that of its name. -/
def EntrySound (entry : Text × ℚ) : Prop :=
  ∃ r ∈ reading entry.1, 0 < r.coefficient ∧
    Near entry.2 (10 ^ entryExponent entry.1 * r.coefficient)

instance (entry : Text × ℚ) : Decidable (EntrySound entry) :=
  inferInstanceAs (Decidable (∃ r ∈ reading entry.1, _))

theorem entries_sound : ∀ factors ∈ UNIT_TABLES, ∀ entry ∈ factors, EntrySound entry := by
  decide +kernel

theorem PRESSURE_mem : PRESSURE_TO_PA ∈ UNIT_TABLES := by simp [UNIT_TABLES]

theorem SPEED_mem : SPEED_TO_M3_S ∈ UNIT_TABLES := by simp [UNIT_TABLES]

theorem THROUGHPUT_mem : THROUGHPUT_TO_PA_M3_S ∈ UNIT_TABLES := by simp [UNIT_TABLES]

theorem LENGTH_mem : LENGTH_TO_M ∈ UNIT_TABLES := by simp [UNIT_TABLES]

theorem VOLUME_mem : VOLUME_TO_M3 ∈ UNIT_TABLES := by simp [UNIT_TABLES]

theorem AREA_mem : AREA_TO_M2 ∈ UNIT_TABLES := by simp [UNIT_TABLES]

theorem OUTGASSING_mem : OUTGASSING_TO_PA_M3_S_M2 ∈ UNIT_TABLES := by simp [UNIT_TABLES]

theorem UnitQuantity.factors_mem (quantity : UnitQuantity) : quantity.factors ∈ UNIT_TABLES := by
  cases quantity with
  | pressure => exact PRESSURE_mem
  | pumping_speed => exact SPEED_mem
  | throughput => exact THROUGHPUT_mem

theorem positive_tables : ∀ factors ∈ UNIT_TABLES, PositiveTable factors := by
  have hpos : ∀ factors ∈ UNIT_TABLES, ∀ entry ∈ factors, 0 < entry.2 := by decide +kernel
  exact hpos

section Units

variable [CaseTables]

/-! ## 2. Units as written -/

omit [CaseTables] in
/-- The letters of a unit, without the white space that the normalization removes. -/
def written (unit : Text) : Text := unit.filter fun c => !isWhiteSpace c

/-- The unit resolves to an own entry of the table, and the entry has the SI factor of the unit
    as it is written. -/
def UnitSound (factors : UnitTable) (unit : Text) : Prop :=
  ∃ factor si, property factors (normalizeUnit unit) = .own factor ∧
    siFactor (written unit) (normalizeUnit unit) = some si ∧ Near factor si

/-- The unit is an own entry, and its prefixes are written as those that the entry stands for. -/
def WellSpelled (factors : UnitTable) (unit : Text) : Prop :=
  Listed factors unit ∧
    ∃ r ∈ reading (normalizeUnit unit),
      r.exponent (written unit) = some (entryExponent (normalizeUnit unit))

/-- **A unit has its SI factor** just where its prefixes are written as its entry takes them. -/
theorem unitSound_iff {factors : UnitTable} (h : factors ∈ UNIT_TABLES) (unit : Text) :
    UnitSound factors unit ↔ WellSpelled factors unit := by
  unfold UnitSound WellSpelled Listed siFactor
  constructor
  · rintro ⟨factor, si, hown, hsi, hnear⟩
    obtain ⟨r, hreading, hpos, hentry⟩ := entries_sound factors h _ (property_own_mem hown)
    obtain ⟨r', hread, hsi⟩ := Option.bind_eq_some_iff.mp hsi
    obtain ⟨e, hexponent, hsi⟩ := Option.bind_eq_some_iff.mp hsi
    rw [Option.mem_def.mp hreading] at hread
    cases hread
    cases hsi
    refine ⟨⟨factor, hown⟩, r, hreading, ?_⟩
    rw [hexponent, near_exponent hpos hnear hentry]
  · rintro ⟨⟨factor, hown⟩, r, hread, hexponent⟩
    obtain ⟨r', hreading, hpos, hentry⟩ := entries_sound factors h _ (property_own_mem hown)
    rw [Option.mem_def.mp hreading] at hread
    cases hread
    exact ⟨factor, _, hown, Option.bind_eq_some_iff.mpr
      ⟨r, hreading, Option.bind_eq_some_iff.mpr ⟨_, hexponent, rfl⟩⟩, hentry⟩

/-! ## 3. Numbers of the formulas -/

section Formulas

variable {ν : Type} [JsArithmetic ν]

/-- The units that a call names, each with its table. -/
def named : CalculatorCall ν → List (UnitTable × Text)
  | .convert_vacuum_units input =>
      [(input.quantity.factors, input.fromUnit), (input.quantity.factors, input.toUnit)]
  | .calculate_throughput input =>
      [(PRESSURE_TO_PA, input.pressure.unit), (SPEED_TO_M3_S, input.pumpingSpeed.unit),
       (THROUGHPUT_TO_PA_M3_S, input.outputUnit)]
  | .calculate_effective_pumping_speed input =>
      [(SPEED_TO_M3_S, input.pumpSpeed.unit), (SPEED_TO_M3_S, input.conductance.unit),
       (SPEED_TO_M3_S, input.outputUnit)]
  | .estimate_pumpdown_time input =>
      [(VOLUME_TO_M3, input.volume.unit), (SPEED_TO_M3_S, input.pumpingSpeed.unit),
       (PRESSURE_TO_PA, input.initialPressure.unit), (PRESSURE_TO_PA, input.targetPressure.unit)] ++
        input.gasLoad.toList.map fun load => (THROUGHPUT_TO_PA_M3_S, load.unit)
  | .classify_flow_regime input =>
      [(LENGTH_TO_M, input.meanFreePath.unit), (LENGTH_TO_M, input.characteristicLength.unit)]
  | .calculate_orifice_or_tube_conductance input =>
      [(LENGTH_TO_M, input.diameter.unit), (SPEED_TO_M3_S, input.outputUnit)] ++
        (input.length.toList.map fun length => (LENGTH_TO_M, length.unit)) ++
        input.meanPressure.toList.map fun pressure => (PRESSURE_TO_PA, pressure.unit)
  | .combine_parallel_pumps input =>
      (SPEED_TO_M3_S, input.outputUnit) :: input.pumps.flatMap fun pump =>
        (SPEED_TO_M3_S, pump.speed.unit) ::
          pump.conductance.toList.map fun conductance => (SPEED_TO_M3_S, conductance.unit)
  | .estimate_leak_or_outgassing_load input =>
      (THROUGHPUT_TO_PA_M3_S, input.outputUnit) ::
        ((input.leakRate.toList.map fun rate => (THROUGHPUT_TO_PA_M3_S, rate.unit)) ++
          (input.outgassingRate.toList.map fun rate => (OUTGASSING_TO_PA_M3_S_M2, rate.unit)) ++
          input.surfaceArea.toList.map fun area => (AREA_TO_M2, area.unit))

/-- A quantity in SI units. -/
def inBase (quantity : Quantity ν) (factors : UnitTable) : ν :=
  quantity.value * ofRat (tableFactor factors quantity.unit)

def inBaseOrZero (quantity : Option (Quantity ν)) (factors : UnitTable) : ν :=
  match quantity with
  | some quantity => inBase quantity factors
  | none => ofRat 0

/-- A number of SI units in another unit. -/
def inUnit (x : ν) (factors : UnitTable) (unit : Text) : ν := x / ofRat (tableFactor factors unit)

/-- The equilibrium, and the time where the target is above it. -/
def pumpdownNumbers (volume speed initial target load : ν) (unit : TimeUnit) : List ν :=
  let equilibrium := load / speed
  equilibrium ::
    if le target equilibrium then []
    else [((volume / speed) * log ((initial - equilibrium) / (target - equilibrium))) /
      timeDivisor unit]

def molecularNumber (input : ConductanceInput ν) (diameterCm : ν) : ν :=
  let areaCm2 := pi * pow (diameterCm / ofRat 2) 2
  let temperatureFactor := sqrt (input.temperatureK / ofRat 293.15)
  match input.geometry with
  | .circular_orifice => ofRat 11.6 * areaCm2 * temperatureFactor
  | .straight_circular_tube =>
      (ofRat 12.1 * pow diameterCm 3) / (inBaseOrZero input.length LENGTH_TO_M * ofRat 100) *
        temperatureFactor

/-- The conductances in L/s that are reported. -/
def conductanceNumbers (input : ConductanceInput ν) : List ν :=
  let diameterM := inBase input.diameter LENGTH_TO_M
  let molecularLs := molecularNumber input (diameterM * ofRat 100)
  let viscousM3S :=
    (pi * pow diameterM 4 * inBaseOrZero input.meanPressure PRESSURE_TO_PA) /
      (ofRat 128 * input.dynamicViscosityPaS.getD (ofRat 0) *
        inBaseOrZero input.length LENGTH_TO_M)
  let viscousLs := viscousM3S * ofRat 1000
  match input.regime with
  | .molecular => [molecularLs]
  | .viscous => [viscousLs]
  | .transition => [mathMin molecularLs viscousLs, mathMax molecularLs viscousLs]

def branchNumber (pump : PumpBranch ν) : ν :=
  let speed := inBase pump.speed SPEED_TO_M3_S
  match pump.conductance with
  | none => speed
  | some conductance => inSeries speed (inBase conductance SPEED_TO_M3_S)

/-- **The numbers of the formulas**, with the factors of the tables: the inputs of the formula,
    and what it gives in the unit of the result. -/
def formulaNumbers : CalculatorCall ν → List ν
  | .convert_vacuum_units input =>
      let base := inBase ⟨input.value, input.fromUnit⟩ input.quantity.factors
      [input.value, inUnit base input.quantity.factors input.toUnit]
  | .calculate_throughput input =>
      let pressure := inBase input.pressure PRESSURE_TO_PA
      let speed := inBase input.pumpingSpeed SPEED_TO_M3_S
      [pressure, speed, inUnit (pressure * speed) THROUGHPUT_TO_PA_M3_S input.outputUnit]
  | .calculate_effective_pumping_speed input =>
      let speed := inBase input.pumpSpeed SPEED_TO_M3_S
      let conductance := inBase input.conductance SPEED_TO_M3_S
      [speed, conductance, inUnit (inSeries speed conductance) SPEED_TO_M3_S input.outputUnit]
  | .estimate_pumpdown_time input =>
      let volume := inBase input.volume VOLUME_TO_M3
      let speed := inBase input.pumpingSpeed SPEED_TO_M3_S
      let initial := inBase input.initialPressure PRESSURE_TO_PA
      let target := inBase input.targetPressure PRESSURE_TO_PA
      let load := inBaseOrZero input.gasLoad THROUGHPUT_TO_PA_M3_S
      [volume, speed, initial, target, load] ++
        pumpdownNumbers volume speed initial target load input.outputUnit
  | .classify_flow_regime input =>
      let path := inBase input.meanFreePath LENGTH_TO_M
      let length := inBase input.characteristicLength LENGTH_TO_M
      [path, length, path / length]
  | .calculate_orifice_or_tube_conductance input =>
      [inBase input.diameter LENGTH_TO_M, input.temperatureK] ++
        (conductanceNumbers input).map fun x =>
          inUnit (x * ofRat 1e-3) SPEED_TO_M3_S input.outputUnit
  | .combine_parallel_pumps input =>
      let branches := input.pumps.map branchNumber
      [ofRat branches.length,
       inUnit (branches.foldl (· + ·) (ofRat 0)) SPEED_TO_M3_S input.outputUnit]
  | .estimate_leak_or_outgassing_load input =>
      let leak := inBaseOrZero input.leakRate THROUGHPUT_TO_PA_M3_S
      let outgassing :=
        match input.outgassingRate with
        | some rate =>
            inBase rate OUTGASSING_TO_PA_M3_S_M2 * inBaseOrZero input.surfaceArea AREA_TO_M2
        | none => ofRat 0
      [leak, outgassing, inUnit (leak + outgassing) THROUGHPUT_TO_PA_M3_S input.outputUnit]

/-! ## 4. Numbers of a calculation -/

omit [JsArithmetic ν] [CaseTables] in
def Scalar.number? : Scalar ν → Option ν
  | .number x => some x
  | _ => none

omit [JsArithmetic ν] [CaseTables] in
/-- Every number that a calculation records. -/
def CalculationResult.numbers (calculation : CalculationResult ν) : List ν :=
  (calculation.normalizedInputs ++ calculation.result).filterMap fun field => field.2.number?

theorem toBase_inBase {factors : UnitTable} (h : factors ∈ UNIT_TABLES) {quantity : Quantity ν}
    (hl : Listed factors quantity.unit) :
    toBase quantity.value quantity.unit factors = .ok (inBase quantity factors) :=
  toBase_listed (positive_tables factors h) hl quantity.value

theorem toBaseOrZero_inBase {factors : UnitTable} (h : factors ∈ UNIT_TABLES)
    {quantity : Option (Quantity ν)}
    (hl : ∀ p ∈ quantity.toList.map fun q => (factors, q.unit), Listed p.1 p.2) :
    toBaseOrZero quantity factors = .ok (inBaseOrZero quantity factors) := by
  cases quantity with
  | none => rfl
  | some quantity => exact toBase_inBase h (hl _ List.mem_cons_self)

theorem fromBase_inUnit {factors : UnitTable} (h : factors ∈ UNIT_TABLES) {unit : Text}
    (hl : Listed factors unit) (x : ν) :
    fromBase x unit factors = .ok (inUnit x factors unit) :=
  fromBase_listed (positive_tables factors h) hl x

section Calculations

variable [Sha256] {calculation : CalculationResult ν}

theorem convert_numbers {input : ConvertInput ν}
    (h : convertVacuumUnits input = .ok (.ok calculation))
    (hl : ∀ p ∈ named (.convert_vacuum_units input), Listed p.1 p.2) :
    calculation.numbers = formulaNumbers (.convert_vacuum_units input) := by
  have htable := input.quantity.factors_mem
  simp only [named, List.forall_mem_cons] at hl
  obtain ⟨hfrom, hto, -⟩ := hl
  unfold convertVacuumUnits at h
  dsimp only at h
  rw [@toBase_inBase _ _ _ _ htable ⟨input.value, input.fromUnit⟩ hfrom] at h
  dsimp only [bind, Except.bind] at h
  rw [fromBase_inUnit htable hto] at h
  cases h
  rfl

theorem throughput_numbers {input : ThroughputInput ν}
    (h : calculateThroughput input = .ok (.ok calculation))
    (hl : ∀ p ∈ named (.calculate_throughput input), Listed p.1 p.2) :
    calculation.numbers = formulaNumbers (.calculate_throughput input) := by
  simp only [named, List.forall_mem_cons] at hl
  obtain ⟨hpressure, hspeed, hout, -⟩ := hl
  unfold calculateThroughput at h
  rw [toBase_inBase PRESSURE_mem hpressure, toBase_inBase SPEED_mem hspeed] at h
  dsimp only [bind, Except.bind] at h
  rw [fromBase_inUnit THROUGHPUT_mem hout] at h
  cases h
  rfl

theorem effectiveSpeed_numbers {input : EffectiveSpeedInput ν}
    (h : calculateEffectivePumpingSpeed input = .ok (.ok calculation))
    (hl : ∀ p ∈ named (.calculate_effective_pumping_speed input), Listed p.1 p.2) :
    calculation.numbers = formulaNumbers (.calculate_effective_pumping_speed input) := by
  simp only [named, List.forall_mem_cons] at hl
  obtain ⟨hspeed, hconductance, hout, -⟩ := hl
  unfold calculateEffectivePumpingSpeed at h
  rw [toBase_inBase SPEED_mem hspeed, toBase_inBase SPEED_mem hconductance] at h
  dsimp only [bind, Except.bind] at h
  rw [fromBase_inUnit SPEED_mem hout] at h
  cases h
  rfl

theorem pumpdown_numbers {input : PumpdownInput ν}
    (h : estimatePumpdownTime input = .ok (.ok calculation))
    (hl : ∀ p ∈ named (.estimate_pumpdown_time input), Listed p.1 p.2) :
    calculation.numbers = formulaNumbers (.estimate_pumpdown_time input) := by
  simp only [named, List.forall_mem_append, List.forall_mem_cons] at hl
  obtain ⟨⟨hvolume, hspeed, hinitial, htarget, -⟩, hload⟩ := hl
  unfold estimatePumpdownTime at h
  rw [toBase_inBase VOLUME_mem hvolume, toBase_inBase SPEED_mem hspeed,
    toBase_inBase PRESSURE_mem hinitial, toBase_inBase PRESSURE_mem htarget,
    toBaseOrZero_inBase THROUGHPUT_mem hload] at h
  dsimp only [bind, Except.bind, formulaNumbers, pumpdownNumbers] at h ⊢
  split at h
  · cases h
  · split at h
    · next hreached =>
        rw [if_pos hreached]
        cases h
        rfl
    · next hreached =>
        rw [if_neg hreached]
        cases h
        rfl

theorem flowRegime_numbers {input : FlowRegimeInput ν}
    (h : classifyFlowRegime input = .ok (.ok calculation))
    (hl : ∀ p ∈ named (.classify_flow_regime input), Listed p.1 p.2) :
    calculation.numbers = formulaNumbers (.classify_flow_regime input) := by
  simp only [named, List.forall_mem_cons] at hl
  obtain ⟨hpath, hlength, -⟩ := hl
  unfold classifyFlowRegime at h
  rw [toBase_inBase LENGTH_mem hpath, toBase_inBase LENGTH_mem hlength] at h
  cases h
  rfl

theorem conductanceSuccess_numbers {input : ConductanceInput ν} {diameterM lowerLs upperLs : ν}
    {regime : Regime}
    (h : conductanceSuccess input diameterM lowerLs upperLs regime = .ok (.ok calculation))
    (hl : Listed SPEED_TO_M3_S input.outputUnit) :
    calculation.numbers = [diameterM, input.temperatureK] ++
      (if regime = .transition then [lowerLs, upperLs] else [lowerLs]).map fun x =>
        inUnit (x * ofRat 1e-3) SPEED_TO_M3_S input.outputUnit := by
  unfold conductanceSuccess at h
  rw [factorOf_listed (positive_tables _ SPEED_mem) hl] at h
  cases h
  cases regime <;> rfl

omit [Sha256] in
theorem molecularConductance_number {input : ConductanceInput ν} {diameterCm x : ν}
    (h : molecularConductance input diameterCm = .ok (some x))
    (hl : ∀ p ∈ input.length.toList.map fun q => (LENGTH_TO_M, q.unit), Listed p.1 p.2) :
    x = molecularNumber input diameterCm := by
  unfold molecularConductance at h
  unfold molecularNumber
  cases hgeometry : input.geometry with
  | circular_orifice =>
    rw [hgeometry] at h
    cases h
    rfl
  | straight_circular_tube =>
    rw [hgeometry] at h
    cases hlength : input.length with
    | none =>
      rw [hlength] at h
      cases h
    | some length =>
      rw [hlength] at h hl
      dsimp only at h
      rw [toBase_inBase LENGTH_mem (hl _ List.mem_cons_self)] at h
      cases h
      rfl

theorem conductance_numbers {input : ConductanceInput ν}
    (h : calculateConductance input = .ok (.ok calculation))
    (hl : ∀ p ∈ named (.calculate_orifice_or_tube_conductance input), Listed p.1 p.2) :
    calculation.numbers = formulaNumbers (.calculate_orifice_or_tube_conductance input) := by
  simp only [named, List.forall_mem_append, List.forall_mem_cons] at hl
  obtain ⟨⟨⟨hdiameter, hout, -⟩, hlength⟩, hpressure⟩ := hl
  unfold calculateConductance at h
  split at h
  · cases h
  obtain ⟨_, hd, h⟩ := Except.bind_ok_iff.mp h
  rw [toBase_inBase LENGTH_mem hdiameter] at hd
  cases hd
  obtain ⟨molecular, hm, h⟩ := Except.bind_ok_iff.mp h
  cases molecular with
  | none => cases h
  | some molecularLs =>
    rw [molecularConductance_number hm hlength] at h
    dsimp only [formulaNumbers, conductanceNumbers] at h ⊢
    by_cases hmolecular : input.regime = .molecular
    · rw [if_pos hmolecular] at h
      rw [hmolecular]
      exact conductanceSuccess_numbers h hout
    · rw [if_neg hmolecular] at h
      split at h
      · cases h
      · cases hlen : input.length with
        | none =>
          rw [hlen] at h
          cases h
        | some length =>
          cases hmean : input.meanPressure with
          | none =>
            rw [hlen, hmean] at h
            cases h
          | some meanPressure =>
            cases hviscosity : input.dynamicViscosityPaS with
            | none =>
              rw [hlen, hmean, hviscosity] at h
              cases h
            | some dynamicViscosityPaS =>
              rw [hlen, hmean, hviscosity] at h
              rw [hlen] at hlength
              rw [hmean] at hpressure
              dsimp only at h
              rw [toBase_inBase LENGTH_mem (hlength _ List.mem_cons_self),
                toBase_inBase PRESSURE_mem (hpressure _ List.mem_cons_self)] at h
              dsimp only [bind, Except.bind] at h
              cases hregime : input.regime with
              | molecular => exact absurd hregime hmolecular
              | viscous =>
                rw [hregime, if_neg (by decide)] at h
                exact conductanceSuccess_numbers h hout
              | transition =>
                rw [hregime, if_pos rfl] at h
                exact conductanceSuccess_numbers h hout

omit [Sha256] in
theorem branchSpeed_number {pump : PumpBranch ν}
    (hl : ∀ p ∈ (SPEED_TO_M3_S, pump.speed.unit) ::
      pump.conductance.toList.map fun q => (SPEED_TO_M3_S, q.unit), Listed p.1 p.2) :
    branchSpeed pump = .ok (branchNumber pump) := by
  rw [List.forall_mem_cons] at hl
  unfold branchSpeed branchNumber
  rw [toBase_inBase SPEED_mem hl.1]
  cases hconductance : pump.conductance with
  | none => rfl
  | some conductance =>
    rw [hconductance] at hl
    dsimp only [bind, Except.bind]
    rw [toBase_inBase SPEED_mem (hl.2 _ List.mem_cons_self)]

theorem parallel_numbers {input : ParallelInput ν}
    (h : combineParallelPumps input = .ok (.ok calculation))
    (hl : ∀ p ∈ named (.combine_parallel_pumps input), Listed p.1 p.2) :
    calculation.numbers = formulaNumbers (.combine_parallel_pumps input) := by
  simp only [named] at hl
  have hout := hl _ List.mem_cons_self
  have hbranches : input.pumps.mapM branchSpeed = .ok (input.pumps.map branchNumber) := by
    refine mapM_ok fun pump hpump => branchSpeed_number fun p hp => hl p ?_
    exact List.mem_cons_of_mem _ (List.mem_flatMap.mpr ⟨pump, hpump, hp⟩)
  unfold combineParallelPumps at h
  rw [hbranches] at h
  dsimp only [bind, Except.bind] at h
  rw [fromBase_inUnit SPEED_mem hout] at h
  cases h
  rfl

theorem gasLoad_numbers {input : GasLoadInput ν}
    (h : estimateLeakOrOutgassingLoad input = .ok (.ok calculation))
    (hl : ∀ p ∈ named (.estimate_leak_or_outgassing_load input), Listed p.1 p.2) :
    calculation.numbers = formulaNumbers (.estimate_leak_or_outgassing_load input) := by
  simp only [named, List.forall_mem_append, List.forall_mem_cons] at hl
  obtain ⟨hout, ⟨hleak, hrate⟩, harea⟩ := hl
  unfold estimateLeakOrOutgassingLoad at h
  split at h
  · cases h
  split at h
  · cases h
  next hneeds =>
    obtain ⟨_, hk, h⟩ := Except.bind_ok_iff.mp h
    rw [toBaseOrZero_inBase THROUGHPUT_mem hleak] at hk
    cases hk
    obtain ⟨_, ho, h⟩ := Except.bind_ok_iff.mp h
    obtain ⟨_, hv, h⟩ := Except.bind_ok_iff.mp h
    rw [fromBase_inUnit THROUGHPUT_mem hout] at hv
    cases hv
    unfold outgassingLoad at ho
    dsimp only [formulaNumbers]
    cases hrated : input.outgassingRate with
    | none =>
      rw [hrated] at ho
      cases ho
      cases h
      rfl
    | some rate =>
      cases hsurface : input.surfaceArea with
      | none =>
        rw [hrated, hsurface] at hneeds
        exact absurd rfl hneeds
      | some area =>
        rw [hrated, hsurface] at ho
        rw [hrated] at hrate
        rw [hsurface] at harea
        dsimp only at ho
        rw [toBase_inBase OUTGASSING_mem (hrate _ List.mem_cons_self),
          toBase_inBase AREA_mem (harea _ List.mem_cons_self)] at ho
        cases ho
        cases h
        rfl

/-- **The numbers of a calculation** are those of the formulas, where every unit is in its
    table. -/
theorem numbers_of_listed {call : CalculatorCall ν}
    (h : executeCalculator call = .ok calculation) (hl : ∀ p ∈ named call, Listed p.1 p.2) :
    calculation.numbers = formulaNumbers call := by
  have hrun : runCalculator call = .ok (.ok calculation) := by
    unfold executeCalculator at h
    split at h
    · split at h
      · next hrun =>
          rw [h] at hrun
          exact hrun
      · cases h
    · cases h
  cases call with
  | convert_vacuum_units input => exact convert_numbers hrun hl
  | calculate_throughput input => exact throughput_numbers hrun hl
  | calculate_effective_pumping_speed input => exact effectiveSpeed_numbers hrun hl
  | estimate_pumpdown_time input => exact pumpdown_numbers hrun hl
  | classify_flow_regime input => exact flowRegime_numbers hrun hl
  | calculate_orifice_or_tube_conductance input => exact conductance_numbers hrun hl
  | combine_parallel_pumps input => exact parallel_numbers hrun hl
  | estimate_leak_or_outgassing_load input => exact gasLoad_numbers hrun hl

/-! ## 5. Sound calculations -/

omit [JsArithmetic ν] [CaseTables] [Sha256] in
theorem named_tables (call : CalculatorCall ν) : ∀ p ∈ named call, p.1 ∈ UNIT_TABLES := by
  cases call with
  | convert_vacuum_units input =>
    simp [named, input.quantity.factors_mem]
  | calculate_throughput input => simp [named, UNIT_TABLES]
  | calculate_effective_pumping_speed input => simp [named, UNIT_TABLES]
  | estimate_pumpdown_time input =>
    cases hload : input.gasLoad <;> simp [named, UNIT_TABLES, hload]
  | classify_flow_regime input => simp [named, UNIT_TABLES]
  | calculate_orifice_or_tube_conductance input =>
    cases hlength : input.length <;> cases hmean : input.meanPressure <;>
      simp [named, UNIT_TABLES, hlength, hmean]
  | combine_parallel_pumps input =>
    intro p hp
    rcases List.mem_cons.mp hp with rfl | hp
    · exact SPEED_mem
    · obtain ⟨pump, -, hp⟩ := List.mem_flatMap.mp hp
      rcases List.mem_cons.mp hp with rfl | hp
      · exact SPEED_mem
      · obtain ⟨conductance, -, rfl⟩ := List.mem_map.mp hp
        exact SPEED_mem
  | estimate_leak_or_outgassing_load input =>
    cases hleak : input.leakRate <;> cases hrate : input.outgassingRate <;>
      cases harea : input.surfaceArea <;> simp [named, UNIT_TABLES, hleak, hrate, harea]

omit [Sha256] in
/-- Every unit of the call has its SI factor, and every number of the calculation is finite. -/
def CallSound (call : CalculatorCall ν) (calculation : CalculationResult ν) : Prop :=
  (∀ p ∈ named call, UnitSound p.1 p.2) ∧ ∀ x ∈ calculation.numbers, isFinite x = true

/-- **Which accepted calls are sound**: those whose units are own entries with the prefixes
    written as the entries take them, and whose formula stays finite. -/
theorem calculator_units_sound_iff {call : CalculatorCall ν}
    (h : executeCalculator call = .ok calculation) :
    CallSound call calculation ↔
      (∀ p ∈ named call, WellSpelled p.1 p.2) ∧ ∀ x ∈ formulaNumbers call, isFinite x = true := by
  have hunits : (∀ p ∈ named call, UnitSound p.1 p.2) ↔ ∀ p ∈ named call, WellSpelled p.1 p.2 :=
    forall₂_congr fun p hp => unitSound_iff (named_tables call p hp) p.2
  unfold CallSound
  rw [hunits]
  refine and_congr_right fun hspelled => ?_
  rw [numbers_of_listed h fun p hp => (hspelled p hp).1]

end Calculations

end Formulas

end Units

/-- The letters of ASCII in lower case. -/
@[reducible] def asciiCase : CaseTables := ⟨fun text => text.map Char.toLower⟩

/-- A pressure in Pa. -/
def toPascal (value : ℚ) (unit : String) : CalculatorCall (Option ℚ) :=
  .convert_vacuum_units ⟨.pressure, some value, unit.toList, "Pa".toList⟩

theorem calculator_units_sound_MPa :
    let _ : CaseTables := asciiCase
    let _ : Sha256 := ⟨fun text => text⟩
    ∃ calculation, executeCalculator (toPascal 1 "MPa") = .ok calculation ∧
      CallSound (toPascal 1 "MPa") calculation := by
  let _ : CaseTables := asciiCase
  let _ : Sha256 := ⟨fun text => text⟩
  refine ⟨_, rfl, (calculator_units_sound_iff rfl).mpr ⟨?_, ?_⟩⟩
  · intro p hp
    rcases List.mem_cons.mp hp with rfl | hp
    · exact ⟨⟨1000000, by decide +kernel⟩, ⟨[(0, 1)], [(1, 1)]⟩, by decide +kernel,
        by decide +kernel⟩
    · rcases List.mem_cons.mp hp with rfl | hp
      · exact ⟨⟨1, by decide +kernel⟩, ⟨[], [(1, 1)]⟩, by decide +kernel, by decide +kernel⟩
      · nomatch hp
  · decide +kernel

/-- **A millipascal is taken for a megapascal.** -/
theorem milli_taken_for_mega :
    ¬ ∀ [CaseTables] [Sha256] (call : CalculatorCall (Option ℚ))
        (calculation : CalculationResult (Option ℚ)),
      executeCalculator call = .ok calculation → CallSound call calculation := by
  intro hclaim
  let _ : CaseTables := asciiCase
  let _ : Sha256 := ⟨fun text => text⟩
  obtain ⟨hunits, -⟩ := hclaim (toPascal 1 "mPa") _ rfl
  have hmilli := hunits (PRESSURE_TO_PA, "mPa".toList) List.mem_cons_self
  obtain ⟨-, r, hread, hexponent⟩ := (unitSound_iff PRESSURE_mem _).mp hmilli
  have hreading : reading (normalizeUnit "mPa".toList) = some ⟨[(0, 1)], [(1, 1)]⟩ := by
    decide +kernel
  rw [Option.mem_def.mp hread] at hreading
  cases hreading
  revert hexponent
  decide +kernel

end OpenVac.Agent
