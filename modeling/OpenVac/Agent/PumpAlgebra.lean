/-
  File:      OpenVac/Agent/PumpAlgebra.lean
  Subject:   The algebra of units and pumps, for the calculators on exact rationals.

  * `exactRationals` -- the rationals with one value for what is not a number.
  * `ConversionLaws`, `SeriesLaws`, `ParallelLaws` -- what runs have to do with one another.
  * `effectiveSpeed_listed`, `combinedSpeed_listed` -- the speeds the calculators report;
    `effectiveSpeed_unlisted`, `combinedSpeed_unlisted` -- none where a unit is not in the table.
  * `pump_unit_algebra` -- the laws hold where every unit is an entry of its table, and only
    there; `constructor_converted`.
-/
import OpenVac.Agent.TrustedProjection
import OpenVac.Agent.UnitFactors
import OpenVac.Lib.SeriesSum

namespace OpenVac.Agent

open JsString JsUrl JsArithmetic

/-! ## 1. Exact rationals -/

/-- The rationals, and `none` for what is not a number. Roots, logarithms and pi have no place
    here: the calculators of this module use none of them. -/
instance exactRationals : JsArithmetic (Option ℚ) where
  ofRat q := some q
  nan := none
  add a b := Option.map₂ (· + ·) a b
  sub a b := Option.map₂ (· - ·) a b
  mul a b := Option.map₂ (· * ·) a b
  div a b := b.bind fun d => if d = 0 then none else a.map (· / d)
  pow a n := a.map (· ^ n)
  sqrt _ := none
  log _ := none
  pi := none
  lt a b := match a, b with
    | some x, some y => decide (x < y)
    | _, _ => false
  eq a b := match a, b with
    | some x, some y => decide (x = y)
    | _, _ => false
  isFinite a := a.isSome
  text a := match a with
    | some x => (toString x).toList
    | none => "NaN".toList

@[simp] theorem rational_ofRat (q : ℚ) : (ofRat q : Option ℚ) = some q := rfl

@[simp] theorem rational_add (x y : ℚ) : (some x + some y : Option ℚ) = some (x + y) := rfl

@[simp] theorem rational_mul (x y : ℚ) : (some x * some y : Option ℚ) = some (x * y) := rfl

theorem rational_div {x y : ℚ} (h : y ≠ 0) : (some x / some y : Option ℚ) = some (x / y) :=
  if_neg h

@[simp] theorem rational_none_add (a : Option ℚ) : (none + a : Option ℚ) = none := rfl

@[simp] theorem rational_add_none (a : Option ℚ) : (a + none : Option ℚ) = none := by
  cases a <;> rfl

@[simp] theorem rational_none_div (a : Option ℚ) : (none / a : Option ℚ) = none := by
  cases a with
  | none => rfl
  | some d =>
    show (if d = 0 then none else none) = none
    exact ite_self _

@[simp] theorem rational_div_none (a : Option ℚ) : (a / none : Option ℚ) = none := rfl

theorem rational_positive {a : Option ℚ} : positive a = true ↔ ∃ x, a = some x ∧ 0 < x := by
  unfold positive
  cases a with
  | none =>
    constructor
    · intro h
      cases h
    · rintro ⟨_, h, -⟩
      cases h
  | some x =>
    show (true && decide (0 < x)) = true ↔ _
    simp

theorem inSeries_some {a b : ℚ} (ha : 0 < a) (hb : 0 < b) :
    inSeries (some a) (some b) = some (seriesSum a b) := by
  have hsum := reciprocals_pos ha hb
  unfold inSeries
  rw [rational_ofRat, rational_div ha.ne', rational_div hb.ne', rational_add,
    rational_div hsum.ne']
  rfl

theorem inSeries_none (a : Option ℚ) : inSeries a none = none := by
  unfold inSeries
  rw [rational_div_none, rational_add_none, rational_div_none]

theorem none_inSeries (a : Option ℚ) : inSeries none a = none := by
  unfold inSeries
  rw [rational_div_none, rational_none_add, rational_div_none]

section Runs

variable [CaseTables] [Sha256]

/-! ## 2. Runs -/

/-- The call is answered with a calculation. -/
def Accepted (call : CalculatorCall (Option ℚ)) : Prop :=
  ∃ calculation, executeCalculator call = .ok calculation

omit [CaseTables] [Sha256] in
/-- The number recorded as the value. -/
def valueOf (output : CalculationToolOutput (Option ℚ)) : Option ℚ :=
  match output with
  | .ok calculation =>
      match recorded calculation.result "value" with
      | some (.number x) => x
      | _ => none
  | .failed _ _ => none

omit [CaseTables] in
theorem valueOf_success (tool formulaId formulaVersion : String)
    (inputs : List (String × Scalar (Option ℚ))) (x : Option ℚ)
    (rest : List (String × Scalar (Option ℚ))) (assumptions warnings sourceIds : List String) :
    valueOf
      (success tool formulaId formulaVersion inputs (("value", .number x) :: rest) assumptions
        warnings sourceIds) = x := by
  simp [valueOf, success, recorded]

theorem run_of_accepted {call : CalculatorCall (Option ℚ)} (h : Accepted call) :
    schemaAccepts call = true ∧
      runCalculator call = .ok (executeCalculator call) := by
  obtain ⟨calculation, h⟩ := h
  unfold executeCalculator at h ⊢
  by_cases hschema : schemaAccepts call = true
  · refine ⟨hschema, ?_⟩
    rw [if_pos hschema] at h ⊢
    cases hrun : runCalculator call with
    | ok output => rfl
    | error message =>
      rw [hrun] at h
      cases h
  · rw [if_neg hschema] at h
    cases h

theorem accepted_of_value {call : CalculatorCall (Option ℚ)} {x : ℚ}
    (h : valueOf (executeCalculator call) = some x) : Accepted call := by
  cases hexecute : executeCalculator call with
  | ok calculation => exact ⟨calculation, hexecute⟩
  | failed missingInputs warnings =>
    rw [hexecute] at h
    cases h

theorem execute_of_run {call : CalculatorCall (Option ℚ)}
    {output : CalculationToolOutput (Option ℚ)} (hschema : schemaAccepts call = true)
    (hrun : runCalculator call = .ok output) : executeCalculator call = output := by
  unfold executeCalculator
  rw [if_pos hschema, hrun]

/-! ## 3. Speeds -/

omit [Sha256] in
/-- A speed in m³/s. -/
def speedOf (quantity : Quantity (Option ℚ)) : ℚ :=
  quantity.value.getD 0 * tableFactor SPEED_TO_M3_S quantity.unit

/-- The speed the calculator reports for a pump behind a conductance, in m³/s. -/
def effectiveSpeed (input : EffectiveSpeedInput (Option ℚ)) : Option ℚ :=
  (valueOf (executeCalculator (.calculate_effective_pumping_speed input))).map
    (· * tableFactor SPEED_TO_M3_S input.outputUnit)

/-- The speed the calculator reports for parallel pumps, in m³/s. -/
def combinedSpeed (input : ParallelInput (Option ℚ)) : Option ℚ :=
  (valueOf (executeCalculator (.combine_parallel_pumps input))).map
    (· * tableFactor SPEED_TO_M3_S input.outputUnit)

omit [Sha256] in
/-- The speed of a branch at the inlet it shares with the others. -/
def inletSpeed (pump : PumpBranch (Option ℚ)) : ℚ :=
  match pump.conductance with
  | none => speedOf pump.speed
  | some conductance => seriesSum (speedOf pump.speed) (speedOf conductance)

omit [Sha256] in
def ConvertInput.UnitsListed (input : ConvertInput (Option ℚ)) : Prop :=
  Listed input.quantity.factors input.fromUnit ∧ Listed input.quantity.factors input.toUnit

omit [Sha256] in
def EffectiveSpeedInput.UnitsListed (input : EffectiveSpeedInput (Option ℚ)) : Prop :=
  Listed SPEED_TO_M3_S input.pumpSpeed.unit ∧ Listed SPEED_TO_M3_S input.conductance.unit ∧
    Listed SPEED_TO_M3_S input.outputUnit

omit [Sha256] in
def PumpBranch.UnitsListed (pump : PumpBranch (Option ℚ)) : Prop :=
  Listed SPEED_TO_M3_S pump.speed.unit ∧
    ∀ conductance ∈ pump.conductance, Listed SPEED_TO_M3_S conductance.unit

omit [Sha256] in
def ParallelInput.UnitsListed (input : ParallelInput (Option ℚ)) : Prop :=
  (∀ pump ∈ input.pumps, pump.UnitsListed) ∧ Listed SPEED_TO_M3_S input.outputUnit

omit [CaseTables] [Sha256] in
theorem positive_factors (quantity : UnitQuantity) : PositiveTable quantity.factors := by
  cases quantity with
  | pressure => exact positive_PRESSURE_TO_PA
  | pumping_speed => exact positive_SPEED_TO_M3_S
  | throughput => exact positive_THROUGHPUT_TO_PA_M3_S

omit [Sha256] in
theorem toBase_speed {quantity : Quantity (Option ℚ)} (hlisted : Listed SPEED_TO_M3_S quantity.unit)
    (h : positiveQuantity quantity = true) :
    toBase quantity.value quantity.unit SPEED_TO_M3_S = .ok (some (speedOf quantity)) ∧
      0 < speedOf quantity := by
  obtain ⟨x, hx, hpos⟩ := rational_positive.mp (Bool.and_eq_true_iff.mp h).1
  unfold speedOf
  rw [toBase_listed positive_SPEED_TO_M3_S hlisted, hx]
  exact ⟨rfl, mul_pos hpos (tableFactor_pos positive_SPEED_TO_M3_S hlisted)⟩

omit [Sha256] in
theorem fromBase_some {factors : UnitTable} (hfactors : PositiveTable factors) {unit : Text}
    (hlisted : Listed factors unit) (x : ℚ) :
    fromBase (some x : Option ℚ) unit factors = .ok (some (x / tableFactor factors unit)) := by
  rw [fromBase_listed hfactors hlisted, rational_ofRat,
    rational_div (tableFactor_pos hfactors hlisted).ne']

omit [Sha256] in
/-- What is no number, or is asked for in a unit outside the table, is no number. -/
theorem fromBase_unlisted {factors : UnitTable} {unit : Text} {x y : Option ℚ}
    (h : fromBase x unit factors = .ok y) (hnone : x = none ∨ ¬ Listed factors unit) :
    y = none := by
  rcases fromBase_ok h with ⟨hlisted, rfl⟩ | ⟨-, rfl⟩
  · rcases hnone with rfl | hnot
    · exact rational_none_div _
    · exact absurd hlisted hnot
  · rfl

omit [Sha256] in
theorem toBase_unlisted {factors : UnitTable} {unit : Text} {x y : Option ℚ}
    (h : toBase x unit factors = .ok y) (hnot : ¬ Listed factors unit) : y = none := by
  rcases toBase_ok h with ⟨hlisted, -⟩ | ⟨-, rfl⟩
  · exact absurd hlisted hnot
  · rfl

/-! ## 4. A pump behind a conductance -/

/-- What accepted runs have to do with one another: the speed is below the pump's and below the
    conductance, more of either gives more, and a further conductance gives no more. -/
structure SeriesLaws (input : EffectiveSpeedInput (Option ℚ)) (speed : ℚ) : Prop where
  reported : effectiveSpeed input = some speed
  pos : 0 < speed
  lt_pump : speed < speedOf input.pumpSpeed
  lt_conductance : speed < speedOf input.conductance
  increasing : ∀ more : EffectiveSpeedInput (Option ℚ),
    Accepted (.calculate_effective_pumping_speed more) → more.UnitsListed →
      speedOf input.pumpSpeed ≤ speedOf more.pumpSpeed →
        speedOf input.conductance ≤ speedOf more.conductance →
          (speedOf input.pumpSpeed < speedOf more.pumpSpeed ∨
            speedOf input.conductance < speedOf more.conductance) →
            ∃ larger, effectiveSpeed more = some larger ∧ speed < larger
  restricted : ∀ further : EffectiveSpeedInput (Option ℚ),
    further.pumpSpeed =
        ⟨valueOf (executeCalculator (.calculate_effective_pumping_speed input)),
          input.outputUnit⟩ →
      Accepted (.calculate_effective_pumping_speed further) → further.UnitsListed →
        ∃ less, effectiveSpeed further = some less ∧ less ≤ speed

theorem effectiveSpeed_run {input : EffectiveSpeedInput (Option ℚ)} {a b c : Option ℚ}
    (hschema : schemaAccepts (.calculate_effective_pumping_speed input) = true)
    (ha : toBase input.pumpSpeed.value input.pumpSpeed.unit SPEED_TO_M3_S = .ok a)
    (hb : toBase input.conductance.value input.conductance.unit SPEED_TO_M3_S = .ok b)
    (hc : fromBase (inSeries a b) input.outputUnit SPEED_TO_M3_S = .ok c) :
    Accepted (.calculate_effective_pumping_speed input) ∧
      valueOf (executeCalculator (.calculate_effective_pumping_speed input)) = c := by
  have hrun : runCalculator (.calculate_effective_pumping_speed input) =
      calculateEffectivePumpingSpeed input := rfl
  unfold calculateEffectivePumpingSpeed at hrun
  rw [ha] at hrun
  simp only [bind, Except.bind] at hrun
  rw [hb] at hrun
  simp only at hrun
  rw [hc] at hrun
  have hexecute := execute_of_run hschema hrun
  refine ⟨⟨_, hexecute⟩, ?_⟩
  rw [hexecute]
  exact valueOf_success _ _ _ _ _ _ _ _ _

theorem effectiveSpeed_accepted {input : EffectiveSpeedInput (Option ℚ)}
    (h : Accepted (.calculate_effective_pumping_speed input)) :
    ∃ a b c, toBase input.pumpSpeed.value input.pumpSpeed.unit SPEED_TO_M3_S = .ok a ∧
      toBase input.conductance.value input.conductance.unit SPEED_TO_M3_S = .ok b ∧
        fromBase (inSeries a b) input.outputUnit SPEED_TO_M3_S = .ok c := by
  have hrun : calculateEffectivePumpingSpeed input = .ok _ := (run_of_accepted h).2
  unfold calculateEffectivePumpingSpeed at hrun
  cases ha : toBase input.pumpSpeed.value input.pumpSpeed.unit SPEED_TO_M3_S with
  | error message =>
    rw [ha] at hrun
    cases hrun
  | ok a =>
    rw [ha] at hrun
    simp only [bind, Except.bind] at hrun
    cases hb : toBase input.conductance.value input.conductance.unit SPEED_TO_M3_S with
    | error message =>
      rw [hb] at hrun
      cases hrun
    | ok b =>
      rw [hb] at hrun
      simp only at hrun
      cases hc : fromBase (inSeries a b) input.outputUnit SPEED_TO_M3_S with
      | error message =>
        rw [hc] at hrun
        cases hrun
      | ok c => exact ⟨a, b, c, rfl, rfl, hc⟩

/-- **The speed the calculator reports.** -/
theorem effectiveSpeed_listed {input : EffectiveSpeedInput (Option ℚ)}
    (hschema : schemaAccepts (.calculate_effective_pumping_speed input) = true)
    (hunits : input.UnitsListed) :
    Accepted (.calculate_effective_pumping_speed input) ∧
      effectiveSpeed input =
        some (seriesSum (speedOf input.pumpSpeed) (speedOf input.conductance)) ∧
      0 < speedOf input.pumpSpeed ∧ 0 < speedOf input.conductance := by
  obtain ⟨hpump, hconductance, hout⟩ := hunits
  have hschema' := Bool.and_eq_true_iff.mp hschema
  obtain ⟨ha, hapos⟩ := toBase_speed hpump hschema'.1
  obtain ⟨hb, hbpos⟩ := toBase_speed hconductance hschema'.2
  have hfactor := tableFactor_pos positive_SPEED_TO_M3_S hout
  have hc := fromBase_some positive_SPEED_TO_M3_S hout
    (seriesSum (speedOf input.pumpSpeed) (speedOf input.conductance))
  rw [← inSeries_some hapos hbpos] at hc
  obtain ⟨haccepted, hvalue⟩ := effectiveSpeed_run hschema ha hb hc
  refine ⟨haccepted, ?_, hapos, hbpos⟩
  unfold effectiveSpeed
  rw [hvalue, Option.map_some, div_mul_cancel₀ _ hfactor.ne']

/-- **No speed where a unit is not in the table.** -/
theorem effectiveSpeed_unlisted {input : EffectiveSpeedInput (Option ℚ)}
    (h : Accepted (.calculate_effective_pumping_speed input)) (hunits : ¬ input.UnitsListed) :
    effectiveSpeed input = none := by
  obtain ⟨a, b, c, ha, hb, hc⟩ := effectiveSpeed_accepted h
  have hnone : inSeries a b = none ∨ ¬ Listed SPEED_TO_M3_S input.outputUnit := by
    by_cases hpump : Listed SPEED_TO_M3_S input.pumpSpeed.unit
    · by_cases hconductance : Listed SPEED_TO_M3_S input.conductance.unit
      · exact Or.inr fun hout => hunits ⟨hpump, hconductance, hout⟩
      · left
        rw [toBase_unlisted hb hconductance, inSeries_none]
    · left
      rw [toBase_unlisted ha hpump, none_inSeries]
  have hvalue := (effectiveSpeed_run (run_of_accepted h).1 ha hb hc).2
  unfold effectiveSpeed
  rw [hvalue, fromBase_unlisted hc hnone]
  rfl

theorem seriesLaws_iff {input : EffectiveSpeedInput (Option ℚ)}
    (h : Accepted (.calculate_effective_pumping_speed input)) :
    (∃ speed, SeriesLaws input speed) ↔ input.UnitsListed := by
  constructor
  · rintro ⟨speed, hlaws⟩
    by_contra hunits
    have hnone := hlaws.reported
    rw [effectiveSpeed_unlisted h hunits] at hnone
    cases hnone
  · intro hunits
    obtain ⟨-, hspeed, hpump, hconductance⟩ :=
      effectiveSpeed_listed (run_of_accepted h).1 hunits
    refine ⟨_, hspeed, seriesSum_pos hpump hconductance, seriesSum_lt_left hpump hconductance,
      seriesSum_lt_right hpump hconductance, ?_, ?_⟩
    · intro more hmore hlisted hpumpLe hconductanceLe hlt
      obtain ⟨-, hmoreSpeed, -, -⟩ := effectiveSpeed_listed (run_of_accepted hmore).1 hlisted
      exact ⟨_, hmoreSpeed,
        seriesSum_lt_seriesSum hpump hconductance hpumpLe hconductanceLe hlt⟩
    · intro further hpumpSpeed hfurther hlisted
      obtain ⟨-, hless, hpump', hconductance'⟩ :=
        effectiveSpeed_listed (run_of_accepted hfurther).1 hlisted
      -- the pump of the further run is the pump and the conductance of this one
      have hsame : speedOf further.pumpSpeed =
          seriesSum (speedOf input.pumpSpeed) (speedOf input.conductance) := by
        unfold effectiveSpeed at hspeed
        obtain ⟨value, hvalue, hfactor⟩ := Option.map_eq_some_iff.mp hspeed
        unfold speedOf
        rw [hpumpSpeed, hvalue]
        exact hfactor
      rw [← hsame]
      exact ⟨_, hless, (seriesSum_lt_left hpump' hconductance').le⟩

/-! ## 5. Pumps in parallel -/

/-- What accepted runs have to do with one another: the speed is the sum of the speeds at the
    inlet, each of them what the calculator above reports; the order does not matter, and a
    conductance in front of a pump gives no more. -/
structure ParallelLaws (input : ParallelInput (Option ℚ)) (speed : ℚ) : Prop where
  reported : combinedSpeed input = some speed
  sum : speed = (input.pumps.map inletSpeed).sum
  inlet : ∀ pump ∈ input.pumps, ∀ conductance ∈ pump.conductance, ∀ outputUnit,
    Listed SPEED_TO_M3_S outputUnit →
      effectiveSpeed ⟨pump.speed, conductance, outputUnit⟩ = some (inletSpeed pump)
  any_order : ∀ pumps, pumps.Perm input.pumps →
    combinedSpeed { input with pumps := pumps } = some speed
  restricted : ∀ before pump after, input.pumps = before ++ pump :: after →
    ∀ conductance, pump.conductance = none → positiveQuantity conductance = true →
      Listed SPEED_TO_M3_S conductance.unit →
        ∃ less,
          combinedSpeed
              { input with
                pumps := before ++ { pump with conductance := some conductance } :: after } =
            some less ∧ less ≤ speed

omit [CaseTables] [Sha256] in
theorem mapM_ok {α β : Type} {f : α → Except Text β} {g : α → β} {items : List α}
    (h : ∀ item ∈ items, f item = .ok (g item)) : items.mapM f = .ok (items.map g) := by
  induction items with
  | nil => rfl
  | cons item items ih =>
    rw [List.mapM_cons, h item List.mem_cons_self,
      ih fun other hother => h other (List.mem_cons_of_mem _ hother)]
    rfl

omit [CaseTables] [Sha256] in
theorem mem_of_mapM_ok {α β : Type} {f : α → Except Text β} {items : List α} {results : List β}
    (h : items.mapM f = .ok results) {item : α} (hitem : item ∈ items) :
    ∃ result ∈ results, f item = .ok result := by
  induction items generalizing results with
  | nil => nomatch hitem
  | cons first items ih =>
    rw [List.mapM_cons] at h
    cases hfirst : f first with
    | error message =>
      rw [hfirst] at h
      cases h
    | ok result =>
      rw [hfirst] at h
      cases hrest : items.mapM f with
      | error message =>
        rw [hrest] at h
        cases h
      | ok rest =>
        rw [hrest] at h
        cases h
        rcases List.mem_cons.mp hitem with rfl | hitem
        · exact ⟨result, List.mem_cons_self, hfirst⟩
        · obtain ⟨other, hother, hother'⟩ := ih hrest hitem
          exact ⟨other, List.mem_cons_of_mem _ hother, hother'⟩

omit [Sha256] in
theorem branchSpeed_listed {pump : PumpBranch (Option ℚ)} (hunits : pump.UnitsListed)
    (hspeed : positiveQuantity pump.speed = true)
    (hconductance : pump.conductance.all positiveQuantity = true) :
    branchSpeed pump = .ok (some (inletSpeed pump)) ∧ 0 < inletSpeed pump := by
  obtain ⟨ha, hapos⟩ := toBase_speed hunits.1 hspeed
  unfold branchSpeed inletSpeed
  rw [ha]
  cases hpump : pump.conductance with
  | none => exact ⟨rfl, hapos⟩
  | some conductance =>
    rw [hpump] at hconductance
    obtain ⟨hb, hbpos⟩ := toBase_speed (hunits.2 conductance hpump) hconductance
    simp only [bind, Except.bind]
    rw [hb]
    simp only
    rw [inSeries_some hapos hbpos]
    exact ⟨rfl, seriesSum_pos hapos hbpos⟩

omit [Sha256] in
theorem branchSpeed_unlisted {pump : PumpBranch (Option ℚ)} {speed : Option ℚ}
    (h : branchSpeed pump = .ok speed) (hunits : ¬ pump.UnitsListed) : speed = none := by
  unfold branchSpeed at h
  cases ha : toBase pump.speed.value pump.speed.unit SPEED_TO_M3_S with
  | error message =>
    rw [ha] at h
    cases h
  | ok a =>
    rw [ha] at h
    simp only [bind, Except.bind] at h
    cases hpump : pump.conductance with
    | none =>
      rw [hpump] at h
      cases h
      refine toBase_unlisted ha fun hlisted => hunits ⟨hlisted, ?_⟩
      intro conductance hconductance
      rw [hpump] at hconductance
      cases hconductance
    | some conductance =>
      rw [hpump] at h
      simp only at h
      cases hb : toBase conductance.value conductance.unit SPEED_TO_M3_S with
      | error message =>
        rw [hb] at h
        cases h
      | ok b =>
        rw [hb] at h
        cases h
        by_cases hlisted : Listed SPEED_TO_M3_S pump.speed.unit
        · have hnot : ¬ Listed SPEED_TO_M3_S conductance.unit := by
            intro hlisted'
            refine hunits ⟨hlisted, ?_⟩
            intro other hother
            rw [hpump] at hother
            cases hother
            exact hlisted'
          rw [toBase_unlisted hb hnot, inSeries_none]
        · rw [toBase_unlisted ha hlisted, none_inSeries]

theorem combinedSpeed_run {input : ParallelInput (Option ℚ)} {speeds : List (Option ℚ)}
    {c : Option ℚ} (hschema : schemaAccepts (.combine_parallel_pumps input) = true)
    (hspeeds : input.pumps.mapM branchSpeed = .ok speeds)
    (hc : fromBase (speeds.foldl (· + ·) (ofRat 0)) input.outputUnit SPEED_TO_M3_S = .ok c) :
    valueOf (executeCalculator (.combine_parallel_pumps input)) = c := by
  have hrun : runCalculator (.combine_parallel_pumps input) = combineParallelPumps input := rfl
  unfold combineParallelPumps at hrun
  rw [hspeeds] at hrun
  simp only [bind, Except.bind] at hrun
  rw [hc] at hrun
  rw [execute_of_run hschema hrun]
  exact valueOf_success _ _ _ _ _ _ _ _ _

theorem combinedSpeed_accepted {input : ParallelInput (Option ℚ)}
    (h : Accepted (.combine_parallel_pumps input)) :
    ∃ speeds c, input.pumps.mapM branchSpeed = .ok speeds ∧
      fromBase (speeds.foldl (· + ·) (ofRat 0)) input.outputUnit SPEED_TO_M3_S = .ok c := by
  have hrun : combineParallelPumps input = .ok _ := (run_of_accepted h).2
  unfold combineParallelPumps at hrun
  cases hspeeds : input.pumps.mapM branchSpeed with
  | error message =>
    rw [hspeeds] at hrun
    cases hrun
  | ok speeds =>
    rw [hspeeds] at hrun
    simp only [bind, Except.bind] at hrun
    cases hc : fromBase (speeds.foldl (· + ·) (ofRat 0)) input.outputUnit SPEED_TO_M3_S with
    | error message =>
      rw [hc] at hrun
      cases hrun
    | ok c => exact ⟨speeds, c, rfl, hc⟩

omit [CaseTables] [Sha256] in
theorem schemaAccepts_parallel {input : ParallelInput (Option ℚ)} :
    schemaAccepts (.combine_parallel_pumps input) = true ↔
      (input.pumps ≠ [] ∧ input.pumps.length ≤ 32) ∧
        ∀ pump ∈ input.pumps, positiveQuantity pump.speed = true ∧
          pump.conductance.all positiveQuantity = true := by
  simp [schemaAccepts]

/-- **The speed the calculator reports.** -/
theorem combinedSpeed_listed {input : ParallelInput (Option ℚ)}
    (hschema : schemaAccepts (.combine_parallel_pumps input) = true)
    (hunits : input.UnitsListed) :
    combinedSpeed input = some (input.pumps.map inletSpeed).sum := by
  obtain ⟨hpumps, hout⟩ := hunits
  have hpositive := (schemaAccepts_parallel.mp hschema).2
  have hspeeds : input.pumps.mapM branchSpeed =
      .ok (input.pumps.map fun pump => some (inletSpeed pump)) :=
    mapM_ok fun pump hpump =>
      (branchSpeed_listed (hpumps pump hpump) (hpositive pump hpump).1 (hpositive pump hpump).2).1
  have hfold : (input.pumps.map fun pump => some (inletSpeed pump)).foldl (· + ·) (ofRat 0) =
      (some (input.pumps.map inletSpeed).sum : Option ℚ) := by
    have h := foldl_some rational_add (input.pumps.map inletSpeed) 0
    rw [List.map_map, zero_add] at h
    exact h
  have hfactor := tableFactor_pos positive_SPEED_TO_M3_S hout
  have hc := fromBase_some positive_SPEED_TO_M3_S hout (input.pumps.map inletSpeed).sum
  rw [← hfold] at hc
  unfold combinedSpeed
  rw [combinedSpeed_run hschema hspeeds hc, Option.map_some, div_mul_cancel₀ _ hfactor.ne']

/-- **No speed where a unit is not in the table.** -/
theorem combinedSpeed_unlisted {input : ParallelInput (Option ℚ)}
    (h : Accepted (.combine_parallel_pumps input)) (hunits : ¬ input.UnitsListed) :
    combinedSpeed input = none := by
  obtain ⟨speeds, c, hspeeds, hc⟩ := combinedSpeed_accepted h
  have hnone : speeds.foldl (· + ·) (ofRat 0) = none ∨ ¬ Listed SPEED_TO_M3_S input.outputUnit := by
    by_cases hout : Listed SPEED_TO_M3_S input.outputUnit
    · left
      have hpump : ∃ pump ∈ input.pumps, ¬ pump.UnitsListed := by
        by_contra hall
        push Not at hall
        exact hunits ⟨hall, hout⟩
      obtain ⟨pump, hmem, hnot⟩ := hpump
      obtain ⟨speed, hspeed, hbranch⟩ := mem_of_mapM_ok hspeeds hmem
      rw [branchSpeed_unlisted hbranch hnot] at hspeed
      exact foldl_none rational_none_add rational_add_none hspeed _
    · exact Or.inr hout
  unfold combinedSpeed
  rw [combinedSpeed_run (run_of_accepted h).1 hspeeds hc, fromBase_unlisted hc hnone]
  rfl

theorem parallelLaws_iff {input : ParallelInput (Option ℚ)}
    (h : Accepted (.combine_parallel_pumps input)) :
    (∃ speed, ParallelLaws input speed) ↔ input.UnitsListed := by
  constructor
  · rintro ⟨speed, hlaws⟩
    by_contra hunits
    have hnone := hlaws.reported
    rw [combinedSpeed_unlisted h hunits] at hnone
    cases hnone
  · intro hunits
    have hschema := (run_of_accepted h).1
    obtain ⟨⟨hne, hlength⟩, hpositive⟩ := schemaAccepts_parallel.mp hschema
    refine ⟨_, combinedSpeed_listed hschema hunits, rfl, ?_, ?_, ?_⟩
    · intro pump hpump conductance hconductance outputUnit hout
      have hbranch := hpositive pump hpump
      rw [Option.mem_def.mp hconductance] at hbranch
      have hseries : schemaAccepts
          (.calculate_effective_pumping_speed
            (⟨pump.speed, conductance, outputUnit⟩ : EffectiveSpeedInput (Option ℚ))) = true :=
        Bool.and_eq_true_iff.mpr hbranch
      have hpumpUnits := hunits.1 pump hpump
      rw [(effectiveSpeed_listed hseries
        ⟨hpumpUnits.1, hpumpUnits.2 conductance hconductance, hout⟩).2.1]
      unfold inletSpeed
      rw [Option.mem_def.mp hconductance]
    · intro pumps hperm
      have hsum : (pumps.map inletSpeed).sum = (input.pumps.map inletSpeed).sum :=
        (hperm.map inletSpeed).sum_eq
      rw [← hsum]
      refine combinedSpeed_listed (schemaAccepts_parallel.mpr ⟨⟨?_, ?_⟩, ?_⟩) ⟨?_, hunits.2⟩
      · intro hnil
        cases hnil
        exact hne hperm.symm.eq_nil
      · exact hperm.length_eq.trans_le hlength
      · exact fun pump hpump => hpositive pump (hperm.mem_iff.mp hpump)
      · exact fun pump hpump => hunits.1 pump (hperm.mem_iff.mp hpump)
    · intro before pump after hpumps conductance hnone hconductance hlisted
      have hpump : pump ∈ input.pumps := by
        rw [hpumps]
        exact List.mem_append_right _ List.mem_cons_self
      -- the branch with the conductance, and the other branches as they were
      have hbranch : ∀ other ∈ before ++ { pump with conductance := some conductance } :: after,
          other.UnitsListed ∧ positiveQuantity other.speed = true ∧
            other.conductance.all positiveQuantity = true := by
        intro other hother
        have hcases : other = { pump with conductance := some conductance } ∨
            other ∈ input.pumps := by
          rw [hpumps]
          rcases List.mem_append.mp hother with hother | hother
          · exact Or.inr (List.mem_append_left _ hother)
          · rcases List.mem_cons.mp hother with rfl | hother
            · exact Or.inl rfl
            · exact Or.inr (List.mem_append_right _ (List.mem_cons_of_mem _ hother))
        rcases hcases with rfl | hother
        · refine ⟨⟨(hunits.1 pump hpump).1, ?_⟩, (hpositive pump hpump).1, hconductance⟩
          intro other hother
          cases hother
          exact hlisted
        · exact ⟨hunits.1 other hother, hpositive other hother⟩
      have hlength' : (before ++ { pump with conductance := some conductance } :: after).length ≤
          32 := by
        rw [hpumps] at hlength
        simpa using hlength
      refine ⟨_, combinedSpeed_listed
        (schemaAccepts_parallel.mpr ⟨⟨?_, hlength'⟩, fun other hother => (hbranch other hother).2⟩)
        ⟨fun other hother => (hbranch other hother).1, hunits.2⟩, ?_⟩
      · exact List.append_ne_nil_of_right_ne_nil _ (List.cons_ne_nil _ _)
      · have hspeed := (toBase_speed (hunits.1 pump hpump).1 (hpositive pump hpump).1).2
        have hconductancePos := (toBase_speed hlisted hconductance).2
        have hless :
            inletSpeed { pump with conductance := some conductance } ≤ inletSpeed pump := by
          unfold inletSpeed
          rw [hnone]
          exact (seriesSum_lt_left hspeed hconductancePos).le
        rw [hpumps]
        simp only [List.map_append, List.map_cons, List.sum_append, List.sum_cons]
        linarith

/-! ## 6. Units -/

/-- To the other unit and back. -/
def ConversionLaws (input : ConvertInput (Option ℚ)) : Prop :=
  ∃ x y, input.value = some x ∧
    valueOf (executeCalculator (.convert_vacuum_units input)) = some y ∧
      valueOf
          (executeCalculator
            (.convert_vacuum_units
              { input with value := some y, fromUnit := input.toUnit, toUnit := input.fromUnit })) =
        some x

theorem convert_run {input : ConvertInput (Option ℚ)} {a c : Option ℚ}
    (hschema : schemaAccepts (.convert_vacuum_units input) = true)
    (ha : toBase input.value input.fromUnit input.quantity.factors = .ok a)
    (hc : fromBase a input.toUnit input.quantity.factors = .ok c) :
    valueOf (executeCalculator (.convert_vacuum_units input)) = c := by
  have hrun : runCalculator (.convert_vacuum_units input) = convertVacuumUnits input := rfl
  unfold convertVacuumUnits at hrun
  simp only at hrun
  rw [ha] at hrun
  simp only [bind, Except.bind] at hrun
  rw [hc] at hrun
  rw [execute_of_run hschema hrun]
  exact valueOf_success _ _ _ _ _ _ _ _ _

theorem convert_accepted {input : ConvertInput (Option ℚ)}
    (h : Accepted (.convert_vacuum_units input)) :
    ∃ a c, toBase input.value input.fromUnit input.quantity.factors = .ok a ∧
      fromBase a input.toUnit input.quantity.factors = .ok c := by
  have hrun : convertVacuumUnits input = .ok _ := (run_of_accepted h).2
  unfold convertVacuumUnits at hrun
  cases ha : toBase input.value input.fromUnit input.quantity.factors with
  | error message =>
    simp only [ha] at hrun
    cases hrun
  | ok a =>
    simp only [ha, bind, Except.bind] at hrun
    cases hc : fromBase a input.toUnit input.quantity.factors with
    | error message =>
      simp only [hc] at hrun
      cases hrun
    | ok c => exact ⟨a, c, rfl, hc⟩

/-- **The converted value.** -/
theorem convert_listed {input : ConvertInput (Option ℚ)} {x : ℚ}
    (hschema : schemaAccepts (.convert_vacuum_units input) = true) (hx : input.value = some x)
    (hunits : input.UnitsListed) :
    valueOf (executeCalculator (.convert_vacuum_units input)) =
      some (x * tableFactor input.quantity.factors input.fromUnit /
        tableFactor input.quantity.factors input.toUnit) := by
  have hfactors := positive_factors input.quantity
  have ha := toBase_listed hfactors hunits.1 input.value
  rw [hx, rational_ofRat, rational_mul] at ha
  rw [← hx] at ha
  exact convert_run hschema ha (fromBase_some hfactors hunits.2 _)

theorem conversionLaws_iff {input : ConvertInput (Option ℚ)}
    (h : Accepted (.convert_vacuum_units input)) :
    ConversionLaws input ↔ input.UnitsListed := by
  have hschema := (run_of_accepted h).1
  constructor
  · rintro ⟨x, y, -, hy, -⟩
    by_contra hunits
    obtain ⟨a, c, ha, hc⟩ := convert_accepted h
    have hnone : a = none ∨ ¬ Listed input.quantity.factors input.toUnit := by
      by_cases hto : Listed input.quantity.factors input.toUnit
      · exact Or.inl (toBase_unlisted ha fun hfrom => hunits ⟨hfrom, hto⟩)
      · exact Or.inr hto
    rw [convert_run hschema ha hc, fromBase_unlisted hc hnone] at hy
    cases hy
  · intro hunits
    have hfactors := positive_factors input.quantity
    have hfrom := tableFactor_pos hfactors hunits.1
    have hto := tableFactor_pos hfactors hunits.2
    simp only [schemaAccepts, Bool.and_eq_true] at hschema
    obtain ⟨⟨hfinite, hfromUnit⟩, htoUnit⟩ := hschema
    obtain ⟨x, hx⟩ := Option.isSome_iff_exists.mp hfinite
    have hthere := convert_listed (run_of_accepted h).1 hx hunits
    refine ⟨x, _, hx, hthere, ?_⟩
    have hback : schemaAccepts
        (.convert_vacuum_units
          { input with
            value := some (x * tableFactor input.quantity.factors input.fromUnit /
              tableFactor input.quantity.factors input.toUnit)
            fromUnit := input.toUnit
            toUnit := input.fromUnit }) = true := by
      simp only [schemaAccepts, Bool.and_eq_true]
      exact ⟨⟨rfl, htoUnit⟩, hfromUnit⟩
    rw [convert_listed hback rfl ⟨hunits.2, hunits.1⟩]
    congr 1
    show x * tableFactor input.quantity.factors input.fromUnit /
        tableFactor input.quantity.factors input.toUnit *
          tableFactor input.quantity.factors input.toUnit /
        tableFactor input.quantity.factors input.fromUnit = x
    rw [div_mul_cancel₀ _ hto.ne', mul_div_cancel_right₀ _ hfrom.ne']

/-! ## 7. The laws -/

/-- **The laws hold of the runs whose units are entries of their tables, and of no others.** -/
theorem pump_unit_algebra :
    (∀ input, Accepted (.convert_vacuum_units input) →
      (ConversionLaws input ↔ input.UnitsListed)) ∧
    (∀ input, Accepted (.calculate_effective_pumping_speed input) →
      ((∃ speed, SeriesLaws input speed) ↔ input.UnitsListed)) ∧
    (∀ input, Accepted (.combine_parallel_pumps input) →
      ((∃ speed, ParallelLaws input speed) ↔ input.UnitsListed)) :=
  ⟨fun _ => conversionLaws_iff, fun _ => seriesLaws_iff, fun _ => parallelLaws_iff⟩

end Runs

@[reducible] def unitsAsWritten : CaseTables := ⟨id⟩

/-- A speed in m³/s. -/
def cubicMetres (x : ℚ) : Quantity (Option ℚ) := ⟨some x, "m3/s".toList⟩

/-- A speed in what every object inherits. -/
def inConstructors (x : ℚ) : Quantity (Option ℚ) := ⟨some x, "constructor".toList⟩

theorem pump_unit_algebra_pair :
    let _ : CaseTables := unitsAsWritten
    let _ : Sha256 := ⟨fun text => text⟩
    ConversionLaws ⟨.pressure, some 1, "mbar".toList, "pa".toList⟩ ∧
      (∃ speed, SeriesLaws ⟨cubicMetres 1, cubicMetres 2, "m3/s".toList⟩ speed) ∧
      ∃ speed, ParallelLaws
        ⟨[⟨cubicMetres 1, none⟩, ⟨cubicMetres 2, some (cubicMetres 1)⟩], "m3/s".toList⟩ speed := by
  intro _ _
  obtain ⟨hconvert, hseries, hparallel⟩ := pump_unit_algebra
  have hmbar : Listed PRESSURE_TO_PA "mbar".toList := ⟨100, by decide⟩
  have hpa : Listed PRESSURE_TO_PA "pa".toList := ⟨1, by decide⟩
  have hspeed : Listed SPEED_TO_M3_S "m3/s".toList := ⟨1, by decide⟩
  have hpumps : ParallelInput.UnitsListed
      ⟨[⟨cubicMetres 1, none⟩, ⟨cubicMetres 2, some (cubicMetres 1)⟩], "m3/s".toList⟩ := by
    refine ⟨?_, hspeed⟩
    intro pump hpump
    rcases List.mem_cons.mp hpump with rfl | hpump
    · exact ⟨hspeed, fun _ hnone => (nomatch hnone)⟩
    · cases List.mem_singleton.mp hpump
      refine ⟨hspeed, fun conductance hconductance => ?_⟩
      cases hconductance
      exact hspeed
  refine ⟨(hconvert _ ?_).mpr ⟨hmbar, hpa⟩, (hseries _ ?_).mpr ⟨hspeed, hspeed, hspeed⟩,
    (hparallel _ ?_).mpr hpumps⟩
  · exact accepted_of_value (convert_listed (by decide) rfl ⟨hmbar, hpa⟩)
  · exact (effectiveSpeed_listed (by decide) ⟨hspeed, hspeed, hspeed⟩).1
  · obtain ⟨x, hx, -⟩ := Option.map_eq_some_iff.mp (combinedSpeed_listed (by decide) hpumps)
    exact accepted_of_value hx

/-- **A name every object inherits is taken for a unit:** 1 constructor behind 1 m³/s is a
    calculation without a number. -/
theorem constructor_converted :
    ¬ ∀ [CaseTables] [Sha256] (input : EffectiveSpeedInput (Option ℚ)),
      Accepted (.calculate_effective_pumping_speed input) → ∃ speed, SeriesLaws input speed := by
  intro h
  let _ : CaseTables := unitsAsWritten
  let _ : Sha256 := ⟨fun text => text⟩
  let input : EffectiveSpeedInput (Option ℚ) := ⟨inConstructors 1, cubicMetres 1, "m3/s".toList⟩
  have hspeed : Listed SPEED_TO_M3_S "m3/s".toList := ⟨1, by decide⟩
  have hinherited : property SPEED_TO_M3_S (normalizeUnit "constructor".toList) = .inherited := by
    decide
  have hpump : toBase input.pumpSpeed.value input.pumpSpeed.unit SPEED_TO_M3_S = .ok none := by
    show toBase (some 1) "constructor".toList SPEED_TO_M3_S = .ok (none : Option ℚ)
    unfold toBase factorOf
    rw [hinherited]
    rfl
  have hout : fromBase (inSeries none (some (1 * tableFactor SPEED_TO_M3_S "m3/s".toList)))
      input.outputUnit SPEED_TO_M3_S = .ok (none : Option ℚ) := by
    rw [none_inSeries, fromBase_listed positive_SPEED_TO_M3_S hspeed, rational_none_div]
  have haccepted : Accepted (.calculate_effective_pumping_speed input) :=
    (effectiveSpeed_run (by decide) hpump
      (toBase_listed positive_SPEED_TO_M3_S hspeed (some 1)) hout).1
  obtain ⟨⟨factor, hfactor⟩, -⟩ := (seriesLaws_iff haccepted).mp (h input haccepted)
  have hown : Property.inherited = .own factor := hinherited.symm.trans hfactor
  cases hown

end OpenVac.Agent
