/-
  File:      OpenVac/Agent/UnitFactors.lean
  Subject:   What the unit tables of the calculators give for the name of a unit.

  * `Listed` -- the name is an entry of the table once it is normalized.
  * `factorOf_listed` -- the factor of these names.
  * `factorOf_ok`, `toBase_ok`, `fromBase_ok` -- whatever else is not refused is a member every
    object inherits, and no number.
-/
import Mathlib.Tactic.NormNum
import OpenVac.Agent.Calculators

namespace OpenVac.Agent

open JsString JsUrl JsArithmetic

/-! ## 1. Tables -/

/-- No entry of the table is 0 or less. -/
def PositiveTable (factors : UnitTable) : Prop := ∀ entry ∈ factors, 0 < entry.2

theorem positive_PRESSURE_TO_PA : PositiveTable PRESSURE_TO_PA := by
  unfold PositiveTable PRESSURE_TO_PA
  norm_num

theorem positive_SPEED_TO_M3_S : PositiveTable SPEED_TO_M3_S := by
  unfold PositiveTable SPEED_TO_M3_S
  norm_num

theorem positive_THROUGHPUT_TO_PA_M3_S : PositiveTable THROUGHPUT_TO_PA_M3_S := by
  unfold PositiveTable THROUGHPUT_TO_PA_M3_S
  norm_num

theorem positive_VOLUME_TO_M3 : PositiveTable VOLUME_TO_M3 := by
  unfold PositiveTable VOLUME_TO_M3
  norm_num

theorem property_own_mem {factors : UnitTable} {key : Text} {factor : ℚ}
    (h : property factors key = .own factor) : (key, factor) ∈ factors := by
  unfold property at h
  split at h
  · next entry hfind =>
    cases h
    have hbeq := List.find?_some hfind
    have hkey : entry.1 = key := eq_of_beq hbeq
    rw [← hkey]
    exact List.mem_of_find?_eq_some hfind
  · split at h
    · cases h
    · cases h

section Units

variable [CaseTables]

/-- The unit is an entry of the table. -/
def Listed (factors : UnitTable) (unit : Text) : Prop :=
  ∃ factor, property factors (normalizeUnit unit) = .own factor

/-- The factor of an entry, 0 for any other unit. -/
def tableFactor (factors : UnitTable) (unit : Text) : ℚ :=
  match property factors (normalizeUnit unit) with
  | .own factor => factor
  | _ => 0

theorem tableFactor_pos {factors : UnitTable} (hfactors : PositiveTable factors) {unit : Text}
    (h : Listed factors unit) : 0 < tableFactor factors unit := by
  obtain ⟨factor, hfactor⟩ := h
  unfold tableFactor
  rw [hfactor]
  exact hfactors _ (property_own_mem hfactor)

theorem factorOf_listed {factors : UnitTable} (hfactors : PositiveTable factors) {unit : Text}
    (h : Listed factors unit) (message : String) :
    factorOf unit factors message = .ok (some (tableFactor factors unit)) := by
  have hpos := tableFactor_pos hfactors h
  obtain ⟨factor, hfactor⟩ := h
  unfold tableFactor at hpos ⊢
  unfold factorOf
  rw [hfactor] at hpos ⊢
  exact if_neg hpos.ne'

theorem toBase_listed {ν : Type} [JsArithmetic ν] {factors : UnitTable}
    (hfactors : PositiveTable factors) {unit : Text} (h : Listed factors unit) (value : ν) :
    toBase value unit factors = .ok (value * ofRat (tableFactor factors unit)) := by
  unfold toBase
  rw [factorOf_listed hfactors h]
  rfl

theorem factorOf_ok {unit : Text} {factors : UnitTable} {message : String} {factor : Option ℚ}
    (h : factorOf unit factors message = .ok factor) :
    (Listed factors unit ∧ factor = some (tableFactor factors unit)) ∨
      (¬ Listed factors unit ∧ factor = none) := by
  unfold Listed tableFactor
  unfold factorOf at h
  cases hproperty : property factors (normalizeUnit unit) with
  | own q =>
    rw [hproperty] at h
    dsimp only at h
    split at h
    · cases h
    · cases h
      exact Or.inl ⟨⟨q, rfl⟩, rfl⟩
  | inherited =>
    rw [hproperty] at h
    cases h
    exact Or.inr ⟨fun ⟨_, hq⟩ => (nomatch hq), rfl⟩
  | absent =>
    rw [hproperty] at h
    cases h

/-- What is made of a factor, or of a member every object inherits. -/
theorem resolved_ok {ν : Type} [JsArithmetic ν] {factors : UnitTable} {unit : Text} {f : ℚ → ν}
    {result : ν}
    (h : (do
      match ← factorOf unit factors "Unsupported unit: " with
      | some factor => .ok (f factor)
      | none => .ok nan) = Except.ok result) :
    (Listed factors unit ∧ result = f (tableFactor factors unit)) ∨
      (¬ Listed factors unit ∧ result = nan) := by
  cases hfactor : factorOf unit factors "Unsupported unit: " with
  | error message =>
    rw [hfactor] at h
    cases h
  | ok factor =>
    rw [hfactor] at h
    rcases factorOf_ok hfactor with ⟨hlisted, rfl⟩ | ⟨hlisted, rfl⟩
    · cases h
      exact Or.inl ⟨hlisted, rfl⟩
    · cases h
      exact Or.inr ⟨hlisted, rfl⟩

theorem toBase_ok {ν : Type} [JsArithmetic ν] {factors : UnitTable} {unit : Text} {value base : ν}
    (h : toBase value unit factors = .ok base) :
    (Listed factors unit ∧ base = value * ofRat (tableFactor factors unit)) ∨
      (¬ Listed factors unit ∧ base = nan) :=
  resolved_ok h

theorem fromBase_ok {ν : Type} [JsArithmetic ν] {factors : UnitTable} {unit : Text}
    {value result : ν} (h : fromBase value unit factors = .ok result) :
    (Listed factors unit ∧ result = value / ofRat (tableFactor factors unit)) ∨
      (¬ Listed factors unit ∧ result = nan) :=
  resolved_ok h

theorem fromBase_listed {ν : Type} [JsArithmetic ν] {factors : UnitTable}
    (hfactors : PositiveTable factors) {unit : Text} (h : Listed factors unit) (value : ν) :
    fromBase value unit factors = .ok (value / ofRat (tableFactor factors unit)) := by
  unfold fromBase
  rw [factorOf_listed hfactors h]
  rfl

end Units

end OpenVac.Agent
