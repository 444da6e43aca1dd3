/-
  File:      OpenVac/Lib/CodeUnits.lean
  Subject:   Strings as the host holds them: sequences of UTF-16 code units.

  * `CodeUnit.isBlank` -- what `trim` removes; half a pair is never blank.
  * `solid_codeUnits` -- the units that are not blank are those of the characters that are not.
-/
import OpenVac.Lib.Coverage
import OpenVac.Lib.JsText

namespace JsString

open OpenVac (solid strip InOrder)

/-- A string, by its code units. -/
abbrev Units := List CodeUnit

/-- White space, among the units. -/
def CodeUnit.isBlank : CodeUnit → Bool
  | .whole c => isWhiteSpace c
  | .lead _ | .trail _ => false

deriving instance DecidableEq for CodeUnit

/-- `s.slice(start, stop)`. -/
def sliceUnits (start stop : Nat) (s : Units) : Units := (s.take stop).drop start

/-- `s.trim()`. -/
def trimUnits (s : Units) : Units := strip CodeUnit.isBlank s

theorem codeUnits_cons (c : Char) (s : Text) :
    codeUnits (c :: s) = codeUnits [c] ++ codeUnits s := by
  simp [codeUnits]

theorem codeUnits_append (s t : Text) : codeUnits (s ++ t) = codeUnits s ++ codeUnits t :=
  List.flatMap_append

theorem length_codeUnits (s : Text) : (codeUnits s).length = utf16Length s := by
  induction s with
  | nil => rfl
  | cons c rest ih =>
    rw [codeUnits_cons, List.length_append, utf16Length_cons, ih]
    by_cases hc : c.toNat < 0x10000
    · simp [codeUnits, hc]
    · simp [codeUnits, hc]

/-- White space lies in the basic plane. -/
theorem toNat_of_isWhiteSpace {c : Char} (h : isWhiteSpace c = true) : c.toNat < 0x10000 := by
  simp only [isWhiteSpace, isWhiteSpaceCode, Bool.or_eq_true, Bool.and_eq_true, decide_eq_true_eq,
    beq_iff_eq] at h
  omega

theorem solid_codeUnits_single (c : Char) :
    solid CodeUnit.isBlank (codeUnits [c]) = codeUnits ([c].filter fun d => !isWhiteSpace d) := by
  by_cases hblank : isWhiteSpace c = true
  · have hlow := toNat_of_isWhiteSpace hblank
    simp [codeUnits, solid, CodeUnit.isBlank, hlow, hblank]
  · by_cases hlow : c.toNat < 0x10000
    · simp [codeUnits, solid, CodeUnit.isBlank, hlow, hblank]
    · simp [codeUnits, solid, CodeUnit.isBlank, hlow, hblank]

/-- **The units that are not blank** are those of the characters that are not white space. -/
theorem solid_codeUnits (s : Text) :
    solid CodeUnit.isBlank (codeUnits s) = codeUnits (s.filter fun c => !isWhiteSpace c) := by
  induction s with
  | nil => rfl
  | cons c rest ih =>
    have hsplit : (c :: rest).filter (fun d => !isWhiteSpace d) =
        [c].filter (fun d => !isWhiteSpace d) ++ rest.filter fun d => !isWhiteSpace d :=
      List.filter_append [c] rest
    rw [codeUnits_cons, OpenVac.solid_append, ih, solid_codeUnits_single, hsplit,
      codeUnits_append]

/-- A character stands in a text by its units. -/
theorem codeUnits_within {c : Char} {s : Text} (h : c ∈ s) : codeUnits [c] <:+: codeUnits s := by
  obtain ⟨before, after, rfl⟩ := List.append_of_mem h
  refine ⟨codeUnits before, codeUnits after, ?_⟩
  rw [codeUnits_append, codeUnits_cons c after, List.append_assoc]

theorem codeUnits_ne_nil (c : Char) : codeUnits [c] ≠ [] := by
  by_cases hc : c.toNat < 0x10000
  · simp [codeUnits, hc]
  · simp [codeUnits, hc]

theorem isBlank_of_mem_codeUnits {c : Char} (h : isWhiteSpace c = false) :
    ∀ unit ∈ codeUnits [c], unit.isBlank = false := by
  intro unit hunit
  by_cases hc : c.toNat < 0x10000
  · simp only [codeUnits, List.flatMap_cons, List.flatMap_nil, if_pos hc, List.append_nil,
      List.mem_singleton] at hunit
    rw [hunit]
    exact h
  · simp only [codeUnits, List.flatMap_cons, List.flatMap_nil, if_neg hc, List.append_nil,
      List.mem_cons, List.not_mem_nil, or_false] at hunit
    rcases hunit with rfl | rfl <;> rfl

end JsString
