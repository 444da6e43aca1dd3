/-
  File:      OpenVac/Lib/Coverage.lean
  Subject:   Sequences cut into pieces that may overlap.

  * `strip`, `solid` -- a sequence without its outer blanks, and without any.
  * `InOrder` -- a sequence is read off pieces, a stretch of each, one after the other.
  * `windows` -- the pieces of one size that begin every few places; `windows_inOrder` -- they lose
    nothing, and `infix_windows` -- they keep together what is no longer than their overlap.
-/
import Mathlib.Data.List.DropRight
import Mathlib.Data.List.Forall2
import Mathlib.Data.List.Infix

namespace OpenVac

section Coverage

variable {α : Type} (blank : α → Bool)

/-! ## 1. Blanks -/

/-- A sequence without the blanks at both ends. -/
def strip (s : List α) : List α := (s.dropWhile blank).rdropWhile blank

/-- What is not blank. -/
def solid (s : List α) : List α := s.filter fun a => !blank a

theorem solid_append (s t : List α) : solid blank (s ++ t) = solid blank s ++ solid blank t :=
  List.filter_append s t

theorem solid_eq_nil_iff (s : List α) : solid blank s = [] ↔ ∀ a ∈ s, blank a = true := by
  simp [solid, List.filter_eq_nil_iff]

theorem solid_dropWhile (s : List α) : solid blank (s.dropWhile blank) = solid blank s := by
  have hsplit : s.takeWhile blank ++ s.dropWhile blank = s := List.takeWhile_append_dropWhile
  have hblank : solid blank (s.takeWhile blank) = [] :=
    (solid_eq_nil_iff blank _).mpr fun a ha => List.mem_takeWhile_imp ha
  calc solid blank (s.dropWhile blank)
      = solid blank (s.takeWhile blank) ++ solid blank (s.dropWhile blank) := by
        rw [hblank, List.nil_append]
    _ = solid blank s := by rw [← solid_append, hsplit]

theorem solid_strip (s : List α) : solid blank (strip blank s) = solid blank s := by
  have hreverse (t : List α) : solid blank t.reverse = (solid blank t).reverse :=
    List.filter_reverse
  unfold strip List.rdropWhile
  rw [hreverse, solid_dropWhile, hreverse, List.reverse_reverse, solid_dropWhile]

theorem strip_eq_nil_iff (s : List α) : strip blank s = [] ↔ solid blank s = [] := by
  constructor
  · intro h
    rw [← solid_strip, h]
    rfl
  · intro h
    have hblank := (solid_eq_nil_iff blank s).mp h
    have hdrop : s.dropWhile blank = [] := List.dropWhile_eq_nil_iff.mpr hblank
    unfold strip
    rw [hdrop]
    rfl

theorem length_strip_le (s : List α) : (strip blank s).length ≤ s.length := by
  have hright : (strip blank s).length ≤ (s.dropWhile blank).length :=
    (List.rdropWhile_prefix blank _).length_le
  have hleft : (s.dropWhile blank).length ≤ s.length := (List.dropWhile_suffix blank).length_le
  omega

variable {blank}

theorem infix_dropWhile {word s : List α} (hne : word ≠ []) (hword : ∀ a ∈ word, blank a = false)
    (h : word <:+: s) : word <:+: s.dropWhile blank := by
  obtain ⟨before, after, rfl⟩ := h
  obtain ⟨a, rest, rfl⟩ := List.exists_cons_of_ne_nil hne
  have ha : blank a = false := hword a List.mem_cons_self
  rw [List.append_assoc, List.dropWhile_append]
  split
  · rw [List.cons_append, List.dropWhile_cons_of_neg (by simp [ha])]
    exact ⟨[], after, rfl⟩
  · exact ⟨before.dropWhile blank, after, List.append_assoc _ _ _⟩

/-- Without its outer blanks, a sequence keeps every stretch that holds no blank. -/
theorem infix_strip {word s : List α} (hne : word ≠ []) (hword : ∀ a ∈ word, blank a = false)
    (h : word <:+: s) : word <:+: strip blank s := by
  have hleft : word <:+: s.dropWhile blank := infix_dropWhile hne hword h
  have hreverse : word.reverse <:+: (s.dropWhile blank).reverse := List.reverse_infix.mpr hleft
  have hright := infix_dropWhile (by simpa using hne) (by simpa using hword) hreverse
  unfold strip List.rdropWhile
  rw [← List.reverse_infix, List.reverse_reverse]
  exact hright

/-! ## 2. Reading pieces in order -/

/-- A sequence is read off pieces: a stretch of each, one after the other. -/
def InOrder (s : List α) (pieces : List (List α)) : Prop :=
  ∃ parts, parts.flatten = s ∧ List.Forall₂ (fun part piece => part <:+: piece) parts pieces

theorem inOrder_nil : InOrder ([] : List α) [] := ⟨[], rfl, .nil⟩

theorem InOrder.cons {part piece s : List α} {pieces : List (List α)} (hpart : part <:+: piece)
    (h : InOrder s pieces) : InOrder (part ++ s) (piece :: pieces) := by
  obtain ⟨parts, hflat, hparts⟩ := h
  exact ⟨part :: parts, congrArg (part ++ ·) hflat, .cons hpart hparts⟩

theorem inOrder_nil_right {s : List α} (h : InOrder s []) : s = [] := by
  obtain ⟨parts, rfl, hparts⟩ := h
  cases hparts
  rfl

variable (blank) in
/-- The pieces without their outer blanks, and none of those that are blank. -/
def readable (pieces : List (List α)) : List (List α) :=
  (pieces.map (strip blank)).filter fun s => !s.isEmpty

theorem readable_cons_blank {piece : List α} (h : strip blank piece = [])
    (pieces : List (List α)) : readable blank (piece :: pieces) = readable blank pieces := by
  unfold readable
  rw [List.map_cons, h]
  rfl

theorem readable_cons {piece : List α} (h : strip blank piece ≠ []) (pieces : List (List α)) :
    readable blank (piece :: pieces) = strip blank piece :: readable blank pieces := by
  unfold readable
  rw [List.map_cons, List.filter_cons_of_pos (by simpa using h)]

theorem mem_readable_iff {pieces : List (List α)} {s : List α} :
    s ∈ readable blank pieces ↔ s ≠ [] ∧ ∃ piece ∈ pieces, strip blank piece = s := by
  unfold readable
  simp [List.mem_filter, List.mem_map, and_comm]

/-- Blank pieces are not needed. -/
theorem InOrder.readable {s : List α} {pieces : List (List α)}
    (h : InOrder s (pieces.map (solid blank))) :
    InOrder s ((OpenVac.readable blank pieces).map (solid blank)) := by
  obtain ⟨parts, rfl, hparts⟩ := h
  induction pieces generalizing parts with
  | nil =>
    cases hparts
    exact inOrder_nil
  | cons piece pieces ih =>
    cases hparts with
    | cons hfirst hrest =>
      rename_i part parts
      by_cases hblank : strip blank piece = []
      · have hsolid := (strip_eq_nil_iff blank piece).mp hblank
        rw [hsolid, List.infix_nil] at hfirst
        rw [readable_cons_blank hblank, hfirst, List.flatten_cons, List.nil_append]
        exact ih parts hrest
      · rw [readable_cons hblank, List.map_cons, solid_strip, List.flatten_cons]
        exact (ih parts hrest).cons hfirst

/-! ## 3. Windows -/

/-- The stretches of `size` that begin at every `stride`-th place. -/
def windows (stride size : Nat) : List α → List (List α)
  | [] => []
  | a :: rest => (a :: rest).take size :: windows stride size (rest.drop (stride - 1))
termination_by s => s.length
decreasing_by
  simp only [List.length_drop, List.length_cons]
  omega

theorem windows_nil (stride size : Nat) : windows stride size ([] : List α) = [] := by
  rw [windows]

theorem windows_of_ne_nil {stride : Nat} (hstride : 0 < stride) (size : Nat) {s : List α}
    (h : s ≠ []) :
    windows stride size s = s.take size :: windows stride size (s.drop stride) := by
  obtain ⟨a, rest, rfl⟩ := List.exists_cons_of_ne_nil h
  obtain ⟨n, rfl⟩ : ∃ n, stride = n + 1 := ⟨stride - 1, by omega⟩
  rw [windows, List.drop_succ_cons, Nat.add_sub_cancel]

/-- What is no longer than a stride is its only window. -/
theorem windows_short {stride size : Nat} {s : List α} (hne : s ≠ []) (hshort : s.length ≤ stride)
    (hsize : stride ≤ size) : windows stride size s = [s] := by
  have hpos : 0 < s.length := List.length_pos_iff.mpr hne
  rw [windows_of_ne_nil (by omega) size hne, List.take_of_length_le (by omega),
    List.drop_of_length_le hshort, windows_nil]

/-- By the windows: nothing, or one window and those after the stride. -/
theorem windows_induction {stride : Nat} (hstride : 0 < stride) {motive : List α → Prop}
    (nil : motive []) (cut : ∀ s, s ≠ [] → motive (s.drop stride) → motive s) (s : List α) :
    motive s := by
  induction hn : s.length using Nat.strong_induction_on generalizing s with
  | _ n ih =>
    by_cases h : s = []
    · rw [h]
      exact nil
    · have hpos : 0 < s.length := List.length_pos_iff.mpr h
      refine cut s h (ih (s.drop stride).length ?_ (s.drop stride) rfl)
      rw [List.length_drop]
      omega

theorem length_of_mem_windows {stride : Nat} (hstride : 0 < stride) {size : Nat} {s w : List α}
    (h : w ∈ windows stride size s) : w.length ≤ size := by
  induction s using windows_induction hstride with
  | nil =>
    rw [windows_nil] at h
    exact absurd h List.not_mem_nil
  | cut s hs ih =>
    rw [windows_of_ne_nil hstride size hs] at h
    rcases List.mem_cons.mp h with rfl | hrest
    · exact List.length_take_le size s
    · exact ih hrest

/-- **Windows that leave no gap lose nothing.** -/
theorem windows_inOrder {stride size : Nat} (hstride : 0 < stride) (hsize : stride ≤ size)
    (s : List α) : InOrder (solid blank s) ((windows stride size s).map (solid blank)) := by
  induction s using windows_induction hstride with
  | nil =>
    rw [windows_nil]
    exact inOrder_nil
  | cut s h ih =>
    have hsplit : solid blank s = solid blank (s.take stride) ++ solid blank (s.drop stride) := by
      rw [← solid_append, List.take_append_drop]
    have htake : s.take stride <+: s.take size := List.take_prefix_take_left hsize
    rw [windows_of_ne_nil hstride size h, List.map_cons, hsplit]
    exact ih.cons (htake.filter _).isInfix

/-- **A stretch that is at most one place longer than the overlap stands whole in a window.** -/
theorem infix_windows {stride size : Nat} (hstride : 0 < stride) (hsize : stride ≤ size)
    {word s : List α} (hne : word ≠ []) (hlength : word.length ≤ size - stride + 1)
    (h : word <:+: s) : ∃ w ∈ windows stride size s, word <:+: w := by
  induction s using windows_induction hstride with
  | nil => exact absurd (List.infix_nil.mp h) hne
  | cut s hs ih =>
    rw [windows_of_ne_nil hstride size hs]
    obtain ⟨before, after, hsplit⟩ := h
    by_cases hfirst : before.length < stride
    · have hfits : (before ++ word).length ≤ size := by
        rw [List.length_append]
        omega
      refine ⟨s.take size, List.mem_cons_self, before,
        after.take (size - (before ++ word).length), ?_⟩
      rw [← hsplit, List.take_append, List.take_of_length_le hfits]
    · have hdrop : s.drop stride = before.drop stride ++ word ++ after := by
        rw [← hsplit, List.append_assoc, List.drop_append_of_le_length (by omega),
          List.append_assoc]
      obtain ⟨w, hw, hin⟩ := ih ⟨before.drop stride, after, hdrop.symm⟩
      exact ⟨w, List.mem_cons_of_mem _ hw, hin⟩

end Coverage

end OpenVac
