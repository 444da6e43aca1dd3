/-
  File:      OpenVac/Lib/StableSort.lean
  Subject:   A stable sort and the order of what ties.

  * `pair_sublist_or` -- two members of a list come one before the other.
  * `sublist_of_tie` -- what ties and comes first after the sort came first before it.
-/
import Mathlib.Data.List.Sort

namespace OpenVac.StableSort

variable {α : Type}

/-- **One before the other.** -/
theorem pair_sublist_or {l : List α} {a b : α} (ha : a ∈ l) (hb : b ∈ l) (hne : a ≠ b) :
    [a, b].Sublist l ∨ [b, a].Sublist l := by
  induction l with
  | nil => nomatch ha
  | cons c l ih =>
    rcases List.mem_cons.mp ha with rfl | ha'
    · have hbl : b ∈ l := (List.mem_cons.mp hb).resolve_left fun h => hne h.symm
      exact Or.inl (List.Sublist.cons_cons _ (List.singleton_sublist.mpr hbl))
    · rcases List.mem_cons.mp hb with rfl | hb'
      · exact Or.inr (List.Sublist.cons_cons _ (List.singleton_sublist.mpr ha'))
      · rcases ih ha' hb' with h | h
        · exact Or.inl (h.cons _)
        · exact Or.inr (h.cons _)

/-- Of distinct members not both. -/
theorem not_pair_sublist_swap {l : List α} {a b : α} (hl : l.Nodup) (hab : [a, b].Sublist l) :
    ¬ [b, a].Sublist l := by
  induction l with
  | nil => nomatch hab
  | cons c l ih =>
    obtain ⟨hc, hl⟩ := List.nodup_cons.mp hl
    intro hba
    cases hab with
    | cons _ hab =>
      cases hba with
      | cons _ hba => exact ih hl hab hba
      | cons_cons _ hba => exact hc (hab.subset (by simp))
    | cons_cons _ hab =>
      cases hba with
      | cons _ hba => exact hc (hba.subset (by simp))
      | cons_cons _ hba => exact hc (List.singleton_sublist.mp hba)

variable (r : α → α → Prop) [DecidableRel r]

/-- **What ties keeps its order.** -/
theorem sublist_of_tie {l : List α} {a b : α} (hl : l.Nodup) (htie : r b a)
    (h : [a, b].Sublist (l.insertionSort r)) : [a, b].Sublist l := by
  have hperm := List.perm_insertionSort r l
  have hsorted : (l.insertionSort r).Nodup := hperm.nodup_iff.mpr hl
  have hne : a ≠ b := by
    have hpair := hsorted.sublist h
    simp only [List.nodup_cons, List.mem_singleton] at hpair
    exact hpair.1
  have ha : a ∈ l := hperm.mem_iff.mp (h.subset (by simp))
  have hb : b ∈ l := hperm.mem_iff.mp (h.subset (by simp))
  rcases pair_sublist_or ha hb hne with hab | hba
  · exact hab
  · exact absurd (List.pair_sublist_insertionSort htie hba) (not_pair_sublist_swap hsorted h)

end OpenVac.StableSort
