/-
  File:      OpenVac/Lib/FollowedBy.lean
  Subject:   Sequences in which one symbol is followed by another, or by nothing.

  * `FollowedBy` -- after `a` comes `b` or the end.
  * `followedBy_cons`, `followedBy_append_plain` -- symbols other than `a` in front.
  * `followedBy_left` -- the first part of such a sequence.
-/
import Mathlib.Data.List.Basic

namespace OpenVac

section FollowedBy

variable {α : Type} {a b : α}

/-- After `a` comes `b` or the end. -/
def FollowedBy (a b : α) : List α → Prop
  | [] => True
  | [_] => True
  | c :: d :: rest => (c = a → d = b) ∧ FollowedBy a b (d :: rest)

instance [DecidableEq α] : (s : List α) → Decidable (FollowedBy a b s)
  | [] => isTrue trivial
  | [_] => isTrue trivial
  | c :: d :: rest =>
      let _ := instDecidableFollowedByOfDecidableEq (d :: rest)
      inferInstanceAs (Decidable ((c = a → d = b) ∧ FollowedBy a b (d :: rest)))

theorem followedBy_tail {c : α} {s : List α} (h : FollowedBy a b (c :: s)) : FollowedBy a b s := by
  cases s with
  | nil => exact trivial
  | cons d rest => exact h.2

theorem followedBy_cons {c : α} {s : List α} (hc : c ≠ a) (h : FollowedBy a b s) :
    FollowedBy a b (c :: s) := by
  cases s with
  | nil => exact trivial
  | cons d rest => exact ⟨fun hca => absurd hca hc, h⟩

theorem followedBy_pair {s : List α} (h : FollowedBy a b (b :: s)) : FollowedBy a b (a :: b :: s) :=
  ⟨fun _ => rfl, h⟩

theorem followedBy_append_plain {s t : List α} (hs : a ∉ s) (ht : FollowedBy a b t) :
    FollowedBy a b (s ++ t) := by
  induction s with
  | nil => exact ht
  | cons c s ih =>
    refine followedBy_cons ?_ (ih fun hmem => hs (List.mem_cons_of_mem _ hmem))
    rintro rfl
    exact hs List.mem_cons_self

theorem followedBy_left {s t : List α} (h : FollowedBy a b (s ++ t)) : FollowedBy a b s := by
  induction s with
  | nil => exact trivial
  | cons c s ih =>
    cases s with
    | nil => exact trivial
    | cons d rest => exact ⟨h.1, ih h.2⟩

end FollowedBy

end OpenVac
