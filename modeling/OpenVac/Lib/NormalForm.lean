/-
  File:      OpenVac/Lib/NormalForm.lean
  Subject:   Texts that `normalize("NFKC")` leaves alone, and what keeps them so.

  * `NormalForms` -- the host's normal form: idempotent, closed under taking a stretch, and cut in
    two by a blank.
  * `Normalized.blanked`, `Normalized.collapseSpaces`, `Normalized.stretch` -- characters made
    blanks, blanks collapsed, a stretch taken.
  * `Collapsed` -- the texts that `collapseSpaces` leaves alone.
  * `clip_isPrefix`, `clip_eq_self` -- what `clip` takes.
-/
import Mathlib.Data.List.Chain
import OpenVac.Lib.JsText

namespace JsString

/-! ## 1. Normal forms -/

/-- What the standard says of NFKC: normalizing twice changes nothing more, a stretch of a
    normalized text is normalized, and no character composes with a blank. -/
class NormalForms extends UnicodeTables where
  idempotent : ∀ s : Text, JsString.nfkc (JsString.nfkc s) = JsString.nfkc s
  stretch : ∀ before s after : Text,
    JsString.nfkc (before ++ s ++ after) = before ++ s ++ after → JsString.nfkc s = s
  blank : ∀ before after : Text,
    JsString.nfkc (before ++ ' ' :: after) = JsString.nfkc before ++ ' ' :: JsString.nfkc after

/-- A text that normalizing leaves alone. -/
def Normalized [UnicodeTables] (s : Text) : Prop := nfkc s = s

section Normal

variable [NormalForms]

theorem normalized_nfkc (s : Text) : Normalized (nfkc s) := NormalForms.idempotent s

theorem Normalized.stretch {s t : Text} (h : Normalized s) (ht : t <:+: s) : Normalized t := by
  obtain ⟨before, after, rfl⟩ := ht
  exact NormalForms.stretch before t after h

/-- A stretch gives way to a blank. -/
theorem Normalized.blank {before s after : Text} (h : Normalized (before ++ (s ++ after))) :
    Normalized (before ++ ' ' :: after) := by
  have hbefore : nfkc before = before := h.stretch (List.prefix_append before _).isInfix
  have hafter : nfkc after = after := by
    refine h.stretch (List.IsSuffix.isInfix ?_)
    rw [← List.append_assoc]
    exact List.suffix_append _ after
  unfold Normalized
  rw [NormalForms.blank, hbefore, hafter]

/-- Characters of a kind become blanks. -/
theorem Normalized.blanked {s : Text} (h : Normalized s) (p : Char → Bool) :
    Normalized (s.map fun c => if p c then ' ' else c) := by
  have hfrom (before rest : Text) (h : Normalized (before ++ rest)) :
      Normalized (before ++ rest.map fun c => if p c then ' ' else c) := by
    induction rest generalizing before with
    | nil => exact h
    | cons c rest ih =>
      rw [List.map_cons, List.append_cons]
      refine ih _ ?_
      rw [← List.append_cons]
      by_cases hp : p c = true
      · rw [if_pos hp]
        exact Normalized.blank (s := [c]) h
      · rw [if_neg hp]
        exact h
  exact hfrom [] s h

/-- Runs of blanks collapse. -/
theorem Normalized.collapseSpaces {s : Text} (h : Normalized s) :
    Normalized (collapseSpaces s) := by
  have hfrom (rest before : Text) :
      (Normalized (before ++ rest) → Normalized (before ++ collapseFrom false rest)) ∧
        (Normalized (before ++ ' ' :: rest) →
          Normalized (before ++ ' ' :: collapseFrom true rest)) := by
    induction rest generalizing before with
    | nil => exact ⟨id, id⟩
    | cons c rest ih =>
      constructor
      · intro h
        rw [collapseFrom]
        by_cases hc : isWhiteSpace c = true
        · rw [if_pos hc, if_neg Bool.false_ne_true]
          exact (ih before).2 (Normalized.blank (s := [c]) h)
        · rw [if_neg hc, List.append_cons]
          refine (ih _).1 ?_
          rw [← List.append_cons]
          exact h
      · intro h
        rw [collapseFrom]
        by_cases hc : isWhiteSpace c = true
        · rw [if_pos hc, if_pos rfl]
          -- the blank and the character after it make one blank
          exact (ih before).2 (Normalized.blank (s := [' ', c]) h)
        · rw [if_neg hc]
          have hnext := (ih (before ++ [' ', c])).1 (by
            rw [List.append_assoc]
            exact h)
          rw [List.append_assoc] at hnext
          exact hnext
  exact (hfrom s []).1 h

end Normal

/-! ## 2. Collapsed texts -/

/-- All white space is single blanks. -/
structure Collapsed (s : Text) : Prop where
  blanks : ∀ c ∈ s, isWhiteSpace c = true → c = ' '
  single : s.IsChain fun a b => isWhiteSpace a = true → isWhiteSpace b = false

theorem Collapsed.stretch {s t : Text} (h : Collapsed s) (ht : t <:+: s) : Collapsed t :=
  ⟨fun c hc => h.blanks c (ht.subset hc), List.IsChain.infix h.single ht⟩

theorem collapsed_collapseSpaces (s : Text) : Collapsed (collapseSpaces s) := by
  have hblank : isWhiteSpace ' ' = true := by decide
  have hfrom (rest : Text) : (∀ c ∈ collapseFrom false rest, isWhiteSpace c = true → c = ' ') ∧
      (collapseFrom false rest).IsChain (fun a b => isWhiteSpace a = true → isWhiteSpace b = false) ∧
      (∀ c ∈ collapseFrom true rest, isWhiteSpace c = true → c = ' ') ∧
      (' ' :: collapseFrom true rest).IsChain
        (fun a b => isWhiteSpace a = true → isWhiteSpace b = false) := by
    induction rest with
    | nil => exact ⟨(fun _ h => nomatch h), .nil, (fun _ h => nomatch h), .singleton _⟩
    | cons c rest ih =>
      obtain ⟨hfalse, hchain, htrue, hchain'⟩ := ih
      simp only [collapseFrom]
      by_cases hc : isWhiteSpace c = true
      · simp only [if_pos hc, if_pos, if_neg Bool.false_ne_true]
        refine ⟨?_, hchain', htrue, hchain'⟩
        intro d hd hwhite
        rcases List.mem_cons.mp hd with rfl | hd
        · rfl
        · exact htrue d hd hwhite
      · simp only [if_neg hc]
        have hmem : ∀ d ∈ c :: collapseFrom false rest, isWhiteSpace d = true → d = ' ' := by
          intro d hd hwhite
          rcases List.mem_cons.mp hd with rfl | hd
          · exact absurd hwhite hc
          · exact hfalse d hd hwhite
        have hhead : (c :: collapseFrom false rest).IsChain
            (fun a b => isWhiteSpace a = true → isWhiteSpace b = false) :=
          List.isChain_cons.mpr ⟨fun _ _ hwhite => absurd hwhite hc, hchain⟩
        refine ⟨hmem, hhead, hmem, List.isChain_cons.mpr ⟨fun d hd _ => ?_, hhead⟩⟩
        obtain rfl := Option.some.inj hd
        exact Bool.eq_false_iff.mpr hc
  exact ⟨(hfrom s).1, (hfrom s).2.1⟩

/-- A collapsed text stays as it is. -/
theorem Collapsed.eq {s : Text} (h : Collapsed s) : collapseSpaces s = s := by
  have hfrom (rest : Text) (h : Collapsed rest) : collapseFrom false rest = rest ∧
      ((∀ c ∈ rest.head?, isWhiteSpace c = false) → collapseFrom true rest = rest) := by
    induction rest with
    | nil => exact ⟨rfl, fun _ => rfl⟩
    | cons c rest ih =>
      obtain ⟨hfalse, htrue⟩ := ih (h.stretch (List.suffix_cons c rest).isInfix)
      have hnext := (List.isChain_cons.mp h.single).1
      constructor
      · rw [collapseFrom]
        by_cases hc : isWhiteSpace c = true
        · rw [if_pos hc, if_neg Bool.false_ne_true, htrue fun d hd => hnext d hd hc,
            h.blanks c List.mem_cons_self hc]
        · rw [if_neg hc, hfalse]
      · intro hhead
        have hc := hhead c rfl
        rw [collapseFrom, if_neg (Bool.eq_false_iff.mp hc), hfalse]
  exact (hfrom s h).1

/-! ## 3. Stretches -/

theorem trim_isInfix (s : Text) : trim s <:+: s :=
  (List.rdropWhile_prefix _ _).isInfix.trans (List.dropWhile_suffix _).isInfix

theorem clip_isPrefix (units : Nat) (s : Text) : clip units s <+: s := by
  induction s generalizing units with
  | nil => exact List.prefix_refl _
  | cons c rest ih =>
    unfold clip
    dsimp only
    by_cases hroom : (if c.toNat < 0x10000 then 1 else 2) ≤ units
    · rw [if_pos hroom]
      exact (List.prefix_cons_inj c).mpr (ih _)
    · rw [if_neg hroom]
      exact List.nil_prefix

/-- A text within the bound is taken whole. -/
theorem clip_eq_self {units : Nat} {s : Text} (h : utf16Length s ≤ units) : clip units s = s := by
  induction s generalizing units with
  | nil => rfl
  | cons c rest ih =>
    rw [utf16Length_cons] at h
    unfold clip
    dsimp only
    rw [if_pos (by omega), ih (by omega)]

end JsString
