/-
  File:      OpenVac/Agent/CanonicalLabels.lean
  Subject:   The labels of verified links are canonical: `canonicalVerifiedLinkLabel`,
             server/chat-v3/verified-link-label.ts, and what `validateKnownLinkBindings`,
             server/agent/answer-v3.ts, says of them.

  * `canonicalLabelOf` -- the label of any string, unpaired surrogates included.
  * `CanonicalLabel` -- what is known of a label; `canonicalVerifiedLinkLabel_spec`.
  * `CanonicalLabel.fixed` -- it is its own label.
  * `verified_link_labels_canonical` -- labels, and the errors of bindings with canonical labels are those without.
-/
import OpenVac.Agent.AnswerSoundness
import OpenVac.Lib.CodePoints
import OpenVac.Lib.Digest
import OpenVac.Lib.NormalForm

namespace OpenVac.Agent

open JsString JsRegex JsUrl ChatV3

/-! ## 1. Labels -/

/-- A string without unpaired surrogates. -/
def scalars (value : Points) : Option Text :=
  value.mapM fun
    | .scalar c => some c
    | .surrogate _ => none

section Host

variable [UnicodeTables] [UrlParser]

/-- `canonicalVerifiedLinkLabel` of any string: `hasUnpairedSurrogate` gives the fallback. -/
def canonicalLabelOf (value : Points) : Text :=
  match scalars value with
  | none => VERIFIED_LINK_LABEL_FALLBACK
  | some text => canonicalVerifiedLinkLabel text

/-- What is known of a label. -/
structure CanonicalLabel (label : Text) : Prop where
  short : utf16Length label ≤ MAX_VERIFIED_LINK_LABEL_UTF16_UNITS
  nonempty : label ≠ []
  normalized : Normalized label
  plain : ∀ c ∈ label, isControlOrFormat c = false
  collapsed : Collapsed label
  trimmed : trim label = label
  safe : containsUnsafeAnswerVisibleText label = false
  notUrl : isUrlLikeVerifiedLinkLabel label = false

omit [UnicodeTables] [UrlParser] in
/-- Collapsing puts nothing into a text but blanks. -/
theorem mem_collapseSpaces {c : Char} {s : Text} (h : c ∈ collapseSpaces s) : c = ' ' ∨ c ∈ s := by
  have hfrom (inRun : Bool) (rest : Text) (h : c ∈ collapseFrom inRun rest) : c = ' ' ∨ c ∈ rest := by
    induction rest generalizing inRun with
    | nil => nomatch h
    | cons d rest ih =>
      rw [collapseFrom] at h
      split_ifs at h
      · exact (ih _ h).imp_right (List.mem_cons_of_mem d)
      · rcases List.mem_cons.mp h with rfl | h
        · exact .inl rfl
        · exact (ih _ h).imp_right (List.mem_cons_of_mem d)
      · rcases List.mem_cons.mp h with rfl | h
        · exact .inr List.mem_cons_self
        · exact (ih _ h).imp_right (List.mem_cons_of_mem d)
  exact hfrom false s h

set_option maxRecDepth 4000 in
theorem canonicalLabel_fallback : CanonicalLabel VERIFIED_LINK_LABEL_FALLBACK where
  short := by decide
  nonempty := by decide
  normalized := rfl
  plain := by
    have hall : VERIFIED_LINK_LABEL_FALLBACK.all (fun c => !isControlOrFormat c) = true := by decide
    intro c hc
    simpa using List.all_eq_true.mp hall c hc
  collapsed := by
    have hall : VERIFIED_LINK_LABEL_FALLBACK.all (fun c => !isWhiteSpace c) = true := by decide
    have hnone : ∀ c ∈ VERIFIED_LINK_LABEL_FALLBACK, isWhiteSpace c = false := fun c hc => by
      simpa using List.all_eq_true.mp hall c hc
    refine ⟨fun c hc hwhite => ?_, ?_⟩
    · rw [hnone c hc] at hwhite
      nomatch hwhite
    · have hall : VERIFIED_LINK_LABEL_FALLBACK.Pairwise
          fun a b => isWhiteSpace a = true → isWhiteSpace b = false :=
        List.pairwise_of_forall_mem_list fun _ _ b hb _ => hnone b hb
      exact hall.isChain
  trimmed := by decide
  safe := rfl
  notUrl := rfl

/-- A canonical label is its own label. -/
theorem CanonicalLabel.fixed {label : Text} (h : CanonicalLabel label) :
    canonicalVerifiedLinkLabel label = label := by
  have hshort := h.short
  have hblanked : (label.map fun c => if isControlOrFormat c then ' ' else c) = label := by
    refine (List.map_congr_left fun c hc => ?_).trans (List.map_id label)
    rw [h.plain c hc]
    rfl
  have hlong : ¬ utf16Length label > 4096 := by
    rw [MAX_VERIFIED_LINK_LABEL_UTF16_UNITS] at hshort
    omega
  have hnonempty : label.isEmpty = false := by
    cases label with
    | nil => exact absurd rfl h.nonempty
    | cons c rest => rfl
  have hnormal : nfkc label = label := h.normalized
  unfold canonicalVerifiedLinkLabel
  rw [if_neg hlong]
  simp only [hnormal, hblanked, h.collapsed.eq, h.trimmed, hnonempty, h.safe, h.notUrl,
    clip_eq_self h.short, Bool.or_self, if_neg Bool.false_ne_true]

end Host

section Canonical

variable [NormalForms] [UrlParser]

/-- **The label of a text is canonical.** -/
theorem canonicalVerifiedLinkLabel_spec (value : Text) :
    CanonicalLabel (canonicalVerifiedLinkLabel value) := by
  unfold canonicalVerifiedLinkLabel
  split_ifs with hlong
  · exact canonicalLabel_fallback
  · dsimp only
    split_ifs with hfirst hsecond
    · exact canonicalLabel_fallback
    · exact canonicalLabel_fallback
    · simp only [Bool.or_eq_true, not_or, Bool.not_eq_true] at hsecond
      obtain ⟨⟨hnonempty, hsafe⟩, hurl⟩ := hsecond
      -- a stretch of the collapsed text
      have hpart := (trim_isInfix (clip MAX_VERIFIED_LINK_LABEL_UTF16_UNITS (trim (collapseSpaces
        ((nfkc value).map fun c => if isControlOrFormat c then ' ' else c))))).trans
        ((clip_isPrefix _ _).isInfix.trans (trim_isInfix _))
      have hplain : ∀ c ∈ collapseSpaces
          ((nfkc value).map fun c => if isControlOrFormat c then ' ' else c),
          isControlOrFormat c = false := by
        intro c hc
        rcases mem_collapseSpaces hc with rfl | hc
        · decide
        · obtain ⟨d, -, rfl⟩ := List.mem_map.mp hc
          split
          · decide
          · next hd => exact Bool.eq_false_iff.mpr hd
      exact {
        short := (utf16Length_trim_le _).trans (utf16Length_clip_le _ _)
        nonempty := by
          intro hnil
          rw [hnil] at hnonempty
          nomatch hnonempty
        normalized := (((normalized_nfkc value).blanked isControlOrFormat).collapseSpaces).stretch hpart
        plain := fun c hc => hplain c (hpart.subset hc)
        collapsed := (collapsed_collapseSpaces _).stretch hpart
        trimmed := trim_trim _
        safe := hsafe
        notUrl := hurl }

theorem canonicalLabelOf_spec (value : Points) : CanonicalLabel (canonicalLabelOf value) := by
  unfold canonicalLabelOf
  cases scalars value with
  | none => exact canonicalLabel_fallback
  | some text => exact canonicalVerifiedLinkLabel_spec text

end Canonical

/-! ## 2. Bindings -/

/-- A binding without its label. -/
def LinkBinding.unlabelled (binding : LinkBinding) : LinkBinding := { binding with label := none }

theorem bindingOf_unlabelled (bindings : List LinkBinding) (linkId : Text) :
    bindingOf (bindings.map LinkBinding.unlabelled) linkId =
      (bindingOf bindings linkId).map fun found => (found.1, none) := by
  have hfilter : (bindings.map LinkBinding.unlabelled).filter (fun binding => binding.linkId == linkId) =
      (bindings.filter fun binding => binding.linkId == linkId).map LinkBinding.unlabelled :=
    List.filter_map
  unfold bindingOf
  rw [hfilter]
  cases bindings.filter fun binding => binding.linkId == linkId with
  | nil => rfl
  | cons first rest =>
    have hids : ((first :: rest).map LinkBinding.unlabelled).flatMap (·.evidenceIds) =
        (first :: rest).flatMap (·.evidenceIds) := List.flatMap_map ..
    exact congrArg (fun ids => some (ids, none)) hids

/-- The references have the labels that the server keeps for their links. -/
def Labelled (references : List (Text × Text)) (bindings : List LinkBinding) : Prop :=
  ∀ reference ∈ references, ∀ ids label, bindingOf bindings reference.1 = some (ids, some label) →
    reference.2 = label

/-- Where each label is its own, the labels lead to no error. -/
theorem validateKnownLinkBindings_unlabelled [UnicodeTables] [UrlParser]
    {references : List (Text × Text)} {bindings : List LinkBinding}
    (hfixed : ∀ binding ∈ bindings, ∀ label, binding.label = some label →
      canonicalVerifiedLinkLabel label = label) (hlabelled : Labelled references bindings)
    (evidenceIds : List Text) :
    validateKnownLinkBindings references evidenceIds (some bindings) =
      validateKnownLinkBindings references evidenceIds
        (some (bindings.map LinkBinding.unlabelled)) := by
  have hserver : (bindings.filter fun binding =>
      binding.label.any fun label => canonicalVerifiedLinkLabel label != label) = [] := by
    refine List.filter_eq_nil_iff.mpr fun binding hbinding => ?_
    cases hlabel : binding.label with
    | none => exact Bool.false_ne_true
    | some label => simp [hfixed binding hbinding label hlabel]
  have hnone : ((bindings.map LinkBinding.unlabelled).filter fun binding =>
      binding.label.any fun label => canonicalVerifiedLinkLabel label != label) = [] := by
    refine List.filter_eq_nil_iff.mpr fun binding hbinding => ?_
    obtain ⟨source, -, rfl⟩ := List.mem_map.mp hbinding
    exact Bool.false_ne_true
  unfold validateKnownLinkBindings
  by_cases hempty : references.isEmpty = true
  · rw [if_pos hempty, if_pos hempty]
  · rw [if_neg hempty, if_neg hempty]
    dsimp only
    rw [hserver, hnone]
    refine congrArg _ (List.flatMap_congr fun reference hreference => ?_)
    rw [bindingOf_unlabelled]
    cases hbinding : bindingOf bindings reference.1 with
    | none => rfl
    | some found =>
      obtain ⟨ids, label⟩ := found
      cases label with
      | none => rfl
      | some label =>
        have hsame := hlabelled reference hreference ids label hbinding
        have hown : canonicalVerifiedLinkLabel label = label := by
          obtain ⟨-, binding, hfirst, hlabel⟩ := bindingOf_eq_some hbinding
          exact hfixed binding (List.mem_of_find?_eq_some hfirst) label hlabel
        simp [hown, hsame]

/-- **Labels are canonical.** The label of every string is its own label, short, safe and no
    address; and where the server's labels are such labels, the errors about links that carry them
    are those that the links have without labels. -/
theorem verified_link_labels_canonical [NormalForms] [UrlParser] :
    (∀ value : Points,
      canonicalVerifiedLinkLabel (canonicalLabelOf value) = canonicalLabelOf value ∧
        utf16Length (canonicalLabelOf value) ≤ 240 ∧
        isUrlLikeVerifiedLinkLabel (canonicalLabelOf value) = false ∧
        containsUnsafeAnswerVisibleText (canonicalLabelOf value) = false) ∧
      ∀ (references : List (Text × Text)) (bindings : List LinkBinding) (evidenceIds : List Text),
        (∀ binding ∈ bindings, ∀ label, binding.label = some label →
          ∃ value, label = canonicalLabelOf value) →
        Labelled references bindings →
          validateKnownLinkBindings references evidenceIds (some bindings) =
            validateKnownLinkBindings references evidenceIds
              (some (bindings.map LinkBinding.unlabelled)) := by
  refine ⟨fun value => ?_, fun references bindings evidenceIds hserver hlabelled => ?_⟩
  · have hlabel := canonicalLabelOf_spec value
    exact ⟨hlabel.fixed, hlabel.short, hlabel.notUrl, hlabel.safe⟩
  · refine validateKnownLinkBindings_unlabelled (fun binding hbinding label hlabel => ?_) hlabelled
      evidenceIds
    obtain ⟨value, rfl⟩ := hserver binding hbinding label hlabel
    exact (canonicalLabelOf_spec value).fixed

section Samples

/-- The narrow forms of ASCII, which are a normal form for themselves. -/
abbrev narrowTables : UnicodeTables := ⟨fun s => s.map narrow, id⟩

theorem nfkc_narrowTables (s : Text) : @nfkc narrowTables s = s.map narrow := by
  unfold nfkc
  split <;> rfl

theorem narrow_narrow (c : Char) : narrow (narrow c) = narrow c := by
  unfold narrow
  by_cases hwide : 0xFF01 ≤ c.toNat ∧ c.toNat ≤ 0xFF5E
  · have hvalid : (c.toNat - 0xFEE0).isValidChar := Or.inl (by omega)
    have hcode : (Char.ofNat (c.toNat - 0xFEE0)).toNat = c.toNat - 0xFEE0 := by
      unfold Char.ofNat
      rw [dif_pos hvalid]
      rfl
    rw [if_pos hwide, if_neg (by rw [hcode]; omega)]
  · rw [if_neg hwide, if_neg hwide]

abbrev sampleNormalForms : NormalForms :=
  { narrowTables with
    idempotent := fun s => by
      rw [nfkc_narrowTables, nfkc_narrowTables, List.map_map]
      exact List.map_congr_left fun c _ => narrow_narrow c
    stretch := fun before s after h => by
      rw [nfkc_narrowTables, List.map_append, List.map_append] at h
      rw [nfkc_narrowTables]
      exact (List.append_inj (List.append_inj h (by simp)).1 (by simp)).2
    blank := fun before after => by
      rw [nfkc_narrowTables, nfkc_narrowTables, nfkc_narrowTables, List.map_append, List.map_cons]
      rfl }

/-- A link whose label is the server's passes. -/
theorem verified_link_labels_canonical_sample :
    let _ := sampleNormalForms
    let _ : UrlParser := ⟨fun _ => none⟩
    let label := canonicalLabelOf ("Pump manual".toList.map .scalar)
    validateKnownLinkBindings [("L1".toList, label)] ["E1".toList]
        (some [⟨"L1".toList, some label, ["E1".toList]⟩]) =
      validateKnownLinkBindings [("L1".toList, label)] ["E1".toList]
        (some [⟨"L1".toList, none, ["E1".toList]⟩]) := by
  intro _ _ label
  refine verified_link_labels_canonical.2 [("L1".toList, label)]
    [⟨"L1".toList, some label, ["E1".toList]⟩] ["E1".toList] ?_ ?_
  · intro binding hbinding found hfound
    obtain rfl := List.mem_singleton.mp hbinding
    exact ⟨_, (Option.some.inj hfound).symm⟩
  · intro reference hreference ids found hfound
    obtain rfl := List.mem_singleton.mp hreference
    have hkept : bindingOf [⟨"L1".toList, some label, ["E1".toList]⟩] "L1".toList =
        some (["E1".toList], some label) := rfl
    rw [hkept] at hfound
    exact Option.some.inj (Prod.mk.inj (Option.some.inj hfound)).2

end Samples

end OpenVac.Agent
