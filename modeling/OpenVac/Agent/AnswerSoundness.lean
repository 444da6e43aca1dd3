/-
  File:      OpenVac/Agent/AnswerSoundness.lean
  Subject:   What an answer that `validateAnswerV3` accepts is known to satisfy.

  * `AnswerBlock.CitesEvidence`, `AnswerBlock.Shows` -- the places of a block where an evidence id
    and where visible text stand, by the shape of the block; `mem_collectBlockEvidenceIds_iff`,
    `mem_blockVisibleText_of_shows` -- the traversals miss none of them.
  * one lemma for each check: it reports nothing exactly if its condition holds.
  * `SoundAnswer`, `validateAnswerV3_sound` -- the conditions together.
  * `accepted_answer_with_markup` -- visible text is not searched for markup: it is never rendered
    as such.
-/
import OpenVac.Agent.AnswerValidation

namespace OpenVac.Agent

open JsString JsRegex JsUrl ChatV3

/-! ## 1. Where ids and texts stand -/

/-- The block cites the evidence. -/
inductive AnswerBlock.CitesEvidence (id : Text) : AnswerBlock → Prop where
  | paragraph {text : Text} {ids : List Text} (h : id ∈ ids) : CitesEvidence id (.paragraph text ids)
  | list {style : ListStyle} {items ids : List Text} (h : id ∈ ids) :
      CitesEvidence id (.list style items ids)
  | table {columns : List Text} {rows : List (List Text)} {ids : List Text} (h : id ∈ ids) :
      CitesEvidence id (.table columns rows ids)
  | callout {tone : CalloutTone} {title : Option Text} {body : Text} {ids : List Text}
      (h : id ∈ ids) : CitesEvidence id (.callout tone title body ids)

/-- The block shows the text to the user. -/
inductive AnswerBlock.Shows (text : Text) : AnswerBlock → Prop where
  | paragraph {ids : List Text} : Shows text (.paragraph text ids)
  | heading {level : HeadingLevel} : Shows text (.heading level text)
  | listItem {style : ListStyle} {items ids : List Text} (h : text ∈ items) :
      Shows text (.list style items ids)
  | tableColumn {columns : List Text} {rows : List (List Text)} {ids : List Text}
      (h : text ∈ columns) : Shows text (.table columns rows ids)
  | tableCell {columns : List Text} {rows : List (List Text)} {ids row : List Text} (hr : row ∈ rows)
      (h : text ∈ row) : Shows text (.table columns rows ids)
  | codeLanguage {body : Text} : Shows text (.code (some text) body)
  | code {language : Option Text} : Shows text (.code language text)
  | calloutTitle {tone : CalloutTone} {body : Text} {ids : List Text} :
      Shows text (.callout tone (some text) body ids)
  | calloutBody {tone : CalloutTone} {title : Option Text} {ids : List Text} :
      Shows text (.callout tone title text ids)
  | calculationTitle {c : PublicCalculation} (h : text = c.title) : Shows text (.calculation c)
  | calculationResult {c : PublicCalculation} (h : text = c.result) : Shows text (.calculation c)
  | calculationUnit {c : PublicCalculation} (h : some text = c.unit) : Shows text (.calculation c)
  | calculationAssumption {c : PublicCalculation} (h : text ∈ c.assumptions) :
      Shows text (.calculation c)
  | calculationWarning {c : PublicCalculation} (h : text ∈ c.warnings) : Shows text (.calculation c)
  | linkLabel {linkId : Text} : Shows text (.linkReference linkId text)
  | artifactLabel {artifactId : Text} : Shows text (.artifactReference artifactId text)

def AnswerV3.CitesEvidence (answer : AnswerV3) (id : Text) : Prop :=
  ∃ block ∈ answer.blocks, block.CitesEvidence id

def AnswerV3.CitesLink (answer : AnswerV3) (id : Text) : Prop :=
  ∃ label, AnswerBlock.linkReference id label ∈ answer.blocks

def AnswerV3.CitesArtifact (answer : AnswerV3) (id : Text) : Prop :=
  ∃ label, AnswerBlock.artifactReference id label ∈ answer.blocks

def AnswerV3.CitesCalculation (answer : AnswerV3) (id : Text) : Prop :=
  ∃ c : PublicCalculation, c.calculationId = id ∧ AnswerBlock.calculation c ∈ answer.blocks

def AnswerV3.Shows (answer : AnswerV3) (text : Text) : Prop :=
  text ∈ answer.missingInputs ∨ ∃ block ∈ answer.blocks, block.Shows text

theorem mem_collectBlockEvidenceIds_iff {id : Text} {block : AnswerBlock} :
    id ∈ collectBlockEvidenceIds block ↔ block.CitesEvidence id := by
  constructor
  · intro h
    cases block with
    | paragraph text ids => exact .paragraph h
    | list style items ids => exact .list h
    | table columns rows ids => exact .table h
    | callout tone title body ids => exact .callout h
    | heading | code | calculation | linkReference | artifactReference => nomatch h
  · rintro (h | h | h | h) <;> exact h

theorem mem_blockVisibleText_of_shows {text : Text} {block : AnswerBlock} (h : block.Shows text) :
    text ∈ blockVisibleText block := by
  cases h with
  | paragraph | heading | codeLanguage | calloutTitle | linkLabel | artifactLabel =>
    exact List.mem_cons_self
  | code | calloutBody => exact List.mem_cons_of_mem _ List.mem_cons_self
  | listItem h => exact h
  | tableColumn h => exact List.mem_append_left _ h
  | tableCell hr h => exact List.mem_append_right _ (List.mem_flatten_of_mem hr h)
  | calculationTitle h => simp [blockVisibleText, h]
  | calculationResult h => simp [blockVisibleText, h]
  | calculationUnit h => simp [blockVisibleText, ← h]
  | calculationAssumption h => simp [blockVisibleText, h]
  | calculationWarning h => simp [blockVisibleText, h]

theorem mem_unique {id : Text} {values : List Text} : id ∈ unique values ↔ id ∈ values :=
  List.mem_eraseDups

theorem mem_evidenceIds_iff {answer : AnswerV3} {id : Text} :
    id ∈ (collectAnswerV3References answer).evidenceIds ↔ answer.CitesEvidence id := by
  show id ∈ unique _ ↔ ∃ block ∈ answer.blocks, block.CitesEvidence id
  simp only [mem_unique, List.mem_flatMap, mem_collectBlockEvidenceIds_iff]

theorem mem_linkIds_iff {answer : AnswerV3} {id : Text} :
    id ∈ (collectAnswerV3References answer).linkIds ↔ answer.CitesLink id := by
  show id ∈ unique _ ↔ _
  rw [mem_unique, List.mem_flatMap]
  constructor
  · rintro ⟨block, hb, h⟩
    cases block with
    | linkReference linkId label =>
      obtain rfl := List.mem_singleton.mp h
      exact ⟨label, hb⟩
    | _ => nomatch h
  · rintro ⟨label, hb⟩
    exact ⟨_, hb, List.mem_singleton_self id⟩

theorem mem_artifactIds_iff {answer : AnswerV3} {id : Text} :
    id ∈ (collectAnswerV3References answer).artifactIds ↔ answer.CitesArtifact id := by
  show id ∈ unique _ ↔ _
  rw [mem_unique, List.mem_flatMap]
  constructor
  · rintro ⟨block, hb, h⟩
    cases block with
    | artifactReference artifactId label =>
      obtain rfl := List.mem_singleton.mp h
      exact ⟨label, hb⟩
    | _ => nomatch h
  · rintro ⟨label, hb⟩
    exact ⟨_, hb, List.mem_singleton_self id⟩

theorem mem_calculationIds_iff {answer : AnswerV3} {id : Text} :
    id ∈ (collectAnswerV3References answer).calculationIds ↔ answer.CitesCalculation id := by
  show id ∈ unique _ ↔ _
  rw [mem_unique, List.mem_flatMap]
  constructor
  · rintro ⟨block, hb, h⟩
    cases block with
    | calculation c => exact ⟨c, (List.mem_singleton.mp h).symm, hb⟩
    | _ => nomatch h
  · rintro ⟨c, rfl, hb⟩
    exact ⟨_, hb, List.mem_singleton_self _⟩

theorem mem_visibleText_of_shows {answer : AnswerV3} {text : Text} (h : answer.Shows text) :
    text ∈ collectUserVisibleText answer := by
  rcases h with h | ⟨block, hb, h⟩
  · exact List.mem_append_left _ h
  · exact List.mem_append_right _
      (List.mem_flatMap.mpr ⟨block, hb, mem_blockVisibleText_of_shows h⟩)

theorem mem_linkReferences_iff {answer : AnswerV3} {linkId label : Text} :
    (linkId, label) ∈ linkReferences answer ↔
      AnswerBlock.linkReference linkId label ∈ answer.blocks := by
  unfold linkReferences
  rw [List.mem_flatMap]
  constructor
  · rintro ⟨block, hb, h⟩
    cases block with
    | linkReference linkId' label' =>
      obtain ⟨rfl, rfl⟩ := Prod.mk.inj (List.mem_singleton.mp h)
      exact hb
    | _ => nomatch h
  · exact fun hb => ⟨_, hb, List.mem_singleton_self _⟩

/-! ## 2. What each check says -/

theorem validateKnownReferences_eq_nil {references known : List Text} {kind : String} :
    validateKnownReferences references (some known) kind = [] ↔ ∀ id ∈ references, id ∈ known := by
  show List.map _ _ = [] ↔ _
  rw [List.map_eq_nil_iff, List.filter_eq_nil_iff]
  simp only [Bool.not_eq_true, Bool.not_eq_false', List.contains_iff_mem]

theorem ite_isEmpty_eq_nil {α β : Type} {l : List α} {e : β} :
    (if l.isEmpty then [] else [e]) = [] ↔ l = [] := by
  cases l with
  | nil => exact ⟨fun _ => rfl, fun _ => rfl⟩
  | cons => exact ⟨fun h => (nomatch h), fun h => (nomatch h)⟩

theorem compareDeclaredReferences_eq_nil {declared collected : List Text} {fieldName : String} :
    compareDeclaredReferences declared collected fieldName = [] ↔
      ∀ id, id ∈ declared ↔ id ∈ collected := by
  unfold compareDeclaredReferences
  rw [List.append_eq_nil_iff, ite_isEmpty_eq_nil, ite_isEmpty_eq_nil, List.filter_eq_nil_iff,
    List.filter_eq_nil_iff]
  simp only [Bool.not_eq_true, Bool.not_eq_false', List.contains_iff_mem]
  exact ⟨fun h id => ⟨h.2 id, h.1 id⟩, fun h => ⟨fun id => (h id).mpr, fun id => (h id).mp⟩⟩

theorem bindingOf_eq_some {bindings : List LinkBinding} {linkId : Text} {ids : List Text}
    {label : Option Text} (h : bindingOf bindings linkId = some (ids, label)) :
    (∀ id ∈ ids, ∃ b ∈ bindings, b.linkId = linkId ∧ id ∈ b.evidenceIds) ∧
      ∃ b, bindings.find? (fun b => b.linkId == linkId) = some b ∧ b.label = label := by
  unfold bindingOf at h
  cases hf : bindings.filter fun b => b.linkId == linkId with
  | nil =>
    rw [hf] at h
    nomatch h
  | cons first rest =>
    rw [hf] at h
    obtain ⟨rfl, rfl⟩ := Prod.mk.inj (Option.some.inj h)
    constructor
    · intro id hid
      obtain ⟨b, hb, hid⟩ := List.mem_flatMap.mp hid
      obtain ⟨hb, he⟩ := List.mem_filter.mp (hf ▸ hb)
      exact ⟨b, hb, beq_iff_eq.mp he, hid⟩
    · refine ⟨first, ?_, rfl⟩
      rw [← List.head?_filter, hf]
      rfl

section Host

variable [UnicodeTables]

theorem visibleTextErrors_eq_nil {answer : AnswerV3} {forbidden : List Text}
    (h : visibleTextErrors answer forbidden = []) {text : Text} (ht : answer.Shows text) :
    containsUnsafeAnswerVisibleText text = false := by
  unfold visibleTextErrors at h
  cases hf : (collectUserVisibleText answer).find? containsUnsafeAnswerVisibleText with
  | none =>
    exact Bool.eq_false_iff.mpr (List.find?_eq_none.mp hf text (mem_visibleText_of_shows ht))
  | some unsafeText =>
    rw [hf] at h
    exact absurd (List.append_eq_nil_iff.mp h).1 (List.cons_ne_nil _ _)

theorem highRiskErrors_eq_nil {answer : AnswerV3} {risk : RiskLevel} {verified : List Text}
    (h : highRiskErrors answer (collectAnswerV3References answer) risk verified = [])
    (hrisk : risk = .high) (hkind : answer.answerKind = .expert) {id : Text}
    (hid : answer.CitesEvidence id) : id ∈ verified := by
  have hmem := mem_evidenceIds_iff.mpr hid
  unfold highRiskErrors at h
  have hverified := (List.append_eq_nil_iff.mp h).1
  have hcond : (risk == .high && answer.answerKind == .expert) = true := by
    rw [hrisk, hkind]
    rfl
  rw [if_pos hcond, if_neg (by simpa using List.ne_nil_of_mem hmem)] at hverified
  have hnone := ite_isEmpty_eq_nil.mp hverified
  by_contra hno
  have := List.filter_eq_nil_iff.mp hnone id hmem
  simp only [Bool.not_eq_true, Bool.not_eq_false', List.contains_iff_mem] at this
  exact hno this

theorem safe_text_no_address {text : Text} (h : containsUnsafeAnswerVisibleText text = false) :
    ∀ address ∈ ["http://", "https://", "www."],
      ¬ folded address.toList <:+: folded (nfkc text) := by
  intro address ha hin
  refine Bool.false_ne_true (h.symm.trans ?_)
  simp only [List.mem_cons, List.not_mem_nil, or_false] at ha
  rcases ha with rfl | rfl | rfl
  · exact unsafe_of_scheme [] (Or.inl rfl) hin
  · exact unsafe_of_scheme ['s'] (Or.inr rfl) hin
  · exact unsafe_of_www hin

variable [UrlParser]

theorem validateKnownLinkBindings_eq_nil {references : List (Text × Text)} {cited : List Text}
    {bindings : List LinkBinding}
    (h : validateKnownLinkBindings references cited (some bindings) = []) {linkId label : Text}
    (hr : (linkId, label) ∈ references) :
    (∃ b ∈ bindings, b.linkId = linkId ∧ ∃ id ∈ b.evidenceIds, id ∈ cited) ∧
      ∃ b, bindings.find? (fun b => b.linkId == linkId) = some b ∧
        ∀ serverLabel, b.label = some serverLabel →
          label = serverLabel ∧ canonicalVerifiedLinkLabel serverLabel = serverLabel := by
  unfold validateKnownLinkBindings at h
  rw [if_neg (by simpa using List.ne_nil_of_mem hr)] at h
  obtain ⟨hlabels, hrefs⟩ := List.append_eq_nil_iff.mp h
  have hcanonical : ∀ b ∈ bindings, ∀ serverLabel, b.label = some serverLabel →
      canonicalVerifiedLinkLabel serverLabel = serverLabel := by
    intro b hb serverLabel hlabel
    have := List.filter_eq_nil_iff.mp (List.map_eq_nil_iff.mp hlabels) b hb
    rw [hlabel] at this
    simpa using this
  obtain ⟨hbound, hlabel⟩ :=
    List.append_eq_nil_iff.mp (List.flatMap_eq_nil_iff.mp hrefs _ hr)
  cases hb : bindingOf bindings linkId with
  | none =>
    rw [hb] at hbound
    exact absurd hbound (List.cons_ne_nil _ _)
  | some binding =>
    obtain ⟨ids, serverLabel⟩ := binding
    obtain ⟨hids, first, hfirst, rfl⟩ := bindingOf_eq_some hb
    rw [hb] at hbound hlabel
    constructor
    · by_cases hany : ids.any cited.contains = true
      · obtain ⟨id, hid, hc⟩ := List.any_eq_true.mp hany
        obtain ⟨b, hmem, he, hid⟩ := hids id hid
        exact ⟨b, hmem, he, id, hid, List.contains_iff_mem.mp hc⟩
      · exact absurd hbound (by simpa using hany)
    · refine ⟨first, hfirst, fun serverLabel hs => ?_⟩
      have hown := hcanonical first (List.mem_of_find?_eq_some hfirst) serverLabel hs
      rw [hs] at hlabel
      refine ⟨?_, hown⟩
      by_contra hne
      refine absurd hlabel ?_
      have hdiff : label ≠ canonicalVerifiedLinkLabel serverLabel := fun e => hne (e.trans hown)
      simpa using hdiff

/-! ## 3. An accepted answer -/

/-- The ids of the answer are known, its declarations are exact, its links are bound and carry the
    server's label, its visible text is safe, and a high-risk expert answer cites verified
    evidence only. -/
structure SoundAnswer (risk : Option RiskLevel) (evidence links artifacts calculations : List Text)
    (bindings : List LinkBinding) (verified : List Text) (answer : AnswerV3) : Prop where
  evidence_known : ∀ id, answer.CitesEvidence id → id ∈ evidence
  link_known : ∀ id, answer.CitesLink id → id ∈ links
  artifact_known : ∀ id, answer.CitesArtifact id → id ∈ artifacts
  calculation_known : ∀ id, answer.CitesCalculation id → id ∈ calculations
  usedEvidence_exact : ∀ id, id ∈ answer.usedEvidenceIds ↔ answer.CitesEvidence id
  usedLinks_exact : ∀ id, id ∈ answer.usedLinkIds ↔ answer.CitesLink id
  link_bound : ∀ linkId, answer.CitesLink linkId →
    ∃ b ∈ bindings, b.linkId = linkId ∧ ∃ id ∈ b.evidenceIds, answer.CitesEvidence id
  link_label : ∀ linkId label, AnswerBlock.linkReference linkId label ∈ answer.blocks →
    ∃ b, bindings.find? (fun b => b.linkId == linkId) = some b ∧
      ∀ serverLabel, b.label = some serverLabel →
        label = serverLabel ∧ canonicalVerifiedLinkLabel serverLabel = serverLabel
  text_safe : ∀ text, answer.Shows text → containsUnsafeAnswerVisibleText text = false
  no_address : ∀ text, answer.Shows text → ∀ address ∈ ["http://", "https://", "www."],
    ¬ folded address.toList <:+: folded (nfkc text)
  risk_assessed : ∀ level, risk = some level → answer.riskLevel = level
  verified_high : answer.riskLevel = .high → answer.answerKind = .expert →
    ∀ id, answer.CitesEvidence id → id ∈ verified

/-- An accepted value parses to an answer without errors. -/
theorem validateAnswerV3_valid [SchemaLibrary] {input : AnswerV3ValidationInput}
    {answer : AnswerV3} {references : AnswerV3References}
    (h : validateAnswerV3 input = .valid answer references) :
    strictAnswerV3Schema input.value = some answer ∧ answerErrors input answer = [] := by
  unfold validateAnswerV3 at h
  cases hs : strictAnswerV3Schema input.value with
  | none =>
    rw [hs] at h
    nomatch h
  | some parsed =>
    rw [hs] at h
    dsimp only at h
    by_cases hu : (unique (answerErrors input parsed)).isEmpty = true
    · rw [if_pos hu] at h
      obtain ⟨rfl, -⟩ := AnswerV3ValidationResult.valid.inj h
      refine ⟨rfl, List.eq_nil_iff_forall_not_mem.mpr fun e he => ?_⟩
      have hmem := mem_unique.mpr he
      rw [List.isEmpty_iff.mp hu] at hmem
      exact List.not_mem_nil hmem
    · rw [if_neg hu] at h
      nomatch h

/-- **An accepted answer is sound** for the sets the server validates it against. -/
theorem validateAnswerV3_sound [SchemaLibrary] {input : AnswerV3ValidationInput}
    {evidence links artifacts calculations : List Text} {bindings : List LinkBinding}
    {answer : AnswerV3} {references : AnswerV3References}
    (h : validateAnswerV3
      { input with
        knownEvidenceIds := some evidence, knownLinkIds := some links
        knownLinkBindings := some bindings, knownArtifactIds := some artifacts
        knownCalculationIds := some calculations } = .valid answer references) :
    SoundAnswer input.riskLevel evidence links artifacts calculations bindings
      input.verifiedEvidenceIds answer := by
  obtain ⟨-, h⟩ := validateAnswerV3_valid h
  unfold answerErrors at h
  simp only [List.append_eq_nil_iff] at h
  obtain ⟨⟨⟨⟨⟨-, hrisk⟩, -⟩, hrefs⟩, htext⟩, hhigh⟩ := h
  unfold referenceErrors at hrefs
  simp only [List.append_eq_nil_iff, validateKnownReferences_eq_nil,
    compareDeclaredReferences_eq_nil, mem_unique, List.mem_append] at hrefs
  obtain ⟨⟨⟨⟨⟨⟨hevidence, hlinks⟩, hartifacts⟩, hcalculations⟩, husedEvidence⟩, husedLinks⟩,
    hbindings⟩ := hrefs
  have hlevel : answer.riskLevel = input.riskLevel.getD answer.riskLevel := by
    by_contra hdiff
    rw [if_pos hdiff] at hrisk
    exact absurd hrisk (List.cons_ne_nil _ _)
  have hbound : ∀ linkId label, AnswerBlock.linkReference linkId label ∈ answer.blocks → _ :=
    fun linkId label hb => validateKnownLinkBindings_eq_nil hbindings (mem_linkReferences_iff.mpr hb)
  have hsafe : ∀ text, answer.Shows text → containsUnsafeAnswerVisibleText text = false :=
    fun text ht => visibleTextErrors_eq_nil htext ht
  exact {
    evidence_known := fun id hid => hevidence id (Or.inl (mem_evidenceIds_iff.mpr hid))
    link_known := fun id hid => hlinks id (Or.inl (mem_linkIds_iff.mpr hid))
    artifact_known := fun id hid => hartifacts id (mem_artifactIds_iff.mpr hid)
    calculation_known := fun id hid => hcalculations id (mem_calculationIds_iff.mpr hid)
    usedEvidence_exact := fun id => (husedEvidence id).trans mem_evidenceIds_iff
    usedLinks_exact := fun id => (husedLinks id).trans mem_linkIds_iff
    link_bound := by
      rintro linkId ⟨label, hb⟩
      obtain ⟨⟨b, hmem, he, id, hid, hcited⟩, -⟩ := hbound linkId label hb
      exact ⟨b, hmem, he, id, hid, mem_evidenceIds_iff.mp hcited⟩
    link_label := fun linkId label hb => (hbound linkId label hb).2
    text_safe := hsafe
    no_address := fun text ht => safe_text_no_address (hsafe text ht)
    risk_assessed := by
      intro level hl
      rw [hl] at hlevel
      exact hlevel
    verified_high := by
      intro hhighRisk hkind id hid
      exact highRiskErrors_eq_nil hhigh (hlevel.symm.trans hhighRisk) hkind hid }

end Host

/-! ## 4. An answer with a link and with markup in its text -/

/-- A host with trivial tables. -/
@[reducible] def plainTables : UnicodeTables := ⟨fun text => text, fun text => text⟩

@[reducible] def noUrls : UrlParser := ⟨fun _ => none⟩

@[reducible] def noUuids : SchemaLibrary := ⟨fun _ => false, fun _ => false, fun _ => []⟩

def markupAnswer : AnswerV3 where
  answerKind := .direct
  riskLevel := .low
  blocks :=
    [.paragraph "<b>OK</b>".toList ["E1".toList], .linkReference "L1".toList "Manual".toList]
  missingInputs := []
  usedEvidenceIds := ["E1".toList]
  usedLinkIds := ["L1".toList]

def markupValue : Json :=
  .obj
    [("schemaVersion".toList, .str "openvac.answer.v3".toList),
     ("answerKind".toList, .str "direct".toList), ("riskLevel".toList, .str "low".toList),
     ("blocks".toList, .arr
       [.obj
          [("type".toList, .str "paragraph".toList), ("text".toList, .str "<b>OK</b>".toList),
           ("evidenceIds".toList, .arr [.str "E1".toList])],
        .obj
          [("type".toList, .str "link_reference".toList), ("linkId".toList, .str "L1".toList),
           ("label".toList, .str "Manual".toList)]]),
     ("missingInputs".toList, .arr []), ("usedEvidenceIds".toList, .arr [.str "E1".toList]),
     ("usedLinkIds".toList, .arr [.str "L1".toList])]

def markupInput : AnswerV3ValidationInput where
  value := markupValue
  riskLevel := some .low
  question := none
  requiresExpert := false
  minimumLinkCount := 1
  knownEvidenceIds := some ["E1".toList]
  knownLinkIds := some ["L1".toList]
  knownLinkBindings := some [⟨"L1".toList, some "Manual".toList, ["E1".toList]⟩]
  knownArtifactIds := some []
  knownCalculationIds := some []
  verifiedEvidenceIds := ["E1".toList]
  forbiddenVisibleTerms := []

theorem markupInput_accepted :
    @validateAnswerV3 plainTables noUrls noUuids markupInput =
      .valid markupAnswer (collectAnswerV3References markupAnswer) := by
  decide +kernel

/-- The conditions hold of an answer with a bound link. -/
theorem markupAnswer_sound :
    @SoundAnswer plainTables noUrls (some .low) ["E1".toList] ["L1".toList] [] []
      [⟨"L1".toList, some "Manual".toList, ["E1".toList]⟩] ["E1".toList] markupAnswer :=
  @validateAnswerV3_sound plainTables noUrls noUuids markupInput _ _ _ _ _ _ _
    markupInput_accepted

/-- A text contains a tag of letters. -/
def HasMarkup (text : Text) : Prop :=
  ∃ name : Text, name ≠ [] ∧ name.all Char.isAlpha ∧ '<' :: name ++ ['>'] <:+: text

/-- Visible text is not searched for markup: an answer with a tag in its text is accepted. -/
theorem accepted_answer_with_markup :
    ¬ ∀ [UnicodeTables] [UrlParser] [SchemaLibrary] (input : AnswerV3ValidationInput)
      (answer : AnswerV3) (references : AnswerV3References),
      validateAnswerV3 input = .valid answer references →
        ∀ text, answer.Shows text → ¬ HasMarkup text := by
  intro h
  refine @h plainTables noUrls noUuids markupInput _ _ markupInput_accepted "<b>OK</b>".toList ?_ ?_
  · exact Or.inr ⟨_, List.mem_cons_self, .paragraph⟩
  · exact ⟨['b'], List.cons_ne_nil _ _, rfl, ⟨[], "OK</b>".toList, rfl⟩⟩

end OpenVac.Agent
