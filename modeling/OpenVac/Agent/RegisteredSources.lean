/-
  File:      OpenVac/Agent/RegisteredSources.lean
  Subject:   The sources of a run: `EvidenceRegistry` of server/agent/evidence-registry.ts over
             every sequence of additions.

  * An addition is one call of `add`, `addPrivate` or `bindVerifiedLink`; a run starts empty.
  * `Addition.apply_cases` -- what one addition does: nothing new, or one entry at the end.
  * `Registered` -- ids in the order of first registration, one for each source, no tier below B, and
    which entries are private.
-/
import OpenVac.Agent.EvidenceRegistry
import OpenVac.Lib.JsMap

namespace OpenVac.Agent

open JsString JsUrl Chat

/-! ## 1. Additions -/

/-- What a caller of `addPrivate` gives. -/
structure PrivateEvidence where
  sourceId : Text
  title : Text
  excerpt : Text
  locator : Option Text
  publisher : Option Text
  reviewStatus : Option SourceReviewStatus
  runtimeValidated : Option Bool
  deriving DecidableEq, Repr

namespace EvidenceRegistry

/-- The id of an added private source, and the registry after. -/
def addPrivate (registry : EvidenceRegistry) (input : PrivateEvidence) : Text × EvidenceRegistry :=
  match bySource registry input.sourceId with
  | some existing => (existing.id, registry)
  | none =>
      let entry : RegisteredEvidence :=
        { id := nextId registry
          evidence :=
            { citation :=
                { sourceId := input.sourceId
                  title := input.title
                  publisher := input.publisher.getD "用户私有附件".toList
                  url := "https://private.invalid/".toList
                  pageOrSection := input.locator
                  fetchedAt := 0
                  licenseClass := .private_authorized }
              excerpt := input.excerpt }
          originalSourceId := input.sourceId
          trustTier := .tier_b
          reviewStatus := input.reviewStatus.getD .pending_review
          runtimeValidated := input.runtimeValidated.getD false
          citationVisible := false
          linkId := none
          linkHostname := none }
      (entry.id, registry ++ [entry])

/-- `registry.has(id)`. -/
def has (registry : EvidenceRegistry) (id : Text) : Bool := (get registry id).isSome

end EvidenceRegistry

/-- One call that changes the registry. -/
inductive Addition where
  | add (evidence : GroundingEvidence) (policy : EvidencePolicy)
  | addPrivate (input : PrivateEvidence)
  | bindVerifiedLink (id linkId hostname : Text)
  deriving DecidableEq, Repr

namespace Addition

def isPrivate : Addition → Bool
  | .addPrivate _ => true
  | .add .. | .bindVerifiedLink .. => false

/-- The excerpt that the call comes with. -/
def excerpt : Addition → Option Text
  | .add evidence _ => some evidence.excerpt
  | .addPrivate input => some input.excerpt
  | .bindVerifiedLink .. => none

variable [UrlParser] [CaseTables]

/-- The id the call returns, and the registry after. -/
def apply (registry : EvidenceRegistry) : Addition → Option Text × EvidenceRegistry
  | .add evidence policy => registry.add evidence policy
  | .addPrivate input => (some (registry.addPrivate input).1, (registry.addPrivate input).2)
  | .bindVerifiedLink id linkId hostname => (none, registry.bindVerifiedLink id linkId hostname)

/-- The original source id that the call registers; none where the tier is refused. -/
def registers : Addition → Option Text
  | .add evidence policy =>
      if policy.trustTier.getD (inferTrustTier evidence.citation.url) = .tier_c ∨
          policy.trustTier.getD (inferTrustTier evidence.citation.url) = .blocked then none
      else some evidence.citation.sourceId
  | .addPrivate input => some input.sourceId
  | .bindVerifiedLink .. => none

end Addition

/-- The entry without the link bound to it. -/
def RegisteredEvidence.core (entry : RegisteredEvidence) : RegisteredEvidence :=
  { entry with linkId := none, linkHostname := none }

namespace EvidenceRegistry

theorem bindVerifiedLink_core (registry : EvidenceRegistry) (id linkId hostname : Text) :
    (registry.bindVerifiedLink id linkId hostname).map RegisteredEvidence.core =
      registry.map RegisteredEvidence.core := by
  unfold bindVerifiedLink
  rw [List.map_map]
  refine List.map_congr_left fun entry _ => ?_
  unfold RegisteredEvidence.core
  by_cases h : entry.id = id
  · simp [h]
  · simp [h]

theorem bySource_some {registry : EvidenceRegistry} {sourceId : Text} {entry : RegisteredEvidence}
    (h : registry.bySource sourceId = some entry) :
    entry ∈ registry ∧ entry.originalSourceId = sourceId := by
  unfold bySource at h
  exact ⟨List.mem_of_find?_eq_some h, by simpa using List.find?_some h⟩

theorem bySource_none {registry : EvidenceRegistry} {sourceId : Text}
    (h : registry.bySource sourceId = none) :
    sourceId ∉ registry.map (·.originalSourceId) := by
  unfold bySource at h
  intro hmem
  obtain ⟨entry, hentry, hid⟩ := List.mem_map.mp hmem
  have hno := List.find?_eq_none.mp h entry hentry
  exact hno (by simpa using hid)

end EvidenceRegistry

theorem decimal_injective {m n : Nat} (h : decimal m = decimal n) : m = n := by
  have hdigits : ∀ k, decimal k = Nat.toDigits 10 k := fun _ => Nat.toList_repr
  rw [hdigits, hdigits] at h
  calc
    m = Nat.ofDigitChars 10 (Nat.toDigits 10 m) 0 := Nat.ofDigitChars_ten_toDigits.symm
    _ = Nat.ofDigitChars 10 (Nat.toDigits 10 n) 0 := by rw [h]
    _ = n := Nat.ofDigitChars_ten_toDigits

/-! ## 2. What one addition does -/

section Steps

variable [UrlParser] [CaseTables]

/-- **What an addition does** to a registry. -/
inductive AdditionEffect (registry : EvidenceRegistry) (addition : Addition) :
    Option Text × EvidenceRegistry → Prop where
  | nothing (registry' : EvidenceRegistry) (hregisters : addition.registers = none)
      (hcore : registry'.map RegisteredEvidence.core = registry.map RegisteredEvidence.core) :
      AdditionEffect registry addition (none, registry')
  | known (entry : RegisteredEvidence) (hmem : entry ∈ registry)
      (hregisters : addition.registers = some entry.originalSourceId) :
      AdditionEffect registry addition (some entry.id, registry)
  | new (entry : RegisteredEvidence) (hid : entry.id = registry.nextId)
      (hregisters : addition.registers = some entry.originalSourceId)
      (hnew : entry.originalSourceId ∉ registry.map (·.originalSourceId))
      (htier : entry.trustTier = .tier_a ∨ entry.trustTier = .tier_b)
      (hvisible : entry.citationVisible = !addition.isPrivate)
      (hexcerpt : addition.excerpt = some entry.evidence.excerpt) :
      AdditionEffect registry addition (some registry.nextId, registry ++ [entry])

theorem Addition.apply_cases (registry : EvidenceRegistry) (addition : Addition) :
    AdditionEffect registry addition (addition.apply registry) := by
  cases addition with
  | bindVerifiedLink id linkId hostname =>
    exact .nothing _ rfl (registry.bindVerifiedLink_core id linkId hostname)
  | addPrivate input =>
    show AdditionEffect registry (.addPrivate input)
      (some (registry.addPrivate input).1, (registry.addPrivate input).2)
    unfold EvidenceRegistry.addPrivate
    cases hby : registry.bySource input.sourceId with
    | some existing =>
      obtain ⟨hmem, hid⟩ := EvidenceRegistry.bySource_some hby
      have hregisters : (Addition.addPrivate input).registers = some input.sourceId := rfl
      exact .known existing hmem (by rw [hid, hregisters])
    | none =>
      dsimp only
      refine AdditionEffect.new _ ?_ ?_ ?_ ?_ ?_ ?_
      · rfl
      · rfl
      · exact EvidenceRegistry.bySource_none hby
      · exact Or.inr rfl
      · rfl
      · rfl
  | add evidence policy =>
    unfold Addition.apply EvidenceRegistry.add
    dsimp only
    by_cases htier : policy.trustTier.getD (inferTrustTier evidence.citation.url) = .tier_c ∨
        policy.trustTier.getD (inferTrustTier evidence.citation.url) = .blocked
    · rw [if_pos htier]
      exact .nothing _ (if_pos htier) rfl
    · rw [if_neg htier]
      have hregisters : (Addition.add evidence policy).registers =
          some evidence.citation.sourceId := if_neg htier
      cases hby : registry.bySource evidence.citation.sourceId with
      | some existing =>
        obtain ⟨hmem, hid⟩ := EvidenceRegistry.bySource_some hby
        exact .known existing hmem (by rw [hid, hregisters])
      | none =>
        dsimp only
        refine AdditionEffect.new _ ?_ hregisters ?_ ?_ ?_ ?_
        · rfl
        · exact EvidenceRegistry.bySource_none hby
        · rw [not_or] at htier
          dsimp only
          cases hcase : policy.trustTier.getD (inferTrustTier evidence.citation.url) with
          | tier_a => exact Or.inl rfl
          | tier_b => exact Or.inr rfl
          | tier_c => exact absurd hcase htier.1
          | blocked => exact absurd hcase htier.2
        · rfl
        · rfl

/-! ## 3. Runs -/

/-- The registry after a sequence of additions. -/
def EvidenceRegistry.after (additions : List Addition) : EvidenceRegistry :=
  additions.foldl (fun registry addition => (addition.apply registry).2) []

/-- The `i`-th evidence id, from `E1` on. -/
def evidenceIdAt (i : Nat) : Text := 'E' :: decimal (i + 1)

/-- The addition that registered a source first. -/
def firstAddition (additions : List Addition) (sourceId : Text) : Option Addition :=
  additions.find? fun addition => addition.registers == some sourceId

def firstPrivate (additions : List Addition) (sourceId : Text) : Bool :=
  (firstAddition additions sourceId).any Addition.isPrivate

def firstText (additions : List Addition) (sourceId : Text) : Option Text :=
  (firstAddition additions sourceId).bind Addition.excerpt

/-- **The registry of a run.** -/
structure Registered (additions : List Addition) (registry : EvidenceRegistry) : Prop where
  ids : registry.map (·.id) = (List.range registry.length).map evidenceIdAt
  sources : registry.map (·.originalSourceId) =
    (additions.filterMap Addition.registers).eraseDups
  tiers : ∀ entry ∈ registry, entry.trustTier = .tier_a ∨ entry.trustTier = .tier_b
  visible : ∀ entry ∈ registry,
    entry.citationVisible = !firstPrivate additions entry.originalSourceId
  texts : ∀ entry ∈ registry,
    firstText additions entry.originalSourceId = some entry.evidence.excerpt

theorem EvidenceRegistry.after_concat (additions : List Addition) (addition : Addition) :
    EvidenceRegistry.after (additions ++ [addition]) =
      (addition.apply (EvidenceRegistry.after additions)).2 := by
  unfold EvidenceRegistry.after
  rw [List.foldl_append]
  rfl

theorem firstAddition_concat {additions : List Addition} {sourceId : Text}
    (h : sourceId ∈ additions.filterMap Addition.registers) (more : List Addition) :
    firstAddition (additions ++ more) sourceId = firstAddition additions sourceId := by
  obtain ⟨earlier, hmem, hregisters⟩ := List.mem_filterMap.mp h
  unfold firstAddition
  rw [List.find?_append]
  cases hfind : additions.find? fun addition => addition.registers == some sourceId with
  | some _ => rfl
  | none =>
    have hno := List.find?_eq_none.mp hfind earlier hmem
    exact absurd (beq_iff_eq.mpr hregisters) hno

theorem firstAddition_new {additions : List Addition} {addition : Addition} {sourceId : Text}
    (h : sourceId ∉ additions.filterMap Addition.registers)
    (hregisters : addition.registers = some sourceId) :
    firstAddition (additions ++ [addition]) sourceId = some addition := by
  have hnone : (additions.find? fun addition => addition.registers == some sourceId) = none := by
    rw [List.find?_eq_none]
    intro earlier hmem heq
    exact h (List.mem_filterMap.mpr ⟨earlier, hmem, beq_iff_eq.mp heq⟩)
  unfold firstAddition
  rw [List.find?_append, hnone, Option.none_or, List.find?_cons_of_pos (by simp [hregisters])]

omit [UrlParser] [CaseTables] in
/-- The fields of an entry that binding a link leaves. -/
theorem core_fields {registry registry' : EvidenceRegistry}
    (h : registry'.map RegisteredEvidence.core = registry.map RegisteredEvidence.core) :
    registry'.map (·.id) = registry.map (·.id) ∧
      registry'.map (·.originalSourceId) = registry.map (·.originalSourceId) ∧
      registry'.length = registry.length ∧
      ∀ entry' ∈ registry', ∃ entry ∈ registry, entry'.trustTier = entry.trustTier ∧
        entry'.originalSourceId = entry.originalSourceId ∧
        entry'.citationVisible = entry.citationVisible ∧ entry'.evidence = entry.evidence := by
  have hid := congrArg (List.map (·.id)) h
  have hsource := congrArg (List.map (·.originalSourceId)) h
  rw [List.map_map, List.map_map] at hid hsource
  refine ⟨hid, hsource, ?_, fun entry' hentry' => ?_⟩
  · have hlength := congrArg List.length h
    rw [List.length_map, List.length_map] at hlength
    exact hlength
  · have hmem : entry'.core ∈ registry.map RegisteredEvidence.core := by
      rw [← h]
      exact List.mem_map_of_mem hentry'
    obtain ⟨entry, hentry, hcore⟩ := List.mem_map.mp hmem
    unfold RegisteredEvidence.core at hcore
    injection hcore with _ h2 h3 h4 _ _ h7
    exact ⟨entry, hentry, h4.symm, h3.symm, h7.symm, h2.symm⟩

/-- **One addition** keeps the registry sound. -/
theorem Registered.step {additions : List Addition} {registry : EvidenceRegistry}
    (h : Registered additions registry) (addition : Addition) :
    Registered (additions ++ [addition]) (addition.apply registry).2 := by
  have hknown : ∀ entry ∈ registry,
      entry.originalSourceId ∈ additions.filterMap Addition.registers := by
    intro entry hentry
    rw [← List.mem_eraseDups, ← h.sources]
    exact List.mem_map_of_mem hentry
  have hstays : ∀ entry ∈ registry, entry.citationVisible =
      !firstPrivate (additions ++ [addition]) entry.originalSourceId := by
    intro entry hentry
    unfold firstPrivate
    rw [firstAddition_concat (hknown entry hentry)]
    exact h.visible entry hentry
  have htexts : ∀ entry ∈ registry,
      firstText (additions ++ [addition]) entry.originalSourceId =
        some entry.evidence.excerpt := by
    intro entry hentry
    unfold firstText
    rw [firstAddition_concat (hknown entry hentry)]
    exact h.texts entry hentry
  have heffect := addition.apply_cases registry
  generalize addition.apply registry = result at heffect ⊢
  cases heffect with
  | nothing registry' hregisters hcore =>
    obtain ⟨hids, hsources, hlength, hfields⟩ := core_fields hcore
    refine ⟨?_, ?_, fun entry' hentry' => ?_, fun entry' hentry' => ?_,
      fun entry' hentry' => ?_⟩
    · dsimp only
      rw [hids, hlength]
      exact h.ids
    · dsimp only
      rw [hsources, h.sources, List.filterMap_append, List.filterMap_cons_none hregisters,
        List.filterMap_nil, List.append_nil]
    · obtain ⟨entry, hentry, htier, -⟩ := hfields entry' hentry'
      rw [htier]
      exact h.tiers entry hentry
    · obtain ⟨entry, hentry, -, hsource, hvisible, -⟩ := hfields entry' hentry'
      rw [hvisible, hsource]
      exact hstays entry hentry
    · obtain ⟨entry, hentry, -, hsource, -, hevidence⟩ := hfields entry' hentry'
      rw [hsource, hevidence]
      exact htexts entry hentry
  | known entry hmem hregisters =>
    refine ⟨h.ids, ?_, h.tiers, hstays, htexts⟩
    have hold : entry.originalSourceId ∈
        (additions.filterMap Addition.registers).eraseDups :=
      List.mem_eraseDups.mpr (hknown entry hmem)
    dsimp only
    rw [h.sources, List.filterMap_append, List.filterMap_cons_some hregisters, List.filterMap_nil,
      JsMap.eraseDups_concat, if_pos hold]
  | new entry hid hregisters hnew htier hvisible hexcerpt =>
    have hfresh : entry.originalSourceId ∉ additions.filterMap Addition.registers := by
      rw [← List.mem_eraseDups, ← h.sources]
      exact hnew
    refine ⟨?_, ?_, fun other hother => ?_, fun other hother => ?_, fun other hother => ?_⟩
    · dsimp only
      rw [List.map_append, List.length_append, List.length_singleton, List.range_succ,
        List.map_append, h.ids, List.map_singleton, List.map_singleton, hid]
      rfl
    · have hno : entry.originalSourceId ∉
          (additions.filterMap Addition.registers).eraseDups :=
        fun hmem => hfresh (List.mem_eraseDups.mp hmem)
      dsimp only
      rw [List.map_append, h.sources, List.filterMap_append,
        List.filterMap_cons_some hregisters, List.filterMap_nil, JsMap.eraseDups_concat,
        if_neg hno]
      rfl
    · rcases List.mem_append.mp hother with hother | hother
      · exact h.tiers other hother
      · obtain rfl := List.mem_singleton.mp hother
        exact htier
    · rcases List.mem_append.mp hother with hother | hother
      · exact hstays other hother
      · obtain rfl := List.mem_singleton.mp hother
        unfold firstPrivate
        rw [firstAddition_new hfresh hregisters]
        exact hvisible
    · rcases List.mem_append.mp hother with hother | hother
      · exact htexts other hother
      · obtain rfl := List.mem_singleton.mp hother
        unfold firstText
        rw [firstAddition_new hfresh hregisters]
        exact hexcerpt

/-- **Every run** keeps the registry sound. -/
theorem sound_after (additions : List Addition) :
    Registered additions (EvidenceRegistry.after additions) := by
  induction additions using List.reverseRecOn with
  | nil => exact ⟨rfl, rfl, (fun _ h => nomatch h), (fun _ h => nomatch h), fun _ h => nomatch h⟩
  | append_singleton additions addition ih =>
    rw [EvidenceRegistry.after_concat]
    exact ih.step addition

/-- No two entries of a run share an id. -/
theorem nodup_ids (additions : List Addition) :
    ((EvidenceRegistry.after additions).map (·.id)).Nodup := by
  rw [(sound_after additions).ids]
  refine List.Nodup.map_on (fun i _ j _ hij => ?_) List.nodup_range
  have hsame := decimal_injective (List.cons.inj hij).2
  omega

/-- The registry only grows: what is registered stays where it is. -/
theorem after_prefix (before more : List Addition) :
    (EvidenceRegistry.after before).map RegisteredEvidence.core <+:
      (EvidenceRegistry.after (before ++ more)).map RegisteredEvidence.core := by
  induction more using List.reverseRecOn with
  | nil =>
    simp only [List.append_nil]
    exact List.prefix_refl _
  | append_singleton more addition ih =>
    rw [← List.append_assoc, EvidenceRegistry.after_concat]
    have heffect := addition.apply_cases (EvidenceRegistry.after (before ++ more))
    generalize addition.apply (EvidenceRegistry.after (before ++ more)) = result at heffect ⊢
    cases heffect with
    | nothing registry' _ hcore =>
      dsimp only
      rw [hcore]
      exact ih
    | known entry _ _ => exact ih
    | new entry _ _ _ _ _ _ =>
      dsimp only
      rw [List.map_append]
      exact ih.trans (List.prefix_append _ _)

/-- **One id for a source**: every addition of it, at any time, returns the id it has in the end. -/
theorem returned_id {before more : List Addition} {addition : Addition} {sourceId : Text}
    (h : addition.registers = some sourceId) :
    ∃ entry ∈ EvidenceRegistry.after (before ++ addition :: more),
      entry.originalSourceId = sourceId ∧
        (addition.apply (EvidenceRegistry.after before)).1 = some entry.id := by
  have hgrows := after_prefix (before ++ [addition]) more
  rw [List.append_assoc, List.singleton_append, EvidenceRegistry.after_concat] at hgrows
  have hhere : ∃ entry ∈ (addition.apply (EvidenceRegistry.after before)).2,
      entry.originalSourceId = sourceId ∧
        (addition.apply (EvidenceRegistry.after before)).1 = some entry.id := by
    have heffect := addition.apply_cases (EvidenceRegistry.after before)
    generalize addition.apply (EvidenceRegistry.after before) = result at heffect ⊢
    cases heffect with
    | nothing registry' hregisters _ =>
      rw [h] at hregisters
      nomatch hregisters
    | known entry hmem hregisters =>
      exact ⟨entry, hmem, (Option.some.inj (h.symm.trans hregisters)).symm, rfl⟩
    | new entry hid hregisters _ _ _ _ =>
      exact ⟨entry, List.mem_append_right _ (List.mem_singleton_self _),
        (Option.some.inj (h.symm.trans hregisters)).symm, by rw [hid]⟩
  obtain ⟨entry, hmem, hsource, hid⟩ := hhere
  obtain ⟨last, hlast, hcore⟩ := List.mem_map.mp (hgrows.subset (List.mem_map_of_mem hmem))
  unfold RegisteredEvidence.core at hcore
  injection hcore with h1 _ h3
  exact ⟨last, hlast, h3.trans hsource, by rw [hid, h1]⟩

end Steps

end OpenVac.Agent
