/-
  File:      OpenVac/Agent/CitedAnswer.lean
  Subject:   Citations of a completed answer: the rendering in `complete` of
             server/agent/run-store.ts over the registry of the run.

  * `completedAnswer` -- the text with its markers and the citations returned with it.
  * `markers_eq` -- the markers of a block are those of the ids it cites, each once.
  * `evidence_cited` -- the registry of a run, and that a marker denotes the citation it numbers.
-/
import OpenVac.Agent.AnswerSoundness
import OpenVac.Agent.RegisteredSources

namespace OpenVac.Agent

open JsString JsUrl Chat

/-! ## 1. The completed answer -/

/-- The used ids that the registry has and shows. -/
def visibleEvidenceIds (registry : EvidenceRegistry) (usedEvidenceIds : List Text) : List Text :=
  let uniqueEvidenceIds := (unique usedEvidenceIds).filter registry.has
  uniqueEvidenceIds.filter fun id => (registry.get id).any (·.citationVisible)

/-- `new Map(ids.map((id, index) => [id, index + 1]))`. -/
def citationNumbers (ids : List Text) (id : Text) : Option Nat := (ids.idxOf? id).map (· + 1)

structure CompletedAnswer where
  content : Text
  citations : List EvidenceRegistry.PublicCitation
  deriving DecidableEq, Repr

def completedAnswer (registry : EvidenceRegistry) (answer : AnswerV3)
    (usedEvidenceIds : List Text) : CompletedAnswer :=
  let visible := visibleEvidenceIds registry usedEvidenceIds
  { content := renderAnswerV3 answer (citationNumbers visible)
    citations := registry.citations visible }

/-! ## 2. Numbers and citations -/

theorem mem_visibleEvidenceIds {registry : EvidenceRegistry} {used : List Text} {id : Text} :
    id ∈ visibleEvidenceIds registry used ↔
      id ∈ used ∧ ∃ entry, registry.get id = some entry ∧ entry.citationVisible = true := by
  unfold visibleEvidenceIds EvidenceRegistry.has unique
  rw [List.mem_filter, List.mem_filter, List.mem_eraseDups]
  cases registry.get id with
  | none => simp
  | some entry => simp

theorem nodup_visibleEvidenceIds (registry : EvidenceRegistry) (used : List Text) :
    (visibleEvidenceIds registry used).Nodup :=
  ((JsMap.nodup_eraseDups used).filter _).filter _

theorem citationNumbers_eq_some {ids : List Text} {id : Text} {n : Nat}
    (h : citationNumbers ids id = some n) : 1 ≤ n ∧ ids[n - 1]? = some id := by
  unfold citationNumbers at h
  obtain ⟨i, hi, rfl⟩ := Option.map_eq_some_iff.mp h
  refine ⟨by omega, ?_⟩
  rw [Nat.add_sub_cancel]
  obtain ⟨hlt, heq, -⟩ := List.idxOf?_eq_some_iff.mp hi
  exact List.getElem?_eq_some_iff.mpr ⟨hlt, heq⟩

theorem citationNumbers_isSome {ids : List Text} {id : Text} :
    (citationNumbers ids id).isSome = true ↔ id ∈ ids := by
  unfold citationNumbers
  rw [Option.isSome_map, List.isSome_idxOf?]

theorem citationNumbers_inj {ids : List Text} {id id' : Text} {n : Nat}
    (h : citationNumbers ids id = some n) (h' : citationNumbers ids id' = some n) : id = id' := by
  have h1 := (citationNumbers_eq_some h).2
  have h2 := (citationNumbers_eq_some h').2
  exact Option.some.inj (h1.symm.trans h2)

/-- What a shown id is cited as. -/
theorem citation_isSome {registry : EvidenceRegistry} {used : List Text} {id : Text}
    (h : id ∈ visibleEvidenceIds registry used) :
    ∃ citation, registry.citation id = some citation ∧ citation.citation.sourceId = id := by
  obtain ⟨-, entry, hget, hvisible⟩ := mem_visibleEvidenceIds.mp h
  unfold EvidenceRegistry.citation
  rw [hget]
  dsimp only
  rw [if_pos hvisible]
  exact ⟨_, rfl, rfl⟩

/-- **The citations returned** stand where the numbers say. -/
theorem citations_getElem {registry : EvidenceRegistry} {used : List Text} {id : Text} {n : Nat}
    (h : citationNumbers (visibleEvidenceIds registry used) id = some n) :
    (registry.citations (visibleEvidenceIds registry used))[n - 1]? = registry.citation id := by
  have hplace := (citationNumbers_eq_some h).2
  have hall : ∀ part : List Text, (∀ id ∈ part, id ∈ visibleEvidenceIds registry used) →
      ∀ i : Nat, (part.filterMap registry.citation)[i]? = part[i]?.bind registry.citation := by
    intro part hpart
    induction part with
    | nil => exact fun i => rfl
    | cons id rest ih =>
      obtain ⟨citation, hcitation, -⟩ := citation_isSome (hpart id List.mem_cons_self)
      intro i
      rw [List.filterMap_cons_some hcitation]
      cases i with
      | zero => simp [hcitation]
      | succ i =>
        rw [List.getElem?_cons_succ, List.getElem?_cons_succ]
        exact ih (fun other hother => hpart other (List.mem_cons_of_mem _ hother)) i
  unfold EvidenceRegistry.citations unique
  rw [JsMap.eraseDups_of_nodup (nodup_visibleEvidenceIds registry used),
    hall _ (fun _ h => h), hplace]
  rfl

/-! ## 3. Markers -/

/-- `[n]`. -/
def marker (n : Nat) : Text := "[".toList ++ decimal n ++ "]".toList

theorem marker_injective {m n : Nat} (h : marker m = marker n) : m = n := by
  unfold marker at h
  rw [List.append_assoc, List.append_assoc] at h
  exact decimal_injective (List.append_cancel_right (List.append_cancel_left h))

/-- The ids a block cites, each once, with their numbers. -/
def numbered (numbers : Text → Option Nat) (evidenceIds : List Text) : List (Text × Nat) :=
  (unique evidenceIds).filterMap fun id => (numbers id).map fun n => (id, n)

theorem mem_numbered {numbers : Text → Option Nat} {evidenceIds : List Text} {cite : Text × Nat} :
    cite ∈ numbered numbers evidenceIds ↔
      cite.1 ∈ evidenceIds ∧ numbers cite.1 = some cite.2 := by
  unfold numbered unique
  rw [List.mem_filterMap]
  constructor
  · rintro ⟨id, hid, hcite⟩
    obtain ⟨n, hn, rfl⟩ := Option.map_eq_some_iff.mp hcite
    exact ⟨List.mem_eraseDups.mp hid, hn⟩
  · rintro ⟨hid, hn⟩
    exact ⟨cite.1, List.mem_eraseDups.mpr hid, by rw [hn]; rfl⟩

/-- **The markers of a block**: one for each id it cites that has a number. -/
theorem markers_eq {numbers : Text → Option Nat}
    (hinj : ∀ id id' n, numbers id = some n → numbers id' = some n → id = id')
    (evidenceIds : List Text) :
    unique (evidenceIds.flatMap fun id =>
      match numbers id with
      | none => []
      | some number => [marker number]) =
      (numbered numbers evidenceIds).map fun cite => marker cite.2 := by
  induction evidenceIds using List.reverseRecOn with
  | nil => rfl
  | append_singleton ids id ih =>
    have hids : unique (ids ++ [id]) =
        if id ∈ ids.eraseDups then unique ids else unique ids ++ [id] :=
      JsMap.eraseDups_concat ids id
    rw [List.flatMap_append, List.flatMap_singleton]
    cases hid : numbers id with
    | none =>
      rw [List.append_nil, ih]
      unfold numbered
      rw [hids]
      by_cases hmem : id ∈ ids.eraseDups
      · rw [if_pos hmem]
      · rw [if_neg hmem, List.filterMap_append, List.filterMap_cons_none (by rw [hid]; rfl),
          List.filterMap_nil, List.append_nil]
    | some n =>
      have hlast := JsMap.eraseDups_concat (ids.flatMap fun id =>
        match numbers id with
        | none => []
        | some number => [marker number]) (marker n)
      -- the marker is there already exactly if the id is
      have hthere : marker n ∈ unique (ids.flatMap fun id =>
          match numbers id with
          | none => []
          | some number => [marker number]) ↔ id ∈ ids.eraseDups := by
        rw [ih, List.mem_map, List.mem_eraseDups]
        constructor
        · rintro ⟨cite, hcite, heq⟩
          obtain ⟨hmem, hn⟩ := mem_numbered.mp hcite
          rw [marker_injective heq] at hn
          rw [hinj id cite.1 n hid hn]
          exact hmem
        · exact fun hmem => ⟨(id, n), mem_numbered.mpr ⟨hmem, hid⟩, rfl⟩
      unfold unique at ih hthere ⊢
      rw [hlast]
      unfold numbered
      rw [hids]
      by_cases hmem : id ∈ ids.eraseDups
      · rw [if_pos (hthere.mpr hmem), if_pos hmem, ih]
        rfl
      · rw [if_neg fun h => hmem (hthere.mp h), if_neg hmem, List.filterMap_append,
          List.filterMap_cons_some (by rw [hid]; rfl), List.filterMap_nil, List.map_append, ih]
        rfl

/-- What a block's rendering ends in. -/
def citationSuffix (cites : List (Text × Nat)) : Text :=
  if cites.isEmpty then [] else ' ' :: (cites.map fun cite => marker cite.2).flatten

theorem appendCitations_eq {numbers : Text → Option Nat}
    (hinj : ∀ id id' n, numbers id = some n → numbers id' = some n → id = id') (text : Text)
    (evidenceIds : List Text) :
    appendCitations text evidenceIds numbers =
      text ++ citationSuffix (numbered numbers evidenceIds) := by
  have hmarkers := congrArg List.flatten (markers_eq hinj evidenceIds)
  show (if (unique (evidenceIds.flatMap fun id =>
      match numbers id with
      | none => []
      | some number => [marker number])).flatten.isEmpty = true then text
    else text ++ [' '] ++ (unique (evidenceIds.flatMap fun id =>
      match numbers id with
      | none => []
      | some number => [marker number])).flatten) = _
  rw [hmarkers]
  unfold citationSuffix
  cases numbered numbers evidenceIds with
  | nil => simp
  | cons cite cites => simp [marker]

/-- **A rendered block** is the block without citations, then its markers. -/
theorem renderBlock_eq {numbers : Text → Option Nat}
    (hinj : ∀ id id' n, numbers id = some n → numbers id' = some n → id = id')
    (block : AnswerBlock) :
    renderBlock numbers block = renderBlock (fun _ => none) block ++
      citationSuffix (numbered numbers (collectBlockEvidenceIds block)) := by
  have hnone : ∀ (text : Text) (ids : List Text),
      appendCitations text ids (fun _ => none) = text := by
    intro text ids
    unfold appendCitations
    have hempty : ∀ l : List Text, (l.flatMap fun _ => ([] : List Text)) = [] := by simp
    simp [hempty, unique]
  have hsuffix : citationSuffix (numbered numbers []) = [] := rfl
  cases block with
  | paragraph text ids =>
    show appendCitations text ids numbers = appendCitations text ids (fun _ => none) ++ _
    rw [appendCitations_eq hinj, hnone]
    rfl
  | list style items ids =>
    show appendCitations _ ids numbers = appendCitations _ ids (fun _ => none) ++ _
    rw [appendCitations_eq hinj, hnone]
    rfl
  | table columns rows ids =>
    show appendCitations _ ids numbers = appendCitations _ ids (fun _ => none) ++ _
    rw [appendCitations_eq hinj, hnone]
    rfl
  | callout tone title body ids =>
    show join ['\n'] (_ ++ ["> ".toList ++ appendCitations body ids numbers]) =
      join ['\n'] (_ ++ ["> ".toList ++ appendCitations body ids (fun _ => none)]) ++ _
    rw [appendCitations_eq hinj, hnone]
    have hcited : collectBlockEvidenceIds (.callout tone title body ids) = ids := rfl
    rw [hcited]
    split
    · simp [join]
    · simp [join]
  | heading level text => exact (List.append_nil _).symm
  | code language code => exact (List.append_nil _).symm
  | calculation c => exact (List.append_nil _).symm
  | linkReference linkId label => exact (List.append_nil _).symm
  | artifactReference artifactId label => exact (List.append_nil _).symm

/-! ## 4. A run and its answer -/

section Runs

variable [UrlParser] [CaseTables]

/-- In a run an id finds its own entry. -/
theorem get_after (additions : List Addition) {entry : RegisteredEvidence}
    (h : entry ∈ EvidenceRegistry.after additions) :
    (EvidenceRegistry.after additions).get entry.id = some entry := by
  cases hget : (EvidenceRegistry.after additions).get entry.id with
  | none =>
    unfold EvidenceRegistry.get at hget
    exact absurd (beq_self_eq_true _) (List.find?_eq_none.mp hget entry h)
  | some found =>
    unfold EvidenceRegistry.get at hget
    have hid : found.id = entry.id := by simpa using List.find?_some hget
    rw [List.inj_on_of_nodup_map (nodup_ids additions) (List.mem_of_find?_eq_some hget) h hid]

/-- **The registry of a run and the answer rendered from it**: the ids are `E1`, `E2`, … in the
    order of first registration, one for each source; no tier is below B; no private entry is among
    the citations; and each block ends in the markers of the shown ids it cites, each of which
    numbers the citation of its id. -/
theorem evidence_cited (additions : List Addition) (answer : AnswerV3) :
    (EvidenceRegistry.after additions).map (·.id) =
        (List.range (EvidenceRegistry.after additions).length).map evidenceIdAt ∧
      (EvidenceRegistry.after additions).map (·.originalSourceId) =
        (additions.filterMap Addition.registers).eraseDups ∧
      (∀ before addition more sourceId, additions = before ++ addition :: more →
        addition.registers = some sourceId →
          ∃ entry ∈ EvidenceRegistry.after additions, entry.originalSourceId = sourceId ∧
            (addition.apply (EvidenceRegistry.after before)).1 = some entry.id) ∧
      (∀ entry ∈ EvidenceRegistry.after additions,
        entry.trustTier ≠ .tier_c ∧ entry.trustTier ≠ .blocked) ∧
      (∀ entry ∈ EvidenceRegistry.after additions,
        firstPrivate additions entry.originalSourceId = true →
          ∀ citation ∈ (completedAnswer (EvidenceRegistry.after additions) answer
            (collectAnswerV3References answer).evidenceIds).citations,
              citation.citation.sourceId ≠ entry.id) ∧
      ∃ numbers, (completedAnswer (EvidenceRegistry.after additions) answer
          (collectAnswerV3References answer).evidenceIds).content = renderAnswerV3 answer numbers ∧
        ∀ block ∈ answer.blocks, ∃ cites : List (Text × Nat),
          renderBlock numbers block =
            renderBlock (fun _ => none) block ++ citationSuffix cites ∧
          (∀ id, id ∈ cites.map (·.1) ↔ id ∈ collectBlockEvidenceIds block ∧
            ∃ entry, (EvidenceRegistry.after additions).get id = some entry ∧
              entry.citationVisible = true) ∧
          ∀ cite ∈ cites, 1 ≤ cite.2 ∧ ∃ citation,
            (completedAnswer (EvidenceRegistry.after additions) answer
              (collectAnswerV3References answer).evidenceIds).citations[cite.2 - 1]? =
                some citation ∧
            (EvidenceRegistry.after additions).citation cite.1 = some citation ∧
            citation.citation.sourceId = cite.1 := by
  have hsound := sound_after additions
  refine ⟨hsound.ids, hsound.sources, ?_, ?_, ?_, ?_⟩
  · rintro before addition more sourceId rfl hregisters
    exact returned_id hregisters
  · intro entry hentry
    rcases hsound.tiers entry hentry with h | h
    · simp [h]
    · simp [h]
  · intro entry hentry hprivate citation hcitation hid
    -- a citation is of a shown entry, and its id finds this one
    unfold completedAnswer EvidenceRegistry.citations at hcitation
    obtain ⟨id, hmem, hcited⟩ := List.mem_filterMap.mp hcitation
    obtain ⟨citation', hcitation', hid'⟩ := citation_isSome (mem_unique.mp hmem)
    obtain ⟨-, shown, hget, hvisible⟩ := mem_visibleEvidenceIds.mp (mem_unique.mp hmem)
    have hsame : citation' = citation := Option.some.inj (hcitation'.symm.trans hcited)
    rw [← hid', hsame, hid, get_after additions hentry] at hget
    rw [← Option.some.inj hget, hsound.visible entry hentry, hprivate] at hvisible
    nomatch hvisible
  · refine ⟨citationNumbers (visibleEvidenceIds (EvidenceRegistry.after additions)
      (collectAnswerV3References answer).evidenceIds), rfl, fun block hblock => ?_⟩
    refine ⟨numbered _ (collectBlockEvidenceIds block),
      renderBlock_eq (fun _ _ _ h h' => citationNumbers_inj h h') block, fun id => ?_,
      fun cite hcite => ?_⟩
    · have hused : id ∈ collectBlockEvidenceIds block →
          id ∈ (collectAnswerV3References answer).evidenceIds :=
        fun h => mem_unique.mpr (List.mem_flatMap.mpr ⟨block, hblock, h⟩)
      rw [List.mem_map]
      constructor
      · rintro ⟨cite, hcite, rfl⟩
        obtain ⟨hcites, hnumber⟩ := mem_numbered.mp hcite
        have hshown := citationNumbers_isSome.mp (Option.isSome_of_eq_some hnumber)
        exact ⟨hcites, (mem_visibleEvidenceIds.mp hshown).2⟩
      · rintro ⟨hcites, hshown⟩
        have hvisible := mem_visibleEvidenceIds.mpr ⟨hused hcites, hshown⟩
        obtain ⟨n, hn⟩ := Option.isSome_iff_exists.mp (citationNumbers_isSome.mpr hvisible)
        exact ⟨(id, n), mem_numbered.mpr ⟨hcites, hn⟩, rfl⟩
    · obtain ⟨-, hnumber⟩ := mem_numbered.mp hcite
      have hshown := citationNumbers_isSome.mp (Option.isSome_of_eq_some hnumber)
      obtain ⟨citation, hcitation, hid⟩ := citation_isSome hshown
      refine ⟨(citationNumbers_eq_some hnumber).1, citation, ?_, hcitation, hid⟩
      rw [← hcitation]
      exact citations_getElem hnumber

end Runs

end OpenVac.Agent
