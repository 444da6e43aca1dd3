/-
  File:      OpenVac/Agent/PrivateToolCalls.lean
  Subject:   The private tools of a run: `search_attachment`, `open_attachment_excerpt` and
             `analyze_image` of server/agent/tool-registry.ts over `addPrivate`, with the excerpts
             of server/agent/attachment-tools.ts.

  * A call carries what the service read for it: the selected chunks, the chunk, the analysis.
  * `PrivateCall.execute` -- the result of a call and the registry after.
  * `ReturnsOwn` -- the evidence of a result has the texts that the call read.
  * `calls_return_own` -- when it does, over every run.
-/
import OpenVac.Agent.RegisteredSources
import OpenVac.ChatStorage.AgentStorage

namespace OpenVac.Agent

open JsString JsUrl Chat
open ChatStorage (AttachmentTextChunk)

/-! ## 1. What the model sees of the registry -/

def trustTierText : SourceTrustTier → String
  | .tier_a => "tier_a"
  | .tier_b => "tier_b"
  | .tier_c => "tier_c"
  | .blocked => "blocked"

def reviewStatusText : SourceReviewStatus → String
  | .reviewed => "reviewed"
  | .pending_review => "pending_review"
  | .rejected => "rejected"
  | .runtime_verified => "runtime_verified"

/-- An entry of `modelIndex()`. -/
structure ModelEvidence where
  evidenceId : Text
  title : Text
  publisher : Text
  locator : Option Text
  excerpt : Text
  trustTier : SourceTrustTier
  reviewStatus : SourceReviewStatus
  linkId : Option Text
  linkHostname : Option Text
  deriving DecidableEq, Repr

/-- A field that is left out where it is undefined. -/
def optionalText (key : String) : Option Text → List (String × Json)
  | none => []
  | some value => [(key, .str value)]

def ModelEvidence.json (item : ModelEvidence) : Json :=
  Json.record
    ([("evidenceId", .str item.evidenceId), ("title", .str item.title),
        ("publisher", .str item.publisher)] ++
      optionalText "locator" item.locator ++
      [("excerpt", .str item.excerpt), ("trustTier", Json.text (trustTierText item.trustTier)),
        ("reviewStatus", Json.text (reviewStatusText item.reviewStatus))] ++
      optionalText "linkId" item.linkId ++ optionalText "linkHostname" item.linkHostname)

def RegisteredEvidence.forModel (entry : RegisteredEvidence) : ModelEvidence :=
  { evidenceId := entry.id
    title := entry.evidence.citation.title
    publisher := entry.evidence.citation.publisher
    locator := entry.evidence.citation.pageOrSection
    excerpt := entry.evidence.excerpt
    trustTier := entry.trustTier
    reviewStatus := entry.reviewStatus
    linkId := entry.linkId.filter fun linkId => !linkId.isEmpty
    linkHostname :=
      if entry.linkId.any fun linkId => !linkId.isEmpty then entry.linkHostname else none }

def EvidenceRegistry.modelIndex (registry : EvidenceRegistry) : List ModelEvidence :=
  registry.map RegisteredEvidence.forModel

/-! ## 2. Results of calls -/

def MAX_RESULT_BYTES : Nat := 32 * 1024

structure AttachmentMatch where
  attachmentId : Text
  chunkId : Text
  evidenceId : Text
  pageNumber : Option Nat
  deriving DecidableEq, Repr

def AttachmentMatch.json (found : AttachmentMatch) : Json :=
  Json.record
    ([("attachmentId", .str found.attachmentId), ("chunkId", .str found.chunkId),
        ("evidenceId", .str found.evidenceId)] ++
      match found.pageNumber with
      | none => []
      | some pageNumber => [("pageNumber", .num (decimal pageNumber))])

/-- The value a call puts out: evidence, with the matches of a search, or an error code. -/
inductive ToolValue where
  | found (attachmentMatches : Option (List AttachmentMatch)) (evidence : List ModelEvidence)
  | failed (error : Text)
  deriving DecidableEq, Repr

def ToolValue.json : ToolValue → Json
  | .found attachmentMatches evidence =>
      Json.record
        ([("ok", .bool true)] ++
          (match attachmentMatches with
            | none => []
            | some entries => [("matches", .arr (entries.map AttachmentMatch.json))]) ++
          [("evidence", .arr (evidence.map ModelEvidence.json))])
  | .failed error => Json.record [("ok", .bool false), ("error", .str error)]

/-- The objects of evidence in a value. -/
def ToolValue.evidence : ToolValue → List ModelEvidence
  | .found _ evidence => evidence
  | .failed _ => []

structure ToolExecutionResult where
  value : ToolValue
  evidenceIds : List Text
  deriving DecidableEq, Repr

/-- The value as the call puts it out; one that is too large is replaced by an error. -/
def toolOutput (value : ToolValue) (evidenceIds : List Text) : ToolExecutionResult :=
  if MAX_RESULT_BYTES < (Utf8.encode value.json.stringify).length then
    ⟨.failed "TOOL_RESULT_TOO_LARGE".toList, []⟩
  else ⟨value, evidenceIds⟩

/-! ## 3. Calls -/

/-- A call of one of the three tools, with what the service read for it. -/
inductive PrivateCall where
  | search_attachment (attachmentId query : Text) (selected : List AttachmentTextChunk)
  | open_attachment_excerpt (attachmentId : Text) (chunk : AttachmentTextChunk)
  | analyze_image (attachmentId prompt text : Text)
  deriving DecidableEq, Repr

/-- `attachment:${attachmentId}:${chunkId}`. -/
def attachmentSource (attachmentId chunkId : Text) : Text :=
  "attachment:".toList ++ attachmentId ++ [':'] ++ chunkId

/-- The page, or the chunk where there is none. -/
def chunkLocator (chunk : AttachmentTextChunk) : Text :=
  match chunk.pageNumber with
  | none => chunk.chunkId
  | some pageNumber => "第 ".toList ++ decimal pageNumber ++ " 页".toList

section Calls

variable [UnicodeTables]

/-- The evidence of a chunk. -/
def chunkEvidence (attachmentId : Text) (maximum : Nat) (chunk : AttachmentTextChunk) :
    PrivateEvidence :=
  { sourceId := attachmentSource attachmentId chunk.chunkId
    title := "私有附件摘录".toList
    excerpt := sanitizeEvidenceExcerpt chunk.text maximum
    locator := some (chunkLocator chunk)
    publisher := none
    reviewStatus := none
    runtimeValidated := none }

namespace PrivateCall

/-- What the call read, as it registers it; an error where the service throws. -/
def reads : PrivateCall → Except Text (List PrivateEvidence)
  | .search_attachment attachmentId _ selected =>
      .ok (selected.map (chunkEvidence attachmentId 2600))
  | .open_attachment_excerpt attachmentId chunk => .ok [chunkEvidence attachmentId 4000 chunk]
  | .analyze_image attachmentId _ text =>
      if (trim text).isEmpty then .error "VISION_OUTPUT_INVALID".toList
      else
        .ok
          [{ sourceId := "image-analysis:".toList ++ attachmentId
             title := "私有图片分析".toList
             excerpt := sanitizeEvidenceExcerpt text 6000
             locator := none
             publisher := none
             reviewStatus := none
             runtimeValidated := none }]

/-- The matches of a search. -/
def matchesOf (ids : List Text) : PrivateCall → Option (List AttachmentMatch)
  | .search_attachment attachmentId _ selected =>
      some ((selected.zip ids).map fun found =>
        ⟨attachmentId, found.1.chunkId, found.2, found.1.pageNumber⟩)
  | .open_attachment_excerpt .. | .analyze_image .. => none

end PrivateCall

/-- Several calls of `addPrivate`, with the ids they return. -/
def addAllPrivate (registry : EvidenceRegistry) :
    List PrivateEvidence → List Text × EvidenceRegistry
  | [] => ([], registry)
  | input :: rest =>
      let added := registry.addPrivate input
      let more := addAllPrivate added.2 rest
      (added.1 :: more.1, more.2)

/-- The result of a call, and the registry after. -/
def PrivateCall.execute (registry : EvidenceRegistry) (call : PrivateCall) :
    ToolExecutionResult × EvidenceRegistry :=
  match call.reads with
  | .error error => (toolOutput (.failed error) [], registry)
  | .ok inputs =>
      let added := addAllPrivate registry inputs
      let evidence := added.2.modelIndex.filter fun item => added.1.contains item.evidenceId
      (toolOutput (.found (call.matchesOf added.1) evidence) added.1, added.2)

/-! ## 4. What a call should return -/

/-- **Each evidence object of the result has the text of the read it stands for.** -/
def ReturnsOwn (inputs : List PrivateEvidence) (result : ToolExecutionResult) : Prop :=
  ∀ read ∈ inputs.zip result.evidenceIds,
    (∃ item ∈ result.value.evidence, item.evidenceId = read.2) ∧
      ∀ item ∈ result.value.evidence, item.evidenceId = read.2 → item.excerpt = read.1.excerpt

/-- The additions of a call. -/
def PrivateCall.additions (call : PrivateCall) : List Addition :=
  match call.reads with
  | .error _ => []
  | .ok inputs => inputs.map .addPrivate

variable [UrlParser] [CaseTables]

/-- One step of a run: a call of one of the three tools, or another addition. -/
inductive RegistryStep where
  | call (call : PrivateCall)
  | other (addition : Addition)
  deriving DecidableEq, Repr

namespace RegistryStep

def additions : RegistryStep → List Addition
  | .call toolCall => toolCall.additions
  | .other addition => [addition]

def apply (registry : EvidenceRegistry) : RegistryStep → EvidenceRegistry
  | .call toolCall => (toolCall.execute registry).2
  | .other addition => (addition.apply registry).2

end RegistryStep

/-- The registry after the steps of a run. -/
def registryAfter (steps : List RegistryStep) : EvidenceRegistry :=
  steps.foldl RegistryStep.apply []

/-- The value of a call that read these texts. -/
def PrivateCall.value (registry : EvidenceRegistry) (call : PrivateCall)
    (inputs : List PrivateEvidence) : ToolValue :=
  let added := addAllPrivate registry inputs
  .found (call.matchesOf added.1)
    (added.2.modelIndex.filter fun item => added.1.contains item.evidenceId)

/-- The value is small enough to be put out. -/
def ToolValue.fits (value : ToolValue) : Prop :=
  (Utf8.encode value.json.stringify).length ≤ MAX_RESULT_BYTES

/-! ## 5. Calls as additions -/

omit [UnicodeTables] in
theorem addAllPrivate_eq (registry : EvidenceRegistry) (inputs : List PrivateEvidence) :
    (addAllPrivate registry inputs).2 =
      (inputs.map Addition.addPrivate).foldl (fun registry addition => (addition.apply registry).2)
        registry := by
  induction inputs generalizing registry with
  | nil => rfl
  | cons input rest ih => exact ih _

theorem RegistryStep.apply_eq (registry : EvidenceRegistry) (step : RegistryStep) :
    step.apply registry =
      step.additions.foldl (fun registry addition => (addition.apply registry).2) registry := by
  cases step with
  | other addition => rfl
  | call call =>
    show (call.execute registry).2 = call.additions.foldl _ registry
    unfold PrivateCall.execute PrivateCall.additions
    cases call.reads with
    | error error => rfl
    | ok inputs => exact addAllPrivate_eq registry inputs

/-- The registry of the steps is that of their additions. -/
theorem registryAfter_eq (steps : List RegistryStep) :
    registryAfter steps = EvidenceRegistry.after (steps.flatMap RegistryStep.additions) := by
  induction steps using List.reverseRecOn with
  | nil => rfl
  | append_singleton steps step ih =>
    unfold registryAfter EvidenceRegistry.after at ih ⊢
    rw [List.foldl_append, ih, List.flatMap_append, List.foldl_append, List.flatMap_singleton]
    exact RegistryStep.apply_eq _ step

omit [UnicodeTables] in
/-- **The ids of several reads**: each is that of the entry of the read's source. -/
theorem addAllPrivate_zip (before : List Addition) (inputs : List PrivateEvidence) :
    ∀ read ∈ inputs.zip (addAllPrivate (EvidenceRegistry.after before) inputs).1,
      ∃ entry ∈ (addAllPrivate (EvidenceRegistry.after before) inputs).2,
        entry.originalSourceId = read.1.sourceId ∧ entry.id = read.2 := by
  induction inputs generalizing before with
  | nil => exact fun _ h => nomatch h
  | cons input rest ih =>
    have hstep : ((EvidenceRegistry.after before).addPrivate input).2 =
        EvidenceRegistry.after (before ++ [.addPrivate input]) :=
      (EvidenceRegistry.after_concat before (.addPrivate input)).symm
    intro read hread
    rcases List.mem_cons.mp hread with rfl | hread
    · obtain ⟨entry, hentry, hsource, hid⟩ :=
        @returned_id _ _ before (rest.map .addPrivate) (.addPrivate input) input.sourceId rfl
      refine ⟨entry, ?_, hsource, (Option.some.inj hid).symm⟩
      rw [addAllPrivate_eq]
      unfold EvidenceRegistry.after at hentry ⊢
      rw [List.foldl_append] at hentry
      exact hentry
    · have hrest := ih (before ++ [.addPrivate input])
      rw [← hstep] at hrest
      exact hrest read hread

omit [UnicodeTables] [UrlParser] [CaseTables] in
theorem addAllPrivate_length (registry : EvidenceRegistry) (inputs : List PrivateEvidence) :
    (addAllPrivate registry inputs).1.length = inputs.length := by
  induction inputs generalizing registry with
  | nil => rfl
  | cons input rest ih => exact congrArg (· + 1) (ih _)

/-- **One call**: where its value is put out, the texts are its own exactly if its sources have
    these texts in the registry after it. -/
theorem returnsOwn_iff {before : List Addition} {call : PrivateCall} {inputs : List PrivateEvidence}
    (hreads : call.reads = .ok inputs) :
    ReturnsOwn inputs (call.execute (EvidenceRegistry.after before)).1 ↔
      ((call.value (EvidenceRegistry.after before) inputs).fits →
        ∀ input ∈ inputs,
          firstText (before ++ call.additions) input.sourceId = some input.excerpt) := by
  have hadditions : call.additions = inputs.map .addPrivate := by
    unfold PrivateCall.additions
    rw [hreads]
  have hafter : (addAllPrivate (EvidenceRegistry.after before) inputs).2 =
      EvidenceRegistry.after (before ++ call.additions) := by
    rw [addAllPrivate_eq, hadditions]
    unfold EvidenceRegistry.after
    rw [List.foldl_append]
  have hexecute : (call.execute (EvidenceRegistry.after before)).1 =
      toolOutput (call.value (EvidenceRegistry.after before) inputs)
        (addAllPrivate (EvidenceRegistry.after before) inputs).1 := by
    unfold PrivateCall.execute
    rw [hreads]
    rfl
  rw [hexecute]
  unfold toolOutput
  by_cases hfits : (call.value (EvidenceRegistry.after before) inputs).fits
  · rw [if_neg (not_lt.mpr hfits)]
    have hzip := addAllPrivate_zip before inputs
    have htexts := (sound_after (before ++ call.additions)).texts
    rw [← hafter] at htexts
    -- the one evidence object of a read
    have hitem : ∀ read ∈ inputs.zip (addAllPrivate (EvidenceRegistry.after before) inputs).1,
        ∀ entry ∈ (addAllPrivate (EvidenceRegistry.after before) inputs).2,
          entry.id = read.2 →
            entry.forModel ∈
              (call.value (EvidenceRegistry.after before) inputs).evidence := by
      intro read hread entry hentry hid
      refine List.mem_filter.mpr ⟨List.mem_map_of_mem hentry, ?_⟩
      rw [List.contains_iff_mem]
      show entry.id ∈ _
      rw [hid]
      exact (List.of_mem_zip hread).2
    have hnodup := nodup_ids (before ++ call.additions)
    rw [← hafter] at hnodup
    constructor
    · intro hown _ input hinput
      -- every read has its place among the ids
      obtain ⟨id, hread⟩ : ∃ id,
          (input, id) ∈ inputs.zip (addAllPrivate (EvidenceRegistry.after before) inputs).1 := by
        obtain ⟨i, hi, rfl⟩ := List.mem_iff_getElem.mp hinput
        have hlength := addAllPrivate_length (EvidenceRegistry.after before) inputs
        have hlt : i < (addAllPrivate (EvidenceRegistry.after before) inputs).1.length := by
          omega
        have hzipped : i < (inputs.zip
            (addAllPrivate (EvidenceRegistry.after before) inputs).1).length := by
          rw [List.length_zip]
          omega
        have hplace := List.getElem_mem hzipped
        rw [List.getElem_zip] at hplace
        exact ⟨_, hplace⟩
      obtain ⟨entry, hentry, hsource, hid⟩ := hzip _ hread
      have hexcerpt := (hown _ hread).2 _ (hitem _ hread entry hentry hid) hid
      rw [← hsource, htexts entry hentry]
      exact congrArg some hexcerpt
    · intro hall read hread
      obtain ⟨entry, hentry, hsource, hid⟩ := hzip read hread
      refine ⟨⟨entry.forModel, hitem read hread entry hentry hid, hid⟩, fun item hmem hitemId => ?_⟩
      obtain ⟨other, hother, rfl⟩ := List.mem_map.mp (List.mem_filter.mp hmem).1
      have hsame : other = entry :=
        List.inj_on_of_nodup_map hnodup hother hentry (hitemId.trans hid.symm)
      have htext := hall hfits read.1 (List.of_mem_zip hread).1
      rw [← hsource, htexts entry hentry] at htext
      rw [hsame]
      exact Option.some.inj htext
  · rw [if_pos (not_le.mp hfits)]
    constructor
    · exact fun _ h => absurd h hfits
    · intro _ read hread
      rw [List.zip_nil_right] at hread
      nomatch hread

/-- **Every call of every run**: the evidence it returns has the text it read exactly if, where its
    value is put out, each source it read was registered first with this text. -/
theorem calls_return_own (steps : List RegistryStep) :
    ∀ before call more inputs, steps = before ++ .call call :: more → call.reads = .ok inputs →
      (ReturnsOwn inputs (call.execute (registryAfter before)).1 ↔
        ((call.value (registryAfter before) inputs).fits →
          ∀ input ∈ inputs,
            firstText (before.flatMap RegistryStep.additions ++ call.additions) input.sourceId =
              some input.excerpt)) := by
  intro before call more inputs _ hreads
  rw [registryAfter_eq]
  exact returnsOwn_iff hreads

end Calls

section Examples

/-- Host tables that leave every text as it is. -/
abbrev plainUnicode : UnicodeTables := ⟨id, id⟩

theorem search_returns_own :
    let _ : UnicodeTables := plainUnicode
    let _ : UrlParser := ⟨fun _ => none⟩
    let _ : CaseTables := ⟨id⟩
    ReturnsOwn [chunkEvidence ['a'] 2600 ⟨['c'], ['a'], "leak rate".toList, some 1⟩]
      ((PrivateCall.search_attachment ['a'] "leak".toList
        [⟨['c'], ['a'], "leak rate".toList, some 1⟩]).execute (registryAfter [])).1 := by
  intro _ _ _
  refine (calls_return_own [.call (.search_attachment ['a'] "leak".toList
    [⟨['c'], ['a'], "leak rate".toList, some 1⟩])] [] _ [] _ rfl rfl).mpr fun _ input hinput => ?_
  obtain rfl := List.mem_singleton.mp hinput
  decide +kernel

/-- The second analysis of an image returns the text of the first. -/
theorem second_analysis_returns_first :
    ¬ ∀ [UnicodeTables] [UrlParser] [CaseTables] (steps before : List RegistryStep)
        (call : PrivateCall) (more : List RegistryStep) (inputs : List PrivateEvidence),
      steps = before ++ .call call :: more → call.reads = .ok inputs →
        ReturnsOwn inputs (call.execute (registryAfter before)).1 := by
  intro h
  let _ : UnicodeTables := plainUnicode
  let _ : UrlParser := ⟨fun _ => none⟩
  let _ : CaseTables := ⟨id⟩
  have hown := h
    [.call (.analyze_image ['a'] ['p'] ['x']), .call (.analyze_image ['a'] ['q'] ['y'])]
    [.call (.analyze_image ['a'] ['p'] ['x'])] (.analyze_image ['a'] ['q'] ['y']) [] _ rfl rfl
  have hresult : ((PrivateCall.analyze_image ['a'] ['q'] ['y']).execute
      (registryAfter [.call (.analyze_image ['a'] ['p'] ['x'])])).1.evidenceIds = [['E', '1']] ∧
      ((PrivateCall.analyze_image ['a'] ['q'] ['y']).execute
        (registryAfter [.call (.analyze_image ['a'] ['p'] ['x'])])).1.value.evidence.map
          (fun item => (item.evidenceId, item.excerpt)) = [(['E', '1'], ['x'])] := by
    decide +kernel
  obtain ⟨hids, hevidence⟩ := hresult
  unfold ReturnsOwn at hown
  rw [hids] at hown
  obtain ⟨item, hitem, hpair⟩ := List.map_eq_singleton_iff.mp hevidence
  injection hpair with hid hexcerpt
  have htext := (hown _ List.mem_cons_self).2 item (hitem ▸ List.mem_singleton_self item) hid
  rw [hexcerpt] at htext
  exact absurd htext (by decide +kernel)

end Examples

end OpenVac.Agent
