/-
  File:      OpenVac/Knowledge/RetrievalRows.lean
  Subject:   The rows of knowledge retrieval: the condition of the two queries and their two
             mappings (server/knowledge/retrieval.ts, server/knowledge/lexical.ts,
             server/chat/evidence.ts), and what `search_knowledge` registers of them.

  * A stored section is one row of the join of chunk, version, document and source.
  * `eligible`, `hybridEligible` -- the conditions of the two queries; `mapRetrievalRow`,
    `mapLexicalRow` -- what each makes of the row.
  * The lexical mapping has no review status and no section path: `fallback_agrees_iff` says for
    which sections that makes no difference.
-/
import OpenVac.Agent.EvidenceRegistry
import OpenVac.KnowledgeBase.SourcePolicy
import OpenVac.Lib.JsText

namespace OpenVac.Knowledge

open JsString JsUrl Chat KnowledgeBase

/-! ## 1. Stored sections -/

/-- One row of the join. -/
structure StoredSection where
  chunkId : RandomUuid
  documentId : RandomUuid
  versionId : RandomUuid
  sourceId : RandomUuid
  title : Text
  content : Text
  pageStart : Option ℤ
  pageEnd : Option ℤ
  sectionPath : List (Option Text)
  /-- `kc.embedding IS NOT NULL`. -/
  embedded : Bool
  versionStatus : Text
  documentStatus : Text
  /-- `kd.current_version_id = kv.id`. -/
  current : Bool
  contentHash : Option Text
  versionMetadata : Json
  citationMetadata : Json
  publisher : Option Text
  canonicalUrl : Option Text
  sourceTier : KnowledgeSourceTier
  enabled : Bool
  deletedAt : Option Int
  sourceMetadata : Json

/-- The value at a path of keys. -/
def jsonAt (value : Json) : List String → Option Json
  | [] => some value
  | key :: path =>
      match value with
      | .obj fields => (Json.lookup fields key.toList).bind fun inner => jsonAt inner path
      | _ => none

/-- `value #>> path`: null is NULL, a text is itself, other values are their JSON text. -/
def textAt (value : Json) (path : List String) : Option Text :=
  match jsonAt value path with
  | none | some .null => none
  | some (.str text) => some text
  | some other => some other.stringify

/-- `value #>> path = text`. -/
def isAt (value : Json) (path : List String) (text : String) : Bool :=
  textAt value path == some text.toList

/-- `url ~ '^https://[^/?#[:space:]@]+([/?#]|$)'`. -/
def httpsUrlPattern (url : Text) : Bool :=
  let delimiter (c : Char) : Bool := c == '/' || c == '?' || c == '#'
  let rest := url.drop 8
  let host := rest.takeWhile fun c => !delimiter c && c != '@' && !isWhiteSpace c
  "https://".toList.isPrefixOf url && !host.isEmpty &&
    ((rest.drop host.length).head?.all delimiter)

/-- `btrim(publisher) <> ''`. -/
def hasPublisher (publisher : Option Text) : Bool :=
  publisher.any fun text => text.any fun c => c != ' '

/-- `RETRIEVAL_REVIEW_POLICY_SQL`. -/
def retrievalReviewPolicy (metadata : Json) (contentHash : Option Text) : Bool :=
  (isAt metadata ["reviewStatus"] "approved" && isAt metadata ["review", "status"] "approved") ||
    (isAt metadata ["reviewStatus"] "required" &&
      isAt metadata ["retrievalStatus"] "active_pending_review" &&
      (textAt metadata ["retrievalContentHash"]).any fun text => contentHash == some text)

/-- The decision on the source's rights, as both tiers ask for it. -/
def approvedFullText (metadata : Json) (canonicalUrl : Text) : Bool :=
  isAt metadata ["rightsDecision", "status"] "approved" &&
    isAt metadata ["rightsDecision", "scope"] "full_text" &&
    textAt metadata ["rightsDecision", "appliesToRecordUrl"] == some canonicalUrl

def sourceRights (tier : KnowledgeSourceTier) (metadata : Json) (canonicalUrl : Text) : Bool :=
  match tier with
  | .open_license => approvedFullText metadata canonicalUrl
  | .internal =>
      (isAt metadata ["commercialAiRightsConfirmed"] "true" ||
          isAt metadata ["rightsDecision", "commercialAiUse"] "approved" ||
          isAt metadata ["rightsDecision", "commercialAiRights"] "approved") &&
        ((jsonAt metadata ["rightsDecision"]).isNone || approvedFullText metadata canonicalUrl)
  | .metadata_only | .manufacturer_metadata | .standard_metadata => false

/-- The `WHERE` of `eligible` in the lexical query. -/
def eligible (stored : StoredSection) : Bool :=
  stored.versionStatus == "published".toList && stored.documentStatus == "published".toList &&
    stored.current && isAt stored.citationMetadata ["ingestionMode"] "full_text" &&
    retrievalReviewPolicy stored.versionMetadata stored.contentHash && stored.enabled &&
    stored.deletedAt.isNone &&
    (match stored.canonicalUrl with
      | none => false
      | some url =>
          httpsUrlPattern url && sourceRights stored.sourceTier stored.sourceMetadata url) &&
    hasPublisher stored.publisher

/-- The `WHERE` of the hybrid query asks for the embedding besides. -/
def hybridEligible (stored : StoredSection) : Bool := stored.embedded && eligible stored

/-- `kv.metadata ->> 'reviewStatus' AS review_status`. -/
def StoredSection.reviewStatus (stored : StoredSection) : Option Text :=
  textAt stored.versionMetadata ["reviewStatus"]

/-! ## 2. The two mappings -/

/-- `string | Date`. -/
inductive FetchedAt where
  | text (value : Text)
  | date (milliseconds : Int)
  deriving DecidableEq, Repr

structure RetrievedCitation where
  sourceId : Text
  title : Text
  publisher : Text
  url : Text
  pageOrSection : Option Text
  fetchedAt : FetchedAt
  licenseClass : LicenseClass
  reviewStatus : Option SourceReviewStatus
  deriving DecidableEq, Repr

structure RetrievalCandidate where
  chunkId : Text
  documentId : Text
  versionId : Text
  title : Text
  content : Text
  pageStart : Option ℤ
  pageEnd : Option ℤ
  sectionPath : List (Option Text)
  citation : Option RetrievedCitation
  deriving DecidableEq, Repr

def intText (n : ℤ) : Text := (toString n).toList

/-- `第 a-b 页` or `第 a 页`. -/
def pagesText (pageStart : ℤ) (pageEnd : Option ℤ) : Text :=
  match pageEnd with
  | some last =>
      if last ≠ 0 ∧ last ≠ pageStart then
        "第 ".toList ++ intText pageStart ++ ['-'] ++ intText last ++ " 页".toList
      else "第 ".toList ++ intText pageStart ++ " 页".toList
  | none => "第 ".toList ++ intText pageStart ++ " 页".toList

/-- `value` where it is a text that is not empty. -/
def stringValue (value : Text) : Option Text := if value.isEmpty then none else some value

/-- The texts of the section path, joined. -/
def sectionText (sectionPath : List (Option Text)) : Text :=
  join " > ".toList (sectionPath.filterMap id)

def citationLocation (pageStart pageEnd : Option ℤ) (sectionPath : List (Option Text)) :
    Option Text :=
  let pages := (pageStart.map fun first => pagesText first pageEnd).getD []
  stringValue
    (join ['；'] ([sectionText sectionPath, pages].filter fun text => !text.isEmpty))

def mapLicenseClass : KnowledgeSourceTier → LicenseClass
  | .open_license => .open_
  | .manufacturer_metadata | .standard_metadata => .metadata_only
  | .internal => .private_authorized
  | .metadata_only => .unknown

def requiredRowString (value : Text) (key : String) : Except String Text :=
  if value.isEmpty then .error ("Hybrid retrieval row is missing " ++ key ++ ".") else .ok value

/-- `metadata.fetchedAt ?? metadata.fetched_at ?? new Date(0).toISOString()`. -/
def hybridFetchedAt (metadata : Json) : FetchedAt :=
  let textOf (key : String) : Option Text :=
    match jsonAt metadata [key] with
    | some (.str value) => stringValue value
    | _ => none
  .text (((textOf "fetchedAt").or (textOf "fetched_at")).getD "1970-01-01T00:00:00.000Z".toList)

/-- `mapRetrievalRow`: the row of the hybrid query. -/
def mapRetrievalRow (stored : StoredSection) : Except String RetrievalCandidate := do
  let title ← requiredRowString stored.title "title"
  let content ← requiredRowString stored.content "content"
  let citation : Option RetrievedCitation :=
    (stored.canonicalUrl.bind stringValue).map fun url =>
      { sourceId := stored.sourceId.text ++ ":chunk:".toList ++ stored.chunkId.text
        title := (stringValue stored.title).getD "未命名来源".toList
        publisher := (stored.publisher.bind stringValue).getD "来源发布者未标注".toList
        url := url
        pageOrSection := citationLocation stored.pageStart stored.pageEnd stored.sectionPath
        fetchedAt := hybridFetchedAt stored.citationMetadata
        licenseClass := mapLicenseClass stored.sourceTier
        reviewStatus :=
          some (if stored.reviewStatus == some "approved".toList then .reviewed
            else .pending_review) }
  pure
    { chunkId := stored.chunkId.text
      documentId := stored.documentId.text
      versionId := stored.versionId.text
      title := title
      content := content
      pageStart := stored.pageStart
      pageEnd := stored.pageEnd
      sectionPath := stored.sectionPath.filter Option.isSome
      citation := citation }

def citationFetchedAt (metadata : Json) : FetchedAt :=
  match jsonAt metadata ["fetchedAt"] with
  | some (.str value) => .text value
  | _ => .date 0

/-- The row of the lexical query, as `lexicalFallback` maps it. -/
def mapLexicalRow (stored : StoredSection) : RetrievalCandidate :=
  { chunkId := stored.chunkId.text
    documentId := stored.documentId.text
    versionId := stored.versionId.text
    title := stored.title
    content := stored.content
    pageStart := stored.pageStart
    pageEnd := stored.pageEnd
    sectionPath := stored.sectionPath
    citation :=
      (stored.canonicalUrl.bind stringValue).map fun url =>
        { sourceId := stored.sourceId.text ++ ":chunk:".toList ++ stored.chunkId.text
          title := stored.title
          publisher := (stored.publisher.bind stringValue).getD "来源发布者未标注".toList
          url := url
          pageOrSection := stored.pageStart.map fun first => pagesText first stored.pageEnd
          fetchedAt := citationFetchedAt stored.citationMetadata
          licenseClass :=
            match stored.sourceTier with
            | .open_license => .open_
            | .internal => .private_authorized
            | .metadata_only | .manufacturer_metadata | .standard_metadata => .metadata_only
          reviewStatus := none } }

/-! ## 3. What the tool registers -/

/-- What `search_knowledge` passes to the registry of a candidate's citation. -/
structure ToolEvidence where
  citation : RetrievedCitation
  excerpt : Text
  reviewStatus : SourceReviewStatus
  deriving DecidableEq, Repr

/-- The candidate as evidence: `item.citation.reviewStatus ?? "pending_review"`. -/
def toolEvidence (candidate : RetrievalCandidate) : Option ToolEvidence :=
  candidate.citation.map fun citation =>
    ⟨citation, candidate.content, citation.reviewStatus.getD .pending_review⟩

/-- **The fields the validation and the reader rely on.** -/
structure SameEvidence (left right : ToolEvidence) : Prop where
  sourceId : left.citation.sourceId = right.citation.sourceId
  title : left.citation.title = right.citation.title
  publisher : left.citation.publisher = right.citation.publisher
  url : left.citation.url = right.citation.url
  pageOrSection : left.citation.pageOrSection = right.citation.pageOrSection
  licenseClass : left.citation.licenseClass = right.citation.licenseClass
  reviewStatus : left.reviewStatus = right.reviewStatus
  excerpt : left.excerpt = right.excerpt

/-- The candidate's evidence as `collectLocalEvidence` hands it on. -/
def ToolEvidence.grounding [UnicodeTables] (evidence : ToolEvidence) (fetchedAt : Int) :
    GroundingEvidence :=
  sanitizeGroundingEvidence
    { citation :=
        { sourceId := evidence.citation.sourceId
          title := evidence.citation.title
          publisher := evidence.citation.publisher
          url := evidence.citation.url
          pageOrSection := evidence.citation.pageOrSection
          fetchedAt := fetchedAt
          licenseClass := evidence.citation.licenseClass }
      excerpt := evidence.excerpt } 2200

/-- What `search_knowledge` adds to the registry: a source of knowledge is tier B at least. -/
def registerKnowledge [UnicodeTables] [UrlParser] [CaseTables]
    (registry : Agent.EvidenceRegistry) (evidence : ToolEvidence) (fetchedAt : Int) :
    Option Text × Agent.EvidenceRegistry :=
  let inferred := Agent.inferTrustTier evidence.citation.url
  registry.add (evidence.grounding fetchedAt)
    { trustTier := some (if inferred = .tier_a then .tier_a else .tier_b)
      reviewStatus := some evidence.reviewStatus
      runtimeValidated := false }

/-- Evidence that agrees in those fields is registered the same. -/
theorem SameEvidence.registered [UnicodeTables] [UrlParser] [CaseTables]
    {left right : ToolEvidence} (hsame : SameEvidence left right)
    (registry : Agent.EvidenceRegistry) (fetchedAt : Int) :
    registerKnowledge registry left fetchedAt = registerKnowledge registry right fetchedAt := by
  unfold registerKnowledge ToolEvidence.grounding
  rw [hsame.sourceId, hsame.title, hsame.publisher, hsame.url, hsame.pageOrSection,
    hsame.licenseClass, hsame.reviewStatus, hsame.excerpt]

/-! ## 4. Where the section is found -/

theorem pagesText_ne_nil (pageStart : ℤ) (pageEnd : Option ℤ) :
    pagesText pageStart pageEnd ≠ [] := by
  intro h
  have hlength := congrArg List.length h
  unfold pagesText at hlength
  cases pageEnd with
  | none => simp at hlength
  | some last =>
    dsimp only at hlength
    by_cases hspan : last ≠ 0 ∧ last ≠ pageStart
    · rw [if_pos hspan] at hlength
      simp at hlength
    · rw [if_neg hspan] at hlength
      simp at hlength

theorem stringValue_of_ne {value : Text} (h : value ≠ []) : stringValue value = some value := by
  unfold stringValue
  rw [if_neg (by simpa using h)]

theorem filter_ne_nil {texts : List Text} (h : ∀ text ∈ texts, text ≠ []) :
    (texts.filter fun text => !text.isEmpty) = texts := by
  rw [List.filter_eq_self]
  intro text hmem
  simpa using h text hmem

/-- The location of the hybrid row: section, then pages. -/
theorem citationLocation_pages (first : ℤ) (pageEnd : Option ℤ) {path : List (Option Text)}
    (hsection : sectionText path ≠ []) :
    citationLocation (some first) pageEnd path =
      some (sectionText path ++ '；' :: pagesText first pageEnd) := by
  have hfilter : ([sectionText path, pagesText first pageEnd].filter fun text => !text.isEmpty) =
      [sectionText path, pagesText first pageEnd] := by
    apply filter_ne_nil
    intro text hmem
    rcases List.mem_pair.mp hmem with rfl | rfl
    · exact hsection
    · exact pagesText_ne_nil first pageEnd
  unfold citationLocation
  simp only [Option.map_some, Option.getD_some]
  rw [hfilter, join_cons_cons, join_singleton]
  exact stringValue_of_ne (by simp)

theorem citationLocation_unpaged (pageEnd : Option ℤ) {path : List (Option Text)}
    (hsection : sectionText path ≠ []) :
    citationLocation none pageEnd path = some (sectionText path) := by
  have hfilter : ([sectionText path, []].filter fun text : Text => !text.isEmpty) =
      [sectionText path] := by
    simp [hsection]
  unfold citationLocation
  simp only [Option.map_none, Option.getD_none]
  rw [hfilter, join_singleton]
  exact stringValue_of_ne hsection

theorem citationLocation_sectionless (pageStart pageEnd : Option ℤ) {path : List (Option Text)}
    (hsection : sectionText path = []) :
    citationLocation pageStart pageEnd path =
      pageStart.map fun first => pagesText first pageEnd := by
  unfold citationLocation
  dsimp only
  rw [hsection]
  cases pageStart with
  | none => rfl
  | some first =>
    have hne := pagesText_ne_nil first pageEnd
    have hfilter : ([[], pagesText first pageEnd].filter fun text : Text => !text.isEmpty) =
        [pagesText first pageEnd] := by
      simp [hne]
    simp only [Option.map_some, Option.getD_some]
    rw [hfilter, join_singleton]
    exact stringValue_of_ne hne

/-- **The two mappings name one place exactly when no section is named.** -/
theorem citationLocation_eq_iff (pageStart pageEnd : Option ℤ) (path : List (Option Text)) :
    citationLocation pageStart pageEnd path =
        (pageStart.map fun first => pagesText first pageEnd) ↔
      sectionText path = [] := by
  constructor
  · intro h
    by_contra hsection
    cases pageStart with
    | none =>
      rw [citationLocation_unpaged pageEnd hsection] at h
      exact Option.some_ne_none _ h
    | some first =>
      rw [citationLocation_pages first pageEnd hsection] at h
      have hlength := congrArg List.length (Option.some.inj h)
      dsimp only at hlength
      rw [List.length_append, List.length_cons] at hlength
      omega
  · exact citationLocation_sectionless pageStart pageEnd

/-! ## 5. One section on both paths -/

/-- An eligible section has a citation, and its licence is of one of two tiers. -/
theorem eligible_source {stored : StoredSection} (h : eligible stored = true) :
    (∃ url, stored.canonicalUrl = some url ∧ url ≠ []) ∧
      (stored.sourceTier = .open_license ∨ stored.sourceTier = .internal) := by
  unfold eligible at h
  cases hurl : stored.canonicalUrl with
  | none =>
    rw [hurl] at h
    simp at h
  | some url =>
    rw [hurl] at h
    simp only [Bool.and_eq_true] at h
    obtain ⟨⟨-, hpattern, hrights⟩, -⟩ := h
    constructor
    · refine ⟨url, rfl, ?_⟩
      rintro rfl
      have hempty : httpsUrlPattern [] = false := by decide
      rw [hempty] at hpattern
      exact Bool.false_ne_true hpattern
    · cases htier : stored.sourceTier with
      | open_license => exact .inl rfl
      | internal => exact .inr rfl
      | metadata_only | manufacturer_metadata | standard_metadata =>
        rw [htier] at hrights
        exact (Bool.false_ne_true hrights).elim

theorem requiredRowString_ok {value read : Text} {key : String}
    (h : requiredRowString value key = .ok read) : value ≠ [] ∧ read = value := by
  unfold requiredRowString at h
  by_cases hempty : value.isEmpty
  · rw [if_pos hempty] at h
    cases h
  · rw [if_neg hempty] at h
    cases h
    exact ⟨by simpa using hempty, rfl⟩

/-- What the hybrid mapping gives the tool of a section with a citation. -/
theorem toolEvidence_hybrid {stored : StoredSection} {url : Text}
    (hurl : stored.canonicalUrl = some url) (hne : url ≠ []) {hybrid : RetrievalCandidate}
    (h : mapRetrievalRow stored = .ok hybrid) :
    toolEvidence hybrid = some
      { citation :=
          { sourceId := stored.sourceId.text ++ ":chunk:".toList ++ stored.chunkId.text
            title := stored.title
            publisher := (stored.publisher.bind stringValue).getD "来源发布者未标注".toList
            url := url
            pageOrSection := citationLocation stored.pageStart stored.pageEnd stored.sectionPath
            fetchedAt := hybridFetchedAt stored.citationMetadata
            licenseClass := mapLicenseClass stored.sourceTier
            reviewStatus :=
              some (if stored.reviewStatus == some "approved".toList then .reviewed
                else .pending_review) }
        excerpt := stored.content
        reviewStatus :=
          if stored.reviewStatus == some "approved".toList then .reviewed
          else .pending_review } := by
  unfold mapRetrievalRow at h
  cases htitle : requiredRowString stored.title "title" with
  | error message =>
    rw [htitle] at h
    cases h
  | ok title =>
    cases hcontent : requiredRowString stored.content "content" with
    | error message =>
      rw [htitle, hcontent] at h
      cases h
    | ok content =>
      rw [htitle, hcontent] at h
      cases h
      obtain ⟨htitleNe, rfl⟩ := requiredRowString_ok htitle
      obtain ⟨-, rfl⟩ := requiredRowString_ok hcontent
      unfold toolEvidence
      rw [hurl, Option.bind_some, stringValue_of_ne hne, stringValue_of_ne htitleNe]
      rfl

/-- What the lexical mapping gives it: no review status, so the section counts as pending. -/
theorem toolEvidence_lexical {stored : StoredSection} {url : Text}
    (hurl : stored.canonicalUrl = some url) (hne : url ≠ []) :
    toolEvidence (mapLexicalRow stored) = some
      { citation :=
          { sourceId := stored.sourceId.text ++ ":chunk:".toList ++ stored.chunkId.text
            title := stored.title
            publisher := (stored.publisher.bind stringValue).getD "来源发布者未标注".toList
            url := url
            pageOrSection := stored.pageStart.map fun first => pagesText first stored.pageEnd
            fetchedAt := citationFetchedAt stored.citationMetadata
            licenseClass :=
              match stored.sourceTier with
              | .open_license => .open_
              | .internal => .private_authorized
              | .metadata_only | .manufacturer_metadata | .standard_metadata => .metadata_only
            reviewStatus := none }
        excerpt := stored.content
        reviewStatus := .pending_review } := by
  unfold toolEvidence mapLexicalRow
  rw [hurl, Option.bind_some, stringValue_of_ne hne]
  rfl

theorem hybridStatus_pending_iff (status : Option Text) :
    (if status == some "approved".toList then SourceReviewStatus.reviewed else .pending_review) =
        .pending_review ↔
      status ≠ some "approved".toList := by
  by_cases happroved : status = some "approved".toList
  · subst happroved
    simp
  · rw [if_neg (by simpa using happroved)]
    exact ⟨fun _ => happroved, fun _ => rfl⟩

/-- **A section is the same evidence on both paths exactly when it is not approved and names no
    section.** Approval is what the two paths disagree on: an approved section is reviewed
    evidence on the hybrid path and pending evidence on the lexical one. -/
theorem fallback_agrees_iff (stored : StoredSection) (heligible : hybridEligible stored = true)
    (hybrid : RetrievalCandidate) (hhybrid : mapRetrievalRow stored = .ok hybrid) :
    ∃ left right, toolEvidence hybrid = some left ∧
      toolEvidence (mapLexicalRow stored) = some right ∧
      (SameEvidence left right ↔
        stored.reviewStatus ≠ some "approved".toList ∧ sectionText stored.sectionPath = []) ∧
      (left.reviewStatus = right.reviewStatus ↔
        stored.reviewStatus ≠ some "approved".toList) := by
  have hshared : eligible stored = true := (Bool.and_eq_true _ _ ▸ heligible).2
  obtain ⟨⟨url, hurl, hne⟩, htier⟩ := eligible_source hshared
  refine ⟨_, _, toolEvidence_hybrid hurl hne hhybrid, toolEvidence_lexical hurl hne, ?_, ?_⟩
  · constructor
    · intro hsame
      exact ⟨(hybridStatus_pending_iff _).mp hsame.reviewStatus,
        (citationLocation_eq_iff _ _ _).mp hsame.pageOrSection⟩
    · rintro ⟨hpending, hsection⟩
      exact
        { sourceId := rfl
          title := rfl
          publisher := rfl
          url := rfl
          pageOrSection := (citationLocation_eq_iff _ _ _).mpr hsection
          licenseClass := by rcases htier with htier | htier <;> rw [htier] <;> rfl
          reviewStatus := (hybridStatus_pending_iff _).mpr hpending
          excerpt := rfl }
  · exact hybridStatus_pending_iff _

/-! ## 6. A pending and an approved section -/

def sampleUuid : RandomUuid where
  text := "00000000-0000-4000-8000-000000000000".toList
  length_eq := by decide
  chars := by decide

/-- A section of an open source; the document's review status as given. -/
def sampleSection (reviewStatus : String) (path : List (Option Text)) : StoredSection :=
  { chunkId := sampleUuid, documentId := sampleUuid, versionId := sampleUuid
    sourceId := sampleUuid
    title := "Vacuum pumps".toList, content := "A rotary vane pump.".toList
    pageStart := some 3, pageEnd := some 4, sectionPath := path
    embedded := true
    versionStatus := "published".toList, documentStatus := "published".toList, current := true
    contentHash := some "c0ffee".toList
    versionMetadata := .obj
      [("reviewStatus".toList, .str reviewStatus.toList),
       ("retrievalStatus".toList, .str "active_pending_review".toList),
       ("retrievalContentHash".toList, .str "c0ffee".toList),
       ("review".toList, .obj [("status".toList, .str reviewStatus.toList)])]
    citationMetadata := .obj [("ingestionMode".toList, .str "full_text".toList)]
    publisher := some "Open Press".toList
    canonicalUrl := some "https://example.org/pumps".toList
    sourceTier := .open_license, enabled := true, deletedAt := none
    sourceMetadata := .obj
      [("rightsDecision".toList, .obj
        [("status".toList, .str "approved".toList), ("scope".toList, .str "full_text".toList),
         ("appliesToRecordUrl".toList, .str "https://example.org/pumps".toList)])] }

/-- A pending section without a path is the same evidence on both paths. -/
theorem pending_section_agrees :
    ∃ hybrid left right,
      mapRetrievalRow (sampleSection "required" []) = .ok hybrid ∧
      toolEvidence hybrid = some left ∧
      toolEvidence (mapLexicalRow (sampleSection "required" [])) = some right ∧
      SameEvidence left right := by
  have hok : ∃ hybrid, mapRetrievalRow (sampleSection "required" []) = .ok hybrid := ⟨_, rfl⟩
  obtain ⟨hybrid, hhybrid⟩ := hok
  obtain ⟨left, right, hleft, hright, hiff, -⟩ :=
    fallback_agrees_iff (sampleSection "required" []) (by decide +kernel) hybrid hhybrid
  exact ⟨hybrid, left, right, hhybrid, hleft, hright,
    hiff.mpr ⟨by decide +kernel, by decide +kernel⟩⟩

/-- **An approved section is reviewed on one path and pending on the other.** -/
theorem approved_section_differs :
    ¬ ∀ (stored : StoredSection) (hybrid : RetrievalCandidate),
        hybridEligible stored = true → eligible stored = true →
        mapRetrievalRow stored = .ok hybrid →
        ∀ left right, toolEvidence hybrid = some left →
          toolEvidence (mapLexicalRow stored) = some right → SameEvidence left right := by
  intro hclaim
  have hsame := hclaim (sampleSection "approved" []) _ (by decide +kernel) (by decide +kernel) rfl
    _ _ rfl rfl
  have hstatus : SourceReviewStatus.reviewed = .pending_review := hsame.reviewStatus
  cases hstatus

end OpenVac.Knowledge
