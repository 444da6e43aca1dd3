/-
  File:      OpenVac/KnowledgeBase/SourcePolicy.lean
  Subject:   The source policy of the knowledge base (server/knowledge/source-policy.ts).

  * `assertKnowledgeSourceAuthorized` -- which sources a version may rest on, by their tier.
  * `assertKnowledgePublicationEvidence` -- the recheck of official PDF binaries.
  * `isSourceAuthorized` -- both, as the review automation and the worker ask them.
  * `rightsSnapshot`, `knowledgeRightsSnapshotHash` -- what a reviewed section pins of its source.
-/
import OpenVac.Lib.Digest
import OpenVac.Lib.JsUrl

namespace OpenVac.KnowledgeBase

open JsString JsUrl

/-- An id of `randomUUID` or `gen_random_uuid`. -/
abbrev Uuid := Nat

/-! ## 1. Sources and citations -/

inductive KnowledgeSourceTier where
  | open_license
  | metadata_only
  | manufacturer_metadata
  | standard_metadata
  | internal
  deriving DecidableEq, Repr

inductive IngestionMode where
  | full_text
  | metadata_only
  deriving DecidableEq, Repr

/-- `excerptVerification.officialPublishedPdfBinaryStatus`: `"complete"` or anything else. -/
inductive BinaryStatus where
  | complete
  | other
  deriving DecidableEq, Repr

structure SourceMetadata where
  /-- `none` where it is null or missing. -/
  rightsDecision : Option Json
  /-- `commercialAiRightsConfirmed === true`. -/
  commercialAiRightsConfirmed : Bool
  /-- `officialPublishedPdfBinaryRequired === true`. -/
  officialPublishedPdfBinaryRequired : Bool

structure KnowledgeSource where
  id : Uuid
  sourceTier : KnowledgeSourceTier
  enabled : Bool
  deletedAt : Option Int
  canonicalUrl : Option Text
  publisher : Option Text
  metadata : SourceMetadata

structure PageRange where
  pageStart : Option Nat
  pageEnd : Option Nat
  deriving DecidableEq, Repr

/-- The keys of `citation_metadata` that the code reads; a value of another type than the code
    expects is `none`. -/
structure CitationMetadata where
  ingestionMode : Option IngestionMode
  sourceUrl : Option Text
  officialText : Option Text
  reviewSectionPages : Option (List PageRange)
  officialPublishedPdfBinaryStatus : Option BinaryStatus
  deriving DecidableEq, Repr

/-! ## 2. The policy -/

inductive KnowledgeSourcePolicyCode where
  | KNOWLEDGE_SOURCE_REQUIRED
  | KNOWLEDGE_SOURCE_DISABLED
  | KNOWLEDGE_SOURCE_DELETED
  | KNOWLEDGE_SOURCE_URL_INVALID
  | KNOWLEDGE_SOURCE_PUBLISHER_REQUIRED
  | KNOWLEDGE_INGESTION_MODE_INVALID
  | SOURCE_LICENSE_RESTRICTED
  | SOURCE_RIGHTS_DECISION_REQUIRED
  | SOURCE_RIGHTS_DECISION_INVALID
  | SOURCE_COMMERCIAL_AI_RIGHTS_REQUIRED
  | KNOWLEDGE_OFFICIAL_BINARY_RECHECK_REQUIRED
  deriving DecidableEq, Repr

structure KnowledgeSourcePolicyError where
  code : KnowledgeSourcePolicyCode
  message : String
  deriving DecidableEq, Repr

/-- `recordValue(value)`, by its keys. -/
def recordValue : Option Json → List (Text × Json)
  | some (.obj fields) => fields
  | some (.arr items) => items.zipIdx.map fun item => ((toString item.2).toList, item.1)
  | _ => []

/-- `record[key] === value` for a text. -/
def hasText (record : List (Text × Json)) (key : String) (value : Text) : Bool :=
  match Json.lookup record key.toList with
  | some (.str s) => s == value
  | _ => false

def isMetadataOnlyTier : KnowledgeSourceTier → Bool
  | .metadata_only => true
  | .manufacturer_metadata => true
  | .standard_metadata => true
  | .open_license => false
  | .internal => false

/-- `validHttpsUrl(value)`. -/
def validHttpsUrl [UrlParser] (value : Option Text) : Option Text := do
  let text ← value
  if (trim text).isEmpty then none
  else
    let parsed ← UrlParser.parse (trim text)
    if parsed.protocol == "https:".toList && parsed.username.isEmpty && parsed.password.isEmpty then
      some (trim text)
    else none

def assertApprovedFullTextDecision (decision : List (Text × Json)) (canonicalUrl : Text) :
    Except KnowledgeSourcePolicyError Unit :=
  if !hasText decision "status" "approved".toList || !hasText decision "scope" "full_text".toList ||
      !hasText decision "appliesToRecordUrl" canonicalUrl then
    .error ⟨.SOURCE_RIGHTS_DECISION_INVALID,
      "rightsDecision 必须批准全文，且仅适用于当前 canonicalUrl。"⟩
  else .ok ()

def assertKnowledgeSourceAuthorized [UrlParser] (source : Option KnowledgeSource)
    (citationMetadata : CitationMetadata) : Except KnowledgeSourcePolicyError Unit := do
  let some source := source
    | .error ⟨.KNOWLEDGE_SOURCE_REQUIRED, "知识版本必须关联受治理的来源记录。"⟩
  if !source.enabled then
    .error ⟨.KNOWLEDGE_SOURCE_DISABLED, "该知识来源未启用。"⟩
  if source.deletedAt.isSome then
    .error ⟨.KNOWLEDGE_SOURCE_DELETED, "该知识来源已删除。"⟩
  let some canonicalUrl := validHttpsUrl source.canonicalUrl
    | .error ⟨.KNOWLEDGE_SOURCE_URL_INVALID, "知识来源必须记录不含凭据的 HTTPS canonicalUrl。"⟩
  if (trim (source.publisher.getD [])).isEmpty then
    .error ⟨.KNOWLEDGE_SOURCE_PUBLISHER_REQUIRED, "知识来源必须记录发布机构。"⟩
  let some ingestionMode := citationMetadata.ingestionMode
    | .error ⟨.KNOWLEDGE_INGESTION_MODE_INVALID, "知识版本缺少有效的入库模式。"⟩
  if isMetadataOnlyTier source.sourceTier then
    if ingestionMode != .metadata_only then
      .error ⟨.SOURCE_LICENSE_RESTRICTED, "该来源层级仅允许元数据、人工摘要与链接，不能入库全文。"⟩
    return ()
  if ingestionMode == .metadata_only then
    return ()
  let decision := recordValue source.metadata.rightsDecision
  let hasDecision := source.metadata.rightsDecision.isSome
  match source.sourceTier with
  | .open_license =>
      if !hasDecision then
        .error ⟨.SOURCE_RIGHTS_DECISION_REQUIRED,
          "开放许可全文必须记录针对该页面的结构化 rightsDecision。"⟩
      assertApprovedFullTextDecision decision canonicalUrl
  | .internal =>
      if hasDecision then
        assertApprovedFullTextDecision decision canonicalUrl
      let structuredCommercialApproval :=
        hasText decision "commercialAiUse" "approved".toList ||
          hasText decision "commercialAiRights" "approved".toList
      if !source.metadata.commercialAiRightsConfirmed && !structuredCommercialApproval then
        .error ⟨.SOURCE_COMMERCIAL_AI_RIGHTS_REQUIRED, "内部全文必须记录商业 AI 使用权批准。"⟩
  | _ => .error ⟨.SOURCE_LICENSE_RESTRICTED, "该来源层级未获准进行全文入库。"⟩

def assertKnowledgePublicationEvidence (source : Option KnowledgeSource)
    (citationMetadata : CitationMetadata) : Except KnowledgeSourcePolicyError Unit :=
  if citationMetadata.ingestionMode != some .full_text then .ok ()
  else
    let binaryStatus := citationMetadata.officialPublishedPdfBinaryStatus
    if ((source.any fun s => s.metadata.officialPublishedPdfBinaryRequired) &&
          binaryStatus != some .complete) ||
        (binaryStatus.isSome && binaryStatus != some .complete) then
      .error ⟨.KNOWLEDGE_OFFICIAL_BINARY_RECHECK_REQUIRED,
        "正式发布 PDF 二进制仍待独立复核，不能发布该知识版本。"⟩
    else .ok ()

/-- `isSourceAuthorized(row, citationMetadata)`. -/
def isSourceAuthorized [UrlParser] (source : Option KnowledgeSource)
    (citationMetadata : CitationMetadata) : Bool :=
  (assertKnowledgeSourceAuthorized source citationMetadata).isOk &&
    (assertKnowledgePublicationEvidence source citationMetadata).isOk

/-! ## 3. What a section pins of its source -/

/-- An object with the rights of a source. -/
abbrev RightsSnapshot := List (Text × Json)

def nullable : Option Text → Json
  | some s => .str s
  | none => .null

def KnowledgeSourceTier.name : KnowledgeSourceTier → String
  | .open_license => "open_license"
  | .metadata_only => "metadata_only"
  | .manufacturer_metadata => "manufacturer_metadata"
  | .standard_metadata => "standard_metadata"
  | .internal => "internal"

/-- `{ ...rightsDecision, status: "approved", sourceId, canonicalUrl, sourceTier, publisher }`:
    `publicationRightsSnapshot` and the end of `currentKnowledgeRightsSnapshot`. -/
def rightsSnapshot (source : KnowledgeSource) : RightsSnapshot :=
  [ ("status".toList, .str "approved".toList),
    ("sourceId".toList, .str (toString source.id).toList),
    ("canonicalUrl".toList, nullable source.canonicalUrl),
    ("sourceTier".toList, .str source.sourceTier.name.toList),
    ("publisher".toList, nullable source.publisher) ].foldl
    (fun fields entry => Json.assign fields entry.1 entry.2)
    (recordValue source.metadata.rightsDecision)

def knowledgeRightsSnapshotHash [LocaleOrder] [Sha256] (snapshot : RightsSnapshot) : Text :=
  (Json.obj snapshot).digest

/-- `snapshot.status === "approved"`. -/
def RightsSnapshot.approved (snapshot : RightsSnapshot) : Bool :=
  hasText snapshot "status" "approved".toList

end OpenVac.KnowledgeBase
