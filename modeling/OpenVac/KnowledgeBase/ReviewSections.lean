/-
  File:      OpenVac/KnowledgeBase/ReviewSections.lean
  Subject:   The sections of a version that reviewers decide on, and what their completion and a
             publication check (server/knowledge/review-sections.ts, candidate-schema.ts).

  * `paragraphs`, `pageParagraphs` -- how a text falls into sections, without and with page
    markers.
  * `buildPageAwareKnowledgeReviewSections` -- the sections of a text.
  * `buildCandidateKnowledgeReviewSections`, `renderKnowledgeCandidate` -- the sections of an
    imported candidate, and the text of its version.
  * `assertKnowledgeSectionPublicationReady`, `assertKnowledgeSectionReviewComplete` -- every
    section is unchanged, approved, and not by the version's creator.
-/
import OpenVac.KnowledgeBase.Tables
import OpenVac.Lib.JsRegex

namespace OpenVac.KnowledgeBase

open JsString JsRegex

/-! ## 1. Paragraphs -/

/-- `text.replace(/\r\n?/gu, "\n")`. -/
def normalizeNewlines : Text → Text
  | '\r' :: '\n' :: rest => '\n' :: normalizeNewlines rest
  | '\r' :: rest => '\n' :: normalizeNewlines rest
  | c :: rest => c :: normalizeNewlines rest
  | [] => []

def normalizeText (value : Text) : Text := trim (normalizeNewlines value)

/-- `/\n\s*\n/gu`. -/
def blankLine : Regex := cats [exact "\n", star space, exact "\n"]

/-- `/<!--\s*openvac-page:(\d+)\s*-->\s*/gu`. -/
def pageMarker : Regex :=
  cats [exact "<!--", star space, exact "openvac-page:", plus digit, star space, exact "-->",
    star space]

/-- The stretches of a text before, between and after matches. -/
def stretches (text : Text) (from_ : Nat) : List (Nat × Nat) → List Text
  | [] => [text.drop from_]
  | (start, stop) :: rest => (text.drop from_).take (start - from_) :: stretches text stop rest

/-- `text.split(r)`. -/
def splitAt (r : Regex) (text : Text) : List Text := stretches text 0 (execAll r text)

def paragraphs (value : Text) : List Text :=
  let normalized := normalizeText value
  if normalized.isEmpty then []
  else ((splitAt blankLine normalized).map normalizeText).filter fun s => !s.isEmpty

structure PageParagraph where
  text : Text
  pageStart : Option Nat
  pageEnd : Option Nat
  deriving DecidableEq, Repr

/-- `Number(match[1])`: a marker has no other digits than its page's. -/
def markerPage (marker : Text) : Nat :=
  (marker.filter isDigit).foldl (fun n c => 10 * n + (c.toNat - '0'.toNat)) 0

def pageParagraphs (value : Text) : List PageParagraph :=
  let normalized := normalizeText value
  if normalized.isEmpty then []
  else
    let found := execAll pageMarker normalized
    if found.isEmpty then (paragraphs normalized).map fun text => ⟨text, none, none⟩
    else
      -- what stands before the first marker belongs to no page and is left out
      ((found.zip (stretches normalized 0 found).tail).map fun part =>
        let page := markerPage ((normalized.drop part.1.1).take (part.1.2 - part.1.1))
        (paragraphs part.2).map fun text => ⟨text, some page, some page⟩).flatten

/-! ## 2. Sections of a text -/

section Hashes

variable [LocaleOrder] [Sha256]

def optionalNumber : Option Nat → Json
  | some n => .num (Nat.toDigits 10 n)
  | none => .null

def knowledgeReviewSectionHash (input : KnowledgeReviewSectionInput) : Text :=
  Json.digest
    (Json.record
      [ ("sectionIndex", .num (Nat.toDigits 10 input.sectionIndex)),
        ("contentZh", .str (normalizeText input.contentZh)),
        ("officialText", .str (normalizeText input.officialText)),
        ("pageStart", optionalNumber input.pageStart),
        ("pageEnd", optionalNumber input.pageEnd),
        ("rightsSnapshot", .obj input.rightsSnapshot) ])

/-- A section with its hashes. -/
def hashedSection (versionId : Uuid) (versionContentHash : Text)
    (item : KnowledgeReviewSectionInput) : KnowledgeReviewSection :=
  { item with
    versionId := versionId
    versionContentHash := versionContentHash
    sectionHash := knowledgeReviewSectionHash item
    rightsSnapshotHash := knowledgeRightsSnapshotHash item.rightsSnapshot }

structure SectionBuilderInput where
  versionId : Uuid
  versionContentHash : Text
  contentZh : Text
  officialText : Text
  rightsSnapshot : RightsSnapshot
  pages : Option (List PageRange)

def buildPageAwareKnowledgeReviewSections (input : SectionBuilderInput) :
    List KnowledgeReviewSection :=
  let chinese := pageParagraphs input.contentZh
  let official := pageParagraphs input.officialText
  chinese.zipIdx.map fun (content, sectionIndex) =>
    let page := (input.pages.getD [])[sectionIndex]?
    hashedSection input.versionId input.versionContentHash
      { sectionIndex := sectionIndex
        contentZh := content.text
        officialText := ((official[sectionIndex]?).map (·.text)).getD content.text
        pageStart := content.pageStart.or (page.bind (·.pageStart))
        pageEnd := content.pageEnd.or (page.bind (·.pageEnd))
        rightsSnapshot := input.rightsSnapshot }

/-! ## 3. Candidates -/

inductive LicenseClass where
  | open
  | metadata_only
  deriving DecidableEq, Repr

structure KnowledgeCandidateSection where
  pageStart : Option Nat := none
  pageEnd : Option Nat := none
  sourceSection : Option Text := none
  sectionPath : List Text
  keywords : List Text
  content : Text
  originalExcerptPage : Option Nat := none
  originalExcerpt : Option Text := none
  chineseStatement : Option Text := none
  applicability : Option Text := none
  licenseClass : Option LicenseClass := none
  contentHash : Option Text := none
  /-- `reviewStatus === "required"`. -/
  reviewRequired : Bool := false
  deriving DecidableEq, Repr

/-- `citation`: what becomes the version's citation metadata, and the keys that serve as evidence
    of a metadata entry. -/
structure CandidateCitation where
  ingestionMode : IngestionMode
  metadata : CitationMetadata
  publicationNumber : Option Text := none
  title : Option Text := none
  officialRecordUrl : Option Text := none
  primaryAuthorityUrl : Option Text := none
  claimLocators : Option (List Text) := none
  deriving DecidableEq, Repr

structure KnowledgeCandidate where
  sourceCanonicalUrl : Text
  externalKey : Text
  citation : CandidateCitation
  sections : List KnowledgeCandidateSection
  deriving DecidableEq, Repr

/-- The citation metadata of an imported version. -/
def CandidateCitation.citationMetadata (c : CandidateCitation) : CitationMetadata :=
  { c.metadata with ingestionMode := some c.ingestionMode }

/-- What an audited section has. -/
structure SectionAudit where
  originalExcerptPage : Nat
  originalExcerpt : Text
  chineseStatement : Text
  applicability : Text
  licenseClass : LicenseClass
  contentHash : Text

/-- `hasCompleteKnowledgeSectionAudit(section)`, with what it finds. -/
def completeAudit (s : KnowledgeCandidateSection) : Option SectionAudit := do
  let audit : SectionAudit :=
    { originalExcerptPage := ← s.originalExcerptPage
      originalExcerpt := ← s.originalExcerpt
      chineseStatement := ← s.chineseStatement
      applicability := ← s.applicability
      licenseClass := ← s.licenseClass
      contentHash := ← s.contentHash }
  if s.reviewRequired then some audit else none

def LicenseClass.name : LicenseClass → String
  | .open => "open"
  | .metadata_only => "metadata_only"

def number (n : Nat) : Text := Nat.toDigits 10 n

def renderSection (s : KnowledgeCandidateSection) : Text :=
  let marker :=
    match s.pageStart with
    | none => []
    | some page => "<!-- openvac-page:".toList ++ number page ++ " -->\n".toList
  let pageRange :=
    match s.pageStart with
    | none => []
    | some page =>
        "\n\n来源页码：".toList ++ number page ++
          match s.pageEnd with
          | some last => if last = page then [] else "–".toList ++ number last
          | none => []
  let sourceSection :=
    match s.sourceSection with
    | none => []
    | some name => "\n\n来源章节：".toList ++ name
  let audit :=
    match completeAudit s with
    | none => []
    | some a =>
        "\n\n原文摘录（印刷页 ".toList ++ number a.originalExcerptPage ++ "）：".toList ++
          a.originalExcerpt ++ "\n\n适用条件：".toList ++ a.applicability ++
          "\n\n块审核：required；许可：".toList ++ a.licenseClass.name.toList ++
          "；SHA-256：".toList ++ a.contentHash
  marker ++ "# ".toList ++ join " > ".toList s.sectionPath ++ "\n\n".toList ++
    s.chineseStatement.getD s.content ++ pageRange ++ sourceSection ++ audit ++
    "\n\n关键词：".toList ++ join "、".toList s.keywords

def renderKnowledgeCandidate (candidate : KnowledgeCandidate) : Text :=
  join "\n\n".toList (candidate.sections.map renderSection)

/-- The evidence of a metadata entry, line by line. -/
def metadataEvidence (citation : CandidateCitation) : Text :=
  let present (s : Option Text) : Option Text := s.filter fun t => !t.isEmpty
  let lines : List (Option Text) :=
    [ (present citation.publicationNumber).map ("出版号：".toList ++ ·),
      (present citation.title).map ("来源题名：".toList ++ ·),
      ((present citation.officialRecordUrl).map ("官方记录：".toList ++ ·)).or
        ((present citation.primaryAuthorityUrl).map ("官方机构：".toList ++ ·)),
      citation.claimLocators.map fun locators =>
        "定位：".toList ++ join "；".toList locators ]
  join ['\n'] (lines.filterMap id)

def buildCandidateSection (candidate : KnowledgeCandidate) (versionId : Uuid)
    (versionContentHash : Text) (snapshot : RightsSnapshot) (s : KnowledgeCandidateSection)
    (sectionIndex : Nat) : Except KnowledgeError KnowledgeReviewSection :=
  let sourceLocator := (s.sourceSection.map trim).filter fun t => !t.isEmpty
  let metadataOnly := candidate.citation.ingestionMode == .metadata_only
  match completeAudit s with
  | some audit =>
      .ok (hashedSection versionId versionContentHash
        { sectionIndex := sectionIndex
          contentZh := audit.chineseStatement
          officialText := audit.originalExcerpt
          pageStart := some audit.originalExcerptPage
          pageEnd := some audit.originalExcerptPage
          rightsSnapshot := snapshot })
  | none =>
      if !metadataOnly && sourceLocator.isNone then
        .error (.api 409 "KNOWLEDGE_REVIEW_EVIDENCE_INCOMPLETE"
          ("第 " ++ toString (sectionIndex + 1) ++ " 段缺少官方原文、页码或审核证据。"))
      else
        .ok (hashedSection versionId versionContentHash
          { sectionIndex := sectionIndex
            contentZh := s.content
            officialText :=
              match sourceLocator with
              | some locator =>
                  "官方页面：".toList ++ candidate.sourceCanonicalUrl ++ "\n来源章节：".toList ++
                    locator
              | none => metadataEvidence candidate.citation
            pageStart := none
            pageEnd := none
            rightsSnapshot := snapshot })

def buildCandidateKnowledgeReviewSections (candidate : KnowledgeCandidate) (versionId : Uuid)
    (versionContentHash : Text) (snapshot : RightsSnapshot) :
    Except KnowledgeError (List KnowledgeReviewSection) :=
  candidate.sections.zipIdx.mapM fun s =>
    buildCandidateSection candidate versionId versionContentHash snapshot s.1 s.2

/-! ## 4. Completion and publication -/

/-- A stored section with the decision on it. -/
structure DecidedSection where
  section_ : SectionRow
  decision : Option DecisionRow

def conflict409 (code message : String) : KnowledgeError := .api 409 code message

def selfReviewForbidden : KnowledgeError :=
  conflict409 "KNOWLEDGE_SELF_REVIEW_FORBIDDEN" "创建或修改者不能审核自己创建的知识版本。"

structure PublicationReadyInput where
  versionId : Uuid
  versionContentHash : Text
  versionCreatedBy : Option UserId
  currentRightsSnapshot : RightsSnapshot
  sections : List DecidedSection

/-- The checks on one section. -/
def assertSectionReady (input : PublicationReadyInput) (s : DecidedSection) :
    Except KnowledgeError Unit := do
  throwIf
    (s.section_.versionId != input.versionId ||
      s.section_.versionContentHash != input.versionContentHash ||
      s.section_.sectionHash !=
        knowledgeReviewSectionHash s.section_.toKnowledgeReviewSectionInput)
    (conflict409 "KNOWLEDGE_SECTION_CHANGED" "审核段落或所属版本已变化，不能发布。")
  throwIf
    (s.section_.rightsSnapshotHash != knowledgeRightsSnapshotHash input.currentRightsSnapshot)
    (conflict409 "KNOWLEDGE_SOURCE_RIGHTS_CHANGED" "来源权利已变化，必须重新完成人工审核。")
  throwIf
    (!s.decision.any fun d =>
      d.decision == .approved && d.sectionHash == s.section_.sectionHash)
    (conflict409 "KNOWLEDGE_SECTIONS_NOT_APPROVED" "必须先让所有段落通过审核。")
  throwIf (s.decision.any fun d => input.versionCreatedBy == some d.reviewerId)
    selfReviewForbidden

def assertKnowledgeSectionPublicationReady (input : PublicationReadyInput) :
    Except KnowledgeError Unit := do
  throwIf (!RightsSnapshot.approved input.currentRightsSnapshot)
    (conflict409 "KNOWLEDGE_SOURCE_RIGHTS_INVALID" "来源权利尚未有效批准，不能发布。")
  throwIf input.sections.isEmpty
    (conflict409 "KNOWLEDGE_REVIEW_SECTIONS_MISSING" "尚未生成稳定审核段落，不能发布。")
  input.sections.forM (assertSectionReady input)

structure ReviewCompleteInput extends PublicationReadyInput where
  currentVersionId : Uuid
  expectedContentHash : Text
  reviewerId : UserId

def assertKnowledgeSectionReviewComplete (input : ReviewCompleteInput) :
    Except KnowledgeError Unit := do
  throwIf (input.versionCreatedBy == some input.reviewerId) selfReviewForbidden
  throwIf (input.versionId != input.currentVersionId)
    (conflict409 "KNOWLEDGE_VERSION_CHANGED" "当前知识版本已变化，请刷新后重试。")
  throwIf (input.versionContentHash != input.expectedContentHash)
    (conflict409 "KNOWLEDGE_CONTENT_CHANGED" "版本内容已变化，原逐段审核已失效。")
  throwIf (!RightsSnapshot.approved input.currentRightsSnapshot)
    (conflict409 "KNOWLEDGE_SOURCE_RIGHTS_INVALID" "来源权利尚未有效批准，不能完成逐段审核。")
  throwIf input.sections.isEmpty
    (conflict409 "KNOWLEDGE_REVIEW_SECTIONS_MISSING" "尚未生成稳定审核段落，不能完成审核。")
  assertKnowledgeSectionPublicationReady input.toPublicationReadyInput
  -- the creator's own decisions are looked for once more
  throwIf
    (input.sections.any fun s =>
      s.decision.any fun d => input.versionCreatedBy == some d.reviewerId)
    selfReviewForbidden

end Hashes

end OpenVac.KnowledgeBase
