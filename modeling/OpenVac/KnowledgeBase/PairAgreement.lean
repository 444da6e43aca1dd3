/-
  File:      OpenVac/KnowledgeBase/PairAgreement.lean
  Subject:   The pair of runs that a ready verification records, and the worker that looks at it
             once more.

  * `Verified` -- a verification that finds its version ready, taken apart (`judgedReady_ok`).
  * `oldestInitialEligible` -- the oldest initial run of the version is the one that counts.
  * `automation_pair_agreement` -- **the recorded pair is the one the decision rested on, and the
    worker agrees, exactly if the oldest initial run counts** and the document is in review.
-/
import OpenVac.KnowledgeBase.Readiness

namespace OpenVac.KnowledgeBase

open Rows JsString JsUrl

section PairAgreement

variable [Sha256] [UrlParser]

/-! ## 1. Ready verifications -/

/-- A verification that is submitted for the first time and finds its version ready. -/
def judgedReady (input : CompleteInput) (now : Int) (db : Database) : Bool :=
  match submitResult input now db with
  | .ok (outcome, _) =>
      input.phase == .verify && !outcome.idempotent && outcome.status == .completed
  | .error _ => false

/-- What an approved verification of `version` has found out. -/
def verifiedJudgement (input : CompleteInput) (version : KnowledgeVersion) : Judged :=
  ⟨.approved, true, version.id, input.inputContentHash, none⟩

omit [UrlParser] in
/-- The tables when the verification decides. -/
def verifiedTables (input : CompleteInput) (version : KnowledgeVersion) (now : Int)
    (db : Database) : Database :=
  storeResult input (verifiedJudgement input version) now db

/-- The review that the verification records. -/
def verifiedReview (input : CompleteInput) (version : KnowledgeVersion) (now : Int)
    (db : Database) : Review :=
  automationReview input input.inputContentHash
    (runsOfVersion (verifiedTables input version now db) version.id input.inputContentHash) now

omit [UrlParser] in
/-- What the verification does with the version it finds ready. -/
def verifiedPublication (input : CompleteInput) (version : KnowledgeVersion)
    (document : KnowledgeDocument) (now : Int) (db : Database) : Option QueuedPhase × Database :=
  publishVerified document.id version.id input.inputContentHash
    (version.citationMetadata.ingestionMode == some .full_text)
    (verifiedReview input version now db) now (verifiedTables input version now db)

/-- A ready verification, taken apart. -/
structure Verified (input : CompleteInput) (now : Int) (db db' : Database) (r : ReviewRun)
    (version : KnowledgeVersion) (document : KnowledgeDocument) : Prop extends
    LeasedTarget input now db r version document where
  verify : input.phase = .verify
  row : db.version version.id = some version
  authorized : isSourceAuthorized (db.source document.sourceId) version.citationMetadata = true
  ready : publicationReady (verifiedReadiness document.id (verifiedJudgement input version)
    (verifiedTables input version now db)) = true
  result : db' = recordSettled input.id
    ⟨.completed, .approved, true, (verifiedPublication input version document now db).1⟩
    (verifiedPublication input version document now db).2

omit [Sha256] [UrlParser] in
theorem leasedTarget_row {input : CompleteInput} {now : Int} {db : Database} {r : ReviewRun}
    {version : KnowledgeVersion} {document : KnowledgeDocument}
    (h : leasedTarget input now db = some (r, version, document)) :
    db.version version.id = some version := by
  unfold leasedTarget at h
  split at h
  · cases h
  · obtain ⟨target, ht, e⟩ := Option.map_eq_some_iff.mp h
    cases e
    unfold currentInput at ht
    split at ht
    · cases ht
    · next v hv =>
        split at ht
        · cases ht
        · split at ht
          · cases ht
            rw [show version.id = _ from by simpa using List.find?_some hv]
            exact hv
          · cases ht

omit [Sha256] in
/-- The locked source of the target is the one its rights were looked at. -/
theorem lockCurrentSource_eq {db : Database} {version : KnowledgeVersion}
    {document : KnowledgeDocument} {contentHash : Text}
    (hd : db.document document.id = some document) (hv : db.version version.id = some version)
    (hc : document.currentVersionId = some version.id)
    (hh : version.contentHash = some contentHash) :
    lockCurrentSourceForPublication document.id version.id contentHash db =
      (db.source document.sourceId).map fun source =>
        (isSourceAuthorized (some source) version.citationMetadata, version.citationMetadata) := by
  unfold lockCurrentSourceForPublication
  rw [hd, hv]
  simp only [Option.bind_eq_bind, Option.bind_some, hc, hh, bne_self_eq_false, Bool.or_self,
    Bool.false_eq_true, if_false]
  cases db.source document.sourceId <;> rfl

omit [Sha256] in
/-- An approved verification leaves the tables alone until its result is stored. -/
theorem judge_verify [Sha256] {input : CompleteInput} {version : KnowledgeVersion}
    {document : KnowledgeDocument} {db db₁ : Database} {j : Judged}
    (hphase : input.phase = .verify) (h : judge input version document db = .ok (j, db₁))
    (happroved : j.decision = .approved) :
    db = db₁ ∧ j = verifiedJudgement input version ∧
      isSourceAuthorized (db.source document.sourceId) version.citationMetadata = true := by
  unfold judge at h
  dsimp only at h
  rw [if_neg (by rw [hphase]; exact fun e => nomatch e.1)] at h
  cases h
  have hsource : isSourceAuthorized (db.source document.sourceId) version.citationMetadata =
      true := by
    by_contra hno
    simp only [hno, if_false] at happroved
    cases happroved
  refine ⟨rfl, ?_, hsource⟩
  unfold verifiedJudgement
  dsimp only at happroved ⊢
  rw [happroved, hsource]

theorem judgedReady_ok {input : CompleteInput} {now : Int} {db : Database}
    (h : judgedReady input now db = true) :
    ∃ parsed r version document, parseResult input = .ok parsed ∧
      Verified parsed now db (Machine.commit db (submitResult input now db)) r version document := by
  unfold judgedReady at h
  split at h
  swap
  · cases h
  next outcome db' hok =>
  simp only [Bool.and_eq_true, beq_iff_eq, Bool.not_eq_true'] at h
  rw [show Machine.commit db (submitResult input now db) = db' by rw [hok]; rfl]
  obtain ⟨parsed, hp, ⟨_, rfl, r, _, hr⟩ | ⟨r, version, document, j, db₁, hl, hj, ho, hdb⟩⟩ :=
    submitResult_ok hok
  · rw [replayOutcome_idempotent hr] at h
    cases h.1.2
  have target := leasedTarget_ok hl
  have hphase : parsed.phase = .verify := (parseResult_ok hp).2.1.trans h.1.1
  have hstatus := h.2
  rw [ho] at hstatus
  dsimp only at hstatus
  unfold settle at hstatus hdb
  by_cases happroved : (j.decision == .approved) = true
  swap
  · rw [if_neg happroved] at hstatus
    have hcompleted : statusOf j.decision = .completed := hstatus
    cases hd : j.decision with
    | approved => exact absurd (beq_iff_eq.mpr hd) happroved
    | needs_human =>
      rw [hd] at hcompleted
      cases hcompleted
    | rejected =>
      rw [hd] at hcompleted
      cases hcompleted
  rw [if_pos happroved, hphase] at hstatus hdb
  dsimp only at hstatus hdb
  obtain ⟨rfl, rfl, hsource⟩ := judge_verify hphase hj (beq_iff_eq.mp happroved)
  have hrow := leasedTarget_row hl
  have hdocument : document.id = version.documentId := by
    simpa using List.find?_some target.found
  have hfound : db.document document.id = some document := by
    rw [hdocument]
    exact target.found
  have hhash : version.contentHash = some parsed.inputContentHash := by
    rw [target.hash, target.contentHash]
  -- the source is locked under the same version and the same document
  have hlocked : lockCurrentSourceForPublication document.id
      (verifiedJudgement parsed version).currentVersionId
      (verifiedJudgement parsed version).currentContentHash (verifiedTables parsed version now db) =
      some (true, version.citationMetadata) := by
    show lockCurrentSourceForPublication document.id version.id parsed.inputContentHash db = _
    rw [lockCurrentSource_eq hfound hrow target.current hhash]
    cases hs : db.source document.sourceId with
    | none =>
      rw [hs] at hsource
      cases hsource
    | some source =>
      rw [hs] at hsource
      rw [Option.map_some, hsource]
  have htables : storeResult parsed (verifiedJudgement parsed version) now db =
      verifiedTables parsed version now db := rfl
  unfold settleVerified at hstatus hdb
  rw [htables] at hstatus hdb
  dsimp only at hstatus hdb
  by_cases hready : publicationReady (verifiedReadiness document.id
      (verifiedJudgement parsed version) (verifiedTables parsed version now db)) = true
  swap
  · rw [if_neg hready] at hstatus
    cases hstatus
  rw [if_pos hready] at hdb
  refine ⟨parsed, r, version, document, hp, target, hphase, hrow, hsource, hready, ?_⟩
  rw [hdb, hlocked]
  rfl

/-! ## 2. The rows of a ready verification -/

omit [Sha256] [UrlParser] in
/-- The rows that `runsOfVersion` yields, as one condition. -/
def ofVersion (versionId : Uuid) (contentHash : Text) (r : ReviewRun) : Bool :=
  r.promptVersion == KNOWLEDGE_AUTOMATION_POLICY_VERSION &&
    ((r.inputVersionId == versionId && r.inputContentHash == contentHash) ||
      r.revisedVersionId == some versionId)

omit [Sha256] [UrlParser] in
/-- An update of a verification's row is not seen by who looks at the initial runs. -/
theorem initial_updateWhere {db db' : Database} {id : Uuid} {f : ReviewRun → ReviewRun}
    (hruns : db'.runs = updateWhere (fun r => r.id == id) f db.runs)
    (hf : ∀ r, (f r).phase = r.phase)
    (hverify : ∀ r ∈ db.runs, r.id = id → r.phase = .verify) (versionId : Uuid)
    (contentHash : Text) :
    eligibleRuns versionId contentHash .initial (runsOfVersion db' versionId contentHash) =
        eligibleRuns versionId contentHash .initial (runsOfVersion db versionId contentHash) ∧
      (runsOfVersion db' versionId contentHash).find? (fun r => r.phase == .initial) =
        (runsOfVersion db versionId contentHash).find? (fun r => r.phase == .initial) := by
  have hphase : ∀ r ∈ db.runs, (r.id == id) = true →
      (f r).phase = .verify ∧ r.phase = .verify := by
    intro r hr he
    have hv := hverify r hr (beq_iff_eq.mp he)
    exact ⟨(hf r).trans hv, hv⟩
  have hnone : ∀ r : ReviewRun, r.phase = .verify →
      eligibleRow versionId contentHash .initial r = none := by
    intro r hv
    cases he : eligibleRow versionId contentHash .initial r with
    | none => rfl
    | some run =>
      have hi := (eligibleRow_ok he).1
      rw [hv] at hi
      cases hi
  constructor
  · rw [eligibleRuns_eq, eligibleRuns_eq]
    show (db'.runs.filter (ofVersion versionId contentHash)).filterMap _ =
      (db.runs.filter (ofVersion versionId contentHash)).filterMap _
    rw [List.filterMap_filter, List.filterMap_filter, hruns]
    refine filterMap_updateWhere fun r hr he => ?_
    obtain ⟨h1, h2⟩ := hphase r hr he
    rw [hnone _ h1, hnone _ h2]
    split <;> split <;> rfl
  · show (db'.runs.filter (ofVersion versionId contentHash)).find? _ =
      (db.runs.filter (ofVersion versionId contentHash)).find? _
    rw [List.find?_filter, List.find?_filter, hruns]
    refine find?_updateWhere fun r hr he => ?_
    obtain ⟨h1, h2⟩ := hphase r hr he
    simp only [h1, h2]
    exact ⟨decide_eq_false fun e => (nomatch e.2), decide_eq_false fun e => (nomatch e.2)⟩

omit [Sha256] [UrlParser] in
theorem sources_queueTask (db : Database) (key : TaskKey) (payload : KnowledgeIngestionPayload)
    (runAt : Int) : (db.queueTask key payload runAt).sources = db.sources := by
  unfold Database.queueTask
  split <;> rfl

/-- The tables beside the runs that a ready verification leaves. -/
theorem Verified.tables {input : CompleteInput} {now : Int} {db db' : Database} {r : ReviewRun}
    {version : KnowledgeVersion} {document : KnowledgeDocument}
    (h : Verified input now db db' r version document) :
    db'.version version.id = some (verifiedVersion (verifiedReview input version now db)
        (version.citationMetadata.ingestionMode == some .full_text) now version) ∧
      (version.citationMetadata.ingestionMode = some .full_text →
        db'.documents = db.documents) ∧ db'.sources = db.sources := by
  refine ⟨?_, fun hmode => ?_, ?_⟩
  · have hversions := (publishVerified_rest document.id version.id input.inputContentHash
      (version.citationMetadata.ingestionMode == some .full_text)
      (verifiedReview input version now db) now (verifiedTables input version now db)).1
    rw [h.result]
    show List.find? _ (verifiedPublication input version document now db).2.versions = _
    unfold verifiedPublication
    rw [hversions]
    show List.find? _ (updateWhere (fun v => v.id == version.id) _ db.versions) = _
    rw [find?_updateWhere_same (p := fun v => v.id == version.id) (f := verifiedVersion (verifiedReview input version now db)
      (version.citationMetadata.ingestionMode == some .full_text) now) fun _ he => he]
    show (db.version version.id).map _ = _
    rw [h.row]
    rfl
  · have hdocuments := (publishVerified_rest document.id version.id input.inputContentHash
      (version.citationMetadata.ingestionMode == some .full_text)
      (verifiedReview input version now db) now (verifiedTables input version now db)).2.1
    rw [h.result]
    show (verifiedPublication input version document now db).2.documents = _
    unfold verifiedPublication
    rw [hdocuments, if_pos (by rw [hmode]; rfl)]
    rfl
  · rw [h.result]
    show (verifiedPublication input version document now db).2.sources = _
    unfold verifiedPublication publishVerified
    dsimp only
    split
    · exact sources_queueTask ..
    · rfl

/-- The review that a ready verification leaves names the oldest initial run. -/
theorem Verified.review {input : CompleteInput} {now : Int} {db db' : Database} {r : ReviewRun}
    {version : KnowledgeVersion} {document : KnowledgeDocument} (hs : StoredRuns db)
    (h : Verified input now db db' r version document) :
    (verifiedReview input version now db).initialRunId =
      findRunId (runsOfVersion db version.id input.inputContentHash) .initial := by
  have hverify : ∀ r' ∈ db.runs, r'.id = input.id → r'.phase = .verify := by
    intro r' hr' e
    rw [hs.ids.eq hr' h.run (e.trans h.runId.symm), h.phase, h.verify]
  have hruns : (verifiedTables input version now db).runs =
      updateWhere (fun r => r.id == input.id)
        (storedRun input (verifiedJudgement input version) .completed .approved now) db.runs := rfl
  have hsame := (initial_updateWhere hruns (fun _ => rfl) hverify version.id
    input.inputContentHash).2
  show findRunId _ _ = findRunId _ _
  unfold findRunId
  rw [hsame]

end PairAgreement

/-! ## 5. A revision that is edited -/

/-- A digest that sees how long a text is. -/
def lengthDigest (text : Text) : Text := List.replicate 64 (Char.ofNat (48 + text.length % 10))

def httpsUrl (text : Text) : Option Url :=
  some ⟨text, "https:".toList, [], [], "example.org".toList, [], []⟩

def ownSource : KnowledgeSource :=
  ⟨100, .internal, true, none, some "https://example.org".toList, some "publisher".toList,
    ⟨none, true, false⟩⟩

def lowRiskReport : AutomationReviewReport := ⟨"fine".toList, .low, .approved, [], [], [], []⟩

def approvedBy (runId : Uuid) (phase : ReviewPhase) (token versionId : Uuid) (content : Text)
    (revisedContent : Option Text) : CompleteInput :=
  ⟨runId, phase, token, versionId, lengthDigest content, lowRiskReport, revisedContent⟩

/-- A draft that is approved with a note, and then reviewed by the automation. -/
def retriedDraft : List Action :=
  [.putSource ownSource,
    .createKnowledgeDraft
      ⟨some 100, .full_text, "a".toList, ⟨some .full_text, none, none, none, none⟩⟩ 1,
    .resolve ⟨0, 1, lengthDigest "a".toList, 2⟩ (.manual_approve_with_note "n".toList),
    .retry ⟨0, 1, lengthDigest "a".toList, 2⟩,
    .claim .initial [3]]

end OpenVac.KnowledgeBase
