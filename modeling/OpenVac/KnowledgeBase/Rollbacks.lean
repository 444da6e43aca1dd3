/-
  File:      OpenVac/KnowledgeBase/Rollbacks.lean
  Subject:   Rollbacks of a document, over every run: `rollbackKnowledgeDocument` of
             server/api/store.ts.

  * `PersonApproved`, `Indexed` -- what the gate asks of the review and of the index.
  * `evidence_iff` -- in a reachable state the gate asks nothing else: the hashes agree.
  * `RollbackAccepted` -- what decides it; `Restored` -- a copy of the target is the document's
    one published version.
  * `rollback_iff` -- when a rollback succeeds, and that it restores its target then.
-/
import OpenVac.KnowledgeBase.QueuedEmbeddings

namespace OpenVac.KnowledgeBase

open Rows JsString JsUrl

/-! ## 1. What the gate asks -/

/-- A person approved every section, or the document with a note. -/
def PersonApproved (review : Review) : Prop :=
  (review.mode = some .section ∧ ∃ count, review.sectionCount = some count ∧ 1 ≤ count) ∨
    (review.mode = some .manual_document_resolution ∧ noteGiven review = true)

/-- The chunks are there, or it is on record that none are wanted. -/
def Indexed (v : KnowledgeVersion) (chunkCount : Nat) : Prop :=
  (v.citationMetadata.ingestionMode = some .full_text ∧
    v.metadata.embeddingStatus = some .completed ∧ 1 ≤ chunkCount) ∨
  (v.citationMetadata.ingestionMode = some .metadata_only ∧
    v.metadata.embeddingStatus = some .not_applicable)

structure PersonReviewed (v : KnowledgeVersion) (chunkCount : Nat) (now : Int) : Prop where
  approved : v.metadata.reviewStatus = some .approved
  byPerson : ∃ review, v.metadata.review = some review ∧ review.reviewedAt ≤ now + 300000 ∧
    PersonApproved review
  indexed : Indexed v chunkCount

theorem personApproved_iff {review : Review} :
    (!(review.mode == some .section && review.sectionCount.any fun count => decide (1 ≤ count)) &&
      !manualResolution review) = false ↔ PersonApproved review := by
  unfold PersonApproved manualResolution
  rw [← Bool.not_or, Bool.not_eq_false', Bool.or_eq_true, Bool.and_eq_true, Bool.and_eq_true,
    beq_iff_eq, beq_iff_eq, Option.any_eq_true]
  simp only [decide_eq_true_eq]

/-- What a rollback asks of the document and of the version it goes back to. -/
structure RollbackAccepted (document : KnowledgeDocument) (target : KnowledgeVersion)
    (chunkCount : Nat) (now : Int) : Prop where
  published : document.status = .published
  other : ∃ current, document.currentVersionId = some current ∧ current ≠ target.id
  earlier : target.publishedAt.isSome = true
  kept : target.status = .published ∨ target.status = .archived
  reviewed : PersonReviewed target chunkCount now

section Gate

variable [Sha256Digest]

/-- **The gate asks for a person's review and the index**; the hashes of a sound version agree. -/
theorem evidence_iff {v : KnowledgeVersion} (hv : Sound v) (documentStatus : KnowledgeStatus)
    (chunkCount : Nat) (now : Int) :
    assertReviewedKnowledgeEvidence ⟨documentStatus, v.status, v.content, v.contentHash,
        v.citationMetadata, v.metadata, chunkCount⟩ now = .ok () ↔
      PersonReviewed v chunkCount now := by
  unfold assertReviewedKnowledgeEvidence
  simp only [Except.bind_ok_iff, throwIf_ok, orThrow_ok]
  constructor
  · rintro ⟨-, hstatus, review, hreview, -, hat, -, hperson, -, -, -, -, hindex⟩
    refine ⟨by simpa using hstatus,
      ⟨review, hreview, by simpa using hat, personApproved_iff.mp hperson⟩, ?_⟩
    unfold Indexed
    split at hindex
    · next hmode => exact .inl ⟨hmode, by simpa [Nat.one_le_iff_ne_zero] using throwIf_ok.mp hindex⟩
    · next hmode => exact .inr ⟨hmode, by simpa using throwIf_ok.mp hindex⟩
    · cases hindex
  · rintro ⟨happroved, ⟨review, hreview, hat, hperson⟩, hindexed⟩
    obtain ⟨-, found, hfound, -, hhash⟩ := hv.approved happroved
    obtain rfl : found = review := Option.some.inj (hfound.symm.trans hreview)
    have hdigest : found.contentHash = Sha256.hex v.content := hv.hash _ hhash
    refine ⟨(), by simp [happroved], found, hreview, (), by simpa using hat, (),
      personApproved_iff.mpr hperson, _, by rw [hhash, Option.map_some], (), ?_, ?_⟩
    · rw [hdigest, lowerAscii_hex]
      simp [Sha256Digest.hex_isSha256Hex, sha256KnowledgeContent]
    · rcases hindexed with ⟨hmode, hstatus, hcount⟩ | ⟨hmode, hstatus⟩
      · rw [hmode]
        exact throwIf_ok.mpr (by simp [hstatus]; omega)
      · rw [hmode]
        exact throwIf_ok.mpr (by simp [hstatus])

/-! ## 2. A rollback -/

/-- A copy of the target is the one published version of the document, and its current one. -/
def Restored (db : Database) (documentId : Uuid) (target : KnowledgeVersion) : Prop :=
  ∃ v ∈ db.versions, v.documentId = documentId ∧ v.status = .published ∧
    v.content = target.content ∧ v.contentHash = target.contentHash ∧
    v.metadata = target.metadata ∧
    (∀ w ∈ db.versions, w.documentId = documentId → w.status = .published → w = v) ∧
    ∃ document, db.document documentId = some document ∧ document.status = .published ∧
      document.currentVersionId = some v.id

omit [Sha256Digest] in
theorem version_le_max {db : Database} {v : KnowledgeVersion} (hv : v ∈ db.versions) :
    v.version ≤ db.maxVersion v.documentId := by
  have hfold (rows : List KnowledgeVersion) (hmem : v ∈ rows) :
      v.version ≤ rows.foldl (fun m v => max m v.version) 0 := by
    induction rows using List.reverseRecOn with
    | nil => exact absurd hmem List.not_mem_nil
    | append_singleton rows row ih =>
      rw [List.foldl_append]
      rcases List.mem_append.mp hmem with hold | hnew
      · exact Nat.le_trans (ih hold) (Nat.le_max_left _ _)
      · rw [List.mem_singleton.mp hnew]
        exact Nat.le_max_right _ _
  exact hfold _ (List.mem_filter.mpr ⟨hv, by simp⟩)

variable [LocaleOrder] [UrlParser]

/-- **When a rollback succeeds, and what it leaves.** -/
theorem rollback_iff (actions : List Action) {documentId versionId : Uuid} (actor : UserId)
    {document : KnowledgeDocument} {target : KnowledgeVersion}
    (hd : (Base.after actions).db.document documentId = some document)
    (hv : (Base.after actions).db.version versionId = some target)
    (ho : target.documentId = documentId)
    (hrights : assertPublishableKnowledgeSource
      ((Base.after actions).db.source document.sourceId) target.citationMetadata "回滚发布" =
        .ok ()) :
    let s := Base.after actions
    (∃ db', rollbackKnowledgeDocument documentId versionId actor s.now s.db =
        .ok (some documentId, db') ∧ Restored db' documentId target) ↔
      RollbackAccepted document target (s.db.chunkCount versionId) s.now := by
  intro s
  have hm : target ∈ s.db.versions := List.mem_of_find?_eq_some hv
  have hid : target.id = versionId := by simpa using List.find?_some hv
  have hgate := evidence_iff (sound_after actions target hm) document.status
    (s.db.chunkCount target.id) s.now
  rw [hid] at hgate
  unfold rollbackKnowledgeDocument
  rw [hd, hv]
  simp only [Except.bind_ok_iff, throwIf_ok, orThrow_ok, assertHistoricalRollbackTarget, ho,
    bne_self_eq_false, Bool.false_eq_true, if_false, hid]
  constructor
  · rintro ⟨db', ⟨-, hstatus, current, hcurrent, -, htarget, _, hevidence, -⟩, -⟩
    simp only [Bool.or_eq_false_iff, beq_eq_false_iff_ne, Bool.and_eq_false_iff,
      bne_eq_false_iff_eq, Option.isNone_eq_false_iff] at htarget
    exact ⟨by simpa using hstatus, ⟨current, hcurrent, by rw [hid]; exact htarget.1.1.symm⟩,
      htarget.1.2, htarget.2, hgate.mp hevidence⟩
  · rintro ⟨hstatus, ⟨current, hcurrent, hne⟩, hpublished, htarget, hreviewed⟩
    rw [hid] at hne
    refine ⟨_, ⟨(), by simp [hstatus], current, hcurrent, (), ?_, (), hgate.mpr hreviewed, (),
      hrights, _, insertVersion_ok.mpr ⟨?_, rfl⟩, rfl⟩, ?_⟩
    · rw [Option.isSome_iff_exists] at hpublished
      obtain ⟨at', hat⟩ := hpublished
      rcases htarget with htarget | htarget <;> simp [hne.symm, hat, htarget]
    · rintro known hknown ⟨hdoc, hnumber⟩
      have hle := version_le_max hknown
      rw [hdoc, hnumber] at hle
      exact absurd hle (by simp [rolledBackVersion, ho])
    · refine ⟨_, List.mem_append_right _ List.mem_cons_self, ho, rfl, rfl, rfl, rfl,
        fun w hw hwdoc hwstatus => ?_, withCurrent .published s.db.nextId document, ?_, rfl, rfl⟩
      · rcases List.mem_append.mp hw with hold | hnew
        · obtain ⟨w₀, -, rfl⟩ := mem_updateWhere.mp hold
          by_cases hp : (w₀.documentId == documentId && w₀.status == .published) = true
          · rw [if_pos hp] at hwstatus
            cases hwstatus
          · rw [if_neg hp] at hwdoc hwstatus
            exact absurd (by simp [hwdoc, hwstatus]) hp
        · exact List.mem_singleton.mp hnew
      · have hsame := find?_updateWhere_same (p := fun d => d.id == documentId)
          (f := withCurrent .published s.db.nextId) (fun _ h => h) s.db.documents
        rw [show s.db.documents.find? (fun d => d.id == documentId) = some document from hd] at hsame
        exact hsame

end Gate

def notedJob (task version token : Uuid) (text : String) : KnowledgeIngestionJob :=
  ⟨task, "w".toList, token, embeddingPayload 0 version
    (manualReview 2 0 (lengthDigest text.toList) "n".toList), 1, 3⟩

/-- A version is approved with a note and published; then a revision of it, the same way. -/
def twicePublished : List Action :=
  retriedDraft ++
    [.claimNext 2 "w".toList,
      .loadApprovedContent (notedJob 2 1 5 "a"),
      .saveEmbeddingsAndComplete (notedJob 2 1 5 "a") 1,
      .publishKnowledgeDraft 0 2,
      .submitResult (approvedBy 3 .initial 4 1 "a".toList (some "bb".toList)),
      .resolve ⟨0, 6, lengthDigest "bb".toList, 2⟩ (.manual_approve_with_note "n".toList),
      .claimNext 8 "w".toList,
      .loadApprovedContent (notedJob 8 6 9 "bb"),
      .saveEmbeddingsAndComplete (notedJob 8 6 9 "bb") 1,
      .publishKnowledgeDraft 0 2]

theorem rollback_iff_first :
    let _ : Sha256Digest := { hex := lengthDigest, hex_isSha256Hex := lengthDigest_isSha256Hex }
    let _ : LocaleOrder := ⟨fun _ _ => true⟩
    let _ : UrlParser := ⟨httpsUrl⟩
    let s := Base.after twicePublished
    ∃ document target, s.db.document 0 = some document ∧ s.db.version 1 = some target ∧
      ((∃ db', rollbackKnowledgeDocument 0 1 7 s.now s.db = .ok (some 0, db') ∧
          Restored db' 0 target) ↔
        RollbackAccepted document target (s.db.chunkCount 1) s.now) := by
  intro digest order parser
  have hd : ((Base.after twicePublished).db.document 0).isSome = true := by decide +kernel +revert
  have hv : ((Base.after twicePublished).db.version 1).isSome = true := by decide +kernel +revert
  exact ⟨_, _, (Option.some_get hd).symm, (Option.some_get hv).symm, rollback_iff twicePublished 7
    (Option.some_get hd).symm (Option.some_get hv).symm (by decide +kernel +revert)
    (by decide +kernel +revert)⟩

end OpenVac.KnowledgeBase
