/-
  File:      OpenVac/KnowledgeBase/PublicationSoundness.lean
  Subject:   What a ready verdict of the publication decision rests on.

  * `Reviewed` -- a run of a phase as a reader of the policy would ask for it: approved under the
    policy, bound to the version and its content, as submitted, low risk, no blockers, evidence
    for every number.
  * `readiness_reviewed` -- ready without the section gate: two such runs.
  * `readiness_perm` -- the order of the rows does not matter.
-/
import OpenVac.KnowledgeBase.Readiness

namespace OpenVac.KnowledgeBase

open JsString

/-! ## 1. What one run must be -/

/-- Every numeric claim has its evidence and the place of it. -/
def NumericEvidence (run : CompletedRun) : Prop :=
  ∀ claim ∈ run.structuredReport.numericClaims,
    (∃ evidence, claim.exactEvidence = some evidence ∧ evidence ≠ []) ∧
      ∃ locator, claim.sourceLocator = some locator ∧ locator ≠ []

/-- A completed run of a phase among the rows that speaks for a version and its content. -/
structure Reviewed (versionId : Uuid) (contentHash : Text) (phase : ReviewPhase)
    (rows : List ReviewRun) (run : CompletedRun) : Prop where
  stored : ∃ row ∈ rows, row.status = .completed ∧ parseRun row = some run
  ofPhase : run.phase = phase
  approved : run.decision = .approved
  policy : run.promptVersion = KNOWLEDGE_AUTOMATION_POLICY_VERSION
  version : run.structuredReport.automation.outputVersionId = versionId
  content : run.structuredReport.outputContentHash = contentHash ∧
    run.structuredReport.automation.outputContentHash = contentHash
  rights : run.structuredReport.automation.sourceRightsValid = true
  /-- It read the version itself, or it is the first review and wrote the version. -/
  target : (run.inputVersionId = versionId ∧ run.inputContentHash = contentHash) ∨
    (phase = .initial ∧ run.revisedVersionId = some versionId ∧
      run.structuredReport.automation.submittedRevisionHash = some contentHash)
  submitted : run.submittedReportMatches = true
  lowRisk : run.risk = .low
  noBlockers : run.structuredReport.blockers = []
  numericEvidence : NumericEvidence run

theorem numericEvidenceMissing_iff (run : CompletedRun) :
    run.numericEvidenceMissing = false ↔ NumericEvidence run := by
  have hfilled (value : Option Text) :
      (value.getD []).isEmpty = false ↔ ∃ text, value = some text ∧ text ≠ [] := by
    cases value with
    | none => exact ⟨fun h => (nomatch h), fun ⟨_, h, _⟩ => (nomatch h)⟩
    | some text =>
      rw [Option.getD_some, List.isEmpty_eq_false_iff]
      exact ⟨fun h => ⟨text, rfl, h⟩, fun ⟨_, he, h⟩ => Option.some.inj he ▸ h⟩
  unfold CompletedRun.numericEvidenceMissing NumericEvidence
  rw [List.any_eq_false]
  constructor
  · intro h claim hclaim
    have hnot := h claim hclaim
    rw [Bool.not_eq_true, Bool.or_eq_false_iff] at hnot
    exact ⟨(hfilled _).mp hnot.1, (hfilled _).mp hnot.2⟩
  · intro h claim hclaim
    obtain ⟨hevidence, hlocator⟩ := h claim hclaim
    rw [Bool.not_eq_true, Bool.or_eq_false_iff]
    exact ⟨(hfilled _).mpr hevidence, (hfilled _).mpr hlocator⟩

/-- What holds of both runs of a pair with nothing against it. -/
theorem pairReasons_clear {initial verify : CompletedRun} (h : pairReasons initial verify = [])
    {run : CompletedRun} (hrun : run ∈ [initial, verify]) :
    run.risk = .low ∧ run.structuredReport.blockers = [] ∧ NumericEvidence run := by
  unfold pairReasons at h
  simp only [List.append_eq_nil_iff] at h
  obtain ⟨⟨hrisk, hblockers⟩, hnumeric⟩ := h
  have hclear {p : CompletedRun → Bool} {reason : ReadinessReason}
      (hif : (if [initial, verify].any p then [reason] else []) = []) : p run = false := by
    cases hany : [initial, verify].any p with
    | true => rw [hany] at hif; cases hif
    | false => exact Bool.eq_false_iff.mpr (List.any_eq_false.mp hany run hrun)
  have hlow := hclear hrisk
  have hnone := hclear hblockers
  refine ⟨?_, ?_, (numericEvidenceMissing_iff run).mp (hclear hnumeric)⟩
  · simpa using hlow
  · simpa using hnone

/-- An eligible run of a clear pair is what the policy asks for. -/
theorem reviewed_of_eligible {versionId : Uuid} {contentHash : Text} {phase : ReviewPhase}
    {rows : List ReviewRun} {run : CompletedRun}
    (h : run ∈ eligibleRuns versionId contentHash phase rows)
    (hclear : run.risk = .low ∧ run.structuredReport.blockers = [] ∧ NumericEvidence run) :
    Reviewed versionId contentHash phase rows run := by
  unfold eligibleRuns at h
  rw [List.mem_filter, List.mem_filter, List.mem_filterMap, beq_iff_eq] at h
  obtain ⟨⟨⟨row, hrow, hparse⟩, heligible⟩, hphase⟩ := h
  have hstatus := (parseRun_iff.mp hparse).1.1
  unfold CompletedRun.eligible at heligible
  simp only [Bool.and_eq_true, Bool.or_eq_true, beq_iff_eq] at heligible
  obtain ⟨⟨⟨⟨⟨happroved, hpolicy⟩, hstored⟩, htarget⟩, hsubmitted⟩, hrevision⟩ := heligible
  unfold CompletedRun.storedTargetMatches at hstored
  simp only [Bool.and_eq_true, beq_iff_eq] at hstored
  obtain ⟨⟨⟨hcontent, hversion⟩, houtput⟩, hrights⟩ := hstored
  refine ⟨⟨row, hrow, hstatus, hparse⟩, hphase, happroved, hpolicy, hversion, ⟨hcontent, houtput⟩,
    hrights, ?_, hsubmitted, hclear.1, hclear.2.1, hclear.2.2⟩
  by_cases hrevised : run.targetsRecordedRevision versionId contentHash = true
  · unfold CompletedRun.submittedRevisionMatches at hrevision
    rw [if_pos hrevised, beq_iff_eq] at hrevision
    unfold CompletedRun.targetsRecordedRevision at hrevised
    simp only [Bool.and_eq_true, beq_iff_eq] at hrevised
    exact .inr ⟨hphase.symm.trans hrevised.1.1, hrevised.1.2, hrevision⟩
  · obtain hcurrent | hrecorded := htarget
    · unfold CompletedRun.targetsCurrentInput at hcurrent
      simp only [Bool.and_eq_true, beq_iff_eq] at hcurrent
      exact .inl hcurrent
    · exact absurd hrecorded hrevised

/-! ## 2. The verdict -/

/-- Ready without the section gate: a first review and another run that verified it. -/
theorem readiness_reviewed {input : ReadinessInput}
    (h : (evaluateKnowledgePublicationReadiness input).ready = true)
    (hlegacy : input.legacySectionReviewReady = false) :
    ∃ initial verify, initial.id ≠ verify.id ∧
      Reviewed input.currentVersionId input.currentContentHash .initial input.automationRuns
        initial ∧
      Reviewed input.currentVersionId input.currentContentHash .verify input.automationRuns
        verify := by
  unfold evaluateKnowledgePublicationReadiness at h
  rw [hlegacy] at h
  split at h
  · cases h
  · rw [if_neg Bool.false_ne_true] at h
    dsimp only at h
    split at h
    · next initial verify hinitial hverify =>
      split at h
      · cases h
      · next hne =>
        split at h
        · next hempty =>
          have hclear {run : CompletedRun} (hrun : run ∈ [initial, verify]) :=
            pairReasons_clear (List.isEmpty_iff.mp hempty) hrun
          refine ⟨initial, verify, fun e => hne (beq_iff_eq.mpr e), ?_, ?_⟩
          · exact reviewed_of_eligible (hinitial ▸ List.mem_singleton_self initial)
              (hclear List.mem_cons_self)
          · exact reviewed_of_eligible (hverify ▸ List.mem_singleton_self verify)
              (hclear (List.mem_cons_of_mem _ (List.mem_singleton_self verify)))
        · cases h
    · cases h

/-- Below two elements there is one order only. -/
theorem perm_short_or_long {α : Type} {as as' : List α} (h : as'.Perm as) :
    as' = as ∨ (∃ a b rest, as = a :: b :: rest) ∧ ∃ a b rest, as' = a :: b :: rest := by
  match as, as', h.length_eq with
  | [], [], _ => exact .inl rfl
  | [a], [a'], _ => exact .inl (List.perm_singleton.mp h)
  | a :: b :: rest, a' :: b' :: rest', _ =>
    exact .inr ⟨⟨a, b, rest, rfl⟩, a', b', rest', rfl⟩

theorem eligibleRuns_perm {rows rows' : List ReviewRun} (h : rows'.Perm rows) (versionId : Uuid)
    (contentHash : Text) (phase : ReviewPhase) :
    (eligibleRuns versionId contentHash phase rows').Perm
      (eligibleRuns versionId contentHash phase rows) := by
  rw [eligibleRuns_eq, eligibleRuns_eq]
  exact h.filterMap _

/-- The order of the rows does not matter. -/
theorem readiness_perm (input : ReadinessInput) {rows : List ReviewRun}
    (h : rows.Perm input.automationRuns) :
    evaluateKnowledgePublicationReadiness { input with automationRuns := rows } =
      evaluateKnowledgePublicationReadiness input := by
  have hinitial := perm_short_or_long
    (eligibleRuns_perm h input.currentVersionId input.currentContentHash .initial)
  have hverify := perm_short_or_long
    (eligibleRuns_perm h input.currentVersionId input.currentContentHash .verify)
  unfold evaluateKnowledgePublicationReadiness
  dsimp only
  split
  · rfl
  · split
    · rfl
    · rcases hinitial with hinitial | ⟨⟨a, b, rest, hinitial⟩, a', b', rest', hinitial'⟩
      · rw [hinitial]
        rcases hverify with hverify | ⟨⟨c, d, rest, hverify⟩, c', d', rest', hverify'⟩
        · rw [hverify]
        · rw [hverify, hverify']
          -- two verifications or more: no pair, whatever the first reviews are
          generalize eligibleRuns _ _ .initial _ = initialRuns
          match initialRuns with
          | [] => rfl
          | [_] => rfl
          | _ :: _ :: _ => rfl
      · rw [hinitial, hinitial']

/-- **The verdict is sound and does not depend on the order of the runs.** -/
theorem publication_readiness_sound (input : ReadinessInput) :
    ((evaluateKnowledgePublicationReadiness input).ready = true →
      input.sourceRightsValid = true ∧
        (input.legacySectionReviewReady = true ∨
          ∃ initial verify, initial.id ≠ verify.id ∧
            Reviewed input.currentVersionId input.currentContentHash .initial
              input.automationRuns initial ∧
            Reviewed input.currentVersionId input.currentContentHash .verify
              input.automationRuns verify)) ∧
      ∀ rows : List ReviewRun, rows.Perm input.automationRuns →
        evaluateKnowledgePublicationReadiness { input with automationRuns := rows } =
          evaluateKnowledgePublicationReadiness input := by
  refine ⟨fun hready => ⟨?_, ?_⟩, fun rows hrows => readiness_perm input hrows⟩
  · cases hrights : input.sourceRightsValid with
    | true => rfl
    | false =>
      unfold evaluateKnowledgePublicationReadiness at hready
      rw [hrights] at hready
      cases hready
  · cases hlegacy : input.legacySectionReviewReady with
    | true => exact .inl rfl
    | false => exact .inr (readiness_reviewed hready hlegacy)

end OpenVac.KnowledgeBase
