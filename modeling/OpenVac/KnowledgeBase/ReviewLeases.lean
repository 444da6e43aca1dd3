/-
  File:      OpenVac/KnowledgeBase/ReviewLeases.lean
  Subject:   The leases of the review automation: whose result is applied, and how often.

  * `Spent` -- a token that no run has and that will not be drawn again; `spent_run`.
  * `applied_run` -- a run with an applied result keeps its row until it is queued again.
  * `replayed` -- the answer to the same submission, while that row is there.
  * `review_leases` -- **one valid lease for each run, one result for each lease, and the same
    answer to the same submission.**
-/
import OpenVac.KnowledgeBase.ReviewRuns

namespace OpenVac.KnowledgeBase

open Rows JsString JsUrl

/-! ## 1. Tokens -/

/-- A token that no run has and that will not be drawn again. -/
def Spent (token : Uuid) (db : Database) : Prop :=
  token < db.nextId ∧ ∀ r ∈ db.runs, r.leaseTokenHash ≠ some token

/-- `token` is the unexpired lease of run `id`. -/
def ValidLease (s : Base) (id token : Uuid) : Prop :=
  ∃ r ∈ s.db.runs, r.id = id ∧ r.status = .leased ∧ r.leaseTokenHash = some token ∧
    ∃ t, r.leaseExpiresAt = some t ∧ s.now < t

theorem validLease_token {s : Base} (h : RunsKnown s.db) {id token token' : Uuid}
    (hv : ValidLease s id token) (hv' : ValidLease s id token') : token = token' := by
  obtain ⟨r, hr, hid, _, ht, _⟩ := hv
  obtain ⟨r', hr', hid', _, ht', _⟩ := hv'
  have hrow : r = r' := h.eq hr hr' (hid.trans hid'.symm)
  rw [hrow, ht'] at ht
  exact (Option.some.inj ht).symm

theorem validLease_run {s : Base} (h : RunsKnown s.db) {id id' token : Uuid}
    (hv : ValidLease s id token) (hv' : ValidLease s id' token) : id = id' := by
  obtain ⟨r, hr, hid, _, ht, _⟩ := hv
  obtain ⟨r', hr', hid', _, ht', _⟩ := hv'
  have hrow : r = r' := h.holder r hr r' hr' token ht ht'
  rw [← hid, ← hid', hrow]

section Leases

variable [Sha256] [LocaleOrder] [UrlParser]

theorem spent_step {s : Base} (hk : Known s.db) (h : RunsKnown s.db) {token : Uuid}
    (hs : Spent token s.db) (a : Action) : Spent token (s.step a).db := by
  obtain ⟨kept, new, hruns, hrows, hnew⟩ := runs_step h a
  refine ⟨Nat.lt_of_lt_of_le hs.1 (nextId_le_step hk a), fun r' hr' ht => ?_⟩
  rw [hruns] at hr'
  rcases List.mem_append.mp hr' with hr' | hr'
  · obtain ⟨r, hr, hstep⟩ := forall₂_mem hrows hr'
    rcases hstep.token token ht with ht | ht
    · exact hs.2 r hr ht
    · exact absurd (Nat.lt_of_lt_of_le hs.1 ht) (Nat.lt_irrefl _)
  · rw [(hnew r' hr').token] at ht
    cases ht

/-- **A spent token stays spent.** -/
theorem spent_run {s : Base} (hk : Known s.db) (h : RunsKnown s.db) {token : Uuid}
    (hs : Spent token s.db) (later : List Action) :
    Spent token (Machine.run Base.step s later).db :=
  (@Machine.run_invariant _ _ _
    (fun s : Base => (Known s.db ∧ RunsKnown s.db) ∧ Spent token s.db) _ ⟨⟨hk, h⟩, hs⟩
    (fun _ a h => ⟨⟨known_step h.1.1 a, runsKnown_step h.1.1 h.1.2 a⟩,
      spent_step h.1.1 h.1.2 h.2 a⟩) later).2

/-! ## 2. Applied results -/

/-- After the step the run is queued, again or for the first time. -/
def Requeues (id : Uuid) (s : Base) (a : Action) : Prop :=
  ∃ r ∈ (s.step a).db.runs, r.id = id ∧ r.status = .queued

/-- **A run with an applied result keeps its row** until it is queued again. -/
theorem applied_run {s : Base} (hk : Known s.db) (h : RunsKnown s.db) {r : ReviewRun}
    (hr : r ∈ s.db.runs) (he : ended r.status = true) (later : List Action)
    (hq : Machine.Along Base.step (fun s a => ¬Requeues r.id s a) s later) :
    RunsKnown (Machine.run Base.step s later).db ∧ r ∈ (Machine.run Base.step s later).db.runs := by
  have hall := @Machine.run_invariant_along _ _ _ _
    (fun s : Base => Known s.db ∧ RunsKnown s.db ∧ r ∈ s.db.runs) s ⟨hk, h, hr⟩
    (fun s a hq h => ?_) later hq
  · exact hall.2
  · refine ⟨known_step h.1 a, runsKnown_step h.1 h.2.1 a, ?_⟩
    obtain ⟨r', hm, hstep⟩ := row_step h.2.1 a h.2.2
    rcases hstep.kept he with e | e
    · rw [← e]
      exact hm
    · exact absurd ⟨r', hm, hstep.id, e⟩ hq

/-- The row an applied result leaves. -/
structure Answered (input : CompleteInput) (outcome : AutomationReviewOutcome) (r : ReviewRun) :
    Prop where
  id : r.id = input.id
  target : r.target = (input.phase, input.inputVersionId, input.inputContentHash)
  ended : ended r.status = true
  report : ∃ report, r.structuredReport = some report ∧
    report.automation.idempotencyTokenHash = input.leaseTokenHash ∧
    report.automation.submittedReport = input.report ∧
    report.automation.submittedRevisionHash = submittedRevisionHash input ∧
    report.automation.outputVersionId = outcome.currentVersionId ∧
    report.automation.queuedPhase = outcome.queuedPhase
  status : r.status = outcome.status
  decision : r.decision = some outcome.decision
  runId : outcome.runId = input.id

omit [LocaleOrder] [UrlParser] in
/-- **The answer to the same submission**, while its row is there. -/
theorem replayed {s : Base} (h : RunsKnown s.db) {input : CompleteInput}
    {outcome : AutomationReviewOutcome} {r : ReviewRun} (hr : r ∈ s.db.runs)
    (ha : Answered input outcome r) :
    leasedTarget input s.now s.db = none ∧ replay input s.db = some r ∧
      replayOutcome r = .ok { outcome with idempotent := true } := by
  obtain ⟨report, hreport, htoken, hsubmitted, hrevision, houtput, hqueued⟩ := ha.report
  have htarget := ha.target
  unfold ReviewRun.target at htarget
  simp only [Prod.mk.injEq] at htarget
  refine ⟨?_, ?_, ?_⟩
  · cases hl : leasedTarget input s.now s.db with
    | none => rfl
    | some target =>
      have held := leasedTarget_ok hl
      have hrow := h.eq hr held.run (ha.id.trans held.runId.symm)
      have hend := ha.ended
      rw [hrow, held.status] at hend
      cases hend
  · cases hf : replay input s.db with
    | none =>
      refine absurd ?_ (List.find?_eq_none.mp hf r hr)
      simp only [ha.id, htarget.1, htarget.2.1, htarget.2.2, hreport, htoken, hsubmitted,
        hrevision, beq_self_eq_true, Bool.and_self, Option.any_some]
    | some r' =>
      have hfound := List.find?_some hf
      simp only [Bool.and_eq_true, beq_iff_eq] at hfound
      rw [h.eq (List.mem_of_find?_eq_some hf) hr (hfound.1.1.1.1.trans ha.id.symm)]
  · have hend := ha.ended
    unfold KnowledgeBase.ended at hend
    unfold replayOutcome
    rw [hreport, ha.decision]
    dsimp only
    rw [if_pos hend, houtput, hqueued, ha.status, ha.id, ← ha.runId]

/-! ## 3. The step that applies a result -/

/-- The submission of the holder of the unexpired lease, whose input is still what the run was
    created for. -/
structure HeldAndCurrent (s : Base) (input : CompleteInput) (r : ReviewRun)
    (version : KnowledgeVersion) (document : KnowledgeDocument) : Prop where
  run : r ∈ s.db.runs
  runId : r.id = input.id
  lease : ValidLease s r.id input.leaseTokenHash
  versionRow : version ∈ s.db.versions
  versionId : version.id = r.inputVersionId
  documentRow : document ∈ s.db.documents
  owner : document.id = version.documentId
  current : document.currentVersionId = some r.inputVersionId
  hash : version.contentHash = some r.inputContentHash

omit [Sha256] [LocaleOrder] [UrlParser] in
theorem heldAndCurrent {s : Base} {input : CompleteInput} {r : ReviewRun}
    {version : KnowledgeVersion} {document : KnowledgeDocument}
    (h : LeasedTarget input s.now s.db r version document) :
    HeldAndCurrent s input r version document where
  run := h.run
  runId := h.runId
  lease := ⟨r, h.run, rfl, h.status, h.token, h.expiry⟩
  versionRow := h.mem
  versionId := h.hid
  documentRow := List.mem_of_find?_eq_some h.found
  owner := by simpa using List.find?_some h.found
  current := by rw [h.current, h.hid]
  hash := h.hash

/-- **A submission that commits** is a replay that changes nothing, or the result of the lease's
    holder; then its token is spent and its row answers the same submission. -/
theorem submitResult_committed {s : Base} (hk : Known s.db) (h : RunsKnown s.db)
    {input : CompleteInput} {outcome : AutomationReviewOutcome} {db' : Database}
    (hok : submitResult input s.now s.db = .ok (outcome, db')) :
    (outcome.idempotent = true ∧ db' = s.db) ∨
      ∃ parsed r version document, parseResult input = .ok parsed ∧ outcome.idempotent = false ∧
        HeldAndCurrent s input r version document ∧
        Spent input.leaseTokenHash (s.step (.submitResult input)).db ∧
        ∃ r' ∈ (s.step (.submitResult input)).db.runs, Answered parsed outcome r' := by
  have hdb : (s.step (.submitResult input)).db = db' := by
    show Machine.commit s.db (submitResult input s.now s.db) = db'
    rw [hok]
    rfl
  have hle : s.db.nextId ≤ db'.nextId := by
    rw [← hdb]
    exact nextId_le_step hk _
  rcases submitResult_applied h.lower hok with
    ⟨rfl, r, hr⟩ | ⟨parsed, r, version, document, j, settled, new, hp, happlied, hruns, hnew⟩
  · exact Or.inl ⟨replayOutcome_idempotent hr, rfl⟩
  have target := happlied.target
  obtain ⟨hid, _, htoken, _⟩ := parseResult_ok hp
  have hheld := heldAndCurrent target
  have hlease : ValidLease s r.id input.leaseTokenHash := by
    rw [← htoken]
    exact hheld.lease
  have hrtoken : r.leaseTokenHash = some input.leaseTokenHash := by
    rw [← htoken]
    exact target.token
  refine Or.inr ⟨parsed, r, version, document, hp, ?_, ?_, ⟨?_, fun r' hr' ht => ?_⟩,
    settledRun parsed j settled s.now r, ?_, ?_⟩
  · rw [happlied.outcome]
  · exact { hheld with runId := hheld.runId.trans hid, lease := hlease }
  · rw [hdb]
    exact Nat.lt_of_lt_of_le (h.tokens r target.run _ hrtoken) hle
  · -- the one run that had the token has lost it
    rw [hdb, hruns] at hr'
    rcases List.mem_append.mp hr' with hr' | hr'
    · obtain ⟨r₀, hm, rfl⟩ := mem_updateWhere.mp hr'
      by_cases he : (r₀.id == parsed.id) = true
      · rw [if_pos he] at ht
        cases ht
      · rw [if_neg he] at ht
        have hrow := h.holder r₀ hm r target.run _ ht hrtoken
        exact he (beq_iff_eq.mpr (by rw [hrow, target.runId]))
    · rw [(hnew.queued r' hr').token] at ht
      cases ht
  · rw [hdb, hruns]
    refine List.mem_append_left _ (mem_updateWhere.mpr ⟨r, target.run, ?_⟩)
    rw [if_pos (beq_iff_eq.mpr target.runId)]
  · refine ⟨target.runId, ?_, ?_, ⟨_, rfl, rfl, rfl, rfl, ?_, ?_⟩, ?_, ?_, ?_⟩
    · show (r.phase, r.inputVersionId, r.inputContentHash) = _
      rw [target.phase, target.versionId, target.contentHash]
    · show ended settled.status = true
      rcases happlied.ended with e | e | e
      all_goals
        rw [e]
        rfl
    all_goals rw [happlied.outcome]
    all_goals rfl

theorem known_run {s : Base} (hk : Known s.db) (later : List Action) :
    Known (Machine.run Base.step s later).db :=
  @Machine.run_invariant _ _ _ (fun s : Base => Known s.db) _ hk (fun _ a h => known_step h a) later

theorem runsKnown_run {s : Base} (hk : Known s.db) (h : RunsKnown s.db) (later : List Action) :
    RunsKnown (Machine.run Base.step s later).db :=
  (@Machine.run_invariant _ _ _ (fun s : Base => Known s.db ∧ RunsKnown s.db) _ ⟨hk, h⟩
    (fun _ a h => ⟨known_step h.1 a, runsKnown_step h.1 h.2 a⟩) later).2

/-- What a run was created for does not change. -/
theorem row_run {s : Base} (hk : Known s.db) (h : RunsKnown s.db) {r : ReviewRun}
    (hr : r ∈ s.db.runs) (later : List Action) :
    ∃ r' ∈ (Machine.run Base.step s later).db.runs, r'.id = r.id ∧ r'.target = r.target :=
  (@Machine.run_invariant _ _ _ (fun s : Base => Known s.db ∧ RunsKnown s.db ∧
      ∃ r' ∈ s.db.runs, r'.id = r.id ∧ r'.target = r.target) _ ⟨hk, h, r, hr, rfl, rfl⟩
    (fun s a hs => by
      obtain ⟨hk, h, r', hr', hid, htarget⟩ := hs
      obtain ⟨r'', hr'', hstep⟩ := row_step h a hr'
      exact ⟨known_step hk a, runsKnown_step hk h a, r'', hr'', hstep.id.trans hid,
        hstep.target.trans htarget⟩) later).2.2

/-- **Leases of review runs.** In every reachable state a run has one valid lease token at most,
    and a token is the lease of one run. A submission that commits either repeats an applied
    result, and changes nothing, or it comes from the holder of the run's unexpired lease while
    the document's current version and its hash are those the run was created for. Then nothing
    else is ever applied under its token; and until the run is queued again, the same submission
    returns the same outcome and changes nothing. -/
theorem review_leases (actions : List Action) :
    let s := Base.after actions
    (∀ id token token', ValidLease s id token → ValidLease s id token' → token = token') ∧
    (∀ id id' token, ValidLease s id token → ValidLease s id' token → id = id') ∧
    (∀ r ∈ s.db.runs, ∀ later, ∃ r' ∈ (Machine.run Base.step s later).db.runs,
      r'.id = r.id ∧ r'.target = r.target) ∧
    ∀ input outcome db', submitResult input s.now s.db = .ok (outcome, db') →
      (outcome.idempotent = true ∧ db' = s.db) ∨
      (outcome.idempotent = false ∧
        (∃ r version document, HeldAndCurrent s input r version document) ∧
        (∀ later again outcome' db'', again.leaseTokenHash = input.leaseTokenHash →
          let s' := Machine.run Base.step (s.step (.submitResult input)) later
          submitResult again s'.now s'.db = .ok (outcome', db'') →
            outcome'.idempotent = true ∧ db'' = s'.db) ∧
        ∀ later again, parseResult again = parseResult input →
          Machine.Along Base.step (fun s a => ¬Requeues input.id s a)
            (s.step (.submitResult input)) later →
          let s' := Machine.run Base.step (s.step (.submitResult input)) later
          submitResult again s'.now s'.db = .ok ({ outcome with idempotent := true }, s'.db)) := by
  intro s
  have hk := known_after actions
  have h := runsKnown_after actions
  refine ⟨fun _ _ _ => validLease_token h, fun _ _ _ => validLease_run h, fun r hr later => ?_,
    fun input outcome db' hok => ?_⟩
  · exact row_run hk h hr later
  rcases submitResult_committed hk h hok with
    hreplay | ⟨parsed, r, version, document, hp, hfirst, hheld, hspent, r', hr', hanswer⟩
  · exact Or.inl hreplay
  have hk' := known_step hk (.submitResult input)
  have h' := runsKnown_step hk h (.submitResult input)
  refine Or.inr ⟨hfirst, ⟨r, version, document, hheld⟩, ?_, ?_⟩
  · intro later again outcome' db'' htoken s' hagain
    have hk'' := known_run hk' later
    have h'' := runsKnown_run hk' h' later
    rcases submitResult_committed hk'' h'' hagain with
      hreplay | ⟨_, r₂, _, _, _, _, hheld', _⟩
    · exact hreplay
    · obtain ⟨r₃, hr₃, _, _, ht, _⟩ := hheld'.lease
      rw [htoken] at ht
      exact absurd ht ((spent_run hk' h' hspent later).2 r₃ hr₃)
  · intro later again hsame hq s'
    have hid : r'.id = input.id := hanswer.id.trans (parseResult_ok hp).1
    rw [← hid] at hq
    obtain ⟨h'', hr''⟩ := applied_run hk' h' hr' hanswer.ended later hq
    obtain ⟨hleased, hreplay, houtcome⟩ := replayed h'' hr'' hanswer
    show (parseResult again >>= fun parsed => complete parsed s'.now s'.db) = _
    rw [hsame, hp]
    show complete parsed s'.now s'.db = _
    unfold complete
    rw [hleased]
    dsimp only
    rw [hreplay]
    dsimp only
    rw [houtcome]

end Leases

end OpenVac.KnowledgeBase
