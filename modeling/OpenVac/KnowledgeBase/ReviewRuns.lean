/-
  File:      OpenVac/KnowledgeBase/ReviewRuns.lean
  Subject:   What a step of the knowledge base does to the review runs.

  * `settledRun` -- the row of a run once its result has been applied.
  * `RunsEffect` -- nothing, new queued runs, a restart, a claim, or the result of a leased run.
  * `runs_effect` -- **every step has one of these effects.**
  * `RunsKnown` -- ids are unique, and a lease token belongs to one leased run; in every
    reachable state (`runsKnown_after`; `base_references`).
-/
import OpenVac.KnowledgeBase.Tasks

namespace OpenVac.KnowledgeBase

open Rows JsString JsUrl
open ChatStorage (ParsedDocument)

/-! ## 1. Effects -/

/-- A run as it is queued. -/
def QueuedRun (r : ReviewRun) : Prop :=
  ∃ phase versionId contentHash model,
    r = Database.queuedRun r.id phase versionId contentHash model

/-- The unique index of knowledge_review_run. -/
def ReviewRun.index (r : ReviewRun) : ReviewPhase × Uuid × Text × Text :=
  (r.phase, r.inputVersionId, r.inputContentHash, r.promptVersion)

/-- What the keys of a row are: updates leave them. -/
def ReviewRun.keys (r : ReviewRun) : Uuid × ReviewPhase × Uuid × Text × Text := (r.id, r.index)

/-- New runs beside `rows`, under ids that were not drawn before. -/
structure NewRuns (rows : List ReviewRun) (low high : Uuid) (new : List ReviewRun) : Prop where
  queued : ∀ r ∈ new, QueuedRun r
  lower : ∀ r ∈ new, low ≤ r.id
  upper : ∀ r ∈ new, r.id < high
  ids : UniqueOn (·.id) new
  fresh : ∀ r ∈ new, ∀ r' ∈ rows, r'.index ≠ r.index
  index : UniqueOn ReviewRun.index new

theorem NewRuns.nil (rows : List ReviewRun) (low high : Uuid) : NewRuns rows low high [] :=
  ⟨fun _ h => (nomatch h), fun _ h => (nomatch h), fun _ h => (nomatch h), UniqueOn.nil _,
    fun _ h => (nomatch h), UniqueOn.nil _⟩

theorem NewRuns.one {rows : List ReviewRun} {low high : Uuid} {phase : ReviewPhase}
    {versionId id : Uuid} {contentHash model : Text} (hl : low ≤ id) (hu : id < high)
    (hf : ∀ r ∈ rows, Database.runConflicts phase versionId contentHash r = false) :
    NewRuns rows low high [Database.queuedRun id phase versionId contentHash model] := by
  refine ⟨fun r hr => ?_, fun r hr => ?_, fun r hr => ?_, List.nodup_singleton _,
    fun r hr r' hr' e => ?_, List.nodup_singleton _⟩
  all_goals rw [List.mem_singleton.mp hr] at *
  · exact ⟨phase, versionId, contentHash, model, rfl⟩
  · exact hl
  · exact hu
  · have hno := hf r' hr'
    unfold ReviewRun.index Database.queuedRun at e
    simp only [Prod.mk.injEq] at e
    unfold Database.runConflicts at hno
    simp only [e.1, e.2.1, e.2.2.1, e.2.2.2, beq_self_eq_true, Bool.and_self] at hno
    cases hno

theorem runs_insertRun (db : Database) (phase : ReviewPhase) (versionId : Uuid)
    (contentHash model : Text) :
    ((db.insertRun phase versionId contentHash model).runs = db.runs ∧
        (db.insertRun phase versionId contentHash model).nextId = db.nextId) ∨
      ((db.insertRun phase versionId contentHash model).runs =
          db.runs ++ [Database.queuedRun db.nextId phase versionId contentHash model] ∧
        (db.insertRun phase versionId contentHash model).nextId = db.nextId + 1 ∧
        ∀ r ∈ db.runs, Database.runConflicts phase versionId contentHash r = false) := by
  unfold Database.insertRun
  split
  · exact Or.inl ⟨rfl, rfl⟩
  · next h =>
      refine Or.inr ⟨rfl, rfl, fun r hr => ?_⟩
      simpa using fun e => h (List.any_eq_true.mpr ⟨r, hr, e⟩)

theorem runs_queueTask (db : Database) (key : TaskKey) (payload : KnowledgeIngestionPayload)
    (runAt : Int) : (db.queueTask key payload runAt).runs = db.runs := by
  unfold Database.queueTask
  split <;> rfl

/-- The row of a run once its result has been applied. -/
def settledRun [Sha256] (input : CompleteInput) (j : Judged) (settled : Settled) (now : Int)
    (r : ReviewRun) : ReviewRun :=
  { r with
    status := settled.status
    risk := some input.report.risk
    structuredReport := some
      { storedReport input j with
        automation :=
          { (storedReport input j).automation with
            queuedPhase := settled.queuedPhase
            sourceRightsValid := settled.sourceRightsValid } }
    decision := some settled.decision
    revisedVersionId := j.revisedVersionId
    completedAt := some now
    leaseTokenHash := none
    leaseExpiresAt := none }

/-- A result that is applied: its run is leased, its input current, and what comes of it. -/
structure Applied [Sha256] [UrlParser] (now : Int) (db : Database) (input : CompleteInput)
    (outcome : AutomationReviewOutcome) (r : ReviewRun) (version : KnowledgeVersion)
    (document : KnowledgeDocument) (j : Judged) (settled : Settled) : Prop where
  target : LeasedTarget input now db r version document
  ended : settled.status = .completed ∨ settled.status = .needs_human ∨ settled.status = .failed
  outcome : outcome =
    ⟨input.id, settled.status, settled.decision, j.currentVersionId, settled.queuedPhase, false⟩

section Effects

variable [Sha256] [UrlParser]

/-- **What an action does** to the review runs. -/
inductive RunsEffect (now : Int) (db db' : Database) : Action → Prop where
  | same {a : Action} (runs : db'.runs = db.runs) : RunsEffect now db db' a
  | grown {a : Action} {new : List ReviewRun} (runs : db'.runs = db.runs ++ new)
      (fresh : NewRuns db.runs db.nextId db'.nextId new) : RunsEffect now db db' a
  | restarted {a : Action} {run : ReviewRun} (mem : run ∈ db.runs)
      (restartable : restartable run.status = true)
      (runs : db'.runs = updateWhere (fun r => r.id == run.id) restarted db.runs) :
      RunsEffect now db db' a
  | claimed {phase : ReviewPhase} {picked : List Uuid}
      (effect : db' = (claim phase picked now db).2) : RunsEffect now db db' (.claim phase picked)
  | applied {input parsed : CompleteInput} {outcome : AutomationReviewOutcome} {r : ReviewRun}
      {version : KnowledgeVersion} {document : KnowledgeDocument} {j : Judged} {settled : Settled}
      {new : List ReviewRun} (parse : parseResult input = .ok parsed)
      (result : submitResult input now db = .ok (outcome, db'))
      (applied : Applied now db parsed outcome r version document j settled)
      (runs : db'.runs =
        updateWhere (fun r => r.id == parsed.id) (settledRun parsed j settled now) db.runs ++ new)
      (fresh : NewRuns db.runs db.nextId db'.nextId new) : RunsEffect now db db' (.submitResult input)

end Effects

/-! ## 2. The result of a run -/

section Result

variable [Sha256] [UrlParser]

/-- The row of a run with its result, before what was settled goes into the report. -/
def storedRun (input : CompleteInput) (j : Judged) (status : RunStatus)
    (decision : ReviewDecision) (now : Int) (r : ReviewRun) : ReviewRun :=
  { r with
    status := status
    risk := some input.report.risk
    structuredReport := some (storedReport input j)
    decision := some decision
    revisedVersionId := j.revisedVersionId
    completedAt := some now
    leaseTokenHash := none
    leaseExpiresAt := none }

omit [UrlParser] in
theorem runs_storeResult (input : CompleteInput) (j : Judged) (now : Int) (db : Database) :
    (storeResult input j now db).runs = updateWhere (fun r => r.id == input.id)
      (storedRun input j j.status j.decision now) db.runs := rfl

omit [Sha256] [UrlParser] in
theorem runs_publishVerified (documentId versionId : Uuid) (contentHash : Text) (fullText : Bool)
    (review : Review) (now : Int) (db : Database) :
    (publishVerified documentId versionId contentHash fullText review now db).2.runs = db.runs := by
  unfold publishVerified
  dsimp only
  split
  · exact runs_queueTask ..
  · rfl

omit [Sha256] [UrlParser] in
/-- The schema keeps what a submission is about. -/
theorem parseResult_ok {input parsed : CompleteInput} (h : parseResult input = .ok parsed) :
    parsed.id = input.id ∧ parsed.phase = input.phase ∧
      parsed.leaseTokenHash = input.leaseTokenHash ∧
      parsed.inputVersionId = input.inputVersionId ∧
      parsed.inputContentHash = input.inputContentHash := by
  obtain ⟨contentHash, hh, h⟩ := Except.bind_ok_iff.mp h
  obtain ⟨_, _, h⟩ := Except.bind_ok_iff.mp h
  obtain ⟨_, _, h⟩ := Except.bind_ok_iff.mp h
  obtain ⟨_, _, h⟩ := Except.bind_ok_iff.mp h
  cases h
  exact ⟨rfl, rfl, rfl, rfl, (parseSha256_iff.mp (orThrow_ok.mp hh)).2⟩

omit [Sha256] [UrlParser] in
theorem replayOutcome_idempotent {r : ReviewRun} {outcome : AutomationReviewOutcome}
    (h : replayOutcome r = .ok outcome) : outcome.idempotent = true := by
  unfold replayOutcome at h
  split at h
  · split at h
    · cases h
      rfl
    · cases h
  · cases h

omit [Sha256] [UrlParser] in
theorem statusOf_ended (decision : ReviewDecision) :
    statusOf decision = .completed ∨ statusOf decision = .needs_human ∨
      statusOf decision = .failed := by
  cases decision with
  | approved => exact Or.inl rfl
  | rejected => exact Or.inr (Or.inr rfl)
  | needs_human => exact Or.inr (Or.inl rfl)

/-- Before the report is completed. -/
theorem runs_settle (input : CompleteInput) (documentId : Uuid) (model : Text) (j : Judged)
    (now : Int) (db : Database) :
    let settled := settle input documentId model j now (storeResult input j now db)
    ∃ new, NewRuns db.runs db.nextId settled.2.nextId new ∧
      settled.2.runs = updateWhere (fun r => r.id == input.id)
        (storedRun input j settled.1.status settled.1.decision now) db.runs ++ new ∧
      (settled.1.status = .completed ∨ settled.1.status = .needs_human ∨
        settled.1.status = .failed) := by
  intro settled
  have hstored := runs_storeResult input j now db
  by_cases happroved : (j.decision == .approved) = true
  · have hdec : j.decision = .approved := beq_iff_eq.mp happroved
    have hstatus : j.status = .completed := by
      unfold Judged.status
      rw [hdec]
      rfl
    cases hphase : input.phase with
    | initial =>
      have hs : settled = (⟨.completed, .approved, j.sourceRightsValid, some .verify⟩,
          (storeResult input j now db).insertRun .verify j.currentVersionId
            j.currentContentHash model) := by
        show settle _ _ _ _ _ _ = _
        unfold settle
        rw [if_pos happroved, hphase]
      rw [hs]
      rw [hstatus, hdec] at hstored
      rcases runs_insertRun (storeResult input j now db) .verify j.currentVersionId
        j.currentContentHash model with ⟨hr, _⟩ | ⟨hr, hn, hf⟩
      · refine ⟨[], NewRuns.nil _ _ _, ?_, Or.inl rfl⟩
        rw [hr, hstored, List.append_nil]
      · refine ⟨[Database.queuedRun db.nextId .verify j.currentVersionId j.currentContentHash
          model], NewRuns.one (Nat.le_refl _) ?_ fun r hr₀ => ?_, ?_, Or.inl rfl⟩
        · rw [hn]
          exact Nat.lt_succ_self _
        · -- the stored result leaves the index of its row
          have hno := hf _ (mem_updateWhere_of_mem hr₀)
          split at hno
          · exact hno
          · exact hno
        · rw [hr, hstored]
          rfl
    | verify =>
      have hs : settled = settleVerified input documentId j now (storeResult input j now db) := by
        show settle _ _ _ _ _ _ = _
        unfold settle
        rw [if_pos happroved, hphase]
      rw [hs]
      unfold settleVerified
      dsimp only
      split
      · refine ⟨[], NewRuns.nil _ _ _, ?_, Or.inl rfl⟩
        rw [runs_publishVerified, hstored, hstatus, hdec, List.append_nil]
      · refine ⟨[], NewRuns.nil _ _ _, ?_, Or.inr (Or.inl rfl)⟩
        show updateWhere _ _ (storeResult input j now db).runs = _
        rw [hstored, List.append_nil, updateWhere_updateWhere
          (f := storedRun input j j.status j.decision now) fun _ => rfl]
        rfl
  · have hs : settled = (⟨j.status, j.decision, j.sourceRightsValid, none⟩,
        markNeedsHuman documentId j.currentVersionId (storeResult input j now db)) := by
      show settle _ _ _ _ _ _ = _
      unfold settle
      rw [if_neg happroved]
    rw [hs]
    refine ⟨[], NewRuns.nil _ _ _, ?_, statusOf_ended j.decision⟩
    rw [List.append_nil]
    exact hstored

/-- **The rows after a result**: that of the run is settled, and at most one run is new. -/
theorem runs_complete (input : CompleteInput) (documentId : Uuid) (model : Text) (j : Judged)
    (now : Int) {db : Database} (hlt : input.id < db.nextId) :
    let settled := settle input documentId model j now (storeResult input j now db)
    ∃ new, NewRuns db.runs db.nextId settled.2.nextId new ∧
      (recordSettled input.id settled.1 settled.2).runs =
        updateWhere (fun r => r.id == input.id) (settledRun input j settled.1 now) db.runs ++ new ∧
      (settled.1.status = .completed ∨ settled.1.status = .needs_human ∨
        settled.1.status = .failed) := by
  intro settled
  obtain ⟨new, hnew, hruns, hended⟩ := runs_settle input documentId model j now db
  refine ⟨new, hnew, ?_, hended⟩
  show updateWhere _ _ settled.2.runs = _
  rw [hruns, updateWhere_append, updateWhere_updateWhere
    (f := storedRun input j settled.1.status settled.1.decision now) fun _ => rfl]
  -- the runs of this step are not the one that the result is for
  have hother : ∀ r ∈ new, (r.id == input.id) = true → False := by
    intro r hr he
    have hle := hnew.lower r hr
    rw [beq_iff_eq.mp he] at hle
    exact absurd (Nat.lt_of_lt_of_le hlt hle) (Nat.lt_irrefl _)
  have hsame : updateWhere (fun r => r.id == input.id) (fun r =>
      { r with
        structuredReport := r.structuredReport.map fun report =>
          { report with
            automation :=
              { report.automation with
                queuedPhase := settled.1.queuedPhase
                sourceRightsValid := settled.1.sourceRightsValid } } }) new = new :=
    updateWhere_eq_self fun r hr he => (hother r hr he).elim
  rw [hsame]
  rfl

end Result

/-! ## 3. Every step has an effect on the runs -/

section Steps

variable [Sha256] [LocaleOrder] [UrlParser]

omit [LocaleOrder] in
theorem transact_runs {β : Type} {s : Base} {a : Action}
    {tx : Database → Except KnowledgeError (β × Database)}
    (h : ∀ b db', tx s.db = .ok (b, db') → RunsEffect s.now s.db db' a) :
    RunsEffect s.now s.db (s.transact tx).db a := by
  rcases Machine.commit_cases s.db (tx s.db) with e | ⟨b, db', hok, e⟩
  · rw [show (s.transact tx).db = s.db from e]
    exact .same rfl
  · rw [show (s.transact tx).db = db' from e]
    exact h b db' hok

omit [LocaleOrder] in
theorem jobStep_runs {s : Base} {a : Action} {job : KnowledgeIngestionJob}
    {allowed : IngestionStage → Bool}
    {tx : Database → Except KnowledgeError (Unit × Database)}
    (h : ∀ u db', tx s.db = .ok (u, db') → RunsEffect s.now s.db db' a) :
    RunsEffect s.now s.db (s.jobStep job allowed tx).db a := by
  unfold Base.jobStep
  split
  · exact transact_runs h
  · exact .same rfl

omit [LocaleOrder] in
theorem RunsEffect.insertRun {now : Int} {db db₁ db' : Database} {a : Action}
    (phase : ReviewPhase) (versionId : Uuid) (contentHash model : Text)
    (hr : db₁.runs = db.runs) (hn : db.nextId ≤ db₁.nextId)
    (hr' : db'.runs = (db₁.insertRun phase versionId contentHash model).runs)
    (hn' : db'.nextId = (db₁.insertRun phase versionId contentHash model).nextId) :
    RunsEffect now db db' a := by
  rcases runs_insertRun db₁ phase versionId contentHash model with ⟨e, _⟩ | ⟨e, en, hf⟩
  · exact .same (hr'.trans (e.trans hr))
  · rw [hr] at e hf
    refine .grown (hr'.trans e) (NewRuns.one hn ?_ hf)
    rw [hn', en]
    exact Nat.lt_succ_self _

omit [LocaleOrder] in
theorem RunsEffect.storeParsed {now : Int} {db db' : Database} {a : Action}
    (documentId versionId : Uuid) (content : Text) (sections : List KnowledgeReviewSection)
    (hr : db'.runs = (storeParsed documentId versionId content sections db).runs)
    (hn : db'.nextId = (storeParsed documentId versionId content sections db).nextId) :
    RunsEffect now db db' a := by
  have hstart : ((((db.setVersion versionId (parsedVersion content)).setDocument documentId
      (withStatus .review)).deleteSections versionId).insertSections sections).runs = db.runs := rfl
  exact .insertRun .initial versionId (Sha256.hex content) REVIEW_MODEL hstart
    (Nat.le_add_right _ _) hr hn

omit [LocaleOrder] in
theorem queueAutomationRun_runs {now : Int} {db db₁ db₂ db' : Database} {a : Action}
    {versionId : Uuid} {contentHash : Text} {phase : ReviewPhase}
    (h : queueAutomationRun versionId contentHash phase db₁ = .ok db₂)
    (hr : db₁.runs = db.runs) (hn : db.nextId ≤ db₁.nextId) (hr' : db'.runs = db₂.runs)
    (hn' : db'.nextId = db₂.nextId) : RunsEffect now db db' a := by
  rcases queueAutomationRun_ok h with ⟨_, rfl⟩ | ⟨run, hm, _, hs, rfl⟩
  · exact .insertRun phase versionId contentHash REVIEW_MODEL hr hn hr' hn'
  · rw [hr] at hm
    refine .restarted hm hs (hr'.trans ?_)
    show updateWhere _ _ db₁.runs = _
    rw [hr]

omit [Sha256] [LocaleOrder] [UrlParser] in
/-- Several runs, one after the other. -/
theorem runs_requeue (candidates : List (Uuid × Text)) (db : Database) :
    ∃ new, NewRuns db.runs db.nextId (candidates.foldl
        (fun db c => db.insertRun .initial c.1 c.2 REVIEW_MODEL) db).nextId new ∧
      (candidates.foldl (fun db c => db.insertRun .initial c.1 c.2 REVIEW_MODEL) db).runs =
        db.runs ++ new ∧
      db.nextId ≤ (candidates.foldl
        (fun db c => db.insertRun .initial c.1 c.2 REVIEW_MODEL) db).nextId := by
  induction candidates generalizing db with
  | nil => exact ⟨[], NewRuns.nil _ _ _, (List.append_nil _).symm, Nat.le_refl _⟩
  | cons c candidates ih =>
    obtain ⟨new, hnew, hruns, hle⟩ := ih (db.insertRun .initial c.1 c.2 REVIEW_MODEL)
    rw [List.foldl_cons]
    rcases runs_insertRun db .initial c.1 c.2 REVIEW_MODEL with ⟨hr, hn⟩ | ⟨hr, hn, hf⟩
    · rw [hn] at hle
      refine ⟨new, ?_, by rw [hruns, hr], hle⟩
      rw [hr, hn] at hnew
      exact hnew
    · rw [hn] at hle
      have hfirst : db.nextId < (candidates.foldl
          (fun db c => db.insertRun .initial c.1 c.2 REVIEW_MODEL)
            (db.insertRun .initial c.1 c.2 REVIEW_MODEL)).nextId := hle
      have hlater : ∀ r ∈ new, db.nextId < r.id := by
        intro r h
        have := hnew.lower r h
        rw [hn] at this
        exact this
      have hone : NewRuns db.runs db.nextId _
          [Database.queuedRun db.nextId .initial c.1 c.2 REVIEW_MODEL] :=
        NewRuns.one (Nat.le_refl db.nextId) hfirst hf
      refine ⟨Database.queuedRun db.nextId .initial c.1 c.2 REVIEW_MODEL :: new,
        ⟨fun r h => ?_, fun r h => ?_, fun r h => ?_, ?_, fun r h r' hr' => ?_, ?_⟩, ?_,
        Nat.le_of_lt hfirst⟩
      · rcases List.mem_cons.mp h with rfl | h
        · exact ⟨_, _, _, _, rfl⟩
        · exact hnew.queued r h
      · rcases List.mem_cons.mp h with rfl | h
        · exact Nat.le_refl _
        · exact Nat.le_of_lt (hlater r h)
      · rcases List.mem_cons.mp h with rfl | h
        · exact hfirst
        · exact hnew.upper r h
      · refine List.nodup_cons.mpr ⟨fun hm => ?_, hnew.ids⟩
        obtain ⟨r, h, e⟩ := List.mem_map.mp hm
        have hlt := hlater r h
        rw [show r.id = db.nextId from e] at hlt
        exact absurd hlt (Nat.lt_irrefl _)
      · rcases List.mem_cons.mp h with rfl | h
        · exact hone.fresh _ (List.mem_singleton.mpr rfl) r' hr'
        · refine hnew.fresh r h r' ?_
          rw [hr]
          exact List.mem_append_left _ hr'
      · refine List.nodup_cons.mpr ⟨fun hm => ?_, hnew.index⟩
        obtain ⟨r, h, e⟩ := List.mem_map.mp hm
        refine hnew.fresh r h _ ?_ e.symm
        rw [hr]
        exact List.mem_append_right _ (List.mem_singleton.mpr rfl)
      · rw [hruns, hr, List.append_assoc]
        rfl

omit [Sha256] [LocaleOrder] [UrlParser] in
theorem runs_approveWithNote (target : CurrentTarget) (actorId : UserId) (note : Text) (now : Int)
    (db : Database) : (approveWithNote target actorId note now db).runs = db.runs := by
  unfold approveWithNote
  dsimp only
  split
  · exact runs_queueTask ..
  · rfl

omit [Sha256] [LocaleOrder] [UrlParser] in
theorem runs_queueReviewTask (transition : KnowledgeReviewTransition) (preserve : Bool)
    (now : Int) (db : Database) :
    (queueReviewTask transition preserve now db).runs = db.runs := by
  unfold queueReviewTask
  split
  · split
    · rfl
    · exact runs_queueTask ..
  · rfl

omit [LocaleOrder] in
/-- **A submission** repeats an answer, or it settles the run it is for. -/
theorem submitResult_applied {now : Int} {db db' : Database} {input : CompleteInput}
    {outcome : AutomationReviewOutcome} (hlt : ∀ r ∈ db.runs, r.id < db.nextId)
    (h : submitResult input now db = .ok (outcome, db')) :
    (db' = db ∧ ∃ r, replayOutcome r = .ok outcome) ∨
      ∃ parsed r version document j settled new, parseResult input = .ok parsed ∧
        Applied now db parsed outcome r version document j settled ∧
        db'.runs = updateWhere (fun r => r.id == parsed.id) (settledRun parsed j settled now)
          db.runs ++ new ∧
        NewRuns db.runs db.nextId db'.nextId new := by
  obtain ⟨parsed, hp, ⟨_, rfl, r, _, hr⟩ | ⟨r, version, document, j, db₁, hl, hj, ho, hdb⟩⟩ :=
    submitResult_ok h
  · exact Or.inl ⟨rfl, r, hr⟩
  have target := leasedTarget_ok hl
  have hid : parsed.id < db.nextId := by
    rw [← target.runId]
    exact hlt r target.run
  have hjudged : db₁.runs = db.runs ∧ db.nextId ≤ db₁.nextId := by
    rcases judge_ok hj with ⟨rfl, _⟩ | ⟨_, _, _, _, _, _, _, _, rfl⟩
    · exact ⟨rfl, Nat.le_refl _⟩
    · exact ⟨rfl, Nat.le_succ _⟩
  obtain ⟨new, hnew, hruns, hended⟩ := runs_complete parsed document.id r.model j now
    (Nat.lt_of_lt_of_le hid hjudged.2)
  refine Or.inr ⟨parsed, r, version, document, j, _, new, hp, ⟨target, hended, ho⟩, ?_, ?_⟩
  · rw [hdb, hruns, hjudged.1]
  · rw [hdb]
    refine ⟨hnew.queued, fun r hr => Nat.le_trans hjudged.2 (hnew.lower r hr), hnew.upper,
      hnew.ids, fun r hr r' hr' => hnew.fresh r hr r' ?_, hnew.index⟩
    rw [hjudged.1]
    exact hr'

omit [LocaleOrder] in
theorem submitResult_runs {now : Int} {db db' : Database} {input : CompleteInput}
    {outcome : AutomationReviewOutcome} (hlt : ∀ r ∈ db.runs, r.id < db.nextId)
    (h : submitResult input now db = .ok (outcome, db')) :
    RunsEffect now db db' (.submitResult input) := by
  rcases submitResult_applied hlt h with
    ⟨rfl, _⟩ | ⟨parsed, r, version, document, j, settled, new, hp, happlied, hruns, hnew⟩
  · exact .same rfl
  · exact .applied hp h happlied hruns hnew

omit [Sha256] [LocaleOrder] [UrlParser] in
theorem runs_writeDecision {pending : PendingDecision} {db db' : Database} {u : Unit}
    (h : writeDecision pending db = .ok (u, db')) : db'.runs = db.runs := by
  unfold writeDecision at h
  dsimp only at h
  split at h
  · split at h
    · cases h
    · cases h
      rfl
  · split at h
    · cases h
    · split at h
      · cases h
      · cases h
        rfl

/-- **Every step has one of the effects on the runs.** -/
theorem runs_effect {s : Base} (hlt : ∀ r ∈ s.db.runs, r.id < s.db.nextId) (a : Action) :
    RunsEffect s.now s.db (s.step a).db a := by
  cases a with
  | tick ms => exact .same rfl
  | putSource source => exact .same rfl
  | activatePending documentId chunkCount =>
    refine .same ?_
    show (activatePending documentId chunkCount s.now s.db).runs = _
    unfold activatePending
    split
    · rfl
    · split
      · rfl
      · split <;> rfl
  | createKnowledgeDraft input actor =>
    refine transact_runs fun r db' h => ?_
    rw [createKnowledgeDraft_ok h]
    exact .same rfl
  | importKnowledgeCandidate input actor =>
    refine transact_runs fun r db' h => ?_
    obtain ⟨source, sections, _, _, _, rfl⟩ := importKnowledgeCandidate_ok h
    exact .same rfl
  | readDraft documentId => exact .same rfl
  | updateKnowledgeDraft document input actor =>
    show RunsEffect s.now s.db (ite _ _ _ : Base).db _
    split
    · refine transact_runs fun r db' h => ?_
      rcases updateKnowledgeDraft_ok h with rfl | ⟨_, _, _, _, _, _, _, rfl⟩
      · exact .same rfl
      · exact .same rfl
    · exact .same rfl
  | reviewKnowledgeDocument documentId input actor =>
    refine transact_runs fun r db' h => ?_
    rcases reviewKnowledgeDocument_ok h with rfl | ⟨_, _, _, _, _, _, _, _, _, _, _, rfl⟩
    · exact .same rfl
    · exact .same (runs_queueReviewTask ..)
  | publishKnowledgeDraft documentId actor =>
    refine transact_runs fun r db' h => ?_
    rcases publishKnowledgeDraft_ok h with rfl | ⟨_, _, _, _, _, _, _, _, rfl⟩
    · exact .same rfl
    · exact .same rfl
  | archiveKnowledgeDocument documentId actor =>
    refine transact_runs fun r db' h => ?_
    rcases archiveKnowledgeDocument_ok h with rfl | ⟨document, _, rfl⟩
    · exact .same rfl
    · refine .same ?_
      cases hcurrent : document.currentVersionId with
      | none => rfl
      | some versionId => rfl
  | rollbackKnowledgeDocument documentId versionId actor =>
    refine transact_runs fun r db' h => ?_
    rcases rollbackKnowledgeDocument_ok h with rfl | ⟨_, _, _, _, _, _, _, _, rfl⟩
    · exact .same rfl
    · exact .same rfl
  | openWorkspace documentId => exact .same (by rw [Base.db_openWorkspace])
  | insertRequiredSections index =>
    rcases s.db_insertRequiredSections index with hdb | ⟨required, hdb⟩
    · exact .same (by rw [hdb])
    · refine .same ?_
      rw [hdb]
      rfl
  | decide input => exact .same (by rw [Base.db_decide])
  | writeDecision pending =>
    show RunsEffect s.now s.db (ite _ _ _ : Base).db _
    split
    · exact transact_runs fun u db' h => .same (runs_writeDecision h)
    · exact .same rfl
  | completeSections input => exact .same (by rw [Base.db_completeSections])
  | completeReview pending =>
    show RunsEffect s.now s.db (ite _ _ _ : Base).db _
    split
    · refine transact_runs fun u db' h => ?_
      obtain ⟨_, _, _, _, _, _, _, rfl⟩ := completeReview_ok h
      refine .same ?_
      show (ite _ _ _ : Database).runs = _
      split
      · exact runs_queueTask ..
      · rfl
    · exact .same rfl
  | retry input =>
    refine transact_runs fun u db' h => ?_
    obtain ⟨target, db₁, db₂, ha, hq, rfl⟩ := retry_ok h
    obtain ⟨_, sourceId, rfl⟩ := authorizedTarget_ok ha
    exact queueAutomationRun_runs hq rfl (Nat.le_refl _) rfl rfl
  | resolve input resolution =>
    refine transact_runs fun u db' h => ?_
    obtain ⟨parsed, _, h⟩ := resolve_ok h
    cases parsed with
    | archive =>
      obtain ⟨target, _, rfl⟩ := h
      exact .same rfl
    | manual_approve_with_note note =>
      obtain ⟨target, db₁, ha, rfl⟩ := h
      obtain ⟨_, sourceId, rfl⟩ := authorizedTarget_ok ha
      exact .same (runs_approveWithNote ..)
    | manual_edit_and_retry content =>
      obtain ⟨target, db₁, versionId, db₂, db₃, ha, hi, hq, rfl⟩ := h
      obtain ⟨_, sourceId, rfl⟩ := authorizedTarget_ok ha
      obtain ⟨rfl, rfl⟩ := insertManualEdit_ok hi
      exact queueAutomationRun_runs hq rfl (Nat.le_succ _) rfl rfl
    | adopt_revision_and_retry =>
      obtain ⟨target, db₁, db₂, ha, hq, rfl⟩ := h
      obtain ⟨_, sourceId, rfl⟩ := authorizedTarget_ok ha
      exact queueAutomationRun_runs hq rfl (Nat.le_refl _) rfl rfl
  | claim phase picked => exact .claimed rfl
  | submitResult input => exact transact_runs fun o db' h => submitResult_runs hlt h
  | requeuePending =>
    obtain ⟨new, hnew, hruns, _⟩ := runs_requeue (s.db.documents.filterMap
      (pendingCandidate s.db)) s.db
    exact .grown hruns hnew
  | initiateUpload input =>
    refine transact_runs fun r db' h => ?_
    obtain ⟨_, rfl⟩ := initiateUpload_ok h
    exact .same rfl
  | completeUpload versionId uploadedBy =>
    refine transact_runs fun u db' h => ?_
    rcases completeUpload_ok h with rfl | ⟨_, _, _, _, _, _, _, _, _, rfl⟩
    · exact .same rfl
    · exact .same (runs_queueTask ..)
  | claimNext taskId workerId =>
    refine .same ?_
    show (claimNext taskId workerId s.now s.db).2.runs = _
    unfold claimNext
    split <;> rfl
  | renewLease job =>
    refine jobStep_runs fun u db' h => ?_
    obtain ⟨_, rfl⟩ := updateLeased_bind_ok h
    exact .same rfl
  | markOcrSubmitted job parserJobId retryAt =>
    refine jobStep_runs fun u db' h => ?_
    obtain ⟨_, rfl⟩ := updateLeased_bind_ok h
    exact .same rfl
  | deferOcrPoll job retryAt =>
    refine jobStep_runs fun u db' h => ?_
    obtain ⟨_, rfl⟩ := updateLeased_bind_ok h
    exact .same rfl
  | saveParsedForReview job parsed =>
    refine jobStep_runs fun u db' h => ?_
    obtain ⟨version, document, sections, _, _, _, _, _, rfl⟩ := saveParsedForReview_ok h
    exact .storeParsed _ _ _ _ rfl rfl
  | loadApprovedContent job =>
    refine .same ?_
    show (ite _ _ _ : Base).db.runs = _
    split <;> rfl
  | saveEmbeddingsAndComplete job chunkCount =>
    show RunsEffect s.now s.db (ite _ _ _ : Base).db _
    split
    · refine transact_runs fun u db' h => ?_
      obtain ⟨_, _, _, _, _, _, _, _, _, _, _, _, _, rfl⟩ := saveEmbeddingsAndComplete_ok h
      exact .same rfl
    · exact .same rfl
  | markReviewRequired job =>
    refine jobStep_runs fun u db' h => ?_
    obtain ⟨_, rfl⟩ := updateLeased_bind_ok h
    exact .same rfl
  | markFailed job retryable retryAt =>
    refine jobStep_runs fun u db' h => ?_
    obtain ⟨_, rfl⟩ := updateLeased_bind_ok h
    exact .same rfl

end Steps

/-! ## 4. Claims -/

/-- What a run was created for. -/
def ReviewRun.target (r : ReviewRun) : ReviewPhase × Uuid × Text :=
  (r.phase, r.inputVersionId, r.inputContentHash)

/-- A result has been applied to the run. -/
def ended (status : RunStatus) : Bool :=
  status == .completed || status == .needs_human || status == .failed

/-- The row of a run whose lease has expired. -/
def releasedRun (r : ReviewRun) : ReviewRun :=
  { r with status := .queued, leaseTokenHash := none, leaseExpiresAt := none }

/-- What a claim may do to a row; `low` is the first id that was not drawn before. -/
structure ClaimedRow (low : Uuid) (r r' : ReviewRun) : Prop where
  columns : r' = { r with
    status := r'.status
    leaseTokenHash := r'.leaseTokenHash
    leaseExpiresAt := r'.leaseExpiresAt
    attempts := r'.attempts }
  kept : ended r.status = true → r' = r
  open_ : ended r.status = false → ended r'.status = false
  token : ∀ t, r'.leaseTokenHash = some t → r.leaseTokenHash = some t ∨ low ≤ t

theorem ClaimedRow.refl (low : Uuid) (r : ReviewRun) : ClaimedRow low r r :=
  ⟨rfl, fun _ => rfl, fun h => h, fun _ h => Or.inl h⟩

theorem ClaimedRow.trans {low low' : Uuid} {r r' r'' : ReviewRun} (hle : low ≤ low')
    (h : ClaimedRow low r r') (h' : ClaimedRow low' r' r'') : ClaimedRow low r r'' := by
  refine ⟨?_, fun he => ?_, fun he => h'.open_ (h.open_ he), fun t ht => ?_⟩
  · rw [h'.columns, h.columns]
  · have hr := h.kept he
    rw [hr] at h'
    exact h'.kept he
  · rcases h'.token t ht with ht | ht
    · exact h.token t ht
    · exact Or.inr (Nat.le_trans hle ht)

theorem ClaimedRow.id_eq {low : Uuid} {r r' : ReviewRun} (h : ClaimedRow low r r') :
    r'.id = r.id := by
  rw [h.columns]

theorem ClaimedRow.keys_eq {low : Uuid} {r r' : ReviewRun} (h : ClaimedRow low r r') :
    r'.keys = r.keys := by
  rw [h.columns]
  rfl

/-- One candidate of a claim. -/
theorem leaseRun_rows (phase : ReviewPhase) (now : Int) (acc : List LeaseCandidate × Database)
    (id : Uuid) (hu : UniqueOn (·.id) acc.2.runs) :
    List.Forall₂ (ClaimedRow acc.2.nextId) acc.2.runs (leaseRun phase now acc id).2.runs ∧
      acc.2.nextId ≤ (leaseRun phase now acc id).2.nextId := by
  unfold leaseRun
  split
  · exact ⟨List.forall₂_same.mpr fun r _ => ClaimedRow.refl _ r, Nat.le_refl _⟩
  next r hr =>
  have hfound := List.find?_some hr
  simp only [Bool.and_eq_true, beq_iff_eq] at hfound
  have hqueued : r.status = .queued := by
    have hc := hfound.2
    unfold claimable at hc
    simp only [Bool.and_eq_true, beq_iff_eq] at hc
    exact hc.1.1.1.1
  refine ⟨forall₂_updateWhere (fun r _ => ClaimedRow.refl _ r) fun r₁ hm he => ?_, Nat.le_succ _⟩
  -- the candidate is the only row with its id
  have hrow : r₁ = r := hu.eq hm (List.mem_of_find?_eq_some hr)
    ((beq_iff_eq.mp he).trans hfound.1.symm)
  have hopen : ended r₁.status = false := by
    rw [hrow, hqueued]
    rfl
  refine ⟨rfl, fun h => ?_, fun _ => rfl, fun t ht => Or.inr ?_⟩
  · rw [hopen] at h
    cases h
  · exact Nat.le_of_eq (Option.some.inj ht)

theorem expireLeases_rows (now : Int) (db : Database) :
    List.Forall₂ (ClaimedRow db.nextId) db.runs (expireLeases now db).runs := by
  refine forall₂_updateWhere (fun r _ => ClaimedRow.refl _ r) fun r _ he => ?_
  have hopen : ended r.status = false := by
    unfold leaseExpired at he
    simp only [Bool.and_eq_true, beq_iff_eq] at he
    rw [he.1]
    rfl
  refine ⟨rfl, fun h => ?_, fun _ => rfl, fun t ht => ?_⟩
  · rw [hopen] at h
    cases h
  · cases ht

theorem uniqueOn_claimed {low : Uuid} {rows rows' : List ReviewRun}
    (h : List.Forall₂ (ClaimedRow low) rows rows') (hu : UniqueOn (·.id) rows) :
    UniqueOn (·.id) rows' := by
  unfold UniqueOn at hu ⊢
  rw [forall₂_map_eq (h.imp fun _ _ hr => hr.id_eq)]
  exact hu

/-- **What a claim does to the rows.** -/
theorem claim_rows (phase : ReviewPhase) (picked : List Uuid) (now : Int) {db : Database}
    (hu : UniqueOn (·.id) db.runs) :
    List.Forall₂ (ClaimedRow db.nextId) db.runs (claim phase picked now db).2.runs := by
  have hrounds : ∀ acc : List LeaseCandidate × Database, db.nextId ≤ acc.2.nextId →
      List.Forall₂ (ClaimedRow db.nextId) db.runs acc.2.runs →
      List.Forall₂ (ClaimedRow db.nextId) db.runs (picked.foldl (leaseRun phase now) acc).2.runs := by
    induction picked with
    | nil => exact fun acc _ hacc => hacc
    | cons id picked ih =>
      intro acc hle hacc
      obtain ⟨hrow, hnext⟩ := leaseRun_rows phase now acc id (uniqueOn_claimed hacc hu)
      refine ih _ (Nat.le_trans hle hnext) ?_
      exact forall₂_trans (fun _ _ _ h h' => h.trans hle h') hacc hrow
  exact hrounds _ (Nat.le_refl _) (expireLeases_rows now db)

/-! ## 5. Ids and tokens -/

/-- The keys of the table, and the policy that every run is created under. -/
structure StoredRuns (db : Database) : Prop where
  ids : UniqueOn (·.id) db.runs
  index : UniqueOn ReviewRun.index db.runs
  prompt : ∀ r ∈ db.runs, r.promptVersion = KNOWLEDGE_AUTOMATION_POLICY_VERSION

structure RunsKnown (db : Database) : Prop extends StoredRuns db where
  lower : ∀ r ∈ db.runs, r.id < db.nextId
  tokens : ∀ r ∈ db.runs, ∀ t, r.leaseTokenHash = some t → t < db.nextId
  leased : ∀ r ∈ db.runs, ∀ t, r.leaseTokenHash = some t → r.status = .leased
  holder : ∀ r ∈ db.runs, ∀ r' ∈ db.runs, ∀ t, r.leaseTokenHash = some t →
    r'.leaseTokenHash = some t → r = r'

theorem StoredRuns.of_keys {db db' : Database} (h : StoredRuns db)
    (e : db'.runs.map ReviewRun.keys = db.runs.map ReviewRun.keys) : StoredRuns db' where
  ids := uniqueOn_of_map_eq Prod.fst (fun _ => rfl) e h.ids
  index := uniqueOn_of_map_eq Prod.snd (fun _ => rfl) e h.index
  prompt r hr := by
    obtain ⟨r₀, hm, ek⟩ := exists_of_map_eq e hr
    have hp : r₀.promptVersion = r.promptVersion :=
      congrArg (fun k : Uuid × ReviewPhase × Uuid × Text × Text => k.2.2.2.2) ek
    rw [← hp]
    exact h.prompt r₀ hm

theorem QueuedRun.token {r : ReviewRun} (h : QueuedRun r) : r.leaseTokenHash = none := by
  obtain ⟨_, _, _, _, e⟩ := h
  rw [e]
  rfl

theorem QueuedRun.prompt {r : ReviewRun} (h : QueuedRun r) :
    r.promptVersion = KNOWLEDGE_AUTOMATION_POLICY_VERSION := by
  obtain ⟨_, _, _, _, e⟩ := h
  rw [e]
  rfl

theorem StoredRuns.append {db db' : Database} (h : StoredRuns db) {new : List ReviewRun}
    {low high : Uuid} (hl : ∀ r ∈ db.runs, r.id < low) (hruns : db'.runs = db.runs ++ new)
    (hnew : NewRuns db.runs low high new) : StoredRuns db' := by
  refine ⟨?_, ?_, fun r hr => ?_⟩
  · unfold UniqueOn
    rw [hruns, List.map_append, List.nodup_append]
    refine ⟨h.ids, hnew.ids, fun a ha b hb e => ?_⟩
    obtain ⟨r₀, hm₀, ha'⟩ := List.mem_map.mp ha
    obtain ⟨r₁, hm₁, hb'⟩ := List.mem_map.mp hb
    have hlt := Nat.lt_of_lt_of_le (hl r₀ hm₀) (hnew.lower r₁ hm₁)
    rw [ha', hb', e] at hlt
    exact absurd hlt (Nat.lt_irrefl _)
  · unfold UniqueOn
    rw [hruns, List.map_append, List.nodup_append]
    refine ⟨h.index, hnew.index, fun a ha b hb e => ?_⟩
    obtain ⟨r₀, hm₀, ha'⟩ := List.mem_map.mp ha
    obtain ⟨r₁, hm₁, hb'⟩ := List.mem_map.mp hb
    exact hnew.fresh r₁ hm₁ r₀ hm₀ (ha'.trans (e.trans hb'.symm))
  · rw [hruns] at hr
    rcases List.mem_append.mp hr with hr | hr
    · exact h.prompt r hr
    · exact (hnew.queued r hr).prompt

namespace RunsKnown

variable {db db' : Database}

theorem eq (h : RunsKnown db) {r r' : ReviewRun} (hr : r ∈ db.runs) (hr' : r' ∈ db.runs)
    (e : r.id = r'.id) : r = r' := h.ids.eq hr hr' e

/-- Rows that lose their token, and new rows. -/
theorem of_rows (h : RunsKnown db) {p : ReviewRun → Bool} {f : ReviewRun → ReviewRun}
    {new : List ReviewRun} (hruns : db'.runs = updateWhere p f db.runs ++ new)
    (hf : ∀ r, (f r).keys = r.keys) (ht : ∀ r, (f r).leaseTokenHash = none)
    (hn : db.nextId ≤ db'.nextId) (hnew : NewRuns db.runs db.nextId db'.nextId new) :
    RunsKnown db' := by
  have hkeys := map_updateWhere (p := p) hf db.runs
  have hold : ∀ r ∈ db'.runs, ∀ t, r.leaseTokenHash = some t → r ∈ db.runs := by
    intro r hr t htok
    rw [hruns] at hr
    rcases List.mem_append.mp hr with hr | hr
    · obtain ⟨r₀, hm, rfl⟩ := mem_updateWhere.mp hr
      by_cases hp : p r₀ = true
      · rw [if_pos hp, ht r₀] at htok
        cases htok
      · rw [if_neg hp]
        exact hm
    · rw [(hnew.queued r hr).token] at htok
      cases htok
  have hlower : ∀ r ∈ updateWhere p f db.runs, r.id < db.nextId := by
    intro r hr
    obtain ⟨r₀, hm₀, e⟩ := exists_of_map_eq hkeys hr
    have hid : r₀.id = r.id := congrArg Prod.fst e
    rw [← hid]
    exact h.lower r₀ hm₀
  have hfresh : NewRuns (updateWhere p f db.runs) db.nextId db'.nextId new := by
    refine ⟨hnew.queued, hnew.lower, hnew.upper, hnew.ids, fun r hr r' hr' => ?_, hnew.index⟩
    obtain ⟨r₀, hm₀, e⟩ := exists_of_map_eq hkeys hr'
    have hindex : r₀.index = r'.index := congrArg Prod.snd e
    rw [← hindex]
    exact hnew.fresh r hr r₀ hm₀
  have hstored : StoredRuns { db with runs := updateWhere p f db.runs } :=
    h.toStoredRuns.of_keys hkeys
  refine ⟨hstored.append hlower hruns hfresh, fun r hr => ?_, fun r hr t htok => ?_,
    fun r hr t htok => ?_, fun r hr r' hr' t htok htok' => ?_⟩
  · rw [hruns] at hr
    rcases List.mem_append.mp hr with hr | hr
    · exact Nat.lt_of_lt_of_le (hlower r hr) hn
    · exact hnew.upper r hr
  · exact Nat.lt_of_lt_of_le (h.tokens r (hold r hr t htok) t htok) hn
  · exact h.leased r (hold r hr t htok) t htok
  · exact h.holder r (hold r hr t htok) r' (hold r' hr' t htok') t htok htok'

theorem of_runs (h : RunsKnown db) (hruns : db'.runs = db.runs) (hn : db.nextId ≤ db'.nextId) :
    RunsKnown db' := by
  refine ⟨h.toStoredRuns.of_keys (by rw [hruns]), fun r hr => ?_, fun r hr t ht => ?_,
    fun r hr => ?_, fun r hr r' hr' => ?_⟩
  · rw [hruns] at hr
    exact Nat.lt_of_lt_of_le (h.lower r hr) hn
  · rw [hruns] at hr
    exact Nat.lt_of_lt_of_le (h.tokens r hr t ht) hn
  · rw [hruns] at hr
    exact h.leased r hr
  · rw [hruns] at hr hr'
    exact h.holder r hr r' hr'

theorem expireLeases (h : RunsKnown db) (now : Int) : RunsKnown (expireLeases now db) := by
  have hruns : (KnowledgeBase.expireLeases now db).runs =
      updateWhere (leaseExpired now) releasedRun db.runs ++ [] := by
    rw [List.append_nil]
    rfl
  exact h.of_rows hruns (fun _ => rfl) (fun _ => rfl) (Nat.le_refl _) (NewRuns.nil _ _ _)

/-- The token of a lease is new. -/
theorem leaseRun {phase : ReviewPhase} {now : Int} {acc : List LeaseCandidate × Database}
    (h : RunsKnown acc.2) (id : Uuid) : RunsKnown (leaseRun phase now acc id).2 := by
  have hrows := leaseRun_rows phase now acc id h.ids
  have hstored := h.toStoredRuns.of_keys (forall₂_map_eq (hrows.1.imp fun _ _ hr => hr.keys_eq))
  unfold KnowledgeBase.leaseRun at hstored ⊢
  split
  · exact h
  next r hr =>
  have hm := List.mem_of_find?_eq_some hr
  have hid : r.id = id := by
    have hf := List.find?_some hr
    simp only [Bool.and_eq_true, beq_iff_eq] at hf
    exact hf.1
  rw [hr] at hstored
  -- a row of the result is an old one, or the leased one
  have hrow : ∀ r' ∈ updateWhere (fun r : ReviewRun => r.id == id) (fun r =>
      { r with
        status := .leased
        leaseTokenHash := some acc.2.nextId
        leaseExpiresAt := some (now + REVIEW_LEASE_MS)
        attempts := r.attempts + 1 }) acc.2.runs,
      (r' ∈ acc.2.runs ∧ r'.id ≠ id) ∨
        (r'.id = id ∧ r'.leaseTokenHash = some acc.2.nextId ∧ r'.status = .leased) := by
    intro r' hr'
    obtain ⟨r₀, hm₀, rfl⟩ := mem_updateWhere.mp hr'
    by_cases he : (r₀.id == id) = true
    · rw [if_pos he]
      exact Or.inr ⟨beq_iff_eq.mp he, rfl, rfl⟩
    · rw [if_neg he]
      exact Or.inl ⟨hm₀, fun e => he (beq_iff_eq.mpr e)⟩
  have hnone : ∀ r' ∈ acc.2.runs, r'.leaseTokenHash ≠ some acc.2.nextId := fun r' hr' e =>
    absurd (h.tokens r' hr' _ e) (Nat.lt_irrefl _)
  refine ⟨hstored, fun r' hr' => ?_, fun r' hr' t ht => ?_, fun r' hr' t ht => ?_,
    fun r' hr' r'' hr'' t ht ht' => ?_⟩
  · rcases hrow r' hr' with ⟨hm', _⟩ | ⟨e, _⟩
    · exact Nat.lt_succ_of_lt (h.lower r' hm')
    · rw [e, ← hid]
      exact Nat.lt_succ_of_lt (h.lower r hm)
  · rcases hrow r' hr' with ⟨hm', _⟩ | ⟨_, e, _⟩
    · exact Nat.lt_succ_of_lt (h.tokens r' hm' t ht)
    · rw [← Option.some.inj (e.symm.trans ht)]
      exact Nat.lt_succ_self _
  · rcases hrow r' hr' with ⟨hm', _⟩ | ⟨_, _, e⟩
    · exact h.leased r' hm' t ht
    · exact e
  · rcases hrow r' hr' with ⟨hm', _⟩ | ⟨e', etok, _⟩ <;>
      rcases hrow r'' hr'' with ⟨hm'', _⟩ | ⟨e'', etok', _⟩
    · exact h.holder r' hm' r'' hm'' t ht ht'
    · rw [← ht', etok'] at ht
      exact absurd ht (hnone r' hm')
    · rw [← ht, etok] at ht'
      exact absurd ht' (hnone r'' hm'')
    · exact hstored.ids.eq hr' hr'' (e'.trans e''.symm)

theorem claim (h : RunsKnown db) (phase : ReviewPhase) (picked : List Uuid) (now : Int) :
    RunsKnown (claim phase picked now db).2 := by
  have hrounds : ∀ acc : List LeaseCandidate × Database, RunsKnown acc.2 →
      RunsKnown (picked.foldl (KnowledgeBase.leaseRun phase now) acc).2 := by
    induction picked with
    | nil => exact fun acc hacc => hacc
    | cons id picked ih => exact fun acc hacc => ih _ (hacc.leaseRun id)
  exact hrounds _ (h.expireLeases now)

end RunsKnown

section Runs

variable [Sha256] [LocaleOrder] [UrlParser]

/-- **One step keeps the runs known.** -/
theorem runsKnown_step {s : Base} (hk : Known s.db) (h : RunsKnown s.db) (a : Action) :
    RunsKnown (s.step a).db := by
  have hn := nextId_le_step hk a
  cases runs_effect h.lower a with
  | same runs => exact h.of_runs runs hn
  | grown runs fresh =>
    have hsame : updateWhere (fun _ => false) restarted s.db.runs = s.db.runs :=
      updateWhere_eq_self fun _ _ e => Bool.noConfusion e
    rw [← hsame] at runs
    exact h.of_rows runs (fun _ => rfl) (fun _ => rfl) hn fresh
  | restarted mem restartable runs =>
    rw [← List.append_nil (updateWhere _ _ _)] at runs
    exact h.of_rows runs (fun _ => rfl) (fun _ => rfl) hn (NewRuns.nil _ _ _)
  | claimed effect =>
    rw [effect]
    exact h.claim ..
  | applied parse result applied runs fresh =>
    exact h.of_rows runs (fun _ => rfl) (fun _ => rfl) hn fresh

theorem runsKnown_after (actions : List Action) : RunsKnown (Base.after actions).db :=
  (@Machine.run_invariant _ _ _ (fun s : Base => Known s.db ∧ RunsKnown s.db) _
    ⟨known_after [], ⟨UniqueOn.nil _, UniqueOn.nil _, fun _ hr => absurd hr List.not_mem_nil⟩,
      fun _ hr => absurd hr List.not_mem_nil, fun _ hr => absurd hr List.not_mem_nil, fun _ hr => absurd hr List.not_mem_nil,
      fun _ hr => absurd hr List.not_mem_nil⟩
    (fun _ a h => ⟨known_step h.1 a, runsKnown_step h.1 h.2 a⟩) actions).2

/-! ## 6. Row by row -/

/-- What a step may do to a row; `low` is the first id that was not drawn before. -/
structure RowStep (low : Uuid) (r r' : ReviewRun) : Prop where
  id : r'.id = r.id
  target : r'.target = r.target
  token : ∀ t, r'.leaseTokenHash = some t → r.leaseTokenHash = some t ∨ low ≤ t
  kept : ended r.status = true → r' = r ∨ r'.status = .queued

omit [Sha256] [LocaleOrder] [UrlParser] in
theorem RowStep.refl (low : Uuid) (r : ReviewRun) : RowStep low r r :=
  ⟨rfl, rfl, fun _ h => Or.inl h, fun _ => Or.inl rfl⟩

omit [Sha256] [LocaleOrder] [UrlParser] in
theorem ClaimedRow.rowStep {low : Uuid} {r r' : ReviewRun} (h : ClaimedRow low r r') :
    RowStep low r r' := by
  refine ⟨h.id_eq, ?_, h.token, fun he => Or.inl (h.kept he)⟩
  rw [h.columns]
  rfl

/-- **What a step does to the rows**: each goes one step on, and new ones are queued. -/
theorem runs_step {s : Base} (h : RunsKnown s.db) (a : Action) :
    ∃ kept new, (s.step a).db.runs = kept ++ new ∧
      List.Forall₂ (RowStep s.db.nextId) s.db.runs kept ∧ ∀ r ∈ new, QueuedRun r := by
  have hrefl : List.Forall₂ (RowStep s.db.nextId) s.db.runs s.db.runs :=
    List.forall₂_same.mpr fun r _ => RowStep.refl _ r
  have hnone : ∀ r ∈ ([] : List ReviewRun), QueuedRun r := fun _ hr => absurd hr List.not_mem_nil
  cases runs_effect h.lower a with
  | same runs => exact ⟨_, [], by rw [runs, List.append_nil], hrefl, hnone⟩
  | grown runs fresh => exact ⟨_, _, runs, hrefl, fresh.queued⟩
  | restarted mem restartable runs =>
    refine ⟨_, [], by rw [runs, List.append_nil], ?_, hnone⟩
    refine forall₂_updateWhere (fun r _ => RowStep.refl _ r) fun r _ _ => ?_
    exact ⟨rfl, rfl, fun _ ht => (nomatch ht), fun _ => Or.inr rfl⟩
  | claimed effect =>
    refine ⟨_, [], by rw [effect, List.append_nil], ?_, hnone⟩
    exact (claim_rows _ _ _ h.ids).imp fun _ _ hr => hr.rowStep
  | applied parse result applied runs fresh =>
    refine ⟨_, _, runs, ?_, fresh.queued⟩
    refine forall₂_updateWhere (fun r _ => RowStep.refl _ r) fun r hm he => ?_
    -- the row is the leased run, to which no result had been applied
    have hrow := h.eq hm applied.target.run
      ((beq_iff_eq.mp he).trans applied.target.runId.symm)
    refine ⟨rfl, rfl, fun _ ht => (nomatch ht), fun hend => ?_⟩
    rw [hrow, applied.target.status] at hend
    cases hend

/-- **Row by row, along a step.** -/
theorem row_step {s : Base} (h : RunsKnown s.db) (a : Action) {r : ReviewRun}
    (hr : r ∈ s.db.runs) : ∃ r' ∈ (s.step a).db.runs, RowStep s.db.nextId r r' := by
  obtain ⟨kept, new, hruns, hrows, _⟩ := runs_step h a
  obtain ⟨r', hm, hstep⟩ := forall₂_mem_left hrows hr
  refine ⟨r', ?_, hstep⟩
  rw [hruns]
  exact List.mem_append_left _ hm

/-- **The tables refer to each other as they should**, in every reachable state. -/
theorem base_references (actions : List Action) :
    let s := Base.after actions
    (∀ d ∈ s.db.documents, ∀ id, d.currentVersionId = some id →
      (∃ v ∈ s.db.versions, v.id = id ∧ v.documentId = d.id) ∧
        ∀ other ∈ s.db.documents, other.currentVersionId = some id → other = d) ∧
    (∀ v ∈ s.db.versions, ∃ d ∈ s.db.documents, d.id = v.documentId) ∧
    (∀ t ∈ s.db.tasks, AboutVersion s.db t.idempotencyKey t.payload ∧
      ∀ other ∈ s.db.tasks, other.idempotencyKey = t.idempotencyKey → other = t) ∧
    (∀ job ∈ s.jobs, ∀ t ∈ s.db.tasks, holdsLease job t = true →
      job.payload = t.payload ∧ job.attempts = t.attempts ∧ job.maxAttempts = t.maxAttempts) ∧
    ∀ r ∈ s.db.runs, (r.leaseTokenHash.isSome = true → r.status = .leased) ∧
      ∀ other ∈ s.db.runs, other.index = r.index → other = r := by
  intro s
  have hk : Known s.db := known_after actions
  have hc : Consistent s := consistent_after actions
  have hr : RunsKnown s.db := runsKnown_after actions
  refine ⟨fun d hd id hid => ?_, hk.owner, fun t ht => ⟨hc.about t ht, fun other ho e => ?_⟩,
    hc.payload, fun r hrun => ⟨fun htoken => ?_, fun other ho e => hr.index.eq ho hrun e⟩⟩
  · obtain ⟨v, hv, hvid, hvdoc⟩ := hk.current d hd id hid
    refine ⟨⟨v, hv, hvid, hvdoc⟩, fun other ho hoid => ?_⟩
    -- one version belongs to one document
    obtain ⟨w, hw, hwid, hwdoc⟩ := hk.current other ho id hoid
    rw [hk.versions.eq hw hv (hwid.trans hvid.symm), hvdoc] at hwdoc
    exact hk.documents.eq ho hd hwdoc.symm
  · exact hk.taskKeys.eq ho ht e
  · obtain ⟨token, htoken⟩ := Option.isSome_iff_exists.mp htoken
    exact hr.leased r hrun token htoken

end Runs

end OpenVac.KnowledgeBase
