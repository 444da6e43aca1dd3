/-
  File:      OpenVac/KnowledgeBase/Attempts.lean
  Subject:   The attempts of the background tasks, over every run of the knowledge base.

  * `TaskBooks` -- claims and deferrals of one task balance with its attempts.
  * `task_books` -- **over runs in which no claim takes over a task at its limit.**
-/
import OpenVac.KnowledgeBase.Tasks
import OpenVac.Lib.WorkQueue

namespace OpenVac.KnowledgeBase

open Rows JsString JsUrl WorkQueue

/-! ## 1. The books of a task -/

def taskPhase : TaskStatus → Phase
  | .queued => .waiting
  | .running => .running
  | .succeeded => .ended
  | .failed => .ended

/-- How often a task has been claimed. -/
def taskClaims (id : Uuid) (s : Base) : Nat := s.jobs.countP fun job => job.id == id

/-- The parser has the original, and the task waits for it. -/
def taskDeferral (id : Uuid) (s : Base) : Action → Bool
  | .markOcrSubmitted job _ _ =>
      job.id == id && s.jobs.contains job && job.payload.stage == .ocr_pending &&
        s.db.tasks.any (holdsLease job)
  | .deferOcrPoll job _ =>
      job.id == id && s.jobs.contains job && job.payload.stage == .ocr_processing &&
        s.db.tasks.any (holdsLease job)
  | _ => false

/-- A claim takes over a task whose worker was silent in its last attempt. -/
def reclaimsSpentTask (id : Uuid) (s : Base) : Action → Bool
  | .claimNext taskId _ =>
      taskId == id && s.db.tasks.any fun t =>
        t.id == id && t.status == .running && taskClaimable s.now t &&
          decide (t.maxAttempts ≤ t.attempts)
  | _ => false

structure TaskBooks (id : Uuid) (s : Base) (deferrals : Nat) : Prop where
  fresh : s.db.nextId ≤ id → taskClaims id s = 0 ∧ deferrals = 0
  bound : taskClaims id s ≤ 3 + deferrals
  rows : ∀ t ∈ s.db.tasks, t.id = id → t.maxAttempts = 3 ∧
    Ledger 3 (taskClaims id s) deferrals (taskPhase t.status) t.attempts

section Books

variable {s s' : Base} {id : Uuid} {deferrals : Nat}

theorem TaskBooks.start (id : Uuid) : TaskBooks id .initial 0 where
  fresh := fun _ => ⟨rfl, rfl⟩
  bound := Nat.zero_le _
  rows := fun _ h => nomatch h

/-- A step that claims nothing and touches no task, but may queue one. -/
theorem TaskBooks.grows (h : TaskBooks id s deferrals) {more : List BackgroundTask}
    (htasks : s'.db.tasks = s.db.tasks ++ more)
    (hmore : ∀ t ∈ more, t.status = .queued ∧ t.attempts = 0 ∧ t.maxAttempts = 3 ∧
      s.db.nextId ≤ t.id)
    (hjobs : s'.jobs = s.jobs) (hnext : s.db.nextId ≤ s'.db.nextId) :
    TaskBooks id s' deferrals := by
  have hclaims : taskClaims id s' = taskClaims id s := by
    unfold taskClaims
    rw [hjobs]
  refine ⟨fun hid => ?_, ?_, fun t ht hid => ?_⟩
  · rw [hclaims]
    exact h.fresh (Nat.le_trans hnext hid)
  · rw [hclaims]
    exact h.bound
  · rw [hclaims]
    rw [htasks] at ht
    rcases List.mem_append.mp ht with ht | ht
    · exact h.rows t ht hid
    · obtain ⟨hstatus, hattempts, hmax, hnew⟩ := hmore t ht
      obtain ⟨hzero, rfl⟩ := h.fresh (hid ▸ hnew)
      rw [hzero, hstatus, hattempts]
      exact ⟨hmax, .start (by decide)⟩

/-- An update of the task under a lease; `after` counts the deferrals of its task. -/
theorem TaskBooks.held (h : TaskBooks id s deferrals) (hk : Known s.db)
    {job : KnowledgeIngestionJob} {f : BackgroundTask → BackgroundTask} {after : Nat}
    (htasks : s'.db.tasks = updateWhere (holdsLease job) f s.db.tasks)
    (hjobs : s'.jobs = s.jobs) (hnext : s.db.nextId ≤ s'.db.nextId)
    (hcurrent : job.id = id → ∃ t ∈ s.db.tasks, holdsLease job t = true)
    (hf : ∀ t ∈ s.db.tasks, holdsLease job t = true →
      (f t).id = t.id ∧ (f t).maxAttempts = t.maxAttempts ∧
        (t.maxAttempts = 3 → ∀ claims, Ledger 3 claims deferrals .running t.attempts →
          Ledger 3 claims after (taskPhase (f t).status) (f t).attempts)) :
    TaskBooks id s' (if job.id = id then after else deferrals) := by
  have hclaims : taskClaims id s' = taskClaims id s := by
    unfold taskClaims
    rw [hjobs]
  by_cases hid : job.id = id
  · rw [if_pos hid]
    obtain ⟨held, hheld, hl⟩ := hcurrent hid
    obtain ⟨hown, hstatus, -⟩ := holdsLease_iff.mp hl
    obtain ⟨hthree, hbooks⟩ := h.rows held hheld (hown.trans hid)
    rw [hstatus] at hbooks
    obtain ⟨hsame, hmax, hledger⟩ := hf held hheld hl
    have hbooks' := hledger hthree _ hbooks
    refine ⟨fun hno => ?_, ?_, fun t' ht' hid' => ?_⟩
    · have hlt := hk.taskIds held hheld
      rw [hown, hid] at hlt
      exact absurd (Nat.lt_of_lt_of_le hlt hnext) (Nat.not_lt.mpr hno)
    · rw [hclaims]
      exact hbooks'.bound
    · rw [htasks] at ht'
      obtain ⟨t, ht, rfl⟩ := mem_updateWhere.mp ht'
      have htid : t.id = id := by
        split at hid'
        · next hl' => exact ((hf t ht hl').1).symm.trans hid'
        · exact hid'
      obtain rfl : t = held := hk.tasks.eq ht hheld (htid.trans (hown.trans hid).symm)
      rw [if_pos hl, hclaims, hmax]
      exact ⟨hthree, hbooks'⟩
  · rw [if_neg hid]
    refine ⟨fun hno => ?_, ?_, fun t' ht' hid' => ?_⟩
    · rw [hclaims]
      exact h.fresh (Nat.le_trans hnext hno)
    · rw [hclaims]
      exact h.bound
    · rw [hclaims]
      rw [htasks] at ht'
      obtain ⟨t, ht, rfl⟩ := mem_updateWhere.mp ht'
      have hno : ¬ holdsLease job t = true := fun hl => by
        rw [if_pos hl, (hf t ht hl).1, (holdsLease_iff.mp hl).1] at hid'
        exact hid hid'
      rw [if_neg hno] at hid' ⊢
      exact h.rows t ht hid'

/-- The claim of a task that is not at its limit. -/
theorem TaskBooks.claims (h : TaskBooks id s deferrals) (hk : Known s.db) (taskId : Uuid)
    (workerId : Text) (hlimit : reclaimsSpentTask id s (.claimNext taskId workerId) = false) :
    TaskBooks id
      { s with
        db := (claimNext taskId workerId s.now s.db).2
        jobs := (claimNext taskId workerId s.now s.db).1.toList ++ s.jobs } deferrals := by
  rcases claimNext_spec taskId workerId s.now s.db with e | ⟨task, hm, rfl, hc, e⟩
  · rw [e]
    exact h.grows (List.append_nil _).symm (fun _ h => nomatch h) rfl (Nat.le_refl _)
  · rw [e]
    generalize hs' : ({ s with db := _, jobs := _ } : Base) = s'
    have hclaims : taskClaims id s' = taskClaims id s + if task.id = id then 1 else 0 := by
      subst hs'
      unfold taskClaims
      simp only [Option.toList_some, List.singleton_append, List.countP_cons, beq_iff_eq]
    have hnext : s'.db.nextId = s.db.nextId + 1 := by
      subst hs'
      rfl
    have hrow : ∀ t ∈ s'.db.tasks, t = leasedTask workerId s.db.nextId s.now task ∨
        (t ∈ s.db.tasks ∧ t.id ≠ task.id) := by
      subst hs'
      intro t ht
      obtain ⟨t₀, hm₀, rfl⟩ := mem_updateWhere.mp ht
      split
      · next he => exact Or.inl (by rw [hk.tasks.eq hm₀ hm (beq_iff_eq.mp he)])
      · next he => exact Or.inr ⟨hm₀, fun e => he (beq_iff_eq.mpr e)⟩
    have hbooks : task.id = id → task.maxAttempts = 3 ∧
        Ledger 3 (taskClaims id s') deferrals .running (task.attempts + 1) := by
      intro hid
      obtain ⟨hthree, hledger⟩ := h.rows task hm hid
      rw [if_pos hid] at hclaims
      rw [hclaims]
      refine ⟨hthree, hledger.claim ?_⟩
      cases hstatus : task.status with
      | queued => exact hledger.left (by rw [hstatus]; rfl)
      | running =>
        unfold reclaimsSpentTask at hlimit
        simp only [hid, beq_self_eq_true, Bool.true_and] at hlimit
        have hspent := List.any_eq_false.mp hlimit task hm
        rw [← hthree]
        simpa [hid, hstatus, hc] using hspent
      | succeeded => simp [taskClaimable, hstatus] at hc
      | failed => simp [taskClaimable, hstatus] at hc
    refine ⟨fun hno => ?_, ?_, fun t ht hid => ?_⟩
    · rw [hnext] at hno
      have hne : ¬ task.id = id := fun e =>
        absurd (Nat.lt_of_succ_le (e ▸ hno)) (Nat.lt_asymm (hk.taskIds task hm))
      rw [hclaims, if_neg hne]
      exact h.fresh (Nat.le_of_succ_le hno)
    · by_cases hid : task.id = id
      · exact (hbooks hid).2.bound
      · rw [hclaims, if_neg hid]
        exact h.bound
    · rcases hrow t ht with rfl | ⟨hold, hne⟩
      · exact hbooks hid
      · rw [hclaims, if_neg fun e => hne (hid.trans e.symm)]
        exact h.rows t hold hid

end Books

/-! ## 2. Steps -/

section Steps

variable [Sha256] [LocaleOrder] [UrlParser] {s : Base} {id : Uuid} {deferrals : Nat}

/-- What is kept of a task. -/
structure TaskCounted (id : Uuid) (s : Base) (deferrals : Nat) : Prop where
  known : Known s.db
  consistent : Consistent s
  books : TaskBooks id s deferrals

omit [Sha256] [LocaleOrder] [UrlParser] in
/-- A deferral, under the lease of its task or without effect. -/
theorem deferral_counted (h : TaskCounted id s deferrals) (job : KnowledgeIngestionJob)
    (allowed : IngestionStage → Bool) (retryAt : Int) (payload : KnowledgeIngestionPayload) :
    TaskBooks id (s.jobStep job allowed (requeue job retryAt payload))
      (if job.id == id && s.jobs.contains job && allowed job.payload.stage &&
          s.db.tasks.any (holdsLease job) then deferrals + 1 else deferrals) := by
  unfold Base.jobStep
  by_cases hjob : (s.jobs.contains job && allowed job.payload.stage) = true
  · rw [if_pos hjob, Bool.and_assoc (job.id == id), hjob, Bool.and_true]
    by_cases hany : s.db.tasks.any (holdsLease job) = true
    · have hcommit : requeue job retryAt payload s.db = .ok ((),
          { s.db with
            tasks := updateWhere (holdsLease job) (requeued retryAt payload) s.db.tasks }) := by
        unfold requeue updateLeased
        rw [if_pos hany]
        rfl
      unfold Base.transact
      rw [hcommit, hany, Bool.and_true]
      simp only [beq_iff_eq]
      exact h.books.held h.known rfl rfl (Nat.le_refl _) (fun _ => List.any_eq_true.mp hany)
        fun t ht hl => ⟨rfl, rfl, fun _ _ hledger => hledger.defer⟩
    · have hfail : requeue job retryAt payload s.db = .error (.staleWorkerLease job.id) := by
        unfold requeue updateLeased
        rw [if_neg hany]
        rfl
      unfold Base.transact
      rw [hfail, Bool.eq_false_iff.mpr hany, Bool.and_false]
      exact h.books
  · rw [if_neg hjob, Bool.and_assoc (job.id == id), Bool.eq_false_iff.mpr hjob, Bool.and_false,
      Bool.false_and]
    exact h.books

omit [Sha256] [LocaleOrder] [UrlParser] in
/-- What the other operations of a worker do to the attempts. -/
theorem HolderUpdate.ledger {job : KnowledgeIngestionJob} {f : BackgroundTask → BackgroundTask}
    {a : Action} (hf : HolderUpdate s.now job f a)
    (hno : (∀ parserJobId retryAt, a ≠ .markOcrSubmitted job parserJobId retryAt) ∧
      ∀ retryAt, a ≠ .deferOcrPoll job retryAt)
    {t : BackgroundTask} (hl : holdsLease job t = true)
    (hknown : job.attempts = t.attempts ∧ job.maxAttempts = t.maxAttempts) :
    (f t).id = t.id ∧ (f t).maxAttempts = t.maxAttempts ∧
      (t.maxAttempts = 3 → ∀ claims, Ledger 3 claims deferrals .running t.attempts →
        Ledger 3 claims deferrals (taskPhase (f t).status) (f t).attempts) := by
  cases hf with
  | update h =>
    cases h with
    | renewLease =>
      refine ⟨rfl, rfl, fun _ claims hledger => ?_⟩
      show Ledger 3 claims deferrals (taskPhase t.status) t.attempts
      rw [(holdsLease_iff.mp hl).2.1]
      exact hledger
    | markOcrSubmitted => exact absurd rfl (hno.1 _ _)
    | deferOcrPoll => exact absurd rfl (hno.2 _)
    | markReviewRequired => exact ⟨rfl, rfl, fun _ _ hledger => hledger.finish⟩
    | markFailed =>
      refine ⟨rfl, rfl, fun hthree claims hledger => ?_⟩
      unfold failedTask
      dsimp only
      split
      · exact hledger.finish
      · next hlast =>
        rw [Bool.not_eq_true, Bool.or_eq_false_iff, decide_eq_false_iff_not, hknown.1,
          hknown.2, hthree] at hlast
        exact hledger.retry (by omega)
  | saveParsedForReview => exact ⟨rfl, rfl, fun _ _ hledger => hledger.finish⟩
  | saveEmbeddingsAndComplete => exact ⟨rfl, rfl, fun _ _ hledger => hledger.finish⟩

/-- **What one step does to the books of a task.** -/
theorem taskBooks_step (h : TaskCounted id s deferrals) (a : Action)
    (hlimit : reclaimsSpentTask id s a = false) :
    TaskBooks id (s.step a) (if taskDeferral id s a then deferrals + 1 else deferrals) := by
  have hn := nextId_le_step h.known a
  by_cases hclaim : ∃ taskId workerId, a = .claimNext taskId workerId
  · obtain ⟨taskId, workerId, rfl⟩ := hclaim
    exact h.books.claims h.known taskId workerId hlimit
  · have hjobs : (s.step a).jobs = s.jobs := by
      rcases jobs_step s a with e | ⟨taskId, workerId, e, _⟩
      · exact e
      · exact absurd ⟨taskId, workerId, e⟩ hclaim
    -- a step that is no deferral
    have hrest (hno : ∀ job, (∀ parserJobId retryAt, a ≠ .markOcrSubmitted job parserJobId retryAt) ∧
        ∀ retryAt, a ≠ .deferOcrPoll job retryAt) : TaskBooks id (s.step a) deferrals := by
      cases task_effect h.known a with
      | same effect =>
        exact h.books.grows (effect.trans (List.append_nil _).symm) (fun _ h => nomatch h)
          hjobs hn
      | queued runAt drawn fresh queueable effect =>
        refine h.books.grows effect (fun t ht => ?_) hjobs hn
        rw [List.mem_singleton.mp ht]
        exact ⟨rfl, rfl, rfl, Nat.le_of_eq drawn.symm⟩
      | claimed => exact absurd ⟨_, _, rfl⟩ hclaim
      | @held _ job f held update effect =>
        have hmem := h.consistent.jobs_of_held held
        by_cases hany : ∃ t ∈ s.db.tasks, holdsLease job t = true
        · have hstep := h.books.held h.known effect hjobs hn (fun _ => hany) fun t ht hl =>
            update.ledger (hno job) hl (h.consistent.payload job hmem t ht hl).2
          rw [ite_self] at hstep
          exact hstep
        · have hsame : updateWhere (holdsLease job) f s.db.tasks = s.db.tasks :=
            updateWhere_eq_self fun t ht hl => absurd ⟨t, ht, hl⟩ hany
          rw [hsame] at effect
          exact h.books.grows (effect.trans (List.append_nil _).symm) (fun _ h => nomatch h)
            hjobs hn
    cases a with
    | markOcrSubmitted job parserJobId retryAt =>
      exact deferral_counted h job (fun stage => stage == .ocr_pending) retryAt _
    | deferOcrPoll job retryAt =>
      exact deferral_counted h job (fun stage => stage == .ocr_processing) retryAt _
    | _ => exact hrest fun job => ⟨fun _ _ e => (nomatch e), fun _ e => nomatch e⟩

/-- **The books of a task balance**, over every run in which no claim takes over the task at its
    limit. -/
theorem task_books (actions : List Action) (id : Uuid)
    (h : Machine.Along Base.step (fun s a => reclaimsSpentTask id s a = false) .initial actions) :
    TaskBooks id (Base.after actions)
      (Machine.count Base.step (taskDeferral id) .initial actions) := by
  have h0 : TaskCounted id .initial 0 := ⟨known_after [], consistent_after [], .start id⟩
  have hrun := Machine.run_count (p := taskDeferral id) h0 (fun s a n hlimit hinv => ?_) actions h
  · rw [Nat.zero_add] at hrun
    exact hrun.books
  · exact ⟨known_step hinv.known a, consistent_step hinv.known hinv.consistent a,
      taskBooks_step hinv a hlimit⟩

end Steps

end OpenVac.KnowledgeBase
