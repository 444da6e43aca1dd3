/-
  File:      OpenVac/Agent/LeaseHolders.lean
  Subject:   Every reserved answer has a holder, or is on record as orphaned.

  * `Keeps` -- a move of the quota tables that reserves no answer.
  * `Created` -- what the two create transactions do with the lease they are given.
  * `Holders` -- the invariant of the machine; `holders_step`, `holders_run`.
  * `leases_owned` -- the leases of runs are their users' answers.
-/
import OpenVac.Agent.AnswerLeases

namespace OpenVac.Agent

open Rows Quota

/-! ## 1. The quota tables -/

/-- A move of the quota tables that reserves no answer: every row stems from an old one, which was
    reserved when it is, or belongs to a new lease of another resource. -/
structure Keeps (quota quota' : QuotaDb) : Prop where
  nextId : quota.nextId ≤ quota'.nextId
  row : ∀ q' ∈ quota'.ledger,
    (∃ q ∈ quota.ledger, q'.leaseId = q.leaseId ∧ q'.resource = q.resource ∧
      q'.actorUserId = q.actorUserId ∧ (q'.status = .reserved → q.status = .reserved)) ∨
    (quota.nextId ≤ q'.leaseId ∧ q'.resource ≠ .answer)

theorem Keeps.refl (quota : QuotaDb) : Keeps quota quota :=
  ⟨Nat.le_refl _, fun q hq => Or.inl ⟨q, hq, rfl, rfl, rfl, fun h => h⟩⟩

section Quotas

variable [Collation]

theorem keeps_transition {quota quota' : QuotaDb} (h : Sound quota) {input : TransitionInput}
    {target : QuotaTarget} {res : QuotaReservation}
    (hok : transitionQuotaReservation quota input target = .ok (res, quota')) :
    Keeps quota quota' := by
  obtain ⟨-, -, hn, -, -⟩ := transition_ok h.accounts hok
  refine ⟨hn.ge, fun q' hq' => ?_⟩
  obtain ⟨q, hq, e1, e2, e3, e4, -⟩ := transition_stem h.accounts hok q' hq'
  exact Or.inl ⟨q, hq, e1, e2, e3, e4⟩

theorem keeps_reserve {quota quota' : QuotaDb} (h : Sound quota) {now : Int} {input : ReserveInput}
    (hother : input.resource ≠ .answer) {res : QuotaReservation}
    (hok : reserve quota now input = .ok (res, quota')) : Keeps quota quota' := by
  rcases reserve_ok h.accounts hok with ⟨rfl, _⟩ | ⟨rows, _, hres, _⟩
  · exact Keeps.refl _
  · refine ⟨hres.nextId.le, fun q' hq' => ?_⟩
    have hl : quota'.ledger = quota.ledger ++ rows := hres.ledger
    rw [hl] at hq'
    rcases List.mem_append.mp hq' with hq' | hq'
    · exact (Keeps.refl quota).row q' hq'
    · obtain ⟨-, e1, -, -, e2, -⟩ := hres.rows q' hq'
      exact Or.inr ⟨e1.ge, by rw [e2]; exact hother⟩

omit [Collation] in
theorem keeps_commit {quota : QuotaDb} {α : Type} {tx : Except QuotaError (α × QuotaDb)}
    (h : ∀ b quota', tx = .ok (b, quota') → Keeps quota quota') :
    Keeps quota (Machine.commit quota tx) :=
  Machine.commit_preserves (Keeps.refl quota) h

theorem settleAnswerQuota_keeps {quota quota' : QuotaDb} (h : Sound quota) {leaseId : Option Nat}
    {userId reason : String} {status : TerminalStatus} {s : Option QuotaReservationStatus}
    (hok : settleAnswerQuotaInTransaction quota leaseId userId status reason = .ok (s, quota')) :
    Keeps quota quota' := by
  unfold settleAnswerQuotaInTransaction at hok
  cases leaseId with
  | none =>
    injection hok with e
    rw [← (Prod.mk.inj e).2]
    exact Keeps.refl _
  | some lease =>
    obtain ⟨⟨reservation, quota₁⟩, h1, h2⟩ := Except.bind_ok_iff.mp hok
    simp only at h2
    split at h2
    · cases h2
    · injection h2 with e
      rw [← (Prod.mk.inj e).2]
      exact keeps_transition h (inQuota_ok h1)

end Quotas

/-! ## 2. The transactions on runs -/

/-- Every terminal run was settled by the transaction that ended it. -/
def Finished (db : AgentDb) : Prop :=
  ∀ r ∈ db.runs, r.status.isActive = false → r.settlementStatus = .completed

/-- Rows that are settled, beside rows that were there. -/
theorem Finished.update {db : AgentDb} (h : Finished db) {p : RunRow → Bool} {f : RunRow → RunRow}
    (hf : ∀ r, (f r).settlementStatus = .completed) :
    ∀ r ∈ updateWhere p f db.runs, r.status.isActive = false → r.settlementStatus = .completed := by
  intro r hr hterminal
  obtain ⟨r₀, hr₀, e⟩ := mem_updateWhere.mp hr
  split at e
  · rw [e]
    exact hf r₀
  · rw [e] at hterminal ⊢
    exact h r₀ hr₀ hterminal

/-- What the holders of leases see of a transaction that creates no run. -/
structure Calm (db db' : AgentDb) : Prop where
  quota : Keeps db.quota db'.quota
  runs : ∀ r' ∈ db'.runs, ∃ r ∈ db.runs, r'.identity = r.identity
  finished : Finished db → Finished db'

theorem Calm.refl (db : AgentDb) : Calm db db :=
  ⟨Keeps.refl _, fun r hr => ⟨r, hr, rfl⟩, fun h => h⟩

/-- An update of the runs that settles what it updates. -/
theorem Calm.settle {db db' : AgentDb} (hk : Keeps db.quota db'.quota) {p : RunRow → Bool}
    {f : RunRow → RunRow} (hid : ∀ r, (f r).identity = r.identity)
    (hf : ∀ r, (f r).settlementStatus = .completed) (hruns : db'.runs = updateWhere p f db.runs) :
    Calm db db' := by
  refine ⟨hk, fun r hr => ?_, fun hfin r hr => ?_⟩
  · rw [hruns] at hr
    exact mem_updateWhere_stem hid hr
  · rw [hruns] at hr
    exact hfin.update hf r hr

section Runs

variable [Collation]

theorem complete_calm {db db' : AgentDb} (hq : Sound db.quota) {now : Int} {input : CompleteInput}
    (h : complete db now input = .ok ((), db')) : Calm db db' := by
  unfold complete at h
  simp only at h
  obtain ⟨_, _, h⟩ := Except.bind_ok_iff.mp h
  split at h
  · cases h
  · split at h
    · cases h
    · split at h
      · cases h
      · obtain ⟨⟨s, quota⟩, h1, h2⟩ := Except.bind_ok_iff.mp h
        injection h2 with e
        obtain ⟨_, rfl⟩ := Prod.mk.inj e
        obtain ⟨eq, er, -⟩ := writeAnswer_tables db input (input.status.getD .completed)
        rw [eq] at h1
        refine Calm.settle (settleAnswerQuota_keeps hq h1) ?_ ?_ (congrArg (updateWhere _ _) er)
        · exact fun _ => rfl
        · exact fun _ => rfl

theorem fail_calm {db db' : AgentDb} (hq : Sound db.quota) {now : Int} {input : FailInput}
    {result : FailResult} (h : fail db now input = .ok (result, db')) : Calm db db' := by
  unfold fail at h
  split at h
  · split at h
    · cases h
    · split at h
      · injection h with e
        rw [← (Prod.mk.inj e).2]
        exact Calm.refl db
      · cases h
  · obtain ⟨⟨s, quota⟩, h1, h2⟩ := Except.bind_ok_iff.mp h
    simp only at h2
    split at h2
    · cases h2
    · injection h2 with e
      obtain ⟨_, rfl⟩ := Prod.mk.inj e
      refine Calm.settle (settleAnswerQuota_keeps hq h1) ?_ ?_ rfl
      · exact fun _ => rfl
      · exact fun _ => rfl

theorem recoverCandidate_calm {db db' : AgentDb} (hq : Sound db.quota) {now : Int}
    {candidate : RecoveryCandidate} {result : Bool}
    (h : recoverCandidate db now candidate = .ok (result, db')) : Calm db db' := by
  unfold recoverCandidate at h
  split at h
  · injection h with e
    rw [← (Prod.mk.inj e).2]
    exact Calm.refl db
  · next current _ =>
      split at h
      · injection h with e
        rw [← (Prod.mk.inj e).2]
        exact Calm.refl db
      · obtain ⟨⟨s, quota⟩, h1, h2⟩ := Except.bind_ok_iff.mp h
        injection h2 with e
        obtain ⟨_, rfl⟩ := Prod.mk.inj e
        cases current.status.isActive with
        | true =>
          refine Calm.settle (settleAnswerQuota_keeps hq h1) ?_ ?_ rfl
          · exact fun _ => rfl
          · exact fun _ => rfl
        | false =>
          refine Calm.settle (settleAnswerQuota_keeps hq h1) ?_ ?_ rfl
          · exact fun _ => rfl
          · exact fun _ => rfl

theorem releaseOrphan_calm {db db' : AgentDb} (hq : Sound db.quota) {o : OrphanedReservation}
    (h : releaseOrphan db o = .ok ((), db')) : Calm db db' := by
  unfold releaseOrphan at h
  obtain ⟨⟨reservation, quota⟩, h1, h2⟩ := Except.bind_ok_iff.mp h
  simp only at h2
  split at h2
  · cases h2
  · injection h2 with e
    obtain ⟨_, rfl⟩ := Prod.mk.inj e
    exact ⟨keeps_transition hq (inQuota_ok h1), fun r hr => ⟨r, hr, rfl⟩, fun hfin => hfin⟩

omit [Collation] in
theorem requestCancellation_calm {db db' : AgentDb} {now : Int} {userId : String} {runId : Nat}
    {result : CancellationResult}
    (h : requestCancellation db now userId runId = .ok (result, db')) : Calm db db' := by
  rcases requestCancellation_ok h with ⟨rfl, _⟩ | ⟨current, _, hc⟩
  · exact Calm.refl _
  · refine ⟨by rw [hc.quota]; exact Keeps.refl _, fun r hr => ?_, fun hfin r hr hterminal => ?_⟩
    · rw [hc.runs] at hr
      have hid : ∀ r : RunRow,
          ({ r with cancelRequestedAt := some now, updatedAt := now } : RunRow).identity =
            r.identity := fun _ => rfl
      exact mem_updateWhere_stem hid hr
    rw [hc.runs] at hr
    obtain ⟨r₀, hr₀, rfl⟩ := mem_updateWhere.mp hr
    split at hterminal <;> rename_i e
    · rw [if_pos e]
      exact hfin r₀ hr₀ hterminal
    · rw [if_neg e]
      exact hfin r₀ hr₀ hterminal

omit [Collation] in
theorem calm_commit {s : System} {α : Type} {tx : Except AgentError (α × AgentDb)}
    (h : ∀ b db', tx = .ok (b, db') → Calm s.db db') : Calm s.db (s.commitDb tx).db :=
  Machine.commit_preserves (Calm.refl s.db) h

/-- **What the rest of the server does** creates no run and reserves no answer. -/
theorem calm_step [StoredFormats] {s : System} (hq : Sound s.db.quota) {op : AgentOp}
    (ho : op.isOther = true) : Calm s.db (step s op).db := by
  cases op with
  | createInitial now input => nomatch ho
  | createAction now input => nomatch ho
  | complete now input =>
    simp only [step]
    split
    · exact calm_commit fun _ _ hok => complete_calm hq hok
    · exact Calm.refl _
  | fail now input =>
    simp only [step]
    split
    · exact calm_commit fun _ _ hok => fail_calm hq hok
    · exact Calm.refl _
  | requestCancellation now userId runId =>
    exact calm_commit fun _ _ hok => requestCancellation_calm hok
  | readStale scope staleBefore => exact Calm.refl _
  | recover now candidate =>
    simp only [step]
    split
    · exact calm_commit fun _ _ hok => recoverCandidate_calm hq hok
    · exact Calm.refl _
  | readOrphans scope staleBefore => exact Calm.refl _
  | releaseOrphan o =>
    simp only [step]
    split
    · exact calm_commit fun _ _ hok => releaseOrphan_calm hq hok
    · exact Calm.refl _
  | reserveQuota now input =>
    have hne : input.resource ≠ .answer := bne_iff_ne.mp ho
    exact ⟨keeps_commit fun _ _ hok => keeps_reserve hq hne hok, fun r hr => ⟨r, hr, rfl⟩,
      fun hfin => hfin⟩
  | commitQuota input =>
    exact ⟨keeps_commit fun _ _ hok => keeps_transition hq hok, fun r hr => ⟨r, hr, rfl⟩,
      fun hfin => hfin⟩
  | releaseQuota input =>
    exact ⟨keeps_commit fun _ _ hok => keeps_transition hq hok, fun r hr => ⟨r, hr, rfl⟩,
      fun hfin => hfin⟩

end Runs

/-! ## 3. The create transactions -/

/-- What a create transaction does with its lease: a new active run holds it, or nothing changes
    and the caller is told so. -/
structure Created (db db' : AgentDb) (result : CreateRunResult) (userId : String) (leaseId : Nat) :
    Prop where
  quota : db'.quota = db.quota
  runs : (∃ handle run, result = .created handle ∧ db'.runs = db.runs ++ [run] ∧
      run.status = .running ∧ run.answerQuotaLeaseId = some leaseId ∧ run.userId = userId) ∨
    ((∀ handle, result ≠ .created handle) ∧ db'.runs = db.runs)

theorem insertInitial_created {db db' : AgentDb} {now : Int} {input : CreateInitialInput}
    {conversationId : Nat} {result : CreateRunResult}
    (h : insertInitial db now input conversationId = .ok (result, db')) :
    Created db db' result input.userId input.answerQuotaLeaseId := by
  unfold insertInitial at h
  simp only at h
  obtain ⟨db₁, h1, h⟩ := Except.bind_ok_iff.mp h
  obtain ⟨db₂, h2, h⟩ := Except.bind_ok_iff.mp h
  obtain ⟨db₃, h3, h⟩ := Except.bind_ok_iff.mp h
  obtain ⟨db₄, h4, h⟩ := Except.bind_ok_iff.mp h
  injection h with e
  obtain ⟨rfl, rfl⟩ := Prod.mk.inj e
  obtain ⟨-, eq1, -, er1, -⟩ := insertMessage_ok h1
  obtain ⟨-, eq2, -, er2, -⟩ := insertMessage_ok h2
  obtain ⟨-, eq3, -, er3, -⟩ := insertTurn_ok h3
  obtain ⟨⟨er4, eq4, -⟩, -⟩ := insertRun_ok h4
  have hruns : db₃.runs = db.runs := er3.trans (er2.trans er1)
  exact ⟨eq4.trans (eq3.trans (eq2.trans eq1)),
    Or.inl ⟨_, _, rfl, er4.trans (congrArg (· ++ _) hruns), rfl, rfl, rfl⟩⟩

theorem insertAction_created [StoredFormats] {db db' : AgentDb} {now : Int}
    {input : CreateActionInput} {turn : TurnRow} {question : MessageRow} {result : CreateRunResult}
    (h : insertAction db now input turn question = .ok (result, db')) :
    Created db db' result input.userId input.answerQuotaLeaseId := by
  unfold insertAction at h
  simp only at h
  obtain ⟨db₁, h1, h⟩ := Except.bind_ok_iff.mp h
  obtain ⟨db₂, h2, h⟩ := Except.bind_ok_iff.mp h
  injection h with e
  obtain ⟨rfl, rfl⟩ := Prod.mk.inj e
  obtain ⟨-, eq1, -, er1, -⟩ := insertMessage_ok h1
  obtain ⟨⟨er2, eq2, -⟩, -⟩ := insertRun_ok h2
  exact ⟨eq2.trans eq1,
    Or.inl ⟨_, _, rfl, er2.trans (congrArg (· ++ _) er1), rfl, rfl, rfl⟩⟩

/-- Nothing was created. -/
theorem Created.refused {db : AgentDb} {result : CreateRunResult} {userId : String}
    {leaseId : Nat} (h : result.handles = []) : Created db db result userId leaseId := by
  refine ⟨rfl, Or.inr ⟨fun handle e => ?_, rfl⟩⟩
  rw [e] at h
  nomatch h

section Creations

variable [StoredFormats]

theorem createInitial_created {db db' : AgentDb} {now : Int} {input : CreateInitialInput}
    {result : CreateRunResult} (h : createInitial db now input = .ok (result, db')) :
    Created db db' result input.userId input.answerQuotaLeaseId := by
  unfold createInitial at h
  obtain ⟨_, _, h⟩ := Except.bind_ok_iff.mp h
  split at h
  · next replay hfind =>
      injection h with e
      obtain ⟨rfl, rfl⟩ := Prod.mk.inj e
      exact Created.refused (findRunByClientRequest_handles hfind)
  · obtain ⟨⟨conversationId, db₁⟩, h1, h⟩ := Except.bind_ok_iff.mp h
    obtain ⟨eq, er, -⟩ := conversationFor_ok h1
    simp only at h
    split at h
    · injection h with e
      obtain ⟨rfl, rfl⟩ := Prod.mk.inj e
      exact ⟨eq, Or.inr ⟨fun handle e => (nomatch e), er⟩⟩
    · have hc := insertInitial_created h
      refine ⟨hc.quota.trans eq, ?_⟩
      have hruns := hc.runs
      rw [er] at hruns
      exact hruns

theorem createAction_created {db db' : AgentDb} {now : Int} {input : CreateActionInput}
    {result : CreateRunResult} (h : createAction db now input = .ok (result, db')) :
    Created db db' result input.userId input.answerQuotaLeaseId := by
  unfold createAction at h
  obtain ⟨_, _, h⟩ := Except.bind_ok_iff.mp h
  split at h
  · next replay hfind =>
      injection h with e
      obtain ⟨rfl, rfl⟩ := Prod.mk.inj e
      exact Created.refused (findRunByClientRequest_handles hfind)
  · split at h
    · cases h
    · split at h
      · injection h with e
        obtain ⟨rfl, rfl⟩ := Prod.mk.inj e
        exact Created.refused rfl
      · split at h
        · exact insertAction_created h
        · cases h

end Creations

/-! ## 4. The invariant -/

/-- The lease has a holder, or is on record as orphaned. -/
def Answering.Holds (s : Answering) (leaseId : Nat) : Prop :=
  (∃ r ∈ s.system.db.runs, r.status.isActive = true ∧ r.answerQuotaLeaseId = some leaseId) ∨
    (∃ request ∈ s.requests, request.leaseId = leaseId) ∨ leaseId ∈ s.orphaned

/-- **The invariant of the answers**: leases have one owner, and every reserved answer is held. -/
structure Holders (s : Answering) : Prop where
  inv : Inv s.system
  finished : Finished s.system.db
  owner : ∀ r ∈ s.system.db.runs, ∀ q ∈ s.system.db.quota.ledger,
    r.answerQuotaLeaseId = some q.leaseId → q.resource = .answer ∧ q.actorUserId = r.userId
  leaseOld : ∀ r ∈ s.system.db.runs, ∀ leaseId, r.answerQuotaLeaseId = some leaseId →
    leaseId < s.system.db.quota.nextId
  request : ∀ request ∈ s.requests, request.leaseId < s.system.db.quota.nextId ∧
    ∀ q ∈ s.system.db.quota.ledger, q.leaseId = request.leaseId →
      q.resource = .answer ∧ q.actorUserId = request.userId
  held : ∀ q ∈ s.system.db.quota.ledger, q.resource = .answer → q.status = .reserved →
    s.Holds q.leaseId

theorem holders_start (users : List UserRow) (conversations : List ConversationRow) :
    Holders (Answering.start users conversations) where
  inv := inv_initial users conversations
  finished _ h := absurd h List.not_mem_nil
  owner _ h := absurd h List.not_mem_nil
  leaseOld _ h := absurd h List.not_mem_nil
  request _ h := absurd h List.not_mem_nil
  held _ h := absurd h List.not_mem_nil

/-- A run that refers to a reserved lease is active: a terminal one has settled it. -/
theorem Holders.active {s : Answering} (h : Holders s) {r : RunRow} (hr : r ∈ s.system.db.runs)
    {q : LedgerRow} (hq : q ∈ s.system.db.quota.ledger) (hs : q.status = .reserved)
    (hlease : r.answerQuotaLeaseId = some q.leaseId) : r.status.isActive = true := by
  by_contra hno
  rw [Bool.not_eq_true] at hno
  have hsettled := h.inv.tables.settled r hr hno q.leaseId hlease (h.finished r hr hno)
  have hstatus := hsettled.2 q hq rfl
  rw [hs] at hstatus
  exact r.status.leaseStatus_ne_reserved hstatus.symm

/-- **The step rule**: what a step that reserves no answer and creates no run has to show. -/
theorem Holders.keep {s s' : Answering} (h : Holders s) (hinv : Inv s'.system)
    (hfin : Finished s'.system.db) (hk : Keeps s.system.db.quota s'.system.db.quota)
    (hruns : ∀ r' ∈ s'.system.db.runs, ∃ r ∈ s.system.db.runs,
      r'.answerQuotaLeaseId = r.answerQuotaLeaseId ∧ r'.userId = r.userId)
    (hrequests : ∀ c' ∈ s'.requests, ∃ c ∈ s.requests,
      c'.leaseId = c.leaseId ∧ c'.userId = c.userId)
    (hheld : ∀ q' ∈ s'.system.db.quota.ledger, q'.resource = .answer → q'.status = .reserved →
      s.Holds q'.leaseId → s'.Holds q'.leaseId) : Holders s' where
  inv := hinv
  finished := hfin
  owner r' hr' q' hq' hlease := by
    obtain ⟨r, hr, e1, e2⟩ := hruns r' hr'
    rw [e1] at hlease
    rcases hk.row q' hq' with ⟨q, hq, e3, e4, e5, -⟩ | ⟨hnew, -⟩
    · rw [e3] at hlease
      rw [e4, e5, e2]
      exact h.owner r hr q hq hlease
    · have hold := h.leaseOld r hr q'.leaseId hlease
      omega
  leaseOld r' hr' leaseId hlease := by
    obtain ⟨r, hr, e1, -⟩ := hruns r' hr'
    rw [e1] at hlease
    exact Nat.lt_of_lt_of_le (h.leaseOld r hr leaseId hlease) hk.nextId
  request c' hc' := by
    obtain ⟨c, hc, e1, e2⟩ := hrequests c' hc'
    obtain ⟨hold, hrows⟩ := h.request c hc
    refine ⟨?_, fun q' hq' hlease => ?_⟩
    · rw [e1]
      exact Nat.lt_of_lt_of_le hold hk.nextId
    · rcases hk.row q' hq' with ⟨q, hq, e3, e4, e5, -⟩ | ⟨hnew, -⟩
      · rw [e4, e5, e2]
        exact hrows q hq (by rw [← e3, hlease, e1])
      · omega
  held q' hq' hres hs := by
    refine hheld q' hq' hres hs ?_
    rcases hk.row q' hq' with ⟨q, hq, e3, e4, -, e6⟩ | ⟨-, hother⟩
    · rw [e3]
      exact h.held q hq (e4 ▸ hres) (e6 hs)
    · exact absurd hres hother

/-- A step on the quota tables alone, with the requests it leaves. -/
theorem Holders.quota {s : Answering} (h : Holders s) {quota : QuotaDb}
    (hinv : Inv (s.withQuota quota).system) (hk : Keeps s.system.db.quota quota) :
    Holders (s.withQuota quota) :=
  h.keep hinv h.finished hk (fun r hr => ⟨r, hr, rfl, rfl⟩) (fun c hc => ⟨c, hc, rfl, rfl⟩)
    fun _ _ _ _ hold => hold

theorem Holders.enter {s : Answering} (h : Holders s) (leaseId : Nat) (phase : RequestPhase) :
    Holders (s.enter leaseId phase) := by
  have hstem : ∀ c' ∈ (s.enter leaseId phase).requests, ∃ c ∈ s.requests,
      c'.leaseId = c.leaseId ∧ c'.userId = c.userId := by
    intro c' hc'
    obtain ⟨c, hc, rfl⟩ := mem_updateWhere.mp hc'
    refine ⟨c, hc, ?_⟩
    split
    · exact ⟨rfl, rfl⟩
    · exact ⟨rfl, rfl⟩
  refine h.keep h.inv h.finished (Keeps.refl _) (fun r hr => ⟨r, hr, rfl, rfl⟩) hstem ?_
  intro q _ _ _ hold
  rcases hold with hrun | ⟨c, hc, e⟩ | hgone
  · exact Or.inl hrun
  · refine Or.inr (Or.inl ⟨_, mem_updateWhere_of_mem hc, ?_⟩)
    split
    · exact e
    · exact e
  · exact Or.inr (Or.inr hgone)

/-- A request may return when its lease is settled, held by a run, or put on record. -/
theorem Holders.close {s : Answering} (h : Holders s) {leaseId : Nat} {gone : List Nat}
    (hfree : ∀ q ∈ s.system.db.quota.ledger, q.leaseId = leaseId → q.status = .reserved →
      leaseId ∈ gone) : Holders ((s.close leaseId).orphan gone) := by
  refine h.keep h.inv h.finished (Keeps.refl _) (fun r hr => ⟨r, hr, rfl, rfl⟩)
    (fun c hc => ⟨c, (mem_deleteWhere.mp hc).1, rfl, rfl⟩) ?_
  intro q hq _ hs hold
  rcases hold with hrun | ⟨c, hc, e⟩ | hgone
  · exact Or.inl hrun
  · by_cases hlease : q.leaseId = leaseId
    · refine Or.inr (Or.inr (List.mem_append_right _ ?_))
      rw [hlease]
      exact hfree q hq hlease hs
    · refine Or.inr (Or.inl ⟨c, mem_deleteWhere.mpr ⟨hc, ?_⟩, e⟩)
      rw [e]
      exact beq_false_of_ne hlease
  · exact Or.inr (Or.inr (List.mem_append_left _ hgone))

theorem Answering.orphan_nil (s : Answering) : s.orphan [] = s := by
  unfold Answering.orphan
  rw [List.append_nil]

/-! ## 5. The steps -/

theorem aggregateStatus_reserved {rows : List LedgerRow} (hne : rows ≠ [])
    (h : ∀ r ∈ rows, r.status = .reserved) : aggregateStatus rows = .reserved := by
  obtain ⟨r, hr⟩ := List.exists_mem_of_ne_nil rows hne
  have hnot : ∀ s : QuotaReservationStatus, s ≠ .reserved →
      ¬ (rows.all fun row => row.status == s) = true := by
    intro s hs hall
    have hr' := beq_iff_eq.mp (List.all_eq_true.mp hall r hr)
    rw [h r hr] at hr'
    exact hs hr'.symm
  unfold aggregateStatus
  rw [if_neg (hnot .committed (by decide)), if_neg (hnot .released (by decide))]

/-- **A create transaction** hands its lease to the run, or keeps it in the request. -/
theorem Holders.settleCreate {s : Answering} (h : Holders s) {request : CreateRequest}
    (hrequest : request ∈ s.requests) {tx : Except AgentError (CreateRunResult × AgentDb)}
    (hinv : Inv (s.system.commitCreate tx))
    (hok : ∀ result db', tx = .ok (result, db') →
      Created s.system.db db' result request.userId request.leaseId) :
    Holders (s.settleCreate request.leaseId tx) := by
  have hrefused : ∀ s' : Answering, s'.system = s.system.commitCreate tx →
      s'.requests = s.requests → s'.orphaned = s.orphaned →
      s'.system.db.quota = s.system.db.quota → s'.system.db.runs = s.system.db.runs →
      Holders s' := by
    intro s' hs' hr' ho' hq' hruns'
    refine h.keep (hs' ▸ hinv) ?_ (by rw [hq']; exact Keeps.refl _) ?_ ?_ ?_
    · intro r hr
      exact h.finished r (hruns' ▸ hr)
    · intro r hr
      exact ⟨r, hruns' ▸ hr, rfl, rfl⟩
    · intro c hc
      exact ⟨c, hr' ▸ hc, rfl, rfl⟩
    · intro q _ _ _ hold
      unfold Answering.Holds at hold ⊢
      rw [hr', ho', hruns']
      exact hold
  cases tx with
  | error e => exact Holders.enter (hrefused { s with system := s.system } rfl rfl rfl rfl rfl) _ _
  | ok answer =>
    obtain ⟨result, db'⟩ := answer
    have hc := hok result db' rfl
    rcases hc.runs with ⟨handle, run, rfl, hruns, hrun, hlease, huser⟩ | ⟨hnone, hruns⟩
    · -- the new run holds the lease, and the request returns
      have hrow : run ∈ db'.runs := by
        rw [hruns]
        exact List.mem_append_right _ List.mem_cons_self
      have hnew : Holders
          { s with system := s.system.commitCreate (.ok (.created handle, db')) } := by
        constructor
        · exact hinv
        · intro r hr hterminal
          rcases List.mem_append.mp (hruns ▸ hr) with hr | hr
          · exact h.finished r hr hterminal
          · rw [List.mem_singleton.mp hr, hrun] at hterminal
            nomatch hterminal
        · intro r hr q hq hl
          have hq' : q ∈ s.system.db.quota.ledger := hc.quota ▸ hq
          rcases List.mem_append.mp (hruns ▸ hr) with hr | hr
          · exact h.owner r hr q hq' hl
          · rw [List.mem_singleton.mp hr, hlease, Option.some.injEq] at hl
            rw [List.mem_singleton.mp hr, huser]
            exact (h.request request hrequest).2 q hq' hl.symm
        · intro r hr leaseId hl
          show leaseId < db'.quota.nextId
          rw [hc.quota]
          rcases List.mem_append.mp (hruns ▸ hr) with hr | hr
          · exact h.leaseOld r hr leaseId hl
          · rw [List.mem_singleton.mp hr, hlease, Option.some.injEq] at hl
            rw [← hl]
            exact (h.request request hrequest).1
        · intro c hcr
          show c.leaseId < db'.quota.nextId ∧ ∀ q ∈ db'.quota.ledger, _
          rw [hc.quota]
          exact h.request c hcr
        · intro q hq hresource hs
          have hq' : q ∈ s.system.db.quota.ledger := hc.quota ▸ hq
          rcases h.held q hq' hresource hs with ⟨r, hr, ha, hl⟩ | hreq | hgone
          · refine Or.inl ⟨r, ?_, ha, hl⟩
            show r ∈ db'.runs
            rw [hruns]
            exact List.mem_append_left _ hr
          · exact Or.inr (Or.inl hreq)
          · exact Or.inr (Or.inr hgone)
      refine hnew.keep hinv hnew.finished (Keeps.refl _) (fun r hr => ⟨r, hr, rfl, rfl⟩)
        (fun c hc => ⟨c, (mem_deleteWhere.mp hc).1, rfl, rfl⟩) ?_
      intro q _ _ _ hold
      rcases hold with hr | ⟨c, hcr, e⟩ | hgone
      · exact Or.inl hr
      · by_cases hid : q.leaseId = request.leaseId
        · refine Or.inl ⟨run, hrow, ?_, ?_⟩
          · rw [hrun]
            rfl
          · rw [hlease, hid]
        · refine Or.inr (Or.inl ⟨c, mem_deleteWhere.mpr ⟨hcr, ?_⟩, e⟩)
          rw [e]
          exact beq_false_of_ne hid
      · exact Or.inr (Or.inr hgone)
    · have hkept : Holders { s with system := s.system.commitCreate (.ok (result, db')) } :=
        hrefused _ rfl rfl rfl hc.quota hruns
      cases result with
      | created handle => exact absurd rfl (hnone handle)
      | busy runId => exact hkept.enter _ _
      | replay replay => exact hkept.enter _ _
      | requestUsed => exact hkept.enter _ _

/-- The soft delete changes nothing the invariant reads. -/
theorem Holders.deleteConversation {s : Answering} (h : Holders s) (now : Int) (userId : String)
    (conversationId : Nat) :
    Holders { s with
      system :=
        { s.system with db := deleteConversation s.system.db now userId conversationId } } := by
  refine h.keep ⟨?_, fun c hc => h.inv.handles c hc⟩ h.finished (Keeps.refl _)
    (fun r hr => ⟨r, hr, rfl, rfl⟩) (fun c hc => ⟨c, hc, rfl, rfl⟩) fun _ _ _ _ hold => hold
  exact ⟨h.inv.tables.quota, h.inv.tables.turnIds, h.inv.tables.turnOld, h.inv.tables.runIds,
    h.inv.tables.runOld, h.inv.tables.runTurn, h.inv.tables.lease, h.inv.tables.single,
    h.inv.tables.settled⟩

/-- What is left of the run tables is a part of them, and runs keep their turns. -/
theorem lifecycle_clear {db : AgentDb} (h : Lifecycle db) (userId : String) :
    Lifecycle (clearConversations db userId) where
  quota := h.quota
  turnIds := h.turnIds.deleteWhere _
  turnOld t ht := h.turnOld t (mem_deleteWhere.mp ht).1
  runIds := h.runIds.deleteWhere _
  runOld r hr := h.runOld r (mem_deleteWhere.mp hr).1
  runTurn r hr := by
    obtain ⟨hr, hkept⟩ := mem_deleteWhere.mp hr
    obtain ⟨t, ht, e⟩ := h.runTurn r hr
    refine ⟨t, mem_deleteWhere.mpr ⟨ht, ?_⟩, e⟩
    by_contra hgone
    rw [Bool.not_eq_false] at hgone
    have hany : (db.turns.any fun t => t.id == r.turnId && db.clearsTurnRow userId t) = true :=
      List.any_eq_true.mpr ⟨t, ht, by rw [e, hgone]; simp⟩
    unfold AgentDb.clearsRun at hkept
    rw [hany] at hkept
    nomatch hkept
  lease r hr := h.lease r (mem_deleteWhere.mp hr).1
  single r hr r' hr' ha ha' conversationId hc hc' := by
    obtain ⟨t, ht, e⟩ := hc
    obtain ⟨t', ht', e'⟩ := hc'
    exact h.single r (mem_deleteWhere.mp hr).1 r' (mem_deleteWhere.mp hr').1 ha ha' conversationId
      ⟨t, (mem_deleteWhere.mp ht).1, e⟩ ⟨t', (mem_deleteWhere.mp ht').1, e'⟩
  settled r hr := h.settled r (mem_deleteWhere.mp hr).1

/-- **Clearing** puts the leases of the runs it deletes on record. -/
theorem Holders.clearConversationData {s : Answering} (h : Holders s) (userId : String) :
    Holders ({ s with
      system := { s.system with db := clearConversations s.system.db userId } }.orphan
        (clearedLeases s.system.db userId)) := by
  refine h.keep ⟨lifecycle_clear h.inv.tables userId, fun c hc => ?_⟩ ?_ (Keeps.refl _) ?_
    (fun c hc => ⟨c, hc, rfl, rfl⟩) ?_
  · obtain ⟨hold, hrows⟩ := h.inv.handles c hc
    exact ⟨hold, fun r hr => hrows r (mem_deleteWhere.mp hr).1⟩
  · intro r hr
    exact h.finished r (mem_deleteWhere.mp hr).1
  · intro r hr
    exact ⟨r, (mem_deleteWhere.mp hr).1, rfl, rfl⟩
  · intro q _ _ _ hold
    rcases hold with ⟨r, hr, ha, hl⟩ | hreq | hgone
    · cases hclear : s.system.db.clearsRun userId r with
      | false => exact Or.inl ⟨r, mem_deleteWhere.mpr ⟨hr, hclear⟩, ha, hl⟩
      | true =>
        refine Or.inr (Or.inr (List.mem_append_right _ ?_))
        exact List.mem_filterMap.mpr ⟨r, List.mem_filter.mpr ⟨hr, hclear⟩, hl⟩
    · exact Or.inr (Or.inl hreq)
    · exact Or.inr (Or.inr (List.mem_append_left _ hgone))

section Steps

variable [Collation] [StoredFormats]

/-- A reservation as a step of the run machine. -/
theorem inv_reserve {s : Answering} (h : Inv s.system) {now : Int}
    {input : ReserveInput} {res : QuotaReservation} {quota : QuotaDb}
    (hok : reserve s.system.db.quota now input = .ok (res, quota)) :
    Inv (s.withQuota quota).system := by
  have hstep := inv_step s.system (.reserveQuota now input) h
  simp only [Agent.step, System.commitQuota, Quota.step, hok, Machine.commit] at hstep
  exact hstep

theorem inv_release {s : Answering} (h : Inv s.system) {input : TransitionInput}
    {res : QuotaReservation} {quota : QuotaDb}
    (hok : transitionQuotaReservation s.system.db.quota input .released = .ok (res, quota)) :
    Inv (s.withQuota quota).system := by
  have hstep := inv_step s.system (.releaseQuota input) h
  simp only [Agent.step, System.commitQuota, Quota.step, hok, Machine.commit] at hstep
  exact hstep

/-- **Reserving an answer** gives the new lease to the request. -/
theorem Holders.reserveAnswer {s : Answering} (h : Holders s) (now : Int)
    (input : ReserveInput) : Holders (s.reserveAnswer now input) := by
  have hsound := h.inv.tables.quota
  unfold Answering.reserveAnswer
  split
  · exact h
  · next answer quota hok =>
    have hinv := inv_reserve h.inv hok
    rcases reserve_ok hsound.accounts hok with ⟨rfl, hidem⟩ | ⟨rows, hne, hres, hread⟩
    · simp only [hidem, Bool.true_or, if_true]
      exact h.quota hinv (Keeps.refl _)
    · obtain ⟨hidem, hstatus, first, hfirst, hlease⟩ := reservationFromRows_ok hread
      rw [aggregateStatus_reserved hne fun r hr => (hres.rows r hr).2.2.1] at hstatus
      have hid : answer.leaseId = s.system.db.quota.nextId :=
        hlease.trans (hres.rows first hfirst).2.1
      have hnext : s.system.db.quota.nextId < quota.nextId := hres.nextId
      have hledger : quota.ledger = s.system.db.quota.ledger ++ rows := hres.ledger
      simp only [hidem, hstatus, Bool.false_or, decide_false, ne_eq, not_true_eq_false,
        Bool.false_eq_true, if_false, hid]
      constructor
      · exact hinv
      · exact h.finished
      · intro r hr q hq hl
        rcases List.mem_append.mp (hledger ▸ hq) with hq | hq
        · exact h.owner r hr q hq hl
        · have hold := h.leaseOld r hr q.leaseId hl
          have hnew := (hres.rows q hq).2.1
          omega
      · intro r hr leaseId hl
        exact (h.leaseOld r hr leaseId hl).trans hnext
      · intro c hc
        rcases List.mem_append.mp hc with hc | hc
        · obtain ⟨hold, hrows⟩ := h.request c hc
          refine ⟨hold.trans hnext, fun q hq hl => ?_⟩
          rcases List.mem_append.mp (hledger ▸ hq) with hq | hq
          · exact hrows q hq hl
          · have hnew := (hres.rows q hq).2.1
            omega
        · rw [List.mem_singleton.mp hc]
          refine ⟨hnext, fun q hq hl => ?_⟩
          rcases List.mem_append.mp (hledger ▸ hq) with hq | hq
          · have hold := hsound.leaseOld q hq
            simp only at hl
            omega
          · obtain ⟨-, -, -, hactor, hresource, -⟩ := hres.rows q hq
            exact ⟨hresource, hactor⟩
      · intro q hq hresource hs
        rcases List.mem_append.mp (hledger ▸ hq) with hq | hq
        · rcases h.held q hq hresource hs with hrun | ⟨c, hc, e⟩ | hgone
          · exact Or.inl hrun
          · exact Or.inr (Or.inl ⟨c, List.mem_append_left _ hc, e⟩)
          · exact Or.inr (Or.inr hgone)
        · refine Or.inr (Or.inl ⟨_, List.mem_append_right _ List.mem_cons_self, ?_⟩)
          exact (hres.rows q hq).2.1.symm

theorem Holders.reserveModelAttempt {s : Answering} (h : Holders s) (now : Int)
    (input : ReserveInput) (leaseId : Nat) : Holders (s.reserveModelAttempt now input leaseId) := by
  unfold Answering.reserveModelAttempt
  split
  · exact h
  · split
    · exact h.enter leaseId .releasing
    · next modelAttempt quota hok =>
      have hq := h.quota (inv_reserve h.inv hok)
        (keeps_reserve h.inv.tables.quota (by simp) hok)
      split
      · exact hq.enter leaseId .releasing
      · exact hq.enter leaseId .reserved

theorem Holders.releaseReservation {s : Answering} (h : Holders s) (leaseId : Nat)
    (reason : String) : Holders (s.releaseReservation leaseId reason) := by
  unfold Answering.releaseReservation
  split
  · exact h
  · split
    · next res quota hok =>
      have hsettled := (transition_settles_lease h.inv.tables.quota hok).2
      have hq := h.quota (inv_release h.inv hok) (keeps_transition h.inv.tables.quota hok)
      have hclosed : Holders (((s.withQuota quota).close leaseId).orphan []) :=
        hq.close fun q hq e hs => absurd hs (hsettled q hq e)
      rw [Answering.orphan_nil] at hclosed
      exact hclosed
    · exact h.close fun _ _ _ _ => List.mem_cons_self

/-- **The rest of the server** keeps an active run's lease held, or settles it. -/
theorem Holders.other {s : Answering} (h : Holders s) {op : AgentOp} (ho : op.isOther = true) :
    Holders { s with system := Agent.step s.system op } := by
  have hcalm := calm_step h.inv.tables.quota ho
  have heff := effect_step h.inv.tables.quota h.inv.handles op
  have hinv := inv_step s.system op h.inv
  have hfin := hcalm.finished h.finished
  refine h.keep hinv hfin hcalm.quota (fun r' hr' => ?_) (fun c hc => ⟨c, hc, rfl, rfl⟩) ?_
  · obtain ⟨r, hr, e⟩ := hcalm.runs r' hr'
    exact ⟨r, hr, congrArg (fun k => k.2.2.2.2.2.2) e, congrArg (fun k => k.2.2.1) e⟩
  · intro q hq _ hs hold
    rcases hold with ⟨r, hr, ha, hl⟩ | hreq | hgone
    · obtain ⟨r', hr', hf⟩ := runs_kept h.inv.tables.runIds heff r hr
      have hl' : r'.answerQuotaLeaseId = some q.leaseId := hf.lease_eq.trans hl
      cases ha' : r'.status.isActive with
      | true => exact Or.inl ⟨r', hr', ha', hl'⟩
      | false =>
        -- it was settled, and its lease with it
        have hsettled := hinv.tables.settled r' hr' ha' q.leaseId hl' (hfin r' hr' ha')
        have hstatus := hsettled.2 q hq rfl
        rw [hs] at hstatus
        exact absurd hstatus.symm r'.status.leaseStatus_ne_reserved
    · exact Or.inr (Or.inl hreq)
    · exact Or.inr (Or.inr hgone)

/-- **Every step keeps the invariant.** -/
theorem holders_step (s : Answering) (op : AnswerOp) (h : Holders s) : Holders (s.step op) := by
  cases op with
  | reserveAnswer now input => exact h.reserveAnswer now input
  | reserveModelAttempt now input leaseId => exact h.reserveModelAttempt now input leaseId
  | createInitial now input =>
    unfold Answering.step
    simp only
    split
    · exact h
    · next request hfind =>
      split
      · next hown =>
        rw [Bool.and_eq_true, beq_iff_eq, beq_iff_eq] at hown
        have hphase := List.find?_some hfind
        rw [Bool.and_eq_true, beq_iff_eq] at hphase
        rw [← hphase.1]
        refine h.settleCreate (List.mem_of_find?_eq_some hfind)
          (inv_step s.system (.createInitial now input) h.inv) fun result db' hok => ?_
        rw [hphase.1, hown.1]
        exact createInitial_created hok
      · exact h
  | createAction now input =>
    unfold Answering.step
    simp only
    split
    · exact h
    · next request hfind =>
      split
      · next hown =>
        rw [Bool.and_eq_true, beq_iff_eq, beq_iff_eq] at hown
        have hphase := List.find?_some hfind
        rw [Bool.and_eq_true, beq_iff_eq] at hphase
        rw [← hphase.1]
        refine h.settleCreate (List.mem_of_find?_eq_some hfind)
          (inv_step s.system (.createAction now input) h.inv) fun result db' hok => ?_
        rw [hphase.1, hown.1]
        exact createAction_created hok
      · exact h
  | releaseReservation leaseId reason => exact h.releaseReservation leaseId reason
  | lose leaseId =>
    unfold Answering.step
    simp only
    split
    · exact h.close fun _ _ _ _ => List.mem_cons_self
    · exact h
  | deleteConversation now userId conversationId =>
    exact h.deleteConversation now userId conversationId
  | clearConversationData userId => exact h.clearConversationData userId
  | other op =>
    unfold Answering.step
    simp only
    split
    · next ho => exact h.other ho
    · exact h

theorem holders_run (users : List UserRow) (conversations : List ConversationRow)
    (ops : List AnswerOp) :
    Holders (Machine.run Answering.step (Answering.start users conversations) ops) :=
  Machine.run_invariant (holders_start users conversations) holders_step ops

/-- **Runs hold leases of their own**: answers of their user; what ended has settled its lease. -/
theorem leases_owned (users : List UserRow) (conversations : List ConversationRow)
    (ops : List AnswerOp) :
    let s := Machine.run Answering.step (Answering.start users conversations) ops
    let quota := s.system.db.quota
    (∀ r ∈ s.system.db.runs, ∀ q ∈ quota.ledger, r.answerQuotaLeaseId = some q.leaseId →
      q.resource = .answer ∧ q.actorUserId = r.userId) ∧
    ∀ r ∈ s.system.db.runs, r.status.isActive = false → r.settlementStatus = .completed ∧
      ∃ leaseId, r.answerQuotaLeaseId = some leaseId ∧
        LeaseIs quota leaseId r.status.leaseStatus := by
  intro s quota
  have h : Holders s := holders_run users conversations ops
  refine ⟨h.owner, fun r hr hended => ?_⟩
  have hsettled := h.finished r hr hended
  obtain ⟨leaseId, hlease⟩ := Option.isSome_iff_exists.mp (h.inv.tables.lease r hr)
  exact ⟨hsettled, leaseId, hlease, h.inv.tables.settled r hr hended leaseId hlease hsettled⟩

end Steps

end OpenVac.Agent
