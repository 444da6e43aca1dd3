/-
  File:      OpenVac/Agent/LeaseRecovery.lean
  Subject:   Every reserved answer can still be given back, by the run that holds it or as an
             orphan (server/agent/retention.ts).

  * `recover_reaches` -- the recovery of a stale run settles the lease the run holds.
  * `orphans_reach` -- passes over the orphaned reservations get to every lease no run refers to;
    the measure is the number of orphans, which every release makes smaller.
  * `answer_leases_reachable` -- the result over every run of the machine;
    `cleared_run_leaves_orphan` -- clearing the conversation of a running answer leaves its lease
    with neither a run nor a request.
-/
import Mathlib.Data.List.Dedup
import Mathlib.Data.List.Perm.Subperm
import OpenVac.Agent.LeaseHolders

namespace OpenVac.Agent

open Rows Quota

/-- A part of `recoverStaleAgentRuns`, with its instant `staleBefore`. -/
def AgentOp.isRecovery (staleBefore : Int) : AgentOp → Bool
  | .readStale _ instant => instant == staleBefore
  | .readOrphans _ instant => instant == staleBefore
  | .recover _ _ => true
  | .releaseOrphan _ => true
  | _ => false

/-! ## 1. A stale run -/

/-- A list where only one element counts has one result at most. -/
theorem length_filterMap_le_one {α β : Type} {l : List α} (hn : l.Nodup) {f : α → Option β}
    {x : α} (h : ∀ y ∈ l, (f y).isSome = true → y = x) : (l.filterMap f).length ≤ 1 := by
  rw [List.length_filterMap_eq_countP, List.countP_eq_length_filter]
  refine length_le_one (hn.sublist List.filter_sublist) fun y hy z hz => ?_
  obtain ⟨hy, hsy⟩ := List.mem_filter.mp hy
  obtain ⟨hz, hsz⟩ := List.mem_filter.mp hz
  rw [h y hy hsy, h z hz hsz]

/-- **An active run is read** by the recovery of its conversation, once it is stale. -/
theorem mem_staleCandidates {db : AgentDb} (h : Lifecycle db) (hfin : Finished db) {r : RunRow}
    (hr : r ∈ db.runs) (ha : r.status.isActive = true) {staleBefore : Int}
    (hstale : r.updatedAt ≤ staleBefore) :
    ∃ scope, ∃ candidate ∈ staleCandidates db scope staleBefore,
      candidate.runId = r.id ∧ candidate.staleBefore = staleBefore := by
  obtain ⟨t, ht, hid⟩ := h.runTurn r hr
  have hturn : ∀ r' ∈ db.runs, ∀ t', db.turnOf r' = some t' → InConversation db r' t'.conversationId :=
    fun r' _ t' e => by
      have hid := List.find?_some e
      exact ⟨t', List.mem_of_find?_eq_some e, beq_iff_eq.mp hid, rfl⟩
  obtain ⟨t₀, hfind⟩ : ∃ t₀, db.turnOf r = some t₀ := by
    refine Option.isSome_iff_exists.mp (List.find?_isSome.mpr ⟨t, ht, ?_⟩)
    rw [hid]
    simp
  let scope : RecoveryScope := ⟨none, some t₀.conversationId⟩
  let candidate : RecoveryCandidate :=
    { runId := r.id, assistantMessageId := r.assistantMessageId
      conversationId := t₀.conversationId, turnId := t₀.id, version := r.version, staleBefore }
  refine ⟨scope, candidate, ?_, rfl, rfl⟩
  unfold staleCandidates
  simp only
  have hread : ∀ y, y ∈ (db.runs.filter fun r => (r.wasInterrupted staleBefore ||
      r.needsTerminalSettlement) && scope.allowsUser r.userId) →
      y ∈ db.runs ∧ y.status.isActive = true := by
    intro y hy
    obtain ⟨hy, hguard⟩ := List.mem_filter.mp hy
    rw [Bool.and_eq_true, Bool.or_eq_true] at hguard
    refine ⟨hy, ?_⟩
    rcases hguard.1 with hint | hterm
    · unfold RunRow.wasInterrupted at hint
      rw [Bool.and_eq_true] at hint
      exact hint.1
    · -- a terminal run was settled, so there is none to settle again
      unfold RunRow.needsTerminalSettlement at hterm
      rw [Bool.and_eq_true, Bool.not_eq_true', beq_iff_eq] at hterm
      rw [hfin y hy hterm.1] at hterm
      nomatch hterm.2
  rw [List.take_of_length_le]
  · refine List.mem_filterMap.mpr ⟨r, (List.mem_insertionSort _).mpr (List.mem_filter.mpr ⟨hr, ?_⟩), ?_⟩
    · unfold RunRow.wasInterrupted
      rw [ha, decide_eq_true hstale]
      rfl
    · rw [hfind]
      show (if scope.allowsConversation t₀.conversationId = true then some candidate else none) = _
      rw [if_pos (show scope.allowsConversation t₀.conversationId = true from beq_self_eq_true _)]
  · refine le_trans (length_filterMap_le_one (x := r) ?_ ?_) (by decide)
    · exact ((List.perm_insertionSort _ _).nodup_iff).mpr (h.runIds.nodup.filter _)
    · intro y hy hsome
      obtain ⟨hmem, hact⟩ := hread y ((List.mem_insertionSort _).mp hy)
      cases hy' : db.turnOf y with
      | none =>
        rw [hy'] at hsome
        nomatch hsome
      | some t' =>
        rw [hy'] at hsome
        have hconv : t'.conversationId = t₀.conversationId := by
          by_contra hne
          have hno : scope.allowsConversation t'.conversationId = false :=
            beq_false_of_ne fun e => hne e.symm
          simp [hno] at hsome
        exact h.single y hmem r hr hact ha _ (hturn y hmem t' hy') (hconv ▸ hturn r hr t₀ hfind)

section Recovery

variable [Collation]

/-- A transition of the whole lease by its owner. -/
theorem release_lease {quota : QuotaDb} (h : Sound quota) {q : LedgerRow} (hq : q ∈ quota.ledger)
    (hs : q.status = .reserved) (reason : Option String) :
    ∃ res quota', transitionQuotaReservation quota
        { leaseId := q.leaseId, actorUserId := some q.actorUserId, reason } .released =
          .ok (res, quota') ∧
      res.resource = q.resource ∧ res.status = .released ∧ LeaseIs quota' q.leaseId .released := by
  have hsel : TransitionInput.selects
      { leaseId := q.leaseId, actorUserId := some q.actorUserId, reason } q = true := by
    unfold TransitionInput.selects
    simp
  obtain ⟨res, quota', hok, hresource, hstatus⟩ := transition_succeeds h .released hq hsel hs
  exact ⟨res, quota', hok, hresource, hstatus, leaseIs_transition h hok (by decide) hstatus⟩

/-- **The recovery of a stale run** releases the answer it holds. -/
theorem recoverCandidate_releases {db : AgentDb} (h : Lifecycle db) {r : RunRow}
    (hr : r ∈ db.runs) (ha : r.status.isActive = true) {q : LedgerRow} (hq : q ∈ db.quota.ledger)
    (hs : q.status = .reserved) (hlease : r.answerQuotaLeaseId = some q.leaseId)
    (hresource : q.resource = .answer) (hactor : q.actorUserId = r.userId)
    {candidate : RecoveryCandidate} (hid : candidate.runId = r.id)
    (hstale : r.updatedAt ≤ candidate.staleBefore) (now : Int) :
    ∃ db', recoverCandidate db now candidate = .ok (true, db') ∧
      LeaseIs db'.quota q.leaseId .released := by
  obtain ⟨res, quota', hok, hres, hstatus, his⟩ := release_lease h.quota hq hs
    (some (recoveryReason r))
  have hexpected : r.recoveredStatus.expected = .released := by
    unfold RunRow.recoveredStatus
    cases hrs : r.status <;> rw [hrs] at ha <;> first | rfl | nomatch ha
  have hsettle : settleAnswerQuotaInTransaction db.quota r.answerQuotaLeaseId r.userId
      r.recoveredStatus (recoveryReason r) = .ok (some .released, quota') := by
    rw [hlease, ← hactor]
    unfold settleAnswerQuotaInTransaction
    simp only [hexpected, reduceCtorEq, if_false]
    refine Except.bind_ok_iff.mpr ⟨(res, quota'), ?_, ?_⟩
    · rw [hok]
      rfl
    · simp only
      rw [if_neg (by rw [hres, hresource, hstatus]; simp)]
      rfl
  have hfind : db.runs.find? (fun x => x.id == candidate.runId) = some r := by
    cases hf : db.runs.find? fun x => x.id == candidate.runId with
    | none =>
      have hno := List.find?_eq_none.mp hf r hr
      rw [hid] at hno
      simp at hno
    | some r' =>
      have he := List.find?_some hf
      rw [h.runIds.eq (List.mem_of_find?_eq_some hf) hr ((beq_iff_eq.mp he).trans hid)]
  have hguard : (!r.wasInterrupted candidate.staleBefore && !r.needsTerminalSettlement) = false := by
    unfold RunRow.wasInterrupted
    rw [ha, decide_eq_true hstale]
    rfl
  unfold recoverCandidate
  rw [hfind]
  simp only [hguard, Bool.false_eq_true, if_false]
  refine ⟨_, Except.bind_ok_iff.mpr ⟨_, hsettle, rfl⟩, ?_⟩
  cases r.status.isActive with
  | true => exact his
  | false => exact his

variable [StoredFormats]

theorem recover_reaches {s : System} (h : Inv s) (hfin : Finished s.db) {r : RunRow}
    (hr : r ∈ s.db.runs) (ha : r.status.isActive = true) {q : LedgerRow}
    (hq : q ∈ s.db.quota.ledger) (hs : q.status = .reserved)
    (hlease : r.answerQuotaLeaseId = some q.leaseId) (hresource : q.resource = .answer)
    (hactor : q.actorUserId = r.userId) {staleBefore : Int} (hstale : r.updatedAt ≤ staleBefore) :
    ∃ ops, (∀ op ∈ ops, op.isRecovery staleBefore = true) ∧
      LeaseIs (Machine.run step s ops).db.quota q.leaseId .released := by
  obtain ⟨scope, candidate, hmem, hid, hinstant⟩ := mem_staleCandidates h.tables hfin hr ha hstale
  obtain ⟨db', hok, his⟩ := recoverCandidate_releases h.tables hr ha hq hs hlease hresource hactor
    hid (hinstant ▸ hstale) staleBefore
  refine ⟨[.readStale scope staleBefore, .recover staleBefore candidate], fun op hop => ?_, ?_⟩
  · rcases List.mem_cons.mp hop with rfl | hop
    · exact beq_self_eq_true _
    · rw [List.mem_singleton.mp hop]
      rfl
  · have hpool : (s.stale ++ staleCandidates s.db scope staleBefore).contains candidate = true :=
      List.contains_iff_mem.mpr (List.mem_append_right _ hmem)
    simp only [Machine.run_cons, Machine.run_nil, step, hpool, if_true, System.commitDb, hok,
      Machine.commit]
    exact his

end Recovery

/-! ## 2. Orphans -/

/-- The lease is one no run will settle. -/
def AgentDb.isOrphan (db : AgentDb) (staleBefore : Int) (q : LedgerRow) : Bool :=
  q.status == .reserved && decide (q.reservedAt ≤ staleBefore) &&
    (q.resource == .answer && !(db.runs.any fun r => r.answerQuotaLeaseId == some q.leaseId) ||
      q.resource == .modelAttempt)

def orphanOf (q : LedgerRow) : OrphanedReservation :=
  { leaseId := q.leaseId, userId := q.actorUserId, resource := q.resource }

/-- The orphans a recovery without a scope has to get through. -/
def orphans (db : AgentDb) (staleBefore : Int) : List OrphanedReservation :=
  ((db.quota.ledger.filter (db.isOrphan staleBefore)).map orphanOf).dedup

theorem orphanedReservations_eq (db : AgentDb) (staleBefore : Int) :
    orphanedReservations db ⟨none, none⟩ staleBefore =
      ((orphans db staleBefore).insertionSort fun l r => l.leaseId ≤ r.leaseId).take
        MAX_RECOVERY_BATCH := by
  unfold orphanedReservations orphans
  simp only [RecoveryScope.allowsUser, Bool.and_true]
  rfl

theorem mem_orphans {db : AgentDb} {staleBefore : Int} {o : OrphanedReservation} :
    o ∈ orphans db staleBefore ↔
      ∃ q ∈ db.quota.ledger, db.isOrphan staleBefore q = true ∧ orphanOf q = o := by
  unfold orphans
  rw [List.mem_dedup, List.mem_map]
  constructor
  · rintro ⟨q, hq, e⟩
    obtain ⟨hq, ho⟩ := List.mem_filter.mp hq
    exact ⟨q, hq, ho, e⟩
  · rintro ⟨q, hq, ho, e⟩
    exact ⟨q, List.mem_filter.mpr ⟨hq, ho⟩, e⟩

theorem AgentDb.isOrphan_reserved {db : AgentDb} {staleBefore : Int} {q : LedgerRow}
    (h : db.isOrphan staleBefore q = true) : q.status = .reserved := by
  unfold AgentDb.isOrphan at h
  rw [Bool.and_eq_true, Bool.and_eq_true, beq_iff_eq] at h
  exact h.1.1

section Release

variable [Collation]

/-- **The release of an orphan succeeds**, and the rows it leaves reserved were there before and
    belong to other leases. -/
theorem releaseOrphan_succeeds {db : AgentDb} (h : Sound db.quota) {staleBefore : Int}
    {o : OrphanedReservation} (ho : o ∈ orphans db staleBefore) :
    ∃ quota, releaseOrphan db o = .ok ((), { db with quota }) ∧
      LeaseIs quota o.leaseId .released ∧
      (∀ q ∈ quota.ledger, q.status = .reserved → q ∈ db.quota.ledger) ∧
      ∀ q ∈ db.quota.ledger, q.leaseId ≠ o.leaseId → q ∈ quota.ledger := by
  obtain ⟨q, hq, horphan, rfl⟩ := mem_orphans.mp ho
  obtain ⟨res, quota, hok, hres, hstatus, his⟩ := release_lease h hq
    (AgentDb.isOrphan_reserved horphan)
    (some (if q.resource = .answer then "agent_run_never_persisted"
      else "model_attempt_never_committed"))
  refine ⟨quota, ?_, his, transition_rest h.accounts hok⟩
  unfold releaseOrphan
  refine Except.bind_ok_iff.mpr ⟨(res, quota), congrArg inQuota hok, ?_⟩
  simp only
  rw [if_neg (by rw [hres, hstatus]; simp [orphanOf])]

omit [Collation] in
/-- **Every release leaves fewer orphans.** -/
theorem orphans_lt {db : AgentDb} {quota : QuotaDb} {staleBefore : Int} {o : OrphanedReservation}
    (ho : o ∈ orphans db staleBefore) (his : LeaseIs quota o.leaseId .released)
    (hold : ∀ q ∈ quota.ledger, q.status = .reserved → q ∈ db.quota.ledger) :
    (orphans { db with quota } staleBefore).length < (orphans db staleBefore).length := by
  have hsub : orphans { db with quota } staleBefore ⊆ (orphans db staleBefore).erase o := by
    intro o' ho'
    obtain ⟨q, hq, horphan, e⟩ := mem_orphans.mp ho'
    have hs := AgentDb.isOrphan_reserved horphan
    refine (List.mem_erase_of_ne fun heq => ?_).mpr (mem_orphans.mpr ⟨q, hold q hq hs, horphan, e⟩)
    -- the rows of the released lease are not reserved any more
    have hlease : q.leaseId = o.leaseId := by rw [← heq, ← e]; rfl
    rw [his.2 q hq hlease] at hs
    nomatch hs
  have hnodup : (orphans { db with quota } staleBefore).Nodup := List.nodup_dedup _
  have hlen := (hnodup.subperm hsub).length_le
  have hpos := List.length_pos_of_mem ho
  rw [List.length_erase_of_mem ho] at hlen
  omega

variable [StoredFormats]

/-- One release of an orphan that a recovery read. -/
theorem step_releaseOrphan {s : System} {staleBefore : Int} {o : OrphanedReservation}
    (hread : o ∈ orphanedReservations s.db ⟨none, none⟩ staleBefore) {quota : QuotaDb}
    (hok : releaseOrphan s.db o = .ok ((), { s.db with quota })) :
    (Machine.run step s [.readOrphans ⟨none, none⟩ staleBefore, .releaseOrphan o]).db =
      { s.db with quota } := by
  have hpool : (s.orphans ++ orphanedReservations s.db ⟨none, none⟩ staleBefore).contains o = true :=
    List.contains_iff_mem.mpr (List.mem_append_right _ hread)
  simp only [Machine.run_cons, Machine.run_nil, step, hpool, if_true, System.commitDb, hok,
    Machine.commit]

/-- **Every orphan is released** after enough passes. The induction is on the number of orphans:
    a pass reads the first ones only, and a release makes room. -/
theorem orphans_reach {n : ℕ} {s : System} (h : Inv s) {q : LedgerRow} {staleBefore : Int}
    (hq : q ∈ s.db.quota.ledger) (horphan : s.db.isOrphan staleBefore q = true)
    (hn : (orphans s.db staleBefore).length = n) :
    ∃ ops, (∀ op ∈ ops, op.isRecovery staleBefore = true) ∧
      LeaseIs (Machine.run step s ops).db.quota q.leaseId .released := by
  induction n using Nat.strong_induction_on generalizing s with
  | _ n ih =>
    have hmem : orphanOf q ∈ (orphans s.db staleBefore).insertionSort
        fun l r => l.leaseId ≤ r.leaseId :=
      (List.mem_insertionSort _).mpr (mem_orphans.mpr ⟨q, hq, horphan, rfl⟩)
    -- the pass reads some orphan
    obtain ⟨o, hread⟩ : ∃ o, o ∈ orphanedReservations s.db ⟨none, none⟩ staleBefore := by
      rw [orphanedReservations_eq]
      obtain ⟨o, rest, hcons⟩ := List.exists_cons_of_ne_nil (List.ne_nil_of_mem hmem)
      rw [hcons]
      exact ⟨o, List.mem_cons_self⟩
    have ho : o ∈ orphans s.db staleBefore := by
      rw [orphanedReservations_eq] at hread
      exact (List.mem_insertionSort _).mp (List.mem_of_mem_take hread)
    obtain ⟨quota, hok, his, hold, hkeep⟩ := releaseOrphan_succeeds h.tables.quota ho
    have hdb := step_releaseOrphan hread hok
    have hpass : ∀ op ∈ ([.readOrphans ⟨none, none⟩ staleBefore, .releaseOrphan o] :
        List AgentOp), op.isRecovery staleBefore = true := by
      intro op hop
      rcases List.mem_cons.mp hop with rfl | hop
      · exact beq_self_eq_true _
      · rw [List.mem_singleton.mp hop]
        rfl
    by_cases hsame : q.leaseId = o.leaseId
    · refine ⟨_, hpass, ?_⟩
      rw [hdb, hsame]
      exact his
    · have hinv : Inv (Machine.run step s
          [.readOrphans ⟨none, none⟩ staleBefore, .releaseOrphan o]) :=
        Machine.run_invariant h inv_step _
      have hlt := orphans_lt ho his hold
      obtain ⟨ops, hops, hreach⟩ := ih _ (hn ▸ hlt) hinv (by rw [hdb]; exact hkeep q hq hsame)
        (by rw [hdb]; exact horphan) (by rw [hdb])
      refine ⟨_ ++ ops, fun op hop => ?_, by rw [Machine.run_append]; exact hreach⟩
      rcases List.mem_append.mp hop with hop | hop
      · exact hpass op hop
      · exact hops op hop

end Release

/-! ## 3. The result -/

section Result

variable [Collation] [StoredFormats]

theorem run_other (s : Answering) {ops : List AgentOp} (ho : ∀ op ∈ ops, op.isOther = true) :
    Machine.run Answering.step s (ops.map .other) =
      { s with system := Machine.run step s.system ops } := by
  induction ops generalizing s with
  | nil => rfl
  | cons op ops ih =>
    have hstep : s.step (.other op) = { s with system := step s.system op } :=
      if_pos (ho op List.mem_cons_self)
    rw [List.map_cons, Machine.run_cons, Machine.run_cons, hstep,
      ih _ fun op' hop => ho op' (List.mem_cons_of_mem _ hop)]

omit [Collation] [StoredFormats] in
theorem AgentOp.isRecovery_isOther {staleBefore : Int} {op : AgentOp}
    (h : op.isRecovery staleBefore = true) : op.isOther = true := by
  cases op <;> first | rfl | nomatch h

/-- **A reserved answer can be given back**, by the recovery of the run that holds it or as an
    orphan, from the instant it is stale. -/
theorem Holders.reach {s : Answering} (h : Holders s) {q : LedgerRow}
    (hq : q ∈ s.system.db.quota.ledger) (hresource : q.resource = .answer)
    (hs : q.status = .reserved) {staleBefore : Int} (hreserved : q.reservedAt ≤ staleBefore)
    (hstale : ∀ r ∈ s.system.db.runs, r.answerQuotaLeaseId = some q.leaseId →
      r.updatedAt ≤ staleBefore) :
    ∃ ops, (∀ op ∈ ops, op.isRecovery staleBefore = true) ∧
      LeaseIs (Machine.run step s.system ops).db.quota q.leaseId .released := by
  by_cases hrun : ∃ r ∈ s.system.db.runs, r.answerQuotaLeaseId = some q.leaseId
  · obtain ⟨r, hr, hlease⟩ := hrun
    exact recover_reaches h.inv h.finished hr (h.active hr hq hs hlease) hq hs hlease hresource
      (h.owner r hr q hq hlease).2 (hstale r hr hlease)
  · refine orphans_reach h.inv hq ?_ rfl
    have hnone : (s.system.db.runs.any fun r => r.answerQuotaLeaseId == some q.leaseId) = false := by
      refine List.any_eq_false.mpr fun r hr => ?_
      rw [beq_iff_eq]
      exact fun e => hrun ⟨r, hr, e⟩
    unfold AgentDb.isOrphan
    rw [hs, hresource, decide_eq_true hreserved, hnone]
    rfl

/-- **No reserved answer is out of reach**, in every state reachable by create requests, the run
    store, stale recovery, and the deletion and clearing of conversations:

    * a run that is pending or running refers to it, or its create request has not returned, or no
      run refers to it and it is on record as orphaned (its run was deleted with the user's
      conversations, or its request ended without giving it back);
    * from the instant it is stale, passes of the recovery release it. -/
theorem answer_leases_reachable (users : List UserRow) (conversations : List ConversationRow)
    (ops : List AnswerOp) :
    let s := Machine.run Answering.step (Answering.start users conversations) ops
    ∀ q ∈ s.system.db.quota.ledger, q.resource = .answer → q.status = .reserved →
      ((∃ r ∈ s.system.db.runs, r.status.isActive = true ∧
          r.answerQuotaLeaseId = some q.leaseId) ∨
        (∃ request ∈ s.requests, request.leaseId = q.leaseId) ∨
        (q.leaseId ∈ s.orphaned ∧
          ∀ r ∈ s.system.db.runs, r.answerQuotaLeaseId ≠ some q.leaseId)) ∧
      ∀ staleBefore : Int, q.reservedAt ≤ staleBefore →
        (∀ r ∈ s.system.db.runs, r.answerQuotaLeaseId = some q.leaseId →
          r.updatedAt ≤ staleBefore) →
        ∃ passes : List AgentOp, (∀ op ∈ passes, op.isRecovery staleBefore = true) ∧
          LeaseIs (Machine.run Answering.step s (passes.map .other)).system.db.quota
            q.leaseId .released := by
  intro s q hq hresource hs
  have h : Holders s := holders_run users conversations ops
  constructor
  · by_cases hrun : ∃ r ∈ s.system.db.runs, r.answerQuotaLeaseId = some q.leaseId
    · obtain ⟨r, hr, hlease⟩ := hrun
      exact Or.inl ⟨r, hr, h.active hr hq hs hlease, hlease⟩
    · rcases h.held q hq hresource hs with ⟨r, hr, -, hlease⟩ | hreq | hgone
      · exact absurd ⟨r, hr, hlease⟩ hrun
      · exact Or.inr (Or.inl hreq)
      · exact Or.inr (Or.inr ⟨hgone, fun r hr hlease => hrun ⟨r, hr, hlease⟩⟩)
  · intro staleBefore hreserved hstale
    obtain ⟨passes, hpasses, hreach⟩ := h.reach hq hresource hs hreserved hstale
    refine ⟨passes, hpasses, ?_⟩
    rw [run_other s fun op hop => AgentOp.isRecovery_isOther (hpasses op hop)]
    exact hreach

end Result

/-- One user, no conversation. -/
def oneUser : List UserRow := [⟨"u", none⟩]

/-- The user asks a first question, and clears all conversations while the answer runs. -/
def clearedWhileRunning : List AnswerOp :=
  [.reserveAnswer 0 ⟨"u", "a", .answer, 1, ⟨"w", 0⟩, [⟨.user, "u", 1⟩]⟩,
    .reserveModelAttempt 0 ⟨"u", "a:model-v3", .modelAttempt, 1, ⟨"w", 0⟩, [⟨.user, "u", 1⟩]⟩ 0,
    .createInitial 0 ⟨"u", none, "q", none, "a", 0⟩,
    .clearConversationData "u"]

/-- **The cleared answer has no run and no request**: the cascade took the run with the reserved
    lease. -/
theorem cleared_run_leaves_orphan :
    ¬ ∀ [Collation] [StoredFormats] (users : List UserRow) (conversations : List ConversationRow)
      (ops : List AnswerOp),
      let s := Machine.run Answering.step (Answering.start users conversations) ops
      ∀ q ∈ s.system.db.quota.ledger, q.resource = .answer → q.status = .reserved →
        (∃ r ∈ s.system.db.runs, r.status.isActive = true ∧
          r.answerQuotaLeaseId = some q.leaseId) ∨
        ∃ request ∈ s.requests, request.leaseId = q.leaseId := by
  intro h
  let : Collation := ⟨compare, compare⟩
  let : StoredFormats := ⟨some, fun _ => true⟩
  have hno := h oneUser [] clearedWhileRunning
  have hlost : ∃ q ∈ (Machine.run Answering.step (Answering.start oneUser [])
      clearedWhileRunning).system.db.quota.ledger, q.resource = .answer ∧ q.status = .reserved := by
    decide +kernel
  obtain ⟨q, hq, hresource, hs⟩ := hlost
  have hruns : (Machine.run Answering.step (Answering.start oneUser [])
      clearedWhileRunning).system.db.runs = [] := by
    decide +kernel
  have hrequests : (Machine.run Answering.step (Answering.start oneUser [])
      clearedWhileRunning).requests = [] := by
    decide +kernel
  rcases hno q hq hresource hs with ⟨r, hr, -⟩ | ⟨request, hr, -⟩
  · rw [hruns] at hr
    nomatch hr
  · rw [hrequests] at hr
    nomatch hr

/-- The recovery gives the cleared answer back. -/
theorem cleared_answer_released :
    let _ : Collation := ⟨compare, compare⟩
    let _ : StoredFormats := ⟨some, fun _ => true⟩
    let s := Machine.run Answering.step (Answering.start oneUser []) clearedWhileRunning
    s.orphaned = [0] ∧ ∃ passes : List AgentOp,
      LeaseIs (Machine.run Answering.step s (passes.map .other)).system.db.quota 0 .released := by
  intro _ _ s
  have hlost : ∃ q ∈ s.system.db.quota.ledger, q.resource = .answer ∧ q.status = .reserved ∧
      q.leaseId = 0 := by
    decide +kernel
  have hruns : s.system.db.runs = [] := by decide +kernel
  obtain ⟨q, hq, hresource, hs, hlease⟩ := hlost
  obtain ⟨passes, -, hreach⟩ :=
    (answer_leases_reachable oneUser [] clearedWhileRunning q hq hresource hs).2 q.reservedAt
      (le_refl _) fun r hr => by
        have hr' : r ∈ s.system.db.runs := hr
        rw [hruns] at hr'
        nomatch hr'
  rw [hlease] at hreach
  exact ⟨by decide +kernel, passes, hreach⟩

end OpenVac.Agent
