/-
  File:      OpenVac/Agent/RunEffects.lean
  Subject:   What one transaction of the run machine can do to its tables, said once.

  * `Quiet`, `Creation`, `Settling`, `Cancelling` -- the four kinds of effect.
  * One inversion lemma for each transaction (`createInitial_ok`, `createAction_ok`,
    `complete_ok`, `fail_ok`, `recoverCandidate_ok`, `requestCancellation_ok`,
    `releaseOrphan_ok`); later arguments never unfold a transaction.
  * `effect_step` -- every step of the machine has one of the four effects.
-/
import OpenVac.Agent.Retention

namespace OpenVac.Agent

open Rows Quota

/-! ## 1. The effects -/

/-- Runs, turns and messages stay; the quota store may move. -/
structure Quiet (db db' : AgentDb) : Prop where
  quota : Advance db.quota db'.quota
  runs : db'.runs = db.runs
  turns : db'.turns = db.turns
  messages : db'.messages = db.messages
  nextId : db.nextId ≤ db'.nextId

/-- The two ways a run is created: with a new turn, or as the next version of a turn. -/
inductive Creation.Kind (db db' : AgentDb) (turn : TurnRow) (run : RunRow) : Prop where
  | initial (turns : db'.turns = db.turns ++ [turn]) (selected : turn.selectedRunId = none)
      (fresh : db.nextId ≤ turn.id) (old : turn.id < db'.nextId) (version : run.version = 1)
      (action : run.action = .initial)
  | action (turns : db'.turns = db.turns) (mem : turn ∈ db.turns)
      (version : run.version = (lastVersion db turn.id).getD 0 + 1)
      (allowed : actionAllowed run.action ((latestRun db turn.id).map (·.status)) = true)

/-- A new run of `turn`, with the messages added for it. -/
structure Creation (db db' : AgentDb) (turn : TurnRow) (run : RunRow) (added : List MessageRow) :
    Prop where
  quota : db'.quota = db.quota
  runs : db'.runs = db.runs ++ [run]
  messages : db'.messages = db.messages ++ added
  nextId : db.nextId ≤ db'.nextId
  turnId : run.turnId = turn.id
  status : run.status = .running
  lease : run.answerQuotaLeaseId.isSome = true
  fresh : db.nextId ≤ run.id
  old : run.id < db'.nextId
  idle : findActiveRun db turn.conversationId = none
  request : ∀ r ∈ db.runs, r.userId = run.userId → r.clientRequestId ≠ run.clientRequestId
  later : ∀ m ∈ added, m.conversationId = turn.conversationId ∧
    (lastSequence db turn.conversationId).getD 0 < m.sequence
  increasing : added.Pairwise fun m m' => m.sequence < m'.sequence
  kind : Creation.Kind db db' turn run

/-- The columns of a run that no update touches. -/
def RunRow.identity (r : RunRow) :
    Nat × Nat × String × String × Int × AgentAction × Option Nat :=
  (r.id, r.turnId, r.userId, r.clientRequestId, r.version, r.action, r.answerQuotaLeaseId)

/-- The run `current` is settled with `status`. -/
structure Settling (db db' : AgentDb) (current : RunRow) (status : TerminalStatus) : Prop where
  mem : current ∈ db.runs
  guard : current.status.isActive = true ∨ current.status = status.run
  cancelled : current.status.isActive = true → current.cancelRequestedAt.isSome = true →
    status = .failed ∨ status = .cancelled
  quota : Advance db.quota db'.quota
  lease : ∀ leaseId, current.answerQuotaLeaseId = some leaseId →
    LeaseIs db'.quota leaseId status.expected.status
  runs : ∃ f : RunRow → RunRow,
    (∀ r, (f r).identity = r.identity ∧ (f r).status = status.run ∧
      (f r).cancelRequestedAt = r.cancelRequestedAt) ∧
    db'.runs = updateWhere (fun r => r.id == current.id) f db.runs
  messages : ∃ (p : MessageRow → Bool) (f : MessageRow → MessageRow),
    (∀ m, (f m).conversationId = m.conversationId ∧ (f m).sequence = m.sequence) ∧
    db'.messages = updateWhere p f db.messages
  turns : db'.turns = db.turns ∨ ∃ turnId, status = .completed ∧
    db'.turns = updateWhere (fun t => t.id == turnId)
      (fun t => { t with selectedRunId := some current.id }) db.turns
  nextId : db'.nextId = db.nextId

/-- The active run `current` gets a cancellation mark. -/
structure Cancelling (db db' : AgentDb) (current : RunRow) (now : Int) : Prop where
  mem : current ∈ db.runs
  active : current.status.isActive = true
  quota : db'.quota = db.quota
  runs : db'.runs = updateWhere (fun r => r.id == current.id)
    (fun r => { r with cancelRequestedAt := some now, updatedAt := now }) db.runs
  turns : db'.turns = db.turns
  messages : db'.messages = db.messages
  nextId : db'.nextId = db.nextId

theorem Quiet.refl {db : AgentDb} (h : Sound db.quota) : Quiet db db :=
  ⟨Advance.refl h, rfl, rfl, rfl, Nat.le_refl _⟩

/-! ## 2. The inserts -/

theorem insertMessage_ok {db db' : AgentDb} {row : MessageRow} (h : db.insertMessage row = .ok db') :
    db'.messages = db.messages ++ [row] ∧ db'.quota = db.quota ∧ db'.turns = db.turns ∧
      db'.runs = db.runs ∧ db'.nextId = db.nextId := by
  unfold AgentDb.insertMessage at h
  split at h
  · split at h
    · cases h
    · injection h with h
      subst h
      exact ⟨rfl, rfl, rfl, rfl, rfl⟩
  · cases h

theorem insertTurn_ok {db db' : AgentDb} {row : TurnRow} (h : db.insertTurn row = .ok db') :
    db'.turns = db.turns ++ [row] ∧ db'.quota = db.quota ∧ db'.messages = db.messages ∧
      db'.runs = db.runs ∧ db'.nextId = db.nextId := by
  unfold AgentDb.insertTurn at h
  split at h
  · split at h
    · cases h
    · injection h with h
      subst h
      exact ⟨rfl, rfl, rfl, rfl, rfl⟩
  · cases h

/-- A run that was inserted had an unused client request. -/
theorem insertRun_ok {db db' : AgentDb} {row : RunRow} (h : db.insertRun row = .ok db') :
    (db'.runs = db.runs ++ [row] ∧ db'.quota = db.quota ∧ db'.messages = db.messages ∧
      db'.turns = db.turns ∧ db'.nextId = db.nextId) ∧
      ∀ r ∈ db.runs, r.userId = row.userId → r.clientRequestId ≠ row.clientRequestId := by
  unfold AgentDb.insertRun at h
  split at h
  · split at h
    · cases h
    · next hnone =>
        injection h with h
        subst h
        refine ⟨⟨rfl, rfl, rfl, rfl, rfl⟩, fun r hr hu hc => hnone ?_⟩
        refine List.any_eq_true.mpr ⟨r, hr, ?_⟩
        rw [hu, hc, beq_self_eq_true, beq_self_eq_true]
        rfl
  · cases h

theorem ownTurn_mem {db : AgentDb} {userId : String} {turnId : Nat} {turn : TurnRow}
    {question : MessageRow} (h : ownTurn db userId turnId = some (turn, question)) :
    turn ∈ db.turns := by
  unfold ownTurn at h
  obtain ⟨t, ht, h⟩ := Option.bind_eq_some_iff.mp h
  obtain ⟨message, _, h⟩ := Option.bind_eq_some_iff.mp h
  obtain ⟨_, _, h⟩ := Option.bind_eq_some_iff.mp h
  injection h with e
  rw [← (Prod.mk.inj e).1]
  exact List.mem_of_find?_eq_some ht

/-- A conversation is found or added; the run tables stay. -/
theorem conversationFor_ok {db db' : AgentDb} {input : CreateInitialInput} {conversationId : Nat}
    (h : conversationFor db input = .ok (conversationId, db')) :
    db'.quota = db.quota ∧ db'.runs = db.runs ∧ db'.turns = db.turns ∧
      db'.messages = db.messages ∧ db.nextId ≤ db'.nextId := by
  unfold conversationFor at h
  split at h
  · split at h
    · injection h with e
      obtain ⟨_, rfl⟩ := Prod.mk.inj e
      exact ⟨rfl, rfl, rfl, rfl, Nat.le_refl _⟩
    · cases h
  · injection h with e
    obtain ⟨_, rfl⟩ := Prod.mk.inj e
    exact ⟨rfl, rfl, rfl, rfl, Nat.le_succ _⟩

/-- A creation after a change of the conversations alone is a creation. -/
theorem Creation.of_eq {db db₁ db' : AgentDb} {turn : TurnRow} {run : RunRow}
    {added : List MessageRow} (h : Creation db₁ db' turn run added)
    (hq : db₁.quota = db.quota) (hr : db₁.runs = db.runs) (ht : db₁.turns = db.turns)
    (hm : db₁.messages = db.messages) (hn : db.nextId ≤ db₁.nextId) :
    Creation db db' turn run added where
  quota := h.quota.trans hq
  runs := hr ▸ h.runs
  messages := hm ▸ h.messages
  nextId := Nat.le_trans hn h.nextId
  turnId := h.turnId
  status := h.status
  lease := h.lease
  fresh := Nat.le_trans hn h.fresh
  old := h.old
  idle := by
    have := h.idle
    unfold findActiveRun at this ⊢
    rw [← hr, ← ht]
    exact this
  request := hr ▸ h.request
  later := by
    have := h.later
    unfold lastSequence at this ⊢
    rw [← hm]
    exact this
  increasing := h.increasing
  kind := by
    cases h.kind with
    | initial turns selected fresh old version action =>
      exact .initial (ht ▸ turns) selected (Nat.le_trans hn fresh) old version action
    | action turns mem version allowed =>
      refine .action (ht ▸ turns) (ht ▸ mem) ?_ ?_
      · unfold lastVersion at version ⊢
        rw [← hr]
        exact version
      · unfold latestRun at allowed ⊢
        rw [← hr]
        exact allowed

/-- What `createInitial` and `createAction` return to their caller: a handle only for a run they
    created. -/
def Handed (result : CreateRunResult) (turn : TurnRow) (run : RunRow) : Prop :=
  ∃ handle, result.handles = [handle] ∧ handle.runId = run.id ∧ handle.turnId = turn.id

theorem insertInitial_ok {db db' : AgentDb} {now : Int} {input : CreateInitialInput}
    {conversationId : Nat} {result : CreateRunResult} (hidle : findActiveRun db conversationId = none)
    (h : insertInitial db now input conversationId = .ok (result, db')) :
    ∃ turn run added, Creation db db' turn run added ∧ Handed result turn run := by
  unfold insertInitial at h
  simp only at h
  obtain ⟨db₁, h1, h⟩ := Except.bind_ok_iff.mp h
  obtain ⟨db₂, h2, h⟩ := Except.bind_ok_iff.mp h
  obtain ⟨db₃, h3, h⟩ := Except.bind_ok_iff.mp h
  obtain ⟨db₄, h4, h⟩ := Except.bind_ok_iff.mp h
  injection h with e
  obtain ⟨rfl, rfl⟩ := Prod.mk.inj e
  obtain ⟨em1, eq1, et1, er1, en1⟩ := insertMessage_ok h1
  obtain ⟨em2, eq2, et2, er2, en2⟩ := insertMessage_ok h2
  obtain ⟨et3, eq3, em3, er3, en3⟩ := insertTurn_ok h3
  obtain ⟨⟨er4, eq4, em4, et4, en4⟩, hreq⟩ := insertRun_ok h4
  have hruns : db₃.runs = db.runs := er3.trans (er2.trans er1)
  have hid : db₄.nextId = db.nextId + 4 := en4.trans (en3.trans (en2.trans en1))
  have hmessages := em4.trans (em3.trans (em2.trans (congrArg (· ++ _) em1)))
  obtain ⟨added, hadded, hlater, hinc⟩ : ∃ added, db₄.messages = db.messages ++ added ∧
      (∀ m ∈ added, m.conversationId = conversationId ∧
        (lastSequence db conversationId).getD 0 < m.sequence) ∧
      added.Pairwise fun m m' => m.sequence < m'.sequence := by
    refine ⟨_, hmessages.trans (List.append_assoc _ _ _), fun m hm => ?_, ?_⟩
    · rcases List.mem_append.mp hm with hm | hm
      · rw [List.mem_singleton.mp hm]
        exact ⟨rfl, Int.lt_succ _⟩
      · rw [List.mem_singleton.mp hm]
        refine ⟨rfl, ?_⟩
        simp only [assistantMessage]
        omega
    · refine List.pairwise_pair.mpr ?_
      exact Int.lt_succ _
  let turn : TurnRow :=
    { id := db.nextId + 2, conversationId, userMessageId := db.nextId
      ordinal := (lastOrdinal db conversationId).getD 0 + 1, selectedRunId := none }
  let run := newRun (db.nextId + 3) (db.nextId + 2) input.userId (db.nextId + 1)
    input.clientRequestId 1 .initial input.answerQuotaLeaseId now
  refine ⟨turn, run, added, ?_, ⟨_, rfl, rfl, rfl⟩⟩
  constructor
  · exact eq4.trans (eq3.trans (eq2.trans eq1))
  · exact er4.trans (congrArg (· ++ _) hruns)
  · exact hadded
  · omega
  · rfl
  · rfl
  · rfl
  · exact Nat.le_add_right _ 3
  · rw [hid]
    exact Nat.lt_succ_self _
  · exact hidle
  · rw [← hruns]
    exact hreq
  · exact hlater
  · exact hinc
  · refine .initial (et4.trans (et3.trans (congrArg (· ++ _) (et2.trans et1)))) rfl ?_ ?_ rfl rfl
    · exact Nat.le_add_right _ _
    · rw [hid]
      exact Nat.lt_succ_of_lt (Nat.lt_succ_self _)

section Create

variable [StoredFormats]

/-- A repeated request gets no handle. -/
theorem findRunByClientRequest_handles {db : AgentDb} {userId clientRequestId : String}
    {result : CreateRunResult} (h : findRunByClientRequest db userId clientRequestId = some result) :
    result.handles = [] := by
  unfold findRunByClientRequest at h
  obtain ⟨run, _, h⟩ := Option.bind_eq_some_iff.mp h
  obtain ⟨turn, _, h⟩ := Option.bind_eq_some_iff.mp h
  obtain ⟨message, _, h⟩ := Option.bind_eq_some_iff.mp h
  split at h
  · injection h with e
    rw [← e]
    rfl
  · split at h <;>
    · injection h with e
      rw [← e]
      rfl

theorem insertAction_ok {db db' : AgentDb} {now : Int} {input : CreateActionInput} {turn : TurnRow}
    {question : MessageRow} {result : CreateRunResult} (hturn : turn ∈ db.turns)
    (hidle : findActiveRun db turn.conversationId = none)
    (hallowed : actionAllowed input.action ((latestRun db turn.id).map (·.status)) = true)
    (h : insertAction db now input turn question = .ok (result, db')) :
    ∃ run added, Creation db db' turn run added ∧ Handed result turn run := by
  unfold insertAction at h
  simp only at h
  obtain ⟨db₁, h1, h⟩ := Except.bind_ok_iff.mp h
  obtain ⟨db₂, h2, h⟩ := Except.bind_ok_iff.mp h
  injection h with e
  obtain ⟨rfl, rfl⟩ := Prod.mk.inj e
  obtain ⟨em1, eq1, et1, er1, en1⟩ := insertMessage_ok h1
  obtain ⟨⟨er2, eq2, em2, et2, en2⟩, hreq⟩ := insertRun_ok h2
  have hid : db₂.nextId = db.nextId + 2 := en2.trans en1
  let run := newRun (db.nextId + 1) turn.id input.userId db.nextId input.clientRequestId
    ((lastVersion db turn.id).getD 0 + 1) input.action input.answerQuotaLeaseId now
  let reply := assistantMessage db.nextId turn.conversationId input.userId
    ((lastSequence db turn.conversationId).getD 0 + 1) turn.id
  refine ⟨run, [reply], ?_, ⟨_, rfl, rfl, rfl⟩⟩
  constructor
  · exact eq2.trans eq1
  · exact er2.trans (congrArg (· ++ _) er1)
  · exact em2.trans em1
  · omega
  · rfl
  · rfl
  · rfl
  · exact Nat.le_succ _
  · rw [hid]
    exact Nat.lt_succ_self _
  · exact hidle
  · intro r hr
    exact hreq r (er1 ▸ hr)
  · intro m hm
    rw [List.mem_singleton.mp hm]
    exact ⟨rfl, Int.lt_succ _⟩
  · exact List.pairwise_singleton _ _
  · exact .action (et2.trans et1) hturn rfl hallowed

/-- **What `createInitial` does**: nothing to the run tables, and no handle; or a creation, and
    the handle of the new run. -/
theorem createInitial_ok {db db' : AgentDb} (hq : Sound db.quota) {now : Int}
    {input : CreateInitialInput} {result : CreateRunResult}
    (h : createInitial db now input = .ok (result, db')) :
    (Quiet db db' ∧ result.handles = []) ∨
      ∃ turn run added, Creation db db' turn run added ∧ Handed result turn run := by
  unfold createInitial at h
  obtain ⟨_, _, h⟩ := Except.bind_ok_iff.mp h
  split at h
  · next replay hfind =>
      injection h with e
      obtain ⟨rfl, rfl⟩ := Prod.mk.inj e
      exact Or.inl ⟨Quiet.refl hq, findRunByClientRequest_handles hfind⟩
  · obtain ⟨⟨conversationId, db₁⟩, h1, h⟩ := Except.bind_ok_iff.mp h
    obtain ⟨eq, er, et, em, hn⟩ := conversationFor_ok h1
    simp only at h
    split at h
    · injection h with e
      obtain ⟨rfl, rfl⟩ := Prod.mk.inj e
      exact Or.inl ⟨⟨by rw [eq]; exact Advance.refl hq, er, et, em, hn⟩, rfl⟩
    · next hidle =>
        obtain ⟨turn, run, added, hc, hh⟩ := insertInitial_ok hidle h
        exact Or.inr ⟨turn, run, added, hc.of_eq eq er et em hn, hh⟩

/-- **What `createAction` does**, in the same two cases. -/
theorem createAction_ok {db db' : AgentDb} (hq : Sound db.quota) {now : Int}
    {input : CreateActionInput} {result : CreateRunResult}
    (h : createAction db now input = .ok (result, db')) :
    (Quiet db db' ∧ result.handles = []) ∨
      ∃ turn run added, Creation db db' turn run added ∧ Handed result turn run := by
  unfold createAction at h
  obtain ⟨_, _, h⟩ := Except.bind_ok_iff.mp h
  split at h
  · next replay hfind =>
      injection h with e
      obtain ⟨rfl, rfl⟩ := Prod.mk.inj e
      exact Or.inl ⟨Quiet.refl hq, findRunByClientRequest_handles hfind⟩
  · split at h
    · cases h
    · next turn question hown =>
        split at h
        · injection h with e
          obtain ⟨rfl, rfl⟩ := Prod.mk.inj e
          exact Or.inl ⟨Quiet.refl hq, rfl⟩
        · next hidle =>
            split at h
            · next hallowed =>
                obtain ⟨run, added, hc, hh⟩ :=
                  insertAction_ok (ownTurn_mem hown) hidle hallowed h
                exact Or.inr ⟨turn, run, added, hc, hh⟩
            · cases h

end Create

/-! ## 3. The settling transactions -/

theorem inQuota_ok {α : Type} {tx : Except QuotaError α} {a : α} (h : inQuota tx = .ok a) :
    tx = .ok a := by
  cases tx with
  | error e => cases h
  | ok b =>
    injection h with e
    rw [e]

/-- What `complete` writes before it settles. -/
theorem writeAnswer_tables (db : AgentDb) (input : CompleteInput) (status : CompletionStatus) :
    let db' := writeAnswer db input status
    db'.quota = db.quota ∧ db'.runs = db.runs ∧ db'.nextId = db.nextId ∧
      (∃ (p : MessageRow → Bool) (f : MessageRow → MessageRow),
        (∀ m, (f m).conversationId = m.conversationId ∧ (f m).sequence = m.sequence) ∧
        db'.messages = updateWhere p f db.messages) ∧
      (db'.turns = db.turns ∨
        status.terminal = .completed ∧
        db'.turns = updateWhere (fun t => t.id == input.run.turnId)
          (fun t => { t with selectedRunId := some input.run.runId }) db.turns) := by
  intro db'
  cases status with
  | completed =>
    refine ⟨rfl, rfl, rfl, ⟨_, _, ?_, rfl⟩, Or.inr ⟨rfl, rfl⟩⟩
    exact fun m => ⟨rfl, rfl⟩
  | incomplete =>
    refine ⟨rfl, rfl, rfl, ⟨_, _, ?_, rfl⟩, Or.inl rfl⟩
    exact fun m => ⟨rfl, rfl⟩

section Settle

variable [Collation]

/-- **A settlement that returns has settled the whole lease** as its status demands. -/
theorem settleAnswerQuota_ok {quota quota' : QuotaDb} (h : Sound quota) {leaseId : Option Nat}
    {userId reason : String} {status : TerminalStatus} {s : Option QuotaReservationStatus}
    (hok : settleAnswerQuotaInTransaction quota leaseId userId status reason = .ok (s, quota')) :
    Advance quota quota' ∧
      ∀ lease, leaseId = some lease → LeaseIs quota' lease status.expected.status := by
  unfold settleAnswerQuotaInTransaction at hok
  cases leaseId with
  | none =>
    injection hok with e
    rw [← (Prod.mk.inj e).2]
    exact ⟨Advance.refl h, fun lease e' => by cases e'⟩
  | some lease =>
    obtain ⟨⟨reservation, quota₁⟩, h1, h2⟩ := Except.bind_ok_iff.mp hok
    have htx := inQuota_ok h1
    simp only at h2
    split at h2
    · cases h2
    · next hgood =>
        injection h2 with e
        obtain ⟨_, rfl⟩ := Prod.mk.inj e
        have hstatus : reservation.status = status.expected.status := by
          by_contra hne
          exact hgood (Or.inr hne)
        have hne : status.expected.status ≠ .reserved := by
          cases status.expected <;> exact fun e => QuotaReservationStatus.noConfusion e
        refine ⟨advance_transition h htx, fun lease' e' => ?_⟩
        injection e' with e'
        rw [← e']
        exact leaseIs_transition h htx hne hstatus

/-- **What `complete` does**: it settles an active run without a cancellation mark. -/
theorem complete_ok {db db' : AgentDb} (hq : Sound db.quota) {now : Int} {input : CompleteInput}
    (h : complete db now input = .ok ((), db')) :
    ∃ current, current.id = input.run.runId ∧
      Settling db db' current (input.status.getD .completed).terminal ∧
      (db'.turns = db.turns ∨
        (input.status.getD .completed).terminal = .completed ∧
        db'.turns = updateWhere (fun t => t.id == input.run.turnId)
          (fun t => { t with selectedRunId := some current.id }) db.turns) := by
  unfold complete at h
  simp only at h
  obtain ⟨_, _, h⟩ := Except.bind_ok_iff.mp h
  split at h
  · cases h
  · next current hfind =>
      have hid : current.id = input.run.runId := by
        have := List.find?_some hfind
        exact beq_iff_eq.mp this
      split at h
      · cases h
      · next hguard =>
          rw [Bool.not_eq_true, Bool.or_eq_false_iff, Bool.not_eq_false'] at hguard
          split at h
          · cases h
          · next leaseId hlease =>
              obtain ⟨⟨s, quota⟩, h1, h2⟩ := Except.bind_ok_iff.mp h
              injection h2 with e
              obtain ⟨_, rfl⟩ := Prod.mk.inj e
              obtain ⟨eq, er, en, hm, ht⟩ :=
                writeAnswer_tables db input (input.status.getD .completed)
              rw [eq] at h1
              obtain ⟨hadv, hl⟩ := settleAnswerQuota_ok hq h1
              refine ⟨current, hid, ?_, ?_⟩
              · constructor
                · exact List.mem_of_find?_eq_some hfind
                · exact Or.inl hguard.1
                · intro _ hc
                  rw [hguard.2] at hc
                  cases hc
                · exact hadv
                · exact fun lease e => hl lease (hlease ▸ e)
                · rw [hid]
                  refine ⟨_, ?_, congrArg (updateWhere _ _) er⟩
                  exact fun r => ⟨rfl, rfl, rfl⟩
                · exact hm
                · rcases ht with ht | ⟨hs, ht⟩
                  · exact Or.inl ht
                  · exact Or.inr ⟨input.run.turnId, hs, hid ▸ ht⟩
                · exact en
              · rcases ht with ht | ⟨hs, ht⟩
                · exact Or.inl ht
                · exact Or.inr ⟨hs, hid ▸ ht⟩

/-- **What `fail` does**: nothing, or it settles an active run as failed or cancelled. -/
theorem fail_ok {db db' : AgentDb} (hq : Sound db.quota) {now : Int} {input : FailInput}
    {result : FailResult} (h : fail db now input = .ok (result, db')) :
    db' = db ∨ ∃ current, Settling db db' current input.status.terminal ∧ db'.turns = db.turns := by
  unfold fail at h
  split at h
  · split at h
    · cases h
    · split at h
      · injection h with e
        exact Or.inl (Prod.mk.inj e).2.symm
      · cases h
  · next current hfind =>
      have hfound := List.find?_some hfind
      rw [Bool.and_eq_true, beq_iff_eq] at hfound
      obtain ⟨⟨s, quota⟩, h1, h2⟩ := Except.bind_ok_iff.mp h
      obtain ⟨hadv, hl⟩ := settleAnswerQuota_ok hq h1
      simp only at h2
      split at h2
      · cases h2
      · injection h2 with e
        obtain ⟨_, rfl⟩ := Prod.mk.inj e
        refine Or.inr ⟨current, ?_, rfl⟩
        constructor
        · exact List.mem_of_find?_eq_some hfind
        · exact Or.inl hfound.2
        · intro _ _
          cases input.status
          · exact Or.inl rfl
          · exact Or.inr rfl
        · exact hadv
        · exact hl
        · rw [hfound.1]
          refine ⟨_, ?_, rfl⟩
          exact fun r => ⟨rfl, rfl, rfl⟩
        · refine ⟨_, _, ?_, rfl⟩
          exact fun m => ⟨rfl, rfl⟩
        · exact Or.inl rfl
        · rfl

/-- **What the recovery of one candidate does**: nothing, or it settles an interrupted run as
    failed, or a terminal run with the status it has. -/
theorem recoverCandidate_ok {db db' : AgentDb} (hq : Sound db.quota) {now : Int}
    {candidate : RecoveryCandidate} {result : Bool}
    (h : recoverCandidate db now candidate = .ok (result, db')) :
    db' = db ∨ ∃ current status, Settling db db' current status ∧ db'.turns = db.turns := by
  unfold recoverCandidate at h
  split at h
  · injection h with e
    exact Or.inl (Prod.mk.inj e).2.symm
  · next current hfind =>
      have hfound := List.find?_some hfind
      have hid : current.id = candidate.runId := beq_iff_eq.mp hfound
      have hmem := List.mem_of_find?_eq_some hfind
      split at h
      · injection h with e
        exact Or.inl (Prod.mk.inj e).2.symm
      · obtain ⟨⟨s, quota⟩, h1, h2⟩ := Except.bind_ok_iff.mp h
        obtain ⟨hadv, hl⟩ := settleAnswerQuota_ok hq h1
        injection h2 with e
        obtain ⟨_, rfl⟩ := Prod.mk.inj e
        refine Or.inr ⟨current, current.recoveredStatus, ?_⟩
        rw [← hid]
        -- the two branches write different columns, none of which the effect names
        cases hact : current.status.isActive with
        | true =>
          have hfailed : current.recoveredStatus = .failed := by
            unfold RunRow.recoveredStatus
            cases hs : current.status <;> rw [hs] at hact <;> first | rfl | cases hact
          refine ⟨?_, rfl⟩
          constructor
          · exact hmem
          · exact Or.inl hact
          · exact fun _ _ => Or.inl hfailed
          · exact hadv
          · exact hl
          · refine ⟨_, ?_, rfl⟩
            exact fun r => ⟨rfl, rfl, rfl⟩
          · refine ⟨_, _, ?_, rfl⟩
            exact fun m => ⟨rfl, rfl⟩
          · exact Or.inl rfl
          · rfl
        | false =>
          have hsame : current.status = current.recoveredStatus.run := by
            unfold RunRow.recoveredStatus
            cases hs : current.status <;> rw [hs] at hact <;> first | rfl | cases hact
          refine ⟨?_, rfl⟩
          constructor
          · exact hmem
          · exact Or.inr hsame
          · intro hact'
            rw [hact] at hact'
            cases hact'
          · exact hadv
          · exact hl
          · refine ⟨_, ?_, rfl⟩
            exact fun r => ⟨rfl, rfl, rfl⟩
          · exact ⟨fun _ => false, id, fun m => ⟨rfl, rfl⟩, (List.map_id _).symm⟩
          · exact Or.inl rfl
          · rfl

theorem releaseOrphan_ok {db db' : AgentDb} (hq : Sound db.quota) {orphan : OrphanedReservation}
    (h : releaseOrphan db orphan = .ok ((), db')) : Quiet db db' := by
  unfold releaseOrphan at h
  obtain ⟨⟨reservation, quota⟩, h1, h2⟩ := Except.bind_ok_iff.mp h
  simp only at h2
  split at h2
  · cases h2
  · injection h2 with e
    obtain ⟨_, rfl⟩ := Prod.mk.inj e
    exact ⟨advance_transition hq (inQuota_ok h1), rfl, rfl, rfl, Nat.le_refl _⟩

end Settle

/-- **What `requestCancellation` does**: nothing, or it marks an active run, and only then it
    answers `accepted`. -/
theorem requestCancellation_ok {db db' : AgentDb} {now : Int} {userId : String} {runId : Nat}
    {result : CancellationResult} (h : requestCancellation db now userId runId = .ok (result, db')) :
    (db' = db ∧ result ≠ .accepted) ∨
      ∃ current, current.id = runId ∧ Cancelling db db' current now := by
  unfold requestCancellation at h
  split at h
  · injection h with e
    obtain ⟨rfl, rfl⟩ := Prod.mk.inj e
    exact Or.inl ⟨rfl, fun e => CancellationResult.noConfusion e⟩
  · next current hfind =>
      have hfound := List.find?_some hfind
      rw [Bool.and_eq_true, Bool.and_eq_true, beq_iff_eq] at hfound
      split at h
      · next hact =>
          injection h with e
          obtain ⟨_, rfl⟩ := Prod.mk.inj e
          refine Or.inr ⟨current, hfound.1.1, ?_⟩
          rw [← hfound.1.1]
          exact ⟨List.mem_of_find?_eq_some hfind, hact, rfl, rfl, rfl, rfl, rfl⟩
      · injection h with e
        obtain ⟨rfl, rfl⟩ := Prod.mk.inj e
        exact Or.inl ⟨rfl, fun e => CancellationResult.noConfusion e⟩

/-! ## 4. The steps of the machine -/

/-- The four kinds of effect a step can have on the tables. -/
inductive Effect (db db' : AgentDb) : Prop where
  | quiet (h : Quiet db db')
  | creation (turn : TurnRow) (run : RunRow) (added : List MessageRow)
      (h : Creation db db' turn run added)
  | settling (current : RunRow) (status : TerminalStatus) (h : Settling db db' current status)
      (own : db'.turns = db.turns ∨ db'.turns = updateWhere (fun t => t.id == current.turnId)
        (fun t => { t with selectedRunId := some current.id }) db.turns)
  | cancelling (current : RunRow) (now : Int) (h : Cancelling db db' current now)

/-- A handle agrees with the run it was created with, whenever that run is there. -/
def Agrees (db : AgentDb) (handle : CreatedRun) : Prop :=
  handle.runId < db.nextId ∧ ∀ r ∈ db.runs, r.id = handle.runId → r.turnId = handle.turnId

section Step

variable [Collation] [StoredFormats]

/-- **Every step has one of the four effects**, when the handles in the pool agree with their
    runs. -/
theorem effect_step {s : System} (hq : Sound s.db.quota) (hh : ∀ c ∈ s.created, Agrees s.db c)
    (op : AgentOp) : Effect s.db (step s op).db := by
  have hcommit : ∀ {β : Type} (tx : Except AgentError (β × AgentDb)),
      (∀ b db', tx = .ok (b, db') → Effect s.db db') → Effect s.db (s.commitDb tx).db := by
    intro β tx h
    rcases Machine.commit_cases s.db tx with e | ⟨b, db', hok, e⟩
    · exact .quiet (by unfold System.commitDb; rw [e]; exact Quiet.refl hq)
    · unfold System.commitDb
      rw [e]
      exact h b db' hok
  have hcreate : ∀ tx : Except AgentError (CreateRunResult × AgentDb),
      (∀ b db', tx = .ok (b, db') → Effect s.db db') → Effect s.db (s.commitCreate tx).db := by
    intro tx h
    cases tx with
    | error e => exact .quiet (Quiet.refl hq)
    | ok r => exact h r.1 r.2 rfl
  have hquota : ∀ a : QuotaAction, a.keepsLedger = true → Effect s.db (s.commitQuota a).db :=
    fun a ha => .quiet ⟨advance_step hq ha, rfl, rfl, rfl, Nat.le_refl _⟩
  cases op with
  | createInitial now input =>
    refine hcreate _ fun result db' hok => ?_
    rcases createInitial_ok hq hok with ⟨h, _⟩ | ⟨turn, run, added, h, _⟩
    · exact .quiet h
    · exact .creation turn run added h
  | createAction now input =>
    refine hcreate _ fun result db' hok => ?_
    rcases createAction_ok hq hok with ⟨h, _⟩ | ⟨turn, run, added, h, _⟩
    · exact .quiet h
    · exact .creation turn run added h
  | complete now input =>
    simp only [step]
    split
    · next hin =>
        refine hcommit _ fun _ db' hok => ?_
        obtain ⟨current, hid, h, ht⟩ := complete_ok hq hok
        refine .settling current _ h ?_
        have hagree := (hh _ (List.contains_iff_mem.mp hin)).2 current h.mem hid
        rcases ht with ht | ⟨_, ht⟩
        · exact Or.inl ht
        · right
          rw [hagree]
          exact ht
    · exact .quiet (Quiet.refl hq)
  | fail now input =>
    simp only [step]
    split
    · refine hcommit _ fun result db' hok => ?_
      rcases fail_ok hq hok with rfl | ⟨current, h, ht⟩
      · exact .quiet (Quiet.refl hq)
      · exact .settling current _ h (Or.inl ht)
    · exact .quiet (Quiet.refl hq)
  | requestCancellation now userId runId =>
    refine hcommit _ fun result db' hok => ?_
    rcases requestCancellation_ok hok with ⟨rfl, _⟩ | ⟨current, _, h⟩
    · exact .quiet (Quiet.refl hq)
    · exact .cancelling current now h
  | readStale scope staleBefore => exact .quiet (Quiet.refl hq)
  | recover now candidate =>
    simp only [step]
    split
    · refine hcommit _ fun result db' hok => ?_
      rcases recoverCandidate_ok hq hok with rfl | ⟨current, status, h, ht⟩
      · exact .quiet (Quiet.refl hq)
      · exact .settling current status h (Or.inl ht)
    · exact .quiet (Quiet.refl hq)
  | readOrphans scope staleBefore => exact .quiet (Quiet.refl hq)
  | releaseOrphan orphan =>
    simp only [step]
    split
    · exact hcommit _ fun _ db' hok => .quiet (releaseOrphan_ok hq hok)
    · exact .quiet (Quiet.refl hq)
  | reserveQuota now input => exact hquota _ rfl
  | commitQuota input => exact hquota _ rfl
  | releaseQuota input => exact hquota _ rfl

end Step

end OpenVac.Agent
