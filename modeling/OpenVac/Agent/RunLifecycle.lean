/-
  File:      OpenVac/Agent/RunLifecycle.lean
  Subject:   The life of a run over whole runs of the machine.

  * `RunRow.Follows` -- how one row of `agent_run` may change in one step; `runs_effect`: every
    row after an effect follows an old row or is new and running.
  * `Lifecycle db` -- the invariant: keys, one active run for each conversation, settled leases.
  * `lifecycle_effect`, `inv_run` -- it holds in every reachable state.
  * `terminal_run`, `cancelled_run` -- what is kept along the rest of a run.
  * `run_lifecycle_safety` -- the result.
-/
import OpenVac.Agent.RunEffects

namespace OpenVac.Agent

open Rows Quota

/-! ## 1. Rows -/

/-- How a row may change in one step: its keys stay; its status stays and a cancellation mark
    with it, or it was active and is settled, without an answer when it was marked. -/
structure RunRow.Follows (r r' : RunRow) : Prop where
  identity : r'.identity = r.identity
  change : (r'.status = r.status ∧
      (r.cancelRequestedAt.isSome = true → r'.cancelRequestedAt.isSome = true)) ∨
    (r.status.isActive = true ∧ r'.status.isActive = false ∧
      (r.cancelRequestedAt.isSome = true → r'.status = .failed ∨ r'.status = .cancelled))

theorem RunRow.Follows.refl (r : RunRow) : r.Follows r := ⟨rfl, Or.inl ⟨rfl, fun h => h⟩⟩

theorem RunRow.Follows.id_eq {r r' : RunRow} (h : r.Follows r') : r'.id = r.id :=
  congrArg (fun k => k.1) h.identity

theorem RunRow.Follows.turnId_eq {r r' : RunRow} (h : r.Follows r') : r'.turnId = r.turnId :=
  congrArg (fun k => k.2.1) h.identity

theorem RunRow.Follows.lease_eq {r r' : RunRow} (h : r.Follows r') :
    r'.answerQuotaLeaseId = r.answerQuotaLeaseId :=
  congrArg (fun k => k.2.2.2.2.2.2) h.identity

/-- A terminal row keeps its status. -/
theorem RunRow.Follows.terminal {r r' : RunRow} (h : r.Follows r')
    (ht : r.status.isActive = false) : r'.status = r.status := by
  rcases h.change with ⟨hs, _⟩ | ⟨ha, _, _⟩
  · exact hs
  · rw [ht] at ha
    cases ha

/-- A row that is active now was active before. -/
theorem RunRow.Follows.active {r r' : RunRow} (h : r.Follows r')
    (ha : r'.status.isActive = true) : r.status.isActive = true := by
  rcases h.change with ⟨hs, _⟩ | ⟨ha', _, _⟩
  · rw [← hs]
    exact ha
  · exact ha'

theorem TerminalStatus.run_isActive (status : TerminalStatus) : status.run.isActive = false := by
  cases status <;> rfl

/-- The rows of a settling: the settled run, and the others as they were. -/
theorem runs_settling {db db' : AgentDb} (hu : UniqueOn (·.id) db.runs) {current : RunRow}
    {status : TerminalStatus} (h : Settling db db' current status) :
    ∀ r' ∈ db'.runs, (r' ∈ db.runs ∧ r'.id ≠ current.id) ∨
      (current.Follows r' ∧ r'.status = status.run) := by
  obtain ⟨f, hf, he⟩ := h.runs
  intro r' hr'
  rw [he] at hr'
  obtain ⟨r, hr, rfl⟩ := mem_updateWhere.mp hr'
  by_cases e : r.id = current.id
  · right
    have hrc : r = current := hu.eq hr h.mem e
    obtain ⟨hid, hst, hc⟩ := hf r
    rw [if_pos (by rw [e]; exact beq_self_eq_true _), ← hrc]
    refine ⟨⟨hid, ?_⟩, hst⟩
    rw [hst]
    by_cases ha : r.status.isActive = true
    · right
      refine ⟨ha, status.run_isActive, fun hm => ?_⟩
      rcases h.cancelled (hrc ▸ ha) (hrc ▸ hm) with hs | hs
      · exact Or.inl (by rw [hs]; rfl)
      · exact Or.inr (by rw [hs]; rfl)
    · left
      rcases h.guard with hg | hg
      · exact absurd (hrc ▸ hg) ha
      · exact ⟨by rw [hrc, hg], fun hm => by rw [hc]; exact hm⟩
  · left
    rw [if_neg (by simpa using e)]
    exact ⟨hr, e⟩

/-- Every old row lives on in a row that follows it. -/
theorem runs_kept {db db' : AgentDb} (hu : UniqueOn (·.id) db.runs) (h : Effect db db') :
    ∀ r ∈ db.runs, ∃ r' ∈ db'.runs, r.Follows r' := by
  intro r hr
  cases h with
  | quiet h => exact ⟨r, h.runs ▸ hr, RunRow.Follows.refl r⟩
  | creation turn run added h =>
    refine ⟨r, ?_, RunRow.Follows.refl r⟩
    rw [h.runs]
    exact List.mem_append_left _ hr
  | settling current status h _ =>
    obtain ⟨f, hf, he⟩ := h.runs
    have hmem : (if r.id == current.id then f r else r) ∈ db'.runs := by
      rw [he]
      exact mem_updateWhere_of_mem hr
    refine ⟨_, hmem, ?_⟩
    rcases runs_settling hu h _ hmem with ⟨_, hne⟩ | ⟨hfol, _⟩
    · split at hne
      · next e =>
          have hid : (f r).id = r.id := congrArg (fun k => k.1) (hf r).1
          exact absurd (hid.trans (beq_iff_eq.mp e)) hne
      · next e =>
          rw [if_neg e]
          exact RunRow.Follows.refl r
    · have hid := hfol.id_eq
      have hrc : r = current := by
        refine hu.eq hr h.mem ?_
        split at hid
        · next e => exact beq_iff_eq.mp e
        · exact hid
      exact hrc ▸ hfol
  | cancelling current now h =>
    rw [h.runs]
    refine ⟨_, mem_updateWhere_of_mem hr, ?_⟩
    split
    · exact ⟨rfl, Or.inl ⟨rfl, fun _ => rfl⟩⟩
    · exact RunRow.Follows.refl r

/-- **Every row after an effect** follows an old row, or is a new running one. -/
theorem runs_effect {db db' : AgentDb} (hu : UniqueOn (·.id) db.runs) (h : Effect db db') :
    db.nextId ≤ db'.nextId ∧ ∀ r' ∈ db'.runs, (∃ r ∈ db.runs, r.Follows r') ∨
      (db.nextId ≤ r'.id ∧ r'.status = .running) := by
  cases h with
  | quiet h =>
    refine ⟨h.nextId, fun r' hr' => ?_⟩
    rw [h.runs] at hr'
    exact Or.inl ⟨r', hr', RunRow.Follows.refl r'⟩
  | creation turn run added h =>
    refine ⟨h.nextId, fun r' hr' => ?_⟩
    rw [h.runs] at hr'
    rcases List.mem_append.mp hr' with hr' | hr'
    · exact Or.inl ⟨r', hr', RunRow.Follows.refl r'⟩
    · rw [List.mem_singleton.mp hr']
      exact Or.inr ⟨h.fresh, h.status⟩
  | settling current status h _ =>
    refine ⟨Nat.le_of_eq h.nextId.symm, fun r' hr' => ?_⟩
    rcases runs_settling hu h r' hr' with ⟨hr, _⟩ | ⟨hf, _⟩
    · exact Or.inl ⟨r', hr, RunRow.Follows.refl r'⟩
    · exact Or.inl ⟨current, h.mem, hf⟩
  | cancelling current now h =>
    refine ⟨Nat.le_of_eq h.nextId.symm, fun r' hr' => ?_⟩
    rw [h.runs] at hr'
    obtain ⟨r, hr, rfl⟩ := mem_updateWhere.mp hr'
    refine Or.inl ⟨r, hr, ?_⟩
    split
    · exact ⟨rfl, Or.inl ⟨rfl, fun _ => rfl⟩⟩
    · exact RunRow.Follows.refl r

/-- The turns after an effect: the old ones with their keys, and at most one new turn. -/
theorem turns_effect {db db' : AgentDb} (h : Effect db db') :
    (∀ t ∈ db.turns, ∃ t' ∈ db'.turns, t'.id = t.id ∧ t'.conversationId = t.conversationId) ∧
    ∀ t' ∈ db'.turns, (∃ t ∈ db.turns, t'.id = t.id ∧ t'.conversationId = t.conversationId) ∨
      db.nextId ≤ t'.id := by
  have hsame : db'.turns = db.turns →
      (∀ t ∈ db.turns, ∃ t' ∈ db'.turns, t'.id = t.id ∧ t'.conversationId = t.conversationId) ∧
      ∀ t' ∈ db'.turns, (∃ t ∈ db.turns, t'.id = t.id ∧ t'.conversationId = t.conversationId) ∨
        db.nextId ≤ t'.id := by
    intro e
    rw [e]
    exact ⟨fun t ht => ⟨t, ht, rfl, rfl⟩, fun t ht => Or.inl ⟨t, ht, rfl, rfl⟩⟩
  cases h with
  | quiet h => exact hsame h.turns
  | creation turn run added h =>
    cases h.kind with
    | initial turns selected fresh old version action =>
      rw [turns]
      refine ⟨fun t ht => ⟨t, List.mem_append_left _ ht, rfl, rfl⟩, fun t' ht' => ?_⟩
      rcases List.mem_append.mp ht' with ht' | ht'
      · exact Or.inl ⟨t', ht', rfl, rfl⟩
      · rw [List.mem_singleton.mp ht']
        exact Or.inr fresh
    | action turns mem version allowed => exact hsame turns
  | settling current status h own =>
    rcases h.turns with e | ⟨turnId, _, e⟩
    · exact hsame e
    · rw [e]
      constructor
      · intro t ht
        refine ⟨_, mem_updateWhere_of_mem ht, ?_⟩
        split <;> exact ⟨rfl, rfl⟩
      · intro t' ht'
        obtain ⟨t, ht, rfl⟩ := mem_updateWhere.mp ht'
        refine Or.inl ⟨t, ht, ?_⟩
        split <;> exact ⟨rfl, rfl⟩
  | cancelling current now h => exact hsame h.turns

/-! ## 2. The invariant -/

/-- The run belongs to a turn of the conversation. -/
def InConversation (db : AgentDb) (r : RunRow) (conversationId : Nat) : Prop :=
  ∃ t ∈ db.turns, t.id = r.turnId ∧ t.conversationId = conversationId

/-- What the lease of a terminal run must be. -/
def RunStatus.leaseStatus (status : RunStatus) : QuotaReservationStatus :=
  if status = .completed then .committed else .released

/-- **The lifecycle invariant.** -/
structure Lifecycle (db : AgentDb) : Prop where
  quota : Sound db.quota
  turnIds : UniqueOn (·.id) db.turns
  turnOld : ∀ t ∈ db.turns, t.id < db.nextId
  runIds : UniqueOn (·.id) db.runs
  runOld : ∀ r ∈ db.runs, r.id < db.nextId
  runTurn : ∀ r ∈ db.runs, ∃ t ∈ db.turns, t.id = r.turnId
  lease : ∀ r ∈ db.runs, r.answerQuotaLeaseId.isSome = true
  single : ∀ r ∈ db.runs, ∀ r' ∈ db.runs, r.status.isActive = true → r'.status.isActive = true →
    ∀ conversationId, InConversation db r conversationId → InConversation db r' conversationId →
      r = r'
  settled : ∀ r ∈ db.runs, r.status.isActive = false → ∀ leaseId,
    r.answerQuotaLeaseId = some leaseId → r.settlementStatus = .completed →
      LeaseIs db.quota leaseId r.status.leaseStatus

theorem RunStatus.leaseStatus_ne_reserved (status : RunStatus) : status.leaseStatus ≠ .reserved := by
  unfold RunStatus.leaseStatus
  split <;> exact fun e => QuotaReservationStatus.noConfusion e

theorem TerminalStatus.expected_status (status : TerminalStatus) :
    status.expected.status = status.run.leaseStatus := by
  cases status <;> rfl

theorem lifecycle_initial (users : List UserRow) (conversations : List ConversationRow) :
    Lifecycle (initial users conversations).db where
  quota := sound_initial users
  turnIds := UniqueOn.nil _
  turnOld _ h := absurd h List.not_mem_nil
  runIds := UniqueOn.nil _
  runOld _ h := absurd h List.not_mem_nil
  runTurn _ h := absurd h List.not_mem_nil
  lease _ h := absurd h List.not_mem_nil
  single _ h := absurd h List.not_mem_nil
  settled _ h := absurd h List.not_mem_nil

/-- A run whose turn is old stays in the conversations it was in, and joins no other. -/
theorem inConversation_effect {db db' : AgentDb} (hl : Lifecycle db) (h : Effect db db')
    {r r' : RunRow} (hr : r ∈ db.runs) (hf : r.Follows r') {conversationId : Nat}
    (hc : InConversation db' r' conversationId) : InConversation db r conversationId := by
  obtain ⟨t', ht', e, ec⟩ := hc
  rw [hf.turnId_eq] at e
  rcases (turns_effect h).2 t' ht' with ⟨t, ht, e1, e2⟩ | hnew
  · exact ⟨t, ht, e1.symm.trans e, e2.symm.trans ec⟩
  · obtain ⟨t, ht, e1⟩ := hl.runTurn r hr
    have := hl.turnOld t ht
    omega

/-- The keys of the turns stay unique and old. -/
theorem turnKeys_effect {db db' : AgentDb} (hl : Lifecycle db) (h : Effect db db') :
    UniqueOn (·.id) db'.turns ∧ ∀ t ∈ db'.turns, t.id < db'.nextId := by
  have hn := (runs_effect hl.runIds h).1
  have hsame : db'.turns = db.turns →
      UniqueOn (·.id) db'.turns ∧ ∀ t ∈ db'.turns, t.id < db'.nextId := by
    intro e
    rw [e]
    exact ⟨hl.turnIds, fun t ht => Nat.lt_of_lt_of_le (hl.turnOld t ht) hn⟩
  cases h with
  | quiet h => exact hsame h.turns
  | creation turn run added h =>
    cases h.kind with
    | initial turns selected fresh old version action =>
      rw [turns]
      constructor
      · refine hl.turnIds.append_one fun t ht e => ?_
        have := hl.turnOld t ht
        omega
      · intro t ht
        rcases List.mem_append.mp ht with ht | ht
        · exact Nat.lt_of_lt_of_le (hl.turnOld t ht) hn
        · rw [List.mem_singleton.mp ht]
          exact old
    | action turns mem version allowed => exact hsame turns
  | settling current status h own =>
    rcases h.turns with e | ⟨turnId, _, e⟩
    · exact hsame e
    · rw [e]
      refine ⟨hl.turnIds.updateWhere fun _ => rfl, fun t' ht' => ?_⟩
      obtain ⟨t, ht, rfl⟩ := mem_updateWhere.mp ht'
      have := hl.turnOld t ht
      split <;> exact Nat.lt_of_lt_of_le this hn
  | cancelling current now h => exact hsame h.turns

/-- The keys of the runs stay unique and old. -/
theorem runKeys_effect {db db' : AgentDb} (hl : Lifecycle db) (h : Effect db db') :
    UniqueOn (·.id) db'.runs ∧ ∀ r ∈ db'.runs, r.id < db'.nextId := by
  have hstem := runs_effect hl.runIds h
  have hold : ∀ r' ∈ db'.runs, (∃ r ∈ db.runs, r.Follows r') → r'.id < db'.nextId := by
    rintro r' _ ⟨r, hr, hf⟩
    rw [hf.id_eq]
    exact Nat.lt_of_lt_of_le (hl.runOld r hr) hstem.1
  cases h with
  | quiet h =>
    rw [h.runs]
    exact ⟨hl.runIds, fun r hr => Nat.lt_of_lt_of_le (hl.runOld r hr) h.nextId⟩
  | creation turn run added h =>
    rw [h.runs]
    constructor
    · refine hl.runIds.append_one fun r hr e => ?_
      have h1 := hl.runOld r hr
      have h2 := h.fresh
      omega
    · intro r hr
      rcases List.mem_append.mp hr with hr | hr
      · exact Nat.lt_of_lt_of_le (hl.runOld r hr) h.nextId
      · rw [List.mem_singleton.mp hr]
        exact h.old
  | settling current status h own =>
    refine ⟨?_, fun r' hr' => ?_⟩
    · obtain ⟨f, hf, e⟩ := h.runs
      rw [e]
      exact hl.runIds.updateWhere fun r => congrArg (fun k => k.1) (hf r).1
    · rcases runs_settling hl.runIds h r' hr' with ⟨hr, _⟩ | ⟨hf, _⟩
      · exact hold r' hr' ⟨r', hr, RunRow.Follows.refl r'⟩
      · exact hold r' hr' ⟨current, h.mem, hf⟩
  | cancelling current now h =>
    rw [h.runs, h.nextId]
    refine ⟨hl.runIds.updateWhere fun _ => rfl, fun r' hr' => ?_⟩
    obtain ⟨r, hr, rfl⟩ := mem_updateWhere.mp hr'
    have := hl.runOld r hr
    split <;> exact this

/-- The quota store advances with every effect. -/
theorem quota_effect {db db' : AgentDb} (hq : Sound db.quota) (h : Effect db db') :
    Advance db.quota db'.quota := by
  cases h with
  | quiet h => exact h.quota
  | creation turn run added h =>
    rw [h.quota]
    exact Advance.refl hq
  | settling current status h own => exact h.quota
  | cancelling current now h =>
    rw [h.quota]
    exact Advance.refl hq

/-- The busy check of a creation: no active run is in the conversation of the new one. -/
theorem creation_idle {db db' : AgentDb} {turn : TurnRow} {run : RunRow} {added : List MessageRow}
    (h : Creation db db' turn run added) {r : RunRow} (hr : r ∈ db.runs)
    (ha : r.status.isActive = true) : ¬ InConversation db r turn.conversationId := by
  rintro ⟨t, ht, e, ec⟩
  have hnone := List.find?_eq_none.mp h.idle r hr
  refine hnone ?_
  rw [ha, Bool.true_and, List.any_eq_true]
  refine ⟨t, ht, ?_⟩
  rw [e, ec, beq_self_eq_true, beq_self_eq_true]
  rfl

/-- A run with a new id is there because the effect created it. -/
theorem creation_of_new {db db' : AgentDb} (hl : Lifecycle db) (h : Effect db db') {r : RunRow}
    (hr : r ∈ db'.runs) (hn : db.nextId ≤ r.id) :
    ∃ turn added, Creation db db' turn r added := by
  have hid := (runKeys_effect hl h).2 r hr
  cases h with
  | quiet h =>
    rw [h.runs] at hr
    have := hl.runOld r hr
    omega
  | creation turn run added h =>
    rw [h.runs] at hr
    rcases List.mem_append.mp hr with hr | hr
    · have := hl.runOld r hr
      omega
    · rw [List.mem_singleton.mp hr]
      exact ⟨turn, added, h⟩
  | settling current status h own =>
    rw [h.nextId] at hid
    omega
  | cancelling current now h =>
    rw [h.nextId] at hid
    omega

/-- The new run is in the conversation of its turn and in no other. -/
theorem inConversation_creation {db db' : AgentDb} (hl : Lifecycle db) {turn : TurnRow}
    {run : RunRow} {added : List MessageRow} (h : Creation db db' turn run added)
    {conversationId : Nat} (hc : InConversation db' run conversationId) :
    turn.conversationId = conversationId := by
  obtain ⟨t', ht', e, ec⟩ := hc
  have hturn : turn ∈ db'.turns := by
    cases h.kind with
    | initial turns _ _ _ _ _ =>
      rw [turns]
      exact List.mem_append_right _ List.mem_cons_self
    | action turns mem _ _ =>
      rw [turns]
      exact mem
  have hu := (turnKeys_effect hl (.creation turn run added h)).1
  rw [← ec, hu.eq ht' hturn (e.trans h.turnId)]

/-- **One active run for each conversation**, after every effect. -/
theorem single_effect {db db' : AgentDb} (hl : Lifecycle db) (h : Effect db db') :
    ∀ r ∈ db'.runs, ∀ r' ∈ db'.runs, r.status.isActive = true → r'.status.isActive = true →
      ∀ conversationId, InConversation db' r conversationId →
        InConversation db' r' conversationId → r = r' := by
  have hstem := (runs_effect hl.runIds h).2
  -- a new run meets no old active run in its conversation, and there is one new run at most
  have hnew : ∀ x ∈ db'.runs, ∀ y ∈ db'.runs, db.nextId ≤ x.id → y.status.isActive = true →
      ∀ c, InConversation db' x c → InConversation db' y c → x = y := by
    intro x hx y hy hn hya c hc hc'
    obtain ⟨turn, added, hcr⟩ := creation_of_new hl h hx hn
    rcases hstem y hy with ⟨y₀, hy₀, hf⟩ | ⟨hn', _⟩
    · have hold := inConversation_effect hl h hy₀ hf hc'
      rw [← inConversation_creation hl hcr hc] at hold
      exact absurd hold (creation_idle hcr hy₀ (hf.active hya))
    · obtain ⟨turn', added', hcr'⟩ := creation_of_new hl h hy hn'
      have e := hcr.runs.symm.trans hcr'.runs
      exact (List.cons.inj (List.append_cancel_left e)).1
  intro r hr r' hr' ha ha' c hc hc'
  rcases hstem r hr with ⟨r₀, hr₀, hf⟩ | ⟨hn, _⟩
  · rcases hstem r' hr' with ⟨r₀', hr₀', hf'⟩ | ⟨hn', _⟩
    · -- two rows that follow old rows are equal because the old rows are
      have e := hl.single r₀ hr₀ r₀' hr₀' (hf.active ha) (hf'.active ha') c
        (inConversation_effect hl h hr₀ hf hc) (inConversation_effect hl h hr₀' hf' hc')
      refine (runKeys_effect hl h).1.eq hr hr' ?_
      show r.id = r'.id
      rw [hf.id_eq, hf'.id_eq, e]
    · exact (hnew r' hr' r hr hn' ha c hc' hc).symm
  · exact hnew r hr r' hr' hn ha' c hc hc'

/-- **The lease of every settled run**, after every effect. -/
theorem settled_effect {db db' : AgentDb} (hl : Lifecycle db) (h : Effect db db') :
    ∀ r ∈ db'.runs, r.status.isActive = false → ∀ leaseId,
      r.answerQuotaLeaseId = some leaseId → r.settlementStatus = .completed →
        LeaseIs db'.quota leaseId r.status.leaseStatus := by
  have hadv := quota_effect hl.quota h
  -- a row that was there unchanged: its lease is settled already, and stays so
  have hkeep : ∀ r ∈ db.runs, r.status.isActive = false → ∀ leaseId,
      r.answerQuotaLeaseId = some leaseId → r.settlementStatus = .completed →
        LeaseIs db'.quota leaseId r.status.leaseStatus := by
    intro r hr ha leaseId hlease hs
    exact leaseIs_advance hl.quota r.status.leaseStatus_ne_reserved
      (hl.settled r hr ha leaseId hlease hs) hadv
  intro r hr ha leaseId hlease hs
  cases h with
  | quiet h =>
    rw [h.runs] at hr
    exact hkeep r hr ha leaseId hlease hs
  | creation turn run added h =>
    rw [h.runs] at hr
    rcases List.mem_append.mp hr with hr | hr
    · exact hkeep r hr ha leaseId hlease hs
    · rw [List.mem_singleton.mp hr, h.status] at ha
      cases ha
  | settling current status h own =>
    rcases runs_settling hl.runIds h r hr with ⟨hr, _⟩ | ⟨hf, hst⟩
    · exact hkeep r hr ha leaseId hlease hs
    · have := h.lease leaseId (hf.lease_eq ▸ hlease)
      rw [status.expected_status, ← hst] at this
      exact this
  | cancelling current now h =>
    rw [h.runs] at hr
    obtain ⟨r₀, hr₀, rfl⟩ := mem_updateWhere.mp hr
    split at ha <;> rename_i e
    · rw [if_pos e] at hlease hs ⊢
      exact hkeep r₀ hr₀ ha leaseId hlease hs
    · rw [if_neg e] at hlease hs ⊢
      exact hkeep r₀ hr₀ ha leaseId hlease hs

/-- **Every effect preserves the invariant.** -/
theorem lifecycle_effect {db db' : AgentDb} (hl : Lifecycle db) (h : Effect db db') :
    Lifecycle db' where
  quota := (quota_effect hl.quota h).sound
  turnIds := (turnKeys_effect hl h).1
  turnOld := (turnKeys_effect hl h).2
  runIds := (runKeys_effect hl h).1
  runOld := (runKeys_effect hl h).2
  runTurn := by
    intro r' hr'
    rcases (runs_effect hl.runIds h).2 r' hr' with ⟨r, hr, hf⟩ | ⟨hn, _⟩
    · obtain ⟨t, ht, e⟩ := hl.runTurn r hr
      obtain ⟨t', ht', e', _⟩ := (turns_effect h).1 t ht
      exact ⟨t', ht', e'.trans (e.trans hf.turnId_eq.symm)⟩
    · obtain ⟨turn, added, hcr⟩ := creation_of_new hl h hr' hn
      cases hcr.kind with
      | initial turns _ _ _ _ _ =>
        rw [turns]
        exact ⟨turn, List.mem_append_right _ List.mem_cons_self, hcr.turnId.symm⟩
      | action turns mem _ _ =>
        rw [turns]
        exact ⟨turn, mem, hcr.turnId.symm⟩
  lease := by
    intro r' hr'
    rcases (runs_effect hl.runIds h).2 r' hr' with ⟨r, hr, hf⟩ | ⟨hn, _⟩
    · rw [hf.lease_eq]
      exact hl.lease r hr
    · obtain ⟨turn, added, hcr⟩ := creation_of_new hl h hr' hn
      exact hcr.lease
  single := single_effect hl h
  settled := settled_effect hl h

/-- A handle that agrees with its run keeps agreeing. -/
theorem agrees_effect {db db' : AgentDb} (hl : Lifecycle db) (h : Effect db db')
    {handle : CreatedRun} (ha : Agrees db handle) : Agrees db' handle := by
  obtain ⟨hn, hstem⟩ := runs_effect hl.runIds h
  refine ⟨Nat.lt_of_lt_of_le ha.1 hn, fun r' hr' e => ?_⟩
  rcases hstem r' hr' with ⟨r, hr, hf⟩ | ⟨hnew, _⟩
  · rw [hf.turnId_eq]
    exact ha.2 r hr (hf.id_eq.symm.trans e)
  · have := ha.1
    omega

/-- The active runs of a conversation, as `findActiveRun` looks for them. -/
def activeRuns (db : AgentDb) (conversationId : Nat) : List RunRow :=
  db.runs.filter fun r =>
    r.status.isActive && db.turns.any fun t => t.id == r.turnId && t.conversationId == conversationId

theorem activeRuns_length {db : AgentDb} (h : Lifecycle db) (conversationId : Nat) :
    (activeRuns db conversationId).length ≤ 1 := by
  have hmem : ∀ r ∈ activeRuns db conversationId,
      r ∈ db.runs ∧ r.status.isActive = true ∧ InConversation db r conversationId := by
    intro r hr
    obtain ⟨hr, hp⟩ := List.mem_filter.mp hr
    rw [Bool.and_eq_true, List.any_eq_true] at hp
    obtain ⟨ha, t, ht, e⟩ := hp
    rw [Bool.and_eq_true, beq_iff_eq, beq_iff_eq] at e
    exact ⟨hr, ha, t, ht, e.1, e.2⟩
  refine length_le_one (h.runIds.nodup.filter _) fun r hr r' hr' => ?_
  obtain ⟨hr, ha, hc⟩ := hmem r hr
  obtain ⟨hr', ha', hc'⟩ := hmem r' hr'
  exact h.single r hr r' hr' ha ha' conversationId hc hc'

/-! ## 3. Runs of the machine -/

/-- The invariant of the machine: the tables, and the handles the processes hold. -/
structure Inv (s : System) : Prop where
  tables : Lifecycle s.db
  handles : ∀ c ∈ s.created, Agrees s.db c

theorem inv_initial (users : List UserRow) (conversations : List ConversationRow) :
    Inv (initial users conversations) :=
  ⟨lifecycle_initial users conversations, fun _ h => absurd h List.not_mem_nil⟩

/-- A new handle agrees with the run it names. -/
theorem agrees_creation {db db' : AgentDb} (hl : Lifecycle db) {turn : TurnRow} {run : RunRow}
    {added : List MessageRow} (h : Creation db db' turn run added) {result : CreateRunResult}
    (hh : Handed result turn run) : ∀ c ∈ result.handles, Agrees db' c := by
  obtain ⟨handle, hl', e1, e2⟩ := hh
  intro c hc
  rw [hl', List.mem_singleton] at hc
  rw [hc]
  refine ⟨e1 ▸ h.old, fun r hr e => ?_⟩
  have hrun : run ∈ db'.runs := by
    rw [h.runs]
    exact List.mem_append_right _ List.mem_cons_self
  have hu := (runKeys_effect hl (.creation turn run added h)).1
  rw [hu.eq hr hrun (e.trans e1), h.turnId, e2]

/-- The run was cancelled in time: it has no answer, and while it is active it is marked. -/
def RunRow.Refused (r : RunRow) : Prop :=
  r.status = .failed ∨ r.status = .cancelled ∨
    (r.status.isActive = true ∧ r.cancelRequestedAt.isSome = true)

theorem RunRow.Refused.follows {r r' : RunRow} (hf : r.Follows r') (h : r.Refused) :
    r'.Refused := by
  have hterminal : r.status = .failed ∨ r.status = .cancelled → r'.Refused := by
    intro hs
    have ht : r.status.isActive = false := by
      rcases hs with hs | hs <;> rw [hs] <;> rfl
    rw [← hf.terminal ht] at hs
    exact hs.imp (fun h => h) Or.inl
  rcases h with hs | hs | ⟨ha, hm⟩
  · exact hterminal (Or.inl hs)
  · exact hterminal (Or.inr hs)
  · rcases hf.change with ⟨hs, hc⟩ | ⟨_, _, hc⟩
    · exact Or.inr (Or.inr ⟨by rw [hs]; exact ha, hc hm⟩)
    · exact (hc hm).imp (fun h => h) Or.inl

/-- The pool of handles after a create transaction. -/
theorem handles_create {s : System} (h : Inv s)
    {tx : Except AgentError (CreateRunResult × AgentDb)}
    (hok : ∀ result db', tx = .ok (result, db') → (Quiet s.db db' ∧ result.handles = []) ∨
      ∃ turn run added, Creation s.db db' turn run added ∧ Handed result turn run) :
    ∀ c ∈ (s.commitCreate tx).created, Agrees (s.commitCreate tx).db c := by
  cases tx with
  | error e => exact h.handles
  | ok r =>
    intro c hc
    rcases hok r.1 r.2 rfl with ⟨hq, hnil⟩ | ⟨turn, run, added, hcr, hh⟩
    · have hc' : c ∈ s.created ++ r.1.handles := hc
      rw [hnil, List.append_nil] at hc'
      exact agrees_effect h.tables (.quiet hq) (h.handles c hc')
    · rcases List.mem_append.mp hc with hc | hc
      · exact agrees_effect h.tables (.creation turn run added hcr) (h.handles c hc)
      · exact agrees_creation h.tables hcr hh c hc

section Machine

variable [Collation] [StoredFormats]

/-- The other transactions hand out nothing. -/
theorem created_step (s : System) (op : AgentOp) :
    (∃ now input, op = .createInitial now input) ∨ (∃ now input, op = .createAction now input) ∨
      (step s op).created = s.created := by
  cases op with
  | createInitial now input => exact Or.inl ⟨now, input, rfl⟩
  | createAction now input => exact Or.inr (Or.inl ⟨now, input, rfl⟩)
  | complete now input =>
    refine Or.inr (Or.inr ?_)
    simp only [step]
    split <;> rfl
  | fail now input =>
    refine Or.inr (Or.inr ?_)
    simp only [step]
    split <;> rfl
  | requestCancellation now userId runId => exact Or.inr (Or.inr rfl)
  | readStale scope staleBefore => exact Or.inr (Or.inr rfl)
  | recover now candidate =>
    refine Or.inr (Or.inr ?_)
    simp only [step]
    split <;> rfl
  | readOrphans scope staleBefore => exact Or.inr (Or.inr rfl)
  | releaseOrphan orphan =>
    refine Or.inr (Or.inr ?_)
    simp only [step]
    split <;> rfl
  | reserveQuota now input => exact Or.inr (Or.inr rfl)
  | commitQuota input => exact Or.inr (Or.inr rfl)
  | releaseQuota input => exact Or.inr (Or.inr rfl)

/-- **One step preserves the invariant.** -/
theorem inv_step (s : System) (op : AgentOp) (h : Inv s) : Inv (step s op) := by
  have heff := effect_step h.tables.quota h.handles op
  refine ⟨lifecycle_effect h.tables heff, ?_⟩
  rcases created_step s op with ⟨now, input, rfl⟩ | ⟨now, input, rfl⟩ | e
  · exact handles_create h fun result db' hok => createInitial_ok h.tables.quota hok
  · exact handles_create h fun result db' hok => createAction_ok h.tables.quota hok
  · rw [e]
    exact fun c hc => agrees_effect h.tables heff (h.handles c hc)

theorem inv_run (users : List UserRow) (conversations : List ConversationRow)
    (ops : List AgentOp) : Inv (Machine.run step (initial users conversations) ops) :=
  Machine.run_invariant (inv_initial users conversations) inv_step ops

/-- The rows of a run's id keep a property that every change of a row keeps. -/
theorem kept_run {s : System} (h : Inv s) {runId : Nat} (hn : runId < s.db.nextId)
    {K : RunRow → Prop} (hk : ∀ r ∈ s.db.runs, r.id = runId → K r)
    (hf : ∀ r r' : RunRow, r.Follows r' → K r → K r') (more : List AgentOp) :
    ∀ r ∈ (Machine.run step s more).db.runs, r.id = runId → K r := by
  refine (Machine.run_stable (Q := fun s : System => runId < s.db.nextId ∧
    ∀ r ∈ s.db.runs, r.id = runId → K r) h ⟨hn, hk⟩ inv_step ?_ more).2
  intro s op h hq
  have heff := effect_step h.tables.quota h.handles op
  obtain ⟨hn, hstem⟩ := runs_effect h.tables.runIds heff
  refine ⟨Nat.lt_of_lt_of_le hq.1 hn, fun r' hr' e => ?_⟩
  rcases hstem r' hr' with ⟨r, hr, hfol⟩ | ⟨hnew, _⟩
  · exact hf r r' hfol (hq.2 r hr (hfol.id_eq.symm.trans e))
  · have := hq.1
    omega

/-- **A terminal run keeps its status.** -/
theorem terminal_run {s : System} (h : Inv s) {r : RunRow} (hr : r ∈ s.db.runs)
    (ht : r.status.isActive = false) (more : List AgentOp) :
    ∀ r' ∈ (Machine.run step s more).db.runs, r'.id = r.id → r'.status = r.status := by
  refine kept_run h (h.tables.runOld r hr) (K := fun r' => r'.status = r.status) ?_ ?_ more
  · intro r' hr' e
    rw [h.tables.runIds.eq hr' hr e]
  · intro r₁ r₂ hf e
    rw [hf.terminal (e ▸ ht), e]

/-- **An accepted cancellation is final**: the run never gets an answer. -/
theorem cancelled_run {s : System} (h : Inv s) {now : Int} {userId : String} {runId : Nat}
    {db' : AgentDb} (hok : requestCancellation s.db now userId runId = .ok (.accepted, db'))
    (more : List AgentOp) :
    ∀ r ∈ (Machine.run step { s with db := db' } more).db.runs, r.id = runId →
      r.status ≠ .completed ∧ r.status ≠ .incomplete := by
  have hinv : Inv { s with db := db' } := by
    have := inv_step s (.requestCancellation now userId runId) h
    simp only [step, System.commitDb, hok, Machine.commit] at this
    exact this
  have hrefused : ∀ r ∈ (Machine.run step { s with db := db' } more).db.runs, r.id = runId →
      r.Refused := by
    rcases requestCancellation_ok hok with ⟨_, hne⟩ | ⟨current, hid, hc⟩
    · exact absurd rfl hne
    · refine kept_run hinv ?_ ?_ (fun r r' hf hr => hr.follows hf) more
      · show runId < db'.nextId
        rw [hc.nextId, ← hid]
        exact h.tables.runOld current hc.mem
      · intro r hr e
        have hr' : r ∈ db'.runs := hr
        rw [hc.runs] at hr'
        obtain ⟨r₀, hr₀, rfl⟩ := mem_updateWhere.mp hr'
        by_cases e₀ : r₀.id = current.id
        · rw [if_pos (by rw [e₀]; exact beq_self_eq_true _), h.tables.runIds.eq hr₀ hc.mem e₀]
          exact Or.inr (Or.inr ⟨hc.active, rfl⟩)
        · rw [if_neg (by simpa using e₀)] at e
          exact absurd (e.trans hid.symm) e₀
  intro r hr e
  rcases hrefused r hr e with hs | hs | ⟨ha, _⟩
  · rw [hs]
    exact ⟨fun e => RunStatus.noConfusion e, fun e => RunStatus.noConfusion e⟩
  · rw [hs]
    exact ⟨fun e => RunStatus.noConfusion e, fun e => RunStatus.noConfusion e⟩
  · constructor <;>
    · intro hs
      rw [hs] at ha
      cases ha

/-- **Run lifecycle safety**, in every state reachable by any interleaving of the transactions
    on runs, of the two halves of stale recovery, and of the other users of the quota store:

    * at most one run of a conversation is pending or running;
    * a terminal run keeps its status whatever follows;
    * once a cancellation is accepted, the run never becomes completed or incomplete;
    * the lease of a terminal, settled run exists, and all of it is committed when the run is
      completed and released otherwise. -/
theorem run_lifecycle_safety (users : List UserRow) (conversations : List ConversationRow)
    (ops : List AgentOp) :
    let s := Machine.run step (initial users conversations) ops
    (∀ conversationId, (activeRuns s.db conversationId).length ≤ 1) ∧
    (∀ r ∈ s.db.runs, r.status.isActive = false → ∀ more : List AgentOp,
      ∀ r' ∈ (Machine.run step s more).db.runs, r'.id = r.id → r'.status = r.status) ∧
    (∀ (now : Int) (userId : String) (runId : Nat) (db' : AgentDb),
      requestCancellation s.db now userId runId = .ok (.accepted, db') →
      ∀ more : List AgentOp, ∀ r ∈ (Machine.run step { s with db := db' } more).db.runs,
        r.id = runId → r.status ≠ .completed ∧ r.status ≠ .incomplete) ∧
    (∀ r ∈ s.db.runs, r.status.isActive = false → r.settlementStatus = .completed →
      ∃ leaseId, r.answerQuotaLeaseId = some leaseId ∧
        (∃ q ∈ s.db.quota.ledger, q.leaseId = leaseId) ∧
        ∀ q ∈ s.db.quota.ledger, q.leaseId = leaseId →
          q.status = if r.status = .completed then .committed else .released) := by
  intro s
  have h : Inv s := inv_run users conversations ops
  refine ⟨activeRuns_length h.tables, fun r hr ht more => terminal_run h hr ht more,
    fun now userId runId db' hok more => cancelled_run h hok more, fun r hr ht hs => ?_⟩
  obtain ⟨leaseId, hlease⟩ := Option.isSome_iff_exists.mp (h.tables.lease r hr)
  obtain ⟨hex, hall⟩ := h.tables.settled r hr ht leaseId hlease hs
  exact ⟨leaseId, hlease, hex, hall⟩

end Machine

end OpenVac.Agent
