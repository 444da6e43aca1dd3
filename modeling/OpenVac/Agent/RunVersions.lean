/-
  File:      OpenVac/Agent/RunVersions.lean
  Subject:   Turns, versions, sequences and repeated requests over whole runs of the machine.

  * `Versions db` -- the invariant: the versions of a turn count 1..n in the order of creation,
    a later version rests on the outcome of the one before it, a selected run is a completed
    run of its turn, the messages of a conversation are in increasing sequence, and no client
    request has two runs.
  * `versions_effect`, `predecessor_effect`, `selected_effect`, `sequences_effect`,
    `requests_effect` -- each part after one effect.
  * `turn_version_invariant` -- the result over every run.
-/
import OpenVac.Agent.RunLifecycle

namespace OpenVac.Agent

open Rows Quota

/-- The versions of a turn, in the order the runs were created. -/
def turnVersions (db : AgentDb) (turnId : Nat) : List Int :=
  (db.runs.filter fun r => r.turnId == turnId).map (·.version)

/-- The run is a first version, or the version before it ended as its action demands. -/
def Predecessor (db : AgentDb) (r : RunRow) : Prop :=
  (r.action = .initial ∧ r.version = 1) ∨
    ∃ p ∈ db.runs, p.turnId = r.turnId ∧ p.version + 1 = r.version ∧
      actionAllowed r.action (some p.status) = true

/-- **The invariant of turns and versions.** -/
structure Versions (db : AgentDb) : Prop where
  versions : ∀ turnId, ∃ n : Nat,
    turnVersions db turnId = (List.range n).map fun i : Nat => (i : Int) + 1
  predecessor : ∀ r ∈ db.runs, Predecessor db r
  selected : ∀ t ∈ db.turns, ∀ runId, t.selectedRunId = some runId →
    ∃ r ∈ db.runs, r.id = runId ∧ r.turnId = t.id ∧ r.status = .completed
  sequences : db.messages.Pairwise fun m m' =>
    m.conversationId = m'.conversationId → m.sequence < m'.sequence
  requests : UniqueOn (fun r : RunRow => (r.userId, r.clientRequestId)) db.runs

theorem versions_initial (users : List UserRow) (conversations : List ConversationRow) :
    Versions (initial users conversations).db where
  versions _ := ⟨0, rfl⟩
  predecessor _ h := absurd h List.not_mem_nil
  selected _ h := absurd h List.not_mem_nil
  sequences := List.Pairwise.nil
  requests := UniqueOn.nil _

/-! ## 1. One effect -/

/-- The updates of an effect that creates no run keep every key of every row. -/
theorem map_identity_effect {db db' : AgentDb} (h : Effect db db') :
    db'.runs.map RunRow.identity = db.runs.map RunRow.identity ∨
      ∃ turn run added, Creation db db' turn run added := by
  cases h with
  | quiet h => exact Or.inl (by rw [h.runs])
  | creation turn run added h => exact Or.inr ⟨turn, run, added, h⟩
  | settling current status h _ =>
    obtain ⟨f, hf, e⟩ := h.runs
    rw [e]
    exact Or.inl (map_updateWhere (fun r => (hf r).1) _)
  | cancelling current now h =>
    rw [h.runs]
    refine Or.inl (map_updateWhere ?_ _)
    exact fun _ => rfl

/-- The versions of a turn are read from the keys. -/
theorem turnVersions_identity (db : AgentDb) (turnId : Nat) :
    turnVersions db turnId = ((db.runs.map RunRow.identity).filter fun k => k.2.1 == turnId).map
      fun k => k.2.2.2.2.1 := by
  rw [List.filter_map, List.map_map]
  rfl

/-- The versions after a creation: one more for its turn, the same for the others. -/
theorem turnVersions_creation {db db' : AgentDb} {turn : TurnRow} {run : RunRow}
    {added : List MessageRow} (h : Creation db db' turn run added) (turnId : Nat) :
    turnVersions db' turnId =
      turnVersions db turnId ++ if turn.id = turnId then [run.version] else [] := by
  unfold turnVersions
  rw [h.runs, List.filter_append, List.map_append]
  congr 1
  by_cases e : turn.id = turnId
  · rw [if_pos e, List.filter_cons_of_pos (by rw [h.turnId, e]; exact beq_self_eq_true _)]
    rfl
  · rw [if_neg e, List.filter_cons_of_neg (by rw [h.turnId]; simpa using e)]
    rfl

/-- **The versions of every turn keep counting from one.** -/
theorem versions_effect {db db' : AgentDb} (hl : Lifecycle db) (hv : Versions db)
    (h : Effect db db') (turnId : Nat) :
    ∃ n : Nat, turnVersions db' turnId = (List.range n).map fun i : Nat => (i : Int) + 1 := by
  obtain ⟨n, hn⟩ := hv.versions turnId
  rcases map_identity_effect h with e | ⟨turn, run, added, hc⟩
  · exact ⟨n, by rw [turnVersions_identity, e, ← turnVersions_identity, hn]⟩
  · rw [turnVersions_creation hc, hn]
    by_cases e : turn.id = turnId
    · rw [if_pos e]
      subst e
      refine ⟨n + 1, ?_⟩
      have hversion : run.version = (n : Int) + 1 := by
        cases hc.kind with
        | initial turns selected fresh old version action =>
          -- a new turn has no runs yet
          have hnone : turnVersions db turn.id = [] := by
            unfold turnVersions
            rw [List.map_eq_nil_iff, List.filter_eq_nil_iff]
            intro r hr e
            obtain ⟨t, ht, et⟩ := hl.runTurn r hr
            have := hl.turnOld t ht
            have e' := beq_iff_eq.mp e
            omega
          have hlen := congrArg List.length (hn.symm.trans hnone)
          simp only [List.length_map, List.length_range, List.length_nil] at hlen
          rw [version, hlen]
          rfl
        | action turns mem version allowed =>
          rw [version]
          unfold lastVersion
          rw [maxOf_range hn]
      rw [hversion, List.range_succ, List.map_append]
      rfl
    · rw [if_neg e, List.append_nil]
      exact ⟨n, rfl⟩

/-- Only terminal statuses allow an action. -/
theorem terminal_of_actionAllowed {action : AgentAction} {status : RunStatus}
    (h : actionAllowed action (some status) = true) : status.isActive = false := by
  cases action <;> cases status <;> first | rfl | cases h

/-- The version a new run rests on is the latest one of its turn. -/
theorem predecessor_creation {db db' : AgentDb} {turn : TurnRow} {run : RunRow}
    {added : List MessageRow} (h : Creation db db' turn run added) : Predecessor db run := by
  cases h.kind with
  | initial turns selected fresh old version action => exact Or.inl ⟨action, version⟩
  | action turns mem version allowed =>
    right
    rcases maxBy_spec (fun r : RunRow => r.version) (db.runs.filter fun r => r.turnId == turn.id)
      with ⟨_, hnone⟩ | ⟨p, hp, hsome, _⟩
    · have : latestRun db turn.id = none := hnone
      rw [this] at allowed
      cases hact : run.action <;> rw [hact] at allowed <;> cases allowed
    · have hlatest : latestRun db turn.id = some p := hsome
      obtain ⟨hmem, hturn⟩ := List.mem_filter.mp hp
      refine ⟨p, hmem, (beq_iff_eq.mp hturn).trans h.turnId.symm, ?_, ?_⟩
      · have : lastVersion db turn.id = some p.version := by
          unfold lastVersion maxOf
          rw [hsome]
          rfl
        rw [version, this]
        rfl
      · rw [hlatest] at allowed
        exact allowed

/-- **What a run rests on stays**: the outcome of the version before it is final. -/
theorem predecessor_effect {db db' : AgentDb} (hl : Lifecycle db) (hv : Versions db)
    (h : Effect db db') : ∀ r ∈ db'.runs, Predecessor db' r := by
  have hkeep : ∀ r r' : RunRow, Predecessor db r → r'.identity = r.identity → Predecessor db' r' := by
    intro r r' hp e
    have e1 : r'.turnId = r.turnId := congrArg (fun k => k.2.1) e
    have e2 : r'.version = r.version := congrArg (fun k => k.2.2.2.2.1) e
    have e3 : r'.action = r.action := congrArg (fun k => k.2.2.2.2.2.1) e
    unfold Predecessor
    rw [e1, e2, e3]
    rcases hp with hp | ⟨p, hp, ht, hpv, ha⟩
    · exact Or.inl hp
    · obtain ⟨p', hp', hf⟩ := runs_kept hl.runIds h p hp
      refine Or.inr ⟨p', hp', hf.turnId_eq.trans ht, ?_, ?_⟩
      · have e4 : p'.version = p.version := congrArg (fun k => k.2.2.2.2.1) hf.identity
        rw [e4]
        exact hpv
      · rw [hf.terminal (terminal_of_actionAllowed ha)]
        exact ha
  intro r' hr'
  rcases (runs_effect hl.runIds h).2 r' hr' with ⟨r, hr, hf⟩ | ⟨hn, _⟩
  · exact hkeep r r' (hv.predecessor r hr) hf.identity
  · obtain ⟨turn, added, hc⟩ := creation_of_new hl h hr' hn
    exact hkeep r' r' (predecessor_creation hc) rfl

/-- **A selected run stays a completed run of its turn**, and only such a run is selected. -/
theorem selected_effect {db db' : AgentDb} (hl : Lifecycle db) (hv : Versions db)
    (h : Effect db db') : ∀ t ∈ db'.turns, ∀ runId, t.selectedRunId = some runId →
      ∃ r ∈ db'.runs, r.id = runId ∧ r.turnId = t.id ∧ r.status = .completed := by
  -- an old turn with the selection it had
  have hold : ∀ t ∈ db.turns, ∀ runId, t.selectedRunId = some runId →
      ∃ r ∈ db'.runs, r.id = runId ∧ r.turnId = t.id ∧ r.status = .completed := by
    intro t ht runId hs
    obtain ⟨r, hr, e1, e2, e3⟩ := hv.selected t ht runId hs
    obtain ⟨r', hr', hf⟩ := runs_kept hl.runIds h r hr
    refine ⟨r', hr', hf.id_eq.trans e1, hf.turnId_eq.trans e2, ?_⟩
    rw [hf.terminal (by rw [e3]; rfl)]
    exact e3
  intro t ht runId hs
  cases h with
  | quiet h => exact hold t (h.turns ▸ ht) runId hs
  | cancelling current now h => exact hold t (h.turns ▸ ht) runId hs
  | creation turn run added h =>
    cases h.kind with
    | initial turns selected fresh old version action =>
      rw [turns] at ht
      rcases List.mem_append.mp ht with ht | ht
      · exact hold t ht runId hs
      · rw [List.mem_singleton.mp ht, selected] at hs
        cases hs
    | action turns mem version allowed => exact hold t (turns ▸ ht) runId hs
  | settling current status h own =>
    rcases own with e | e
    · exact hold t (e ▸ ht) runId hs
    · rcases h.turns with e' | ⟨_, hcompleted, _⟩
      · exact hold t (e' ▸ ht) runId hs
      · rw [e] at ht
        obtain ⟨t₀, ht₀, rfl⟩ := mem_updateWhere.mp ht
        split at hs
        · next heq =>
            rw [if_pos heq]
            injection hs with hs
            -- the settled run itself was selected
            obtain ⟨r', hr', hf⟩ :=
              runs_kept hl.runIds (.settling current status h (Or.inr e)) current h.mem
            refine ⟨r', hr', hf.id_eq.trans hs, ?_, ?_⟩
            · exact hf.turnId_eq.trans (beq_iff_eq.mp heq).symm
            · rcases runs_settling hl.runIds h r' hr' with ⟨_, hne⟩ | ⟨_, hst⟩
              · exact absurd hf.id_eq hne
              · rw [hst, hcompleted]
                rfl
        · next heq =>
            rw [if_neg heq]
            exact hold t₀ ht₀ runId hs

/-- Updates that leave the conversation and the sequence alone keep the order. -/
theorem pairwise_updateWhere {messages : List MessageRow}
    (h : messages.Pairwise fun m m' => m.conversationId = m'.conversationId → m.sequence < m'.sequence)
    {p : MessageRow → Bool} {f : MessageRow → MessageRow}
    (hf : ∀ m, (f m).conversationId = m.conversationId ∧ (f m).sequence = m.sequence) :
    (updateWhere p f messages).Pairwise fun m m' =>
      m.conversationId = m'.conversationId → m.sequence < m'.sequence := by
  have hcol : ∀ m, (if p m then f m else m).conversationId = m.conversationId ∧
      (if p m then f m else m).sequence = m.sequence := by
    intro m
    split
    · exact hf m
    · exact ⟨rfl, rfl⟩
  unfold updateWhere
  refine List.pairwise_map.mpr (h.imp fun {m m'} hmm e => ?_)
  rw [(hcol m).2, (hcol m').2]
  rw [(hcol m).1, (hcol m').1] at e
  exact hmm e

/-- **Later messages have larger sequences.** -/
theorem sequences_effect {db db' : AgentDb} (hv : Versions db) (h : Effect db db') :
    db'.messages.Pairwise fun m m' =>
      m.conversationId = m'.conversationId → m.sequence < m'.sequence := by
  cases h with
  | quiet h =>
    rw [h.messages]
    exact hv.sequences
  | cancelling current now h =>
    rw [h.messages]
    exact hv.sequences
  | settling current status h own =>
    obtain ⟨p, f, hf, e⟩ := h.messages
    rw [e]
    exact pairwise_updateWhere hv.sequences hf
  | creation turn run added h =>
    rw [h.messages]
    have hadded : added.Pairwise fun m m' =>
        m.conversationId = m'.conversationId → m.sequence < m'.sequence := by
      refine h.increasing.imp ?_
      exact fun hlt _ => hlt
    refine List.pairwise_append.mpr ⟨hv.sequences, hadded, ?_⟩
    intro m hm m' hm' e
    obtain ⟨hconv, hlater⟩ := h.later m' hm'
    -- the new message is past the maximum that the insert read
    have hin : m ∈ db.messages.filter fun x => x.conversationId == turn.conversationId :=
      List.mem_filter.mpr ⟨hm, by rw [e, hconv]; exact beq_self_eq_true _⟩
    obtain ⟨top, htop, hle⟩ := le_maxOf (w := fun x : MessageRow => x.sequence) hin
    unfold lastSequence at hlater
    rw [htop] at hlater
    exact lt_of_le_of_lt hle hlater

/-- **No client request gets a second run.** -/
theorem requests_effect {db db' : AgentDb} (hv : Versions db) (h : Effect db db') :
    UniqueOn (fun r : RunRow => (r.userId, r.clientRequestId)) db'.runs := by
  rcases map_identity_effect h with e | ⟨turn, run, added, hc⟩
  · have hkey : ∀ rows : List RunRow, rows.map (fun r => (r.userId, r.clientRequestId)) =
        (rows.map RunRow.identity).map fun k => (k.2.2.1, k.2.2.2.1) := by
      intro rows
      rw [List.map_map]
      rfl
    unfold UniqueOn
    rw [hkey, e, ← hkey]
    exact hv.requests
  · rw [hc.runs]
    refine hv.requests.append_one fun r hr e => ?_
    obtain ⟨e1, e2⟩ := Prod.mk.inj e
    exact hc.request r hr e1 e2

/-- **Every effect preserves the invariant.** -/
theorem Versions.effect {db db' : AgentDb} (hl : Lifecycle db) (hv : Versions db)
    (h : Effect db db') : Versions db' :=
  ⟨versions_effect hl hv h, predecessor_effect hl hv h, selected_effect hl hv h,
    sequences_effect hv h, requests_effect hv h⟩

/-! ## 2. Runs of the machine -/

section Machine

variable [Collation] [StoredFormats]

theorem versions_run (users : List UserRow) (conversations : List ConversationRow)
    (ops : List AgentOp) : Versions (Machine.run step (initial users conversations) ops).db :=
  Machine.run_stable (Q := fun s : System => Versions s.db) (inv_initial users conversations)
    (versions_initial users conversations) inv_step
    (fun _ op h hv => hv.effect h.tables (effect_step h.tables.quota h.handles op)) ops

/-- **The turn and version invariant**, in every state reachable by any sequence of the
    transactions on runs and of the two halves of stale recovery:

    * the versions of each turn are exactly 1..n, in the order of creation;
    * in a conversation a later message has a larger sequence;
    * a selected run is a completed run of its own turn;
    * a retry follows a failed or cancelled version, a continuation an incomplete one and a
      regeneration a completed one, each the version right before it;
    * a user's client request has one run at most. -/
theorem turn_version_invariant (users : List UserRow) (conversations : List ConversationRow)
    (ops : List AgentOp) :
    let db := (Machine.run step (initial users conversations) ops).db
    (∀ turnId, ∃ n : Nat, (db.runs.filter fun r => r.turnId == turnId).map (·.version) =
      (List.range n).map fun i : Nat => (i : Int) + 1) ∧
    (db.messages.Pairwise fun m m' =>
      m.conversationId = m'.conversationId → m.sequence < m'.sequence) ∧
    (∀ t ∈ db.turns, ∀ runId, t.selectedRunId = some runId →
      ∃ r ∈ db.runs, r.id = runId ∧ r.turnId = t.id ∧ r.status = .completed) ∧
    (∀ r ∈ db.runs, r.action = .initial ∧ r.version = 1 ∨
      ∃ p ∈ db.runs, p.turnId = r.turnId ∧ p.version + 1 = r.version ∧
        (r.action = .retry ∧ (p.status = .failed ∨ p.status = .cancelled) ∨
          r.action = .continued ∧ p.status = .incomplete ∨
          r.action = .regenerate ∧ p.status = .completed)) ∧
    (∀ userId clientRequestId, (db.runs.filter fun r =>
      r.userId == userId && r.clientRequestId == clientRequestId).length ≤ 1) := by
  intro db
  have hv : Versions db := versions_run users conversations ops
  refine ⟨hv.versions, hv.sequences, hv.selected, fun r hr => ?_, fun userId clientRequestId => ?_⟩
  · rcases hv.predecessor r hr with h | ⟨p, hp, ht, hpv, ha⟩
    · exact Or.inl h
    · refine Or.inr ⟨p, hp, ht, hpv, ?_⟩
      simp only [actionAllowed, Bool.or_eq_true, Bool.and_eq_true, beq_iff_eq,
        Option.some.injEq] at ha
      rcases ha with (ha | ha) | ha
      · exact Or.inl ha
      · exact Or.inr (Or.inl ha)
      · exact Or.inr (Or.inr ha)
  · refine length_le_one (hv.requests.nodup.filter _) fun r hr r' hr' => ?_
    obtain ⟨hr, hk⟩ := List.mem_filter.mp hr
    obtain ⟨hr', hk'⟩ := List.mem_filter.mp hr'
    rw [Bool.and_eq_true, beq_iff_eq, beq_iff_eq] at hk hk'
    refine hv.requests.eq hr hr' ?_
    show (r.userId, r.clientRequestId) = (r'.userId, r'.clientRequestId)
    rw [hk.1, hk.2, hk'.1, hk'.2]

end Machine

end OpenVac.Agent
