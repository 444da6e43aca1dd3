/-
  File:      OpenVac/Operations/SpendingCap.lean
  Subject:   The spending cap of a model: what its invocations of a day or a month may cost.

  * `dayWindow_covers`, `monthWindow_covers` -- the windows of a kind partition the instants.
  * `Change`, `change_step` -- what one step does to the tables, said once.
  * `Books` -- the invariant of the invocation table and its open handles.
  * `Capped`, `capped_run` -- the cap, for any kind of window that partitions the instants.
  * `model_spending_cap` -- the cap and the exact accounting after any run.
-/
import OpenVac.Operations.ModelRuntime

namespace OpenVac.Operations

open Rows Quota

/-! ## 1. Windows partition time -/

/-- An interval of whole units shifted by an offset, in units. -/
theorem span_iff {a b o m t : Nat} (hm : 0 < m) :
    ((a * m : Nat) : Int) - (o : Int) ≤ (t : Int) ∧ (t : Int) < ((b * m : Nat) : Int) - (o : Int) ↔
      a ≤ (t + o) / m ∧ (t + o) / m < b := by
  rw [Nat.le_div_iff_mul_le hm, Nat.div_lt_iff_lt_mul hm]
  omega

theorem UsageWindow.covers_iff {w : UsageWindow} {t : Nat} :
    w.covers t = true ↔ w.start ≤ (t : Int) ∧ (t : Int) < w.stop := by
  unfold UsageWindow.covers
  rw [Bool.and_eq_true, decide_eq_true_eq, decide_eq_true_eq]

theorem covers_span {a b t : Nat} :
    UsageWindow.covers
        ⟨((a * JsDate.msPerDay : Nat) : Int) - BEIJING_OFFSET_MS,
          ((b * JsDate.msPerDay : Nat) : Int) - BEIJING_OFFSET_MS⟩ t = true ↔
      a ≤ beijingDay t ∧ beijingDay t < b := by
  have hm : 0 < JsDate.msPerDay := by decide
  rw [UsageWindow.covers_iff]
  exact span_iff hm

theorem fromBeijingParts_eq {year month day n : Nat} (h : JsDate.makeDay year month day = n) :
    fromBeijingParts year month day = ((n * JsDate.msPerDay : Nat) : Int) - BEIJING_OFFSET_MS := by
  unfold fromBeijingParts
  rw [h]

theorem dayWindow_eq (u : Nat) : dayWindow u =
    ⟨((beijingDay u * JsDate.msPerDay : Nat) : Int) - BEIJING_OFFSET_MS,
      (((beijingDay u + 1) * JsDate.msPerDay : Nat) : Int) - BEIJING_OFFSET_MS⟩ := by
  have h0 := JsDate.makeDay_self (beijingDay u) 0
  have h1 := JsDate.makeDay_self (beijingDay u) 1
  rw [Nat.add_zero, Nat.add_zero] at h0
  unfold dayWindow
  rw [← fromBeijingParts_eq h0, ← fromBeijingParts_eq h1]

/-- The Beijing month number of an instant, counted through the years. -/
def beijingMonth (u : Nat) : Nat := JsDate.monthIndex (beijingDay u)

theorem monthWindow_eq (u : Nat) : monthWindow u =
    ⟨((JsDate.firstOfMonth (beijingMonth u) * JsDate.msPerDay : Nat) : Int) - BEIJING_OFFSET_MS,
      ((JsDate.firstOfMonth (beijingMonth u + 1) * JsDate.msPerDay : Nat) : Int) -
        BEIJING_OFFSET_MS⟩ := by
  have h0 := JsDate.makeDay_first (JsDate.yearFromDay (beijingDay u))
    (JsDate.monthFromDay (beijingDay u))
  have h1 := JsDate.makeDay_first (JsDate.yearFromDay (beijingDay u))
    (JsDate.monthFromDay (beijingDay u) + 1)
  rw [← Nat.add_assoc] at h1
  unfold monthWindow beijingMonth JsDate.monthIndex
  rw [← fromBeijingParts_eq h0, ← fromBeijingParts_eq h1]

/-- An instant is in a day's window exactly if it is on that day. -/
theorem dayWindow_covers_day (u t : Nat) :
    (dayWindow u).covers t = true ↔ beijingDay t = beijingDay u := by
  rw [dayWindow_eq, covers_span]
  omega

theorem monthWindow_covers_month (u t : Nat) :
    (monthWindow u).covers t = true ↔ beijingMonth t = beijingMonth u := by
  have hk := (JsDate.monthIndex_spec (beijingDay u)).1
  rw [monthWindow_eq, covers_span]
  exact JsDate.monthIndex_iff hk

/-- The windows of a kind partition the instants: a window covers exactly the instants whose
    own window it is. -/
def Partitions (window : Nat → UsageWindow) : Prop :=
  ∀ u t, (window u).covers t = true ↔ window u = window t

/-- **Every instant is in exactly one day window.** -/
theorem dayWindow_covers : Partitions dayWindow := by
  intro u t
  rw [dayWindow_covers_day]
  constructor
  · intro h
    rw [dayWindow_eq u, dayWindow_eq t, h]
  · intro h
    rw [← dayWindow_covers_day, h, dayWindow_covers_day]

/-- **Every instant is in exactly one month window.** -/
theorem monthWindow_covers : Partitions monthWindow := by
  intro u t
  rw [monthWindow_covers_month]
  constructor
  · intro h
    rw [monthWindow_eq u, monthWindow_eq t, h]
  · intro h
    rw [← monthWindow_covers_month, h, monthWindow_covers_month]

/-! ## 2. What a step does -/

/-- What settling may write to a row: its key, its model and its start stay, its status is one
    the budget accounts. -/
structure Settles (f : InvocationRow → InvocationRow) (costMicros : Nat) : Prop where
  id : ∀ r, (f r).id = r.id
  model : ∀ r, (f r).model = r.model
  startedAt : ∀ r, (f r).startedAt = r.startedAt
  accounted : ∀ r, (f r).status ∈ BUDGET_ACCOUNTED_INVOCATION_STATUSES
  cost : ∀ r, (f r).costMicros = costMicros

/-- The effect of a step. -/
inductive Change [DoubleRounding] (op : RuntimeOp) (s s' : Runtime) : Prop where
  | unchanged (h : s' = s)
  | budgets (parsed : List ModelBudgetPolicy) (submitted : List ModelBudgetPolicy)
      (hparsed : budgetsSchema submitted = some parsed)
      (h : s' = { s with db := { s.db with budgets := some parsed } })
  | started (row : InvocationRow) (handle : InvocationHandle) (pricing : ModelPricing)
      (hid : row.id = s.db.nextId) (hstatus : row.status = .running)
      (hhid : handle.id = row.id) (hcost : handle.reservedCostMicros = row.costMicros)
      (hcheck : assertAdmissible s.db row.startedAt row.model pricing row.costMicros
        (findModelBudget s.db.budgets row.model) = .ok ())
      (h : s' =
        { db := { s.db with
            invocations := s.db.invocations ++ [row], nextId := s.db.nextId + 1 }
          handles := s.handles ++ [handle]
          admissions := s.admissions ++
            [{ model := row.model, startedAt := row.startedAt
               policy := findModelBudget s.db.budgets row.model }] })
  | settled (handle : InvocationHandle) (f : InvocationRow → InvocationRow) (costMicros : Nat)
      (hopen : handle ∈ s.handles) (hf : Settles f costMicros)
      (hcost : op.WithinEstimate → costMicros ≤ handle.reservedCostMicros)
      (h : s' = { s with
        db := s.db.updateInvocation handle.id f
        handles := s.handles.filter fun h => h.id != handle.id })

theorem failedInvocationCost_le (handle : InvocationHandle) (retainReservedEstimate : Bool) :
    failedInvocationCost handle retainReservedEstimate ≤ handle.reservedCostMicros := by
  unfold failedInvocationCost
  split
  · exact Nat.zero_le _
  · exact Nat.le_refl _

theorem failModelInvocation_ok {db db' : RuntimeDb} {input : FailInvocationInput}
    (h : failModelInvocation db input = .ok ((), db')) :
    ∃ f, Settles f (failedInvocationCost input.handle (input.retainReservedEstimate.getD true)) ∧
      db' = db.updateInvocation input.handle.id f := by
  unfold failModelInvocation at h
  injection h with h
  obtain ⟨_, rfl⟩ := Prod.mk.inj h
  refine ⟨_, ?_, rfl⟩
  have hacc : (input.status.getD .failed).operation ∈ BUDGET_ACCOUNTED_INVOCATION_STATUSES := by
    cases input.status.getD .failed <;> decide
  exact ⟨fun _ => rfl, fun _ => rfl, fun _ => rfl, fun _ => hacc, fun _ => rfl⟩

section Change

variable [DoubleRounding]

theorem startModelInvocation_ok {db db' : RuntimeDb} {now : Nat} {input : StartInvocationInput}
    {handle : InvocationHandle} (h : startModelInvocation db now input = .ok (handle, db')) :
    ∃ row : InvocationRow, row.id = db.nextId ∧ row.status = .running ∧ row.model = input.model ∧
      row.startedAt = now ∧ handle.id = row.id ∧ handle.reservedCostMicros = row.costMicros ∧
      assertAdmissible db now input.model input.pricing row.costMicros
        (findModelBudget db.budgets input.model) = .ok () ∧
      db' = { db with invocations := db.invocations ++ [row], nextId := db.nextId + 1 } := by
  unfold startModelInvocation at h
  obtain ⟨_, _, h⟩ := Except.bind_ok_iff.mp h
  obtain ⟨_, hcheck, h⟩ := Except.bind_ok_iff.mp h
  split at h
  · nomatch h
  · injection h with h
    obtain ⟨rfl, rfl⟩ := Prod.mk.inj h
    let row : InvocationRow :=
      { id := db.nextId, userId := input.userId, provider := input.provider, model := input.model
        providerRequestId := none, status := .running
        costMicros := calculateModelCostMicros (estimateInputTokens input.messages)
          input.maximumOutputTokens input.pricing
        startedAt := now }
    exact ⟨row, rfl, rfl, rfl, rfl, rfl, rfl, hcheck, rfl⟩

theorem completeModelInvocation_ok {db db' : RuntimeDb} {input : CompleteInvocationInput}
    (h : completeModelInvocation db input = .ok ((), db')) :
    ∃ f, Settles f (completionCost input) ∧ db' = db.updateInvocation input.handle.id f := by
  unfold completeModelInvocation at h
  simp only at h
  split at h
  · nomatch h
  · split at h
    · nomatch h
    · injection h with h
      obtain ⟨_, rfl⟩ := Prod.mk.inj h
      refine ⟨_, ?_, rfl⟩
      have hacc : OperationStatus.succeeded ∈ BUDGET_ACCOUNTED_INVOCATION_STATUSES := by decide
      exact ⟨fun _ => rfl, fun _ => rfl, fun _ => rfl, fun _ => hacc, fun _ => rfl⟩

theorem settle_change {s : Runtime} {op : RuntimeOp} {handle : InvocationHandle}
    {tx : Except RuntimeError (Unit × RuntimeDb)} {costMicros : Nat}
    (hcost : op.WithinEstimate → costMicros ≤ handle.reservedCostMicros)
    (htx : ∀ db, tx = .ok ((), db) →
      ∃ f, Settles f costMicros ∧ db = s.db.updateInvocation handle.id f) :
    Change op s (if s.handles.contains handle then s.settle handle tx else s) := by
  by_cases hopen : s.handles.contains handle = true
  · rw [if_pos hopen]
    unfold Runtime.settle
    match tx with
    | .error _ => exact Change.unchanged rfl
    | .ok ((), db) =>
      obtain ⟨f, hf, rfl⟩ := htx db rfl
      exact Change.settled handle f costMicros (List.contains_iff_mem.mp hopen) hf hcost rfl
  · rw [if_neg hopen]
    exact Change.unchanged rfl

/-- **Every step is one of the changes.** -/
theorem change_step (s : Runtime) (op : RuntimeOp) : Change op s (step s op) := by
  cases op with
  | updateBudgets budgets =>
    simp only [step, updateBudgets]
    cases hp : budgetsSchema budgets with
    | none => exact Change.unchanged rfl
    | some parsed => exact Change.budgets parsed budgets hp rfl
  | start now input =>
    simp only [step]
    cases htx : startModelInvocation s.db now input with
    | error e => exact Change.unchanged rfl
    | ok r =>
      obtain ⟨handle, db⟩ := r
      obtain ⟨row, hid, hstatus, hmodel, hstart, hhid, hcost, hcheck, rfl⟩ :=
        startModelInvocation_ok htx
      rw [← hmodel, ← hstart] at hcheck
      refine Change.started row handle input.pricing hid hstatus hhid hcost hcheck ?_
      rw [hmodel, hstart]
  | complete input =>
    simp only [step]
    exact settle_change (fun h => h) fun db h => completeModelInvocation_ok h
  | fail input =>
    simp only [step]
    exact settle_change (fun _ => failedInvocationCost_le _ _) fun db h =>
      failModelInvocation_ok h

end Change

/-! ## 3. The books -/

/-- The largest limits the budget schema accepts, in cents. -/
structure PolicyBounded (policy : ModelBudgetPolicy) : Prop where
  daily : policy.dailyLimitCents ≤ 100000000
  monthly : policy.monthlyLimitCents ≤ 1000000000

/-- The invariant of the invocation table: keys are unique and below the next one, every row has
    a status the budget accounts, an open handle still has its row at the reserved cost, and the
    stored budgets are within the schema's bounds. -/
structure Books (s : Runtime) : Prop where
  ids : UniqueOn InvocationRow.id s.db.invocations
  fresh : ∀ r ∈ s.db.invocations, r.id < s.db.nextId
  accounted : ∀ r ∈ s.db.invocations, r.status ∈ BUDGET_ACCOUNTED_INVOCATION_STATUSES
  handles : ∀ h ∈ s.handles, ∃ r ∈ s.db.invocations, r.id = h.id ∧
    r.costMicros = h.reservedCostMicros
  policies : ∀ items, s.db.budgets = some items → ∀ policy ∈ items, PolicyBounded policy

theorem budgetsSchema_bounded {budgets parsed : List ModelBudgetPolicy}
    (h : budgetsSchema budgets = some parsed) : ∀ policy ∈ parsed, PolicyBounded policy := by
  unfold budgetsSchema at h
  simp only at h
  split at h
  · next hc =>
    injection h with h
    subst h
    intro policy hm
    rw [Bool.and_eq_true, Bool.and_eq_true, List.all_eq_true] at hc
    have hb := hc.1.2 policy hm
    rw [Bool.and_eq_true, Bool.and_eq_true] at hb
    exact ⟨of_decide_eq_true hb.1.2, of_decide_eq_true hb.2⟩
  · nomatch h

theorem findModelBudget_mem {raw : Option (List ModelBudgetPolicy)} {model : String}
    {policy : ModelBudgetPolicy} (h : findModelBudget raw model = some policy) :
    ∃ items, raw = some items ∧ policy ∈ items := by
  unfold findModelBudget at h
  cases raw with
  | none => nomatch h
  | some items => exact ⟨items, rfl, List.mem_of_find?_eq_some h⟩

/-- A row of a settled table: its own stem, settled exactly if the handle is its own. -/
theorem mem_updateInvocation {db : RuntimeDb} {id : Nat} {f : InvocationRow → InvocationRow}
    {costMicros : Nat} (hf : Settles f costMicros) {r : InvocationRow}
    (hr : r ∈ (db.updateInvocation id f).invocations) :
    ∃ r₀ ∈ db.invocations, r.id = r₀.id ∧
      (r₀.id = id ∧ r.status ∈ BUDGET_ACCOUNTED_INVOCATION_STATUSES ∨ r₀.id ≠ id ∧ r = r₀) := by
  obtain ⟨r₀, hm, rfl⟩ := mem_updateWhere.mp hr
  by_cases hid : r₀.id = id
  · rw [if_pos (beq_iff_eq.mpr hid)]
    exact ⟨r₀, hm, hf.id r₀, Or.inl ⟨hid, hf.accounted r₀⟩⟩
  · rw [if_neg fun h => hid (beq_iff_eq.mp h)]
    exact ⟨r₀, hm, rfl, Or.inr ⟨hid, rfl⟩⟩

/-- **One step keeps the books.** -/
theorem Books.change [DoubleRounding] {op : RuntimeOp} {s s' : Runtime} (hb : Books s)
    (hc : Change op s s') : Books s' := by
  cases hc with
  | unchanged h => exact h ▸ hb
  | budgets parsed submitted hparsed h =>
    subst h
    refine ⟨hb.ids, hb.fresh, hb.accounted, hb.handles, fun items hi => ?_⟩
    injection hi with hi
    exact hi ▸ budgetsSchema_bounded hparsed
  | started row handle pricing hid hstatus hhid hcost hcheck h =>
    subst h
    refine ⟨hb.ids.append_one fun r hr e => ?_, fun r hr => ?_, fun r hr => ?_, fun h hh => ?_,
      hb.policies⟩
    · have := hb.fresh r hr
      omega
    · show r.id < s.db.nextId + 1
      rcases List.mem_append.mp hr with hr | hr
      · exact Nat.lt_succ_of_lt (hb.fresh r hr)
      · rw [List.mem_singleton.mp hr, hid]
        exact Nat.lt_succ_self _
    · rcases List.mem_append.mp hr with hr | hr
      · exact hb.accounted r hr
      · rw [List.mem_singleton.mp hr, hstatus]
        decide
    · rcases List.mem_append.mp hh with hh | hh
      · obtain ⟨r, hr, h1, h2⟩ := hb.handles h hh
        exact ⟨r, List.mem_append_left _ hr, h1, h2⟩
      · rw [List.mem_singleton.mp hh]
        exact ⟨row, List.mem_append_right _ (List.mem_singleton_self row), hhid.symm, hcost.symm⟩
  | settled handle f costMicros hopen hf hcost h =>
    subst h
    refine ⟨hb.ids.updateWhere hf.id, fun r hr => ?_, fun r hr => ?_, fun h hh => ?_,
      hb.policies⟩
    · obtain ⟨r₀, hr₀, hid, _⟩ := mem_updateInvocation hf hr
      rw [hid]
      exact hb.fresh r₀ hr₀
    · obtain ⟨r₀, hr₀, _, ⟨_, hacc⟩ | ⟨_, rfl⟩⟩ := mem_updateInvocation hf hr
      · exact hacc
      · exact hb.accounted r hr₀
    · -- a handle that stays open is not the one just settled
      obtain ⟨hh, hne⟩ := List.mem_filter.mp hh
      obtain ⟨r, hr, h1, h2⟩ := hb.handles h hh
      have hne : r.id ≠ handle.id := by
        rw [h1]
        exact bne_iff_ne.mp hne
      refine ⟨r, ?_, h1, h2⟩
      have hm := mem_updateWhere_of_mem (p := fun r => r.id == handle.id) (f := f) hr
      rwa [if_neg fun h => hne (beq_iff_eq.mp h)] at hm

theorem books_initial (users : List UserRow) : Books (initial users) where
  ids := UniqueOn.nil _
  fresh := fun _ hr => absurd hr List.not_mem_nil
  accounted := fun _ hr => absurd hr List.not_mem_nil
  handles := fun _ hh => absurd hh List.not_mem_nil
  policies := fun _ hi => nomatch hi

/-! ## 4. The cap -/

/-- The latest admission of a model in a window, in the order of the transactions. -/
def Runtime.lastAdmission (s : Runtime) (model : String) (w : UsageWindow) : Option Admission :=
  (s.admissions.filter fun a => a.model == model && w.covers a.startedAt).getLast?

/-- What a model's invocations of a window cost is within the limit that was in force at the
    window's latest admission. -/
def Capped (window : Nat → UsageWindow) (limit : ModelBudgetPolicy → Nat) (s : Runtime) : Prop :=
  ∀ model u admission policy, s.lastAdmission model (window u) = some admission →
    admission.policy = some policy →
      costIn s.db model (window u) ≤ ((limit policy * MICROS_PER_CENT : Nat) : Int)

theorem costIn_nonneg (db : RuntimeDb) (model : String) (w : UsageWindow) :
    0 ≤ costIn db model w :=
  sumWhere_nonneg fun r _ => Int.natCast_nonneg r.costMicros

/-- The double comparison of the budget check, for a bound that is a safe integer. -/
theorem budget_check {cost : Int} {reserved bound : Nat} (h0 : 0 ≤ cost)
    (hb : bound < JsNumber.twoTo53)
    (h : ¬ JsNumber.nearest (JsNumber.nearest cost.toNat + reserved) > JsNumber.nearest bound) :
    cost + reserved ≤ bound := by
  rw [JsNumber.nearest_of_lt hb, gt_iff_lt, Nat.not_lt, JsNumber.nearest_le_iff hb] at h
  have hn : JsNumber.nearest cost.toNat ≤ bound := Nat.le_trans (Nat.le_add_right _ _) h
  have hc : cost.toNat ≤ bound := (JsNumber.nearest_le_iff hb).mp hn
  rw [JsNumber.nearest_of_lt (Nat.lt_of_le_of_lt hc hb)] at h
  omega

/-- What an admission under a policy has checked, for both kinds of window. -/
theorem assertAdmissible_ok {db : RuntimeDb} {now : Nat} {model : String} {pricing : ModelPricing}
    {reserved : Nat} {policy : ModelBudgetPolicy} (hp : PolicyBounded policy)
    (h : assertAdmissible db now model pricing reserved (some policy) = .ok ()) :
    costIn db model (dayWindow now) + reserved ≤
        ((policy.dailyLimitCents * MICROS_PER_CENT : Nat) : Int) ∧
      costIn db model (monthWindow now) + reserved ≤
        ((policy.monthlyLimitCents * MICROS_PER_CENT : Nat) : Int) := by
  have hday : policy.dailyLimitCents * MICROS_PER_CENT < JsNumber.twoTo53 := by
    have := hp.daily
    unfold MICROS_PER_CENT JsNumber.twoTo53
    omega
  have hmonth : policy.monthlyLimitCents * MICROS_PER_CENT < JsNumber.twoTo53 := by
    have := hp.monthly
    unfold MICROS_PER_CENT JsNumber.twoTo53
    omega
  simp only [assertAdmissible] at h
  split at h
  · nomatch h
  · obtain ⟨_, _, h⟩ := Except.bind_ok_iff.mp h
    unfold assertWithinModelBudget sumReservedModelCost at h
    split at h
    · nomatch h
    · split at h
      · nomatch h
      · next hd =>
        split at h
        · nomatch h
        · next hm =>
          exact ⟨budget_check (costIn_nonneg _ _ _) hday hd,
            budget_check (costIn_nonneg _ _ _) hmonth hm⟩

/-- Settling moves no invocation into or out of a window. -/
theorem counted_settles {f : InvocationRow → InvocationRow} {costMicros : Nat}
    (hf : Settles f costMicros) {r : InvocationRow}
    (hr : r.status ∈ BUDGET_ACCOUNTED_INVOCATION_STATUSES) (model : String) (w : UsageWindow) :
    (f r).counted model w = r.counted model w := by
  unfold InvocationRow.counted
  rw [hf.model, hf.startedAt, List.contains_iff_mem.mpr hr,
    List.contains_iff_mem.mpr (hf.accounted r)]

/-- **Settling an open handle at its estimate or less costs no window more.** -/
theorem costIn_settled {s : Runtime} (hb : Books s) {handle : InvocationHandle}
    {f : InvocationRow → InvocationRow} {costMicros : Nat} (hopen : handle ∈ s.handles)
    (hf : Settles f costMicros) (hcost : costMicros ≤ handle.reservedCostMicros) (model : String)
    (w : UsageWindow) :
    costIn (s.db.updateInvocation handle.id f) model w ≤ costIn s.db model w := by
  obtain ⟨r, hr, hid, hres⟩ := hb.handles handle hopen
  have hsum := sumWhere_updateWhere_key (q := InvocationRow.counted model w)
    (w := fun r => (r.costMicros : Int)) (f := f) hb.ids hr
  rw [hid, counted_settles hf (hb.accounted r hr), hf.cost] at hsum
  have hle : (costMicros : Int) ≤ r.costMicros := by
    rw [hres]
    exact_mod_cast hcost
  unfold costIn RuntimeDb.updateInvocation
  simp only [hsum]
  split <;> omega

/-- A window's latest admission after one more admission. -/
theorem lastAdmission_append {admissions : List Admission} {new : Admission} (model : String)
    (w : UsageWindow) :
    ((admissions ++ [new]).filter fun a => a.model == model && w.covers a.startedAt).getLast? =
      if (new.model == model && w.covers new.startedAt) = true then some new
      else (admissions.filter fun a => a.model == model && w.covers a.startedAt).getLast? := by
  rw [List.filter_append, List.filter_cons, List.filter_nil]
  split
  · rw [List.getLast?_concat]
  · rw [List.append_nil]

/-- **One step keeps the cap**, for a kind of window that partitions the instants and whose limit
    an admission checks. -/
theorem Capped.change [DoubleRounding] {window : Nat → UsageWindow}
    {limit : ModelBudgetPolicy → Nat} (hw : Partitions window)
    (hadm : ∀ db now model pricing reserved policy, PolicyBounded policy →
      assertAdmissible db now model pricing reserved (some policy) = .ok () →
        costIn db model (window now) + (reserved : Nat) ≤
          ((limit policy * MICROS_PER_CENT : Nat) : Int))
    {op : RuntimeOp} (hop : op.WithinEstimate) {s s' : Runtime} (hb : Books s)
    (h : Capped window limit s) (hc : Change op s s') : Capped window limit s' := by
  intro model u admission policy hlast hpolicy
  cases hc with
  | unchanged e =>
    subst e
    exact h model u admission policy hlast hpolicy
  | budgets parsed submitted hparsed e =>
    subst e
    exact h model u admission policy hlast hpolicy
  | settled handle f costMicros hopen hf hcost e =>
    subst e
    exact Int.le_trans (costIn_settled hb hopen hf (hcost hop) model (window u))
      (h model u admission policy hlast hpolicy)
  | started row handle pricing hid hstatus hhid hcost hcheck e =>
    subst e
    unfold Runtime.lastAdmission at hlast
    rw [lastAdmission_append] at hlast
    unfold costIn
    rw [sumWhere_append_one]
    have hstat : BUDGET_ACCOUNTED_INVOCATION_STATUSES.contains row.status = true := by
      rw [hstatus]
      decide
    have hcounted : row.counted model (window u) =
        (row.model == model && (window u).covers row.startedAt) := by
      unfold InvocationRow.counted
      rw [hstat, Bool.and_true]
    rw [hcounted]
    by_cases hin : (row.model == model && (window u).covers row.startedAt) = true
    · -- the new admission is the latest one of its window: its own check is the cap
      rw [if_pos hin] at hlast ⊢
      injection hlast with hlast
      subst hlast
      obtain ⟨hmodel, hcov⟩ := Bool.and_eq_true_iff.mp hin
      rw [beq_iff_eq] at hmodel
      have hwin : window u = window row.startedAt := (hw u row.startedAt).mp hcov
      simp only at hpolicy
      obtain ⟨items, hitems, hmem⟩ := findModelBudget_mem hpolicy
      rw [hpolicy] at hcheck
      have := hadm s.db row.startedAt row.model pricing row.costMicros policy
        (hb.policies items hitems policy hmem) hcheck
      rw [← hmodel, hwin]
      exact this
    · -- an invocation outside the window changes neither side
      rw [if_neg hin] at hlast ⊢
      rw [Int.add_zero]
      exact h model u admission policy hlast hpolicy

/-! ## 5. Rows stay -/

/-- A row with this key, model and start is in the table. -/
def Recorded (id : Nat) (model : String) (startedAt : Nat) (s : Runtime) : Prop :=
  ∃ r ∈ s.db.invocations, r.id = id ∧ r.model = model ∧ r.startedAt = startedAt

/-- **No step drops an invocation or moves its start.** -/
theorem Recorded.change [DoubleRounding] {op : RuntimeOp} {s s' : Runtime} {id : Nat}
    {model : String} {startedAt : Nat} (h : Recorded id model startedAt s) (hc : Change op s s') :
    Recorded id model startedAt s' := by
  obtain ⟨r, hr, h1, h2, h3⟩ := h
  cases hc with
  | unchanged e => exact e ▸ ⟨r, hr, h1, h2, h3⟩
  | budgets parsed submitted hparsed e => exact e ▸ ⟨r, hr, h1, h2, h3⟩
  | started row handle pricing hid hstatus hhid hcost hcheck e =>
    exact e ▸ ⟨r, List.mem_append_left _ hr, h1, h2, h3⟩
  | settled handle f costMicros hopen hf hcost e =>
    subst e
    refine ⟨_, mem_updateWhere_of_mem hr, ?_⟩
    split
    · rw [hf.id, hf.model, hf.startedAt]
      exact ⟨h1, h2, h3⟩
    · exact ⟨h1, h2, h3⟩

/-! ## 6. Runs -/

/-- A row of the books is counted in the windows of its own start and in no other. -/
theorem counted_iff {s : Runtime} (hb : Books s) {window : Nat → UsageWindow}
    (hw : Partitions window) {r : InvocationRow} (hr : r ∈ s.db.invocations) (u : Nat) :
    r.counted r.model (window u) = true ↔ window u = window r.startedAt := by
  unfold InvocationRow.counted
  rw [beq_self_eq_true, List.contains_iff_mem.mpr (hb.accounted r hr), Bool.true_and, Bool.true_and]
  exact hw u r.startedAt

section Runs

variable [DoubleRounding]

theorem books_run (users : List UserRow) (ops : List RuntimeOp) :
    Books (Machine.run step (initial users) ops) :=
  Machine.run_invariant (books_initial users) (fun s op hb => hb.change (change_step s op)) ops

theorem capped_run {window : Nat → UsageWindow} {limit : ModelBudgetPolicy → Nat}
    (hw : Partitions window)
    (hadm : ∀ db now model pricing reserved policy, PolicyBounded policy →
      assertAdmissible db now model pricing reserved (some policy) = .ok () →
        costIn db model (window now) + (reserved : Nat) ≤
          ((limit policy * MICROS_PER_CENT : Nat) : Int))
    (users : List UserRow) (ops : List RuntimeOp) (h : ∀ op ∈ ops, op.WithinEstimate) :
    Capped window limit (Machine.run step (initial users) ops) := by
  have h0 : Capped window limit (initial users) := fun _ _ _ _ hlast => nomatch hlast
  have hstep : ∀ (s : Runtime) (op : RuntimeOp), op.WithinEstimate →
      Books s ∧ Capped window limit s → Books (step s op) ∧ Capped window limit (step s op) :=
    fun s op hop hs => ⟨hs.1.change (change_step s op),
      hs.2.change hw hadm hop hs.1 (change_step s op)⟩
  exact (Machine.run_invariant_of ⟨books_initial users, h0⟩ hstep ops h).2

/-- **The spending cap of a model**, after any interleaving of admissions, completions, failures
    and cancellations of any users' invocations, with any policy changes between them, when every
    final cost is within its reserved estimate:

    * what a model's invocations of a Beijing day cost is at most the daily limit in force at the
      latest admission of that day, and the same for the month;
    * every invocation is counted in exactly one day and one month window, those of its start;
    * no later step drops it or moves it to another window, and no key occurs twice. -/
theorem model_spending_cap (users : List UserRow) (ops : List RuntimeOp)
    (h : ∀ op ∈ ops, op.WithinEstimate) :
    let s := Machine.run step (initial users) ops
    (∀ model u admission policy, s.lastAdmission model (dayWindow u) = some admission →
      admission.policy = some policy →
        costIn s.db model (dayWindow u) ≤ ((policy.dailyLimitCents * MICROS_PER_CENT : Nat) : Int)) ∧
    (∀ model u admission policy, s.lastAdmission model (monthWindow u) = some admission →
      admission.policy = some policy →
        costIn s.db model (monthWindow u) ≤
          ((policy.monthlyLimitCents * MICROS_PER_CENT : Nat) : Int)) ∧
    (∀ r ∈ s.db.invocations, ∀ u,
      (r.counted r.model (dayWindow u) = true ↔ dayWindow u = dayWindow r.startedAt) ∧
      (r.counted r.model (monthWindow u) = true ↔ monthWindow u = monthWindow r.startedAt)) ∧
    (∀ r ∈ s.db.invocations, ∀ more, ∃ r' ∈ (Machine.run step s more).db.invocations,
      r'.id = r.id ∧ r'.model = r.model ∧ r'.startedAt = r.startedAt) ∧
    UniqueOn InvocationRow.id s.db.invocations := by
  intro s
  have hb : Books s := books_run users ops
  have hday : Capped dayWindow (·.dailyLimitCents) s :=
    capped_run dayWindow_covers (fun _ _ _ _ _ _ hp ha => (assertAdmissible_ok hp ha).1) users ops h
  have hmonth : Capped monthWindow (·.monthlyLimitCents) s :=
    capped_run monthWindow_covers (fun _ _ _ _ _ _ hp ha => (assertAdmissible_ok hp ha).2) users
      ops h
  refine ⟨hday, hmonth, fun r hr u => ?_, fun r hr more => ?_, hb.ids⟩
  · exact ⟨counted_iff hb dayWindow_covers hr u, counted_iff hb monthWindow_covers hr u⟩
  · have hrec : Recorded r.id r.model r.startedAt s := ⟨r, hr, rfl, rfl, rfl⟩
    exact Machine.run_invariant hrec (fun s op hrec => hrec.change (change_step s op)) more

end Runs

/-- One invocation that a budget of one cent admits and that completes below its estimate. -/
theorem model_spending_cap_completed :
    let _rounding : DoubleRounding := ⟨fun q => q⟩
    let handle : InvocationHandle :=
      { id := 0, provider := "deepseek", model := "deepseek-chat", startedAt := 0
        reservedCostMicros := 24, estimatedInputTokens := 14, maximumOutputTokens := 10
        pricing := ⟨1000000, 1000000⟩ }
    let s := Machine.run step (initial [{ id := "u", deletionRequestedAt := none }])
      [.updateBudgets [⟨"deepseek-chat", 1, 30, true⟩],
        .start 0 ⟨"u", "deepseek", "deepseek-chat", ["hi"], 10, ⟨1000000, 1000000⟩⟩,
        .complete ⟨handle, some ⟨some 14, some 5⟩, none⟩]
    s.db.invocations.map (·.costMicros) = [19] ∧
      costIn s.db "deepseek-chat" (dayWindow 0) ≤ ((1 * MICROS_PER_CENT : Nat) : Int) := by
  intro _rounding handle s
  have hwithin : ∀ op ∈ [.updateBudgets [⟨"deepseek-chat", 1, 30, true⟩],
      .start 0 ⟨"u", "deepseek", "deepseek-chat", ["hi"], 10, ⟨1000000, 1000000⟩⟩,
      .complete ⟨handle, some ⟨some 14, some 5⟩, none⟩], RuntimeOp.WithinEstimate op := by
    intro op hop
    rcases List.mem_cons.mp hop with rfl | hop
    · trivial
    · rcases List.mem_cons.mp hop with rfl | hop
      · trivial
      · rw [List.mem_singleton.mp hop]
        show completionCost _ ≤ 24
        decide +kernel
  have hlast : s.lastAdmission "deepseek-chat" (dayWindow 0) =
      some ⟨"deepseek-chat", 0, some ⟨"deepseek-chat", 1, 30, true⟩⟩ := by
    decide +kernel
  have hcap := (model_spending_cap [{ id := "u", deletionRequestedAt := none }] _ hwithin).1
    "deepseek-chat" 0 _ ⟨"deepseek-chat", 1, 30, true⟩ hlast rfl
  exact ⟨by decide +kernel, hcap⟩

end OpenVac.Operations
