/-
  File:      OpenVac/Operations/BudgetOverview.lean
  Subject:   What the budget overview says about the spending cap.

  * `rowDate_dayStart`, `rowDate_monthStart` -- which rows of `daily_usage` the overview's windows
    of UTC take: those of a Beijing day strictly after the window's first day.
  * `insertDailyUsage_ok` -- an upsert adds its row to every sum over the table.
  * `ReportingChange`, `reporting_change` -- what one step does to the tables, said once.
  * `Balanced`, `balanced_step` -- the invariant: the usage table's sums are the sums of the
    succeeded invocations, in cents and by their day of completion; `usage_adds_up`.
  * `budget_overview_agrees` -- the overview against the finished invocations the admission
    check counts.
-/
import Mathlib.Tactic.Linarith
import OpenVac.Operations.DailyUsage
import OpenVac.Operations.SpendingCap

namespace OpenVac.Operations

open Rows Quota

/-! ## 1. Days of UTC and days in Beijing -/

/-- The first day of an instant's month in UTC. -/
def utcMonthFirst (now : Nat) : Nat := JsDate.firstOfMonth (JsDate.monthIndex (utcDay now))

theorem utcMonthStart_eq (now : Nat) : utcMonthStart now = utcMonthFirst now * JsDate.msPerDay := by
  unfold utcMonthStart utcMonthFirst JsDate.monthIndex
  simp only
  rw [JsDate.makeDay_first]

theorem utcMonthFirst_le (now : Nat) : utcMonthFirst now ≤ utcDay now :=
  (JsDate.monthIndex_spec (utcDay now)).2.1

/-- A day in Beijing starts eight hours before the day of UTC with its number. -/
theorem rowDate_from (day t : Nat) :
    ((day * JsDate.msPerDay : Nat) : Int) ≤ (dayWindow t).start ↔ day < beijingDay t := by
  rw [dayWindow_eq]
  simp only
  unfold JsDate.msPerDay BEIJING_OFFSET_MS
  omega

/-- **The overview's day holds the rows of the Beijing days after it.** -/
theorem rowDate_dayStart (now t : Nat) :
    ((utcDayStart now : Nat) : Int) ≤ (dayWindow t).start ↔ utcDay now < beijingDay t :=
  rowDate_from (utcDay now) t

/-- **The overview's month holds the rows of the Beijing days after its first.** -/
theorem rowDate_monthStart (now t : Nat) :
    ((utcMonthStart now : Nat) : Int) ≤ (dayWindow t).start ↔ utcMonthFirst now < beijingDay t := by
  rw [utcMonthStart_eq]
  exact rowDate_from (utcMonthFirst now) t

/-! ## 2. The usage table -/

/-- What the upserts keep of the table. -/
structure UsageTable (rows : List DailyUsageRow) : Prop where
  keys : UniqueOn DailyUsageRow.key rows
  nonneg : ∀ u ∈ rows, 0 ≤ u.costCents

/-- The cents of a model's rows whose date a window takes. -/
def usageIn (rows : List DailyUsageRow) (model : String) (p : Int → Bool) : Int :=
  sumWhere (fun u => u.model == model && p u.date) (·.costCents) rows

theorem isInt4_le {n : Int} (h : isInt4 n = true) : n ≤ 2147483647 := by
  unfold isInt4 at h
  rw [Bool.and_eq_true, decide_eq_true_eq, decide_eq_true_eq] at h
  exact h.2

theorem DailyUsageRow.fits_cents {u : DailyUsageRow} (h : u.fits = true) :
    u.costCents ≤ 2147483647 := by
  unfold DailyUsageRow.fits at h
  rw [Bool.and_eq_true] at h
  exact isInt4_le h.2

/-- **An upsert adds its row to every sum**, and keeps the table's invariant. -/
theorem insertDailyUsage_ok {rows rows' : List DailyUsageRow} {new : DailyUsageRow}
    (ht : UsageTable rows) (hnew : 0 ≤ new.costCents)
    (h : insertDailyUsage rows new = .ok rows') :
    UsageTable rows' ∧ new.costCents ≤ 2147483647 ∧
      ∀ model p, usageIn rows' model p =
        usageIn rows model p + if new.model == model && p new.date then new.costCents else 0 := by
  unfold insertDailyUsage at h
  cases hfits : new.fits with
  | false =>
    rw [hfits] at h
    nomatch h
  | true =>
    simp only [hfits, Bool.not_true, Bool.false_eq_true, if_false] at h
    have hcents := DailyUsageRow.fits_cents hfits
    cases hfind : rows.find? fun u => u.key == new.key with
    | none =>
      simp only [hfind] at h
      injection h with h
      subst h
      have hfresh : ∀ u ∈ rows, u.key ≠ new.key := fun u hu e =>
        List.find?_eq_none.mp hfind u hu (beq_iff_eq.mpr e)
      refine ⟨⟨ht.keys.append_one hfresh, fun u hu => ?_⟩, hcents, fun model p => ?_⟩
      · rcases List.mem_append.mp hu with hu | hu
        · exact ht.nonneg u hu
        · rw [List.mem_singleton.mp hu]
          exact hnew
      · unfold usageIn
        rw [sumWhere_append_one]
    | some old =>
      simp only [hfind] at h
      split at h
      · nomatch h
      · injection h with h
        subst h
        have hold : old ∈ rows := List.mem_of_find?_eq_some hfind
        have hfound := List.find?_some hfind
        have hkey : old.key = new.key := beq_iff_eq.mp hfound
        obtain ⟨hdate, _, hmodel⟩ : old.date = new.date ∧ old.provider = new.provider ∧
            old.model = new.model := by
          unfold DailyUsageRow.key at hkey
          simpa using hkey
        refine ⟨⟨ht.keys.updateWhere fun _ => rfl, fun u hu => ?_⟩, hcents, fun model p => ?_⟩
        · obtain ⟨u₀, hu₀, rfl⟩ := mem_updateWhere.mp hu
          have h₀ := ht.nonneg u₀ hu₀
          split
          · show 0 ≤ u₀.costCents + new.costCents
            omega
          · exact h₀
        · -- the row of the key is in the sum before and after, or in neither
          unfold usageIn
          rw [sumWhere_updateWhere_key ht.keys hold]
          have hadd : (old.add new).costCents = old.costCents + new.costCents := rfl
          have hm : (old.add new).model = old.model := rfl
          have hd : (old.add new).date = old.date := rfl
          rw [hadd, hm, hd, hdate, hmodel]
          split
          · omega
          · omega

/-! ## 3. What a step does -/

/-- What finishing writes to the invocation of a handle. -/
structure Finishes (f : InvocationRow → InvocationRow) (status : OperationStatus)
    (costMicros : Nat) : Prop where
  id : ∀ r, (f r).id = r.id
  model : ∀ r, (f r).model = r.model
  startedAt : ∀ r, (f r).startedAt = r.startedAt
  status : ∀ r, (f r).status = status
  cost : ∀ r, (f r).costMicros = costMicros

/-- The effect of a step on the invocations, the handles and the usage table. -/
inductive ReportingChange (s s' : Reporting) : Prop where
  | quiet (hrows : s'.runtime.db.invocations = s.runtime.db.invocations)
      (hhandles : s'.runtime.handles = s.runtime.handles)
      (hcompleted : s'.completedAt = s.completedAt) (husage : s'.dailyUsage = s.dailyUsage)
  | started (row : InvocationRow) (handle : InvocationHandle)
      (hid : row.id = s.runtime.db.nextId) (hstatus : row.status = .running)
      (hhid : handle.id = row.id) (hmodel : handle.model = row.model)
      (hrows : s'.runtime.db.invocations = s.runtime.db.invocations ++ [row])
      (hhandles : s'.runtime.handles = s.runtime.handles ++ [handle])
      (hcompleted : s'.completedAt = s.completedAt) (husage : s'.dailyUsage = s.dailyUsage)
  | finished (handle : InvocationHandle) (f : InvocationRow → InvocationRow)
      (status : OperationStatus) (costMicros completedAt : Nat)
      (hopen : handle ∈ s.runtime.handles) (hf : Finishes f status costMicros)
      (hrows : s'.runtime.db.invocations =
        updateWhere (fun r => r.id == handle.id) f s.runtime.db.invocations)
      (hhandles : s'.runtime.handles = s.runtime.handles.filter fun h => h.id != handle.id)
      (hcompleted : s'.completedAt = Function.update s.completedAt handle.id (some completedAt))
      (husage : status ≠ .succeeded ∧ s'.dailyUsage = s.dailyUsage ∨
        status = .succeeded ∧ ∃ new, insertDailyUsage s.dailyUsage new = .ok s'.dailyUsage ∧
          new.model = handle.model ∧ new.date = (dayWindow completedAt).start ∧
          new.costCents = ceilCents costMicros)

section Change

variable [DoubleRounding]

/-- The handle of an admission has the model of its row. -/
theorem startModelInvocation_handle {db db' : RuntimeDb} {now : Nat} {input : StartInvocationInput}
    {handle : InvocationHandle} (h : startModelInvocation db now input = .ok (handle, db')) :
    handle.model = input.model := by
  unfold startModelInvocation at h
  obtain ⟨_, _, h⟩ := Except.bind_ok_iff.mp h
  obtain ⟨_, _, h⟩ := Except.bind_ok_iff.mp h
  split at h
  · nomatch h
  · injection h with h
    obtain ⟨rfl, _⟩ := Prod.mk.inj h
    rfl

theorem completeModelInvocation_finishes {db db' : RuntimeDb} {input : CompleteInvocationInput}
    {u : Unit} (h : completeModelInvocation db input = .ok (u, db')) :
    ∃ f, Finishes f .succeeded (completionCost input) ∧
      db' = db.updateInvocation input.handle.id f := by
  unfold completeModelInvocation at h
  simp only at h
  split at h
  · nomatch h
  · split at h
    · nomatch h
    · injection h with h
      obtain ⟨_, rfl⟩ := Prod.mk.inj h
      refine ⟨_, ?_, rfl⟩
      exact ⟨fun _ => rfl, fun _ => rfl, fun _ => rfl, fun _ => rfl, fun _ => rfl⟩

theorem completeAndReport_ok {s s' : Reporting} {input : CompleteInvocationInput}
    {completedAt : Nat} {u : Unit} (h : completeAndReport s input completedAt = .ok (u, s')) :
    ∃ db dailyUsage, completeModelInvocation s.runtime.db input = .ok ((), db) ∧
      insertDailyUsage s.dailyUsage (usageOf input completedAt) = .ok dailyUsage ∧
      s' =
        { runtime := s.runtime.settle input.handle (.ok ((), db))
          completedAt := Function.update s.completedAt input.handle.id (some completedAt)
          dailyUsage } := by
  unfold completeAndReport at h
  obtain ⟨⟨_, db⟩, hdb, h⟩ := Except.bind_ok_iff.mp h
  obtain ⟨dailyUsage, husage, h⟩ := Except.bind_ok_iff.mp h
  injection h with h
  obtain ⟨_, rfl⟩ := Prod.mk.inj h
  cases htx : completeModelInvocation s.runtime.db input with
  | error e =>
    rw [htx] at hdb
    nomatch hdb
  | ok r =>
    rw [htx] at hdb
    injection hdb with hdb
    subst hdb
    exact ⟨db, dailyUsage, rfl, husage, rfl⟩

/-- **Every step is one of the changes.** -/
theorem reporting_change (s : Reporting) (op : ReportingOp) :
    ReportingChange s (reportingStep s op) := by
  cases op with
  | updateBudgets budgets =>
    refine ReportingChange.quiet ?_ rfl rfl rfl
    simp only [reportingStep, step, updateBudgets]
    split
    · rfl
    · rfl
  | start now input =>
    simp only [reportingStep, step]
    cases htx : startModelInvocation s.runtime.db now input with
    | error e => exact ReportingChange.quiet rfl rfl rfl rfl
    | ok r =>
      obtain ⟨handle, db⟩ := r
      obtain ⟨row, hid, hstatus, hmodel, _, hhid, _, _, rfl⟩ := startModelInvocation_ok htx
      have hhandle := startModelInvocation_handle htx
      exact ReportingChange.started row handle hid hstatus hhid (hhandle.trans hmodel.symm)
        rfl rfl rfl rfl
  | complete input completedAt =>
    simp only [reportingStep]
    split
    · next hopen =>
      rcases Machine.commit_cases s (completeAndReport s input completedAt) with h | ⟨u, s', h, e⟩
      · rw [h]
        exact ReportingChange.quiet rfl rfl rfl rfl
      · rw [e]
        obtain ⟨db, dailyUsage, hdb, husage, rfl⟩ := completeAndReport_ok h
        obtain ⟨f, hf, rfl⟩ := completeModelInvocation_finishes hdb
        exact ReportingChange.finished input.handle f .succeeded (completionCost input)
          completedAt (List.contains_iff_mem.mp hopen) hf rfl rfl rfl
          (Or.inr ⟨rfl, usageOf input completedAt, husage, rfl, rfl, rfl⟩)
    · exact ReportingChange.quiet rfl rfl rfl rfl
  | fail input completedAt =>
    simp only [reportingStep]
    split
    · next hopen =>
      have hstatus : (input.status.getD .failed).operation ≠ .succeeded := by
        cases input.status.getD .failed <;> decide
      refine ReportingChange.finished input.handle _ (input.status.getD .failed).operation
        (failedInvocationCost input.handle (input.retainReservedEstimate.getD true)) completedAt
        (List.contains_iff_mem.mp hopen) ?_ rfl rfl rfl (Or.inl ⟨hstatus, rfl⟩)
      exact ⟨fun _ => rfl, fun _ => rfl, fun _ => rfl, fun _ => rfl, fun _ => rfl⟩
    · exact ReportingChange.quiet rfl rfl rfl rfl

/-- **The accounting under the usage table** takes the steps of the machine without it. -/
theorem runtime_step (s : Reporting) (op : ReportingOp) :
    (reportingStep s op).runtime = s.runtime ∨
      ∃ op', (reportingStep s op).runtime = step s.runtime op' := by
  cases op with
  | updateBudgets budgets => exact Or.inr ⟨.updateBudgets budgets, rfl⟩
  | start now input => exact Or.inr ⟨.start now input, rfl⟩
  | complete input completedAt =>
    simp only [reportingStep]
    split
    · next hopen =>
      rcases Machine.commit_cases s (completeAndReport s input completedAt) with h | ⟨u, s', h, e⟩
      · exact Or.inl (by rw [h])
      · obtain ⟨db, dailyUsage, hdb, _, rfl⟩ := completeAndReport_ok h
        refine Or.inr ⟨.complete input, ?_⟩
        rw [e]
        simp only [step]
        rw [if_pos hopen, hdb]
    · exact Or.inl rfl
  | fail input completedAt =>
    simp only [reportingStep]
    split
    · next hopen =>
      refine Or.inr ⟨.fail input, ?_⟩
      simp only [step, failAndReport]
      rw [if_pos hopen]
    · exact Or.inl rfl

end Change

/-! ## 4. The balance of the usage table -/

/-- An invocation is on the usage table, under a date the window takes. -/
def InvocationRow.reported (completedAt : Nat → Option Nat) (model : String) (p : Int → Bool)
    (r : InvocationRow) : Bool :=
  r.model == model && r.status == .succeeded &&
    match completedAt r.id with
    | some t => p (dayWindow t).start
    | none => false

/-- The succeeded invocations of a model, in cents, by their day of completion. -/
def reportedCents (s : Reporting) (model : String) (p : Int → Bool) : Int :=
  sumWhere (InvocationRow.reported s.completedAt model p)
    (fun r => (ceilCents r.costMicros : Int)) s.runtime.db.invocations

/-- The invariant: the handles that are open have their invocation running, what a succeeded
    invocation cost fits the usage table, and the table's sums are those of the invocations. -/
structure Balanced (s : Reporting) : Prop where
  books : Books s.runtime
  running : ∀ h ∈ s.runtime.handles, ∃ r ∈ s.runtime.db.invocations, r.id = h.id ∧
    r.model = h.model ∧ r.status = .running
  table : UsageTable s.dailyUsage
  fits : ∀ r ∈ s.runtime.db.invocations, r.status = .succeeded →
    (ceilCents r.costMicros : Int) ≤ 2147483647
  sums : ∀ model p, usageIn s.dailyUsage model p = reportedCents s model p

theorem reported_of_ne {completedAt : Nat → Option Nat} {model : String} {p : Int → Bool}
    {r : InvocationRow} (h : r.status ≠ .succeeded) : r.reported completedAt model p = false := by
  unfold InvocationRow.reported
  rw [beq_false_of_ne h, Bool.and_false, Bool.false_and]

/-- Finishing an invocation that runs moves a sum by its own cents, if it succeeded. -/
theorem reported_finished {s s' : Reporting} (hb : Balanced s) {handle : InvocationHandle}
    {f : InvocationRow → InvocationRow} {status : OperationStatus} {costMicros completedAt : Nat}
    (hopen : handle ∈ s.runtime.handles) (hf : Finishes f status costMicros)
    (hrows : s'.runtime.db.invocations =
      updateWhere (fun r => r.id == handle.id) f s.runtime.db.invocations)
    (hcompleted : s'.completedAt = Function.update s.completedAt handle.id (some completedAt))
    (model : String) (p : Int → Bool) :
    reportedCents s' model p = reportedCents s model p +
      if handle.model == model && status == .succeeded && p (dayWindow completedAt).start then
        (ceilCents costMicros : Int) else 0 := by
  obtain ⟨r, hr, hid, hmodel, hrunning⟩ := hb.running handle hopen
  have hne : r.status ≠ .succeeded := by
    rw [hrunning]
    decide
  -- the new column differs at the invocation of the handle only, which is not counted yet
  have hbefore : sumWhere (InvocationRow.reported s'.completedAt model p)
      (fun r => (ceilCents r.costMicros : Int)) s.runtime.db.invocations =
        reportedCents s model p := by
    refine sumWhere_congr fun r' hr' _ => ?_
    by_cases he : r'.id = handle.id
    · have hsame : r' = r := hb.books.ids.eq hr' hr (he.trans hid.symm)
      rw [hsame, reported_of_ne hne, reported_of_ne hne]
    · unfold InvocationRow.reported
      rw [hcompleted, Function.update_of_ne he]
  have hafter : (f r).reported s'.completedAt model p =
      (handle.model == model && status == .succeeded && p (dayWindow completedAt).start) := by
    unfold InvocationRow.reported
    rw [hf.model, hf.status, hf.id, hmodel, hid, hcompleted, Function.update_self]
  have hsum := sumWhere_updateWhere_key (q := InvocationRow.reported s'.completedAt model p)
    (w := fun r => (ceilCents r.costMicros : Int)) (f := f) hb.books.ids hr
  rw [hid, hbefore, hafter, reported_of_ne hne, hf.cost] at hsum
  unfold reportedCents at hsum ⊢
  rw [hrows, hsum]
  simp only [Bool.false_eq_true, if_false, Int.sub_zero]

/-- **One step keeps the balance.** -/
theorem Balanced.change {s s' : Reporting} (hb : Balanced s) (hbooks : Books s'.runtime)
    (hc : ReportingChange s s') : Balanced s' := by
  cases hc with
  | quiet hrows hhandles hcompleted husage =>
    refine ⟨hbooks, ?_, ?_, ?_, ?_⟩
    · rw [hhandles, hrows]
      exact hb.running
    · rw [husage]
      exact hb.table
    · rw [hrows]
      exact hb.fits
    · intro model p
      rw [husage, hb.sums]
      unfold reportedCents
      rw [hrows, hcompleted]
  | started row handle hid hstatus hhid hmodel hrows hhandles hcompleted husage =>
    have hne : row.status ≠ .succeeded := by
      rw [hstatus]
      decide
    refine ⟨hbooks, fun h hh => ?_, husage ▸ hb.table, fun r hr hs => ?_, fun model p => ?_⟩
    · rw [hhandles] at hh
      rw [hrows]
      rcases List.mem_append.mp hh with hh | hh
      · obtain ⟨r, hr, hrest⟩ := hb.running h hh
        exact ⟨r, List.mem_append_left _ hr, hrest⟩
      · rw [List.mem_singleton.mp hh]
        exact ⟨row, List.mem_append_right _ (List.mem_singleton_self row), hhid.symm,
          hmodel.symm, hstatus⟩
    · rw [hrows] at hr
      rcases List.mem_append.mp hr with hr | hr
      · exact hb.fits r hr hs
      · rw [List.mem_singleton.mp hr] at hs
        exact absurd hs hne
    · rw [husage, hb.sums]
      unfold reportedCents
      rw [hrows, hcompleted, sumWhere_append_one, reported_of_ne hne]
      simp only [Bool.false_eq_true, if_false, Int.add_zero]
  | finished handle f status costMicros completedAt hopen hf hrows hhandles hcompleted husage =>
    have hsums := reported_finished hb hopen hf hrows hcompleted
    have hrunning : ∀ h ∈ s'.runtime.handles, ∃ r ∈ s'.runtime.db.invocations, r.id = h.id ∧
        r.model = h.model ∧ r.status = .running := by
      intro h hh
      rw [hhandles] at hh
      obtain ⟨hh, hne⟩ := List.mem_filter.mp hh
      obtain ⟨r, hr, h1, hrest⟩ := hb.running h hh
      have hother : r.id ≠ handle.id := by
        rw [h1]
        exact bne_iff_ne.mp hne
      have hm := mem_updateWhere_of_mem (p := fun r => r.id == handle.id) (f := f) hr
      rw [if_neg fun e => hother (beq_iff_eq.mp e)] at hm
      rw [hrows]
      exact ⟨r, hm, h1, hrest⟩
    have hstem : ∀ r ∈ s'.runtime.db.invocations, r.status = .succeeded →
        r.costMicros = costMicros ∧ status = .succeeded ∨ r ∈ s.runtime.db.invocations := by
      intro r hr hs
      rw [hrows] at hr
      obtain ⟨r₀, hr₀, rfl⟩ := mem_updateWhere.mp hr
      by_cases hid : r₀.id = handle.id
      · rw [if_pos (beq_iff_eq.mpr hid), hf.status] at hs
        rw [if_pos (beq_iff_eq.mpr hid)]
        exact Or.inl ⟨hf.cost r₀, hs⟩
      · rw [if_neg fun e => hid (beq_iff_eq.mp e)]
        exact Or.inr hr₀
    rcases husage with ⟨hne, husage⟩ | ⟨hstatus, new, hinsert, hmodel, hdate, hcents⟩
    · -- a failure or a cancellation: neither side moves
      refine ⟨hbooks, hrunning, husage ▸ hb.table, fun r hr hs => ?_, fun model p => ?_⟩
      · rcases hstem r hr hs with ⟨_, h⟩ | h
        · exact absurd h hne
        · exact hb.fits r h hs
      · rw [husage, hsums, hb.sums, beq_false_of_ne hne]
        simp only [Bool.and_false, Bool.false_and, Bool.false_eq_true, if_false, Int.add_zero]
    · -- a completion: both sides grow by its cents
      have hnonneg : 0 ≤ new.costCents := by
        rw [hcents]
        exact Int.natCast_nonneg _
      obtain ⟨htable, hmax, hadded⟩ := insertDailyUsage_ok hb.table hnonneg hinsert
      refine ⟨hbooks, hrunning, htable, fun r hr hs => ?_, fun model p => ?_⟩
      · rcases hstem r hr hs with ⟨h, _⟩ | h
        · rw [h, ← hcents]
          exact hmax
        · exact hb.fits r h hs
      · rw [hadded, hsums, hb.sums, hmodel, hdate, hcents, hstatus, beq_self_eq_true,
          Bool.and_true]

section Runs

variable [DoubleRounding]

theorem balanced_step (s : Reporting) (op : ReportingOp) (hb : Balanced s) :
    Balanced (reportingStep s op) := by
  have hbooks : Books (reportingStep s op).runtime := by
    rcases runtime_step s op with h | ⟨op', h⟩
    · rw [h]
      exact hb.books
    · rw [h]
      exact hb.books.change (change_step s.runtime op')
  exact hb.change hbooks (reporting_change s op)

theorem balanced_run (users : List UserRow) (ops : List ReportingOp) :
    Balanced (Machine.run reportingStep (initialReporting users) ops) := by
  have h0 : Balanced (initialReporting users) :=
    { books := books_initial users
      running := fun _ hh => absurd hh List.not_mem_nil
      table := ⟨UniqueOn.nil _, fun _ hu => absurd hu List.not_mem_nil⟩
      fits := fun _ hr => absurd hr List.not_mem_nil
      sums := fun _ _ => rfl }
  exact Machine.run_invariant h0 balanced_step ops

/-- **The usage table adds up**: on any set of days it holds what a model's invocations that
    succeeded on them cost, in cents, with one row for each day, provider and model. -/
theorem usage_adds_up (users : List UserRow) (ops : List ReportingOp) :
    let s := Machine.run reportingStep (initialReporting users) ops
    (∀ model p, ((s.dailyUsage.filter fun u => u.model == model && p u.date).map
      (·.costCents)).sum = reportedCents s model p) ∧
    ∀ u ∈ s.dailyUsage, ∀ other ∈ s.dailyUsage, other.key = u.key → other = u := by
  intro s
  have h : Balanced s := balanced_run users ops
  exact ⟨h.sums, fun u hu other ho e => h.table.keys.eq ho hu e⟩

end Runs

/-! ## 5. The amounts of the finished invocations -/

def InvocationRow.finished (r : InvocationRow) : Bool :=
  r.status == .succeeded || r.status == .failed || r.status == .cancelled

/-- An invocation the admission check counts for the window, when it is finished. -/
def InvocationRow.finishedIn (model : String) (w : UsageWindow) (r : InvocationRow) : Bool :=
  r.counted model w && r.finished

/-- What the admission check counts for a window over the finished invocations. -/
def finishedCost (db : RuntimeDb) (model : String) (w : UsageWindow) : Int :=
  sumWhere (InvocationRow.finishedIn model w) (fun r => (r.costMicros : Int)) db.invocations

def finishedCount (db : RuntimeDb) (model : String) (w : UsageWindow) : Nat :=
  (db.invocations.filter (InvocationRow.finishedIn model w)).length

/-- Cents and micros agree up to less than one cent for each invocation. -/
def UpToCents (usedCents : Nat) (costMicros : Int) (count : Nat) : Prop :=
  costMicros = usedCents * MICROS_PER_CENT ∨
    costMicros < (usedCents + count) * MICROS_PER_CENT ∧
      usedCents * MICROS_PER_CENT < costMicros + count * MICROS_PER_CENT

theorem ceilCents_bounds (costMicros : Nat) :
    costMicros ≤ ceilCents costMicros * 10000 ∧
      ceilCents costMicros * 10000 ≤ costMicros + 9999 := by
  unfold ceilCents MICROS_PER_CENT
  omega

theorem ceilCents_eq_zero {costMicros : Nat} (h : costMicros = 0) : ceilCents costMicros = 0 := by
  rw [h]
  rfl

/-- **The cents of several invocations** exceed what they cost by less than one cent each. -/
theorem rounded_sum {p : InvocationRow → Bool} {rows : List InvocationRow}
    (h : ∀ r ∈ rows, p r = true → (ceilCents r.costMicros : Int) ≤ 2147483647) :
    let costMicros := sumWhere p (fun r => (r.costMicros : Int)) rows
    let cents := sumWhere p (fun r => (ceilCents r.costMicros : Int)) rows
    let count : Int := ((rows.filter p).length : Nat)
    costMicros ≤ cents * 10000 ∧ cents * 10000 ≤ costMicros + 9999 * count ∧
      cents ≤ 2147483647 * count := by
  induction rows with
  | nil => simp
  | cons r rows ih =>
    have ih' := ih fun r' hr' => h r' (List.mem_cons_of_mem _ hr')
    simp only at ih' ⊢
    rw [sumWhere_cons, sumWhere_cons, List.filter_cons]
    by_cases hp : p r = true
    · have hcents := h r List.mem_cons_self hp
      have hbounds := ceilCents_bounds r.costMicros
      simp only [hp, if_true, List.length_cons]
      push_cast
      omega
    · simp only [hp, Bool.false_eq_true, if_false]
      omega

/-- The amount of the overview, read back as a double, is within the same bound: an `integer`
    column is too small for rounding to reach a cent. -/
theorem upToCents_nearest {cents : Nat} {costMicros count : Int} {n : Nat} (hn : count = n)
    (hlow : costMicros ≤ cents * 10000) (hhigh : (cents : Int) * 10000 ≤ costMicros + 9999 * count)
    (hmax : (cents : Int) ≤ 2147483647 * count) :
    UpToCents (JsNumber.nearest cents) costMicros n := by
  have hnear := JsNumber.nearest_near cents
  have hdiv : cents / 2 ^ 52 * 2 ^ 52 ≤ cents := Nat.div_mul_le_self cents (2 ^ 52)
  unfold UpToCents MICROS_PER_CENT
  subst hn
  by_cases h0 : n = 0
  · subst h0
    have hzero : cents = 0 := by omega
    subst hzero
    rw [JsNumber.nearest_of_lt (by decide)]
    exact Or.inl (by omega)
  · refine Or.inr ⟨?_, ?_⟩
    · omega
    · omega

/-! ## 6. The overview and the cap -/

/-- The finished cost of a window reaches a non-zero limit. -/
def Exhausts (limitCents : Nat) (costMicros : Int) : Prop :=
  0 < limitCents ∧ ((limitCents * MICROS_PER_CENT : Nat) : Int) ≤ costMicros

/-- The finished cost of a window is less than one cent for each invocation below a non-zero
    limit, or has reached it. -/
def AboutExhausts (limitCents : Nat) (costMicros : Int) (count : Nat) : Prop :=
  0 < limitCents ∧
    ((limitCents * MICROS_PER_CENT : Nat) : Int) ≤ costMicros + count * (MICROS_PER_CENT - 1)

/-- **An overview agrees with the cap**: its amounts are those the admission check counts over
    the finished invocations, and its circuit has tripped exactly if they exhaust a limit. -/
structure Agrees (db : RuntimeDb) (now : Nat) (overview : BudgetOverview) : Prop where
  daily : UpToCents overview.dailyUsedCents
    (finishedCost db overview.budget.model (dayWindow now))
    (finishedCount db overview.budget.model (dayWindow now))
  monthly : UpToCents overview.monthlyUsedCents
    (finishedCost db overview.budget.model (monthWindow now))
    (finishedCount db overview.budget.model (monthWindow now))
  trips : overview.budget.enabled = true →
    Exhausts overview.budget.dailyLimitCents
        (finishedCost db overview.budget.model (dayWindow now)) ∨
      Exhausts overview.budget.monthlyLimitCents
        (finishedCost db overview.budget.model (monthWindow now)) →
    overview.circuitStatus = .tripped
  notBefore : overview.circuitStatus = .tripped → overview.budget.enabled = true ∧
    (AboutExhausts overview.budget.dailyLimitCents
        (finishedCost db overview.budget.model (dayWindow now))
        (finishedCount db overview.budget.model (dayWindow now)) ∨
      AboutExhausts overview.budget.monthlyLimitCents
        (finishedCost db overview.budget.model (monthWindow now))
        (finishedCount db overview.budget.model (monthWindow now)))

/-- The overview takes the invocation from a day of UTC on: it succeeded, on a later day in
    Beijing. -/
def TakenAfter (s : Reporting) (day : Nat) (r : InvocationRow) : Prop :=
  r.status = .succeeded ∧ ∃ t, s.completedAt r.id = some t ∧ day < beijingDay t

/-- **Every finished invocation of the model that cost anything is counted alike**: it succeeded
    on a Beijing day after the UTC day of now exactly if it started on the Beijing day of now, and
    on a Beijing day after the first of the UTC month of now exactly if it started in the Beijing
    month of now. -/
def CountedAlike (s : Reporting) (now : Nat) (model : String) : Prop :=
  ∀ r ∈ s.runtime.db.invocations, r.model = model → r.finished = true → r.costMicros ≠ 0 →
    (TakenAfter s (utcDay now) r ↔ beijingDay r.startedAt = beijingDay now) ∧
    (TakenAfter s (utcMonthFirst now) r ↔ beijingMonth r.startedAt = beijingMonth now)

theorem reported_iff {s : Reporting} {model : String} {p : Int → Bool} {day : Nat}
    (hp : ∀ t, p (dayWindow t).start = true ↔ day < beijingDay t) {r : InvocationRow} :
    r.reported s.completedAt model p = true ↔ r.model = model ∧ TakenAfter s day r := by
  unfold InvocationRow.reported TakenAfter
  rw [Bool.and_eq_true, Bool.and_eq_true, beq_iff_eq, beq_iff_eq, and_assoc]
  refine and_congr_right fun _ => and_congr_right fun _ => ?_
  cases s.completedAt r.id with
  | none => simp
  | some t => simp [hp]

theorem finishedIn_iff {model : String} {w : UsageWindow} {r : InvocationRow} :
    r.finishedIn model w = true ↔
      r.model = model ∧ r.finished = true ∧ w.covers r.startedAt = true := by
  unfold InvocationRow.finishedIn InvocationRow.counted InvocationRow.finished
  cases r.status <;> simp [BUDGET_ACCOUNTED_INVOCATION_STATUSES]

/-- **An amount of the overview**, when the invocations it takes are those of the window. -/
theorem upToCents_of_alike {s : Reporting} (hb : Balanced s) {model : String} {p : Int → Bool}
    {w : UsageWindow} {day : Nat} (hp : ∀ t, p (dayWindow t).start = true ↔ day < beijingDay t)
    (halike : ∀ r ∈ s.runtime.db.invocations, r.model = model → r.finished = true →
      r.costMicros ≠ 0 → (TakenAfter s day r ↔ w.covers r.startedAt = true)) :
    let cents := usageIn s.dailyUsage model p
    UpToCents (JsNumber.nearest cents.toNat) (finishedCost s.runtime.db model w)
        (finishedCount s.runtime.db model w) ∧
      finishedCost s.runtime.db model w ≤ cents * 10000 ∧
      cents * 10000 ≤
        finishedCost s.runtime.db model w + 9999 * finishedCount s.runtime.db model w := by
  intro cents
  have htaken : ∀ r ∈ s.runtime.db.invocations, r.costMicros ≠ 0 →
      (r.reported s.completedAt model p = true ↔ r.finishedIn model w = true) := by
    intro r hr hcost
    rw [reported_iff hp, finishedIn_iff]
    refine and_congr_right fun hmodel => ?_
    constructor
    · intro ht
      have hfinished : r.finished = true := by
        unfold InvocationRow.finished
        rw [ht.1]
        rfl
      exact ⟨hfinished, (halike r hr hmodel hfinished hcost).mp ht⟩
    · intro ⟨hfinished, hcovers⟩
      exact (halike r hr hmodel hfinished hcost).mpr hcovers
  have hsame : cents =
      sumWhere (InvocationRow.finishedIn model w) (fun r => (ceilCents r.costMicros : Int))
        s.runtime.db.invocations := by
    show usageIn s.dailyUsage model p = _
    rw [hb.sums]
    refine sumWhere_congr fun r hr hne => ?_
    have hcost : r.costMicros ≠ 0 := fun e => hne (by rw [ceilCents_eq_zero e]; rfl)
    exact Bool.eq_iff_iff.mpr (htaken r hr hcost)
  have hfits : ∀ r ∈ s.runtime.db.invocations, r.finishedIn model w = true →
      (ceilCents r.costMicros : Int) ≤ 2147483647 := by
    intro r hr hin
    by_cases hcost : r.costMicros = 0
    · rw [ceilCents_eq_zero hcost]
      decide
    · have ht := ((reported_iff hp).mp ((htaken r hr hcost).mpr hin)).2
      exact hb.fits r hr ht.1
  obtain ⟨hlow, hhigh, hmax⟩ := rounded_sum hfits
  have hnonneg : 0 ≤ cents := by
    rw [hsame]
    exact sumWhere_nonneg fun r _ => Int.natCast_nonneg _
  rw [← hsame] at hlow hhigh hmax
  have hcast : ((cents.toNat : Nat) : Int) = cents := Int.toNat_of_nonneg hnonneg
  refine ⟨upToCents_nearest rfl ?_ ?_ ?_, hlow, hhigh⟩
  · rw [hcast]
    exact hlow
  · rw [hcast]
    exact hhigh
  · rw [hcast]
    exact hmax

theorem usedRatio_ge_one {used limit : Nat} :
    usedRatio used limit ≥ 1 ↔ 0 < limit ∧ limit ≤ used := by
  unfold usedRatio
  split
  · next h =>
    have hpos : (0 : ℚ) < limit := by exact_mod_cast h
    rw [ge_iff_le, one_le_div hpos, Nat.cast_le]
    exact ⟨fun hle => ⟨h, hle⟩, fun hle => hle.2⟩
  · next h =>
    constructor
    · intro h1
      exact absurd h1 (by norm_num)
    · intro h1
      exact absurd h1.1 h

theorem circuitStatus_tripped {budget : ModelBudgetPolicy} {daily monthly : Nat} :
    circuitStatus budget daily monthly = .tripped ↔ budget.enabled = true ∧
      (0 < budget.dailyLimitCents ∧ budget.dailyLimitCents ≤ daily ∨
        0 < budget.monthlyLimitCents ∧ budget.monthlyLimitCents ≤ monthly) := by
  unfold circuitStatus
  simp only [usedRatio_ge_one]
  cases budget.enabled with
  | false => simp
  | true =>
    simp only [Bool.not_true, Bool.false_eq_true, if_false, true_and]
    split
    · next h => exact ⟨fun _ => h, fun _ => rfl⟩
    · next h =>
      refine ⟨fun e => ?_, fun e => absurd e h⟩
      split at e
      · nomatch e
      · nomatch e

/-- A limit of the schema is reached by the double of the cents exactly if by the cents. -/
theorem limit_le_nearest {limit cents : Nat} (h : limit ≤ 1000000000) :
    limit ≤ JsNumber.nearest cents ↔ limit ≤ cents := by
  cases limit with
  | zero => simp
  | succ n =>
    have hn : n < JsNumber.twoTo53 := by
      unfold JsNumber.twoTo53
      omega
    have hle := JsNumber.nearest_le_iff (n := cents) hn
    omega

/-- A limit is reached by the cents of a window when its cost exhausts it, and not before. -/
theorem reaches_of_exhausts {limit : Nat} {cents costMicros : Int} (hlimit : limit ≤ 1000000000)
    (hlow : costMicros ≤ cents * 10000) (h : Exhausts limit costMicros) :
    0 < limit ∧ limit ≤ JsNumber.nearest cents.toNat := by
  obtain ⟨hpos, hle⟩ := h
  unfold MICROS_PER_CENT at hle
  rw [limit_le_nearest hlimit]
  omega

theorem exhausts_of_reaches {limit count : Nat} {cents costMicros : Int}
    (hlimit : limit ≤ 1000000000) (hhigh : cents * 10000 ≤ costMicros + 9999 * count)
    (h : 0 < limit ∧ limit ≤ JsNumber.nearest cents.toNat) :
    AboutExhausts limit costMicros count := by
  obtain ⟨hpos, hle⟩ := h
  rw [limit_le_nearest hlimit] at hle
  refine ⟨hpos, ?_⟩
  unfold MICROS_PER_CENT
  omega

section Runs

variable [DoubleRounding]

/-- **The overview of a balanced table agrees with the cap** where the invocations are counted
    alike. -/
theorem overview_agrees {s : Reporting} (hb : Balanced s) {now : Nat} {budget : ModelBudgetPolicy}
    (hbudget : PolicyBounded budget) (halike : CountedAlike s now budget.model) :
    Agrees s.runtime.db now (overviewOf s.dailyUsage now budget) := by
  have hday := @upToCents_of_alike s hb budget.model
    (fun date => decide ((utcMonthStart now : Int) ≤ date) &&
      decide ((utcDayStart now : Int) ≤ date)) (dayWindow now) (utcDay now)
    (fun t => by
      have hfirst := utcMonthFirst_le now
      rw [Bool.and_eq_true, decide_eq_true_eq, decide_eq_true_eq, rowDate_monthStart,
        rowDate_dayStart]
      omega)
    (fun r hr hmodel hfinished hcost => by
      rw [dayWindow_covers_day]
      exact (halike r hr hmodel hfinished hcost).1)
  have hmonth := @upToCents_of_alike s hb budget.model
    (fun date => decide ((utcMonthStart now : Int) ≤ date) &&
      decide ((utcMonthStart now : Int) ≤ date)) (monthWindow now) (utcMonthFirst now)
    (fun t => by
      rw [Bool.and_self, decide_eq_true_eq, rowDate_monthStart])
    (fun r hr hmodel hfinished hcost => by
      rw [monthWindow_covers_month]
      exact (halike r hr hmodel hfinished hcost).2)
  obtain ⟨hdaily, hdlow, hdhigh⟩ := hday
  obtain ⟨hmonthly, hmlow, hmhigh⟩ := hmonth
  have hd : budget.dailyLimitCents ≤ 1000000000 := by
    have := hbudget.daily
    omega
  have hm := hbudget.monthly
  refine ⟨hdaily, hmonthly, fun henabled hexhausts => ?_, fun htripped => ?_⟩
  · refine circuitStatus_tripped.mpr ⟨henabled, ?_⟩
    rcases hexhausts with h | h
    · exact Or.inl (reaches_of_exhausts hd hdlow h)
    · exact Or.inr (reaches_of_exhausts hm hmlow h)
  · obtain ⟨henabled, hreached⟩ := circuitStatus_tripped.mp htripped
    refine ⟨henabled, ?_⟩
    rcases hreached with h | h
    · exact Or.inl (exhausts_of_reaches hd hdhigh h)
    · exact Or.inr (exhausts_of_reaches hm hmhigh h)

/-- **The budget overview against the spending cap**, after any history of invocations and at
    any instant:

    * where the model's finished invocations are counted alike, its overview agrees with what the
      admission check counts over them, and its circuit has tripped exactly if they exhaust a
      limit of the budget, up to less than one cent for each invocation;
    * the budget an admission of a model enforces is one of those in the overview. -/
theorem budget_overview_agrees (users : List UserRow) (ops : List ReportingOp) (now : Nat) :
    let s := Machine.run reportingStep (initialReporting users) ops
    (∀ overview ∈ getBudgetOverview s now, CountedAlike s now overview.budget.model →
      Agrees s.runtime.db now overview) ∧
    (∀ model policy, findModelBudget s.runtime.db.budgets model = some policy →
      policy.model = model ∧ ∃ overview ∈ getBudgetOverview s now, overview.budget = policy) := by
  intro s
  have hb : Balanced s := balanced_run users ops
  refine ⟨fun overview ho halike => ?_, fun model policy hp => ?_⟩
  · obtain ⟨budget, hbudget, rfl⟩ := List.mem_map.mp ho
    cases hitems : s.runtime.db.budgets with
    | none =>
      rw [hitems] at hbudget
      exact absurd hbudget List.not_mem_nil
    | some items =>
      rw [hitems] at hbudget
      exact overview_agrees hb (hb.books.policies items hitems budget hbudget) halike
  · obtain ⟨items, hitems, hmem⟩ := findModelBudget_mem hp
    refine ⟨?_, overviewOf s.dailyUsage now policy, List.mem_map.mpr ⟨policy, ?_, rfl⟩, rfl⟩
    · rw [hitems] at hp
      have hfound := List.find?_some hp
      rw [Bool.and_eq_true, Bool.and_eq_true, beq_iff_eq] at hfound
      exact hfound.1.1
    · rw [hitems]
      exact hmem

end Runs

/-- One invocation of three cents, the whole daily limit, and what the overview says an hour
    after it started. -/
def threeCents [DoubleRounding] (startedAt : Nat) : Reporting :=
  Machine.run reportingStep (initialReporting [{ id := "u", deletionRequestedAt := none }])
    [.updateBudgets [⟨"deepseek-chat", 3, 90, true⟩],
      .start startedAt
        ⟨"u", "deepseek", "deepseek-chat", ["hi"], 10, ⟨1250000000, 1250000000⟩⟩,
      .complete
        { handle :=
            { id := 0, provider := "deepseek", model := "deepseek-chat", startedAt
              reservedCostMicros := 30000, estimatedInputTokens := 14, maximumOutputTokens := 10
              pricing := ⟨1250000000, 1250000000⟩ }
          usage := some ⟨some 14, some 10⟩, providerRequestId := none }
        (startedAt + 1000)]

/-- Between midnight and eight in Beijing: the overview has tripped. -/
theorem budget_overview_agrees_night :
    let _ : DoubleRounding := ⟨fun q => q⟩
    let s := threeCents 57600000
    ∃ overview ∈ getBudgetOverview s 61200000, overview.dailyUsedCents = 3 ∧
      overview.circuitStatus = .tripped ∧ Agrees s.runtime.db 61200000 overview := by
  intro _ s
  have halike : CountedAlike s 61200000 "deepseek-chat" := by
    have hrows : s.runtime.db.invocations =
        [⟨0, "u", "deepseek", "deepseek-chat", none, .succeeded, 30000, 57600000⟩] := by
      decide +kernel
    have hcompleted : s.completedAt 0 = some 57601000 := by decide +kernel
    intro r hr _ _ _
    rw [hrows, List.mem_singleton] at hr
    subst hr
    constructor
    · exact ⟨fun _ => by decide +kernel, fun _ => ⟨rfl, 57601000, hcompleted, by decide +kernel⟩⟩
    · exact ⟨fun _ => by decide +kernel, fun _ => ⟨rfl, 57601000, hcompleted, by decide +kernel⟩⟩
  have hoverview : getBudgetOverview s 61200000 =
      [⟨⟨"deepseek-chat", 3, 90, true⟩, 3, 3, 93, .tripped⟩] := by
    decide +kernel
  refine ⟨⟨⟨"deepseek-chat", 3, 90, true⟩, 3, 3, 93, .tripped⟩, ?_, rfl, rfl, ?_⟩
  · rw [hoverview]
    exact List.mem_singleton_self _
  · refine (budget_overview_agrees _ _ 61200000).1 _ ?_ halike
    show _ ∈ getBudgetOverview s 61200000
    rw [hoverview]
    exact List.mem_singleton_self _

/-- From eight in the morning on the rows of today are dated before the day of UTC: the daily
    limit is exhausted, the overview reports nothing used and no trip. -/
theorem budget_overview_misses_today :
    ¬ ∀ (_ : DoubleRounding) (users : List UserRow) (ops : List ReportingOp) (now : Nat),
      ∀ overview ∈ getBudgetOverview (Machine.run reportingStep (initialReporting users) ops) now,
        Agrees (Machine.run reportingStep (initialReporting users) ops).runtime.db now
          overview := by
  intro h
  let rounding : DoubleRounding := ⟨fun q => q⟩
  have hoverview : getBudgetOverview (threeCents 3600000) 7200000 =
      [⟨⟨"deepseek-chat", 3, 90, true⟩, 0, 0, 0, .ok⟩] := by
    decide +kernel
  have hagrees : Agrees (threeCents 3600000).runtime.db 7200000
      ⟨⟨"deepseek-chat", 3, 90, true⟩, 0, 0, 0, .ok⟩ := by
    refine h rounding _ _ 7200000 _ ?_
    show _ ∈ getBudgetOverview (threeCents 3600000) 7200000
    rw [hoverview]
    exact List.mem_singleton_self _
  have hcost : finishedCost (threeCents 3600000).runtime.db "deepseek-chat" (dayWindow 7200000) =
      30000 := by
    decide +kernel
  have htripped := hagrees.trips rfl (Or.inl ⟨by decide, by rw [hcost]; decide⟩)
  nomatch htripped

end OpenVac.Operations
