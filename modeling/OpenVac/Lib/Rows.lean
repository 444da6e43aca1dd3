/-
  File:      OpenVac/Lib/Rows.lean
  Subject:   Tables as lists of rows, with the SQL statements the models use.

  * `updateWhere`, `deleteWhere`, `sumWhere` -- `UPDATE … WHERE`, `DELETE … WHERE` and
    `SELECT sum(…) … WHERE` over a list of rows.
  * `UniqueOn key` -- a primary key or a unique index.
  * The algebra of `sumWhere`: over an append, over an update of ONE keyed row
    (`sumWhere_updateWhere_key`), over an update and a deletion the sum does not see.
  * `maxBy`, `maxOf` -- `ORDER BY … DESC LIMIT 1` and `SELECT max(…)`, with `maxBy_spec`.
-/
import Mathlib.Algebra.BigOperators.Group.List.Basic
import Mathlib.Algebra.Order.BigOperators.Group.List
import Mathlib.Data.List.Nodup
import Mathlib.Data.Int.Order.Basic
import Mathlib.Tactic.Ring

namespace Rows

variable {ρ κ : Type*}

/-- `UPDATE rows SET f WHERE p`. -/
def updateWhere (p : ρ → Bool) (f : ρ → ρ) (rows : List ρ) : List ρ :=
  rows.map fun r => if p r then f r else r

/-- `DELETE FROM rows WHERE p`. -/
def deleteWhere (p : ρ → Bool) (rows : List ρ) : List ρ := rows.filter fun r => !p r

/-- `SELECT coalesce(sum(w), 0) FROM rows WHERE p`. -/
def sumWhere (p : ρ → Bool) (w : ρ → ℤ) (rows : List ρ) : ℤ := ((rows.filter p).map w).sum

/-- `SELECT … FROM rows ORDER BY w DESC LIMIT 1`: the first row with the largest `w`. -/
def maxBy (w : ρ → ℤ) (rows : List ρ) : Option ρ :=
  rows.foldl
    (fun best row =>
      match best with
      | none => some row
      | some b => if w b < w row then some row else some b)
    none

/-- `SELECT max(w) FROM rows`. -/
def maxOf (w : ρ → ℤ) (rows : List ρ) : Option ℤ := (maxBy w rows).map w

/-- No two rows share a key: a primary key, or a unique index. -/
def UniqueOn (key : ρ → κ) (rows : List ρ) : Prop := (rows.map key).Nodup

/-! ## 1. Members -/

theorem mem_updateWhere {p : ρ → Bool} {f : ρ → ρ} {rows : List ρ} {r : ρ} :
    r ∈ updateWhere p f rows ↔ ∃ r₀ ∈ rows, r = if p r₀ then f r₀ else r₀ := by
  simp only [updateWhere, List.mem_map, eq_comm]

/-- Every row of an updated table stems from a row with the same value of every column the
    update leaves alone. -/
theorem mem_updateWhere_stem {p : ρ → Bool} {f : ρ → ρ} {rows : List ρ} {r : ρ} {key : ρ → κ}
    (hf : ∀ r, key (f r) = key r) (h : r ∈ updateWhere p f rows) :
    ∃ r₀ ∈ rows, key r = key r₀ := by
  obtain ⟨r₀, hm, rfl⟩ := mem_updateWhere.mp h
  refine ⟨r₀, hm, ?_⟩
  split
  · exact hf r₀
  · rfl

/-- The same for two columns of one row. -/
theorem mem_updateWhere_stem₂ {κ' : Type*} {p : ρ → Bool} {f : ρ → ρ} {rows : List ρ} {r : ρ}
    {key : ρ → κ} {key' : ρ → κ'} (hf : ∀ r, key (f r) = key r) (hf' : ∀ r, key' (f r) = key' r)
    (h : r ∈ updateWhere p f rows) : ∃ r₀ ∈ rows, key r = key r₀ ∧ key' r = key' r₀ := by
  obtain ⟨r₀, hm, rfl⟩ := mem_updateWhere.mp h
  refine ⟨r₀, hm, ?_⟩
  split
  · exact ⟨hf r₀, hf' r₀⟩
  · exact ⟨rfl, rfl⟩

theorem mem_updateWhere_of_mem {p : ρ → Bool} {f : ρ → ρ} {rows : List ρ} {r : ρ}
    (h : r ∈ rows) : (if p r then f r else r) ∈ updateWhere p f rows :=
  mem_updateWhere.mpr ⟨r, h, rfl⟩

theorem mem_deleteWhere {p : ρ → Bool} {rows : List ρ} {r : ρ} :
    r ∈ deleteWhere p rows ↔ r ∈ rows ∧ p r = false := by
  simp only [deleteWhere, List.mem_filter, Bool.not_eq_true']

@[simp] theorem map_updateWhere {p : ρ → Bool} {f : ρ → ρ} {key : ρ → κ}
    (hf : ∀ r, key (f r) = key r) (rows : List ρ) :
    (updateWhere p f rows).map key = rows.map key := by
  simp only [updateWhere, List.map_map]
  refine List.map_congr_left fun r _ => ?_
  simp only [Function.comp]
  split
  · exact hf r
  · rfl

/-- An update that changes none of its rows. -/
theorem updateWhere_eq_self {p : ρ → Bool} {f : ρ → ρ} {rows : List ρ}
    (h : ∀ r ∈ rows, p r = true → f r = r) : updateWhere p f rows = rows := by
  unfold updateWhere
  rw [List.map_congr_left (g := id) fun r hr => ?_, List.map_id]
  split
  · next hp => exact h r hr hp
  · rfl

theorem updateWhere_append (p : ρ → Bool) (f : ρ → ρ) (rows more : List ρ) :
    updateWhere p f (rows ++ more) = updateWhere p f rows ++ updateWhere p f more := by
  simp only [updateWhere, List.map_append]

/-- Two updates of the same rows, where the first leaves the condition as it is. -/
theorem updateWhere_updateWhere {p : ρ → Bool} {f g : ρ → ρ} (hf : ∀ r, p (f r) = p r)
    (rows : List ρ) :
    updateWhere p g (updateWhere p f rows) = updateWhere p (fun r => g (f r)) rows := by
  simp only [updateWhere, List.map_map]
  refine List.map_congr_left fun r _ => ?_
  simp only [Function.comp]
  by_cases hp : p r = true
  · rw [if_pos hp, if_pos hp, if_pos ((hf r).trans hp)]
  · rw [if_neg hp, if_neg hp, if_neg hp]

/-- Row by row, an updated table has the updated rows and the others. -/
theorem forall₂_updateWhere {R : ρ → ρ → Prop} {p : ρ → Bool} {f : ρ → ρ} {rows : List ρ}
    (hr : ∀ r ∈ rows, R r r) (hf : ∀ r ∈ rows, p r = true → R r (f r)) :
    List.Forall₂ R rows (updateWhere p f rows) := by
  induction rows with
  | nil => exact List.Forall₂.nil
  | cons r rows ih =>
    refine List.Forall₂.cons ?_ (ih (fun r' h => hr r' (List.mem_cons_of_mem _ h))
      fun r' h => hf r' (List.mem_cons_of_mem _ h))
    show R r (if p r then f r else r)
    by_cases hp : p r = true
    · rw [if_pos hp]
      exact hf r List.mem_cons_self hp
    · rw [if_neg hp]
      exact hr r List.mem_cons_self

/-- A row of one table has its counterpart in the other. -/
theorem forall₂_mem {σ : Type*} {R : ρ → σ → Prop} {rows : List ρ} {rows' : List σ}
    (h : List.Forall₂ R rows rows') {r' : σ} (hm : r' ∈ rows') : ∃ r ∈ rows, R r r' := by
  induction h with
  | nil => exact absurd hm List.not_mem_nil
  | cons hr _ ih =>
    rcases List.mem_cons.mp hm with rfl | hm
    · exact ⟨_, List.mem_cons_self, hr⟩
    · obtain ⟨r, hmr, e⟩ := ih hm
      exact ⟨r, List.mem_cons_of_mem _ hmr, e⟩

theorem forall₂_mem_left {σ : Type*} {R : ρ → σ → Prop} {rows : List ρ} {rows' : List σ}
    (h : List.Forall₂ R rows rows') {r : ρ} (hm : r ∈ rows) : ∃ r' ∈ rows', R r r' :=
  forall₂_mem h.flip hm

/-- A column that each pair of rows agrees on. -/
theorem forall₂_map_eq {key : ρ → κ} {rows rows' : List ρ}
    (h : List.Forall₂ (fun r r' => key r' = key r) rows rows') :
    rows'.map key = rows.map key := by
  induction h with
  | nil => rfl
  | cons hr _ ih => rw [List.map_cons, List.map_cons, hr, ih]

/-- Steps of rows, one after the other. -/
theorem forall₂_trans {R S T : ρ → ρ → Prop} (hT : ∀ a b c, R a b → S b c → T a c)
    {rows₁ rows₂ rows₃ : List ρ} (h : List.Forall₂ R rows₁ rows₂)
    (h' : List.Forall₂ S rows₂ rows₃) : List.Forall₂ T rows₁ rows₃ := by
  induction h generalizing rows₃ with
  | nil =>
    cases h'
    exact List.Forall₂.nil
  | cons hr _ ih =>
    cases h' with
    | cons hs hrest => exact List.Forall₂.cons (hT _ _ _ hr hs) (ih hrest)

/-! ## 2. Unique keys -/

theorem UniqueOn.nil (key : ρ → κ) : UniqueOn key ([] : List ρ) := List.nodup_nil

theorem UniqueOn.eq {key : ρ → κ} {rows : List ρ} (h : UniqueOn key rows) {r r' : ρ}
    (hr : r ∈ rows) (hr' : r' ∈ rows) (e : key r = key r') : r = r' :=
  List.inj_on_of_nodup_map h hr hr' e

theorem UniqueOn.updateWhere {key : ρ → κ} {rows : List ρ} (h : UniqueOn key rows)
    {p : ρ → Bool} {f : ρ → ρ} (hf : ∀ r, key (f r) = key r) :
    UniqueOn key (updateWhere p f rows) := by
  unfold UniqueOn
  rw [map_updateWhere hf]
  exact h

theorem UniqueOn.deleteWhere {key : ρ → κ} {rows : List ρ} (h : UniqueOn key rows)
    (p : ρ → Bool) : UniqueOn key (deleteWhere p rows) :=
  List.Nodup.sublist (List.Sublist.map key List.filter_sublist) h

theorem UniqueOn.append_one {key : ρ → κ} {rows : List ρ} (h : UniqueOn key rows) {r : ρ}
    (hr : ∀ r' ∈ rows, key r' ≠ key r) : UniqueOn key (rows ++ [r]) := by
  unfold UniqueOn
  rw [List.map_append, List.nodup_append]
  refine ⟨h, List.nodup_singleton _, fun a ha b hb => ?_⟩
  obtain ⟨r', hr', rfl⟩ := List.mem_map.mp ha
  rw [List.map_singleton, List.mem_singleton] at hb
  rw [hb]
  exact hr r' hr'

/-- A table with a unique key has no row twice. -/
theorem UniqueOn.nodup {key : ρ → κ} {rows : List ρ} (h : UniqueOn key rows) : rows.Nodup :=
  List.Nodup.of_map key h

/-- Rows without repetition that are all equal are one row at most. -/
theorem length_le_one {rows : List ρ} (hn : rows.Nodup) (h : ∀ r ∈ rows, ∀ r' ∈ rows, r = r') :
    rows.length ≤ 1 := by
  match rows with
  | [] => exact Nat.zero_le 1
  | [_] => exact Nat.le_refl 1
  | r :: r' :: rest =>
    have e := h r List.mem_cons_self r' (List.mem_cons_of_mem _ List.mem_cons_self)
    rw [e] at hn
    exact absurd List.mem_cons_self (List.nodup_cons.mp hn).1

/-- What is read from the rows, where an update leaves alone what is read. -/
theorem filterMap_updateWhere {σ : Type*} {p : ρ → Bool} {f : ρ → ρ} {k : ρ → Option σ}
    {rows : List ρ} (hf : ∀ r ∈ rows, p r = true → k (f r) = k r) :
    (updateWhere p f rows).filterMap k = rows.filterMap k := by
  unfold updateWhere
  rw [List.filterMap_map]
  refine List.filterMap_congr fun r hr => ?_
  simp only [Function.comp]
  by_cases hp : p r = true
  · rw [if_pos hp, hf r hr hp]
  · rw [if_neg hp]

/-- The updated row itself. -/
theorem find?_updateWhere_same {p : ρ → Bool} {f : ρ → ρ} (hf : ∀ r, p r = true → p (f r) = true)
    (rows : List ρ) : (updateWhere p f rows).find? p = (rows.find? p).map f := by
  induction rows with
  | nil => rfl
  | cons r rows ih =>
    show List.find? p ((if p r then f r else r) :: updateWhere p f rows) = _
    by_cases hp : p r = true
    · rw [if_pos hp, List.find?_cons_of_pos (hf r hp), List.find?_cons_of_pos hp]
      rfl
    · rw [if_neg hp, List.find?_cons_of_neg hp, List.find?_cons_of_neg hp, ih]

/-- The first row that meets a condition which an update leaves alone. -/
theorem find?_updateWhere_stable {p q : ρ → Bool} {f : ρ → ρ} (hf : ∀ r, q (f r) = q r)
    (rows : List ρ) :
    (updateWhere p f rows).find? q = (rows.find? q).map fun r => if p r then f r else r := by
  have hsame : (q ∘ fun r => if p r then f r else r) = q := by
    funext r
    show q (if p r then f r else r) = q r
    by_cases hp : p r = true
    · rw [if_pos hp, hf]
    · rw [if_neg hp]
  unfold updateWhere
  rw [List.find?_map, hsame]

/-- The rows outside an update. -/
theorem filter_updateWhere_other {p q : ρ → Bool} {f : ρ → ρ} {rows : List ρ}
    (hf : ∀ r ∈ rows, p r = true → q (f r) = false ∧ q r = false) :
    (updateWhere p f rows).filter q = rows.filter q := by
  induction rows with
  | nil => rfl
  | cons r rows ih =>
    have ih' := ih fun r' h => hf r' (List.mem_cons_of_mem _ h)
    show List.filter q ((if p r then f r else r) :: updateWhere p f rows) = _
    by_cases hp : p r = true
    · obtain ⟨hq, hq'⟩ := hf r List.mem_cons_self hp
      rw [if_pos hp, List.filter_cons_of_neg (by rw [hq]; decide),
        List.filter_cons_of_neg (by rw [hq']; decide)]
      exact ih'
    · rw [if_neg hp, List.filter_cons, List.filter_cons, ih']

/-- The first row that meets a condition, where an update leaves alone who meets it. -/
theorem find?_updateWhere {p q : ρ → Bool} {f : ρ → ρ} {rows : List ρ}
    (hf : ∀ r ∈ rows, p r = true → q (f r) = false ∧ q r = false) :
    (updateWhere p f rows).find? q = rows.find? q := by
  rw [← List.head?_filter, ← List.head?_filter, filter_updateWhere_other hf]

/-! ## 3. Sums -/

@[simp] theorem sumWhere_nil (p : ρ → Bool) (w : ρ → ℤ) : sumWhere p w [] = 0 := rfl

theorem sumWhere_cons (p : ρ → Bool) (w : ρ → ℤ) (r : ρ) (rows : List ρ) :
    sumWhere p w (r :: rows) = (if p r then w r else 0) + sumWhere p w rows := by
  unfold sumWhere
  rw [List.filter_cons]
  split
  · rw [List.map_cons, List.sum_cons]
  · rw [zero_add]

theorem sumWhere_append (p : ρ → Bool) (w : ρ → ℤ) (rows more : List ρ) :
    sumWhere p w (rows ++ more) = sumWhere p w rows + sumWhere p w more := by
  unfold sumWhere
  rw [List.filter_append, List.map_append, List.sum_append]

theorem sumWhere_append_one (p : ρ → Bool) (w : ρ → ℤ) (rows : List ρ) (r : ρ) :
    sumWhere p w (rows ++ [r]) = sumWhere p w rows + if p r then w r else 0 := by
  rw [sumWhere_append, sumWhere_cons, sumWhere_nil, add_zero]

theorem sumWhere_nonneg {p : ρ → Bool} {w : ρ → ℤ} {rows : List ρ}
    (h : ∀ r ∈ rows, 0 ≤ w r) : 0 ≤ sumWhere p w rows := by
  refine List.sum_nonneg fun n hn => ?_
  obtain ⟨r, hr, rfl⟩ := List.mem_map.mp hn
  exact h r (List.mem_of_mem_filter hr)

/-- No row counts more than the sum. -/
theorem le_sumWhere {p : ρ → Bool} {w : ρ → ℤ} {rows : List ρ} (h : ∀ r ∈ rows, 0 ≤ w r)
    {r : ρ} (hr : r ∈ rows) (hp : p r = true) : w r ≤ sumWhere p w rows := by
  refine List.single_le_sum (fun n hn => ?_) (w r)
    (List.mem_map.mpr ⟨r, List.mem_filter.mpr ⟨hr, hp⟩, rfl⟩)
  obtain ⟨r', hr', rfl⟩ := List.mem_map.mp hn
  exact h r' (List.mem_of_mem_filter hr')

theorem sumWhere_eq_zero {p : ρ → Bool} {w : ρ → ℤ} {rows : List ρ}
    (h : ∀ r ∈ rows, p r = false) : sumWhere p w rows = 0 := by
  unfold sumWhere
  rw [List.filter_eq_nil_iff.mpr fun r hr => by rw [h r hr]; exact Bool.false_ne_true]
  rfl

/-- Two selections that agree on every row of some weight have the same sum. -/
theorem sumWhere_congr {p q : ρ → Bool} {w : ρ → ℤ} {rows : List ρ}
    (h : ∀ r ∈ rows, w r ≠ 0 → p r = q r) : sumWhere p w rows = sumWhere q w rows := by
  induction rows with
  | nil => rfl
  | cons r rows ih =>
    have ih' := ih fun r' hr' => h r' (List.mem_cons_of_mem _ hr')
    rw [sumWhere_cons, sumWhere_cons, ih']
    by_cases hw : w r = 0
    · simp only [hw, ite_self]
    · rw [h r List.mem_cons_self hw]

/-- An update that keeps, row by row, what the sum reads, keeps the sum. -/
theorem sumWhere_updateWhere_same {p q : ρ → Bool} {w : ρ → ℤ} {f : ρ → ρ} {rows : List ρ}
    (h : ∀ r ∈ rows, p r = true →
      (if q (f r) then w (f r) else 0) = if q r then w r else 0) :
    sumWhere q w (updateWhere p f rows) = sumWhere q w rows := by
  induction rows with
  | nil => rfl
  | cons r rows ih =>
    have ih' := ih fun r' hr' => h r' (List.mem_cons_of_mem _ hr')
    simp only [updateWhere, List.map_cons] at ih' ⊢
    rw [sumWhere_cons, sumWhere_cons, ih']
    split
    · next hp => rw [h r List.mem_cons_self hp]
    · rfl

/-- A deletion of rows the sum does not count keeps the sum. -/
theorem sumWhere_deleteWhere_same {p q : ρ → Bool} {w : ρ → ℤ} {rows : List ρ}
    (h : ∀ r ∈ rows, q r = true → p r = false) :
    sumWhere q w (deleteWhere p rows) = sumWhere q w rows := by
  unfold sumWhere deleteWhere
  rw [List.filter_filter]
  congr 2
  refine List.filter_congr fun r hr => ?_
  cases hq : q r with
  | false => rfl
  | true => rw [h r hr hq]; rfl

/-- A sum over the rows a predicate selects and those it leaves. -/
theorem sumWhere_split (p q : ρ → Bool) (w : ρ → ℤ) (rows : List ρ) :
    sumWhere q w rows = sumWhere q w (rows.filter p) + sumWhere q w (deleteWhere p rows) := by
  induction rows with
  | nil => rfl
  | cons r rows ih =>
    unfold deleteWhere at ih ⊢
    rw [sumWhere_cons, ih]
    by_cases h : p r = true
    · rw [List.filter_cons_of_pos h, List.filter_cons_of_neg (by rw [h]; decide), sumWhere_cons]
      ring
    · rw [List.filter_cons_of_neg h, List.filter_cons_of_pos (by simpa using h), sumWhere_cons]
      ring

theorem sumWhere_map {σ : Type*} (g : ρ → σ) (p : σ → Bool) (w : σ → ℤ) (rows : List ρ) :
    sumWhere p w (rows.map g) = sumWhere (fun r => p (g r)) (fun r => w (g r)) rows := by
  induction rows with
  | nil => rfl
  | cons r rows ih => rw [List.map_cons, sumWhere_cons, sumWhere_cons, ih]

/-- **The update of one keyed row** moves a sum by that row's difference. -/
theorem sumWhere_updateWhere_key [DecidableEq κ] {key : ρ → κ} {q : ρ → Bool} {w : ρ → ℤ}
    {f : ρ → ρ} {rows : List ρ} (hu : UniqueOn key rows) {r : ρ} (hr : r ∈ rows) :
    sumWhere q w (updateWhere (fun r' => key r' == key r) f rows) =
      sumWhere q w rows - (if q r then w r else 0) + if q (f r) then w (f r) else 0 := by
  induction rows with
  | nil => exact absurd hr List.not_mem_nil
  | cons a rows ih =>
    obtain ⟨ha, hu'⟩ := List.nodup_cons.mp hu
    simp only [updateWhere, List.map_cons]
    rw [sumWhere_cons, sumWhere_cons]
    rcases List.mem_cons.mp hr with rfl | hr'
    · -- the head is the keyed row; no other row has its key
      have hrest : sumWhere q w (updateWhere (fun r' => key r' == key r) f rows) =
          sumWhere q w rows :=
        sumWhere_updateWhere_same fun r' hr' e =>
          absurd (List.mem_map.mpr ⟨r', hr', beq_iff_eq.mp e⟩) ha
      simp only [updateWhere] at hrest
      rw [hrest, if_pos (beq_self_eq_true _)]
      ring
    · have hne : (key a == key r) = false :=
        beq_false_of_ne fun e => ha (e ▸ List.mem_map_of_mem hr')
      have ih' := ih hu' hr'
      simp only [updateWhere] at ih'
      simp only [hne, Bool.false_eq_true, if_false]
      rw [ih']
      ring

/-! ## 4. The largest row -/

/-- The fold of `maxBy` from a best row so far. -/
theorem maxBy_from (w : ρ → ℤ) (rows : List ρ) (b : ρ) :
    ∃ best, rows.foldl
        (fun best row =>
          match best with
          | none => some row
          | some b => if w b < w row then some row else some b) (some b) = some best ∧
      (best = b ∨ best ∈ rows) ∧ w b ≤ w best ∧ ∀ r ∈ rows, w r ≤ w best := by
  induction rows generalizing b with
  | nil => exact ⟨b, rfl, Or.inl rfl, le_refl _, fun r hr => absurd hr List.not_mem_nil⟩
  | cons a rows ih =>
    simp only [List.foldl_cons]
    by_cases h : w b < w a
    · obtain ⟨best, he, hm, hle, hall⟩ := ih a
      rw [if_pos h]
      refine ⟨best, he, Or.inr ?_, by omega, fun r hr => ?_⟩
      · rcases hm with rfl | hm
        · exact List.mem_cons_self
        · exact List.mem_cons_of_mem _ hm
      · rcases List.mem_cons.mp hr with rfl | hr
        · exact hle
        · exact hall r hr
    · obtain ⟨best, he, hm, hle, hall⟩ := ih b
      rw [if_neg h]
      refine ⟨best, he, ?_, hle, fun r hr => ?_⟩
      · exact hm.imp_right (List.mem_cons_of_mem _)
      · rcases List.mem_cons.mp hr with rfl | hr
        · omega
        · exact hall r hr

/-- **`maxBy` finds a row no other row exceeds**, unless there is no row. -/
theorem maxBy_spec (w : ρ → ℤ) (rows : List ρ) :
    (rows = [] ∧ maxBy w rows = none) ∨
      ∃ best ∈ rows, maxBy w rows = some best ∧ ∀ r ∈ rows, w r ≤ w best := by
  cases rows with
  | nil => exact Or.inl ⟨rfl, rfl⟩
  | cons a rows =>
    obtain ⟨best, he, hm, hle, hall⟩ := maxBy_from w rows a
    refine Or.inr ⟨best, ?_, he, fun r hr => ?_⟩
    · rcases hm with rfl | hm
      · exact List.mem_cons_self
      · exact List.mem_cons_of_mem _ hm
    · rcases List.mem_cons.mp hr with rfl | hr
      · exact hle
      · exact hall r hr

/-- No row exceeds the maximum of a column. -/
theorem le_maxOf {w : ρ → ℤ} {rows : List ρ} {r : ρ} (hr : r ∈ rows) :
    ∃ m, maxOf w rows = some m ∧ w r ≤ m := by
  rcases maxBy_spec w rows with ⟨rfl, _⟩ | ⟨best, _, he, hall⟩
  · exact absurd hr List.not_mem_nil
  · exact ⟨w best, by rw [maxOf, he]; rfl, hall r hr⟩

/-- The maximum of a column that counts `1, …, n`. -/
theorem maxOf_range {w : ρ → ℤ} {rows : List ρ} {n : ℕ}
    (h : rows.map w = (List.range n).map fun i : ℕ => (i : ℤ) + 1) : (maxOf w rows).getD 0 = n := by
  have hlen : rows.length = n := by
    have := congrArg List.length h
    simpa using this
  rcases maxBy_spec w rows with ⟨rfl, _⟩ | ⟨best, hb, he, hall⟩
  · rw [← hlen]
    rfl
  · rw [maxOf, he]
    show w best = n
    -- the largest value is among 1..n, and n is among the values
    obtain ⟨i, hi, e⟩ := List.mem_map.mp (h ▸ List.mem_map_of_mem hb)
    have hi' := List.mem_range.mp hi
    have hlast : ((n - 1 : ℕ) : ℤ) + 1 ∈ rows.map w := by
      rw [h]
      exact List.mem_map.mpr ⟨n - 1, List.mem_range.mpr (by omega), rfl⟩
    obtain ⟨r, hr, er⟩ := List.mem_map.mp hlast
    have := hall r hr
    omega

end Rows
