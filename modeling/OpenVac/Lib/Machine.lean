/-
  File:      OpenVac/Lib/Machine.lean
  Subject:   Runs of a deterministic machine: a state, a list of actions, one step function.

  * `run` folds the step function over the actions; `run_append` splits a run.
  * `run_invariant` -- what one step preserves, every run preserves.
  * `run_stable` -- a property that one step keeps UNDER an invariant, kept along a run.
  * `Along`, `count` -- a condition that every step of a run meets; how many of its steps meet
    one. `run_count` carries an invariant that counts.
  * `commit` -- a transaction that either yields a result and a new state or fails; a
    failed transaction leaves the state as it was (rollback).
  * `Except.bind_ok_iff`, `Except.foldlM_invariant` -- taking a successful transaction apart.
-/
import Mathlib.Logic.Basic

namespace Machine

universe u v w

variable {σ : Type u} {α : Type v}

/-- The state a run of `step` reaches from `s` under the actions `acts`. -/
def run (step : σ → α → σ) (s : σ) (acts : List α) : σ := acts.foldl step s

@[simp] theorem run_nil (step : σ → α → σ) (s : σ) : run step s [] = s := rfl

@[simp] theorem run_cons (step : σ → α → σ) (s : σ) (a : α) (acts : List α) :
    run step s (a :: acts) = run step (step s a) acts := rfl

theorem run_append (step : σ → α → σ) (s : σ) (acts more : List α) :
    run step s (acts ++ more) = run step (run step s acts) more := by
  simp only [run, List.foldl_append]

/-- **The invariant rule**: a property of the start that one step preserves holds after every
    run. -/
theorem run_invariant {step : σ → α → σ} {Inv : σ → Prop} {s : σ} (h0 : Inv s)
    (hs : ∀ s a, Inv s → Inv (step s a)) (acts : List α) : Inv (run step s acts) := by
  induction acts generalizing s with
  | nil => exact h0
  | cons a acts ih => exact ih (hs s a h0)

/-- **Stability under an invariant**: a property that one step keeps in states meeting `Inv`
    is kept along a run. -/
theorem run_stable {step : σ → α → σ} {Inv Q : σ → Prop} {s : σ} (h0 : Inv s) (hq : Q s)
    (hs : ∀ s a, Inv s → Inv (step s a)) (hk : ∀ s a, Inv s → Q s → Q (step s a))
    (acts : List α) : Q (run step s acts) := by
  have h : ∀ s a, Inv s ∧ Q s → Inv (step s a) ∧ Q (step s a) :=
    fun s a h => ⟨hs s a h.1, hk s a h.1 h.2⟩
  exact (run_invariant ⟨h0, hq⟩ h acts).2

/-- The rule for runs whose actions all meet a condition `C`. -/
theorem run_invariant_of {step : σ → α → σ} {Inv : σ → Prop} {C : α → Prop} {s : σ}
    (h0 : Inv s) (hs : ∀ s a, C a → Inv s → Inv (step s a)) (acts : List α)
    (hc : ∀ a ∈ acts, C a) : Inv (run step s acts) := by
  induction acts generalizing s with
  | nil => exact h0
  | cons a acts ih =>
    exact ih (hs s a (hc a List.mem_cons_self) h0) fun b hb => hc b (List.mem_cons_of_mem _ hb)

/-- Every step of a run from `s` meets `C`. -/
def Along (step : σ → α → σ) (C : σ → α → Prop) : σ → List α → Prop
  | _, [] => True
  | s, a :: acts => C s a ∧ Along step C (step s a) acts

instance decidableAlong (step : σ → α → σ) (C : σ → α → Prop) [∀ s a, Decidable (C s a)] :
    (s : σ) → (acts : List α) → Decidable (Along step C s acts)
  | _, [] => isTrue trivial
  | s, a :: acts =>
      have := decidableAlong step C (step s a) acts
      inferInstanceAs (Decidable (C s a ∧ Along step C (step s a) acts))

theorem along_append {step : σ → α → σ} {C : σ → α → Prop} {s : σ} {acts more : List α} :
    Along step C s (acts ++ more) ↔ Along step C s acts ∧ Along step C (run step s acts) more := by
  induction acts generalizing s with
  | nil => exact ⟨fun h => ⟨True.intro, h⟩, fun h => h.2⟩
  | cons a acts ih =>
    show (C s a ∧ Along step C (step s a) (acts ++ more)) ↔ _
    rw [ih, ← and_assoc]
    exact Iff.rfl

/-- How many steps of a run from `s` meet `p`. -/
def count (step : σ → α → σ) (p : σ → α → Bool) : σ → List α → Nat
  | _, [] => 0
  | s, a :: acts => (if p s a then 1 else 0) + count step p (step s a) acts

/-- **The rule of a run that counts**: an invariant about the state and the number of steps so
    far that meet `p`. -/
theorem run_count {step : σ → α → σ} {C : σ → α → Prop} {p : σ → α → Bool}
    {Inv : σ → Nat → Prop} {s : σ} {n : Nat} (h0 : Inv s n)
    (hs : ∀ s a n, C s a → Inv s n → Inv (step s a) (if p s a then n + 1 else n))
    (acts : List α) (hc : Along step C s acts) :
    Inv (run step s acts) (n + count step p s acts) := by
  induction acts generalizing s n with
  | nil => exact h0
  | cons a acts ih =>
    have hnext := ih (hs s a n hc.1 h0) hc.2
    have hsum : (if p s a then n + 1 else n) + count step p (step s a) acts =
        n + count step p s (a :: acts) := by
      show _ = n + ((if p s a then 1 else 0) + count step p (step s a) acts)
      split <;> omega
    rw [hsum] at hnext
    exact hnext

/-- The rule for runs whose steps all meet a condition on the state as well. -/
theorem run_invariant_along {step : σ → α → σ} {C : σ → α → Prop} {Inv : σ → Prop} {s : σ}
    (h0 : Inv s) (hs : ∀ s a, C s a → Inv s → Inv (step s a)) (acts : List α)
    (hc : Along step C s acts) : Inv (run step s acts) := by
  induction acts generalizing s with
  | nil => exact h0
  | cons a acts ih => exact ih (hs s a hc.1 h0) hc.2

/-- The state after a transaction: the new one when it commits, the old one when it fails. -/
def commit {ε : Type w} {β : Type*} (s : σ) (tx : Except ε (β × σ)) : σ :=
  match tx with
  | .ok (_, s') => s'
  | .error _ => s

/-- A commit preserves what every successful outcome preserves. -/
theorem commit_preserves {ε : Type w} {β : Type*} {Inv : σ → Prop} {s : σ}
    {tx : Except ε (β × σ)} (h0 : Inv s) (h : ∀ b s', tx = .ok (b, s') → Inv s') :
    Inv (commit s tx) := by
  cases tx with
  | error e => exact h0
  | ok r => exact h r.1 r.2 rfl

/-- A transaction commits to its new state or leaves the old one. -/
theorem commit_cases {ε : Type w} {β : Type*} (s : σ) (tx : Except ε (β × σ)) :
    commit s tx = s ∨ ∃ b s', tx = .ok (b, s') ∧ commit s tx = s' := by
  cases tx with
  | error e => exact Or.inl rfl
  | ok r => exact Or.inr ⟨r.1, r.2, rfl, rfl⟩

/-- A transaction that only ever hands the old state back commits to nothing. -/
theorem commit_eq {ε : Type w} {β : Type*} {s : σ} {tx : Except ε (β × σ)}
    (h : ∀ b s', tx = .ok (b, s') → s' = s) : commit s tx = s := by
  cases tx with
  | error e => rfl
  | ok r => exact h r.1 r.2 rfl

end Machine

/-- Inversion of a successful bind: both parts succeeded. -/
theorem Except.bind_ok_iff.{u, w} {ε : Type w} {α β : Type u} {x : Except ε α} {f : α → Except ε β}
    {b : β} : x >>= f = .ok b ↔ ∃ a, x = .ok a ∧ f a = .ok b := by
  cases x with
  | error e => simp [bind, Except.bind]
  | ok a => simp [bind, Except.bind]

/-- **The invariant rule of a loop that may fail**: what every successful round preserves holds
    when the loop ends. -/
theorem Except.foldlM_invariant.{u, v, w} {ε : Type w} {α : Type v} {β : Type u} {Inv : β → Prop}
    {f : β → α → Except ε β} {l : List α} {b b' : β} (h0 : Inv b)
    (hs : ∀ b a b', a ∈ l → Inv b → f b a = .ok b' → Inv b') (h : l.foldlM f b = .ok b') :
    Inv b' := by
  induction l generalizing b with
  | nil =>
    injection h with h
    rw [← h]
    exact h0
  | cons a l ih =>
    rw [List.foldlM_cons] at h
    obtain ⟨b₁, h1, h2⟩ := Except.bind_ok_iff.mp h
    exact ih (hs b a b₁ List.mem_cons_self h0 h1)
      (fun b a b' ha => hs b a b' (List.mem_cons_of_mem _ ha)) h2
