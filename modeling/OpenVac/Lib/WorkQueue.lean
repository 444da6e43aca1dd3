/-
  File:      OpenVac/Lib/WorkQueue.lean
  Subject:   The attempts of a job in a work queue with a limit.

  * `Phase` -- a job waits to be claimed, is held by a worker, or has ended.
  * `Ledger` -- claims and deferrals of a job balance with its attempts: a claim takes an attempt,
    a deferral gives one back.
  * `Ledger.claim`, `Ledger.defer`, `Ledger.retry`, `Ledger.finish` -- what keeps the balance, and
    under which condition; `Ledger.bound` -- **the claims are bounded.**
-/
import Mathlib.Data.Nat.Basic

namespace WorkQueue

/-- Where a job is. A worker may hold it and be dead. -/
inductive Phase where
  | waiting
  | running
  | ended
  deriving DecidableEq, Repr

/-- The books of a job after so many claims and deferrals. -/
structure Ledger (limit claims deferrals : Nat) (phase : Phase) (attempts : Nat) : Prop where
  balance : claims = attempts + deferrals
  within : attempts ≤ limit
  left : phase = .waiting → attempts < limit
  claimed : phase = .running → 0 < attempts

namespace Ledger

variable {limit claims deferrals attempts : Nat} {phase : Phase}

/-- A job that is queued for the first time. -/
theorem start (h : 0 < limit) : Ledger limit 0 0 .waiting 0 :=
  ⟨rfl, Nat.zero_le _, fun _ => h, fun e => nomatch e⟩

/-- **A job is claimed at most `limit` times plus its deferrals.** -/
theorem bound (h : Ledger limit claims deferrals phase attempts) : claims ≤ limit + deferrals := by
  have hbalance := h.balance
  have hwithin := h.within
  omega

/-- A job that has used all of it does not wait to be claimed. -/
theorem spent (h : Ledger limit claims deferrals phase attempts)
    (hspent : claims = limit + deferrals) : phase ≠ .waiting := by
  intro hw
  have hleft := h.left hw
  have hbalance := h.balance
  omega

theorem claim (h : Ledger limit claims deferrals phase attempts) (hleft : attempts < limit) :
    Ledger limit (claims + 1) deferrals .running (attempts + 1) := by
  have hbalance := h.balance
  exact ⟨by omega, hleft, fun e => (nomatch e), fun _ => Nat.succ_pos _⟩

theorem defer (h : Ledger limit claims deferrals .running attempts) :
    Ledger limit claims (deferrals + 1) .waiting (attempts - 1) := by
  have hbalance := h.balance
  have hwithin := h.within
  have hclaimed := h.claimed rfl
  exact ⟨by omega, by omega, fun _ => by omega, fun e => nomatch e⟩

/-- A job is put back after a failure, as long as it has an attempt left. -/
theorem retry (h : Ledger limit claims deferrals .running attempts) (hleft : attempts < limit) :
    Ledger limit claims deferrals .waiting attempts :=
  ⟨h.balance, h.within, fun _ => hleft, fun e => nomatch e⟩

theorem finish (h : Ledger limit claims deferrals phase attempts) :
    Ledger limit claims deferrals .ended attempts :=
  ⟨h.balance, h.within, fun e => (nomatch e), fun e => nomatch e⟩

/-- A job that nobody has claimed may be queued anew. -/
theorem requeue (h : Ledger limit claims deferrals phase 0) (hlimit : 0 < limit) :
    Ledger limit claims deferrals .waiting 0 :=
  ⟨h.balance, h.within, fun _ => hlimit, fun e => nomatch e⟩

end Ledger

end WorkQueue
