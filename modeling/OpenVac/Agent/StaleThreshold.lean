/-
  File:      OpenVac/Agent/StaleThreshold.lean
  Subject:   The age from which `recoverStaleAgentRuns` settles a running run as failed, against
             the time the orchestrator keeps a run alive: `staleRunThresholdMs` of
             server/agent/retention.ts.

  * `modeTimeout_lt_minimum` -- the threshold exceeds every mode's timeout.
  * `staleRunThreshold_exceeds_iff` -- with the artifact floor it does so only under a condition
    on the environment; the floor of 300 s is missing in the threshold's own minimum.
-/
import OpenVac.Agent.ModePolicy

namespace OpenVac.Agent

open JsRegex JsString JsNumber

def DEFAULT_STALE_RUN_MS : Nat := 210000

def positiveEnvironmentInteger (environment : Environment) (name : String) (fallback : Nat) : Nat :=
  (environmentInteger environment name).safePositive.getD fallback

/-- The longest mode timeout the threshold reckons with. -/
def longestRunTimeout (environment : Environment) : Nat :=
  max (positiveEnvironmentInteger environment "AGENT_AUTO_TIMEOUT_MS" 60000)
    (positiveEnvironmentInteger environment "AGENT_DEEP_TIMEOUT_MS" 180000)

def staleRunMinimum (environment : Environment) : Nat :=
  max DEFAULT_STALE_RUN_MS (nearest (longestRunTimeout environment + 30000))

def staleRunThresholdMs (environment : Environment) : Nat :=
  match (environmentInteger environment "AGENT_STALE_RUN_MS").finite with
  | some configured =>
      if configured ≥ staleRunMinimum environment then configured.toNat
      else staleRunMinimum environment
  | none => staleRunMinimum environment

/-! ## 1. The threshold and the mode timeouts -/

theorem staleRunMinimum_le (environment : Environment) :
    staleRunMinimum environment ≤ staleRunThresholdMs environment := by
  unfold staleRunThresholdMs
  split
  · split
    · omega
    · exact Nat.le_refl _
  · exact Nat.le_refl _

theorem longestRunTimeout_lt (environment : Environment) :
    longestRunTimeout environment < twoTo53 := by
  have h : ∀ name fallback, fallback < twoTo53 →
      positiveEnvironmentInteger environment name fallback < twoTo53 := by
    intro name fallback hf
    unfold positiveEnvironmentInteger
    cases hp : (environmentInteger environment name).safePositive with
    | none => exact hf
    | some n => exact (Number.safePositive_lt hp).2
  exact Nat.max_lt.mpr ⟨h _ _ (by decide), h _ _ (by decide)⟩

theorem longestRunTimeout_lt_minimum (environment : Environment) :
    longestRunTimeout environment < staleRunMinimum environment := by
  have h := longestRunTimeout_lt environment
  exact Nat.lt_of_lt_of_le (lt_nearest_add (by omega) h) (Nat.le_max_right _ _)

/-- A mode's timeout is its configured one, or a fallback below the smallest threshold. -/
theorem modeTimeout_le (mode : ResolvedAgentMode) (environment : Environment) :
    effectiveAgentRunTimeoutMs mode environment ≤ max (longestRunTimeout environment) 180000 := by
  have hname : (agentRunBudgetProfile mode.requested).timeoutEnvironmentName =
      "AGENT_AUTO_TIMEOUT_MS" ∨
      (agentRunBudgetProfile mode.requested).timeoutEnvironmentName = "AGENT_DEEP_TIMEOUT_MS" := by
    cases mode with
    | fast => exact Or.inl rfl
    | deep => exact Or.inr rfl
  have hfallback : (agentRunBudgetProfile mode.requested).timeoutFallbackMs ≤ 180000 := by
    cases mode <;> decide
  simp only [effectiveAgentRunTimeoutMs]
  cases hp : (environmentInteger environment
      (agentRunBudgetProfile mode.requested).timeoutEnvironmentName).safePositive with
  | none =>
    show (agentRunBudgetProfile mode.requested).timeoutFallbackMs ≤ _
    omega
  | some n =>
    have hn : n ≤ longestRunTimeout environment := by
      unfold longestRunTimeout positiveEnvironmentInteger
      rcases hname with h | h
      · rw [h] at hp
        rw [hp]
        exact Nat.le_max_left _ _
      · rw [h] at hp
        rw [hp]
        exact Nat.le_max_right _ _
    show max n _ ≤ _
    omega

/-- **Without the artifact floor the threshold is large enough**, in every environment. -/
theorem modeTimeout_lt_minimum (mode : ResolvedAgentMode) (environment : Environment) :
    effectiveAgentRunTimeoutMs mode environment < staleRunMinimum environment := by
  have h1 := modeTimeout_le mode environment
  have h2 := longestRunTimeout_lt_minimum environment
  have h3 : DEFAULT_STALE_RUN_MS ≤ staleRunMinimum environment := Nat.le_max_left _ _
  unfold DEFAULT_STALE_RUN_MS at h3
  omega

/-! ## 2. The artifact floor -/

/-- The environment lifts the threshold over the artifact floor: a mode timeout over 270 s, or a
    stale age over 300 s, is configured. -/
def LiftsOverFloor (environment : Environment) : Prop :=
  (∃ n, (environmentInteger environment "AGENT_AUTO_TIMEOUT_MS").safePositive = some n ∧
    270000 < n) ∨
  (∃ n, (environmentInteger environment "AGENT_DEEP_TIMEOUT_MS").safePositive = some n ∧
    270000 < n) ∨
  (∃ n, (environmentInteger environment "AGENT_STALE_RUN_MS").finite = some n ∧ 300000 < n)

theorem floor_lt_longest_iff (environment : Environment) :
    270000 < longestRunTimeout environment ↔
      (∃ n, (environmentInteger environment "AGENT_AUTO_TIMEOUT_MS").safePositive = some n ∧
        270000 < n) ∨
      (∃ n, (environmentInteger environment "AGENT_DEEP_TIMEOUT_MS").safePositive = some n ∧
        270000 < n) := by
  have h : ∀ name fallback, fallback ≤ 270000 →
      (270000 < positiveEnvironmentInteger environment name fallback ↔
        ∃ n, (environmentInteger environment name).safePositive = some n ∧ 270000 < n) := by
    intro name fallback hf
    unfold positiveEnvironmentInteger
    cases hp : (environmentInteger environment name).safePositive with
    | none =>
      show 270000 < fallback ↔ _
      constructor
      · intro h
        omega
      · rintro ⟨n, hn, _⟩
        nomatch hn
    | some n =>
      show 270000 < n ↔ _
      constructor
      · intro h
        exact ⟨n, rfl, h⟩
      · rintro ⟨m, hm, h⟩
        injection hm with hm
        omega
  unfold longestRunTimeout
  rw [lt_max_iff, h _ _ (by decide), h _ _ (by decide)]

theorem floor_lt_minimum_iff (environment : Environment) :
    300000 < staleRunMinimum environment ↔ 270000 < longestRunTimeout environment := by
  have hlt := longestRunTimeout_lt environment
  unfold staleRunMinimum DEFAULT_STALE_RUN_MS
  rw [lt_max_iff]
  constructor
  · rintro (h | h)
    · omega
    · by_contra hle
      have hsmall : longestRunTimeout environment + 30000 < twoTo53 := by
        unfold twoTo53
        omega
      rw [nearest_of_lt hsmall] at h
      omega
  · intro h
    exact Or.inr (lt_nearest_add (by omega) (by decide))

/-- **The threshold exceeds the artifact floor** exactly in an environment that lifts it. -/
theorem floor_lt_threshold_iff (environment : Environment) :
    EXPLICIT_ARTIFACT_RUN_TIMEOUT_FLOOR_MS < staleRunThresholdMs environment ↔
      LiftsOverFloor environment := by
  unfold LiftsOverFloor EXPLICIT_ARTIFACT_RUN_TIMEOUT_FLOOR_MS
  rw [← or_assoc, ← floor_lt_longest_iff, ← floor_lt_minimum_iff]
  have hle := staleRunMinimum_le environment
  unfold staleRunThresholdMs at hle ⊢
  cases hp : (environmentInteger environment "AGENT_STALE_RUN_MS").finite with
  | none =>
    show 300000 < staleRunMinimum environment ↔ _
    constructor
    · exact Or.inl
    · rintro (h | ⟨n, hn, _⟩)
      · exact h
      · nomatch hn
  | some configured =>
    rw [hp] at hle
    simp only at hle ⊢
    constructor
    · intro h
      split at h
      · exact Or.inr ⟨configured, rfl, by omega⟩
      · exact Or.inl h
    · rintro (h | ⟨n, hn, h⟩)
      · exact Nat.lt_of_lt_of_le h hle
      · obtain rfl := Option.some.inj hn
        by_cases hc : configured ≥ staleRunMinimum environment
        · rw [if_pos hc]
          omega
        · rw [if_neg hc]
          omega

section Question

variable [UnicodeTables]

/-- **The stale threshold and the run timeout**: the threshold exceeds the longest time the
    orchestrator may keep a run alive exactly if the question does not ask for an artifact or the
    environment lifts the threshold over the artifact floor. -/
theorem staleRunThreshold_exceeds_iff (environment : Environment) (mode : ResolvedAgentMode)
    (question : List Char) :
    selectAgentRunTimeoutMs mode question environment < staleRunThresholdMs environment ↔
      hasExplicitArtifactIntent question = false ∨ LiftsOverFloor environment := by
  have hmode : effectiveAgentRunTimeoutMs mode environment < staleRunThresholdMs environment :=
    Nat.lt_of_lt_of_le (modeTimeout_lt_minimum mode environment) (staleRunMinimum_le environment)
  rw [← floor_lt_threshold_iff]
  unfold selectAgentRunTimeoutMs
  cases hi : hasExplicitArtifactIntent question with
  | false =>
    rw [if_neg Bool.false_ne_true]
    exact ⟨fun _ => Or.inl rfl, fun _ => hmode⟩
  | true =>
    rw [if_pos rfl, max_lt_iff]
    constructor
    · exact fun h => Or.inr h.2
    · rintro (h | h)
      · nomatch h
      · exact ⟨hmode, h⟩

end Question

/-- In the default environment a run that asks for a report may live 300 s and is stale after
    210 s. -/
theorem staleRunThreshold_artifact : ¬ ∀ [UnicodeTables] (environment : Environment)
    (mode : ResolvedAgentMode) (question : List Char),
    selectAgentRunTimeoutMs mode question environment < staleRunThresholdMs environment := by
  intro h
  have hrun := @h ⟨fun text => text, fun text => text⟩ (fun _ => none) .fast "请生成报告".toList
  revert hrun
  decide +kernel

end OpenVac.Agent
