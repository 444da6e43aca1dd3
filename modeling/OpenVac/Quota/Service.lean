/-
  File:      OpenVac/Quota/Service.lean
  Subject:   What the quota service asks of the store: server/quota/service.ts.

  * `scopes` -- the scopes of a resource under the service's limits.
  * `serviceReserve` -- the request `reserve` passes to the store, or its refusal.
  * `serviceReserve_ok` -- what every such request meets: distinct scopes, one at least, the user
    scope the actor's own, positive units.
-/
import OpenVac.Lib.JsString
import OpenVac.Quota.Repository

namespace OpenVac.Quota

structure QuotaLimits where
  answerDaily : Int
  webSearchUserDaily : Int
  webSearchGlobalDaily : Int
  modelAttemptUserDaily : Int
  modelAttemptGlobalDaily : Int
  deriving DecidableEq, Repr

/-- `ReserveQuotaInput`, the window of its instant beside it. -/
structure ReserveQuotaInput where
  userId : String
  clientRequestId : String
  resource : QuotaResource
  units : Option Int
  window : QuotaWindow
  deriving DecidableEq, Repr

/-- `Number.MAX_SAFE_INTEGER`. -/
def maxSafeInteger : Int := 9007199254740991

/-- `nonNegativeInteger` of `user.dailyQuotaBonus`. -/
def nonNegativeInteger (value : Option Int) : Int :=
  match value with
  | some n => if 0 < n ∧ n ≤ maxSafeInteger then n else 0
  | none => 0

def QuotaLimits.scopes (limits : QuotaLimits) (userId : String) (resource : QuotaResource)
    (answerBonus : Int) : List QuotaScopePolicy :=
  match resource with
  | .answer => [⟨.user, userId, limits.answerDaily + answerBonus⟩]
  | .webSearch =>
      [⟨.global, "all", limits.webSearchGlobalDaily⟩, ⟨.user, userId, limits.webSearchUserDaily⟩]
  | .modelAttempt =>
      [⟨.global, "all", limits.modelAttemptGlobalDaily⟩,
       ⟨.user, userId, limits.modelAttemptUserDaily⟩]

/-- `QuotaService.reserve` up to the store; `dailyQuotaBonus` is the user's column. -/
def serviceReserve (limits : QuotaLimits) (dailyQuotaBonus : Option Int)
    (input : ReserveQuotaInput) : Except String ReserveInput :=
  let units := input.units.getD 1
  if (JsString.trim input.userId.toList).isEmpty then .error "Quota userId is required"
  else if (JsString.trim input.clientRequestId.toList).isEmpty then
    .error "Quota clientRequestId is required"
  else if ¬ (units ≤ maxSafeInteger ∧ 0 < units) then
    .error "Quota units must be a positive integer"
  else
    let answerBonus :=
      if input.resource = .answer then nonNegativeInteger dailyQuotaBonus else 0
    .ok
      { actorUserId := input.userId
        clientRequestId := input.clientRequestId
        resource := input.resource
        units := units
        window := input.window
        scopes := limits.scopes input.userId input.resource answerBonus }

/-- The user scope of a request is its actor's own. -/
def ReserveInput.UserScoped (input : ReserveInput) : Prop :=
  ∀ scope ∈ input.scopes, scope.scopeType = .user → scope.scopeKey = input.actorUserId

def scopeKeys (scopes : List QuotaScopePolicy) : List (QuotaScopeType × String) :=
  scopes.map fun scope => (scope.scopeType, scope.scopeKey)

/-- **What the service's requests meet.** -/
theorem serviceReserve_ok {limits : QuotaLimits} {dailyQuotaBonus : Option Int}
    {input : ReserveQuotaInput} {request : ReserveInput}
    (h : serviceReserve limits dailyQuotaBonus input = .ok request) :
    (scopeKeys request.scopes).Nodup ∧ request.UserScoped ∧ request.scopes ≠ [] ∧
      0 < request.units := by
  unfold serviceReserve at h
  dsimp only at h
  split at h
  · cases h
  · split at h
    · cases h
    · split at h
      · cases h
      · next hunits =>
          cases h
          refine ⟨?_, ?_, ?_, (not_not.mp hunits).2⟩
          · cases input.resource with
            | answer => exact List.nodup_singleton _
            | webSearch | modelAttempt =>
              refine List.nodup_cons.mpr ⟨?_, List.nodup_singleton _⟩
              intro hmem
              have hkind := congrArg Prod.fst (List.mem_singleton.mp hmem)
              cases hkind
          · intro scope hscope huser
            cases hresource : input.resource with
            | answer =>
              rw [hresource] at hscope
              rw [List.mem_singleton.mp hscope]
            | webSearch | modelAttempt =>
              rw [hresource] at hscope
              rcases List.mem_pair.mp hscope with rfl | rfl
              · cases huser
              · rfl
          · cases input.resource with
            | answer | webSearch | modelAttempt => exact List.cons_ne_nil _ _

end OpenVac.Quota
