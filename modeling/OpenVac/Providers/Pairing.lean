/-
  File:      OpenVac/Providers/Pairing.lean
  Subject:   What the pairing check of a request's input accepts.

  * `pairing_iff` -- the check accepts exactly the `Paired` inputs.
  * `paired_append_iff` -- a paired input, new items, one output for each call among them:
    accepted if and only if the items bring no output of their own and no call the input has.
-/
import OpenVac.Providers.Merging

namespace OpenVac.Providers

open JsString

/-! ## 1. The pairing check -/

/-- What an item is for the check. -/
inductive PairingRole where
  | call (callId : Text)
  | output (callId : Text)
  | invalid
  | other
  deriving DecidableEq

def pairingRole (item : ResponsesInputItem) : PairingRole :=
  if hasType item "function_call" then
    match functionCallParts item with
    | some (callId, _, _) => .call callId
    | none => .invalid
  else if hasType item "function_call_output" then
    match pickString item ["call_id"], property item "output" with
    | some callId, some (.str _) => .output callId
    | _, _ => .invalid
  else .other

def PairingRole.callId? : PairingRole → Option Text
  | .call callId => some callId
  | _ => none

def PairingRole.outputId? : PairingRole → Option Text
  | .output callId => some callId
  | _ => none

/-- The ids a list of roles calls, and those it answers. -/
def calledIds (roles : List PairingRole) : List Text := roles.filterMap PairingRole.callId?

def answeredIds (roles : List PairingRole) : List Text := roles.filterMap PairingRole.outputId?

/-- A well-formed input: distinct calls, distinct outputs, each call with a later output and
    each output with a call. -/
structure Paired (roles : List PairingRole) : Prop where
  valid : .invalid ∉ roles
  calls : (calledIds roles).Nodup
  outputs : (answeredIds roles).Nodup
  answered : ∀ (i : Nat) (c : Text), roles[i]? = some (PairingRole.call c) →
    ∃ j, i < j ∧ roles[j]? = some (PairingRole.output c)
  asked : ∀ c ∈ answeredIds roles, c ∈ calledIds roles

/-- The ids of one kind with their positions, from a position on. -/
def positions (id? : PairingRole → Option Text) (roles : List PairingRole) (start : Nat) :
    List (Text × Nat) :=
  (roles.zipIdx start).filterMap fun entry => (id? entry.1).map fun c => (c, entry.2)

theorem positions_cons (id? : PairingRole → Option Text) (role : PairingRole)
    (roles : List PairingRole) (start : Nat) :
    positions id? (role :: roles) start =
      ((id? role).map fun c => (c, start)).toList ++ positions id? roles (start + 1) := by
  unfold positions
  rw [List.zipIdx_cons]
  cases h : id? role with
  | none =>
    rw [List.filterMap_cons_none (by simp [h])]
    rfl
  | some c =>
    rw [List.filterMap_cons_some (b := (c, start)) (by simp [h])]
    rfl

theorem positions_map_fst (id? : PairingRole → Option Text) (roles : List PairingRole)
    (start : Nat) : (positions id? roles start).map (·.1) = roles.filterMap id? := by
  induction roles generalizing start with
  | nil => rfl
  | cons role roles ih =>
    rw [positions_cons, List.map_append, ih]
    cases h : id? role with
    | none => rw [List.filterMap_cons_none h]; rfl
    | some c => rw [List.filterMap_cons_some h]; rfl

theorem mem_positions (id? : PairingRole → Option Text) (roles : List PairingRole) (c : Text)
    (i : Nat) :
    (c, i) ∈ positions id? roles 0 ↔ ∃ role, roles[i]? = some role ∧ id? role = some c := by
  unfold positions
  rw [List.mem_filterMap]
  constructor
  · intro h
    obtain ⟨entry, hmem, he⟩ := h
    obtain ⟨d, hd, he⟩ := Option.map_eq_some_iff.mp he
    injection he with h1 h2
    subst h1 h2
    exact ⟨entry.1, List.mem_zipIdx_iff_getElem?.mp hmem, hd⟩
  · intro h
    obtain ⟨role, hrole, hc⟩ := h
    exact ⟨(role, i), List.mem_zipIdx_iff_getElem?.mpr hrole, by simp [hc]⟩

/-- The error of an item that repeats an id or lacks a part. -/
def refusal (item : ResponsesInputItem) : ProviderResponseError :=
  if hasType item "function_call" then
    invalidContinuation "Responses input contains an invalid function_call."
  else invalidContinuation "Responses input contains an invalid function_call_output."

/-- One item of the check, by its role. -/
theorem pairItem_eq (acc : Pairing) (item : ResponsesInputItem) (i : Nat) :
    pairItem acc (item, i) =
      match pairingRole item with
      | .call c =>
          if acc.calls.any fun call => call.1 == c then .error (refusal item)
          else .ok { acc with calls := acc.calls ++ [(c, i)] }
      | .output c =>
          if acc.outputs.any fun output => output.1 == c then .error (refusal item)
          else .ok { acc with outputs := acc.outputs ++ [(c, i)] }
      | .invalid => .error (refusal item)
      | .other => .ok acc := by
  unfold pairItem pairingRole refusal
  by_cases hcall : hasType item "function_call" = true
  · simp only [hcall, if_true]
    cases functionCallParts item with
    | none => rfl
    | some parts => rfl
  · simp only [hcall, Bool.false_eq_true, if_false]
    by_cases hout : hasType item "function_call_output" = true
    · simp only [hout, if_true]
      cases pickString item ["call_id"] with
      | none => rfl
      | some c =>
        cases property item "output" with
        | none => rfl
        | some value => cases value <;> rfl
    · simp only [hout, Bool.false_eq_true, if_false]

theorem any_id {entries : List (Text × Nat)} {c : Text} :
    (entries.any fun entry => entry.1 == c) = true ↔ c ∈ entries.map (·.1) := by
  simp [List.mem_map]

/-- **The scan of the check**: no item is refused, no id is called or answered twice. -/
theorem pairItems_ok {items : List ResponsesInputItem} {acc acc' : Pairing} {start : Nat}
    (hc : (acc.calls.map (·.1)).Nodup) (ho : (acc.outputs.map (·.1)).Nodup) :
    (items.zipIdx start).foldlM pairItem acc = .ok acc' ↔
      PairingRole.invalid ∉ items.map pairingRole ∧
        (acc.calls.map (·.1) ++ calledIds (items.map pairingRole)).Nodup ∧
        (acc.outputs.map (·.1) ++ answeredIds (items.map pairingRole)).Nodup ∧
        acc' = ⟨acc.calls ++ positions PairingRole.callId? (items.map pairingRole) start,
          acc.outputs ++ positions PairingRole.outputId? (items.map pairingRole) start⟩ := by
  induction items generalizing acc start with
  | nil => simp [calledIds, answeredIds, positions, pure, Except.pure, hc, ho, eq_comm]
  | cons item rest ih =>
    rw [List.zipIdx_cons, List.foldlM_cons, pairItem_eq, List.map_cons, positions_cons,
      positions_cons]
    cases hrole : pairingRole item with
    | invalid =>
      constructor
      · intro h
        nomatch h
      · intro h
        exact absurd List.mem_cons_self h.1
    | other =>
      have hids : calledIds (.other :: rest.map pairingRole) =
          calledIds (rest.map pairingRole) := rfl
      have houts : answeredIds (.other :: rest.map pairingRole) =
          answeredIds (rest.map pairingRole) := rfl
      rw [hids, houts]
      simpa [bind, Except.bind, PairingRole.callId?, PairingRole.outputId?] using ih hc ho
    | call c =>
      have hids : calledIds (.call c :: rest.map pairingRole) =
          c :: calledIds (rest.map pairingRole) := rfl
      have houts : answeredIds (.call c :: rest.map pairingRole) =
          answeredIds (rest.map pairingRole) := rfl
      rw [hids, houts]
      by_cases hdup : (acc.calls.any fun call => call.1 == c) = true
      · simp only [hdup, if_true]
        constructor
        · intro h
          nomatch h
        · intro h
          have hmem := any_id.mp hdup
          have hn := List.nodup_append'.mp h.2.1
          exact absurd List.mem_cons_self (hn.2.2 hmem)
      · have hnew : c ∉ acc.calls.map (·.1) := fun hm => hdup (any_id.mpr hm)
        have hc' : ((acc.calls ++ [(c, start)]).map (·.1)).Nodup := by
          rw [List.map_append, List.map_singleton, ← List.concat_eq_append]
          exact hc.concat hnew
        have hih := @ih ⟨acc.calls ++ [(c, start)], acc.outputs⟩ (start + 1) hc' ho
        simp only [hdup, Bool.false_eq_true, if_false, bind, Except.bind]
        rw [hih]
        simp [PairingRole.callId?, PairingRole.outputId?, List.append_assoc]
    | output c =>
      have hids : calledIds (.output c :: rest.map pairingRole) =
          calledIds (rest.map pairingRole) := rfl
      have houts : answeredIds (.output c :: rest.map pairingRole) =
          c :: answeredIds (rest.map pairingRole) := rfl
      rw [hids, houts]
      by_cases hdup : (acc.outputs.any fun output => output.1 == c) = true
      · simp only [hdup, if_true]
        constructor
        · intro h
          nomatch h
        · intro h
          have hmem := any_id.mp hdup
          have hn := List.nodup_append'.mp h.2.2.1
          exact absurd List.mem_cons_self (hn.2.2 hmem)
      · have hnew : c ∉ acc.outputs.map (·.1) := fun hm => hdup (any_id.mpr hm)
        have ho' : ((acc.outputs ++ [(c, start)]).map (·.1)).Nodup := by
          rw [List.map_append, List.map_singleton, ← List.concat_eq_append]
          exact ho.concat hnew
        have hih := @ih ⟨acc.calls, acc.outputs ++ [(c, start)]⟩ (start + 1) hc ho'
        simp only [hdup, Bool.false_eq_true, if_false, bind, Except.bind]
        rw [hih]
        simp [PairingRole.callId?, PairingRole.outputId?, List.append_assoc]

theorem find_of_nodup {entries : List (Text × Nat)} {c : Text} {j : Nat}
    (hn : (entries.map (·.1)).Nodup) (hmem : (c, j) ∈ entries) :
    (entries.find? fun entry => entry.1 == c) = some (c, j) := by
  induction entries with
  | nil => nomatch hmem
  | cons entry rest ih =>
    rw [List.map_cons, List.nodup_cons] at hn
    rcases List.mem_cons.mp hmem with he | hr
    · rw [← he, List.find?_cons_of_pos (by simp)]
    · have hne : ¬(entry.1 == c) = true := by
        intro he
        rw [beq_iff_eq] at he
        exact hn.1 (he ▸ List.mem_map.mpr ⟨(c, j), hr, rfl⟩)
      rw [List.find?_cons_of_neg (p := fun entry : Text × Nat => entry.1 == c) hne]
      exact ih hn.2 hr

/-- An output after a call, by positions. -/
theorem answeredLater_iff {roles : List PairingRole} (hn : (answeredIds roles).Nodup)
    (c : Text) (i : Nat) :
    answeredLater (positions PairingRole.outputId? roles 0) (c, i) = true ↔
      ∃ j, i < j ∧ roles[j]? = some (PairingRole.output c) := by
  have hrole : ∀ j, (c, j) ∈ positions PairingRole.outputId? roles 0 ↔
      roles[j]? = some (PairingRole.output c) := by
    intro j
    rw [mem_positions]
    constructor
    · intro h
      obtain ⟨role, hr, ho⟩ := h
      cases role <;> simp only [PairingRole.outputId?, Option.some.injEq, reduceCtorEq] at ho
      rw [← ho]
      exact hr
    · intro h
      exact ⟨_, h, rfl⟩
  have hmap : ((positions PairingRole.outputId? roles 0).map (·.1)).Nodup := by
    rw [positions_map_fst]
    exact hn
  unfold answeredLater
  constructor
  · intro h
    cases hf : (positions PairingRole.outputId? roles 0).find? fun output => output.1 == c with
    | none =>
      simp only [hf] at h
      nomatch h
    | some output =>
      simp only [hf, decide_eq_true_eq] at h
      have hc : output.1 = c := by simpa using List.find?_some hf
      have hmem := List.mem_of_find?_eq_some hf
      refine ⟨output.2, h, (hrole _).mp ?_⟩
      rw [← hc]
      exact hmem
  · intro h
    obtain ⟨j, hij, hj⟩ := h
    rw [find_of_nodup hmap ((hrole j).mpr hj)]
    exact decide_eq_true hij

/-- **The check accepts exactly the paired inputs.** -/
theorem pairing_iff (input : List ResponsesInputItem) :
    assertFunctionCallPairing input = .ok () ↔ Paired (input.map pairingRole) := by
  unfold assertFunctionCallPairing
  rw [Except.bind_ok_iff]
  have hscan := fun acc' => @pairItems_ok input ⟨[], []⟩ acc' 0 List.nodup_nil List.nodup_nil
  simp only [hscan, List.map_nil, List.nil_append]
  have hcall : ∀ i c, (c, i) ∈ positions PairingRole.callId? (input.map pairingRole) 0 ↔
      (input.map pairingRole)[i]? = some (PairingRole.call c) := by
    intro i c
    rw [mem_positions]
    constructor
    · intro h
      obtain ⟨role, hr, ho⟩ := h
      cases role <;> simp only [PairingRole.callId?, Option.some.injEq, reduceCtorEq] at ho
      rw [← ho]
      exact hr
    · intro h
      exact ⟨_, h, rfl⟩
  have hasked : (positions PairingRole.outputId? (input.map pairingRole) 0).any
        (fun output => !(positions PairingRole.callId? (input.map pairingRole) 0).any
          fun call => call.1 == output.1) = false ↔
      ∀ c ∈ answeredIds (input.map pairingRole), c ∈ calledIds (input.map pairingRole) := by
    unfold answeredIds calledIds
    rw [← positions_map_fst PairingRole.outputId? _ 0, ← positions_map_fst PairingRole.callId? _ 0]
    rw [List.any_eq_false]
    constructor
    · intro h c hc
      obtain ⟨output, hmem, he⟩ := List.mem_map.mp hc
      have := h output hmem
      rw [Bool.not_eq_true, Bool.not_eq_false', any_id, he] at this
      exact this
    · intro h output hmem
      rw [Bool.not_eq_true, Bool.not_eq_false', any_id]
      exact h _ (List.mem_map.mpr ⟨output, hmem, rfl⟩)
  constructor
  · intro h
    obtain ⟨p, ⟨hvalid, hcalls, houtputs, hp⟩, h⟩ := h
    subst hp
    split at h
    · nomatch h
    next hall =>
      split at h
      · nomatch h
      next hany =>
        refine ⟨hvalid, hcalls, houtputs, ?_, ?_⟩
        · intro i c hi
          rw [Bool.not_eq_true, Bool.not_eq_false', List.all_eq_true] at hall
          exact (answeredLater_iff houtputs c i).mp (hall _ ((hcall i c).mpr hi))
        · exact hasked.mp (Bool.eq_false_iff.mpr hany)
  · intro h
    refine ⟨_, ⟨h.valid, h.calls, h.outputs, rfl⟩, ?_⟩
    have hall : (positions PairingRole.callId? (input.map pairingRole) 0).all
        (answeredLater (positions PairingRole.outputId? (input.map pairingRole) 0)) = true := by
      rw [List.all_eq_true]
      intro call hmem
      obtain ⟨c, i⟩ := call
      exact (answeredLater_iff h.outputs c i).mpr (h.answered i c ((hcall i c).mp hmem))
    rw [hall, hasked.mpr h.asked]
    rfl

/-! ## 2. Continuing a paired input -/

theorem calledIds_append (left right : List PairingRole) :
    calledIds (left ++ right) = calledIds left ++ calledIds right := List.filterMap_append

theorem answeredIds_append (left right : List PairingRole) :
    answeredIds (left ++ right) = answeredIds left ++ answeredIds right := List.filterMap_append

theorem mem_calledIds {roles : List PairingRole} {c : Text} :
    c ∈ calledIds roles ↔ .call c ∈ roles := by
  unfold calledIds
  rw [List.mem_filterMap]
  constructor
  · intro h
    obtain ⟨role, hmem, he⟩ := h
    cases role <;> simp only [PairingRole.callId?, Option.some.injEq, reduceCtorEq] at he
    rw [← he]
    exact hmem
  · intro h
    exact ⟨_, h, rfl⟩

theorem mem_answeredIds {roles : List PairingRole} {c : Text} :
    c ∈ answeredIds roles ↔ .output c ∈ roles := by
  unfold answeredIds
  rw [List.mem_filterMap]
  constructor
  · intro h
    obtain ⟨role, hmem, he⟩ := h
    cases role <;> simp only [PairingRole.outputId?, Option.some.injEq, reduceCtorEq] at he
    rw [← he]
    exact hmem
  · intro h
    exact ⟨_, h, rfl⟩

theorem calledIds_outputs (ids : List Text) : calledIds (ids.map PairingRole.output) = [] := by
  induction ids with
  | nil => rfl
  | cons c ids ih => exact ih

theorem answeredIds_outputs (ids : List Text) : answeredIds (ids.map PairingRole.output) = ids := by
  induction ids with
  | nil => rfl
  | cons c ids ih =>
    have h : answeredIds ((c :: ids).map PairingRole.output) =
        c :: answeredIds (ids.map PairingRole.output) := rfl
    rw [h, ih]

/-- A role of items of type `function_call_output`. -/
def PairingRole.answers : PairingRole → Bool
  | .output _ | .invalid => true
  | .call _ | .other => false

/-- **Continuing a paired input** with items and one output for each call among them. -/
theorem paired_append_iff {input items : List PairingRole} {ids : List Text}
    (hin : Paired input) (hcalls : (calledIds items).Nodup) (hids : ids.Nodup)
    (hsame : ∀ c, c ∈ ids ↔ c ∈ calledIds items) :
    Paired (input ++ items ++ ids.map PairingRole.output) ↔
      (∀ role ∈ items, role.answers = false) ∧ ∀ c ∈ calledIds items, c ∉ calledIds input := by
  have hcalled : calledIds (input ++ items ++ ids.map PairingRole.output) =
      calledIds input ++ calledIds items := by
    rw [calledIds_append, calledIds_append, calledIds_outputs, List.append_nil]
  have hanswered : answeredIds (input ++ items ++ ids.map PairingRole.output) =
      answeredIds input ++ answeredIds items ++ ids := by
    rw [answeredIds_append, answeredIds_append, answeredIds_outputs]
  constructor
  · intro h
    have hdisjoint : ∀ c ∈ calledIds items, c ∉ calledIds input := by
      have hn := h.calls
      rw [hcalled] at hn
      intro c hc hc'
      exact (List.nodup_append'.mp hn).2.2 hc' hc
    refine ⟨?_, hdisjoint⟩
    intro role hrole
    cases role with
    | call c => rfl
    | other => rfl
    | invalid =>
      exact absurd (List.mem_append_left _ (List.mem_append_right _ hrole)) h.valid
    | output c =>
      -- the call it answers is among the input's, which has its output, or is new, which gets one
      exfalso
      have hmem : c ∈ answeredIds items := mem_answeredIds.mpr hrole
      have hn := h.outputs
      rw [hanswered] at hn
      have hask := h.asked c (by
        rw [hanswered]
        exact List.mem_append_left _ (List.mem_append_right _ hmem))
      rw [hcalled] at hask
      rcases List.mem_append.mp hask with hold | hnew
      · obtain ⟨i, hi⟩ := List.mem_iff_getElem?.mp (mem_calledIds.mp hold)
        obtain ⟨j, -, hj⟩ := hin.answered i c hi
        have hmemin : c ∈ answeredIds input := mem_answeredIds.mpr (List.mem_of_getElem? hj)
        exact (List.nodup_append'.mp (List.nodup_append'.mp hn).1).2.2 hmemin hmem
      · exact (List.nodup_append'.mp hn).2.2 (List.mem_append_right _ hmem) ((hsame c).mpr hnew)
  · intro h
    obtain ⟨hno, hdisjoint⟩ := h
    have hnone : answeredIds items = [] := by
      rw [List.eq_nil_iff_forall_not_mem]
      intro c hc
      exact absurd (hno _ (mem_answeredIds.mp hc)) (by simp [PairingRole.answers])
    refine ⟨?_, ?_, ?_, ?_, ?_⟩
    · intro hmem
      rcases List.mem_append.mp hmem with hmem | hmem
      · rcases List.mem_append.mp hmem with hmem | hmem
        · exact hin.valid hmem
        · exact absurd (hno _ hmem) (by simp [PairingRole.answers])
      · obtain ⟨c, -, hc⟩ := List.mem_map.mp hmem
        nomatch hc
    · rw [hcalled]
      refine hin.calls.append hcalls ?_
      intro c hc hc'
      exact hdisjoint c hc' hc
    · rw [hanswered, hnone, List.append_nil]
      refine hin.outputs.append hids ?_
      intro c hc hc'
      exact hdisjoint c ((hsame c).mp hc') (hin.asked c hc)
    · intro i c hi
      by_cases hlt : i < input.length
      · rw [List.append_assoc, List.getElem?_append_left hlt] at hi
        obtain ⟨j, hij, hj⟩ := hin.answered i c hi
        obtain ⟨hjlt, -⟩ := List.getElem?_eq_some_iff.mp hj
        refine ⟨j, hij, ?_⟩
        rw [List.append_assoc, List.getElem?_append_left hjlt]
        exact hj
      · -- a new call: its output is among the appended ones
        have hilen : i < (input ++ items).length := by
          by_contra hge
          rw [List.getElem?_append_right (Nat.not_lt.mp hge)] at hi
          obtain ⟨d, -, hd⟩ := List.mem_map.mp (List.mem_of_getElem? hi)
          nomatch hd
        have hmem : .call c ∈ items := by
          rw [List.getElem?_append_left hilen,
            List.getElem?_append_right (Nat.not_lt.mp hlt)] at hi
          exact List.mem_of_getElem? hi
        have hid : c ∈ ids := (hsame c).mpr (mem_calledIds.mpr hmem)
        obtain ⟨k, hk⟩ := List.mem_iff_getElem?.mp hid
        refine ⟨(input ++ items).length + k, by omega, ?_⟩
        rw [List.getElem?_append_right (by omega)]
        simp [hk]
    · intro c hc
      rw [hanswered, hnone, List.append_nil] at hc
      rw [hcalled]
      rcases List.mem_append.mp hc with hc | hc
      · exact List.mem_append_left _ (hin.asked c hc)
      · exact List.mem_append_right _ ((hsame c).mp hc)

/-- The roles of items whose calls are complete. -/
theorem calledIds_roles {items : List ResponsesInputItem}
    (h : ∀ item ∈ items, hasType item "function_call" = true →
      (functionCallParts item).isSome = true) :
    calledIds (items.map pairingRole) = functionCallIds items := by
  induction items with
  | nil => rfl
  | cons item rest ih =>
    have hrest := ih fun i hi => h i (List.mem_cons_of_mem _ hi)
    have hhead := h item List.mem_cons_self
    rw [List.map_cons]
    unfold calledIds functionCallIds at *
    by_cases hf : hasType item "function_call" = true
    · obtain ⟨parts, hparts⟩ := Option.isSome_iff_exists.mp (hhead hf)
      obtain ⟨c, n, a⟩ := parts
      have hrole : pairingRole item = .call c := by
        unfold pairingRole
        simp only [hf, if_true, hparts]
      rw [hrole, List.filter_cons_of_pos (p := fun item => hasType item "function_call") hf,
        List.filterMap_cons_some (f := fun item => pickString item ["call_id"])
          (functionCallParts_callId hparts),
        List.filterMap_cons_some (f := PairingRole.callId?) (b := c) rfl, hrest]
    · have hrole : (pairingRole item).callId? = none := by
        unfold pairingRole
        simp only [hf, Bool.false_eq_true, if_false]
        split
        · split <;> rfl
        · rfl
      rw [List.filterMap_cons_none hrole,
        List.filter_cons_of_neg (p := fun item => hasType item "function_call") hf, hrest]

theorem pairingRole_answers {item : ResponsesInputItem}
    (h : hasType item "function_call" = true → (functionCallParts item).isSome = true) :
    (pairingRole item).answers = hasType item "function_call_output" := by
  unfold pairingRole
  by_cases hf : hasType item "function_call" = true
  · obtain ⟨parts, hparts⟩ := Option.isSome_iff_exists.mp (h hf)
    obtain ⟨c, n, a⟩ := parts
    have hno : hasType item "function_call_output" = false := by
      unfold hasType at hf ⊢
      rw [beq_iff_eq] at hf
      rw [hf]
      decide
    simp only [hf, if_true, hparts, hno]
    rfl
  · simp only [hf, Bool.false_eq_true, if_false]
    by_cases ho : hasType item "function_call_output" = true
    · simp only [ho, if_true]
      split <;> rfl
    · simp only [ho, Bool.false_eq_true, if_false]
      rfl

end OpenVac.Providers
