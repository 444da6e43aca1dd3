/-
  File:      OpenVac/Chat/PendingQuestion.lean
  Subject:   The pending question of a visitor (lib/pending-question-draft.ts): saved before the
             login, sent once after it.

  * `savePendingQuestionIntent`, `consumePendingQuestionIntent`, `clearPendingQuestionIntent` --
    the calls, on a storage whose operations may throw.
  * `Deliverable` -- what the calls so far allow a consume to return.
  * `consume_saved` -- a saved question reaches its owner.
  * `latest_question_once` -- only the latest question, once, where no refused save leaves an
    older one behind.
-/
import OpenVac.Lib.Digest
import OpenVac.Lib.Machine

namespace OpenVac.PendingQuestion

open JsString

/-! ## 1. The storage -/

def PENDING_QUESTION_INTENT_TTL_MS : Int := 900000

def MAX_QUESTION_LENGTH : Nat := 4000

inductive QuestionMode where
  | auto
  | deep
  deriving DecidableEq, Repr

inductive QuestionWebMode where
  | auto
  | always
  deriving DecidableEq, Repr

/-- `PendingQuestionIntentV2`. The storage keeps its JSON text; reading that text back gives the
    record. -/
structure PendingQuestionIntent where
  text : Text
  mode : Option QuestionMode
  webMode : Option QuestionWebMode
  createdAt : Int
  expiresAt : Int
  ownerUserId : Option Text
  deriving DecidableEq

/-- The item under `PENDING_QUESTION_INTENT_KEY`. -/
abbrev Item := Option PendingQuestionIntent

/-- `removeItem`: a call that throws leaves the item. -/
def removeItem (item : Item) (throws : Bool) : Item := if throws then item else none

/-- `setItem`, and whether it went through. -/
def setItem (item : Item) (intent : PendingQuestionIntent) (throws : Bool) : Item × Bool :=
  if throws then (item, false) else (some intent, true)

/-! ## 2. The calls -/

structure Question where
  text : Text
  ownerUserId : Option Text
  mode : Option QuestionMode
  webMode : Option QuestionWebMode
  deriving DecidableEq

def normalizedOwner (question : Question) : Option Text := question.ownerUserId.map trim

/-- What `savePendingQuestionIntent` asks of a question before it writes. -/
def accepted (question : Question) : Bool :=
  !(decide ((trim question.text).length < 2) ||
    decide (utf16Length (trim question.text) > MAX_QUESTION_LENGTH) ||
    (normalizedOwner question).any fun owner => decide (utf16Length owner > 256))

def intentOf (question : Question) (now : Int) : PendingQuestionIntent where
  text := trim question.text
  mode := question.mode
  webMode := question.webMode
  createdAt := now
  expiresAt := now + PENDING_QUESTION_INTENT_TTL_MS
  -- an empty owner is falsy: the question is bound to nobody
  ownerUserId := (normalizedOwner question).filter fun owner => !owner.isEmpty

def savePendingQuestionIntent (item : Item) (question : Question) (now : Int)
    (setThrows removeThrows : Bool) : Item × Bool :=
  if accepted question then setItem item (intentOf question now) setThrows
  else (removeItem item removeThrows, false)

def isValidIntent (intent : PendingQuestionIntent) (now : Int) : Bool :=
  decide (2 ≤ (trim intent.text).length) &&
    decide (utf16Length intent.text ≤ MAX_QUESTION_LENGTH) &&
    decide (intent.createdAt ≤ now + 60000) &&
    decide (intent.expiresAt > now) &&
    decide (intent.expiresAt > intent.createdAt) &&
    decide (intent.expiresAt - intent.createdAt ≤ PENDING_QUESTION_INTENT_TTL_MS) &&
    intent.ownerUserId.all fun owner => !owner.isEmpty && decide (utf16Length owner ≤ 256)

def consumePendingQuestionIntent (item : Item) (userId : Text) (now : Int)
    (getThrows removeThrows retryThrows : Bool) : Item × Option PendingQuestionIntent :=
  if getThrows then (removeItem item retryThrows, none)
  else
    match item with
    | none => (none, none)
    | some intent =>
        if removeThrows then (removeItem (some intent) retryThrows, none)
        else if !isValidIntent intent now then (none, none)
        else if intent.ownerUserId.any fun owner => owner != userId then (none, none)
        else (none, some intent)

def clearPendingQuestionIntent (item : Item) (removeThrows : Bool) : Item :=
  removeItem item removeThrows

/-! ## 3. Runs -/

inductive Call where
  | save (question : Question) (now : Int) (setThrows removeThrows : Bool)
  | clear (removeThrows : Bool)
  | consume (userId : Text) (now : Int) (getThrows removeThrows retryThrows : Bool)

/-- A call with its result. -/
inductive Event where
  | saved (question : Question) (now : Int) (result : Bool)
  | cleared
  | consumed (userId : Text) (now : Int) (result : Option PendingQuestionIntent)
  deriving DecidableEq

structure State where
  item : Item
  history : List Event

def init : State := ⟨none, []⟩

def step (s : State) : Call → State
  | .save question now setThrows removeThrows =>
      let (item, result) := savePendingQuestionIntent s.item question now setThrows removeThrows
      ⟨item, s.history ++ [.saved question now result]⟩
  | .clear removeThrows =>
      ⟨clearPendingQuestionIntent s.item removeThrows, s.history ++ [.cleared]⟩
  | .consume userId now getThrows removeThrows retryThrows =>
      let (item, result) :=
        consumePendingQuestionIntent s.item userId now getThrows removeThrows retryThrows
      ⟨item, s.history ++ [.consumed userId now result]⟩

/-- Neither a save nor a question returned. -/
def Event.quiet : Event → Bool
  | .saved _ _ _ => false
  | .cleared => true
  | .consumed _ _ result => result.isNone

/-- The intent of the most recent save, which returned true and whose question no consume has
    returned since. -/
def Deliverable (history : List Event) (intent : PendingQuestionIntent) : Prop :=
  ∃ earlier question savedAt later,
    history = earlier ++ .saved question savedAt true :: later ∧
    (∀ event ∈ later, event.quiet = true) ∧ intent = intentOf question savedAt

/-- **What is asked of every consume**: a returned question was deliverable before it, has not
    expired and is its owner's. -/
def LatestOnce (history : List Event) : Prop :=
  ∀ before userId now intent after,
    history = before ++ .consumed userId now (some intent) :: after →
    Deliverable before intent ∧ now < intent.expiresAt ∧
      ∀ owner, intent.ownerUserId = some owner → owner = userId

/-- A save that is refused leaves no older record. -/
def Replaces (s : State) : Call → Prop
  | .save question _ setThrows removeThrows =>
      s.item = none ∨
        if accepted question then setThrows = false else removeThrows = false
  | .clear _ => True
  | .consume _ _ _ _ _ => True

/-! ## 4. What the calls do -/

/-- A consume keeps the record, or it is gone; it is returned only where it is gone. -/
theorem consume_cases (item : Item) (userId : Text) (now : Int)
    (getThrows removeThrows retryThrows : Bool) :
    let outcome := consumePendingQuestionIntent item userId now getThrows removeThrows retryThrows
    (outcome.2 = none ∧ (outcome.1 = item ∨ outcome.1 = none)) ∨
      ∃ intent, item = some intent ∧ outcome = (none, some intent) ∧
        isValidIntent intent now = true ∧
        (intent.ownerUserId.any fun owner => owner != userId) = false := by
  have hremoved (item : Item) : removeItem item retryThrows = item ∨
      removeItem item retryThrows = none := by
    cases retryThrows with
    | false => exact .inr rfl
    | true => exact .inl rfl
  intro outcome
  by_cases hget : getThrows = true
  · have houtcome : outcome = (removeItem item retryThrows, none) := if_pos hget
    rw [houtcome]
    exact .inl ⟨rfl, hremoved item⟩
  · cases item with
    | none =>
      have houtcome : outcome = (none, none) := if_neg hget
      rw [houtcome]
      exact .inl ⟨rfl, .inl rfl⟩
    | some intent =>
      have houtcome : outcome =
          if removeThrows then (removeItem (some intent) retryThrows, none)
          else if !isValidIntent intent now then (none, none)
          else if intent.ownerUserId.any fun owner => owner != userId then (none, none)
          else (none, some intent) := if_neg hget
      rw [houtcome]
      by_cases hremove : removeThrows = true
      · rw [if_pos hremove]
        exact .inl ⟨rfl, hremoved (some intent)⟩
      · rw [if_neg hremove]
        by_cases hvalid : isValidIntent intent now = true
        · rw [if_neg (by rw [hvalid]; decide)]
          by_cases howner : (intent.ownerUserId.any fun owner => owner != userId) = true
          · rw [if_pos howner]
            exact .inl ⟨rfl, .inr rfl⟩
          · rw [if_neg howner]
            exact .inr ⟨intent, rfl, rfl, hvalid, Bool.eq_false_iff.mpr howner⟩
        · rw [if_pos (by rw [Bool.eq_false_iff.mpr hvalid]; decide)]
          exact .inl ⟨rfl, .inr rfl⟩

/-- A question that was accepted is valid until it expires. -/
theorem isValidIntent_intentOf {question : Question} (h : accepted question = true)
    {savedAt now : Int} (hstart : savedAt ≤ now + 60000)
    (hend : now < savedAt + PENDING_QUESTION_INTENT_TTL_MS) :
    isValidIntent (intentOf question savedAt) now = true := by
  unfold accepted at h
  rw [Bool.not_eq_true', Bool.or_eq_false_iff, Bool.or_eq_false_iff, decide_eq_false_iff_not,
    decide_eq_false_iff_not] at h
  obtain ⟨⟨hshort, hlong⟩, howner⟩ := h
  have htext : (trim (intentOf question savedAt).text).length = (trim question.text).length := by
    show (trim (trim question.text)).length = _
    rw [trim_trim]
  have hall : ((intentOf question savedAt).ownerUserId.all fun owner =>
      !owner.isEmpty && decide (utf16Length owner ≤ 256)) = true := by
    show (((normalizedOwner question).filter fun owner => !owner.isEmpty).all _) = true
    cases hnormalized : normalizedOwner question with
    | none => rfl
    | some owner =>
      rw [hnormalized, Option.any_some, decide_eq_false_iff_not] at howner
      cases hempty : owner.isEmpty with
      | true => simp [Option.filter, hempty]
      | false =>
        have hle : utf16Length owner ≤ 256 := by omega
        simp [Option.filter, hempty, hle]
  have httl : PENDING_QUESTION_INTENT_TTL_MS = 900000 := rfl
  have hexpires : (intentOf question savedAt).expiresAt =
      savedAt + PENDING_QUESTION_INTENT_TTL_MS := rfl
  have hcreated : (intentOf question savedAt).createdAt = savedAt := rfl
  have hlength : utf16Length (intentOf question savedAt).text ≤ MAX_QUESTION_LENGTH := by
    show utf16Length (trim question.text) ≤ _
    omega
  unfold isValidIntent
  simp only [Bool.and_eq_true, decide_eq_true_eq]
  refine ⟨⟨⟨⟨⟨⟨?_, hlength⟩, ?_⟩, ?_⟩, ?_⟩, ?_⟩, hall⟩
  · omega
  · omega
  · omega
  · omega
  · omega

/-- The owner of a question, or anybody where it is bound to nobody, meets the check. -/
theorem owner_passes {intent : PendingQuestionIntent} {userId : Text} :
    (intent.ownerUserId.any fun owner => owner != userId) = false ↔
      ∀ owner, intent.ownerUserId = some owner → owner = userId := by
  cases intent.ownerUserId with
  | none =>
    constructor
    · intro _ owner h
      nomatch h
    · exact fun _ => rfl
  | some owner =>
    rw [Option.any_some, bne_eq_false_iff_eq]
    refine ⟨fun h other hother => ?_, fun h => h owner rfl⟩
    rw [← Option.some.inj hother]
    exact h

/-- **A saved question** is returned by the next consume, when that is its owner's, it comes
    within the lifetime and nothing throws. -/
theorem consume_saved (s : State) {question : Question} {savedAt now : Int} {userId : Text}
    (h : accepted question = true) (hstart : savedAt ≤ now + 60000)
    (hend : now < savedAt + PENDING_QUESTION_INTENT_TTL_MS)
    (howner : ∀ owner, (intentOf question savedAt).ownerUserId = some owner → owner = userId)
    (removeThrows retryThrows : Bool) :
    step (step s (.save question savedAt false removeThrows))
        (.consume userId now false false retryThrows) =
      ⟨none, s.history ++ [.saved question savedAt true] ++
        [.consumed userId now (some (intentOf question savedAt))]⟩ := by
  have hsave : savePendingQuestionIntent s.item question savedAt false removeThrows =
      (some (intentOf question savedAt), true) := if_pos h
  have hvalid := isValidIntent_intentOf h hstart hend
  have hconsume : consumePendingQuestionIntent (some (intentOf question savedAt)) userId now false
      false retryThrows = (none, some (intentOf question savedAt)) := by
    unfold consumePendingQuestionIntent
    rw [if_neg (by decide)]
    dsimp only
    rw [if_neg (by decide), if_neg (by rw [hvalid]; decide),
      if_neg (by rw [owner_passes.mpr howner]; decide)]
  have hsaved : step s (.save question savedAt false removeThrows) =
      ⟨some (intentOf question savedAt), s.history ++ [.saved question savedAt true]⟩ := by
    rw [step, hsave]
  rw [hsaved, step, hconsume]

/-- A save returns true exactly where its record is written. -/
theorem save_cases (item : Item) (question : Question) (now : Int)
    (setThrows removeThrows : Bool) :
    let outcome := savePendingQuestionIntent item question now setThrows removeThrows
    outcome = (some (intentOf question now), true) ∨
      outcome.2 = false ∧ (outcome.1 = item ∨ outcome.1 = none) := by
  intro outcome
  by_cases haccepted : accepted question = true
  · have houtcome : outcome = setItem item (intentOf question now) setThrows := if_pos haccepted
    rw [houtcome]
    cases setThrows with
    | false => exact .inl rfl
    | true => exact .inr ⟨rfl, .inl rfl⟩
  · have houtcome : outcome = (removeItem item removeThrows, false) := if_neg haccepted
    rw [houtcome]
    cases removeThrows with
    | false => exact .inr ⟨rfl, .inr rfl⟩
    | true => exact .inr ⟨rfl, .inl rfl⟩

/-- A refused save that replaces what was there leaves nothing. -/
theorem save_refused {s : State} {question : Question} {now : Int} {setThrows removeThrows : Bool}
    (hreplaces : Replaces s (.save question now setThrows removeThrows))
    (hrefused :
      (savePendingQuestionIntent s.item question now setThrows removeThrows).2 = false) :
    (savePendingQuestionIntent s.item question now setThrows removeThrows).1 = none := by
  rcases hreplaces with hnone | hworks
  · rcases save_cases s.item question now setThrows removeThrows with hsaved | ⟨-, hitem | hitem⟩
    · rw [hsaved] at hrefused
      nomatch hrefused
    · rw [hitem, hnone]
    · exact hitem
  · unfold savePendingQuestionIntent at hrefused ⊢
    split at hworks
    · rename_i haccepted
      rw [if_pos haccepted, hworks] at hrefused
      nomatch hrefused
    · rename_i haccepted
      rw [if_neg haccepted, hworks]
      rfl

/-! ## 5. Histories -/

theorem Deliverable.quiet {history : List Event} {intent : PendingQuestionIntent} {event : Event}
    (h : Deliverable history intent) (hquiet : event.quiet = true) :
    Deliverable (history ++ [event]) intent := by
  obtain ⟨earlier, question, savedAt, later, rfl, hlater, rfl⟩ := h
  refine ⟨earlier, question, savedAt, later ++ [event], by simp, ?_, rfl⟩
  intro next hnext
  rcases List.mem_append.mp hnext with hold | hnew
  · exact hlater next hold
  · rw [List.mem_singleton.mp hnew]
    exact hquiet

theorem deliverable_saved (history : List Event) (question : Question) (now : Int) :
    Deliverable (history ++ [.saved question now true]) (intentOf question now) :=
  ⟨history, question, now, [], rfl, (fun _ h => nomatch h), rfl⟩

/-- After a refused save nothing is deliverable. -/
theorem not_deliverable_refused (history : List Event) (question : Question) (now : Int)
    (intent : PendingQuestionIntent) :
    ¬ Deliverable (history ++ [.saved question now false]) intent := by
  rintro ⟨earlier, other, savedAt, later, hsplit, hlater, -⟩
  rcases List.eq_nil_or_concat later with rfl | ⟨front, last, rfl⟩
  · obtain ⟨-, hlast⟩ := List.append_inj' hsplit rfl
    nomatch hlast
  · have hassoc : history ++ [.saved question now false] =
        (earlier ++ .saved other savedAt true :: front) ++ [last] := by
      rw [hsplit, List.concat_eq_append, List.append_assoc, List.cons_append]
    have hlast := List.head_eq_of_cons_eq (List.append_inj' hassoc rfl).2
    have hquiet := hlater last (by simp)
    rw [← hlast] at hquiet
    nomatch hquiet

/-- Only a returned question has to be accounted for. -/
theorem LatestOnce.snoc {history : List Event} {event : Event} (h : LatestOnce history)
    (hevent : ∀ userId now intent, event = .consumed userId now (some intent) →
      Deliverable history intent ∧ now < intent.expiresAt ∧
        ∀ owner, intent.ownerUserId = some owner → owner = userId) :
    LatestOnce (history ++ [event]) := by
  intro before userId now intent after hsplit
  rcases List.eq_nil_or_concat after with rfl | ⟨front, last, rfl⟩
  · obtain ⟨rfl, hlast⟩ := List.append_inj' hsplit rfl
    exact hevent userId now intent (List.head_eq_of_cons_eq hlast)
  · have hassoc : history ++ [event] =
        (before ++ .consumed userId now (some intent) :: front) ++ [last] := by
      rw [hsplit, List.concat_eq_append, List.append_assoc, List.cons_append]
    exact h before userId now intent front (List.append_inj' hassoc rfl).1

/-! ## 6. Runs -/

structure Inv (s : State) : Prop where
  item : ∀ intent, s.item = some intent → Deliverable s.history intent
  latest : LatestOnce s.history

theorem inv_init : Inv init where
  item := fun _ h => nomatch h
  latest := by
    intro before userId now intent after hsplit
    exact absurd hsplit.symm (by simp [init])

/-- A call that keeps the record or loses it, and returns nothing. -/
theorem Inv.quiet {s : State} (h : Inv s) {item : Item} {event : Event}
    (hquiet : event.quiet = true) (hitem : item = s.item ∨ item = none) :
    Inv ⟨item, s.history ++ [event]⟩ := by
  refine ⟨?_, h.latest.snoc ?_⟩
  · intro intent hsome
    rcases hitem with hkept | hlost
    · rw [hkept] at hsome
      exact (h.item intent hsome).quiet hquiet
    · rw [hlost] at hsome
      nomatch hsome
  · intro userId now intent hevent
    rw [hevent] at hquiet
    nomatch hquiet

/-- **One call**: a save writes its own record or leaves none, a consume takes the record
    away before it returns it. -/
theorem Inv.next {s : State} {call : Call} (hreplaces : Replaces s call) (h : Inv s) :
    Inv (step s call) := by
  cases call with
  | save question now setThrows removeThrows =>
    show Inv ⟨(savePendingQuestionIntent s.item question now setThrows removeThrows).1,
      s.history ++ [.saved question now
        (savePendingQuestionIntent s.item question now setThrows removeThrows).2]⟩
    refine ⟨?_, h.latest.snoc fun _ _ _ hevent => nomatch hevent⟩
    intro intent hsome
    rcases save_cases s.item question now setThrows removeThrows with hsaved | ⟨hrefused, -⟩
    · rw [hsaved] at hsome ⊢
      rw [← Option.some.inj hsome]
      exact deliverable_saved s.history question now
    · rw [save_refused hreplaces hrefused] at hsome
      nomatch hsome
  | clear removeThrows =>
    refine h.quiet rfl ?_
    cases removeThrows with
    | false => exact .inr rfl
    | true => exact .inl rfl
  | consume userId now getThrows removeThrows retryThrows =>
    show Inv ⟨(consumePendingQuestionIntent s.item userId now getThrows removeThrows
        retryThrows).1,
      s.history ++ [.consumed userId now
        (consumePendingQuestionIntent s.item userId now getThrows removeThrows retryThrows).2]⟩
    rcases consume_cases s.item userId now getThrows removeThrows retryThrows with
      ⟨hnone, hitem⟩ | ⟨intent, hsome, houtcome, hvalid, howner⟩
    · rw [hnone]
      exact h.quiet rfl hitem
    · rw [houtcome]
      refine ⟨(fun _ hgone => nomatch hgone), h.latest.snoc ?_⟩
      intro other time returned hevent
      obtain ⟨rfl, rfl, hreturned⟩ := Event.consumed.inj hevent
      obtain rfl := Option.some.inj hreturned
      refine ⟨h.item intent hsome, ?_, owner_passes.mp howner⟩
      unfold isValidIntent at hvalid
      simp only [Bool.and_eq_true, decide_eq_true_eq] at hvalid
      exact hvalid.1.1.1.2

/-- **Only the latest question, once, by its owner**: in a run whose refused saves leave no
    older record, every question returned is that of the latest save, returned for the first
    time, before it expires and to its owner; and from every state a saved question reaches the
    next consume, when that is its owner's, it comes in time and the storage works. -/
theorem latest_question_once (calls : List Call)
    (hreplaces : Machine.Along step Replaces init calls) :
    LatestOnce (Machine.run step init calls).history ∧
    ∀ question savedAt now userId removeThrows retryThrows, accepted question = true →
      savedAt ≤ now → now < savedAt + PENDING_QUESTION_INTENT_TTL_MS →
      (∀ owner, (intentOf question savedAt).ownerUserId = some owner → owner = userId) →
      step (step (Machine.run step init calls) (.save question savedAt false removeThrows))
          (.consume userId now false false retryThrows) =
        ⟨none, (Machine.run step init calls).history ++ [.saved question savedAt true] ++
          [.consumed userId now (some (intentOf question savedAt))]⟩ := by
  have h : Inv (Machine.run step init calls) :=
    Machine.run_invariant_along inv_init (fun _ _ hreplaces h => h.next hreplaces) calls hreplaces
  refine ⟨h.latest, ?_⟩
  intro question savedAt now userId removeThrows retryThrows haccepted hstart hend howner
  exact consume_saved _ haccepted (by omega) hend howner removeThrows retryThrows

def pumpQuestion : Question := ⟨" why is the pump hot? ".toList, none, none, none⟩

def leakQuestion : Question := ⟨"how do I find a leak?".toList, some "u1".toList, some .deep, none⟩

/-- A first write that throws, on an empty storage; a question replaced; a removal tried again. -/
def retriedCalls : List Call :=
  [.save pumpQuestion 1000 true false, .save pumpQuestion 2000 false false,
    .save leakQuestion 3000 false false, .consume "u1".toList 4000 false true false]

theorem latest_question_once_retried :
    LatestOnce (Machine.run step init retriedCalls).history :=
  (latest_question_once retriedCalls
    ⟨.inl rfl, .inl rfl, .inr (by rw [if_pos (by decide)]), trivial, trivial⟩).1

/-- The write of the second question throws; the consume returns the first. -/
theorem replaced_question_sent : ¬ ∀ calls, LatestOnce (Machine.run step init calls).history := by
  intro h
  have hrun : (Machine.run step init [.save pumpQuestion 1000 false false,
      .save leakQuestion 2000 true false, .consume "u1".toList 3000 false false false]).history =
      [.saved pumpQuestion 1000 true, .saved leakQuestion 2000 false] ++
        .consumed "u1".toList 3000 (some (intentOf pumpQuestion 1000)) :: [] := by
    decide
  exact not_deliverable_refused [_] leakQuestion 2000 _ (h _ _ _ _ _ _ hrun).1

end OpenVac.PendingQuestion
