/-
  File:      OpenVac/Api/ProblemReports.lean
  Subject:   Problem reports: `createProblemReport` of server/api/store.ts, its transactions step by
             step under the advisory lock of a user.

  * `step` -- one statement of one transaction, or a change of the conversations by others.
  * `Inv` -- who holds the lock, what its holder has found, and what the committed reports are.
  * `inWindow_append_le` -- the sliding count bounds every window, whatever the clocks say.
  * `problem_reports_limited` -- the limit, one report for a request id, and replays.
-/
import Mathlib.Logic.Function.Basic
import Mathlib.Tactic.Common
import OpenVac.Lib.JsString
import OpenVac.Lib.Machine
import OpenVac.Lib.Rows

namespace OpenVac.ProblemReports

open JsString

/-! ## 1. Tables -/

def PROBLEM_REPORT_SUBMISSION_LIMIT : Nat := 5

def PROBLEM_REPORT_SUBMISSION_WINDOW_MS : Int := 600000

def DAY_MS : Int := 86400000

abbrev Id := Nat

/-- The advisory lock of a user: `hashtextextended(userId, 1967086383)`. -/
class AdvisoryHash where
  key : Id → Int

inductive ReportStatus where
  | new
  | reviewing
  | closed
  deriving DecidableEq, Repr

inductive ReportCategory where
  | answer_incorrect
  | citation_problem
  | unsafe_answer
  | system_error
  | product_suggestion
  | other
  deriving DecidableEq, Repr

inductive ContactType where
  | phone
  | email
  | wechat
  deriving DecidableEq, Repr

structure ConversationRow where
  id : Id
  userId : Id
  title : Text
  summary : Option Text
  /-- `status = 'deleted'` or a `deletedAt`. -/
  deleted : Bool
  deriving DecidableEq

structure MessageRow where
  id : Id
  conversationId : Id
  role : Text
  content : Text
  sequence : Int
  createdAt : Int
  deriving DecidableEq

structure ProblemReportInput where
  clientRequestId : Id
  conversationId : Option Id
  messageId : Option Id
  category : ReportCategory
  description : Text
  includeContext : Bool
  contactType : Option ContactType
  contactValue : Option Text
  consentToContact : Bool
  deriving DecidableEq

structure ReportContext where
  conversationId : Id
  title : Text
  summary : Option Text
  messages : List MessageRow
  capturedAt : Int
  deriving DecidableEq

structure ProblemReport where
  id : Id
  clientRequestId : Id
  userId : Id
  conversationId : Option Id
  messageId : Option Id
  category : ReportCategory
  description : Text
  includeContext : Bool
  context : Option ReportContext
  contactType : Option ContactType
  contactValue : Option Text
  consentToContact : Bool
  status : ReportStatus
  retentionUntil : Int
  createdAt : Int
  updatedAt : Int
  deriving DecidableEq

/-- What a submission is told of a report. -/
structure ReportSummary where
  id : Id
  status : ReportStatus
  createdAt : Int
  deriving DecidableEq

def ProblemReport.summary (report : ProblemReport) : ReportSummary :=
  ⟨report.id, report.status, report.createdAt⟩

inductive Outcome where
  | replayed (report : ReportSummary)
  | created (report : ReportSummary)
  | rateLimited
  /-- `null`: no such conversation or message. -/
  | notFound
  /-- The transaction failed and was rolled back. -/
  | failed
  deriving DecidableEq

structure Response where
  userId : Id
  clientRequestId : Id
  outcome : Outcome
  deriving DecidableEq

/-- How far a transaction has come. -/
inductive Phase where
  | waiting
  | locked
  /-- There is no report with this request id. -/
  | unseen
  /-- The count was below the limit at this time. -/
  | admitted (now : Int)
  /-- The row is written and not yet committed. -/
  | inserted (row : ProblemReport)
  deriving DecidableEq

structure Session where
  userId : Id
  input : ProblemReportInput
  phase : Phase
  deriving DecidableEq

structure State where
  reports : List ProblemReport
  conversations : List ConversationRow
  messages : List MessageRow
  sessions : Id → Option Session
  locks : Int → Option Id
  responses : List Response

def init : State := ⟨[], [], [], fun _ => none, fun _ => none, []⟩

/-! ## 2. Statements -/

/-- The reports of a user from a time on. -/
def recentCount (reports : List ProblemReport) (userId : Id) (windowStart : Int) : Nat :=
  reports.countP fun report => report.userId == userId && decide (windowStart ≤ report.createdAt)

def isReplay (userId clientRequestId : Id) (report : ProblemReport) : Bool :=
  report.userId == userId && report.clientRequestId == clientRequestId

def ownedConversation (s : State) (userId id : Id) : Option ConversationRow :=
  s.conversations.find? fun row => row.id == id && row.userId == userId && !row.deleted

/-- The conversation of a message the user owns. -/
def ownedMessage (s : State) (userId messageId : Id) : Option Id :=
  (s.messages.find? fun row =>
    row.id == messageId && (ownedConversation s userId row.conversationId).isSome).map
      (·.conversationId)

/-- The conversation a report is about: `none` where the submission ends with `null`. -/
def associatedConversation (s : State) (userId : Id) (input : ProblemReportInput) :
    Option (Option ConversationRow) :=
  let conversationId : Option (Option Id) :=
    match input.messageId with
    | none => some input.conversationId
    | some messageId =>
        match ownedMessage s userId messageId with
        | none => none
        | some owner =>
            match input.conversationId with
            | some named => if named ≠ owner then none else some (some owner)
            | none => some (some owner)
  match conversationId with
  | none => none
  | some none => if input.includeContext then none else some none
  | some (some id) => (ownedConversation s userId id).map some

def storedProblemReportAssociations (includeContext : Bool) (conversationId messageId : Option Id) :
    Option Id × Option Id :=
  if includeContext then (conversationId, messageId) else (none, none)

/-- The last eight messages, in order. -/
def contextMessages (s : State) (conversationId : Id) : List MessageRow :=
  let rows := s.messages.filter fun row => row.conversationId == conversationId
  ((rows.mergeSort fun a b => decide (b.sequence ≤ a.sequence)).take 8).mergeSort
    fun a b => decide (a.sequence ≤ b.sequence)

def problemReportRetentionUntil (createdAt : Int) : Int := createdAt + 180 * DAY_MS

def newReport (s : State) (userId : Id) (input : ProblemReportInput)
    (conversation : Option ConversationRow) (id : Id) (now : Int) : ProblemReport :=
  let stored := storedProblemReportAssociations input.includeContext
    (conversation.map (·.id)) input.messageId
  { id := id
    clientRequestId := input.clientRequestId
    userId := userId
    conversationId := stored.1
    messageId := stored.2
    category := input.category
    description := input.description
    includeContext := input.includeContext
    context :=
      match input.includeContext, conversation with
      | true, some row =>
          some ⟨row.id, row.title, row.summary, contextMessages s row.id, now⟩
      | _, _ => none
    contactType := input.contactType
    contactValue := input.contactValue
    consentToContact := input.consentToContact
    status := .new
    retentionUntil := problemReportRetentionUntil now
    createdAt := now
    updatedAt := now }

/-! ## 3. Steps -/

inductive Action where
  | submit (sid userId : Id) (input : ProblemReportInput)
  | lock (sid : Id)
  | lookup (sid : Id)
  | count (sid : Id) (now : Int)
  | insert (sid id : Id)
  | commit (sid : Id)
  | fail (sid : Id)
  /-- Others write conversations and messages. -/
  | environment (conversations : List ConversationRow) (messages : List MessageRow)

section Steps

variable [AdvisoryHash]

def State.setPhase (s : State) (sid : Id) (session : Session) (phase : Phase) : State :=
  { s with sessions := Function.update s.sessions sid (some { session with phase := phase }) }

/-- The transaction ends: its answer is given and its lock is free. -/
def State.finish (s : State) (sid : Id) (session : Session) (outcome : Outcome) : State :=
  { s with
    sessions := Function.update s.sessions sid none
    locks :=
      if s.locks (AdvisoryHash.key session.userId) = some sid then
        Function.update s.locks (AdvisoryHash.key session.userId) none
      else s.locks
    responses := s.responses ++ [⟨session.userId, session.input.clientRequestId, outcome⟩] }

def lock (s : State) (sid : Id) (session : Session) : State :=
  if session.phase = .waiting ∧ s.locks (AdvisoryHash.key session.userId) = none then
    { s.setPhase sid session .locked with
      locks := Function.update s.locks (AdvisoryHash.key session.userId) (some sid) }
  else s

def lookup (s : State) (sid : Id) (session : Session) : State :=
  if session.phase = .locked then
    match s.reports.find? (isReplay session.userId session.input.clientRequestId) with
    | some replay => s.finish sid session (.replayed replay.summary)
    | none => s.setPhase sid session .unseen
  else s

def count (s : State) (sid : Id) (session : Session) (now : Int) : State :=
  if session.phase = .unseen then
    if recentCount s.reports session.userId (now - PROBLEM_REPORT_SUBMISSION_WINDOW_MS) ≥
        PROBLEM_REPORT_SUBMISSION_LIMIT then
      s.finish sid session .rateLimited
    else s.setPhase sid session (.admitted now)
  else s

/-- The selects on conversations and messages, and the insert. -/
def insert (s : State) (sid : Id) (session : Session) (id : Id) : State :=
  match session.phase with
  | .admitted now =>
      match associatedConversation s session.userId session.input with
      | none => s.finish sid session .notFound
      | some conversation =>
          s.setPhase sid session
            (.inserted (newReport s session.userId session.input conversation id now))
  | _ => s

def commit (s : State) (sid : Id) (session : Session) : State :=
  match session.phase with
  | .inserted row =>
      { s.finish sid session (.created row.summary) with reports := s.reports ++ [row] }
  | _ => s

def step (s : State) : Action → State
  | .submit sid userId input =>
      match s.sessions sid with
      | none =>
          { s with sessions := Function.update s.sessions sid (some ⟨userId, input, .waiting⟩) }
      | some _ => s
  | .lock sid => (s.sessions sid).elim s (lock s sid)
  | .lookup sid => (s.sessions sid).elim s (lookup s sid)
  | .count sid now => (s.sessions sid).elim s fun session => count s sid session now
  | .insert sid id => (s.sessions sid).elim s fun session => insert s sid session id
  | .commit sid => (s.sessions sid).elim s (commit s sid)
  | .fail sid => (s.sessions sid).elim s fun session => s.finish sid session .failed
  | .environment conversations messages =>
      { s with conversations := conversations, messages := messages }

end Steps

/-! ## 4. Windows -/

/-- The reports of a user in a window of the configured length. -/
def inWindow (reports : List ProblemReport) (userId : Id) (windowStart : Int) : Nat :=
  reports.countP fun report =>
    report.userId == userId && decide (windowStart ≤ report.createdAt) &&
      decide (report.createdAt ≤ windowStart + PROBLEM_REPORT_SUBMISSION_WINDOW_MS)

theorem recentCount_append (reports : List ProblemReport) (row : ProblemReport) (userId : Id)
    (windowStart : Int) (h : row.userId ≠ userId) :
    recentCount (reports ++ [row]) userId windowStart = recentCount reports userId windowStart := by
  unfold recentCount
  rw [List.countP_append, List.countP_singleton]
  simp [h]

/-- A window that a new report falls into begins within the sliding count's range. -/
theorem inWindow_le_recentCount (reports : List ProblemReport) (userId : Id)
    {windowStart now : Int} (h : now ≤ windowStart + PROBLEM_REPORT_SUBMISSION_WINDOW_MS) :
    inWindow reports userId windowStart ≤
      recentCount reports userId (now - PROBLEM_REPORT_SUBMISSION_WINDOW_MS) := by
  refine List.countP_mono_left fun report _ hreport => ?_
  simp only [Bool.and_eq_true, beq_iff_eq, decide_eq_true_eq] at hreport ⊢
  exact ⟨hreport.1.1, by omega⟩

/-- **One report more**, at a time at which the sliding count has room, fills no window. -/
theorem inWindow_append_le {reports : List ProblemReport} {row : ProblemReport}
    (hwindows : ∀ userId windowStart,
      inWindow reports userId windowStart ≤ PROBLEM_REPORT_SUBMISSION_LIMIT)
    (hroom : recentCount reports row.userId (row.createdAt - PROBLEM_REPORT_SUBMISSION_WINDOW_MS) <
      PROBLEM_REPORT_SUBMISSION_LIMIT) (userId : Id) (windowStart : Int) :
    inWindow (reports ++ [row]) userId windowStart ≤ PROBLEM_REPORT_SUBMISSION_LIMIT := by
  have hold := hwindows userId windowStart
  have happend : inWindow (reports ++ [row]) userId windowStart =
      inWindow reports userId windowStart + inWindow [row] userId windowStart :=
    List.countP_append
  by_cases hin : inWindow [row] userId windowStart = 0
  · omega
  · have hone : inWindow [row] userId windowStart ≤ 1 := List.countP_le_length
    have hfalls : row.userId = userId ∧
        row.createdAt ≤ windowStart + PROBLEM_REPORT_SUBMISSION_WINDOW_MS := by
      by_contra hout
      refine hin (List.countP_eq_zero.mpr fun report hreport htrue => hout ?_)
      rw [List.mem_singleton.mp hreport] at htrue
      simp only [Bool.and_eq_true, beq_iff_eq, decide_eq_true_eq] at htrue
      exact ⟨htrue.1.1, htrue.2⟩
    obtain ⟨rfl, htime⟩ := hfalls
    have hle := inWindow_le_recentCount reports row.userId htime
    omega

/-! ## 5. The invariant -/

/-- The look-up has found no report. -/
def Phase.looked : Phase → Bool
  | .waiting | .locked => false
  | .unseen | .admitted _ | .inserted _ => true

/-- The time at which the limit was checked. -/
def Phase.time : Phase → Option Int
  | .waiting | .locked | .unseen => none
  | .admitted now => some now
  | .inserted row => some row.createdAt

def createdSummary (response : Response) : Option ReportSummary :=
  match response.outcome with
  | .created report => some report
  | _ => none

section Invariant

variable [AdvisoryHash]

structure Inv (s : State) : Prop where
  held : ∀ sid session, s.sessions sid = some session → session.phase ≠ .waiting →
    s.locks (AdvisoryHash.key session.userId) = some sid
  fresh : ∀ sid session, s.sessions sid = some session → session.phase.looked = true →
    ∀ report ∈ s.reports, isReplay session.userId session.input.clientRequestId report = false
  room : ∀ sid session now, s.sessions sid = some session → session.phase.time = some now →
    recentCount s.reports session.userId (now - PROBLEM_REPORT_SUBMISSION_WINDOW_MS) <
      PROBLEM_REPORT_SUBMISSION_LIMIT
  row : ∀ sid session row, s.sessions sid = some session → session.phase = .inserted row →
    row.userId = session.userId ∧ row.clientRequestId = session.input.clientRequestId
  unique : ∀ userId clientRequestId, s.reports.countP (isReplay userId clientRequestId) ≤ 1
  windows : ∀ userId windowStart,
    inWindow s.reports userId windowStart ≤ PROBLEM_REPORT_SUBMISSION_LIMIT
  created : s.responses.filterMap createdSummary = s.reports.map ProblemReport.summary

theorem inv_init : Inv init where
  held := fun _ _ h => nomatch h
  fresh := fun _ _ h => nomatch h
  room := fun _ _ _ h => nomatch h
  row := fun _ _ _ h => nomatch h
  unique := fun _ _ => Nat.zero_le 1
  windows := fun _ _ => Nat.zero_le _
  created := rfl

/-- **The lock**: one transaction of a user at a time is past it. -/
theorem Inv.holder {s : State} (h : Inv s) {sid other : Id} {session second : Session}
    (hs : s.sessions sid = some session) (hphase : session.phase ≠ .waiting)
    (ho : s.sessions other = some second) (hother : second.phase ≠ .waiting)
    (huser : session.userId = second.userId) : sid = other := by
  have hfirst := h.held sid session hs hphase
  have hsecond := h.held other second ho hother
  rw [huser, hsecond] at hfirst
  exact (Option.some.inj hfirst).symm

omit [AdvisoryHash] in
/-- A session of the updated table is the new one or was there. -/
theorem update_cases {sessions : Id → Option Session} {sid other : Id} {session second : Session}
    (ho : Function.update sessions sid (some session) other = some second) :
    (other = sid ∧ second = session) ∨ sessions other = some second := by
  by_cases heq : other = sid
  · subst heq
    rw [Function.update_self] at ho
    exact .inl ⟨rfl, (Option.some.inj ho).symm⟩
  · rw [Function.update_of_ne heq] at ho
    exact .inr ho

/-- One transaction is given a session and the lock: what its phase says has to hold. -/
theorem Inv.withSession {s : State} (h : Inv s) {sid : Id} (session : Session)
    (locks : Int → Option Id)
    (hheld : ∀ other second, Function.update s.sessions sid (some session) other = some second →
      second.phase ≠ .waiting → locks (AdvisoryHash.key second.userId) = some other)
    (hfresh : session.phase.looked = true →
      ∀ report ∈ s.reports, isReplay session.userId session.input.clientRequestId report = false)
    (hroom : ∀ now, session.phase.time = some now →
      recentCount s.reports session.userId (now - PROBLEM_REPORT_SUBMISSION_WINDOW_MS) <
        PROBLEM_REPORT_SUBMISSION_LIMIT)
    (hrow : ∀ row, session.phase = .inserted row →
      row.userId = session.userId ∧ row.clientRequestId = session.input.clientRequestId) :
    Inv { s with sessions := Function.update s.sessions sid (some session), locks := locks } := by
  refine ⟨hheld, ?_, ?_, ?_, h.unique, h.windows, h.created⟩
  · intro other second ho hlooked
    rcases update_cases ho with ⟨rfl, rfl⟩ | hold
    · exact hfresh hlooked
    · exact h.fresh other second hold hlooked
  · intro other second now ho htime
    rcases update_cases ho with ⟨rfl, rfl⟩ | hold
    · exact hroom now htime
    · exact h.room other second now hold htime
  · intro other second row ho hinserted
    rcases update_cases ho with ⟨rfl, rfl⟩ | hold
    · exact hrow row hinserted
    · exact h.row other second row hold hinserted

/-- A transaction goes on: what its new phase says has to hold. -/
theorem Inv.setPhase {s : State} (h : Inv s) {sid : Id} {session : Session} {phase : Phase}
    (hs : s.sessions sid = some session) (hphase : session.phase ≠ .waiting)
    (hfresh : phase.looked = true →
      ∀ report ∈ s.reports, isReplay session.userId session.input.clientRequestId report = false)
    (hroom : ∀ now, phase.time = some now →
      recentCount s.reports session.userId (now - PROBLEM_REPORT_SUBMISSION_WINDOW_MS) <
        PROBLEM_REPORT_SUBMISSION_LIMIT)
    (hrow : ∀ row, phase = .inserted row →
      row.userId = session.userId ∧ row.clientRequestId = session.input.clientRequestId) :
    Inv (s.setPhase sid session phase) := by
  refine h.withSession { session with phase := phase } s.locks ?_ hfresh hroom hrow
  intro other second ho hother
  rcases update_cases ho with ⟨rfl, rfl⟩ | hold
  · exact h.held _ session hs hphase
  · exact h.held other second hold hother

/-- What is left when a transaction ends. -/
theorem finish_sessions {s : State} {sid other : Id} {session second : Session} {outcome : Outcome}
    (ho : (s.finish sid session outcome).sessions other = some second) :
    other ≠ sid ∧ s.sessions other = some second := by
  by_cases heq : other = sid
  · subst heq
    have hnone : (s.finish other session outcome).sessions other = none := by
      simp [State.finish]
    rw [hnone] at ho
    nomatch ho
  · refine ⟨heq, ?_⟩
    rw [← ho]
    simp [State.finish, heq]

/-- Ending a transaction takes no lock from another. -/
theorem Inv.finish_held {s : State} (h : Inv s) {sid : Id} (session : Session) (outcome : Outcome)
    {other : Id} {second : Session}
    (ho : (s.finish sid session outcome).sessions other = some second)
    (hother : second.phase ≠ .waiting) :
    (s.finish sid session outcome).locks (AdvisoryHash.key second.userId) = some other := by
  obtain ⟨hne, hold⟩ := finish_sessions ho
  have hheld := h.held other second hold hother
  unfold State.finish
  dsimp only
  split
  · rename_i hmine
    by_cases hkey : AdvisoryHash.key second.userId = AdvisoryHash.key session.userId
    · rw [hkey, hmine] at hheld
      exact absurd (Option.some.inj hheld).symm hne
    · rw [Function.update_of_ne hkey]
      exact hheld
  · exact hheld

theorem Inv.finish {s : State} (h : Inv s) {sid : Id} {session : Session} {outcome : Outcome}
    (hnew : createdSummary ⟨session.userId, session.input.clientRequestId, outcome⟩ = none) :
    Inv (s.finish sid session outcome) := by
  refine ⟨fun other second ho hother => h.finish_held session outcome ho hother, ?_, ?_, ?_,
    h.unique, h.windows, ?_⟩
  · intro other second ho hlooked
    exact h.fresh other second (finish_sessions ho).2 hlooked
  · intro other second now ho htime
    exact h.room other second now (finish_sessions ho).2 htime
  · intro other second row ho hinserted
    exact h.row other second row (finish_sessions ho).2 hinserted
  · show (s.responses ++ [_]).filterMap createdSummary = _
    rw [List.filterMap_append, h.created, List.filterMap_cons, hnew, List.filterMap_nil,
      List.append_nil]
    rfl

/-- **The commit**: the lock and the two checks before it make room for the row. -/
theorem Inv.commit {s : State} (h : Inv s) {sid : Id} {session : Session} {row : ProblemReport}
    (hs : s.sessions sid = some session) (hphase : session.phase = .inserted row) :
    Inv { s.finish sid session (.created row.summary) with reports := s.reports ++ [row] } := by
  obtain ⟨huser, hrequest⟩ := h.row sid session row hs hphase
  have hactive : session.phase ≠ .waiting := by
    rw [hphase]
    nofun
  have hroom := h.room sid session row.createdAt hs (by rw [hphase]; rfl)
  have hfresh := h.fresh sid session hs (by rw [hphase]; rfl)
  have hleft {other : Id} {second : Session}
      (ho : (s.finish sid session (.created row.summary)).sessions other = some second) :
      other ≠ sid ∧ s.sessions other = some second := finish_sessions ho
  have hothers {other : Id} {second : Session}
      (ho : (s.finish sid session (.created row.summary)).sessions other = some second)
      (hother : second.phase ≠ .waiting) : row.userId ≠ second.userId := by
    intro hsame
    obtain ⟨hne, hold⟩ := hleft ho
    exact hne (h.holder hs hactive hold hother (huser.symm.trans hsame)).symm
  refine ⟨fun other second ho hother =>
    h.finish_held session (.created row.summary) ho hother, ?_, ?_, ?_, ?_, ?_, ?_⟩
  · intro other second ho hlooked report hreport
    have hother : second.phase ≠ .waiting := by
      intro hwaiting
      rw [hwaiting] at hlooked
      nomatch hlooked
    rcases List.mem_append.mp hreport with hold | hnew
    · exact h.fresh other second (hleft ho).2 hlooked report hold
    · rw [List.mem_singleton.mp hnew]
      unfold isReplay
      rw [beq_eq_false_iff_ne.mpr (hothers ho hother), Bool.false_and]
  · intro other second now ho htime
    have hother : second.phase ≠ .waiting := by
      intro hwaiting
      rw [hwaiting] at htime
      nomatch htime
    rw [recentCount_append _ _ _ _ (hothers ho hother)]
    exact h.room other second now (hleft ho).2 htime
  · intro other second inserted ho hinserted
    exact h.row other second inserted (hleft ho).2 hinserted
  · intro userId clientRequestId
    show (s.reports ++ [row]).countP (isReplay userId clientRequestId) ≤ 1
    have hold := h.unique userId clientRequestId
    rw [List.countP_append, List.countP_singleton]
    split
    · rename_i hreplay
      have hzero : s.reports.countP (isReplay userId clientRequestId) = 0 := by
        unfold isReplay at hreplay
        rw [Bool.and_eq_true, beq_iff_eq, beq_iff_eq] at hreplay
        rw [← hreplay.1, ← hreplay.2, huser, hrequest, List.countP_eq_zero]
        intro report hreport htrue
        rw [hfresh report hreport] at htrue
        nomatch htrue
      omega
    · omega
  · intro userId windowStart
    rw [← huser] at hroom
    exact inWindow_append_le h.windows hroom userId windowStart
  · show (s.responses ++ [_]).filterMap createdSummary = (s.reports ++ [row]).map _
    rw [List.filterMap_append, List.map_append, h.created]
    rfl

/-! ## 6. Every step -/

theorem Inv.submit {s : State} (h : Inv s) (sid userId : Id) (input : ProblemReportInput) :
    Inv { s with sessions := Function.update s.sessions sid (some ⟨userId, input, .waiting⟩) } := by
  refine h.withSession ⟨userId, input, .waiting⟩ s.locks ?_ (fun hlooked => nomatch hlooked)
    (fun _ htime => nomatch htime) (fun _ hrow => nomatch hrow)
  intro other second ho hother
  rcases update_cases ho with ⟨rfl, rfl⟩ | hold
  · exact absurd rfl hother
  · exact h.held other second hold hother

theorem Inv.lock {s : State} (h : Inv s) {sid : Id} {session : Session} :
    Inv (lock s sid session) := by
  unfold ProblemReports.lock
  split
  · rename_i hfree
    refine h.withSession { session with phase := .locked } _ ?_ (fun hlooked => nomatch hlooked)
      (fun _ htime => nomatch htime) (fun _ hrow => nomatch hrow)
    intro other second ho hother
    rcases update_cases ho with ⟨rfl, rfl⟩ | hold
    · exact Function.update_self (AdvisoryHash.key session.userId) (some other) s.locks
    · have hheld := h.held other second hold hother
      have hkey : AdvisoryHash.key second.userId ≠ AdvisoryHash.key session.userId := by
        intro heq
        rw [heq, hfree.2] at hheld
        nomatch hheld
      rw [Function.update_of_ne hkey]
      exact hheld
  · exact h

theorem Inv.lookup {s : State} (h : Inv s) {sid : Id} {session : Session}
    (hs : s.sessions sid = some session) : Inv (lookup s sid session) := by
  unfold ProblemReports.lookup
  split
  · rename_i hphase
    cases hfind : s.reports.find? (isReplay session.userId session.input.clientRequestId) with
    | some replay => exact h.finish rfl
    | none =>
      refine h.setPhase hs (by rw [hphase]; nofun) (fun _ report hreport => ?_)
        (fun _ htime => nomatch htime) (fun _ hrow => nomatch hrow)
      exact Bool.eq_false_iff.mpr (List.find?_eq_none.mp hfind report hreport)
  · exact h

theorem Inv.count {s : State} (h : Inv s) {sid : Id} {session : Session}
    (hs : s.sessions sid = some session) (now : Int) : Inv (count s sid session now) := by
  unfold ProblemReports.count
  split
  · rename_i hphase
    split
    · exact h.finish rfl
    · rename_i hroom
      refine h.setPhase hs (by rw [hphase]; nofun) (fun _ => ?_) (fun time htime => ?_)
        (fun _ hrow => nomatch hrow)
      · exact h.fresh sid session hs (by rw [hphase]; rfl)
      · obtain rfl : now = time := Option.some.inj htime
        exact Nat.lt_of_not_le hroom
  · exact h

theorem Inv.insert {s : State} (h : Inv s) {sid : Id} {session : Session}
    (hs : s.sessions sid = some session) (id : Id) : Inv (insert s sid session id) := by
  unfold ProblemReports.insert
  cases hphase : session.phase with
  | admitted now =>
    cases associatedConversation s session.userId session.input with
    | none => exact h.finish rfl
    | some conversation =>
      refine h.setPhase hs (by rw [hphase]; nofun) (fun _ => ?_) (fun time htime => ?_)
        (fun row hrow => ?_)
      · exact h.fresh sid session hs (by rw [hphase]; rfl)
      · obtain rfl : now = time := Option.some.inj htime
        exact h.room sid session now hs (by rw [hphase]; rfl)
      · obtain rfl := Phase.inserted.inj hrow
        exact ⟨rfl, rfl⟩
  | _ => exact h

/-- **One step** keeps the invariant. -/
theorem Inv.next {s : State} (action : Action) (h : Inv s) : Inv (step s action) := by
  have helim (sid : Id) (f : Session → State)
      (hf : ∀ session, s.sessions sid = some session → Inv (f session)) :
      Inv ((s.sessions sid).elim s f) := by
    cases hs : s.sessions sid with
    | none => exact h
    | some session => exact hf session hs
  cases action with
  | submit sid userId input =>
    rw [ProblemReports.step]
    cases s.sessions sid with
    | none => exact h.submit sid userId input
    | some session => exact h
  | lock sid => exact helim sid _ fun _ _ => h.lock
  | lookup sid => exact helim sid _ fun _ hs => h.lookup hs
  | count sid now => exact helim sid _ fun _ hs => h.count hs now
  | insert sid id => exact helim sid _ fun _ hs => h.insert hs id
  | commit sid =>
    refine helim sid _ fun session hs => ?_
    unfold ProblemReports.commit
    cases hphase : session.phase with
    | inserted row => exact h.commit hs hphase
    | _ => exact h
  | fail sid => exact helim sid _ fun _ _ => h.finish rfl
  | environment conversations messages =>
    exact ⟨h.held, h.fresh, h.room, h.row, h.unique, h.windows, h.created⟩

theorem inv_run (actions : List Action) : Inv (Machine.run step init actions) :=
  Machine.run_invariant inv_init (fun _ action h => h.next action) actions

/-! ## 7. What a repeated submission is told -/

/-- A response to a submission whose request id has a report already. -/
def Replays (report : ProblemReport) (response : Response) : Prop :=
  response.userId = report.userId → response.clientRequestId = report.clientRequestId →
    response.outcome = .replayed report.summary ∨ response.outcome = .failed

/-- The answers of one step: at most one, and it is about a session. -/
def Answers (s : State) (report : ProblemReport) (t : State) : Prop :=
  report ∈ t.reports ∧ ∃ later, t.responses = s.responses ++ later ∧
    ∀ response ∈ later, Replays report response

omit [AdvisoryHash] in
theorem Answers.refl {s t : State} {report : ProblemReport} (hreport : report ∈ t.reports)
    (hsame : t.responses = s.responses) : Answers s report t :=
  ⟨hreport, [], by rw [hsame, List.append_nil], fun _ h => nomatch h⟩

omit [AdvisoryHash] in
theorem Answers.trans {s t u : State} {report : ProblemReport} (h : Answers s report t)
    (hnext : Answers t report u) : Answers s report u := by
  obtain ⟨-, later, hlater, hall⟩ := h
  obtain ⟨hreport, more, hmore, hmoreAll⟩ := hnext
  refine ⟨hreport, later ++ more, by rw [hmore, hlater, List.append_assoc], ?_⟩
  intro response hresponse
  rcases List.mem_append.mp hresponse with hold | hnew
  · exact hall response hold
  · exact hmoreAll response hnew

theorem answers_finish {s : State} {report : ProblemReport} (hreport : report ∈ s.reports)
    {sid : Id} {session : Session} {outcome : Outcome}
    (h : Replays report ⟨session.userId, session.input.clientRequestId, outcome⟩) :
    Answers s report (s.finish sid session outcome) := by
  refine ⟨hreport, [_], rfl, fun response hresponse => ?_⟩
  rw [List.mem_singleton.mp hresponse]
  exact h

/-- A transaction past its look-up is about another request id. -/
theorem Inv.looked_replays {s : State} (h : Inv s) {report : ProblemReport}
    (hreport : report ∈ s.reports) {sid : Id} {session : Session}
    (hs : s.sessions sid = some session) (hlooked : session.phase.looked = true)
    (outcome : Outcome) :
    Replays report ⟨session.userId, session.input.clientRequestId, outcome⟩ := by
  intro huser hrequest
  have hfresh := h.fresh sid session hs hlooked report hreport
  have hreplay : isReplay session.userId session.input.clientRequestId report = true := by
    unfold isReplay
    rw [Bool.and_eq_true, beq_iff_eq, beq_iff_eq]
    exact ⟨huser.symm, hrequest.symm⟩
  rw [hreplay] at hfresh
  nomatch hfresh

omit [AdvisoryHash] in
/-- **One report** for a request id: the look-up finds it. -/
theorem find_replay {reports : List ProblemReport} {report : ProblemReport}
    (hunique : reports.countP (isReplay report.userId report.clientRequestId) ≤ 1)
    (hreport : report ∈ reports) :
    reports.find? (isReplay report.userId report.clientRequestId) = some report := by
  have hself : isReplay report.userId report.clientRequestId report = true := by simp [isReplay]
  obtain ⟨before, after, rfl⟩ := List.append_of_mem hreport
  rw [List.countP_append, List.countP_cons, if_pos hself] at hunique
  have hbefore : before.countP (isReplay report.userId report.clientRequestId) = 0 := by omega
  have hnone : before.find? (isReplay report.userId report.clientRequestId) = none := by
    rw [List.find?_eq_none]
    exact List.countP_eq_zero.mp hbefore
  rw [List.find?_append, hnone, List.find?_cons_of_pos hself]
  rfl

/-- **One step** tells a repeated submission of its report, or fails. -/
theorem Inv.answers_step {s : State} (h : Inv s) {report : ProblemReport}
    (hreport : report ∈ s.reports) (action : Action) : Answers s report (step s action) := by
  have helim (sid : Id) (f : Session → State)
      (hf : ∀ session, s.sessions sid = some session → Answers s report (f session)) :
      Answers s report ((s.sessions sid).elim s f) := by
    cases hs : s.sessions sid with
    | none => exact .refl hreport rfl
    | some session => exact hf session hs
  cases action with
  | submit sid userId input =>
    rw [ProblemReports.step]
    cases s.sessions sid with
    | none => exact .refl hreport rfl
    | some session => exact .refl hreport rfl
  | lock sid =>
    refine helim sid _ fun session _ => ?_
    unfold ProblemReports.lock
    split <;> exact .refl hreport rfl
  | lookup sid =>
    refine helim sid _ fun session _ => ?_
    unfold ProblemReports.lookup
    split
    · cases hfind : s.reports.find? (isReplay session.userId session.input.clientRequestId) with
      | none => exact .refl hreport rfl
      | some replay =>
        refine answers_finish hreport fun huser hrequest => .inl ?_
        dsimp only at huser hrequest
        rw [huser, hrequest, find_replay (h.unique _ _) hreport] at hfind
        rw [Option.some.inj hfind]
    · exact .refl hreport rfl
  | count sid now =>
    refine helim sid _ fun session hs => ?_
    unfold ProblemReports.count
    split
    · rename_i hphase
      split
      · exact answers_finish hreport (h.looked_replays hreport hs (by rw [hphase]; rfl) _)
      · exact .refl hreport rfl
    · exact .refl hreport rfl
  | insert sid id =>
    refine helim sid _ fun session hs => ?_
    unfold ProblemReports.insert
    cases hphase : session.phase with
    | admitted now =>
      cases associatedConversation s session.userId session.input with
      | none =>
        exact answers_finish hreport (h.looked_replays hreport hs (by rw [hphase]; rfl) _)
      | some conversation => exact .refl hreport rfl
    | _ => exact .refl hreport rfl
  | commit sid =>
    refine helim sid _ fun session hs => ?_
    unfold ProblemReports.commit
    cases hphase : session.phase with
    | inserted row =>
      obtain ⟨-, later, hlater, hall⟩ := @answers_finish _ s report hreport
        sid session (.created row.summary) (h.looked_replays hreport hs (by rw [hphase]; rfl) _)
      exact ⟨List.mem_append_left _ hreport, later, hlater, hall⟩
    | _ => exact .refl hreport rfl
  | fail sid =>
    refine helim sid _ fun session _ => ?_
    exact answers_finish hreport fun _ _ => .inr rfl
  | environment conversations messages => exact .refl hreport rfl

theorem Inv.answers_run {s : State} (h : Inv s) {report : ProblemReport}
    (hreport : report ∈ s.reports) (more : List Action) :
    Answers s report (Machine.run step s more) :=
  Machine.run_stable h (.refl hreport rfl) (fun _ action h => h.next action)
    (fun _ action h hanswers => hanswers.trans (h.answers_step hanswers.1 action)) more

/-- The look-up of a repeated submission answers with the report and writes nothing. -/
theorem Inv.lookup_replay {s : State} (h : Inv s) {report : ProblemReport}
    (hreport : report ∈ s.reports) {sid : Id} {session : Session}
    (hs : s.sessions sid = some session) (hphase : session.phase = .locked)
    (huser : session.userId = report.userId)
    (hrequest : session.input.clientRequestId = report.clientRequestId) :
    step s (.lookup sid) = s.finish sid session (.replayed report.summary) := by
  show (s.sessions sid).elim s (ProblemReports.lookup s sid) = _
  rw [hs, Option.elim_some, ProblemReports.lookup, if_pos hphase, huser, hrequest,
    find_replay (h.unique _ _) hreport]

/-! ## 8. The limit -/

/-- **Problem reports**: however the transactions interleave and whatever the clock says, no
    window of the configured length holds more reports of a user than the limit, a request id has
    at most one report, every report is one `created` answer, and once a request id has a report
    its submissions are told of that report (or fail) and write nothing. -/
theorem problem_reports_limited (actions more : List Action) :
    let s := Machine.run step init actions
    let t := Machine.run step s more
    (∀ userId windowStart,
      inWindow s.reports userId windowStart ≤ PROBLEM_REPORT_SUBMISSION_LIMIT) ∧
    (∀ userId clientRequestId, s.reports.countP (isReplay userId clientRequestId) ≤ 1) ∧
    s.responses.filterMap createdSummary = s.reports.map ProblemReport.summary ∧
    ∀ report ∈ s.reports,
      (report ∈ t.reports ∧ ∃ later, t.responses = s.responses ++ later ∧
        ∀ response ∈ later, Replays report response) ∧
      ∀ sid session, s.sessions sid = some session → session.phase = .locked →
        session.userId = report.userId →
        session.input.clientRequestId = report.clientRequestId →
        step s (.lookup sid) = s.finish sid session (.replayed report.summary) := by
  intro s t
  have h : Inv s := inv_run actions
  refine ⟨h.windows, h.unique, h.created, fun report hreport => ⟨?_, ?_⟩⟩
  · exact h.answers_run hreport more
  · intro sid session hs hphase huser hrequest
    exact h.lookup_replay hreport hs hphase huser hrequest

end Invariant

/-! Two submissions of one request id, the second begun before the first has committed. -/

def sampleInput : ProblemReportInput :=
  ⟨7, none, none, .system_error, "the page stays empty".toList, false, none, none, false⟩

def sampleRun : List Action :=
  [.submit 0 1 sampleInput, .submit 1 1 sampleInput, .lock 0, .lock 1, .lookup 0, .count 0 1000,
    .insert 0 100, .lock 1, .commit 0, .lock 1, .lookup 1]

example :
    let _ : AdvisoryHash := ⟨fun userId => userId⟩
    (Machine.run step init sampleRun).responses =
      [⟨1, 7, .created ⟨100, .new, 1000⟩⟩, ⟨1, 7, .replayed ⟨100, .new, 1000⟩⟩] := by
  rfl

end OpenVac.ProblemReports
