/-
  File:      OpenVac/Worker/PoisonJobs.lean
  Subject:   How often the jobs of the three work queues are claimed, when workers may die silently
             after any claim: parsing of attachments, deletion of objects, background tasks of
             the knowledge base.

  * The limit of attempts is enforced where a worker reports a failure. The claim of a job whose
    lease is over asks for no attempt left.
  * `poison_jobs_bounded` -- as long as no claim takes over a job at its limit, and no abort
    resets a deletion that was claimed, the claims are bounded.
  * `poison_jobs_reclaimed` -- otherwise not, in any of the queues.
-/
import OpenVac.ChatStorage.Attempts
import OpenVac.KnowledgeBase.Attempts

namespace OpenVac.Worker

open ChatStorage (Storage greatest parseClaims parseDeferral parsePhase reclaimsSpentParse
  deletionClaims deletionPhase reclaimsSpentDeletion ObjectKey)
open KnowledgeBase (Base taskClaims taskDeferral taskPhase reclaimsSpentTask)
open JsString JsUrl

/-- **Poison jobs are bounded**: `maxAttempts` claims and one more for each deferral; a job that has
    had them all does not wait in the queue any more. -/
theorem poison_jobs_bounded [Sha256] [LocaleOrder] [UrlParser] :
    -- attachment parsing
    (∀ (actions : List ChatStorage.Action) (id : Nat),
      Machine.Along (Storage.step greatest)
        (fun s action => reclaimsSpentParse id s action = false) .initial actions →
      let deferrals := Machine.count (Storage.step greatest) (parseDeferral id) .initial actions
      parseClaims id (Storage.after greatest actions) ≤ 3 + deferrals ∧
      ∀ a ∈ (Storage.after greatest actions).tables.attachments, a.id = id →
        a.parse.maxAttempts = 3 ∧
        (parseClaims id (Storage.after greatest actions) = 3 + deferrals →
          parsePhase a.parse.status ≠ .waiting)) ∧
    -- deletion of objects, which no worker defers
    (∀ (actions : List ChatStorage.Action) (objectKey : ObjectKey),
      Machine.Along (Storage.step greatest)
        (fun s action => reclaimsSpentDeletion objectKey s action = false) .initial actions →
      deletionClaims objectKey (Storage.after greatest actions) ≤ 5 ∧
      ∀ job ∈ (Storage.after greatest actions).tables.jobs, job.objectKey = objectKey →
        job.maxAttempts = 5 ∧
        (deletionClaims objectKey (Storage.after greatest actions) = 5 →
          deletionPhase job.status ≠ .waiting)) ∧
    -- background tasks
    (∀ (actions : List KnowledgeBase.Action) (id : Nat),
      Machine.Along Base.step (fun s a => reclaimsSpentTask id s a = false) .initial actions →
      let deferrals := Machine.count Base.step (taskDeferral id) .initial actions
      taskClaims id (Base.after actions) ≤ 3 + deferrals ∧
      ∀ t ∈ (Base.after actions).db.tasks, t.id = id →
        t.maxAttempts = 3 ∧
        (taskClaims id (Base.after actions) = 3 + deferrals → taskPhase t.status ≠ .waiting)) := by
  refine ⟨fun actions id hrun => ?_, fun actions objectKey hrun => ?_, fun actions id hrun => ?_⟩
  · have h := ChatStorage.parse_books actions id hrun
    refine ⟨h.bound, fun a ha hid => ?_⟩
    obtain ⟨hmax, hbooks⟩ := h.rows a ha hid
    exact ⟨hmax, hbooks.spent⟩
  · have h := ChatStorage.deletion_books actions objectKey hrun
    refine ⟨h.bound, fun job hjob hkey => ?_⟩
    obtain ⟨hmax, hbooks⟩ := h.rows job hjob hkey
    exact ⟨hmax, hbooks.spent⟩
  · have h := KnowledgeBase.task_books actions id hrun
    refine ⟨h.bound, fun t ht hid => ?_⟩
    obtain ⟨hmax, hbooks⟩ := h.rows t ht hid
    exact ⟨hmax, hbooks.spent⟩

/-- Workers that claim a job and are silent until their lease is over. -/
def silentClaims {α : Type} (claim : Nat → α) (tick : α) : Nat → List α
  | 0 => []
  | n + 1 => [claim n, tick] ++ silentClaims claim tick n

/-- A document that has been uploaded; its parse job has been claimed `claims` times. -/
def parsedBy (claims : Nat) : List ChatStorage.Action :=
  [.addConversation 1, .initiate 2 1 .document "a" "text/plain" 10 0, .beginCompletion 2,
    .completeVerified 2 10 none] ++
  silentClaims (fun n => .claimAttachmentParse 2 "w" (n + 3)) (.tick 900001) claims

def deletedKey : ObjectKey := .attachment 1 2 "a"

/-- An upload that its user has deleted. -/
def deletedBy (claims : Nat) : List ChatStorage.Action :=
  [.addConversation 1, .initiate 2 1 .document "a" "text/plain" 10 0, .deleteUnbound 2,
    .tick 960000] ++
  silentClaims (fun n => .claimDeletion deletedKey "w" (n + 3)) (.tick 900001) claims

/-- An original that waits for its text. -/
def readBy (claims : Nat) : List KnowledgeBase.Action :=
  [.initiateUpload ⟨none, [], 7⟩, .completeUpload 1 7] ++
  silentClaims (fun _ => .claimNext 2 []) (.tick 900001) claims

theorem poison_jobs_bounded_spent :
    let _ : Sha256 := ⟨fun text => text⟩
    let _ : LocaleOrder := ⟨fun _ _ => true⟩
    let _ : UrlParser := ⟨fun _ => none⟩
    (parseClaims 2 (Storage.after greatest (parsedBy 3)) = 3 ∧
      parseClaims 2 (Storage.after greatest (parsedBy 3)) ≤
        3 + Machine.count (Storage.step greatest) (parseDeferral 2) .initial (parsedBy 3)) ∧
    (deletionClaims deletedKey (Storage.after greatest (deletedBy 5)) = 5 ∧
      deletionClaims deletedKey (Storage.after greatest (deletedBy 5)) ≤ 5) ∧
    taskClaims 2 (Base.after (readBy 3)) = 3 ∧
      taskClaims 2 (Base.after (readBy 3)) ≤
        3 + Machine.count Base.step (taskDeferral 2) .initial (readBy 3) := by
  intro _ _ _
  obtain ⟨hparse, hdeletion, htask⟩ := poison_jobs_bounded
  exact ⟨⟨by decide +kernel, (hparse (parsedBy 3) 2 (by decide +kernel)).1⟩,
    ⟨by decide +kernel, (hdeletion (deletedBy 5) deletedKey (by decide +kernel)).1⟩,
    by decide +kernel, (htask (readBy 3) 2 (by decide +kernel)).1⟩

/-- **A job whose workers die is claimed for ever**: the claim of an expired lease does not look at
    the attempts. -/
theorem poison_jobs_reclaimed :
    (¬ ∀ [Sha256] (actions : List ChatStorage.Action) (id : Nat),
      parseClaims id (Storage.after greatest actions) ≤
        3 + Machine.count (Storage.step greatest) (parseDeferral id) .initial actions) ∧
    (¬ ∀ [Sha256] (actions : List ChatStorage.Action) (objectKey : ObjectKey),
      deletionClaims objectKey (Storage.after greatest actions) ≤ 5) ∧
    ¬ ∀ [Sha256] [LocaleOrder] [UrlParser] (actions : List KnowledgeBase.Action) (id : Nat),
      taskClaims id (Base.after actions) ≤
        3 + Machine.count Base.step (taskDeferral id) .initial actions := by
  let : Sha256 := ⟨fun text => text⟩
  let : LocaleOrder := ⟨fun _ _ => true⟩
  let : UrlParser := ⟨fun _ => none⟩
  refine ⟨fun h => ?_, fun h => ?_, fun h => ?_⟩
  · exact absurd (h (parsedBy 4) 2) (by decide +kernel)
  · exact absurd (h (deletedBy 6) deletedKey) (by decide +kernel)
  · exact absurd (h (readBy 4) 2) (by decide +kernel)

end OpenVac.Worker
