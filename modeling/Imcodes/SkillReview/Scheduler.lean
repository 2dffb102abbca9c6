import Mathlib.Data.Rat.Floor
import Imcodes.Queue.Types

/-!
# When a skill review is scheduled and claimed

The pure decisions of the skill-review scheduler: whether a review of what a session has learned
may be scheduled, whether a scheduled one may run now, and when one that failed is tried again.
-/

namespace Imcodes.SkillReview

open Queue

/-- `SkillReviewSchedulerPolicy`, with the defaults filled in -/
structure SkillReviewSchedulerPolicy where
  minIntervalMs : ℕ := 600000
  dailyCap : ℕ := 6
  maxRetries : ℕ := 3
  backoffBaseMs : ℕ := 60000
  maxConcurrentPerScope : ℕ := 1
  toolIterationThreshold : ℤ := 10
deriving DecidableEq

inductive SkillReviewSchedulePhase
  | sendAck
  | providerDelivery
  | postResponseBackground
  | stop
  | approvalFeedback
  | shutdown
deriving DecidableEq

inductive SkillReviewJobState
  | pending
  | running
  | succeeded
  | retryWait
  | failed
deriving DecidableEq

/-- `makeSkillReviewDailyCountKey`; `toISOString().slice(0, 10)` tells the days apart, and is here
the number of the UTC day. -/
def makeSkillReviewDailyCountKey (scopeKey : String) (now : ℤ) : String × ℤ :=
  (jsTrim scopeKey, now / 86400000)

/-- `makeSkillReviewIdempotencyKey` -/
def makeSkillReviewIdempotencyKey (scopeKey responseId trigger : String) : String :=
  "\u0000".intercalate ["skill-review:v1", jsTrim scopeKey, jsTrim responseId, trigger]

/-- `SkillReviewState` -/
structure SkillReviewState where
  pendingKeys : List String
  lastRunByScope : String → Option ℤ
  dailyCountByScope : String × ℤ → ℕ
  runningCountByScope : String → ℕ

/-- `isSkillReviewTrigger` -/
def isSkillReviewTrigger (trigger : String) : Bool :=
  trigger = "tool_iteration_count" || trigger = "manual_review"

/-- `SkillReviewScheduleInput` -/
structure SkillReviewScheduleInput where
  featureEnabled : Bool
  delivered : Bool
  shuttingDown : Bool
  trigger : String
  scopeKey : String
  responseId : String
  now : ℤ
  state : SkillReviewState
  policy : SkillReviewSchedulerPolicy
  phase : Option SkillReviewSchedulePhase
  /-- `triggerEvidence?.toolIterationCount` -/
  toolIterationCount : Option ℚ

inductive ScheduleSkip
  | disabled
  | notDelivered
  | notBackground
  | shutdown
  | invalidTrigger
  | belowTriggerThreshold
  | coalesced
  | minInterval
  | dailyCap
  | perScopeConcurrency
deriving DecidableEq

inductive SkillReviewScheduleDecision
  | skip (reason : ScheduleSkip)
  | enqueue (idempotencyKey : String) (nextAttemptAt : ℤ) (maxAttempts : ℕ)
deriving DecidableEq

/-- `decideSkillReviewSchedule` -/
def decideSkillReviewSchedule (input : SkillReviewScheduleInput) : SkillReviewScheduleDecision :=
  let policy := input.policy
  if !input.featureEnabled then .skip .disabled
  else if input.phase = some .shutdown then .skip .shutdown
  else if input.phase.any (· ≠ .postResponseBackground) then .skip .notBackground
  else if !input.delivered then .skip .notDelivered
  else if input.shuttingDown then .skip .shutdown
  else if !isSkillReviewTrigger input.trigger then .skip .invalidTrigger
  else if input.trigger = "tool_iteration_count" &&
      max 0 ⌊input.toolIterationCount.getD 0⌋ < policy.toolIterationThreshold then
    .skip .belowTriggerThreshold
  else
    let idempotencyKey :=
      makeSkillReviewIdempotencyKey input.scopeKey input.responseId input.trigger
    if idempotencyKey ∈ input.state.pendingKeys then .skip .coalesced
    else if input.state.runningCountByScope input.scopeKey ≥ policy.maxConcurrentPerScope then
      .skip .perScopeConcurrency
    else
      let lastRun := (input.state.lastRunByScope input.scopeKey).getD 0
      if lastRun > 0 && input.now - lastRun < policy.minIntervalMs then .skip .minInterval
      else
        let dailyCount := input.state.dailyCountByScope
          (makeSkillReviewDailyCountKey input.scopeKey input.now)
        if dailyCount ≥ policy.dailyCap then .skip .dailyCap
        else .enqueue idempotencyKey input.now (policy.maxRetries + 1)

/-- `nextSkillReviewRetryAt` -/
def nextSkillReviewRetryAt (now : ℤ) (attempt : ℕ) (policy : SkillReviewSchedulerPolicy) : ℤ :=
  now + policy.backoffBaseMs * 2 ^ min attempt policy.maxRetries

/-- `StoredSkillReviewJob`, without what only the write looks at -/
structure Job where
  idempotencyKey : String
  scopeKey : String
  nextAttemptAt : ℤ
  maxAttempts : ℕ
  createdAt : ℤ
  state : SkillReviewJobState
  attempt : ℕ
  updatedAt : ℤ
deriving DecidableEq

inductive ClaimSkip
  | disabled
  | shutdown
  | notDue
  | notPending
  | perScopeConcurrency
  | attemptsExhausted
deriving DecidableEq

inductive SkillReviewClaimDecision
  | skip (reason : ClaimSkip)
  | claim (attempt : ℕ) (claimedAt : ℤ)
deriving DecidableEq

/-- `decideSkillReviewClaim` -/
def decideSkillReviewClaim (featureEnabled shuttingDown : Bool) (job : Job) (now : ℤ)
    (runningCountByScope : String → ℕ) (policy : SkillReviewSchedulerPolicy) :
    SkillReviewClaimDecision :=
  if !featureEnabled then .skip .disabled
  else if shuttingDown then .skip .shutdown
  else if job.state ≠ .pending && job.state ≠ .retryWait then .skip .notPending
  else if job.attempt > policy.maxRetries then .skip .attemptsExhausted
  else if job.nextAttemptAt > now then .skip .notDue
  else if runningCountByScope job.scopeKey ≥ policy.maxConcurrentPerScope then
    .skip .perScopeConcurrency
  else .claim job.attempt now

/-! ## What a decision tells -/

/-- The review is pending or waits for another try. -/
def Job.isWaiting (job : Job) : Bool := job.state = .pending || job.state = .retryWait

/-- The review is not over. -/
def Job.isOpen (job : Job) : Bool := job.isWaiting || job.state = .running

variable {input : SkillReviewScheduleInput} {job : Job} {policy : SkillReviewSchedulerPolicy}
  {running : String → ℕ} {now : ℤ}

theorem of_ite_skip {c : Prop} [Decidable c] {reason : ScheduleSkip}
    {decision : SkillReviewScheduleDecision} {idempotencyKey : String} {nextAttemptAt : ℤ}
    {maxAttempts : ℕ} (h : (if c then .skip reason else decision) =
      SkillReviewScheduleDecision.enqueue idempotencyKey nextAttemptAt maxAttempts) :
    ¬c ∧ decision = .enqueue idempotencyKey nextAttemptAt maxAttempts := by
  split at h
  · cases h
  · rename_i hc
    exact ⟨hc, h⟩

/-- A review is only scheduled when the limits allow one to run now. -/
theorem allows_of_enqueue {idempotencyKey : String} {nextAttemptAt : ℤ} {maxAttempts : ℕ}
    (h : decideSkillReviewSchedule input = .enqueue idempotencyKey nextAttemptAt maxAttempts) :
    (∀ lastRun, input.state.lastRunByScope input.scopeKey = some lastRun → 0 < lastRun →
      lastRun + input.policy.minIntervalMs ≤ input.now) ∧
    input.state.dailyCountByScope (makeSkillReviewDailyCountKey input.scopeKey input.now) <
      input.policy.dailyCap := by
  unfold decideSkillReviewSchedule at h
  dsimp only at h
  obtain ⟨-, h⟩ := of_ite_skip h
  obtain ⟨-, h⟩ := of_ite_skip h
  obtain ⟨-, h⟩ := of_ite_skip h
  obtain ⟨-, h⟩ := of_ite_skip h
  obtain ⟨-, h⟩ := of_ite_skip h
  obtain ⟨-, h⟩ := of_ite_skip h
  obtain ⟨-, h⟩ := of_ite_skip h
  obtain ⟨-, h⟩ := of_ite_skip h
  obtain ⟨-, h⟩ := of_ite_skip h
  obtain ⟨hinterval, h⟩ := of_ite_skip h
  obtain ⟨hdaily, -⟩ := of_ite_skip h
  refine ⟨fun lastRun hlast hpos => ?_, not_le.1 hdaily⟩
  rw [hlast, Option.getD_some, Bool.and_eq_true, not_and, decide_eq_true_eq,
    decide_eq_true_eq] at hinterval
  have hge := hinterval hpos
  omega

/-- What is claimed waits, is due, and has room in its scope. -/
theorem claim_iff {featureEnabled shuttingDown : Bool} :
    (∃ attempt claimedAt,
      decideSkillReviewClaim featureEnabled shuttingDown job now running policy =
        .claim attempt claimedAt) ↔
      featureEnabled = true ∧ shuttingDown = false ∧ job.isWaiting = true ∧
        job.attempt ≤ policy.maxRetries ∧ job.nextAttemptAt ≤ now ∧
        running job.scopeKey < policy.maxConcurrentPerScope := by
  unfold decideSkillReviewClaim Job.isWaiting
  constructor
  · rintro ⟨attempt, claimedAt, h⟩
    iterate 6
      split at h
      · cases h
    simp_all
    tauto
  · rintro ⟨henabled, hrunning, hwaiting, hattempt, hdue, hroom⟩
    refine ⟨job.attempt, now, ?_⟩
    rw [Bool.or_eq_true, decide_eq_true_eq, decide_eq_true_eq] at hwaiting
    rw [henabled, hrunning, if_neg (by decide), if_neg (by decide), if_neg,
      if_neg (not_lt.2 hattempt), if_neg (not_lt.2 hdue), if_neg (not_le.2 hroom)]
    rcases hwaiting with h | h <;> simp [h]

end Imcodes.SkillReview
