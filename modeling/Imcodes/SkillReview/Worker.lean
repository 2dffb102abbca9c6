import Imcodes.Collections.Modify
import Imcodes.Machine.Runs
import Imcodes.SkillReview.Scheduler

/-!
# The local skill-review worker

`LocalSkillReviewWorker` keeps the reviews that were enqueued and runs those that are due in a
*pump*, a loop over all of them which is suspended while a skill is written.  Several pumps can be
suspended at once; each has read the clock and the feature flag when it began.  The table of
reviews is a map from which nothing is removed, so a pump is at a place in a list that grows at
its end.
-/

namespace Imcodes.SkillReview

/-- A pump that is suspended. -/
structure Pump where
  now : ℤ
  enabled : Bool
  /-- The review that is examined next. -/
  next : ℕ
  nextDelay : Option ℤ
  /-- The review that is being written; none when the write is over and the loop goes on. -/
  running : Option ℕ
deriving DecidableEq

/-- `LocalSkillReviewWorker`, with the clock and the feature flag that it reads. -/
structure Worker where
  policy : SkillReviewSchedulerPolicy
  clock : ℤ
  featureEnabled : Bool := true
  jobs : List Job := []
  lastRunByScope : String → Option ℤ := fun _ => none
  dailyCountByScope : String × ℤ → ℕ := fun _ => 0
  runningCountByScope : String → ℕ := fun _ => 0
  /-- When the timer fires. -/
  timer : Option ℤ := none
  shuttingDown : Bool := false
  pumps : List Pump := []
  /-- The scopes of the reviews that were completed, and when. -/
  completed : List (String × ℤ) := []

/-- What is enqueued: `MaterializationSkillReviewJob` -/
structure NewJob where
  idempotencyKey : String
  scopeKey : String
  nextAttemptAt : ℤ
  maxAttempts : ℕ
  createdAt : ℤ
deriving DecidableEq

/-- A review that was enqueued, as it is stored. -/
def NewJob.stored (job : NewJob) : Job where
  idempotencyKey := job.idempotencyKey
  scopeKey := job.scopeKey
  nextAttemptAt := job.nextAttemptAt
  maxAttempts := job.maxAttempts
  createdAt := job.createdAt
  state := .pending
  attempt := 0
  updatedAt := job.createdAt

/-- What happens to a worker. -/
inductive WorkerEvent
  | tick (ms : ℕ)
  | setEnabled (enabled : Bool)
  | stop
  | enqueue (job : NewJob)
  /-- The timer fires. -/
  | fire
  /-- The write of a pump succeeds or fails. -/
  | settle (pump : ℕ) (succeeds : Bool)
  /-- A pump goes on after a write. -/
  | resume (pump : ℕ)
deriving DecidableEq

namespace Worker

/-- `getState` -/
def getState (worker : Worker) (scopeKey : String) : SkillReviewState where
  pendingKeys := (worker.jobs.filter fun job => job.scopeKey = scopeKey && job.isOpen).map
    Job.idempotencyKey
  lastRunByScope := worker.lastRunByScope
  dailyCountByScope := worker.dailyCountByScope
  runningCountByScope := worker.runningCountByScope

/-- `schedulePump` -/
def schedulePump (worker : Worker) (delayMs : ℤ) : Worker :=
  if worker.timer.isSome || worker.shuttingDown then worker
  else { worker with timer := some (worker.clock + delayMs) }

/-- A review that is not known is stored. -/
def addJob (worker : Worker) (job : NewJob) : Worker :=
  if worker.jobs.any (·.idempotencyKey = job.idempotencyKey) then worker
  else { worker with jobs := worker.jobs ++ [job.stored] }

/-- `enqueue` -/
def enqueue (worker : Worker) (job : NewJob) : Worker := (worker.addJob job).schedulePump 0

/-- A pump may run a review now. -/
def claims (worker : Worker) (pump : Pump) (job : Job) : Bool :=
  match decideSkillReviewClaim pump.enabled worker.shuttingDown job pump.now
      worker.runningCountByScope worker.policy with
  | .claim _ _ => true
  | .skip _ => false

/-- The delay that a pump notes when it passes over a review. -/
def noteDelay (pump : Pump) (job : Job) (nextDelay : Option ℤ) : Option ℤ :=
  if job.state = .retryWait then
    let delay := max 0 (job.nextAttemptAt - pump.now)
    some ((nextDelay.map fun nextDelay => min nextDelay delay).getD delay)
  else nextDelay

/-- The loop of `pump` up to the next review that it claims, if there is one. -/
def examine (worker : Worker) (pump : Pump) : List Job → ℕ → Option ℤ → Option ℕ × Option ℤ
  | [], _, nextDelay => (none, nextDelay)
  | job :: jobs, k, nextDelay =>
    if worker.claims pump job then (some k, nextDelay)
    else examine worker pump jobs (k + 1) (noteDelay pump job nextDelay)

/-- What `runClaimedJob` makes of a review before the write. -/
def startJob (now : ℤ) (job : Job) : Job :=
  { job with state := .running, attempt := job.attempt + 1, updatedAt := now }

/-- `pump` goes on: it claims a review, or comes to its end. -/
def goOn (worker : Worker) (i : ℕ) (pump : Pump) : Worker :=
  match worker.examine pump (worker.jobs.drop pump.next) pump.next pump.nextDelay with
  | (some k, nextDelay) =>
      let scopeKey := (worker.jobs[k]?.map Job.scopeKey).getD ""
      { worker with
        jobs := worker.jobs.modify k (startJob pump.now)
        runningCountByScope := Function.update worker.runningCountByScope scopeKey
          (worker.runningCountByScope scopeKey + 1)
        pumps := worker.pumps.set i
          { pump with next := k + 1, nextDelay := nextDelay, running := some k } }
  | (none, nextDelay) =>
      let worker := { worker with pumps := worker.pumps.eraseIdx i }
      match nextDelay with
      | some nextDelay => worker.schedulePump nextDelay
      | none => worker

/-- The rest of `runClaimedJob`, after a write that succeeded. -/
def succeed (worker : Worker) (k : ℕ) (job : Job) : Worker :=
  let dailyCountKey := makeSkillReviewDailyCountKey job.scopeKey worker.clock
  { worker with
    jobs := worker.jobs.modify k fun job =>
      { job with state := .succeeded, updatedAt := worker.clock }
    lastRunByScope := Function.update worker.lastRunByScope job.scopeKey (some worker.clock)
    dailyCountByScope := Function.update worker.dailyCountByScope dailyCountKey
      (worker.dailyCountByScope dailyCountKey + 1)
    completed := worker.completed ++ [(job.scopeKey, worker.clock)] }

/-- The rest of `runClaimedJob`, after a write that failed. -/
def fail (worker : Worker) (k : ℕ) (job : Job) : Worker :=
  if job.attempt ≥ job.maxAttempts then
    { worker with
      jobs := worker.jobs.modify k fun job =>
        { job with state := .failed, updatedAt := worker.clock } }
  else
    let nextAttemptAt := nextSkillReviewRetryAt worker.clock job.attempt worker.policy
    let worker := { worker with
      jobs := worker.jobs.modify k fun job =>
        { job with
          state := .retryWait, nextAttemptAt := nextAttemptAt, updatedAt := worker.clock } }
    worker.schedulePump (max 0 (nextAttemptAt - worker.clock))

/-- The `finally` of `runClaimedJob`, and its promise settles. -/
def release (worker : Worker) (i : ℕ) (scopeKey : String) : Worker :=
  { worker with
    runningCountByScope := Function.update worker.runningCountByScope scopeKey
      (worker.runningCountByScope scopeKey - 1)
    pumps := worker.pumps.modify i fun pump => { pump with running := none } }

/-- One event of a worker. -/
def step (worker : Worker) : WorkerEvent → Worker
  | .tick ms => { worker with clock := worker.clock + ms }
  | .setEnabled enabled => { worker with featureEnabled := enabled }
  | .stop => { worker with shuttingDown := true, timer := none }
  | .enqueue job => worker.enqueue job
  | .fire =>
      if worker.timer.any (· ≤ worker.clock) then
        let pump := ⟨worker.clock, worker.featureEnabled, 0, none, none⟩
        goOn { worker with timer := none, pumps := worker.pumps ++ [pump] } worker.pumps.length pump
      else worker
  | .settle i succeeds =>
      match worker.pumps[i]?.bind Pump.running with
      | some k =>
          match worker.jobs[k]? with
          | some job =>
              (if succeeds then worker.succeed k job else worker.fail k job).release i job.scopeKey
          | none => worker
      | none => worker
  | .resume i =>
      match worker.pumps[i]? with
      | some pump => if pump.running.isNone then worker.goOn i pump else worker
      | none => worker

end Worker

/-! ## One turn of a pump -/

open Modify

namespace Worker

variable {worker : Worker} {pump : Pump} {jobs : List Job} {job : Job} {k i : ℕ}
  {nextDelay : Option ℤ} {event : WorkerEvent}

theorem claims_iff : worker.claims pump job = true ↔
    pump.enabled = true ∧ worker.shuttingDown = false ∧ job.isWaiting = true ∧
      job.attempt ≤ worker.policy.maxRetries ∧ job.nextAttemptAt ≤ pump.now ∧
      worker.runningCountByScope job.scopeKey < worker.policy.maxConcurrentPerScope := by
  rw [← claim_iff, claims]
  cases decideSkillReviewClaim pump.enabled worker.shuttingDown job pump.now
      worker.runningCountByScope worker.policy with
  | skip reason => simp
  | claim attempt claimedAt => simp

/-- The delays that a pump notes on its way. -/
def notes (pump : Pump) (jobs : List Job) (nextDelay : Option ℤ) : Option ℤ :=
  jobs.foldl (fun nextDelay job => noteDelay pump job nextDelay) nextDelay

/-- The loop stops at the first review that it may claim. -/
theorem examine_spec :
    (∃ before after job, jobs = before ++ job :: after ∧
      (∀ passed ∈ before, worker.claims pump passed = false) ∧ worker.claims pump job = true ∧
      worker.examine pump jobs k nextDelay =
        (some (k + before.length), notes pump before nextDelay)) ∨
    (∀ passed ∈ jobs, worker.claims pump passed = false) ∧
      worker.examine pump jobs k nextDelay = (none, notes pump jobs nextDelay) := by
  induction jobs generalizing k nextDelay with
  | nil => exact Or.inr ⟨nofun, rfl⟩
  | cons first jobs ih =>
    rw [examine]
    cases hclaims : worker.claims pump first with
    | true => exact Or.inl ⟨[], jobs, first, rfl, nofun, hclaims, rfl⟩
    | false =>
      rw [if_neg (by decide)]
      rcases @ih (k + 1) (noteDelay pump first nextDelay) with
        ⟨before, after, job, hjobs, hpassed, hclaimed, heq⟩ | ⟨hpassed, heq⟩
      · refine Or.inl ⟨first :: before, after, job, by rw [hjobs]; rfl, ?_, hclaimed, ?_⟩
        · exact List.forall_mem_cons.2 ⟨hclaims, hpassed⟩
        · rw [heq, List.length_cons, Nat.add_assoc, Nat.add_comm 1]
          rfl
      · exact Or.inr ⟨List.forall_mem_cons.2 ⟨hclaims, hpassed⟩, heq⟩

/-- What a pump that claims a review leaves. -/
def claimed (worker : Worker) (i : ℕ) (pump : Pump) (k : ℕ) (job : Job) (nextDelay : Option ℤ) :
    Worker :=
  { worker with
    jobs := worker.jobs.modify k (startJob pump.now)
    runningCountByScope := Function.update worker.runningCountByScope job.scopeKey
      (worker.runningCountByScope job.scopeKey + 1)
    pumps := worker.pumps.set i
      { pump with next := k + 1, nextDelay := nextDelay, running := some k } }

/-- What a pump that comes to its end leaves. -/
def ended (worker : Worker) (i : ℕ) (nextDelay : Option ℤ) : Worker :=
  match nextDelay with
  | some nextDelay => { worker with pumps := worker.pumps.eraseIdx i }.schedulePump nextDelay
  | none => { worker with pumps := worker.pumps.eraseIdx i }

/-- A pump goes on to the first review that it may claim, or to its end. -/
theorem goOn_cases (worker : Worker) (i : ℕ) (pump : Pump) :
    (∃ k job nextDelay, pump.next ≤ k ∧ worker.jobs[k]? = some job ∧
      worker.claims pump job = true ∧
      (∀ m passed, pump.next ≤ m → m < k → worker.jobs[m]? = some passed →
        worker.claims pump passed = false) ∧
      worker.goOn i pump = worker.claimed i pump k job nextDelay) ∨
    (∀ m passed, pump.next ≤ m → worker.jobs[m]? = some passed →
      worker.claims pump passed = false) ∧
      worker.goOn i pump =
        worker.ended i (notes pump (worker.jobs.drop pump.next) pump.nextDelay) := by
  unfold goOn
  rcases @examine_spec worker pump (worker.jobs.drop pump.next) pump.next pump.nextDelay with
    ⟨before, after, job, hjobs, hpassed, hclaims, heq⟩ | ⟨hpassed, heq⟩
  · have hget : ∀ m, worker.jobs[pump.next + m]? = (before ++ job :: after)[m]? := fun m => by
      rw [← hjobs, List.getElem?_drop]
    have hjob : worker.jobs[pump.next + before.length]? = some job := by
      rw [hget, List.getElem?_append_right le_rfl, Nat.sub_self]
      rfl
    refine Or.inl ⟨pump.next + before.length, job, notes pump before pump.nextDelay,
      Nat.le_add_right _ _, hjob, hclaims, fun m passed hle hlt hm => ?_, ?_⟩
    · obtain ⟨m, rfl⟩ := Nat.exists_eq_add_of_le hle
      have hlt : m < before.length := by omega
      rw [hget, List.getElem?_append_left hlt] at hm
      exact hpassed passed (List.mem_of_getElem? hm)
    · rw [heq]
      dsimp only
      rw [hjob]
      rfl
  · refine Or.inr ⟨fun m passed hle hm => hpassed passed ?_, ?_⟩
    · obtain ⟨m, rfl⟩ := Nat.exists_eq_add_of_le hle
      rw [← List.getElem?_drop] at hm
      exact List.mem_of_getElem? hm
    · rw [heq]
      unfold ended
      cases notes pump (worker.jobs.drop pump.next) pump.nextDelay with
      | none => rfl
      | some nextDelay => rfl

/-- Arming the timer changes nothing else. -/
theorem schedulePump_eq (worker : Worker) (delayMs : ℤ) :
    ∃ timer, worker.schedulePump delayMs = { worker with timer := timer } := by
  unfold schedulePump
  split
  · exact ⟨worker.timer, rfl⟩
  · exact ⟨_, rfl⟩

/-- A review is stored unless its key is known. -/
theorem addJob_cases (worker : Worker) (new : NewJob) :
    worker.addJob new = worker ∨
    (∀ job ∈ worker.jobs, job.idempotencyKey ≠ new.idempotencyKey) ∧
      worker.addJob new = { worker with jobs := worker.jobs ++ [new.stored] } := by
  unfold addJob
  split
  · exact Or.inl rfl
  · rename_i hknown
    refine Or.inr ⟨fun job hjob hkey => hknown ?_, rfl⟩
    exact List.any_eq_true.2 ⟨job, hjob, decide_eq_true hkey⟩

theorem ended_eq (worker : Worker) (i : ℕ) (nextDelay : Option ℤ) :
    ∃ timer, worker.ended i nextDelay =
      { worker with pumps := worker.pumps.eraseIdx i, timer := timer } := by
  unfold ended
  cases nextDelay with
  | none => exact ⟨worker.timer, rfl⟩
  | some nextDelay =>
    obtain ⟨timer, heq⟩ :=
      schedulePump_eq { worker with pumps := worker.pumps.eraseIdx i } nextDelay
    exact ⟨timer, heq⟩

/-- What the end of a write leaves of a worker, but for its timer and what it has counted. -/
theorem settle_eq (worker : Worker) (k : ℕ) (job : Job) (succeeds : Bool) :
    ∃ f timer lastRun dailyCount completed,
      (if succeeds then worker.succeed k job else worker.fail k job) =
        { worker with
          jobs := worker.jobs.modify k f
          timer := timer
          lastRunByScope := lastRun
          dailyCountByScope := dailyCount
          completed := completed } ∧
      (∀ job : Job, (f job).scopeKey = job.scopeKey) ∧ ∀ job : Job, (f job).state ≠ .running := by
  cases succeeds with
  | true => exact ⟨_, worker.timer, _, _, _, rfl, fun _ => rfl, nofun⟩
  | false =>
    rw [if_neg (by decide), Worker.fail]
    split
    · exact ⟨_, worker.timer, worker.lastRunByScope, worker.dailyCountByScope,
        worker.completed, rfl, fun _ => rfl, nofun⟩
    · obtain ⟨timer, heq⟩ := schedulePump_eq
        { worker with
          jobs := worker.jobs.modify k fun other =>
            { other with
              state := .retryWait
              nextAttemptAt := nextSkillReviewRetryAt worker.clock job.attempt worker.policy
              updatedAt := worker.clock } }
        (max 0 (nextSkillReviewRetryAt worker.clock job.attempt worker.policy - worker.clock))
      exact ⟨_, timer, worker.lastRunByScope, worker.dailyCountByScope, worker.completed, heq,
        fun _ => rfl, nofun⟩

theorem policy_goOn : (worker.goOn i pump).policy = worker.policy := by
  rcases goOn_cases worker i pump with ⟨k, job, nextDelay, -, -, -, -, heq⟩ | ⟨-, heq⟩
  · rw [heq]
    rfl
  · obtain ⟨timer, hended⟩ :=
      ended_eq worker i (notes pump (worker.jobs.drop pump.next) pump.nextDelay)
    rw [heq, hended]

/-- The policy is given when the worker is made. -/
theorem policy_step : (worker.step event).policy = worker.policy := by
  cases event with
  | tick ms => rfl
  | setEnabled enabled => rfl
  | stop => rfl
  | enqueue job =>
    obtain ⟨timer, heq⟩ := schedulePump_eq (worker.addJob job) 0
    dsimp only [step, enqueue]
    rw [heq]
    rcases addJob_cases worker job with hadd | ⟨-, hadd⟩
    · rw [hadd]
    · rw [hadd]
  | fire =>
    dsimp only [step]
    split
    · exact policy_goOn
    · rfl
  | settle i succeeds =>
    dsimp only [step]
    split
    · rename_i k _
      split
      · rename_i job _
        obtain ⟨f, timer, lastRun, dailyCount, completed, heq, -, -⟩ :=
          settle_eq worker k job succeeds
        rw [heq]
        rfl
      · rfl
    · rfl
  | resume i =>
    dsimp only [step]
    split
    · split
      · exact policy_goOn
      · rfl
    · rfl

/-! ## What a worker runs -/

/-- The pumps that wait for a write are those of the reviews that run, and there are no more of
these in a scope than counted. -/
structure Consistent (worker : Worker) : Prop where
  running : ∀ pump ∈ worker.pumps, ∀ k, pump.running = some k →
    ∃ job, worker.jobs[k]? = some job ∧ job.state = .running
  disjoint : worker.pumps.Pairwise fun pump other =>
    ∀ k, pump.running = some k → other.running ≠ some k
  count : ∀ scopeKey, worker.jobs.countP (fun job => job.scopeKey = scopeKey &&
    job.state = .running) = worker.runningCountByScope scopeKey
  room : ∀ scopeKey, worker.runningCountByScope scopeKey ≤ worker.policy.maxConcurrentPerScope

/-- Only the reviews, their count and the pumps matter. -/
theorem Consistent.congr {worker' : Worker} (h : Consistent worker)
    (hjobs : worker'.jobs = worker.jobs) (hpumps : worker'.pumps.Sublist worker.pumps)
    (hcount : worker'.runningCountByScope = worker.runningCountByScope)
    (hpolicy : worker'.policy = worker.policy) : Consistent worker' := by
  refine ⟨?_, h.disjoint.sublist hpumps, ?_, ?_⟩
  · rw [hjobs]
    exact fun pump hpump => h.running pump (hpumps.subset hpump)
  · rw [hjobs, hcount]
    exact h.count
  · rw [hcount, hpolicy]
    exact h.room

theorem Consistent.claimed (h : Consistent worker) (hi : worker.pumps[i]? = some pump)
    (hk : worker.jobs[k]? = some job) (hclaims : worker.claims pump job = true) :
    Consistent (worker.claimed i pump k job nextDelay) := by
  obtain ⟨-, -, hwaiting, -, -, hroom⟩ := claims_iff.1 hclaims
  have hidle : job.state ≠ .running := by
    rintro heq
    rw [Job.isWaiting, heq] at hwaiting
    cases hwaiting
  have hother : ∀ other ∈ worker.pumps, other.running ≠ some k := by
    intro other hother heq
    obtain ⟨job', hk', hrunning⟩ := h.running other hother k heq
    rw [hk] at hk'
    obtain rfl := Option.some.inj hk'
    exact hidle hrunning
  constructor
  · intro other hmem m hm
    dsimp only [Worker.claimed] at hmem ⊢
    rw [List.set_eq_modify] at hmem
    rcases mem_modify hmem with hmem | ⟨-, -, rfl⟩
    · have hne : k ≠ m := by
        rintro rfl
        exact hother other hmem hm
      rw [getElem?_modify_of_ne hne]
      exact h.running other hmem m hm
    · obtain rfl := Option.some.inj hm
      exact ⟨_, getElem?_modify_self hk, rfl⟩
  · dsimp only [Worker.claimed]
    rw [List.set_eq_modify]
    refine pairwise_modify h.disjoint hi (fun other hmem _ m hm => ?_) fun other hmem _ m hm heq => ?_
    · obtain rfl := Option.some.inj hm
      exact hother other hmem
    · obtain rfl := Option.some.inj heq
      exact hother other hmem hm
  · intro scopeKey
    have hcount := countP_modify (f := startJob pump.now)
      (p := fun job => job.scopeKey = scopeKey && job.state = .running) hk
    rw [h.count] at hcount
    dsimp only [Worker.claimed, startJob] at hcount ⊢
    by_cases hscope : job.scopeKey = scopeKey
    · subst hscope
      simp only [hidle, decide_false, decide_true, Bool.and_false, Bool.false_eq_true, if_false,
        Bool.and_true, if_true, Function.update_self] at hcount ⊢
      exact hcount
    · simp only [hscope, decide_false, Bool.false_and, Bool.false_eq_true, if_false,
        Nat.add_zero] at hcount
      rw [Function.update_of_ne (Ne.symm hscope), ← hcount]
  · intro scopeKey
    dsimp only [Worker.claimed]
    by_cases hscope : scopeKey = job.scopeKey
    · subst hscope
      rw [Function.update_self]
      exact hroom
    · rw [Function.update_of_ne hscope]
      exact h.room scopeKey

theorem Consistent.goOn (h : Consistent worker) (hi : worker.pumps[i]? = some pump) :
    Consistent (worker.goOn i pump) := by
  rcases goOn_cases worker i pump with ⟨k, job, nextDelay, -, hk, hclaims, -, heq⟩ | ⟨-, heq⟩
  · rw [heq]
    exact h.claimed hi hk hclaims
  · obtain ⟨timer, hended⟩ :=
      ended_eq worker i (notes pump (worker.jobs.drop pump.next) pump.nextDelay)
    rw [heq, hended]
    exact h.congr rfl (List.eraseIdx_sublist _ _) rfl rfl

/-- A write is over: the review does not run any more. -/
theorem Consistent.release {worker' : Worker} {f : Job → Job} (h : Consistent worker)
    (hi : worker.pumps[i]? = some pump) (hrunning : pump.running = some k)
    (hk : worker.jobs[k]? = some job) (hjobs : worker'.jobs = worker.jobs.modify k f)
    (hpumps : worker'.pumps = worker.pumps)
    (hcount : worker'.runningCountByScope = worker.runningCountByScope)
    (hpolicy : worker'.policy = worker.policy) (hscope : (f job).scopeKey = job.scopeKey)
    (hstate : (f job).state ≠ .running) : Consistent (worker'.release i job.scopeKey) := by
  obtain ⟨job', hk', hjob⟩ := h.running pump (List.mem_of_getElem? hi) k hrunning
  rw [hk] at hk'
  obtain rfl := Option.some.inj hk'
  have hfree : ∀ other ∈ worker.pumps.modify i fun pump => { pump with running := none },
      other.running ≠ some k := by
    intro other hmem
    obtain ⟨j, hj⟩ := List.mem_iff_getElem?.1 hmem
    by_cases hij : i = j
    · subst hij
      rw [getElem?_modify_self hi] at hj
      obtain rfl := Option.some.inj hj
      nofun
    · rw [getElem?_modify_of_ne hij] at hj
      refine rel_of_pairwise h.disjoint (fun p q hpq m hq hp => ?_) hi hj hij k hrunning
      exact hpq m hp hq
  constructor
  · intro other hmem m hm
    dsimp only [Worker.release] at hmem ⊢
    rw [hpumps] at hmem
    have hne : k ≠ m := by
      rintro rfl
      exact hfree other hmem hm
    rw [hjobs, getElem?_modify_of_ne hne]
    rcases mem_modify hmem with hmem | ⟨old, -, rfl⟩
    · exact h.running other hmem m hm
    · exact absurd hm (by nofun)
  · dsimp only [Worker.release]
    rw [hpumps]
    refine pairwise_modify h.disjoint hi (fun other _ _ m hm => ?_) fun other _ _ m _ => ?_
    · cases hm
    · nofun
  · intro scopeKey
    have hmodify := countP_modify (f := f)
      (p := fun job => job.scopeKey = scopeKey && job.state = .running) hk
    rw [h.count, hscope] at hmodify
    dsimp only [Worker.release]
    rw [hjobs, hcount]
    by_cases heq : job.scopeKey = scopeKey
    · subst heq
      simp only [hjob, hstate, decide_false, decide_true, Bool.and_false, Bool.false_eq_true,
        if_false, Bool.and_true, if_true, Nat.add_zero] at hmodify
      rw [Function.update_self, ← hmodify, Nat.add_sub_cancel]
    · simp only [heq, decide_false, Bool.false_and, Bool.false_eq_true, if_false,
        Nat.add_zero] at hmodify
      rw [Function.update_of_ne (Ne.symm heq), hmodify]
  · intro scopeKey
    dsimp only [Worker.release]
    rw [hcount, hpolicy]
    refine le_trans ?_ (h.room scopeKey)
    by_cases heq : scopeKey = job.scopeKey
    · subst heq
      rw [Function.update_self]
      exact Nat.sub_le _ _
    · rw [Function.update_of_ne heq]

theorem Consistent.enqueue {new : NewJob} (h : Consistent worker) :
    Consistent (worker.enqueue new) := by
  unfold Worker.enqueue
  obtain ⟨timer, heq⟩ := schedulePump_eq (worker.addJob new) 0
  rw [heq]
  rcases addJob_cases worker new with hadd | ⟨-, hadd⟩
  · rw [hadd]
    exact h.congr rfl (List.Sublist.refl _) rfl rfl
  · rw [hadd]
    refine ⟨fun pump hpump k hk => ?_, h.disjoint, fun scopeKey => ?_, h.room⟩
    · obtain ⟨old, hold, hrunning⟩ := h.running pump hpump k hk
      exact ⟨old, (List.getElem?_append_left (List.getElem?_eq_some_iff.1 hold).1).trans hold,
        hrunning⟩
    · dsimp only
      rw [List.countP_append, h.count]
      simp [NewJob.stored]

theorem Consistent.step (h : Consistent worker) : Consistent (worker.step event) := by
  cases event with
  | tick ms => exact h.congr rfl (List.Sublist.refl _) rfl rfl
  | setEnabled enabled => exact h.congr rfl (List.Sublist.refl _) rfl rfl
  | stop => exact h.congr rfl (List.Sublist.refl _) rfl rfl
  | enqueue job => exact h.enqueue
  | fire =>
    dsimp only [Worker.step]
    split
    · refine Consistent.goOn ⟨fun pump hpump k hk => ?_, ?_, h.count, h.room⟩
        List.getElem?_concat_length
      · rcases List.mem_append.1 hpump with hpump | hpump
        · exact h.running pump hpump k hk
        · rw [List.mem_singleton.1 hpump] at hk
          cases hk
      · refine List.pairwise_append.2 ⟨h.disjoint, List.pairwise_singleton _ _,
          fun pump _ other hother k _ => ?_⟩
        rw [List.mem_singleton.1 hother]
        nofun
    · exact h
  | settle i succeeds =>
    dsimp only [Worker.step]
    split
    · rename_i k hk
      obtain ⟨pump, hi, hrunning⟩ := Option.bind_eq_some_iff.1 hk
      split
      · rename_i job hjob
        obtain ⟨f, timer, lastRun, dailyCount, completed, heq, hscope, hstate⟩ :=
          settle_eq worker k job succeeds
        rw [heq]
        exact h.release hi hrunning hjob rfl rfl rfl rfl (hscope job) (hstate job)
      · exact h
    · exact h
  | resume i =>
    dsimp only [Worker.step]
    split
    · rename_i pump hi
      split
      · exact h.goOn hi
      · exact h
    · exact h

end Worker

end Imcodes.SkillReview
