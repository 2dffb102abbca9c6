import Imcodes.SkillReview.Worker

/-!
# How many skill reviews complete, and how often

The scheduler checks the daily cap and the interval of a scope against the reviews that were
completed, when a review is admitted.

* `Limited.step` — as long as a review is admitted only when its scope has no other one open, a
  review that is open could complete without breaking the limits.
* `limitsHold_of_along` — such runs keep the limits, whatever the order of pumps, retries and
  completions; `not_limitsHold` — two reviews that are admitted at once complete at once.
-/

namespace Imcodes.SkillReview

open Machine Modify

/-- In every scope at most so many reviews complete on a UTC day, and any two at a distance. -/
structure LimitsHold (policy : SkillReviewSchedulerPolicy) (completed : List (String × ℤ)) :
    Prop where
  daily : ∀ scopeKey day,
    completed.countP (fun review => review.1 = scopeKey && review.2 / 86400000 = day) ≤
      policy.dailyCap
  apart : completed.Pairwise fun (review later : String × ℤ) =>
    review.1 = later.1 → review.2 + policy.minIntervalMs ≤ later.2

/-- A review is enqueued when `decideSkillReviewSchedule` says so, of the state of the worker and
at a time that is not in the future. -/
def Worker.Admits (worker : Worker) : WorkerEvent → Prop
  | .enqueue job => ∃ input : SkillReviewScheduleInput,
      input.scopeKey = job.scopeKey ∧ input.state = worker.getState job.scopeKey ∧
      input.policy = worker.policy ∧ input.now ≤ worker.clock ∧
      decideSkillReviewSchedule input =
        .enqueue job.idempotencyKey job.nextAttemptAt job.maxAttempts
  | _ => True

/-- A review is added when its scope has no other one that is pending, running or waiting for
another try. -/
def Worker.AdmitsAlone (worker : Worker) : WorkerEvent → Prop
  | .enqueue job => (∀ other ∈ worker.jobs, other.idempotencyKey ≠ job.idempotencyKey) →
      ∀ other ∈ worker.jobs, other.isOpen = true → other.scopeKey ≠ job.scopeKey
  | _ => True

instance (worker : Worker) : ∀ event, Decidable (worker.AdmitsAlone event)
  | .enqueue job => inferInstanceAs (Decidable ((∀ other ∈ worker.jobs, _) →
      ∀ other ∈ worker.jobs, other.isOpen = true → other.scopeKey ≠ job.scopeKey))
  | .tick _ | .setEnabled _ | .stop | .fire | .settle _ _ | .resume _ => isTrue trivial

/-- A review of the scope could be completed since some time. -/
def MayComplete (policy : SkillReviewSchedulerPolicy) (completed : List (String × ℤ))
    (scopeKey : String) (clock : ℤ) : Prop :=
  ∃ now ≤ clock, (∀ review ∈ completed, review.1 = scopeKey →
      review.2 + policy.minIntervalMs ≤ now) ∧
    completed.countP (fun review => review.1 = scopeKey && review.2 / 86400000 = now / 86400000) <
      policy.dailyCap

/-- What is counted is what was completed, and every scope has one open review at most, which may
complete. -/
structure Limited (worker : Worker) : Prop where
  clock : 0 < worker.clock
  past : ∀ review ∈ worker.completed, review.2 ≤ worker.clock
  lastRun : ∀ review ∈ worker.completed, ∃ lastRun,
    worker.lastRunByScope review.1 = some lastRun ∧ 0 < lastRun ∧ review.2 ≤ lastRun
  daily : ∀ key, worker.dailyCountByScope key = worker.completed.countP fun review =>
    makeSkillReviewDailyCountKey review.1 review.2 = key
  alone : worker.jobs.Pairwise fun job other =>
    job.isOpen = true → other.isOpen = true → job.scopeKey ≠ other.scopeKey
  clear : ∀ job ∈ worker.jobs, job.isOpen = true →
    MayComplete worker.policy worker.completed job.scopeKey worker.clock
  limits : LimitsHold worker.policy worker.completed

variable {policy : SkillReviewSchedulerPolicy} {completed : List (String × ℤ)}
  {scopeKey : String} {clock clock' : ℤ} {worker worker' : Worker} {k i : ℕ} {job : Job}
  {f : Job → Job} {pump : Pump}

theorem MayComplete.mono (h : MayComplete policy completed scopeKey clock)
    (hle : clock ≤ clock') : MayComplete policy completed scopeKey clock' := by
  obtain ⟨now, hnow, hrest⟩ := h
  exact ⟨now, hnow.trans hle, hrest⟩

/-- A review of another scope completes. -/
theorem MayComplete.append {other : String} {time : ℤ}
    (h : MayComplete policy completed scopeKey clock) (hne : other ≠ scopeKey) :
    MayComplete policy (completed ++ [(other, time)]) scopeKey clock := by
  obtain ⟨now, hnow, hinterval, hdaily⟩ := h
  refine ⟨now, hnow, fun review hreview heq => ?_, ?_⟩
  · rcases List.mem_append.1 hreview with hreview | hreview
    · exact hinterval review hreview heq
    · rw [List.mem_singleton.1 hreview] at heq
      exact absurd heq hne
  · rw [List.countP_append]
    simpa [hne] using hdaily

/-- On a later day than that since which a review may complete, none has completed yet. -/
theorem MayComplete.countP_lt (h : MayComplete policy completed scopeKey clock) :
    completed.countP (fun review => review.1 = scopeKey &&
      review.2 / 86400000 = clock / 86400000) < policy.dailyCap := by
  obtain ⟨now, hnow, hinterval, hdaily⟩ := h
  by_cases hday : clock / 86400000 = now / 86400000
  · rwa [hday]
  · have hzero : completed.countP (fun review => review.1 = scopeKey &&
        review.2 / 86400000 = clock / 86400000) = 0 := by
      refine List.countP_eq_zero.2 fun review hreview hcounts => ?_
      rw [Bool.and_eq_true, decide_eq_true_eq, decide_eq_true_eq] at hcounts
      have hbefore := hinterval review hreview hcounts.1
      have hle : review.2 / 86400000 ≤ now / 86400000 :=
        Int.ediv_le_ediv (by decide) (by omega)
      have hlater : now / 86400000 ≤ clock / 86400000 := Int.ediv_le_ediv (by decide) hnow
      omega
    rw [hzero]
    exact (Nat.zero_le _).trans_lt hdaily

theorem MayComplete.le (h : MayComplete policy completed scopeKey clock) :
    ∀ review ∈ completed, review.1 = scopeKey → review.2 + policy.minIntervalMs ≤ clock := by
  obtain ⟨now, hnow, hinterval, -⟩ := h
  exact fun review hreview heq => (hinterval review hreview heq).trans hnow

/-- A review that may complete does. -/
theorem LimitsHold.append (h : LimitsHold policy completed)
    (hmay : MayComplete policy completed scopeKey clock) :
    LimitsHold policy (completed ++ [(scopeKey, clock)]) := by
  constructor
  · intro scope day
    rw [List.countP_append]
    by_cases hmatch : scopeKey = scope ∧ clock / 86400000 = day
    · obtain ⟨rfl, rfl⟩ := hmatch
      have hlt := hmay.countP_lt
      simp only [List.countP_singleton, decide_true, Bool.and_self, if_true]
      exact hlt
    · have hnone : (decide (scopeKey = scope) && decide (clock / 86400000 = day)) = false := by
        rw [← Bool.not_eq_true, Bool.and_eq_true, decide_eq_true_eq, decide_eq_true_eq]
        exact hmatch
      simp only [List.countP_singleton, hnone, Bool.false_eq_true, if_false, Nat.add_zero]
      exact h.daily scope day
  · refine List.pairwise_append.2 ⟨h.apart, List.pairwise_singleton _ _,
      fun review hreview later hlater heq => ?_⟩
    rw [List.mem_singleton.1 hlater] at heq ⊢
    exact hmay.le review hreview heq

/-- A review goes on, and nothing has completed. -/
theorem Limited.modify (h : Limited worker) (hk : worker.jobs[k]? = some job)
    (hjobs : worker'.jobs = worker.jobs.modify k f)
    (hopen : (f job).isOpen = true → job.isOpen = true)
    (hscope : (f job).scopeKey = job.scopeKey) (hclock : worker'.clock = worker.clock)
    (hlast : worker'.lastRunByScope = worker.lastRunByScope)
    (hdaily : worker'.dailyCountByScope = worker.dailyCountByScope)
    (hcompleted : worker'.completed = worker.completed) (hpolicy : worker'.policy = worker.policy) :
    Limited worker' := by
  constructor
  · rw [hclock]
    exact h.clock
  · rw [hcompleted, hclock]
    exact h.past
  · rw [hcompleted, hlast]
    exact h.lastRun
  · rw [hcompleted, hdaily]
    exact h.daily
  · rw [hjobs]
    refine pairwise_modify h.alone hk (fun other _ hother hfopen => ?_)
      fun other _ hother hoopen hfopen => ?_
    · rw [hscope]
      exact hother (hopen hfopen)
    · rw [hscope]
      exact hother hoopen (hopen hfopen)
  · rw [hjobs, hcompleted, hclock, hpolicy]
    intro other hmem hoopen
    rcases mem_modify hmem with hmem | ⟨old, hold, rfl⟩
    · exact h.clear other hmem hoopen
    · rw [hk] at hold
      obtain rfl := Option.some.inj hold
      rw [hscope]
      exact h.clear job (List.mem_of_getElem? hk) (hopen hoopen)
  · rw [hcompleted, hpolicy]
    exact h.limits

/-- Nothing happens to the reviews. -/
theorem Limited.congr (h : Limited worker) (hjobs : worker'.jobs = worker.jobs)
    (hclock : worker.clock ≤ worker'.clock)
    (hlast : worker'.lastRunByScope = worker.lastRunByScope)
    (hdaily : worker'.dailyCountByScope = worker.dailyCountByScope)
    (hcompleted : worker'.completed = worker.completed) (hpolicy : worker'.policy = worker.policy) :
    Limited worker' := by
  constructor
  · exact h.clock.trans_le hclock
  · rw [hcompleted]
    exact fun review hreview => (h.past review hreview).trans hclock
  · rw [hcompleted, hlast]
    exact h.lastRun
  · rw [hcompleted, hdaily]
    exact h.daily
  · rw [hjobs]
    exact h.alone
  · rw [hjobs, hcompleted, hpolicy]
    exact fun other hmem hoopen => (h.clear other hmem hoopen).mono hclock
  · rw [hcompleted, hpolicy]
    exact h.limits

theorem Limited.goOn (h : Limited worker) : Limited (worker.goOn i pump) := by
  rcases Worker.goOn_cases worker i pump with ⟨k, job, nextDelay, -, hk, hclaims, -, heq⟩ | ⟨-, heq⟩
  · obtain ⟨-, -, hwaiting, -⟩ := Worker.claims_iff.1 hclaims
    rw [heq]
    refine h.modify hk rfl (fun _ => ?_) rfl rfl rfl rfl rfl rfl
    rw [Job.isOpen, hwaiting]
    rfl
  · obtain ⟨timer, hended⟩ := Worker.ended_eq worker i
      (Worker.notes pump (worker.jobs.drop pump.next) pump.nextDelay)
    rw [heq, hended]
    exact h.congr rfl le_rfl rfl rfl rfl rfl

theorem Limited.enqueue {new : NewJob} (h : Limited worker)
    (hadmits : worker.Admits (.enqueue new)) (halone : worker.AdmitsAlone (.enqueue new)) :
    Limited (worker.enqueue new) := by
  unfold Worker.enqueue
  obtain ⟨timer, heq⟩ := Worker.schedulePump_eq (worker.addJob new) 0
  rw [heq]
  rcases Worker.addJob_cases worker new with hadd | ⟨hnew, hadd⟩
  · rw [hadd]
    exact h.congr rfl le_rfl rfl rfl rfl rfl
  · have hfree := halone hnew
    have hscope : new.stored.scopeKey = new.scopeKey := rfl
    rw [hadd]
    refine ⟨h.clock, h.past, h.lastRun, h.daily, ?_, fun other hother hoopen => ?_, h.limits⟩
    · refine List.pairwise_append.2 ⟨h.alone, List.pairwise_singleton _ _,
        fun other hother last hlast hoopen _ => ?_⟩
      rw [List.mem_singleton.1 hlast, hscope]
      exact hfree other hother hoopen
    · rcases List.mem_append.1 hother with hother | hother
      · exact h.clear other hother hoopen
      · rw [List.mem_singleton.1 hother, hscope]
        obtain ⟨input, hinput, hstate, hpolicy, hnow, hdecision⟩ := hadmits
        obtain ⟨hinterval, hdaily⟩ := allows_of_enqueue hdecision
        rw [hstate, hpolicy] at hinterval
        rw [hstate, hpolicy, hinput] at hdaily
        refine ⟨input.now, hnow, fun review hreview heq => ?_, ?_⟩
        · obtain ⟨lastRun, hlast, hpos, hle⟩ := h.lastRun review hreview
          have hlater := hinterval lastRun (by rw [hinput, ← heq]; exact hlast) hpos
          dsimp only at hlater ⊢
          omega
        · change worker.dailyCountByScope _ < _ at hdaily
          rw [h.daily] at hdaily
          refine lt_of_le_of_lt (List.countP_mono_left fun review _ hcounts => ?_) hdaily
          rw [Bool.and_eq_true, decide_eq_true_eq, decide_eq_true_eq] at hcounts
          rw [decide_eq_true_eq, makeSkillReviewDailyCountKey, makeSkillReviewDailyCountKey,
            hcounts.1, hcounts.2]

/-- A review that runs completes. -/
theorem Limited.succeed (h : Limited worker) (hk : worker.jobs[k]? = some job)
    (hrunning : job.state = .running) : Limited (worker.succeed k job) := by
  have hopen : job.isOpen = true := by
    rw [Job.isOpen, hrunning]
    exact Bool.or_true _
  have hmay := h.clear job (List.mem_of_getElem? hk) hopen
  unfold Worker.succeed
  constructor
  · exact h.clock
  · intro review hreview
    rcases List.mem_append.1 hreview with hreview | hreview
    · exact h.past review hreview
    · rw [List.mem_singleton.1 hreview]
  · intro review hreview
    dsimp only
    rcases List.mem_append.1 hreview with hreview | hreview
    · by_cases hscope : review.1 = job.scopeKey
      · rw [hscope, Function.update_self]
        exact ⟨_, rfl, h.clock, h.past review hreview⟩
      · rw [Function.update_of_ne hscope]
        exact h.lastRun review hreview
    · rw [List.mem_singleton.1 hreview, Function.update_self]
      exact ⟨_, rfl, h.clock, le_rfl⟩
  · intro key
    dsimp only
    rw [List.countP_append, List.countP_singleton, ← h.daily]
    by_cases hkey : key = makeSkillReviewDailyCountKey job.scopeKey worker.clock
    · rw [hkey, Function.update_self, decide_eq_true rfl, if_pos rfl]
    · rw [Function.update_of_ne hkey, decide_eq_false (Ne.symm hkey), if_neg (by decide)]
      rfl
  · refine pairwise_modify h.alone hk (fun other _ _ hfopen => ?_) fun other _ _ _ hfopen => ?_
    · exact nomatch hfopen
    · exact nomatch hfopen
  · intro other hmem hoopen
    obtain ⟨j, hj⟩ := List.mem_iff_getElem?.1 hmem
    by_cases hkj : k = j
    · subst hkj
      rw [getElem?_modify_self hk] at hj
      obtain rfl := Option.some.inj hj
      exact nomatch hoopen
    · rw [getElem?_modify_of_ne hkj] at hj
      refine (h.clear other (List.mem_of_getElem? hj) hoopen).append ?_
      exact rel_of_pairwise h.alone (fun _ _ hab hb ha => (hab ha hb).symm) hk hj hkj hopen hoopen
  · exact h.limits.append hmay

/-- A review that runs fails. -/
theorem Limited.fail (h : Limited worker) (hk : worker.jobs[k]? = some job)
    (hrunning : job.state = .running) : Limited (worker.fail k job) := by
  have hopen : job.isOpen = true := by
    rw [Job.isOpen, hrunning]
    exact Bool.or_true _
  unfold Worker.fail
  split
  · exact h.modify hk rfl (fun _ => hopen) rfl rfl rfl rfl rfl rfl
  · obtain ⟨timer, heq⟩ := Worker.schedulePump_eq
      { worker with
        jobs := worker.jobs.modify k fun other =>
          { other with
            state := .retryWait
            nextAttemptAt := nextSkillReviewRetryAt worker.clock job.attempt worker.policy
            updatedAt := worker.clock } }
      (max 0 (nextSkillReviewRetryAt worker.clock job.attempt worker.policy - worker.clock))
    dsimp only
    rw [heq]
    exact h.modify hk rfl (fun _ => hopen) rfl rfl rfl rfl rfl rfl

theorem Limited.step (h : Limited worker) (hcons : worker.Consistent) {event : WorkerEvent}
    (hadmits : worker.Admits event) (halone : worker.AdmitsAlone event) :
    Limited (worker.step event) := by
  cases event with
  | tick ms =>
    refine h.congr rfl ?_ rfl rfl rfl rfl
    dsimp only [Worker.step]
    omega
  | setEnabled enabled => exact h.congr rfl le_rfl rfl rfl rfl rfl
  | stop => exact h.congr rfl le_rfl rfl rfl rfl rfl
  | enqueue job => exact h.enqueue hadmits halone
  | fire =>
    dsimp only [Worker.step]
    split
    · exact Limited.goOn (h.congr rfl le_rfl rfl rfl rfl rfl)
    · exact h
  | settle i succeeds =>
    dsimp only [Worker.step]
    split
    · rename_i k hk
      obtain ⟨pump, hi, hwrites⟩ := Option.bind_eq_some_iff.1 hk
      split
      · rename_i job hjob
        obtain ⟨job', hjob', hrunning⟩ := hcons.running pump (List.mem_of_getElem? hi) k hwrites
        rw [hjob] at hjob'
        obtain rfl := Option.some.inj hjob'
        cases succeeds with
        | true => exact (h.succeed hjob hrunning).congr rfl le_rfl rfl rfl rfl rfl
        | false => exact (h.fail hjob hrunning).congr rfl le_rfl rfl rfl rfl rfl
      · exact h
    · exact h
  | resume i =>
    dsimp only [Worker.step]
    split
    · split
      · exact h.goOn
      · exact h
    · exact h

/-- A worker of which nothing has been asked. -/
def Worker.start (policy : SkillReviewSchedulerPolicy) (clock : ℤ) : Worker where
  policy := policy
  clock := clock

theorem Worker.consistent_start : (Worker.start policy clock).Consistent :=
  ⟨nofun, List.Pairwise.nil, fun _ => rfl, fun _ => Nat.zero_le _⟩

theorem limited_start (hclock : 0 < clock) : Limited (Worker.start policy clock) := by
  refine ⟨hclock, nofun, nofun, fun _ => rfl, List.Pairwise.nil, nofun, ?_, List.Pairwise.nil⟩
  exact fun _ _ => Nat.zero_le _

/-- **The limits hold** over every run in which a review is admitted only when its scope has no
other one open. -/
theorem limitsHold_of_along (policy : SkillReviewSchedulerPolicy) (clock : ℤ) (hclock : 0 < clock)
    (events : List WorkerEvent)
    (hadmits : Along Worker.step Worker.Admits events (Worker.start policy clock))
    (halone : Along Worker.step Worker.AdmitsAlone events (Worker.start policy clock)) :
    LimitsHold policy (run Worker.step events (Worker.start policy clock)).completed := by
  obtain ⟨-, hlimited, hpolicy⟩ := run_invariant
    (fun worker : Worker => worker.Consistent ∧ Limited worker ∧ worker.policy = policy)
    (fun worker event h hok => ⟨h.1.step, h.2.1.step h.1 hok.1 hok.2,
      Worker.policy_step.trans h.2.2⟩)
    ⟨Worker.consistent_start, limited_start hclock, rfl⟩ (hadmits.and halone)
  have hlimits := hlimited.limits
  rwa [hpolicy] at hlimits

/-! ## Two reviews of one scope -/

/-- A review of the scope, as the scheduler admits it. -/
def admitted (responseId : String) (now : ℤ) : NewJob where
  idempotencyKey := makeSkillReviewIdempotencyKey "scope" responseId "manual_review"
  scopeKey := "scope"
  nextAttemptAt := now
  maxAttempts := 4
  createdAt := now

/-- The question to the scheduler. -/
def schedule (worker : Worker) (responseId : String) (now : ℤ) : SkillReviewScheduleInput where
  featureEnabled := true
  delivered := true
  shuttingDown := false
  trigger := "manual_review"
  scopeKey := "scope"
  responseId := responseId
  now := now
  state := worker.getState "scope"
  policy := worker.policy
  phase := some .postResponseBackground
  toolIterationCount := none

/-- Two reviews are admitted one after the other and run in one pump. -/
def twoReviews : List WorkerEvent :=
  [.enqueue (admitted "first" 1), .enqueue (admitted "second" 1), .fire, .settle 0 true, .resume 0,
    .settle 0 true]

/-- The second one is admitted when the first one is over and the interval has passed. -/
def oneByOne : List WorkerEvent :=
  [.enqueue (admitted "first" 1), .fire, .settle 0 true, .resume 0, .tick 600000,
    .enqueue (admitted "second" 600001), .fire, .settle 0 true]

theorem limitsHold_of_along_oneByOne :
    LimitsHold {} (run Worker.step oneByOne (Worker.start {} 1)).completed := by
  refine limitsHold_of_along {} 1 (by decide) oneByOne ?_ ?_
  · exact ⟨⟨schedule _ "first" 1, rfl, rfl, rfl, le_rfl, by decide +kernel⟩, trivial, trivial,
      trivial, trivial, ⟨schedule _ "second" 600001, rfl, rfl, rfl, by decide +kernel,
        by decide +kernel⟩, trivial, trivial, trivial⟩
  · decide +kernel

/-- Both complete at once. -/
theorem not_limitsHold : ¬∀ (policy : SkillReviewSchedulerPolicy) (clock : ℤ)
    (events : List WorkerEvent), 0 < clock →
    Along Worker.step Worker.Admits events (Worker.start policy clock) →
    LimitsHold policy (run Worker.step events (Worker.start policy clock)).completed := by
  intro h
  have hadmits : Along Worker.step Worker.Admits twoReviews (Worker.start {} 1) :=
    ⟨⟨schedule _ "first" 1, rfl, rfl, rfl, le_rfl, by decide +kernel⟩,
      ⟨schedule _ "second" 1, rfl, rfl, rfl, le_rfl, by decide +kernel⟩, trivial, trivial, trivial,
      trivial, trivial⟩
  have hapart := (h {} 1 twoReviews (by decide) hadmits).apart
  have hcompleted : (run Worker.step twoReviews (Worker.start {} 1)).completed =
      [("scope", 1), ("scope", 1)] := by decide +kernel
  rw [hcompleted, List.pairwise_pair] at hapart
  exact absurd (hapart rfl) (by decide)

end Imcodes.SkillReview
