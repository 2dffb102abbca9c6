import Mathlib
import Imcodes.SkillReview.Limits

/-!
# Reviews that wait are looked at again

While a review waits, a pump should still come to it, or the timer be armed for no later than the
review is due.  The timer is armed when a review is enqueued or is to be tried again, unless it is
armed already, and by a pump at its end for the reviews to be tried again that it passed over.

* `Attended.step` — a review that waits stays attended to while nothing is needed earlier than the
  timer that is armed, and while a pump without a timer passes over no review that is left to it.
* `Attempted.step` — no review is attempted too often.
* `notStranded_of_along` — what follows for runs; `not_notStranded` — a review that is enqueued
  while the timer waits for another try of a review waits with it.
-/

namespace Imcodes.SkillReview

open Machine Modify

/-- No review is stranded, or attempted too often, and no scope runs too many at once. -/
structure NotStranded (worker : Worker) : Prop where
  examined : worker.featureEnabled = true → worker.shuttingDown = false → ∀ k job,
    worker.jobs[k]? = some job → job.isWaiting = true →
      (∃ pump ∈ worker.pumps, pump.next ≤ k) ∨ worker.timer.isSome = true
  inTime : worker.featureEnabled = true → worker.shuttingDown = false → ∀ timer,
    worker.timer = some timer → ∀ job ∈ worker.jobs, job.isWaiting = true →
      timer ≤ max worker.clock job.nextAttemptAt
  attempts : ∀ job ∈ worker.jobs, job.attempt ≤ job.maxAttempts
  concurrency : ∀ scopeKey, worker.jobs.countP (fun job => job.scopeKey = scopeKey &&
    job.state = .running) ≤ worker.policy.maxConcurrentPerScope

namespace Worker

/-- A timer that is armed does not fire later than a review is due. -/
def TimerServes (worker : Worker) (due : ℤ) : Prop :=
  ∀ timer ∈ worker.timer, timer ≤ max worker.clock due

/-- A timer set to this delay fires before any review that waits is due. -/
def ServesAll (worker : Worker) (delay : ℤ) : Prop :=
  ∀ job ∈ worker.jobs, job.isWaiting = true →
    worker.clock + delay ≤ max worker.clock job.nextAttemptAt

/-- The delays that a pump has noted when it comes to its end. -/
def noted (worker : Worker) (pump : Pump) : List ℤ :=
  pump.nextDelay.toList ++ ((worker.jobs.drop pump.next).filter (·.state = .retryWait)).map
    fun job => max 0 (job.nextAttemptAt - pump.now)

/-- No review is left that the pump may claim. -/
def Ends (worker : Worker) (pump : Pump) : Prop :=
  ∀ job ∈ worker.jobs.drop pump.next, worker.claims pump job = false

/-- The pump passes over a review before it claims one. -/
def Passes (worker : Worker) (pump : Pump) (k : ℕ) : Prop :=
  pump.next ≤ k ∧ ∀ job ∈ (worker.jobs.take (k + 1)).drop pump.next,
    worker.claims pump job = false

/-- A review that waits and is passed over is still ahead of another pump. -/
def LeavesToOthers (worker : Worker) (pump : Pump) (others : List Pump) : Prop :=
  ∀ k < worker.jobs.length, (∃ job ∈ worker.jobs[k]?, job.isWaiting = true) →
    worker.Passes pump k → ∃ other ∈ others, other.next ≤ k

/-- When no timer is armed: a pump leaves the reviews that wait to other pumps, and notes no delay
if it comes to its end, or it comes to its end with a delay in time for all of them. -/
def GoesOnWell (worker : Worker) (pump : Pump) (others : List Pump) : Prop :=
  worker.timer = none →
    worker.LeavesToOthers pump others ∧ (worker.Ends pump → worker.noted pump = []) ∨
    worker.Ends pump ∧ ∃ delay ∈ worker.noted pump, worker.ServesAll delay

/-- The condition on an event. -/
def Attends (worker : Worker) : WorkerEvent → Prop
  | .enqueue job => (∀ other ∈ worker.jobs, other.idempotencyKey ≠ job.idempotencyKey) →
      0 < job.maxAttempts ∧ (worker.shuttingDown = false → worker.TimerServes job.nextAttemptAt)
  | .fire => worker.shuttingDown = false → worker.timer.any (· ≤ worker.clock) = true →
      GoesOnWell { worker with timer := none }
        ⟨worker.clock, worker.featureEnabled, 0, none, none⟩ worker.pumps
  | .resume i => worker.shuttingDown = false → ∀ pump ∈ worker.pumps[i]?, pump.running = none →
      worker.GoesOnWell pump (worker.pumps.eraseIdx i)
  | .settle i false => worker.shuttingDown = false →
      ∀ k ∈ worker.pumps[i]?.bind Pump.running, ∀ job ∈ worker.jobs[k]?,
        job.attempt < job.maxAttempts →
          let retryAt := nextSkillReviewRetryAt worker.clock job.attempt worker.policy
          worker.TimerServes retryAt ∧
            (worker.timer = none → worker.ServesAll (retryAt - worker.clock))
  | .settle _ true | .tick _ | .setEnabled _ | .stop => True

end Worker

/-! ## Attending to reviews -/

/-- A review that waits is ahead of a pump, or the timer is armed in time for it. -/
structure Attended (worker : Worker) : Prop where
  examined : worker.shuttingDown = false → worker.timer = none → ∀ k job,
    worker.jobs[k]? = some job → job.isWaiting = true → ∃ pump ∈ worker.pumps, pump.next ≤ k
  inTime : worker.shuttingDown = false → ∀ timer, worker.timer = some timer →
    ∀ job ∈ worker.jobs, job.isWaiting = true → timer ≤ max worker.clock job.nextAttemptAt

variable {worker worker' : Worker} {pump : Pump} {jobs : List Job} {job : Job} {k i : ℕ}
  {nextDelay : Option ℤ} {delay : ℤ} {event : WorkerEvent} {f : Job → Job}

/-- A pump notes the least of the delays. -/
theorem notes_eq_none_iff : Worker.notes pump jobs nextDelay = none ↔
    nextDelay = none ∧ ∀ job ∈ jobs, job.state ≠ .retryWait := by
  induction jobs generalizing nextDelay with
  | nil => simp [Worker.notes]
  | cons job jobs ih =>
    rw [List.forall_mem_cons]
    change Worker.notes pump jobs (Worker.noteDelay pump job nextDelay) = none ↔ _
    rw [ih, Worker.noteDelay]
    split
    · rename_i hretry
      simp [hretry]
    · rename_i hretry
      simp [hretry]

theorem notes_le (h : Worker.notes pump jobs nextDelay = some delay) :
    (∀ other ∈ nextDelay, delay ≤ other) ∧ ∀ job ∈ jobs, job.state = .retryWait →
      delay ≤ max 0 (job.nextAttemptAt - pump.now) := by
  induction jobs generalizing nextDelay with
  | nil =>
    change nextDelay = some delay at h
    refine ⟨fun other hother => ?_, nofun⟩
    rw [h] at hother
    exact (Option.some.inj hother).le
  | cons job jobs ih =>
    have hrest : Worker.notes pump jobs (Worker.noteDelay pump job nextDelay) = some delay := h
    obtain ⟨hnext, hjobs⟩ := ih hrest
    unfold Worker.noteDelay at hnext
    rw [List.forall_mem_cons]
    split at hnext
    · have hle := hnext _ rfl
      cases nextDelay with
      | none => exact ⟨nofun, fun _ => hle, hjobs⟩
      | some nextDelay =>
        refine ⟨fun other hother => ?_, fun _ => hle.trans (min_le_right _ _), hjobs⟩
        rw [← Option.some.inj hother]
        exact hle.trans (min_le_left _ _)
    · rename_i hretry
      exact ⟨hnext, fun h => absurd h hretry, hjobs⟩

theorem noted_eq_nil_iff : worker.noted pump = [] ↔
    Worker.notes pump (worker.jobs.drop pump.next) pump.nextDelay = none := by
  rw [notes_eq_none_iff, Worker.noted, List.append_eq_nil_iff, List.map_eq_nil_iff,
    List.filter_eq_nil_iff, Option.toList_eq_nil_iff]
  simp

theorem le_of_mem_noted {least : ℤ}
    (h : Worker.notes pump (worker.jobs.drop pump.next) pump.nextDelay = some least)
    (hdelay : delay ∈ worker.noted pump) : least ≤ delay := by
  obtain ⟨hnext, hjobs⟩ := notes_le h
  rcases List.mem_append.1 hdelay with hdelay | hdelay
  · exact hnext delay (Option.mem_toList.1 hdelay)
  · obtain ⟨job, hjob, rfl⟩ := List.mem_map.1 hdelay
    obtain ⟨hjob, hretry⟩ := List.mem_filter.1 hjob
    exact hjobs job hjob (of_decide_eq_true hretry)

/-- A pump passes over everything before the review that it claims. -/
theorem passes_of_forall (hle : pump.next ≤ k)
    (h : ∀ m passed, pump.next ≤ m → m ≤ k → worker.jobs[m]? = some passed →
      worker.claims pump passed = false) : worker.Passes pump k := by
  refine ⟨hle, fun job hjob => ?_⟩
  obtain ⟨m, hm⟩ := List.mem_iff_getElem?.1 hjob
  rw [List.getElem?_drop] at hm
  have hlt := (List.getElem?_eq_some_iff.1 hm).1
  rw [List.length_take] at hlt
  refine h (pump.next + m) job (Nat.le_add_right _ _) (by omega) ?_
  rwa [List.getElem?_take_of_lt (by omega)] at hm

/-- Another pump is still there after one has gone on. -/
theorem mem_set_of_mem_eraseIdx {pumps : List Pump} {other new : Pump}
    (h : other ∈ pumps.eraseIdx i) : other ∈ pumps.set i new := by
  obtain ⟨j, hne, hj⟩ := List.mem_eraseIdx_iff_getElem?.1 h
  refine List.mem_of_getElem? (i := j) ?_
  rw [List.getElem?_set_ne (Ne.symm hne), hj]

/-- A pump is the one that goes on, or another one. -/
theorem eq_or_mem_eraseIdx {pumps : List Pump} {other : Pump} (hi : pumps[i]? = some pump)
    (h : other ∈ pumps) : other = pump ∨ other ∈ pumps.eraseIdx i := by
  obtain ⟨j, hj⟩ := List.mem_iff_getElem?.1 h
  by_cases hij : j = i
  · subst hij
    rw [hi] at hj
    exact Or.inl (Option.some.inj hj).symm
  · exact Or.inr (List.mem_eraseIdx_iff_getElem?.2 ⟨j, hij, hj⟩)

theorem Attended.claimed (h : Attended worker) (hi : worker.pumps[i]? = some pump)
    (hle : pump.next ≤ k) (hk : worker.jobs[k]? = some job)
    (hclaims : worker.claims pump job = true)
    (hpassed : ∀ m passed, pump.next ≤ m → m < k → worker.jobs[m]? = some passed →
      worker.claims pump passed = false)
    (hwell : worker.shuttingDown = false → worker.GoesOnWell pump (worker.pumps.eraseIdx i)) :
    Attended (worker.claimed i pump k job nextDelay) := by
  have hwaiting : ∀ m other, (worker.claimed i pump k job nextDelay).jobs[m]? = some other →
      other.isWaiting = true → k ≠ m ∧ worker.jobs[m]? = some other := by
    intro m other hm hwaits
    dsimp only [Worker.claimed] at hm
    by_cases hkm : k = m
    · subst hkm
      rw [getElem?_modify_self hk] at hm
      obtain rfl := Option.some.inj hm
      exact nomatch hwaits
    · rw [getElem?_modify_of_ne hkm] at hm
      exact ⟨hkm, hm⟩
  constructor
  · intro hrunning htimer m other hclaimed hwaits
    obtain ⟨hkm, hm⟩ := hwaiting m other hclaimed hwaits
    obtain ⟨examining, hmem, hnext⟩ := h.examined hrunning htimer m other hm hwaits
    dsimp only [Worker.claimed]
    rcases eq_or_mem_eraseIdx hi hmem with rfl | hmem
    · rcases Nat.lt_or_gt_of_ne hkm with hlt | hlt
      · refine ⟨{ examining with next := k + 1, nextDelay := nextDelay, running := some k },
          List.mem_of_getElem? (i := i) ?_, hlt⟩
        exact List.getElem?_set_self (List.getElem?_eq_some_iff.1 hi).1
      · rcases hwell hrunning htimer with ⟨hleaves, -⟩ | ⟨hends, -⟩
        · obtain ⟨left, hleft, hnext'⟩ := hleaves m (List.getElem?_eq_some_iff.1 hm).1
            ⟨other, hm, hwaits⟩ (passes_of_forall hnext fun n passed hle' hle'' hn =>
              hpassed n passed hle' (Nat.lt_of_le_of_lt hle'' hlt) hn)
          exact ⟨left, mem_set_of_mem_eraseIdx hleft, hnext'⟩
        · obtain ⟨n, rfl⟩ := Nat.exists_eq_add_of_le hle
          rw [← List.getElem?_drop] at hk
          rw [hends job (List.mem_of_getElem? hk)] at hclaims
          cases hclaims
    · exact ⟨examining, mem_set_of_mem_eraseIdx hmem, hnext⟩
  · intro hrunning timer htimer other hmem hwaits
    obtain ⟨m, hm⟩ := List.mem_iff_getElem?.1 hmem
    obtain ⟨-, hm⟩ := hwaiting m other hm hwaits
    exact h.inTime hrunning timer htimer other (List.mem_of_getElem? hm) hwaits

theorem Attended.ended (h : Attended worker) (hi : worker.pumps[i]? = some pump)
    (hends : worker.Ends pump)
    (hpassed : ∀ m passed, pump.next ≤ m → worker.jobs[m]? = some passed →
      worker.claims pump passed = false)
    (hwell : worker.shuttingDown = false → worker.GoesOnWell pump (worker.pumps.eraseIdx i)) :
    Attended (worker.ended i
      (Worker.notes pump (worker.jobs.drop pump.next) pump.nextDelay)) := by
  cases htimer : worker.timer with
  | some timer =>
    have hsame : worker.ended i (Worker.notes pump (worker.jobs.drop pump.next) pump.nextDelay) =
        { worker with pumps := worker.pumps.eraseIdx i } := by
      unfold Worker.ended
      cases Worker.notes pump (worker.jobs.drop pump.next) pump.nextDelay with
      | none => rfl
      | some delay =>
        dsimp only
        rw [Worker.schedulePump, if_pos]
        rw [htimer]
        rfl
    rw [hsame]
    refine ⟨fun _ hnone => ?_, h.inTime⟩
    rw [htimer] at hnone
    cases hnone
  | none =>
    cases hnotes : Worker.notes pump (worker.jobs.drop pump.next) pump.nextDelay with
    | none =>
      refine ⟨fun hrunning _ m other hm hwaits => ?_, fun _ timer hsome => ?_⟩
      · obtain ⟨examining, hmem, hnext⟩ := h.examined hrunning htimer m other hm hwaits
        rcases eq_or_mem_eraseIdx hi hmem with rfl | hmem
        · rcases hwell hrunning htimer with ⟨hleaves, -⟩ | ⟨-, delay, hdelay, -⟩
          · exact hleaves m (List.getElem?_eq_some_iff.1 hm).1 ⟨other, hm, hwaits⟩
              (passes_of_forall hnext fun n passed hle _ hn => hpassed n passed hle hn)
          · rw [noted_eq_nil_iff.2 hnotes] at hdelay
            cases hdelay
        · exact ⟨examining, hmem, hnext⟩
      · cases htimer.symm.trans hsome
    | some least =>
      cases hstopped : worker.shuttingDown with
      | true =>
        refine ⟨fun hrunning => ?_, fun hrunning => ?_⟩ <;>
        · obtain ⟨timer, heq⟩ := Worker.ended_eq worker i (some least)
          rw [heq] at hrunning
          cases hstopped.symm.trans hrunning
      | false =>
        have harmed : worker.ended i (some least) =
            { worker with
              pumps := worker.pumps.eraseIdx i
              timer := some (worker.clock + least) } := by
          unfold Worker.ended Worker.schedulePump
          dsimp only
          rw [htimer, hstopped]
          rfl
        rw [harmed]
        refine ⟨fun _ hnone => (nomatch hnone), fun _ timer hsome job hmem hwaits => ?_⟩
        obtain rfl := Option.some.inj hsome
        rcases hwell hstopped htimer with ⟨-, hempty⟩ | ⟨-, delay, hdelay, hserves⟩
        · rw [noted_eq_nil_iff.1 (hempty hends)] at hnotes
          cases hnotes
        · have hle := le_of_mem_noted hnotes hdelay
          have hserves := hserves job hmem hwaits
          dsimp only
          omega

theorem Attended.goOn (h : Attended worker) (hi : worker.pumps[i]? = some pump)
    (hwell : worker.shuttingDown = false → worker.GoesOnWell pump (worker.pumps.eraseIdx i)) :
    Attended (worker.goOn i pump) := by
  rcases Worker.goOn_cases worker i pump with
    ⟨k, job, nextDelay, hle, hk, hclaims, hpassed, heq⟩ | ⟨hpassed, heq⟩
  · rw [heq]
    exact h.claimed hi hle hk hclaims hpassed hwell
  · rw [heq]
    refine h.ended hi (fun job hjob => ?_) hpassed hwell
    obtain ⟨m, hm⟩ := List.mem_iff_getElem?.1 hjob
    rw [List.getElem?_drop] at hm
    exact hpassed _ job (Nat.le_add_right _ _) hm

/-- Arming the timer, unless it is armed. -/
theorem Attended.schedulePump (hstill : worker.timer.isSome = true → Attended worker)
    (hserves : worker.shuttingDown = false → worker.timer = none → worker.ServesAll delay) :
    Attended (worker.schedulePump delay) := by
  cases hstopped : worker.shuttingDown with
  | true =>
    obtain ⟨timer, heq⟩ := Worker.schedulePump_eq worker delay
    rw [heq]
    exact ⟨fun hrunning => (nomatch hstopped.symm.trans hrunning),
      fun hrunning => (nomatch hstopped.symm.trans hrunning)⟩
  | false =>
    rw [Worker.schedulePump, hstopped, Bool.or_false]
    split
    · rename_i harmed
      exact hstill harmed
    · rename_i hidle
      have htimer := Option.not_isSome_iff_eq_none.1 hidle
      refine ⟨fun _ hnone => (nomatch hnone), fun _ timer hsome job hmem hwaits => ?_⟩
      obtain rfl := Option.some.inj hsome
      exact hserves hstopped htimer job hmem hwaits

theorem Attended.enqueue {new : NewJob} (h : Attended worker)
    (hserves : (∀ other ∈ worker.jobs, other.idempotencyKey ≠ new.idempotencyKey) →
      worker.shuttingDown = false → worker.TimerServes new.nextAttemptAt) :
    Attended (worker.enqueue new) := by
  have hnow : ∀ worker : Worker, worker.ServesAll 0 := fun worker job _ _ => by
    rw [Int.add_zero]
    exact le_max_left _ _
  refine Attended.schedulePump (fun harmed => ?_) fun _ _ => hnow _
  rcases Worker.addJob_cases worker new with hadd | ⟨hnew, hadd⟩
  · rw [hadd]
    exact h
  · rw [hadd] at harmed ⊢
    obtain ⟨timer, htimer⟩ := Option.isSome_iff_exists.1 harmed
    refine ⟨fun _ hnone => (nomatch htimer.symm.trans hnone),
      fun hrunning other hother job hmem hwaits => ?_⟩
    rcases List.mem_append.1 hmem with hmem | hmem
    · exact h.inTime hrunning other hother job hmem hwaits
    · rw [List.mem_singleton.1 hmem]
      exact hserves hnew hrunning other hother

/-- A review stops waiting, or waits on. -/
theorem Attended.modify (h : Attended worker) (hk : worker.jobs[k]? = some job)
    (hidle : (f job).isWaiting = false) (hjobs : worker'.jobs = worker.jobs.modify k f)
    (hpumps : worker'.pumps = worker.pumps) (htimer : worker'.timer = worker.timer)
    (hclock : worker'.clock = worker.clock)
    (hstopped : worker'.shuttingDown = worker.shuttingDown) : Attended worker' := by
  have hwaiting : ∀ (m : ℕ) (other : Job), worker'.jobs[m]? = some other →
      other.isWaiting = true → worker.jobs[m]? = some other := by
    intro m other hm hwaits
    rw [hjobs] at hm
    by_cases hkm : k = m
    · subst hkm
      rw [getElem?_modify_self hk] at hm
      obtain rfl := Option.some.inj hm
      cases hidle.symm.trans hwaits
    · rwa [getElem?_modify_of_ne hkm] at hm
  constructor
  · rw [hstopped, htimer, hpumps]
    exact fun hrunning hnone m other hm hwaits =>
      h.examined hrunning hnone m other (hwaiting m other hm hwaits) hwaits
  · rw [hstopped, htimer, hclock]
    intro hrunning timer hsome other hmem hwaits
    obtain ⟨m, hm⟩ := List.mem_iff_getElem?.1 hmem
    exact h.inTime hrunning timer hsome other
      (List.mem_of_getElem? (hwaiting m other hm hwaits)) hwaits

/-- The place of a pump does not change when its write is over. -/
theorem Attended.release (h : Attended worker) {scopeKey : String} :
    Attended (worker.release i scopeKey) := by
  refine ⟨fun hrunning htimer m other hm hwaits => ?_, h.inTime⟩
  obtain ⟨examining, hmem, hnext⟩ := h.examined hrunning htimer m other hm hwaits
  obtain ⟨j, hj⟩ := List.mem_iff_getElem?.1 hmem
  dsimp only [Worker.release]
  by_cases hij : i = j
  · subst hij
    exact ⟨_, List.mem_of_getElem? (getElem?_modify_self hj), hnext⟩
  · exact ⟨examining, List.mem_of_getElem? ((getElem?_modify_of_ne hij).trans hj), hnext⟩

/-- A review is to be tried again. -/
theorem Attended.retry (h : Attended worker) (hk : worker.jobs[k]? = some job) {retryAt : ℤ}
    (hretryAt : (f job).nextAttemptAt = retryAt)
    (hserves : worker.shuttingDown = false → worker.TimerServes retryAt ∧
      (worker.timer = none → worker.ServesAll (retryAt - worker.clock))) :
    Attended ({ worker with jobs := worker.jobs.modify k f }.schedulePump
      (max 0 (retryAt - worker.clock))) := by
  have hwaiting : ∀ other ∈ worker.jobs.modify k f, other ∈ worker.jobs ∨ other = f job := by
    intro other hmem
    obtain ⟨m, hm⟩ := List.mem_iff_getElem?.1 hmem
    by_cases hkm : k = m
    · subst hkm
      rw [getElem?_modify_self hk] at hm
      exact Or.inr (Option.some.inj hm).symm
    · rw [getElem?_modify_of_ne hkm] at hm
      exact Or.inl (List.mem_of_getElem? hm)
  refine Attended.schedulePump (fun harmed => ?_) fun hrunning htimer other hmem hwaits => ?_
  · obtain ⟨timer, htimer⟩ := Option.isSome_iff_exists.1 harmed
    refine ⟨fun _ hnone => (nomatch htimer.symm.trans hnone),
      fun hrunning armed harmed other hmem hwaits => ?_⟩
    rcases hwaiting other hmem with hmem | rfl
    · exact h.inTime hrunning armed harmed other hmem hwaits
    · rw [hretryAt]
      exact (hserves hrunning).1 armed harmed
  · rcases hwaiting other hmem with hmem | rfl
    · have hother := (hserves hrunning).2 htimer other hmem hwaits
      dsimp only
      omega
    · rw [hretryAt]
      dsimp only
      omega

theorem Attended.fail (h : Attended worker) (hk : worker.jobs[k]? = some job)
    (hserves : worker.shuttingDown = false → job.attempt < job.maxAttempts →
      worker.TimerServes (nextSkillReviewRetryAt worker.clock job.attempt worker.policy) ∧
        (worker.timer = none → worker.ServesAll
          (nextSkillReviewRetryAt worker.clock job.attempt worker.policy - worker.clock))) :
    Attended (worker.fail k job) := by
  unfold Worker.fail
  split
  · exact h.modify hk rfl rfl rfl rfl rfl rfl
  · rename_i hmore
    exact h.retry hk rfl fun hrunning => hserves hrunning (Nat.lt_of_not_le hmore)

theorem Attended.step (h : Attended worker) (hattends : worker.Attends event) :
    Attended (worker.step event) := by
  cases event with
  | tick ms =>
    refine ⟨h.examined, fun hrunning timer hsome job hmem hwaits => ?_⟩
    have hle := h.inTime hrunning timer hsome job hmem hwaits
    dsimp only [Worker.step]
    omega
  | setEnabled enabled => exact ⟨h.examined, h.inTime⟩
  | stop => exact ⟨nofun, nofun⟩
  | enqueue job => exact h.enqueue fun hnew => (hattends hnew).2
  | fire =>
    dsimp only [Worker.step]
    split
    · rename_i hdue
      refine Attended.goOn ⟨fun _ _ m _ _ _ => ?_, fun _ _ hsome => (nomatch hsome)⟩
        List.getElem?_concat_length fun hrunning => ?_
      · exact ⟨_, List.mem_append_right _ (List.mem_singleton_self _), Nat.zero_le m⟩
      · dsimp only
        rw [List.eraseIdx_append_of_length_le le_rfl, Nat.sub_self, List.eraseIdx_cons_zero,
          List.append_nil]
        exact hattends hrunning hdue
    · exact h
  | settle i succeeds =>
    dsimp only [Worker.step]
    split
    · rename_i k hk
      split
      · rename_i job hjob
        refine Attended.release ?_
        cases succeeds with
        | true => exact h.modify hjob rfl rfl rfl rfl rfl rfl
        | false => exact h.fail hjob fun hrunning => hattends hrunning k hk job hjob
      · exact h
    · exact h
  | resume i =>
    dsimp only [Worker.step]
    split
    · rename_i pump hi
      split
      · rename_i hnone
        exact h.goOn hi fun hrunning =>
          hattends hrunning pump hi (Option.isNone_iff_eq_none.1 hnone)
      · exact h
    · exact h

/-! ## Attempts -/

/-- A review that waits has an attempt left. -/
def Attempted (worker : Worker) : Prop :=
  ∀ job ∈ worker.jobs, job.attempt ≤ job.maxAttempts ∧
    (job.isWaiting = true → job.attempt < job.maxAttempts)

theorem Attempted.modify (h : Attempted worker) (hk : worker.jobs[k]? = some job)
    (hjobs : worker'.jobs = worker.jobs.modify k f)
    (hf : (f job).attempt ≤ (f job).maxAttempts)
    (hwaits : (f job).isWaiting = true → (f job).attempt < (f job).maxAttempts) :
    Attempted worker' := by
  intro other hmem
  rw [hjobs] at hmem
  rcases mem_modify hmem with hmem | ⟨old, hold, rfl⟩
  · exact h other hmem
  · rw [hk] at hold
    obtain rfl := Option.some.inj hold
    exact ⟨hf, hwaits⟩

theorem Attempted.goOn (h : Attempted worker) : Attempted (worker.goOn i pump) := by
  rcases Worker.goOn_cases worker i pump with ⟨k, job, nextDelay, -, hk, hclaims, -, heq⟩ | ⟨-, heq⟩
  · obtain ⟨-, -, hwaiting, -⟩ := Worker.claims_iff.1 hclaims
    have hlt := (h job (List.mem_of_getElem? hk)).2 hwaiting
    rw [heq]
    exact h.modify hk rfl hlt nofun
  · obtain ⟨timer, hended⟩ := Worker.ended_eq worker i
      (Worker.notes pump (worker.jobs.drop pump.next) pump.nextDelay)
    rw [heq, hended]
    exact h

theorem Attempted.fail (h : Attempted worker) (hk : worker.jobs[k]? = some job) :
    Attempted (worker.fail k job) := by
  have hle := (h job (List.mem_of_getElem? hk)).1
  unfold Worker.fail
  split
  · exact h.modify hk rfl hle nofun
  · rename_i hmore
    obtain ⟨timer, heq⟩ := Worker.schedulePump_eq
      { worker with
        jobs := worker.jobs.modify k fun other =>
          { other with
            state := .retryWait
            nextAttemptAt := nextSkillReviewRetryAt worker.clock job.attempt worker.policy
            updatedAt := worker.clock } }
      (max 0 (nextSkillReviewRetryAt worker.clock job.attempt worker.policy - worker.clock))
    dsimp only
    rw [heq]
    exact h.modify hk rfl hle fun _ => Nat.lt_of_not_le hmore

theorem Attempted.step (h : Attempted worker) (hattends : worker.Attends event) :
    Attempted (worker.step event) := by
  cases event with
  | tick ms => exact h
  | setEnabled enabled => exact h
  | stop => exact h
  | enqueue job =>
    dsimp only [Worker.step, Worker.enqueue]
    obtain ⟨timer, heq⟩ := Worker.schedulePump_eq (worker.addJob job) 0
    rw [heq]
    rcases Worker.addJob_cases worker job with hadd | ⟨hnew, hadd⟩
    · rw [hadd]
      exact h
    · rw [hadd]
      intro other hmem
      rcases List.mem_append.1 hmem with hmem | hmem
      · exact h other hmem
      · rw [List.mem_singleton.1 hmem]
        exact ⟨Nat.zero_le _, fun _ => (hattends hnew).1⟩
  | fire =>
    dsimp only [Worker.step]
    split
    · exact Attempted.goOn h
    · exact h
  | settle i succeeds =>
    dsimp only [Worker.step]
    split
    · rename_i k _
      split
      · rename_i job hjob
        cases succeeds with
        | true => exact h.modify hjob rfl (h job (List.mem_of_getElem? hjob)).1 nofun
        | false => exact h.fail hjob
      · exact h
    · exact h
  | resume i =>
    dsimp only [Worker.step]
    split
    · split
      · exact h.goOn
      · exact h
    · exact h

/-- **No review is stranded** over every run that attends to those that wait. -/
theorem notStranded_of_along (policy : SkillReviewSchedulerPolicy) (clock : ℤ)
    (events : List WorkerEvent)
    (hattends : Along Worker.step Worker.Attends events (Worker.start policy clock)) :
    NotStranded (run Worker.step events (Worker.start policy clock)) := by
  obtain ⟨hcons, hattended, hattempted⟩ := run_invariant
    (fun worker : Worker => worker.Consistent ∧ Attended worker ∧ Attempted worker)
    (fun worker event h hok => ⟨h.1.step, h.2.1.step hok, h.2.2.step hok⟩)
    ⟨Worker.consistent_start, ⟨nofun, nofun⟩, nofun⟩ hattends
  refine ⟨fun _ hrunning k job hk hwaits => ?_, fun _ => hattended.inTime,
    fun job hmem => (hattempted job hmem).1, fun scopeKey => ?_⟩
  · cases htimer : (run Worker.step events (Worker.start policy clock)).timer with
    | none => exact Or.inl (hattended.examined hrunning htimer k job hk hwaits)
    | some timer => exact Or.inr rfl
  · rw [hcons.count]
    exact hcons.room scopeKey

/-! ## A new review behind another try -/

section Decidable

variable {others : List Pump}

instance : Decidable (worker.LeavesToOthers pump others) := by
  unfold Worker.LeavesToOthers Worker.Passes
  infer_instance

instance : Decidable (worker.GoesOnWell pump others) := by
  unfold Worker.GoesOnWell Worker.Ends Worker.ServesAll
  infer_instance

instance : DecidablePred worker.Attends := fun event => by
  unfold Worker.Attends Worker.TimerServes Worker.ServesAll
  cases event with
  | settle i succeeds => cases succeeds <;> infer_instance
  | _ => infer_instance

end Decidable

/-- A review fails, and is tried again in time. -/
def triedAgain : List WorkerEvent :=
  [.enqueue (admitted "first" 1), .fire, .settle 0 false, .resume 0, .tick 120000, .fire,
    .settle 0 true, .resume 0]

theorem notStranded_of_along_triedAgain :
    NotStranded (run Worker.step triedAgain (Worker.start {} 1)) :=
  notStranded_of_along {} 1 triedAgain (by decide +kernel)

/-- A review fails, and another one is enqueued while the timer waits for its second try. -/
def enqueuedBehind : List WorkerEvent :=
  [.enqueue (admitted "first" 1), .fire, .settle 0 false, .resume 0,
    .enqueue (admitted "second" 1)]

/-- The second review is due, and nothing looks at it for two minutes. -/
theorem not_notStranded : ¬∀ (policy : SkillReviewSchedulerPolicy) (clock : ℤ)
    (events : List WorkerEvent),
    NotStranded (run Worker.step events (Worker.start policy clock)) := by
  intro h
  have hinTime := (h {} 1 enqueuedBehind).inTime rfl rfl
  have htimer : (run Worker.step enqueuedBehind (Worker.start {} 1)).timer = some 120001 := by
    decide +kernel
  have hclock : (run Worker.step enqueuedBehind (Worker.start {} 1)).clock = 1 := by
    decide +kernel
  have hwaits : (admitted "second" 1).stored ∈
      (run Worker.step enqueuedBehind (Worker.start {} 1)).jobs := by
    decide +kernel
  have hle := hinTime 120001 htimer _ hwaits rfl
  rw [hclock] at hle
  exact absurd hle (by decide)

end Imcodes.SkillReview
