import Imcodes.Collections.Modify
import Imcodes.GitStatus.Pool

/-!
# No job of the git status is lost, duplicated or crossed

* `pumpSlots_spec` — what a pump keeps, also when posts fail on its way.
* `Orderly.step` — every event keeps the books and the slots in order.
* `dispatched_step` — the jobs are the dispatches, and no other event makes or unmakes one.
* `pool_run` — in every run each job is at one place, and settled at most once, by its own answer;
  a slot works or is started again later; and nothing waits while a slot is idle.
-/

namespace Imcodes.GitStatus

open Machine

/-! ## Jobs -/

/-- Every dispatch is settled, queued or active, and only once; what was posted carries the inputs
of the dispatches, under names that are not used twice; and only an answer under such a name
fulfils a promise. -/
structure Booked (jobs : Jobs) (active : List ActiveJob) : Prop where
  once : ∀ job, (jobs.settled.map Prod.fst).count job + (jobs.queue.map (·.job)).count job +
    (active.map (·.job)).count job = if job < jobs.dispatched.length then 1 else 0
  queued : ∀ q ∈ jobs.queue, jobs.dispatched[q.job]? = some q.input
  own : ∀ entry ∈ jobs.posted, jobs.dispatched[entry.1]? = some entry.2.input ∧
    entry.2.identity.workerRequestId < jobs.nextWorkerRequestId
  identities : (jobs.posted.map (·.2.identity.workerRequestId)).Nodup
  posted : ∀ a ∈ active, (a.job, withFsGitStatusWorkerIdentity a.input a.identity) ∈ jobs.posted
  fulfilled : ∀ job message, (job, .fulfilled message) ∈ jobs.settled →
    ∃ request, (job, request) ∈ jobs.posted ∧ request.identity = message.identity

namespace Booked

variable {jobs : Jobs} {active active' rest : List ActiveJob} {a : ActiveJob} {q : QueuedJob}
variable {outcome : Outcome} {input : FsGitStatusBuildJobInput}

theorem empty : Booked {} [] where
  once _ := rfl
  queued _ h := nomatch h
  own _ h := nomatch h
  identities := List.nodup_nil
  posted _ h := nomatch h
  fulfilled _ _ h := nomatch h

theorem perm (h : Booked jobs active) (hperm : active.Perm active') : Booked jobs active' :=
  { h with
    once := fun job => by rw [← (hperm.map _).count_eq, h.once]
    posted := fun a ha => h.posted a (hperm.mem_iff.2 ha) }

/-- An active job is settled, by its own answer if by any. -/
theorem settle (h : Booked jobs (a :: rest))
    (hown : ∀ message, outcome = .fulfilled message → a.identity = message.identity) :
    Booked (jobs.settle a.job outcome) rest :=
  { queued := h.queued
    own := h.own
    identities := h.identities
    once := fun job => by
      refine Eq.trans ?_ (h.once job)
      simp only [Jobs.settle, List.map_append, List.count_append, List.map_cons,
        List.map_nil, List.count_cons, List.count_nil]
      omega
    posted := fun b hb => h.posted b (List.mem_cons_of_mem _ hb)
    fulfilled := fun job message hmem => by
      rcases List.mem_append.1 hmem with hmem | hmem
      · exact h.fulfilled job message hmem
      · obtain ⟨rfl, rfl⟩ := Prod.mk.inj (List.mem_singleton.1 hmem)
        exact ⟨_, h.posted a List.mem_cons_self, hown message rfl⟩ }

/-- A queued job is rejected. -/
theorem reject {queue : List QueuedJob} (h : Booked { jobs with queue := q :: queue } active)
    (reason : FsGitStatusPoolErrorReason) :
    Booked { jobs.settle q.job (.rejected reason) with queue } active :=
  { own := h.own
    identities := h.identities
    posted := h.posted
    once := fun job => by
      refine Eq.trans ?_ (h.once job)
      simp only [Jobs.settle, List.map_append, List.count_append, List.map_cons,
        List.map_nil, List.count_cons, List.count_nil]
      omega
    queued := fun q' hq' => h.queued q' (List.mem_cons_of_mem _ hq')
    fulfilled := fun job message hmem => by
      rcases List.mem_append.1 hmem with hmem | hmem
      · exact h.fulfilled job message hmem
      · cases List.mem_singleton.1 hmem }

/-- A queued job is posted under the next name. -/
theorem post {queue : List QueuedJob} (h : Booked { jobs with queue := q :: queue } rest)
    (hactive : a.toQueuedJob = q)
    (hidentity : a.identity.workerRequestId = jobs.nextWorkerRequestId) :
    Booked { jobs with
      queue
      nextWorkerRequestId := jobs.nextWorkerRequestId + 1
      posted := jobs.posted ++ [(q.job, withFsGitStatusWorkerIdentity q.input a.identity)] }
      (a :: rest) := by
  subst hactive
  exact
    { once := fun job => by
        refine Eq.trans ?_ (h.once job)
        simp only [List.map_cons, List.count_cons]
        omega
      queued := fun q' hq' => h.queued q' (List.mem_cons_of_mem _ hq')
      own := fun entry hentry => by
        rcases List.mem_append.1 hentry with hentry | hentry
        · exact ⟨(h.own entry hentry).1, Nat.lt_succ_of_lt (h.own entry hentry).2⟩
        · rw [List.mem_singleton.1 hentry]
          exact ⟨h.queued _ List.mem_cons_self, hidentity ▸ Nat.lt_succ_self _⟩
      identities := by
        rw [List.map_append, List.map_singleton]
        refine List.nodup_append.2 ⟨h.identities, List.nodup_singleton _, ?_⟩
        rintro id hid id' hid' rfl
        obtain ⟨entry, hentry, rfl⟩ := List.mem_map.1 hid
        have hlt := (h.own entry hentry).2
        rw [List.mem_singleton.1 hid'] at hlt
        exact absurd hlt (hidentity ▸ lt_irrefl _)
      posted := fun b hb => by
        rcases List.mem_cons.1 hb with rfl | hb
        · exact List.mem_append_right _ (List.mem_singleton_self _)
        · exact List.mem_append_left _ (h.posted b hb)
      fulfilled := fun job message hmem => by
        obtain ⟨request, hrequest, heq⟩ := h.fulfilled job message hmem
        exact ⟨request, List.mem_append_left _ hrequest, heq⟩ }

/-- A name that is used up without a post. -/
theorem skip (h : Booked jobs active) :
    Booked { jobs with nextWorkerRequestId := jobs.nextWorkerRequestId + 1 } active :=
  { h with own := fun entry hentry =>
      ⟨(h.own entry hentry).1, Nat.lt_succ_of_lt (h.own entry hentry).2⟩ }

theorem getElem?_concat {dispatched : List FsGitStatusBuildJobInput} {job : ℕ}
    {own : FsGitStatusBuildJobInput} (h : dispatched[job]? = some own) :
    (dispatched ++ [input])[job]? = some own := by
  rw [List.getElem?_append_left (List.getElem?_eq_some_iff.1 h).1, h]

theorem once_concat {job length count : ℕ} (h : count = if job < length then 1 else 0) :
    count + (if length = job then 1 else 0) = if job < length + 1 then 1 else 0 := by
  subst h
  split_ifs <;> omega

/-- A dispatch that throws. -/
theorem refuse (h : Booked jobs active) (reason : FsGitStatusPoolErrorReason) :
    Booked (jobs.refuse input reason) active :=
  { identities := h.identities
    posted := h.posted
    once := fun job => by
      have hone := once_concat (h.once job)
      simp only [Jobs.refuse, List.map_append, List.count_append, List.map_cons, List.map_nil,
        List.count_cons, List.count_nil, List.length_append, List.length_cons, List.length_nil,
        beq_iff_eq, Nat.zero_add]
      omega
    queued := fun q hq => getElem?_concat (h.queued q hq)
    own := fun entry hentry =>
      ⟨getElem?_concat (h.own entry hentry).1, (h.own entry hentry).2⟩
    fulfilled := fun job message hmem => by
      rcases List.mem_append.1 hmem with hmem | hmem
      · exact h.fulfilled job message hmem
      · cases List.mem_singleton.1 hmem }

theorem push (h : Booked jobs active) (deadlineAt : Option ℤ) :
    Booked (jobs.push input deadlineAt) active :=
  { identities := h.identities
    posted := h.posted
    fulfilled := h.fulfilled
    once := fun job => by
      have hone := once_concat (h.once job)
      simp only [Jobs.push, List.map_append, List.count_append, List.map_cons, List.map_nil,
        List.count_cons, List.count_nil, List.length_append, List.length_cons, List.length_nil,
        beq_iff_eq, Nat.zero_add]
      omega
    queued := fun q hq => by
      rcases List.mem_append.1 hq with hq | hq
      · exact getElem?_concat (h.queued q hq)
      · rw [List.mem_singleton.1 hq]
        exact List.getElem?_concat_length
    own := fun entry hentry =>
      ⟨getElem?_concat (h.own entry hentry).1, (h.own entry hentry).2⟩ }

/-- All that is queued or active is rejected. -/
theorem rejectAll (h : Booked jobs active) (reason : FsGitStatusPoolErrorReason) :
    Booked { jobs with
      queue := []
      settled := jobs.settled ++ (jobs.queue.map (·.job) ++ active.map (·.job)).map
        fun job => (job, .rejected reason) } [] :=
  { identities := h.identities
    own := h.own
    posted := fun _ h => nomatch h
    queued := fun _ h => nomatch h
    once := fun job => by
      refine Eq.trans ?_ (h.once job)
      rw [List.map_append, List.map_map, List.count_append,
        show Prod.fst ∘ (fun job => (job, Outcome.rejected reason)) = id from rfl, List.map_id,
        List.count_append]
      simp only [List.map_nil, List.count_nil]
      omega
    fulfilled := fun job message hmem => by
      rcases List.mem_append.1 hmem with hmem | hmem
      · exact h.fulfilled job message hmem
      · obtain ⟨_, _, heq⟩ := List.mem_map.1 hmem
        cases heq }

/-- The jobs before the one that is taken are rejected. -/
theorem takeLive (now : ℚ) {queue : List QueuedJob}
    (h : Booked { jobs with queue } active) :
    match Jobs.takeLive now queue jobs with
    | (none, jobs') => Booked jobs' active ∧ jobs'.queue = []
    | (some q, jobs') => Booked { jobs' with queue := q :: jobs'.queue } active := by
  induction queue generalizing jobs with
  | nil => exact ⟨h, rfl⟩
  | cons q queue ih =>
    rw [Jobs.takeLive]
    split_ifs
    · exact ih (h.reject .timeout)
    · exact h

end Booked

/-! ## Slots -/

/-- A slot is idle with a worker, busy with a job, or will be started again. -/
def WorkerSlot.IsManned (slot : WorkerSlot) : Prop :=
  slot.stopping = false ∧
    match slot.state with
    | .idle => slot.worker.isSome ∧ slot.currentJob = none ∧ slot.restartTimer = none
    | .busy => slot.worker.isSome ∧ slot.currentJob.isSome ∧ slot.restartTimer = none
    | .restarting | .dead =>
      slot.worker = none ∧ slot.currentJob = none ∧ slot.restartTimer.isSome

/-- The jobs that are active in the slots. -/
def activeJobs (slots : List WorkerSlot) : List ActiveJob :=
  slots.filterMap (·.currentJob)

section Slots

variable {slot : WorkerSlot} {slots rest : List WorkerSlot} {jobs : Jobs} {other : List ActiveJob}
variable {now : ℚ} {host : Host} {pool : FsGitStatusWorkerPool}

theorem WorkerSlot.IsManned.currentJob_eq_none (h : slot.IsManned) (hstate : slot.state ≠ .busy) :
    slot.currentJob = none := by
  obtain ⟨-, h⟩ := h
  revert h
  cases hs : slot.state with
  | busy => exact absurd hs hstate
  | idle => exact fun h => h.2.1
  | restarting => exact fun h => h.2.1
  | dead => exact fun h => h.2.1

theorem WorkerSlot.IsManned.of_currentJob {active : ActiveJob} (h : slot.IsManned)
    (hjob : slot.currentJob = some active) :
    slot.state = .busy ∧ slot.worker.isSome ∧ slot.restartTimer = none := by
  by_cases hstate : slot.state = .busy
  · have hbusy := h.2
    simp only [hstate] at hbusy
    exact ⟨hstate, hbusy.1, hbusy.2.2⟩
  · rw [h.currentJob_eq_none hstate] at hjob
    cases hjob

theorem activeJobs_cons :
    activeJobs (slot :: slots) = slot.currentJob.toList ++ activeJobs slots := by
  rw [activeJobs, List.filterMap_cons]
  cases slot.currentJob <;> rfl

theorem perm_activeJobs_cons : (activeJobs (slot :: slots) ++ other).Perm
    (activeJobs slots ++ (slot.currentJob.toList ++ other)) := by
  rw [activeJobs_cons, List.append_assoc]
  exact List.perm_append_comm_assoc _ _ _

/-- A slot that was let go is started again later. -/
theorem isManned_scheduleRestart {shuttingDown : Bool} {restartBackoffMs : ℤ}
    (hopen : shuttingDown = false) (hstate : slot.state = .restarting ∨ slot.state = .dead)
    (hworker : slot.worker = none) (hjob : slot.currentJob = none)
    (hstopping : slot.stopping = false) :
    (slot.scheduleRestart shuttingDown restartBackoffMs).IsManned := by
  unfold WorkerSlot.scheduleRestart
  by_cases htimer : slot.restartTimer.isSome
  · rw [if_pos (by simp [htimer])]
    refine ⟨hstopping, ?_⟩
    rcases hstate with hs | hs
    all_goals rw [hs]
    all_goals exact ⟨hworker, hjob, htimer⟩
  · rw [if_neg (by simp [hopen, hstopping, htimer])]
    refine ⟨hstopping, ?_⟩
    rcases hstate with hs | hs
    all_goals dsimp only
    all_goals rw [hs]
    all_goals exact ⟨hworker, hjob, rfl⟩

@[simp] theorem currentJob_scheduleRestart {shuttingDown : Bool} {restartBackoffMs : ℤ} :
    (slot.scheduleRestart shuttingDown restartBackoffMs).currentJob = slot.currentJob := by
  unfold WorkerSlot.scheduleRestart
  split <;> rfl

@[simp] theorem state_scheduleRestart {shuttingDown : Bool} {restartBackoffMs : ℤ} :
    (slot.scheduleRestart shuttingDown restartBackoffMs).state = slot.state := by
  unfold WorkerSlot.scheduleRestart
  split <;> rfl

theorem armActiveTimeout_spec (now : ℚ) (activeJobTimeoutMs : Option ℤ) (active : ActiveJob) :
    (armActiveTimeout activeJobTimeoutMs now active).toQueuedJob = active.toQueuedJob ∧
      (armActiveTimeout activeJobTimeoutMs now active).identity = active.identity := by
  unfold armActiveTimeout
  dsimp only
  split
  · exact ⟨rfl, rfl⟩
  · exact ⟨rfl, rfl⟩

/-- The pump keeps the books and the slots, and leaves no job behind while a slot is idle. -/
theorem pumpSlots_spec (hopen : pool.shuttingDown = false) (hmanned : ∀ s ∈ slots, s.IsManned)
    (h : Booked jobs (activeJobs slots ++ other)) :
    Booked (pool.pumpSlots host now slots jobs).2
        (activeJobs (pool.pumpSlots host now slots jobs).1 ++ other) ∧
      (∀ s ∈ (pool.pumpSlots host now slots jobs).1, s.IsManned) ∧
      ((pool.pumpSlots host now slots jobs).2.queue ≠ [] →
        ∀ s ∈ (pool.pumpSlots host now slots jobs).1, s.state ≠ .idle) := by
  induction slots generalizing jobs other with
  | nil => exact ⟨h, hmanned, fun _ s hs => nomatch hs⟩
  | cons slot slots ih =>
    have hslot := hmanned slot List.mem_cons_self
    have hrest : ∀ s ∈ slots, s.IsManned := fun s hs => hmanned s (List.mem_cons_of_mem _ hs)
    -- What a slot that is done with adds to the rest.
    have hcons : ∀ (slot' : WorkerSlot) (jobs' : Jobs), slot'.IsManned → slot'.state ≠ .idle →
        Booked jobs' (activeJobs slots ++ (slot'.currentJob.toList ++ other)) →
        Booked (pool.pumpSlots host now slots jobs').2
            (activeJobs (slot' :: (pool.pumpSlots host now slots jobs').1) ++ other) ∧
          (∀ s ∈ slot' :: (pool.pumpSlots host now slots jobs').1, s.IsManned) ∧
          ((pool.pumpSlots host now slots jobs').2.queue ≠ [] →
            ∀ s ∈ slot' :: (pool.pumpSlots host now slots jobs').1, s.state ≠ .idle) := by
      intro slot' jobs' hslot' hidle hbooked
      obtain ⟨hb, hm, hq⟩ := ih hrest hbooked
      exact ⟨hb.perm perm_activeJobs_cons.symm, List.forall_mem_cons.2 ⟨hslot', hm⟩,
        fun hne => List.forall_mem_cons.2 ⟨hidle, hq hne⟩⟩
    have hbooked := h.perm perm_activeJobs_cons
    unfold FsGitStatusWorkerPool.pumpSlots
    by_cases hskip : slot.state ≠ .idle ∨ slot.worker = none ∨ slot.currentJob.isSome
    · rw [if_pos hskip]
      refine hcons slot jobs hslot (fun hidle => ?_) hbooked
      have hready := hslot.2
      simp only [hidle] at hready
      rcases hskip with hskip | hskip | hskip
      · exact hskip hidle
      · rw [hskip] at hready
        exact absurd hready.1 (by simp)
      · rw [hready.2.1] at hskip
        exact absurd hskip (by simp)
    · rw [if_neg hskip]
      simp only [not_or, not_not, Bool.not_eq_true] at hskip
      obtain ⟨hidle, -, hjob⟩ := hskip
      have hnone : slot.currentJob = none := Option.not_isSome_iff_eq_none.1 (by simp [hjob])
      rw [hnone, Option.toList_none, List.nil_append] at hbooked
      have htaken := hbooked.takeLive now
      cases htake : jobs.takeNextLiveJob now with
      | mk taken jobs' =>
        rw [Jobs.takeNextLiveJob] at htake
        rw [htake] at htaken
        cases taken with
        | none =>
          refine ⟨htaken.1.perm ?_, hmanned, fun hne => absurd htaken.2 hne⟩
          rw [activeJobs_cons, hnone]
          exact List.Perm.refl _
        | some queued =>
          obtain ⟨hjob', hidentity⟩ := armActiveTimeout_spec now pool.activeJobTimeoutMs
            { queued with
              identity :=
                { workerRequestId := jobs'.nextWorkerRequestId
                  workerSlotId := slot.slotId
                  workerGeneration := slot.generation }
              timeoutTimer := none }
          dsimp only
          split
          · refine hcons _ _ ?_ (by simp) ?_
            · have hready := hslot.2
              simp only [hidle] at hready
              exact ⟨hslot.1, hready.1, rfl, hready.2.2⟩
            · have hposted := htaken.post hjob' (by rw [hidentity])
              rw [hidentity] at hposted
              refine hposted.perm ?_
              exact (@List.perm_middle _ _ (activeJobs slots) _).symm
          · refine hcons _ _ (isManned_scheduleRestart hopen (Or.inl rfl) rfl rfl hslot.1)
              (by simp) ?_
            rw [currentJob_scheduleRestart]
            exact @Booked.reject
              { jobs' with nextWorkerRequestId := jobs'.nextWorkerRequestId + 1 } _ queued
              jobs'.queue htaken.skip .unavailable

/-! ## Runs -/

/-- The jobs are booked, and until the shutdown every slot is manned and none is idle while a job
waits. -/
structure Orderly (pool : FsGitStatusWorkerPool) : Prop where
  booked : Booked pool.jobs (activeJobs pool.slots)
  manned : pool.shuttingDown = false → ∀ slot ∈ pool.slots, slot.IsManned
  served : pool.shuttingDown = false → pool.jobs.queue ≠ [] → ∀ slot ∈ pool.slots,
    slot.state ≠ .idle
  closed : pool.shuttingDown = true → pool.jobs.queue = [] ∧ ∀ slot ∈ pool.slots,
    slot.state = .dead ∧ slot.worker = none ∧ slot.currentJob = none

namespace Orderly

open FsGitStatusWorkerPool

variable {pool : FsGitStatusWorkerPool} {host : Host} {now : ℚ} {slot slot' : WorkerSlot}
variable {rest : List WorkerSlot} {index generation : ℕ}

theorem new (options : FsGitStatusWorkerPoolOptions) : Orderly (.new options) where
  booked := .empty
  manned _ _ h := nomatch h
  served _ h := absurd rfl h
  closed h := nomatch h

theorem pump (hopen : pool.shuttingDown = false)
    (hbooked : Booked pool.jobs (activeJobs pool.slots))
    (hmanned : ∀ slot ∈ pool.slots, slot.IsManned) : Orderly (pool.pump host now) := by
  rw [← List.append_nil (activeJobs _)] at hbooked
  obtain ⟨hb, hm, hq⟩ := @pumpSlots_spec _ _ _ now host pool hopen hmanned hbooked
  rw [FsGitStatusWorkerPool.pump, if_neg (by simp [hopen])]
  exact
    { booked := by rwa [List.append_nil] at hb
      manned := fun _ => hm
      served := fun _ => hq
      closed := fun h => absurd (hopen.symm.trans h) (by decide) }

/-- Another slot takes the place of one. -/
theorem of_perm (hopen : pool.shuttingDown = false) (hperm : pool.slots.Perm (slot :: rest))
    (hbooked : Booked pool.jobs (slot.currentJob.toList ++ activeJobs rest))
    (hslot : slot.IsManned) (hidle : slot.state ≠ .idle) (hrest : ∀ s ∈ rest, s.IsManned)
    (hserved : pool.jobs.queue ≠ [] → ∀ s ∈ rest, s.state ≠ .idle) : Orderly pool where
  booked := by
    refine hbooked.perm ?_
    rw [← activeJobs_cons]
    exact (hperm.filterMap _).symm
  manned _ s hs := by
    rcases List.mem_cons.1 (hperm.mem_iff.1 hs) with rfl | hs
    · exact hslot
    · exact hrest s hs
  served _ hne s hs := by
    rcases List.mem_cons.1 (hperm.mem_iff.1 hs) with rfl | hs
    · exact hidle
    · exact hserved hne s hs
  closed h := absurd (hopen.symm.trans h) (by decide)

/-- A slot without a job gets another worker, or will be started again. -/
theorem startSlot (hopen : pool.shuttingDown = false)
    (hset : ∀ s, (pool.slots.set index s).Perm (s :: rest))
    (hbooked : Booked pool.jobs (activeJobs rest)) (hjob : slot.currentJob = none)
    (hrest : ∀ s ∈ rest, s.IsManned)
    (hserved : pool.jobs.queue ≠ [] → ∀ s ∈ rest, s.state ≠ .idle) :
    Orderly (pool.startSlot host now index slot) := by
  rw [FsGitStatusWorkerPool.startSlot, if_neg (by simp [hopen])]
  dsimp only
  split
  · refine pump hopen (hbooked.perm ?_) fun s hs => ?_
    · refine List.Perm.trans ?_ ((hset _).filterMap _).symm
      rw [List.filterMap_cons_none (by exact hjob)]
      exact List.Perm.refl _
    · rcases List.mem_cons.1 ((hset _).mem_iff.1 hs) with rfl | hs
      · exact ⟨rfl, rfl, hjob, rfl⟩
      · exact hrest s hs
  · refine of_perm hopen (hset _) ?_ ?_ (by simp) hrest hserved
    · rw [currentJob_scheduleRestart]
      dsimp only
      rwa [hjob]
    · exact isManned_scheduleRestart hopen (Or.inr rfl) rfl hjob rfl
/-- What the other slots keep while something happens at one. -/
theorem others (h : Orderly pool) (hopen : pool.shuttingDown = false)
    (hslot : pool.slots[index]? = some slot) : ∃ rest : List WorkerSlot,
      (∀ s, (pool.slots.set index s).Perm (s :: rest)) ∧
      Booked pool.jobs (slot.currentJob.toList ++ activeJobs rest) ∧ slot.IsManned ∧
      (∀ s ∈ rest, s.IsManned) ∧ (pool.jobs.queue ≠ [] → ∀ s ∈ rest, s.state ≠ .idle) := by
  obtain ⟨rest, hperm, hset⟩ := Modify.exists_perm_set hslot
  refine ⟨rest, hset, ?_, h.manned hopen slot (List.mem_of_getElem? hslot), fun s hs => ?_,
    fun hne s hs => ?_⟩
  · rw [← activeJobs_cons]
    exact h.booked.perm (hperm.filterMap _)
  · exact h.manned hopen s (hperm.mem_iff.2 (List.mem_cons_of_mem _ hs))
  · exact h.served hopen hne s (hperm.mem_iff.2 (List.mem_cons_of_mem _ hs))

@[simp] theorem shuttingDown_pump :
    (pool.pump host now).shuttingDown = pool.shuttingDown := by
  unfold FsGitStatusWorkerPool.pump
  split <;> rfl

@[simp] theorem shuttingDown_startSlot :
    (pool.startSlot host now index slot).shuttingDown = pool.shuttingDown := by
  unfold FsGitStatusWorkerPool.startSlot
  dsimp only
  split_ifs
  · rfl
  · rw [shuttingDown_pump]
    rfl
  · rfl

theorem addSlot (h : Orderly pool) (hopen : pool.shuttingDown = false) :
    Orderly (pool.addSlot host now) ∧ (pool.addSlot host now).shuttingDown = false := by
  refine ⟨?_, by rw [FsGitStatusWorkerPool.addSlot, shuttingDown_startSlot, hopen]⟩
  rw [FsGitStatusWorkerPool.addSlot]
  refine startSlot hopen (fun s => ?_) h.booked rfl (h.manned hopen) (h.served hopen)
  dsimp only
  rw [List.set_append_right _ _ (le_refl _), Nat.sub_self]
  exact List.perm_append_singleton s pool.slots

theorem ensureStarted (h : Orderly pool) (hopen : pool.shuttingDown = false) :
    Orderly (pool.ensureStarted host now) ∧
      (pool.ensureStarted host now).shuttingDown = false := by
  unfold FsGitStatusWorkerPool.ensureStarted
  split
  · exact ⟨h, hopen⟩
  · have hstarted : Orderly { pool with started := true } := { h with }
    exact Function.Iterate.rec
      (fun pool : FsGitStatusWorkerPool => Orderly pool ∧ pool.shuttingDown = false)
      ⟨hstarted, hopen⟩ (fun pool hp => @addSlot pool host now hp.1 hp.2) _

theorem refuse (h : Orderly pool) (input : FsGitStatusBuildJobInput)
    (reason : FsGitStatusPoolErrorReason) :
    Orderly { pool with jobs := pool.jobs.refuse input reason } :=
  { h with booked := h.booked.refuse reason }

theorem dispatch (h : Orderly pool) (input : FsGitStatusBuildJobInput) (deadlineAt : Option ℚ) :
    Orderly (pool.dispatch host now input deadlineAt) := by
  unfold FsGitStatusWorkerPool.dispatch
  dsimp only
  split
  · exact h.refuse input _
  rename_i hopen
  rw [Bool.not_eq_true] at hopen
  split
  · exact h.refuse input _
  obtain ⟨hstarted, hopen'⟩ := @ensureStarted pool host now h hopen
  split
  · exact hstarted.refuse input _
  · exact pump hopen' (hstarted.booked.push _) (hstarted.manned hopen')

theorem stale (h : Orderly pool) (message : FsGitStatusWorkerResult) (reason : StaleReason) :
    Orderly (pool.recordStaleResultDropped slot generation message reason) :=
  { h with }

/-- After the shutdown a slot has no job. -/
theorem handleWorkerMessage (h : Orderly pool) (hslot : pool.slots[index]? = some slot)
    (message : FsGitStatusWorkerResult) :
    Orderly (pool.handleWorkerMessage host now index slot generation message) := by
  unfold FsGitStatusWorkerPool.handleWorkerMessage
  split
  · exact h.stale message _
  rename_i hlive
  split
  · exact h.stale message _
  rename_i active hactive
  split
  · rename_i hown
    have hopen : pool.shuttingDown = false := by
      by_contra hclosed
      have hdead := (h.closed (Bool.not_eq_false _ ▸ hclosed)).2 slot (List.mem_of_getElem? hslot)
      exact hlive (Or.inr hdead.1)
    obtain ⟨rest, hset, hbooked, hmanned, hrest, -⟩ := h.others hopen hslot
    rw [hactive] at hbooked
    refine pump hopen ((hbooked.settle fun message' heq => ?_).perm ?_) fun s hs => ?_
    · revert heq
      split
      · intro heq
        rw [← Outcome.fulfilled.inj heq]
        exact (of_decide_eq_true hown).symm
      · nofun
    · refine List.Perm.trans ?_ ((hset _).filterMap _).symm
      exact List.Perm.refl _
    · rcases List.mem_cons.1 ((hset _).mem_iff.1 hs) with rfl | hs
      · obtain ⟨-, hworker, htimer⟩ := hmanned.of_currentJob hactive
        exact ⟨hmanned.1, hworker, rfl, htimer⟩
      · exact hrest s hs
  · exact h.stale message _

/-- A slot that lost its worker is started again. -/
theorem letGo (h : Orderly pool) (hopen : pool.shuttingDown = false)
    (hslot : pool.slots[index]? = some slot) {jobs : Jobs}
    (hjobs : ∀ rest : List ActiveJob, Booked pool.jobs (slot.currentJob.toList ++ rest) →
      Booked jobs rest) (hqueue : jobs.queue = pool.jobs.queue)
    (hstate : slot'.state = .restarting) (hworker : slot'.worker = none)
    (hjob : slot'.currentJob = none) (hstopping : slot'.stopping = false) :
    Orderly ({ pool with jobs }.setSlot index
      (slot'.scheduleRestart pool.shuttingDown pool.restartBackoffMs)) := by
  obtain ⟨rest, hset, hbooked, -, hrest, hserved⟩ := h.others hopen hslot
  refine of_perm hopen (hset _) ?_ ?_ ?_ hrest (hqueue ▸ hserved)
  · rw [currentJob_scheduleRestart, hjob]
    exact hjobs _ hbooked
  · exact isManned_scheduleRestart hopen (Or.inl hstate) hworker hjob hstopping
  · rw [state_scheduleRestart, hstate]
    decide

theorem handleWorkerFailure (h : Orderly pool) (hopen : pool.shuttingDown = false)
    (hslot : pool.slots[index]? = some slot) :
    Orderly (pool.handleWorkerFailure index slot generation) := by
  unfold FsGitStatusWorkerPool.handleWorkerFailure
  split
  · exact h
  rename_i hcurrent
  have hstopping := (h.manned hopen slot (List.mem_of_getElem? hslot)).1
  refine h.letGo hopen hslot (fun rest hbooked => ?_) ?_ rfl rfl rfl hstopping
  · cases hjob : slot.currentJob with
    | none => rwa [hjob] at hbooked
    | some active =>
      rw [hjob] at hbooked
      exact hbooked.settle nofun
  · cases slot.currentJob <;> rfl

/-- A slot with a worker, or with a job, is one of a pool that is not shut down. -/
theorem open_of_slot (h : Orderly pool) (hslot : pool.slots[index]? = some slot)
    (hlive : slot.worker ≠ none ∨ slot.currentJob ≠ none) : pool.shuttingDown = false := by
  by_contra hclosed
  obtain ⟨-, hworker, hjob⟩ :=
    (h.closed (Bool.not_eq_false _ ▸ hclosed)).2 slot (List.mem_of_getElem? hslot)
  exact hlive.elim (fun hne => hne hworker) fun hne => hne hjob

theorem onError (h : Orderly pool) (hslot : pool.slots[index]? = some slot) :
    Orderly (pool.onError index slot generation) := by
  unfold FsGitStatusWorkerPool.onError
  split
  · exact h
  · rename_i hworker
    refine h.handleWorkerFailure (h.open_of_slot hslot (Or.inl ?_)) hslot
    rw [not_not.1 hworker]
    nofun

theorem onExit (h : Orderly pool) (hslot : pool.slots[index]? = some slot) :
    Orderly (pool.onExit index slot generation) := by
  unfold FsGitStatusWorkerPool.onExit
  split
  · exact h
  · rename_i hworker
    refine h.handleWorkerFailure (h.open_of_slot hslot (Or.inl ?_)) hslot
    rw [not_not.1 (not_or.1 hworker).2]
    nofun

theorem handleActiveTimeout (h : Orderly pool) (hslot : pool.slots[index]? = some slot)
    (workerRequestId : ℕ) :
    Orderly (pool.handleActiveTimeout index slot workerRequestId) := by
  unfold FsGitStatusWorkerPool.handleActiveTimeout
  split
  · exact h
  rename_i active hactive
  split
  · exact h
  · have hopen := h.open_of_slot hslot (Or.inr (by rw [hactive]; nofun))
    refine h.letGo hopen hslot (fun rest hbooked => ?_) rfl rfl rfl rfl rfl
    rw [hactive] at hbooked
    exact hbooked.settle nofun

theorem onRestartTimer (h : Orderly pool) (hslot : pool.slots[index]? = some slot) :
    Orderly (pool.onRestartTimer host now index slot) := by
  unfold FsGitStatusWorkerPool.onRestartTimer
  split
  · exact h
  rename_i htimer
  cases hopen : pool.shuttingDown with
  | true =>
    rw [FsGitStatusWorkerPool.startSlot, if_pos hopen]
    exact h
  | false =>
    obtain ⟨rest, hset, hbooked, hmanned, hrest, hserved⟩ := h.others hopen hslot
    have hjob : slot.currentJob = none := by
      by_contra hjob
      obtain ⟨active, hactive⟩ := Option.ne_none_iff_exists'.1 hjob
      exact htimer (hmanned.of_currentJob hactive).2.2
    rw [hjob] at hbooked
    exact startSlot hopen hset hbooked hjob hrest hserved

theorem shutdown (h : Orderly pool) : Orderly pool.shutdown := by
  unfold FsGitStatusWorkerPool.shutdown
  split
  · exact h
  · have hempty : activeJobs (pool.slots.map fun slot => { slot with
        currentJob := none, stopping := true, worker := none, state := .dead }) = [] := by
      rw [activeJobs, List.filterMap_map]
      exact List.filterMap_eq_nil_iff.2 fun _ _ => rfl
    exact
      { booked := by
          dsimp only
          rw [hempty]
          exact h.booked.rejectAll .shutdown
        manned := nofun
        served := nofun
        closed := fun _ => ⟨rfl, fun slot hs => by
          obtain ⟨_, _, rfl⟩ := List.mem_map.1 hs
          exact ⟨rfl, rfl, rfl⟩⟩ }

theorem atSlot (h : Orderly pool) {handler : WorkerSlot → FsGitStatusWorkerPool}
    (hhandler : ∀ slot, pool.slots[index]? = some slot → Orderly (handler slot)) :
    Orderly (pool.atSlot index handler) := by
  unfold FsGitStatusWorkerPool.atSlot
  cases hslot : pool.slots[index]? with
  | none => exact h
  | some slot => exact hhandler slot hslot

theorem step (h : Orderly pool) (event : ℚ × PoolEvent) : Orderly (pool.step host event) := by
  obtain ⟨now, event⟩ := event
  cases event with
  | dispatch input deadlineAt => exact h.dispatch input deadlineAt
  | message index generation message =>
    exact h.atSlot fun slot hslot => h.handleWorkerMessage hslot message
  | error index generation => exact h.atSlot fun slot hslot => h.onError hslot
  | exit index generation => exact h.atSlot fun slot hslot => h.onExit hslot
  | activeTimeout index workerRequestId =>
    exact h.atSlot fun slot hslot => h.handleActiveTimeout hslot workerRequestId
  | restartTimer index => exact h.atSlot fun slot hslot => h.onRestartTimer hslot
  | shutdown => exact h.shutdown

end Orderly

end Slots

/-! ## Dispatches -/

section Dispatched

variable {slot : WorkerSlot} {slots : List WorkerSlot} {jobs : Jobs} {now : ℚ} {host : Host}
variable {pool : FsGitStatusWorkerPool} {index generation : ℕ}

theorem dispatched_takeLive (queue : List QueuedJob) :
    (Jobs.takeLive now queue jobs).2.dispatched = jobs.dispatched := by
  induction queue generalizing jobs with
  | nil => rfl
  | cons q queue ih =>
    rw [Jobs.takeLive]
    split
    · rw [ih]
      rfl
    · rfl

@[simp] theorem dispatched_pumpSlots :
    (pool.pumpSlots host now slots jobs).2.dispatched = jobs.dispatched := by
  induction slots generalizing jobs with
  | nil => rfl
  | cons slot slots ih =>
    have htaken : (jobs.takeNextLiveJob now).2.dispatched = jobs.dispatched :=
      dispatched_takeLive jobs.queue
    unfold FsGitStatusWorkerPool.pumpSlots
    split
    · exact ih
    · cases htake : jobs.takeNextLiveJob now with
      | mk taken jobs' =>
        rw [htake] at htaken
        cases taken with
        | none => exact htaken
        | some queued =>
          dsimp only
          split
          · exact ih.trans htaken
          · exact ih.trans htaken

@[simp] theorem dispatched_pump : (pool.pump host now).jobs.dispatched = pool.jobs.dispatched := by
  unfold FsGitStatusWorkerPool.pump
  split
  · rfl
  · exact dispatched_pumpSlots

@[simp] theorem dispatched_startSlot :
    (pool.startSlot host now index slot).jobs.dispatched = pool.jobs.dispatched := by
  unfold FsGitStatusWorkerPool.startSlot
  dsimp only
  split_ifs
  · rfl
  · rw [dispatched_pump]
    rfl
  · rfl

theorem dispatched_ensureStarted :
    (pool.ensureStarted host now).jobs.dispatched = pool.jobs.dispatched := by
  unfold FsGitStatusWorkerPool.ensureStarted
  split
  · rfl
  · have hstarted : { pool with started := true }.jobs.dispatched = pool.jobs.dispatched := rfl
    refine Function.Iterate.rec
      (fun pool' : FsGitStatusWorkerPool => pool'.jobs.dispatched = pool.jobs.dispatched) hstarted
      (fun pool' hpool' => ?_) _
    rw [FsGitStatusWorkerPool.addSlot, dispatched_startSlot, hpool']

/-- A dispatch counts as one, however it goes on. -/
theorem dispatched_dispatch (input : FsGitStatusBuildJobInput) (deadlineAt : Option ℚ) :
    (pool.dispatch host now input deadlineAt).jobs.dispatched =
      pool.jobs.dispatched ++ [input] := by
  unfold FsGitStatusWorkerPool.dispatch
  dsimp only
  split
  · rfl
  · split
    · rfl
    · split
      · rw [Jobs.refuse, dispatched_ensureStarted]
      · rw [dispatched_pump, Jobs.push, dispatched_ensureStarted]

theorem dispatched_handleWorkerMessage (message : FsGitStatusWorkerResult) :
    (pool.handleWorkerMessage host now index slot generation message).jobs.dispatched =
      pool.jobs.dispatched := by
  unfold FsGitStatusWorkerPool.handleWorkerMessage
  split
  · rfl
  · split
    · rfl
    · split
      · rw [dispatched_pump]
        rfl
      · rfl

theorem dispatched_handleWorkerFailure :
    (pool.handleWorkerFailure index slot generation).jobs.dispatched = pool.jobs.dispatched := by
  unfold FsGitStatusWorkerPool.handleWorkerFailure
  split
  · rfl
  · dsimp only [FsGitStatusWorkerPool.setSlot]
    cases slot.currentJob <;> rfl

theorem dispatched_handleActiveTimeout (workerRequestId : ℕ) :
    (pool.handleActiveTimeout index slot workerRequestId).jobs.dispatched =
      pool.jobs.dispatched := by
  unfold FsGitStatusWorkerPool.handleActiveTimeout
  split
  · rfl
  · split <;> rfl

theorem dispatched_atSlot {handler : WorkerSlot → FsGitStatusWorkerPool}
    (h : ∀ slot, (handler slot).jobs.dispatched = pool.jobs.dispatched) :
    (pool.atSlot index handler).jobs.dispatched = pool.jobs.dispatched := by
  unfold FsGitStatusWorkerPool.atSlot
  cases pool.slots[index]? with
  | none => rfl
  | some slot => exact h slot

/-- The dispatches are those of the events. -/
theorem dispatched_step (event : ℚ × PoolEvent) :
    (pool.step host event).jobs.dispatched = pool.jobs.dispatched ++ event.2.inputs := by
  obtain ⟨now, event⟩ := event
  cases event with
  | dispatch input deadlineAt => exact dispatched_dispatch input deadlineAt
  | message index generation message =>
    exact (dispatched_atSlot fun _ => dispatched_handleWorkerMessage message).trans
      (List.append_nil _).symm
  | error index generation =>
    refine (dispatched_atSlot fun slot => ?_).trans (List.append_nil _).symm
    unfold FsGitStatusWorkerPool.onError
    split
    · rfl
    · exact dispatched_handleWorkerFailure
  | exit index generation =>
    refine (dispatched_atSlot fun slot => ?_).trans (List.append_nil _).symm
    unfold FsGitStatusWorkerPool.onExit
    split
    · rfl
    · exact dispatched_handleWorkerFailure
  | activeTimeout index workerRequestId =>
    exact (dispatched_atSlot fun _ => dispatched_handleActiveTimeout workerRequestId).trans
      (List.append_nil _).symm
  | restartTimer index =>
    refine (dispatched_atSlot fun slot => ?_).trans (List.append_nil _).symm
    unfold FsGitStatusWorkerPool.onRestartTimer
    split
    · rfl
    · exact dispatched_startSlot
  | shutdown =>
    refine Eq.trans ?_ (List.append_nil _).symm
    change pool.shutdown.jobs.dispatched = pool.jobs.dispatched
    rw [FsGitStatusWorkerPool.shutdown]
    split <;> rfl

end Dispatched

/-- A job whose promise is not settled yet. -/
def Jobs.IsUnsettled (jobs : Jobs) (job : ℕ) : Prop :=
  job < jobs.dispatched.length ∧ job ∉ jobs.settled.map Prod.fst

/-- In every run the jobs are the dispatches of the events, in their order.  Each is settled at most
once, and fulfilled only by a message with the identity under which its own input was posted; what
is not settled is queued or active, at one place; until the shutdown each slot is idle with a
worker, busy with a job or will be started again, and none is idle while a job is queued; and after
the shutdown every dispatch is settled. -/
theorem pool_run (options : FsGitStatusWorkerPoolOptions) (host : Host)
    (events : List (ℚ × PoolEvent)) :
    let pool := run (FsGitStatusWorkerPool.step host) events (.new options)
    pool.jobs.dispatched = events.flatMap (·.2.inputs) ∧
      (∀ job, (pool.jobs.settled.map Prod.fst).count job ≤ 1) ∧
      (∀ job message, (job, .fulfilled message) ∈ pool.jobs.settled → ∃ request,
        (job, request) ∈ pool.jobs.posted ∧ pool.jobs.dispatched[job]? = some request.input ∧
          request.identity = message.identity ∧ ∀ entry ∈ pool.jobs.posted,
            entry.2.identity = request.identity → entry = (job, request)) ∧
      (∀ job, pool.jobs.IsUnsettled job → (pool.jobs.queue.map (·.job)).count job +
        ((activeJobs pool.slots).map (·.job)).count job = 1) ∧
      (pool.shuttingDown = false → ∀ slot ∈ pool.slots, slot.IsManned) ∧
      (∀ slot ∈ pool.slots, slot.state = .idle → pool.jobs.queue = []) ∧
      (pool.shuttingDown = true → ∀ job, ¬ pool.jobs.IsUnsettled job) := by
  intro pool
  have h : Orderly pool :=
    run_invariant_all (fun pool : FsGitStatusWorkerPool => Orderly pool)
      (fun _ event h => h.step event) (.new options) events
  have hclosed : pool.shuttingDown = true → pool.jobs.queue = [] ∧ activeJobs pool.slots = [] :=
    fun hdown => ⟨(h.closed hdown).1,
      List.filterMap_eq_nil_iff.2 fun slot hs => ((h.closed hdown).2 slot hs).2.2⟩
  have hone : ∀ job, pool.jobs.IsUnsettled job → (pool.jobs.queue.map (·.job)).count job +
      ((activeJobs pool.slots).map (·.job)).count job = 1 := by
    intro job ⟨hjob, hnot⟩
    have honce := h.booked.once job
    rw [if_pos hjob, List.count_eq_zero.2 hnot] at honce
    omega
  have hdispatched : pool.jobs.dispatched = events.flatMap (·.2.inputs) :=
    run_flatMap (fun pool : FsGitStatusWorkerPool => pool.jobs.dispatched) (·.2.inputs)
      (fun _ => dispatched_step) (.new options) events
  refine ⟨hdispatched, fun job => ?_, fun job message hmem => ?_, hone, h.manned,
    fun slot hs hidle => ?_, fun hdown job hjob => ?_⟩
  · have honce := h.booked.once job
    split_ifs at honce <;> omega
  · obtain ⟨request, hrequest, heq⟩ := h.booked.fulfilled job message hmem
    refine ⟨request, hrequest, (h.booked.own _ hrequest).1, heq, fun entry hentry hsame => ?_⟩
    exact List.inj_on_of_nodup_map h.booked.identities hentry hrequest (by rw [hsame])
  · by_contra hne
    cases hdown : pool.shuttingDown with
    | true => exact hne (hclosed hdown).1
    | false => exact h.served hdown hne slot hs hidle
  · have hplace := hone job hjob
    rw [(hclosed hdown).1, (hclosed hdown).2] at hplace
    exact (Nat.zero_ne_one hplace).elim

end Imcodes.GitStatus
