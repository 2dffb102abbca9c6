import Imcodes.FilePreview.Admission
import Imcodes.Machine.Runs

/-!
# The pool of workers for the git status

`FsGitStatusWorkerPool` keeps a few worker threads, each in a slot, and hands them the jobs of a
queue, one at a time.  A worker that fails, or that takes too long, is given up; its slot gets
another one, of the next generation, after a while.  What a given-up worker sends may still come.
-/

namespace Imcodes.GitStatus

open FilePreview (trunc)

/-! ## Jobs and messages -/

/-- Under which name a job is posted. -/
structure FsGitStatusWorkerIdentity where
  workerRequestId : ℕ
  workerSlotId : ℕ
  workerGeneration : ℕ
  deriving DecidableEq

structure FsGitStatusWorkerFile where
  path : String
  code : String
  additions : Option ℕ
  deletions : Option ℕ
  deriving DecidableEq

structure FsGitStatusBuildJobInput where
  repoRoot : String
  repoSignature : String
  requestedPath : String
  includeStats : Bool
  deriving DecidableEq

/-- What a worker is asked. -/
structure FsGitStatusWorkerRequest where
  input : FsGitStatusBuildJobInput
  identity : FsGitStatusWorkerIdentity
  deriving DecidableEq

/-- The reasons that a worker gives. -/
inductive FsGitStatusWorkerErrorReason
  | workerInternal | gitUnavailable
  deriving DecidableEq

inductive FsGitStatusPoolErrorReason
  | queueFull | unavailable | crashed | shutdown | timeout
  | worker (reason : FsGitStatusWorkerErrorReason)
  deriving DecidableEq

/-- What a message says besides its identity. -/
inductive FsGitStatusWorkerBody
  | success (input : FsGitStatusBuildJobInput) (files : List FsGitStatusWorkerFile)
  | error (reason : FsGitStatusWorkerErrorReason)
  deriving DecidableEq

structure FsGitStatusWorkerResult where
  identity : FsGitStatusWorkerIdentity
  body : FsGitStatusWorkerBody
  deriving DecidableEq

def withFsGitStatusWorkerIdentity (input : FsGitStatusBuildJobInput)
    (identity : FsGitStatusWorkerIdentity) : FsGitStatusWorkerRequest :=
  { input, identity }

def isFsGitStatusWorkerResultFor (result : FsGitStatusWorkerResult)
    (identity : FsGitStatusWorkerIdentity) : Bool :=
  result.identity = identity

/-- How the promise of a job is settled. -/
inductive Outcome
  | fulfilled (message : FsGitStatusWorkerResult)
  | rejected (reason : FsGitStatusPoolErrorReason)
  deriving DecidableEq

structure QueuedJob where
  /-- The number of the dispatch, whose promise is to be settled. -/
  job : ℕ
  input : FsGitStatusBuildJobInput
  deadlineAt : Option ℤ
  deriving DecidableEq

structure ActiveJob extends QueuedJob where
  identity : FsGitStatusWorkerIdentity
  /-- The delay of the timer, while it is armed. -/
  timeoutTimer : Option ℚ
  deriving DecidableEq

/-! ## The pool -/

structure FsGitStatusWorkerPoolOptions where
  workersTarget : Option ℚ := none
  queueCap : Option ℚ := none
  /-- `null` is for no timeout. -/
  activeJobTimeoutMs : Option (Option ℚ) := none
  restartBackoffMs : Option ℚ := none

/-- `DEFAULT_FS_GIT_STATUS_*` -/
def defaultWorkersTarget : ℤ := 2
@[inherit_doc defaultWorkersTarget] def defaultPoolQueueCap : ℚ := 12
@[inherit_doc defaultWorkersTarget] def defaultActiveJobTimeoutMs : ℤ := 15000
@[inherit_doc defaultWorkersTarget] def defaultRestartBackoffMs : ℚ := 250

def clampWorkersTarget : Option ℚ → ℤ
  | none => defaultWorkersTarget
  | some value => min 3 (max 1 (trunc value))

inductive SlotState
  | idle | busy | restarting | dead
  deriving DecidableEq

structure WorkerSlot where
  slotId : ℕ
  generation : ℕ := 0
  state : SlotState := .dead
  /-- The worker, named by the generation in which it was made. -/
  worker : Option ℕ := none
  currentJob : Option ActiveJob := none
  /-- The delay of the timer, while it is armed. -/
  restartTimer : Option ℤ := none
  stopping : Bool := false
  deriving DecidableEq

/-- What all slots share, and what has happened to the jobs. -/
structure Jobs where
  queue : List QueuedJob := []
  nextWorkerRequestId : ℕ := 1
  /-- The inputs of all dispatches. -/
  dispatched : List FsGitStatusBuildJobInput := []
  /-- What was posted, and for which job. -/
  posted : List (ℕ × FsGitStatusWorkerRequest) := []
  /-- The promises that were settled. -/
  settled : List (ℕ × Outcome) := []

inductive StaleReason
  | staleWorkerGeneration | noActiveJob | identityMismatch
  deriving DecidableEq

/-- A message that is dropped. -/
structure StaleResult where
  reason : StaleReason
  slotId : ℕ
  currentGeneration : ℕ
  listenerGeneration : ℕ
  identity : FsGitStatusWorkerIdentity
  deriving DecidableEq

structure FsGitStatusWorkerPool where
  workersTarget : ℤ
  queueCap : ℤ
  activeJobTimeoutMs : Option ℤ
  restartBackoffMs : ℤ
  slots : List WorkerSlot := []
  jobs : Jobs := {}
  started : Bool := false
  shuttingDown : Bool := false
  staleResults : List StaleResult := []

/-- The pool that the constructor makes. -/
def FsGitStatusWorkerPool.new (options : FsGitStatusWorkerPoolOptions) :
    FsGitStatusWorkerPool where
  workersTarget := clampWorkersTarget options.workersTarget
  queueCap := max 0 (trunc (options.queueCap.getD defaultPoolQueueCap))
  activeJobTimeoutMs :=
    match options.activeJobTimeoutMs with
    | none => some defaultActiveJobTimeoutMs
    | some none => none
    | some (some ms) => some (max 1 (trunc ms))
  restartBackoffMs := max 0 (trunc (options.restartBackoffMs.getD defaultRestartBackoffMs))

/-- The calls that may throw: whether a worker can be made for a slot and a generation, and whether
a request can be posted. -/
structure Host where
  createWorker : ℕ → ℕ → Bool
  postMessage : FsGitStatusWorkerRequest → Bool

namespace Jobs

def settle (jobs : Jobs) (job : ℕ) (outcome : Outcome) : Jobs :=
  { jobs with settled := jobs.settled ++ [(job, outcome)] }

/-- A dispatch that throws. -/
def refuse (jobs : Jobs) (input : FsGitStatusBuildJobInput)
    (reason : FsGitStatusPoolErrorReason) : Jobs :=
  { jobs with
    dispatched := jobs.dispatched ++ [input]
    settled := jobs.settled ++ [(jobs.dispatched.length, .rejected reason)] }

def push (jobs : Jobs) (input : FsGitStatusBuildJobInput) (deadlineAt : Option ℤ) : Jobs :=
  { jobs with
    dispatched := jobs.dispatched ++ [input]
    queue := jobs.queue ++ [{ job := jobs.dispatched.length, input, deadlineAt }] }

/-- The loop of `takeNextLiveJob` over the queue -/
def takeLive (now : ℚ) : List QueuedJob → Jobs → Option QueuedJob × Jobs
  | [], jobs => (none, { jobs with queue := [] })
  | queued :: rest, jobs =>
    if queued.deadlineAt.any (fun deadlineAt => (deadlineAt : ℚ) ≤ now) then
      takeLive now rest (jobs.settle queued.job (.rejected .timeout))
    else (some queued, { jobs with queue := rest })

def takeNextLiveJob (now : ℚ) (jobs : Jobs) : Option QueuedJob × Jobs :=
  takeLive now jobs.queue jobs

end Jobs

def WorkerSlot.scheduleRestart (slot : WorkerSlot) (shuttingDown : Bool) (restartBackoffMs : ℤ) :
    WorkerSlot :=
  if shuttingDown || slot.stopping || slot.restartTimer.isSome then slot
  else { slot with restartTimer := some restartBackoffMs }

def armActiveTimeout (activeJobTimeoutMs : Option ℤ) (now : ℚ) (active : ActiveJob) : ActiveJob :=
  let delays : List ℚ :=
    [activeJobTimeoutMs.map Int.cast, active.deadlineAt.map fun deadlineAt => deadlineAt - now]
      |>.filterMap id
  match delays with
  | [] => active
  | delay :: delays => { active with timeoutTimer := some (max 1 (delays.foldl min delay)) }

namespace FsGitStatusWorkerPool

variable (host : Host) (now : ℚ)

/-- The loop of `pump` over the slots that are left -/
def pumpSlots (pool : FsGitStatusWorkerPool) : List WorkerSlot → Jobs → List WorkerSlot × Jobs
  | [], jobs => ([], jobs)
  | slot :: slots, jobs =>
    if slot.state ≠ .idle ∨ slot.worker = none ∨ slot.currentJob.isSome then
      let (slots, jobs) := pumpSlots pool slots jobs
      (slot :: slots, jobs)
    else
      match jobs.takeNextLiveJob now with
      | (none, jobs) => (slot :: slots, jobs)
      | (some queued, jobs) =>
        let identity : FsGitStatusWorkerIdentity :=
          { workerRequestId := jobs.nextWorkerRequestId
            workerSlotId := slot.slotId
            workerGeneration := slot.generation }
        let jobs := { jobs with nextWorkerRequestId := jobs.nextWorkerRequestId + 1 }
        let active := armActiveTimeout pool.activeJobTimeoutMs now
          { queued with identity, timeoutTimer := none }
        let request := withFsGitStatusWorkerIdentity queued.input identity
        if host.postMessage request then
          let slot := { slot with currentJob := some active, state := .busy }
          let jobs := { jobs with posted := jobs.posted ++ [(queued.job, request)] }
          let (slots, jobs) := pumpSlots pool slots jobs
          (slot :: slots, jobs)
        else
          let slot := { slot with currentJob := none, worker := none, state := .restarting }
          let jobs := jobs.settle queued.job (.rejected .unavailable)
          let slot := slot.scheduleRestart pool.shuttingDown pool.restartBackoffMs
          let (slots, jobs) := pumpSlots pool slots jobs
          (slot :: slots, jobs)

def pump (pool : FsGitStatusWorkerPool) : FsGitStatusWorkerPool :=
  if pool.shuttingDown then pool
  else
    let (slots, jobs) := pool.pumpSlots host now pool.slots pool.jobs
    { pool with slots, jobs }

def setSlot (pool : FsGitStatusWorkerPool) (index : ℕ) (slot : WorkerSlot) :
    FsGitStatusWorkerPool :=
  { pool with slots := pool.slots.set index slot }

def startSlot (pool : FsGitStatusWorkerPool) (index : ℕ) (slot : WorkerSlot) :
    FsGitStatusWorkerPool :=
  if pool.shuttingDown then pool
  else
    let generation := slot.generation + 1
    let slot := { slot with restartTimer := none, generation, stopping := false }
    if host.createWorker slot.slotId generation then
      (pool.setSlot index { slot with worker := some generation, state := .idle }).pump host now
    else
      pool.setSlot index ({ slot with worker := none, state := .dead }.scheduleRestart
        pool.shuttingDown pool.restartBackoffMs)

/-- A slot more, with the next number. -/
def addSlot (pool : FsGitStatusWorkerPool) : FsGitStatusWorkerPool :=
  let slot : WorkerSlot := { slotId := pool.slots.length + 1 }
  { pool with slots := pool.slots ++ [slot] }.startSlot host now pool.slots.length slot

def ensureStarted (pool : FsGitStatusWorkerPool) : FsGitStatusWorkerPool :=
  if pool.started then pool
  else (addSlot host now)^[pool.workersTarget.toNat] { pool with started := true }

def dispatch (pool : FsGitStatusWorkerPool) (input : FsGitStatusBuildJobInput)
    (deadlineAt : Option ℚ) : FsGitStatusWorkerPool :=
  let deadlineAt := deadlineAt.map trunc
  if pool.shuttingDown then { pool with jobs := pool.jobs.refuse input .shutdown }
  else if deadlineAt.any (fun deadlineAt => (deadlineAt : ℚ) ≤ now) then
    { pool with jobs := pool.jobs.refuse input .timeout }
  else
    let pool := pool.ensureStarted host now
    if pool.queueCap ≤ pool.jobs.queue.length then
      { pool with jobs := pool.jobs.refuse input .queueFull }
    else { pool with jobs := pool.jobs.push input deadlineAt }.pump host now

def recordStaleResultDropped (pool : FsGitStatusWorkerPool) (slot : WorkerSlot)
    (listenerGeneration : ℕ) (message : FsGitStatusWorkerResult) (reason : StaleReason) :
    FsGitStatusWorkerPool :=
  { pool with
    staleResults := pool.staleResults ++
      [{ reason
         slotId := slot.slotId
         currentGeneration := slot.generation
         listenerGeneration
         identity := message.identity }] }

def handleWorkerMessage (pool : FsGitStatusWorkerPool) (index : ℕ) (slot : WorkerSlot)
    (generation : ℕ) (message : FsGitStatusWorkerResult) : FsGitStatusWorkerPool :=
  if slot.generation ≠ generation ∨ slot.state = .dead then
    pool.recordStaleResultDropped slot generation message .staleWorkerGeneration
  else
    match slot.currentJob with
    | none => pool.recordStaleResultDropped slot generation message .noActiveJob
    | some active =>
      if isFsGitStatusWorkerResultFor message active.identity then
        let outcome : Outcome :=
          match message.body with
          | .success .. => .fulfilled message
          | .error reason => .rejected (.worker reason)
        let slots := pool.slots.set index { slot with currentJob := none, state := .idle }
        { pool with slots, jobs := pool.jobs.settle active.job outcome }.pump host now
      else pool.recordStaleResultDropped slot generation message .identityMismatch

def handleWorkerFailure (pool : FsGitStatusWorkerPool) (index : ℕ) (slot : WorkerSlot)
    (generation : ℕ) : FsGitStatusWorkerPool :=
  if slot.generation ≠ generation ∨ slot.stopping then pool
  else
    let jobs :=
      match slot.currentJob with
      | some active => pool.jobs.settle active.job (.rejected .crashed)
      | none => pool.jobs
    let slot := { slot with currentJob := none, worker := none, state := .restarting }
    { pool with jobs }.setSlot index
      (slot.scheduleRestart pool.shuttingDown pool.restartBackoffMs)

/-- The listener of the worker of a generation for `error`. -/
def onError (pool : FsGitStatusWorkerPool) (index : ℕ) (slot : WorkerSlot) (generation : ℕ) :
    FsGitStatusWorkerPool :=
  if slot.worker ≠ some generation then pool
  else pool.handleWorkerFailure index slot generation

/-- The listener of the worker of a generation for `exit`. -/
def onExit (pool : FsGitStatusWorkerPool) (index : ℕ) (slot : WorkerSlot) (generation : ℕ) :
    FsGitStatusWorkerPool :=
  if slot.stopping ∨ slot.worker ≠ some generation then pool
  else pool.handleWorkerFailure index slot generation

/-- The timer of the job with this request id, if it is still armed. -/
def handleActiveTimeout (pool : FsGitStatusWorkerPool) (index : ℕ) (slot : WorkerSlot)
    (workerRequestId : ℕ) : FsGitStatusWorkerPool :=
  match slot.currentJob with
  | none => pool
  | some active =>
    if active.identity.workerRequestId ≠ workerRequestId ∨ active.timeoutTimer = none then pool
    else
      let slot :=
        { slot with currentJob := none, worker := none, state := .restarting, stopping := false }
      { pool with jobs := pool.jobs.settle active.job (.rejected .timeout) }.setSlot index
        (slot.scheduleRestart pool.shuttingDown pool.restartBackoffMs)

/-- The timer that starts a slot again, if it is armed. -/
def onRestartTimer (pool : FsGitStatusWorkerPool) (index : ℕ) (slot : WorkerSlot) :
    FsGitStatusWorkerPool :=
  if slot.restartTimer = none then pool else pool.startSlot host now index slot

/-- All that is queued, then all that is active, is rejected. -/
def shutdown (pool : FsGitStatusWorkerPool) : FsGitStatusWorkerPool :=
  if pool.shuttingDown then pool
  else
    let waiting := pool.jobs.queue.map (·.job) ++
      (pool.slots.filterMap (·.currentJob)).map (·.job)
    { pool with
      shuttingDown := true
      slots := pool.slots.map fun slot =>
        { slot with currentJob := none, stopping := true, worker := none, state := .dead }
      jobs := { pool.jobs with
        queue := []
        settled := pool.jobs.settled ++ waiting.map fun job => (job, .rejected .shutdown) } }

end FsGitStatusWorkerPool

/-- What happens to a pool; slots are numbered from zero. -/
inductive PoolEvent
  | dispatch (input : FsGitStatusBuildJobInput) (deadlineAt : Option ℚ)
  | message (index generation : ℕ) (message : FsGitStatusWorkerResult)
  | error (index generation : ℕ)
  | exit (index generation : ℕ)
  | activeTimeout (index workerRequestId : ℕ)
  | restartTimer (index : ℕ)
  | shutdown

/-- The input of a dispatch. -/
def PoolEvent.inputs : PoolEvent → List FsGitStatusBuildJobInput
  | dispatch input _ => [input]
  | _ => []

namespace FsGitStatusWorkerPool

variable (host : Host)

/-- An event at a slot. -/
def atSlot (pool : FsGitStatusWorkerPool) (index : ℕ)
    (handler : WorkerSlot → FsGitStatusWorkerPool) : FsGitStatusWorkerPool :=
  (pool.slots[index]?).elim pool handler

/-- An event at a time. -/
def step (pool : FsGitStatusWorkerPool) (event : ℚ × PoolEvent) : FsGitStatusWorkerPool :=
  let now := event.1
  match event.2 with
  | .dispatch input deadlineAt => pool.dispatch host now input deadlineAt
  | .message index generation message => pool.atSlot index fun slot =>
      pool.handleWorkerMessage host now index slot generation message
  | .error index generation => pool.atSlot index fun slot => pool.onError index slot generation
  | .exit index generation => pool.atSlot index fun slot => pool.onExit index slot generation
  | .activeTimeout index workerRequestId => pool.atSlot index fun slot =>
      pool.handleActiveTimeout index slot workerRequestId
  | .restartTimer index => pool.atSlot index fun slot => pool.onRestartTimer host now index slot
  | .shutdown => pool.shutdown

end FsGitStatusWorkerPool

end Imcodes.GitStatus
