import Imcodes.FilePreview.Cache
import Imcodes.Machine.Runs

/-!
# The coordinator of the file preview reads

`PreviewReadCoordinator` answers the requests for previews of files.  Requests for one path share a
*preflight* job, which finds the real path and the signature of the file, and requests for one
generation of it share a *snapshot* job, which reads it; the jobs run in a worker pool.  The answers
go through a queue of sends, one at a time.

* `accepted_submit` — which requests `submit` accepts.
-/

namespace Imcodes.FilePreview

/-- `PreviewReadCoordinatorErrorCodes` -/
structure PreviewReadCoordinatorErrorCodes where
  queueFull : String := "preview_worker_queue_full"
  timeout : String := "preview_worker_timeout"
  unavailable : String := "preview_worker_unavailable"
  crashed : String := "preview_worker_crashed"
  staleRead : String := "stale_read"
  invalidRequest : String := "invalid_request"
  internalError : String := "internal_error"

/-- `ExternalRequestRecord`, with the number of the step in which it was submitted; one that is
terminal is no longer in the map. -/
structure ExternalRequestRecord where
  requestId : String
  rawPath : String
  admittedAt : ℚ
  deadlineAt : ℚ
  submittedAt : ℕ
deriving DecidableEq

/-- `PreviewReadPreflightJobRecord`; its key is the raw path. -/
structure PreviewReadPreflightJobRecord where
  requestIds : List String
  startedAt : ℚ

/-- `PreviewReadPreflightSuccess` -/
structure PreviewReadPreflightSuccess where
  realPath : String
  mtimeMs : Numeral
  size : Numeral
  fileName : String

/-- `startSignature`, which the worker makes of what `stat` gives. -/
def PreviewReadPreflightSuccess.startSignature (preflight : PreviewReadPreflightSuccess) :
    String :=
  fileSignatureForStat preflight.mtimeMs preflight.size

/-- `PreviewReadSnapshotJobRecord`, with what its read was dispatched for and in which step -/
structure PreviewReadSnapshotJobRecord where
  preflight : PreviewReadPreflightSuccess
  resourceGeneration : ℕ
  requestIds : List String
  startedAt : ℚ
  dispatchedAt : ℕ

/-- A response of the coordinator, by what `assembleResult` or `assembleError` makes it of. -/
inductive Response
  | result (request : ExternalRequestRecord) (snapshot : PreviewReadSnapshotSuccess)
      (fromCache : Bool)
  | error (requestId rawPath : String) (resolvedPath : Option String) (error : String)
deriving DecidableEq

/-- The request that a response is for. -/
def Response.requestId : Response → String
  | .result request _ _ => request.requestId
  | .error requestId _ _ _ => requestId

/-- A response and when it was built. -/
structure Message where
  response : Response
  builtAt : ℚ
deriving DecidableEq

/-- What `buildMessage` of a send makes its response of. -/
inductive Build
  /-- The request and the snapshot are at hand. -/
  | cached (request : ExternalRequestRecord) (snapshot : PreviewReadSnapshotSuccess)
  /-- The request is looked up. -/
  | snapshot (requestId : String) (snapshot : PreviewReadSnapshotSuccess)
  | error (requestId rawPath : String) (resolvedPath : Option String) (error : String)

/-- An operation of the queue of sends. -/
inductive SendOperation
  /-- Of `sendTerminal`: the response is built when its turn comes. -/
  | terminal (requestId : String) (build : Build)
  | message (message : Message)

/-- `FanOutRecord`, of a request that is not terminal -/
structure FanOutRecord where
  rawPath : String
  deadlineAt : ℚ

/-- `PreviewReadCoordinator` with its fan-out dispatcher.  The last fields say what has happened:
the number of steps, the request ids that were submitted, the requests that were accepted, and the
paths that were invalidated, each with its step. -/
structure PreviewReadCoordinator where
  errorCodes : PreviewReadCoordinatorErrorCodes
  admission : PreviewReadAdmissionController
  cache : PreviewReadCacheFacade
  attachedCap : ℤ
  now : ℚ
  externalRequests : OrderedMap String ExternalRequestRecord := .empty
  preflightJobs : OrderedMap String PreviewReadPreflightJobRecord := .empty
  snapshotJobs : OrderedMap String PreviewReadSnapshotJobRecord := .empty
  /-- The records of the fan-out dispatcher. -/
  records : OrderedMap String FanOutRecord := .empty
  /-- The requests whose deadline timer is armed. -/
  armed : List String := []
  /-- The operations that wait behind `sendTail`. -/
  queue : List SendOperation := []
  /-- A send has begun and not ended. -/
  sending : Bool := false
  sent : List Message := []
  steps : ℕ := 0
  submitted : List String := []
  accepted : List String := []
  invalidated : List (ℕ × String) := []

/-- `PreviewReadPoolErrorReason` -/
inductive PreviewReadPoolErrorReason
  | queueFull
  | unavailable
  | crashed
  | shutdown
  | staleResult
  | timeout
deriving DecidableEq

/-- How the dispatch of a preflight ends. -/
inductive PreflightOutcome
  /-- With an error, of the pool or another one. -/
  | rejected (reason : Option PreviewReadPoolErrorReason)
  | error (error : String)
  | preflight (preflight : PreviewReadPreflightSuccess)
  | otherPhase

/-- How the dispatch of a snapshot ends; the path and the signature at the start of the read are
those of the request to the worker. -/
inductive SnapshotOutcome
  /-- With an error, of the pool or another one. -/
  | rejected (reason : Option PreviewReadPoolErrorReason)
  | error (error : String)
  | snapshot (endSignature : String) (payload : PreviewReadSnapshotPayload)
  | otherPhase

/-- `PreviewReadSubmitResult` -/
structure PreviewReadSubmitResult where
  accepted : Bool
  suppressed : Bool := false
  invalid : Bool := false
  admission : Option PreviewReadAdmissionDecision := none

namespace PreviewReadCoordinator

/-- The coordinator that the constructor makes. -/
def new (admission : PreviewReadAdmissionController) (cache : PreviewReadCacheFacade)
    (attachedCap : Option ℚ) (errorCodes : PreviewReadCoordinatorErrorCodes) (now : ℚ) :
    PreviewReadCoordinator where
  errorCodes
  admission
  cache
  attachedCap := max 1 (trunc (attachedCap.getD admission.attachedCap))
  now

/-! ## The fan-out dispatcher -/

/-- `enqueue` -/
def enqueue (coordinator : PreviewReadCoordinator) (operation : SendOperation) :
    PreviewReadCoordinator :=
  { coordinator with queue := coordinator.queue ++ [operation] }

/-- `register` -/
def register (coordinator : PreviewReadCoordinator) (requestId rawPath : String)
    (deadlineAt : ℚ) : PreviewReadCoordinator :=
  match coordinator.records.get? requestId with
  | some _ => coordinator
  | none =>
    { coordinator with
      records := coordinator.records.set requestId { rawPath, deadlineAt }
      armed := coordinator.armed ++ [requestId] }

/-- `markTerminal`, with `onTerminal` -/
def markTerminal (coordinator : PreviewReadCoordinator) (requestId : String) :
    PreviewReadCoordinator :=
  { coordinator with
    armed := coordinator.armed.filter (· ≠ requestId)
    records := coordinator.records.delete requestId
    externalRequests := coordinator.externalRequests.delete requestId }

/-- `safeSend` -/
def safeSend (coordinator : PreviewReadCoordinator) (message : Message) :
    PreviewReadCoordinator :=
  { coordinator with
    sending := true
    sent := coordinator.sent ++ [message] }

/-- `sendTerminal` -/
def sendTerminal (coordinator : PreviewReadCoordinator) (requestId : String) (build : Build) :
    PreviewReadCoordinator :=
  match coordinator.records.get? requestId with
  | none => coordinator
  | some _ => coordinator.enqueue (.terminal requestId build)

/-- `forceTerminal` -/
def forceTerminal (coordinator : PreviewReadCoordinator) (requestId : String)
    (response : Response) : PreviewReadCoordinator :=
  match coordinator.records.get? requestId with
  | none => coordinator
  | some _ =>
    (coordinator.markTerminal requestId).enqueue (.message ⟨response, coordinator.now⟩)

/-- `sendDetached` -/
def sendDetached (coordinator : PreviewReadCoordinator) (response : Response) :
    PreviewReadCoordinator :=
  coordinator.enqueue (.message ⟨response, coordinator.now⟩)

/-- `onTimeout` of a record -/
def onTimeout (coordinator : PreviewReadCoordinator) (requestId : String) (record : FanOutRecord) :
    Response :=
  .error requestId record.rawPath none coordinator.errorCodes.timeout

/-- `timeoutRecord` -/
def timeoutRecord (coordinator : PreviewReadCoordinator) (requestId : String) :
    PreviewReadCoordinator :=
  match coordinator.records.get? requestId with
  | none => coordinator
  | some record =>
    (coordinator.markTerminal requestId).enqueue
      (.message ⟨coordinator.onTimeout requestId record, coordinator.now⟩)

/-- `buildMessage` -/
def buildMessage (coordinator : PreviewReadCoordinator) : Build → Response
  | .cached request snapshot => .result request snapshot true
  | .snapshot requestId snapshot =>
    match coordinator.externalRequests.get? requestId with
    | none => .error requestId "" none coordinator.errorCodes.internalError
    | some request => .result request snapshot false
  | .error requestId rawPath resolvedPath error => .error requestId rawPath resolvedPath error

/-- An operation of the queue, when its turn comes -/
def perform (coordinator : PreviewReadCoordinator) : SendOperation → PreviewReadCoordinator
  | .message message => coordinator.safeSend message
  | .terminal requestId build =>
    match coordinator.records.get? requestId with
    | none => coordinator
    | some current =>
      if current.deadlineAt ≤ coordinator.now then
        (coordinator.markTerminal requestId).safeSend
          ⟨coordinator.onTimeout requestId current, coordinator.now⟩
      else
        (coordinator.markTerminal requestId).safeSend
          ⟨coordinator.buildMessage build, coordinator.now⟩

/-! ## The jobs -/

/-- `getEligibleRequestIds` -/
def getEligibleRequestIds (coordinator : PreviewReadCoordinator) (requestIds : List String) :
    List String :=
  requestIds.filter fun requestId =>
    (coordinator.externalRequests.get? requestId).any fun request =>
      coordinator.now < request.deadlineAt

/-- `getWorkerDispatchDeadlineAt` is not `null`. -/
def isDispatched (coordinator : PreviewReadCoordinator) (requestIds : List String) : Bool :=
  requestIds.any fun requestId =>
    (coordinator.externalRequests.get? requestId).any fun request =>
      coordinator.now < request.deadlineAt

/-- `finishJobWithError`, and `finishJobWithWorkerError` without a resolved path -/
def finishJobWithError (coordinator : PreviewReadCoordinator) (requestIds : List String)
    (error : String) (resolvedPath : Option String) : PreviewReadCoordinator :=
  requestIds.foldl (fun coordinator requestId =>
    match coordinator.externalRequests.get? requestId with
    | none => coordinator
    | some request =>
      coordinator.sendTerminal requestId (.error requestId request.rawPath resolvedPath error))
    coordinator

/-- `mapDispatchError` -/
def mapDispatchError (coordinator : PreviewReadCoordinator) :
    Option PreviewReadPoolErrorReason → String
  | some .queueFull => coordinator.errorCodes.queueFull
  | some .crashed => coordinator.errorCodes.crashed
  | some .timeout => coordinator.errorCodes.timeout
  | some .shutdown => coordinator.errorCodes.unavailable
  | some .unavailable => coordinator.errorCodes.unavailable
  | some .staleResult => coordinator.errorCodes.staleRead
  | none => coordinator.errorCodes.internalError

/-- A snapshot job begins, and `runSnapshot` comes to its dispatch, unless no request waits for it
in time. -/
def startSnapshot (coordinator : PreviewReadCoordinator) (key requestId : String)
    (preflight : PreviewReadPreflightSuccess) (generation : ℕ) : PreviewReadCoordinator :=
  if coordinator.isDispatched [requestId] then
    { coordinator with
      snapshotJobs := coordinator.snapshotJobs.set key
        { preflight
          resourceGeneration := generation
          requestIds := [requestId]
          startedAt := coordinator.now
          dispatchedAt := coordinator.steps } }
  else coordinator

/-- `attachToSnapshot` -/
def attachToSnapshot (coordinator : PreviewReadCoordinator) (record : ExternalRequestRecord)
    (preflight : PreviewReadPreflightSuccess) : PreviewReadCoordinator :=
  let generation := coordinator.cache.getGeneration preflight.realPath
  let found := coordinator.cache.getCached coordinator.now preflight.realPath
    preflight.startSignature
  let coordinator := { coordinator with cache := found.1 }
  match found.2 with
  | some cached => coordinator.sendTerminal record.requestId (.cached record cached)
  | none =>
    let key := coordinator.cache.makeSnapshotKey preflight.realPath preflight.startSignature
      generation
    match coordinator.snapshotJobs.get? key with
    | some existing =>
      if (existing.requestIds.length : ℤ) ≥ coordinator.attachedCap then
        coordinator.forceTerminal record.requestId (.error record.requestId record.rawPath
          (some preflight.realPath) coordinator.errorCodes.queueFull)
      else
        { coordinator with
          snapshotJobs := coordinator.snapshotJobs.set key
            { existing with requestIds := existing.requestIds.insert record.requestId } }
    | none => coordinator.startSnapshot key record.requestId preflight generation

/-- A request that waited for a preflight goes on, if it is still there. -/
def afterPreflight (preflight : PreviewReadPreflightSuccess) (coordinator : PreviewReadCoordinator)
    (requestId : String) : PreviewReadCoordinator :=
  match coordinator.externalRequests.get? requestId with
  | none => coordinator
  | some record => coordinator.attachToSnapshot record preflight

/-- `attachToPreflight`, up to the dispatch of the job if it makes one -/
def attachToPreflight (coordinator : PreviewReadCoordinator) (record : ExternalRequestRecord) :
    PreviewReadCoordinator :=
  match coordinator.preflightJobs.get? record.rawPath with
  | some existing =>
    if (existing.requestIds.length : ℤ) ≥ coordinator.attachedCap then
      coordinator.forceTerminal record.requestId (.error record.requestId record.rawPath none
        coordinator.errorCodes.queueFull)
    else
      { coordinator with
        preflightJobs := coordinator.preflightJobs.set record.rawPath
          { existing with requestIds := existing.requestIds.insert record.requestId } }
  | none =>
    if coordinator.isDispatched [record.requestId] then
      { coordinator with
        preflightJobs := coordinator.preflightJobs.set record.rawPath
          { requestIds := [record.requestId]
            startedAt := coordinator.now } }
    else coordinator

/-- `recordJobDuration` of a job that began then -/
def recordDuration (coordinator : PreviewReadCoordinator) (startedAt : ℚ) :
    PreviewReadCoordinator :=
  { coordinator with
    admission := coordinator.admission.recordJobDuration (coordinator.now - startedAt) }

/-- `runPreflight`, from the end of its dispatch -/
def finishPreflight (coordinator : PreviewReadCoordinator) (job : PreviewReadPreflightJobRecord) :
    PreflightOutcome → PreviewReadCoordinator
  | .rejected reason =>
    coordinator.finishJobWithError job.requestIds (coordinator.mapDispatchError reason) none
  | .error error =>
    (coordinator.recordDuration job.startedAt).finishJobWithError job.requestIds error none
  | .otherPhase =>
    (coordinator.recordDuration job.startedAt).finishJobWithError job.requestIds
      coordinator.errorCodes.internalError none
  | .preflight preflight =>
    job.requestIds.foldl (afterPreflight preflight) (coordinator.recordDuration job.startedAt)

/-- `runSnapshot`, from the end of its dispatch -/
def finishSnapshot (coordinator : PreviewReadCoordinator) (job : PreviewReadSnapshotJobRecord) :
    SnapshotOutcome → PreviewReadCoordinator
  | .rejected reason =>
    coordinator.finishJobWithError job.requestIds (coordinator.mapDispatchError reason)
      (some job.preflight.realPath)
  | .error error =>
    (coordinator.recordDuration job.startedAt).finishJobWithError job.requestIds error none
  | .otherPhase =>
    (coordinator.recordDuration job.startedAt).finishJobWithError job.requestIds
      coordinator.errorCodes.internalError none
  | .snapshot endSignature payload =>
    let coordinator := coordinator.recordDuration job.startedAt
    let result : PreviewReadSnapshotSuccess :=
      { realPath := job.preflight.realPath
        startSignature := job.preflight.startSignature
        endSignature
        fileName := job.preflight.fileName
        payload
        dispatchedAt := job.dispatchedAt }
    if result.startSignature ≠ result.endSignature then
      coordinator.finishJobWithError job.requestIds coordinator.errorCodes.staleRead
        (some result.realPath)
    else
      let eligibleRequestIds := coordinator.getEligibleRequestIds job.requestIds
      if eligibleRequestIds = [] then coordinator
      else
        eligibleRequestIds.foldl
          (fun coordinator requestId =>
            coordinator.sendTerminal requestId (.snapshot requestId result))
          { coordinator with
            cache := coordinator.cache.writeSnapshot coordinator.now result
              job.resourceGeneration }

/-- `submit` of a request with an id and a path that is let in -/
def accept (coordinator : PreviewReadCoordinator) (requestId path : String) :
    PreviewReadCoordinator :=
  let record : ExternalRequestRecord :=
    { requestId
      rawPath := path
      admittedAt := coordinator.now
      deadlineAt := coordinator.now + coordinator.admission.deadlineMs
      submittedAt := coordinator.steps }
  attachToPreflight
    (register
      { coordinator with
        externalRequests := coordinator.externalRequests.set requestId record
        accepted := coordinator.accepted ++ [requestId] }
      requestId path record.deadlineAt)
    record

/-- `submit`; `none` is a value that is no string. -/
def submit (coordinator : PreviewReadCoordinator) (requestId path : Option String)
    (queueDepth : ℚ) : PreviewReadCoordinator × PreviewReadSubmitResult :=
  match requestId with
  | none => (coordinator, { accepted := false, suppressed := true })
  | some requestId =>
    if requestId = "" then (coordinator, { accepted := false, suppressed := true })
    else
      let coordinator := { coordinator with submitted := coordinator.submitted ++ [requestId] }
      let admission := coordinator.admission.decide queueDepth
      if path.getD "" = "" then
        (coordinator.sendDetached
          (.error requestId "" none coordinator.errorCodes.invalidRequest),
          { accepted := false, invalid := true })
      else if !admission.admitted then
        (coordinator.sendDetached
          (.error requestId (path.getD "") none coordinator.errorCodes.queueFull),
          { accepted := false, admission := some admission })
      else
        (coordinator.accept requestId (path.getD ""),
          { accepted := true, admission := some admission })

end PreviewReadCoordinator

/-! ## Runs -/

/-- What happens to a coordinator. -/
inductive CoordinatorEvent
  /-- The clock shows another time. -/
  | clock (now : ℚ)
  /-- `submit`, with the depth of the pool's queue -/
  | submit (requestId path : Option String) (queueDepth : ℚ)
  /-- The dispatch of the preflight job of a key ends. -/
  | preflightEnds (key : String) (outcome : PreflightOutcome)
  /-- The dispatch of the snapshot job of a key ends. -/
  | snapshotEnds (key : String) (outcome : SnapshotOutcome)
  /-- The deadline timer of a request fires, if it is armed. -/
  | timerFires (requestId : String)
  /-- The next operation of the queue of sends has its turn. -/
  | sendNext
  /-- The send that has begun finishes or fails. -/
  | sendEnds
  | invalidatePath (realPath : String)

/-- The request id that an event submits. -/
def CoordinatorEvent.requestId? : CoordinatorEvent → Option String
  | .submit (some requestId) _ _ => if requestId = "" then none else some requestId
  | _ => none

namespace PreviewReadCoordinator

/-- The request that an event has accepted: it comes with an id and a path, and the admission lets
it in. -/
def acceptedId? (coordinator : PreviewReadCoordinator) : CoordinatorEvent → Option String
  | .submit (some requestId) path queueDepth =>
    if requestId ≠ "" ∧ path.getD "" ≠ "" ∧ (coordinator.admission.decide queueDepth).admitted then
      some requestId
    else none
  | _ => none

/-- What an event does, but for the count of the steps. -/
def handle (coordinator : PreviewReadCoordinator) : CoordinatorEvent → PreviewReadCoordinator
  | .clock now => { coordinator with now }
  | .submit requestId path queueDepth => (coordinator.submit requestId path queueDepth).1
  | .preflightEnds key outcome =>
    match coordinator.preflightJobs.get? key with
    | none => coordinator
    | some job =>
      let coordinator := coordinator.finishPreflight job outcome
      { coordinator with preflightJobs := coordinator.preflightJobs.delete key }
  | .snapshotEnds key outcome =>
    match coordinator.snapshotJobs.get? key with
    | none => coordinator
    | some job =>
      let coordinator := coordinator.finishSnapshot job outcome
      { coordinator with snapshotJobs := coordinator.snapshotJobs.delete key }
  | .timerFires requestId =>
    if requestId ∈ coordinator.armed then
      timeoutRecord
        { coordinator with armed := coordinator.armed.filter (· ≠ requestId) } requestId
    else coordinator
  | .sendNext =>
    if coordinator.sending then coordinator
    else
      match coordinator.queue with
      | [] => coordinator
      | operation :: queue => perform { coordinator with queue } operation
  | .sendEnds => { coordinator with sending := false }
  | .invalidatePath realPath =>
    { coordinator with
      cache := coordinator.cache.invalidatePath realPath
      invalidated := coordinator.invalidated ++ [(coordinator.steps, realPath)] }

/-- A step of a coordinator. -/
def step (coordinator : PreviewReadCoordinator) (event : CoordinatorEvent) :
    PreviewReadCoordinator :=
  let handled := coordinator.handle event
  { handled with steps := handled.steps + 1 }

/-! ## What most operations leave alone -/

/-- The requests that were submitted or accepted and the admission are the same. -/
structure Keeps (coordinator other : PreviewReadCoordinator) : Prop where
  submitted : other.submitted = coordinator.submitted
  accepted : other.accepted = coordinator.accepted
  admission : other.admission = coordinator.admission

variable {coordinator other third : PreviewReadCoordinator} {requestId : String} {build : Build}
  {response : Response}

theorem Keeps.refl : Keeps coordinator coordinator := ⟨rfl, rfl, rfl⟩

theorem Keeps.trans (h : Keeps coordinator other) (h' : Keeps other third) :
    Keeps coordinator third :=
  ⟨h'.submitted.trans h.submitted, h'.accepted.trans h.accepted, h'.admission.trans h.admission⟩

/-- What went before left the requests and the admission alone. -/
theorem Keeps.after (h : Keeps other third) (hsubmitted : other.submitted = coordinator.submitted)
    (haccepted : other.accepted = coordinator.accepted)
    (hadmission : other.admission = coordinator.admission) : Keeps coordinator third :=
  Keeps.trans ⟨hsubmitted, haccepted, hadmission⟩ h

theorem keeps_sendTerminal : Keeps coordinator (coordinator.sendTerminal requestId build) := by
  unfold sendTerminal
  split
  · exact .refl
  · exact ⟨rfl, rfl, rfl⟩

theorem keeps_forceTerminal : Keeps coordinator (coordinator.forceTerminal requestId response) := by
  unfold forceTerminal
  split
  · exact .refl
  · exact ⟨rfl, rfl, rfl⟩

theorem keeps_timeoutRecord : Keeps coordinator (coordinator.timeoutRecord requestId) := by
  unfold timeoutRecord
  split
  · exact .refl
  · exact ⟨rfl, rfl, rfl⟩

theorem keeps_perform (operation : SendOperation) :
    Keeps coordinator (coordinator.perform operation) := by
  unfold perform
  split
  · exact ⟨rfl, rfl, rfl⟩
  · split
    · exact .refl
    · split
      · exact ⟨rfl, rfl, rfl⟩
      · exact ⟨rfl, rfl, rfl⟩

/-- What keeps at each element of a list keeps over all of it. -/
theorem keeps_foldl {α : Type} {f : PreviewReadCoordinator → α → PreviewReadCoordinator}
    (hf : ∀ coordinator a, Keeps coordinator (f coordinator a)) (l : List α) :
    Keeps coordinator (l.foldl f coordinator) := by
  induction l generalizing coordinator with
  | nil => exact .refl
  | cons a l ih => exact (hf coordinator a).trans ih

theorem keeps_finishJobWithError (requestIds : List String) (error : String)
    (resolvedPath : Option String) :
    Keeps coordinator (coordinator.finishJobWithError requestIds error resolvedPath) := by
  refine keeps_foldl (fun coordinator requestId => ?_) requestIds
  split
  · exact .refl
  · exact keeps_sendTerminal

theorem keeps_afterPreflight (preflight : PreviewReadPreflightSuccess) :
    Keeps coordinator (afterPreflight preflight coordinator requestId) := by
  unfold afterPreflight
  split
  · exact .refl
  · unfold attachToSnapshot
    dsimp only
    split
    · exact keeps_sendTerminal.after rfl rfl rfl
    · split
      · split
        · exact keeps_forceTerminal.after rfl rfl rfl
        · exact ⟨rfl, rfl, rfl⟩
      · unfold startSnapshot
        split
        · exact ⟨rfl, rfl, rfl⟩
        · exact ⟨rfl, rfl, rfl⟩

theorem keeps_attachToPreflight (record : ExternalRequestRecord) :
    Keeps coordinator (coordinator.attachToPreflight record) := by
  unfold attachToPreflight
  split
  · split
    · exact keeps_forceTerminal
    · exact ⟨rfl, rfl, rfl⟩
  · split
    · exact ⟨rfl, rfl, rfl⟩
    · exact .refl

theorem keeps_finishPreflight (job : PreviewReadPreflightJobRecord) (outcome : PreflightOutcome) :
    Keeps coordinator (coordinator.finishPreflight job outcome) ∨
      Keeps (coordinator.recordDuration job.startedAt)
        (coordinator.finishPreflight job outcome) := by
  cases outcome with
  | rejected reason => exact Or.inl (keeps_finishJobWithError _ _ _)
  | error error => exact Or.inr (keeps_finishJobWithError _ _ _)
  | otherPhase => exact Or.inr (keeps_finishJobWithError _ _ _)
  | preflight preflight =>
    exact Or.inr (keeps_foldl (fun _ _ => keeps_afterPreflight preflight) _)

theorem keeps_finishSnapshot (job : PreviewReadSnapshotJobRecord) (outcome : SnapshotOutcome) :
    Keeps coordinator (coordinator.finishSnapshot job outcome) ∨
      Keeps (coordinator.recordDuration job.startedAt)
        (coordinator.finishSnapshot job outcome) := by
  cases outcome with
  | rejected reason => exact Or.inl (keeps_finishJobWithError _ _ _)
  | error error => exact Or.inr (keeps_finishJobWithError _ _ _)
  | otherPhase => exact Or.inr (keeps_finishJobWithError _ _ _)
  | snapshot endSignature payload =>
    refine Or.inr ?_
    unfold finishSnapshot
    dsimp only
    split
    · exact keeps_finishJobWithError _ _ _
    · split
      · exact .refl
      · exact Keeps.after (keeps_foldl (fun _ _ => keeps_sendTerminal) _) rfl rfl rfl

/-- A request is accepted, by what `submit` returns, exactly when it should be. -/
theorem accepted_submit (requestId path : Option String) (queueDepth : ℚ) :
    (coordinator.submit requestId path queueDepth).2.accepted =
      (coordinator.acceptedId? (.submit requestId path queueDepth)).isSome := by
  cases requestId with
  | none => rfl
  | some requestId =>
    unfold submit acceptedId?
    dsimp only
    split
    · rename_i hempty
      rw [if_neg fun h => h.1 hempty]
      rfl
    · rename_i hid
      split
      · rename_i hempty
        rw [if_neg fun h => h.2.1 hempty]
        rfl
      · rename_i hpath
        split
        · rename_i hrefused
          rw [if_neg fun h => by simp [h.2.2] at hrefused]
          rfl
        · rename_i hadmitted
          rw [if_pos ⟨hid, hpath, by simpa using hadmitted⟩]
          rfl

theorem keeps_accept {path : String} :
    Keeps { coordinator with accepted := coordinator.accepted ++ [requestId] }
      (coordinator.accept requestId path) := by
  unfold accept register
  dsimp only
  split
  · exact (keeps_attachToPreflight _).after rfl rfl rfl
  · exact (keeps_attachToPreflight _).after rfl rfl rfl

theorem keeps_submit {id path : Option String} {queueDepth : ℚ} :
    Keeps { coordinator with
      submitted := coordinator.submitted ++
        (CoordinatorEvent.submit id path queueDepth).requestId?.toList
      accepted := coordinator.accepted ++
        (coordinator.acceptedId? (.submit id path queueDepth)).toList }
      (coordinator.submit id path queueDepth).1 := by
  cases id with
  | none => exact ⟨(List.append_nil _).symm, (List.append_nil _).symm, rfl⟩
  | some requestId =>
    unfold submit CoordinatorEvent.requestId? acceptedId?
    dsimp only
    by_cases hempty : requestId = ""
    · rw [if_pos hempty, if_pos hempty, if_neg fun h => h.1 hempty]
      exact ⟨(List.append_nil _).symm, (List.append_nil _).symm, rfl⟩
    · rw [if_neg hempty, if_neg hempty]
      by_cases hpath : path.getD "" = ""
      · rw [if_pos hpath, if_neg fun h => h.2.1 hpath]
        exact ⟨rfl, (List.append_nil _).symm, rfl⟩
      · rw [if_neg hpath]
        cases hadmitted : (coordinator.admission.decide queueDepth).admitted with
        | false =>
          rw [if_neg fun h => Bool.false_ne_true h.2.2]
          exact ⟨rfl, (List.append_nil _).symm, rfl⟩
        | true =>
          rw [if_pos ⟨hempty, hpath, rfl⟩, Bool.not_true, if_neg Bool.false_ne_true]
          exact keeps_accept.after rfl rfl rfl

/-- What a step does to the requests that were submitted or accepted and to the admission. -/
theorem step_spec (coordinator : PreviewReadCoordinator) (event : CoordinatorEvent) :
    (coordinator.step event).submitted = coordinator.submitted ++ event.requestId?.toList ∧
    (coordinator.step event).accepted =
      coordinator.accepted ++ (coordinator.acceptedId? event).toList ∧
    ((coordinator.step event).admission = coordinator.admission ∨
      ∃ durationMs, (coordinator.step event).admission =
        coordinator.admission.recordJobDuration durationMs) := by
  suffices h : Keeps { coordinator with
        submitted := coordinator.submitted ++ event.requestId?.toList
        accepted := coordinator.accepted ++ (coordinator.acceptedId? event).toList }
        (coordinator.handle event) ∨
      ∃ startedAt, Keeps (recordDuration { coordinator with
        submitted := coordinator.submitted ++ event.requestId?.toList
        accepted := coordinator.accepted ++ (coordinator.acceptedId? event).toList } startedAt)
        (coordinator.handle event) by
    rcases h with h | ⟨startedAt, h⟩
    · exact ⟨h.submitted, h.accepted, Or.inl h.admission⟩
    · exact ⟨h.submitted, h.accepted, Or.inr ⟨_, h.admission⟩⟩
  have hnone : ∀ event : CoordinatorEvent, event.requestId? = none →
      coordinator.acceptedId? event = none → Keeps coordinator (coordinator.handle event) →
      Keeps { coordinator with
        submitted := coordinator.submitted ++ event.requestId?.toList
        accepted := coordinator.accepted ++ (coordinator.acceptedId? event).toList }
        (coordinator.handle event) := by
    intro event hevent haccepted h
    rw [hevent, haccepted]
    exact ⟨h.submitted.trans (List.append_nil _).symm, h.accepted.trans (List.append_nil _).symm,
      h.admission⟩
  cases event with
  | clock now => exact Or.inl (hnone _ rfl rfl ⟨rfl, rfl, rfl⟩)
  | submit id path queueDepth => exact Or.inl keeps_submit
  | preflightEnds key outcome =>
    unfold handle
    dsimp only
    split
    · exact Or.inl ⟨(List.append_nil _).symm, (List.append_nil _).symm, rfl⟩
    · rename_i job hjob
      rcases keeps_finishPreflight job outcome with h | h
      · exact Or.inl ⟨h.submitted.trans (List.append_nil _).symm,
          h.accepted.trans (List.append_nil _).symm, h.admission⟩
      · exact Or.inr ⟨job.startedAt, h.submitted.trans (List.append_nil _).symm,
          h.accepted.trans (List.append_nil _).symm, h.admission⟩
  | snapshotEnds key outcome =>
    unfold handle
    dsimp only
    split
    · exact Or.inl ⟨(List.append_nil _).symm, (List.append_nil _).symm, rfl⟩
    · rename_i job hjob
      rcases keeps_finishSnapshot job outcome with h | h
      · exact Or.inl ⟨h.submitted.trans (List.append_nil _).symm,
          h.accepted.trans (List.append_nil _).symm, h.admission⟩
      · exact Or.inr ⟨job.startedAt, h.submitted.trans (List.append_nil _).symm,
          h.accepted.trans (List.append_nil _).symm, h.admission⟩
  | timerFires id =>
    refine Or.inl (hnone _ rfl rfl ?_)
    unfold handle
    dsimp only
    split
    · exact keeps_timeoutRecord.after rfl rfl rfl
    · exact .refl
  | sendNext =>
    refine Or.inl (hnone _ rfl rfl ?_)
    unfold handle
    dsimp only
    split
    · exact .refl
    · split
      · exact .refl
      · exact (keeps_perform _).after rfl rfl rfl
  | sendEnds => exact Or.inl (hnone _ rfl rfl ⟨rfl, rfl, rfl⟩)
  | invalidatePath realPath => exact Or.inl (hnone _ rfl rfl ⟨rfl, rfl, rfl⟩)

end PreviewReadCoordinator

end Imcodes.FilePreview
