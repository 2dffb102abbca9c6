import Mathlib.Data.Int.Order.Basic
import Imcodes.Machine.Runs

/-!
# The client of the context-store worker

`ContextStoreWorkerClient` hands the requests of the daemon to a worker thread and keeps what is
pending.  A worker is given up when it fails, or when its answers take too long, and another one,
of the next *generation*, is made when it is needed.  Events of the workers are told apart by
their generation; the events of a worker that was given up may still come.
-/

namespace Imcodes.Context

/-- `CONTEXT_STORE_RPC_ERROR` -/
inductive RpcErrorCode
  | unsupportedOperation
  | overloaded
  | timeout
  | workerExit
  | workerError
  | disposed
  | opFailed
  | cloneError
  | unavailable
  /-- Another code that the worker gives. -/
  | other (code : String)
deriving DecidableEq

/-- `CONTEXT_STORE_WORKER_DOWN_REASON` -/
inductive WorkerDownReason
  | warmupError
  | workerError
  | workerExit
  | timeoutRespawn
  | dispose
deriving DecidableEq

/-- The worker failed by itself. -/
def WorkerDownReason.isFailure : WorkerDownReason → Bool
  | .warmupError | .workerError | .workerExit => true
  | .timeoutRespawn | .dispose => false

/-- `CONTEXT_STORE_FIRE_AND_FORGET_OPS` -/
def fireAndForgetOps : List String := ["recordMemoryHits", "saveProjectionEmbedding"]

/-- `isFireAndForgetOp` -/
def isFireAndForgetOp (op : String) : Bool := fireAndForgetOps.contains op

/-- `CONTEXT_STORE_RPC_TIMEOUT_MS` -/
def r1FrontOfTurnMax : ℤ := 2000
@[inherit_doc r1FrontOfTurnMax] def r3r5Management : ℤ := 5000
@[inherit_doc r1FrontOfTurnMax] def r4Background : ℤ := 30000

/-- `CONTEXT_STORE_RPC_BACKPRESSURE` -/
def maxAwaitedPending : ℕ := 128
@[inherit_doc maxAwaitedPending] def maxFireAndForgetPending : ℕ := 64

/-- `CONTEXT_STORE_RPC_SELF_HEAL` -/
def consecutiveTimeoutsBeforeRespawn : ℕ := 3
@[inherit_doc consecutiveTimeoutsBeforeRespawn] def respawnCooldownMs : ℕ := 60000
@[inherit_doc consecutiveTimeoutsBeforeRespawn] def warmupBackoffBaseMs : ℕ := 500
@[inherit_doc consecutiveTimeoutsBeforeRespawn] def warmupBackoffMaxMs : ℤ := 60000

/-- `PendingEntry`, with its key and the generation of the worker that it was posted to. -/
structure PendingEntry where
  id : ℕ
  /-- When the timer fires. -/
  timer : Option ℕ
  fireAndForget : Bool
  generation : ℕ
deriving DecidableEq

/-- How a call is settled. -/
inductive Settlement
  | resolved
  | rejected (code : RpcErrorCode)
deriving DecidableEq

/-- `ContextStoreWorkerClient`, with the clock that it reads -/
structure Client where
  clock : ℕ
  /-- The generation of the worker. -/
  worker : Option ℕ := none
  nextId : ℕ := 1
  pending : List PendingEntry := []
  awaitedCount : ℕ := 0
  fireAndForgetCount : ℕ := 0
  warmReady : Bool := false
  /-- The generation whose readiness is awaited. -/
  readyPromise : Option ℕ := none
  consecutiveTimeouts : ℕ := 0
  lastRespawnAt : ℕ := 0
  consecutiveWorkerFailures : ℕ := 0
  lastWorkerFailureAt : ℕ := 0
  generationServedOk : Bool := false
  workerFailureRecordedGeneration : Option ℕ := none
  disposed : Bool := false
  workerGeneration : ℕ := 0
  started : Bool := false
  /-- The calls that were settled. -/
  settled : List (ℕ × Settlement) := []
  /-- The workers that announced that they are ready. -/
  announced : List ℕ := []
  /-- The workers that exited. -/
  exited : List ℕ := []
  /-- The workers that were counted as failures. -/
  failures : List ℕ := []
  /-- The workers that were given up for a timeout, or with the client. -/
  givenUp : List ℕ := []

/-- What a worker sends. -/
inductive WorkerMessage
  | ready (warmupError : Option String)
  | response (id : ℕ) (ok : Bool) (code : Option RpcErrorCode)
  | other
deriving DecidableEq

/-- The worker says that it is ready. -/
def WorkerMessage.announces : WorkerMessage → Bool
  | .ready warmupError => !warmupError.any (· ≠ "")
  | .response .. | .other => false

/-- What happens to a client. -/
inductive ClientEvent
  | tick (ms : ℕ)
  | start
  | whenReady
  | call (timeoutMs : Option ℤ) (cloneable : Bool)
  | fireAndForget (op : String) (cloneable : Bool)
  | callR1OrEmpty (budget : ℤ) (cloneable : Bool)
  /-- `run`, or `callOrElse` -/
  | run (timeoutMs : Option ℤ) (cloneable : Bool)
  | message (generation : ℕ) (msg : WorkerMessage)
  | error (generation : ℕ)
  | exit (generation : ℕ)
  | timeout (id : ℕ)
  | dispose
deriving DecidableEq

namespace Client

variable (client : Client)

/-- `ensureWorker` -/
def ensureWorker : Client :=
  if client.worker.isSome then client
  else
    let generation := client.workerGeneration + 1
    { client with
      warmReady := false
      generationServedOk := false
      readyPromise := some generation
      workerGeneration := generation
      worker := some generation }

/-- `isCurrentGeneration` -/
def isCurrentGeneration (generation : ℕ) : Bool := generation = client.workerGeneration

/-- `isRespawnCoolingDown` -/
def isRespawnCoolingDown : Bool :=
  0 < client.lastRespawnAt && client.clock < client.lastRespawnAt + respawnCooldownMs

/-- `<<` on numbers: the left operand as 32 bits, the right one as five -/
def shiftLeft (a k : ℕ) : ℤ := (BitVec.ofNat 32 a <<< (k % 32)).toInt

/-- `warmupBackoffMs` -/
def warmupBackoffMs : ℤ :=
  if client.consecutiveWorkerFailures ≤ 1 then 0
  else min (shiftLeft warmupBackoffBaseMs (client.consecutiveWorkerFailures - 2)) warmupBackoffMaxMs

/-- `isRespawnThrottled` -/
def isRespawnThrottled : Bool :=
  client.isRespawnCoolingDown || 1 < client.consecutiveWorkerFailures &&
    (client.clock - client.lastWorkerFailureAt : ℤ) < client.warmupBackoffMs

/-- `maybeRespawn` -/
def maybeRespawn : Client :=
  if client.disposed || client.worker.isSome || !client.started then client
  else if client.isRespawnThrottled then client
  else client.ensureWorker

/-- `start` -/
def start : Client :=
  if client.disposed then client else { client with started := true }.ensureWorker

/-- `whenReady` -/
def whenReady : Client :=
  if client.disposed then client
  else if client.worker.isNone && client.isRespawnThrottled then client
  else client.ensureWorker

/-- The promise of an entry is settled; that of a request that is not awaited does nothing. -/
def settle (entry : PendingEntry) (settlement : Settlement) : Client :=
  if entry.fireAndForget then client
  else { client with settled := client.settled ++ [(entry.id, settlement)] }

/-- `finish` -/
def finish (entry : PendingEntry) : Client :=
  let client := { client with pending := client.pending.filter (·.id ≠ entry.id) }
  if entry.fireAndForget then
    { client with fireAndForgetCount := client.fireAndForgetCount - 1 }
  else { client with awaitedCount := client.awaitedCount - 1 }

/-- The first part of `markWorkerUnavailable`: a worker is counted as a failure. -/
def recordFailure (generation : ℕ) (reason : WorkerDownReason) : Client :=
  if !client.generationServedOk && client.workerFailureRecordedGeneration ≠ some generation &&
      reason.isFailure then
    { client with
      consecutiveWorkerFailures := client.consecutiveWorkerFailures + 1
      lastWorkerFailureAt := client.clock
      workerFailureRecordedGeneration := some generation
      failures := client.failures ++ [generation] }
  else client

/-- The second part of `markWorkerUnavailable`: the worker is given up, and what is pending with
it. -/
def giveUp (code : RpcErrorCode) : Client :=
  { client with
    worker := none
    warmReady := false
    readyPromise := none
    pending := []
    settled := client.settled ++ (client.pending.filter (!·.fireAndForget)).map
      fun entry => (entry.id, .rejected code)
    awaitedCount := 0
    fireAndForgetCount := 0 }

/-- `markWorkerUnavailable` for the events of a worker -/
def markWorkerUnavailable (generation : ℕ) (code : RpcErrorCode) (reason : WorkerDownReason) :
    Client :=
  if client.isCurrentGeneration generation then
    (client.recordFailure generation reason).giveUp code
  else client

/-- `markWorkerUnavailable` without a generation, for `respawn` and `dispose` -/
def abandon (code : RpcErrorCode) : Client :=
  { client with givenUp := client.givenUp ++ client.worker.toList }.giveUp code

/-- `respawn` -/
def respawn : Client :=
  if client.clock < client.lastRespawnAt + respawnCooldownMs then client
  else { client with lastRespawnAt := client.clock, consecutiveTimeouts := 0 }.abandon .timeout

/-- `onTimeout`, when the timer of an entry fires -/
def onTimeout (id : ℕ) : Client :=
  match client.pending.find? (·.id = id) with
  | none => client
  | some entry =>
      let client := (client.finish entry).settle entry (.rejected .timeout)
      if entry.fireAndForget then client
      else
        let client := { client with consecutiveTimeouts := client.consecutiveTimeouts + 1 }
        if consecutiveTimeoutsBeforeRespawn ≤ client.consecutiveTimeouts then client.respawn
        else client

/-- `onMessage` -/
def onMessage (msg : WorkerMessage) (generation : ℕ) : Client :=
  if client.isCurrentGeneration generation then
    match msg with
    | .other => client
    | .ready warmupError =>
        if warmupError.any (· ≠ "") then
          client.markWorkerUnavailable generation .workerError .warmupError
        else { client with warmReady := true, readyPromise := none }
    | .response id ok code =>
        match client.pending.find? (·.id = id) with
        | none => client
        | some entry =>
            let client := client.finish entry
            if ok then
              { client with
                consecutiveTimeouts := 0
                consecutiveWorkerFailures := 0
                generationServedOk := true }.settle entry .resolved
            else client.settle entry (.rejected (code.getD .opFailed))
  else client

/-- A request is registered and posted to the worker; `tryPostMessage` -/
def dispatch (timeoutMs : ℤ) (fireAndForget cloneable : Bool) : Client :=
  let entry : PendingEntry :=
    { id := client.nextId
      timer := if 0 < timeoutMs then some (client.clock + timeoutMs.toNat) else none
      fireAndForget := fireAndForget
      generation := client.workerGeneration }
  let client := { client with
    nextId := client.nextId + 1
    pending := client.pending ++ [entry]
    awaitedCount := if fireAndForget then client.awaitedCount else client.awaitedCount + 1
    fireAndForgetCount :=
      if fireAndForget then client.fireAndForgetCount + 1 else client.fireAndForgetCount }
  if cloneable then client else (client.finish entry).settle entry (.rejected .cloneError)

/-- `call`: what is left of the client, and the call or why it is rejected at once -/
def call (timeoutMs : Option ℤ) (cloneable : Bool) : Client × Except RpcErrorCode ℕ :=
  if client.disposed then (client, .error .disposed)
  else if maxAwaitedPending ≤ client.awaitedCount then (client, .error .overloaded)
  else if client.worker.isNone && client.isRespawnThrottled then (client, .error .unavailable)
  else (client.ensureWorker.dispatch (timeoutMs.getD r3r5Management) false cloneable,
    .ok client.nextId)

/-- `fireAndForget` -/
def fireAndForget (op : String) (cloneable : Bool) : Client :=
  if client.disposed then client
  else if !isFireAndForgetOp op then client
  else if maxFireAndForgetPending ≤ client.fireAndForgetCount then client
  else if client.worker.isNone && client.isRespawnThrottled then client
  else client.ensureWorker.dispatch r4Background true cloneable

/-- `callR1OrEmpty` -/
def callR1OrEmpty (budget : ℤ) (cloneable : Bool) : Client :=
  if client.disposed then client
  else
    let client := client.maybeRespawn
    if client.warmReady then (client.call (some (min budget r1FrontOfTurnMax)) cloneable).1
    else client

/-- `run`, and `callOrElse`.  After a call that is rejected they throw if the client was started,
and else `maybeRespawn` does nothing. -/
def run (timeoutMs : Option ℤ) (cloneable : Bool) : Client :=
  if !client.disposed && client.warmReady then (client.call timeoutMs cloneable).1
  else client.maybeRespawn

/-- `dispose` -/
def dispose : Client := { client with disposed := true }.abandon .disposed

/-- A worker was made for this generation. -/
def created (generation : ℕ) : Bool := 0 < generation && generation ≤ client.workerGeneration

/-- One event of a client. -/
def step (client : Client) : ClientEvent → Client
  | .tick ms => { client with clock := client.clock + ms }
  | .start => client.start
  | .whenReady => client.whenReady
  | .call timeoutMs cloneable => (client.call timeoutMs cloneable).1
  | .fireAndForget op cloneable => client.fireAndForget op cloneable
  | .callR1OrEmpty budget cloneable => client.callR1OrEmpty budget cloneable
  | .run timeoutMs cloneable => client.run timeoutMs cloneable
  | .message generation msg =>
      if client.created generation then
        let announced :=
          if msg.announces then client.announced ++ [generation] else client.announced
        { client with announced := announced }.onMessage msg generation
      else client
  | .error generation =>
      if client.created generation then
        client.markWorkerUnavailable generation .workerError .workerError
      else client
  | .exit generation =>
      if client.created generation then
        { client with exited := client.exited ++ [generation] }.markWorkerUnavailable generation
          .workerExit .workerExit
      else client
  | .timeout id =>
      if client.pending.any fun entry => entry.id = id && entry.timer.any (· ≤ client.clock) then
        client.onTimeout id
      else client
  | .dispose => client.dispose

end Client

end Imcodes.Context
