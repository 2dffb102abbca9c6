import Imcodes.Transport.Callbacks

/-!
# Promises, timers and sends

The rest of a dispatch behind each promise it waits for, what the timers of
`TransportSessionRuntime` call, and `send`.
-/

namespace Imcodes.Transport

open Imcodes.Queue Relational

/-! ## What is sent -/

structure TransportSendMetadata where
  sharedActor : Option SharedActorEnvelope := none
  queuePlacement : Option QueuePlacement := none
  timelineCommitted : Bool := false
  historyCommitted : Bool := false
deriving DecidableEq

structure SendInput where
  message : String
  clientMessageId : Option String := none
  attachments : Option (List TransportAttachment) := none
  messagePreamble : Option String := none
  metadata : TransportSendMetadata := {}
deriving DecidableEq

inductive SendResult
  | sent
  | queued
  | threw (message : String)
deriving DecidableEq

/-- Where `send` places the message when it has to wait. -/
def SendInput.placement (input : SendInput) : QueuePlacement :=
  input.metadata.queuePlacement.getD .normal

/-- The entry that `send` makes. -/
def SendInput.entry (input : SendInput) (uuid : String) (serial : Nat) : PendingEntry where
  clientMessageId := input.clientMessageId.getD uuid
  text := input.message
  messagePreamble := trimmedOrNone input.messagePreamble
  attachments := input.attachments.filter (· ≠ [])
  sharedActor := input.metadata.sharedActor
  timelineCommitted := input.metadata.timelineCommitted
  historyCommitted := input.metadata.historyCommitted
  serial := serial
  intake := if input.placement = .front then .front else .normal

/-- The private material that `send` stores beside an entry. -/
def PendingEntry.material (e : PendingEntry) : QueuePrivateDispatchMaterial where
  clientMessageId := e.clientMessageId
  text := e.text
  messagePreamble := e.messagePreamble
  attachmentRefs := e.attachments
  sharedActorEnvelope := e.sharedActor
  timelineCommitted := if e.timelineCommitted then some true else none
  historyCommitted := if e.historyCommitted then some true else none

/-- What `send` passes to the store's `enqueue`. -/
def PendingEntry.enqueueInput (e : PendingEntry) (sessionKey : String)
    (generation : ActivityGenerationLike) (placement : QueuePlacement) :
    EnqueueTransportQueueEntryInput where
  sessionName := sessionKey
  clientMessageId := some e.clientMessageId
  commandId := some e.clientMessageId
  text := e.text
  placement := some placement
  activityGeneration := (normalizeActivityGeneration (some generation)).map .string
  privateMaterialJson := some e.material

namespace TransportSessionRuntime

variable (localeCompare : Collation) (env : StepEnv)

/-! ## The rest of a dispatch -/

/-- The task goes on to another phase. -/
def setPhase (dispatchId : Nat) (phase : DispatchPhase) (rt : TransportSessionRuntime) :
    TransportSessionRuntime :=
  { rt with tasks := rt.tasks.map fun t =>
      if t.dispatchId = dispatchId then { t with phase } else t }

/-- The task ends. -/
def endTask (dispatchId : Nat) (rt : TransportSessionRuntime) : TransportSessionRuntime :=
  { rt with tasks := rt.tasks.filter (·.dispatchId ≠ dispatchId) }

/-- The body of a dispatch after a promise it awaits while it puts the payload
together. -/
def contextReady (dispatchId : Nat) (next : DispatchPhase) (rt : TransportSessionRuntime) :
    TransportSessionRuntime :=
  if rt.isDispatchLocallyCancelled dispatchId then
    cancelActiveDispatchLocally localeCompare env env.view (some dispatchId)
      (rt.endTask dispatchId)
  else rt.setPhase dispatchId next

/-- `onBeforeProviderSend`; when it throws, the body goes on to `dispatchRejected`. -/
def onBeforeProviderSend (dispatchId : Nat) (rt : TransportSessionRuntime) :
    TransportSessionRuntime :=
  if rt.isDispatchLocallyCancelled dispatchId then rt
  else
    let rt := (rt.setPhase dispatchId .sending).note (.handed dispatchId)
    if rt.activeDispatchId = some dispatchId then { rt with activeDispatchProviderStarted := true }
    else rt

/-- The body of a dispatch after the provider has accepted the message.  A late
cancel is passed on to the provider. -/
def dispatchAccepted (dispatchId : Nat) (rt : TransportSessionRuntime) :
    TransportSessionRuntime :=
  let rt := rt.endTask dispatchId
  if rt.isDispatchLocallyCancelled dispatchId then
    if rt.provider.canCancel then rt.note .cancelled else rt
  else { rt with recoverableDispatchRetries := 0 }

/-- `MAX_RECOVERABLE_DISPATCH_RETRIES` -/
def maxRecoverableDispatchRetries : Nat := 15

/-- `MAX_RECOVERABLE_BUSY_DISPATCH_RETRIES` -/
def maxRecoverableBusyDispatchRetries : Nat := 3

/-- `RECOVERABLE_DISPATCH_RETRY_MAX_MS` -/
def recoverableDispatchRetryMaxMs : Int := 8000

/-- The text contains the word, in any case. -/
def containsIgnoreCase (text word : String) : Bool :=
  text.toList.tails.any fun tail =>
    (word.toList.map Char.toLower).isPrefixOf (tail.map Char.toLower)

/-- `isRecoverableProviderBusyError` -/
def isRecoverableProviderBusyError (error : ProviderError) : Bool :=
  error.code = "PROVIDER_ERROR" &&
    ["already busy", "session is busy", "provider is busy"].any (containsIgnoreCase error.message)

/-- `requeueAndScheduleRecoverableRetry`: `none` for `false`. -/
def requeueAndScheduleRecoverableRetry (rt : TransportSessionRuntime) :
    Option TransportSessionRuntime :=
  if rt.activeDispatchEntries = [] then none
  else if rt.recoverableDispatchRetries ≥ maxRecoverableDispatchRetries then none
  else
    let rt := { rt with
      recoverableDispatchRetries := rt.recoverableDispatchRetries + 1
      recoverableRetryEntryCount := rt.activeDispatchEntries.length
      pendingMessages := rt.activeDispatchEntries ++ rt.pendingMessages
      pendingVersion := rt.pendingVersion + 1
      activeDispatchEntries := []
      recoverableRetryTimer := true
      retriedSerials := rt.activeDispatchEntries.map PendingEntry.serial
      jumpedSerials := [] }
    some (rt.putStatus .thinking)

/-- The handler of a rejected dispatch, for an error after which the queue may
drain. -/
def giveUpOrRetry (error : ProviderError) (rt : TransportSessionRuntime) :
    TransportSessionRuntime :=
  let isRecoverableBusy := isRecoverableProviderBusyError error
  let canRetryRecoverable := !error.isCancelled &&
    (!isRecoverableBusy || rt.recoverableDispatchRetries < maxRecoverableBusyDispatchRetries)
  match if canRetryRecoverable then rt.requeueAndScheduleRecoverableRetry else none with
  | some rt => rt
  | none =>
    let rt := { rt with recoverableDispatchRetries := 0 }.clearRecoverableRetryTimer
    if error.recoverable && isRecoverableBusy && rt.activeDispatchEntries.length > 0 then
      { rt with
        pendingMessages := rt.activeDispatchEntries ++ rt.pendingMessages
        pendingVersion := rt.pendingVersion + 1
        activeDispatchEntries := [] }.putStatus .error
    else
      drainOrSetStatus localeCompare env env.view (if error.isCancelled then .idle else .error)
        rt.dropActiveEntries

/-- The handler of a rejected dispatch. -/
def dispatchRejected (dispatchId : Nat) (error : ProviderError) (rt : TransportSessionRuntime) :
    TransportSessionRuntime :=
  let rt := (rt.endTask dispatchId).note (.ended dispatchId)
  if rt.activeDispatchId ≠ some dispatchId ∨ !rt.sending ∨ !rt.activeTurn then
    rt.deleteLocallyCancelled dispatchId
  else match handleSdkTurnLostRecovery localeCompare env error rt with
    | some rt => rt
    | none =>
      let rt := rt.endTurn.releaseDispatch.deleteLocallyCancelled dispatchId
      if error.isCancelled || error.recoverable then giveUpOrRetry localeCompare env error rt
      else (rt.putStatus .error).dropActiveEntries

/-! ## Timers -/

/-- `runRecoverableRetryTick` -/
def runRecoverableRetryTick (rt : TransportSessionRuntime) : TransportSessionRuntime :=
  if !rt.recoverableRetryTimer then rt
  else
    let rt := rt.clearRecoverableRetryTimer
    if rt.providerSessionId = none ∨ rt.pendingMessages = [] then rt
    else if rt.sending || rt.activeTurn then rt
    else if env.now - rt.lastProviderOutputAt < recoverableDispatchRetryMaxMs then
      -- `armRecoverableRetryTimer`
      { rt with recoverableRetryTimer := true }
    else (drainPending localeCompare env env.view rt).2

/-- The callback of `scheduleStalePendingCancelFallback`. -/
def runStalePendingCancelFallback (rt : TransportSessionRuntime) : TransportSessionRuntime :=
  match rt.stalePendingCancelFallbackTimer with
  | none => rt
  | some dispatchId =>
    let rt := rt.clearStalePendingCancelFallbackTimer
    if !rt.activeDispatchStaleRecoveryStarted then rt
    else if dispatchId.isSome ∧ rt.activeDispatchId ≠ dispatchId then rt
    else if rt.pendingMessages = [] then rt
    else cancelActiveDispatchLocally localeCompare env env.view dispatchId rt

/-! ## Sending -/

/-- `isSessionCompactCommandText` -/
def isSessionCompactCommandText (text : String) : Bool := jsTrim text = "/compact"

/-- `'TransportSessionRuntime not initialized — call initialize() first'` -/
def notInitialized : String := "TransportSessionRuntime not initialized — call initialize() first"

/-- What `send` throws before it looks at the queue. -/
def sendRefusal (input : SendInput) (rt : TransportSessionRuntime) : Option String :=
  if rt.providerSessionId = none then some notInitialized
  else if isSessionCompactCommandText input.message then
    rt.provider.compactUnsupported.map fun reason =>
      (trimmedOrNone reason).getD (rt.provider.id ++ " does not support /compact")
  else none

/-- `send`, when the message has to wait. -/
def sendQueued (input : SendInput) (rt : TransportSessionRuntime) : TransportSessionRuntime :=
  let entry := input.entry env.uuid rt.nextSerial
  let (_, store) := enqueue localeCompare env.store
    (entry.enqueueInput rt.sessionKey rt.currentActivityGeneration input.placement) rt.store
  { rt with
    pendingMessages :=
      if input.placement = .front then entry :: rt.pendingMessages
      else rt.pendingMessages ++ [entry]
    store := store
    pendingVersion := rt.pendingVersion + 1
    nextSerial := rt.nextSerial + 1
    jumpedSerials :=
      if input.placement = .front then entry.serial :: rt.jumpedSerials else rt.jumpedSerials
    trace := rt.trace ++ [.accepted entry.serial entry.intake entry.clientMessageId] }

/-- `send`, when the message starts a turn of its own. -/
def sendDirect (input : SendInput) (rt : TransportSessionRuntime) : TransportSessionRuntime :=
  let entry := { input.entry env.uuid rt.nextSerial with timelineCommitted := true }
  let rt := { rt with
    nextSerial := rt.nextSerial + 1
    trace := rt.trace ++ [.accepted entry.serial entry.intake entry.clientMessageId,
      .sent entry.clientMessageId] }
  dispatchTurn env rt input.message input.attachments [entry]

/-- `send` -/
def send (input : SendInput) (rt : TransportSessionRuntime) :
    SendResult × TransportSessionRuntime :=
  match rt.sendRefusal input with
  | some message => (.threw message, rt)
  | none =>
    if rt.hasActiveTurnWork env.view then (.queued, sendQueued localeCompare env input rt)
    else (.sent, sendDirect env input rt)

end TransportSessionRuntime

end Imcodes.Transport
