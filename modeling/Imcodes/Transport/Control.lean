import Imcodes.Machine.Runs
import Imcodes.Transport.Calls

/-!
# The queue, STOP, and recovery

The public methods of `TransportSessionRuntime` other than `send`, and the runs
of a runtime: any call, callback, promise or timer, one after the other.
-/

namespace Imcodes.Transport

open Imcodes.Queue Relational

/-- The entry that `rehydratePendingFromStore` makes of private material. -/
def recoveredFromMaterial (clientMessageId : String) (material : QueuePrivateDispatchMaterial) :
    PendingTransportMessage where
  clientMessageId := clientMessageId
  text := material.text
  messagePreamble := material.messagePreamble.filter (· ≠ "")
  attachments := material.attachmentRefs.filter (· ≠ [])
  sharedActor := material.sharedActorEnvelope
  timelineCommitted := material.timelineCommitted = some true
  historyCommitted := material.historyCommitted = some true

namespace TransportSessionRuntime

variable (localeCompare : Collation) (env : StepEnv)

/-! ## The queue -/

/-- What `editPendingMessage` makes of an entry. -/
def editedEntry (text : String) (e : PendingEntry) : PendingEntry :=
  { e with text := text, messagePreamble := none }

/-- Changes the first entry with the id. -/
def editFirst (clientMessageId text : String) : List PendingEntry → List PendingEntry
  | [] => []
  | e :: rest =>
      if e.clientMessageId = clientMessageId then editedEntry text e :: rest
      else e :: editFirst clientMessageId text rest

/-- `editPendingMessage` -/
def editPendingMessage (clientMessageId text : String) (rt : TransportSessionRuntime) :
    Bool × TransportSessionRuntime :=
  if clientMessageId = "" ∨ text = "" then (false, rt)
  else if rt.pendingMessages.all (·.clientMessageId ≠ clientMessageId) then (false, rt)
  else
    (true, { rt with
      pendingMessages := editFirst clientMessageId text rt.pendingMessages
      store := (edit localeCompare env.store rt.sessionKey clientMessageId text rt.store).2
      pendingVersion := rt.pendingVersion + 1 })

/-- `removePendingMessage` -/
def removePendingMessage (clientMessageId : String) (rt : TransportSessionRuntime) :
    Option PendingEntry × TransportSessionRuntime :=
  if clientMessageId = "" then (none, rt)
  else match rt.pendingMessages.find? (·.clientMessageId = clientMessageId) with
    | none => (none, rt)
    | some removed =>
      (some removed, { rt with
        pendingMessages := rt.pendingMessages.eraseP (·.clientMessageId = clientMessageId)
        store :=
          (drop localeCompare env.store rt.sessionKey clientMessageId .userCleared rt.store).2
        pendingVersion := rt.pendingVersion + 1
        trace := rt.trace ++ [.withdrawn [removed.serial]] })

/-- `removePendingMessagesByCommandIdPrefix` -/
def removePendingMessagesByCommandIdPrefix (commandIdPrefix : String)
    (rt : TransportSessionRuntime) : List PendingEntry × TransportSessionRuntime :=
  if commandIdPrefix = "" then ([], rt)
  else
    let (removed, kept) :=
      rt.pendingMessages.partition fun e => jsStartsWith e.clientMessageId commandIdPrefix
    if removed = [] then ([], rt)
    else
      (removed, { rt with
        pendingMessages := kept
        pendingVersion := rt.pendingVersion + 1
        trace := rt.trace ++ [.withdrawn (removed.map (·.serial))] })

/-- `drainPendingIfIdle` -/
def drainPendingIfIdle (rt : TransportSessionRuntime) : Bool × TransportSessionRuntime :=
  if rt.status ≠ .idle ∧ rt.status ≠ .toolRunning then (false, rt)
  else drainPendingIfNoActiveTurn localeCompare env env.view rt

/-! ## STOP -/

/-- `cancel`, while a recoverable auto-retry waits for its timer. -/
def cancelRetry (rt : TransportSessionRuntime) : TransportSessionRuntime :=
  let retriedEntryCount := rt.recoverableRetryEntryCount
  let rt := { rt.clearRecoverableRetryTimer with
    recoverableDispatchRetries := 0
    recoverableRetryEntryCount := 0 }
  let rt :=
    if retriedEntryCount > 0 then
      { rt with
        pendingMessages := rt.pendingMessages.drop retriedEntryCount
        pendingVersion := rt.pendingVersion + 1
        trace := rt.trace ++
          [.withdrawn ((rt.pendingMessages.take retriedEntryCount).map (·.serial))] }
    else rt
  drainOrSetStatus localeCompare env env.view .idle
    rt.markCurrentActivityGenerationLocallyCancelled.closeOpenTools

/-- `cancel`, but for a retry. -/
def cancelTurn (rt : TransportSessionRuntime) : TransportSessionRuntime :=
  let dispatchId := rt.activeDispatchId
  let rt := dispatchId.elim rt fun id =>
    { rt.addLocallyCancelled id with activeDispatchCancelled := true }
  if !rt.activeTurn && !rt.sending && rt.activeDispatchEntries = [] &&
      !rt.hasActiveTurnWork env.view then
    drainOrSetStatus localeCompare env env.view .idle rt
  else if (rt.activeTurn && !rt.activeDispatchProviderStarted) || !rt.provider.canCancel then
    cancelActiveDispatchLocally localeCompare env env.view dispatchId rt
  else
    let rt := { rt.note .cancelled with
      cancelledProviderErrorsToIgnore := rt.cancelledProviderErrorsToIgnore + 1 }
    cancelActiveDispatchLocally localeCompare env env.viewAfterCancel dispatchId rt

/-- `cancel`, once it has been seen that the session is bound. -/
def cancelBound (rt : TransportSessionRuntime) : TransportSessionRuntime :=
  if rt.recoverableRetryTimer && !rt.activeTurn && !rt.sending then
    cancelRetry localeCompare env rt
  else cancelTurn localeCompare env rt

/-- `cancel` -/
def cancel (rt : TransportSessionRuntime) : Except String TransportSessionRuntime :=
  if rt.providerSessionId = none then .error notInitialized
  else .ok (cancelBound localeCompare env rt)

/-! ## Settlement from outside -/

/-- `shouldCancelProvider` of `settleActiveDispatchFromExternalCompletion` -/
def shouldCancelProvider (rt : TransportSessionRuntime) : Bool :=
  let activity := rt.getActivitySnapshot env.view
  let providerSnapshotHasActiveWork := activity.providerSnapshot.any fun x =>
    x.activeWorkCount > 0 || x.activeToolCount > 0 || x.busyReasons.length > 0
  (rt.provider.canCancel && rt.providerSessionId.isSome) &&
    (rt.activeDispatchProviderStarted || providerSnapshotHasActiveWork)

/-- `settleActiveDispatchFromExternalCompletion` -/
def settleActiveDispatchFromExternalCompletion (rt : TransportSessionRuntime) :
    Bool × TransportSessionRuntime :=
  if rt.blockingWorkCount env.view = 0 then (false, rt)
  else
    let cancels := shouldCancelProvider env rt
    let rt := rt.activeDispatchId.elim rt rt.addLocallyCancelled
    let rt := rt.markCurrentActivityGenerationLocallyCancelled
    let rt := { rt with externalCompletionSettlementsToIgnore :=
      rt.externalCompletionSettlementsToIgnore + if cancels then 1 else 0 }
    let rt := rt.endTurn.dropActiveEntries.releaseDispatch.closeOpenTools
    let rt := if cancels then rt.note .cancelled else rt
    (true, drainOrSetStatus localeCompare env (if cancels then env.viewAfterCancel else env.view)
      .idle rt)

/-! ## Watchdogs -/

/-- `TRANSPORT_STALE_ACTIVE_TURN_WITH_TOOL_MS`, unless the environment sets it. -/
def transportStaleActiveTurnWithToolMs : Int := 15 * 60000

/-- `TRANSPORT_STALE_SILENT_ACTIVE_TURN_MS`, unless the environment sets it. -/
def transportStaleSilentActiveTurnMs : Int := 30 * 60000

/-- `cancelStaleActiveTurnWithPending` -/
def cancelStaleActiveTurnWithPending (nowMs : Option Int) (staleMs : Int)
    (rt : TransportSessionRuntime) : Bool × TransportSessionRuntime :=
  if rt.activeDispatchStaleRecoveryStarted then (false, rt)
  else if rt.providerSessionId = none then (false, rt)
  else if rt.pendingMessages = [] then (false, rt)
  else if !rt.hasInFlightDispatchWork then (false, rt)
  else
    let providerOutputAt :=
      if rt.lastProviderOutputAt ≠ 0 then rt.lastProviderOutputAt else rt.lastActivityAt
    if max 0 (nowMs.getD env.now - providerOutputAt) < staleMs then (false, rt)
    else
      (true, cancelBound localeCompare env { rt with
        activeDispatchStaleRecoveryStarted := true
        stalePendingCancelFallbackTimer := some rt.activeDispatchId })

/-- `recoverSilentActiveTurn` -/
def recoverSilentActiveTurn (nowMs : Option Int) (staleMs : Int) (rt : TransportSessionRuntime) :
    Bool × TransportSessionRuntime :=
  if !rt.hasActiveTurnWork env.view then (false, rt)
  else if rt.providerSessionId = none then (false, rt)
  else
    let staleMs :=
      if (rt.getActivitySnapshot env.view).activeToolCount > 0 then
        max staleMs transportStaleActiveTurnWithToolMs
      else max staleMs transportStaleSilentActiveTurnMs
    if max 0 (nowMs.getD env.now - rt.lastActivityAt) < staleMs then (false, rt)
    else settleActiveDispatchFromExternalCompletion localeCompare env rt

/-! ## Recovery -/

/-- What `rehydratePendingFromStore` finds for one row of the snapshot. -/
def recoverRow (projection : QueueProjectionEntry) (rt : TransportSessionRuntime) :
    Option PendingTransportMessage × TransportSessionRuntime :=
  let id := projection.clientMessageId
  let (tombstone, store) := hasDeliveryTombstone rt.sessionKey id rt.store
  let rt := { rt with store := store }
  match tombstone with
  | .ok true => (none, rt)
  | _ =>
    let (material, store) := readPrivateDispatchMaterial rt.sessionKey id rt.store
    let rt := { rt with store := store }
    match material with
    | .ok (some material) => (some (recoveredFromMaterial id material), rt)
    | _ =>
      if projection.text ≠ "" then (some { clientMessageId := id, text := projection.text }, rt)
      else
        (none, { rt with store :=
          (markMissingPrivateMaterialFailed localeCompare env.store rt.sessionKey id rt.store).2 })

/-- The loop of `rehydratePendingFromStore`. -/
def recoverRows : List QueueProjectionEntry → List String → TransportSessionRuntime →
    List PendingTransportMessage × TransportSessionRuntime
  | [], _, rt => ([], rt)
  | projection :: rest, liveIds, rt =>
      if projection.status ≠ .queued then recoverRows rest liveIds rt
      else if projection.clientMessageId ∈ liveIds then recoverRows rest liveIds rt
      else match recoverRow localeCompare env projection rt with
        | (none, rt) => recoverRows rest liveIds rt
        | (some entry, rt) =>
          let (recovered, rt) := recoverRows rest (entry.clientMessageId :: liveIds) rt
          (entry :: recovered, rt)

/-- The ids of `_pendingMessages` and `_activeDispatchEntries`. -/
def liveIds (rt : TransportSessionRuntime) : List String :=
  rt.pendingMessages.map (·.clientMessageId) ++ rt.activeDispatchEntries.map (·.clientMessageId)

/-- The part of `rehydratePendingFromStore` that reads: what it recovers, and
the store after it. -/
def readRecoverable (rt : TransportSessionRuntime) :
    List PendingTransportMessage × TransportSessionRuntime :=
  if rt.providerSessionId = none then ([], rt)
  else
    match readSnapshot localeCompare env.store rt.sessionKey "restart_rehydrate" rt.store with
    | (.error _, store) => ([], { rt with store := store })
    | (.ok snapshot, store) =>
        recoverRows localeCompare env snapshot.pendingMessageEntries rt.liveIds
          { rt with store := store }

/-- The recovered messages, as entries of the queue. -/
def recoveredEntries (serial : Nat) : List PendingTransportMessage → List PendingEntry
  | [] => []
  | m :: rest =>
      { m with serial := serial, intake := .recovered } :: recoveredEntries (serial + 1) rest

/-- `rehydratePendingFromStore` -/
def rehydratePendingFromStore (rt : TransportSessionRuntime) : Nat × TransportSessionRuntime :=
  let (recovered, rt) := readRecoverable localeCompare env rt
  if recovered = [] then (0, rt)
  else
    let entries := recoveredEntries rt.nextSerial recovered
    (recovered.length, { rt with
      pendingMessages := rt.pendingMessages ++ entries
      pendingVersion := rt.pendingVersion + 1
      nextSerial := rt.nextSerial + recovered.length
      trace := rt.trace ++ entries.map fun e => .recovered e.serial e.clientMessageId })

/-! ## The end -/

/-- `kill`, up to the promise of the provider's `endSession`. -/
def kill (rt : TransportSessionRuntime) : TransportSessionRuntime :=
  { rt with subscribed := false }

/-- What `kill` clears. -/
def killed (rt : TransportSessionRuntime) : TransportSessionRuntime :=
  let rt := rt.endTurn.dropActiveEntries.closeOpenTools.releaseDispatch.clearRecoverableRetryTimer
  { rt with
    providerSessionId := none
    locallyCancelledDispatchIds := []
    locallyCancelledActivityGenerations := []
    currentActivityGenerationLocallyCancelled := false
    externalCompletionSettlementsToIgnore := 0
    cancelledProviderErrorsToIgnore := 0
    recoverableDispatchRetries := 0
    pendingMessages := []
    trace := rt.trace ++ [.withdrawn (rt.pendingMessages.map (·.serial))] }

/-- The rest of `kill`. -/
def finishKill (preserveTransportQueue : Bool) (rt : TransportSessionRuntime) :
    TransportSessionRuntime :=
  let store :=
    if rt.pendingMessages = [] ∨ preserveTransportQueue then rt.store
    else (reset localeCompare env.store rt.sessionKey .userClear none rt.store).2
  let pendingVersion :=
    if rt.pendingMessages = [] then rt.pendingVersion else rt.pendingVersion + 1
  setStatus localeCompare env env.view .idle
    { rt.killed with store := store, pendingVersion := pendingVersion }

/-- `setProviderSessionId`, and the end of `initialize`.  The empty id counts as
none. -/
def setProviderSessionId (id : String) (rt : TransportSessionRuntime) :
    TransportSessionRuntime :=
  { rt with providerSessionId := if id = "" then none else some id }

/-- `new TransportSessionRuntime(provider, sessionKey)`, beside a queue store. -/
def create (provider : Provider) (sessionKey : String) (store : StoreConn) :
    TransportSessionRuntime :=
  { provider, sessionKey, store }

end TransportSessionRuntime

/-! ## Runs -/

/-- Anything that can happen to a runtime.  What the provider calls for a turn
says which dispatch it is for; the runtime is not told. -/
inductive Event
  | setProviderSessionId (id : String)
  | send (input : SendInput)
  | editPendingMessage (clientMessageId text : String)
  | removePendingMessage (clientMessageId : String)
  | removePendingMessagesByCommandIdPrefix (commandIdPrefix : String)
  | cancel
  | drainPendingIfIdle
  | rehydratePendingFromStore
  | cancelStaleActiveTurnWithPending (nowMs : Option Int) (staleMs : Int)
  | recoverSilentActiveTurn (nowMs : Option Int) (staleMs : Int)
  | settleActiveDispatchFromExternalCompletion
  | kill
  | finishKill (preserveTransportQueue : Bool)
  | onDelta (dispatchId : Nat) (sid : String)
  | onComplete (dispatchId : Nat) (sid content : String)
  | onError (dispatchId : Nat) (sid : String) (error : ProviderError)
  | onToolCall (sid : String) (tool : ToolCallEvent)
  | onApprovalRequest (sid : String)
  | onSign (sid : String)
  | contextReady (dispatchId : Nat) (next : DispatchPhase)
  | onBeforeProviderSend (dispatchId : Nat)
  | dispatchAccepted (dispatchId : Nat)
  | dispatchRejected (dispatchId : Nat) (error : ProviderError)
  | runRecoverableRetryTick
  | runStalePendingCancelFallback
deriving DecidableEq

namespace TransportSessionRuntime

/-- What an event does.  A call that throws changes nothing. -/
def step (localeCompare : Collation) (env : StepEnv) (rt : TransportSessionRuntime) :
    Event → TransportSessionRuntime
  | .setProviderSessionId id => rt.setProviderSessionId id
  | .send input => (send localeCompare env input rt).2
  | .editPendingMessage id text => (editPendingMessage localeCompare env id text rt).2
  | .removePendingMessage id => (removePendingMessage localeCompare env id rt).2
  | .removePendingMessagesByCommandIdPrefix commandIdPrefix =>
      (removePendingMessagesByCommandIdPrefix commandIdPrefix rt).2
  | .cancel => (cancel localeCompare env rt).toOption.getD rt
  | .drainPendingIfIdle => (drainPendingIfIdle localeCompare env rt).2
  | .rehydratePendingFromStore => (rehydratePendingFromStore localeCompare env rt).2
  | .cancelStaleActiveTurnWithPending nowMs staleMs =>
      (cancelStaleActiveTurnWithPending localeCompare env nowMs staleMs rt).2
  | .recoverSilentActiveTurn nowMs staleMs =>
      (recoverSilentActiveTurn localeCompare env nowMs staleMs rt).2
  | .settleActiveDispatchFromExternalCompletion =>
      (settleActiveDispatchFromExternalCompletion localeCompare env rt).2
  | .kill => rt.kill
  | .finishKill preserve => finishKill localeCompare env preserve rt
  | .onDelta _ sid => onDelta env sid rt
  | .onComplete dispatchId sid content =>
      onComplete localeCompare env sid content (rt.note (.ended dispatchId))
  | .onError dispatchId sid error =>
      onError localeCompare env sid error (rt.note (.ended dispatchId))
  | .onToolCall sid tool => onToolCall localeCompare env sid tool rt
  | .onApprovalRequest sid => onApprovalRequest env sid rt
  | .onSign sid => onSign env sid rt
  | .contextReady dispatchId next => contextReady localeCompare env dispatchId next rt
  | .onBeforeProviderSend dispatchId => rt.onBeforeProviderSend dispatchId
  | .dispatchAccepted dispatchId => rt.dispatchAccepted dispatchId
  | .dispatchRejected dispatchId error => dispatchRejected localeCompare env dispatchId error rt
  | .runRecoverableRetryTick => runRecoverableRetryTick localeCompare env rt
  | .runStalePendingCancelFallback => runStalePendingCancelFallback localeCompare env rt

/-- A run of a runtime: events, with what each gets from outside. -/
abbrev Steps := List (StepEnv × Event)

/-- The runtime after a run. -/
def run (localeCompare : Collation) (steps : Steps) (rt : TransportSessionRuntime) :
    TransportSessionRuntime :=
  Machine.run (fun rt p => step localeCompare p.1 rt p.2) steps rt

end TransportSessionRuntime

/-! ## Values for examples -/

/-- A step in which the provider has no snapshot to give. -/
def exampleStepEnv (uuid : String) : StepEnv := ⟨1000, .none, .none, uuid, exampleEnv 0⟩

def exampleProvider : Provider := ⟨"sdk", true, none⟩

end Imcodes.Transport
