import Imcodes.Transport.State

/-!
# Turns

How a turn begins, and how the queue is drained into one.

`setStatus('idle')` tries to drain the queue first, and a drain that is
deferred may set the status to `tool_running`; so `putStatus`, the case without
a drain, comes before both.
-/

namespace Imcodes.Transport

open Imcodes.Queue

/-- What `_dispatchTurn` makes of an entry. -/
def PendingEntry.recordedCopy (e : PendingEntry) : PendingEntry :=
  { e with historyCommitted := true }

/-- What `_drainPending` makes of an entry. -/
def PendingEntry.listedCopy (e : PendingEntry) : PendingEntry :=
  { e with timelineCommitted := true }

namespace TransportSessionRuntime

variable (localeCompare : Collation) (env : StepEnv)

/-- `_dispatchTurn`, up to the first promise it waits for. -/
def dispatchTurn (rt : TransportSessionRuntime) (message : String)
    (attachments : Option (List TransportAttachment)) (entries : List PendingEntry) :
    TransportSessionRuntime :=
  let dispatchId := rt.nextDispatchId + 1
  let activityGeneration := rt.activityGeneration + 1
  let historyEntries := entries.filter fun e => !e.historyCommitted
  { rt with
    nextDispatchId := dispatchId
    activityGeneration := activityGeneration
    currentActivityGenerationLocallyCancelled := false
    -- `closeOpenTools` with `olderThanGeneration`
    openTools := rt.openTools.filter fun tool => tool.generation ≥ activityGeneration
    lastActivityAt := env.now
    sending := true
    activeDispatchCancelled := false
    activeDispatchProviderStarted := false
    activeDispatchHasSideEffectEvidence := false
    activeDispatchId := some dispatchId
    activeDispatchStaleRecoveryStarted := false
    activeDispatchEntries := entries.map PendingEntry.recordedCopy
    activeTurn := true
    history :=
      if historyEntries = [] then rt.history
      else rt.history ++ [.user ("\n\n".intercalate (historyEntries.map (·.text)))]
    status := .thinking
    tasks := rt.tasks ++ [⟨dispatchId, message, attachments, .bootstrap⟩]
    trace := rt.trace ++
      [.recorded (historyEntries.map (·.clientMessageId)),
        .dispatched (entries.map fun e => (e.serial, e.clientMessageId))] }

/-- `_drainPending`, once it has been decided to drain. -/
def drainAll (rt : TransportSessionRuntime) : TransportSessionRuntime :=
  let rt := rt.clearRecoverableRetryTimer
  let timelineMessages := rt.pendingMessages.filter fun e => !e.timelineCommitted
  let messages := rt.pendingMessages.map PendingEntry.listedCopy
  let (queueResult, store) := finalizeSentBatch localeCompare env.store rt.sessionKey
    (messages.map (·.clientMessageId)) env.uuid rt.store
  let pendingVersion :=
    match queueResult with
    | .ok r => max rt.pendingVersion r.snapshot.pendingMessageVersion
    | .error _ => rt.pendingVersion + 1
  let merged := "\n\n".intercalate (messages.map (·.text))
  let attachments := messages.flatMap fun e => e.attachments.getD []
  let rt := { rt with
    pendingMessages := []
    store := store
    pendingVersion := pendingVersion
    sending := true
    trace := rt.trace ++ [.listed (timelineMessages.map (·.clientMessageId))] }
  dispatchTurn env rt merged (if attachments = [] then none else some attachments) messages

/-- `_drainPending`: whether a turn was started, and the state after it. -/
def drainPending (view : ActiveWorkRead) (rt : TransportSessionRuntime) :
    Bool × TransportSessionRuntime :=
  if rt.pendingMessages = [] ∨ rt.providerSessionId = none then (false, rt)
  else if rt.blockingWorkCount view > 0 then
    (false, if rt.status = .idle then rt.putStatus .toolRunning else rt)
  else (true, drainAll localeCompare env rt)

/-- The stale entries that `drainPendingIfNoActiveTurn` finds without a turn. -/
def clearStaleEntries (rt : TransportSessionRuntime) : TransportSessionRuntime :=
  if rt.activeDispatchEntries.length > 0 then
    { rt with
      activeDispatchEntries := []
      activeDispatchId := none
      activeDispatchProviderStarted := false
      activeDispatchCancelled := false
      activeDispatchStaleRecoveryStarted := false }
  else rt

/-- `drainPendingIfNoActiveTurn` -/
def drainPendingIfNoActiveTurn (view : ActiveWorkRead) (rt : TransportSessionRuntime) :
    Bool × TransportSessionRuntime :=
  if rt.sending || rt.activeTurn then (false, rt)
  else
    let rt := rt.clearStaleEntries
    if rt.blockingWorkCount view > 0 then
      (false, if rt.status = .idle then rt.putStatus .toolRunning else rt)
    else if rt.pendingMessages = [] ∨ rt.providerSessionId = none then (false, rt)
    else drainPending localeCompare env view rt

/-- `setStatus` -/
def setStatus (view : ActiveWorkRead) (status : AgentStatus) (rt : TransportSessionRuntime) :
    TransportSessionRuntime :=
  if status = .idle then
    match drainPendingIfNoActiveTurn localeCompare env view rt with
    | (true, rt) => rt
    | (false, rt) =>
        if rt.blockingWorkCount view > 0 then rt.putStatus .toolRunning else rt.putStatus .idle
  else rt.putStatus status

/-- `if (!this._drainPending()) this.setStatus(status)` -/
def drainOrSetStatus (view : ActiveWorkRead) (status : AgentStatus)
    (rt : TransportSessionRuntime) : TransportSessionRuntime :=
  match drainPending localeCompare env view rt with
  | (true, rt) => rt
  | (false, rt) => setStatus localeCompare env view status rt

/-- `cancelActiveDispatchLocally` -/
def cancelActiveDispatchLocally (view : ActiveWorkRead) (dispatchId : Option Nat)
    (rt : TransportSessionRuntime) : TransportSessionRuntime :=
  match dispatchId with
  | some id =>
      if rt.activeDispatchId ≠ some id then rt.deleteLocallyCancelled id else settle rt
  | none => settle rt
where
  settle (rt : TransportSessionRuntime) : TransportSessionRuntime :=
    let rt := rt.markCurrentActivityGenerationLocallyCancelled
    if !rt.activeTurn && !rt.sending then
      let rt := dispatchId.elim rt.closeOpenTools rt.closeOpenTools.deleteLocallyCancelled
      drainOrSetStatus localeCompare env view .idle rt.dropActiveEntries.releaseDispatch
    else
      drainOrSetStatus localeCompare env view .idle
        rt.endTurn.dropActiveEntries.releaseDispatch.closeOpenTools

end TransportSessionRuntime

end Imcodes.Transport
