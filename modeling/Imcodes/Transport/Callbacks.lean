import Imcodes.Transport.Dispatch

/-!
# What the provider calls

The callbacks that the constructor of `TransportSessionRuntime` subscribes, the
rest of `_dispatchTurn` behind each of its promises, and the timers.
-/

namespace Imcodes.Transport

open Imcodes.Queue

namespace TransportSessionRuntime

variable (localeCompare : Collation) (env : StepEnv)

/-! ## Lost turns -/

/-- `MAX_SDK_TURN_LOST_RECOVERY_ATTEMPTS` -/
def maxSdkTurnLostRecoveryAttempts : Nat := 2

/-- `sdkTurnLostRecoveryKey` -/
def sdkTurnLostRecoveryKey (rt : TransportSessionRuntime)
    (metadata : SdkTurnLostRecoveryMetadata) : String :=
  let generation :=
    if rt.activeDispatchEntries.length > 0 then some rt.currentActivityGeneration
    else metadata.activityGeneration
  rt.sessionKey ++ ":" ++ (normalizeActivityGeneration generation).getD "unknown" ++
    ":sdk_turn_lost"

/-- `sdkTurnLostRecoveryBudgetUsed` -/
def sdkTurnLostRecoveryBudgetUsed (rt : TransportSessionRuntime)
    (metadata : SdkTurnLostRecoveryMetadata) : Nat :=
  (rt.sdkTurnLostRecoveryAttempts.lookup (rt.sdkTurnLostRecoveryKey metadata)).getD 0

/-- `consumeSdkTurnLostRecoveryBudget`: `none` for `false`. -/
def consumeSdkTurnLostRecoveryBudget (rt : TransportSessionRuntime)
    (metadata : SdkTurnLostRecoveryMetadata) : Option TransportSessionRuntime :=
  let key := rt.sdkTurnLostRecoveryKey metadata
  let used := rt.sdkTurnLostRecoveryBudgetUsed metadata
  if used ≥ maxSdkTurnLostRecoveryAttempts then none
  else some { rt with sdkTurnLostRecoveryAttempts :=
    (key, used + 1) :: rt.sdkTurnLostRecoveryAttempts.filter (·.1 ≠ key) }

/-- `failSdkTurnLostRecovery` -/
def failSdkTurnLostRecovery (rt : TransportSessionRuntime) : TransportSessionRuntime :=
  let rt := rt.endTurn.releaseDispatch.dropActiveEntries
  { rt with activeDispatchHasSideEffectEvidence := false }.putStatus .error

/-- `handleSdkTurnLostRecovery`, once it has been decided to replay. -/
def replayLostTurn (rt : TransportSessionRuntime) : TransportSessionRuntime :=
  let replayEntries := rt.activeDispatchEntries
  let rt := rt.endTurn.releaseDispatch.dropActiveEntries
  let rt := { rt with
    activeDispatchHasSideEffectEvidence := false
    pendingMessages := replayEntries ++ rt.pendingMessages
    pendingVersion := rt.pendingVersion + 1 }
  drainOrSetStatus localeCompare env env.view .thinking rt

/-- `handleSdkTurnLostRecovery`: `none` for `false`. -/
def handleSdkTurnLostRecovery (error : ProviderError) (rt : TransportSessionRuntime) :
    Option TransportSessionRuntime :=
  error.sdkTurnLost.map fun metadata =>
    if metadata.localSessionKey ≠ rt.sessionKey then rt
    else if rt.currentActivityGenerationLocallyCancelled || rt.activeDispatchCancelled then
      rt.failSdkTurnLostRecovery
    else if !sameActivityGeneration metadata.activityGeneration
        (some rt.currentActivityGeneration) then
      rt.failSdkTurnLostRecovery
    else if metadata.replayDecision ≠ "pending" ∧ metadata.replayDecision ≠ "safe_replay" then
      rt.failSdkTurnLostRecovery
    else if rt.activeDispatchEntries = [] ∨ !rt.activeTurn then rt.failSdkTurnLostRecovery
    else if rt.activeDispatchHasSideEffectEvidence || rt.openTools.length > 0 then
      rt.failSdkTurnLostRecovery
    else match rt.consumeSdkTurnLostRecoveryBudget metadata with
      | none => rt.failSdkTurnLostRecovery
      | some rt => replayLostTurn localeCompare env rt

/-! ## Callbacks -/

/-- Whether the handler of a callback looks at it. -/
def listensTo (rt : TransportSessionRuntime) (sid : String) : Bool :=
  rt.subscribed && rt.providerSessionId = some sid

/-- `_lastActivityAt = Date.now()` -/
def touch (rt : TransportSessionRuntime) : TransportSessionRuntime :=
  { rt with lastActivityAt := env.now }

/-- `_lastProviderOutputAt = _lastActivityAt`, too. -/
def touchOutput (rt : TransportSessionRuntime) : TransportSessionRuntime :=
  { rt with lastActivityAt := env.now, lastProviderOutputAt := env.now }

/-- The handler of `onDelta`. -/
def onDelta (sid : String) (rt : TransportSessionRuntime) : TransportSessionRuntime :=
  if !rt.listensTo sid then rt
  else
    let rt := { touchOutput env rt with activeDispatchHasSideEffectEvidence := true }
    if rt.activeDispatchCancelled then rt
    else if !rt.hasActiveTurnWork env.view then rt
    else rt.putStatus .streaming

/-- `_history.push(message)` -/
def pushHistory (content : String) (rt : TransportSessionRuntime) : TransportSessionRuntime :=
  { rt with history := rt.history ++ [.provider content] }

/-- The handler of `onComplete`. -/
def onComplete (sid content : String) (rt : TransportSessionRuntime) : TransportSessionRuntime :=
  if !rt.listensTo sid then rt
  else
    let rt := { touchOutput env rt with recoverableDispatchRetries := 0 }
    if rt.externalCompletionSettlementsToIgnore > 0 then
      { rt with externalCompletionSettlementsToIgnore :=
          rt.externalCompletionSettlementsToIgnore - 1 }
    else if rt.activeDispatchCancelled then
      let rt := rt.endTurn.dropActiveEntries.closeOpenTools.deleteActiveLocallyCancelled
      drainOrSetStatus localeCompare env env.view .idle rt.releaseDispatch
    else
      let rt := rt.endTurn.dropActiveEntries.releaseDispatch.closeOpenTools
      drainOrSetStatus localeCompare env env.view .idle
        (rt.pushHistory content)

/-- The handler of `onError`, for the echo of a turn that STOP has settled. -/
def onLateCancellation (rt : TransportSessionRuntime) : TransportSessionRuntime :=
  let rt := { rt with cancelledProviderErrorsToIgnore := rt.cancelledProviderErrorsToIgnore - 1 }
  if !rt.hasLocalActiveTurnWork ∧ rt.pendingMessages ≠ [] then
    match drainPending localeCompare env env.view rt.releaseDispatch with
    | (true, rt) => rt
    | (false, rt) =>
        if isInProgressStatus rt.status then setStatus localeCompare env env.view .idle rt else rt
  else rt

/-- The handler of `onError`, for an error that ends the turn. -/
def onTurnError (error : ProviderError) (rt : TransportSessionRuntime) : TransportSessionRuntime :=
  let rt := rt.endTurn.closeOpenTools.deleteActiveLocallyCancelled.releaseDispatch
  if error.isCancelled || error.recoverable then
    drainOrSetStatus localeCompare env env.view .idle rt.dropActiveEntries
  else (rt.putStatus .error).dropActiveEntries

/-- The handler of `onError`. -/
def onError (sid : String) (error : ProviderError) (rt : TransportSessionRuntime) :
    TransportSessionRuntime :=
  if !rt.listensTo sid then rt
  else
    let rt := touch env rt
    if rt.externalCompletionSettlementsToIgnore > 0 then
      { rt with externalCompletionSettlementsToIgnore :=
          rt.externalCompletionSettlementsToIgnore - 1 }
    else if error.isCancelled ∧ rt.cancelledProviderErrorsToIgnore > 0 then
      onLateCancellation localeCompare env rt
    else match handleSdkTurnLostRecovery localeCompare env error rt with
      | some rt => rt
      | none =>
        if !rt.hasActiveTurnWork env.view ∧ rt.pendingMessages = [] then
          let rt := rt.releaseDispatch
          if isInProgressStatus rt.status || rt.status = .error then
            setStatus localeCompare env env.view .idle rt
          else rt
        else onTurnError localeCompare env error rt

/-- `_openTools.set` -/
def setOpenTool (tool : ToolCallEvent) (rt : TransportSessionRuntime) : TransportSessionRuntime :=
  let entry : OpenTool := ⟨tool.id, rt.activityGeneration, tool.name⟩
  { rt with openTools :=
      if rt.openTools.any (·.id = tool.id) then
        rt.openTools.map fun t => if t.id = tool.id then entry else t
      else rt.openTools ++ [entry] }

/-- `_openTools.delete` -/
def deleteOpenTool (id : String) (rt : TransportSessionRuntime) : TransportSessionRuntime :=
  { rt with openTools := rt.openTools.filter (·.id ≠ id) }

/-- `recordToolActivity` -/
def recordToolActivity (tool : ToolCallEvent) (rt : TransportSessionRuntime) :
    TransportSessionRuntime :=
  if tool.backgrounded then
    let rt := rt.deleteOpenTool tool.id
    if rt.pendingMessages ≠ [] ∧ !rt.sending ∧ !rt.activeTurn then
      (drainPendingIfNoActiveTurn localeCompare env env.view rt).2
    else rt
  else if tool.running then rt.setOpenTool tool
  else
    let rt := rt.deleteOpenTool tool.id
    if rt.pendingMessages ≠ [] ∧ !rt.sending ∧ !rt.activeTurn then
      (drainPendingIfNoActiveTurn localeCompare env env.view rt).2
    else if !rt.sending ∧ !rt.activeTurn ∧ rt.status ≠ .idle ∧
        rt.blockingWorkCount env.view = 0 then
      setStatus localeCompare env env.view .idle rt
    else rt

/-- The handler of `onToolCall`. -/
def onToolCall (sid : String) (tool : ToolCallEvent) (rt : TransportSessionRuntime) :
    TransportSessionRuntime :=
  if !rt.listensTo sid then rt
  else
    let rt := recordToolActivity localeCompare env tool (touchOutput env rt)
    let rt := if tool.backgrounded then rt
      else { rt with activeDispatchHasSideEffectEvidence := true }
    if rt.activeDispatchId = none ∨ !rt.activeTurn then rt
    else { rt with activeDispatchProviderStarted := true }

/-- The handler of `onApprovalRequest`, which is not unsubscribed. -/
def onApprovalRequest (sid : String) (rt : TransportSessionRuntime) : TransportSessionRuntime :=
  if rt.providerSessionId ≠ some sid then rt
  else { touch env rt with activeDispatchHasSideEffectEvidence := true }

/-- The handlers of `onSessionInfo`, `onStatus` and `onUsage`. -/
def onSign (sid : String) (rt : TransportSessionRuntime) : TransportSessionRuntime :=
  if !rt.listensTo sid then rt else touch env rt

end TransportSessionRuntime

end Imcodes.Transport
