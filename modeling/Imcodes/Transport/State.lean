import Imcodes.Queue.Operations
import Imcodes.Transport.Activity

/-!
# The state of a transport session's runtime

The fields of `TransportSessionRuntime` that its queue, its turns and its
settlements read.

A promise that nobody awaits is a flag here: `activeTurn` says whether
`_activeTurn` is there.  A timer is what its callback has captured.  The body
of a dispatch that is waiting for one of its promises is a `DispatchTask`.

What is not in the source: every entry of the queue carries a serial number and
how it came in, and the runtime keeps a record of what it did, its `trace`, and
of what went on between it and the provider, `providerTrace`.  No function of the
source reads them.
-/

namespace Imcodes.Transport

open Imcodes.Queue

/-- How a message came into the runtime. -/
inductive Intake
  /-- `send`, without a placement or with `normal`. -/
  | normal
  /-- `send` with `queuePlacement: 'front'`. -/
  | front
  /-- `rehydratePendingFromStore` -/
  | recovered
deriving DecidableEq

structure PendingTransportMessage where
  clientMessageId : String
  text : String
  messagePreamble : Option String := none
  attachments : Option (List TransportAttachment) := none
  sharedActor : Option SharedActorEnvelope := none
  timelineCommitted : Bool := false
  historyCommitted : Bool := false
deriving DecidableEq

/-- An entry of `_pendingMessages` or `_activeDispatchEntries`. -/
structure PendingEntry extends PendingTransportMessage where
  serial : Nat
  intake : Intake
deriving DecidableEq

structure SdkTurnLostRecoveryMetadata where
  localSessionKey : String
  activityGeneration : Option ActivityGenerationLike
  replayDecision : String
deriving DecidableEq

structure ProviderError where
  code : String
  message : String
  recoverable : Bool
  /-- `readSdkTurnLostRecoveryMetadata` of the error. -/
  sdkTurnLost : Option SdkTurnLostRecoveryMetadata := none
deriving DecidableEq

def ProviderError.isCancelled (error : ProviderError) : Bool := error.code = "CANCELLED"

/-- A tool event; `backgrounded` is `isBackgroundedSdkSubagentTool` of it. -/
structure ToolCallEvent where
  id : String
  name : String
  running : Bool
  backgrounded : Bool := false
deriving DecidableEq

structure OpenTool where
  id : String
  generation : Nat
  name : String
deriving DecidableEq

/-- A message of `_history`. -/
inductive AgentMessage
  | user (content : String)
  | provider (content : String)
deriving DecidableEq

/-- Where the body of a dispatch is waiting. -/
inductive DispatchPhase
  /-- For `refreshContextBootstrap`. -/
  | bootstrap
  /-- For the startup memory and the recall. -/
  | recall
  /-- For `dispatchSharedContextSend`, before it has called the provider. -/
  | assembling
  /-- For the provider's `send`. -/
  | sending
deriving DecidableEq

structure DispatchTask where
  dispatchId : Nat
  message : String
  attachments : Option (List TransportAttachment)
  phase : DispatchPhase
deriving DecidableEq

/-- What the runtime knows of its provider. -/
structure Provider where
  id : String
  /-- Whether it has a method `cancel`. -/
  canCancel : Bool
  /-- Set when its `/compact` is unsupported: the reason it gives, if any. -/
  compactUnsupported : Option (Option String) := none
deriving DecidableEq

/-- A record of something the runtime did. -/
inductive Mark
  /-- `send` has accepted the message. -/
  | accepted (serial : Nat) (intake : Intake) (id : String)
  /-- `send` has returned `sent` for the message. -/
  | sent (id : String)
  /-- The message has been recovered from the store. -/
  | recovered (serial : Nat) (id : String)
  /-- The messages have been passed to `onDrain`, to be shown in the timeline. -/
  | listed (ids : List String)
  /-- The messages have been appended to `_history`, as one. -/
  | recorded (ids : List String)
  /-- The messages have been put into a dispatch. -/
  | dispatched (entries : List (Nat × String))
  /-- The messages have been taken out of the queue. -/
  | withdrawn (serials : List Nat)
deriving DecidableEq

/-- A record of something between the runtime and its provider. -/
inductive ProviderMark
  /-- The provider's `send` has been called for the dispatch. -/
  | handed (dispatchId : Nat)
  /-- The provider has ended the dispatch, or rejected its message. -/
  | ended (dispatchId : Nat)
  /-- STOP, or a settlement from outside, has come for the dispatch. -/
  | stopped (dispatchId : Nat)
  /-- The provider's `cancel` has been called. -/
  | cancelled
deriving DecidableEq

structure TransportSessionRuntime where
  provider : Provider
  sessionKey : String
  store : StoreConn
  /-- Whether the provider's callbacks are subscribed to. -/
  subscribed : Bool := true
  status : AgentStatus := .idle
  history : List AgentMessage := []
  providerSessionId : Option String := none
  sending : Bool := false
  lastActivityAt : Int := 0
  lastProviderOutputAt : Int := 0
  activeTurn : Bool := false
  pendingMessages : List PendingEntry := []
  pendingVersion : Nat := 0
  activeDispatchEntries : List PendingEntry := []
  activeDispatchCancelled : Bool := false
  activeDispatchProviderStarted : Bool := false
  activeDispatchId : Option Nat := none
  activeDispatchStaleRecoveryStarted : Bool := false
  /-- While the timer runs, the dispatch id its callback has captured. -/
  stalePendingCancelFallbackTimer : Option (Option Nat) := none
  recoverableDispatchRetries : Nat := 0
  /-- Whether the timer runs. -/
  recoverableRetryTimer : Bool := false
  recoverableRetryEntryCount : Nat := 0
  nextDispatchId : Nat := 0
  activityGeneration : Nat := 0
  openTools : List OpenTool := []
  locallyCancelledDispatchIds : List Nat := []
  /-- Oldest first. -/
  locallyCancelledActivityGenerations : List String := []
  currentActivityGenerationLocallyCancelled : Bool := false
  activeDispatchHasSideEffectEvidence : Bool := false
  sdkTurnLostRecoveryAttempts : List (String × Nat) := []
  externalCompletionSettlementsToIgnore : Nat := 0
  cancelledProviderErrorsToIgnore : Nat := 0
  /-- The bodies of `_dispatchTurn` that have not ended. -/
  tasks : List DispatchTask := []
  nextSerial : Nat := 0
  /-- For the turn that is being retried, the serials of its entries. -/
  retriedSerials : List Nat := []
  /-- The serials of the messages sent to the front since that turn was re-queued. -/
  jumpedSerials : List Nat := []
  trace : List Mark := []
  providerTrace : List ProviderMark := []

/-- What one call or callback gets from outside. -/
structure StepEnv where
  /-- `Date.now()` -/
  now : Int
  /-- The provider's `getActiveWorkSnapshot`. -/
  view : ActiveWorkRead
  /-- The same, after the provider's `cancel` has been called. -/
  viewAfterCancel : ActiveWorkRead
  /-- `randomUUID()` -/
  uuid : String
  /-- What the store draws. -/
  store : OpEnv

namespace TransportSessionRuntime

variable (rt : TransportSessionRuntime)

/-- `setStatus`, for a status other than `idle`. -/
def putStatus (status : AgentStatus) : TransportSessionRuntime := { rt with status }

/-- `closeOpenTools` -/
def closeOpenTools : TransportSessionRuntime := { rt with openTools := [] }

/-- `clearStalePendingCancelFallbackTimer` -/
def clearStalePendingCancelFallbackTimer : TransportSessionRuntime :=
  { rt with stalePendingCancelFallbackTimer := none }

/-- `clearRecoverableRetryTimer` -/
def clearRecoverableRetryTimer : TransportSessionRuntime :=
  { rt with recoverableRetryTimer := false }

/-- Something has happened between the runtime and its provider. -/
def note (mark : ProviderMark) : TransportSessionRuntime :=
  { rt with providerTrace := rt.providerTrace ++ [mark] }

/-- `isDispatchLocallyCancelled` -/
def isDispatchLocallyCancelled (dispatchId : Nat) : Bool :=
  dispatchId ∈ rt.locallyCancelledDispatchIds

/-- `_locallyCancelledDispatchIds.add` -/
def addLocallyCancelled (dispatchId : Nat) : TransportSessionRuntime :=
  { rt.note (.stopped dispatchId) with locallyCancelledDispatchIds :=
      if dispatchId ∈ rt.locallyCancelledDispatchIds then rt.locallyCancelledDispatchIds
      else rt.locallyCancelledDispatchIds ++ [dispatchId] }

/-- `_locallyCancelledDispatchIds.delete` -/
def deleteLocallyCancelled (dispatchId : Nat) : TransportSessionRuntime :=
  { rt with locallyCancelledDispatchIds :=
      rt.locallyCancelledDispatchIds.filter (· ≠ dispatchId) }

/-- `if (this._activeDispatchId !== null)
this._locallyCancelledDispatchIds.delete(this._activeDispatchId)` -/
def deleteActiveLocallyCancelled : TransportSessionRuntime :=
  rt.activeDispatchId.elim rt rt.deleteLocallyCancelled

/-- The assignments with which a settlement lets go of the active dispatch, but
for `_sending`, `_activeTurn` and `_activeDispatchEntries`. -/
def releaseDispatch : TransportSessionRuntime :=
  { rt with
    stalePendingCancelFallbackTimer := none
    activeDispatchCancelled := false
    activeDispatchProviderStarted := false
    activeDispatchId := none
    activeDispatchStaleRecoveryStarted := false }

/-- `_sending = false`, and `_activeTurn` is settled and forgotten. -/
def endTurn : TransportSessionRuntime := { rt with sending := false, activeTurn := false }

/-- `_activeDispatchEntries = []` -/
def dropActiveEntries : TransportSessionRuntime := { rt with activeDispatchEntries := [] }

/-- `currentActivityGeneration` -/
def currentActivityGeneration : ActivityGenerationLike :=
  .session rt.sessionKey rt.activityGeneration

/-- `LOCALLY_CANCELLED_ACTIVITY_GENERATION_LIMIT` -/
def locallyCancelledActivityGenerationLimit : Nat := 16

/-- `markCurrentActivityGenerationLocallyCancelled` -/
def markCurrentActivityGenerationLocallyCancelled : TransportSessionRuntime :=
  if rt.activityGeneration = 0 then rt
  else
    let rt := { rt with currentActivityGenerationLocallyCancelled := true }
    match normalizeActivityGeneration (some rt.currentActivityGeneration) with
    | none => rt
    | some key =>
        let keys :=
          if key ∈ rt.locallyCancelledActivityGenerations then
            rt.locallyCancelledActivityGenerations
          else rt.locallyCancelledActivityGenerations ++ [key]
        { rt with locallyCancelledActivityGenerations :=
            keys.drop (keys.length - locallyCancelledActivityGenerationLimit) }

/-- `isInProgressStatus` -/
def isInProgressStatus (status : AgentStatus) : Bool :=
  status = .streaming || status = .thinking || status = .toolRunning || status = .permission

/-! ## Activity -/

/-- `hasLocallyCancelledActivityGeneration` -/
def hasLocallyCancelledActivityGeneration (x : ProviderActiveWorkSnapshot) : Bool :=
  (normalizeActivityGeneration x.namedGeneration).any
    (· ∈ rt.locallyCancelledActivityGenerations)

/-- `hasInFlightDispatchWork` -/
def hasInFlightDispatchWork : Bool :=
  rt.sending || rt.activeTurn || rt.activeDispatchEntries.length > 0

/-- `hasLocalActiveTurnWork` -/
def hasLocalActiveTurnWork : Bool :=
  (rt.sending || rt.activeTurn) || rt.activeDispatchEntries.length > 0 ||
    rt.recoverableRetryTimer || rt.openTools.length > 0

/-- `shouldIgnoreZeroWorkProviderSnapshot` -/
def shouldIgnoreZeroWorkProviderSnapshot (x : ProviderActiveWorkSnapshot)
    (state : ProviderSnapshotState) : Bool :=
  if rt.hasLocallyCancelledActivityGeneration x &&
      isProviderSnapshotNonBlockingForStoppedGeneration x x.namedGeneration then true
  else if x.activeWorkCount > 0 ∨ x.activeToolCount > 0 then false
  else
    let isCurrentOrImplicitStatus : Bool := x.status.getD .current = .current
    let isGenerationDriftClear : Bool :=
      state = .unattributedClear || (state = .stale && isCurrentOrImplicitStatus)
    if !isGenerationDriftClear && state ≠ .stale then false
    else if x.busyReasons.any fun r => r ≠ .snapshotStale && r ≠ .snapshotUnavailable then false
    else if rt.currentActivityGenerationLocallyCancelled &&
        (state = .stale || state = .unattributedClear) then true
    else !rt.hasInFlightDispatchWork && isGenerationDriftClear

/-- `getProviderActiveWorkSnapshot` -/
def getProviderActiveWorkSnapshot (view : ActiveWorkRead) :
    Option ProviderActiveWorkSnapshot :=
  if rt.providerSessionId = none then none
  else match view with
    | .none => none
    | .read x => some x
    | .threw => some
        { status := some .error
          activeWorkCount := 0
          activeToolCount := 0
          busyReasons := [.snapshotError]
          activityGeneration := some rt.currentActivityGeneration }

structure ActivitySnapshot where
  blockingWorkCount : Nat := 0
  activeToolCount : Int := 0
  busyReasons : List SessionActivityBusyReason := []
  providerSnapshot : Option ProviderActiveWorkSnapshot := none
deriving DecidableEq

/-- `add` of `getActivitySnapshot` -/
def ActivitySnapshot.add (a : ActivitySnapshot) (reason : SessionActivityBusyReason) (count : Nat) :
    ActivitySnapshot :=
  if count = 0 then a
  else { a with
    blockingWorkCount := a.blockingWorkCount + count
    busyReasons := if reason ∈ a.busyReasons then a.busyReasons else a.busyReasons ++ [reason] }

/-- `Math.max(1, activeWorkCount || activeToolCount || 0)` -/
def providerWorkCount (x : ProviderActiveWorkSnapshot) : Nat :=
  max 1 (if x.activeWorkCount ≠ 0 then x.activeWorkCount else x.activeToolCount).toNat

/-- The part of `getActivitySnapshot` about the provider. -/
def addProviderWork (a : ActivitySnapshot) (x : ProviderActiveWorkSnapshot) :
    ActivitySnapshot :=
  let expectedGeneration :=
    if rt.activityGeneration > 0 then some rt.currentActivityGeneration else none
  let evaluation := evaluateProviderSnapshot x expectedGeneration
  match evaluation.reason with
  | none => a
  | some reason =>
      if rt.shouldIgnoreZeroWorkProviderSnapshot x evaluation.state then a
      else
        let a := a.add reason (providerWorkCount x)
        { a with busyReasons := a.busyReasons ++
            (x.busyReasons.filter (· ∉ a.busyReasons)).eraseDups }

/-- `getActivitySnapshot` -/
def getActivitySnapshot (view : ActiveWorkRead) : ActivitySnapshot :=
  let a : ActivitySnapshot := {}
  let a := if rt.sending || rt.activeTurn then a.add .runtimeDispatch 1 else a
  let a := a.add .activeDispatchEntry rt.activeDispatchEntries.length
  let a := if rt.recoverableRetryTimer then a.add .recoverableRetry 1 else a
  let a := a.add .openToolCall rt.openTools.length
  let providerSnapshot := rt.getProviderActiveWorkSnapshot view
  let a := providerSnapshot.elim a (rt.addProviderWork a)
  { a with
    activeToolCount :=
      max rt.openTools.length (max 0 (providerSnapshot.elim 0 (·.activeToolCount)))
    providerSnapshot := providerSnapshot }

/-- `getActivitySnapshot().blockingWorkCount` -/
def blockingWorkCount (view : ActiveWorkRead) : Nat :=
  (rt.getActivitySnapshot view).blockingWorkCount

/-- `hasActiveTurnWork` -/
def hasActiveTurnWork (view : ActiveWorkRead) : Bool :=
  rt.blockingWorkCount view > 0

end TransportSessionRuntime

end Imcodes.Transport
