import Imcodes.Queue.Types

/-!
# What a provider says about its own work

The parts of `shared/session-activity-types.ts` that decide whether a
provider's snapshot of its active work keeps a session busy.
-/

namespace Imcodes.Transport

open Imcodes.Queue

inductive AgentStatus
  | idle
  | streaming
  | thinking
  | toolRunning
  | permission
  | error
  | unknown
deriving DecidableEq

inductive SessionActivityBusyReason
  | runtimeDispatch
  | activeDispatchEntry
  | recoverableRetry
  | providerSessionBinding
  | providerToolItem
  | providerCompaction
  | providerBackground
  | backgroundMonitor
  | providerWait
  | openToolCall
  | snapshotStale
  | snapshotUnavailable
  | snapshotError
  | pendingQueueDrain
  | daemonRestartOrphan
deriving DecidableEq

inductive ProviderSnapshotStatus
  | current
  | stale
  | unavailable
  | error
deriving DecidableEq

/-- A generation of a session's activity, as the runtime or a provider names it. -/
inductive ActivityGenerationLike
  | number (value : Int)
  | text (value : String)
  | session (sessionName : String) (generation : Int)
deriving DecidableEq

/-- `normalizeActivityGeneration` -/
def normalizeActivityGeneration : Option ActivityGenerationLike → Option String
  | none => none
  | some (.number value) => some ("session:" ++ toString value)
  | some (.text value) => trimmedOrNone (some value)
  | some (.session sessionName generation) =>
      if jsTrim sessionName = "" then none
      else some ("session:" ++ jsTrim sessionName ++ ":" ++ toString generation)

/-- `sameActivityGeneration` -/
def sameActivityGeneration (a b : Option ActivityGenerationLike) : Bool :=
  (normalizeActivityGeneration a).isSome &&
    normalizeActivityGeneration a = normalizeActivityGeneration b

/-- `String.prototype.startsWith` -/
def jsStartsWith (s start : String) : Bool := start.toList.isPrefixOf s.toList

structure ProviderActiveWorkSnapshot where
  status : Option ProviderSnapshotStatus := none
  activeWorkCount : Int
  activeToolCount : Int
  busyReasons : List SessionActivityBusyReason
  activityGeneration : Option ActivityGenerationLike := none
  generation : Option ActivityGenerationLike := none
deriving DecidableEq

/-- `activityGeneration ?? generation` -/
def ProviderActiveWorkSnapshot.namedGeneration (x : ProviderActiveWorkSnapshot) :
    Option ActivityGenerationLike :=
  x.activityGeneration.or x.generation

inductive ProviderSnapshotState
  | active
  | clear
  | unattributedClear
  | stale
  | unavailable
  | error
deriving DecidableEq

structure ProviderSnapshotEvaluation where
  state : ProviderSnapshotState
  /-- `none` for `clear`. -/
  reason : Option SessionActivityBusyReason
deriving DecidableEq

/-- `evaluateProviderSnapshot`, for a snapshot that is there. -/
def evaluateProviderSnapshot (x : ProviderActiveWorkSnapshot)
    (currentGeneration : Option ActivityGenerationLike) : ProviderSnapshotEvaluation :=
  match x.status.getD .current with
  | .stale => ⟨.stale, some .snapshotStale⟩
  | .unavailable => ⟨.unavailable, some .snapshotUnavailable⟩
  | .error => ⟨.error, some .snapshotError⟩
  | .current =>
    if x.activeWorkCount > 0 ∨ x.activeToolCount > 0 then
      ⟨.active, some (x.busyReasons.head?.getD .providerToolItem)⟩
    else if currentGeneration.isSome ∧
        ¬ sameActivityGeneration x.namedGeneration currentGeneration then
      match normalizeActivityGeneration x.namedGeneration,
          normalizeActivityGeneration currentGeneration, currentGeneration with
      | some named, some _, some (.session sessionName _) =>
          -- the prefix has the name as it stands, not trimmed
          if jsStartsWith named ("session:" ++ sessionName ++ ":") then
            ⟨.stale, some .snapshotStale⟩
          else ⟨.unattributedClear, some .snapshotUnavailable⟩
      | _, _, _ => ⟨.unattributedClear, some .snapshotUnavailable⟩
    else ⟨.clear, none⟩

/-- `isProviderSnapshotNonBlockingForStoppedGeneration` -/
def isProviderSnapshotNonBlockingForStoppedGeneration (x : ProviderActiveWorkSnapshot)
    (stoppedGeneration : Option ActivityGenerationLike) : Bool :=
  x.status.getD .current = .current &&
    (x.activeWorkCount > 0 || x.activeToolCount > 0) &&
    sameActivityGeneration x.namedGeneration stoppedGeneration

/-- What a look at a provider's active work gives. -/
inductive ActiveWorkRead
  /-- The provider has no `getActiveWorkSnapshot`, or it returns `null`. -/
  | none
  /-- It throws. -/
  | threw
  | read (x : ProviderActiveWorkSnapshot)
deriving DecidableEq

end Imcodes.Transport
