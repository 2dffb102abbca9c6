import Imcodes.Collections.OrderedMap
import Imcodes.Machine.Runs
import Mathlib.Data.Int.Notation
import Mathlib.Order.Nat

/-!
# Replication of processed context

A summary that is committed is put on a list of what is still to be sent, and comes off
it once a post with it was successful.  Three calls write this list: the commit of a
materialization, a round of the replication, and the request to send everything again.
Each of them writes a list that it has made of one that it read before.

What follows is about one namespace.  The calls are interleaved at every wait; a step is
what a call does from one wait to the next, and an operation of the store may fail.  How
often a projection was committed, and how many of these commits a successful post has
come after, is recorded.
-/

namespace Imcodes.Context

/-! ## The store -/

inductive ProcessedContextClass
  | recentSummary | durableMemoryCandidate | masterSummary
deriving DecidableEq

structure ProcessedContextProjection where
  id : String
  «class» : ProcessedContextClass
  summary : String
  /-- None if the projection was written with an id of its own. -/
  summaryFingerprint : Option String
deriving DecidableEq

structure ContextReplicationState where
  pendingProjectionIds : List String
  lastReplicatedAt : Option ℤ := none
  lastError : Option String := none
deriving DecidableEq

/-- The tables, as far as they are about the namespace. -/
structure ContextStore where
  processed : List ProcessedContextProjection
  replicationState : Option ContextReplicationState
deriving DecidableEq

/-- What the namespace and its texts are like. -/
structure Setting where
  projectionFingerprint : String → String
  isMemoryNoiseSummary : String → Bool
  /-- Its projections are stored under the key of its replication state. -/
  canonical : Bool

def ContextStore.pendingProjectionIds (store : ContextStore) : List String :=
  (store.replicationState.map (·.pendingProjectionIds)).getD []

def ContextStore.processedIds (store : ContextStore) : List String := store.processed.map (·.id)

structure WriteProcessedProjectionInput where
  «class» : ProcessedContextClass
  summary : String
deriving DecidableEq

variable (setting : Setting)

/-- The row of the same class and text is written again, or a new one with the id that
was drawn; an id that there is already is an error. -/
def writeProcessedProjectionForDb (processed : List ProcessedContextProjection)
    (input : WriteProcessedProjectionInput) (randomUUID : String) :
    Option (List ProcessedContextProjection × String) :=
  let fingerprint := setting.projectionFingerprint input.summary
  match processed.find? fun p => p.class = input.class ∧ p.summaryFingerprint = some fingerprint with
  | some prior =>
      some (processed.map fun p => if p.id = prior.id then { p with summary := input.summary } else p,
        prior.id)
  | none =>
      if randomUUID ∈ processed.map (·.id) then none
      else
        some (processed ++
          [{ id := randomUUID
             «class» := input.class
             summary := input.summary
             summaryFingerprint := some fingerprint }], randomUUID)

structure MaterializationCommitInput where
  summaryProjection : WriteProcessedProjectionInput
  durableProjection : Option WriteProcessedProjectionInput
  priorPendingProjectionIds : List String
  lastReplicatedAt : Option ℤ
  lastError : Option String
deriving DecidableEq

/-- The projections of a commit, and the ids under which they are written. -/
def writeProjections (processed : List ProcessedContextProjection)
    (input : MaterializationCommitInput) (summaryId durableId : String) :
    Option (List ProcessedContextProjection × List String) :=
  match writeProcessedProjectionForDb setting processed input.summaryProjection summaryId with
  | none => none
  | some (processed, summary) =>
      match input.durableProjection with
      | none => some (processed, [summary])
      | some durable =>
          (writeProcessedProjectionForDb setting processed durable durableId).map
            fun (processed, id) => (processed, [summary, id])

/-- The store after a commit, and the ids of the projections that it wrote. -/
def commitMaterialization (store : ContextStore) (input : MaterializationCommitInput)
    (summaryId durableId : String) : Option (ContextStore × List String) :=
  (writeProjections setting store.processed input summaryId durableId).map
    fun (processed, written) =>
      ({ processed
         replicationState := some
          { pendingProjectionIds := (input.priorPendingProjectionIds ++ written).eraseDups
            lastReplicatedAt := input.lastReplicatedAt
            lastError := input.lastError } }, written)

def listProcessedProjectionsByIds (store : ContextStore) (projectionIds : List String) :
    List ProcessedContextProjection :=
  if setting.canonical then
    (projectionIds.filter (· ≠ "")).eraseDups.filterMap fun id =>
      store.processed.find? fun p => p.id = id && !setting.isMemoryNoiseSummary p.summary
  else []

def isReplicableProjection (projection : ProcessedContextProjection) : Bool :=
  projection.class = .recentSummary || projection.class = .durableMemoryCandidate

/-! ## Calls -/

/-- What a call waits for. -/
inductive Phase
  /-- `materializeTarget`: the commit, by a worker that is ready or in the process itself. -/
  | committing (input : MaterializationCommitInput) (isReady : Bool)
  /-- A round: the projections that are pending. -/
  | selecting (state : ContextReplicationState)
  /-- A round that is about to post them. -/
  | selected (state : ContextReplicationState) (projections : List ProcessedContextProjection)
  /-- A round: the answer to a post, which was made after these commits. -/
  | posting (state : ContextReplicationState) (projections : List ProcessedContextProjection)
      (made : String → ℕ)
  /-- A round: its result is set. -/
  | recording (state next : ContextReplicationState) (succeeded : Bool)
  /-- `requeueAllForReplication`: the replication state. -/
  | requeueing (ids : List String)
  | resetting (next : ContextReplicationState)

structure Call where
  phase : Phase
  /-- How often each projection was committed when the call read the list. -/
  seen : String → ℕ

structure Daemon where
  store : ContextStore
  calls : OrderedMap ℕ Call := .empty
  commits : String → ℕ := fun _ => 0
  /-- How many of these commits a successful post that contained it came after. -/
  delivered : String → ℕ := fun _ => 0

inductive ReplicationEvent
  | materialize (call : ℕ) (summary : WriteProcessedProjectionInput)
      (durable : Option WriteProcessedProjectionInput) (isReady : Bool)
  /-- The answer of a worker may be lost. -/
  | commit (call : ℕ) (summaryId durableId : String) (answered : Bool)
  | replicate (call : ℕ) (syncs : Bool)
  | select (call : ℕ)
  | post (call : ℕ)
  | settle (call : ℕ) (now : ℤ) (error : Option String)
  | requeue (call : ℕ)
  | readState (call : ℕ)
  | setState (call : ℕ)
  /-- What the call waits for from the store fails. -/
  | fail (call : ℕ) (message : String)
deriving DecidableEq

/-- The call that an event is about. -/
def ReplicationEvent.call : ReplicationEvent → ℕ
  | .materialize call .. | .commit call .. | .replicate call _ | .select call | .post call
  | .settle call .. | .requeue call | .readState call | .setState call | .fail call _ => call

/-- `runMaterializationCommit` goes on in the process itself if the worker fails. -/
def retriedPhase (input : MaterializationCommitInput) (isReady : Bool) : Option Phase :=
  if isReady then some (.committing input false) else none

/-- A round that found its projections, or did not. -/
def selectedPhase (state : ContextReplicationState)
    (projections : List ProcessedContextProjection) : Option Phase :=
  let processed := projections.filter isReplicableProjection
  if processed = [] ∧ projections ≠ [] then none
  else if projections = [] then
    some (.recording state { state with lastError := some "pending_projection_missing_locally" }
      false)
  else some (.selected state processed)

/-- A round whose post has come to something. -/
def settledPhase (state : ContextReplicationState)
    (projections : List ProcessedContextProjection) (now : ℤ) (error : Option String) : Phase :=
  match error with
  | none =>
      .recording state
        { pendingProjectionIds :=
            state.pendingProjectionIds.filter (· ∉ projections.map (·.id))
          lastReplicatedAt := some now
          lastError := none } true
  | some message => .recording state { state with lastError := some message } false

namespace Daemon

variable (d : Daemon)

/-- The call goes on with another phase, or is over. -/
def continueWith (call : ℕ) (seen : String → ℕ) (phase : Option Phase) : Daemon :=
  match phase with
  | some phase => { d with calls := d.calls.set call { phase, seen } }
  | none => { d with calls := d.calls.delete call }

/-- A call begins, with what it has read. -/
def begin (call : ℕ) (phase : Phase) : Daemon :=
  if (d.calls.get? call).isSome then d else d.continueWith call d.commits (some phase)

/-- What a call does when its wait is over. -/
def resume (call : ℕ) (seen : String → ℕ) : Phase → ReplicationEvent → Daemon
  | .committing input isReady, .commit _ summaryId durableId answered =>
      match commitMaterialization setting d.store input summaryId durableId with
      | none => d.continueWith call seen (retriedPhase input isReady)
      | some (store, written) =>
          { d.continueWith call seen (if answered then none else retriedPhase input isReady) with
            store
            commits := fun id => if id ∈ written then d.commits id + 1 else d.commits id }
  | .selecting state, .select _ =>
      d.continueWith call seen (selectedPhase state
        (listProcessedProjectionsByIds setting d.store state.pendingProjectionIds))
  | .selected state projections, .post _ =>
      d.continueWith call seen (some (.posting state projections d.commits))
  | .posting state projections made, .settle _ now error =>
      { d.continueWith call seen (some (settledPhase state projections now error)) with
        delivered := fun id =>
          if error = none ∧ id ∈ projections.map (·.id) then max (d.delivered id) (made id)
          else d.delivered id }
  | .recording _ next _, .setState _ =>
      { d.continueWith call seen none with store := { d.store with replicationState := some next } }
  | .requeueing ids, .readState _ =>
      d.continueWith call seen (some (.resetting
        { pendingProjectionIds := ids
          lastReplicatedAt := d.store.replicationState.bind (·.lastReplicatedAt)
          lastError := none }))
  | .resetting next, .setState _ =>
      { d.continueWith call seen none with store := { d.store with replicationState := some next } }
  | .committing input isReady, .fail .. => d.continueWith call seen (retriedPhase input isReady)
  -- the failure to record a success is recorded as one of the round
  | .recording state _ true, .fail _ message =>
      d.continueWith call seen
        (some (.recording state { state with lastError := some message } false))
  | .posting .., .fail .. => d
  | .selected .., .fail .. => d
  | _, .fail .. => d.continueWith call seen none
  | _, _ => d

def step (event : ReplicationEvent) : Daemon :=
  match event with
  | .materialize call summary durable isReady =>
      d.begin call (.committing
        { summaryProjection := summary
          durableProjection := durable
          priorPendingProjectionIds := d.store.pendingProjectionIds
          lastReplicatedAt := d.store.replicationState.bind (·.lastReplicatedAt)
          lastError := d.store.replicationState.bind (·.lastError) } isReady)
  | .replicate call syncs =>
      match d.store.replicationState with
      | none => d
      | some state =>
          if state.pendingProjectionIds = [] ∨ syncs = false then d
          else d.begin call (.selecting state)
  | .requeue call =>
      if setting.canonical = false ∨ d.store.processed = [] then d
      else d.begin call (.requeueing d.store.processedIds)
  | event =>
      match d.calls.get? event.call with
      | none => d
      | some call => d.resume setting event.call call.seen call.phase event

/-- The daemon after a run that begins with a store. -/
def run (store : ContextStore) (events : List ReplicationEvent) : Daemon :=
  Machine.run (step setting) events { store }

end Daemon

end Imcodes.Context
