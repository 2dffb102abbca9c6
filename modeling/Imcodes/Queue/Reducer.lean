import Imcodes.Queue.Types

/-!
# The reducer

`reduceTransportQueueEvent`: what a consumer of the queue's events, in the
daemon, on the server or in the browser, keeps of them.

The state's records are association lists here: `deliveredTombstones` is the
list of the keys that are `true`, `receipts` has the latest receipt of a command
first.
-/

namespace Imcodes.Queue

structure TransportQueueReducerState where
  sessionName : Option String := none
  queueEpoch : Option String := none
  queueAuthorityId : Option String := none
  pendingMessageVersion : Option Nat := none
  pendingMessageEntries : List QueueProjectionEntry := []
  failedMessageEntries : List QueueProjectionEntry := []
  deliveredTombstones : List String := []
  receipts : List (String × QueueMutationReceipt) := []
  degradedEvidence : List String := []
deriving DecidableEq

/-- `createTransportQueueReducerState` -/
def createTransportQueueReducerState (sessionName : Option String) : TransportQueueReducerState :=
  { sessionName := readString sessionName }

/-- `sortEntries` -/
def sortEntries (localeCompare : Collation) (entries : List QueueProjectionEntry) :
    List QueueProjectionEntry :=
  sortBy localeCompare QueueProjectionEntry.position entries

/-- `tombstoneKey` -/
def tombstoneKey (epoch clientMessageId : String) : String := epoch ++ ":" ++ clientMessageId

theorem tombstoneKey_injective {epoch a b : String} (h : tombstoneKey epoch a = tombstoneKey epoch b) :
    a = b := by
  have h' := congrArg String.toList h
  simp only [tombstoneKey, String.toList_append] at h'
  exact String.toList_inj.1 (List.append_cancel_left h')

/-- What `hasBaseline` knows to be there. -/
structure Baseline where
  queueEpoch : String
  queueAuthorityId : String
  pendingMessageVersion : Nat
deriving DecidableEq

/-- `hasBaseline`, with what it narrows the state to. -/
def hasBaseline (state : TransportQueueReducerState) : Option Baseline := do
  let epoch ← readString state.queueEpoch
  let authority ← readString state.queueAuthorityId
  let version ← state.pendingMessageVersion
  return ⟨epoch, authority, version⟩

/-- `withDegraded` -/
def withDegraded (state : TransportQueueReducerState) (reason : String) :
    TransportQueueReducerState :=
  { state with degradedEvidence := state.degradedEvidence ++ [reason] }

/-- What `canApplySnapshot` looks at in a snapshot or a reset event. -/
structure SnapshotHeader where
  queueEpoch : String
  queueAuthorityId : String
  pendingMessageVersion : Nat
  resetReason : Option QueueResetReason

def QueueSnapshot.header (x : QueueSnapshot) : SnapshotHeader :=
  ⟨x.queueEpoch, x.queueAuthorityId, x.pendingMessageVersion, x.resetReason⟩

def QueueResetEvent.header (r : QueueResetEvent) : SnapshotHeader :=
  ⟨r.queueEpoch, r.queueAuthorityId, r.pendingMessageVersion, some r.resetReason⟩

/-- `canApplySnapshot`: `none` for `true`, else the reason it gives. -/
def canApplySnapshot (state : TransportQueueReducerState) (h : SnapshotHeader) : Option String :=
  if h.queueEpoch = "" ∨ h.queueAuthorityId = "" then some "missing_epoch_authority_or_version"
  else match hasBaseline state with
    | none => none
    | some b =>
      if h.queueEpoch = b.queueEpoch ∧ h.queueAuthorityId ≠ b.queueAuthorityId then
        some "same_epoch_authority_mismatch"
      else if h.queueEpoch ≠ b.queueEpoch ∧ h.queueAuthorityId = b.queueAuthorityId then
        some "different_epoch_authority_reuse"
      else if h.queueEpoch ≠ b.queueEpoch then
        -- the version is not looked at here
        if h.resetReason.any (· ∈ queueResetReasons) then none
        else some "cross_epoch_without_recognized_reset"
      else if h.pendingMessageVersion < b.pendingMessageVersion then some "stale_version"
      else none

section Reducer

variable (localeCompare : Collation)

/-- `applySnapshot` -/
def applySnapshot (state : TransportQueueReducerState) (x : QueueSnapshot) :
    TransportQueueReducerState :=
  match canApplySnapshot state x.header with
  | some reason => withDegraded state reason
  | none =>
    let isNewEpoch := state.queueEpoch.any (· ≠ x.queueEpoch)
    let deliveredTombstones := if isNewEpoch then [] else state.deliveredTombstones
    { state with
      sessionName := some x.sessionName
      queueEpoch := some x.queueEpoch
      queueAuthorityId := some x.queueAuthorityId
      pendingMessageVersion := some x.pendingMessageVersion
      pendingMessageEntries := sortEntries localeCompare
        ((x.pendingMessageEntries.filter (·.status.isLive)).filter fun e =>
          tombstoneKey x.queueEpoch e.clientMessageId ∉ deliveredTombstones)
      failedMessageEntries := sortEntries localeCompare
        (x.failedMessageEntries.filter (·.status.isFailed))
      deliveredTombstones := deliveredTombstones }

/-- `applyDelivery` -/
def applyDelivery (state : TransportQueueReducerState) (d : QueueDeliveryFact) :
    TransportQueueReducerState :=
  match hasBaseline state with
  | none => withDegraded state "delivery_without_baseline"
  | some b =>
    if d.queueEpoch ≠ b.queueEpoch ∨ d.queueAuthorityId ≠ b.queueAuthorityId then
      withDegraded state "delivery_epoch_or_authority_mismatch"
    else
      { state with
        pendingMessageVersion := some (max b.pendingMessageVersion d.pendingMessageVersion)
        pendingMessageEntries := state.pendingMessageEntries.filter
          (·.clientMessageId ≠ d.clientMessageId)
        failedMessageEntries := state.failedMessageEntries.filter
          (·.clientMessageId ≠ d.clientMessageId)
        deliveredTombstones :=
          tombstoneKey d.queueEpoch d.clientMessageId :: state.deliveredTombstones }

/-- `applyReset` -/
def applyReset (state : TransportQueueReducerState) (r : QueueResetEvent) :
    TransportQueueReducerState :=
  match canApplySnapshot state r.header with
  | some reason => withDegraded state reason
  | none =>
    { state with
      sessionName := some r.sessionName
      queueEpoch := some r.queueEpoch
      queueAuthorityId := some r.queueAuthorityId
      pendingMessageVersion := some r.pendingMessageVersion
      pendingMessageEntries := []
      failedMessageEntries := []
      deliveredTombstones := [] }

/-- The case `transport.queue.failure` of the reducer. -/
def applyFailure (state : TransportQueueReducerState) (f : QueueFailureDropEvent) :
    TransportQueueReducerState :=
  match hasBaseline state with
  | none => withDegraded state "failure_epoch_or_authority_mismatch"
  | some b =>
    if f.queueEpoch ≠ b.queueEpoch ∨ f.queueAuthorityId ≠ b.queueAuthorityId then
      withDegraded state "failure_epoch_or_authority_mismatch"
    else
      { state with
        pendingMessageVersion := some (max b.pendingMessageVersion f.pendingMessageVersion)
        pendingMessageEntries := state.pendingMessageEntries.filter
          (·.clientMessageId ≠ f.clientMessageId) }

/-- `reduceTransportQueueEvent` -/
def reduceTransportQueueEvent (state : TransportQueueReducerState) :
    QueueEvent → TransportQueueReducerState
  | .snapshot x => applySnapshot localeCompare state x
  | .delivery d => applyDelivery state d
  | .reset r => applyReset state r
  | .receipt r =>
    { state with
      receipts := (r.commandId, r) :: state.receipts.filter (·.1 ≠ r.commandId) }
  | .failure f => applyFailure state f

/-- A consumer that has received these events, oldest first. -/
def reduceEvents (state : TransportQueueReducerState) (events : List QueueEvent) :
    TransportQueueReducerState :=
  events.foldl (reduceTransportQueueEvent localeCompare) state

theorem reduceEvents_snoc (state : TransportQueueReducerState) (events : List QueueEvent)
    (e : QueueEvent) :
    reduceEvents localeCompare state (events ++ [e]) =
      reduceTransportQueueEvent localeCompare (reduceEvents localeCompare state events) e := by
  rw [reduceEvents, List.foldl_append]
  rfl

end Reducer

/-! ## Which snapshots are applied -/

/-- The baseline a snapshot leaves when it is applied. -/
def QueueSnapshot.baseline (x : QueueSnapshot) : Baseline :=
  ⟨x.queueEpoch, x.queueAuthorityId, x.pendingMessageVersion⟩

/-- The header goes on in the epoch of the baseline. -/
def SnapshotHeader.Continues (h : SnapshotHeader) (b : Baseline) : Prop :=
  h.queueEpoch = b.queueEpoch ∧ h.queueAuthorityId = b.queueAuthorityId ∧
    b.pendingMessageVersion ≤ h.pendingMessageVersion

/-- The header begins another epoch. -/
def SnapshotHeader.Resets (h : SnapshotHeader) (b : Baseline) : Prop :=
  h.queueEpoch ≠ b.queueEpoch ∧ h.queueAuthorityId ≠ b.queueAuthorityId ∧ h.resetReason.isSome

section Applied

variable {state : TransportQueueReducerState} {x : QueueSnapshot} {b : Baseline}

theorem mem_queueResetReasons (r : QueueResetReason) : r ∈ queueResetReasons := by
  cases r <;> decide

theorem readString_eq_some {a : Option String} {t : String} :
    readString a = some t ↔ a = some t ∧ t ≠ "" := by
  simp [readString, Option.filter_eq_some_iff]

theorem hasBaseline_eq_some : hasBaseline state = some b ↔
    state.queueEpoch = some b.queueEpoch ∧ b.queueEpoch ≠ "" ∧
      state.queueAuthorityId = some b.queueAuthorityId ∧ b.queueAuthorityId ≠ "" ∧
      state.pendingMessageVersion = some b.pendingMessageVersion := by
  obtain ⟨epoch, authority, version⟩ := b
  simp only [hasBaseline, Option.bind_eq_bind, Option.bind_eq_some_iff, readString_eq_some,
    Option.pure_def, Option.some.injEq, Baseline.mk.injEq]
  constructor
  · rintro ⟨_, ⟨h₁, h₂⟩, _, ⟨h₃, h₄⟩, _, h₅, rfl, rfl, rfl⟩
    exact ⟨h₁, h₂, h₃, h₄, h₅⟩
  · rintro ⟨h₁, h₂, h₃, h₄, h₅⟩
    exact ⟨_, ⟨h₁, h₂⟩, _, ⟨h₃, h₄⟩, _, h₅, rfl, rfl, rfl⟩

/-- Without a baseline every snapshot with an epoch and an authority is applied;
with one, those that go on in its epoch or begin another. -/
theorem canApplySnapshot_eq_none_iff {h : SnapshotHeader} :
    canApplySnapshot state h = none ↔ h.queueEpoch ≠ "" ∧ h.queueAuthorityId ≠ "" ∧
      ∀ b, hasBaseline state = some b → h.Continues b ∨ h.Resets b := by
  have hreason : h.resetReason.any (· ∈ queueResetReasons) = h.resetReason.isSome := by
    cases h.resetReason with
    | none => rfl
    | some r => simp [mem_queueResetReasons]
  unfold canApplySnapshot SnapshotHeader.Continues SnapshotHeader.Resets
  cases hasBaseline state with
  | none =>
    by_cases hb : h.queueEpoch = "" ∨ h.queueAuthorityId = ""
    · rcases hb with hb | hb <;> simp [hb]
    · rw [not_or] at hb
      simp [hb]
  | some b =>
    simp only [hreason, Option.some.injEq, forall_eq']
    grind

/-- A snapshot of another epoch needs a reason. -/
theorem rejected_of_foreign (hb : hasBaseline state = some b) (he : x.queueEpoch ≠ b.queueEpoch)
    (hr : x.resetReason = none) : canApplySnapshot state x.header ≠ none := by
  intro happ
  rcases (canApplySnapshot_eq_none_iff.1 happ).2.2 b hb with hc | hc
  · exact he hc.1
  · have h : x.resetReason.isSome := hc.2.2
    rw [hr] at h
    cases h

@[simp] theorem hasBaseline_withDegraded (state : TransportQueueReducerState) (reason : String) :
    hasBaseline (withDegraded state reason) = hasBaseline state := rfl

theorem applySnapshot_of_rejected (localeCompare : Collation)
    (h : canApplySnapshot state x.header ≠ none) :
    ∃ reason, applySnapshot localeCompare state x = withDegraded state reason := by
  obtain ⟨reason, hr⟩ := Option.ne_none_iff_exists'.1 h
  exact ⟨reason, by rw [applySnapshot, hr]⟩

theorem hasBaseline_of_applied (localeCompare : Collation)
    (h : canApplySnapshot state x.header = none) :
    hasBaseline (applySnapshot localeCompare state x) = some x.baseline := by
  obtain ⟨he, ha, -⟩ := canApplySnapshot_eq_none_iff.1 h
  rw [hasBaseline_eq_some, applySnapshot, h]
  exact ⟨rfl, he, rfl, ha, rfl⟩

end Applied

end Imcodes.Queue
