import Mathlib.Data.List.Sort
import Mathlib.Data.List.DropRight

/-!
# The records of the transport queue

The enumerations, rows, projections and events that the queue store, its
consumers and the session runtime share, with the two string normalisations
they all go through.

Session names and message ids are trimmed and never blank once they are inside
the store, so both are structures that carry this as a field.
-/

namespace Imcodes.Queue

/-! ## Strings -/

/-- The characters `String.prototype.trim` removes. -/
def isJsSpace (c : Char) : Bool :=
  c ∈ ['\t', '\n', '\x0b', '\x0c', '\r', ' ', '\u00a0', '\u1680', '\u2028', '\u2029', '\u202f',
    '\u205f', '\u3000', '\ufeff'] || ('\u2000' ≤ c && c ≤ '\u200a')

/-- `String.prototype.trim`. -/
def jsTrim (s : String) : String :=
  String.ofList ((s.toList.dropWhile isJsSpace).rdropWhile isJsSpace)

/-- Dropping trailing elements keeps a head that is not dropped itself. -/
theorem dropWhile_rdropWhile_dropWhile {α : Type} (p : α → Bool) (l : List α) :
    ((l.dropWhile p).rdropWhile p).dropWhile p = (l.dropWhile p).rdropWhile p := by
  rw [List.dropWhile_eq_self_iff]
  intro h
  have hpre := List.rdropWhile_prefix p (l.dropWhile p)
  have hlen : 0 < (l.dropWhile p).length := Nat.lt_of_lt_of_le h hpre.length_le
  rw [hpre.getElem h]
  exact List.dropWhile_get_zero_not p l hlen

@[simp] theorem jsTrim_jsTrim (s : String) : jsTrim (jsTrim s) = jsTrim s := by
  simp only [jsTrim, String.toList_ofList, dropWhile_rdropWhile_dropWhile,
    List.rdropWhile_idempotent]

/-- What `randomUUID()` returns. -/
structure Uuid where
  text : String
  length : text.length = 36
  trimmed : jsTrim text = text
deriving DecidableEq

@[ext] theorem Uuid.ext {a b : Uuid} (h : a.text = b.text) : a = b := by
  cases a; cases b; cases h; rfl

theorem Uuid.ne_empty (u : Uuid) : u.text ≠ "" := fun h => by
  have := u.length
  rw [h] at this
  exact absurd this (by decide)

/-- The name of a session, as the store keys its rows with it. -/
structure SessionName where
  name : String
  trimmed : jsTrim name = name
  ne_empty : name ≠ ""
deriving DecidableEq

/-- A `client_message_id`, as the store keys its rows with it. -/
structure MessageId where
  text : String
  trimmed : jsTrim text = text
  ne_empty : text ≠ ""
deriving DecidableEq

@[ext] theorem MessageId.ext {a b : MessageId} (h : a.text = b.text) : a = b := by
  cases a; cases b; cases h; rfl

@[ext] theorem SessionName.ext {a b : SessionName} (h : a.name = b.name) : a = b := by
  cases a; cases b; cases h; rfl

/-- `randomUUID()` used as a message id. -/
def MessageId.ofUuid (u : Uuid) : MessageId := ⟨u.text, u.trimmed, u.ne_empty⟩

/-- `s.trim() || undefined`, for a message id. -/
def MessageId.ofString? (s : String) : Option MessageId :=
  if h : jsTrim s = "" then none else some ⟨jsTrim s, jsTrim_jsTrim s, h⟩

@[simp] theorem MessageId.ofString?_text (m : MessageId) : MessageId.ofString? m.text = some m := by
  rw [MessageId.ofString?, dif_neg (by rw [m.trimmed]; exact m.ne_empty)]
  exact congrArg some (MessageId.ext m.trimmed)

/-- `s?.trim() || null`. -/
def trimmedOrNone (s : Option String) : Option String :=
  (s.map jsTrim).filter (· ≠ "")

/-- `readString`: a column that holds a string other than the empty one. -/
def readString (s : Option String) : Option String := s.filter (· ≠ "")

/-! ## Enumerations -/

inductive QueueEntryStatus
  | queued
  | handoffInflight
  | dispatching
  | failed
  | expired
  | capacityEvicted
  | cancelled
  | sent
  | deleted
  | dismissed
  | sessionRemoved
deriving DecidableEq, Repr

inductive QueuePlacement
  | normal
  | front
deriving DecidableEq, Repr

inductive QueueDropReason
  | expired
  | capacityEvicted
  | userCleared
  | userStopped
  | sessionRemoved
  | privateMaterialMissing
deriving DecidableEq, Repr

inductive QueueResetReason
  | sqliteRestore
  | runtimeRecreated
  | userClear
  | authorityCorruptReinitialized
deriving DecidableEq, Repr

inductive QueueFailureReason
  | dispatchFailed
  | expired
  | capacityEvicted
  | cancelled
  | privateMaterialMissing
  | sqliteDegraded
deriving DecidableEq, Repr

/-- `LIVE_QUEUE_ENTRY_STATUSES` -/
def liveQueueEntryStatuses : List QueueEntryStatus := [.queued, .handoffInflight, .dispatching]

/-- `FAILED_QUEUE_ENTRY_STATUSES` -/
def failedQueueEntryStatuses : List QueueEntryStatus :=
  [.failed, .expired, .capacityEvicted, .cancelled]

/-- `QUEUE_RESET_REASONS` -/
def queueResetReasons : List QueueResetReason :=
  [.sqliteRestore, .runtimeRecreated, .userClear, .authorityCorruptReinitialized]

/-- A status in `LIVE_QUEUE_ENTRY_STATUSES`. -/
def QueueEntryStatus.isLive (s : QueueEntryStatus) : Bool := s ∈ liveQueueEntryStatuses

/-- A status in `FAILED_QUEUE_ENTRY_STATUSES`. -/
def QueueEntryStatus.isFailed (s : QueueEntryStatus) : Bool := s ∈ failedQueueEntryStatuses

/-- `number | string` -/
inductive ActivityGeneration
  | number (n : Int)
  | string (s : String)
deriving DecidableEq

/-- `String(activityGeneration)` -/
def ActivityGeneration.toText : ActivityGeneration → String
  | .number n => toString n
  | .string s => s

/-! ## Private material -/

structure TransportAttachment where
  id : String
  daemonPath : String
  originalName : Option String := none
  mime : Option String := none
  size : Option Nat := none
  type : Option String := none
deriving DecidableEq

/-- A share actor, kept as its JSON text: no queue code looks inside it. -/
structure SharedActorEnvelope where
  json : String
deriving DecidableEq

/-- The record in `queue_private_material.material_json`.  Every writer passes
`JSON.stringify` of such a record, a text that is never empty and that
`JSON.parse` reads back, so the column is modelled by the record itself. -/
structure QueuePrivateDispatchMaterial where
  clientMessageId : String
  text : String
  messagePreamble : Option String := none
  attachmentRefs : Option (List TransportAttachment) := none
  sharedActorEnvelope : Option SharedActorEnvelope := none
  timelineCommitted : Option Bool := none
  historyCommitted : Option Bool := none
deriving DecidableEq

/-! ## Entries -/

/-- A row of `queue_entries` joined with the row of `queue_meta` of its session. -/
structure QueueStoredEntry where
  sessionName : SessionName
  queueEpoch : Uuid
  queueAuthorityId : Uuid
  clientMessageId : MessageId
  commandId : Option String
  text : String
  status : QueueEntryStatus
  placement : QueuePlacement
  ordinal : Nat
  createdAt : Int
  updatedAt : Int
  pendingMessageVersion : Nat
  activityGeneration : Option String
  replacesClientMessageId : Option String
  failureReason : Option QueueFailureReason
  dropReason : Option QueueDropReason
  handoffId : Option Uuid
  handoffStartedAt : Option Int
  handoffExpiresAt : Option Int
  handoffAttempt : Option Nat
  privateMaterialRef : Option String
deriving DecidableEq

/-- What the outside of the daemon sees of an entry. -/
structure QueueProjectionEntry where
  clientMessageId : String
  text : String
  status : QueueEntryStatus
  placement : QueuePlacement
  ordinal : Nat
  createdAt : Int
  updatedAt : Int
  commandId : Option String := none
  activityGeneration : Option String := none
  replacesClientMessageId : Option String := none
  failureReason : Option QueueFailureReason := none
deriving DecidableEq

/-- `buildQueueProjectionEntry` -/
def buildQueueProjectionEntry (entry : QueueStoredEntry) : QueueProjectionEntry where
  clientMessageId := entry.clientMessageId.text
  text := entry.text
  status := entry.status
  placement := entry.placement
  ordinal := entry.ordinal
  createdAt := entry.createdAt
  updatedAt := entry.updatedAt
  commandId := readString entry.commandId
  activityGeneration := entry.activityGeneration
  replacesClientMessageId := readString entry.replacesClientMessageId
  failureReason := entry.failureReason

/-! ## The queue's order -/

/-- `String.prototype.localeCompare`, whose order the standard leaves open. -/
abbrev Collation := String → String → Int

/-- What the sort comparator looks at. -/
structure QueuePosition where
  placement : QueuePlacement
  ordinal : Nat
  createdAt : Int
  clientMessageId : String
deriving DecidableEq

/-- `a || b`, for numbers. -/
def orElse (a b : Int) : Int := if a = 0 then b else a

/-- The comparator of the store's and the reducer's `sort` calls. -/
def QueuePosition.compare (localeCompare : Collation) (a b : QueuePosition) : Int :=
  if a.placement ≠ b.placement then (if a.placement = .front then -1 else 1)
  else orElse (a.ordinal - b.ordinal)
    (orElse (a.createdAt - b.createdAt) (localeCompare a.clientMessageId b.clientMessageId))

/-- Fronts come first, and each placement goes by ordinal.  The two remaining
keys are never consulted, because the ordinals of a session are distinct. -/
def QueuePosition.Before (a b : QueuePosition) : Prop :=
  (a.placement = .front ∧ b.placement = .normal) ∨
    (a.placement = b.placement ∧ a.ordinal < b.ordinal)

instance (a b : QueuePosition) : Decidable (a.Before b) :=
  inferInstanceAs (Decidable (_ ∨ _))

theorem QueuePosition.Before.compare_neg {a b : QueuePosition} (h : a.Before b)
    (localeCompare : Collation) : a.compare localeCompare b < 0 := by
  rcases h with ⟨ha, hb⟩ | ⟨hp, ho⟩
  · simp [compare, ha, hb]
  · have hne : (a.ordinal : Int) - b.ordinal ≠ 0 := by omega
    rw [compare, if_neg (by simp [hp]), orElse, if_neg hne]
    omega

def QueueStoredEntry.position (e : QueueStoredEntry) : QueuePosition :=
  ⟨e.placement, e.ordinal, e.createdAt, e.clientMessageId.text⟩

def QueueProjectionEntry.position (e : QueueProjectionEntry) : QueuePosition :=
  ⟨e.placement, e.ordinal, e.createdAt, e.clientMessageId⟩

/-- `[...entries].sort(compare)`: a stable sort. -/
def sortBy {α : Type} (localeCompare : Collation) (position : α → QueuePosition)
    (l : List α) : List α :=
  l.insertionSort fun a b => (position a).compare localeCompare (position b) ≤ 0

/-- A list in queue order is left as it is. -/
theorem sortBy_of_pairwise {α : Type} {position : α → QueuePosition} {l : List α}
    (h : l.Pairwise fun a b => (position a).Before (position b)) (localeCompare : Collation) :
    sortBy localeCompare position l = l :=
  List.Pairwise.insertionSort_eq
    (h.imp fun hab => (hab.compare_neg localeCompare).le)

/-! ## Events -/

structure QueueSnapshot where
  sessionName : String
  queueEpoch : String
  queueAuthorityId : String
  pendingMessageVersion : Nat
  pendingMessageEntries : List QueueProjectionEntry
  failedMessageEntries : List QueueProjectionEntry
  source : String
  resetReason : Option QueueResetReason := none
  dropReason : Option QueueDropReason := none
  activityGeneration : Option ActivityGeneration := none
  degraded : Bool := false
  degradedReason : Option String := none
deriving DecidableEq

structure QueueDeliveryFact where
  sessionName : String
  clientMessageId : String
  queueEpoch : String
  queueAuthorityId : String
  pendingMessageVersion : Nat
  deliveryFrameId : String
  deliveryFrameVersion : Nat
deriving DecidableEq

structure QueueMutationReceipt where
  sessionName : String
  commandId : String
  accepted : Bool
  reason : Option String := none
deriving DecidableEq

structure QueueFailureDropEvent where
  sessionName : String
  queueEpoch : String
  queueAuthorityId : String
  pendingMessageVersion : Nat
  clientMessageId : String
  failureReason : Option QueueFailureReason := none
  dropReason : Option QueueDropReason := none
deriving DecidableEq

structure QueueResetEvent where
  sessionName : String
  queueEpoch : String
  queueAuthorityId : String
  pendingMessageVersion : Nat
  resetReason : QueueResetReason
deriving DecidableEq

inductive QueueEvent
  | snapshot (s : QueueSnapshot)
  | delivery (d : QueueDeliveryFact)
  | receipt (r : QueueMutationReceipt)
  | failure (f : QueueFailureDropEvent)
  | reset (r : QueueResetEvent)
deriving DecidableEq

end Imcodes.Queue
