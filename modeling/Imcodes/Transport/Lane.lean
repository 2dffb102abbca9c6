import Imcodes.Transport.Control

/-!
# The lane of a runtime

What a runtime does with its messages, and nothing else: those that wait, those
of the running dispatch, and what is kept of a turn that will be tried again.
`TransportSessionRuntime.lane` forgets the rest.

A turn that begins, ends or is put back makes a `Lane.Move`.  What a caller asks
of the lane is a function of it: `Lane.enqueue`, `Lane.direct`, `Lane.edited`
and the like.  `Imcodes.Transport.Moves` shows that every step of the runtime is
one of these, or any number of moves.
-/

namespace Imcodes.Transport

open Imcodes.Queue

/-- What a runtime does with its messages. -/
@[ext] structure Lane where
  sessionKey : String
  store : StoreConn
  pending : List PendingEntry
  active : List PendingEntry
  dispatchId : Option Nat
  nextDispatchId : Nat
  /-- Whether a turn waits to be tried again. -/
  retrying : Bool
  retryEntryCount : Nat
  retried : List Nat
  jumped : List Nat
  nextSerial : Nat
  trace : List Mark

/-- The lane of a runtime. -/
def TransportSessionRuntime.lane (rt : TransportSessionRuntime) : Lane where
  sessionKey := rt.sessionKey
  store := rt.store
  pending := rt.pendingMessages
  active := rt.activeDispatchEntries
  dispatchId := rt.activeDispatchId
  nextDispatchId := rt.nextDispatchId
  retrying := rt.recoverableRetryTimer
  retryEntryCount := rt.recoverableRetryEntryCount
  retried := rt.retriedSerials
  jumped := rt.jumpedSerials
  nextSerial := rt.nextSerial
  trace := rt.trace

/-- An entry as it is recorded and listed. -/
def PendingEntry.handedOver (e : PendingEntry) : PendingEntry := e.listedCopy.recordedCopy

namespace Lane

variable (localeCompare : Collation) (env : StepEnv)

/-- The marks of a dispatch. -/
def dispatchMarks (entries : List PendingEntry) : List Mark :=
  [.recorded ((entries.filter fun e => !e.historyCommitted).map (·.clientMessageId)),
    .dispatched (entries.map fun e => (e.serial, e.clientMessageId))]

/-- All that waits goes into one dispatch. -/
def drained (l : Lane) : Lane :=
  { l with
    store := (finalizeSentBatch localeCompare env.store l.sessionKey
      (l.pending.map (·.clientMessageId)) env.uuid l.store).2
    pending := []
    active := l.pending.map PendingEntry.handedOver
    dispatchId := some (l.nextDispatchId + 1)
    nextDispatchId := l.nextDispatchId + 1
    retrying := false
    trace := l.trace ++
      (.listed ((l.pending.filter fun e => !e.timelineCommitted).map (·.clientMessageId)) ::
        dispatchMarks l.pending) }

/-- The entries of the running dispatch go back to the front. -/
def requeued (l : Lane) : Lane := { l with pending := l.active ++ l.pending, active := [] }

/-- They go back, to be tried again. -/
def requeuedForRetry (l : Lane) : Lane :=
  { l.requeued with
    retrying := true
    retryEntryCount := l.active.length
    retried := l.active.map (·.serial)
    jumped := [] }

/-- Entries are taken out of the queue. -/
def withdrawn (kept : List PendingEntry) (serials : List Nat) (l : Lane) : Lane :=
  { l with pending := kept, trace := l.trace ++ [.withdrawn serials] }

/-- The first `n` entries are removed, from memory. -/
def discarded (n : Nat) (l : Lane) : Lane :=
  l.withdrawn (l.pending.drop n) ((l.pending.take n).map (·.serial))

/-- STOP, for a turn that waits to be tried again: as many entries as it had are
taken from the front. -/
def retryStopped (l : Lane) : Lane :=
  { l.discarded l.retryEntryCount with retrying := false, retryEntryCount := 0 }

/-- One thing that can happen to a turn. -/
inductive Move : Lane → Lane → Prop
  | drain {l} (hpending : l.pending ≠ []) (hactive : l.active = []) (hretry : l.retrying = false) :
      Move l (l.drained localeCompare env)
  | release {l} : Move l { l with dispatchId := none }
  | dropActive {l} : Move l { l with active := [] }
  | disarm {l} : Move l { l with retrying := false }
  | requeue {l} : Move l l.requeued
  | retry {l} (hactive : l.active ≠ []) : Move l l.requeuedForRetry
  | stopRetry {l} (hretry : l.retrying) (hcount : 0 < l.retryEntryCount) : Move l l.retryStopped

/-- Any number of moves. -/
abbrev Moves : Lane → Lane → Prop := Relation.ReflTransGen (Move localeCompare env)

/-! ## What a caller asks for -/

/-- A message joins the queue. -/
def enqueue (e : PendingEntry) (store : StoreConn) (l : Lane) : Lane :=
  { l with
    store := store
    pending := if e.intake = .front then e :: l.pending else l.pending ++ [e]
    nextSerial := l.nextSerial + 1
    jumped := if e.intake = .front then e.serial :: l.jumped else l.jumped
    trace := l.trace ++ [.accepted e.serial e.intake e.clientMessageId] }

/-- A message starts a dispatch of its own. -/
def direct (e : PendingEntry) (l : Lane) : Lane :=
  { l with
    active := [e.recordedCopy]
    dispatchId := some (l.nextDispatchId + 1)
    nextDispatchId := l.nextDispatchId + 1
    nextSerial := l.nextSerial + 1
    trace := l.trace ++ [.accepted e.serial e.intake e.clientMessageId, .sent e.clientMessageId] ++
      dispatchMarks [e] }

/-- Messages of the store join the queue. -/
def recover (messages : List PendingTransportMessage) (store : StoreConn) (l : Lane) : Lane :=
  let entries := TransportSessionRuntime.recoveredEntries l.nextSerial messages
  { l with
    store := store
    pending := l.pending ++ entries
    nextSerial := l.nextSerial + messages.length
    trace := l.trace ++ entries.map fun e => .recovered e.serial e.clientMessageId }

/-- A pending message gets another text. -/
def edited (clientMessageId text : String) (l : Lane) : Lane :=
  { l with
    pending := TransportSessionRuntime.editFirst clientMessageId text l.pending
    store := (edit localeCompare env.store l.sessionKey clientMessageId text l.store).2 }

/-- A pending message is removed. -/
def removed (clientMessageId : String) (e : PendingEntry) (l : Lane) : Lane :=
  { l.withdrawn (l.pending.eraseP (·.clientMessageId = clientMessageId)) [e.serial] with
    store := (drop localeCompare env.store l.sessionKey clientMessageId .userCleared l.store).2 }

/-- The pending messages with a prefix are removed, from memory. -/
def removedByPrefix (commandIdPrefix : String) (l : Lane) : Lane :=
  let p (e : PendingEntry) := jsStartsWith e.clientMessageId commandIdPrefix
  l.withdrawn (l.pending.filter fun e => !p e) ((l.pending.filter p).map (·.serial))

/-- The end of the runtime. -/
def cleared (store : StoreConn) (l : Lane) : Lane :=
  { l.withdrawn [] (l.pending.map (·.serial)) with
    store := store
    active := []
    dispatchId := none
    retrying := false }

end Lane

end Imcodes.Transport
