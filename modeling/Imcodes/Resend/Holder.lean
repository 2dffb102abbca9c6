import Imcodes.Queue.Operations
import Imcodes.Machine.Runs
import Mathlib.Logic.Function.Basic

/-!
# The resend queue

Messages that arrive while a session has no runtime wait in a list in memory,
beside their rows in the queue store, until a drain dispatches them.

A drain leases the rows, takes the list out of the map and then awaits one
dispatch after the other, so anything may happen between two entries.  A drain
that awaits a dispatch is a `Drain` of the state.

What is not in the source: every entry carries the serial number of the call
that queued it, and the holder keeps a `trace` of what it did.
-/

namespace Imcodes.Resend

open Imcodes.Queue

/-- `RESEND_EXPIRY_MS` -/
def resendExpiryMs : Int := 5 * 60 * 1000

/-- `MAX_RESEND_ENTRIES` -/
def maxResendEntries : Nat := 10

structure ResendEntry where
  text : String
  messagePreamble : Option String := none
  commandId : String
  clientMessageId : Option String := none
  attachments : Option (List TransportAttachment) := none
  sharedActor : Option SharedActorEnvelope := none
  timelineCommitted : Bool := false
  historyCommitted : Bool := false
  queuedAt : Int
deriving DecidableEq

/-- An entry of the list. -/
structure HeldEntry extends ResendEntry where
  serial : Nat
deriving DecidableEq

/-- `nowMs - entry.queuedAt <= RESEND_EXPIRY_MS` -/
def ResendEntry.isFresh (nowMs : Int) (entry : ResendEntry) : Bool :=
  nowMs - entry.queuedAt ≤ resendExpiryMs

/-- The id of an entry, unless it is missing or empty. -/
def ResendEntry.queueId (entry : ResendEntry) : Option String := readString entry.clientMessageId

/-- `entry.clientMessageId?.trim() || randomUUID()` -/
def ResendEntry.messageId (env : OpEnv) (entry : ResendEntry) : MessageId :=
  (entry.clientMessageId.bind MessageId.ofString?).getD (.ofUuid env.messageId)

/-- How far a drain has come, and what its callbacks will be told. -/
structure DrainProgress where
  sessionName : String
  now : Int
  dispatched : Nat := 0
  expiredCount : Nat := 0
  failedCount : Nat := 0
deriving DecidableEq

/-- A drain that awaits the dispatch of an entry. -/
structure Drain extends DrainProgress where
  dispatching : HeldEntry
  /-- The entries the loop has not come to. -/
  rest : List HeldEntry
deriving DecidableEq

/-- A record of something the holder did. -/
inductive Mark
  /-- `enqueueResend` has inserted a row into the store. -/
  | stored (sessionName : String) (id : MessageId)
  /-- `enqueueResend` has accepted the entry. -/
  | enqueued (sessionName : String) (serial : Nat)
  /-- `clearResend` has returned. -/
  | cleared (sessionName : String)
  /-- The entry was passed to the dispatch callback. -/
  | dispatched (sessionName : String) (serial : Nat)
  /-- `drainResend` has returned. -/
  | drained (progress : DrainProgress)
deriving DecidableEq

structure Holder where
  queues : String → Option (List HeldEntry)
  store : StoreConn
  drains : List Drain
  nextSerial : Nat
  trace : List Mark

/-- A holder of a process that has just started. -/
def Holder.create (store : StoreConn) : Holder := ⟨fun _ => none, store, [], 0, []⟩

namespace Holder

/-- `queues.set`, or `queues.delete` -/
def setQueue (h : Holder) (sessionName : String) (list : Option (List HeldEntry)) : Holder :=
  { h with queues := Function.update h.queues sessionName list }

def note (h : Holder) (mark : Mark) : Holder := { h with trace := h.trace ++ [mark] }

/-- `queues.get(sessionName) ?? []` -/
def entries (h : Holder) (sessionName : String) : List HeldEntry := (h.queues sessionName).getD []

@[simp] theorem entries_setQueue_self (h : Holder) (sessionName : String)
    (list : Option (List HeldEntry)) :
    (h.setQueue sessionName list).entries sessionName = list.getD [] := by
  simp [entries, setQueue]

theorem entries_setQueue_of_ne (h : Holder) {sessionName s : String} (hs : s ≠ sessionName)
    (list : Option (List HeldEntry)) : (h.setQueue sessionName list).entries s = h.entries s := by
  simp [entries, setQueue, Function.update_of_ne hs]

end Holder

/-- A function that may throw. -/
abbrev HolderOp (α : Type) := Holder → Except StoreError α × Holder

section Functions

open Holder

variable (localeCompare : Collation) (env : OpEnv) (sessionName : String)

/-- `bumpTransportQueueRevision`: the version the store has, or 0. -/
def bumpTransportQueueRevision : Op Nat :=
  (readSnapshotSafely localeCompare env sessionName "revision_shim").map fun snapshot =>
    if snapshot.degraded then 0 else snapshot.pendingMessageVersion

/-- `bumpTransportQueueRevision(sessionName)`, and what follows. -/
def bumping {α : Type} (next : Nat → HolderOp α) : HolderOp α := fun h =>
  match bumpTransportQueueRevision localeCompare env sessionName h.store with
  | (.error e, store) => (.error e, { h with store })
  | (.ok version, store) => next version { h with store }

/-! ## Enqueueing -/

/-- The arguments of `enqueueWithCapacityEviction`. -/
def ResendEntry.queueInput (entry : ResendEntry) (id : MessageId) :
    EnqueueTransportQueueEntryInput where
  sessionName := sessionName
  clientMessageId := some id.text
  commandId := some entry.commandId
  text := entry.text
  now := some entry.queuedAt
  privateMaterialJson := some
    { clientMessageId := id.text
      text := entry.text
      messagePreamble := readString entry.messagePreamble
      attachmentRefs := entry.attachments.filter (· ≠ [])
      sharedActorEnvelope := entry.sharedActor
      timelineCommitted := if entry.timelineCommitted then some true else none
      historyCommitted := if entry.historyCommitted then some true else none }

inductive EnqueueResendResult
  | accepted (droppedOldest : Bool) (pendingVersion : Nat) (queueSnapshot : QueueSnapshot)
      (dropSnapshot : Option QueueSnapshot)
  /-- `reason: 'sqlite_enqueue_failed'` -/
  | rejected (pendingVersion : Nat)

/-- Whether the list is at its limit. -/
def Holder.isFull (h : Holder) : Bool := maxResendEntries ≤ (h.entries sessionName).length

/-- The entries that stay when one more is queued. -/
def Holder.kept (h : Holder) : List HeldEntry :=
  if h.isFull sessionName then (h.entries sessionName).tail else h.entries sessionName

theorem Holder.kept_sublist (h : Holder) : (h.kept sessionName).Sublist (h.entries sessionName) := by
  unfold Holder.kept
  split
  · exact List.tail_sublist _
  · exact List.Sublist.refl _

/-- `normalizedEntry` -/
def ResendEntry.held (entry : ResendEntry) (id : MessageId) (serial : Nat) : HeldEntry :=
  { entry with clientMessageId := some id.text, serial }

/-- The entry in memory, once the store has its row. -/
def acceptResend (entry : ResendEntry) (id : MessageId) (queueSnapshot : QueueSnapshot)
    (dropSnapshot : Option QueueSnapshot) : HolderOp EnqueueResendResult := fun h =>
  (.ok (.accepted (h.isFull sessionName) queueSnapshot.pendingMessageVersion queueSnapshot
      dropSnapshot),
    { h.setQueue sessionName (some (h.kept sessionName ++ [entry.held id h.nextSerial])) with
      nextSerial := h.nextSerial + 1
      trace := h.trace ++ [.enqueued sessionName h.nextSerial] })

/-- `reason: 'sqlite_enqueue_failed'` -/
def rejectResend : HolderOp EnqueueResendResult :=
  bumping localeCompare env sessionName fun version h => (.ok (.rejected version), h)

/-- The `catch` of `enqueueResend`: an entry whose row is there already is held in
memory all the same. -/
def resendRefused (entry : ResendEntry) (id : MessageId) : HolderOp EnqueueResendResult := fun h =>
  match readSnapshot localeCompare env sessionName "read" h.store with
  | (.ok existing, store) =>
      if existing.pendingMessageEntries.any (·.clientMessageId = id.text) then
        acceptResend sessionName entry id existing none { h with store }
      else rejectResend localeCompare env sessionName { h with store }
  | (.error _, store) => rejectResend localeCompare env sessionName { h with store }

/-- `evicted?.clientMessageId` -/
def Holder.evictedId (h : Holder) : Option String :=
  (if h.isFull sessionName then (h.entries sessionName).head? else none).bind (·.clientMessageId)

def enqueueResend (entry : ResendEntry) : HolderOp EnqueueResendResult := fun h =>
  let id := entry.messageId env
  match enqueueWithCapacityEviction localeCompare env (entry.queueInput sessionName id)
      (h.evictedId sessionName) h.store with
  | (.ok result, store) =>
      acceptResend sessionName entry id result.queueSnapshot result.dropSnapshot
        (note { h with store } (.stored sessionName id))
  | (.error _, store) => resendRefused localeCompare env sessionName entry id { h with store }

/-- An entry is taken into memory, or it is not. -/
theorem enqueueResend_cases (entry : ResendEntry) (h : Holder) :
    (∃ store marks queueSnapshot dropSnapshot, marks ⊆ [.stored sessionName (entry.messageId env)] ∧
      enqueueResend localeCompare env sessionName entry h =
        acceptResend sessionName entry (entry.messageId env) queueSnapshot dropSnapshot
          { h with store, trace := h.trace ++ marks }) ∨
    ∃ store, enqueueResend localeCompare env sessionName entry h =
      rejectResend localeCompare env sessionName { h with store } := by
  unfold enqueueResend
  dsimp only
  generalize enqueueWithCapacityEviction localeCompare env _ _ h.store = p
  obtain ⟨r, store⟩ := p
  cases r with
  | ok result => exact Or.inl ⟨store, _, _, _, List.Subset.refl _, rfl⟩
  | error e =>
    unfold resendRefused
    dsimp only
    generalize readSnapshot localeCompare env sessionName "read" store = p
    obtain ⟨r, store⟩ := p
    cases r with
    | error e => exact Or.inr ⟨store, rfl⟩
    | ok existing =>
      dsimp only
      split
      · refine Or.inl ⟨store, [], existing, none, List.nil_subset _, ?_⟩
        rw [List.append_nil]
      · exact Or.inr ⟨store, rfl⟩

/-! ## Removing -/

/-- A call of the store for each entry that has an id; the last snapshot is the answer. -/
def forEntries (call : String → Op QueueSnapshot) (list : List HeldEntry) (store : StoreConn) :
    Option QueueSnapshot × StoreConn :=
  list.foldl (fun (snapshot, store) entry =>
    match entry.queueId with
    | none => (snapshot, store)
    | some id =>
        match call id store with
        | (.ok snapshot, store) => (some snapshot, store)
        | (.error _, store) => (snapshot, store)) (none, store)

/-- `markFailed(sessionName, id, reason, nowMs)` -/
def markFailedAt (nowMs : Int) (reason : QueueFailureReason) (id : String) : Op QueueSnapshot :=
  markFailed localeCompare { env with now := nowMs } sessionName id reason

def expireResendEntries (nowMs : Int) : HolderOp (Option QueueSnapshot) := fun h =>
  let list := h.entries sessionName
  let freshEntries := list.filter (·.isFresh nowMs)
  let expiredEntries := list.filter (!·.isFresh nowMs)
  if expiredEntries = [] then (.ok none, h)
  else
    let h := h.setQueue sessionName (if freshEntries = [] then none else some freshEntries)
    bumping localeCompare env sessionName (fun _ h =>
      let (snapshot, store) := forEntries
        (markFailedAt localeCompare env sessionName nowMs .expired) expiredEntries h.store
      (.ok snapshot, { h with store })) h

def removeResendEntries (predicate : ResendEntry → Bool) : HolderOp Nat := fun h =>
  let list := h.entries sessionName
  if list = [] then (.ok 0, h)
  else
    let kept := list.filter (!predicate ·.toResendEntry)
    let removed := list.length - kept.length
    let h := h.setQueue sessionName (if kept = [] then none else some kept)
    if removed = 0 then (.ok 0, h)
    else
      bumping localeCompare env sessionName (fun _ h =>
        let (_, store) := forEntries (fun id => drop localeCompare env sessionName id .userCleared)
          (list.filter (predicate ·.toResendEntry)) h.store
        (.ok removed, { h with store })) h

/-- `QueueResetReason | QueueDropReason` -/
inductive ClearReason
  | reset (reason : QueueResetReason)
  | drop (reason : QueueDropReason)

/-- `reset` or `dropAll`, as the reason has it. -/
def clearSession : ClearReason → Op QueueSnapshot
  | .reset reason => reset localeCompare env sessionName reason none
  | .drop reason => dropAll localeCompare env sessionName reason

def clearResend (reason : ClearReason) : HolderOp (Option QueueSnapshot) := fun h =>
  match h.queues sessionName with
  | none => (.ok none, h.note (.cleared sessionName))
  | some _ =>
      bumping localeCompare env sessionName (fun _ h =>
        let (r, store) := clearSession localeCompare env sessionName reason h.store
        (.ok r.toOption, { (h.setQueue sessionName none).note (.cleared sessionName) with store })) h

/-! ## Draining -/

/-- `await dispatch(entry)` -/
def Holder.awaitDispatch (d : Drain) (h : Holder) : Holder :=
  { h with
    drains := h.drains ++ [d]
    trace := h.trace ++ [.dispatched d.sessionName d.dispatching.serial] }

/-- The loop of `drainResend`, up to the next dispatch. -/
def dispatchNext (progress : DrainProgress) : List HeldEntry → Holder → Holder
  | [], h => h.note (.drained progress)
  | entry :: rest, h =>
      if entry.isFresh progress.now then
        h.awaitDispatch { progress with dispatching := entry, rest }
      else
        match entry.queueId with
        | none => dispatchNext progress rest h
        | some id =>
            let (_, store) := markFailedAt localeCompare env progress.sessionName progress.now
              .expired id h.store
            dispatchNext { progress with expiredCount := progress.expiredCount + 1 } rest
              { h with store }

/-- `markHandoffInFlight` for the entries: whether the lease is complete. -/
def leaseEntries (freshEntries : List HeldEntry) (store : StoreConn) : Bool × StoreConn :=
  let freshClientMessageIds := freshEntries.filterMap (·.queueId)
  if freshClientMessageIds.length ≠ freshEntries.length then (false, store)
  else
    match markHandoffInFlight env sessionName freshClientMessageIds resendExpiryMs store with
    | (.error _, store) => (false, store)
    | (.ok leased, store) => (leased.length = freshEntries.length, store)

def drainResend : HolderOp Unit := fun h =>
  let list := h.entries sessionName
  if list = [] then (.ok (), h)
  else
    match leaseEntries env sessionName (list.filter (·.isFresh env.now)) h.store with
    | (false, store) => (.ok (), { h with store })
    | (true, store) =>
        bumping localeCompare env sessionName (fun _ h =>
            (.ok (), dispatchNext localeCompare env { sessionName, now := env.now } list h))
          (setQueue { h with store } sessionName none)

/-- What becomes of the promise of a dispatch. -/
inductive DispatchOutcome
  /-- It resolves with `'queued'`. -/
  | queued
  /-- It resolves with anything else. -/
  | sent
  | threw
deriving DecidableEq

/-- The rest of a round of the loop, once its dispatch is settled. -/
def settleDispatch (outcome : DispatchOutcome) (d : Drain) (h : Holder) : DrainProgress × Holder :=
  let failed := { d.toDrainProgress with failedCount := d.failedCount + 1 }
  let dispatched := { d.toDrainProgress with dispatched := d.dispatched + 1 }
  match outcome, d.dispatching.queueId with
  | _, none => (failed, h)
  | .queued, some _ => (dispatched, h)
  | .sent, some id =>
      let (_, store) := finalizeSentBatch localeCompare env d.sessionName [id] env.messageId.text
        h.store
      (dispatched, { h with store })
  | .threw, some id =>
      let (_, store) := markFailedAt localeCompare env d.sessionName d.now .dispatchFailed id
        h.store
      (failed, { h with store })

theorem settleDispatch_spec (outcome : DispatchOutcome) (d : Drain) (h : Holder) :
    (settleDispatch localeCompare env outcome d h).1.sessionName = d.sessionName ∧
      (settleDispatch localeCompare env outcome d h).1.now = d.now ∧
        ∃ store, (settleDispatch localeCompare env outcome d h).2 = { h with store } := by
  unfold settleDispatch
  cases outcome <;> cases d.dispatching.queueId <;> exact ⟨rfl, rfl, _, rfl⟩

/-- The `i`-th drain goes on. -/
def dispatchSettled (i : Nat) (outcome : DispatchOutcome) (h : Holder) : Holder :=
  match h.drains[i]? with
  | none => h
  | some d =>
      let (progress, h) := settleDispatch localeCompare env outcome d
        { h with drains := h.drains.eraseIdx i }
      dispatchNext localeCompare env progress d.rest h

/-- The entries the loop will still dispatch. -/
def Drain.toDispatch (d : Drain) : List HeldEntry := d.rest.filter (·.isFresh d.now)

end Functions

/-! ## Runs -/

inductive Event
  | enqueueResend (sessionName : String) (entry : ResendEntry)
  | expireResendEntries (sessionName : String) (nowMs : Int)
  | removeResendEntries (sessionName : String) (predicate : ResendEntry → Bool)
  | clearResend (sessionName : String) (reason : ClearReason)
  | drainResend (sessionName : String)
  /-- The dispatch that the `i`-th drain awaits is settled. -/
  | dispatchSettled (i : Nat) (outcome : DispatchOutcome)
  /-- Other code has used the store. -/
  | storeUsed (store : StoreConn)

/-- One event. -/
def step (localeCompare : Collation) (env : OpEnv) (h : Holder) : Event → Holder
  | .enqueueResend sessionName entry => (enqueueResend localeCompare env sessionName entry h).2
  | .expireResendEntries sessionName nowMs =>
      (expireResendEntries localeCompare env sessionName nowMs h).2
  | .removeResendEntries sessionName predicate =>
      (removeResendEntries localeCompare env sessionName predicate h).2
  | .clearResend sessionName reason => (clearResend localeCompare env sessionName reason h).2
  | .drainResend sessionName => (drainResend localeCompare env sessionName h).2
  | .dispatchSettled i outcome => dispatchSettled localeCompare env i outcome h
  | .storeUsed store => { h with store }

end Imcodes.Resend
