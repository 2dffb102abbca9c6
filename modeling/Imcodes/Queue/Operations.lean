import Imcodes.Queue.Store

/-!
# The methods of the queue store

Each method of `TransportQueueStore` that reads or changes a session.  `QueueOp`
is a call of one that changes it, `QueueAction` any call a program makes of the
store, with the events it lets the outside see, and `runActions` a run of them.
-/

namespace Imcodes.Queue

open Relational

section Methods

variable (localeCompare : Collation) (env : OpEnv)

/-! ## Enqueueing -/

structure EnqueueTransportQueueEntryInput where
  sessionName : String
  text : String
  clientMessageId : Option String := none
  commandId : Option String := none
  placement : Option QueuePlacement := none
  now : Option Int := none
  activityGeneration : Option ActivityGeneration := none
  replacesClientMessageId : Option String := none
  privateMaterialJson : Option QueuePrivateDispatchMaterial := none
deriving DecidableEq

structure EnqueueTransportQueueEntryResult where
  queueSnapshot : QueueSnapshot
  dropSnapshot : Option QueueSnapshot := none

/-- `input.clientMessageId?.trim() || randomUUID()` -/
def EnqueueTransportQueueEntryInput.messageId (input : EnqueueTransportQueueEntryInput) :
    MessageId :=
  (input.clientMessageId.bind MessageId.ofString?).getD (.ofUuid env.messageId)

/-- The row `enqueueWithCapacityEviction` inserts. -/
def EnqueueTransportQueueEntryInput.row (input : EnqueueTransportQueueEntryInput)
    (s : SessionName) (now : Int) (ordinal : Nat) : EntryRow where
  sessionName := s
  clientMessageId := input.messageId env
  commandId := trimmedOrNone input.commandId
  text := input.text
  status := .queued
  placement := input.placement.getD .normal
  ordinal := ordinal
  createdAt := now
  updatedAt := now
  activityGeneration := input.activityGeneration.map (·.toText)
  replacesClientMessageId := trimmedOrNone input.replacesClientMessageId
  privateMaterialRef := input.privateMaterialJson.map fun _ => (input.messageId env).text

/-- The two `DELETE`s of one message. -/
def deleteMessage (s : SessionName) (id : MessageId) : List (Db → Db) :=
  [Db.deleteEntries s (fun r => r.clientMessageId = id),
    Db.deletePrivateMaterial s (fun r => r.clientMessageId = id)]

/-- The statements of `enqueueWithCapacityEviction`. -/
def enqueueBody (input : EnqueueTransportQueueEntryInput) (s : SessionName) (now : Int)
    (evict : Option MessageId) : Sql QueueVersion := do
  let m ← ensureMeta env s now
  Script.forEach Script.write (evict.elim [] (deleteMessage s))
  Script.write (Db.updateMeta s
    (fun r => { r with nextOrdinal := r.nextOrdinal + 1, updatedAt := now }) fun _ => rfl)
  Script.tryWrite (Db.insertEntry (input.row env s now m.nextOrdinal))
  Script.forEach Script.write <| input.privateMaterialJson.toList.map fun material =>
    Db.replaceMaterial ⟨s, input.messageId env, material, now⟩
  bumpVersion env s now

def enqueueWithCapacityEviction (input : EnqueueTransportQueueEntryInput)
    (evictClientMessageIdInput : Option String) : Op EnqueueTransportQueueEntryResult :=
  Op.bind (normalizeSessionName input.sessionName) fun s =>
    let now := input.now.getD env.now
    let evict := evictClientMessageIdInput.bind MessageId.ofString?
    transaction (enqueueBody env input s now evict) fun version => do
      let queueSnapshot ← snapshotAt localeCompare s "enqueue" version {}
      match evict with
      | none => return { queueSnapshot }
      | some _ =>
        let dropSnapshot ← snapshotAt localeCompare s "drop" version
          { dropReason := some .capacityEvicted }
        return { queueSnapshot, dropSnapshot := some dropSnapshot }

def enqueue (input : EnqueueTransportQueueEntryInput) : Op QueueSnapshot :=
  (enqueueWithCapacityEviction localeCompare env input none).map (·.queueSnapshot)

/-- `retry`: the failed message is enqueued again, as a replacement of itself. -/
def retry (sessionNameInput failedClientMessageIdInput : String)
    (input : EnqueueTransportQueueEntryInput) : Op QueueSnapshot :=
  Op.bind (normalizeSessionName sessionNameInput) fun s =>
    Op.bind (requireMessageId failedClientMessageIdInput "failedClientMessageId") fun failed =>
      enqueue localeCompare env
        { input with sessionName := s.name, replacesClientMessageId := some failed.text }

/-! ## Changing one message -/

/-- `WHERE client_message_id = id` -/
def hasId (id : MessageId) (r : EntryRow) : Bool := r.clientMessageId = id

def edit (sessionNameInput clientMessageIdInput text : String) : Op QueueSnapshot :=
  mutationOf localeCompare env sessionNameInput clientMessageIdInput "edit" {} fun s id =>
    [Db.updateEntries s (hasId id) (fun r => { r with text := text, updatedAt := env.now })
      fun _ => rfl]

def markMissingPrivateMaterialFailed (sessionNameInput clientMessageIdInput : String) :
    Op QueueSnapshot :=
  mutationOf localeCompare env sessionNameInput clientMessageIdInput "private_material_missing"
    { dropReason := some .privateMaterialMissing } fun s id =>
    [Db.updateEntries s (hasId id)
      (fun r => { r with
        status := .failed
        failureReason := some .privateMaterialMissing
        dropReason := some .privateMaterialMissing
        updatedAt := env.now }) fun _ => rfl,
      Db.deletePrivateMaterial s (fun r => r.clientMessageId = id)]

def markDeleted (sessionNameInput clientMessageIdInput : String) : Op QueueSnapshot :=
  mutationOf localeCompare env sessionNameInput clientMessageIdInput "delete" {} fun s id =>
    [Db.updateEntries s (hasId id) (fun r => { r with status := .deleted, updatedAt := env.now })
      fun _ => rfl,
      Db.deletePrivateMaterial s (fun r => r.clientMessageId = id)]

def markFailed (sessionNameInput clientMessageIdInput : String)
    (failureReason : QueueFailureReason) : Op QueueSnapshot :=
  mutationOf localeCompare env sessionNameInput clientMessageIdInput "mark_failed" {} fun s id =>
    [Db.updateEntries s (hasId id)
      (fun r => { r with
        status := .failed
        failureReason := some failureReason
        updatedAt := env.now }) fun _ => rfl]

/-- `dismissFailed`: the `UPDATE` is guarded by the status, the `DELETE` is not. -/
def dismissFailed (sessionNameInput clientMessageIdInput : String) : Op QueueSnapshot :=
  mutationOf localeCompare env sessionNameInput clientMessageIdInput "dismiss_failed" {} fun s id =>
    [Db.updateEntries s (fun r => hasId id r && r.status.isFailed)
      (fun r => { r with status := .dismissed, updatedAt := env.now }) fun _ => rfl,
      Db.deletePrivateMaterial s (fun r => r.clientMessageId = id)]

def drop (sessionNameInput clientMessageIdInput : String) (dropReason : QueueDropReason) :
    Op QueueSnapshot :=
  mutationOf localeCompare env sessionNameInput clientMessageIdInput "drop"
    { dropReason := some dropReason } deleteMessage

/-! ## Changing the whole session -/

/-- The statuses `cleanup` deletes. -/
def isSettled (s : QueueEntryStatus) : Bool :=
  s ∈ [QueueEntryStatus.sent, .deleted, .dismissed, .sessionRemoved]

/-- `DELETE FROM queue_private_material WHERE client_message_id NOT IN (SELECT …)` -/
def deleteOrphanMaterial (s : SessionName) (d : Db) : Db :=
  d.deletePrivateMaterial s fun r =>
    !(d.entriesOf s).any fun e => e.clientMessageId = r.clientMessageId

def cleanup (sessionNameInput : String) : Op QueueSnapshot :=
  mutationAll localeCompare env sessionNameInput "cleanup" {} fun s =>
    [Db.deleteEntries s (fun r => isSettled r.status), deleteOrphanMaterial s]

def dropAll (sessionNameInput : String) (dropReason : QueueDropReason) : Op QueueSnapshot :=
  mutationAll localeCompare env sessionNameInput "drop_all" { dropReason := some dropReason }
    fun s => [Db.deleteEntries s (fun _ => true), Db.deletePrivateMaterial s (fun _ => true)]

/-- A handoff whose lease has run out. -/
def hasExpiredHandoff (now : Int) (r : EntryRow) : Bool :=
  r.status = .handoffInflight && r.handoffExpiresAt.any (· ≤ now)

def restoreExpiredHandoffs (sessionNameInput : String) : Op QueueSnapshot :=
  mutationAll localeCompare env sessionNameInput "restore_expired_handoffs" {} fun s =>
    [Db.updateEntries s (hasExpiredHandoff env.now)
      (fun r => { r with
        status := .queued
        handoffId := none
        handoffStartedAt := none
        handoffExpiresAt := none
        updatedAt := env.now }) fun _ => rfl]

/-- The statements of `reset`. -/
def resetBody (s : SessionName) : Sql Unit := do
  Script.forEach Script.write
    [Db.deleteEntries s (fun _ => true), Db.deletePrivateMaterial s (fun _ => true),
      Db.deleteTombstones s, Db.upsertMeta ⟨s, env.queueEpoch, env.queueAuthorityId, 1, 0, env.now⟩]

def reset (sessionNameInput : String) (resetReason : QueueResetReason)
    (activityGeneration : Option ActivityGeneration) : Op QueueSnapshot :=
  Op.bind (normalizeSessionName sessionNameInput) fun s =>
    transaction (resetBody env s) fun _ => do
      let m ← ensureMeta env s env.now
      snapshotAt localeCompare s "reset" m.version
        { resetReason := some resetReason, activityGeneration }

def reinitializeAfterCorruption (sessionNameInput : String)
    (activityGeneration : Option ActivityGeneration) : Op QueueSnapshot :=
  reset localeCompare env sessionNameInput .authorityCorruptReinitialized activityGeneration

/-! ## Handing off and delivering -/

structure HandoffTransportQueueEntry where
  entry : QueueProjectionEntry
  handoffId : Uuid
  privateMaterialJson : Option QueuePrivateDispatchMaterial
deriving DecidableEq

/-- The statements of `markHandoffInFlight`.  The ids are compared as they are
passed, and the row's status is not looked at. -/
def handoffBody (s : SessionName) (clientMessageIds : List String) (leaseMs : Int) :
    Sql (List HandoffTransportQueueEntry) := do
  let _ ← ensureMeta env s env.now
  Script.forEach (fun id => Script.write (Db.updateEntries s
    (fun r => r.clientMessageId.text = id)
    (fun r => { r with
      status := .handoffInflight
      handoffId := some env.handoffId
      handoffStartedAt := some env.now
      handoffExpiresAt := some (env.now + leaseMs)
      handoffAttempt := some (r.handoffAttempt.getD 0 + 1)
      updatedAt := env.now }) fun _ => rfl)) clientMessageIds
  let _ ← bumpVersion env s env.now
  let rows ← Script.query fun d =>
    (readRows s d).filter fun entry => entry.clientMessageId.text ∈ clientMessageIds
  let material ← Script.query (Db.materialOf s)
  return rows.map fun entry =>
    { entry := buildQueueProjectionEntry entry
      handoffId := env.handoffId
      privateMaterialJson :=
        (material.find? fun r => r.clientMessageId = entry.clientMessageId).map (·.materialJson) }

def markHandoffInFlight (sessionNameInput : String) (clientMessageIds : List String)
    (leaseMs : Int) : Op (List HandoffTransportQueueEntry) :=
  Op.bind (normalizeSessionName sessionNameInput) fun s =>
    if clientMessageIds = [] then fun c => (.ok [], c)
    else transaction (handoffBody env s clientMessageIds leaseMs) pure

structure FinalizeTransportQueueSentResult where
  snapshot : QueueSnapshot
  deliveryFacts : List QueueDeliveryFact

/-- The statements of `finalizeSentBatch`. -/
def finalizeBody (s : SessionName) (clientMessageIds : List MessageId)
    (deliveryFrameId : String) : Sql QueueVersion := do
  let m ← ensureMeta env s env.now
  Script.forEach (fun id => Script.forEach Script.write
    (Db.replaceTombstone ⟨s, m.queueEpoch, id, deliveryFrameId, env.now⟩ :: deleteMessage s id))
    clientMessageIds
  bumpVersion env s env.now

def deliveryFact (s : SessionName) (version : QueueVersion) (deliveryFrameId : String)
    (id : MessageId) : QueueDeliveryFact where
  sessionName := s.name
  clientMessageId := id.text
  queueEpoch := version.queueEpoch.text
  queueAuthorityId := version.queueAuthorityId.text
  pendingMessageVersion := version.pendingMessageVersion
  deliveryFrameId := deliveryFrameId
  deliveryFrameVersion := version.pendingMessageVersion

def finalizeSentBatch (sessionNameInput : String) (clientMessageIdInputs : List String)
    (deliveryFrameId : String) : Op FinalizeTransportQueueSentResult :=
  Op.bind (normalizeSessionName sessionNameInput) fun s =>
    let clientMessageIds := (clientMessageIdInputs.filterMap MessageId.ofString?).eraseDups
    if clientMessageIds = [] then
      Op.map (snapshotNow localeCompare env s "finalize_sent_noop").run fun snapshot =>
        { snapshot, deliveryFacts := [] }
    else transaction (finalizeBody env s clientMessageIds deliveryFrameId) fun version => do
      let snapshot ← snapshotAt localeCompare s "finalize_sent" version {}
      return { snapshot, deliveryFacts := clientMessageIds.map (deliveryFact s version deliveryFrameId) }

def finalizeSent (sessionNameInput clientMessageIdInput deliveryFrameId : String) :
    Op QueueSnapshot :=
  (finalizeSentBatch localeCompare env sessionNameInput [clientMessageIdInput]
    deliveryFrameId).map (·.snapshot)

/-! ## Reading -/

/-- `readSnapshot`, as it is called from outside. -/
def readSnapshot (sessionNameInput source : String) : Op QueueSnapshot :=
  Op.bind (normalizeSessionName sessionNameInput) fun s =>
    (snapshotNow localeCompare env s source).run

/-- The snapshot of a read that failed. -/
def degradedSnapshot (s : SessionName) (source : String) (err : StoreError) : QueueSnapshot where
  sessionName := s.name
  queueEpoch := "unavailable"
  queueAuthorityId := "unavailable"
  pendingMessageVersion := 0
  pendingMessageEntries := []
  failedMessageEntries := []
  source := source
  degraded := true
  degradedReason := some (safeSqliteDiagnostic err)

def readSnapshotSafely (sessionNameInput source : String) : Op QueueSnapshot := fun c =>
  match readSnapshot localeCompare env sessionNameInput source c with
  | (.ok snapshot, c') => (.ok snapshot, c')
  | (.error err, c') =>
      Op.bind (normalizeSessionName sessionNameInput)
        (fun s c' => (.ok (degradedSnapshot s source err), c')) c'

def readPrivateDispatchMaterial (sessionNameInput clientMessageIdInput : String) :
    Op (Option QueuePrivateDispatchMaterial) :=
  Op.bind (normalizeSessionName sessionNameInput) fun s =>
    Op.bind (requireMessageId clientMessageIdInput "clientMessageId") fun id =>
      (Script.query fun d =>
        ((d.materialOf s).find? fun r => r.clientMessageId = id).map (·.materialJson)).run

def hasDeliveryTombstone (sessionNameInput clientMessageIdInput : String) : Op Bool :=
  Op.bind (normalizeSessionName sessionNameInput) fun s =>
    Op.bind (requireMessageId clientMessageIdInput "clientMessageId") fun id =>
      (Script.query fun d => (d.tombstonesOf s).any fun r => r.clientMessageId = id).run

/-! ## Calls -/

/-- A call of a method that changes the session. -/
inductive QueueOp
  | enqueue (input : EnqueueTransportQueueEntryInput)
  | enqueueWithCapacityEviction (input : EnqueueTransportQueueEntryInput) (evict : Option String)
  | retry (sessionName failedClientMessageId : String) (input : EnqueueTransportQueueEntryInput)
  | edit (sessionName clientMessageId text : String)
  | markHandoffInFlight (sessionName : String) (clientMessageIds : List String) (leaseMs : Int)
  | markMissingPrivateMaterialFailed (sessionName clientMessageId : String)
  | finalizeSent (sessionName clientMessageId deliveryFrameId : String)
  | finalizeSentBatch (sessionName : String) (clientMessageIds : List String)
      (deliveryFrameId : String)
  | markDeleted (sessionName clientMessageId : String)
  | markFailed (sessionName clientMessageId : String) (failureReason : QueueFailureReason)
  | dismissFailed (sessionName clientMessageId : String)
  | cleanup (sessionName : String)
  | drop (sessionName clientMessageId : String) (dropReason : QueueDropReason)
  | dropAll (sessionName : String) (dropReason : QueueDropReason)
  | reset (sessionName : String) (resetReason : QueueResetReason)
      (activityGeneration : Option ActivityGeneration)
  | reinitializeAfterCorruption (sessionName : String)
      (activityGeneration : Option ActivityGeneration)
  | restoreExpiredHandoffs (sessionName : String)
deriving DecidableEq

/-- A snapshot as the one event of an answer. -/
def snapshotEvent (s : QueueSnapshot) : List QueueEvent := [.snapshot s]

def EnqueueTransportQueueEntryResult.events (r : EnqueueTransportQueueEntryResult) :
    List QueueEvent :=
  .snapshot r.queueSnapshot :: r.dropSnapshot.toList.map .snapshot

def FinalizeTransportQueueSentResult.events (r : FinalizeTransportQueueSentResult) :
    List QueueEvent :=
  .snapshot r.snapshot :: r.deliveryFacts.map .delivery

/-- One call, with the snapshots and delivery facts in its answer. -/
def QueueOp.run : QueueOp → Op (List QueueEvent)
  | .enqueue input => (Queue.enqueue localeCompare env input).map snapshotEvent
  | .enqueueWithCapacityEviction input evict =>
      (Queue.enqueueWithCapacityEviction localeCompare env input evict).map
        EnqueueTransportQueueEntryResult.events
  | .retry s failed input => (Queue.retry localeCompare env s failed input).map snapshotEvent
  | .edit s id text => (Queue.edit localeCompare env s id text).map snapshotEvent
  | .markHandoffInFlight s ids leaseMs =>
      (Queue.markHandoffInFlight env s ids leaseMs).map fun _ => []
  | .markMissingPrivateMaterialFailed s id =>
      (Queue.markMissingPrivateMaterialFailed localeCompare env s id).map snapshotEvent
  | .finalizeSent s id frame =>
      (Queue.finalizeSent localeCompare env s id frame).map snapshotEvent
  | .finalizeSentBatch s ids frame =>
      (Queue.finalizeSentBatch localeCompare env s ids frame).map
        FinalizeTransportQueueSentResult.events
  | .markDeleted s id => (Queue.markDeleted localeCompare env s id).map snapshotEvent
  | .markFailed s id reason =>
      (Queue.markFailed localeCompare env s id reason).map snapshotEvent
  | .dismissFailed s id => (Queue.dismissFailed localeCompare env s id).map snapshotEvent
  | .cleanup s => (Queue.cleanup localeCompare env s).map snapshotEvent
  | .drop s id reason => (Queue.drop localeCompare env s id reason).map snapshotEvent
  | .dropAll s reason => (Queue.dropAll localeCompare env s reason).map snapshotEvent
  | .reset s reason generation =>
      (Queue.reset localeCompare env s reason generation).map snapshotEvent
  | .reinitializeAfterCorruption s generation =>
      (Queue.reinitializeAfterCorruption localeCompare env s generation).map snapshotEvent
  | .restoreExpiredHandoffs s =>
      (Queue.restoreExpiredHandoffs localeCompare env s).map snapshotEvent

end Methods

/-- Any call of the store, with what it draws from outside. -/
inductive QueueAction
  | mutate (op : QueueOp) (env : OpEnv)
  /-- `mutateSafely(sessionName, source, () => op)` -/
  | mutateSafely (sessionName source : String) (op : QueueOp) (env readEnv : OpEnv)
  | readSnapshot (sessionName source : String) (env : OpEnv)
  | readSnapshotSafely (sessionName source : String) (env : OpEnv)

/-- The events of an answer; a call that throws has none. -/
def answered (r : Except StoreError (List QueueEvent) × StoreConn) : List QueueEvent × StoreConn :=
  match r with
  | (.ok events, c) => (events, c)
  | (.error _, c) => ([], c)

/-- `mutateSafely`: a mutation that throws is answered with a safe read. -/
def mutateSafely (localeCompare : Collation) (readEnv : OpEnv) (sessionName source : String)
    (mutation : Op (List QueueEvent)) : Op (List QueueEvent) := fun c =>
  match mutation c with
  | (.ok events, c') => (.ok events, c')
  | (.error _, c') =>
      (readSnapshotSafely localeCompare readEnv sessionName source).map snapshotEvent c'

/-- One call: the events it lets the outside see, and the connection after it. -/
def QueueAction.run (localeCompare : Collation) :
    QueueAction → StoreConn → List QueueEvent × StoreConn
  | .mutate op env, c => answered (op.run localeCompare env c)
  | .mutateSafely s source op env readEnv, c =>
      answered (Queue.mutateSafely localeCompare readEnv s source (op.run localeCompare env) c)
  | .readSnapshot s source env, c =>
      answered ((Queue.readSnapshot localeCompare env s source).map snapshotEvent c)
  | .readSnapshotSafely s source env, c =>
      answered ((Queue.readSnapshotSafely localeCompare env s source).map snapshotEvent c)

/-- A run of the store: all the events, oldest first, and the connection after it. -/
def runActions (localeCompare : Collation) :
    List QueueAction → StoreConn → List QueueEvent × StoreConn
  | [], c => ([], c)
  | a :: rest, c =>
      let (events, c₁) := a.run localeCompare c
      let (later, c₂) := runActions localeCompare rest c₁
      (events ++ later, c₂)

theorem runActions_append (localeCompare : Collation) (as bs : List QueueAction) (c : StoreConn) :
    runActions localeCompare (as ++ bs) c =
      ((runActions localeCompare as c).1 ++
          (runActions localeCompare bs (runActions localeCompare as c).2).1,
        (runActions localeCompare bs (runActions localeCompare as c).2).2) := by
  induction as generalizing c with
  | nil => rfl
  | cons a as ih =>
    simp only [List.cons_append, runActions, ih, List.append_assoc]

/-- The connection a store starts with: a new file, and a plan of what will fail. -/
def freshConn (fault : Nat → Option (Fault StoreError)) : StoreConn :=
  ⟨.empty, none, 0, 0, fault⟩

/-! ## Values for examples -/

/-- The `n`-th statement of a run fails. -/
def failAt (n : Nat) : Nat → Option (Fault StoreError) := fun i =>
  if i = n then some (.statement (.ofMessage "disk I/O error")) else none

theorem not_isJsSpace_digitChar (n : Fin 10) : isJsSpace (Nat.digitChar n) = false := by
  revert n; decide

/-- One of ten ids. -/
def exampleUuid (n : Fin 10) : Uuid where
  text := String.ofList ((Nat.digitChar n :: List.replicate 34 '0') ++ ['0'])
  length := by
    simp only [String.length_ofList, List.length_append, List.length_cons, List.length_replicate,
      List.length_nil]
  trimmed := by
    rw [jsTrim, String.toList_ofList, List.cons_append, List.dropWhile_cons_of_neg, ← List.cons_append,
      List.rdropWhile_concat_neg]
    · decide
    · simp [not_isJsSpace_digitChar]

/-- A call that draws the ids `n` and `n + 1` for an epoch and its authority. -/
def exampleEnv (n : Nat) : OpEnv :=
  let id := exampleUuid (Fin.ofNat 10 n)
  ⟨1000, id, id, id, exampleUuid (Fin.ofNat 10 (n + 1))⟩

/-- A message with private material, for `exampleSession`. -/
def exampleInput (id : String) : EnqueueTransportQueueEntryInput :=
  { sessionName := "deck"
    text := "hello"
    clientMessageId := some id
    privateMaterialJson := some { clientMessageId := id, text := "hello" } }

/-- A session. -/
def exampleSession : SessionName := ⟨"deck", by decide, by decide⟩

end Imcodes.Queue
