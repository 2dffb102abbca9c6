import Imcodes.Queue.Types
import Imcodes.Relational.Table
import Imcodes.Relational.Transaction

/-!
# The queue store

`TransportQueueStore`: four tables, and operations that each run their
statements in one transaction and answer with a snapshot of the session.

Every operation is written as the source has it, statement by statement, over
`Relational.Script`.  Most of them differ only in the statements between
`ensureMeta` and `bumpVersion` and in what they write into the answer; `mutation`
is that common shape.

The columns `attachments_json`, `shared_actor_json` and `reset_reason` are left
out: no statement writes them.
-/

namespace Imcodes.Queue

open Relational

/-! ## Errors -/

/-- What a failing call throws: the name and the message of a JavaScript error. -/
structure StoreError where
  name : String
  message : String
deriving DecidableEq

/-- `new Error(message)` -/
def StoreError.ofMessage (message : String) : StoreError := ⟨"Error", message⟩

instance : EngineErrors StoreError where
  nestedBegin := .ofMessage "cannot start a transaction within a transaction"
  idleCommit := .ofMessage "cannot commit - no transaction is active"
  idleRollback := .ofMessage "cannot rollback - no transaction is active"

/-- A violated `PRIMARY KEY`. -/
def uniqueConstraintFailed (columns : String) : StoreError :=
  .ofMessage ("UNIQUE constraint failed: " ++ columns)

def isWordChar (c : Char) : Bool := c.isAlphanum || c == '_'

/-- The maximal runs of word characters, in lower case.  A pattern
`\b(a|b)\b` with the flag `i` and only word characters in its alternatives
matches exactly when one of these runs is one of the alternatives. -/
def wordsOf (message : String) : List (List Char) :=
  (message.toList.splitOnP fun c => !isWordChar c).map fun w => w.map Char.toLower

def mentions (message : String) (alternatives : List String) : Bool :=
  (wordsOf message).any fun w => alternatives.any fun a => a.toList == w

/-- `safeSqliteDiagnostic`: the reason a degraded answer carries. -/
def safeSqliteDiagnostic (err : StoreError) : String :=
  if mentions err.message ["sqlite_corrupt", "corrupt", "malformed"] then "queue_authority_corrupt"
  else if mentions err.message ["sqlite_busy", "sqlite_locked", "busy", "locked"] then
    "sqlite_busy_or_locked"
  else "sqlite_error"

/-- `normalizeSessionName` -/
def normalizeSessionName (sessionName : String) : Except StoreError SessionName :=
  if h : jsTrim sessionName = "" then
    .error (.ofMessage "transport queue sessionName is required")
  else .ok ⟨jsTrim sessionName, jsTrim_jsTrim _, h⟩

/-- `requireNonEmpty(value.trim(), label)`, for a message id. -/
def requireMessageId (value label : String) : Except StoreError MessageId :=
  match MessageId.ofString? value with
  | none => .error (.ofMessage ("transport queue " ++ label ++ " is required"))
  | some id => .ok id

/-- A normalised name is its own normalisation. -/
@[simp] theorem normalizeSessionName_name (s : SessionName) :
    normalizeSessionName s.name = .ok s := by
  rw [normalizeSessionName, dif_neg (by rw [s.trimmed]; exact s.ne_empty)]
  exact congrArg Except.ok (SessionName.ext s.trimmed)

@[simp] theorem requireMessageId_text (m : MessageId) (label : String) :
    requireMessageId m.text label = .ok m := by
  rw [requireMessageId, MessageId.ofString?_text]

/-! ## Tables -/

structure MetaRow where
  sessionName : SessionName
  queueEpoch : Uuid
  queueAuthorityId : Uuid
  pendingMessageVersion : Nat
  nextOrdinal : Nat
  updatedAt : Int
deriving DecidableEq

structure EntryRow where
  sessionName : SessionName
  clientMessageId : MessageId
  commandId : Option String
  text : String
  status : QueueEntryStatus
  placement : QueuePlacement
  ordinal : Nat
  createdAt : Int
  updatedAt : Int
  activityGeneration : Option String
  replacesClientMessageId : Option String
  failureReason : Option QueueFailureReason := none
  dropReason : Option QueueDropReason := none
  handoffId : Option Uuid := none
  handoffStartedAt : Option Int := none
  handoffExpiresAt : Option Int := none
  handoffAttempt : Option Nat := none
  privateMaterialRef : Option String
deriving DecidableEq

structure MaterialRow where
  sessionName : SessionName
  clientMessageId : MessageId
  materialJson : QueuePrivateDispatchMaterial
  updatedAt : Int
deriving DecidableEq

structure TombstoneRow where
  sessionName : SessionName
  queueEpoch : Uuid
  clientMessageId : MessageId
  deliveryFrameId : String
  createdAt : Int
deriving DecidableEq

def EntryRow.key (r : EntryRow) : SessionName × MessageId := (r.sessionName, r.clientMessageId)

def MaterialRow.key (r : MaterialRow) : SessionName × MessageId :=
  (r.sessionName, r.clientMessageId)

def TombstoneRow.key (r : TombstoneRow) : SessionName × Uuid × MessageId :=
  (r.sessionName, r.queueEpoch, r.clientMessageId)

/-- The database file. -/
@[ext] structure Db where
  queueMeta : Table MetaRow SessionName MetaRow.sessionName
  queueEntries : Table EntryRow (SessionName × MessageId) EntryRow.key
  queuePrivateMaterial : Table MaterialRow (SessionName × MessageId) MaterialRow.key
  queueDeliveryTombstones : Table TombstoneRow (SessionName × Uuid × MessageId) TombstoneRow.key
deriving DecidableEq

/-- A database file in which `initialize` has just created the tables. -/
def Db.empty : Db := ⟨.empty, .empty, .empty, .empty⟩

/-- The store's connection. -/
abbrev StoreConn := Conn Db StoreError

/-- The statements of one method of the store. -/
abbrev Sql := Script Db StoreError

/-- A method of the store. -/
abbrev Op (α : Type) := StoreConn → Except StoreError α × StoreConn

/-- What a method draws from outside: the clock, and a fresh id for each place
that calls `randomUUID()`. -/
structure OpEnv where
  now : Int
  messageId : Uuid
  handoffId : Uuid
  queueEpoch : Uuid
  queueAuthorityId : Uuid

/-! ## Rows of a session -/

namespace Db

/-- The row of `queue_meta` of a session. -/
def metaOf (s : SessionName) (d : Db) : Option MetaRow :=
  d.queueMeta.find? fun r => r.sessionName = s

/-- The rows of `queue_entries` of a session, in table order. -/
def entriesOf (s : SessionName) (d : Db) : List EntryRow :=
  d.queueEntries.rowsOf EntryRow.sessionName s

/-- The rows of `queue_private_material` of a session, in table order. -/
def materialOf (s : SessionName) (d : Db) : List MaterialRow :=
  d.queuePrivateMaterial.rowsOf MaterialRow.sessionName s

/-- The rows of `queue_delivery_tombstones` of a session, in table order. -/
def tombstonesOf (s : SessionName) (d : Db) : List TombstoneRow :=
  d.queueDeliveryTombstones.rowsOf TombstoneRow.sessionName s

/-! ## Statements -/

/-- `UPDATE queue_meta SET f WHERE session_name = s` -/
def updateMeta (s : SessionName) (f : MetaRow → MetaRow)
    (hf : ∀ r, (f r).sessionName = r.sessionName) (d : Db) : Db :=
  { d with queueMeta := d.queueMeta.update (fun r => r.sessionName = s) f hf }

/-- `UPDATE queue_entries SET f WHERE session_name = s AND p` -/
def updateEntries (s : SessionName) (p : EntryRow → Bool) (f : EntryRow → EntryRow)
    (hf : ∀ r, (f r).key = r.key) (d : Db) : Db :=
  { d with queueEntries := d.queueEntries.update (fun r => r.sessionName = s && p r) f hf }

/-- `DELETE FROM queue_entries WHERE session_name = s AND p` -/
def deleteEntries (s : SessionName) (p : EntryRow → Bool) (d : Db) : Db :=
  { d with queueEntries := d.queueEntries.delete fun r => r.sessionName = s && p r }

/-- `DELETE FROM queue_private_material WHERE session_name = s AND p` -/
def deletePrivateMaterial (s : SessionName) (p : MaterialRow → Bool) (d : Db) : Db :=
  { d with queuePrivateMaterial :=
      d.queuePrivateMaterial.delete fun r => r.sessionName = s && p r }

/-- `DELETE FROM queue_delivery_tombstones WHERE session_name = s` -/
def deleteTombstones (s : SessionName) (d : Db) : Db :=
  { d with queueDeliveryTombstones :=
      d.queueDeliveryTombstones.delete fun r => r.sessionName = s }

/-- `INSERT INTO queue_meta` -/
def insertMeta (r : MetaRow) (d : Db) : Except StoreError Db :=
  match d.queueMeta.insert r with
  | none => .error (uniqueConstraintFailed "queue_meta.session_name")
  | some t => .ok { d with queueMeta := t }

/-- `INSERT INTO queue_entries` -/
def insertEntry (r : EntryRow) (d : Db) : Except StoreError Db :=
  match d.queueEntries.insert r with
  | none => .error
      (uniqueConstraintFailed "queue_entries.session_name, queue_entries.client_message_id")
  | some t => .ok { d with queueEntries := t }

/-- `INSERT OR REPLACE INTO queue_private_material` -/
def replaceMaterial (r : MaterialRow) (d : Db) : Db :=
  { d with queuePrivateMaterial := d.queuePrivateMaterial.replace r }

/-- `INSERT OR REPLACE INTO queue_delivery_tombstones` -/
def replaceTombstone (r : TombstoneRow) (d : Db) : Db :=
  { d with queueDeliveryTombstones := d.queueDeliveryTombstones.replace r }

/-- `DO UPDATE SET` of `reset`: the version goes on, the rest is the new row's. -/
def onMetaConflict (r old : MetaRow) : MetaRow :=
  { r with
    sessionName := old.sessionName
    pendingMessageVersion := old.pendingMessageVersion + 1 }

/-- `INSERT INTO queue_meta … ON CONFLICT(session_name) DO UPDATE`, as `reset` has it. -/
def upsertMeta (r : MetaRow) (d : Db) : Db :=
  { d with queueMeta := d.queueMeta.upsert r (onMetaConflict r) fun _ => rfl }

end Db

/-! ## Reading -/

/-- The keys of `ORDER BY CASE placement …, ordinal, created_at, client_message_id`. -/
def QueuePosition.OrderByLe (a b : QueuePosition) : Prop :=
  let rank (p : QueuePlacement) : Nat := if p = .front then 0 else 1
  rank a.placement < rank b.placement ∨ rank a.placement = rank b.placement ∧
    (a.ordinal < b.ordinal ∨ a.ordinal = b.ordinal ∧
      (a.createdAt < b.createdAt ∨ a.createdAt = b.createdAt ∧
        a.clientMessageId ≤ b.clientMessageId))

instance : DecidableRel QueuePosition.OrderByLe := fun a b => by
  unfold QueuePosition.OrderByLe; infer_instance

/-- `parseStoredEntry`, for the join of the two rows. -/
def parseStoredEntry (m : MetaRow) (r : EntryRow) : QueueStoredEntry where
  sessionName := r.sessionName
  queueEpoch := m.queueEpoch
  queueAuthorityId := m.queueAuthorityId
  clientMessageId := r.clientMessageId
  commandId := readString r.commandId
  text := r.text
  status := r.status
  placement := r.placement
  ordinal := r.ordinal
  createdAt := r.createdAt
  updatedAt := r.updatedAt
  pendingMessageVersion := m.pendingMessageVersion
  activityGeneration := readString r.activityGeneration
  replacesClientMessageId := readString r.replacesClientMessageId
  failureReason := r.failureReason
  dropReason := r.dropReason
  handoffId := r.handoffId
  handoffStartedAt := r.handoffStartedAt
  handoffExpiresAt := r.handoffExpiresAt
  handoffAttempt := r.handoffAttempt
  privateMaterialRef := readString r.privateMaterialRef

/-- `readRows` -/
def readRows (s : SessionName) (d : Db) : List QueueStoredEntry :=
  match d.metaOf s with
  | none => []
  | some m => ((d.entriesOf s).map (parseStoredEntry m)).insertionSort
      fun a b => a.position.OrderByLe b.position

/-- The entries of a session whose status satisfies `p`, as a snapshot lists them. -/
def projectEntries (localeCompare : Collation) (p : QueueEntryStatus → Bool)
    (rows : List QueueStoredEntry) : List QueueProjectionEntry :=
  (sortBy localeCompare QueueStoredEntry.position (rows.filter fun e => p e.status)).map
    buildQueueProjectionEntry

/-- The part of a snapshot that says which state of the queue it shows. -/
structure QueueVersion where
  queueEpoch : Uuid
  queueAuthorityId : Uuid
  pendingMessageVersion : Nat
deriving DecidableEq

def MetaRow.version (m : MetaRow) : QueueVersion :=
  ⟨m.queueEpoch, m.queueAuthorityId, m.pendingMessageVersion⟩

/-- The reasons that `readSnapshot`'s `override` adds to the version. -/
structure SnapshotReasons where
  resetReason : Option QueueResetReason := none
  dropReason : Option QueueDropReason := none
  activityGeneration : Option ActivityGeneration := none

/-- The object `readSnapshot` returns, once it has its version and its rows. -/
def buildSnapshot (localeCompare : Collation) (s : SessionName) (source : String)
    (v : QueueVersion) (why : SnapshotReasons) (rows : List QueueStoredEntry) : QueueSnapshot where
  sessionName := s.name
  queueEpoch := v.queueEpoch.text
  queueAuthorityId := v.queueAuthorityId.text
  pendingMessageVersion := v.pendingMessageVersion
  pendingMessageEntries := projectEntries localeCompare (·.isLive) rows
  failedMessageEntries := projectEntries localeCompare (·.isFailed) rows
  source := source
  resetReason := why.resetReason
  dropReason := why.dropReason
  activityGeneration := why.activityGeneration

/-- `ensureMeta` -/
def ensureMeta (env : OpEnv) (s : SessionName) (now : Int) : Sql MetaRow := do
  match ← Script.query (Db.metaOf s) with
  | some existing => return existing
  | none =>
    let row : MetaRow := ⟨s, env.queueEpoch, env.queueAuthorityId, 0, 0, now⟩
    Script.tryWrite (Db.insertMeta row)
    return row

/-- `bumpVersion` -/
def bumpVersion (env : OpEnv) (s : SessionName) (now : Int) : Sql QueueVersion := do
  let _ ← ensureMeta env s now
  Script.write (Db.updateMeta s
    (fun r => { r with pendingMessageVersion := r.pendingMessageVersion + 1, updatedAt := now })
    fun _ => rfl)
  let m ← ensureMeta env s now
  return m.version

/-- `readSnapshot` with an `override`. -/
def snapshotAt (localeCompare : Collation) (s : SessionName) (source : String) (v : QueueVersion)
    (why : SnapshotReasons) : Sql QueueSnapshot := do
  let rows ← Script.query (readRows s)
  return buildSnapshot localeCompare s source v why rows

/-- `readSnapshot` without an `override`. -/
def snapshotNow (localeCompare : Collation) (env : OpEnv) (s : SessionName) (source : String) :
    Sql QueueSnapshot := do
  let m ← ensureMeta env s env.now
  snapshotAt localeCompare s source m.version {}

/-! ## The shape of a method -/

/-- Code before the first statement, which may throw. -/
def Op.bind {α β : Type} (r : Except StoreError α) (f : α → Op β) : Op β := fun c =>
  match r with
  | .error e => (.error e, c)
  | .ok a => f a c

theorem Op.bind_ok {α β : Type} (a : α) (f : α → Op β) : Op.bind (.ok a) f = f a := rfl

/-- Code after the last statement. -/
def Op.map {α β : Type} (op : Op α) (f : α → β) : Op β := fun c =>
  match op c with
  | (.error e, c') => (.error e, c')
  | (.ok a, c') => (.ok (f a), c')

theorem Op.map_map {α β γ : Type} (op : Op α) (f : α → β) (g : β → γ) :
    (op.map f).map g = op.map fun a => g (f a) := by
  funext c
  unfold Op.map
  cases op c with
  | mk r c' => cases r <;> rfl

/-- The statements of most methods, between `BEGIN IMMEDIATE` and `COMMIT`. -/
def mutationBody (env : OpEnv) (s : SessionName) (now : Int) (statements : List (Db → Db)) :
    Sql QueueVersion := do
  let _ ← ensureMeta env s now
  Script.forEach Script.write statements
  bumpVersion env s now

/-- `edit`, `markDeleted` and their like: a transaction that ends with
`bumpVersion`, and a snapshot with the new version. -/
def mutation (localeCompare : Collation) (env : OpEnv) (s : SessionName) (source : String)
    (why : SnapshotReasons) (statements : List (Db → Db)) : Op QueueSnapshot :=
  transaction (mutationBody env s env.now statements) fun version =>
    snapshotAt localeCompare s source version why

/-- A mutation of one message, named by what the caller passes for its id. -/
def mutationOf (localeCompare : Collation) (env : OpEnv) (sessionNameInput messageIdInput : String)
    (source : String) (why : SnapshotReasons)
    (statements : SessionName → MessageId → List (Db → Db)) : Op QueueSnapshot :=
  Op.bind (normalizeSessionName sessionNameInput) fun s =>
    Op.bind (requireMessageId messageIdInput "clientMessageId") fun id =>
      mutation localeCompare env s source why (statements s id)

/-- A mutation of a whole session. -/
def mutationAll (localeCompare : Collation) (env : OpEnv) (sessionNameInput : String)
    (source : String) (why : SnapshotReasons) (statements : SessionName → List (Db → Db)) :
    Op QueueSnapshot :=
  Op.bind (normalizeSessionName sessionNameInput) fun s =>
    mutation localeCompare env s source why (statements s)

end Imcodes.Queue
