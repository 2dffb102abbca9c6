import Imcodes.Collections.KeyedLog
import Imcodes.Machine.Runs
import Mathlib.Data.List.Sort
import Mathlib.Logic.Function.Basic

/-!
# The outbox of acknowledgements

Acknowledgements that the server has not taken yet, in a map and in a file of
one record a line.

The map, a flush that is under way and a record that waits to be written share
the entry objects, and a flush changes the `attempts` of one in place.  So the
objects are in a `heap`, and a record is turned into text when its turn to be
written has come.  A flush or a collection that awaits an append is a loop of the
state, which goes on once that append is done.
-/

namespace Imcodes.Outbox

/-- `ACK_OUTBOX_TTL_MS` -/
def ackOutboxTtlMs : Int := 10 * 60000

/-- `ACK_OUTBOX_MAX_ATTEMPTS` -/
def ackOutboxMaxAttempts : Nat := 10

/-- What `enqueue` is given. -/
structure AckOutboxInput where
  commandId : String
  sessionName : String
  status : String
  error : Option String := none
  /-- The JSON text of `extras`, which is passed on as it is. -/
  extras : Option String := none
  ts : Int
deriving DecidableEq, Inhabited

structure AckOutboxEntry extends AckOutboxInput where
  attempts : Nat
deriving DecidableEq, Inhabited

/-- `{ ...entry, attempts: entry.attempts ?? 0 }` -/
def AckOutboxInput.full (entry : AckOutboxInput) (attempts : Option Nat) : AckOutboxEntry :=
  { entry with attempts := attempts.getD 0 }

/-- A line of the file that is a record. -/
abbrev DiskRecord := LogRecord AckOutboxEntry String

/-- An entry object, by its place in the heap. -/
abbrev Ref := Nat

/-- A flush whose loop awaits an append. -/
structure Flush where
  remaining : List Ref
  /-- The append it awaits. -/
  ticket : Nat
deriving DecidableEq

/-- A collection whose loop awaits an append. -/
structure Collection where
  remaining : List String
  ticket : Nat
deriving DecidableEq

structure AckOutbox where
  heap : Ref → AckOutboxEntry
  nextRef : Ref
  entries : OrderedMap String Ref
  /-- The records that `writing` has yet to come to. -/
  queue : List (LogRecord Ref String)
  /-- The record that is being appended. -/
  writing : Option DiskRecord
  file : List DiskRecord
  /-- How many appends have been asked for, and how many are done. -/
  appended : Nat
  written : Nat
  flushes : List Flush
  collections : List Collection

/-! ## Loading -/

/-- `now - entry.ts > ACK_OUTBOX_TTL_MS` -/
def AckOutboxEntry.isExpired (now : Int) (entry : AckOutboxEntry) : Bool :=
  now - entry.ts > ackOutboxTtlMs

/-- `entry.attempts >= ACK_OUTBOX_MAX_ATTEMPTS` -/
def AckOutboxEntry.isCapped (entry : AckOutboxEntry) : Bool :=
  ackOutboxMaxAttempts ≤ entry.attempts

/-- One line of the file; a line without a record is skipped. -/
def readLine (now : Int) (live : OrderedMap String AckOutboxEntry) :
    Option DiskRecord → OrderedMap String AckOutboxEntry
  | none => live
  | some (.entry entry) =>
      if entry.isExpired now then live
      else if entry.isCapped then live
      else live.set entry.commandId entry
  | some (.tombstone commandId) => live.delete commandId

def loadFromDisk (now : Int) (lines : List (Option DiskRecord)) : OrderedMap String AckOutboxEntry :=
  lines.foldl (readLine now) .empty

namespace AckOutbox

/-- `init` of a new process, which loads the file and rewrites it. -/
def init (now : Int) (lines : List (Option DiskRecord)) : AckOutbox :=
  let live := loadFromDisk now lines
  { heap := fun ref => live.values.getD ref default
    nextRef := live.values.length
    entries := ⟨live.toList.zipIdx.map fun p => (p.1.1, p.2), by
      rw [List.map_map]
      have h : (Prod.fst ∘ fun p : (String × AckOutboxEntry) × Nat => (p.1.1, p.2)) =
        Prod.fst ∘ Prod.fst := rfl
      rw [h, ← List.map_map, List.zipIdx_map_fst]
      exact live.nodup⟩
    queue := []
    writing := none
    file := live.values.map .entry
    appended := 0
    written := 0
    flushes := []
    collections := [] }

/-- The entry that the map has under an id. -/
def lookup (o : AckOutbox) (commandId : String) : Option AckOutboxEntry :=
  (o.entries.get? commandId).map o.heap

/-! ## Appending -/

/-- `appendRecord`, with the number of the append. -/
def appendRecord (o : AckOutbox) (record : LogRecord Ref String) : Nat × AckOutbox :=
  (o.appended + 1, { o with queue := o.queue ++ [record], appended := o.appended + 1 })

/-- The next record is turned into text. -/
def startWriting (o : AckOutbox) : AckOutbox :=
  match o.writing, o.queue with
  | none, record :: queue => { o with writing := some (record.map o.heap), queue }
  | _, _ => o

/-- The text is in the file. -/
def finishWriting (o : AckOutbox) : AckOutbox :=
  match o.writing with
  | some record => { o with writing := none, file := o.file ++ [record], written := o.written + 1 }
  | none => o

/-! ## Entries -/

def enqueue (o : AckOutbox) (entry : AckOutboxInput) (attempts : Option Nat) : AckOutbox :=
  let ref := o.nextRef
  ({ o with
    heap := Function.update o.heap ref (entry.full attempts)
    nextRef := ref + 1
    entries := o.entries.set entry.commandId ref }.appendRecord (.entry ref)).2

/-- `entries.delete(id)`, and the tombstone. -/
def bury (o : AckOutbox) (id : String) : Nat × AckOutbox :=
  { o with entries := o.entries.delete id }.appendRecord (.tombstone id)

/-- `markAcked`; without an entry there is nothing to await. -/
def markAcked (o : AckOutbox) (commandId : String) : Nat × AckOutbox :=
  match o.entries.get? commandId with
  | none => (0, o)
  | some _ => o.bury commandId

/-! ## Flushing -/

/-- How a call of `send` ends. -/
inductive SendOutcome
  /-- There was none: `isConnected` says no. -/
  | disconnected
  | sent
  /-- It returns `false`. -/
  | notSent
  | threw
deriving DecidableEq

/-- `entry.attempts += 1` -/
def countAttempt (o : AckOutbox) (ref : Ref) : AckOutbox :=
  { o with heap :=
      Function.update o.heap ref { o.heap ref with attempts := (o.heap ref).attempts + 1 } }

/-- The flush awaits an append, and has these entries left. -/
def awaitFlush (remaining : List Ref) (p : Nat × AckOutbox) : AckOutbox :=
  { p.2 with flushes := p.2.flushes ++ [⟨remaining, p.1⟩] }

/-- A round of the loop of `flushOnReconnect`. -/
def flushNext (o : AckOutbox) (outcome : SendOutcome) : List Ref → AckOutbox
  | [] => o
  | ref :: remaining =>
      if (o.heap ref).isCapped then
        awaitFlush remaining (o.markAcked (o.heap ref).commandId)
      else
        match outcome with
        | .disconnected => o
        | .sent =>
            awaitFlush remaining ((o.countAttempt ref).markAcked (o.heap ref).commandId)
        | .notSent | .threw => ((o.countAttempt ref).appendRecord (.entry ref)).2

/-- The entries in the order of `ts`. -/
def ordered (o : AckOutbox) : List Ref :=
  o.entries.values.insertionSort fun a b => (o.heap a).ts ≤ (o.heap b).ts

def flushOnReconnect (o : AckOutbox) (outcome : SendOutcome) : AckOutbox :=
  o.flushNext outcome o.ordered

/-- The `i`-th flush, if the append it awaits is done. -/
def readyFlush (o : AckOutbox) (i : Nat) : Option Flush :=
  o.flushes[i]?.filter (·.ticket ≤ o.written)

/-- The `i`-th flush goes on. -/
def resumeFlush (o : AckOutbox) (i : Nat) (outcome : SendOutcome) : AckOutbox :=
  match o.readyFlush i with
  | none => o
  | some flush => { o with flushes := o.flushes.eraseIdx i }.flushNext outcome flush.remaining

/-! ## Collecting -/

/-- A round of the second loop of `gc`. -/
def collectNext (o : AckOutbox) : List String → AckOutbox
  | [] => o
  | id :: remaining =>
      let (ticket, o) := o.bury id
      { o with collections := o.collections ++ [⟨remaining, ticket⟩] }

def gc (o : AckOutbox) (now : Int) : AckOutbox :=
  o.collectNext <| (o.entries.toList.filter fun p =>
    (o.heap p.2).isExpired now || (o.heap p.2).isCapped).map Prod.fst

/-- The `i`-th collection goes on, if the append it awaits is done. -/
def resumeGc (o : AckOutbox) (i : Nat) : AckOutbox :=
  match o.collections[i]?.filter (·.ticket ≤ o.written) with
  | none => o
  | some gc => { o with collections := o.collections.eraseIdx i }.collectNext gc.remaining

end AckOutbox

/-! ## Runs -/

inductive Event
  | enqueue (entry : AckOutboxInput) (attempts : Option Nat)
  | markAcked (commandId : String)
  | flushOnReconnect (outcome : AckOutbox.SendOutcome)
  /-- The `i`-th flush goes on after its `await`. -/
  | resumeFlush (i : Nat) (outcome : AckOutbox.SendOutcome)
  | gc (now : Int)
  | resumeGc (i : Nat)
  | startWriting
  | finishWriting
  /-- The process dies, and a new one reads the file. -/
  | restart (now : Int)
deriving DecidableEq

/-- One event. -/
def step (o : AckOutbox) : Event → AckOutbox
  | .enqueue entry attempts => o.enqueue entry attempts
  | .markAcked commandId => (o.markAcked commandId).2
  | .flushOnReconnect outcome => o.flushOnReconnect outcome
  | .resumeFlush i outcome => o.resumeFlush i outcome
  | .gc now => o.gc now
  | .resumeGc i => o.resumeGc i
  | .startWriting => o.startWriting
  | .finishWriting => o.finishWriting
  | .restart now => .init now (o.file.map some)

end Imcodes.Outbox
