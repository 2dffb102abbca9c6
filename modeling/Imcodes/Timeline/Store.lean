import Imcodes.Timeline.TailLines

/-!
# The log of a session's timeline

`TimelineStore.append` and `truncate` on the file of one session.  Every `await` is a place where
the other calls go on, so each call is a record of how far it has come, and an event of the
machine lets one of them take its next step.  Appends and truncations are named by the order in
which they were called.  The file is bytes, and what is read of it is what its chunks are decoded
to.
-/

namespace Imcodes.Timeline

open LogFile

/-- How far `appendOne` has come. -/
inductive AppendPhase
  /-- The promise before it has not been looked at. -/
  | waiting
  /-- `await mkdir(…)` -/
  | mkdir
  /-- `await appendFile(…)` -/
  | writing
  /-- The line is in the file. -/
  | landed
  /-- The promise of the append is settled. -/
  | settled
deriving DecidableEq

/-- The line is in the file, or was. -/
def AppendPhase.hasLanded : AppendPhase → Bool
  | landed | settled => true
  | waiting | mkdir | writing => false

/-- A call of `append`. -/
structure Append where
  line : Line
  /-- The promise that it found in `sessionChains`. -/
  prev : Option ℕ
  phase : AppendPhase

/-- How far `truncate` has come. -/
inductive TruncatePhase
  /-- `await chain.catch(…)` -/
  | waiting (chain : ℕ)
  /-- `await writeFile(tmpPath, …)` -/
  | writing (kept : List (List Char))
  /-- `await rename(tmpPath, filePath)` -/
  | copied
  /-- `sessionChains.delete(sessionName)` is next. -/
  | renamed
  /-- `await unlink(tmpPath)`, after a rename that did not find the copy -/
  | unlinking
  | done
deriving DecidableEq

/-- A call of `truncate`. -/
structure Truncate where
  keepLast : ℕ
  phase : TruncatePhase

/-- `TimelineStore` and the files, as far as one session goes. -/
structure Store where
  /-- The session file; one that is not there is read as an empty one is. -/
  file : List UInt8
  /-- The copy that a truncation writes. -/
  tmp : Option (List UInt8) := none
  /-- The promise in `sessionChains`, by its append. -/
  chain : Option ℕ := none
  initialized : Bool := false
  appends : List Append := []
  truncates : List Truncate := []

/-- A call, or the next step of one. -/
inductive StoreEvent
  | append (line : Line)
  | truncate (keepLast : ℕ)
  | appendStep (append : ℕ)
  | truncateStep (truncate : ℕ)

namespace Store

/-- An append has come further. -/
def advance (store : Store) (append : ℕ) (phase : AppendPhase) : Store :=
  { store with appends := store.appends.modify append fun a => { a with phase := phase } }

/-- A truncation has come further. -/
def proceed (store : Store) (truncate : ℕ) (phase : TruncatePhase) : Store :=
  { store with truncates := store.truncates.modify truncate fun t => { t with phase := phase } }

/-- The promise of an append is settled. -/
def isSettled (store : Store) (append : ℕ) : Bool :=
  store.appends[append]?.any (·.phase = .settled)

/-- The tail is read, and what is to be kept is written unless that is everything. -/
def readTail (store : Store) (keepLast : ℕ) : TruncatePhase :=
  let newestFirst := readTailLines (some store.file) (keepLast + 1)
  if newestFirst.length ≤ keepLast then .done
  else .writing (newestFirst.take keepLast).reverse

/-- The next step of `appendOne`, and what `append` does when the promise is settled. -/
def stepAppend (store : Store) (i : ℕ) (append : Append) : Store :=
  match append.phase with
  | .waiting =>
      if append.prev.all store.isSettled then
        store.advance i (if store.initialized then .writing else .mkdir)
      else store
  | .mkdir => { store.advance i .writing with initialized := true }
  | .writing => { store.advance i .landed with file := store.file ++ append.line.bytes }
  | .landed => store.advance i .settled
  -- `next.finally(…)`
  | .settled => if store.chain = some i then { store with chain := none } else store

/-- The next step of `truncate`. -/
def stepTruncate (store : Store) (i : ℕ) (truncate : Truncate) : Store :=
  match truncate.phase with
  | .waiting chain =>
      if store.isSettled chain then store.proceed i (store.readTail truncate.keepLast) else store
  | .writing kept => { store.proceed i .copied with tmp := some (joinBytes kept) }
  | .copied =>
      match store.tmp with
      | some copy => { store.proceed i .renamed with file := copy, tmp := none }
      | none => store.proceed i .unlinking
  | .renamed => { store.proceed i .done with chain := none }
  | .unlinking => { store.proceed i .done with tmp := none }
  | .done => store

/-- A call, or the next step of one. -/
def step (store : Store) : StoreEvent → Store
  | .append line =>
      { store with
        chain := some store.appends.length
        appends := store.appends ++ [⟨line, store.chain, .waiting⟩] }
  | .truncate keepLast =>
      let phase := match store.chain with
        | some chain => .waiting chain
        | none => store.readTail keepLast
      { store with truncates := store.truncates ++ [⟨keepLast, phase⟩] }
  | .appendStep i =>
      match store.appends[i]? with
      | some append => store.stepAppend i append
      | none => store
  | .truncateStep i =>
      match store.truncates[i]? with
      | some truncate => store.stepTruncate i truncate
      | none => store

end Store

end Imcodes.Timeline
