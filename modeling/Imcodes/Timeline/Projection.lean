import Imcodes.Collections.Sized

/-!
# The projection of a session's timeline

A worker copies the log of a session into a table.  It learns of an event by a message after the
line of the event has landed, and finds out from the size of the file what to do: to insert the
event, to read what was appended, or to read everything again.  The file may grow whenever the
worker looks at it; an event of the machine says what lands at these places.
-/

namespace Imcodes.Timeline

variable {α : Type}

/-- An event, with the bytes of its line. -/
structure LoggedEvent (α : Type) where
  event : α
  bytes : ℕ
  pos : 0 < bytes
deriving DecidableEq

/-- A line of the file. -/
inductive LogLine (α : Type)
  /-- An event of the session. -/
  | own (event : LoggedEvent α)
  /-- An event of another session whose name makes the same path. -/
  | foreign (bytes : ℕ) (pos : 0 < bytes)
  /-- A line that does not parse. -/
  | corrupt (bytes : ℕ) (pos : 0 < bytes)
  /-- A line of white space. -/
  | blank (bytes : ℕ) (pos : 0 < bytes)
  | empty
deriving DecidableEq

namespace LogLine

/-- The bytes of the line, with the one that ends it. -/
def bytes : LogLine α → ℕ
  | own event => event.bytes
  | foreign bytes _ | corrupt bytes _ | blank bytes _ => bytes
  | empty => 1

theorem bytes_pos : ∀ line : LogLine α, 0 < line.bytes
  | own event => event.pos
  | foreign _ pos | corrupt _ pos | blank _ pos => pos
  | empty => Nat.one_pos

/-- Nothing is left of the line by `trim`. -/
def isBlank : LogLine α → Bool
  | blank _ _ | empty => true
  | own _ | foreign _ _ | corrupt _ _ => false

/-- The event of the session that the line parses to. -/
def ownEvent : LogLine α → Option (LoggedEvent α)
  | own event => some event
  | foreign _ _ | corrupt _ _ | blank _ _ | empty => none

end LogLine

/-- The log of a session. -/
structure LogFile (α : Type) where
  lines : List (LogLine α)
  mtimeMs : ℕ

/-- `ProjectionStatus` -/
inductive ProjectionStatus
  | missing
  | building
  | ready
  | stale
  | corrupt
deriving DecidableEq

/-- `ProjectionSessionMeta` -/
structure SessionMeta where
  lastProjectedAppendOrdinal : ℕ
  sourceFileSizeBytes : ℕ
  sourceFileMtimeMs : ℕ
  projectionVersion : ℕ
  status : ProjectionStatus
deriving DecidableEq

/-- What `currentFileMeta` finds. -/
structure FileMeta where
  isThere : Bool
  size : ℕ
  mtimeMs : ℕ

/-- A line lands in the file. -/
structure Landing (α : Type) where
  line : LogLine α
  mtimeMs : ℕ
deriving DecidableEq

/-- The file of a session and its projection. -/
structure Projection (α : Type) where
  file : Option (LogFile α) := none
  /-- `timeline_projection_events`: ordinals and events -/
  rows : List (ℕ × LoggedEvent α) := []
  /-- `timeline_projection_sessions` -/
  session : Option SessionMeta := none
  /-- `sessionMutationGenerations` -/
  generation : ℕ := 0
  /-- The rebuilds that are scheduled, with their generations. -/
  scheduled : List ℕ := []
  /-- The messages that were not handled yet. -/
  messages : List (LoggedEvent α) := []

/-- `PROJECTION_VERSION` -/
def projectionVersion : ℕ := 1

/-- What happens to a projection, and what lands meanwhile. -/
inductive ProjectionEvent (α : Type)
  | land (landing : Landing α)
  /-- The next message is handled; lines land before the delta is synced, before the session is
  rebuilt, and while it is. -/
  | recordAppendedEvent (beforeSync beforeRebuild whileRebuilding : List (Landing α))
  | rebuildSession (whileRebuilding : List (Landing α))
  /-- A query prepares to read. -/
  | read
  /-- A scheduled rebuild runs. -/
  | immediate (whileRebuilding : List (Landing α))
deriving DecidableEq

/-! ## Reading the file -/

/-- The lines of a file are parsed up to the first that does not; those of other sessions and empty
ones are left out. -/
def parseEvents : List (LogLine α) → Option (List (LoggedEvent α))
  | [] => some []
  | .empty :: lines | .foreign _ _ :: lines => parseEvents lines
  | .own event :: lines => (parseEvents lines).map (event :: ·)
  | .corrupt _ _ :: _ | .blank _ _ :: _ => none

/-- `parseAppendedEvents` -/
def parseAppendedEvents (lines : List (LogLine α)) (startOffset endOffset : ℕ) :
    Option (List (LoggedEvent α)) :=
  if endOffset ≤ startOffset then some []
  else
    match Sized.between LogLine.bytes startOffset endOffset lines with
    | none => none
    | some lines => if lines.all (·.isBlank) then some [] else parseEvents lines

/-- `parseLinesAscending` -/
def parseLinesAscending (lines : List (LogLine α)) : List (LoggedEvent α) :=
  if lines.all (·.isBlank) then [] else lines.filterMap (·.ownEvent)

namespace Projection

variable (projection : Projection α)

/-- The lines of the file. -/
def lines : List (LogLine α) := (projection.file.map LogFile.lines).getD []

/-- A line lands, and the message about its event is sent. -/
def land (landing : Landing α) : Projection α :=
  { projection with
    file := some ⟨projection.lines ++ [landing.line], landing.mtimeMs⟩
    messages := projection.messages ++ landing.line.ownEvent.toList }

/-- Lines land one after the other. -/
def landAll (landings : List (Landing α)) : Projection α := landings.foldl land projection

/-- `currentFileMeta` -/
def currentFileMeta : FileMeta :=
  match projection.file with
  | none => ⟨false, 0, 0⟩
  | some file => ⟨true, Sized.total LogLine.bytes file.lines, file.mtimeMs⟩

/-- `deleteSessionRows` -/
def deleteSessionRows : Projection α :=
  { projection with rows := [], session := none, generation := projection.generation + 1 }

/-- `upsertSessionMeta` -/
def upsertSessionMeta (lastProjectedAppendOrdinal : ℕ) (fileMeta : FileMeta)
    (status : ProjectionStatus) : Projection α :=
  { projection with
    session := some
      { lastProjectedAppendOrdinal := lastProjectedAppendOrdinal
        sourceFileSizeBytes := fileMeta.size
        sourceFileMtimeMs := fileMeta.mtimeMs
        projectionVersion := projectionVersion
        status := status } }

/-- `insertProjectedEvent` for events one after the other, behind an ordinal -/
def insertProjectedEvents (ordinal : ℕ) (events : List (LoggedEvent α)) : Projection α :=
  { projection with
    rows := projection.rows ++ (events.zipIdx (ordinal + 1)).map Prod.swap }

/-- `rebuildSessionInternal` -/
def rebuildSessionInternal (whileRebuilding : List (Landing α)) : Projection α :=
  let fileMeta := projection.currentFileMeta
  if fileMeta.isThere then
    let projection := (projection.upsertSessionMeta 0 fileMeta .building).landAll whileRebuilding
    let events := parseLinesAscending projection.lines
    ({ projection with rows := [] }.insertProjectedEvents 0 events).upsertSessionMeta events.length
      fileMeta .ready
  else projection.deleteSessionRows

/-- `scheduleSessionRebuild` -/
def scheduleSessionRebuild : Projection α :=
  { projection with scheduled := projection.scheduled ++ [projection.generation] }

/-- `markSessionReady` -/
def markSessionReady (session : SessionMeta) (fileMeta : FileMeta) : Projection α :=
  projection.upsertSessionMeta session.lastProjectedAppendOrdinal fileMeta
    (if fileMeta.isThere then .ready else .missing)

/-- `syncSessionDelta` -/
def syncSessionDelta (session : SessionMeta)
    (beforeRebuild whileRebuilding : List (Landing α)) : Projection α :=
  let fileMeta := projection.currentFileMeta
  if !fileMeta.isThere then projection.deleteSessionRows
  else if fileMeta.size = session.sourceFileSizeBytes then
    if fileMeta.mtimeMs ≠ session.sourceFileMtimeMs then
      projection.markSessionReady session fileMeta
    else projection
  else if fileMeta.size < session.sourceFileSizeBytes ||
      fileMeta.mtimeMs < session.sourceFileMtimeMs then
    (projection.landAll beforeRebuild).rebuildSessionInternal whileRebuilding
  else
    match parseAppendedEvents projection.lines session.sourceFileSizeBytes fileMeta.size with
    | none => (projection.landAll beforeRebuild).rebuildSessionInternal whileRebuilding
    | some [] => projection.markSessionReady session fileMeta
    | some events =>
        (projection.insertProjectedEvents session.lastProjectedAppendOrdinal
          events).upsertSessionMeta (session.lastProjectedAppendOrdinal + events.length) fileMeta
          .ready

/-- The event is known to be all that was appended. -/
def isOneRow (session : SessionMeta) (event : LoggedEvent α) : Bool :=
  session.status = .ready && session.projectionVersion = projectionVersion &&
    projection.currentFileMeta.size = session.sourceFileSizeBytes + event.bytes &&
    session.sourceFileMtimeMs ≤ projection.currentFileMeta.mtimeMs

/-- `handleRecordAppendedEvent` -/
def handleRecordAppendedEvent (event : LoggedEvent α)
    (beforeSync beforeRebuild whileRebuilding : List (Landing α)) : Projection α :=
  let fileMeta := projection.currentFileMeta
  if !fileMeta.isThere then projection
  else
    match projection.session with
    | none => (projection.landAll beforeRebuild).rebuildSessionInternal whileRebuilding
    | some session =>
      if projection.isOneRow session event then
        (projection.insertProjectedEvents session.lastProjectedAppendOrdinal
          [event]).upsertSessionMeta (session.lastProjectedAppendOrdinal + 1) fileMeta .ready
      else if session.status = .ready && session.projectionVersion = projectionVersion then
        (projection.landAll beforeSync).syncSessionDelta session beforeRebuild whileRebuilding
      else (projection.landAll beforeRebuild).rebuildSessionInternal whileRebuilding

/-- `prepareSqliteRead` -/
def prepareSqliteRead : Projection α :=
  let fileMeta := projection.currentFileMeta
  if !fileMeta.isThere then projection.deleteSessionRows
  else
    match projection.session with
    | none => projection.scheduleSessionRebuild
    | some session =>
      if session.status ≠ .ready || session.projectionVersion ≠ projectionVersion then
        projection.scheduleSessionRebuild
      else if session.sourceFileSizeBytes = fileMeta.size &&
          session.sourceFileMtimeMs ≠ fileMeta.mtimeMs then
        projection.markSessionReady session fileMeta
      else if session.sourceFileSizeBytes ≠ fileMeta.size ||
          session.sourceFileMtimeMs ≠ fileMeta.mtimeMs then
        projection.scheduleSessionRebuild
      else projection

/-- One event of a projection. -/
def step (projection : Projection α) : ProjectionEvent α → Projection α
  | .land landing => projection.land landing
  | .recordAppendedEvent beforeSync beforeRebuild whileRebuilding =>
      match projection.messages with
      | [] => projection
      | event :: messages =>
          { projection with messages := messages }.handleRecordAppendedEvent event beforeSync
            beforeRebuild whileRebuilding
  | .rebuildSession whileRebuilding => projection.rebuildSessionInternal whileRebuilding
  | .read => projection.prepareSqliteRead
  | .immediate whileRebuilding =>
      match projection.scheduled with
      | [] => projection
      | generation :: scheduled =>
          let projection := { projection with scheduled := scheduled }
          if projection.generation = generation then
            projection.rebuildSessionInternal whileRebuilding
          else projection

end Projection

end Imcodes.Timeline
