import Mathlib.Data.List.Sort
import Imcodes.Collections.JsonText
import Imcodes.Machine.Runs
import Imcodes.Timeline.Preference
import Imcodes.Timeline.Store

/-!
# The timeline emitter of a session

`TimelineEmitter.emit` numbers an event, puts it into the ring buffer of its session and has
it appended to the session's log; `replay` answers from the buffer, or from the end of the log
and the buffer.  The log is what it holds once the appends that were scheduled have landed: bytes,
of which the last lines are read.
-/

namespace Imcodes.Timeline

open LogFile

/-- `MAX_BUFFER` -/
def maxBuffer : ℕ := 500

/-- What `emit` computes with code from elsewhere. -/
structure World where
  /-- `String(value)` -/
  text : Json → String
  /-- `isMemoryNoiseTurn` -/
  isMemoryNoiseTurn : String → Bool
  /-- The digest that stands for an event without an id. -/
  digest : String → String → ℚ → Fields → String
  /-- The numbers of `JSON.stringify` -/
  numbers : Json.NumberText
  /-- `JSON.parse(line) as TimelineEvent`, unless it throws -/
  parse : List Char → Option TimelineEvent

/-- The options of `emit`. -/
structure EmitOpts where
  source : Option String := none
  confidence : Option String := none
  eventId : Option String := none
  ts : Option ℚ := none
  hidden : Bool := false

/-- A call of `emit`. -/
structure EmitCall where
  type : String
  payload : Fields
  opts : EmitOpts := {}
  /-- What the temp file that a prompt refers to makes of the payload. -/
  inlined : Fields → Fields := id
  /-- `Date.now()`, where a repeated prompt is looked for and where the event is stamped -/
  now : ℚ × ℚ

/-- `TimelineEmitter` and the log, as far as one session goes. -/
structure Emitter where
  sessionId : String
  epoch : ℚ
  /-- `seqMap` -/
  seq : ℕ
  buffer : List TimelineEvent
  lastSessionState : Option String
  recentUserMsg : Option (String × ℚ)
  /-- The file of `timelineStore.append` -/
  log : List UInt8

/-- `typeof fields.key === 'number'` -/
def isNumber (fields : Fields) (key : String) : Bool :=
  match fields.read key with
  | some (.number _) => true
  | _ => false

/-- `Array.isArray(fields.key)` -/
def isArray (fields : Fields) (key : String) : Bool :=
  match fields.read key with
  | some (.array _) => true
  | _ => false

/-- `hasQueueMutation` -/
def hasQueueMutation (payload : Fields) : Bool :=
  isArray payload "pendingMessageEntries" || isArray payload "transportPendingMessageEntries" ||
    isArray payload "failedMessageEntries" || (payload.string? "queueEpoch").isSome ||
    (payload.string? "queueAuthorityId").isSome || isNumber payload "pendingMessageVersion" ||
    isNumber payload "transportPendingMessageVersion" || (payload.string? "resetReason").isSome ||
    (payload.string? "dropReason").isSome || (payload.string? "degradedReason").isSome ||
    (payload.string? "queueError").isSome || (payload.read "error").isSome

/-- `String(payload.key ?? '')` -/
def World.textOf (world : World) (payload : Fields) (key : String) : String :=
  ((nullish (payload.read key)).map world.text).getD ""

/-- An event as it is written; an epoch that is not there is left out. -/
def TimelineEvent.toJson (event : TimelineEvent) : Json :=
  .object ([("eventId", .string event.eventId), ("sessionId", .string event.sessionId),
      ("ts", .number event.ts), ("seq", .number event.seq)] ++
    (event.epoch.map fun epoch => ("epoch", Json.number epoch)).toList ++
    [("source", .string event.source), ("confidence", .string event.confidence),
      ("type", .string event.type), ("payload", .object event.payload)] ++ event.fields)

/-- The line of an event in the log. -/
def World.line (world : World) (event : TimelineEvent) : Line where
  text := Json.stringify world.numbers event.toJson
  ne_nil := by simp [TimelineEvent.toJson, Json.stringify]
  not_mem := Json.not_mem_stringify event.toJson

namespace Emitter

/-- What `emit` does before it numbers an event: the payload, unless the event repeats a state
or a prompt. -/
def accept (world : World) (emitter : Emitter) (call : EmitCall) : Emitter × Option Fields :=
  if call.type = "session.state" then
    let state := world.textOf call.payload "state"
    if !hasQueueMutation call.payload && emitter.lastSessionState = some state then (emitter, none)
    else ({ emitter with lastSessionState := some state }, some call.payload)
  else if call.type = "user.message" then
    let emitter := { emitter with lastSessionState := none }
    let payload := call.inlined call.payload
    let resolvedText := world.textOf payload "text"
    if isTrue call.payload "allowDuplicate" then (emitter, some payload)
    else if emitter.recentUserMsg.any fun prev =>
        prev.1 = resolvedText && call.now.1 - prev.2 < 5000 then (emitter, none)
    else ({ emitter with recentUserMsg := some (resolvedText, call.now.1) }, some payload)
  else (emitter, some call.payload)

/-- A reply that is noise is marked. -/
def markNoise (world : World) (type : String) (payload : Fields) : Fields :=
  if type = "assistant.text" && (payload.string? "text").any world.isMemoryNoiseTurn then
    (payload.put "memoryExcluded" (.bool true)).put "assistantKind"
      (.string ((payload.string? "assistantKind").getD "error"))
  else payload

/-- The event of a call. -/
def event (world : World) (emitter : Emitter) (call : EmitCall) (payload : Fields) :
    TimelineEvent :=
  let ts := call.opts.ts.getD call.now.2
  { eventId := match call.opts.eventId with
      | none | some "" => world.digest emitter.sessionId call.type ts payload
      | some eventId => eventId
    sessionId := emitter.sessionId
    ts := ts
    seq := emitter.seq + 1
    epoch := some emitter.epoch
    source := call.opts.source.getD "daemon"
    confidence := call.opts.confidence.getD "high"
    type := call.type
    payload := payload
    fields := if call.opts.hidden then [("hidden", .bool true)] else [] }

/-- The ring buffer after an event, before it is cut; `isStableUpdate` when the caller named the
event. -/
def pushed (buffer : List TimelineEvent) (isStableUpdate : Bool) (event : TimelineEvent) :
    List TimelineEvent :=
  match if isStableUpdate then buffer.find? (·.eventId = event.eventId) else none with
  | some existing =>
      buffer.eraseP (·.eventId = event.eventId) ++ [preferTimelineEvent existing event]
  | none => buffer ++ [event]

/-- `buf.splice(0, buf.length - MAX_BUFFER)` -/
def cut (buffer : List TimelineEvent) : List TimelineEvent :=
  buffer.drop (buffer.length - maxBuffer)

/-- An event goes into the buffer and, unless more of it is to come, into the log. -/
def record (world : World) (emitter : Emitter) (isStableUpdate : Bool) (event : TimelineEvent) :
    Emitter :=
  { emitter with
    seq := emitter.seq + 1
    buffer := cut (pushed emitter.buffer isStableUpdate event)
    log := if isStableUpdate && isStreaming event then emitter.log
      else emitter.log ++ (world.line event).bytes }

/-- `emit`, with the event that is broadcast -/
def emit (world : World) (emitter : Emitter) (call : EmitCall) : Emitter × Option TimelineEvent :=
  match emitter.accept world call with
  | (emitter, none) => (emitter, none)
  | (emitter, some payload) =>
      let event := emitter.event world call (markNoise world call.type payload)
      (emitter.record world call.opts.eventId.isSome event, some event)

end Emitter

/-! ## Reading -/

/-- The options of `timelineStore.read`. -/
structure ReadOpts where
  epoch : Option ℚ := none
  afterSeq : Option ℚ := none
  afterTs : Option ℚ := none
  beforeTs : Option ℚ := none
  limit : Option ℕ := none

/-- Whether a line is an event that the options ask for. -/
def ReadOpts.wanted (opts : ReadOpts) (line : Option TimelineEvent) : Option TimelineEvent :=
  line.bind fun event =>
    if opts.epoch.any fun epoch => event.epoch ≠ some epoch then none
    else if opts.afterSeq.any fun afterSeq => event.seq ≤ afterSeq then none
    else if opts.afterTs.any fun afterTs => event.ts ≤ afterTs then none
    else if opts.beforeTs.any fun beforeTs => event.ts ≥ beforeTs then none
    else some event

/-- `timelineStore.read` -/
def World.readLog (world : World) (log : List UInt8) (opts : ReadOpts) : List TimelineEvent :=
  let readLimit := max (opts.limit.getD 200 * 3) 1000
  let rawLines := readTailLines (some log) readLimit
  let events := rawLines.filterMap fun line => opts.wanted (world.parse line)
  (match opts.limit with
    | none | some 0 => events
    | some limit => events.take limit).reverse

/-- `TIMELINE_RESPONSE_SOURCES`, as far as `replay` goes -/
inductive ResponseSource
  | ringBuffer
  | jsonlTail
  | ringBufferJsonl
deriving DecidableEq

/-- The answer of `replay`. -/
structure Replay where
  events : List TimelineEvent
  truncated : Bool
  source : ResponseSource

/-- The buffered events after a point that are not seen yet. -/
def unseen (afterSeq : ℚ) : List (Option ℚ × ℚ) → List TimelineEvent → List TimelineEvent
  | _, [] => []
  | seen, event :: buffer =>
    if event.seq ≤ afterSeq then unseen afterSeq seen buffer
    else if (event.epoch, event.seq) ∈ seen then unseen afterSeq seen buffer
    else event :: unseen afterSeq ((event.epoch, event.seq) :: seen) buffer

namespace Emitter

/-- The buffer covers everything after the point. -/
def buffered (emitter : Emitter) (afterSeq : ℚ) : Bool :=
  emitter.buffer.head?.any fun first => afterSeq + 1 ≥ first.seq

/-- `{ epoch: this.epoch, afterSeq }` -/
def tailOpts (emitter : Emitter) (afterSeq : ℚ) : ReadOpts :=
  { epoch := some emitter.epoch, afterSeq := some afterSeq }

/-- `replay` -/
def replay (world : World) (emitter : Emitter) (afterSeq : ℚ) : Replay :=
  if emitter.buffered afterSeq then
    ⟨emitter.buffer.filter (·.seq > afterSeq), false, .ringBuffer⟩
  else
    let fileEvents := world.readLog emitter.log (emitter.tailOpts afterSeq)
    if emitter.buffer.isEmpty then ⟨fileEvents, false, .jsonlTail⟩
    else
      let seen := fileEvents.map fun event => (event.epoch, event.seq)
      ⟨(fileEvents ++ unseen afterSeq seen emitter.buffer).insertionSort fun a b => a.seq ≤ b.seq,
        false, .ringBufferJsonl⟩

end Emitter

end Imcodes.Timeline
