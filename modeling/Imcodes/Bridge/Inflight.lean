import Imcodes.Bridge.Link
import Imcodes.Collections.OrderedMap
import Mathlib.Data.List.Sort

/-!
# Commands in flight

A browser's command, a `session.send` or a `session.cancel` with an id, that the bridge has taken is
in flight until it is acknowledged, echoed, given up or swept away.  It is sent to the daemon when
it comes or, while the daemon is expected back, when the daemon is back; and it is sent again when
its acknowledgement is late.  A command of a share is looked at once more before each time that it
is sent, and the bridge goes on meanwhile; when the look throws, nothing is done about the command,
and a replay goes on with the others.

* `Inflight.step` — what happens between two waits, with the connection of `Link`.

A command is known by the number of its registration; its text and where it came from are left
out.  A copy of it is a number and the attempt with which it is marked, if it is.
-/

namespace Imcodes.Bridge

inductive InflightState
  | buffered
  | dispatched
  | acked
deriving DecidableEq

structure InflightCommand where
  commandId : String := ""
  /-- It came over the socket of a share. -/
  share : Bool := false
  state : InflightState := .buffered
  sentAt : ℕ := 0
  dispatchAttempts : ℕ := 0
  /-- The timer is armed. -/
  timeoutTimer : Bool := false
deriving DecidableEq

/-- `AckFailureReason | ShareReason` -/
inductive FailureReason
  | daemonOffline
  | ackTimeout
  | revoked
  | expired
  | targetUnavailable
  | roleDenied
deriving DecidableEq

inductive Ending
  | acked
  | echoed
  | failed (reason : FailureReason)
  | swept
deriving DecidableEq

/-- A replay that waits, and what it has not come to yet. -/
structure Replay where
  handler : ℕ
  rest : List ℕ
deriving DecidableEq

/-- A command of a share that is looked at once more. -/
structure Revalidation where
  entry : ℕ
  markBridgeRetry : Bool
  replay : Option Replay
deriving DecidableEq

/-- `ACK_TIMEOUT_RETRY_LIMIT` -/
def ackTimeoutRetryLimit : ℕ := 5

/-- `ACK_DEDUP_TTL_MS` -/
def ackDedupTtlMs : ℕ := 5 * 60000

/-- `INFLIGHT_GC_TTL_MS` -/
def inflightGcTtlMs : ℕ := 60000

structure Inflight where
  link : Link := {}
  /-- The commands by the numbers of their registrations. -/
  entries : ℕ → InflightCommand := fun _ => {}
  registered : ℕ := 0
  inflightCommands : OrderedMap String ℕ := .empty
  seenCommandAcks : OrderedMap String ℕ := .empty
  graceTimer : Bool := false
  ackHousekeepingTimer : Bool := false
  revalidations : List Revalidation := []
  /-- The commands at which a look threw, and how often each had been sent by then. -/
  thrown : List (ℕ × ℕ) := []
  /-- The daemon was kicked, and nothing has connected since. -/
  kicked : Bool := false
  /-- What was handed to the daemon's socket, or to the queue for it. -/
  sent : List (ℕ × Option ℕ) := []
  /-- What browsers were told with `command.failed`. -/
  failures : List (String × FailureReason) := []
  /-- How registrations ended. -/
  ended : List (ℕ × Ending) := []

inductive InflightEvent
  | link (event : LinkEvent)
  /-- `handleOutboundSessionSend` -/
  | send (commandId : String) (share : Bool) (now : ℕ)
  /-- A command of a share was looked at: it may go, or is refused. -/
  | revalidated (index : ℕ) (refusal : Option FailureReason)
  /-- The look at a command of a share threw. -/
  | revalidationThrew (index : ℕ)
  | graceExpired
  | ackTimeout (entry : ℕ)
  | ack (commandId : String) (now : ℕ)
  | echo (commandId : String)
  | sweep (now : ℕ)
deriving DecidableEq

namespace Inflight

variable (sha256Hex : String → String) (s : Inflight)

def setEntry (n : ℕ) (entry : InflightCommand) : Inflight :=
  { s with entries := Function.update s.entries n entry }

def removeInflight (commandId : String) (ending : Ending) : Inflight :=
  match s.inflightCommands.get? commandId with
  | none => s
  | some n =>
    { s.setEntry n { s.entries n with timeoutTimer := false } with
      inflightCommands := s.inflightCommands.delete commandId
      ended := s.ended ++ [(n, ending)] }

def emitCommandFailed (commandId : String) (reason : FailureReason) : Inflight :=
  { s with failures := s.failures ++ [(commandId, reason)] }

/-- `emitCommandFailed` and `removeInflight`, which go together. -/
def fail (commandId : String) (reason : FailureReason) : Inflight :=
  (s.emitCommandFailed commandId reason).removeInflight commandId (.failed reason)

/-- What `dispatchInflightToDaemon` does with a command that may go. -/
def dispatch (n : ℕ) (markBridgeRetry : Bool) : Inflight :=
  let entry := s.entries n
  let retryAttempt := if markBridgeRetry then some (entry.dispatchAttempts + 1) else none
  { s.setEntry n { entry with
      dispatchAttempts := entry.dispatchAttempts + 1, state := .dispatched, timeoutTimer := true } with
    sent := s.sent ++ [(n, retryAttempt)] }

def dispatchInflightToDaemon (n : ℕ) (markBridgeRetry : Bool) : Inflight :=
  if (s.entries n).share then
    { s with revalidations := s.revalidations ++ [{ entry := n, markBridgeRetry, replay := none }] }
  else s.dispatch n markBridgeRetry

/-- The loop of `replayInflightToDaemon`, up to the next command of a share; at its end the
handler goes on. -/
def replayFrom (handler : ℕ) : List ℕ → Inflight → Inflight
  | [], s =>
    { s with
      link := (s.link.step sha256Hex (.replayed handler)).1, ackHousekeepingTimer := true }
  | n :: rest, s =>
    let entry := s.entries n
    let markBridgeRetry : Bool := 0 < entry.dispatchAttempts
    if entry.state = .acked then replayFrom handler rest s
    else if entry.share then
      { s with
        revalidations := s.revalidations ++
          [{ entry := n, markBridgeRetry, replay := some { handler, rest } }] }
    else replayFrom handler rest (s.dispatch n markBridgeRetry)

def replayInflightToDaemon (handler : ℕ) : Inflight :=
  let ordered := s.inflightCommands.values.insertionSort fun n m =>
    (s.entries n).sentAt ≤ (s.entries m).sentAt
  replayFrom sha256Hex handler ordered s

/-- The commands take part in what happens to the connection. -/
def take : LinkAct → Inflight
  | .replays _ handler => { s with graceTimer := false }.replayInflightToDaemon sha256Hex handler
  | .disconnected => { s with graceTimer := true }

def register (commandId : String) (share : Bool) (state : InflightState) (now : ℕ) : Inflight :=
  { s.setEntry s.registered { commandId, share, state, sentAt := now } with
    inflightCommands := s.inflightCommands.set commandId s.registered
    registered := s.registered + 1 }

def startAckHousekeepingIfNeeded : Inflight := { s with ackHousekeepingTimer := true }

def handleOutboundSessionSend (commandId : String) (share : Bool) (now : ℕ) : Inflight :=
  if (s.inflightCommands.get? commandId).isSome then s
  else if s.link.isDaemonConnected then
    let s' := s.register commandId share .dispatched now
    (s'.dispatchInflightToDaemon s.registered false).startAckHousekeepingIfNeeded
  else if s.graceTimer || s.link.daemonHandshakeInProgress then
    (s.register commandId share .buffered now).startAckHousekeepingIfNeeded
  else s.emitCommandFailed commandId .daemonOffline

def onReconnectGraceExpired : Inflight :=
  if s.link.authenticated then s
  else s.inflightCommands.toList.foldl (fun s entry => s.fail entry.1 .daemonOffline) s

def onAckTimeout (commandId : String) : Inflight :=
  match s.inflightCommands.get? commandId with
  | none => s
  | some n =>
    let entry := s.entries n
    if entry.state = .acked then s
    else if s.link.isDaemonConnected ∧ entry.dispatchAttempts ≤ ackTimeoutRetryLimit then
      s.dispatchInflightToDaemon n true
    else if !s.link.isDaemonConnected && s.graceTimer then
      s.setEntry n { entry with state := .buffered, timeoutTimer := false }
    else s.fail commandId .ackTimeout

def clearInflightOnAck (commandId : String) : Inflight :=
  match s.inflightCommands.get? commandId with
  | none => s
  | some n =>
    (s.setEntry n { s.entries n with state := .acked }).removeInflight commandId .acked

/-- A `command.ack`; one that was seen, of a command that is not in flight, is dropped. -/
def handleCommandAck (commandId : String) (now : ℕ) : Inflight :=
  if (s.seenCommandAcks.get? commandId).isSome && (s.inflightCommands.get? commandId).isNone then s
  else
    { s with seenCommandAcks := s.seenCommandAcks.set commandId now }.clearInflightOnAck commandId

def sweepInflight (now : ℕ) (entry : String × ℕ) : Inflight :=
  if inflightGcTtlMs < now - (s.entries entry.2).sentAt then s.removeInflight entry.1 .swept else s

def ackHousekeepingSweep (now : ℕ) : Inflight :=
  let s := s.inflightCommands.toList.foldl (·.sweepInflight now ·) s
  let stale := s.seenCommandAcks.toList.filter fun seen => ackDedupTtlMs < now - seen.2
  let seenCommandAcks := stale.foldl (fun seen entry => seen.delete entry.1) s.seenCommandAcks
  let idle := s.inflightCommands.toList.isEmpty && seenCommandAcks.toList.isEmpty
  { s with seenCommandAcks, ackHousekeepingTimer := s.ackHousekeepingTimer && !idle }

/-- A command of a share was looked at; a replay goes on with what comes after it. -/
def revalidated (index : ℕ) (refusal : Option FailureReason) : Inflight :=
  match s.revalidations[index]? with
  | none => s
  | some r =>
    let s := { s with revalidations := s.revalidations.eraseIdx index }
    let s :=
      match refusal with
      | none => s.dispatch r.entry r.markBridgeRetry
      | some reason => s.fail (s.entries r.entry).commandId reason
    match r.replay with
    | none => s
    | some replay => s.replayFrom sha256Hex replay.handler replay.rest

/-- A replay catches what a look throws, and goes on with what comes after the command; elsewhere
nothing comes after it. -/
def revalidationThrew (index : ℕ) : Inflight :=
  match s.revalidations[index]? with
  | none => s
  | some r =>
    let s :=
      { s with
        revalidations := s.revalidations.eraseIdx index
        thrown := s.thrown ++ [(r.entry, (s.entries r.entry).dispatchAttempts)] }
    match r.replay with
    | none => s
    | some replay => s.replayFrom sha256Hex replay.handler replay.rest

/-- The connection changes; when a replay is over is a matter of the replay. -/
def stepLink (event : LinkEvent) : Inflight :=
  match event with
  | .replayed _ => s
  | event =>
    let (link, acts) := s.link.step sha256Hex event
    let kicked :=
      match event with
      | .kick => s.kicked || s.link.daemonWs.isSome
      | .connect => false
      | _ => s.kicked
    acts.foldl (take sha256Hex) { s with link, kicked }

/-- What happens between two waits. -/
def step : InflightEvent → Inflight
  | .link event => s.stepLink sha256Hex event
  | .send commandId share now => s.handleOutboundSessionSend commandId share now
  | .revalidated index refusal => s.revalidated sha256Hex index refusal
  | .revalidationThrew index => s.revalidationThrew sha256Hex index
  | .graceExpired =>
    if s.graceTimer then { s with graceTimer := false }.onReconnectGraceExpired else s
  | .ackTimeout n =>
    let entry := s.entries n
    if entry.timeoutTimer then
      (s.setEntry n { entry with timeoutTimer := false }).onAckTimeout entry.commandId
    else s
  | .ack commandId now => s.handleCommandAck commandId now
  | .echo commandId => s.removeInflight commandId .echoed
  | .sweep now => if s.ackHousekeepingTimer then s.ackHousekeepingSweep now else s

end Inflight

end Imcodes.Bridge
