import Imcodes.Bridge.Link
import Imcodes.Collections.OrderedMap

/-!
# Terminal subscriptions

Browsers subscribe to the terminals of sessions, and the bridge asks the daemon for a
session's terminal as long as anyone is subscribed to it.  A subscription waits for a check
of the session, and a later one of the same browser supersedes it.  What is sent to the
daemon about terminals is kept for each of its sockets.
-/

namespace Imcodes.Bridge

/-- The `raw` field of a message. -/
inductive RawField
  | absent
  | bool (raw : Bool)
  /-- Anything else. -/
  | other
deriving DecidableEq

/-- `typeof msg.raw === 'boolean' ? msg.raw : true` -/
def RawField.rawMode : RawField → Bool
  | .bool raw => raw
  | _ => true

/-- `cmd.raw === true`, the way the daemon reads it. -/
def RawField.isTrue : RawField → Bool
  | .bool raw => raw
  | _ => false

inductive TerminalMessage
  | subscribe (session : String) (raw : RawField)
  | unsubscribe (session : String)
deriving DecidableEq

/-- What the daemon streams of a session after the messages: nothing, or its terminal, raw
or not. -/
def streamed (session : String) (messages : List TerminalMessage) : Option Bool :=
  messages.foldl (fun mode message =>
    match message with
    | .subscribe s raw => if s = session then some raw.isTrue else mode
    | .unsubscribe s => if s = session then none else mode) none

structure SessionRefs where
  totalRefs : ℕ := 0
  rawRefs : ℕ := 0
deriving DecidableEq

/-- A subscription that waits for the check of its session. -/
structure OwnershipCheck where
  browser : ℕ
  session : String
  raw : RawField
  revision : ℕ
deriving DecidableEq

structure Terminals where
  link : Link := {}
  /-- The sockets of browsers that are live, with the modes of their subscriptions. -/
  browserSubscriptions : ℕ → Option (OrderedMap String Bool) := fun _ => none
  terminalSubscriptionRevisions : ℕ → String → ℕ := fun _ _ => 0
  daemonSessionRefs : OrderedMap String SessionRefs := .empty
  checks : ℕ → Option OwnershipCheck := fun _ => none
  /-- The numbers of the next browser and the next check. -/
  browsers : ℕ := 0
  started : ℕ := 0
  /-- What was sent about terminals, by socket of the daemon. -/
  sent : ℕ → List TerminalMessage := fun _ => []

inductive TerminalEvent
  | link (event : LinkEvent)
  /-- A browser connects. -/
  | opened
  | subscribe (browser : ℕ) (session : String) (raw : RawField)
  /-- The check of a session ends. -/
  | checked (check : ℕ) (allowed : Bool)
  | unsubscribe (browser : ℕ) (session : String)
  /-- A full queue could not be reset: the browser is gone. -/
  | overflowed (browser : ℕ) (session : String)
  | closed (browser : ℕ)
deriving DecidableEq

namespace Terminals

variable (sha256Hex : String → String) (t : Terminals)

def send (socket : ℕ) (message : TerminalMessage) : Terminals :=
  { t with sent := Function.update t.sent socket (t.sent socket ++ [message]) }

/-- What is queued for a daemon that is away is left out when the queue is replayed. -/
def sendToDaemon (message : TerminalMessage) : Terminals :=
  match t.link.daemonWs with
  | some socket => if t.link.authenticated then t.send socket message else t
  | none => t

def bumpTerminalSubscriptionRevision (browser : ℕ) (session : String) : Terminals :=
  { t with
    terminalSubscriptionRevisions := Function.update t.terminalSubscriptionRevisions browser
      (Function.update (t.terminalSubscriptionRevisions browser) session
        (t.terminalSubscriptionRevisions browser session + 1)) }

def isCurrentTerminalSubscriptionRevision (browser : ℕ) (session : String) (revision : ℕ) : Bool :=
  t.terminalSubscriptionRevisions browser session = revision

/-- The references of a session, if it has any. -/
def refs (session : String) : SessionRefs := (t.daemonSessionRefs.get? session).getD {}

def setMode (browser : ℕ) (subs : OrderedMap String Bool) : Terminals :=
  { t with browserSubscriptions := Function.update t.browserSubscriptions browser (some subs) }

def setRefs (session : String) (refs : SessionRefs) : Terminals :=
  { t with daemonSessionRefs := t.daemonSessionRefs.set session refs }

def deleteRefs (session : String) : Terminals :=
  { t with daemonSessionRefs := t.daemonSessionRefs.delete session }

def addBrowserSessionSubscription (browser : ℕ) (session : String) (rawMsg : RawField)
    (revision : ℕ) : Terminals :=
  let raw := rawMsg.rawMode
  if t.isCurrentTerminalSubscriptionRevision browser session revision = false then t
  else
    match t.browserSubscriptions browser with
    | none => t
    | some subs =>
        let existing := subs.get? session
        if existing = some raw then t
        else
          let refs := t.refs session
          let effectiveRawBefore : Bool := 0 < refs.rawRefs
          let t := t.setMode browser (subs.set session raw)
          match existing with
          | none =>
              let refs : SessionRefs :=
                { totalRefs := refs.totalRefs + 1
                  rawRefs := if raw then refs.rawRefs + 1 else refs.rawRefs }
              let t := t.setRefs session refs
              if refs.totalRefs = 1 then t.sendToDaemon (.subscribe session rawMsg)
              else if effectiveRawBefore ≠ decide (0 < refs.rawRefs) then
                t.sendToDaemon (.subscribe session (.bool (0 < refs.rawRefs)))
              else t
          | some existing =>
              let rawRefs := if existing then refs.rawRefs - 1 else refs.rawRefs
              let rawRefs := if raw then rawRefs + 1 else rawRefs
              let t := t.setRefs session { refs with rawRefs }
              if effectiveRawBefore ≠ decide (0 < rawRefs) then
                t.sendToDaemon (.subscribe session (.bool (0 < rawRefs)))
              else t

def removeBrowserSessionSubscription (browser : ℕ) (session : String) : Terminals :=
  let t := t.bumpTerminalSubscriptionRevision browser session
  match t.browserSubscriptions browser with
  | none => t
  | some subs =>
      match subs.get? session with
      | none => t
      | some wasRaw =>
          let t := t.setMode browser (subs.delete session)
          match t.daemonSessionRefs.get? session with
          | none => t
          | some refs =>
              let refs : SessionRefs :=
                { totalRefs := refs.totalRefs - 1
                  rawRefs := if wasRaw then refs.rawRefs - 1 else refs.rawRefs }
              if refs.totalRefs = 0 then
                (t.deleteRefs session).sendToDaemon (.unsubscribe session)
              else
                let t := t.setRefs session refs
                if wasRaw ∧ refs.rawRefs = 0 then
                  t.sendToDaemon (.subscribe session (.bool false))
                else t

def cleanupBrowserSocket (browser : ℕ) : Terminals :=
  let sessions := (t.browserSubscriptions browser).elim [] (·.toList.map Prod.fst)
  let t := sessions.foldl (·.removeBrowserSessionSubscription browser ·) t
  { t with
    browserSubscriptions := Function.update t.browserSubscriptions browser none
    terminalSubscriptionRevisions :=
      Function.update t.terminalSubscriptionRevisions browser fun _ => 0 }

/-- A daemon that is back is asked for a session, if it is subscribed to. -/
def replaySubscription (socket : ℕ) (entry : String × SessionRefs) : Terminals :=
  if 0 < entry.2.totalRefs then
    t.send socket (.subscribe entry.1 (.bool (0 < entry.2.rawRefs)))
  else t

def replaySubscriptions (socket : ℕ) : Terminals :=
  t.daemonSessionRefs.toList.foldl (·.replaySubscription socket ·) t

/-- The subscriptions take part in what happens to the connection. -/
def take : LinkAct → Terminals
  | .replays socket _ => t.replaySubscriptions socket
  | .disconnected => t

def step : TerminalEvent → Terminals
  | .link event =>
      let (link, acts) := t.link.step sha256Hex event
      acts.foldl take { t with link }
  | .opened =>
      { t with
        browserSubscriptions := Function.update t.browserSubscriptions t.browsers (some .empty)
        browsers := t.browsers + 1 }
  | .subscribe browser session raw =>
      if browser < t.browsers then
        let t := t.bumpTerminalSubscriptionRevision browser session
        let revision := t.terminalSubscriptionRevisions browser session
        { t with
          checks := Function.update t.checks t.started (some { browser, session, raw, revision })
          started := t.started + 1 }
      else t
  | .checked n allowed =>
      match t.checks n with
      | none => t
      | some check =>
          let t := { t with checks := Function.update t.checks n none }
          if allowed then
            t.addBrowserSessionSubscription check.browser check.session check.raw check.revision
          else t
  | .unsubscribe browser session => t.removeBrowserSessionSubscription browser session
  | .overflowed browser session => t.removeBrowserSessionSubscription browser session
  | .closed browser => t.cleanupBrowserSocket browser

def run (events : List TerminalEvent) : Terminals :=
  Machine.run (Terminals.step sha256Hex) events {}

end Terminals

end Imcodes.Bridge
