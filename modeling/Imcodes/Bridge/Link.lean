import Imcodes.Machine.Runs
import Imcodes.Queue.Types
import Mathlib.Logic.Function.Basic

/-!
# The daemon's connection

The bridge has one socket for its daemon, and whether the daemon is authenticated.  The
handler of the daemon's messages suspends: while another one authenticates, while it looks
the token up, while it reads what is sent to a daemon that has just been authenticated, and
while commands are replayed.  Sockets, handlers and promises are known by number.

Which sockets have presented a valid token, and which messages went past the check, is
recorded.
-/

namespace Imcodes.Bridge

open Imcodes.Queue (jsTrim)

/-- What a daemon sends: an `auth` with a token and a server id, or anything else. -/
inductive DaemonMessage
  | auth (token : String)
  | other (n : ℕ)
deriving DecidableEq

/-- The row of the server that the token is looked up in. -/
structure ServerRow where
  tokenHash : String
  userId : Option String := none
deriving DecidableEq

/-- How a lookup ends. -/
inductive Lookup
  | throws
  | found (server : Option ServerRow)
deriving DecidableEq

/-- Where a handler is suspended; the promise is the one it waits for or will resolve. -/
inductive Phase
  /-- `await this.authPromise` -/
  | waiting (promise : ℕ)
  /-- `await db.queryOne(…)` -/
  | lookup (promise : ℕ)
  /-- `await this.readUserMemoryFeatureFlags(…)` -/
  | flags (promise : ℕ)
  /-- `await this.replayInflightToDaemon()` -/
  | replaying (promise : ℕ)
deriving DecidableEq

structure Handler where
  socket : ℕ
  message : DaemonMessage
  phase : Phase
deriving DecidableEq

/-- A message that went past the check. -/
structure Processed where
  socket : ℕ
  message : DaemonMessage
  /-- The socket was the daemon's. -/
  isCurrent : Bool
  /-- It had presented a valid token. -/
  isAuthentic : Bool
deriving DecidableEq

/-- What happens to the connection, as far as the rest of the bridge takes part in it. -/
inductive LinkAct
  /-- The handler sends the daemon what it missed, on its own socket. -/
  | replays (socket handler : ℕ)
  /-- The daemon's socket was closed. -/
  | disconnected
deriving DecidableEq

structure Link where
  daemonWs : Option ℕ := none
  authenticated : Bool := false
  authPromise : Option ℕ := none
  resolved : List ℕ := []
  handlers : ℕ → Option Handler := fun _ => none
  /-- The numbers of the next socket, the next handler and the next promise. -/
  sockets : ℕ := 0
  started : ℕ := 0
  promises : ℕ := 0
  closed : List ℕ := []
  /-- The sockets that have presented a valid token. -/
  authentic : List ℕ := []
  processed : List Processed := []

inductive LinkEvent
  | connect
  | message (socket : ℕ) (message : DaemonMessage)
  /-- A handler goes on whose promise was resolved. -/
  | resumed (handler : ℕ)
  | lookedUp (handler : ℕ) (lookup : Lookup)
  | flagsRead (handler : ℕ)
  | replayed (handler : ℕ)
  | closed (socket : ℕ)
  /-- `kickDaemon` -/
  | kick
deriving DecidableEq

namespace Link

variable (sha256Hex : String → String) (link : Link)

def isDaemonConnected : Bool := link.daemonWs.isSome && link.authenticated

/-- `!!this.daemonWs && !this.authenticated` -/
def daemonHandshakeInProgress : Bool := link.daemonWs.isSome && !link.authenticated

/-- A handler suspends for the first time. -/
def suspend (socket : ℕ) (message : DaemonMessage) (phase : Phase) : Link :=
  { link with
    handlers := Function.update link.handlers link.started (some { socket, message, phase })
    started := link.started + 1 }

/-- A suspended handler suspends again, or ends. -/
def continueWith (handler : ℕ) (next : Option Handler) : Link :=
  { link with handlers := Function.update link.handlers handler next }

theorem continueWith_handlers (handler n : ℕ) (next : Option Handler) :
    (link.continueWith handler next).handlers n =
      if n = handler then next else link.handlers n :=
  Function.update_apply _ _ _ _

/-- `resolveAuth(); this.authPromise = null` -/
def resolveAuth (promise : ℕ) : Link :=
  { link with resolved := promise :: link.resolved, authPromise := none }

/-- A message past the check. -/
def process (socket : ℕ) (message : DaemonMessage) : Link :=
  { link with
    processed := link.processed ++ [{
      socket, message
      isCurrent := link.daemonWs = some socket
      isAuthentic := socket ∈ link.authentic }] }

/-- The handler from the check on.  A message that does not authenticate has the socket
closed, of which nothing is seen until it is. -/
def check (socket : ℕ) (message : DaemonMessage) : Link :=
  if link.authenticated then link.process socket message
  else
    match message with
    | .other _ => link
    | .auth _ =>
        let link := { link with
          authPromise := some link.promises, promises := link.promises + 1 }
        link.suspend socket message (.lookup (link.promises - 1))

def handleMessage (socket : ℕ) (message : DaemonMessage) : Link :=
  match link.authPromise with
  | some promise => link.suspend socket message (.waiting promise)
  | none => link.check socket message

/-- What a handler sends and replays once its socket is authenticated. -/
def replay (handler : ℕ) (call : Handler) (promise : ℕ) : Link × List LinkAct :=
  (link.continueWith handler (some { call with phase := .replaying promise }),
    [.replays call.socket handler])

/-- The token was looked up. -/
def lookedUp (handler : ℕ) (call : Handler) (promise : ℕ) (lookup : Lookup) :
    Link × List LinkAct :=
  let refused := ((link.continueWith handler none).resolveAuth promise, [])
  match lookup, call.message with
  | .found (some server), .auth token =>
      if server.tokenHash ≠ sha256Hex token then refused
      else
        let link := { link with
          authenticated := true, authentic := call.socket :: link.authentic }
        if server.userId.any (jsTrim · ≠ "") then
          (link.continueWith handler (some { call with phase := .flags promise }), [])
        else link.replay handler call promise
  | _, _ => refused

/-- A suspended handler goes on, if what it waits for is there. -/
def resume (handler : ℕ) (call : Handler) : LinkEvent → Link × List LinkAct
  | .resumed _ =>
      match call.phase with
      | .waiting promise =>
          if promise ∈ link.resolved then
            let link := link.continueWith handler none
            if link.daemonWs ≠ some call.socket then (link, [])
            else (link.check call.socket call.message, [])
          else (link, [])
      | _ => (link, [])
  | .lookedUp _ lookup =>
      match call.phase with
      | .lookup promise => link.lookedUp sha256Hex handler call promise lookup
      | _ => (link, [])
  | .flagsRead _ =>
      match call.phase with
      | .flags promise => link.replay handler call promise
      | _ => (link, [])
  | .replayed _ =>
      match call.phase with
      | .replaying promise => ((link.continueWith handler none).resolveAuth promise, [])
      | _ => (link, [])
  | _ => (link, [])

/-- A socket was closed. -/
def close (socket : ℕ) : Link × List LinkAct :=
  let link := { link with closed := socket :: link.closed }
  if link.daemonWs = some socket then
    ({ link with daemonWs := none, authenticated := false, authPromise := none }, [.disconnected])
  else (link, [])

def kickDaemon : Link :=
  if link.daemonWs.isSome then
    { link with daemonWs := none, authenticated := false, authPromise := none }
  else link

/-- A socket that is there and was not closed yet. -/
def isOpen (socket : ℕ) : Bool := socket < link.sockets && socket ∉ link.closed

def step : LinkEvent → Link × List LinkAct
  | .connect =>
      ({ link with
        daemonWs := some link.sockets
        sockets := link.sockets + 1
        authenticated := false
        authPromise := none }, [])
  | .message socket message =>
      if link.isOpen socket then (link.handleMessage socket message, []) else (link, [])
  | .closed socket => if link.isOpen socket then link.close socket else (link, [])
  | .kick => (link.kickDaemon, [])
  | .resumed handler =>
      match link.handlers handler with
      | some call => link.resume sha256Hex handler call (.resumed handler)
      | none => (link, [])
  | .lookedUp handler lookup =>
      match link.handlers handler with
      | some call => link.resume sha256Hex handler call (.lookedUp handler lookup)
      | none => (link, [])
  | .flagsRead handler =>
      match link.handlers handler with
      | some call => link.resume sha256Hex handler call (.flagsRead handler)
      | none => (link, [])
  | .replayed handler =>
      match link.handlers handler with
      | some call => link.resume sha256Hex handler call (.replayed handler)
      | none => (link, [])

end Link

/-! ## What a step does -/

/-- The daemon's socket, and whether it is authenticated, are what they were. -/
structure Link.SameDaemon (link link' : Link) : Prop where
  daemonWs : link'.daemonWs = link.daemonWs
  authenticated : link'.authenticated = link.authenticated
  sockets : link'.sockets = link.sockets

/-- What an event can do to the daemon's connection. -/
inductive Link.Change (sha256Hex : String → String) (link : Link) :
    LinkEvent → Link → List LinkAct → Prop
  | quiet {event link'} (same : link.SameDaemon link') : Change sha256Hex link event link' []
  | connected {link'} (daemonWs : link'.daemonWs = some link.sockets)
      (authenticated : link'.authenticated = false) (sockets : link'.sockets = link.sockets + 1) :
      Change sha256Hex link .connect link' []
  | disconnected {socket link'} (current : link.daemonWs = some socket)
      (daemonWs : link'.daemonWs = none)
      (authenticated : link'.authenticated = false) (sockets : link'.sockets = link.sockets) :
      Change sha256Hex link (.closed socket) link' [.disconnected]
  | kicked {link'} (daemonWs : link'.daemonWs = none)
      (authenticated : link'.authenticated = false) (sockets : link'.sockets = link.sockets) :
      Change sha256Hex link .kick link' []
  | replays {handler call promise link'} (found : link.handlers handler = some call)
      (phase : call.phase = .flags promise) (same : link.SameDaemon link') :
      Change sha256Hex link (.flagsRead handler) link' [.replays call.socket handler]
  | authenticates {handler call promise token server link' acts}
      (found : link.handlers handler = some call) (phase : call.phase = .lookup promise)
      (message : call.message = .auth token) (valid : server.tokenHash = sha256Hex token)
      (daemonWs : link'.daemonWs = link.daemonWs) (authenticated : link'.authenticated = true)
      (sockets : link'.sockets = link.sockets)
      (acts_eq : acts =
        if server.userId.any (jsTrim · ≠ "") then [] else [.replays call.socket handler]) :
      Change sha256Hex link (.lookedUp handler (.found (some server))) link' acts

namespace Link

variable {link : Link} {sha256Hex : String → String}

theorem SameDaemon.check {link' : Link} (h : link.SameDaemon link') (socket : ℕ)
    (message : DaemonMessage) : link.SameDaemon (link'.check socket message) := by
  rw [Link.check.eq_def]
  split
  · exact ⟨h.daemonWs, h.authenticated, h.sockets⟩
  · cases message with
    | other n => exact h
    | auth token => exact ⟨h.daemonWs, h.authenticated, h.sockets⟩

theorem SameDaemon.refl (link : Link) : link.SameDaemon link := ⟨rfl, rfl, rfl⟩

/-- **The step inverted.** -/
theorem change_step (sha256Hex : String → String) (link : Link) (event : LinkEvent) :
    Change sha256Hex link event (link.step sha256Hex event).1 (link.step sha256Hex event).2 := by
  have hquiet : Change sha256Hex link event link [] := .quiet (.refl link)
  cases event with
  | connect => exact .connected rfl rfl rfl
  | message socket message =>
    rw [step]
    split
    · rw [handleMessage]
      split
      · exact .quiet ⟨rfl, rfl, rfl⟩
      · exact .quiet ((SameDaemon.refl link).check socket message)
    · exact hquiet
  | closed socket =>
    rw [step]
    split
    · rw [close]
      dsimp only
      split
      · rename_i hcurrent
        exact .disconnected hcurrent rfl rfl rfl
      · exact .quiet ⟨rfl, rfl, rfl⟩
    · exact hquiet
  | kick =>
    rw [step, kickDaemon]
    split
    · exact .kicked rfl rfl rfl
    · exact hquiet
  | resumed n =>
    rw [step]
    split
    · rw [resume]
      split
      · split
        · dsimp only
          split
          · exact .quiet ⟨rfl, rfl, rfl⟩
          · have hsame : link.SameDaemon (link.continueWith n none) := ⟨rfl, rfl, rfl⟩
            exact .quiet (hsame.check _ _)
        · exact hquiet
      · exact hquiet
    · exact hquiet
  | lookedUp n lookup =>
    rw [step]
    split
    · rename_i call hcall
      rw [resume]
      split
      · rename_i promise hphase
        rw [Link.lookedUp.eq_def]
        dsimp only
        split
        · rename_i server token hmessage
          split
          · exact .quiet ⟨rfl, rfl, rfl⟩
          · rename_i hvalid
            split
            · rename_i huser
              exact .authenticates hcall hphase hmessage (not_not.1 hvalid) rfl rfl rfl
                (if_pos huser).symm
            · rename_i huser
              exact .authenticates hcall hphase hmessage (not_not.1 hvalid) rfl rfl rfl
                (if_neg huser).symm
        · exact .quiet ⟨rfl, rfl, rfl⟩
      · exact hquiet
    · exact hquiet
  | flagsRead n =>
    rw [step]
    split
    · rename_i call hcall
      rw [resume]
      split
      · rename_i promise hphase
        exact .replays hcall hphase ⟨rfl, rfl, rfl⟩
      · exact hquiet
    · exact hquiet
  | replayed n =>
    rw [step]
    split
    · rw [resume]
      split
      · exact .quiet ⟨rfl, rfl, rfl⟩
      · exact hquiet
    · exact hquiet

/-- A lookup that finds the token. -/
theorem step_lookedUp {handler promise : ℕ} {call : Handler} {token : String} {server : ServerRow}
    (found : link.handlers handler = some call) (phase : call.phase = .lookup promise)
    (message : call.message = .auth token) (valid : server.tokenHash = sha256Hex token) :
    link.step sha256Hex (.lookedUp handler (.found (some server))) =
      let link := { link with
        authenticated := true, authentic := call.socket :: link.authentic }
      if server.userId.any (jsTrim · ≠ "") then
        (link.continueWith handler (some { call with phase := .flags promise }), [])
      else link.replay handler call promise := by
  rw [step, found]
  dsimp only
  rw [resume, phase]
  dsimp only
  rw [Link.lookedUp.eq_def, message]
  dsimp only
  rw [if_neg (not_not.2 valid)]

end Link

/-! ## What holds of the connection -/

/-- Sockets are known, and a handler that is past its lookup is one of an authenticated
daemon, unless its socket is not the daemon's any more. -/
structure Link.Sound (link : Link) : Prop where
  known : ∀ socket, link.daemonWs = some socket → socket < link.sockets
  handled : ∀ handler call, link.handlers handler = some call → call.socket < link.sockets
  past : ∀ handler call promise, link.handlers handler = some call →
    call.phase = .flags promise → link.daemonWs = some call.socket → link.authenticated = true

namespace Link.Sound

variable {link : Link} {sha256Hex : String → String}

theorem continueWith (h : link.Sound) (handler : ℕ) (next : Option Handler)
    (hsocket : ∀ call, next = some call → call.socket < link.sockets)
    (hpast : ∀ call promise, next = some call → call.phase = .flags promise →
      link.daemonWs = some call.socket → link.authenticated = true) :
    (link.continueWith handler next).Sound := by
  refine ⟨h.known, fun n call hcall => ?_, fun n call promise hcall => ?_⟩
  · rw [continueWith_handlers] at hcall
    split at hcall
    · exact hsocket call hcall
    · exact h.handled n call hcall
  · rw [continueWith_handlers] at hcall
    split at hcall
    · exact hpast call promise hcall
    · exact h.past n call promise hcall

/-- A handler ends. -/
theorem finish (h : link.Sound) (handler : ℕ) : (link.continueWith handler none).Sound :=
  h.continueWith handler none nofun nofun

theorem resolveAuth (h : link.Sound) (promise : ℕ) : (link.resolveAuth promise).Sound :=
  ⟨h.known, h.handled, h.past⟩

/-- A handler starts that is not past its lookup. -/
theorem suspend (h : link.Sound) {socket : ℕ} (hsocket : socket < link.sockets)
    {message : DaemonMessage} {phase : Phase} (hphase : ∀ promise, phase ≠ .flags promise) :
    (link.suspend socket message phase).Sound := by
  have hnext := h.continueWith link.started (some { socket, message, phase })
    (fun call hcall => by cases hcall; exact hsocket)
    fun call promise hcall hflags => by cases hcall; exact absurd hflags (hphase promise)
  exact ⟨hnext.known, hnext.handled, hnext.past⟩

theorem check (h : link.Sound) {socket : ℕ} (hsocket : socket < link.sockets)
    (message : DaemonMessage) : (link.check socket message).Sound := by
  rw [Link.check.eq_def]
  split
  · exact ⟨h.known, h.handled, h.past⟩
  · cases message with
    | other n => exact h
    | auth token =>
      have hpromise : Sound { link with
          authPromise := some link.promises, promises := link.promises + 1 } :=
        ⟨h.known, h.handled, h.past⟩
      exact hpromise.suspend hsocket nofun

theorem replay (h : link.Sound) {handler : ℕ} {call : Handler} {promise : ℕ}
    (hcall : call.socket < link.sockets) : (link.replay handler call promise).1.Sound :=
  h.continueWith handler _ (fun _ heq => by cases heq; exact hcall) fun _ _ heq hflags => by
    cases heq
    cases hflags

theorem lookedUp (h : link.Sound) {handler : ℕ} {call : Handler} {promise : ℕ}
    {lookup : Lookup} (hcall : call.socket < link.sockets) :
    (link.lookedUp sha256Hex handler call promise lookup).1.Sound := by
  rw [Link.lookedUp.eq_def]
  dsimp only
  split
  · split
    · exact (h.finish handler).resolveAuth promise
    · have hvalid : Sound { link with
          authenticated := true, authentic := call.socket :: link.authentic } :=
        ⟨h.known, h.handled, fun _ _ _ _ _ _ => rfl⟩
      split
      · exact hvalid.continueWith handler _ (fun _ heq => by cases heq; exact hcall) fun _ _ _ _ _ => rfl
      · exact hvalid.replay hcall
  · exact (h.finish handler).resolveAuth promise

theorem resume (h : link.Sound) {handler : ℕ} {call : Handler} {event : LinkEvent}
    (hcall : call.socket < link.sockets) :
    (link.resume sha256Hex handler call event).1.Sound := by
  rw [Link.resume.eq_def]
  split
  · split
    · split
      · dsimp only
        split
        · exact h.finish handler
        · exact (h.finish handler).check hcall _
      · exact h
    · exact h
  · split
    · exact h.lookedUp hcall
    · exact h
  · split
    · exact h.replay hcall
    · exact h
  · split
    · exact (h.finish handler).resolveAuth _
    · exact h
  · exact h

/-- Every step keeps it. -/
theorem step (h : link.Sound) (event : LinkEvent) : (link.step sha256Hex event).1.Sound := by
  cases event with
  | connect =>
    refine ⟨fun socket hsocket => ?_, fun n call hcall => ?_, fun n call promise hcall _ hws => ?_⟩
    · exact Option.some.inj hsocket ▸ Nat.lt_succ_self _
    · exact Nat.lt_succ_of_lt (h.handled n call hcall)
    · have hlt := h.handled n call hcall
      rw [← Option.some.inj hws] at hlt
      exact absurd hlt (Nat.lt_irrefl _)
  | message socket message =>
    rw [Link.step]
    split
    · rename_i hopen
      have hsocket : socket < link.sockets := by
        rw [isOpen, Bool.and_eq_true, decide_eq_true_eq] at hopen
        exact hopen.1
      rw [handleMessage]
      split
      · exact h.suspend hsocket nofun
      · exact h.check hsocket message
    · exact h
  | closed socket =>
    rw [Link.step]
    split
    · rw [close]
      dsimp only
      split
      · exact ⟨nofun, h.handled, fun _ _ _ _ _ => nofun⟩
      · exact ⟨h.known, h.handled, h.past⟩
    · exact h
  | kick =>
    rw [Link.step, kickDaemon]
    split
    · exact ⟨nofun, h.handled, fun _ _ _ _ _ => nofun⟩
    · exact h
  | resumed n =>
    rw [Link.step]
    split
    · rename_i call hcall
      exact h.resume (h.handled n call hcall)
    · exact h
  | lookedUp n lookup =>
    rw [Link.step]
    split
    · rename_i call hcall
      exact h.resume (h.handled n call hcall)
    · exact h
  | flagsRead n =>
    rw [Link.step]
    split
    · rename_i call hcall
      exact h.resume (h.handled n call hcall)
    · exact h
  | replayed n =>
    rw [Link.step]
    split
    · rename_i call hcall
      exact h.resume (h.handled n call hcall)
    · exact h

theorem start : Sound {} := ⟨nofun, nofun, nofun⟩

end Link.Sound

/-- The connection alone, over a run. -/
def Link.run (sha256Hex : String → String) (events : List LinkEvent) : Link :=
  Machine.run (fun link event => (link.step sha256Hex event).1) events {}

end Imcodes.Bridge
