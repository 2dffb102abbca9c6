import Imcodes.Share.Target

/-!
# What a share sees of the daemon

A message of the daemon goes to a browser that came in through a share when the target that
the policy for its type finds in it is covered.  A target of the whole server passes.

* `sessionFieldTarget` and its like — where the types have their target.
* `filterShareDaemonMessage` — the message as such a browser gets it, or nothing.
* `isSome_filterShareDaemonMessage` — when it gets something.
-/

namespace Imcodes.Share

open Queue (jsTrim)

/-! ## The target of a message -/

/-- The target of a session; an empty name has none. -/
def namedTarget (sessionName : String) : Option ShareTarget :=
  if sessionName = "" then none else some (sessionNameToShareTarget "" sessionName)

/-- `msg[outer] && typeof msg[outer] === 'object' ? msg[outer].key : ''`, a string -/
def nestedText (msg : Fields) (outer key : String) : String :=
  ((msg.record? outer).map (·.text key)).getD ""

def serverFieldTarget (msg : Fields) : Option ShareTarget := some (.server (msg.text "serverId"))

def sessionFieldTarget (msg : Fields) : Option ShareTarget := namedTarget (msg.text "session")

def sessionNameFieldTarget (msg : Fields) : Option ShareTarget :=
  namedTarget (msg.text "sessionName")

def sessionIdFieldTarget (msg : Fields) : Option ShareTarget := namedTarget (msg.text "sessionId")

def terminalUpdateTarget (msg : Fields) : Option ShareTarget :=
  namedTarget (nestedText msg "diff" "sessionName")

def terminalDiffTarget (msg : Fields) : Option ShareTarget :=
  terminalUpdateTarget (msg.put "type" (.string "terminal_update"))

def timelineEventTarget (msg : Fields) : Option ShareTarget :=
  namedTarget (nestedText msg "event" "sessionId")

/-- `normalizeShareTarget(scope?.target)`, for a field with such a scope -/
def scopeTarget (fields : Option Fields) (key : String) : Option ShareTarget :=
  normalizeShareTarget ((fields.bind (·.record? key)).bind (·.read "target"))

/-- `normalizeShareTarget(actor?.snapshot?.target)` -/
def actorTarget (fields : Option Fields) : Option ShareTarget :=
  scopeTarget (fields.bind (·.record? "sharedActor")) "snapshot"

def sharedActorTarget (msg : Fields) : Option ShareTarget :=
  (scopeTarget (some msg) "shareScope").or (actorTarget (some msg))

/-- `value ?? undefined`: `null` counts as missing. -/
def notNull : Option Json → Option Json
  | some .null => none
  | value => value

/-- `normalizeShareTarget(run?.share_target_snapshot ?? run?.shareTargetSnapshot)` -/
def runTarget (run : Option Fields) : Option ShareTarget :=
  normalizeShareTarget ((notNull (run.bind (·.read "share_target_snapshot"))).or
    (run.bind (·.read "shareTargetSnapshot")))

def p2pRunScopedTarget (msg : Fields) : Option ShareTarget :=
  let run := msg.record? "run"
  (scopeTarget (some msg) "shareScope").or <|
    (scopeTarget run "shareScope").or <|
      (runTarget run).or <| (actorTarget run).or (sharedActorTarget msg)

def p2pRunStartedTarget (msg : Fields) : Option ShareTarget :=
  if msg.text "session" ≠ "" then namedTarget (msg.text "session") else p2pRunScopedTarget msg

/-- `typeof msg.sessionName === 'string' ? msg.sessionName : (id ? 'deck_sub_' + id : '')` -/
def subsessionName (msg : Fields) : String :=
  (msg.string? "sessionName").getD
    (if msg.text "id" = "" then "" else subSessionPrefix ++ msg.text "id")

def subsessionCreatedTarget (msg : Fields) : Option ShareTarget :=
  let parentSession := jsTrim (msg.text "parentSession")
  if parentSession ≠ "" then some (.main "" parentSession) else namedTarget (subsessionName msg)

def subsessionRemovedTarget (msg : Fields) : Option ShareTarget := subsessionCreatedTarget msg

/-! ## What is taken out of a message -/

/-- The entry of a list of sessions is of a session that is covered. -/
def ListsCovered (state : ShareScopedSocketState) (item : Json) : Bool :=
  match item.record?.bind (·.string? "name") with
  | some name => state.coversSession name
  | none => false

def redactSessionList (msg : Fields) (state : ShareScopedSocketState) : Option Fields :=
  if state.target.isServer then some msg
  else some (msg.put "sessions" (.array ((msg.items "sessions").filter (ListsCovered state))))

def redactTransportHistory (msg : Fields) (_state : ShareScopedSocketState) : Option Fields :=
  some msg

def redactActiveDispatchForViewers (msg : Fields) (state : ShareScopedSocketState) :
    Option Fields :=
  if state.snapshot.effectiveRole = .participant then some msg
  else some (((msg.remove "activeDispatchId").remove "runningTurnId").remove "dispatchId")

/-! ## Policies -/

/-- `DaemonMessagePolicy` -/
structure DaemonMessagePolicy where
  target : Fields → Option ShareTarget
  redact : Fields → ShareScopedSocketState → Option Fields := fun msg _ => some msg

/-- `SHARE_SCOPED_DAEMON_MESSAGE_POLICY` -/
def shareScopedDaemonMessagePolicy : List (String × DaemonMessagePolicy) :=
  [("terminal.diff", { target := terminalDiffTarget }),
    ("terminal_update", { target := terminalUpdateTarget }),
    ("terminal.stream_reset", { target := sessionFieldTarget }),
    ("session.event", { target := sessionFieldTarget }),
    ("session_event", { target := sessionFieldTarget }),
    ("session.idle", { target := sessionFieldTarget }),
    ("session.notification", { target := sessionFieldTarget }),
    ("session.tool", { target := sessionFieldTarget }),
    ("command.ack", { target := sessionFieldTarget }),
    ("command.failed", { target := sessionFieldTarget }),
    ("subsession.response", { target := sessionNameFieldTarget }),
    ("subsession.created", { target := subsessionCreatedTarget }),
    ("subsession.removed", { target := subsessionRemovedTarget }),
    ("timeline.event", { target := timelineEventTarget }),
    ("chat.history", { target := sessionIdFieldTarget, redact := redactTransportHistory }),
    ("chat.delta", { target := sessionIdFieldTarget }),
    ("chat.complete", { target := sessionIdFieldTarget }),
    ("chat.error", { target := sessionIdFieldTarget }),
    ("chat.status", { target := sessionIdFieldTarget, redact := redactActiveDispatchForViewers }),
    ("chat.tool", { target := sessionIdFieldTarget }),
    ("chat.approval", { target := sessionIdFieldTarget }),
    ("discussion.started", { target := sharedActorTarget }),
    ("discussion.update", { target := sharedActorTarget }),
    ("discussion.done", { target := sharedActorTarget }),
    ("discussion.error", { target := sharedActorTarget }),
    ("discussion.list", { target := sharedActorTarget }),
    ("p2p.run_started", { target := p2pRunStartedTarget }),
    ("p2p.run_update", { target := p2pRunScopedTarget }),
    ("p2p.run_complete", { target := p2pRunScopedTarget }),
    ("p2p.run_error", { target := p2pRunScopedTarget }),
    ("session_list", { target := serverFieldTarget, redact := redactSessionList })]

/-- `(!target.serverId || target.serverId === state.target.serverId) && (target.kind ===
'server' || shareStateCoversSession(state, sessionNameFromTarget(target)))` -/
def Passes (state : ShareScopedSocketState) (target : ShareTarget) : Bool :=
  (target.serverId = "" || target.serverId = state.target.serverId) &&
    (target.isServer || state.coversSession (sessionNameFromTarget target))

/-- `filterShareDaemonMessage` -/
def filterShareDaemonMessage (msg : Fields) (state : ShareScopedSocketState) : Option Fields := do
  let policy ← shareScopedDaemonMessagePolicy.lookup (msg.text "type")
  let target ← policy.target msg
  if Passes state target then policy.redact msg state else none

end Imcodes.Share
