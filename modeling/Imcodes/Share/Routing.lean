import Imcodes.Graphs.Depths
import Imcodes.Share.Command
import Imcodes.Share.Tokens

/-!
# Where the daemon sends a text

`handleSend` finds out by itself whom a `session.send` is for: from a target of a delegation,
from explicit targets, from a P2P mode that asks for everyone who is configured, from the tokens
in the text, or for the session alone.  The configuration that it goes by is the one saved with
the daemon; the one in the message counts only when there is none.  A run with targets starts only
in one domain, that of the main session at the end of the parents.

* `ExplicitTargets` — the targets that the message lists.
* `Daemon.expandP2pTargets` — everyone in the session's domain who is configured.
* `Daemon.extractMainSession` — the domain of a session; the fuel is enough when the parents end
  (`isSome_extractMainSession`).
* `Daemon.handleSend` — the sessions to which the text is handed.
-/

namespace Imcodes.Share

open Queue (jsTrim isJsSpace)

/-! ## The store -/

/-- A session in the daemon's store. -/
structure SessionRecord where
  name : String
  agentType : Option String
  role : Option String
  /-- `session.state === 'stopped'` -/
  isStopped : Bool
  parentSession : Option String
  projectName : Option String

/-- `P2pSessionConfig` -/
abbrev P2pSessionConfig := List (String × Json)

/-- What a send depends on in the daemon. -/
structure Daemon where
  sessions : List SessionRecord
  /-- The configuration that is saved for a main session, under either key. -/
  savedConfig : String → Option P2pSessionConfig
  /-- Whether the command id was seen before in its session. -/
  isDuplicate : Fields → Bool
  /-- Whether `/stop` finds a turn to cancel. -/
  cancels : String → Bool
  /-- Whether the session has started a P2P run that goes on. -/
  hasActiveRun : String → Bool
  /-- Whether the preparation of an advanced workflow and the plan of the rounds let the run
  start. -/
  prepares : Fields → List String → Bool
  /-- `evaluateP2pLaunchAdmission`: whether no automatic delivery holds the main session. -/
  admits : String → Bool
  /-- The session that gets a delegated task, when its target and its text are in order. -/
  delegate : Fields → Option String

/-- `MAX_P2P_PARTICIPANTS` -/
def maxP2pParticipants : ℕ := 5

/-- `agent-delegation.ts`, `AGENT_DELEGATION_FORBIDDEN_COMMAND_FIELDS` -/
def agentDelegationForbiddenCommandFields : List String :=
  ["replyTo", "origin", "originSession", "originOverride", "context", "clientContext",
    "contextTail", "delegationContext", "files", "attachments", "quotedMessage", "quote", "quotes",
    "fileRefs", "fileReferences", "broadcast", "clone", "idempotencyKey", "delegationId",
    "sharedActor", "shareScope"]

/-! ## Members -/

/-- `/^deck_.+_brain$/`, for a name without line terminators -/
def matchesBrain (name : List Char) : Bool :=
  "deck_".toList.isPrefixOf name && "_brain".toList.isSuffixOf name &&
    "deck_".length + "_brain".length < name.length && name.all (!isLineTerminator ·)

/-- `isP2pBrainSessionName` -/
def isP2pBrainSessionName (sessionName : String) : Bool :=
  !startsWithPrefix sessionName && matchesBrain sessionName.toList

/-- `isP2pMemberEligibleSession` -/
def isP2pMemberEligibleSession (sessionName scopeSession : String) (role : Option String) : Bool :=
  let trimmed := jsTrim sessionName
  trimmed ≠ "" && !(scopeSession ≠ "" && trimmed = scopeSession) && role != some "brain" &&
    !isP2pBrainSessionName trimmed

/-- `sanitizeP2pSessionConfig` -/
def sanitizeP2pSessionConfig (config : P2pSessionConfig) (scopeSession : String) :
    P2pSessionConfig :=
  config.filter fun entry => isP2pMemberEligibleSession entry.1 scopeSession none

/-- `getEnabledP2pMemberNames` -/
def getEnabledP2pMemberNames (config : P2pSessionConfig) (scopeSession : String) : List String :=
  ((sanitizeP2pSessionConfig config scopeSession).filter (isEnabledEntry ·.2)).map Prod.fst

namespace Daemon

variable (daemon : Daemon)

/-- `getSession` -/
def getSession (name : String) : Option SessionRecord := daemon.sessions.find? (·.name = name)

/-- `resolveP2pConfigScopeSession` -/
def resolveP2pConfigScopeSession (sessionName : String) : String :=
  if startsWithPrefix sessionName then
    ((daemon.getSession sessionName).bind (·.parentSession)).getD sessionName
  else sessionName

/-- `resolveStructuredP2pSessionConfig` -/
def resolveStructuredP2pSessionConfig (sessionName : String)
    (clientConfig : Option P2pSessionConfig) : Option P2pSessionConfig :=
  let scopeSession := daemon.resolveP2pConfigScopeSession sessionName
  ((daemon.savedConfig scopeSession).or clientConfig).map
    (sanitizeP2pSessionConfig · scopeSession)

/-- Whether a session is a sibling or the parent of the sub-session that starts a run, or else a
child of the main session that does or of its project. -/
def isInDomain (initiatorName : String) (session : SessionRecord) : Bool :=
  let initiator := daemon.getSession initiatorName
  if startsWithPrefix initiatorName then
    match initiator.bind (·.parentSession) with
    | some parentSession =>
        (parentSession ≠ "" && session.parentSession = some parentSession) ||
          session.name = parentSession
    | none => false
  else
    session.parentSession = some initiatorName ||
      match initiator.bind (·.projectName) with
      | some projectName =>
          !startsWithPrefix session.name && projectName ≠ "" &&
            session.projectName = some projectName
      | none => false

/-- `excludeSameType && initiator?.agentType && session.agentType === initiator.agentType` -/
def isSameType (initiatorName : String) (session : SessionRecord) : Bool :=
  match (daemon.getSession initiatorName).bind (·.agentType) with
  | some agentType => agentType ≠ "" && session.agentType = some agentType
  | none => false

/-- `entry && entry.enabled === true && entry.mode !== 'skip'`, when there is a configuration -/
def isConfigured (sessionConfig : Option P2pSessionConfig) (name : String) : Bool :=
  match sessionConfig with
  | some config => ((config.lookup name).map isEnabledEntry).getD false
  | none => true

/-- `expandP2pTargets`, without the modes and in the order of the store -/
def expandP2pTargets (initiatorName : String) (excludeSameType : Bool)
    (sessionConfig : Option P2pSessionConfig) : List String :=
  (daemon.sessions.filter fun session =>
    session.name ≠ initiatorName && !session.isStopped &&
      !(["shell", "script"].contains (session.agentType.getD "")) &&
      isP2pMemberEligibleSession session.name
        (daemon.resolveP2pConfigScopeSession initiatorName) session.role &&
      !(excludeSameType && daemon.isSameType initiatorName session) &&
      daemon.isInDomain initiatorName session && isConfigured sessionConfig session.name).map
    (·.name)

end Daemon

/-! ## Domains -/

/-- The name up to its last `_`, when there are two of them: `deck_myapp_brain` is in
`deck_myapp`. -/
def domainOfName (sessionName : String) : String :=
  let parts := sessionName.toList.splitOn '_'
  if 3 ≤ parts.length then String.ofList (['_'].intercalate parts.dropLast) else sessionName

namespace Daemon

variable (daemon : Daemon)

/-- The parent to whose domain a sub-session belongs. -/
def domainParent (sessionName : String) : Option String :=
  if startsWithPrefix sessionName then
    ((daemon.getSession sessionName).bind (·.parentSession)).filter (· ≠ "")
  else none

/-- The recursion of `extractMainSession`. -/
def extractMainSessionIn : ℕ → String → Option String
  | 0, _ => none
  | fuel + 1, sessionName =>
      match daemon.domainParent sessionName with
      | some parentSession => extractMainSessionIn fuel parentSession
      | none => some (domainOfName sessionName)

/-- `extractMainSession`; `none` when the parents go round, where the recursion of the source
runs out of stack and throws. -/
def extractMainSession (sessionName : String) : Option String :=
  daemon.extractMainSessionIn (daemon.sessions.length + 1) sessionName

variable {daemon} {sessionName : String} {fuel : ℕ}

/-- A session has a domain, given the fuel, when its parents end before it is used up. -/
theorem isSome_extractMainSessionIn :
    (daemon.extractMainSessionIn fuel sessionName).isSome = true ↔
      ∃ depth < fuel, Graphs.HasDepth daemon.domainParent sessionName depth := by
  induction fuel generalizing sessionName with
  | zero => simp [extractMainSessionIn]
  | succ fuel ih =>
    rw [extractMainSessionIn]
    cases hparent : daemon.domainParent sessionName with
    | none => exact iff_of_true rfl ⟨0, Nat.succ_pos fuel, .root hparent⟩
    | some parentSession =>
      rw [ih]
      constructor
      · rintro ⟨depth, hlt, hdepth⟩
        exact ⟨depth + 1, Nat.succ_lt_succ hlt, .child hparent hdepth⟩
      · rintro ⟨depth, hlt, hdepth⟩
        obtain ⟨depth', rfl, hdepth'⟩ := hdepth.of_parent hparent
        exact ⟨depth', Nat.lt_of_succ_lt_succ hlt, hdepth'⟩

/-- Only a stored session has a parent. -/
theorem mem_sessions_of_domainParent {parentSession : String}
    (h : daemon.domainParent sessionName = some parentSession) :
    sessionName ∈ daemon.sessions.map (·.name) := by
  unfold domainParent at h
  split at h
  · cases hstored : daemon.getSession sessionName with
    | none =>
      rw [hstored] at h
      cases h
    | some record =>
      have hname := List.find?_some hstored
      rw [decide_eq_true_eq] at hname
      exact hname ▸ List.mem_map_of_mem (List.mem_of_find?_eq_some hstored)
  · cases h

/-- A session has a domain exactly when its parents end. -/
theorem isSome_extractMainSession :
    (daemon.extractMainSession sessionName).isSome = true ↔
      ∃ depth, Graphs.HasDepth daemon.domainParent sessionName depth := by
  rw [extractMainSession, isSome_extractMainSessionIn]
  refine exists_congr fun depth => and_iff_right_of_imp fun hdepth => ?_
  have hle : depth ≤ (daemon.sessions.map (·.name)).length :=
    hdepth.le_length fun _ _ => mem_sessions_of_domainParent
  rw [List.length_map] at hle
  exact Nat.lt_succ_of_le hle

/-- The domain of a session that is not a sub-session is in its name. -/
theorem extractMainSession_of_main (h : startsWithPrefix sessionName = false) :
    daemon.extractMainSession sessionName = some (domainOfName sessionName) := by
  rw [extractMainSession, extractMainSessionIn, domainParent, h]
  rfl

end Daemon

/-! ## What the message says -/

/-- `Boolean(cmd.key)` -/
def isSet (cmd : Fields) (key : String) : Bool := ((cmd.read key).map Json.truthy).getD false

/-- `cmd.sessionName ?? cmd.session`; a name that is not a text ends the handler. -/
def sendSession (cmd : Fields) : Option String :=
  (((match cmd.read "sessionName" with
    | none | some .null => cmd.read "session"
    | some value => some value).bind Json.string?).filter (· ≠ ""))

/-- `session` of an entry of `p2pAtTargets`. -/
def targetSession (entry : Json) : Option String := entry.record?.bind (·.string? "session")

/-- `directTargetSession ? [{ session: directTargetSession }] : p2pAtTargets` -/
inductive ExplicitTargets
  | absent
  /-- The sessions that the entries name. -/
  | list (sessions : List (Option String))
  /-- What has a length above zero and cannot be gone through, or not to the end. -/
  | broken

/-- `null`, whose fields cannot be read -/
def isNull : Json → Bool
  | .null => true
  | _ => false

/-- `p2pAtTargets`, as the value that is there -/
def atTargets : Json → ExplicitTargets
  | .array entries => if entries.any isNull then .broken else .list (entries.map targetSession)
  | .string value => if value = "" then .absent else .broken
  | .object fields =>
      match Fields.read fields "length" with
      | some (.number length) => if 0 < length then .broken else .list []
      | _ => .list []
  | value => if value.truthy then .list [] else .absent

/-- `explicitTargets` -/
def explicitTargets (cmd : Fields) : ExplicitTargets :=
  if isSet cmd "directTargetSession" then .list [cmd.string? "directTargetSession"]
  else ((cmd.read "p2pAtTargets").map atTargets).getD .absent

/-- `explicitTargets && explicitTargets.length > 0` -/
def ExplicitTargets.isPresent : ExplicitTargets → Bool
  | absent => false
  | _ => true

/-- `wantsStructuredP2pRouting` -/
def wantsStructuredP2pRouting (cmd : Fields) : Bool :=
  isSet cmd "p2pSessionConfig" || isSet cmd "p2pMode" || isSet cmd "directTargetSession" ||
    !(cmd.items "p2pAtTargets").isEmpty

/-- The entries of the configuration in the message; only those of an object or of an array can
be enabled. -/
def clientP2pSessionConfig (cmd : Fields) : Option P2pSessionConfig :=
  match cmd.read "p2pSessionConfig" with
  | some (.object fields) => some fields
  | some (.array entries) =>
      some (entries.zipIdx.map fun (entry, index) => (toString index, entry))
  | some value => if value.truthy then some [] else none
  | none => none

/-- `typeof session === 'string' && session !== '__all__'` -/
def isNamedTarget (session : Option String) : Bool := session.isSome && session != some "__all__"

/-- `hasNamedAtTargets` -/
def hasNamedAtTargets (cmd : Fields) : Bool :=
  !(cmd.items "p2pAtTargets").isEmpty &&
    (cmd.items "p2pAtTargets").all (isNamedTarget <| targetSession ·)

/-- `hasDirectNamedTarget` -/
def hasDirectNamedTarget (cmd : Fields) : Bool :=
  match cmd.string? "directTargetSession" with
  | some session => session ≠ "" && session ≠ "__all__"
  | none => false

/-- The explicit targets are named, and too many. -/
def hasTooManyTargets (cmd : Fields) : Bool :=
  hasNamedAtTargets cmd && maxP2pParticipants < (cmd.items "p2pAtTargets").length

namespace Daemon

variable (daemon : Daemon)

/-! ## Targets -/

/-- The configuration that a send goes by. -/
def sendConfig (cmd : Fields) (sessionName : String) : Option P2pSessionConfig :=
  if wantsStructuredP2pRouting cmd then
    daemon.resolveStructuredP2pSessionConfig sessionName (clientP2pSessionConfig cmd)
  else none

/-- The gates that a structured start has to pass. -/
def passesGates (cmd : Fields) (sessionName : String) : Bool :=
  if !wantsStructuredP2pRouting cmd then true
  else if hasNamedAtTargets cmd || hasDirectNamedTarget cmd then !hasTooManyTargets cmd
  else match daemon.sendConfig cmd sessionName with
    | none => false
    | some config =>
        let enabledNames :=
          getEnabledP2pMemberNames config (daemon.resolveP2pConfigScopeSession sessionName)
        !enabledNames.isEmpty && enabledNames.length ≤ maxP2pParticipants

/-- The targets of one entry of the explicit ones. -/
def targetsOf (cmd : Fields) (sessionName : String) : Option String → List String
  | none => []
  | some "__all__" => daemon.expandP2pTargets sessionName false (daemon.sendConfig cmd sessionName)
  | some session =>
      match daemon.getSession session with
      | some record =>
          if isP2pMemberEligibleSession session
              (daemon.resolveP2pConfigScopeSession sessionName) record.role then [session]
          else []
      | none => []

/-- The targets that the tokens in the text name; `none` when the send ends with an error. -/
def tokenTargets (cmd : Fields) (sessionName text : String) : Option (List String) :=
  let tokens := parseAtTokens (fun name => (daemon.getSession name).isSome) text
  if tokens.hadDiscussTokens then none
  else match tokens.expandAll, tokens.agents with
    | some spec, [] =>
        let agents := daemon.expandP2pTargets sessionName spec.excludeSameType
          (daemon.sendConfig cmd sessionName)
        if agents = [] then none else some agents
    | _, agents => some agents

/-- `tokens.agents`; `none` when the send ends with an error before it comes to them. -/
def agents (cmd : Fields) (sessionName text : String) : Option (List String) :=
  match explicitTargets cmd with
  | .broken => none
  | .list (session :: sessions) =>
      some ((session :: sessions).flatMap (daemon.targetsOf cmd sessionName))
  | _ =>
      if isSet cmd "p2pMode" then
        some (daemon.expandP2pTargets sessionName (isSet cmd "p2pExcludeSameType")
          (daemon.sendConfig cmd sessionName))
      else daemon.tokenTargets cmd sessionName text

/-! ## Handing over -/

/-- What `startP2pRun` checks before it starts the run: its main session is not held, and all
targets are in the same domain. -/
def startsRun (sessionName : String) (agents : List String) : Bool :=
  match daemon.extractMainSession sessionName with
  | some mainSession =>
      daemon.admits mainSession &&
        agents.all fun agent => daemon.extractMainSession agent = some mainSession
  | none => false

/-- A run of the session with its targets, or the session alone when nobody else was asked for. -/
def dispatch (cmd : Fields) (sessionName : String) (agents : List String) : List String :=
  if agents = [] then
    if (explicitTargets cmd).isPresent || isSet cmd "p2pMode" then []
    else if (daemon.getSession sessionName).isSome then [sessionName]
    else []
  else if daemon.hasActiveRun sessionName && !isSet cmd "force" then []
  else if daemon.prepares cmd agents && daemon.startsRun sessionName agents then
    sessionName :: agents
  else []

/-- The routing of a send that is not a delegation. -/
def routeSend (cmd : Fields) (sessionName text : String) : List String :=
  if jsTrim text = "/stop" ∧ daemon.cancels sessionName then []
  else if !daemon.passesGates cmd sessionName then []
  else match daemon.agents cmd sessionName text with
    | some agents => daemon.dispatch cmd sessionName agents
    | none => []

/-- The delegation of a send. -/
def delegateSend (cmd : Fields) : List String :=
  if agentDelegationForbiddenCommandFields.any fun key => (cmd.read key).isSome then []
  else (daemon.delegate cmd).toList

/-- `handleSend`: the sessions to which the text is handed. -/
def handleSend (cmd : Fields) : List String :=
  match sendSession cmd, cmd.string? "text" with
  | some sessionName, some text =>
      if daemon.isDuplicate cmd then []
      else if (cmd.read "delegateTarget").isSome then daemon.delegateSend cmd
      else daemon.routeSend cmd sessionName text
  | _, _ => []

end Daemon

end Imcodes.Share
