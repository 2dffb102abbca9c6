import Mathlib.Algebra.Order.Floor.Ring
import Mathlib.Data.List.Sort
import Mathlib.Data.Rat.Floor
import Imcodes.Collections.OrderedMap

/-!
# The rows of sub-agents

`deriveSdkSubagentStatusRows` reads the timeline from its beginning: every well-formed detail of a
sub-agent replaces the row of its key, unless it would set a finished one running. Rows that nothing
was heard of for long, or whose session is finished, are stale. What is left is shown in two lists,
those that run and some of those that do not.

A sort whose comparisons are not those of an order is an insertion sort.
-/

namespace Imcodes.Timeline.Subagents

/-! ## Details -/

inductive SdkSubagentProvider
  | claudeCodeSdk | codexSdk | qwen | geminiSdk
deriving DecidableEq

inductive SdkSubagentProviderKind
  | claudeTask | claudeRuntimeAgent | codexCollabAgent | codexRuntimeAgent | qwenRuntimeAgent
  | geminiRuntimeAgent
deriving DecidableEq

/-- `SDK_SUBAGENT_STATUS` -/
inductive SdkSubagentNormalizedStatus
  | pending | running | complete | error | interrupted | stale | unknown
deriving DecidableEq

def SdkSubagentNormalizedStatus.text : SdkSubagentNormalizedStatus → String
  | pending => "pending"
  | running => "running"
  | complete => "complete"
  | error => "error"
  | interrupted => "interrupted"
  | stale => "stale"
  | unknown => "unknown"

/-- `SDK_SUBAGENT_DIAGNOSTIC` -/
inductive SdkSubagentDiagnosticCode
  | unsupportedRuntime | unknownRuntimeSupport | malformedPayload | missingId | unknownState
  | staleWithoutTerminal | snapshotOnly
deriving DecidableEq

structure SdkSubagentDetailMeta where
  provider : SdkSubagentProvider := .claudeCodeSdk
  providerKind : SdkSubagentProviderKind := .claudeTask
  canonicalKey : String
  normalizedStatus : SdkSubagentNormalizedStatus
  rawStatus : Option String := none
  active : Bool
  terminal : Bool
  parentToolUseId : Option String := none
  parentItemId : Option String := none
  agentPath : Option String := none
  agentName : Option String := none
  model : Option String := none
  taskId : Option String := none
  receiverThreadId : Option String := none
  receiverIndex : Option ℤ := none
  receiverCount : Option ℤ := none
  runningChildCount : Option ℚ := none
  childStatusSummary : Option String := none
  backgrounded : Bool := false
  usageTotalTokens : Option ℤ := none
  usageToolUses : Option ℤ := none
  usageDurationMs : Option ℤ := none
  startedAtMs : Option ℚ := none
  diagnosticCode : Option SdkSubagentDiagnosticCode := none
deriving DecidableEq

structure SdkSubagentDetail where
  summary : Option String := none
  /-- `input?.description` -/
  description : Option String := none
  output : Option String := none
  meta' : SdkSubagentDetailMeta
deriving DecidableEq

/-- What `parseSdkSubagentDetail` makes of a detail. -/
inductive SdkSubagentDetailParseResult
  | notSdk
  | malformedSdk
  | ok (detail : SdkSubagentDetail)
deriving DecidableEq

structure TimelineEvent where
  eventId : String
  sessionId : String
  type : String
  ts : ℚ
  /-- `payload.state`, if it is a text -/
  state : Option String := none
  /-- `payload.detail` -/
  detail : SdkSubagentDetailParseResult := .notSdk
deriving DecidableEq

/-! ## Rows and diagnostics -/

structure SdkSubagentStatusRow where
  canonicalKey : String
  sessionId : String
  eventId : String
  startTs : ℚ
  ts : ℚ
  provider : SdkSubagentProvider
  providerKind : SdkSubagentProviderKind
  normalizedStatus : SdkSubagentNormalizedStatus
  rawStatus : Option String
  summary : Option String
  description : Option String
  output : Option String
  active : Bool
  terminal : Bool
  parentItemId : Option String
  parentToolUseId : Option String
  agentPath : Option String
  agentName : Option String
  model : Option String
  taskId : Option String
  receiverThreadId : Option String
  receiverIndex : Option ℤ
  receiverCount : Option ℤ
  runningChildCount : Option ℚ
  childStatusSummary : Option String
  backgrounded : Bool
  usageTotalTokens : Option ℤ
  usageToolUses : Option ℤ
  usageDurationMs : Option ℤ
  startedAtMs : Option ℚ
deriving DecidableEq

structure RowState extends SdkSubagentStatusRow where
  firstOrder : ℕ
  lastOrder : ℕ
deriving DecidableEq

structure SdkSubagentDiagnostic where
  id : String
  eventId : String
  sessionId : String
  ts : ℚ
  canonicalKey : Option String := none
  provider : Option SdkSubagentProvider := none
  providerKind : Option SdkSubagentProviderKind := none
  normalizedStatus : Option SdkSubagentNormalizedStatus := none
  rawStatus : Option String := none
  summary : Option String := none
  description : Option String := none
  output : Option String := none
  diagnosticCode : SdkSubagentDiagnosticCode
  childStatusSummary : Option String := none
deriving DecidableEq

structure DiagnosticState extends SdkSubagentDiagnostic where
  firstOrder : ℕ
  lastOrder : ℕ
deriving DecidableEq

structure SessionFinishState where
  eventId : String
  ts : ℚ
  order : ℕ
deriving DecidableEq

structure SdkSubagentAggregationResult where
  rows : List SdkSubagentStatusRow
  runningCount : ℕ
  diagnostics : List SdkSubagentDiagnostic

structure SdkSubagentAggregationOptions where
  terminalTtlMs : Option ℚ := none
  maxTerminalRows : Option ℤ := none
  activeStaleMs : Option ℚ := none

def SDK_SUBAGENT_TERMINAL_RETENTION_MS : ℚ := 300000
def SDK_SUBAGENT_MAX_TERMINAL_ROWS : ℤ := 5
def DEFAULT_ACTIVE_STALE_MS : ℚ := 15 * 60000

/-! ## Making a row -/

def ACTIVE_STATUSES : List SdkSubagentNormalizedStatus := [.pending, .running]

def TERMINAL_STATUSES : List SdkSubagentNormalizedStatus := [.complete, .error, .interrupted, .stale]

def isTerminalish (terminal : Bool) (normalizedStatus : SdkSubagentNormalizedStatus) : Bool :=
  terminal || normalizedStatus ∈ TERMINAL_STATUSES

def SdkSubagentDetailMeta.isTerminalish (m : SdkSubagentDetailMeta) : Bool :=
  Subagents.isTerminalish m.terminal m.normalizedStatus

def SdkSubagentStatusRow.isTerminalish (row : SdkSubagentStatusRow) : Bool :=
  Subagents.isTerminalish row.terminal row.normalizedStatus

/-- A text that is there and not empty. -/
def truthy (value : Option String) : Bool := value.any (· ≠ "")

def normalizeStartedAtMs (value : Option ℚ) (eventTs : ℚ) : ℚ :=
  match value with
  | none => eventTs
  | some value =>
    let startedAtMs := ⌊value⌋
    if startedAtMs ≤ 0 then eventTs
    else if startedAtMs > eventTs then eventTs
    else startedAtMs

/-- Every status that is parsed is known. -/
def makeRow (event : TimelineEvent) (detail : SdkSubagentDetail) (order : ℕ) : RowState :=
  let m := detail.meta'
  { canonicalKey := m.canonicalKey
    sessionId := event.sessionId
    eventId := event.eventId
    startTs := normalizeStartedAtMs m.startedAtMs event.ts
    ts := event.ts
    provider := m.provider
    providerKind := m.providerKind
    normalizedStatus := m.normalizedStatus
    rawStatus := m.rawStatus
    summary := detail.summary
    description := detail.description
    output := detail.output
    active := m.active && !m.isTerminalish && m.normalizedStatus ∈ ACTIVE_STATUSES
    terminal := m.isTerminalish
    parentItemId := m.parentItemId
    parentToolUseId := m.parentToolUseId
    agentPath := m.agentPath
    agentName := m.agentName
    model := m.model
    taskId := m.taskId
    receiverThreadId := m.receiverThreadId
    receiverIndex := m.receiverIndex
    receiverCount := m.receiverCount
    runningChildCount := m.runningChildCount
    childStatusSummary := m.childStatusSummary
    backgrounded := m.backgrounded
    usageTotalTokens := m.usageTotalTokens
    usageToolUses := m.usageToolUses
    usageDurationMs := m.usageDurationMs
    startedAtMs := m.startedAtMs
    firstOrder := order
    lastOrder := order }

def makeMalformedDiagnostic (event : TimelineEvent) (order : ℕ) : DiagnosticState where
  id := event.eventId ++ ":malformed"
  eventId := event.eventId
  sessionId := event.sessionId
  ts := event.ts
  diagnosticCode := .malformedPayload
  firstOrder := order
  lastOrder := order

def makeDiagnosticFromDetail (event : TimelineEvent) (detail : SdkSubagentDetail) (order : ℕ)
    (fallbackCode : SdkSubagentDiagnosticCode) : DiagnosticState :=
  let m := detail.meta'
  { id := m.canonicalKey
    eventId := event.eventId
    sessionId := event.sessionId
    ts := event.ts
    canonicalKey := some m.canonicalKey
    provider := some m.provider
    providerKind := some m.providerKind
    normalizedStatus := some m.normalizedStatus
    rawStatus := m.rawStatus
    summary := detail.summary
    description := detail.description
    output := detail.output
    diagnosticCode := m.diagnosticCode.getD fallbackCode
    childStatusSummary := m.childStatusSummary
    firstOrder := order
    lastOrder := order }

/-! ## Reading the timeline -/

def getSessionFinishState (event : TimelineEvent) (order : ℕ) : Option SessionFinishState :=
  if event.type = "session.state" ∧ (event.state = some "idle" ∨ event.state = some "error") then
    some { eventId := event.eventId, ts := event.ts, order }
  else none

def getCodexCollabWrapperFinishState (event : TimelineEvent) (order : ℕ) :
    Option SessionFinishState :=
  if event.type = "assistant.text" then some { eventId := event.eventId, ts := event.ts, order }
  else getSessionFinishState event order

structure Aggregation where
  rowsByCanonicalKey : OrderedMap String RowState := .empty
  diagnosticsById : OrderedMap String DiagnosticState := .empty
  sessionFinishes : List SessionFinishState := []
  codexCollabWrapperFinishes : List SessionFinishState := []

def mergeStartTs (previous : Option RowState) (next : RowState) : ℚ :=
  match previous with
  | none => next.startTs
  | some previous => min previous.startTs next.startTs

/-- The row of a key after another detail: one that would set a finished row running is ignored. -/
def replaceRow (previous : Option RowState) (next : RowState) : RowState :=
  match previous with
  | none => next
  | some row =>
    if row.isTerminalish && next.active && !next.isTerminalish then row
    else { next with firstOrder := row.firstOrder, startTs := mergeStartTs previous next }

namespace Aggregation

variable (s : Aggregation)

def putRow (next : RowState) : Aggregation :=
  { s with
    rowsByCanonicalKey := s.rowsByCanonicalKey.set next.canonicalKey
      (replaceRow (s.rowsByCanonicalKey.get? next.canonicalKey) next) }

def putDiagnostic (diagnostic : DiagnosticState) : Aggregation :=
  { s with
    diagnosticsById := s.diagnosticsById.set diagnostic.id
      { diagnostic with
        firstOrder := ((s.diagnosticsById.get? diagnostic.id).map (·.firstOrder)).getD
          diagnostic.firstOrder } }

/-- A detail that is worth a diagnostic. -/
def isDiagnostic (detail : SdkSubagentDetail) : Bool :=
  detail.meta'.diagnosticCode.isSome || detail.meta'.normalizedStatus = .unknown

/-- `events.forEach((event, order) => …)` -/
def read (event : TimelineEvent) (order : ℕ) : Aggregation :=
  let s :=
    { s with
      sessionFinishes := s.sessionFinishes ++ (getSessionFinishState event order).toList
      codexCollabWrapperFinishes := s.codexCollabWrapperFinishes ++
        (getCodexCollabWrapperFinishState event order).toList }
  match event.detail with
  | .notSdk => s
  | .malformedSdk =>
    let diagnostic := makeMalformedDiagnostic event order
    { s with diagnosticsById := s.diagnosticsById.set diagnostic.id diagnostic }
  | .ok detail =>
    let s := s.putRow (makeRow event detail order)
    if isDiagnostic detail then
      s.putDiagnostic (makeDiagnosticFromDetail event detail order .unknownState)
    else s

end Aggregation

def aggregate (events : List TimelineEvent) : Aggregation :=
  events.zipIdx.foldl (fun s p => s.read p.1 p.2) {}

/-! ## Rows that are stale -/

def findFinishAfter (row : RowState) (finishes : List SessionFinishState) :
    Option SessionFinishState :=
  finishes.find? (·.order > row.lastOrder)

def staleRowAfterFinish (row : RowState) (finish : SessionFinishState) : RowState :=
  { row with
    eventId := finish.eventId
    ts := finish.ts
    normalizedStatus := .stale
    rawStatus := some (row.rawStatus.getD SdkSubagentNormalizedStatus.stale.text)
    active := false
    terminal := true
    lastOrder := finish.order }

def staleRow (row : RowState) : RowState :=
  { row with
    normalizedStatus := .stale
    rawStatus := some (row.rawStatus.getD SdkSubagentNormalizedStatus.stale.text)
    active := false
    terminal := true }

def isCodexCollabWrapperRow (row : RowState) : Bool :=
  row.providerKind = .codexCollabAgent && !truthy row.receiverThreadId

/-- The finish that a row of a session, or of a wrapper, is stale after. -/
def Aggregation.finishOf (s : Aggregation) (row : RowState) : Option SessionFinishState :=
  findFinishAfter row
    (if isCodexCollabWrapperRow row then s.codexCollabWrapperFinishes else s.sessionFinishes)

/-- Nothing was heard of the row for long. -/
def isOverdue (activeStaleMs now : ℚ) (row : RowState) : Bool :=
  activeStaleMs > 0 && now - row.ts > activeStaleMs

/-- `for (const [canonicalKey, row] of rowsByCanonicalKey.entries())` -/
def Aggregation.expire (s : Aggregation) (activeStaleMs now : ℚ) (row : RowState) : RowState :=
  if !row.active || row.isTerminalish then row
  else if isOverdue activeStaleMs now row then staleRow row
  else if row.backgrounded then row
  else
    match s.finishOf row with
    | none => row
    | some finish => staleRowAfterFinish row finish

/-! ## The result -/

def getRunningContribution (row : SdkSubagentStatusRow) : ℕ :=
  if !row.active || row.terminal || row.normalizedStatus ∉ ACTIVE_STATUSES then 0
  else if row.providerKind = .codexCollabAgent ∧ truthy row.receiverThreadId = false then
    match row.runningChildCount with
    | none => 1
    | some runningChildCount => ⌊runningChildCount⌋.toNat
  else 1

def structuredToolUseIds (rows : List RowState) : List String :=
  (rows.filter fun row => row.providerKind = .claudeTask && truthy row.parentToolUseId).filterMap
    (·.parentToolUseId)

/-- A runtime row is not shown where the tool has a task. -/
def isFallback (toolUseIds : List String) (row : RowState) : Bool :=
  row.providerKind = .claudeRuntimeAgent &&
    (row.parentToolUseId <|> row.parentItemId).any fun id => id ≠ "" && id ∈ toolUseIds

def suppressClaudeRuntimeFallbackRows (rows : List RowState) : List RowState :=
  if structuredToolUseIds rows = [] then rows
  else rows.filter (!isFallback (structuredToolUseIds rows) ·)

def isRetained (ts now ttlMs : ℚ) : Bool := now - ts ≤ ttlMs

/-- `a || b` of numbers -/
def orElse (a b : ℚ) : ℚ := if a ≠ 0 then a else b

def receiverOrder (a b : RowState) : ℚ :=
  match a.receiverIndex, b.receiverIndex with
  | some i, some j =>
    if a.providerKind = .codexCollabAgent ∧ b.providerKind = .codexCollabAgent ∧
        truthy a.parentItemId = true ∧ a.parentItemId = b.parentItemId then i - j
    else 0
  | _, _ => 0

def activeRowSort (a b : RowState) : ℚ :=
  orElse (receiverOrder a b) ((a.firstOrder : ℚ) - b.firstOrder)

def terminalRowSort (a b : RowState) : ℚ :=
  orElse (receiverOrder a b) (orElse (b.ts - a.ts) ((b.lastOrder : ℚ) - a.lastOrder))

def diagnosticSort (a b : DiagnosticState) : ℚ :=
  orElse (b.ts - a.ts) ((b.lastOrder : ℚ) - a.lastOrder)

def sortBy {α : Type} (compare : α → α → ℚ) (values : List α) : List α :=
  values.insertionSort fun a b => compare a b ≤ 0

/-- `values.slice(0, end)` -/
def sliceTo {α : Type} (values : List α) (stop : ℤ) : List α :=
  values.take (if stop < 0 then (values.length + stop).toNat else stop.toNat)

/-- What is shown of what does not run: rows and diagnostics, the latest first. -/
def retainedRecent (terminalRows : List RowState) (diagnostics : List DiagnosticState)
    (maxTerminalRows : ℤ) : List (RowState ⊕ DiagnosticState) :=
  let ts : RowState ⊕ DiagnosticState → ℚ := Sum.elim (·.ts) (·.ts)
  let order : RowState ⊕ DiagnosticState → ℚ := Sum.elim (·.lastOrder) (·.lastOrder)
  sliceTo (sortBy (fun a b => orElse (ts b - ts a) (order b - order a))
    (terminalRows.map .inl ++ diagnostics.map .inr)) maxTerminalRows

/-- The row runs. -/
def RowState.isActive (row : RowState) : Bool := row.active && !row.isTerminalish

def deriveSdkSubagentStatusRows (events : List TimelineEvent) (now : ℚ)
    (options : SdkSubagentAggregationOptions := {}) : SdkSubagentAggregationResult :=
  let terminalTtlMs := options.terminalTtlMs.getD SDK_SUBAGENT_TERMINAL_RETENTION_MS
  let maxTerminalRows := options.maxTerminalRows.getD SDK_SUBAGENT_MAX_TERMINAL_ROWS
  let activeStaleMs := options.activeStaleMs.getD DEFAULT_ACTIVE_STALE_MS
  let s := aggregate events
  let rowStates := suppressClaudeRuntimeFallbackRows
    (s.rowsByCanonicalKey.mapValues (s.expire activeStaleMs now)).values
  let activeRows := sortBy activeRowSort (rowStates.filter (·.isActive))
  let terminalRows := sortBy terminalRowSort
    ((rowStates.filter (!·.isActive)).filter fun row => isRetained row.ts now terminalTtlMs)
  let diagnostics := sortBy diagnosticSort
    (s.diagnosticsById.values.filter fun diagnostic => isRetained diagnostic.ts now terminalTtlMs)
  let retained := retainedRecent terminalRows diagnostics maxTerminalRows
  let retainedTerminalKeys := retained.filterMap (Sum.elim (some ·.canonicalKey) fun _ => none)
  let retainedDiagnosticIds := retained.filterMap (Sum.elim (fun _ => none) (some ·.id))
  { rows := (activeRows ++ terminalRows.filter (·.canonicalKey ∈ retainedTerminalKeys)).map
      (·.toSdkSubagentStatusRow)
    runningCount := (activeRows.map fun row =>
      getRunningContribution row.toSdkSubagentStatusRow).sum
    diagnostics := (diagnostics.filter (·.id ∈ retainedDiagnosticIds)).map
      (·.toSdkSubagentDiagnostic) }

end Imcodes.Timeline.Subagents
