import Imcodes.Graphs.Closure
import Imcodes.Workflow.Validators

/-!
# The compiler

`compileP2pWorkflowDraft` validates a draft, checks the shape of its graph and
its loop budgets, and makes a workflow of it.
-/

namespace Imcodes.Workflow

open Imcodes.Queue (Collation)

/-! ## Capabilities -/

def p2pWorkflowCapabilityV1 : String := "p2p.workflow.v1"
def p2pWorkflowScriptArgvCapabilityV1 : String := "p2p.workflow.script.argv.v1"
def p2pWorkflowScriptInterpreterCapabilityV1 : String := "p2p.workflow.script.interpreter.v1"
def p2pWorkflowOpenspecArtifactsCapabilityV1 : String := "p2p.workflow.openspec-artifacts.v1"
def p2pWorkflowImplementationCapabilityV1 : String := "p2p.workflow.implementation.v1"

def deriveRequiredCapabilities (nodes : List P2pCompiledNode) : List String :=
  jsSort <| [p2pWorkflowCapabilityV1] ++
    (if nodes.any (·.nodeKind = .script) then [p2pWorkflowScriptArgvCapabilityV1] else []) ++
    (if nodes.any fun node => node.nodeKind = .script ∧
        (node.script.map (·.commandKind)) = some .interpreter then
      [p2pWorkflowScriptInterpreterCapabilityV1]
    else []) ++
    (if nodes.any (·.artifacts.any (·.isOpenspec)) then
      [p2pWorkflowOpenspecArtifactsCapabilityV1]
    else []) ++
    (if nodes.any (·.permissionScope = .implementation) then
      [p2pWorkflowImplementationCapabilityV1]
    else [])

/-! ## Nodes -/

/-- The edges of one kind that leave a node. -/
def outgoing (edges : List P2pWorkflowEdgeDraft) (nodeId : String) (kind : P2pEdgeKind) :
    List P2pWorkflowEdgeDraft :=
  edges.filter fun edge => edge.fromNodeId = nodeId ∧ edge.edgeKind = kind

/-- `conditionalEdges.map((edge) => edge.condition?.equals).filter((value) => !!value).sort()` -/
def conditionValues (conditionalEdges : List P2pWorkflowEdgeDraft) : List String :=
  jsSort ((conditionalEdges.filterMap fun edge => edge.condition.map (·.equals)).filter (· ≠ ""))

def deriveRoutingAuthority (node : P2pWorkflowNodeDraft) (edges : List P2pWorkflowEdgeDraft) :
    P2pRoutingAuthority :=
  let conditionalEdges := outgoing edges node.id .conditional
  if conditionalEdges = [] then .none
  else
    match node.nodeKind with
    | .script => .scriptRoutingKey (conditionValues conditionalEdges)
    | .logic => .logicMarker (conditionValues conditionalEdges)
    | .llm => .auditVerdictMarker (conditionValues conditionalEdges)

/-- A text that is not empty. -/
def nonempty? (value : Option String) : Option String := value.filter (· ≠ "")

def compileNode (node : P2pWorkflowNodeDraft) (edges : List P2pWorkflowEdgeDraft) :
    P2pCompiledNode :=
  { id := node.id
    title := nonempty? node.title
    nodeKind := node.nodeKind
    preset := node.preset
    dispatchStyle := node.dispatchStyle
    permissionScope := node.scope
    promptAppend := nonempty? node.promptAppend
    summaryPromptOverride := nonempty? node.summaryPromptOverride
    routingAuthority := node.routingAuthority.getD (deriveRoutingAuthority node edges)
    script := node.script
    logic := node.logic
    artifacts := node.artifactList }

/-! ## Logic contracts -/

/-- `PROTOTYPE_POLLUTION_KEYS` -/
def prototypePollutionKeys : List String := ["__proto__", "constructor", "prototype"]

def isValidMarker (value : String) : Bool :=
  jsLength value ≤ p2pLogicMaxMarkerBytes && isVisibleAscii value

def isLogicName (name : String) : Bool :=
  matchesName (fun c => isLower c || isUpper c || c = '_')
    (fun c => isLower c || isUpper c || isDigit c || c = '_') 63 name &&
  name ∉ prototypePollutionKeys

/-- A diagnostic of the graph, at a field. -/
def graphDiagnostic (fieldPath summary : String) : P2pWorkflowDiagnostic :=
  makeP2pWorkflowDiagnostic .invalidWorkflowGraph .compile { fieldPath, summary }

def validateRule (rule : P2pLogicRule) (path : String) : List P2pWorkflowDiagnostic :=
  (if !isValidMarker rule.emit then
    [graphDiagnostic (path ++ ".emit")
      s!"emit must be visible-ASCII (1–{p2pLogicMaxMarkerBytes} bytes)."]
  else []) ++
  match rule.condition with
  | none => []
  | some condition =>
      (if !isLogicName condition.name then
        [graphDiagnostic (path ++ ".if.name")
          ("name must be a non-empty identifier (≤64 chars, [A-Za-z_][A-Za-z0-9_]*) and not a " ++
            "prototype-pollution key.")]
      else []) ++
      (match condition.kind with
      | .variableEquals equals =>
          if jsLength equals > p2pLogicMaxMarkerBytes then
            [graphDiagnostic (path ++ ".if.equals")
              s!"equals must be a string ≤{p2pLogicMaxMarkerBytes} bytes."]
          else []
      | .variablePresent | .variableTruthy => [])

def validateP2pLogicContract (contract : P2pLogicNodeContract) (basePath : String) :
    List P2pWorkflowDiagnostic :=
  (if contract.rules.length > p2pLogicMaxRules then
    [graphDiagnostic (basePath ++ ".rules")
      s!"Logic node may declare at most {p2pLogicMaxRules} rules."]
  else []) ++
  (if !isValidMarker contract.default then
    [graphDiagnostic (basePath ++ ".default")
      s!"default marker must be visible-ASCII (1–{p2pLogicMaxMarkerBytes} bytes)."]
  else []) ++
  contract.rules.zipIdx.flatMap fun (rule, index) => validateRule rule s!"{basePath}.rules[{index}]"

/-! ## The graph -/

/-- The node ids of a draft, or the edge ids, in order. -/
def P2pWorkflowDraft.nodeIds (draft : P2pWorkflowDraft) : List String := draft.nodes.map (·.id)

def P2pWorkflowDraft.edgeIds (draft : P2pWorkflowDraft) : List String := draft.edges.map (·.id)

def findRootNodeId (draft : P2pWorkflowDraft) : Option String :=
  match nonempty? draft.rootNodeId with
  | some rootNodeId => rootNodeId
  | none =>
      match draft.nodeIds.filter (· ∉ draft.edges.map (·.toNodeId)) with
      | [root] => root
      | _ => none

/-- `draft.rootNodeId ?? findRootNodeId(draft)` -/
def P2pWorkflowDraft.root? (draft : P2pWorkflowDraft) : Option String :=
  draft.rootNodeId <|> findRootNodeId draft

def collectReachable (rootNodeId : String) (edges : List P2pWorkflowEdgeDraft) : List String :=
  Graphs.closure (edges.map fun edge => (edge.fromNodeId, edge.toNodeId)) rootNodeId

/-- The nodes that declare an OpenSpec artifact. -/
def P2pWorkflowDraft.openspecNodeIds (draft : P2pWorkflowDraft) : List String :=
  (draft.nodes.filter (·.artifactList.any (·.isOpenspec))).map (·.id)

def validateNodeShape (draft : P2pWorkflowDraft) (node : P2pWorkflowNodeDraft) :
    List P2pWorkflowDiagnostic :=
  let conditionalOutgoing := outgoing draft.edges node.id .conditional
  (match node.nodeKind, node.logic with
  | .logic, none =>
      [graphDiagnostic s!"nodes.{node.id}.logic" "Logic node MUST declare a \x60logic\x60 contract."]
  | .logic, some logic => validateP2pLogicContract logic s!"nodes.{node.id}.logic"
  | _, some _ =>
      [graphDiagnostic s!"nodes.{node.id}.logic"
        "Only nodeKind: 'logic' nodes may declare a \x60logic\x60 contract."]
  | _, none => []) ++
  (if (outgoing draft.edges node.id .default).length > 1 then
    [graphDiagnostic s!"nodes.{node.id}" "Multiple default edges are not supported."]
  else []) ++
  if conditionalOutgoing = [] then []
  else
    (if conditionalOutgoing.length > 1 then
      [graphDiagnostic s!"nodes.{node.id}"
        (s!"Multiple conditional outgoing edges ({conditionalOutgoing.length}) are not " ++
          "supported in v1; declare at most one per node.")]
    else []) ++
    (if node.routingAuthority.getD (deriveRoutingAuthority node draft.edges) = .none then
      [makeP2pWorkflowDiagnostic .invalidRoutingAuthority .compile
        { fieldPath := s!"nodes.{node.id}.routingAuthority" }]
    else []) ++
    conditionalOutgoing.flatMap fun edge =>
      if edge.condition.isNone then
        [makeP2pWorkflowDiagnostic .invalidEdgeCondition .compile
          { fieldPath := s!"edges.{edge.id}.condition" }]
      else []

/-- The values that come again, after their first. -/
def duplicates (values : List String) : List String :=
  values.zipIdx.filterMap fun (value, index) =>
    if value ∈ values.take index then some value else none

def validateGraphShape (draft : P2pWorkflowDraft) : List P2pWorkflowDiagnostic :=
  let found := ", ".intercalate draft.openspecNodeIds
  (if draft.openspecNodeIds.length > 1 then
    [makeP2pWorkflowDiagnostic .invalidWorkflowGraph .compile
      { summary := "At most one node may declare an openspec_convention artifact contract per " ++
          s!"workflow (found: {found})." }]
  else []) ++
  (duplicates draft.nodeIds).map
    (fun id => graphDiagnostic s!"nodes.{id}" "Duplicate node id.") ++
  draft.edges.zipIdx.flatMap
    (fun (edge, index) =>
      (if edge.id ∈ draft.edgeIds.take index then
        [graphDiagnostic s!"edges.{edge.id}" "Duplicate edge id."]
      else []) ++
      if edge.fromNodeId ∉ draft.nodeIds ∨ edge.toNodeId ∉ draft.nodeIds then
        [graphDiagnostic s!"edges.{edge.id}" "Edge points to missing node."]
      else []) ++
  (if (nonempty? draft.root?).all (· ∉ draft.nodeIds) then
    [graphDiagnostic "rootNodeId" "Workflow must have exactly one root."]
  else []) ++
  draft.nodes.flatMap (validateNodeShape draft) ++
  match nonempty? draft.root? with
  | none => []
  | some rootNodeId =>
      (draft.nodeIds.filter (· ∉ collectReachable rootNodeId draft.edges)).map
        fun id => graphDiagnostic s!"nodes.{id}" "Unreachable node."

/-! ## Loop budgets -/

/-- `nodeOrder.get(id)`: the map keeps the last index of an id. -/
def nodeOrder (nodes : List P2pWorkflowNodeDraft) (id : String) : Option Nat :=
  ((nodes.zipIdx.filter (·.1.id = id)).getLast?).map Prod.snd

/-- `draft.loopBudgets?.[edgeId]` -/
def P2pWorkflowDraft.loopBudget (draft : P2pWorkflowDraft) (edgeId : String) : Property ℚ :=
  match draft.loopBudgets with
  | none => .missing
  | some loopBudgets => loopBudgets.read edgeId

/-- What is no count of loops. -/
def invalidBudget : Property ℚ → Bool
  | .own budget => !isInteger budget || budget < 0
  | .inherited => true
  | .missing => false

def validateLoopBudget (draft : P2pWorkflowDraft) (edge : P2pWorkflowEdgeDraft) :
    List P2pWorkflowDiagnostic :=
  match nodeOrder draft.nodes edge.fromNodeId, nodeOrder draft.nodes edge.toNodeId with
  | some fromIndex, some toIndex =>
      (if toIndex ≤ fromIndex ∧ draft.loopBudget edge.id = .missing then
        [graphDiagnostic s!"loopBudgets.{edge.id}"
          "Backward edges require edge-scoped loop budgets."]
      else []) ++
      if invalidBudget (draft.loopBudget edge.id) then
        [graphDiagnostic s!"loopBudgets.{edge.id}" "Loop budget must be a non-negative integer."]
      else []
  | _, _ => []

/-- `Object.keys(draft.loopBudgets ?? {})` -/
def P2pWorkflowDraft.loopBudgetKeys (draft : P2pWorkflowDraft) : List String :=
  match draft.loopBudgets with
  | none => []
  | some loopBudgets => loopBudgets.own.toList.map Prod.fst

def validateLoopBudgets (draft : P2pWorkflowDraft) : List P2pWorkflowDiagnostic :=
  draft.edges.flatMap (validateLoopBudget draft) ++
  (draft.loopBudgetKeys.filter (· ∉ draft.edgeIds)).map
    fun key => graphDiagnostic s!"loopBudgets.{key}" "Loop budgets must be keyed by edge id."

/-- `sortedRecord`, which puts what it is given into a new object. -/
def sortedRecord (input : PlainObject ℚ) : PlainObject ℚ :=
  (jsSort (input.own.toList.map Prod.fst)).foldl
    (fun output key => output.assign key ((input.own.get? key).getD 0)) .empty

/-! ## Compiling -/

/-- `[...values].sort((left, right) => name(left).localeCompare(name(right)))` -/
def sortedBy {α : Type} (localeCompare : Collation) (name : α → String) (values : List α) : List α :=
  values.insertionSort fun a b => localeCompare (name a) (name b) ≤ 0

/-- What is wrong with a draft. -/
def draftDiagnostics (draft : P2pWorkflowDraft) (staticPolicy : P2pStaticPolicy) :
    List P2pWorkflowDiagnostic :=
  (if (draft.nodes.length : ℚ) > staticPolicy.maxNodes ∨
      (draft.edges.length : ℚ) > staticPolicy.maxEdges then
    [makeP2pWorkflowDiagnostic .invalidWorkflowGraph .compile
      { summary := "Workflow exceeds static policy size limits." }]
  else []) ++
  validateGraphShape draft ++
  validateP2pWorkflowVariables (draft.«variables».getD []) ++
  validateLoopBudgets draft

/-- The workflow of a draft in which nothing is wrong. -/
def compiledWorkflow (localeCompare : Collation) (draft : P2pWorkflowDraft) (rootNodeId : String) :
    P2pCompiledWorkflow :=
  let nodes := (sortedBy localeCompare (·.id) draft.nodes).map (compileNode · draft.edges)
  { workflowId := draft.id
    rootNodeId
    nodes
    edges := sortedBy localeCompare (·.id) draft.edges
    «variables» := sortedBy localeCompare (·.name) (draft.«variables».getD [])
    loopBudgets := sortedRecord (draft.loopBudgets.getD .empty)
    derivedRequiredCapabilities := deriveRequiredCapabilities nodes }

def compileP2pWorkflowDraft (localeCompare : Collation) (draft : P2pWorkflowDraft)
    (staticPolicy : P2pStaticPolicy) :
    Except (List P2pWorkflowDiagnostic) P2pCompiledWorkflow :=
  let diagnostics := validateP2pWorkflowDraft draft
  if hasError diagnostics then .error diagnostics
  else
    let diagnostics := diagnostics ++ draftDiagnostics draft staticPolicy
    if hasError diagnostics then .error diagnostics
    else
      match draft.root? with
      | none => .error diagnostics
      | some rootNodeId => .ok (compiledWorkflow localeCompare draft rootNodeId)

end Imcodes.Workflow
