import Imcodes.Workflow.Compiler
import Imcodes.Workflow.Rounds

/-!
# From a compiled workflow to rounds

The nodes of a workflow are put in the order in which the default edges lead
through them from the root, and each becomes a round.
-/

namespace Imcodes.Workflow

namespace P2pCompiledWorkflow

variable (workflow : P2pCompiledWorkflow)

/-- `nodesById.get(id)`: the map keeps the last node of an id. -/
def nodeById (id : String) : Option P2pCompiledNode :=
  (workflow.nodes.filter (·.id = id)).getLast?

/-- Where the default edges of a node lead. -/
def defaultTargets (nodeId : String) : List String :=
  (outgoing workflow.edges nodeId .default).map (·.toNodeId)

/-- `visit`, which puts a node into the order and goes on to where its default edges
lead.  It stops at a node that it has visited, so it is as deep as there are nodes. -/
def visit : Nat → String → List P2pCompiledNode → List P2pCompiledNode
  | 0, _, ordered => ordered
  | depth + 1, nodeId, ordered =>
      if nodeId ∈ ordered.map (·.id) then ordered
      else
        match workflow.nodeById nodeId with
        | none => ordered
        | some node =>
            (workflow.defaultTargets nodeId).foldl
              (fun ordered next => visit depth next ordered) (ordered ++ [node])

def orderCompiledNodesForExecution : List P2pCompiledNode :=
  let ordered :=
    if workflow.rootNodeId = "" then []
    else workflow.visit (workflow.nodes.length + 1) workflow.rootNodeId []
  ordered ++ workflow.nodes.filter (·.id ∉ ordered.map (·.id))

end P2pCompiledWorkflow

def roundPresetFromWorkflowPreset : P2pPresetKey → P2pRoundPreset
  | .openspecPropose => .openspecPropose
  | .proposalAudit => .proposalAudit
  | .implementation => .implementation
  | .implementationAudit => .implementationAudit
  | .custom => .custom
  | .brainstorm | .discuss | .audit | .review | .plan => .discussion

/-- What `mapConditionalEdgeToJumpRule` gives for an edge and what the loop budgets
have under its id. -/
def mapConditionalEdgeToJumpRule (conditionalEdge : Option P2pCompiledEdge)
    (loopBudgets : PlainObject ℚ) : Option P2pAdvancedJumpRule × P2pRoundVerdictPolicy :=
  match conditionalEdge with
  | none => (none, .none)
  | some edge =>
      let jumpRule (maxTriggers : Option ℚ) : P2pAdvancedJumpRule :=
        { targetRoundId := edge.toNodeId
          marker := some (if edge.condition.map (·.equals) = some "PASS" then .pass else .rework)
          minTriggers := 0
          maxTriggers }
      match loopBudgets.read edge.id with
      | .missing => (none, .forcedRework)
      | .own loopBudget => (jumpRule loopBudget, .forcedRework)
      -- what is inherited is not undefined, and is lost when the round is copied
      | .inherited => (jumpRule none, .forcedRework)

/-- A compiled node's convention, taken for a round's. -/
def roundArtifactConvention : P2pArtifactConvention → P2pRoundArtifactConvention
  | .none => .none
  | .explicitPaths => .explicitPaths
  | .openspecConvention => .openspecConvention

def mapCompiledNodeToLegacyRound (node : P2pCompiledNode) (workflow : P2pCompiledWorkflow) :
    P2pAdvancedRound :=
  let conditionalEdge := (outgoing workflow.edges node.id .conditional).head?
  let (jumpRule, verdictPolicy) := mapConditionalEdgeToJumpRule conditionalEdge workflow.loopBudgets
  { id := node.id
    title := node.title.getD node.id
    preset := roundPresetFromWorkflowPreset node.preset
    executionMode :=
      if node.dispatchStyle = some .multiDispatch then .multiDispatch else .singleMain
    permissionScope := node.permissionScope
    promptAppend := nonempty? node.promptAppend
    artifactOutputs :=
      if node.artifacts = [] then none else some (jsSort (node.artifacts.flatMap (·.paths)))
    verdictPolicy := some verdictPolicy
    jumpRule
    nodeKind := some node.nodeKind
    script := node.script
    routingAuthority := some node.routingAuthority
    artifactConvention := node.artifacts.head?.map (roundArtifactConvention ·.convention) }

def compiledWorkflowToLegacyAdvancedRounds (workflow : P2pCompiledWorkflow) :
    List P2pAdvancedRound :=
  workflow.orderCompiledNodesForExecution.map (mapCompiledNodeToLegacyRound · workflow)

end Imcodes.Workflow
