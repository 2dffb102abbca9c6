import Imcodes.Machine.Runs
import Imcodes.Workflow.Adapter

/-!
# The chain of rounds

`executeAdvancedChain`: one round after the other, and after each the edge of the
compiled workflow that its result selects, or the rule of the round itself if the
run has no compiled workflow.

What the agents, the scripts and the logic of a round come to is an `Outcome`, of
which any may follow any.  The rounds that are visited and the edges that are
taken are recorded.
-/

namespace Imcodes.Workflow

open PlainObject (Counters)

def p2pScriptRetryDefaultAttempts : Nat := 3

/-- What a run executes: its rounds, and its workflow if it was compiled. -/
structure Plan where
  rounds : List P2pResolvedRound
  boundWorkflow : Option P2pCompiledWorkflow

/-- How a round ends. -/
inductive Outcome
  /-- The run is cancelled or past its deadline before the round. -/
  | stops
  /-- The round fails, for whatever reason but its script. -/
  | fails
  /-- Its script fails, for reasons that are all transient or not. -/
  | scriptFails (retriable : Bool)
  /-- It is done; the marker is what its logic gives if it has one. -/
  | done (verdict : Option P2pVerdictMarker) (routingKey : Option String) (logicMarker : String)
deriving DecidableEq

inductive Ending
  | stopped | failed | unmatchedEdgeRoute | threw | completed
deriving DecidableEq

structure Chain where
  roundIndex : Nat := 0
  roundJumpCounts : Counters := .empty
  compiledEdgeUseCounts : Option Counters := none
  scriptRetryCounts : Option Counters := none
  ended : Option Ending := none
  /-- The ids of the rounds that were begun, each attempt of one. -/
  visited : List String := []
  /-- The edges that were taken. -/
  traversed : List P2pCompiledEdge := []

/-! ## Routing -/

/-- What a round has given for routing. -/
structure Signals where
  effectiveVerdict : Option P2pVerdictMarker
  scriptRoutingKey : Option String
  logicMarker : Option String
deriving DecidableEq

/-- The value that a condition is about. -/
def P2pWorkflowEdgeCondition.triggerValue (condition : P2pWorkflowEdgeCondition)
    (signals : Signals) : Option String :=
  match condition.kind with
  | .routingKeyEquals => signals.scriptRoutingKey
  | .verdictMarkerEquals => signals.effectiveVerdict.map (·.text)
  | .logicMarkerEquals => signals.logicMarker

def P2pWorkflowEdgeDraft.isMatched (edge : P2pWorkflowEdgeDraft) (signals : Signals) : Bool :=
  edge.condition.any fun condition => condition.triggerValue signals = some condition.equals

/-- `useCount >= budget` -/
def isSpent (loopBudgets : PlainObject ℚ) (uses : Option Counters) (edgeId : String) : Bool :=
  let useCount : Option Nat := (uses.map (·.count edgeId)).getD (some 0)
  match useCount, loopBudgets.read edgeId with
  | some useCount, .own budget => decide (budget ≤ (useCount : ℚ))
  | _, _ => false

/-- The conditional edge that is taken, if one is. -/
def selectConditional (workflow : P2pCompiledWorkflow) (uses : Option Counters) (roundId : String)
    (signals : Signals) : Option P2pCompiledEdge :=
  (outgoing workflow.edges roundId .conditional).find? fun edge =>
    !isSpent workflow.loopBudgets uses edge.id && edge.isMatched signals

/-- Whether the rule of a round has it jump. -/
def legacyJump (jumpCounts : Counters) (round : P2pResolvedRound)
    (effectiveVerdict : Option P2pVerdictMarker) : Option String :=
  match round.jumpRule with
  | none => none
  | some jumpRule =>
      if round.allowRouting then
        match jumpCounts.count round.id, jumpRule.maxTriggers with
        | some jumpCount, some maxTriggers =>
            if (jumpCount : ℚ) < maxTriggers ∧
                (round.verdictPolicy = .forcedRework ∧ (jumpCount : ℚ) < jumpRule.minTriggers ∨
                  effectiveVerdict = some (jumpRule.marker.getD .rework)) then
              some jumpRule.targetRoundId
            else none
        | _, _ => none
      else none

/-! ## Moving on -/

/-- A script fails: the round is tried again, or the run fails. -/
def Chain.retryScript (c : Chain) (round : P2pResolvedRound) (retriable : Bool) : Chain :=
  let counts := c.scriptRetryCounts.getD .empty
  let c := { c with scriptRetryCounts := some (counts.countUp round.id) }
  if retriable ∧ (counts.count round.id).any (· < p2pScriptRetryDefaultAttempts - 1) then c
  else { c with ended := some .failed }

namespace Plan

variable (plan : Plan)

/-- `dispatchScriptRoundOrFail` runs a script for the round. -/
def isScriptRound (round : P2pResolvedRound) : Bool :=
  match plan.boundWorkflow with
  | none => false
  | some workflow =>
      let fallbackNode := workflow.nodes.find? (·.id = round.id)
      (round.nodeKind = some .script || fallbackNode.any (·.nodeKind = .script)) &&
        (round.script <|> fallbackNode.bind (·.script)).isSome

def signals (round : P2pResolvedRound) (verdict : Option P2pVerdictMarker)
    (routingKey : Option String) (logicMarker : String) : Signals :=
  { effectiveVerdict :=
      if round.requiresVerdict ∧ round.nodeKind ≠ some .script ∧ round.nodeKind ≠ some .logic then
        some (verdict.getD .rework)
      else none
    scriptRoutingKey := if plan.isScriptRound round then routingKey else none
    logicMarker :=
      if !plan.isScriptRound round && round.nodeKind = some .logic then some logicMarker else none }

/-- `roundIndex = rounds.findIndex((entry) => entry.id === id)`; there is no round at -1. -/
def goTo (c : Chain) (id : String) (missing : Ending) : Chain :=
  match plan.rounds.findIdx? (·.id = id) with
  | some roundIndex => { c with roundIndex }
  | none => { c with ended := some missing }

/-- An edge is taken. -/
def traverse (c : Chain) (edge : P2pCompiledEdge) (missing : Ending) : Chain :=
  plan.goTo
    { c with
      compiledEdgeUseCounts := some ((c.compiledEdgeUseCounts.getD .empty).countUp edge.id)
      scriptRetryCounts := c.scriptRetryCounts.map (·.delete edge.toNodeId)
      traversed := c.traversed ++ [edge] }
    edge.toNodeId missing

/-- After a round of a compiled workflow. -/
def advanceCompiled (workflow : P2pCompiledWorkflow) (c : Chain) (round : P2pResolvedRound)
    (signals : Signals) : Chain :=
  match selectConditional workflow c.compiledEdgeUseCounts round.id signals with
  | some edge =>
      plan.traverse { c with roundJumpCounts := c.roundJumpCounts.countUp round.id } edge .threw
  | none =>
      match outgoing workflow.edges round.id .default with
      | [next] => plan.traverse c next .failed
      | _ :: _ :: _ => { c with ended := some .failed }
      | [] =>
          if outgoing workflow.edges round.id .conditional = [] then
            { c with ended := some .completed }
          else { c with ended := some .unmatchedEdgeRoute }

/-- After a round of a run without a compiled workflow. -/
def advanceLegacy (c : Chain) (round : P2pResolvedRound) (signals : Signals) : Chain :=
  match legacyJump c.roundJumpCounts round signals.effectiveVerdict with
  | some target =>
      plan.goTo
        { c with
          roundJumpCounts := c.roundJumpCounts.countUp round.id
          scriptRetryCounts := c.scriptRetryCounts.map (·.delete target) }
        target .threw
  | none => { c with roundIndex := c.roundIndex + 1 }

/-- After a round. -/
def advance (c : Chain) (round : P2pResolvedRound) (signals : Signals) : Chain :=
  match plan.boundWorkflow with
  | some workflow => plan.advanceCompiled workflow c round signals
  | none => plan.advanceLegacy c round signals

/-- One turn of the loop. -/
def step (c : Chain) (outcome : Outcome) : Chain :=
  if c.ended.isSome then c
  else
    match plan.rounds[c.roundIndex]? with
    | none => { c with ended := some .completed }
    | some round =>
        let begun := { c with visited := c.visited ++ [round.id] }
        match outcome with
        | .stops => { c with ended := some .stopped }
        | .fails => { begun with ended := some .failed }
        | .scriptFails retriable =>
            if plan.isScriptRound round then begun.retryScript round retriable
            else { begun with ended := some .failed }
        | .done verdict routingKey logicMarker =>
            plan.advance begun round (plan.signals round verdict routingKey logicMarker)

end Plan

/-! ## Runs -/

/-- The plan of a compiled workflow, if its rounds are accepted. -/
def compiledPlan (workflow : P2pCompiledWorkflow) : Except String Plan :=
  (resolveP2pRoundPlan (compiledWorkflowToLegacyAdvancedRounds workflow)).map fun rounds =>
    { rounds, boundWorkflow := some workflow }

/-- The plan of rounds that are not compiled. -/
def legacyPlan (advancedRounds : List P2pAdvancedRound) : Except String Plan :=
  (resolveP2pRoundPlan advancedRounds).map fun rounds => { rounds, boundWorkflow := none }

/-- A run of a plan. -/
def Plan.run (plan : Plan) (outcomes : List Outcome) : Chain := Machine.run plan.step outcomes {}

end Imcodes.Workflow
