import Imcodes.Workflow.Types

/-!
# Advanced rounds

The rounds of an advanced run as they are configured, what is asked of them, and
the plan that a run is started with.  The prompts that a round is given are left
out.
-/

namespace Imcodes.Workflow

open Imcodes.Queue (jsTrim)

inductive P2pRoundPreset
  | discussion | openspecPropose | proposalAudit | implementation | implementationAudit | custom
deriving DecidableEq

inductive P2pRoundExecutionMode
  | singleMain | multiDispatch
deriving DecidableEq

inductive P2pRoundVerdictPolicy
  | none | smartGate | forcedRework
deriving DecidableEq

inductive P2pVerdictMarker
  | pass | rework
deriving DecidableEq

def P2pVerdictMarker.text : P2pVerdictMarker → String
  | pass => "PASS"
  | rework => "REWORK"

inductive P2pDispatchStyle
  | initiatorOnly | workerHops
deriving DecidableEq

inductive P2pSynthesisStyle
  | none | initiatorSummary
deriving DecidableEq

inductive P2pVerdictWriter
  | initiatorSummary | initiatorOnly
deriving DecidableEq

/-- The conventions of a round; a compiled node's `explicit_paths` is passed on as it is. -/
inductive P2pRoundArtifactConvention
  | none | explicit | explicitPaths | openspecConvention
deriving DecidableEq

structure P2pAdvancedJumpRule where
  targetRoundId : String
  marker : Option P2pVerdictMarker := none
  minTriggers : ℚ
  /-- Left out if it is no number, which a copy by way of a JSON text does not keep. -/
  maxTriggers : Option ℚ
deriving DecidableEq

structure P2pAdvancedRound where
  id : String
  title : String
  preset : P2pRoundPreset
  executionMode : P2pRoundExecutionMode
  permissionScope : P2pPermissionScope
  timeoutMinutes : Option ℚ := none
  artifactOutputs : Option (List String) := none
  promptAppend : Option String := none
  verdictPolicy : Option P2pRoundVerdictPolicy := none
  jumpRule : Option P2pAdvancedJumpRule := none
  nodeKind : Option P2pNodeKind := none
  script : Option P2pScriptNodeContract := none
  routingAuthority : Option P2pRoutingAuthority := none
  artifactConvention : Option P2pRoundArtifactConvention := none
deriving DecidableEq

structure P2pResolvedRound where
  id : String
  title : String
  preset : P2pRoundPreset
  executionMode : P2pRoundExecutionMode
  permissionScope : P2pPermissionScope
  timeoutMinutes : ℚ
  timeoutMs : ℚ
  promptAppend : String
  verdictPolicy : P2pRoundVerdictPolicy
  jumpRule : Option P2pAdvancedJumpRule
  dispatchStyle : P2pDispatchStyle
  synthesisStyle : P2pSynthesisStyle
  requiresVerdict : Bool
  authoritativeVerdictWriter : Option P2pVerdictWriter
  allowRouting : Bool
  artifactOutputs : List String
  artifactConvention : P2pRoundArtifactConvention
  nodeKind : Option P2pNodeKind
  script : Option P2pScriptNodeContract
  routingAuthority : Option P2pRoutingAuthority
deriving DecidableEq

def defaultHopTimeoutMinutes : ℚ := 8

namespace P2pAdvancedRound

variable (round : P2pAdvancedRound)

/-- `round.artifactOutputs ?? []` -/
def outputs : List String := round.artifactOutputs.getD []

/-- `round.verdictPolicy ?? 'none'` -/
def policy : P2pRoundVerdictPolicy := round.verdictPolicy.getD .none

def defaultArtifactConvention : P2pRoundArtifactConvention :=
  if round.preset = .openspecPropose ∧ round.outputs = [] then .openspecConvention
  else if round.permissionScope = .artifactGeneration then .explicit
  else .none

def convention : P2pRoundArtifactConvention :=
  round.artifactConvention.getD round.defaultArtifactConvention

end P2pAdvancedRound

def normalizeAdvancedRound (round : P2pAdvancedRound) : P2pResolvedRound :=
  let requiresVerdict := round.policy ≠ .none
  { id := round.id
    title := round.title
    preset := round.preset
    executionMode := round.executionMode
    permissionScope := round.permissionScope
    timeoutMinutes := round.timeoutMinutes.getD defaultHopTimeoutMinutes
    timeoutMs := round.timeoutMinutes.getD defaultHopTimeoutMinutes * 60000
    promptAppend := (round.promptAppend.map jsTrim).getD ""
    verdictPolicy := round.policy
    jumpRule := round.jumpRule
    dispatchStyle :=
      if round.executionMode = .singleMain then .initiatorOnly else .workerHops
    synthesisStyle :=
      if round.executionMode = .multiDispatch then .initiatorSummary else .none
    requiresVerdict
    authoritativeVerdictWriter :=
      if requiresVerdict then
        some (if round.executionMode = .multiDispatch then .initiatorSummary else .initiatorOnly)
      else none
    allowRouting := round.preset ≠ .proposalAudit && requiresVerdict && round.jumpRule.isSome
    artifactOutputs :=
      if round.convention = .openspecConvention ∧ round.outputs = [] then ["openspec/changes"]
      else round.outputs
    artifactConvention := round.convention
    nodeKind := round.nodeKind
    script := round.script
    routingAuthority := round.routingAuthority }

/-! ## What is asked of rounds -/

/-- The error that `validateAdvancedRoundIds` throws. -/
def validateAdvancedRoundIds (rounds : List P2pAdvancedRound) : Option String :=
  rounds.zipIdx.findSome? fun (round, index) =>
    if jsTrim round.id = "" then some "Advanced P2P round ids must be non-empty"
    else if round.id ∈ (rounds.take index).map (·.id) then
      some s!"Duplicate advanced P2P round id: {round.id}"
    else none

/-- `value < bound`, which is false of what is no number. -/
def isBelow (value : Option ℚ) (bound : ℚ) : Bool := value.any (· < bound)

/-- `rounds.findIndex((entry) => entry.id === id)` -/
def roundIndexOf (rounds : List P2pAdvancedRound) (id : String) : Nat :=
  rounds.findIdx (·.id = id)

def forcedReworkError (round : P2pAdvancedRound) : Option String :=
  if round.policy = .forcedRework then
    match round.jumpRule with
    | none => some s!"forced_rework round \"{round.id}\" requires a jumpRule"
    | some jumpRule =>
        if jumpRule.minTriggers < 0 then
          some s!"forced_rework round \"{round.id}\" has invalid minTriggers"
        else if isBelow jumpRule.maxTriggers jumpRule.minTriggers then
          some s!"forced_rework round \"{round.id}\" has invalid maxTriggers"
        else none
  else none

def jumpRuleError (rounds : List P2pAdvancedRound) (round : P2pAdvancedRound) : Option String :=
  match round.jumpRule with
  | none => none
  | some jumpRule =>
      if jumpRule.targetRoundId ∉ rounds.map (·.id) then
        some s!"Round \"{round.id}\" jumps to unknown target \"{jumpRule.targetRoundId}\""
      else if roundIndexOf rounds jumpRule.targetRoundId ≥ roundIndexOf rounds round.id then
        some s!"Round \"{round.id}\" must jump backward to an earlier round"
      else if round.preset = .proposalAudit then
        some "proposal_audit cannot drive routing in v1"
      else none

/-- The error for one round. -/
def advancedRoundError (rounds : List P2pAdvancedRound) (round : P2pAdvancedRound) :
    Option String :=
  if round.permissionScope = .artifactGeneration ∧ round.convention = .explicit ∧
      round.outputs = [] then
    some s!"Artifact-generation round \"{round.id}\" must declare artifact outputs"
  else forcedReworkError round <|> jumpRuleError rounds round

/-- The error that `validateAdvancedRounds` throws. -/
def validateAdvancedRounds (rounds : List P2pAdvancedRound) : Option String :=
  validateAdvancedRoundIds rounds <|> rounds.findSome? (advancedRoundError rounds)

/-- `resolveP2pRoundPlan` of rounds, without a context reducer. -/
def resolveP2pRoundPlan (advancedRounds : List P2pAdvancedRound) :
    Except String (List P2pResolvedRound) :=
  if advancedRounds = [] then .error "Advanced P2P requires at least one round"
  else
    match validateAdvancedRounds advancedRounds with
    | some error => .error error
    | none => .ok (advancedRounds.map normalizeAdvancedRound)

/-! ## Plans that are accepted -/

/-- What is asked of rounds. -/
structure Plannable (rounds : List P2pAdvancedRound) : Prop where
  ne_nil : rounds ≠ []
  nonblank : ∀ round ∈ rounds, jsTrim round.id ≠ ""
  nodup : (rounds.map (·.id)).Nodup
  error : ∀ round ∈ rounds, advancedRoundError rounds round = none

end Imcodes.Workflow
