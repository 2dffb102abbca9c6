import Imcodes.Collections.PlainObject
import Imcodes.Queue.Types
import Mathlib.Data.List.Lex
import Mathlib.Data.Rat.Defs

/-!
# Workflow drafts and compiled workflows

The records of a workflow as a user writes it, of the workflow that the compiler
makes of it, and of the diagnostics that validation and compilation give.

A number is a rational number, which is what every number in a JSON text is.
-/

namespace Imcodes.Workflow

/-! ## Texts and numbers -/

/-- `TextEncoder.encode(value).byteLength` -/
def byteLength (value : String) : Nat := value.utf8ByteSize

/-- The UTF-16 code units of a text. -/
def codeUnits (value : String) : List Nat :=
  value.toList.flatMap fun c =>
    if c.toNat < 0x10000 then [c.toNat]
    else [0xd800 + (c.toNat - 0x10000) / 0x400, 0xdc00 + (c.toNat - 0x10000) % 0x400]

/-- `value.length` -/
def jsLength (value : String) : Nat := (codeUnits value).length

/-- `values.sort()`, which orders texts by their code units. -/
def jsSort (values : List String) : List String :=
  values.insertionSort fun a b => codeUnits a ≤ codeUnits b

@[simp] theorem mem_jsSort {value : String} {values : List String} :
    value ∈ jsSort values ↔ value ∈ values := by
  simp [jsSort]

/-- `Number.isInteger` -/
def isInteger (value : ℚ) : Bool := value.den = 1

/-! ## Enumerations -/

inductive P2pNodeKind
  | llm | logic | script
deriving DecidableEq

inductive P2pPresetKey
  | brainstorm | discuss | audit | review | plan | openspecPropose | proposalAudit | implementation
  | implementationAudit | custom
deriving DecidableEq

def P2pPresetKey.text : P2pPresetKey → String
  | brainstorm => "brainstorm"
  | discuss => "discuss"
  | audit => "audit"
  | review => "review"
  | plan => "plan"
  | openspecPropose => "openspec_propose"
  | proposalAudit => "proposal_audit"
  | implementation => "implementation"
  | implementationAudit => "implementation_audit"
  | custom => "custom"

inductive P2pNodeDispatchStyle
  | singleMain | multiDispatch
deriving DecidableEq

inductive P2pEdgeKind
  | default | conditional
deriving DecidableEq

inductive P2pEdgeConditionKind
  | routingKeyEquals | verdictMarkerEquals | logicMarkerEquals
deriving DecidableEq

inductive P2pPermissionScope
  | analysisOnly | artifactGeneration | implementation
deriving DecidableEq

def P2pPermissionScope.text : P2pPermissionScope → String
  | analysisOnly => "analysis_only"
  | artifactGeneration => "artifact_generation"
  | implementation => "implementation"

inductive P2pArtifactConvention
  | none | explicitPaths | openspecConvention
deriving DecidableEq

inductive P2pStartContextSourceKind
  | currentPrompt | associatedDiscussionFile | recentDiscussionHistory | fileReference
deriving DecidableEq

/-! ## Parts of a node -/

inductive P2pWorkflowVariableValue
  | string (value : String)
  /-- A number, by its JSON text. -/
  | number (text : String)
  | boolean (value : Bool)
  | strings (values : List String)
deriving DecidableEq

structure P2pWorkflowVariableDefinition where
  name : String
  value : P2pWorkflowVariableValue
deriving DecidableEq

inductive P2pScriptCommandKind
  | argv | interpreter
deriving DecidableEq

structure P2pScriptCaps where
  stdinBytes : Option ℚ := none
  stdoutBytes : Option ℚ := none
  stderrBytes : Option ℚ := none
  machineOutputBytes : Option ℚ := none
deriving DecidableEq

structure P2pScriptNodeContract where
  commandKind : P2pScriptCommandKind
  argv : List String
  interpreter : Option String := none
  stdin : Option String := none
  envAllowlist : Option (List String) := none
  requiredMachineOutput : Option Bool := none
  timeoutMs : Option ℚ := none
  caps : Option P2pScriptCaps := none
deriving DecidableEq

inductive P2pLogicConditionKind
  | variableEquals (equals : String) | variablePresent | variableTruthy
deriving DecidableEq

structure P2pLogicCondition where
  kind : P2pLogicConditionKind
  name : String
deriving DecidableEq

structure P2pLogicRule where
  condition : Option P2pLogicCondition := none
  emit : String
deriving DecidableEq

structure P2pLogicNodeContract where
  rules : List P2pLogicRule
  default : String
deriving DecidableEq

inductive P2pSymlinkPolicy
  | rejectAll | allowExistingUnderRoot
deriving DecidableEq

structure P2pArtifactContract where
  convention : P2pArtifactConvention
  paths : List String
  permissionScope : Option P2pPermissionScope := none
  symlinkPolicy : Option P2pSymlinkPolicy := none
deriving DecidableEq

inductive P2pRoutingAuthority
  | none
  | auditVerdictMarker (allowedMarkers : List String)
  | logicMarker (allowedMarkers : List String)
  | scriptRoutingKey (allowedKeys : List String)
deriving DecidableEq

/-! ## Drafts -/

structure P2pWorkflowEdgeCondition where
  kind : P2pEdgeConditionKind
  equals : String
deriving DecidableEq

structure P2pWorkflowEdgeDraft where
  id : String
  fromNodeId : String
  toNodeId : String
  edgeKind : P2pEdgeKind
  condition : Option P2pWorkflowEdgeCondition := none
deriving DecidableEq

structure P2pWorkflowNodeDraft where
  id : String
  title : Option String := none
  nodeKind : P2pNodeKind
  preset : P2pPresetKey
  dispatchStyle : Option P2pNodeDispatchStyle := none
  permissionScope : Option P2pPermissionScope := none
  promptAppend : Option String := none
  summaryPromptOverride : Option String := none
  routingAuthority : Option P2pRoutingAuthority := none
  script : Option P2pScriptNodeContract := none
  logic : Option P2pLogicNodeContract := none
  artifacts : Option (List P2pArtifactContract) := none
deriving DecidableEq

structure P2pDiscussionOffset where
  byteOffset : ℚ
  sha256Prefix : String
  sizeAtOffset : ℚ
deriving DecidableEq

structure P2pWorkflowStartContextSource where
  kind : P2pStartContextSourceKind
  id : String
  path : Option String := none
  maxBytes : Option ℚ := none
  order : Option ℚ := none
  discussionOffset : Option P2pDiscussionOffset := none
deriving DecidableEq

structure P2pWorkflowStartContext where
  sources : List P2pWorkflowStartContextSource
  maxTotalBytes : Option ℚ := none
deriving DecidableEq

structure P2pWorkflowDraft where
  schemaVersion : Nat := 1
  id : String
  title : Option String := none
  nodes : List P2pWorkflowNodeDraft
  edges : List P2pWorkflowEdgeDraft
  rootNodeId : Option String := none
  startContext : Option P2pWorkflowStartContext := none
  «variables» : Option (List P2pWorkflowVariableDefinition) := none
  loopBudgets : Option (PlainObject ℚ) := none

/-! ## Compiled workflows -/

structure P2pCompiledNode where
  id : String
  title : Option String
  nodeKind : P2pNodeKind
  preset : P2pPresetKey
  dispatchStyle : Option P2pNodeDispatchStyle
  permissionScope : P2pPermissionScope
  promptAppend : Option String
  summaryPromptOverride : Option String
  routingAuthority : P2pRoutingAuthority
  script : Option P2pScriptNodeContract
  logic : Option P2pLogicNodeContract
  artifacts : List P2pArtifactContract
deriving DecidableEq

abbrev P2pCompiledEdge := P2pWorkflowEdgeDraft

structure P2pCompiledWorkflow where
  workflowId : String
  rootNodeId : String
  nodes : List P2pCompiledNode
  edges : List P2pCompiledEdge
  «variables» : List P2pWorkflowVariableDefinition
  loopBudgets : PlainObject ℚ
  derivedRequiredCapabilities : List String

/-! ## Policies -/

structure P2pPolicyConcurrency where
  maxAdvancedRuns : ℚ
  maxScripts : ℚ
deriving DecidableEq

structure P2pStaticPolicy where
  maxNodes : ℚ
  maxEdges : ℚ
  maxLoopBudget : ℚ
  allowedExecutables : List String
  allowInterpreterScripts : Bool
  allowOpenSpecArtifacts : Bool
  allowImplementationPermission : Bool
  maxPromptAppendBytes : ℚ
  concurrency : P2pPolicyConcurrency
deriving DecidableEq

/-! ## Diagnostics -/

inductive P2pWorkflowDiagnosticCode
  | unsupportedSchemaVersion | mixedAdvancedSchemaFields | forbiddenEnvelopeField
  | staticPolicyMismatchRecompiled | missingRequiredCapability | capabilityDowngradedDuringRun
  | invalidLaunchEnvelope | invalidWorkflowGraph | invalidRoutingAuthority | invalidEdgeCondition
  | invalidWorkflowVariable | invalidPromptAppend | missingContextSource | contextSourceTooLarge
  | unsafeArtifactPath | invalidScriptContract | scriptExecutableDenied | daemonBusy
  | scriptMachineOutputInvalid | unmatchedEdgeRoute
deriving DecidableEq

inductive P2pWorkflowDiagnosticPhase
  | parse | compile | bind | execute | webValidate
deriving DecidableEq

inductive P2pWorkflowDiagnosticSeverity
  | warning | error
deriving DecidableEq

structure P2pWorkflowDiagnostic where
  code : P2pWorkflowDiagnosticCode
  phase : P2pWorkflowDiagnosticPhase
  severity : P2pWorkflowDiagnosticSeverity
  summary : Option String := none
  nodeId : Option String := none
  runId : Option String := none
  fieldPath : Option String := none
deriving DecidableEq

/-- What a diagnostic may say besides its code and phase. -/
structure DiagnosticExtras where
  summary : Option String := none
  nodeId : Option String := none
  runId : Option String := none
  fieldPath : Option String := none

/-- The codes that are warnings, of those that occur here. -/
def P2pWorkflowDiagnosticCode.isWarning (code : P2pWorkflowDiagnosticCode) : Bool :=
  code = .staticPolicyMismatchRecompiled

def makeP2pWorkflowDiagnostic (code : P2pWorkflowDiagnosticCode)
    (phase : P2pWorkflowDiagnosticPhase) (extras : DiagnosticExtras := {}) :
    P2pWorkflowDiagnostic :=
  { code, phase
    severity := if code.isWarning then .warning else .error
    summary := extras.summary
    nodeId := extras.nodeId
    runId := extras.runId
    fieldPath := extras.fieldPath }

/-- `diagnostics.some((diagnostic) => diagnostic.severity === 'error')` -/
def hasError (diagnostics : List P2pWorkflowDiagnostic) : Bool :=
  diagnostics.any (·.severity = .error)

theorem hasError_append {a b : List P2pWorkflowDiagnostic} :
    hasError (a ++ b) = (hasError a || hasError b) := List.any_append

end Imcodes.Workflow
