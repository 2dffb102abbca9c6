import Imcodes.Workflow.Types
import Mathlib.Algebra.GroupWithZero.Nat

/-!
# Validating a draft

What `validateP2pWorkflowDraft` asks of a draft that has the shape of one.  The
checks of a value's type are the types of the model, so a check stands here when
a value of the right type can fail it.
-/

namespace Imcodes.Workflow

open Imcodes.Queue (jsTrim)

/-! ## Limits -/

def p2pWorkflowSchemaVersion : Nat := 1
def p2pWorkflowMaxVariables : Nat := 64
def p2pWorkflowMaxVariableBytes : Nat := 8 * 1024
def p2pWorkflowMaxPromptAppendBytes : Nat := 16 * 1024
def p2pWorkflowArtifactMaxFiles : Nat := 200
def p2pWorkflowArtifactMaxDepth : Nat := 8
def p2pScriptDefaultStdinMaxBytes : ℚ := 64 * 1024
def shortTextMaxBytes : Nat := 4 * 1024
def startContextSourceMaxBytes : ℚ := 512 * 1024
def startContextTotalMaxBytes : ℚ := 1024 * 1024
def p2pLogicMaxRules : Nat := 32
def p2pLogicMaxMarkerBytes : Nat := 128

/-! ## Characters -/

def isLower (c : Char) : Bool := 'a' ≤ c && c ≤ 'z'
def isUpper (c : Char) : Bool := 'A' ≤ c && c ≤ 'Z'
def isDigit (c : Char) : Bool := '0' ≤ c && c ≤ '9'

/-- `/^[first][rest]{0,most}$/` -/
def matchesName (first rest : Char → Bool) (most : Nat) (value : String) : Bool :=
  match value.toList with
  | [] => false
  | c :: cs => first c && cs.all rest && cs.length ≤ most

/-- `VARIABLE_NAME_RE` -/
def isVariableName (value : String) : Bool :=
  matchesName isLower (fun c => isLower c || isDigit c || c = '_') 63 value

def isSafeEnvironmentName (value : String) : Bool :=
  matchesName (fun c => isUpper c || c = '_') (fun c => isUpper c || isDigit c || c = '_') 127 value

/-- `/^[\x21-\x7e]+$/` -/
def isVisibleAscii (value : String) : Bool :=
  value ≠ "" && value.toList.all fun c => '!' ≤ c && c ≤ '~'

/-- `input.trim() === ''` -/
def isBlank (value : String) : Bool := jsTrim value = ""

/-! ## Variables -/

/-- How many bytes a character takes in a JSON text. -/
def jsonCharBytes (c : Char) : Nat :=
  if c ∈ ['"', '\\', '\x08', '\x0c', '\n', '\r', '\t'] then 2
  else if c < ' ' then 6
  else c.utf8Size

/-- `byteLength(JSON.stringify(value))` of a text. -/
def jsonTextBytes (value : String) : Nat := 2 + (value.toList.map jsonCharBytes).sum

def encodedJsonByteLength : P2pWorkflowVariableValue → Nat
  | .string value => jsonTextBytes value
  | .number text => byteLength text
  | .boolean value => if value then 4 else 5
  | .strings values => 2 + (values.map jsonTextBytes).sum + (values.length - 1)

def validateVariable (seen : List String) (index : Nat) (variable' : P2pWorkflowVariableDefinition) :
    List P2pWorkflowDiagnostic :=
  (if !isVariableName variable'.name then
    [makeP2pWorkflowDiagnostic .invalidWorkflowVariable .compile
      { fieldPath := s!"variables[{index}].name" }]
  else if variable'.name ∈ seen then
    [makeP2pWorkflowDiagnostic .invalidWorkflowVariable .compile
      { fieldPath := s!"variables[{index}].name", summary := "Duplicate workflow variable." }]
  else []) ++
  (if encodedJsonByteLength variable'.value > p2pWorkflowMaxVariableBytes then
    [makeP2pWorkflowDiagnostic .invalidWorkflowVariable .compile
      { fieldPath := s!"variables[{index}].value"
        summary := "Workflow variable exceeds byte limit." }]
  else [])

def validateP2pWorkflowVariables (input : List P2pWorkflowVariableDefinition) :
    List P2pWorkflowDiagnostic :=
  (if input.length > p2pWorkflowMaxVariables then
    [makeP2pWorkflowDiagnostic .invalidWorkflowVariable .compile
      { summary := "Too many workflow variables." }]
  else []) ++
  input.zipIdx.flatMap fun (variable', index) =>
    -- a name that is not valid is never seen, and is no valid name's duplicate
    validateVariable ((input.take index).map (·.name)) index variable'

/-! ## Nodes -/

/-- `normalizeScriptCaps`, as far as it fails. -/
def P2pScriptCaps.areValid (caps : P2pScriptCaps) : Bool :=
  [caps.stdinBytes, caps.stdoutBytes, caps.stderrBytes, caps.machineOutputBytes].reduceOption.all
    fun cap => isInteger cap && 0 ≤ cap

def P2pScriptNodeContract.stdinMaxBytes (script : P2pScriptNodeContract) : ℚ :=
  (script.caps.bind (·.stdinBytes)).getD p2pScriptDefaultStdinMaxBytes

def invalidScriptContract (fieldPath : String) : List P2pWorkflowDiagnostic :=
  [makeP2pWorkflowDiagnostic .invalidScriptContract .compile { fieldPath }]

def validateP2pScriptContract (input : Option P2pScriptNodeContract) (fieldPath : String) :
    List P2pWorkflowDiagnostic :=
  match input with
  | none => invalidScriptContract fieldPath
  | some script =>
      if script.argv.head?.getD "" = "" then invalidScriptContract (fieldPath ++ ".argv")
      else if script.commandKind = .interpreter ∧ script.interpreter.getD "" = "" then
        invalidScriptContract (fieldPath ++ ".interpreter")
      else if script.caps.any (!·.areValid) then invalidScriptContract (fieldPath ++ ".caps")
      else if script.stdin.any fun stdin => (byteLength stdin : ℚ) > script.stdinMaxBytes then
        invalidScriptContract (fieldPath ++ ".stdin")
      else if script.envAllowlist.any (!·.all isSafeEnvironmentName) then
        invalidScriptContract (fieldPath ++ ".envAllowlist")
      else if script.timeoutMs.any fun timeoutMs => !isInteger timeoutMs || timeoutMs ≤ 0 then
        invalidScriptContract (fieldPath ++ ".timeoutMs")
      else []

/-- The parts of a path. -/
def pathSegments (path : String) : List (List Char) := path.toList.splitOn '/'

/-- `/^[a-zA-Z]:/` -/
def startsWithDrive (path : String) : Bool :=
  match path.toList with
  | c :: ':' :: _ => isLower c || isUpper c
  | _ => false

def isP2pArtifactRelativePath (path : String) : Bool :=
  !(path = "" || '\x00' ∈ path.toList ||
    path.toList.head? = some '/' || path.toList.head? = some '~' || '\\' ∈ path.toList ||
    startsWithDrive path) &&
  (pathSegments path).all fun segment => !(segment = [] || segment = ['.'] || segment = ['.', '.'])

def getP2pArtifactPathDepth (path : String) : Nat := ((pathSegments path).filter (· ≠ [])).length

def validateP2pArtifactContract (artifact : P2pArtifactContract) (fieldPath : String) :
    List P2pWorkflowDiagnostic :=
  if artifact.paths = [] ∨ artifact.paths.length > p2pWorkflowArtifactMaxFiles then
    [makeP2pWorkflowDiagnostic .unsafeArtifactPath .compile { fieldPath := fieldPath ++ ".paths" }]
  else
    artifact.paths.zipIdx.flatMap fun (path, index) =>
      if !isP2pArtifactRelativePath path ||
          getP2pArtifactPathDepth path > p2pWorkflowArtifactMaxDepth then
        [makeP2pWorkflowDiagnostic .unsafeArtifactPath .compile
          { fieldPath := s!"{fieldPath}.paths[{index}]" }]
      else []

/-- The scope of a node whose author gave none. -/
def P2pWorkflowNodeDraft.scope (node : P2pWorkflowNodeDraft) : P2pPermissionScope :=
  node.permissionScope.getD .analysisOnly

/-- `node.artifacts ?? []` -/
def P2pWorkflowNodeDraft.artifactList (node : P2pWorkflowNodeDraft) : List P2pArtifactContract :=
  node.artifacts.getD []

def P2pArtifactContract.isOpenspec (artifact : P2pArtifactContract) : Bool :=
  artifact.convention = .openspecConvention

/-- `make` of `validateNodeCombination` -/
def combinationDiagnostic (fieldPath : String) (subPath : Option String) (summary : String) :
    P2pWorkflowDiagnostic :=
  makeP2pWorkflowDiagnostic .invalidWorkflowGraph .compile
    { fieldPath := match subPath with
        | some subPath => s!"{fieldPath}.{subPath}"
        | none => fieldPath
      summary }

def validateNodeCombination (node : P2pWorkflowNodeDraft) (fieldPath : String) :
    List P2pWorkflowDiagnostic :=
  let scope := node.scope
  let requiresScope (required : P2pPermissionScope) : List P2pWorkflowDiagnostic :=
    if scope = required then []
    else [combinationDiagnostic fieldPath "permissionScope"
      (s!"preset '{node.preset.text}' requires permissionScope='{required.text}' " ++
        s!"(got '{scope.text}').")]
  match node.nodeKind with
  | .logic =>
      (if node.preset ≠ .custom then
        [combinationDiagnostic fieldPath "preset"
          s!"logic node requires preset='custom' (got '{node.preset.text}')."]
      else []) ++
      (if scope ≠ .analysisOnly then
        [combinationDiagnostic fieldPath "permissionScope"
          s!"logic node requires permissionScope='analysis_only' (got '{scope.text}')."]
      else [])
  | .script =>
      if node.preset = .custom then []
      else [combinationDiagnostic fieldPath "preset"
        s!"script node requires preset='custom' (got '{node.preset.text}')."]
  | .llm =>
      match node.preset with
      | .audit | .proposalAudit | .implementationAudit => requiresScope .analysisOnly
      | .openspecPropose =>
          if scope ≠ .artifactGeneration then requiresScope .artifactGeneration
          else if !node.artifactList.any (·.isOpenspec) then
            [combinationDiagnostic fieldPath "artifacts"
              ("preset 'openspec_propose' requires an artifact with " ++
                "convention='openspec_convention'.")]
          else []
      | .implementation => requiresScope .implementation
      | .brainstorm | .discuss | .review | .plan | .custom =>
          match scope with
          | .analysisOnly => []
          | .artifactGeneration =>
              if node.artifactList ≠ [] then []
              else [combinationDiagnostic fieldPath "artifacts"
                ("permissionScope='artifact_generation' requires at least one artifact " ++
                  "contract.")]
          | .implementation =>
              [combinationDiagnostic fieldPath none
                ("Invalid nodeKind/preset/permissionScope combination: " ++
                  s!"llm/{node.preset.text}/{scope.text}.")]

/-- A text that is too long to be put into a prompt. -/
def validatePromptText (value : Option String) (fieldPath : String) : List P2pWorkflowDiagnostic :=
  if value.any fun value => byteLength value > p2pWorkflowMaxPromptAppendBytes then
    [makeP2pWorkflowDiagnostic .invalidPromptAppend .compile { fieldPath }]
  else []

def validateNodeDraft (node : P2pWorkflowNodeDraft) (fieldPath : String) :
    List P2pWorkflowDiagnostic :=
  (if isBlank node.id then
    [makeP2pWorkflowDiagnostic .invalidWorkflowGraph .compile { fieldPath := fieldPath ++ ".id" }]
  else []) ++
  validateNodeCombination node fieldPath ++
  validatePromptText node.promptAppend (fieldPath ++ ".promptAppend") ++
  validatePromptText node.summaryPromptOverride (fieldPath ++ ".summaryPromptOverride") ++
  (if node.nodeKind = .script then validateP2pScriptContract node.script (fieldPath ++ ".script")
  else if node.script.isSome then invalidScriptContract (fieldPath ++ ".script")
  else []) ++
  node.artifactList.zipIdx.flatMap fun (artifact, index) =>
    validateP2pArtifactContract artifact s!"{fieldPath}.artifacts[{index}]"

/-! ## Edges -/

def validateEdgeCondition (input : Option P2pWorkflowEdgeCondition) (fieldPath : String) :
    List P2pWorkflowDiagnostic :=
  match input with
  | none => [makeP2pWorkflowDiagnostic .invalidEdgeCondition .compile { fieldPath }]
  | some condition =>
      if condition.equals = "" then
        [makeP2pWorkflowDiagnostic .invalidEdgeCondition .compile
          { fieldPath := fieldPath ++ ".equals" }]
      else []

def validateEdgeDraft (edge : P2pWorkflowEdgeDraft) (fieldPath : String) :
    List P2pWorkflowDiagnostic :=
  ([("id", edge.id), ("fromNodeId", edge.fromNodeId), ("toNodeId", edge.toNodeId)].flatMap
    fun (key, value) =>
      if isBlank value then
        [makeP2pWorkflowDiagnostic .invalidWorkflowGraph .compile
          { fieldPath := s!"{fieldPath}.{key}" }]
      else []) ++
  (if edge.edgeKind = .conditional then
    validateEdgeCondition edge.condition (fieldPath ++ ".condition")
  else [])

/-! ## Start contexts -/

/-- `/^[a-f0-9]{8,64}$/i` -/
def isSha256Prefix (value : String) : Bool :=
  (value.toList.all fun c => isDigit c || ('a' ≤ c && c ≤ 'f') || ('A' ≤ c && c ≤ 'F')) &&
    8 ≤ value.toList.length && value.toList.length ≤ 64

def validateDiscussionOffset (input : P2pDiscussionOffset) (fieldPath : String) :
    List P2pWorkflowDiagnostic :=
  let missing (key : String) : P2pWorkflowDiagnostic :=
    makeP2pWorkflowDiagnostic .missingContextSource .bind { fieldPath := s!"{fieldPath}.{key}" }
  (if !isInteger input.byteOffset || input.byteOffset < 0 then [missing "byteOffset"] else []) ++
  (if !isSha256Prefix input.sha256Prefix then [missing "sha256Prefix"] else []) ++
  (if !isInteger input.sizeAtOffset || input.sizeAtOffset < 0 then [missing "sizeAtOffset"] else [])

/-- A size that is no integer between 0 and the limit. -/
def validateSize (value : Option ℚ) (limit : ℚ) (fieldPath : String) :
    List P2pWorkflowDiagnostic :=
  if value.any fun value => !isInteger value || value < 0 || value > limit then
    [makeP2pWorkflowDiagnostic .contextSourceTooLarge .bind { fieldPath }]
  else []

def validateStartContextSource (seen : List String) (source : P2pWorkflowStartContextSource)
    (sourcePath : String) : List P2pWorkflowDiagnostic :=
  (if isBlank source.id || byteLength source.id > shortTextMaxBytes || source.id ∈ seen then
    [makeP2pWorkflowDiagnostic .missingContextSource .bind { fieldPath := sourcePath ++ ".id" }]
  else []) ++
  validateSize source.maxBytes startContextSourceMaxBytes (sourcePath ++ ".maxBytes") ++
  (if source.order.any (!isInteger ·) then
    [makeP2pWorkflowDiagnostic .missingContextSource .bind { fieldPath := sourcePath ++ ".order" }]
  else []) ++
  (if source.path.any (!isP2pArtifactRelativePath ·) ||
      (source.kind = .fileReference && source.path.isNone) then
    [makeP2pWorkflowDiagnostic .unsafeArtifactPath .bind { fieldPath := sourcePath ++ ".path" }]
  else []) ++
  (match source.discussionOffset with
  | none => []
  | some offset => validateDiscussionOffset offset (sourcePath ++ ".discussionOffset"))

def validateP2pWorkflowStartContext (context : P2pWorkflowStartContext) (fieldPath : String) :
    List P2pWorkflowDiagnostic :=
  validateSize context.maxTotalBytes startContextTotalMaxBytes (fieldPath ++ ".maxTotalBytes") ++
  context.sources.zipIdx.flatMap fun (source, index) =>
    validateStartContextSource ((context.sources.take index).map (·.id)) source
      s!"{fieldPath}.sources[{index}]"

/-! ## Drafts -/

/-- The diagnostics of `validateP2pWorkflowDraft`. -/
def validateP2pWorkflowDraft (draft : P2pWorkflowDraft) : List P2pWorkflowDiagnostic :=
  if draft.schemaVersion ≠ p2pWorkflowSchemaVersion then
    [makeP2pWorkflowDiagnostic .unsupportedSchemaVersion .compile { fieldPath := "schemaVersion" }]
  else
    (if isBlank draft.id then
      [makeP2pWorkflowDiagnostic .invalidWorkflowGraph .compile { fieldPath := "id" }]
    else []) ++
    (if draft.nodes = [] then
      [makeP2pWorkflowDiagnostic .invalidWorkflowGraph .compile { fieldPath := "nodes" }]
    else draft.nodes.zipIdx.flatMap fun (node, index) => validateNodeDraft node s!"nodes[{index}]") ++
    draft.edges.zipIdx.flatMap (fun (edge, index) => validateEdgeDraft edge s!"edges[{index}]") ++
    (match draft.«variables» with
    | none => []
    | some input => validateP2pWorkflowVariables input) ++
    (match draft.startContext with
    | none => []
    | some context => validateP2pWorkflowStartContext context "startContext")

end Imcodes.Workflow
