import Imcodes.Workflow.Budgets
import Imcodes.Workflow.StableHash

/-!
# Compilation is canonical

What a compiled workflow's contract hash is made of, and that neither it nor the workflow depends
on the order in which a draft's author put things.

* `contractInput` — the object that is hashed.  Its edges, scripts and logic are objects of the
  draft, so their keys are in the author's order.
* `SameButOrder` — two drafts that differ in the order of their nodes, edges, variables and loop
  budgets.
* `compile_canonical` — **the workflow and its hash are the same** for two such drafts, whatever
  the order of keys in the objects that are hashed.

The comparison of texts is a parameter, which is an order on the names that are compared.
-/

namespace Imcodes.Workflow

open Imcodes.Queue (Collation)

/-! ## Names of the enumerations -/

def P2pNodeKind.text : P2pNodeKind → String
  | llm => "llm"
  | logic => "logic"
  | script => "script"

def P2pNodeDispatchStyle.text : P2pNodeDispatchStyle → String
  | singleMain => "single_main"
  | multiDispatch => "multi_dispatch"

def P2pEdgeKind.text : P2pEdgeKind → String
  | default => "default"
  | conditional => "conditional"

def P2pEdgeConditionKind.text : P2pEdgeConditionKind → String
  | routingKeyEquals => "routing_key_equals"
  | verdictMarkerEquals => "verdict_marker_equals"
  | logicMarkerEquals => "logic_marker_equals"

def P2pArtifactConvention.text : P2pArtifactConvention → String
  | none => "none"
  | explicitPaths => "explicit_paths"
  | openspecConvention => "openspec_convention"

def P2pSymlinkPolicy.text : P2pSymlinkPolicy → String
  | rejectAll => "reject_all"
  | allowExistingUnderRoot => "allow_existing_under_root"

def P2pScriptCommandKind.text : P2pScriptCommandKind → String
  | argv => "argv"
  | interpreter => "interpreter"

/-! ## The object that is hashed -/

/-- `...(value ? { key: value } : {})` -/
def optionalField (key : String) (value : Option Json) : Fields :=
  (value.map fun value => (key, value)).toList

def stringsJson (values : List String) : Json := .array (values.map .string)

def P2pScriptCaps.json (caps : P2pScriptCaps) : Json :=
  .object (optionalField "stdinBytes" (caps.stdinBytes.map .number) ++
    optionalField "stdoutBytes" (caps.stdoutBytes.map .number) ++
    optionalField "stderrBytes" (caps.stderrBytes.map .number) ++
    optionalField "machineOutputBytes" (caps.machineOutputBytes.map .number))

def P2pScriptNodeContract.json (script : P2pScriptNodeContract) : Json :=
  .object ([("commandKind", .string script.commandKind.text), ("argv", stringsJson script.argv)] ++
    optionalField "interpreter" (script.interpreter.map .string) ++
    optionalField "stdin" (script.stdin.map .string) ++
    optionalField "envAllowlist" (script.envAllowlist.map stringsJson) ++
    optionalField "requiredMachineOutput" (script.requiredMachineOutput.map .bool) ++
    optionalField "timeoutMs" (script.timeoutMs.map .number) ++
    optionalField "caps" (script.caps.map (·.json)))

def P2pLogicCondition.json (condition : P2pLogicCondition) : Json :=
  match condition.kind with
  | .variableEquals equals =>
      .object [("kind", .string "variable_equals"), ("name", .string condition.name),
        ("equals", .string equals)]
  | .variablePresent =>
      .object [("kind", .string "variable_present"), ("name", .string condition.name)]
  | .variableTruthy =>
      .object [("kind", .string "variable_truthy"), ("name", .string condition.name)]

def P2pLogicRule.json (rule : P2pLogicRule) : Json :=
  .object (optionalField "if" (rule.condition.map (·.json)) ++ [("emit", .string rule.emit)])

def P2pLogicNodeContract.json (logic : P2pLogicNodeContract) : Json :=
  .object [("rules", .array (logic.rules.map (·.json))), ("default", .string logic.default)]

def P2pArtifactContract.json (artifact : P2pArtifactContract) : Json :=
  .object ([("convention", .string artifact.convention.text),
      ("paths", stringsJson artifact.paths)] ++
    optionalField "permissionScope" (artifact.permissionScope.map fun scope => .string scope.text) ++
    optionalField "symlinkPolicy" (artifact.symlinkPolicy.map fun policy => .string policy.text))

def P2pRoutingAuthority.json : P2pRoutingAuthority → Json
  | none => .object [("kind", .string "none")]
  | auditVerdictMarker allowedMarkers =>
      .object [("kind", .string "audit_verdict_marker"),
        ("allowedMarkers", stringsJson allowedMarkers)]
  | logicMarker allowedMarkers =>
      .object [("kind", .string "logic_marker"), ("allowedMarkers", stringsJson allowedMarkers)]
  | scriptRoutingKey allowedKeys =>
      .object [("kind", .string "script_routing_key"), ("allowedKeys", stringsJson allowedKeys)]

def P2pCompiledNode.json (node : P2pCompiledNode) : Json :=
  .object ([("id", .string node.id)] ++
    optionalField "title" (node.title.map .string) ++
    [("nodeKind", .string node.nodeKind.text), ("preset", .string node.preset.text)] ++
    optionalField "dispatchStyle" (node.dispatchStyle.map fun style => .string style.text) ++
    [("permissionScope", .string node.permissionScope.text)] ++
    optionalField "promptAppend" (node.promptAppend.map .string) ++
    optionalField "summaryPromptOverride" (node.summaryPromptOverride.map .string) ++
    [("routingAuthority", node.routingAuthority.json)] ++
    optionalField "script" (node.script.map (·.json)) ++
    optionalField "logic" (node.logic.map (·.json)) ++
    [("artifacts", .array (node.artifacts.map (·.json)))])

def P2pWorkflowEdgeCondition.json (condition : P2pWorkflowEdgeCondition) : Json :=
  .object [("kind", .string condition.kind.text), ("equals", .string condition.equals)]

def P2pWorkflowEdgeDraft.json (edge : P2pWorkflowEdgeDraft) : Json :=
  .object ([("id", .string edge.id), ("fromNodeId", .string edge.fromNodeId),
      ("toNodeId", .string edge.toNodeId), ("edgeKind", .string edge.edgeKind.text)] ++
    optionalField "condition" (edge.condition.map (·.json)))

/-- The value of a variable; a number is what its text says. -/
def P2pWorkflowVariableValue.json (numberOf : String → ℚ) : P2pWorkflowVariableValue → Json
  | string value => .string value
  | number text => .number (numberOf text)
  | boolean value => .bool value
  | strings values => stringsJson values

def P2pWorkflowVariableDefinition.json (numberOf : String → ℚ)
    (variable' : P2pWorkflowVariableDefinition) : Json :=
  .object [("name", .string variable'.name), ("value", variable'.value.json numberOf)]

/-- `contractInput` of `compileP2pWorkflowDraft` -/
def contractInput (numberOf : String → ℚ) (workflow : P2pCompiledWorkflow)
    (staticPolicyHash : String) : Json :=
  .object [("schemaVersion", .number p2pWorkflowSchemaVersion),
    ("workflowId", .string workflow.workflowId), ("rootNodeId", .string workflow.rootNodeId),
    ("nodes", .array (workflow.nodes.map (·.json))),
    ("edges", .array (workflow.edges.map (·.json))),
    ("variables", .array (workflow.«variables».map (·.json numberOf))),
    ("loopBudgets",
      .object (workflow.loopBudgets.own.toList.map fun (key, budget) => (key, .number budget))),
    ("derivedRequiredCapabilities", stringsJson workflow.derivedRequiredCapabilities),
    ("staticPolicyHash", .string staticPolicyHash)]

/-- `stableHash(stableStringify(contractInput))` -/
def workflowContractHash (numbers : Json.NumberText) (contractInput : Json) : String :=
  stableHash (stableStringify numbers contractInput)

/-! ## Drafts that differ in order -/

/-- The drafts are the same but for the order of their nodes, edges and variables and that of the
keys of their loop budgets. -/
structure SameButOrder (draft draft' : P2pWorkflowDraft) : Prop where
  schemaVersion : draft'.schemaVersion = draft.schemaVersion
  id : draft'.id = draft.id
  title : draft'.title = draft.title
  nodes : draft.nodes.Perm draft'.nodes
  edges : draft.edges.Perm draft'.edges
  rootNodeId : draft'.rootNodeId = draft.rootNodeId
  startContext : draft'.startContext = draft.startContext
  «variables» : Option.Rel List.Perm draft.«variables» draft'.«variables»
  loopBudgets : Option.Rel (fun budgets budgets' => budgets.own.toList.Perm budgets'.own.toList)
    draft.loopBudgets draft'.loopBudgets

/-- `localeCompare` is a strict total order on different names. -/
structure OrdersStrictly (localeCompare : Collation) (names : List String) : Prop where
  self : ∀ a ∈ names, localeCompare a a = 0
  differ : ∀ a ∈ names, ∀ b ∈ names, a ≠ b →
    localeCompare a b < 0 ∧ 0 < localeCompare b a ∨ 0 < localeCompare a b ∧ localeCompare b a < 0
  trans : ∀ a ∈ names, ∀ b ∈ names, ∀ c ∈ names,
    localeCompare a b < 0 → localeCompare b c < 0 → localeCompare a c < 0

variable {localeCompare : Collation} {draft draft' : P2pWorkflowDraft}
  {staticPolicy : P2pStaticPolicy} {rootNodeId rootNodeId' : String}

/-! ### Sorting by names -/

theorem OrdersStrictly.le_iff {names : List String} (h : OrdersStrictly localeCompare names)
    {a b : String} (ha : a ∈ names) (hb : b ∈ names) :
    localeCompare a b ≤ 0 ↔ a = b ∨ localeCompare a b < 0 := by
  by_cases hab : a = b
  · subst hab
    simp [h.self a ha]
  · have hdiffer := h.differ a ha b hb hab
    simp only [hab, false_or]
    omega

/-- A comparison of names that come once orders what has them. -/
theorem OrdersStrictly.orders {α : Type} {name : α → String} {values : List α}
    (h : OrdersStrictly localeCompare (values.map name)) (hnodup : (values.map name).Nodup) :
    Sorted.Orders (fun a b => localeCompare (name a) (name b) ≤ 0) values where
  total a ha b hb := by
    have hna := List.mem_map_of_mem (f := name) ha
    have hnb := List.mem_map_of_mem (f := name) hb
    rw [h.le_iff hna hnb, h.le_iff hnb hna]
    by_cases hab : name a = name b
    · exact .inl (.inl hab)
    · exact (h.differ _ hna _ hnb hab).imp (fun hlt => .inr hlt.1) fun hlt => .inr hlt.2
  trans a ha b hb c hc hab hbc := by
    have hna := List.mem_map_of_mem (f := name) ha
    have hnb := List.mem_map_of_mem (f := name) hb
    have hnc := List.mem_map_of_mem (f := name) hc
    rw [h.le_iff hna hnb] at hab
    rw [h.le_iff hnb hnc] at hbc
    rw [h.le_iff hna hnc]
    rcases hab with hab | hab
    · rwa [hab]
    · rcases hbc with hbc | hbc
      · exact .inr (hbc ▸ hab)
      · exact .inr (h.trans _ hna _ hnb _ hnc hab hbc)
  antisymm a ha b hb hab hba := by
    have hna := List.mem_map_of_mem (f := name) ha
    have hnb := List.mem_map_of_mem (f := name) hb
    refine List.inj_on_of_nodup_map hnodup ha hb (by_contra fun hne => ?_)
    have hdiffer := h.differ _ hna _ hnb hne
    omega

/-- **Sorted by name**, what has different names is in one order. -/
theorem sortedBy_eq_of_perm {α : Type} {name : α → String} {values values' : List α}
    (h : OrdersStrictly localeCompare (values.map name)) (hnodup : (values.map name).Nodup)
    (hperm : values.Perm values') :
    sortedBy localeCompare name values = sortedBy localeCompare name values' :=
  Sorted.insertionSort_eq_of_perm (h.orders hnodup) hperm

/-! ### The parts of a workflow -/

theorem outgoing_perm {edges edges' : List P2pWorkflowEdgeDraft} (h : edges.Perm edges')
    (nodeId : String) (kind : P2pEdgeKind) :
    (outgoing edges nodeId kind).Perm (outgoing edges' nodeId kind) :=
  h.filter _

theorem conditionValues_eq_of_perm {edges edges' : List P2pWorkflowEdgeDraft}
    (h : edges.Perm edges') : conditionValues edges = conditionValues edges' :=
  jsSort_eq_of_perm ((h.filterMap _).filter _)

theorem deriveRoutingAuthority_eq_of_perm {edges edges' : List P2pWorkflowEdgeDraft}
    (h : edges.Perm edges') (node : P2pWorkflowNodeDraft) :
    deriveRoutingAuthority node edges = deriveRoutingAuthority node edges' := by
  have hout := outgoing_perm h node.id .conditional
  have hnil : outgoing edges node.id .conditional = [] ↔
      outgoing edges' node.id .conditional = [] := by
    rw [← List.length_eq_zero_iff, ← List.length_eq_zero_iff, hout.length_eq]
  simp only [deriveRoutingAuthority, hnil, conditionValues_eq_of_perm hout]

/-- A node is compiled alike, whatever the order of the edges. -/
theorem compileNode_eq_of_perm {edges edges' : List P2pWorkflowEdgeDraft} (h : edges.Perm edges')
    (node : P2pWorkflowNodeDraft) : compileNode node edges = compileNode node edges' := by
  simp only [compileNode, deriveRoutingAuthority_eq_of_perm h]

theorem SameButOrder.findRootNodeId (h : SameButOrder draft draft') :
    findRootNodeId draft = findRootNodeId draft' := by
  have hpred : (fun id => decide (id ∉ draft.edges.map (·.toNodeId))) =
      fun id => decide (id ∉ draft'.edges.map (·.toNodeId)) := by
    funext id
    exact decide_eq_decide.2 (not_congr (h.edges.map (·.toNodeId)).mem_iff)
  have hroots : (draft.nodeIds.filter (· ∉ draft.edges.map (·.toNodeId))).Perm
      (draft'.nodeIds.filter (· ∉ draft'.edges.map (·.toNodeId))) := by
    rw [hpred]
    exact (h.nodes.map (·.id)).filter _
  unfold Workflow.findRootNodeId
  rw [h.rootNodeId]
  cases nonempty? draft.rootNodeId with
  | some rootNodeId => rfl
  | none =>
    dsimp only
    revert hroots
    generalize draft.nodeIds.filter (· ∉ draft.edges.map (·.toNodeId)) = roots
    generalize draft'.nodeIds.filter (· ∉ draft'.edges.map (·.toNodeId)) = roots'
    intro hroots
    match roots with
    | [] => rw [hroots.nil_eq]
    | [root] => rw [hroots.singleton_eq]
    | root :: next :: roots =>
      match roots', hroots.length_eq with
      | _ :: _ :: _, _ => rfl

/-- The root is the same: it is named, or it is the one node to which no edge leads. -/
theorem SameButOrder.root? (h : SameButOrder draft draft') : draft.root? = draft'.root? := by
  rw [P2pWorkflowDraft.root?, P2pWorkflowDraft.root?, h.rootNodeId, h.findRootNodeId]

theorem get?_eq_of_perm {budgets budgets' : OrderedMap String ℚ}
    (h : budgets.toList.Perm budgets'.toList) (key : String) :
    budgets.get? key = budgets'.get? key :=
  OrderedMap.get?_eq_of_mem_iff fun _ => h.mem_iff

/-- **Loop budgets are sorted** by their keys. -/
theorem sortedRecord_eq_of_perm {input input' : PlainObject ℚ}
    (h : input.own.toList.Perm input'.own.toList) : sortedRecord input = sortedRecord input' := by
  rw [sortedRecord, sortedRecord, jsSort_eq_of_perm (h.map Prod.fst)]
  simp only [get?_eq_of_perm h]

/-- The name of every variable comes once in a draft without errors. -/
theorem nodup_variableNames {input : List P2pWorkflowVariableDefinition}
    (h : hasError (validateP2pWorkflowVariables input) = false) : (input.map (·.name)).Nodup := by
  simp only [validateP2pWorkflowVariables, hasError_append'] at h
  rw [nodup_iff_not_mem_take, List.zipIdx_map]
  simp only [List.mem_map, forall_exists_index, and_imp, forall_apply_eq_imp_iff₂, Prod.map_fst,
    Prod.map_snd, id]
  intro p hp hmem
  have hone := hasError_flatMap.1 h.2 p hp
  simp only [validateVariable, hasError_append'] at hone
  rw [← List.map_take] at hmem
  -- either the name is not valid, or it is a duplicate
  split at hone
  · simp at hone
  · simp at hone

/-! ## The workflow and its hash -/

/-- What is related where it is given is related with what stands in for it. -/
theorem rel_getD {α : Type} {r : α → α → Prop} {value value' : Option α} {other : α}
    (h : Option.Rel r value value') (hother : r other other) :
    r (value.getD other) (value'.getD other) := by
  cases h with
  | some h => exact h
  | none => exact hother

/-- **The workflows of two drafts are the same**, part by part. -/
theorem SameButOrder.compiledWorkflow (h : SameButOrder draft draft')
    (hnodes : OrdersStrictly localeCompare draft.nodeIds) (hnodeIds : draft.nodeIds.Nodup)
    (hedges : OrdersStrictly localeCompare draft.edgeIds) (hedgeIds : draft.edgeIds.Nodup)
    (hvariables : OrdersStrictly localeCompare ((draft.«variables».getD []).map (·.name)))
    (hnames : ((draft.«variables».getD []).map (·.name)).Nodup) :
    compiledWorkflow localeCompare draft rootNodeId =
      compiledWorkflow localeCompare draft' rootNodeId := by
  have hnodesEq : (sortedBy localeCompare (·.id) draft.nodes).map (compileNode · draft.edges) =
      (sortedBy localeCompare (·.id) draft'.nodes).map (compileNode · draft'.edges) := by
    rw [sortedBy_eq_of_perm hnodes hnodeIds h.nodes]
    exact List.map_congr_left fun node _ => compileNode_eq_of_perm h.edges node
  have hvariablesPerm : (draft.«variables».getD []).Perm ( draft'.«variables».getD []) :=
    rel_getD h.«variables» (List.Perm.refl _)
  have hbudgetsPerm : (draft.loopBudgets.getD .empty).own.toList.Perm
      (draft'.loopBudgets.getD .empty).own.toList :=
    rel_getD h.loopBudgets (List.Perm.refl _)
  simp only [Workflow.compiledWorkflow, h.id, hnodesEq, sortedBy_eq_of_perm hedges hedgeIds h.edges,
    sortedBy_eq_of_perm hvariables hnames hvariablesPerm, sortedRecord_eq_of_perm hbudgetsPerm]

/-- **Compilation is canonical.** Two drafts that compile under one policy and differ in order
only give the same workflow and, whatever the order of keys in the objects that are hashed, the
same hash. -/
theorem compile_canonical (localeCompare : Collation) (numbers : Json.NumberText)
    (numberOf : String → ℚ) (draft draft' : P2pWorkflowDraft) (staticPolicy : P2pStaticPolicy)
    (workflow workflow' : P2pCompiledWorkflow) (hsame : SameButOrder draft draft')
    (hcompile : compileP2pWorkflowDraft localeCompare draft staticPolicy = .ok workflow)
    (hcompile' : compileP2pWorkflowDraft localeCompare draft' staticPolicy = .ok workflow')
    (hnodes : OrdersStrictly localeCompare draft.nodeIds)
    (hedges : OrdersStrictly localeCompare draft.edgeIds)
    (hvariables : OrdersStrictly localeCompare ((draft.«variables».getD []).map (·.name))) :
    workflow = workflow' ∧ ∀ hashed hashed' : Json,
      Json.Reordered
        (contractInput numberOf workflow (hashP2pStaticPolicy numbers staticPolicy)) hashed →
      Json.Reordered
        (contractInput numberOf workflow' (hashP2pStaticPolicy numbers staticPolicy)) hashed' →
      workflowContractHash numbers hashed = workflowContractHash numbers hashed' := by
  obtain ⟨-, hrest, rootNodeId, hroot, rfl⟩ := compile_eq_ok.1 hcompile
  obtain ⟨-, -, rootNodeId', hroot', rfl⟩ := compile_eq_ok.1 hcompile'
  obtain rfl : rootNodeId = rootNodeId' := by
    rw [hsame.root?, hroot'] at hroot
    exact (Option.some.inj hroot).symm
  simp only [draftDiagnostics, hasError_append'] at hrest
  obtain ⟨⟨⟨-, hshape⟩, hvalidVariables⟩, -⟩ := hrest
  obtain ⟨hnodeIds, hedgeIds, -⟩ := hasError_validateGraphShape hroot hshape
  have hworkflow : compiledWorkflow localeCompare draft rootNodeId =
      compiledWorkflow localeCompare draft' rootNodeId :=
    hsame.compiledWorkflow hnodes hnodeIds hedges hedgeIds hvariables
      (nodup_variableNames hvalidVariables)
  refine ⟨hworkflow, fun hashed hashed' hhashed hhashed' => ?_⟩
  rw [workflowContractHash, workflowContractHash, ← stableStringify_eq_of_reordered hhashed,
    ← stableStringify_eq_of_reordered hhashed', hworkflow]

/-! ## An example -/

/-- A comparison of texts by their code units. -/
def compareTexts : Collation := fun a b =>
  if a = b then 0 else if codeUnits a ≤ codeUnits b then -1 else 1

theorem compareTexts_neg {a b : String} :
    compareTexts a b < 0 ↔ a ≠ b ∧ codeUnits a ≤ codeUnits b := by
  unfold compareTexts
  by_cases heq : a = b
  · simp [heq]
  · by_cases hle : codeUnits a ≤ codeUnits b <;> simp [heq, hle]

theorem compareTexts_pos {a b : String} :
    0 < compareTexts a b ↔ a ≠ b ∧ ¬ codeUnits a ≤ codeUnits b := by
  unfold compareTexts
  by_cases heq : a = b
  · simp [heq]
  · by_cases hle : codeUnits a ≤ codeUnits b <;> simp [heq, hle]

theorem ordersStrictly_compareTexts (names : List String) : OrdersStrictly compareTexts names where
  self a _ := if_pos rfl
  differ a _ b _ hne := by
    have hanti (hle : codeUnits a ≤ codeUnits b) (hge : codeUnits b ≤ codeUnits a) : False :=
      hne (codeUnits_injective (le_antisymm hle hge))
    simp only [compareTexts_neg, compareTexts_pos]
    by_cases hle : codeUnits a ≤ codeUnits b
    · exact .inl ⟨⟨hne, hle⟩, hne.symm, fun hge => hanti hle hge⟩
    · exact .inr ⟨⟨hne, hle⟩, hne.symm, (le_total _ _).resolve_left hle⟩
  trans a _ b _ c _ hab hbc := by
    rw [compareTexts_neg] at hab hbc ⊢
    refine ⟨?_, le_trans hab.2 hbc.2⟩
    rintro rfl
    exact hab.1 (codeUnits_injective (le_antisymm hab.2 hbc.2))

/-- Three nodes in a row. -/
def inARow : P2pWorkflowDraft :=
  { id := "in-a-row"
    nodes :=
      [{ id := "draft", nodeKind := .llm, preset := .discuss },
        { id := "audit", nodeKind := .llm, preset := .audit },
        { id := "plan", nodeKind := .llm, preset := .plan }]
    edges :=
      [{ id := "on", fromNodeId := "draft", toNodeId := "audit", edgeKind := .default },
        { id := "pass", fromNodeId := "audit", toNodeId := "plan", edgeKind := .conditional
          condition := some { kind := .verdictMarkerEquals, equals := "PASS" } }]
    «variables» :=
      some [{ name := "goal", value := .string "" }, { name := "depth", value := .boolean true }]
    loopBudgets := some ((PlainObject.empty.assign "on" 1).assign "pass" 2) }

/-- The same in another order. -/
def inARowReversed : P2pWorkflowDraft :=
  { inARow with
    nodes := inARow.nodes.reverse
    edges := inARow.edges.reverse
    «variables» := inARow.«variables».map List.reverse
    loopBudgets := some ((PlainObject.empty.assign "pass" 2).assign "on" 1) }

theorem compile_inARow : compileP2pWorkflowDraft compareTexts inARow examplePolicy =
    .ok (compiledWorkflow compareTexts inARow "draft") :=
  compile_eq_ok.2 ⟨by decide +kernel, by decide +kernel, "draft", by decide +kernel, rfl⟩

theorem compile_inARowReversed : compileP2pWorkflowDraft compareTexts inARowReversed examplePolicy =
    .ok (compiledWorkflow compareTexts inARowReversed "draft") :=
  compile_eq_ok.2 ⟨by decide +kernel, by decide +kernel, "draft", by decide +kernel, rfl⟩

theorem sameButOrder_inARow : SameButOrder inARow inARowReversed where
  schemaVersion := rfl
  id := rfl
  title := rfl
  nodes := (List.reverse_perm _).symm
  edges := (List.reverse_perm _).symm
  rootNodeId := rfl
  startContext := rfl
  «variables» := .some (List.reverse_perm _).symm
  loopBudgets := .some (by decide +kernel)

/-- The fields of the object that is hashed, when it is written from the last to the first. -/
def reversedFields : Json → Json
  | .object fields => .object fields.reverse
  | value => value

theorem reordered_contractInput (numberOf : String → ℚ) (workflow : P2pCompiledWorkflow)
    (staticPolicyHash : String) :
    Json.Reordered (contractInput numberOf workflow staticPolicyHash)
      (reversedFields (contractInput numberOf workflow staticPolicyHash)) :=
  .fields (by simp [Fields.keys]) (List.reverse_perm _).symm

theorem compile_canonical_inARow :
    compiledWorkflow compareTexts inARow "draft" =
      compiledWorkflow compareTexts inARowReversed "draft" ∧
    workflowContractHash Json.wholeNumbers
        (contractInput (fun _ => 0) (compiledWorkflow compareTexts inARow "draft")
          (hashP2pStaticPolicy Json.wholeNumbers examplePolicy)) =
      workflowContractHash Json.wholeNumbers
        (reversedFields (contractInput (fun _ => 0)
          (compiledWorkflow compareTexts inARowReversed "draft")
          (hashP2pStaticPolicy Json.wholeNumbers examplePolicy))) :=
  have h := compile_canonical compareTexts Json.wholeNumbers (fun _ => 0) inARow inARowReversed
    examplePolicy _ _ sameButOrder_inARow compile_inARow compile_inARowReversed
    (ordersStrictly_compareTexts _) (ordersStrictly_compareTexts _) (ordersStrictly_compareTexts _)
  ⟨h.1, h.2 _ _ (.refl _) (reordered_contractInput _ _ _)⟩

end Imcodes.Workflow
