import Imcodes.Workflow.Compiler

/-!
# Drafts that compile

* `Accepted` — what a draft that compiles has satisfied.
* `accepted_of_compile` — it has, and the workflow is made of it.
* `read_sortedRecord` — a compiled workflow has the loop budgets of its draft,
  but for one that is called `__proto__`.
-/

namespace Imcodes.Workflow

open Imcodes.Queue (Collation)

/-! ## Diagnostics that are no errors -/

@[simp] theorem hasError_nil : hasError [] = false := rfl

@[simp] theorem hasError_cons {d : P2pWorkflowDiagnostic} {ds : List P2pWorkflowDiagnostic} :
    hasError (d :: ds) = (decide (d.severity = .error) || hasError ds) := rfl

@[simp] theorem hasError_append' {a b : List P2pWorkflowDiagnostic} :
    hasError (a ++ b) = false ↔ hasError a = false ∧ hasError b = false := by
  rw [hasError_append, Bool.or_eq_false_iff]

@[simp] theorem hasError_flatMap {α : Type} {l : List α} {f : α → List P2pWorkflowDiagnostic} :
    hasError (l.flatMap f) = false ↔ ∀ x ∈ l, hasError (f x) = false := by
  simp [hasError]

@[simp] theorem severity_make {code : P2pWorkflowDiagnosticCode}
    {phase : P2pWorkflowDiagnosticPhase} {extras : DiagnosticExtras} :
    (makeP2pWorkflowDiagnostic code phase extras).severity =
      if code = .staticPolicyMismatchRecompiled then .warning else .error := by
  simp [makeP2pWorkflowDiagnostic, P2pWorkflowDiagnosticCode.isWarning]

@[simp] theorem severity_graphDiagnostic (fieldPath summary : String) :
    (graphDiagnostic fieldPath summary).severity = .error := rfl

@[simp] theorem hasError_ite {c : Prop} [Decidable c] {d : P2pWorkflowDiagnostic}
    (hd : d.severity = .error) : hasError (if c then [d] else []) = false ↔ ¬ c := by
  by_cases hc : c <;> simp [hc, hd]

/-- Where every value would give an error, there is none. -/
theorem eq_nil_of_hasError_map {values : List String} {f : String → P2pWorkflowDiagnostic}
    (hf : ∀ value, (f value).severity = .error) (h : hasError (values.map f) = false) :
    values = [] := by
  cases values with
  | nil => rfl
  | cons value values => simp [hf] at h

/-! ## Names that come once -/

theorem nodup_iff_not_mem_take {l : List String} :
    l.Nodup ↔ ∀ p ∈ l.zipIdx, p.1 ∉ l.take p.2 := by
  rw [List.nodup_iff_getElem?_ne_getElem?]
  constructor
  · rintro h ⟨a, j⟩ hj hmem
    have hget := List.mem_zipIdx_iff_getElem?.1 hj
    obtain ⟨i, hi, hia⟩ := List.mem_take_iff_getElem.1 hmem
    have hlt : j < l.length := (List.getElem?_eq_some_iff.1 hget).1
    have hij : i < j := by simpa using (Nat.lt_min.1 hi).1
    exact h i j hij hlt (by rw [hget, List.getElem?_eq_some_iff]; exact ⟨by omega, hia⟩)
  · intro h i j hij hj heq
    have hi : i < l.length := hij.trans hj
    refine h (l[j], j) (List.mem_zipIdx_iff_getElem?.2 (List.getElem?_eq_getElem hj)) ?_
    refine List.mem_take_iff_getElem.2 ⟨i, Nat.lt_min.2 ⟨hij, hi⟩, ?_⟩
    rwa [List.getElem?_eq_getElem hi, List.getElem?_eq_getElem hj, Option.some.injEq] at heq

theorem duplicates_eq_nil {l : List String} : duplicates l = [] ↔ l.Nodup := by
  rw [duplicates, List.filterMap_eq_nil_iff, nodup_iff_not_mem_take]
  refine forall₂_congr fun p _ => ?_
  simp

/-- An edge whose id has come before. -/
theorem nodup_edgeIds {draft : P2pWorkflowDraft} :
    draft.edgeIds.Nodup ↔ ∀ p ∈ draft.edges.zipIdx, p.1.id ∉ draft.edgeIds.take p.2 := by
  rw [nodup_iff_not_mem_take, P2pWorkflowDraft.edgeIds, List.zipIdx_map]
  simp only [List.mem_map, forall_exists_index, and_imp, forall_apply_eq_imp_iff₂, Prod.map_fst,
    Prod.map_snd, id]

/-! ## Loop budgets -/

/-- What is put into an object key by key. -/
theorem get?_foldl_assign {ν : Type} (value : String → ν) (keys : List String) (o : PlainObject ν)
    (hproto : o.own.get? "__proto__" = none) (key : String) :
    (keys.foldl (fun o key => o.assign key (value key)) o).own.get? key =
      if key ∈ keys ∧ key ≠ "__proto__" then some (value key) else o.own.get? key := by
  induction keys generalizing o with
  | nil => simp
  | cons k keys ih =>
    rw [List.foldl_cons]
    by_cases hk : k = "__proto__"
    · have hsame : o.assign k (value k) = o := by rw [PlainObject.assign, if_pos ⟨hk, hk ▸ hproto⟩]
      rw [hsame, ih o hproto]
      by_cases hkey : key = "__proto__"
      · simp [hkey]
      · have hne : key ≠ k := fun h => hkey (h.trans hk)
        simp [hkey, hne]
    · have hget (x : String) : (o.assign k (value k)).own.get? x =
          if x = k then some (value k) else o.own.get? x := by
        rw [PlainObject.assign, if_neg fun h => hk h.1]
        exact OrderedMap.get?_set
      rw [ih _ ((hget _).trans ((if_neg (Ne.symm hk)).trans hproto)), hget]
      by_cases hkey : key = k
      · subst hkey
        simp [hk]
      · simp [hkey]

theorem mem_keys_iff (input : PlainObject ℚ) (key : String) :
    key ∈ input.own.toList.map Prod.fst ↔ ∃ value, input.own.get? key = some value := by
  rw [List.mem_map]
  constructor
  · rintro ⟨⟨k, value⟩, hp, rfl⟩
    exact ⟨value, OrderedMap.get?_eq_some.2 hp⟩
  · rintro ⟨value, hvalue⟩
    exact ⟨(key, value), OrderedMap.get?_eq_some.1 hvalue, rfl⟩

theorem get?_sortedRecord (input : PlainObject ℚ) (key : String) :
    (sortedRecord input).own.get? key =
      if key = "__proto__" then none else input.own.get? key := by
  rw [sortedRecord, get?_foldl_assign (fun key => (input.own.get? key).getD 0) _ _ rfl]
  have hmem := mem_jsSort.trans (mem_keys_iff input key)
  by_cases hkey : key = "__proto__"
  · simp [hkey, PlainObject.empty]
  · cases hget : input.own.get? key with
    | none =>
      have hnot : key ∉ jsSort (input.own.toList.map Prod.fst) := fun h => by
        obtain ⟨value, hvalue⟩ := hmem.1 h
        rw [hget] at hvalue
        cases hvalue
      simp [hnot, PlainObject.empty]
    | some value =>
      rw [if_pos ⟨hmem.2 ⟨value, hget⟩, hkey⟩, if_neg hkey]
      rfl

/-- A compiled workflow reads the loop budgets of its draft. -/
theorem read_sortedRecord {input : PlainObject ℚ} {key : String} (h : key ∉ objectPrototypeKeys) :
    (sortedRecord input).read key = input.read key := by
  have hproto : key ≠ "__proto__" := by
    rintro rfl
    exact h (by decide)
  rw [PlainObject.read, PlainObject.read, get?_sortedRecord, if_neg hproto]

/-! ## What a draft that compiles has satisfied -/

/-- The edges of a draft, as pairs of node ids. -/
def arrows (edges : List P2pWorkflowEdgeDraft) : List (String × String) :=
  edges.map fun edge => (edge.fromNodeId, edge.toNodeId)

structure Accepted (draft : P2pWorkflowDraft) (rootNodeId : String) : Prop where
  nodes_ne_nil : draft.nodes ≠ []
  nonblank : ∀ node ∈ draft.nodes, isBlank node.id = false
  nodup_nodeIds : draft.nodeIds.Nodup
  nodup_edgeIds : draft.edgeIds.Nodup
  endpoints : ∀ edge ∈ draft.edges,
    edge.fromNodeId ∈ draft.nodeIds ∧ edge.toNodeId ∈ draft.nodeIds
  defaults : ∀ node ∈ draft.nodes, (outgoing draft.edges node.id .default).length ≤ 1
  conditionals : ∀ node ∈ draft.nodes, (outgoing draft.edges node.id .conditional).length ≤ 1
  conditions : ∀ edge ∈ draft.edges, edge.edgeKind = .conditional → edge.condition.isSome
  combinations : ∀ node ∈ draft.nodes, ∃ path, hasError (validateNodeCombination node path) = false
  scripts : ∀ node ∈ draft.nodes, node.script.isSome ↔ node.nodeKind = .script
  logics : ∀ node ∈ draft.nodes, node.logic.isSome ↔ node.nodeKind = .logic
  root_mem : rootNodeId ∈ draft.nodeIds
  reachable : ∀ id ∈ draft.nodeIds,
    Relation.ReflTransGen (Graphs.Adjacent (arrows draft.edges)) rootNodeId id
  backward : ∀ edge ∈ draft.edges, ∀ i j, nodeOrder draft.nodes edge.fromNodeId = some i →
    nodeOrder draft.nodes edge.toNodeId = some j → j ≤ i → draft.loopBudget edge.id ≠ .missing
  budgets : ∀ edge ∈ draft.edges, invalidBudget (draft.loopBudget edge.id) = false
  keys : ∀ key ∈ draft.loopBudgetKeys, key ∈ draft.edgeIds


/-- The result of compiling, step by step. -/
theorem compile_eq_ok {localeCompare : Collation} {draft : P2pWorkflowDraft}
    {staticPolicy : P2pStaticPolicy} {workflow : P2pCompiledWorkflow} :
    compileP2pWorkflowDraft localeCompare draft staticPolicy = .ok workflow ↔
      hasError (validateP2pWorkflowDraft draft) = false ∧
        hasError (draftDiagnostics draft staticPolicy) = false ∧
          ∃ rootNodeId, draft.root? = some rootNodeId ∧
            workflow = compiledWorkflow localeCompare draft rootNodeId := by
  unfold compileP2pWorkflowDraft
  by_cases hvalid : hasError (validateP2pWorkflowDraft draft)
  · simp [hvalid]
  · by_cases hrest : hasError (draftDiagnostics draft staticPolicy)
    · simp [hvalid, hrest, hasError_append]
    · simp only [Bool.not_eq_true] at hvalid hrest
      simp only [hasError_append, hvalid, hrest]
      cases hroot : draft.root? with
      | none => simp
      | some rootNodeId => simp [eq_comm]

theorem exists_of_hasError_zipIdx {α : Type} {l : List α}
    {f : α × Nat → List P2pWorkflowDiagnostic} (h : ∀ p ∈ l.zipIdx, hasError (f p) = false) :
    ∀ a ∈ l, ∃ index, hasError (f (a, index)) = false := by
  intro a ha
  obtain ⟨index, hget⟩ := List.mem_iff_getElem?.1 ha
  exact ⟨index, h (a, index) (List.mem_zipIdx_iff_getElem?.2 hget)⟩

/-- What is wrong with no node and no edge of a draft. -/
theorem hasError_validateP2pWorkflowDraft {draft : P2pWorkflowDraft}
    (h : hasError (validateP2pWorkflowDraft draft) = false) :
    draft.nodes ≠ [] ∧
      (∀ node ∈ draft.nodes, ∃ path, hasError (validateNodeDraft node path) = false) ∧
        ∀ edge ∈ draft.edges, ∃ path, hasError (validateEdgeDraft edge path) = false := by
  unfold validateP2pWorkflowDraft at h
  split at h
  · simp at h
  · simp only [hasError_append'] at h
    obtain ⟨⟨⟨⟨-, hnodes⟩, hedges⟩, -⟩, -⟩ := h
    split at hnodes
    · simp at hnodes
    · rename_i hne
      refine ⟨hne, fun node hnode => ?_, fun edge hedge => ?_⟩
      · obtain ⟨index, hindex⟩ := exists_of_hasError_zipIdx (hasError_flatMap.1 hnodes) node hnode
        exact ⟨_, hindex⟩
      · obtain ⟨index, hindex⟩ := exists_of_hasError_zipIdx (hasError_flatMap.1 hedges) edge hedge
        exact ⟨_, hindex⟩

/-- Scripts and combinations of a node without errors. -/
theorem hasError_validateNodeDraft {node : P2pWorkflowNodeDraft} {path : String}
    (h : hasError (validateNodeDraft node path) = false) :
    isBlank node.id = false ∧ hasError (validateNodeCombination node path) = false ∧
      (node.script.isSome ↔ node.nodeKind = .script) := by
  simp only [validateNodeDraft, hasError_append'] at h
  obtain ⟨⟨⟨⟨⟨hid, hcombination⟩, -⟩, -⟩, hscript⟩, -⟩ := h
  refine ⟨by simpa using hid, hcombination, ?_⟩
  by_cases hkind : node.nodeKind = .script
  · rw [if_pos hkind] at hscript
    cases hsome : node.script with
    | none =>
      rw [hsome] at hscript
      simp [validateP2pScriptContract, invalidScriptContract] at hscript
    | some script => simp [hkind]
  · rw [if_neg hkind] at hscript
    cases hsome : node.script with
    | none => simp [hkind]
    | some script =>
      rw [hsome] at hscript
      simp [invalidScriptContract] at hscript

theorem condition_of_validateEdgeDraft {edge : P2pWorkflowEdgeDraft} {path : String}
    (h : hasError (validateEdgeDraft edge path) = false) (hkind : edge.edgeKind = .conditional) :
    edge.condition.isSome := by
  simp only [validateEdgeDraft, hasError_append', if_pos hkind] at h
  cases hcondition : edge.condition with
  | none =>
    rw [hcondition] at h
    simp [validateEdgeCondition] at h
  | some condition => rfl

/-- The edges and the logic of a node whose shape has no error. -/
theorem hasError_validateNodeShape {draft : P2pWorkflowDraft} {node : P2pWorkflowNodeDraft}
    (h : hasError (validateNodeShape draft node) = false) :
    (outgoing draft.edges node.id .default).length ≤ 1 ∧
      (outgoing draft.edges node.id .conditional).length ≤ 1 ∧
        (node.logic.isSome ↔ node.nodeKind = .logic) := by
  simp only [validateNodeShape, hasError_append'] at h
  obtain ⟨⟨hlogic, hdefault⟩, hconditional⟩ := h
  refine ⟨Nat.not_lt.1 ((hasError_ite rfl).1 hdefault), ?_, ?_⟩
  · split at hconditional
    · rename_i hnil
      simp [hnil]
    · simp only [hasError_append'] at hconditional
      exact Nat.not_lt.1 ((hasError_ite rfl).1 hconditional.1.1)
  · cases hkind : node.nodeKind <;> cases hsome : node.logic <;> simp_all

/-- The graph of a draft without errors. -/
theorem hasError_validateGraphShape {draft : P2pWorkflowDraft} {rootNodeId : String}
    (hroot : draft.root? = some rootNodeId) (h : hasError (validateGraphShape draft) = false) :
    draft.nodeIds.Nodup ∧ draft.edgeIds.Nodup ∧
      (∀ edge ∈ draft.edges, edge.fromNodeId ∈ draft.nodeIds ∧ edge.toNodeId ∈ draft.nodeIds) ∧
        (∀ node ∈ draft.nodes, hasError (validateNodeShape draft node) = false) ∧
          rootNodeId ∈ draft.nodeIds ∧ ∀ id ∈ draft.nodeIds,
            Relation.ReflTransGen (Graphs.Adjacent (arrows draft.edges)) rootNodeId id := by
  simp only [validateGraphShape, hasError_append'] at h
  obtain ⟨⟨⟨⟨⟨-, hnodes⟩, hedges⟩, hstart⟩, hshapes⟩, hreach⟩ := h
  have hnil := eq_nil_of_hasError_map (fun _ => rfl) hnodes
  have hedge : ∀ p ∈ draft.edges.zipIdx, p.1.id ∉ draft.edgeIds.take p.2 ∧
      ¬ (p.1.fromNodeId ∉ draft.nodeIds ∨ p.1.toNodeId ∉ draft.nodeIds) := fun p hp => by
    have := hasError_flatMap.1 hedges p hp
    simp only [hasError_append'] at this
    exact ⟨(hasError_ite rfl).1 this.1, (hasError_ite rfl).1 this.2⟩
  rw [hroot] at hstart hreach
  have hnonempty : nonempty? (some rootNodeId) = some rootNodeId ∧ rootNodeId ∈ draft.nodeIds := by
    have := (hasError_ite rfl).1 hstart
    by_cases hempty : rootNodeId = ""
    · simp [nonempty?, hempty] at this
    · simpa [nonempty?, hempty] using this
  rw [hnonempty.1] at hreach
  refine ⟨duplicates_eq_nil.1 hnil, nodup_edgeIds.2 fun p hp => (hedge p hp).1, fun edge he => ?_,
    hasError_flatMap.1 hshapes, hnonempty.2, fun id hid => ?_⟩
  · obtain ⟨index, hget⟩ := List.mem_iff_getElem?.1 he
    have := (hedge (edge, index) (List.mem_zipIdx_iff_getElem?.2 hget)).2
    rwa [not_or, not_not, not_not] at this
  · have hall := List.filter_eq_nil_iff.1 (eq_nil_of_hasError_map (fun _ => rfl) hreach) id hid
    rw [decide_eq_true_eq, not_not] at hall
    exact Graphs.mem_closure.1 hall

/-- The loop budgets of a draft without errors. -/
theorem hasError_validateLoopBudgets {draft : P2pWorkflowDraft}
    (hends : ∀ edge ∈ draft.edges, ∃ i j, nodeOrder draft.nodes edge.fromNodeId = some i ∧
      nodeOrder draft.nodes edge.toNodeId = some j)
    (h : hasError (validateLoopBudgets draft) = false) :
    (∀ edge ∈ draft.edges, ∀ i j, nodeOrder draft.nodes edge.fromNodeId = some i →
      nodeOrder draft.nodes edge.toNodeId = some j → j ≤ i →
        draft.loopBudget edge.id ≠ .missing) ∧
      (∀ edge ∈ draft.edges, invalidBudget (draft.loopBudget edge.id) = false) ∧
        ∀ key ∈ draft.loopBudgetKeys, key ∈ draft.edgeIds := by
  simp only [validateLoopBudgets, hasError_append'] at h
  obtain ⟨hedges, hkeys⟩ := h
  have hedge : ∀ edge ∈ draft.edges, ∀ i j, nodeOrder draft.nodes edge.fromNodeId = some i →
      nodeOrder draft.nodes edge.toNodeId = some j →
        ¬ (j ≤ i ∧ draft.loopBudget edge.id = .missing) ∧
          invalidBudget (draft.loopBudget edge.id) = false := by
    intro edge he i j hi hj
    have hone := hasError_flatMap.1 hedges edge he
    simp only [validateLoopBudget, hi, hj, hasError_append'] at hone
    exact ⟨(hasError_ite rfl).1 hone.1, by simpa using (hasError_ite rfl).1 hone.2⟩
  refine ⟨fun edge he i j hi hj hle hmissing => (hedge edge he i j hi hj).1 ⟨hle, hmissing⟩,
    fun edge he => ?_, fun key hkey => ?_⟩
  · obtain ⟨i, j, hi, hj⟩ := hends edge he
    exact (hedge edge he i j hi hj).2
  · have hall := List.filter_eq_nil_iff.1 (eq_nil_of_hasError_map (fun _ => rfl) hkeys) key hkey
    simpa using hall

theorem nodeOrder_of_mem {nodes : List P2pWorkflowNodeDraft} {id : String}
    (h : id ∈ nodes.map (·.id)) : ∃ i, nodeOrder nodes id = some i := by
  obtain ⟨node, hnode, rfl⟩ := List.mem_map.1 h
  obtain ⟨index, hget⟩ := List.mem_iff_getElem?.1 hnode
  have hmem : (node, index) ∈ nodes.zipIdx.filter (·.1.id = node.id) :=
    List.mem_filter.2 ⟨List.mem_zipIdx_iff_getElem?.2 hget, by simp⟩
  cases hlast : (nodes.zipIdx.filter (·.1.id = node.id)).getLast? with
  | none =>
    rw [List.getLast?_eq_none_iff] at hlast
    rw [hlast] at hmem
    cases hmem
  | some p => exact ⟨p.2, by rw [nodeOrder, hlast]; rfl⟩

/-- **A draft that compiles is accepted**, and the workflow is made of it. -/
theorem accepted_of_compile {localeCompare : Collation} {draft : P2pWorkflowDraft}
    {staticPolicy : P2pStaticPolicy} {workflow : P2pCompiledWorkflow}
    (h : compileP2pWorkflowDraft localeCompare draft staticPolicy = .ok workflow) :
    ∃ rootNodeId, Accepted draft rootNodeId ∧
      workflow = compiledWorkflow localeCompare draft rootNodeId := by
  obtain ⟨hvalid, hrest, rootNodeId, hroot, hworkflow⟩ := compile_eq_ok.1 h
  obtain ⟨hne, hnodes, hedges⟩ := hasError_validateP2pWorkflowDraft hvalid
  simp only [draftDiagnostics, hasError_append'] at hrest
  obtain ⟨⟨⟨-, hshape⟩, -⟩, hbudgets⟩ := hrest
  obtain ⟨hnodeIds, hedgeIds, hends, hshapes, hmem, hreach⟩ :=
    hasError_validateGraphShape hroot hshape
  obtain ⟨hbackward, hvalidBudgets, hkeys⟩ := hasError_validateLoopBudgets (fun edge he => by
    obtain ⟨i, hi⟩ := nodeOrder_of_mem (hends edge he).1
    obtain ⟨j, hj⟩ := nodeOrder_of_mem (hends edge he).2
    exact ⟨i, j, hi, hj⟩) hbudgets
  refine ⟨rootNodeId, ⟨hne, fun node hnode => ?_, hnodeIds, hedgeIds, hends, fun node hnode => ?_,
    fun node hnode => ?_, fun edge hedge hkind => ?_, fun node hnode => ?_, fun node hnode => ?_,
    fun node hnode => ?_, hmem, hreach, hbackward, hvalidBudgets, hkeys⟩, hworkflow⟩
  · obtain ⟨path, hpath⟩ := hnodes node hnode
    exact (hasError_validateNodeDraft hpath).1
  · exact (hasError_validateNodeShape (hshapes node hnode)).1
  · exact (hasError_validateNodeShape (hshapes node hnode)).2.1
  · obtain ⟨path, hpath⟩ := hedges edge hedge
    exact condition_of_validateEdgeDraft hpath hkind
  · obtain ⟨path, hpath⟩ := hnodes node hnode
    exact ⟨path, (hasError_validateNodeDraft hpath).2.1⟩
  · obtain ⟨path, hpath⟩ := hnodes node hnode
    exact (hasError_validateNodeDraft hpath).2.2
  · exact (hasError_validateNodeShape (hshapes node hnode)).2.2

end Imcodes.Workflow
