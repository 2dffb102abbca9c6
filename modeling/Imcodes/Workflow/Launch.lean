import Imcodes.Graphs.Follow
import Imcodes.Workflow.Legacy
import Imcodes.Workflow.WellFormed

/-!
# The rounds of a compiled workflow

* `rounds_of_compile` — the rounds are the nodes, each once and the root first; from a node that
  default edges lead to, its default edge leads to the next round or to an earlier one, and the
  nodes that only conditional edges lead to come last.
* `resolve_compiled_iff` — **which compiled workflows can be launched**: those of which every
  conditional edge has a loop budget and leads to an earlier round, from a node that is no audit of
  a proposal, and of which no node generates artifacts that it does not declare.
* `launchedAsGraph_iff` — the same in terms of the graph, and what they are launched as.
* `not_launchedAsGraph` — a conditional edge forward is compiled and cannot be launched.
-/

namespace Imcodes.Workflow

open Imcodes.Queue (Collation jsTrim)

/-- A filter keeps what is in front of what. -/
theorem idxOf_filter_lt {α : Type*} [DecidableEq α] {p : α → Bool} {a b : α} {l : List α}
    (hb : p b = true) (ha : p a = true) :
    (l.filter p).idxOf b < (l.filter p).idxOf a ↔ l.idxOf b < l.idxOf a := by
  induction l with
  | nil => rfl
  | cons x l ih =>
    cases hx : p x with
    | false =>
      have hne {c : α} (hc : p c = true) : x ≠ c := fun heq => by
        rw [heq, hc] at hx
        cases hx
      rw [List.filter_cons_of_neg (by rw [hx]; exact Bool.false_ne_true), ih,
        List.idxOf_cons_ne _ (hne ha), List.idxOf_cons_ne _ (hne hb), Nat.succ_lt_succ_iff]
    | true =>
      rw [List.filter_cons_of_pos hx]
      rcases eq_or_ne x a with rfl | hxa
      · rw [List.idxOf_cons_self, List.idxOf_cons_self]
        exact iff_of_false (Nat.not_lt_zero _) (Nat.not_lt_zero _)
      · rw [List.idxOf_cons_ne _ hxa, List.idxOf_cons_ne _ hxa]
        rcases eq_or_ne x b with rfl | hxb
        · rw [List.idxOf_cons_self, List.idxOf_cons_self]
          exact iff_of_true (Nat.succ_pos _) (Nat.succ_pos _)
        · rw [List.idxOf_cons_ne _ hxb, List.idxOf_cons_ne _ hxb, Nat.succ_lt_succ_iff,
            Nat.succ_lt_succ_iff, ih]

namespace P2pCompiledWorkflow

variable (workflow : P2pCompiledWorkflow)

def nodeIds : List String := workflow.nodes.map (·.id)

/-- Where a node's default edge leads. -/
def nextNodeId (id : String) : Option String := (workflow.defaultTargets id).head?

/-- The ids of the rounds, in their order. -/
def roundIds : List String := (compiledWorkflowToLegacyAdvancedRounds workflow).map (·.id)

/-- Default edges lead from the root to a node. -/
def LedTo (id : String) : Prop :=
  Relation.ReflTransGen (fun a b => ∃ edge ∈ workflow.edges,
    edge.edgeKind = .default ∧ edge.fromNodeId = a ∧ edge.toNodeId = b) workflow.rootNodeId id

/-- Default edges lead to the one node from the root and not over the other one; or they lead to
neither of them, and the one is before the other among the nodes. -/
def ComesBefore (b a : String) : Prop :=
  b ≠ a ∧ Relation.ReflTransGen (fun x y => x ≠ a ∧ ∃ edge ∈ workflow.edges,
    edge.edgeKind = .default ∧ edge.fromNodeId = x ∧ edge.toNodeId = y) workflow.rootNodeId b ∨
  ¬workflow.LedTo a ∧ ¬workflow.LedTo b ∧ workflow.nodeIds.idxOf b < workflow.nodeIds.idxOf a

/-- A graph in which at most one default and one conditional edge leave a node, and lead to a
node. -/
structure IsSimple : Prop where
  nodup : workflow.nodeIds.Nodup
  root_mem : workflow.rootNodeId ∈ workflow.nodeIds
  nonblank : ∀ id ∈ workflow.nodeIds, jsTrim id ≠ ""
  endpoints : ∀ edge ∈ workflow.edges,
    edge.fromNodeId ∈ workflow.nodeIds ∧ edge.toNodeId ∈ workflow.nodeIds
  defaults : ∀ id, (outgoing workflow.edges id .default).length ≤ 1
  conditionals : ∀ id, (outgoing workflow.edges id .conditional).length ≤ 1

variable {workflow}

theorem roundIds_eq :
    workflow.roundIds = workflow.orderCompiledNodesForExecution.map (·.id) := by
  rw [roundIds, compiledWorkflowToLegacyAdvancedRounds, List.map_map]
  rfl

namespace IsSimple

/-- The only edge of its kind that leaves a node. -/
theorem outgoing_eq {kind : P2pEdgeKind} {edge : P2pCompiledEdge}
    (hle : (outgoing workflow.edges edge.fromNodeId kind).length ≤ 1)
    (hedge : edge ∈ workflow.edges) (hkind : edge.edgeKind = kind) :
    outgoing workflow.edges edge.fromNodeId kind = [edge] := by
  have hmem : edge ∈ outgoing workflow.edges edge.fromNodeId kind :=
    List.mem_filter.2 ⟨hedge, by simp [hkind]⟩
  obtain ⟨other, hother⟩ := List.length_eq_one_iff.1
    (Nat.le_antisymm hle (List.length_pos_of_mem hmem))
  rw [hother] at hmem ⊢
  rw [List.mem_singleton.1 hmem]

theorem nextNodeId_eq_some (h : workflow.IsSimple) {a b : String} :
    workflow.nextNodeId a = some b ↔ ∃ edge ∈ workflow.edges,
      edge.edgeKind = .default ∧ edge.fromNodeId = a ∧ edge.toNodeId = b := by
  rw [nextNodeId, defaultTargets]
  constructor
  · intro hhead
    obtain ⟨edge, hedge, rfl⟩ := List.mem_map.1 (List.mem_of_mem_head? hhead)
    obtain ⟨hmem, hedge⟩ := List.mem_filter.1 hedge
    obtain ⟨hfrom, hkind⟩ := of_decide_eq_true hedge
    exact ⟨edge, hmem, hkind, hfrom, rfl⟩
  · rintro ⟨edge, hedge, hkind, rfl, rfl⟩
    rw [outgoing_eq (h.defaults _) hedge hkind]
    rfl

theorem eq_of_id (h : workflow.IsSimple) {node other : P2pCompiledNode}
    (hnode : node ∈ workflow.nodes) (hother : other ∈ workflow.nodes) (hid : node.id = other.id) :
    node = other :=
  List.inj_on_of_nodup_map h.nodup hnode hother hid

theorem nodeById_eq (h : workflow.IsSimple) {node : P2pCompiledNode}
    (hnode : node ∈ workflow.nodes) :
    workflow.nodeById node.id = some node := by
  rw [nodeById]
  cases hlast : (workflow.nodes.filter (·.id = node.id)).getLast? with
  | none =>
    have hmem : node ∈ workflow.nodes.filter (·.id = node.id) :=
      List.mem_filter.2 ⟨hnode, by simp⟩
    rw [List.getLast?_eq_none_iff.1 hlast] at hmem
    cases hmem
  | some other =>
    obtain ⟨hother, hid⟩ := List.mem_filter.1 (List.mem_of_getLast? hlast)
    rw [h.eq_of_id hother hnode (of_decide_eq_true hid)]

theorem nextNodeId_mem (h : workflow.IsSimple) {a b : String}
    (hb : workflow.nextNodeId a = some b) :
    b ∈ workflow.nodeIds := by
  obtain ⟨edge, hedge, -, -, rfl⟩ := h.nextNodeId_eq_some.1 hb
  exact (h.endpoints edge hedge).2

/-- The visit follows the default edges. -/
theorem map_visit (h : workflow.IsSimple) (depth : ℕ) {id : String} (hid : id ∈ workflow.nodeIds)
    (ordered : List P2pCompiledNode) :
    (workflow.visit depth id ordered).map (·.id) =
      Graphs.follow workflow.nextNodeId depth id (ordered.map (·.id)) := by
  induction depth generalizing id ordered with
  | zero => rfl
  | succ depth ih =>
    obtain ⟨node, hnode, rfl⟩ := List.mem_map.1 hid
    rw [visit, Graphs.follow]
    split
    · rfl
    · rw [h.nodeById_eq hnode]
      have htargets : (workflow.defaultTargets node.id).length ≤ 1 := by
        rw [defaultTargets, List.length_map]
        exact h.defaults node.id
      cases hcases : workflow.defaultTargets node.id with
      | nil =>
        have hnone : workflow.nextNodeId node.id = none := by
          rw [nextNodeId, hcases, List.head?_nil]
        simp [hnone]
      | cons target rest =>
        obtain rfl : rest = [] := by simpa [hcases] using htargets
        have hsome : workflow.nextNodeId node.id = some target := by
          rw [nextNodeId, hcases, List.head?_cons]
        have := ih (h.nextNodeId_mem hsome) (ordered ++ [node])
        rw [List.map_append] at this
        simpa [hsome] using this

theorem visit_subset (depth : ℕ) (id : String)
    {ordered : List P2pCompiledNode} (hsub : ordered ⊆ workflow.nodes) :
    workflow.visit depth id ordered ⊆ workflow.nodes := by
  induction depth generalizing id ordered with
  | zero => exact hsub
  | succ depth ih =>
    rw [visit]
    split
    · exact hsub
    · split
      · exact hsub
      · rename_i node hnode
        have hmem : node ∈ workflow.nodes :=
          (List.mem_filter.1 (List.mem_of_getLast? hnode)).1
        have hnext : ordered ++ [node] ⊆ workflow.nodes :=
          List.append_subset.2 ⟨hsub, List.cons_subset.2 ⟨hmem, List.nil_subset _⟩⟩
        generalize ordered ++ [node] = start at hnext
        induction workflow.defaultTargets id generalizing start with
        | nil => exact hnext
        | cons target rest ihrest => exact ihrest _ (ih target hnext)

variable (workflow) in
/-- The nodes that are visited from the root. -/
def visited : List P2pCompiledNode :=
  workflow.visit (workflow.nodes.length + 1) workflow.rootNodeId []

theorem followed_visited (h : workflow.IsSimple) :
    Graphs.Followed workflow.nextNodeId workflow.rootNodeId ((visited workflow).map (·.id)) := by
  rw [visited, h.map_visit _ h.root_mem, ← List.length_map (·.id)]
  exact Graphs.followed (fun _ _ _ hb => h.nextNodeId_mem hb) h.root_mem

theorem order_eq (h : workflow.IsSimple) : workflow.orderCompiledNodesForExecution =
    visited workflow ++ workflow.nodes.filter (·.id ∉ (visited workflow).map (·.id)) := by
  have hne : workflow.rootNodeId ≠ "" := by
    intro hempty
    exact h.nonblank _ h.root_mem (by rw [hempty]; decide)
  rw [orderCompiledNodesForExecution, if_neg hne]
  rfl

theorem order_perm (h : workflow.IsSimple) :
    workflow.orderCompiledNodesForExecution.Perm workflow.nodes := by
  have hvisited : (visited workflow).Nodup := .of_map _ h.followed_visited.nodup
  have hnodes : workflow.nodes.Nodup := .of_map _ h.nodup
  rw [h.order_eq, List.perm_ext_iff_of_nodup _ hnodes]
  · intro node
    rw [List.mem_append, List.mem_filter, decide_eq_true_eq]
    constructor
    · rintro (hmem | ⟨hmem, -⟩)
      · exact visit_subset _ _ (List.nil_subset _) hmem
      · exact hmem
    · intro hnode
      by_cases hmem : node.id ∈ (visited workflow).map (·.id)
      · obtain ⟨other, hother, hid⟩ := List.mem_map.1 hmem
        have hsame := h.eq_of_id (visit_subset _ _ (List.nil_subset _) hother) hnode hid
        exact .inl (hsame ▸ hother)
      · exact .inr ⟨hnode, hmem⟩
  · refine List.nodup_append.2 ⟨hvisited, hnodes.filter _, ?_⟩
    rintro node hmem other hother rfl
    exact of_decide_eq_true (List.mem_filter.1 hother).2 (List.mem_map_of_mem hmem)

/-- The rounds are what is visited from the root, and then the other nodes. -/
theorem roundIds_append (h : workflow.IsSimple) : workflow.roundIds =
    (visited workflow).map (·.id) ++
      workflow.nodeIds.filter (· ∉ (visited workflow).map (·.id)) := by
  rw [roundIds_eq, h.order_eq, List.map_append, nodeIds, List.filter_map]
  rfl

theorem roundIds_perm (h : workflow.IsSimple) : workflow.roundIds.Perm workflow.nodeIds := by
  rw [roundIds_eq]
  exact h.order_perm.map _

theorem ledTo_iff (h : workflow.IsSimple) {id : String} :
    workflow.LedTo id ↔ id ∈ (visited workflow).map (·.id) := by
  rw [h.followed_visited.mem_iff, LedTo]
  simp only [h.nextNodeId_eq_some]

/-- The order of the rounds, in terms of the graph. -/
theorem comesBefore_iff (h : workflow.IsSimple) {a b : String} :
    workflow.roundIds.idxOf b < workflow.roundIds.idxOf a ↔ workflow.ComesBefore b a := by
  have hpath := h.followed_visited
  rw [ComesBefore, h.ledTo_iff, h.ledTo_iff, h.roundIds_append]
  simp only [← h.nextNodeId_eq_some]
  rw [← hpath.idxOf_lt_iff]
  by_cases hled : b ∈ (visited workflow).map (·.id)
  · have hlt := List.idxOf_lt_length_iff.2 hled
    rw [List.idxOf_append_of_mem hled, and_iff_left hled, or_iff_left fun h' => h'.2.1 hled]
    by_cases hled' : a ∈ (visited workflow).map (·.id)
    · rw [List.idxOf_append_of_mem hled']
    · rw [List.idxOf_append_of_notMem hled', List.idxOf_eq_length_iff.2 hled']
      exact iff_of_true (hlt.trans_le (Nat.le_add_right ..)) hlt
  · rw [List.idxOf_append_of_notMem hled, or_iff_right fun h' => hled h'.2]
    by_cases hled' : a ∈ (visited workflow).map (·.id)
    · have hlt := List.idxOf_lt_length_iff.2 hled'
      rw [List.idxOf_append_of_mem hled']
      exact iff_of_false (Nat.not_lt.2 (hlt.le.trans (Nat.le_add_right ..))) fun h' => h'.1 hled'
    · rw [List.idxOf_append_of_notMem hled', Nat.add_lt_add_iff_left,
        idxOf_filter_lt (p := (· ∉ (visited workflow).map (·.id))) (decide_eq_true hled)
          (decide_eq_true hled')]
      exact ⟨fun hlt => ⟨hled', hled, hlt⟩, fun h' => h'.2.2⟩

end IsSimple

end P2pCompiledWorkflow

variable {localeCompare : Collation} {draft : P2pWorkflowDraft} {staticPolicy : P2pStaticPolicy}
  {workflow : P2pCompiledWorkflow} {rootNodeId : String}

theorem Accepted.isSimple (h : Accepted draft rootNodeId) :
    (compiledWorkflow localeCompare draft rootNodeId).IsSimple := by
  obtain ⟨hnodes, hedges⟩ : _ ∧ (compiledWorkflow localeCompare draft rootNodeId).edges.Perm _ :=
    compiled_graph
  have houtgoing (kind : P2pEdgeKind)
      (hle : ∀ node ∈ draft.nodes, (outgoing draft.edges node.id kind).length ≤ 1) (id : String) :
      (outgoing (compiledWorkflow localeCompare draft rootNodeId).edges id kind).length ≤ 1 := by
    rw [outgoing, (hedges.filter _).length_eq]
    by_cases hid : id ∈ draft.nodeIds
    · obtain ⟨node, hnode, rfl⟩ := List.mem_map.1 hid
      exact hle node hnode
    · rw [List.filter_eq_nil_iff.2]
      · exact Nat.zero_le 1
      · intro edge hedge hfrom
        exact hid ((of_decide_eq_true hfrom).1 ▸ (h.endpoints edge hedge).1)
  refine ⟨hnodes.nodup_iff.2 h.nodup_nodeIds, hnodes.mem_iff.2 h.root_mem, fun id hid => ?_,
    fun edge hedge => ?_, houtgoing .default h.defaults, houtgoing .conditional h.conditionals⟩
  · obtain ⟨node, hnode, rfl⟩ := List.mem_map.1 (hnodes.mem_iff.1 hid)
    exact of_decide_eq_false (h.nonblank node hnode)
  · obtain ⟨hfrom, hto⟩ := h.endpoints edge (hedges.mem_iff.1 hedge)
    exact ⟨hnodes.mem_iff.2 hfrom, hnodes.mem_iff.2 hto⟩

/-- **The rounds of a compiled workflow** are its nodes, in the order of the default edges. -/
theorem rounds_of_compile (localeCompare : Collation) (draft : P2pWorkflowDraft)
    (staticPolicy : P2pStaticPolicy) (workflow : P2pCompiledWorkflow)
    (h : compileP2pWorkflowDraft localeCompare draft staticPolicy = .ok workflow) :
    workflow.roundIds.Perm workflow.nodeIds ∧ workflow.roundIds.Nodup ∧
      workflow.roundIds.head? = some workflow.rootNodeId ∧
      (∀ edge ∈ workflow.edges, edge.fromNodeId ∈ workflow.roundIds ∧
        edge.toNodeId ∈ workflow.roundIds) ∧
      (∀ edge ∈ workflow.edges, edge.edgeKind = .default → workflow.LedTo edge.fromNodeId →
        workflow.roundIds.idxOf edge.toNodeId ≤ workflow.roundIds.idxOf edge.fromNodeId + 1) ∧
      ∀ a ∈ workflow.roundIds, ∀ b ∈ workflow.roundIds, workflow.LedTo a → ¬ workflow.LedTo b →
        workflow.roundIds.idxOf a < workflow.roundIds.idxOf b := by
  obtain ⟨rootNodeId, haccepted, rfl⟩ := accepted_of_compile h
  have hsimple : (compiledWorkflow localeCompare draft rootNodeId).IsSimple := haccepted.isSimple
  generalize compiledWorkflow localeCompare draft rootNodeId = workflow at h hsimple ⊢
  have hperm := hsimple.roundIds_perm
  have hfollowed := hsimple.followed_visited
  have happend := hsimple.roundIds_append
  refine ⟨hperm, hperm.nodup_iff.2 hsimple.nodup, ?_, fun edge hedge => ?_,
    fun edge hedge hkind hled => ?_, fun a _ b hb hled hnot => ?_⟩
  · rw [happend, List.head?_append, hfollowed.head, Option.some_or]
  · obtain ⟨hfrom, hto⟩ := hsimple.endpoints edge hedge
    exact ⟨hperm.mem_iff.2 hfrom, hperm.mem_iff.2 hto⟩
  · have hnext := hsimple.nextNodeId_eq_some.2 ⟨edge, hedge, hkind, rfl, rfl⟩
    have hfrom := hsimple.ledTo_iff.1 hled
    rw [happend, List.idxOf_append_of_mem hfrom,
      List.idxOf_append_of_mem (hfollowed.closed _ hfrom _ hnext)]
    exact hfollowed.idxOf_le hfrom hnext
  · have ha := hsimple.ledTo_iff.1 hled
    rw [happend, List.idxOf_append_of_mem ha,
      List.idxOf_append_of_notMem fun hmem => hnot (hsimple.ledTo_iff.2 hmem)]
    exact (List.idxOf_lt_length_iff.2 ha).trans_le (Nat.le_add_right ..)

theorem rounds_of_compile_backAndForth :
    backAndForthWorkflow.roundIds.head? = some "draft" :=
  (rounds_of_compile (fun _ _ => 0) backAndForth examplePolicy backAndForthWorkflow
    compile_backAndForth).2.2.1

/-! ## Rounds that are accepted -/

/-- Exactly the plans that satisfy what is asked of rounds are accepted. -/
theorem resolve_eq_ok_iff {rounds : List P2pAdvancedRound} :
    (∃ resolved, resolveP2pRoundPlan rounds = .ok resolved) ↔ Plannable rounds := by
  constructor
  · rintro ⟨resolved, h⟩
    exact (Plannable.of_resolve h).1
  · intro h
    have hids : validateAdvancedRoundIds rounds = none := by
      rw [validateAdvancedRoundIds, List.findSome?_eq_none_iff]
      rintro ⟨round, i⟩ hmem
      have hget := List.mem_zipIdx_iff_getElem?.1 hmem
      have hnodup := nodup_iff_not_mem_take.1 h.nodup (round.id, i)
        (by rw [List.zipIdx_map]; exact List.mem_map.2 ⟨(round, i), hmem, rfl⟩)
      rw [← List.map_take] at hnodup
      dsimp only
      rw [if_neg (h.nonblank round (List.mem_of_getElem? hget)), if_neg hnodup]
    have herrors : rounds.findSome? (advancedRoundError rounds) = none :=
      List.findSome?_eq_none_iff.2 h.error
    refine ⟨rounds.map normalizeAdvancedRound, ?_⟩
    rw [resolveP2pRoundPlan, if_neg h.ne_nil, validateAdvancedRounds, hids, herrors]
    rfl

theorem roundIndexOf_eq (id : String) :
    roundIndexOf (compiledWorkflowToLegacyAdvancedRounds workflow) id =
      workflow.roundIds.idxOf id := by
  rw [roundIndexOf, P2pCompiledWorkflow.roundIds, List.idxOf, List.findIdx_map]
  congr 1

/-- What compiling gives besides. -/
structure P2pCompiledWorkflow.IsChecked (workflow : P2pCompiledWorkflow) : Prop
    extends IsSimple workflow where
  budgets : ∀ edge ∈ workflow.edges, ∀ budget, workflow.loopBudgets.read edge.id = .own budget →
    0 ≤ budget
  proposals : ∀ node ∈ workflow.nodes, node.artifacts = [] → node.preset ≠ .openspecPropose

theorem Accepted.isChecked (h : Accepted draft rootNodeId) :
    (compiledWorkflow localeCompare draft rootNodeId).IsChecked := by
  refine
    { h.isSimple with
      budgets := fun edge hedge budget hread => ?_
      proposals := fun node hnode hnil hpreset => ?_ }
  · have hown : (sortedRecord (draft.loopBudgets.getD .empty)).own.get? edge.id = some budget := by
      rw [compiledWorkflow] at hread
      dsimp only at hread
      rw [PlainObject.read] at hread
      split at hread
      · rename_i hget
        rw [hget, Property.own.inj hread]
      · split at hread <;> cases hread
    rw [get?_sortedRecord] at hown
    split at hown
    · cases hown
    · have hbudget : draft.loopBudget edge.id = .own budget := by
        rw [P2pWorkflowDraft.loopBudget]
        cases hbudgets : draft.loopBudgets with
        | none =>
          rw [hbudgets] at hown
          cases hown
        | some loopBudgets =>
          rw [hbudgets] at hown
          have hget : loopBudgets.own.get? edge.id = some budget := hown
          simp only [PlainObject.read, hget]
      have hvalid := h.budgets edge ((List.perm_insertionSort ..).mem_iff.1 hedge)
      rw [hbudget] at hvalid
      simpa [invalidBudget] using (Bool.or_eq_false_iff.1 hvalid).2
  · obtain ⟨draftNode, hdraft, rfl⟩ := List.mem_map.1 hnode
    obtain ⟨path, hpath⟩ :=
      h.combinations draftNode ((List.perm_insertionSort ..).mem_iff.1 hdraft)
    rw [compileNode] at hnil hpreset
    dsimp only at hnil hpreset
    rw [validateNodeCombination, hpreset] at hpath
    cases hkind : draftNode.nodeKind with
    | logic => simp [hkind, combinationDiagnostic] at hpath
    | script => simp [hkind, combinationDiagnostic] at hpath
    | llm =>
      rw [hkind] at hpath
      by_cases hscope : draftNode.scope = .artifactGeneration
      · simp [hscope, hnil, combinationDiagnostic] at hpath
      · simp [hscope, combinationDiagnostic] at hpath

/-- What is asked of a compiled workflow that is to be launched. -/
structure P2pCompiledWorkflow.IsLaunchable (workflow : P2pCompiledWorkflow) : Prop where
  artifacts : ∀ node ∈ workflow.nodes, node.permissionScope = .artifactGeneration →
    node.artifacts ≠ []
  budgets : ∀ edge ∈ workflow.edges, edge.edgeKind = .conditional →
    workflow.loopBudgets.read edge.id ≠ .missing
  backward : ∀ edge ∈ workflow.edges, edge.edgeKind = .conditional →
    workflow.roundIds.idxOf edge.toNodeId < workflow.roundIds.idxOf edge.fromNodeId
  proposals : ∀ edge ∈ workflow.edges, edge.edgeKind = .conditional →
    ∀ node ∈ workflow.nodes, node.id = edge.fromNodeId → node.preset ≠ .proposalAudit

section Rounds

variable {node : P2pCompiledNode}

/-- A rule that is made of a conditional edge. -/
theorem jumpRuleError_eq_none {round : P2pAdvancedRound} {rule : P2pAdvancedJumpRule}
    (hrule : round.jumpRule = some rule) (hmem : rule.targetRoundId ∈ workflow.roundIds) :
    jumpRuleError (compiledWorkflowToLegacyAdvancedRounds workflow) round = none ↔
      workflow.roundIds.idxOf rule.targetRoundId < workflow.roundIds.idxOf round.id ∧
        round.preset ≠ .proposalAudit := by
  have hmap : rule.targetRoundId ∈
      (compiledWorkflowToLegacyAdvancedRounds workflow).map (·.id) := hmem
  rw [jumpRuleError, hrule]
  dsimp only
  rw [if_neg (not_not.2 hmap), roundIndexOf_eq, roundIndexOf_eq]
  by_cases hle : workflow.roundIds.idxOf round.id ≤ workflow.roundIds.idxOf rule.targetRoundId
  · simp [hle]
  · by_cases hpreset : round.preset = .proposalAudit
    · simp [hle, hpreset]
    · simp [hle, hpreset, Nat.not_le.1 hle]

theorem roundPreset_eq_proposalAudit {preset : P2pPresetKey} :
    roundPresetFromWorkflowPreset preset = .proposalAudit ↔ preset = .proposalAudit := by
  cases preset <;> decide

theorem policy_of_outgoing {edge : P2pCompiledEdge} {rest : List P2pCompiledEdge}
    (houtgoing : outgoing workflow.edges node.id .conditional = edge :: rest) :
    (mapCompiledNodeToLegacyRound node workflow).policy = .forcedRework := by
  simp only [mapCompiledNodeToLegacyRound, houtgoing, List.head?_cons,
    mapConditionalEdgeToJumpRule, P2pAdvancedRound.policy]
  cases workflow.loopBudgets.read edge.id <;> rfl

/-- The rule of a conditional edge with a budget, whose bound is not negative if it is a number. -/
theorem jumpRule_of_outgoing (h : workflow.IsChecked) {edge : P2pCompiledEdge}
    {rest : List P2pCompiledEdge} (hedge : edge ∈ workflow.edges)
    (houtgoing : outgoing workflow.edges node.id .conditional = edge :: rest)
    (hread : workflow.loopBudgets.read edge.id ≠ .missing) :
    ∃ rule, (mapCompiledNodeToLegacyRound node workflow).jumpRule = some rule ∧
      rule.targetRoundId = edge.toNodeId ∧ rule.minTriggers = 0 ∧
        isBelow rule.maxTriggers 0 = false := by
  simp only [mapCompiledNodeToLegacyRound, houtgoing, List.head?_cons,
    mapConditionalEdgeToJumpRule]
  cases hcases : workflow.loopBudgets.read edge.id with
  | missing => exact absurd hcases hread
  | own budget =>
    exact ⟨_, rfl, rfl, rfl, by simpa [isBelow] using h.budgets edge hedge budget hcases⟩
  | inherited => exact ⟨_, rfl, rfl, rfl, rfl⟩

/-- A node has at most one conditional edge. -/
theorem forall_conditional_iff (h : workflow.IsChecked) {edge : P2pCompiledEdge}
    {rest : List P2pCompiledEdge}
    (houtgoing : outgoing workflow.edges node.id .conditional = edge :: rest)
    (p : P2pCompiledEdge → Prop) :
    (∀ other ∈ workflow.edges, other.edgeKind = .conditional → other.fromNodeId = node.id →
      p other) ↔ p edge := by
  obtain ⟨hedge, hfilter⟩ := List.mem_filter.1 (houtgoing ▸ List.mem_cons_self)
  obtain ⟨hfrom, hkind⟩ := of_decide_eq_true hfilter
  refine ⟨fun hp => hp edge hedge hkind hfrom, fun hp other hother hkind' hfrom' => ?_⟩
  have hone := P2pCompiledWorkflow.IsSimple.outgoing_eq
    (h.conditionals other.fromNodeId) hother hkind'
  rw [hfrom', houtgoing] at hone
  rw [← (List.cons.inj hone).1]
  exact hp

theorem conditional_error_of_rule {rule : P2pAdvancedJumpRule}
    (hpolicy : (mapCompiledNodeToLegacyRound node workflow).policy = .forcedRework)
    (hrule : (mapCompiledNodeToLegacyRound node workflow).jumpRule = some rule)
    (htarget : rule.targetRoundId ∈ workflow.roundIds) (hmin : rule.minTriggers = 0)
    (hmax : isBelow rule.maxTriggers 0 = false) :
    (forcedReworkError (mapCompiledNodeToLegacyRound node workflow) = none ∧
        jumpRuleError (compiledWorkflowToLegacyAdvancedRounds workflow)
          (mapCompiledNodeToLegacyRound node workflow) = none) ↔
      workflow.roundIds.idxOf rule.targetRoundId < workflow.roundIds.idxOf node.id ∧
        node.preset ≠ .proposalAudit := by
  have hid : (mapCompiledNodeToLegacyRound node workflow).id = node.id := by
    simp [mapCompiledNodeToLegacyRound]
  have hpreset : (mapCompiledNodeToLegacyRound node workflow).preset ≠ .proposalAudit ↔
      node.preset ≠ .proposalAudit := by
    simp [mapCompiledNodeToLegacyRound, roundPreset_eq_proposalAudit]
  have hforced : forcedReworkError (mapCompiledNodeToLegacyRound node workflow) = none := by
    simp [forcedReworkError, hpolicy, hrule, hmin, hmax]
  rw [jumpRuleError_eq_none hrule htarget, hid, hpreset]
  exact and_iff_right hforced

theorem conditional_error (h : workflow.IsChecked) :
    (forcedReworkError (mapCompiledNodeToLegacyRound node workflow) = none ∧
        jumpRuleError (compiledWorkflowToLegacyAdvancedRounds workflow)
          (mapCompiledNodeToLegacyRound node workflow) = none) ↔
      ∀ edge ∈ workflow.edges, edge.edgeKind = .conditional → edge.fromNodeId = node.id →
        workflow.loopBudgets.read edge.id ≠ .missing ∧
          workflow.roundIds.idxOf edge.toNodeId < workflow.roundIds.idxOf node.id ∧
            node.preset ≠ .proposalAudit := by
  cases houtgoing : outgoing workflow.edges node.id .conditional with
  | nil =>
    have hnone : ∀ edge ∈ workflow.edges, edge.edgeKind = .conditional →
        edge.fromNodeId ≠ node.id := fun edge hedge hkind hfrom =>
      List.filter_eq_nil_iff.1 houtgoing edge hedge (by simp [hkind, hfrom])
    have hround : (mapCompiledNodeToLegacyRound node workflow).policy = .none ∧
        (mapCompiledNodeToLegacyRound node workflow).jumpRule = none := by
      simp [mapCompiledNodeToLegacyRound, houtgoing, mapConditionalEdgeToJumpRule,
        P2pAdvancedRound.policy]
    refine iff_of_true ?_ fun edge hedge hkind hfrom => absurd hfrom (hnone edge hedge hkind)
    simp [forcedReworkError, jumpRuleError, hround]
  | cons edge rest =>
    have hedge : edge ∈ workflow.edges :=
      (List.mem_filter.1 (houtgoing ▸ List.mem_cons_self)).1
    have hpolicy := policy_of_outgoing houtgoing
    rw [forall_conditional_iff h houtgoing fun other =>
      workflow.loopBudgets.read other.id ≠ .missing ∧
        workflow.roundIds.idxOf other.toNodeId < workflow.roundIds.idxOf node.id ∧
          node.preset ≠ .proposalAudit]
    by_cases hread : workflow.loopBudgets.read edge.id = .missing
    · refine iff_of_false (fun hnone => ?_) fun hall => hall.1 hread
      have hrule : (mapCompiledNodeToLegacyRound node workflow).jumpRule = none := by
        simp [mapCompiledNodeToLegacyRound, houtgoing, mapConditionalEdgeToJumpRule, hread]
      simp [forcedReworkError, hpolicy, hrule] at hnone
    · obtain ⟨rule, hrule, htarget, hmin, hmax⟩ := jumpRule_of_outgoing h hedge houtgoing hread
      have hto : edge.toNodeId ∈ workflow.roundIds :=
        h.roundIds_perm.mem_iff.2 (h.endpoints edge hedge).2
      rw [conditional_error_of_rule hpolicy hrule (htarget ▸ hto) hmin hmax, htarget]
      exact (and_iff_right hread).symm

theorem artifacts_error (h : workflow.IsChecked) (hnode : node ∈ workflow.nodes) :
    ¬ ((mapCompiledNodeToLegacyRound node workflow).permissionScope = .artifactGeneration ∧
        (mapCompiledNodeToLegacyRound node workflow).convention = .explicit ∧
          (mapCompiledNodeToLegacyRound node workflow).outputs = []) ↔
      (node.permissionScope = .artifactGeneration → node.artifacts ≠ []) := by
  cases hartifacts : node.artifacts with
  | nil =>
    have hpreset : roundPresetFromWorkflowPreset node.preset ≠ .openspecPropose := by
      have := h.proposals node hnode hartifacts
      cases hcases : node.preset <;> simp [roundPresetFromWorkflowPreset, hcases] at this ⊢
    simp [P2pAdvancedRound.convention, P2pAdvancedRound.defaultArtifactConvention,
      P2pAdvancedRound.outputs, mapCompiledNodeToLegacyRound, hartifacts, hpreset]
  | cons artifact rest =>
    have hconvention : (mapCompiledNodeToLegacyRound node workflow).convention ≠ .explicit := by
      simp only [P2pAdvancedRound.convention, mapCompiledNodeToLegacyRound, hartifacts,
        List.head?_cons, Option.map_some, Option.getD_some]
      cases artifact.convention <;> decide
    simp [hconvention]

theorem advancedRoundError_map (h : workflow.IsChecked) (hnode : node ∈ workflow.nodes) :
    advancedRoundError (compiledWorkflowToLegacyAdvancedRounds workflow)
        (mapCompiledNodeToLegacyRound node workflow) = none ↔
      (node.permissionScope = .artifactGeneration → node.artifacts ≠ []) ∧
        ∀ edge ∈ workflow.edges, edge.edgeKind = .conditional → edge.fromNodeId = node.id →
          workflow.loopBudgets.read edge.id ≠ .missing ∧
            workflow.roundIds.idxOf edge.toNodeId < workflow.roundIds.idxOf node.id ∧
              node.preset ≠ .proposalAudit := by
  rw [← artifacts_error h hnode, ← conditional_error h, advancedRoundError]
  split
  · rename_i hartifacts
    exact iff_of_false (by simp) fun hall => hall.1 hartifacts
  · rename_i hartifacts
    rw [orElse_eq_none, and_iff_right hartifacts]

end Rounds

theorem P2pCompiledWorkflow.IsChecked.plannable_iff (h : workflow.IsChecked) :
    Plannable (compiledWorkflowToLegacyAdvancedRounds workflow) ↔ workflow.IsLaunchable := by
  have hround {round : P2pAdvancedRound} :
      round ∈ compiledWorkflowToLegacyAdvancedRounds workflow ↔
        ∃ node ∈ workflow.nodes, mapCompiledNodeToLegacyRound node workflow = round := by
    rw [compiledWorkflowToLegacyAdvancedRounds, (h.order_perm.map _).mem_iff, List.mem_map]
  have hid (node : P2pCompiledNode) :
      (mapCompiledNodeToLegacyRound node workflow).id = node.id := by
    simp [mapCompiledNodeToLegacyRound]
  constructor
  · intro hplan
    have herror (node : P2pCompiledNode) (hnode : node ∈ workflow.nodes) :=
      (advancedRoundError_map h hnode).1 (hplan.error _ (hround.2 ⟨node, hnode, rfl⟩))
    have hedge : ∀ edge ∈ workflow.edges, edge.edgeKind = .conditional →
        ∃ node ∈ workflow.nodes, node.id = edge.fromNodeId := fun edge hedge _ =>
      List.mem_map.1 (h.endpoints edge hedge).1
    refine ⟨fun node hnode => (herror node hnode).1, fun edge hmem hkind => ?_,
      fun edge hmem hkind => ?_, fun edge hmem hkind node hnode hfrom => ?_⟩
    · obtain ⟨node, hnode, hfrom⟩ := hedge edge hmem hkind
      exact ((herror node hnode).2 edge hmem hkind hfrom.symm).1
    · obtain ⟨node, hnode, hfrom⟩ := hedge edge hmem hkind
      exact hfrom ▸ ((herror node hnode).2 edge hmem hkind hfrom.symm).2.1
    · exact ((herror node hnode).2 edge hmem hkind hfrom.symm).2.2
  · intro hlaunch
    refine ⟨?_, fun round hmem => ?_, ?_, fun round hmem => ?_⟩
    · obtain ⟨node, hnode, -⟩ := List.mem_map.1 h.root_mem
      exact List.ne_nil_of_mem (hround.2 ⟨node, hnode, rfl⟩)
    · obtain ⟨node, hnode, rfl⟩ := hround.1 hmem
      exact hid node ▸ h.nonblank node.id (List.mem_map_of_mem hnode)
    · exact h.roundIds_perm.nodup_iff.2 h.nodup
    · obtain ⟨node, hnode, rfl⟩ := hround.1 hmem
      refine (advancedRoundError_map h hnode).2 ⟨hlaunch.artifacts node hnode, ?_⟩
      intro edge hedge hkind hfrom
      exact ⟨hlaunch.budgets edge hedge hkind, hfrom ▸ hlaunch.backward edge hedge hkind,
        hlaunch.proposals edge hedge hkind node hnode hfrom.symm⟩

/-- **Which compiled workflows can be launched.** -/
theorem resolve_compiled_iff (localeCompare : Collation) (draft : P2pWorkflowDraft)
    (staticPolicy : P2pStaticPolicy) (workflow : P2pCompiledWorkflow)
    (h : compileP2pWorkflowDraft localeCompare draft staticPolicy = .ok workflow) :
    (∃ rounds, resolveP2pRoundPlan (compiledWorkflowToLegacyAdvancedRounds workflow) = .ok rounds) ↔
      workflow.IsLaunchable := by
  obtain ⟨rootNodeId, haccepted, rfl⟩ := accepted_of_compile h
  rw [resolve_eq_ok_iff]
  exact haccepted.isChecked.plannable_iff

/-- An audit that asks for another draft, twice at most. -/
def audited : P2pWorkflowDraft :=
  { id := "audited"
    nodes :=
      [{ id := "draft", nodeKind := .llm, preset := .discuss },
        { id := "review", nodeKind := .llm, preset := .audit }]
    edges :=
      [{ id := "on", fromNodeId := "draft", toNodeId := "review", edgeKind := .default },
        { id := "again", fromNodeId := "review", toNodeId := "draft", edgeKind := .conditional
          condition := some { kind := .verdictMarkerEquals, equals := "REWORK" } }]
    rootNodeId := some "draft"
    loopBudgets := some (PlainObject.empty.assign "again" 2) }

def auditedWorkflow : P2pCompiledWorkflow := compiledWorkflow (fun _ _ => 0) audited "draft"

theorem compile_audited :
    compileP2pWorkflowDraft (fun _ _ => 0) audited examplePolicy = .ok auditedWorkflow :=
  compile_eq_ok.2 ⟨by decide +kernel, by decide +kernel, "draft", rfl, rfl⟩

theorem resolve_compiled_iff_audited : auditedWorkflow.IsLaunchable :=
  (resolve_compiled_iff (fun _ _ => 0) audited examplePolicy auditedWorkflow compile_audited).1
    ⟨(compiledWorkflowToLegacyAdvancedRounds auditedWorkflow).map normalizeAdvancedRound,
      by decide +kernel⟩

/-! ## Launching a workflow as its own graph -/

/-- The rounds of a plan are the nodes of the workflow, each once and the root first, and every edge
leads to one of them. -/
structure P2pCompiledWorkflow.IsLaunchedAs (workflow : P2pCompiledWorkflow)
    (rounds : List P2pResolvedRound) : Prop where
  resolved : resolveP2pRoundPlan (compiledWorkflowToLegacyAdvancedRounds workflow) = .ok rounds
  ids : (rounds.map (·.id)).Perm workflow.nodeIds
  nodup : (rounds.map (·.id)).Nodup
  root : (rounds.map (·.id)).head? = some workflow.rootNodeId
  targets : ∀ edge ∈ workflow.edges, edge.toNodeId ∈ rounds.map (·.id)

/-- What the rounds can say of a workflow: a conditional edge is a jump back that is bounded, from a
node that is no audit of a proposal, and what a node generates it declares. -/
structure P2pCompiledWorkflow.FitsRounds (workflow : P2pCompiledWorkflow) : Prop where
  artifacts : ∀ node ∈ workflow.nodes, node.permissionScope = .artifactGeneration →
    node.artifacts ≠ []
  budgets : ∀ edge ∈ workflow.edges, edge.edgeKind = .conditional →
    workflow.loopBudgets.read edge.id ≠ .missing
  backward : ∀ edge ∈ workflow.edges, edge.edgeKind = .conditional →
    workflow.ComesBefore edge.toNodeId edge.fromNodeId
  proposals : ∀ edge ∈ workflow.edges, edge.edgeKind = .conditional →
    ∀ node ∈ workflow.nodes, node.id = edge.fromNodeId → node.preset ≠ .proposalAudit

theorem P2pCompiledWorkflow.IsSimple.fitsRounds_iff (h : workflow.IsSimple) :
    workflow.FitsRounds ↔ workflow.IsLaunchable :=
  ⟨fun hfits => ⟨hfits.artifacts, hfits.budgets,
      fun edge hedge hkind => h.comesBefore_iff.2 (hfits.backward edge hedge hkind),
      hfits.proposals⟩,
    fun hlaunch => ⟨hlaunch.artifacts, hlaunch.budgets,
      fun edge hedge hkind => h.comesBefore_iff.1 (hlaunch.backward edge hedge hkind),
      hlaunch.proposals⟩⟩

/-- A plan that is accepted has the nodes as its rounds. -/
theorem P2pCompiledWorkflow.IsSimple.isLaunchedAs (h : workflow.IsSimple)
    {rounds : List P2pResolvedRound}
    (hresolved : resolveP2pRoundPlan (compiledWorkflowToLegacyAdvancedRounds workflow) =
      .ok rounds) : workflow.IsLaunchedAs rounds := by
  have hids : rounds.map (·.id) = workflow.roundIds := by
    rw [(Plannable.of_resolve hresolved).2, List.map_map]
    rfl
  refine ⟨hresolved, ?_, ?_, ?_, fun edge hedge => ?_⟩
  · rw [hids]
    exact h.roundIds_perm
  · rw [hids]
    exact h.roundIds_perm.nodup_iff.2 h.nodup
  · rw [hids, h.roundIds_append, List.head?_append, h.followed_visited.head, Option.some_or]
  · rw [hids]
    exact h.roundIds_perm.mem_iff.2 (h.endpoints edge hedge).2

/-- **Which compiled workflows are launched as their own graphs**: those that fit the rounds. -/
theorem launchedAsGraph_iff (localeCompare : Collation) (draft : P2pWorkflowDraft)
    (staticPolicy : P2pStaticPolicy) (workflow : P2pCompiledWorkflow)
    (h : compileP2pWorkflowDraft localeCompare draft staticPolicy = .ok workflow) :
    (∃ rounds, workflow.IsLaunchedAs rounds) ↔ workflow.FitsRounds := by
  obtain ⟨rootNodeId, haccepted, rfl⟩ := accepted_of_compile h
  have hchecked : (compiledWorkflow localeCompare draft rootNodeId).IsChecked :=
    haccepted.isChecked
  rw [hchecked.fitsRounds_iff, ← hchecked.plannable_iff, ← resolve_eq_ok_iff]
  exact exists_congr fun rounds => ⟨(·.resolved), hchecked.isLaunchedAs⟩

theorem launchedAsGraph_iff_audited : auditedWorkflow.FitsRounds := by
  have hresolved : resolveP2pRoundPlan (compiledWorkflowToLegacyAdvancedRounds auditedWorkflow) =
      .ok ((compiledWorkflowToLegacyAdvancedRounds auditedWorkflow).map
        normalizeAdvancedRound) := by
    decide +kernel
  exact (launchedAsGraph_iff (fun _ _ => 0) audited examplePolicy auditedWorkflow
    compile_audited).1 ⟨_, hresolved, .refl _, by decide +kernel, rfl, by decide +kernel⟩

/-- A review that passes goes on to what is published. -/
def published : P2pWorkflowDraft :=
  { id := "published"
    nodes :=
      [{ id := "draft", nodeKind := .llm, preset := .discuss },
        { id := "review", nodeKind := .llm, preset := .audit },
        { id := "publish", nodeKind := .llm, preset := .discuss }]
    edges :=
      [{ id := "on", fromNodeId := "draft", toNodeId := "review", edgeKind := .default },
        { id := "passed", fromNodeId := "review", toNodeId := "publish", edgeKind := .conditional
          condition := some { kind := .verdictMarkerEquals, equals := "PASS" } }]
    rootNodeId := some "draft" }

def publishedWorkflow : P2pCompiledWorkflow := compiledWorkflow (fun _ _ => 0) published "draft"

theorem compile_published :
    compileP2pWorkflowDraft (fun _ _ => 0) published examplePolicy = .ok publishedWorkflow :=
  compile_eq_ok.2 ⟨by decide +kernel, by decide +kernel, "draft", rfl, rfl⟩

/-- A conditional edge forward needs no budget, and its round has a verdict and nowhere to jump. -/
theorem not_launchedAsGraph : ¬∀ (localeCompare : Collation) (draft : P2pWorkflowDraft)
    (staticPolicy : P2pStaticPolicy) (workflow : P2pCompiledWorkflow),
    compileP2pWorkflowDraft localeCompare draft staticPolicy = .ok workflow →
      ∃ rounds, workflow.IsLaunchedAs rounds := by
  intro h
  obtain ⟨rounds, hrounds⟩ := h (fun _ _ => 0) published examplePolicy publishedWorkflow
    compile_published
  have hthrows : (resolveP2pRoundPlan
      (compiledWorkflowToLegacyAdvancedRounds publishedWorkflow)).isOk = false := by
    decide +kernel
  rw [hrounds.resolved] at hthrows
  cases hthrows

end Imcodes.Workflow
