import Imcodes.Workflow.Budgets

/-!
# The graphs of drafts that compile

* `wellFormed_of_compile` — everything is reached from the root, ids name one node or edge, a run
  never has to choose between edges of a kind, and no cycle is without a loop budget.
* `compiled_graph` — the compiled workflow has the graph of its draft.
-/

namespace Imcodes.Workflow

open Imcodes.Queue (Collation)
open Graphs

/-- A path along edges. -/
def Leads (edges : List P2pWorkflowEdgeDraft) (fromNodeId toNodeId : String) : Prop :=
  Relation.ReflTransGen (Adjacent (arrows edges)) fromNodeId toNodeId

/-- A graph that a run can walk through. -/
structure IsWellFormed (draft : P2pWorkflowDraft) (rootNodeId : String) : Prop where
  reachable : ∀ node ∈ draft.nodes, Leads draft.edges rootNodeId node.id
  endpoints : ∀ edge ∈ draft.edges, (∃ node ∈ draft.nodes, node.id = edge.fromNodeId) ∧
    ∃ node ∈ draft.nodes, node.id = edge.toNodeId
  defaults : ∀ node ∈ draft.nodes, (outgoing draft.edges node.id .default).length ≤ 1
  conditionals : ∀ node ∈ draft.nodes, (outgoing draft.edges node.id .conditional).length ≤ 1
  nodeIds : draft.nodeIds.Nodup
  edgeIds : draft.edgeIds.Nodup
  cycles : ∀ cycle ⊆ draft.edges, IsCycle (·.fromNodeId) (·.toNodeId) cycle →
    ∃ edge ∈ cycle, ∃ budget : ℕ, draft.loopBudget edge.id = .own (budget : ℚ)

variable {localeCompare : Collation} {draft : P2pWorkflowDraft} {rootNodeId : String}

/-- An edge that does not lead forward has a loop budget. -/
theorem Accepted.loopBudget_of_rank_le (h : Accepted draft rootNodeId)
    {edge : P2pWorkflowEdgeDraft} (he : edge ∈ draft.edges)
    (hrank : rank draft edge.toNodeId ≤ rank draft edge.fromNodeId) :
    ∃ budget : ℕ, draft.loopBudget edge.id = .own (budget : ℚ) := by
  cases hbudget : draft.loopBudget edge.id with
  | own budget =>
    refine ⟨budget.num.toNat, congrArg Property.own ?_⟩
    exact h.budget_eq he hbudget
  | inherited =>
    have hvalid := h.budgets edge he
    rw [hbudget] at hvalid
    cases hvalid
  | missing => exact absurd (h.rank_lt_rank he hbudget) (Nat.not_lt.2 hrank)

theorem Accepted.isWellFormed (h : Accepted draft rootNodeId) : IsWellFormed draft rootNodeId where
  reachable := fun node hnode => h.reachable node.id (List.mem_map_of_mem hnode)
  endpoints := fun edge he =>
    ⟨List.mem_map.1 (h.endpoints edge he).1, List.mem_map.1 (h.endpoints edge he).2⟩
  defaults := h.defaults
  conditionals := h.conditionals
  nodeIds := h.nodup_nodeIds
  edgeIds := h.nodup_edgeIds
  cycles := fun cycle hcycle h' => by
    obtain ⟨edge, he, hrank⟩ := h'.exists_rank_le (rank draft)
    exact ⟨edge, he, h.loopBudget_of_rank_le (hcycle he) hrank⟩

/-- The nodes of the compiled workflow are those of the draft, and so are the edges. -/
theorem compiled_graph :
    ((compiledWorkflow localeCompare draft rootNodeId).nodes.map (·.id)).Perm draft.nodeIds ∧
      (compiledWorkflow localeCompare draft rootNodeId).edges.Perm draft.edges := by
  refine ⟨?_, List.perm_insertionSort _ _⟩
  have hids : (compiledWorkflow localeCompare draft rootNodeId).nodes.map (·.id) =
      (sortedBy localeCompare (·.id) draft.nodes).map (·.id) := by
    rw [compiledWorkflow, List.map_map]
    rfl
  rw [hids]
  exact (List.perm_insertionSort _ _).map _

/-- **The graph of a draft that compiles is well formed**, from the root of the workflow. -/
theorem wellFormed_of_compile (localeCompare : Collation) (draft : P2pWorkflowDraft)
    (staticPolicy : P2pStaticPolicy) (workflow : P2pCompiledWorkflow)
    (h : compileP2pWorkflowDraft localeCompare draft staticPolicy = .ok workflow) :
    IsWellFormed draft workflow.rootNodeId := by
  obtain ⟨rootNodeId, haccepted, rfl⟩ := accepted_of_compile h
  exact haccepted.isWellFormed

theorem wellFormed_of_compile_backAndForth : IsWellFormed backAndForth "draft" :=
  wellFormed_of_compile (fun _ _ => 0) backAndForth examplePolicy backAndForthWorkflow
    compile_backAndForth

end Imcodes.Workflow
