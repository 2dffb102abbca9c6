import Imcodes.Graphs.Walks
import Imcodes.Workflow.Accepted
import Imcodes.Workflow.Chain
import Mathlib.Data.Rat.Cast.Order

/-!
# Loop budgets

The edges that a run takes are a walk through the workflow.  An edge without a
loop budget leads to a node that comes later in the draft, so a run is short if
the edges with a budget keep to it.  The conditional edges do; a default edge is
taken whether its budget is used up or not.

* `bounded_step` — a turn keeps the counts, the budgets and the number of
  attempts, unless a default edge is taken that is used up.
* `bounded_of_within` — so does a run, and it begins at most `roundBound` rounds.
* `not_bounded` — two nodes with default edges to each other go on for ever.
-/

namespace Imcodes.Workflow

open Imcodes.Queue (Collation)
open Machine PlainObject

/-! ## Budgets -/

/-- The loop budget of an edge. -/
def P2pCompiledWorkflow.budget (workflow : P2pCompiledWorkflow) (edge : P2pCompiledEdge) : ℕ :=
  match workflow.loopBudgets.read edge.id with
  | .own budget => budget.num.toNat
  | _ => 0

def P2pCompiledWorkflow.isBudgeted (workflow : P2pCompiledWorkflow) (edge : P2pCompiledEdge) :
    Bool :=
  match workflow.loopBudgets.read edge.id with
  | .own _ => true
  | _ => false

/-- How many rounds a run can begin, each of them three times if its script fails. -/
def roundBound (workflow : P2pCompiledWorkflow) : ℕ :=
  p2pScriptRetryDefaultAttempts *
    (workflow.nodes.length *
      (∑ edge ∈ workflow.edges.toFinset with workflow.isBudgeted edge = true,
        workflow.budget edge + 1))

/-- No edge with a loop budget has the name of something that objects inherit. -/
def PlainlyNamed (draft : P2pWorkflowDraft) : Prop :=
  ∀ edge ∈ draft.edges, draft.loopBudget edge.id ≠ .missing → edge.id ∉ objectPrototypeKeys

/-- The place of a node in the draft. -/
def rank (draft : P2pWorkflowDraft) (id : String) : ℕ := (nodeOrder draft.nodes id).getD 0

instance : DecidablePred PlainlyNamed := fun draft => by
  unfold PlainlyNamed
  infer_instance

theorem nodeOrder_lt {nodes : List P2pWorkflowNodeDraft} {id : String} {i : ℕ}
    (h : nodeOrder nodes id = some i) : i < nodes.length := by
  obtain ⟨p, hlast, rfl⟩ := Option.map_eq_some_iff.1 h
  have hmem := List.mem_of_mem_filter (List.mem_of_getLast? hlast)
  exact (List.getElem?_eq_some_iff.1 (List.mem_zipIdx_iff_getElem?.1 hmem)).1

section Compiled

variable {localeCompare : Collation} {draft : P2pWorkflowDraft} {rootNodeId : String}
  {workflow : P2pCompiledWorkflow}

theorem Accepted.rank_lt (h : Accepted draft rootNodeId) (id : String) :
    rank draft id < draft.nodes.length := by
  rw [rank]
  cases hi : nodeOrder draft.nodes id with
  | none => exact List.length_pos_iff.2 h.nodes_ne_nil
  | some i => exact nodeOrder_lt hi

theorem mem_compiledWorkflow_edges {edge : P2pCompiledEdge} :
    edge ∈ (compiledWorkflow localeCompare draft rootNodeId).edges ↔ edge ∈ draft.edges := by
  simp [compiledWorkflow, sortedBy]

theorem length_compiledWorkflow_nodes :
    (compiledWorkflow localeCompare draft rootNodeId).nodes.length = draft.nodes.length := by
  simp [compiledWorkflow, sortedBy, List.length_insertionSort]

/-- The compiled workflow has the loop budget of an edge that is plainly named. -/
theorem read_loopBudgets (hnames : PlainlyNamed draft)
    {edge : P2pCompiledEdge} (he : edge ∈ draft.edges) {budget : ℚ} :
    (compiledWorkflow localeCompare draft rootNodeId).loopBudgets.read edge.id = .own budget ↔
      draft.loopBudget edge.id = .own budget := by
  change (sortedRecord (draft.loopBudgets.getD .empty)).read edge.id = _ ↔ _
  by_cases hname : edge.id ∈ objectPrototypeKeys
  · -- an edge with such a name has no budget, neither here nor there
    have hmissing : draft.loopBudget edge.id = .missing := by
      by_contra hne
      exact hnames edge he hne hname
    cases hbudgets : draft.loopBudgets with
    | none =>
      rw [P2pWorkflowDraft.loopBudget, hbudgets]
      have : (sortedRecord (Option.getD none .empty)).read edge.id = .inherited := by
        rw [PlainObject.read, get?_sortedRecord]
        simp [PlainObject.empty, hname]
      rw [this]
      simp
    | some loopBudgets =>
      rw [P2pWorkflowDraft.loopBudget, hbudgets] at hmissing
      change loopBudgets.read edge.id = .missing at hmissing
      have hget : loopBudgets.own.get? edge.id = none := by
        cases hget : loopBudgets.own.get? edge.id with
        | none => rfl
        | some value =>
          rw [read_eq_own.2 hget] at hmissing
          cases hmissing
      rw [read_of_get?_eq_none hget, if_pos hname] at hmissing
      cases hmissing
  · rw [read_sortedRecord hname, P2pWorkflowDraft.loopBudget]
    cases draft.loopBudgets with
    | none => simp [hname]
    | some loopBudgets => rfl

/-- An edge without a budget leads forward. -/
theorem Accepted.rank_lt_rank (h : Accepted draft rootNodeId) {edge : P2pCompiledEdge}
    (he : edge ∈ draft.edges) (hmissing : draft.loopBudget edge.id = .missing) :
    rank draft edge.fromNodeId < rank draft edge.toNodeId := by
  obtain ⟨i, hi⟩ := nodeOrder_of_mem (h.endpoints edge he).1
  obtain ⟨j, hj⟩ := nodeOrder_of_mem (h.endpoints edge he).2
  rw [rank, rank, hi, hj]
  by_contra hle
  exact h.backward edge he i j hi hj (Nat.not_lt.1 hle) hmissing

/-- A budget is a natural number. -/
theorem Accepted.budget_eq (h : Accepted draft rootNodeId) {edge : P2pCompiledEdge}
    (he : edge ∈ draft.edges) {budget : ℚ} (hbudget : draft.loopBudget edge.id = .own budget) :
    budget = (budget.num.toNat : ℚ) := by
  have hvalid := h.budgets edge he
  rw [hbudget] at hvalid
  simp only [invalidBudget, Bool.or_eq_false_iff, Bool.not_eq_false', isInteger, decide_eq_true_eq,
    decide_eq_false_iff_not] at hvalid
  obtain ⟨hint, hnonneg⟩ := hvalid
  have hnum : (budget.num.toNat : ℤ) = budget.num := 
    Int.toNat_of_nonneg (Rat.num_nonneg.2 (Rat.not_lt.1 hnonneg))
  have hcast : ((budget.num.toNat : ℤ) : ℚ) = budget := by
    rw [hnum]
    exact Rat.coe_int_num_of_den_eq_one hint
  exact_mod_cast hcast.symm

end Compiled

/-! ## The state of a run -/

/-- How often an edge was used, if that is a number. -/
def Chain.uses (c : Chain) (edgeId : String) : Option ℕ :=
  (c.compiledEdgeUseCounts.map (·.count edgeId)).getD (some 0)

/-- How often the script of a round was tried again. -/
def Chain.attempts (c : Chain) (roundId : String) : ℕ :=
  ((c.scriptRetryCounts.getD .empty).count roundId).getD 0

/-- What was done in a run keeps to the budgets. -/
structure Bounded (rounds : List P2pResolvedRound) (workflow : P2pCompiledWorkflow) (root : String)
    (c : Chain) : Prop where
  walk : Graphs.IsWalk (·.fromNodeId) (·.toNodeId) root c.traversed
  mem : ∀ edge ∈ c.traversed, edge ∈ workflow.edges
  counted : ∀ edge ∈ workflow.edges, workflow.isBudgeted edge = true →
    c.uses edge.id = some (c.traversed.count edge)
  within : ∀ edge ∈ workflow.edges, workflow.isBudgeted edge = true →
    c.traversed.count edge ≤ workflow.budget edge
  here : c.ended = none → ∀ round, rounds[c.roundIndex]? = some round →
    round.id = Graphs.finish (·.toNodeId) root c.traversed
  tries : c.ended = none → ∀ round, rounds[c.roundIndex]? = some round →
    c.attempts round.id < p2pScriptRetryDefaultAttempts ∧
      c.visited.length ≤ p2pScriptRetryDefaultAttempts * c.traversed.length + c.attempts round.id
  visits : c.visited.length ≤ p2pScriptRetryDefaultAttempts * (c.traversed.length + 1)

/-- What a turn relies on: edges with different ids, of which those with a budget are
plainly named and have one that is a natural number. -/
structure Budgeted (workflow : P2pCompiledWorkflow) : Prop where
  nodup : (workflow.edges.map (·.id)).Nodup
  plain : ∀ edge ∈ workflow.edges, workflow.isBudgeted edge = true →
    edge.id ∉ objectPrototypeKeys
  read : ∀ edge ∈ workflow.edges, workflow.isBudgeted edge = true →
    workflow.loopBudgets.read edge.id = .own (workflow.budget edge : ℚ)

theorem Accepted.budgeted {draft : P2pWorkflowDraft} {rootNodeId : String}
    (h : Accepted draft rootNodeId) (localeCompare : Collation) (hnames : PlainlyNamed draft) :
    Budgeted (compiledWorkflow localeCompare draft rootNodeId) := by
  have hown {edge : P2pCompiledEdge} (he : edge ∈ draft.edges)
      (hb : (compiledWorkflow localeCompare draft rootNodeId).isBudgeted edge = true) :
      ∃ budget, draft.loopBudget edge.id = .own budget ∧
        (compiledWorkflow localeCompare draft rootNodeId).loopBudgets.read edge.id = .own budget := by
    rw [P2pCompiledWorkflow.isBudgeted] at hb
    split at hb
    · rename_i budget hread
      exact ⟨budget, (read_loopBudgets hnames he).1 hread, hread⟩
    · cases hb
  refine ⟨?_, fun edge he hb => ?_, fun edge he hb => ?_⟩
  · exact ((List.perm_insertionSort _ draft.edges).map P2pWorkflowEdgeDraft.id).nodup_iff.2
      h.nodup_edgeIds
  · obtain ⟨budget, hbudget, -⟩ := hown (mem_compiledWorkflow_edges.1 he) hb
    exact hnames edge (mem_compiledWorkflow_edges.1 he) (by rw [hbudget]; simp)
  · obtain ⟨budget, hbudget, hread⟩ := hown (mem_compiledWorkflow_edges.1 he) hb
    rw [P2pCompiledWorkflow.budget, hread, ← h.budget_eq (mem_compiledWorkflow_edges.1 he) hbudget]

theorem Plan.goTo_eq (plan : Plan) (c : Chain) (id : String) (missing : Ending) :
    ∃ roundIndex ended, plan.goTo c id missing = { c with roundIndex, ended } ∧
      (ended = none → ∀ round, plan.rounds[roundIndex]? = some round → round.id = id) := by
  rw [Plan.goTo]
  cases hfind : plan.rounds.findIdx? (·.id = id) with
  | none => exact ⟨c.roundIndex, some missing, rfl, (nomatch ·)⟩
  | some roundIndex =>
    refine ⟨roundIndex, c.ended, rfl, fun _ round hround => ?_⟩
    obtain ⟨hlt, hid, -⟩ := List.findIdx?_eq_some_iff_getElem.1 hfind
    rw [List.getElem?_eq_getElem hlt, Option.some.injEq] at hround
    subst hround
    exact of_decide_eq_true hid

section Steps

variable {rounds : List P2pResolvedRound} {workflow : P2pCompiledWorkflow} {root : String}
  {c : Chain} {edge : P2pCompiledEdge}

/-- An edge with a budget that is not used up was used less often. -/
theorem Budgeted.lt_budget (h : Budgeted workflow) (he : edge ∈ workflow.edges)
    (hb : workflow.isBudgeted edge = true) {n : ℕ} (huses : c.uses edge.id = some n)
    (hspent : isSpent workflow.loopBudgets c.compiledEdgeUseCounts edge.id = false) :
    n < workflow.budget edge := by
  have hcount : (c.compiledEdgeUseCounts.map (·.count edge.id)).getD (some 0) = some n := huses
  unfold isSpent at hspent
  dsimp only at hspent
  rw [hcount, h.read edge he hb] at hspent
  simpa using hspent

/-- The state in which a turn ends the run. -/
theorem Bounded.end (h : Bounded rounds workflow root c) {visited : List String}
    (hvisits : visited.length ≤ p2pScriptRetryDefaultAttempts * (c.traversed.length + 1))
    {roundIndex : ℕ} {roundJumpCounts : Counters} {scriptRetryCounts : Option Counters}
    {ending : Ending} :
    Bounded rounds workflow root
      { c with roundIndex, roundJumpCounts, scriptRetryCounts, visited, ended := some ending } :=
  ⟨h.walk, h.mem, h.counted, h.within, (nomatch ·), (nomatch ·),
    hvisits⟩

/-- **An edge is taken** that is not used up. -/
theorem Bounded.traverse (hworkflow : Budgeted workflow) (h : Bounded rounds workflow root c)
    (he : edge ∈ workflow.edges)
    (hfrom : edge.fromNodeId = Graphs.finish (·.toNodeId) root c.traversed)
    (hspent : isSpent workflow.loopBudgets c.compiledEdgeUseCounts edge.id = false)
    {roundJumpCounts : Counters} {visited : List String} {roundIndex : ℕ} {ended : Option Ending}
    (hhere : ended = none → ∀ round, rounds[roundIndex]? = some round → round.id = edge.toNodeId)
    (hvisits : visited.length ≤ p2pScriptRetryDefaultAttempts * (c.traversed.length + 1)) :
    Bounded rounds workflow root
      { c with
        roundIndex, ended, roundJumpCounts, visited
        compiledEdgeUseCounts := some ((c.compiledEdgeUseCounts.getD .empty).countUp edge.id)
        scriptRetryCounts := c.scriptRetryCounts.map (·.delete edge.toNodeId)
        traversed := c.traversed ++ [edge] } := by
  have huses (edge' : P2pCompiledEdge) (he' : edge' ∈ workflow.edges)
      (hb : workflow.isBudgeted edge' = true) :
      ((c.compiledEdgeUseCounts.getD .empty).countUp edge.id).count edge'.id =
        some ((c.traversed ++ [edge]).count edge') := by
    have hcount : (c.compiledEdgeUseCounts.getD .empty).count edge'.id =
        some (c.traversed.count edge') := by
      rw [← h.counted edge' he' hb, Chain.uses]
      cases c.compiledEdgeUseCounts with
      | none => exact count_empty (hworkflow.plain edge' he' hb)
      | some uses => rfl
    by_cases heq : edge' = edge
    · subst heq
      rw [count_countUp_of_eq_some hcount, List.count_append, List.count_singleton_self]
    · have hne : edge'.id ≠ edge.id := fun hid =>
        heq (List.inj_on_of_nodup_map hworkflow.nodup he' he hid)
      rw [count_countUp_of_ne hne, hcount, List.count_append, List.count_singleton,
        if_neg (by simpa using Ne.symm heq), Nat.add_zero]
  refine ⟨h.walk.concat hfrom, fun edge' hmem => ?_, huses, fun edge' he' hb => ?_,
    fun hended round hround => ?_, fun hended round hround => ?_, ?_⟩
  · rcases List.mem_append.1 hmem with hmem | hmem
    · exact h.mem edge' hmem
    · rwa [List.mem_singleton.1 hmem]
  · have hwithin := h.within edge' he' hb
    by_cases heq : edge' = edge
    · subst heq
      have hlt := hworkflow.lt_budget he' hb (h.counted edge' he' hb) hspent
      simpa [List.count_append] using Nat.succ_le_of_lt hlt
    · rwa [List.count_append, List.count_singleton, if_neg (by simpa using Ne.symm heq)]
  · rw [hhere hended round hround, Graphs.finish_concat]
  · have hzero : (((c.scriptRetryCounts.map (PlainObject.delete · edge.toNodeId)).getD
        PlainObject.empty).count round.id).getD 0 = 0 := by
      rw [hhere hended round hround]
      cases c.scriptRetryCounts with
      | none => exact getD_count_empty
      | some counts => exact getD_count_delete
    simp only [Chain.attempts, hzero, List.length_append, List.length_singleton]
    exact ⟨by decide, hvisits⟩
  · simp only [List.length_append, List.length_singleton]
    exact hvisits.trans (Nat.mul_le_mul_left _ (by omega))

/-- After a round whose edges are not used up. -/
theorem Bounded.advanceCompiled {plan : Plan} (hworkflow : Budgeted workflow)
    (h : Bounded plan.rounds workflow root c) {round : P2pResolvedRound}
    (hround : round.id = Graphs.finish (·.toNodeId) root c.traversed) {visited : List String}
    (hvisits : visited.length ≤ p2pScriptRetryDefaultAttempts * (c.traversed.length + 1))
    {signals : Signals}
    (hwithin : selectConditional workflow c.compiledEdgeUseCounts round.id signals = none →
      ∀ edge ∈ outgoing workflow.edges round.id .default,
        isSpent workflow.loopBudgets c.compiledEdgeUseCounts edge.id = false) :
    Bounded plan.rounds workflow root
      (plan.advanceCompiled workflow { c with visited } round signals) := by
  rw [Plan.advanceCompiled]
  dsimp only
  cases hselect : selectConditional workflow c.compiledEdgeUseCounts round.id signals with
  | some edge =>
    dsimp only
    obtain ⟨hmem, hfrom⟩ : edge ∈ workflow.edges ∧ edge.fromNodeId = round.id := by
      have := List.mem_filter.1 (List.mem_of_find?_eq_some hselect)
      exact ⟨this.1, (of_decide_eq_true this.2).1⟩
    have hspent : isSpent workflow.loopBudgets c.compiledEdgeUseCounts edge.id = false := by
      have := List.find?_some hselect
      simp only [Bool.and_eq_true, Bool.not_eq_true'] at this
      exact this.1
    obtain ⟨roundIndex, ended, heq, hhere⟩ := plan.goTo_eq _ edge.toNodeId .threw
    rw [Plan.traverse, heq]
    exact h.traverse hworkflow hmem (hfrom.trans hround) hspent hhere hvisits
  | none =>
    dsimp only
    cases hdefault : outgoing workflow.edges round.id .default with
    | nil =>
      dsimp only
      split
      · exact h.end hvisits
      · exact h.end hvisits
    | cons edge others =>
      cases others with
      | cons other others => exact h.end hvisits
      | nil =>
        have hmem := List.mem_filter.1 (hdefault ▸ List.mem_singleton_self edge)
        obtain ⟨roundIndex, ended, heq, hhere⟩ := plan.goTo_eq _ edge.toNodeId .failed
        dsimp only
        rw [Plan.traverse, heq]
        exact h.traverse hworkflow hmem.1 ((of_decide_eq_true hmem.2).1.trans hround)
          (hwithin hselect edge (hdefault ▸ List.mem_singleton_self edge)) hhere hvisits

/-- A script that fails. -/
theorem Bounded.retryScript {rounds : List P2pResolvedRound} (h : Bounded rounds workflow root c)
    (hended : c.ended = none) {round : P2pResolvedRound}
    (hround : rounds[c.roundIndex]? = some round) {retriable : Bool} :
    Bounded rounds workflow root
      ({ c with visited := c.visited ++ [round.id] }.retryScript round retriable) := by
  obtain ⟨htries, hvisited⟩ := h.tries hended round hround
  have hvisits : (c.visited ++ [round.id]).length ≤
      p2pScriptRetryDefaultAttempts * (c.traversed.length + 1) := by
    rw [List.length_append, List.length_singleton, Nat.mul_add]
    omega
  rw [Chain.retryScript]
  dsimp only
  split
  · rename_i hretry
    obtain ⟨-, hretry⟩ := hretry
    cases hcount : (c.scriptRetryCounts.getD .empty).count round.id with
    | none => simp [hcount] at hretry
    | some n =>
      rw [hcount, Option.any_some, decide_eq_true_eq] at hretry
      have hattempts : c.attempts round.id = n := by rw [Chain.attempts, hcount, Option.getD_some]
      have hnext : ((c.scriptRetryCounts.getD .empty).countUp round.id).count round.id =
          some (n + 1) := count_countUp_of_eq_some hcount
      refine ⟨h.walk, h.mem, h.counted, h.within, h.here, fun _ round' hround' => ?_, hvisits⟩
      obtain rfl : round = round' := Option.some.inj (hround.symm.trans hround')
      simp only [Chain.attempts, Option.getD_some, hnext, List.length_append,
        List.length_singleton]
      exact ⟨by omega, by omega⟩
  · exact h.end hvisits

/-- What a turn relies on: after a round that no conditional edge leaves, the default
edge is not used up. -/
def DefaultsWithin (plan : Plan) (workflow : P2pCompiledWorkflow) (c : Chain) : Outcome → Prop
  | .done verdict routingKey logicMarker =>
      ∀ round ∈ plan.rounds[c.roundIndex]?,
        selectConditional workflow c.compiledEdgeUseCounts round.id
            (plan.signals round verdict routingKey logicMarker) = none →
          ∀ edge ∈ outgoing workflow.edges round.id .default,
            isSpent workflow.loopBudgets c.compiledEdgeUseCounts edge.id = false
  | _ => True

instance {plan : Plan} : DecidableRel (DefaultsWithin plan workflow) := fun c outcome => by
  cases outcome <;> unfold DefaultsWithin <;> infer_instance

/-- **A turn** keeps to the budgets. -/
theorem bounded_step {plan : Plan} (hplan : plan.boundWorkflow = some workflow)
    (hworkflow : Budgeted workflow) {outcome : Outcome} (h : Bounded plan.rounds workflow root c)
    (hwithin : DefaultsWithin plan workflow c outcome) :
    Bounded plan.rounds workflow root (plan.step c outcome) := by
  rw [Plan.step]
  by_cases hended : c.ended = none
  case neg => rwa [if_pos (Option.isSome_iff_ne_none.2 hended)]
  case pos =>
    rw [if_neg (by simp [hended])]
    cases hround : plan.rounds[c.roundIndex]? with
    | none => exact h.end h.visits
    | some round =>
      have hvisits : (c.visited ++ [round.id]).length ≤
          p2pScriptRetryDefaultAttempts * (c.traversed.length + 1) := by
        obtain ⟨htries, hvisited⟩ := h.tries hended round hround
        rw [List.length_append, List.length_singleton, Nat.mul_add]
        omega
      cases outcome with
      | stops => exact h.end h.visits
      | fails => exact h.end hvisits
      | scriptFails retriable =>
        dsimp only
        by_cases hscript : plan.isScriptRound round
        · rw [if_pos hscript]
          exact h.retryScript hended hround
        · rw [if_neg hscript]
          exact h.end hvisits
      | done verdict routingKey logicMarker =>
        dsimp only
        rw [Plan.advance, hplan]
        dsimp only
        exact h.advanceCompiled hworkflow (h.here hended round hround) hvisits
          (hwithin round hround)

end Steps

/-! ## Whole runs -/

theorem bounded_start {rounds : List P2pResolvedRound} {workflow : P2pCompiledWorkflow} :
    Bounded rounds workflow ((rounds[0]?.map (·.id)).getD "") {} := by
  refine ⟨trivial, fun edge he => absurd he List.not_mem_nil, fun edge he hb => rfl, fun edge he hb => Nat.zero_le _,
    fun _ round hround => ?_, fun _ round hround => ⟨?_, Nat.zero_le _⟩, Nat.zero_le _⟩
  · rw [show rounds[0]? = some round from hround]
    rfl
  · rw [show Chain.attempts {} round.id = 0 from getD_count_empty]
    decide

/-- What keeps to the budgets takes few edges, and so begins few rounds. -/
theorem Bounded.visited_le {localeCompare : Collation} {draft : P2pWorkflowDraft}
    {rootNodeId root : String} {rounds : List P2pResolvedRound} {c : Chain}
    (hdraft : Accepted draft rootNodeId) (hnames : PlainlyNamed draft)
    (h : Bounded rounds (compiledWorkflow localeCompare draft rootNodeId) root c) :
    c.visited.length ≤ roundBound (compiledWorkflow localeCompare draft rootNodeId) := by
  have hlt := h.walk.length_lt hdraft.rank_lt (fun edge he => List.mem_toFinset.2 (h.mem edge he))
    (fun edge he hb => ?_) (fun edge he hb => h.within edge (List.mem_toFinset.1 he) hb)
  · refine h.visits.trans (Nat.mul_le_mul_left _ ?_)
    rw [length_compiledWorkflow_nodes]
    exact hlt
  · have hmem := mem_compiledWorkflow_edges.1 (List.mem_toFinset.1 he)
    have hvalid := hdraft.budgets edge hmem
    refine hdraft.rank_lt_rank hmem ?_
    cases hread : draft.loopBudget edge.id with
    | missing => rfl
    | inherited => rw [hread] at hvalid; cases hvalid
    | own budget =>
      rw [P2pCompiledWorkflow.isBudgeted, (read_loopBudgets hnames hmem).2 hread] at hb
      cases hb

/-- **The loop budgets bound a run** in which no default edge is taken that is used
up: no edge is taken more often than its budget, and the run begins no more rounds
than its workflow gives room for. -/
theorem bounded_of_within {localeCompare : Collation} {draft : P2pWorkflowDraft}
    {staticPolicy : P2pStaticPolicy} {workflow : P2pCompiledWorkflow}
    (hcompile : compileP2pWorkflowDraft localeCompare draft staticPolicy = .ok workflow)
    {plan : Plan} (hplan : compiledPlan workflow = .ok plan) (hnames : PlainlyNamed draft)
    {outcomes : List Outcome}
    (hwithin : Along plan.step (DefaultsWithin plan workflow) outcomes {}) :
    (∀ edge ∈ workflow.edges, ∀ budget, workflow.loopBudgets.read edge.id = .own budget →
      ((plan.run outcomes).traversed.count edge : ℚ) ≤ budget) ∧
      (plan.run outcomes).visited.length ≤ roundBound workflow := by
  obtain ⟨rootNodeId, hdraft, rfl⟩ := accepted_of_compile hcompile
  have hworkflow := hdraft.budgeted localeCompare hnames
  have hbound : plan.boundWorkflow = some (compiledWorkflow localeCompare draft rootNodeId) := by
    rw [compiledPlan] at hplan
    cases hrounds : resolveP2pRoundPlan (compiledWorkflowToLegacyAdvancedRounds
        (compiledWorkflow localeCompare draft rootNodeId)) with
    | error message => rw [hrounds] at hplan; cases hplan
    | ok rounds => rw [hrounds] at hplan; cases hplan; rfl
  have h := run_invariant (Bounded plan.rounds _ _)
    (fun c outcome hc => bounded_step hbound hworkflow hc) bounded_start hwithin
  refine ⟨fun edge he budget hread => ?_, h.visited_le hdraft hnames⟩
  have hb : (compiledWorkflow localeCompare draft rootNodeId).isBudgeted edge = true := by
    rw [P2pCompiledWorkflow.isBudgeted, hread]
  obtain rfl : (_ : ℚ) = budget := Property.own.inj ((hworkflow.read edge he hb).symm.trans hread)
  exact_mod_cast h.within edge he hb

/-- Two nodes with default edges to each other, of which one may be taken once. -/
def backAndForth : P2pWorkflowDraft :=
  { id := "back-and-forth"
    nodes :=
      [{ id := "draft", nodeKind := .llm, preset := .discuss },
        { id := "review", nodeKind := .llm, preset := .discuss }]
    edges :=
      [{ id := "on", fromNodeId := "draft", toNodeId := "review", edgeKind := .default },
        { id := "back", fromNodeId := "review", toNodeId := "draft", edgeKind := .default }]
    rootNodeId := some "draft"
    loopBudgets := some (PlainObject.empty.assign "back" 1) }

def examplePolicy : P2pStaticPolicy :=
  { maxNodes := 10
    maxEdges := 10
    maxLoopBudget := 10
    allowedExecutables := []
    allowInterpreterScripts := false
    allowOpenSpecArtifacts := false
    allowImplementationPermission := false
    maxPromptAppendBytes := 100
    concurrency := { maxAdvancedRuns := 1, maxScripts := 1 } }

def backAndForthWorkflow : P2pCompiledWorkflow :=
  compiledWorkflow (fun _ _ => 0) backAndForth "draft"

def backAndForthPlan : Plan :=
  { rounds :=
      (resolveP2pRoundPlan
        (compiledWorkflowToLegacyAdvancedRounds backAndForthWorkflow)).toOption.getD []
    boundWorkflow := some backAndForthWorkflow }

theorem compile_backAndForth :
    compileP2pWorkflowDraft (fun _ _ => 0) backAndForth examplePolicy = .ok backAndForthWorkflow :=
  compile_eq_ok.2 ⟨by decide +kernel, by decide +kernel, "draft", rfl, rfl⟩

theorem compiledPlan_backAndForth : compiledPlan backAndForthWorkflow = .ok backAndForthPlan := by
  have h : resolveP2pRoundPlan (compiledWorkflowToLegacyAdvancedRounds backAndForthWorkflow) =
      .ok backAndForthPlan.rounds := by decide +kernel
  rw [compiledPlan, h]
  rfl

theorem bounded_of_within_backAndForth :
    (∀ edge ∈ backAndForthWorkflow.edges, ∀ budget,
      backAndForthWorkflow.loopBudgets.read edge.id = .own budget →
        ((backAndForthPlan.run (List.replicate 3 (.done none none ""))).traversed.count edge : ℚ) ≤
          budget) ∧
      (backAndForthPlan.run (List.replicate 3 (.done none none ""))).visited.length ≤
        roundBound backAndForthWorkflow :=
  bounded_of_within compile_backAndForth compiledPlan_backAndForth (by decide +kernel)
    (by decide +kernel)

/-- **A loop budget does not bound a run**: the default edge back is taken for the
second time. -/
theorem not_bounded :
    ¬ ∀ (localeCompare : Collation) (draft : P2pWorkflowDraft) (staticPolicy : P2pStaticPolicy)
      (workflow : P2pCompiledWorkflow) (plan : Plan) (outcomes : List Outcome),
      compileP2pWorkflowDraft localeCompare draft staticPolicy = .ok workflow →
      compiledPlan workflow = .ok plan →
      ∀ edge ∈ workflow.edges, ∀ budget, workflow.loopBudgets.read edge.id = .own budget →
        ((plan.run outcomes).traversed.count edge : ℚ) ≤ budget := by
  intro h
  have hback := h (fun _ _ => 0) backAndForth examplePolicy backAndForthWorkflow backAndForthPlan
    (List.replicate 4 (.done none none "")) compile_backAndForth compiledPlan_backAndForth
    { id := "back", fromNodeId := "review", toNodeId := "draft", edgeKind := .default }
    (by decide +kernel) 1 (by decide +kernel)
  exact absurd hback (by decide +kernel)

end Imcodes.Workflow
