import Mathlib.Algebra.BigOperators.Group.Finset.Basic
import Mathlib.Algebra.Order.BigOperators.Group.Finset
import Mathlib.Data.List.Count

/-!
# Walks on a budget

A walk takes edges, each from where the one before it ends.  An edge either leads
to a vertex of a higher rank, or has a budget of how often it may be taken.

* `IsWalk.concat` — an edge more.
* `IsWalk.length_lt` — a walk that keeps to the budgets is short: between two
  edges with a budget the rank rises.
* `IsCycle.exists_rank_le` — a walk to where it came from takes an edge on which
  the rank does not rise.
-/

namespace Graphs

variable {V E : Type*} (source target : E → V)

/-- The edges lead on, the first of them from the vertex. -/
def IsWalk : V → List E → Prop
  | _, [] => True
  | v, e :: walk => source e = v ∧ IsWalk (target e) walk

/-- Where a walk from a vertex ends. -/
def finish (v : V) (walk : List E) : V := walk.foldl (fun _ e => target e) v

/-- A walk to where it came from. -/
def IsCycle (walk : List E) : Prop :=
  walk ≠ [] ∧ ∃ v, IsWalk source target v walk ∧ finish target v walk = v

variable {source target} {v : V} {walk : List E} {e : E}

theorem finish_concat : finish target v (walk ++ [e]) = target e := by
  rw [finish, List.foldl_append]
  rfl

theorem IsWalk.concat (h : IsWalk source target v walk) (he : source e = finish target v walk) :
    IsWalk source target v (walk ++ [e]) := by
  induction walk generalizing v with
  | nil => exact ⟨he, trivial⟩
  | cons d walk ih => exact ⟨h.1, ih h.2 he⟩

variable {rank : V → ℕ} {bound : ℕ} {budgeted : E → Bool}

/-- A walk is no longer than what its edges with a budget leave room for. -/
theorem IsWalk.length_add_rank_lt (h : IsWalk source target v walk) (hrank : ∀ v, rank v < bound)
    (hrise : ∀ e ∈ walk, budgeted e = false → rank (source e) < rank (target e)) :
    walk.length + rank v < bound * (walk.countP budgeted + 1) := by
  induction walk generalizing v with
  | nil => simpa using hrank v
  | cons e walk ih =>
    obtain ⟨rfl, hwalk⟩ := h
    have hrest := ih hwalk fun d hd => hrise d (List.mem_cons_of_mem e hd)
    rw [List.length_cons, List.countP_cons]
    cases he : budgeted e with
    | false =>
      have hlt := hrise e (List.mem_cons_self ..) he
      simp only [Bool.false_eq_true, if_false, Nat.add_zero]
      omega
    | true =>
      have hv := hrank (source e)
      simp only [if_true]
      rw [Nat.mul_add bound _ 1]
      omega

/-- On a walk on which the rank rises with every edge, it rises with the length. -/
theorem IsWalk.rank_add_length_le (h : IsWalk source target v walk)
    (hrise : ∀ e ∈ walk, rank (source e) < rank (target e)) :
    rank v + walk.length ≤ rank (finish target v walk) := by
  induction walk generalizing v with
  | nil => exact Nat.le_refl _
  | cons e walk ih =>
    obtain ⟨rfl, hwalk⟩ := h
    have hfirst := hrise e (List.mem_cons_self ..)
    have hrest := ih hwalk fun d hd => hrise d (List.mem_cons_of_mem e hd)
    have hfinish : finish target (source e) (e :: walk) = finish target (target e) walk := rfl
    rw [hfinish, List.length_cons]
    omega

/-- **On a cycle** the rank does not rise with every edge. -/
theorem IsCycle.exists_rank_le (h : IsCycle source target walk) (rank : V → ℕ) :
    ∃ e ∈ walk, rank (target e) ≤ rank (source e) := by
  obtain ⟨hne, v, hwalk, hfinish⟩ := h
  by_contra hnone
  push Not at hnone
  have hle := hwalk.rank_add_length_le hnone
  rw [hfinish] at hle
  have hpos := List.length_pos_iff.2 hne
  omega

variable [DecidableEq E]

/-- How often a walk takes edges of a kind, edge by edge. -/
theorem countP_le_sum {edges : Finset E} {budget : E → ℕ} (hmem : ∀ e ∈ walk, e ∈ edges)
    (hbudget : ∀ e ∈ edges, budgeted e = true → walk.count e ≤ budget e) :
    walk.countP budgeted ≤ ∑ e ∈ edges with budgeted e = true, budget e := by
  have hcount : walk.countP budgeted =
      ∑ e ∈ edges with budgeted e = true, (walk.filter budgeted).count e := by
    have hcard := Multiset.sum_count_eq_card (s := edges.filter (budgeted · = true))
      (m := (walk.filter budgeted : Multiset E)) fun e he => by
        obtain ⟨he, hb⟩ := List.mem_filter.1 (Multiset.mem_coe.1 he)
        exact Finset.mem_filter.2 ⟨hmem e he, hb⟩
    rw [List.countP_eq_length_filter]
    simpa only [Multiset.coe_count, Multiset.coe_card] using hcard.symm
  rw [hcount]
  refine Finset.sum_le_sum fun e he => ?_
  obtain ⟨he, hb⟩ := Finset.mem_filter.1 he
  rw [List.count_filter hb]
  exact hbudget e he hb

/-- **A walk on a budget is short.** -/
theorem IsWalk.length_lt {edges : Finset E} {budget : E → ℕ} (h : IsWalk source target v walk)
    (hrank : ∀ v, rank v < bound) (hmem : ∀ e ∈ walk, e ∈ edges)
    (hrise : ∀ e ∈ edges, budgeted e = false → rank (source e) < rank (target e))
    (hbudget : ∀ e ∈ edges, budgeted e = true → walk.count e ≤ budget e) :
    walk.length < bound * (∑ e ∈ edges with budgeted e = true, budget e + 1) := by
  have hlength := h.length_add_rank_lt hrank fun e he => hrise e (hmem e he)
  have hcount := countP_le_sum hmem hbudget
  have hle := Nat.mul_le_mul_left bound (Nat.add_le_add_right hcount 1)
  omega

end Graphs
