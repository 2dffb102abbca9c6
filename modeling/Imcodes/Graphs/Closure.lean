import Mathlib.Data.List.Nodup
import Mathlib.Data.List.Perm.Subperm
import Mathlib.Logic.Relation

/-!
# What a vertex reaches

A list of edges is passed over again and again, and the target of an edge whose
source is reached is reached too, until a pass changes nothing.

* `closure` — what a root reaches.  A pass that changes something reaches a new
  target, so there are at most as many of them as edges.
* `mem_closure` — it is what paths lead to.
-/

namespace Graphs

variable {V : Type*} [DecidableEq V] (edges : List (V × V))

/-- An edge is passed. -/
def visit (reached : List V) (e : V × V) : List V :=
  if e.1 ∈ reached ∧ e.2 ∉ reached then reached ++ [e.2] else reached

/-- One pass over the edges. -/
def pass (reached : List V) : List V := edges.foldl visit reached

/-- Passes, until one changes nothing. -/
def passes : Nat → List V → List V
  | 0, reached => reached
  | n + 1, reached =>
      if (pass edges reached).length = reached.length then reached
      else passes n (pass edges reached)

/-- What the root reaches. -/
def closure (root : V) : List V := passes edges (edges.length + 1) [root]

/-- There is an edge from the one to the other. -/
def Adjacent (v w : V) : Prop := (v, w) ∈ edges

variable {edges} {reached : List V} {root v w : V}

theorem prefix_visit (e : V × V) : reached <+: visit reached e := by
  unfold visit
  split
  · exact List.prefix_append _ _
  · exact List.prefix_refl _

theorem prefix_pass (edges : List (V × V)) (reached : List V) : reached <+: pass edges reached := by
  induction edges generalizing reached with
  | nil => exact List.prefix_refl _
  | cons e edges ih => exact (prefix_visit e).trans (ih (visit reached e))

theorem prefix_passes (n : Nat) (reached : List V) : reached <+: passes edges n reached := by
  induction n generalizing reached with
  | zero => exact List.prefix_refl _
  | succ n ih =>
    rw [passes]
    split
    · exact List.prefix_refl _
    · exact (prefix_pass edges reached).trans (ih _)

/-- What every visit keeps, the passes keep. -/
theorem passes_invariant (inv : List V → Prop)
    (hvisit : ∀ reached, ∀ e ∈ edges, inv reached → inv (visit reached e)) (n : Nat)
    (h : inv reached) : inv (passes edges n reached) := by
  have hpass (sub : List (V × V)) (hsub : sub ⊆ edges) :
      ∀ reached, inv reached → inv (pass sub reached) := by
    induction sub with
    | nil => exact fun _ h => h
    | cons e sub ih =>
      intro reached h
      exact ih (fun x hx => hsub (List.mem_cons_of_mem e hx)) _
        (hvisit reached e (hsub (List.mem_cons_self ..)) h)
  induction n generalizing reached with
  | zero => exact h
  | succ n ih =>
    rw [passes]
    split
    · exact h
    · exact ih (hpass edges (List.Subset.refl _) reached h)

/-- A pass that reaches nothing new has found every target reached. -/
theorem closed_of_pass_eq {edges : List (V × V)} (h : pass edges reached = reached) :
    ∀ e ∈ edges, e.1 ∈ reached → e.2 ∈ reached := by
  induction edges generalizing reached with
  | nil => exact fun e he => absurd he List.not_mem_nil
  | cons e edges ih =>
    have hvisit : visit reached e = reached := by
      have hpre := prefix_pass edges (visit reached e)
      have hlen : (visit reached e).length ≤ reached.length := by
        have := hpre.length_le
        have heq : pass edges (visit reached e) = reached := h
        rwa [heq] at this
      exact ((prefix_visit e).eq_of_length_le hlen).symm
    intro e' he'
    rcases List.mem_cons.1 he' with rfl | he'
    · intro hsource
      by_contra htarget
      have hlength := congrArg List.length hvisit
      rw [visit, if_pos ⟨hsource, htarget⟩, List.length_append] at hlength
      simp at hlength
    · have heq : pass edges (visit reached e) = reached := h
      rw [hvisit] at heq
      exact ih heq e' he'

theorem nodup_passes (n : Nat) (h : reached.Nodup) : (passes edges n reached).Nodup := by
  refine passes_invariant List.Nodup (fun reached e _ h => ?_) n h
  unfold visit
  split
  · rename_i hnew
    refine List.nodup_append.2 ⟨h, List.nodup_singleton _, ?_⟩
    rintro a ha b hb rfl
    exact hnew.2 (List.mem_singleton.1 hb ▸ ha)
  · exact h

/-- What is reached is the root or the target of an edge. -/
theorem passes_subset (n : Nat) (h : reached ⊆ root :: edges.map Prod.snd) :
    passes edges n reached ⊆ root :: edges.map Prod.snd := by
  refine passes_invariant (· ⊆ root :: edges.map Prod.snd) (fun reached e he h => ?_) n h
  unfold visit
  split
  · refine List.append_subset.2 ⟨h, fun v hv => ?_⟩
    rw [List.mem_singleton.1 hv]
    exact List.mem_cons_of_mem _ (List.mem_map_of_mem he)
  · exact h

/-- The passes end with one that changes nothing. -/
theorem pass_passes (n : Nat) (hnodup : reached.Nodup)
    (hsub : reached ⊆ root :: edges.map Prod.snd) (hn : edges.length + 2 ≤ reached.length + n) :
    pass edges (passes edges n reached) = passes edges n reached := by
  induction n generalizing reached with
  | zero =>
    have hle := (hnodup.subperm hsub).length_le
    simp only [List.length_cons, List.length_map] at hle
    omega
  | succ n ih =>
    rw [passes]
    split
    · rename_i hlength
      exact ((prefix_pass edges reached).eq_of_length hlength.symm).symm
    · rename_i hlength
      have hle := (prefix_pass edges reached).length_le
      refine ih ?_ ?_ (by omega)
      · have hone : (passes edges 1 reached).Nodup := nodup_passes 1 hnodup
        rwa [passes, if_neg hlength, passes] at hone
      · have hone : passes edges 1 reached ⊆ root :: edges.map Prod.snd := passes_subset 1 hsub
        rwa [passes, if_neg hlength, passes] at hone

/-- **A root reaches what paths from it lead to.** -/
theorem mem_closure : v ∈ closure edges root ↔ Relation.ReflTransGen (Adjacent edges) root v := by
  constructor
  · have hall : ∀ v ∈ closure edges root, Relation.ReflTransGen (Adjacent edges) root v := by
      refine passes_invariant (fun reached => ∀ v ∈ reached, Relation.ReflTransGen _ root v)
        (fun reached e he h => ?_) _ fun v hv => ?_
      · unfold visit
        split
        · rename_i hnew
          intro v hv
          rcases List.mem_append.1 hv with hv | hv
          · exact h v hv
          · rw [List.mem_singleton.1 hv]
            exact (h e.1 hnew.1).tail he
        · exact h
      · rw [List.mem_singleton.1 hv]
    exact hall v
  · intro hpath
    have hfix : pass edges (passes edges (edges.length + 1) [root]) = _ :=
      pass_passes (edges.length + 1) (List.nodup_singleton root) (List.cons_subset_cons root
        (List.nil_subset _)) (by rw [List.length_singleton]; omega)
    induction hpath with
    | refl => exact (prefix_passes _ [root]).subset (List.mem_singleton_self root)
    | tail _ hstep ih => exact closed_of_pass_eq hfix _ hstep ih

end Graphs
