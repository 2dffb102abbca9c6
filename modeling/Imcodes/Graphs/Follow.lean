import Mathlib.Data.List.Nodup
import Mathlib.Data.List.Sublists
import Mathlib.Logic.Relation

/-!
# Following a successor

From a vertex on, one goes to its successor, and from there to its successor, until there is none
or it was there already.

* `follow` — with as much fuel as there are vertices.
* `followed` — what is passed is a path from the start that leads nowhere else.
* `Followed.mem_iff` — it passes exactly what is reached.
* `Followed.idxOf_le` — a successor comes next, or came before.
* `Followed.idxOf_lt_iff` — what comes before a vertex is reached without it.
-/

namespace Graphs

variable {V : Type*} [DecidableEq V]

def follow (next : V → Option V) : ℕ → V → List V → List V
  | 0, _, passed => passed
  | fuel + 1, v, passed =>
      if v ∈ passed then passed
      else
        match next v with
        | none => passed ++ [v]
        | some w => follow next fuel w (passed ++ [v])

/-- A path that goes on until there is nothing new. -/
structure Followed (next : V → Option V) (start : V) (path : List V) : Prop where
  nodup : path.Nodup
  head : path.head? = some start
  link : ∀ i v w, path[i]? = some v → path[i + 1]? = some w → next v = some w
  closed : ∀ v ∈ path, ∀ w, next v = some w → w ∈ path

variable {next : V → Option V} {start v w : V} {path passed vertices : List V} {fuel : ℕ}

/-- What was passed on the way to a vertex. -/
structure Leads (next : V → Option V) (start v : V) (passed : List V) : Prop where
  nodup : passed.Nodup
  head : (passed ++ [v]).head? = some start
  link : ∀ i a b, (passed ++ [v])[i]? = some a → (passed ++ [v])[i + 1]? = some b → next a = some b

omit [DecidableEq V] in
theorem Leads.advance (h : Leads next start v passed) (hv : v ∉ passed) (hw : next v = some w) :
    Leads next start w (passed ++ [v]) := by
  refine ⟨List.nodup_append.2 ⟨h.nodup, List.nodup_singleton v, ?_⟩, ?_, fun i a b ha hb => ?_⟩
  · rintro a ha b hb rfl
    exact hv (List.mem_singleton.1 hb ▸ ha)
  · rw [List.head?_append, h.head, Option.some_or]
  · rcases Nat.lt_or_ge (i + 1) (passed ++ [v]).length with hlt | hge
    · rw [List.getElem?_append_left hlt] at hb
      rw [List.getElem?_append_left ((Nat.lt_succ_self i).trans hlt)] at ha
      exact h.link i a b ha hb
    · have hlen : i + 1 < (passed ++ [v] ++ [w]).length := (List.getElem?_eq_some_iff.1 hb).1
      have hi : i = passed.length := by
        simp only [List.length_append, List.length_cons, List.length_nil] at hge hlen
        omega
      subst hi
      simp at ha hb
      rw [← ha, ← hb, hw]

omit [DecidableEq V] in
/-- What was passed leads to what was passed, or to the vertex. -/
theorem Leads.mem_of_next (h : Leads next start v passed) (hmem : w ∈ passed) {b : V}
    (hb : next w = some b) : b ∈ passed ++ [v] := by
  obtain ⟨i, hi⟩ := List.mem_iff_getElem?.1 hmem
  have hlt : i < passed.length := (List.getElem?_eq_some_iff.1 hi).1
  have hsucc : i + 1 < (passed ++ [v]).length := by simpa using hlt
  have hnext := h.link i w _ (by rw [List.getElem?_append_left hlt, hi])
    (List.getElem?_eq_getElem hsucc)
  rw [hnext, Option.some.injEq] at hb
  exact hb ▸ List.getElem_mem hsucc

theorem followed_of_leads (hclosed : ∀ a ∈ vertices, ∀ b, next a = some b → b ∈ vertices)
    (h : Leads next start v passed) (hv : v ∈ vertices) (hsub : passed ⊆ vertices)
    (hfuel : vertices.length < fuel + passed.length) :
    Followed next start (follow next fuel v passed) := by
  induction fuel generalizing v passed with
  | zero =>
    have hle := (List.subperm_of_subset h.nodup hsub).length_le
    omega
  | succ fuel ih =>
    rw [follow]
    split
    · rename_i hmem
      refine ⟨h.nodup, ?_, fun i a b ha hb => ?_, fun a ha b hb => ?_⟩
      · rw [← h.head, List.head?_append_of_ne_nil _ (List.ne_nil_of_mem hmem)]
      · have hlt : i + 1 < passed.length := (List.getElem?_eq_some_iff.1 hb).1
        refine h.link i a b ?_ ?_
        · rwa [List.getElem?_append_left ((Nat.lt_succ_self i).trans hlt)]
        · rwa [List.getElem?_append_left hlt]
      · rcases List.mem_append.1 (h.mem_of_next ha hb) with hb | hb
        · exact hb
        · exact List.mem_singleton.1 hb ▸ hmem
    · rename_i hnot
      split
      · rename_i hnone
        refine ⟨?_, h.head, h.link, fun a ha b hb => ?_⟩
        · refine List.nodup_append.2 ⟨h.nodup, List.nodup_singleton v, ?_⟩
          rintro a ha b hb rfl
          exact hnot (List.mem_singleton.1 hb ▸ ha)
        · rcases List.mem_append.1 ha with ha | ha
          · exact h.mem_of_next ha hb
          · obtain rfl := List.mem_singleton.1 ha
            rw [hnone] at hb
            cases hb
      · rename_i w hw
        refine ih (h.advance hnot hw) (hclosed v hv w hw) ?_ ?_
        · exact List.append_subset.2 ⟨hsub, List.cons_subset.2 ⟨hv, List.nil_subset _⟩⟩
        · simp only [List.length_append, List.length_cons, List.length_nil]
          omega

/-- **Following the successors** passes a path that is closed. -/
theorem followed (hclosed : ∀ a ∈ vertices, ∀ b, next a = some b → b ∈ vertices)
    (hstart : start ∈ vertices) :
    Followed next start (follow next (vertices.length + 1) start []) := by
  refine followed_of_leads hclosed ⟨List.nodup_nil, rfl, fun i a b ha hb => ?_⟩ hstart
    (List.nil_subset _) (by simp)
  simp at hb

namespace Followed

omit [DecidableEq V] in
/-- The path passes what is reached. -/
theorem mem_iff (h : Followed next start path) :
    v ∈ path ↔ Relation.ReflTransGen (fun a b => next a = some b) start v := by
  constructor
  · intro hv
    obtain ⟨i, hi⟩ := List.mem_iff_getElem?.1 hv
    induction i generalizing v with
    | zero =>
      have heq : some start = some v := by rw [← h.head, List.head?_eq_getElem?, hi]
      exact Option.some.inj heq ▸ .refl
    | succ i ih =>
      have hlt : i < path.length :=
        (Nat.lt_succ_self i).trans (List.getElem?_eq_some_iff.1 hi).1
      have hget := List.getElem?_eq_getElem hlt
      exact (ih (List.getElem_mem hlt) hget).tail (h.link i _ v hget hi)
  · intro hreach
    induction hreach with
    | refl => exact List.mem_of_mem_head? h.head
    | tail _ hstep ih => exact h.closed _ ih _ hstep

/-- A successor comes next, or came before. -/
theorem idxOf_le (h : Followed next start path) (hv : v ∈ path) (hw : next v = some w) :
    path.idxOf w ≤ path.idxOf v + 1 := by
  have hlt := List.idxOf_lt_length_iff.2 hv
  rcases Nat.lt_or_ge (path.idxOf v + 1) path.length with hsucc | hge
  · have hlink := h.link (path.idxOf v) v _ (List.getElem?_idxOf hv)
      (List.getElem?_eq_getElem hsucc)
    rw [hlink, Option.some.injEq] at hw
    rw [← hw, h.nodup.idxOf_getElem]
  · have hw' := List.idxOf_lt_length_iff.2 (h.closed v hv w hw)
    omega

/-- What is passed before a vertex is what is reached without passing the vertex. -/
theorem idxOf_lt_iff (h : Followed next start path) :
    path.idxOf w < path.idxOf v ∧ w ∈ path ↔
      w ≠ v ∧ Relation.ReflTransGen (fun a b => a ≠ v ∧ next a = some b) start w := by
  constructor
  · rintro ⟨hlt, hw⟩
    refine ⟨fun heq => (heq ▸ hlt).false, ?_⟩
    obtain ⟨i, hi⟩ := List.mem_iff_getElem?.1 hw
    have hidx {j : ℕ} {u : V} (hj : path[j]? = some u) : path.idxOf u = j := by
      obtain ⟨hlen, rfl⟩ := List.getElem?_eq_some_iff.1 hj
      exact h.nodup.idxOf_getElem j hlen
    rw [hidx hi] at hlt
    -- along the path up to the vertex
    induction i generalizing w with
    | zero =>
      have heq : some start = some w := by rw [← h.head, List.head?_eq_getElem?, hi]
      exact Option.some.inj heq ▸ .refl
    | succ i ih =>
      have hlen : i < path.length :=
        (Nat.lt_succ_self i).trans (List.getElem?_eq_some_iff.1 hi).1
      have hget := List.getElem?_eq_getElem hlen
      have hbefore := ih (List.getElem_mem hlen) ((Nat.lt_succ_self i).trans hlt) hget
      refine hbefore.tail ⟨fun heq => ?_, h.link i _ w hget hi⟩
      rw [← heq, hidx hget] at hlt
      exact absurd hlt (Nat.lt_asymm (Nat.lt_succ_self i))
  · rintro ⟨hne, hreach⟩
    induction hreach with
    | refl =>
      have hstart : start ∈ path := List.mem_of_mem_head? h.head
      refine ⟨?_, hstart⟩
      obtain ⟨rest, rfl⟩ : ∃ rest, path = start :: rest := by
        cases path with
        | nil => cases hstart
        | cons first rest => exact ⟨rest, by rw [Option.some.inj h.head]⟩
      rw [List.idxOf_cons_self, List.idxOf_cons_ne _ hne]
      exact Nat.succ_pos _
    | @tail u w' _ hstep ih =>
      obtain ⟨hlt, hu⟩ := ih hstep.1
      have hw := h.closed u hu w' hstep.2
      refine ⟨Nat.lt_of_le_of_ne ((h.idxOf_le hu hstep.2).trans hlt) fun heq => hne ?_, hw⟩
      have hv : v ∈ path := by
        rw [← List.idxOf_lt_length_iff, ← heq]
        exact List.idxOf_lt_length_iff.2 hw
      exact List.idxOf_inj hw |>.1 heq

end Followed

end Graphs
