import Imcodes.Queue.Versions

/-!
# The order in which a snapshot lists the queue

`ORDER BY` and the comparator of `sort` agree: entries placed at the front come
before the others, and each placement goes by ordinal, which is the order of
the table.

* `rows_eq` — what `readRows` returns.
* `wellFormed_of_mem_eventsOf` — the lists of every snapshot a run emits are in
  queue order and hold what they are named after, so a consumer that filters
  and sorts them again changes nothing.
-/

namespace Imcodes.Queue

open Relational

/-! ## `ORDER BY` -/

theorem QueuePosition.Before.orderByLe {a b : QueuePosition} (h : a.Before b) :
    a.OrderByLe b := by
  rcases h with ⟨ha, hb⟩ | ⟨hp, ho⟩
  · exact Or.inl (by simp [ha, hb])
  · exact Or.inr ⟨by simp [hp], Or.inl ho⟩

theorem QueuePosition.orderByLe_total (a b : QueuePosition) : a.OrderByLe b ∨ b.OrderByLe a := by
  unfold OrderByLe
  have h := String.le_total a.clientMessageId b.clientMessageId
  simp only
  grind

theorem QueuePosition.orderByLe_trans {a b c : QueuePosition} (hab : a.OrderByLe b)
    (hbc : b.OrderByLe c) : a.OrderByLe c := by
  have h : a.clientMessageId ≤ b.clientMessageId → b.clientMessageId ≤ c.clientMessageId →
      a.clientMessageId ≤ c.clientMessageId := String.le_trans
  unfold OrderByLe at *
  simp only at *
  grind

/-- Two positions of which neither comes first have one placement and one ordinal. -/
theorem QueuePosition.ordinal_eq_of_orderByLe {a b : QueuePosition} (hab : a.OrderByLe b)
    (hba : b.OrderByLe a) : a.ordinal = b.ordinal := by
  unfold OrderByLe at *
  simp only at *
  omega

instance : Std.Total fun a b : QueueStoredEntry => a.position.OrderByLe b.position :=
  ⟨fun _ _ => QueuePosition.orderByLe_total _ _⟩

instance : IsTrans QueueStoredEntry fun a b => a.position.OrderByLe b.position :=
  ⟨fun _ _ _ => QueuePosition.orderByLe_trans⟩

/-! ## Lists in queue order -/

/-- The list is in queue order. -/
def InQueueOrder {α : Type} (position : α → QueuePosition) (l : List α) : Prop :=
  l.Pairwise fun a b => (position a).Before (position b)

namespace SessionState

variable {v : SessionState}

/-- The rows of `queue_entries`, those at the front first. -/
def inOrder (v : SessionState) : List EntryRow :=
  v.entries.filter (·.placement = .front) ++ v.entries.filter (·.placement ≠ .front)

theorem mem_inOrder {r : EntryRow} : r ∈ v.inOrder ↔ r ∈ v.entries := by
  simp only [inOrder, List.mem_append, List.mem_filter, decide_eq_true_eq]
  tauto

theorem inOrder_perm (v : SessionState) : v.inOrder.Perm v.entries := by
  simpa [inOrder] using List.filter_append_perm (·.placement = .front) v.entries

/-- What the comparators look at in a row. -/
def rowPosition (r : EntryRow) : QueuePosition :=
  ⟨r.placement, r.ordinal, r.createdAt, r.clientMessageId.text⟩

theorem inQueueOrder_inOrder (h : v.Ordered) : InQueueOrder rowPosition v.inOrder := by
  have hord : v.entries.Pairwise fun a b => a.ordinal < b.ordinal :=
    List.pairwise_map.1 (List.pairwise_append.1 h).1
  have hplace (p : EntryRow → Bool) (hp : ∀ a b, p a → p b → a.placement = b.placement) :
      InQueueOrder rowPosition (v.entries.filter p) := by
    refine (hord.filter p).imp_of_mem fun ha hb hab => Or.inr ⟨?_, hab⟩
    exact hp _ _ (List.mem_filter.1 ha).2 (List.mem_filter.1 hb).2
  refine List.pairwise_append.2 ⟨hplace _ ?_, hplace _ ?_, fun a ha b hb => Or.inl ?_⟩
  · intro a b ha hb
    exact (of_decide_eq_true ha).trans (of_decide_eq_true hb).symm
  · intro a b ha hb
    have hn {q : QueuePlacement} (hq : q ≠ .front) : q = .normal := by
      cases q with
      | normal => rfl
      | front => exact absurd rfl hq
    exact (hn (of_decide_eq_true ha)).trans (hn (of_decide_eq_true hb)).symm
  · have ha' := of_decide_eq_true (List.mem_filter.1 ha).2
    have hb' : b.placement ≠ .front := of_decide_eq_true (List.mem_filter.1 hb).2
    refine ⟨ha', ?_⟩
    cases hb'' : b.placement with
    | normal => exact hb''
    | front => exact absurd hb'' hb'

/-- **What `readRows` returns**: the session's entries, fronts first, each
placement in table order. -/
theorem rows_eq (h : v.Ordered) {m : MetaRow} (hm : v.metaRow = some m) :
    v.rows = v.inOrder.map (parseStoredEntry m) := by
  rw [rows, hm]
  set l := v.entries.map (parseStoredEntry m)
  have hbefore := inQueueOrder_inOrder h
  have hperm : (v.inOrder.map (parseStoredEntry m)).Perm l := v.inOrder_perm.map _
  refine List.Perm.eq_of_pairwise ?_
    (List.pairwise_insertionSort (fun a b => a.position.OrderByLe b.position) l) ?_ ((List.perm_insertionSort _ l).trans hperm.symm)
  · -- no two entries have one ordinal
    intro a b ha hb hab hba
    have hnodup : (l.map (·.ordinal)).Nodup := by
      have hlt := (List.pairwise_append.1 h).1
      rw [List.map_map]
      exact hlt.imp fun h => Nat.ne_of_lt h
    exact List.inj_on_of_nodup_map hnodup ((List.mem_insertionSort _).1 ha) (hperm.subset hb)
      (QueuePosition.ordinal_eq_of_orderByLe hab hba)
  · exact List.pairwise_map.2 (hbefore.imp fun h => h.orderByLe)

/-- What a snapshot lists of a session. -/
theorem projectEntries_rows (localeCompare : Collation) (p : QueueEntryStatus → Bool)
    (h : v.Ordered) {m : MetaRow} (hm : v.metaRow = some m) :
    projectEntries localeCompare p v.rows =
      (v.inOrder.filter fun r => p r.status).map fun r =>
        buildQueueProjectionEntry (parseStoredEntry m r) := by
  have hbefore : InQueueOrder QueueStoredEntry.position
      ((v.inOrder.filter fun r => p r.status).map (parseStoredEntry m)) :=
    List.pairwise_map.2 ((inQueueOrder_inOrder h).filter _)
  have hfilter : (v.rows.filter fun e => p e.status) =
      (v.inOrder.filter fun r => p r.status).map (parseStoredEntry m) := by
    rw [rows_eq h hm, List.filter_map]
    rfl
  rw [projectEntries, hfilter, sortBy_of_pairwise hbefore, List.map_map]
  rfl

theorem mem_projectEntries {localeCompare : Collation} {p : QueueEntryStatus → Bool}
    (h : v.Ordered) {m : MetaRow} (hm : v.metaRow = some m) {e : QueueProjectionEntry}
    (he : e ∈ projectEntries localeCompare p v.rows) :
    p e.status ∧ ∃ r ∈ v.entries, r.clientMessageId.text = e.clientMessageId := by
  rw [projectEntries_rows localeCompare p h hm] at he
  obtain ⟨r, hr, rfl⟩ := List.mem_map.1 he
  obtain ⟨hr, hp⟩ := List.mem_filter.1 hr
  exact ⟨hp, r, mem_inOrder.1 hr, rfl⟩

theorem projectEntries_inQueueOrder {localeCompare : Collation} {p : QueueEntryStatus → Bool}
    (h : v.Ordered) {m : MetaRow} (hm : v.metaRow = some m) :
    InQueueOrder QueueProjectionEntry.position (projectEntries localeCompare p v.rows) := by
  rw [projectEntries_rows localeCompare p h hm]
  exact List.pairwise_map.2 ((inQueueOrder_inOrder h).filter _)

theorem Ordered.ensured (h : v.Ordered) (env : OpEnv) (s : SessionName) (now : Int) :
    (v.ensured env s now).Ordered := by
  have hn : (v.ensured env s now).nextOrdinal = v.nextOrdinal := by
    rw [nextOrdinal, nextOrdinal, SessionState.ensured, metaD, Option.elim_some]
    cases v.metaRow <;> rfl
  rw [Ordered, hn]
  exact h

end SessionState

/-! ## Runs -/

section Runs

variable {localeCompare : Collation} {fault : Nat → Option (Fault StoreError)}

theorem SessionStep.ordered {a : QueueAction} {s : SessionName} {c c' : StoreConn}
    (h : SessionStep a s c c') (hc : (c.data.session s).Ordered) :
    (c'.data.session s).Ordered := by
  cases h with
  | quiet h _ =>
    rcases h with h | ⟨env, -, now, h⟩
    · rwa [h]
    · rw [h]
      exact hc.ensured env s now
  | committed _ _ _ h =>
    rw [h]
    exact hc.apply _ s _

/-- The entries of every session stay in the order of their ordinals. -/
theorem ordered_connAfter (localeCompare : Collation) (fault : Nat → Option (Fault StoreError))
    (as : List QueueAction) (s : SessionName) :
    ((connAfter localeCompare fault as).data.session s).Ordered :=
  run_induction (P := fun _ _ c => (c.data.session s).Ordered) SessionState.Ordered.empty
    (fun _ _ _ _ hc ha => (ha.session s).ordered hc) as

/-- The lists are in queue order, and hold what they are named after. -/
structure QueueSnapshot.WellFormed (x : QueueSnapshot) : Prop where
  live : ∀ e ∈ x.pendingMessageEntries, e.status.isLive
  failed : ∀ e ∈ x.failedMessageEntries, e.status.isFailed
  pendingOrder : InQueueOrder QueueProjectionEntry.position x.pendingMessageEntries
  failedOrder : InQueueOrder QueueProjectionEntry.position x.failedMessageEntries

theorem QueueSnapshot.IsFallback.wellFormed {x : QueueSnapshot} (h : x.IsFallback) :
    x.WellFormed := by
  obtain ⟨-, -, -, hp, hf, -⟩ := h
  constructor <;> simp [hp, hf, InQueueOrder]

theorem SessionState.Shows.wellFormed {s : SessionName} {v : SessionState} {x : QueueSnapshot}
    (h : v.Shows localeCompare s x) (hv : v.Ordered) : x.WellFormed := by
  obtain ⟨m, source, why, hm, rfl⟩ := h
  exact ⟨fun e he => (mem_projectEntries hv hm he).1, fun e he => (mem_projectEntries hv hm he).1,
    projectEntries_inQueueOrder hv hm, projectEntries_inQueueOrder hv hm⟩

/-- **The snapshots a run emits are well formed.** -/
theorem wellFormed_of_mem_eventsOf {as : List QueueAction} {x : QueueSnapshot}
    (hx : .snapshot x ∈ eventsOf localeCompare fault as) : x.WellFormed := by
  induction as using List.reverseRecOn with
  | nil => cases hx
  | append_singleton as a ih =>
    rw [eventsOf_snoc] at hx
    rcases List.mem_append.1 hx with hx | hx
    · exact ih hx
    · obtain ⟨s, h⟩ := (next_spec _ _ as a).events _ hx
      cases h with
      | degraded source err =>
        exact QueueSnapshot.IsFallback.wellFormed ⟨rfl, rfl, rfl, rfl, rfl, rfl, rfl⟩
      | snapshot h =>
        refine h.wellFormed ?_
        rw [← connAfter_snoc]
        exact ordered_connAfter _ _ (as ++ [a]) s

end Runs

end Imcodes.Queue
