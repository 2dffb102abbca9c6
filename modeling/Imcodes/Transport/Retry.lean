import Imcodes.Transport.Numbering

/-!
# STOP during an automatic retry

A turn that waits to be tried again is remembered as a number of entries at the
front of the queue.

* `drop_eq_filter_iff` — when dropping as many entries from the front drops just
  those of the turn.
* `Retrying` — the invariant of the lane: in front of what is left of the turn
  there are only messages sent to the front since, behind it no others of it.
* `cancel_discards_retried_iff` — STOP discards just the entries of the turn if
  and only if nothing has been sent to the front since and still waits, and
  nothing of the turn has been removed (or nothing else waits).
-/

namespace Imcodes.Transport

open Imcodes.Queue Machine

attribute [local irreducible] Queue.edit Queue.drop Queue.enqueue finalizeSentBatch

/-! ## Lists -/

section Lists

variable {α : Type*} [DecidableEq α] {front kept rest turn : List α}

/-- Without the members of the turn, there remain those before and behind. -/
theorem filter_not_mem_turn (hkept : kept.Sublist turn) (hfront : ∀ a ∈ front, a ∉ turn)
    (hrest : ∀ a ∈ rest, a ∉ turn) :
    (front ++ kept ++ rest).filter (· ∉ turn) = front ++ rest := by
  have hf : front.filter (· ∉ turn) = front := List.filter_eq_self.2 (by simpa using hfront)
  have hk : kept.filter (· ∉ turn) = [] :=
    List.filter_eq_nil_iff.2 fun a ha => by simpa using hkept.subset ha
  have hr : rest.filter (· ∉ turn) = rest := List.filter_eq_self.2 (by simpa using hrest)
  rw [List.filter_append, List.filter_append, hf, hk, hr, List.append_nil]

/-- Dropping as many members as the turn has drops just the turn exactly when
nothing stands before it, and it is all there or nothing stands behind it. -/
theorem drop_eq_filter_iff (hn : (front ++ kept ++ rest).Nodup) (hkept : kept.Sublist turn)
    (hturn : turn ≠ []) (hfront : ∀ a ∈ front, a ∉ turn) (hrest : ∀ a ∈ rest, a ∉ turn) :
    (front ++ kept ++ rest).drop turn.length = (front ++ kept ++ rest).filter (· ∉ turn) ↔
      front = [] ∧ (kept = turn ∨ rest = []) := by
  have hpos : 0 < turn.length := List.length_pos_iff.2 hturn
  rw [filter_not_mem_turn hkept hfront hrest]
  constructor
  · intro h
    cases front with
    | cons a front =>
      -- The first member would be dropped, and is kept.
      have hdrop : (a :: (front ++ kept ++ rest)).drop turn.length =
          (front ++ kept ++ rest).drop (turn.length - 1) := by
        rw [← Nat.succ_pred_eq_of_pos hpos]
        rfl
      have hmem : a ∈ front ++ kept ++ rest := by
        refine List.mem_of_mem_drop (i := turn.length - 1) ?_
        rw [← hdrop, ← List.cons_append, ← List.cons_append, h]
        exact List.mem_cons_self
      exact absurd hmem (List.nodup_cons.1 hn).1
    | nil =>
      refine ⟨rfl, ?_⟩
      have hlen := congrArg List.length h
      simp only [List.nil_append, List.length_drop, List.length_append] at hlen
      by_cases hr : rest = []
      · exact Or.inr hr
      · have := List.length_pos_iff.2 hr
        exact Or.inl (hkept.eq_of_length_le (by omega))
  · rintro ⟨rfl, rfl | rfl⟩
    · rw [List.nil_append, List.nil_append, List.drop_left]
    · rw [List.nil_append, List.append_nil, List.append_nil]
      exact List.drop_eq_nil_of_le hkept.length_le

omit [DecidableEq α] in
/-- The same, told by what stands in the list. -/
theorem front_nil_and_iff {jumped : List α} (hfront : ∀ a ∈ front, a ∈ jumped)
    (hkept : kept.Sublist turn) (hn : turn.Nodup) (hjumped : ∀ a ∈ jumped, a ∉ turn)
    (hrest : ∀ a ∈ rest, a ∉ turn ∧ a ∉ jumped) :
    (front = [] ∧ (kept = turn ∨ rest = [])) ↔
      (∀ a ∈ front ++ kept ++ rest, a ∉ jumped) ∧
        ((∀ a ∈ turn, a ∈ front ++ kept ++ rest) ∨ ∀ a ∈ front ++ kept ++ rest, a ∈ turn) := by
  simp only [List.mem_append]
  constructor
  · rintro ⟨rfl, hwhole⟩
    refine ⟨?_, hwhole.imp ?_ ?_⟩
    · rintro a ((ha | ha) | ha)
      · cases ha
      · exact fun hj => hjumped a hj (hkept.subset ha)
      · exact (hrest a ha).2
    · rintro rfl a ha
      exact Or.inl (Or.inr ha)
    · rintro rfl a ((ha | ha) | ha)
      · cases ha
      · exact hkept.subset ha
      · cases ha
  · rintro ⟨hnone, hwhole⟩
    have hnil : front = [] :=
      List.eq_nil_iff_forall_not_mem.2 fun a ha => hnone a (Or.inl (Or.inl ha)) (hfront a ha)
    subst hnil
    refine ⟨rfl, hwhole.imp (fun hall => ?_) fun hall => ?_⟩
    · have hsub : turn ⊆ kept := fun a ha =>
        ((hall a ha).resolve_right fun hr => (hrest a hr).1 ha).resolve_left (by simp)
      exact hkept.eq_of_length_le (List.subperm_of_subset hn hsub).length_le
    · exact List.eq_nil_iff_forall_not_mem.2 fun a ha => (hrest a ha).1 (hall a (Or.inr ha))

end Lists

/-- Two parts of a list with the same keys are the same. -/
theorem eq_of_map_eq {α β : Type*} {f : α → β} {xs ys zs : List α} (hn : (zs.map f).Nodup)
    (hx : xs.Sublist zs) (hy : ys.Sublist zs) (h : xs.map f = ys.map f) : xs = ys := by
  induction xs generalizing ys with
  | nil => exact (List.map_eq_nil_iff.1 h.symm).symm
  | cons x xs ih =>
    cases ys with
    | nil => cases h
    | cons y ys =>
      rw [List.map_cons, List.map_cons, List.cons.injEq] at h
      have hxy : x = y := List.inj_on_of_nodup_map hn (hx.subset List.mem_cons_self)
        (hy.subset List.mem_cons_self) h.1
      rw [hxy, ih ((List.sublist_cons_self x xs).trans hx) ((List.sublist_cons_self y ys).trans hy)
        h.2]

/-! ## The invariant -/

namespace Lane

/-- The numbers of the messages that wait, in order. -/
def waiting (l : Lane) : List Nat := l.pending.map (·.serial)

/-- The queue of a lane in which a turn waits to be tried again. -/
structure Retrying (l : Lane) : Prop where
  shape : ∃ front kept rest : List Nat, l.waiting = front ++ kept ++ rest ∧
    (∀ s ∈ front, s ∈ l.jumped) ∧ kept.Sublist l.retried ∧
    ∀ s ∈ rest, s ∉ l.retried ∧ s ∉ l.jumped
  count : l.retryEntryCount = l.retried.length
  nonempty : l.retried ≠ []
  nodup : l.retried.Nodup
  disjoint : ∀ s ∈ l.jumped, s ∉ l.retried
  lt : ∀ s, s ∈ l.retried ∨ s ∈ l.jumped → s < l.nextSerial

/-- If a turn waits to be tried again, the queue shows it. -/
def RetryShown (l : Lane) : Prop := l.retrying = true → l.Retrying

variable {localeCompare : Collation} {env : StepEnv} {l l' : Lane}

/-- Taking entries out of the queue leaves it in shape. -/
theorem Retrying.of_sublist (h : l.Retrying) (hwaiting : l'.waiting.Sublist l.waiting)
    (hcount : l'.retryEntryCount = l.retryEntryCount) (hretried : l'.retried = l.retried)
    (hjumped : l'.jumped = l.jumped) (hserial : l'.nextSerial = l.nextSerial) : l'.Retrying := by
  obtain ⟨front, kept, rest, heq, hfront, hkept, hrest⟩ := h.shape
  refine ⟨?_, ?_, hretried ▸ h.nonempty, hretried ▸ h.nodup, ?_, ?_⟩
  · rw [heq] at hwaiting
    obtain ⟨front_kept', rest', hw, hfk, hr⟩ := List.sublist_append_iff.1 hwaiting
    obtain ⟨front', kept', rfl, hf, hk⟩ := List.sublist_append_iff.1 hfk
    refine ⟨front', kept', rest', hw, fun s hs => ?_, hretried ▸ hk.trans hkept, fun s hs => ?_⟩
    · exact hjumped ▸ hfront s (hf.subset hs)
    · rw [hretried, hjumped]
      exact hrest s (hr.subset hs)
  · rw [hcount, hretried, h.count]
  · rw [hjumped, hretried]
    exact h.disjoint
  · rw [hretried, hjumped, hserial]
    exact h.lt

theorem RetryShown.move (h : l.RetryShown) (hn : l.WellNumbered)
    (hmove : Move localeCompare env l l') : l'.RetryShown := by
  cases hmove with
  | drain hpending hactive hretry => exact fun hr => absurd hr Bool.false_ne_true
  | release => exact fun hr => (h hr).of_sublist (.refl _) rfl rfl rfl rfl
  | dropActive => exact fun hr => (h hr).of_sublist (.refl _) rfl rfl rfl rfl
  | disarm => exact fun hr => absurd hr Bool.false_ne_true
  | requeue =>
    intro hr
    have hactive : l.active = [] := hn.retry hr
    refine (h hr).of_sublist ?_ rfl rfl rfl rfl
    simp [waiting, requeued, hactive]
  | retry hactive =>
    intro _
    have hnodup : (l.active.map (·.serial) ++ l.waiting).Nodup := by
      simpa [live, waiting] using hn.live_nodup
    obtain ⟨hretried, -, hdisjoint⟩ := List.nodup_append.1 hnodup
    have hnone (s : ℕ) : s ∉ [] := List.not_mem_nil
    refine ⟨⟨[], l.active.map (·.serial), l.waiting, ?_, fun s hs => absurd hs (hnone s), .refl _,
        fun s hs => ⟨?_, hnone s⟩⟩,
      (List.length_map _).symm, ?_, hretried, fun s hs => absurd hs (hnone s), fun s hs => ?_⟩
    · simp [waiting, requeuedForRetry, requeued]
    · exact fun hmem => hdisjoint s hmem s hs rfl
    · simpa [requeuedForRetry] using hactive
    · refine hn.live_lt s ?_
      rw [live, List.map_append]
      exact List.mem_append_left _ (hs.resolve_right (hnone s))
  | stopRetry hretry hcount => exact fun hr => absurd hr Bool.false_ne_true

theorem waiting_lt (hn : l.WellNumbered) {s : Nat} (hs : s ∈ l.waiting) : s < l.nextSerial :=
  hn.live_lt s (by
    rw [live, List.map_append]
    exact List.mem_append_right _ hs)

theorem RetryShown.enqueue (h : l.RetryShown) (hn : l.WellNumbered) {e : PendingEntry}
    (he : e.serial = l.nextSerial) (store : StoreConn) : (l.enqueue e store).RetryShown := by
  intro hr
  have hold : l.Retrying := h hr
  obtain ⟨front, kept, rest, heq, hfront, hkept, hrest⟩ := hold.shape
  have hnew : e.serial ∉ l.retried ∧ e.serial ∉ l.jumped := by
    rw [he]
    exact ⟨fun hs => Nat.lt_irrefl _ (hold.lt _ (Or.inl hs)),
      fun hs => Nat.lt_irrefl _ (hold.lt _ (Or.inr hs))⟩
  by_cases hi : e.intake = .front
  · have hjumped : (l.enqueue e store).jumped = e.serial :: l.jumped := if_pos hi
    have hwaiting : (l.enqueue e store).waiting = e.serial :: l.waiting := by
      simp [waiting, Lane.enqueue, hi]
    refine ⟨⟨e.serial :: front, kept, rest, ?_, ?_, hkept, ?_⟩, hold.count, hold.nonempty,
      hold.nodup, ?_, ?_⟩
    · rw [hwaiting, heq]
      rfl
    · rw [hjumped]
      exact fun s hs => (List.mem_cons.1 hs).elim (fun h => h ▸ List.mem_cons_self)
        fun hs => List.mem_cons_of_mem _ (hfront s hs)
    · intro s hs
      refine ⟨(hrest s hs).1, ?_⟩
      rw [hjumped, List.mem_cons, not_or]
      refine ⟨fun hs' => ?_, (hrest s hs).2⟩
      have : s ∈ l.waiting := heq ▸ List.mem_append_right _ hs
      exact Nat.lt_irrefl _ (he ▸ hs' ▸ waiting_lt hn this)
    · rw [hjumped]
      exact fun s hs => (List.mem_cons.1 hs).elim (fun h => h ▸ hnew.1) (hold.disjoint s)
    · intro s hs
      rw [hjumped, List.mem_cons] at hs
      change s < l.nextSerial + 1
      rcases hs with hs | rfl | hs
      · exact Nat.lt_succ_of_lt (hold.lt s (Or.inl hs))
      · exact Nat.lt_succ_of_le (Nat.le_of_eq he)
      · exact Nat.lt_succ_of_lt (hold.lt s (Or.inr hs))
  · have hjumped : (l.enqueue e store).jumped = l.jumped := if_neg hi
    have hwaiting : (l.enqueue e store).waiting = l.waiting ++ [e.serial] := by
      simp [waiting, Lane.enqueue, hi]
    refine ⟨⟨front, kept, rest ++ [e.serial], ?_, ?_, hkept, ?_⟩, hold.count, hold.nonempty,
      hold.nodup, ?_, ?_⟩
    · rw [hwaiting, heq, List.append_assoc]
    · rw [hjumped]
      exact hfront
    · rw [hjumped]
      intro s hs
      rcases List.mem_append.1 hs with hs | hs
      · exact hrest s hs
      · exact List.mem_singleton.1 hs ▸ hnew
    · rw [hjumped]
      exact hold.disjoint
    · rw [hjumped]
      exact fun s hs => Nat.lt_succ_of_lt (hold.lt s hs)

theorem RetryShown.recover (h : l.RetryShown) (messages : List PendingTransportMessage)
    (store : StoreConn) : (l.recover messages store).RetryShown := by
  intro hr
  have hold : l.Retrying := h hr
  obtain ⟨front, kept, rest, heq, hfront, hkept, hrest⟩ := hold.shape
  refine ⟨⟨front, kept, rest ++ List.range' l.nextSerial messages.length, ?_, hfront, hkept, ?_⟩,
    hold.count, hold.nonempty, hold.nodup, hold.disjoint, fun s hs => ?_⟩
  · rw [← List.append_assoc, ← heq, waiting, waiting,
      ← TransportSessionRuntime.serial_recoveredEntries, ← List.map_append]
    rfl
  · intro s hs
    rcases List.mem_append.1 hs with hs | hs
    · exact hrest s hs
    · have := (List.mem_range'_1.1 hs).1
      exact ⟨fun hs => absurd (hold.lt s (Or.inl hs)) (Nat.not_lt.2 this),
        fun hs => absurd (hold.lt s (Or.inr hs)) (Nat.not_lt.2 this)⟩
  · exact Nat.lt_add_right _ (hold.lt s hs)

end Lane

namespace TransportSessionRuntime

variable {localeCompare : Collation} {env : StepEnv} {rt : TransportSessionRuntime}

/-! ## Runs -/

theorem retryShown_moves {l l' : Lane} (hmoves : Lane.Moves localeCompare env l l')
    (h : l.RetryShown ∧ l.WellNumbered) : l'.RetryShown :=
  (reflTransGen_invariant (fun l => l.RetryShown ∧ l.WellNumbered)
    (fun _ _ hm h => ⟨h.1.move h.2 hm, h.2.move hm⟩) hmoves h).1

/-- Every step keeps the queue in the shape of the retry. -/
theorem retryShown_step (h : rt.lane.RetryShown) (hn : rt.lane.WellNumbered) (e : Event) :
    (step localeCompare env rt e).lane.RetryShown := by
  have hspec := step_lane localeCompare env rt e
  generalize (step localeCompare env rt e).lane = l at hspec ⊢
  cases hspec with
  | turns hmoves => exact retryShown_moves hmoves ⟨h, hn⟩
  | queued hbusy => exact h.enqueue hn rfl _
  | sent hidle =>
    exact fun hr => absurd ((idle_of_hasActiveTurnWork hidle).retry.symm.trans hr)
      Bool.false_ne_true
  | edited hmem =>
    refine fun hr => (h hr).of_sublist ?_ rfl rfl rfl rfl
    simp [Lane.waiting, Lane.edited]
  | removed hfind =>
    exact fun hr => (h hr).of_sublist (List.eraseP_sublist.map _) rfl rfl rfl rfl
  | removedByPrefix =>
    exact fun hr => (h hr).of_sublist (List.filter_sublist.map _) rfl rfl rfl rfl
  | recovered store => exact h.recover _ store
  | killed store hmoves =>
    refine retryShown_moves hmoves ⟨fun hr => absurd hr Bool.false_ne_true, ?_⟩
    exact hn.of_nothingNew (Lane.nothingNew_cleared store) fun _ => rfl

/-- The shape is right in every state a runtime can reach. -/
theorem retryShown_run (provider : Provider) (sessionKey : String) (store : StoreConn)
    (steps : Steps) :
    (run localeCompare steps (create provider sessionKey store)).lane.RetryShown :=
  (run_invariant_all
    (fun rt : TransportSessionRuntime => rt.lane.RetryShown ∧ rt.lane.WellNumbered)
    (fun _ p h => ⟨retryShown_step h.1 h.2 p.2, wellNumbered_step h.2 p.2⟩)
    ⟨by simp [Lane.RetryShown, create, lane], wellNumbered_create provider sessionKey store⟩
    steps).1

/-! ## STOP -/

/-- The queue is not drained, or all of it is. -/
theorem lane_drainPending (view : ActiveWorkRead) :
    (drainPending localeCompare env view rt).2.lane = rt.lane ∨
      (drainPending localeCompare env view rt).1 = true ∧
      (drainPending localeCompare env view rt).2.lane = rt.lane.drained localeCompare env := by
  unfold drainPending
  split
  · exact Or.inl rfl
  split
  · refine Or.inl ?_
    dsimp only
    split <;> rfl
  · exact Or.inr ⟨rfl, lane_drainAll localeCompare env rt⟩

theorem lane_drainPendingIfNoActiveTurn (view : ActiveWorkRead)
    (hactive : rt.activeDispatchEntries = []) :
    (drainPendingIfNoActiveTurn localeCompare env view rt).2.lane = rt.lane ∨
      (drainPendingIfNoActiveTurn localeCompare env view rt).2.lane =
        rt.lane.drained localeCompare env := by
  have hstale : rt.clearStaleEntries = rt := by
    rw [clearStaleEntries, if_neg (by simp [hactive])]
  unfold drainPendingIfNoActiveTurn
  rw [hstale]
  split
  · exact Or.inl rfl
  extract_lets rt'
  split
  · refine Or.inl ?_
    dsimp only
    split <;> rfl
  split
  · exact Or.inl rfl
  · exact (lane_drainPending view).imp_right And.right

theorem lane_setStatus (view : ActiveWorkRead) (status : AgentStatus)
    (hactive : rt.activeDispatchEntries = []) :
    (setStatus localeCompare env view status rt).lane = rt.lane ∨
      (setStatus localeCompare env view status rt).lane = rt.lane.drained localeCompare env := by
  unfold setStatus
  split
  · have h : (drainPendingIfNoActiveTurn localeCompare env view rt).2.lane = rt.lane ∨
        (drainPendingIfNoActiveTurn localeCompare env view rt).2.lane =
          rt.lane.drained localeCompare env := lane_drainPendingIfNoActiveTurn view hactive
    split
    · rename_i heq
      rwa [heq] at h
    · rename_i rt' heq
      rw [heq] at h
      have hput : (if rt'.blockingWorkCount view > 0 then rt'.putStatus .toolRunning
          else rt'.putStatus .idle).lane = rt'.lane := by
        split <;> rfl
      rwa [hput]
  · exact Or.inl rfl

/-- With no entries of a running dispatch, the queue stays as it is, or all of it
is drained. -/
theorem lane_drainOrSetStatus (view : ActiveWorkRead) (status : AgentStatus)
    (hactive : rt.activeDispatchEntries = []) :
    (drainOrSetStatus localeCompare env view status rt).lane = rt.lane ∨
      (drainOrSetStatus localeCompare env view status rt).lane =
        rt.lane.drained localeCompare env := by
  unfold drainOrSetStatus
  have h : (drainPending localeCompare env view rt).2.lane = rt.lane ∨
      (drainPending localeCompare env view rt).1 = true ∧
      (drainPending localeCompare env view rt).2.lane = rt.lane.drained localeCompare env :=
    lane_drainPending view
  split
  · rename_i heq
    rw [heq] at h
    exact h.imp_right And.right
  · rename_i rt' heq
    rw [heq] at h
    have hlane : rt'.lane = rt.lane := h.resolve_right fun h => Bool.false_ne_true h.1
    have hactive' : rt'.activeDispatchEntries = [] := (congrArg Lane.active hlane).trans hactive
    rw [← hlane]
    exact lane_setStatus view status hactive'

/-- The entries that a lane holds, as they are handed over. -/
def handed (entries : List PendingEntry) : List PendingEntry := entries.map PendingEntry.handedOver

/-- STOP has discarded just the entries of the turn that was to be tried again:
the others still wait, or are in the next dispatch, in their order. -/
def DiscardsRetried (rt rt' : TransportSessionRuntime) : Prop :=
  handed (rt'.activeDispatchEntries ++ rt'.pendingMessages) =
    handed (rt.pendingMessages.filter (·.serial ∉ rt.retriedSerials))

/-- Nothing that was sent to the front since waits, and the turn is all there or
there is nothing else. -/
def RetriedAlone (rt : TransportSessionRuntime) : Prop :=
  (∀ e ∈ rt.pendingMessages, e.serial ∉ rt.jumpedSerials) ∧
    ((∀ s ∈ rt.retriedSerials, ∃ e ∈ rt.pendingMessages, e.serial = s) ∨
      ∀ e ∈ rt.pendingMessages, e.serial ∈ rt.retriedSerials)

instance : Decidable rt.RetriedAlone := by
  unfold RetriedAlone
  infer_instance

/-- Draining hands over what waits. -/
theorem handed_live_drained {l : Lane} (hactive : l.active = []) :
    handed (l.drained localeCompare env).live = handed l.live := by
  simp only [handed, Lane.live, Lane.drained, hactive, List.append_nil, List.nil_append,
    List.map_map]
  rfl

/-- What STOP leaves of a queue whose turn waits to be tried again. -/
theorem handed_live_cancelRetry (hactive : rt.activeDispatchEntries = [])
    (hcount : 0 < rt.recoverableRetryEntryCount) :
    handed (cancelRetry localeCompare env rt).lane.live =
      handed (rt.pendingMessages.drop rt.recoverableRetryEntryCount) := by
  unfold cancelRetry
  extract_lets retriedEntryCount rtCleared rtDisarmed rtDiscarded
  have hlane : rtDiscarded.markCurrentActivityGenerationLocallyCancelled.closeOpenTools.lane =
      rt.lane.retryStopped := by
    rw [lane_closeOpenTools, lane_markCurrentActivityGenerationLocallyCancelled,
      show rtDiscarded = _ from if_pos hcount]
    rfl
  generalize rtDiscarded.markCurrentActivityGenerationLocallyCancelled.closeOpenTools = rt' at hlane
  have hactive' : rt'.activeDispatchEntries = [] := (congrArg Lane.active hlane).trans hactive
  have hlive : rt'.lane.live = rt.pendingMessages.drop rt.recoverableRetryEntryCount := by
    rw [hlane]
    simp [Lane.live, Lane.retryStopped, Lane.discarded, Lane.withdrawn, lane, hactive]
  rcases lane_drainOrSetStatus env.view .idle hactive' with h | h
  · rw [h, hlive]
  · rw [h, handed_live_drained hactive', hlive]

/-- **STOP during an automatic retry discards just the entries of the turn that
was to be tried again** if and only if nothing that was sent to the front since
still waits, and the turn is all there or nothing else waits. -/
theorem cancel_discards_retried_iff (localeCompare : Collation) (provider : Provider)
    (sessionKey : String) (store : StoreConn) (steps : Steps) (env : StepEnv)
    (rt' : TransportSessionRuntime) :
    let rt := run localeCompare steps (create provider sessionKey store)
    rt.recoverableRetryTimer = true → rt.activeTurn = false → rt.sending = false →
      cancel localeCompare env rt = .ok rt' → (DiscardsRetried rt rt' ↔ rt.RetriedAlone) := by
  intro rt htimer hturn hsending hcancel
  have hn : rt.lane.WellNumbered := wellNumbered_run provider sessionKey store steps
  have hretry : rt.lane.Retrying := retryShown_run provider sessionKey store steps htimer
  have hactive : rt.activeDispatchEntries = [] := hn.retry htimer
  have hrt' : rt' = cancelRetry localeCompare env rt := by
    unfold cancel at hcancel
    split at hcancel
    · cases hcancel
    · cases hcancel
      simp [cancelBound, htimer, hturn, hsending]
  have hcount : rt.recoverableRetryEntryCount = rt.retriedSerials.length := hretry.count
  have hpos : 0 < rt.recoverableRetryEntryCount :=
    hcount ▸ List.length_pos_iff.2 hretry.nonempty
  have hnodup : (rt.pendingMessages.map (·.serial)).Nodup := by
    have := hn.live_nodup
    rwa [Lane.live, show rt.lane.active = [] from hactive, List.nil_append] at this
  -- The entries are told apart by their numbers.
  have hserials : DiscardsRetried rt rt' ↔
      (rt.pendingMessages.map (·.serial)).drop rt.retriedSerials.length =
        (rt.pendingMessages.map (·.serial)).filter (· ∉ rt.retriedSerials) := by
    have hlive : DiscardsRetried rt rt' ↔
        handed (rt.pendingMessages.drop rt.recoverableRetryEntryCount) =
          handed (rt.pendingMessages.filter (·.serial ∉ rt.retriedSerials)) := by
      rw [DiscardsRetried, ← handed_live_cancelRetry hactive hpos, hrt']
      rfl
    rw [hlive, hcount, ← List.map_drop, List.filter_map]
    constructor
    · intro h
      have := congrArg (List.map (·.serial)) h
      rwa [handed, handed, Lane.map_serial_handedOver, Lane.map_serial_handedOver] at this
    · intro h
      exact congrArg handed
        (eq_of_map_eq hnodup (List.drop_sublist _ _) List.filter_sublist h)
  rw [hserials]
  obtain ⟨front, kept, rest, heq, hfront, hkept, hrest⟩ :
      ∃ front kept rest, rt.pendingMessages.map (·.serial) = front ++ kept ++ rest ∧
        (∀ s ∈ front, s ∈ rt.jumpedSerials) ∧ kept.Sublist rt.retriedSerials ∧
        ∀ s ∈ rest, s ∉ rt.retriedSerials ∧ s ∉ rt.jumpedSerials := hretry.shape
  have hjumped : ∀ s ∈ rt.jumpedSerials, s ∉ rt.retriedSerials := hretry.disjoint
  have halone : rt.RetriedAlone ↔
      (∀ s ∈ front ++ kept ++ rest, s ∉ rt.jumpedSerials) ∧
        ((∀ s ∈ rt.retriedSerials, s ∈ front ++ kept ++ rest) ∨
          ∀ s ∈ front ++ kept ++ rest, s ∈ rt.retriedSerials) := by
    rw [← heq]
    simp [RetriedAlone]
  rw [halone, ← front_nil_and_iff hfront hkept hretry.nodup hjumped hrest, heq]
  exact drop_eq_filter_iff (heq ▸ hnodup) hkept hretry.nonempty
    (fun s hs => hjumped s (hfront s hs)) fun s hs => (hrest s hs).1

/-! ### A message sent to the front -/

/-- The provider is busy with a turn of its own, and the message waits to be
tried again. -/
def busyRun : Steps :=
  [(exampleStepEnv "u", .setProviderSessionId "s"),
    (exampleStepEnv "u", .send { message := "one", clientMessageId := some "m1" }),
    (exampleStepEnv "u", .dispatchRejected 1 ⟨"PROVIDER_ERROR", "Provider is busy", true, none⟩)]

/-- The same, and then another message is sent to the front. -/
def jumpedRun : Steps :=
  busyRun ++ [(exampleStepEnv "u",
    .send {
      message := "two"
      clientMessageId := some "m2"
      metadata := { queuePlacement := some .front } })]

/-- Two messages that waited for a turn are tried together, and wait to be tried
again; a third one is sent behind them. -/
def queuedRun : Steps :=
  [(exampleStepEnv "u", .setProviderSessionId "s"),
    (exampleStepEnv "u", .send { message := "one", clientMessageId := some "m1" }),
    (exampleStepEnv "u", .send { message := "two", clientMessageId := some "m2" }),
    (exampleStepEnv "u", .send { message := "three", clientMessageId := some "m3" }),
    (exampleStepEnv "u", .onComplete 1 "s" "done"),
    (exampleStepEnv "u", .dispatchRejected 2 ⟨"PROVIDER_ERROR", "Provider is busy", true, none⟩),
    (exampleStepEnv "u", .send { message := "four", clientMessageId := some "m4" })]

/-- STOP after `queuedRun` discards the two messages, and not the third. -/
theorem cancel_discards_retried_iff_queuedRun :
    let rt := run (fun _ _ => 0) queuedRun
      (create exampleProvider "deck" (freshConn fun _ => none))
    rt.pendingMessages.map (·.clientMessageId) = ["m2", "m3", "m4"] ∧
      DiscardsRetried rt (cancelBound (fun _ _ => 0) (exampleStepEnv "u") rt) :=
  ⟨rfl, (cancel_discards_retried_iff (fun _ _ => 0) exampleProvider "deck"
    (freshConn fun _ => none) queuedRun (exampleStepEnv "u") _ rfl rfl rfl rfl).2
      (by unfold RetriedAlone; decide)⟩

/-- **STOP may discard another message**, and leave the turn it was to stop. -/
theorem not_cancel_discards_retried :
    ¬ ∀ (localeCompare : Collation) (provider : Provider) (sessionKey : String)
      (store : StoreConn) (steps : Steps) (env : StepEnv) (rt' : TransportSessionRuntime),
      (run localeCompare steps (create provider sessionKey store)).recoverableRetryTimer = true →
      (run localeCompare steps (create provider sessionKey store)).activeTurn = false →
      (run localeCompare steps (create provider sessionKey store)).sending = false →
      cancel localeCompare env (run localeCompare steps (create provider sessionKey store)) =
        .ok rt' →
      DiscardsRetried (run localeCompare steps (create provider sessionKey store)) rt' := by
  intro h
  have hcancel := h (fun _ _ => 0) exampleProvider "deck" (freshConn fun _ => none) jumpedRun
    (exampleStepEnv "u") _ rfl rfl rfl rfl
  exact absurd (congrArg (List.map (·.serial)) hcancel) (by decide)

end TransportSessionRuntime

end Imcodes.Transport
