import Imcodes.Transport.Moves

/-!
# The numbers of messages and dispatches

What a trace says of a message, and the invariants of the lane that every
result below rests on: `Lane.WellNumbered`.

* `WellNumbered.step` — every step of the runtime keeps them.
* `wellNumbered_run` — they hold in every state a runtime can reach.
-/

namespace Imcodes.Transport

open Imcodes.Queue Machine

attribute [local irreducible] Queue.edit Queue.drop finalizeSentBatch

/-! ## What a trace says -/

namespace Mark

/-- The message that a mark says has been accepted. -/
def acceptedSerials : Mark → List Nat
  | .accepted serial _ _ => [serial]
  | _ => []

/-- The messages that a mark puts into a dispatch. -/
def dispatchedSerials : Mark → List Nat
  | .dispatched entries => entries.map (·.1)
  | _ => []

/-- The messages that a mark takes out of the queue. -/
def withdrawnSerials : Mark → List Nat
  | .withdrawn serials => serials
  | _ => []

end Mark

/-- The messages accepted by `send`, in order. -/
def acceptedSerials (t : List Mark) : List Nat := t.flatMap Mark.acceptedSerials

/-- The messages that have been put into a dispatch, in order. -/
def dispatchedSerials (t : List Mark) : List Nat := t.flatMap Mark.dispatchedSerials

/-- The messages that have been taken out of the queue. -/
def withdrawnSerials (t : List Mark) : List Nat := t.flatMap Mark.withdrawnSerials

@[simp] theorem acceptedSerials_append (t u : List Mark) :
    acceptedSerials (t ++ u) = acceptedSerials t ++ acceptedSerials u := List.flatMap_append

@[simp] theorem acceptedSerials_cons (m : Mark) (t : List Mark) :
    acceptedSerials (m :: t) = m.acceptedSerials ++ acceptedSerials t := rfl

@[simp] theorem acceptedSerials_nil : acceptedSerials [] = [] := rfl

@[simp] theorem dispatchedSerials_append (t u : List Mark) :
    dispatchedSerials (t ++ u) = dispatchedSerials t ++ dispatchedSerials u := List.flatMap_append

@[simp] theorem dispatchedSerials_cons (m : Mark) (t : List Mark) :
    dispatchedSerials (m :: t) = m.dispatchedSerials ++ dispatchedSerials t := rfl

@[simp] theorem dispatchedSerials_nil : dispatchedSerials [] = [] := rfl

@[simp] theorem withdrawnSerials_append (t u : List Mark) :
    withdrawnSerials (t ++ u) = withdrawnSerials t ++ withdrawnSerials u := List.flatMap_append

@[simp] theorem withdrawnSerials_cons (m : Mark) (t : List Mark) :
    withdrawnSerials (m :: t) = m.withdrawnSerials ++ withdrawnSerials t := rfl

@[simp] theorem withdrawnSerials_nil : withdrawnSerials [] = [] := rfl

@[simp] theorem acceptedSerials_dispatchMarks (entries : List PendingEntry) :
    acceptedSerials (Lane.dispatchMarks entries) = [] := rfl

@[simp] theorem withdrawnSerials_dispatchMarks (entries : List PendingEntry) :
    withdrawnSerials (Lane.dispatchMarks entries) = [] := rfl

@[simp] theorem dispatchedSerials_dispatchMarks (entries : List PendingEntry) :
    dispatchedSerials (Lane.dispatchMarks entries) = entries.map (·.serial) := by
  simp [Lane.dispatchMarks, Mark.dispatchedSerials]

/-! ## Entries -/

namespace TransportSessionRuntime

@[simp] theorem map_serial_editFirst (id text : String) (entries : List PendingEntry) :
    (editFirst id text entries).map (·.serial) = entries.map (·.serial) := by
  induction entries with
  | nil => rfl
  | cons e rest ih =>
    unfold editFirst
    split
    · rfl
    · rw [List.map_cons, List.map_cons, ih]

theorem serial_recoveredEntries (n : Nat) (messages : List PendingTransportMessage) :
    (recoveredEntries n messages).map (·.serial) = List.range' n messages.length := by
  induction messages generalizing n with
  | nil => rfl
  | cons m rest ih =>
    rw [recoveredEntries, List.map_cons, ih, List.length_cons, List.range'_succ]

theorem intake_of_mem_recoveredEntries {n : Nat} {messages : List PendingTransportMessage}
    {e : PendingEntry} (h : e ∈ recoveredEntries n messages) : e.intake = .recovered := by
  induction messages generalizing n with
  | nil => cases h
  | cons m rest ih =>
    rcases List.mem_cons.1 h with rfl | h
    · rfl
    · exact ih h

/-- The entry that is found is the one that is taken out. -/
theorem eraseP_of_find? {p : PendingEntry → Bool} {entries : List PendingEntry} {e : PendingEntry}
    (h : entries.find? p = some e) :
    ∃ es es', entries = es ++ e :: es' ∧ entries.eraseP p = es ++ es' := by
  obtain ⟨hp, es, es', rfl, hes⟩ := List.find?_eq_some_iff_append.1 h
  refine ⟨es, es', rfl, ?_⟩
  rw [List.eraseP_append_right _ fun b hb => by simpa using hes b hb, List.eraseP_cons_of_pos hp]

end TransportSessionRuntime

/-! ## The invariants -/

namespace Lane

/-- The entries that a lane holds, those of the running dispatch first. -/
def live (l : Lane) : List PendingEntry := l.active ++ l.pending

/-- Serial numbers and dispatch ids are given once, and a turn that waits to be
tried again has left nothing behind. -/
structure WellNumbered (l : Lane) : Prop where
  live_lt : ∀ s ∈ l.live.map (·.serial), s < l.nextSerial
  live_nodup : (l.live.map (·.serial)).Nodup
  accepted_lt : ∀ s ∈ acceptedSerials l.trace, s < l.nextSerial
  dispatched_lt : ∀ s ∈ dispatchedSerials l.trace, s < l.nextSerial
  dispatch_le : ∀ d ∈ l.dispatchId, d ≤ l.nextDispatchId
  retry : l.retrying = true → l.active = []

variable {localeCompare : Collation} {env : StepEnv} {l l' : Lane}

theorem map_serial_handedOver (entries : List PendingEntry) :
    (entries.map PendingEntry.handedOver).map (·.serial) = entries.map (·.serial) := by
  rw [List.map_map]
  rfl

/-- Nothing new has come in. -/
structure NothingNew (l l' : Lane) : Prop where
  live : (l'.live.map (·.serial)).Sublist (l.live.map (·.serial))
  nextSerial : l'.nextSerial = l.nextSerial
  accepted : acceptedSerials l'.trace = acceptedSerials l.trace
  dispatched : dispatchedSerials l'.trace = dispatchedSerials l.trace
  nextDispatchId : l'.nextDispatchId = l.nextDispatchId
  dispatchId : l'.dispatchId = l.dispatchId ∨ l'.dispatchId = none

/-- Entries are taken out of the queue. -/
theorem nothingNew_withdrawn {kept : List PendingEntry} (hkept : kept.Sublist l.pending)
    (serials : List Nat) : NothingNew l (l.withdrawn kept serials) where
  live := (hkept.append_left l.active).map _
  nextSerial := rfl
  accepted := by simp [withdrawn, Mark.acceptedSerials]
  dispatched := by simp [withdrawn, Mark.dispatchedSerials]
  nextDispatchId := rfl
  dispatchId := Or.inl rfl

theorem nothingNew_removed (id : String) (e : PendingEntry) :
    NothingNew l (l.removed localeCompare env id e) := by
  have hnew : NothingNew l (l.withdrawn (l.pending.eraseP (·.clientMessageId = id)) [e.serial]) :=
    nothingNew_withdrawn List.eraseP_sublist _
  exact ⟨hnew.live, rfl, hnew.accepted, hnew.dispatched, rfl, Or.inl rfl⟩

theorem nothingNew_release : NothingNew l { l with dispatchId := none } :=
  ⟨.refl _, rfl, rfl, rfl, rfl, Or.inr rfl⟩

theorem nothingNew_dropActive : NothingNew l { l with active := [] } :=
  ⟨(List.sublist_append_right l.active l.pending).map _, rfl, rfl, rfl, rfl, Or.inl rfl⟩

theorem nothingNew_requeued : NothingNew l l.requeued :=
  ⟨.refl _, rfl, rfl, rfl, rfl, Or.inl rfl⟩

theorem nothingNew_edited (id text : String) :
    NothingNew l (l.edited localeCompare env id text) := by
  refine ⟨?_, rfl, rfl, rfl, rfl, Or.inl rfl⟩
  simp [live, edited]

theorem WellNumbered.of_nothingNew (h : l.WellNumbered) (hnew : NothingNew l l')
    (hretry : l'.retrying = true → l'.active = []) : l'.WellNumbered where
  live_lt s hs := hnew.nextSerial ▸ h.live_lt s (hnew.live.subset hs)
  live_nodup := h.live_nodup.sublist hnew.live
  accepted_lt s hs := hnew.nextSerial ▸ h.accepted_lt s (hnew.accepted ▸ hs)
  dispatched_lt s hs := hnew.nextSerial ▸ h.dispatched_lt s (hnew.dispatched ▸ hs)
  dispatch_le d hd := by
    rw [hnew.nextDispatchId]
    rcases hnew.dispatchId with heq | heq
    · exact h.dispatch_le d (heq ▸ hd)
    · rw [heq] at hd
      cases hd
  retry := hretry

theorem WellNumbered.drained (h : l.WellNumbered) (hactive : l.active = []) :
    (l.drained localeCompare env).WellNumbered := by
  have hlive : (l.drained localeCompare env).live.map (·.serial) = l.live.map (·.serial) := by
    simp [Lane.drained, live, hactive]
  refine ⟨?_, ?_, ?_, ?_, ?_, fun hr => absurd hr Bool.false_ne_true⟩
  · rw [hlive]
    exact h.live_lt
  · rw [hlive]
    exact h.live_nodup
  · intro s hs
    exact h.accepted_lt s (by simpa [Lane.drained, Mark.acceptedSerials] using hs)
  · intro s hs
    have hs' : s ∈ dispatchedSerials l.trace ∨ s ∈ l.pending.map (·.serial) := by
      simpa [Lane.drained, Mark.dispatchedSerials] using hs
    rcases hs' with hs' | hs'
    · exact h.dispatched_lt s hs'
    · exact h.live_lt s (by simpa [live, hactive] using hs')
  · rintro d ⟨⟩
    exact Nat.le_refl _

theorem WellNumbered.move (h : l.WellNumbered) (hmove : Move localeCompare env l l') :
    l'.WellNumbered := by
  cases hmove with
  | drain hpending hactive hretry => exact h.drained hactive
  | release => exact h.of_nothingNew nothingNew_release h.retry
  | dropActive => exact h.of_nothingNew nothingNew_dropActive fun _ => rfl
  | disarm =>
    refine h.of_nothingNew ⟨.refl _, rfl, rfl, rfl, rfl, Or.inl rfl⟩ fun hr => ?_
    exact absurd hr Bool.false_ne_true
  | requeue => exact h.of_nothingNew nothingNew_requeued fun _ => rfl
  | retry hactive =>
    refine h.of_nothingNew ?_ fun _ => rfl
    exact ⟨nothingNew_requeued.live, rfl, rfl, rfl, rfl, Or.inl rfl⟩
  | stopRetry hretry hcount =>
    have hnew := nothingNew_withdrawn (List.drop_sublist l.retryEntryCount l.pending)
      ((l.pending.take l.retryEntryCount).map (·.serial))
    refine h.of_nothingNew ?_ fun hr => absurd hr Bool.false_ne_true
    exact ⟨hnew.live, rfl, hnew.accepted, hnew.dispatched, rfl, Or.inl rfl⟩

theorem WellNumbered.enqueue (h : l.WellNumbered) {e : PendingEntry}
    (he : e.serial = l.nextSerial) (store : StoreConn) : (l.enqueue e store).WellNumbered := by
  have hperm : ((l.enqueue e store).live.map (·.serial)).Perm
      (l.nextSerial :: l.live.map (·.serial)) := by
    rw [← he, ← List.map_cons]
    refine List.Perm.map _ ?_
    unfold Lane.enqueue live
    dsimp only
    split
    · exact List.perm_middle
    · rw [← List.append_assoc]
      exact List.perm_append_singleton _ _
  refine ⟨?_, ?_, ?_, ?_, h.dispatch_le, h.retry⟩
  · intro s hs
    rcases List.mem_cons.1 (hperm.subset hs) with rfl | hs
    · exact Nat.lt_succ_self _
    · exact Nat.lt_succ_of_lt (h.live_lt s hs)
  · refine hperm.nodup_iff.2 (List.nodup_cons.2 ⟨fun hmem => ?_, h.live_nodup⟩)
    exact Nat.lt_irrefl _ (h.live_lt _ hmem)
  · intro s hs
    have hs' : s ∈ acceptedSerials l.trace ∨ s = e.serial := by
      simpa [Lane.enqueue, Mark.acceptedSerials] using hs
    rcases hs' with hs' | rfl
    · exact Nat.lt_succ_of_lt (h.accepted_lt s hs')
    · exact Nat.lt_succ_of_le (Nat.le_of_eq he)
  · intro s hs
    exact Nat.lt_succ_of_lt
      (h.dispatched_lt s (by simpa [Lane.enqueue, Mark.dispatchedSerials] using hs))

theorem WellNumbered.direct (h : l.WellNumbered) {e : PendingEntry}
    (he : e.serial = l.nextSerial) (hactive : l.active = []) (hretry : l.retrying = false) :
    (l.direct e).WellNumbered := by
  have hlive : (l.direct e).live.map (·.serial) = l.nextSerial :: l.live.map (·.serial) := by
    simp [Lane.direct, live, hactive, he]
  refine ⟨?_, ?_, ?_, ?_, ?_, fun hr => absurd (hretry.symm.trans hr) Bool.false_ne_true⟩
  · intro s hs
    rw [hlive] at hs
    rcases List.mem_cons.1 hs with rfl | hs
    · exact Nat.lt_succ_self _
    · exact Nat.lt_succ_of_lt (h.live_lt s hs)
  · rw [hlive]
    exact List.nodup_cons.2 ⟨fun hmem => Nat.lt_irrefl _ (h.live_lt _ hmem), h.live_nodup⟩
  · intro s hs
    have hs' : s ∈ acceptedSerials l.trace ∨ s = e.serial := by
      simpa [Lane.direct, Mark.acceptedSerials] using hs
    rcases hs' with hs' | rfl
    · exact Nat.lt_succ_of_lt (h.accepted_lt s hs')
    · exact Nat.lt_succ_of_le (Nat.le_of_eq he)
  · intro s hs
    have hs' : s ∈ dispatchedSerials l.trace ∨ s = e.serial := by
      simpa [Lane.direct, Mark.dispatchedSerials] using hs
    rcases hs' with hs' | rfl
    · exact Nat.lt_succ_of_lt (h.dispatched_lt s hs')
    · exact Nat.lt_succ_of_le (Nat.le_of_eq he)
  · rintro d ⟨⟩
    exact Nat.le_refl _

theorem WellNumbered.recover (h : l.WellNumbered) (messages : List PendingTransportMessage)
    (store : StoreConn) : (l.recover messages store).WellNumbered := by
  have hlive : (l.recover messages store).live.map (·.serial) =
      l.live.map (·.serial) ++ List.range' l.nextSerial messages.length := by
    simp [Lane.recover, live, TransportSessionRuntime.serial_recoveredEntries]
  refine ⟨?_, ?_, ?_, ?_, h.dispatch_le, h.retry⟩
  · intro s hs
    rw [hlive] at hs
    rcases List.mem_append.1 hs with hs | hs
    · exact Nat.lt_add_right _ (h.live_lt s hs)
    · exact (List.mem_range'_1.1 hs).2
  · rw [hlive]
    refine List.nodup_append.2 ⟨h.live_nodup, List.nodup_range', fun s hs s' hs' heq => ?_⟩
    exact Nat.lt_irrefl _ (Nat.lt_of_lt_of_le (heq ▸ h.live_lt s hs) (List.mem_range'_1.1 hs').1)
  · intro s hs
    refine Nat.lt_add_right _ (h.accepted_lt s ?_)
    simpa [Lane.recover, acceptedSerials, Mark.acceptedSerials] using hs
  · intro s hs
    refine Nat.lt_add_right _ (h.dispatched_lt s ?_)
    simpa [Lane.recover, dispatchedSerials, Mark.dispatchedSerials] using hs

theorem nothingNew_cleared (store : StoreConn) : NothingNew l (l.cleared store) where
  live := List.nil_sublist _
  nextSerial := rfl
  accepted := (nothingNew_withdrawn (List.nil_sublist _) _).accepted
  dispatched := (nothingNew_withdrawn (List.nil_sublist _) _).dispatched
  nextDispatchId := rfl
  dispatchId := Or.inr rfl

end Lane

namespace TransportSessionRuntime

variable {localeCompare : Collation} {env : StepEnv} {rt : TransportSessionRuntime}

theorem idle_of_hasActiveTurnWork {view : ActiveWorkRead}
    (h : rt.hasActiveTurnWork view = false) : rt.Idle :=
  idle_of_blockingWorkCount (Nat.eq_zero_of_not_pos (of_decide_eq_false h))

/-- Every step of the runtime keeps the numbers. -/
theorem wellNumbered_step (h : rt.lane.WellNumbered) (e : Event) :
    (step localeCompare env rt e).lane.WellNumbered := by
  have hspec := step_lane localeCompare env rt e
  generalize (step localeCompare env rt e).lane = l at hspec ⊢
  cases hspec with
  | turns hmoves => exact reflTransGen_invariant Lane.WellNumbered (fun _ _ hm h => h.move hm) hmoves h
  | queued hbusy => exact h.enqueue rfl _
  | sent hidle =>
    have := idle_of_hasActiveTurnWork hidle
    exact h.direct rfl this.active this.retry
  | edited hmem => exact h.of_nothingNew (Lane.nothingNew_edited _ _) h.retry
  | removed hfind => exact h.of_nothingNew (Lane.nothingNew_removed _ _) h.retry
  | removedByPrefix =>
    exact h.of_nothingNew (Lane.nothingNew_withdrawn List.filter_sublist _) h.retry
  | recovered store => exact h.recover _ store
  | killed store hmoves =>
    refine reflTransGen_invariant Lane.WellNumbered (fun _ _ hm h => h.move hm) hmoves ?_
    exact h.of_nothingNew (Lane.nothingNew_cleared store) fun _ => rfl

theorem wellNumbered_create (provider : Provider) (sessionKey : String) (store : StoreConn) :
    (create provider sessionKey store).lane.WellNumbered :=
  ⟨by simp [create, lane, Lane.live], by simp [create, lane, Lane.live], by simp [create, lane],
    by simp [create, lane], by simp [create, lane], by simp [create, lane]⟩

/-- The numbers are right in every state a runtime can reach. -/
theorem wellNumbered_run (provider : Provider) (sessionKey : String) (store : StoreConn)
    (steps : Steps) :
    (run localeCompare steps (create provider sessionKey store)).lane.WellNumbered :=
  run_invariant_all (fun rt : TransportSessionRuntime => rt.lane.WellNumbered)
    (fun _ p h => wellNumbered_step h p.2) (wellNumbered_create provider sessionKey store) steps

end TransportSessionRuntime

end Imcodes.Transport
