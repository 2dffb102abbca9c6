import Imcodes.Transport.Numbering

/-!
# No message is duplicated or recorded twice

The entries of a dispatch carry two flags, and go back to the queue with them.

* `Lane.Once` — the invariant of the lane: an id is held once, an entry whose id
  is recorded or listed says so, and what is known has been accepted or
  recovered.
* `once_of_recoversUnsent` — in a run in which `send` is not called twice with
  an id, and nothing comes back from the store that was already dispatched,
  every id is held once, recorded once and listed once.
-/

namespace Imcodes.Transport

open Imcodes.Queue Machine

attribute [local irreducible] Queue.edit Queue.drop Queue.enqueue finalizeSentBatch

/-! ## What a trace says -/

namespace Mark

/-- The ids that a mark makes known. -/
def knownIds : Mark → List String
  | .accepted _ _ id | .recovered _ id => [id]
  | _ => []

/-- The id that a mark says `send` has accepted. -/
def acceptedIds : Mark → List String
  | .accepted _ _ id => [id]
  | _ => []

/-- The ids that a mark says have been recovered. -/
def recoveredIds : Mark → List String
  | .recovered _ id => [id]
  | _ => []

/-- The ids for which a mark says that `send` returned `sent`. -/
def sentIds : Mark → List String
  | .sent id => [id]
  | _ => []

/-- The ids that a mark lists in the timeline. -/
def listedIds : Mark → List String
  | .listed ids => ids
  | _ => []

/-- The ids that a mark appends to the history. -/
def recordedIds : Mark → List String
  | .recorded ids => ids
  | _ => []

/-- The ids that a mark puts into a dispatch. -/
def dispatchedIds : Mark → List String
  | .dispatched entries => entries.map (·.2)
  | _ => []

end Mark

/-- The id of an entry, with its flags. -/
def PendingEntry.flags (e : PendingEntry) : String × Bool × Bool :=
  (e.clientMessageId, e.timelineCommitted, e.historyCommitted)

namespace Lane

/-- Every id is held once, and its entry knows what has been done with it. -/
structure Once (l : Lane) : Prop where
  live_nodup : (l.live.map (·.clientMessageId)).Nodup
  live_known : ∀ id ∈ l.live.map (·.clientMessageId), id ∈ l.trace.flatMap Mark.knownIds
  dispatched_known : ∀ id ∈ l.trace.flatMap Mark.dispatchedIds, id ∈ l.trace.flatMap Mark.knownIds
  recorded_dispatched :
    ∀ id ∈ l.trace.flatMap Mark.recordedIds, id ∈ l.trace.flatMap Mark.dispatchedIds
  listed_dispatched :
    ∀ id ∈ l.trace.flatMap Mark.listedIds, id ∈ l.trace.flatMap Mark.dispatchedIds
  sent_dispatched :
    ∀ id ∈ l.trace.flatMap Mark.sentIds, id ∈ l.trace.flatMap Mark.dispatchedIds
  recorded_nodup : (l.trace.flatMap Mark.recordedIds).Nodup
  listed_nodup : (l.trace.flatMap Mark.listedIds).Nodup
  listed_sent : ∀ id ∈ l.trace.flatMap Mark.listedIds, id ∉ l.trace.flatMap Mark.sentIds
  history : ∀ x ∈ l.live.map PendingEntry.flags,
    x.1 ∈ l.trace.flatMap Mark.recordedIds → x.2.2 = true
  timeline : ∀ x ∈ l.live.map PendingEntry.flags,
    x.1 ∈ l.trace.flatMap Mark.listedIds ∨ x.1 ∈ l.trace.flatMap Mark.sentIds → x.2.1 = true

variable {localeCompare : Collation} {env : StepEnv} {l l' : Lane}

theorem map_fst_flags (entries : List PendingEntry) :
    (entries.map PendingEntry.flags).map (·.1) = entries.map (·.clientMessageId) := by
  rw [List.map_map]
  rfl

@[simp] theorem map_flags_editFirst (id text : String) (entries : List PendingEntry) :
    (TransportSessionRuntime.editFirst id text entries).map PendingEntry.flags =
      entries.map PendingEntry.flags := by
  induction entries with
  | nil => rfl
  | cons e rest ih =>
    unfold TransportSessionRuntime.editFirst
    split
    · rfl
    · rw [List.map_cons, List.map_cons, ih]

/-- Entries may move, and go, as long as the trace tells the same of their ids. -/
theorem Once.of_sublist (h : l.Once)
    (hlive : (l'.live.map PendingEntry.flags).Sublist (l.live.map PendingEntry.flags))
    (htrace : ∃ serials, l'.trace = l.trace ∨ l'.trace = l.trace ++ [.withdrawn serials]) :
    l'.Once := by
  have hids : (l'.live.map (·.clientMessageId)).Sublist (l.live.map (·.clientMessageId)) := by
    rw [← map_fst_flags, ← map_fst_flags]
    exact hlive.map _
  obtain ⟨serials, htrace⟩ := htrace
  have hsame : ∀ f : Mark → List String, f (.withdrawn serials) = [] →
      l'.trace.flatMap f = l.trace.flatMap f := by
    intro f hf
    rcases htrace with heq | heq
    · rw [heq]
    · rw [heq, List.flatMap_append, List.flatMap_cons, hf, List.flatMap_nil, List.append_nil,
        List.append_nil]
  constructor
  · exact h.live_nodup.sublist hids
  · rw [hsame _ rfl]
    exact fun id hid => h.live_known id (hids.subset hid)
  · rw [hsame _ rfl, hsame _ rfl]
    exact h.dispatched_known
  · rw [hsame _ rfl, hsame _ rfl]
    exact h.recorded_dispatched
  · rw [hsame _ rfl, hsame _ rfl]
    exact h.listed_dispatched
  · rw [hsame _ rfl, hsame _ rfl]
    exact h.sent_dispatched
  · rw [hsame _ rfl]
    exact h.recorded_nodup
  · rw [hsame _ rfl]
    exact h.listed_nodup
  · rw [hsame _ rfl, hsame _ rfl]
    exact h.listed_sent
  · rw [hsame _ rfl]
    exact fun x hx => h.history x (hlive.subset hx)
  · rw [hsame _ rfl, hsame _ rfl]
    exact fun x hx => h.timeline x (hlive.subset hx)

/-- Both flags are set on what is handed over. -/
theorem flags_handedOver {entries : List PendingEntry} {x : String × Bool × Bool}
    (hx : x ∈ (entries.map PendingEntry.handedOver).map PendingEntry.flags) :
    x.2.1 = true ∧ x.2.2 = true := by
  rw [List.map_map] at hx
  obtain ⟨e, -, rfl⟩ := List.mem_map.1 hx
  exact ⟨rfl, rfl⟩

/-- The ids of some of the entries. -/
theorem ids_filter_sublist (p : PendingEntry → Bool) (entries : List PendingEntry) :
    ((entries.filter p).map (·.clientMessageId)).Sublist (entries.map (·.clientMessageId)) :=
  List.filter_sublist.map _

/-- An entry that is not recorded yet. -/
theorem Once.not_recorded (h : l.Once) {e : PendingEntry} (he : e ∈ l.live)
    (hflag : e.historyCommitted = false) :
    e.clientMessageId ∉ l.trace.flatMap Mark.recordedIds := fun hid =>
  Bool.false_ne_true (hflag.symm.trans (h.history e.flags (List.mem_map_of_mem he) hid))

/-- An entry that is not listed yet, and was not sent at once. -/
theorem Once.not_listed (h : l.Once) {e : PendingEntry} (he : e ∈ l.live)
    (hflag : e.timelineCommitted = false) :
    e.clientMessageId ∉ l.trace.flatMap Mark.listedIds ∧
      e.clientMessageId ∉ l.trace.flatMap Mark.sentIds := by
  have h := h.timeline e.flags (List.mem_map_of_mem he)
  have hfalse : e.flags.2.1 ≠ true := by
    simp [PendingEntry.flags, hflag]
  exact ⟨fun hid => hfalse (h (Or.inl hid)), fun hid => hfalse (h (Or.inr hid))⟩

/-- Entries that the lane holds are dispatched: what is new in the trace is new,
and said of them. -/
theorem Once.of_dispatch (h : l.Once) (marks : List Mark)
    (hids : l'.live.map (·.clientMessageId) = l.live.map (·.clientMessageId))
    (hflags : ∀ x ∈ l'.live.map PendingEntry.flags, x.2.1 = true ∧ x.2.2 = true ∨
      x ∈ l.live.map PendingEntry.flags ∧ x.1 ∉ marks.flatMap Mark.dispatchedIds)
    (htrace : l'.trace = l.trace ++ marks) (hknown : marks.flatMap Mark.knownIds = [])
    (hdispatched : ∀ id ∈ marks.flatMap Mark.dispatchedIds, id ∈ l.live.map (·.clientMessageId))
    (hrecorded : ∀ id ∈ marks.flatMap Mark.recordedIds, id ∈ marks.flatMap Mark.dispatchedIds ∧
      id ∉ l.trace.flatMap Mark.recordedIds)
    (hrecorded_nodup : (marks.flatMap Mark.recordedIds).Nodup)
    (hlisted : ∀ id ∈ marks.flatMap Mark.listedIds, id ∈ marks.flatMap Mark.dispatchedIds ∧
      id ∉ l.trace.flatMap Mark.listedIds ∧ id ∉ l.trace.flatMap Mark.sentIds ∧
      id ∉ marks.flatMap Mark.sentIds)
    (hlisted_nodup : (marks.flatMap Mark.listedIds).Nodup)
    (hsent : ∀ id ∈ marks.flatMap Mark.sentIds, id ∈ marks.flatMap Mark.dispatchedIds ∧
      id ∉ l.trace.flatMap Mark.listedIds) : l'.Once := by
  have happ : ∀ f : Mark → List String,
      l'.trace.flatMap f = l.trace.flatMap f ++ marks.flatMap f := by
    intro f
    rw [htrace, List.flatMap_append]
  have hknown' : l'.trace.flatMap Mark.knownIds = l.trace.flatMap Mark.knownIds := by
    rw [happ, hknown, List.append_nil]
  constructor
  · rw [hids]
    exact h.live_nodup
  · rw [hids, hknown']
    exact h.live_known
  · rw [happ, hknown']
    exact fun id hid => (List.mem_append.1 hid).elim (h.dispatched_known id) fun hid =>
      h.live_known id (hdispatched id hid)
  · rw [happ, happ]
    exact fun id hid => List.mem_append.2
      ((List.mem_append.1 hid).imp (h.recorded_dispatched id) fun hid => (hrecorded id hid).1)
  · rw [happ, happ]
    exact fun id hid => List.mem_append.2
      ((List.mem_append.1 hid).imp (h.listed_dispatched id) fun hid => (hlisted id hid).1)
  · rw [happ, happ]
    exact fun id hid => List.mem_append.2
      ((List.mem_append.1 hid).imp (h.sent_dispatched id) fun hid => (hsent id hid).1)
  · rw [happ]
    refine List.nodup_append.2 ⟨h.recorded_nodup, hrecorded_nodup, ?_⟩
    exact fun id hid id' hid' heq => (hrecorded id' hid').2 (heq ▸ hid)
  · rw [happ]
    refine List.nodup_append.2 ⟨h.listed_nodup, hlisted_nodup, ?_⟩
    exact fun id hid id' hid' heq => (hlisted id' hid').2.1 (heq ▸ hid)
  · rw [happ, happ]
    intro id hid
    rw [List.mem_append, not_or]
    rcases List.mem_append.1 hid with hid | hid
    · exact ⟨h.listed_sent id hid, fun hs => (hsent id hs).2 hid⟩
    · exact (hlisted id hid).2.2
  · rw [happ]
    intro x hx hid
    rcases hflags x hx with ⟨-, hset⟩ | ⟨hx, hnew⟩
    · exact hset
    · refine h.history x hx ((List.mem_append.1 hid).resolve_right fun hid => ?_)
      exact hnew (hrecorded _ hid).1
  · rw [happ, happ]
    intro x hx hid
    rcases hflags x hx with ⟨hset, -⟩ | ⟨hx, hnew⟩
    · exact hset
    · refine h.timeline x hx (hid.imp ?_ ?_)
      · exact fun hid => (List.mem_append.1 hid).resolve_right fun hid => hnew (hlisted _ hid).1
      · exact fun hid => (List.mem_append.1 hid).resolve_right fun hid => hnew (hsent _ hid).1

theorem Once.drained (h : l.Once) (hactive : l.active = []) :
    (l.drained localeCompare env).Once := by
  have hpending : l.live = l.pending := by
    rw [live, hactive, List.nil_append]
  have hlive : (l.drained localeCompare env).live = l.pending.map PendingEntry.handedOver :=
    List.append_nil _
  have hnodup : (l.pending.map (·.clientMessageId)).Nodup := hpending ▸ h.live_nodup
  refine h.of_dispatch _ ?_ ?_ rfl rfl ?_ ?_ ?_ ?_ ?_ ?_
  · rw [hlive, hpending, List.map_map]
    rfl
  · rw [hlive]
    exact fun x hx => Or.inl (flags_handedOver hx)
  all_goals simp only [dispatchMarks, List.flatMap_cons, List.flatMap_nil, Mark.dispatchedIds,
    Mark.recordedIds, Mark.listedIds, Mark.sentIds, List.append_nil, List.nil_append, List.map_map]
  · rw [hpending]
    exact fun id hid => hid
  · intro id hid
    obtain ⟨e, he, rfl⟩ := List.mem_map.1 hid
    obtain ⟨he, hflag⟩ := List.mem_filter.1 he
    exact ⟨List.mem_map_of_mem he, h.not_recorded (hpending ▸ he) (by simpa using hflag)⟩
  · exact hnodup.sublist (ids_filter_sublist _ _)
  · intro id hid
    obtain ⟨e, he, rfl⟩ := List.mem_map.1 hid
    obtain ⟨he, hflag⟩ := List.mem_filter.1 he
    obtain ⟨hlisted, hsent⟩ := h.not_listed (hpending ▸ he) (by simpa using hflag)
    exact ⟨List.mem_map_of_mem he, hlisted, hsent, List.not_mem_nil⟩
  · exact hnodup.sublist (ids_filter_sublist _ _)
  · exact fun id hid => absurd hid List.not_mem_nil

theorem Once.move (h : l.Once) (hmove : Move localeCompare env l l') : l'.Once := by
  cases hmove with
  | drain hpending hactive hretry => exact h.drained hactive
  | release => exact h.of_sublist (.refl _) ⟨[], Or.inl rfl⟩
  | dropActive =>
    exact h.of_sublist ((List.sublist_append_right l.active l.pending).map _) ⟨[], Or.inl rfl⟩
  | disarm => exact h.of_sublist (.refl _) ⟨[], Or.inl rfl⟩
  | requeue => exact h.of_sublist (.refl _) ⟨[], Or.inl rfl⟩
  | retry hactive => exact h.of_sublist (.refl _) ⟨[], Or.inl rfl⟩
  | stopRetry hretry hcount =>
    exact h.of_sublist (((List.drop_sublist _ l.pending).append_left l.active).map _)
      ⟨_, Or.inr rfl⟩

/-- A new id is neither held nor dispatched. -/
theorem Once.not_known (h : l.Once) {id : String} (hid : id ∉ l.trace.flatMap Mark.knownIds) :
    id ∉ l.live.map (·.clientMessageId) ∧ id ∉ l.trace.flatMap Mark.dispatchedIds :=
  ⟨fun hmem => hid (h.live_known id hmem), fun hmem => hid (h.dispatched_known id hmem)⟩

/-- An id that has not been dispatched has been neither recorded, listed nor sent. -/
theorem Once.not_dispatched (h : l.Once) {id : String}
    (hid : id ∉ l.trace.flatMap Mark.dispatchedIds) :
    id ∉ l.trace.flatMap Mark.recordedIds ∧ id ∉ l.trace.flatMap Mark.listedIds ∧
      id ∉ l.trace.flatMap Mark.sentIds :=
  ⟨fun hmem => hid (h.recorded_dispatched id hmem), fun hmem => hid (h.listed_dispatched id hmem),
    fun hmem => hid (h.sent_dispatched id hmem)⟩

/-- Entries come in whose ids are new to the lane. -/
theorem Once.of_arrival (h : l.Once) (entries : List PendingEntry) {marks : List Mark}
    (hlive : l'.live.Perm (entries ++ l.live)) (htrace : l'.trace = l.trace ++ marks)
    (hmarks : ∀ f ∈ [Mark.sentIds, Mark.listedIds, Mark.recordedIds, Mark.dispatchedIds],
      marks.flatMap f = [])
    (hknown : marks.flatMap Mark.knownIds = entries.map (·.clientMessageId))
    (hnodup : (entries.map (·.clientMessageId)).Nodup)
    (hids : ∀ id ∈ entries.map (·.clientMessageId),
      id ∉ l.live.map (·.clientMessageId) ∧ id ∉ l.trace.flatMap Mark.dispatchedIds) :
    l'.Once := by
  have hsame : ∀ f ∈ [Mark.sentIds, Mark.listedIds, Mark.recordedIds, Mark.dispatchedIds],
      l'.trace.flatMap f = l.trace.flatMap f := by
    intro f hf
    rw [htrace, List.flatMap_append, hmarks f hf, List.append_nil]
  have hsent := hsame Mark.sentIds (by simp)
  have hlisted := hsame Mark.listedIds (by simp)
  have hrecorded := hsame Mark.recordedIds (by simp)
  have hdispatched := hsame Mark.dispatchedIds (by simp)
  have hknown' : ∀ id, id ∈ l'.trace.flatMap Mark.knownIds ↔
      id ∈ l.trace.flatMap Mark.knownIds ∨ id ∈ entries.map (·.clientMessageId) := by
    intro id
    rw [htrace, List.flatMap_append, hknown, List.mem_append]
  have hliveIds : (l'.live.map (·.clientMessageId)).Perm
      (entries.map (·.clientMessageId) ++ l.live.map (·.clientMessageId)) := by
    rw [← List.map_append]
    exact hlive.map _
  have hflags : ∀ x ∈ l'.live.map PendingEntry.flags, x ∈ l.live.map PendingEntry.flags ∨
      x.1 ∉ l.trace.flatMap Mark.dispatchedIds := by
    intro x hx
    obtain ⟨e, he, rfl⟩ := List.mem_map.1 hx
    rcases List.mem_append.1 (hlive.subset he) with he | he
    · exact Or.inr (hids _ (List.mem_map_of_mem he)).2
    · exact Or.inl (List.mem_map_of_mem he)
  constructor
  · refine hliveIds.nodup_iff.2 (List.nodup_append.2 ⟨hnodup, h.live_nodup, ?_⟩)
    exact fun id hid id' hid' heq => (hids id hid).1 (heq ▸ hid')
  · intro id hid
    refine (hknown' id).2 ?_
    exact (List.mem_append.1 (hliveIds.subset hid)).symm.imp_left (h.live_known id)
  · rw [hdispatched]
    exact fun id hid => (hknown' id).2 (Or.inl (h.dispatched_known id hid))
  · rw [hrecorded, hdispatched]
    exact h.recorded_dispatched
  · rw [hlisted, hdispatched]
    exact h.listed_dispatched
  · rw [hsent, hdispatched]
    exact h.sent_dispatched
  · rw [hrecorded]
    exact h.recorded_nodup
  · rw [hlisted]
    exact h.listed_nodup
  · rw [hlisted, hsent]
    exact h.listed_sent
  · rw [hrecorded]
    intro x hx hid
    rcases hflags x hx with hx | hx
    · exact h.history x hx hid
    · exact absurd hid (h.not_dispatched hx).1
  · rw [hlisted, hsent]
    intro x hx hid
    rcases hflags x hx with hx | hx
    · exact h.timeline x hx hid
    · exact absurd hid (not_or.2 (h.not_dispatched hx).2)

theorem Once.enqueue (h : l.Once) {e : PendingEntry}
    (he : e.clientMessageId ∉ l.trace.flatMap Mark.knownIds) (store : StoreConn) :
    (l.enqueue e store).Once := by
  have hperm : (l.enqueue e store).live.Perm ([e] ++ l.live) := by
    unfold Lane.enqueue live
    dsimp only
    split
    · exact List.perm_middle
    · rw [← List.append_assoc]
      exact List.perm_append_comm
  refine h.of_arrival _ hperm rfl ?_ rfl (List.nodup_singleton _) ?_
  · simp [Mark.sentIds, Mark.listedIds, Mark.recordedIds, Mark.dispatchedIds]
  · intro id hid
    rw [List.mem_singleton.1 hid]
    exact h.not_known he

theorem ids_recoveredEntries (n : Nat) (messages : List PendingTransportMessage) :
    (TransportSessionRuntime.recoveredEntries n messages).map (·.clientMessageId) =
      messages.map (·.clientMessageId) := by
  induction messages generalizing n with
  | nil => rfl
  | cons m rest ih => rw [TransportSessionRuntime.recoveredEntries, List.map_cons, ih]; rfl

theorem Once.recover (h : l.Once) {messages : List PendingTransportMessage}
    (hnodup : (messages.map (·.clientMessageId)).Nodup)
    (hids : ∀ id ∈ messages.map (·.clientMessageId),
      id ∉ l.live.map (·.clientMessageId) ∧ id ∉ l.trace.flatMap Mark.dispatchedIds)
    (store : StoreConn) : (l.recover messages store).Once := by
  have hperm : (l.recover messages store).live.Perm
      (TransportSessionRuntime.recoveredEntries l.nextSerial messages ++ l.live) := by
    unfold Lane.recover live
    dsimp only
    rw [← List.append_assoc]
    exact List.perm_append_comm
  refine h.of_arrival _ hperm rfl ?_ ?_ ?_ ?_
  · simp [Mark.sentIds, Mark.listedIds, Mark.recordedIds, Mark.dispatchedIds]
  · simp [List.flatMap_map, Mark.knownIds, ← List.map_eq_flatMap]
  · rwa [ids_recoveredEntries]
  · rwa [ids_recoveredEntries]

/-- A message that is dispatched at once: it comes in, and is dispatched. -/
theorem Once.direct (h : l.Once) {e : PendingEntry}
    (he : e.clientMessageId ∉ l.trace.flatMap Mark.knownIds) (htimeline : e.timelineCommitted = true)
    (hactive : l.active = []) : (l.direct e).Once := by
  let accepted : Lane := { l with
    active := [e]
    trace := l.trace ++ [.accepted e.serial e.intake e.clientMessageId] }
  have haccepted : accepted.Once := by
    refine h.of_arrival [e] ?_ rfl ?_ rfl (List.nodup_singleton _) ?_
    · simp [accepted, live, hactive]
    · simp [Mark.sentIds, Mark.listedIds, Mark.recordedIds, Mark.dispatchedIds]
    · intro id hid
      rw [List.mem_singleton.1 hid]
      exact h.not_known he
  obtain ⟨hlive, hdispatched⟩ := h.not_known he
  obtain ⟨hrecorded, hlisted, hsent⟩ := h.not_dispatched hdispatched
  have hpending : ∀ e' ∈ l.pending, e'.clientMessageId ≠ e.clientMessageId := by
    intro e' he' heq
    refine hlive (heq ▸ List.mem_map_of_mem ?_)
    exact List.mem_append_right _ he'
  have hnone : ∀ f : Mark → List String, f (.accepted e.serial e.intake e.clientMessageId) = [] →
      accepted.trace.flatMap f = l.trace.flatMap f := by
    intro f hf
    simp [accepted, hf]
  have hmem : ∀ id ∈ (([e].filter fun e => !e.historyCommitted).map (·.clientMessageId)),
      id = e.clientMessageId := fun id hid =>
    List.mem_singleton.1 ((ids_filter_sublist _ [e]).subset hid)
  refine haccepted.of_dispatch (.sent e.clientMessageId :: dispatchMarks [e])
    ?_ ?_ ?_ rfl ?_ ?_ ?_ ?_ ?_ ?_
  · simp [accepted, Lane.direct, live]
  · intro x hx
    have hx' : x = e.recordedCopy.flags ∨ x ∈ l.pending.map PendingEntry.flags := by
      simpa [Lane.direct, live] using hx
    rcases hx' with rfl | hx'
    · exact Or.inl ⟨htimeline, rfl⟩
    · obtain ⟨e', he', rfl⟩ := List.mem_map.1 hx'
      refine Or.inr ⟨by simp [accepted, live, List.mem_map_of_mem he'], ?_⟩
      simpa [dispatchMarks, Mark.dispatchedIds, PendingEntry.flags] using hpending e' he'
  · simp [accepted, Lane.direct]
  all_goals simp only [dispatchMarks, List.flatMap_cons, List.flatMap_nil, Mark.dispatchedIds,
    Mark.recordedIds, Mark.listedIds, Mark.sentIds, List.append_nil, List.nil_append,
    List.map_cons, List.map_nil, hnone Mark.recordedIds rfl, hnone Mark.listedIds rfl,
    hnone Mark.sentIds rfl]
  · simp [accepted, live]
  · intro id hid
    rw [hmem id hid]
    exact ⟨List.mem_singleton_self _, hrecorded⟩
  · exact (List.nodup_singleton e.clientMessageId).sublist (ids_filter_sublist _ [e])
  · exact fun id hid => absurd hid List.not_mem_nil
  · exact List.nodup_nil
  · intro id hid
    rw [List.mem_singleton.1 hid]
    exact ⟨List.mem_singleton_self _, hlisted⟩

theorem Once.cleared (h : l.Once) (store : StoreConn) : (l.cleared store).Once :=
  h.of_sublist (List.nil_sublist _) ⟨_, Or.inr rfl⟩

end Lane

namespace TransportSessionRuntime

variable {localeCompare : Collation} {env : StepEnv} {rt : TransportSessionRuntime}

/-! ## Recovery -/

theorem recoverRow_id {projection : QueueProjectionEntry} {m : PendingTransportMessage}
    (h : (recoverRow localeCompare env projection rt).1 = some m) :
    m.clientMessageId = projection.clientMessageId := by
  unfold recoverRow at h
  dsimp only at h
  split at h
  · cases h
  split at h
  · cases h
    rfl
  split at h
  · cases h
    rfl
  · cases h

/-- What is recovered is not live, and recovered once. -/
theorem recoverRows_ids (projections : List QueueProjectionEntry) (liveIds : List String)
    (rt : TransportSessionRuntime) :
    (((recoverRows localeCompare env projections liveIds rt).1.map (·.clientMessageId)).Nodup ∧
      ∀ id ∈ (recoverRows localeCompare env projections liveIds rt).1.map (·.clientMessageId),
        id ∉ liveIds) := by
  induction projections generalizing liveIds rt with
  | nil => exact ⟨List.nodup_nil, fun id hid => absurd hid List.not_mem_nil⟩
  | cons projection rest ih =>
    unfold recoverRows
    split
    · exact ih liveIds rt
    split
    · exact ih liveIds rt
    rename_i hlive
    split
    · exact ih liveIds _
    · rename_i m rt' heq
      have hid : m.clientMessageId = projection.clientMessageId :=
        recoverRow_id (congrArg Prod.fst heq)
      obtain ⟨hnodup, hnot⟩ := ih (m.clientMessageId :: liveIds) rt'
      dsimp only
      refine ⟨List.nodup_cons.2 ⟨fun hmem => hnot _ hmem List.mem_cons_self, hnodup⟩, ?_⟩
      intro id hmem
      rcases List.mem_cons.1 hmem with rfl | hmem
      · exact fun hmem => hlive (hid ▸ hmem)
      · exact fun hl => hnot id hmem (List.mem_cons_of_mem _ hl)

theorem readRecoverable_ids (localeCompare : Collation) (env : StepEnv)
    (rt : TransportSessionRuntime) :
    ((readRecoverable localeCompare env rt).1.map (·.clientMessageId)).Nodup ∧
      ∀ id ∈ (readRecoverable localeCompare env rt).1.map (·.clientMessageId), id ∉ rt.liveIds := by
  unfold readRecoverable
  split
  · exact ⟨List.nodup_nil, fun id hid => absurd hid List.not_mem_nil⟩
  split
  · exact ⟨List.nodup_nil, fun id hid => absurd hid List.not_mem_nil⟩
  · exact recoverRows_ids _ _ _

theorem mem_liveIds {id : String} :
    id ∈ rt.liveIds ↔ id ∈ rt.lane.live.map (·.clientMessageId) := by
  rw [liveIds, Lane.live, List.map_append, List.mem_append, List.mem_append, or_comm]
  rfl

end TransportSessionRuntime

/-! ## Runs -/

/-- The id under which `send` takes a message. -/
def SendInput.messageId (input : SendInput) (uuid : String) : String :=
  input.clientMessageId.getD uuid

/-- The id of a send. -/
def Event.sendId (uuid : String) : Event → List String
  | .send input => [input.messageId uuid]
  | _ => []

namespace TransportSessionRuntime

variable {localeCompare : Collation} {env : StepEnv} {rt : TransportSessionRuntime}

/-- The ids of the sends of a run. -/
def sendIds (steps : Steps) : List String := steps.flatMap fun p => p.2.sendId p.1.uuid

/-- Nothing comes back from the store that the runtime has put into a dispatch,
and nothing is sent that has come back from the store. -/
def RecoversUnsent (localeCompare : Collation) (rt : TransportSessionRuntime)
    (p : StepEnv × Event) : Prop :=
  match p.2 with
  | .rehydratePendingFromStore => ∀ m ∈ (readRecoverable localeCompare p.1 rt).1,
      m.clientMessageId ∉ rt.trace.flatMap Mark.dispatchedIds
  | .send input => input.messageId p.1.uuid ∉ rt.trace.flatMap Mark.recoveredIds
  | _ => True

instance RecoversUnsent.decidable (p : StepEnv × Event) :
    Decidable (RecoversUnsent localeCompare rt p) := by
  unfold RecoversUnsent
  split <;> infer_instance

theorem once_moves {l l' : Lane} (hmoves : Lane.Moves localeCompare env l l') (h : l.Once) :
    l'.Once :=
  reflTransGen_invariant Lane.Once (fun _ _ hm h => h.move hm) hmoves h

/-- What is known has been accepted, or recovered. -/
theorem mem_knownIds {t : List Mark} {id : String} :
    id ∈ t.flatMap Mark.knownIds ↔
      id ∈ t.flatMap Mark.acceptedIds ∨ id ∈ t.flatMap Mark.recoveredIds := by
  induction t with
  | nil => simp
  | cons m rest ih =>
    rw [List.flatMap_cons, List.flatMap_cons, List.flatMap_cons, List.mem_append, List.mem_append,
      List.mem_append, ih]
    cases m <;> simp [Mark.knownIds, Mark.acceptedIds, Mark.recoveredIds, or_assoc, or_left_comm]

/-- A step whose message is new, and that recovers what is unsent, keeps `Once`. -/
theorem once_step (h : rt.lane.Once) (e : Event)
    (hnew : ∀ id ∈ e.sendId env.uuid, id ∉ rt.trace.flatMap Mark.acceptedIds)
    (hok : RecoversUnsent localeCompare rt (env, e)) :
    (step localeCompare env rt e).lane.Once := by
  have hspec := step_lane localeCompare env rt e
  generalize (step localeCompare env rt e).lane = l at hspec ⊢
  have hfresh : ∀ input, e = .send input →
      input.messageId env.uuid ∉ rt.lane.trace.flatMap Mark.knownIds := by
    rintro input rfl hknown
    rcases mem_knownIds.1 hknown with hid | hid
    · exact hnew _ (List.mem_singleton_self _) hid
    · exact hok hid
  cases hspec with
  | turns hmoves => exact once_moves hmoves h
  | @queued input hbusy => exact h.enqueue (hfresh input rfl) _
  | @sent input hidle =>
    have hidle := idle_of_hasActiveTurnWork hidle
    exact h.direct (hfresh input rfl) rfl hidle.active
  | edited hmem =>
    refine h.of_sublist ?_ ⟨[], Or.inl rfl⟩
    simp [Lane.live, Lane.edited]
  | removed hfind =>
    exact h.of_sublist ((List.eraseP_sublist.append_left rt.lane.active).map _) ⟨_, Or.inr rfl⟩
  | removedByPrefix =>
    exact h.of_sublist ((List.filter_sublist.append_left rt.lane.active).map _) ⟨_, Or.inr rfl⟩
  | recovered store =>
    obtain ⟨hnodup, hlive⟩ := readRecoverable_ids localeCompare env rt
    refine h.recover hnodup (fun id hid => ⟨fun hmem => hlive id hid (mem_liveIds.2 hmem), ?_⟩) store
    obtain ⟨m, hm, rfl⟩ := List.mem_map.1 hid
    exact hok m hm
  | killed store hmoves => exact once_moves hmoves (h.cleared store)

/-- Moves accept nothing. -/
theorem acceptedIds_moves {l l' : Lane} (hmoves : Lane.Moves localeCompare env l l') :
    l'.trace.flatMap Mark.acceptedIds = l.trace.flatMap Mark.acceptedIds := by
  refine reflTransGen_invariant
    (fun x : Lane => x.trace.flatMap Mark.acceptedIds = l.trace.flatMap Mark.acceptedIds)
    (fun x y hmove hx => ?_) hmoves rfl
  rw [← hx]
  cases hmove with
  | drain => simp [Lane.drained, Lane.dispatchMarks, Mark.acceptedIds]
  | stopRetry =>
    simp [Lane.retryStopped, Lane.discarded, Lane.withdrawn, Mark.acceptedIds]
  | _ => rfl

/-- What a step accepts is sent by it. -/
theorem acceptedIds_step (e : Event) :
    ∀ id ∈ (step localeCompare env rt e).lane.trace.flatMap Mark.acceptedIds,
      id ∈ rt.lane.trace.flatMap Mark.acceptedIds ∨ id ∈ e.sendId env.uuid := by
  have hspec := step_lane localeCompare env rt e
  generalize (step localeCompare env rt e).lane = l at hspec ⊢
  cases hspec with
  | turns hmoves =>
    rw [acceptedIds_moves hmoves]
    exact fun id hid => Or.inl hid
  | queued hbusy =>
    intro id hid
    simpa [Lane.enqueue, Mark.acceptedIds, Event.sendId, SendInput.messageId,
      SendInput.entry] using hid
  | sent hidle =>
    intro id hid
    simpa [Lane.direct, Lane.dispatchMarks, Mark.acceptedIds, Event.sendId, SendInput.messageId,
      SendInput.entry] using hid
  | edited hmem => exact fun id hid => Or.inl hid
  | removed hfind =>
    intro id hid
    exact Or.inl (by simpa [Lane.removed, Lane.withdrawn, Mark.acceptedIds] using hid)
  | removedByPrefix =>
    intro id hid
    exact Or.inl (by simpa [Lane.removedByPrefix, Lane.withdrawn, Mark.acceptedIds] using hid)
  | recovered store =>
    intro id hid
    exact Or.inl (by simpa [Lane.recover, Mark.acceptedIds, List.flatMap_map] using hid)
  | killed store hmoves =>
    rw [acceptedIds_moves hmoves]
    intro id hid
    exact Or.inl (by simpa [Lane.cleared, Lane.withdrawn, Mark.acceptedIds] using hid)

/-- Runs keep `Once`, as long as their sends are new. -/
theorem once_run {steps : Steps} (h : rt.lane.Once) (hids : (sendIds steps).Nodup)
    (hnew : ∀ id ∈ sendIds steps, id ∉ rt.trace.flatMap Mark.acceptedIds)
    (hok : Along (fun rt p => step localeCompare p.1 rt p.2) (RecoversUnsent localeCompare)
      steps rt) : (run localeCompare steps rt).lane.Once := by
  induction steps generalizing rt with
  | nil => exact h
  | cons p steps ih =>
    obtain ⟨hok, hrest⟩ := hok
    rw [sendIds, List.flatMap_cons] at hids hnew
    obtain ⟨-, hids, hdisjoint⟩ := List.nodup_append.1 hids
    refine ih (once_step h p.2 (fun id hid => hnew id (List.mem_append_left _ hid)) hok) hids
      (fun id hid hmem => ?_) hrest
    rcases acceptedIds_step p.2 id hmem with hmem | hmem
    · exact hnew id (List.mem_append_right _ hid) hmem
    · exact hdisjoint id hmem id hid rfl

theorem once_create (provider : Provider) (sessionKey : String) (store : StoreConn) :
    (create provider sessionKey store).lane.Once := by
  constructor <;> simp [create, lane, Lane.live]

/-- **No accepted message is duplicated or recorded twice**, as long as nothing
comes back from the store that was already dispatched. -/
theorem once_of_recoversUnsent (localeCompare : Collation) (provider : Provider)
    (sessionKey : String) (store : StoreConn) (steps : Steps) (hids : (sendIds steps).Nodup)
    (hok : Along (fun rt p => step localeCompare p.1 rt p.2) (RecoversUnsent localeCompare) steps
      (create provider sessionKey store)) :
    let rt := run localeCompare steps (create provider sessionKey store)
    rt.liveIds.Nodup ∧ (rt.trace.flatMap Mark.recordedIds).Nodup ∧
      (rt.trace.flatMap Mark.listedIds).Nodup ∧
      ∀ id ∈ rt.trace.flatMap Mark.listedIds, id ∉ rt.trace.flatMap Mark.sentIds := by
  intro rt
  have h : rt.lane.Once := once_run (once_create provider sessionKey store) hids (by simp [create]) hok
  refine ⟨?_, h.recorded_nodup, h.listed_nodup, h.listed_sent⟩
  have hperm : (rt.lane.live.map (·.clientMessageId)).Perm rt.liveIds := by
    rw [Lane.live, List.map_append]
    exact List.perm_append_comm
  exact hperm.nodup_iff.1 h.live_nodup

/-! ### A row that is not finalized -/

/-- The second message waits for the first turn, and is drained when that ends;
then the rows of the store are looked through for what waits. -/
def recoveredRun : Steps :=
  [(exampleStepEnv "u", .setProviderSessionId "s"),
    (exampleStepEnv "u", .send { message := "one", clientMessageId := some "m1" }),
    (exampleStepEnv "u", .send { message := "two", clientMessageId := some "m2" }),
    (exampleStepEnv "u", .onComplete 1 "s" "done"),
    (exampleStepEnv "u", .onComplete 2 "s" "done"),
    (exampleStepEnv "u", .rehydratePendingFromStore),
    (exampleStepEnv "u", .drainPendingIfIdle)]

/-- With a store that works, nothing is found. -/
theorem once_of_recoversUnsent_recoveredRun :
    let rt := run (fun _ _ => 0) recoveredRun
      (create exampleProvider "deck" (freshConn fun _ => none))
    rt.liveIds.Nodup ∧ (rt.trace.flatMap Mark.recordedIds).Nodup ∧
      (rt.trace.flatMap Mark.listedIds).Nodup ∧
      ∀ id ∈ rt.trace.flatMap Mark.listedIds, id ∉ rt.trace.flatMap Mark.sentIds :=
  once_of_recoversUnsent (fun _ _ => 0) exampleProvider "deck" (freshConn fun _ => none)
    recoveredRun (by decide) (by decide +kernel)

/-- **A message may be dispatched twice**: when the row of a message could not be
finalized, it is found again once the message is done. -/
theorem not_once :
    ¬ ∀ (localeCompare : Collation) (provider : Provider) (sessionKey : String)
      (store : StoreConn) (steps : Steps), (sendIds steps).Nodup →
      let rt := run localeCompare steps (create provider sessionKey store)
      rt.liveIds.Nodup ∧ (rt.trace.flatMap Mark.recordedIds).Nodup ∧
        (rt.trace.flatMap Mark.listedIds).Nodup ∧
        ∀ id ∈ rt.trace.flatMap Mark.listedIds, id ∉ rt.trace.flatMap Mark.sentIds := by
  intro h
  obtain ⟨-, hrecorded, -⟩ := h (fun _ _ => 0) exampleProvider "deck" (freshConn (failAt 12))
    recoveredRun (by decide)
  exact absurd hrecorded (by decide +kernel)

end TransportSessionRuntime

end Imcodes.Transport
