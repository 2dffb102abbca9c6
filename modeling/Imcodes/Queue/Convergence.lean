import Imcodes.Queue.Reducer
import Imcodes.Queue.Emission

/-!
# Convergence of the reducer in one epoch

A consumer that has received some of the events of a run, in any order and any
number of times, is in one of three states: it has seen no snapshot (`Fresh`),
its first one was the fallback of a failed read (`Poisoned`), or it follows the
session (`Following`).

* `consumer_of_upTo` — the three states, and that a consumer that follows the
  session and has received the newest snapshot shows it.
* `converges_iff` — in a run without a reset, a consumer that has received the
  newest snapshot shows it, unless its first snapshot was a fallback.
* `degraded_read_blocks_iff` — a consumer that receives a sequence of snapshots
  in order shows each of them in turn, with the same exception.
-/

namespace Imcodes.Queue

open Relational

/-! ## Consumers -/

/-- The consumer shows what the snapshot says. -/
structure TransportQueueReducerState.Holds (state : TransportQueueReducerState)
    (x : QueueSnapshot) : Prop where
  queueEpoch : state.queueEpoch = some x.queueEpoch
  pendingMessageVersion : state.pendingMessageVersion = some x.pendingMessageVersion
  pendingMessageEntries : state.pendingMessageEntries = x.pendingMessageEntries
  failedMessageEntries : state.failedMessageEntries = x.failedMessageEntries

/-- The event may be received beside the snapshot `x`, the newest one. -/
inductive UpTo (x : QueueSnapshot) : QueueEvent → Prop
  | fallback {y : QueueSnapshot} (h : y.IsFallback) : UpTo x (.snapshot y)
  | snapshot {y : QueueSnapshot} (hy : ¬ y.IsFallback) (he : y.queueEpoch = x.queueEpoch)
      (ha : y.queueAuthorityId = x.queueAuthorityId) (hr : y.resetReason = none)
      (hle : y.pendingMessageVersion ≤ x.pendingMessageVersion)
      (hsame : y.pendingMessageVersion = x.pendingMessageVersion → y.SameLists x) :
      UpTo x (.snapshot y)
  | delivery {d : QueueDeliveryFact} (he : d.queueEpoch = x.queueEpoch)
      (ha : d.queueAuthorityId = x.queueAuthorityId)
      (hle : d.pendingMessageVersion ≤ x.pendingMessageVersion)
      (hl : ¬ x.Lists d.clientMessageId) : UpTo x (.delivery d)

/-- No snapshot has been applied. -/
structure TransportQueueReducerState.Fresh (state : TransportQueueReducerState) : Prop where
  queueEpoch : state.queueEpoch = none
  deliveredTombstones : state.deliveredTombstones = []

/-- The first snapshot that was applied is a fallback. -/
structure TransportQueueReducerState.Poisoned (state : TransportQueueReducerState) : Prop where
  baseline : hasBaseline state = some ⟨"unavailable", "unavailable", 0⟩
  pendingMessageEntries : state.pendingMessageEntries = []
  failedMessageEntries : state.failedMessageEntries = []

/-- The consumer is in the epoch of `x`, no further than `x`, and remembers no
delivery of a message that `x` lists. -/
structure TransportQueueReducerState.Following (state : TransportQueueReducerState)
    (x : QueueSnapshot) : Prop where
  baseline : ∃ n ≤ x.pendingMessageVersion,
    hasBaseline state = some ⟨x.queueEpoch, x.queueAuthorityId, n⟩
  tombstones : ∀ id, tombstoneKey x.queueEpoch id ∈ state.deliveredTombstones → ¬ x.Lists id

/-- A snapshot the store has made of a session. -/
structure QueueSnapshot.Genuine (x : QueueSnapshot) : Prop where
  epoch : x.queueEpoch.length = 36
  authority : x.queueAuthorityId.length = 36
  wellFormed : x.WellFormed

section Consumer

variable {localeCompare : Collation} {state : TransportQueueReducerState} {x y : QueueSnapshot}
  {e : QueueEvent}

theorem ne_unavailable_of_length {t : String} (h : t.length = 36) : t ≠ "unavailable" ∧ t ≠ "" := by
  constructor
  · rintro rfl
    exact absurd h (by decide)
  · rintro rfl
    exact absurd h (by decide)

/-- A fallback is in no epoch of the store. -/
theorem QueueSnapshot.Genuine.ne_of_isFallback (hx : x.Genuine) (hy : y.IsFallback) :
    y.queueEpoch ≠ x.queueEpoch := by
  rw [hy.1]
  exact (ne_unavailable_of_length hx.epoch).1.symm

theorem TransportQueueReducerState.Fresh.hasBaseline (h : state.Fresh) :
    hasBaseline state = none := by
  rw [Queue.hasBaseline, h.queueEpoch]
  rfl

/-- A snapshot that is applied is shown, unless it lists a message that was delivered. -/
theorem holds_of_applied (localeCompare : Collation) (hy : y.WellFormed)
    (happ : canApplySnapshot state y.header = none)
    (hgone : ∀ id, tombstoneKey y.queueEpoch id ∈ state.deliveredTombstones → ¬ y.Lists id) :
    (applySnapshot localeCompare state y).Holds y := by
  set tombs := if state.queueEpoch.any (· ≠ y.queueEpoch) then [] else state.deliveredTombstones
    with htombs
  have hsub : ∀ k ∈ tombs, k ∈ state.deliveredTombstones := by
    intro k hk
    rw [htombs] at hk
    split at hk
    · cases hk
    · exact hk
  have hpending : ((y.pendingMessageEntries.filter (·.status.isLive)).filter fun e =>
      tombstoneKey y.queueEpoch e.clientMessageId ∉ tombs) = y.pendingMessageEntries := by
    rw [List.filter_eq_self.2 hy.live]
    refine List.filter_eq_self.2 fun e he => decide_eq_true fun hk => ?_
    exact hgone _ (hsub _ hk) ⟨e, List.mem_append_left _ he, rfl⟩
  have hfailed : y.failedMessageEntries.filter (·.status.isFailed) = y.failedMessageEntries :=
    List.filter_eq_self.2 hy.failed
  rw [applySnapshot, happ]
  refine ⟨rfl, rfl, ?_, ?_⟩
  · simp only [← htombs, hpending]
    exact sortBy_of_pairwise hy.pendingOrder localeCompare
  · simp only [hfailed]
    exact sortBy_of_pairwise hy.failedOrder localeCompare

theorem mem_tombstones_of_applySnapshot {k : String}
    (h : k ∈ (applySnapshot localeCompare state y).deliveredTombstones) :
    k ∈ state.deliveredTombstones := by
  by_cases happ : canApplySnapshot state y.header = none
  · rw [applySnapshot, happ] at h
    simp only at h
    split at h
    · cases h
    · exact h
  · obtain ⟨reason, hr⟩ := applySnapshot_of_rejected localeCompare happ
    rwa [hr] at h

/-! ## One event -/

/-- Nothing gets a poisoned consumer out of its state. -/
theorem TransportQueueReducerState.Poisoned.step (h : state.Poisoned) (hx : x.Genuine)
    (he : UpTo x e) : (reduceTransportQueueEvent localeCompare state e).Poisoned := by
  cases he with
  | @fallback y hy =>
    by_cases happ : canApplySnapshot state y.header = none
    · have hb := hasBaseline_of_applied localeCompare happ
      obtain ⟨he, ha, hv, hp, hf, -⟩ := hy
      refine ⟨?_, ?_, ?_⟩
      · exact hb.trans (by rw [QueueSnapshot.baseline, he, ha, hv])
      · simp only [reduceTransportQueueEvent, applySnapshot, happ, hp, List.filter_nil]
        rfl
      · simp only [reduceTransportQueueEvent, applySnapshot, happ, hf, List.filter_nil]
        rfl
    · obtain ⟨reason, hr⟩ := applySnapshot_of_rejected localeCompare happ
      rw [reduceTransportQueueEvent, hr]
      exact ⟨h.baseline, h.pendingMessageEntries, h.failedMessageEntries⟩
  | @snapshot y hy he ha hr hle hsame =>
    have hne : y.queueEpoch ≠ "unavailable" := by
      rw [he]
      exact (ne_unavailable_of_length hx.epoch).1
    have hrej := rejected_of_foreign h.baseline hne hr
    obtain ⟨reason, hr⟩ := applySnapshot_of_rejected localeCompare hrej
    rw [reduceTransportQueueEvent, hr]
    exact ⟨h.baseline, h.pendingMessageEntries, h.failedMessageEntries⟩
  | @delivery d he ha hle hl =>
    have hne : d.queueEpoch ≠ "unavailable" := by
      rw [he]
      exact (ne_unavailable_of_length hx.epoch).1
    simp only [reduceTransportQueueEvent, applyDelivery, h.baseline, hne, ne_eq, not_false_eq_true,
      true_or, if_true]
    exact ⟨h.baseline, h.pendingMessageEntries, h.failedMessageEntries⟩

/-- A consumer that follows the session goes on following it. -/
theorem TransportQueueReducerState.Following.step (h : state.Following x) (hx : x.Genuine)
    (he : UpTo x e) : (reduceTransportQueueEvent localeCompare state e).Following x := by
  obtain ⟨n, hn, hb⟩ := h.baseline
  cases he with
  | @fallback y hy =>
    have hrej := rejected_of_foreign hb (hx.ne_of_isFallback hy) hy.2.2.2.2.2.2
    obtain ⟨reason, hr⟩ := applySnapshot_of_rejected localeCompare hrej
    rw [reduceTransportQueueEvent, hr]
    exact ⟨⟨n, hn, hb⟩, h.tombstones⟩
  | @snapshot y hy he ha hr hle hsame =>
    refine ⟨?_, fun id hid => h.tombstones id (mem_tombstones_of_applySnapshot hid)⟩
    by_cases happ : canApplySnapshot state y.header = none
    · refine ⟨_, hle, (hasBaseline_of_applied localeCompare happ).trans ?_⟩
      rw [QueueSnapshot.baseline, he, ha]
    · obtain ⟨reason, hr⟩ := applySnapshot_of_rejected localeCompare happ
      rw [reduceTransportQueueEvent, hr]
      exact ⟨n, hn, hb⟩
  | @delivery d he ha hle hl =>
    simp only [reduceTransportQueueEvent, applyDelivery, hb, he, ha, ne_eq, not_true_eq_false,
      or_self, if_false]
    refine ⟨⟨max n d.pendingMessageVersion, max_le hn hle, ?_⟩, fun id hid => ?_⟩
    · obtain ⟨h₁, h₂, h₃, h₄, -⟩ := hasBaseline_eq_some.1 hb
      exact hasBaseline_eq_some.2 ⟨h₁, h₂, h₃, h₄, rfl⟩
    · rcases List.mem_cons.1 hid with hid | hid
      · rwa [tombstoneKey_injective hid]
      · exact h.tombstones id hid

/-- What a snapshot lists stays when a message is taken out that it does not list. -/
theorem filter_ne_of_not_lists {id : String} (h : ¬ x.Lists id) :
    x.pendingMessageEntries.filter (·.clientMessageId ≠ id) = x.pendingMessageEntries ∧
      x.failedMessageEntries.filter (·.clientMessageId ≠ id) = x.failedMessageEntries := by
  constructor
  · exact List.filter_eq_self.2 fun e he => decide_eq_true fun hid =>
      h ⟨e, List.mem_append_left _ he, hid⟩
  · exact List.filter_eq_self.2 fun e he => decide_eq_true fun hid =>
      h ⟨e, List.mem_append_right _ he, hid⟩

/-- A consumer that shows the newest snapshot goes on showing it. -/
theorem TransportQueueReducerState.Holds.step (hh : state.Holds x) (h : state.Following x)
    (hx : x.Genuine) (he : UpTo x e) :
    (reduceTransportQueueEvent localeCompare state e).Holds x := by
  obtain ⟨n, hn, hb⟩ := h.baseline
  have hnx : n = x.pendingMessageVersion := by
    have h₁ := (hasBaseline_eq_some.1 hb).2.2.2.2
    rw [hh.pendingMessageVersion] at h₁
    exact (Option.some.inj h₁).symm
  have hstay {y : QueueSnapshot} (hrej : canApplySnapshot state y.header ≠ none) :
      (reduceTransportQueueEvent localeCompare state (.snapshot y)).Holds x := by
    obtain ⟨reason, hr⟩ := applySnapshot_of_rejected localeCompare hrej
    rw [reduceTransportQueueEvent, hr]
    exact ⟨hh.queueEpoch, hh.pendingMessageVersion, hh.pendingMessageEntries,
      hh.failedMessageEntries⟩
  cases he with
  | @fallback y hy =>
    exact hstay (rejected_of_foreign hb (hx.ne_of_isFallback hy) hy.2.2.2.2.2.2)
  | @snapshot y hy he ha hr hle hsame =>
    by_cases happ : canApplySnapshot state y.header = none
    · -- only a snapshot with the same version is applied
      have hv : y.pendingMessageVersion = x.pendingMessageVersion := by
        rcases (canApplySnapshot_eq_none_iff.1 happ).2.2 _ hb with hc | hc
        · exact Nat.le_antisymm hle (hnx ▸ hc.2.2)
        · exact absurd he hc.1
      obtain ⟨hp, hf⟩ := hsame hv
      have hwf : y.WellFormed := by
        obtain ⟨h₁, h₂, h₃, h₄⟩ := hx.wellFormed
        exact ⟨by rwa [hp], by rwa [hf], by rwa [hp], by rwa [hf]⟩
      have hgone : ∀ id, tombstoneKey y.queueEpoch id ∈ state.deliveredTombstones →
          ¬ y.Lists id := by
        intro id hid
        rw [QueueSnapshot.Lists, hp, hf]
        exact h.tombstones id (he ▸ hid)
      obtain ⟨h₁, h₂, h₃, h₄⟩ := holds_of_applied localeCompare hwf happ hgone
      exact ⟨h₁.trans (by rw [he]), h₂.trans (by rw [hv]), h₃.trans hp, h₄.trans hf⟩
    · exact hstay happ
  | @delivery d he ha hle hl =>
    obtain ⟨hp, hf⟩ := filter_ne_of_not_lists hl
    simp only [reduceTransportQueueEvent, applyDelivery, hb, he, ha, ne_eq, not_true_eq_false,
      or_self, if_false]
    refine ⟨hh.queueEpoch, ?_, ?_, ?_⟩
    · rw [hnx, Nat.max_eq_left hle]
    · simp only [hh.pendingMessageEntries]
      exact hp
    · simp only [hh.failedMessageEntries]
      exact hf

/-! ## All events received -/

def QueueEvent.snapshot? : QueueEvent → Option QueueSnapshot
  | .snapshot x => some x
  | _ => none

/-- The first snapshot that is received. -/
def firstSnapshot (events : List QueueEvent) : Option QueueSnapshot :=
  events.findSome? QueueEvent.snapshot?

theorem firstSnapshot_snoc (events : List QueueEvent) (e : QueueEvent) :
    firstSnapshot (events ++ [e]) = (firstSnapshot events).or e.snapshot? := by
  rw [firstSnapshot, List.findSome?_append]
  cases h : e.snapshot? <;> simp [firstSnapshot, h]

theorem not_mem_of_firstSnapshot_none {events : List QueueEvent} (h : firstSnapshot events = none) :
    .snapshot x ∉ events := by
  intro hx
  have := List.findSome?_eq_none_iff.1 h _ hx
  cases this

/-- The first snapshot is applied. -/
theorem TransportQueueReducerState.Fresh.applied (h : state.Fresh) (he : y.queueEpoch ≠ "")
    (ha : y.queueAuthorityId ≠ "") : canApplySnapshot state y.header = none :=
  canApplySnapshot_eq_none_iff.2 ⟨he, ha, fun b hb => by rw [h.hasBaseline] at hb; cases hb⟩

/-- The newest snapshot is applied by a consumer that follows the session. -/
theorem TransportQueueReducerState.Following.applied (h : state.Following x) (hx : x.Genuine) :
    canApplySnapshot state x.header = none := by
  obtain ⟨n, hn, hb⟩ := h.baseline
  refine canApplySnapshot_eq_none_iff.2 ⟨(ne_unavailable_of_length hx.epoch).2,
    (ne_unavailable_of_length hx.authority).2, fun b hb' => Or.inl ?_⟩
  rw [hb] at hb'
  cases hb'
  exact ⟨rfl, rfl, hn⟩

/-- The first event a consumer receives. -/
theorem TransportQueueReducerState.Fresh.step (h : state.Fresh) (hx : x.Genuine)
    (he : UpTo x e) :
    let state' := reduceTransportQueueEvent localeCompare state e
    (e.snapshot? = none ∧ state'.Fresh) ∨
      (∃ y, e.snapshot? = some y ∧ y.IsFallback ∧ state'.Poisoned) ∨
      (∃ y, e.snapshot? = some y ∧ ¬ y.IsFallback ∧ state'.Following x ∧
        (e = .snapshot x → state'.Holds x)) := by
  intro state'
  cases he with
  | @fallback y hy =>
    refine Or.inr (Or.inl ⟨y, rfl, hy, ?_⟩)
    obtain ⟨he, ha, hv, hp, hf, -⟩ := hy
    have happ := h.applied (y := y) (by rw [he]; decide) (by rw [ha]; decide)
    refine ⟨(hasBaseline_of_applied localeCompare happ).trans ?_, ?_, ?_⟩
    · rw [QueueSnapshot.baseline, he, ha, hv]
    · simp only [state', reduceTransportQueueEvent, applySnapshot, happ, hp, List.filter_nil]
      rfl
    · simp only [state', reduceTransportQueueEvent, applySnapshot, happ, hf, List.filter_nil]
      rfl
  | @snapshot y hy he ha hr hle hsame =>
    have hepoch := (ne_unavailable_of_length hx.epoch).2
    have hauthority := (ne_unavailable_of_length hx.authority).2
    have happ := h.applied (y := y) (by rwa [he]) (by rwa [ha])
    have hgone : ∀ k ∉ ([] : List String), k ∉ state.deliveredTombstones := by
      intro k hk
      rwa [h.deliveredTombstones]
    refine Or.inr (Or.inr ⟨y, rfl, hy, ⟨⟨_, hle, (hasBaseline_of_applied localeCompare happ).trans ?_⟩, ?_⟩, ?_⟩)
    · rw [QueueSnapshot.baseline, he, ha]
    · intro id hid
      exact absurd (mem_tombstones_of_applySnapshot hid) (hgone _ (List.not_mem_nil))
    · intro hyx
      cases hyx
      exact holds_of_applied localeCompare hx.wellFormed happ fun id hid =>
        absurd hid (hgone _ (List.not_mem_nil))
  | @delivery d he ha hle hl =>
    refine Or.inl ⟨rfl, ?_⟩
    simp only [state', reduceTransportQueueEvent, applyDelivery, h.hasBaseline]
    exact ⟨h.queueEpoch, h.deliveredTombstones⟩

/-- **The three states of a consumer.** -/
theorem consumer_of_upTo (localeCompare : Collation) (hx : x.Genuine) {events : List QueueEvent}
    (hevents : ∀ e ∈ events, UpTo x e) (name : Option String) :
    let state := reduceEvents localeCompare (createTransportQueueReducerState name) events
    (firstSnapshot events = none ∧ state.Fresh) ∨
      (∃ y, firstSnapshot events = some y ∧ y.IsFallback ∧ state.Poisoned) ∨
      (∃ y, firstSnapshot events = some y ∧ ¬ y.IsFallback ∧ state.Following x ∧
        (.snapshot x ∈ events → state.Holds x)) := by
  induction events using List.reverseRecOn with
  | nil => exact Or.inl ⟨rfl, rfl, rfl⟩
  | append_singleton events e ih =>
    have hnew := hevents e (by simp)
    simp only [reduceEvents_snoc, firstSnapshot_snoc]
    rcases ih fun e he => hevents e (List.mem_append_left _ he) with
      ⟨hfirst, h⟩ | ⟨y, hfirst, hy, h⟩ | ⟨y, hfirst, hy, h, hholds⟩
    · rw [hfirst, Option.none_or]
      refine (h.step hx hnew).imp id (Or.imp id ?_)
      rintro ⟨y, hey, hy, hfollowing, hholds⟩
      refine ⟨y, hey, hy, hfollowing, fun hmem => hholds ?_⟩
      rcases List.mem_append.1 hmem with hmem | hmem
      · exact absurd hmem (not_mem_of_firstSnapshot_none hfirst)
      · exact (List.mem_singleton.1 hmem).symm
    · rw [hfirst]
      exact Or.inr (Or.inl ⟨y, rfl, hy, h.step hx hnew⟩)
    · rw [hfirst]
      refine Or.inr (Or.inr ⟨y, rfl, hy, h.step hx hnew, fun hmem => ?_⟩)
      by_cases hold : .snapshot x ∈ events
      · exact (hholds hold).step h hx hnew
      · -- the newest snapshot arrives
        have hex : e = .snapshot x :=
          (List.mem_singleton.1 ((List.mem_append.1 hmem).resolve_left hold)).symm
        subst hex
        exact holds_of_applied localeCompare hx.wellFormed (h.applied hx) h.tombstones

end Consumer

/-! ## Runs without a reset -/

section Runs

variable {localeCompare : Collation} {fault : Nat → Option (Fault StoreError)}
  {as : List QueueAction} {s : SessionName} {x : QueueSnapshot}

/-- The session the event names. -/
def QueueEvent.sessionName : QueueEvent → String
  | .snapshot x => x.sessionName
  | .delivery d => d.sessionName
  | .receipt r => r.sessionName
  | .failure f => f.sessionName
  | .reset r => r.sessionName

/-- The snapshots of a session, fallbacks apart, are genuine. -/
theorem genuine_of_mem_eventsOf (hx : .snapshot x ∈ eventsOf localeCompare fault as)
    (hs : x.sessionName = s.name) (hxf : ¬ x.IsFallback) : x.Genuine := by
  have hrec := (snapshot_recorded localeCompare fault as s hx hs).resolve_left hxf
  exact ⟨hrec.epoch, hrec.authority, wellFormed_of_mem_eventsOf hx⟩

/-- In a run without a reset, two events that show the session have one epoch
and one authority. -/
theorem same_epoch_of_mem_eventsOf (hreset : NoReset as s) {e e' : QueueEvent}
    (he : e ∈ eventsOf localeCompare fault as) (he' : e' ∈ eventsOf localeCompare fault as)
    {t t' : EventStamp} (ht : Stamped e t) (ht' : Stamped e' t') (hs : t.sessionName = s.name)
    (hs' : t'.sessionName = s.name) :
    t.queueEpoch = t'.queueEpoch ∧ t.queueAuthorityId = t'.queueAuthorityId := by
  obtain ⟨m, hm, h₁, h₂, -⟩ := stamp_of_mem_eventsOf hreset he ht hs
  obtain ⟨m', hm', h₁', h₂', -⟩ := stamp_of_mem_eventsOf hreset he' ht' hs'
  rw [hm] at hm'
  cases hm'
  exact ⟨h₁.trans h₁'.symm, h₂.trans h₂'.symm⟩

/-- A snapshot that is no newer than `x` may be received beside it. -/
theorem upTo_of_snapshot (hreset : NoReset as s) (hx : .snapshot x ∈ eventsOf localeCompare fault as)
    (hxs : x.sessionName = s.name) (hxf : ¬ x.IsFallback) {y : QueueSnapshot}
    (hy : .snapshot y ∈ eventsOf localeCompare fault as) (hys : y.sessionName = s.name)
    (hle : ¬ y.IsFallback → y.pendingMessageVersion ≤ x.pendingMessageVersion) :
    UpTo x (.snapshot y) := by
  by_cases hyf : y.IsFallback
  · exact .fallback hyf
  · obtain ⟨he, ha⟩ :=
      same_epoch_of_mem_eventsOf hreset hy hx (.snapshot hyf) (.snapshot hxf) hys hxs
    exact .snapshot hyf he ha (resetReason_of_mem_eventsOf hreset hy hys) (hle hyf)
      fun hv => sameLists_of_version_eq hy hx hys hxs he hv

/-- The events of a session may be received beside its newest snapshot. -/
theorem upTo_of_newest (hreset : NoReset as s) (hagain : NotEnqueuedAgain localeCompare fault as s)
    (hx : .snapshot x ∈ eventsOf localeCompare fault as) (hxs : x.sessionName = s.name)
    (hxf : ¬ x.IsFallback)
    (hnewest : ∀ y, .snapshot y ∈ eventsOf localeCompare fault as → y.sessionName = s.name →
      ¬ y.IsFallback → y.pendingMessageVersion ≤ x.pendingMessageVersion) {e : QueueEvent}
    (he : e ∈ eventsOf localeCompare fault as) (hes : e.sessionName = s.name) : UpTo x e := by
  obtain ⟨pre, a, post, -, hea, -⟩ := exists_of_mem_eventsOf he
  obtain ⟨s', h⟩ := (next_spec localeCompare fault pre a).events _ hea
  cases h with
  | degraded source err => exact .fallback ⟨rfl, rfl, rfl, rfl, rfl, rfl, rfl⟩
  | snapshot h _ => exact upTo_of_snapshot hreset hx hxs hxf he hes (hnewest _ he hes)
  | @delivery m frame id y hm hgone hy hshows =>
    obtain ⟨hepoch, hauthority⟩ :=
      same_epoch_of_mem_eventsOf hreset he hx (.delivery _) (.snapshot hxf) hes hxs
    obtain ⟨z, hz, hzf, hzs, hzv⟩ := exists_snapshot_of_delivery he
    have hle : (deliveryFact s' m.version frame id).pendingMessageVersion ≤
        x.pendingMessageVersion := hzv ▸ hnewest z hz (hzs.trans hes) hzf
    exact .delivery hepoch hauthority hle
      (not_listed_of_delivered hagain hx hxf hxs he hes hle)

/-! ### A run with a failed read -/

/-- A read, a message, another read, and the delivery of the message. -/
def readRun : List QueueAction :=
  [.readSnapshotSafely "deck" "read" (exampleEnv 0),
    .mutate (.enqueue (exampleInput "m")) (exampleEnv 0),
    .readSnapshot "deck" "read" (exampleEnv 0),
    .mutate (.finalizeSentBatch "deck" ["m"] "frame") (exampleEnv 0)]

/-- The fallback, when the first read fails. -/
def failedRead : QueueSnapshot :=
  degradedSnapshot exampleSession "read" (.ofMessage "disk I/O error")

/-- The snapshot of the second read. -/
def queuedRead : QueueSnapshot where
  sessionName := "deck"
  queueEpoch := (exampleEnv 0).queueEpoch.text
  queueAuthorityId := (exampleEnv 0).queueAuthorityId.text
  pendingMessageVersion := 1
  pendingMessageEntries :=
    [{ clientMessageId := "m", text := "hello", status := .queued, placement := .normal
       ordinal := 0, createdAt := 1000, updatedAt := 1000 }]
  failedMessageEntries := []
  source := "read"

/-- The snapshot of the delivery. -/
def sentSnapshot : QueueSnapshot :=
  { queuedRead with
    pendingMessageVersion := 2
    pendingMessageEntries := []
    source := "finalize_sent" }

theorem noReset_readRun : NoReset readRun exampleSession := by
  intro a ha op env h
  simp only [readRun, List.mem_cons, List.not_mem_nil, or_false] at ha
  rcases ha with rfl | rfl | rfl | rfl
  · cases h
  · cases h
    exact SessionOp.noConfusion
  · cases h
  · cases h
    exact SessionOp.noConfusion

theorem notEnqueuedAgain_readRun
    (h : ∀ e ∈ eventsOf localeCompare fault [.readSnapshotSafely "deck" "read" (exampleEnv 0)],
      e.snapshot?.isSome) :
    NotEnqueuedAgain localeCompare fault readRun exampleSession := by
  intro pre a post input evict env has htarget d hd hs
  match pre, has with
  | [], has => cases has; cases htarget
  | [_], has =>
    cases has
    cases h _ hd
  | [_, _], has => cases has; cases htarget
  | [_, _, _], has => cases has; cases htarget
  | _ :: _ :: _ :: _ :: pre, has => simp [readRun] at has

/-- **Convergence.**  In a run without a reset that enqueues no delivered
message again, a consumer that has received the newest snapshot shows it,
whatever else it has received in whatever order, exactly when its first
snapshot was not a degraded one (or the newest snapshot is the empty one of
version 0). -/
theorem converges_iff (localeCompare : Collation) (fault : Nat → Option (Fault StoreError))
    (as : List QueueAction) (s : SessionName) (x : QueueSnapshot) (received : List QueueEvent)
    (name : Option String) (hreset : NoReset as s)
    (hagain : NotEnqueuedAgain localeCompare fault as s)
    (hx : .snapshot x ∈ eventsOf localeCompare fault as) (hxs : x.sessionName = s.name)
    (hxd : x.degraded = false)
    (hnewest : ∀ y, .snapshot y ∈ eventsOf localeCompare fault as → y.sessionName = s.name →
      y.degraded = false → y.pendingMessageVersion ≤ x.pendingMessageVersion)
    (hreceived : ∀ e ∈ received, e ∈ eventsOf localeCompare fault as ∧ e.sessionName = s.name)
    (hmem : .snapshot x ∈ received) :
    let state := reduceEvents localeCompare (createTransportQueueReducerState name) received
    (state.pendingMessageVersion = some x.pendingMessageVersion ∧
        state.pendingMessageEntries = x.pendingMessageEntries ∧
        state.failedMessageEntries = x.failedMessageEntries) ↔
      (∀ y, firstSnapshot received = some y → y.degraded = false) ∨
        x.pendingMessageVersion = 0 := by
  intro state
  have hdegraded {y : QueueSnapshot} (hy : .snapshot y ∈ eventsOf localeCompare fault as)
      (hys : y.sessionName = s.name) : y.degraded = false ↔ ¬ y.IsFallback := by
    rw [← degraded_iff_isFallback hy hys, Bool.not_eq_true]
  have hxf := (hdegraded hx hxs).1 hxd
  have hgenuine := genuine_of_mem_eventsOf hx hxs hxf
  have hupTo : ∀ e ∈ received, UpTo x e := fun e he =>
    upTo_of_newest hreset hagain hx hxs hxf
      (fun y hy hys hyf => hnewest y hy hys ((hdegraded hy hys).2 hyf))
      (hreceived e he).1 (hreceived e he).2
  rcases consumer_of_upTo localeCompare hgenuine hupTo name with
    ⟨hfirst, -⟩ | ⟨y, hfirst, hy, h⟩ | ⟨y, hfirst, hy, -, hholds⟩
  · exact absurd hmem (not_mem_of_firstSnapshot_none hfirst)
  · -- the consumer is poisoned
    have hv := (hasBaseline_eq_some.1 h.baseline).2.2.2.2
    constructor
    · rintro ⟨hxv, -⟩
      rw [hv] at hxv
      exact Or.inr (Option.some.inj hxv).symm
    · rintro (hd | hxv)
      · have hyd := hd y hfirst
        rw [hy.2.2.2.2.2.1] at hyd
        cases hyd
      · obtain ⟨hp, hf⟩ := lists_of_version_zero hx hxv
        refine ⟨?_, ?_, ?_⟩
        · rw [hxv]
          exact hv
        · rw [hp]
          exact h.pendingMessageEntries
        · rw [hf]
          exact h.failedMessageEntries
  · have hh := hholds hmem
    refine ⟨fun _ => Or.inl fun y' hy' => ?_, fun _ => ⟨hh.pendingMessageVersion,
      hh.pendingMessageEntries, hh.failedMessageEntries⟩⟩
    rw [hfirst] at hy'
    cases hy'
    obtain ⟨e, he, hey⟩ := List.exists_of_findSome?_eq_some hfirst
    cases e with
    | snapshot z =>
      cases hey
      exact (hdegraded (hreceived _ he).1 (hreceived _ he).2).2 hy
    | _ => cases hey

theorem converges_iff_readRun :
    let state := reduceEvents (fun _ _ => 0) (createTransportQueueReducerState none)
      [.snapshot queuedRead, .snapshot sentSnapshot, .snapshot queuedRead]
    state.pendingMessageVersion = some 2 ∧ state.pendingMessageEntries = [] ∧
      state.failedMessageEntries = [] := by
  refine (converges_iff (fun _ _ => 0) (fun _ => none) readRun exampleSession sentSnapshot
    [.snapshot queuedRead, .snapshot sentSnapshot, .snapshot queuedRead] none noReset_readRun
    (notEnqueuedAgain_readRun (by decide)) (by decide) rfl rfl ?_ (by decide) (by decide)).2
    (Or.inl fun y hy => ?_)
  · intro y hy _ _
    have h : ∀ y ∈ (eventsOf (fun _ _ => 0) (fun _ => none) readRun).filterMap QueueEvent.snapshot?,
        y.pendingMessageVersion ≤ sentSnapshot.pendingMessageVersion := by decide
    exact h y (List.mem_filterMap.2 ⟨_, hy, rfl⟩)
  · cases hy
    rfl

/-- **The consumer does not always converge**: one whose first snapshot is the
fallback of a failed read stays with it. -/
theorem not_converges :
    ¬ ∀ (localeCompare : Collation) (fault : Nat → Option (Fault StoreError))
      (as : List QueueAction) (s : SessionName) (x : QueueSnapshot) (received : List QueueEvent)
      (name : Option String),
      NoReset as s → NotEnqueuedAgain localeCompare fault as s →
      .snapshot x ∈ eventsOf localeCompare fault as → x.sessionName = s.name →
      x.degraded = false →
      (∀ y, .snapshot y ∈ eventsOf localeCompare fault as → y.sessionName = s.name →
        y.degraded = false → y.pendingMessageVersion ≤ x.pendingMessageVersion) →
      (∀ e ∈ received, e ∈ eventsOf localeCompare fault as ∧ e.sessionName = s.name) →
      .snapshot x ∈ received →
      (reduceEvents localeCompare (createTransportQueueReducerState name)
        received).pendingMessageVersion = some x.pendingMessageVersion := by
  intro h
  have hnewest (y : QueueSnapshot) (hy : .snapshot y ∈ eventsOf (fun _ _ => 0) (failAt 0) readRun) :
      y.pendingMessageVersion ≤ sentSnapshot.pendingMessageVersion := by
    have h : ∀ y ∈ (eventsOf (fun _ _ => 0) (failAt 0) readRun).filterMap QueueEvent.snapshot?,
        y.pendingMessageVersion ≤ sentSnapshot.pendingMessageVersion := by decide
    exact h y (List.mem_filterMap.2 ⟨_, hy, rfl⟩)
  have hstuck := h (fun _ _ => 0) (failAt 0) readRun exampleSession sentSnapshot
    [.snapshot failedRead, .snapshot sentSnapshot] none noReset_readRun
    (notEnqueuedAgain_readRun (by decide)) (by decide) rfl rfl (fun y hy _ _ => hnewest y hy)
    (by decide) (by decide)
  exact absurd hstuck (by decide)

/-- **A degraded read blocks later updates exactly when it comes first.**  In a
run without a reset, a consumer that receives some of the snapshots in the order
of the run shows, after each one that is not degraded, exactly that one. -/
theorem degraded_read_blocks_iff (localeCompare : Collation)
    (fault : Nat → Option (Fault StoreError)) (as : List QueueAction) (s : SessionName)
    (read : List QueueSnapshot) (name : Option String) (hreset : NoReset as s)
    (hread : (read.map QueueEvent.snapshot).Sublist (eventsOf localeCompare fault as))
    (hs : ∀ y ∈ read, y.sessionName = s.name) :
    (∀ before y after, read = before ++ y :: after → y.degraded = false →
        (reduceEvents localeCompare (createTransportQueueReducerState name)
          ((before ++ [y]).map QueueEvent.snapshot)).Holds y) ↔
      ((∃ y ∈ read, y.degraded = false) → ∀ y, read.head? = some y → y.degraded = false) := by
  have hmem {y : QueueSnapshot} (hy : y ∈ read) : .snapshot y ∈ eventsOf localeCompare fault as :=
    hread.subset (List.mem_map_of_mem hy)
  have hdegraded {y : QueueSnapshot} (hy : y ∈ read) : y.degraded = false ↔ ¬ y.IsFallback := by
    rw [← degraded_iff_isFallback (hmem hy) (hs y hy), Bool.not_eq_true]
  -- after a snapshot that is not degraded
  have hconsumer (before : List QueueSnapshot) (y : QueueSnapshot) (after : List QueueSnapshot)
      (hsplit : read = before ++ y :: after) (hyd : y.degraded = false) :
      y.Genuine ∧ ∀ e ∈ (before ++ [y]).map QueueEvent.snapshot, UpTo y e := by
    have hy : y ∈ read := by simp [hsplit]
    have hyf := (hdegraded hy).1 hyd
    refine ⟨genuine_of_mem_eventsOf (hmem hy) (hs y hy) hyf, fun e he => ?_⟩
    obtain ⟨z, hz, rfl⟩ := List.mem_map.1 he
    have hzr : z ∈ read := by
      rw [hsplit]
      rcases List.mem_append.1 hz with hz | hz
      · exact List.mem_append_left _ hz
      · exact List.mem_append_right _ (List.mem_cons.2 (Or.inl (List.mem_singleton.1 hz)))
    refine upTo_of_snapshot hreset (hmem hy) (hs y hy) hyf (hmem hzr) (hs z hzr) fun hzf => ?_
    rcases List.mem_append.1 hz with hz | hz
    · have hpair := (stamps_pairwise (s := s) hreset).sublist hread
      rw [hsplit, List.map_append, List.map_cons] at hpair
      exact (List.pairwise_append.1 hpair).2.2 _ (List.mem_map_of_mem hz) _ (List.mem_cons_self ..)
        _ _ (.snapshot hzf) (.snapshot hyf) (hs z hzr) (hs y hy)
    · rw [List.mem_singleton.1 hz]
  have hfirst (before : List QueueSnapshot) (y : QueueSnapshot) (after : List QueueSnapshot) :
      firstSnapshot ((before ++ [y]).map QueueEvent.snapshot) =
        (before ++ y :: after).head? := by
    cases before <;> rfl
  constructor
  · rintro hholds ⟨y, hy, hyd⟩ z hz
    obtain ⟨before, after, hsplit⟩ := List.append_of_mem hy
    obtain ⟨hgenuine, hupTo⟩ := hconsumer before y after hsplit hyd
    rw [hsplit, ← hfirst before y after] at hz
    have hzr : z ∈ read := by
      rw [hfirst, ← hsplit] at hz
      exact List.mem_of_mem_head? hz
    rw [hdegraded hzr]
    rcases consumer_of_upTo localeCompare hgenuine hupTo name with
      ⟨hnone, -⟩ | ⟨z', hz', hzf, h⟩ | ⟨z', hz', hzf, -⟩
    · rw [hnone] at hz
      cases hz
    · have he := (hholds before y after hsplit hyd).queueEpoch
      rw [(hasBaseline_eq_some.1 h.baseline).1] at he
      exact absurd (Option.some.inj he).symm (ne_unavailable_of_length hgenuine.epoch).1
    · rw [hz] at hz'
      cases hz'
      exact hzf
  · intro hhead before y after hsplit hyd
    obtain ⟨hgenuine, hupTo⟩ := hconsumer before y after hsplit hyd
    have hy : y ∈ read := by simp [hsplit]
    rcases consumer_of_upTo localeCompare hgenuine hupTo name with
      ⟨hnone, -⟩ | ⟨z, hz, hzf, -⟩ | ⟨z, hz, hzf, -, hholds⟩
    · exact absurd (by simp) (not_mem_of_firstSnapshot_none (x := y) hnone)
    · rw [hfirst before y after, ← hsplit] at hz
      have hzd := hhead ⟨y, hy, hyd⟩ z hz
      rw [hzf.2.2.2.2.2.1] at hzd
      cases hzd
    · exact hholds (by simp)

theorem degraded_read_blocks_iff_readRun :
    (reduceEvents (fun _ _ => 0) (createTransportQueueReducerState none)
      [.snapshot queuedRead, .snapshot sentSnapshot]).Holds sentSnapshot :=
  (degraded_read_blocks_iff (fun _ _ => 0) (fun _ => none) readRun exampleSession
    [queuedRead, sentSnapshot] none noReset_readRun (by decide) (by decide)).2
    (fun _ y hy => by cases hy; rfl) [queuedRead] sentSnapshot [] rfl rfl

/-- **A degraded read can block later updates**: one that a consumer receives
first does. -/
theorem degraded_read_blocks :
    ¬ ∀ (localeCompare : Collation) (fault : Nat → Option (Fault StoreError))
      (as : List QueueAction) (s : SessionName) (read : List QueueSnapshot) (name : Option String),
      NoReset as s → (read.map QueueEvent.snapshot).Sublist (eventsOf localeCompare fault as) →
      (∀ y ∈ read, y.sessionName = s.name) →
      ∀ before y after, read = before ++ y :: after → y.degraded = false →
        (reduceEvents localeCompare (createTransportQueueReducerState name)
          ((before ++ [y]).map QueueEvent.snapshot)).Holds y := by
  intro h
  have hstuck := h (fun _ _ => 0) (failAt 0) readRun exampleSession [failedRead, queuedRead] none
    noReset_readRun (by decide) (by decide) [failedRead] queuedRead [] rfl rfl
  exact absurd hstuck.pendingMessageVersion (by decide)

end Runs

end Imcodes.Queue
