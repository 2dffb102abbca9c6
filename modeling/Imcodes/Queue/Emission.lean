import Imcodes.Queue.Listing

/-!
# What the events of a run have in common

A snapshot or a delivery names a session, an epoch, an authority and a version:
its *stamp*.  Read failures apart, the stamp is the one the session had when the
event was emitted.

* `stamp_of_mem_eventsOf` — in a run without a reset, all events of a session
  have one epoch and one authority, and versions up to the session's own.
* `stamps_pairwise` — events are emitted in the order of their versions.
* `not_listed_of_delivered` — a message that was delivered, and not enqueued
  again, is in no snapshot with the version of the delivery or a later one.
* `epochs_apart` — with resets and fresh ids, the versions of two epochs lie
  apart.
-/

namespace Imcodes.Queue

open Relational

/-! ## Stamps -/

/-- The session and the state of its queue that an event is about. -/
structure EventStamp where
  sessionName : String
  queueEpoch : String
  queueAuthorityId : String
  pendingMessageVersion : Nat
deriving DecidableEq

def QueueSnapshot.stamp (x : QueueSnapshot) : EventStamp :=
  ⟨x.sessionName, x.queueEpoch, x.queueAuthorityId, x.pendingMessageVersion⟩

def QueueDeliveryFact.stamp (d : QueueDeliveryFact) : EventStamp :=
  ⟨d.sessionName, d.queueEpoch, d.queueAuthorityId, d.pendingMessageVersion⟩

def MetaRow.stamp (s : SessionName) (m : MetaRow) : EventStamp :=
  ⟨s.name, m.queueEpoch.text, m.queueAuthorityId.text, m.pendingMessageVersion⟩

/-- An event that shows a state of its queue, and its stamp. -/
inductive Stamped : QueueEvent → EventStamp → Prop
  | snapshot {x : QueueSnapshot} (h : ¬ x.IsFallback) : Stamped (.snapshot x) x.stamp
  | delivery (d : QueueDeliveryFact) : Stamped (.delivery d) d.stamp

/-- The fallback has the name of no epoch. -/
theorem SessionState.Shows.not_isFallback {localeCompare : Collation} {s : SessionName}
    {v : SessionState} {x : QueueSnapshot} (h : v.Shows localeCompare s x) : ¬ x.IsFallback := by
  obtain ⟨m, source, why, hm, rfl⟩ := h
  intro hf
  have := m.queueEpoch.length
  rw [show m.queueEpoch.text = "unavailable" from hf.1] at this
  exact absurd this (by decide)

section Step

variable {localeCompare : Collation} {a : QueueAction} {c : StoreConn} {s : SessionName}

/-- What a call emits has the stamp the session has after the call. -/
theorem ActionSpec.stamp {p : List QueueEvent × StoreConn} (ha : ActionSpec localeCompare a c p)
    {e : QueueEvent} (he : e ∈ p.1) {t : EventStamp} (ht : Stamped e t)
    (hs : t.sessionName = s.name) :
    ∃ m, (p.2.data.session s).metaRow = some m ∧ t = m.stamp s := by
  obtain ⟨s', h⟩ := ha.events e he
  cases h with
  | degraded source err =>
    cases ht with
    | snapshot h => exact absurd ⟨rfl, rfl, rfl, rfl, rfl, rfl, rfl⟩ h
  | snapshot h =>
    cases ht with
    | snapshot _ =>
      have hss : s' = s := SessionName.ext (h.content.1.symm.trans hs)
      subst hss
      obtain ⟨m, source, why, hm, rfl⟩ := h
      exact ⟨m, hm, rfl⟩
  | @delivery m _ _ _ hm hgone hx hshows =>
    cases ht
    have hss : s' = s := SessionName.ext hs
    subst hss
    exact ⟨m, hm, rfl⟩

/-- Without a reset, a row of `queue_meta` keeps its epoch and authority. -/
theorem SessionStep.meta_of_ne_reset {c' : StoreConn} (h : SessionStep a s c c')
    (hreset : ∀ op env, a.target = some (s, op, env) → op ≠ .reset) {m : MetaRow}
    (hm : (c.data.session s).metaRow = some m) :
    ∃ m', (c'.data.session s).metaRow = some m' ∧ m'.queueEpoch = m.queueEpoch ∧
      m'.queueAuthorityId = m.queueAuthorityId ∧
      m.pendingMessageVersion ≤ m'.pendingMessageVersion := by
  have hle := h.version_le
  cases h with
  | quiet h _ =>
    have heq : c'.data.session s = c.data.session s := by
      rcases h with h | ⟨env, -, now, h⟩
      · exact h
      · rw [h, SessionState.ensured_of_isSome (by rw [hm]; rfl)]
    exact ⟨m, by rw [heq, hm], rfl, rfl, le_rfl⟩
  | @committed op env htarget _ _ h =>
    obtain ⟨m', hm', he, hau⟩ := SessionOp.epoch_apply (s := s) (v := c.data.session s)
      (hreset op env htarget)
    have hd (now : Int) : (c.data.session s).metaD env s now = m := by
      rw [SessionState.metaD, hm, Option.getD_some]
    rw [h] at hle ⊢
    rw [hd] at he hau
    refine ⟨m', hm', he, hau, ?_⟩
    simpa only [SessionState.version, hm, hm', Option.elim_some] using hle

end Step

/-! ## Runs without a reset -/

section Runs

variable {localeCompare : Collation} {fault : Nat → Option (Fault StoreError)}
  {as : List QueueAction} {s : SessionName}

/-- No call of the run resets the session. -/
def NoReset (as : List QueueAction) (s : SessionName) : Prop :=
  ∀ a ∈ as, ∀ op env, a.target = some (s, op, env) → op ≠ .reset

theorem NoReset.of_append {bs : List QueueAction} (h : NoReset (as ++ bs) s) : NoReset as s :=
  fun a ha => h a (List.mem_append_left _ ha)

/-- **One epoch, one authority.**  In a run without a reset, all events of a
session have the epoch and the authority of its row, and at most its version. -/
theorem stamp_of_mem_eventsOf (hreset : NoReset as s) {e : QueueEvent}
    (he : e ∈ eventsOf localeCompare fault as) {t : EventStamp} (ht : Stamped e t)
    (hs : t.sessionName = s.name) :
    ∃ m, ((connAfter localeCompare fault as).data.session s).metaRow = some m ∧
      t.queueEpoch = m.queueEpoch.text ∧ t.queueAuthorityId = m.queueAuthorityId.text ∧
      t.pendingMessageVersion ≤ m.pendingMessageVersion := by
  induction as using List.reverseRecOn with
  | nil => cases he
  | append_singleton as a ih =>
    rw [eventsOf_snoc] at he
    rw [connAfter_snoc]
    rcases List.mem_append.1 he with he | he
    · obtain ⟨m, hm, h₁, h₂, h₃⟩ := ih hreset.of_append he
      obtain ⟨m', hm', h₁', h₂', h₃'⟩ := ((next_spec localeCompare fault as a).session s).meta_of_ne_reset
        (hreset a (by simp)) hm
      exact ⟨m', hm', by rw [h₁, h₁'], by rw [h₂, h₂'], h₃.trans h₃'⟩
    · obtain ⟨m, hm, rfl⟩ := (next_spec localeCompare fault as a).stamp he ht hs
      exact ⟨m, hm, rfl, rfl, le_rfl⟩

/-- A snapshot says `degraded` when it is the fallback. -/
theorem degraded_iff_isFallback {x : QueueSnapshot}
    (hx : .snapshot x ∈ eventsOf localeCompare fault as) (hs : x.sessionName = s.name) :
    x.degraded = true ↔ x.IsFallback := by
  refine ⟨fun h => ?_, fun h => h.2.2.2.2.2.1⟩
  refine (snapshot_recorded localeCompare fault as s hx hs).resolve_right fun hrec => ?_
  rw [hrec.degraded] at h
  cases h

/-- Without a reset, no snapshot gives a reason for one. -/
theorem resetReason_of_mem_eventsOf (hreset : NoReset as s) {x : QueueSnapshot}
    (hx : .snapshot x ∈ eventsOf localeCompare fault as) (hs : x.sessionName = s.name) :
    x.resetReason = none := by
  obtain ⟨pre, a, post, has, hxa, -⟩ := exists_of_mem_eventsOf hx
  obtain ⟨s', h⟩ := (next_spec localeCompare fault pre a).events _ hxa
  cases h with
  | degraded source err => rfl
  | snapshot h hwhy =>
    have hss : s' = s := SessionName.ext (h.content.1.symm.trans hs)
    subst hss
    by_contra hne
    obtain ⟨⟨s₁, op, env⟩, htarget, hop⟩ :=
      Option.map_eq_some_iff.1 (hwhy (Option.isSome_iff_ne_none.2 hne))
    cases hop
    exact hreset a (by simp [has]) _ env htarget rfl

/-- **Events are emitted in the order of their versions.** -/
theorem stamps_pairwise (hreset : NoReset as s) :
    (eventsOf localeCompare fault as).Pairwise fun e e' => ∀ t t', Stamped e t → Stamped e' t' →
      t.sessionName = s.name → t'.sessionName = s.name →
      t.pendingMessageVersion ≤ t'.pendingMessageVersion := by
  induction as using List.reverseRecOn with
  | nil => exact List.Pairwise.nil
  | append_singleton as a ih =>
    have ha := next_spec localeCompare fault as a
    rw [eventsOf_snoc]
    refine List.pairwise_append.2 ⟨ih hreset.of_append, ?_, fun e he e' he' t t' ht ht' hs hs' => ?_⟩
    · refine List.Pairwise.imp_of_mem (R := fun _ _ => True) ?_
        (List.pairwise_of_forall fun _ _ => trivial)
      intro e e' he he' _ t t' ht ht' hs hs'
      obtain ⟨m, hm, rfl⟩ := ha.stamp he ht hs
      obtain ⟨m', hm', rfl⟩ := ha.stamp he' ht' hs'
      rw [hm] at hm'
      cases hm'
      exact le_rfl
    · obtain ⟨m, hm, -, -, hle⟩ := stamp_of_mem_eventsOf hreset.of_append he ht hs
      obtain ⟨m', hm', rfl⟩ := ha.stamp he' ht' hs'
      obtain ⟨m'', hm'', -, -, hle'⟩ := (ha.session s).meta_of_ne_reset (hreset a (by simp)) hm
      rw [hm'] at hm''
      cases hm''
      exact hle.trans hle'

/-! ## Delivered messages -/

/-- No call enqueues a message of the session that has been delivered. -/
def NotEnqueuedAgain (localeCompare : Collation) (fault : Nat → Option (Fault StoreError))
    (as : List QueueAction) (s : SessionName) : Prop :=
  ∀ pre a post input evict env, as = pre ++ a :: post →
    a.target = some (s, .enqueue input evict, env) →
    ∀ d, .delivery d ∈ eventsOf localeCompare fault pre → d.sessionName = s.name →
      d.clientMessageId ≠ (input.messageId env).text

theorem NotEnqueuedAgain.of_append {bs : List QueueAction}
    (h : NotEnqueuedAgain localeCompare fault (as ++ bs) s) :
    NotEnqueuedAgain localeCompare fault as s :=
  fun pre a post input evict env has => h pre a (post ++ bs) input evict env (by simp [has])

/-- A delivery in the answer of a call takes its message out of the queue. -/
theorem gone_of_mem_answer {a : QueueAction} {c : StoreConn} {p : List QueueEvent × StoreConn}
    (ha : ActionSpec localeCompare a c p) {d : QueueDeliveryFact} (hd : .delivery d ∈ p.1)
    (hs : d.sessionName = s.name) :
    ∀ r ∈ (p.2.data.session s).entries, r.clientMessageId.text ≠ d.clientMessageId := by
  obtain ⟨s', h⟩ := ha.events _ hd
  cases h with
  | delivery hm hgone hx hshows =>
    have hss : s' = s := SessionName.ext hs
    subst hss
    exact fun r hr he => hgone r hr (MessageId.ext he)

/-- A delivered message stays out of the queue. -/
theorem gone_connAfter (hagain : NotEnqueuedAgain localeCompare fault as s)
    {d : QueueDeliveryFact} (hd : .delivery d ∈ eventsOf localeCompare fault as)
    (hs : d.sessionName = s.name) :
    ∀ r ∈ ((connAfter localeCompare fault as).data.session s).entries,
      r.clientMessageId.text ≠ d.clientMessageId := by
  induction as using List.reverseRecOn with
  | nil => cases hd
  | append_singleton as a ih =>
    have ha := next_spec localeCompare fault as a
    rw [connAfter_snoc]
    rw [eventsOf_snoc] at hd
    rcases List.mem_append.1 hd with hd | hd
    · have hold := ih hagain.of_append hd
      intro r hr
      cases ha.session s with
      | quiet h _ =>
        rcases h with h | ⟨env, -, now, h⟩
        · exact hold r (by rwa [h] at hr)
        · rw [h] at hr
          exact hold r hr
      | @committed op env htarget _ _ h =>
        rw [h] at hr
        obtain ⟨r₀, hr₀, hl⟩ := SessionOp.lineage_apply hr
        have hid : r₀.clientMessageId = r.clientMessageId := congrArg (·.2.1) hl
        rw [← hid]
        rcases hr₀ with hr₀ | hr₀
        · exact hold r₀ hr₀
        · cases op with
          | enqueue input evict =>
            rw [List.mem_singleton.1 hr₀]
            exact (hagain as a [] input evict env rfl htarget d hd hs).symm
          | _ => cases hr₀
    · exact gone_of_mem_answer ha hd hs

/-- The message is in one of the lists of the snapshot. -/
def QueueSnapshot.Lists (x : QueueSnapshot) (id : String) : Prop :=
  ∃ e ∈ x.pendingMessageEntries ++ x.failedMessageEntries, e.clientMessageId = id

theorem SessionState.Shows.mem_entries {v : SessionState} {x : QueueSnapshot} {id : String}
    (h : v.Shows localeCompare s x) (hv : v.Ordered) (hid : x.Lists id) :
    ∃ r ∈ v.entries, r.clientMessageId.text = id := by
  obtain ⟨m, source, why, hm, rfl⟩ := h
  obtain ⟨e, he, rfl⟩ := hid
  rcases List.mem_append.1 he with he | he
  · exact (mem_projectEntries hv hm he).2
  · exact (mem_projectEntries hv hm he).2

/-- **No snapshot lists a message that has been delivered**, unless it is older
than the delivery. -/
theorem not_listed_of_delivered (hagain : NotEnqueuedAgain localeCompare fault as s)
    {x : QueueSnapshot} {d : QueueDeliveryFact}
    (hx : .snapshot x ∈ eventsOf localeCompare fault as) (hxf : ¬ x.IsFallback)
    (hxs : x.sessionName = s.name) (hd : .delivery d ∈ eventsOf localeCompare fault as)
    (hds : d.sessionName = s.name) (hle : d.pendingMessageVersion ≤ x.pendingMessageVersion) :
    ¬ x.Lists d.clientMessageId := by
  induction as using List.reverseRecOn with
  | nil => cases hd
  | append_singleton as a ih =>
    have ha := next_spec localeCompare fault as a
    have hgone := gone_connAfter hagain hd hds
    have hord := ordered_connAfter localeCompare fault (as ++ [a]) s
    rw [connAfter_snoc] at hgone hord
    -- what shows the state after the call cannot list the message
    have hnew {y : QueueSnapshot} (hy : ((a.run localeCompare
        (connAfter localeCompare fault as)).2.data.session s).Shows localeCompare s y) :
        ¬ y.Lists d.clientMessageId := by
      intro hl
      obtain ⟨r, hr, hrd⟩ := hy.mem_entries hord hl
      exact hgone r hr hrd
    rw [eventsOf_snoc] at hx hd
    rcases List.mem_append.1 hx with hx' | hx'
    · rcases List.mem_append.1 hd with hd' | hd'
      · exact ih hagain.of_append hx' hd'
      · -- an older snapshot with the version of the delivery shows the same state
        obtain ⟨s', h⟩ := ha.events _ hd'
        cases h with
        | @delivery m _ _ y hm hgone' hy hshows =>
          have hss : s' = s := SessionName.ext hds
          subst hss
          have hrec := ((snapshot_recorded localeCompare fault as s' hx' hxs).resolve_left hxf).step
            (ha.session s')
          have hyv := hshows.content.2.2.1
          have hmv : m.pendingMessageVersion = y.pendingMessageVersion := by
            rw [hyv, SessionState.version, hm, Option.elim_some]
          have hxy : x.pendingMessageVersion = y.pendingMessageVersion := by
            have hxv := hrec.version_le
            have hle' : m.pendingMessageVersion ≤ x.pendingMessageVersion := hle
            omega
          obtain ⟨hp, hf⟩ := hrec.sameLists hshows hxy
          rw [QueueSnapshot.Lists, hp, hf]
          exact hnew hshows
    · exact hnew ((shows_of_mem_answer ha hx' hxs).resolve_left hxf)

/-- A delivery is emitted beside a snapshot of the same version. -/
theorem exists_snapshot_of_delivery {d : QueueDeliveryFact}
    (hd : .delivery d ∈ eventsOf localeCompare fault as) :
    ∃ x, .snapshot x ∈ eventsOf localeCompare fault as ∧ ¬ x.IsFallback ∧
      x.sessionName = d.sessionName ∧ x.pendingMessageVersion = d.pendingMessageVersion := by
  obtain ⟨pre, a, post, -, hda, hsub⟩ := exists_of_mem_eventsOf hd
  obtain ⟨s', h⟩ := (next_spec localeCompare fault pre a).events _ hda
  cases h with
  | @delivery m _ _ x hm hgone hx hshows =>
    refine ⟨x, hsub hx, hshows.not_isFallback, hshows.content.1, ?_⟩
    rw [hshows.content.2.2.1, SessionState.version, hm]
    rfl

/-! ## The first version -/

/-- At version 0 nothing has been enqueued yet. -/
theorem entries_of_version_zero (as : List QueueAction)
    (h : ((connAfter localeCompare fault as).data.session s).version = 0) :
    ((connAfter localeCompare fault as).data.session s).entries = [] := by
  induction as using List.reverseRecOn with
  | nil => rfl
  | append_singleton as a ih =>
    rw [connAfter_snoc] at h ⊢
    cases (next_spec localeCompare fault as a).session s with
    | quiet hq _ =>
      rcases hq with hq | ⟨env, -, now, hq⟩
      · rw [hq] at h ⊢
        exact ih h
      · rw [hq] at h ⊢
        exact ih (by rwa [SessionState.version_ensured] at h)
    | committed _ _ _ hq =>
      rw [hq, SessionOp.version_apply] at h
      exact absurd h (Nat.succ_ne_zero _)

/-- A snapshot of version 0 lists nothing. -/
theorem lists_of_version_zero {x : QueueSnapshot}
    (hx : .snapshot x ∈ eventsOf localeCompare fault as) (hv : x.pendingMessageVersion = 0) :
    x.pendingMessageEntries = [] ∧ x.failedMessageEntries = [] := by
  obtain ⟨pre, a, post, -, hxa, -⟩ := exists_of_mem_eventsOf hx
  obtain ⟨s', h⟩ := (next_spec localeCompare fault pre a).events _ hxa
  cases h with
  | degraded source err => exact ⟨rfl, rfl⟩
  | snapshot h =>
    obtain ⟨-, -, hxv, hp, hf⟩ := h.content
    rw [← connAfter_snoc] at hxv hp hf
    have hnil := entries_of_version_zero (pre ++ [a]) (hxv.symm.trans hv)
    have hrows : ((connAfter localeCompare fault (pre ++ [a])).data.session s').rows = [] := by
      rw [SessionState.rows, hnil]
      cases ((connAfter localeCompare fault (pre ++ [a])).data.session s').metaRow <;> rfl
    rw [hp, hf, SessionState.pendingEntries, SessionState.failedEntries, hrows]
    exact ⟨rfl, rfl⟩

/-! ## Runs with resets -/

/-- What a call does to the row of `queue_meta`: it stays in its epoch, or a new
epoch begins with a version above the old one's, or there is still no row. -/
theorem SessionStep.meta_cases {a : QueueAction} {c c' : StoreConn} (h : SessionStep a s c c') :
    (∃ m m', (c.data.session s).metaRow = some m ∧ (c'.data.session s).metaRow = some m' ∧
        m'.queueEpoch = m.queueEpoch ∧ m.pendingMessageVersion ≤ m'.pendingMessageVersion) ∨
      (∃ m', ∃ env ∈ a.envs, (c'.data.session s).metaRow = some m' ∧
        m'.queueEpoch = env.queueEpoch ∧ ∀ m, (c.data.session s).metaRow = some m →
          m.pendingMessageVersion < m'.pendingMessageVersion) ∨
      (c.data.session s).metaRow = none ∧ (c'.data.session s).metaRow = none := by
  cases hm : (c.data.session s).metaRow with
  | none =>
    cases h with
    | quiet h _ =>
      rcases h with h | ⟨env, henv, now, h⟩
      · exact Or.inr (Or.inr ⟨rfl, (by rw [h, hm])⟩)
      · refine Or.inr (Or.inl ⟨_, env, henv, (by rw [h]; rfl), ?_, fun m h => by cases h⟩)
        rw [SessionState.metaD, hm, Option.getD_none]
    | @committed op env _ henv _ h =>
      by_cases hop : op = .reset
      · subst hop
        exact Or.inr (Or.inl ⟨_, env, henv, (by rw [h]; rfl), rfl, fun m h => by cases h⟩)
      · obtain ⟨m', hm', he, -⟩ := SessionOp.epoch_apply (s := s) (v := c.data.session s) hop
        refine Or.inr (Or.inl ⟨m', env, henv, by rw [h, hm'], ?_, fun m h => by cases h⟩)
        rw [he, SessionState.metaD, hm, Option.getD_none]
  | some m =>
    by_cases hreset : ∃ env, env ∈ a.envs ∧ c'.data.session s =
        SessionOp.reset.apply env s (c.data.session s)
    · obtain ⟨env, henv, h⟩ := hreset
      refine Or.inr (Or.inl ⟨_, env, henv, (by rw [h]; rfl), rfl, fun m' hm' => ?_⟩)
      cases hm'
      simp only [SessionState.version, hm, Option.elim_some]
      exact Nat.lt_succ_self _
    · refine Or.inl ⟨m, ?_⟩
      cases h with
      | quiet h hq =>
        have heq : c'.data.session s = c.data.session s := by
          rcases h with h | ⟨env, -, now, h⟩
          · exact h
          · rw [h, SessionState.ensured_of_isSome (by rw [hm]; rfl)]
        exact ⟨m, rfl, (by rw [heq, hm]), rfl, le_rfl⟩
      | @committed op env _ henv _ h =>
        have hop : op ≠ .reset := fun hop => hreset ⟨env, henv, (by rw [h, hop])⟩
        obtain ⟨m', hm', he, -⟩ := SessionOp.epoch_apply (s := s)
          (v := c.data.session s) hop
        have hv := SessionOp.version_apply env s op (c.data.session s)
        refine ⟨m', rfl, by rw [h, hm'], ?_, ?_⟩
        · rw [he, SessionState.metaD, hm, Option.getD_some]
        · rw [SessionState.version, SessionState.version, hm, hm'] at hv
          exact (Nat.le_succ _).trans hv.ge

/-- The epochs a run has drawn. -/
def drawnEpochs (as : List QueueAction) : List Uuid :=
  (as.flatMap QueueAction.envs).map (·.queueEpoch)

/-- No epoch is drawn twice. -/
def FreshEpochs (as : List QueueAction) : Prop := (drawnEpochs as).Nodup

theorem drawnEpochs_snoc (as : List QueueAction) (a : QueueAction) :
    drawnEpochs (as ++ [a]) = drawnEpochs as ++ a.envs.map (·.queueEpoch) := by
  simp [drawnEpochs]

/-- The epochs of the stamps do not interleave: once a stamp of one epoch is at
most as new as one of another, the whole epoch is older than that one. -/
def EpochsApart (T : EventStamp → Prop) : Prop :=
  ∀ x y z, T x → T y → T z → z.queueEpoch = x.queueEpoch → y.queueEpoch ≠ x.queueEpoch →
    x.pendingMessageVersion ≤ y.pendingMessageVersion →
    z.pendingMessageVersion < y.pendingMessageVersion

/-- What is known of the stamps emitted on the way to the state `v`: those of the
current epoch lie between its first version and the current one, those of
earlier epochs below. -/
structure EpochsOf (T : EventStamp → Prop) (v : SessionState) (drawn : List Uuid) : Prop where
  drawnStamp : ∀ t, T t → ∃ u ∈ drawn, t.queueEpoch = u.text
  drawnMeta : ∀ m, v.metaRow = some m → m.queueEpoch ∈ drawn
  started : ∀ t, T t → v.metaRow.isSome
  current : ∀ m, v.metaRow = some m → ∃ start ≤ m.pendingMessageVersion, ∀ t, T t →
    (t.queueEpoch = m.queueEpoch.text → start ≤ t.pendingMessageVersion ∧
      t.pendingMessageVersion ≤ m.pendingMessageVersion) ∧
    (t.queueEpoch ≠ m.queueEpoch.text → t.pendingMessageVersion < start)
  apart : EpochsApart T

/-- The stamps a run has emitted for the session. -/
def EmittedStamp (localeCompare : Collation) (fault : Nat → Option (Fault StoreError))
    (as : List QueueAction) (s : SessionName) (t : EventStamp) : Prop :=
  ∃ e ∈ eventsOf localeCompare fault as, Stamped e t ∧ t.sessionName = s.name

theorem EpochsOf.apart_of_current {T T' : EventStamp → Prop} {m : MetaRow} (hT : EpochsApart T)
    (hT' : ∀ t, T' t → T t ∨ t = m.stamp s) {start : Nat} (hstart : start ≤ m.pendingMessageVersion)
    (hcur : ∀ t, T t → (t.queueEpoch = m.queueEpoch.text → start ≤ t.pendingMessageVersion ∧
        t.pendingMessageVersion ≤ m.pendingMessageVersion) ∧
      (t.queueEpoch ≠ m.queueEpoch.text → t.pendingMessageVersion < start)) : EpochsApart T' := by
  have hm : (m.stamp s).queueEpoch = m.queueEpoch.text ∧
      (m.stamp s).pendingMessageVersion = m.pendingMessageVersion := ⟨rfl, rfl⟩
  intro x y z hx hy hz hzx hyx hle
  rcases hT' x hx with hx | rfl
  · rcases hT' y hy with hy | rfl
    · rcases hT' z hz with hz | rfl
      · exact hT x y z hx hy hz hzx hyx hle
      · -- `x` is in the current epoch, `y` before it
        have h₁ := (hcur x hx).1 hzx.symm
        have h₂ := (hcur y hy).2 (by rw [← hm.1, hzx]; exact hyx)
        omega
    · rcases hT' z hz with hz | rfl
      · have h₂ := (hcur z hz).2 (by rw [hzx]; exact hyx.symm)
        omega
      · exact absurd hzx hyx
  · rcases hT' y hy with hy | rfl
    · have h₂ := (hcur y hy).2 hyx
      omega
    · exact absurd rfl hyx

/-- The stamps of a run with fresh epochs. -/
theorem epochsOf_run (localeCompare : Collation) (fault : Nat → Option (Fault StoreError))
    (as : List QueueAction) (s : SessionName) (hfresh : FreshEpochs as) :
    EpochsOf (EmittedStamp localeCompare fault as s)
      ((connAfter localeCompare fault as).data.session s) (drawnEpochs as) := by
  induction as using List.reverseRecOn with
  | nil =>
    have hnone : ∀ t, ¬ EmittedStamp localeCompare fault [] s t := by
      rintro t ⟨e, he, -⟩
      cases he
    refine ⟨fun t h => (hnone t h).elim, fun m h => ?_, fun t h => (hnone t h).elim,
      fun m h => ?_, fun x _ _ h => (hnone x h).elim⟩
    · cases h
    · cases h
  | append_singleton as a ih =>
    have ha := next_spec localeCompare fault as a
    rw [FreshEpochs, drawnEpochs_snoc] at hfresh
    obtain ⟨hfresh₁, -, hdisj⟩ := List.nodup_append.1 hfresh
    obtain ⟨hds, hdm, hst, hcur, hap⟩ := ih hfresh₁
    -- a stamp is an old one, or the one the session has after the call
    have hnew (t : EventStamp) (ht : EmittedStamp localeCompare fault (as ++ [a]) s t) :
        EmittedStamp localeCompare fault as s t ∨
          ∃ m, ((connAfter localeCompare fault (as ++ [a])).data.session s).metaRow = some m ∧
            t = m.stamp s := by
      obtain ⟨e, he, hte, hs⟩ := ht
      rw [eventsOf_snoc] at he
      rcases List.mem_append.1 he with he | he
      · exact Or.inl ⟨e, he, hte, hs⟩
      · rw [connAfter_snoc]
        exact Or.inr (ha.stamp he hte hs)
    have hmeta := (ha.session s).meta_cases
    rw [← connAfter_snoc] at hmeta
    rw [drawnEpochs_snoc]
    rcases hmeta with ⟨m, m', hm, hm', he, hle⟩ | ⟨m', env, henv, hm', he, hlt⟩ | ⟨hm, hm'⟩
    · have hT (t : EventStamp) (ht : EmittedStamp localeCompare fault (as ++ [a]) s t) :
          EmittedStamp localeCompare fault as s t ∨ t = m'.stamp s := by
        refine (hnew t ht).imp id ?_
        rintro ⟨m'', hm'', rfl⟩
        rw [hm'] at hm''
        cases hm''
        rfl
      obtain ⟨start, hstart, hold⟩ := hcur m hm
      have hold' : ∀ t, EmittedStamp localeCompare fault as s t →
          (t.queueEpoch = m'.queueEpoch.text → start ≤ t.pendingMessageVersion ∧
            t.pendingMessageVersion ≤ m'.pendingMessageVersion) ∧
          (t.queueEpoch ≠ m'.queueEpoch.text → t.pendingMessageVersion < start) := by
        intro t ht
        rw [he]
        exact ⟨fun h => ⟨((hold t ht).1 h).1, ((hold t ht).1 h).2.trans hle⟩, (hold t ht).2⟩
      have hstart' := hstart.trans hle
      refine ⟨fun t ht => ?_, fun m'' h => ?_, fun t ht => ?_, fun m'' h => ?_,
        EpochsOf.apart_of_current hap hT hstart' hold'⟩
      · rcases hT t ht with ht | rfl
        · obtain ⟨u, hu, htu⟩ := hds t ht
          exact ⟨u, List.mem_append_left _ hu, htu⟩
        · exact ⟨m'.queueEpoch, List.mem_append_left _ (he ▸ hdm m hm), rfl⟩
      · rw [hm'] at h
        cases h
        exact List.mem_append_left _ (he ▸ hdm m hm)
      · rw [hm']
        rfl
      · rw [hm'] at h
        cases h
        refine ⟨start, hstart', fun t ht => ?_⟩
        rcases hT t ht with ht | rfl
        · exact hold' t ht
        · exact ⟨fun _ => ⟨hstart', le_rfl⟩, fun h => absurd rfl h⟩
    · have hT (t : EventStamp) (ht : EmittedStamp localeCompare fault (as ++ [a]) s t) :
          EmittedStamp localeCompare fault as s t ∨ t = m'.stamp s := by
        refine (hnew t ht).imp id ?_
        rintro ⟨m'', hm'', rfl⟩
        rw [hm'] at hm''
        cases hm''
        rfl
      have hdrawn : m'.queueEpoch ∈ a.envs.map (·.queueEpoch) := by
        rw [he]
        exact List.mem_map_of_mem henv
      -- the old stamps are of other epochs, and below
      have hold : ∀ t, EmittedStamp localeCompare fault as s t →
          (t.queueEpoch = m'.queueEpoch.text →
            m'.pendingMessageVersion ≤ t.pendingMessageVersion ∧
            t.pendingMessageVersion ≤ m'.pendingMessageVersion) ∧
          (t.queueEpoch ≠ m'.queueEpoch.text →
            t.pendingMessageVersion < m'.pendingMessageVersion) := by
        intro t ht
        refine ⟨fun h => ?_, fun _ => ?_⟩
        · obtain ⟨u, hu, htu⟩ := hds t ht
          have hum : u = m'.queueEpoch := Uuid.ext (htu.symm.trans h)
          exact absurd (hum ▸ hdrawn) (fun h => hdisj u hu _ h rfl)
        · obtain ⟨m, hm⟩ := Option.isSome_iff_exists.1 (hst t ht)
          obtain ⟨start, hstart, hcur⟩ := hcur m hm
          have hlt := hlt m hm
          have h := hcur t ht
          by_cases htm : t.queueEpoch = m.queueEpoch.text
          · have := (h.1 htm).2
            omega
          · have := h.2 htm
            omega
      refine ⟨fun t ht => ?_, fun m'' h => ?_, fun t ht => ?_, fun m'' h => ?_,
        EpochsOf.apart_of_current hap hT le_rfl hold⟩
      · rcases hT t ht with ht | rfl
        · obtain ⟨u, hu, htu⟩ := hds t ht
          exact ⟨u, List.mem_append_left _ hu, htu⟩
        · exact ⟨m'.queueEpoch, List.mem_append_right _ hdrawn, rfl⟩
      · rw [hm'] at h
        cases h
        exact List.mem_append_right _ hdrawn
      · rw [hm']
        rfl
      · rw [hm'] at h
        cases h
        refine ⟨_, le_rfl, fun t ht => ?_⟩
        rcases hT t ht with ht | rfl
        · exact hold t ht
        · exact ⟨fun _ => ⟨le_rfl, le_rfl⟩, fun h => absurd rfl h⟩
    · have hnone (t : EventStamp) : ¬ EmittedStamp localeCompare fault (as ++ [a]) s t := by
        intro ht
        rcases hnew t ht with ht | ⟨m, h, -⟩
        · have := hst t ht
          rw [hm] at this
          cases this
        · rw [hm'] at h
          cases h
      refine ⟨fun t h => (hnone t h).elim, fun m h => ?_, fun t h => (hnone t h).elim,
        fun m h => ?_, fun x _ _ h => (hnone x h).elim⟩
      · rw [hm'] at h
        cases h
      · rw [hm'] at h
        cases h

end Runs

end Imcodes.Queue
