import Imcodes.Queue.Runs

/-!
# `pendingMessageVersion` identifies what the queue holds

* `version_identifies_content` — along every run of the store the version of a
  session never decreases, moves on whenever an entry changes, stays when
  nothing was committed, and two snapshots with one epoch and one version list
  the same entries.
* `Recorded` — the invariant behind the last part: a snapshot that has been
  emitted is older than the session's state, or shows that state.
-/

namespace Imcodes.Queue

open Relational

namespace SessionState

/-- The entries a snapshot of this state lists as pending. -/
def pendingEntries (localeCompare : Collation) (v : SessionState) : List QueueProjectionEntry :=
  projectEntries localeCompare (·.isLive) v.rows

/-- The entries a snapshot of this state lists as failed. -/
def failedEntries (localeCompare : Collation) (v : SessionState) : List QueueProjectionEntry :=
  projectEntries localeCompare (·.isFailed) v.rows

@[simp] theorem version_ensured (env : OpEnv) (s : SessionName) (now : Int) (v : SessionState) :
    (v.ensured env s now).version = v.version := by
  rw [version, version, ensured, metaD, Option.elim_some]
  cases v.metaRow <;> rfl

/-- What a snapshot that shows a state has in it. -/
theorem Shows.content {localeCompare : Collation} {s : SessionName} {v : SessionState}
    {x : QueueSnapshot} (h : v.Shows localeCompare s x) :
    x.sessionName = s.name ∧ v.metaRow.isSome ∧ x.pendingMessageVersion = v.version ∧
      x.pendingMessageEntries = v.pendingEntries localeCompare ∧
      x.failedMessageEntries = v.failedEntries localeCompare := by
  obtain ⟨m, source, why, hm, rfl⟩ := h
  exact ⟨rfl, by rw [hm]; rfl, by rw [version, hm]; rfl, rfl, rfl⟩

end SessionState

/-! ## One call -/

section Step

variable {a : QueueAction} {s : SessionName} {c c' : StoreConn}

/-- A call never takes the version back. -/
theorem SessionStep.version_le (h : SessionStep a s c c') :
    (c.data.session s).version ≤ (c'.data.session s).version := by
  cases h with
  | quiet h _ =>
    rcases h with h | ⟨env, -, now, h⟩
    · rw [h]
    · rw [h, SessionState.version_ensured]
  | committed _ _ _ h =>
    rw [h, SessionOp.version_apply]
    exact Nat.le_succ _

/-- A call leaves the session as it is, or moves the version on. -/
theorem SessionStep.eq_or_lt (h : SessionStep a s c c') (hm : (c.data.session s).metaRow.isSome) :
    c'.data.session s = c.data.session s ∨
      (c.data.session s).version < (c'.data.session s).version := by
  cases h with
  | quiet h _ =>
    rcases h with h | ⟨env, -, now, h⟩
    · exact Or.inl h
    · exact Or.inl (by rw [h, SessionState.ensured_of_isSome hm])
  | committed _ _ _ h =>
    rw [h, SessionOp.version_apply]
    exact Or.inr (Nat.lt_succ_self _)

/-- A call that changes an entry moves the version on. -/
theorem SessionStep.lt_of_entries_ne (h : SessionStep a s c c')
    (hne : (c'.data.session s).entries ≠ (c.data.session s).entries) :
    (c.data.session s).version < (c'.data.session s).version := by
  cases h with
  | quiet h _ =>
    rcases h with h | ⟨env, -, now, h⟩
    · exact absurd (by rw [h]) hne
    · exact absurd (by rw [h]; rfl) hne
  | committed _ _ _ h =>
    rw [h, SessionOp.version_apply]
    exact Nat.lt_succ_self _

/-- A call that commits nothing changes neither the entries nor the version. -/
theorem SessionStep.eq_of_commits_eq (h : SessionStep a s c c') (hc : c'.commits = c.commits) :
    (c'.data.session s).entries = (c.data.session s).entries ∧
      (c'.data.session s).version = (c.data.session s).version := by
  cases h with
  | quiet h _ =>
    rcases h with h | ⟨env, -, now, h⟩
    · rw [h]
      exact ⟨rfl, rfl⟩
    · rw [h, SessionState.version_ensured]
      exact ⟨rfl, rfl⟩
  | committed _ _ hcommits _ => omega

theorem SessionStep.isSome_metaRow (h : SessionStep a s c c')
    (hm : (c.data.session s).metaRow.isSome) : (c'.data.session s).metaRow.isSome := by
  cases h with
  | quiet h _ =>
    rcases h with h | ⟨env, -, now, h⟩
    · rwa [h]
    · rw [h]; rfl
  | committed _ _ _ h =>
    rw [h]
    exact SessionOp.isSome_metaRow_apply _ _ _ _

end Step

/-! ## Emitted snapshots -/

/-- A snapshot that shows nothing of the queue. -/
def QueueSnapshot.IsFallback (x : QueueSnapshot) : Prop :=
  x.queueEpoch = "unavailable" ∧ x.queueAuthorityId = "unavailable" ∧
    x.pendingMessageVersion = 0 ∧ x.pendingMessageEntries = [] ∧ x.failedMessageEntries = [] ∧
    x.degraded = true ∧ x.resetReason = none

/-- What is known of a snapshot of the session that was emitted on the way to
the state `v`: it has an older version, or it shows `v`. -/
structure Recorded (localeCompare : Collation) (v : SessionState) (x : QueueSnapshot) : Prop where
  started : v.metaRow.isSome
  epoch : x.queueEpoch.length = 36
  authority : x.queueAuthorityId.length = 36
  degraded : x.degraded = false
  version_le : x.pendingMessageVersion ≤ v.version
  pending : x.pendingMessageVersion = v.version →
    x.pendingMessageEntries = v.pendingEntries localeCompare
  failed : x.pendingMessageVersion = v.version →
    x.failedMessageEntries = v.failedEntries localeCompare

theorem Recorded.of_shows {localeCompare : Collation} {s : SessionName} {v : SessionState}
    {x : QueueSnapshot} (h : v.Shows localeCompare s x) : Recorded localeCompare v x := by
  obtain ⟨-, hm, hv, hp, hf⟩ := h.content
  obtain ⟨m, source, why, -, rfl⟩ := h
  exact ⟨hm, m.queueEpoch.length, m.queueAuthorityId.length, rfl, hv.le, fun _ => hp, fun _ => hf⟩

theorem Recorded.step {localeCompare : Collation} {a : QueueAction} {s : SessionName}
    {c c' : StoreConn} {x : QueueSnapshot} (hx : Recorded localeCompare (c.data.session s) x)
    (h : SessionStep a s c c') : Recorded localeCompare (c'.data.session s) x := by
  rcases h.eq_or_lt hx.started with heq | hlt
  · rwa [heq]
  · have hle := hx.version_le
    exact ⟨h.isSome_metaRow hx.started, hx.epoch, hx.authority, hx.degraded, by omega,
      fun he => by omega, fun he => by omega⟩

section Runs

variable {localeCompare : Collation} {fault : Nat → Option (Fault StoreError)}
  {as : List QueueAction} {s : SessionName}

/-- The snapshots a call answers with are fallbacks or show the state it leaves. -/
theorem shows_of_mem_answer {a : QueueAction} {c : StoreConn} {x : QueueSnapshot}
    (ha : ActionSpec localeCompare a c (a.run localeCompare c))
    (hx : .snapshot x ∈ (a.run localeCompare c).1) (hs : x.sessionName = s.name) :
    x.IsFallback ∨ ((a.run localeCompare c).2.data.session s).Shows localeCompare s x := by
  obtain ⟨s', h⟩ := ha.events _ hx
  cases h with
  | degraded source err => exact Or.inl ⟨rfl, rfl, rfl, rfl, rfl, rfl, rfl⟩
  | snapshot h =>
    have hss : s' = s := SessionName.ext (h.content.1.symm.trans hs)
    subst hss
    exact Or.inr h

/-- Every snapshot of a session that a run has emitted is a fallback, or it is
older than the session's state, or shows it. -/
theorem snapshot_recorded (localeCompare : Collation) (fault : Nat → Option (Fault StoreError))
    (as : List QueueAction) (s : SessionName) {x : QueueSnapshot}
    (hx : .snapshot x ∈ eventsOf localeCompare fault as) (hs : x.sessionName = s.name) :
    x.IsFallback ∨
      Recorded localeCompare ((connAfter localeCompare fault as).data.session s) x := by
  refine run_induction (P := fun _ events c => ∀ x, .snapshot x ∈ events →
    x.sessionName = s.name → x.IsFallback ∨ Recorded localeCompare (c.data.session s) x)
    (fun x hx => by cases hx) (fun as events c a ih ha x hx hs => ?_) as x hx hs
  rcases List.mem_append.1 hx with hx | hx
  · exact (ih x hx hs).imp id fun h => h.step (ha.session s)
  · exact (shows_of_mem_answer ha hx hs).imp id .of_shows

/-- Two snapshots that list the same entries in the same order. -/
def QueueSnapshot.SameLists (x y : QueueSnapshot) : Prop :=
  x.pendingMessageEntries = y.pendingMessageEntries ∧
    x.failedMessageEntries = y.failedMessageEntries

/-- A recorded snapshot with the version of a shown one lists what that one lists. -/
theorem Recorded.sameLists {v : SessionState} {x y : QueueSnapshot}
    (hx : Recorded localeCompare v x) (hy : v.Shows localeCompare s y)
    (hv : x.pendingMessageVersion = y.pendingMessageVersion) : x.SameLists y := by
  obtain ⟨-, -, hyv, hyp, hyf⟩ := hy.content
  have hxv := hv.trans hyv
  exact ⟨(hx.pending hxv).trans hyp.symm, (hx.failed hxv).trans hyf.symm⟩

/-- Two snapshots of a session with the same epoch and version have the same lists. -/
theorem sameLists_of_version_eq {x y : QueueSnapshot}
    (hx : .snapshot x ∈ eventsOf localeCompare fault as)
    (hy : .snapshot y ∈ eventsOf localeCompare fault as) (hxs : x.sessionName = s.name)
    (hys : y.sessionName = s.name) (he : x.queueEpoch = y.queueEpoch)
    (hv : x.pendingMessageVersion = y.pendingMessageVersion) : x.SameLists y := by
  -- a fallback and a shown snapshot differ in the epoch
  have hmixed {v : SessionState} {x y : QueueSnapshot} (hx : x.IsFallback)
      (hy : Recorded localeCompare v y) (he : x.queueEpoch = y.queueEpoch) : False := by
    have h := hy.epoch
    rw [← he, hx.1] at h
    exact absurd h (by decide)
  induction as using List.reverseRecOn with
  | nil => cases hx
  | append_singleton as a ih =>
    have hxr := snapshot_recorded localeCompare fault (as ++ [a]) s hx hxs
    have hyr := snapshot_recorded localeCompare fault (as ++ [a]) s hy hys
    rcases hxr with hxf | hxr
    · rcases hyr with hyf | hyr
      · exact ⟨hxf.2.2.2.1.trans hyf.2.2.2.1.symm, hxf.2.2.2.2.1.trans hyf.2.2.2.2.1.symm⟩
      · exact (hmixed hxf hyr he).elim
    rcases hyr with hyf | hyr
    · exact (hmixed hyf hxr he.symm).elim
    rw [eventsOf_snoc] at hx hy
    rw [connAfter_snoc] at hxr hyr
    rcases List.mem_append.1 hy with hy' | hy'
    · rcases List.mem_append.1 hx with hx' | hx'
      · exact ih hx' hy'
      · rcases shows_of_mem_answer (next_spec _ _ as a) hx' hxs with hxf | hxs'
        · exact (hmixed hxf hxr rfl).elim
        · have h := hyr.sameLists hxs' hv.symm
          exact ⟨h.1.symm, h.2.symm⟩
    · rcases shows_of_mem_answer (next_spec _ _ as a) hy' hys with hyf | hys'
      · exact (hmixed hyf hyr rfl).elim
      · exact hxr.sameLists hys' hv

/-- **Version identifies queue content.** -/
theorem version_identifies_content (localeCompare : Collation)
    (fault : Nat → Option (Fault StoreError)) (as : List QueueAction) (s : SessionName) :
    let c := connAfter localeCompare fault as
    (∀ a : QueueAction,
      let c' := (a.run localeCompare c).2
      (c.data.session s).version ≤ (c'.data.session s).version ∧
      ((c'.data.session s).entries ≠ (c.data.session s).entries →
        (c.data.session s).version < (c'.data.session s).version) ∧
      (c'.commits = c.commits →
        (c'.data.session s).entries = (c.data.session s).entries ∧
          (c'.data.session s).version = (c.data.session s).version)) ∧
    ∀ x y : QueueSnapshot, .snapshot x ∈ eventsOf localeCompare fault as →
      .snapshot y ∈ eventsOf localeCompare fault as →
      x.sessionName = s.name → y.sessionName = s.name → x.queueEpoch = y.queueEpoch →
      x.pendingMessageVersion = y.pendingMessageVersion →
      x.pendingMessageEntries = y.pendingMessageEntries ∧
        x.failedMessageEntries = y.failedMessageEntries := by
  refine ⟨fun a => ?_, fun x y hx hy hxs hys he hv => sameLists_of_version_eq hx hy hxs hys he hv⟩
  have h := (next_spec localeCompare fault as a).session s
  exact ⟨h.version_le, h.lt_of_entries_ne, h.eq_of_commits_eq⟩

end Runs

end Imcodes.Queue
