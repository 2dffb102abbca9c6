import Imcodes.Queue.Runs

/-!
# Private material follows its entry

`MaterialFollows` says that every row of private material belongs to an entry,
and that a live entry that was enqueued with material still has it.  The column
`private_material_ref` remembers the latter: enqueueing writes it, and nothing
else does (`SessionOp.lineage_apply`).

* `MaterialFollows.apply` — every operation keeps the invariant, except two:
  `dismissFailed` of an entry that is not failed, whose `DELETE` lacks the
  guard of its `UPDATE`, and `markHandoffInFlight` of an entry whose material
  is gone, whose `UPDATE` has no guard at all.
* `private_material_follows` — the invariant over whole runs, and that each
  of the two exceptions breaks it at once.
-/

namespace Imcodes.Queue

open Relational

/-- An entry that needs its private material: it is live, and it was enqueued
with some. -/
def EntryRow.Needs (r : EntryRow) : Prop := r.status.isLive ∧ r.privateMaterialRef.isSome

instance (r : EntryRow) : Decidable r.Needs := inferInstanceAs (Decidable (_ ∧ _))

theorem EntryRow.not_needs {r : EntryRow} (h : r.status.isLive = false) : ¬ r.Needs :=
  fun hn => Bool.false_ne_true (h.symm.trans hn.1)

namespace SessionState

/-- There is private material for the message. -/
def HasMaterial (v : SessionState) (id : MessageId) : Prop :=
  ∃ m ∈ v.material, m.clientMessageId = id

instance (v : SessionState) (id : MessageId) : Decidable (v.HasMaterial id) :=
  inferInstanceAs (Decidable (∃ m ∈ v.material, m.clientMessageId = id))

/-- Private material follows its entry. -/
structure MaterialFollows (v : SessionState) : Prop where
  owned : ∀ m ∈ v.material, ∃ r ∈ v.entries, r.clientMessageId = m.clientMessageId
  kept : ∀ r ∈ v.entries, r.Needs → v.HasMaterial r.clientMessageId

theorem materialFollows_iff {v : SessionState} : v.MaterialFollows ↔
    (∀ m ∈ v.material, ∃ r ∈ v.entries, r.clientMessageId = m.clientMessageId) ∧
      ∀ r ∈ v.entries, r.Needs → v.HasMaterial r.clientMessageId :=
  ⟨fun h => ⟨h.1, h.2⟩, fun h => ⟨h.1, h.2⟩⟩

instance (v : SessionState) : Decidable v.MaterialFollows :=
  decidable_of_iff _ materialFollows_iff.symm

namespace MaterialFollows

variable {v w : SessionState}

theorem empty : MaterialFollows .empty :=
  ⟨fun _ h => (List.not_mem_nil h).elim, fun _ h => (List.not_mem_nil h).elim⟩

/-- Only entries and material matter. -/
theorem congr (h : v.MaterialFollows) (he : w.entries = v.entries) (hm : w.material = v.material) :
    w.MaterialFollows := by
  refine ⟨fun m hmem => ?_, fun r hr hn => ?_⟩
  · rw [he]
    exact h.owned m (hm ▸ hmem)
  · rw [HasMaterial, hm]
    exact h.kept r (he ▸ hr) hn

/-- An `UPDATE` keeps the invariant, if the entries it makes live have material. -/
theorem mapEntries {p : EntryRow → Bool} {f : EntryRow → EntryRow} (h : v.MaterialFollows)
    (hid : ∀ r, (f r).clientMessageId = r.clientMessageId)
    (hf : ∀ r ∈ v.entries, p r → (f r).Needs → v.HasMaterial r.clientMessageId) :
    (v.mapEntries p f).MaterialFollows := by
  refine ⟨fun m hm => ?_, fun r' hr' hn => ?_⟩
  · obtain ⟨r, hr, hrm⟩ := h.owned m hm
    refine ⟨_, List.mem_map_of_mem hr, ?_⟩
    split
    · rw [hid, hrm]
    · exact hrm
  · obtain ⟨r, hr, ⟨hp, rfl⟩ | ⟨-, rfl⟩⟩ := mem_mapEntries.1 hr'
    · rw [hid]
      exact hf r hr hp hn
    · exact h.kept r' hr hn

/-- Material may go when its entry does not need it. -/
theorem withoutMaterial {id : MessageId} (h : v.MaterialFollows)
    (hid : ∀ r ∈ v.entries, r.clientMessageId = id → ¬ r.Needs) :
    (v.withoutMaterial id).MaterialFollows := by
  refine ⟨fun m hm => h.owned m (List.mem_of_mem_filter hm), fun r hr hn => ?_⟩
  obtain ⟨m, hm, hmr⟩ := h.kept r hr hn
  have hne : r.clientMessageId ≠ id := fun he => hid r hr he hn
  exact ⟨m, List.mem_filter.2 ⟨hm, decide_eq_true (by rwa [hmr])⟩, hmr⟩

/-- Both `DELETE`s together keep the invariant. -/
theorem without (id : MessageId) (h : v.MaterialFollows) : (v.without id).MaterialFollows := by
  refine ⟨fun m hm => ?_, fun r hr hn => ?_⟩
  · obtain ⟨hm, hne⟩ := List.mem_filter.1 hm
    obtain ⟨r, hr, hrm⟩ := h.owned m hm
    exact ⟨r, List.mem_filter.2 ⟨hr, by rwa [hrm]⟩, hrm⟩
  · obtain ⟨hr, hne⟩ := List.mem_filter.1 hr
    obtain ⟨m, hm, hmr⟩ := h.kept r hr hn
    exact ⟨m, List.mem_filter.2 ⟨hm, by rwa [hmr]⟩, hmr⟩

/-- Enqueueing inserts the entry with its material. -/
theorem push (env : OpEnv) (s : SessionName) (input : EnqueueTransportQueueEntryInput) (now : Int)
    (h : v.MaterialFollows) : (SessionOp.push env s input now v).MaterialFollows := by
  cases hi : input.privateMaterialJson with
  | none =>
    simp only [SessionOp.push, hi, Option.elim_none]
    refine ⟨fun m hm => ?_, fun r hr hn => ?_⟩
    · obtain ⟨r, hr, hrm⟩ := h.owned m hm
      exact ⟨r, List.mem_append_left _ hr, hrm⟩
    · rcases List.mem_append.1 hr with hr | hr
      · exact h.kept r hr hn
      · rw [List.mem_singleton.1 hr] at hn
        simp [EntryRow.Needs, EnqueueTransportQueueEntryInput.row, hi] at hn
  | some material =>
    simp only [SessionOp.push, hi, Option.elim_some]
    refine ⟨fun m hm => ?_, fun r hr hn => ?_⟩
    · rcases List.mem_append.1 hm with hm | hm
      · obtain ⟨r, hr, hrm⟩ := h.owned m (List.mem_of_mem_filter hm)
        exact ⟨r, List.mem_append_left _ hr, hrm⟩
      · rw [List.mem_singleton.1 hm]
        exact ⟨_, List.mem_append_right _ (List.mem_singleton_self _), rfl⟩
    · by_cases hid : r.clientMessageId = input.messageId env
      · exact ⟨_, List.mem_append_right _ (List.mem_singleton_self _), hid.symm⟩
      · rcases List.mem_append.1 hr with hr | hr
        · obtain ⟨m, hm, hmr⟩ := h.kept r hr hn
          refine ⟨m, List.mem_append_left _ (List.mem_filter.2 ⟨hm, ?_⟩), hmr⟩
          exact decide_eq_true (by rwa [hmr])
        · exact absurd (by rw [List.mem_singleton.1 hr]; rfl) hid

end MaterialFollows

end SessionState

/-! ## Operations -/

namespace SessionOp

open SessionState

/-- The operation takes no material from an entry that stays live, and makes no
entry live whose material is gone. -/
def KeepsMaterial (v : SessionState) : SessionOp → Prop
  | .dismissFailed id => ∀ r ∈ v.entries, r.clientMessageId = id → ¬ r.Needs
  | .markHandoffInFlight ids _ => ∀ r ∈ v.entries, r.clientMessageId.text ∈ ids →
      r.privateMaterialRef.isSome → v.HasMaterial r.clientMessageId
  | _ => True

instance (v : SessionState) : (op : SessionOp) → Decidable (op.KeepsMaterial v)
  | .dismissFailed id => inferInstanceAs
      (Decidable (∀ r ∈ v.entries, r.clientMessageId = id → ¬ r.Needs))
  | .markHandoffInFlight ids _ => inferInstanceAs
      (Decidable (∀ r ∈ v.entries, r.clientMessageId.text ∈ ids → r.privateMaterialRef.isSome →
        v.HasMaterial r.clientMessageId))
  | .enqueue .. | .edit .. | .markMissingPrivateMaterialFailed _ | .finalizeSentBatch ..
  | .markDeleted _ | .markFailed .. | .cleanup | .drop _ | .dropAll | .reset
  | .restoreExpiredHandoffs => isTrue trivial

end SessionOp

namespace SessionState.MaterialFollows

open SessionOp

variable {v : SessionState}

theorem handoff {env : OpEnv} {leaseMs : Int} {ids : List String} (h : v.MaterialFollows)
    (hids : ∀ r ∈ v.entries, r.clientMessageId.text ∈ ids → r.privateMaterialRef.isSome →
      v.HasMaterial r.clientMessageId) :
    (ids.foldl (fun v id => v.mapEntries (fun r => r.clientMessageId.text = id)
      (handedOff env leaseMs)) v).MaterialFollows := by
  induction ids generalizing v with
  | nil => exact h
  | cons id ids ih =>
    rw [List.foldl_cons]
    refine ih (h.mapEntries (fun _ => rfl) fun r hr hp hn => ?_) fun r' hr' hid href => ?_
    · exact hids r hr (List.mem_cons.2 (Or.inl (of_decide_eq_true hp))) hn.2
    · obtain ⟨r, hr, ⟨-, rfl⟩ | ⟨-, rfl⟩⟩ := mem_mapEntries.1 hr'
      · exact hids r hr (List.mem_cons_of_mem _ hid) href
      · exact hids r' hr (List.mem_cons_of_mem _ hid) href

/-- An `UPDATE` that makes a message dead, and the `DELETE` of its material. -/
theorem retire {p : EntryRow → Bool} {f : EntryRow → EntryRow} {id : MessageId}
    (h : v.MaterialFollows) (hid : ∀ r, (f r).clientMessageId = r.clientMessageId)
    (hf : ∀ r, (f r).status.isLive = false)
    (hp : ∀ r ∈ v.entries, r.clientMessageId = id → ¬ p r → ¬ r.Needs) :
    ((v.mapEntries p f).withoutMaterial id).MaterialFollows := by
  refine (h.mapEntries hid fun r hr _ hn => absurd hn (EntryRow.not_needs (hf r))).withoutMaterial
    fun r' hr' hid' => ?_
  obtain ⟨r, hr, ⟨-, rfl⟩ | ⟨hnp, rfl⟩⟩ := mem_mapEntries.1 hr'
  · exact EntryRow.not_needs (hf r)
  · exact hp r' hr hid' hnp

/-- **Every operation keeps the invariant**, the two exceptions apart. -/
theorem apply (h : v.MaterialFollows) (env : OpEnv) (s : SessionName) {op : SessionOp}
    (hop : op.KeepsMaterial v) : (op.apply env s v).MaterialFollows := by
  refine MaterialFollows.congr ?_ (entries_apply env s op v) (material_apply env s op v)
  cases op with
  | enqueue input evict =>
    cases evict with
    | none => exact h.push env s input _
    | some id => exact (h.without id).push env s input _
  | edit id text => exact h.mapEntries (fun _ => rfl) fun r hr _ hn => h.kept r hr hn
  | markHandoffInFlight ids leaseMs => exact h.handoff hop
  | markFailed id reason =>
    exact h.mapEntries (fun _ => rfl) fun r hr _ hn => absurd hn (EntryRow.not_needs rfl)
  | markMissingPrivateMaterialFailed id | markDeleted id =>
    exact h.retire (fun _ => rfl) (fun _ => rfl) fun r _ hid hp => absurd (decide_eq_true hid) hp
  | dismissFailed id => exact h.retire (fun _ => rfl) (fun _ => rfl) fun r hr hid _ => hop r hr hid
  | finalizeSentBatch ids frame =>
    simp only [change]
    generalize (v.metaD env s env.now).queueEpoch = epoch
    clear hop
    induction ids generalizing v with
    | nil => exact h
    | cons id ids ih =>
      have ht : (v.putTombstone ⟨s, epoch, id, frame, env.now⟩).MaterialFollows := h.congr rfl rfl
      exact ih (ht.without id)
  | cleanup =>
    refine ⟨fun m hm => ?_, fun r hr hn => ?_⟩
    · obtain ⟨e, he, hem⟩ := List.any_eq_true.1 (List.mem_filter.1 hm).2
      exact ⟨e, he, of_decide_eq_true hem⟩
    · obtain ⟨m, hm, hmr⟩ := h.kept r (List.mem_of_mem_filter hr) hn
      exact ⟨m, List.mem_filter.2 ⟨hm, List.any_eq_true.2 ⟨r, hr, decide_eq_true hmr.symm⟩⟩, hmr⟩
  | drop id => exact h.without id
  | dropAll | reset =>
    exact ⟨fun _ h => (List.not_mem_nil h).elim, fun _ h => (List.not_mem_nil h).elim⟩
  | restoreExpiredHandoffs =>
    refine h.mapEntries (fun _ => rfl) fun r hr hp hn => h.kept r hr ⟨?_, hn.2⟩
    have hst : r.status = .handoffInflight := by
      simp only [hasExpiredHandoff, Bool.and_eq_true, decide_eq_true_eq] at hp
      exact hp.1
    rw [hst]
    rfl

/-! ## The two exceptions -/

/-- A status is not both live and failed. -/
theorem isFailed_of_isLive {st : QueueEntryStatus} (h : st.isLive) : st.isFailed = false := by
  cases st <;> first | rfl | cases h

theorem material_handoff (env : OpEnv) (leaseMs : Int) (ids : List String) (v : SessionState) :
    (ids.foldl (fun v id => v.mapEntries (fun r => r.clientMessageId.text = id)
      (handedOff env leaseMs)) v).material = v.material := by
  induction ids generalizing v with
  | nil => rfl
  | cons id ids ih => exact ih _

/-- `markHandoffInFlight` makes every entry it names live. -/
theorem live_of_handoff (env : OpEnv) (leaseMs : Int) {ids : List String} {r : EntryRow}
    (hr : r ∈ v.entries) (hid : r.clientMessageId.text ∈ ids ∨ r.status = .handoffInflight) :
    ∃ r' ∈ (ids.foldl (fun v id => v.mapEntries (fun r => r.clientMessageId.text = id)
        (handedOff env leaseMs)) v).entries,
      r'.lineage = r.lineage ∧ r'.status = .handoffInflight := by
  induction ids generalizing v r with
  | nil => exact ⟨r, hr, rfl, hid.resolve_left (List.not_mem_nil)⟩
  | cons id ids ih =>
    by_cases hp : r.clientMessageId.text = id
    · exact ih (r := handedOff env leaseMs r)
        (mem_mapEntries.2 ⟨r, hr, Or.inl ⟨decide_eq_true hp, rfl⟩⟩) (Or.inr rfl)
    · refine ih (mem_mapEntries.2 ⟨r, hr, Or.inr ⟨by simpa using hp, rfl⟩⟩) ?_
      exact hid.imp_left fun h => (List.mem_cons.1 h).resolve_left hp

/-- **Both exceptions break the invariant at once.** -/
theorem not_apply (env : OpEnv) (s : SessionName) {op : SessionOp} (hop : ¬ op.KeepsMaterial v) :
    ¬ (op.apply env s v).MaterialFollows := by
  intro h
  refine hop ?_
  have hkept := h.kept
  rw [entries_apply] at hkept
  cases op with
  | dismissFailed id =>
    intro r hr hid hn
    -- the row is not failed, so the `UPDATE` leaves it; its material goes all the same
    have hr' : r ∈ ((SessionOp.dismissFailed id).change env s v).entries := by
      refine mem_mapEntries.2 ⟨r, hr, Or.inr ⟨?_, rfl⟩⟩
      simp [isFailed_of_isLive hn.1]
    obtain ⟨m, hm, hmr⟩ := hkept r hr' hn
    rw [material_apply] at hm
    exact of_decide_eq_true (List.mem_filter.1 hm).2 (hmr.trans hid)
  | markHandoffInFlight ids leaseMs =>
    intro r hr hid href
    obtain ⟨r', hr', hl, hst⟩ := live_of_handoff env leaseMs hr (Or.inl hid)
    have hrid : r'.clientMessageId = r.clientMessageId := congrArg (·.2.1) hl
    have hrref : r'.privateMaterialRef = r.privateMaterialRef := congrArg (·.2.2.2.2.2) hl
    obtain ⟨m, hm, hmr⟩ := hkept r' hr' ⟨by rw [hst]; rfl, by rwa [hrref]⟩
    rw [material_apply] at hm
    refine ⟨m, ?_, hmr.trans hrid⟩
    rwa [← material_handoff env leaseMs ids v]
  | _ => trivial

end SessionState.MaterialFollows

/-! ## Runs -/

section Runs

open SessionState

variable (localeCompare : Collation) (fault : Nat → Option (Fault StoreError))
  (as : List QueueAction) (s : SessionName)

/-- **Private dispatch material follows its entry** along every run in which no
call meets one of the two exceptions; a call that meets one and commits breaks
the invariant at once. -/
theorem private_material_follows :
    ((∀ pre a post op env, as = pre ++ a :: post → a.target = some (s, op, env) →
        op.KeepsMaterial ((connAfter localeCompare fault pre).data.session s)) →
      ((connAfter localeCompare fault as).data.session s).MaterialFollows) ∧
    ∀ a op env, a.target = some (s, op, env) →
      ¬ op.KeepsMaterial ((connAfter localeCompare fault as).data.session s) →
      (connAfter localeCompare fault (as ++ [a])).commits ≠
        (connAfter localeCompare fault as).commits →
      ¬ ((connAfter localeCompare fault (as ++ [a])).data.session s).MaterialFollows := by
  constructor
  · intro hkeeps
    induction as using List.reverseRecOn with
    | nil => exact MaterialFollows.empty
    | append_singleton as a ih =>
      have hih := ih fun pre b post op env h => hkeeps pre b (post ++ [a]) op env (by simp [h])
      rw [connAfter_snoc]
      cases (next_spec localeCompare fault as a).session s with
      | quiet h _ =>
        rcases h with h | ⟨env, -, now, h⟩
        · rwa [h]
        · rw [h]
          exact hih.congr rfl rfl
      | committed htarget _ _ h =>
        rw [h]
        exact hih.apply _ s (hkeeps as a [] _ _ rfl htarget)
  · intro a op env htarget hop hcommits
    rw [connAfter_snoc] at hcommits ⊢
    cases (next_spec localeCompare fault as a).session s with
    | quiet _ hquiet =>
      rcases hquiet with hquiet | hquiet
      · exact absurd hquiet hcommits
      · exact absurd htarget (hquiet op env)
    | committed htarget' _ _ h =>
      rw [htarget] at htarget'
      cases htarget'
      rw [h]
      exact MaterialFollows.not_apply env s hop

/-- A message is enqueued and fails, and is dismissed. -/
def dismissedRun : List QueueAction :=
  [.mutate (.enqueue (exampleInput "m")) (exampleEnv 0),
    .mutate (.markFailed "deck" "m" .dispatchFailed) (exampleEnv 0),
    .mutate (.dismissFailed "deck" "m") (exampleEnv 0)]

theorem private_material_follows_dismissedRun :
    ((connAfter (fun _ _ => 0) (fun _ => none) dismissedRun).data.session
      exampleSession).MaterialFollows := by
  refine (private_material_follows (fun _ _ => 0) (fun _ => none) dismissedRun exampleSession).1
    fun pre a post op env has htarget => ?_
  match pre, has with
  | [], has => cases has; cases htarget; trivial
  | [_], has => cases has; cases htarget; trivial
  | [_, _], has => cases has; cases htarget; decide
  | _ :: _ :: _ :: pre, has => simp [dismissedRun] at has

/-- A message is enqueued, and dismissed while it is queued. -/
def strippedRun : List QueueAction :=
  [.mutate (.enqueue (exampleInput "m")) (exampleEnv 0),
    .mutate (.dismissFailed "deck" "m") (exampleEnv 0)]

/-- **Private material does not follow its entry in every run**: a queued
message that is dismissed stays queued without its material. -/
theorem not_private_material_follows :
    ¬ ∀ (localeCompare : Collation) (fault : Nat → Option (Fault StoreError))
      (as : List QueueAction) (s : SessionName),
      ((connAfter localeCompare fault as).data.session s).MaterialFollows :=
  fun h => absurd (h (fun _ _ => 0) (fun _ => none) strippedRun exampleSession) (by decide)

end Runs

end Imcodes.Queue
