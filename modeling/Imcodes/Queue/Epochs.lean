import Imcodes.Queue.Convergence

/-!
# The reducer across resets

A reset begins a new epoch, and the version goes on counting.  The reducer
compares versions inside an epoch only: a snapshot of another epoch is applied
whenever it gives a reason.

* `never_goes_back_iff` — a consumer of a session's snapshots never goes back to
  an older version or to an epoch it has left, exactly when no snapshot of
  another epoch reaches it that a newer one has overtaken.
-/

namespace Imcodes.Queue

open Relational

/-- The snapshot begins another epoch than the consumer's, and is older than
what the consumer holds. -/
def QueueSnapshot.Overtaken (x : QueueSnapshot) (state : TransportQueueReducerState) : Prop :=
  ∃ b, hasBaseline state = some b ∧ x.header.Resets b ∧
    x.pendingMessageVersion < b.pendingMessageVersion

/-- A consumer that has received these snapshots. -/
def shown (localeCompare : Collation) (name : Option String) (received : List QueueSnapshot) :
    TransportQueueReducerState :=
  reduceEvents localeCompare (createTransportQueueReducerState name)
    (received.map QueueEvent.snapshot)

/-- What the consumer holds never gets older while it receives the snapshots. -/
structure NeverGoesBack (localeCompare : Collation) (name : Option String)
    (received : List QueueSnapshot) : Prop where
  /-- Once a snapshot is applied, its version is never undercut. -/
  version : ∀ before x after, before ++ x :: after <+: received →
    canApplySnapshot (shown localeCompare name before) x.header = none →
    ∃ n, (shown localeCompare name (before ++ x :: after)).pendingMessageVersion = some n ∧
      x.pendingMessageVersion ≤ n
  /-- An epoch that has been left is not adopted again. -/
  epoch : ∀ before between after, before ++ between ++ after <+: received →
    (shown localeCompare name (before ++ between)).queueEpoch ≠
      (shown localeCompare name before).queueEpoch →
    (shown localeCompare name (before ++ between ++ after)).queueEpoch ≠
      (shown localeCompare name before).queueEpoch

section Consumer

variable {localeCompare : Collation} {name : Option String} {received : List QueueSnapshot}
  {x : QueueSnapshot}

theorem shown_snoc (localeCompare : Collation) (name : Option String)
    (received : List QueueSnapshot) (x : QueueSnapshot) :
    shown localeCompare name (received ++ [x]) =
      applySnapshot localeCompare (shown localeCompare name received) x := by
  rw [shown, List.map_append, List.map_singleton, reduceEvents_snoc]
  rfl

/-- A snapshot an emission can bring. -/
structure QueueSnapshot.Named (x : QueueSnapshot) : Prop where
  queueEpoch : x.queueEpoch ≠ ""
  queueAuthorityId : x.queueAuthorityId ≠ ""

/-- What a consumer holds is what the last snapshot that was applied has brought. -/
theorem shown_cases (localeCompare : Collation) (name : Option String)
    (hnamed : ∀ x ∈ received, x.Named) :
    (received = [] ∧ (shown localeCompare name received).queueEpoch = none) ∨
      ∃ before x after, received = before ++ x :: after ∧
        canApplySnapshot (shown localeCompare name before) x.header = none ∧
        hasBaseline (shown localeCompare name received) = some x.baseline := by
  induction received using List.reverseRecOn with
  | nil => exact Or.inl ⟨rfl, rfl⟩
  | append_singleton received x ih =>
    right
    by_cases happ : canApplySnapshot (shown localeCompare name received) x.header = none
    · refine ⟨received, x, [], rfl, happ, ?_⟩
      rw [shown_snoc]
      exact hasBaseline_of_applied localeCompare happ
    · rcases ih fun y hy => hnamed y (List.mem_append_left _ hy) with
        ⟨rfl, -⟩ | ⟨before, y, after, rfl, hy, hb⟩
      · -- the first snapshot is always applied
        have hx := hnamed x (by simp)
        refine absurd (canApplySnapshot_eq_none_iff.2 ⟨hx.queueEpoch, hx.queueAuthorityId,
          fun b hb => ?_⟩) happ
        cases hb
      · obtain ⟨reason, hr⟩ := applySnapshot_of_rejected localeCompare happ
        exact ⟨before, y, after ++ [x], by simp, hy, by rw [shown_snoc, hr]; exact hb⟩

/-- A snapshot that is not overtaken takes the consumer on. -/
theorem baseline_le_of_not_overtaken (localeCompare : Collation)
    {state : TransportQueueReducerState} {b : Baseline} (hb : hasBaseline state = some b) (hx : ¬ x.Overtaken state) :
    ∃ b', hasBaseline (applySnapshot localeCompare state x) = some b' ∧
      b.pendingMessageVersion ≤ b'.pendingMessageVersion := by
  by_cases happ : canApplySnapshot state x.header = none
  · refine ⟨_, hasBaseline_of_applied localeCompare happ, ?_⟩
    rcases (canApplySnapshot_eq_none_iff.1 happ).2.2 b hb with hc | hr
    · exact hc.2.2
    · by_contra hlt
      exact hx ⟨b, hb, hr, Nat.lt_of_not_le hlt⟩
  · obtain ⟨reason, hr⟩ := applySnapshot_of_rejected localeCompare happ
    rw [hr]
    exact ⟨b, hb, le_rfl⟩

/-- A run of snapshots that are not overtaken takes the consumer on. -/
theorem baseline_le_of_append (after : List QueueSnapshot) {before : List QueueSnapshot}
    {b : Baseline} (hb : hasBaseline (shown localeCompare name before) = some b)
    (hnot : ∀ mid x rest, after = mid ++ x :: rest →
      ¬ x.Overtaken (shown localeCompare name (before ++ mid))) :
    ∃ b', hasBaseline (shown localeCompare name (before ++ after)) = some b' ∧
      b.pendingMessageVersion ≤ b'.pendingMessageVersion := by
  induction after using List.reverseRecOn with
  | nil => exact ⟨b, by rwa [List.append_nil], le_rfl⟩
  | append_singleton after x ih =>
    obtain ⟨b₁, hb₁, hle₁⟩ := ih fun mid y rest h => hnot mid y (rest ++ [x]) (by simp [h])
    obtain ⟨b₂, hb₂, hle₂⟩ :=
      baseline_le_of_not_overtaken localeCompare hb₁ (hnot after x [] rfl)
    refine ⟨b₂, ?_, hle₁.trans hle₂⟩
    rw [← List.append_assoc, shown_snoc]
    exact hb₂

/-- A consumer that holds an epoch of the store never adopts a fallback. -/
theorem ne_unavailable_of_append {before after : List QueueSnapshot} {b : Baseline}
    (hb : hasBaseline (shown localeCompare name before) = some b)
    (hne : b.queueEpoch ≠ "unavailable")
    (hafter : ∀ x ∈ after, x.queueEpoch = "unavailable" → x.IsFallback) :
    ∃ b', hasBaseline (shown localeCompare name (before ++ after)) = some b' ∧
      b'.queueEpoch ≠ "unavailable" := by
  induction after using List.reverseRecOn with
  | nil => exact ⟨b, by rwa [List.append_nil], hne⟩
  | append_singleton after x ih =>
    obtain ⟨b₁, hb₁, hne₁⟩ := ih fun y hy => hafter y (List.mem_append_left _ hy)
    rw [← List.append_assoc, shown_snoc]
    by_cases happ : canApplySnapshot (shown localeCompare name (before ++ after)) x.header = none
    · refine ⟨_, hasBaseline_of_applied localeCompare happ, fun hx => ?_⟩
      have hxf := hafter x (by simp) hx
      have hforeign : x.queueEpoch ≠ b₁.queueEpoch := fun h => hne₁ (h.symm.trans hx)
      exact rejected_of_foreign hb₁ hforeign hxf.2.2.2.2.2.2 happ
    · obtain ⟨reason, hr⟩ := applySnapshot_of_rejected localeCompare happ
      rw [hr, hasBaseline_withDegraded]
      exact ⟨b₁, hb₁, hne₁⟩

end Consumer

/-! ## The snapshots of a run -/

section Runs

variable {localeCompare : Collation} {fault : Nat → Option (Fault StoreError)}
  {as : List QueueAction} {s : SessionName} {name : Option String}
  {received : List QueueSnapshot} {x : QueueSnapshot}

/-- An emitted snapshot is of an epoch of the store, or the fallback. -/
theorem named_of_mem_eventsOf (hx : .snapshot x ∈ eventsOf localeCompare fault as)
    (hs : x.sessionName = s.name) : x.Named ∧ (x.queueEpoch = "unavailable" ↔ x.IsFallback) := by
  rcases snapshot_recorded localeCompare fault as s hx hs with hf | hrec
  · refine ⟨⟨?_, ?_⟩, fun _ => hf, fun h => h.1⟩
    · rw [hf.1]
      decide
    · rw [hf.2.1]
      decide
  · have he := ne_unavailable_of_length hrec.epoch
    exact ⟨⟨he.2, (ne_unavailable_of_length hrec.authority).2⟩, fun h => absurd h he.1,
      fun h => h.1⟩

/-- Epochs do not come back while versions go up. -/
theorem epochs_convex (hfresh : FreshEpochs as) {x y z : QueueSnapshot}
    (hx : .snapshot x ∈ eventsOf localeCompare fault as) (hxs : x.sessionName = s.name)
    (hy : .snapshot y ∈ eventsOf localeCompare fault as) (hys : y.sessionName = s.name)
    (hz : .snapshot z ∈ eventsOf localeCompare fault as) (hzs : z.sessionName = s.name)
    (hxf : ¬ x.IsFallback) (hyf : ¬ y.IsFallback) (hzf : ¬ z.IsFallback)
    (hxy : x.pendingMessageVersion ≤ y.pendingMessageVersion)
    (hyz : y.pendingMessageVersion ≤ z.pendingMessageVersion)
    (hne : y.queueEpoch ≠ x.queueEpoch) : z.queueEpoch ≠ x.queueEpoch := by
  intro hzx
  have hlt := (epochsOf_run localeCompare fault as s hfresh).apart x.stamp y.stamp z.stamp
    ⟨_, hx, .snapshot hxf, hxs⟩ ⟨_, hy, .snapshot hyf, hys⟩ ⟨_, hz, .snapshot hzf, hzs⟩ hzx hne hxy
  exact absurd hlt (Nat.not_lt_of_le hyz)

/-- An epoch that a consumer has left is not adopted again, when no snapshot is
overtaken. -/
theorem not_adopted_again (hfresh : FreshEpochs as) {before between after : List QueueSnapshot}
    (hreceived : ∀ x ∈ before ++ between ++ after,
      .snapshot x ∈ eventsOf localeCompare fault as ∧ x.sessionName = s.name)
    (hnot : ∀ pre x post, before ++ between ++ after = pre ++ x :: post →
      ¬ x.Overtaken (shown localeCompare name pre))
    (hleft : (shown localeCompare name (before ++ between)).queueEpoch ≠
      (shown localeCompare name before).queueEpoch) :
    (shown localeCompare name (before ++ between ++ after)).queueEpoch ≠
      (shown localeCompare name before).queueEpoch := by
  have hemitted (x : QueueSnapshot) (hx : x ∈ before ++ between ++ after) :=
    named_of_mem_eventsOf (hreceived x hx).1 (hreceived x hx).2
  have hnamed : ∀ x ∈ before ++ between ++ after, x.Named := fun x hx => (hemitted x hx).1
  have hfallback (l : List QueueSnapshot) (hl : l ⊆ before ++ between ++ after) :
      ∀ x ∈ l, x.queueEpoch = "unavailable" → x.IsFallback :=
    fun x hx he => (hemitted x (hl hx)).2.1 he
  have hbetween : before ++ between ⊆ before ++ between ++ after := fun x => List.mem_append_left _
  have hbefore : before ⊆ before ++ between ++ after := fun x hx =>
    hbetween (List.mem_append_left _ hx)
  intro hback
  -- the snapshots that brought the three baselines
  rcases shown_cases localeCompare name (fun x hx => hnamed x (hbetween hx)) with
    ⟨hnil, hnone⟩ | ⟨y₁, y, y₂, hy, -, hyb⟩
  · obtain ⟨rfl, rfl⟩ := List.append_eq_nil_iff.1 hnil
    exact hleft rfl
  obtain ⟨b, hb, hyz⟩ := baseline_le_of_append after hyb fun mid w rest h =>
    hnot (before ++ between ++ mid) w rest (by simp [h])
  rcases shown_cases localeCompare name hnamed with ⟨hnil, -⟩ | ⟨z₁, z, z₂, hz, -, hzb⟩
  · rw [hnil] at hb
    cases hb
  rw [hzb] at hb
  cases hb
  rcases shown_cases localeCompare name (fun x hx => hnamed x (hbefore hx)) with
    ⟨-, hnone⟩ | ⟨x₁, x, x₂, hx, -, hxb⟩
  · rw [hnone, (hasBaseline_eq_some.1 hzb).1] at hback
    cases hback
  obtain ⟨b, hb, hxy⟩ := baseline_le_of_append between hxb fun mid w rest h =>
    hnot (before ++ mid) w (rest ++ after) (by simp [h])
  rw [hyb] at hb
  cases hb
  rw [(hasBaseline_eq_some.1 hyb).1, (hasBaseline_eq_some.1 hxb).1] at hleft
  rw [(hasBaseline_eq_some.1 hzb).1, (hasBaseline_eq_some.1 hxb).1] at hback
  have hyx : y.queueEpoch ≠ x.queueEpoch := fun h => hleft (congrArg some h)
  have hzx : z.queueEpoch = x.queueEpoch := Option.some.inj hback
  have hxm : x ∈ before ++ between ++ after := hbefore (by simp [hx])
  have hym : y ∈ before ++ between ++ after := hbetween (by simp [hy])
  have hzm : z ∈ before ++ between ++ after := by simp [hz]
  -- none of the three is a fallback
  have hxf : ¬ x.IsFallback := by
    intro hxf
    obtain ⟨b, hb, hne⟩ := ne_unavailable_of_append hyb (fun h => hyx (h.trans hxf.1.symm))
      (hfallback after fun w => List.mem_append_right _)
    rw [hzb] at hb
    cases hb
    exact hne (hzx.trans hxf.1)
  have hxne : x.queueEpoch ≠ "unavailable" := fun h => hxf ((hemitted x hxm).2.1 h)
  have hyf : ¬ y.IsFallback := by
    intro hyf
    obtain ⟨b, hb, hne⟩ := ne_unavailable_of_append hxb hxne
      (hfallback between fun w hw => hbetween (List.mem_append_right _ hw))
    rw [hyb] at hb
    cases hb
    exact hne hyf.1
  have hzf : ¬ z.IsFallback := fun hzf => hxne (hzx.symm.trans hzf.1)
  exact epochs_convex hfresh (hreceived x hxm).1 (hreceived x hxm).2 (hreceived y hym).1
    (hreceived y hym).2 (hreceived z hzm).1 (hreceived z hzm).2 hxf hyf hzf hxy hyz hyx hzx

/-- A session is reset twice. -/
def resetRun : List QueueAction :=
  [.mutate (.reset "deck" .userClear none) (exampleEnv 0),
    .mutate (.reset "deck" .userClear none) (exampleEnv 2)]

/-- What the resets of `resetRun` answer. -/
def firstReset : QueueSnapshot where
  sessionName := "deck"
  queueEpoch := (exampleEnv 0).queueEpoch.text
  queueAuthorityId := (exampleEnv 0).queueAuthorityId.text
  pendingMessageVersion := 1
  pendingMessageEntries := []
  failedMessageEntries := []
  source := "reset"
  resetReason := some .userClear

def secondReset : QueueSnapshot :=
  { firstReset with
    queueEpoch := (exampleEnv 2).queueEpoch.text
    queueAuthorityId := (exampleEnv 2).queueAuthorityId.text
    pendingMessageVersion := 2 }

/-- **A consumer never goes back exactly when no overtaken snapshot of another
epoch reaches it.** -/
theorem never_goes_back_iff (localeCompare : Collation) (fault : Nat → Option (Fault StoreError))
    (as : List QueueAction) (s : SessionName) (received : List QueueSnapshot)
    (name : Option String) (hfresh : FreshEpochs as)
    (hreceived : ∀ x ∈ received,
      .snapshot x ∈ eventsOf localeCompare fault as ∧ x.sessionName = s.name) :
    NeverGoesBack localeCompare name received ↔
      ∀ before x after, received = before ++ x :: after →
        ¬ x.Overtaken (shown localeCompare name before) := by
  have hnamed : ∀ x ∈ received, x.Named := fun x hx =>
    (named_of_mem_eventsOf (hreceived x hx).1 (hreceived x hx).2).1
  constructor
  · rintro h before x after rfl ⟨b, hb, hr, hlt⟩
    -- what the consumer held came with a snapshot that `x` undercuts
    rcases shown_cases localeCompare name fun z hz => hnamed z (List.mem_append_left _ hz) with
      ⟨rfl, -⟩ | ⟨y₁, y, y₂, rfl, hy, hyb⟩
    · cases hb
    rw [hb] at hyb
    cases hyb
    have hx := hnamed x (by simp)
    have happ : canApplySnapshot (shown localeCompare name (y₁ ++ y :: y₂)) x.header = none := by
      refine canApplySnapshot_eq_none_iff.2 ⟨hx.queueEpoch, hx.queueAuthorityId, fun b' hb' => ?_⟩
      rw [hb] at hb'
      cases hb'
      exact Or.inr hr
    obtain ⟨n, hn, hle⟩ := h.version y₁ y (y₂ ++ [x]) ⟨after, by simp⟩ hy
    have hxb := hasBaseline_of_applied localeCompare happ
    rw [← shown_snoc, List.append_assoc, List.cons_append] at hxb
    rw [(hasBaseline_eq_some.1 hxb).2.2.2.2] at hn
    cases hn
    exact absurd hlt (Nat.not_lt_of_le hle)
  · intro hnot
    refine ⟨?_, ?_⟩
    · rintro before x after ⟨rest, rfl⟩ happ
      have hxb := hasBaseline_of_applied localeCompare happ
      rw [← shown_snoc] at hxb
      obtain ⟨b, hb, hle⟩ := baseline_le_of_append after hxb fun mid y rest' h =>
        hnot (before ++ [x] ++ mid) y (rest' ++ rest) (by simp [h])
      rw [List.append_assoc, List.singleton_append] at hb
      exact ⟨_, (hasBaseline_eq_some.1 hb).2.2.2.2, hle⟩
    · rintro before between after ⟨rest, rfl⟩ hleft
      exact not_adopted_again hfresh (fun x hx => hreceived x (List.mem_append_left _ hx))
        (fun pre x post h => hnot pre x (post ++ rest) (by simp [h])) hleft

theorem never_goes_back_iff_resetRun :
    NeverGoesBack (fun _ _ => 0) none [firstReset, secondReset] := by
  refine (never_goes_back_iff (fun _ _ => 0) (fun _ => none) resetRun exampleSession
    [firstReset, secondReset] none (by unfold FreshEpochs; decide) (by decide)).2
    fun before x after h => ?_
  rintro ⟨b, hb, -, hlt⟩
  match before, h with
  | [], h => cases hb
  | [_], h =>
    cases h
    cases hb
    exact absurd hlt (by decide)
  | _ :: _ :: before, h => simp at h

/-- **A consumer does go back to an older epoch**: to that of the first reset,
when its snapshot arrives after the one of the second. -/
theorem goes_back :
    ¬ ∀ (localeCompare : Collation) (fault : Nat → Option (Fault StoreError))
      (as : List QueueAction) (s : SessionName) (received : List QueueSnapshot)
      (name : Option String), FreshEpochs as →
      (∀ x ∈ received, .snapshot x ∈ eventsOf localeCompare fault as ∧ x.sessionName = s.name) →
      NeverGoesBack localeCompare name received := by
  intro h
  have hback := h (fun _ _ => 0) (fun _ => none) resetRun exampleSession
    [firstReset, secondReset, firstReset] none (by unfold FreshEpochs; decide) (by decide)
  exact absurd (hback.epoch [firstReset] [secondReset] [firstReset] ⟨[], rfl⟩ (by decide))
    (by decide)

end Runs

end Imcodes.Queue
