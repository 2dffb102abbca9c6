import Imcodes.Queue.Operations

/-!
# One session's queue, without the database

What a session has in the four tables is a `SessionState`, and what a method
does to it when its transaction commits is `SessionOp.apply`, a pure function.
The database plays no part here; `Imcodes.Queue.Refinement` shows that the
store's methods do exactly this.

* `version_apply` — every operation moves the version on by one.
* `lineage_apply` — an entry that is there after an operation was there before
  it, with the same id, placement, ordinal and private material reference, or
  it is the one just enqueued.
* `Ordered.apply` — the entries stay in the order of their ordinals.
-/

namespace Imcodes.Queue

/-- The rows of one session. -/
@[ext] structure SessionState where
  metaRow : Option MetaRow
  entries : List EntryRow
  material : List MaterialRow
  tombstones : List TombstoneRow
deriving DecidableEq

/-- What of an entry no operation changes. -/
def EntryRow.lineage (r : EntryRow) :
    SessionName × MessageId × QueuePlacement × Nat × Int × Option String :=
  (r.sessionName, r.clientMessageId, r.placement, r.ordinal, r.createdAt, r.privateMaterialRef)

/-- The part of the database that belongs to a session. -/
def Db.session (s : SessionName) (d : Db) : SessionState :=
  ⟨d.metaOf s, d.entriesOf s, d.materialOf s, d.tombstonesOf s⟩

namespace SessionState

/-- A session that the database has no row of. -/
def empty : SessionState := ⟨none, [], [], []⟩

/-- `pendingMessageVersion`, which is 0 before the first row of `queue_meta`. -/
def version (v : SessionState) : Nat := v.metaRow.elim 0 (·.pendingMessageVersion)

/-- `nextOrdinal`, which is 0 before the first row of `queue_meta`. -/
def nextOrdinal (v : SessionState) : Nat := v.metaRow.elim 0 (·.nextOrdinal)

/-- The row that `ensureMeta` returns. -/
def metaD (env : OpEnv) (s : SessionName) (now : Int) (v : SessionState) : MetaRow :=
  v.metaRow.getD ⟨s, env.queueEpoch, env.queueAuthorityId, 0, 0, now⟩

/-- After `ensureMeta`. -/
def ensured (env : OpEnv) (s : SessionName) (now : Int) (v : SessionState) : SessionState :=
  { v with metaRow := some (v.metaD env s now) }

theorem ensured_of_isSome {env : OpEnv} {s : SessionName} {now : Int} {v : SessionState}
    (h : v.metaRow.isSome) : v.ensured env s now = v := by
  obtain ⟨m, hm⟩ := Option.isSome_iff_exists.1 h
  refine SessionState.ext ?_ rfl rfl rfl
  rw [ensured, metaD, hm, Option.getD_some]

/-- After `bumpVersion`, with `ordinals` ordinals given away. -/
def bumped (env : OpEnv) (s : SessionName) (now : Int) (ordinals : Nat) (v : SessionState) :
    SessionState :=
  let m := v.metaD env s now
  { v with metaRow := some { m with
      pendingMessageVersion := m.pendingMessageVersion + 1
      nextOrdinal := m.nextOrdinal + ordinals
      updatedAt := now } }

/-- `UPDATE queue_entries` -/
def mapEntries (p : EntryRow → Bool) (f : EntryRow → EntryRow) (v : SessionState) : SessionState :=
  { v with entries := v.entries.map fun r => if p r then f r else r }

theorem mem_mapEntries {p : EntryRow → Bool} {f : EntryRow → EntryRow} {v : SessionState}
    {r' : EntryRow} :
    r' ∈ (v.mapEntries p f).entries ↔ ∃ r ∈ v.entries, p r ∧ r' = f r ∨ ¬ p r ∧ r' = r := by
  constructor
  · intro h
    obtain ⟨r, hr, rfl⟩ := List.mem_map.1 h
    refine ⟨r, hr, ?_⟩
    by_cases hp : p r
    · exact Or.inl ⟨hp, if_pos hp⟩
    · exact Or.inr ⟨hp, if_neg hp⟩
  · rintro ⟨r, hr, ⟨hp, rfl⟩ | ⟨hp, rfl⟩⟩
    · exact List.mem_map.2 ⟨r, hr, if_pos hp⟩
    · exact List.mem_map.2 ⟨r', hr, if_neg hp⟩

/-- `DELETE FROM queue_private_material` of one message -/
def withoutMaterial (id : MessageId) (v : SessionState) : SessionState :=
  { v with material := v.material.filter fun r => r.clientMessageId ≠ id }

/-- Both `DELETE`s of one message. -/
def without (id : MessageId) (v : SessionState) : SessionState :=
  { v.withoutMaterial id with entries := v.entries.filter fun r => r.clientMessageId ≠ id }

/-- `INSERT OR REPLACE INTO queue_private_material` -/
def putMaterial (r : MaterialRow) (v : SessionState) : SessionState :=
  { v with material := (v.material.filter fun x => x.clientMessageId ≠ r.clientMessageId) ++ [r] }

/-- `INSERT OR REPLACE INTO queue_delivery_tombstones` -/
def putTombstone (r : TombstoneRow) (v : SessionState) : SessionState :=
  { v with tombstones := (v.tombstones.filter fun x => x.key ≠ r.key) ++ [r] }

/-- What `readRows` returns. -/
def rows (v : SessionState) : List QueueStoredEntry :=
  match v.metaRow with
  | none => []
  | some m => (v.entries.map (parseStoredEntry m)).insertionSort
      fun a b => a.position.OrderByLe b.position

/-- The snapshot shows this state of the session. -/
def Shows (localeCompare : Collation) (s : SessionName) (v : SessionState) (x : QueueSnapshot) :
    Prop :=
  ∃ m source why, v.metaRow = some m ∧
    x = buildSnapshot localeCompare s source m.version why v.rows

/-- Delivered: a tombstone, and both `DELETE`s. -/
def delivered (s : SessionName) (epoch : Uuid) (deliveryFrameId : String) (now : Int)
    (v : SessionState) (id : MessageId) : SessionState :=
  (v.putTombstone ⟨s, epoch, id, deliveryFrameId, now⟩).without id

end SessionState

/-- The operations on a session, with their arguments normalised. -/
inductive SessionOp
  | enqueue (input : EnqueueTransportQueueEntryInput) (evict : Option MessageId)
  | edit (id : MessageId) (text : String)
  | markHandoffInFlight (clientMessageIds : List String) (leaseMs : Int)
  | markMissingPrivateMaterialFailed (id : MessageId)
  | finalizeSentBatch (ids : List MessageId) (deliveryFrameId : String)
  | markDeleted (id : MessageId)
  | markFailed (id : MessageId) (failureReason : QueueFailureReason)
  | dismissFailed (id : MessageId)
  | cleanup
  | drop (id : MessageId)
  | dropAll
  | reset
  | restoreExpiredHandoffs
deriving DecidableEq

namespace SessionOp

open SessionState

/-- A row after `markHandoffInFlight`. -/
def handedOff (env : OpEnv) (leaseMs : Int) (r : EntryRow) : EntryRow :=
  { r with
    status := .handoffInflight
    handoffId := some env.handoffId
    handoffStartedAt := some env.now
    handoffExpiresAt := some (env.now + leaseMs)
    handoffAttempt := some (r.handoffAttempt.getD 0 + 1)
    updatedAt := env.now }

/-- What enqueueing adds to the rows that are kept. -/
def push (env : OpEnv) (s : SessionName) (input : EnqueueTransportQueueEntryInput) (now : Int)
    (v : SessionState) : SessionState :=
  let v := { v with entries := v.entries ++ [input.row env s now v.nextOrdinal] }
  input.privateMaterialJson.elim v fun material =>
    v.putMaterial ⟨s, input.messageId env, material, now⟩

/-- What an operation does to the rows of its session, before `bumpVersion`. -/
def change (env : OpEnv) (s : SessionName) : SessionOp → SessionState → SessionState
  | .enqueue input evict, v =>
      push env s input (input.now.getD env.now) (evict.elim v v.without)
  | .edit id text, v =>
      v.mapEntries (hasId id) fun r => { r with text := text, updatedAt := env.now }
  | .markHandoffInFlight ids leaseMs, v =>
      ids.foldl (fun v id => v.mapEntries (fun r => r.clientMessageId.text = id)
        (handedOff env leaseMs)) v
  | .markMissingPrivateMaterialFailed id, v =>
      (v.mapEntries (hasId id) fun r => { r with
        status := .failed
        failureReason := some .privateMaterialMissing
        dropReason := some .privateMaterialMissing
        updatedAt := env.now }).withoutMaterial id
  | .finalizeSentBatch ids frame, v =>
      ids.foldl (SessionState.delivered s (v.metaD env s env.now).queueEpoch frame env.now) v
  | .markDeleted id, v =>
      (v.mapEntries (hasId id) fun r => { r with
        status := .deleted
        updatedAt := env.now }).withoutMaterial id
  | .markFailed id reason, v =>
      v.mapEntries (hasId id) fun r => { r with
        status := .failed
        failureReason := some reason
        updatedAt := env.now }
  | .dismissFailed id, v =>
      (v.mapEntries (fun r => hasId id r && r.status.isFailed) fun r => { r with
        status := .dismissed
        updatedAt := env.now }).withoutMaterial id
  | .cleanup, v =>
      let kept := v.entries.filter fun r => !isSettled r.status
      { v with
        entries := kept
        material := v.material.filter fun r =>
          kept.any fun e => e.clientMessageId = r.clientMessageId }
  | .drop id, v => v.without id
  | .dropAll, v => { v with entries := [], material := [] }
  | .reset, v => { v with entries := [], material := [], tombstones := [] }
  | .restoreExpiredHandoffs, v =>
      v.mapEntries (hasExpiredHandoff env.now) fun r => { r with
        status := .queued
        handoffId := none
        handoffStartedAt := none
        handoffExpiresAt := none
        updatedAt := env.now }

/-- The time an operation writes into `updated_at`. -/
def stamp (env : OpEnv) : SessionOp → Int
  | .enqueue input _ => input.now.getD env.now
  | _ => env.now

/-- How many ordinals an operation gives away. -/
def ordinals : SessionOp → Nat
  | .enqueue .. => 1
  | _ => 0

/-- What an operation does to a session when its transaction commits. -/
def apply (env : OpEnv) (s : SessionName) (op : SessionOp) (v : SessionState) : SessionState :=
  match op with
  | .reset => { op.change env s v with
      metaRow := some ⟨s, env.queueEpoch, env.queueAuthorityId, v.version + 1, 0, env.now⟩ }
  | op => (op.change env s v).bumped env s (op.stamp env) op.ordinals

/-! ## The version -/

theorem apply_of_ne_reset {env : OpEnv} {s : SessionName} {op : SessionOp} {v : SessionState}
    (h : op ≠ .reset) :
    op.apply env s v = (op.change env s v).bumped env s (op.stamp env) op.ordinals := by
  cases op with
  | reset => exact absurd rfl h
  | _ => rfl

theorem metaRow_change (env : OpEnv) (s : SessionName) (op : SessionOp) (v : SessionState) :
    (op.change env s v).metaRow = v.metaRow := by
  cases op with
  | enqueue input evict => cases evict <;> cases h : input.privateMaterialJson <;> simp [change,
      push, h, putMaterial, without, withoutMaterial]
  | markHandoffInFlight ids leaseMs =>
    simp only [change]
    induction ids generalizing v with
    | nil => rfl
    | cons id ids ih => rw [List.foldl_cons, ih]; rfl
  | finalizeSentBatch ids frame =>
    simp only [change]
    generalize (v.metaD env s env.now).queueEpoch = epoch
    induction ids generalizing v with
    | nil => rfl
    | cons id ids ih => rw [List.foldl_cons, ih]; rfl
  | _ => rfl

/-- An operation leaves a row in `queue_meta`. -/
theorem isSome_metaRow_apply (env : OpEnv) (s : SessionName) (op : SessionOp)
    (v : SessionState) : (op.apply env s v).metaRow.isSome := by
  cases op <;> rfl

theorem version_bumped (env : OpEnv) (s : SessionName) (now : Int) (n : Nat) (v : SessionState) :
    (v.bumped env s now n).version = v.version + 1 := by
  simp only [bumped, SessionState.version, metaD, Option.elim_some]
  cases v.metaRow <;> rfl

theorem nextOrdinal_bumped (env : OpEnv) (s : SessionName) (now : Int) (n : Nat)
    (v : SessionState) : (v.bumped env s now n).nextOrdinal = v.nextOrdinal + n := by
  simp only [bumped, SessionState.nextOrdinal, metaD, Option.elim_some]
  cases v.metaRow <;> simp

/-- Every operation moves the version on by one. -/
theorem version_apply (env : OpEnv) (s : SessionName) (op : SessionOp) (v : SessionState) :
    (op.apply env s v).version = v.version + 1 := by
  have h : (op.change env s v).version = v.version := by
    rw [SessionState.version, metaRow_change, SessionState.version]
  by_cases hop : op = .reset
  · subst hop
    rfl
  · rw [apply_of_ne_reset hop, version_bumped, h]

/-- Only a reset changes the epoch and the authority of a session. -/
theorem epoch_apply {env : OpEnv} {s : SessionName} {op : SessionOp} {v : SessionState}
    (hop : op ≠ .reset) :
    ∃ m, (op.apply env s v).metaRow = some m ∧
      m.queueEpoch = (v.metaD env s (op.stamp env)).queueEpoch ∧
      m.queueAuthorityId = (v.metaD env s (op.stamp env)).queueAuthorityId := by
  have h : (op.change env s v).metaD env s (op.stamp env) = v.metaD env s (op.stamp env) := by
    rw [metaD, metaRow_change, metaD]
  rw [apply_of_ne_reset hop]
  exact ⟨_, rfl, by rw [← h], by rw [← h]⟩

/-! ## Entries -/

/-- The row that an operation inserts. -/
def enqueued (env : OpEnv) (s : SessionName) (v : SessionState) : SessionOp → List EntryRow
  | .enqueue input _ => [input.row env s (input.now.getD env.now) v.nextOrdinal]
  | _ => []

/-- An `UPDATE` that keeps lineages keeps the list of them. -/
theorem lineage_mapEntries (p : EntryRow → Bool) {f : EntryRow → EntryRow}
    (hf : ∀ r, (f r).lineage = r.lineage) (v : SessionState) :
    ((v.mapEntries p f).entries.map EntryRow.lineage).Sublist
      ((v.entries ++ []).map EntryRow.lineage) := by
  have h : EntryRow.lineage ∘ (fun r => if p r then f r else r) = EntryRow.lineage := by
    funext r
    by_cases hp : p r <;> simp [hp, hf]
  simp only [mapEntries, List.map_map, h, List.append_nil]
  exact List.Sublist.refl _

theorem push_entries (env : OpEnv) (s : SessionName) (input : EnqueueTransportQueueEntryInput)
    (now : Int) (v : SessionState) :
    (push env s input now v).entries = v.entries ++ [input.row env s now v.nextOrdinal] := by
  cases h : input.privateMaterialJson <;> simp [push, h, putMaterial]

/-- The entries after an operation are some of those before it, in the same
order, followed by the one just enqueued. -/
theorem lineage_change (env : OpEnv) (s : SessionName) (op : SessionOp) (v : SessionState) :
    ((op.change env s v).entries.map EntryRow.lineage).Sublist
      ((v.entries ++ op.enqueued env s v).map EntryRow.lineage) := by
  cases op with
  | enqueue input evict =>
    simp only [change, push_entries, enqueued]
    cases evict with
    | none => exact List.Sublist.refl _
    | some id => exact (List.filter_sublist.append_right _).map _
  | markHandoffInFlight ids leaseMs =>
    simp only [change, enqueued]
    induction ids generalizing v with
    | nil => rw [List.append_nil]; exact List.Sublist.refl _
    | cons id ids ih =>
      refine (ih _).trans ?_
      rw [List.append_nil]
      refine lineage_mapEntries _ ?_ v
      exact fun _ => rfl
  | finalizeSentBatch ids frame =>
    simp only [change, enqueued, List.append_nil]
    generalize (v.metaD env s env.now).queueEpoch = epoch
    induction ids generalizing v with
    | nil => exact List.Sublist.refl _
    | cons id ids ih => exact (ih _).trans (List.filter_sublist.map _)
  | cleanup | drop id =>
    simp only [enqueued, List.append_nil]
    exact List.filter_sublist.map _
  | dropAll | reset => exact List.nil_sublist _
  | _ =>
    refine lineage_mapEntries _ ?_ v
    exact fun _ => rfl

theorem mem_of_mem_delivered {s : SessionName} {epoch : Uuid} {frame : String} {now : Int}
    {ids : List MessageId} {v : SessionState} {r : EntryRow}
    (hr : r ∈ (ids.foldl (SessionState.delivered s epoch frame now) v).entries) :
    r ∈ v.entries := by
  induction ids generalizing v with
  | nil => exact hr
  | cons id ids ih => exact List.mem_of_mem_filter (ih hr)

/-- What is delivered is gone. -/
theorem gone_of_finalize {env : OpEnv} {s : SessionName} {ids : List MessageId} {frame : String}
    {v : SessionState} {id : MessageId} (hid : id ∈ ids) :
    ∀ r ∈ ((finalizeSentBatch ids frame).apply env s v).entries, r.clientMessageId ≠ id := by
  rw [apply_of_ne_reset (by simp)]
  simp only [change, bumped]
  generalize (v.metaD env s env.now).queueEpoch = epoch
  induction ids generalizing v with
  | nil => cases hid
  | cons i ids ih =>
    rw [List.foldl_cons]
    rcases List.mem_cons.1 hid with rfl | hid
    · -- the row goes now, and what comes later only takes more away
      intro r hr
      exact of_decide_eq_true (List.mem_filter.1 (mem_of_mem_delivered hr)).2
    · exact ih hid

theorem entries_apply (env : OpEnv) (s : SessionName) (op : SessionOp) (v : SessionState) :
    (op.apply env s v).entries = (op.change env s v).entries := by
  cases op <;> rfl

theorem material_apply (env : OpEnv) (s : SessionName) (op : SessionOp) (v : SessionState) :
    (op.apply env s v).material = (op.change env s v).material := by
  cases op <;> rfl

/-- **An entry keeps its identity.**  Whatever is there after an operation was
there before it, or has just been enqueued. -/
theorem lineage_apply {env : OpEnv} {s : SessionName} {op : SessionOp} {v : SessionState}
    {r : EntryRow} (hr : r ∈ (op.apply env s v).entries) :
    ∃ r₀, (r₀ ∈ v.entries ∨ r₀ ∈ op.enqueued env s v) ∧ r₀.lineage = r.lineage := by
  rw [entries_apply] at hr
  have h := (lineage_change env s op v).subset (List.mem_map_of_mem hr)
  obtain ⟨r₀, hr₀, h₀⟩ := List.mem_map.1 h
  exact ⟨r₀, List.mem_append.1 hr₀, h₀⟩

end SessionOp

namespace SessionState

/-- The entries are in the order of their ordinals, and the next ordinal is
above all of them. -/
def Ordered (v : SessionState) : Prop :=
  (v.entries.map (·.ordinal) ++ [v.nextOrdinal]).Pairwise (· < ·)

theorem Ordered.empty : Ordered .empty := List.pairwise_singleton _ _

/-- The entries stay in the order of their ordinals. -/
theorem Ordered.apply {v : SessionState} (h : v.Ordered) (env : OpEnv) (s : SessionName)
    (op : SessionOp) : (op.apply env s v).Ordered := by
  by_cases hop : op = .reset
  · subst hop
    exact List.pairwise_singleton _ _
  · have hnext : (op.apply env s v).nextOrdinal = v.nextOrdinal + op.ordinals := by
      rw [SessionOp.apply_of_ne_reset hop, SessionOp.nextOrdinal_bumped, nextOrdinal,
        SessionOp.metaRow_change, nextOrdinal]
    -- the ordinals after the operation are a sublist of the old ones and the new one
    have hsub : ((op.apply env s v).entries.map (·.ordinal)).Sublist
        (v.entries.map (·.ordinal) ++ (op.enqueued env s v).map (·.ordinal)) := by
      rw [SessionOp.entries_apply, ← List.map_append]
      have h := (SessionOp.lineage_change env s op v).map (fun l => l.2.2.2.1)
      rwa [List.map_map, List.map_map] at h
    rw [Ordered, hnext]
    refine List.Pairwise.sublist (hsub.append_right _) ?_
    cases op with
    | enqueue input evict =>
      simp only [SessionOp.enqueued, List.map_cons, List.map_nil, SessionOp.ordinals]
      refine List.pairwise_append.2 ⟨h, List.pairwise_singleton _ _, ?_⟩
      intro a ha b hb
      rw [List.mem_singleton.1 hb]
      rcases List.mem_append.1 ha with ha | ha
      · have := (List.pairwise_append.1 h).2.2 a ha _ (List.mem_singleton_self _)
        omega
      · rw [List.mem_singleton.1 ha]
        exact Nat.lt_succ_self _
    | _ =>
      simp only [SessionOp.enqueued, SessionOp.ordinals, List.map_nil, List.append_nil, Nat.add_zero]
      exact h

end SessionState

end Imcodes.Queue
