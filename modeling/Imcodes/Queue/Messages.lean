import Imcodes.Queue.Runs
import Imcodes.Queue.Working

/-!
# What becomes of one message

The operations of a session change the rows of messages, and what they make of a row depends on
that row alone.  So the queue is as many machines as there are messages, each with one row or none;
they share the clock, the fresh ids and the next ordinal.

* `rowOf_apply` — an operation on a session does to the row of each message what `changeRow` says.
* `message_run` — **after any run, whatever fails**, the row of a message is what the committed
  operations have made of it.
* `accounted_run` — **no message vanishes**: a row stays, under its ordinal and with the text that it
  was given last, until a call that removes it is committed, and what was delivered has a tombstone.
-/

namespace Imcodes.Queue

open Relational SessionState

/-! ## One row -/

/-- The row of a message. -/
def SessionState.rowOf (v : SessionState) (id : MessageId) : Option EntryRow :=
  v.entries.find? (hasId id)

/-- No two rows have one id. -/
def SessionState.NoTwins (v : SessionState) : Prop := (v.entries.map (·.clientMessageId)).Nodup

/-- What an operation does to the row of a message. -/
def SessionOp.changeRow (env : OpEnv) (s : SessionName) (ordinal : ℕ) (id : MessageId) :
    SessionOp → Option EntryRow → Option EntryRow
  | .enqueue input evict, row =>
      if input.messageId env = id then some (input.row env s (input.now.getD env.now) ordinal)
      else if evict = some id then none else row
  | .edit other text, row =>
      if other = id then row.map fun r => { r with text := text, updatedAt := env.now } else row
  | .markHandoffInFlight ids leaseMs, row =>
      ids.foldl (fun row other =>
        if id.text = other then row.map (handedOff env leaseMs) else row) row
  | .markMissingPrivateMaterialFailed other, row =>
      if other = id then row.map fun r => { r with
        status := .failed
        failureReason := some .privateMaterialMissing
        dropReason := some .privateMaterialMissing
        updatedAt := env.now }
      else row
  | .finalizeSentBatch ids _, row => if id ∈ ids then none else row
  | .markDeleted other, row =>
      if other = id then row.map fun r => { r with status := .deleted, updatedAt := env.now }
      else row
  | .markFailed other reason, row =>
      if other = id then row.map fun r => { r with
        status := .failed
        failureReason := some reason
        updatedAt := env.now }
      else row
  | .dismissFailed other, row =>
      if other = id then row.map fun r =>
        if r.status.isFailed then { r with status := .dismissed, updatedAt := env.now } else r
      else row
  | .cleanup, row => row.filter fun r => !isSettled r.status
  | .drop other, row => if other = id then none else row
  | .dropAll, _ | .reset, _ => none
  | .restoreExpiredHandoffs, row =>
      row.map fun r => if hasExpiredHandoff env.now r then { r with
        status := .queued
        handoffId := none
        handoffStartedAt := none
        handoffExpiresAt := none
        updatedAt := env.now }
      else r

section Rows

variable {v w : SessionState} {id other : MessageId} {r : EntryRow} {p : EntryRow → Bool}
  {f : EntryRow → EntryRow} {env : OpEnv} {s : SessionName}

theorem id_of_rowOf (h : v.rowOf id = some r) : r.clientMessageId = id := by
  have hid : hasId id r = true := List.find?_some h
  exact of_decide_eq_true hid

/-- An `UPDATE` of any rows. -/
theorem rowOf_mapEntries (hf : ∀ r, (f r).clientMessageId = r.clientMessageId) :
    (v.mapEntries p f).rowOf id = (v.rowOf id).map fun r => if p r then f r else r := by
  have hsame : hasId id ∘ (fun r => if p r then f r else r) = hasId id := by
    funext r
    by_cases hp : p r <;> simp [hasId, hp, hf]
  rw [rowOf, mapEntries, List.find?_map, hsame, rowOf]

/-- An `UPDATE` of the row of one message. -/
theorem rowOf_mapEntries_hasId (hf : ∀ r, (f r).clientMessageId = r.clientMessageId) :
    (v.mapEntries (hasId other) f).rowOf id =
      if other = id then (v.rowOf id).map f else v.rowOf id := by
  rw [rowOf_mapEntries hf]
  cases hrow : v.rowOf id with
  | none => split <;> rfl
  | some r =>
    have hid := id_of_rowOf hrow
    by_cases heq : other = id
    · rw [if_pos heq, Option.map_some, if_pos (by simp [hasId, hid, heq]), Option.map_some]
    · rw [if_neg heq, Option.map_some, if_neg (by simp [hasId, hid, Ne.symm heq])]

/-- An `UPDATE` of the row of one message that asks more of it. -/
theorem rowOf_mapEntries_guarded (hf : ∀ r, (f r).clientMessageId = r.clientMessageId) :
    (v.mapEntries (fun r => hasId other r && p r) f).rowOf id =
      if other = id then (v.rowOf id).map fun r => if p r then f r else r else v.rowOf id := by
  rw [rowOf_mapEntries hf]
  cases hrow : v.rowOf id with
  | none => split <;> rfl
  | some r =>
    have hid := id_of_rowOf hrow
    by_cases heq : other = id
    · simp [hasId, hid, heq]
    · simp [hasId, hid, heq, Ne.symm heq]

theorem rowOf_without : (v.without other).rowOf id = if other = id then none else v.rowOf id := by
  rw [rowOf, without]
  split
  · rename_i heq
    refine List.find?_eq_none.2 fun r hr => ?_
    have hne := of_decide_eq_true (List.mem_filter.1 hr).2
    simpa [hasId, heq] using heq ▸ hne
  · rename_i hne
    rw [rowOf, List.find?_filter]
    congr 1
    funext r
    by_cases hid : r.clientMessageId = id <;> simp [hasId, hid, Ne.symm hne]

/-- A `DELETE` of any rows. -/
theorem rowOf_filter (hv : v.NoTwins) (hw : w.entries = v.entries.filter p) :
    w.rowOf id = (v.rowOf id).filter p := by
  rw [rowOf, hw, rowOf]
  have hnodup : (v.entries.map (·.clientMessageId)).Nodup := hv
  generalize v.entries = l at hnodup
  induction l with
  | nil => rfl
  | cons a l ih =>
    obtain ⟨hnot, hnodup⟩ := List.nodup_cons.1 hnodup
    by_cases hid : hasId id a
    · rw [List.find?_cons_of_pos hid]
      by_cases hp : p a
      · rw [List.filter_cons_of_pos hp, List.find?_cons_of_pos hid, Option.filter_some_pos hp]
      · rw [List.filter_cons_of_neg hp, Option.filter_some_neg (by simpa using hp)]
        -- the row of the id is gone, and there is no other one
        refine List.find?_eq_none.2 fun b hb hidb => hnot ?_
        have ha : a.clientMessageId = id := of_decide_eq_true hid
        have hb' : b.clientMessageId = id := of_decide_eq_true hidb
        change a.clientMessageId ∈ _
        rw [ha, ← hb']
        exact List.mem_map_of_mem (List.mem_of_mem_filter hb)
    · rw [List.find?_cons_of_neg hid, ← ih hnodup]
      by_cases hp : p a
      · rw [List.filter_cons_of_pos hp, List.find?_cons_of_neg hid]
      · rw [List.filter_cons_of_neg hp]

theorem rowOf_push {input : EnqueueTransportQueueEntryInput} {now : Int}
    (hnew : (SessionOp.push env s input now v).NoTwins) :
    (SessionOp.push env s input now v).rowOf id =
      if input.messageId env = id then some (input.row env s now v.nextOrdinal)
      else v.rowOf id := by
  rw [NoTwins, SessionOp.push_entries, List.map_append, List.nodup_append] at hnew
  rw [rowOf, SessionOp.push_entries, List.find?_append]
  by_cases hid : input.messageId env = id
  · have hnone : v.entries.find? (hasId id) = none := by
      refine List.find?_eq_none.2 fun r hr hidr => ?_
      have hr' : r.clientMessageId = id := of_decide_eq_true hidr
      exact hnew.2.2 r.clientMessageId (List.mem_map_of_mem hr) id (by
        rw [List.map_singleton, List.mem_singleton]
        exact hid.symm) hr'
    rw [if_pos hid, hnone, Option.none_or, List.find?_singleton,
      if_pos (show hasId id (input.row env s now v.nextOrdinal) = true from decide_eq_true hid)]
  · rw [if_neg hid, List.find?_singleton, if_neg (show ¬ hasId id
      (input.row env s now v.nextOrdinal) = true from fun h => hid (of_decide_eq_true h)),
      Option.or_none, rowOf]

theorem rowOf_handedOff {ids : List String} {leaseMs : Int} :
    SessionState.rowOf (ids.foldl (fun v other => v.mapEntries
      (fun r => r.clientMessageId.text = other) (SessionOp.handedOff env leaseMs)) v) id =
      ids.foldl (fun row other => if id.text = other then
        row.map (SessionOp.handedOff env leaseMs) else row) (v.rowOf id) := by
  induction ids generalizing v with
  | nil => rfl
  | cons other ids ih =>
    rw [List.foldl_cons, List.foldl_cons, ih,
      rowOf_mapEntries (f := SessionOp.handedOff env leaseMs) fun _ => rfl]
    congr 1
    cases hrow : v.rowOf id with
    | none => split <;> rfl
    | some r =>
      rw [Option.map_some, id_of_rowOf hrow]
      by_cases hother : id.text = other <;> simp [hother]

theorem rowOf_delivered {epoch : Uuid} {frame : String} {now : Int} {ids : List MessageId} :
    SessionState.rowOf (ids.foldl (SessionState.delivered s epoch frame now) v) id =
      if id ∈ ids then none else v.rowOf id := by
  induction ids generalizing v with
  | nil => rfl
  | cons other ids ih =>
    rw [List.foldl_cons, ih, SessionState.delivered, rowOf_without]
    change (if id ∈ ids then none else if other = id then none else v.rowOf id) = _
    by_cases hids : id ∈ ids
    · rw [if_pos hids, if_pos (List.mem_cons_of_mem _ hids)]
    · by_cases hother : other = id
      · rw [if_neg hids, if_pos hother, if_pos (by rw [hother]; exact List.mem_cons_self)]
      · rw [if_neg hids, if_neg hother, if_neg (by simp [hids, Ne.symm hother])]

/-- **An operation on a session does to each message what it would do to it alone.** -/
theorem rowOf_apply {op : SessionOp} (hv : v.NoTwins) (hnew : (op.apply env s v).NoTwins) :
    (op.apply env s v).rowOf id = op.changeRow env s v.nextOrdinal id (v.rowOf id) := by
  rw [NoTwins, SessionOp.entries_apply] at hnew
  rw [rowOf, SessionOp.entries_apply]
  cases op with
  | enqueue input evict =>
    refine (rowOf_push hnew).trans ?_
    cases evict with
    | none => rfl
    | some other =>
      rw [SessionOp.changeRow, Option.elim_some, rowOf_without]
      simp only [Option.some.injEq]
      rfl
  | markHandoffInFlight ids leaseMs => exact rowOf_handedOff
  | finalizeSentBatch ids frame => exact rowOf_delivered
  | cleanup => exact rowOf_filter hv rfl
  | drop other => exact rowOf_without
  | dropAll | reset => rfl
  | restoreExpiredHandoffs => exact rowOf_mapEntries fun _ => rfl
  | dismissFailed other => exact rowOf_mapEntries_guarded fun _ => rfl
  | edit other text | markMissingPrivateMaterialFailed other | markDeleted other
  | markFailed other reason => exact rowOf_mapEntries_hasId fun _ => rfl

end Rows

/-! ## Runs -/

/-- One message of a session. -/
structure MessageState where
  nextOrdinal : ℕ := 0
  row : Option EntryRow := none
deriving DecidableEq

/-- What a session has of a message. -/
def SessionState.message (v : SessionState) (id : MessageId) : MessageState :=
  ⟨v.nextOrdinal, v.rowOf id⟩

/-- What a committed operation does to a message. -/
def MessageState.step (s : SessionName) (id : MessageId) (m : MessageState) :
    SessionOp × OpEnv → MessageState
  | (op, env) =>
    { nextOrdinal := if op = .reset then 0 else m.nextOrdinal + op.ordinals
      row := op.changeRow env s m.nextOrdinal id m.row }

/-- What a call asks of a session. -/
def QueueAction.targetIn (s : SessionName) (a : QueueAction) : Option (SessionOp × OpEnv) :=
  a.target.bind fun t => if t.1 = s then some t.2 else none

/-- The operations on a session that are committed in a run. -/
def committedIn (localeCompare : Collation) (s : SessionName) :
    List QueueAction → StoreConn → List (SessionOp × OpEnv)
  | [], _ => []
  | a :: as, c =>
      let c' := (a.run localeCompare c).2
      (if c'.commits = c.commits then [] else (a.targetIn s).toList) ++
        committedIn localeCompare s as c'

section Runs

variable {localeCompare : Collation} {s : SessionName} {id : MessageId} {v : SessionState}
  {a : QueueAction} {c c' : StoreConn} {fault : ℕ → Option (Fault StoreError)} {env : OpEnv}
  {op : SessionOp} {r : EntryRow}

theorem noTwins_session (c : StoreConn) (s : SessionName) : (c.data.session s).NoTwins :=
  nodup_clientMessageId s c.data

theorem message_ensured {now : Int} : (v.ensured env s now).message id = v.message id := by
  have hordinal : (v.ensured env s now).nextOrdinal = v.nextOrdinal := by
    rw [SessionState.nextOrdinal, ensured, metaD, SessionState.nextOrdinal]
    cases v.metaRow <;> rfl
  rw [SessionState.message, hordinal]
  rfl

theorem message_apply (hv : v.NoTwins) (hnew : (op.apply env s v).NoTwins) :
    (op.apply env s v).message id = (v.message id).step s id (op, env) := by
  have hordinal : (op.apply env s v).nextOrdinal =
      if op = .reset then 0 else v.nextOrdinal + op.ordinals := by
    split
    · rename_i hreset
      rw [hreset]
      rfl
    · rename_i hreset
      rw [SessionOp.apply_of_ne_reset hreset, SessionOp.nextOrdinal_bumped, nextOrdinal,
        SessionOp.metaRow_change, nextOrdinal]
  rw [SessionState.message, hordinal, rowOf_apply hv hnew]
  rfl

theorem targetIn_eq_some (h : a.target = some (s, op, env)) : a.targetIn s = some (op, env) := by
  rw [QueueAction.targetIn, h, Option.bind_some, if_pos rfl]

theorem targetIn_eq_none (h : ∀ op env, a.target ≠ some (s, op, env)) : a.targetIn s = none := by
  rw [QueueAction.targetIn]
  cases htarget : a.target with
  | none => rfl
  | some t =>
    obtain ⟨s', op, env⟩ := t
    by_cases hs : s' = s
    · subst hs
      exact absurd htarget (h op env)
    · rw [Option.bind_some, if_neg hs]

/-- A call does to a message what it commits. -/
theorem SessionStep.message (h : SessionStep a s c c') (id : MessageId) :
    (c'.data.session s).message id =
      (if c'.commits = c.commits then [] else (a.targetIn s).toList).foldl
        (MessageState.step s id) ((c.data.session s).message id) := by
  cases h with
  | quiet h hcommits =>
    have hnone : (if c'.commits = c.commits then [] else (a.targetIn s).toList) = [] := by
      rcases hcommits with hsame | hother
      · rw [if_pos hsame]
      · rw [targetIn_eq_none hother]
        exact ite_self _
    rw [hnone, List.foldl_nil]
    rcases h with hsame | ⟨env, -, now, hensured⟩
    · rw [hsame]
    · rw [hensured, message_ensured]
  | @committed op env htarget _ commits h =>
    rw [if_neg (by omega), targetIn_eq_some htarget, Option.toList_some, List.foldl_cons,
      List.foldl_nil, h]
    exact message_apply (noTwins_session c s) (h ▸ noTwins_session c' s)

/-- **After any run, whatever fails, the row of a message is what the committed operations have
made of it**, each of them by itself and without a look at any other message. -/
theorem message_run (localeCompare : Collation) (fault : ℕ → Option (Fault StoreError))
    (s : SessionName) (id : MessageId) (as : List QueueAction) :
    ((connAfter localeCompare fault as).data.session s).message id =
      (committedIn localeCompare s as (freshConn fault)).foldl (MessageState.step s id) {} := by
  suffices h : ∀ c : StoreConn, c.saved = none →
      ((runActions localeCompare as c).2.data.session s).message id =
        (committedIn localeCompare s as c).foldl (MessageState.step s id)
          ((c.data.session s).message id) from h (freshConn fault) rfl
  induction as with
  | nil => exact fun _ _ => rfl
  | cons a as ih =>
    intro c hc
    have hspec := a.run_spec localeCompare hc
    rw [runActions, committedIn, List.foldl_append, ← (hspec.session s).message id]
    exact ih _ hspec.saved

/-! ## The account of a message -/

/-- The operation removes a row of the message, though it does not deliver it. -/
def SessionOp.Removes (id : MessageId) (r : EntryRow) : SessionOp → Prop
  | .enqueue _ evict => evict = some id
  | .cleanup => isSettled r.status = true
  | .drop other => other = id
  | .dropAll | .reset => True
  | _ => False

/-- What becomes of a row in a call. -/
inductive Accounted (s : SessionName) (id : MessageId) (a : QueueAction) (r : EntryRow)
    (v : SessionState) : Prop
  | kept {r' : EntryRow} (hrow : v.rowOf id = some r') (lineage : r'.lineage = r.lineage)
      (text : r'.text = r.text ∨
        ∃ text env, a.targetIn s = some (.edit id text, env) ∧ r'.text = text)
  | removed {op : SessionOp} {env : OpEnv} (htarget : a.targetIn s = some (op, env))
      (hremoves : op.Removes id r)
  | delivered {ids : List MessageId} {frame : String} {env : OpEnv} {t : TombstoneRow}
      (htarget : a.targetIn s = some (.finalizeSentBatch ids frame, env)) (hid : id ∈ ids)
      (htomb : t ∈ v.tombstones) (hmessage : t.clientMessageId = id)
      (hframe : t.deliveryFrameId = frame)
      (hepoch : v.metaRow.map (·.queueEpoch) = some t.queueEpoch)

/-- An id that is there cannot be enqueued. -/
theorem rowOf_eq_none_of_enqueue {input : EnqueueTransportQueueEntryInput}
    {evict : Option MessageId} (h : ((SessionOp.enqueue input evict).apply env s v).NoTwins)
    (hevict : evict ≠ some (input.messageId env)) : v.rowOf (input.messageId env) = none := by
  rw [NoTwins, SessionOp.entries_apply, SessionOp.change, SessionOp.push_entries, List.map_append,
    List.nodup_append] at h
  refine List.find?_eq_none.2 fun r hr hid => ?_
  have hid' : r.clientMessageId = input.messageId env := of_decide_eq_true hid
  refine h.2.2 r.clientMessageId (List.mem_map_of_mem (f := EntryRow.clientMessageId) ?_)
    (input.messageId env) (List.mem_singleton_self _) hid'
  cases evict with
  | none => exact hr
  | some other =>
    refine List.mem_filter.2 ⟨hr, decide_eq_true fun heq => hevict ?_⟩
    rw [← hid', heq]

theorem mem_tombstones_delivered {epoch : Uuid} {frame : String} {now : Int}
    {ids : List MessageId} (h : id ∈ ids ∨ ⟨s, epoch, id, frame, now⟩ ∈ v.tombstones) :
    ⟨s, epoch, id, frame, now⟩ ∈
      (ids.foldl (SessionState.delivered s epoch frame now) v).tombstones := by
  induction ids generalizing v with
  | nil => exact h.resolve_left List.not_mem_nil
  | cons other ids ih =>
    refine ih ?_
    by_cases heq : other = id
    · subst heq
      exact Or.inr (List.mem_append_right _ (List.mem_singleton_self _))
    · refine h.imp (fun hid => (List.mem_cons.1 hid).resolve_left (Ne.symm heq)) fun hmem =>
        List.mem_append_left _ (List.mem_filter.2 ⟨hmem, decide_eq_true ?_⟩)
      intro hkey
      exact heq (congrArg (·.2.2) hkey).symm

theorem tombstone_of_finalize {ids : List MessageId} {frame : String} (hid : id ∈ ids) :
    ∃ t ∈ ((SessionOp.finalizeSentBatch ids frame).apply env s v).tombstones,
      t.clientMessageId = id ∧ t.deliveryFrameId = frame ∧
        ((SessionOp.finalizeSentBatch ids frame).apply env s v).metaRow.map (·.queueEpoch) =
          some t.queueEpoch := by
  refine ⟨_, mem_tombstones_delivered (Or.inl hid), rfl, rfl, ?_⟩
  have hop : SessionOp.finalizeSentBatch ids frame ≠ .reset := by simp
  obtain ⟨m, hm, hepoch, -⟩ := SessionOp.epoch_apply (s := s) (v := v) hop
  rw [hm, Option.map_some, hepoch]
  rfl

theorem changeRow_handedOff {ids : List String} {leaseMs : Int} {row : Option EntryRow}
    (hrow : row = some r) :
    ∃ r', ids.foldl (fun row other => if id.text = other then
        row.map (SessionOp.handedOff env leaseMs) else row) row = some r' ∧
      r'.lineage = r.lineage ∧ r'.text = r.text := by
  induction ids generalizing row r with
  | nil => exact ⟨r, hrow, rfl, rfl⟩
  | cons other ids ih =>
    rw [List.foldl_cons, hrow]
    split
    · obtain ⟨r', h, hlineage, htext⟩ := ih rfl
      exact ⟨r', h, hlineage, htext⟩
    · exact ih rfl

/-- A committed operation accounts for each row. -/
theorem accounted_apply (htarget : a.targetIn s = some (op, env))
    (hv : v.NoTwins) (hnew : (op.apply env s v).NoTwins) (hrow : v.rowOf id = some r) :
    Accounted s id a r (op.apply env s v) := by
  have happly : (op.apply env s v).rowOf id =
      op.changeRow env s v.nextOrdinal id (v.rowOf id) := rowOf_apply hv hnew
  rw [hrow] at happly
  have hmap (f : EntryRow → EntryRow) (other : MessageId)
      (hchange : op.changeRow env s v.nextOrdinal id (some r) =
        if other = id then (some r).map f else some r)
      (hlineage : (f r).lineage = r.lineage) (htext : (f r).text = r.text) :
      Accounted s id a r (op.apply env s v) := by
    rw [hchange] at happly
    split at happly
    · exact .kept happly hlineage (Or.inl htext)
    · exact .kept happly rfl (Or.inl rfl)
  cases op with
  | enqueue input evict =>
    by_cases hevict : evict = some id
    · exact .removed htarget hevict
    · rw [SessionOp.changeRow, if_neg hevict] at happly
      split at happly
      · rename_i hid
        subst hid
        rw [rowOf_eq_none_of_enqueue hnew hevict] at hrow
        cases hrow
      · exact .kept happly rfl (Or.inl rfl)
  | edit other text =>
    rw [SessionOp.changeRow] at happly
    split at happly
    · rename_i hid
      subst hid
      exact .kept happly rfl (Or.inr ⟨text, env, htarget, rfl⟩)
    · exact .kept happly rfl (Or.inl rfl)
  | markHandoffInFlight ids leaseMs =>
    have hhanded : ∃ r', (SessionOp.markHandoffInFlight ids leaseMs).changeRow env s v.nextOrdinal id
        (some r) = some r' ∧ r'.lineage = r.lineage ∧ r'.text = r.text := changeRow_handedOff rfl
    obtain ⟨r', h, hlineage, htext⟩ := hhanded
    exact .kept (happly.trans h) hlineage (Or.inl htext)
  | finalizeSentBatch ids frame =>
    by_cases hid : id ∈ ids
    · obtain ⟨t, htomb, hmessage, hframe, hepoch⟩ := @tombstone_of_finalize s id v env ids frame hid
      exact .delivered htarget hid htomb hmessage hframe hepoch
    · rw [SessionOp.changeRow, if_neg hid] at happly
      exact .kept happly rfl (Or.inl rfl)
  | cleanup =>
    by_cases hsettled : isSettled r.status = true
    · exact .removed htarget hsettled
    · rw [SessionOp.changeRow, Option.filter_some_pos (by simpa using hsettled)] at happly
      exact .kept happly rfl (Or.inl rfl)
  | drop other =>
    by_cases hid : other = id
    · exact .removed htarget hid
    · rw [SessionOp.changeRow, if_neg hid] at happly
      exact .kept happly rfl (Or.inl rfl)
  | dropAll | reset => exact .removed htarget trivial
  | restoreExpiredHandoffs =>
    rw [SessionOp.changeRow, Option.map_some] at happly
    refine .kept happly ?_ (Or.inl ?_) <;> split <;> rfl
  | dismissFailed other =>
    refine hmap _ other rfl ?_ ?_ <;> split <;> rfl
  | markMissingPrivateMaterialFailed other | markDeleted other | markFailed other reason =>
    exact hmap _ other rfl rfl rfl

/-- **No message vanishes.**  Whatever call comes after whatever run, and whatever fails, the row of
a message stays as it was enqueued but for its status and an edit of its text, or the call was to
remove it, or it was delivered and the session's epoch has its tombstone. -/
theorem accounted_run (as : List QueueAction) (a : QueueAction)
    (h : ((connAfter localeCompare fault as).data.session s).rowOf id = some r) :
    Accounted s id a r ((connAfter localeCompare fault (as ++ [a])).data.session s) := by
  rw [connAfter_snoc]
  cases (next_spec localeCompare fault as a).session s with
  | quiet hsame _ =>
    have hmessage : (((a.run localeCompare (connAfter localeCompare fault as)).2.data.session
        s)).message id = ((connAfter localeCompare fault as).data.session s).message id := by
      rcases hsame with hsame | ⟨env, -, now, hensured⟩
      · rw [hsame]
      · rw [hensured, message_ensured]
    exact .kept ((congrArg MessageState.row hmessage).trans h) rfl (Or.inl rfl)
  | committed htarget _ _ happly =>
    rw [happly]
    exact accounted_apply (targetIn_eq_some htarget) (noTwins_session _ s)
      (happly ▸ noTwins_session _ s) h

/-- A message is enqueued. -/
def enqueuedRun : List QueueAction := [.mutate (.enqueue (exampleInput "m")) (exampleEnv 0)]

/-- The row that it then has. -/
def enqueuedRow : EntryRow := (exampleInput "m").row (exampleEnv 0) exampleSession 1000 0

/-- It is delivered next. -/
theorem accounted_run_delivered :
    Accounted exampleSession enqueuedRow.clientMessageId
      (.mutate (.finalizeSent "deck" "m" "frame") (exampleEnv 2)) enqueuedRow
      ((connAfter (fun _ _ => 0) (fun _ => none)
        (enqueuedRun ++ [.mutate (.finalizeSent "deck" "m" "frame") (exampleEnv 2)])).data.session
          exampleSession) :=
  accounted_run enqueuedRun (.mutate (.finalizeSent "deck" "m" "frame") (exampleEnv 2)) (by decide)

end Runs

end Imcodes.Queue
