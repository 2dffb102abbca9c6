import Imcodes.Queue.Refinement
import Imcodes.Relational.Working

/-!
# The store on a connection that works

When no statement fails, a method that is given a session name and message ids
commits its operation and answers.  Only `INSERT` may refuse: it does when the
session has a row of that id.

* `Commits` — the call answers, and has committed an operation of the session.
* `Commits.of_enqueue`, `enqueue_refused` — the two ways an enqueue ends.
* `mem_pendingMessageEntries` — what a snapshot lists.
* `handedOff_length` — how many rows a handoff answers with.
-/

namespace Imcodes.Queue

open Relational SessionState

variable {localeCompare : Collation} {env : OpEnv} {c : StoreConn} {s : SessionName} {d : Db}

/-! ## Scripts that succeed -/

theorem ensureMeta_ok (env : OpEnv) (s : SessionName) (now : Int) (d : Db) :
    ∃ m d', (ensureMeta env s now).eval d = .ok (m, d') := by
  cases hm : d.metaOf s with
  | some m => exact ⟨m, d, ensureMeta_of_some env now hm⟩
  | none =>
    obtain ⟨d', hd'⟩ :=
      insertMeta_eq_ok (r := ⟨s, env.queueEpoch, env.queueAuthorityId, 0, 0, now⟩) hm
    refine ⟨⟨s, env.queueEpoch, env.queueAuthorityId, 0, 0, now⟩, d', ?_⟩
    rw [ensureMeta, Script.eval_query_bind, hm]
    exact Script.eval_bind_eq_ok.2 ⟨(), d', Script.eval_tryWrite_eq_ok.2 hd', rfl⟩

theorem bumpVersion_ok (env : OpEnv) (s : SessionName) (now : Int) (d : Db) :
    ∃ v d', (bumpVersion env s now).eval d = .ok (v, d') := by
  obtain ⟨m₁, d₁, h₁⟩ := ensureMeta_ok env s now d
  obtain ⟨m₂, d₂, h₂⟩ := ensureMeta_ok env s now (d₁.updateMeta s
    (fun r => { r with pendingMessageVersion := r.pendingMessageVersion + 1, updatedAt := now })
    fun _ => rfl)
  exact ⟨m₂.version, d₂, Script.eval_bind_eq_ok.2 ⟨m₁, d₁, h₁, Script.eval_bind_eq_ok.2
    ⟨(), _, rfl, Script.eval_bind_eq_ok.2 ⟨m₂, d₂, h₂, rfl⟩⟩⟩⟩

/-- A loop whose rounds succeed. -/
theorem forEach_ok {β : Type} {f : β → Sql Unit} (hf : ∀ b d, ∃ d', (f b).eval d = .ok ((), d'))
    (bs : List β) (d : Db) : ∃ d', (Script.forEach f bs).eval d = .ok ((), d') := by
  induction bs generalizing d with
  | nil => exact ⟨d, rfl⟩
  | cons b bs ih =>
    obtain ⟨d₁, h₁⟩ := hf b d
    obtain ⟨d₂, h₂⟩ := ih d₁
    exact ⟨d₂, Script.eval_bind_eq_ok.2 ⟨(), d₁, h₁, h₂⟩⟩

theorem forEach_write_ok (statements : List (Db → Db)) (d : Db) :
    ∃ d', (Script.forEach Script.write statements : Sql Unit).eval d = .ok ((), d') :=
  forEach_ok (fun st d => ⟨st d, rfl⟩) statements d

theorem mutationBody_ok (env : OpEnv) (s : SessionName) (now : Int) (statements : List (Db → Db))
    (d : Db) : ∃ v d', (mutationBody env s now statements).eval d = .ok (v, d') := by
  obtain ⟨m, d₁, h₁⟩ := ensureMeta_ok env s now d
  obtain ⟨d₂, h₂⟩ := forEach_write_ok statements d₁
  obtain ⟨v, d₃, h₃⟩ := bumpVersion_ok env s now d₂
  exact ⟨v, d₃, Script.eval_bind_eq_ok.2 ⟨m, d₁, h₁, Script.eval_bind_eq_ok.2 ⟨(), d₂, h₂, h₃⟩⟩⟩

theorem handoffBody_ok (env : OpEnv) (s : SessionName) (ids : List String) (leaseMs : Int) (d : Db) :
    ∃ answer d', (handoffBody env s ids leaseMs).eval d = .ok (answer, d') := by
  obtain ⟨m, d₁, h₁⟩ := ensureMeta_ok env s env.now d
  obtain ⟨d₂, h₂⟩ := forEach_ok (f := fun id => Script.write (Db.updateEntries s
    (fun r => r.clientMessageId.text = id) (SessionOp.handedOff env leaseMs) fun _ => rfl))
    (fun id d => ⟨_, rfl⟩) ids d₁
  obtain ⟨v, d₃, h₃⟩ := bumpVersion_ok env s env.now d₂
  exact ⟨_, d₃, Script.eval_bind_eq_ok.2 ⟨m, d₁, h₁, Script.eval_bind_eq_ok.2 ⟨(), d₂, h₂,
    Script.eval_bind_eq_ok.2 ⟨v, d₃, h₃, rfl⟩⟩⟩⟩

/-! ## Calls that commit -/

/-- The call answers, and has committed the operation. -/
structure Commits {α : Type} (env : OpEnv) (s : SessionName) (op : SessionOp) (c : StoreConn)
    (p : Except StoreError α × StoreConn) : Prop where
  answers : ∃ a, p.1 = .ok a
  working : p.2.Working
  moves : Db.Moves s (op.apply env s) c.data p.2.data

theorem Commits.of_transaction {α β : Type} {op : SessionOp} {body : Sql α} {after : α → Sql β}
    (hc : c.Working) (hbody : ∃ a d, body.eval c.data = .ok (a, d))
    (hspec : ∀ a d, body.eval c.data = .ok (a, d) →
      Db.Moves s (op.apply env s) c.data d ∧ ∃ b, (after a).eval d = .ok (b, d)) :
    Commits env s op c (transaction body after c) := by
  obtain ⟨a, d, h⟩ := hbody
  obtain ⟨hmoves, b, hafter⟩ := hspec a d h
  obtain ⟨c', hc', hworking, hdata⟩ := hc.transaction_eq_ok after h hafter
  rw [hc']
  exact ⟨⟨b, rfl⟩, hworking, hdata ▸ hmoves⟩

theorem Commits.of_mutation {op : SessionOp} {source : String} {why : SnapshotReasons}
    {statements : List (Db → Db)} {F : SessionState → SessionState} (hc : c.Working)
    (hF : ∀ d, Db.Moves s F d (statements.foldl (fun d st => st d) d))
    (hop : ∀ v, (F (v.ensured env s env.now)).bumped env s env.now 0 = op.apply env s v) :
    Commits env s op c (mutation localeCompare env s source why statements c) :=
  .of_transaction hc (mutationBody_ok env s env.now statements c.data) fun _ _ h =>
    ⟨((mutationBody_spec hF h).1).congr (hop _), _, rfl⟩

/-- A mutation of one message, named by its session and its id. -/
theorem Commits.of_mutationOf {sessionName source : String} {id : MessageId}
    {why : SnapshotReasons} {statements : SessionName → MessageId → List (Db → Db)}
    {op : SessionOp} {F : SessionState → SessionState} (hc : c.Working)
    (hs : normalizeSessionName sessionName = .ok s)
    (hF : ∀ d, Db.Moves s F d ((statements s id).foldl (fun d st => st d) d))
    (hop : ∀ v, (F (v.ensured env s env.now)).bumped env s env.now 0 = op.apply env s v) :
    Commits env s op c
      (mutationOf localeCompare env sessionName id.text source why statements c) := by
  rw [mutationOf, hs, Op.bind_ok, requireMessageId_text, Op.bind_ok]
  exact .of_mutation hc hF hop

theorem commits_markFailed {sessionName : String} (id : MessageId) (reason : QueueFailureReason)
    (hc : c.Working) (hs : normalizeSessionName sessionName = .ok s) :
    Commits env s (.markFailed id reason) c
      (markFailed localeCompare env sessionName id.text reason c) :=
  .of_mutationOf hc hs (fun d => moves_updateEntries s d _ _) fun _ => rfl

theorem commits_drop {sessionName : String} (id : MessageId) (reason : QueueDropReason)
    (hc : c.Working) (hs : normalizeSessionName sessionName = .ok s) :
    Commits env s (.drop id) c (drop localeCompare env sessionName id.text reason c) :=
  .of_mutationOf hc hs (fun d => moves_deleteMessage s id d) fun _ => rfl

variable (localeCompare env) in
theorem commits_dropAll {sessionName : String} (reason : QueueDropReason) (hc : c.Working)
    (hs : normalizeSessionName sessionName = .ok s) :
    Commits env s .dropAll c (dropAll localeCompare env sessionName reason c) := by
  rw [dropAll, mutationAll, hs, Op.bind_ok]
  refine .of_mutation (F := fun v => { v with entries := [], material := [] }) hc (fun d => ?_)
    fun _ => rfl
  refine ((moves_deleteEntries s d _).trans (moves_deletePrivateMaterial s _ _)).congr ?_
  simp

variable (localeCompare env) in
theorem commits_reset {sessionName : String} (reason : QueueResetReason)
    (activityGeneration : Option ActivityGeneration) (hc : c.Working)
    (hs : normalizeSessionName sessionName = .ok s) :
    Commits env s .reset c
      (reset localeCompare env sessionName reason activityGeneration c) := by
  rw [reset, hs, Op.bind_ok]
  refine .of_transaction hc ?_ fun u d h => ?_
  · obtain ⟨d', hd'⟩ := forEach_write_ok [Db.deleteEntries s (fun _ => true),
      Db.deletePrivateMaterial s (fun _ => true), Db.deleteTombstones s,
      Db.upsertMeta ⟨s, env.queueEpoch, env.queueAuthorityId, 1, 0, env.now⟩] c.data
    exact ⟨(), d', hd'⟩
  · have hmoves := moves_resetBody h
    refine ⟨hmoves, ?_⟩
    obtain ⟨m, hm⟩ : ∃ m, (d.session s).metaRow = some m := by
      rw [hmoves.session]
      exact ⟨_, rfl⟩
    exact ⟨_, Script.eval_bind_eq_ok.2 ⟨m, d, ensureMeta_of_some env env.now hm, rfl⟩⟩

/-! ## Enqueueing -/

/-- An `INSERT` succeeds when the session has no row of the id. -/
theorem insertEntry_eq_ok {r : EntryRow}
    (h : ∀ x ∈ (d.session r.sessionName).entries, x.clientMessageId ≠ r.clientMessageId) :
    ∃ d', d.insertEntry r = .ok d' := by
  have hfresh : r.key ∉ d.queueEntries.rows.map EntryRow.key := by
    intro hmem
    obtain ⟨x, hx, hkey⟩ := List.mem_map.1 hmem
    have hname : x.sessionName = r.sessionName := congrArg Prod.fst hkey
    exact h x (List.mem_filter.2 ⟨hx, decide_eq_true hname⟩) (congrArg Prod.snd hkey)
  obtain ⟨t, ht, -⟩ := Table.insert_of_fresh hfresh
  exact ⟨{ d with queueEntries := t }, by rw [Db.insertEntry, ht]⟩

/-- An `INSERT` fails when the session has a row of the id. -/
theorem insertEntry_eq_error {r x : EntryRow} (hx : x ∈ (d.session r.sessionName).entries)
    (hid : x.clientMessageId = r.clientMessageId) : ∃ e, d.insertEntry r = .error e := by
  cases h : d.insertEntry r with
  | error e => exact ⟨e, rfl⟩
  | ok d' =>
    unfold Db.insertEntry at h
    cases ht : d.queueEntries.insert r with
    | none => simp [ht] at h
    | some t =>
      obtain ⟨hx, hname⟩ := List.mem_filter.1 hx
      have hkey : x.key = r.key := Prod.ext (of_decide_eq_true hname) hid
      exact absurd (hkey ▸ List.mem_map_of_mem hx) (Table.insert_eq_some ht).1

/-- The rows that an enqueue finds when it comes to its `INSERT`. -/
def SessionState.evicted (evict : Option MessageId) (v : SessionState) : SessionState :=
  evict.elim v v.without

/-- The rows that an enqueue leaves. -/
theorem entries_enqueue (env : OpEnv) (s : SessionName) (input : EnqueueTransportQueueEntryInput)
    (evict : Option MessageId) (v : SessionState) :
    ∃ row : EntryRow, row.clientMessageId = input.messageId env ∧ row.status = .queued ∧
      ((SessionOp.enqueue input evict).apply env s v).entries = (v.evicted evict).entries ++ [row] := by
  rw [SessionOp.entries_apply, SessionOp.change, SessionOp.push_entries]
  exact ⟨_, rfl, rfl, rfl⟩

/-- The statements of an enqueue up to its `INSERT` succeed. -/
theorem enqueueBody_eval (env : OpEnv) (input : EnqueueTransportQueueEntryInput) (s : SessionName)
    (now : Int) (evict : Option MessageId) (d : Db) :
    ∃ m d₁, (d₁.session s).entries = ((d.session s).evicted evict).entries ∧
      (enqueueBody env input s now evict).eval d =
        (do
          Script.tryWrite (Db.insertEntry (input.row env s now m))
          Script.forEach Script.write <| input.privateMaterialJson.toList.map fun material =>
            Db.replaceMaterial ⟨s, input.messageId env, material, now⟩
          bumpVersion env s now : Sql QueueVersion).eval d₁ := by
  obtain ⟨m, d₁, h₁⟩ := ensureMeta_ok env s now d
  obtain ⟨d₂, h₂⟩ := forEach_write_ok (evict.elim [] (deleteMessage s)) d₁
  have hevict : Db.Moves s (SessionState.evicted evict) d₁ d₂ := by
    refine forEach_write_spec (fun d => ?_) h₂
    cases evict with
    | none => exact Db.Moves.refl s d
    | some id => exact moves_deleteMessage s id d
  have hord := moves_updateMeta s d₂
    (fun r => { r with nextOrdinal := r.nextOrdinal + 1, updatedAt := now }) fun _ => rfl
  refine ⟨m.nextOrdinal, d₂.updateMeta s
    (fun r => { r with nextOrdinal := r.nextOrdinal + 1, updatedAt := now }) fun _ => rfl, ?_, ?_⟩
  · rw [hord.session, hevict.session, (ensureMeta_spec h₁).1.session]
    cases evict <;> rfl
  · rw [enqueueBody, Script.eval_bind_of_ok h₁, Script.eval_bind_of_ok h₂]
    rfl

variable (localeCompare env) in
/-- An enqueue of an id that the session has no row of is committed. -/
theorem Commits.of_enqueue (input : EnqueueTransportQueueEntryInput) (evict : Option String)
    (hc : c.Working) (hs : normalizeSessionName input.sessionName = .ok s)
    (hfresh : ∀ r ∈ ((c.data.session s).evicted (evict.bind MessageId.ofString?)).entries,
      r.clientMessageId ≠ input.messageId env) :
    Commits env s (.enqueue input (evict.bind MessageId.ofString?)) c
      (enqueueWithCapacityEviction localeCompare env input evict c) := by
  rw [enqueueWithCapacityEviction, hs, Op.bind_ok]
  generalize evict.bind MessageId.ofString? = evict at hfresh ⊢
  refine .of_transaction hc ?_ fun v d h => ⟨(enqueueBody_spec h).1, ?_⟩
  · obtain ⟨m, d₁, hentries, heval⟩ :=
      enqueueBody_eval env input s (input.now.getD env.now) evict c.data
    obtain ⟨d₂, h₂⟩ := insertEntry_eq_ok (d := d₁) (r := input.row env s (input.now.getD env.now) m)
      (hentries ▸ hfresh)
    obtain ⟨d₃, h₃⟩ := forEach_write_ok (input.privateMaterialJson.toList.map fun material =>
      Db.replaceMaterial ⟨s, input.messageId env, material, input.now.getD env.now⟩) d₂
    obtain ⟨v, d₄, h₄⟩ := bumpVersion_ok env s (input.now.getD env.now) d₃
    refine ⟨v, d₄, heval.trans ?_⟩
    rw [Script.eval_bind_of_ok (Script.eval_tryWrite_eq_ok (u := ()).2 h₂), Script.eval_bind_of_ok h₃, h₄]
  · cases evict <;> exact ⟨_, rfl⟩

variable (localeCompare env) in
/-- An enqueue of an id that the session has a row of is refused, and changes nothing. -/
theorem enqueue_refused (input : EnqueueTransportQueueEntryInput) {evict : Option String}
    (hc : c.Working) (hs : normalizeSessionName input.sessionName = .ok s) {r : EntryRow}
    (hr : r ∈ ((c.data.session s).evicted (evict.bind MessageId.ofString?)).entries)
    (hid : r.clientMessageId = input.messageId env) :
    ∃ e c', enqueueWithCapacityEviction localeCompare env input evict c = (.error e, c') ∧
      c'.Working ∧ c'.data = c.data := by
  rw [enqueueWithCapacityEviction, hs, Op.bind_ok]
  obtain ⟨m, d₁, hentries, heval⟩ := enqueueBody_eval env input s (input.now.getD env.now)
    (evict.bind MessageId.ofString?) c.data
  rw [← hentries] at hr
  obtain ⟨e, he⟩ := insertEntry_eq_error (r := input.row env s (input.now.getD env.now) m) hr hid
  have herror : (Script.tryWrite (Db.insertEntry (input.row env s (input.now.getD env.now) m)) :
      Sql Unit).eval d₁ = .error e := by
    simp [Script.tryWrite, Script.eval, he, Except.map]
  exact ⟨e, hc.transaction_eq_error (heval.trans (Script.eval_bind_of_error herror))⟩

/-! ## Reading -/

theorem snapshotNow_ok (localeCompare : Collation) (env : OpEnv) (s : SessionName)
    (source : String) (d : Db) :
    ∃ x d', (snapshotNow localeCompare env s source).eval d = .ok (x, d') ∧
      Db.Moves s (ensured env s env.now) d d' ∧ (d'.session s).Shows localeCompare s x := by
  obtain ⟨m, d₁, h₁⟩ := ensureMeta_ok env s env.now d
  obtain ⟨hmoves, rfl⟩ := ensureMeta_spec h₁
  refine ⟨_, d₁, Script.eval_bind_eq_ok.2 ⟨_, d₁, h₁, rfl⟩, hmoves, ?_⟩
  exact ⟨_, source, {}, by rw [hmoves.session]; rfl, rfl⟩

variable (localeCompare env) in
/-- A read answers, and leaves at most a row of `queue_meta` behind. -/
theorem readSnapshot_ok {sessionName : String} (source : String) (hc : c.Working)
    (hs : normalizeSessionName sessionName = .ok s) :
    ∃ x c', readSnapshot localeCompare env sessionName source c = (.ok x, c') ∧ c'.Working ∧
      Db.Moves s (ensured env s env.now) c.data c'.data ∧
        (c'.data.session s).Shows localeCompare s x := by
  obtain ⟨x, d, heval, hmoves, hshows⟩ := snapshotNow_ok localeCompare env s source c.data
  obtain ⟨c', hc', hworking, rfl⟩ := hc.run_eq_ok heval
  refine ⟨x, c', ?_, hworking, hmoves, hshows⟩
  rw [readSnapshot, hs, Op.bind_ok, hc']

variable (localeCompare env) in
theorem readSnapshotSafely_ok {sessionName : String} (source : String) (hc : c.Working)
    (hs : normalizeSessionName sessionName = .ok s) :
    ∃ x c', readSnapshotSafely localeCompare env sessionName source c = (.ok x, c') ∧ c'.Working ∧
      Db.Moves s (ensured env s env.now) c.data c'.data := by
  obtain ⟨x, c', hread, hworking, hmoves, -⟩ :=
    readSnapshot_ok localeCompare env source hc hs
  exact ⟨x, c', by rw [readSnapshotSafely, hread], hworking, hmoves⟩

theorem mem_rows {v : SessionState} {m : MetaRow} (hm : v.metaRow = some m) {e : QueueStoredEntry} :
    e ∈ v.rows ↔ ∃ r ∈ v.entries, parseStoredEntry m r = e := by
  rw [SessionState.rows, hm]
  simp only [List.mem_insertionSort, List.mem_map]

/-- What a snapshot lists as pending: the live rows of the session. -/
theorem mem_pendingMessageEntries {v : SessionState} {x : QueueSnapshot} {id : MessageId}
    (h : v.Shows localeCompare s x) :
    (∃ e ∈ x.pendingMessageEntries, e.clientMessageId = id.text) ↔
      ∃ r ∈ v.entries, r.status.isLive ∧ r.clientMessageId = id := by
  obtain ⟨m, source, why, hm, rfl⟩ := h
  simp only [buildSnapshot, projectEntries, sortBy, List.mem_map, List.mem_insertionSort,
    List.mem_filter, mem_rows hm]
  constructor
  · rintro ⟨_, ⟨_, ⟨⟨r, hr, rfl⟩, hlive⟩, rfl⟩, hid⟩
    exact ⟨r, hr, hlive, MessageId.ext hid⟩
  · rintro ⟨r, hr, hlive, rfl⟩
    exact ⟨_, ⟨_, ⟨⟨r, hr, rfl⟩, hlive⟩, rfl⟩, rfl⟩

/-! ## Handing off -/

/-- A session has one row of an id. -/
theorem nodup_clientMessageId (s : SessionName) (d : Db) :
    ((d.session s).entries.map (·.clientMessageId)).Nodup := by
  refine (List.Nodup.of_map EntryRow.key (l := d.queueEntries.rows) d.queueEntries.nodup).filter _
    |>.map_on ?_
  intro a ha b hb hab
  obtain ⟨ha, has⟩ := List.mem_filter.1 ha
  obtain ⟨hb, hbs⟩ := List.mem_filter.1 hb
  refine d.queueEntries.eq_of_key_eq ha hb (Prod.ext ?_ hab)
  exact (of_decide_eq_true has).trans (of_decide_eq_true hbs).symm

/-- Some of a session's ids, each with a row, find as many rows. -/
theorem length_filter_rows {v : SessionState} {m : MetaRow} {ids : List String}
    (hm : v.metaRow = some m) (hv : (v.entries.map (·.clientMessageId)).Nodup) (hids : ids.Nodup)
    (hrows : ∀ id ∈ ids, ∃ r ∈ v.entries, r.clientMessageId.text = id) :
    (v.rows.filter fun e => e.clientMessageId.text ∈ ids).length = ids.length := by
  have htexts : (v.entries.map (·.clientMessageId.text)).Nodup := by
    have hinj : Function.Injective MessageId.text := fun _ _ => MessageId.ext
    have h := hv.map hinj
    rwa [List.map_map] at h
  have hperm : ((v.entries.map (·.clientMessageId.text)).filter (· ∈ ids)).Perm ids := by
    refine (List.perm_ext_iff_of_nodup (htexts.filter _) hids).2 fun id => ?_
    rw [List.mem_filter, List.mem_map, decide_eq_true_eq]
    exact ⟨And.right, fun hid => ⟨hrows id hid, hid⟩⟩
  rw [← hperm.length_eq, SessionState.rows, hm, List.filter_map, List.length_map]
  have hsort := (List.perm_insertionSort (fun a b => a.position.OrderByLe b.position)
    (v.entries.map (parseStoredEntry m))).filter fun e => e.clientMessageId.text ∈ ids
  rw [hsort.length_eq, List.filter_map, List.length_map]
  rfl

/-- A handoff keeps the rows, and their ids. -/
theorem clientMessageIds_markHandoffInFlight (ids : List String) (leaseMs : Int)
    (v : SessionState) :
    ((SessionOp.markHandoffInFlight ids leaseMs).apply env s v).entries.map (·.clientMessageId) =
      v.entries.map (·.clientMessageId) := by
  rw [SessionOp.entries_apply, SessionOp.change]
  induction ids generalizing v with
  | nil => rfl
  | cons id ids ih =>
    rw [List.foldl_cons, ih, mapEntries, List.map_map]
    refine List.map_congr_left fun r _ => ?_
    simp only [Function.comp]
    split <;> rfl

theorem handoffBody_length {ids : List String} {leaseMs : Int} {d' : Db}
    {answer : List HandoffTransportQueueEntry}
    (h : (handoffBody env s ids leaseMs).eval d = .ok (answer, d')) :
    answer.length = ((d'.session s).rows.filter fun e => e.clientMessageId.text ∈ ids).length := by
  obtain ⟨m, d₁, h₁, h₁'⟩ := Script.eval_bind_eq_ok.1 h
  obtain ⟨u₂, d₂, h₂, h₂'⟩ := Script.eval_bind_eq_ok.1 h₁'
  obtain ⟨v, d₃, h₃, h₃'⟩ := Script.eval_bind_eq_ok.1 h₂'
  cases h₃'
  exact List.length_map _

variable (env) in
/-- A handoff of distinct ids that all have a row answers with all of them. -/
theorem markHandoffInFlight_ok {sessionName : String} {ids : List String} (leaseMs : Int)
    (hc : c.Working) (hs : normalizeSessionName sessionName = .ok s) (hids : ids.Nodup)
    (hrows : ∀ id ∈ ids, ∃ r ∈ (c.data.session s).entries, r.clientMessageId.text = id) :
    ∃ leased c', markHandoffInFlight env sessionName ids leaseMs c = (.ok leased, c') ∧
      leased.length = ids.length := by
  rw [markHandoffInFlight, hs, Op.bind_ok]
  by_cases hnil : ids = []
  · rw [if_pos hnil, hnil]
    exact ⟨[], c, rfl, rfl⟩
  · rw [if_neg hnil]
    obtain ⟨leased, d, h⟩ := handoffBody_ok env s ids leaseMs c.data
    obtain ⟨c', hc', -, -⟩ := hc.transaction_eq_ok pure h rfl
    refine ⟨leased, c', hc', ?_⟩
    have hmoves := handoffBody_spec h
    obtain ⟨m, hm⟩ := Option.isSome_iff_exists.1
      (SessionOp.isSome_metaRow_apply env s (.markHandoffInFlight ids leaseMs) (c.data.session s))
    rw [handoffBody_length h, length_filter_rows (hmoves.session ▸ hm) (nodup_clientMessageId s d)
      hids]
    intro id hid
    obtain ⟨r, hr, rfl⟩ := hrows id hid
    have hmem : r.clientMessageId ∈ (d.session s).entries.map (·.clientMessageId) := by
      rw [hmoves.session, clientMessageIds_markHandoffInFlight]
      exact List.mem_map_of_mem hr
    obtain ⟨r', hr', hid'⟩ := List.mem_map.1 hmem
    exact ⟨r', hr', congrArg MessageId.text hid'⟩

end Imcodes.Queue
