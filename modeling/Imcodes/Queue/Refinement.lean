import Imcodes.Queue.Session

/-!
# The store refines the session machine

`Db.Moves s F d d'` says that going from `d` to `d'` does `F` to the session `s`
and nothing to any other session.  Every statement of the store moves, and so
does every method:

* `QueueOp.run_spec` — **a call of the store commits one operation of the
  session machine, or changes nothing.**
-/

namespace Imcodes.Queue

open Relational SessionState

/-- Going from `d` to `d'` does `F` to the session `s` and nothing to the others. -/
structure Db.Moves (s : SessionName) (F : SessionState → SessionState) (d d' : Db) : Prop where
  session : d'.session s = F (d.session s)
  off : ∀ s' ≠ s, d'.session s' = d.session s'

namespace Db.Moves

variable {s : SessionName} {F G : SessionState → SessionState} {d d₁ d₂ : Db}

theorem refl (s : SessionName) (d : Db) : Moves s id d d := ⟨rfl, fun _ _ => rfl⟩

theorem trans (h : Moves s F d d₁) (h' : Moves s G d₁ d₂) : Moves s (fun v => G (F v)) d d₂ :=
  ⟨by rw [h'.session, h.session], fun s' hs => (h'.off s' hs).trans (h.off s' hs)⟩

theorem congr (h : Moves s F d d₁) (hFG : F (d.session s) = G (d.session s)) : Moves s G d d₁ :=
  ⟨h.session.trans hFG, h.off⟩

end Db.Moves

/-! ## Statements -/

section Statements

variable (s : SessionName) (d : Db)

theorem metaOf_eq_head? (s : SessionName) (d : Db) :
    d.metaOf s = (d.queueMeta.rowsOf MetaRow.sessionName s).head? := by
  rw [Db.metaOf, Table.find?, Table.rowsOf, List.head?_filter]

theorem moves_updateMeta (f : MetaRow → MetaRow) (hf : ∀ r, (f r).sessionName = r.sessionName) :
    Db.Moves s (fun v => { v with metaRow := v.metaRow.map f }) d (d.updateMeta s f hf) := by
  have h (s' : SessionName) : (d.updateMeta s f hf).metaOf s' =
      if s' = s then (d.metaOf s').map f else d.metaOf s' := by
    have hu := Table.rowsOf_update d.queueMeta (c := s) (fun _ => true) hf hf
    simp only [Bool.and_true] at hu
    split
    · rename_i hs
      rw [metaOf_eq_head?, metaOf_eq_head?, hs, Db.updateMeta, hu]
      simp
    · rename_i hs
      have hn := Table.rowsOf_update_of_ne d.queueMeta (fun _ => true) hf hf hs
      simp only [Bool.and_true] at hn
      rw [metaOf_eq_head?, metaOf_eq_head?, Db.updateMeta, hn]
  exact ⟨SessionState.ext (by rw [Db.session, h, if_pos rfl]; rfl) rfl rfl rfl,
    fun s' hs => SessionState.ext (by rw [Db.session, h, if_neg hs]; rfl) rfl rfl rfl⟩

theorem moves_updateEntries (p : EntryRow → Bool) {f : EntryRow → EntryRow}
    (hf : ∀ r, (f r).key = r.key) :
    Db.Moves s (mapEntries p f) d (d.updateEntries s p f hf) := by
  have hcol (r : EntryRow) : (f r).sessionName = r.sessionName := congrArg Prod.fst (hf r)
  exact ⟨SessionState.ext rfl (Table.rowsOf_update _ p hf hcol) rfl rfl,
    fun s' hs => SessionState.ext rfl (Table.rowsOf_update_of_ne _ p hf hcol hs) rfl rfl⟩

theorem moves_deleteEntries (p : EntryRow → Bool) :
    Db.Moves s (fun v => { v with entries := v.entries.filter fun r => !p r }) d
      (d.deleteEntries s p) :=
  ⟨SessionState.ext rfl (Table.rowsOf_delete _ p) rfl rfl,
    fun _ hs => SessionState.ext rfl (Table.rowsOf_delete_of_ne _ p hs) rfl rfl⟩

theorem moves_deletePrivateMaterial (p : MaterialRow → Bool) :
    Db.Moves s (fun v => { v with material := v.material.filter fun r => !p r }) d
      (d.deletePrivateMaterial s p) :=
  ⟨SessionState.ext rfl rfl (Table.rowsOf_delete _ p) rfl,
    fun _ hs => SessionState.ext rfl rfl (Table.rowsOf_delete_of_ne _ p hs) rfl⟩

theorem moves_deleteTombstones :
    Db.Moves s (fun v => { v with tombstones := [] }) d (d.deleteTombstones s) := by
  have h : (d.queueDeliveryTombstones.delete fun r => r.sessionName = s && true).rowsOf
      TombstoneRow.sessionName s = _ := Table.rowsOf_delete d.queueDeliveryTombstones fun _ => true
  simp only [Bool.and_true, Bool.not_true, List.filter_false] at h
  refine ⟨SessionState.ext rfl rfl rfl h, fun s' hs => SessionState.ext rfl rfl rfl ?_⟩
  have hn : (d.queueDeliveryTombstones.delete fun r => r.sessionName = s && true).rowsOf
      TombstoneRow.sessionName s' = _ := Table.rowsOf_delete_of_ne _ (fun _ => true) hs
  simp only [Bool.and_true] at hn
  exact hn

theorem moves_replaceMaterial {r : MaterialRow} (hr : r.sessionName = s) :
    Db.Moves s (putMaterial r) d (d.replaceMaterial r) := by
  have hkey (x : MaterialRow) (hx : x.key = r.key) : x.sessionName = r.sessionName :=
    congrArg Prod.fst hx
  refine ⟨SessionState.ext rfl rfl ((Table.rowsOf_replace _ hr).trans ?_) rfl, fun s' hs =>
    SessionState.ext rfl rfl (Table.rowsOf_replace_of_ne _ hkey hr hs) rfl⟩
  -- within a session, the key is the message id
  refine congrArg (· ++ [r]) (List.filter_congr fun x hx => ?_)
  have hxs : x.sessionName = s := of_decide_eq_true (List.mem_filter.1 hx).2
  simp [MaterialRow.key, hxs, hr]

theorem moves_replaceTombstone {r : TombstoneRow} (hr : r.sessionName = s) :
    Db.Moves s (putTombstone r) d (d.replaceTombstone r) := by
  have hkey (x : TombstoneRow) (hx : x.key = r.key) : x.sessionName = r.sessionName :=
    congrArg Prod.fst hx
  exact ⟨SessionState.ext rfl rfl rfl (Table.rowsOf_replace _ hr), fun s' hs =>
    SessionState.ext rfl rfl rfl (Table.rowsOf_replace_of_ne _ hkey hr hs)⟩

variable {s d}

theorem moves_insertMeta {d' : Db} {r : MetaRow} (h : d.insertMeta r = .ok d')
    (hr : r.sessionName = s) (hd : d.metaOf s = none) :
    Db.Moves s (fun v => { v with metaRow := some r }) d d' := by
  unfold Db.insertMeta at h
  cases ht : d.queueMeta.insert r with
  | none => simp [ht] at h
  | some t =>
    simp only [ht, Except.ok.injEq] at h
    subst h
    refine ⟨SessionState.ext ?_ rfl rfl rfl, fun s' hs => SessionState.ext ?_ rfl rfl rfl⟩
    · rw [metaOf_eq_head?, List.head?_eq_none_iff] at hd
      rw [Db.session, metaOf_eq_head?, Table.rowsOf_insert ht hr, hd]
      rfl
    · rw [Db.session, metaOf_eq_head?, Table.rowsOf_insert_of_ne ht hr hs, ← metaOf_eq_head?]
      rfl

theorem insertMeta_eq_ok {r : MetaRow} (hd : d.metaOf r.sessionName = none) :
    ∃ d', d.insertMeta r = .ok d' := by
  have hk : r.sessionName ∉ d.queueMeta.rows.map MetaRow.sessionName := by
    intro h
    obtain ⟨x, hx, hxs⟩ := List.mem_map.1 h
    have := List.find?_eq_none.1 hd x hx
    simp [hxs] at this
  obtain ⟨t, ht, -⟩ := Table.insert_of_fresh hk
  exact ⟨{ d with queueMeta := t }, by simp [Db.insertMeta, ht]⟩

theorem moves_insertEntry {d' : Db} {r : EntryRow} (h : d.insertEntry r = .ok d')
    (hr : r.sessionName = s) :
    Db.Moves s (fun v => { v with entries := v.entries ++ [r] }) d d' := by
  unfold Db.insertEntry at h
  cases ht : d.queueEntries.insert r with
  | none => simp [ht] at h
  | some t =>
    simp only [ht, Except.ok.injEq] at h
    subst h
    exact ⟨SessionState.ext rfl (Table.rowsOf_insert ht hr) rfl rfl,
      fun s' hs => SessionState.ext rfl (Table.rowsOf_insert_of_ne ht hr hs) rfl rfl⟩

/-- The row `reset` writes into `queue_meta`. -/
theorem moves_upsertMeta (d : Db) {r : MetaRow} (hr : r.sessionName = s)
    (hv : r.pendingMessageVersion = 1) :
    Db.Moves s (fun v => { v with
      metaRow := some { r with pendingMessageVersion := v.version + 1 } }) d (d.upsertMeta r) := by
  unfold Db.upsertMeta Table.upsert
  cases ht : d.queueMeta.insert r with
  | some t =>
    have hm : d.insertMeta r = .ok { d with queueMeta := t } := by simp [Db.insertMeta, ht]
    have hnone : d.metaOf s = none := by
      rw [Db.metaOf, Table.find?, List.find?_eq_none]
      intro x hx hxs
      have := (Table.insert_eq_some ht).1
      exact this (hr ▸ of_decide_eq_true hxs ▸ List.mem_map_of_mem hx)
    refine (moves_insertMeta hm hr hnone).congr ?_
    simp only [Db.session, SessionState.version, hnone, Option.elim_none, Nat.zero_add, ← hv]
  | none =>
    subst hr
    refine (moves_updateMeta r.sessionName d (Db.onMetaConflict r) (fun _ => rfl)).congr ?_
    -- the clash is with the session's own row
    cases hd : d.metaOf r.sessionName with
    | none =>
      obtain ⟨d', hd'⟩ := insertMeta_eq_ok hd
      simp [Db.insertMeta, ht] at hd'
    | some m =>
      have hms : m.sessionName = r.sessionName := by
        simpa using List.find?_some hd
      simp only [Db.session, SessionState.version, hd, Option.map_some, Option.elim_some,
        Db.onMetaConflict, hms]

/-! ## Scripts -/

/-- The answer of `ensureMeta`, and what it leaves behind. -/
theorem ensureMeta_spec {env : OpEnv} {now : Int} {m : MetaRow} {d' : Db}
    (h : (ensureMeta env s now).eval d = .ok (m, d')) :
    Db.Moves s (ensured env s now) d d' ∧ m = (d.session s).metaD env s now := by
  rw [ensureMeta, Script.eval_query_bind] at h
  cases hd : d.metaOf s with
  | some existing =>
    simp only [hd] at h
    cases h
    have hs : (d.session s).metaRow = some m := hd
    have hv : (d.session s).metaD env s now = m := by rw [metaD, hs, Option.getD_some]
    exact ⟨(Db.Moves.refl s d).congr (by rw [ensured, hv, ← hs]; rfl), hv.symm⟩
  | none =>
    simp only [hd] at h
    obtain ⟨u, d₁, h₁, h₂⟩ := Script.eval_bind_eq_ok.1 h
    cases h₂
    have hs : (d.session s).metaRow = none := hd
    have hv : (d.session s).metaD env s now =
        ⟨s, env.queueEpoch, env.queueAuthorityId, 0, 0, now⟩ := by rw [metaD, hs, Option.getD_none]
    refine ⟨(moves_insertMeta (Script.eval_tryWrite_eq_ok.1 h₁) rfl hd).congr ?_, hv.symm⟩
    rw [ensured, hv]

theorem ensureMeta_of_some (env : OpEnv) (now : Int) {m : MetaRow}
    (h : (d.session s).metaRow = some m) : (ensureMeta env s now).eval d = .ok (m, d) := by
  have hd : d.metaOf s = some m := h
  rw [ensureMeta, Script.eval_query_bind, hd]
  rfl

/-- Once there is a row, `ensureMeta` only reads it. -/
theorem ensureMeta_readsOnly {env : OpEnv} {now : Int} (h : (d.session s).metaRow.isSome) :
    (ensureMeta env s now).ReadsOnly d := by
  obtain ⟨m, hm⟩ := Option.isSome_iff_exists.1 h
  refine (Script.readsOnly_query _ d).bind fun a d₁ ha => ?_
  cases ha
  refine ⟨rfl, ?_⟩
  have hd : d.metaOf s = some m := hm
  rw [hd]
  exact Script.readsOnly_pure _ _

/-- What `ensureMeta` has done by the time it is interrupted or returns. -/
theorem ensureMeta_reaches {env : OpEnv} {now : Int} {d' : Db}
    (h : (ensureMeta env s now).Reaches d d') :
    d' = d ∨ Db.Moves s (ensured env s now) d d' := by
  cases hm : d.metaOf s with
  | some m => exact Or.inl (ensureMeta_readsOnly (by rw [Db.session, hm]; rfl) _ h)
  | none =>
    rcases Script.reaches_bind h with h | ⟨a, d₁, ha, h⟩
    · exact Or.inl (Script.readsOnly_query _ d _ h)
    · cases ha
      rw [hm] at h
      rcases Script.reaches_bind h with (rfl | ⟨u, d₂, h₂, rfl⟩) | ⟨u, d₁, h₁, h₂⟩
      · exact Or.inl rfl
      · have h₃ : d.insertMeta ⟨s, env.queueEpoch, env.queueAuthorityId, 0, 0, now⟩ = .ok d' := by
          cases hi : d.insertMeta ⟨s, env.queueEpoch, env.queueAuthorityId, 0, 0, now⟩ with
          | error e => simp [hi, Except.map] at h₂
          | ok d₃ => simpa [hi, Except.map] using h₂
        refine Or.inr ((moves_insertMeta h₃ rfl hm).congr ?_)
        have hs : (d.session s).metaRow = none := hm
        rw [ensured, metaD, hs, Option.getD_none]
      · have h₃ := Script.eval_tryWrite_eq_ok.1 h₁
        cases h₂
        refine Or.inr ((moves_insertMeta h₃ rfl hm).congr ?_)
        have hs : (d.session s).metaRow = none := hm
        rw [ensured, metaD, hs, Option.getD_none]

theorem bumpVersion_spec {env : OpEnv} {now : Int} {v : QueueVersion} {d' : Db}
    (h : (bumpVersion env s now).eval d = .ok (v, d')) :
    Db.Moves s (bumped env s now 0) d d' ∧
      ∃ m, (d'.session s).metaRow = some m ∧ m.version = v := by
  obtain ⟨m₁, d₁, h₁, h₁'⟩ := Script.eval_bind_eq_ok.1 h
  obtain ⟨u, d₂, h₂, h₂'⟩ := Script.eval_bind_eq_ok.1 h₁'
  obtain ⟨m₃, d₃, h₃, h₃'⟩ := Script.eval_bind_eq_ok.1 h₂'
  cases h₂
  cases h₃'
  obtain ⟨hm₁, -⟩ := ensureMeta_spec h₁
  obtain ⟨hm₃, rfl⟩ := ensureMeta_spec h₃
  have hm₂ := moves_updateMeta s d₁
    (fun r => { r with pendingMessageVersion := r.pendingMessageVersion + 1, updatedAt := now })
    (fun _ => rfl)
  refine ⟨((hm₁.trans hm₂).trans hm₃).congr rfl, _, ?_, rfl⟩
  rw [hm₃.session]
  rfl

theorem forEach_write_spec {statements : List (Db → Db)} {F : SessionState → SessionState}
    (hF : ∀ d, Db.Moves s F d (statements.foldl (fun d st => st d) d)) {u : Unit} {d' : Db}
    (h : (Script.forEach Script.write statements : Sql Unit).eval d = .ok (u, d')) :
    Db.Moves s F d d' := by
  suffices hd : d' = statements.foldl (fun d st => st d) d from hd ▸ hF d
  clear hF
  induction statements generalizing d with
  | nil => cases h; rfl
  | cons st sts ih =>
    obtain ⟨u', d₁, h₁, h₂⟩ := Script.eval_bind_eq_ok.1 h
    cases h₁
    exact ih h₂

/-- A whole mutation: the rows change, and the version goes on by one. -/
theorem mutationBody_spec {env : OpEnv} {now : Int} {statements : List (Db → Db)}
    {F : SessionState → SessionState}
    (hF : ∀ d, Db.Moves s F d (statements.foldl (fun d st => st d) d)) {v : QueueVersion} {d' : Db}
    (h : (mutationBody env s now statements).eval d = .ok (v, d')) :
    Db.Moves s (fun w => (F (w.ensured env s now)).bumped env s now 0) d d' ∧
      ∃ m, (d'.session s).metaRow = some m ∧ m.version = v := by
  obtain ⟨m, d₁, h₁, h'⟩ := Script.eval_bind_eq_ok.1 h
  obtain ⟨u, d₂, h₂, h₃⟩ := Script.eval_bind_eq_ok.1 h'
  obtain ⟨hm, -⟩ := ensureMeta_spec h₁
  obtain ⟨hb, hv⟩ := bumpVersion_spec h₃
  exact ⟨(hm.trans (forEach_write_spec hF h₂)).trans hb, hv⟩

theorem snapshotAt_readsOnly (localeCompare : Collation) (source : String) (v : QueueVersion)
    (why : SnapshotReasons) : (snapshotAt localeCompare s source v why).ReadsOnly d :=
  (Script.readsOnly_query _ d).bind fun a d₁ ha => by
    cases ha
    exact ⟨rfl, Script.readsOnly_pure _ _⟩

/-- A snapshot with the session's own version shows the session. -/
theorem snapshotAt_spec {localeCompare : Collation} {source : String} {v : QueueVersion}
    {why : SnapshotReasons} {x : QueueSnapshot} {d' : Db}
    (hv : ∃ m, (d.session s).metaRow = some m ∧ m.version = v)
    (h : (snapshotAt localeCompare s source v why).eval d = .ok (x, d')) :
    d' = d ∧ (d.session s).Shows localeCompare s x ∧ x.resetReason = why.resetReason := by
  cases h
  obtain ⟨m, hm, rfl⟩ := hv
  exact ⟨rfl, ⟨m, source, why, hm, rfl⟩, rfl⟩

end Statements

/-! ## Calls -/

/-- What an event in the answer `events` of a call shows of the session `s`,
which the call has left in the state `v`. -/
inductive EventOf (localeCompare : Collation) (target : Option (SessionName × SessionOp))
    (s : SessionName) (v : SessionState) (events : List QueueEvent) : QueueEvent → Prop
  /-- A snapshot of the state. -/
  | snapshot {x : QueueSnapshot} (h : v.Shows localeCompare s x)
      (hreset : x.resetReason.isSome → target = some (s, .reset)) :
      EventOf localeCompare target s v events (.snapshot x)
  /-- A delivery that the state is the result of, with a snapshot of the state beside it. -/
  | delivery {m : MetaRow} {frame : String} {id : MessageId} {x : QueueSnapshot}
      (hm : v.metaRow = some m) (hgone : ∀ r ∈ v.entries, r.clientMessageId ≠ id)
      (hx : .snapshot x ∈ events) (hshows : v.Shows localeCompare s x) :
      EventOf localeCompare target s v events (.delivery (deliveryFact s m.version frame id))
  /-- The answer of a read that failed, which shows nothing. -/
  | degraded (source : String) (err : StoreError) :
      EventOf localeCompare target s v events (.snapshot (degradedSnapshot s source err))

/-- Only resets matter of the operation that was asked for. -/
theorem EventOf.imp {localeCompare : Collation} {s : SessionName} {v : SessionState}
    {events : List QueueEvent} {e : QueueEvent} {target target' : Option (SessionName × SessionOp)}
    (h : EventOf localeCompare target s v events e)
    (ht : target = some (s, .reset) → target' = some (s, .reset)) :
    EventOf localeCompare target' s v events e := by
  cases h with
  | snapshot h hreset => exact .snapshot h fun hx => ht (hreset hx)
  | delivery hm hgone hx hshows => exact .delivery hm hgone hx hshows
  | degraded source err => exact .degraded source err

/-- What a call of a method may do, when its arguments name the operation
`target`. -/
inductive CallSpec (localeCompare : Collation) (env : OpEnv)
    (target : Option (SessionName × SessionOp)) (c : StoreConn) :
    Except StoreError (List QueueEvent) × StoreConn → Prop
  /-- Nothing is committed: at most a row of `queue_meta` has appeared. -/
  | uncommitted {r : Except StoreError (List QueueEvent)} {c' : StoreConn}
      (commits : c'.commits = c.commits) (saved : c'.saved = none)
      (data : c'.data = c.data ∨ ∃ s now, Db.Moves s (ensured env s now) c.data c'.data)
      (answer : ∀ events, r = .ok events → ∀ e ∈ events, ∃ s,
        EventOf localeCompare target s (c'.data.session s) events e) :
      CallSpec localeCompare env target c (r, c')
  /-- The operation is committed, whatever becomes of the answer. -/
  | committed {r : Except StoreError (List QueueEvent)} {c' : StoreConn} {s : SessionName}
      {op : SessionOp} (htarget : target = some (s, op)) (commits : c'.commits = c.commits + 1)
      (saved : c'.saved = none) (moves : Db.Moves s (op.apply env s) c.data c'.data)
      (answer : ∀ events, r = .ok events → ∀ e ∈ events, ∃ s,
        EventOf localeCompare target s (c'.data.session s) events e) :
      CallSpec localeCompare env target c (r, c')

section Calls

variable {localeCompare : Collation} {env : OpEnv} {c : StoreConn}
  {target : Option (SessionName × SessionOp)} {s : SessionName} {op : SessionOp}

/-- A call whose arguments are refused. -/
theorem CallSpec.refused (e : StoreError) (hc : c.saved = none) :
    CallSpec localeCompare env target c (.error e, c) :=
  .uncommitted rfl hc (Or.inl rfl) fun _ h => by cases h

/-- A method with one transaction. -/
theorem CallSpec.of_transaction {α β : Type} {body : Sql α} {after : α → Sql β}
    {events : β → List QueueEvent} (hc : c.saved = none)
    (hbody : ∀ a d', body.eval c.data = .ok (a, d') →
      Db.Moves s (op.apply env s) c.data d' ∧ (after a).ReadsOnly d' ∧
        ∀ b, (after a).eval d' = .ok (b, d') → ∀ e ∈ events b,
          EventOf localeCompare (some (s, op)) s (d'.session s) (events b) e) :
    CallSpec localeCompare env (some (s, op)) c ((Op.map (transaction body after) events) c) := by
  have h : TransactionOutcome body after c (transaction body after c) :=
    transaction_outcome hc fun a d ha => (hbody a d ha).2.1
  unfold Op.map
  generalize transaction body after c = p at h
  cases h with
  | rolledBack commits saved data =>
    exact .uncommitted commits saved (Or.inl data) fun _ h => by cases h
  | @committed a r c' commits saved effect answer =>
    obtain ⟨hmoves, -, hevents⟩ := hbody a _ effect
    cases r with
    | error e => exact .committed rfl commits saved hmoves fun _ h => by cases h
    | ok b =>
      refine .committed rfl commits saved hmoves fun evs h => ?_
      cases h
      exact fun e he => ⟨s, hevents b (answer b rfl) e he⟩

/-- A method of the shape `mutation`. -/
theorem CallSpec.of_mutation {source : String} {why : SnapshotReasons}
    {statements : List (Db → Db)} {F : SessionState → SessionState} (hc : c.saved = none)
    (hwhy : why.resetReason = none)
    (hF : ∀ d, Db.Moves s F d (statements.foldl (fun d st => st d) d))
    (hop : ∀ v, (F (v.ensured env s env.now)).bumped env s env.now 0 = op.apply env s v) :
    CallSpec localeCompare env (some (s, op)) c
      ((mutation localeCompare env s source why statements).map snapshotEvent c) := by
  refine .of_transaction hc fun v d' h => ?_
  obtain ⟨hm, hv⟩ := mutationBody_spec hF h
  refine ⟨hm.congr (hop _), snapshotAt_readsOnly localeCompare source v why, fun x hx e he => ?_⟩
  obtain ⟨-, hshows, hxr⟩ := snapshotAt_spec hv hx
  rw [List.mem_singleton.1 he]
  refine .snapshot hshows fun h => ?_
  rw [hxr, hwhy] at h
  cases h

/-- `readSnapshot`, outside a transaction. -/
theorem CallSpec.of_snapshotNow {source : String} {events : QueueSnapshot → List QueueEvent}
    (hc : c.saved = none) (hevents : ∀ x, ∀ e ∈ events x, e = .snapshot x) :
    CallSpec localeCompare env target c
      (Op.map (snapshotNow localeCompare env s source).run events c) := by
  obtain ⟨hcommits, hsaved, hreach, heval⟩ :=
    (snapshotNow localeCompare env s source).run_autocommit hc
  unfold Op.map
  generalize (snapshotNow localeCompare env s source).run c = p at hcommits hsaved hreach heval
  obtain ⟨r, c'⟩ := p
  have hdata : c'.data = c.data ∨ ∃ s now, Db.Moves s (ensured env s now) c.data c'.data := by
    rcases Script.reaches_bind hreach with h | ⟨m, d₁, hm, h⟩
    · exact (ensureMeta_reaches h).imp id fun h => ⟨s, env.now, h⟩
    · rw [snapshotAt_readsOnly localeCompare source m.version {} _ h]
      exact Or.inr ⟨s, env.now, (ensureMeta_spec hm).1⟩
  cases r with
  | error e => exact .uncommitted hcommits hsaved hdata fun _ h => by cases h
  | ok x =>
    refine .uncommitted hcommits hsaved hdata fun evs h e he => ⟨s, ?_⟩
    cases h
    obtain ⟨m, d₁, hm, hx⟩ := Script.eval_bind_eq_ok.1 (heval x rfl)
    obtain ⟨hmoves, rfl⟩ := ensureMeta_spec hm
    obtain ⟨hd, hshows, hxr⟩ := snapshotAt_spec (by rw [hmoves.session]; exact ⟨_, rfl, rfl⟩) hx
    rw [hevents x e he, hd]
    refine .snapshot hshows fun h => ?_
    rw [hxr] at h
    cases h

end Calls

/-! ## Methods -/

/-- The operation a call asks for, once its arguments are normalised: none when
they are refused, and none when there is nothing to do. -/
def QueueOp.target : QueueOp → Option (SessionName × SessionOp)
  | .enqueue input => do
      let s ← (normalizeSessionName input.sessionName).toOption
      return (s, .enqueue input none)
  | .enqueueWithCapacityEviction input evict => do
      let s ← (normalizeSessionName input.sessionName).toOption
      return (s, .enqueue input (evict.bind MessageId.ofString?))
  | .retry sessionName failed input => do
      let s ← (normalizeSessionName sessionName).toOption
      let failed ← MessageId.ofString? failed
      return (s, .enqueue
        { input with sessionName := s.name, replacesClientMessageId := some failed.text } none)
  | .edit sessionName id text => named sessionName id fun id => .edit id text
  | .markHandoffInFlight sessionName ids leaseMs =>
      if ids = [] then none else do
        let s ← (normalizeSessionName sessionName).toOption
        return (s, .markHandoffInFlight ids leaseMs)
  | .markMissingPrivateMaterialFailed sessionName id =>
      named sessionName id .markMissingPrivateMaterialFailed
  | .finalizeSent sessionName id frame => batch sessionName [id] frame
  | .finalizeSentBatch sessionName ids frame => batch sessionName ids frame
  | .markDeleted sessionName id => named sessionName id .markDeleted
  | .markFailed sessionName id reason => named sessionName id fun id => .markFailed id reason
  | .dismissFailed sessionName id => named sessionName id .dismissFailed
  | .cleanup sessionName => whole sessionName .cleanup
  | .drop sessionName id _ => named sessionName id .drop
  | .dropAll sessionName _ => whole sessionName .dropAll
  | .reset sessionName _ _ => whole sessionName .reset
  | .reinitializeAfterCorruption sessionName _ => whole sessionName .reset
  | .restoreExpiredHandoffs sessionName => whole sessionName .restoreExpiredHandoffs
where
  /-- An operation on one message. -/
  named (sessionName id : String) (op : MessageId → SessionOp) : Option (SessionName × SessionOp) :=
    do
      let s ← (normalizeSessionName sessionName).toOption
      let id ← MessageId.ofString? id
      return (s, op id)
  /-- An operation on the whole session. -/
  whole (sessionName : String) (op : SessionOp) : Option (SessionName × SessionOp) := do
    let s ← (normalizeSessionName sessionName).toOption
    return (s, op)
  /-- A delivery of the ids that are not blank, each once. -/
  batch (sessionName : String) (ids : List String) (frame : String) :
      Option (SessionName × SessionOp) :=
    let ids := (ids.filterMap MessageId.ofString?).eraseDups
    if ids = [] then none else do
      let s ← (normalizeSessionName sessionName).toOption
      return (s, .finalizeSentBatch ids frame)

section Methods

variable {localeCompare : Collation} {env : OpEnv} {c : StoreConn}

/-- A mutation of one message. -/
theorem CallSpec.of_mutationOf {sessionName id source : String} {why : SnapshotReasons}
    {statements : SessionName → MessageId → List (Db → Db)} {op : MessageId → SessionOp}
    {F : MessageId → SessionState → SessionState} (hc : c.saved = none)
    (hwhy : why.resetReason = none)
    (hF : ∀ s id d, Db.Moves s (F id) d ((statements s id).foldl (fun d st => st d) d))
    (hop : ∀ s id v, (F id (v.ensured env s env.now)).bumped env s env.now 0 =
      (op id).apply env s v) :
    CallSpec localeCompare env (QueueOp.target.named sessionName id op) c
      ((mutationOf localeCompare env sessionName id source why statements).map snapshotEvent c) := by
  unfold mutationOf Op.bind Op.map
  cases hs : normalizeSessionName sessionName with
  | error e => exact .refused e hc
  | ok s =>
    cases hid : MessageId.ofString? id with
    | none =>
      simp only [requireMessageId, hid]
      exact .refused _ hc
    | some m =>
      simp only [requireMessageId, hid, QueueOp.target.named, hs]
      exact .of_mutation hc hwhy (hF s m) (hop s m)

/-- A mutation of a whole session. -/
theorem CallSpec.of_mutationAll {sessionName source : String} {why : SnapshotReasons}
    {statements : SessionName → List (Db → Db)} {op : SessionOp}
    {F : SessionState → SessionState} (hc : c.saved = none)
    (hwhy : why.resetReason = none) (hF : ∀ s d, Db.Moves s F d ((statements s).foldl (fun d st => st d) d))
    (hop : ∀ s v, (F (v.ensured env s env.now)).bumped env s env.now 0 = op.apply env s v) :
    CallSpec localeCompare env (QueueOp.target.whole sessionName op) c
      ((mutationAll localeCompare env sessionName source why statements).map snapshotEvent c) := by
  unfold mutationAll Op.bind Op.map
  cases hs : normalizeSessionName sessionName with
  | error e => exact .refused e hc
  | ok s =>
    simp only [QueueOp.target.whole, hs]
    exact .of_mutation hc hwhy (hF s) (hop s)

theorem moves_withoutMaterial (s : SessionName) (d : Db) (id : MessageId) :
    Db.Moves s (withoutMaterial id) d
      (d.deletePrivateMaterial s fun r => r.clientMessageId = id) :=
  (moves_deletePrivateMaterial s d _).congr (by simp [withoutMaterial])

theorem moves_deleteMessage (s : SessionName) (id : MessageId) (d : Db) :
    Db.Moves s (without id) d ((deleteMessage s id).foldl (fun d st => st d) d) :=
  ((moves_deleteEntries s d _).trans (moves_withoutMaterial s _ id)).congr
    (by simp [without, withoutMaterial])

/-- A loop does to the session what its rounds do, one after the other. -/
theorem forEach_moves {β : Type} {s : SessionName} {f : β → Sql Unit}
    {G : SessionState → β → SessionState} {bs : List β} {d d' : Db} {u : Unit}
    (hf : ∀ b d d', (f b).eval d = .ok ((), d') → Db.Moves s (fun v => G v b) d d')
    (h : (Script.forEach f bs).eval d = .ok (u, d')) : Db.Moves s (fun v => bs.foldl G v) d d' := by
  induction bs generalizing d with
  | nil => cases h; exact Db.Moves.refl s _
  | cons b bs ih =>
    obtain ⟨u', d₁, h₁, h₂⟩ := Script.eval_bind_eq_ok.1 h
    exact (hf b d d₁ h₁).trans (ih h₂)

/-- A loop that does not look at `queue_meta` does the same after `ensureMeta`. -/
theorem foldl_ensured {β : Type} {s : SessionName} {now : Int} {G : SessionState → β → SessionState}
    (hG : ∀ v b, G (v.ensured env s now) b = (G v b).ensured env s now) (bs : List β)
    (v : SessionState) : bs.foldl G (v.ensured env s now) = (bs.foldl G v).ensured env s now := by
  induction bs generalizing v with
  | nil => rfl
  | cons b bs ih => rw [List.foldl_cons, List.foldl_cons, hG, ih]

theorem nextOrdinal_metaD (env : OpEnv) (s : SessionName) (now : Int) (v : SessionState) :
    (v.metaD env s now).nextOrdinal = v.nextOrdinal := by
  rw [metaD, SessionState.nextOrdinal]
  cases v.metaRow <;> rfl

theorem enqueueBody_spec {s : SessionName} {input : EnqueueTransportQueueEntryInput}
    {evict : Option MessageId} {v : QueueVersion} {d d' : Db}
    (h : (enqueueBody env input s (input.now.getD env.now) evict).eval d = .ok (v, d')) :
    Db.Moves s ((SessionOp.enqueue input evict).apply env s) d d' ∧
      ∃ m, (d'.session s).metaRow = some m ∧ m.version = v := by
  obtain ⟨m, d₁, h₁, h₁'⟩ := Script.eval_bind_eq_ok.1 h
  obtain ⟨u₂, d₂, h₂, h₂'⟩ := Script.eval_bind_eq_ok.1 h₁'
  obtain ⟨u₃, d₃, h₃, h₃'⟩ := Script.eval_bind_eq_ok.1 h₂'
  obtain ⟨u₄, d₄, h₄, h₄'⟩ := Script.eval_bind_eq_ok.1 h₃'
  obtain ⟨u₅, d₅, h₅, h₆⟩ := Script.eval_bind_eq_ok.1 h₄'
  obtain ⟨hm, rfl⟩ := ensureMeta_spec h₁
  have hevict : Db.Moves s (fun v => evict.elim v v.without) d₁ d₂ := by
    refine forEach_write_spec (fun d => ?_) h₂
    cases evict with
    | none => exact Db.Moves.refl s d
    | some id => exact moves_deleteMessage s id d
  cases h₃
  have hord := moves_updateMeta s d₂ (fun r => { r with
    nextOrdinal := r.nextOrdinal + 1
    updatedAt := input.now.getD env.now }) (fun _ => rfl)
  have hrow := moves_insertEntry (s := s) (Script.eval_tryWrite_eq_ok.1 h₄) rfl
  have hmat : Db.Moves s (fun v => input.privateMaterialJson.elim v fun material =>
      v.putMaterial ⟨s, input.messageId env, material, input.now.getD env.now⟩) d₄ d₅ := by
    refine forEach_write_spec (fun d => ?_) h₅
    cases input.privateMaterialJson with
    | none => exact Db.Moves.refl s d
    | some material => exact moves_replaceMaterial s d rfl
  obtain ⟨hbump, hv⟩ := bumpVersion_spec h₆
  refine ⟨(((((hm.trans hevict).trans hord).trans hrow).trans hmat).trans hbump).congr ?_, hv⟩
  have hnext (w : SessionState) : (evict.elim w w.without).nextOrdinal = w.nextOrdinal := by
    cases evict <;> rfl
  rw [nextOrdinal_metaD, SessionOp.apply_of_ne_reset (by simp), SessionOp.change, SessionOp.push,
    hnext]
  cases evict <;> cases input.privateMaterialJson <;> rfl

/-- `enqueueWithCapacityEviction`, answered with all its snapshots or with some. -/
theorem CallSpec.of_enqueue {s : SessionName} {input : EnqueueTransportQueueEntryInput}
    (evict : Option String) {events : EnqueueTransportQueueEntryResult → List QueueEvent}
    (hc : c.saved = none) (hs : normalizeSessionName input.sessionName = .ok s)
    (hevents : ∀ r, ∀ e ∈ events r, e ∈ r.events) :
    CallSpec localeCompare env
      (some (s, .enqueue input (evict.bind MessageId.ofString?))) c
      ((enqueueWithCapacityEviction localeCompare env input evict).map events c) := by
  unfold enqueueWithCapacityEviction Op.bind
  rw [hs]
  refine .of_transaction hc fun version d' h => ?_
  obtain ⟨hmoves, hv⟩ := enqueueBody_spec h
  refine ⟨hmoves, ?_, fun r hr e he => ?_⟩
  · refine (snapshotAt_readsOnly localeCompare _ _ _).bind fun x d₁ hx => ?_
    obtain ⟨rfl, -⟩ := snapshotAt_spec hv hx
    refine ⟨rfl, ?_⟩
    cases evict.bind MessageId.ofString? with
    | none => exact Script.readsOnly_pure _ _
    | some id =>
      refine (snapshotAt_readsOnly localeCompare _ _ _).bind fun y d₂ hy => ?_
      exact ⟨(snapshotAt_spec hv hy).1, Script.readsOnly_pure _ _⟩
  · obtain ⟨x, d₁, hx, hr'⟩ := Script.eval_bind_eq_ok.1 hr
    obtain ⟨rfl, hshows, hxr⟩ := snapshotAt_spec hv hx
    have hquiet {evict : Option MessageId} {y : QueueSnapshot} (h : y.resetReason = none)
        (h' : y.resetReason.isSome) :
        some (s, SessionOp.enqueue input evict) = some (s, .reset) := by
      rw [h] at h'
      cases h'
    have he' := hevents r e he
    cases hev : evict.bind MessageId.ofString? with
    | none =>
      rw [hev] at hr'
      cases hr'
      rw [List.mem_singleton.1 he']
      exact .snapshot hshows (hquiet hxr)
    | some id =>
      rw [hev] at hr'
      obtain ⟨y, d₂, hy, hr''⟩ := Script.eval_bind_eq_ok.1 hr'
      cases hr''
      rcases List.mem_cons.1 he' with rfl | he''
      · exact .snapshot hshows (hquiet hxr)
      · obtain ⟨-, hshows', hyr⟩ := snapshotAt_spec hv hy
        rw [List.mem_singleton.1 he'']
        exact .snapshot hshows' (hquiet hyr)

theorem handoffBody_spec {s : SessionName} {ids : List String} {leaseMs : Int} {d d' : Db}
    {answer : List HandoffTransportQueueEntry}
    (h : (handoffBody env s ids leaseMs).eval d = .ok (answer, d')) :
    Db.Moves s ((SessionOp.markHandoffInFlight ids leaseMs).apply env s) d d' := by
  obtain ⟨m, d₁, h₁, h₁'⟩ := Script.eval_bind_eq_ok.1 h
  obtain ⟨u₂, d₂, h₂, h₂'⟩ := Script.eval_bind_eq_ok.1 h₁'
  obtain ⟨v, d₃, h₃, h₃'⟩ := Script.eval_bind_eq_ok.1 h₂'
  cases h₃'
  have hloop := forEach_moves (s := s) (G := fun v id =>
    v.mapEntries (fun r => r.clientMessageId.text = id) (SessionOp.handedOff env leaseMs))
    (fun id d d' hd => by cases hd; exact moves_updateEntries s d _ _) h₂
  refine (((ensureMeta_spec h₁).1.trans hloop).trans (bumpVersion_spec h₃).1).congr ?_
  rw [SessionOp.apply_of_ne_reset (by simp), SessionOp.change,
    foldl_ensured (fun _ _ => rfl) ids (d.session s)]
  rfl

theorem finalizeBody_spec {s : SessionName} {ids : List MessageId} {frame : String}
    {v : QueueVersion} {d d' : Db} (h : (finalizeBody env s ids frame).eval d = .ok (v, d')) :
    Db.Moves s ((SessionOp.finalizeSentBatch ids frame).apply env s) d d' ∧
      ∃ m, (d'.session s).metaRow = some m ∧ m.version = v := by
  obtain ⟨m, d₁, h₁, h₁'⟩ := Script.eval_bind_eq_ok.1 h
  obtain ⟨u₂, d₂, h₂, h₃⟩ := Script.eval_bind_eq_ok.1 h₁'
  obtain ⟨hm, rfl⟩ := ensureMeta_spec h₁
  have hloop := forEach_moves (s := s)
    (G := SessionState.delivered s ((d.session s).metaD env s env.now).queueEpoch frame env.now)
    (fun id d d' hd => forEach_write_spec
      (fun d => (moves_replaceTombstone s d rfl).trans (moves_deleteMessage s id _)) hd) h₂
  obtain ⟨hbump, hv⟩ := bumpVersion_spec h₃
  refine ⟨((hm.trans hloop).trans hbump).congr ?_, hv⟩
  rw [SessionOp.apply_of_ne_reset (by simp), SessionOp.change,
    foldl_ensured (fun _ _ => rfl) ids (d.session s)]
  rfl

/-- `finalizeSentBatch`, answered with its snapshot and its facts or with some of them. -/
theorem CallSpec.of_finalize {sessionName frame : String} {ids : List String}
    {events : FinalizeTransportQueueSentResult → List QueueEvent} (hc : c.saved = none)
    (hevents : ∀ r, ∀ e ∈ events r, e ∈ r.events)
    (hsnapshot : ∀ r, .snapshot r.snapshot ∈ events r) :
    CallSpec localeCompare env (QueueOp.target.batch sessionName ids frame) c
      ((finalizeSentBatch localeCompare env sessionName ids frame).map events c) := by
  unfold finalizeSentBatch Op.bind QueueOp.target.batch
  cases hs : normalizeSessionName sessionName with
  | error e => exact .refused e hc
  | ok s =>
    simp only
    split
    · rw [Op.map_map]
      refine .of_snapshotNow hc fun x e he => ?_
      exact List.mem_singleton.1 (hevents _ e he)
    · refine .of_transaction hc fun version d' h => ?_
      obtain ⟨hmoves, hv⟩ := finalizeBody_spec h
      refine ⟨hmoves, ?_, fun r hr e he => ?_⟩
      · exact (snapshotAt_readsOnly localeCompare _ _ _).bind fun x d₁ hx =>
          ⟨(snapshotAt_spec hv hx).1, Script.readsOnly_pure _ _⟩
      · obtain ⟨x, d₁, hx, hr'⟩ := Script.eval_bind_eq_ok.1 hr
        cases hr'
        obtain ⟨m, hm, rfl⟩ := hv
        obtain ⟨-, hshows, hxr⟩ := snapshotAt_spec ⟨m, hm, rfl⟩ hx
        rcases List.mem_cons.1 (hevents _ e he) with rfl | he'
        · refine .snapshot hshows fun h => ?_
          rw [hxr] at h
          cases h
        · obtain ⟨fact, hfact, rfl⟩ := List.mem_map.1 he'
          obtain ⟨id, hid, rfl⟩ := List.mem_map.1 hfact
          refine .delivery hm ?_ (hsnapshot _) hshows
          rw [hmoves.session]
          exact SessionOp.gone_of_finalize hid

theorem moves_resetBody {s : SessionName} {d d' : Db} {u : Unit}
    (h : (resetBody env s).eval d = .ok (u, d')) :
    Db.Moves s (SessionOp.reset.apply env s) d d' := by
  refine forEach_write_spec (fun d => ?_) h
  refine ((((moves_deleteEntries s d _).trans (moves_deletePrivateMaterial s _ _)).trans
    (moves_deleteTombstones s _)).trans (moves_upsertMeta _ rfl rfl)).congr ?_
  simp [SessionOp.apply, SessionOp.change, SessionState.version]

theorem CallSpec.of_reset {sessionName : String} {resetReason : QueueResetReason}
    {activityGeneration : Option ActivityGeneration} (hc : c.saved = none) :
    CallSpec localeCompare env (QueueOp.target.whole sessionName .reset) c
      ((reset localeCompare env sessionName resetReason activityGeneration).map snapshotEvent c) := by
  unfold reset Op.bind QueueOp.target.whole
  cases hs : normalizeSessionName sessionName with
  | error e => exact .refused e hc
  | ok s =>
    refine .of_transaction hc fun u d' h => ?_
    have hmoves := moves_resetBody h
    obtain ⟨m, hm⟩ : ∃ m, (d'.session s).metaRow = some m := by
      rw [hmoves.session]
      exact ⟨_, rfl⟩
    have heval := ensureMeta_of_some env env.now hm
    refine ⟨hmoves, (ensureMeta_readsOnly (Option.isSome_iff_exists.2 ⟨m, hm⟩)).bind
      fun a d₁ ha => ?_, fun x hx e he => ?_⟩
    · rw [heval] at ha
      cases ha
      exact ⟨rfl, snapshotAt_readsOnly localeCompare _ _ _⟩
    · obtain ⟨a, d₁, ha, hx'⟩ := Script.eval_bind_eq_ok.1 hx
      rw [heval] at ha
      cases ha
      rw [List.mem_singleton.1 he]
      exact .snapshot (snapshotAt_spec ⟨_, hm, rfl⟩ hx').2.1 fun _ => rfl

/-- **A call of the store commits one operation of the session machine, or
changes nothing.** -/
theorem QueueOp.run_spec (localeCompare : Collation) (env : OpEnv) (op : QueueOp)
    (hc : c.saved = none) :
    CallSpec localeCompare env op.target c (op.run localeCompare env c) := by
  cases op with
  | enqueue input =>
    simp only [run, target, Queue.enqueue, Op.map_map]
    cases hs : normalizeSessionName input.sessionName with
    | error e =>
      unfold Queue.enqueueWithCapacityEviction Op.bind Op.map
      rw [hs]
      exact .refused e hc
    | ok s =>
      refine CallSpec.of_enqueue none hc hs fun r e he => ?_
      exact List.mem_cons.2 (Or.inl (List.mem_singleton.1 he))
  | enqueueWithCapacityEviction input evict =>
    simp only [run, target]
    cases hs : normalizeSessionName input.sessionName with
    | error e =>
      unfold Queue.enqueueWithCapacityEviction Op.bind Op.map
      rw [hs]
      exact .refused e hc
    | ok s => exact CallSpec.of_enqueue evict hc hs fun r e he => he
  | retry sessionName failed input =>
    simp only [run, target, Queue.retry, Queue.enqueue]
    cases hs : normalizeSessionName sessionName with
    | error e => exact .refused e hc
    | ok s =>
      cases hf : MessageId.ofString? failed with
      | none =>
        simp only [Op.bind, Op.map, requireMessageId, hf]
        exact .refused _ hc
      | some id =>
        have hid : requireMessageId failed "failedClientMessageId" = .ok id := by
          rw [requireMessageId, hf]
        simp only [Op.bind_ok, hid, Op.map_map]
        refine CallSpec.of_enqueue none hc (normalizeSessionName_name s)
          fun r e he => ?_
        exact List.mem_cons.2 (Or.inl (List.mem_singleton.1 he))
  | edit sessionName id text =>
    simp only [run, target, Queue.edit]
    exact .of_mutationOf hc rfl (fun s id d => moves_updateEntries s d _ _) fun s id v => rfl
  | markHandoffInFlight sessionName ids leaseMs =>
    simp only [run, target, Queue.markHandoffInFlight]
    cases hs : normalizeSessionName sessionName with
    | error e => exact .refused e hc
    | ok s =>
      by_cases hids : ids = []
      · rw [hids]
        exact .uncommitted rfl hc (Or.inl rfl) fun evs h e he => by cases h; cases he
      · simp only [hids, if_false]
        refine CallSpec.of_transaction hc fun a d' h => ?_
        exact ⟨handoffBody_spec h, Script.readsOnly_pure _ _, fun b _ e he => by cases he⟩
  | markMissingPrivateMaterialFailed sessionName id =>
    simp only [run, target, Queue.markMissingPrivateMaterialFailed]
    exact .of_mutationOf hc rfl
      (fun s id d => (moves_updateEntries s d _ _).trans (moves_withoutMaterial s _ id))
      fun s id v => rfl
  | finalizeSent sessionName id frame =>
    simp only [run, target, Queue.finalizeSent, Op.map_map]
    refine CallSpec.of_finalize hc (fun r e he => ?_) fun r => List.mem_singleton_self _
    exact List.mem_cons.2 (Or.inl (List.mem_singleton.1 he))
  | finalizeSentBatch sessionName ids frame =>
    simp only [run, target]
    exact .of_finalize hc (fun r e he => he) fun r => List.mem_cons_self ..
  | markDeleted sessionName id =>
    simp only [run, target, Queue.markDeleted]
    exact .of_mutationOf hc rfl
      (fun s id d => (moves_updateEntries s d _ _).trans (moves_withoutMaterial s _ id))
      fun s id v => rfl
  | markFailed sessionName id reason =>
    simp only [run, target, Queue.markFailed]
    exact .of_mutationOf hc rfl (fun s id d => moves_updateEntries s d _ _) fun s id v => rfl
  | dismissFailed sessionName id =>
    simp only [run, target, Queue.dismissFailed]
    exact .of_mutationOf hc rfl
      (fun s id d => (moves_updateEntries s d _ _).trans (moves_withoutMaterial s _ id))
      fun s id v => rfl
  | cleanup sessionName =>
    simp only [run, target, Queue.cleanup]
    refine .of_mutationAll hc rfl (F := fun v =>
      { v with
        entries := v.entries.filter fun r => !isSettled r.status
        material := v.material.filter fun r => (v.entries.filter fun r => !isSettled r.status).any
          fun e => e.clientMessageId = r.clientMessageId }) (fun s d => ?_) fun s v => rfl
    have h := moves_deleteEntries s d fun r => isSettled r.status
    refine (h.trans (moves_deletePrivateMaterial s _ _)).congr ?_
    have he : (d.deleteEntries s fun r => isSettled r.status).entriesOf s =
        (d.entriesOf s).filter fun r => !isSettled r.status := congrArg SessionState.entries h.session
    simp only [he, Bool.not_not]
    rfl
  | drop sessionName id reason =>
    simp only [run, target, Queue.drop]
    exact .of_mutationOf hc rfl (fun s id d => moves_deleteMessage s id d) fun s id v => rfl
  | dropAll sessionName reason =>
    simp only [run, target, Queue.dropAll]
    refine .of_mutationAll hc rfl (F := fun v => { v with entries := [], material := [] })
      (fun s d => ?_) fun s v => rfl
    refine ((moves_deleteEntries s d _).trans (moves_deletePrivateMaterial s _ _)).congr ?_
    simp
  | reset sessionName reason generation =>
    simp only [run, target]
    exact .of_reset hc
  | reinitializeAfterCorruption sessionName generation =>
    simp only [run, target, Queue.reinitializeAfterCorruption]
    exact .of_reset hc
  | restoreExpiredHandoffs sessionName =>
    simp only [run, target, Queue.restoreExpiredHandoffs]
    exact .of_mutationAll hc rfl (fun s d => moves_updateEntries s d _ _) fun s v => rfl

/-- `readSnapshot` commits nothing. -/
theorem CallSpec.of_readSnapshot {sessionName source : String}
    (target : Option (SessionName × SessionOp)) (hc : c.saved = none) :
    CallSpec localeCompare env target c
      ((readSnapshot localeCompare env sessionName source).map snapshotEvent c) := by
  unfold readSnapshot
  cases normalizeSessionName sessionName with
  | error e => exact .refused e hc
  | ok s =>
    rw [Op.bind_ok]
    exact .of_snapshotNow hc fun x e he => List.mem_singleton.1 he

/-- `readSnapshotSafely` commits nothing either. -/
theorem CallSpec.of_readSnapshotSafely {sessionName source : String}
    (target : Option (SessionName × SessionOp)) (hc : c.saved = none) :
    CallSpec localeCompare env target c
      ((readSnapshotSafely localeCompare env sessionName source).map snapshotEvent c) := by
  have h : CallSpec localeCompare env none c
      ((readSnapshot localeCompare env sessionName source).map snapshotEvent c) :=
    .of_readSnapshot none hc
  unfold Op.map at h ⊢
  unfold readSnapshotSafely
  generalize readSnapshot localeCompare env sessionName source c = p at h ⊢
  obtain ⟨r, c'⟩ := p
  cases r with
  | ok x =>
    cases h with
    | committed htarget => cases htarget
    | uncommitted commits saved data answer =>
      refine .uncommitted commits saved data fun evs h e he => ?_
      obtain ⟨s, hs⟩ := answer evs h e he
      exact ⟨s, hs.imp fun h => by cases h⟩
  | error err =>
    cases h with
    | committed htarget => cases htarget
    | uncommitted commits saved data answer =>
      simp only [Op.bind]
      cases normalizeSessionName sessionName with
      | error e => exact .uncommitted commits saved data fun _ h => by cases h
      | ok s =>
        refine .uncommitted commits saved data fun evs h e he => ⟨s, ?_⟩
        cases h
        rw [List.mem_singleton.1 he]
        exact .degraded source err

end Methods

end Imcodes.Queue
