import Imcodes.Resend.Holder
import Imcodes.Queue.Working

/-!
# The list and the rows

A drain runs only if every entry of the list has a row of its own, since it
leases as many rows as it has entries.  `InStep` says that the list and the rows
of a session fit together, and each call keeps it, on a store that works, unless
an entry is queued under an id that is held already, or one is evicted for an id
whose row will not let it in.

* `InStep.retire`, `InStep.push`, `InStep.hold` — what keeps the two in step.
* `drainable_of_fresh` — the holder stays drainable in every run of such calls.
* `not_drainable` — the same id, queued twice, blocks every drain.
-/

namespace Imcodes.Resend

open Imcodes.Queue Relational Machine

/-! ## In step -/

/-- The list of entries, the rows of their session, and the ids that got their row
from `enqueueResend`. -/
structure InStep (list : List HeldEntry) (rows : List EntryRow) (created : MessageId → Prop) :
    Prop where
  short : list.length ≤ maxResendEntries
  nodup : (list.map (·.clientMessageId)).Nodup
  live : ∀ e ∈ list, ∃ r ∈ rows, r.status.isLive ∧ e.clientMessageId = some r.clientMessageId.text
  held : ∀ r ∈ rows, r.status = .queued → created r.clientMessageId →
    ∃ e ∈ list, e.clientMessageId = some r.clientMessageId.text

/-- Of the ids, no live row is left, and the other rows are. -/
structure Retires (ids : List MessageId) (rows rows' : List EntryRow) : Prop where
  kept : ∀ r ∈ rows, r.clientMessageId ∉ ids → r ∈ rows'
  gone : ∀ r ∈ rows', r.status.isLive → r ∈ rows ∧ r.clientMessageId ∉ ids

theorem Retires.refl (rows : List EntryRow) : Retires [] rows rows :=
  ⟨fun _ hr _ => hr, fun _ hr _ => ⟨hr, List.not_mem_nil⟩⟩

theorem Retires.trans {ids ids' : List MessageId} {rows rows₁ rows₂ : List EntryRow}
    (h : Retires ids rows rows₁) (h' : Retires ids' rows₁ rows₂) :
    Retires (ids ++ ids') rows rows₂ := by
  constructor
  · intro r hr hid
    rw [List.mem_append, not_or] at hid
    exact h'.kept r (h.kept r hr hid.1) hid.2
  · intro r hr hlive
    obtain ⟨hr₁, hid'⟩ := h'.gone r hr hlive
    obtain ⟨hr₀, hid⟩ := h.gone r hr₁ hlive
    exact ⟨hr₀, fun hmem => (List.mem_append.1 hmem).elim hid hid'⟩

namespace InStep

variable {list list' : List HeldEntry} {rows rows' : List EntryRow} {created : MessageId → Prop}
  {e : HeldEntry} {id : MessageId}

theorem nil {rows : List EntryRow} (h : ∀ r ∈ rows, r.status = .queued → ¬ created r.clientMessageId) :
    InStep [] rows created :=
  ⟨Nat.zero_le _, List.nodup_nil, by simp, fun r hr hq hc => absurd hc (h r hr hq)⟩

/-- Entries leave the list together with their rows. -/
theorem retire (h : InStep list rows created) {ids : List MessageId} (hsub : list'.Sublist list)
    (hleft : ∀ e ∈ list, e ∈ list' ∨ ∃ id ∈ ids, e.clientMessageId = some id.text)
    (hkept : ∀ e ∈ list', ∀ id ∈ ids, e.clientMessageId ≠ some id.text)
    (hrows : Retires ids rows rows') : InStep list' rows' created := by
  refine ⟨hsub.length_le.trans h.short, h.nodup.sublist (hsub.map _), fun e he => ?_,
    fun r hr hq hc => ?_⟩
  · obtain ⟨r, hr, hlive, hid⟩ := h.live e (hsub.subset he)
    exact ⟨r, hrows.kept r hr fun hmem => hkept e he _ hmem hid, hlive, hid⟩
  · obtain ⟨hr', hnot⟩ := hrows.gone r hr (by rw [hq]; rfl)
    obtain ⟨e, he, hid⟩ := h.held r hr' hq hc
    rcases hleft e he with he' | ⟨id, hmem, hid'⟩
    · exact ⟨e, he', hid⟩
    · have htext : r.clientMessageId = id := MessageId.ext (Option.some.inj (hid.symm.trans hid'))
      exact absurd (htext ▸ hmem) hnot

theorem nodup_concat (h : InStep list rows created) (he : e.clientMessageId = some id.text)
    (hnew : ∀ x ∈ list, x.clientMessageId ≠ some id.text) :
    ((list ++ [e]).map (·.clientMessageId)).Nodup := by
  rw [List.map_append, List.map_singleton, he]
  refine List.nodup_append.2 ⟨h.nodup, List.nodup_singleton _, ?_⟩
  intro a ha b hb
  obtain ⟨x, hx, rfl⟩ := List.mem_map.1 ha
  rw [List.mem_singleton.1 hb]
  exact hnew x hx

/-- An entry comes in with its row. -/
theorem push (h : InStep list rows created) (hlt : list.length < maxResendEntries)
    (he : e.clientMessageId = some id.text)
    (hnew : ∀ x ∈ list, x.clientMessageId ≠ some id.text) {row : EntryRow}
    (hrow : row.clientMessageId = id) (hq : row.status = .queued) {created' : MessageId → Prop}
    (hcreated : ∀ x, created' x → created x ∨ x = id) :
    InStep (list ++ [e]) (rows ++ [row]) created' := by
  refine ⟨?_, h.nodup_concat he hnew, fun x hx => ?_, fun r hr hrq hc => ?_⟩
  · rw [List.length_append, List.length_singleton]
    exact hlt
  · rcases List.mem_append.1 hx with hx | hx
    · obtain ⟨r, hr, hlive, hid⟩ := h.live x hx
      exact ⟨r, List.mem_append_left _ hr, hlive, hid⟩
    · rw [List.mem_singleton.1 hx]
      exact ⟨row, by simp, by rw [hq]; rfl, by rw [he, hrow]⟩
  · by_cases hid : r.clientMessageId = id
    · exact ⟨e, by simp, by rw [he, hid]⟩
    · rcases List.mem_append.1 hr with hr | hr
      · obtain ⟨x, hx, hxid⟩ := h.held r hr hrq ((hcreated _ hc).resolve_right hid)
        exact ⟨x, List.mem_append_left _ hx, hxid⟩
      · rw [List.mem_singleton.1 hr] at hid
        exact absurd hrow hid

/-- An entry comes in for a row that is there already. -/
theorem hold (h : InStep list rows created) (hlt : list.length < maxResendEntries)
    (he : e.clientMessageId = some id.text)
    (hnew : ∀ x ∈ list, x.clientMessageId ≠ some id.text) {row : EntryRow} (hmem : row ∈ rows)
    (hlive : row.status.isLive) (hrow : row.clientMessageId = id) :
    InStep (list ++ [e]) rows created := by
  refine ⟨?_, h.nodup_concat he hnew, fun x hx => ?_, fun r hr hrq hc => ?_⟩
  · rw [List.length_append, List.length_singleton]
    exact hlt
  · rcases List.mem_append.1 hx with hx | hx
    · exact h.live x hx
    · rw [List.mem_singleton.1 hx]
      exact ⟨row, hmem, hlive, by rw [he, hrow]⟩
  · obtain ⟨x, hx, hxid⟩ := h.held r hr hrq hc
    exact ⟨x, List.mem_append_left _ hx, hxid⟩

/-- The entries that fail a test leave the list together with their rows. -/
theorem filter (h : InStep list rows created) {p q : HeldEntry → Bool} (hq : ∀ e, q e = !p e)
    {ids : List MessageId}
    (hids : (list.filter q).map (·.clientMessageId) = ids.map (some ·.text))
    (hrows : Retires ids rows rows') : InStep (list.filter p) rows' created := by
  refine h.retire List.filter_sublist (fun e he => ?_) (fun e he id hid heq => ?_) hrows
  · by_cases hp : p e
    · exact Or.inl (List.mem_filter.2 ⟨he, hp⟩)
    · have hmem : e.clientMessageId ∈ (list.filter q).map (·.clientMessageId) :=
        List.mem_map_of_mem (List.mem_filter.2 ⟨he, by rw [hq]; simpa using hp⟩)
      rw [hids] at hmem
      obtain ⟨id, hid, heq⟩ := List.mem_map.1 hmem
      exact Or.inr ⟨id, hid, heq.symm⟩
  · have hmem : some id.text ∈ (list.filter q).map (·.clientMessageId) := by
      rw [hids]
      exact List.mem_map.2 ⟨id, hid, rfl⟩
    obtain ⟨x, hx, hxid⟩ := List.mem_map.1 hmem
    obtain ⟨hx, hqx⟩ := List.mem_filter.1 hx
    obtain ⟨he, hp⟩ := List.mem_filter.1 he
    have hsame : x = e := List.inj_on_of_nodup_map h.nodup hx he (hxid.trans heq.symm)
    rw [hsame, hq, hp] at hqx
    cases hqx

/-- The oldest entry leaves the list together with its row. -/
theorem tail {e₀ : HeldEntry} (h : InStep (e₀ :: list) rows created)
    (he₀ : e₀.clientMessageId = some id.text) (hrows : Retires [id] rows rows') :
    InStep list rows' created := by
  refine h.retire (List.sublist_cons_self _ _) (fun e he => ?_) (fun e he x hx heq => ?_) hrows
  · rcases List.mem_cons.1 he with rfl | he
    · exact Or.inr ⟨id, List.mem_singleton_self _, he₀⟩
    · exact Or.inl he
  · rw [List.mem_singleton.1 hx, ← he₀] at heq
    exact (List.nodup_cons.1 h.nodup).1 (List.mem_map.2 ⟨e, he, heq⟩)

/-- Every entry has an id. -/
theorem queueId_eq (h : InStep list rows created) (he : e ∈ list) :
    ∃ id : MessageId, e.clientMessageId = some id.text ∧ e.queueId = some id.text := by
  obtain ⟨r, -, -, hid⟩ := h.live e he
  refine ⟨r.clientMessageId, hid, ?_⟩
  rw [ResendEntry.queueId, hid, readString, Option.filter_some, if_pos]
  exact decide_eq_true r.clientMessageId.ne_empty

end InStep

/-! ## Calls of the store -/

section Calls

variable {localeCompare : Collation} {env : OpEnv} {sessionName : String} {s : SessionName}

/-- The rows of the session `s` that the store has. -/
def rowsOf (s : SessionName) (store : StoreConn) : List EntryRow := (store.data.session s).entries

theorem rowsOf_ensured {c c' : StoreConn} {now : Int}
    (h : Db.Moves s (SessionState.ensured env s now) c.data c'.data) : rowsOf s c' = rowsOf s c := by
  rw [rowsOf, h.session]
  rfl

variable (localeCompare env) in
/-- On a store that works, `bumping` goes on. -/
theorem bumping_ok {α : Type} (next : Nat → HolderOp α) (h : Holder) (hw : h.store.Working)
    (hs : normalizeSessionName sessionName = .ok s) :
    ∃ version store, bumping localeCompare env sessionName next h = next version { h with store } ∧
      store.Working ∧ rowsOf s store = rowsOf s h.store := by
  obtain ⟨x, store, hread, hworking, hmoves⟩ := readSnapshotSafely_ok
    localeCompare env "revision_shim" hw hs
  refine ⟨if x.degraded then 0 else x.pendingMessageVersion, store, ?_, hworking,
    rowsOf_ensured hmoves⟩
  rw [bumping, bumpTransportQueueRevision, Op.map, hread]

/-- A call for each entry retires the ids of all of them. -/
theorem forEntries_ok {call : String → Op QueueSnapshot} {callEnv : OpEnv}
    {op : MessageId → SessionOp}
    (hcall : ∀ id (c : StoreConn), c.Working → Commits callEnv s (op id) c (call id.text c))
    (hretires : ∀ id v, Retires [id] v.entries ((op id).apply callEnv s v).entries)
    {list : List HeldEntry} {ids : List MessageId}
    (hids : list.map (·.queueId) = ids.map (some ·.text)) {store : StoreConn}
    (hw : store.Working) :
    (forEntries call list store).2.Working ∧
      Retires ids (rowsOf s store) (rowsOf s (forEntries call list store).2) := by
  unfold forEntries
  generalize (none : Option QueueSnapshot) = snapshot
  induction list generalizing ids store snapshot with
  | nil =>
    rw [List.map_eq_nil_iff.1 hids.symm]
    exact ⟨hw, .refl _⟩
  | cons entry list ih =>
    cases ids with
    | nil => cases hids
    | cons id ids =>
      obtain ⟨hid, hids⟩ := List.cons.inj hids
      obtain ⟨⟨x, hx⟩, hw₁, hmoves⟩ := hcall id store hw
      rw [List.foldl_cons]
      simp only [hid]
      generalize call id.text store = p at hx hw₁ hmoves
      obtain ⟨r, store₁⟩ := p
      dsimp only at hx hw₁ hmoves
      subst hx
      obtain ⟨hw₂, hrows⟩ := ih hids hw₁ (some x)
      have hone : Retires [id] (rowsOf s store) (rowsOf s store₁) := by
        have hentries : rowsOf s store₁ = _ := congrArg SessionState.entries hmoves.session
        rw [hentries]
        exact hretires id _
      exact ⟨hw₂, hone.trans hrows⟩

theorem retires_markFailed (env : OpEnv) (id : MessageId) (reason : QueueFailureReason)
    (v : SessionState) :
    Retires [id] v.entries ((SessionOp.markFailed id reason).apply env s v).entries := by
  rw [SessionOp.entries_apply, SessionOp.change]
  constructor
  · intro r hr hid
    refine SessionState.mem_mapEntries.2 ⟨r, hr, Or.inr ⟨?_, rfl⟩⟩
    simpa [hasId] using hid
  · intro r' hr' hlive
    obtain ⟨r, hr, ⟨-, rfl⟩ | ⟨hid, rfl⟩⟩ := SessionState.mem_mapEntries.1 hr'
    · exact absurd (show QueueEntryStatus.failed.isLive from hlive) (by decide)
    · exact ⟨hr, by simpa [hasId] using hid⟩

theorem retires_without (id : MessageId) (v : SessionState) :
    Retires [id] v.entries (v.without id).entries := by
  constructor
  · intro r hr hid
    exact List.mem_filter.2 ⟨hr, by simpa using hid⟩
  · intro r hr _
    obtain ⟨hr, hid⟩ := List.mem_filter.1 hr
    exact ⟨hr, by simpa using hid⟩

theorem retires_drop (env : OpEnv) (id : MessageId) (v : SessionState) :
    Retires [id] v.entries ((SessionOp.drop id).apply env s v).entries := by
  rw [SessionOp.entries_apply]
  exact retires_without id v

/-! ## The lease -/

theorem map_queueId (list : List HeldEntry)
    (h : ∀ e ∈ list, ∃ id : MessageId, e.clientMessageId = some id.text ∧
      e.queueId = some id.text) :
    ∃ ids : List MessageId, list.map (·.queueId) = ids.map (some ·.text) ∧
      list.map (·.clientMessageId) = ids.map (some ·.text) := by
  induction list with
  | nil => exact ⟨[], rfl, rfl⟩
  | cons e list ih =>
    obtain ⟨id, hid, hqueue⟩ := h e (List.mem_cons_self ..)
    obtain ⟨ids, hids, hids'⟩ := ih fun x hx => h x (List.mem_cons_of_mem e hx)
    exact ⟨id :: ids, by simp [hqueue, hids], by simp [hid, hids']⟩

/-- **A lease is complete**, whichever of the entries it is for. -/
theorem leaseEntries_complete {list : List HeldEntry} {created : MessageId → Prop}
    {store : StoreConn} (h : InStep list (rowsOf s store) created) (hw : store.Working)
    (hs : normalizeSessionName sessionName = .ok s) (p : HeldEntry → Bool) :
    (leaseEntries env sessionName (list.filter p) store).1 = true := by
  obtain ⟨ids, hqueue, hids⟩ := map_queueId (list.filter p) fun e he =>
    h.queueId_eq (List.mem_of_mem_filter he)
  have hnodup : (ids.map MessageId.text).Nodup := by
    have hn : ((list.filter p).map (·.clientMessageId)).Nodup :=
      h.nodup.sublist (List.filter_sublist.map _)
    rw [hids] at hn
    refine List.Nodup.of_map some ?_
    rwa [List.map_map]
  have hfilterMap : (list.filter p).filterMap (·.queueId) = ids.map MessageId.text := by
    have hcomp : (list.filter p).filterMap (·.queueId) =
        ((list.filter p).map (·.queueId)).filterMap id := by rw [List.filterMap_map]; rfl
    rw [hcomp, hqueue, List.filterMap_map]
    exact congrFun (List.filterMap_eq_map' (f := MessageId.text)) ids
  have hlength : (ids.map MessageId.text).length = (list.filter p).length := by
    have := congrArg List.length hqueue
    simpa using this.symm
  have hrows : ∀ text ∈ ids.map MessageId.text,
      ∃ r ∈ (store.data.session s).entries, r.clientMessageId.text = text := by
    intro text htext
    obtain ⟨id, hid, rfl⟩ := List.mem_map.1 htext
    have hmem : some id.text ∈ (list.filter p).map (·.clientMessageId) := by
      rw [hids]
      exact List.mem_map.2 ⟨id, hid, rfl⟩
    obtain ⟨e, he, hid⟩ := List.mem_map.1 hmem
    obtain ⟨r, hr, -, hrid⟩ := h.live e (List.mem_of_mem_filter he)
    exact ⟨r, hr, Option.some.inj (hrid.symm.trans hid)⟩
  obtain ⟨leased, store', hlease, hcount⟩ := markHandoffInFlight_ok env resendExpiryMs hw hs
    hnodup hrows
  rw [leaseEntries, hfilterMap, if_neg (by simpa using hlength), hlease]
  exact decide_eq_true (hcount.trans hlength)

end Calls

/-! ## Calls of the holder -/

namespace Holder

variable {localeCompare : Collation} {env : OpEnv} {sessionName : String} {s : SessionName}
  {h : Holder}

/-- The id got its row from `enqueueResend`. -/
def Created (sessionName : String) (h : Holder) (id : MessageId) : Prop :=
  .stored sessionName id ∈ h.trace

/-- The list fits the rows of a store that works. -/
structure Sound (sessionName : String) (s : SessionName) (h : Holder) : Prop where
  working : h.store.Working
  inStep : InStep (h.entries sessionName) (rowsOf s h.store) (h.Created sessionName)

theorem Sound.of_entries_nil {h' : Holder} (hw : h'.store.Working)
    (hentries : h'.entries sessionName = []) (hrows : rowsOf s h'.store = []) :
    h'.Sound sessionName s :=
  ⟨hw, by rw [hentries, hrows]; exact .nil (by simp)⟩

/-- What is set is what is there, also when nothing is left. -/
theorem entries_setQueue_list (h : Holder) (list : List HeldEntry) :
    (h.setQueue sessionName (if list = [] then none else some list)).entries sessionName = list := by
  rw [entries_setQueue_self]
  split
  · rw [‹list = []›]; rfl
  · rfl

/-- Entries are taken out of the list, and their rows are retired one by one. -/
theorem Sound.retire (hh : h.Sound sessionName s) {p q : HeldEntry → Bool}
    (hq : ∀ e, q e = !p e) {call : String → Op QueueSnapshot} {callEnv : OpEnv}
    {op : MessageId → SessionOp}
    (hcall : ∀ id (c : StoreConn), c.Working → Commits callEnv s (op id) c (call id.text c))
    (hretires : ∀ id v, Retires [id] v.entries ((op id).apply callEnv s v).entries)
    {h' : Holder} (hentries : h'.entries sessionName = (h.entries sessionName).filter p)
    {store : StoreConn} (hw : store.Working) (hrows : rowsOf s store = rowsOf s h.store)
    (hstore : h'.store = (forEntries call ((h.entries sessionName).filter q) store).2)
    (htrace : h'.trace = h.trace) : h'.Sound sessionName s := by
  obtain ⟨ids, hqueue, hids⟩ := map_queueId ((h.entries sessionName).filter q) fun e he =>
    hh.inStep.queueId_eq (List.mem_of_mem_filter he)
  obtain ⟨hw', hretired⟩ := forEntries_ok hcall hretires hqueue hw
  rw [← hstore] at hw' hretired
  rw [hrows] at hretired
  refine ⟨hw', ?_⟩
  have hcreated : h'.Created sessionName = h.Created sessionName := by
    funext id
    rw [Created, Created, htrace]
  rw [hentries, hcreated]
  exact hh.inStep.filter hq hids hretired

theorem sound_expireResendEntries (hh : h.Sound sessionName s)
    (hs : normalizeSessionName sessionName = .ok s) (nowMs : Int) :
    (expireResendEntries localeCompare env sessionName nowMs h).2.Sound sessionName s := by
  unfold expireResendEntries
  dsimp only
  split
  · exact hh
  · set freshEntries := (h.entries sessionName).filter (·.isFresh nowMs)
    obtain ⟨version, store, hbump, hw, hrows⟩ := bumping_ok localeCompare env _
      (h.setQueue sessionName (if freshEntries = [] then none else some freshEntries)) hh.working hs
    rw [hbump]
    exact hh.retire (fun _ => rfl) (fun id c hc => commits_markFailed id _ hc hs)
      (retires_markFailed _ · _) (entries_setQueue_list h freshEntries) hw hrows rfl rfl

theorem sound_removeResendEntries (hh : h.Sound sessionName s)
    (hs : normalizeSessionName sessionName = .ok s) (predicate : ResendEntry → Bool) :
    (removeResendEntries localeCompare env sessionName predicate h).2.Sound sessionName s := by
  unfold removeResendEntries
  dsimp only
  split
  · exact hh
  · set kept := (h.entries sessionName).filter (!predicate ·.toResendEntry) with hkept
    split
    · rename_i hnone
      have hall : kept = h.entries sessionName :=
        List.filter_sublist.eq_of_length_le (Nat.le_of_sub_eq_zero hnone)
      refine ⟨hh.working, ?_⟩
      rw [entries_setQueue_list, hall]
      exact hh.inStep
    · obtain ⟨version, store, hbump, hw, hrows⟩ := bumping_ok localeCompare env _
        (h.setQueue sessionName (if kept = [] then none else some kept)) hh.working hs
      rw [hbump]
      exact hh.retire (fun _ => (Bool.not_not _).symm) (fun id c hc => commits_drop id _ hc hs)
        (retires_drop _) (entries_setQueue_list h kept) hw hrows rfl rfl

theorem sound_clearResend (hh : h.Sound sessionName s)
    (hs : normalizeSessionName sessionName = .ok s) (reason : ClearReason) :
    (clearResend localeCompare env sessionName reason h).2.Sound sessionName s := by
  have hcreated (h' : Holder) :
      (h'.note (.cleared sessionName)).Created sessionName = h'.Created sessionName := by
    funext id
    simp [Created, note]
  unfold clearResend
  cases hq : h.queues sessionName with
  | none =>
    refine ⟨hh.working, ?_⟩
    rw [hcreated]
    exact hh.inStep
  | some list =>
    obtain ⟨version, store, hbump, hw, -⟩ := bumping_ok localeCompare env _ h hh.working hs
    dsimp only
    rw [hbump]
    have hnil : entries { (h.setQueue sessionName none).note (.cleared sessionName) with
        store := (clearSession localeCompare env sessionName reason store).2 } sessionName = [] :=
      entries_setQueue_self h sessionName none
    cases reason with
    | reset reason =>
      have hc := commits_reset localeCompare env reason none hw hs
      refine .of_entries_nil hc.working hnil ?_
      rw [rowsOf, clearSession, hc.moves.session]
      rfl
    | drop reason =>
      have hc := commits_dropAll localeCompare env reason hw hs
      refine .of_entries_nil hc.working hnil ?_
      rw [rowsOf, clearSession, hc.moves.session]
      rfl

/-! ### Enqueueing -/

/-- No entry that stays is held under the id, and at the limit the entry that goes
has it, or no live row does. -/
def EnqueuesFresh (env : OpEnv) (sessionName : String) (s : SessionName) (entry : ResendEntry)
    (h : Holder) : Prop :=
  (∀ e ∈ h.kept sessionName, e.clientMessageId ≠ some (entry.messageId env).text) ∧
    (h.isFull sessionName →
      ((h.entries sessionName).head?.bind (·.clientMessageId)) =
          some (entry.messageId env).text ∨
        ∀ r ∈ rowsOf s h.store, r.status.isLive → r.clientMessageId ≠ entry.messageId env)

instance (entry : ResendEntry) : Decidable (h.EnqueuesFresh env sessionName s entry) := by
  unfold EnqueuesFresh
  infer_instance

/-- What stays when one more entry is queued fits the rows that stay. -/
theorem inStep_kept (hh : h.Sound sessionName s) :
    (h.kept sessionName).length < maxResendEntries ∧
      InStep (h.kept sessionName) ((h.store.data.session s).evicted
        ((h.evictedId sessionName).bind MessageId.ofString?)).entries (h.Created sessionName) := by
  cases hfull : h.isFull sessionName with
  | false =>
    have hkept : h.kept sessionName = h.entries sessionName := by rw [kept, hfull]; rfl
    have hnone : h.evictedId sessionName = none := by rw [evictedId, hfull]; rfl
    rw [hkept, hnone]
    refine ⟨?_, hh.inStep⟩
    simpa [isFull] using hfull
  | true =>
    have hkept : h.kept sessionName = (h.entries sessionName).tail := by rw [kept, hfull]; rfl
    have hevicted : h.evictedId sessionName = (h.entries sessionName).head?.bind
      (·.clientMessageId) := by rw [evictedId, hfull]; rfl
    have hstep := hh.inStep
    rw [hkept, hevicted]
    cases hlist : h.entries sessionName with
    | nil => simp [isFull, hlist, maxResendEntries] at hfull
    | cons e₀ rest =>
      rw [hlist] at hstep
      obtain ⟨id, hid, -⟩ := hstep.queueId_eq (List.mem_cons_self ..)
      simp only [List.tail_cons, List.head?_cons, Option.bind_some, hid, MessageId.ofString?_text]
      exact ⟨hstep.short, hstep.tail hid (retires_without id _)⟩

/-- At the limit, an id that the store is not told to evict has no live row. -/
theorem EnqueuesFresh.no_live {entry : ResendEntry} (hfresh : h.EnqueuesFresh env sessionName s entry)
    (hfull : h.isFull sessionName) {r r' : EntryRow}
    (hr : r ∈ ((h.store.data.session s).evicted
      ((h.evictedId sessionName).bind MessageId.ofString?)).entries)
    (hid : r.clientMessageId = entry.messageId env) (hr' : r' ∈ rowsOf s h.store)
    (hlive : r'.status.isLive) : r'.clientMessageId ≠ entry.messageId env := by
  rcases hfresh.2 hfull with hhead | hnone
  · have hevicted : h.evictedId sessionName = some (entry.messageId env).text := by
      rw [evictedId, if_pos hfull, hhead]
    rw [hevicted, Option.bind_some, MessageId.ofString?_text] at hr
    exact absurd hid (of_decide_eq_true (List.mem_filter.1 hr).2)
  · exact hnone r' hr' hlive

theorem sound_acceptResend {entry : ResendEntry} {id : MessageId} {queueSnapshot : QueueSnapshot}
    {dropSnapshot : Option QueueSnapshot} (hw : h.store.Working)
    (hstep : InStep (h.kept sessionName ++ [entry.held id h.nextSerial]) (rowsOf s h.store)
      (h.Created sessionName)) :
    (acceptResend sessionName entry id queueSnapshot dropSnapshot h).2.Sound sessionName s := by
  refine ⟨hw, ?_⟩
  have hentries : (acceptResend sessionName entry id queueSnapshot dropSnapshot h).2.entries
      sessionName = h.kept sessionName ++ [entry.held id h.nextSerial] :=
    entries_setQueue_self h sessionName _
  have hcreated : (acceptResend sessionName entry id queueSnapshot dropSnapshot h).2.Created
      sessionName = h.Created sessionName := by
    funext x
    simp [Created, acceptResend]
  rw [hentries, hcreated]
  exact hstep

theorem messageId_queueInput (entry : ResendEntry) (id : MessageId) :
    (entry.queueInput sessionName id).messageId env = id := by
  rw [EnqueueTransportQueueEntryInput.messageId, ResendEntry.queueInput]
  simp

/-- The store has no row of the id: the entry comes in with its row. -/
theorem sound_stored (hh : h.Sound sessionName s) {entry : ResendEntry}
    (hfresh : h.EnqueuesFresh env sessionName s entry) {store : StoreConn} (hw : store.Working)
    {queueSnapshot : QueueSnapshot} {dropSnapshot : Option QueueSnapshot}
    (hmoves : Db.Moves s ((SessionOp.enqueue (entry.queueInput sessionName (entry.messageId env))
      ((h.evictedId sessionName).bind MessageId.ofString?)).apply env s) h.store.data store.data) :
    (acceptResend sessionName entry (entry.messageId env) queueSnapshot dropSnapshot
      (note { h with store } (.stored sessionName (entry.messageId env)))).2.Sound sessionName s := by
  obtain ⟨hlt, hkept⟩ := inStep_kept hh
  obtain ⟨row, hrow, hqueued, hentries⟩ := entries_enqueue env s
    (entry.queueInput sessionName (entry.messageId env))
    ((h.evictedId sessionName).bind MessageId.ofString?) (h.store.data.session s)
  refine sound_acceptResend hw ?_
  have hrows : rowsOf s (note { h with store } (.stored sessionName (entry.messageId env))).store =
      ((h.store.data.session s).evicted
        ((h.evictedId sessionName).bind MessageId.ofString?)).entries ++ [row] :=
    (congrArg SessionState.entries hmoves.session).trans hentries
  rw [hrows]
  refine hkept.push hlt rfl hfresh.1 (hrow.trans (messageId_queueInput entry _)) hqueued
    fun x hx => ?_
  simpa [Created, note] using hx

/-- The store has a row of the id. -/
theorem sound_resendRefused (hh : h.Sound sessionName s)
    (hs : normalizeSessionName sessionName = .ok s) {entry : ResendEntry}
    (hfresh : h.EnqueuesFresh env sessionName s entry) {r : EntryRow}
    (hr : r ∈ ((h.store.data.session s).evicted
      ((h.evictedId sessionName).bind MessageId.ofString?)).entries)
    (hid : r.clientMessageId = entry.messageId env) {store : StoreConn} (hw : store.Working)
    (hdata : store.data = h.store.data) :
    (resendRefused localeCompare env sessionName entry (entry.messageId env)
      { h with store }).2.Sound sessionName s := by
  obtain ⟨x, store₁, hread, hw₁, hmoves, hshows⟩ := readSnapshot_ok
    localeCompare env "read" hw hs
  have hrows : rowsOf s store₁ = rowsOf s h.store := by
    rw [rowsOf_ensured hmoves, rowsOf, rowsOf, hdata]
  unfold resendRefused
  dsimp only
  rw [hread]
  dsimp only
  split
  · -- the id has a live row, so the list is not full and nothing was to be evicted
    rename_i hlisted
    obtain ⟨e, he, heid⟩ := List.any_eq_true.1 hlisted
    obtain ⟨r', hr', hlive, hid'⟩ := (mem_pendingMessageEntries hshows).1
      ⟨e, he, of_decide_eq_true heid⟩
    have hr'' : r' ∈ rowsOf s h.store := hrows ▸ hr'
    have hfull : h.isFull sessionName = false := by
      by_contra hfull
      exact hfresh.no_live (by simpa using hfull) hr hid hr'' hlive hid'
    have hsame : h.kept sessionName = h.entries sessionName := by rw [kept, hfull]; rfl
    have hlt := (inStep_kept hh).1
    rw [hsame] at hlt
    have hhold := hh.inStep.hold (e := entry.held (entry.messageId env) h.nextSerial) hlt rfl
      (by rw [← hsame]; exact hfresh.1) hr'' hlive hid'
    rw [← hsame, ← hrows] at hhold
    exact sound_acceptResend hw₁ hhold
  · obtain ⟨version, store₂, hbump, hw₂, hrows₂⟩ := bumping_ok localeCompare env
      (fun version h => (.ok (EnqueueResendResult.rejected version), h))
      { h with store := store₁ } hw₁ hs
    rw [rejectResend, hbump]
    have hstep := hh.inStep
    rw [← hrows, ← hrows₂] at hstep
    exact ⟨hw₂, hstep⟩

theorem sound_enqueueResend (hh : h.Sound sessionName s)
    (hs : normalizeSessionName sessionName = .ok s) {entry : ResendEntry}
    (hfresh : h.EnqueuesFresh env sessionName s entry) :
    (enqueueResend localeCompare env sessionName entry h).2.Sound sessionName s := by
  set input := entry.queueInput sessionName (entry.messageId env) with hinput
  have hmessage : input.messageId env = entry.messageId env := messageId_queueInput entry _
  unfold enqueueResend
  dsimp only
  by_cases hrow : ∃ r ∈ ((h.store.data.session s).evicted
      ((h.evictedId sessionName).bind MessageId.ofString?)).entries,
      r.clientMessageId = entry.messageId env
  · obtain ⟨r, hr, hid⟩ := hrow
    obtain ⟨e, store, hrefused, hw, hdata⟩ :=
      enqueue_refused localeCompare env input hh.working hs hr (hid.trans hmessage.symm)
    rw [← hinput, hrefused]
    exact sound_resendRefused hh hs hfresh hr hid hw hdata
  · rw [not_exists] at hrow
    have hcommits := Commits.of_enqueue localeCompare env input (h.evictedId sessionName)
      hh.working hs (by rw [hmessage]; exact fun r hr hid => hrow r ⟨hr, hid⟩)
    obtain ⟨⟨result, hresult⟩, hw, hmoves⟩ := hcommits
    rw [← hinput]
    generalize enqueueWithCapacityEviction localeCompare env input (h.evictedId sessionName)
      h.store = p at hresult hw hmoves
    obtain ⟨r, store⟩ := p
    dsimp only at hresult hw hmoves
    subst hresult
    exact sound_stored hh hfresh hw hmoves

/-! ## Runs -/

/-- The list holds at most its limit of entries with distinct ids, each with a live
row; every queued row that `enqueueResend` made has its entry; and a drain, at
whatever time it comes, leases what it asks for. -/
structure Drainable (sessionName : String) (s : SessionName) (h : Holder) : Prop where
  inStep : InStep (h.entries sessionName) (rowsOf s h.store) (h.Created sessionName)
  leases : ∀ env : OpEnv, (leaseEntries env sessionName
    ((h.entries sessionName).filter (·.isFresh env.now)) h.store).1 = true

/-- A call that queues or removes entries of the session. -/
def IsCall (sessionName : String) : Event → Prop
  | .enqueueResend name _ | .expireResendEntries name _ | .removeResendEntries name _
  | .clearResend name _ => name = sessionName
  | .drainResend _ | .dispatchSettled .. | .storeUsed _ => False

/-- An entry that is queued is queued afresh. -/
def QueuesFresh (sessionName : String) (s : SessionName) (env : OpEnv) (h : Holder) : Event → Prop
  | .enqueueResend _ entry => h.EnqueuesFresh env sessionName s entry
  | _ => True

instance : ∀ e, Decidable (IsCall sessionName e)
  | .enqueueResend name _ | .expireResendEntries name _ | .removeResendEntries name _
  | .clearResend name _ => inferInstanceAs (Decidable (name = sessionName))
  | .drainResend _ | .dispatchSettled .. | .storeUsed _ => .isFalse id

instance : ∀ e, Decidable (h.QueuesFresh sessionName s env e)
  | .enqueueResend _ entry => inferInstanceAs (Decidable (h.EnqueuesFresh env sessionName s entry))
  | .expireResendEntries .. | .removeResendEntries .. | .clearResend .. | .drainResend _
  | .dispatchSettled .. | .storeUsed _ => .isTrue trivial

theorem sound_step (hh : h.Sound sessionName s) (hs : normalizeSessionName sessionName = .ok s)
    {e : Event} (hcall : IsCall sessionName e) (hfresh : h.QueuesFresh sessionName s env e) :
    (step localeCompare env h e).Sound sessionName s := by
  cases e with
  | enqueueResend name entry => cases hcall; exact sound_enqueueResend hh hs hfresh
  | expireResendEntries name nowMs => cases hcall; exact sound_expireResendEntries hh hs nowMs
  | removeResendEntries name predicate =>
    cases hcall
    exact sound_removeResendEntries hh hs predicate
  | clearResend name reason => cases hcall; exact sound_clearResend hh hs reason
  | drainResend name => cases hcall
  | dispatchSettled i outcome => cases hcall
  | storeUsed store => cases hcall

/-- **The holder stays drainable**, in every run of calls that queue afresh. -/
theorem drainable_of_fresh (localeCompare : Collation) {sessionName : String} {s : SessionName}
    (hs : normalizeSessionName sessionName = .ok s) {store : StoreConn} (hw : store.Working)
    (events : List (OpEnv × Event)) (hcalls : ∀ p ∈ events, IsCall sessionName p.2)
    (hfresh : Along (fun h p => step localeCompare p.1 h p.2)
      (fun h p => h.QueuesFresh sessionName s p.1 p.2) events (create store)) :
    (run (fun h p => step localeCompare p.1 h p.2) events (create store)).Drainable sessionName s := by
  suffices h : (run (fun h p => step localeCompare p.1 h p.2) events (create store)).Sound
      sessionName s from
    ⟨h.inStep, fun env => leaseEntries_complete h.inStep h.working hs _⟩
  have hstart : (create store).Sound sessionName s :=
    ⟨hw, .nil fun r _ _ hc => List.not_mem_nil hc⟩
  generalize create store = h at hfresh hstart ⊢
  induction events generalizing h with
  | nil => exact hstart
  | cons p events ih =>
    refine ih (fun q hq => hcalls q (List.mem_cons_of_mem p hq)) _ hfresh.2 ?_
    exact sound_step hstart hs (hcalls p (List.mem_cons_self ..)) hfresh.1

/-! ### The same id twice -/

def exampleCall (id : String) : Event :=
  .enqueueResend "deck"
    { text := "hello", commandId := id, clientMessageId := some id, queuedAt := 1000 }

/-- Entries are queued, expired, removed, queued again and cleared. -/
def freshCalls : List (OpEnv × Event) :=
  [(exampleEnv 0, exampleCall "m1"), (exampleEnv 2, exampleCall " m2 "),
    (exampleEnv 4, .expireResendEntries "deck" 1000000), (exampleEnv 5, exampleCall "m3"),
    (exampleEnv 6, .removeResendEntries "deck" fun e => e.commandId = "m3"),
    (exampleEnv 7, exampleCall "m3"), (exampleEnv 8, .clearResend "deck" (.reset .userClear))]

theorem drainable_of_fresh_freshCalls :
    (run (fun h p => step (fun _ _ => 0) p.1 h p.2) freshCalls
      (create (freshConn fun _ => none))).Drainable "deck" exampleSession :=
  drainable_of_fresh (fun _ _ => 0) (by decide) ⟨rfl, fun _ => rfl⟩ freshCalls
    (by decide) (by decide +kernel)

/-- **The same id, queued twice, is held twice** for its one row, and no lease is
complete any more. -/
theorem not_drainable :
    ¬ ∀ (localeCompare : Collation) (sessionName : String) (s : SessionName) (store : StoreConn)
      (events : List (OpEnv × Event)), normalizeSessionName sessionName = .ok s → store.Working →
      (∀ p ∈ events, IsCall sessionName p.2) →
      (run (fun h p => step localeCompare p.1 h p.2) events (create store)).Drainable
        sessionName s := by
  intro hdrainable
  have h := hdrainable (fun _ _ => 0) "deck" exampleSession (freshConn fun _ => none)
    [(exampleEnv 0, exampleCall "m1"), (exampleEnv 2, exampleCall "m1")] (by decide)
    ⟨rfl, fun _ => rfl⟩ (by decide)
  exact absurd (h.leases (exampleEnv 4)) (by decide +kernel)

end Holder

end Imcodes.Resend
