import Imcodes.Queue.Rows
import Imcodes.Transport.Drains
import Imcodes.Transport.Once

/-!
# What a new process finds of the queue

The queue of a runtime is kept twice: in memory, and in the rows of its session.
A process that dies leaves the rows, and `rehydratePendingFromStore` of the next
one reads the queue from them.

* `Mirrors` — the rows of a session say what waits, in what order, and with what
  private material.
* `Mirrors.enqueue`, `Mirrors.drop`, `Mirrors.edit`, `Mirrors.drain` — what the
  runtime does to its queue and to the rows at once.
* `rehydrate_of_mirrors` — what is read from such rows.
* `recovers_of_along` — **the queue survives a crash**, in every run in which no
  message is edited, none is removed by its prefix, no two are at the front, and
  every id is one that the store keeps as it is.
* `not_recovers` — an edit does not survive it.
-/

namespace Imcodes.Transport

open Imcodes.Queue Machine Relational SessionState

/-! ## The queue and its rows -/

/-- Where a message waits. -/
def PendingEntry.placement (e : PendingEntry) : QueuePlacement :=
  if e.intake = .front then .front else .normal

/-- Of messages with distinct ids, erasing the first with an id leaves those with another. -/
theorem eraseP_eq_filter {l : List PendingEntry} (h : (l.map (·.clientMessageId)).Nodup)
    {id : String} :
    l.eraseP (·.clientMessageId = id) = l.filter fun e => e.clientMessageId ≠ id := by
  induction l with
  | nil => rfl
  | cons e l ih =>
    obtain ⟨hnot, hnodup⟩ := List.nodup_cons.1 h
    by_cases hid : e.clientMessageId = id
    · have hall : ∀ x ∈ l, decide (x.clientMessageId ≠ id) = true := fun x hx =>
        decide_eq_true fun heq => hnot (List.mem_map.2 ⟨x, hx, heq.trans hid.symm⟩)
      rw [List.eraseP_cons_of_pos (by simpa using hid),
        List.filter_cons_of_neg (by simpa using hid), List.filter_eq_self.2 hall]
    · rw [List.eraseP_cons_of_neg (by simpa using hid),
        List.filter_cons_of_pos (by simpa using hid), ih hnodup]

/-- A message that joins the queue, at either end. -/
theorem mem_joined {e x : PendingEntry} {pending : List PendingEntry} :
    (x ∈ if e.placement = .front then e :: pending else pending ++ [e]) ↔
      x ∈ pending ∨ x = e := by
  split
  · rw [List.mem_cons, or_comm]
  · rw [List.mem_append, List.mem_singleton]

/-- The rows of a session say what waits. -/
structure Mirrors (v : SessionState) (pending : List PendingEntry) : Prop where
  ordered : v.Ordered
  listed : v.inOrder.map (fun r => (r.clientMessageId.text, r.placement)) =
    pending.map fun e => (e.clientMessageId, e.placement)
  queued : ∀ r ∈ v.entries, r.status = .queued
  material : ∀ r ∈ v.entries, ∀ e ∈ pending, r.clientMessageId.text = e.clientMessageId →
    v.materialFor r.clientMessageId = some e.material
  undelivered : ∀ r ∈ v.entries, ∀ t ∈ v.tombstones, t.clientMessageId ≠ r.clientMessageId
  normal : ∀ e ∈ pending, e.messagePreamble ≠ some "" ∧ e.attachments ≠ some []

/-- The row is of a message that waits, and its private material says all of it. -/
structure Describes (v : SessionState) (r : EntryRow) (e : PendingEntry) : Prop where
  id : r.clientMessageId.text = e.clientMessageId
  queued : r.status = .queued
  undelivered : ∀ t ∈ v.tombstones, t.clientMessageId ≠ r.clientMessageId
  material : v.materialFor r.clientMessageId = some e.material
  normal : e.messagePreamble ≠ some "" ∧ e.attachments ≠ some []

namespace Mirrors

variable {v v' : SessionState} {pending : List PendingEntry} {env : OpEnv} {s : SessionName}
  {id : MessageId} {r : EntryRow} {e : PendingEntry}

theorem ids (h : Mirrors v pending) :
    v.inOrder.map (·.clientMessageId.text) = pending.map (·.clientMessageId) := by
  have hfst := congrArg (List.map Prod.fst) h.listed
  rwa [List.map_map, List.map_map] at hfst

/-- A row is of a message that waits. -/
theorem exists_entry (h : Mirrors v pending) (hr : r ∈ v.entries) :
    ∃ e ∈ pending, e.clientMessageId = r.clientMessageId.text ∧ e.placement = r.placement := by
  have hmem : (r.clientMessageId.text, r.placement) ∈
      v.inOrder.map fun r => (r.clientMessageId.text, r.placement) :=
    List.mem_map_of_mem (mem_inOrder.2 hr)
  rw [h.listed] at hmem
  obtain ⟨e, he, heq⟩ := List.mem_map.1 hmem
  exact ⟨e, he, congrArg Prod.fst heq, congrArg Prod.snd heq⟩

/-- A message that waits has a row. -/
theorem exists_row (h : Mirrors v pending) (he : e ∈ pending) :
    ∃ r ∈ v.entries, r.clientMessageId.text = e.clientMessageId := by
  have hmem : e.clientMessageId ∈ pending.map (·.clientMessageId) := List.mem_map_of_mem he
  rw [← h.ids] at hmem
  obtain ⟨r, hr, hid⟩ := List.mem_map.1 hmem
  exact ⟨r, mem_inOrder.1 hr, hid⟩

/-- No two messages that wait have one id. -/
theorem nodup (h : Mirrors v pending) (hv : v.NoTwins) :
    (pending.map (·.clientMessageId)).Nodup := by
  rw [← h.ids]
  have hinj : Function.Injective MessageId.text := fun _ _ => MessageId.ext
  have hnodup : (v.inOrder.map (·.clientMessageId)).Nodup :=
    (v.inOrder_perm.map _).nodup_iff.2 hv
  have htexts := hnodup.map hinj
  rwa [List.map_map] at htexts

/-- One row after the other says what waits. -/
theorem describes (h : Mirrors v pending) : List.Forall₂ (Describes v) v.inOrder pending := by
  have hlength : v.inOrder.length = pending.length := by
    simpa using congrArg List.length h.ids
  have hids : List.Forall₂ (· = ·) (v.inOrder.map (·.clientMessageId.text))
      (pending.map (·.clientMessageId)) := by
    rw [h.ids, List.forall₂_eq_eq_eq]
  rw [List.forall₂_map_left_iff, List.forall₂_map_right_iff] at hids
  refine List.forall₂_iff_zip.2 ⟨hlength, fun {r e} hmem => ?_⟩
  obtain ⟨hr, he⟩ := List.of_mem_zip hmem
  have hid := (List.forall₂_iff_zip.1 hids).2 hmem
  have hr := mem_inOrder.1 hr
  exact ⟨hid, h.queued r hr, h.undelivered r hr, h.material r hr e he hid, h.normal e he⟩

theorem of_empty (hentries : v.entries = []) : Mirrors v [] where
  ordered := by
    rw [Ordered, hentries]
    exact List.pairwise_singleton _ _
  listed := by simp [inOrder, hentries]
  queued := by simp [hentries]
  material := by simp
  undelivered := by simp [hentries]
  normal := by simp

/-! ### A message joins -/

/-- Where an enqueued message is listed. -/
theorem listed_enqueue (h : Mirrors v pending) {input : EnqueueTransportQueueEntryInput}
    (hid : (input.messageId env).text = e.clientMessageId)
    (hplacement : input.placement.getD .normal = e.placement)
    (hfront : e.placement = .front → ∀ e' ∈ pending, e'.placement ≠ .front) :
    ((SessionOp.enqueue input none).apply env s v).inOrder.map
        (fun r => (r.clientMessageId.text, r.placement)) =
      (if e.placement = .front then e :: pending else pending ++ [e]).map
        fun e => (e.clientMessageId, e.placement) := by
  have hentries := SessionOp.entries_enqueue env s v input
  set row := input.row env s (input.now.getD env.now) v.nextOrdinal
  have hrow : (row.clientMessageId.text, row.placement) = (e.clientMessageId, e.placement) :=
    Prod.ext hid hplacement
  by_cases hplace : e.placement = .front
  · have hnone : ∀ r ∈ v.entries, r.placement ≠ .front := by
      intro r hr hfirst
      obtain ⟨e', he', -, hsame⟩ := h.exists_entry hr
      exact hfront hplace e' he' (hsame.trans hfirst)
    rw [inOrder_front hentries (hplacement.trans hplace) hnone, if_pos hplace, List.map_cons,
      List.map_cons, h.listed, hrow]
  · have hback : row.placement ≠ .front := fun hfirst => hplace (hplacement.symm.trans hfirst)
    rw [inOrder_normal hentries hback, if_neg hplace, List.map_append, List.map_append, h.listed,
      List.map_singleton, List.map_singleton, hrow]

/-- The rows after an enqueue of a message that none of them is of. -/
theorem enqueue (h : Mirrors v pending) {input : EnqueueTransportQueueEntryInput}
    (hid : (input.messageId env).text = e.clientMessageId)
    (hplacement : input.placement.getD .normal = e.placement)
    (hmaterial : input.privateMaterialJson = some e.material)
    (hfresh : ∀ e' ∈ pending, e'.clientMessageId ≠ e.clientMessageId)
    (hundelivered : ∀ t ∈ v.tombstones, t.clientMessageId.text ≠ e.clientMessageId)
    (hfront : e.placement = .front → ∀ e' ∈ pending, e'.placement ≠ .front)
    (hnormal : e.messagePreamble ≠ some "" ∧ e.attachments ≠ some []) :
    Mirrors ((SessionOp.enqueue input none).apply env s v)
      (if e.placement = .front then e :: pending else pending ++ [e]) := by
  have hlisted := h.listed_enqueue (s := s) hid hplacement hfront
  have hentries := SessionOp.entries_enqueue env s v input
  have hfor (id : MessageId) := SessionOp.materialFor_enqueue env s v id hmaterial
  have htombstones := SessionOp.tombstones_enqueue env s v input
  set v' := (SessionOp.enqueue input none).apply env s v
  set row := input.row env s (input.now.getD env.now) v.nextOrdinal
  have hrow : row.clientMessageId = input.messageId env := rfl
  have hrows : ∀ r ∈ v.entries, r.clientMessageId ≠ input.messageId env := by
    intro r hr heq
    obtain ⟨e', he', hid', -⟩ := h.exists_entry hr
    exact hfresh e' he' (hid'.trans ((congrArg MessageId.text heq).trans hid))
  have hcase {r : EntryRow} (hr : r ∈ v'.entries) : r ∈ v.entries ∨ r = row := by
    rwa [hentries, List.mem_append, List.mem_singleton] at hr
  refine ⟨h.ordered.apply env s _, hlisted, ?_, ?_, ?_, ?_⟩
  · intro r hr
    rcases hcase hr with hr | rfl
    · exact h.queued r hr
    · rfl
  · intro r hr e' he' hids
    rw [hfor]
    rcases hcase hr with hr | rfl
    · rw [if_neg (Ne.symm (hrows r hr))]
      rcases mem_joined.1 he' with he' | rfl
      · exact h.material r hr e' he' hids
      · exact absurd (MessageId.ext (hids.trans hid.symm)) (hrows r hr)
    · rw [if_pos hrow.symm]
      rcases mem_joined.1 he' with he' | rfl
      · exact absurd (hids.symm.trans hid) (hfresh e' he')
      · rfl
  · intro r hr t ht
    rw [htombstones] at ht
    rcases hcase hr with hr | rfl
    · exact h.undelivered r hr t ht
    · exact fun heq => hundelivered t ht ((congrArg MessageId.text heq).trans hid)
  · intro e' he'
    rcases mem_joined.1 he' with he' | rfl
    · exact h.normal e' he'
    · exact hnormal

/-! ### Messages leave -/

/-- The rows after the removal of a message. -/
theorem drop (h : Mirrors v pending) (hv : v.NoTwins) (id : MessageId) :
    Mirrors ((SessionOp.drop id).apply env s v)
      (pending.eraseP (·.clientMessageId = id.text)) := by
  have hentries : ((SessionOp.drop id).apply env s v).entries =
      v.entries.filter fun r => r.clientMessageId ≠ id := SessionOp.entries_apply env s _ v
  have hfor (other : MessageId) : ((SessionOp.drop id).apply env s v).materialFor other =
      if id = other then none else v.materialFor other := materialFor_withoutMaterial
  have htombstones : ((SessionOp.drop id).apply env s v).tombstones = v.tombstones := rfl
  set v' := (SessionOp.drop id).apply env s v
  have hkept {r : EntryRow} (hr : r ∈ v'.entries) : r ∈ v.entries ∧ r.clientMessageId ≠ id := by
    rw [hentries] at hr
    exact ⟨List.mem_of_mem_filter hr, of_decide_eq_true (List.mem_filter.1 hr).2⟩
  refine ⟨h.ordered.apply env s _, ?_, ?_, ?_, ?_, ?_⟩
  · have horder : v'.inOrder = v.inOrder.filter fun r => r.clientMessageId ≠ id := by
      simp only [inOrder, hentries, List.filter_append, List.filter_filter, Bool.and_comm]
    rw [horder, eraseP_eq_filter (h.nodup hv)]
    have hlisted := congrArg (List.filter fun k => k.1 ≠ id.text) h.listed
    rw [List.filter_map, List.filter_map] at hlisted
    refine Eq.trans ?_ hlisted
    congr 2
    funext r
    simp only [Function.comp, decide_eq_decide, ne_eq]
    exact not_congr ⟨congrArg MessageId.text, MessageId.ext⟩
  · exact fun r hr => h.queued r (hkept hr).1
  · intro r hr e he hids
    rw [hfor, if_neg (Ne.symm (hkept hr).2)]
    exact h.material r (hkept hr).1 e (List.mem_of_mem_eraseP he) hids
  · exact fun r hr t ht => h.undelivered r (hkept hr).1 t ht
  · exact fun e he => h.normal e (List.mem_of_mem_eraseP he)

/-- The rows after all that waits has been finalized. -/
theorem drain (h : Mirrors v pending) {ids : List MessageId} (frame : String)
    (hids : ∀ e ∈ pending, ∃ id ∈ ids, id.text = e.clientMessageId) :
    Mirrors ((SessionOp.finalizeSentBatch ids frame).apply env s v) [] := by
  refine .of_empty (List.eq_nil_iff_forall_not_mem.2 fun r hr => ?_)
  obtain ⟨r₀, hr₀, hlineage⟩ := SessionOp.lineage_apply hr
  have hsame : r₀.clientMessageId = r.clientMessageId := congrArg (·.2.1) hlineage
  obtain ⟨e, he, hid, -⟩ := h.exists_entry (hr₀.resolve_right List.not_mem_nil)
  obtain ⟨id, hmem, htext⟩ := hids e he
  refine SessionOp.gone_of_finalize hmem r hr (hsame.symm.trans (MessageId.ext ?_))
  rw [htext, hid]

/-! ### A message gets a text -/

/-- The rows after an edit: it changes none of what is recovered. -/
theorem edit (h : Mirrors v pending) (id : MessageId) (text : String) :
    Mirrors ((SessionOp.edit id text).apply env s v) pending := by
  set f := fun r : EntryRow =>
    if hasId id r then { r with text := text, updatedAt := env.now } else r with hf
  have hentries : ((SessionOp.edit id text).apply env s v).entries = v.entries.map f :=
    SessionOp.entries_apply env s _ v
  have hid (r : EntryRow) : (f r).clientMessageId = r.clientMessageId := by
    rw [hf]
    dsimp only
    split <;> rfl
  have hplacement (r : EntryRow) : (f r).placement = r.placement := by
    rw [hf]
    dsimp only
    split <;> rfl
  have hstatus (r : EntryRow) : (f r).status = r.status := by
    rw [hf]
    dsimp only
    split <;> rfl
  set v' := (SessionOp.edit id text).apply env s v
  clear_value f
  refine ⟨h.ordered.apply env s _, ?_, ?_, ?_, ?_, h.normal⟩
  · have horder : v'.inOrder = v.inOrder.map f := by
      simp only [inOrder, hentries, List.filter_map, List.map_append, Function.comp_def, hplacement]
    rw [horder, List.map_map, ← h.listed]
    simp only [Function.comp_def, hid, hplacement]
  all_goals
    intro x hx
    rw [hentries] at hx
    obtain ⟨r, hr, rfl⟩ := List.mem_map.1 hx
  · rw [hstatus]
    exact h.queued r hr
  · rw [hid]
    exact h.material r hr
  · rw [hid]
    exact h.undelivered r hr

end Mirrors

namespace TransportSessionRuntime

variable {localeCompare : Collation} {env : StepEnv} {rt : TransportSessionRuntime}
  {s : SessionName} {v : SessionState} {pending : List PendingEntry}

/-! ## Reading the rows -/

theorem filter_ne_eq {α : Type} [DecidableEq α] {o : Option α} {a : α} (h : o ≠ some a) :
    o.filter (· ≠ a) = o := by
  cases o with
  | none => rfl
  | some b => exact Option.filter_some_pos (decide_eq_true fun hab => h (congrArg some hab))

/-- The private material of an entry holds all of it. -/
theorem recoveredFromMaterial_material {e : PendingEntry}
    (h : e.messagePreamble ≠ some "" ∧ e.attachments ≠ some []) :
    recoveredFromMaterial e.clientMessageId e.material = e.toPendingTransportMessage := by
  obtain ⟨⟨id, text, preamble, attachments, actor, timeline, history⟩, serial, intake⟩ := e
  obtain ⟨hpreamble, hattachments⟩ := h
  simp only [recoveredFromMaterial, PendingEntry.material, PendingTransportMessage.mk.injEq,
    true_and]
  refine ⟨filter_ne_eq hpreamble, filter_ne_eq hattachments, ?_, ?_⟩
  · cases timeline <;> rfl
  · cases history <;> rfl

variable (localeCompare env) in
theorem recoverRow_eq (projection : QueueProjectionEntry) {id : MessageId}
    {material : QueuePrivateDispatchMaterial} (hworking : rt.store.Working)
    (hname : normalizeSessionName rt.sessionKey = .ok s)
    (hid : projection.clientMessageId = id.text)
    (hundelivered : ∀ t ∈ (rt.store.data.session s).tombstones, t.clientMessageId ≠ id)
    (hmaterial : (rt.store.data.session s).materialFor id = some material) :
    ∃ store, recoverRow localeCompare env projection rt =
        (some (recoveredFromMaterial id.text material), { rt with store := store }) ∧
      store.Working ∧ store.data = rt.store.data := by
  obtain ⟨c₁, h₁, hworking₁, hdata₁⟩ := hasDeliveryTombstone_ok id hworking hname
  obtain ⟨c₂, h₂, hworking₂, hdata₂⟩ := readPrivateDispatchMaterial_ok id hworking₁ hname
  have hnone : ((rt.store.data.session s).tombstones.any fun r => r.clientMessageId = id) = false :=
    List.any_eq_false.2 fun t ht => by simpa using hundelivered t ht
  rw [hnone] at h₁
  rw [hdata₁, hmaterial] at h₂
  refine ⟨c₂, ?_, hworking₂, hdata₂.trans hdata₁⟩
  unfold recoverRow
  simp only [hid, h₁, h₂]

/-- What is recovered from rows that say what waits. -/
theorem recoverRows_eq {m : MetaRow} {rows : List EntryRow} {pending : List PendingEntry}
    (h : List.Forall₂ (Describes v) rows pending) (hnodup : (pending.map (·.clientMessageId)).Nodup)
    (liveIds : List String) (hlive : ∀ e ∈ pending, e.clientMessageId ∉ liveIds)
    (rt : TransportSessionRuntime) (hworking : rt.store.Working)
    (hname : normalizeSessionName rt.sessionKey = .ok s) (hv : rt.store.data.session s = v) :
    (recoverRows localeCompare env
        (rows.map fun r => buildQueueProjectionEntry (parseStoredEntry m r)) liveIds rt).1 =
      pending.map (·.toPendingTransportMessage) := by
  induction h generalizing liveIds rt with
  | nil => rfl
  | @cons r e rows pending hdescribes _ ih =>
    obtain ⟨hnot, hnodup⟩ := List.nodup_cons.1 hnodup
    subst hv
    have hid : (buildQueueProjectionEntry (parseStoredEntry m r)).clientMessageId =
        r.clientMessageId.text := rfl
    obtain ⟨store, hrow, hworking', hdata⟩ := recoverRow_eq localeCompare env
      (buildQueueProjectionEntry (parseStoredEntry m r)) hworking hname hid hdescribes.undelivered
      hdescribes.material
    have hstatus : (buildQueueProjectionEntry (parseStoredEntry m r)).status = .queued :=
      hdescribes.queued
    have hnotLive : (buildQueueProjectionEntry (parseStoredEntry m r)).clientMessageId ∉ liveIds :=
      fun hmem => hlive e List.mem_cons_self (by rwa [← hdescribes.id])
    rw [List.map_cons, recoverRows, if_neg (not_not.2 hstatus), if_neg hnotLive, hrow]
    dsimp only
    rw [List.map_cons, hdescribes.id, recoveredFromMaterial_material hdescribes.normal]
    refine congrArg _ (ih hnodup _ ?_ _ hworking' hname (congrArg (Db.session s) hdata))
    intro e' he' hmem
    rcases List.mem_cons.1 hmem with hsame | hmem
    · exact hnot (List.mem_map.2 ⟨e', he', hsame⟩)
    · exact hlive e' (List.mem_cons_of_mem _ he') hmem

theorem messages_recoveredEntries (serial : Nat) (messages : List PendingTransportMessage) :
    (recoveredEntries serial messages).map (·.toPendingTransportMessage) = messages := by
  induction messages generalizing serial with
  | nil => rfl
  | cons m rest ih => rw [recoveredEntries, List.map_cons, ih]

/-- A runtime without messages reads what waits from the rows that say it. -/
theorem rehydrate_of_mirrors (hbound : rt.providerSessionId ≠ none) (hlive : rt.liveIds = [])
    (hworking : rt.store.Working) (hname : normalizeSessionName rt.sessionKey = .ok s)
    (h : Mirrors (rt.store.data.session s) pending) :
    (rehydratePendingFromStore localeCompare env rt).2.pendingMessages.map
      (·.toPendingTransportMessage) = pending.map (·.toPendingTransportMessage) := by
  obtain ⟨x, c, hread, hworking', hmoves, m, source, why, hm, rfl⟩ :=
    readSnapshot_ok localeCompare env.store "restart_rehydrate" hworking hname
  have hsession : c.data.session s =
      (rt.store.data.session s).ensured env.store s env.store.now := hmoves.session
  replace h : Mirrors (c.data.session s) pending := by
    rw [hsession]
    exact { h with ordered := h.ordered.ensured env.store s env.store.now }
  have hpending : rt.pendingMessages = [] := by
    rw [liveIds, List.append_eq_nil_iff, List.map_eq_nil_iff] at hlive
    exact hlive.1
  have hrecovered : (readRecoverable localeCompare env rt).1 =
      pending.map (·.toPendingTransportMessage) := by
    rw [readRecoverable, if_neg hbound, hread]
    dsimp only [buildSnapshot]
    rw [projectEntries_rows localeCompare _ h.ordered hm, hlive]
    have hall : (c.data.session s).inOrder.filter (fun r => r.status.isLive) =
        (c.data.session s).inOrder := by
      refine List.filter_eq_self.2 fun r hr => ?_
      rw [h.queued r (mem_inOrder.1 hr)]
      rfl
    rw [hall]
    exact recoverRows_eq h.describes (h.nodup (noTwins_session c s)) [] (by simp) _ hworking'
      hname rfl
  unfold rehydratePendingFromStore
  generalize hp : readRecoverable localeCompare env rt = p at hrecovered
  obtain ⟨recovered, rt'⟩ := p
  have hpending' : rt'.pendingMessages = [] := by
    obtain ⟨store, hlane⟩ := lane_readRecoverable localeCompare env rt
    rw [hp] at hlane
    exact (congrArg Lane.pending hlane).trans hpending
  dsimp only at hrecovered ⊢
  split
  · rename_i hnil
    rw [← hrecovered, hnil, hpending']
    rfl
  · dsimp only
    rw [hpending', List.nil_append, messages_recoveredEntries, hrecovered]

/-! ## A crash -/

/-- The file as a new process opens it: what was not committed is gone. -/
def reopened (c : StoreConn) : StoreConn := ⟨c.saved.getD c.data, none, 0, 0, fun _ => none⟩

/-- The runtime of a new process for the same session, once it is bound and has
called `rehydratePendingFromStore`. -/
def restarted (localeCompare : Collation) (env : StepEnv) (provider : Provider) (id : String)
    (rt : TransportSessionRuntime) : TransportSessionRuntime :=
  (rehydratePendingFromStore localeCompare env
    ((create provider rt.sessionKey (reopened rt.store)).setProviderSessionId id)).2

/-- Should the process die now, the next one recovers what waits: the same
messages, in the same order, each with all that belongs to it. -/
def Recovers (localeCompare : Collation) (rt : TransportSessionRuntime) : Prop :=
  ∀ (env : StepEnv) (provider : Provider) (id : String), id ≠ "" →
    (restarted localeCompare env provider id rt).pendingMessages.map
        (·.toPendingTransportMessage) =
      rt.pendingMessages.map (·.toPendingTransportMessage)

/-- What is asked of the queue does to the rows what it does in memory: a message
that has to wait has an id which the store keeps as it is, and does not come to
the front before another one; an edit leaves the message as it is; no message is
removed by its prefix. -/
def KeepsRows (rt : TransportSessionRuntime) (p : StepEnv × Event) : Prop :=
  match p.2 with
  | .send input => rt.hasActiveTurnWork p.1.view = true →
      jsTrim (input.messageId p.1.uuid) = input.messageId p.1.uuid ∧
        input.messageId p.1.uuid ≠ "" ∧
        (input.placement = .front → ∀ e ∈ rt.pendingMessages, e.intake ≠ .front)
  | .editPendingMessage id text => ∀ e ∈ rt.pendingMessages, e.clientMessageId = id →
      id ≠ "" → text ≠ "" → e.text = text ∧ e.messagePreamble = none
  | .removePendingMessagesByCommandIdPrefix commandIdPrefix => commandIdPrefix ≠ "" →
      ∀ e ∈ rt.pendingMessages, jsStartsWith e.clientMessageId commandIdPrefix = false
  | _ => True

/-- The rows are those of the queue; `used` are the ids that have been given away. -/
structure Backed (s : SessionName) (used : List String)
    (q : String × List PendingEntry × StoreConn) : Prop where
  name : normalizeSessionName q.1 = .ok s
  working : q.2.2.Working
  mirrors : Mirrors (q.2.2.data.session s) q.2.1
  known : ∀ e ∈ q.2.1, e.clientMessageId ∈ used
  delivered : ∀ t ∈ (q.2.2.data.session s).tombstones, t.clientMessageId.text ∈ used

theorem Backed.recovers {used : List String} (h : Backed s used rt.queue) :
    Recovers localeCompare rt := by
  intro env provider id hid
  have hsaved : rt.store.saved = none := h.working.saved
  have hdata : (reopened rt.store).data = rt.store.data := by
    rw [reopened, hsaved]
    rfl
  refine rehydrate_of_mirrors (s := s) ?_ rfl ⟨rfl, fun _ => rfl⟩ h.name ?_
  · simp [setProviderSessionId, hid]
  · change Mirrors ((reopened rt.store).data.session s) rt.pendingMessages
    rw [hdata]
    exact h.mirrors

namespace Backed

variable {used : List String} {q : String × List PendingEntry × StoreConn}

theorem mono {used' : List String} (h : Backed s used q) (hsub : used ⊆ used') :
    Backed s used' q :=
  { h with
    known := fun e he => hsub (h.known e he)
    delivered := fun t ht => hsub (h.delivered t ht) }

/-- A message waits in the store under its own id. -/
theorem exists_messageId (h : Backed s used q) {e : PendingEntry} (he : e ∈ q.2.1) :
    ∃ id : MessageId, id.text = e.clientMessageId := by
  obtain ⟨r, -, hid⟩ := h.mirrors.exists_row he
  exact ⟨r.clientMessageId, hid⟩

variable (localeCompare) in
theorem enqueue (env : OpEnv) (input : EnqueueTransportQueueEntryInput) {e : PendingEntry}
    (h : Backed s used q) (hkey : input.sessionName = q.1)
    (hid : (input.messageId env).text = e.clientMessageId)
    (hplacement : input.placement.getD .normal = e.placement)
    (hmaterial : input.privateMaterialJson = some e.material) (hnew : e.clientMessageId ∉ used)
    (hfront : e.placement = .front → ∀ e' ∈ q.2.1, e'.placement ≠ .front)
    (hnormal : e.messagePreamble ≠ some "" ∧ e.attachments ≠ some []) :
    Backed s (e.clientMessageId :: used)
      (q.1, if e.placement = .front then e :: q.2.1 else q.2.1 ++ [e],
        (Queue.enqueue localeCompare env input q.2.2).2) := by
  have hrows : ∀ r ∈ (q.2.2.data.session s).entries, r.clientMessageId ≠ input.messageId env := by
    intro r hr heq
    obtain ⟨e', he', hid', -⟩ := h.mirrors.exists_entry hr
    refine hnew ?_
    rw [← hid, ← heq, ← hid']
    exact h.known e' he'
  have hcommits := commits_enqueue localeCompare env h.working (hkey ▸ h.name) hrows
  have hsession := hcommits.moves.session
  refine ⟨h.name, hcommits.working, ?_, ?_, ?_⟩
  · dsimp only
    rw [hsession]
    exact h.mirrors.enqueue hid hplacement hmaterial
      (fun e' he' heq => hnew (heq ▸ h.known e' he'))
      (fun t ht heq => hnew (heq ▸ h.delivered t ht)) hfront hnormal
  · intro e' he'
    dsimp only at he'
    rcases mem_joined.1 he' with he' | rfl
    · exact List.mem_cons_of_mem _ (h.known e' he')
    · exact List.mem_cons_self
  · intro t ht
    dsimp only at ht
    rw [hsession, SessionOp.tombstones_enqueue] at ht
    exact List.mem_cons_of_mem _ (h.delivered t ht)

theorem drop {env : OpEnv} (h : Backed s used q) (id : MessageId) (reason : QueueDropReason) :
    Backed s used (q.1, q.2.1.eraseP (·.clientMessageId = id.text),
      (Queue.drop localeCompare env q.1 id.text reason q.2.2).2) := by
  have hcommits : Commits env s (.drop id) q.2.2
      (Queue.drop localeCompare env q.1 id.text reason q.2.2) :=
    commits_drop id reason h.working h.name
  have hsession := hcommits.moves.session
  refine ⟨h.name, hcommits.working, ?_, ?_, ?_⟩
  · dsimp only
    rw [hsession]
    exact h.mirrors.drop (noTwins_session q.2.2 s) id
  · exact fun e he => h.known e (List.mem_of_mem_eraseP he)
  · intro t ht
    dsimp only at ht
    rw [hsession] at ht
    exact h.delivered t ht

theorem edit {env : OpEnv} (h : Backed s used q) (id : MessageId) (text : String) :
    Backed s used (q.1, q.2.1, (Queue.edit localeCompare env q.1 id.text text q.2.2).2) := by
  have hcommits := commits_edit localeCompare env id text h.working h.name
  have hsession := hcommits.moves.session
  refine ⟨h.name, hcommits.working, ?_, h.known, ?_⟩
  · dsimp only
    rw [hsession]
    exact h.mirrors.edit id text
  · intro t ht
    dsimp only at ht
    rw [hsession] at ht
    exact h.delivered t ht

theorem drain {env : OpEnv} (h : Backed s used q) (hpending : q.2.1 ≠ []) (frame : String) :
    Backed s used (q.1, [], (finalizeSentBatch localeCompare env q.1
      (q.2.1.map (·.clientMessageId)) frame q.2.2).2) := by
  set ids := ((q.2.1.map (·.clientMessageId)).filterMap MessageId.ofString?).eraseDups with hids
  have hmem {id : MessageId} : id ∈ ids ↔ ∃ e ∈ q.2.1, id.text = e.clientMessageId := by
    rw [hids, List.mem_eraseDups, List.mem_filterMap]
    constructor
    · rintro ⟨text, htext, hof⟩
      obtain ⟨e, he, rfl⟩ := List.mem_map.1 htext
      obtain ⟨id', hid'⟩ := h.exists_messageId he
      rw [← hid', MessageId.ofString?_text, Option.some.injEq] at hof
      exact ⟨e, he, hof ▸ hid'⟩
    · rintro ⟨e, he, hid⟩
      exact ⟨_, List.mem_map_of_mem he, by rw [← hid, MessageId.ofString?_text]⟩
  have hsome : ids ≠ [] := by
    obtain ⟨e, he⟩ := List.exists_mem_of_ne_nil _ hpending
    obtain ⟨id, hid⟩ := h.exists_messageId he
    exact List.ne_nil_of_mem (hmem.2 ⟨e, he, hid⟩)
  have hcommits := commits_finalizeSentBatch localeCompare env frame h.working h.name hsome
  have hsession := hcommits.moves.session
  refine ⟨h.name, hcommits.working, ?_, fun e he => absurd he List.not_mem_nil, ?_⟩
  · dsimp only
    rw [hsession]
    refine h.mirrors.drain frame fun e he => ?_
    obtain ⟨id, hid⟩ := h.exists_messageId he
    exact ⟨id, hmem.2 ⟨e, he, hid⟩, hid⟩
  · intro t ht
    dsimp only at ht
    rw [hsession] at ht
    rcases SessionOp.mem_of_mem_tombstones ht with hold | hnew
    · exact h.delivered t hold
    · obtain ⟨e, he, hid⟩ := hmem.1 hnew
      exact hid ▸ h.known e he

end Backed

/-! ## Runs -/

theorem placement_entry (input : SendInput) (uuid : String) (serial : Nat) :
    (input.entry uuid serial).placement = input.placement := by
  cases h : input.placement <;> simp [PendingEntry.placement, SendInput.entry, h]

theorem placement_eq_front {e : PendingEntry} : e.placement = .front ↔ e.intake = .front := by
  unfold PendingEntry.placement
  split <;> simp_all

theorem normal_entry (input : SendInput) (uuid : String) (serial : Nat) :
    (input.entry uuid serial).messagePreamble ≠ some "" ∧
      (input.entry uuid serial).attachments ≠ some [] := by
  constructor
  · intro h
    simpa using (Option.filter_eq_some_iff.1 h).2
  · intro h
    simpa using (Option.filter_eq_some_iff.1 h).2

/-- The store keys a message by the id that it is sent with. -/
theorem messageId_enqueueInput {e : PendingEntry}
    (htrim : jsTrim e.clientMessageId = e.clientMessageId) (hne : e.clientMessageId ≠ "")
    (env : OpEnv) (sessionKey : String) (generation : ActivityGenerationLike)
    (placement : QueuePlacement) :
    ((e.enqueueInput sessionKey generation placement).messageId env).text = e.clientMessageId := by
  have hkey := MessageId.ofString?_text ⟨e.clientMessageId, htrim, hne⟩
  rw [EnqueueTransportQueueEntryInput.messageId, PendingEntry.enqueueInput, Option.bind_some, hkey]
  rfl

/-- An edit that leaves the message as it is. -/
theorem editFirst_eq_self {id text : String} {l : List PendingEntry}
    (h : ∀ e ∈ l, e.clientMessageId = id → e.text = text ∧ e.messagePreamble = none) :
    editFirst id text l = l := by
  induction l with
  | nil => rfl
  | cons e l ih =>
    rw [editFirst]
    split
    · rename_i hid
      obtain ⟨htext, hpreamble⟩ := h e List.mem_cons_self hid
      rw [editedEntry, ← htext, ← hpreamble]
    · rw [ih fun e he => h e (List.mem_cons_of_mem _ he)]

/-- A step that keeps the rows keeps them those of the queue. -/
theorem backed_step {used : List String} {e : Event} (h : Backed s used rt.queue)
    (hback : PutsNothingBack rt (env, e)) (hkeeps : KeepsRows rt (env, e))
    (hnew : ∀ id ∈ e.sendId env.uuid, id ∉ used) :
    Backed s (e.sendId env.uuid ++ used) (step localeCompare env rt e).queue := by
  have hspec := step_queue localeCompare env hback
  have hsub : used ⊆ e.sendId env.uuid ++ used := List.subset_append_right _ _
  generalize (step localeCompare env rt e).queue = q at hspec ⊢
  cases hspec with
  | keeps => exact h.mono hsub
  | drains hpending => exact (h.drain hpending env.uuid).mono hsub
  | @queued input hbusy =>
    obtain ⟨htrim, hne, hfront⟩ := hkeeps hbusy
    have hid := messageId_enqueueInput (e := input.entry env.uuid rt.nextSerial) htrim hne
      env.store rt.sessionKey rt.currentActivityGeneration input.placement
    have hplacement := placement_entry input env.uuid rt.nextSerial
    have hnormal := normal_entry input env.uuid rt.nextSerial
    have hentry := h.enqueue localeCompare env.store
      ((input.entry env.uuid rt.nextSerial).enqueueInput rt.sessionKey
        rt.currentActivityGeneration input.placement) rfl hid hplacement.symm rfl
      (hnew _ List.mem_cons_self) ?_ hnormal
    · rw [hplacement] at hentry
      exact hentry
    · intro hplace e' he' hplace'
      exact hfront (hplacement.symm.trans hplace) e' he' (placement_eq_front.1 hplace')
  | @edited id text hid htext hmem =>
    obtain ⟨e, he, rfl⟩ := hmem
    obtain ⟨id, hid'⟩ := h.exists_messageId he
    rw [editFirst_eq_self fun e' he' hid'' => hkeeps e' he' hid'' hid htext, ← hid']
    exact h.edit id text
  | @removed id hmem =>
    obtain ⟨e, he, rfl⟩ := hmem
    obtain ⟨id, hid⟩ := h.exists_messageId he
    rw [← hid]
    exact h.drop id .userCleared
  | @removedByPrefix commandIdPrefix hp =>
    have hall : (rt.pendingMessages.filter fun e =>
        !jsStartsWith e.clientMessageId commandIdPrefix) = rt.pendingMessages :=
      List.filter_eq_self.2 fun e he => by rw [hkeeps hp e he]; rfl
    rw [hall]
    exact h

/-- So does a run whose sends are new. -/
theorem backed_run {used : List String} {steps : Steps} (h : Backed s used rt.queue)
    (hids : (sendIds steps).Nodup) (hnew : ∀ id ∈ sendIds steps, id ∉ used)
    (hback : Along (fun rt p => step localeCompare p.1 rt p.2) PutsNothingBack steps rt)
    (hkeeps : Along (fun rt p => step localeCompare p.1 rt p.2) KeepsRows steps rt) :
    ∃ used', Backed s used' (run localeCompare steps rt).queue := by
  induction steps generalizing rt used with
  | nil => exact ⟨used, h⟩
  | cons p steps ih =>
    obtain ⟨hback, hrest⟩ := hback
    obtain ⟨hkeeps, hrest'⟩ := hkeeps
    rw [sendIds, List.flatMap_cons] at hids hnew
    obtain ⟨-, hids, hdisjoint⟩ := List.nodup_append.1 hids
    have hstep : Backed s (p.2.sendId p.1.uuid ++ used) (step localeCompare p.1 rt p.2).queue :=
      backed_step h hback hkeeps fun id hid => hnew id (List.mem_append_left _ hid)
    refine ih hstep hids (fun id hid hmem => ?_) hrest hrest'
    rcases List.mem_append.1 hmem with hmem | hmem
    · exact hdisjoint id hmem id hid rfl
    · exact hnew id (List.mem_append_right _ hid) hmem

/-- **The queue survives a crash**, at any moment of a run that begins with an empty
queue and keeps the rows. -/
theorem recovers_of_along (localeCompare : Collation) (rt : TransportSessionRuntime)
    (s : SessionName) (steps : Steps) (hname : normalizeSessionName rt.sessionKey = .ok s)
    (hworking : rt.store.Working) (hpending : rt.pendingMessages = [])
    (hentries : (rt.store.data.session s).entries = [])
    (htombstones : (rt.store.data.session s).tombstones = []) (hids : (sendIds steps).Nodup)
    (hback : Along (fun rt p => step localeCompare p.1 rt p.2) PutsNothingBack steps rt)
    (hkeeps : Along (fun rt p => step localeCompare p.1 rt p.2) KeepsRows steps rt) :
    Recovers localeCompare (run localeCompare steps rt) := by
  have h : Backed s [] rt.queue := by
    refine ⟨hname, hworking, ?_, ?_, ?_⟩
    · change Mirrors _ rt.pendingMessages
      rw [hpending]
      exact .of_empty hentries
    · change ∀ e ∈ rt.pendingMessages, _
      simp [hpending]
    · change ∀ t ∈ (rt.store.data.session s).tombstones, _
      simp [htombstones]
  obtain ⟨used, hrun⟩ := backed_run h hids (by simp) hback hkeeps
  exact hrun.recovers

/-! ### Messages that wait -/

/-- A bound runtime without messages, beside a new store. -/
def boundRuntime : TransportSessionRuntime :=
  (create exampleProvider "deck" (freshConn fun _ => none)).setProviderSessionId "s"

/-- While a tool runs two messages wait, and one is removed; then the other is
drained, and two more wait. -/
def waitingRun : Steps :=
  [(exampleStepEnv "u", .onToolCall "s" ⟨"t", "Bash", true, false⟩),
    (exampleStepEnv "u", .send { message := "one", clientMessageId := some "m1" }),
    (exampleStepEnv "u", .send
      { message := "two", clientMessageId := some "m2", messagePreamble := some "read this"
        metadata := { queuePlacement := some .front, timelineCommitted := true } }),
    (exampleStepEnv "u", .removePendingMessage "m1"),
    (exampleStepEnv "u", .onToolCall "s" ⟨"t", "Bash", false, false⟩),
    (exampleStepEnv "u", .send { message := "three", clientMessageId := some "m3" }),
    (exampleStepEnv "u", .send
      { message := "four", clientMessageId := some "m4"
        metadata := { queuePlacement := some .front } })]

theorem recovers_of_along_waitingRun :
    (run (fun _ _ => 0) waitingRun boundRuntime).pendingMessages.map (·.clientMessageId) =
        ["m4", "m3"] ∧
      Recovers (fun _ _ => 0) (run (fun _ _ => 0) waitingRun boundRuntime) :=
  ⟨by decide +kernel, recovers_of_along (fun _ _ => 0) boundRuntime exampleSession waitingRun
    (by decide) ⟨rfl, fun _ => rfl⟩ rfl rfl rfl (by decide)
    ⟨trivial, trivial, trivial, trivial, trivial, trivial, trivial, trivial⟩
    ⟨trivial, fun _ => ⟨by decide, by decide, nofun⟩,
      fun _ => ⟨by decide, by decide, fun _ => by decide +kernel⟩, trivial, trivial,
      fun _ => ⟨by decide, by decide, nofun⟩,
      fun _ => ⟨by decide, by decide, fun _ => by decide +kernel⟩, trivial⟩⟩

/-- While a tool runs a message waits, and is edited. -/
def editedRun : Steps :=
  [(exampleStepEnv "u", .onToolCall "s" ⟨"t", "Bash", true, false⟩),
    (exampleStepEnv "u", .send { message := "one", clientMessageId := some "m1" }),
    (exampleStepEnv "u", .editPendingMessage "m1" "two")]

/-- **An edit does not survive a crash**: it changes the row of the message, and
what is recovered is its private material. -/
theorem not_recovers :
    ¬ ∀ (localeCompare : Collation) (rt : TransportSessionRuntime) (s : SessionName)
      (steps : Steps), normalizeSessionName rt.sessionKey = .ok s → rt.store.Working →
      rt.providerSessionId ≠ none → rt.pendingMessages = [] → rt.activeDispatchEntries = [] →
      rt.store.data.session s = .empty → (sendIds steps).Nodup →
      Along (fun rt p => step localeCompare p.1 rt p.2) PutsNothingBack steps rt →
      Recovers localeCompare (run localeCompare steps rt) := by
  intro h
  have hrecovers := h (fun _ _ => 0) boundRuntime exampleSession editedRun (by decide)
    ⟨rfl, fun _ => rfl⟩ (by decide) rfl rfl rfl (by decide) ⟨trivial, trivial, trivial, trivial⟩
    (exampleStepEnv "u") exampleProvider "s" (by decide)
  exact absurd hrecovers (by decide +kernel)

end TransportSessionRuntime

end Imcodes.Transport
