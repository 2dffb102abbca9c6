import Imcodes.Queue.Listing
import Imcodes.Queue.Messages

/-!
# The rows that a runtime leaves and reads

What the operations that a session's runtime asks for do to the order in which
the rows are listed, to the private material and to the tombstones; and the calls
with which a new process reads these.

* `commits_edit`, `commits_enqueue`, `commits_finalizeSentBatch` — on a connection
  that works, the operation is committed.
* `SessionState.inOrder_front`, `SessionState.inOrder_normal` — where a new row is
  listed.
* `SessionState.materialFor` — the private material of a message.
-/

namespace Imcodes.Queue

open Relational SessionState

variable {localeCompare : Collation} {env : OpEnv} {c : StoreConn} {s : SessionName}

/-! ## Calls on a connection that works -/

variable (localeCompare env) in
theorem commits_edit {sessionName : String} (id : MessageId) (text : String) (hc : c.Working)
    (hs : normalizeSessionName sessionName = .ok s) :
    Commits env s (.edit id text) c (edit localeCompare env sessionName id.text text c) :=
  .of_mutationOf hc hs (fun d => moves_updateEntries s d _ _) fun _ => rfl

variable (localeCompare env) in
theorem commits_enqueue {input : EnqueueTransportQueueEntryInput} (hc : c.Working)
    (hs : normalizeSessionName input.sessionName = .ok s)
    (hfresh : ∀ r ∈ (c.data.session s).entries, r.clientMessageId ≠ input.messageId env) :
    Commits env s (.enqueue input none) c (enqueue localeCompare env input c) := by
  have h := Commits.of_enqueue localeCompare env input none hc hs hfresh
  obtain ⟨⟨a, ha⟩, hworking, hmoves⟩ := h
  unfold enqueue Op.map
  generalize enqueueWithCapacityEviction localeCompare env input none c = p at ha hworking hmoves
  obtain ⟨answer, c'⟩ := p
  cases ha
  exact ⟨⟨_, rfl⟩, hworking, hmoves⟩

theorem finalizeBody_ok (env : OpEnv) (s : SessionName) (ids : List MessageId) (frame : String)
    (d : Db) : ∃ v d', (finalizeBody env s ids frame).eval d = .ok (v, d') := by
  obtain ⟨m, d₁, h₁⟩ := ensureMeta_ok env s env.now d
  obtain ⟨d₂, h₂⟩ := forEach_ok (f := fun id => Script.forEach Script.write
    (Db.replaceTombstone ⟨s, m.queueEpoch, id, frame, env.now⟩ :: deleteMessage s id))
    (fun id d => forEach_write_ok _ d) ids d₁
  obtain ⟨v, d₃, h₃⟩ := bumpVersion_ok env s env.now d₂
  exact ⟨v, d₃, Script.eval_bind_eq_ok.2 ⟨m, d₁, h₁, Script.eval_bind_eq_ok.2 ⟨(), d₂, h₂, h₃⟩⟩⟩

variable (localeCompare env) in
/-- A batch of messages that have ids is finalized. -/
theorem commits_finalizeSentBatch {sessionName : String} {ids : List String} (frame : String)
    (hc : c.Working) (hs : normalizeSessionName sessionName = .ok s)
    (hids : (ids.filterMap MessageId.ofString?).eraseDups ≠ []) :
    Commits env s (.finalizeSentBatch (ids.filterMap MessageId.ofString?).eraseDups frame) c
      (finalizeSentBatch localeCompare env sessionName ids frame c) := by
  unfold finalizeSentBatch
  rw [hs, Op.bind_ok]
  rw [if_neg hids]
  refine .of_transaction hc (finalizeBody_ok env s _ frame c.data) fun v d h =>
    ⟨(finalizeBody_spec h).1, _, rfl⟩

theorem hasDeliveryTombstone_ok {sessionName : String} (id : MessageId) (hc : c.Working)
    (hs : normalizeSessionName sessionName = .ok s) :
    ∃ c', hasDeliveryTombstone sessionName id.text c =
        (.ok ((c.data.session s).tombstones.any fun r => r.clientMessageId = id), c') ∧
      c'.Working ∧ c'.data = c.data := by
  rw [hasDeliveryTombstone, hs, Op.bind_ok, requireMessageId_text, Op.bind_ok]
  exact hc.run_eq_ok rfl

/-- The private material of a message. -/
def SessionState.materialFor (v : SessionState) (id : MessageId) :
    Option QueuePrivateDispatchMaterial :=
  (v.material.find? fun r => r.clientMessageId = id).map (·.materialJson)

section Material

variable {v : SessionState} {id : MessageId}

theorem SessionState.materialFor_withoutMaterial {other : MessageId} :
    (v.withoutMaterial other).materialFor id = if other = id then none else v.materialFor id := by
  rw [materialFor, withoutMaterial]
  split
  · rename_i heq
    rw [Option.map_eq_none_iff]
    refine List.find?_eq_none.2 fun r hr => ?_
    have hne := of_decide_eq_true (List.mem_filter.1 hr).2
    simpa [heq] using heq ▸ hne
  · rename_i hne
    rw [materialFor, List.find?_filter]
    congr 2
    funext r
    by_cases hid : r.clientMessageId = id <;> simp [hid, Ne.symm hne]

theorem SessionState.materialFor_putMaterial {m : MaterialRow} :
    (v.putMaterial m).materialFor id =
      if m.clientMessageId = id then some m.materialJson else v.materialFor id := by
  have happend : (v.putMaterial m).materialFor id =
      ((v.withoutMaterial m.clientMessageId).materialFor id).or
        (if m.clientMessageId = id then some m.materialJson else none) := by
    rw [materialFor, putMaterial, List.find?_append, Option.map_or, List.find?_singleton]
    congr 1
    by_cases hid : m.clientMessageId = id <;> simp [hid]
  rw [happend, materialFor_withoutMaterial]
  split
  · exact Option.none_or
  · exact Option.or_none

end Material

theorem readPrivateDispatchMaterial_ok {sessionName : String} (id : MessageId) (hc : c.Working)
    (hs : normalizeSessionName sessionName = .ok s) :
    ∃ c', readPrivateDispatchMaterial sessionName id.text c =
        (.ok ((c.data.session s).materialFor id), c') ∧ c'.Working ∧ c'.data = c.data := by
  rw [readPrivateDispatchMaterial, hs, Op.bind_ok, requireMessageId_text, Op.bind_ok]
  exact hc.run_eq_ok rfl

/-! ## What an operation leaves -/

section Operations

variable {v w : SessionState} {r : EntryRow} {id : MessageId}

/-- A row comes to the front when there is none. -/
theorem SessionState.inOrder_front (hw : w.entries = v.entries ++ [r]) (hr : r.placement = .front)
    (hv : ∀ x ∈ v.entries, x.placement ≠ .front) : w.inOrder = r :: v.inOrder := by
  have hnone : v.entries.filter (·.placement = .front) = [] :=
    List.filter_eq_nil_iff.2 fun x hx hfront => hv x hx (of_decide_eq_true hfront)
  simp [inOrder, hw, hr, hnone]

/-- A row that is not placed at the front comes last. -/
theorem SessionState.inOrder_normal (hw : w.entries = v.entries ++ [r])
    (hr : r.placement ≠ .front) : w.inOrder = v.inOrder ++ [r] := by
  simp [inOrder, hw, hr]

namespace SessionOp

variable {input : EnqueueTransportQueueEntryInput}

variable (env s v input) in
theorem entries_enqueue : ((enqueue input none).apply env s v).entries =
    v.entries ++ [input.row env s (input.now.getD env.now) v.nextOrdinal] := by
  rw [entries_apply, change, push_entries]
  rfl

variable (env s v) in
theorem materialFor_enqueue (id : MessageId) {material : QueuePrivateDispatchMaterial}
    (h : input.privateMaterialJson = some material) :
    ((enqueue input none).apply env s v).materialFor id =
      if input.messageId env = id then some material else v.materialFor id := by
  rw [materialFor, material_apply, change, push, h]
  exact materialFor_putMaterial

variable (env s v input) in
theorem tombstones_enqueue : ((enqueue input none).apply env s v).tombstones = v.tombstones := by
  rw [apply_of_ne_reset (by simp), change, push]
  cases input.privateMaterialJson <;> rfl

/-- What a finalized batch adds to the tombstones is of its messages. -/
theorem mem_of_mem_tombstones {ids : List MessageId} {frame : String} {t : TombstoneRow}
    (ht : t ∈ ((finalizeSentBatch ids frame).apply env s v).tombstones) :
    t ∈ v.tombstones ∨ t.clientMessageId ∈ ids := by
  rw [apply_of_ne_reset (by simp)] at ht
  simp only [change, bumped] at ht
  generalize (v.metaD env s env.now).queueEpoch = epoch at ht
  induction ids generalizing v with
  | nil => exact Or.inl ht
  | cons id ids ih =>
    rcases ih ht with hmem | hmem
    · rcases List.mem_append.1 hmem with hold | hnew
      · exact Or.inl (List.mem_of_mem_filter hold)
      · rw [List.mem_singleton.1 hnew]
        exact Or.inr List.mem_cons_self
    · exact Or.inr (List.mem_cons_of_mem _ hmem)

end SessionOp

end Operations

end Imcodes.Queue
