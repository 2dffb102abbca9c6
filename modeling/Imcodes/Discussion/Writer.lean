import Mathlib.Data.List.Range
import Imcodes.Machine.Runs
import Imcodes.Workflow.Types

/-!
# The writer of a discussion file

Segments for the file of a run are queued and appended in batches, one append after the other.  A
queue that is full drops its oldest segments, and an append may fail; listeners are told of both.
`flush` waits for the drain that is on, and `drop` takes the queue away after it.

* `enqueued_step` — what is queued is what the events bring.
* `Sound.step` — an event keeps the books, unless a `drop` goes on while the queue drains again, or
  nobody listens when a segment is lost.
* `accounts_of_along` — what follows for runs; `not_accounts` — a segment is queued between the end
  of a drain and the `drop` that waited for it, and the next one gets a queue of its own.
-/

namespace Imcodes.Discussion

open Workflow Machine

def P2P_DISCUSSION_WRITE_QUEUE_MAX_BYTES : ℕ := 4 * 1024 * 1024

/-- A segment, with its place among all that were queued. -/
structure Segment where
  serial : ℕ
  text : String
deriving DecidableEq

/-- `RunQueue`, with the append that is on -/
structure RunQueue where
  pendingSegments : List Segment := []
  pendingBytes : ℕ := 0
  draining : Bool := false
  /-- How many drain promises of the queue are resolved. -/
  drainPromise : ℕ := 0
  /-- The listeners, by their numbers. -/
  onWriteFailure : Option ℕ := none
  onSegmentDropped : Option ℕ := none
  /-- The batch that is appended. -/
  batch : Option (List Segment) := none

/-- What a listener is told. -/
inductive Report
  | writeFailure (listener : ℕ) (batch : List Segment)
  | segmentDropped (listener : ℕ) (segment : Segment) (queuedBytes : ℕ)
deriving DecidableEq

/-- The segments that a report is about. -/
def Report.segments : Report → List Segment
  | .writeFailure _ batch => batch
  | .segmentDropped _ segment _ => [segment]

/-- A call that waits for a drain promise of a queue. -/
inductive Waiter
  /-- `flush`, with the segments that were queued before it -/
  | flush (queue promise : ℕ) (before : List Segment)
  | drop (queue promise : ℕ)
deriving DecidableEq

def Waiter.queue : Waiter → ℕ
  | .flush queue _ _ | .drop queue _ => queue

def Waiter.promise : Waiter → ℕ
  | .flush _ promise _ | .drop _ promise => promise

def Waiter.isDrop : Waiter → Bool
  | .flush .. => false
  | .drop .. => true

/-- The writer, for one path -/
structure Writer where
  /-- `queues.get(filePath)` -/
  queues : Option ℕ := none
  /-- The queues that were made, by their numbers. -/
  objects : ℕ → RunQueue := fun _ => {}
  made : ℕ := 0
  file : List Segment := []
  /-- What was queued ever. -/
  enqueued : List Segment := []
  reports : List Report := []
  waiters : List Waiter := []
  /-- For each `flush` that is over, what was queued before it. -/
  flushed : List (List Segment) := []

inductive WriterEvent
  | enqueue (text : String) (onWriteFailure onSegmentDropped : Option ℕ)
  /-- An append of a queue succeeds or fails. -/
  | appended (queue : ℕ) (ok : Bool)
  | flush
  | drop
  /-- A call goes on whose promise is resolved. -/
  | goOn (waiter : ℕ)
deriving DecidableEq

/-- `while (queue.pendingBytes + segment.length > …)`: what listeners are told, the segments that
stay, and their bytes -/
def dropOldest (length : ℕ) (onSegmentDropped : Option ℕ) :
    List Segment → ℕ → List Report × List Segment × ℕ
  | [], pendingBytes => ([], [], pendingBytes)
  | segment :: pendingSegments, pendingBytes =>
      if P2P_DISCUSSION_WRITE_QUEUE_MAX_BYTES < pendingBytes + length then
        let queuedBytes := pendingBytes - jsLength segment.text
        let (reports, kept) := dropOldest length onSegmentDropped pendingSegments queuedBytes
        ((onSegmentDropped.map (Report.segmentDropped · segment queuedBytes)).toList ++ reports, kept)
      else ([], segment :: pendingSegments, pendingBytes)

namespace RunQueue

variable (queue : RunQueue)

/-- All pending segments are appended. -/
def takeBatch : RunQueue :=
  { queue with batch := some queue.pendingSegments, pendingSegments := [], pendingBytes := 0 }

/-- `drain`, after an append -/
def drainOn : RunQueue :=
  if queue.pendingSegments = [] then
    { queue with draining := false, batch := none, drainPromise := queue.drainPromise + 1 }
  else queue.takeBatch

/-- `enqueueP2pDiscussionWrite`, for the queue of the path: what listeners are told, and the
queue -/
def push (segment : Segment) (onWriteFailure onSegmentDropped : Option ℕ) :
    List Report × RunQueue :=
  let onSegmentDropped := onSegmentDropped.or queue.onSegmentDropped
  let (reports, kept, pendingBytes) :=
    dropOldest (jsLength segment.text) onSegmentDropped queue.pendingSegments queue.pendingBytes
  let queue := { queue with
    onWriteFailure := onWriteFailure.or queue.onWriteFailure
    onSegmentDropped := onSegmentDropped
    pendingSegments := kept ++ [segment]
    pendingBytes := pendingBytes + jsLength segment.text }
  (reports, if queue.draining then queue else { queue with draining := true }.takeBatch)

end RunQueue

namespace Writer

variable (writer : Writer)

def setQueue (id : ℕ) (queue : RunQueue) : Writer :=
  { writer with objects := Function.update writer.objects id queue }

/-- `getOrCreateQueue` -/
def getOrCreateQueue : Writer × ℕ :=
  match writer.queues with
  | some id => (writer, id)
  | none => ({ writer with queues := some writer.made, made := writer.made + 1 }, writer.made)

/-- `enqueueP2pDiscussionWrite` -/
def enqueue (text : String) (onWriteFailure onSegmentDropped : Option ℕ) : Writer :=
  if text = "" then writer
  else
    let (writer, id) := writer.getOrCreateQueue
    let segment : Segment := ⟨writer.enqueued.length, text⟩
    let (reports, queue) := (writer.objects id).push segment onWriteFailure onSegmentDropped
    { writer.setQueue id queue with
      enqueued := writer.enqueued ++ [segment]
      reports := writer.reports ++ reports }

/-- `drain`, when the append of a queue is over -/
def appended (id : ℕ) (ok : Bool) : Writer :=
  let queue := writer.objects id
  match queue.batch with
  | none => writer
  | some batch =>
      let writer :=
        if ok then { writer with file := writer.file ++ batch }
        else { writer with
          reports := writer.reports ++
            (queue.onWriteFailure.map (Report.writeFailure · batch)).toList }
      writer.setQueue id queue.drainOn

/-- `flushP2pDiscussionWriteQueue` -/
def flush : Writer :=
  match writer.queues with
  | none => { writer with flushed := writer.flushed ++ [writer.enqueued] }
  | some id =>
      let queue := writer.objects id
      if !queue.draining && queue.pendingSegments.isEmpty then
        { writer with flushed := writer.flushed ++ [writer.enqueued] }
      else
        { writer with
          waiters := writer.waiters ++ [.flush id queue.drainPromise writer.enqueued] }

/-- `dropP2pDiscussionWriteQueue` -/
def drop : Writer :=
  match writer.queues with
  | none => writer
  | some id =>
      let queue := writer.objects id
      if queue.draining || !queue.pendingSegments.isEmpty then
        { writer with waiters := writer.waiters ++ [.drop id queue.drainPromise] }
      else { writer with queues := none }

/-- The promise that a call waits for is resolved. -/
def resolved (waiter : Waiter) : Bool :=
  waiter.promise < (writer.objects waiter.queue).drainPromise

/-- What a call does when the promise is resolved. -/
def goOn (index : ℕ) : Writer :=
  match writer.waiters[index]? with
  | none => writer
  | some waiter =>
      if writer.resolved waiter then
        let writer := { writer with waiters := writer.waiters.eraseIdx index }
        match waiter with
        | .flush _ _ before => { writer with flushed := writer.flushed ++ [before] }
        | .drop _ _ => { writer with queues := none }
      else writer

/-- One event at the writer. -/
def step (writer : Writer) : WriterEvent → Writer
  | .enqueue text onWriteFailure onSegmentDropped =>
      writer.enqueue text onWriteFailure onSegmentDropped
  | .appended id ok => writer.appended id ok
  | .flush => writer.flush
  | .drop => writer.drop
  | .goOn index => writer.goOn index

/-- The texts that an event queues. -/
def queuedBy : WriterEvent → List String
  | .enqueue text _ _ => if text = "" then [] else [text]
  | _ => []

/-! ## Accounts -/

/-- A listener was told of the segment. -/
def Reported (segment : Segment) : Prop := ∃ report ∈ writer.reports, segment ∈ report.segments

/-- The segment is in the file, or a listener was told that it is lost. -/
def Settled (segment : Segment) : Prop := segment ∈ writer.file ∨ writer.Reported segment

/-- The segment is pending in a queue that drains, or is appended. -/
def Waits (segment : Segment) : Prop :=
  ∃ id, (writer.objects id).draining = true ∧
    (segment ∈ (writer.objects id).pendingSegments ∨
      ∃ batch, (writer.objects id).batch = some batch ∧ segment ∈ batch)

/-- The writer keeps the order, and accounts for every segment. -/
structure Accounts : Prop where
  oneAppend : ∀ id id', (writer.objects id).batch.isSome → (writer.objects id').batch.isSome →
    id = id'
  order : writer.file.Sublist writer.enqueued
  once : (writer.file.map Segment.serial).Nodup
  accounted : ∀ segment ∈ writer.enqueued, writer.Settled segment ∨ writer.Waits segment
  flushed : ∀ before ∈ writer.flushed, ∀ segment ∈ before, writer.Settled segment

/-- The event is one that the writer bears: a `drop` goes on while the queue of the path is idle,
and somebody listens when segments are lost. -/
def Bears : WriterEvent → Prop
  | .enqueue text _ onSegmentDropped => ∀ id ∈ writer.queues, text ≠ "" →
      (writer.objects id).pendingSegments ≠ [] →
      P2P_DISCUSSION_WRITE_QUEUE_MAX_BYTES <
        (writer.objects id).pendingBytes + jsLength text →
      (onSegmentDropped.or (writer.objects id).onSegmentDropped).isSome
  | .appended id ok => ok = false → (writer.objects id).batch.isSome →
      (writer.objects id).onWriteFailure.isSome
  | .goOn index => ∀ waiter ∈ writer.waiters[index]?, waiter.isDrop → writer.resolved waiter →
      ∀ id ∈ writer.queues, (writer.objects id).draining = false
  | .flush | .drop => True

instance (writer : Writer) : DecidablePred writer.Bears := fun event => by
  unfold Bears
  cases event <;> infer_instance

end Writer

/-! ## One queue -/

variable {writer : Writer} {queue : RunQueue} {segment : Segment} {id : ℕ} {text : String}
  {onWriteFailure onSegmentDropped : Option ℕ}

/-- The oldest segments go, and if somebody listens each of them is reported. -/
theorem dropOldest_spec (length : ℕ) (pendingSegments : List Segment) (pendingBytes : ℕ)
    (hlisten : pendingSegments ≠ [] →
      P2P_DISCUSSION_WRITE_QUEUE_MAX_BYTES < pendingBytes + length → onSegmentDropped.isSome) :
    (dropOldest length onSegmentDropped pendingSegments pendingBytes).2.1 <:+ pendingSegments ∧
    ∀ segment ∈ pendingSegments,
      segment ∈ (dropOldest length onSegmentDropped pendingSegments pendingBytes).2.1 ∨
        ∃ report ∈ (dropOldest length onSegmentDropped pendingSegments pendingBytes).1,
          segment ∈ report.segments := by
  induction pendingSegments generalizing pendingBytes with
  | nil => exact ⟨List.suffix_refl _, fun _ hmem => absurd hmem List.not_mem_nil⟩
  | cons first rest ih =>
    by_cases hfull : P2P_DISCUSSION_WRITE_QUEUE_MAX_BYTES < pendingBytes + length
    · have hsome := hlisten (List.cons_ne_nil _ _) hfull
      obtain ⟨listener, rfl⟩ := Option.isSome_iff_exists.1 hsome
      obtain ⟨hsuffix, hkept⟩ := ih (pendingBytes - jsLength first.text) fun _ _ => rfl
      simp only [dropOldest, if_pos hfull]
      refine ⟨hsuffix.trans (List.suffix_cons _ _), List.forall_mem_cons.2 ⟨Or.inr ?_, ?_⟩⟩
      · exact ⟨_, List.mem_append_left _ (List.mem_singleton_self _), List.mem_singleton_self _⟩
      · intro segment hmem
        refine (hkept segment hmem).imp_right fun ⟨report, hreport, hin⟩ => ?_
        exact ⟨report, List.mem_append_right _ hreport, hin⟩
    · simp only [dropOldest, if_neg hfull]
      exact ⟨List.suffix_refl _, fun _ => Or.inl⟩

namespace RunQueue

/-- What the queue still has to append. -/
def waiting (queue : RunQueue) : List Segment := queue.batch.getD [] ++ queue.pendingSegments

/-- A queue that does not drain has nothing to append. -/
structure Orderly (queue : RunQueue) : Prop where
  batch : queue.draining = queue.batch.isSome
  rest : queue.draining = false → queue.pendingSegments = []

theorem Orderly.waiting_eq_nil (h : Orderly queue) (hidle : queue.draining = false) :
    queue.waiting = [] := by
  rw [waiting, h.rest hidle, List.append_nil]
  have hnone := h.batch.symm
  rw [hidle, Option.isSome_eq_false_iff, Option.isNone_iff_eq_none] at hnone
  rw [hnone]
  rfl

/-- A segment is queued last; what has to go for it is reported. -/
theorem Orderly.push (h : Orderly queue)
    (hlisten : queue.pendingSegments ≠ [] →
      P2P_DISCUSSION_WRITE_QUEUE_MAX_BYTES < queue.pendingBytes + jsLength segment.text →
      (onSegmentDropped.or queue.onSegmentDropped).isSome) :
    Orderly (queue.push segment onWriteFailure onSegmentDropped).2 ∧
    (queue.push segment onWriteFailure onSegmentDropped).2.drainPromise = queue.drainPromise ∧
    (∃ kept, kept.Sublist queue.waiting ∧
      (queue.push segment onWriteFailure onSegmentDropped).2.waiting = kept ++ [segment]) ∧
    ∀ other ∈ queue.waiting,
      other ∈ (queue.push segment onWriteFailure onSegmentDropped).2.waiting ∨
        ∃ report ∈ (queue.push segment onWriteFailure onSegmentDropped).1,
          other ∈ report.segments := by
  obtain ⟨hsuffix, hkept⟩ := dropOldest_spec (jsLength segment.text) queue.pendingSegments
    queue.pendingBytes hlisten
  cases hdraining : queue.draining with
  | true =>
    obtain ⟨batch, hbatch⟩ := Option.isSome_iff_exists.1 (h.batch ▸ hdraining)
    simp only [RunQueue.push, hdraining, if_true, waiting, hbatch, Option.getD_some]
    refine ⟨⟨by simp, nofun⟩, trivial,
      ⟨_, hsuffix.sublist.append_left batch, (List.append_assoc ..).symm⟩, ?_⟩
    intro other hmem
    rcases List.mem_append.1 hmem with hmem | hmem
    · exact Or.inl (List.mem_append_left _ hmem)
    · refine (hkept other hmem).imp_left fun hin => ?_
      exact List.mem_append_right _ (List.mem_append_left _ hin)
  | false =>
    have hnil := h.waiting_eq_nil hdraining
    have hpending := h.rest hdraining
    rw [hnil]
    simp only [RunQueue.push, hdraining, hpending, dropOldest, takeBatch, waiting]
    exact ⟨⟨rfl, fun _ => rfl⟩, rfl, ⟨[], List.Sublist.refl _, rfl⟩,
      fun _ hmem => absurd hmem List.not_mem_nil⟩

/-- An append is over: the pending segments are next, or the drain is over. -/
theorem Orderly.drainOn (hdraining : queue.draining = true) :
    Orderly queue.drainOn ∧ queue.drainOn.waiting = queue.pendingSegments ∧
      (queue.drainOn.drainPromise = queue.drainPromise ∨
        queue.drainOn.drainPromise = queue.drainPromise + 1 ∧ queue.pendingSegments = []) := by
  unfold RunQueue.drainOn
  split
  · rename_i hnil
    exact ⟨⟨rfl, fun _ => hnil⟩, rfl, Or.inr ⟨rfl, hnil⟩⟩
  · exact ⟨⟨hdraining, fun _ => rfl⟩, List.append_nil _, Or.inl rfl⟩

end RunQueue

/-! ## The invariant -/

namespace Writer

/-- What the queue of the path still has to append. -/
def waiting (writer : Writer) : List Segment :=
  match writer.queues with
  | none => []
  | some id => (writer.objects id).waiting

/-- What every event keeps that the writer bears. -/
structure Sound (writer : Writer) : Prop where
  fresh : ∀ id, writer.made ≤ id → writer.objects id = {}
  entry : ∀ id, writer.queues = some id → id < writer.made
  idle : ∀ id, writer.queues ≠ some id → (writer.objects id).draining = false
  orderly : ∀ id, (writer.objects id).Orderly
  serials : writer.enqueued.map Segment.serial = List.range writer.enqueued.length
  order : (writer.file ++ writer.waiting).Sublist writer.enqueued
  accounted : ∀ segment ∈ writer.enqueued, writer.Settled segment ∨ segment ∈ writer.waiting
  queued : ∀ id promise before, .flush id promise before ∈ writer.waiters →
    before ⊆ writer.enqueued
  waiters : ∀ id promise before, .flush id promise before ∈ writer.waiters →
    promise < (writer.objects id).drainPromise → ∀ segment ∈ before, writer.Settled segment
  flushed : ∀ before ∈ writer.flushed, ∀ segment ∈ before, writer.Settled segment

theorem Sound.accounts (h : Sound writer) : Accounts writer where
  oneAppend := by
    have hentry : ∀ id, (writer.objects id).batch.isSome = true → writer.queues = some id := by
      intro id hbatch
      by_contra hother
      rw [← (h.orderly id).batch, h.idle id hother] at hbatch
      cases hbatch
    exact fun id id' hid hid' => Option.some.inj ((hentry id hid).symm.trans (hentry id' hid'))
  order := (List.sublist_append_left _ _).trans h.order
  once := by
    have hsub := ((List.sublist_append_left writer.file writer.waiting).trans h.order).map
      Segment.serial
    rw [h.serials] at hsub
    exact List.nodup_range.sublist hsub
  accounted := by
    intro segment hmem
    refine (h.accounted segment hmem).imp_right fun hin => ?_
    unfold waiting at hin
    cases hqueue : writer.queues with
    | none =>
      rw [hqueue] at hin
      cases hin
    | some id =>
      rw [hqueue] at hin
      have hdraining : (writer.objects id).draining = true := by
        by_contra hidle
        change segment ∈ (writer.objects id).waiting at hin
        rw [(h.orderly id).waiting_eq_nil (Bool.eq_false_iff.2 hidle)] at hin
        cases hin
      rcases List.mem_append.1 hin with hin | hin
      · cases hbatch : (writer.objects id).batch with
        | none =>
          rw [hbatch] at hin
          cases hin
        | some batch =>
          rw [hbatch] at hin
          exact ⟨id, hdraining, Or.inr ⟨batch, hbatch, hin⟩⟩
      · exact ⟨id, hdraining, Or.inl hin⟩
  flushed := h.flushed

/-- If the queue of the path is idle, everything is settled. -/
theorem Sound.settled_of_idle (h : Sound writer)
    (hidle : ∀ id, writer.queues = some id → (writer.objects id).draining = false) :
    writer.waiting = [] ∧ ∀ segment ∈ writer.enqueued, writer.Settled segment := by
  have hnil : writer.waiting = [] := by
    unfold waiting
    split
    · rfl
    · rename_i id hqueue
      exact (h.orderly id).waiting_eq_nil (hidle id hqueue)
  refine ⟨hnil, fun segment hmem => (h.accounted segment hmem).resolve_right ?_⟩
  rw [hnil]
  exact List.not_mem_nil

theorem sound_initial : Sound {} where
  fresh := fun _ _ => rfl
  entry := nofun
  idle := fun _ _ => rfl
  orderly := fun _ => ⟨rfl, fun _ => rfl⟩
  serials := rfl
  order := List.Sublist.refl _
  accounted := fun _ hmem => absurd hmem List.not_mem_nil
  queued := fun _ _ _ hmem => absurd hmem List.not_mem_nil
  waiters := fun _ _ _ hmem => absurd hmem List.not_mem_nil
  flushed := fun _ hmem => absurd hmem List.not_mem_nil

/-- More is in the file, or reported. -/
theorem Settled.mono {other : Writer} (h : writer.Settled segment)
    (hfile : writer.file ⊆ other.file) (hreports : writer.reports ⊆ other.reports) :
    other.Settled segment :=
  h.imp (fun hin => hfile hin) fun ⟨report, hmem, hin⟩ => ⟨report, hreports hmem, hin⟩

theorem Sound.getOrCreateQueue (h : Sound writer) :
    Sound writer.getOrCreateQueue.1 ∧
      writer.getOrCreateQueue.1.queues = some writer.getOrCreateQueue.2 ∧
      writer.getOrCreateQueue.1.enqueued = writer.enqueued ∧
      (∀ id, writer.queues = some id → writer.getOrCreateQueue = (writer, id)) ∧
      (writer.queues = none →
        writer.getOrCreateQueue.1.objects writer.getOrCreateQueue.2 = {}) := by
  unfold Writer.getOrCreateQueue
  cases hqueue : writer.queues with
  | some id => exact ⟨h, hqueue, rfl, fun _ heq => by rw [Option.some.inj heq], nofun⟩
  | none =>
    have hidle : ∀ id, (writer.objects id).draining = false := fun id =>
      h.idle id (by rw [hqueue]; nofun)
    have hnew : ({ writer with queues := some writer.made, made := writer.made + 1 } :
        Writer).waiting = writer.waiting := by
      simp only [waiting, hqueue, h.fresh writer.made le_rfl]
      rfl
    refine ⟨{ h with
      fresh := fun id hle => h.fresh id (Nat.le_of_succ_le hle)
      entry := fun id heq => Option.some.inj heq ▸ Nat.lt_succ_self _
      idle := fun id _ => hidle id
      order := hnew ▸ h.order
      accounted := hnew ▸ h.accounted }, rfl, rfl, nofun, fun _ => h.fresh _ le_rfl⟩

/-- One queue is changed, which stays orderly. -/
theorem Sound.orderly_setQueue (h : Sound writer) (hqueue : queue.Orderly) (id' : ℕ) :
    ((writer.setQueue id queue).objects id').Orderly := by
  unfold setQueue
  dsimp only
  by_cases heq : id' = id
  · rw [heq, Function.update_self]
    exact hqueue
  · rw [Function.update_of_ne heq]
    exact h.orderly id'

theorem waiting_setQueue (hqueue : writer.queues = some id) :
    (writer.setQueue id queue).waiting = queue.waiting := by
  simp only [waiting, setQueue, hqueue, Function.update_self]

theorem waiting_of_queue (hqueue : writer.queues = some id) :
    writer.waiting = (writer.objects id).waiting := by
  simp only [waiting, hqueue]

/-- What is so of the other queues stays so. -/
theorem Sound.setQueue_others (h : Sound writer) (hqueue : writer.queues = some id) :
    (∀ id', writer.made ≤ id' → (writer.setQueue id queue).objects id' = {}) ∧
      ∀ id', writer.queues ≠ some id' →
        ((writer.setQueue id queue).objects id').draining = false := by
  unfold setQueue
  refine ⟨fun id' hle => ?_, fun id' hne => ?_⟩
  · have hlt := h.entry id hqueue
    have heq : id' ≠ id := by omega
    exact (Function.update_of_ne heq _ _).trans (h.fresh id' hle)
  · have heq : id' ≠ id := fun heq => hne (heq ▸ hqueue)
    exact (congrArg _ (Function.update_of_ne heq _ _)).trans (h.idle id' hne)

/-- A segment is queued at the queue of the path. -/
theorem Sound.push (h : Sound writer) (hqueue : writer.queues = some id)
    (hlisten : (writer.objects id).pendingSegments ≠ [] →
      P2P_DISCUSSION_WRITE_QUEUE_MAX_BYTES <
        (writer.objects id).pendingBytes + jsLength text →
      (onSegmentDropped.or (writer.objects id).onSegmentDropped).isSome)
    {pushed : List Report × RunQueue}
    (hpushed : pushed = (writer.objects id).push ⟨writer.enqueued.length, text⟩ onWriteFailure
      onSegmentDropped) :
    Sound { writer.setQueue id pushed.2 with
      enqueued := writer.enqueued ++ [⟨writer.enqueued.length, text⟩]
      reports := writer.reports ++ pushed.1 } := by
  obtain ⟨horderly, hpromise, ⟨kept, hkept, hwaiting⟩, hreported⟩ :=
    @RunQueue.Orderly.push _ ⟨writer.enqueued.length, text⟩ onWriteFailure onSegmentDropped
      (h.orderly id) hlisten
  rw [← hpushed] at horderly hpromise hwaiting hreported
  obtain ⟨hfresh, hidle⟩ := @Sound.setQueue_others writer pushed.2 id h hqueue
  have hnew : (writer.setQueue id pushed.2).waiting = kept ++ [⟨writer.enqueued.length, text⟩] :=
    (waiting_setQueue hqueue).trans hwaiting
  have hold := waiting_of_queue hqueue
  have hmono : ∀ segment, writer.Settled segment → Settled { writer.setQueue id pushed.2 with
      enqueued := writer.enqueued ++ [⟨writer.enqueued.length, text⟩]
      reports := writer.reports ++ pushed.1 } segment := fun _ hsettled =>
    hsettled.mono (List.Subset.refl _) (List.subset_append_left _ _)
  have hpromises : ∀ id', ((writer.setQueue id pushed.2).objects id').drainPromise =
      (writer.objects id').drainPromise := by
    intro id'
    unfold setQueue
    dsimp only
    by_cases heq : id' = id
    · rw [heq, Function.update_self, hpromise]
    · rw [Function.update_of_ne heq]
  exact {
    fresh := hfresh
    entry := h.entry
    idle := hidle
    orderly := h.orderly_setQueue horderly
    serials := by
      simp [h.serials, List.range_succ]
    order := by
      have hsub := h.order
      rw [hold] at hsub
      show (writer.file ++ (writer.setQueue id pushed.2).waiting).Sublist _
      rw [hnew, ← List.append_assoc]
      exact ((hkept.append_left _).trans hsub).append_right _
    accounted := by
      intro segment hmem
      show _ ∨ segment ∈ (writer.setQueue id pushed.2).waiting
      rw [hnew]
      rcases List.mem_append.1 hmem with hmem | hmem
      · rcases h.accounted segment hmem with hsettled | hin
        · exact Or.inl (hmono segment hsettled)
        · rw [hold] at hin
          rw [hwaiting] at hreported
          refine (hreported segment hin).symm.imp_left fun ⟨report, hreport, hin⟩ => ?_
          exact Or.inr ⟨report, List.mem_append_right _ hreport, hin⟩
      · exact Or.inr (List.mem_append_right _ hmem)
    queued := fun id' promise before hmem _ hin =>
      List.mem_append_left _ (h.queued id' promise before hmem hin)
    waiters := by
      intro id' promise before hmem hresolved segment hin
      rw [hpromises] at hresolved
      exact hmono segment (h.waiters id' promise before hmem hresolved segment hin)
    flushed := fun before hmem segment hin => hmono segment (h.flushed before hmem segment hin) }

theorem Sound.enqueue (h : Sound writer)
    (hbears : writer.Bears (.enqueue text onWriteFailure onSegmentDropped)) :
    Sound (writer.enqueue text onWriteFailure onSegmentDropped) := by
  unfold Writer.enqueue
  split
  · exact h
  · rename_i htext
    obtain ⟨hsound, hqueue, -, hsame, hnew⟩ := h.getOrCreateQueue
    refine hsound.push hqueue ?_ rfl
    cases hentry : writer.queues with
    | some id =>
      rw [hsame id hentry]
      exact hbears id hentry htext
    | none =>
      rw [hnew hentry]
      exact fun hne => absurd rfl hne

/-! ## Appends -/

/-- A queue that drains is the queue of the path. -/
theorem Sound.queues_of_draining (h : Sound writer)
    (hdraining : (writer.objects id).draining = true) : writer.queues = some id := by
  by_contra hother
  rw [h.idle id hother] at hdraining
  cases hdraining

/-- An append is over, and its batch is settled. -/
theorem Sound.drainOn (h : Sound writer) {batch : List Segment}
    (hbatch : (writer.objects id).batch = some batch) {file : List Segment} {reports : List Report}
    (hfile : writer.file ⊆ file) (hreports : writer.reports ⊆ reports)
    (horder : (file ++ (writer.objects id).pendingSegments).Sublist
      (writer.file ++ (batch ++ (writer.objects id).pendingSegments)))
    (hbatchSettled : ∀ segment ∈ batch, segment ∈ file ∨
      ∃ report ∈ reports, segment ∈ report.segments) :
    Sound ({ writer with file := file, reports := reports }.setQueue id
      (writer.objects id).drainOn) := by
  have hdraining : (writer.objects id).draining = true := by
    rw [(h.orderly id).batch, hbatch]
    rfl
  have hqueue := h.queues_of_draining hdraining
  obtain ⟨horderly, hwaiting, hpromise⟩ := RunQueue.Orderly.drainOn hdraining
  obtain ⟨hfresh, hidle⟩ := @Sound.setQueue_others writer (writer.objects id).drainOn id h hqueue
  have hold : writer.waiting = batch ++ (writer.objects id).pendingSegments := by
    rw [waiting_of_queue hqueue, RunQueue.waiting, hbatch]
    rfl
  have hnew : (writer.setQueue id (writer.objects id).drainOn).waiting =
      (writer.objects id).pendingSegments := (waiting_setQueue hqueue).trans hwaiting
  have hmono : ∀ segment, writer.Settled segment →
      ({ writer with file := file, reports := reports }.setQueue id
        (writer.objects id).drainOn).Settled segment :=
    fun _ hsettled => hsettled.mono hfile hreports
  have haccounted : ∀ segment ∈ writer.enqueued,
      ({ writer with file := file, reports := reports }.setQueue id
        (writer.objects id).drainOn).Settled segment ∨
        segment ∈ (writer.objects id).pendingSegments := by
    intro segment hmem
    rcases h.accounted segment hmem with hsettled | hin
    · exact Or.inl (hmono segment hsettled)
    · rw [hold] at hin
      exact (List.mem_append.1 hin).imp_left (hbatchSettled segment)
  exact {
    fresh := hfresh
    entry := h.entry
    idle := hidle
    orderly := h.orderly_setQueue horderly
    serials := h.serials
    order := by
      show (file ++ (writer.setQueue id (writer.objects id).drainOn).waiting).Sublist _
      rw [hnew]
      exact horder.trans (hold ▸ h.order)
    accounted := by
      intro segment hmem
      show _ ∨ segment ∈ (writer.setQueue id (writer.objects id).drainOn).waiting
      rw [hnew]
      exact haccounted segment hmem
    queued := h.queued
    waiters := by
      intro id' promise before hmem hresolved segment hin
      by_cases hearlier : promise < (writer.objects id').drainPromise
      · exact hmono segment (h.waiters id' promise before hmem hearlier segment hin)
      -- the drain that is awaited ends here, with nothing pending
      · have hlast : (writer.objects id).pendingSegments = [] := by
          by_cases heq : id' = id
          · subst heq
            have hresolved : promise < (writer.objects id').drainOn.drainPromise := by
              simpa [setQueue] using hresolved
            rcases hpromise with hsame | ⟨-, hnil⟩
            · exact absurd (hsame ▸ hresolved) hearlier
            · exact hnil
          · have hresolved : promise < (writer.objects id').drainPromise := by
              simpa [setQueue, Function.update_of_ne heq] using hresolved
            exact absurd hresolved hearlier
        refine (haccounted segment (h.queued id' promise before hmem hin)).resolve_right ?_
        rw [hlast]
        exact List.not_mem_nil
    flushed := fun before hmem segment hin => hmono segment (h.flushed before hmem segment hin) }

theorem Sound.appended {ok : Bool} (h : Sound writer) (hbears : writer.Bears (.appended id ok)) :
    Sound (writer.appended id ok) := by
  unfold Writer.appended
  dsimp only
  split
  · exact h
  · rename_i batch hbatch
    cases ok with
    | true =>
      refine h.drainOn hbatch (List.subset_append_left _ _) (List.Subset.refl _) ?_ ?_
      · rw [List.append_assoc]
      · exact fun segment hin => Or.inl (List.mem_append_right _ hin)
    | false =>
      obtain ⟨listener, hlistener⟩ := Option.isSome_iff_exists.1 (hbears rfl (by rw [hbatch]; rfl))
      rw [hlistener]
      refine h.drainOn hbatch (List.Subset.refl _) (List.subset_append_left _ _) ?_ ?_
      · exact (List.sublist_append_right batch _).append_left _
      · exact fun segment hin => Or.inr ⟨.writeFailure listener batch,
          List.mem_append_right _ (List.mem_singleton_self _), hin⟩

/-! ## Waiting -/

/-- A `flush` that has nothing to wait for is over. -/
theorem Sound.flushedNow (h : Sound writer)
    (hidle : ∀ id, writer.queues = some id → (writer.objects id).draining = false) :
    Sound { writer with flushed := writer.flushed ++ [writer.enqueued] } := by
  refine { h with flushed := fun before hmem => ?_ }
  rcases List.mem_append.1 hmem with hmem | hmem
  · exact h.flushed before hmem
  · rw [List.mem_singleton.1 hmem]
    exact (h.settled_of_idle hidle).2

theorem Sound.flush (h : Sound writer) : Sound writer.flush := by
  unfold Writer.flush
  split
  · rename_i hnone
    exact h.flushedNow fun id hid => by rw [hnone] at hid; cases hid
  · rename_i id hqueue
    dsimp only
    split
    · rename_i hidle
      simp only [Bool.and_eq_true, Bool.not_eq_true'] at hidle
      refine h.flushedNow fun id' hid' => ?_
      rw [← Option.some.inj (hqueue.symm.trans hid')]
      exact hidle.1
    · -- the promise is that of the drain that is on
      refine { h with
        queued := fun id' promise before hmem => ?_
        waiters := fun id' promise before hmem hresolved => ?_ }
      · rcases List.mem_append.1 hmem with hmem | hmem
        · exact h.queued id' promise before hmem
        · cases List.mem_singleton.1 hmem
          exact List.Subset.refl _
      · rcases List.mem_append.1 hmem with hmem | hmem
        · exact h.waiters id' promise before hmem hresolved
        · cases List.mem_singleton.1 hmem
          exact absurd hresolved (Nat.lt_irrefl _)

/-- An idle queue is taken away. -/
theorem Sound.remove (h : Sound writer)
    (hidle : ∀ id, writer.queues = some id → (writer.objects id).draining = false) :
    Sound { writer with queues := none } := by
  obtain ⟨hnil, hsettled⟩ := h.settled_of_idle hidle
  refine { h with
    entry := nofun
    idle := fun id _ => ?_
    order := ?_
    accounted := fun segment hmem => Or.inl (hsettled segment hmem) }
  · by_cases hqueue : writer.queues = some id
    · exact hidle id hqueue
    · exact h.idle id hqueue
  · have horder := h.order
    rw [hnil] at horder
    exact horder

theorem Sound.drop (h : Sound writer) : Sound writer.drop := by
  unfold Writer.drop
  split
  · exact h
  · rename_i id hqueue
    dsimp only
    split
    · refine { h with
        queued := fun id' promise before hmem => ?_
        waiters := fun id' promise before hmem => ?_ }
      · rcases List.mem_append.1 hmem with hmem | hmem
        · exact h.queued id' promise before hmem
        · cases List.mem_singleton.1 hmem
      · rcases List.mem_append.1 hmem with hmem | hmem
        · exact h.waiters id' promise before hmem
        · cases List.mem_singleton.1 hmem
    · rename_i hidle
      simp only [Bool.or_eq_true, not_or, Bool.not_eq_true] at hidle
      refine h.remove fun id' hid' => ?_
      rw [← Option.some.inj (hqueue.symm.trans hid')]
      exact hidle.1

theorem Sound.goOn {index : ℕ} (h : Sound writer) (hbears : writer.Bears (.goOn index)) :
    Sound (writer.goOn index) := by
  unfold Writer.goOn
  split
  · exact h
  · rename_i waiter hwaiter
    split
    · rename_i hresolved
      have hsub : ∀ other ∈ writer.waiters.eraseIdx index, other ∈ writer.waiters :=
        fun _ hmem => (List.eraseIdx_sublist _ _).subset hmem
      have hrest : Sound { writer with waiters := writer.waiters.eraseIdx index } :=
        { h with
          queued := fun id promise before hmem => h.queued id promise before (hsub _ hmem)
          waiters := fun id promise before hmem => h.waiters id promise before (hsub _ hmem) }
      cases waiter with
      | flush id promise before =>
        refine { hrest with flushed := fun other hmem => ?_ }
        rcases List.mem_append.1 hmem with hmem | hmem
        · exact h.flushed other hmem
        · rw [List.mem_singleton.1 hmem]
          exact h.waiters id promise before (List.mem_of_getElem? hwaiter)
            (of_decide_eq_true hresolved)
      | drop id promise => exact hrest.remove (hbears _ hwaiter rfl hresolved)
    · exact h

/-- What is queued is what the events bring. -/
theorem enqueued_step (writer : Writer) (event : WriterEvent) :
    (writer.step event).enqueued.map Segment.text =
      writer.enqueued.map Segment.text ++ queuedBy event := by
  have hsame : ∀ other : Writer, other.enqueued = writer.enqueued →
      other.enqueued.map Segment.text = writer.enqueued.map Segment.text ++ [] := fun other h => by
    rw [h, List.append_nil]
  cases event with
  | enqueue text onWriteFailure onSegmentDropped =>
    have hcreated : writer.getOrCreateQueue.1.enqueued = writer.enqueued := by
      unfold getOrCreateQueue
      split <;> rfl
    dsimp only [step, queuedBy]
    unfold Writer.enqueue
    split
    · exact hsame writer rfl
    · dsimp only
      rw [hcreated, List.map_append, List.map_singleton]
  | appended id ok =>
    refine hsame _ ?_
    dsimp only [step]
    unfold Writer.appended
    dsimp only
    split
    · rfl
    · cases ok <;> rfl
  | flush =>
    refine hsame _ ?_
    dsimp only [step]
    unfold Writer.flush
    split
    · rfl
    · dsimp only
      split <;> rfl
  | drop =>
    refine hsame _ ?_
    dsimp only [step]
    unfold Writer.drop
    split
    · rfl
    · dsimp only
      split <;> rfl
  | goOn index =>
    refine hsame _ ?_
    dsimp only [step]
    unfold Writer.goOn
    split
    · rfl
    · split
      · dsimp only
        split <;> rfl
      · rfl

/-- An event that the writer bears keeps its books. -/
theorem Sound.step {event : WriterEvent} (h : Sound writer) (hbears : writer.Bears event) :
    Sound (writer.step event) := by
  cases event with
  | enqueue text onWriteFailure onSegmentDropped => exact h.enqueue hbears
  | appended id ok => exact h.appended hbears
  | flush => exact h.flush
  | drop => exact h.drop
  | goOn index => exact h.goOn hbears

end Writer

/-! ## Runs -/

/-- **A writer accounts for every segment** that is queued, in every run in which it bears the
events. -/
theorem accounts_of_along (events : List WriterEvent)
    (hbears : Along Writer.step Writer.Bears events {}) :
    (run Writer.step events {}).enqueued.map Segment.text = events.flatMap Writer.queuedBy ∧
      (run Writer.step events {}).Accounts := by
  refine ⟨?_, (run_invariant Writer.Sound (fun _ _ h hok => h.step hok) Writer.sound_initial
    hbears).accounts⟩
  exact run_flatMap (fun writer : Writer => writer.enqueued.map Segment.text) Writer.queuedBy
    Writer.enqueued_step {} events

/-- Two segments are appended, one is lost, a `flush` waits, and the queue is taken away. -/
def wholeRun : List WriterEvent :=
  [.enqueue "a" (some 1) (some 2), .enqueue "b" none none, .flush, .drop, .appended 0 true,
    .appended 0 false, .goOn 0, .goOn 0, .enqueue "c" none none, .appended 1 true, .drop]

theorem accounts_of_along_wholeRun :
    (run Writer.step wholeRun {}).enqueued.map Segment.text =
        wholeRun.flatMap Writer.queuedBy ∧
      (run Writer.step wholeRun {}).Accounts :=
  accounts_of_along wholeRun (by decide +kernel)

/-- A segment is queued after the drain for which a `drop` waits and before the `drop` goes on; the
next one comes to another queue. -/
def dropWhileDraining : List WriterEvent :=
  [.enqueue "a" (some 1) (some 2), .drop, .appended 0 true, .enqueue "b" (some 1) (some 2), .goOn 0,
    .enqueue "c" (some 1) (some 2)]

/-- Two appends are on at once, and the later segment may come first. -/
theorem not_accounts : ¬∀ events : List WriterEvent, (run Writer.step events {}).Accounts := by
  intro h
  have hone := (h dropWhileDraining).oneAppend 0 1 (by decide +kernel) (by decide +kernel)
  exact absurd hone (by decide)

example : (run Writer.step (dropWhileDraining ++ [.appended 1 true, .appended 0 true])
    {}).file.map Segment.text = ["a", "c", "b"] := by decide +kernel

end Imcodes.Discussion
