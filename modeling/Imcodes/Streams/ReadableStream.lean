import Mathlib.Data.Int.Order.Basic
import Mathlib.Data.List.Basic

/-!
# Readable streams

A readable stream with a default controller: chunks that are enqueued are handed to the reads
that wait for them, or else queued.  Whenever there is room the stream asks for more by a *pull*;
an operation says whether it called it.  Nothing here knows what the chunks are.

* `Lawful` — what was enqueued was delivered or is queued, in this order, unless the stream was
  cancelled or failed; each operation keeps it.
* `enqueue_spec`, `close_spec` — a stream that is readable and not asked to close does not throw.
-/

namespace Streams

inductive StreamState
  | readable
  | closed
  | errored
deriving DecidableEq

/-- A stream, its controller and its reader. -/
structure ReadableStream (α : Type*) where
  highWaterMark : ℕ := 1
  state : StreamState := .readable
  queue : List α := []
  closeRequested : Bool := false
  started : Bool := false
  pulling : Bool := false
  pullAgain : Bool := false
  /-- The reads that wait. -/
  readRequests : ℕ := 0
  cancelled : Bool := false
  /-- All that was enqueued. -/
  enqueued : List α := []
  /-- All that was read. -/
  delivered : List α := []

namespace ReadableStream

variable {α : Type*} (stream : ReadableStream α)

/-- `desiredSize`; none when the stream has failed. -/
def desiredSize : Option ℤ :=
  match stream.state with
  | .errored => none
  | .closed => some 0
  | .readable => some (stream.highWaterMark - stream.queue.length)

def canCloseOrEnqueue : Bool := !stream.closeRequested && stream.state = .readable

def shouldCallPull : Bool :=
  stream.canCloseOrEnqueue && stream.started &&
    (0 < stream.readRequests || stream.desiredSize.any (0 < ·))

/-- The pull is called, unless the last one is not over. -/
def callPullIfNeeded : ReadableStream α × Bool :=
  if stream.shouldCallPull then
    if stream.pulling then ({ stream with pullAgain := true }, false)
    else ({ stream with pulling := true }, true)
  else (stream, false)

/-- A chunk is enqueued; none when this throws. -/
def enqueue (chunk : α) : Option (ReadableStream α × Bool) :=
  if stream.canCloseOrEnqueue then
    let stream := { stream with enqueued := stream.enqueued ++ [chunk] }
    if 0 < stream.readRequests then
      some { stream with
        readRequests := stream.readRequests - 1
        delivered := stream.delivered ++ [chunk] }.callPullIfNeeded
    else some { stream with queue := stream.queue ++ [chunk] }.callPullIfNeeded
  else none

/-- The controller closes the stream; none when this throws. -/
def close : Option (ReadableStream α) :=
  if stream.canCloseOrEnqueue then
    if stream.queue.isEmpty then
      some { stream with closeRequested := true, state := .closed, readRequests := 0 }
    else some { stream with closeRequested := true }
  else none

/-- The controller makes the stream fail. -/
def error : ReadableStream α :=
  if stream.state = .readable then
    { stream with state := .errored, queue := [], readRequests := 0 }
  else stream

/-- The consumer cancels the stream, and whether the source is told. -/
def cancel : ReadableStream α × Bool :=
  if stream.state = .readable then
    ({ stream with state := .closed, queue := [], readRequests := 0, cancelled := true }, true)
  else (stream, false)

/-- The consumer reads. -/
def read : ReadableStream α × Bool :=
  if stream.state = .readable then
    match stream.queue with
    | [] => { stream with readRequests := stream.readRequests + 1 }.callPullIfNeeded
    | chunk :: queue =>
        let stream := { stream with queue := queue, delivered := stream.delivered ++ [chunk] }
        if stream.closeRequested && queue.isEmpty then ({ stream with state := .closed }, false)
        else stream.callPullIfNeeded
  else (stream, false)

/-- The stream has started. -/
def start : ReadableStream α × Bool := { stream with started := true }.callPullIfNeeded

/-- A pull is over. -/
def pullSettled : ReadableStream α × Bool :=
  if stream.pullAgain then { stream with pulling := false, pullAgain := false }.callPullIfNeeded
  else ({ stream with pulling := false }, false)

end ReadableStream

open ReadableStream

variable {α : Type*} {stream : ReadableStream α} {chunk : α}

/-- Nothing that was enqueued is lost or changes its place. -/
structure Lawful (stream : ReadableStream α) : Prop where
  order : stream.delivered <+: stream.enqueued
  held : stream.state = .readable → stream.enqueued = stream.delivered ++ stream.queue
  parked : 0 < stream.readRequests → stream.queue = []
  closed : stream.state = .closed → stream.cancelled = false →
    stream.closeRequested = true ∧ stream.enqueued = stream.delivered

theorem lawful_empty : Lawful ({} : ReadableStream α) :=
  ⟨List.prefix_rfl, fun _ => rfl, fun _ => rfl, nofun⟩

/-- A pull changes nothing that the law is about. -/
theorem callPullIfNeeded_eq (stream : ReadableStream α) :
    ∃ pulling pullAgain, stream.callPullIfNeeded.1 =
      { stream with pulling := pulling, pullAgain := pullAgain } := by
  unfold callPullIfNeeded
  split
  · split
    · exact ⟨_, _, rfl⟩
    · exact ⟨_, _, rfl⟩
  · exact ⟨_, _, rfl⟩

theorem callPullIfNeeded_spec (h : Lawful stream) : Lawful stream.callPullIfNeeded.1 ∧
    stream.callPullIfNeeded.1.closeRequested = stream.closeRequested ∧
    stream.callPullIfNeeded.1.state = stream.state ∧
    stream.callPullIfNeeded.1.enqueued = stream.enqueued ∧
    stream.callPullIfNeeded.1.cancelled = stream.cancelled := by
  obtain ⟨pulling, pullAgain, heq⟩ := callPullIfNeeded_eq stream
  rw [heq]
  exact ⟨{ h with }, rfl, rfl, rfl, rfl⟩

theorem canCloseOrEnqueue_iff : stream.canCloseOrEnqueue = true ↔
    stream.closeRequested = false ∧ stream.state = .readable := by
  simp [canCloseOrEnqueue]

/-- A stream that is open takes a chunk. -/
theorem enqueue_spec (h : Lawful stream) (hclose : stream.closeRequested = false)
    (hstate : stream.state = .readable) (chunk : α) :
    ∃ stream' pulls, stream.enqueue chunk = some (stream', pulls) ∧ Lawful stream' ∧
      stream'.closeRequested = false ∧ stream'.state = .readable ∧
      stream'.enqueued = stream.enqueued ++ [chunk] := by
  have hheld := h.held hstate
  rw [ReadableStream.enqueue, if_pos (canCloseOrEnqueue_iff.2 ⟨hclose, hstate⟩)]
  by_cases hwaits : 0 < stream.readRequests
  · have hlawful : Lawful { stream with
        enqueued := stream.enqueued ++ [chunk]
        readRequests := stream.readRequests - 1
        delivered := stream.delivered ++ [chunk] } := by
      refine { h with
        order := ?_
        held := fun _ => ?_
        parked := fun _ => h.parked hwaits
        closed := fun hclosed => (nomatch hstate.symm.trans hclosed) }
      · have hall : stream.delivered = stream.enqueued := by
          rw [hheld, h.parked hwaits, List.append_nil]
        exact hall ▸ List.prefix_rfl
      · dsimp only
        rw [hheld, h.parked hwaits, List.append_nil, List.append_nil]
    obtain ⟨hlawful', hclose', hstate', henqueued, -⟩ := callPullIfNeeded_spec hlawful
    dsimp only
    rw [if_pos hwaits]
    exact ⟨_, _, rfl, hlawful', hclose'.trans hclose, hstate'.trans hstate, henqueued⟩
  · have hlawful : Lawful { stream with
        enqueued := stream.enqueued ++ [chunk]
        queue := stream.queue ++ [chunk] } := by
      refine { h with
        order := h.order.trans (List.prefix_append _ _)
        held := fun _ => ?_
        parked := fun hparked => absurd hparked hwaits
        closed := fun hclosed => (nomatch hstate.symm.trans hclosed) }
      dsimp only
      rw [hheld, List.append_assoc]
    obtain ⟨hlawful', hclose', hstate', henqueued, -⟩ := callPullIfNeeded_spec hlawful
    dsimp only
    rw [if_neg hwaits]
    exact ⟨_, _, rfl, hlawful', hclose'.trans hclose, hstate'.trans hstate, henqueued⟩

/-- A stream that is open can be closed; it is once all is delivered. -/
theorem close_spec (h : Lawful stream) (hclose : stream.closeRequested = false)
    (hstate : stream.state = .readable) :
    ∃ stream', stream.close = some stream' ∧ Lawful stream' ∧ stream'.closeRequested = true ∧
      stream'.enqueued = stream.enqueued := by
  rw [ReadableStream.close, if_pos (canCloseOrEnqueue_iff.2 ⟨hclose, hstate⟩)]
  split
  · rename_i hempty
    have hdelivered := h.held hstate
    rw [List.isEmpty_iff.1 hempty, List.append_nil] at hdelivered
    refine ⟨_, rfl, ?_, rfl, rfl⟩
    exact ⟨h.order, nofun, fun hparked => absurd hparked (Nat.lt_irrefl 0),
      fun _ _ => ⟨rfl, hdelivered⟩⟩
  · refine ⟨_, rfl, ?_, rfl, rfl⟩
    exact { h with closed := fun hclosed => (nomatch hstate.symm.trans hclosed) }

/-- Whatever else happens, what was enqueued stays, and a stream is not asked to close. -/
structure Keeps (stream stream' : ReadableStream α) : Prop where
  lawful : Lawful stream'
  enqueued : stream'.enqueued = stream.enqueued
  closeRequested : stream'.closeRequested = stream.closeRequested

theorem error_spec (h : Lawful stream) : Keeps stream stream.error := by
  unfold ReadableStream.error
  split
  · exact ⟨⟨h.order, nofun, fun _ => rfl, nofun⟩, rfl, rfl⟩
  · exact ⟨h, rfl, rfl⟩

theorem cancel_spec (h : Lawful stream) : Keeps stream stream.cancel.1 := by
  unfold ReadableStream.cancel
  split
  · exact ⟨⟨h.order, nofun, fun _ => rfl, nofun⟩, rfl, rfl⟩
  · exact ⟨h, rfl, rfl⟩

/-- A read leaves a stream open that is not asked to close. -/
theorem read_spec (h : Lawful stream) : Keeps stream stream.read.1 ∧
    (stream.closeRequested = false → stream.read.1.state = stream.state) := by
  unfold ReadableStream.read
  by_cases hstate : stream.state = .readable
  · rw [if_pos hstate]
    have hheld := h.held hstate
    cases hqueue : stream.queue with
    | nil =>
      rw [hqueue] at hheld
      have hlawful : Lawful { stream with
          queue := [], readRequests := stream.readRequests + 1 } :=
        { h with held := fun _ => hheld, parked := fun _ => rfl }
      obtain ⟨hlawful', hclose', hstate', henqueued, -⟩ := callPullIfNeeded_spec hlawful
      exact ⟨⟨hlawful', henqueued, hclose'⟩, fun _ => hstate'⟩
    | cons chunk queue =>
      rw [hqueue, List.append_cons] at hheld
      have horder : stream.delivered ++ [chunk] <+: stream.enqueued := by
        rw [hheld]
        exact List.prefix_append _ _
      dsimp only
      split
      · rename_i hends
        obtain ⟨hclose, hempty⟩ := Bool.and_eq_true_iff.1 hends
        rw [List.isEmpty_iff.1 hempty] at hheld ⊢
        rw [List.append_nil] at hheld
        refine ⟨⟨⟨horder, nofun, fun _ => rfl, fun _ _ => ⟨hclose, hheld⟩⟩, rfl, rfl⟩,
          fun hopen => ?_⟩
        cases hclose.symm.trans hopen
      · have hlawful : Lawful { stream with
            queue := queue, delivered := stream.delivered ++ [chunk] } := by
          refine { h with
            order := horder
            held := fun _ => hheld
            parked := fun hparked => ?_
            closed := fun hclosed => (nomatch hstate.symm.trans hclosed) }
          have hnil := h.parked hparked
          rw [hqueue] at hnil
          cases hnil
        obtain ⟨hlawful', hclose', hstate', henqueued, -⟩ := callPullIfNeeded_spec hlawful
        exact ⟨⟨hlawful', henqueued, hclose'⟩, fun _ => hstate'⟩
  · rw [if_neg hstate]
    exact ⟨⟨h, rfl, rfl⟩, fun _ => rfl⟩

theorem start_spec (h : Lawful stream) : Keeps stream stream.start.1 ∧
    stream.start.1.state = stream.state := by
  have hlawful : Lawful { stream with started := true } := { h with }
  obtain ⟨hlawful', hclose', hstate', henqueued, -⟩ := callPullIfNeeded_spec hlawful
  exact ⟨⟨hlawful', henqueued, hclose'⟩, hstate'⟩

theorem pullSettled_spec (h : Lawful stream) : Keeps stream stream.pullSettled.1 ∧
    stream.pullSettled.1.state = stream.state := by
  unfold ReadableStream.pullSettled
  split
  · have hlawful : Lawful { stream with pulling := false, pullAgain := false } := { h with }
    obtain ⟨hlawful', hclose', hstate', henqueued, -⟩ := callPullIfNeeded_spec hlawful
    exact ⟨⟨hlawful', henqueued, hclose'⟩, hstate'⟩
  · exact ⟨⟨{ h with }, rfl, rfl⟩, rfl⟩

end Streams
