import Imcodes.Collections.Modify
import Imcodes.Preview.Relay
import Mathlib.Algebra.GroupWithZero.Nat

/-!
# A preview response reaches its consumer whole, or fails

What the consumer's stream is given is the beginning of what the daemon has sent, and all of it
when the stream is closed.

* `Live` — what holds of a request while it is pending; `Ended` — and afterwards.
* `Live.flushChunks_done` — the loop over the chunks that are waiting ends by itself.
* `Sound.step` — every event of a request keeps these.
* `received_step` — what is received is the body, and nothing else.
* `allWhole_run` — what follows for all requests of a server, and for the number of them that are
  in flight.
-/

namespace Imcodes.Preview

open Streams Machine

/-- The response of a request is whole, or has failed. -/
structure Whole (limits : PreviewLimits) (request : Request) : Prop where
  enqueued : request.stream.enqueued.flatten <+: request.received.flatten
  closed : request.stream.closeRequested = true →
    request.stream.enqueued.flatten = request.received.flatten
  /-- A consumer that has read to the end has read everything. -/
  delivered : request.stream.state = .closed → request.stream.cancelled = false →
    request.stream.delivered.flatten = request.received.flatten
  metered : request.isPending = true →
    request.unconsumedBytes = (request.pendingChunks.map List.length).sum ∧
      request.unconsumedBytes ≤ limits.maxPreviewStreamBufferBytes
  terminals : request.terminals.length = if request.isPending then 0 else 1

/-- A request that is pending. -/
structure Live (request : Request) : Prop where
  isPending : request.isPending = true
  terminalOutcome : request.terminalOutcome = none
  terminals : request.terminals = []
  thrown : request.thrown = false
  lawful : Lawful request.stream
  closeRequested : request.stream.closeRequested = false
  readable : request.stream.state = .readable
  received : request.received = request.stream.enqueued ++ request.pendingChunks
  metered : request.unconsumedBytes = (request.pendingChunks.map List.length).sum

/-- A request without an outcome. -/
structure Unsettled (request : Request) : Prop where
  isPending : request.isPending = true
  terminalOutcome : request.terminalOutcome = none
  terminals : request.terminals = []
  lawful : Lawful request.stream
  closeRequested : request.stream.closeRequested = false
  enqueued : request.stream.enqueued <+: request.received

/-- A request that is over. -/
structure Ended (request : Request) : Prop where
  isPending : request.isPending = false
  terminals : request.terminals.length = 1
  lawful : Lawful request.stream
  enqueued : request.stream.enqueued <+: request.received
  closed : request.stream.closeRequested = true → request.stream.enqueued = request.received

/-- What every event keeps. -/
def Sound (limits : PreviewLimits) (request : Request) : Prop :=
  Live request ∧ request.unconsumedBytes ≤ limits.maxPreviewStreamBufferBytes ∨ Ended request

variable {limits : PreviewLimits} {request : Request} {stream : ReadableStream Chunk}
  {chunks : List Chunk} {fuel : ℕ} {outcome : PreviewTerminalOutcome} {code message : String}

theorem Live.unsettled (h : Live request) : Unsettled request := by
  refine { h with enqueued := ?_ }
  rw [h.received]
  exact List.prefix_append _ _

theorem Unsettled.isOpen (h : Unsettled request) : request.isOpen = true := by
  rw [Request.isOpen, h.isPending, h.terminalOutcome]
  rfl

theorem Live.isOpen (h : Live request) : request.isOpen = true := h.unsettled.isOpen

theorem Ended.isOpen (h : Ended request) : request.isOpen = false := by
  rw [Request.isOpen, h.isPending]
  rfl

theorem Sound.whole (h : Sound limits request) : Whole limits request := by
  rcases h with ⟨hlive, hle⟩ | hended
  · have hreceived := hlive.received
    refine ⟨?_, fun hclose => ?_, fun hclosed => ?_, fun _ => ⟨hlive.metered, hle⟩, ?_⟩
    · rw [hreceived, List.flatten_append]
      exact List.prefix_append _ _
    · cases hlive.closeRequested.symm.trans hclose
    · cases hlive.readable.symm.trans hclosed
    · rw [hlive.terminals, hlive.isPending]
      rfl
  · refine ⟨?_, fun hclose => ?_, fun hclosed hcancelled => ?_, fun hpending => ?_, ?_⟩
    · obtain ⟨rest, hrest⟩ := hended.enqueued
      rw [← hrest, List.flatten_append]
      exact List.prefix_append _ _
    · rw [hended.closed hclose]
    · obtain ⟨hclose, hdelivered⟩ := hended.lawful.closed hclosed hcancelled
      rw [← hdelivered, hended.closed hclose]
    · cases hended.isPending.symm.trans hpending
    · rw [hended.terminals, hended.isPending]
      rfl

/-! ## Terminals -/

/-- The consumer is told, and the request is not pending any more. -/
theorem Unsettled.reject (h : Unsettled request) :
    Ended { (request.terminate outcome).reject message with isPending := false } := by
  have hterminals : (request.terminals ++ [outcome]).length = 1 := by
    rw [h.terminals]
    rfl
  unfold Request.reject
  split
  · have hkeeps := error_spec h.lawful
    refine ⟨rfl, hterminals, hkeeps.lawful, ?_, fun hclose => ?_⟩
    · exact hkeeps.enqueued ▸ h.enqueued
    · cases (hkeeps.closeRequested.trans h.closeRequested).symm.trans hclose
  · refine ⟨rfl, hterminals, h.lawful, h.enqueued, fun hclose => ?_⟩
    cases h.closeRequested.symm.trans hclose

theorem Unsettled.fail (h : Unsettled request) :
    Ended (request.failPreviewRequest code message outcome) := by
  rw [Request.failPreviewRequest, if_pos h.isOpen]
  exact h.reject

theorem Ended.sendAbort (h : Ended request) : Ended (request.sendAbort message) := { h with }

theorem Unsettled.abort {propagate : Bool} (h : Unsettled request) :
    Ended (request.abortPreviewRequest message propagate) := by
  rw [Request.abortPreviewRequest, if_pos h.isOpen]
  dsimp only
  split
  · exact h.reject.sendAbort
  · exact h.reject

theorem Sound.fail (h : Sound limits request) :
    Sound limits (request.failPreviewRequest code message outcome) := by
  rcases h with ⟨hlive, -⟩ | hended
  · exact Or.inr hlive.unsettled.fail
  · refine Or.inr ?_
    rw [Request.failPreviewRequest, if_neg (Bool.eq_false_iff.1 hended.isOpen)]
    exact hended

theorem Ended.abort {propagate : Bool} (h : Ended request) :
    request.abortPreviewRequest message propagate = request := by
  rw [Request.abortPreviewRequest, if_neg (Bool.eq_false_iff.1 h.isOpen)]

theorem Sound.abort {propagate : Bool} (h : Sound limits request) :
    Sound limits (request.abortPreviewRequest message propagate) := by
  rcases h with ⟨hlive, -⟩ | hended
  · exact Or.inr hlive.unsettled.abort
  · rw [hended.abort]
    exact Or.inr hended

/-! ## Handing chunks over -/

/-- The next chunk is handed to the stream. -/
theorem Live.hand {chunk : Chunk} (h : Live request)
    (hchunks : request.pendingChunks = chunk :: chunks) :
    ∃ stream pulls, request.stream.enqueue chunk = some (stream, pulls) ∧
      Live { request with
        pendingChunks := chunks
        unconsumedBytes := request.unconsumedBytes - chunk.length
        stream := stream } := by
  obtain ⟨stream, pulls, heq, hlawful, hclose, hstate, henqueued⟩ :=
    enqueue_spec h.lawful h.closeRequested h.readable chunk
  have hreceived := h.received
  have hmetered := h.metered
  rw [hchunks] at hreceived hmetered
  refine ⟨stream, pulls, heq, { h with
    lawful := hlawful
    closeRequested := hclose
    readable := hstate
    received := ?_
    metered := ?_ }⟩
  · dsimp only
    rw [hreceived, henqueued, List.append_assoc]
    rfl
  · rw [List.map_cons, List.sum_cons] at hmetered
    dsimp only
    omega

/-- The loop only hands chunks over. -/
theorem Live.flushChunks (h : Live request) : Live (Request.flushChunks fuel request) ∧
    (Request.flushChunks fuel request).unconsumedBytes ≤ request.unconsumedBytes ∧
    (Request.flushChunks fuel request).pendingChunks.length ≤ request.pendingChunks.length := by
  induction fuel generalizing request with
  | zero => exact ⟨h, le_rfl, le_rfl⟩
  | succ fuel ih =>
    rw [Request.flushChunks]
    split
    · exact ⟨h, le_rfl, le_rfl⟩
    · rename_i chunk chunks hchunks
      split
      · exact ⟨h, le_rfl, le_rfl⟩
      · obtain ⟨stream, pulls, heq, hlive⟩ := h.hand hchunks
        have hlength : chunks.length ≤ request.pendingChunks.length := by
          rw [hchunks]
          exact Nat.le_succ _
        dsimp only
        rw [heq]
        dsimp only
        split
        · obtain ⟨hinner, hle, hlen⟩ := ih hlive
          obtain ⟨houter, hle', hlen'⟩ := ih hinner
          exact ⟨houter, hle'.trans (hle.trans (Nat.sub_le _ _)),
            hlen'.trans (hlen.trans hlength)⟩
        · obtain ⟨houter, hle, hlen⟩ := ih hlive
          exact ⟨houter, hle.trans (Nat.sub_le _ _), hlen.trans hlength⟩

/-- The loop ends when nothing is left, or the stream is full. -/
theorem Live.flushChunks_done (h : Live request) (hfuel : request.pendingChunks.length ≤ fuel) :
    (Request.flushChunks fuel request).pendingChunks = [] ∨
      (Request.flushChunks fuel request).stream.desiredSize.any (· ≤ 0) = true := by
  induction fuel generalizing request with
  | zero => exact Or.inl (List.length_eq_zero_iff.1 (Nat.le_zero.1 hfuel))
  | succ fuel ih =>
    rw [Request.flushChunks]
    split
    · rename_i hempty
      exact Or.inl hempty
    · rename_i chunk chunks hchunks
      split
      · rename_i hfull
        exact Or.inr hfull
      · obtain ⟨stream, pulls, heq, hlive⟩ := h.hand hchunks
        rw [hchunks] at hfuel
        have hlength : chunks.length ≤ fuel := Nat.le_of_succ_le_succ hfuel
        dsimp only
        rw [heq]
        dsimp only
        split
        · obtain ⟨hinner, -, hlen⟩ := @Live.flushChunks _ fuel hlive
          exact ih hinner (hlen.trans hlength)
        · exact ih hlive hlength

theorem Sound.flush (h : Sound limits request) :
    Sound limits request.flushPreviewChunksToStream := by
  unfold Request.flushPreviewChunksToStream
  rcases h with ⟨hlive, hle⟩ | hended
  · rw [if_pos hlive.isOpen]
    obtain ⟨hflushed, hle', -⟩ := @Live.flushChunks _ request.pendingChunks.length hlive
    exact Or.inl ⟨hflushed, hle'.trans hle⟩
  · rw [if_neg (Bool.eq_false_iff.1 hended.isOpen)]
    exact Or.inr hended

theorem Sound.pull {pulls : Bool} (h : Sound limits request) :
    Sound limits (request.pull pulls) := by
  unfold Request.pull
  split
  · exact h.flush
  · exact h

/-- A request with an outcome hands over what is left; the pull does nothing any more. -/
theorem drain_spec (hopen : request.isOpen = false) (hthrown : request.thrown = false)
    (hlawful : Lawful request.stream) (hclose : request.stream.closeRequested = false)
    (hstate : request.stream.state = .readable) :
    ∃ stream unconsumedBytes, Request.drain chunks request =
        { request with stream := stream, unconsumedBytes := unconsumedBytes } ∧
      Lawful stream ∧ stream.closeRequested = false ∧ stream.state = .readable ∧
      stream.enqueued = request.stream.enqueued ++ chunks := by
  induction chunks generalizing request with
  | nil => exact ⟨request.stream, request.unconsumedBytes, rfl, hlawful, hclose, hstate,
      (List.append_nil _).symm⟩
  | cons chunk chunks ih =>
    obtain ⟨stream, pulls, heq, hlawful', hclose', hstate', henqueued⟩ :=
      enqueue_spec hlawful hclose hstate chunk
    have hpull : ∀ request : Request, request.isOpen = false → request.pull pulls = request := by
      intro request hopen
      unfold Request.pull Request.flushPreviewChunksToStream
      rw [if_neg (Bool.eq_false_iff.1 hopen), ite_self]
    rw [Request.drain]
    dsimp only
    rw [heq]
    dsimp only
    rw [hpull _ (by exact hopen)]
    obtain ⟨stream', unconsumedBytes, hdrain, hlawful'', hclose'', hstate'', henqueued'⟩ :=
      @ih { request with
        unconsumedBytes := request.unconsumedBytes - chunk.length, stream := stream }
        hopen hthrown hlawful' hclose' hstate'
    refine ⟨stream', unconsumedBytes, hdrain, hlawful'', hclose'', hstate'', ?_⟩
    rw [henqueued', henqueued, List.append_assoc]
    rfl

/-- A request that is completed is closed with all that was received, or rejected. -/
theorem Live.complete (h : Live request) : Ended (request.completePreviewRequest outcome) := by
  have hterminals : (request.terminals ++ [outcome]).length = 1 := by
    rw [h.terminals]
    rfl
  rw [Request.completePreviewRequest, if_pos h.isOpen]
  dsimp only
  split
  · have hover : (request.terminate outcome).isOpen = false := Bool.and_false _
    obtain ⟨stream, unconsumedBytes, hdrain, hlawful, hclose, hstate, henqueued⟩ :=
      @drain_spec (request.terminate outcome) request.pendingChunks hover h.thrown h.lawful
        h.closeRequested h.readable
    have hall : stream.enqueued = request.received := henqueued.trans h.received.symm
    obtain ⟨stream', hclosed, hlawful', -, henqueued'⟩ := close_spec hlawful hclose hstate
    have hdrain' : Request.drain (request.terminate outcome).pendingChunks
        (request.terminate outcome) = { request.terminate outcome with
          stream := stream, unconsumedBytes := unconsumedBytes } := hdrain
    have hthrown : ¬(request.terminate outcome).thrown = true := Bool.eq_false_iff.1 h.thrown
    rw [hdrain']
    dsimp only
    rw [if_neg hthrown, hclosed]
    have hwhole : stream'.enqueued = request.received := henqueued'.trans hall
    refine ⟨rfl, hterminals, hlawful', ?_, fun _ => hwhole⟩
    exact hwhole ▸ List.prefix_rfl
  · refine ⟨rfl, hterminals, h.lawful, ?_, fun hclose => ?_⟩
    · dsimp only [Request.rejectStart, Request.terminate]
      rw [h.received]
      exact List.prefix_append _ _
    · cases h.closeRequested.symm.trans hclose

theorem Sound.complete (h : Sound limits request) :
    Sound limits (request.completePreviewRequest outcome) := by
  rcases h with ⟨hlive, -⟩ | hended
  · exact Or.inr hlive.complete
  · refine Or.inr ?_
    rw [Request.completePreviewRequest, if_neg (Bool.eq_false_iff.1 hended.isOpen)]
    exact hended

/-! ## Events -/

theorem Live.resetPreviewTimeout {mode : TimerMode} (h : Live request) :
    Live (request.resetPreviewTimeout mode) ∧
      (request.resetPreviewTimeout mode).unconsumedBytes = request.unconsumedBytes := by
  rw [Request.resetPreviewTimeout, if_pos h.isOpen]
  exact ⟨{ h with }, rfl⟩

theorem Sound.resolve {status : ℕ} {statusText : Option String}
    {headers : List (String × HeaderValue)} (h : Sound limits request) :
    Sound limits (request.resolvePreviewStart status statusText headers) := by
  unfold Request.resolvePreviewStart
  split
  · rename_i hopen
    obtain ⟨hopen, -⟩ := Bool.and_eq_true_iff.1 hopen
    rcases h with ⟨hlive, hle⟩ | hended
    · have hstarted : Live { request with
          started := true, streaming := isStreamingResponse headers } := { hlive with }
      obtain ⟨hreset, heq⟩ := @Live.resetPreviewTimeout _ .idle hstarted
      exact Or.inl ⟨{ hreset with }, heq.le.trans hle⟩
    · cases hended.isOpen.symm.trans hopen
  · exact h

/-- A chunk is received within the limits, or the request fails. -/
theorem Sound.push {chunk : Chunk} (h : Sound limits request) :
    Sound limits (request.pushPreviewResponseChunk limits chunk) := by
  unfold Request.pushPreviewResponseChunk
  rcases h with ⟨hlive, hle⟩ | hended
  · rw [if_pos hlive.isOpen]
    split
    · exact Or.inr hlive.unsettled.fail
    · have hcounted : Unsettled { request with
          received := request.received ++ [chunk]
          responseBytes := request.responseBytes + chunk.length } :=
        { hlive.unsettled with
          enqueued := hlive.unsettled.enqueued.trans (List.prefix_append _ _) }
      have hkept : Live { request with
          received := request.received ++ [chunk]
          responseBytes := request.responseBytes + chunk.length
          unconsumedBytes := request.unconsumedBytes + chunk.length
          pendingChunks := request.pendingChunks ++ [chunk] } := by
        refine { hlive with
          received := ?_
          metered := ?_ }
        · dsimp only
          rw [hlive.received, List.append_assoc]
        · dsimp only
          rw [hlive.metered, List.map_append, List.sum_append]
          rfl
      dsimp only
      split
      · exact Or.inr hcounted.fail.sendAbort
      · split
        · exact Or.inr hkept.unsettled.fail.sendAbort
        · rename_i hroom
          obtain ⟨hreset, heq⟩ := @Live.resetPreviewTimeout _ .idle hkept
          refine Sound.flush (Or.inl ⟨hreset, ?_⟩)
          rw [heq]
          exact Nat.le_of_not_lt hroom
  · rw [if_neg (Bool.eq_false_iff.1 hended.isOpen)]
    exact Or.inr hended

/-- The timer fires; it is cleared when the request is settled. -/
theorem Sound.onTimeout (h : Sound limits request) : Sound limits request.onTimeout := by
  have hcleared : Sound limits { request with timer := none } :=
    h.imp (fun hlive => ⟨{ hlive.1 with }, hlive.2⟩) fun hended => { hended with }
  have habort : ∀ {request : Request} {message}, Sound limits request →
      Sound limits (request.sendAbort message) := fun h =>
    h.imp (fun hlive => ⟨{ hlive.1 with }, hlive.2⟩) Ended.sendAbort
  unfold Request.onTimeout
  split
  · exact h
  · exact habort hcleared.fail
  · dsimp only
    split
    · exact habort hcleared.fail
    · exact hcleared

/-- The consumer or the stream goes on; what it is given does not change. -/
theorem Sound.withStream {result : ReadableStream Chunk × Bool} (h : Sound limits request)
    (hkeeps : Lawful request.stream → Keeps request.stream result.1 ∧
      (request.stream.closeRequested = false → result.1.state = request.stream.state)) :
    Sound limits (request.withStream result) := by
  refine Sound.pull ?_
  rcases h with ⟨hlive, hle⟩ | hended
  · obtain ⟨hkeeps, hstate⟩ := hkeeps hlive.lawful
    refine Or.inl ⟨{ hlive with
      lawful := hkeeps.lawful
      closeRequested := hkeeps.closeRequested.trans hlive.closeRequested
      readable := (hstate hlive.closeRequested).trans hlive.readable
      received := ?_ }, hle⟩
    dsimp only
    rw [hkeeps.enqueued, hlive.received]
  · obtain ⟨hkeeps, -⟩ := hkeeps hended.lawful
    refine Or.inr { hended with
      lawful := hkeeps.lawful
      enqueued := hkeeps.enqueued ▸ hended.enqueued
      closed := fun hclose => ?_ }
    dsimp only
    rw [hkeeps.enqueued, hended.closed (hkeeps.closeRequested.symm.trans hclose)]

theorem Sound.step {event : RequestEvent} (h : Sound limits request) :
    Sound limits (request.step limits event) := by
  cases event with
  | responseStart status statusText headers => exact h.resolve
  | responseBody chunk => exact h.push
  | responseEnd => exact h.complete
  | error code message terminalOutcome => exact h.fail
  | timeout => exact h.onTimeout
  | abort reason => exact h.abort
  | streamStarted =>
    exact h.withStream fun hlawful => (start_spec hlawful).imp_right fun hstate _ => hstate
  | pullSettled =>
    exact h.withStream fun hlawful => (pullSettled_spec hlawful).imp_right fun hstate _ => hstate
  | read =>
    dsimp only [Request.step]
    split
    · exact h.withStream read_spec
    · exact h
  | cancel =>
    dsimp only [Request.step]
    split
    · have hkeeps := fun hlawful => @cancel_spec _ request.stream hlawful
      rcases h with ⟨hlive, hle⟩ | hended
      · have htold : request.stream.cancel.2 = true := by
          rw [ReadableStream.cancel, if_pos hlive.readable]
        have hcancelled : Unsettled { request with stream := request.stream.cancel.1 } :=
          { hlive.unsettled with
            lawful := (hkeeps hlive.lawful).lawful
            closeRequested := (hkeeps hlive.lawful).closeRequested.trans hlive.closeRequested
            enqueued := (hkeeps hlive.lawful).enqueued ▸ hlive.unsettled.enqueued }
        rw [if_pos htold]
        exact Or.inr hcancelled.abort
      · have hcancelled : Ended { request with stream := request.stream.cancel.1 } := by
          have hkeeps := hkeeps hended.lawful
          refine { hended with
            lawful := hkeeps.lawful
            enqueued := hkeeps.enqueued ▸ hended.enqueued
            closed := fun hclose => ?_ }
          dsimp only
          rw [hkeeps.enqueued, hended.closed (hkeeps.closeRequested.symm.trans hclose)]
        rw [hcancelled.abort, ite_self]
        exact Or.inr hcancelled
    · exact h

/-! ## What is received -/

/-- The chunk that an event brings for a request that is open and has started. -/
def Request.bodyOf (request : Request) : RequestEvent → List Chunk
  | .responseBody chunk => if request.isOpen && request.started then [chunk] else []
  | _ => []

section Received

@[simp] theorem received_reject {message : String} :
    (request.reject message).received = request.received := by
  unfold Request.reject
  split <;> rfl

@[simp] theorem received_failPreviewRequest {code message : String}
    {outcome : PreviewTerminalOutcome} :
    (request.failPreviewRequest code message outcome).received = request.received := by
  unfold Request.failPreviewRequest
  split
  · exact received_reject
  · rfl

@[simp] theorem received_sendAbort {reason : String} :
    (request.sendAbort reason).received = request.received := rfl

@[simp] theorem received_abortPreviewRequest {reason : String} {propagate : Bool} :
    (request.abortPreviewRequest reason propagate).received = request.received := by
  unfold Request.abortPreviewRequest
  dsimp only
  split
  · split
    · exact received_reject
    · exact received_reject
  · rfl

theorem received_flushChunks (fuel : ℕ) (request : Request) :
    (request.flushChunks fuel).received = request.received := by
  induction fuel generalizing request with
  | zero => rfl
  | succ fuel ih =>
    unfold Request.flushChunks
    split
    · rfl
    · split
      · rfl
      · dsimp only
        split
        · rfl
        · rw [ih]
          split
          · rw [ih]
          · rfl

@[simp] theorem received_flush :
    request.flushPreviewChunksToStream.received = request.received := by
  unfold Request.flushPreviewChunksToStream
  split
  · exact received_flushChunks _ _
  · rfl

@[simp] theorem received_pull {pulls : Bool} :
    (request.pull pulls).received = request.received := by
  unfold Request.pull
  split
  · exact received_flush
  · rfl

theorem received_drain (chunks : List Chunk) (request : Request) :
    (Request.drain chunks request).received = request.received := by
  induction chunks generalizing request with
  | nil => rfl
  | cons chunk chunks ih =>
    unfold Request.drain
    dsimp only
    split
    · rfl
    · rw [ih, received_pull]

@[simp] theorem received_complete {outcome : PreviewTerminalOutcome} :
    (request.completePreviewRequest outcome).received = request.received := by
  have hdrain := received_drain request.pendingChunks (request.terminate outcome)
  unfold Request.completePreviewRequest
  split
  · dsimp only
    split
    · split
      · exact hdrain
      · split
        · exact hdrain
        · exact hdrain
    · rfl
  · rfl

@[simp] theorem received_resetPreviewTimeout {mode : TimerMode} :
    (request.resetPreviewTimeout mode).received = request.received := by
  unfold Request.resetPreviewTimeout
  split <;> rfl

@[simp] theorem received_onTimeout : request.onTimeout.received = request.received := by
  unfold Request.onTimeout
  split
  · rfl
  · rw [received_sendAbort, received_failPreviewRequest]
  · dsimp only
    split
    · rw [received_sendAbort, received_failPreviewRequest]
    · rfl

/-- A chunk counts as received while the request is open and has started. -/
theorem received_push {chunk : Chunk} :
    (request.pushPreviewResponseChunk limits chunk).received =
      request.received ++ request.bodyOf (.responseBody chunk) := by
  unfold Request.pushPreviewResponseChunk Request.bodyOf
  cases hopen : request.isOpen with
  | false => exact (List.append_nil _).symm
  | true =>
    rw [if_pos rfl]
    cases hstarted : request.started with
    | false =>
      rw [Bool.not_false, if_pos rfl, received_failPreviewRequest]
      exact (List.append_nil _).symm
    | true =>
      rw [Bool.not_true, if_neg Bool.false_ne_true]
      change _ = request.received ++ [chunk]
      dsimp only
      split
      · rw [received_sendAbort, received_failPreviewRequest]
      · split
        · rw [received_sendAbort, received_failPreviewRequest]
        · rw [received_flush, received_resetPreviewTimeout]

/-- Nothing but a chunk of the body is received. -/
theorem received_step (event : RequestEvent) :
    (request.step limits event).received = request.received ++ request.bodyOf event := by
  have hstream : ∀ result : ReadableStream Chunk × Bool,
      (request.withStream result).received = request.received ++ [] := fun result => by
    rw [Request.withStream, received_pull, List.append_nil]
  cases event with
  | responseBody chunk => exact received_push
  | responseStart status statusText headers =>
    refine Eq.trans ?_ (List.append_nil _).symm
    dsimp only [Request.step]
    unfold Request.resolvePreviewStart
    split
    · exact received_resetPreviewTimeout
    · rfl
  | responseEnd => exact received_complete.trans (List.append_nil _).symm
  | error code message outcome => exact received_failPreviewRequest.trans (List.append_nil _).symm
  | timeout => exact received_onTimeout.trans (List.append_nil _).symm
  | abort reason => exact received_abortPreviewRequest.trans (List.append_nil _).symm
  | streamStarted => exact hstream _
  | pullSettled => exact hstream _
  | read =>
    dsimp only [Request.step, Request.bodyOf]
    split
    · exact hstream _
    · exact (List.append_nil _).symm
  | cancel =>
    refine Eq.trans ?_ (List.append_nil _).symm
    dsimp only [Request.step]
    split
    · split
      · exact received_abortPreviewRequest
      · rfl
    · rfl

end Received

/-! ## All relays of a server -/

/-- Every response is whole or has failed, and the requests in flight are those that have not come
to an end. -/
structure AllWhole (relays : Relays) : Prop where
  whole : ∀ request ∈ relays.requests, Whole relays.limits request
  inflight : relays.pendingPreviewRequests.length =
    relays.requests.countP (·.terminals.isEmpty)

variable {relays : Relays}

theorem Whole.isPending (h : Whole limits request) :
    request.isPending = request.terminals.isEmpty := by
  have hterminals := h.terminals
  cases hpending : request.isPending with
  | true =>
    rw [hpending] at hterminals
    rw [List.length_eq_zero_iff.1 hterminals]
    rfl
  | false =>
    rw [hpending] at hterminals
    cases hlist : request.terminals with
    | nil =>
      rw [hlist] at hterminals
      cases hterminals
    | cons outcome outcomes => rfl

/-- An event of a server is one of some of its requests, or a new request. -/
theorem sound_step {event : RelaysEvent}
    (h : ∀ request ∈ relays.requests, Sound relays.limits request) :
    (relays.step event).limits = relays.limits ∧
      ∀ request ∈ (relays.step event).requests, Sound relays.limits request := by
  cases event with
  | forward previewId =>
    dsimp only [Relays.step]
    split
    · refine ⟨rfl, fun request hmem => ?_⟩
      rcases List.mem_append.1 hmem with hmem | hmem
      · exact h request hmem
      · rw [List.mem_singleton.1 hmem]
        exact Or.inl ⟨⟨rfl, rfl, rfl, rfl, lawful_empty, rfl, rfl, rfl, rfl⟩, Nat.zero_le _⟩
    · exact ⟨rfl, h⟩
  | request i event =>
    refine ⟨rfl, fun request hmem => ?_⟩
    rcases Modify.mem_modify hmem with hmem | ⟨old, hold, rfl⟩
    · exact h request hmem
    · exact (h old (List.mem_of_getElem? hold)).step
  | daemonLost reason =>
    refine ⟨rfl, fun request hmem => ?_⟩
    obtain ⟨old, hold, rfl⟩ := List.mem_map.1 hmem
    exact (h old hold).abort
  | previewEvicted previewId =>
    refine ⟨rfl, fun request hmem => ?_⟩
    obtain ⟨old, hold, rfl⟩ := List.mem_map.1 hmem
    split
    · exact (h old hold).abort
    · exact h old hold

/-- The chunk that an event brings for the request at an index. -/
def Relays.bodyOf (i : ℕ) (relays : Relays) : RelaysEvent → List Chunk
  | .request j event => if j = i then (relays.requests[i]?).elim [] (·.bodyOf event) else []
  | _ => []

/-- What the request at an index has received. -/
def Relays.receivedBy (i : ℕ) (relays : Relays) : List Chunk :=
  (relays.requests[i]?).elim [] (·.received)

theorem receivedBy_map {i : ℕ} {f : Request → Request}
    (h : ∀ request, (f request).received = request.received) :
    ((relays.requests.map f)[i]?).elim [] (·.received) = relays.receivedBy i := by
  rw [Relays.receivedBy, List.getElem?_map]
  cases relays.requests[i]? with
  | none => rfl
  | some request => exact h request

/-- What a request has received grows by the chunks that come for it. -/
theorem receivedBy_step (i : ℕ) (relays : Relays) (event : RelaysEvent) :
    (relays.step event).receivedBy i = relays.receivedBy i ++ relays.bodyOf i event := by
  cases event with
  | forward previewId =>
    refine Eq.trans ?_ (List.append_nil _).symm
    dsimp only [Relays.step]
    split
    · rw [Relays.receivedBy, Relays.receivedBy, Relays.createPreviewRelay, List.getElem?_append]
      split
      · rfl
      · rename_i hge
        rw [List.getElem?_eq_none (Nat.le_of_not_lt hge)]
        cases hnew : [({ previewId := previewId } : Request)][i - relays.requests.length]? with
        | none => rfl
        | some request =>
          rw [List.mem_singleton.1 (List.mem_of_getElem? hnew)]
          rfl
    · rfl
  | request j event =>
    dsimp only [Relays.step, Relays.receivedBy, Relays.bodyOf]
    by_cases hij : j = i
    · subst hij
      rw [if_pos rfl]
      cases hrequest : relays.requests[j]? with
      | none =>
        rw [List.getElem?_modify, hrequest]
        rfl
      | some request =>
        rw [Modify.getElem?_modify_self hrequest]
        exact received_step event
    · rw [if_neg hij, Modify.getElem?_modify_of_ne hij, List.append_nil]
  | daemonLost reason =>
    exact (receivedBy_map fun _ => received_abortPreviewRequest).trans (List.append_nil _).symm
  | previewEvicted previewId =>
    refine (receivedBy_map fun request => ?_).trans (List.append_nil _).symm
    split
    · exact received_abortPreviewRequest
    · rfl

/-- Every request of a server is sound. -/
def AllSound (relays : Relays) : Prop := ∀ request ∈ relays.requests, Sound relays.limits request

theorem AllSound.step {event : RelaysEvent} (h : AllSound relays) :
    AllSound (relays.step event) := by
  intro request hmem
  obtain ⟨hlimits, hstep⟩ := sound_step h
  rw [hlimits]
  exact hstep request hmem

/-- **A response reaches its consumer whole, or fails**, whatever happens to the relays; what a
request has received is the body that came for it while it was open, after its start. -/
theorem allWhole_run (limits : PreviewLimits) (events : List RelaysEvent) :
    (∀ i request, (run Relays.step events { limits := limits }).requests[i]? = some request →
      request.received = gathered Relays.step (Relays.bodyOf i) events { limits := limits }) ∧
    AllWhole (run Relays.step events { limits := limits }) := by
  refine ⟨fun i request hrequest => ?_, ?_⟩
  · have hreceived := run_gathered (Relays.receivedBy i) (Relays.bodyOf i) (receivedBy_step i)
      { limits := limits } events
    rw [Relays.receivedBy, hrequest] at hreceived
    exact hreceived
  have hsound : AllSound (run Relays.step events { limits := limits }) :=
    run_invariant_all AllSound (fun _ _ h => h.step)
      (fun _ hmem => absurd hmem List.not_mem_nil) events
  refine ⟨fun request hmem => (hsound request hmem).whole, ?_⟩
  rw [Relays.pendingPreviewRequests, ← List.countP_eq_length_filter]
  refine List.countP_congr fun request hmem => ?_
  rw [(hsound request hmem).whole.isPending]

end Imcodes.Preview
