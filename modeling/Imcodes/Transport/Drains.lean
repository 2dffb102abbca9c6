import Imcodes.Transport.Moves

/-!
# What a step of the runtime does to its queue

As long as no entry is put back, a step that asks nothing of the queue leaves it
and the store as they are, or hands all that waits to a turn.

* `KeepsOrDrains` — one of the two; no step drains twice.
* `keepsOrDrains_drainPending` and the lemmas after it — one for each function of
  the runtime that may drain the queue.
* `step_queue` — **what any step does to the queue, as long as no entry is put
  back**.
-/

namespace Imcodes.Transport

open Imcodes.Queue

attribute [local irreducible] Queue.edit Queue.drop Queue.enqueue finalizeSentBatch

namespace TransportSessionRuntime

variable {localeCompare : Collation} {env : StepEnv} {rt rt' rt'' : TransportSessionRuntime}

/-- The queue of a runtime, and where its rows are. -/
def queue (rt : TransportSessionRuntime) : String × List PendingEntry × StoreConn :=
  (rt.sessionKey, rt.pendingMessages, rt.store)

theorem queue_of_lane (h : rt'.lane = rt.lane) : rt'.queue = rt.queue := by
  rw [queue, queue, show rt'.sessionKey = rt.sessionKey from congrArg Lane.sessionKey h,
    show rt'.pendingMessages = rt.pendingMessages from congrArg Lane.pending h,
    show rt'.store = rt.store from congrArg Lane.store h]

@[simp] theorem queue_releaseDispatch : rt.releaseDispatch.queue = rt.queue := rfl

@[simp] theorem queue_dropActiveEntries : rt.dropActiveEntries.queue = rt.queue := rfl

@[simp] theorem queue_endTurn : rt.endTurn.queue = rt.queue := rfl

@[simp] theorem queue_closeOpenTools : rt.closeOpenTools.queue = rt.queue := rfl

@[simp] theorem queue_pushHistory (content : String) : (rt.pushHistory content).queue = rt.queue :=
  rfl

@[simp] theorem queue_deleteLocallyCancelled (dispatchId : Nat) :
    (rt.deleteLocallyCancelled dispatchId).queue = rt.queue := rfl

@[simp] theorem queue_deleteActiveLocallyCancelled :
    rt.deleteActiveLocallyCancelled.queue = rt.queue :=
  queue_of_lane lane_deleteActiveLocallyCancelled

@[simp] theorem queue_markCurrentActivityGenerationLocallyCancelled :
    rt.markCurrentActivityGenerationLocallyCancelled.queue = rt.queue :=
  queue_of_lane lane_markCurrentActivityGenerationLocallyCancelled

section Drains

variable (localeCompare env)

/-- The queue after all that waits has gone into a turn. -/
def drainedQueue (rt : TransportSessionRuntime) : String × List PendingEntry × StoreConn :=
  (rt.sessionKey, [], (finalizeSentBatch localeCompare env.store rt.sessionKey
    (rt.pendingMessages.map (·.clientMessageId)) env.uuid rt.store).2)

/-- The queue is as it was, or all that waited has gone into a turn. -/
inductive KeepsOrDrains (rt rt' : TransportSessionRuntime) : Prop
  | keeps (h : rt'.queue = rt.queue)
  | drains (hpending : rt.pendingMessages ≠ []) (h : rt'.queue = rt.drainedQueue localeCompare env)

variable {localeCompare env}

theorem KeepsOrDrains.refl : KeepsOrDrains localeCompare env rt rt := .keeps rfl

/-- What came before leaves the queue as it was. -/
theorem KeepsOrDrains.of_queue (h : KeepsOrDrains localeCompare env rt rt')
    (hqueue : rt.queue = rt''.queue) : KeepsOrDrains localeCompare env rt'' rt' := by
  obtain ⟨hkey, hpending, hstore⟩ : rt.sessionKey = rt''.sessionKey ∧
      rt.pendingMessages = rt''.pendingMessages ∧ rt.store = rt''.store := by
    simpa [queue] using hqueue
  cases h with
  | keeps h => exact .keeps (h.trans hqueue)
  | drains hne h =>
    refine .drains (hpending ▸ hne) (h.trans ?_)
    rw [drainedQueue, drainedQueue, hkey, hpending, hstore]

/-- A queue that has been drained has nothing left to drain. -/
theorem KeepsOrDrains.trans (h : KeepsOrDrains localeCompare env rt rt')
    (h' : KeepsOrDrains localeCompare env rt' rt'') : KeepsOrDrains localeCompare env rt rt'' := by
  cases h with
  | keeps h => exact h'.of_queue h
  | drains hpending h =>
    cases h' with
    | keeps h' => exact .drains hpending (h'.trans h)
    | drains hpending' _ => exact absurd (congrArg (·.2.1) h) hpending'

/-! ## Draining -/

theorem queue_drainAll :
    (drainAll localeCompare env rt).queue = rt.drainedQueue localeCompare env := by
  unfold drainAll dispatchTurn queue drainedQueue
  simp only [List.map_map, clearRecoverableRetryTimer]
  rfl

theorem keepsOrDrains_drainPending (view : ActiveWorkRead) :
    KeepsOrDrains localeCompare env rt (drainPending localeCompare env view rt).2 := by
  unfold drainPending
  split
  · exact .refl
  · rename_i hpending
    split
    · exact .keeps (by dsimp only; split <;> rfl)
    · exact .drains (not_or.1 hpending).1 queue_drainAll

theorem queue_clearStaleEntries : rt.clearStaleEntries.queue = rt.queue := by
  unfold clearStaleEntries
  split <;> rfl

theorem keepsOrDrains_drainPendingIfNoActiveTurn (view : ActiveWorkRead) :
    KeepsOrDrains localeCompare env rt
      (drainPendingIfNoActiveTurn localeCompare env view rt).2 := by
  unfold drainPendingIfNoActiveTurn
  split
  · exact .refl
  · refine .trans (.keeps queue_clearStaleEntries) ?_
    dsimp only
    split
    · exact .keeps (by dsimp only; split <;> rfl)
    · split
      · exact .refl
      · exact keepsOrDrains_drainPending view

theorem keepsOrDrains_setStatus (view : ActiveWorkRead) (status : AgentStatus) :
    KeepsOrDrains localeCompare env rt (setStatus localeCompare env view status rt) := by
  unfold setStatus
  split
  · have h : KeepsOrDrains localeCompare env rt
        (drainPendingIfNoActiveTurn localeCompare env view rt).2 :=
      keepsOrDrains_drainPendingIfNoActiveTurn view
    split
    · rename_i heq
      rwa [heq] at h
    · rename_i heq
      rw [heq] at h
      refine h.trans (.keeps ?_)
      split <;> rfl
  · exact .keeps rfl

theorem keepsOrDrains_drainOrSetStatus (view : ActiveWorkRead) (status : AgentStatus) :
    KeepsOrDrains localeCompare env rt (drainOrSetStatus localeCompare env view status rt) := by
  unfold drainOrSetStatus
  have h : KeepsOrDrains localeCompare env rt (drainPending localeCompare env view rt).2 :=
    keepsOrDrains_drainPending view
  split
  · rename_i heq
    rwa [heq] at h
  · rename_i heq
    rw [heq] at h
    exact h.trans (keepsOrDrains_setStatus view status)

theorem keepsOrDrains_cancelActiveDispatchLocally (view : ActiveWorkRead)
    (dispatchId : Option Nat) :
    KeepsOrDrains localeCompare env rt
      (cancelActiveDispatchLocally localeCompare env view dispatchId rt) := by
  have hsettle : KeepsOrDrains localeCompare env rt
      (cancelActiveDispatchLocally.settle localeCompare env view dispatchId rt) := by
    unfold cancelActiveDispatchLocally.settle
    dsimp only
    split
    · refine (keepsOrDrains_drainOrSetStatus view .idle).of_queue ?_
      cases dispatchId <;> simp
    · exact (keepsOrDrains_drainOrSetStatus view .idle).of_queue (by simp)
  unfold cancelActiveDispatchLocally
  split
  · split
    · exact .keeps rfl
    · exact hsettle
  · exact hsettle

/-! ## Callbacks -/

theorem keepsOrDrains_onDelta (sid : String) :
    KeepsOrDrains localeCompare env rt (onDelta env sid rt) := by
  unfold onDelta
  split
  · exact .refl
  extract_lets rtTouched
  split
  · exact .keeps rfl
  split <;> exact .keeps rfl

theorem keepsOrDrains_onComplete (sid content : String) :
    KeepsOrDrains localeCompare env rt (onComplete localeCompare env sid content rt) := by
  unfold onComplete
  split
  · exact .refl
  extract_lets rtTouched rtSeen rtStopped rtDone
  split
  · exact .keeps rfl
  split
  · refine (keepsOrDrains_drainOrSetStatus env.view .idle).of_queue ?_
    rw [queue_releaseDispatch, queue_deleteActiveLocallyCancelled]
    rfl
  · refine (keepsOrDrains_drainOrSetStatus env.view .idle).of_queue ?_
    rw [queue_pushHistory, queue_closeOpenTools, queue_releaseDispatch]
    rfl

theorem keepsOrDrains_onLateCancellation :
    KeepsOrDrains localeCompare env rt (onLateCancellation localeCompare env rt) := by
  unfold onLateCancellation
  extract_lets rtSeen
  split
  · have hdrain : KeepsOrDrains localeCompare env rt
        (drainPending localeCompare env env.view rtSeen.releaseDispatch).2 :=
      (keepsOrDrains_drainPending env.view).of_queue rfl
    split
    · rename_i heq
      rwa [heq] at hdrain
    · rename_i heq
      rw [heq] at hdrain
      split
      · exact hdrain.trans (keepsOrDrains_setStatus env.view .idle)
      · exact hdrain
  · exact .keeps rfl

theorem keepsOrDrains_onTurnError (error : ProviderError) :
    KeepsOrDrains localeCompare env rt (onTurnError localeCompare env error rt) := by
  unfold onTurnError
  extract_lets rtFree
  have hfree : rtFree.queue = rt.queue := by
    rw [queue_releaseDispatch, queue_deleteActiveLocallyCancelled]
    rfl
  split
  · exact (keepsOrDrains_drainOrSetStatus env.view .idle).of_queue hfree
  · exact .keeps hfree

/-- Whether the turn that an error says is lost is put back into the queue, to be
replayed. -/
def replaysLostTurn (rt : TransportSessionRuntime) (error : ProviderError) : Bool :=
  error.sdkTurnLost.any fun metadata =>
    metadata.localSessionKey = rt.sessionKey &&
    !(rt.currentActivityGenerationLocallyCancelled || rt.activeDispatchCancelled) &&
    sameActivityGeneration metadata.activityGeneration (some rt.currentActivityGeneration) &&
    (metadata.replayDecision = "pending" || metadata.replayDecision = "safe_replay") &&
    (rt.activeDispatchEntries ≠ [] && rt.activeTurn) &&
    !(rt.activeDispatchHasSideEffectEvidence || rt.openTools.length > 0) &&
    rt.sdkTurnLostRecoveryBudgetUsed metadata < maxSdkTurnLostRecoveryAttempts

/-- A lost turn that is not replayed. -/
theorem keepsOrDrains_handleSdkTurnLostRecovery {error : ProviderError}
    (hlost : rt.replaysLostTurn error = false)
    (h : handleSdkTurnLostRecovery localeCompare env error rt = some rt') :
    KeepsOrDrains localeCompare env rt rt' := by
  obtain ⟨metadata, hmetadata, h⟩ := Option.map_eq_some_iff.1 h
  rw [replaysLostTurn, hmetadata, Option.any_some] at hlost
  subst h
  split
  · exact .refl
  rename_i hkey
  split
  · exact .keeps rfl
  rename_i hcancelled
  split
  · exact .keeps rfl
  rename_i hgeneration
  split
  · exact .keeps rfl
  rename_i hdecision
  split
  · exact .keeps rfl
  rename_i hactive
  split
  · exact .keeps rfl
  rename_i heffects
  split
  · exact .keeps rfl
  · -- the turn is replayed
    rename_i hbudget
    have hused : rt.sdkTurnLostRecoveryBudgetUsed metadata < maxSdkTurnLostRecoveryAttempts := by
      unfold consumeSdkTurnLostRecoveryBudget at hbudget
      dsimp only at hbudget
      split at hbudget
      · cases hbudget
      · omega
    grind

/-- A turn that has failed, and is not replayed. -/
theorem keepsOrDrains_onError (sid : String) {error : ProviderError}
    (h : rt.replaysLostTurn error = false) :
    KeepsOrDrains localeCompare env rt (onError localeCompare env sid error rt) := by
  unfold onError
  split
  · exact .refl
  extract_lets rtSeen rtFree
  split
  · exact .keeps rfl
  split
  · exact keepsOrDrains_onLateCancellation.of_queue rfl
  have hseen : rtSeen.replaysLostTurn error = false := h
  split
  · rename_i heq
    exact (keepsOrDrains_handleSdkTurnLostRecovery hseen heq).of_queue rfl
  split
  · split
    · exact (keepsOrDrains_setStatus env.view .idle).of_queue rfl
    · exact .keeps rfl
  · exact (keepsOrDrains_onTurnError error).of_queue rfl

theorem keepsOrDrains_recordToolActivity (tool : ToolCallEvent) :
    KeepsOrDrains localeCompare env rt (recordToolActivity localeCompare env tool rt) := by
  unfold recordToolActivity
  extract_lets rtClosed
  split
  · split
    · exact (keepsOrDrains_drainPendingIfNoActiveTurn env.view).of_queue rfl
    · exact .keeps rfl
  split
  · exact .keeps rfl
  split
  · exact (keepsOrDrains_drainPendingIfNoActiveTurn env.view).of_queue rfl
  split
  · exact (keepsOrDrains_setStatus env.view .idle).of_queue rfl
  · exact .keeps rfl

theorem keepsOrDrains_onToolCall (sid : String) (tool : ToolCallEvent) :
    KeepsOrDrains localeCompare env rt (onToolCall localeCompare env sid tool rt) := by
  unfold onToolCall
  split
  · exact .refl
  extract_lets rtRecorded rtSeen
  have hrecorded : KeepsOrDrains localeCompare env rt rtRecorded :=
    (keepsOrDrains_recordToolActivity tool).of_queue rfl
  have hseen : rtSeen.queue = rtRecorded.queue := by
    unfold rtSeen
    split <;> rfl
  split
  · exact hrecorded.trans (.keeps hseen)
  · exact hrecorded.trans (.keeps hseen)

/-! ## The rest of a dispatch -/

theorem keepsOrDrains_contextReady (dispatchId : Nat) (next : DispatchPhase) :
    KeepsOrDrains localeCompare env rt (contextReady localeCompare env dispatchId next rt) := by
  unfold contextReady
  split
  · exact (keepsOrDrains_cancelActiveDispatchLocally env.view (some dispatchId)).of_queue rfl
  · exact .keeps rfl

/-- Whether the entries of a dispatch that is rejected are put back into the queue. -/
def requeuesRejected (rt : TransportSessionRuntime) (error : ProviderError) : Bool :=
  !error.isCancelled && error.recoverable && rt.activeDispatchEntries ≠ [] &&
    (isRecoverableProviderBusyError error ||
      rt.recoverableDispatchRetries < maxRecoverableDispatchRetries)

theorem requeuesRejected_endTurn (error : ProviderError) :
    rt.endTurn.requeuesRejected error = rt.requeuesRejected error := rfl

theorem requeuesRejected_releaseDispatch (error : ProviderError) :
    rt.releaseDispatch.requeuesRejected error = rt.requeuesRejected error := rfl

theorem requeuesRejected_deleteLocallyCancelled (dispatchId : Nat) (error : ProviderError) :
    (rt.deleteLocallyCancelled dispatchId).requeuesRejected error = rt.requeuesRejected error := rfl

/-- STOP is not a provider that is busy. -/
theorem isRecoverableProviderBusyError_of_isCancelled {error : ProviderError}
    (h : error.isCancelled = true) : isRecoverableProviderBusyError error = false := by
  have hcode : error.code = "CANCELLED" := of_decide_eq_true h
  rw [isRecoverableProviderBusyError, hcode]
  rfl

/-- Entries that are not put back. -/
theorem keepsOrDrains_giveUpOrRetry {error : ProviderError}
    (hagain : (error.isCancelled || error.recoverable) = true)
    (h : rt.requeuesRejected error = false) :
    KeepsOrDrains localeCompare env rt (giveUpOrRetry localeCompare env error rt) := by
  have hbusy := @isRecoverableProviderBusyError_of_isCancelled error
  unfold giveUpOrRetry
  extract_lets isRecoverableBusy canRetryRecoverable rtDisarmed
  have hretry : (if canRetryRecoverable then rt.requeueAndScheduleRecoverableRetry else none) =
      none := by
    unfold requeueAndScheduleRecoverableRetry
    unfold requeuesRejected at h
    grind
  have hback : (error.recoverable && isRecoverableBusy &&
      decide (rtDisarmed.activeDispatchEntries.length > 0)) = false := by
    have hactive : rtDisarmed.activeDispatchEntries = rt.activeDispatchEntries := rfl
    unfold requeuesRejected at h
    grind
  rw [hretry]
  dsimp only
  rw [hback, if_neg Bool.false_ne_true]
  exact (keepsOrDrains_drainOrSetStatus env.view _).of_queue rfl

theorem keepsOrDrains_dispatchRejected (dispatchId : Nat) {error : ProviderError}
    (hlost : rt.replaysLostTurn error = false) (h : rt.requeuesRejected error = false) :
    KeepsOrDrains localeCompare env rt
      (dispatchRejected localeCompare env dispatchId error rt) := by
  unfold dispatchRejected
  extract_lets rtEnded rtFree
  have hended : rtEnded.queue = rt.queue := rfl
  have hlost : rtEnded.replaysLostTurn error = false := hlost
  have hfree : rtFree.queue = rt.queue := by
    rw [queue_deleteLocallyCancelled, queue_releaseDispatch, queue_endTurn, hended]
  have hrejected : rtFree.requeuesRejected error = false := by
    rw [requeuesRejected_deleteLocallyCancelled, requeuesRejected_releaseDispatch,
      requeuesRejected_endTurn]
    exact h
  split
  · exact .keeps hended
  split
  · rename_i heq
    exact (keepsOrDrains_handleSdkTurnLostRecovery hlost heq).of_queue hended
  split
  · rename_i hagain
    exact (keepsOrDrains_giveUpOrRetry hagain hrejected).of_queue hfree
  · exact .keeps hfree

/-! ## Timers -/

theorem keepsOrDrains_runRecoverableRetryTick :
    KeepsOrDrains localeCompare env rt (runRecoverableRetryTick localeCompare env rt) := by
  unfold runRecoverableRetryTick
  split
  · exact .refl
  extract_lets rtDisarmed
  split
  · exact .keeps rfl
  split
  · exact .keeps rfl
  split
  · exact .keeps rfl
  · exact (keepsOrDrains_drainPending env.view).of_queue rfl

theorem keepsOrDrains_runStalePendingCancelFallback :
    KeepsOrDrains localeCompare env rt (runStalePendingCancelFallback localeCompare env rt) := by
  unfold runStalePendingCancelFallback
  split
  · exact .refl
  extract_lets rtFired
  iterate 3
    split
    · exact .keeps rfl
  exact (keepsOrDrains_cancelActiveDispatchLocally env.view _).of_queue rfl

/-! ## STOP and settlement -/

theorem keepsOrDrains_cancelTurn :
    KeepsOrDrains localeCompare env rt (cancelTurn localeCompare env rt) := by
  unfold cancelTurn
  extract_lets dispatchId rtMarked rtCounted
  have hmarked : rtMarked.queue = rt.queue := by
    unfold rtMarked
    cases dispatchId <;> rfl
  clear_value rtMarked
  split
  · exact (keepsOrDrains_drainOrSetStatus env.view .idle).of_queue hmarked
  split
  · exact (keepsOrDrains_cancelActiveDispatchLocally env.view dispatchId).of_queue hmarked
  · exact (keepsOrDrains_cancelActiveDispatchLocally env.viewAfterCancel dispatchId).of_queue
      hmarked

/-- STOP, unless a turn waits to be tried again. -/
theorem keepsOrDrains_cancelBound (h : rt.recoverableRetryTimer = false) :
    KeepsOrDrains localeCompare env rt (cancelBound localeCompare env rt) := by
  rw [cancelBound, h, Bool.false_and, Bool.false_and, if_neg Bool.false_ne_true]
  exact keepsOrDrains_cancelTurn

theorem keepsOrDrains_settleActiveDispatchFromExternalCompletion :
    KeepsOrDrains localeCompare env rt
      (settleActiveDispatchFromExternalCompletion localeCompare env rt).2 := by
  unfold settleActiveDispatchFromExternalCompletion
  split
  · exact .refl
  extract_lets cancels rtMarked rtCancelled rtCounted rtFree rtNoted
  have hmarked : rtMarked.queue = rt.queue := by
    unfold rtMarked
    cases rt.activeDispatchId <;> rfl
  have hcancelled : rtCancelled.queue = rt.queue :=
    queue_markCurrentActivityGenerationLocallyCancelled.trans hmarked
  clear_value rtCancelled
  have hnoted : rtNoted.queue = rt.queue := by
    unfold rtNoted
    split <;> exact hcancelled
  exact (keepsOrDrains_drainOrSetStatus _ .idle).of_queue hnoted

theorem keepsOrDrains_cancelStaleActiveTurnWithPending (nowMs : Option Int) (staleMs : Int)
    (h : rt.recoverableRetryTimer = false) :
    KeepsOrDrains localeCompare env rt
      (cancelStaleActiveTurnWithPending localeCompare env nowMs staleMs rt).2 := by
  unfold cancelStaleActiveTurnWithPending
  iterate 4
    split
    · exact .refl
  extract_lets providerOutputAt
  split
  · exact .refl
  · dsimp only
    have hqueue (rt' : TransportSessionRuntime) (hretry : rt'.recoverableRetryTimer = false)
        (hqueue : rt'.queue = rt.queue) :
        KeepsOrDrains localeCompare env rt (cancelBound localeCompare env rt') :=
      (keepsOrDrains_cancelBound hretry).of_queue hqueue
    exact hqueue _ h rfl

theorem keepsOrDrains_recoverSilentActiveTurn (nowMs : Option Int) (staleMs : Int) :
    KeepsOrDrains localeCompare env rt
      (recoverSilentActiveTurn localeCompare env nowMs staleMs rt).2 := by
  unfold recoverSilentActiveTurn
  iterate 2
    split
    · exact .refl
  extract_lets staleMs'
  split
  · exact .refl
  · exact keepsOrDrains_settleActiveDispatchFromExternalCompletion

end Drains

/-! ## Any step -/

/-- The runtime goes on, and the step puts no entry back into the queue. -/
def PutsNothingBack (rt : TransportSessionRuntime) (p : StepEnv × Event) : Prop :=
  match p.2 with
  | .onError _ _ error => rt.replaysLostTurn error = false
  | .dispatchRejected _ error =>
      rt.replaysLostTurn error = false ∧ rt.requeuesRejected error = false
  | .cancel | .cancelStaleActiveTurnWithPending .. => rt.recoverableRetryTimer = false
  | .rehydratePendingFromStore | .kill | .finishKill _ => False
  | _ => True

/-- What a step does to the queue. -/
inductive QueueSpec (localeCompare : Collation) (env : StepEnv) (rt : TransportSessionRuntime) :
    Event → String × List PendingEntry × StoreConn → Prop
  | keeps {e} : QueueSpec localeCompare env rt e rt.queue
  | drains {e} (hpending : rt.pendingMessages ≠ []) :
      QueueSpec localeCompare env rt e (rt.drainedQueue localeCompare env)
  | queued {input} (hbusy : rt.hasActiveTurnWork env.view = true) :
      QueueSpec localeCompare env rt (.send input)
        (rt.sessionKey,
          if input.placement = .front then
            input.entry env.uuid rt.nextSerial :: rt.pendingMessages
          else rt.pendingMessages ++ [input.entry env.uuid rt.nextSerial],
          (enqueue localeCompare env.store
            ((input.entry env.uuid rt.nextSerial).enqueueInput rt.sessionKey
              rt.currentActivityGeneration input.placement) rt.store).2)
  | edited {id text} (hid : id ≠ "") (htext : text ≠ "")
      (h : ∃ e ∈ rt.pendingMessages, e.clientMessageId = id) :
      QueueSpec localeCompare env rt (.editPendingMessage id text)
        (rt.sessionKey, editFirst id text rt.pendingMessages,
          (edit localeCompare env.store rt.sessionKey id text rt.store).2)
  | removed {id} (h : ∃ e ∈ rt.pendingMessages, e.clientMessageId = id) :
      QueueSpec localeCompare env rt (.removePendingMessage id)
        (rt.sessionKey, rt.pendingMessages.eraseP (·.clientMessageId = id),
          (drop localeCompare env.store rt.sessionKey id .userCleared rt.store).2)
  | removedByPrefix {commandIdPrefix} (hp : commandIdPrefix ≠ "") :
      QueueSpec localeCompare env rt (.removePendingMessagesByCommandIdPrefix commandIdPrefix)
        (rt.sessionKey,
          rt.pendingMessages.filter fun e => !jsStartsWith e.clientMessageId commandIdPrefix,
          rt.store)

theorem KeepsOrDrains.spec (h : KeepsOrDrains localeCompare env rt rt') (e : Event) :
    QueueSpec localeCompare env rt e rt'.queue := by
  cases h with
  | keeps h => exact h ▸ .keeps
  | drains hpending h => exact h ▸ .drains hpending

section Steps

variable (localeCompare env rt)

theorem send_queueSpec (input : SendInput) :
    QueueSpec localeCompare env rt (.send input) (send localeCompare env input rt).2.queue := by
  unfold send
  split
  · exact .keeps
  split
  · rename_i hbusy
    exact .queued hbusy
  · exact .keeps

theorem editPendingMessage_queueSpec (id text : String) :
    QueueSpec localeCompare env rt (.editPendingMessage id text)
      (editPendingMessage localeCompare env id text rt).2.queue := by
  unfold editPendingMessage
  split
  · exact .keeps
  rename_i hempty
  split
  · exact .keeps
  · rename_i h
    exact .edited (not_or.1 hempty).1 (not_or.1 hempty).2 (by simpa using h)

theorem removePendingMessage_queueSpec (id : String) :
    QueueSpec localeCompare env rt (.removePendingMessage id)
      (removePendingMessage localeCompare env id rt).2.queue := by
  unfold removePendingMessage
  split
  · exact .keeps
  split
  · exact .keeps
  · rename_i e h
    have hid : decide (e.clientMessageId = id) = true := by simpa using List.find?_some h
    exact .removed ⟨e, List.mem_of_find?_eq_some h, of_decide_eq_true hid⟩

theorem removePendingMessagesByCommandIdPrefix_queueSpec (commandIdPrefix : String) :
    QueueSpec localeCompare env rt (.removePendingMessagesByCommandIdPrefix commandIdPrefix)
      (removePendingMessagesByCommandIdPrefix commandIdPrefix rt).2.queue := by
  unfold removePendingMessagesByCommandIdPrefix
  split
  · exact .keeps
  rename_i hempty
  rw [List.partition_eq_filter_filter]
  dsimp only
  split
  · exact .keeps
  · exact .removedByPrefix hempty

variable {rt}

/-- **What a step does to the queue, as long as no entry is put back.** -/
theorem step_queue {e : Event} (h : PutsNothingBack rt (env, e)) :
    QueueSpec localeCompare env rt e (step localeCompare env rt e).queue := by
  cases e with
  | send input => exact send_queueSpec localeCompare env rt input
  | editPendingMessage id text => exact editPendingMessage_queueSpec localeCompare env rt id text
  | removePendingMessage id => exact removePendingMessage_queueSpec localeCompare env rt id
  | removePendingMessagesByCommandIdPrefix commandIdPrefix =>
    exact removePendingMessagesByCommandIdPrefix_queueSpec localeCompare env rt commandIdPrefix
  | rehydratePendingFromStore | kill | finishKill preserve => exact h.elim
  | setProviderSessionId id => exact .keeps
  | cancel =>
    refine KeepsOrDrains.spec ?_ _
    simp only [step, cancel]
    split
    · exact .refl
    · exact keepsOrDrains_cancelBound h
  | drainPendingIfIdle =>
    refine KeepsOrDrains.spec ?_ _
    simp only [step, drainPendingIfIdle]
    split
    · exact .refl
    · exact keepsOrDrains_drainPendingIfNoActiveTurn env.view
  | cancelStaleActiveTurnWithPending nowMs staleMs =>
    exact (keepsOrDrains_cancelStaleActiveTurnWithPending nowMs staleMs h).spec _
  | recoverSilentActiveTurn nowMs staleMs =>
    exact (keepsOrDrains_recoverSilentActiveTurn nowMs staleMs).spec _
  | settleActiveDispatchFromExternalCompletion =>
    exact keepsOrDrains_settleActiveDispatchFromExternalCompletion.spec _
  | onDelta dispatchId sid => exact (keepsOrDrains_onDelta sid).spec _
  | onComplete dispatchId sid content =>
    have hcomplete : KeepsOrDrains localeCompare env rt
        (onComplete localeCompare env sid content (rt.note (.ended dispatchId))) :=
      (keepsOrDrains_onComplete sid content).of_queue rfl
    exact hcomplete.spec _
  | onError dispatchId sid error =>
    have hnoted : (rt.note (.ended dispatchId)).replaysLostTurn error = false := h
    have herror : KeepsOrDrains localeCompare env rt
        (onError localeCompare env sid error (rt.note (.ended dispatchId))) :=
      (keepsOrDrains_onError sid hnoted).of_queue rfl
    exact herror.spec _
  | onToolCall sid tool => exact (keepsOrDrains_onToolCall sid tool).spec _
  | onApprovalRequest sid =>
    refine KeepsOrDrains.spec (.keeps ?_) _
    simp only [step, onApprovalRequest]
    split <;> rfl
  | onSign sid =>
    refine KeepsOrDrains.spec (.keeps ?_) _
    simp only [step, onSign]
    split <;> rfl
  | contextReady dispatchId next => exact (keepsOrDrains_contextReady dispatchId next).spec _
  | onBeforeProviderSend dispatchId =>
    refine KeepsOrDrains.spec (.keeps ?_) _
    simp only [step, onBeforeProviderSend]
    split
    · rfl
    · split <;> rfl
  | dispatchAccepted dispatchId =>
    refine KeepsOrDrains.spec (.keeps ?_) _
    simp only [step, dispatchAccepted]
    split
    · split <;> rfl
    · rfl
  | dispatchRejected dispatchId error =>
    exact (keepsOrDrains_dispatchRejected dispatchId h.1 h.2).spec _
  | runRecoverableRetryTick => exact keepsOrDrains_runRecoverableRetryTick.spec _
  | runStalePendingCancelFallback => exact keepsOrDrains_runStalePendingCancelFallback.spec _

end Steps

end TransportSessionRuntime

end Imcodes.Transport
