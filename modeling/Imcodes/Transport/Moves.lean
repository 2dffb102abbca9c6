import Imcodes.Transport.Lane

/-!
# What a step of the runtime does to its lane

* `idle_of_blockingWorkCount` — what there is not, when nothing blocks.
* `moves_drainPending` and the lemmas after it — one for each function of the
  runtime that may begin, end or put back a turn.
* `step_lane` — **every step of the runtime is one request to its lane, or any
  number of moves of it**.
-/

namespace Imcodes.Transport

open Imcodes.Queue

attribute [local irreducible] Queue.edit Queue.drop Queue.enqueue finalizeSentBatch

/-! ## Entries -/

@[simp] theorem PendingEntry.serial_handedOver (e : PendingEntry) :
    e.handedOver.serial = e.serial := rfl

@[simp] theorem PendingEntry.clientMessageId_handedOver (e : PendingEntry) :
    e.handedOver.clientMessageId = e.clientMessageId := rfl

@[simp] theorem PendingEntry.intake_handedOver (e : PendingEntry) :
    e.handedOver.intake = e.intake := rfl

@[simp] theorem PendingEntry.serial_recordedCopy (e : PendingEntry) :
    e.recordedCopy.serial = e.serial := rfl

@[simp] theorem PendingEntry.clientMessageId_recordedCopy (e : PendingEntry) :
    e.recordedCopy.clientMessageId = e.clientMessageId := rfl

@[simp] theorem PendingEntry.intake_recordedCopy (e : PendingEntry) :
    e.recordedCopy.intake = e.intake := rfl

theorem SendInput.intake_entry (input : SendInput) (uuid : String) (serial : Nat) :
    (input.entry uuid serial).intake = .front ↔ input.placement = .front := by
  by_cases h : input.placement = .front <;> simp [SendInput.entry, h]

/-- Listing entries does not change what a dispatch records of them. -/
theorem Lane.dispatchMarks_map_listedCopy (entries : List PendingEntry) :
    Lane.dispatchMarks (entries.map PendingEntry.listedCopy) = Lane.dispatchMarks entries := by
  have hfilter : (entries.map PendingEntry.listedCopy).filter (fun e => !e.historyCommitted) =
      (entries.filter fun e => !e.historyCommitted).map PendingEntry.listedCopy := by
    rw [List.filter_map]
    rfl
  simp only [Lane.dispatchMarks, hfilter, List.map_map]
  rfl

namespace TransportSessionRuntime

variable {localeCompare : Collation} {env : StepEnv} {rt : TransportSessionRuntime}

/-! ## What blocks -/

/-- What `getActivitySnapshot` counts never goes down again. -/
theorem blockingWorkCount_add (a : ActivitySnapshot) (reason : SessionActivityBusyReason)
    (count : Nat) : a.blockingWorkCount + count = (a.add reason count).blockingWorkCount := by
  unfold ActivitySnapshot.add
  split
  · rename_i h
    rw [h, Nat.add_zero]
  · rfl

theorem blockingWorkCount_le_addProviderWork (a : ActivitySnapshot)
    (x : Option ProviderActiveWorkSnapshot) :
    a.blockingWorkCount ≤ (x.elim a (rt.addProviderWork a)).blockingWorkCount := by
  cases x with
  | none => exact Nat.le_refl _
  | some x =>
    simp only [Option.elim_some, addProviderWork]
    generalize (if rt.activityGeneration > 0 then _ else _ : Option _) = expectedGeneration
    cases (evaluateProviderSnapshot x expectedGeneration).reason with
    | none => exact Nat.le_refl _
    | some reason =>
      dsimp only
      split
      · exact Nat.le_refl _
      · rw [← blockingWorkCount_add]
        exact Nat.le_add_right _ _

/-- Nothing in the runtime itself keeps it from starting a turn. -/
structure Idle (rt : TransportSessionRuntime) : Prop where
  sending : rt.sending = false
  activeTurn : rt.activeTurn = false
  active : rt.activeDispatchEntries = []
  retry : rt.recoverableRetryTimer = false
  tools : rt.openTools = []

/-- When nothing blocks, the runtime is idle. -/
theorem idle_of_blockingWorkCount {view : ActiveWorkRead} (h : rt.blockingWorkCount view = 0) :
    rt.Idle := by
  have hlocal : (if rt.sending || rt.activeTurn then 1 else 0) + rt.activeDispatchEntries.length +
      (if rt.recoverableRetryTimer then 1 else 0) + rt.openTools.length ≤
      rt.blockingWorkCount view := by
    unfold blockingWorkCount getActivitySnapshot
    dsimp only
    refine Eq.trans_le ?_ (blockingWorkCount_le_addProviderWork _ _)
    cases rt.recoverableRetryTimer <;> cases (rt.sending || rt.activeTurn) <;>
      simp [← blockingWorkCount_add]
  rw [h, Nat.le_zero] at hlocal
  have hturn : (rt.sending || rt.activeTurn) = false := by
    by_contra hne
    rw [Bool.not_eq_false] at hne
    rw [if_pos hne] at hlocal
    omega
  have hretry : rt.recoverableRetryTimer = false := by
    by_contra hne
    rw [Bool.not_eq_false] at hne
    rw [if_pos hne] at hlocal
    omega
  rw [Bool.or_eq_false_iff] at hturn
  refine ⟨hturn.1, hturn.2, List.eq_nil_of_length_eq_zero (by omega), hretry,
    List.eq_nil_of_length_eq_zero (by omega)⟩

/-! ## What does not concern the lane -/

@[simp] theorem lane_putStatus (status : AgentStatus) : (rt.putStatus status).lane = rt.lane := rfl

@[simp] theorem lane_closeOpenTools : rt.closeOpenTools.lane = rt.lane := rfl

@[simp] theorem lane_endTurn : rt.endTurn.lane = rt.lane := rfl

@[simp] theorem lane_clearStalePendingCancelFallbackTimer :
    rt.clearStalePendingCancelFallbackTimer.lane = rt.lane := rfl

@[simp] theorem lane_note (mark : ProviderMark) : (rt.note mark).lane = rt.lane := rfl

@[simp] theorem lane_addLocallyCancelled (dispatchId : Nat) :
    (rt.addLocallyCancelled dispatchId).lane = rt.lane := rfl

@[simp] theorem lane_deleteLocallyCancelled (dispatchId : Nat) :
    (rt.deleteLocallyCancelled dispatchId).lane = rt.lane := rfl

@[simp] theorem lane_deleteActiveLocallyCancelled :
    rt.deleteActiveLocallyCancelled.lane = rt.lane := by
  unfold deleteActiveLocallyCancelled
  cases rt.activeDispatchId <;> rfl

@[simp] theorem lane_markCurrentActivityGenerationLocallyCancelled :
    rt.markCurrentActivityGenerationLocallyCancelled.lane = rt.lane := by
  unfold markCurrentActivityGenerationLocallyCancelled
  split
  · rfl
  · dsimp only
    split <;> rfl

@[simp] theorem lane_touch : (touch env rt).lane = rt.lane := rfl

@[simp] theorem lane_touchOutput : (touchOutput env rt).lane = rt.lane := rfl

@[simp] theorem lane_pushHistory (content : String) : (rt.pushHistory content).lane = rt.lane := rfl

@[simp] theorem lane_setPhase (dispatchId : Nat) (phase : DispatchPhase) :
    (rt.setPhase dispatchId phase).lane = rt.lane := rfl

@[simp] theorem lane_endTask (dispatchId : Nat) : (rt.endTask dispatchId).lane = rt.lane := rfl

@[simp] theorem lane_setOpenTool (tool : ToolCallEvent) :
    (rt.setOpenTool tool).lane = rt.lane := rfl

@[simp] theorem lane_deleteOpenTool (id : String) : (rt.deleteOpenTool id).lane = rt.lane := rfl

theorem lane_consumeSdkTurnLostRecoveryBudget {metadata : SdkTurnLostRecoveryMetadata}
    {rt' : TransportSessionRuntime}
    (h : rt.consumeSdkTurnLostRecoveryBudget metadata = some rt') : rt'.lane = rt.lane := by
  unfold consumeSdkTurnLostRecoveryBudget at h
  dsimp only at h
  split at h
  · cases h
  · cases h
    rfl

/-! ## One move -/

@[simp] theorem lane_releaseDispatch :
    rt.releaseDispatch.lane = { rt.lane with dispatchId := none } := rfl

@[simp] theorem lane_dropActiveEntries :
    rt.dropActiveEntries.lane = { rt.lane with active := [] } := rfl

@[simp] theorem lane_clearRecoverableRetryTimer :
    rt.clearRecoverableRetryTimer.lane = { rt.lane with retrying := false } := rfl

variable (localeCompare env) in
theorem lane_drainAll (rt : TransportSessionRuntime) :
    (drainAll localeCompare env rt).lane = rt.lane.drained localeCompare env := by
  unfold drainAll dispatchTurn Lane.drained lane
  simp only [Lane.mk.injEq, true_and, List.map_map, clearRecoverableRetryTimer,
    ← Lane.dispatchMarks_map_listedCopy rt.pendingMessages, List.append_assoc]
  refine ⟨rfl, rfl, ?_⟩
  rw [Lane.dispatchMarks, List.map_map]
  rfl

/-! ## Any number of moves -/

section Moves

variable (localeCompare env)

/-- A runtime comes from another by moves of its lane. -/
def MovesTo (rt rt' : TransportSessionRuntime) : Prop :=
  Lane.Moves localeCompare env rt.lane rt'.lane

variable {localeCompare env} {rt' rt'' : TransportSessionRuntime}

theorem MovesTo.of_eq (h : rt'.lane = rt.lane) : MovesTo localeCompare env rt rt' := by
  rw [MovesTo, h]

theorem MovesTo.refl : MovesTo localeCompare env rt rt := .of_eq rfl

theorem MovesTo.trans (h : MovesTo localeCompare env rt rt')
    (h' : MovesTo localeCompare env rt' rt'') : MovesTo localeCompare env rt rt'' :=
  Relation.ReflTransGen.trans h h'

theorem MovesTo.single (h : Lane.Move localeCompare env rt.lane rt'.lane) :
    MovesTo localeCompare env rt rt' :=
  Relation.ReflTransGen.single h

/-- Moves start from the lane, whatever else the runtime holds. -/
theorem MovesTo.of_lane (h : MovesTo localeCompare env rt rt') (hlane : rt''.lane = rt.lane) :
    MovesTo localeCompare env rt'' rt' :=
  (MovesTo.of_eq hlane.symm).trans h

theorem MovesTo.lanes {l : Lane} (h : MovesTo localeCompare env rt rt') (hl : rt.lane = l) :
    Lane.Moves localeCompare env l rt'.lane :=
  hl ▸ h

theorem moves_releaseDispatch : MovesTo localeCompare env rt rt.releaseDispatch :=
  .single .release

theorem moves_dropActiveEntries : MovesTo localeCompare env rt rt.dropActiveEntries :=
  .single .dropActive

theorem moves_clearRecoverableRetryTimer :
    MovesTo localeCompare env rt rt.clearRecoverableRetryTimer :=
  .single .disarm

/-! ### Draining -/

theorem moves_drainPending (view : ActiveWorkRead) :
    MovesTo localeCompare env rt (drainPending localeCompare env view rt).2 := by
  unfold drainPending
  split
  · exact .refl
  · rename_i hpending
    split
    · exact .of_eq (by dsimp only; split <;> rfl)
    · rename_i hwork
      have hidle := idle_of_blockingWorkCount (Nat.eq_zero_of_not_pos hwork)
      rw [not_or] at hpending
      refine .single ?_
      rw [lane_drainAll]
      exact .drain hpending.1 hidle.active hidle.retry

theorem moves_clearStaleEntries : MovesTo localeCompare env rt rt.clearStaleEntries := by
  unfold clearStaleEntries
  split
  · exact .trans moves_dropActiveEntries (.single .release)
  · exact .refl

theorem moves_drainPendingIfNoActiveTurn (view : ActiveWorkRead) :
    MovesTo localeCompare env rt (drainPendingIfNoActiveTurn localeCompare env view rt).2 := by
  unfold drainPendingIfNoActiveTurn
  split
  · exact .refl
  · refine .trans moves_clearStaleEntries ?_
    dsimp only
    split
    · exact .of_eq (by dsimp only; split <;> rfl)
    · split
      · exact .refl
      · exact moves_drainPending view

theorem moves_setStatus (view : ActiveWorkRead) (status : AgentStatus) :
    MovesTo localeCompare env rt (setStatus localeCompare env view status rt) := by
  unfold setStatus
  split
  · have h : MovesTo localeCompare env rt
        (drainPendingIfNoActiveTurn localeCompare env view rt).2 :=
      moves_drainPendingIfNoActiveTurn view
    split
    · rename_i heq
      rwa [heq] at h
    · rename_i heq
      rw [heq] at h
      refine h.trans (.of_eq ?_)
      split <;> rfl
  · exact .of_eq rfl

theorem moves_drainOrSetStatus (view : ActiveWorkRead) (status : AgentStatus) :
    MovesTo localeCompare env rt (drainOrSetStatus localeCompare env view status rt) := by
  unfold drainOrSetStatus
  have h : MovesTo localeCompare env rt (drainPending localeCompare env view rt).2 :=
    moves_drainPending view
  split
  · rename_i heq
    rwa [heq] at h
  · rename_i heq
    rw [heq] at h
    exact h.trans (moves_setStatus view status)

theorem moves_cancelActiveDispatchLocally (view : ActiveWorkRead) (dispatchId : Option Nat) :
    MovesTo localeCompare env rt
      (cancelActiveDispatchLocally localeCompare env view dispatchId rt) := by
  have hsettle : MovesTo localeCompare env rt
      (cancelActiveDispatchLocally.settle localeCompare env view dispatchId rt) := by
    unfold cancelActiveDispatchLocally.settle
    dsimp only
    split
    · refine .trans ?_ (moves_drainOrSetStatus view .idle)
      refine .trans (.trans ?_ moves_dropActiveEntries) moves_releaseDispatch
      cases dispatchId <;> exact .of_eq (by simp)
    · have hend : MovesTo localeCompare env rt
          rt.markCurrentActivityGenerationLocallyCancelled.endTurn := .of_eq (by simp)
      have hfree := (hend.trans moves_dropActiveEntries).trans moves_releaseDispatch
      exact hfree.trans ((moves_drainOrSetStatus view .idle).of_lane rfl)
  unfold cancelActiveDispatchLocally
  split
  · split
    · exact .of_eq rfl
    · exact hsettle
  · exact hsettle

/-! ### Lost turns -/

theorem moves_failSdkTurnLostRecovery : MovesTo localeCompare env rt rt.failSdkTurnLostRecovery :=
  (moves_dropActiveEntries.trans moves_releaseDispatch).trans (.of_eq rfl)

theorem moves_replayLostTurn : MovesTo localeCompare env rt (replayLostTurn localeCompare env rt) := by
  have hfree : MovesTo localeCompare env rt rt.releaseDispatch := moves_releaseDispatch
  refine .trans (.trans hfree (.single ?_)) (moves_drainOrSetStatus env.view .thinking)
  exact .requeue

theorem moves_handleSdkTurnLostRecovery {error : ProviderError}
    (h : handleSdkTurnLostRecovery localeCompare env error rt = some rt') :
    MovesTo localeCompare env rt rt' := by
  obtain ⟨metadata, -, h⟩ := Option.map_eq_some_iff.1 h
  subst h
  split
  · exact .refl
  iterate 5
    split
    · exact moves_failSdkTurnLostRecovery
  split
  · exact moves_failSdkTurnLostRecovery
  · rename_i heq
    exact moves_replayLostTurn.of_lane (lane_consumeSdkTurnLostRecoveryBudget heq).symm

/-! ### Callbacks -/

/-- A runtime that has let go of its dispatch. -/
theorem MovesTo.settled (h : rt'.lane = { rt.lane with active := [], dispatchId := none }) :
    MovesTo localeCompare env rt rt' :=
  (moves_dropActiveEntries.trans moves_releaseDispatch).trans (.of_eq h)

/-- A runtime that has let go of its dispatch, but for the entries. -/
theorem MovesTo.released (h : rt'.lane = { rt.lane with dispatchId := none }) :
    MovesTo localeCompare env rt rt' :=
  moves_releaseDispatch.trans (.of_eq h)

theorem moves_onDelta (sid : String) : MovesTo localeCompare env rt (onDelta env sid rt) := by
  unfold onDelta
  split
  · exact .refl
  extract_lets rtTouched
  split
  · exact .of_eq rfl
  split
  · exact .of_eq rfl
  · exact .of_eq rfl

theorem moves_onComplete (sid content : String) :
    MovesTo localeCompare env rt (onComplete localeCompare env sid content rt) := by
  unfold onComplete
  split
  · exact .refl
  extract_lets rtTouched rtSeen rtStopped rtDone
  split
  · exact .of_eq rfl
  split
  · refine .trans (.settled ?_) (moves_drainOrSetStatus env.view .idle)
    rw [lane_releaseDispatch, lane_deleteActiveLocallyCancelled]
    rfl
  · refine .trans (.settled ?_) (moves_drainOrSetStatus env.view .idle)
    rw [lane_pushHistory, lane_closeOpenTools, lane_releaseDispatch]
    rfl

theorem moves_onLateCancellation :
    MovesTo localeCompare env rt (onLateCancellation localeCompare env rt) := by
  unfold onLateCancellation
  extract_lets rtSeen
  split
  · have hdrain : MovesTo localeCompare env rt
        (drainPending localeCompare env env.view rtSeen.releaseDispatch).2 :=
      .trans (.released rfl) (moves_drainPending env.view)
    split
    · rename_i heq
      rwa [heq] at hdrain
    · rename_i heq
      rw [heq] at hdrain
      split
      · exact hdrain.trans (moves_setStatus env.view .idle)
      · exact hdrain
  · exact .of_eq rfl

theorem moves_onTurnError (error : ProviderError) :
    MovesTo localeCompare env rt (onTurnError localeCompare env error rt) := by
  unfold onTurnError
  extract_lets rtFree
  have hfree : rtFree.dropActiveEntries.lane =
      { rt.lane with active := [], dispatchId := none } := by
    rw [lane_dropActiveEntries, lane_releaseDispatch, lane_deleteActiveLocallyCancelled]
    rfl
  split
  · exact .trans (.settled hfree) (moves_drainOrSetStatus env.view .idle)
  · exact .settled hfree

theorem moves_onError (sid : String) (error : ProviderError) :
    MovesTo localeCompare env rt (onError localeCompare env sid error rt) := by
  unfold onError
  split
  · exact .refl
  extract_lets rtSeen rtFree
  split
  · exact .of_eq rfl
  split
  · exact moves_onLateCancellation.of_lane rfl
  split
  · rename_i heq
    exact (moves_handleSdkTurnLostRecovery heq).of_lane rfl
  split
  · split
    · exact .trans (.released rfl) (moves_setStatus env.view .idle)
    · exact .released rfl
  · exact (moves_onTurnError error).of_lane rfl

theorem moves_recordToolActivity (tool : ToolCallEvent) :
    MovesTo localeCompare env rt (recordToolActivity localeCompare env tool rt) := by
  unfold recordToolActivity
  extract_lets rtClosed
  split
  · split
    · exact (moves_drainPendingIfNoActiveTurn env.view).of_lane rfl
    · exact .of_eq rfl
  split
  · exact .of_eq rfl
  split
  · exact (moves_drainPendingIfNoActiveTurn env.view).of_lane rfl
  split
  · exact (moves_setStatus env.view .idle).of_lane rfl
  · exact .of_eq rfl

theorem moves_onToolCall (sid : String) (tool : ToolCallEvent) :
    MovesTo localeCompare env rt (onToolCall localeCompare env sid tool rt) := by
  unfold onToolCall
  split
  · exact .refl
  extract_lets rtRecorded rtSeen
  have hrecorded : MovesTo localeCompare env rt rtRecorded :=
    (moves_recordToolActivity tool).of_lane rfl
  have hseen : rtSeen.lane = rtRecorded.lane := by
    unfold rtSeen
    split <;> rfl
  split
  · exact hrecorded.trans (.of_eq hseen)
  · exact hrecorded.trans (.of_eq hseen)

/-! ### The rest of a dispatch -/

theorem moves_contextReady (dispatchId : Nat) (next : DispatchPhase) :
    MovesTo localeCompare env rt (contextReady localeCompare env dispatchId next rt) := by
  unfold contextReady
  split
  · exact (moves_cancelActiveDispatchLocally env.view (some dispatchId)).of_lane rfl
  · exact .of_eq rfl

theorem moves_requeueAndScheduleRecoverableRetry
    (h : rt.requeueAndScheduleRecoverableRetry = some rt') : MovesTo localeCompare env rt rt' := by
  unfold requeueAndScheduleRecoverableRetry at h
  split at h
  · cases h
  rename_i hactive
  split at h
  · cases h
  · cases h
    exact .single (.retry hactive)

theorem moves_giveUpOrRetry (error : ProviderError) :
    MovesTo localeCompare env rt (giveUpOrRetry localeCompare env error rt) := by
  unfold giveUpOrRetry
  extract_lets isRecoverableBusy canRetryRecoverable rtDisarmed
  have hdisarmed : MovesTo localeCompare env rt rtDisarmed :=
    moves_clearRecoverableRetryTimer.trans (.of_eq rfl)
  split
  · rename_i heq
    split at heq
    · exact moves_requeueAndScheduleRecoverableRetry heq
    · cases heq
  · split
    · exact hdisarmed.trans (.single .requeue)
    · exact (hdisarmed.trans moves_dropActiveEntries).trans (moves_drainOrSetStatus env.view _)

theorem moves_dispatchRejected (dispatchId : Nat) (error : ProviderError) :
    MovesTo localeCompare env rt (dispatchRejected localeCompare env dispatchId error rt) := by
  unfold dispatchRejected
  extract_lets rtEnded rtFree
  have hended : rtEnded.lane = rt.lane := (lane_note _).trans (lane_endTask dispatchId)
  clear_value rtEnded
  have hfree : rtFree.lane = { rt.lane with dispatchId := none } := by
    rw [lane_deleteLocallyCancelled, lane_releaseDispatch, lane_endTurn, hended]
  split
  · exact .of_eq ((lane_deleteLocallyCancelled dispatchId).trans hended)
  split
  · rename_i heq
    exact (moves_handleSdkTurnLostRecovery heq).of_lane hended.symm
  split
  · exact .trans (.released hfree) (moves_giveUpOrRetry error)
  · refine .settled ?_
    rw [lane_dropActiveEntries, lane_putStatus, hfree]

/-! ### Timers -/

theorem moves_runRecoverableRetryTick :
    MovesTo localeCompare env rt (runRecoverableRetryTick localeCompare env rt) := by
  unfold runRecoverableRetryTick
  split
  · exact .refl
  rename_i htimer
  rw [Bool.not_eq_true', Bool.not_eq_false] at htimer
  extract_lets rtDisarmed
  split
  · exact moves_clearRecoverableRetryTimer
  split
  · exact moves_clearRecoverableRetryTimer
  split
  · -- The timer is armed again, for the same turn.
    refine .of_eq (Lane.ext rfl rfl rfl rfl rfl rfl ?_ rfl rfl rfl rfl rfl)
    exact htimer.symm
  · exact moves_clearRecoverableRetryTimer.trans (moves_drainPending env.view)

theorem moves_runStalePendingCancelFallback :
    MovesTo localeCompare env rt (runStalePendingCancelFallback localeCompare env rt) := by
  unfold runStalePendingCancelFallback
  split
  · exact .refl
  extract_lets rtFired
  split
  · exact .of_eq rfl
  split
  · exact .of_eq rfl
  split
  · exact .of_eq rfl
  · exact (moves_cancelActiveDispatchLocally env.view _).of_lane rfl

/-! ### STOP and settlement -/

theorem moves_cancelRetry (h : rt.recoverableRetryTimer = true) :
    MovesTo localeCompare env rt (cancelRetry localeCompare env rt) := by
  unfold cancelRetry
  extract_lets retriedEntryCount rtCleared rtDisarmed rtDiscarded
  refine .trans ?_ (moves_drainOrSetStatus env.view .idle)
  by_cases hcount : retriedEntryCount > 0
  · refine .single ?_
    rw [lane_closeOpenTools, lane_markCurrentActivityGenerationLocallyCancelled,
      show rtDiscarded = _ from if_pos hcount]
    exact .stopRetry h hcount
  · refine moves_clearRecoverableRetryTimer.trans (.of_eq ?_)
    rw [lane_closeOpenTools, lane_markCurrentActivityGenerationLocallyCancelled,
      show rtDiscarded = _ from if_neg hcount]
    exact Lane.ext rfl rfl rfl rfl rfl rfl rfl (Nat.eq_zero_of_not_pos hcount).symm rfl rfl rfl rfl

theorem moves_cancelTurn : MovesTo localeCompare env rt (cancelTurn localeCompare env rt) := by
  unfold cancelTurn
  extract_lets dispatchId rtMarked rtCounted
  have hmarked : rtMarked.lane = rt.lane := by
    unfold rtMarked
    cases dispatchId with
    | none => rfl
    | some id => exact lane_addLocallyCancelled id
  clear_value rtMarked
  split
  · exact (moves_drainOrSetStatus env.view .idle).of_lane hmarked.symm
  split
  · exact (moves_cancelActiveDispatchLocally env.view dispatchId).of_lane hmarked.symm
  · exact (moves_cancelActiveDispatchLocally env.viewAfterCancel dispatchId).of_lane hmarked.symm

theorem moves_cancelBound : MovesTo localeCompare env rt (cancelBound localeCompare env rt) := by
  unfold cancelBound
  split
  · rename_i h
    simp only [Bool.and_eq_true] at h
    exact moves_cancelRetry h.1.1
  · exact moves_cancelTurn

theorem moves_settleActiveDispatchFromExternalCompletion :
    MovesTo localeCompare env rt
      (settleActiveDispatchFromExternalCompletion localeCompare env rt).2 := by
  unfold settleActiveDispatchFromExternalCompletion
  split
  · exact .refl
  extract_lets cancels rtMarked rtCancelled rtCounted rtFree rtNoted
  have hmarked : rtMarked.lane = rt.lane := by
    unfold rtMarked
    cases rt.activeDispatchId <;> rfl
  have hcancelled : rtCancelled.lane = rt.lane :=
    lane_markCurrentActivityGenerationLocallyCancelled.trans hmarked
  clear_value rtCancelled
  have hfree : rtFree.lane = { rt.lane with active := [], dispatchId := none } := by
    rw [← hcancelled]
    rfl
  have hnoted : rtNoted.lane = rtFree.lane := by
    unfold rtNoted
    split
    · exact lane_note _
    · rfl
  exact .trans (.settled (hnoted.trans hfree)) (moves_drainOrSetStatus _ .idle)

theorem moves_cancelStaleActiveTurnWithPending (nowMs : Option Int) (staleMs : Int) :
    MovesTo localeCompare env rt
      (cancelStaleActiveTurnWithPending localeCompare env nowMs staleMs rt).2 := by
  unfold cancelStaleActiveTurnWithPending
  iterate 4
    split
    · exact .refl
  extract_lets providerOutputAt
  split
  · exact .refl
  · dsimp only
    have hlane (rt' : TransportSessionRuntime) (h : rt'.lane = rt.lane) :
        MovesTo localeCompare env rt (cancelBound localeCompare env rt') :=
      moves_cancelBound.of_lane h.symm
    exact hlane _ rfl

theorem moves_recoverSilentActiveTurn (nowMs : Option Int) (staleMs : Int) :
    MovesTo localeCompare env rt
      (recoverSilentActiveTurn localeCompare env nowMs staleMs rt).2 := by
  unfold recoverSilentActiveTurn
  iterate 2
    split
    · exact .refl
  extract_lets staleMs'
  split
  · exact .refl
  · exact moves_settleActiveDispatchFromExternalCompletion

/-! ### The end -/

theorem lane_killed : rt.killed.lane = rt.lane.cleared rt.store := by
  unfold killed
  extract_lets rtFree
  exact Lane.ext rfl rfl rfl rfl rfl rfl rfl rfl rfl rfl rfl rfl

theorem moves_finishKill (preserve : Bool) : ∃ store,
    Lane.Moves localeCompare env (rt.lane.cleared store)
      (finishKill localeCompare env preserve rt).lane := by
  unfold finishKill
  generalize hkilled : rt.killed = rtKilled
  extract_lets store pendingVersion
  refine ⟨store, ?_⟩
  have hlane : rt.lane.cleared store = { rtKilled.lane with store := store } := by
    rw [← hkilled, lane_killed]
    rfl
  rw [hlane]
  exact (moves_setStatus env.view .idle).lanes rfl

end Moves

/-! ## Any step -/

/-- What a step of the runtime does to its lane. -/
inductive StepSpec (localeCompare : Collation) (env : StepEnv) (rt : TransportSessionRuntime) :
    Event → Lane → Prop
  /-- Turns begin, end or are put back, or nothing happens. -/
  | turns {e l} (h : Lane.Moves localeCompare env rt.lane l) : StepSpec localeCompare env rt e l
  | queued {input} (hbusy : rt.hasActiveTurnWork env.view = true) :
      StepSpec localeCompare env rt (.send input)
        (rt.lane.enqueue (input.entry env.uuid rt.nextSerial)
          (enqueue localeCompare env.store
            ((input.entry env.uuid rt.nextSerial).enqueueInput rt.sessionKey
              rt.currentActivityGeneration input.placement) rt.store).2)
  | sent {input} (hidle : rt.hasActiveTurnWork env.view = false) :
      StepSpec localeCompare env rt (.send input)
        (rt.lane.direct { input.entry env.uuid rt.nextSerial with timelineCommitted := true })
  | edited {id text} (h : ∃ e ∈ rt.pendingMessages, e.clientMessageId = id) :
      StepSpec localeCompare env rt (.editPendingMessage id text)
        (rt.lane.edited localeCompare env id text)
  | removed {id e} (h : rt.pendingMessages.find? (·.clientMessageId = id) = some e) :
      StepSpec localeCompare env rt (.removePendingMessage id)
        (rt.lane.removed localeCompare env id e)
  | removedByPrefix {commandIdPrefix} :
      StepSpec localeCompare env rt (.removePendingMessagesByCommandIdPrefix commandIdPrefix)
        (rt.lane.removedByPrefix commandIdPrefix)
  | recovered (store) :
      StepSpec localeCompare env rt .rehydratePendingFromStore
        (rt.lane.recover (readRecoverable localeCompare env rt).1 store)
  | killed {preserve l} (store) (h : Lane.Moves localeCompare env (rt.lane.cleared store) l) :
      StepSpec localeCompare env rt (.finishKill preserve) l

section Steps

variable (localeCompare env rt)

theorem lane_sendQueued (input : SendInput) :
    (sendQueued localeCompare env input rt).lane =
      rt.lane.enqueue (input.entry env.uuid rt.nextSerial)
        (enqueue localeCompare env.store
          ((input.entry env.uuid rt.nextSerial).enqueueInput rt.sessionKey
            rt.currentActivityGeneration input.placement) rt.store).2 := by
  unfold sendQueued Lane.enqueue
  simp only [SendInput.intake_entry]
  rfl

theorem lane_sendDirect (input : SendInput) :
    (sendDirect env input rt).lane =
      rt.lane.direct { input.entry env.uuid rt.nextSerial with timelineCommitted := true } := by
  unfold sendDirect dispatchTurn
  extract_lets entry rtAccepted dispatchId activityGeneration historyEntries
  refine Lane.ext rfl rfl rfl rfl rfl rfl rfl rfl rfl rfl rfl ?_
  rfl

theorem send_spec (input : SendInput) :
    StepSpec localeCompare env rt (.send input) (send localeCompare env input rt).2.lane := by
  unfold send
  split
  · exact .turns .refl
  split
  · rename_i hbusy
    dsimp only
    rw [lane_sendQueued]
    exact .queued hbusy
  · rename_i hidle
    dsimp only
    rw [lane_sendDirect]
    exact .sent (Bool.eq_false_iff.2 hidle)

theorem editPendingMessage_spec (id text : String) :
    StepSpec localeCompare env rt (.editPendingMessage id text)
      (editPendingMessage localeCompare env id text rt).2.lane := by
  unfold editPendingMessage
  split
  · exact .turns .refl
  split
  · exact .turns .refl
  · rename_i h
    exact .edited (by simpa using h)

theorem removePendingMessage_spec (id : String) :
    StepSpec localeCompare env rt (.removePendingMessage id)
      (removePendingMessage localeCompare env id rt).2.lane := by
  unfold removePendingMessage
  split
  · exact .turns .refl
  split
  · exact .turns .refl
  · rename_i e h
    exact .removed h

theorem removePendingMessagesByCommandIdPrefix_spec (commandIdPrefix : String) :
    StepSpec localeCompare env rt (.removePendingMessagesByCommandIdPrefix commandIdPrefix)
      (removePendingMessagesByCommandIdPrefix commandIdPrefix rt).2.lane := by
  unfold removePendingMessagesByCommandIdPrefix
  split
  · exact .turns .refl
  rw [List.partition_eq_filter_filter]
  dsimp only
  split
  · exact .turns .refl
  · exact .removedByPrefix

/-- The messages that are recovered; the rest of the read concerns the store. -/
theorem lane_recoverRows (projections : List QueueProjectionEntry) (liveIds : List String) :
    ∃ store, (recoverRows localeCompare env projections liveIds rt).2.lane =
      { rt.lane with store := store } := by
  induction projections generalizing liveIds rt with
  | nil => exact ⟨rt.store, rfl⟩
  | cons projection rest ih =>
    unfold recoverRows
    split
    · exact ih rt liveIds
    split
    · exact ih rt liveIds
    have hrow : ∃ store, (recoverRow localeCompare env projection rt).2.lane =
        { rt.lane with store := store } := by
      unfold recoverRow
      dsimp only
      split
      · exact ⟨_, rfl⟩
      split
      · exact ⟨_, rfl⟩
      split <;> exact ⟨_, rfl⟩
    obtain ⟨store, hrow⟩ := hrow
    split
    · rename_i heq
      rw [heq] at hrow
      obtain ⟨store', h⟩ := ih _ liveIds
      exact ⟨store', by rw [h, hrow]⟩
    · rename_i entry rt' heq
      rw [heq] at hrow
      obtain ⟨store', h⟩ := ih rt' (entry.clientMessageId :: liveIds)
      exact ⟨store', by dsimp only; rw [h, hrow]⟩

theorem lane_readRecoverable :
    ∃ store, (readRecoverable localeCompare env rt).2.lane = { rt.lane with store := store } := by
  unfold readRecoverable
  split
  · exact ⟨rt.store, rfl⟩
  split
  · exact ⟨_, rfl⟩
  · obtain ⟨store, h⟩ := lane_recoverRows localeCompare env { rt with store := _ } _ rt.liveIds
    exact ⟨store, h⟩

theorem rehydratePendingFromStore_spec :
    StepSpec localeCompare env rt .rehydratePendingFromStore
      (rehydratePendingFromStore localeCompare env rt).2.lane := by
  obtain ⟨store, hlane⟩ := lane_readRecoverable localeCompare env rt
  have hstep : (rehydratePendingFromStore localeCompare env rt).2.lane =
      rt.lane.recover (readRecoverable localeCompare env rt).1 store := by
    unfold rehydratePendingFromStore
    generalize readRecoverable localeCompare env rt = p at hlane ⊢
    obtain ⟨messages, rt'⟩ := p
    have hrecover : rt.lane.recover messages store = rt'.lane.recover messages store := by
      dsimp only at hlane
      rw [hlane]
      rfl
    have hstore : rt'.store = store := congrArg Lane.store hlane
    rw [hrecover, ← hstore]
    dsimp only
    split
    · rename_i hnil
      subst hnil
      simp [Lane.recover, recoveredEntries, lane]
    · rfl
  rw [hstep]
  exact .recovered store

theorem finishKill_spec (preserve : Bool) :
    StepSpec localeCompare env rt (.finishKill preserve)
      (finishKill localeCompare env preserve rt).lane := by
  obtain ⟨store, h⟩ := moves_finishKill preserve
  exact .killed store h

/-- **Every step of the runtime is one request to its lane, or any number of
moves of it.** -/
theorem step_lane (e : Event) :
    StepSpec localeCompare env rt e (step localeCompare env rt e).lane := by
  cases e with
  | send input => exact send_spec localeCompare env rt input
  | editPendingMessage id text => exact editPendingMessage_spec localeCompare env rt id text
  | removePendingMessage id => exact removePendingMessage_spec localeCompare env rt id
  | removePendingMessagesByCommandIdPrefix commandIdPrefix =>
    exact removePendingMessagesByCommandIdPrefix_spec localeCompare env rt commandIdPrefix
  | rehydratePendingFromStore => exact rehydratePendingFromStore_spec localeCompare env rt
  | finishKill preserve => exact finishKill_spec localeCompare env rt preserve
  | setProviderSessionId id => exact .turns .refl
  | cancel =>
    refine .turns ?_
    simp only [step, cancel]
    split
    · exact .refl
    · exact moves_cancelBound
  | drainPendingIfIdle =>
    refine .turns ?_
    simp only [step, drainPendingIfIdle]
    split
    · exact .refl
    · exact moves_drainPendingIfNoActiveTurn env.view
  | cancelStaleActiveTurnWithPending nowMs staleMs =>
    exact .turns (moves_cancelStaleActiveTurnWithPending nowMs staleMs)
  | recoverSilentActiveTurn nowMs staleMs =>
    exact .turns (moves_recoverSilentActiveTurn nowMs staleMs)
  | settleActiveDispatchFromExternalCompletion =>
    exact .turns moves_settleActiveDispatchFromExternalCompletion
  | kill => exact .turns .refl
  | onDelta dispatchId sid => exact .turns (moves_onDelta sid)
  | onComplete dispatchId sid content => exact .turns ((moves_onComplete sid content).of_lane rfl)
  | onError dispatchId sid error => exact .turns ((moves_onError sid error).of_lane rfl)
  | onToolCall sid tool => exact .turns (moves_onToolCall sid tool)
  | onApprovalRequest sid =>
    refine .turns (MovesTo.of_eq ?_)
    simp only [step, onApprovalRequest]
    split <;> rfl
  | onSign sid =>
    refine .turns (MovesTo.of_eq ?_)
    simp only [step, onSign]
    split <;> rfl
  | contextReady dispatchId next => exact .turns (moves_contextReady dispatchId next)
  | onBeforeProviderSend dispatchId =>
    refine .turns (MovesTo.of_eq ?_)
    simp only [step, onBeforeProviderSend]
    split
    · rfl
    · split <;> rfl
  | dispatchAccepted dispatchId =>
    refine .turns (MovesTo.of_eq ?_)
    simp only [step, dispatchAccepted]
    split
    · split <;> rfl
    · rfl
  | dispatchRejected dispatchId error => exact .turns (moves_dispatchRejected dispatchId error)
  | runRecoverableRetryTick => exact .turns moves_runRecoverableRetryTick
  | runStalePendingCancelFallback => exact .turns moves_runStalePendingCancelFallback

end Steps

end TransportSessionRuntime

end Imcodes.Transport
