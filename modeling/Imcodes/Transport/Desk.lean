import Imcodes.Transport.Numbering

/-!
# The desk of a runtime

What a runtime does with its dispatches, and nothing else: the one that runs,
those whose body has not ended, and what the provider is told of them.
`TransportSessionRuntime.desk` forgets the rest.

* `Desk.Move` — a dispatch begins, is let go, or is forgotten by the record of
  those that STOP has settled.
* `deskMoves_drainOrSetStatus` and the lemmas before it — what may follow when
  the runtime is free.
-/

namespace Imcodes.Transport

open Imcodes.Queue Machine

attribute [local irreducible] Queue.edit Queue.drop Queue.enqueue finalizeSentBatch

/-! ## What a trace says -/

namespace ProviderMark

/-- The dispatch that a mark hands to the provider. -/
def handedIds : ProviderMark → List Nat
  | .handed dispatchId => [dispatchId]
  | _ => []

/-- The dispatch that a mark says has ended. -/
def endedIds : ProviderMark → List Nat
  | .ended dispatchId => [dispatchId]
  | _ => []

/-- The dispatch that a mark says has been stopped, or settled from outside. -/
def stoppedIds : ProviderMark → List Nat
  | .stopped dispatchId => [dispatchId]
  | _ => []

end ProviderMark

/-- The dispatches that have been handed to the provider, in order. -/
def handedIds (t : List ProviderMark) : List Nat := t.flatMap ProviderMark.handedIds

/-- The dispatches that have ended. -/
def endedIds (t : List ProviderMark) : List Nat := t.flatMap ProviderMark.endedIds

/-- The dispatches that have been stopped, or settled from outside. -/
def stoppedIds (t : List ProviderMark) : List Nat := t.flatMap ProviderMark.stoppedIds

/-- The dispatches that the provider is still at, in the order in which it got
them. -/
def openIds (t : List ProviderMark) : List Nat := (handedIds t).filter (· ∉ endedIds t)

@[simp] theorem handedIds_append (t u : List ProviderMark) :
    handedIds (t ++ u) = handedIds t ++ handedIds u := List.flatMap_append

@[simp] theorem endedIds_append (t u : List ProviderMark) :
    endedIds (t ++ u) = endedIds t ++ endedIds u := List.flatMap_append

@[simp] theorem stoppedIds_append (t u : List ProviderMark) :
    stoppedIds (t ++ u) = stoppedIds t ++ stoppedIds u := List.flatMap_append

@[simp] theorem handedIds_cons (m : ProviderMark) (t : List ProviderMark) :
    handedIds (m :: t) = m.handedIds ++ handedIds t := rfl

@[simp] theorem endedIds_cons (m : ProviderMark) (t : List ProviderMark) :
    endedIds (m :: t) = m.endedIds ++ endedIds t := rfl

@[simp] theorem stoppedIds_cons (m : ProviderMark) (t : List ProviderMark) :
    stoppedIds (m :: t) = m.stoppedIds ++ stoppedIds t := rfl

@[simp] theorem handedIds_nil : handedIds [] = [] := rfl

@[simp] theorem endedIds_nil : endedIds [] = [] := rfl

@[simp] theorem stoppedIds_nil : stoppedIds [] = [] := rfl

theorem mem_openIds {t : List ProviderMark} {d : Nat} :
    d ∈ openIds t ↔ d ∈ handedIds t ∧ d ∉ endedIds t := by
  simp [openIds]

/-! ## The desk -/

/-- What a runtime does with its dispatches. -/
@[ext] structure Desk where
  dispatchId : Option Nat
  nextDispatchId : Nat
  /-- Whether there is a turn. -/
  running : Bool
  sending : Bool
  /-- Whether STOP has come for the turn that runs. -/
  cancelled : Bool
  locallyCancelled : List Nat
  fallback : Option (Option Nat)
  tasks : List DispatchTask
  trace : List ProviderMark

/-- The desk of a runtime. -/
def TransportSessionRuntime.desk (rt : TransportSessionRuntime) : Desk where
  dispatchId := rt.activeDispatchId
  nextDispatchId := rt.nextDispatchId
  running := rt.activeTurn
  sending := rt.sending
  cancelled := rt.activeDispatchCancelled
  locallyCancelled := rt.locallyCancelledDispatchIds
  fallback := rt.stalePendingCancelFallbackTimer
  tasks := rt.tasks
  trace := rt.providerTrace

namespace Desk

/-- A dispatch begins. -/
def begun (message : String) (attachments : Option (List TransportAttachment)) (k : Desk) : Desk :=
  { k with
    dispatchId := some (k.nextDispatchId + 1)
    nextDispatchId := k.nextDispatchId + 1
    running := true
    sending := true
    cancelled := false
    tasks := k.tasks ++ [⟨k.nextDispatchId + 1, message, attachments, .bootstrap⟩] }

/-- The dispatch is let go. -/
def released (k : Desk) : Desk :=
  { k with
    dispatchId := none
    running := false
    sending := false
    cancelled := false
    fallback := none }

/-- There is no turn. -/
def Free (k : Desk) : Prop := k.running = false ∧ k.sending = false

/-- One thing that can happen to a dispatch. -/
inductive Move : Desk → Desk → Prop
  | begin {k} (message attachments) (hfree : k.Free) : Move k (k.begun message attachments)
  /-- A dispatch that the provider has ended is let go. -/
  | release {k} (hended : k.running → ∀ d ∈ k.dispatchId, d ∈ endedIds k.trace) : Move k k.released
  /-- What is left of a dispatch without a turn goes. -/
  | dropStale {k} (hfree : k.Free) : Move k { k with dispatchId := none, cancelled := false }

/-- Any number of moves. -/
abbrev Moves : Desk → Desk → Prop := Relation.ReflTransGen Move

/-- The dispatch has been let go: nothing runs, or a later one. -/
def LetGo (d : Nat) (k : Desk) : Prop :=
  (k.dispatchId = none ∧ k.Free) ∨ ∃ d', d < d' ∧ k.dispatchId = some d'

/-- What is let go stays so. -/
theorem letGo_of_moves {k k' : Desk} {d : Nat} (hmoves : Moves k k') (h : k.LetGo d)
    (hd : d ≤ k.nextDispatchId) : k'.LetGo d := by
  have hinv : d ≤ k'.nextDispatchId ∧ k'.LetGo d := by
    refine reflTransGen_invariant (fun x : Desk => d ≤ x.nextDispatchId ∧ x.LetGo d)
      (fun x y hmove hx => ?_) hmoves ⟨hd, h⟩
    cases hmove with
    | begin message attachments hfree =>
      exact ⟨Nat.le_succ_of_le hx.1, Or.inr ⟨_, Nat.lt_succ_of_le hx.1, rfl⟩⟩
    | release hended => exact ⟨hx.1, Or.inl ⟨rfl, rfl, rfl⟩⟩
    | dropStale hfree => exact ⟨hx.1, Or.inl ⟨rfl, hfree⟩⟩
  exact hinv.2

end Desk

namespace TransportSessionRuntime

variable {localeCompare : Collation} {env : StepEnv} {rt rt' rt'' : TransportSessionRuntime}

/-! ## What does not concern the desk -/

@[simp] theorem desk_putStatus (status : AgentStatus) : (rt.putStatus status).desk = rt.desk := rfl

@[simp] theorem desk_closeOpenTools : rt.closeOpenTools.desk = rt.desk := rfl

@[simp] theorem desk_dropActiveEntries : rt.dropActiveEntries.desk = rt.desk := rfl

@[simp] theorem desk_clearRecoverableRetryTimer :
    rt.clearRecoverableRetryTimer.desk = rt.desk := rfl

@[simp] theorem desk_pushHistory (content : String) : (rt.pushHistory content).desk = rt.desk := rfl

@[simp] theorem desk_touch : (touch env rt).desk = rt.desk := rfl

@[simp] theorem desk_touchOutput : (touchOutput env rt).desk = rt.desk := rfl

@[simp] theorem desk_setOpenTool (tool : ToolCallEvent) :
    (rt.setOpenTool tool).desk = rt.desk := rfl

@[simp] theorem desk_deleteOpenTool (id : String) : (rt.deleteOpenTool id).desk = rt.desk := rfl

@[simp] theorem desk_markCurrentActivityGenerationLocallyCancelled :
    rt.markCurrentActivityGenerationLocallyCancelled.desk = rt.desk := by
  unfold markCurrentActivityGenerationLocallyCancelled
  split
  · rfl
  · dsimp only
    split <;> rfl

theorem desk_consumeSdkTurnLostRecoveryBudget {metadata : SdkTurnLostRecoveryMetadata}
    (h : rt.consumeSdkTurnLostRecoveryBudget metadata = some rt') : rt'.desk = rt.desk := by
  unfold consumeSdkTurnLostRecoveryBudget at h
  dsimp only at h
  split at h
  · cases h
  · cases h
    rfl

/-! ## Turns -/

@[simp] theorem desk_endTurn :
    rt.endTurn.desk = { rt.desk with running := false, sending := false } := rfl

variable (localeCompare env) in
theorem desk_drainAll (rt : TransportSessionRuntime) : ∃ message attachments,
    (drainAll localeCompare env rt).desk = rt.desk.begun message attachments := by
  unfold drainAll dispatchTurn
  extract_lets rtDisarmed timelineMessages messages
  exact ⟨_, _, rfl⟩

/-- A runtime comes from another by moves of its desk. -/
def DeskMovesTo (rt rt' : TransportSessionRuntime) : Prop := Desk.Moves rt.desk rt'.desk

theorem DeskMovesTo.of_eq (h : rt'.desk = rt.desk) : DeskMovesTo rt rt' := by
  rw [DeskMovesTo, h]

theorem DeskMovesTo.refl : DeskMovesTo rt rt := .of_eq rfl

theorem DeskMovesTo.trans (h : DeskMovesTo rt rt') (h' : DeskMovesTo rt' rt'') :
    DeskMovesTo rt rt'' :=
  Relation.ReflTransGen.trans h h'

theorem DeskMovesTo.single (h : Desk.Move rt.desk rt'.desk) : DeskMovesTo rt rt' :=
  Relation.ReflTransGen.single h

/-- Moves start from the desk, whatever else the runtime holds. -/
theorem DeskMovesTo.of_desk (h : DeskMovesTo rt rt') (hdesk : rt''.desk = rt.desk) :
    DeskMovesTo rt'' rt' :=
  (DeskMovesTo.of_eq hdesk.symm).trans h

theorem DeskMovesTo.desks {k : Desk} (h : DeskMovesTo rt rt') (hk : rt.desk = k) :
    Desk.Moves k rt'.desk :=
  hk ▸ h

/-- A runtime in which nothing blocks has no turn. -/
theorem free_of_blockingWorkCount {view : ActiveWorkRead} (h : rt.blockingWorkCount view = 0) :
    rt.desk.Free :=
  ⟨(idle_of_blockingWorkCount h).activeTurn, (idle_of_blockingWorkCount h).sending⟩

theorem deskMoves_drainPending (view : ActiveWorkRead) :
    DeskMovesTo rt (drainPending localeCompare env view rt).2 := by
  unfold drainPending
  split
  · exact .refl
  split
  · exact .of_eq (by dsimp only; split <;> rfl)
  · rename_i hwork
    obtain ⟨message, attachments, hdesk⟩ := desk_drainAll localeCompare env rt
    refine .single ?_
    rw [hdesk]
    exact .begin _ _ (free_of_blockingWorkCount (Nat.eq_zero_of_not_pos hwork))

theorem deskMoves_drainPendingIfNoActiveTurn (view : ActiveWorkRead) :
    DeskMovesTo rt (drainPendingIfNoActiveTurn localeCompare env view rt).2 := by
  unfold drainPendingIfNoActiveTurn
  split
  · exact .refl
  rename_i hfree
  rw [Bool.or_eq_true, not_or, Bool.not_eq_true, Bool.not_eq_true] at hfree
  have hstale : DeskMovesTo rt rt.clearStaleEntries := by
    unfold clearStaleEntries
    split
    · exact .single (.dropStale ⟨hfree.2, hfree.1⟩)
    · exact .refl
  refine hstale.trans ?_
  dsimp only
  split
  · exact .of_eq (by dsimp only; split <;> rfl)
  split
  · exact .refl
  · exact deskMoves_drainPending view

theorem deskMoves_setStatus (view : ActiveWorkRead) (status : AgentStatus) :
    DeskMovesTo rt (setStatus localeCompare env view status rt) := by
  unfold setStatus
  split
  · have h : DeskMovesTo rt (drainPendingIfNoActiveTurn localeCompare env view rt).2 :=
      deskMoves_drainPendingIfNoActiveTurn view
    split
    · rename_i heq
      rwa [heq] at h
    · rename_i heq
      rw [heq] at h
      refine h.trans (.of_eq ?_)
      split <;> rfl
  · exact .of_eq rfl

/-- What may follow when the runtime is free. -/
theorem deskMoves_drainOrSetStatus (view : ActiveWorkRead) (status : AgentStatus) :
    DeskMovesTo rt (drainOrSetStatus localeCompare env view status rt) := by
  unfold drainOrSetStatus
  have h : DeskMovesTo rt (drainPending localeCompare env view rt).2 := deskMoves_drainPending view
  split
  · rename_i heq
    rwa [heq] at h
  · rename_i heq
    rw [heq] at h
    exact h.trans (deskMoves_setStatus view status)

end TransportSessionRuntime

end Imcodes.Transport
