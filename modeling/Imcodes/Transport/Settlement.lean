import Imcodes.Transport.Desk

/-!
# Terminal callbacks

The end of a turn, as the provider reports it, and when the runtime takes it for
that.

* `TakenUp` — the callback is not set aside as the echo of an earlier dispatch,
  nor left to another session.
* `settles_running_iff` — in every run, the callbacks that end the running turn
  settle its dispatch exactly when they are taken up.
-/

namespace Imcodes.Transport

open Imcodes.Queue Machine

attribute [local irreducible] Queue.edit Queue.drop Queue.enqueue finalizeSentBatch

/-- The dispatch that a callback ends, and the session the provider names. -/
def Event.terminal : Event → Option (Nat × String)
  | .onComplete dispatchId sid _ => some (dispatchId, sid)
  | .onError dispatchId sid _ => some (dispatchId, sid)
  | _ => none

/-- The error of a callback. -/
def Event.error : Event → Option ProviderError
  | .onError _ _ error => some error
  | _ => none

namespace TransportSessionRuntime

variable {localeCompare : Collation} {env : StepEnv} {rt rt' : TransportSessionRuntime}

/-! ## What is taken up -/

/-- The handlers do not set the callback aside: not for a settlement from outside,
not for a STOP, and not for another session. -/
def TakenUp (rt : TransportSessionRuntime) (e : Event) : Prop :=
  rt.externalCompletionSettlementsToIgnore = 0 ∧
    ∀ error ∈ e.error,
      (error.isCancelled = true → rt.cancelledProviderErrorsToIgnore = 0) ∧
        ∀ metadata ∈ error.sdkTurnLost, metadata.localSessionKey = rt.sessionKey

instance (e : Event) : Decidable (rt.TakenUp e) := by
  unfold TakenUp
  infer_instance

/-- The event is a callback that ends the running turn. -/
def EndsRunning (rt : TransportSessionRuntime) (e : Event) (dispatchId : Nat) : Prop :=
  rt.activeDispatchId = some dispatchId ∧ rt.activeTurn = true ∧
    ∃ sid, e.terminal = some (dispatchId, sid) ∧ rt.listensTo sid = true

/-- A callback that ends the running turn settles its dispatch. -/
def SettlesRunning (localeCompare : Collation) (rt : TransportSessionRuntime)
    (p : StepEnv × Event) : Prop :=
  ∀ dispatchId, rt.EndsRunning p.2 dispatchId →
    (step localeCompare p.1 rt p.2).desk.LetGo dispatchId

/-- A callback that ends the running turn is taken up. -/
def TakesUpRunning (rt : TransportSessionRuntime) (p : StepEnv × Event) : Prop :=
  ∀ dispatchId, rt.EndsRunning p.2 dispatchId → rt.TakenUp p.2

/-- The dispatch of a desk has been let go, and perhaps forgotten. -/
def Settled (k : Desk) (rt' : TransportSessionRuntime) : Prop :=
  ∃ ids, rt'.desk = { k.released with locallyCancelled := ids }

theorem Settled.letGo {k : Desk} (h : Settled k rt') {d : Nat} : rt'.desk.LetGo d := by
  obtain ⟨ids, hdesk⟩ := h
  rw [hdesk]
  exact Or.inl ⟨rfl, rfl, rfl⟩

/-- What follows a settlement does not bring the dispatch back. -/
theorem Settled.letGo_drain {k : Desk} (h : Settled k rt') {d : Nat} (hd : d ≤ k.nextDispatchId)
    (view : ActiveWorkRead) (status : AgentStatus) :
    (drainOrSetStatus localeCompare env view status rt').desk.LetGo d := by
  refine Desk.letGo_of_moves (deskMoves_drainOrSetStatus view status) h.letGo ?_
  obtain ⟨ids, hdesk⟩ := h
  rw [hdesk]
  exact hd

/-- A dispatch that still runs has not been let go. -/
theorem not_letGo {d : Nat} (h : rt.activeDispatchId = some d) : ¬ rt.desk.LetGo d := by
  rintro (⟨hnone, -⟩ | ⟨d', hlt, hd'⟩)
  · exact nomatch h.symm.trans hnone
  · exact Nat.lt_irrefl d (Option.some.inj (h.symm.trans hd') ▸ hlt)

/-! ## The handlers -/

theorem settled_deleteActiveLocallyCancelled :
    Settled rt.desk rt.endTurn.closeOpenTools.deleteActiveLocallyCancelled.releaseDispatch := by
  unfold deleteActiveLocallyCancelled
  cases rt.endTurn.closeOpenTools.activeDispatchId with
  | none => exact ⟨rt.locallyCancelledDispatchIds, rfl⟩
  | some id => exact ⟨_, rfl⟩

theorem Settled.of_desk {k : Desk} (h : Settled k rt) (hdesk : rt'.desk = rt.desk) :
    Settled k rt' := by
  obtain ⟨ids, hids⟩ := h
  exact ⟨ids, hdesk.trans hids⟩

theorem onComplete_letGo {sid content : String} {d : Nat} (hlisten : rt.listensTo sid = true)
    (hd : d ≤ rt.nextDispatchId) (htaken : rt.externalCompletionSettlementsToIgnore = 0) :
    (onComplete localeCompare env sid content rt).desk.LetGo d := by
  unfold onComplete
  rw [if_neg (by simp [hlisten])]
  extract_lets rtTouched rtSeen rtStopped rtDone
  have hseen : ¬ rtSeen.externalCompletionSettlementsToIgnore > 0 := by
    rw [show rtSeen.externalCompletionSettlementsToIgnore = 0 from htaken]
    exact Nat.lt_irrefl 0
  have hnext : d ≤ rtSeen.desk.nextDispatchId := hd
  rw [if_neg hseen]
  clear_value rtSeen
  split
  · have hsettled : Settled rtSeen.dropActiveEntries.desk rtStopped.releaseDispatch :=
      settled_deleteActiveLocallyCancelled
    exact hsettled.letGo_drain hnext env.view .idle
  · have hsettled : Settled rtSeen.desk (rtDone.pushHistory content) :=
      ⟨rtSeen.locallyCancelledDispatchIds, rfl⟩
    exact hsettled.letGo_drain hnext env.view .idle

theorem onTurnError_letGo {error : ProviderError} {d : Nat} (hd : d ≤ rt.nextDispatchId) :
    (onTurnError localeCompare env error rt).desk.LetGo d := by
  unfold onTurnError
  extract_lets rtFree
  have hsettled : Settled rt.desk rtFree := settled_deleteActiveLocallyCancelled
  split
  · have hfree : Settled rt.desk rtFree.dropActiveEntries := hsettled.of_desk rfl
    exact hfree.letGo_drain hd env.view .idle
  · exact (hsettled.of_desk rfl).letGo

theorem failSdkTurnLostRecovery_letGo {d : Nat} : rt.failSdkTurnLostRecovery.desk.LetGo d :=
  Or.inl ⟨rfl, rfl, rfl⟩

theorem replayLostTurn_letGo {d : Nat} (hd : d ≤ rt.nextDispatchId) :
    (replayLostTurn localeCompare env rt).desk.LetGo d := by
  unfold replayLostTurn
  extract_lets replayEntries rtFree rtRequeued
  have hsettled : Settled rt.desk rtRequeued := ⟨rt.locallyCancelledDispatchIds, rfl⟩
  exact hsettled.letGo_drain hd env.view .thinking

theorem handleSdkTurnLostRecovery_letGo {error : ProviderError} {d : Nat}
    (hd : d ≤ rt.nextDispatchId)
    (hown : ∀ metadata ∈ error.sdkTurnLost, metadata.localSessionKey = rt.sessionKey)
    (h : handleSdkTurnLostRecovery localeCompare env error rt = some rt') :
    rt'.desk.LetGo d := by
  obtain ⟨metadata, hmetadata, h⟩ := Option.map_eq_some_iff.1 h
  subst h
  rw [if_neg (not_not_intro (hown metadata hmetadata))]
  iterate 5
    split
    · exact failSdkTurnLostRecovery_letGo
  split
  · exact failSdkTurnLostRecovery_letGo
  · rename_i heq
    have hnext := congrArg Desk.nextDispatchId (desk_consumeSdkTurnLostRecoveryBudget heq)
    exact replayLostTurn_letGo (Nat.le_trans hd (Nat.le_of_eq hnext.symm))

theorem onError_letGo {sid : String} {error : ProviderError} {d : Nat}
    (hlisten : rt.listensTo sid = true) (hturn : rt.activeTurn = true) (hd : d ≤ rt.nextDispatchId)
    (htaken : rt.externalCompletionSettlementsToIgnore = 0)
    (hcancelled : error.isCancelled = true → rt.cancelledProviderErrorsToIgnore = 0)
    (hown : ∀ metadata ∈ error.sdkTurnLost, metadata.localSessionKey = rt.sessionKey) :
    (onError localeCompare env sid error rt).desk.LetGo d := by
  unfold onError
  rw [if_neg (by simp [hlisten])]
  extract_lets rtSeen rtFree
  have hseen : ¬ rtSeen.externalCompletionSettlementsToIgnore > 0 := by
    rw [show rtSeen.externalCompletionSettlementsToIgnore = 0 from htaken]
    exact Nat.lt_irrefl 0
  have hecho : ¬ (error.isCancelled = true ∧ rtSeen.cancelledProviderErrorsToIgnore > 0) := by
    rintro ⟨hc, hpos⟩
    rw [show rtSeen.cancelledProviderErrorsToIgnore = 0 from hcancelled hc] at hpos
    exact Nat.lt_irrefl 0 hpos
  rw [if_neg hseen, if_neg hecho]
  split
  · rename_i heq
    have hd' : d ≤ rtSeen.nextDispatchId := hd
    exact handleSdkTurnLostRecovery_letGo hd' hown heq
  · have hwork : rtSeen.hasActiveTurnWork env.view = true := by
      by_contra hidle
      have hfree := (idle_of_hasActiveTurnWork (Bool.eq_false_iff.2 hidle)).activeTurn
      exact Bool.false_ne_true (hfree.symm.trans hturn)
    rw [if_neg (by simp [hwork])]
    exact onTurnError_letGo hd

/-! ## Echoes -/

theorem onComplete_echo {sid content : String} (hlisten : rt.listensTo sid = true)
    (hpos : rt.externalCompletionSettlementsToIgnore > 0) :
    (onComplete localeCompare env sid content rt).activeDispatchId = rt.activeDispatchId := by
  unfold onComplete
  rw [if_neg (by simp [hlisten])]
  extract_lets rtTouched rtSeen rtStopped rtDone
  have hseen : rtSeen.externalCompletionSettlementsToIgnore > 0 := hpos
  rw [if_pos hseen]
  rfl

theorem onLateCancellation_echo (hturn : rt.activeTurn = true) :
    (onLateCancellation localeCompare env rt).activeDispatchId = rt.activeDispatchId := by
  unfold onLateCancellation
  extract_lets rtSeen
  have hwork : rtSeen.hasLocalActiveTurnWork = true := by
    have hseen : rtSeen.activeTurn = true := hturn
    simp [hasLocalActiveTurnWork, hseen]
  rw [if_neg (by simp [hwork])]

theorem onError_echo {sid : String} {error : ProviderError} (hlisten : rt.listensTo sid = true)
    (hturn : rt.activeTurn = true) (hnot : ¬ rt.TakenUp (.onError 0 sid error)) :
    (onError localeCompare env sid error rt).activeDispatchId = rt.activeDispatchId := by
  unfold onError
  rw [if_neg (by simp [hlisten])]
  extract_lets rtSeen rtFree
  by_cases hext : rtSeen.externalCompletionSettlementsToIgnore > 0
  · rw [if_pos hext]
    rfl
  rw [if_neg hext]
  have hext' : rt.externalCompletionSettlementsToIgnore = 0 := Nat.eq_zero_of_not_pos hext
  by_cases hecho : error.isCancelled = true ∧ rtSeen.cancelledProviderErrorsToIgnore > 0
  · rw [if_pos hecho]
    exact onLateCancellation_echo hturn
  rw [if_neg hecho]
  have hecho' : error.isCancelled = true → rt.cancelledProviderErrorsToIgnore = 0 := fun hc =>
    Nat.eq_zero_of_not_pos fun hpos => hecho ⟨hc, hpos⟩
  have hother : ∃ metadata ∈ error.sdkTurnLost, metadata.localSessionKey ≠ rtSeen.sessionKey := by
    by_contra hown
    push Not at hown
    exact hnot ⟨hext', fun error' herror => by cases herror; exact ⟨hecho', hown⟩⟩
  obtain ⟨metadata, hmetadata, hne⟩ := hother
  have hleft : handleSdkTurnLostRecovery localeCompare env error rtSeen = some rtSeen := by
    rw [handleSdkTurnLostRecovery, show error.sdkTurnLost = some metadata from hmetadata,
      Option.map_some, if_pos hne]
  rw [hleft]
  rfl

/-- A callback that is not taken up leaves the dispatch that runs. -/
theorem activeDispatchId_of_not_takenUp {e : Event} {d : Nat} (h : rt.EndsRunning e d)
    (hnot : ¬ rt.TakenUp e) : (step localeCompare env rt e).activeDispatchId = some d := by
  obtain ⟨hactive, hturn, sid, hterminal, hlisten⟩ := h
  cases e with
  | onComplete dispatchId sid' content =>
    cases hterminal
    have hpos : rt.externalCompletionSettlementsToIgnore > 0 := by
      refine Nat.pos_of_ne_zero fun hzero => hnot ⟨hzero, nofun⟩
    have hecho : (step localeCompare env rt (.onComplete d sid content)).activeDispatchId =
        (rt.note (.ended d)).activeDispatchId := onComplete_echo hlisten hpos
    exact hecho.trans hactive
  | onError dispatchId sid' error =>
    cases hterminal
    have hecho : (step localeCompare env rt (.onError d sid error)).activeDispatchId =
        (rt.note (.ended d)).activeDispatchId := onError_echo hlisten hturn hnot
    exact hecho.trans hactive
  | _ => cases hterminal

/-- A callback that is taken up lets the dispatch go that runs. -/
theorem letGo_of_takenUp {e : Event} {d : Nat} (hd : d ≤ rt.nextDispatchId)
    (h : rt.EndsRunning e d) (htaken : rt.TakenUp e) :
    (step localeCompare env rt e).desk.LetGo d := by
  obtain ⟨-, hturn, sid, hterminal, hlisten⟩ := h
  obtain ⟨hext, herror⟩ := htaken
  cases e with
  | onComplete dispatchId sid' content =>
    cases hterminal
    have hlisten' : (rt.note (.ended d)).listensTo sid = true := hlisten
    exact onComplete_letGo hlisten' hd hext
  | onError dispatchId sid' error =>
    cases hterminal
    have hlisten' : (rt.note (.ended d)).listensTo sid = true := hlisten
    obtain ⟨hcancelled, hown⟩ := herror error rfl
    exact onError_letGo hlisten' hturn hd hext hcancelled hown
  | _ => cases hterminal

/-! ## Runs -/

/-- In a state of a run, a callback that ends the running turn settles its
dispatch exactly when it is taken up. -/
theorem settlesRunning_iff (hn : rt.lane.WellNumbered) (p : StepEnv × Event) :
    SettlesRunning localeCompare rt p ↔ rt.TakesUpRunning p := by
  refine forall_congr' fun d => forall_congr' fun hends => ?_
  refine ⟨fun hlet => by_contra fun hnot => ?_, letGo_of_takenUp ?_ hends⟩
  · exact not_letGo (activeDispatchId_of_not_takenUp hends hnot) hlet
  · exact hn.dispatch_le d hends.1

/-- **The callbacks that end the running turn settle its dispatch** exactly when
they are taken up. -/
theorem settles_running_iff (localeCompare : Collation) (provider : Provider) (sessionKey : String)
    (store : StoreConn) (steps : Steps) :
    let rt := create provider sessionKey store
    let after := fun (rt : TransportSessionRuntime) p => step localeCompare p.1 rt p.2
    Along after (SettlesRunning localeCompare) steps rt ↔ Along after TakesUpRunning steps rt := by
  intro rt after
  have hstep : ∀ (rt : TransportSessionRuntime) (p : StepEnv × Event),
      rt.lane.WellNumbered → (after rt p).lane.WellNumbered := fun rt p h => wellNumbered_step h p.2
  have hrt : rt.lane.WellNumbered := wellNumbered_create provider sessionKey store
  constructor
  · exact Along.of_invariant (fun rt => rt.lane.WellNumbered) (fun rt p h _ => hstep rt p h)
      (fun rt p h => (settlesRunning_iff h p).1) hrt
  · exact Along.of_invariant (fun rt => rt.lane.WellNumbered) (fun rt p h _ => hstep rt p h)
      (fun rt p h => (settlesRunning_iff h p).2) hrt

/-! ### A settlement that the provider does not answer -/

/-- A turn is settled from outside while the provider is at it.  The provider
does not answer its `cancel`; the next turn ends. -/
def unansweredRun : Steps :=
  [(exampleStepEnv "u", .setProviderSessionId "s"),
    (exampleStepEnv "u", .send { message := "one", clientMessageId := some "m1" }),
    (exampleStepEnv "u", .onBeforeProviderSend 1),
    (exampleStepEnv "u", .settleActiveDispatchFromExternalCompletion),
    (exampleStepEnv "u", .send { message := "two", clientMessageId := some "m2" }),
    (exampleStepEnv "u", .onBeforeProviderSend 2),
    (exampleStepEnv "u", .onComplete 2 "s" "done")]

/-- The dispatches that the callbacks of a run end. -/
def terminalIds (steps : Steps) : List Nat := steps.filterMap fun p => p.2.terminal.map (·.1)

/-- A callback that ends a turn is for a dispatch that the provider has got. -/
def EndsHanded (rt : TransportSessionRuntime) (p : StepEnv × Event) : Prop :=
  ∀ d ∈ p.2.terminal.map (·.1), d ∈ handedIds rt.providerTrace

instance (p : StepEnv × Event) : Decidable (rt.EndsHanded p) := by
  unfold EndsHanded
  infer_instance

/-- **The callback of the running turn may be swallowed**, by a provider that
ends every dispatch once at most, after it has got it. -/
theorem not_settles_running :
    ¬ ∀ (localeCompare : Collation) (provider : Provider) (sessionKey : String)
      (store : StoreConn) (steps : Steps),
      let after := fun (rt : TransportSessionRuntime) p => step localeCompare p.1 rt p.2
      (terminalIds steps).Nodup →
      Along after EndsHanded steps (create provider sessionKey store) →
      Along after (SettlesRunning localeCompare) steps (create provider sessionKey store) := by
  intro h
  have hsettles := h (fun _ _ => 0) exampleProvider "deck" (freshConn fun _ => none) unansweredRun
    (by decide) (by decide)
  obtain ⟨-, -, -, -, -, -, hlast, -⟩ := hsettles
  refine not_letGo ?_ (hlast 2 ⟨by decide, by decide, "s", by decide, by decide⟩)
  decide

end TransportSessionRuntime

end Imcodes.Transport
