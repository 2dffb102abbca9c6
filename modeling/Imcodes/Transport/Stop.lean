import Imcodes.Transport.Settlement

/-!
# Whom the provider's `cancel` hits

A provider cancels whatever it is at.  The runtime calls its `cancel` for a
STOP, for a settlement from outside, and when a message is accepted whose
dispatch has been stopped meanwhile.

* `Desk.Tidy` — the invariant of the desk: what the provider is at has been
  stopped, or is what runs.
* `cancels_stopped_iff` — every `cancel` finds the provider at a dispatch that
  has been stopped, exactly when no message is accepted so late that another
  dispatch has been handed over.
-/

namespace Imcodes.Transport

open Imcodes.Queue Machine

attribute [local irreducible] Queue.edit Queue.drop Queue.enqueue finalizeSentBatch

namespace Desk

/-! ## What is asked of a desk -/

/-- Something has happened between the runtime and its provider. -/
def noted (mark : ProviderMark) (k : Desk) : Desk := { k with trace := k.trace ++ [mark] }

/-- The body of a dispatch ends. -/
def withoutTask (d : Nat) (k : Desk) : Desk :=
  { k with tasks := k.tasks.filter (·.dispatchId ≠ d) }

/-- The body of a dispatch goes on. -/
def inPhase (d : Nat) (phase : DispatchPhase) (k : Desk) : Desk :=
  { k with tasks := k.tasks.map fun t => if t.dispatchId = d then { t with phase } else t }

/-- STOP is forgotten for a dispatch. -/
def forgotten (d : Nat) (k : Desk) : Desk :=
  { k with locallyCancelled := k.locallyCancelled.filter (· ≠ d) }

/-- The dispatch that runs is let go, and remembered; the provider may be told. -/
def stopped (tells : Bool) (k : Desk) : Desk :=
  { k.released with
    locallyCancelled := k.dispatchId.elim k.locallyCancelled fun d =>
      if d ∈ k.locallyCancelled then k.locallyCancelled else k.locallyCancelled ++ [d]
    trace := k.trace ++ (k.dispatchId.elim [] fun d => [.stopped d]) ++
      if tells then [.cancelled] else [] }

/-! ## The invariant -/

/-- Nothing is left over, and what the provider is at has been stopped, or is
what runs. -/
structure Tidy (k : Desk) : Prop where
  running : ∀ d ∈ k.dispatchId, k.running = true
  cancelled : k.cancelled = false
  fallback : k.fallback = none
  dispatch_le : ∀ d ∈ k.dispatchId, d ≤ k.nextDispatchId
  handed_le : ∀ d ∈ handedIds k.trace, d ≤ k.nextDispatchId
  stopped_le : ∀ d ∈ stoppedIds k.trace, d ≤ k.nextDispatchId
  not_stopped : ∀ d ∈ k.dispatchId, d ∉ stoppedIds k.trace
  remembered : ∀ d ∈ k.locallyCancelled, d ∈ stoppedIds k.trace
  handed : ∀ d ∈ openIds k.trace, d ∈ stoppedIds k.trace ∨ k.dispatchId = some d
  latest : ∀ d ∈ k.dispatchId, d ∈ openIds k.trace → (openIds k.trace).getLast? = some d
  task_le : ∀ t ∈ k.tasks, t.dispatchId ≤ k.nextDispatchId
  task_nodup : (k.tasks.map (·.dispatchId)).Nodup
  unsent : ∀ t ∈ k.tasks, t.phase ≠ .sending → k.dispatchId = some t.dispatchId ∨
    t.dispatchId ∈ k.locallyCancelled ∨ t.dispatchId ∈ endedIds k.trace

variable {k k' : Desk}

theorem Tidy.none_of_free (h : k.Tidy) (hfree : k.running = false) : k.dispatchId = none := by
  cases hd : k.dispatchId with
  | none => rfl
  | some d => exact absurd (h.running d hd) (by simp [hfree])

/-- Without a dispatch that runs, most of it is said of the rest. -/
theorem Tidy.of_none (h : k.Tidy) (hnone : k'.dispatchId = none) (hcancelled : k'.cancelled = false)
    (hfallback : k'.fallback = none) (hnext : k'.nextDispatchId = k.nextDispatchId)
    (htrace : k'.trace = k.trace) (htasks : k'.tasks = k.tasks)
    (hids : k'.locallyCancelled = k.locallyCancelled)
    (hended : ∀ d ∈ k.dispatchId, d ∈ endedIds k.trace) : k'.Tidy where
  running d hd := by simp [hnone] at hd
  cancelled := hcancelled
  fallback := hfallback
  dispatch_le d hd := by simp [hnone] at hd
  handed_le := by
    rw [htrace, hnext]
    exact h.handed_le
  stopped_le := by
    rw [htrace, hnext]
    exact h.stopped_le
  not_stopped d hd := by simp [hnone] at hd
  remembered := by
    rw [htrace, hids]
    exact h.remembered
  handed := by
    rw [htrace]
    intro d hd
    refine Or.inl ((h.handed d hd).resolve_right fun hactive => ?_)
    exact (mem_openIds.1 hd).2 (hended d hactive)
  latest d hd := by simp [hnone] at hd
  task_le := by
    rw [htasks, hnext]
    exact h.task_le
  task_nodup := by
    rw [htasks]
    exact h.task_nodup
  unsent := by
    rw [htasks, htrace, hids]
    intro t ht hphase
    refine Or.inr ?_
    rcases h.unsent t ht hphase with hactive | hrest
    · exact Or.inr (hended _ hactive)
    · exact hrest

theorem Tidy.begun (h : k.Tidy) (hfree : k.Free) (message : String)
    (attachments : Option (List TransportAttachment)) : (k.begun message attachments).Tidy := by
  have hnone := h.none_of_free hfree.1
  have hlt : ∀ {d : Nat}, d ≤ k.nextDispatchId → d ≠ k.nextDispatchId + 1 := by
    rintro d hd rfl
    exact Nat.not_succ_le_self _ hd
  constructor
  · exact fun _ _ => rfl
  · rfl
  · exact h.fallback
  · rintro d ⟨⟩
    exact Nat.le_refl _
  · exact fun d hd => Nat.le_succ_of_le (h.handed_le d hd)
  · exact fun d hd => Nat.le_succ_of_le (h.stopped_le d hd)
  · rintro d ⟨⟩ hd
    exact hlt (h.stopped_le _ hd) rfl
  · exact h.remembered
  · intro d hd
    refine Or.inl ((h.handed d hd).resolve_right fun hactive => ?_)
    exact nomatch hnone.symm.trans hactive
  · rintro d ⟨⟩ hd
    exact absurd rfl (hlt (h.handed_le _ (mem_openIds.1 hd).1))
  · intro t ht
    rcases List.mem_append.1 ht with ht | ht
    · exact Nat.le_succ_of_le (h.task_le t ht)
    · rw [List.mem_singleton.1 ht]
      exact Nat.le_refl _
  · rw [Desk.begun, List.map_append]
    refine List.nodup_append.2 ⟨h.task_nodup, List.nodup_singleton _, ?_⟩
    rintro d hd d' hd' rfl
    obtain ⟨t, ht, rfl⟩ := List.mem_map.1 hd
    exact hlt (h.task_le t ht) (List.mem_singleton.1 hd')
  · intro t ht hphase
    rcases List.mem_append.1 ht with ht | ht
    · refine Or.inr ((h.unsent t ht hphase).resolve_left fun hactive => ?_)
      exact nomatch hnone.symm.trans hactive
    · rw [List.mem_singleton.1 ht]
      exact Or.inl rfl

theorem Tidy.move (h : k.Tidy) (hmove : Move k k') : k'.Tidy := by
  cases hmove with
  | begin message attachments hfree => exact h.begun hfree message attachments
  | release hended =>
    refine h.of_none rfl rfl rfl rfl rfl rfl rfl fun d hd => ?_
    exact hended (h.running d hd) d hd
  | dropStale hfree =>
    refine h.of_none rfl rfl h.fallback rfl rfl rfl rfl fun d hd => ?_
    exact nomatch (h.none_of_free hfree.1).symm.trans hd

theorem Tidy.moves (h : k.Tidy) (hmoves : Moves k k') : k'.Tidy :=
  reflTransGen_invariant Tidy (fun _ _ hm h => h.move hm) hmoves h

/-! ### What keeps it -/

theorem openIds_ended (t : List ProviderMark) (d : Nat) :
    openIds (t ++ [.ended d]) = (openIds t).filter (· ≠ d) := by
  simp [openIds, ProviderMark.handedIds, ProviderMark.endedIds, List.filter_filter, not_or,
    and_comm]

theorem openIds_handed (t : List ProviderMark) (d : Nat) :
    openIds (t ++ [.handed d]) = openIds t ++ if d ∈ endedIds t then [] else [d] := by
  by_cases hd : d ∈ endedIds t <;>
    simp [openIds, ProviderMark.handedIds, ProviderMark.endedIds, hd]

theorem Tidy.ended (h : k.Tidy) (d : Nat) : (k.noted (.ended d)).Tidy := by
  have hopen : openIds (k.noted (.ended d)).trace = (openIds k.trace).filter (· ≠ d) :=
    openIds_ended k.trace d
  have hhanded : handedIds (k.noted (.ended d)).trace = handedIds k.trace := by
    simp [noted, ProviderMark.handedIds]
  have hstopped : stoppedIds (k.noted (.ended d)).trace = stoppedIds k.trace := by
    simp [noted, ProviderMark.stoppedIds]
  constructor
  · exact h.running
  · exact h.cancelled
  · exact h.fallback
  · exact h.dispatch_le
  · rw [hhanded]
    exact h.handed_le
  · rw [hstopped]
    exact h.stopped_le
  · rw [hstopped]
    exact h.not_stopped
  · rw [hstopped]
    exact h.remembered
  · rw [hopen, hstopped]
    exact fun a ha => h.handed a (List.mem_of_mem_filter ha)
  · rw [hopen]
    intro a ha hmem
    obtain ⟨hmem, hne⟩ := List.mem_filter.1 hmem
    obtain ⟨before, hbefore⟩ := List.getLast?_eq_some_iff.1 (h.latest a ha hmem)
    have hkept : [a].filter (· ≠ d) = [a] := List.filter_eq_self.2 (by simpa using hne)
    rw [hbefore, List.filter_append, hkept]
    exact List.getLast?_concat
  · exact h.task_le
  · exact h.task_nodup
  · intro t ht hphase
    refine (h.unsent t ht hphase).imp_right (Or.imp_right fun hended => ?_)
    simp [noted, hended]

/-- The record of a `cancel` changes nothing else. -/
theorem Tidy.cancel (h : k.Tidy) : (k.noted .cancelled).Tidy := by
  have hhanded : handedIds (k.noted .cancelled).trace = handedIds k.trace := by
    simp [noted, ProviderMark.handedIds]
  have hended : endedIds (k.noted .cancelled).trace = endedIds k.trace := by
    simp [noted, ProviderMark.endedIds]
  have hstopped : stoppedIds (k.noted .cancelled).trace = stoppedIds k.trace := by
    simp [noted, ProviderMark.stoppedIds]
  have hopen : openIds (k.noted .cancelled).trace = openIds k.trace := by
    rw [openIds, hhanded, hended, openIds]
  constructor
  · exact h.running
  · exact h.cancelled
  · exact h.fallback
  · exact h.dispatch_le
  · rw [hhanded]
    exact h.handed_le
  · rw [hstopped]
    exact h.stopped_le
  · rw [hstopped]
    exact h.not_stopped
  · rw [hstopped]
    exact h.remembered
  · rw [hopen, hstopped]
    exact h.handed
  · rw [hopen]
    exact h.latest
  · exact h.task_le
  · exact h.task_nodup
  · rw [hended]
    exact h.unsent

theorem Tidy.withoutTask (h : k.Tidy) (d : Nat) : (k.withoutTask d).Tidy :=
  { h with
    task_le := fun t ht => h.task_le t (List.mem_of_mem_filter ht)
    task_nodup := h.task_nodup.sublist (List.filter_sublist.map _)
    unsent := fun t ht => h.unsent t (List.mem_of_mem_filter ht) }

theorem Tidy.forgotten (h : k.Tidy) (d : Nat) (htask : ∀ t ∈ k.tasks, t.dispatchId ≠ d) :
    (k.forgotten d).Tidy :=
  { h with
    remembered := fun a ha => h.remembered a (List.mem_of_mem_filter ha)
    unsent := fun t ht hphase => (h.unsent t ht hphase).imp_right <| Or.imp_left fun hmem =>
      List.mem_filter.2 ⟨hmem, by simpa using htask t ht⟩ }

/-- The task of a dispatch is the only one. -/
theorem Tidy.task_unique (h : k.Tidy) {t t' : DispatchTask} (ht : t ∈ k.tasks) (ht' : t' ∈ k.tasks)
    (heq : t.dispatchId = t'.dispatchId) : t = t' :=
  List.inj_on_of_nodup_map h.task_nodup ht ht' heq

theorem Tidy.inPhase (h : k.Tidy) {d : Nat} {phase : DispatchPhase} {t : DispatchTask}
    (ht : t ∈ k.tasks) (hd : t.dispatchId = d) (hphase : t.phase ≠ .sending) :
    (k.inPhase d phase).Tidy := by
  have hids : (k.inPhase d phase).tasks.map (·.dispatchId) = k.tasks.map (·.dispatchId) := by
    rw [Desk.inPhase, List.map_map]
    refine List.map_congr_left fun t' _ => ?_
    dsimp only [Function.comp]
    split <;> rfl
  refine { h with task_le := fun t' ht' => ?_, task_nodup := ?_, unsent := fun t' ht' hne => ?_ }
  · have hmem : t'.dispatchId ∈ k.tasks.map (·.dispatchId) := hids ▸ List.mem_map_of_mem ht'
    obtain ⟨t'', ht'', heq⟩ := List.mem_map.1 hmem
    exact heq ▸ h.task_le t'' ht''
  · rw [hids]
    exact h.task_nodup
  · obtain ⟨t'', ht'', rfl⟩ := List.mem_map.1 ht'
    split at hne
    · rename_i heq
      rw [if_pos heq]
      rw [← hd] at heq
      exact h.unsent t'' ht'' (h.task_unique ht'' ht heq ▸ hphase)
    · rename_i hneq
      rw [if_neg hneq]
      exact h.unsent t'' ht'' hne

/-- The dispatch that runs is handed over, or one that has ended. -/
theorem Tidy.handing (h : k.Tidy) {d : Nat} (hle : d ≤ k.nextDispatchId)
    (hactive : k.dispatchId = some d ∨ d ∈ endedIds k.trace) : (k.noted (.handed d)).Tidy := by
  have hopen : openIds (k.noted (.handed d)).trace =
      openIds k.trace ++ if d ∈ endedIds k.trace then [] else [d] := openIds_handed k.trace d
  have hended : endedIds (k.noted (.handed d)).trace = endedIds k.trace := by
    simp [noted, ProviderMark.endedIds]
  have hstopped : stoppedIds (k.noted (.handed d)).trace = stoppedIds k.trace := by
    simp [noted, ProviderMark.stoppedIds]
  constructor
  · exact h.running
  · exact h.cancelled
  · exact h.fallback
  · exact h.dispatch_le
  · intro a ha
    have ha' : a ∈ handedIds k.trace ∨ a = d := by
      simpa [noted, ProviderMark.handedIds] using ha
    rcases ha' with ha' | rfl
    · exact h.handed_le a ha'
    · exact hle
  · rw [hstopped]
    exact h.stopped_le
  · rw [hstopped]
    exact h.not_stopped
  · rw [hstopped]
    exact h.remembered
  · rw [hopen, hstopped]
    intro a ha
    rcases List.mem_append.1 ha with ha | ha
    · exact h.handed a ha
    · split at ha
      · cases ha
      · rename_i hnot
        rw [List.mem_singleton.1 ha]
        exact Or.inr (hactive.resolve_right hnot)
  · rw [hopen]
    intro a ha hmem
    by_cases hd : d ∈ endedIds k.trace
    · rw [if_pos hd, List.append_nil] at hmem ⊢
      exact h.latest a ha hmem
    · rw [if_neg hd, List.getLast?_concat]
      exact (hactive.resolve_right hd).symm.trans ha
  · exact h.task_le
  · exact h.task_nodup
  · rw [hended]
    exact h.unsent

/-- STOP leaves nothing that it does not remember. -/
theorem Tidy.stopped (h : k.Tidy) (tells : Bool) : (k.stopped tells).Tidy := by
  have hhanded : handedIds (k.stopped tells).trace = handedIds k.trace := by
    cases hd : k.dispatchId <;> cases tells <;> simp [Desk.stopped, hd, ProviderMark.handedIds]
  have hended : endedIds (k.stopped tells).trace = endedIds k.trace := by
    cases hd : k.dispatchId <;> cases tells <;> simp [Desk.stopped, hd, ProviderMark.endedIds]
  have hopen : openIds (k.stopped tells).trace = openIds k.trace := by
    rw [openIds, hhanded, hended, openIds]
  have hstopped : ∀ d, d ∈ stoppedIds (k.stopped tells).trace ↔
      d ∈ stoppedIds k.trace ∨ k.dispatchId = some d := by
    intro d
    cases hd : k.dispatchId <;> cases tells <;>
      simp [Desk.stopped, hd, ProviderMark.stoppedIds, eq_comm]
  have hremembered : ∀ d, d ∈ (k.stopped tells).locallyCancelled ↔
      d ∈ k.locallyCancelled ∨ k.dispatchId = some d := by
    intro d
    cases hd : k.dispatchId with
    | none => simp [Desk.stopped, hd]
    | some a =>
      simp only [Desk.stopped, hd, Option.elim_some, Option.some.injEq]
      split
      · rename_i hmem
        exact ⟨Or.inl, fun hor => hor.elim id fun heq => heq ▸ hmem⟩
      · simp [eq_comm]
  constructor
  · intro d hd
    cases hd
  · rfl
  · rfl
  · intro d hd
    cases hd
  · rw [hhanded]
    exact h.handed_le
  · intro d hd
    exact ((hstopped d).1 hd).elim (h.stopped_le d) (h.dispatch_le d)
  · intro d hd
    cases hd
  · intro d hd
    exact (hstopped d).2 (((hremembered d).1 hd).imp_left (h.remembered d))
  · rw [hopen]
    exact fun d hd => Or.inl ((hstopped d).2 (h.handed d hd))
  · intro d hd
    cases hd
  · exact h.task_le
  · exact h.task_nodup
  · rw [hended]
    intro t ht hphase
    refine Or.inr ?_
    rcases h.unsent t ht hphase with hactive | hmem | hended
    · exact Or.inl ((hremembered _).2 (Or.inr hactive))
    · exact Or.inl ((hremembered _).2 (Or.inl hmem))
    · exact Or.inr hended

/-! ## Whom `cancel` hits -/

/-- When the provider is told to cancel, what it got last and is still at has been
stopped. -/
def CancelsStopped (before : List ProviderMark) (mark : ProviderMark) : Prop :=
  mark = .cancelled → ∀ d, (openIds before).getLast? = some d → d ∈ stoppedIds before

theorem traced_noted {mark : ProviderMark} (hmark : mark ≠ .cancelled) :
    Traced CancelsStopped (k.noted mark).trace ↔ Traced CancelsStopped k.trace :=
  traced_concat.trans (and_iff_left fun h => absurd h hmark)

/-- STOP and settlements from outside hit what they have stopped. -/
theorem Tidy.traced_stopped (h : k.Tidy) (tells : Bool) :
    Traced CancelsStopped (k.stopped tells).trace ↔ Traced CancelsStopped k.trace := by
  have hfalse : Traced CancelsStopped (k.stopped false).trace ↔ Traced CancelsStopped k.trace := by
    cases hd : k.dispatchId with
    | none => simp [Desk.stopped, hd]
    | some d =>
      have htrace : (k.stopped false).trace = (k.noted (.stopped d)).trace := by
        simp [Desk.stopped, noted, hd]
      rw [htrace]
      exact traced_noted nofun
  cases tells with
  | false => exact hfalse
  | true =>
    have htrace : (k.stopped true).trace = (k.stopped false).trace ++ [.cancelled] := by
      simp [Desk.stopped]
    rw [htrace, traced_concat, hfalse]
    refine and_iff_left fun _ d hd => ?_
    have hstop := h.stopped false
    exact (hstop.handed d (List.mem_of_getLast? hd)).resolve_right nofun

/-- A late `cancel` hits what has been stopped, unless the provider is at what
runs. -/
theorem Tidy.cancelsStopped_iff (h : k.Tidy) :
    CancelsStopped k.trace .cancelled ↔ ∀ d ∈ k.dispatchId, d ∉ openIds k.trace := by
  constructor
  · intro hcancel d hd hopen
    exact h.not_stopped d hd (hcancel rfl d (h.latest d hd hopen))
  · intro hnone _ d hd
    have hopen := List.mem_of_getLast? hd
    exact (h.handed d hopen).resolve_right fun hactive => hnone d hactive hopen

/-! ## One step -/

/-- The desk stays tidy, and nothing else has been cancelled. -/
def Kept (k k' : Desk) : Prop :=
  k'.Tidy ∧ (Traced CancelsStopped k'.trace ↔ Traced CancelsStopped k.trace)

theorem Kept.trans {k'' : Desk} (h : Kept k k') (h' : Kept k' k'') : Kept k k'' :=
  ⟨h'.1, h'.2.trans h.2⟩

theorem trace_of_moves (hmoves : Moves k k') : k'.trace = k.trace := by
  refine reflTransGen_invariant (fun x : Desk => x.trace = k.trace) (fun x y hmove hx => ?_)
    hmoves rfl
  cases hmove <;> exact hx

theorem Tidy.kept_moves (h : k.Tidy) (hmoves : Moves k k') : Kept k k' :=
  ⟨h.moves hmoves, by rw [trace_of_moves hmoves]⟩

theorem Tidy.kept_stopped (h : k.Tidy) (tells : Bool) : Kept k (k.stopped tells) :=
  ⟨h.stopped tells, h.traced_stopped tells⟩

theorem Tidy.kept_handing (h : k.Tidy) {d : Nat} (hle : d ≤ k.nextDispatchId)
    (hactive : k.dispatchId = some d ∨ d ∈ endedIds k.trace) : Kept k (k.noted (.handed d)) :=
  ⟨h.handing hle hactive, traced_noted nofun⟩

theorem Tidy.kept_ended (h : k.Tidy) (d : Nat) : Kept k (k.noted (.ended d)) :=
  ⟨h.ended d, traced_noted nofun⟩

end Desk

namespace TransportSessionRuntime

variable {localeCompare : Collation} {env : StepEnv} {rt rt' : TransportSessionRuntime}

/-! ## STOP and settlement -/

/-- The dispatch that runs is let go, whatever the provider is told. -/
theorem deskMoves_cancelActiveDispatchLocally (hrunning : ∀ d ∈ rt.activeDispatchId, rt.activeTurn)
    (view : ActiveWorkRead) :
    Desk.Moves rt.desk.released
      (cancelActiveDispatchLocally localeCompare env view rt.activeDispatchId rt).desk := by
  have hmarked : rt.markCurrentActivityGenerationLocallyCancelled.desk = rt.desk :=
    desk_markCurrentActivityGenerationLocallyCancelled
  have hsettle : ∀ dispatchId : Option Nat, (dispatchId.isSome → rt.activeTurn = true) →
      Desk.Moves rt.desk.released
        (cancelActiveDispatchLocally.settle localeCompare env view dispatchId rt).desk := by
    intro dispatchId hturn
    unfold cancelActiveDispatchLocally.settle
    extract_lets rtMarked rtClosed
    have hdesk : rtMarked.desk = rt.desk := hmarked
    clear_value rtMarked
    split
    · rename_i hfree
      rw [Bool.and_eq_true, Bool.not_eq_true', Bool.not_eq_true'] at hfree
      have hnone : dispatchId = none := by
        by_contra hsome
        have hrun := hturn (Option.isSome_iff_ne_none.2 hsome)
        exact Bool.false_ne_true (hfree.1.symm.trans ((congrArg Desk.running hdesk).trans hrun))
      subst hnone
      have hreleased : rtMarked.closeOpenTools.dropActiveEntries.releaseDispatch.desk =
          rt.desk.released := by
        rw [← hdesk]
        refine Desk.ext rfl rfl ?_ ?_ rfl rfl rfl rfl rfl
        · exact hfree.1
        · exact hfree.2
      exact (deskMoves_drainOrSetStatus view .idle).desks hreleased
    · have hreleased :
          rtMarked.endTurn.dropActiveEntries.releaseDispatch.closeOpenTools.desk =
            rt.desk.released := by
        rw [← hdesk]
        rfl
      exact (deskMoves_drainOrSetStatus view .idle).desks hreleased
  unfold cancelActiveDispatchLocally
  cases hd : rt.activeDispatchId with
  | none => exact hsettle none nofun
  | some id =>
    dsimp only
    rw [if_neg (by simp)]
    exact hsettle (some id) fun _ => hrunning id hd

theorem deskMoves_cancelTurn (hrunning : ∀ d ∈ rt.activeDispatchId, rt.activeTurn) :
    (rt.hasInFlightDispatchWork = false ∧ DeskMovesTo rt (cancelTurn localeCompare env rt)) ∨
      ∃ tells, Desk.Moves (rt.desk.stopped tells) (cancelTurn localeCompare env rt).desk := by
  unfold cancelTurn
  extract_lets dispatchId rtMarked rtNoted rtCounted
  have hmarked : rtMarked.desk.released = rt.desk.stopped false ∧
      rtMarked.activeDispatchId = dispatchId ∧
      (rtMarked.activeTurn = rt.activeTurn ∧ rtMarked.sending = rt.sending ∧
        rtMarked.activeDispatchEntries = rt.activeDispatchEntries) ∧
      (dispatchId = none → rtMarked = rt) := by
    unfold rtMarked dispatchId
    cases hd : rt.activeDispatchId with
    | none => simp [Desk.stopped, Desk.released, desk, hd]
    | some d => simp [Desk.stopped, Desk.released, desk, hd, addLocallyCancelled, note]
  obtain ⟨hreleased, hactive, ⟨hturn, hsending, hentries⟩, hsame⟩ := hmarked
  clear_value rtMarked
  have hrunning' : ∀ d ∈ rtMarked.activeDispatchId, rtMarked.activeTurn = true := by
    rw [hactive, hturn]
    exact hrunning
  split
  · rename_i hidle
    simp only [Bool.and_eq_true, Bool.not_eq_true', decide_eq_true_eq] at hidle
    obtain ⟨⟨⟨hturn', hsending'⟩, hentries'⟩, -⟩ := hidle
    have hnone : dispatchId = none := by
      by_contra hsome
      obtain ⟨d, hd⟩ := Option.ne_none_iff_exists'.1 hsome
      exact Bool.false_ne_true ((hturn'.symm.trans hturn).trans (hrunning d hd))
    refine Or.inl ⟨?_, ?_⟩
    · simp [hasInFlightDispatchWork, ← hturn, ← hsending, ← hentries, hturn', hsending', hentries']
    · rw [hsame hnone]
      exact deskMoves_drainOrSetStatus env.view .idle
  split
  · refine Or.inr ⟨false, ?_⟩
    rw [← hreleased, ← hactive]
    exact deskMoves_cancelActiveDispatchLocally hrunning' env.view
  · refine Or.inr ⟨true, ?_⟩
    have hcounted : rtCounted.desk.released = rt.desk.stopped true := by
      have htells : rt.desk.stopped true = (rt.desk.stopped false).noted .cancelled := by
        simp [Desk.stopped, Desk.noted]
      rw [htells, ← hreleased]
      rfl
    have hactive' : rtCounted.activeDispatchId = dispatchId := hactive
    have hcounted' : ∀ d ∈ rtCounted.activeDispatchId, rtCounted.activeTurn = true := hrunning'
    rw [← hcounted, ← hactive']
    exact deskMoves_cancelActiveDispatchLocally hcounted' env.viewAfterCancel

theorem deskMoves_cancelRetry : DeskMovesTo rt (cancelRetry localeCompare env rt) := by
  unfold cancelRetry
  extract_lets retriedEntryCount rtCleared rtDisarmed rtDiscarded
  refine .trans (.of_eq ?_) (deskMoves_drainOrSetStatus env.view .idle)
  rw [desk_closeOpenTools, desk_markCurrentActivityGenerationLocallyCancelled]
  unfold rtDiscarded
  split <;> rfl

theorem deskMoves_cancelBound (hrunning : ∀ d ∈ rt.activeDispatchId, rt.activeTurn)
    (hretry : rt.recoverableRetryTimer = true → rt.activeDispatchEntries = []) :
    (rt.hasInFlightDispatchWork = false ∧ DeskMovesTo rt (cancelBound localeCompare env rt)) ∨
      ∃ tells, Desk.Moves (rt.desk.stopped tells) (cancelBound localeCompare env rt).desk := by
  unfold cancelBound
  split
  · rename_i h
    simp only [Bool.and_eq_true, Bool.not_eq_true'] at h
    refine Or.inl ⟨?_, deskMoves_cancelRetry⟩
    simp [hasInFlightDispatchWork, h.1.2, h.2, hretry h.1.1]
  · exact deskMoves_cancelTurn hrunning

theorem deskMoves_settleActiveDispatchFromExternalCompletion :
    DeskMovesTo rt (settleActiveDispatchFromExternalCompletion localeCompare env rt).2 ∨
      ∃ tells, Desk.Moves (rt.desk.stopped tells)
        (settleActiveDispatchFromExternalCompletion localeCompare env rt).2.desk := by
  unfold settleActiveDispatchFromExternalCompletion
  split
  · exact Or.inl .refl
  extract_lets cancels rtMarked rtCancelled rtCounted rtFree rtNoted
  refine Or.inr ⟨cancels, ?_⟩
  have hmarked : rtMarked.desk.released = rt.desk.stopped false := by
    unfold rtMarked
    cases hd : rt.activeDispatchId with
    | none => simp [Desk.stopped, Desk.released, desk, hd]
    | some d => simp [Desk.stopped, Desk.released, desk, hd, addLocallyCancelled, note]
  have hcancelled : rtCancelled.desk = rtMarked.desk :=
    desk_markCurrentActivityGenerationLocallyCancelled
  clear_value cancels rtCancelled
  have hfree : rtFree.desk = rt.desk.stopped false := by
    rw [← hmarked, ← hcancelled]
    rfl
  have hnoted : rtNoted.desk = rt.desk.stopped cancels := by
    unfold rtNoted
    cases cancels with
    | false => exact hfree
    | true =>
      have htells : rt.desk.stopped true = (rt.desk.stopped false).noted .cancelled := by
        simp [Desk.stopped, Desk.noted]
      rw [htells, ← hfree]
      rfl
  exact (deskMoves_drainOrSetStatus _ .idle).desks hnoted

theorem deskMoves_cancelStaleActiveTurnWithPending (nowMs : Option Int) (staleMs : Int)
    (hrunning : ∀ d ∈ rt.activeDispatchId, rt.activeTurn)
    (hretry : rt.recoverableRetryTimer = true → rt.activeDispatchEntries = []) :
    DeskMovesTo rt (cancelStaleActiveTurnWithPending localeCompare env nowMs staleMs rt).2 ∨
      ∃ tells, Desk.Moves (rt.desk.stopped tells)
        (cancelStaleActiveTurnWithPending localeCompare env nowMs staleMs rt).2.desk := by
  unfold cancelStaleActiveTurnWithPending
  iterate 3
    split
    · exact Or.inl .refl
  split
  · exact Or.inl .refl
  rename_i hwork
  extract_lets providerOutputAt
  split
  · exact Or.inl .refl
  dsimp only
  generalize hrt' : ({ rt with
    activeDispatchStaleRecoveryStarted := true
    stalePendingCancelFallbackTimer := some rt.activeDispatchId } : TransportSessionRuntime) = rt'
  have hwork' : rt'.hasInFlightDispatchWork = true := by
    rw [← hrt']
    exact (by simpa using hwork : rt.hasInFlightDispatchWork = true)
  have hstopped : ∀ tells, rt'.desk.stopped tells = rt.desk.stopped tells := by
    intro tells
    rw [← hrt']
    rfl
  have hbound : (rt'.hasInFlightDispatchWork = false ∧
      DeskMovesTo rt' (cancelBound localeCompare env rt')) ∨
      ∃ tells, Desk.Moves (rt'.desk.stopped tells) (cancelBound localeCompare env rt').desk := by
    refine deskMoves_cancelBound ?_ ?_ <;> rw [← hrt']
    · exact hrunning
    · exact hretry
  rcases hbound with ⟨hidle, -⟩ | ⟨tells, hmoves⟩
  · exact absurd hwork' (by simp [hidle])
  · exact Or.inr ⟨tells, hstopped tells ▸ hmoves⟩

theorem deskMoves_recoverSilentActiveTurn (nowMs : Option Int) (staleMs : Int) :
    DeskMovesTo rt (recoverSilentActiveTurn localeCompare env nowMs staleMs rt).2 ∨
      ∃ tells, Desk.Moves (rt.desk.stopped tells)
        (recoverSilentActiveTurn localeCompare env nowMs staleMs rt).2.desk := by
  unfold recoverSilentActiveTurn
  iterate 2
    split
    · exact Or.inl .refl
  extract_lets staleMs'
  split
  · exact Or.inl .refl
  · exact deskMoves_settleActiveDispatchFromExternalCompletion

/-! ## Callbacks -/

/-- What runs has ended, if a callback may let it go. -/
def EndedIf (taken : Prop) (rt : TransportSessionRuntime) : Prop :=
  taken → ∀ d ∈ rt.activeDispatchId, d ∈ endedIds rt.providerTrace

theorem deskMoves_released (hended : ∀ d ∈ rt.activeDispatchId, d ∈ endedIds rt.providerTrace)
    (hdesk : rt'.desk = rt.desk.released) : DeskMovesTo rt rt' := by
  refine Relation.ReflTransGen.single ?_
  rw [hdesk]
  exact .release fun _ => hended

/-- A runtime without a turn lets go of what is left. -/
theorem deskMoves_releaseDispatch (hfree : rt.desk.Free) : DeskMovesTo rt rt.releaseDispatch := by
  have hdesk : rt.releaseDispatch.desk = rt.desk.released :=
    Desk.ext rfl rfl hfree.1 hfree.2 rfl rfl rfl rfl rfl
  refine Relation.ReflTransGen.single ?_
  rw [hdesk]
  exact .release fun hrun => absurd hrun (by simp [hfree.1])

theorem deskMoves_onComplete (htidy : rt.desk.Tidy) (sid content : String)
    (hended : EndedIf (rt.listensTo sid = true ∧ rt.externalCompletionSettlementsToIgnore = 0) rt) :
    DeskMovesTo rt (onComplete localeCompare env sid content rt) := by
  unfold onComplete
  split
  · exact .refl
  rename_i hlisten
  rw [Bool.not_eq_true', Bool.not_eq_false] at hlisten
  extract_lets rtTouched rtSeen rtStopped rtDone
  have hdesk : rtSeen.desk = rt.desk := rfl
  split
  · exact .of_eq rfl
  rename_i htaken
  have hended' := hended ⟨hlisten, Nat.eq_zero_of_not_pos htaken⟩
  clear_value rtSeen
  have hcancelled : rtSeen.activeDispatchCancelled = false :=
    (congrArg Desk.cancelled hdesk).trans htidy.cancelled
  rw [if_neg (by simp [hcancelled])]
  refine .trans (deskMoves_released hended' ?_) (deskMoves_drainOrSetStatus env.view .idle)
  rw [← hdesk]
  rfl

theorem deskMoves_onLateCancellation :
    DeskMovesTo rt (onLateCancellation localeCompare env rt) := by
  unfold onLateCancellation
  extract_lets rtSeen
  have hdesk : rtSeen.desk = rt.desk := rfl
  split
  · rename_i hidle
    clear_value rtSeen
    have hfree : rtSeen.desk.Free := by
      simp only [hasLocalActiveTurnWork, Bool.not_eq_true', Bool.or_eq_false_iff] at hidle
      exact ⟨hidle.1.1.1.1.2, hidle.1.1.1.1.1⟩
    have hdrain : DeskMovesTo rt (drainPending localeCompare env env.view rtSeen.releaseDispatch).2 :=
      .trans (.trans (.of_eq hdesk) (deskMoves_releaseDispatch hfree))
        (deskMoves_drainPending env.view)
    split
    · rename_i heq
      rwa [heq] at hdrain
    · rename_i heq
      rw [heq] at hdrain
      split
      · exact hdrain.trans (deskMoves_setStatus env.view .idle)
      · exact hdrain
  · exact .of_eq hdesk

theorem deskMoves_handleSdkTurnLostRecovery {error : ProviderError}
    (hended : EndedIf (∀ metadata ∈ error.sdkTurnLost, metadata.localSessionKey = rt.sessionKey) rt)
    (h : handleSdkTurnLostRecovery localeCompare env error rt = some rt') : DeskMovesTo rt rt' := by
  obtain ⟨metadata, hmetadata, h⟩ := Option.map_eq_some_iff.1 h
  subst h
  split
  · exact .refl
  rename_i hown
  rw [not_not] at hown
  have hended' := hended fun metadata' hmetadata' =>
    Option.some.inj (hmetadata.symm.trans hmetadata') ▸ hown
  have hfail : DeskMovesTo rt rt.failSdkTurnLostRecovery := deskMoves_released hended' rfl
  iterate 5
    split
    · exact hfail
  split
  · exact hfail
  · rename_i rt' heq
    have hdesk := desk_consumeSdkTurnLostRecoveryBudget heq
    unfold replayLostTurn
    extract_lets replayEntries rtFree rtRequeued
    refine .trans (deskMoves_released hended' ?_) (deskMoves_drainOrSetStatus env.view .thinking)
    rw [← hdesk]
    rfl

/-- What runs is not among what STOP has settled. -/
theorem desk_deleteActive (htidy : rt.desk.Tidy) :
    rt.endTurn.closeOpenTools.deleteActiveLocallyCancelled.releaseDispatch.desk =
      rt.desk.released := by
  unfold deleteActiveLocallyCancelled
  cases hd : rt.endTurn.closeOpenTools.activeDispatchId with
  | none => rfl
  | some d =>
    refine Desk.ext rfl rfl rfl rfl rfl ?_ rfl rfl rfl
    refine List.filter_eq_self.2 fun a ha => ?_
    have hne : a ≠ d := by
      rintro rfl
      exact htidy.not_stopped a hd (htidy.remembered a ha)
    simpa using hne

theorem deskMoves_onError (htidy : rt.desk.Tidy) (sid : String) (error : ProviderError)
    (hended : EndedIf (rt.listensTo sid = true ∧ rt.externalCompletionSettlementsToIgnore = 0 ∧
      (error.isCancelled = true → rt.cancelledProviderErrorsToIgnore = 0) ∧
      ∀ metadata ∈ error.sdkTurnLost, metadata.localSessionKey = rt.sessionKey) rt) :
    DeskMovesTo rt (onError localeCompare env sid error rt) := by
  unfold onError
  split
  · exact .refl
  rename_i hlisten
  rw [Bool.not_eq_true', Bool.not_eq_false] at hlisten
  extract_lets rtSeen rtFree
  have hdesk : rtSeen.desk = rt.desk := rfl
  split
  · exact .of_eq rfl
  rename_i hext
  split
  · exact deskMoves_onLateCancellation.of_desk rfl
  rename_i hecho
  have hcancelled : error.isCancelled = true → rt.cancelledProviderErrorsToIgnore = 0 := fun hc =>
    Nat.eq_zero_of_not_pos fun hpos => hecho ⟨hc, hpos⟩
  have hended' : EndedIf
      (∀ metadata ∈ error.sdkTurnLost, metadata.localSessionKey = rtSeen.sessionKey) rtSeen :=
    fun hown => hended ⟨hlisten, Nat.eq_zero_of_not_pos hext, hcancelled, hown⟩
  clear_value rtSeen
  split
  · rename_i heq
    exact (deskMoves_handleSdkTurnLostRecovery hended' heq).of_desk hdesk.symm
  rename_i hnone
  split
  · rename_i hidle
    have hzero : rtSeen.blockingWorkCount env.view = 0 :=
      Nat.eq_zero_of_not_pos (by simpa [hasActiveTurnWork] using hidle.1)
    have hfree := free_of_blockingWorkCount hzero
    have hreleased : DeskMovesTo rt rtFree :=
      (deskMoves_releaseDispatch hfree).of_desk hdesk.symm
    split
    · exact hreleased.trans (deskMoves_setStatus env.view .idle)
    · exact hreleased
  · have hnolost : error.sdkTurnLost = none := Option.map_eq_none_iff.1 hnone
    have hgone := hended' (by simp [hnolost])
    have htidy' : rtSeen.desk.Tidy := hdesk ▸ htidy
    unfold onTurnError
    extract_lets rtEnded
    have hreleased : rtEnded.desk = rtSeen.desk.released := desk_deleteActive htidy'
    have hfree : DeskMovesTo rt rtEnded :=
      (deskMoves_released hgone hreleased).of_desk hdesk.symm
    split
    · exact hfree.trans ((deskMoves_drainOrSetStatus env.view .idle).of_desk rfl)
    · exact hfree.trans (.of_eq rfl)

theorem deskMoves_recordToolActivity (tool : ToolCallEvent) :
    DeskMovesTo rt (recordToolActivity localeCompare env tool rt) := by
  unfold recordToolActivity
  extract_lets rtClosed
  split
  · split
    · exact (deskMoves_drainPendingIfNoActiveTurn env.view).of_desk rfl
    · exact .of_eq rfl
  split
  · exact .of_eq rfl
  split
  · exact (deskMoves_drainPendingIfNoActiveTurn env.view).of_desk rfl
  split
  · exact (deskMoves_setStatus env.view .idle).of_desk rfl
  · exact .of_eq rfl

theorem deskMoves_onToolCall (sid : String) (tool : ToolCallEvent) :
    DeskMovesTo rt (onToolCall localeCompare env sid tool rt) := by
  unfold onToolCall
  split
  · exact .refl
  extract_lets rtRecorded rtSeen
  have hrecorded : DeskMovesTo rt rtRecorded :=
    (deskMoves_recordToolActivity tool).of_desk rfl
  have hseen : rtSeen.desk = rtRecorded.desk := by
    unfold rtSeen
    split <;> rfl
  split
  · exact hrecorded.trans (.of_eq hseen)
  · exact hrecorded.trans (.of_eq hseen)

/-! ## The rest of a dispatch -/

theorem deskMoves_giveUpOrRetry (error : ProviderError) :
    DeskMovesTo rt (giveUpOrRetry localeCompare env error rt) := by
  unfold giveUpOrRetry
  extract_lets isRecoverableBusy canRetryRecoverable rtDisarmed
  split
  · rename_i heq
    split at heq
    · unfold requeueAndScheduleRecoverableRetry at heq
      split at heq
      · cases heq
      split at heq
      · cases heq
      · cases heq
        exact .of_eq rfl
    · cases heq
  · split
    · exact .of_eq rfl
    · exact (deskMoves_drainOrSetStatus env.view _).of_desk rfl

/-- A rejected message ends its dispatch. -/
theorem kept_dispatchRejected (h : rt.desk.Tidy) (d : Nat) (error : ProviderError) :
    Desk.Kept rt.desk (dispatchRejected localeCompare env d error rt).desk := by
  unfold dispatchRejected
  extract_lets rtEnded rtFree
  have hended : d ∈ endedIds rtEnded.providerTrace := by
    simp [rtEnded, note, ProviderMark.endedIds]
  have htask : Desk.Kept rt.desk (rt.endTask d).desk := ⟨h.withoutTask d, Iff.rfl⟩
  have hkept : Desk.Kept rt.desk rtEnded.desk := htask.trans (htask.1.kept_ended d)
  have htasks : ∀ t ∈ rtEnded.desk.tasks, t.dispatchId ≠ d := fun t ht => by
    simpa using (List.mem_filter.1 ht).2
  clear_value rtEnded
  split
  · exact hkept.trans ⟨hkept.1.forgotten d htasks, Iff.rfl⟩
  rename_i hactive
  have hactive' : ∀ a ∈ rtEnded.activeDispatchId, a ∈ endedIds rtEnded.providerTrace := by
    simp only [ne_eq, not_or, not_not] at hactive
    intro a ha
    rw [hactive.1] at ha
    cases ha
    exact hended
  split
  · rename_i heq
    exact hkept.trans
      (hkept.1.kept_moves (deskMoves_handleSdkTurnLostRecovery (fun _ => hactive') heq))
  have hreleased : Desk.Kept rtEnded.desk rtEnded.desk.released :=
    hkept.1.kept_moves (Relation.ReflTransGen.single (.release fun _ => hactive'))
  have hfree : Desk.Kept rt.desk rtFree.desk :=
    hkept.trans (hreleased.trans ⟨hreleased.1.forgotten d htasks, Iff.rfl⟩)
  split
  · exact hfree.trans (hfree.1.kept_moves (deskMoves_giveUpOrRetry error))
  · exact hfree

/-- The promise that an event settles is one that a body waits for. -/
def Awaited (rt : TransportSessionRuntime) : Event → Prop
  | .contextReady d next => ∃ t ∈ rt.tasks, t.dispatchId = d ∧
      (t.phase = .bootstrap ∧ next = .recall ∨ t.phase = .recall ∧ next = .assembling)
  | .onBeforeProviderSend d => ∃ t ∈ rt.tasks, t.dispatchId = d ∧ t.phase = .assembling
  | .dispatchAccepted d => ∃ t ∈ rt.tasks, t.dispatchId = d ∧ t.phase = .sending
  | .dispatchRejected d _ => ∃ t ∈ rt.tasks, t.dispatchId = d
  | _ => True

instance (e : Event) : Decidable (rt.Awaited e) := by
  unfold Awaited
  split <;> infer_instance

theorem kept_contextReady (h : rt.desk.Tidy) (d : Nat) (next : DispatchPhase)
    (hawait : rt.Awaited (.contextReady d next)) :
    Desk.Kept rt.desk (contextReady localeCompare env d next rt).desk := by
  obtain ⟨t, ht, hd, hphase⟩ := hawait
  unfold contextReady
  split
  · rename_i hcancelled
    have hmem : d ∈ rt.locallyCancelledDispatchIds := of_decide_eq_true hcancelled
    have hactive : rt.activeDispatchId ≠ some d := fun hactive =>
      h.not_stopped d hactive (h.remembered d hmem)
    have hended : Desk.Kept rt.desk (rt.endTask d).desk := ⟨h.withoutTask d, Iff.rfl⟩
    unfold cancelActiveDispatchLocally
    dsimp only
    have hactive' : (rt.endTask d).activeDispatchId ≠ some d := hactive
    rw [if_pos hactive']
    refine hended.trans ⟨hended.1.forgotten d fun t ht => ?_, Iff.rfl⟩
    simpa using (List.mem_filter.1 ht).2
  · refine ⟨h.inPhase ht hd ?_, Iff.rfl⟩
    rcases hphase with ⟨hphase, -⟩ | ⟨hphase, -⟩ <;> rw [hphase] <;> exact nofun

theorem kept_onBeforeProviderSend (h : rt.desk.Tidy) (d : Nat)
    (hawait : rt.Awaited (.onBeforeProviderSend d)) :
    Desk.Kept rt.desk (rt.onBeforeProviderSend d).desk := by
  obtain ⟨t, ht, rfl, hphase⟩ := hawait
  have hsending : t.phase ≠ .sending := by
    rw [hphase]
    exact nofun
  unfold onBeforeProviderSend
  split
  · exact ⟨h, Iff.rfl⟩
  rename_i hnot
  have hmem : t.dispatchId ∉ rt.desk.locallyCancelled := fun hmem => hnot (decide_eq_true hmem)
  have hactive := (h.unsent t ht hsending).imp_right fun hrest => hrest.resolve_left hmem
  have hphased : (rt.desk.inPhase t.dispatchId .sending).Tidy := h.inPhase ht rfl hsending
  have hhanded : Desk.Kept rt.desk
      ((rt.setPhase t.dispatchId .sending).note (.handed t.dispatchId)).desk :=
    hphased.kept_handing (h.task_le t ht) hactive
  dsimp only
  split
  · exact hhanded
  · exact hhanded

/-- When the message of a dispatch is accepted that has been stopped, and the
provider can cancel, it is not at what runs. -/
def AcceptedInTime (rt : TransportSessionRuntime) (e : Event) : Prop :=
  ∀ d, e = .dispatchAccepted d → rt.isDispatchLocallyCancelled d = true →
    rt.provider.canCancel = true → ∀ a ∈ rt.activeDispatchId, a ∉ openIds rt.providerTrace

theorem tidy_dispatchAccepted (h : rt.desk.Tidy) (d : Nat) :
    (rt.dispatchAccepted d).desk.Tidy ∧
      (Traced Desk.CancelsStopped (rt.dispatchAccepted d).providerTrace ↔
        Traced Desk.CancelsStopped rt.providerTrace ∧ rt.AcceptedInTime (.dispatchAccepted d)) := by
  have hended : (rt.endTask d).desk.Tidy := h.withoutTask d
  unfold dispatchAccepted
  dsimp only
  split
  · rename_i hcancelled
    split
    · rename_i hcan
      refine ⟨hended.cancel, traced_concat.trans (and_congr_right fun _ => ?_)⟩
      refine hended.cancelsStopped_iff.trans ⟨fun hnone d' _ _ _ => hnone, fun hall => ?_⟩
      exact hall d rfl hcancelled hcan
    · rename_i hcan
      exact ⟨hended, (and_iff_left fun d' _ _ hcan' => absurd hcan' hcan).symm⟩
  · rename_i hcancelled
    refine ⟨hended, (and_iff_left ?_).symm⟩
    rintro d' ⟨⟩ hcancelled'
    exact absurd hcancelled' hcancelled

/-! ## Any step -/

/-- A callback that is taken up while a turn runs is for this turn. -/
def OwnTerminal (rt : TransportSessionRuntime) (e : Event) : Prop :=
  ∀ t ∈ e.terminal, rt.listensTo t.2 = true → rt.TakenUp e → ∀ a ∈ rt.activeDispatchId, a = t.1

instance (e : Event) : Decidable (rt.OwnTerminal e) := by
  unfold OwnTerminal
  infer_instance

/-- The runtime goes on. -/
def Lives : Event → Prop
  | .finishKill _ => False
  | _ => True

instance (e : Event) : Decidable (Lives e) := by
  unfold Lives
  split <;> infer_instance

theorem kept_send (h : rt.desk.Tidy) (input : SendInput) :
    Desk.Kept rt.desk (send localeCompare env input rt).2.desk := by
  unfold send
  split
  · exact ⟨h, Iff.rfl⟩
  split
  · exact ⟨h, Iff.rfl⟩
  · rename_i hidle
    have hfree : rt.desk.Free :=
      free_of_blockingWorkCount (Nat.eq_zero_of_not_pos fun hpos => hidle (decide_eq_true hpos))
    exact ⟨h.begun hfree _ _, Iff.rfl⟩

theorem kept_onComplete (h : rt.desk.Tidy) (d : Nat) (sid content : String)
    (hown : rt.OwnTerminal (.onComplete d sid content)) :
    Desk.Kept rt.desk (step localeCompare env rt (.onComplete d sid content)).desk := by
  have hended := h.kept_ended d
  have htidy : (rt.note (.ended d)).desk.Tidy := hended.1
  refine hended.trans (htidy.kept_moves (deskMoves_onComplete htidy sid content ?_))
  rintro ⟨hlisten, hext⟩ a ha
  have heq : a = d := hown (d, sid) rfl hlisten ⟨hext, nofun⟩ a ha
  simp [heq, note, ProviderMark.endedIds]

theorem kept_onError (h : rt.desk.Tidy) (d : Nat) (sid : String) (error : ProviderError)
    (hown : rt.OwnTerminal (.onError d sid error)) :
    Desk.Kept rt.desk (step localeCompare env rt (.onError d sid error)).desk := by
  have hended := h.kept_ended d
  have htidy : (rt.note (.ended d)).desk.Tidy := hended.1
  refine hended.trans (htidy.kept_moves (deskMoves_onError htidy sid error ?_))
  rintro ⟨hlisten, hext, hcancelled, hsession⟩ a ha
  have htaken : rt.TakenUp (.onError d sid error) := by
    refine ⟨hext, fun error' herror => ?_⟩
    cases herror
    exact ⟨hcancelled, hsession⟩
  have heq : a = d := hown (d, sid) rfl hlisten htaken a ha
  simp [heq, note, ProviderMark.endedIds]

theorem desk_readRecoverable : (readRecoverable localeCompare env rt).2.desk = rt.desk := by
  have hrow : ∀ (projection : QueueProjectionEntry) (rt : TransportSessionRuntime),
      (recoverRow localeCompare env projection rt).2.desk = rt.desk := by
    intro projection rt
    unfold recoverRow
    dsimp only
    split
    · rfl
    split
    · rfl
    split <;> rfl
  have hrows : ∀ (projections : List QueueProjectionEntry) (liveIds : List String)
      (rt : TransportSessionRuntime),
      (recoverRows localeCompare env projections liveIds rt).2.desk = rt.desk := by
    intro projections
    induction projections with
    | nil => exact fun _ _ => rfl
    | cons projection rest ih =>
      intro liveIds rt
      unfold recoverRows
      split
      · exact ih liveIds rt
      split
      · exact ih liveIds rt
      have hrow := hrow projection rt
      split
      · rename_i heq
        rw [heq] at hrow
        exact (ih liveIds _).trans hrow
      · rename_i entry rt' heq
        rw [heq] at hrow
        exact (ih (entry.clientMessageId :: liveIds) rt').trans hrow
  unfold readRecoverable
  split
  · rfl
  split
  · rfl
  · exact hrows _ _ _

theorem desk_rehydratePendingFromStore :
    (rehydratePendingFromStore localeCompare env rt).2.desk = rt.desk := by
  have hread : (readRecoverable localeCompare env rt).2.desk = rt.desk := desk_readRecoverable
  unfold rehydratePendingFromStore
  generalize readRecoverable localeCompare env rt = p at hread ⊢
  obtain ⟨recovered, rt'⟩ := p
  dsimp only at hread ⊢
  split
  · exact hread
  · exact hread

/-- Every step but an acceptance keeps the desk tidy, and cancels nothing else. -/
theorem kept_step (h : rt.desk.Tidy) (hn : rt.lane.WellNumbered) (e : Event)
    (hlives : Lives e) (hawaited : rt.Awaited e) (hown : rt.OwnTerminal e)
    (haccepted : ∀ d, e ≠ .dispatchAccepted d) :
    Desk.Kept rt.desk (step localeCompare env rt e).desk := by
  have hsame : ∀ {rt' : TransportSessionRuntime}, rt'.desk = rt.desk → Desk.Kept rt.desk rt'.desk :=
    fun heq => by
      rw [heq]
      exact ⟨h, Iff.rfl⟩
  have hstops : ∀ {rt' : TransportSessionRuntime},
      (DeskMovesTo rt rt' ∨ ∃ tells, Desk.Moves (rt.desk.stopped tells) rt'.desk) →
      Desk.Kept rt.desk rt'.desk := by
    rintro rt' (hmoves | ⟨tells, hmoves⟩)
    · exact h.kept_moves hmoves
    · exact (h.kept_stopped tells).trans ((h.stopped tells).kept_moves hmoves)
  cases e with
  | setProviderSessionId id => exact hsame rfl
  | send input => exact kept_send h input
  | editPendingMessage id text =>
    refine hsame ?_
    simp only [step, editPendingMessage]
    split
    · rfl
    split <;> rfl
  | removePendingMessage id =>
    refine hsame ?_
    simp only [step, removePendingMessage]
    split
    · rfl
    split <;> rfl
  | removePendingMessagesByCommandIdPrefix commandIdPrefix =>
    refine hsame ?_
    simp only [step, removePendingMessagesByCommandIdPrefix]
    split
    · rfl
    split <;> rfl
  | cancel =>
    simp only [step, cancel]
    split
    · exact hsame rfl
    · exact hstops ((deskMoves_cancelBound h.running hn.retry).imp_left And.right)
  | drainPendingIfIdle =>
    simp only [step, drainPendingIfIdle]
    split
    · exact hsame rfl
    · exact h.kept_moves (deskMoves_drainPendingIfNoActiveTurn env.view)
  | rehydratePendingFromStore => exact hsame desk_rehydratePendingFromStore
  | cancelStaleActiveTurnWithPending nowMs staleMs =>
    exact hstops (deskMoves_cancelStaleActiveTurnWithPending nowMs staleMs h.running hn.retry)
  | recoverSilentActiveTurn nowMs staleMs =>
    exact hstops (deskMoves_recoverSilentActiveTurn nowMs staleMs)
  | settleActiveDispatchFromExternalCompletion =>
    exact hstops deskMoves_settleActiveDispatchFromExternalCompletion
  | kill => exact hsame rfl
  | finishKill preserve => exact hlives.elim
  | onDelta dispatchId sid =>
    refine hsame ?_
    simp only [step, onDelta]
    split
    · rfl
    split
    · rfl
    split <;> rfl
  | onComplete dispatchId sid content => exact kept_onComplete h dispatchId sid content hown
  | onError dispatchId sid error => exact kept_onError h dispatchId sid error hown
  | onToolCall sid tool => exact h.kept_moves (deskMoves_onToolCall sid tool)
  | onApprovalRequest sid =>
    refine hsame ?_
    simp only [step, onApprovalRequest]
    split <;> rfl
  | onSign sid =>
    refine hsame ?_
    simp only [step, onSign]
    split <;> rfl
  | contextReady dispatchId next => exact kept_contextReady h dispatchId next hawaited
  | onBeforeProviderSend dispatchId => exact kept_onBeforeProviderSend h dispatchId hawaited
  | dispatchAccepted dispatchId => exact absurd rfl (haccepted dispatchId)
  | dispatchRejected dispatchId error => exact kept_dispatchRejected h dispatchId error
  | runRecoverableRetryTick =>
    simp only [step, runRecoverableRetryTick]
    split
    · exact hsame rfl
    split
    · exact hsame rfl
    split
    · exact hsame rfl
    split
    · exact hsame rfl
    · exact h.kept_moves ((deskMoves_drainPending env.view).of_desk rfl)
  | runStalePendingCancelFallback =>
    have htimer : rt.stalePendingCancelFallbackTimer = none := h.fallback
    refine hsame ?_
    simp only [step, runStalePendingCancelFallback, htimer]

/-! ## Runs -/

/-- Every step keeps the desk tidy, and cancels what has been stopped exactly when
no message is accepted too late. -/
theorem tidy_step (h : rt.desk.Tidy) (hn : rt.lane.WellNumbered) (e : Event)
    (hlives : Lives e) (hawaited : rt.Awaited e) (hown : rt.OwnTerminal e) :
    (step localeCompare env rt e).desk.Tidy ∧
      (Traced Desk.CancelsStopped (step localeCompare env rt e).providerTrace ↔
        Traced Desk.CancelsStopped rt.providerTrace ∧ rt.AcceptedInTime e) := by
  by_cases haccepted : ∃ d, e = .dispatchAccepted d
  · obtain ⟨d, rfl⟩ := haccepted
    exact tidy_dispatchAccepted h d
  · rw [not_exists] at haccepted
    obtain ⟨htidy, htraced⟩ : Desk.Kept rt.desk (step localeCompare env rt e).desk :=
      kept_step h hn e hlives hawaited hown haccepted
    exact ⟨htidy, htraced.trans (and_iff_left fun d hd => absurd hd (haccepted d)).symm⟩

theorem tidy_create (provider : Provider) (sessionKey : String) (store : StoreConn) :
    (create provider sessionKey store).desk.Tidy := by
  constructor <;> simp [create, desk, openIds]

/-- An event of a run in which the runtime lives on, and every body goes through
its promises in order. -/
def Proper (rt : TransportSessionRuntime) (p : StepEnv × Event) : Prop :=
  Lives p.2 ∧ rt.Awaited p.2

instance (p : StepEnv × Event) : Decidable (rt.Proper p) := by
  unfold Proper
  infer_instance

theorem cancelsStopped_run {steps : Steps} (h : rt.desk.Tidy) (hn : rt.lane.WellNumbered)
    (hproper : Along (fun rt p => step localeCompare p.1 rt p.2) Proper steps rt)
    (hown : Along (fun rt p => step localeCompare p.1 rt p.2) (fun rt p => rt.OwnTerminal p.2)
      steps rt) :
    Traced Desk.CancelsStopped (run localeCompare steps rt).providerTrace ↔
      Traced Desk.CancelsStopped rt.providerTrace ∧
        Along (fun rt p => step localeCompare p.1 rt p.2) (fun rt p => rt.AcceptedInTime p.2)
          steps rt := by
  induction steps generalizing rt with
  | nil => exact (and_iff_left trivial).symm
  | cons p steps ih =>
    obtain ⟨⟨hlives, hawaited⟩, hproper⟩ := hproper
    obtain ⟨hown, hrest⟩ := hown
    obtain ⟨htidy, htraced⟩ := tidy_step h hn p.2 hlives hawaited hown
    exact (ih htidy (wellNumbered_step hn p.2) hproper hrest).trans
      ((and_congr_left fun _ => htraced).trans and_assoc)

/-- **Stopping one turn never cancels another**, exactly as long as no message of a
stopped dispatch is accepted while the provider is at what runs; provided that no
callback of an earlier dispatch is taken for that of the running one. -/
theorem cancels_stopped_iff (localeCompare : Collation) (provider : Provider) (sessionKey : String)
    (store : StoreConn) (steps : Steps)
    (hproper : Along (fun rt p => step localeCompare p.1 rt p.2) Proper steps
      (create provider sessionKey store))
    (hown : Along (fun rt p => step localeCompare p.1 rt p.2) (fun rt p => rt.OwnTerminal p.2)
      steps (create provider sessionKey store)) :
    Traced Desk.CancelsStopped
        (run localeCompare steps (create provider sessionKey store)).providerTrace ↔
      Along (fun rt p => step localeCompare p.1 rt p.2) (fun rt p => rt.AcceptedInTime p.2) steps
        (create provider sessionKey store) :=
  (cancelsStopped_run (tidy_create provider sessionKey store)
    (wellNumbered_create provider sessionKey store) hproper hown).trans (and_iff_right traced_nil)

/-! ### A late acceptance -/

/-- The first turn is stopped while the provider has its message, and the next is
handed over before the provider accepts it. -/
def lateRun : Steps :=
  [(exampleStepEnv "u", .setProviderSessionId "s"),
    (exampleStepEnv "u", .send { message := "one", clientMessageId := some "m1" }),
    (exampleStepEnv "u", .contextReady 1 .recall),
    (exampleStepEnv "u", .contextReady 1 .assembling),
    (exampleStepEnv "u", .onBeforeProviderSend 1),
    (exampleStepEnv "u", .send { message := "two", clientMessageId := some "m2" }),
    (exampleStepEnv "u", .cancel),
    (exampleStepEnv "u", .contextReady 2 .recall),
    (exampleStepEnv "u", .contextReady 2 .assembling),
    (exampleStepEnv "u", .onBeforeProviderSend 2),
    (exampleStepEnv "u", .dispatchAccepted 1)]

theorem cancels_stopped_iff_lateRun :
    Traced Desk.CancelsStopped (run (fun _ _ => 0) lateRun
        (create exampleProvider "deck" (freshConn fun _ => none))).providerTrace ↔
      Along (fun rt p => step (fun _ _ => 0) p.1 rt p.2) (fun rt p => rt.AcceptedInTime p.2) lateRun
        (create exampleProvider "deck" (freshConn fun _ => none)) :=
  cancels_stopped_iff (fun _ _ => 0) exampleProvider "deck" (freshConn fun _ => none) lateRun
    (by decide +kernel) (by decide +kernel)

/-- **A turn may be cancelled for another**: the one that runs when the message of a
stopped turn is accepted at last. -/
theorem not_cancels_stopped :
    ¬ ∀ (localeCompare : Collation) (provider : Provider) (sessionKey : String)
      (store : StoreConn) (steps : Steps),
      let after := fun (rt : TransportSessionRuntime) p => step localeCompare p.1 rt p.2
      Along after Proper steps (create provider sessionKey store) →
      Along after (fun rt p => rt.OwnTerminal p.2) steps (create provider sessionKey store) →
      Traced Desk.CancelsStopped
        (run localeCompare steps (create provider sessionKey store)).providerTrace := by
  intro h
  have htraced := h (fun _ _ => 0) exampleProvider "deck" (freshConn fun _ => none) lateRun
    (by decide +kernel) (by decide +kernel)
  have hlast := htraced [.handed 1, .stopped 1, .cancelled, .handed 2] .cancelled (by decide +kernel)
  exact absurd (hlast rfl 2 (by decide)) (by decide)

end TransportSessionRuntime

end Imcodes.Transport
