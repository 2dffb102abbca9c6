import Imcodes.Upgrade.Coordinator

/-!
# Upgrades that are stuck

An upgrade that is scheduled waits for its timer.  When the timer fires while the daemon is
away, nothing is sent and nothing is scheduled, but the status stays: from then on the
requests answer that the upgrade is in progress, and a flush passes it over.

* `NeverStuck` — what a run is to be like.
* `Proceeds` — no timer fires in vain, and a flush that is to deliver an upgrade finds it
  deliverable.
* `neverStuck_iff` — a run is never stuck exactly when all its steps are like that.
* `not_neverStuck` — a run that is.
-/

namespace Imcodes.Upgrade

open Machine

namespace Server

variable (s : Server)

/-- The current upgrade, if it is scheduled, has its timer. -/
def Armed : Prop :=
  ∀ u, s.current = some u → (s.upgrades u).status = .scheduled → (s.upgrades u).timer ≠ none

/-- An answer that the upgrade is in progress is about one that was sent or is on its way. -/
def AnswersRightly (result : RequestDaemonUpgradeResult) : Prop :=
  result.deliveryStatus = .alreadyInProgress →
    ∃ u, s.current = some u ∧ result.upgradeId = some u ∧
      ((s.upgrades u).status = .sent ∨
        (s.upgrades u).status = .scheduled ∧ (s.upgrades u).timer ≠ none ∨
          (s.upgrades u).status = .pendingOffline)

/-- A flush that finds the daemon ready delivers the upgrade that was scheduled when the
daemon went away, if that is still the current one. -/
def FlushDelivers (input : RequestDaemonUpgradeInput) (now : ℤ) : Prop :=
  s.isDaemonReady = true → ∀ u, s.leftScheduled = some u → s.current = some u →
    ∃ result, (s.flushPending input now).2 = some result ∧ result.upgradeId = some u ∧
      result.deliveryStatus = .sent

/-- The timer of the current upgrade fires to send it, and a flush that has to deliver an
upgrade finds it pending, published, and not held back. -/
def Proceeds : UpgradeEvent → Prop
  | .timer u =>
      s.current = some u → (s.upgrades u).status = .scheduled →
        ∀ input, (s.upgrades u).timer = some input →
          s.isDaemonReady = true ∧ s.isStale input = false
  | .flushPending _ now =>
      s.isDaemonReady = true → ∀ u, s.leftScheduled = some u → s.current = some u →
        ((s.upgrades u).status = .pendingOffline ∨ (s.upgrades u).status = .pendingPublication) ∧
          s.gate.isAvailable (s.upgrades u).targetVersion ∧
            ((s.upgrades u).source = .auto →
              s.nextAutoAttemptAt now ≤ now ∧ (s.upgrades u).attempt < AUTO_UPGRADE_MAX_ATTEMPTS)
  | _ => True

end Server

/-- In every state the current upgrade is armed if it is scheduled; every request answers
rightly; and every flush delivers what was left. -/
structure NeverStuck (retryDelaysMs : List ℤ) (events : List UpgradeEvent) : Prop where
  armed : ∀ before, before <+: events → (run retryDelaysMs before).Armed
  answers : ∀ before targetVersion source input now,
    before ++ [.request targetVersion source input now] <+: events →
      (run retryDelaysMs before).AnswersRightly
        ((run retryDelaysMs before).request targetVersion source input now).2
  delivers : ∀ before input now, before ++ [.flushPending input now] <+: events →
    (run retryDelaysMs before).FlushDelivers input now

namespace Server

variable {s : Server} {u : ℕ} {input : RequestDaemonUpgradeInput} {cause : Cause} {now : ℤ}

/-! ## What is armed stays armed -/

namespace Armed

/-- An upgrade may change as long as it does not become scheduled without a timer. -/
theorem modify (h : s.Armed) {f : UpgradeState → UpgradeState}
    (hf : (f (s.upgrades u)).status = .scheduled → (f (s.upgrades u)).timer = none →
      (s.upgrades u).status = .scheduled ∧ (s.upgrades u).timer = none) : (s.modify u f).Armed := by
  intro v hv hstatus hnone
  rw [modify_upgrades] at hstatus hnone
  split at hstatus
  · rename_i hvu
    subst hvu
    rw [if_pos rfl] at hnone
    obtain ⟨hscheduled, hunarmed⟩ := hf hstatus hnone
    exact h v hv hscheduled hunarmed
  · rename_i hvu
    rw [if_neg hvu] at hnone
    exact h v hv hstatus hnone

theorem sendNow (h : s.Armed) : (s.sendNow u cause).Armed := by
  have hmodify : (s.modify u ({ · with status := .sent })).Armed := h.modify fun hsent => nomatch hsent
  exact hmodify

theorem scheduleAutoSend (h : s.Armed) : (s.scheduleAutoSend u input now cause).1.Armed := by
  rw [Server.scheduleAutoSend]
  dsimp only
  split
  · exact h
  split
  · exact h
  · have hmodify : (s.modify u fun upgrade => { upgrade with
        status := .scheduled, attempt := upgrade.attempt + 1, timer := some input }).Armed :=
      h.modify fun _ hnone => nomatch hnone
    exact hmodify

theorem ensureTargetPublished (h : s.Armed) : (s.ensureTargetPublished u input).1.Armed := by
  rw [Server.ensureTargetPublished]
  dsimp only
  split
  · have hmodify : (s.modify u ({ · with
        publicationResumeInput := none, publicationCallbackRegistered := false })).Armed :=
      h.modify And.intro
    exact hmodify
  · have hmodify : (s.modify u ({ · with
        publicationResumeInput := some input
        publicationCallbackRegistered := true
        status := .pendingPublication })).Armed :=
      h.modify fun hpending => nomatch hpending
    exact hmodify

theorem deliver (h : s.Armed) {source : DaemonUpgradeSource} :
    (s.deliver u source input now cause).1.Armed := by
  have hasked : (s.ensureTargetPublished u input).1.Armed := h.ensureTargetPublished
  rw [Server.deliver]
  dsimp only
  split
  · exact hasked
  · split
    · exact hasked.scheduleAutoSend
    · exact hasked.sendNow

theorem modify_source (h : s.Armed) (source : DaemonUpgradeSource) :
    (s.modify u ({ · with source })).Armed :=
  h.modify And.intro

theorem modify_pendingOffline (h : s.Armed) :
    (s.modify u ({ · with status := .pendingOffline })).Armed :=
  h.modify fun hpending => nomatch hpending

theorem requestAgain (h : s.Armed) {source : DaemonUpgradeSource} :
    (s.requestAgain u source input now).1.Armed := by
  rw [Server.requestAgain]
  dsimp only
  split
  · split
    · exact (h.modify_source source).ensureTargetPublished
    · exact (h.modify_source source).modify_pendingOffline
  · split
    · split
      · split
        · exact h
        · split <;> exact h
      · exact h
    · exact h

/-- An upgrade is made current that is the current one already, or is not scheduled. -/
theorem requestCurrent {source : DaemonUpgradeSource}
    (hu : (s.upgrades u).status = .scheduled → (s.upgrades u).timer ≠ none) :
    (s.requestCurrent u source input now).1.Armed := by
  have hcurrent : Armed { s with current := some u } := fun v hv => Option.some.inj hv ▸ hu
  have hsource : Armed { s.modify u ({ · with source }) with current := some u } :=
    hcurrent.modify_source source
  rw [Server.requestCurrent]
  dsimp only
  split
  · exact hsource.deliver
  · exact hsource.modify_pendingOffline

end Armed

theorem requestAgain_current {source : DaemonUpgradeSource} :
    (s.requestAgain u source input now).1.current = s.current := by
  rw [requestAgain]
  dsimp only
  split
  · split
    · rw [ensureTargetPublished]
      dsimp only
      split <;> rfl
    · rfl
  · split
    · split
      · split
        · rfl
        · split <;> rfl
      · rfl
    · rfl

theorem clearCurrent_current : s.clearCurrent.current = none := by
  rw [clearCurrent]
  split
  · assumption
  · rfl

namespace Armed

theorem request (h : s.Armed) {targetVersion : TargetValue} {source : DaemonUpgradeSource} :
    (s.request targetVersion source input now).1.Armed := by
  rw [Server.request]
  split
  · exact h
  split
  · rename_i u hfor
    obtain ⟨hcurrent, -⟩ := Option.filter_eq_some_iff.1 hfor
    have hagain : (s.requestAgain u source input now).1.Armed := h.requestAgain
    dsimp only
    split
    · exact hagain
    · exact .requestCurrent (hagain u (requestAgain_current.trans hcurrent))
  · refine .requestCurrent fun hscheduled => ?_
    rw [Server.create, modify_upgrades, if_pos rfl] at hscheduled
    cases hscheduled

theorem flushPending (h : s.Armed) : (s.flushPending input now).1.flushed.Armed := by
  have hflushed : (s.flushPending input now).1.Armed := by
    rw [Server.flushPending]
    split
    · exact h
    dsimp only
    split
    · exact h
    split
    · exact h
    · exact h.deliver
  rw [flushed]
  split <;> exact hflushed

theorem retryAutoAfterBlocked (h : s.Armed) {retryDelayMs : ℚ} :
    (s.retryAutoAfterBlocked input retryDelayMs now).1.Armed := by
  rw [Server.retryAutoAfterBlocked]
  split
  · exact h
  rename_i u hcurrent
  dsimp only
  split
  · exact h
  · have hmodify : (s.modify u ({ · with status := .scheduled, timer := some input })).Armed :=
      h.modify fun _ hnone => nomatch hnone
    exact hmodify

theorem clearIfTargetVersionMatches (h : s.Armed) (targetVersion : Option String) :
    (s.clearIfTargetVersionMatches targetVersion).Armed := by
  have hcleared : s.clearCurrent.Armed := by
    intro v hv
    rw [clearCurrent_current] at hv
    cases hv
  rw [Server.clearIfTargetVersionMatches.eq_def]
  split
  · exact h
  split
  · exact h
  split
  · exact h
  split
  · exact hcleared
  · exact h

theorem fireTimer (h : s.Armed) (hproceeds : s.Proceeds (.timer u)) : (s.fireTimer u).Armed := by
  rw [Server.fireTimer]
  split
  · exact h
  rename_i armed htimer
  dsimp only
  split
  · rename_i hvain
    -- The timer is gone; if the upgrade is the current one, it was not scheduled.
    intro v hv hscheduled
    by_cases hvu : v = u
    · subst hvu
      rw [modify_upgrades, if_pos rfl] at hscheduled
      obtain ⟨hready, hstale⟩ := hproceeds hv hscheduled armed htimer
      rcases hvain with hother | haway | hstale'
      · exact absurd hv hother
      · exact absurd (haway.symm.trans hready) Bool.false_ne_true
      · exact absurd (hstale.symm.trans hstale') Bool.false_ne_true
    · rw [modify_upgrades, if_neg hvu] at hscheduled ⊢
      exact h v hv hscheduled
  · rename_i hgo
    intro v hv hscheduled
    by_cases hvu : v = u
    · subst hvu
      rw [sendNow_upgrades, if_pos rfl] at hscheduled
      cases hscheduled
    · rw [sendNow_upgrades, if_neg hvu, modify_upgrades, if_neg hvu] at hscheduled ⊢
      exact h v hv hscheduled

theorem resumeAfterPublication (h : s.Armed) :
    (s.resumeAfterPublication u input now cause).Armed := by
  rw [Server.resumeAfterPublication]
  split
  · exact h
  split
  · exact h
  split
  · exact h.scheduleAutoSend
  · exact h.sendNow

theorem runCallback (h : s.Armed) (callback : PublicationCallback) :
    (s.runCallback callback now).Armed := by
  have hmodify : (s.modify callback.upgrade
      ({ · with publicationCallbackRegistered := false, publicationResumeInput := none })).Armed :=
    h.modify And.intro
  rw [Server.runCallback]
  split
  · exact hmodify
  · exact hmodify.resumeAfterPublication

theorem markPublished (h : s.Armed) (v : String) : (s.markPublished v now).Armed := by
  rw [Server.markPublished]
  have hcalled (callbacks : List PublicationCallback) {t : Server} (ht : t.Armed) :
      (callbacks.foldl (fun s callback => s.runCallback callback now) t).Armed := by
    induction callbacks generalizing t with
    | nil => exact ht
    | cons callback callbacks ih => exact ih (ht.runCallback callback)
  exact hcalled _ h

/-- **A step that proceeds** leaves the current upgrade armed. -/
theorem step (h : s.Armed) (retryDelaysMs : List ℤ) {event : UpgradeEvent}
    (hproceeds : s.Proceeds event) : (s.step retryDelaysMs event).Armed := by
  cases event with
  | request targetVersion source input now => exact h.request
  | flushPending input now => exact h.flushPending
  | retryAutoAfterBlocked input retryDelayMs now => exact h.retryAutoAfterBlocked
  | clearIfTargetVersionMatches targetVersion => exact h.clearIfTargetVersionMatches targetVersion
  | timer u => exact h.fireTimer hproceeds
  | probed v result now =>
    rw [Server.step, Server.finishProbe]
    split
    · exact h
    split
    · have hended : Armed { s with gate := Function.update s.gate v { s.gate v with
          inFlight := false, lastStatusCode := result.bind (·.statusCode) } } := h
      exact hended.markPublished v
    · exact h
  | probeTimer v =>
    rw [Server.step, Server.fireProbeTimer]
    split <;> exact h
  | _ => exact h

end Armed

/-! ## Answers and flushes -/

theorem scheduleAutoSend_deliveryStatus :
    (s.scheduleAutoSend u input now cause).2.deliveryStatus =
      if now < s.nextAutoAttemptAt now then .suppressed
      else if AUTO_UPGRADE_MAX_ATTEMPTS ≤ (s.upgrades u).attempt then .backoff else .sent := by
  rw [scheduleAutoSend]
  dsimp only
  split
  · rfl
  · split <;> rfl

theorem ensureTargetPublished_result (s : Server) (u : ℕ) (input : RequestDaemonUpgradeInput) :
    (∃ result, (s.ensureTargetPublished u input).2 = some result ∧
        result.deliveryStatus = .pendingPublication ∧
          ¬ s.gate.isAvailable (s.upgrades u).targetVersion) ∨
      s.gate.isAvailable (s.upgrades u).targetVersion ∧
        s.ensureTargetPublished u input = (s.modify u ({ · with
          publicationResumeInput := none, publicationCallbackRegistered := false }), none) := by
  rw [ensureTargetPublished]
  by_cases havailable : s.gate.isAvailable (s.upgrades u).targetVersion
  · simp only [PublicationGate.ensurePublished, if_pos havailable]
    exact Or.inr ⟨havailable, rfl⟩
  · simp only [PublicationGate.ensurePublished, if_neg havailable]
    exact Or.inl ⟨_, rfl, rfl, havailable⟩

/-- What comes of a delivery. -/
theorem deliver_deliveryStatus {source : DaemonUpgradeSource} :
    (s.deliver u source input now cause).2.deliveryStatus =
      if s.gate.isAvailable (s.upgrades u).targetVersion then
        if source = .auto ∧ now < s.nextAutoAttemptAt now then .suppressed
        else if source = .auto ∧ AUTO_UPGRADE_MAX_ATTEMPTS ≤ (s.upgrades u).attempt then .backoff
        else .sent
      else .pendingPublication := by
  rw [deliver]
  rcases ensureTargetPublished_result s u input with
    ⟨result, hresult, hpending, hnot⟩ | ⟨havailable, hpublished⟩
  · rw [if_neg hnot, ← hpending]
    dsimp only
    rw [hresult]
  · rw [if_pos havailable, hpublished]
    by_cases hauto : source = .auto
    · dsimp only
      rw [if_pos hauto, scheduleAutoSend_deliveryStatus, modify_upgrades, if_pos rfl]
      simp only [hauto, true_and]
      rfl
    · dsimp only
      simp only [hauto, false_and, if_false]
      rfl

theorem requestCurrent_ne_alreadyInProgress {source : DaemonUpgradeSource} :
    (s.requestCurrent u source input now).2.deliveryStatus ≠ .alreadyInProgress := by
  rw [requestCurrent]
  dsimp only
  split
  · rw [deliver_deliveryStatus]
    split
    · split
      · nofun
      · split <;> nofun
    · nofun
  · nofun

/-- Who is told that an upgrade is in progress. -/
theorem requestAgain_alreadyInProgress {source : DaemonUpgradeSource}
    {result : RequestDaemonUpgradeResult}
    (hresult : (s.requestAgain u source input now).2 = some result)
    (hanswer : result.deliveryStatus = .alreadyInProgress) :
    result.upgradeId = some u ∧ (s.upgrades u).status ≠ .pendingPublication ∧
      (s.upgrades u).status ≠ .superseded := by
  rw [requestAgain] at hresult
  dsimp only at hresult
  split at hresult
  · split at hresult
    · rcases ensureTargetPublished_result (s.modify u ({ · with source })) u input with ⟨result', hresult', hpending, -⟩ | ⟨-, hpublished⟩
      · rw [hresult'] at hresult
        cases hresult
        rw [hpending] at hanswer
        cases hanswer
      · rw [hpublished] at hresult
        cases hresult
    · cases hresult
      cases hanswer
  · rename_i hstatus
    split at hresult
    · rename_i hgo
      split at hresult
      · split at hresult
        · cases hresult
          cases hanswer
        · split at hresult
          · cases hresult
            cases hanswer
          · cases hresult
      · cases hresult
        exact ⟨rfl, hstatus, hgo.1⟩
    · cases hresult

/-- **The answers are right** as long as the current upgrade is armed. -/
theorem Armed.answersRightly (h : s.Armed) (targetVersion : TargetValue)
    (source : DaemonUpgradeSource) :
    s.AnswersRightly (s.request targetVersion source input now).2 := by
  intro hanswer
  rw [Server.request] at hanswer ⊢
  split at hanswer
  · cases hanswer
  split at hanswer
  · rename_i u hfor
    obtain ⟨hcurrent, -⟩ := Option.filter_eq_some_iff.1 hfor
    dsimp only at hanswer ⊢
    split at hanswer
    · rename_i result hresult
      obtain ⟨hid, hpending, hsuperseded⟩ := requestAgain_alreadyInProgress hresult hanswer
      refine ⟨u, hcurrent, hid, ?_⟩
      cases hstatus : (s.upgrades u).status with
      | pendingOffline => exact Or.inr (Or.inr rfl)
      | pendingPublication => exact absurd hstatus hpending
      | scheduled => exact Or.inr (Or.inl ⟨rfl, h u hcurrent hstatus⟩)
      | sent => exact Or.inl rfl
      | superseded => exact absurd hstatus hsuperseded
    · exact absurd hanswer requestCurrent_ne_alreadyInProgress
  · exact absurd hanswer requestCurrent_ne_alreadyInProgress

theorem deliver_upgradeId {source : DaemonUpgradeSource} :
    (s.deliver u source input now cause).2.upgradeId = some u := by
  rw [deliver]
  dsimp only
  split
  · rename_i result hresult
    rw [ensureTargetPublished] at hresult
    dsimp only at hresult
    split at hresult
    · cases hresult
    · cases hresult
      rfl
  · split
    · rw [scheduleAutoSend]
      dsimp only
      split
      · rfl
      · split <;> rfl
    · rfl

/-- **A flush delivers** what was left exactly when it finds it deliverable. -/
theorem flushDelivers_iff : s.FlushDelivers input now ↔ s.Proceeds (.flushPending input now) := by
  refine forall_congr' fun hready => forall_congr' fun u => forall_congr' fun _ =>
    forall_congr' fun hcurrent => ?_
  rw [flushPending]
  simp only [hcurrent]
  by_cases hpending : (s.upgrades u).status = .pendingOffline ∨
      (s.upgrades u).status = .pendingPublication
  · rw [if_neg fun hnot => hpending.elim hnot.1 hnot.2,
      if_neg (by rw [hready]; exact Bool.noConfusion)]
    simp only [Option.some.injEq, exists_eq_left', deliver_upgradeId, true_and,
      deliver_deliveryStatus, hpending]
    by_cases havailable : s.gate.isAvailable (s.upgrades u).targetVersion
    · rw [if_pos havailable]
      by_cases hauto : (s.upgrades u).source = .auto
      · simp only [hauto, havailable, true_and, true_implies]
        split
        · rename_i hsoon
          exact iff_of_false nofun fun hand => absurd hand.1 (not_le.2 hsoon)
        · rename_i hlate
          split
          · rename_i hmany
            exact iff_of_false nofun fun hand => absurd hand.2 (Nat.not_lt.2 hmany)
          · rename_i hfew
            exact iff_of_true rfl ⟨not_lt.1 hlate, Nat.not_le.1 hfew⟩
      · simp [hauto, havailable]
    · rw [if_neg havailable]
      exact iff_of_false nofun fun hand => havailable hand.1
  · rw [if_pos (not_or.1 hpending)]
    exact iff_of_false (fun ⟨_, hnone, _⟩ => nomatch hnone) fun hand => hpending hand.1

/-- A timer that fires in vain leaves the current upgrade without one. -/
theorem proceeds_of_armed (h : (s.fireTimer u).Armed) : s.Proceeds (.timer u) := by
  intro hcurrent hscheduled armed htimer
  by_contra hvain
  have hstuck : s.fireTimer u = s.modify u ({ · with timer := none }) := by
    rw [fireTimer, htimer]
    dsimp only
    refine if_pos (Or.inr ?_)
    rwa [not_and_or, Bool.not_eq_true, Bool.not_eq_false] at hvain
  rw [hstuck] at h
  refine h u hcurrent ?_ ?_ <;> rw [modify_upgrades, if_pos rfl]
  exact hscheduled

end Server

/-- **A run is never stuck exactly when every step proceeds**: the timer of the current
upgrade fires to send it, and a flush that is to deliver an upgrade finds it deliverable. -/
theorem neverStuck_iff (retryDelaysMs : List ℤ) (events : List UpgradeEvent) :
    NeverStuck retryDelaysMs events ↔
      Along (Server.step retryDelaysMs) Server.Proceeds events {} := by
  constructor
  · intro h
    refine along_iff.2 fun before event hpre => ?_
    cases event with
    | timer u =>
      have harmed := h.armed _ hpre
      rw [run, run_append] at harmed
      exact Server.proceeds_of_armed harmed
    | flushPending input now => exact Server.flushDelivers_iff.1 (h.delivers before input now hpre)
    | _ => trivial
  · intro h
    have harmed (before : List UpgradeEvent) (hpre : before <+: events) :
        (run retryDelaysMs before).Armed := by
      obtain ⟨after, rfl⟩ := hpre
      exact run_invariant Server.Armed (fun _ _ harmed hproceeds =>
        harmed.step retryDelaysMs hproceeds) (fun _ hnone => nomatch hnone) (along_append.1 h).1
    refine ⟨harmed, fun before targetVersion source input now hpre => ?_,
      fun before input now hpre => ?_⟩
    · exact (harmed before ((List.prefix_append _ _).trans hpre)).answersRightly targetVersion source
    · exact Server.flushDelivers_iff.2 (along_iff.1 h before _ hpre)

/-! ## A run that is stuck -/

/-- The daemon goes away after an upgrade was scheduled, and the timer fires meanwhile. -/
def awayMeanwhile : List UpgradeEvent :=
  [.ready true, .request .missing .auto {} 0, .ready false, .timer 0]

/-- From then on a request answers that the upgrade is in progress, and a flush does not
deliver it. -/
example :
    let s := ((run DEFAULT_RETRY_DELAYS_MS awayMeanwhile).setReady true)
    ((s.request .missing .manual {} 0).2.deliveryStatus, (s.flushPending {} 0).2) =
      (.alreadyInProgress, none) := by
  decide +kernel

/-- **A run may be stuck.** -/
theorem not_neverStuck : ¬ ∀ retryDelaysMs events, NeverStuck retryDelaysMs events := by
  intro h
  have harmed := (h DEFAULT_RETRY_DELAYS_MS awayMeanwhile).armed _ (List.prefix_refl _)
  exact harmed 0 (by decide +kernel) (by decide +kernel) (by decide +kernel)

end Imcodes.Upgrade
