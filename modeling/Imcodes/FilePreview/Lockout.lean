import Imcodes.FilePreview.Coordinator

/-!
# When the file preview locks itself out

The estimate of what a read takes is the median of the last reads, and only reads that are let in
are counted.  When it gets too long, nothing is let in, and nothing makes it shorter again.

* `neverLockedOut_iff` — the next request is let in whenever there is nothing to do exactly when the
  reads that count for the estimate are then quick enough for the most part.
* `lockedOut_run` — once there is nothing to do and no request is let in, none ever is.
-/

namespace Imcodes.FilePreview

open Machine Median

namespace PreviewReadAdmissionController

/-- The reads that count for the estimate are none, or mostly quick enough for a request to be let
in when no other one waits. -/
def IsQuick (controller : PreviewReadAdmissionController) : Prop :=
  controller.completedDurationsMs = [] ∨
    MostlyAtMost controller.longestEstimateMs controller.completedDurationsMs

variable {controller : PreviewReadAdmissionController} {options : PreviewReadAdmissionOptions}

/-- Of what the constructor makes, only the durations change. -/
theorem decide_zero_iff_isQuick (hnew : ((new options).decide 0).admitted = true)
    {durations : List ℚ} (heq : controller =
      { new options with completedDurationsMs := durations }) :
    (controller.decide 0).admitted = true ↔ controller.IsQuick := by
  subst heq
  obtain ⟨hcap, hseed⟩ := decide_zero_iff.1 hnew
  have hlongest : longestEstimateMs { new options with completedDurationsMs := durations } =
      (new options).longestEstimateMs := rfl
  rw [decide_zero_iff, IsQuick, hlongest, tEstimateMs]
  dsimp only
  split
  · rename_i hempty
    exact iff_of_true ⟨hcap, hseed⟩ (Or.inl hempty)
  · rename_i hsome
    rw [median_le_iff hsome]
    exact ⟨fun h => Or.inr h.2, fun h => ⟨hcap, h.resolve_left hsome⟩⟩

theorem recordJobDuration_eq (durationMs : ℚ)
    (hdurations : ∀ d ∈ controller.completedDurationsMs, 0 ≤ d) :
    ∃ durations, (∀ d ∈ durations, 0 ≤ d) ∧ controller.recordJobDuration durationMs =
      { controller with completedDurationsMs := durations } := by
  unfold recordJobDuration
  split
  · exact ⟨controller.completedDurationsMs, hdurations, rfl⟩
  · rename_i hnonneg
    refine ⟨_, fun d hd => ?_, rfl⟩
    rcases List.mem_append.1 (List.mem_of_mem_drop hd) with hd | hd
    · exact hdurations d hd
    · rw [List.mem_singleton.1 hd]
      exact not_lt.1 hnonneg

theorem tEstimateMs_nonneg {durations : List ℚ} (hdurations : ∀ d ∈ durations, 0 ≤ d)
    (heq : controller = { new options with completedDurationsMs := durations }) :
    0 ≤ controller.tEstimateMs := by
  subst heq
  rw [tEstimateMs]
  split
  · have hseed : (1 : ℤ) ≤ (new options).seededEstimateMs := le_max_left _ _
    exact_mod_cast zero_le_one.trans hseed
  · exact median_nonneg hdurations

end PreviewReadAdmissionController

namespace PreviewReadCoordinator

/-- No job runs, and none waits in the pool. -/
def IsIdle (coordinator : PreviewReadCoordinator) : Prop :=
  coordinator.preflightJobs.toList = [] ∧ coordinator.snapshotJobs.toList = []

/-- The duration of a job that ends is not negative and not above the deadline. -/
def EndsInTime (coordinator : PreviewReadCoordinator) : CoordinatorEvent → Prop
  | .preflightEnds key _ => ∀ job ∈ coordinator.preflightJobs.get? key,
      job.startedAt ≤ coordinator.now ∧
        coordinator.now - job.startedAt ≤ coordinator.admission.deadlineMs
  | .snapshotEnds key _ => ∀ job ∈ coordinator.snapshotJobs.get? key,
      job.startedAt ≤ coordinator.now ∧
        coordinator.now - job.startedAt ≤ coordinator.admission.deadlineMs
  | _ => True

variable {coordinator : PreviewReadCoordinator} {options : PreviewReadAdmissionOptions}

instance : DecidablePred coordinator.EndsInTime := fun event => by
  unfold EndsInTime
  cases event <;> infer_instance

/-- Over a run, only the durations of the admission change. -/
theorem admission_run (hnew : coordinator.admission = .new options)
    (events : List CoordinatorEvent) : ∃ durations, (∀ d ∈ durations, 0 ≤ d) ∧
    (run step events coordinator).admission =
      { PreviewReadAdmissionController.new options with completedDurationsMs := durations } := by
  refine run_invariant_all (fun coordinator : PreviewReadCoordinator => ∃ durations,
    (∀ d ∈ durations, 0 ≤ d) ∧ coordinator.admission =
      { PreviewReadAdmissionController.new options with completedDurationsMs := durations })
    (fun coordinator event h => ?_) ⟨[], nofun, hnew⟩ events
  obtain ⟨durations, hdurations, hold⟩ := h
  rcases (step_spec coordinator event).2.2 with heq | ⟨durationMs, heq⟩
  · exact ⟨durations, hdurations, heq.trans hold⟩
  · obtain ⟨durations', hdurations', hrec⟩ :=
      PreviewReadAdmissionController.recordJobDuration_eq durationMs
        (show ∀ d ∈ coordinator.admission.completedDurationsMs, 0 ≤ d from hold ▸ hdurations)
    exact ⟨durations', hdurations', heq.trans (hrec.trans (by rw [hold]))⟩

end PreviewReadCoordinator

/-! ## What a lock-out does -/

/-- No job runs, and a request is let in at no depth of the queue. -/
structure PreviewReadCoordinator.LockedOut (coordinator : PreviewReadCoordinator) : Prop where
  preflight : ∀ key, coordinator.preflightJobs.get? key = none
  snapshot : ∀ key, coordinator.snapshotJobs.get? key = none
  refuses : ∀ queueDepth, (coordinator.admission.decide queueDepth).admitted = false

namespace PreviewReadCoordinator

theorem LockedOut.step (h : LockedOut coordinator) (event : CoordinatorEvent) :
    LockedOut (coordinator.step event) := by
  suffices hhandle : LockedOut (coordinator.handle event) from { hhandle with }
  cases event with
  | clock now => exact { h with }
  | submit id path queueDepth =>
    unfold handle submit
    dsimp only
    split
    · exact h
    · split
      · exact h
      · split
        · exact { h with }
        · rw [h.refuses queueDepth]
          exact { h with }
  | preflightEnds key outcome =>
    unfold handle
    dsimp only
    rw [h.preflight key]
    exact h
  | snapshotEnds key outcome =>
    unfold handle
    dsimp only
    rw [h.snapshot key]
    exact h
  | timerFires id =>
    unfold handle timeoutRecord
    dsimp only
    split
    · split
      · exact { h with }
      · exact { h with }
    · exact h
  | sendNext =>
    unfold handle
    dsimp only
    split
    · exact h
    · split
      · exact h
      · unfold perform
        dsimp only
        split
        · exact { h with }
        · split
          · exact { h with }
          · split
            · exact { h with }
            · exact { h with }
  | sendEnds => exact { h with }
  | invalidatePath realPath => exact { h with }

/-- A coordinator that has nothing to do and lets no request in is locked out. -/
theorem lockedOut_of_isIdle (hidle : coordinator.IsIdle)
    (hestimate : 0 ≤ coordinator.admission.tEstimateMs)
    (hrefuses : (coordinator.admission.decide 0).admitted = false) : LockedOut coordinator where
  preflight key := by rw [OrderedMap.get?, hidle.1]; rfl
  snapshot key := by rw [OrderedMap.get?, hidle.2]; rfl
  refuses queueDepth := by
    rw [Bool.eq_false_iff]
    intro hadmitted
    rw [PreviewReadAdmissionController.decide_zero_of_decide hestimate hadmitted] at hrefuses
    cases hrefuses

/-- **Once the file preview has locked itself out, it stays so.** -/
theorem lockedOut_run (hnew : coordinator.admission = .new options)
    (before after : List CoordinatorEvent) (hidle : (run step before coordinator).IsIdle)
    (hrefuses : ((run step before coordinator).admission.decide 0).admitted = false) :
    LockedOut (run step (before ++ after) coordinator) := by
  obtain ⟨durations, hdurations, heq⟩ := admission_run hnew before
  rw [run_append]
  exact run_invariant_all LockedOut (fun _ event h => h.step event)
    (lockedOut_of_isIdle hidle
      (PreviewReadAdmissionController.tEstimateMs_nonneg hdurations heq) hrefuses) after

end PreviewReadCoordinator

/-! ## When it happens -/

/-- Whenever there is nothing to do, the next request is let in. -/
def NeverLockedOut (start : PreviewReadCoordinator) (events : List CoordinatorEvent) : Prop :=
  ∀ before, before <+: events → (run PreviewReadCoordinator.step before start).IsIdle →
    ((run PreviewReadCoordinator.step before start).admission.decide 0).admitted = true

/-- **The file preview does not lock itself out** over a run exactly when the reads that count for
the estimate are mostly quick enough whenever there is nothing to do. -/
theorem neverLockedOut_iff (options : PreviewReadAdmissionOptions)
    (hnew : ((PreviewReadAdmissionController.new options).decide 0).admitted = true)
    (cache : PreviewReadCacheFacade) (attachedCap : Option ℚ)
    (errorCodes : PreviewReadCoordinatorErrorCodes) (now : ℚ) (events : List CoordinatorEvent) :
    NeverLockedOut (.new (.new options) cache attachedCap errorCodes now) events ↔
      ∀ before, before <+: events →
        (run PreviewReadCoordinator.step before
          (.new (.new options) cache attachedCap errorCodes now)).IsIdle →
        (run PreviewReadCoordinator.step before
          (.new (.new options) cache attachedCap errorCodes now)).admission.IsQuick := by
  refine forall_congr' fun before => imp_congr_right fun _ => imp_congr_right fun _ => ?_
  obtain ⟨durations, -, heq⟩ := @PreviewReadCoordinator.admission_run
    (.new (.new options) cache attachedCap errorCodes now) options rfl before
  exact PreviewReadAdmissionController.decide_zero_iff_isQuick hnew heq

/-- A file whose preflight takes twelve seconds. -/
def slowPreflight : List CoordinatorEvent :=
  [.submit (some "first") (some "/a.txt") 0, .clock 12000,
    .preflightEnds "/a.txt" (.error "internal_error")]

theorem neverLockedOut_iff_slowPreflight :
    NeverLockedOut (.new (.new {}) (.new "/" {}) none {} 0) slowPreflight ↔
      ∀ before, before <+: slowPreflight →
        (run PreviewReadCoordinator.step before
          (.new (.new {}) (.new "/" {}) none {} 0)).IsIdle →
        (run PreviewReadCoordinator.step before
          (.new (.new {}) (.new "/" {}) none {} 0)).admission.IsQuick :=
  neverLockedOut_iff {} (by decide +kernel) (.new "/" {}) none {} 0 slowPreflight

/-- No request is let in after it, though every job was over before its deadline. -/
theorem not_neverLockedOut : ¬∀ (options : PreviewReadAdmissionOptions)
    (cache : PreviewReadCacheFacade) (attachedCap : Option ℚ)
    (errorCodes : PreviewReadCoordinatorErrorCodes) (now : ℚ) (events : List CoordinatorEvent),
    ((PreviewReadAdmissionController.new options).decide 0).admitted = true →
    Along PreviewReadCoordinator.step PreviewReadCoordinator.EndsInTime events
      (.new (.new options) cache attachedCap errorCodes now) →
    NeverLockedOut (.new (.new options) cache attachedCap errorCodes now) events := by
  intro h
  have hadmitted := h {} (.new "/" {}) none {} 0 slowPreflight (by decide +kernel)
    (by decide +kernel) slowPreflight (List.prefix_refl _)
    ⟨by decide +kernel, by decide +kernel⟩
  exact absurd hadmitted (by decide +kernel)

end Imcodes.FilePreview
