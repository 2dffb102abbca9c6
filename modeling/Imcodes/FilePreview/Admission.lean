import Mathlib.Data.Rat.Floor
import Imcodes.Collections.Median

/-!
# Who may read a file preview

`PreviewReadAdmissionController` lets a request in as long as the reads before it and its own are
likely to be over before its deadline.  What a read takes is estimated by the median of the last
ones.
-/

namespace Imcodes.FilePreview

open Median

/-- `Math.trunc` -/
def trunc (x : ℚ) : ℤ := if 0 ≤ x then ⌊x⌋ else ⌈x⌉

/-- `DEFAULT_PREVIEW_READ_*` -/
def defaultWorkersTarget : ℚ := 2
@[inherit_doc defaultWorkersTarget] def defaultPoolQueueCap : ℚ := 32
@[inherit_doc defaultWorkersTarget] def defaultDeadlineMs : ℚ := 18000
@[inherit_doc defaultWorkersTarget] def defaultSafetyMarginMs : ℚ := 2000
@[inherit_doc defaultWorkersTarget] def defaultTEstimateMs : ℚ := 1500
@[inherit_doc defaultWorkersTarget] def defaultEstimateSampleSize : ℚ := 16
@[inherit_doc defaultWorkersTarget] def defaultAttachedCap : ℚ := 32

/-- `PreviewReadAdmissionOptions`, of finite numbers -/
structure PreviewReadAdmissionOptions where
  workersTarget : Option ℚ := none
  queueCap : Option ℚ := none
  attachedCap : Option ℚ := none
  deadlineMs : Option ℚ := none
  safetyMarginMs : Option ℚ := none
  tEstimateMs : Option ℚ := none
  estimateSampleSize : Option ℚ := none

/-- `clampPreviewReadWorkersTarget` -/
def clampPreviewReadWorkersTarget (value : ℚ) : ℤ := min 4 (max 1 (trunc value))

/-- `PreviewReadAdmissionController` -/
structure PreviewReadAdmissionController where
  workersTarget : ℤ
  queueCap : ℤ
  attachedCap : ℤ
  deadlineMs : ℤ
  safetyMarginMs : ℤ
  estimateSampleSize : ℤ
  seededEstimateMs : ℤ
  completedDurationsMs : List ℚ
  workersTarget_pos : 0 < workersTarget

theorem clampPreviewReadWorkersTarget_pos (value : ℚ) :
    0 < clampPreviewReadWorkersTarget value :=
  lt_min (by decide) (lt_of_lt_of_le (by decide) (le_max_left _ _))

/-- The controller that the constructor makes. -/
def PreviewReadAdmissionController.new (options : PreviewReadAdmissionOptions) :
    PreviewReadAdmissionController where
  workersTarget := clampPreviewReadWorkersTarget
    (options.workersTarget.getD defaultWorkersTarget)
  queueCap := max 0 (trunc (options.queueCap.getD defaultPoolQueueCap))
  attachedCap := max 1 (trunc (options.attachedCap.getD defaultAttachedCap))
  deadlineMs := max 1 (trunc (options.deadlineMs.getD defaultDeadlineMs))
  safetyMarginMs := max 0 (trunc (options.safetyMarginMs.getD defaultSafetyMarginMs))
  estimateSampleSize := max 1 (trunc (options.estimateSampleSize.getD defaultEstimateSampleSize))
  seededEstimateMs := max 1 (trunc (options.tEstimateMs.getD defaultTEstimateMs))
  completedDurationsMs := []
  workersTarget_pos := clampPreviewReadWorkersTarget_pos _

/-- `PreviewReadAdmissionRejectReason` -/
inductive PreviewReadAdmissionRejectReason
  | queueCap
  | projectedWait
deriving DecidableEq

/-- `PreviewReadAdmissionDecision` -/
structure PreviewReadAdmissionDecision where
  admitted : Bool
  projectedWaitMs : ℚ
  projectedTotalMs : ℚ
  availableBudgetMs : ℚ
  reason : Option PreviewReadAdmissionRejectReason := none
deriving DecidableEq

namespace PreviewReadAdmissionController

/-- `tEstimateMs` -/
def tEstimateMs (controller : PreviewReadAdmissionController) : ℚ :=
  if controller.completedDurationsMs = [] then controller.seededEstimateMs
  else median controller.completedDurationsMs

/-- `recordJobDuration` -/
def recordJobDuration (controller : PreviewReadAdmissionController) (durationMs : ℚ) :
    PreviewReadAdmissionController :=
  if durationMs < 0 then controller
  else
    let durations := controller.completedDurationsMs ++ [durationMs]
    { controller with
      completedDurationsMs :=
        durations.drop (durations.length - controller.estimateSampleSize.toNat) }

/-- `decide` -/
def decide (controller : PreviewReadAdmissionController) (queueDepth : ℚ) :
    PreviewReadAdmissionDecision :=
  let boundedQueueDepth := max 0 (trunc queueDepth)
  let projectedWaitMs := (boundedQueueDepth + 1) * controller.tEstimateMs / controller.workersTarget
  let projectedTotalMs := projectedWaitMs + controller.tEstimateMs
  let availableBudgetMs : ℚ := controller.deadlineMs - controller.safetyMarginMs
  if boundedQueueDepth ≥ controller.queueCap then
    { admitted := false
      projectedWaitMs
      projectedTotalMs
      availableBudgetMs
      reason := some .queueCap }
  else if projectedTotalMs > availableBudgetMs then
    { admitted := false
      projectedWaitMs
      projectedTotalMs
      availableBudgetMs
      reason := some .projectedWait }
  else
    { admitted := true
      projectedWaitMs
      projectedTotalMs
      availableBudgetMs }

/-- The longest estimate with which a request is let in when no other one waits. -/
def longestEstimateMs (controller : PreviewReadAdmissionController) : ℚ :=
  (controller.deadlineMs - controller.safetyMarginMs) * controller.workersTarget /
    (controller.workersTarget + 1)

variable {controller : PreviewReadAdmissionController} {durationMs : ℚ}

@[simp] theorem trunc_zero : trunc 0 = 0 := rfl

/-- A request is let in when no other one waits exactly when the queue has room and the estimate is
not too long. -/
theorem decide_zero_iff : (controller.decide 0).admitted = true ↔
    0 < controller.queueCap ∧ controller.tEstimateMs ≤ controller.longestEstimateMs := by
  have hworkers : (0 : ℚ) < controller.workersTarget := by
    exact_mod_cast controller.workersTarget_pos
  have htotal : ((0 : ℤ) + 1 : ℚ) * controller.tEstimateMs / controller.workersTarget +
      controller.tEstimateMs ≤ controller.deadlineMs - controller.safetyMarginMs ↔
      controller.tEstimateMs ≤ controller.longestEstimateMs := by
    have hsum : ((0 : ℤ) + 1 : ℚ) * controller.tEstimateMs / controller.workersTarget +
        controller.tEstimateMs = controller.tEstimateMs * (controller.workersTarget + 1) /
          controller.workersTarget := by
      push_cast
      field_simp
      ring
    rw [longestEstimateMs, le_div_iff₀ (by linarith), hsum, div_le_iff₀ hworkers]
  rw [← htotal, decide]
  rw [trunc_zero, max_self]
  split
  · rename_i hfull
    exact iff_of_false Bool.false_ne_true fun h => absurd h.1 (not_lt.2 hfull)
  · rename_i hroom
    split
    · rename_i hlong
      exact iff_of_false Bool.false_ne_true fun h => absurd h.2 (not_le.2 hlong)
    · rename_i hshort
      exact iff_of_true rfl ⟨not_le.1 hroom, not_lt.1 hshort⟩

/-- A request that is let in behind others is let in when no other one waits. -/
theorem decide_zero_of_decide (hestimate : 0 ≤ controller.tEstimateMs) {queueDepth : ℚ}
    (h : (controller.decide queueDepth).admitted = true) :
    (controller.decide 0).admitted = true := by
  have hworkers : (0 : ℚ) < controller.workersTarget := by
    exact_mod_cast controller.workersTarget_pos
  have hdepth : 0 ≤ max 0 (trunc queueDepth) := le_max_left _ _
  have hcast : (0 : ℚ) ≤ ((max 0 (trunc queueDepth) : ℤ) : ℚ) := by exact_mod_cast hdepth
  rw [decide] at h ⊢
  rw [trunc_zero, max_self]
  split at h
  · cases h
  · rename_i hroom
    split at h
    · cases h
    · rename_i htime
      have hwait : ((0 : ℤ) + 1 : ℚ) * controller.tEstimateMs / controller.workersTarget ≤
          (((max 0 (trunc queueDepth) : ℤ) : ℚ) + 1) * controller.tEstimateMs /
            controller.workersTarget := by
        refine div_le_div_of_nonneg_right (mul_le_mul_of_nonneg_right ?_ hestimate) hworkers.le
        rw [Int.cast_zero]
        linarith
      rw [if_neg (not_le.2 (lt_of_le_of_lt hdepth (not_le.1 hroom))),
        if_neg (not_lt.2 ((add_le_add_left hwait _).trans (not_lt.1 htime)))]

end PreviewReadAdmissionController

end Imcodes.FilePreview
