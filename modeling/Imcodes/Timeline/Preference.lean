import Mathlib.Data.Prod.Lex
import Mathlib.Algebra.Order.Ring.Rat
import Mathlib.Order.WithBot
import Imcodes.Collections.Json
import Imcodes.Collections.Versions

/-!
# Which version of a timeline event is preferred

A timeline event and `preferTimelineEvent`, which settles a conflict between two events with
the same id.

* `preferTimelineEvent_eq` — the five comparisons are one comparison of ranks in lexicographic
  order; the incoming event wins when the ranks are equal.
-/

namespace Imcodes.Timeline

/-- `TimelineEvent`; the optional fields of the event itself are in `fields`. -/
structure TimelineEvent where
  eventId : String
  sessionId : String
  ts : ℚ
  seq : ℚ
  epoch : Option ℚ
  source : String
  confidence : String
  type : String
  payload : Fields
  fields : Fields

/-- `fields.key === true` -/
def isTrue (fields : Fields) (key : String) : Bool :=
  match fields.read key with
  | some (.bool value) => value
  | _ => false

/-- `isStreaming` -/
def isStreaming (event : TimelineEvent) : Bool := isTrue event.payload "streaming"

/-- `hasDetailRefs(fields.detailRefs)` -/
def hasDetailRefs (fields : Fields) : Bool := (fields.items "detailRefs").length > 0

/-- A value that `??` does not pass over. -/
def nullish (value : Option Json) : Option Json :=
  value.bind fun
    | .null => none
    | value => some value

/-- `getCompletenessRank` -/
def getCompletenessRank (event : TimelineEvent) : ℕ :=
  let payload := event.payload
  let completeness := ((nullish (payload.read "completeness")).or
    ((nullish (payload.read "timelineCompleteness")).or
      ((nullish (event.fields.read "completeness")).or
        (event.fields.read "timelineCompleteness")))).bind Json.string?
  if completeness = some "hydrated" then 2
  else if completeness = some "full" then 1
  else if isTrue payload "historyPayloadTruncated" then 0
  else if isTrue payload "payloadTruncated" then 0
  else if isTrue payload "timelinePayloadTruncated" then 0
  else if payload.string? "completeness" = some "preview" then 0
  else if payload.string? "timelineCompleteness" = some "preview" then 0
  else if event.fields.string? "completeness" = some "preview" then 0
  else if event.fields.string? "timelineCompleteness" = some "preview" then 0
  else if hasDetailRefs payload then 0
  else if hasDetailRefs event.fields then 0
  else if (payload.record? "detail").any (isTrue · "truncated") then 0
  else 1

/-- `compareCompleteness` -/
def compareCompleteness (existing incoming : TimelineEvent) : ℤ :=
  let existingRank := getCompletenessRank existing
  let incomingRank := getCompletenessRank incoming
  if existingRank = incomingRank then 0 else if incomingRank > existingRank then 1 else -1

/-- A number, or `-Infinity` where there is none. -/
def orInfinity : Option ℚ → WithBot ℚ
  | some value => value
  | none => ⊥

/-- `compareNumbers` -/
def compareNumbers (a b : Option ℚ) : ℤ :=
  let left := orInfinity a
  let right := orInfinity b
  if left = right then 0 else if left > right then 1 else -1

/-- `preferTimelineEvent`: whether the incoming event is the preferred one -/
def prefersIncoming (existing incoming : TimelineEvent) : Bool :=
  let completenessCmp := compareCompleteness existing incoming
  if completenessCmp ≠ 0 then completenessCmp > 0
  else if isStreaming existing ≠ isStreaming incoming then !isStreaming incoming
  else
    let epochCmp := compareNumbers incoming.epoch existing.epoch
    if epochCmp ≠ 0 then epochCmp > 0
    else
      let seqCmp := compareNumbers (some incoming.seq) (some existing.seq)
      if seqCmp ≠ 0 then seqCmp > 0
      else
        let tsCmp := compareNumbers (some incoming.ts) (some existing.ts)
        if tsCmp ≠ 0 then tsCmp > 0 else true

/-- `preferTimelineEvent` -/
def preferTimelineEvent (existing incoming : TimelineEvent) : TimelineEvent :=
  if prefersIncoming existing incoming then incoming else existing

/-! ## The comparison as one rank -/

/-- What the five comparisons look at, the first one first. -/
def preference (event : TimelineEvent) : ℕ ×ₗ Bool ×ₗ WithBot ℚ ×ₗ ℚ ×ₗ ℚ :=
  toLex (getCompletenessRank event, toLex (!isStreaming event,
    toLex (orInfinity event.epoch, toLex (event.seq, event.ts))))

/-- A comparison that decides unless it finds the same. -/
theorem three_way {κ : Type*} [LinearOrder κ] (left right : κ) (rest : Bool) :
    (if (if left = right then 0 else if left > right then (1 : ℤ) else -1) ≠ 0 then
      decide ((if left = right then 0 else if left > right then (1 : ℤ) else -1) > 0)
    else rest) = decide (right < left ∨ right = left ∧ rest = true) := by
  rcases lt_trichotomy left right with h | rfl | h
  · simp [h.ne, h.not_gt, h.ne']
  · simp
  · simp [h, h.ne']

theorem prefersIncoming_iff {existing incoming : TimelineEvent} :
    prefersIncoming existing incoming = true ↔ preference existing ≤ preference incoming := by
  have hseq : ∀ a b : ℚ, orInfinity (some a) < orInfinity (some b) ↔ a < b :=
    fun _ _ => WithBot.coe_lt_coe
  have hseq' : ∀ a b : ℚ, orInfinity (some a) = orInfinity (some b) ↔ a = b :=
    fun _ _ => WithBot.coe_inj
  have hcompleteness : ∀ rest : Bool,
      (if compareCompleteness existing incoming ≠ 0 then
        decide (compareCompleteness existing incoming > 0) else rest) =
      decide (getCompletenessRank existing < getCompletenessRank incoming ∨
        getCompletenessRank existing = getCompletenessRank incoming ∧ rest = true) := by
    intro rest
    rw [← three_way, compareCompleteness]
    simp only [eq_comm]
  have hstreaming : ∀ rest : Bool,
      (if isStreaming existing ≠ isStreaming incoming then !isStreaming incoming else rest) =
      decide ((!isStreaming existing) < (!isStreaming incoming) ∨
        (!isStreaming existing) = (!isStreaming incoming) ∧ rest = true) := by
    intro rest
    cases isStreaming existing <;> cases isStreaming incoming <;> cases rest <;> decide
  have hnumbers : ∀ (a b : Option ℚ) (rest : Bool),
      (if compareNumbers a b ≠ 0 then decide (compareNumbers a b > 0) else rest) =
        decide (orInfinity b < orInfinity a ∨ orInfinity b = orInfinity a ∧ rest = true) :=
    fun a b rest => three_way (orInfinity a) (orInfinity b) rest
  unfold prefersIncoming
  dsimp only
  rw [hcompleteness, hstreaming, hnumbers, hnumbers, hnumbers]
  simp only [decide_eq_true_eq, preference, Prod.Lex.toLex_le_toLex, hseq, hseq', and_true]
  rw [le_iff_lt_or_eq (a := existing.ts)]

/-- The preferred event is the one of the later rank. -/
theorem preferTimelineEvent_eq (existing incoming : TimelineEvent) :
    preferTimelineEvent existing incoming = Versions.prefer preference existing incoming := by
  unfold preferTimelineEvent Versions.prefer
  exact if_congr prefersIncoming_iff rfl rfl

end Imcodes.Timeline
