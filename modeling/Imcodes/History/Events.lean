import Mathlib.Data.Rat.Floor
import Imcodes.Collections.JsonText
import Imcodes.Encodings.Utf8
import Imcodes.Queue.Types

/-!
# What the history of a transport session keeps of an event

* `shouldKeepTransportHistoryEvent` — which events are kept.
* `sanitizeTransportHistoryEvent` — what is kept of them: of calls and results of tools the listed
  fields, with at most 1 KiB of an output or an error; of a lost turn the fields of its recovery.
-/

namespace Imcodes.History

open Queue (jsTrim)

/-! ## Values -/

/-- `event.key === true` -/
def isTrue (event : Fields) (key : String) : Bool :=
  match event.read key with
  | some (.bool true) => true
  | _ => false

/-- `readObject`; an array is an object without any of the keys that are read. -/
def readObject : Option Json → Option Fields
  | some (.object fields) => some fields
  | some (.array _) => some []
  | _ => none

/-- How many code units of UTF-16 a character takes. -/
def units (c : Char) : ℕ := if c.toNat < 0x10000 then 1 else 2

/-- `text.slice(0, count)`; half a pair is shown as a replacement. -/
def sliceUnits : List Char → ℕ → List Char
  | [], _ => []
  | c :: text, count =>
    if units c ≤ count then c :: sliceUnits text (count - units c)
    else if count = 0 then []
    else [Utf8.replacement]

/-- `text.length` -/
def lengthUnits (text : List Char) : ℕ := (text.map units).sum

/-- `Buffer.byteLength(text, 'utf8')` -/
def byteLength (text : List Char) : ℕ := (Utf8.encode text).length

/-- `a ?? b` -/
def orNullish (a b : Option Json) : Option Json :=
  match a with
  | none => b
  | some .null => b
  | some value => some value

/-- The listed fields that the event has. -/
def pick (keys : List String) (event : Fields) : Fields :=
  keys.filterMap fun key => (event.read key).map (key, ·)

/-- A field that is left out for `undefined`. -/
def field (key : String) (value : Option Json) : Fields := (value.map (key, ·)).toList

/-! ## The recovery of a lost turn -/

def SDK_TURN_LOST_RECOVERY_STATUS : String := "sdk_turn_lost_recovery"

def SDK_TURN_LOST_RECOVERY_REASON : String := "sdk_turn_lost"

def SDK_TURN_LOST_CLASSIFIERS : List String :=
  ["idle_missing_turn", "not_loaded_with_active_lease", "start_grace_expired_no_current_turn"]

def SDK_TURN_LOST_REPLAY_DECISIONS : List String :=
  ["pending", "safe_replay", "unsafe_side_effect", "unsafe_ambiguous", "unsafe_terminal",
    "budget_exhausted", "failed", "not_applicable"]

def SDK_TURN_LOST_RECOVERY_PHASES : List String :=
  ["detected", "recovering", "recovered", "failed"]

/-- `Number.MAX_SAFE_INTEGER` -/
def MAX_SAFE_INTEGER : ℤ := 2 ^ 53 - 1

/-- The part of a text that is read, if it is not blank. -/
def readTrimmed (text : String) (maxLength : ℕ) : Option String :=
  if jsTrim text = "" then none
  else some (String.ofList (sliceUnits (jsTrim text).toList maxLength))

/-- `readString(source.key, maxLength)` -/
def readString (source : Fields) (key : String) (maxLength : ℕ) : Option String :=
  (source.string? key).bind (readTrimmed · maxLength)

/-- `readFiniteNumber(source.key)` -/
def readFiniteNumber (source : Fields) (key : String) : Option ℤ :=
  match source.read key with
  | some (.number value) => if value < 0 then none else some (min ⌊value⌋ MAX_SAFE_INTEGER)
  | _ => none

/-- One of a set of texts. -/
def readMember (texts : List String) (source : Fields) (key : String) : Option String :=
  (source.string? key).filter (· ∈ texts)

def sanitizeActivityGenerationValue (value : Option Json) : Option Json :=
  match value with
  | some (.number value) => some (.number value)
  | some (.string text) => (readTrimmed text 256).map .string
  | value =>
    match readObject value with
    | none => none
    | some object =>
      if object.string? "scope" ≠ some "session" then none
      else
        match readString object "sessionName" 256, readFiniteNumber object "generation" with
        | some sessionName, some generation =>
          some (.object [("scope", .string "session"), ("sessionName", .string sessionName),
            ("generation", .number generation)])
        | _, _ => none

/-- `normalizeActivityGeneration(value) !== null`, for a value that was sanitized -/
def isActivityGenerationLikeValue : Json → Bool
  | .number _ => true
  | .string text => jsTrim text ≠ ""
  | .object fields => jsTrim (Fields.text fields "sessionName") ≠ ""
  | _ => false

/-- `readSdkTurnLostRecoveryMetadata`, with no names expected -/
def readSdkTurnLostRecoveryMetadata (value : Option Json) : Option Fields := do
  let source ← readObject value
  let details := readObject (source.read "details")
  let candidate := ((details.bind fun d => readObject (d.read "metadata")).or details).getD source
  guard (candidate.string? "reason" = some SDK_TURN_LOST_RECOVERY_REASON)
  let localSessionKey ← readString candidate "localSessionKey" 512
  let activityGeneration ← sanitizeActivityGenerationValue (candidate.read "activityGeneration")
  guard (isActivityGenerationLikeValue activityGeneration)
  let classifier ← readMember SDK_TURN_LOST_CLASSIFIERS candidate "classifier"
  let replayDecision ← readMember SDK_TURN_LOST_REPLAY_DECISIONS candidate "replayDecision"
  let text := fun key => field key ((readString candidate key 512).map .string)
  let number := fun key => field key ((readFiniteNumber candidate key).map fun n => .number n)
  return [("reason", .string SDK_TURN_LOST_RECOVERY_REASON),
      ("localSessionKey", .string localSessionKey)] ++
    text "sessionName" ++ text "providerId" ++ text "providerSessionId" ++ text "codexThreadId" ++
    text "codexTurnId" ++ [("activityGeneration", activityGeneration)] ++
    number "leaseStartedAt" ++ number "lastStrongActivityAt" ++ number "lastProviderEventAt" ++
    number "heartbeatStartedAt" ++ number "heartbeatCompletedAt" ++ number "heartbeatDurationMs" ++
    number "heartbeatFailureCount" ++ number "silenceDurationMs" ++
    [("classifier", .string classifier)] ++ number "attempt" ++ text "recoveryAttemptId" ++
    text "correlationId" ++ [("replayDecision", .string replayDecision)] ++
    field "phase" ((readMember SDK_TURN_LOST_RECOVERY_PHASES candidate "phase").map .string)

/-! ## Which events are kept -/

/-- The other types of which events are shown, but for the statuses of a lost turn. -/
def RENDERABLE_TRANSPORT_HISTORY_TYPES : List String :=
  ["user.message", "assistant.text", "tool.call", "tool.result"]

def readToolCallId (event : Fields) : Option String :=
  ["toolCallId", "toolUseId", "callId", "id"].findSome? fun key =>
    ((event.string? key).map jsTrim).filter (· ≠ "")

def shouldKeepTransportHistoryEvent (event : Fields) : Bool :=
  if isTrue event "hidden" then false
  else if event.text "type" = "tool.call" then (readToolCallId event).isSome
  else if event.text "type" = "agent.status" then
    event.string? "status" = some SDK_TURN_LOST_RECOVERY_STATUS &&
      (readSdkTurnLostRecoveryMetadata (event.read "recovery")).isSome
  else event.text "type" ∈ RENDERABLE_TRANSPORT_HISTORY_TYPES

/-! ## What is kept of an event -/

def TRANSPORT_HISTORY_TOOL_RESULT_PREVIEW_BYTES : ℕ := 1024

def TRANSPORT_HISTORY_TRUNCATED_MARKER : List Char := "\n[transport result truncated]".toList

/-- `while (end > 0 && Buffer.byteLength(value.slice(0, end), 'utf8') > targetBytes)` -/
def shrinkEnd (value : List Char) (targetBytes stop : ℕ) : ℕ :=
  if 0 < stop ∧ targetBytes < byteLength (sliceUnits value stop) then
    shrinkEnd value targetBytes (stop * 9 / 10)
  else stop
termination_by stop
decreasing_by omega

def truncateStringByUtf8Bytes (value : String) (maxBytes : ℕ) : String × Bool :=
  if byteLength value.toList ≤ maxBytes then (value, false)
  else
    let targetBytes := maxBytes - byteLength TRANSPORT_HISTORY_TRUNCATED_MARKER
    let stop := shrinkEnd value.toList targetBytes (min (lengthUnits value.toList) targetBytes)
    (String.ofList (sliceUnits value.toList stop ++ TRANSPORT_HISTORY_TRUNCATED_MARKER), true)

def previewTransportResultValue : Json → Json × Bool
  | .string value =>
    let preview := truncateStringByUtf8Bytes value TRANSPORT_HISTORY_TOOL_RESULT_PREVIEW_BYTES
    (.string preview.1, preview.2)
  | .null => (.null, false)
  | .number value => (.number value, false)
  | .bool value => (.bool value, false)
  | _ => (.string "[non-string result omitted from transport history]", true)

/-- The field of a preview, and its name if it was truncated. -/
def previewField (key : String) (value : Option Json) : Fields × List String :=
  match value with
  | none => ([], [])
  | some value =>
    let preview := previewTransportResultValue value
    ([(key, preview.1)], if preview.2 then [key] else [])

def pickToolResultOutput (event : Fields) : Option Json :=
  match event.read "output" with
  | some output => some output
  | none =>
    (event.record? "detail").bind fun detail =>
      orNullish (detail.read "output") (detail.read "content")

def pickToolResultError (event : Fields) : Option Json :=
  match event.read "error" with
  | some error => some error
  | none => (event.record? "detail").bind (·.read "error")

def preserveTruncationMetadata (source : Fields) (fields : List String) : Fields :=
  let existingFields := (source.items "transportHistoryTruncatedFields").filterMap Json.string?
  let truncatedFields := (existingFields ++ fields).eraseDups
  if truncatedFields = [] ∧ ¬ isTrue source "transportHistoryTruncated" then []
  else
    [("transportHistoryTruncated", .bool true),
      ("transportHistoryLimitBytes", .number TRANSPORT_HISTORY_TOOL_RESULT_PREVIEW_BYTES)] ++
    if truncatedFields = [] then []
    else [("transportHistoryTruncatedFields", .array (truncatedFields.map .string))]

def sanitizeTransportHistoryEvent (event : Fields) : Fields :=
  if event.string? "type" = some "agent.status" then
    let out := ("type", .string "agent.status") :: pick ["sessionId", "_ts"] event
    match readSdkTurnLostRecoveryMetadata (event.read "recovery") with
    | none => out
    | some recovery =>
      out ++ [("status", .string SDK_TURN_LOST_RECOVERY_STATUS)] ++
        pick ["reason", "correlationId"] recovery ++
        field "phase" ((recovery.read "phase").or
          ((readMember SDK_TURN_LOST_RECOVERY_PHASES event "phase").map .string)) ++
        [("recovery", .object recovery)]
  else if event.string? "type" = some "tool.call" then
    ("type", .string "tool.call") ::
      pick ["sessionId", "toolCallId", "toolUseId", "callId", "id", "tool", "_ts",
        "activityGeneration"] event
  else if event.string? "type" ≠ some "tool.result" then event
  else
    let output := previewField "output" (pickToolResultOutput event)
    let error := previewField "error" (pickToolResultError event)
    ("type", .string "tool.result") ::
      pick ["sessionId", "toolCallId", "toolUseId", "callId", "id", "tool", "terminalStatus",
        "terminalReason", "activityGeneration", "synthetic", "source", "decisionReason",
        "idempotencyKey", "turnId", "itemKind", "_ts"] event ++
      output.1 ++ error.1 ++ preserveTruncationMetadata event (output.2 ++ error.2)

end Imcodes.History
