import Imcodes.Collections.JsonText
import Imcodes.Encodings.Utf8Head
import Imcodes.Workflow.Validators

/-!
# The machine output of a script

A script writes frames, one JSON object a line. Output over the cap is cut to the lines that ended
below it.

* `parse_lenient` — what the lenient mode returns, in terms of the lines that are read.
* `frames_iff` — these are the frames of the lines below the cap, unless the cut takes away the byte
  order mark that kept the first line from being one.

What `JSON.parse` makes of a text and how `JSON.stringify` writes a number are parameters.
-/

namespace Imcodes.Workflow

open Utf8 (encode decode replacement takeBytes linesWithin)

/-! ## Caps and modes -/

def p2pScriptMachineOutputKind : String := "p2p_script_machine_output_v1"
def p2pScriptDefaultMachineOutputMaxBytes : ℕ := 128 * 1024
def defaultP2pScriptMachineOutputFrameMaxBytes : ℕ := 16 * 1024

inductive P2pScriptMachineOutputParseMode
  | lenientLastValid | strict
deriving DecidableEq

/-- The fields that a frame may be required to have. -/
inductive P2pScriptFrameField
  | routingKey | variables | artifacts
deriving DecidableEq

def P2pScriptFrameField.key : P2pScriptFrameField → String
  | .routingKey => "routingKey"
  | .variables => "variables"
  | .artifacts => "artifacts"

structure P2pScriptMachineOutputParseOptions where
  mode : Option P2pScriptMachineOutputParseMode := none
  maxTotalBytes : Option ℕ := none
  maxFrameBytes : Option ℕ := none
  requiredFields : Option (List P2pScriptFrameField) := none
deriving DecidableEq

inductive P2pScriptMachineOutputParseResult
  | ok (frames : List Fields) (finalFrame : Fields) (diagnostics : List P2pWorkflowDiagnostic)
      (truncated : Bool)
  | failed (diagnostics : List P2pWorkflowDiagnostic) (truncated : Bool)

def invalidMachineOutput (summary : String) (truncated : Bool := false) :
    P2pScriptMachineOutputParseResult :=
  .failed [makeP2pWorkflowDiagnostic .scriptMachineOutputInvalid .execute { summary }] truncated

def makeP2pWorkflowWarning (code : P2pWorkflowDiagnosticCode)
    (phase : P2pWorkflowDiagnosticPhase) (extras : DiagnosticExtras := {}) :
    P2pWorkflowDiagnostic :=
  { makeP2pWorkflowDiagnostic code phase extras with severity := .warning }

def machineOutputDiagnostic (summary : String) : P2pScriptMachineOutputParseMode →
    P2pWorkflowDiagnostic
  | .strict => makeP2pWorkflowDiagnostic .scriptMachineOutputInvalid .execute { summary }
  | .lenientLastValid => makeP2pWorkflowWarning .scriptMachineOutputInvalid .execute { summary }

/-! ## Frames -/

section Frames

variable (numbers : Json.NumberText)

def isWorkflowVariableValue : Json → Bool
  | .string _ | .number _ | .bool _ => true
  | .array items => items.all (·.string?.isSome)
  | _ => false

def isVariablesRecord (value : Json) : Bool :=
  value.record?.any (·.all fun (key, entry) =>
    isVariableName key && isWorkflowVariableValue entry &&
      (encode (Json.stringify numbers entry)).length ≤ p2pWorkflowMaxVariableBytes)

def isArtifactOutputArray : Json → Bool
  | .array items => items.all fun entry => entry.record?.any fun entry =>
      (entry.string? "path").any isP2pArtifactRelativePath &&
        (entry.read "sha256").all (·.string?.isSome)
  | _ => false

/-- The value as a frame, if it is one. -/
def isP2pScriptMachineOutputFrame (value : Json) : Option Fields :=
  value.record?.filter fun frame =>
    frame.string? "kind" = some p2pScriptMachineOutputKind &&
    (frame.read "status").all (fun status => status.string?.any (· ∈ ["ok", "fail"])) &&
    (frame.read "routingKey").all (·.string?.isSome) &&
    (frame.read "displaySummary").all (·.string?.isSome) &&
    (frame.read "variables").all (isVariablesRecord numbers) &&
    (frame.read "artifacts").all isArtifactOutputArray

def hasRequiredFields (frame : Fields) (fields : List P2pScriptFrameField) : Bool :=
  fields.all fun field => (frame.read field.key).isSome

end Frames

/-! ## Lines -/

/-- The byte order mark. -/
def byteOrderMark : Char := '\ufeff'

def dropMark : List Char → List Char
  | [] => []
  | c :: text => if c = byteOrderMark then text else c :: text

/-- `new TextDecoder('utf-8').decode(bytes)`, which leaves out a byte order mark. -/
def decodeText (bytes : List UInt8) : List Char := dropMark (decode bytes)

/-- The replacements at the end are taken away. -/
def byteSlice (value : List Char) (maxBytes : ℕ) : List Char :=
  if (encode value).length ≤ maxBytes then value
  else (decodeText ((encode value).take maxBytes)).rdropWhile (· = replacement)

/-- A line without the `\r` at its end. -/
def chomp (line : List Char) : List Char :=
  if line.getLast? = some '\r' then line.dropLast else line

/-- `text.split(/\r?\n/)` -/
def splitLines (text : List Char) : List (List Char) :=
  (Lines.ended '\n' text).map chomp ++ [Lines.unended '\n' text]

/-! ## The parser -/

section Parser

variable (parse : List Char → Option Json) (numbers : Json.NumberText)
  (options : P2pScriptMachineOutputParseOptions)

/-- The frame of a line, or what is wrong with it. -/
def readFrame (lineNumber : ℕ) (line : List Char) : Except String Fields :=
  let maxFrameBytes := options.maxFrameBytes.getD defaultP2pScriptMachineOutputFrameMaxBytes
  let frameBytes := (encode line).length
  if maxFrameBytes < frameBytes then
    .error s!"line {lineNumber} exceeds frame byte cap ({frameBytes}/{maxFrameBytes})."
  else
    match parse line with
    | none => .error s!"line {lineNumber} is not valid JSON."
    | some parsed =>
      match (isP2pScriptMachineOutputFrame numbers parsed).filter
          (hasRequiredFields · (options.requiredFields.getD [])) with
      | none =>
        .error s!"line {lineNumber} is not a valid {p2pScriptMachineOutputKind} frame."
      | some frame => .ok frame

/-- The lines from one on; the strict mode stops at the first that is no frame. -/
def readFrames (mode : P2pScriptMachineOutputParseMode) : ℕ → List (List Char) →
    Except P2pWorkflowDiagnostic (List Fields × List P2pWorkflowDiagnostic)
  | _, [] => .ok ([], [])
  | index, line :: lines =>
    match readFrame parse numbers options (index + 1) line with
    | .ok frame =>
      (readFrames mode (index + 1) lines).map fun later => (frame :: later.1, later.2)
    | .error summary =>
      if mode = .strict then .error (machineOutputDiagnostic summary mode)
      else
        (readFrames mode (index + 1) lines).map fun later =>
          (later.1, machineOutputDiagnostic summary mode :: later.2)

/-- The byte cap of the whole output. -/
def P2pScriptMachineOutputParseOptions.totalCap : ℕ :=
  options.maxTotalBytes.getD p2pScriptDefaultMachineOutputMaxBytes

/-- What is left of the input: over the cap, up to the last line break below it. -/
def parseInput (input : List Char) : List Char :=
  if options.totalCap < (encode input).length then
    Lines.untilLast '\n' (byteSlice input options.totalCap)
  else input

def parseP2pScriptMachineOutput (input : List Char) : P2pScriptMachineOutputParseResult :=
  let mode := options.mode.getD .lenientLastValid
  let maxTotalBytes := options.totalCap
  let totalBytes := (encode input).length
  let truncated := decide (maxTotalBytes < totalBytes)
  if truncated ∧ mode = .strict then
    invalidMachineOutput
      s!"machine output exceeds total byte cap ({totalBytes}/{maxTotalBytes})."
  else
    let lines := (splitLines (parseInput options input)).filter fun line =>
      !isBlank (String.ofList line)
    match readFrames parse numbers options mode 0 lines with
    | .error diagnostic => .failed [diagnostic] false
    | .ok (frames, diagnostics) =>
      match frames.getLast? with
      | none => invalidMachineOutput "no valid machine output frames were found." truncated
      | some finalFrame =>
        let notice := s!"machine output truncated at {maxTotalBytes} bytes; " ++
          "some trailing frames discarded."
        .ok frames finalFrame
          ((if truncated then
            [makeP2pWorkflowWarning .scriptMachineOutputInvalid .execute { summary := notice }]
          else []) ++ diagnostics) truncated

/-! ## Frames of lines -/

/-- The frame on a line, if there is one. -/
def frameOn (line : List Char) : Option Fields :=
  if isBlank (String.ofList line) then none
  else (readFrame parse numbers options 0 line).toOption

/-- The frames on lines. -/
def validFrames (lines : List (List Char)) : List Fields :=
  lines.filterMap (frameOn parse numbers options)

end Parser

namespace P2pScriptMachineOutputParseResult

def frames : P2pScriptMachineOutputParseResult → List Fields
  | ok frames .. => frames
  | failed .. => []

def finalFrame? : P2pScriptMachineOutputParseResult → Option Fields
  | ok _ finalFrame .. => some finalFrame
  | failed .. => none

end P2pScriptMachineOutputParseResult

variable {parse : List Char → Option Json} {numbers : Json.NumberText}
  {options : P2pScriptMachineOutputParseOptions} {input line text : List Char}
  {lines : List (List Char)} {index count : ℕ}

/-- The number of a line is only for what is wrong with it. -/
theorem toOption_readFrame : (readFrame parse numbers options index line).toOption =
    (readFrame parse numbers options 0 line).toOption := by
  rw [readFrame, readFrame]
  by_cases hlong : options.maxFrameBytes.getD defaultP2pScriptMachineOutputFrameMaxBytes <
      (encode line).length
  · rw [if_pos hlong, if_pos hlong, Except.toOption, Except.toOption]
  · rw [if_neg hlong, if_neg hlong]
    cases parse line with
    | none => rw [Except.toOption, Except.toOption]
    | some parsed =>
      dsimp only
      cases (isP2pScriptMachineOutputFrame numbers parsed).filter
        (hasRequiredFields · (options.requiredFields.getD [])) <;> rfl

/-- The lenient mode passes over a line that is no frame. -/
theorem readFrames_lenient : ∃ diagnostics,
    readFrames parse numbers options .lenientLastValid index lines =
      .ok (lines.filterMap fun line => (readFrame parse numbers options 0 line).toOption,
        diagnostics) := by
  induction lines generalizing index with
  | nil => exact ⟨[], rfl⟩
  | cons line lines ih =>
    obtain ⟨diagnostics, hlater⟩ := @ih (index + 1)
    have hline := @toOption_readFrame parse numbers options line (index + 1)
    rw [readFrames, hlater, List.filterMap_cons, ← hline]
    cases readFrame parse numbers options (index + 1) line with
    | ok frame => exact ⟨diagnostics, rfl⟩
    | error summary => exact ⟨_ :: diagnostics, rfl⟩

/-- **The lenient mode** returns the frames of the lines that it reads, and the last of them. -/
theorem parse_lenient (hmode : options.mode ≠ some .strict) :
    let result := parseP2pScriptMachineOutput parse numbers options input
    result.frames = validFrames parse numbers options (splitLines (parseInput options input)) ∧
      result.finalFrame? = result.frames.getLast? := by
  have hlenient : options.mode.getD .lenientLastValid = .lenientLastValid := by
    cases hsome : options.mode with
    | none => rfl
    | some mode =>
      cases mode with
      | lenientLastValid => rfl
      | strict => exact absurd hsome hmode
  have hfilter : validFrames parse numbers options (splitLines (parseInput options input)) =
      ((splitLines (parseInput options input)).filter fun line =>
        !isBlank (String.ofList line)).filterMap fun line =>
          (readFrame parse numbers options 0 line).toOption := by
    rw [validFrames, List.filterMap_filter]
    refine List.filterMap_congr fun line _ => ?_
    rw [frameOn]
    cases isBlank (String.ofList line) <;> rfl
  obtain ⟨diagnostics, hread⟩ : ∃ diagnostics,
      readFrames parse numbers options .lenientLastValid 0
        ((splitLines (parseInput options input)).filter fun line =>
          !isBlank (String.ofList line)) =
        .ok (validFrames parse numbers options (splitLines (parseInput options input)),
          diagnostics) := by
    rw [hfilter]
    exact readFrames_lenient
  dsimp only
  rw [parseP2pScriptMachineOutput, hlenient]
  dsimp only
  rw [if_neg fun h => absurd h.2 (by decide), hread]
  dsimp only
  cases hlast : (validFrames parse numbers options (splitLines (parseInput options input))).getLast?
    with
  | none =>
    rw [List.getLast?_eq_none_iff.1 hlast]
    exact ⟨rfl, rfl⟩
  | some finalFrame => exact ⟨rfl, hlast.symm⟩

/-! ## The cut -/

/-- The lines of the input that may be read: over the cap, those that end below it. -/
def linesBelowCap (options : P2pScriptMachineOutputParseOptions) (input : List Char) :
    List (List Char) :=
  if options.totalCap < (encode input).length then
    (linesWithin options.totalCap (Lines.ended '\n' input)).map chomp
  else splitLines input

/-- **The cut**: what is left is lines that end, the first of them without a byte order mark. -/
theorem splitLines_parseInput (hover : options.totalCap < (encode input).length) :
    splitLines (parseInput options input) =
      (Lines.ended '\n' (dropMark (takeBytes options.totalCap input))).map chomp ++ [[]] := by
  obtain ⟨cut, hcut⟩ := @Utf8.decode_take input options.totalCap
  have hreplacement (text : List Char) : dropMark (replacement :: text) = replacement :: text := by
    have hne : replacement ≠ byteOrderMark := by decide
    rw [dropMark, if_neg hne]
  have hmark : dropMark (takeBytes options.totalCap input ++ List.replicate cut replacement) =
      dropMark (takeBytes options.totalCap input) ++ List.replicate cut replacement := by
    cases takeBytes options.totalCap input with
    | nil =>
      cases cut with
      | zero => rfl
      | succ cut => exact hreplacement _
    | cons c text =>
      rw [List.cons_append, dropMark, dropMark]
      split <;> rfl
  have hreplacements : '\n' ∉ List.replicate cut replacement := fun hmem =>
    absurd (List.eq_of_mem_replicate hmem) (by decide)
  rw [parseInput, if_pos hover, byteSlice, if_neg (Nat.not_le_of_lt hover),
    Lines.untilLast_rdropWhile (by decide), decodeText, hcut, hmark,
    Lines.untilLast_append_last hreplacements, splitLines, (Lines.ended_untilLast _).1,
    (Lines.ended_untilLast _).2]

/-- Over the cap, the first line below it is a byte order mark and a frame. -/
def HidesFrame (parse : List Char → Option Json) (numbers : Json.NumberText)
    (options : P2pScriptMachineOutputParseOptions) (input : List Char) : Prop :=
  options.totalCap < (encode input).length ∧ ∃ line lines,
    linesWithin options.totalCap (Lines.ended '\n' input) = (byteOrderMark :: line) :: lines ∧
      (frameOn parse numbers options (chomp line)).isSome

theorem validFrames_append {lines' : List (List Char)} :
    validFrames parse numbers options (lines ++ lines') =
      validFrames parse numbers options lines ++ validFrames parse numbers options lines' :=
  List.filterMap_append

theorem validFrames_cons : validFrames parse numbers options (line :: lines) =
    (frameOn parse numbers options line).toList ++ validFrames parse numbers options lines := by
  rw [validFrames, List.filterMap_cons]
  cases frameOn parse numbers options line <;> rfl

theorem validFrames_nil_line : validFrames parse numbers options [[]] = [] := rfl

/-- No JSON begins with a byte order mark. -/
theorem frameOn_mark (hparse : ∀ text, parse (byteOrderMark :: text) = none) :
    frameOn parse numbers options (chomp (byteOrderMark :: line)) = none := by
  have hchomp : chomp (byteOrderMark :: line) = byteOrderMark :: chomp line := by
    cases line with
    | nil => rfl
    | cons c line =>
      rw [chomp, chomp, List.getLast?_cons_cons]
      split <;> rfl
  rw [hchomp, frameOn, readFrame, hparse]
  dsimp only
  split
  · rfl
  · split <;> rfl

/-- **Over the cap** the frames are those of the lines below it, but for a hidden one. -/
theorem validFrames_parseInput (hparse : ∀ text, parse (byteOrderMark :: text) = none) :
    validFrames parse numbers options (splitLines (parseInput options input)) =
        validFrames parse numbers options (linesBelowCap options input) ↔
      ¬ HidesFrame parse numbers options input := by
  by_cases hover : options.totalCap < (encode input).length
  · have hlines := @Utf8.ended_takeBytes options.totalCap input
    rw [splitLines_parseInput hover, linesBelowCap, if_pos hover, HidesFrame, ← hlines,
      validFrames_append, validFrames_nil_line, List.append_nil]
    cases takeBytes options.totalCap input with
    | nil => simp [dropMark, Lines.ended_last]
    | cons c text =>
      by_cases hmark : c = byteOrderMark
      · subst hmark
        rw [dropMark, if_pos rfl, Lines.ended_cons (by decide)]
        cases Lines.ended '\n' text with
        | nil => simp
        | cons line lines =>
          rw [List.modifyHead_cons, List.map_cons, List.map_cons, validFrames_cons,
            validFrames_cons, frameOn_mark hparse]
          cases hframe : frameOn parse numbers options (chomp line) <;> simp [hover, hframe]
      · rw [dropMark, if_neg hmark]
        refine iff_of_true rfl ?_
        rintro ⟨-, line, lines, hfirst, -⟩
        exact hmark (Lines.eq_of_ended_cons hfirst)
  · rw [parseInput, if_neg hover, linesBelowCap, if_neg hover]
    exact iff_of_true rfl fun h => hover h.1

/-- The lines below the cap are the first lines. -/
theorem linesBelowCap_prefix : linesBelowCap options input <+: splitLines input := by
  rw [linesBelowCap]
  split
  · exact (Utf8.linesWithin_prefix.map chomp).trans (List.prefix_append _ _)
  · exact List.prefix_rfl

/-- Under a cap that the output does not exceed, all lines are read. -/
theorem frames_uncapped (hmode : options.mode ≠ some .strict) :
    (parseP2pScriptMachineOutput parse numbers
      { options with maxTotalBytes := some (encode input).length } input).frames =
        validFrames parse numbers options (splitLines input) := by
  have hmode' : { options with maxTotalBytes := some (encode input).length }.mode ≠
      some .strict := hmode
  have hwhole : parseInput { options with maxTotalBytes := some (encode input).length } input =
      input := if_neg (Nat.lt_irrefl _)
  rw [(parse_lenient hmode').1, hwhole]
  rfl

/-- **The frames of machine output** in the lenient mode are those of the lines below the cap, so
the first ones of the whole output, and the final frame is the last of them: unless the cut takes
away a byte order mark that kept the first line from being a frame. -/
theorem frames_iff (parse : List Char → Option Json) (numbers : Json.NumberText)
    (options : P2pScriptMachineOutputParseOptions) (input : List Char)
    (hparse : ∀ text, parse (byteOrderMark :: text) = none)
    (hmode : options.mode ≠ some .strict) :
    let result := parseP2pScriptMachineOutput parse numbers options input
    let uncapped := parseP2pScriptMachineOutput parse numbers
      { options with maxTotalBytes := some (encode input).length } input
    (result.frames = validFrames parse numbers options (linesBelowCap options input) ∧
        result.frames <+: uncapped.frames ∧ result.finalFrame? = result.frames.getLast?) ↔
      ¬ HidesFrame parse numbers options input := by
  dsimp only
  rw [(parse_lenient hmode).2, (parse_lenient hmode).1, frames_uncapped hmode,
    ← validFrames_parseInput hparse]
  refine ⟨And.left, fun hframes => ⟨hframes, ?_, rfl⟩⟩
  rw [hframes]
  exact linesBelowCap_prefix.filterMap _

/-- The text of a frame, and what it is parsed to. -/
def frameText : List Char := "\x7b\"kind\":\"p2p_script_machine_output_v1\"\x7d".toList

def parseFrameText (line : List Char) : Option Json :=
  if line = frameText then some (.object [("kind", .string p2pScriptMachineOutputKind)]) else none

def noNumbers : Json.NumberText where
  text _ := []
  oneLine _ := List.not_mem_nil

theorem parseFrameText_mark (text : List Char) : parseFrameText (byteOrderMark :: text) = none :=
  if_neg fun h => absurd (congrArg List.head? h) (by
    rw [List.head?_cons]
    decide)

/-- A frame below the cap, and the beginning of another line. -/
theorem frames_iff_cut :
    let input := frameText ++ ['\n', 'x', 'x']
    let options : P2pScriptMachineOutputParseOptions := { maxTotalBytes := some 41 }
    let result := parseP2pScriptMachineOutput parseFrameText noNumbers options input
    let uncapped := parseP2pScriptMachineOutput parseFrameText noNumbers
      { options with maxTotalBytes := some (encode input).length } input
    (result.frames = validFrames parseFrameText noNumbers options (linesBelowCap options input) ∧
        result.frames <+: uncapped.frames ∧ result.finalFrame? = result.frames.getLast?) ↔
      ¬ HidesFrame parseFrameText noNumbers options input :=
  frames_iff parseFrameText noNumbers _ _ parseFrameText_mark (by decide)

example : linesWithin 41 (Lines.ended '\n' (frameText ++ ['\n', 'x', 'x'])) = [frameText] := by
  decide +kernel

example : (parseP2pScriptMachineOutput parseFrameText noNumbers { maxTotalBytes := some 41 }
    (frameText ++ ['\n', 'x', 'x'])).frames.length = 1 := by decide +kernel

/-- Without its byte order mark the first line is a frame. -/
theorem not_frames : ¬ ∀ (parse : List Char → Option Json) (numbers : Json.NumberText)
    (options : P2pScriptMachineOutputParseOptions) (input : List Char),
    (∀ text, parse (byteOrderMark :: text) = none) → options.mode ≠ some .strict →
    let result := parseP2pScriptMachineOutput parse numbers options input
    let uncapped := parseP2pScriptMachineOutput parse numbers
      { options with maxTotalBytes := some (encode input).length } input
    result.frames = validFrames parse numbers options (linesBelowCap options input) ∧
      result.frames <+: uncapped.frames ∧ result.finalFrame? = result.frames.getLast? := by
  intro h
  obtain ⟨hframes, -, -⟩ := h parseFrameText noNumbers { maxTotalBytes := some 43 }
    (byteOrderMark :: frameText ++ ['\n', 'x']) parseFrameText_mark (by decide)
  have hlength := congrArg List.length hframes
  revert hlength
  decide +kernel

end Imcodes.Workflow
