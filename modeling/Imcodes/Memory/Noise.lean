import Imcodes.Queue.Types

/-!
# Which events are worth remembering

Replies that only report the failure of a request are noise: a turn of an assistant that is one, and
a summary of which all replies are.
-/

namespace Imcodes.Memory

open Queue (isJsSpace jsTrim)

/-! ## Patterns -/

/-- `\s*` -/
def skipSpaces (text : List Char) : List Char := text.dropWhile isJsSpace

/-- The text after a literal, whatever the case of its letters. -/
def afterLiteral (literal : String) (text : List Char) : Option (List Char) :=
  if literal.toList.isPrefixOf (text.map Char.toLower) then some (text.drop literal.length)
  else none

/-- The text after one space or more. -/
def afterSpaces : List Char → Option (List Char)
  | c :: text => if isJsSpace c then some (skipSpaces text) else none
  | [] => none

/-- What is left of a text after a pattern at its start, or the text itself. -/
def without (pattern : List Char → Option (List Char)) (text : List Char) : List Char :=
  (pattern text).getD text

/-- `/^>\s*/` -/
def quoteMark : List Char → Option (List Char)
  | '>' :: text => some (skipSpaces text)
  | _ => none

/-- `/^(?:-|\*)\s+/` -/
def bullet : List Char → Option (List Char)
  | '-' :: text => afterSpaces text
  | '*' :: text => afterSpaces text
  | _ => none

/-- A name between backticks and a colon. -/
def label : List Char → Option (List Char)
  | '\x60' :: text =>
    if text.takeWhile (· ≠ '\x60') = [] then none
    else (afterLiteral "\x60:" (text.dropWhile (· ≠ '\x60'))).map skipSpaces
  | _ => none

/-- `/^\*\*(?:user|assistant):\*\*\s*/i` -/
def speaker (text : List Char) : Option (List Char) :=
  ((afterLiteral "**user:**" text).or (afterLiteral "**assistant:**" text)).map skipSpaces

/-- `trim` -/
def trimmed (text : List Char) : List Char :=
  (text.dropWhile isJsSpace).rdropWhile isJsSpace

def normalizeLine (line : List Char) : List Char :=
  trimmed (without speaker (without label (without bullet (without quoteMark line))))

/-- `/^\[?api error:/i` -/
def startsWithApiError (text : List Char) : Bool :=
  (afterLiteral "api error:" (without (afterLiteral "[") text)).isSome

/-- `/\w/` -/
def isWordChar (c : Char) : Bool := c.isAlphanum || c = '_'

def REQUEST_FAILURES : List String :=
  ["connection error", "fetch failed", "network request failed", "econnreset", "econnrefused",
    "enotfound", "etimedout", "dns lookup failed", "socket hang up"]

/-- A failure is named here, as words of their own; `before` is the character before the text. -/
def namesFailure (before : Option Char) : List Char → Bool
  | [] => false
  | c :: text =>
    (!before.any isWordChar && REQUEST_FAILURES.any fun failure =>
      (afterLiteral failure (c :: text)).any fun after => !after.head?.any isWordChar) ||
      namesFailure (some c) text

/-! ## Noise -/

def isPureRequestFailureText (text : List Char) : Bool :=
  let normalized := trimmed (((normalizeLine text).dropWhile (· = '(')).rdropWhile (· = ')'))
  if normalized = [] then false
  else if ["fixed ", "fix ", "avoid ", "handle "].any
      fun verb => (afterLiteral verb normalized).isSome then false
  else startsWithApiError normalized && namesFailure none normalized

/-- `/^---\s*updated\s*---$/i` -/
def isUpdatedLine (text : List Char) : Bool :=
  (afterLiteral "---" text).any fun text =>
    (afterLiteral "updated" (skipSpaces text)).any fun text => skipSpaces text = "---".toList

/-- `/^>\s*⚠️\s*\*\*structured summary unavailable\*\*/i` -/
def isUnavailableLine (text : List Char) : Bool :=
  (quoteMark text).any fun text =>
    (afterLiteral "\u26a0\ufe0f" text).any fun text =>
      (afterLiteral "**structured summary unavailable**" (skipSpaces text)).isSome

def isMetaSummaryLine (line : List Char) : Bool :=
  let text := trimmed line
  text = [] || (afterLiteral "##" text).any (fun text => (afterSpaces text).isSome) ||
    isUpdatedLine text || isUnavailableLine text

/-- A line in which the assistant speaks. -/
def isAssistantLine (line : List Char) : Bool :=
  (afterLiteral "**assistant:**" line).isSome ||
    (afterLiteral "-" line).any fun text =>
      ["\x60assistant.text\x60:", "\x60assistant.turn\x60:"].any fun name =>
        (afterLiteral name (skipSpaces text)).isSome

def isMemoryNoiseTurn (text : Option String) : Bool :=
  text.any fun text => text ≠ "" && isPureRequestFailureText (trimmed text.toList)

def isMemoryNoiseSummary (summary : String) : Bool :=
  let text := trimmed summary.toList
  if text = [] then false
  else if isPureRequestFailureText text then true
  else
    let meaningfulLines := ((text.splitOn '\n').map trimmed).filter fun line =>
      line ≠ [] && !isMetaSummaryLine line
    let assistantLines := meaningfulLines.filter isAssistantLine
    assistantLines ≠ [] && assistantLines.all isPureRequestFailureText

def MEMORY_ELIGIBLE_EVENT_TYPES : List String :=
  ["assistant.text", "assistant.turn", "user.turn", "user.message", "decision", "constraint",
    "preference"]

/-- Only memory-eligible events are used for summary generation. -/
def isMemoryEligibleEvent (eventType : String) : Bool := eventType ∈ MEMORY_ELIGIBLE_EVENT_TYPES

/-- A reply of the assistant. -/
def isAssistantEvent (eventType : String) : Bool :=
  eventType = "assistant.text" || eventType = "assistant.turn"

example : isMemoryNoiseTurn "[API Error: Connection error. (cause: fetch failed)]" = true := by
  decide +kernel

example : isMemoryNoiseTurn "Fixed api error: fetch failed" = false := by decide +kernel

end Imcodes.Memory
