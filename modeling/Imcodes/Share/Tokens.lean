import Imcodes.Queue.Types

/-!
# Tokens in the text of a send

Older clients write whom a message is for into its text: `@@discuss(session, mode)` names one
session and `@@all(mode)` all of them.

* `matchAll` — the matches of a pattern from left to right, none inside another.
* `discussTokens`, `allToken` — what `DISCUSS_TOKEN_RE` and `ALL_TOKEN_RE` find.
* `parseAtTokens` — the sessions that a text names, and whether it asks for all.
-/

namespace Imcodes.Share

open Queue (jsTrim isJsSpace)

/-! ## Patterns -/

/-- `text.matchAll(pattern)`, for a pattern that says at a place what it finds there and how many
characters that takes. -/
def matchAll {α : Type} (pattern : List Char → Option (α × ℕ)) : ℕ → List Char → List α
  | _, [] => []
  | skip + 1, _ :: text => matchAll pattern skip text
  | 0, c :: text =>
      match pattern (c :: text) with
      | some (found, length) => found :: matchAll pattern (length - 1) text
      | none => matchAll pattern 0 text

/-- `open([^…]+)close`: after the text `opening`, at least one character up to the first `close`;
with what comes after it. -/
def enclosed (opening : String) (close : Char) (text : List Char) :
    Option (List Char × List Char) :=
  if opening.toList.isPrefixOf text then
    let inner := (text.drop opening.length).takeWhile (· ≠ close)
    match (text.drop opening.length).dropWhile (· ≠ close) with
    | [] => none
    | _ :: rest => if inner = [] then none else some (inner, rest)
  else none

/-- `/@@discuss\(([^,]+),\s*([^)]+)\)/`, both groups trimmed -/
def discussTokenAt (text : List Char) : Option ((String × String) × ℕ) := do
  let (session, afterComma) ← enclosed "@@discuss(" ',' text
  let (mode, rest) ← enclosed "" ')' afterComma
  some ((jsTrim (String.ofList session), jsTrim (String.ofList mode)), text.length - rest.length)

/-- `text.matchAll(DISCUSS_TOKEN_RE)` -/
def discussTokens (text : String) : List (String × String) :=
  matchAll discussTokenAt 0 text.toList

/-- `/@@all\(([^)]+)\)/` -/
def allTokenAt (text : List Char) : Option (String × ℕ) := do
  let (spec, rest) ← enclosed "@@all(" ')' text
  some (String.ofList spec, text.length - rest.length)

/-- `ALL_TOKEN_RE.exec(text)` -/
def allToken (text : String) : Option String := (matchAll allTokenAt 0 text.toList).head?

/-! ## Modes -/

/-- `text.split(separator).map((s) => s.trim()).filter(Boolean)` -/
def splitTrimmed (separator : Char) (text : String) : List String :=
  ((text.toList.splitOn separator).map fun part => jsTrim (String.ofList part)).filter (· ≠ "")

/-- `SINGLE_MODES`, also under the name `VALID_MODES` -/
def singleModes : List String := ["audit", "review", "plan", "brainstorm", "discuss", "config"]

/-- `parseModePipeline` -/
def parseModePipeline (mode : String) : List String :=
  if '>' ∈ mode.toList then splitTrimmed '>' mode else [mode]

/-- `isValidP2pMode` -/
def isValidP2pMode (mode : String) : Bool :=
  mode ∈ singleModes ||
    (1 < (parseModePipeline mode).length &&
      (parseModePipeline mode).all fun part => part ∈ singleModes && part != "config")

/-- The characters that `.` does not match. -/
def isLineTerminator (c : Char) : Bool := c ∈ ['\n', '\r', '\u2028', '\u2029']

/-- `/^(.*?)\s*[×x]\s*(\d+)\s*$/.exec(first)?.[1] ?? first`, trimmed -/
def modeOfSpec (first : String) : String :=
  let reversed := (jsTrim first).toList.reverse
  match reversed.takeWhile Char.isDigit, (reversed.dropWhile Char.isDigit).dropWhile isJsSpace with
  | _ :: _, sign :: before =>
      let mode := (before.dropWhile isJsSpace).reverse
      if (sign = '×' ∨ sign = 'x') ∧ mode.all (!isLineTerminator ·) then
        jsTrim (String.ofList mode)
      else jsTrim first
  | _, _ => jsTrim first

/-- What `@@all(…)` asks for. -/
structure AllModeSpec where
  mode : String
  excludeSameType : Bool

/-- `parseAllModeSpec`, without the number of rounds -/
def parseAllModeSpec (raw : String) : Option AllModeSpec :=
  match splitTrimmed ',' raw with
  | [] => none
  | first :: parts =>
      let mode := modeOfSpec first
      if isValidP2pMode mode then
        some ⟨mode, (first :: parts).contains "exclude-same-type"⟩
      else none

/-! ## Parsing -/

/-- `SESSION_NAME_RE.test(session)`: the pattern is not anchored, so one character is enough. -/
def hasNameCharacter (session : String) : Bool :=
  session.toList.any fun c => c.isAlphanum || c = '_'

/-- The sessions that the `@@discuss` tokens of a text name, with a mode that there is. -/
def discussNames (text : String) : List String :=
  ((discussTokens text).filter fun token =>
    hasNameCharacter token.1 && token.2 ∈ singleModes).map Prod.fst

/-- `ParsedTokens`, as far as it says whom the text is for -/
structure ParsedTokens where
  agents : List String
  expandAll : Option AllModeSpec
  hadDiscussTokens : Bool

/-- `parseAtTokens`, for a store with the sessions of which `isStored` tells -/
def parseAtTokens (isStored : String → Bool) (text : String) : ParsedTokens :=
  let agents := (discussNames text).filter isStored
  { agents := agents
    expandAll := (allToken text).bind parseAllModeSpec
    hadDiscussTokens := !(discussTokens text).isEmpty && agents.isEmpty }

/-- One token for a session, and one with a mode that there is not. -/
example : discussNames "see @@discuss(deck_a_w1, audit) and @@discuss(deck_b_w1, shout)" =
    ["deck_a_w1"] := by decide +kernel

/-- A number of rounds belongs to the mode of `@@all`. -/
example : (((allToken "@@all(brainstorm>plan x3, exclude-same-type)").bind parseAllModeSpec).map
    AllModeSpec.mode) = some "brainstorm>plan" := by decide +kernel

end Imcodes.Share
