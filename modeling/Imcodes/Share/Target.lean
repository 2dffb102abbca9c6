import Imcodes.Collections.Json
import Imcodes.Queue.Types

/-!
# What a share covers

A share is of a whole server, of a main session or of a sub-session.  A browser that came in
through a share has a state with the target of the share and, for a main session, the names
of the sessions below it.

* `rawSubSessionIdFromDisplayName` — `deck_sub_…` without its prefix.
* `ShareTarget.coversSession`, `ShareScopedSocketState.coversSession` — what is covered.
* `normalizeShareTarget` — a target read from a JSON value.
-/

namespace Imcodes.Share

open Queue (jsTrim isJsSpace jsTrim_jsTrim)

/-! ## Targets -/

/-- `ShareTarget` -/
inductive ShareTarget
  | server (serverId : String)
  | main (serverId sessionName : String)
  | subsession (serverId subSessionId : String)
deriving DecidableEq

namespace ShareTarget

/-- `target.serverId` -/
def serverId : ShareTarget → String
  | server serverId => serverId
  | main serverId _ => serverId
  | subsession serverId _ => serverId

/-- `target.kind === 'server'` -/
def isServer : ShareTarget → Bool
  | server _ => true
  | _ => false

/-- A target as a JSON value. -/
def toJson : ShareTarget → Json
  | server serverId => .object [("kind", .string "server"), ("serverId", .string serverId)]
  | main serverId sessionName => .object
      [("kind", .string "main"), ("serverId", .string serverId),
        ("sessionName", .string sessionName)]
  | subsession serverId subSessionId => .object
      [("kind", .string "subsession"), ("serverId", .string serverId),
        ("subSessionId", .string subSessionId)]

end ShareTarget

/-! ## Names of sub-sessions -/

/-- `'deck_sub_'` -/
def subSessionPrefix : String := "deck_sub_"

/-- `text.startsWith('deck_sub_')` -/
def startsWithPrefix (text : String) : Bool := subSessionPrefix.toList.isPrefixOf text.toList

/-- `/[\s/\\]/.test(raw)` -/
def hasSpaceOrSlash (raw : String) : Bool :=
  raw.toList.any fun c => isJsSpace c || c = '/' || c = '\\'

/-- The id of the sub-session whose display name this is. -/
def rawSubSessionIdFromDisplayName (sessionName : String) : Option String :=
  let trimmed := jsTrim sessionName
  if startsWithPrefix trimmed then
    let raw := String.ofList (trimmed.toList.drop subSessionPrefix.length)
    if raw = "" ∨ startsWithPrefix raw ∨ hasSpaceOrSlash raw then none else some raw
  else none

/-- `sessionNameToShareTarget` -/
def sessionNameToShareTarget (serverId sessionName : String) : ShareTarget :=
  match rawSubSessionIdFromDisplayName sessionName with
  | some subSessionId => .subsession serverId subSessionId
  | none => .main serverId sessionName

/-- `sessionNameFromTarget` -/
def sessionNameFromTarget : ShareTarget → String
  | .server _ => ""
  | .main _ sessionName => sessionName
  | .subsession _ subSessionId => subSessionPrefix ++ subSessionId

/-! ## Coverage -/

/-- `shareTargetCoversSession` -/
def ShareTarget.coversSession (target : ShareTarget) (sessionName : String) : Bool :=
  match target with
  | .server _ => true
  | .main _ name => name = sessionName
  | .subsession _ subSessionId => rawSubSessionIdFromDisplayName sessionName = some subSessionId

/-- `ShareRole` -/
inductive ShareRole
  | viewer
  | participant
deriving DecidableEq

/-- `ShareAuthorizationSnapshot` -/
structure ShareAuthorizationSnapshot where
  target : ShareTarget
  effectiveRole : ShareRole
  historyCutoffAt : ℕ
  nextCoverageRecheckAt : Option ℕ
  coveringShareIds : List String
  primaryShareId : Option String
  authorizedAt : ℕ

/-- `ShareScopedSocketState`, as far as the share policy reads it. -/
structure ShareScopedSocketState where
  userId : String
  actorDisplayName : String
  target : ShareTarget
  snapshot : ShareAuthorizationSnapshot
  coveredSessionNames : Option (List String)

/-- `shareStateCoversSession` -/
def ShareScopedSocketState.coversSession (state : ShareScopedSocketState) (sessionName : String) :
    Bool :=
  state.target.coversSession sessionName ||
    (state.coveredSessionNames.getD []).contains sessionName

/-- `isConcreteShareTarget` -/
def isConcreteShareTarget (target : ShareTarget) : Bool := !target.isServer

/-! ## Reading a target -/

/-- `if (rawSubSessionId && !rawSubSessionId.startsWith('deck_sub_')) … else
parseSubSessionName(sessionName)`, after the check that not both are there -/
def normalizeSubSessionId (record : Fields) : Option String :=
  let rawSubSessionId := jsTrim (record.text "subSessionId")
  let sessionName := jsTrim (record.text "sessionName")
  if rawSubSessionId ≠ "" ∧ sessionName ≠ "" then none
  else if rawSubSessionId ≠ "" ∧ startsWithPrefix rawSubSessionId = false then
    some rawSubSessionId
  else rawSubSessionIdFromDisplayName sessionName

/-- `normalizeShareTarget`, without an expected server -/
def normalizeShareTarget (input : Option Json) : Option ShareTarget := do
  let record ← input.bind Json.record?
  let serverId := record.text "serverId"
  if serverId = "" then none
  else match record.string? "kind" with
    | some "server" => some (.server serverId)
    | some "main" =>
        let sessionName := jsTrim (record.text "sessionName")
        if sessionName = "" then none else some (.main serverId sessionName)
    | some "subsession" => (normalizeSubSessionId record).map (.subsession serverId)
    | _ => none

end Imcodes.Share
