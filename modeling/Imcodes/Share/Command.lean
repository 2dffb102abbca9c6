import Imcodes.Share.Target

/-!
# Which commands a share allows

What a browser asks for through a share is looked up by the type of its message, and the
session that the message names must be covered by the share.

* `extractP2pSendTargets` — the sessions to which a `session.send` is routed, as far as its
  fields say so.
* `commandSessionName` — the session of a command.
* `evaluateShareCommand` — whether a command is allowed, and the message that is stamped
  with its actor.
-/

namespace Imcodes.Share

open Queue (jsTrim)

/-- `ShareReason` -/
inductive ShareReason
  | roleDenied
  | directSurfaceDenied
  | rateLimited
  | revoked
  | expired
  | targetUnavailable
  | roleChanged
  | ticketInvalid
  | cancelUnsupported
  | commentInvalid
deriving DecidableEq

/-! ## Routing of a send -/

/-- `P2pSendTargets` -/
structure P2pSendTargets where
  hasP2pRouting : Bool
  hasUnboundedExpansion : Bool
  sessions : List String

/-- `typeof value === 'string' && value.trim()` -/
def nonBlank (value : Option String) : Option String := (value.map jsTrim).filter (· ≠ "")

/-- The field `session` or `sessionName` of an entry of a list, trimmed. -/
def entryName (key : String) (entry : Json) : Option String :=
  nonBlank (entry.record?.bind (·.string? key))

/-- `directTargetSession` and the sessions of `p2pAtTargets`. -/
def namedTargets (msg : Fields) : List String :=
  (nonBlank (msg.string? "directTargetSession")).toList ++
    (msg.items "p2pAtTargets").filterMap (entryName "session")

/-- `record.enabled === true && record.mode !== 'skip'` -/
def isEnabledEntry (entry : Json) : Bool :=
  match entry.record? with
  | some record =>
      (match record.read "enabled" with
        | some (.bool true) => true
        | _ => false) && record.string? "mode" != some "skip"
  | none => false

/-- The names that `p2pSessionConfig` enables. -/
def enabledTargets (msg : Fields) : List String :=
  (((msg.record? "p2pSessionConfig").getD []).filter (isEnabledEntry ·.2)).map Prod.fst

/-- `extractP2pSendTargets` -/
def extractP2pSendTargets (msg : Fields) : P2pSendTargets :=
  let named := namedTargets msg
  let enabled := enabledTargets msg
  let sessions := (named.filter (· ≠ "__all__") ++ enabled).eraseDups
  let hasMode := (nonBlank (msg.string? "p2pMode")).isSome
  { hasP2pRouting := !named.isEmpty || (msg.record? "p2pSessionConfig").isSome || hasMode
    hasUnboundedExpansion :=
      hasMode && sessions.isEmpty || named.contains "__all__" && enabled.isEmpty
    sessions := sessions }

/-- `evaluateP2pSendTargetScope` -/
def evaluateP2pSendTargetScope (msg : Fields) (target : ShareTarget)
    (coversSession : String → Bool) : Option ShareReason :=
  let targets := extractP2pSendTargets msg
  if targets.hasP2pRouting = false then none
  else if target.isServer then none
  else if targets.hasUnboundedExpansion then some .directSurfaceDenied
  else if targets.sessions.any (!coversSession ·) then some .directSurfaceDenied
  else none

/-! ## Policies -/

/-- `ShareCommandPolicy` -/
inductive ShareCommandPolicy
  | allowCoveredRead (requireTarget : Bool)
  | participantDiscussionStart
  | participantSend
  | participantCancel
  | deny (reason : ShareReason)

/-- `SHARE_WS_COMMAND_POLICY_INVENTORY` -/
def shareWsCommandPolicyInventory : List (String × ShareCommandPolicy) :=
  [("terminal.subscribe", .allowCoveredRead true),
    ("terminal.unsubscribe", .allowCoveredRead true),
    ("terminal.snapshot_request", .allowCoveredRead true),
    ("chat.subscribe", .allowCoveredRead true),
    ("chat.unsubscribe", .allowCoveredRead true),
    ("chat.history", .allowCoveredRead true),
    ("discussion.start", .participantDiscussionStart),
    ("session.send", .participantSend),
    ("session.cancel", .participantCancel),
    ("discussion.comment", .allowCoveredRead false),
    ("session.start", .deny .directSurfaceDenied),
    ("session.stop", .deny .directSurfaceDenied),
    ("session.restart", .deny .directSurfaceDenied),
    ("session.input", .deny .directSurfaceDenied),
    ("session.resize", .deny .directSurfaceDenied),
    ("session.edit_queued_message", .deny .directSurfaceDenied),
    ("session.undo_queued_message", .deny .directSurfaceDenied),
    ("subsession.start", .deny .directSurfaceDenied),
    ("subsession.stop", .deny .directSurfaceDenied),
    ("subsession.restart", .deny .directSurfaceDenied),
    ("p2p.config.save", .deny .directSurfaceDenied),
    ("chat.approval_response", .deny .directSurfaceDenied),
    ("provider.status", .deny .directSurfaceDenied),
    ("provider.list_sessions", .deny .directSurfaceDenied),
    ("provider.sync_sessions", .deny .directSurfaceDenied),
    ("fs.ls", .deny .directSurfaceDenied),
    ("fs.read", .deny .directSurfaceDenied),
    ("fs.write", .deny .directSurfaceDenied),
    ("fs.rename", .deny .directSurfaceDenied),
    ("fs.edit", .deny .directSurfaceDenied),
    ("fs.delete", .deny .directSurfaceDenied),
    ("fs.patch", .deny .directSurfaceDenied),
    ("fs.git_status", .deny .directSurfaceDenied),
    ("fs.git_diff", .deny .directSurfaceDenied),
    ("file.search", .deny .directSurfaceDenied),
    ("repo.detect", .deny .directSurfaceDenied),
    ("repo.list_branches", .deny .directSurfaceDenied),
    ("repo.checkout_branch", .deny .directSurfaceDenied),
    ("repo.list_commits", .deny .directSurfaceDenied),
    ("repo.list_issues", .deny .directSurfaceDenied),
    ("repo.list_prs", .deny .directSurfaceDenied),
    ("repo.list_actions", .deny .directSurfaceDenied),
    ("memory.skill.query", .deny .directSurfaceDenied),
    ("cron.create", .deny .directSurfaceDenied)]

/-- `SHARE_SCOPED_COMMAND_POLICY.get(type)` -/
def shareScopedCommandPolicy (type : String) : Option ShareCommandPolicy :=
  shareWsCommandPolicyInventory.lookup type

/-! ## What a command names -/

/-- `commandSessionName` -/
def commandSessionName (msg : Fields) : Option String :=
  ["sessionName", "session", "sessionId"].findSome? fun key => nonBlank (msg.string? key)

/-- `commandReferencedSessionNames` -/
def commandReferencedSessionNames (msg : Fields) : List String :=
  ((commandSessionName msg).toList ++
    (msg.items "participants").filterMap (entryName "sessionName")).eraseDups

/-- `hasUnscopedDiscussionParticipant` -/
def hasUnscopedDiscussionParticipant (msg : Fields) : Bool :=
  if msg.text "type" ≠ "discussion.start" then false
  else if (msg.items "participants").isEmpty then true
  else (msg.items "participants").any fun entry => (entryName "sessionName" entry).isNone

/-- The first of two fields that is not blank, and else an id made from the time. -/
def actionId (msg : Fields) (key key' : String) (now : ℕ) : String :=
  ((nonBlank (msg.string? key)).or (nonBlank (msg.string? key'))).getD
    ("share-action-" ++ toString now)

/-! ## The actor of a command -/

/-- `null`, or the value. -/
def orNull {α : Type} (toJson : α → Json) : Option α → Json
  | some value => toJson value
  | none => .null

namespace ShareAuthorizationSnapshot

/-- A snapshot as a JSON value. -/
def toJson (snapshot : ShareAuthorizationSnapshot) : Json := .object
  [("target", snapshot.target.toJson),
    ("effectiveRole", .string (match snapshot.effectiveRole with
      | .viewer => "viewer"
      | .participant => "participant")),
    ("historyCutoffAt", .number snapshot.historyCutoffAt),
    ("nextCoverageRecheckAt", orNull (fun at_ : ℕ => .number at_) snapshot.nextCoverageRecheckAt),
    ("coveringShareIds", .array (snapshot.coveringShareIds.map .string)),
    ("primaryShareId", orNull .string snapshot.primaryShareId),
    ("authorizedAt", .number snapshot.authorizedAt)]

end ShareAuthorizationSnapshot

/-- `buildSharedActorEnvelope` -/
def buildSharedActorEnvelope (state : ShareScopedSocketState) (actionId : String) (now : ℕ) :
    Json := .object
  [("actorUserId", .string state.userId),
    ("actorDisplayName", .string state.actorDisplayName),
    ("snapshot", state.snapshot.toJson),
    ("primaryShareId", orNull .string state.snapshot.primaryShareId),
    ("effectiveActorRole", .string (match state.snapshot.effectiveRole with
      | .viewer => "viewer"
      | .participant => "participant")),
    ("actionId", .string actionId),
    ("origin", .string (if state.target.isServer then "shared-server" else "shared-tab")),
    ("authorizedAt", .number state.snapshot.authorizedAt),
    ("queuedAt", .number now)]

/-- The `shareScope` of a discussion. -/
def shareScope (state : ShareScopedSocketState) : Json := .object
  [("target", state.target.toJson),
    ("historyCutoffAt", .number state.snapshot.historyCutoffAt),
    ("primaryShareId", orNull .string state.snapshot.primaryShareId),
    ("coveringShareIds", .array (state.snapshot.coveringShareIds.map .string))]

/-! ## The decision -/

/-- How a session runs, as far as the bridge knows. -/
inductive RuntimeType
  | process
  | transport
  | unknown
deriving DecidableEq

/-- `ShareCommandDecision` -/
inductive ShareCommandDecision
  | allowed (stampedMessage : Option Fields)
  | denied (reason : ShareReason)

namespace ShareCommandDecision

/-- `decision.allowed` -/
def isAllowed : ShareCommandDecision → Bool
  | allowed _ => true
  | denied _ => false

end ShareCommandDecision

/-- What `evaluateShareCommand` is asked about. -/
structure ShareCommand where
  msg : Fields
  state : ShareScopedSocketState
  now : ℕ
  runtimeType : RuntimeType
  activeDispatchId : Option String

namespace ShareCommand

variable (input : ShareCommand)

/-- `{ ...msg, sharedActor }` -/
def stamped (actionId : String) : Fields :=
  input.msg.put "sharedActor" (buildSharedActorEnvelope input.state actionId input.now)

/-- `policy.kind === 'allow-covered-read'` -/
def evaluateRead (requireTarget : Bool) : ShareCommandDecision :=
  match commandSessionName input.msg with
  | none => if requireTarget then .denied .directSurfaceDenied else .allowed none
  | some sessionName =>
      if input.state.coversSession sessionName then .allowed none
      else .denied .directSurfaceDenied

/-- `policy.kind === 'participant-discussion-start'` -/
def evaluateDiscussionStart : ShareCommandDecision :=
  if hasUnscopedDiscussionParticipant input.msg then .denied .directSurfaceDenied
  else if (commandReferencedSessionNames input.msg).any (!input.state.coversSession ·) then
    .denied .directSurfaceDenied
  else
    .allowed (some ((input.stamped (actionId input.msg "requestId" "commandId" input.now)).put
      "shareScope" (shareScope input.state)))

/-- `policy.kind === 'participant-send'` -/
def evaluateSend : ShareCommandDecision :=
  match evaluateP2pSendTargetScope input.msg input.state.target input.state.coversSession with
  | some p2pScopeReason => .denied p2pScopeReason
  | none =>
      .allowed (some (input.stamped (actionId input.msg "actionId" "commandId" input.now)))

/-- `policy.kind === 'participant-cancel'` -/
def evaluateCancel : ShareCommandDecision :=
  if input.runtimeType ≠ .transport then .denied .cancelUnsupported
  else
    let observedDispatchId := jsTrim (input.msg.text "observedDispatchId")
    if observedDispatchId = "" ∨ input.activeDispatchId ≠ some observedDispatchId then
      .denied .targetUnavailable
    else .allowed (some (input.stamped (actionId input.msg "actionId" "commandId" input.now)))

/-- A command for which the session that it names must be covered. -/
def evaluateCovered (decision : ShareCommandDecision) : ShareCommandDecision :=
  match commandSessionName input.msg with
  | none => .denied .directSurfaceDenied
  | some sessionName =>
      if input.state.coversSession sessionName then decision else .denied .directSurfaceDenied

variable {input}

/-- A send whose targets are in scope. -/
theorem evaluateSend_of_none
    (h : evaluateP2pSendTargetScope input.msg input.state.target input.state.coversSession = none) :
    input.evaluateSend =
      .allowed (some (input.stamped (actionId input.msg "actionId" "commandId" input.now))) := by
  rw [evaluateSend, h]

/-- A command for a session that is covered. -/
theorem evaluateCovered_of_covers {decision : ShareCommandDecision} {sessionName : String}
    (hname : commandSessionName input.msg = some sessionName)
    (hcovers : input.state.coversSession sessionName = true) :
    input.evaluateCovered decision = decision := by
  rw [evaluateCovered, hname]
  exact if_pos hcovers

end ShareCommand

/-- `evaluateShareCommand` -/
def evaluateShareCommand (input : ShareCommand) : ShareCommandDecision :=
  match shareScopedCommandPolicy (input.msg.text "type") with
  | none => .denied .directSurfaceDenied
  | some (.deny reason) => .denied reason
  | some (.allowCoveredRead requireTarget) => input.evaluateRead requireTarget
  | some policy =>
      if input.state.snapshot.effectiveRole ≠ .participant then .denied .roleDenied
      else match policy with
        | .participantDiscussionStart => input.evaluateDiscussionStart
        | .participantSend => input.evaluateCovered input.evaluateSend
        | _ => input.evaluateCovered input.evaluateCancel

/-! ## When a command is allowed -/

section Targets

variable {msg : Fields} {target : ShareTarget} {coversSession : String → Bool}

/-- A send whose targets are not bounded is routed. -/
theorem hasP2pRouting_of_unbounded (h : (extractP2pSendTargets msg).hasUnboundedExpansion = true) :
    (extractP2pSendTargets msg).hasP2pRouting = true := by
  simp only [extractP2pSendTargets, Bool.or_eq_true, Bool.and_eq_true, List.contains_iff_mem]
    at h ⊢
  rcases h with ⟨hmode, -⟩ | ⟨hall, -⟩
  · exact Or.inr hmode
  · refine Or.inl (Or.inl ?_)
    cases hnamed : namedTargets msg with
    | nil =>
      rw [hnamed] at hall
      exact absurd hall List.not_mem_nil
    | cons name names => rfl

/-- A send that has targets is routed. -/
theorem hasP2pRouting_of_mem {name : String} (h : name ∈ (extractP2pSendTargets msg).sessions) :
    (extractP2pSendTargets msg).hasP2pRouting = true := by
  simp only [extractP2pSendTargets, List.mem_eraseDups, List.mem_append, Bool.or_eq_true] at h ⊢
  rcases h with hnamed | henabled
  · refine Or.inl (Or.inl ?_)
    cases heq : namedTargets msg with
    | nil =>
      rw [heq] at hnamed
      exact absurd hnamed List.not_mem_nil
    | cons name names => rfl
  · refine Or.inl (Or.inr ?_)
    cases hconfig : msg.record? "p2pSessionConfig" with
    | none =>
      rw [enabledTargets, hconfig] at henabled
      exact absurd henabled List.not_mem_nil
    | some config => rfl

/-- The routing of a send is in the scope of a share of a tab exactly when its targets are
bounded and covered. -/
theorem evaluateP2pSendTargetScope_eq_none (htarget : isConcreteShareTarget target = true) :
    evaluateP2pSendTargetScope msg target coversSession = none ↔
      (extractP2pSendTargets msg).hasUnboundedExpansion = false ∧
        ∀ name ∈ (extractP2pSendTargets msg).sessions, coversSession name = true := by
  have hserver : target.isServer = false := by
    rwa [isConcreteShareTarget, Bool.not_eq_true'] at htarget
  unfold evaluateP2pSendTargetScope
  dsimp only
  split
  · rename_i hrouting
    refine iff_of_true rfl ⟨?_, fun name hname => ?_⟩
    · by_contra hunbounded
      rw [hasP2pRouting_of_unbounded (by simpa using hunbounded)] at hrouting
      cases hrouting
    · rw [hasP2pRouting_of_mem hname] at hrouting
      cases hrouting
  · rw [hserver, if_neg Bool.false_ne_true]
    split
    · rename_i hunbounded
      exact iff_of_false (by simp) fun h => by rw [hunbounded] at h; cases h.1
    · rename_i hbounded
      simp only [Bool.not_eq_true] at hbounded
      simp [hbounded, List.any_eq_true]

end Targets

namespace ShareCommand

variable {input : ShareCommand}

theorem isAllowed_evaluateRead :
    (input.evaluateRead true).isAllowed = true ↔
      ∃ checked, commandSessionName input.msg = some checked ∧
        input.state.coversSession checked = true := by
  unfold evaluateRead
  cases commandSessionName input.msg with
  | none => simp [ShareCommandDecision.isAllowed]
  | some checked => cases h : input.state.coversSession checked <;>
      simp [h, ShareCommandDecision.isAllowed]

theorem isAllowed_evaluateCovered {decision : ShareCommandDecision} :
    (input.evaluateCovered decision).isAllowed = true ↔
      ∃ checked, commandSessionName input.msg = some checked ∧
        input.state.coversSession checked = true ∧ decision.isAllowed = true := by
  unfold evaluateCovered
  cases commandSessionName input.msg with
  | none => simp [ShareCommandDecision.isAllowed]
  | some checked => cases h : input.state.coversSession checked <;>
      simp [h, ShareCommandDecision.isAllowed]

theorem isAllowed_evaluateSend :
    input.evaluateSend.isAllowed = true ↔
      evaluateP2pSendTargetScope input.msg input.state.target input.state.coversSession = none := by
  unfold evaluateSend
  split <;> simp_all [ShareCommandDecision.isAllowed]

theorem isAllowed_evaluateCancel :
    input.evaluateCancel.isAllowed = true ↔
      input.runtimeType = .transport ∧ jsTrim (input.msg.text "observedDispatchId") ≠ "" ∧
        input.activeDispatchId = some (jsTrim (input.msg.text "observedDispatchId")) := by
  unfold evaluateCancel
  split
  · simp_all [ShareCommandDecision.isAllowed]
  · rename_i hruntime
    dsimp only
    split
    · rename_i h
      refine iff_of_false Bool.false_ne_true fun ⟨_, hobserved, hactive⟩ => ?_
      exact h.elim hobserved fun hne => hne hactive
    · rename_i h
      rw [not_or, not_not] at h
      exact iff_of_true rfl ⟨not_not.1 hruntime, h⟩

/-- A read is allowed exactly when the session that it names is covered. -/
theorem isAllowed_read
    (h : shareScopedCommandPolicy (input.msg.text "type") = some (.allowCoveredRead true)) :
    (evaluateShareCommand input).isAllowed = true ↔
      ∃ checked, commandSessionName input.msg = some checked ∧
        input.state.coversSession checked = true := by
  rw [evaluateShareCommand, h]
  exact isAllowed_evaluateRead

/-- A participant's send is allowed exactly when its session is covered and its routing is in
scope. -/
theorem isAllowed_send
    (h : shareScopedCommandPolicy (input.msg.text "type") = some .participantSend) :
    (evaluateShareCommand input).isAllowed = true ↔
      input.state.snapshot.effectiveRole = .participant ∧
        ∃ checked, commandSessionName input.msg = some checked ∧
          input.state.coversSession checked = true ∧
          evaluateP2pSendTargetScope input.msg input.state.target input.state.coversSession =
            none := by
  rw [evaluateShareCommand, h]
  by_cases hrole : input.state.snapshot.effectiveRole = .participant
  · simp only [hrole, ne_eq, not_true_eq_false, if_false, true_and, isAllowed_evaluateCovered,
      isAllowed_evaluateSend]
  · simp [hrole, ShareCommandDecision.isAllowed]

/-- A participant's cancellation is allowed exactly when its session is covered and it has seen
the dispatch that runs. -/
theorem isAllowed_cancel
    (h : shareScopedCommandPolicy (input.msg.text "type") = some .participantCancel) :
    (evaluateShareCommand input).isAllowed = true ↔
      input.state.snapshot.effectiveRole = .participant ∧
        ∃ checked, commandSessionName input.msg = some checked ∧
          input.state.coversSession checked = true ∧ input.runtimeType = .transport ∧
          jsTrim (input.msg.text "observedDispatchId") ≠ "" ∧
          input.activeDispatchId = some (jsTrim (input.msg.text "observedDispatchId")) := by
  rw [evaluateShareCommand, h]
  by_cases hrole : input.state.snapshot.effectiveRole = .participant
  · simp only [hrole, ne_eq, not_true_eq_false, if_false, true_and, isAllowed_evaluateCovered,
      isAllowed_evaluateCancel]
  · simp [hrole, ShareCommandDecision.isAllowed]

end ShareCommand

end Imcodes.Share
