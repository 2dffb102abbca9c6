import Imcodes.Share.Command

/-!
# The session that a command acts on

A command is checked for the first of `sessionName`, `session` and `sessionId` that is not
blank, trimmed.  What then happens reads one field for each type of command, as it stands.  Only
a subscription is carried out when the message has a field of the old live queue somewhere.

* `containsLegacyLiveQueueEvidence` — for which messages are dropped.
* `browserAction` — what the bridge does with a message that is allowed.
* `ActsOnCovered` — an allowed command acts on no session that the share does not cover.
* `NamesOneSession` — the two readings find one name, or the message goes nowhere.
* `actsOnCovered_iff` — the one for every share exactly when the message is the other.
* `not_actsOnCovered` — a subscription with two names.
-/

namespace Imcodes.Share

open Queue (jsTrim)

/-! ## Fields of the old queue -/

/-- `LEGACY_LIVE_QUEUE_FIELDS` -/
def legacyLiveQueueFields : List String :=
  ["pendingMessages", "transportPendingMessages", "pendingCount"]

mutual

/-- `containsLegacyLiveQueueEvidence` -/
def containsLegacyLiveQueueEvidence : Json → Bool
  | .array items => itemsHaveEvidence items
  | .object fields => fieldsHaveEvidence fields
  | _ => false

/-- `item.some(visit)` -/
def itemsHaveEvidence : List Json → Bool
  | [] => false
  | item :: items => containsLegacyLiveQueueEvidence item || itemsHaveEvidence items

/-- `hasLegacyLiveQueueField(item) || Object.values(item).some(visit)` -/
def fieldsHaveEvidence : List (String × Json) → Bool
  | [] => false
  | (key, value) :: fields =>
      legacyLiveQueueFields.contains key || containsLegacyLiveQueueEvidence value ||
        fieldsHaveEvidence fields

end

/-! ## What the bridge does -/

/-- What the bridge does with a message of a type that a share allows. -/
inductive BrowserAction
  | subscribeTerminal (session : String)
  | unsubscribeTerminal (session : String)
  | subscribeChat (sessionId : String)
  | unsubscribeChat (sessionId : String)
  | dropped
  | comment (msg : Fields)
  | outboundSend (commandId sessionName : String) (msg : Fields)
  | forward (msg : Fields)

/-- `typeof msg.sessionName === 'string' ? msg.sessionName : (typeof msg.session === 'string' ?
msg.session : '')` -/
def sendSessionName (msg : Fields) : String := (msg.string? "sessionName").getD (msg.text "session")

/-- A send or a cancellation with a command id is tracked until it is acknowledged. -/
def outbound (msg : Fields) : BrowserAction :=
  match msg.string? "commandId" with
  | some commandId =>
      if sendSessionName msg = "" then .forward msg
      else .outboundSend commandId (sendSessionName msg) msg
  | none => .forward msg

/-- The end of the message handler, after the subscriptions. -/
def afterSubscriptions (msg : Fields) : BrowserAction :=
  if containsLegacyLiveQueueEvidence (.object msg) then .dropped
  else match msg.text "type" with
    | "discussion.comment" => .comment msg
    | "session.send" => outbound msg
    | "session.cancel" => outbound msg
    | _ => .forward msg

/-- The part of the message handler that the types of an allowed message can reach. -/
def browserAction (msg : Fields) : BrowserAction :=
  match msg.text "type" with
  | "terminal.subscribe" =>
      ((msg.string? "session").map .subscribeTerminal).getD (afterSubscriptions msg)
  | "terminal.unsubscribe" =>
      ((msg.string? "session").map .unsubscribeTerminal).getD (afterSubscriptions msg)
  | "chat.subscribe" =>
      ((msg.string? "sessionId").map .subscribeChat).getD (afterSubscriptions msg)
  | "chat.unsubscribe" =>
      ((msg.string? "sessionId").map .unsubscribeChat).getD (afterSubscriptions msg)
  | _ => afterSubscriptions msg

/-- The session for which a message is forwarded. -/
def forwardedSession (msg : Fields) : Option String :=
  match msg.text "type" with
  | "terminal.snapshot_request" => msg.string? "session"
  | "chat.history" => msg.string? "sessionId"
  | "session.send" => (some (sendSessionName msg)).filter (· ≠ "")
  | "session.cancel" => (some (sendSessionName msg)).filter (· ≠ "")
  | _ => none

/-- The session on which the bridge acts. -/
def BrowserAction.session? : BrowserAction → Option String
  | subscribeTerminal session => some session
  | unsubscribeTerminal session => some session
  | subscribeChat sessionId => some sessionId
  | unsubscribeChat sessionId => some sessionId
  | dropped => none
  | comment _ => none
  | outboundSend _ sessionName _ => some sessionName
  | forward msg => forwardedSession msg

/-- The message that goes on in the handler after the decision. -/
def ShareCommandDecision.message (msg : Fields) : ShareCommandDecision → Fields
  | allowed (some stampedMessage) => stampedMessage
  | _ => msg

/-- An allowed command acts on a session that the state covers. -/
def ActsOnCovered (input : ShareCommand) : Prop :=
  (evaluateShareCommand input).isAllowed = true →
    ∀ name, (browserAction ((evaluateShareCommand input).message input.msg)).session? = some name →
      input.state.coversSession name = true

/-! ## The condition -/

/-- The field that says where a message of its type goes, as it stands. -/
def actedName (msg : Fields) : Option String :=
  if msg.text "type" ∈ ["terminal.subscribe", "terminal.unsubscribe", "terminal.snapshot_request"]
  then msg.string? "session"
  else if msg.text "type" ∈ ["chat.subscribe", "chat.unsubscribe", "chat.history"]
  then msg.string? "sessionId"
  else if msg.text "type" ∈ ["session.send", "session.cancel"]
  then (some (sendSessionName msg)).filter (· ≠ "")
  else none

/-- A send or a cancellation whose other fields have it refused wherever the name `acted` is not
covered: the targets of the send are not bounded or have the name among them, or the
cancellation does not say which dispatch it has seen. -/
def RefusedAnyway (msg : Fields) (acted : String) : Prop :=
  (msg.text "type" = "session.send" ∧
    ((extractP2pSendTargets msg).hasUnboundedExpansion = true ∨
      acted ∈ (extractP2pSendTargets msg).sessions)) ∨
  (msg.text "type" = "session.cancel" ∧ jsTrim (msg.text "observedDispatchId") = "")

/-- A message with evidence of the old queue that is not a subscription; what a send or a
cancellation has as `sharedActor` does not count, since the stamp takes its place. -/
def IsDropped (msg : Fields) : Prop :=
  (msg.text "type" ∈ ["terminal.snapshot_request", "chat.history"] ∧
    fieldsHaveEvidence msg = true) ∨
  (msg.text "type" ∈ ["session.send", "session.cancel"] ∧
    fieldsHaveEvidence (msg.remove "sharedActor") = true)

/-- The field that says where the message goes holds what is checked: the first of
`sessionName`, `session` and `sessionId` that is not blank, trimmed; or the message is refused or
dropped. -/
def NamesOneSession (msg : Fields) : Prop :=
  ∀ acted, actedName msg = some acted → ∀ checked, commandSessionName msg = some checked →
    acted = checked ∨ RefusedAnyway msg acted ∨ IsDropped msg

/-! ## Stamping -/

variable {msg msg' : Fields} {input : ShareCommand} {name : String}

/-- The handler reads the same of both messages. -/
def ReadAlike (msg msg' : Fields) : Prop :=
  ∀ key ∈ ["type", "session", "sessionId", "sessionName", "commandId"],
    msg'.string? key = msg.string? key

theorem ReadAlike.refl : ReadAlike msg msg := fun _ _ => rfl

theorem ReadAlike.put {key : String} {value : Json} (h : ReadAlike msg msg')
    (hkey : key ∉ ["type", "session", "sessionId", "sessionName", "commandId"]) :
    ReadAlike msg (msg'.put key value) := fun key' hkey' => by
  have hne : key' ≠ key := by
    rintro rfl
    exact hkey hkey'
  rw [Fields.string?_put_of_ne hne]
  exact h key' hkey'

theorem readAlike_stamped (actionId : String) : ReadAlike input.msg (input.stamped actionId) :=
  ReadAlike.refl.put (by decide)

theorem readAlike_evaluateRead {requireTarget : Bool} :
    ReadAlike input.msg ((input.evaluateRead requireTarget).message input.msg) := by
  unfold ShareCommand.evaluateRead
  repeat' split
  all_goals exact ReadAlike.refl

theorem readAlike_evaluateDiscussionStart :
    ReadAlike input.msg (input.evaluateDiscussionStart.message input.msg) := by
  unfold ShareCommand.evaluateDiscussionStart
  split
  · exact ReadAlike.refl
  · split
    · exact ReadAlike.refl
    · exact (readAlike_stamped _).put (by decide)

theorem readAlike_evaluateSend :
    ReadAlike input.msg (input.evaluateSend.message input.msg) := by
  unfold ShareCommand.evaluateSend
  split
  · exact ReadAlike.refl
  · exact readAlike_stamped _

theorem readAlike_evaluateCancel :
    ReadAlike input.msg (input.evaluateCancel.message input.msg) := by
  unfold ShareCommand.evaluateCancel
  split
  · exact ReadAlike.refl
  · dsimp only
    split
    · exact ReadAlike.refl
    · exact readAlike_stamped _

theorem readAlike_evaluateCovered {decision : ShareCommandDecision}
    (h : ReadAlike input.msg (decision.message input.msg)) :
    ReadAlike input.msg ((input.evaluateCovered decision).message input.msg) := by
  unfold ShareCommand.evaluateCovered
  split
  · exact ReadAlike.refl
  · split
    · exact h
    · exact ReadAlike.refl

/-- What goes on in the handler reads as what came in. -/
theorem readAlike_message :
    ReadAlike input.msg ((evaluateShareCommand input).message input.msg) := by
  unfold evaluateShareCommand
  split
  · exact ReadAlike.refl
  · exact ReadAlike.refl
  · exact readAlike_evaluateRead
  · split
    · exact ReadAlike.refl
    · split
      · exact readAlike_evaluateDiscussionStart
      · exact readAlike_evaluateCovered readAlike_evaluateSend
      · exact readAlike_evaluateCovered readAlike_evaluateCancel

/-! ## Evidence and the stamp -/

theorem fieldsHaveEvidence_eq_any (fields : Fields) :
    fieldsHaveEvidence fields = fields.any fun field =>
      legacyLiveQueueFields.contains field.1 || containsLegacyLiveQueueEvidence field.2 := by
  induction fields with
  | nil => simp only [fieldsHaveEvidence, List.any_nil]
  | cons field fields ih => rw [fieldsHaveEvidence, ih, List.any_cons]

/-- What is put under a name of its own counts only if it has evidence in it. -/
theorem fieldsHaveEvidence_put {key : String} {value : Json} (fields : Fields)
    (hkey : key ∉ legacyLiveQueueFields)
    (hvalue : containsLegacyLiveQueueEvidence value = false) :
    fieldsHaveEvidence (fields.put key value) = fieldsHaveEvidence (fields.remove key) := by
  rw [fieldsHaveEvidence_eq_any, fieldsHaveEvidence_eq_any, Fields.remove, Fields.put]
  split
  · rw [List.any_map, List.any_filter]
    refine congrArg (List.any fields) (funext fun field => ?_)
    by_cases h : field.1 = key <;> simp [h, hkey, hvalue]
  · rename_i habsent
    have hfilter : fields.filter (·.1 ≠ key) = fields := List.filter_eq_self.2 fun field hfield =>
      decide_eq_true fun heq => habsent (heq ▸ List.mem_map_of_mem hfield)
    rw [hfilter, List.any_append]
    simp [hkey, hvalue]

theorem itemsHaveEvidence_strings (texts : List String) :
    itemsHaveEvidence (texts.map .string) = false := by
  induction texts with
  | nil => simp only [List.map_nil, itemsHaveEvidence]
  | cons text texts ih =>
    rw [List.map_cons, itemsHaveEvidence, ih, containsLegacyLiveQueueEvidence, Bool.or_false]
    all_goals simp

/-- The envelope that the server builds is none of the old queue's. -/
theorem containsLegacyLiveQueueEvidence_envelope (state : ShareScopedSocketState)
    (actionId : String) (now : ℕ) :
    containsLegacyLiveQueueEvidence (buildSharedActorEnvelope state actionId now) = false := by
  have htarget : containsLegacyLiveQueueEvidence state.snapshot.target.toJson = false := by
    cases state.snapshot.target <;>
      simp [ShareTarget.toJson, containsLegacyLiveQueueEvidence, fieldsHaveEvidence,
        legacyLiveQueueFields]
  cases hrecheck : state.snapshot.nextCoverageRecheckAt <;>
    cases hshare : state.snapshot.primaryShareId <;>
      simp [buildSharedActorEnvelope, ShareAuthorizationSnapshot.toJson, orNull, hrecheck, hshare,
        htarget, containsLegacyLiveQueueEvidence, fieldsHaveEvidence, legacyLiveQueueFields,
        itemsHaveEvidence_strings]

/-- A stamped message has the evidence that the message has elsewhere. -/
theorem fieldsHaveEvidence_stamped (actionId : String) :
    fieldsHaveEvidence (input.stamped actionId) =
      fieldsHaveEvidence (input.msg.remove "sharedActor") := by
  rw [ShareCommand.stamped, fieldsHaveEvidence_put]
  · decide
  · exact containsLegacyLiveQueueEvidence_envelope _ _ _

/-! ## The name that is acted on -/

theorem session?_getD_afterSubscriptions {field : Option String} {action : String → BrowserAction}
    (haction : ∀ session, (action session).session? = some session)
    (hafter : (afterSubscriptions msg).session? = none) :
    ((field.map action).getD (afterSubscriptions msg)).session? = field := by
  cases field with
  | none => exact hafter
  | some session => exact haction session

theorem session?_outbound
    (hforward : forwardedSession msg = (some (sendSessionName msg)).filter (· ≠ "")) :
    (outbound msg).session? = (some (sendSessionName msg)).filter (· ≠ "") := by
  unfold outbound
  split
  · split
    · exact hforward
    · rename_i hne
      simp only [BrowserAction.session?, Option.filter, decide_eq_true hne, if_true]
  · exact hforward

/-- Without evidence the session of what comes after the subscriptions is the one that the
message is forwarded for. -/
theorem session?_afterSubscriptions (h : fieldsHaveEvidence msg = false) :
    (afterSubscriptions msg).session? = forwardedSession msg := by
  rw [afterSubscriptions, containsLegacyLiveQueueEvidence, if_neg (by simp [h])]
  split
  case h_1 htype => simp [BrowserAction.session?, forwardedSession, htype]
  case h_2 htype | h_3 htype =>
    rw [session?_outbound] <;> simp [forwardedSession, htype]
  case h_4 => rfl

theorem session?_dropped (h : fieldsHaveEvidence msg = true) :
    (afterSubscriptions msg).session? = none := by
  rw [afterSubscriptions, containsLegacyLiveQueueEvidence, if_pos h]
  rfl

/-- A subscription goes to the session that its field names, whatever else is in the message. -/
theorem session?_subscription
    (h : msg.text "type" ∈
      ["terminal.subscribe", "terminal.unsubscribe", "chat.subscribe", "chat.unsubscribe"]) :
    (browserAction msg).session? = actedName msg := by
  have hafter : (afterSubscriptions msg).session? = none := by
    cases hevidence : fieldsHaveEvidence msg with
    | true => exact session?_dropped hevidence
    | false =>
      rw [session?_afterSubscriptions hevidence]
      simp only [List.mem_cons, List.not_mem_nil, or_false] at h
      rcases h with h | h | h | h <;> simp [forwardedSession, h]
  simp only [List.mem_cons, List.not_mem_nil, or_false] at h
  rcases h with h | h | h | h
  all_goals
    simp only [browserAction, h]
    rw [session?_getD_afterSubscriptions (fun _ => rfl) hafter]
    simp [actedName, h]

/-- Another message is dropped, or goes to the session that its field names. -/
theorem session?_other
    (h : msg.text "type" ∉
      ["terminal.subscribe", "terminal.unsubscribe", "chat.subscribe", "chat.unsubscribe"]) :
    (browserAction msg).session? = if fieldsHaveEvidence msg then none else actedName msg := by
  have hafter : browserAction msg = afterSubscriptions msg := by
    unfold browserAction
    split <;> simp_all
  rw [hafter]
  split
  · rename_i hevidence
    exact session?_dropped hevidence
  · rename_i hevidence
    rw [session?_afterSubscriptions (Bool.eq_false_iff.2 hevidence)]
    unfold forwardedSession actedName
    split <;> simp_all

theorem ReadAlike.text (h : ReadAlike msg msg') {key : String}
    (hkey : key ∈ ["type", "session", "sessionId", "sessionName", "commandId"]) :
    msg'.text key = msg.text key := by
  rw [Fields.text, Fields.text, h key hkey]

theorem ReadAlike.actedName (h : ReadAlike msg msg') : actedName msg' = actedName msg := by
  unfold Share.actedName sendSessionName
  rw [h.text (by decide : "type" ∈ _), h "session" (by decide), h "sessionId" (by decide),
    h "sessionName" (by decide), h.text (by decide : "session" ∈ _)]

/-- The message that goes on is stamped when the decision is to allow it. -/
def Stamps (input : ShareCommand) (decision : ShareCommandDecision) : Prop :=
  decision.isAllowed = true → ∃ actionId, decision.message input.msg = input.stamped actionId

theorem stamps_denied {reason : ShareReason} : Stamps input (.denied reason) := fun h => by cases h

theorem stamps_evaluateSend : Stamps input input.evaluateSend := by
  unfold ShareCommand.evaluateSend
  split
  · exact stamps_denied
  · exact fun _ => ⟨_, rfl⟩

theorem stamps_evaluateCancel : Stamps input input.evaluateCancel := by
  unfold ShareCommand.evaluateCancel
  split
  · exact stamps_denied
  · dsimp only
    split
    · exact stamps_denied
    · exact fun _ => ⟨_, rfl⟩

theorem stamps_evaluateCovered {decision : ShareCommandDecision} (h : Stamps input decision) :
    Stamps input (input.evaluateCovered decision) := by
  unfold ShareCommand.evaluateCovered
  split
  · exact stamps_denied
  · split
    · exact h
    · exact stamps_denied

/-- An allowed send or cancellation goes on with its stamp. -/
theorem stamps_evaluateShareCommand
    (h : input.msg.text "type" ∈ ["session.send", "session.cancel"]) :
    Stamps input (evaluateShareCommand input) := by
  simp only [List.mem_cons, List.not_mem_nil, or_false] at h
  unfold evaluateShareCommand
  rcases h with h | h
  · rw [h, show shareScopedCommandPolicy "session.send" = some .participantSend from rfl]
    dsimp only
    split
    · exact stamps_denied
    · exact stamps_evaluateCovered stamps_evaluateSend
  · rw [h, show shareScopedCommandPolicy "session.cancel" = some .participantCancel from rfl]
    dsimp only
    split
    · exact stamps_denied
    · exact stamps_evaluateCovered stamps_evaluateCancel

/-- A read goes on as it came in. -/
theorem message_read
    (h : shareScopedCommandPolicy (input.msg.text "type") = some (.allowCoveredRead true)) :
    (evaluateShareCommand input).message input.msg = input.msg := by
  rw [evaluateShareCommand, h]
  dsimp only
  unfold ShareCommand.evaluateRead
  repeat' split
  all_goals rfl

/-- What goes on of an allowed message that is not a subscription has evidence exactly when the
message is one that is dropped. -/
theorem fieldsHaveEvidence_message (hallowed : (evaluateShareCommand input).isAllowed = true)
    (htype : input.msg.text "type" ∈
      ["terminal.snapshot_request", "chat.history", "session.send", "session.cancel"]) :
    fieldsHaveEvidence ((evaluateShareCommand input).message input.msg) = true ↔
      IsDropped input.msg := by
  by_cases hread : input.msg.text "type" ∈ ["terminal.snapshot_request", "chat.history"]
  · have hpolicy : shareScopedCommandPolicy (input.msg.text "type") =
        some (.allowCoveredRead true) := by
      simp only [List.mem_cons, List.not_mem_nil, or_false] at hread
      rcases hread with hread | hread <;> (rw [hread]; rfl)
    rw [message_read hpolicy]
    refine ⟨fun h => Or.inl ⟨hread, h⟩, fun h => h.elim And.right fun hsend => ?_⟩
    exact absurd hsend.1 (by
      simp only [List.mem_cons, List.not_mem_nil, or_false] at hread
      rcases hread with hread | hread <;> (rw [hread]; decide))
  · have hsend : input.msg.text "type" ∈ ["session.send", "session.cancel"] := by
      simp only [List.mem_cons, List.not_mem_nil, or_false, not_or] at htype hread ⊢
      exact (htype.resolve_left hread.1).resolve_left hread.2
    obtain ⟨actionId, hmessage⟩ := stamps_evaluateShareCommand hsend hallowed
    rw [hmessage, fieldsHaveEvidence_stamped]
    exact ⟨fun h => Or.inr ⟨hsend, h⟩, fun h => h.elim (fun h => absurd h.1 hread) And.right⟩

/-- An allowed message acts on the session that its field names, unless it is dropped. -/
theorem session?_message (hallowed : (evaluateShareCommand input).isAllowed = true)
    {acted : String} :
    (browserAction ((evaluateShareCommand input).message input.msg)).session? = some acted ↔
      actedName input.msg = some acted ∧ ¬IsDropped input.msg := by
  have halike : ReadAlike input.msg ((evaluateShareCommand input).message input.msg) :=
    readAlike_message
  have htype := halike.text (by decide : "type" ∈ _)
  rw [← halike.actedName]
  by_cases hother : input.msg.text "type" ∈
      ["terminal.snapshot_request", "chat.history", "session.send", "session.cancel"]
  · rw [session?_other (by
      rw [htype]
      simp only [List.mem_cons, List.not_mem_nil, or_false] at hother
      rcases hother with h | h | h | h <;> (rw [h]; decide)),
      ← fieldsHaveEvidence_message hallowed hother]
    split
    · rename_i hevidence
      simp [hevidence]
    · rename_i hevidence
      simp [hevidence]
  · have hdropped : ¬IsDropped input.msg := by
      rintro (⟨h, -⟩ | ⟨h, -⟩) <;> exact hother (by simp_all)
    simp only [hdropped, not_false_eq_true, and_true]
    by_cases hsub : input.msg.text "type" ∈
        ["terminal.subscribe", "terminal.unsubscribe", "chat.subscribe", "chat.unsubscribe"]
    · rw [session?_subscription (by rwa [htype])]
    · rw [session?_other (by rwa [htype])]
      have hnone : actedName ((evaluateShareCommand input).message input.msg) = none := by
        rw [halike.actedName]
        unfold actedName
        simp_all
      rw [hnone]
      simp

/-- A command acts on covered sessions only: when it is allowed and not dropped, the session that
the field for its type names is covered. -/
theorem actsOnCovered_def :
    ActsOnCovered input ↔ ((evaluateShareCommand input).isAllowed = true →
      ∀ acted, actedName input.msg = some acted → ¬IsDropped input.msg →
        input.state.coversSession acted = true) := by
  constructor
  · exact fun h hallowed acted hacted hdropped =>
      h hallowed acted ((session?_message hallowed).2 ⟨hacted, hdropped⟩)
  · intro h hallowed acted hacted
    obtain ⟨hacted, hdropped⟩ := (session?_message hallowed).1 hacted
    exact h hallowed acted hacted hdropped

/-! ## Types of commands -/

/-- A command acts on a session only if it is a read, a send or a cancellation. -/
theorem policy_of_actedName {acted : String} (h : actedName msg = some acted) :
    shareScopedCommandPolicy (msg.text "type") = some (.allowCoveredRead true) ∨
    (msg.text "type" = "session.send" ∧
      shareScopedCommandPolicy (msg.text "type") = some .participantSend) ∨
    (msg.text "type" = "session.cancel" ∧
      shareScopedCommandPolicy (msg.text "type") = some .participantCancel) := by
  unfold actedName at h
  simp only [List.mem_cons, List.not_mem_nil, or_false] at h
  split at h
  · rename_i htype
    rcases htype with htype | htype | htype <;> (rw [htype]; exact Or.inl rfl)
  · split at h
    · rename_i htype
      rcases htype with htype | htype | htype <;> (rw [htype]; exact Or.inl rfl)
    · split at h
      · rename_i htype
        rcases htype with htype | htype <;> rw [htype]
        · exact Or.inr (Or.inl ⟨rfl, rfl⟩)
        · exact Or.inr (Or.inr ⟨rfl, rfl⟩)
      · cases h

/-! ## The condition is enough -/

/-- A command that is allowed although other fields would have it refused acts on a session that
is covered. -/
theorem covers_of_refusedAnyway {acted : String}
    (htarget : isConcreteShareTarget input.state.target = true)
    (hallowed : (evaluateShareCommand input).isAllowed = true)
    (hrefused : RefusedAnyway input.msg acted) : input.state.coversSession acted = true := by
  rcases hrefused with ⟨htype, hscope⟩ | ⟨htype, hobserved⟩
  · have hpolicy : shareScopedCommandPolicy (input.msg.text "type") = some .participantSend := by
      rw [htype]
      rfl
    obtain ⟨-, checked, -, -, hnone⟩ := (ShareCommand.isAllowed_send hpolicy).1 hallowed
    obtain ⟨hbounded, hcovered⟩ := (evaluateP2pSendTargetScope_eq_none htarget).1 hnone
    rcases hscope with hunbounded | hmem
    · rw [hunbounded] at hbounded
      cases hbounded
    · exact hcovered acted hmem
  · have hpolicy : shareScopedCommandPolicy (input.msg.text "type") =
        some .participantCancel := by
      rw [htype]
      rfl
    obtain ⟨-, checked, -, -, -, hne, -⟩ := (ShareCommand.isAllowed_cancel hpolicy).1 hallowed
    exact absurd hobserved hne

/-- An allowed command that acts on a session has a checked name, which is covered. -/
theorem checked_of_allowed {acted : String} (hacted : actedName input.msg = some acted)
    (hallowed : (evaluateShareCommand input).isAllowed = true) :
    ∃ checked, commandSessionName input.msg = some checked ∧
      input.state.coversSession checked = true := by
  rcases policy_of_actedName hacted with hread | ⟨-, hsend⟩ | ⟨-, hcancel⟩
  · exact (ShareCommand.isAllowed_read hread).1 hallowed
  · obtain ⟨-, checked, hchecked, hcovers, -⟩ := (ShareCommand.isAllowed_send hsend).1 hallowed
    exact ⟨checked, hchecked, hcovers⟩
  · obtain ⟨-, checked, hchecked, hcovers, -⟩ :=
      (ShareCommand.isAllowed_cancel hcancel).1 hallowed
    exact ⟨checked, hchecked, hcovers⟩

theorem actsOnCovered_of_namesOneSession (h : NamesOneSession input.msg)
    (htarget : isConcreteShareTarget input.state.target = true) : ActsOnCovered input := by
  rw [actsOnCovered_def]
  intro hallowed acted hacted hdropped
  obtain ⟨checked, hchecked, hcovers⟩ := checked_of_allowed hacted hallowed
  rcases h acted hacted checked hchecked with rfl | hrefused | hdrops
  · exact hcovers
  · exact covers_of_refusedAnyway htarget hallowed hrefused
  · exact absurd hdrops hdropped

/-! ## The condition is needed -/

/-- The share of the main session `checked`, with all sessions below it to which a send is
routed, other than `acted`. -/
def shareOf (msg : Fields) (checked acted : String) : ShareScopedSocketState where
  userId := "user"
  actorDisplayName := "Actor"
  target := .main "server" checked
  snapshot :=
    { target := .main "server" checked
      effectiveRole := .participant
      historyCutoffAt := 0
      nextCoverageRecheckAt := none
      coveringShareIds := []
      primaryShareId := none
      authorizedAt := 0 }
  coveredSessionNames := some ((extractP2pSendTargets msg).sessions.filter (· ≠ acted))

/-- The command of a participant of that share, at a time when its dispatch runs. -/
def commandIn (msg : Fields) (checked acted : String) : ShareCommand where
  msg := msg
  state := shareOf msg checked acted
  now := 0
  runtimeType := .transport
  activeDispatchId := some (jsTrim (msg.text "observedDispatchId"))

section Needed

variable {checked acted : String}

theorem covers_checked : (shareOf msg checked acted).coversSession checked = true := by
  simp [ShareScopedSocketState.coversSession, shareOf, ShareTarget.coversSession]

theorem covers_target (hacted : acted ∉ (extractP2pSendTargets msg).sessions)
    (h : name ∈ (extractP2pSendTargets msg).sessions) :
    (shareOf msg checked acted).coversSession name = true := by
  have hne : name ≠ acted := by
    rintro rfl
    exact hacted h
  simp [ShareScopedSocketState.coversSession, shareOf, h, hne]

theorem not_covers_acted (hne : acted ≠ checked) :
    (shareOf msg checked acted).coversSession acted = false := by
  simp [ShareScopedSocketState.coversSession, shareOf, ShareTarget.coversSession, hne.symm]

theorem allowed_commandIn (hacted : actedName msg = some acted)
    (hchecked : commandSessionName msg = some checked) (hrefused : ¬RefusedAnyway msg acted) :
    (evaluateShareCommand (commandIn msg checked acted)).isAllowed = true := by
  rw [RefusedAnyway, not_or] at hrefused
  rcases policy_of_actedName hacted with hread | ⟨htype, hsend⟩ | ⟨htype, hcancel⟩
  · exact (ShareCommand.isAllowed_read hread).2 ⟨checked, hchecked, covers_checked⟩
  · have hscope := not_or.1 fun h => hrefused.1 ⟨htype, h⟩
    refine (ShareCommand.isAllowed_send hsend).2 ⟨rfl, checked, hchecked, covers_checked, ?_⟩
    exact (evaluateP2pSendTargetScope_eq_none rfl).2
      ⟨Bool.eq_false_iff.2 hscope.1, fun name => covers_target hscope.2⟩
  · exact (ShareCommand.isAllowed_cancel hcancel).2
      ⟨rfl, checked, hchecked, covers_checked, rfl, fun h => hrefused.2 ⟨htype, h⟩, rfl⟩

end Needed

/-- A message makes no share of a tab act on a session that it does not cover exactly when the
message names one session. -/
theorem actsOnCovered_iff (msg : Fields) :
    (∀ input : ShareCommand, input.msg = msg →
      isConcreteShareTarget input.state.target = true → ActsOnCovered input) ↔
    NamesOneSession msg := by
  constructor
  · intro h acted hacted checked hchecked
    by_contra hcontra
    rw [not_or, not_or] at hcontra
    have hcovers := actsOnCovered_def.1 (h (commandIn msg checked acted) rfl rfl)
      (allowed_commandIn hacted hchecked hcontra.2.1) acted hacted hcontra.2.2
    change (shareOf msg checked acted).coversSession acted = true at hcovers
    rw [not_covers_acted hcontra.1] at hcovers
    cases hcovers
  · rintro h input rfl htarget
    exact actsOnCovered_of_namesOneSession h htarget

/-- A share of one tab subscribes to the terminal of another one. -/
theorem not_actsOnCovered :
    ¬∀ input : ShareCommand, isConcreteShareTarget input.state.target = true →
      ActsOnCovered input := by
  intro h
  let msg : Fields := [("type", .string "terminal.subscribe"),
    ("sessionName", .string "deck_app_brain"), ("session", .string "deck_secret_brain")]
  have hacts := h (commandIn msg "deck_app_brain" "deck_secret_brain") rfl (by decide +kernel)
    "deck_secret_brain" (by decide +kernel)
  revert hacts
  decide +kernel

end Imcodes.Share
