import Imcodes.Share.DaemonMessage

/-!
# Leaks through the share of a tab

What a message is about is a session that it names, or the scope of the discussion or of the
run.  A browser with the share of one tab should get it only if that is covered.

* `Contained` — a message that is delivered is about what is covered.
* `OfTabs` — the message is not about a whole server, a run that starts in a session carries
  no scope of its own, and the name of a sub-session stands without spaces around it.
* `contained_iff` — the one for every share of a tab exactly when the message is the other.
* `not_contained` — the update of a discussion on the whole server.
-/

namespace Imcodes.Share

open Queue (jsTrim jsTrim_jsTrim)

/-! ## What a message is about -/

/-- The types whose messages are about the session in their field `session`. -/
def sessionTypes : List String :=
  ["terminal.stream_reset", "session.event", "session_event", "session.idle",
    "session.notification", "session.tool", "command.ack", "command.failed"]

/-- The types whose messages are about the session in their field `sessionId`. -/
def chatTypes : List String :=
  ["chat.history", "chat.delta", "chat.complete", "chat.error", "chat.status", "chat.tool",
    "chat.approval"]

/-- The types whose messages are about a discussion. -/
def discussionTypes : List String :=
  ["discussion.started", "discussion.update", "discussion.done", "discussion.error",
    "discussion.list"]

/-- The types whose messages are about a P2P run that goes on. -/
def runTypes : List String := ["p2p.run_update", "p2p.run_complete", "p2p.run_error"]

/-- A sub-session belongs to the tab of its parent, when this is known. -/
def subsessionTab (msg : Fields) : String :=
  if jsTrim (msg.text "parentSession") = "" then subsessionName msg
  else jsTrim (msg.text "parentSession")

/-- The session that a message is about; empty when it is about none. -/
def subjectSession (msg : Fields) : String :=
  if msg.text "type" ∈ sessionTypes ∨ msg.text "type" = "p2p.run_started" then
    msg.text "session"
  else if msg.text "type" ∈ chatTypes then msg.text "sessionId"
  else if msg.text "type" ∈ ["terminal.diff", "terminal_update"] then
    nestedText msg "diff" "sessionName"
  else if msg.text "type" = "timeline.event" then nestedText msg "event" "sessionId"
  else if msg.text "type" = "subsession.response" then msg.text "sessionName"
  else if msg.text "type" ∈ ["subsession.created", "subsession.removed"] then subsessionTab msg
  else ""

/-- The scope of the discussion or of the run that a message is about. -/
def subjectScope (msg : Fields) : Option ShareTarget :=
  if msg.text "type" ∈ discussionTypes then sharedActorTarget msg
  else if msg.text "type" ∈ runTypes ∨ msg.text "type" = "p2p.run_started" then
    p2pRunScopedTarget msg
  else none

/-- A scope is covered by a share of its server that covers its tab, and the scope of the whole
server only by a share of it. -/
def ShareScopedSocketState.CoversScope (state : ShareScopedSocketState) (scope : ShareTarget) :
    Prop :=
  scope.serverId = state.target.serverId ∧
    if scope.isServer then state.target.isServer = true
    else state.coversSession (sessionNameFromTarget scope) = true

/-- A message that is delivered is about what the state covers. -/
structure Contained (state : ShareScopedSocketState) (msg delivered : Fields) : Prop where
  session : subjectSession msg ≠ "" → state.coversSession (subjectSession msg) = true
  scope : ∀ scope, subjectScope msg = some scope → state.CoversScope scope
  list : msg.text "type" = "session_list" →
    ∀ item ∈ delivered.items "sessions", ListsCovered state item = true

/-! ## The condition -/

/-- A session's name, with no spaces around it if it is the name of a sub-session. -/
def IsOwnName (name : String) : Prop :=
  rawSubSessionIdFromDisplayName name ≠ none → jsTrim name = name

/-- A message about tabs only: its session goes by its own name, and then the message carries no
scope besides; its scope is not a whole server. -/
structure OfTabs (msg : Fields) : Prop where
  named : subjectSession msg ≠ "" → IsOwnName (subjectSession msg) ∧ subjectScope msg = none
  ofTab : ∀ scope, subjectScope msg = some scope → scope.isServer = false

/-! ## Names of sub-sessions -/

section Names

variable {name subSessionId serverId : String}

theorem prefix_append (h : startsWithPrefix name = true) :
    subSessionPrefix ++ String.ofList (name.toList.drop subSessionPrefix.length) = name := by
  have hstarts := List.prefix_iff_eq_append.1 (List.isPrefixOf_iff_prefix.1 h)
  apply String.ext
  rw [String.toList_append, String.toList_ofList]
  exact hstarts

/-- The display name that belongs to the id is the name without the spaces around it. -/
theorem prefix_rawSubSessionId (h : rawSubSessionIdFromDisplayName name = some subSessionId) :
    subSessionPrefix ++ subSessionId = jsTrim name := by
  unfold rawSubSessionIdFromDisplayName at h
  dsimp only at h
  split at h
  · rename_i hstarts
    split at h
    · exact (nomatch h)
    · rw [← Option.some.inj h]
      exact prefix_append hstarts
  · exact (nomatch h)

theorem sessionNameFromTarget_sessionNameToShareTarget :
    sessionNameFromTarget (sessionNameToShareTarget serverId name) =
      if rawSubSessionIdFromDisplayName name = none then name else jsTrim name := by
  unfold sessionNameToShareTarget
  cases h : rawSubSessionIdFromDisplayName name with
  | none => rfl
  | some subSessionId => exact prefix_rawSubSessionId h

theorem isOwnName_iff :
    IsOwnName name ↔ sessionNameFromTarget (sessionNameToShareTarget serverId name) = name := by
  rw [sessionNameFromTarget_sessionNameToShareTarget, IsOwnName]
  by_cases h : rawSubSessionIdFromDisplayName name = none <;> simp [h]

end Names

/-! ## The target that the policy finds -/

section Target

variable {msg : Fields} {state : ShareScopedSocketState} {name : String} {target : ShareTarget}

/-- The target that the policy for the type of a message finds in it. -/
def messageTarget (msg : Fields) : Option ShareTarget :=
  (shareScopedDaemonMessagePolicy.lookup (msg.text "type")).bind (·.target msg)

theorem messageTarget_of_lookup {policy : DaemonMessagePolicy}
    (h : shareScopedDaemonMessagePolicy.lookup (msg.text "type") = some policy) :
    messageTarget msg = policy.target msg := by
  rw [messageTarget, h, Option.bind_some]

/-- How the policy finds a target, by what the message is about. -/
inductive Finds (msg : Fields) : Prop
  | named (hscope : subjectScope msg = none)
      (htarget : messageTarget msg = namedTarget (subjectSession msg))
  | child (hsubject : subjectSession msg = subsessionTab msg) (hscope : subjectScope msg = none)
      (htarget : messageTarget msg = subsessionCreatedTarget msg)
  | started (hsubject : subjectSession msg = msg.text "session")
      (hscope : subjectScope msg = p2pRunScopedTarget msg)
      (htarget : messageTarget msg = p2pRunStartedTarget msg)
  | scope (hsubject : subjectSession msg = "") (htarget : messageTarget msg = subjectScope msg)
  | list (hlist : msg.text "type" = "session_list")

theorem terminalDiffTarget_eq : terminalDiffTarget msg = terminalUpdateTarget msg := by
  unfold terminalDiffTarget terminalUpdateTarget nestedText
  rw [Fields.record?_put_of_ne (by decide)]

theorem finds_session (h : msg.text "type" ∈ sessionTypes) : Finds msg := by
  have hsubject : subjectSession msg = msg.text "session" := if_pos (Or.inl h)
  refine .named ?_ ?_
  · simp only [sessionTypes, List.mem_cons, List.not_mem_nil, or_false] at h
    rcases h with h | h | h | h | h | h | h | h <;>
      simp [subjectScope, h, discussionTypes, runTypes]
  · rw [hsubject, messageTarget]
    simp only [sessionTypes, List.mem_cons, List.not_mem_nil, or_false] at h
    rcases h with h | h | h | h | h | h | h | h <;> (rw [h]; rfl)

theorem finds_chat (h : msg.text "type" ∈ chatTypes) : Finds msg := by
  simp only [chatTypes, List.mem_cons, List.not_mem_nil, or_false] at h
  refine .named ?_ ?_
  · rcases h with h | h | h | h | h | h | h <;>
      simp [subjectScope, h, discussionTypes, runTypes]
  · have hsubject : subjectSession msg = msg.text "sessionId" := by
      rcases h with h | h | h | h | h | h | h <;> simp [subjectSession, h, sessionTypes, chatTypes]
    rw [hsubject, messageTarget]
    rcases h with h | h | h | h | h | h | h <;> (rw [h]; rfl)

theorem finds_terminal (h : msg.text "type" ∈ ["terminal.diff", "terminal_update"]) :
    Finds msg := by
  simp only [List.mem_cons, List.not_mem_nil, or_false] at h
  have hsubject : subjectSession msg = nestedText msg "diff" "sessionName" := by
    rcases h with h | h <;> simp [subjectSession, h, sessionTypes, chatTypes]
  refine .named ?_ ?_
  · rcases h with h | h <;> simp [subjectScope, h, discussionTypes, runTypes]
  · rw [hsubject, messageTarget]
    rcases h with h | h <;> rw [h]
    · exact terminalDiffTarget_eq
    · rfl

theorem finds_discussion (h : msg.text "type" ∈ discussionTypes) : Finds msg := by
  simp only [discussionTypes, List.mem_cons, List.not_mem_nil, or_false] at h
  refine .scope ?_ ?_
  · rcases h with h | h | h | h | h <;> simp [subjectSession, h, sessionTypes, chatTypes]
  · have hscope : subjectScope msg = sharedActorTarget msg := by
      rcases h with h | h | h | h | h <;> simp [subjectScope, h, discussionTypes]
    rw [hscope, messageTarget]
    rcases h with h | h | h | h | h <;> (rw [h]; rfl)

theorem finds_run (h : msg.text "type" ∈ runTypes) : Finds msg := by
  simp only [runTypes, List.mem_cons, List.not_mem_nil, or_false] at h
  refine .scope ?_ ?_
  · rcases h with h | h | h <;> simp [subjectSession, h, sessionTypes, chatTypes]
  · have hscope : subjectScope msg = p2pRunScopedTarget msg := by
      rcases h with h | h | h <;> simp [subjectScope, h, discussionTypes, runTypes]
    rw [hscope, messageTarget]
    rcases h with h | h | h <;> (rw [h]; rfl)

theorem finds_child (h : msg.text "type" ∈ ["subsession.created", "subsession.removed"]) :
    Finds msg := by
  simp only [List.mem_cons, List.not_mem_nil, or_false] at h
  refine .child ?_ ?_ ?_
  · rcases h with h | h <;> simp [subjectSession, h, sessionTypes, chatTypes]
  · rcases h with h | h <;> simp [subjectScope, h, discussionTypes, runTypes]
  · rcases h with h | h
    · have hpolicy : shareScopedDaemonMessagePolicy.lookup (msg.text "type") =
          some { target := subsessionCreatedTarget } := by
        rw [h]
        rfl
      rw [messageTarget_of_lookup hpolicy]
    · have hpolicy : shareScopedDaemonMessagePolicy.lookup (msg.text "type") =
          some { target := subsessionRemovedTarget } := by
        rw [h]
        rfl
      rw [messageTarget_of_lookup hpolicy]
      dsimp only [subsessionRemovedTarget]

/-- Every type is one of these. -/
theorem finds (msg : Fields) : Finds msg := by
  by_cases hsession : msg.text "type" ∈ sessionTypes
  · exact finds_session hsession
  by_cases hchat : msg.text "type" ∈ chatTypes
  · exact finds_chat hchat
  by_cases hterminal : msg.text "type" ∈ ["terminal.diff", "terminal_update"]
  · exact finds_terminal hterminal
  by_cases hdiscussion : msg.text "type" ∈ discussionTypes
  · exact finds_discussion hdiscussion
  by_cases hrun : msg.text "type" ∈ runTypes
  · exact finds_run hrun
  by_cases hchild : msg.text "type" ∈ ["subsession.created", "subsession.removed"]
  · exact finds_child hchild
  by_cases hlist : msg.text "type" = "session_list"
  · exact .list hlist
  by_cases hstarted : msg.text "type" = "p2p.run_started"
  · refine .started (if_pos (Or.inr hstarted)) ?_ (by rw [messageTarget, hstarted]; rfl)
    rw [subjectScope, if_neg hdiscussion, if_pos (Or.inr hstarted)]
  have hscope : subjectScope msg = none := by
    rw [subjectScope, if_neg hdiscussion, if_neg (not_or.2 ⟨hrun, hstarted⟩)]
  by_cases htimeline : msg.text "type" = "timeline.event"
  · refine .named hscope ?_
    rw [subjectSession, if_neg (not_or.2 ⟨hsession, hstarted⟩), if_neg hchat, if_neg hterminal,
      if_pos htimeline, messageTarget, htimeline]
    rfl
  by_cases hresponse : msg.text "type" = "subsession.response"
  · refine .named hscope ?_
    rw [subjectSession, if_neg (not_or.2 ⟨hsession, hstarted⟩), if_neg hchat, if_neg hterminal,
      if_neg htimeline, if_pos hresponse, messageTarget, hresponse]
    rfl
  · refine .scope ?_ ?_
    · rw [subjectSession, if_neg (not_or.2 ⟨hsession, hstarted⟩), if_neg hchat,
        if_neg hterminal, if_neg htimeline, if_neg hresponse, if_neg hchild]
    · have hnone : shareScopedDaemonMessagePolicy.lookup (msg.text "type") = none := by
        simp only [sessionTypes, chatTypes, discussionTypes, runTypes, List.mem_cons,
          List.not_mem_nil, or_false, not_or] at hsession hchat hterminal hdiscussion hrun hchild
        rw [List.lookup_eq_none_iff]
        simp [shareScopedDaemonMessagePolicy, *]
      rw [hscope, messageTarget, hnone]
      rfl

/-! ## When a message is delivered -/

/-- No policy takes the whole message out. -/
theorem isSome_redact {policy : DaemonMessagePolicy}
    (h : shareScopedDaemonMessagePolicy.lookup (msg.text "type") = some policy) :
    (policy.redact msg state).isSome = true := by
  have hall : ∀ entry ∈ shareScopedDaemonMessagePolicy,
      entry.2.redact = (fun msg _ => some msg) ∨ entry.2.redact = redactTransportHistory ∨
        entry.2.redact = redactActiveDispatchForViewers ∨ entry.2.redact = redactSessionList := by
    simp [shareScopedDaemonMessagePolicy]
  obtain ⟨before, after, htable, -⟩ := List.lookup_eq_some_iff.1 h
  have hmem : (msg.text "type", policy) ∈ shareScopedDaemonMessagePolicy := by
    rw [htable]
    exact List.mem_append_right _ List.mem_cons_self
  rcases hall _ hmem with hredact | hredact | hredact | hredact <;>
    (dsimp only at hredact; rw [hredact])
  · rfl
  · rfl
  · unfold redactActiveDispatchForViewers
    split <;> rfl
  · unfold redactSessionList
    split <;> rfl

/-- A message is delivered when the target that the policy finds in it passes. -/
theorem isSome_filterShareDaemonMessage :
    (filterShareDaemonMessage msg state).isSome = true ↔
      ∃ target, messageTarget msg = some target ∧ Passes state target = true := by
  unfold filterShareDaemonMessage messageTarget
  cases hpolicy : shareScopedDaemonMessagePolicy.lookup (msg.text "type") with
  | none => simp
  | some policy =>
    cases htarget : policy.target msg with
    | none => simp [htarget]
    | some target =>
      simp only [Option.bind_eq_bind, Option.bind_some, htarget, Option.some.injEq,
        exists_eq_left']
      split
      · rename_i hpasses
        exact iff_of_true (isSome_redact hpolicy) hpasses
      · rename_i hpasses
        exact iff_of_false (by simp) hpasses

/-- A target without a server passes when its session is covered. -/
theorem passes_of_tab (hserver : target.serverId = "") (hkind : target.isServer = false) :
    Passes state target = state.coversSession (sessionNameFromTarget target) := by
  simp [Passes, hserver, hkind]

theorem passes_sessionNameToShareTarget :
    Passes state (sessionNameToShareTarget "" name) =
      state.coversSession (sessionNameFromTarget (sessionNameToShareTarget "" name)) := by
  refine passes_of_tab ?_ ?_
  · unfold sessionNameToShareTarget
    split <;> rfl
  · unfold sessionNameToShareTarget
    split <;> rfl

theorem exists_passes_namedTarget (hname : name ≠ "") :
    (∃ target, namedTarget name = some target ∧ Passes state target = true) ↔
      state.coversSession (sessionNameFromTarget (sessionNameToShareTarget "" name)) = true := by
  rw [namedTarget, if_neg hname, ← passes_sessionNameToShareTarget]
  simp

theorem exists_passes_subsessionCreatedTarget (hname : subsessionTab msg ≠ "") :
    (∃ target, subsessionCreatedTarget msg = some target ∧ Passes state target = true) ↔
      state.coversSession
        (sessionNameFromTarget (sessionNameToShareTarget "" (subsessionTab msg))) = true := by
  unfold subsessionCreatedTarget subsessionTab at *
  dsimp only
  by_cases hparent : jsTrim (msg.text "parentSession") = ""
  · rw [if_pos hparent] at hname
    rw [if_neg (not_not.2 hparent), if_pos hparent]
    exact exists_passes_namedTarget hname
  · have hown : IsOwnName (jsTrim (msg.text "parentSession")) := fun _ => jsTrim_jsTrim _
    rw [if_pos hparent, if_neg hparent, isOwnName_iff.1 hown]
    simp [Passes, ShareTarget.serverId, ShareTarget.isServer, sessionNameFromTarget]

theorem subjectSession_of_list (h : msg.text "type" = "session_list") :
    subjectSession msg = "" := by
  simp [subjectSession, h, sessionTypes, chatTypes]

theorem subjectScope_of_list (h : msg.text "type" = "session_list") : subjectScope msg = none := by
  simp [subjectScope, h, discussionTypes, runTypes]

/-- A message about a session is delivered when the display name that belongs to its name is
covered. -/
theorem delivered_of_session (hname : subjectSession msg ≠ "") :
    (filterShareDaemonMessage msg state).isSome = true ↔
      state.coversSession
        (sessionNameFromTarget (sessionNameToShareTarget "" (subjectSession msg))) = true := by
  rw [isSome_filterShareDaemonMessage]
  cases finds msg with
  | named hscope htarget => rw [htarget, exists_passes_namedTarget hname]
  | child hsubject hscope htarget =>
    rw [hsubject] at hname
    rw [htarget, hsubject, exists_passes_subsessionCreatedTarget hname]
  | started hsubject hscope htarget =>
    rw [hsubject] at hname
    rw [htarget, hsubject, p2pRunStartedTarget, if_pos hname, exists_passes_namedTarget hname]
  | scope hsubject htarget => exact absurd hsubject hname
  | list hlist => exact absurd (subjectSession_of_list hlist) hname

/-- A message about a discussion or a run is delivered when its scope passes. -/
theorem delivered_of_scope (hname : subjectSession msg = "")
    (hscope : subjectScope msg = some target) :
    (filterShareDaemonMessage msg state).isSome = true ↔ Passes state target = true := by
  rw [isSome_filterShareDaemonMessage]
  have htarget : messageTarget msg = some target := by
    cases finds msg with
    | named hnone htarget => rw [hnone] at hscope; cases hscope
    | child hsubject hnone htarget => rw [hnone] at hscope; cases hscope
    | started hsubject hruns htarget =>
      rw [htarget, p2pRunStartedTarget, if_neg (not_not.2 (hsubject ▸ hname)), ← hruns, hscope]
    | scope hsubject htarget => rw [htarget, hscope]
    | list hlist => rw [subjectScope_of_list hlist] at hscope; cases hscope
  simp [htarget]

/-! ## The server of a scope -/

/-- A target that was read names its server. -/
def NamesServer (found : Option ShareTarget) : Prop :=
  ∀ target, found = some target → target.serverId ≠ ""

theorem NamesServer.or {found found' : Option ShareTarget} (h : NamesServer found)
    (h' : NamesServer found') : NamesServer (found.or found') := by
  cases found with
  | none => exact h'
  | some target => exact h

theorem namesServer_normalizeShareTarget {input : Option Json} :
    NamesServer (normalizeShareTarget input) := by
  intro target htarget
  unfold normalizeShareTarget at htarget
  cases hrecord : input.bind Json.record? with
  | none =>
    rw [hrecord] at htarget
    cases htarget
  | some record =>
    simp only [hrecord, Option.bind_eq_bind, Option.bind_some] at htarget
    split at htarget
    · cases htarget
    · rename_i hserver
      split at htarget
      · cases htarget
        exact hserver
      · split at htarget
        · cases htarget
        · cases htarget
          exact hserver
      · obtain ⟨subSessionId, -, rfl⟩ := Option.map_eq_some_iff.1 htarget
        exact hserver
      · cases htarget

theorem namesServer_sharedActorTarget : NamesServer (sharedActorTarget msg) :=
  namesServer_normalizeShareTarget.or namesServer_normalizeShareTarget

theorem namesServer_p2pRunScopedTarget : NamesServer (p2pRunScopedTarget msg) :=
  namesServer_normalizeShareTarget.or <| namesServer_normalizeShareTarget.or <|
    namesServer_normalizeShareTarget.or <| namesServer_normalizeShareTarget.or
      namesServer_sharedActorTarget

theorem namesServer_subjectScope : NamesServer (subjectScope msg) := by
  unfold subjectScope
  split
  · exact namesServer_sharedActorTarget
  · split
    · exact namesServer_p2pRunScopedTarget
    · exact fun target htarget => (nomatch htarget)

/-! ## The condition is enough -/

/-- A share of a tab finds no session in a list that it does not cover. -/
theorem listsCovered_of_delivered {delivered : Fields}
    (htab : isConcreteShareTarget state.target = true) (hlist : msg.text "type" = "session_list")
    (h : filterShareDaemonMessage msg state = some delivered) :
    ∀ item ∈ delivered.items "sessions", ListsCovered state item = true := by
  have hpolicy : shareScopedDaemonMessagePolicy.lookup (msg.text "type") =
      some { target := serverFieldTarget, redact := redactSessionList } := by
    rw [hlist]
    rfl
  have hserver : ¬state.target.isServer = true := by
    rwa [isConcreteShareTarget, Bool.not_eq_true', ← Bool.not_eq_true] at htab
  simp only [filterShareDaemonMessage, hpolicy, serverFieldTarget, Option.bind_eq_bind,
    Option.bind_some, redactSessionList, if_neg hserver] at h
  split at h
  · rw [← Option.some.inj h, Fields.items_put_self]
    exact fun item hitem => (List.mem_filter.1 hitem).2
  · cases h

theorem contained_of_ofTabs (h : OfTabs msg) (htab : isConcreteShareTarget state.target = true)
    {delivered : Fields} (hdelivered : filterShareDaemonMessage msg state = some delivered) :
    Contained state msg delivered := by
  have hsome : (filterShareDaemonMessage msg state).isSome = true := by
    rw [hdelivered]
    rfl
  refine ⟨fun hname => ?_, fun scope hscope => ?_,
    fun hlist => listsCovered_of_delivered htab hlist hdelivered⟩
  · have hcovers := (delivered_of_session hname).1 hsome
    rwa [isOwnName_iff.1 (h.named hname).1] at hcovers
  · by_cases hname : subjectSession msg = ""
    · have hpasses := (delivered_of_scope hname hscope).1 hsome
      have hserver := namesServer_subjectScope scope hscope
      have hkind := h.ofTab scope hscope
      simp only [Passes, hserver, decide_false, Bool.false_or, hkind, Bool.and_eq_true,
        decide_eq_true_eq] at hpasses
      refine ⟨hpasses.1, ?_⟩
      rw [hkind, if_neg Bool.false_ne_true]
      exact hpasses.2
    · rw [(h.named hname).2] at hscope
      cases hscope

/-! ## The condition is needed -/

/-- A viewer's share of one main session. -/
def viewerOf (serverId sessionName : String) : ShareScopedSocketState where
  userId := "user"
  actorDisplayName := "Actor"
  target := .main serverId sessionName
  snapshot :=
    { target := .main serverId sessionName
      effectiveRole := .viewer
      historyCutoffAt := 0
      nextCoverageRecheckAt := none
      coveringShareIds := []
      primaryShareId := none
      authorizedAt := 0 }
  coveredSessionNames := some [sessionName]

theorem coversSession_viewerOf {serverId sessionName : String} :
    (viewerOf serverId sessionName).coversSession name = true ↔ name = sessionName := by
  simp only [ShareScopedSocketState.coversSession, viewerOf, ShareTarget.coversSession,
    Option.getD_some, Bool.or_eq_true, decide_eq_true_eq, List.contains_iff_mem,
    List.mem_singleton]
  exact ⟨fun h => h.elim Eq.symm id, Or.inr⟩

/-- A message is contained for every share of a tab. -/
def ContainedForTabs (msg : Fields) : Prop :=
  ∀ (state : ShareScopedSocketState), isConcreteShareTarget state.target = true →
    ∀ delivered, filterShareDaemonMessage msg state = some delivered →
      Contained state msg delivered

theorem exists_delivered (h : (filterShareDaemonMessage msg state).isSome = true) :
    ∃ delivered, filterShareDaemonMessage msg state = some delivered := Option.isSome_iff_exists.1 h

theorem named_of_contained (h : ContainedForTabs msg) (hname : subjectSession msg ≠ "") :
    IsOwnName (subjectSession msg) ∧ subjectScope msg = none := by
  obtain ⟨own, hown⟩ : ∃ own, own =
      sessionNameFromTarget (sessionNameToShareTarget "" (subjectSession msg)) := ⟨_, rfl⟩
  have hdelivered : ∀ serverId,
      ∃ delivered, filterShareDaemonMessage msg (viewerOf serverId own) = some delivered :=
    fun serverId => exists_delivered
      ((delivered_of_session hname).2 (coversSession_viewerOf.2 hown.symm))
  constructor
  · obtain ⟨delivered, hsent⟩ := hdelivered "server"
    have hcovers := (h _ rfl delivered hsent).session hname
    rw [coversSession_viewerOf, hown] at hcovers
    exact isOwnName_iff.2 hcovers.symm
  · -- a share of the session on a server that is not the scope's
    rw [Option.eq_none_iff_forall_ne_some]
    intro scope hscope
    obtain ⟨delivered, hsent⟩ := hdelivered (scope.serverId ++ "'")
    have hserver : scope.serverId = scope.serverId ++ "'" :=
      ((h _ rfl delivered hsent).scope scope hscope).1
    have hlength := congrArg String.length hserver
    simp at hlength

theorem ofTab_of_contained (h : ContainedForTabs msg) {scope : ShareTarget}
    (hscope : subjectScope msg = some scope) : scope.isServer = false := by
  by_contra hkind
  rw [Bool.not_eq_false] at hkind
  have hname : subjectSession msg = "" := by
    by_contra hname
    rw [(named_of_contained h hname).2] at hscope
    cases hscope
  have hpasses : Passes (viewerOf scope.serverId "tab") scope = true := by
    simp [Passes, hkind, viewerOf, ShareTarget.serverId]
  obtain ⟨delivered, hsent⟩ := exists_delivered ((delivered_of_scope hname hscope).2 hpasses)
  have hcovers := (h _ rfl delivered hsent).scope scope hscope
  rw [ShareScopedSocketState.CoversScope, if_pos hkind] at hcovers
  exact (nomatch hcovers.2)

end Target

/-- A message is contained for every share of a tab exactly when it is about tabs only. -/
theorem contained_iff (msg : Fields) :
    (∀ (state : ShareScopedSocketState), isConcreteShareTarget state.target = true →
      ∀ delivered, filterShareDaemonMessage msg state = some delivered →
        Contained state msg delivered) ↔ OfTabs msg :=
  ⟨fun h => ⟨named_of_contained h, fun _ => ofTab_of_contained h⟩,
    fun h _ htab _ hdelivered => contained_of_ofTabs h htab hdelivered⟩

/-- The update of a discussion on the whole server goes to the share of one tab. -/
theorem not_contained :
    ¬∀ (msg : Fields) (state : ShareScopedSocketState),
      isConcreteShareTarget state.target = true →
        ∀ delivered, filterShareDaemonMessage msg state = some delivered →
          Contained state msg delivered := by
  intro h
  let msg : Fields := [("type", .string "discussion.update"),
    ("shareScope", .object [("target", (ShareTarget.server "server").toJson)])]
  have hcovers := (h msg (viewerOf "server" "deck_app_brain") rfl msg rfl).scope
    (.server "server") rfl
  exact (nomatch hcovers.2)

end Imcodes.Share
