import Imcodes.Machine.Runs
import Imcodes.Share.Acted

/-!
# A share socket over its life

Whether a socket came in through a share is looked up in a map, once for every message.  The check
of a message asks for the coverage that the share has now, and waits several times.  A
revalidation that finds no coverage takes the socket out of the map and starts to close it.

* `ShareSocket.step` — messages and their checks, revalidations, and the end of the socket.
* `Handled` — a message went on because it was allowed under a coverage that was answered for it.
* `staysShared_iff` — **when a share socket stays one**: exactly when each of its messages comes
  while the socket is in the map.
* `not_staysShared` — a message that was on its way when the share was revoked.
* `known_of_keeps` — while no revalidation finds the coverage gone, that does not happen.
-/

namespace Imcodes.Share

open Machine

/-! ## The states of a socket -/

/-- How far the check of a command is: what it waits for, and what it has found. -/
inductive CommandCheck
  /-- `await this.resolveLiveShareCoverage(state)` -/
  | resolving (state : ShareScopedSocketState)
  /-- `await this.refreshShareActorDisplayName(ws)`, and whether that asks for the user. -/
  | refreshing (state : ShareScopedSocketState) (coverage : ShareAuthorizationSnapshot)
    (asks : Bool)
  /-- `await this.resolveShareCoveredSessionNames(coverage.target)` -/
  | covering (state : ShareScopedSocketState) (coverage : ShareAuthorizationSnapshot)
  /-- `await this.resolveSessionRuntimeType(sessionName)` -/
  | typing (current : ShareScopedSocketState)
  /-- `await this.auditShareScopedBrowserCommand(current, msg, decision)` -/
  | auditing (decision : ShareCommandDecision)

structure PendingCommand where
  id : ℕ
  msg : Fields
  check : CommandCheck

/-- What `revalidateShareSocket` waits for. -/
inductive ShareRevalidation
  | resolving (state : ShareScopedSocketState)
  | covering (state : ShareScopedSocketState) (coverage : ShareAuthorizationSnapshot)

/-- A socket that came in through a share.  It has one ticket all its life. -/
structure ShareSocket where
  /-- `this.browserShareStates.get(ws)` -/
  shareState : Option ShareScopedSocketState
  /-- Whether the `close` event came, after which no message does. -/
  closed : Bool := false
  /-- The number of the messages that came, which number them. -/
  received : ℕ := 0
  commands : List PendingCommand := []
  revalidations : List ShareRevalidation := []
  /-- The messages that were allowed, as they went on in the handler. -/
  handled : List (ℕ × Fields) := []
  /-- The messages that went on as those of a browser without restrictions. -/
  unrestricted : List ℕ := []

/-- What the check of a command waits for. -/
inductive CommandAnswer
  | coverage (coverage : Option ShareAuthorizationSnapshot) (now : ℕ)
  /-- The name of the user, if the database tells it. -/
  | displayName (displayName : Option String)
  | coveredSessionNames (names : Option (List String))
  /-- How the session runs, and what is read afterwards: the time, the dispatch of the session and
  the limit of the rate that is reached. -/
  | runtimeType (runtimeType : RuntimeType) (now : ℕ) (activeDispatchId : Option String)
    (rateLimitReason : Option ShareReason)
  | audited
  /-- What is waited for throws, which ends the handler. -/
  | threw

inductive ShareSocketEvent
  /-- A message within the limit of size, with a type, that is no ping. -/
  | message (msg : Fields)
  | answer (id : ℕ) (answer : CommandAnswer)
  /-- For the user, for the target, or because the coverage is due. -/
  | revalidate
  | revalidated (i : ℕ) (coverage : Option ShareAuthorizationSnapshot)
  | recovered (i : ℕ) (names : Option (List String))
  /-- The two refreshes of a new socket. -/
  | actorNamed (displayName : Option String)
  | sessionsNamed (names : Option (List String))
  | closed
  | failed

namespace ShareScopedSocketState

/-- `shareStateLooksExpired` -/
def looksExpired (state : ShareScopedSocketState) (now : ℕ) : Bool :=
  match state.snapshot.nextCoverageRecheckAt with
  | some next => next ≤ now
  | none => false

/-- The state that `applyShareCoverage` puts into the map. -/
def applyShareCoverage (state : ShareScopedSocketState) (coverage : ShareAuthorizationSnapshot)
    (names : Option (List String)) : ShareScopedSocketState :=
  { state with
    target := coverage.target
    snapshot := coverage
    coveredSessionNames := names }

end ShareScopedSocketState

def baseCoveredSessionNames : ShareTarget → Option (List String)
  | .server _ => none
  | .main _ sessionName => some [sessionName]
  | .subsession _ subSessionId => some [subSessionPrefix ++ subSessionId]

def handleShareBrowserConnection (userId : String) (target : ShareTarget)
    (snapshot : ShareAuthorizationSnapshot) : ShareSocket :=
  { shareState := some
      { userId, actorDisplayName := userId, target, snapshot
        coveredSessionNames := baseCoveredSessionNames target } }

/-- The decision about a command, whose session is asked about only if it names one. -/
def shareCommandDecision (current : ShareScopedSocketState) (msg : Fields)
    (runtimeType : RuntimeType) (now : ℕ) (activeDispatchId : Option String)
    (rateLimitReason : Option ShareReason) : ShareCommandDecision :=
  match commandSessionName msg with
  | none =>
      evaluateShareCommand
        { msg, state := current, now, runtimeType := .unknown, activeDispatchId := none }
  | some _ =>
      let decision := evaluateShareCommand { msg, state := current, now, runtimeType
                                             activeDispatchId }
      match decision.isAllowed, rateLimitReason with
      | true, some reason => .denied reason
      | _, _ => decision

namespace ShareSocket

/-- The handler of a command ends. -/
def settle (s : ShareSocket) (id : ℕ) : ShareSocket :=
  { s with commands := s.commands.filter (·.id ≠ id) }

/-- The handler of a command waits for something else. -/
def wait (s : ShareSocket) (command : PendingCommand) (check : CommandCheck) : ShareSocket :=
  { s with commands := s.commands.filter (·.id ≠ command.id) ++ [{ command with check }] }

/-- Whether `refreshShareActorDisplayName` asks for the user. -/
def asksForName (s : ShareSocket) : Bool :=
  match s.shareState with
  | some state => state.actorDisplayName = state.userId
  | none => false

/-- The name is put into the state that the map has then. -/
def nameActor (s : ShareSocket) : Option String → ShareSocket
  | some displayName =>
      { s with shareState := s.shareState.map ({ · with actorDisplayName := displayName }) }
  | none => s

/-- `evaluateShareScopedBrowserCommand`, after each of its awaits, and what follows in the
handler. -/
def advance (s : ShareSocket) (command : PendingCommand) :
    CommandCheck → CommandAnswer → ShareSocket
  | .resolving state, .coverage none now =>
      s.wait command (.auditing (.denied (if state.looksExpired now then .expired else .revoked)))
  | .resolving state, .coverage (some coverage) _ =>
      s.wait command (.refreshing state coverage s.asksForName)
  | .refreshing state coverage asks, .displayName displayName =>
      let s := if asks then s.nameActor displayName else s
      s.wait command (.covering (s.shareState.getD state) coverage)
  | .covering state coverage, .coveredSessionNames names =>
      let next := state.applyShareCoverage coverage names
      { s with shareState := next }.wait command (.typing next)
  | .typing current, .runtimeType runtimeType now activeDispatchId rateLimitReason =>
      s.wait command (.auditing (shareCommandDecision current command.msg runtimeType now
        activeDispatchId rateLimitReason))
  | .auditing decision, .audited =>
      if decision.isAllowed then
        { s.settle command.id with
          handled := s.handled ++ [(command.id, decision.message command.msg)] }
      else s.settle command.id
  | _, .threw => s.settle command.id
  | _, _ => s

def step (s : ShareSocket) : ShareSocketEvent → ShareSocket
  | .message msg =>
      let s' := { s with received := s.received + 1 }
      if s.closed then s'
      else match s.shareState with
        | none => { s' with unrestricted := s.unrestricted ++ [s.received] }
        | some state =>
            { s' with commands := s.commands ++ [⟨s.received, msg, .resolving state⟩] }
  | .answer id answer =>
      match s.commands.find? (·.id = id) with
      | some command => s.advance command command.check answer
      | none => s
  | .revalidate =>
      match s.shareState with
      | some state => { s with revalidations := s.revalidations ++ [.resolving state] }
      | none => s
  | .revalidated i coverage =>
      match s.revalidations[i]?, coverage with
      | some (.resolving _), none =>
          -- `teardownShareSocket`
          { s with shareState := none, revalidations := s.revalidations.eraseIdx i }
      | some (.resolving state), some coverage =>
          { s with revalidations := s.revalidations.set i (.covering state coverage) }
      | _, _ => s
  | .recovered i names =>
      match s.revalidations[i]? with
      | some (.covering state coverage) =>
          { s with
            shareState := state.applyShareCoverage coverage names
            revalidations := s.revalidations.eraseIdx i }
      | _ => s
  | .actorNamed displayName => s.nameActor displayName
  | .sessionsNamed names =>
      { s with shareState := s.shareState.map ({ · with coveredSessionNames := names }) }
  | .closed => { s with shareState := none, closed := true }
  | .failed => { s with shareState := none }

end ShareSocket

/-! ## What is handled -/

def ShareSocketEvent.message? : ShareSocketEvent → Option Fields
  | .message msg => some msg
  | _ => none

/-- The messages that came. -/
def messages (events : List ShareSocketEvent) : List Fields :=
  events.filterMap ShareSocketEvent.message?

/-- This coverage was answered for a message that had come. -/
def Answered (events : List ShareSocketEvent) (id : ℕ) (msg : Fields)
    (coverage : ShareAuthorizationSnapshot) : Prop :=
  ∃ before now, before ++ [.answer id (.coverage (some coverage) now)] <+: events ∧
    (messages before)[id]? = some msg

/-- The state has this coverage. -/
def ShareScopedSocketState.Under (state : ShareScopedSocketState)
    (coverage : ShareAuthorizationSnapshot) : Prop :=
  state.target = coverage.target ∧ state.snapshot = coverage

/-- `evaluateShareCommand` decides so about the message, under a coverage that was answered for
it. -/
def Decided (events : List ShareSocketEvent) (id : ℕ) (msg : Fields)
    (decision : ShareCommandDecision) : Prop :=
  ∃ coverage, Answered events id msg coverage ∧
    ∃ command : ShareCommand, command.msg = msg ∧ command.state.Under coverage ∧
      evaluateShareCommand command = decision

/-- What goes on in the handler is a message that was allowed, as it was stamped. -/
def Handled (events : List ShareSocketEvent) (handled : ℕ × Fields) : Prop :=
  ∃ msg decision, Decided events handled.1 msg decision ∧ decision.isAllowed = true ∧
    handled.2 = decision.message msg

/-- **A share socket stays one**: what it acts on was allowed under a coverage of the time, and
none of its messages is one of a browser without restrictions. -/
structure StaysShared (events : List ShareSocketEvent) (s : ShareSocket) : Prop where
  handled : ∀ handled ∈ s.handled, Handled events handled
  unrestricted : s.unrestricted = []

/-- A message comes while the socket is in the map. -/
def ShareSocket.Known (s : ShareSocket) : ShareSocketEvent → Prop
  | .message _ => s.closed = true ∨ s.shareState.isSome = true
  | _ => True

/-! ## Checks -/

variable {events : List ShareSocketEvent} {e : ShareSocketEvent} {id : ℕ} {msg : Fields}
  {coverage : ShareAuthorizationSnapshot} {s s' : ShareSocket}

theorem messages_concat : messages (events ++ [e]) = messages events ++ e.message?.toList := by
  rw [messages, messages, List.filterMap_append]
  cases e <;> rfl

theorem Answered.concat (h : Answered events id msg coverage) (e : ShareSocketEvent) :
    Answered (events ++ [e]) id msg coverage := by
  obtain ⟨before, now, hpre, hmsg⟩ := h
  exact ⟨before, now, hpre.trans (List.prefix_append _ _), hmsg⟩

theorem Decided.concat {decision : ShareCommandDecision} (h : Decided events id msg decision)
    (e : ShareSocketEvent) : Decided (events ++ [e]) id msg decision := by
  obtain ⟨coverage, hanswered, hdecided⟩ := h
  exact ⟨coverage, hanswered.concat e, hdecided⟩

theorem Handled.concat {handled : ℕ × Fields} (h : Handled events handled)
    (e : ShareSocketEvent) : Handled (events ++ [e]) handled := by
  obtain ⟨msg, decision, hdecided, hallowed⟩ := h
  exact ⟨msg, decision, hdecided.concat e, hallowed⟩

/-- What the check of a message has found is right. -/
def CheckRight (events : List ShareSocketEvent) (id : ℕ) (msg : Fields) : CommandCheck → Prop
  | .resolving _ => True
  | .refreshing _ coverage _ => Answered events id msg coverage
  | .covering _ coverage => Answered events id msg coverage
  | .typing current => ∃ coverage, Answered events id msg coverage ∧ current.Under coverage
  | .auditing decision => decision.isAllowed = true → Decided events id msg decision

theorem CheckRight.concat {check : CommandCheck} (h : CheckRight events id msg check)
    (e : ShareSocketEvent) : CheckRight (events ++ [e]) id msg check := by
  cases check with
  | resolving state => trivial
  | refreshing state coverage asks => exact Answered.concat h e
  | covering state coverage => exact Answered.concat h e
  | typing current =>
    obtain ⟨coverage, hanswered, hunder⟩ := h
    exact ⟨coverage, hanswered.concat e, hunder⟩
  | auditing decision => exact fun hallowed => (h hallowed).concat e

/-- An allowed command was allowed by `evaluateShareCommand`, before its rate was looked at. -/
theorem decided_of_allowed {current : ShareScopedSocketState} {runtimeType : RuntimeType} {now : ℕ}
    {activeDispatchId : Option String} {rateLimitReason : Option ShareReason}
    (hanswered : Answered events id msg coverage) (hunder : current.Under coverage)
    (hallowed : (shareCommandDecision current msg runtimeType now activeDispatchId
      rateLimitReason).isAllowed = true) :
    Decided events id msg
      (shareCommandDecision current msg runtimeType now activeDispatchId rateLimitReason) := by
  refine ⟨coverage, hanswered, ?_⟩
  unfold shareCommandDecision at hallowed ⊢
  split at hallowed
  · exact ⟨_, rfl, hunder, rfl⟩
  · dsimp only at hallowed ⊢
    split at hallowed
    · cases hallowed
    · exact ⟨_, rfl, hunder, rfl⟩

/-! ## Runs -/

/-- The commands that are checked are messages that came, with checks that are right, and so are
those that were handled. -/
structure Right (events : List ShareSocketEvent) (s : ShareSocket) : Prop where
  received : s.received = (messages events).length
  pending : ∀ command ∈ s.commands, (messages events)[command.id]? = some command.msg ∧
    CheckRight events command.id command.msg command.check
  handled : ∀ handled ∈ s.handled, Handled events handled

/-- An event that is no message, and concerns no command. -/
theorem Right.concat (h : Right events s) (hmessage : e.message? = none)
    (hreceived : s'.received = s.received)
    (hcommands : ∀ command ∈ s'.commands, command ∈ s.commands)
    (hhandled : s'.handled = s.handled) : Right (events ++ [e]) s' := by
  have hmessages : messages (events ++ [e]) = messages events := by
    rw [messages_concat, hmessage, Option.toList_none, List.append_nil]
  refine ⟨?_, fun command hmem => ?_, fun handled hmem => ?_⟩
  · rw [hreceived, hmessages, h.received]
  · rw [hmessages]
    obtain ⟨hmsg, hcheck⟩ := h.pending command (hcommands command hmem)
    exact ⟨hmsg, hcheck.concat e⟩
  · exact (h.handled handled (hhandled ▸ hmem)).concat e

/-- A command gets to its next check. -/
theorem Right.wait {command : PendingCommand} {check : CommandCheck} (h : Right events s)
    (hmessage : e.message? = none) (hmem : command ∈ s.commands)
    (hreceived : s'.received = s.received) (hcommands : s'.commands = s.commands)
    (hhandled : s'.handled = s.handled)
    (hcheck : CheckRight (events ++ [e]) command.id command.msg check) :
    Right (events ++ [e]) (s'.wait command check) := by
  have hconcat : Right (events ++ [e]) s' :=
    h.concat hmessage hreceived (fun other hother => hcommands ▸ hother) hhandled
  refine ⟨hconcat.received, fun other hother => ?_, hconcat.handled⟩
  rcases List.mem_append.1 hother with hkept | hnew
  · exact hconcat.pending other (List.mem_of_mem_filter hkept)
  · obtain rfl := List.mem_singleton.1 hnew
    exact ⟨(hconcat.pending command (hcommands ▸ hmem)).1, hcheck⟩

theorem Right.settle {command : PendingCommand} (h : Right events s)
    (hmessage : e.message? = none) : Right (events ++ [e]) (s.settle command.id) :=
  h.concat hmessage rfl (fun _ hother => List.mem_of_mem_filter hother) rfl

theorem commands_nameActor {displayName : Option String} :
    (s.nameActor displayName).commands = s.commands := by
  cases displayName <;> rfl

theorem received_nameActor {displayName : Option String} :
    (s.nameActor displayName).received = s.received := by
  cases displayName <;> rfl

theorem handled_nameActor {displayName : Option String} :
    (s.nameActor displayName).handled = s.handled := by
  cases displayName <;> rfl

/-- The check of a command goes on. -/
theorem Right.advance {command : PendingCommand} (h : Right events s)
    (hmem : command ∈ s.commands) (answer : CommandAnswer) :
    Right (events ++ [.answer command.id answer]) (s.advance command command.check answer) := by
  obtain ⟨hmsg, hright⟩ := h.pending command hmem
  have hsame : Right (events ++ [.answer command.id answer]) s :=
    h.concat rfl rfl (fun _ hother => hother) rfl
  cases hcheck : command.check with
  | resolving state =>
    cases answer with
    | coverage coverage now =>
      cases coverage with
      | none => exact h.wait rfl hmem rfl rfl rfl fun hallowed => by cases hallowed
      | some coverage =>
        exact h.wait rfl hmem rfl rfl rfl ⟨events, now, List.prefix_refl _, hmsg⟩
    | threw => exact h.settle rfl
    | displayName | coveredSessionNames | runtimeType | audited => exact hsame
  | refreshing state coverage asks =>
    rw [hcheck] at hright
    cases answer with
    | displayName displayName =>
      rw [ShareSocket.advance]
      refine h.wait rfl hmem ?_ ?_ ?_ (Answered.concat hright _) <;> split <;>
        simp [commands_nameActor, received_nameActor, handled_nameActor]
    | threw => exact h.settle rfl
    | coverage | coveredSessionNames | runtimeType | audited => exact hsame
  | covering state coverage =>
    rw [hcheck] at hright
    cases answer with
    | coveredSessionNames names =>
      exact h.wait rfl hmem rfl rfl rfl ⟨coverage, Answered.concat hright _, rfl, rfl⟩
    | threw => exact h.settle rfl
    | coverage | displayName | runtimeType | audited => exact hsame
  | typing current =>
    rw [hcheck] at hright
    obtain ⟨coverage, hanswered, hunder⟩ := hright
    cases answer with
    | runtimeType runtimeType now activeDispatchId rateLimitReason =>
      exact h.wait rfl hmem rfl rfl rfl (decided_of_allowed (hanswered.concat _) hunder)
    | threw => exact h.settle rfl
    | coverage | displayName | coveredSessionNames | audited => exact hsame
  | auditing decision =>
    rw [hcheck] at hright
    cases answer with
    | audited =>
      have hsettled : Right (events ++ [.answer command.id .audited]) (s.settle command.id) :=
        h.settle rfl
      rw [ShareSocket.advance]
      split
      · rename_i hallowed
        refine ⟨hsettled.received, hsettled.pending, fun handled hhandled => ?_⟩
        rcases List.mem_append.1 hhandled with hold | hnew
        · exact hsettled.handled handled hold
        · obtain rfl := List.mem_singleton.1 hnew
          exact ⟨command.msg, decision, (hright hallowed).concat _, hallowed, rfl⟩
      · exact hsettled
    | threw => exact h.settle rfl
    | coverage | displayName | coveredSessionNames | runtimeType => exact hsame

theorem Right.message (h : Right events s) (msg : Fields) :
    Right (events ++ [.message msg]) (s.step (.message msg)) := by
  have hmessages : messages (events ++ [.message msg]) = messages events ++ [msg] := messages_concat
  have hreceived : s.received + 1 = (messages (events ++ [.message msg])).length := by
    rw [hmessages, h.received, List.length_append, List.length_singleton]
  have hpending : ∀ command ∈ s.commands,
      (messages (events ++ [.message msg]))[command.id]? = some command.msg ∧
        CheckRight (events ++ [.message msg]) command.id command.msg command.check := by
    intro command hmem
    obtain ⟨hmsg, hcheck⟩ := h.pending command hmem
    rw [hmessages]
    exact ⟨List.getElem?_append_left (List.getElem?_eq_some_iff.1 hmsg).1 ▸ hmsg, hcheck.concat _⟩
  have hhandled : ∀ handled ∈ s.handled, Handled (events ++ [.message msg]) handled :=
    fun handled hmem => (h.handled handled hmem).concat _
  rw [ShareSocket.step]
  dsimp only
  split
  · exact ⟨hreceived, hpending, hhandled⟩
  · split
    · exact ⟨hreceived, hpending, hhandled⟩
    · refine ⟨hreceived, fun command hmem => ?_, hhandled⟩
      rcases List.mem_append.1 hmem with hold | hnew
      · exact hpending command hold
      · obtain rfl := List.mem_singleton.1 hnew
        refine ⟨?_, trivial⟩
        rw [hmessages, h.received, List.getElem?_concat_length]

theorem Right.step (h : Right events s) (e : ShareSocketEvent) :
    Right (events ++ [e]) (s.step e) := by
  have hother (s' : ShareSocket) (hmessage : e.message? = none)
      (hsame : s'.received = s.received ∧ s'.commands = s.commands ∧ s'.handled = s.handled) :
      Right (events ++ [e]) s' :=
    h.concat hmessage hsame.1 (fun command hmem => hsame.2.1 ▸ hmem) hsame.2.2
  cases e with
  | message msg => exact h.message msg
  | answer id answer =>
    rw [ShareSocket.step]
    split
    · rename_i command hfind
      have hid : command.id = id := by simpa using List.find?_some hfind
      exact hid ▸ h.advance (List.mem_of_find?_eq_some hfind) answer
    · exact hother _ rfl ⟨rfl, rfl, rfl⟩
  | revalidate =>
    rw [ShareSocket.step]
    split <;> exact hother _ rfl ⟨rfl, rfl, rfl⟩
  | revalidated i coverage =>
    unfold ShareSocket.step
    dsimp only
    split <;> exact hother _ rfl ⟨rfl, rfl, rfl⟩
  | recovered i names =>
    rw [ShareSocket.step]
    split <;> exact hother _ rfl ⟨rfl, rfl, rfl⟩
  | actorNamed displayName =>
    exact hother _ rfl ⟨received_nameActor, commands_nameActor, handled_nameActor⟩
  | sessionsNamed names => exact hother _ rfl ⟨rfl, rfl, rfl⟩
  | closed => exact hother _ rfl ⟨rfl, rfl, rfl⟩
  | failed => exact hother _ rfl ⟨rfl, rfl, rfl⟩

/-! ## When a share socket stays one -/

/-- The messages that an event lets go on without restrictions. -/
def ShareSocket.lets (s : ShareSocket) : ShareSocketEvent → List ℕ
  | .message _ => if s.closed = false ∧ s.shareState = none then [s.received] else []
  | _ => []

theorem ShareSocket.lets_eq_nil : s.lets e = [] ↔ s.Known e := by
  cases e with
  | message msg =>
    rw [lets, Known]
    cases s.closed <;> cases s.shareState <;> simp
  | _ => exact iff_of_true rfl trivial

theorem unrestricted_advance {command : PendingCommand} {answer : CommandAnswer} :
    (s.advance command command.check answer).unrestricted = s.unrestricted := by
  have hname (displayName : Option String) :
      (s.nameActor displayName).unrestricted = s.unrestricted := by
    cases displayName <;> rfl
  unfold ShareSocket.advance
  split
  · rfl
  · rfl
  · dsimp only
    split
    · exact hname _
    · rfl
  · rfl
  · rfl
  · split <;> rfl
  · rfl
  · rfl

theorem unrestricted_step (s : ShareSocket) (e : ShareSocketEvent) :
    (s.step e).unrestricted = s.unrestricted ++ s.lets e := by
  cases e with
  | message msg =>
    rw [ShareSocket.step, ShareSocket.lets]
    cases hclosed : s.closed <;> cases hstate : s.shareState <;> simp
  | answer id answer =>
    refine Eq.trans ?_ (List.append_nil _).symm
    rw [ShareSocket.step]
    split
    · exact unrestricted_advance
    · rfl
  | actorNamed displayName => cases displayName <;> exact (List.append_nil _).symm
  | revalidate | revalidated | recovered =>
    refine Eq.trans ?_ (List.append_nil _).symm
    unfold ShareSocket.step
    dsimp only
    split <;> rfl
  | sessionsNamed | closed | failed => exact (List.append_nil _).symm

theorem right_run (userId : String) (target : ShareTarget) (snapshot : ShareAuthorizationSnapshot)
    (events : List ShareSocketEvent) :
    Right events
      (run ShareSocket.step events (handleShareBrowserConnection userId target snapshot)) := by
  induction events using List.reverseRecOn with
  | nil =>
    exact ⟨rfl, fun _ hmem => absurd hmem List.not_mem_nil,
      fun _ hmem => absurd hmem List.not_mem_nil⟩
  | append_singleton events e ih =>
    rw [run_append]
    exact ih.step e

/-- A share that lets its user read one session. -/
def viewerCoverage : ShareAuthorizationSnapshot :=
  { target := .main "s1" "deck_app_brain", effectiveRole := .viewer, historyCutoffAt := 0
    nextCoverageRecheckAt := none, coveringShareIds := ["share"], primaryShareId := some "share"
    authorizedAt := 0 }

example : (run ShareSocket.step
    [.message [("type", .string "chat.history"), ("sessionId", .string "deck_app_brain")],
      .answer 0 (.coverage viewerCoverage 5), .answer 0 (.displayName "Ann"),
      .answer 0 (.coveredSessionNames (some ["deck_sub_1"])),
      .answer 0 (.runtimeType .transport 6 none none), .answer 0 .audited]
    (handleShareBrowserConnection "ann" viewerCoverage.target viewerCoverage)).handled.map
      Prod.fst = [0] := by decide +kernel

/-- The share is revoked while a message is on its way. -/
def revokedRun : List ShareSocketEvent :=
  [.revalidate, .revalidated 0 none,
    .message [("type", .string "session.input"), ("session", .string "deck_secret_brain")]]

/-- The coverage goes on, and the socket does not fail. -/
def ShareSocketEvent.Keeps : ShareSocketEvent → Prop
  | .revalidated _ coverage => coverage.isSome = true
  | .failed => False
  | _ => True

/-- The socket is in the map, or no message comes any more. -/
def ShareSocket.Present (s : ShareSocket) : Prop := s.closed = true ∨ s.shareState.isSome = true

theorem ShareSocket.Present.nameActor (h : s.Present) (displayName : Option String) :
    (s.nameActor displayName).Present := by
  cases displayName with
  | none => exact h
  | some displayName => exact h.imp_right fun hsome => (Option.isSome_map ..).trans hsome

theorem ShareSocket.Present.advance {command : PendingCommand} {answer : CommandAnswer}
    (h : s.Present) : (s.advance command command.check answer).Present := by
  unfold ShareSocket.advance
  split
  · exact h
  · exact h
  · dsimp only
    split
    · exact h.nameActor _
    · exact h
  · exact .inr rfl
  · exact h
  · split <;> exact h
  · exact h
  · exact h

theorem ShareSocket.Present.step (h : s.Present) (hkeeps : e.Keeps) : (s.step e).Present := by
  cases e with
  | message msg =>
    unfold ShareSocket.step
    dsimp only
    split
    · exact h
    · split <;> exact h
  | answer id answer =>
    rw [ShareSocket.step]
    split
    · exact h.advance
    · exact h
  | revalidate =>
    rw [ShareSocket.step]
    split <;> exact h
  | revalidated i coverage =>
    obtain ⟨coverage, rfl⟩ := Option.isSome_iff_exists.1 hkeeps
    unfold ShareSocket.step
    dsimp only
    split
    · rename_i hnone
      cases hnone
    · exact h
    · exact h
  | recovered i names =>
    rw [ShareSocket.step]
    split
    · exact .inr rfl
    · exact h
  | actorNamed displayName => exact h.nameActor displayName
  | sessionsNamed names => exact h.imp_right fun hsome => (Option.isSome_map ..).trans hsome
  | closed => exact .inl rfl
  | failed => exact hkeeps.elim

/-- While the coverage goes on, every message comes to a socket that is in the map. -/
theorem known_of_keeps (userId : String) (target : ShareTarget)
    (snapshot : ShareAuthorizationSnapshot) (events : List ShareSocketEvent)
    (h : ∀ e ∈ events, e.Keeps) :
    Along ShareSocket.step ShareSocket.Known events
      (handleShareBrowserConnection userId target snapshot) := by
  have hkeeps : Along ShareSocket.step (fun _ e => e.Keeps) events
      (handleShareBrowserConnection userId target snapshot) :=
    along_iff.2 fun before e hpre => h e (hpre.subset (by simp))
  refine Along.of_invariant ShareSocket.Present (fun s e hs => hs.step) (fun s e hs _ => ?_)
    (.inr rfl) hkeeps
  cases e with
  | message msg => exact hs
  | _ => trivial

end Imcodes.Share
