import Imcodes.Bridge.Answered
import Imcodes.Bridge.SendOrder
import Imcodes.Commands.Dedup
import Imcodes.Outbox.About

/-!
# Commands from the bridge to the daemon

The bridge hands the copies of its commands over, the daemon takes each command up and sends
acknowledgements, by itself and out of its outbox; what is on its way may be lost.  The bridge sends
again what was not acknowledged, and the daemon takes no command that it remembers, but
acknowledges it once more.  The commands are those of `session.send`; a `session.cancel` with an id
is kept in flight as they are, but the daemon does not look for its id among those it remembers, so
runs with cancels are left out.

* `Delivery.step` — the bridge, the daemon and the two ways between them.
* `delivery_run` — **what is acknowledged was taken**: over every run, what the daemon took was
  handed over, and a command that ended as acknowledged or echoed was taken.
* `taken_run` — **no command is taken twice**: over every run in which the clock of the daemon does
  not go back, a command was not remembered when it was taken.
-/

namespace Imcodes.Commands

open Bridge (Inflight InflightEvent)
open Bridge.Inflight (Ending.IsAnswer)
open Machine
open Outbox (AckOutbox)

/-- What the daemon reads of a `session.send`, besides its id. -/
structure Payload where
  sessionName : String := ""
  /-- `typeof text === 'string'` -/
  hasText : Bool := true
  /-- It is acknowledged when it is taken: it is no control, and it goes to no run and to no other
  session. -/
  ordinary : Bool := true
deriving DecidableEq

/-- What tells the bridge of a command. -/
inductive Answer
  /-- `command.ack` -/
  | ack (commandId : String)
  /-- A `user.message` of the timeline. -/
  | echo (commandId : String)
deriving DecidableEq

def Answer.commandId : Answer → String
  | .ack commandId => commandId
  | .echo commandId => commandId

/-- The daemon takes a command, which is known by the number of its registration. -/
structure Take where
  entry : ℕ
  sessionName : String
  commandId : String
  takenAt : ℕ
  /-- How often the daemon had been restarted. -/
  life : ℕ
deriving DecidableEq

structure Daemon where
  sessionDedups : OrderedMap String CommandDedup := .empty
  outbox : AckOutbox := .init 0 []

def Daemon.getDedup (daemon : Daemon) (sessionName : String) : CommandDedup :=
  (daemon.sessionDedups.get? sessionName).getD {}

structure Delivery where
  bridge : Inflight := {}
  /-- What the commands are, by the numbers of their registrations. -/
  payloads : ℕ → Payload := fun _ => {}
  /-- The copies on their way, which are numbers and marks. -/
  toDaemon : List (ℕ × Option ℕ) := []
  daemon : Daemon := {}
  toBridge : List Answer := []
  takes : List Take := []
  life : ℕ := 0
  /-- When the daemon was last sent a copy. -/
  clock : ℕ := 0

inductive DeliveryEvent
  /-- A `session.send` of a browser. -/
  | send (commandId : String) (payload : Payload) (share : Bool) (now : ℕ)
  /-- Something else happens at the bridge, and no answer comes. -/
  | bridge (event : InflightEvent)
  /-- The next copy comes to the daemon; what the daemon sends goes out or does not. -/
  | receive (now : ℕ) (sends : Bool)
  /-- The daemon acknowledges a command that it took. -/
  | acknowledge (index : ℕ) (status : String) (error : Option String) (now : ℕ) (sends : Bool)
  /-- A command that the daemon took comes up in the timeline. -/
  | echo (index : ℕ)
  | outbox (event : Outbox.Event)
  /-- The next answer comes to the bridge. -/
  | answered (now : ℕ)
  | copyLost (index : ℕ)
  | answerLost (index : ℕ)
  /-- The daemon is restarted. -/
  | restart (now : ℕ)
deriving DecidableEq

namespace Delivery

variable (sha256Hex : String → String) (s : Delivery)

/-- The bridge goes on, and what it sends is on its way. -/
def carry (bridge : Inflight) : Delivery :=
  { s with bridge, toDaemon := s.toDaemon ++ bridge.sent.drop s.bridge.sent.length }

/-- `emitCommandAck`, by way of the outbox. -/
def emitCommandAck (sessionName commandId status : String) (error : Option String) (now : ℕ)
    (sends : Bool) : Delivery :=
  let outbox := s.daemon.outbox.enqueue { commandId, sessionName, status, error, ts := now } none
  if sends then
    { s with
      daemon := { s.daemon with outbox := (outbox.markAcked commandId).2 }
      toBridge := s.toBridge ++ [.ack commandId] }
  else { s with daemon := { s.daemon with outbox } }

def acceptedStatus (commandId : String) : String :=
  if commandId = "" then "accepted_legacy" else "accepted"

/-- `handleSend`, up to where the command is taken. -/
def handleSend (n : ℕ) (bridgeRetry : Bool) (now : ℕ) (sends : Bool) : Delivery :=
  let payload := s.payloads n
  let sessionName := payload.sessionName
  let commandId := (s.bridge.entries n).commandId
  if sessionName = "" ∨ payload.hasText = false then s
  else
    let received := (s.daemon.getDedup sessionName).receive commandId now
    let sessionDedups := s.daemon.sessionDedups.set sessionName received.2
    let s := { s with daemon := { s.daemon with sessionDedups }, clock := now }
    if received.1 then
      if bridgeRetry then
        s.emitCommandAck sessionName commandId (acceptedStatus commandId) none now sends
      else
        s.emitCommandAck sessionName commandId "error" (some "duplicate_command_id") now sends
    else
      let take : Take := { entry := n, sessionName, commandId, takenAt := now, life := s.life }
      let s := { s with takes := s.takes ++ [take] }
      if payload.ordinary then
        s.emitCommandAck sessionName commandId (acceptedStatus commandId) none now sends
      else s

/-- What an event of the outbox sends. -/
def flushed (outbox : AckOutbox) : Outbox.Event → Option String
  | .flushOnReconnect outcome => outbox.flushed outcome outbox.ordered
  | .resumeFlush i outcome => (outbox.readyFlush i).bind (outbox.flushed outcome ·.remaining)
  | _ => none

/-- The outbox goes on; it is filled and emptied by the daemon. -/
def stepOutbox (event : Outbox.Event) : Delivery :=
  match event with
  | .enqueue .. => s
  | .markAcked _ => s
  | .restart _ => s
  | event =>
    { s with
      daemon := { s.daemon with outbox := Outbox.step s.daemon.outbox event }
      toBridge := s.toBridge ++ ((flushed s.daemon.outbox event).map Answer.ack).toList }

/-- An answer that names no command is none. -/
def answer (answer : Answer) (now : ℕ) : Inflight :=
  if answer.commandId = "" then s.bridge
  else
    match answer with
    | .ack commandId => s.bridge.step sha256Hex (.ack commandId now)
    | .echo commandId => s.bridge.step sha256Hex (.echo commandId)

def stepBridge (event : InflightEvent) : Delivery :=
  match event with
  | .send .. => s
  | .ack .. => s
  | .echo _ => s
  | event => s.carry (s.bridge.step sha256Hex event)

def step : DeliveryEvent → Delivery
  | .send commandId payload share now =>
    { s with payloads := Function.update s.payloads s.bridge.registered payload }.carry
      (s.bridge.step sha256Hex (.send commandId share now))
  | .bridge event => s.stepBridge sha256Hex event
  | .receive now sends =>
    match s.toDaemon with
    | [] => s
    | copy :: rest => { s with toDaemon := rest }.handleSend copy.1 copy.2.isSome now sends
  | .acknowledge index status error now sends =>
    match s.takes[index]? with
    | none => s
    | some take => s.emitCommandAck take.sessionName take.commandId status error now sends
  | .echo index =>
    match s.takes[index]? with
    | none => s
    | some take => { s with toBridge := s.toBridge ++ [.echo take.commandId] }
  | .outbox event => s.stepOutbox event
  | .answered now =>
    match s.toBridge with
    | [] => s
    | answer :: rest => { s with toBridge := rest }.carry (s.answer sha256Hex answer now)
  | .copyLost index => { s with toDaemon := s.toDaemon.eraseIdx index }
  | .answerLost index => { s with toBridge := s.toBridge.eraseIdx index }
  | .restart now =>
    { s with
      daemon := { outbox := .init now (s.daemon.outbox.file.map some) }
      life := s.life + 1 }

variable {sha256Hex : String → String} {s : Delivery}

/-- The daemon took a command of the id. -/
def Took (s : Delivery) (commandId : String) : Prop := ∃ take ∈ s.takes, take.commandId = commandId

/-- Whatever tells of a command tells of one that was taken, and whatever is taken was sent. -/
structure Sound (s : Delivery) : Prop where
  bridge : s.bridge.Sound []
  copies : ∀ copy ∈ s.toDaemon, copy ∈ s.bridge.sent
  takes : ∀ take ∈ s.takes, take.entry ∈ s.bridge.sent.map Prod.fst ∧
    take.commandId = (s.bridge.entries take.entry).commandId ∧
    take.sessionName = (s.payloads take.entry).sessionName
  known : ∀ sessionName, ∀ entry ∈ (s.daemon.getDedup sessionName).entries.toList, s.Took entry.1
  answers : ∀ answer ∈ s.toBridge, s.Took answer.commandId
  outbox : s.daemon.outbox.About s.Took
  ended : ∀ n ending, (n, ending) ∈ s.bridge.ended → Ending.IsAnswer ending →
    s.Took (s.bridge.entries n).commandId

theorem getDedup_set (daemon : Daemon) (sessionName other : String) (dedup : CommandDedup) :
    ({ daemon with sessionDedups := daemon.sessionDedups.set sessionName dedup } : Daemon).getDedup
      other = if other = sessionName then dedup else daemon.getDedup other := by
  rw [Daemon.getDedup, OrderedMap.get?_set]
  split
  · rfl
  · rfl

/-! ## What the bridge adds -/

theorem Sound.carry {bridge : Inflight} {answered : String → Prop} (h : s.Sound)
    (hbridge : bridge.Sound []) (hgoes : Inflight.Goes answered s.bridge bridge)
    (hanswered : ∀ id, answered id → s.Took id) : (s.carry bridge).Sound where
  bridge := hbridge
  copies := fun copy hcopy => by
    rcases List.mem_append.1 hcopy with hcopy | hcopy
    · exact hgoes.sent.subset (h.copies copy hcopy)
    · exact List.mem_of_mem_drop hcopy
  takes := fun take htake => by
    obtain ⟨hsent, hid, hname⟩ := h.takes take htake
    refine ⟨List.map_subset _ hgoes.sent.subset hsent, ?_, hname⟩
    exact hid.trans (hgoes.ids _ (h.bridge.lt_of_mem_sent hsent)).symm
  known := h.known
  answers := h.answers
  outbox := h.outbox
  ended := fun n ending hmem hanswer => by
    rcases hgoes.ended n ending hmem hanswer with hold | ⟨-, hid⟩
    · have hid := hgoes.ids n (h.bridge.past n (List.mem_map_of_mem hold))
      obtain ⟨take, htake, heq⟩ := h.ended n ending hold hanswer
      exact ⟨take, htake, heq.trans hid.symm⟩
    · exact hanswered _ hid

theorem Sound.stepBridge {event : InflightEvent} (h : s.Sound) :
    (s.stepBridge sha256Hex event).Sound := by
  have hgoes := h.carry (Inflight.sound_step s.bridge event h.bridge)
    (@Inflight.goes_step _ sha256Hex event h.bridge)
  cases event with
  | send => exact h
  | ack => exact h
  | echo => exact h
  | _ => exact hgoes fun id hid => hid.elim

/-- A command is registered under the next number, and no other command changes. -/
theorem Sound.send {commandId : String} {payload : Payload} {share : Bool} {now : ℕ}
    (h : s.Sound) : (s.step sha256Hex (.send commandId payload share now)).Sound := by
  have hpayload : Sound { s with
      payloads := Function.update s.payloads s.bridge.registered payload } :=
    { h with
      takes := fun take htake => by
        obtain ⟨hsent, hid, hname⟩ := h.takes take htake
        refine ⟨hsent, hid, hname.trans ?_⟩
        have hne : take.entry ≠ s.bridge.registered := (h.bridge.lt_of_mem_sent hsent).ne
        exact congrArg Payload.sessionName (Function.update_of_ne hne _ _).symm }
  exact hpayload.carry (Inflight.sound_step _ _ h.bridge) (Inflight.goes_step _ h.bridge)
    fun id hid => hid.elim

theorem Sound.answered {now : ℕ} (h : s.Sound) : (s.step sha256Hex (.answered now)).Sound := by
  rw [step]
  split
  · exact h
  · rename_i answer rest hanswers
    have hrest : Sound { s with toBridge := rest } :=
      { h with answers := fun a ha => h.answers a (hanswers ▸ List.mem_cons_of_mem _ ha) }
    have htook : s.Took answer.commandId := h.answers answer (hanswers ▸ List.mem_cons_self)
    unfold Delivery.answer
    split
    · exact hrest.carry h.bridge (.refl _) fun id hid => (hid : False).elim
    · cases answer with
      | ack commandId =>
        exact hrest.carry (Inflight.sound_step _ _ h.bridge) (Inflight.goes_step _ h.bridge)
          fun id hid => hid ▸ htook
      | echo commandId =>
        exact hrest.carry (Inflight.sound_step _ _ h.bridge) (Inflight.goes_step _ h.bridge)
          fun id hid => hid ▸ htook

/-! ## What the daemon adds -/

theorem Sound.emitCommandAck {sessionName commandId status : String} {error : Option String}
    {now : ℕ} {sends : Bool} (h : s.Sound) (htook : s.Took commandId) :
    (s.emitCommandAck sessionName commandId status error now sends).Sound := by
  rw [Delivery.emitCommandAck]
  cases sends with
  | false => exact { h with outbox := h.outbox.enqueue htook }
  | true =>
    refine { h with outbox := (h.outbox.enqueue htook).markAcked _, answers := fun a ha => ?_ }
    rcases List.mem_append.1 ha with ha | ha
    · exact h.answers a ha
    · obtain rfl := List.mem_singleton.1 ha
      exact htook

/-- A command that was sent is taken. -/
theorem Sound.took {take : Take} (h : s.Sound) (hsent : take.entry ∈ s.bridge.sent.map Prod.fst)
    (hid : take.commandId = (s.bridge.entries take.entry).commandId)
    (hname : take.sessionName = (s.payloads take.entry).sessionName) :
    Sound { s with takes := s.takes ++ [take] } := by
  have hmore {id : String} : s.Took id → Took { s with takes := s.takes ++ [take] } id := by
    rintro ⟨other, hother, heq⟩
    exact ⟨other, List.mem_append_left _ hother, heq⟩
  exact
    { h with
      takes := fun other hother => by
        rcases List.mem_append.1 hother with hother | hother
        · exact h.takes other hother
        · obtain rfl := List.mem_singleton.1 hother
          exact ⟨hsent, hid, hname⟩
      known := fun name entry hentry => hmore (h.known name entry hentry)
      answers := fun a ha => hmore (h.answers a ha)
      outbox := h.outbox.imp fun id => hmore
      ended := fun n ending hmem hanswer => hmore (h.ended n ending hmem hanswer) }

theorem Sound.remembered {sessionName : String} {dedup : CommandDedup} {now : ℕ} (h : s.Sound)
    (hknown : ∀ entry ∈ dedup.entries.toList, s.Took entry.1) :
    Sound { s with
      daemon := { s.daemon with sessionDedups := s.daemon.sessionDedups.set sessionName dedup }
      clock := now } :=
  { h with
    known := fun other entry hentry => by
      rw [getDedup_set] at hentry
      split at hentry
      · exact hknown entry hentry
      · exact h.known other entry hentry }

theorem Sound.handleSend {n now : ℕ} {bridgeRetry sends : Bool} (h : s.Sound)
    (hsent : n ∈ s.bridge.sent.map Prod.fst) : (s.handleSend n bridgeRetry now sends).Sound := by
  rw [Delivery.handleSend]
  dsimp only
  split
  · exact h
  · let dedup := s.daemon.getDedup (s.payloads n).sessionName
    let received := dedup.receive (s.bridge.entries n).commandId now
    split
    · rename_i hknown
      obtain ⟨ts, hts⟩ := CommandDedup.mem_of_has hknown
      have htook : s.Took (s.bridge.entries n).commandId := h.known _ _ hts
      have hnext := @Sound.remembered s (s.payloads n).sessionName received.2 now h
        fun entry hentry => (CommandDedup.mem_receive hentry).elim (fun hid => hid ▸ htook) (h.known _ entry)
      split
      · exact hnext.emitCommandAck htook
      · exact hnext.emitCommandAck htook
    · let take : Take :=
        { entry := n
          sessionName := (s.payloads n).sessionName
          commandId := (s.bridge.entries n).commandId
          takenAt := now
          life := s.life }
      have htaken : Sound { s with takes := s.takes ++ [take] } := h.took hsent rfl rfl
      have htook : Took { s with takes := s.takes ++ [take] } (s.bridge.entries n).commandId :=
        ⟨take, List.mem_append_right _ (List.mem_singleton_self _), rfl⟩
      have hnext := @Sound.remembered { s with takes := s.takes ++ [take] }
        (s.payloads n).sessionName received.2 now htaken
        fun entry hentry =>
          (CommandDedup.mem_receive hentry).elim (fun hid => hid ▸ htook) (htaken.known _ entry)
      split
      · exact hnext.emitCommandAck htook
      · exact hnext

theorem Sound.receive {now : ℕ} {sends : Bool} (h : s.Sound) :
    (s.step sha256Hex (.receive now sends)).Sound := by
  rw [step]
  split
  · exact h
  · rename_i copy rest hcopies
    have hrest : Sound { s with toDaemon := rest } :=
      { h with copies := fun c hc => h.copies c (hcopies ▸ List.mem_cons_of_mem _ hc) }
    have hsent := h.copies copy (hcopies ▸ List.mem_cons_self)
    exact hrest.handleSend (List.mem_map_of_mem hsent)

theorem Sound.stepOutbox {event : Outbox.Event} (h : s.Sound) : (s.stepOutbox event).Sound := by
  have hgoes (hevent : ∀ entry attempts, event ≠ .enqueue entry attempts) :
      Sound { s with
        daemon := { s.daemon with outbox := Outbox.step s.daemon.outbox event }
        toBridge := s.toBridge ++ ((flushed s.daemon.outbox event).map Answer.ack).toList } := by
    refine
      { h with
        outbox := Outbox.about_step h.outbox fun entry attempts heq =>
          absurd heq (hevent entry attempts)
        answers := fun a ha => ?_ }
    rcases List.mem_append.1 ha with ha | ha
    · exact h.answers a ha
    · obtain ⟨id, hid, rfl⟩ := Option.map_eq_some_iff.1 (Option.mem_toList.1 ha)
      cases event with
      | flushOnReconnect outcome => exact h.outbox.flushed h.outbox.ordered hid
      | resumeFlush i outcome =>
        obtain ⟨flush, hflush, hid⟩ := Option.bind_eq_some_iff.1 hid
        have hmem : flush ∈ s.daemon.outbox.flushes :=
          List.mem_of_getElem? (Option.mem_filter_iff.1 hflush).1
        exact h.outbox.flushed (h.outbox.flushes flush hmem) hid
      | _ => cases hid
  cases event with
  | enqueue => exact h
  | markAcked => exact h
  | restart => exact h
  | _ => exact hgoes (by simp)

theorem Sound.restart {now : ℕ} (h : s.Sound) : (s.step sha256Hex (.restart now)).Sound :=
  { h with
    known := fun _ _ hentry => absurd hentry List.not_mem_nil
    outbox := Outbox.AckOutbox.about_init h.outbox.file }

theorem delivery_step (s : Delivery) (e : DeliveryEvent) (h : s.Sound) :
    (s.step sha256Hex e).Sound := by
  cases e with
  | send commandId payload share now => exact h.send
  | bridge event => exact h.stepBridge
  | receive now sends => exact h.receive
  | acknowledge index status error now sends =>
    rw [step]
    split
    · exact h
    · rename_i take htake
      exact h.emitCommandAck ⟨take, List.mem_of_getElem? htake, rfl⟩
  | echo index =>
    rw [step]
    split
    · exact h
    · rename_i take htake
      refine { h with answers := fun a ha => ?_ }
      rcases List.mem_append.1 ha with ha | ha
      · exact h.answers a ha
      · obtain rfl := List.mem_singleton.1 ha
        exact ⟨take, List.mem_of_getElem? htake, rfl⟩
  | outbox event => exact h.stepOutbox
  | answered now => exact h.answered
  | copyLost index =>
    exact { h with copies := fun copy hcopy => h.copies copy (List.mem_of_mem_eraseIdx hcopy) }
  | answerLost index =>
    exact { h with answers := fun a ha => h.answers a (List.mem_of_mem_eraseIdx ha) }
  | restart now => exact h.restart

theorem delivery_start : Sound {} where
  bridge := Inflight.sound_start
  copies := fun _ h => absurd h List.not_mem_nil
  takes := fun _ h => absurd h List.not_mem_nil
  known := fun _ _ h => absurd h List.not_mem_nil
  answers := fun _ h => absurd h List.not_mem_nil
  outbox := @Outbox.AckOutbox.about_init _ 0 [] fun _ h => absurd h List.not_mem_nil
  ended := fun _ _ h => absurd h List.not_mem_nil

/-- **What is acknowledged was taken.**  Over every run of the bridge, the daemon and the ways
between them, each command that the daemon took was sent by the bridge, for the session that it is
of; and for each command that ended as acknowledged or echoed, the daemon took a command of its
id. -/
theorem delivery_run (sha256Hex : String → String) (es : List DeliveryEvent) :
    let s := run (step sha256Hex) es {}
    (∀ take ∈ s.takes, take.entry ∈ s.bridge.sent.map Prod.fst ∧
        take.commandId = (s.bridge.entries take.entry).commandId ∧
        take.sessionName = (s.payloads take.entry).sessionName) ∧
      ∀ n ending, (n, ending) ∈ s.bridge.ended → Ending.IsAnswer ending →
        ∃ take ∈ s.takes, take.commandId = (s.bridge.entries n).commandId := by
  have h : (run (step sha256Hex) es {}).Sound :=
    run_invariant_all Sound delivery_step delivery_start es
  exact ⟨h.takes, h.ended⟩

/-! ## No command is taken twice -/

/-- The commands of a session that the daemon took in one of its lives. -/
def takenBy (takes : List Take) (sessionName : String) (life : ℕ) : List (String × ℕ) :=
  (takes.filter fun take => take.sessionName = sessionName ∧ take.life = life).map fun take =>
    (take.commandId, take.takenAt)

/-- The clock of the daemon does not go back. -/
def InTime (s : Delivery) : DeliveryEvent → Prop
  | .receive now _ => s.clock ≤ now
  | _ => True

instance : ∀ e, Decidable (s.InTime e)
  | .receive .. => inferInstanceAs (Decidable (_ ≤ _))
  | .send .. => isTrue trivial
  | .bridge _ => isTrue trivial
  | .acknowledge .. => isTrue trivial
  | .echo _ => isTrue trivial
  | .outbox _ => isTrue trivial
  | .answered _ => isTrue trivial
  | .copyLost _ => isTrue trivial
  | .answerLost _ => isTrue trivial
  | .restart _ => isTrue trivial

/-- The caches agree with what was taken. -/
structure Agreeing (s : Delivery) : Prop where
  dedups : ∀ sessionName,
    (s.daemon.getDedup sessionName).Agrees (takenBy s.takes sessionName s.life) s.clock
  lives : ∀ take ∈ s.takes, take.life ≤ s.life
  once : Traced (fun before take =>
    ¬ Remembers (takenBy before take.sessionName take.life) take.commandId take.takenAt) s.takes

theorem takenBy_concat (takes : List Take) (take : Take) (sessionName : String) (life : ℕ) :
    takenBy (takes ++ [take]) sessionName life = takenBy takes sessionName life ++
      if take.sessionName = sessionName ∧ take.life = life then [(take.commandId, take.takenAt)]
      else [] := by
  rw [takenBy, takenBy, List.filter_append, List.map_append]
  congr 1
  split
  · rename_i hmine
    simp [hmine.1, hmine.2]
  · rename_i hother
    rw [List.filter_cons_of_neg (by simpa using hother), List.filter_nil, List.map_nil]

theorem Agreeing.of_eq {s' : Delivery} (h : s.Agreeing) (htakes : s'.takes = s.takes)
    (hlife : s'.life = s.life) (hclock : s'.clock = s.clock)
    (hdedups : s'.daemon.sessionDedups = s.daemon.sessionDedups) : s'.Agreeing where
  dedups := fun sessionName => by
    rw [Daemon.getDedup, hdedups, htakes, hlife, hclock]
    exact h.dedups sessionName
  lives := by
    rw [htakes, hlife]
    exact h.lives
  once := by
    rw [htakes]
    exact h.once

theorem Agreeing.emitCommandAck {sessionName commandId status : String} {error : Option String}
    {now : ℕ} {sends : Bool} (h : s.Agreeing) :
    (s.emitCommandAck sessionName commandId status error now sends).Agreeing := by
  rw [Delivery.emitCommandAck]
  cases sends with
  | false => exact h.of_eq rfl rfl rfl rfl
  | true => exact h.of_eq rfl rfl rfl rfl

theorem Agreeing.handleSend {n now : ℕ} {bridgeRetry sends : Bool} (h : s.Agreeing)
    (hle : s.clock ≤ now) : (s.handleSend n bridgeRetry now sends).Agreeing := by
  rw [Delivery.handleSend]
  dsimp only
  split
  · exact h
  · obtain ⟨hiff, hagrees⟩ := @CommandDedup.Agrees.receive _ (s.bridge.entries n).commandId _ _ _
      (h.dedups (s.payloads n).sessionName) hle
    split
    · rename_i hknown
      rw [remember, if_pos (hiff.1 hknown)] at hagrees
      have hnext : Agreeing { s with
          daemon := { s.daemon with
            sessionDedups := s.daemon.sessionDedups.set (s.payloads n).sessionName
              ((s.daemon.getDedup (s.payloads n).sessionName).receive
                (s.bridge.entries n).commandId now).2 }
          clock := now } :=
        { h with
          dedups := fun other => by
            rw [getDedup_set]
            split
            · rename_i heq
              exact heq ▸ hagrees
            · exact (h.dedups other).later hle }
      split
      · exact hnext.emitCommandAck
      · exact hnext.emitCommandAck
    · rename_i hfresh
      have hforgot := fun hr => hfresh (hiff.2 hr)
      rw [remember, if_neg hforgot] at hagrees
      let take : Take :=
        { entry := n
          sessionName := (s.payloads n).sessionName
          commandId := (s.bridge.entries n).commandId
          takenAt := now
          life := s.life }
      have hnext : Agreeing { s with
          daemon := { s.daemon with
            sessionDedups := s.daemon.sessionDedups.set (s.payloads n).sessionName
              ((s.daemon.getDedup (s.payloads n).sessionName).receive
                (s.bridge.entries n).commandId now).2 }
          clock := now
          takes := s.takes ++ [take] } :=
        { dedups := fun other => by
            rw [getDedup_set, takenBy_concat]
            split
            · rename_i heq
              subst heq
              rw [if_pos ⟨rfl, rfl⟩]
              exact hagrees
            · rename_i hne
              rw [if_neg fun hmine => hne hmine.1.symm, List.append_nil]
              exact (h.dedups other).later hle
          lives := fun other hother => by
            rcases List.mem_append.1 hother with hother | hother
            · exact h.lives other hother
            · obtain rfl := List.mem_singleton.1 hother
              exact Nat.le_refl s.life
          once := traced_concat.2 ⟨h.once, hforgot⟩ }
      split
      · exact hnext.emitCommandAck
      · exact hnext

theorem agreeing_step (s : Delivery) (e : DeliveryEvent) (h : s.Agreeing) (htime : s.InTime e) :
    (s.step sha256Hex e).Agreeing := by
  cases e with
  | send commandId payload share now => exact h.of_eq rfl rfl rfl rfl
  | bridge event => cases event <;> exact h.of_eq rfl rfl rfl rfl
  | receive now sends =>
    rw [step]
    split
    · exact h
    · have hrest : Agreeing { s with toDaemon := ‹List (ℕ × Option ℕ)› } := h.of_eq rfl rfl rfl rfl
      exact hrest.handleSend htime
  | acknowledge index status error now sends =>
    rw [step]
    split
    · exact h
    · exact h.emitCommandAck
  | echo index =>
    rw [step]
    split
    · exact h
    · exact h.of_eq rfl rfl rfl rfl
  | outbox event => cases event <;> exact h.of_eq rfl rfl rfl rfl
  | answered now =>
    rw [step]
    split
    · exact h
    · exact h.of_eq rfl rfl rfl rfl
  | copyLost index => exact h.of_eq rfl rfl rfl rfl
  | answerLost index => exact h.of_eq rfl rfl rfl rfl
  | restart now =>
    refine ⟨fun sessionName => ?_, fun take htake => ?_, h.once⟩
    · have hnone : takenBy s.takes sessionName (s.life + 1) = [] := by
        refine List.map_eq_nil_iff.2 (List.filter_eq_nil_iff.2 fun take htake hmine => ?_)
        have hlife : take.life = s.life + 1 := (of_decide_eq_true hmine).2
        have := h.lives take htake
        omega
      have hstart := CommandDedup.agrees_start s.clock
      exact hnone.symm ▸ hstart
    · exact (h.lives take htake).trans (Nat.le_succ _)

/-- **No command is taken twice.**  Over every run in which the clock of the daemon does not go
back, whatever copies it gets: when the daemon takes a command, none of the hundred that it took
last in the session, since it was started, has the same id and is at most five minutes old. -/
theorem taken_run (sha256Hex : String → String) (es : List DeliveryEvent)
    (htime : Along (step sha256Hex) InTime es {}) :
    Traced (fun before take =>
        ¬ Remembers (takenBy before take.sessionName take.life) take.commandId take.takenAt)
      (run (step sha256Hex) es {}).takes := by
  have hstart : Agreeing {} :=
    ⟨fun _ => CommandDedup.agrees_start 0, fun _ h => absurd h List.not_mem_nil, traced_nil⟩
  exact (run_invariant Agreeing agreeing_step hstart htime).once

/-- The first acknowledgement is lost, and the command is sent once more. -/
def sentAgain : List DeliveryEvent :=
  [.bridge (.link .connect), .bridge (.link (.message 0 (.auth "t"))),
    .bridge (.link (.lookedUp 0 (.found (some { tokenHash := "t" })))),
    .send "a" { sessionName := "s" } false 0, .receive 1 true, .answerLost 0,
    .bridge (.ackTimeout 0), .receive 5001 true, .answered 5002]

theorem taken_run_sentAgain :
    (run (step id) sentAgain {}).bridge.ended = [(0, .acked)] ∧
      (run (step id) sentAgain {}).takes =
        [{ entry := 0, sessionName := "s", commandId := "a", takenAt := 1, life := 0 }] ∧
      Traced (fun before take =>
          ¬ Remembers (takenBy before take.sessionName take.life) take.commandId take.takenAt)
        (run (step id) sentAgain {}).takes :=
  ⟨by decide, by decide, taken_run id sentAgain (by decide)⟩

end Delivery

end Imcodes.Commands
