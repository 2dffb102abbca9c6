import Imcodes.Bridge.Terminal

/-!
# The demand for terminals

* `Counted` — the references of a session count its subscribers.
* `InStep` — what was sent to an authenticated daemon makes it stream what is demanded.
* `Prompt` — the first subscription of a session tells its mode, and a daemon is
  authenticated when nobody is subscribed, or is asked again at once.
* `demandIsMet_iff` — both hold all along exactly when every step is prompt.
* `not_demandIsMet` — a browser that does not tell the mode is counted for raw, and the
  daemon is not.
-/

namespace Imcodes.Bridge

open Machine

/-- Where one element of a list is judged differently. -/
theorem countP_of_agree {p q : ℕ → Bool} {l : List ℕ} {a : ℕ} (hnodup : l.Nodup) (ha : a ∈ l)
    (hagree : ∀ b ∈ l, b ≠ a → p b = q b) :
    l.countP q + (if p a then 1 else 0) = l.countP p + if q a then 1 else 0 := by
  induction l with
  | nil => cases ha
  | cons b l ih =>
    rw [List.nodup_cons] at hnodup
    rw [List.countP_cons, List.countP_cons]
    rcases List.mem_cons.1 ha with rfl | hmem
    · have hsame : l.countP q = l.countP p := List.countP_congr fun c hc => by
        rw [hagree c (List.mem_cons_of_mem _ hc) fun hca => hnodup.1 (hca ▸ hc)]
      rw [hsame]
      omega
    · have hne : b ≠ a := fun hba => hnodup.1 (hba ▸ hmem)
      have := ih hnodup.2 hmem fun c hc => hagree c (List.mem_cons_of_mem _ hc)
      rw [hagree b List.mem_cons_self hne]
      omega

theorem streamed_append (session : String) (messages : List TerminalMessage)
    (message : TerminalMessage) :
    streamed session (messages ++ [message]) =
      match message with
      | .subscribe s raw => if s = session then some raw.isTrue else streamed session messages
      | .unsubscribe s => if s = session then none else streamed session messages := by
  rw [streamed, List.foldl_append]
  rfl

namespace Terminals

variable (t : Terminals) (session : String)

/-- The mode in which a browser is subscribed. -/
def mode (browser : ℕ) : Option Bool := (t.browserSubscriptions browser).bind (·.get? session)

def subscribers : ℕ := (List.range t.browsers).countP fun browser => (t.mode session browser).isSome

def rawSubscribers : ℕ :=
  (List.range t.browsers).countP fun browser => t.mode session browser = some true

/-- What the references demand of the daemon. -/
def demand : Option Bool :=
  if (t.refs session).totalRefs = 0 then none else some (0 < (t.refs session).rawRefs)

/-- The references count the subscribers. -/
structure Counted : Prop where
  live : ∀ browser, t.browserSubscriptions browser ≠ none → browser < t.browsers
  total : ∀ session, (t.refs session).totalRefs = t.subscribers session
  raw : ∀ session, (t.refs session).rawRefs = t.rawSubscribers session

/-- An authenticated daemon was told what is demanded. -/
def InStep : Prop :=
  ∀ socket, t.link.daemonWs = some socket → t.link.authenticated = true →
    ∀ session, streamed session (t.sent socket) = t.demand session

/-- A socket that is not there yet, or is the daemon's and not authenticated, was not told
anything. -/
def Silent : Prop :=
  ∀ socket, t.link.sockets ≤ socket ∨
    t.link.daemonWs = some socket ∧ t.link.authenticated = false → t.sent socket = []

/-- **A prompt step**: if a check makes a browser the first subscriber of a session, and the
daemon is there, the subscription tells whether it is raw; and if a lookup authenticates the
daemon, nobody is subscribed to anything, or the daemon is its own and is asked at once. -/
def Prompt (sha256Hex : String → String) : TerminalEvent → Prop
  | .checked n allowed =>
      ∀ check subs, t.checks n = some check → allowed = true →
        t.isCurrentTerminalSubscriptionRevision check.browser check.session check.revision = true →
          t.browserSubscriptions check.browser = some subs → subs.get? check.session = none →
            (t.refs check.session).totalRefs = 0 → t.link.isDaemonConnected = true →
              ∃ raw, check.raw = .bool raw
  | .link (.lookedUp handler lookup) =>
      ∀ call promise token server, t.link.handlers handler = some call →
        call.phase = .lookup promise → call.message = .auth token →
          lookup = .found (some server) → server.tokenHash = sha256Hex token →
            t.link.authenticated = false → ∀ socket, t.link.daemonWs = some socket →
              (∀ session, (t.refs session).totalRefs = 0) ∨
                call.socket = socket ∧
                  server.userId.any (Imcodes.Queue.jsTrim · ≠ "") = false
  | _ => True

end Terminals

/-- In every state the references count the subscribers, and an authenticated daemon streams
what they demand. -/
structure DemandIsMet (sha256Hex : String → String) (events : List TerminalEvent) : Prop where
  total : ∀ before, before <+: events → ∀ session,
    ((Terminals.run sha256Hex before).refs session).totalRefs =
      (Terminals.run sha256Hex before).subscribers session
  raw : ∀ before, before <+: events → ∀ session,
    ((Terminals.run sha256Hex before).refs session).rawRefs =
      (Terminals.run sha256Hex before).rawSubscribers session
  inStep : ∀ before, before <+: events → (Terminals.run sha256Hex before).InStep

namespace Terminals

variable {sha256Hex : String → String} {t t' : Terminals} {browser : ℕ} {session : String}

/-! ## What is sent -/

@[simp] theorem sendToDaemon_link (message : TerminalMessage) :
    (t.sendToDaemon message).link = t.link := by
  rw [sendToDaemon]
  split
  · split <;> rfl
  · rfl

@[simp] theorem sendToDaemon_browserSubscriptions (message : TerminalMessage) :
    (t.sendToDaemon message).browserSubscriptions = t.browserSubscriptions := by
  rw [sendToDaemon]
  split
  · split <;> rfl
  · rfl

@[simp] theorem sendToDaemon_browsers (message : TerminalMessage) :
    (t.sendToDaemon message).browsers = t.browsers := by
  rw [sendToDaemon]
  split
  · split <;> rfl
  · rfl

@[simp] theorem sendToDaemon_daemonSessionRefs (message : TerminalMessage) :
    (t.sendToDaemon message).daemonSessionRefs = t.daemonSessionRefs := by
  rw [sendToDaemon]
  split
  · split <;> rfl
  · rfl

theorem sendToDaemon_sent (message : TerminalMessage) {socket : ℕ}
    (hsocket : t.link.daemonWs = some socket) :
    (t.sendToDaemon message).sent socket =
      if t.link.authenticated then t.sent socket ++ [message] else t.sent socket := by
  rw [sendToDaemon, hsocket]
  dsimp only
  split
  · exact Function.update_self _ _ _
  · rfl

/-! ## One subscription changes -/

/-- Only one subscription has changed, and the references of its session. -/
structure Changes (t t' : Terminals) (browser : ℕ) (session : String) (mode : Option Bool) :
    Prop where
  link : t'.link = t.link
  browsers : t'.browsers = t.browsers
  live : ∀ b, t'.browserSubscriptions b ≠ none → t.browserSubscriptions b ≠ none
  mode : ∀ s b, t'.mode s b = if s = session ∧ b = browser then mode else t.mode s b
  refs : ∀ s, s ≠ session → t'.refs s = t.refs s

namespace Changes

variable {mode : Option Bool}

theorem sendToDaemon (h : Changes t t' browser session mode) (message : TerminalMessage) :
    Changes t (t'.sendToDaemon message) browser session mode := by
  refine ⟨?_, ?_, ?_, ?_, ?_⟩
  · rw [sendToDaemon_link, h.link]
  · rw [sendToDaemon_browsers, h.browsers]
  · rw [sendToDaemon_browserSubscriptions]
    exact h.live
  · intro s b
    rw [Terminals.mode, sendToDaemon_browserSubscriptions]
    exact h.mode s b
  · intro s hs
    rw [Terminals.refs, sendToDaemon_daemonSessionRefs]
    exact h.refs s hs

theorem ite {c : Prop} [Decidable c] {a b : Terminals} (ha : Changes t a browser session mode)
    (hb : Changes t b browser session mode) :
    Changes t (if c then a else b) browser session mode := by
  split
  · exact ha
  · exact hb

/-- The references count again, if those of the session have kept up. -/
theorem counted (h : Changes t t' browser session mode) (hcounted : t.Counted)
    (hbrowser : browser < t.browsers)
    (htotal : (t'.refs session).totalRefs +
        (if (t.mode session browser).isSome then 1 else 0) =
      (t.refs session).totalRefs + if mode.isSome then 1 else 0)
    (hraw : (t'.refs session).rawRefs + (if t.mode session browser = some true then 1 else 0) =
      (t.refs session).rawRefs + if mode = some true then 1 else 0) : t'.Counted := by
  have hself : t'.mode session browser = mode := by rw [h.mode, if_pos ⟨rfl, rfl⟩]
  have hother (b : ℕ) (hb : b ≠ browser) : t'.mode session b = t.mode session b := by
    rw [h.mode, if_neg fun hand => hb hand.2]
  refine ⟨fun b hb => ?_, fun s => ?_, fun s => ?_⟩
  · rw [h.browsers]
    exact hcounted.live b (h.live b hb)
  · by_cases hs : s = session
    · subst hs
      have hcount := countP_of_agree (p := fun b => (t.mode s b).isSome)
        (q := fun b => (t'.mode s b).isSome) List.nodup_range (List.mem_range.2 hbrowser)
        fun b _ hb => by rw [hother b hb]
      rw [hself] at hcount
      rw [hcounted.total] at htotal
      rw [subscribers, h.browsers]
      rw [subscribers] at htotal
      omega
    · rw [h.refs s hs, hcounted.total, subscribers, subscribers, h.browsers]
      exact List.countP_congr fun b _ => by rw [h.mode, if_neg fun hand => hs hand.1]
  · by_cases hs : s = session
    · subst hs
      have hcount := countP_of_agree (p := fun b => decide (t.mode s b = some true))
        (q := fun b => decide (t'.mode s b = some true)) List.nodup_range
        (List.mem_range.2 hbrowser) fun b _ hb => by rw [hother b hb]
      rw [hself] at hcount
      simp only [decide_eq_true_eq] at hcount
      rw [hcounted.raw] at hraw
      rw [rawSubscribers, h.browsers]
      rw [rawSubscribers] at hraw
      omega
    · rw [h.refs s hs, hcounted.raw, rawSubscribers, rawSubscribers, h.browsers]
      exact List.countP_congr fun b _ => by rw [h.mode, if_neg fun hand => hs hand.1]

/-- The daemon need not be told if the demand is the same. -/
theorem inStep (h : Changes t t' browser session mode) (hin : t.InStep)
    (hsent : t'.sent = t.sent) (hdemand : t'.demand session = t.demand session) : t'.InStep := by
  intro socket hsocket hauthenticated s
  rw [h.link] at hsocket hauthenticated
  rw [hsent, hin socket hsocket hauthenticated s]
  by_cases hs : s = session
  · rw [hs, hdemand]
  · rw [demand, demand, h.refs s hs]

/-- It is told of the session what is demanded now. -/
theorem inStep_sendToDaemon (h : Changes t t' browser session mode) (hin : t.InStep)
    (hsent : t'.sent = t.sent) {message : TerminalMessage}
    (hself : ∀ messages, streamed session (messages ++ [message]) = t'.demand session)
    (hother : ∀ s ≠ session, ∀ messages,
      streamed s (messages ++ [message]) = streamed s messages) :
    (t'.sendToDaemon message).InStep := by
  intro socket hsocket hauthenticated s
  rw [sendToDaemon_link] at hsocket hauthenticated
  have hdemand : (t'.sendToDaemon message).demand s = t'.demand s := by
    rw [demand, demand, Terminals.refs, Terminals.refs, sendToDaemon_daemonSessionRefs]
  rw [sendToDaemon_sent message hsocket, if_pos hauthenticated, hdemand]
  by_cases hs : s = session
  · rw [hs, hself]
  · rw [h.link] at hsocket hauthenticated
    rw [hother s hs, hsent, hin socket hsocket hauthenticated s, demand, demand, h.refs s hs]

end Changes

theorem sendToDaemon_sent_of_ne (message : TerminalMessage) {socket : ℕ}
    (hsocket : t.link.daemonWs ≠ some socket) :
    (t.sendToDaemon message).sent socket = t.sent socket := by
  rw [sendToDaemon]
  split
  · rename_i socket' hsocket'
    split
    · exact Function.update_of_ne (fun heq => hsocket (hsocket'.trans (congrArg some heq.symm))) _ _
    · rfl
  · rfl

theorem Silent.sendToDaemon (h : t.Silent) (hlink : t.link.Sound) (message : TerminalMessage) :
    (t.sendToDaemon message).Silent := by
  intro socket hsocket
  rw [sendToDaemon_link] at hsocket
  by_cases hcurrent : t.link.daemonWs = some socket
  · rw [sendToDaemon_sent message hcurrent, if_neg]
    · exact h socket hsocket
    · rcases hsocket with hnew | ⟨-, hnot⟩
      · exact absurd (hlink.known socket hcurrent) (Nat.not_lt.2 hnew)
      · rw [hnot]
        exact Bool.false_ne_true
  · rw [sendToDaemon_sent_of_ne message hcurrent]
    exact h socket hsocket

theorem mode_of_subs {subs : OrderedMap String Bool}
    (hsubs : t.browserSubscriptions browser = some subs) (s : String) :
    t.mode s browser = subs.get? s := by
  rw [mode, hsubs]
  rfl

theorem refs_setRefs (refs : SessionRefs) (s : String) :
    (t.setRefs session refs).refs s = if s = session then refs else t.refs s := by
  rw [Terminals.refs, setRefs, OrderedMap.get?_set]
  split
  · rfl
  · rfl

/-- A browser's subscriptions change for one session. -/
theorem changes_setMode {subs subs' : OrderedMap String Bool} {mode : Option Bool}
    (hsubs : t.browserSubscriptions browser = some subs)
    (hsubs' : ∀ s, subs'.get? s = if s = session then mode else subs.get? s) :
    Changes t (t.setMode browser subs') browser session mode := by
  refine ⟨rfl, rfl, fun b hb => ?_, fun s b => ?_, fun s hs => rfl⟩
  · by_cases hbb : b = browser
    · rw [hbb, hsubs]
      exact Option.some_ne_none _
    · have hsame : (t.setMode browser subs').browserSubscriptions b =
          t.browserSubscriptions b := Function.update_of_ne hbb _ _
      rwa [hsame] at hb
  · by_cases hbb : b = browser
    · subst hbb
      have hself : (t.setMode b subs').browserSubscriptions b = some subs' :=
        Function.update_self _ _ _
      rw [mode_of_subs hself, mode_of_subs hsubs, hsubs']
      simp only [and_true]
    · rw [if_neg fun hand => hbb hand.2, Terminals.mode, Terminals.mode]
      exact congrArg (Option.bind · _) (Function.update_of_ne hbb _ _)

theorem Changes.setRefs {mode : Option Bool} (h : Changes t t' browser session mode)
    (refs : SessionRefs) : Changes t (t'.setRefs session refs) browser session mode :=
  ⟨h.link, h.browsers, h.live, h.mode, fun s hs => by rw [refs_setRefs, if_neg hs, h.refs s hs]⟩

theorem refs_deleteRefs (s : String) :
    (t.deleteRefs session).refs s = if s = session then {} else t.refs s := by
  rw [Terminals.refs, deleteRefs, OrderedMap.get?_delete]
  split <;> rfl

theorem Changes.deleteRefs {mode : Option Bool} (h : Changes t t' browser session mode) :
    Changes t (t'.deleteRefs session) browser session mode :=
  ⟨h.link, h.browsers, h.live, h.mode, fun s hs => by
    rw [refs_deleteRefs, if_neg hs, h.refs s hs]⟩

/-! ## What an operation keeps -/

/-- An operation keeps the counts and what was not said; and it keeps up with the demand, if
it is prompt. -/
structure Keeps (t t' : Terminals) (prompt : Prop) : Prop where
  link : t'.link = t.link
  counted : t'.Counted
  silent : t.link.Sound → t.Silent → t'.Silent
  inStep : t.InStep → prompt → t'.InStep

theorem Keeps.refl (h : t.Counted) (prompt : Prop) : Keeps t t prompt :=
  ⟨rfl, h, fun _ => id, fun hin _ => hin⟩

theorem demand_setRefs {refs : SessionRefs} (hpos : refs.totalRefs ≠ 0) :
    (t.setRefs session refs).demand session = some (decide (0 < refs.rawRefs)) := by
  rw [demand, refs_setRefs, if_pos rfl, if_neg hpos]

theorem Counted.raw_le (h : t.Counted) (session : String) :
    (t.refs session).rawRefs ≤ (t.refs session).totalRefs := by
  rw [h.total, h.raw]
  refine List.countP_mono_left fun b _ hb => ?_
  rw [of_decide_eq_true hb]
  rfl

theorem Keeps.trans {t'' : Terminals} {prompt : Prop} (h : Keeps t t' prompt)
    (h' : Keeps t' t'' prompt) : Keeps t t'' prompt :=
  ⟨h'.link.trans h.link, h'.counted,
    fun hlink hsilent => h'.silent (h.link.symm ▸ hlink) (h.silent hlink hsilent),
    fun hin hprompt => h'.inStep (h.inStep hin hprompt) hprompt⟩

theorem Counted.sendToDaemon (h : t.Counted) (message : TerminalMessage) :
    (t.sendToDaemon message).Counted := by
  refine ⟨fun b hb => ?_, fun s => ?_, fun s => ?_⟩
  · rw [sendToDaemon_browserSubscriptions] at hb
    rw [sendToDaemon_browsers]
    exact h.live b hb
  · rw [refs, sendToDaemon_daemonSessionRefs, subscribers, sendToDaemon_browsers]
    simp only [Terminals.mode, sendToDaemon_browserSubscriptions]
    exact h.total s
  · rw [refs, sendToDaemon_daemonSessionRefs, rawSubscribers, sendToDaemon_browsers]
    simp only [Terminals.mode, sendToDaemon_browserSubscriptions]
    exact h.raw s

namespace Changes

variable {mode : Option Bool} {prompt : Prop}

theorem silent (h : Changes t t' browser session mode) (hsilent : t.Silent)
    (hsent : t'.sent = t.sent) : t'.Silent := by
  intro socket hsocket
  rw [h.link] at hsocket
  rw [hsent]
  exact hsilent socket hsocket

theorem keeps_quietly (h : Changes t t' browser session mode) (hcounted : t'.Counted)
    (hsent : t'.sent = t.sent) (hdemand : t'.demand session = t.demand session) :
    Keeps t t' prompt :=
  ⟨h.link, hcounted, fun _ hsilent => h.silent hsilent hsent,
    fun hin _ => h.inStep hin hsent hdemand⟩

theorem keeps_sendToDaemon (h : Changes t t' browser session mode) (hcounted : t'.Counted)
    (hsent : t'.sent = t.sent) {message : TerminalMessage}
    (hself : prompt → t'.link.isDaemonConnected = true →
      ∀ messages, streamed session (messages ++ [message]) = t'.demand session)
    (hother : ∀ s ≠ session, ∀ messages,
      streamed s (messages ++ [message]) = streamed s messages) :
    Keeps t (t'.sendToDaemon message) prompt := by
  refine ⟨(sendToDaemon_link message).trans h.link, hcounted.sendToDaemon message,
    fun hlink hsilent => ?_, fun hin hprompt => ?_⟩
  · exact (h.silent hsilent hsent).sendToDaemon (h.link.symm ▸ hlink) message
  · intro socket hsocket hauthenticated
    have hconnected : t'.link.isDaemonConnected = true := by
      rw [sendToDaemon_link] at hsocket hauthenticated
      rw [Link.isDaemonConnected, hsocket, hauthenticated]
      rfl
    exact h.inStep_sendToDaemon hin hsent (hself hprompt hconnected) hother socket hsocket
      hauthenticated

end Changes

theorem Keeps.ite {c prompt : Prop} [Decidable c] {a b : Terminals}
    (ha : c → Keeps t a prompt) (hb : ¬ c → Keeps t b prompt) :
    Keeps t (if c then a else b) prompt := by
  split
  · exact ha ‹c›
  · exact hb ‹¬ c›

/-- A browser that is subscribed is counted. -/
theorem Counted.pos (h : t.Counted) {mode : Bool} (hmode : t.mode session browser = some mode) :
    0 < (t.refs session).totalRefs ∧ (mode = true → 0 < (t.refs session).rawRefs) := by
  have hbrowser : browser < t.browsers := by
    refine h.live browser fun hnone => ?_
    rw [Terminals.mode, hnone] at hmode
    cases hmode
  rw [h.total, h.raw]
  constructor
  · exact List.countP_pos_iff.2 ⟨browser, List.mem_range.2 hbrowser, by rw [hmode]; rfl⟩
  · rintro rfl
    exact List.countP_pos_iff.2 ⟨browser, List.mem_range.2 hbrowser, decide_eq_true hmode⟩

theorem streamed_subscribe_self (raw : RawField) (messages : List TerminalMessage) :
    streamed session (messages ++ [.subscribe session raw]) = some raw.isTrue := by
  rw [streamed_append]
  exact if_pos rfl

theorem streamed_subscribe_of_ne (raw : RawField) {s : String} (hs : s ≠ session)
    (messages : List TerminalMessage) :
    streamed s (messages ++ [.subscribe session raw]) = streamed s messages := by
  rw [streamed_append]
  exact if_neg fun heq => hs heq.symm

/-- A browser that is subscribed, and not raw, is not counted for raw. -/
theorem Counted.raw_lt (h : t.Counted) (hmode : t.mode session browser = some false) :
    (t.refs session).rawRefs < (t.refs session).totalRefs := by
  have hbrowser : browser < t.browsers := by
    refine h.live browser fun hnone => ?_
    rw [Terminals.mode, hnone] at hmode
    cases hmode
  have hcount := countP_of_agree (p := fun b => decide (t.mode session b = some true))
    (q := fun b => decide (t.mode session b = some true ∨ b = browser)) List.nodup_range
    (List.mem_range.2 hbrowser) fun b _ hb => by simp only [hb, or_false]
  have hle : (List.range t.browsers).countP
      (fun b => decide (t.mode session b = some true ∨ b = browser)) ≤ t.subscribers session := by
    refine List.countP_mono_left fun b _ hb => ?_
    rcases of_decide_eq_true hb with hraw | rfl
    · rw [hraw]
      rfl
    · rw [hmode]
      rfl
  rw [if_neg (by rw [hmode]; decide), if_pos (decide_eq_true (Or.inr rfl))] at hcount
  rw [h.total, h.raw, rawSubscribers]
  omega

/-- **A subscription is added**, or its mode changes. -/
theorem keeps_add (h : t.Counted) (browser : ℕ) (session : String) (rawMsg : RawField)
    (revision : ℕ) :
    Keeps t (t.addBrowserSessionSubscription browser session rawMsg revision)
      (t.isCurrentTerminalSubscriptionRevision browser session revision = true →
        ∀ subs, t.browserSubscriptions browser = some subs → subs.get? session = none →
          (t.refs session).totalRefs = 0 → t.link.isDaemonConnected = true →
            ∃ raw, rawMsg = .bool raw) := by
  rw [addBrowserSessionSubscription]
  dsimp only
  split
  · exact .refl h _
  rename_i hrevision
  split
  · exact .refl h _
  rename_i subs hsubs
  split
  · exact .refl h _
  rename_i hne
  have hmode := mode_of_subs hsubs session
  have hbrowser : browser < t.browsers := h.live browser (by rw [hsubs]; exact Option.some_ne_none _)
  have hset : Changes t (t.setMode browser (subs.set session rawMsg.rawMode)) browser session
      (some rawMsg.rawMode) := changes_setMode hsubs fun _ => OrderedMap.get?_set
  split
  · rename_i hnone
    rw [hnone] at hmode
    have hchanges := hset.setRefs
      { totalRefs := (t.refs session).totalRefs + 1
        rawRefs := if rawMsg.rawMode then (t.refs session).rawRefs + 1
          else (t.refs session).rawRefs }
    have hcounted := hchanges.counted h hbrowser (by rw [refs_setRefs, if_pos rfl, hmode]; rfl) (by
      rw [refs_setRefs, if_pos rfl, hmode]
      cases rawMsg.rawMode <;> rfl)
    refine .ite (fun hfirst => ?_) fun hlater => ?_
    · have hzero : (t.refs session).totalRefs = 0 := Nat.succ.inj hfirst
      have hraw : (t.refs session).rawRefs = 0 := Nat.le_zero.1 (hzero ▸ h.raw_le session)
      refine hchanges.keeps_sendToDaemon hcounted rfl (fun hprompt hconnected messages => ?_)
        fun s hs messages => streamed_subscribe_of_ne rawMsg hs messages
      obtain ⟨raw, rfl⟩ :=
        hprompt (Bool.eq_true_of_not_eq_false hrevision) subs hsubs hnone hzero hconnected
      rw [streamed_subscribe_self, demand_setRefs (Nat.succ_ne_zero _), hraw]
      cases raw <;> rfl
    · have hpos : (t.refs session).totalRefs ≠ 0 := fun hzero => hlater (congrArg Nat.succ hzero)
      refine .ite (fun hchanged => ?_) fun hsame => ?_
      · refine hchanges.keeps_sendToDaemon hcounted rfl (fun _ _ messages => ?_)
          fun s hs messages => streamed_subscribe_of_ne _ hs messages
        rw [streamed_subscribe_self, demand_setRefs (Nat.succ_ne_zero _)]
        rfl
      · refine hchanges.keeps_quietly hcounted rfl ?_
        rw [demand_setRefs (Nat.succ_ne_zero _), demand, if_neg hpos, not_not.1 hsame]
  · rename_i existing hexisting
    rw [hexisting] at hmode
    obtain ⟨hpos, hpos'⟩ := h.pos hmode
    have hchanges := hset.setRefs
      { t.refs session with
        rawRefs := if rawMsg.rawMode then
            (if existing then (t.refs session).rawRefs - 1 else (t.refs session).rawRefs) + 1
          else if existing then (t.refs session).rawRefs - 1 else (t.refs session).rawRefs }
    have hcounted := hchanges.counted h hbrowser (by rw [refs_setRefs, if_pos rfl, hmode]; rfl) (by
      rw [refs_setRefs, if_pos rfl, hmode]
      cases existing <;> cases rawMsg.rawMode
      · rfl
      · rfl
      · exact Nat.sub_add_cancel (hpos' rfl)
      · exact congrArg (· + 1) (Nat.sub_add_cancel (hpos' rfl)))
    rw [Nat.pos_iff_ne_zero] at hpos
    refine .ite (fun hchanged => ?_) fun hsame => ?_
    · refine hchanges.keeps_sendToDaemon hcounted rfl (fun _ _ messages => ?_)
        fun s hs messages => streamed_subscribe_of_ne _ hs messages
      rw [streamed_subscribe_self, demand_setRefs]
      · rfl
      · exact hpos
    · refine hchanges.keeps_quietly hcounted rfl ?_
      rw [demand_setRefs, demand, if_neg hpos, not_not.1 hsame]
      exact hpos

/-- The first subscription of a session is passed on as it is. -/
theorem add_first {rawMsg : RawField} {revision : ℕ} {subs : OrderedMap String Bool}
    (hrevision : t.isCurrentTerminalSubscriptionRevision browser session revision = true)
    (hsubs : t.browserSubscriptions browser = some subs) (hnone : subs.get? session = none)
    (hzero : (t.refs session).totalRefs = 0) :
    t.addBrowserSessionSubscription browser session rawMsg revision =
      ((t.setMode browser (subs.set session rawMsg.rawMode)).setRefs session
        { totalRefs := (t.refs session).totalRefs + 1
          rawRefs := if rawMsg.rawMode then (t.refs session).rawRefs + 1
            else (t.refs session).rawRefs }).sendToDaemon (.subscribe session rawMsg) := by
  rw [addBrowserSessionSubscription, if_neg (by rw [hrevision]; nofun), hsubs]
  dsimp only
  rw [if_neg (by rw [hnone]; nofun), hnone]
  exact if_pos (congrArg (· + 1) hzero)

/-- The daemon is in step with the first subscription only if this tells its mode. -/
theorem told_of_inStep {rawMsg : RawField} {revision : ℕ} {subs : OrderedMap String Bool}
    (h : t.Counted)
    (hrevision : t.isCurrentTerminalSubscriptionRevision browser session revision = true)
    (hsubs : t.browserSubscriptions browser = some subs) (hnone : subs.get? session = none)
    (hzero : (t.refs session).totalRefs = 0) (hconnected : t.link.isDaemonConnected = true)
    (hin : (t.addBrowserSessionSubscription browser session rawMsg revision).InStep) :
    ∃ raw, rawMsg = .bool raw := by
  obtain ⟨hws, hauthenticated⟩ := Bool.and_eq_true_iff.1 hconnected
  obtain ⟨socket, hsocket⟩ := Option.isSome_iff_exists.1 hws
  have hraw : (t.refs session).rawRefs = 0 := Nat.le_zero.1 (hzero ▸ h.raw_le session)
  rw [add_first hrevision hsubs hnone hzero] at hin
  have hrefs : ((t.setMode browser (subs.set session rawMsg.rawMode)).setRefs session
      { totalRefs := (t.refs session).totalRefs + 1
        rawRefs := if rawMsg.rawMode then (t.refs session).rawRefs + 1
          else (t.refs session).rawRefs }).demand session = some rawMsg.rawMode := by
    rw [demand_setRefs (Nat.succ_ne_zero _), hraw]
    cases rawMsg.rawMode <;> rfl
  generalize hadded : (t.setMode browser (subs.set session rawMsg.rawMode)).setRefs session _ = t'
    at hin hrefs
  have hlink : t'.link = t.link := by rw [← hadded]; rfl
  have hstreamed := hin socket (by rw [sendToDaemon_link, hlink, hsocket])
    (by rw [sendToDaemon_link, hlink, hauthenticated]) session
  rw [sendToDaemon_sent _ (hlink ▸ hsocket), if_pos (hlink ▸ hauthenticated),
    streamed_subscribe_self, demand, Terminals.refs, sendToDaemon_daemonSessionRefs,
    ← Terminals.refs, ← demand, hrefs] at hstreamed
  cases rawMsg with
  | bool raw => exact ⟨raw, rfl⟩
  | absent => cases hstreamed
  | other => cases hstreamed

/-- **A subscription is removed.** -/
theorem keeps_remove (h : t.Counted) (prompt : Prop) :
    Keeps t (t.removeBrowserSessionSubscription browser session) prompt := by
  have hbump : Keeps t (t.bumpTerminalSubscriptionRevision browser session) prompt :=
    ⟨rfl, ⟨h.live, h.total, h.raw⟩, fun _ => id, fun hin _ => hin⟩
  rw [removeBrowserSessionSubscription]
  generalize t.bumpTerminalSubscriptionRevision browser session = s at hbump ⊢
  dsimp only
  split
  · exact hbump
  rename_i subs hsubs
  split
  · exact hbump
  rename_i wasRaw hwas
  refine hbump.trans ?_
  have h := hbump.counted
  have hmode : s.mode session browser = some wasRaw := (mode_of_subs hsubs session).trans hwas
  obtain ⟨hpos, hpos'⟩ := h.pos hmode
  have hbrowser : browser < s.browsers :=
    h.live browser (by rw [hsubs]; exact Option.some_ne_none _)
  have hdeleted : Changes s (s.setMode browser (subs.delete session)) browser session none :=
    changes_setMode hsubs fun _ => OrderedMap.get?_delete
  split
  · rename_i hnone
    rw [refs, show s.daemonSessionRefs.get? session = none from hnone] at hpos
    exact absurd hpos (Nat.lt_irrefl 0)
  rename_i r hr
  have hrefs : s.refs session = r := by
    rw [refs, show s.daemonSessionRefs.get? session = some r from hr]
    rfl
  rw [hrefs] at hpos hpos'
  have hraw : r.rawRefs ≤ r.totalRefs := hrefs ▸ h.raw_le session
  refine .ite (fun hlast => ?_) fun hmore => ?_
  · have hone : r.totalRefs = 1 := by omega
    have hcounted := hdeleted.deleteRefs.counted h hbrowser
      (by rw [refs_deleteRefs, if_pos rfl, hmode, hrefs, hone]; rfl) (by
        rw [refs_deleteRefs, if_pos rfl, hmode, hrefs]
        cases wasRaw with
        | true => exact (Nat.le_antisymm (hraw.trans_eq hone) (hpos' rfl)).symm
        | false =>
          have hlt := h.raw_lt hmode
          rw [hrefs, hone] at hlt
          exact (Nat.lt_one_iff.1 hlt).symm)
    refine hdeleted.deleteRefs.keeps_sendToDaemon hcounted rfl (fun _ _ messages => ?_)
      fun s hs messages => ?_
    · rw [streamed_append, demand, refs_deleteRefs, if_pos rfl]
      exact if_pos rfl
    · rw [streamed_append]
      exact if_neg fun heq => hs heq.symm
  · have hchanges := hdeleted.setRefs
      { totalRefs := r.totalRefs - 1
        rawRefs := if wasRaw then r.rawRefs - 1 else r.rawRefs }
    have hcounted := hchanges.counted h hbrowser
      (by rw [refs_setRefs, if_pos rfl, hmode, hrefs]; exact Nat.sub_add_cancel hpos) (by
        rw [refs_setRefs, if_pos rfl, hmode, hrefs]
        cases wasRaw with
        | true => exact Nat.sub_add_cancel (hpos' rfl)
        | false => rfl)
    refine .ite (fun hunraw => ?_) fun hsame => ?_
    · refine hchanges.keeps_sendToDaemon hcounted rfl (fun _ _ messages => ?_)
        fun s hs messages => streamed_subscribe_of_ne _ hs messages
      rw [streamed_subscribe_self, demand_setRefs]
      · rw [hunraw.2]
        rfl
      · exact hmore
    · refine hchanges.keeps_quietly hcounted rfl ?_
      rw [demand_setRefs, demand, hrefs, if_neg (Nat.pos_iff_ne_zero.1 hpos)]
      · cases wasRaw with
        | true =>
          have hstill : 0 < r.rawRefs - 1 :=
            Nat.pos_of_ne_zero fun hzero => hsame ⟨rfl, hzero⟩
          exact congrArg some (decide_eq_decide.2 ⟨fun _ => hpos' rfl, fun _ => hstill⟩)
        | false => rfl
      · exact hmore

/-! ## Several at once -/

/-- A browser is not subscribed any more to what was removed. -/
theorem mode_remove (s : String) :
    (t.removeBrowserSessionSubscription browser session).mode s browser =
      if s = session then none else t.mode s browser := by
  rw [removeBrowserSessionSubscription]
  change _ = if s = session then none else
    (t.bumpTerminalSubscriptionRevision browser session).mode s browser
  generalize t.bumpTerminalSubscriptionRevision browser session = t'
  dsimp only
  split
  · rename_i hnone
    rw [Terminals.mode, hnone]
    exact (ite_self _).symm
  rename_i subs hsubs
  split
  · rename_i hnone
    rw [mode_of_subs hsubs]
    split
    · rename_i hs
      rw [hs, hnone]
    · rfl
  have hdeleted : Changes t' (t'.setMode browser (subs.delete session)) browser session none :=
    changes_setMode hsubs fun _ => OrderedMap.get?_delete
  have hmode {r : Terminals} (hr : Changes t' r browser session none) :
      r.mode s browser = if s = session then none else t'.mode s browser := by
    rw [hr.mode]
    simp only [and_true]
  split
  · exact hmode hdeleted
  split
  · exact hmode (hdeleted.deleteRefs.sendToDaemon _)
  · exact hmode (.ite ((hdeleted.setRefs _).sendToDaemon _) (hdeleted.setRefs _))

/-- **A socket is closed**: none of its subscriptions is left. -/
theorem keeps_cleanup (h : t.Counted) (prompt : Prop) :
    Keeps t (t.cleanupBrowserSocket browser) prompt := by
  have hremoved (sessions : List String) {t : Terminals} (h : t.Counted) :
      Keeps t (sessions.foldl (·.removeBrowserSessionSubscription browser ·) t) prompt ∧
        ∀ s, (sessions.foldl (·.removeBrowserSessionSubscription browser ·) t).mode s browser =
          if s ∈ sessions then none else t.mode s browser := by
    induction sessions generalizing t with
    | nil => exact ⟨.refl h prompt, fun s => rfl⟩
    | cons session sessions ih =>
      have hkeeps : Keeps t (t.removeBrowserSessionSubscription browser session) prompt :=
        keeps_remove h prompt
      obtain ⟨hrest, hmode⟩ := ih hkeeps.counted
      refine ⟨hkeeps.trans hrest, fun s => ?_⟩
      rw [List.foldl_cons, hmode, mode_remove]
      simp only [List.mem_cons]
      by_cases hs : s = session
      · simp [hs]
      · simp [hs]
  rw [cleanupBrowserSocket]
  obtain ⟨hkeeps, hmode⟩ :=
    hremoved ((t.browserSubscriptions browser).elim [] (·.toList.map Prod.fst)) h
  refine hkeeps.trans ?_
  have hnone (s : String) : (((t.browserSubscriptions browser).elim []
      (·.toList.map Prod.fst)).foldl (·.removeBrowserSessionSubscription browser ·) t).mode s
        browser = none := by
    rw [hmode]
    split
    · rfl
    · rename_i hs
      cases hsubs : t.browserSubscriptions browser with
      | none => rw [Terminals.mode, hsubs]; rfl
      | some subs =>
        rw [mode_of_subs hsubs]
        refine Option.eq_none_iff_forall_ne_some.2 fun mode hget => hs ?_
        rw [hsubs]
        exact List.mem_map.2 ⟨(s, mode), OrderedMap.get?_eq_some.1 hget, rfl⟩
  have h := hkeeps.counted
  generalize ((t.browserSubscriptions browser).elim [] (·.toList.map Prod.fst)).foldl
    (·.removeBrowserSessionSubscription browser ·) t = t' at h hnone ⊢
  have hsame (s : String) (b : ℕ) : Terminals.mode { t' with
      browserSubscriptions := Function.update t'.browserSubscriptions browser none
      terminalSubscriptionRevisions :=
        Function.update t'.terminalSubscriptionRevisions browser fun _ => 0 } s b =
      t'.mode s b := by
    by_cases hb : b = browser
    · subst hb
      rw [hnone, Terminals.mode]
      dsimp only
      rw [Function.update_self]
      rfl
    · rw [Terminals.mode]
      dsimp only
      rw [Function.update_of_ne hb]
      rfl
  refine ⟨rfl, ⟨fun b hb => ?_, fun s => ?_, fun s => ?_⟩, fun _ => id, fun hin _ => hin⟩
  · refine h.live b fun hb' => hb ?_
    by_cases hbb : b = browser
    · rw [hbb]
      exact Function.update_self _ _ _
    · exact (Function.update_of_ne hbb _ _).trans hb'
  · rw [subscribers]
    simp only [hsame]
    exact h.total s
  · rw [rawSubscribers]
    simp only [hsame]
    exact h.raw s

/-- A replay only sends, and on one socket. -/
theorem replay_eq (socket : ℕ) (entries : List (String × SessionRefs)) (t : Terminals) :
    ∃ messages, entries.foldl (·.replaySubscription socket ·) t =
      { t with sent := Function.update t.sent socket messages } := by
  induction entries generalizing t with
  | nil => exact ⟨t.sent socket, by rw [Function.update_eq_self]; rfl⟩
  | cons entry entries ih =>
    obtain ⟨messages, hmessages⟩ := ih (t.replaySubscription socket entry)
    refine ⟨messages, ?_⟩
    rw [List.foldl_cons, hmessages, replaySubscription]
    split
    · rw [send]
      dsimp only
      rw [Function.update_idem]
    · rfl

/-- What a replay sends of a session. -/
theorem streamed_replay (socket : ℕ) (s : String) {entries : List (String × SessionRefs)}
    (hnodup : (entries.map Prod.fst).Nodup) (t : Terminals) :
    (∀ refs, (s, refs) ∈ entries → 0 < refs.totalRefs →
      streamed s ((entries.foldl (·.replaySubscription socket ·) t).sent socket) =
        some (decide (0 < refs.rawRefs))) ∧
      ((∀ refs, (s, refs) ∈ entries → refs.totalRefs = 0) →
        streamed s ((entries.foldl (·.replaySubscription socket ·) t).sent socket) =
          streamed s (t.sent socket)) := by
  induction entries generalizing t with
  | nil => exact ⟨nofun, fun _ => rfl⟩
  | cons entry entries ih =>
    rw [List.map_cons, List.nodup_cons] at hnodup
    obtain ⟨hmem, hnot⟩ := ih hnodup.2 (t.replaySubscription socket entry)
    have hentry : streamed s ((t.replaySubscription socket entry).sent socket) =
        if entry.1 = s ∧ 0 < entry.2.totalRefs then some (decide (0 < entry.2.rawRefs))
        else streamed s (t.sent socket) := by
      rw [replaySubscription]
      by_cases hpos : 0 < entry.2.totalRefs
      · rw [if_pos hpos, send]
        dsimp only
        rw [Function.update_self, streamed_append]
        simp only [hpos, and_true]
        rfl
      · rw [if_neg hpos, if_neg fun hand => hpos hand.2]
    refine ⟨fun refs hrefs hpos => ?_, fun hall => ?_⟩
    · rcases List.mem_cons.1 hrefs with rfl | hrefs
      · rw [List.foldl_cons, hnot fun refs' hrefs' => absurd (List.mem_map.2 ⟨_, hrefs', rfl⟩)
          hnodup.1, hentry, if_pos ⟨rfl, hpos⟩]
      · exact hmem refs hrefs hpos
    · rw [List.foldl_cons, hnot fun refs hrefs => hall refs (List.mem_cons_of_mem _ hrefs), hentry,
        if_neg]
      rintro ⟨rfl, hpos⟩
      exact absurd (hall entry.2 List.mem_cons_self) (Nat.pos_iff_ne_zero.1 hpos)

/-- **A daemon that is asked for everything** streams what is demanded. -/
theorem streamed_replaySubscriptions (socket : ℕ)
    (hsent : ∀ s, (t.refs s).totalRefs = 0 → streamed s (t.sent socket) = none) (s : String) :
    streamed s ((t.replaySubscriptions socket).sent socket) = t.demand s := by
  obtain ⟨hmem, hnot⟩ := streamed_replay socket s t.daemonSessionRefs.nodup t
  rw [replaySubscriptions, demand]
  by_cases hzero : (t.refs s).totalRefs = 0
  · rw [if_pos hzero, hnot fun refs hrefs => ?_, hsent s hzero]
    rw [← OrderedMap.get?_eq_some] at hrefs
    rwa [Terminals.refs, hrefs] at hzero
  · rw [if_neg hzero]
    cases hrefs : t.daemonSessionRefs.get? s with
    | none =>
      rw [Terminals.refs, hrefs] at hzero
      exact absurd rfl hzero
    | some refs =>
      rw [Terminals.refs, hrefs] at hzero ⊢
      exact hmem refs (OrderedMap.get?_eq_some.1 hrefs) (Nat.pos_of_ne_zero hzero)

/-! ## Every step -/

/-- What holds whether the steps are prompt or not. -/
structure Sound (t : Terminals) : Prop where
  link : t.link.Sound
  counted : t.Counted
  silent : t.Silent

/-- A step that is not one of the connection keeps everything. -/
theorem keeps_step (h : t.Counted) {event : TerminalEvent} (hevent : ∀ e, event ≠ .link e) :
    Keeps t (t.step sha256Hex event) (t.Prompt sha256Hex event) := by
  cases event with
  | link e => exact absurd rfl (hevent e)
  | opened =>
    have hmode (s : String) (b : ℕ) (hb : b < t.browsers) :
        (t.step sha256Hex .opened).mode s b = t.mode s b := by
      rw [step, Terminals.mode]
      dsimp only
      rw [Function.update_of_ne (Nat.ne_of_lt hb)]
      rfl
    have hnew (s : String) : (t.step sha256Hex .opened).mode s t.browsers = none := by
      rw [step, Terminals.mode]
      dsimp only
      rw [Function.update_self]
      rfl
    refine ⟨rfl, ⟨fun b hb => ?_, fun s => ?_, fun s => ?_⟩, fun _ => id, fun hin _ => hin⟩
    · by_cases hbb : b = t.browsers
      · exact Nat.lt_succ_of_le hbb.le
      · refine Nat.lt_succ_of_lt (h.live b fun hnone => hb ?_)
        exact (Function.update_of_ne hbb _ _).trans hnone
    · refine (h.total s).trans ?_
      rw [subscribers, subscribers]
      change _ = (List.range (t.browsers + 1)).countP _
      rw [List.range_succ, List.countP_append, List.countP_singleton, hnew]
      exact List.countP_congr fun b hb => by rw [hmode s b (List.mem_range.1 hb)]
    · refine (h.raw s).trans ?_
      rw [rawSubscribers, rawSubscribers]
      change _ = (List.range (t.browsers + 1)).countP _
      rw [List.range_succ, List.countP_append, List.countP_singleton, hnew]
      exact List.countP_congr fun b hb => by rw [hmode s b (List.mem_range.1 hb)]
  | subscribe browser session raw =>
    rw [step]
    split
    · exact ⟨rfl, ⟨h.live, h.total, h.raw⟩, fun _ => id, fun hin _ => hin⟩
    · exact .refl h _
  | checked n allowed =>
    rw [step]
    split
    · exact .refl h _
    rename_i check hcheck
    have hended : Keeps t { t with checks := Function.update t.checks n none }
        (t.Prompt sha256Hex (.checked n allowed)) :=
      ⟨rfl, ⟨h.live, h.total, h.raw⟩, fun _ => id, fun hin _ => hin⟩
    dsimp only
    split
    · rename_i hallowed
      have hadd := keeps_add hended.counted check.browser check.session check.raw check.revision
      refine ⟨hadd.link, hadd.counted, hadd.silent, fun hin hprompt => hadd.inStep hin ?_⟩
      exact fun hrevision subs hsubs => hprompt check subs hcheck hallowed hrevision hsubs
    · exact hended
  | unsubscribe browser session => exact keeps_remove h _
  | overflowed browser session => exact keeps_remove h _
  | closed browser => exact keeps_cleanup h _

theorem Counted.of_link (h : t.Counted) (link : Link) : Counted { t with link } :=
  ⟨h.live, h.total, h.raw⟩

theorem Counted.replay (h : t.Counted) (socket : ℕ) : (t.replaySubscriptions socket).Counted := by
  obtain ⟨messages, hmessages⟩ := replay_eq socket t.daemonSessionRefs.toList t
  rw [replaySubscriptions, hmessages]
  exact ⟨h.live, h.total, h.raw⟩

theorem replay_sent_of_ne {socket w : ℕ} (hw : w ≠ socket) :
    (t.replaySubscriptions socket).sent w = t.sent w := by
  obtain ⟨messages, hmessages⟩ := replay_eq socket t.daemonSessionRefs.toList t
  rw [replaySubscriptions, hmessages]
  exact Function.update_of_ne hw _ _

theorem replay_link (socket : ℕ) : (t.replaySubscriptions socket).link = t.link := by
  obtain ⟨messages, hmessages⟩ := replay_eq socket t.daemonSessionRefs.toList t
  rw [replaySubscriptions, hmessages]

theorem replay_demand (socket : ℕ) (s : String) :
    (t.replaySubscriptions socket).demand s = t.demand s := by
  obtain ⟨messages, hmessages⟩ := replay_eq socket t.daemonSessionRefs.toList t
  rw [replaySubscriptions, hmessages]
  rfl

/-- A step of the connection changes nothing else, but that a daemon may be asked for
everything. -/
theorem link_step_eq {event : LinkEvent} {link : Link} {acts : List LinkAct}
    (hstep : t.link.step sha256Hex event = (link, acts)) :
    t.step sha256Hex (.link event) = acts.foldl take { t with link } := by
  rw [step, hstep]

/-- What holds of everything, holds after an event of the connection. -/
theorem Sound.link_step (h : t.Sound) (event : LinkEvent) :
    (t.step sha256Hex (.link event)).Sound := by
  have hlink : (t.link.step sha256Hex event).1.Sound := h.link.step event
  have hchange := Link.change_step sha256Hex t.link event
  obtain ⟨⟨link, acts⟩, hstep⟩ : ∃ change, t.link.step sha256Hex event = change := ⟨_, rfl⟩
  rw [hstep] at hlink hchange
  dsimp only at hlink hchange
  rw [link_step_eq hstep]
  have hcounted := h.counted.of_link link
  -- A handler that replays has a socket that is there.
  have hreplayed {call : Handler} {n : ℕ} (hcall : t.link.handlers n = some call)
      (hsockets : link.sockets = t.link.sockets)
      (hother : ∀ socket, link.daemonWs = some socket → link.authenticated = false →
        socket ≠ call.socket ∧ t.link.daemonWs = some socket ∧ t.link.authenticated = false) :
      (Terminals.replaySubscriptions { t with link } call.socket).Sound := by
    refine ⟨replay_link (t := { t with link }) _ ▸ hlink, hcounted.replay call.socket,
      fun socket hsocket => ?_⟩
    rw [replay_link] at hsocket
    have hcallsocket := h.link.handled n call hcall
    have hne : socket ≠ call.socket := by
      rintro rfl
      rcases hsocket with hnew | ⟨hws, hnot⟩
      · exact absurd (hsockets ▸ hnew) (Nat.not_le.2 hcallsocket)
      · exact (hother _ hws hnot).1 rfl
    rw [replay_sent_of_ne hne]
    refine h.silent socket (hsocket.imp (fun hnew => hsockets ▸ hnew) fun hand => ?_)
    exact (hother socket hand.1 hand.2).2
  cases hchange with
  | quiet same =>
    refine ⟨hlink, hcounted, fun socket hsocket => h.silent socket ?_⟩
    rwa [← same.sockets, ← same.daemonWs, ← same.authenticated]
  | connected daemonWs authenticated sockets =>
    refine ⟨hlink, hcounted, fun socket hsocket => h.silent socket (Or.inl ?_)⟩
    rcases hsocket with hnew | ⟨hws, -⟩
    · exact Nat.le_of_succ_le (sockets.symm.trans_le hnew)
    · exact (Option.some.inj (daemonWs.symm.trans hws)).le
  | disconnected current daemonWs authenticated sockets =>
    refine ⟨hlink, hcounted, fun socket hsocket => h.silent socket (Or.inl ?_)⟩
    rcases hsocket with hnew | ⟨hws, -⟩
    · exact sockets ▸ hnew
    · exact absurd (daemonWs.symm.trans hws) nofun
  | kicked daemonWs authenticated sockets =>
    refine ⟨hlink, hcounted, fun socket hsocket => h.silent socket (Or.inl ?_)⟩
    rcases hsocket with hnew | ⟨hws, -⟩
    · exact sockets ▸ hnew
    · exact absurd (daemonWs.symm.trans hws) nofun
  | replays found phase same =>
    refine hreplayed found same.sockets fun socket hws hnot => ?_
    rw [same.daemonWs] at hws
    rw [same.authenticated] at hnot
    refine ⟨?_, hws, hnot⟩
    rintro rfl
    exact absurd (h.link.past _ _ _ found phase hws) (by rw [hnot]; exact Bool.false_ne_true)
  | authenticates found phase message valid daemonWs authenticated sockets acts_eq =>
    subst acts_eq
    split
    · refine ⟨hlink, hcounted, fun socket hsocket => h.silent socket (Or.inl ?_)⟩
      rcases hsocket with hnew | ⟨-, hnot⟩
      · exact sockets ▸ hnew
      · exact absurd (authenticated.symm.trans hnot) nofun
    · exact hreplayed found sockets fun socket _ hnot => absurd (authenticated.symm.trans hnot) nofun

/-- **An event of the connection** keeps up with the demand, if it is prompt. -/
theorem inStep_link_step (h : t.Sound) (hin : t.InStep) {event : LinkEvent}
    (hprompt : t.Prompt sha256Hex (.link event)) : (t.step sha256Hex (.link event)).InStep := by
  have hchange := Link.change_step sha256Hex t.link event
  obtain ⟨⟨link, acts⟩, hstep⟩ : ∃ change, t.link.step sha256Hex event = change := ⟨_, rfl⟩
  rw [hstep] at hchange
  dsimp only at hchange
  rw [link_step_eq hstep]
  -- A replay on the daemon's socket says what is demanded, on another one nothing.
  have hreplayed (w : ℕ)
      (hsent : ∀ socket, link.daemonWs = some socket → link.authenticated = true →
        (∀ s, streamed s (t.sent socket) = t.demand s) ∨
          socket = w ∧ t.sent socket = []) :
      (Terminals.replaySubscriptions { t with link } w).InStep := by
    intro socket hws hauthenticated s
    rw [replay_link] at hws hauthenticated
    rw [replay_demand]
    rcases hsent socket hws hauthenticated with hsame | ⟨rfl, hnone⟩
    · by_cases hsocket : socket = w
      · subst hsocket
        refine streamed_replaySubscriptions (t := { t with link }) socket (fun s hzero => ?_) s
        exact (hsame s).trans (if_pos hzero)
      · rw [replay_sent_of_ne hsocket]
        exact hsame s
    · refine streamed_replaySubscriptions (t := { t with link }) socket (fun s _ => ?_) s
      rw [show Terminals.sent { t with link } socket = [] from hnone]
      rfl
  cases hchange with
  | quiet same =>
    intro socket hws hauthenticated
    exact hin socket (same.daemonWs ▸ hws) (same.authenticated ▸ hauthenticated)
  | connected daemonWs authenticated sockets =>
    intro socket hws hauthenticated
    exact absurd (authenticated.symm.trans hauthenticated) nofun
  | disconnected current daemonWs authenticated sockets =>
    intro socket hws hauthenticated
    exact absurd (authenticated.symm.trans hauthenticated) nofun
  | kicked daemonWs authenticated sockets =>
    intro socket hws hauthenticated
    exact absurd (authenticated.symm.trans hauthenticated) nofun
  | replays found phase same =>
    refine hreplayed _ fun socket hws hauthenticated => Or.inl ?_
    exact hin socket (same.daemonWs ▸ hws) (same.authenticated ▸ hauthenticated)
  | @authenticates handler call promise token server _ _ found phase message valid daemonWs
      authenticated sockets acts_eq =>
    subst acts_eq
    -- A daemon that was authenticated already is in step, another one was not told anything.
    have hbefore (socket : ℕ) (hws : link.daemonWs = some socket) :
        (∀ s, streamed s (t.sent socket) = t.demand s) ∨ call.socket = socket ∧
          server.userId.any (Imcodes.Queue.jsTrim · ≠ "") = false ∧ t.sent socket = [] := by
      rw [daemonWs] at hws
      cases hauthenticated : t.link.authenticated with
      | true => exact Or.inl (hin socket hws hauthenticated)
      | false =>
        have hnone := h.silent socket (Or.inr ⟨hws, hauthenticated⟩)
        rcases hprompt call promise token server found phase message rfl valid hauthenticated
          socket hws with hzero | ⟨hsocket, huser⟩
        · refine Or.inl fun s => ?_
          rw [hnone, demand, if_pos (hzero s)]
          rfl
        · exact Or.inr ⟨hsocket, huser, hnone⟩
    split
    · rename_i huser
      intro socket hws hauthenticated
      rcases hbefore socket hws with hsame | ⟨-, hnot, -⟩
      · exact hsame
      · exact absurd (hnot.symm.trans huser) nofun
    · refine hreplayed _ fun socket hws _ => (hbefore socket hws).imp_right fun hand => ?_
      exact ⟨hand.1.symm, hand.2.2⟩

theorem sound_step (h : t.Sound) (event : TerminalEvent) : (t.step sha256Hex event).Sound := by
  by_cases hevent : ∃ e, event = .link e
  · obtain ⟨e, rfl⟩ := hevent
    exact h.link_step e
  · have hkeeps : Keeps t (t.step sha256Hex event) (t.Prompt sha256Hex event) :=
      keeps_step h.counted fun e he => hevent ⟨e, he⟩
    exact ⟨hkeeps.link ▸ h.link, hkeeps.counted, hkeeps.silent h.link h.silent⟩

theorem inStep_step (h : t.Sound) (hin : t.InStep) {event : TerminalEvent}
    (hprompt : t.Prompt sha256Hex event) : (t.step sha256Hex event).InStep := by
  by_cases hevent : ∃ e, event = .link e
  · obtain ⟨e, rfl⟩ := hevent
    exact inStep_link_step h hin hprompt
  · exact (keeps_step h.counted fun e he => hevent ⟨e, he⟩).inStep hin hprompt

/-- A step after which the daemon is in step was prompt. -/
theorem prompt_of_inStep (h : t.Sound) {event : TerminalEvent}
    (hin : (t.step sha256Hex event).InStep) : t.Prompt sha256Hex event := by
  cases event with
  | checked n allowed =>
    intro check subs hcheck hallowed hrevision hsubs hnone hzero hconnected
    have hstep : t.step sha256Hex (.checked n allowed) =
        addBrowserSessionSubscription { t with checks := Function.update t.checks n none }
          check.browser check.session check.raw check.revision := by
      rw [step, hcheck]
      exact if_pos hallowed
    rw [hstep] at hin
    exact told_of_inStep (t := { t with checks := Function.update t.checks n none })
      ⟨h.counted.live, h.counted.total, h.counted.raw⟩ hrevision hsubs hnone hzero hconnected hin
  | link event =>
    cases event with
    | lookedUp handler lookup =>
      intro call promise token server found phase message hlookup valid hauthenticated socket hws
      subst hlookup
      have hsilent : t.sent socket = [] := h.silent socket (Or.inr ⟨hws, hauthenticated⟩)
      have hstep := Link.step_lookedUp found phase message valid
      have hzero (hnone : ∀ s, streamed s (t.sent socket) = t.demand s) (s : String) :
          (t.refs s).totalRefs = 0 := by
        have hs := hnone s
        rw [hsilent, demand] at hs
        by_contra hpos
        rw [if_neg hpos] at hs
        cases hs
      dsimp only at hstep
      split at hstep
      · rw [link_step_eq hstep] at hin
        exact Or.inl (hzero (hin socket hws rfl))
      · rename_i huser
        rw [link_step_eq hstep] at hin
        by_cases hsocket : call.socket = socket
        · exact Or.inr ⟨hsocket, Bool.eq_false_of_not_eq_true huser⟩
        · refine Or.inl (hzero fun s => ?_)
          have hstreamed := hin socket (by
            change (Terminals.replaySubscriptions _ call.socket).link.daemonWs = _
            rw [replay_link]
            exact hws) (by
            change (Terminals.replaySubscriptions _ call.socket).link.authenticated = _
            rw [replay_link]
            rfl) s
          change streamed s ((Terminals.replaySubscriptions _ call.socket).sent socket) =
            (Terminals.replaySubscriptions _ call.socket).demand s at hstreamed
          rwa [replay_sent_of_ne (fun heq => hsocket heq.symm), replay_demand] at hstreamed
    | _ => trivial
  | _ => trivial

theorem sound_start : Sound {} := by
  refine ⟨.start, ⟨nofun, fun s => rfl, fun s => rfl⟩, fun _ _ => rfl⟩

end Terminals

/-- **Demand is met exactly when every step is prompt.** -/
theorem demandIsMet_iff (sha256Hex : String → String) (events : List TerminalEvent) :
    DemandIsMet sha256Hex events ↔
      Along (Terminals.step sha256Hex) (fun t event => t.Prompt sha256Hex event) events {} := by
  have hsound (before : List TerminalEvent) : (Terminals.run sha256Hex before).Sound :=
    run_invariant_all Terminals.Sound (fun _ event h => Terminals.sound_step h event)
      Terminals.sound_start before
  constructor
  · intro h
    refine along_iff.2 fun before event hpre => ?_
    have hin := h.inStep _ hpre
    rw [Terminals.run, run_append] at hin
    exact Terminals.prompt_of_inStep (hsound before) hin
  · intro h
    refine ⟨fun before _ => (hsound before).counted.total, fun before _ =>
      (hsound before).counted.raw, ?_⟩
    rintro before ⟨after, rfl⟩
    exact (run_invariant (fun t : Terminals => t.Sound ∧ t.InStep)
      (fun _ event ht hprompt => ⟨Terminals.sound_step ht.1 event,
        Terminals.inStep_step ht.1 ht.2 hprompt⟩)
      ⟨Terminals.sound_start, nofun⟩ (along_append.1 h).1).2

/-! ## A subscription that does not tell its mode -/

/-- The daemon is authenticated when a browser subscribes without a `raw` field. -/
def untoldMode : List TerminalEvent :=
  [.link .connect, .link (.message 0 (.auth "token")),
    .link (.lookedUp 0 (.found (some ⟨"token", none⟩))), .opened, .subscribe 0 "session" .absent,
    .checked 0 true]

/-- **The demand is not always met**: the subscription counts for raw, and the daemon takes
it not to be. -/
theorem not_demandIsMet :
    ¬ ∀ (sha256Hex : String → String) (events : List TerminalEvent),
      DemandIsMet sha256Hex events := by
  intro h
  have hin := (h id untoldMode).inStep _ (List.prefix_refl _) 0 (by decide +kernel)
    (by decide +kernel) "session"
  exact absurd hin (by decide +kernel)

end Imcodes.Bridge
