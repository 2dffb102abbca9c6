import Imcodes.Bridge.Link

/-!
# Who speaks for the daemon

Whether the daemon is authenticated belongs to the bridge and not to a socket, and a handler
does not look again whose it is: neither when its lookup ends, nor when a message arrives on
a socket that was replaced.

* `OnlyTheDaemonSpeaks` — what is processed came over the daemon's socket, which had
  presented a valid token, and no other socket gains by that.
* `Proper` — a valid lookup ends for a socket that was not replaced, and nothing arrives
  elsewhere while the daemon is authenticated.
* `onlyTheDaemonSpeaks_iff` — the one exactly when every step is the other.
* `not_onlyTheDaemonSpeaks` — a socket gains by the lookup of the one that it replaced.
-/

namespace Imcodes.Bridge

open Machine

namespace Link

variable (sha256Hex : String → String) (link : Link)

/-- The lookup finds the server, with the token that the handler's message presents. -/
def Validates (handler : ℕ) (lookup : Lookup) : Prop :=
  ∃ call promise server token, link.handlers handler = some call ∧
    call.phase = .lookup promise ∧ call.message = .auth token ∧
      lookup = .found (some server) ∧ server.tokenHash = sha256Hex token

/-- Everything that went past the check arrived on the daemon's socket, after this had
presented a valid token. -/
def Spoken : Prop := ∀ p ∈ link.processed, p.isCurrent = true ∧ p.isAuthentic = true

/-- An authenticated daemon is one whose own socket has presented a valid token. -/
def Guarded : Prop :=
  link.authenticated = true → ∀ socket, link.daemonWs = some socket → socket ∈ link.authentic

/-- A message is not processed for a socket that is not the daemon's; a token does not prove
valid after its socket was replaced by one that has presented none. -/
def Proper : LinkEvent → Prop
  | .message socket _ =>
      link.isOpen socket = true → link.authPromise = none → link.authenticated = true →
        link.daemonWs = some socket
  | .lookedUp handler lookup =>
      link.Validates sha256Hex handler lookup → ∀ call, link.handlers handler = some call →
        ∀ socket, link.daemonWs = some socket → socket = call.socket ∨ socket ∈ link.authentic
  | _ => True

end Link

/-- At any time, what was processed is what the daemon said, and no socket passes for
authenticated that is not. -/
structure OnlyTheDaemonSpeaks (sha256Hex : String → String) (events : List LinkEvent) : Prop where
  spoken : ∀ before, before <+: events → (Link.run sha256Hex before).Spoken
  guarded : ∀ before, before <+: events → (Link.run sha256Hex before).Guarded

namespace Link

variable {sha256Hex : String → String} {link : Link} {event : LinkEvent}

/-! ## The parts of a step -/

theorem spoken_check {socket : ℕ} {message : DaemonMessage} (h : link.Spoken)
    (hguarded : link.Guarded)
    (hcurrent : link.authenticated = true → link.daemonWs = some socket) :
    (link.check socket message).Spoken ∧ (link.check socket message).Guarded := by
  rw [check.eq_def]
  split
  · rename_i hauthenticated
    refine ⟨fun p hp => ?_, hguarded⟩
    rcases List.mem_append.1 hp with hp | hp
    · exact h p hp
    · rw [List.mem_singleton.1 hp]
      exact ⟨decide_eq_true (hcurrent hauthenticated),
        decide_eq_true (hguarded hauthenticated socket (hcurrent hauthenticated))⟩
  · cases message with
    | other n => exact ⟨h, hguarded⟩
    | auth token => exact ⟨h, hguarded⟩

theorem spoken_lookedUp {handler : ℕ} {call : Handler} {promise : ℕ} {lookup : Lookup}
    (hcall : link.handlers handler = some call) (hphase : call.phase = .lookup promise)
    (h : link.Spoken) (hguarded : link.Guarded)
    (hproper : link.Proper sha256Hex (.lookedUp handler lookup)) :
    (link.lookedUp sha256Hex handler call promise lookup).1.Spoken ∧
      (link.lookedUp sha256Hex handler call promise lookup).1.Guarded := by
  rw [lookedUp.eq_def]
  dsimp only
  split
  · rename_i server token hmessage
    split
    · exact ⟨h, hguarded⟩
    · rename_i hvalid
      have hstill : ∀ socket, link.daemonWs = some socket →
          socket ∈ call.socket :: link.authentic := fun socket hsocket =>
        List.mem_cons.2 (hproper ⟨call, promise, server, token, hcall, hphase, hmessage, rfl,
          not_not.1 hvalid⟩ call hcall socket hsocket)
      split
      · exact ⟨h, fun _ => hstill⟩
      · exact ⟨h, fun _ => hstill⟩
  · exact ⟨h, hguarded⟩

/-- **A proper step** processes nothing but what the daemon says. -/
theorem spoken_step (h : link.Spoken) (hguarded : link.Guarded)
    (hproper : link.Proper sha256Hex event) :
    (link.step sha256Hex event).1.Spoken ∧ (link.step sha256Hex event).1.Guarded := by
  cases event with
  | connect => exact ⟨h, fun hopen => by cases hopen⟩
  | message socket message =>
    rw [step]
    split
    · rename_i hopen
      rw [handleMessage]
      split
      · exact ⟨h, hguarded⟩
      · rename_i hpromise
        exact spoken_check h hguarded (hproper hopen hpromise)
    · exact ⟨h, hguarded⟩
  | resumed handler =>
    rw [step]
    split
    · rename_i call hcall
      rw [resume]
      split
      · split
        · dsimp only
          split
          · exact ⟨h, hguarded⟩
          · rename_i hcurrent
            have hended : (link.continueWith handler none).Spoken := h
            exact spoken_check hended hguarded fun _ => not_not.1 hcurrent
        · exact ⟨h, hguarded⟩
      · exact ⟨h, hguarded⟩
    · exact ⟨h, hguarded⟩
  | lookedUp handler lookup =>
    rw [step]
    split
    · rename_i call hcall
      rw [resume]
      split
      · rename_i promise hphase
        exact spoken_lookedUp hcall hphase h hguarded hproper
      · exact ⟨h, hguarded⟩
    · exact ⟨h, hguarded⟩
  | flagsRead handler =>
    rw [step]
    split
    · rw [resume]
      split <;> exact ⟨h, hguarded⟩
    · exact ⟨h, hguarded⟩
  | replayed handler =>
    rw [step]
    split
    · rw [resume]
      split <;> exact ⟨h, hguarded⟩
    · exact ⟨h, hguarded⟩
  | closed socket =>
    rw [step]
    split
    · rw [close]
      dsimp only
      split
      · exact ⟨h, fun hopen => by cases hopen⟩
      · exact ⟨h, hguarded⟩
    · exact ⟨h, hguarded⟩
  | kick =>
    rw [step, kickDaemon]
    split
    · exact ⟨h, fun hopen => by cases hopen⟩
    · exact ⟨h, hguarded⟩

/-- A step after which all is right was a proper one. -/
theorem proper_of_spoken (h : (link.step sha256Hex event).1.Spoken)
    (hguarded : (link.step sha256Hex event).1.Guarded) : link.Proper sha256Hex event := by
  cases event with
  | message socket message =>
    intro hopen hpromise hauthenticated
    have hstep : (link.step sha256Hex (.message socket message)).1 =
        link.process socket message := by
      rw [step, if_pos hopen, handleMessage, hpromise]
      exact if_pos hauthenticated
    rw [hstep] at h
    exact of_decide_eq_true (h _ (List.mem_append_right _ (List.mem_singleton_self _))).1
  | lookedUp handler lookup =>
    rintro ⟨call, promise, server, token, hcall, hphase, hmessage, rfl, hvalid⟩ call' hcall'
      socket hsocket
    rw [hcall] at hcall'
    cases hcall'
    have hstep : (link.step sha256Hex (.lookedUp handler (.found (some server)))).1.authenticated =
        true ∧
        (link.step sha256Hex (.lookedUp handler (.found (some server)))).1.daemonWs =
          link.daemonWs ∧
        (link.step sha256Hex (.lookedUp handler (.found (some server)))).1.authentic =
          call.socket :: link.authentic := by
      rw [step_lookedUp hcall hphase hmessage hvalid]
      dsimp only
      split <;> exact ⟨rfl, rfl, rfl⟩
    have hmem := hguarded hstep.1 socket (hstep.2.1.trans hsocket)
    rw [hstep.2.2] at hmem
    exact List.mem_cons.1 hmem
  | _ => trivial

end Link

/-- **Only the daemon speaks exactly when every step is proper**: nothing arrives over
another socket while the daemon is authenticated, and no token proves valid after its socket
was replaced by one that has presented none. -/
theorem onlyTheDaemonSpeaks_iff (sha256Hex : String → String) (events : List LinkEvent) :
    OnlyTheDaemonSpeaks sha256Hex events ↔
      Along (fun link event => (Link.step sha256Hex link event).1) (Link.Proper sha256Hex) events
        {} := by
  constructor
  · intro h
    refine along_iff.2 fun before event hpre => ?_
    have hspoken := h.spoken _ hpre
    have hguarded := h.guarded _ hpre
    rw [Link.run, run_append] at hspoken hguarded
    exact Link.proper_of_spoken hspoken hguarded
  · intro h
    have hboth (before : List LinkEvent) (hpre : before <+: events) :
        (Link.run sha256Hex before).Spoken ∧ (Link.run sha256Hex before).Guarded := by
      obtain ⟨after, rfl⟩ := hpre
      exact run_invariant (fun link => link.Spoken ∧ link.Guarded)
        (fun _ _ hlink hproper => Link.spoken_step hlink.1 hlink.2 hproper)
        ⟨nofun, nofun⟩ (along_append.1 h).1
    exact ⟨fun before hpre => (hboth before hpre).1, fun before hpre => (hboth before hpre).2⟩

/-! ## A socket that gains by another's token -/

/-- A second socket is there when the lookup for the first one ends, and then says
something. -/
def replacedMeanwhile : List LinkEvent :=
  [.connect, .message 0 (.auth "token"), .connect, .lookedUp 0 (.found (some ⟨"token", none⟩)),
    .message 1 (.other 0)]

/-- **Not only the daemon speaks**: the second socket has not presented anything, and what
it says is processed. -/
theorem not_onlyTheDaemonSpeaks :
    ¬ ∀ (sha256Hex : String → String) (events : List LinkEvent),
      OnlyTheDaemonSpeaks sha256Hex events := by
  intro h
  have hspoken := (h id replacedMeanwhile).spoken _ (List.prefix_refl _)
  exact absurd (hspoken ⟨1, .other 0, true, false⟩ (by decide)).2 (by decide)

end Imcodes.Bridge
