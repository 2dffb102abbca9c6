import Imcodes.Bridge.Link

/-!
# A daemon that is expected

* `Link.Awaits` — a handler has authenticated its daemon, and its replay is to come.
* `Link.step_unanswered` — a daemon that is expected stays expected through every step of the
  connection about which the bridge does nothing, unless it is kicked.
-/

namespace Imcodes.Bridge

open Machine
open Imcodes.Queue (jsTrim)

/-! ## A handler whose replay is to come -/

namespace Link

variable {link link' : Link} {sha256Hex : String → String} {n : ℕ}

/-- A handler that has authenticated its daemon and not replayed yet. -/
def Awaits (link : Link) (n : ℕ) : Prop :=
  ∃ call promise, link.handlers n = some call ∧ call.phase = .flags promise

/-- A daemon authenticates, or a replay is to come. -/
def IsExpected (link : Link) : Prop :=
  link.daemonHandshakeInProgress = true ∨ ∃ n, link.Awaits n

/-- A handler that has not started is not there. -/
def IsFresh (link : Link) : Prop := ∀ n, link.started ≤ n → link.handlers n = none

theorem IsFresh.lt {call : Handler} (h : link.IsFresh) (hcall : link.handlers n = some call) :
    n < link.started := by
  by_contra hle
  rw [h n (Nat.le_of_not_lt hle)] at hcall
  cases hcall

/-- What a part of a step keeps of the handlers, one of which may go on. -/
structure Passes (n : Option ℕ) (link link' : Link) : Prop where
  fresh : link.IsFresh → link'.IsFresh
  same : ∀ m, some m ≠ n → m < link.started → link'.handlers m = link.handlers m
  le : link.started ≤ link'.started

theorem passes_of_eq {m : Option ℕ} (hhandlers : link'.handlers = link.handlers)
    (hstarted : link'.started = link.started) : Passes m link link' :=
  ⟨fun h n hn => by rw [hhandlers, h n (hstarted ▸ hn)], fun n _ _ => by rw [hhandlers],
    hstarted.ge⟩

theorem Passes.trans {m : Option ℕ} {link'' : Link} (h : Passes m link link')
    (h' : Passes m link' link'') : Passes m link link'' :=
  ⟨fun hf => h'.fresh (h.fresh hf),
    fun n hn hlt => (h'.same n hn (hlt.trans_le h.le)).trans (h.same n hn hlt), h.le.trans h'.le⟩

theorem passes_suspend {m : Option ℕ} (socket : ℕ) (message : DaemonMessage) (phase : Phase) :
    Passes m link (link.suspend socket message phase) := by
  refine ⟨fun h n hn => ?_, fun n _ hlt => ?_, Nat.le_succ _⟩
  · exact (Function.update_of_ne (Nat.ne_of_gt hn) _ _).trans (h n ((Nat.le_succ _).trans hn))
  · exact Function.update_of_ne hlt.ne _ _

theorem passes_continueWith {call : Handler} (hcall : link.handlers n = some call)
    (next : Option Handler) : Passes (some n) link (link.continueWith n next) := by
  refine ⟨fun h m hm => ?_, fun m hm _ => ?_, le_rfl⟩
  · rw [continueWith_handlers, if_neg]
    · exact h m hm
    · rintro rfl
      exact Nat.not_lt.2 hm (h.lt hcall)
  · rw [continueWith_handlers, if_neg fun hmn => hm (congrArg some hmn)]

theorem passes_check {m : Option ℕ} (socket : ℕ) (message : DaemonMessage) :
    Passes m link (link.check socket message) := by
  rw [check.eq_def]
  split
  · exact passes_of_eq rfl rfl
  · cases message with
    | other _ => exact passes_of_eq rfl rfl
    | auth _ =>
      have hpromised : Passes m link
          { link with authPromise := some link.promises, promises := link.promises + 1 } :=
        passes_of_eq rfl rfl
      exact hpromised.trans (passes_suspend ..)

/-- Which handler goes on. -/
def target : LinkEvent → Option ℕ
  | .resumed n | .lookedUp n _ | .flagsRead n | .replayed n => some n
  | _ => none

theorem passes_lookedUp {call : Handler} (hcall : link.handlers n = some call) (promise : ℕ)
    (lookup : Lookup) :
    Passes (some n) link (link.lookedUp sha256Hex n call promise lookup).1 := by
  have hrefused : Passes (some n) link ((link.continueWith n none).resolveAuth promise) :=
    (passes_continueWith hcall none).trans (passes_of_eq rfl rfl)
  have hmarked (authentic : List ℕ) (next : Option Handler) : Passes (some n) link
      ({ link with authenticated := true, authentic }.continueWith n next) := by
    have hfirst : Passes (some n) link { link with authenticated := true, authentic } :=
      passes_of_eq rfl rfl
    exact hfirst.trans (passes_continueWith
      (show Link.handlers { link with authenticated := true, authentic } n = _ from hcall) next)
  rw [Link.lookedUp.eq_def]
  dsimp only
  split
  · split
    · exact hrefused
    · split
      · exact hmarked _ _
      · exact hmarked _ _
  · exact hrefused

theorem passes_step (sha256Hex : String → String) (link : Link) (event : LinkEvent) :
    Passes (target event) link (link.step sha256Hex event).1 := by
  have hquiet {m : Option ℕ} : Passes m link link := passes_of_eq rfl rfl
  cases event with
  | connect => exact passes_of_eq rfl rfl
  | message socket message =>
    rw [step]
    split
    · rw [handleMessage]
      split
      · exact passes_suspend ..
      · exact passes_check ..
    · exact hquiet
  | closed socket =>
    rw [step]
    split
    · rw [close]
      dsimp only
      split
      · exact passes_of_eq rfl rfl
      · exact passes_of_eq rfl rfl
    · exact hquiet
  | kick =>
    rw [step, kickDaemon]
    split
    · exact passes_of_eq rfl rfl
    · exact hquiet
  | resumed n =>
    rw [step]
    split
    · rename_i call hcall
      rw [resume]
      split
      · split
        · dsimp only
          split
          · exact passes_continueWith hcall none
          · exact (passes_continueWith hcall none).trans (passes_check ..)
        · exact hquiet
      · exact hquiet
    · exact hquiet
  | lookedUp n lookup =>
    rw [step]
    split
    · rename_i call hcall
      rw [resume]
      split
      · exact passes_lookedUp hcall _ _
      · exact hquiet
    · exact hquiet
  | flagsRead n =>
    rw [step]
    split
    · rename_i call hcall
      rw [resume]
      split
      · exact passes_continueWith hcall _
      · exact hquiet
    · exact hquiet
  | replayed n =>
    rw [step]
    split
    · rename_i call hcall
      rw [resume]
      split
      · exact (passes_continueWith hcall none).trans (passes_of_eq rfl rfl)
      · exact hquiet
    · exact hquiet

/-- A handler whose replay is to come goes on to its replay only. -/
theorem awaits_step {event : LinkEvent} (hfresh : link.IsFresh) (h : link.Awaits n)
    (hne : event ≠ .flagsRead n) : (link.step sha256Hex event).1.Awaits n := by
  obtain ⟨call, promise, hcall, hphase⟩ := h
  by_cases htarget : target event = some n
  · have hquiet : link.step sha256Hex event = (link, []) := by
      cases event with
      | flagsRead m => exact absurd (congrArg LinkEvent.flagsRead (Option.some.inj htarget)) hne
      | resumed m | lookedUp m _ | replayed m =>
        obtain rfl := Option.some.inj htarget
        simp only [step, hcall, resume, hphase]
      | _ => cases htarget
    rw [hquiet]
    exact ⟨call, promise, hcall, hphase⟩
  · refine ⟨call, promise, ?_, hphase⟩
    rw [(passes_step sha256Hex link event).same n (Ne.symm htarget) (hfresh.lt hcall), hcall]

/-- What a step leaves that nothing is done about. -/
theorem step_unanswered {event : LinkEvent} (hfresh : link.IsFresh)
    (hacts : (link.step sha256Hex event).2 = []) :
    let link' := (link.step sha256Hex event).1
    ((∃ n, link.Awaits n) → ∃ n, link'.Awaits n) ∧
      (link'.authenticated = true → link.authenticated = true ∨ ∃ n, link'.Awaits n) ∧
      (link.daemonHandshakeInProgress = true →
        link'.IsExpected ∨ event = .kick ∧ link.daemonWs.isSome ∧ link'.daemonWs = none) ∧
      (link.daemonWs = none → link'.daemonWs = none ∨ link'.IsExpected) := by
  have hawaits : (∃ n, link.Awaits n) → ∃ n, (link.step sha256Hex event).1.Awaits n := by
    rintro ⟨n, h⟩
    by_cases hne : event = .flagsRead n
    · obtain ⟨call, promise, hcall, hphase⟩ := h
      rw [hne] at hacts
      simp [step, hcall, resume, hphase, replay] at hacts
    · exact ⟨n, awaits_step hfresh h hne⟩
  refine ⟨hawaits, ?_⟩
  have hchange := change_step sha256Hex link event
  rw [hacts] at hchange
  generalize hlink' : (link.step sha256Hex event).1 = link' at hchange hawaits
  cases hchange with
  | quiet same =>
    refine ⟨fun h => .inl (same.authenticated ▸ h), fun h => .inl (.inl ?_),
      fun h => .inl (same.daemonWs.trans h)⟩
    rwa [daemonHandshakeInProgress, same.daemonWs, same.authenticated]
  | connected daemonWs authenticated sockets =>
    have hexpected : link'.IsExpected := .inl (by
      rw [daemonHandshakeInProgress, daemonWs, authenticated]
      rfl)
    exact ⟨fun h => (by simp [authenticated] at h), fun _ => .inl hexpected, fun _ => .inr hexpected⟩
  | kicked daemonWs authenticated sockets =>
    refine ⟨fun h => (by simp [authenticated] at h), fun h => .inr ⟨rfl, ?_, daemonWs⟩,
      fun _ => .inl daemonWs⟩
    rw [daemonHandshakeInProgress, Bool.and_eq_true] at h
    exact h.1
  | authenticates found phase message valid daemonWs authenticated sockets acts_eq =>
    rename_i n call promise token server
    have huser : server.userId.any (jsTrim · ≠ "") = true := by
      by_contra hnone
      rw [if_neg hnone] at acts_eq
      cases acts_eq
    have hstep : link.step sha256Hex (.lookedUp n (.found (some server))) = _ :=
      step_lookedUp found phase message valid
    have hnew : link'.Awaits n := by
      rw [← hlink', hstep]
      dsimp only
      rw [if_pos huser]
      exact ⟨_, promise, by rw [continueWith_handlers, if_pos rfl], rfl⟩
    exact ⟨fun _ => .inr ⟨n, hnew⟩, fun _ => .inl (.inr ⟨n, hnew⟩), fun h => .inl (daemonWs.trans h)⟩

/-- What is done about a step. -/
theorem step_acts (sha256Hex : String → String) (link : Link) (event : LinkEvent) :
    (link.step sha256Hex event).2 = [] ∨
      (link.step sha256Hex event).2 = [.disconnected] ∧
        (link.step sha256Hex event).1.authenticated = false ∨
      ∃ socket handler, (link.step sha256Hex event).2 = [.replays socket handler] := by
  have hchange := change_step sha256Hex link event
  generalize (link.step sha256Hex event).1 = link' at hchange
  generalize (link.step sha256Hex event).2 = acts at hchange
  cases hchange with
  | quiet | connected | kicked => exact .inl rfl
  | disconnected current daemonWs authenticated sockets => exact .inr (.inl ⟨rfl, authenticated⟩)
  | replays => exact .inr (.inr ⟨_, _, rfl⟩)
  | authenticates found phase message valid daemonWs authenticated sockets acts_eq =>
    rw [acts_eq]
    split
    · exact .inl rfl
    · exact .inr (.inr ⟨_, _, rfl⟩)

end Link

end Imcodes.Bridge
