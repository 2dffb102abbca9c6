import Imcodes.Bridge.Guarded

/-!
# Commands of owners

* `Inflight.Owns` — a step does not look at a command of a share.
* `Inflight.Owned` — what such steps keep: nothing is looked at, and a command with a timer is in
  flight.
-/

namespace Imcodes.Bridge

namespace Inflight

variable {s : Inflight} {sha256Hex : String → String}

variable (sha256Hex) in
/-- The step does not look at a command of a share: none comes while the daemon is there, and none
is in flight when there is a replay. -/
def Owns (s : Inflight) : InflightEvent → Prop
  | .send id share _ => share = true → s.link.isDaemonConnected = true →
      (s.inflightCommands.get? id).isSome = true
  | .link event => ∀ act ∈ (s.link.step sha256Hex event).2, act ≠ .disconnected →
      ∀ n ∈ s.inflightCommands.values, (s.entries n).share = false
  | _ => True

instance : ∀ s e, Decidable (Owns sha256Hex s e)
  | _, .send .. => inferInstanceAs (Decidable (_ → _ → _))
  | _, .link _ => inferInstanceAs (Decidable (∀ _ ∈ _, _ → ∀ _ ∈ _, _))
  | _, .revalidated .. => isTrue trivial
  | _, .revalidationThrew _ => isTrue trivial
  | _, .graceExpired => isTrue trivial
  | _, .ackTimeout _ => isTrue trivial
  | _, .ack .. => isTrue trivial
  | _, .echo _ => isTrue trivial
  | _, .sweep _ => isTrue trivial

/-- No command is looked at, and only commands of owners that are in flight have timers. -/
structure Owned (s : Inflight) : Prop where
  looks : s.revalidations = []
  thrown : s.thrown = []
  timed : ∀ n, (s.entries n).timeoutTimer = true →
    (s.entries n).share = false ∧ s.inflightCommands.get? (s.entries n).commandId = some n

theorem Owned.setEntry {n : ℕ} {entry : InflightCommand} (h : s.Owned)
    (hentry : entry.timeoutTimer = true →
      entry.share = false ∧ s.inflightCommands.get? entry.commandId = some n) :
    (s.setEntry n entry).Owned := by
  refine ⟨h.looks, h.thrown, fun m hm => ?_⟩
  by_cases hmn : m = n
  · subst hmn
    simpa [Inflight.setEntry] using hentry (by simpa [Inflight.setEntry] using hm)
  · have hm' : (s.setEntry n entry).entries m = s.entries m := Function.update_of_ne hmn _ _
    rw [hm'] at hm ⊢
    exact h.timed m hm

theorem Owned.removeInflight (h : s.Owned) (id : String) (ending : Ending) :
    (s.removeInflight id ending).Owned := by
  rw [Inflight.removeInflight]
  cases hget : s.inflightCommands.get? id with
  | none => exact h
  | some n =>
    refine ⟨h.looks, h.thrown, fun m hm => ?_⟩
    by_cases hmn : m = n
    · simp [Inflight.setEntry, hmn] at hm
    · have hm' : (s.setEntry n { s.entries n with timeoutTimer := false }).entries m =
          s.entries m := Function.update_of_ne hmn _ _
      dsimp only at hm ⊢
      rw [hm'] at hm ⊢
      obtain ⟨hshare, hlive⟩ := h.timed m hm
      refine ⟨hshare, ?_⟩
      rw [OrderedMap.get?_delete, if_neg, hlive]
      intro heq
      rw [heq, hget] at hlive
      exact hmn (Option.some.inj hlive).symm

theorem Owned.fail (h : s.Owned) (id : String) (reason : FailureReason) :
    (s.fail id reason).Owned :=
  Owned.removeInflight (s := s.emitCommandFailed id reason) ⟨h.looks, h.thrown, h.timed⟩ id _

theorem Owned.dispatchInflightToDaemon {n : ℕ} (h : s.Owned) (mark : Bool)
    (hshare : (s.entries n).share = false)
    (hlive : s.inflightCommands.get? (s.entries n).commandId = some n) :
    (s.dispatchInflightToDaemon n mark).Owned := by
  have hset : (s.setEntry n { s.entries n with
      dispatchAttempts := (s.entries n).dispatchAttempts + 1
      state := .dispatched
      timeoutTimer := true }).Owned := h.setEntry fun _ => ⟨hshare, hlive⟩
  rw [Inflight.dispatchInflightToDaemon, hshare]
  exact ⟨hset.looks, hset.thrown, hset.timed⟩

theorem Owned.replayFrom {handler : ℕ} {due : List ℕ} (h : s.Owned)
    (hdue : ∀ n ∈ due, (s.entries n).share = false ∧
      s.inflightCommands.get? (s.entries n).commandId = some n) :
    (Inflight.replayFrom sha256Hex handler due s).Owned := by
  induction due generalizing s with
  | nil => exact ⟨h.looks, h.thrown, h.timed⟩
  | cons n rest ih =>
    obtain ⟨hshare, hlive⟩ := hdue n List.mem_cons_self
    have hrest := fun m hm => hdue m (List.mem_cons_of_mem n hm)
    rw [Inflight.replayFrom]
    split
    · exact ih h hrest
    · rw [hshare]
      have hnext := h.dispatchInflightToDaemon (decide (0 < (s.entries n).dispatchAttempts))
        hshare hlive
      rw [Inflight.dispatchInflightToDaemon, hshare] at hnext
      refine ih hnext fun m hm => ?_
      by_cases hmn : m = n
      · simp [Inflight.dispatch, Inflight.setEntry, hmn, hshare, hlive]
      · simpa [Inflight.dispatch, Inflight.setEntry, hmn] using hrest m hm

theorem Owned.send {id : String} {share : Bool} {now : ℕ} (h : s.Owned)
    (hkeeps : share = true → s.link.isDaemonConnected = true →
      (s.inflightCommands.get? id).isSome = true) :
    (s.handleOutboundSessionSend id share now).Owned := by
  rw [handleOutboundSessionSend]
  split
  · exact h
  · rename_i hnone
    have hid : s.inflightCommands.get? id = none := by simpa using hnone
    have hregister (state : InflightState) : (s.register id share state now).Owned := by
      refine ⟨h.looks, h.thrown, fun n hn => ?_⟩
      by_cases hne : n = s.registered
      · simp [register, Inflight.setEntry, hne] at hn
      · have hentry : (s.register id share state now).entries n = s.entries n :=
          Function.update_of_ne hne _ _
        rw [hentry] at hn ⊢
        obtain ⟨hshare, hlive⟩ := h.timed n hn
        refine ⟨hshare, ?_⟩
        rw [register, OrderedMap.get?_set, if_neg, hlive]
        intro heq
        rw [heq, hid] at hlive
        cases hlive
    split
    · rename_i hconnected
      have hshare : share = false := by
        cases share with
        | false => rfl
        | true => exact absurd (hkeeps rfl hconnected) hnone
      have hentry : (s.register id share .dispatched now).entries s.registered =
          { commandId := id, share, state := .dispatched, sentAt := now } :=
        Function.update_self ..
      have hsent := (hregister .dispatched).dispatchInflightToDaemon (n := s.registered) false
        (by rw [hentry]; exact hshare) (by rw [hentry, register, OrderedMap.get?_set, if_pos rfl])
      exact ⟨hsent.looks, hsent.thrown, hsent.timed⟩
    · split
      · have hbuffered := hregister .buffered
        exact ⟨hbuffered.looks, hbuffered.thrown, hbuffered.timed⟩
      · exact ⟨h.looks, h.thrown, h.timed⟩

theorem Owned.foldl {α : Type} {f : Inflight → α → Inflight} (hf : ∀ s a, Owned s → Owned (f s a))
    (l : List α) (h : s.Owned) : (l.foldl f s).Owned := by
  induction l generalizing s with
  | nil => exact h
  | cons a l ih => exact ih (hf s a h)

theorem Owned.ackTimeout {n : ℕ} (h : s.Owned) : (s.step sha256Hex (.ackTimeout n)).Owned := by
  rw [step]
  split
  · rename_i htimer
    obtain ⟨hshare, hlive⟩ := h.timed n htimer
    have hset : (s.setEntry n { s.entries n with timeoutTimer := false }).Owned :=
      h.setEntry fun htrue => by cases htrue
    have hentry : (s.setEntry n { s.entries n with timeoutTimer := false }).entries n =
        { s.entries n with timeoutTimer := false } := Function.update_self ..
    have hget : (s.setEntry n { s.entries n with timeoutTimer := false }).inflightCommands.get?
        (s.entries n).commandId = some n := hlive
    rw [onAckTimeout, hget]
    dsimp only
    split
    · exact hset
    · split
      · exact hset.dispatchInflightToDaemon true (by rw [hentry]; exact hshare)
          (by rw [hentry]; exact hget)
      · split
        · exact hset.setEntry fun htrue => by cases htrue
        · exact hset.fail _ _
  · exact h

theorem Owned.ack {id : String} {now : ℕ} (h : s.Owned) : (s.handleCommandAck id now).Owned := by
  have hseen : Owned { s with seenCommandAcks := s.seenCommandAcks.set id now } :=
    ⟨h.looks, h.thrown, h.timed⟩
  rw [handleCommandAck]
  split
  · exact h
  · rw [clearInflightOnAck]
    split
    · exact hseen
    · rename_i n _
      have hacked : (Inflight.setEntry { s with
          seenCommandAcks := s.seenCommandAcks.set id now } n
          { s.entries n with state := .acked }).Owned :=
        hseen.setEntry fun htimer => hseen.timed n htimer
      exact hacked.removeInflight id .acked

theorem Owned.graceExpired (h : s.Owned) : (s.step sha256Hex .graceExpired).Owned := by
  have hgrace : Owned { s with graceTimer := false } := ⟨h.looks, h.thrown, h.timed⟩
  rw [step]
  split
  · rw [onReconnectGraceExpired]
    split
    · exact hgrace
    · exact Owned.foldl (fun s (entry : String × ℕ) hs => hs.fail entry.1 .daemonOffline) _ hgrace
  · exact h

theorem Owned.sweep {now : ℕ} (h : s.Owned) : (s.ackHousekeepingSweep now).Owned := by
  have hfold := Owned.foldl (f := (·.sweepInflight now ·)) (fun s entry hs => by
    rw [sweepInflight]
    split
    · exact hs.removeInflight entry.1 .swept
    · exact hs) s.inflightCommands.toList h
  exact ⟨hfold.looks, hfold.thrown, hfold.timed⟩

theorem Owned.link {event : LinkEvent} (h : s.Owned)
    (hlive : ∀ id n, s.inflightCommands.get? id = some n → (s.entries n).commandId = id)
    (hkeeps : ∀ act ∈ (s.link.step sha256Hex event).2, act ≠ .disconnected →
      ∀ n ∈ s.inflightCommands.values, (s.entries n).share = false) :
    (s.stepLink sha256Hex event).Owned := by
  by_cases hreplayed : ∃ n, event = .replayed n
  · obtain ⟨n, rfl⟩ := hreplayed
    exact h
  · obtain ⟨kicked, -, -, heq⟩ := stepLink_eq sha256Hex s (not_exists.1 hreplayed)
    rw [heq]
    rcases Link.step_acts sha256Hex s.link event with
      hacts | ⟨hacts, -⟩ | ⟨socket, handler, hacts⟩
    · rw [hacts]
      exact ⟨h.looks, h.thrown, h.timed⟩
    · rw [hacts]
      exact ⟨h.looks, h.thrown, h.timed⟩
    · rw [hacts]
      have hnext : Owned { s with
          link := (s.link.step sha256Hex event).1, kicked, graceTimer := false } :=
        ⟨h.looks, h.thrown, h.timed⟩
      refine hnext.replayFrom fun n hn => ?_
      have hmem := (List.perm_insertionSort _ _).subset hn
      obtain ⟨id, hid⟩ := OrderedMap.mem_values.1 hmem
      refine ⟨hkeeps _ (hacts ▸ List.mem_singleton_self _) (by simp) n hmem, ?_⟩
      exact (hlive id n hid).symm ▸ hid

theorem Owned.step {e : InflightEvent} (h : s.Owned)
    (hlive : ∀ id n, s.inflightCommands.get? id = some n → (s.entries n).commandId = id)
    (howns : s.Owns sha256Hex e) : (s.step sha256Hex e).Owned := by
  cases e with
  | link event => exact h.link hlive howns
  | send id share now => exact h.send howns
  | revalidated index refusal =>
    rw [Inflight.step, revalidated, h.looks, List.getElem?_nil]
    exact h
  | revalidationThrew index =>
    rw [Inflight.step, revalidationThrew, h.looks, List.getElem?_nil]
    exact h
  | graceExpired => exact h.graceExpired
  | ackTimeout n => exact h.ackTimeout
  | ack id now => exact h.ack
  | echo id => exact h.removeInflight id .echoed
  | sweep now =>
    rw [Inflight.step]
    split
    · exact h.sweep
    · exact h

theorem owned_start : Owned {} := ⟨rfl, rfl, fun n hn => by cases hn⟩

end Inflight

end Imcodes.Bridge
