import Imcodes.Bridge.Guarded

/-!
# What a step adds

* `Inflight.Goes` — registrations stay as they are, copies are sent after those that were sent, and
  a command ends as answered when an answer with its id comes.
* `goes_step` — every step of a sound state does no more.
-/

namespace Imcodes.Bridge

namespace Inflight

variable {s s' s'' : Inflight} {answered : String → Prop} {sha256Hex : String → String}

/-- `acked` and `echoed` -/
def Ending.IsAnswer (ending : Ending) : Prop := ending = .acked ∨ ending = .echoed

/-- From one state to another, with the ids that were answered between them. -/
structure Goes (answered : String → Prop) (s s' : Inflight) : Prop where
  registered : s.registered ≤ s'.registered
  ids : ∀ n < s.registered, (s'.entries n).commandId = (s.entries n).commandId
  sent : s.sent <+: s'.sent
  ended : ∀ n ending, (n, ending) ∈ s'.ended → Ending.IsAnswer ending →
    (n, ending) ∈ s.ended ∨ n < s'.registered ∧ answered (s'.entries n).commandId

theorem Goes.refl (s : Inflight) : Goes answered s s :=
  ⟨le_rfl, fun _ _ => rfl, List.prefix_refl _, fun _ _ h _ => .inl h⟩

theorem Goes.trans (h : Goes answered s s') (h' : Goes answered s' s'') : Goes answered s s'' where
  registered := h.registered.trans h'.registered
  ids := fun n hn => (h'.ids n (hn.trans_le h.registered)).trans (h.ids n hn)
  sent := h.sent.trans h'.sent
  ended := fun n ending hmem hanswer => by
    rcases h'.ended n ending hmem hanswer with hmem | hnew
    · rcases h.ended n ending hmem hanswer with hold | ⟨hlt, hid⟩
      · exact .inl hold
      · exact .inr ⟨hlt.trans_le h'.registered, (h'.ids n hlt).symm ▸ hid⟩
    · exact .inr hnew

/-- A change in which registrations, copies and ends have no part. -/
theorem goes_of_eq (hregistered : s'.registered = s.registered)
    (hids : ∀ n, (s'.entries n).commandId = (s.entries n).commandId) (hsent : s'.sent = s.sent)
    (hended : s'.ended = s.ended) : Goes answered s s' :=
  ⟨hregistered.ge, fun n _ => hids n, hsent ▸ List.prefix_refl _, fun _ _ h _ => .inl (hended ▸ h)⟩

theorem goes_setEntry {n : ℕ} {entry : InflightCommand}
    (hid : entry.commandId = (s.entries n).commandId) : Goes answered s (s.setEntry n entry) := by
  refine goes_of_eq rfl (fun m => ?_) rfl rfl
  by_cases hm : m = n <;> simp [setEntry, hm, hid]

/-- A command ends as answered if its id was answered. -/
theorem goes_removeInflight {id : String} {ending : Ending}
    (hanswered : Ending.IsAnswer ending → ∀ n, s.inflightCommands.get? id = some n →
      n < s.registered ∧ answered (s.entries n).commandId) :
    Goes answered s (s.removeInflight id ending) := by
  rw [removeInflight]
  cases hget : s.inflightCommands.get? id with
  | none => exact .refl s
  | some n =>
    have hset : Goes answered s (s.setEntry n { s.entries n with timeoutTimer := false }) :=
      goes_setEntry rfl
    refine ⟨hset.registered, hset.ids, hset.sent, fun m ending' hmem hanswer => ?_⟩
    rcases List.mem_append.1 hmem with hmem | hmem
    · exact .inl hmem
    · obtain ⟨rfl, rfl⟩ := Prod.mk.inj (List.mem_singleton.1 hmem)
      obtain ⟨hlt, hid⟩ := hanswered hanswer m hget
      exact .inr ⟨hlt, (hset.ids m hlt).symm ▸ hid⟩

theorem goes_fail (s : Inflight) (id : String) (reason : FailureReason) :
    Goes answered s (s.fail id reason) := by
  have hemit : Goes answered s (s.emitCommandFailed id reason) :=
    goes_of_eq rfl (fun _ => rfl) rfl rfl
  exact hemit.trans (goes_removeInflight fun h => by rcases h with h | h <;> cases h)

theorem goes_foldl {α : Type} {f : Inflight → α → Inflight} (hf : ∀ s a, Goes answered s (f s a))
    (l : List α) (s : Inflight) : Goes answered s (l.foldl f s) := by
  induction l generalizing s with
  | nil => exact .refl s
  | cons a l ih => exact (hf s a).trans (ih _)

theorem goes_dispatch (s : Inflight) (n : ℕ) (mark : Bool) :
    Goes answered s (s.dispatch n mark) := by
  have hset : Goes answered s (s.setEntry n { s.entries n with
      dispatchAttempts := (s.entries n).dispatchAttempts + 1
      state := .dispatched
      timeoutTimer := true }) := goes_setEntry rfl
  exact ⟨hset.registered, hset.ids, List.prefix_append .., fun _ _ h _ => .inl h⟩

theorem goes_dispatchInflightToDaemon (s : Inflight) (n : ℕ) (mark : Bool) :
    Goes answered s (s.dispatchInflightToDaemon n mark) := by
  rw [Inflight.dispatchInflightToDaemon]
  split
  · exact goes_of_eq rfl (fun _ => rfl) rfl rfl
  · exact goes_dispatch s n mark

theorem goes_replayFrom {handler : ℕ} (due : List ℕ) (s : Inflight) :
    Goes answered s (replayFrom sha256Hex handler due s) := by
  induction due generalizing s with
  | nil => exact goes_of_eq rfl (fun _ => rfl) rfl rfl
  | cons n rest ih =>
    rw [replayFrom]
    split
    · exact ih s
    · split
      · exact goes_of_eq rfl (fun _ => rfl) rfl rfl
      · exact (goes_dispatch ..).trans (ih _)

theorem goes_register (s : Inflight) (id : String) (share : Bool) (state : InflightState)
    (now : ℕ) : Goes answered s (s.register id share state now) :=
  ⟨Nat.le_succ _, fun n hn => by simp [register, setEntry, hn.ne], List.prefix_refl _,
    fun _ _ h _ => .inl h⟩

theorem goes_send (s : Inflight) (id : String) (share : Bool) (now : ℕ) :
    Goes answered s (s.handleOutboundSessionSend id share now) := by
  have hkeeping (s : Inflight) : Goes answered s s.startAckHousekeepingIfNeeded :=
    goes_of_eq rfl (fun _ => rfl) rfl rfl
  rw [handleOutboundSessionSend]
  split
  · exact .refl s
  · split
    · exact (goes_register ..).trans ((goes_dispatchInflightToDaemon ..).trans (hkeeping _))
    · split
      · exact (goes_register ..).trans (hkeeping _)
      · exact goes_of_eq rfl (fun _ => rfl) rfl rfl

theorem goes_revalidated (s : Inflight) (index : ℕ) (refusal : Option FailureReason) :
    Goes answered s (s.revalidated sha256Hex index refusal) := by
  rw [Inflight.revalidated]
  split
  · exact .refl s
  · rename_i r hr
    have htaken : Goes answered s { s with revalidations := s.revalidations.eraseIdx index } :=
      goes_of_eq rfl (fun _ => rfl) rfl rfl
    have hreplay (s' : Inflight) (h : Goes answered s s') :
        Goes answered s (r.replay.elim s' fun replay =>
          s'.replayFrom sha256Hex replay.handler replay.rest) := by
      cases r.replay with
      | none => exact h
      | some replay => exact h.trans (goes_replayFrom ..)
    cases refusal with
    | none =>
      have := hreplay _ (htaken.trans (goes_dispatch _ r.entry r.markBridgeRetry))
      cases hwaits : r.replay <;> simpa [hwaits] using this
    | some reason =>
      have := hreplay _ (htaken.trans (goes_fail _ (s.entries r.entry).commandId reason))
      cases hwaits : r.replay <;> simpa [hwaits] using this

theorem goes_revalidationThrew (s : Inflight) (index : ℕ) :
    Goes answered s (s.revalidationThrew sha256Hex index) := by
  rw [Inflight.revalidationThrew]
  split
  · exact .refl s
  · rename_i r hr
    have htaken : Goes answered s { s with
        revalidations := s.revalidations.eraseIdx index
        thrown := s.thrown ++ [(r.entry, (s.entries r.entry).dispatchAttempts)] } :=
      goes_of_eq rfl (fun _ => rfl) rfl rfl
    dsimp only
    split
    · exact htaken
    · exact htaken.trans (goes_replayFrom ..)

theorem goes_onAckTimeout (s : Inflight) (id : String) : Goes answered s (s.onAckTimeout id) := by
  rw [onAckTimeout]
  split
  · exact .refl s
  · dsimp only
    split
    · exact .refl s
    · split
      · exact goes_dispatchInflightToDaemon ..
      · split
        · exact goes_setEntry rfl
        · exact goes_fail ..

theorem goes_link (s : Inflight) (event : LinkEvent) :
    Goes answered s (s.stepLink sha256Hex event) := by
  by_cases hreplayed : ∃ n, event = .replayed n
  · obtain ⟨n, rfl⟩ := hreplayed
    exact .refl s
  · obtain ⟨kicked, -, -, heq⟩ := stepLink_eq sha256Hex s (not_exists.1 hreplayed)
    have hlink : Goes answered s { s with link := (s.link.step sha256Hex event).1, kicked } :=
      goes_of_eq rfl (fun _ => rfl) rfl rfl
    have htake (s : Inflight) (act : LinkAct) : Goes answered s (s.take sha256Hex act) := by
      cases act with
      | disconnected => exact goes_of_eq rfl (fun _ => rfl) rfl rfl
      | replays socket handler =>
        have hgrace : Goes answered s { s with graceTimer := false } :=
          goes_of_eq rfl (fun _ => rfl) rfl rfl
        exact hgrace.trans (goes_replayFrom ..)
    rw [heq]
    exact hlink.trans (goes_foldl htake ..)

/-- What an event answers. -/
def Answers (id : String) : InflightEvent → Prop
  | .ack commandId _ => commandId = id
  | .echo commandId => commandId = id
  | _ => False

theorem goes_ack {id : String} {now : ℕ} (hs : s.Sound []) :
    Goes (id = ·) s (s.handleCommandAck id now) := by
  rw [handleCommandAck]
  split
  · exact .refl s
  · have hseen : Goes (id = ·) s { s with seenCommandAcks := s.seenCommandAcks.set id now } :=
      goes_of_eq rfl (fun _ => rfl) rfl rfl
    rw [clearInflightOnAck]
    split
    · exact hseen
    · rename_i n hget
      have hacked : Goes (id = ·) { s with seenCommandAcks := s.seenCommandAcks.set id now }
          (setEntry { s with seenCommandAcks := s.seenCommandAcks.set id now } n
            { s.entries n with state := .acked }) := goes_setEntry rfl
      refine hseen.trans (hacked.trans (goes_removeInflight fun _ m hm => ?_))
      obtain ⟨hlt, hid, -⟩ := hs.live id m hm
      exact ⟨hlt, ((hacked.ids m hlt).trans hid).symm⟩

/-- **A step adds no more than it may.** -/
theorem goes_step (e : InflightEvent) (hs : s.Sound []) :
    Goes (Answers · e) s (s.step sha256Hex e) := by
  cases e with
  | link event => exact goes_link s event
  | send id share now => exact goes_send ..
  | revalidated index refusal => exact goes_revalidated ..
  | revalidationThrew index => exact goes_revalidationThrew ..
  | graceExpired =>
    rw [step]
    split
    · have hgrace : Goes (Answers · .graceExpired) s { s with graceTimer := false } :=
        goes_of_eq rfl (fun _ => rfl) rfl rfl
      rw [onReconnectGraceExpired]
      split
      · exact hgrace
      · exact hgrace.trans (goes_foldl (fun s (entry : String × ℕ) => goes_fail s entry.1 _) _ _)
    · exact .refl s
  | ackTimeout n =>
    rw [step]
    split
    · have hset : Goes (Answers · (.ackTimeout n)) s
          (s.setEntry n { s.entries n with timeoutTimer := false }) := goes_setEntry rfl
      exact hset.trans (goes_onAckTimeout ..)
    · exact .refl s
  | ack id now => exact goes_ack hs
  | echo id =>
    refine goes_removeInflight fun _ n hget => ?_
    obtain ⟨hlt, hid, -⟩ := hs.live id n hget
    exact ⟨hlt, hid.symm⟩
  | sweep now =>
    rw [step]
    split
    · have hsweep (s : Inflight) (entry : String × ℕ) :
          Goes (Answers · (.sweep now)) s (s.sweepInflight now entry) := by
        rw [sweepInflight]
        split
        · exact goes_removeInflight fun h => by rcases h with h | h <;> cases h
        · exact .refl s
      have hfold := goes_foldl hsweep s.inflightCommands.toList s
      exact hfold.trans (goes_of_eq rfl (fun _ => rfl) rfl rfl)
    · exact .refl s

end Inflight

end Imcodes.Bridge
