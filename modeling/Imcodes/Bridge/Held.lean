import Imcodes.Bridge.Answered
import Imcodes.Bridge.Owned

/-!
# Commands that are answered

* `Records` — the parts of a step add to what is recorded, and do not look at it.
* `answersAll_of_along` — **every accepted command is answered**, in every run in which none is
  dropped: a command leaves with its acknowledgement or its echo, or with a failure that its browser
  is told; and in flight it has its timer, or waits for a daemon.
* `not_answersAll` — a kick leaves a command that waits for a handshake without a timer.
-/

namespace Imcodes.Bridge

open Machine

namespace Inflight

variable {s : Inflight} {sha256Hex : String → String}

/-! ## What is only recorded -/

/-- The state with other records. -/
def withRecords (s : Inflight) (kicked : Bool) (failures : List (String × FailureReason))
    (ended : List (ℕ × Ending)) : Inflight :=
  { s with kicked, failures, ended }

/-- A part of a step that sweeps nothing away adds to what is recorded, and does not look at it. -/
def Records (f : Inflight → Inflight) : Prop :=
  ∀ s, ∃ failures ended, (∀ p ∈ ended, p.2 ≠ .swept) ∧ ∀ kicked failures₀ ended₀,
    f (s.withRecords kicked failures₀ ended₀) =
      (f s).withRecords kicked (failures₀ ++ failures) (ended₀ ++ ended)

theorem records_id : Records id := fun _ =>
  ⟨[], [], by simp, fun _ _ _ => by simp only [id_eq, List.append_nil]⟩

theorem Records.comp {f g : Inflight → Inflight} (hg : Records g) (hf : Records f) :
    Records (g ∘ f) := by
  intro s
  obtain ⟨failures, ended, hended, hf⟩ := hf s
  obtain ⟨failures', ended', hended', hg⟩ := hg (f s)
  refine ⟨failures ++ failures', ended ++ ended', fun p hmem => ?_,
    fun kicked failures₀ ended₀ => ?_⟩
  · exact (List.mem_append.1 hmem).elim (hended p) (hended' p)
  · rw [Function.comp_apply, Function.comp_apply, hf, hg, List.append_assoc, List.append_assoc]

theorem Records.congr {f g : Inflight → Inflight} (hf : Records f) (h : ∀ s, g s = f s) :
    Records g :=
  funext h ▸ hf

/-- A part of a step that records nothing. -/
theorem records_of_eq {f : Inflight → Inflight}
    (hf : ∀ (s : Inflight) kicked failures ended,
      f (s.withRecords kicked failures ended) = (f s).withRecords kicked failures ended) :
    Records f := fun s =>
  ⟨[], [], by simp, fun kicked failures ended => by rw [hf, List.append_nil, List.append_nil]⟩

theorem records_setEntry (n : ℕ) (entry : Inflight → InflightCommand)
    (hentry : ∀ (s : Inflight) kicked failures ended,
      entry (s.withRecords kicked failures ended) = entry s) :
    Records fun s => s.setEntry n (entry s) :=
  records_of_eq fun s kicked failures ended => by
    rw [hentry]
    rfl

theorem records_removeInflight (id : String) {ending : Ending} (hending : ending ≠ .swept) :
    Records (·.removeInflight id ending) := by
  intro s
  cases hget : s.inflightCommands.get? id with
  | none =>
    refine ⟨[], [], by simp, fun kicked failures ended => ?_⟩
    have hget' : (s.withRecords kicked failures ended).inflightCommands.get? id = none := hget
    dsimp only
    rw [removeInflight, removeInflight, hget, hget', List.append_nil, List.append_nil]
  | some n =>
    refine ⟨[], [(n, ending)], by simpa using hending, fun kicked failures ended => ?_⟩
    have hget' : (s.withRecords kicked failures ended).inflightCommands.get? id = some n := hget
    dsimp only
    rw [removeInflight, removeInflight, hget, hget', List.append_nil]
    rfl

theorem records_fail (id : String) (reason : FailureReason) : Records (·.fail id reason) := by
  have hemit : Records (·.emitCommandFailed id reason) := fun s =>
    ⟨[(id, reason)], [], by simp, fun kicked failures ended => by rw [List.append_nil]; rfl⟩
  exact (records_removeInflight id (by simp)).comp hemit

/-- A choice that does not depend on what is recorded. -/
theorem Records.ite {f g : Inflight → Inflight} {p : Inflight → Prop} [DecidablePred p]
    (hp : ∀ (s : Inflight) kicked failures ended, p (s.withRecords kicked failures ended) ↔ p s)
    (hf : Records f) (hg : Records g) : Records fun s => if p s then f s else g s := by
  intro s
  by_cases hs : p s
  · obtain ⟨failures, ended, hended, hf⟩ := hf s
    refine ⟨failures, ended, hended, fun kicked failures₀ ended₀ => ?_⟩
    dsimp only
    rw [if_pos hs, if_pos ((hp ..).2 hs), hf]
  · obtain ⟨failures, ended, hended, hg⟩ := hg s
    refine ⟨failures, ended, hended, fun kicked failures₀ ended₀ => ?_⟩
    dsimp only
    rw [if_neg hs, if_neg fun h => hs ((hp ..).1 h), hg]

/-- What depends on a part of the state, of which the records are no part. -/
theorem Records.depends {α : Type} {f : α → Inflight → Inflight} (part : Inflight → α)
    (hpart : ∀ (s : Inflight) kicked failures ended,
      part (s.withRecords kicked failures ended) = part s)
    (hf : ∀ a, Records (f a)) : Records fun s => f (part s) s := by
  intro s
  obtain ⟨failures, ended, hended, hf⟩ := hf (part s) s
  refine ⟨failures, ended, hended, fun kicked failures₀ ended₀ => ?_⟩
  dsimp only
  rw [hpart, hf]

/-- What is done with a command that is in flight. -/
theorem Records.found {f : ℕ → Inflight → Inflight} (id : String) (hf : ∀ n, Records (f n)) :
    Records fun s => (s.inflightCommands.get? id).elim s (f · s) :=
  .depends (f := fun (found : Option ℕ) s => found.elim s (f · s))
    (fun s => s.inflightCommands.get? id) (fun _ _ _ _ => rfl) fun found => by
      cases found with
      | none => exact records_id
      | some n => exact hf n

theorem Records.foldl {α : Type} {f : Inflight → α → Inflight} (hf : ∀ a, Records (f · a))
    (l : List α) : Records fun s => l.foldl f s := by
  induction l with
  | nil => exact records_id
  | cons a l ih => exact ih.comp (hf a)

theorem records_dispatch (n : ℕ) (mark : Bool) : Records (·.dispatch n mark) :=
  records_of_eq fun _ _ _ _ => rfl

theorem records_dispatchInflightToDaemon (n : ℕ) (mark : Bool) :
    Records (·.dispatchInflightToDaemon n mark) :=
  .ite (fun _ _ _ _ => .rfl) (records_of_eq fun _ _ _ _ => rfl) (records_dispatch n mark)

theorem records_replayFrom (handler : ℕ) (due : List ℕ) :
    Records (replayFrom sha256Hex handler due) := by
  induction due with
  | nil => exact records_of_eq fun _ _ _ _ => rfl
  | cons n rest ih =>
    exact .ite (fun _ _ _ _ => .rfl) ih (.ite (fun _ _ _ _ => .rfl)
      (records_of_eq fun _ _ _ _ => rfl)
      (.depends (f := fun mark s => replayFrom sha256Hex handler rest (s.dispatch n mark))
        (fun s => decide (0 < (s.entries n).dispatchAttempts)) (fun _ _ _ _ => rfl)
        fun mark => ih.comp (records_dispatch n mark)))

theorem records_take (act : LinkAct) : Records (take sha256Hex · act) := by
  cases act with
  | disconnected => exact records_of_eq fun _ _ _ _ => rfl
  | replays socket handler =>
    have hgrace : Records fun s => { s with graceTimer := false } :=
      records_of_eq fun _ _ _ _ => rfl
    have hreplay : Records (replayInflightToDaemon sha256Hex · handler) :=
      .depends (fun s : Inflight => s.inflightCommands.values.insertionSort fun n m =>
        (s.entries n).sentAt ≤ (s.entries m).sentAt) (fun _ _ _ _ => rfl)
        (records_replayFrom handler)
    exact hreplay.comp hgrace

theorem records_send (id : String) (share : Bool) (now : ℕ) :
    Records (·.handleOutboundSessionSend id share now) := by
  have hregister (state : InflightState) : Records (·.register id share state now) :=
    records_of_eq fun _ _ _ _ => rfl
  have hkeeping : Records startAckHousekeepingIfNeeded := records_of_eq fun _ _ _ _ => rfl
  have hsent : Records fun s => ((s.register id share .dispatched now).dispatchInflightToDaemon
      s.registered false).startAckHousekeepingIfNeeded :=
    .depends registered (fun _ _ _ _ => rfl) fun n =>
      hkeeping.comp ((records_dispatchInflightToDaemon n false).comp (hregister .dispatched))
  exact .ite (fun _ _ _ _ => .rfl) records_id (.ite (fun _ _ _ _ => .rfl) hsent
    (.ite (fun _ _ _ _ => .rfl) (hkeeping.comp (hregister .buffered)) fun s =>
      ⟨[(id, .daemonOffline)], [], by simp, fun _ _ _ => by rw [List.append_nil]; rfl⟩))

theorem records_graceExpired : Records fun s : Inflight =>
    if s.graceTimer then { s with graceTimer := false }.onReconnectGraceExpired else s := by
  have hfails : Records fun s : Inflight =>
      s.inflightCommands.toList.foldl (fun s entry => s.fail entry.1 .daemonOffline) s :=
    .depends (fun s => s.inflightCommands.toList) (fun _ _ _ _ => rfl)
      (Records.foldl fun entry : String × ℕ => records_fail entry.1 .daemonOffline)
  have hgrace : Records fun s => { s with graceTimer := false } :=
    records_of_eq fun _ _ _ _ => rfl
  have hexpired : Records onReconnectGraceExpired :=
    .ite (fun _ _ _ _ => .rfl) records_id hfails
  exact .ite (fun _ _ _ _ => .rfl) (hexpired.comp hgrace) records_id

theorem records_onAckTimeout (id : String) : Records (·.onAckTimeout id) := by
  have hbuffered (n : ℕ) : Records fun s =>
      s.setEntry n { s.entries n with state := .buffered, timeoutTimer := false } :=
    records_of_eq fun _ _ _ _ => rfl
  have hfound (n : ℕ) : Records fun s =>
      if (s.entries n).state = .acked then s
      else if s.link.isDaemonConnected ∧ (s.entries n).dispatchAttempts ≤ ackTimeoutRetryLimit then
        s.dispatchInflightToDaemon n true
      else if !s.link.isDaemonConnected && s.graceTimer then
        s.setEntry n { s.entries n with state := .buffered, timeoutTimer := false }
      else s.fail id .ackTimeout :=
    .ite (fun _ _ _ _ => .rfl) records_id (.ite (fun _ _ _ _ => .rfl)
      (records_dispatchInflightToDaemon n true)
      (.ite (fun _ _ _ _ => .rfl) (hbuffered n) (records_fail id .ackTimeout)))
  refine (Records.found id hfound).congr fun s => ?_
  rw [onAckTimeout]
  cases s.inflightCommands.get? id <;> rfl

theorem records_ackTimeout (n : ℕ) : Records fun s =>
    if (s.entries n).timeoutTimer then
      (s.setEntry n { s.entries n with timeoutTimer := false }).onAckTimeout (s.entries n).commandId
    else s := by
  have hset : Records fun s => s.setEntry n { s.entries n with timeoutTimer := false } :=
    records_of_eq fun _ _ _ _ => rfl
  exact .ite (fun _ _ _ _ => .rfl) (.depends (fun s : Inflight => (s.entries n).commandId)
    (fun _ _ _ _ => rfl) fun id => (records_onAckTimeout id).comp hset) records_id

theorem records_ack (id : String) (now : ℕ) : Records (·.handleCommandAck id now) := by
  have hacked (n : ℕ) : Records fun s => s.setEntry n { s.entries n with state := .acked } :=
    records_of_eq fun _ _ _ _ => rfl
  have hremove : Records (·.removeInflight id .acked) := records_removeInflight id (by simp)
  have hclear : Records (·.clearInflightOnAck id) := by
    refine (Records.found id fun n => hremove.comp (hacked n)).congr fun s => ?_
    rw [clearInflightOnAck]
    cases s.inflightCommands.get? id <;> rfl
  have hseen : Records fun s => { s with seenCommandAcks := s.seenCommandAcks.set id now } :=
    records_of_eq fun _ _ _ _ => rfl
  exact .ite (fun _ _ _ _ => .rfl) records_id (hclear.comp hseen)

theorem records_link {event : LinkEvent} (hkick : event ≠ .kick) (hconnect : event ≠ .connect) :
    Records (stepLink sha256Hex · event) := by
  have hstep (event : LinkEvent) : Records fun s =>
      (s.link.step sha256Hex event).2.foldl (take sha256Hex)
        { s with link := (s.link.step sha256Hex event).1 } := by
    refine .depends (f := fun (next : Link × List LinkAct) s =>
      next.2.foldl (take sha256Hex) { s with link := next.1 })
      (fun s => s.link.step sha256Hex event) (fun _ _ _ _ => rfl) fun next => ?_
    have hlink : Records fun s => { s with link := next.1 } := records_of_eq fun _ _ _ _ => rfl
    exact (Records.foldl records_take next.2).comp hlink
  cases event with
  | connect => exact absurd rfl hconnect
  | kick => exact absurd rfl hkick
  | replayed handler => exact records_id
  | message socket message => exact hstep (.message socket message)
  | resumed handler => exact hstep (.resumed handler)
  | lookedUp handler lookup => exact hstep (.lookedUp handler lookup)
  | flagsRead handler => exact hstep (.flagsRead handler)
  | closed socket => exact hstep (.closed socket)

/-! ## The steps -/

/-- The step drops no command that waits: a kick finds every command with its timer, or the grace
timer armed, and a sweep finds none that is too old. -/
def Keeps (s : Inflight) : InflightEvent → Prop
  | .link event => event = .kick → s.link.daemonWs.isSome = true →
      ∀ n ∈ s.inflightCommands.values,
        (s.entries n).timeoutTimer = true ∨ s.graceTimer = true
  | .sweep now => s.ackHousekeepingTimer = true →
      ∀ n ∈ s.inflightCommands.values, now - (s.entries n).sentAt ≤ inflightGcTtlMs
  | _ => True

instance : ∀ s e, Decidable (Keeps s e)
  | _, .link _ => inferInstanceAs (Decidable (_ → _ → ∀ _ ∈ _, _))
  | _, .sweep _ => inferInstanceAs (Decidable (_ → ∀ _ ∈ _, _))
  | _, .send .. => isTrue trivial
  | _, .revalidated .. => isTrue trivial
  | _, .revalidationThrew _ => isTrue trivial
  | _, .graceExpired => isTrue trivial
  | _, .ackTimeout _ => isTrue trivial
  | _, .ack .. => isTrue trivial
  | _, .echo _ => isTrue trivial

/-- The state without what was recorded so far. -/
def anew (s : Inflight) : Inflight :=
  s.withRecords false [] (s.ended.map fun p => (p.1, .swept))

/-- Commands in flight of which none was dropped. -/
structure Held (s : Inflight) : Prop extends Owned s where
  sound : s.anew.Sound []

/-- What a sweep does about the acknowledgements that were seen, and its timer. -/
def tidy (s : Inflight) (now : ℕ) : Inflight :=
  let stale := s.seenCommandAcks.toList.filter fun seen => ackDedupTtlMs < now - seen.2
  let seenCommandAcks := stale.foldl (fun seen entry => seen.delete entry.1) s.seenCommandAcks
  let idle := s.inflightCommands.toList.isEmpty && seenCommandAcks.toList.isEmpty
  { s with seenCommandAcks, ackHousekeepingTimer := s.ackHousekeepingTimer && !idle }

theorem ackHousekeepingSweep_eq (s : Inflight) (now : ℕ) : s.ackHousekeepingSweep now =
    (s.inflightCommands.toList.foldl (·.sweepInflight now ·) s).tidy now := rfl

theorem sweepInflight_eq {now : ℕ}
    (hfresh : ∀ n ∈ s.inflightCommands.values, now - (s.entries n).sentAt ≤ inflightGcTtlMs) :
    s.inflightCommands.toList.foldl (·.sweepInflight now ·) s = s := by
  have hkept : ∀ entry ∈ s.inflightCommands.toList, s.sweepInflight now entry = s :=
    fun entry hentry => if_neg (Nat.not_lt.2 (hfresh entry.2 (List.mem_map_of_mem hentry)))
  generalize s.inflightCommands.toList = entries at hkept
  induction entries with
  | nil => rfl
  | cons entry rest ih =>
    rw [List.foldl_cons, hkept entry List.mem_cons_self]
    exact ih fun entry' hentry => hkept entry' (List.mem_cons_of_mem _ hentry)

/-- What a step records, that sweeps nothing away and is no kick. -/
def RecordsAt (s : Inflight) (step : Inflight → Inflight) : Prop :=
  ∃ failures ended, (∀ p ∈ ended, p.2 ≠ .swept) ∧
    (step s).failures = s.failures ++ failures ∧ (step s).ended = s.ended ++ ended ∧
      step s.anew = (step s).withRecords false failures (s.anew.ended ++ ended)

theorem Records.at {f : Inflight → Inflight} (hf : Records f) (s : Inflight) : RecordsAt s f := by
  obtain ⟨failures, ended, hended, hf⟩ := hf s
  have hself : f s = (f s).withRecords s.kicked (s.failures ++ failures) (s.ended ++ ended) :=
    hf s.kicked s.failures s.ended
  exact ⟨failures, ended, hended, congrArg Inflight.failures hself,
    congrArg Inflight.ended hself, hf false [] (s.anew.ended)⟩

theorem RecordsAt.congr {f g : Inflight → Inflight} (h : RecordsAt s f) (hs : g s = f s)
    (hanew : g s.anew = f s.anew) : RecordsAt s g := by
  rw [RecordsAt, hs, hanew]
  exact h

theorem recordsAt_step {e : InflightEvent} (h : s.Owned) (hkeeps : s.Keeps e)
    (hkick : e ≠ .link .kick) : RecordsAt s (step sha256Hex · e) := by
  cases e with
  | link event =>
    by_cases hconnect : event = .connect
    · subst hconnect
      exact ⟨[], [], by simp, (List.append_nil _).symm, (List.append_nil _).symm,
        by rw [List.append_nil]; rfl⟩
    · exact (records_link (fun heq => hkick (heq ▸ rfl)) hconnect).at s
  | send id share now => exact (records_send id share now).at s
  | revalidated index refusal =>
    have hquiet (s' : Inflight) (hlooks : s'.revalidations = []) :
        s'.step sha256Hex (.revalidated index refusal) = s' := by
      rw [step, revalidated, hlooks, List.getElem?_nil]
    exact (records_id.at s).congr (hquiet s h.looks) (hquiet s.anew h.looks)
  | revalidationThrew index =>
    have hquiet (s' : Inflight) (hlooks : s'.revalidations = []) :
        s'.step sha256Hex (.revalidationThrew index) = s' := by
      rw [step, revalidationThrew, hlooks, List.getElem?_nil]
    exact (records_id.at s).congr (hquiet s h.looks) (hquiet s.anew h.looks)
  | graceExpired => exact records_graceExpired.at s
  | ackTimeout n => exact (records_ackTimeout n).at s
  | ack id now => exact (records_ack id now).at s
  | echo id => exact (records_removeInflight id (by simp)).at s
  | sweep now =>
    have hstep (s' : Inflight) (hkeeps : s'.Keeps (.sweep now)) :
        s'.step sha256Hex (.sweep now) = if s'.ackHousekeepingTimer then s'.tidy now else s' := by
      rw [step]
      refine ite_congr rfl (fun htimer => ?_) fun _ => rfl
      rw [ackHousekeepingSweep_eq, sweepInflight_eq (hkeeps htimer)]
    have htidy : Records fun s => if s.ackHousekeepingTimer then s.tidy now else s :=
      .ite (fun _ _ _ _ => .rfl) (records_of_eq fun _ _ _ _ => rfl) records_id
    exact (htidy.at s).congr (hstep s hkeeps) (hstep s.anew hkeeps)

/-- What was recorded before is of no account. -/
theorem Sound.anew {failures : List (String × FailureReason)} {ended : List (ℕ × Ending)}
    (h : (s.withRecords false failures ended).Sound [])
    (hended : ended.map Prod.fst = s.ended.map Prod.fst) : s.anew.Sound [] := by
  have hpast : s.anew.ended.map Prod.fst = ended.map Prod.fst := by
    rw [hended]
    simp [Inflight.anew, withRecords, Function.comp_def]
  exact
    { h with
      live := fun id n hid => by
        rw [hpast]
        exact h.live id n hid
      covered := fun n hn => by
        rw [hpast]
        exact h.covered n hn
      once := by
        rw [hpast]
        exact h.once
      past := fun n hn => h.past n (hpast ▸ hn)
      told := fun n reason hn => by simp [Inflight.anew, withRecords] at hn }

/-- A command that leaves is answered, or its browser is told why it has failed. -/
theorem Held.leaves {e : InflightEvent} (h : s.Held) (hrecords : RecordsAt s (step sha256Hex · e))
    {id : String} {n : ℕ} (hid : s.inflightCommands.get? id = some n) :
    (s.step sha256Hex e).inflightCommands.get? id = some n ∨ Answers id e ∨
      ∃ failures reason, (s.step sha256Hex e).failures = s.failures ++ failures ∧
        (id, reason) ∈ failures := by
  obtain ⟨failures, ended, hended, hfailures, -, hanew⟩ := hrecords
  obtain ⟨hlt, hcommand, -, hlive⟩ := h.sound.live id n hid
  have hgoes := @goes_step s.anew sha256Hex e h.sound
  have hsound := @sound_step sha256Hex s.anew e h.sound
  have hcommand' := (hgoes.ids n hlt).trans hcommand
  have hcovered := hsound.covered n (hlt.trans_le hgoes.registered)
  rw [hcommand'] at hcovered
  dsimp only at hanew
  rcases hcovered with hget | hend
  · rw [hanew] at hget
    exact .inl hget
  · obtain ⟨⟨m, ending⟩, hmem, rfl⟩ := List.mem_map.1 hend
    have hnew : (m, ending) ∈ ended := by
      have hmem' := hmem
      rw [hanew] at hmem'
      exact (List.mem_append.1 hmem').resolve_left fun hold =>
        hlive (List.mem_map_of_mem hold)
    have hanswer (hanswer : Ending.IsAnswer ending) : Answers id e := by
      rcases hgoes.ended m ending hmem hanswer with hold | ⟨-, hanswers⟩
      · exact absurd (List.mem_map_of_mem hold) hlive
      · exact hcommand' ▸ hanswers
    refine .inr ?_
    cases ending with
    | acked => exact .inl (hanswer (.inl rfl))
    | echoed => exact .inl (hanswer (.inr rfl))
    | swept => exact absurd rfl (hended _ hnew)
    | failed reason =>
      refine .inr ⟨failures, reason, hfailures, ?_⟩
      have htold := hsound.told m reason hmem
      rw [hcommand', hanew] at htold
      exact htold

/-- A kick breaks a handshake off, and no command waits for that one. -/
theorem Held.kick (h : s.Held)
    (hkeeps : LinkEvent.kick = .kick → s.link.daemonWs.isSome = true →
      ∀ n ∈ s.inflightCommands.values,
        (s.entries n).timeoutTimer = true ∨ s.graceTimer = true) :
    (s.step sha256Hex (.link .kick)).anew.Sound [] := by
  have hkicked : Sound { s.anew with
      link := (s.link.step sha256Hex .kick).1, kicked := true } [] :=
    h.sound.unanswered rfl (fun _ _ => rfl) fun _ => .inl rfl
  have hanew : (s.step sha256Hex (.link .kick)).anew =
      { s.anew with link := (s.link.step sha256Hex .kick).1 } := rfl
  rw [hanew]
  refine { hkicked with awaited := fun id n hid hn => ?_ }
  have hawaited := (h.sound.awaited id n hid hn).resolve_right fun hthrown => by
    have hnone : s.anew.thrown = [] := h.thrown
    rw [HasThrown, hnone] at hthrown
    cases hthrown
  refine .inl ?_
  rcases hawaited with htimer | ⟨r, hr, -⟩ | ⟨hstate, hwaits⟩
  · exact .inl htimer
  · have hnone : s.anew.revalidations = [] := h.looks
    rw [hnone] at hr
    cases hr
  · cases hws : s.link.daemonWs with
    | none =>
      have hsame : (s.link.step sha256Hex .kick).1 = s.link := by
        simp [Link.step, Link.kickDaemon, hws]
      rw [hsame]
      exact .inr (.inr ⟨hstate, hwaits⟩)
    | some socket =>
      rcases hkeeps rfl (by rw [hws]; rfl) n (OrderedMap.mem_values.2 ⟨id, hid⟩) with
        htimer | hgrace
      · exact .inl htimer
      · exact .inr (.inr ⟨hstate, .inl hgrace⟩)

theorem Held.step {e : InflightEvent} (h : s.Held) (howns : s.Owns sha256Hex e)
    (hkeeps : s.Keeps e) : (s.step sha256Hex e).Held := by
  have hlive (id : String) (n : ℕ) (hid : s.inflightCommands.get? id = some n) :
      (s.entries n).commandId = id := (h.sound.live id n hid).2.1
  refine { h.toOwned.step hlive howns with sound := ?_ }
  by_cases hkick : e = .link .kick
  · subst hkick
    exact h.kick hkeeps
  · obtain ⟨failures, ended, -, -, hended, hanew⟩ := recordsAt_step h.toOwned hkeeps hkick
    have hsound := @sound_step sha256Hex s.anew e h.sound
    dsimp only at hended hanew
    rw [hanew] at hsound
    refine hsound.anew ?_
    rw [hended, List.map_append, List.map_append]
    simp [Inflight.anew, withRecords, Function.comp_def]

theorem held_start : Held {} := { owned_start with sound := sound_start }

/-! ## The runs -/

variable (sha256Hex) in
/-- A command leaves with an answer to it, or with what its browser is told at that step. -/
def Leaves (s : Inflight) (e : InflightEvent) : Prop :=
  ∀ id n, s.inflightCommands.get? id = some n →
    (s.step sha256Hex e).inflightCommands.get? id = some n ∨ Answers id e ∨
      ∃ failures reason, (s.step sha256Hex e).failures = s.failures ++ failures ∧
        (id, reason) ∈ failures

/-- A command has its timer, or is buffered while the grace timer is armed or the handshake of a
daemon is in progress, which is not over before the replay. -/
def IsHeld (s : Inflight) (n : ℕ) : Prop :=
  (s.entries n).timeoutTimer = true ∨
    (s.entries n).state = .buffered ∧ (s.graceTimer = true ∨ s.link.IsExpected)

variable (sha256Hex) in
/-- Every command that was accepted is answered. -/
def AnswersAll (es : List InflightEvent) : Prop :=
  Along (step sha256Hex) (Leaves sha256Hex) es {} ∧
    ∀ id n, (run (step sha256Hex) es {}).inflightCommands.get? id = some n →
      ((run (step sha256Hex) es {}).entries n).state ≠ .acked →
        (run (step sha256Hex) es {}).IsHeld n

theorem Held.leavesAt {e : InflightEvent} (h : s.Held) (hkeeps : s.Keeps e) :
    s.Leaves sha256Hex e := by
  intro id n hid
  by_cases hkick : e = .link .kick
  · subst hkick
    exact .inl hid
  · exact h.leaves (recordsAt_step h.toOwned hkeeps hkick) hid

theorem Held.isHeld (h : s.Held) {id : String} {n : ℕ}
    (hid : s.inflightCommands.get? id = some n) : s.IsHeld n := by
  rcases h.sound.awaited id n hid List.not_mem_nil with hawaited | hthrown
  · rcases hawaited with htimer | ⟨r, hr, -⟩ | ⟨hstate, hgrace | hexpected | ⟨hkicked, -⟩⟩
    · exact .inl htimer
    · have hnone : s.anew.revalidations = [] := h.looks
      rw [hnone] at hr
      cases hr
    · exact .inr ⟨hstate, .inl hgrace⟩
    · exact .inr ⟨hstate, .inr hexpected⟩
    · cases hkicked
  · have hnone : s.anew.thrown = [] := h.thrown
    rw [HasThrown, hnone] at hthrown
    cases hthrown

/-- **Every accepted command is answered**, in every run in which no command of a share is looked
at and none that waits is dropped. -/
theorem answersAll_of_along (sha256Hex : String → String) (es : List InflightEvent)
    (h : Along (step sha256Hex) (fun s e => s.Owns sha256Hex e ∧ s.Keeps e) es {}) :
    AnswersAll sha256Hex es :=
  have hstep (s : Inflight) (e : InflightEvent) (hs : s.Held)
      (he : s.Owns sha256Hex e ∧ s.Keeps e) : (s.step sha256Hex e).Held := hs.step he.1 he.2
  ⟨h.of_invariant Held hstep (fun _ _ hs he => hs.leavesAt he.2) held_start,
    fun _ _ hid _ => (run_invariant Held hstep held_start h).isHeld hid⟩

/-- Commands wait for a handshake and for the grace, are sent again, answered and given up; and a
kick comes while the grace timer is armed. -/
def answeredRun : List InflightEvent :=
  [.link .connect, .send "a" false 0, .link (.message 0 (.auth "t")),
    .link (.lookedUp 0 (.found (some { tokenHash := "t", userId := some "u" }))),
    .link (.flagsRead 0), .send "b" false 1, .ack "a" 2, .link (.closed 0), .send "c" true 3,
    .ackTimeout 1, .link .connect, .link .kick, .sweep 60000, .graceExpired]

theorem answersAll_of_along_answeredRun : AnswersAll id answeredRun :=
  answersAll_of_along id answeredRun (by decide +kernel)

/-- A command that waits for a handshake is left without a timer when the daemon is kicked. -/
theorem not_answersAll : ¬ ∀ (sha256Hex : String → String) (es : List InflightEvent),
    AnswersAll sha256Hex es := by
  intro h
  have hheld := (h id [.link .connect, .send "a" false 0, .link .kick]).2 "a" 0 (by decide)
    (by decide)
  rcases hheld with htimer | ⟨-, hgrace | hshake | ⟨n, call, promise, hcall, -⟩⟩
  · exact absurd htimer (by decide)
  · exact absurd hgrace (by decide)
  · exact absurd hshake (by decide)
  · cases hcall

end Inflight

end Imcodes.Bridge
