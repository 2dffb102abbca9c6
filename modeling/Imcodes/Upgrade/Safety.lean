import Imcodes.Upgrade.Coordinator

/-!
# Upgrade commands are safe

* `Sound` — what every step keeps.
* `upgrade_commands_are_safe` — whatever is sent names the current version, which is
  available, to a daemon that is ready; a callback does at most one thing; and what is
  scheduled automatically is so at most three times and not too often.
-/

namespace Imcodes.Upgrade

open Machine

/-! ## What is recorded -/

/-- The upgrade is scheduled. -/
def Act.schedules (u : ℕ) : Act → Bool
  | .scheduled upgradeId _ _ => upgradeId = u
  | _ => false

/-- It is done by a callback that was registered under the number. -/
def Act.isOfCallback (registration : ℕ) : Act → Bool
  | .scheduled _ _ cause => cause = .callback registration
  | .sent message => message.cause = .callback registration
  | _ => false

/-- The version that a message names. -/
def UpgradeMessage.version (message : UpgradeMessage) : String :=
  message.targetVersion.getD DAEMON_UPGRADE_TARGET_LATEST

/-- What is right about an act, given those before it. -/
def Right (before : List Act) : Act → Prop
  | .sent message =>
      message.current = some (message.upgradeId, message.version) ∧
        message.isDaemonReady = true ∧
          (message.version = DAEMON_UPGRADE_TARGET_LATEST ∨ .reported message.version ∈ before)
  | .scheduled _ now _ =>
      ∀ earlier u time cause since, before = earlier ++ .scheduled u time cause :: since →
        .cleared ∉ since → time + AUTO_UPGRADE_MIN_INTERVAL_MS ≤ now
  | _ => True

/-- What every step keeps. -/
structure Sound (s : Server) : Prop where
  right : Traced Right s.log
  reported : ∀ v, (s.gate v).status = .available → .reported v ∈ s.log
  available : ∀ u, (s.upgrades u).timer ≠ none ∨ (s.upgrades u).status = .sent →
    s.gate.isAvailable (s.upgrades u).targetVersion
  attempts : ∀ u, s.log.countP (·.schedules u) ≤ (s.upgrades u).attempt ∧
    s.log.countP (·.schedules u) ≤ AUTO_UPGRADE_MAX_ATTEMPTS
  fresh : ∀ u, s.created ≤ u → s.log.countP (·.schedules u) = 0
  latest : ∀ earlier u time cause since, s.log = earlier ++ .scheduled u time cause :: since →
    .cleared ∉ since → ∃ last, s.lastAutoSentAt = some last ∧ time ≤ last
  once : ∀ r, s.log.countP (·.isOfCallback r) ≤ 1
  unregistered : ∀ r, s.registrations ≤ r → s.log.countP (·.isOfCallback r) = 0
  waiting : ∀ v, ∀ callback ∈ (s.gate v).callbacks, callback.registration < s.registrations ∧
    s.log.countP (·.isOfCallback callback.registration) = 0
  apart : ∀ v w, ∀ a ∈ (s.gate v).callbacks, ∀ b ∈ (s.gate w).callbacks,
    a.registration = b.registration → v = w
  nodup : ∀ v, ((s.gate v).callbacks.map (·.registration)).Nodup
  known : ∀ u, s.current = some u → u < s.created
  owner : ∀ v, ∀ callback ∈ (s.gate v).callbacks, callback.upgrade < s.created ∧
    (s.upgrades callback.upgrade).targetVersion = v

/-- A callback that has done nothing yet and does not wait any more. -/
structure Unused (s : Server) (registration : ℕ) : Prop where
  registered : registration < s.registrations
  idle : s.log.countP (·.isOfCallback registration) = 0
  gone : ∀ v, ∀ callback ∈ (s.gate v).callbacks, callback.registration ≠ registration

/-- Where an element of a list with one more at its end is. -/
theorem append_singleton_eq {α : Type} {l before after : List α} {a b : α}
    (h : l ++ [a] = before ++ b :: after) :
    (before = l ∧ b = a ∧ after = []) ∨ ∃ after', after = after' ++ [a] ∧ l = before ++ b :: after' := by
  rcases List.eq_nil_or_concat after with rfl | ⟨after', c, rfl⟩
  · obtain ⟨hl, ha⟩ := List.append_inj' h rfl
    exact Or.inl ⟨hl.symm, (List.singleton_inj.1 ha).symm, rfl⟩
  · rw [List.concat_eq_append, ← List.cons_append, ← List.append_assoc] at h
    obtain ⟨hl, ha⟩ := List.append_inj' h rfl
    rw [List.singleton_inj] at ha
    subst ha
    exact Or.inr ⟨after', List.concat_eq_append, hl⟩

namespace Sound

variable {s : Server} {u : ℕ} {input : RequestDaemonUpgradeInput} {cause : Cause} {now : ℤ}

/-! ## Small steps -/

/-- What an upgrade is like may change, but not its version, and it is not sent nor is a
timer armed by that. -/
theorem modify (h : Sound s) {f : UpgradeState → UpgradeState}
    (hversion : (f (s.upgrades u)).targetVersion = (s.upgrades u).targetVersion)
    (hattempt : (f (s.upgrades u)).attempt = (s.upgrades u).attempt)
    (havailable : (f (s.upgrades u)).timer ≠ none ∨ (f (s.upgrades u)).status = .sent →
      s.gate.isAvailable (s.upgrades u).targetVersion) : Sound (s.modify u f) := by
  refine ⟨h.right, h.reported, fun v hv => ?_, fun v => ?_, h.fresh, h.latest, h.once,
    h.unregistered, h.waiting, h.apart, h.nodup, h.known, fun v callback hmem => ?_⟩
  · rw [Server.modify_upgrades] at hv ⊢
    by_cases hvu : v = u
    · rw [if_pos hvu] at hv ⊢
      rw [hversion]
      exact havailable hv
    · rw [if_neg hvu] at hv ⊢
      exact h.available v hv
  · rw [Server.modify_upgrades]
    by_cases hvu : v = u
    · subst hvu
      rw [if_pos rfl, hattempt]
      exact h.attempts v
    · rw [if_neg hvu]
      exact h.attempts v
  · obtain ⟨hcreated, howner⟩ := h.owner v callback hmem
    refine ⟨hcreated, ?_⟩
    rw [Server.modify_upgrades]
    by_cases hu : callback.upgrade = u
    · rw [if_pos hu, hversion, ← hu, howner]
    · rw [if_neg hu, howner]

/-- A change that arms nothing and sends nothing. -/
theorem modify_quietly (h : Sound s) {f : UpgradeState → UpgradeState}
    (hversion : (f (s.upgrades u)).targetVersion = (s.upgrades u).targetVersion)
    (hattempt : (f (s.upgrades u)).attempt = (s.upgrades u).attempt)
    (htimer : (f (s.upgrades u)).timer ≠ none → (s.upgrades u).timer ≠ none)
    (hstatus : (f (s.upgrades u)).status = .sent → (s.upgrades u).status = .sent) :
    Sound (s.modify u f) :=
  h.modify hversion hattempt fun hor => h.available u (hor.imp htimer hstatus)

/-- What is current, what the daemon is like and which requests are stale does not
matter. -/
theorem of_world (h : Sound s) {current leftScheduled : Option ℕ} {isDaemonReady : Bool}
    {stale : List ℕ} (hknown : ∀ u, current = some u → u < s.created) :
    Sound { s with current, isDaemonReady, stale, leftScheduled } :=
  ⟨h.right, h.reported, h.available, h.attempts, h.fresh, h.latest, h.once, h.unregistered,
    h.waiting, h.apart, h.nodup, hknown, h.owner⟩

/-- Something is done that schedules nothing. -/
theorem record (h : Sound s) {act : Act} (hright : Right s.log act)
    (hschedules : ∀ u, act.schedules u = false)
    (hcause : ∀ r, act.isOfCallback r = true → Unused s r) :
    Sound { s with log := s.log ++ [act] } := by
  have hcount (p : Act → Bool) : (s.log ++ [act]).countP p =
      s.log.countP p + if p act = true then 1 else 0 := by
    rw [List.countP_append, List.countP_singleton]
  have hsame (v : ℕ) : (s.log ++ [act]).countP (·.schedules v) = s.log.countP (·.schedules v) := by
    rw [hcount, hschedules v, if_neg (by simp), Nat.add_zero]
  refine ⟨traced_concat.2 ⟨h.right, hright⟩, fun v hv => List.mem_append_left _ (h.reported v hv),
    h.available, fun v => ?_, fun v hv => ?_, fun earlier v time cause since heq hcleared => ?_,
    fun r => ?_, fun r hr => ?_, fun v callback hmem => ?_, h.apart, h.nodup, h.known, h.owner⟩
  · simp only [hsame]
    exact h.attempts v
  · simp only [hsame]
    exact h.fresh v hv
  · rcases append_singleton_eq heq with ⟨-, rfl, -⟩ | ⟨since', rfl, heq'⟩
    · have := hschedules v
      simp [Act.schedules] at this
    · exact h.latest earlier v time cause since' heq' fun hmem =>
        hcleared (List.mem_append_left _ hmem)
  · rw [hcount]
    by_cases hr : act.isOfCallback r = true
    · rw [(hcause r hr).idle, if_pos hr]
    · rw [if_neg hr]
      exact h.once r
  · rw [hcount, h.unregistered r hr, if_neg fun hact => absurd (hcause r hact).registered
      (Nat.not_lt.2 hr)]
  · refine ⟨(h.waiting v callback hmem).1, ?_⟩
    rw [hcount, (h.waiting v callback hmem).2, if_neg fun hact => (hcause _ hact).gone v callback
      hmem rfl]

/-- **A message is sent** to a daemon that is ready, about the current upgrade, whose
version is available. -/
theorem sendNow (h : Sound s) (hcurrent : s.current = some u) (hready : s.isDaemonReady = true)
    (havailable : s.gate.isAvailable (s.upgrades u).targetVersion)
    (hcause : ∀ r, cause = .callback r → Unused s r) : Sound (s.sendNow u cause) := by
  have hversion : (s.buildUpgradeMessage u cause).version = (s.upgrades u).targetVersion := by
    rw [UpgradeMessage.version, Server.buildUpgradeMessage]
    dsimp only
    split
    · rfl
    · rename_i hlatest
      rw [shouldSendDaemonUpgradeTargetVersion, decide_eq_true_eq, not_not] at hlatest
      exact hlatest.symm
  have hmodify : Sound (s.modify u ({ · with status := .sent })) :=
    h.modify rfl rfl fun _ => havailable
  have hsent : Sound { s.modify u ({ · with status := .sent }) with
      log := s.log ++ [.sent (s.buildUpgradeMessage u cause)] } := by
    refine hmodify.record ⟨?_, hready, ?_⟩ (fun _ => rfl) fun r hr => ?_
    · rw [hversion, Server.buildUpgradeMessage, hcurrent]
      rfl
    · rw [hversion]
      exact havailable.imp_right (h.reported _)
    · obtain ⟨hregistered, hidle, hgone⟩ := hcause r (of_decide_eq_true hr)
      exact ⟨hregistered, hidle, hgone⟩
  exact hsent.of_world hsent.known

/-- **An upgrade is scheduled**, if it was not often enough, and the last was long ago. -/
theorem scheduleAutoSend (h : Sound s) (hcreated : u < s.created)
    (havailable : s.gate.isAvailable (s.upgrades u).targetVersion)
    (hcause : ∀ r, cause = .callback r → Unused s r) :
    Sound (s.scheduleAutoSend u input now cause).1 := by
  rw [Server.scheduleAutoSend]
  dsimp only
  split
  · exact h
  rename_i hnow
  split
  · exact h
  rename_i hattempt
  rw [Nat.not_le] at hattempt
  have hcount (p : Act → Bool) : (s.log ++ [Act.scheduled u now cause]).countP p =
      s.log.countP p + if p (.scheduled u now cause) = true then 1 else 0 := by
    rw [List.countP_append, List.countP_singleton]
  have hone (v : ℕ) : (s.log ++ [Act.scheduled u now cause]).countP (·.schedules v) =
      s.log.countP (·.schedules v) + if u = v then 1 else 0 := by
    rw [hcount]
    simp only [show (Act.scheduled u now cause).schedules v = decide (u = v) from rfl,
      decide_eq_true_eq]
  have hspaced : ∀ earlier v time cause' since, s.log = earlier ++ .scheduled v time cause' :: since →
      .cleared ∉ since → time + AUTO_UPGRADE_MIN_INTERVAL_MS ≤ now := by
    intro earlier v time cause' since heq hcleared
    obtain ⟨last, hlast, hle⟩ := h.latest earlier v time cause' since heq hcleared
    rw [Server.nextAutoAttemptAt, hlast] at hnow
    dsimp only at hnow
    omega
  have hupgrades (v : ℕ) : (s.modify u fun upgrade => { upgrade with
      status := .scheduled, attempt := upgrade.attempt + 1, timer := some input }).upgrades v =
        if v = u then { s.upgrades u with
          status := .scheduled, attempt := (s.upgrades u).attempt + 1, timer := some input }
        else s.upgrades v := s.modify_upgrades u v _
  refine ⟨traced_concat.2 ⟨h.right, hspaced⟩,
    fun v hv => List.mem_append_left _ (h.reported v hv), fun v hv => ?_, fun v => ?_,
    fun v hv => ?_, fun earlier v time cause' since heq hcleared => ?_, fun r => ?_,
    fun r hr => ?_, fun v callback hmem => ?_, h.apart, h.nodup, h.known,
    fun v callback hmem => ?_⟩
  · rw [hupgrades] at hv ⊢
    by_cases hvu : v = u
    · rw [if_pos hvu]
      exact havailable
    · rw [if_neg hvu] at hv ⊢
      exact h.available v hv
  · obtain ⟨hle, hmax⟩ := h.attempts v
    simp only [hupgrades, hone]
    by_cases hvu : v = u
    · subst hvu
      rw [if_pos rfl, if_pos rfl]
      exact ⟨Nat.succ_le_succ hle, by omega⟩
    · rw [if_neg hvu, if_neg fun huv => hvu huv.symm]
      exact ⟨hle, hmax⟩
  · simp only [hone]
    rw [h.fresh v hv, if_neg fun (huv : u = v) => absurd hv (Nat.not_le.2 (huv ▸ hcreated))]
  · refine ⟨now, rfl, ?_⟩
    rcases append_singleton_eq heq with ⟨-, hact, -⟩ | ⟨since', rfl, heq'⟩
    · cases hact
      exact le_rfl
    · have hle := hspaced earlier v time cause' since' heq' fun hmem =>
        hcleared (List.mem_append_left _ hmem)
      rw [AUTO_UPGRADE_MIN_INTERVAL_MS] at hle
      omega
  · rw [hcount]
    by_cases hr : cause = .callback r
    · have hidle := (hcause r hr).idle
      rw [hidle]
      split <;> omega
    · rw [if_neg (by simpa [Act.isOfCallback] using hr)]
      exact h.once r
  · have hne : ¬ (Act.scheduled u now cause).isOfCallback r = true := fun hact =>
      absurd (hcause r (of_decide_eq_true hact)).registered (Nat.not_lt.2 hr)
    rw [hcount, h.unregistered r hr, if_neg hne]
  · have hne : ¬ (Act.scheduled u now cause).isOfCallback callback.registration = true :=
      fun hact => (hcause _ (of_decide_eq_true hact)).gone v callback hmem rfl
    refine ⟨(h.waiting v callback hmem).1, ?_⟩
    rw [hcount, (h.waiting v callback hmem).2, if_neg hne]
  · obtain ⟨hknown, howner⟩ := h.owner v callback hmem
    refine ⟨hknown, ?_⟩
    rw [hupgrades]
    by_cases hu : callback.upgrade = u
    · rw [if_pos hu, ← howner, hu]
    · rw [if_neg hu, howner]

/-! ## The gate -/

theorem of_record (h : Sound s) {v : String} {record : PublicationRecord}
    (hstatus : record.status = (s.gate v).status)
    (hcallbacks : record.callbacks = (s.gate v).callbacks) :
    Sound { s with gate := Function.update s.gate v record } := by
  have hgate (w : String) : ((Function.update s.gate v record) w).status = (s.gate w).status ∧
      ((Function.update s.gate v record) w).callbacks = (s.gate w).callbacks := by
    by_cases hw : w = v
    · subst hw
      rw [Function.update_self]
      exact ⟨hstatus, hcallbacks⟩
    · rw [Function.update_of_ne hw]
      exact ⟨rfl, rfl⟩
  refine ⟨h.right, fun w hw => h.reported w ((hgate w).1 ▸ hw), fun w hw => ?_, h.attempts, h.fresh,
    h.latest, h.once, h.unregistered, fun w callback hmem => ?_, fun w x a ha b hb => ?_,
    fun w => ?_, h.known, fun w callback hmem => ?_⟩
  · exact (h.available w hw).imp_right fun hav => (hgate _).1.trans hav
  · exact h.waiting w callback ((hgate w).2 ▸ hmem)
  · exact h.apart w x a ((hgate w).2 ▸ ha) b ((hgate x).2 ▸ hb)
  · simp only [(hgate w).2]
    exact h.nodup w
  · exact h.owner w callback ((hgate w).2 ▸ hmem)

/-- A callback that is registered now. -/
theorem register (h : Sound s) (callback : PublicationCallback)
    (hregistration : callback.registration = s.registrations)
    (hcreated : callback.upgrade < s.created) {v : String}
    (hversion : (s.upgrades callback.upgrade).targetVersion = v) {record : PublicationRecord}
    (hstatus : record.status = (s.gate v).status)
    (hcallbacks : record.callbacks = (s.gate v).callbacks ++ [callback]) :
    Sound { s with
      gate := Function.update s.gate v record, registrations := s.registrations + 1 } := by
  have hgate (w : String) : ((Function.update s.gate v record) w).status = (s.gate w).status ∧
      ∀ c ∈ ((Function.update s.gate v record) w).callbacks,
        c ∈ (s.gate w).callbacks ∨ w = v ∧ c = callback := by
    by_cases hw : w = v
    · subst hw
      rw [Function.update_self]
      refine ⟨hstatus, fun c hc => ?_⟩
      rw [hcallbacks] at hc
      exact (List.mem_append.1 hc).imp_right fun hc => ⟨rfl, List.mem_singleton.1 hc⟩
    · rw [Function.update_of_ne hw]
      exact ⟨rfl, fun c hc => Or.inl hc⟩
  have hnew : ∀ w, ∀ c ∈ (s.gate w).callbacks, c.registration ≠ callback.registration := by
    intro w c hc heq
    have := (h.waiting w c hc).1
    omega
  refine ⟨h.right, fun w hw => h.reported w ((hgate w).1 ▸ hw), fun w hw => ?_, h.attempts, h.fresh,
    h.latest, h.once, fun r hr => h.unregistered r (Nat.le_of_succ_le hr), fun w c hc => ?_,
    fun w x a ha b hb hab => ?_, fun w => ?_, h.known, fun w c hc => ?_⟩
  · exact (h.available w hw).imp_right fun hav => (hgate _).1.trans hav
  · rcases (hgate w).2 c hc with hc | ⟨-, rfl⟩
    · exact ⟨Nat.lt_succ_of_lt (h.waiting w c hc).1, (h.waiting w c hc).2⟩
    · rw [hregistration]
      exact ⟨Nat.lt_succ_self _, h.unregistered _ le_rfl⟩
  · rcases (hgate w).2 a ha with holda | ⟨hwv, ha⟩ <;>
      rcases (hgate x).2 b hb with holdb | ⟨hxv, hb⟩
    · exact h.apart w x a holda b holdb hab
    · exact absurd (hb ▸ hab) (hnew w a holda)
    · exact absurd (ha ▸ hab.symm) (hnew x b holdb)
    · exact hwv.trans hxv.symm
  · by_cases hw : w = v
    · subst hw
      simp only [Function.update_self, hcallbacks, List.map_append, List.map_cons, List.map_nil]
      refine List.nodup_append.2 ⟨h.nodup w, List.nodup_singleton _, fun r hr r' hr' => ?_⟩
      obtain ⟨c, hc, rfl⟩ := List.mem_map.1 hr
      rw [List.mem_singleton.1 hr']
      exact hnew w c hc
    · simp only [Function.update_of_ne hw]
      exact h.nodup w
  · rcases (hgate w).2 c hc with hc | ⟨rfl, rfl⟩
    · exact h.owner w c hc
    · exact ⟨hcreated, hversion⟩

/-- **The gate is asked** for the version of an upgrade. -/
theorem ensureTargetPublished (h : Sound s) (hcreated : u < s.created) :
    Sound (s.ensureTargetPublished u input).1 := by
  rw [Server.ensureTargetPublished]
  by_cases havailable : s.gate.isAvailable (s.upgrades u).targetVersion
  · simp only [PublicationGate.ensurePublished, if_pos havailable]
    have hmodify : Sound (s.modify u ({ · with
        publicationResumeInput := none, publicationCallbackRegistered := false })) :=
      h.modify_quietly rfl rfl id id
    exact hmodify
  · simp only [PublicationGate.ensurePublished, if_neg havailable]
    have hmodify : Sound (s.modify u ({ · with
        publicationResumeInput := some input
        publicationCallbackRegistered := true
        status := .pendingPublication })) :=
      h.modify_quietly rfl rfl id fun hsent => nomatch hsent
    cases (s.upgrades u).publicationCallbackRegistered with
    | true =>
      refine hmodify.of_record ?_ ?_
      · split <;> rfl
      · split <;> exact List.append_nil _
    | false =>
      refine hmodify.register ⟨s.registrations, u⟩ rfl hcreated ?_ ?_ ?_
      · simp only [Server.modify, Function.update_self]
      · split <;> rfl
      · split <;> rfl

/-- A version is published: whoever waited for it has not done anything yet. -/
theorem publish (h : Sound s) (v : String) :
    Sound { s with
      gate := Function.update s.gate v (s.gate v).markPublished
      log := s.log ++ [.reported v] } ∧
      ∀ callback ∈ (s.gate v).callbacks, Unused { s with
        gate := Function.update s.gate v (s.gate v).markPublished
        log := s.log ++ [.reported v] } callback.registration := by
  have hrecord : Sound { s with log := s.log ++ [.reported v] } :=
    h.record trivial (fun _ => rfl) (fun _ hact => nomatch hact)
  have hsub (w : String) : ∀ c ∈ ((Function.update s.gate v (s.gate v).markPublished) w).callbacks,
      w ≠ v ∧ c ∈ (s.gate w).callbacks := by
    by_cases hw : w = v
    · subst hw
      rw [Function.update_self]
      exact fun c hc => nomatch hc
    · rw [Function.update_of_ne hw]
      exact fun c hc => ⟨hw, hc⟩
  have hmono (w : String) (hw : (s.gate w).status = .available) :
      ((Function.update s.gate v (s.gate v).markPublished) w).status = .available := by
    by_cases hwv : w = v
    · subst hwv
      rw [Function.update_self]
      rfl
    · rwa [Function.update_of_ne hwv]
  refine ⟨⟨hrecord.right, fun w hw => ?_, fun w hw => (h.available w hw).imp_right (hmono _),
    hrecord.attempts, hrecord.fresh, hrecord.latest, hrecord.once, hrecord.unregistered,
    fun w c hc => hrecord.waiting w c (hsub w c hc).2,
    fun w x a ha b hb => h.apart w x a (hsub w a ha).2 b (hsub x b hb).2, fun w => ?_, h.known,
    fun w c hc => h.owner w c (hsub w c hc).2⟩, fun callback hmem => ⟨?_, ?_, ?_⟩⟩
  · by_cases hwv : w = v
    · exact List.mem_append_right _ (hwv ▸ List.mem_singleton_self _)
    · refine List.mem_append_left _ (h.reported w ?_)
      change ((Function.update s.gate v (s.gate v).markPublished) w).status = _ at hw
      rwa [Function.update_of_ne hwv] at hw
  · by_cases hwv : w = v
    · subst hwv
      simp only [Function.update_self]
      exact List.nodup_nil
    · simp only [Function.update_of_ne hwv]
      exact h.nodup w
  · exact (h.waiting v callback hmem).1
  · exact (hrecord.waiting v callback hmem).2
  · intro w c hc heq
    obtain ⟨hne, hc⟩ := hsub w c hc
    exact hne (h.apart w v c hc callback hmem heq)

/-! ## Upgrades -/

theorem ensureTargetPublished_eq_none (hnone : (s.ensureTargetPublished u input).2 = none) :
    s.gate.isAvailable (s.upgrades u).targetVersion ∧
      (s.ensureTargetPublished u input).1 = s.modify u ({ · with
        publicationResumeInput := none, publicationCallbackRegistered := false }) := by
  rw [Server.ensureTargetPublished] at hnone ⊢
  by_cases havailable : s.gate.isAvailable (s.upgrades u).targetVersion
  · simp only [PublicationGate.ensurePublished, if_pos havailable]
    exact ⟨havailable, rfl⟩
  · simp only [PublicationGate.ensurePublished, if_neg havailable] at hnone
    cases hnone

theorem deliver (h : Sound s) (hcurrent : s.current = some u) (hready : s.isDaemonReady = true)
    {source : DaemonUpgradeSource} (hcause : ∀ r, cause ≠ .callback r) :
    Sound (s.deliver u source input now cause).1 := by
  have hcreated := h.known u hcurrent
  have hasked : Sound (s.ensureTargetPublished u input).1 := h.ensureTargetPublished hcreated
  rw [Server.deliver]
  dsimp only
  cases hresult : (s.ensureTargetPublished u input).2 with
  | some publication => exact hasked
  | none =>
    obtain ⟨havailable, heq⟩ := ensureTargetPublished_eq_none hresult
    have havailable' : (s.ensureTargetPublished u input).1.gate.isAvailable
        ((s.ensureTargetPublished u input).1.upgrades u).targetVersion := by
      rw [heq]
      simpa only [Server.modify, Function.update_self] using havailable
    dsimp only
    split
    · exact hasked.scheduleAutoSend (by rw [heq]; exact hcreated) havailable'
        fun r hr => absurd hr (hcause r)
    · exact hasked.sendNow (by rw [heq]; exact hcurrent) (by rw [heq]; exact hready) havailable'
        fun r hr => absurd hr (hcause r)

theorem supersedeCurrent (h : Sound s) : Sound s.supersedeCurrent := by
  rw [Server.supersedeCurrent]
  cases hcurrent : s.current with
  | none => exact h
  | some u =>
    have hmodify : Sound (s.modify u ({ · with timer := none, status := .superseded })) :=
      h.modify_quietly rfl rfl (fun hne => absurd rfl hne) (fun hsent => nomatch hsent)
    exact hmodify.of_world fun v hv => nomatch hv

theorem clearCurrent (h : Sound s) : Sound s.clearCurrent := by
  have hcleared {t : Server} (ht : Sound t) :
      Sound { t with
        current := none, lastAutoSentAt := none, log := t.log ++ [.cleared] } := by
    have hrecord : Sound { t with log := t.log ++ [.cleared] } :=
      ht.record trivial (fun _ => rfl) (fun _ hact => nomatch hact)
    refine ⟨hrecord.right, hrecord.reported, hrecord.available, hrecord.attempts, hrecord.fresh,
      fun earlier v time cause since heq hnot => ?_, hrecord.once, hrecord.unregistered,
      hrecord.waiting, hrecord.apart, hrecord.nodup, fun v hv => (nomatch hv), hrecord.owner⟩
    rcases append_singleton_eq heq with ⟨-, hact, -⟩ | ⟨since', rfl, -⟩
    · cases hact
    · exact absurd (List.mem_append_right _ (List.mem_singleton_self _)) hnot
  rw [Server.clearCurrent]
  cases hcurrent : s.current with
  | none =>
    have hnone := hcleared h
    exact hnone
  | some u =>
    have hmodify : Sound (s.modify u ({ · with timer := none })) :=
      h.modify_quietly rfl rfl (fun hne => absurd rfl hne) id
    exact hcleared hmodify

theorem create (h : Sound s) {targetVersion : String} {source : DaemonUpgradeSource} :
    Sound (s.create targetVersion source) := by
  have hupgrades (v : ℕ) : (s.create targetVersion source).upgrades v =
      if v = s.created then { targetVersion, source } else s.upgrades v :=
    s.modify_upgrades s.created v fun _ => { targetVersion, source }
  refine ⟨h.right, h.reported, fun v hv => ?_, fun v => ?_,
    fun v hv => h.fresh v (Nat.le_of_succ_le hv), h.latest, h.once, h.unregistered, h.waiting,
    h.apart, h.nodup, fun v hv => Nat.lt_succ_of_lt (h.known v hv), fun v callback hmem => ?_⟩
  · rw [hupgrades] at hv ⊢
    by_cases hvu : v = s.created
    · rw [if_pos hvu] at hv
      exact (hv.elim (absurd rfl) fun hsent => nomatch hsent)
    · rw [if_neg hvu] at hv ⊢
      exact h.available v hv
  · rw [hupgrades]
    by_cases hvu : v = s.created
    · rw [if_pos hvu, show (s.create targetVersion source).log = s.log from rfl,
        h.fresh v (Nat.le_of_eq hvu.symm)]
      exact ⟨le_rfl, Nat.zero_le _⟩
    · rw [if_neg hvu]
      exact h.attempts v
  · obtain ⟨hcreated, howner⟩ := h.owner v callback hmem
    refine ⟨Nat.lt_succ_of_lt hcreated, ?_⟩
    rw [hupgrades, if_neg (Nat.ne_of_lt hcreated), howner]

/-! ## Requests -/

theorem requestAgain (h : Sound s) (hcreated : u < s.created) {source : DaemonUpgradeSource} :
    Sound (s.requestAgain u source input now).1 ∧
      (s.requestAgain u source input now).1.created = s.created := by
  have hsource : Sound (s.modify u ({ · with source })) := h.modify_quietly rfl rfl id id
  rw [Server.requestAgain]
  dsimp only
  split
  · split
    · refine ⟨hsource.ensureTargetPublished hcreated, ?_⟩
      rw [Server.ensureTargetPublished]
      dsimp only
      split <;> rfl
    · have hoffline : Sound ((s.modify u ({ · with source })).modify u
          ({ · with status := .pendingOffline })) :=
        hsource.modify_quietly rfl rfl id fun hsent => nomatch hsent
      exact ⟨hoffline, rfl⟩
  · split
    · split
      · split
        · exact ⟨h, rfl⟩
        · split <;> exact ⟨h, rfl⟩
      · exact ⟨h, rfl⟩
    · exact ⟨h, rfl⟩

theorem requestCurrent (h : Sound s) (hcreated : u < s.created) {source : DaemonUpgradeSource} :
    Sound (s.requestCurrent u source input now).1 := by
  have hsource : Sound (s.modify u ({ · with source })) := h.modify_quietly rfl rfl id id
  have hcurrent : Sound { s.modify u ({ · with source }) with current := some u } :=
    hsource.of_world fun v hv => Option.some.inj hv ▸ hcreated
  rw [Server.requestCurrent]
  dsimp only
  split
  · rename_i hready
    exact hcurrent.deliver rfl hready fun r => nofun
  · have hoffline : Sound (Server.modify { s.modify u ({ · with source }) with current := some u } u
        ({ · with status := .pendingOffline })) :=
      hcurrent.modify_quietly rfl rfl id fun hsent => nomatch hsent
    exact hoffline

theorem request (h : Sound s) (targetVersion : TargetValue) (source : DaemonUpgradeSource) :
    Sound (s.request targetVersion source input now).1 := by
  rw [Server.request]
  cases normalizeDaemonUpgradeTargetVersion targetVersion with
  | none => exact h
  | some targetVersion =>
    dsimp only
    cases hfor : s.currentFor targetVersion with
    | none =>
      have hcreated : Sound (s.supersedeCurrent.create targetVersion source) :=
        h.supersedeCurrent.create
      have hlt : s.supersedeCurrent.created <
          (s.supersedeCurrent.create targetVersion source).created := Nat.lt_succ_self _
      exact hcreated.requestCurrent hlt
    | some u =>
      obtain ⟨hcurrent, -⟩ := Option.filter_eq_some_iff.1 hfor
      obtain ⟨hagain, hcreated⟩ : Sound (s.requestAgain u source input now).1 ∧
          (s.requestAgain u source input now).1.created = s.created :=
        h.requestAgain (h.known u hcurrent)
      dsimp only
      cases (s.requestAgain u source input now).2 with
      | some result => exact hagain
      | none => exact hagain.requestCurrent (hcreated.symm ▸ h.known u hcurrent)

theorem flushPending (h : Sound s) : Sound (s.flushPending input now).1 := by
  rw [Server.flushPending]
  split
  · exact h
  rename_i u hcurrent
  dsimp only
  split
  · exact h
  · split
    · exact h
    · rename_i hready
      exact h.deliver hcurrent (Bool.eq_true_of_not_eq_false hready) fun r => nofun

theorem retryAutoAfterBlocked (h : Sound s) {retryDelayMs : ℚ} :
    Sound (s.retryAutoAfterBlocked input retryDelayMs now).1 := by
  rw [Server.retryAutoAfterBlocked]
  split
  · exact h
  rename_i u hcurrent
  dsimp only
  split
  · exact h
  · rename_i hsent
    obtain ⟨-, hsent⟩ := not_or.1 hsent
    have hblocked : Sound (s.modify u ({ · with status := .scheduled, timer := some input })) :=
      h.modify rfl rfl fun _ => h.available u (Or.inr (not_not.1 hsent))
    exact hblocked

theorem clearIfTargetVersionMatches (h : Sound s) (targetVersion : Option String) :
    Sound (s.clearIfTargetVersionMatches targetVersion) := by
  rw [Server.clearIfTargetVersionMatches.eq_def]
  split
  · exact h
  · split
    · exact h
    · split
      · exact h
      · split
        · exact h.clearCurrent
        · exact h

/-! ## Timers and callbacks -/

theorem fireTimer (h : Sound s) (u : ℕ) : Sound (s.fireTimer u) := by
  rw [Server.fireTimer]
  split
  · exact h
  rename_i armed htimer
  have hfired : Sound (s.modify u ({ · with timer := none })) :=
    h.modify_quietly rfl rfl (fun hne => absurd rfl hne) id
  dsimp only
  split
  · exact hfired
  · rename_i hgo
    simp only [not_or, not_not] at hgo
    obtain ⟨hcurrent, hready, -⟩ := hgo
    refine hfired.sendNow hcurrent (Bool.eq_true_of_not_eq_false hready) ?_ fun r => nofun
    have havailable := h.available u (Or.inl fun hnone => by rw [hnone] at htimer; cases htimer)
    simpa only [Server.modify, Function.update_self] using havailable

theorem resumeAfterPublication (h : Sound s)
    (havailable : s.gate.isAvailable (s.upgrades u).targetVersion)
    (hcause : ∀ r, cause = .callback r → Unused s r) :
    Sound (s.resumeAfterPublication u input now cause) := by
  rw [Server.resumeAfterPublication]
  split
  · exact h
  rename_i hgo
  simp only [not_or, not_not] at hgo
  obtain ⟨hcurrent, -⟩ := hgo
  split
  · exact h
  rename_i hgo
  obtain ⟨hready, -⟩ := not_or.1 hgo
  split
  · exact h.scheduleAutoSend (h.known u hcurrent) havailable hcause
  · exact h.sendNow hcurrent (Bool.eq_true_of_not_eq_false hready) havailable hcause

end Sound

/-- A state is as another one was, except for what one callback has done. -/
structure Continues (registration : ℕ) (s t : Server) : Prop where
  gate : t.gate = s.gate
  versions : ∀ u, (t.upgrades u).targetVersion = (s.upgrades u).targetVersion
  registrations : t.registrations = s.registrations
  counts : ∀ r ≠ registration, t.log.countP (·.isOfCallback r) = s.log.countP (·.isOfCallback r)

namespace Continues

variable {s t : Server} {r registration : ℕ} {u : ℕ}

theorem trans {t' : Server} (h : Continues registration s t) (h' : Continues registration t t') :
    Continues registration s t' :=
  ⟨h'.gate.trans h.gate, fun u => (h'.versions u).trans (h.versions u),
    h'.registrations.trans h.registrations, fun r hr => (h'.counts r hr).trans (h.counts r hr)⟩

theorem modify {f : UpgradeState → UpgradeState}
    (hversion : (f (s.upgrades u)).targetVersion = (s.upgrades u).targetVersion) :
    Continues registration s (s.modify u f) := by
  refine ⟨rfl, fun v => ?_, rfl, fun _ _ => rfl⟩
  rw [Server.modify_upgrades]
  split
  · rename_i hv
    rw [hv, hversion]
  · rfl

theorem record (h : Continues registration s t) {act : Act}
    {lastAutoSentAt : Option ℤ} {leftScheduled : Option ℕ}
    (hact : ∀ r ≠ registration, act.isOfCallback r = false) :
    Continues registration s
      { t with lastAutoSentAt, leftScheduled, log := t.log ++ [act] } := by
  refine ⟨h.gate, h.versions, h.registrations, fun r hr => ?_⟩
  rw [List.countP_append, List.countP_singleton, hact r hr, if_neg Bool.false_ne_true,
    Nat.add_zero, h.counts r hr]

theorem unused (h : Continues registration s t) (hr : r ≠ registration) (hunused : Unused s r) :
    Unused t r :=
  ⟨h.registrations ▸ hunused.registered, (h.counts r hr).trans hunused.idle,
    h.gate ▸ hunused.gone⟩

theorem isOfCallback_of_ne (hr : r ≠ registration) :
    decide (Cause.callback registration = .callback r) = false :=
  decide_eq_false fun heq => hr (Cause.callback.inj heq).symm

theorem sendNow (h : Continues registration s t) :
    Continues registration s (t.sendNow u (.callback registration)) := by
  have hmodify : Continues registration t (t.modify u ({ · with status := .sent })) :=
    .modify rfl
  exact (h.trans hmodify).record fun r hr => isOfCallback_of_ne hr

theorem scheduleAutoSend (h : Continues registration s t) {input : RequestDaemonUpgradeInput}
    {now : ℤ} :
    Continues registration s (t.scheduleAutoSend u input now (.callback registration)).1 := by
  rw [Server.scheduleAutoSend]
  dsimp only
  split
  · exact h
  split
  · exact h
  · have hmodify : Continues registration t (t.modify u fun upgrade => { upgrade with
        status := .scheduled, attempt := upgrade.attempt + 1, timer := some input }) :=
      .modify rfl
    exact (h.trans hmodify).record fun r hr => isOfCallback_of_ne hr

theorem runCallback (callback : PublicationCallback) (now : ℤ) :
    Continues callback.registration s (s.runCallback callback now) := by
  have hmodify : Continues callback.registration s (s.modify callback.upgrade
      ({ · with publicationCallbackRegistered := false, publicationResumeInput := none })) :=
    .modify rfl
  rw [Server.runCallback]
  split
  · exact hmodify
  rw [Server.resumeAfterPublication]
  split
  · exact hmodify
  split
  · exact hmodify
  split
  · exact hmodify.scheduleAutoSend
  · exact hmodify.sendNow

end Continues

namespace Sound

variable {s : Server}

theorem runCallback (h : Sound s) {callback : PublicationCallback} (now : ℤ)
    (havailable : s.gate.isAvailable (s.upgrades callback.upgrade).targetVersion)
    (hunused : Unused s callback.registration) : Sound (s.runCallback callback now) := by
  have hmodify : Sound (s.modify callback.upgrade
      ({ · with publicationCallbackRegistered := false, publicationResumeInput := none })) :=
    h.modify_quietly rfl rfl id id
  rw [Server.runCallback]
  split
  · exact hmodify
  · refine hmodify.resumeAfterPublication ?_ fun r hr => ?_
    · simpa only [Server.modify, Function.update_self] using havailable
    · cases hr
      exact ⟨hunused.registered, hunused.idle, hunused.gone⟩

/-- **Everyone who waited is called back**, one after the other. -/
theorem runCallbacks (h : Sound s) (now : ℤ) {callbacks : List PublicationCallback}
    (hnodup : (callbacks.map (·.registration)).Nodup)
    (hunused : ∀ callback ∈ callbacks, Unused s callback.registration)
    (havailable : ∀ callback ∈ callbacks,
      s.gate.isAvailable (s.upgrades callback.upgrade).targetVersion) :
    Sound (callbacks.foldl (fun s callback => s.runCallback callback now) s) := by
  induction callbacks generalizing s with
  | nil => exact h
  | cons callback callbacks ih =>
    rw [List.map_cons, List.nodup_cons] at hnodup
    obtain ⟨hunused₀, hunused⟩ := List.forall_mem_cons.1 hunused
    obtain ⟨havailable₀, havailable⟩ := List.forall_mem_cons.1 havailable
    have hcontinues : Continues callback.registration s (s.runCallback callback now) :=
      .runCallback callback now
    refine ih (h.runCallback now havailable₀ hunused₀) hnodup.2 (fun c hc => ?_) fun c hc => ?_
    · refine hcontinues.unused (fun heq => hnodup.1 ?_) (hunused c hc)
      exact List.mem_map.2 ⟨c, hc, heq⟩
    · rw [hcontinues.gate, hcontinues.versions]
      exact havailable c hc

theorem markPublished (h : Sound s) (v : String) (now : ℤ) : Sound (s.markPublished v now) := by
  obtain ⟨hpublished, hunused⟩ := h.publish v
  refine hpublished.runCallbacks now (h.nodup v) hunused fun callback hmem => Or.inr ?_
  dsimp only
  rw [(h.owner v callback hmem).2, Function.update_self]
  rfl

theorem finishProbe (h : Sound s) (retryDelaysMs : List ℤ) (v : String)
    (result : Option DaemonUpgradePublicationProbeResult) (now : ℤ) :
    Sound (s.finishProbe retryDelaysMs v result now) := by
  rw [Server.finishProbe]
  split
  · exact h
  split
  · have hended : Sound { s with gate := Function.update s.gate v { s.gate v with
        inFlight := false, lastStatusCode := result.bind (·.statusCode) } } :=
      h.of_record rfl rfl
    exact hended.markPublished v now
  · refine h.of_record ?_ ?_ <;> (rw [PublicationRecord.scheduleRetry]; split <;> rfl)

theorem fireProbeTimer (h : Sound s) (v : String) : Sound (s.fireProbeTimer v) := by
  rw [Server.fireProbeTimer]
  split
  · exact h.of_record rfl rfl
  · exact h

theorem askedElsewhere (h : Sound s) (v : String) :
    Sound { s with gate := (s.gate.ensurePublished v none).1 } := by
  rw [PublicationGate.ensurePublished]
  split
  · exact h
  · refine h.of_record ?_ ?_
    · split <;> rfl
    · split <;> exact List.append_nil _

/-- Every step keeps it. -/
theorem step (h : Sound s) (retryDelaysMs : List ℤ) (event : UpgradeEvent) :
    Sound (s.step retryDelaysMs event) := by
  cases event with
  | request targetVersion source input now => exact h.request targetVersion source
  | flushPending input now =>
    have hflushed : Sound (s.flushPending input now).1 := h.flushPending
    rw [Server.step, Server.flushed]
    split
    · exact hflushed.of_world hflushed.known
    · exact hflushed
  | retryAutoAfterBlocked input retryDelayMs now => exact h.retryAutoAfterBlocked
  | clearIfTargetVersionMatches targetVersion => exact h.clearIfTargetVersionMatches targetVersion
  | timer u => exact h.fireTimer u
  | probed v result now => exact h.finishProbe retryDelaysMs v result now
  | probeTimer v => exact h.fireProbeTimer v
  | askedElsewhere v => exact h.askedElsewhere v
  | ready isDaemonReady => exact h.of_world h.known
  | still input isCurrent => exact h.of_world h.known

end Sound

theorem sound_start : Sound {} where
  right := traced_nil
  reported v hv := nomatch hv
  available u hu := hu.elim (absurd rfl) (nomatch ·)
  attempts u := ⟨Nat.zero_le _, Nat.zero_le _⟩
  fresh u _ := rfl
  latest earlier u time cause since heq _ := absurd heq (by simp)
  once r := Nat.zero_le _
  unregistered r _ := rfl
  waiting v callback hmem := nomatch hmem
  apart v w a ha b hb _ := nomatch ha
  nodup v := List.nodup_nil
  known u hu := nomatch hu
  owner v callback hmem := nomatch hmem

theorem sound_run (retryDelaysMs : List ℤ) (events : List UpgradeEvent) :
    Sound (run retryDelaysMs events) :=
  run_invariant_all Sound (fun _ event h => h.step retryDelaysMs event) sound_start events

/-- **Upgrade commands are safe.**  Whatever is sent names the version of the upgrade that
is current, which is the latest or was reported before, and the daemon is ready.  A callback
does one thing at most; an upgrade is scheduled three times at most; and what is scheduled
is so after a while, unless the upgrades were cleared since. -/
theorem upgrade_commands_are_safe (retryDelaysMs : List ℤ) (events : List UpgradeEvent) :
    (∀ before message, before ++ [.sent message] <+: (run retryDelaysMs events).log →
      message.current = some (message.upgradeId, message.version) ∧
        message.isDaemonReady = true ∧
          (message.version = DAEMON_UPGRADE_TARGET_LATEST ∨ .reported message.version ∈ before)) ∧
    (∀ registration, (run retryDelaysMs events).log.countP (·.isOfCallback registration) ≤ 1) ∧
    (∀ u, (run retryDelaysMs events).log.countP (·.schedules u) ≤ 3) ∧
    ∀ earlier u time cause since u' time' cause',
      earlier ++ [.scheduled u time cause] ++ since ++ [.scheduled u' time' cause'] <+:
          (run retryDelaysMs events).log →
        .cleared ∉ since → time + AUTO_UPGRADE_MIN_INTERVAL_MS ≤ time' := by
  have hsound := sound_run retryDelaysMs events
  refine ⟨fun before message hpre => hsound.right before _ hpre, hsound.once,
    fun u => (hsound.attempts u).2, ?_⟩
  intro earlier u time cause since u' time' cause' hpre hcleared
  refine hsound.right _ _ hpre earlier u time cause since ?_ hcleared
  rw [List.append_assoc, List.singleton_append]

end Imcodes.Upgrade
