import Imcodes.Bridge.Guarded

/-!
# The order of commands

* `Inflight.Timely` — a command comes when every command in flight was sent once already, or was
  passed over because a look at it threw, or while the daemon is away, and the clock does not go
  back; and a timer finds the command of its own.
* `Inflight.InOrder` — what every timely step keeps.
* `sendOrder_run` — **commands reach the daemon in the order in which they were taken**, over every
  run of timely steps: before the first copy of a command, each that was taken before it was sent,
  or has ended, or was passed over.

A command that comes between the authentication of a daemon and the replay overtakes those that
wait for the replay.
-/

namespace Imcodes.Bridge

open Machine

namespace Inflight

variable {s s' : Inflight} {sha256Hex : String → String} {n : ℕ} {l : List ℕ}

def IsLive (s : Inflight) (n : ℕ) : Prop := n ∈ s.inflightCommands.values

/-- A command was sent. -/
def IsCopied (s : Inflight) (n : ℕ) : Prop := 0 < (s.entries n).dispatchAttempts

/-- A command was sent, or passed over: a look at it threw before it was sent at all. -/
def IsPassed (s : Inflight) (n : ℕ) : Prop := s.IsCopied n ∨ (n, 0) ∈ s.thrown

/-- The step does not let a command overtake another. -/
def Timely (s : Inflight) : InflightEvent → Prop
  | .send id _ now => s.inflightCommands.get? id = none →
      (∀ n ∈ s.inflightCommands.values, (s.entries n).sentAt ≤ now) ∧
        (s.link.isDaemonConnected = true → ∀ n ∈ s.inflightCommands.values, s.IsPassed n)
  | .ackTimeout n => ∀ m ∈ s.inflightCommands.get? (s.entries n).commandId, m = n
  | _ => True

instance : Decidable (s.IsCopied n) := inferInstanceAs (Decidable (0 < _))

instance : Decidable (s.IsPassed n) := inferInstanceAs (Decidable (_ ∨ _))

instance : ∀ e, Decidable (s.Timely e)
  | .send .. => inferInstanceAs (Decidable (_ → _ ∧ (_ → _)))
  | .ackTimeout _ => inferInstanceAs (Decidable (∀ m ∈ _, m = _))
  | .link _ => isTrue trivial
  | .revalidated .. => isTrue trivial
  | .revalidationThrew _ => isTrue trivial
  | .graceExpired => isTrue trivial
  | .ack .. => isTrue trivial
  | .echo _ => isTrue trivial
  | .sweep _ => isTrue trivial

/-- What is sent in the order of a list overtakes nothing. -/
structure Covers (s : Inflight) (l : List ℕ) : Prop where
  increasing : l.Pairwise (· < ·)
  before : ∀ b ∈ l, ∀ a < b, s.IsLive a → s.IsPassed a ∨ a ∈ l

/-- A command was sent when all before it had been sent, or had ended, or were passed over. -/
def SentInOrder (s : Inflight) : Prop :=
  Traced (fun before b => ∀ a < b, a ∈ before ∨ a ∈ s.ended.map Prod.fst ∨ (a, 0) ∈ s.thrown)
    (s.sent.map Prod.fst)

structure InOrder (s : Inflight) : Prop where
  increasing : s.inflightCommands.values.Pairwise (· < ·)
  clocked : ∀ a b, s.IsLive a → s.IsLive b → a < b → (s.entries a).sentAt ≤ (s.entries b).sentAt
  timed : ∀ n, (s.entries n).timeoutTimer = true → s.IsCopied n
  ready : ∀ r ∈ s.revalidations, s.Covers (comesTo r)
  ordered : s.SentInOrder

/-! ## What takes commands out of flight, and sends none -/

structure Shrinks (s s' : Inflight) : Prop where
  values : s'.inflightCommands.values.Sublist s.inflightCommands.values
  sentAt : ∀ n, (s'.entries n).sentAt = (s.entries n).sentAt
  attempts : ∀ n, (s'.entries n).dispatchAttempts = (s.entries n).dispatchAttempts
  timer : ∀ n, (s'.entries n).timeoutTimer = true → (s.entries n).timeoutTimer = true
  revalidations : ∀ r ∈ s'.revalidations, r ∈ s.revalidations
  sent : s'.sent = s.sent
  ended : ∀ n ∈ s.ended.map Prod.fst, n ∈ s'.ended.map Prod.fst
  thrown : ∀ t ∈ s.thrown, t ∈ s'.thrown

theorem Shrinks.refl (s : Inflight) : Shrinks s s :=
  ⟨.refl _, fun _ => rfl, fun _ => rfl, fun _ h => h, fun _ h => h, rfl, fun _ h => h, fun _ h => h⟩

theorem Shrinks.trans {s'' : Inflight} (h : Shrinks s s') (h' : Shrinks s' s'') : Shrinks s s'' :=
  ⟨h'.values.trans h.values, fun n => (h'.sentAt n).trans (h.sentAt n),
    fun n => (h'.attempts n).trans (h.attempts n), fun n hn => h.timer n (h'.timer n hn),
    fun r hr => h.revalidations r (h'.revalidations r hr), h'.sent.trans h.sent,
    fun n hn => h'.ended n (h.ended n hn), fun t ht => h'.thrown t (h.thrown t ht)⟩

theorem Shrinks.isLive (h : Shrinks s s') (hn : s'.IsLive n) : s.IsLive n := h.values.subset hn

theorem Shrinks.isCopied (h : Shrinks s s') : s'.IsCopied n ↔ s.IsCopied n := by
  rw [IsCopied, IsCopied, h.attempts]

theorem Shrinks.isPassed (h : Shrinks s s') (hn : s.IsPassed n) : s'.IsPassed n :=
  hn.imp h.isCopied.2 (h.thrown _)

theorem Covers.mono (h : s.Covers l) (hlive : ∀ a, s'.IsLive a → s.IsLive a)
    (hpassed : ∀ a, s.IsPassed a → s'.IsPassed a) : s'.Covers l :=
  ⟨h.increasing, fun b hb a hab ha => (h.before b hb a hab (hlive a ha)).imp_left (hpassed a)⟩

/-- The first of the list was sent or passed over, or is out of flight. -/
theorem Covers.tail (h : s.Covers (n :: l)) (hlive : ∀ a, s'.IsLive a → s.IsLive a)
    (hpassed : ∀ a, s.IsPassed a → s'.IsPassed a) (hn : s'.IsLive n → s'.IsPassed n) :
    s'.Covers l := by
  refine ⟨(List.pairwise_cons.1 h.increasing).2, fun b hb a hab ha => ?_⟩
  rcases h.before b (List.mem_cons_of_mem _ hb) a hab (hlive a ha) with hpass | hmem
  · exact .inl (hpassed a hpass)
  · rcases List.mem_cons.1 hmem with rfl | hmem
    · exact .inl (hn ha)
    · exact .inr hmem

/-- All before the first of the list were sent or passed over. -/
theorem Covers.head (h : s.Covers (n :: l)) : ∀ a < n, s.IsLive a → s.IsPassed a := by
  intro a ha hlive
  refine (h.before n List.mem_cons_self a ha hlive).resolve_right fun hmem => ?_
  rcases List.mem_cons.1 hmem with rfl | hmem
  · exact Nat.lt_irrefl _ ha
  · exact Nat.lt_asymm ha ((List.pairwise_cons.1 h.increasing).1 a hmem)

theorem InOrder.shrinks (h : s.InOrder) (hs : Shrinks s s') : s'.InOrder where
  increasing := h.increasing.sublist hs.values
  clocked := fun a b ha hb hab => by
    rw [hs.sentAt, hs.sentAt]
    exact h.clocked a b (hs.isLive ha) (hs.isLive hb) hab
  timed := fun n hn => hs.isCopied.2 (h.timed n (hs.timer n hn))
  ready := fun r hr => (h.ready r (hs.revalidations r hr)).mono (fun _ => hs.isLive)
    fun _ => hs.isPassed
  ordered := by
    rw [SentInOrder, hs.sent]
    exact h.ordered.imp fun _ _ hb a hab => (hb a hab).imp_right (.imp (hs.ended a) (hs.thrown _))

theorem shrinks_setEntry {entry : InflightCommand} (hsentAt : entry.sentAt = (s.entries n).sentAt)
    (hattempts : entry.dispatchAttempts = (s.entries n).dispatchAttempts)
    (htimer : entry.timeoutTimer = true → (s.entries n).timeoutTimer = true) :
    Shrinks s (s.setEntry n entry) := by
  refine ⟨.refl _, fun m => ?_, fun m => ?_, fun m hm => ?_, fun _ h => h, rfl, fun _ h => h,
    fun _ h => h⟩
  · by_cases hmn : m = n <;> simp [setEntry, hmn, hsentAt]
  · by_cases hmn : m = n <;> simp [setEntry, hmn, hattempts]
  · by_cases hmn : m = n
    · subst hmn
      exact htimer (by simpa [setEntry] using hm)
    · simpa [setEntry, hmn] using hm

theorem shrinks_removeInflight (s : Inflight) (id : String) (ending : Ending) :
    Shrinks s (s.removeInflight id ending) := by
  rw [removeInflight]
  cases s.inflightCommands.get? id with
  | none => exact .refl s
  | some n =>
    have hset : Shrinks s (s.setEntry n { s.entries n with timeoutTimer := false }) :=
      shrinks_setEntry rfl rfl (by simp)
    refine ⟨OrderedMap.values_delete, hset.sentAt, hset.attempts, hset.timer, fun _ h => h, rfl,
      fun m hm => ?_, fun _ h => h⟩
    rw [List.map_append]
    exact List.mem_append_left _ hm

/-- A change of what has no part in the order. -/
theorem shrinks_of_eq (hcommands : s'.inflightCommands = s.inflightCommands)
    (hentries : s'.entries = s.entries) (hrevalidations : s'.revalidations = s.revalidations)
    (hsent : s'.sent = s.sent) (hended : s'.ended = s.ended) (hthrown : s'.thrown = s.thrown) :
    Shrinks s s' :=
  ⟨hcommands ▸ .refl _, fun _ => by rw [hentries], fun _ => by rw [hentries],
    fun _ h => hentries ▸ h, fun _ h => hrevalidations ▸ h, hsent, fun _ h => hended ▸ h,
    fun _ h => hthrown ▸ h⟩

theorem shrinks_fail (s : Inflight) (id : String) (reason : FailureReason) :
    Shrinks s (s.fail id reason) := by
  have hemit : Shrinks s (s.emitCommandFailed id reason) := shrinks_of_eq rfl rfl rfl rfl rfl rfl
  exact hemit.trans (shrinks_removeInflight ..)

theorem shrinks_foldl {α : Type} {f : Inflight → α → Inflight} (hf : ∀ s a, Shrinks s (f s a))
    (l : List α) (s : Inflight) : Shrinks s (l.foldl f s) := by
  induction l generalizing s with
  | nil => exact .refl s
  | cons a l ih => exact (hf s a).trans (ih _)

/-! ## What sends commands -/

theorem Sound.isLive_iff {due : List ℕ} (h : s.Sound due) :
    s.IsLive n ↔ s.inflightCommands.get? (s.entries n).commandId = some n := by
  rw [IsLive, OrderedMap.mem_values]
  constructor
  · rintro ⟨id, hid⟩
    rwa [(h.live id n hid).2.1]
  · exact fun hid => ⟨_, hid⟩

/-- A command was sent when a copy of it was. -/
theorem Sound.isCopied_iff {due : List ℕ} (h : s.Sound due) :
    s.IsCopied n ↔ n ∈ s.sent.map Prod.fst := by
  rw [IsCopied, ← (h.numbered n).length, copies, List.length_map, List.length_pos_iff_exists_mem,
    List.mem_map]
  simp only [List.mem_filter, decide_eq_true_eq]

theorem Sound.lt_of_mem_sent {due : List ℕ} (h : s.Sound due) (hn : n ∈ s.sent.map Prod.fst) :
    n < s.registered := by
  by_contra hle
  have hcopied : 0 < (s.entries n).dispatchAttempts := h.isCopied_iff.2 hn
  rw [h.blank n (Nat.le_of_not_lt hle)] at hcopied
  exact Nat.lt_irrefl 0 hcopied

theorem isCopied_dispatch {mark : Bool} {m : ℕ} :
    (s.dispatch n mark).IsCopied m ↔ m = n ∨ s.IsCopied m := by
  by_cases hmn : m = n <;> simp [IsCopied, Inflight.dispatch, setEntry, hmn]

theorem isPassed_dispatch {mark : Bool} {m : ℕ} :
    (s.dispatch n mark).IsPassed m ↔ m = n ∨ s.IsPassed m := by
  rw [IsPassed, isCopied_dispatch, or_assoc]
  rfl

theorem InOrder.dispatch {due : List ℕ} {mark : Bool} (h : s.InOrder) (hs : s.Sound due)
    (hlt : n < s.registered) (hready : ∀ a < n, s.IsLive a → s.IsPassed a) :
    (s.dispatch n mark).InOrder where
  increasing := h.increasing
  clocked := fun a b ha hb hab => by
    have hsentAt (m : ℕ) : ((s.dispatch n mark).entries m).sentAt = (s.entries m).sentAt := by
      by_cases hmn : m = n <;> simp [Inflight.dispatch, setEntry, hmn]
    rw [hsentAt, hsentAt]
    exact h.clocked a b ha hb hab
  timed := fun m hm => by
    rw [isCopied_dispatch]
    by_cases hmn : m = n
    · exact .inl hmn
    · exact .inr (h.timed m (by simpa [Inflight.dispatch, setEntry, hmn] using hm))
  ready := fun r hr =>
    (h.ready r hr).mono (fun _ ha => ha) fun _ ha => isPassed_dispatch.2 (.inr ha)
  ordered := by
    have hsent : (s.dispatch n mark).sent.map Prod.fst = s.sent.map Prod.fst ++ [n] := by
      simp [Inflight.dispatch]
    rw [SentInOrder, hsent, traced_concat]
    refine ⟨h.ordered, fun a ha => ?_⟩
    rcases hs.covered a (ha.trans hlt) with hget | hend
    · exact (hready a ha (hs.isLive_iff.2 hget)).imp hs.isCopied_iff.1 .inr
    · exact .inr (.inl hend)

theorem InOrder.revalidation (h : s.InOrder) {r : Revalidation} (hr : s.Covers (comesTo r)) :
    InOrder { s with revalidations := s.revalidations ++ [r] } :=
  { h with
    ready := fun r' hr' => by
      have hold : s.Covers (comesTo r') := by
        rcases List.mem_append.1 hr' with hr' | hr'
        · exact h.ready r' hr'
        · exact List.mem_singleton.1 hr' ▸ hr
      exact hold.mono (fun _ ha => ha) fun _ ha => ha }

theorem covers_singleton (hready : ∀ a < n, s.IsLive a → s.IsPassed a) : s.Covers [n] :=
  ⟨List.pairwise_singleton .., fun _ hb a hab ha =>
    .inl (hready a (List.mem_singleton.1 hb ▸ hab) ha)⟩

theorem InOrder.dispatchInflightToDaemon {due : List ℕ} {mark : Bool} (h : s.InOrder)
    (hs : s.Sound due) (hlt : n < s.registered) (hready : ∀ a < n, s.IsLive a → s.IsPassed a) :
    (s.dispatchInflightToDaemon n mark).InOrder := by
  rw [Inflight.dispatchInflightToDaemon]
  split
  · exact h.revalidation (covers_singleton hready)
  · exact h.dispatch hs hlt hready

theorem InOrder.replayFrom {handler : ℕ} {due : List ℕ} (h : s.InOrder) (hs : s.Sound due)
    (hlt : ∀ n ∈ due, n < s.registered) (hcovers : s.Covers due) :
    (Inflight.replayFrom sha256Hex handler due s).InOrder := by
  induction due generalizing s with
  | nil => exact h.shrinks (shrinks_of_eq rfl rfl rfl rfl rfl rfl)
  | cons n rest ih =>
    have hrest : ∀ m ∈ rest, m < s.registered := fun m hm => hlt m (List.mem_cons_of_mem _ hm)
    rw [Inflight.replayFrom]
    split
    · rename_i hacked
      have hnot : ¬ s.IsLive n := fun hlive =>
        (hs.live _ n (hs.isLive_iff.1 hlive)).2.2.1 hacked
      refine ih h (hs.settled fun hget => hnot (hs.isLive_iff.2 hget)) hrest ?_
      exact hcovers.tail (fun _ ha => ha) (fun _ ha => ha) fun hlive => absurd hlive hnot
    · split
      · exact h.revalidation hcovers
      · have hmark : (decide (0 < (s.entries n).dispatchAttempts)) = false →
            (s.entries n).share = false → (s.entries n).dispatchAttempts = 0 :=
          fun hmark _ => by simpa using hmark
        refine ih (h.dispatch hs (hlt n List.mem_cons_self) hcovers.head)
          (hs.dispatch (hlt n List.mem_cons_self) hmark) hrest ?_
        exact hcovers.tail (fun _ ha => ha) (fun _ ha => isPassed_dispatch.2 (.inr ha))
          fun _ => isPassed_dispatch.2 (.inl rfl)

/-! ## The steps -/

theorem Sound.lt_of_isLive {due : List ℕ} (h : s.Sound due) (hn : s.IsLive n) : n < s.registered :=
  (h.live _ n (h.isLive_iff.1 hn)).1

/-- A command that is registered comes last. -/
theorem InOrder.register {id : String} {share : Bool} {state : InflightState} {now : ℕ}
    (h : s.InOrder) (hs : s.Sound []) (hid : s.inflightCommands.get? id = none)
    (hnow : ∀ n, s.IsLive n → (s.entries n).sentAt ≤ now) :
    (s.register id share state now).startAckHousekeepingIfNeeded.InOrder := by
  have hvalues : (s.inflightCommands.set id s.registered).values =
      s.inflightCommands.values ++ [s.registered] := OrderedMap.values_set hid
  have hlive {m : ℕ} (hm : (s.register id share state now).startAckHousekeepingIfNeeded.IsLive m) :
      s.IsLive m ∨ m = s.registered := by
    have hmem : m ∈ (s.inflightCommands.set id s.registered).values := hm
    rwa [hvalues, List.mem_append, List.mem_singleton] at hmem
  have hentry {m : ℕ} (hm : m ≠ s.registered) :
      (s.register id share state now).startAckHousekeepingIfNeeded.entries m = s.entries m :=
    Function.update_of_ne hm _ _
  have hnew : (s.register id share state now).startAckHousekeepingIfNeeded.entries s.registered =
      { commandId := id, share, state, sentAt := now } := Function.update_self ..
  have hpassed {m : ℕ} (hm : m < s.registered) (hpass : s.IsPassed m) :
      (s.register id share state now).startAckHousekeepingIfNeeded.IsPassed m := by
    rwa [IsPassed, IsCopied, hentry hm.ne]
  refine ⟨?_, fun a b ha hb hab => ?_, fun m hm => ?_, fun r hr => ?_, h.ordered⟩
  · refine hvalues ▸ List.pairwise_append.2 ⟨h.increasing, List.pairwise_singleton .., ?_⟩
    exact fun a ha b hb => List.mem_singleton.1 hb ▸ hs.lt_of_isLive ha
  · rcases hlive ha with ha | rfl
    · rw [hentry (hs.lt_of_isLive ha).ne]
      rcases hlive hb with hb | rfl
      · rw [hentry (hs.lt_of_isLive hb).ne]
        exact h.clocked a b ha hb hab
      · rw [hnew]
        exact hnow a ha
    · rcases hlive hb with hb | rfl
      · exact absurd hab (Nat.lt_asymm (hs.lt_of_isLive hb))
      · exact absurd hab (Nat.lt_irrefl _)
  · by_cases hne : m = s.registered
    · rw [hne, hnew] at hm
      cases hm
    · rw [hentry hne] at hm
      rw [IsCopied, hentry hne]
      exact h.timed m hm
  · refine ⟨(h.ready r hr).increasing, fun b hb a hab ha => ?_⟩
    have hlt := hab.trans ((hs.comes r hr).2 b hb)
    have ha' := (hlive ha).resolve_right hlt.ne
    exact ((h.ready r hr).before b hb a hab ha').imp_left (hpassed hlt)

theorem inOrder_send {id : String} {share : Bool} {now : ℕ} (h : s.InOrder) (hs : s.Sound [])
    (htimely : s.Timely (.send id share now)) :
    (s.handleOutboundSessionSend id share now).InOrder := by
  rw [handleOutboundSessionSend]
  split
  · exact h
  · rename_i hnone
    have hid : s.inflightCommands.get? id = none := by simpa using hnone
    obtain ⟨hnow, hpassed⟩ := htimely hid
    split
    · rename_i hconnected
      dsimp only
      rw [startAckHousekeepingIfNeeded_dispatch]
      refine (h.register hs hid hnow).dispatchInflightToDaemon (hs.register hid (by decide))
        (Nat.lt_succ_self _) fun a ha hlive => ?_
      have hentry : (s.register id share .dispatched now).startAckHousekeepingIfNeeded.entries a =
          s.entries a := Function.update_of_ne ha.ne _ _
      have hmem : a ∈ (s.inflightCommands.set id s.registered).values := hlive
      rw [OrderedMap.values_set hid, List.mem_append, List.mem_singleton] at hmem
      rw [IsPassed, IsCopied, hentry]
      exact hpassed hconnected a (hmem.resolve_right ha.ne)
    · split
      · exact h.register hs hid hnow
      · exact h.shrinks (shrinks_of_eq rfl rfl rfl rfl rfl rfl)

theorem get?_removeInflight (s : Inflight) (id : String) (ending : Ending) :
    (s.removeInflight id ending).inflightCommands.get? id = none := by
  rw [removeInflight]
  split
  · assumption
  · exact OrderedMap.get?_delete.trans (if_pos rfl)

/-- A command that was given up is out of flight. -/
theorem Sound.not_isLive_fail {due : List ℕ} {reason : FailureReason} (h : s.Sound (n :: due)) :
    ¬ (s.fail (s.entries n).commandId reason).IsLive n := by
  have hgone : (s.fail (s.entries n).commandId reason).inflightCommands.get?
      (s.entries n).commandId = none := get?_removeInflight ..
  rw [(h.fail reason rfl).isLive_iff, Inflight.fail, commandId_removeInflight]
  exact fun hget => Option.some_ne_none n (hget.symm.trans hgone)

theorem inOrder_revalidated {index : ℕ} {refusal : Option FailureReason} (h : s.InOrder)
    (hs : s.Sound []) : (s.revalidated sha256Hex index refusal).InOrder := by
  rw [Inflight.revalidated]
  split
  · exact h
  · rename_i r hr
    have hmem := List.mem_of_getElem? hr
    obtain ⟨hshare, hlt⟩ := hs.comes r hmem
    have hs' := hs.taken hr
    let taken : Inflight := { s with revalidations := s.revalidations.eraseIdx index }
    have hshrinks : Shrinks s taken :=
      { Shrinks.refl s with revalidations := fun r' hr' => List.mem_of_mem_eraseIdx hr' }
    have h' := h.shrinks hshrinks
    have hcovers := (h.ready r hmem).mono (fun _ => hshrinks.isLive) fun _ => hshrinks.isPassed
    have hrest : ∀ n ∈ r.replay.elim [] Replay.rest, n < s.registered := fun n hn =>
      hlt n (List.mem_cons_of_mem _ hn)
    cases refusal with
    | none =>
      have hmark : r.markBridgeRetry = false → (s.entries r.entry).share = false →
          (s.entries r.entry).dispatchAttempts = 0 :=
        fun _ hnot => absurd hshare (by simpa using hnot)
      have hs'' := hs'.dispatch (hlt _ List.mem_cons_self) hmark
      have h'' := @InOrder.dispatch taken _ _ r.markBridgeRetry h' hs' (hlt _ List.mem_cons_self)
        hcovers.head
      have hcovers'' : (taken.dispatch r.entry r.markBridgeRetry).Covers
          (r.replay.elim [] Replay.rest) :=
        hcovers.tail (fun _ ha => ha) (fun _ ha => isPassed_dispatch.2 (.inr ha))
          fun _ => isPassed_dispatch.2 (.inl rfl)
      dsimp only
      split
      · exact h''
      · rename_i replay hreplay
        rw [hreplay] at hs'' hcovers'' hrest
        exact h''.replayFrom hs'' hrest hcovers''
    | some reason =>
      have hfail := shrinks_fail taken (s.entries r.entry).commandId reason
      have hs'' := hs'.fail reason rfl
      have hgone := @Sound.not_isLive_fail _ _ _ reason hs'
      have hcovers'' := hcovers.tail (fun _ => hfail.isLive) (fun _ => hfail.isPassed)
        fun hlive => absurd hlive hgone
      dsimp only
      split
      · exact h'.shrinks hfail
      · rename_i replay hreplay
        rw [hreplay] at hs'' hcovers'' hrest
        refine (h'.shrinks hfail).replayFrom hs'' (fun n hn => ?_) hcovers''
        rw [Inflight.fail, registered_removeInflight]
        exact hrest n hn

theorem inOrder_revalidationThrew {index : ℕ} (h : s.InOrder) (hs : s.Sound []) :
    (s.revalidationThrew sha256Hex index).InOrder := by
  rw [Inflight.revalidationThrew]
  split
  · exact h
  · rename_i r hr
    obtain ⟨hshare, hlt⟩ := hs.comes r (List.mem_of_getElem? hr)
    have hthrown := (hs.taken hr).throws hshare (hlt _ List.mem_cons_self)
    let thrown : Inflight :=
      { s with
        revalidations := s.revalidations.eraseIdx index
        thrown := s.thrown ++ [(r.entry, (s.entries r.entry).dispatchAttempts)] }
    have hshrinks : Shrinks s thrown :=
      { Shrinks.refl s with
        revalidations := fun r' hr' => List.mem_of_mem_eraseIdx hr'
        thrown := fun t ht => List.mem_append_left _ ht }
    have h' := h.shrinks hshrinks
    -- the command was sent before, or is passed over now
    have hpassed : thrown.IsPassed r.entry := by
      rcases Nat.eq_zero_or_pos (s.entries r.entry).dispatchAttempts with hzero | hpos
      · exact .inr (List.mem_append_right _ (List.mem_singleton.2 (by rw [hzero])))
      · exact .inl hpos
    have hcovers : thrown.Covers (r.replay.elim [] Replay.rest) :=
      (h.ready r (List.mem_of_getElem? hr)).tail (fun _ => hshrinks.isLive)
        (fun _ => hshrinks.isPassed) fun _ => hpassed
    dsimp only
    split
    · exact h'
    · rename_i replay hreplay
      rw [hreplay] at hthrown hcovers
      refine h'.replayFrom hthrown (fun n hn => hlt n ?_) hcovers
      rw [comesTo, hreplay]
      exact List.mem_cons_of_mem _ hn

/-- Whatever is before a command that was sent was sent or passed over. -/
theorem InOrder.passed_of_lt {due : List ℕ} {a : ℕ} (h : s.InOrder) (hs : s.Sound due)
    (hn : s.IsCopied n) (ha : a < n) (hlive : s.IsLive a) : s.IsPassed a := by
  have hended : a ∉ s.ended.map Prod.fst := (hs.live _ a (hs.isLive_iff.1 hlive)).2.2.2
  obtain ⟨before, after, hsplit⟩ := List.append_of_mem (hs.isCopied_iff.1 hn)
  have hpre : before ++ [n] <+: s.sent.map Prod.fst := ⟨after, by simp [hsplit]⟩
  rcases h.ordered before n hpre a ha with hbefore | hend | hthrown
  · refine .inl (hs.isCopied_iff.2 ?_)
    rw [hsplit]
    exact List.mem_append_left _ hbefore
  · exact absurd hend hended
  · exact .inr hthrown

theorem inOrder_onAckTimeout (h : s.InOrder) (hs : s.Sound [n]) (hn : s.IsCopied n)
    (htimely : ∀ m, s.inflightCommands.get? (s.entries n).commandId = some m → m = n) :
    (s.onAckTimeout (s.entries n).commandId).InOrder := by
  rw [onAckTimeout]
  split
  · exact h
  · rename_i m hget
    obtain rfl := htimely m hget
    dsimp only
    split
    · exact h
    · split
      · have hlive : s.IsLive m := hs.isLive_iff.2 hget
        exact h.dispatchInflightToDaemon hs (hs.lt_of_isLive hlive) fun a ha hlive =>
          h.passed_of_lt hs hn ha hlive
      · split
        · exact h.shrinks (shrinks_setEntry rfl rfl (by simp))
        · exact h.shrinks (shrinks_fail ..)

theorem inOrder_ackTimeout (h : s.InOrder) (hs : s.Sound []) (htimely : s.Timely (.ackTimeout n)) :
    (s.step sha256Hex (.ackTimeout n)).InOrder := by
  rw [step]
  split
  · rename_i htimer
    have hset : Shrinks s (s.setEntry n { s.entries n with timeoutTimer := false }) :=
      shrinks_setEntry rfl rfl (by simp)
    have hs' : (s.setEntry n { s.entries n with timeoutTimer := false }).Sound [n] :=
      (hs.mono (List.nil_subset _)).setEntry rfl rfl rfl (fun id hid => (hs.live id n hid).2.2.1)
        fun hn => absurd (List.mem_singleton_self n) hn
    have hown : ∀ m, s.inflightCommands.get? (s.entries n).commandId = some m → m = n := htimely
    have := inOrder_onAckTimeout (h.shrinks hset) hs' (hset.isCopied.2 (h.timed n htimer))
      (by simpa [Inflight.setEntry] using hown)
    simpa [Inflight.setEntry] using this
  · exact h

theorem InOrder.replayInflightToDaemon {handler : ℕ} (h : s.InOrder)
    (hs : s.Sound s.inflightCommands.values) :
    (s.replayInflightToDaemon sha256Hex handler).InOrder := by
  have hsorted : s.inflightCommands.values.Pairwise fun n m =>
      (s.entries n).sentAt ≤ (s.entries m).sentAt := by
    refine h.increasing.imp_of_mem fun ha hb hab => h.clocked _ _ ha hb hab
  rw [Inflight.replayInflightToDaemon, hsorted.insertionSort_eq]
  exact h.replayFrom hs (fun n hn => hs.lt_of_isLive hn) ⟨h.increasing, fun _ _ _ _ ha => .inr ha⟩

theorem inOrder_link {event : LinkEvent} (h : s.InOrder) (hs : s.Sound []) :
    (s.stepLink sha256Hex event).InOrder := by
  by_cases hreplayed : ∃ n, event = .replayed n
  · obtain ⟨n, rfl⟩ := hreplayed
    exact h
  · obtain ⟨kicked, -, -, heq⟩ := stepLink_eq sha256Hex s (not_exists.1 hreplayed)
    rw [heq]
    rcases Link.step_acts sha256Hex s.link event with
      hacts | ⟨hacts, -⟩ | ⟨socket, handler, hacts⟩
    · rw [hacts]
      exact h.shrinks (shrinks_of_eq rfl rfl rfl rfl rfl rfl)
    · rw [hacts]
      exact h.shrinks (shrinks_of_eq rfl rfl rfl rfl rfl rfl)
    · rw [hacts]
      have hfresh := (Link.passes_step sha256Hex s.link event).fresh hs.fresh
      have hshrinks : Shrinks s
          { s with link := (s.link.step sha256Hex event).1, kicked, graceTimer := false } :=
        shrinks_of_eq rfl rfl rfl rfl rfl rfl
      exact (h.shrinks hshrinks).replayInflightToDaemon (hs.replays hfresh)

theorem inOrder_step (s : Inflight) (e : InflightEvent) (h : s.Sound [] ∧ s.InOrder)
    (htimely : s.Timely e) :
    (s.step sha256Hex e).Sound [] ∧ (s.step sha256Hex e).InOrder := by
  refine ⟨sound_step s e h.1, ?_⟩
  obtain ⟨hs, h⟩ := h
  cases e with
  | link event => exact inOrder_link h hs
  | send id share now => exact inOrder_send h hs htimely
  | revalidated index refusal => exact inOrder_revalidated h hs
  | revalidationThrew index => exact inOrder_revalidationThrew h hs
  | graceExpired =>
    rw [step]
    split
    · rw [onReconnectGraceExpired]
      have hgrace : InOrder { s with graceTimer := false } :=
        h.shrinks (shrinks_of_eq rfl rfl rfl rfl rfl rfl)
      split
      · exact hgrace
      · have hfail (s : Inflight) (entry : String × ℕ) :
            Shrinks s (s.fail entry.1 .daemonOffline) := shrinks_fail ..
        exact hgrace.shrinks (shrinks_foldl hfail ..)
    · exact h
  | ackTimeout n => exact inOrder_ackTimeout h hs htimely
  | ack id now =>
    rw [step, handleCommandAck]
    split
    · exact h
    · rw [clearInflightOnAck]
      have hseen : Shrinks s { s with seenCommandAcks := s.seenCommandAcks.set id now } :=
        shrinks_of_eq rfl rfl rfl rfl rfl rfl
      split
      · exact h.shrinks hseen
      · refine h.shrinks (hseen.trans ((shrinks_setEntry ?_ ?_ ?_).trans
          (shrinks_removeInflight ..)))
        · rfl
        · rfl
        · exact fun htimer => htimer
  | echo id => exact h.shrinks (shrinks_removeInflight ..)
  | sweep now =>
    rw [step]
    split
    · have hsweep (s : Inflight) (entry : String × ℕ) : Shrinks s (s.sweepInflight now entry) := by
        rw [sweepInflight]
        split
        · exact shrinks_removeInflight ..
        · exact .refl s
      have hfold := shrinks_foldl hsweep s.inflightCommands.toList s
      exact (h.shrinks hfold).shrinks (shrinks_of_eq rfl rfl rfl rfl rfl rfl)
    · exact h

theorem inOrder_start : InOrder {} where
  increasing := List.Pairwise.nil
  clocked := fun a b ha => absurd ha List.not_mem_nil
  timed := fun n hn => by cases hn
  ready := fun r hr => by cases hr
  ordered := traced_nil

/-- The commands of an absence go before those that come after the replay. -/
def absence : List InflightEvent :=
  [.link .connect, .link (.message 0 (.auth "t")),
    .link (.lookedUp 0 (.found (some { tokenHash := "t" }))), .send "a" false 0, .link (.closed 0),
    .send "b" true 1, .send "c" false 2, .link .connect, .link (.message 1 (.auth "t")),
    .link (.lookedUp 1 (.found (some { tokenHash := "t" }))), .revalidated 0 none,
    .send "d" false 3]

/-- A command at which the replay could not look is passed over, and sent after the next one. -/
example :
    let es : List InflightEvent := [.link .connect, .send "a" true 0, .send "b" false 1,
      .link (.message 0 (.auth "t")), .link (.lookedUp 0 (.found (some { tokenHash := "t" }))),
      .revalidationThrew 0, .send "c" false 2, .link (.closed 0), .link .connect,
      .link (.message 1 (.auth "t")),
      .link (.lookedUp 1 (.found (some { tokenHash := "t" }))), .revalidated 0 none]
    Along (step id) Timely es {} ∧
      (run (step id) es {}).sent = [(1, none), (2, none), (0, none), (1, some 2), (2, some 2)] ∧
      (run (step id) es {}).thrown = [(0, 0)] := by
  decide

/-- A command that comes while the replay looks at one of a share overtakes what is left of it. -/
example :
    let es : List InflightEvent := [.link .connect, .send "a" true 0, .send "b" false 1,
      .link (.message 0 (.auth "t")), .link (.lookedUp 0 (.found (some { tokenHash := "t" }))),
      .send "c" false 2, .revalidated 0 none]
    (run (step id) es {}).sent = [(2, none), (0, none), (1, none)] := by
  decide

end Inflight

end Imcodes.Bridge
