import Imcodes.Bridge.Expected
import Imcodes.Bridge.Inflight

/-!
# What becomes of a command in flight

* `Inflight.Awaited` — a command has a timer, or is looked at, or waits for a daemon that is
  expected; `Inflight.HasThrown` — a look at it threw.
* `Inflight.Sound` — what every step keeps, while some commands are yet to be dealt with.
* `inflight_run` — **no command is forgotten**: over every run, every registered command is in
  flight or has ended, exactly once; in flight, it is awaited and will be swept; and its copies are
  numbered.
-/

namespace Imcodes.Bridge

open Machine

namespace Inflight

variable {s : Inflight} {sha256Hex : String → String}

/-- The copies of a command, with the attempts with which they are marked. -/
def copies (s : Inflight) (n : ℕ) : List (Option ℕ) := (s.sent.filter (·.1 = n)).map Prod.snd

/-- The copies count the attempts.  One that is not marked is the first, but for a share. -/
structure Numbered (entry : InflightCommand) (copies : List (Option ℕ)) : Prop where
  length : copies.length = entry.dispatchAttempts
  mark : ∀ k copy, copies[k]? = some copy →
    copy = some (k + 1) ∨ copy = none ∧ (entry.share = false → k = 0)

/-- To which commands a revalidation and the replay behind it come. -/
def comesTo (r : Revalidation) : List ℕ := r.entry :: r.replay.elim [] Replay.rest

/-- Something will be done about a command. -/
def Awaited (s : Inflight) (n : ℕ) : Prop :=
  (s.entries n).timeoutTimer = true ∨ (∃ r ∈ s.revalidations, n ∈ comesTo r) ∨
    (s.entries n).state = .buffered ∧
      (s.graceTimer = true ∨ s.link.IsExpected ∨ s.kicked = true ∧ s.link.daemonWs = none)

/-- A look at a command has thrown since the command was last sent. -/
def HasThrown (s : Inflight) (n : ℕ) : Prop := (n, (s.entries n).dispatchAttempts) ∈ s.thrown

/-- The commands in flight, those of `due` yet to be dealt with. -/
structure Sound (s : Inflight) (due : List ℕ) : Prop where
  fresh : s.link.IsFresh
  graced : s.graceTimer = true → s.link.authenticated = true → ∃ n, s.link.Awaits n
  live : ∀ id n, s.inflightCommands.get? id = some n →
    n < s.registered ∧ (s.entries n).commandId = id ∧ (s.entries n).state ≠ .acked ∧
      n ∉ s.ended.map Prod.fst
  covered : ∀ n < s.registered,
    s.inflightCommands.get? (s.entries n).commandId = some n ∨ n ∈ s.ended.map Prod.fst
  once : (s.ended.map Prod.fst).Nodup
  past : ∀ n ∈ s.ended.map Prod.fst, n < s.registered
  told : ∀ n reason, (n, .failed reason) ∈ s.ended → ((s.entries n).commandId, reason) ∈ s.failures
  swept : ∀ id n, s.inflightCommands.get? id = some n → s.ackHousekeepingTimer = true
  comes : ∀ r ∈ s.revalidations,
    (s.entries r.entry).share = true ∧ ∀ n ∈ comesTo r, n < s.registered
  threw : ∀ t ∈ s.thrown, (s.entries t.1).share = true ∧ t.1 < s.registered
  blank : ∀ n, s.registered ≤ n → (s.entries n).dispatchAttempts = 0
  numbered : ∀ n, Numbered (s.entries n) (s.copies n)
  awaited : ∀ id n, s.inflightCommands.get? id = some n → n ∉ due → s.Awaited n ∨ s.HasThrown n

theorem Sound.mono {due due' : List ℕ} (h : s.Sound due) (hsub : due ⊆ due') : s.Sound due' :=
  { h with awaited := fun id n hid hn => h.awaited id n hid fun hmem => hn (hsub hmem) }

/-- A command that is not in flight needs not be dealt with. -/
theorem Sound.settled {due : List ℕ} {n : ℕ} (h : s.Sound (n :: due))
    (hn : s.inflightCommands.get? (s.entries n).commandId ≠ some n) : s.Sound due :=
  { h with
    awaited := fun id m hid hm => h.awaited id m hid fun hmem => by
      rcases List.mem_cons.1 hmem with rfl | hmem
      · exact hn (by rwa [(h.live id m hid).2.1])
      · exact hm hmem }

/-- A command is changed, and copies of it are sent. -/
theorem Sound.update {due : List ℕ} {n : ℕ} {entry : InflightCommand} {added : List (Option ℕ)}
    (h : s.Sound (n :: due)) (hid : entry.commandId = (s.entries n).commandId)
    (hshare : entry.share = (s.entries n).share)
    (hstate : ∀ id, s.inflightCommands.get? id = some n → entry.state ≠ .acked)
    (hblank : s.registered ≤ n → entry.dispatchAttempts = 0)
    (hnumbered : Numbered entry (s.copies n ++ added))
    (hawaited : n ∉ due → (s.setEntry n entry).Awaited n ∨ (s.setEntry n entry).HasThrown n) :
    Sound { s.setEntry n entry with sent := s.sent ++ added.map (Prod.mk n) } due := by
  have hids (m : ℕ) : ((s.setEntry n entry).entries m).commandId = (s.entries m).commandId := by
    by_cases hm : m = n <;> simp [Inflight.setEntry, hm, hid]
  have hshares (m : ℕ) : ((s.setEntry n entry).entries m).share = (s.entries m).share := by
    by_cases hm : m = n <;> simp [Inflight.setEntry, hm, hshare]
  have hentry {m : ℕ} (hm : m ≠ n) : (s.setEntry n entry).entries m = s.entries m :=
    Function.update_of_ne hm _ _
  refine
    { fresh := h.fresh
      graced := h.graced
      live := fun id m hm => ?_
      covered := fun m hm => ?_
      once := h.once
      past := h.past
      told := fun m reason hm => ?_
      swept := h.swept
      comes := fun r hr => ?_
      threw := fun t ht => ?_
      blank := fun m hm => ?_
      numbered := fun m => ?_
      awaited := fun id m hm hdue => ?_ }
  · obtain ⟨hlt, hidm, hstatem, hnot⟩ := h.live id m hm
    refine ⟨hlt, (hids m).trans hidm, ?_, hnot⟩
    by_cases hmn : m = n
    · subst hmn
      simpa [Inflight.setEntry] using hstate id hm
    · rwa [hentry hmn]
  · rw [hids]
    exact h.covered m hm
  · rw [hids]
    exact h.told m reason hm
  · rw [hshares]
    exact h.comes r hr
  · exact (hshares t.1).symm ▸ h.threw t ht
  · by_cases hmn : m = n
    · subst hmn
      simpa [Inflight.setEntry] using hblank hm
    · rw [hentry hmn]
      exact h.blank m hm
  · by_cases hmn : m = n
    · subst hmn
      simpa [Inflight.setEntry, copies, List.filter_map, Function.comp_def] using hnumbered
    · rw [hentry hmn]
      simpa [copies, List.filter_map, Function.comp_def, Ne.symm hmn] using h.numbered m
  · by_cases hmn : m = n
    · exact hmn ▸ hawaited (hmn ▸ hdue)
    · have := h.awaited id m hm fun hmem => (List.mem_cons.1 hmem).elim hmn hdue
      rwa [Awaited, HasThrown, hentry hmn]

/-- A command is changed, without its id, its kind and its attempts. -/
theorem Sound.setEntry {due : List ℕ} {n : ℕ} {entry : InflightCommand} (h : s.Sound (n :: due))
    (hid : entry.commandId = (s.entries n).commandId) (hshare : entry.share = (s.entries n).share)
    (hattempts : entry.dispatchAttempts = (s.entries n).dispatchAttempts)
    (hstate : ∀ id, s.inflightCommands.get? id = some n → entry.state ≠ .acked)
    (hawaited : n ∉ due → (s.setEntry n entry).Awaited n ∨ (s.setEntry n entry).HasThrown n) :
    (s.setEntry n entry).Sound due := by
  have hnumbered : Numbered entry (s.copies n ++ []) := by
    rw [List.append_nil]
    obtain ⟨hlength, hmark⟩ := h.numbered n
    exact ⟨hlength.trans hattempts.symm, fun k copy hk => hshare ▸ hmark k copy hk⟩
  have := h.update hid hshare hstate (fun hn => hattempts.trans (h.blank n hn)) hnumbered hawaited
  rwa [List.map_nil, List.append_nil] at this

theorem Numbered.next {entry entry' : InflightCommand} {copies : List (Option ℕ)} {mark : Bool}
    (h : Numbered entry copies) (hshare : entry'.share = entry.share)
    (hattempts : entry'.dispatchAttempts = entry.dispatchAttempts + 1)
    (hmark : mark = false → entry.share = false → entry.dispatchAttempts = 0) :
    Numbered entry' (copies ++ [if mark then some (entry.dispatchAttempts + 1) else none]) := by
  refine ⟨by simp [h.length, hattempts], fun k copy hk => ?_⟩
  rw [hshare]
  rcases lt_trichotomy k copies.length with hlt | rfl | hgt
  · rw [List.getElem?_append_left hlt] at hk
    exact h.mark k copy hk
  · rw [List.getElem?_concat_length] at hk
    obtain rfl := Option.some.inj hk
    cases mark with
    | true => exact .inl (by simp [h.length])
    | false => exact .inr ⟨rfl, fun hshare => h.length.trans (hmark rfl hshare)⟩
  · rw [List.getElem?_eq_none (by simp; omega)] at hk
    cases hk

/-- A command that is sent has a timer. -/
theorem Sound.dispatch {due : List ℕ} {n : ℕ} {mark : Bool} (h : s.Sound (n :: due))
    (hlt : n < s.registered)
    (hmark : mark = false → (s.entries n).share = false → (s.entries n).dispatchAttempts = 0) :
    (s.dispatch n mark).Sound due := by
  let entry : InflightCommand :=
    { s.entries n with
      dispatchAttempts := (s.entries n).dispatchAttempts + 1
      state := .dispatched
      timeoutTimer := true }
  refine @Sound.update s due n entry [_] h rfl rfl ?_ ?_ ?_ fun _ => .inl (.inl ?_)
  · exact fun _ _ => (by decide : InflightState.dispatched ≠ .acked)
  · exact fun hle => absurd hlt (Nat.not_lt.2 hle)
  · exact (h.numbered n).next rfl rfl hmark
  · simp [Inflight.setEntry, entry]

theorem Sound.delete {due : List ℕ} {n : ℕ} {id : String} {ending : Ending}
    (h : s.Sound (n :: due)) (hid : s.inflightCommands.get? id = some n)
    (htold : ∀ reason, ending = .failed reason → (id, reason) ∈ s.failures) :
    Sound { s with
      inflightCommands := s.inflightCommands.delete id, ended := s.ended ++ [(n, ending)] } due := by
  obtain ⟨hlt, hidn, hstate, hnot⟩ := h.live id n hid
  have hgone {id' : String} {m : ℕ} (hm : (s.inflightCommands.delete id).get? id' = some m) :
      s.inflightCommands.get? id' = some m ∧ m ≠ n := by
    rw [OrderedMap.get?_delete] at hm
    split at hm
    · cases hm
    · rename_i hne
      refine ⟨hm, ?_⟩
      rintro rfl
      exact hne ((h.live id' m hm).2.1.symm.trans hidn)
  refine
    { fresh := h.fresh
      graced := h.graced
      live := fun id' m hm => ?_
      covered := fun m hm => ?_
      once := ?_
      past := fun m hm => ?_
      told := fun m reason hm => ?_
      swept := fun id' m hm => h.swept id' m (hgone hm).1
      comes := h.comes
      threw := h.threw
      blank := h.blank
      numbered := h.numbered
      awaited := fun id' m hm hdue => h.awaited id' m (hgone hm).1 ?_ }
  · obtain ⟨hltm, hidm, hstatem, hnotm⟩ := h.live id' m (hgone hm).1
    refine ⟨hltm, hidm, hstatem, ?_⟩
    rw [List.map_append, List.mem_append, not_or]
    exact ⟨hnotm, by simpa using (hgone hm).2⟩
  · rw [List.map_append, List.mem_append, OrderedMap.get?_delete]
    by_cases hmn : m = n
    · exact .inr (.inr (by simp [hmn]))
    · rcases h.covered m hm with hget | hend
      · refine .inl ?_
        rw [if_neg, hget]
        intro heq
        rw [heq, hid] at hget
        exact hmn (Option.some.inj hget).symm
      · exact .inr (.inl hend)
  · rw [List.map_append]
    refine List.nodup_append.2 ⟨h.once, List.nodup_singleton _, ?_⟩
    rintro a ha b hb rfl
    obtain rfl := List.mem_singleton.1 hb
    exact hnot ha
  · rw [List.map_append] at hm
    rcases List.mem_append.1 hm with hm | hm
    · exact h.past m hm
    · obtain rfl := List.mem_singleton.1 hm
      exact hlt
  · rcases List.mem_append.1 hm with hm | hm
    · exact h.told m reason hm
    · obtain ⟨rfl, rfl⟩ := Prod.mk.inj (List.mem_singleton.1 hm)
      exact hidn ▸ htold reason rfl
  · exact fun hmem => (List.mem_cons.1 hmem).elim (hgone hm).2 hdue

/-- The end of a command. -/
theorem Sound.remove {due : List ℕ} {n : ℕ} {id : String} {ending : Ending}
    (h : s.Sound (n :: due)) (hid : s.inflightCommands.get? id = some n)
    (htold : ∀ reason, ending = .failed reason → (id, reason) ∈ s.failures) :
    (s.removeInflight id ending).Sound due := by
  have h' : (s.setEntry n { s.entries n with timeoutTimer := false }).Sound (n :: due) :=
    (h.mono (List.subset_cons_self ..)).setEntry rfl rfl rfl (fun id hid => (h.live id n hid).2.2.1)
      fun hn => absurd List.mem_cons_self hn
  rw [removeInflight, hid]
  exact h'.delete hid htold

theorem Sound.fail {due : List ℕ} {n : ℕ} {id : String} (reason : FailureReason)
    (h : s.Sound (n :: due)) (hid : (s.entries n).commandId = id) :
    (s.fail id reason).Sound due := by
  have h' : (s.emitCommandFailed id reason).Sound (n :: due) :=
    { h with told := fun m reason hm => List.mem_append_left _ (h.told m reason hm) }
  have htold : ∀ r, Ending.failed reason = .failed r →
      (id, r) ∈ (s.emitCommandFailed id reason).failures := by
    rintro r ⟨⟩
    simp [emitCommandFailed]
  rw [Inflight.fail]
  cases hget : s.inflightCommands.get? id with
  | none =>
    have hsame : (s.emitCommandFailed id reason).removeInflight id (.failed reason) =
        s.emitCommandFailed id reason := by
      rw [removeInflight]
      simp only [emitCommandFailed, hget]
    rw [hsame]
    refine h'.settled ?_
    simp [emitCommandFailed, hid, hget]
  | some m =>
    by_cases hmn : m = n
    · exact h'.remove (hmn ▸ hget) htold
    · refine Sound.remove (Sound.mono (h'.settled ?_) (List.subset_cons_self ..)) hget htold
      simpa [emitCommandFailed, hid, hget] using hmn

theorem Sound.dispatchInflightToDaemon {due : List ℕ} {n : ℕ} {mark : Bool}
    (h : s.Sound (n :: due)) (hlt : n < s.registered)
    (hmark : mark = false → (s.entries n).share = false → (s.entries n).dispatchAttempts = 0) :
    (s.dispatchInflightToDaemon n mark).Sound due := by
  rw [Inflight.dispatchInflightToDaemon]
  split
  · rename_i hshare
    refine
      { h with
        comes := fun r hr => ?_
        awaited := fun id m hid hm => ?_ }
    · rcases List.mem_append.1 hr with hr | hr
      · exact h.comes r hr
      · obtain rfl := List.mem_singleton.1 hr
        exact ⟨hshare, fun m hm => by simp [comesTo] at hm; exact hm ▸ hlt⟩
    · by_cases hmn : m = n
      · exact .inl (.inr (.inl ⟨_, List.mem_append_right _ (List.mem_singleton_self _),
          hmn ▸ List.mem_cons_self⟩))
      · have hnot : m ∉ n :: due := fun hmem => (List.mem_cons.1 hmem).elim hmn hm
        refine (h.awaited id m hid hnot).imp_left (.imp_right (.imp_left ?_))
        exact fun ⟨r, hr, hcomes⟩ => ⟨r, List.mem_append_left _ hr, hcomes⟩
  · exact h.dispatch hlt hmark

/-- The handler of a replay goes on. -/
theorem Sound.replayed {due : List ℕ} {handler : ℕ} (h : s.Sound due) :
    Sound { s with
      link := (s.link.step sha256Hex (.replayed handler)).1, ackHousekeepingTimer := true } due := by
  have hsame : s.link.SameDaemon (s.link.step sha256Hex (.replayed handler)).1 := by
    rw [Link.step]
    split
    · rw [Link.resume]
      split
      · exact ⟨rfl, rfl, rfl⟩
      · exact .refl _
    · exact .refl _
  have hawaits {n : ℕ} (hn : s.link.Awaits n) :
      (s.link.step sha256Hex (.replayed handler)).1.Awaits n :=
    Link.awaits_step h.fresh hn (by simp)
  refine
    { h with
      fresh := (Link.passes_step sha256Hex s.link _).fresh h.fresh
      graced := fun hgrace hauth => ?_
      swept := fun _ _ _ => rfl
      awaited := fun id n hid hn => ?_ }
  · obtain ⟨n, hn⟩ := h.graced hgrace (hsame.authenticated ▸ hauth)
    exact ⟨n, hawaits hn⟩
  · refine (h.awaited id n hid hn).imp_left
      (.imp_right (.imp_right (.imp_right (.imp_right (.imp ?_ ?_)))))
    · refine .imp (fun hshake => ?_) (Exists.imp fun m => hawaits)
      rwa [Link.daemonHandshakeInProgress, hsame.daemonWs, hsame.authenticated]
    · exact .imp_right hsame.daemonWs.trans

/-- A replay comes to all that it has not come to. -/
theorem Sound.replayFrom {handler : ℕ} {due : List ℕ} (h : s.Sound due)
    (hlt : ∀ n ∈ due, n < s.registered) :
    (Inflight.replayFrom sha256Hex handler due s).Sound [] := by
  induction due generalizing s with
  | nil => exact h.replayed
  | cons n rest ih =>
    have hrest : ∀ m ∈ rest, m < s.registered := fun m hm => hlt m (List.mem_cons_of_mem _ hm)
    rw [Inflight.replayFrom]
    split
    · rename_i hacked
      exact ih (h.settled fun hget => (h.live _ n hget).2.2.1 hacked) hrest
    · split
      · rename_i hshare
        refine
          { h with
            comes := fun r hr => ?_
            awaited := fun id m hid _ => ?_ }
        · rcases List.mem_append.1 hr with hr | hr
          · exact h.comes r hr
          · obtain rfl := List.mem_singleton.1 hr
            exact ⟨hshare, hlt⟩
        · by_cases hmem : m ∈ n :: rest
          · exact .inl (.inr (.inl ⟨_, List.mem_append_right _ (List.mem_singleton_self _), hmem⟩))
          · refine (h.awaited id m hid hmem).imp_left (.imp_right (.imp_left ?_))
            exact fun ⟨r, hr, hcomes⟩ => ⟨r, List.mem_append_left _ hr, hcomes⟩
      · refine ih (h.dispatch (hlt n List.mem_cons_self) fun hmark _ => ?_) hrest
        simpa using hmark

/-- A command that is registered is yet to be dealt with. -/
theorem Sound.register {id : String} {share : Bool} {state : InflightState} {now : ℕ}
    (h : s.Sound []) (hid : s.inflightCommands.get? id = none) (hstate : state ≠ .acked) :
    (s.register id share state now).startAckHousekeepingIfNeeded.Sound [s.registered] := by
  have hentry {m : ℕ} (hm : m ≠ s.registered) :
      (s.register id share state now).startAckHousekeepingIfNeeded.entries m = s.entries m :=
    Function.update_of_ne hm _ _
  have hnew : (s.register id share state now).startAckHousekeepingIfNeeded.entries s.registered =
      { commandId := id, share, state, sentAt := now } := Function.update_self ..
  have hended {m : ℕ} (hm : m ∈ s.ended.map Prod.fst) : m ≠ s.registered := (h.past m hm).ne
  have hget {id' : String} {m : ℕ}
      (hm : (s.inflightCommands.set id s.registered).get? id' = some m) :
      id' = id ∧ m = s.registered ∨ m ≠ s.registered ∧ s.inflightCommands.get? id' = some m := by
    rw [OrderedMap.get?_set] at hm
    split at hm
    · exact .inl ⟨‹_›, (Option.some.inj hm).symm⟩
    · exact .inr ⟨(h.live id' m hm).1.ne, hm⟩
  refine
    { fresh := h.fresh
      graced := h.graced
      live := fun id' m hm => ?_
      covered := fun m hm => ?_
      once := h.once
      past := fun m hm => (h.past m hm).trans (Nat.lt_succ_self _)
      told := fun m reason hm => ?_
      swept := fun _ _ _ => rfl
      comes := fun r hr => ?_
      threw := fun t ht => ?_
      blank := fun m hm => ?_
      numbered := fun m => ?_
      awaited := fun id' m hm hdue => ?_ }
  · rcases hget hm with ⟨rfl, rfl⟩ | ⟨hne, hold⟩
    · rw [hnew]
      exact ⟨Nat.lt_succ_self _, rfl, hstate, fun hmem => hended hmem rfl⟩
    · rw [hentry hne]
      obtain ⟨hlt, hrest⟩ := h.live id' m hold
      exact ⟨hlt.trans (Nat.lt_succ_self _), hrest⟩
  · have hset : (s.register id share state now).startAckHousekeepingIfNeeded.inflightCommands =
        s.inflightCommands.set id s.registered := rfl
    rw [hset, OrderedMap.get?_set]
    by_cases hne : m = s.registered
    · subst hne
      rw [hnew]
      exact .inl (if_pos rfl)
    · rw [hentry hne]
      refine (h.covered m ?_).imp_left fun hold => ?_
      · exact Nat.lt_of_le_of_ne (Nat.le_of_lt_succ hm) hne
      · rwa [if_neg]
        intro heq
        rw [heq, hid] at hold
        cases hold
  · rw [hentry (hended (List.mem_map_of_mem hm))]
    exact h.told m reason hm
  · obtain ⟨hshare, hlt⟩ := h.comes r hr
    rw [hentry (hlt r.entry List.mem_cons_self).ne]
    exact ⟨hshare, fun n hn => (hlt n hn).trans (Nat.lt_succ_self _)⟩
  · obtain ⟨hshare, hlt⟩ := h.threw t ht
    rw [hentry hlt.ne]
    exact ⟨hshare, hlt.trans (Nat.lt_succ_self _)⟩
  · rw [hentry (Nat.ne_of_gt hm)]
    exact h.blank m (Nat.le_of_lt hm)
  · by_cases hne : m = s.registered
    · subst hne
      rw [hnew]
      have hlength := (h.numbered s.registered).length
      rw [h.blank _ le_rfl, List.length_eq_zero_iff] at hlength
      refine ⟨congrArg List.length hlength, fun k copy hk => ?_⟩
      have hnone : (s.copies s.registered)[k]? = some copy := hk
      rw [hlength] at hnone
      cases hnone
    · rw [hentry hne]
      exact h.numbered m
  · rcases hget hm with ⟨-, rfl⟩ | ⟨hne, hold⟩
    · exact absurd (List.mem_singleton_self _) hdue
    · have := h.awaited id' m hold List.not_mem_nil
      rwa [Awaited, HasThrown, hentry hne]

theorem startAckHousekeepingIfNeeded_dispatch (s : Inflight) (n : ℕ) (mark : Bool) :
    (s.dispatchInflightToDaemon n mark).startAckHousekeepingIfNeeded =
      s.startAckHousekeepingIfNeeded.dispatchInflightToDaemon n mark := by
  by_cases hshare : (s.entries n).share
  · simp [Inflight.dispatchInflightToDaemon, startAckHousekeepingIfNeeded, hshare]
  · simp [Inflight.dispatchInflightToDaemon, startAckHousekeepingIfNeeded, hshare,
      Inflight.dispatch, Inflight.setEntry]

theorem sound_send {id : String} {share : Bool} {now : ℕ} (h : s.Sound []) :
    (s.handleOutboundSessionSend id share now).Sound [] := by
  rw [handleOutboundSessionSend]
  split
  · exact h
  · rename_i hnone
    have hid : s.inflightCommands.get? id = none := by simpa using hnone
    have hnew (state : InflightState) :
        (s.register id share state now).startAckHousekeepingIfNeeded.entries s.registered =
          { commandId := id, share, state, sentAt := now } := Function.update_self ..
    split
    · have h' : (s.register id share .dispatched now).startAckHousekeepingIfNeeded.Sound
          [s.registered] := h.register hid (by decide)
      dsimp only
      rw [startAckHousekeepingIfNeeded_dispatch]
      exact h'.dispatchInflightToDaemon (Nat.lt_succ_self _) fun _ _ => by rw [hnew]
    · split
      · rename_i hwaits
        have h' : (s.register id share .buffered now).startAckHousekeepingIfNeeded.Sound
            [s.registered] := h.register hid (by decide)
        refine { h' with awaited := fun id' m hm _ => ?_ }
        by_cases hne : m = s.registered
        · subst hne
          refine .inl (.inr (.inr ⟨by rw [hnew], ?_⟩))
          rcases Bool.or_eq_true_iff.1 hwaits with hgrace | hshake
          · exact .inl hgrace
          · exact .inr (.inl (.inl hshake))
        · exact h'.awaited id' m hm (by simpa using hne)
      · exact { h with told := fun m reason hm => List.mem_append_left _ (h.told m reason hm) }

theorem inflightCommands_dispatchInflightToDaemon {n : ℕ} {mark : Bool} :
    (s.dispatchInflightToDaemon n mark).inflightCommands = s.inflightCommands := by
  unfold dispatchInflightToDaemon
  split <;> rfl

/-- A command that comes is in flight then, or its browser is told at once that the daemon is
offline. -/
theorem send_takes (id : String) (share : Bool) (now : ℕ) :
    ((s.handleOutboundSessionSend id share now).inflightCommands.get? id).isSome = true ∨
      (s.handleOutboundSessionSend id share now).failures =
        s.failures ++ [(id, .daemonOffline)] := by
  have hset (state : InflightState) :
      ((s.register id share state now).inflightCommands.get? id).isSome = true := by
    rw [register, OrderedMap.get?_set, if_pos rfl]
    rfl
  rw [handleOutboundSessionSend]
  split
  · exact .inl ‹_›
  · split
    · refine .inl ?_
      dsimp only [startAckHousekeepingIfNeeded]
      rw [inflightCommands_dispatchInflightToDaemon]
      exact hset .dispatched
    · split
      · exact .inl (hset .buffered)
      · exact .inr rfl

/-! ## The steps -/

@[simp] theorem commandId_removeInflight (s : Inflight) (id : String) (ending : Ending) (n : ℕ) :
    ((s.removeInflight id ending).entries n).commandId = (s.entries n).commandId := by
  rw [removeInflight]
  cases s.inflightCommands.get? id with
  | none => rfl
  | some m => by_cases hnm : n = m <;> simp [Inflight.setEntry, hnm]

@[simp] theorem registered_removeInflight (s : Inflight) (id : String) (ending : Ending) :
    (s.removeInflight id ending).registered = s.registered := by
  rw [removeInflight]
  cases s.inflightCommands.get? id with
  | none => rfl
  | some m => rfl

theorem Sound.fails {entries : List (String × ℕ)} {reason : FailureReason}
    (h : s.Sound (entries.map Prod.snd))
    (hids : ∀ entry ∈ entries, (s.entries entry.2).commandId = entry.1) :
    (entries.foldl (fun s entry => s.fail entry.1 reason) s).Sound [] := by
  induction entries generalizing s with
  | nil => exact h
  | cons entry rest ih =>
    refine ih (h.fail reason (hids entry List.mem_cons_self)) fun e he => ?_
    refine (commandId_removeInflight _ _ _ _).trans ?_
    exact hids e (List.mem_cons_of_mem _ he)

theorem sound_graceExpired (h : s.Sound []) :
    ({ s with graceTimer := false }.onReconnectGraceExpired).Sound [] := by
  rw [onReconnectGraceExpired]
  split
  · rename_i hauth
    refine
      { h with
        graced := fun hgrace => by cases hgrace
        awaited := fun id n hid hn => ?_ }
    refine (h.awaited id n hid hn).imp_left (.imp_right (.imp_right (.imp_right ?_)))
    rintro (hgrace | hrest)
    · exact .inr (.inl (.inr (h.graced hgrace hauth)))
    · exact .inr hrest
  · refine Sound.fails ?_ fun entry hentry => (h.live _ _ (OrderedMap.get?_eq_some.2 hentry)).2.1
    refine
      { h with
        graced := fun hgrace => by cases hgrace
        awaited := fun id n hid hn => absurd ?_ hn }
    exact List.mem_map_of_mem (OrderedMap.get?_eq_some.1 hid)

theorem sound_onAckTimeout {n : ℕ} (h : s.Sound [n]) :
    (s.onAckTimeout (s.entries n).commandId).Sound [] := by
  rw [onAckTimeout]
  cases hget : s.inflightCommands.get? (s.entries n).commandId with
  | none => exact h.settled (by simp [hget])
  | some m =>
    have h' : s.Sound [m] := by
      by_cases hmn : m = n
      · exact hmn ▸ h
      · exact (h.settled (by simpa [hget] using hmn)).mono (List.nil_subset _)
    obtain ⟨hlt, hid, hstate, -⟩ := h.live _ m hget
    dsimp only
    rw [if_neg hstate]
    split
    · exact h'.dispatchInflightToDaemon hlt (by simp)
    · split
      · rename_i hgrace
        rw [Bool.and_eq_true] at hgrace
        refine h'.setEntry rfl rfl rfl (fun _ _ => by simp)
          fun _ => .inl (.inr (.inr ⟨?_, .inl hgrace.2⟩))
        simp [Inflight.setEntry]
      · exact h'.fail _ hid

theorem sound_ackTimeout {n : ℕ} (h : s.Sound []) :
    (s.step sha256Hex (.ackTimeout n)).Sound [] := by
  rw [step]
  split
  · have h' : (s.setEntry n { s.entries n with timeoutTimer := false }).Sound [n] :=
      (h.mono (List.nil_subset _)).setEntry rfl rfl rfl (fun id hid => (h.live id n hid).2.2.1)
        fun hn => absurd (List.mem_singleton_self n) hn
    have := sound_onAckTimeout h'
    simpa [Inflight.setEntry] using this
  · exact h

theorem sound_ack {id : String} {now : ℕ} (h : s.Sound []) :
    (s.handleCommandAck id now).Sound [] := by
  rw [handleCommandAck]
  split
  · exact h
  · rw [clearInflightOnAck]
    split
    · exact { h with }
    · rename_i n hget
      have hid : s.inflightCommands.get? id = some n := hget
      let ended : Inflight :=
        { s with
          seenCommandAcks := s.seenCommandAcks.set id now
          inflightCommands := s.inflightCommands.delete id
          ended := s.ended ++ [(n, .acked)] }
      have hseen : Sound { s with seenCommandAcks := s.seenCommandAcks.set id now } [n] :=
        { h.mono (List.nil_subset [n]) with }
      have hended : ended.Sound [] := hseen.delete hid fun reason heq => by cases heq
      have hgone (id' : String) : ended.inflightCommands.get? id' ≠ some n := by
        rw [OrderedMap.get?_delete]
        split
        · simp
        · rename_i hne
          exact fun hget' =>
            hne ((h.live id' n hget').2.1.symm.trans (h.live id n hid).2.1)
      let entry : InflightCommand := { s.entries n with state := .acked, timeoutTimer := false }
      have hentry : (ended.setEntry n entry).Sound [n] :=
        (hended.mono (List.nil_subset _)).setEntry rfl rfl rfl
          (fun id' hid' => absurd hid' (hgone id')) fun hn => absurd (List.mem_singleton_self n) hn
      have := hentry.settled (hgone _)
      simpa [Inflight.removeInflight, Inflight.setEntry, hid, ended, entry] using this

theorem Sound.removeInflight {id : String} {ending : Ending} (h : s.Sound [])
    (hending : ∀ reason, ending ≠ .failed reason) : (s.removeInflight id ending).Sound [] := by
  cases hget : s.inflightCommands.get? id with
  | none =>
    rw [Inflight.removeInflight, hget]
    exact h
  | some n =>
    exact (h.mono (List.nil_subset [n])).remove hget fun reason heq => absurd heq (hending reason)

theorem sound_sweep {now : ℕ} (h : s.Sound []) : (s.ackHousekeepingSweep now).Sound [] := by
  have hfold (entries : List (String × ℕ)) {s : Inflight} (h : s.Sound []) :
      (entries.foldl (·.sweepInflight now ·) s).Sound [] := by
    induction entries generalizing s with
    | nil => exact h
    | cons entry rest ih =>
      refine ih ?_
      dsimp only
      rw [sweepInflight]
      split
      · exact h.removeInflight (by simp)
      · exact h
  have h' := hfold s.inflightCommands.toList h
  refine { h' with swept := fun id n hid => ?_ }
  have hbusy : (s.ackHousekeepingSweep now).inflightCommands.toList.isEmpty = false := by
    rw [List.isEmpty_eq_false_iff_exists_mem]
    exact ⟨_, OrderedMap.get?_eq_some.1 hid⟩
  refine Bool.and_eq_true_iff.2 ⟨h'.swept id n hid, ?_⟩
  rw [Bool.not_eq_true']
  exact Bool.and_eq_false_iff.2 (.inl hbusy)

/-- A revalidation is over; that and the replay behind it come to their commands now. -/
theorem Sound.taken {index : ℕ} {r : Revalidation} (h : s.Sound [])
    (hr : s.revalidations[index]? = some r) :
    Sound { s with revalidations := s.revalidations.eraseIdx index } (comesTo r) := by
  refine
    { h with
      comes := fun r' hr' => h.comes r' (List.mem_of_mem_eraseIdx hr')
      awaited := fun id n hid hn => ?_ }
  refine (h.awaited id n hid List.not_mem_nil).imp_left (.imp_right (.imp_left ?_))
  rintro ⟨r', hr', hcomes⟩
  obtain ⟨i, hi⟩ := List.mem_iff_getElem?.1 hr'
  refine ⟨r', List.mem_eraseIdx_iff_getElem?.2 ⟨i, ?_, hi⟩, hcomes⟩
  rintro rfl
  obtain rfl := Option.some.inj (hr.symm.trans hi)
  exact hn hcomes

theorem sound_revalidated {index : ℕ} {refusal : Option FailureReason} (h : s.Sound []) :
    (s.revalidated sha256Hex index refusal).Sound [] := by
  rw [Inflight.revalidated]
  split
  · exact h
  · rename_i r hr
    obtain ⟨hshare, hlt⟩ := h.comes r (List.mem_of_getElem? hr)
    have h' := h.taken hr
    cases refusal with
    | none =>
      have hmark : r.markBridgeRetry = false → (s.entries r.entry).share = false →
          (s.entries r.entry).dispatchAttempts = 0 :=
        fun _ hnot => absurd hshare (by simpa using hnot)
      have hdispatch := h'.dispatch (hlt _ List.mem_cons_self) hmark
      dsimp only
      split
      · rename_i hreplay
        rwa [hreplay] at hdispatch
      · rename_i replay hreplay
        rw [hreplay] at hdispatch
        exact hdispatch.replayFrom fun n hn => hlt n (by simp [comesTo, hreplay]; exact .inr hn)
    | some reason =>
      have hfail := h'.fail reason rfl
      dsimp only
      split
      · rename_i hreplay
        rwa [hreplay] at hfail
      · rename_i replay hreplay
        rw [hreplay] at hfail
        refine hfail.replayFrom fun n hn => ?_
        rw [Inflight.fail, registered_removeInflight]
        exact hlt n (by simp [comesTo, hreplay]; exact .inr hn)

/-- A look at a command throws. -/
theorem Sound.throws {due : List ℕ} {n : ℕ} (h : s.Sound (n :: due))
    (hshare : (s.entries n).share = true) (hlt : n < s.registered) :
    Sound { s with thrown := s.thrown ++ [(n, (s.entries n).dispatchAttempts)] } due := by
  refine { h with threw := fun t ht => ?_, awaited := fun id m hid hm => ?_ }
  · rcases List.mem_append.1 ht with ht | ht
    · exact h.threw t ht
    · obtain rfl := List.mem_singleton.1 ht
      exact ⟨hshare, hlt⟩
  · by_cases hmn : m = n
    · subst hmn
      exact .inr (List.mem_append_right _ (List.mem_singleton_self _))
    · have hnot : m ∉ n :: due := fun hmem => (List.mem_cons.1 hmem).elim hmn hm
      exact (h.awaited id m hid hnot).imp_right (List.mem_append_left _)

theorem sound_revalidationThrew {index : ℕ} (h : s.Sound []) :
    (s.revalidationThrew sha256Hex index).Sound [] := by
  rw [Inflight.revalidationThrew]
  split
  · exact h
  · rename_i r hr
    obtain ⟨hshare, hlt⟩ := h.comes r (List.mem_of_getElem? hr)
    have hthrown := (h.taken hr).throws hshare (hlt _ List.mem_cons_self)
    dsimp only
    split
    · rename_i hreplay
      rwa [hreplay] at hthrown
    · rename_i replay hreplay
      rw [hreplay] at hthrown
      exact hthrown.replayFrom fun n hn => hlt n (by simp [comesTo, hreplay]; exact .inr hn)

theorem Sound.replayInflightToDaemon {handler : ℕ} (h : s.Sound s.inflightCommands.values) :
    (s.replayInflightToDaemon sha256Hex handler).Sound [] := by
  have hperm := List.perm_insertionSort
    (fun n m => (s.entries n).sentAt ≤ (s.entries m).sentAt) s.inflightCommands.values
  refine Sound.replayFrom (h.mono hperm.symm.subset) fun n hn => ?_
  obtain ⟨id, hid⟩ := OrderedMap.mem_values.1 (hperm.subset hn)
  exact (h.live id n hid).1

/-- A change of the connection about which nothing is done. -/
theorem Sound.unanswered {event : LinkEvent} {kicked : Bool} (h : s.Sound [])
    (hacts : (s.link.step sha256Hex event).2 = [])
    (hkick : event = .kick → s.link.daemonWs.isSome → kicked = true)
    (hkicked : s.kicked = true → kicked = true ∨ event = .connect) :
    Sound { s with link := (s.link.step sha256Hex event).1, kicked } [] := by
  obtain ⟨hawaits, hauth, hshake, hnone⟩ := Link.step_unanswered h.fresh hacts
  refine
    { h with
      fresh := (Link.passes_step sha256Hex s.link event).fresh h.fresh
      graced := fun hgrace hnew => ?_
      awaited := fun id n hid hn => ?_ }
  · rcases hauth hnew with hold | hnew
    · exact hawaits (h.graced hgrace hold)
    · exact hnew
  · refine (h.awaited id n hid hn).imp_left (.imp_right (.imp_right (.imp_right (.imp_right ?_))))
    rintro ((hold | hold) | ⟨hkick', hws⟩)
    · rcases hshake hold with hexpected | ⟨rfl, hsome, hws⟩
      · exact .inl hexpected
      · exact .inr ⟨hkick rfl hsome, hws⟩
    · exact .inl (.inr (hawaits hold))
    · rcases hnone hws with hws' | hexpected
      · rcases hkicked hkick' with hk | rfl
        · exact .inr ⟨hk, hws'⟩
        · exact absurd hws' (by simp [Link.step])
      · exact .inl hexpected

theorem stepLink_eq (sha256Hex : String → String) (s : Inflight) {event : LinkEvent}
    (hne : ∀ n, event ≠ .replayed n) :
    ∃ kicked, (event = .kick → s.link.daemonWs.isSome → kicked = true) ∧
      (s.kicked = true → kicked = true ∨ event = .connect) ∧
      s.stepLink sha256Hex event = (s.link.step sha256Hex event).2.foldl (take sha256Hex)
        { s with link := (s.link.step sha256Hex event).1, kicked } := by
  cases event with
  | replayed n => exact absurd rfl (hne n)
  | connect => exact ⟨false, by simp, by simp, rfl⟩
  | kick => exact ⟨_, fun _ h => by simp [h], fun h => by simp [h], rfl⟩
  | _ => exact ⟨s.kicked, by simp, .inl, rfl⟩

/-- Before a replay every command in flight is yet to be dealt with. -/
theorem Sound.replays {link : Link} {kicked : Bool} (h : s.Sound []) (hfresh : link.IsFresh) :
    Sound { s with link, kicked, graceTimer := false } s.inflightCommands.values :=
  { h with
    fresh := hfresh
    graced := fun hgrace => by cases hgrace
    awaited := fun id n hid hn => absurd (OrderedMap.mem_values.2 ⟨id, hid⟩) hn }

theorem sound_link {event : LinkEvent} (h : s.Sound []) :
    (s.stepLink sha256Hex event).Sound [] := by
  by_cases hreplayed : ∃ n, event = .replayed n
  · obtain ⟨n, rfl⟩ := hreplayed
    exact h
  · obtain ⟨kicked, hkick, hkicked, heq⟩ :=
      stepLink_eq sha256Hex s (not_exists.1 hreplayed)
    rw [heq]
    have hfresh := (Link.passes_step sha256Hex s.link event).fresh h.fresh
    rcases Link.step_acts sha256Hex s.link event with
      hacts | ⟨hacts, hauth⟩ | ⟨socket, handler, hacts⟩
    · have hnext := h.unanswered hacts hkick hkicked
      rw [hacts]
      exact hnext
    · rw [hacts]
      refine
        { h with
          fresh := hfresh
          graced := fun _ htrue => absurd (hauth.symm.trans htrue) (by simp)
          awaited := fun id n hid hn => ?_ }
      exact (h.awaited id n hid hn).imp_left
        (.imp_right (.imp_right (.imp_right fun _ => .inl rfl)))
    · rw [hacts]
      exact (h.replays hfresh).replayInflightToDaemon

theorem sound_step (s : Inflight) (e : InflightEvent) (h : s.Sound []) :
    (s.step sha256Hex e).Sound [] := by
  cases e with
  | link event => exact sound_link h
  | send id share now => exact sound_send h
  | revalidated index refusal => exact sound_revalidated h
  | revalidationThrew index => exact sound_revalidationThrew h
  | graceExpired =>
    rw [step]
    split
    · exact sound_graceExpired h
    · exact h
  | ackTimeout n => exact sound_ackTimeout h
  | ack id now => exact sound_ack h
  | echo id => exact h.removeInflight (by simp)
  | sweep now =>
    rw [step]
    split
    · exact sound_sweep h
    · exact h

theorem sound_start : Sound {} [] where
  fresh := fun _ _ => rfl
  graced := fun hgrace => by cases hgrace
  live := fun id n hid => by cases hid
  covered := fun n hn => by cases hn
  once := List.nodup_nil
  past := fun n hn => by cases hn
  told := fun n reason hn => by cases hn
  swept := fun id n hid => by cases hid
  comes := fun r hr => by cases hr
  threw := fun t ht => by cases ht
  blank := fun _ _ => rfl
  numbered := fun _ => ⟨rfl, fun k copy hk => by cases hk⟩
  awaited := fun id n hid => by cases hid

/-- **No command is forgotten.**  Over every run, a command that was registered is in flight or has
ended, and not both, and ended once; one that has failed was reported to its browser; in flight it
has a timer, or is looked at, or waits for a daemon that is expected or was kicked, unless it is of
a share and a look at it has thrown since it was last sent; and the sweep will come; and the copies
of a command are numbered, of which only the first is without a mark but for a share.  A command
that comes is in flight then, or its browser is told that the daemon is offline. -/
theorem inflight_run (sha256Hex : String → String) (es : List InflightEvent) :
    let s := run (step sha256Hex) es {}
    (∀ n, n < s.registered ↔ s.inflightCommands.get? (s.entries n).commandId = some n ∨
        n ∈ s.ended.map Prod.fst) ∧
      (∀ n ∈ s.ended.map Prod.fst, s.inflightCommands.get? (s.entries n).commandId ≠ some n) ∧
      (s.ended.map Prod.fst).Nodup ∧
      (∀ n reason, (n, .failed reason) ∈ s.ended →
        ((s.entries n).commandId, reason) ∈ s.failures) ∧
      (∀ id n, s.inflightCommands.get? id = some n →
        (s.Awaited n ∨ (s.entries n).share = true ∧ s.HasThrown n) ∧
          s.ackHousekeepingTimer = true) ∧
      (∀ n k copy, (s.copies n)[k]? = some copy →
        copy = some (k + 1) ∨ copy = none ∧ ((s.entries n).share = false → k = 0)) ∧
      ∀ id share now, let s' := s.step sha256Hex (.send id share now)
        (s'.inflightCommands.get? id).isSome = true ∨
          s'.failures = s.failures ++ [(id, .daemonOffline)] := by
  have h : (run (step sha256Hex) es {}).Sound [] :=
    run_invariant_all (Sound · []) sound_step sound_start es
  refine ⟨fun n => ⟨h.covered n, ?_⟩, ?_, h.once, h.told, ?_, fun n => (h.numbered n).mark,
    send_takes⟩
  · rintro (hget | hend)
    · exact (h.live _ n hget).1
    · exact h.past n hend
  · exact fun n hend hget => (h.live _ n hget).2.2.2 hend
  · exact fun id n hget => ⟨(h.awaited id n hget List.not_mem_nil).imp_right fun hthrown =>
      ⟨(h.threw _ hthrown).1, hthrown⟩, h.swept id n hget⟩

/-- A look that throws in a replay leaves a command that was never sent to the sweep, with the
daemon there. -/
example :
    let s := run (step id) [.link .connect, .send "a" true 0, .link (.message 0 (.auth "t")),
      .link (.lookedUp 0 (.found (some { tokenHash := "t" }))), .revalidationThrew 0] {}
    s.link.isDaemonConnected = true ∧ s.inflightCommands.get? "a" = some 0 ∧ s.sent = [] ∧
      s.revalidations = [] ∧ (s.entries 0).timeoutTimer = false := by
  decide

/-- A command of a share that is looked at while its daemon reconnects is sent twice without a
mark. -/
example :
    (run (step id) [.link .connect, .link (.message 0 (.auth "t")),
      .link (.lookedUp 0 (.found (some { tokenHash := "t" }))), .send "a" true 0,
      .link (.closed 0), .link .connect, .link (.message 1 (.auth "t")),
      .link (.lookedUp 1 (.found (some { tokenHash := "t" }))), .revalidated 0 none,
      .revalidated 0 none] {}).sent = [(0, none), (0, none)] := by
  decide

end Inflight

end Imcodes.Bridge
