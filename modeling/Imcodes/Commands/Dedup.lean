import Imcodes.Collections.OrderedMap
import Imcodes.Collections.Recent
import Imcodes.Machine.Runs

/-!
# Which commands were taken before

The daemon keeps the ids of the commands that a session has taken, a hundred at most and for five
minutes, and takes no command under an id that it has.

* `CommandDedup.Agrees` — the cache has what counts of the hundred newest commands that were taken.
* `dedup_run` — **the cache equals its history**: over every run of commands by a clock that does
  not go back, a command is taken if and only if none of the hundred that were taken last has its id
  and is at most five minutes old.
-/

namespace Imcodes.Commands

open Machine

/-- `MAX_SIZE` -/
def commandDedupMaxSize : ℕ := 100

/-- `TTL_MS` -/
def commandDedupTtlMs : ℕ := 5 * 60 * 1000

/-- A command and the time at which it was taken count. -/
def isFresh (now : ℕ) (entry : String × ℕ) : Bool := now - entry.2 ≤ commandDedupTtlMs

structure CommandDedup where
  entries : OrderedMap String ℕ := .empty

namespace CommandDedup

variable (d : CommandDedup) (commandId : String) (now : ℕ)

/-- An id that has expired goes. -/
def has : Bool × CommandDedup :=
  match d.entries.get? commandId with
  | none => (false, d)
  | some ts =>
    if commandDedupTtlMs < now - ts then (false, { entries := d.entries.delete commandId })
    else (true, d)

def evictExpired : OrderedMap String ℕ :=
  let expired := d.entries.toList.filter fun entry => !isFresh now entry
  expired.foldl (fun entries entry => entries.delete entry.1) d.entries

/-- The oldest key goes. -/
def evictOldest (entries : OrderedMap String ℕ) : OrderedMap String ℕ :=
  match entries.toList.head? with
  | none => entries
  | some oldest => entries.delete oldest.1

/-- Room is made for a command before it is added: first of those that have expired. -/
def add : CommandDedup :=
  let entries :=
    if commandDedupMaxSize ≤ d.entries.toList.length then
      let entries := d.evictExpired now
      if commandDedupMaxSize ≤ entries.toList.length then evictOldest entries else entries
    else d.entries
  { entries := entries.set commandId now }

/-- What becomes of a command: whether it was there, and the cache after it. -/
def receive : Bool × CommandDedup :=
  let (known, d) := d.has commandId now
  (known, if known then d else d.add commandId now)

end CommandDedup

/-! ## The history -/

/-- One of the commands that were taken last has the id, and counts. -/
def Remembers (taken : List (String × ℕ)) (commandId : String) (now : ℕ) : Prop :=
  ∃ entry ∈ taken.rtake commandDedupMaxSize, entry.1 = commandId ∧ isFresh now entry = true

instance (taken : List (String × ℕ)) (commandId : String) (now : ℕ) :
    Decidable (Remembers taken commandId now) :=
  inferInstanceAs (Decidable (∃ entry ∈ _, _))

/-- A command is taken unless it is remembered. -/
def remember (taken : List (String × ℕ)) (command : String × ℕ) : List (String × ℕ) :=
  if Remembers taken command.1 command.2 then taken else taken ++ [command]

/-- The cache of a session, and the commands that were taken. -/
structure Reception where
  dedup : CommandDedup := {}
  taken : List (String × ℕ) := []

/-- A command comes. -/
def Reception.step (s : Reception) (command : String × ℕ) : Reception :=
  let received := s.dedup.receive command.1 command.2
  { dedup := received.2, taken := if received.1 then s.taken else s.taken ++ [command] }

namespace CommandDedup

variable {d : CommandDedup} {commandId : String} {now clock : ℕ} {taken : List (String × ℕ)}

theorem isFresh_mono {entry : String × ℕ} (hle : clock ≤ now) (h : isFresh now entry = true) :
    isFresh clock entry = true := by
  rw [isFresh, decide_eq_true_eq] at h ⊢
  omega

theorem toList_foldl_delete (gone : List (String × ℕ)) (m : OrderedMap String ℕ) :
    (gone.foldl (fun m entry => m.delete entry.1) m).toList =
      m.toList.filter fun entry => entry.1 ∉ gone.map Prod.fst := by
  induction gone generalizing m with
  | nil => simp
  | cons g gone ih =>
    rw [List.foldl_cons, ih, OrderedMap.delete, List.filter_filter]
    refine List.filter_congr fun entry _ => ?_
    rw [Bool.eq_iff_iff]
    simp [and_comm]

theorem toList_evictExpired (d : CommandDedup) (now : ℕ) :
    (d.evictExpired now).toList = d.entries.toList.filter (isFresh now) := by
  rw [evictExpired, toList_foldl_delete]
  refine List.filter_congr fun entry hentry => ?_
  rw [Bool.eq_iff_iff, decide_eq_true_eq, List.mem_map, not_exists]
  constructor
  · intro hnot
    by_contra hstale
    exact hnot entry ⟨List.mem_filter.2 ⟨hentry, by simpa using hstale⟩, rfl⟩
  · rintro hfresh other ⟨hother, hid⟩
    obtain ⟨hmem, hstale⟩ := List.mem_filter.1 hother
    rw [List.inj_on_of_nodup_map d.entries.nodup hmem hentry hid, hfresh] at hstale
    cases hstale

theorem toList_evictOldest (m : OrderedMap String ℕ) : (evictOldest m).toList = m.toList.tail := by
  obtain ⟨list, hnodup⟩ := m
  cases list with
  | nil => rfl
  | cons oldest rest =>
    have hnot : ∀ entry ∈ rest, entry.1 ≠ oldest.1 := fun entry hentry heq =>
      (List.nodup_cons.1 hnodup).1 (heq ▸ List.mem_map_of_mem hentry)
    have hrest : rest.filter (·.1 ≠ oldest.1) = rest :=
      List.filter_eq_self.2 fun entry hentry => decide_eq_true (hnot entry hentry)
    simpa [evictOldest, OrderedMap.delete] using hrest

/-! ## The cache's entries -/

theorem mem_of_has (h : (d.has commandId now).1 = true) :
    ∃ ts, (commandId, ts) ∈ d.entries.toList := by
  rw [has] at h
  split at h
  · cases h
  · rename_i ts hget
    exact ⟨ts, OrderedMap.get?_eq_some.1 hget⟩

theorem mem_of_mem_has {entry : String × ℕ} (h : entry ∈ (d.has commandId now).2.entries.toList) :
    entry ∈ d.entries.toList := by
  rw [has] at h
  split at h
  · exact h
  · split at h
    · exact (OrderedMap.mem_delete.1 h).1
    · exact h

theorem mem_add {entry : String × ℕ} (h : entry ∈ (d.add commandId now).entries.toList) :
    entry.1 = commandId ∨ entry ∈ d.entries.toList := by
  have hexpired {entry : String × ℕ} (h : entry ∈ (d.evictExpired now).toList) :
      entry ∈ d.entries.toList := by
    rw [toList_evictExpired] at h
    exact (List.mem_filter.1 h).1
  rw [add] at h
  rcases OrderedMap.mem_set.1 h with rfl | ⟨hmem, -⟩
  · exact .inl rfl
  · refine .inr ?_
    split at hmem
    · dsimp only at hmem
      split at hmem
      · rw [toList_evictOldest] at hmem
        exact hexpired (List.mem_of_mem_tail hmem)
      · exact hexpired hmem
    · exact hmem

theorem mem_receive {entry : String × ℕ}
    (h : entry ∈ (d.receive commandId now).2.entries.toList) :
    entry.1 = commandId ∨ entry ∈ d.entries.toList := by
  rw [receive] at h
  dsimp only at h
  split at h
  · exact .inr (mem_of_mem_has h)
  · exact (mem_add h).imp_right mem_of_mem_has

/-! ## The cache and its history -/

/-- The cache has what counts of the commands that were taken last. -/
structure Agrees (d : CommandDedup) (taken : List (String × ℕ)) (clock : ℕ) : Prop where
  inTime : taken.Pairwise fun a b => a.2 ≤ b.2
  past : ∀ entry ∈ taken, entry.2 ≤ clock
  kept : d.entries.toList.filter (isFresh clock) =
    (taken.rtake commandDedupMaxSize).filter (isFresh clock)

theorem agrees_start (clock : ℕ) : Agrees {} [] clock :=
  ⟨.nil, fun _ h => absurd h List.not_mem_nil, rfl⟩

theorem Agrees.later (h : d.Agrees taken clock) (hle : clock ≤ now) : d.Agrees taken now := by
  have hfilter (l : List (String × ℕ)) :
      l.filter (isFresh now) = (l.filter (isFresh clock)).filter (isFresh now) := by
    rw [List.filter_filter]
    refine List.filter_congr fun entry _ => ?_
    cases hfresh : isFresh now entry with
    | false => rfl
    | true => rw [Bool.true_and, isFresh_mono hle hfresh]
  refine ⟨h.inTime, fun entry hentry => (h.past entry hentry).trans hle, ?_⟩
  rw [hfilter, h.kept, ← hfilter]

theorem Agrees.countsOn (h : d.Agrees taken clock) : Recent.CountsOn (isFresh now) taken := by
  refine h.inTime.imp fun hab ha => ?_
  rw [isFresh, decide_eq_true_eq] at ha ⊢
  omega

theorem Agrees.remembers_iff_fresh (h : d.Agrees taken now) : Remembers taken commandId now ↔
    ∃ ts, d.entries.get? commandId = some ts ∧ isFresh now (commandId, ts) = true := by
  have hkept (entry : String × ℕ) :
      entry ∈ taken.rtake commandDedupMaxSize ∧ isFresh now entry = true ↔
        entry ∈ d.entries.toList ∧ isFresh now entry = true := by
    rw [← List.mem_filter, ← List.mem_filter, h.kept]
  constructor
  · rintro ⟨⟨id, ts⟩, hmem, rfl, hfresh⟩
    exact ⟨ts, OrderedMap.get?_eq_some.2 ((hkept _).1 ⟨hmem, hfresh⟩).1, hfresh⟩
  · rintro ⟨ts, hget, hfresh⟩
    have := (hkept _).2 ⟨OrderedMap.get?_eq_some.1 hget, hfresh⟩
    exact ⟨_, this.1, rfl, this.2⟩

/-- An id is known if and only if it is remembered; and when it is not, the cache has none of it. -/
theorem Agrees.has (h : d.Agrees taken now) :
    ((d.has commandId now).1 = true ↔ Remembers taken commandId now) ∧
      (d.has commandId now).2.Agrees taken now ∧
      ((d.has commandId now).1 = false →
        (d.has commandId now).2.entries.get? commandId = none) := by
  rw [h.remembers_iff_fresh, CommandDedup.has]
  cases hget : d.entries.get? commandId with
  | none => simpa using ⟨h, hget⟩
  | some ts =>
    dsimp only
    split
    · rename_i hstale
      have hnot : isFresh now (commandId, ts) = false := by
        rw [isFresh, decide_eq_false_iff_not]
        exact Nat.not_le.2 hstale
      refine ⟨by simp [hnot], ⟨h.inTime, h.past, ?_⟩, fun _ => ?_⟩
      · rw [← h.kept, OrderedMap.delete, List.filter_filter]
        refine List.filter_congr fun entry hentry => ?_
        cases hfresh : isFresh now entry with
        | false => rfl
        | true =>
          refine decide_eq_true fun hid => ?_
          subst hid
          have := OrderedMap.get?_eq_some.2 hentry
          rw [hget] at this
          obtain rfl := Option.some.inj this
          rw [hfresh] at hnot
          cases hnot
      · exact OrderedMap.get?_delete.trans (if_pos rfl)
    · rename_i hfresh
      refine ⟨?_, h, by simp⟩
      simpa [isFresh] using hfresh

theorem toList_set {m : OrderedMap String ℕ} (h : m.get? commandId = none) :
    (m.set commandId now).toList = m.toList ++ [(commandId, now)] := by
  have hnot : commandId ∉ m.toList.map Prod.fst := by
    intro hmem
    obtain ⟨entry, hentry, rfl⟩ := List.mem_map.1 hmem
    rw [OrderedMap.get?_eq_some.2 hentry] at h
    cases h
  rw [OrderedMap.set, dif_neg hnot]

theorem get?_eq_none_of_subset {m m' : OrderedMap String ℕ}
    (hsub : ∀ entry ∈ m'.toList, entry ∈ m.toList) (h : m.get? commandId = none) :
    m'.get? commandId = none := by
  rw [Option.eq_none_iff_forall_not_mem]
  intro ts hts
  have := OrderedMap.get?_eq_some.2 (hsub _ (OrderedMap.get?_eq_some.1 hts))
  rw [h] at this
  cases this

theorem isFresh_self : isFresh now (commandId, now) = true := by simp [isFresh]

/-- A command that is taken is added. -/
theorem Agrees.add (h : d.Agrees taken now) (hget : d.entries.get? commandId = none) :
    (d.add commandId now).Agrees (taken ++ [(commandId, now)]) now := by
  have hself : isFresh now (commandId, now) = true := isFresh_self
  have hcounts : Recent.CountsOn (isFresh now) taken := h.countsOn
  -- What is kept is put before the command, be it all that counts or all but the oldest of it.
  have hput {m : OrderedMap String ℕ} (hm : m.get? commandId = none)
      (hkept : ((taken ++ [(commandId, now)]).rtake commandDedupMaxSize).filter (isFresh now) =
        m.toList.filter (isFresh now) ++ [(commandId, now)]) :
      Agrees { entries := m.set commandId now } (taken ++ [(commandId, now)]) now := by
    refine ⟨List.pairwise_append.2 ⟨h.inTime, List.pairwise_singleton .., ?_⟩, ?_, ?_⟩
    · exact fun a ha b hb => List.mem_singleton.1 hb ▸ h.past a ha
    · intro entry hentry
      rcases List.mem_append.1 hentry with hentry | hentry
      · exact h.past entry hentry
      · exact (List.mem_singleton.1 hentry ▸ le_rfl)
    · rw [toList_set hm, List.filter_append, List.filter_cons_of_pos hself, hkept]
      rfl
  have hroom {m : OrderedMap String ℕ} (hm : m.get? commandId = none)
      (heq : m.toList.filter (isFresh now) = d.entries.toList.filter (isFresh now))
      (hlt : m.toList.length < commandDedupMaxSize) :
      Agrees { entries := m.set commandId now } (taken ++ [(commandId, now)]) now := by
    refine hput hm ?_
    rw [heq, h.kept]
    have hle : ((taken.rtake commandDedupMaxSize).filter (isFresh now)).length ≤ 99 := by
      rw [← h.kept, ← heq]
      exact (List.length_filter_le ..).trans (Nat.le_of_lt_succ hlt)
    exact Recent.filter_rtake_concat hcounts hself hle
  have hexpired : (d.evictExpired now).get? commandId = none := by
    refine get?_eq_none_of_subset (fun entry hentry => ?_) hget
    rw [toList_evictExpired] at hentry
    exact (List.mem_filter.1 hentry).1
  have hsame : (d.evictExpired now).toList.filter (isFresh now) =
      d.entries.toList.filter (isFresh now) := by
    rw [toList_evictExpired, List.filter_filter]
    exact List.filter_congr fun entry _ => Bool.and_self _
  rw [CommandDedup.add]
  dsimp only
  split
  · split
    · rename_i hfull
      refine hput (get?_eq_none_of_subset (fun entry hentry => ?_) hexpired) ?_
      · rw [toList_evictOldest] at hentry
        exact List.mem_of_mem_tail hentry
      · rw [toList_evictExpired, h.kept] at hfull
        rw [toList_evictOldest, toList_evictExpired, h.kept]
        have htail := Recent.tail_filter_rtake hself hfull
        have hcounted : ((taken.rtake commandDedupMaxSize).filter (isFresh now)).tail.filter
            (isFresh now) = ((taken.rtake commandDedupMaxSize).filter (isFresh now)).tail :=
          List.filter_eq_self.2 fun entry hentry =>
            (List.mem_filter.1 (List.mem_of_mem_tail hentry)).2
        rw [hcounted]
        exact htail
    · rename_i hlt
      exact hroom hexpired hsame (Nat.lt_of_not_le hlt)
  · rename_i hlt
    exact hroom hget rfl (Nat.lt_of_not_le hlt)

/-- One command: it is taken unless it is remembered. -/
theorem Agrees.receive (h : d.Agrees taken clock) (hle : clock ≤ now) :
    ((d.receive commandId now).1 = true ↔ Remembers taken commandId now) ∧
      (d.receive commandId now).2.Agrees (remember taken (commandId, now)) now := by
  obtain ⟨hiff, hagrees, hnone⟩ := @Agrees.has _ commandId _ _ (h.later hle)
  refine ⟨hiff, ?_⟩
  rw [CommandDedup.receive, remember]
  dsimp only
  by_cases hknown : (d.has commandId now).1 = true
  · rwa [if_pos hknown, if_pos (hiff.1 hknown)]
  · rw [if_neg hknown, if_neg fun hr => hknown (hiff.2 hr)]
    exact hagrees.add (hnone (Bool.eq_false_iff.2 hknown))

end CommandDedup

theorem CommandDedup.Agrees.step {s : Reception} {command : String × ℕ} {clock : ℕ}
    (h : s.dedup.Agrees s.taken clock) (hle : clock ≤ command.2) :
    (s.step command).taken = remember s.taken command ∧
      (s.step command).dedup.Agrees (s.step command).taken command.2 := by
  obtain ⟨hiff, hagrees⟩ := @Agrees.receive _ command.1 _ _ _ h hle
  have htaken : (s.step command).taken = remember s.taken command := by
    rw [Reception.step, remember]
    dsimp only
    by_cases hknown : (s.dedup.receive command.1 command.2).1 = true
    · rw [if_pos hknown, if_pos (hiff.1 hknown)]
    · rw [if_neg hknown, if_neg fun hr => hknown (hiff.2 hr)]
  exact ⟨htaken, htaken ▸ hagrees⟩

/-- **The cache equals its history.**  Commands that come by a clock that does not go back are taken
if and only if none of the hundred that were taken last has the same id and is at most five minutes
old. -/
theorem dedup_run (commands : List (String × ℕ))
    (hclock : commands.Pairwise fun a b => a.2 ≤ b.2) :
    (run Reception.step commands {}).taken = run remember commands [] := by
  have hrun (s : Reception) (clock : ℕ) (hs : s.dedup.Agrees s.taken clock)
      (hafter : ∀ command ∈ commands, clock ≤ command.2) :
      (run Reception.step commands s).taken = run remember commands s.taken := by
    induction commands generalizing s clock with
    | nil => rfl
    | cons command commands ih =>
      obtain ⟨hnext, hlater⟩ := List.pairwise_cons.1 hclock
      have hstep := hs.step (hafter command List.mem_cons_self)
      rw [run_cons, run_cons, ← hstep.1]
      exact ih hlater _ command.2 hstep.2 hnext
  exact hrun {} 0 (CommandDedup.agrees_start 0) fun _ _ => Nat.zero_le _

theorem dedup_run_again :
    (run Reception.step [("a", 0), ("a", 1000), ("b", 2000), ("a", 300001)] {}).taken =
      run remember [("a", 0), ("a", 1000), ("b", 2000), ("a", 300001)] [] ∧
    run remember [("a", 0), ("a", 1000), ("b", 2000), ("a", 300001)] [] =
      [("a", 0), ("b", 2000), ("a", 300001)] :=
  ⟨dedup_run _ (by decide), by decide⟩

end Imcodes.Commands
