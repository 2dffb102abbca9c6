import Imcodes.Resend.Holder
import Mathlib.Data.List.Perm.Subperm

/-!
# Clearing the resend queue

What the holder may still dispatch for a session is its `pool`: the entries of
the list, and those that the drains in flight have not come to.  An entry goes
into the pool once and leaves it for its dispatch, and `clearResend` empties it
unless a drain has taken the list out of the map.

* `moves_step` — every event moves the pool along, if a clear finds no drain
  with entries left to dispatch.
* `clears_of_idle` — in every run in which that is so, what was cleared is not
  dispatched any more, and nothing is dispatched twice.
* `not_clears` — a clear between two entries of a drain stops nothing.
-/

namespace Imcodes.Resend

open Imcodes.Queue Machine

/-- Whether a record is about what is queued for the session. -/
def Mark.concerns (sessionName : String) : Mark → Bool
  | .enqueued s _ | .cleared s | .dispatched s _ => s = sessionName
  | .stored .. | .drained _ => false

/-- What the holder may still dispatch for a session, and what it has done. -/
structure Custody where
  pool : List Nat
  nextSerial : Nat
  trace : List Mark

namespace Custody

variable {s : String} {c c' : Custody}

/-- What one event may do to the pool of the session `s`. -/
inductive Move (s : String) (c : Custody) : Custody → Prop
  /-- Entries may leave the pool, and the holder is busy with something else. -/
  | quiet {pool : List Nat} {nextSerial : Nat} (marks : List Mark) (hpool : pool.Subperm c.pool)
      (hserial : c.nextSerial ≤ nextSerial) (hmarks : ∀ m ∈ marks, m.concerns s = false) :
      Move s c ⟨pool, nextSerial, c.trace ++ marks⟩
  | enqueue {pool : List Nat} (hpool : pool.Subperm (c.nextSerial :: c.pool)) :
      Move s c ⟨pool, c.nextSerial + 1, c.trace ++ [.enqueued s c.nextSerial]⟩
  | clear : Move s c ⟨[], c.nextSerial, c.trace ++ [.cleared s]⟩
  | dispatch {pool : List Nat} {n : Nat} (hpool : (n :: pool).Subperm c.pool) :
      Move s c ⟨pool, c.nextSerial, c.trace ++ [.dispatched s n]⟩

/-- Moves, one after the other. -/
abbrev Moves (s : String) : Custody → Custody → Prop := Relation.ReflTransGen (Move s)

theorem Moves.shrink {pool pool' : List Nat} {n : Nat} {trace : List Mark}
    (h : pool'.Subperm pool) : Moves s ⟨pool, n, trace⟩ ⟨pool', n, trace⟩ := by
  have hmove := Move.quiet (s := s) (c := ⟨pool, n, trace⟩) [] h le_rfl (by simp)
  rw [List.append_nil] at hmove
  exact .single hmove

/-- **Clearing stops redelivery**: nothing is dispatched after a clear that found it
queued, and nothing is dispatched twice. -/
def Clears (s : String) (trace : List Mark) : Prop :=
  ∀ n, ¬ [.enqueued s n, .cleared s, .dispatched s n].Sublist trace ∧
    ¬ [.dispatched s n, .dispatched s n].Sublist trace

/-- What is in the pool was queued once, and has not been cleared or dispatched since. -/
structure Sound (s : String) (c : Custody) : Prop where
  nodup : c.pool.Nodup
  given : ∀ n ∈ c.pool, n < c.nextSerial
  marked : ∀ n, .enqueued s n ∈ c.trace ∨ .dispatched s n ∈ c.trace → n < c.nextSerial
  undone : ∀ n ∈ c.pool, .dispatched s n ∉ c.trace
  uncleared : ∀ n ∈ c.pool, ¬ [.enqueued s n, .cleared s].Sublist c.trace
  clears : Clears s c.trace

theorem nodup_of_subperm {l l' : List Nat} (h : l.Subperm l') (hl : l'.Nodup) : l.Nodup := by
  obtain ⟨l₀, hperm, hsub⟩ := h
  exact hperm.nodup_iff.1 (hl.sublist hsub)

/-- What happens elsewhere does not change the order of the session's records. -/
theorem sublist_append_quiet {l t marks : List Mark} (hl : ∀ m ∈ l, m.concerns s)
    (hmarks : ∀ m ∈ marks, m.concerns s = false) :
    l.Sublist (t ++ marks) ↔ l.Sublist t := by
  refine ⟨fun h => ?_, fun h => h.trans (List.sublist_append_left t marks)⟩
  obtain ⟨l₁, l₂, rfl, h₁, h₂⟩ := List.sublist_append_iff.1 h
  have hnil : l₂ = [] := List.eq_nil_iff_forall_not_mem.2 fun m hm => by
    have hyes := hl m (List.mem_append_right l₁ hm)
    rw [hmarks m (h₂.subset hm)] at hyes
    exact absurd hyes (by decide)
  rwa [hnil, List.append_nil]

theorem Sound.quiet (h : c.Sound s) {pool : List Nat} {nextSerial : Nat} {marks : List Mark}
    (hpool : pool.Subperm c.pool) (hserial : c.nextSerial ≤ nextSerial)
    (hmarks : ∀ m ∈ marks, m.concerns s = false) :
    Sound s ⟨pool, nextSerial, c.trace ++ marks⟩ := by
  have hmem (m : Mark) (hm : m.concerns s) : m ∈ c.trace ++ marks ↔ m ∈ c.trace := by
    rw [← List.singleton_sublist, sublist_append_quiet (by simpa using hm) hmarks,
      List.singleton_sublist]
  have henqueued (n : Nat) : (Mark.enqueued s n).concerns s := by simp [Mark.concerns]
  have hdispatched (n : Nat) : (Mark.dispatched s n).concerns s := by simp [Mark.concerns]
  constructor
  · exact nodup_of_subperm hpool h.nodup
  · exact fun n hn => Nat.lt_of_lt_of_le (h.given n (hpool.subset hn)) hserial
  · intro n hn
    rw [hmem _ (henqueued n), hmem _ (hdispatched n)] at hn
    exact Nat.lt_of_lt_of_le (h.marked n hn) hserial
  · intro n hn
    rw [hmem _ (hdispatched n)]
    exact h.undone n (hpool.subset hn)
  · intro n hn
    rw [sublist_append_quiet (by simp [Mark.concerns]) hmarks]
    exact h.uncleared n (hpool.subset hn)
  · intro n
    rw [sublist_append_quiet (by simp [Mark.concerns]) hmarks,
      sublist_append_quiet (by simp [Mark.concerns]) hmarks]
    exact h.clears n

/-- The session's records, when one more is written. -/
theorem Clears.concat {trace : List Mark} {m : Mark} (h : Clears s trace)
    (hm : ∀ n, m = .dispatched s n →
      ¬ [.enqueued s n, .cleared s].Sublist trace ∧ .dispatched s n ∉ trace) :
    Clears s (trace ++ [m]) := by
  intro n
  constructor
  · intro hsub
    rcases of_sublist_append_singleton hsub with hold | ⟨hold, hlast⟩
    · exact (h n).1 hold
    · exact (hm n (Option.some.inj hlast).symm).1 hold
  · intro hsub
    rcases of_sublist_append_singleton hsub with hold | ⟨hold, hlast⟩
    · exact (h n).2 hold
    · exact (hm n (Option.some.inj hlast).symm).2 (List.singleton_sublist.1 hold)

theorem Sound.move (h : c.Sound s) (hmove : Move s c c') : c'.Sound s := by
  cases hmove with
  | quiet marks hpool hserial hmarks => exact h.quiet hpool hserial hmarks
  | @enqueue pool hpool =>
    have hnew : .enqueued s c.nextSerial ∉ c.trace := fun hmem =>
      lt_irrefl _ (h.marked _ (Or.inl hmem))
    have hundone : .dispatched s c.nextSerial ∉ c.trace := fun hmem =>
      lt_irrefl _ (h.marked _ (Or.inr hmem))
    have hnodup : (c.nextSerial :: c.pool).Nodup :=
      List.nodup_cons.2 ⟨fun hmem => lt_irrefl _ (h.given _ hmem), h.nodup⟩
    have hcases {n : Nat} (hn : n ∈ pool) : n = c.nextSerial ∨ n ∈ c.pool :=
      List.mem_cons.1 (hpool.subset hn)
    refine ⟨nodup_of_subperm hpool hnodup, fun n hn => ?_, fun n hn => ?_, fun n hn => ?_, fun n hn => ?_,
      h.clears.concat fun n hn => by cases hn⟩
    · rcases hcases hn with rfl | hn
      · exact Nat.lt_succ_self _
      · exact Nat.lt_succ_of_lt (h.given n hn)
    · simp only [List.mem_append, List.mem_singleton, Mark.enqueued.injEq, true_and, reduceCtorEq,
        or_false] at hn
      rcases hn with (hn | rfl) | hn
      · exact Nat.lt_succ_of_lt (h.marked n (Or.inl hn))
      · exact Nat.lt_succ_self _
      · exact Nat.lt_succ_of_lt (h.marked n (Or.inr hn))
    · simp only [List.mem_append, List.mem_singleton, reduceCtorEq, or_false]
      rcases hcases hn with rfl | hn
      · exact hundone
      · exact h.undone n hn
    · intro hsub
      rcases of_sublist_append_singleton hsub with hold | ⟨-, hlast⟩
      · rcases hcases hn with rfl | hn
        · exact hnew (hold.subset (List.mem_cons_self ..))
        · exact h.uncleared n hn hold
      · cases hlast
  | clear =>
    refine ⟨List.nodup_nil, by simp, fun n hn => h.marked n ?_, by simp, by simp,
      h.clears.concat fun n hn => by cases hn⟩
    simpa using hn
  | @dispatch pool n hpool =>
    have hn : n ∈ c.pool := hpool.subset (List.mem_cons_self ..)
    have hnodup := List.nodup_cons.1 (nodup_of_subperm hpool h.nodup)
    have hrest : ∀ k ∈ pool, k ∈ c.pool := fun k hk => hpool.subset (List.mem_cons_of_mem n hk)
    refine ⟨hnodup.2, fun k hk => h.given k (hrest k hk), fun k hk => ?_, fun k hk => ?_,
      fun k hk => ?_, h.clears.concat fun k hk => ?_⟩
    · simp only [List.mem_append, List.mem_singleton, Mark.dispatched.injEq, true_and, reduceCtorEq,
        or_false] at hk
      rcases hk with hk | hk | rfl
      · exact h.marked k (Or.inl hk)
      · exact h.marked k (Or.inr hk)
      · exact h.given k hn
    · simp only [List.mem_append, List.mem_singleton, Mark.dispatched.injEq, true_and, not_or]
      refine ⟨h.undone k (hrest k hk), ?_⟩
      rintro rfl
      exact hnodup.1 hk
    · intro hsub
      rcases of_sublist_append_singleton hsub with hold | ⟨-, hlast⟩
      · exact h.uncleared k (hrest k hk) hold
      · cases hlast
    · cases hk
      exact ⟨h.uncleared n hn, h.undone n hn⟩

theorem Sound.moves (h : c.Sound s) (hmoves : Moves s c c') : c'.Sound s :=
  reflTransGen_invariant (Sound s) (fun _ _ hmove hc => hc.move hmove) hmoves h

end Custody

/-! ## The holder's custody -/

variable {s : String} {h : Holder} {localeCompare : Collation} {env : OpEnv}

/-- What is left of a drain's list for the session `s`. -/
def DrainProgress.pending (s : String) (progress : DrainProgress) (list : List HeldEntry) :
    List Nat :=
  if progress.sessionName = s then (list.filter (·.isFresh progress.now)).map (·.serial) else []

namespace Holder

/-- What the drains in flight have still to dispatch. -/
def drainPool (s : String) (drains : List Drain) : List Nat :=
  drains.flatMap fun d => d.pending s d.rest

def custody (s : String) (h : Holder) : Custody :=
  ⟨(h.entries s).map (·.serial) ++ drainPool s h.drains, h.nextSerial, h.trace⟩

@[simp] theorem custody_store (store : StoreConn) : { h with store }.custody s = h.custody s := rfl

/-- The list of a session gets shorter. -/
theorem moves_setQueue (sessionName : String) {list : Option (List HeldEntry)}
    (hlist : (list.getD []).Sublist (h.entries sessionName)) :
    Custody.Moves s (h.custody s) ((h.setQueue sessionName list).custody s) := by
  by_cases hs : s = sessionName
  · subst hs
    refine .shrink (List.Sublist.subperm (List.Sublist.append_right (List.Sublist.map _ ?_) _))
    rwa [entries_setQueue_self]
  · have hsame : (h.setQueue sessionName list).custody s = h.custody s := by
      rw [custody, entries_setQueue_of_ne h hs]
      rfl
    rw [hsame]

/-- Whether `bumping` throws or goes on, there are moves to where it ends. -/
theorem moves_bumping {α : Type} {c : Custody} {sessionName : String} {next : Nat → HolderOp α}
    (hthrown : Custody.Moves s c (h.custody s))
    (hnext : ∀ version store, Custody.Moves s c ((next version { h with store }).2.custody s)) :
    Custody.Moves s c ((bumping localeCompare env sessionName next h).2.custody s) := by
  unfold bumping
  cases bumpTransportQueueRevision localeCompare env sessionName h.store with
  | mk r store =>
    cases r with
    | error e => exact hthrown
    | ok version => exact hnext version store

theorem moves_acceptResend (sessionName : String) (entry : ResendEntry) (id : MessageId)
    (queueSnapshot : QueueSnapshot) (dropSnapshot : Option QueueSnapshot) :
    Custody.Moves s (h.custody s)
      ((acceptResend sessionName entry id queueSnapshot dropSnapshot h).2.custody s) := by
  set list := h.kept sessionName ++ [entry.held id h.nextSerial] with hlist
  have hentries : (acceptResend sessionName entry id queueSnapshot dropSnapshot h).2.entries s =
      (h.setQueue sessionName (some list)).entries s := rfl
  by_cases hs : s = sessionName
  · subst hs
    refine .single (.enqueue ?_)
    rw [hentries, entries_setQueue_self, Option.getD_some, hlist, List.map_append,
      List.append_assoc]
    have hkept := (h.kept_sublist s).map (·.serial)
    exact List.perm_middle.subperm.trans
      ((List.subperm_cons _).2 (hkept.append_right (drainPool s h.drains)).subperm)
  · refine .single (.quiet [.enqueued sessionName h.nextSerial] ?_ (Nat.le_succ _) ?_)
    · rw [hentries, entries_setQueue_of_ne h hs]
      exact List.Subperm.refl _
    · simpa [Mark.concerns] using Ne.symm hs

theorem moves_enqueueResend (sessionName : String) (entry : ResendEntry) :
    Custody.Moves s (h.custody s)
      ((enqueueResend localeCompare env sessionName entry h).2.custody s) := by
  rcases enqueueResend_cases localeCompare env sessionName entry h with
    ⟨store, marks, queueSnapshot, dropSnapshot, hmarks, hq⟩ | ⟨store, hq⟩
  · rw [hq]
    refine .trans (.single (.quiet marks (List.Subperm.refl _) le_rfl fun m hm => ?_))
      (moves_acceptResend (h := { h with store, trace := h.trace ++ marks }) ..)
    rw [List.mem_singleton.1 (hmarks hm)]
    rfl
  · rw [hq]
    exact moves_bumping (h := { h with store }) .refl fun _ _ => .refl

theorem moves_expireResendEntries (sessionName : String) (nowMs : Int) :
    Custody.Moves s (h.custody s)
      ((expireResendEntries localeCompare env sessionName nowMs h).2.custody s) := by
  unfold expireResendEntries
  dsimp only
  split
  · exact .refl
  · refine (moves_setQueue sessionName ?_).trans (moves_bumping .refl fun _ _ => .refl)
    split
    · exact List.nil_sublist _
    · exact List.filter_sublist

theorem moves_removeResendEntries (sessionName : String) (predicate : ResendEntry → Bool) :
    Custody.Moves s (h.custody s)
      ((removeResendEntries localeCompare env sessionName predicate h).2.custody s) := by
  unfold removeResendEntries
  dsimp only
  split
  · exact .refl
  · set kept := (h.entries sessionName).filter (!predicate ·.toResendEntry) with hkept
    have hset : Custody.Moves s (h.custody s)
        ((h.setQueue sessionName (if kept = [] then none else some kept)).custody s) := by
      refine moves_setQueue sessionName ?_
      split
      · exact List.nil_sublist _
      · exact List.filter_sublist
    split
    · exact hset
    · exact hset.trans (moves_bumping .refl fun _ _ => .refl)

/-- No drain of the session has entries left to dispatch. -/
def Idle (sessionName : String) (h : Holder) : Prop :=
  ∀ d ∈ h.drains, d.sessionName = sessionName → d.toDispatch = []

instance (sessionName : String) : Decidable (h.Idle sessionName) :=
  inferInstanceAs (Decidable (∀ d ∈ h.drains, d.sessionName = sessionName → d.toDispatch = []))

theorem drainPool_eq_nil (hidle : h.Idle s) : drainPool s h.drains = [] := by
  refine List.flatMap_eq_nil_iff.2 fun d hd => ?_
  unfold DrainProgress.pending
  split
  · rw [show d.rest.filter (·.isFresh d.now) = [] from hidle d hd ‹_›, List.map_nil]
  · rfl

theorem moves_cleared {sessionName : String} (hidle : h.Idle sessionName) (store : StoreConn) :
    Custody.Moves s (h.custody s)
      ({ (h.setQueue sessionName none).note (.cleared sessionName) with store }.custody s) := by
  by_cases hs : s = sessionName
  · subst hs
    have hclear : { (h.setQueue s none).note (.cleared s) with store }.custody s =
        ⟨[], h.nextSerial, h.trace ++ [.cleared s]⟩ := by
      have hentries : ({ (h.setQueue s none).note (.cleared s) with store }).entries s = [] :=
        entries_setQueue_self h s none
      rw [custody, hentries]
      simp only [note, setQueue, drainPool_eq_nil hidle, List.map_nil, List.append_nil]
    rw [hclear]
    exact .single .clear
  · have hset : Custody.Moves s (h.custody s) ((h.setQueue sessionName none).custody s) :=
      moves_setQueue sessionName (List.nil_sublist _)
    refine hset.trans
      (.single (.quiet [.cleared sessionName] (List.Subperm.refl _) le_rfl ?_))
    simpa [Mark.concerns] using Ne.symm hs

theorem moves_clearResend {sessionName : String} (hidle : h.Idle sessionName)
    (reason : ClearReason) :
    Custody.Moves s (h.custody s)
      ((clearResend localeCompare env sessionName reason h).2.custody s) := by
  unfold clearResend
  cases hq : h.queues sessionName with
  | none =>
    have hsame : h.note (.cleared sessionName) =
        { (h.setQueue sessionName none).note (.cleared sessionName) with store := h.store } := by
      rw [setQueue, ← hq, Function.update_eq_self]
      rfl
    dsimp only
    rw [hsame]
    exact moves_cleared hidle h.store
  | some list => exact moves_bumping .refl fun _ store => moves_cleared (h := { h with store }) hidle _

/-! ## Drains -/

theorem pending_cons_of_pos {progress : DrainProgress} {entry : HeldEntry}
    (hs : progress.sessionName = s) (hfresh : entry.isFresh progress.now) (rest : List HeldEntry) :
    progress.pending s (entry :: rest) = entry.serial :: progress.pending s rest := by
  have hfilter := List.filter_cons_of_pos (l := rest)
    (p := fun e : HeldEntry => e.isFresh progress.now) hfresh
  simp only [DrainProgress.pending, if_pos hs, hfilter, List.map_cons]

theorem pending_cons_of_neg {progress : DrainProgress} {entry : HeldEntry}
    (hfresh : ¬ entry.isFresh progress.now) (rest : List HeldEntry) :
    progress.pending s (entry :: rest) = progress.pending s rest := by
  have hfilter := List.filter_cons_of_neg (l := rest)
    (p := fun e : HeldEntry => e.isFresh progress.now) hfresh
  simp only [DrainProgress.pending, hfilter]

theorem custody_awaitDispatch (d : Drain) :
    (h.awaitDispatch d).custody s = ⟨(h.custody s).pool ++ d.pending s d.rest, h.nextSerial,
      h.trace ++ [.dispatched d.sessionName d.dispatching.serial]⟩ := by
  simp [custody, awaitDispatch, drainPool, entries]

/-- The loop goes on with what is pending. -/
theorem moves_dispatchNext (progress : DrainProgress) (list : List HeldEntry) (h : Holder) :
    Custody.Moves s ⟨progress.pending s list ++ (h.custody s).pool, h.nextSerial, h.trace⟩
      ((dispatchNext localeCompare env progress list h).custody s) := by
  induction list generalizing progress h with
  | nil =>
    have hnil : progress.pending s [] = [] := by simp [DrainProgress.pending]
    rw [hnil, List.nil_append]
    exact .single (.quiet [.drained progress] (List.Subperm.refl _) le_rfl (by simp [Mark.concerns]))
  | cons entry rest ih =>
    unfold dispatchNext
    by_cases hfresh : entry.isFresh progress.now
    · rw [if_pos hfresh, custody_awaitDispatch]
      by_cases hs : progress.sessionName = s
      · rw [pending_cons_of_pos hs hfresh]
        subst hs
        exact .single (.dispatch (List.Perm.cons _ List.perm_append_comm).subperm)
      · have hnil (l : List HeldEntry) : progress.pending s l = [] := if_neg hs
        rw [hnil, hnil, List.nil_append, List.append_nil]
        refine .single (.quiet [.dispatched progress.sessionName entry.serial]
          (List.Subperm.refl _) le_rfl ?_)
        simpa [Mark.concerns] using hs
    · rw [if_neg hfresh, pending_cons_of_neg hfresh]
      cases entry.queueId with
      | none => exact ih progress h
      | some id =>
        dsimp only
        generalize markFailedAt localeCompare env progress.sessionName progress.now .expired id
          h.store = p
        exact ih { progress with expiredCount := progress.expiredCount + 1 } { h with store := p.2 }

/-- The list goes from the map to the drain. -/
theorem moves_lease (progress : DrainProgress) :
    Custody.Moves s (h.custody s) ⟨progress.pending s (h.entries progress.sessionName) ++
      ((h.setQueue progress.sessionName none).custody s).pool, h.nextSerial, h.trace⟩ := by
  by_cases hs : s = progress.sessionName
  · subst hs
    refine .shrink (List.Sublist.subperm ?_)
    simp only [DrainProgress.pending, if_true, custody, entries_setQueue_self, Option.getD_none,
      List.map_nil, List.nil_append]
    exact (List.filter_sublist.map _).append_right _
  · refine .shrink (List.Sublist.subperm ?_)
    simp only [DrainProgress.pending, if_neg (Ne.symm hs), custody, entries_setQueue_of_ne h hs,
      List.nil_append]
    exact List.Sublist.refl _

theorem moves_drainResend (sessionName : String) :
    Custody.Moves s (h.custody s) ((drainResend localeCompare env sessionName h).2.custody s) := by
  unfold drainResend
  dsimp only
  split
  · exact .refl
  · generalize leaseEntries env sessionName _ h.store = p
    obtain ⟨complete, store⟩ := p
    cases complete with
    | false => exact .refl
    | true =>
      have hlease := moves_lease (s := s) (h := { h with store }) { sessionName, now := env.now }
      exact hlease.trans (moves_bumping (.shrink (List.sublist_append_right _ _).subperm)
        fun version store => moves_dispatchNext { sessionName, now := env.now }
          (h.entries sessionName) { h.setQueue sessionName none with store })

theorem perm_drainPool_eraseIdx {drains : List Drain} {i : Nat} (hi : i < drains.length) :
    (drainPool s drains).Perm
      (drains[i].pending s drains[i].rest ++ drainPool s (drains.eraseIdx i)) := by
  have hperm := (List.getElem_cons_eraseIdx_perm hi).flatMap_right
    fun d : Drain => d.pending s d.rest
  simpa [drainPool] using hperm.symm

theorem moves_dispatchSettled (i : Nat) (outcome : DispatchOutcome) :
    Custody.Moves s (h.custody s) ((dispatchSettled localeCompare env i outcome h).custody s) := by
  unfold dispatchSettled
  cases hd : h.drains[i]? with
  | none => exact .refl
  | some d =>
    obtain ⟨hi, rfl⟩ := List.getElem?_eq_some_iff.1 hd
    set d := h.drains[i]
    set others : Holder := { h with drains := h.drains.eraseIdx i } with hothers
    have hrest : Custody.Moves s (h.custody s)
        ⟨d.pending s d.rest ++ (others.custody s).pool, h.nextSerial, h.trace⟩ := by
      refine .shrink (List.Perm.subperm ?_)
      refine List.Perm.trans ?_ ((perm_drainPool_eraseIdx hi).symm.append_left _)
      exact List.perm_append_comm_assoc _ _ _
    refine hrest.trans ?_
    dsimp only
    obtain ⟨hname, hnow, store, hstore⟩ := settleDispatch_spec localeCompare env outcome d others
    generalize settleDispatch localeCompare env outcome d others = p at hname hnow hstore
    obtain ⟨progress, h'⟩ := p
    dsimp only at hname hnow hstore
    subst hstore
    have hpending : d.pending s d.rest = progress.pending s d.rest := by
      simp only [DrainProgress.pending, hname, hnow]
    rw [hpending]
    exact moves_dispatchNext progress d.rest { others with store }

/-! ## Runs -/

/-- A clear finds no drain with entries left to dispatch. -/
def ClearsIdle (h : Holder) : Event → Prop
  | .clearResend sessionName _ => h.Idle sessionName
  | _ => True

instance : ∀ e, Decidable (h.ClearsIdle e)
  | .clearResend sessionName _ => inferInstanceAs (Decidable (h.Idle sessionName))
  | .enqueueResend .. | .expireResendEntries .. | .removeResendEntries .. | .drainResend .. |
    .dispatchSettled .. | .storeUsed .. => .isTrue trivial

/-- Every event moves the pool along, unless it clears too little. -/
theorem moves_step (e : Event) (hclears : h.ClearsIdle e) :
    Custody.Moves s (h.custody s) ((step localeCompare env h e).custody s) := by
  cases e with
  | enqueueResend sessionName entry => exact moves_enqueueResend sessionName entry
  | expireResendEntries sessionName nowMs => exact moves_expireResendEntries sessionName nowMs
  | removeResendEntries sessionName predicate =>
    exact moves_removeResendEntries sessionName predicate
  | clearResend sessionName reason => exact moves_clearResend hclears reason
  | drainResend sessionName => exact moves_drainResend sessionName
  | dispatchSettled i outcome => exact moves_dispatchSettled i outcome
  | storeUsed store => exact .refl

theorem sound_create (store : StoreConn) : ((create store).custody s).Sound s := by
  constructor <;> simp [create, custody, entries, drainPool, Custody.Clears]

/-- **Clearing stops redelivery, and nothing is dispatched twice**, in every run in
which no clear meets a drain with entries left to dispatch. -/
theorem clears_of_idle (localeCompare : Collation) (store : StoreConn)
    (events : List (OpEnv × Event))
    (hidle : Along (fun h p => step localeCompare p.1 h p.2) (fun h p => h.ClearsIdle p.2) events
      (create store)) (s : String) :
    Custody.Clears s
      (run (fun h p => step localeCompare p.1 h p.2) events (create store)).trace :=
  (run_invariant (fun h : Holder => (h.custody s).Sound s)
    (fun _ p hsound hclears => hsound.moves (moves_step p.2 hclears)) (sound_create store)
    hidle).clears

/-! ### A clear between two entries -/

def exampleResend (id : String) : ResendEntry :=
  { text := "hello", commandId := id, clientMessageId := some id, queuedAt := 1000 }

/-- Two entries are drained, and cleared while the first is being dispatched. -/
def clearedRun : List (OpEnv × Event) :=
  [(exampleEnv 0, .enqueueResend "deck" (exampleResend "m1")),
    (exampleEnv 2, .enqueueResend "deck" (exampleResend "m2")),
    (exampleEnv 4, .drainResend "deck"),
    (exampleEnv 6, .clearResend "deck" (.drop .userStopped)),
    (exampleEnv 8, .dispatchSettled 0 .sent)]

/-- The same, with the clear before the drain or after it. -/
def clearedInTimeRun : List (OpEnv × Event) :=
  [(exampleEnv 0, .enqueueResend "deck" (exampleResend "m1")),
    (exampleEnv 2, .clearResend "deck" (.drop .userStopped)),
    (exampleEnv 4, .enqueueResend "deck" (exampleResend "m2")),
    (exampleEnv 6, .drainResend "deck"),
    (exampleEnv 7, .clearResend "deck" (.drop .userStopped)),
    (exampleEnv 8, .dispatchSettled 0 .sent)]

theorem clears_of_idle_clearedInTimeRun :
    Custody.Clears "deck" (run (fun h p => step (fun _ _ => 0) p.1 h p.2) clearedInTimeRun
      (create (freshConn fun _ => none))).trace :=
  clears_of_idle (fun _ _ => 0) (freshConn fun _ => none) clearedInTimeRun (by decide +kernel)
    "deck"

/-- **A clear does not stop a drain**: what it has taken out of the map is dispatched
after the clear. -/
theorem not_clears :
    ¬ ∀ (localeCompare : Collation) (store : StoreConn) (events : List (OpEnv × Event)) (s : String),
      Custody.Clears s
        (run (fun h p => step localeCompare p.1 h p.2) events (create store)).trace := by
  intro hclears
  have h := hclears (fun _ _ => 0) (freshConn fun _ => none) clearedRun "deck" 1
  exact h.1 (by decide +kernel)

end Holder

end Imcodes.Resend
