import Mathlib.Data.Int.Order.Basic
import Mathlib.Logic.Function.Basic
import Imcodes.Machine.Runs

/-!
# Lockouts after failed authentications

Five failures of an identity within fifteen minutes lock it for fifteen minutes. The counter, the
start of its window and the lock are columns of one row, which a failure rewrites from the old row.

* `lockedUntil_fail` — what is read as locked was reported by a failure.
* `locked_of_fifth` — the fifth failure in a window locks, and so does every one after it.
* `lockouts_iff` — no failure lifts a lock exactly when none is recorded that starts a new window
  while a lock is running.
-/

namespace Imcodes.Security

open Machine

/-! ## The table -/

structure LockoutRow where
  failCount : ℕ
  firstFailAt : ℤ
  lockedUntil : Option ℤ
deriving DecidableEq

/-- `auth_lockout`, by identity. -/
abbrev AuthLockout := String → Option LockoutRow

structure LockoutResult where
  locked : Bool
  lockedUntil : Option ℤ
deriving DecidableEq

/-- `INTERVAL '15 minutes'` -/
def INTERVAL : ℤ := 15 * 60 * 1000

def THRESHOLD : ℕ := 5

/-- `first_fail_at < NOW() - INTERVAL '15 minutes'` -/
def LockoutRow.IsOver (row : LockoutRow) (now : ℤ) : Prop := row.firstFailAt < now - INTERVAL

instance (row : LockoutRow) (now : ℤ) : Decidable (row.IsOver now) :=
  inferInstanceAs (Decidable (_ < _))

/-- `ON CONFLICT (identity) DO UPDATE` -/
def LockoutRow.update (row : LockoutRow) (now : ℤ) : LockoutRow where
  failCount := if row.IsOver now then 1 else row.failCount + 1
  firstFailAt := if row.IsOver now then now else row.firstFailAt
  lockedUntil :=
    if (if row.IsOver now then 1 else row.failCount + 1) ≥ THRESHOLD then some (now + INTERVAL)
    else none

/-- `INSERT INTO auth_lockout … ON CONFLICT …` -/
def upsert (now : ℤ) : Option LockoutRow → LockoutRow
  | none => { failCount := 1, firstFailAt := now, lockedUntil := none }
  | some row => row.update now

def recordAuthFailure (db : AuthLockout) (identity : String) (now : ℤ) :
    AuthLockout × LockoutResult :=
  let row := upsert now (db identity)
  (Function.update db identity (some row), ⟨row.lockedUntil.isSome, row.lockedUntil⟩)

def checkAuthLockout (db : AuthLockout) (identity : String) (now : ℤ) : LockoutResult :=
  match (db identity).bind (·.lockedUntil) with
  | none => ⟨false, none⟩
  | some lockedUntil => if lockedUntil > now then ⟨true, some lockedUntil⟩ else ⟨false, none⟩

/-! ## Runs -/

inductive LockoutEvent
  | fail (identity : String) (now : ℤ)
  | check (identity : String) (now : ℤ)
deriving DecidableEq

def LockoutEvent.now : LockoutEvent → ℤ
  | fail _ now | check _ now => now

def step (db : AuthLockout) : LockoutEvent → AuthLockout
  | .fail identity now => (recordAuthFailure db identity now).1
  | .check _ _ => db

/-- The table after a run. -/
def tableAfter (events : List LockoutEvent) : AuthLockout := run step events fun _ => none

/-- The times do not decrease. -/
def Ordered (events : List LockoutEvent) : Prop := events.Pairwise (·.now ≤ ·.now)

/-- Once a failure has reported that its identity is locked, it is, as long as was reported. -/
def LockoutsHold (events : List LockoutEvent) : Prop :=
  ∀ before identity now after, before ++ .fail identity now :: after <+: events →
    ∀ lockedUntil ∈ (recordAuthFailure (tableAfter before) identity now).2.lockedUntil,
      ∀ t < lockedUntil, (∀ event ∈ after, event.now ≤ t) →
        (checkAuthLockout (tableAfter (before ++ .fail identity now :: after)) identity t).locked

/-- A failure of the identity sets `first_fail_at`. -/
def StartsWindow (db : AuthLockout) (identity : String) (now : ℤ) : Prop :=
  ∀ row ∈ db identity, row.IsOver now

/-- The failures of an identity. -/
def failures (identity : String) (events : List LockoutEvent) : ℕ :=
  events.countP fun event =>
    match event with
    | .fail identity' _ => identity' = identity
    | .check _ _ => false

/-- From the fifth failure since `first_fail_at` was set, every one within its window locks. -/
def FifthLocks (events : List LockoutEvent) : Prop :=
  ∀ before identity start middle now,
    before ++ .fail identity start :: middle ++ [.fail identity now] <+: events →
      StartsWindow (tableAfter before) identity start → now ≤ start + INTERVAL →
        THRESHOLD ≤ failures identity middle + 2 →
          (recordAuthFailure (tableAfter (before ++ .fail identity start :: middle))
            identity now).2.locked

/-- No failure starts a new window while a lock is running. -/
def KeepsLock (db : AuthLockout) : LockoutEvent → Prop
  | .fail identity now => ∀ row ∈ db identity, row.IsOver now →
      ∀ lockedUntil ∈ row.lockedUntil, lockedUntil ≤ now
  | .check _ _ => True

instance (db : AuthLockout) : DecidablePred (KeepsLock db) := fun event => by
  cases event <;> rw [KeepsLock] <;> infer_instance

/-! ## What a failure does -/

variable {db : AuthLockout} {identity identity' : String} {now t lockedUntil : ℤ}
  {row : LockoutRow} {events before : List LockoutEvent} {event : LockoutEvent}

@[simp] theorem locked_checkAuthLockout :
    (checkAuthLockout db identity t).locked = true ↔
      ∃ row ∈ db identity, ∃ lockedUntil ∈ row.lockedUntil, t < lockedUntil := by
  unfold checkAuthLockout
  cases hrow : db identity with
  | none => simp
  | some row =>
    cases hlocked : row.lockedUntil with
    | none => simp [hlocked]
    | some lockedUntil =>
      simp only [Option.bind_some, hlocked, Option.mem_def, Option.some.injEq, exists_eq_left',
        gt_iff_lt]
      split <;> simp_all

theorem step_fail_self :
    step db (.fail identity now) identity = some (upsert now (db identity)) :=
  Function.update_self _ _ _

theorem step_fail_of_ne (h : identity ≠ identity') :
    step db (.fail identity' now) identity = db identity :=
  Function.update_of_ne h _ _

/-- A lock that a failure leaves is as long as a lock, and the count is high enough. -/
theorem lockedUntil_upsert {old : Option LockoutRow} :
    lockedUntil ∈ (upsert now old).lockedUntil ↔
      THRESHOLD ≤ (upsert now old).failCount ∧ lockedUntil = now + INTERVAL := by
  cases old with
  | none => simp [upsert, THRESHOLD]
  | some row =>
    have hlocked : (row.update now).lockedUntil =
        if THRESHOLD ≤ (row.update now).failCount then some (now + INTERVAL) else none := rfl
    rw [upsert, hlocked]
    by_cases hcount : THRESHOLD ≤ (row.update now).failCount
    · rw [if_pos hcount]
      exact ⟨fun h => ⟨hcount, (Option.some.inj h).symm⟩, fun h => congrArg some h.2.symm⟩
    · rw [if_neg hcount]
      exact ⟨fun h => absurd h (Option.not_mem_none _), fun h => absurd h.1 hcount⟩

/-- In a window that is not over, a failure counts. -/
theorem upsert_of_not_isOver (h : ¬ row.IsOver now) :
    (upsert now (some row)).failCount = row.failCount + 1 ∧
      (upsert now (some row)).firstFailAt = row.firstFailAt :=
  ⟨if_neg h, if_neg h⟩

/-- A failure that starts a window is the first in it, and locks nothing. -/
theorem upsert_of_startsWindow (h : StartsWindow db identity now) :
    upsert now (db identity) = { failCount := 1, firstFailAt := now, lockedUntil := none } := by
  cases hrow : db identity with
  | none => rfl
  | some row =>
    have hover : row.IsOver now := h row hrow
    simp [upsert, LockoutRow.update, hover, THRESHOLD]

/-- A failure in a window that is not over at its time counts in it. -/
theorem counts_run {start : ℤ} (hrow : db identity = some row) (hstart : row.firstFailAt = start)
    (hevents : ∀ event ∈ events, event.now ≤ start + INTERVAL) :
    ∃ row', run step events db identity = some row' ∧ row'.firstFailAt = start ∧
      row'.failCount = row.failCount + failures identity events := by
  induction events generalizing db row with
  | nil => exact ⟨row, hrow, hstart, rfl⟩
  | cons event events ih =>
    have hnow := hevents event (List.mem_cons_self ..)
    have hrest := fun event' h' => hevents event' (List.mem_cons_of_mem event h')
    rw [failures, List.countP_cons]
    cases event with
    | check => exact ih hrow hstart hrest
    | fail identity' now =>
      by_cases hsame : identity = identity'
      · subst hsame
        have hnotOver : ¬ row.IsOver now := by
          rw [LockoutRow.IsOver, hstart]
          exact not_lt.2 (Int.sub_right_le_of_le_add hnow)
        obtain ⟨hcount, hfirst⟩ := upsert_of_not_isOver hnotOver
        have hupserted : step db (.fail identity now) identity = some (upsert now (some row)) :=
          step_fail_self.trans (congrArg (some <| upsert now ·) hrow)
        obtain ⟨row', hrow', hstart', hcount'⟩ := ih hupserted (hfirst.trans hstart) hrest
        refine ⟨row', hrow', hstart', ?_⟩
        rw [hcount', hcount, failures, if_pos (decide_eq_true rfl)]
        omega
      · have hkept : step db (.fail identity' now) identity = some row :=
          (step_fail_of_ne hsame).trans hrow
        obtain ⟨row', hrow', hstart', hcount'⟩ := ih hkept hstart hrest
        refine ⟨row', hrow', hstart', ?_⟩
        rw [hcount', failures, if_neg (by simpa using Ne.symm hsame)]
        rfl

/-! ## Locks -/

/-- The identity is locked, at least for that long. -/
def HasLock (db : AuthLockout) (identity : String) (lockedUntil : ℤ) : Prop :=
  ∃ row ∈ db identity, THRESHOLD ≤ row.failCount ∧ ∃ later ∈ row.lockedUntil, lockedUntil ≤ later

/-- **A failure** extends a lock that is running, if it starts no new window. -/
theorem HasLock.step (h : HasLock db identity lockedUntil) (hkeeps : KeepsLock db event)
    (hafter : lockedUntil ≤ event.now + INTERVAL) (hbefore : event.now < lockedUntil) :
    HasLock (step db event) identity lockedUntil := by
  obtain ⟨row, hrow, hcount, later, hlater, hle⟩ := h
  cases event with
  | check => exact ⟨row, hrow, hcount, later, hlater, hle⟩
  | fail identity' now =>
    by_cases hsame : identity = identity'
    · subst hsame
      have hover : ¬ row.IsOver now := fun hover =>
        absurd (hkeeps row hrow hover later hlater) (not_le.2 (lt_of_lt_of_le hbefore hle))
      have hrow' : db identity = some row := hrow
      refine ⟨_, step_fail_self, ?_, now + INTERVAL, lockedUntil_upsert.2 ⟨?_, rfl⟩, hafter⟩ <;>
      · rw [hrow', (upsert_of_not_isOver hover).1]
        exact Nat.le_succ_of_le hcount
    · exact ⟨row, (step_fail_of_ne hsame).trans hrow, hcount, later, hlater, hle⟩

/-- A run extends it as long as it is running. -/
theorem HasLock.run (h : HasLock db identity lockedUntil)
    (hkeeps : Along Security.step KeepsLock events db)
    (hevents : ∀ event ∈ events, lockedUntil ≤ event.now + INTERVAL ∧ event.now < lockedUntil) :
    HasLock (Machine.run Security.step events db) identity lockedUntil := by
  induction events generalizing db with
  | nil => exact h
  | cons event events ih =>
    obtain ⟨hafter, hbefore⟩ := hevents event (List.mem_cons_self ..)
    exact ih (h.step hkeeps.1 hafter hbefore) hkeeps.2
      fun event' h' => hevents event' (List.mem_cons_of_mem _ h')

theorem HasLock.locked (h : HasLock db identity lockedUntil) (ht : t < lockedUntil) :
    (checkAuthLockout db identity t).locked = true := by
  obtain ⟨row, hrow, -, later, hlater, hle⟩ := h
  exact locked_checkAuthLockout.2 ⟨row, hrow, later, hlater, lt_of_lt_of_le ht hle⟩

/-- What is locked was locked by a failure that reported it. -/
theorem exists_fail_of_lockedUntil (events : List LockoutEvent)
    (hrow : row ∈ tableAfter events identity) (hlocked : lockedUntil ∈ row.lockedUntil) :
    ∃ before now after, before ++ .fail identity now :: after = events ∧
      lockedUntil ∈ (recordAuthFailure (tableAfter before) identity now).2.lockedUntil := by
  induction events using List.reverseRecOn with
  | nil => exact absurd hrow (Option.not_mem_none _)
  | append_singleton events event ih =>
    have hstep : tableAfter (events ++ [event]) = step (tableAfter events) event := run_append
    rw [hstep] at hrow
    have hold (h : row ∈ tableAfter events identity) :
        ∃ before now after, before ++ .fail identity now :: after = events ++ [event] ∧
          lockedUntil ∈ (recordAuthFailure (tableAfter before) identity now).2.lockedUntil := by
      obtain ⟨before, now, after, rfl, hreport⟩ := ih h
      exact ⟨before, now, after ++ [event], by simp, hreport⟩
    cases event with
    | check => exact hold hrow
    | fail identity' now =>
      by_cases hsame : identity = identity'
      · subst hsame
        rw [step_fail_self] at hrow
        obtain rfl := Option.some.inj hrow
        exact ⟨events, now, [], rfl, hlocked⟩
      · rw [step_fail_of_ne hsame] at hrow
        exact hold hrow

theorem tableAfter_append_cons (before after : List LockoutEvent) (event : LockoutEvent) :
    tableAfter (before ++ event :: after) = run step after (step (tableAfter before) event) :=
  run_append

/-- The times of a beginning of an ordered run. -/
theorem Ordered.of_prefix {after : List LockoutEvent} (h : Ordered events)
    (hpre : before ++ event :: after <+: events) :
    (∀ event' ∈ before, event'.now ≤ event.now) ∧ ∀ event' ∈ after, event.now ≤ event'.now := by
  obtain ⟨-, hafter, hacross⟩ := List.pairwise_append.1 (h.sublist hpre.sublist)
  exact ⟨fun event' h' => hacross event' h' event (List.mem_cons_self ..),
    (List.pairwise_cons.1 hafter).1⟩

/-- **The fifth failure in a window locks**, and so does every one after it. -/
theorem locked_of_fifth (h : Ordered events) : FifthLocks events := by
  intro before identity start middle now hpre hstarts hnow hcount
  have hmiddle : ∀ event ∈ middle, event.now ≤ start + INTERVAL := by
    have hsplit : (before ++ .fail identity start :: middle) ++ [.fail identity now] <+: events :=
      hpre
    intro event hevent
    refine le_trans ((h.of_prefix hsplit).1 event ?_) hnow
    exact List.mem_append_right _ (List.mem_cons_of_mem _ hevent)
  have hfirstRow : step (tableAfter before) (.fail identity start) identity =
      some { failCount := 1, firstFailAt := start, lockedUntil := none } :=
    step_fail_self.trans (congrArg some (upsert_of_startsWindow hstarts))
  obtain ⟨row, hrow, hfirst, hfailures⟩ := counts_run hfirstRow rfl hmiddle
  rw [← tableAfter_append_cons] at hrow
  have hnotOver : ¬ row.IsOver now := by
    rw [LockoutRow.IsOver, hfirst]
    exact not_lt.2 (Int.sub_right_le_of_le_add hnow)
  have hlocked : now + INTERVAL ∈ (upsert now (some row)).lockedUntil := by
    refine lockedUntil_upsert.2 ⟨?_, rfl⟩
    rw [(upsert_of_not_isOver hnotOver).1, hfailures]
    dsimp only
    omega
  rw [recordAuthFailure, hrow]
  exact Option.isSome_of_mem hlocked

/-- Where no failure starts a window under a lock, the locks hold. -/
theorem lockoutsHold_of_along (h : Ordered events)
    (hkeeps : Along step KeepsLock events fun _ => none) : LockoutsHold events := by
  intro before identity now after hpre lockedUntil hreport t ht hafter
  obtain ⟨rest, rfl⟩ := hpre
  obtain ⟨hcount, rfl⟩ := lockedUntil_upsert.1 hreport
  have hlock : HasLock (step (tableAfter before) (.fail identity now)) identity (now + INTERVAL) :=
    ⟨_, step_fail_self, hcount, _, hreport, le_refl _⟩
  have hkeepsAfter := (along_append.1 (along_append.1 hkeeps).1).2.2
  have htimes := (h.of_prefix (List.prefix_append _ rest)).2
  rw [tableAfter_append_cons]
  exact (hlock.run hkeepsAfter fun event hevent =>
    ⟨Int.add_le_add_right (htimes event hevent) _,
      lt_of_le_of_lt (hafter event hevent) ht⟩).locked ht

/-- A failure that starts a window under a lock lifts the lock. -/
theorem along_of_lockoutsHold (h : Ordered events) (hlocks : LockoutsHold events) :
    Along step KeepsLock events fun _ => none := by
  refine along_iff.2 fun before event hpre => ?_
  cases event with
  | check => trivial
  | fail identity now =>
    intro row hrow hover lockedUntil hlocked
    by_contra hlt
    obtain ⟨start, now', after, rfl, hreport⟩ := exists_fail_of_lockedUntil before hrow hlocked
    have htimes := (h.of_prefix hpre).1
    have hsplit : start ++ .fail identity now' :: (after ++ [.fail identity now]) <+: events := by
      simpa using hpre
    have hstill := hlocks start identity now' (after ++ [.fail identity now]) hsplit lockedUntil
      hreport now (not_le.1 hlt) fun event hevent => by
        rcases List.mem_append.1 hevent with hevent | hevent
        · exact htimes event (List.mem_append_right _ (List.mem_cons_of_mem _ hevent))
        · exact le_of_eq (congrArg LockoutEvent.now (List.mem_singleton.1 hevent))
    have hstarts : StartsWindow (tableAfter (start ++ .fail identity now' :: after)) identity now :=
      fun row' hrow' => Option.some.inj (hrow.symm.trans hrow') ▸ hover
    have hsame : start ++ .fail identity now' :: (after ++ [.fail identity now]) =
        (start ++ .fail identity now' :: after) ++ [.fail identity now] := by simp
    rw [hsame, tableAfter_append_cons, run_nil] at hstill
    obtain ⟨row', hrow', lockedUntil', hlocked', -⟩ := locked_checkAuthLockout.1 hstill
    rw [step_fail_self, upsert_of_startsWindow hstarts] at hrow'
    obtain rfl := Option.some.inj hrow'
    exact absurd hlocked' (Option.not_mem_none _)

/-- **No failure lifts a lock**, and every fifth locks, in exactly the runs in which no failure
starts a new window while a lock is running. -/
theorem lockouts_iff (events : List LockoutEvent) (h : Ordered events) :
    LockoutsHold events ∧ FifthLocks events ↔ Along step KeepsLock events fun _ => none :=
  ⟨fun hboth => along_of_lockoutsHold h hboth.1,
    fun hkeeps => ⟨lockoutsHold_of_along h hkeeps, locked_of_fifth h⟩⟩

/-! ## A lock that starts late in its window -/

/-- Four failures at once, and one at that minute. -/
def fiveFailures (minute : ℤ) : List LockoutEvent :=
  List.replicate 4 (.fail "ip" 0) ++ [.fail "ip" (minute * 60 * 1000)]

instance : DecidablePred Ordered := fun events =>
  inferInstanceAs (Decidable (events.Pairwise _))

/-- The failure after the lock ends starts a new window. -/
theorem lockouts_iff_late :
    LockoutsHold (fiveFailures 14 ++ [.check "ip" 900000, .fail "ip" 1740000]) ∧
      FifthLocks (fiveFailures 14 ++ [.check "ip" 900000, .fail "ip" 1740000]) :=
  (lockouts_iff (fiveFailures 14 ++ [.check "ip" 900000, .fail "ip" 1740000])
    (by decide +kernel)).2 (by decide +kernel)

/-- Locked in the fourteenth minute, free after a failure in the sixteenth. -/
theorem not_lockouts :
    ¬∀ events : List LockoutEvent, Ordered events → LockoutsHold events ∧ FifthLocks events := by
  intro h
  have hlocks := (h (fiveFailures 14 ++ [.fail "ip" 960000]) (by decide +kernel)).1
  have hlocked := hlocks (List.replicate 4 (.fail "ip" 0)) "ip" 840000 [.fail "ip" 960000]
    (by decide +kernel) 1740000 (by decide +kernel) 960000 (by decide +kernel) (by decide +kernel)
  exact absurd hlocked (by decide +kernel)

end Imcodes.Security
