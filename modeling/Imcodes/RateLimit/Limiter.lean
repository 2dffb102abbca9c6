import Imcodes.Collections.OrderedMap
import Mathlib.Data.Int.Notation

/-!
# The rate limiter and its history

`MemoryRateLimiter` keeps three maps, and a timer that prunes them. What it answers is compared with
the answers that the whole history of the calls gives.

* `Remembers.answer` — one call: the answer is that of the history, and the maps go on remembering
  what they have to.
* `log_eq` — every run of calls is answered from its history, and pruning changes no answer.
-/

namespace Imcodes.RateLimit

/-! ## The three maps -/

structure LockoutResult where
  locked : Bool
  lockedUntil : Option ℤ := none
  deriving DecidableEq

def LOCKOUT_THRESHOLD : ℕ := 5

/-- 15 min -/
def LOCKOUT_DURATION_MS : ℤ := 15 * 60 * 1000

structure LockoutEntry where
  failedAttempts : ℕ
  lockedUntil : Option ℤ
  lastAttemptAt : ℤ
  deriving DecidableEq

structure MemoryRateLimiter where
  /-- key → sorted timestamps in window -/
  windows : OrderedMap String (List ℤ) := .empty
  /-- jti → expireAt epoch ms -/
  consumedJtis : OrderedMap String ℤ := .empty
  /-- identity → lockout state -/
  lockouts : OrderedMap String LockoutEntry := .empty

/-- The previous lockout has expired. -/
def LockoutEntry.expired (entry : LockoutEntry) (now : ℤ) : Bool :=
  entry.lockedUntil.any (· ≤ now)

/-- Delete the entries that a map is to lose, one after the other. -/
def prune {ν : Type} (dead : ν → Bool) (map : OrderedMap String ν) : OrderedMap String ν :=
  map.toList.foldl (fun map entry => if dead entry.2 then map.delete entry.1 else map) map

namespace MemoryRateLimiter

variable (limiter : MemoryRateLimiter) (now : ℤ)

/-- Sliding window check. -/
def check (key : String) (limit windowMs : ℤ) : Bool × MemoryRateLimiter :=
  let cutoff := now - windowMs
  let entries := ((limiter.windows.get? key).getD []).filter fun t => t > cutoff
  if entries.length ≥ limit then
    (false, { limiter with windows := limiter.windows.set key entries })
  else (true, { limiter with windows := limiter.windows.set key (entries ++ [now]) })

/-- Consume a JTI. -/
def consumeJti (jti : String) (ttlMs : ℤ) : Bool × MemoryRateLimiter :=
  if (limiter.consumedJtis.get? jti).any (· > now) then (false, limiter)
  else (true, { limiter with consumedJtis := limiter.consumedJtis.set jti (now + ttlMs) })

/-- Record an auth failure. -/
def recordAuthFailure (identity : String) : LockoutResult × MemoryRateLimiter :=
  let entry := (limiter.lockouts.get? identity).getD
    { failedAttempts := 0, lockedUntil := none, lastAttemptAt := now }
  let entry :=
    if entry.expired now then { entry with failedAttempts := 0, lockedUntil := none } else entry
  let entry := { entry with failedAttempts := entry.failedAttempts + 1, lastAttemptAt := now }
  let entry :=
    if entry.failedAttempts ≥ LOCKOUT_THRESHOLD then
      { entry with lockedUntil := some (now + LOCKOUT_DURATION_MS) }
    else entry
  ({ locked := entry.lockedUntil.isSome, lockedUntil := entry.lockedUntil },
    { limiter with lockouts := limiter.lockouts.set identity entry })

/-- Check lockout state without incrementing counter. -/
def checkLockout (identity : String) : LockoutResult :=
  match (limiter.lockouts.get? identity).bind (·.lockedUntil) with
  | some lockedUntil =>
    if lockedUntil > now then { locked := true, lockedUntil } else { locked := false }
  | none => { locked := false }

def cleanup : MemoryRateLimiter where
  windows := prune (·.isEmpty) limiter.windows
  consumedJtis := prune (· ≤ now) limiter.consumedJtis
  lockouts := prune (·.expired now) limiter.lockouts

end MemoryRateLimiter

/-! ## Runs -/

inductive Call
  | check (key : String)
  | consumeJti (jti : String) (ttlMs : ℤ)
  | recordAuthFailure (identity : String)
  | checkLockout (identity : String)
  | cleanup
  deriving DecidableEq

inductive Answer
  | accepted (accepted : Bool)
  | lockout (result : LockoutResult)
  | done
  deriving DecidableEq

/-- The limit and the window with which each key is checked. -/
structure Limits where
  limit : String → ℤ
  windowMs : String → ℤ

/-- A call that has been answered. -/
structure Answered where
  now : ℤ
  call : Call
  answer : Answer
  deriving DecidableEq

def answer (limits : Limits) (limiter : MemoryRateLimiter) (now : ℤ) :
    Call → Answer × MemoryRateLimiter
  | .check key =>
    (limiter.check now key (limits.limit key) (limits.windowMs key)).map .accepted id
  | .consumeJti jti ttlMs => (limiter.consumeJti now jti ttlMs).map .accepted id
  | .recordAuthFailure identity => (limiter.recordAuthFailure now identity).map .lockout id
  | .checkLockout identity => (.lockout (limiter.checkLockout now identity), limiter)
  | .cleanup => (.done, limiter.cleanup now)

/-- What a limiter answers to calls, each at its time. -/
def log (limits : Limits) (limiter : MemoryRateLimiter) : List (ℤ × Call) → List Answered
  | [] => []
  | (now, call) :: calls =>
    { now, call, answer := (answer limits limiter now call).1 } ::
      log limits (answer limits limiter now call).2 calls

/-! ## The history -/

/-- The times of the accepted calls of `check` with a key. -/
def acceptedChecks (past : List Answered) (key : String) : List ℤ :=
  past.filterMap fun call =>
    if call.call = .check key ∧ call.answer = .accepted true then some call.now else none

/-- The ends of the ttls of the accepted calls for a jti. -/
def acceptedJtis (past : List Answered) (jti : String) : List ℤ :=
  past.filterMap fun call =>
    match call.call, call.answer with
    | .consumeJti jti' ttlMs, .accepted true => if jti' = jti then some (call.now + ttlMs) else none
    | _, _ => none

/-- The times of the failures of an identity. -/
def failures (past : List Answered) (identity : String) : List ℤ :=
  past.filterMap fun call =>
    if call.call = .recordAuthFailure identity then some call.now else none

/-- Failures that have locked an identity, and the lockout is over. -/
def Expired (failures : List ℤ) (now : ℤ) : Prop :=
  LOCKOUT_THRESHOLD ≤ failures.length ∧
    ∀ latest ∈ failures.getLast?, latest + LOCKOUT_DURATION_MS ≤ now

instance (failures : List ℤ) (now : ℤ) : Decidable (Expired failures now) :=
  inferInstanceAs (Decidable (_ ∧ _))

/-- The failures since the last expired lockout. -/
def sinceExpired (failures : List ℤ) : List ℤ :=
  failures.foldl (fun group now => if Expired group now then [now] else group ++ [now]) []

/-- An identity is locked from its fifth failure since the last expired lockout until the lockout
duration after its latest one. -/
def lockoutAt (failures : List ℤ) (now : ℤ) : LockoutResult :=
  match (sinceExpired failures).getLast? with
  | some latest =>
    if LOCKOUT_THRESHOLD ≤ (sinceExpired failures).length ∧ now < latest + LOCKOUT_DURATION_MS then
      { locked := true, lockedUntil := latest + LOCKOUT_DURATION_MS }
    else { locked := false }
  | none => { locked := false }

/-- The answer that the calls before give. -/
def historyAnswer (limits : Limits) (past : List Answered) (now : ℤ) : Call → Answer
  | .check key =>
    .accepted (((acceptedChecks past key).filter
      fun t => t > now - limits.windowMs key).length < limits.limit key)
  | .consumeJti jti _ => .accepted (∀ expireAt ∈ acceptedJtis past jti, expireAt ≤ now)
  | .recordAuthFailure identity => .lockout (lockoutAt (failures past identity ++ [now]) now)
  | .checkLockout identity => .lockout (lockoutAt (failures past identity) now)
  | .cleanup => .done

/-- Calls answered from their history. -/
def historyLog (limits : Limits) (past : List Answered) : List (ℤ × Call) → List Answered
  | [] => []
  | (now, call) :: calls =>
    let answered := { now, call, answer := historyAnswer limits past now call }
    answered :: historyLog limits (past ++ [answered]) calls
/-! ## Pruning a map -/

variable {ν : Type} {dead : ν → Bool} {map : OrderedMap String ν}

theorem get?_foldl_prune {entries : List (String × ν)} {key : String} :
    (entries.foldl (fun map entry => if dead entry.2 then map.delete entry.1 else map) map).get?
        key =
      if ∃ entry ∈ entries, entry.1 = key ∧ dead entry.2 = true then none else map.get? key := by
  induction entries generalizing map with
  | nil => simp
  | cons entry entries ih =>
    rw [List.foldl_cons, ih]
    simp only [List.exists_mem_cons_iff]
    by_cases hlater : ∃ entry ∈ entries, entry.1 = key ∧ dead entry.2 = true
    · rw [if_pos hlater, if_pos (Or.inr hlater)]
    · rw [if_neg hlater]
      by_cases hdead : dead entry.2 = true
      · rw [if_pos hdead, OrderedMap.get?_delete]
        by_cases hkey : key = entry.1
        · rw [if_pos hkey, if_pos (Or.inl ⟨hkey.symm, hdead⟩)]
        · rw [if_neg hkey, if_neg fun h => h.elim (fun h => hkey h.1.symm) hlater]
      · rw [if_neg hdead, if_neg fun h => h.elim (fun h => hdead h.2) hlater]

/-- **Pruning** takes away what is to be lost. -/
theorem get?_prune {key : String} :
    (prune dead map).get? key = (map.get? key).filter fun value => !dead value := by
  rw [prune, get?_foldl_prune]
  cases hvalue : map.get? key with
  | none => exact ite_self _
  | some value =>
    have hmem := OrderedMap.get?_eq_some.1 hvalue
    rw [Option.filter_some]
    by_cases hdead : dead value = true
    · rw [if_pos ⟨(key, value), hmem, rfl, hdead⟩, hdead]
      rfl
    · have hnone : ¬ ∃ entry ∈ map.toList, entry.1 = key ∧ dead entry.2 = true := by
        rintro ⟨⟨key', value'⟩, hmem', rfl, hdead'⟩
        obtain rfl := Option.some.inj (hvalue.symm.trans (OrderedMap.get?_eq_some.2 hmem'))
        exact hdead hdead'
      rw [if_neg hnone, Bool.eq_false_iff.2 hdead]
      rfl

/-! ## One more call in the history -/

variable {limits : Limits} {past : List Answered} {clock now : ℤ} {limiter : MemoryRateLimiter}
variable {key jti identity : String} {group : List ℤ}

theorem acceptedChecks_concat (d : Answered) : acceptedChecks (past ++ [d]) key =
    acceptedChecks past key ++
      if d.call = .check key ∧ d.answer = .accepted true then [d.now] else [] := by
  rw [acceptedChecks, List.filterMap_append, ← acceptedChecks]
  congr 1
  split <;> simp [*]

theorem failures_concat (d : Answered) : failures (past ++ [d]) identity =
    failures past identity ++ if d.call = .recordAuthFailure identity then [d.now] else [] := by
  rw [failures, List.filterMap_append, ← failures]
  congr 1
  split <;> simp [*]

theorem acceptedJtis_concat_of_ne {d : Answered}
    (h : ∀ ttlMs, d.call = .consumeJti jti ttlMs → d.answer ≠ .accepted true) :
    acceptedJtis (past ++ [d]) jti = acceptedJtis past jti := by
  rw [acceptedJtis, List.filterMap_append, ← acceptedJtis, List.append_right_eq_self]
  obtain ⟨now, call, answer⟩ := d
  rw [List.filterMap_eq_nil_iff]
  intro d hd
  obtain rfl := List.mem_singleton.1 hd
  dsimp only
  split
  · rename_i jti' ttlMs
    exact if_neg fun heq => h ttlMs (by rw [heq]) rfl
  · rfl

theorem acceptedJtis_concat_accepted {ttlMs : ℤ} :
    acceptedJtis (past ++ [{ now, call := .consumeJti jti ttlMs, answer := .accepted true }]) jti =
      acceptedJtis past jti ++ [now + ttlMs] := by
  rw [acceptedJtis, List.filterMap_append, ← acceptedJtis]
  simp

theorem sinceExpired_concat (failures : List ℤ) : sinceExpired (failures ++ [now]) =
    if Expired (sinceExpired failures) now then [now] else sinceExpired failures ++ [now] := by
  rw [sinceExpired, List.foldl_append]
  rfl

theorem getLast?_sinceExpired_concat (failures : List ℤ) :
    (sinceExpired (failures ++ [now])).getLast? = some now := by
  rw [sinceExpired_concat]
  split
  · rfl
  · exact List.getLast?_concat

theorem Expired.mono (h : Expired group clock) (hnow : clock ≤ now) : Expired group now :=
  ⟨h.1, fun latest hlatest => Int.le_trans (h.2 latest hlatest) hnow⟩

theorem not_expired_nil : ¬ Expired [] now :=
  fun h => absurd h.1 (by decide)

/-! ## What the maps remember -/

/-- What is kept about an identity with these failures since its last expired lockout. -/
inductive LockoutOf (group : List ℤ) (clock : ℤ) : Option LockoutEntry → Prop
  | kept {entry : LockoutEntry} (hcount : entry.failedAttempts = group.length)
      (hlocked : entry.lockedUntil =
        if LOCKOUT_THRESHOLD ≤ group.length then group.getLast?.map (· + LOCKOUT_DURATION_MS)
        else none) : LockoutOf group clock (some entry)
  | noFailure (h : group = []) : LockoutOf group clock none
  | expired (h : Expired group clock) : LockoutOf group clock none

/-- The maps remember of the history what counts from now on. -/
structure Remembers (limits : Limits) (past : List Answered) (clock : ℤ)
    (limiter : MemoryRateLimiter) : Prop where
  window : ∀ key now, clock ≤ now →
    (((limiter.windows.get? key).getD []).filter fun t => t > now - limits.windowMs key) =
      (acceptedChecks past key).filter fun t => t > now - limits.windowMs key
  jti : ∀ jti now, clock ≤ now →
    ((limiter.consumedJtis.get? jti).any (· > now) = true ↔
      ∃ expireAt ∈ acceptedJtis past jti, now < expireAt)
  lockout : ∀ identity,
    LockoutOf (sinceExpired (failures past identity)) clock (limiter.lockouts.get? identity)

theorem LockoutOf.mono {entry : Option LockoutEntry} (h : LockoutOf group clock entry)
    (hnow : clock ≤ now) : LockoutOf group now entry := by
  cases h with
  | kept hcount hlocked => exact .kept hcount hlocked
  | noFailure h => exact .noFailure h
  | expired h => exact .expired (h.mono hnow)

/-- Later, less has to be remembered. -/
theorem Remembers.mono (h : Remembers limits past clock limiter) (hnow : clock ≤ now) :
    Remembers limits past now limiter where
  window key now' hnow' := h.window key now' (Int.le_trans hnow hnow')
  jti jti now' hnow' := h.jti jti now' (Int.le_trans hnow hnow')
  lockout identity := (h.lockout identity).mono hnow

theorem remembers_start : Remembers limits [] clock {} where
  window _ _ _ := rfl
  jti _ _ _ := iff_of_false (by simp) (by simp [acceptedJtis])
  lockout _ := .noFailure rfl

theorem expired_iff {entry : LockoutEntry} (h : LockoutOf group clock (some entry)) :
    entry.expired now = true ↔ Expired group now := by
  cases h with
  | kept hcount hlocked =>
    rw [LockoutEntry.expired, hlocked, Expired]
    by_cases hlength : LOCKOUT_THRESHOLD ≤ group.length
    · obtain ⟨latest, hlatest⟩ : ∃ latest, group.getLast? = some latest :=
        ⟨_, List.getLast?_eq_some_getLast (List.ne_nil_of_length_pos (by
          have hpos : 0 < LOCKOUT_THRESHOLD := by decide
          omega))⟩
      rw [if_pos hlength, hlatest, and_iff_right hlength]
      simp
    · rw [if_neg hlength]
      exact iff_of_false (by simp) fun h => hlength h.1

/-! ## One call -/

/-- The answer of a call, with what is remembered after it. -/
def Remembered (limits : Limits) (past : List Answered) (limiter : MemoryRateLimiter) (now : ℤ)
    (call : Call) : Prop :=
  (answer limits limiter now call).1 = historyAnswer limits past now call ∧
    Remembers limits (past ++ [{ now, call, answer := historyAnswer limits past now call }]) now
      (answer limits limiter now call).2

/-- A call that the maps do not have to remember. -/
theorem Remembers.concat {d : Answered} (h : Remembers limits past clock limiter)
    (hcheck : ∀ key, ¬ (d.call = .check key ∧ d.answer = .accepted true))
    (hjti : ∀ jti ttlMs, d.call = .consumeJti jti ttlMs → d.answer ≠ .accepted true)
    (hfailure : ∀ identity, d.call ≠ .recordAuthFailure identity) :
    Remembers limits (past ++ [d]) clock limiter where
  window key now hnow := by
    rw [acceptedChecks_concat, if_neg (hcheck key), List.append_nil]
    exact h.window key now hnow
  jti jti now hnow := by
    rw [acceptedJtis_concat_of_ne (hjti jti)]
    exact h.jti jti now hnow
  lockout identity := by
    rw [failures_concat, if_neg (hfailure identity), List.append_nil]
    exact h.lockout identity

theorem filter_filter_later {times : List ℤ} {w : ℤ} (h : clock ≤ now) :
    (times.filter fun t => t > clock - w).filter (fun t => t > now - w) =
      times.filter fun t => t > now - w := by
  rw [List.filter_filter]
  refine List.filter_congr fun t _ => ?_
  rw [← Bool.decide_and, decide_eq_decide]
  omega

theorem remembered_check (h : Remembers limits past now limiter) :
    Remembered limits past limiter now (.check key) := by
  have hentries := h.window key now (Int.le_refl _)
  unfold Remembered
  dsimp only [answer, historyAnswer, MemoryRateLimiter.check, Prod.map]
  rw [hentries]
  by_cases hlimit : limits.limit key ≤
      ((acceptedChecks past key).filter fun t => t > now - limits.windowMs key).length
  · rw [if_pos hlimit, decide_eq_false (Int.not_lt.2 hlimit)]
    refine ⟨rfl, Remembers.concat ⟨fun key' now' hnow => ?_, h.jti, h.lockout⟩
      (by simp) (by simp) (by simp)⟩
    dsimp only [id]
    rw [OrderedMap.get?_set]
    split
    · rename_i hkey
      subst hkey
      exact filter_filter_later hnow
    · exact h.window key' now' hnow
  · rw [if_neg hlimit, decide_eq_true (Int.not_le.1 hlimit)]
    refine ⟨rfl, fun key' now' hnow => ?_, fun jti now' hnow => ?_, fun identity => ?_⟩
    · rw [acceptedChecks_concat]
      dsimp only [id]
      rw [OrderedMap.get?_set]
      by_cases hkey : key' = key
      · subst hkey
        rw [if_pos rfl, if_pos ⟨rfl, rfl⟩, Option.getD_some, List.filter_append,
          List.filter_append, filter_filter_later hnow]
      · rw [if_neg hkey, if_neg fun heq => hkey (Call.check.inj heq.1).symm, List.append_nil]
        exact h.window key' now' hnow
    · rw [acceptedJtis_concat_of_ne (by simp)]
      exact h.jti jti now' hnow
    · rw [failures_concat, if_neg nofun, List.append_nil]
      exact h.lockout identity

theorem remembered_consumeJti {ttlMs : ℤ} (h : Remembers limits past now limiter) :
    Remembered limits past limiter now (.consumeJti jti ttlMs) := by
  have hkept := h.jti jti now (Int.le_refl _)
  have hall : (∀ expireAt ∈ acceptedJtis past jti, expireAt ≤ now) ↔
      ¬ ∃ expireAt ∈ acceptedJtis past jti, now < expireAt := by
    simp only [not_exists, not_and, Int.not_lt]
  unfold Remembered
  dsimp only [answer, historyAnswer, MemoryRateLimiter.consumeJti, Prod.map]
  by_cases hlive : (limiter.consumedJtis.get? jti).any (· > now) = true
  · rw [if_pos hlive, decide_eq_false (by rw [hall, not_not]; exact hkept.1 hlive)]
    exact ⟨rfl, h.concat (by simp) (by simp) (by simp)⟩
  · have hover := hall.2 (mt hkept.2 hlive)
    rw [if_neg hlive, decide_eq_true hover]
    refine ⟨rfl, fun key now' hnow => ?_, fun jti' now' hnow => ?_, fun identity => ?_⟩
    · rw [acceptedChecks_concat, if_neg (by simp), List.append_nil]
      exact h.window key now' hnow
    · dsimp only [id]
      rw [OrderedMap.get?_set]
      by_cases hjti : jti' = jti
      · subst hjti
        rw [if_pos rfl, acceptedJtis_concat_accepted]
        constructor
        · intro hlater
          exact ⟨now + ttlMs, by simp, by simpa using hlater⟩
        · rintro ⟨expireAt, hmem, hlater⟩
          rcases List.mem_append.1 hmem with hold | hnew
          · exact absurd (hover expireAt hold) (by omega)
          · rw [List.mem_singleton.1 hnew] at hlater
            simpa using hlater
      · rw [if_neg hjti,
          acceptedJtis_concat_of_ne fun _ heq => absurd (Call.consumeJti.inj heq).1.symm hjti]
        exact h.jti jti' now' hnow
    · rw [failures_concat, if_neg nofun, List.append_nil]
      exact h.lockout identity

/-- The failures of an identity since its last expired lockout, after one more. -/
abbrev failedAgain (group : List ℤ) (now : ℤ) : List ℤ :=
  if Expired group now then [now] else group ++ [now]

/-- The entry that a failure counts in, with an expired lockout forgotten. -/
theorem counted_reset {stored : Option LockoutEntry} (h : LockoutOf group now stored) :
    let entry := stored.getD { failedAttempts := 0, lockedUntil := none, lastAttemptAt := now }
    let entry :=
      if entry.expired now then { entry with failedAttempts := 0, lockedUntil := none } else entry
    entry.failedAttempts + 1 = (failedAgain group now).length ∧
      ((failedAgain group now).length < LOCKOUT_THRESHOLD → entry.lockedUntil = none) := by
  dsimp only
  cases h with
  | noFailure hnil =>
    subst hnil
    rw [failedAgain, if_neg not_expired_nil]
    exact ⟨rfl, fun _ => rfl⟩
  | expired hexpired =>
    rw [failedAgain, if_pos hexpired]
    exact ⟨rfl, fun _ => rfl⟩
  | @kept entry hcount hlocked =>
    have hkept : LockoutOf group now (some entry) := .kept hcount hlocked
    have hiff : entry.expired now = true ↔ Expired group now := expired_iff hkept
    rw [Option.getD_some]
    by_cases hexpired : entry.expired now = true
    · rw [if_pos hexpired, failedAgain, if_pos (hiff.1 hexpired)]
      exact ⟨rfl, fun _ => rfl⟩
    · rw [if_neg hexpired, failedAgain, if_neg (mt hiff.2 hexpired), List.length_append,
        List.length_singleton, hcount]
      refine ⟨rfl, fun hlength => ?_⟩
      rw [hlocked, if_neg (by omega)]

theorem getLast?_failedAgain : (failedAgain group now).getLast? = some now := by
  rw [failedAgain]
  split
  · rfl
  · exact List.getLast?_concat

/-- The entry of an identity that fails once more. -/
theorem lockoutOf_recordAuthFailure (h : LockoutOf group now (limiter.lockouts.get? identity)) :
    LockoutOf (failedAgain group now) now
        ((limiter.recordAuthFailure now identity).2.lockouts.get? identity) ∧
      (limiter.recordAuthFailure now identity).1 =
        if LOCKOUT_THRESHOLD ≤ (failedAgain group now).length then
          { locked := true, lockedUntil := now + LOCKOUT_DURATION_MS }
        else { locked := false } := by
  have hcounted := counted_reset h
  have hlast := @getLast?_failedAgain now group
  unfold MemoryRateLimiter.recordAuthFailure
  dsimp only at hcounted ⊢
  rw [OrderedMap.get?_set, if_pos rfl]
  generalize (if LockoutEntry.expired _ _ = true then _ else _ : LockoutEntry) = entry at hcounted ⊢
  obtain ⟨hcount, hlocked⟩ := hcounted
  by_cases hthreshold : LOCKOUT_THRESHOLD ≤ entry.failedAttempts + 1
  · rw [if_pos hthreshold, if_pos (hcount ▸ hthreshold)]
    refine ⟨.kept hcount ?_, rfl⟩
    rw [if_pos (hcount ▸ hthreshold), hlast]
    rfl
  · have hnone := hlocked (by omega)
    rw [if_neg hthreshold, if_neg (hcount ▸ hthreshold), hnone]
    refine ⟨.kept hcount ?_, rfl⟩
    rw [if_neg (hcount ▸ hthreshold)]

theorem checkLockout_eq {failures : List ℤ}
    (h : LockoutOf (sinceExpired failures) now (limiter.lockouts.get? identity)) :
    limiter.checkLockout now identity = lockoutAt failures now := by
  unfold MemoryRateLimiter.checkLockout lockoutAt
  cases hentry : limiter.lockouts.get? identity with
  | none =>
    rw [hentry] at h
    cases h with
    | noFailure hnil =>
      rw [hnil]
      rfl
    | expired hexpired =>
      dsimp only [Option.bind_none]
      split
      · rename_i latest hlatest
        have hover := hexpired.2 latest hlatest
        rw [if_neg fun hlocked => by omega]
      · rfl
  | some entry =>
    rw [hentry] at h
    cases h with
    | kept hcount hlocked =>
      rw [Option.bind_some, hlocked]
      cases hlatest : (sinceExpired failures).getLast? with
      | none => simp
      | some latest =>
        by_cases hlength : LOCKOUT_THRESHOLD ≤ (sinceExpired failures).length
        · simp only [if_pos hlength, Option.map_some, and_iff_right hlength, gt_iff_lt]
        · simp only [hlength, false_and, if_false]

theorem remembered_recordAuthFailure (h : Remembers limits past now limiter) :
    Remembered limits past limiter now (.recordAuthFailure identity) := by
  obtain ⟨hentry, hresult⟩ := lockoutOf_recordAuthFailure (h.lockout identity)
  rw [failedAgain, ← sinceExpired_concat] at hentry hresult
  have hlast := @getLast?_sinceExpired_concat now (failures past identity)
  refine ⟨?_, fun key now' hnow => ?_, fun jti now' hnow => ?_, fun identity' => ?_⟩
  · dsimp only [answer, historyAnswer, Prod.map]
    rw [hresult, lockoutAt, hlast]
    dsimp only
    have hduration : now < now + LOCKOUT_DURATION_MS := by
      have hpos : 0 < LOCKOUT_DURATION_MS := by decide
      omega
    simp only [hduration, and_true]
  · rw [acceptedChecks_concat, if_neg (by simp), List.append_nil]
    exact h.window key now' hnow
  · rw [acceptedJtis_concat_of_ne (by simp)]
    exact h.jti jti now' hnow
  · rw [failures_concat]
    by_cases hidentity : identity = identity'
    · subst hidentity
      rw [if_pos rfl]
      exact hentry
    · rw [if_neg fun heq => hidentity (Call.recordAuthFailure.inj heq), List.append_nil]
      have hsame : (answer limits limiter now (.recordAuthFailure identity)).2.lockouts.get?
          identity' = limiter.lockouts.get? identity' := by
        dsimp only [answer, MemoryRateLimiter.recordAuthFailure, Prod.map, id]
        rw [OrderedMap.get?_set, if_neg (Ne.symm hidentity)]
      rw [hsame]
      exact h.lockout identity'

/-- **Pruning** forgets nothing that counts. -/
theorem remembered_cleanup (h : Remembers limits past now limiter) :
    Remembered limits past limiter now .cleanup := by
  refine ⟨rfl, Remembers.concat ⟨fun key now' hnow => ?_, fun jti now' hnow => ?_,
    fun identity => ?_⟩ (by simp) (by simp) (by simp)⟩
  all_goals dsimp only [answer, MemoryRateLimiter.cleanup]
  all_goals rw [get?_prune]
  · rw [← h.window key now' hnow]
    cases limiter.windows.get? key with
    | none => rfl
    | some entries => cases entries <;> rfl
  · rw [← h.jti jti now' hnow]
    cases limiter.consumedJtis.get? jti with
    | none => rfl
    | some expireAt =>
      rw [Option.filter_some]
      by_cases hover : expireAt ≤ now
      · simp only [hover, decide_true, Bool.not_true, Bool.false_eq_true, if_false,
          Option.any_none, Option.any_some, gt_iff_lt, decide_eq_true_eq, false_iff, Int.not_lt]
        exact Int.le_trans hover hnow
      · simp only [hover, decide_false, Bool.not_false, if_true]
  · have hkept := h.lockout identity
    cases hentry : limiter.lockouts.get? identity with
    | none =>
      rw [hentry] at hkept
      exact hkept
    | some entry =>
      rw [hentry] at hkept
      rw [Option.filter_some]
      by_cases hexpired : entry.expired now = true
      · rw [hexpired]
        exact .expired ((expired_iff hkept).1 hexpired)
      · rw [Bool.eq_false_iff.2 hexpired]
        exact hkept

/-- **One call** is answered from its history. -/
theorem Remembers.answer (h : Remembers limits past now limiter) (call : Call) :
    Remembered limits past limiter now call := by
  cases call with
  | check key => exact remembered_check h
  | consumeJti jti ttlMs => exact remembered_consumeJti h
  | recordAuthFailure identity => exact remembered_recordAuthFailure h
  | checkLockout identity =>
    have hlockout := checkLockout_eq (h.lockout identity)
    refine ⟨congrArg Answer.lockout hlockout, h.concat (by simp) (by simp) (by simp)⟩
  | cleanup => exact remembered_cleanup h

/-! ## Every run -/

theorem log_eq_historyLog {calls : List (ℤ × Call)} (h : Remembers limits past clock limiter)
    (hclock : ∀ call ∈ calls, clock ≤ call.1) (hsorted : calls.Pairwise fun a b => a.1 ≤ b.1) :
    log limits limiter calls = historyLog limits past calls := by
  induction calls generalizing past clock limiter with
  | nil => rfl
  | cons call calls ih =>
    obtain ⟨now, call⟩ := call
    obtain ⟨hnow, -⟩ := List.forall_mem_cons.1 hclock
    obtain ⟨hlater, hsorted⟩ := List.pairwise_cons.1 hsorted
    obtain ⟨hanswer, hnext⟩ := (h.mono hnow).answer call
    rw [log, historyLog, hanswer, ih hnext hlater hsorted]

/-- What is not a run of `cleanup`. -/
abbrev noCleanup (call : Call) : Bool := call ≠ .cleanup

theorem filterMap_noCleanup {f : Answered → Option ℤ}
    (h : ∀ answered, answered.call = .cleanup → f answered = none) :
    (past.filter (noCleanup ·.call)).filterMap f = past.filterMap f := by
  rw [List.filterMap_filter]
  refine List.filterMap_congr fun answered _ => ?_
  by_cases hcall : answered.call = .cleanup
  · rw [if_neg (by simp [noCleanup, hcall]), h answered hcall]
  · rw [if_pos (by simp [noCleanup, hcall])]

/-- Pruning is no part of what counts in a history. -/
theorem historyAnswer_filter (call : Call) :
    historyAnswer limits (past.filter (noCleanup ·.call)) now call =
      historyAnswer limits past now call := by
  have hfailures : ∀ identity, failures (past.filter (noCleanup ·.call)) identity =
      failures past identity := fun identity =>
    filterMap_noCleanup fun answered hcall => by rw [hcall]; exact if_neg nofun
  cases call with
  | check key =>
    have hchecks : acceptedChecks (past.filter (noCleanup ·.call)) key = acceptedChecks past key :=
      filterMap_noCleanup fun answered hcall => by rw [hcall]; exact if_neg fun h => nomatch h.1
    rw [historyAnswer, historyAnswer, hchecks]
  | consumeJti jti ttlMs =>
    have hjtis : acceptedJtis (past.filter (noCleanup ·.call)) jti = acceptedJtis past jti :=
      filterMap_noCleanup fun answered hcall => by rw [hcall]
    rw [historyAnswer, historyAnswer, hjtis]
  | recordAuthFailure identity => rw [historyAnswer, historyAnswer, hfailures]
  | checkLockout identity => rw [historyAnswer, historyAnswer, hfailures]
  | cleanup => rfl

theorem historyLog_filter {calls : List (ℤ × Call)} :
    historyLog limits (past.filter (noCleanup ·.call)) (calls.filter (noCleanup ·.2)) =
      (historyLog limits past calls).filter (noCleanup ·.call) := by
  induction calls generalizing past with
  | nil => rfl
  | cons call calls ih =>
    obtain ⟨now, call⟩ := call
    have hnext := @ih (past ++ [{ now, call, answer := historyAnswer limits past now call }])
    rw [historyLog]
    by_cases hcall : noCleanup call = true
    · simp only [List.filter_append, List.filter_cons, List.filter_nil, hcall, if_true] at hnext ⊢
      rw [historyLog, historyAnswer_filter, hnext]
    · simp only [List.filter_append, List.filter_cons, List.filter_nil, hcall, if_false,
        List.append_nil, Bool.false_eq_true] at hnext ⊢
      exact hnext

/-- **The rate limiter equals its history**, and pruning its maps changes no answer. -/
theorem log_eq (limits : Limits) (calls : List (ℤ × Call))
    (hclock : calls.Pairwise fun a b => a.1 ≤ b.1) :
    log limits {} calls = historyLog limits [] calls ∧
      log limits {} (calls.filter (noCleanup ·.2)) =
        (log limits {} calls).filter (noCleanup ·.call) := by
  have hall : ∀ calls : List (ℤ × Call), (calls.Pairwise fun a b => a.1 ≤ b.1) →
      log limits {} calls = historyLog limits [] calls := fun calls hsorted => by
    cases calls with
    | nil => rfl
    | cons call calls =>
      refine log_eq_historyLog (remembers_start : Remembers limits [] call.1 {}) ?_ hsorted
      exact List.forall_mem_cons.2 ⟨Int.le_refl _, (List.pairwise_cons.1 hsorted).1⟩
  refine ⟨hall calls hclock, ?_⟩
  rw [hall calls hclock, hall _ (hclock.filter _)]
  exact @historyLog_filter limits [] calls

/-- Checks with a limit of one a second, and five failures with a sweep between them. -/
def busyMinute : List (ℤ × Call) :=
  [(0, .check "ip"), (999, .check "ip"), (1000, .cleanup), (1000, .check "ip"),
    (1000, .consumeJti "jti" 5), (1004, .consumeJti "jti" 5), (1005, .consumeJti "jti" 5),
    (2000, .recordAuthFailure "me"), (2001, .recordAuthFailure "me"),
    (2002, .recordAuthFailure "me"), (60000, .cleanup), (60000, .recordAuthFailure "me"),
    (60001, .recordAuthFailure "me"), (960000, .checkLockout "me"), (960001, .checkLockout "me")]

theorem log_eq_busyMinute :
    let limits : Limits := { limit := fun _ => 1, windowMs := fun _ => 1000 }
    log limits {} busyMinute = historyLog limits [] busyMinute ∧
      log limits {} (busyMinute.filter (noCleanup ·.2)) =
        (log limits {} busyMinute).filter (noCleanup ·.call) :=
  log_eq _ busyMinute (by decide)

end Imcodes.RateLimit
