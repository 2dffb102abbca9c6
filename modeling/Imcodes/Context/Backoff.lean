import Mathlib
import Imcodes.Context.ClientBooks

/-!
# The backoff of the context-store client

A worker that fails again and again should be made again after ever longer pauses, up to a cap.
The pause is a shift of 32 bits by the number of the failures.

* `warmupBackoffMs_eq_iff` — the pause is the one that is meant for the counts that are
  `Shiftable`, and for no others.
* `step_moves` — what an event does to the health of a client.
* `backoff_spaced` — in a run in which no worker is made at another count, two workers are made at
  least a pause apart; `not_backoff_spaced` — after 25 failures the next worker is made at once.
-/

namespace Imcodes.Context

open Machine

/-! ## The pause -/

/-- The pause after `n` failures in a row. -/
def backoff (n : ℕ) : ℤ :=
  if n ≤ 1 then 0 else min (warmupBackoffBaseMs * 2 ^ (n - 2)) warmupBackoffMaxMs

/-- The base can be shifted by as much as `n` failures ask for: nothing is lost, or what is left
is still over the cap. -/
def Shiftable (n : ℕ) : Prop :=
  n ≤ 24 ∨ 7 ≤ (n - 2) % 32 ∧ (n - 2) % 32 ≤ 22 ∨ (n - 2) % 32 = 28

instance Shiftable.decidable (n : ℕ) : Decidable (Shiftable n) := by
  unfold Shiftable
  infer_instance

theorem backoff_le (n : ℕ) : backoff n ≤ warmupBackoffMaxMs := by
  unfold backoff
  split
  · decide
  · exact min_le_right _ _

theorem monotone_backoff : Monotone backoff := by
  intro n m hle
  unfold backoff
  split
  · split
    · exact le_rfl
    · exact le_min (Int.mul_nonneg (by decide) (Int.pow_nonneg (by decide))) (by decide)
  · rename_i hn
    rw [if_neg (by omega)]
    refine min_le_min_right _ (mul_le_mul_of_nonneg_left ?_ (by decide))
    exact_mod_cast Nat.pow_le_pow_right (by decide) (by omega : n - 2 ≤ m - 2)

namespace Client

/-- From the seventh doubling on the pause is at its cap. -/
theorem capped {k : ℕ} (hk : 7 ≤ k) :
    min ((warmupBackoffBaseMs : ℤ) * 2 ^ k) warmupBackoffMaxMs = warmupBackoffMaxMs := by
  refine min_eq_right ?_
  have hpow : (2 : ℤ) ^ 7 ≤ 2 ^ k := by exact_mod_cast Nat.pow_le_pow_right (by decide) hk
  rw [show (warmupBackoffBaseMs : ℤ) = 500 from rfl, show warmupBackoffMaxMs = 60000 from rfl]
  omega

/-- The shifts by less than 32. -/
theorem shift_small : ∀ k < 32,
    (min (shiftLeft warmupBackoffBaseMs k) warmupBackoffMaxMs =
        min ((warmupBackoffBaseMs : ℤ) * 2 ^ k) warmupBackoffMaxMs ↔ k ≤ 22 ∨ k = 28) ∧
      (min (shiftLeft warmupBackoffBaseMs k) warmupBackoffMaxMs = warmupBackoffMaxMs ↔
        7 ≤ k ∧ k ≤ 22 ∨ k = 28) := by
  decide +kernel

theorem shiftLeft_mod (a k : ℕ) : shiftLeft a k = shiftLeft a (k % 32) := by
  rw [shiftLeft, shiftLeft, Nat.mod_mod]

/-- The pause of the code is the one that is meant exactly when the base can be shifted so far. -/
theorem warmupBackoffMs_eq_iff (client : Client) :
    client.warmupBackoffMs = backoff client.consecutiveWorkerFailures ↔
      Shiftable client.consecutiveWorkerFailures := by
  generalize hn : client.consecutiveWorkerFailures = n
  unfold warmupBackoffMs backoff Shiftable
  rw [hn]
  by_cases hfirst : n ≤ 1
  · rw [if_pos hfirst, if_pos hfirst]
    exact iff_of_true rfl (Or.inl (by omega))
  · rw [if_neg hfirst, if_neg hfirst]
    by_cases hsmall : n - 2 < 32
    · rw [(shift_small _ hsmall).1, Nat.mod_eq_of_lt hsmall]
      omega
    · rw [capped (by omega), shiftLeft_mod, (shift_small _ (Nat.mod_lt _ (by decide))).2]
      omega
end Client

/-! ## What an event does to the health of a client -/

/-- What a client remembers of its workers and of how they failed. -/
structure Health where
  clock : ℕ
  worker : Option ℕ
  lastRespawnAt : ℕ
  failures : ℕ
  lastFailureAt : ℕ
  served : Bool
  recorded : Option ℕ
  disposed : Bool
  generation : ℕ

namespace Client

/-- The health of a client. -/
def health (client : Client) : Health where
  clock := client.clock
  worker := client.worker
  lastRespawnAt := client.lastRespawnAt
  failures := client.consecutiveWorkerFailures
  lastFailureAt := client.lastWorkerFailureAt
  served := client.generationServedOk
  recorded := client.workerFailureRecordedGeneration
  disposed := client.disposed
  generation := client.workerGeneration

/-- The client may make a worker. -/
def MayCreate (client : Client) (event : ClientEvent) : Prop :=
  event = .start ∨ client.isRespawnThrottled = false

end Client

/-- An event leaves the health of a client as it is, or does one of these; `may` says that a worker
may be made. -/
inductive Health.Moves (health : Health) (may : Prop) : Health → Prop
  | rests : Moves health may health
  | passes (ms : ℕ) : Moves health may { health with clock := health.clock + ms }
  | creates (hworker : health.worker = none) (hdisposed : health.disposed = false) (hmay : may) :
      Moves health may { health with
        worker := some (health.generation + 1)
        generation := health.generation + 1
        served := false }
  | fails (hserved : health.served = false) :
      Moves health may { health with
        worker := none
        failures := health.failures + 1
        lastFailureAt := health.clock
        recorded := some health.generation }
  | lost (hknown : health.served = true ∨ health.recorded = some health.generation) :
      Moves health may { health with worker := none }
  | respawns (hcool : health.lastRespawnAt + respawnCooldownMs ≤ health.clock) :
      Moves health may { health with worker := none, lastRespawnAt := health.clock }
  | serves : Moves health may { health with failures := 0, served := true }
  | disposes : Moves health may { health with worker := none, disposed := true }

namespace Client

variable {client : Client} {event : ClientEvent} {entry : PendingEntry} {settlement : Settlement}
  {generation : ℕ} {code : RpcErrorCode} {reason : WorkerDownReason}

@[simp] theorem health_settle : (client.settle entry settlement).health = client.health := by
  unfold settle
  split <;> rfl

@[simp] theorem health_finish : (client.finish entry).health = client.health := by
  unfold finish
  dsimp only
  split <;> rfl

@[simp] theorem health_dispatch {timeoutMs : ℤ} {fireAndForget cloneable : Bool} :
    (client.dispatch timeoutMs fireAndForget cloneable).health = client.health := by
  unfold dispatch
  dsimp only
  split
  · rfl
  · rw [health_settle, health_finish]
    rfl

theorem moves_ensureWorker (hdisposed : client.disposed = false)
    (hrested : client.worker = none → client.MayCreate event) :
    client.health.Moves (client.MayCreate event) client.ensureWorker.health := by
  unfold ensureWorker
  split
  · exact .rests
  · rename_i hnone
    have hworker : client.worker = none := Option.not_isSome_iff_eq_none.1 hnone
    exact .creates hworker hdisposed (hrested hworker)

/-- A worker that is asked for while none is there is made only after the pauses. -/
theorem rested_of_not_throttled (h : ¬(client.worker.isNone && client.isRespawnThrottled) = true) :
    client.worker = none → client.MayCreate event := by
  intro hworker
  rw [hworker] at h
  exact Or.inr (Bool.eq_false_iff.2 h)

theorem moves_start : client.health.Moves (client.MayCreate .start) client.start.health := by
  unfold start
  split
  · exact .rests
  · rename_i hdisposed
    unfold ensureWorker
    dsimp only
    split
    · exact .rests
    · rename_i hnone
      exact .creates (Option.not_isSome_iff_eq_none.1 hnone) (Bool.eq_false_iff.2 hdisposed)
        (Or.inl rfl)

theorem moves_whenReady : client.health.Moves (client.MayCreate event) client.whenReady.health := by
  unfold whenReady
  split
  · exact .rests
  · rename_i hdisposed
    split
    · exact .rests
    · rename_i hrested
      exact moves_ensureWorker (Bool.eq_false_iff.2 hdisposed) (rested_of_not_throttled hrested)

theorem moves_maybeRespawn :
    client.health.Moves (client.MayCreate event) client.maybeRespawn.health := by
  unfold maybeRespawn
  split
  · exact .rests
  · rename_i hdown
    split
    · exact .rests
    · rename_i hrested
      simp only [Bool.or_eq_true, not_or, Bool.not_eq_true] at hdown
      exact moves_ensureWorker hdown.1.1 fun _ => Or.inr (Bool.eq_false_iff.2 hrested)

theorem moves_call {timeoutMs : Option ℤ} {cloneable : Bool} :
    client.health.Moves (client.MayCreate event) (client.call timeoutMs cloneable).1.health := by
  unfold call
  split
  · exact .rests
  · rename_i hdisposed
    split
    · exact .rests
    · split
      · exact .rests
      · rename_i hrested
        rw [health_dispatch]
        exact moves_ensureWorker (Bool.eq_false_iff.2 hdisposed) (rested_of_not_throttled hrested)

theorem moves_fireAndForget {op : String} {cloneable : Bool} :
    client.health.Moves (client.MayCreate event) (client.fireAndForget op cloneable).health := by
  unfold fireAndForget
  split
  · exact .rests
  · rename_i hdisposed
    split
    · exact .rests
    · split
      · exact .rests
      · split
        · exact .rests
        · rename_i hrested
          rw [health_dispatch]
          exact moves_ensureWorker (Bool.eq_false_iff.2 hdisposed)
            (rested_of_not_throttled hrested)

/-- A call of a client that has a worker makes none. -/
theorem health_call {timeoutMs : Option ℤ} {cloneable : Bool} (hworker : client.worker.isSome) :
    (client.call timeoutMs cloneable).1.health = client.health := by
  have hensure : client.ensureWorker = client := if_pos hworker
  unfold call
  rw [hensure]
  split
  · rfl
  · split
    · rfl
    · split
      · rfl
      · exact health_dispatch

theorem moves_callR1OrEmpty {budget : ℤ} {cloneable : Bool} :
    client.health.Moves (client.MayCreate event)
      (client.callR1OrEmpty budget cloneable).health := by
  unfold callR1OrEmpty
  split
  · exact .rests
  · dsimp only
    split
    · -- either a worker is made first, or the call comes to the client as it was
      by_cases hmade : client.maybeRespawn.worker.isSome
      · rw [health_call hmade]
        exact moves_maybeRespawn
      · have hsame : client.maybeRespawn = client := by
          unfold maybeRespawn ensureWorker at hmade ⊢
          grind
        rw [hsame]
        exact moves_call
    · exact moves_maybeRespawn

theorem moves_run {timeoutMs : Option ℤ} {cloneable : Bool} :
    client.health.Moves (client.MayCreate event) (client.run timeoutMs cloneable).health := by
  unfold run
  split
  · exact moves_call
  · exact moves_maybeRespawn

/-- A worker fails.  It is counted unless it served a request or was counted before. -/
theorem moves_markWorkerUnavailable (hfailure : reason.isFailure = true) :
    client.health.Moves (client.MayCreate event)
      (client.markWorkerUnavailable generation code reason).health := by
  unfold markWorkerUnavailable
  split
  · rename_i hcurrent
    obtain rfl := of_decide_eq_true hcurrent
    unfold recordFailure
    split
    · rename_i hcounted
      simp only [Bool.and_eq_true, Bool.not_eq_true'] at hcounted
      exact .fails hcounted.1.1
    · rename_i hcounted
      refine .lost ?_
      simp only [hfailure, Bool.and_true, Bool.and_eq_true, Bool.not_eq_true', decide_eq_true_eq,
        not_and, Classical.not_not] at hcounted
      rcases Bool.eq_false_or_eq_true client.generationServedOk with hserved | hserved
      · exact Or.inl hserved
      · exact Or.inr (hcounted hserved)
  · exact .rests

theorem health_respawn : client.respawn.health =
    if client.health.clock < client.health.lastRespawnAt + respawnCooldownMs then client.health
    else { client.health with worker := none, lastRespawnAt := client.health.clock } := by
  unfold respawn
  split <;> rename_i hcool
  · exact (if_pos hcool).symm
  · exact (if_neg hcool).symm

/-- A worker is given up for timeouts, of which the health knows nothing. -/
theorem moves_respawn {timedOut : Client} (hsame : timedOut.health = client.health) :
    client.health.Moves (client.MayCreate event) timedOut.respawn.health := by
  rw [health_respawn, hsame]
  split
  · exact .rests
  · exact .respawns (by omega)

theorem moves_onTimeout {id : ℕ} :
    client.health.Moves (client.MayCreate event) (client.onTimeout id).health := by
  unfold onTimeout
  split
  · exact .rests
  · rename_i entry _
    have hsame : ((client.finish entry).settle entry (.rejected .timeout)).health =
        client.health := by rw [health_settle, health_finish]
    dsimp only
    split
    · exact hsame ▸ .rests
    · split
      · exact moves_respawn hsame
      · exact hsame ▸ .rests

theorem moves_onMessage {msg : WorkerMessage} :
    client.health.Moves (client.MayCreate event) (client.onMessage msg generation).health := by
  unfold onMessage
  split
  · cases msg with
    | other => exact .rests
    | ready warmupError =>
      dsimp only
      split
      · exact moves_markWorkerUnavailable rfl
      · exact .rests
    | response id ok code =>
      dsimp only
      split
      · exact .rests
      · rename_i entry _
        split
        · rw [health_settle]
          have hserves : client.health.Moves (client.MayCreate event)
              { (client.finish entry).health with failures := 0, served := true } :=
            (@health_finish client entry) ▸ .serves
          exact hserves
        · rw [health_settle, health_finish]
          exact .rests
  · exact .rests

/-! An event of a worker that was never made, or of a timer that is not due, does nothing. -/

theorem moves_message {msg : WorkerMessage} : client.health.Moves (client.MayCreate event)
    (client.step (.message generation msg)).health := by
  dsimp only [step]
  split
  · let told : Client := { client with
      announced := if msg.announces then client.announced ++ [generation] else client.announced }
    have htold : told.health.Moves (told.MayCreate event) (told.onMessage msg generation).health :=
      moves_onMessage
    exact htold
  · exact .rests

theorem moves_error : client.health.Moves (client.MayCreate event)
    (client.step (.error generation)).health := by
  dsimp only [step]
  split
  · exact moves_markWorkerUnavailable rfl
  · exact .rests

theorem moves_exit : client.health.Moves (client.MayCreate event)
    (client.step (.exit generation)).health := by
  dsimp only [step]
  split
  · let left : Client := { client with exited := client.exited ++ [generation] }
    have hleft : left.health.Moves (left.MayCreate event)
        (left.markWorkerUnavailable generation .workerExit .workerExit).health :=
      moves_markWorkerUnavailable rfl
    exact hleft
  · exact .rests

theorem moves_timeout {id : ℕ} : client.health.Moves (client.MayCreate event)
    (client.step (.timeout id)).health := by
  dsimp only [step]
  split
  · exact moves_onTimeout
  · exact .rests

/-- **What an event does to the health of a client.** -/
theorem step_moves : client.health.Moves (client.MayCreate event) (client.step event).health := by
  cases event with
  | tick ms => exact .passes ms
  | start => exact moves_start
  | whenReady => exact moves_whenReady
  | call timeoutMs cloneable => exact moves_call
  | fireAndForget op cloneable => exact moves_fireAndForget
  | callR1OrEmpty budget cloneable => exact moves_callR1OrEmpty
  | run timeoutMs cloneable => exact moves_run
  | message generation msg => exact moves_message
  | error generation => exact moves_error
  | exit generation => exact moves_exit
  | timeout id => exact moves_timeout
  | dispose => exact .disposes
end Client

/-! ## The pauses between workers -/

/-- A client, and when its latest worker was made -/
structure Watched where
  client : Client
  createdAt : ℕ

namespace Watched

/-- A client of which nothing has been asked. -/
def initial (clock : ℕ) : Watched where
  client := .initial clock
  createdAt := 0

/-- The event makes a worker. -/
def Creates (watched : Watched) (event : ClientEvent) : Prop :=
  (watched.client.step event).workerGeneration ≠ watched.client.workerGeneration

instance (watched : Watched) : DecidablePred watched.Creates :=
  fun _ => inferInstanceAs (Decidable (_ ≠ _))

/-- One event of the client. -/
def step (watched : Watched) (event : ClientEvent) : Watched where
  client := watched.client.step event
  createdAt := if watched.Creates event then watched.client.clock else watched.createdAt

/-- A worker that is made after two failures or more, unless by `start`, is made a pause after the
one before. -/
def Spaced (watched : Watched) (event : ClientEvent) : Prop :=
  watched.Creates event → event ≠ .start → 0 < watched.client.workerGeneration →
    2 ≤ watched.client.consecutiveWorkerFailures →
      (watched.createdAt : ℤ) + backoff watched.client.consecutiveWorkerFailures ≤
        watched.client.clock

instance (watched : Watched) : DecidablePred watched.Spaced :=
  fun _ => by unfold Spaced; infer_instance

/-- A worker is made at a count by which the base can be shifted. -/
def InRange (watched : Watched) (event : ClientEvent) : Prop :=
  watched.Creates event → Shiftable watched.client.consecutiveWorkerFailures

instance (watched : Watched) : DecidablePred watched.InRange :=
  fun _ => inferInstanceAs (Decidable (_ → _))

end Watched

/-- The failure, or the respawn, by which a client lost its worker came after the worker was made,
unless it counts no failures. -/
structure Paced (health : Health) (createdAt : ℕ) : Prop where
  past : createdAt ≤ health.clock
  recorded_le : ∀ generation, health.recorded = some generation → generation ≤ health.generation
  recorded : health.recorded = some health.generation → createdAt ≤ health.lastFailureAt
  served : health.served = true → health.failures = 0
  down : health.worker = none → 0 < health.generation → health.disposed = false →
    createdAt ≤ health.lastFailureAt ∨
      0 < health.lastRespawnAt ∧ createdAt ≤ health.lastRespawnAt ∨ health.failures = 0

/-- Whatever happens to a client keeps it paced; a worker that is made is made now. -/
theorem Paced.moves {health after : Health} {createdAt : ℕ} {may : Prop}
    (h : Paced health createdAt) (hmove : health.Moves may after) :
    Paced after (if after.generation ≠ health.generation then health.clock else createdAt) := by
  cases hmove with
  | rests => rwa [if_neg (not_not_intro rfl)]
  | passes ms =>
    rw [if_neg (not_not_intro rfl)]
    exact { h with past := Nat.le_add_right_of_le h.past }
  | creates hworker hdisposed hmay =>
    rw [if_pos (Nat.succ_ne_self _)]
    exact {
      past := le_rfl
      recorded_le := fun generation hrecorded => Nat.le_succ_of_le (h.recorded_le _ hrecorded)
      recorded := fun hrecorded =>
        absurd (h.recorded_le _ hrecorded) (Nat.not_succ_le_self health.generation)
      served := nofun
      down := nofun }
  | fails hserved =>
    rw [if_neg (not_not_intro rfl)]
    exact {
      past := h.past
      recorded_le := fun generation hrecorded => (Option.some.inj hrecorded).ge
      recorded := fun _ => h.past
      served := fun htrue => absurd (hserved.symm.trans htrue) Bool.false_ne_true
      down := fun _ _ _ => Or.inl h.past }
  | lost hknown =>
    rw [if_neg (not_not_intro rfl)]
    refine { h with down := fun _ _ _ => ?_ }
    rcases hknown with hserved | hrecorded
    · exact Or.inr (Or.inr (h.served hserved))
    · exact Or.inl (h.recorded hrecorded)
  | respawns hcool =>
    rw [if_neg (not_not_intro rfl)]
    have hpos : 0 < health.clock := Nat.lt_of_lt_of_le (by decide) (le_of_add_le_right hcool)
    exact { h with down := fun _ _ _ => Or.inr (Or.inl ⟨hpos, h.past⟩) }
  | serves =>
    rw [if_neg (not_not_intro rfl)]
    exact { h with served := fun _ => rfl, down := fun _ _ _ => Or.inr (Or.inr rfl) }
  | disposes =>
    rw [if_neg (not_not_intro rfl)]
    exact { h with down := fun _ _ hdisposed => by cases hdisposed }

theorem paced_initial (clock : ℕ) : Paced (Client.initial clock).health 0 where
  past := Nat.zero_le _
  recorded_le := nofun
  recorded := nofun
  served := nofun
  down := fun _ hpos => absurd hpos (Nat.lt_irrefl 0)

theorem Paced.step {watched : Watched} (event : ClientEvent)
    (h : Paced watched.client.health watched.createdAt) :
    Paced (watched.step event).client.health (watched.step event).createdAt :=
  h.moves watched.client.step_moves

/-- A worker is made when there is none, and none of the pauses is on. -/
theorem creates_inv {watched : Watched} {event : ClientEvent} (hcreates : watched.Creates event) :
    watched.client.worker = none ∧ watched.client.disposed = false ∧
      watched.client.MayCreate event := by
  have hmove := @Client.step_moves watched.client event
  have hgeneration : (watched.client.step event).health.generation ≠
      watched.client.health.generation := hcreates
  generalize (watched.client.step event).health = after at hmove hgeneration
  cases hmove with
  | creates hworker hdisposed hmay => exact ⟨hworker, hdisposed, hmay⟩
  | _ => exact absurd rfl hgeneration

/-- A worker that is made at a count in range is made a pause after the one before. -/
theorem Paced.spaced {watched : Watched} {event : ClientEvent}
    (h : Paced watched.client.health watched.createdAt) (hrange : watched.InRange event) :
    watched.Spaced event := by
  intro hcreates hstart hpos hfailures
  obtain ⟨hworker, hdisposed, hmay⟩ := creates_inv hcreates
  have hpause := (Client.warmupBackoffMs_eq_iff watched.client).2 (hrange hcreates)
  have hrested := hmay.resolve_left hstart
  unfold Client.isRespawnThrottled Client.isRespawnCoolingDown at hrested
  rw [hpause] at hrested
  simp only [Bool.or_eq_false_iff, Bool.and_eq_false_iff, decide_eq_false_iff_not, not_lt]
    at hrested
  obtain ⟨hcool, hbackoff⟩ := hrested
  have hmax := backoff_le watched.client.consecutiveWorkerFailures
  have hcap : warmupBackoffMaxMs = respawnCooldownMs := rfl
  rcases h.down hworker hpos hdisposed with hfailed | ⟨hrespawned, hlater⟩ | hnone
  · have hfailed : watched.createdAt ≤ watched.client.lastWorkerFailureAt := hfailed
    omega
  · have hrespawned : 0 < watched.client.lastRespawnAt := hrespawned
    have hlater : watched.createdAt ≤ watched.client.lastRespawnAt := hlater
    omega
  · have hnone : watched.client.consecutiveWorkerFailures = 0 := hnone
    omega

/-- **The backoff of a client.** -/
theorem backoff_spaced (client : Client) (clock : ℕ) (events : List ClientEvent) :
    (client.warmupBackoffMs = backoff client.consecutiveWorkerFailures ↔
      Shiftable client.consecutiveWorkerFailures) ∧
    Monotone backoff ∧
    (Along Watched.step Watched.InRange events (.initial clock) →
      Along Watched.step Watched.Spaced events (.initial clock)) := by
  refine ⟨client.warmupBackoffMs_eq_iff, monotone_backoff, fun hrange => ?_⟩
  exact Along.of_invariant (fun watched => Paced watched.client.health watched.createdAt)
    (fun _ event h _ => h.step event) (fun _ _ h hok => h.spaced hok) (paced_initial clock) hrange

/-- Workers are asked for when the longest pause is over, and exit. -/
def crashes (n : ℕ) : List ClientEvent :=
  (List.range n).flatMap fun i => [.tick 60000, .whenReady, .exit (i + 1)]

theorem backoff_spaced_crashes : (Client.initial 0).warmupBackoffMs = 0 ∧
    Along Watched.step Watched.Spaced (crashes 24 ++ [.whenReady, .tick 60000, .call none true])
      (.initial 0) :=
  have h := backoff_spaced (Client.initial 0) 0
    (crashes 24 ++ [.whenReady, .tick 60000, .call none true])
  ⟨h.1.2 (by decide), h.2.2 (by decide +kernel)⟩

/-- What a worker answers to a request that it served. -/
def ClientEvent.serves : ClientEvent → Bool
  | .message _ (.response _ ok _) => ok
  | _ => false

/-- After 25 failures there is no pause: the next worker is made as soon as the last one exits. -/
theorem not_backoff_spaced :
    (¬∀ client : Client,
      client.warmupBackoffMs = backoff client.consecutiveWorkerFailures) ∧
    ¬∀ (clock : ℕ) (events : List ClientEvent), (∀ event ∈ events, event.serves = false) →
        Along Watched.step Watched.Spaced events (.initial clock) := by
  constructor
  · intro h
    have hpause := h { Client.initial 0 with consecutiveWorkerFailures := 25 }
    revert hpause
    decide +kernel
  · intro h
    have hspaced := h 0 (crashes 25 ++ [.whenReady]) (by decide)
    revert hspaced
    decide +kernel

end Imcodes.Context
