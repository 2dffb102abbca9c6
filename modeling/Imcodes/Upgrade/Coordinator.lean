import Imcodes.Machine.Runs
import Imcodes.Upgrade.PublicationGate
import Mathlib.Data.Rat.Floor

/-!
# The coordinator of daemon upgrades

There is at most one current upgrade.  It waits for the daemon, for the publication of
its version, or for a timer, and then it is sent.  An upgrade is known by a number; what
a superseded one has left behind, a callback at the gate, still finds it.

What the requests know of the daemon, whether it is ready and whether they are still
meant for it, is part of the state and may change at any time.  What is reported, what is
scheduled and what is sent is recorded.
-/

namespace Imcodes.Upgrade

def AUTO_UPGRADE_MIN_INTERVAL_MS : ℤ := 15 * 60 * 1000
def AUTO_UPGRADE_MAX_ATTEMPTS : ℕ := 3

inductive DaemonUpgradeSource
  | auto | manual | replay
deriving DecidableEq

inductive UpgradeLifecycleState
  | pendingOffline | pendingPublication | scheduled | sent | superseded
deriving DecidableEq

/-- What a request brings: `isStillCurrent`, known by a number, if it has one. -/
structure RequestDaemonUpgradeInput where
  isStillCurrent : Option ℕ := none
deriving DecidableEq

structure UpgradeState where
  targetVersion : String
  source : DaemonUpgradeSource
  status : UpgradeLifecycleState := .pendingOffline
  attempt : ℕ := 0
  /-- The timer, with what it was armed with. -/
  timer : Option RequestDaemonUpgradeInput := none
  publicationResumeInput : Option RequestDaemonUpgradeInput := none
  publicationCallbackRegistered : Bool := false
deriving DecidableEq

inductive DaemonUpgradeDeliveryStatus
  | sent | pendingOffline | alreadyInProgress | backoff | suppressed | pendingPublication
  | invalidTarget
deriving DecidableEq

structure RequestDaemonUpgradeResult where
  ok : Bool := true
  upgradeId : Option ℕ := none
  targetVersion : Option String := none
  deliveryStatus : DaemonUpgradeDeliveryStatus
  nextAttemptAt : Option ℤ := none
  reason : Option String := none
deriving DecidableEq

/-- Why something is done. -/
inductive Cause
  | request | flush | timer
  | callback (registration : ℕ)
deriving DecidableEq

/-- A message, and what held when it was sent. -/
structure UpgradeMessage where
  upgradeId : ℕ
  /-- Left out for the latest version. -/
  targetVersion : Option String
  cause : Cause
  /-- The current upgrade and its version. -/
  current : Option (ℕ × String)
  isDaemonReady : Bool
deriving DecidableEq

inductive Act
  /-- The gate reports that a version is available. -/
  | reported (targetVersion : String)
  /-- `scheduleAutoSend` -/
  | scheduled (upgradeId : ℕ) (now : ℤ) (cause : Cause)
  | sent (message : UpgradeMessage)
  /-- `clearCurrent` -/
  | cleared
deriving DecidableEq

structure Server where
  gate : PublicationGate := fun _ => {}
  upgrades : ℕ → UpgradeState := fun _ => { targetVersion := "", source := .auto }
  /-- The numbers of the next upgrade and the next registration. -/
  created : ℕ := 0
  registrations : ℕ := 0
  current : Option ℕ := none
  lastAutoSentAt : Option ℤ := none
  isDaemonReady : Bool := false
  /-- The requests that are not meant for the daemon any more. -/
  stale : List ℕ := []
  /-- The upgrade that was scheduled when the daemon went away, until it is sent or flushed. -/
  leftScheduled : Option ℕ := none
  log : List Act := []

namespace Server

variable (s : Server)

def modify (u : ℕ) (f : UpgradeState → UpgradeState) : Server :=
  { s with upgrades := Function.update s.upgrades u (f (s.upgrades u)) }

theorem modify_upgrades (u v : ℕ) (f : UpgradeState → UpgradeState) :
    (s.modify u f).upgrades v = if v = u then f (s.upgrades u) else s.upgrades v :=
  Function.update_apply _ _ _ _

/-- `isStillCurrent?.() === false` -/
def isStale (input : RequestDaemonUpgradeInput) : Bool :=
  input.isStillCurrent.any (· ∈ s.stale)

/-- A result about an upgrade. -/
def result (u : ℕ) (deliveryStatus : DaemonUpgradeDeliveryStatus)
    (nextAttemptAt : Option ℤ := none) (reason : Option String := none) :
    RequestDaemonUpgradeResult :=
  { upgradeId := some u
    targetVersion := some (s.upgrades u).targetVersion
    deliveryStatus, nextAttemptAt, reason }

def buildUpgradeMessage (u : ℕ) (cause : Cause) : UpgradeMessage :=
  let targetVersion := (s.upgrades u).targetVersion
  { upgradeId := u
    targetVersion :=
      if shouldSendDaemonUpgradeTargetVersion targetVersion then some targetVersion else none
    cause
    current := s.current.map fun u => (u, (s.upgrades u).targetVersion)
    isDaemonReady := s.isDaemonReady }

def sendNow (u : ℕ) (cause : Cause) : Server :=
  { s.modify u ({ · with status := .sent }) with
    leftScheduled := s.leftScheduled.filter (· ≠ u)
    log := s.log ++ [.sent (s.buildUpgradeMessage u cause)] }

theorem sendNow_upgrades (u v : ℕ) (cause : Cause) :
    (s.sendNow u cause).upgrades v =
      if v = u then { s.upgrades u with status := .sent } else s.upgrades v :=
  s.modify_upgrades u v ({ · with status := .sent })

def nextAutoAttemptAt (now : ℤ) : ℤ :=
  match s.lastAutoSentAt with
  | none => now
  | some lastAutoSentAt => lastAutoSentAt + AUTO_UPGRADE_MIN_INTERVAL_MS

def scheduleAutoSend (u : ℕ) (input : RequestDaemonUpgradeInput) (now : ℤ) (cause : Cause) :
    Server × RequestDaemonUpgradeResult :=
  let nextAutoAt := s.nextAutoAttemptAt now
  if now < nextAutoAt then (s, s.result u .suppressed (some nextAutoAt))
  else if AUTO_UPGRADE_MAX_ATTEMPTS ≤ (s.upgrades u).attempt then
    (s, s.result u .backoff none (some "max_attempts_reached"))
  else
    ({ s.modify u fun upgrade =>
        { upgrade with
          status := .scheduled, attempt := upgrade.attempt + 1, timer := some input } with
       lastAutoSentAt := some now
       log := s.log ++ [.scheduled u now cause] }, s.result u .sent)

/-- A result if the version is not available yet. -/
def ensureTargetPublished (u : ℕ) (input : RequestDaemonUpgradeInput) :
    Server × Option RequestDaemonUpgradeResult :=
  let upgrade := s.upgrades u
  let onPublished : Option PublicationCallback :=
    if upgrade.publicationCallbackRegistered then none
    else some { registration := s.registrations, upgrade := u }
  let (gate, publication) := s.gate.ensurePublished upgrade.targetVersion onPublished
  match publication.status with
  | .available =>
      ({ s.modify u
          ({ · with publicationResumeInput := none, publicationCallbackRegistered := false }) with
         gate }, none)
  | .pending =>
      ({ s.modify u
          ({ · with
            publicationResumeInput := some input
            publicationCallbackRegistered := true
            status := .pendingPublication }) with
         gate
         registrations := s.registrations + onPublished.toList.length },
        some (s.result u .pendingPublication publication.nextProbeAt publication.reason))

def supersedeCurrent : Server :=
  match s.current with
  | none => s
  | some u => { s.modify u ({ · with timer := none, status := .superseded }) with current := none }

def clearCurrent : Server :=
  match s.current with
  | none => { s with lastAutoSentAt := none, log := s.log ++ [.cleared] }
  | some u =>
      { s.modify u ({ · with timer := none }) with
        current := none, lastAutoSentAt := none, log := s.log ++ [.cleared] }

/-! ## Requests -/

/-- `request` for the version of the current upgrade, as far as that makes a difference:
a result if it ends here. -/
def requestAgain (u : ℕ) (source : DaemonUpgradeSource) (input : RequestDaemonUpgradeInput)
    (now : ℤ) : Server × Option RequestDaemonUpgradeResult :=
  let upgrade := s.upgrades u
  if upgrade.status = .pendingPublication then
    let s := s.modify u ({ · with source })
    if s.isDaemonReady then s.ensureTargetPublished u input
    else (s.modify u ({ · with status := .pendingOffline }), some (s.result u .pendingOffline))
  else if upgrade.status ≠ .superseded ∧
      (upgrade.status ≠ .pendingOffline ∨ s.isDaemonReady = false) then
    if source = .auto then
      let nextAutoAt := s.nextAutoAttemptAt now
      if now < nextAutoAt then (s, some (s.result u .suppressed (some nextAutoAt)))
      else if AUTO_UPGRADE_MAX_ATTEMPTS ≤ upgrade.attempt then
        (s, some (s.result u .backoff none (some "max_attempts_reached")))
      else (s, none)
    else (s, some (s.result u .alreadyInProgress))
  else (s, none)

/-- The publication of the version, and then the upgrade: now or later. -/
def deliver (u : ℕ) (source : DaemonUpgradeSource) (input : RequestDaemonUpgradeInput) (now : ℤ)
    (cause : Cause) : Server × RequestDaemonUpgradeResult :=
  let (s, publication) := s.ensureTargetPublished u input
  match publication with
  | some publication => (s, publication)
  | none =>
      if source = .auto then s.scheduleAutoSend u input now cause
      else (s.sendNow u cause, s.result u .sent)

/-- `request`, of an upgrade that is current from now on. -/
def requestCurrent (u : ℕ) (source : DaemonUpgradeSource) (input : RequestDaemonUpgradeInput)
    (now : ℤ) : Server × RequestDaemonUpgradeResult :=
  let s := { s.modify u ({ · with source }) with current := some u }
  if s.isDaemonReady then s.deliver u source input now .request
  else (s.modify u ({ · with status := .pendingOffline }), s.result u .pendingOffline)

/-- A new upgrade. -/
def create (targetVersion : String) (source : DaemonUpgradeSource) : Server :=
  { s.modify s.created fun _ => { targetVersion, source } with created := s.created + 1 }

/-- The current upgrade, if it is one to the version. -/
def currentFor (targetVersion : String) : Option ℕ :=
  s.current.filter fun u => (s.upgrades u).targetVersion = targetVersion

def request (targetVersion : TargetValue) (source : DaemonUpgradeSource)
    (input : RequestDaemonUpgradeInput) (now : ℤ) : Server × RequestDaemonUpgradeResult :=
  match normalizeDaemonUpgradeTargetVersion targetVersion with
  | none =>
      (s, { ok := false
            deliveryStatus := .invalidTarget
            reason := some "invalid_target_version" })
  | some targetVersion =>
      match s.currentFor targetVersion with
      | some u =>
          let (s, result) := s.requestAgain u source input now
          match result with
          | some result => (s, result)
          | none => s.requestCurrent u source input now
      | none =>
          let s := s.supersedeCurrent
          (s.create targetVersion source).requestCurrent s.created source input now

def flushPending (input : RequestDaemonUpgradeInput) (now : ℤ) :
    Server × Option RequestDaemonUpgradeResult :=
  match s.current with
  | none => (s, none)
  | some u =>
      let upgrade := s.upgrades u
      if upgrade.status ≠ .pendingOffline ∧ upgrade.status ≠ .pendingPublication then (s, none)
      else if s.isDaemonReady = false then (s, some (s.result u .pendingOffline))
      else
        let (s, result) := s.deliver u upgrade.source input now .flush
        (s, some result)

def retryAutoAfterBlocked (input : RequestDaemonUpgradeInput) (retryDelayMs : ℚ) (now : ℤ) :
    Server × Option RequestDaemonUpgradeResult :=
  match s.current with
  | none => (s, none)
  | some u =>
      let upgrade := s.upgrades u
      if upgrade.source ≠ .auto ∨ upgrade.status ≠ .sent then (s, none)
      else
        (s.modify u ({ · with status := .scheduled, timer := some input }),
          some (s.result u .sent (some (now + max 0 ⌊retryDelayMs⌋))))

def clearIfTargetVersionMatches (targetVersion : Option String) : Server :=
  match targetVersion with
  | none => s
  | some targetVersion =>
      if targetVersion = "" then s
      else
        match normalizeDaemonUpgradeTargetVersion (.text targetVersion) with
        | none => s
        | some normalized => if (s.currentFor normalized).isSome then s.clearCurrent else s

/-! ## Timers and callbacks -/

/-- The timer of an upgrade fires. -/
def fireTimer (u : ℕ) : Server :=
  match (s.upgrades u).timer with
  | none => s
  | some input =>
      let s := s.modify u ({ · with timer := none })
      if s.current ≠ some u ∨ s.isDaemonReady = false ∨ s.isStale input then s
      else s.sendNow u .timer

def resumeAfterPublication (u : ℕ) (input : RequestDaemonUpgradeInput) (now : ℤ)
    (cause : Cause) : Server :=
  if s.current ≠ some u ∨ (s.upgrades u).status ≠ .pendingPublication then s
  else if s.isDaemonReady = false ∨ s.isStale input then s
  else if (s.upgrades u).source = .auto then (s.scheduleAutoSend u input now cause).1
  else s.sendNow u cause

def runCallback (callback : PublicationCallback) (now : ℤ) : Server :=
  let resumeInput := (s.upgrades callback.upgrade).publicationResumeInput
  let s := s.modify callback.upgrade
    ({ · with publicationCallbackRegistered := false, publicationResumeInput := none })
  match resumeInput with
  | none => s
  | some input => s.resumeAfterPublication callback.upgrade input now
      (.callback callback.registration)

def markPublished (targetVersion : String) (now : ℤ) : Server :=
  let record := s.gate targetVersion
  let s :=
    { s with
      gate := Function.update s.gate targetVersion record.markPublished
      log := s.log ++ [.reported targetVersion] }
  record.callbacks.foldl (fun s callback => s.runCallback callback now) s

/-- A probe ends; none if it throws. -/
def finishProbe (retryDelaysMs : List ℤ) (targetVersion : String)
    (result : Option DaemonUpgradePublicationProbeResult) (now : ℤ) : Server :=
  let record := s.gate targetVersion
  if record.inFlight = false then s
  else
    let record :=
      { record with inFlight := false, lastStatusCode := result.bind (·.statusCode) }
    if result.any (·.status = .available) then
      { s with gate := Function.update s.gate targetVersion record }.markPublished targetVersion now
    else
      { s with
        gate := Function.update s.gate targetVersion (record.scheduleRetry retryDelaysMs now) }

/-- The timer of a record fires. -/
def fireProbeTimer (targetVersion : String) : Server :=
  let record := s.gate targetVersion
  if record.timer then
    { s with
      gate := Function.update s.gate targetVersion { record with timer := false }.startProbe }
  else s

/-- The daemon becomes ready, or goes away. -/
def setReady (isDaemonReady : Bool) : Server :=
  { s with
    isDaemonReady
    leftScheduled :=
      if s.isDaemonReady ∧ isDaemonReady = false then
        s.current.filter fun u => (s.upgrades u).status = .scheduled
      else s.leftScheduled }

/-- A flush that finds the daemon ready is the one after it came back. -/
def flushed : Server := if s.isDaemonReady then { s with leftScheduled := none } else s

end Server

/-! ## Runs -/

inductive UpgradeEvent
  | request (targetVersion : TargetValue) (source : DaemonUpgradeSource)
      (input : RequestDaemonUpgradeInput) (now : ℤ)
  | flushPending (input : RequestDaemonUpgradeInput) (now : ℤ)
  | retryAutoAfterBlocked (input : RequestDaemonUpgradeInput) (retryDelayMs : ℚ) (now : ℤ)
  | clearIfTargetVersionMatches (targetVersion : Option String)
  | timer (upgradeId : ℕ)
  | probed (targetVersion : String) (result : Option DaemonUpgradePublicationProbeResult) (now : ℤ)
  | probeTimer (targetVersion : String)
  /-- Another coordinator asks the gate for a version. -/
  | askedElsewhere (targetVersion : String)
  | ready (isDaemonReady : Bool)
  /-- `isStillCurrent` of some requests answers false from now on, or true again. -/
  | still (input : ℕ) (isCurrent : Bool)
deriving DecidableEq

/-- The delays between the probes are the gate's. -/
def Server.step (retryDelaysMs : List ℤ) (s : Server) : UpgradeEvent → Server
  | .request targetVersion source input now => (s.request targetVersion source input now).1
  | .flushPending input now => (s.flushPending input now).1.flushed
  | .retryAutoAfterBlocked input retryDelayMs now =>
      (s.retryAutoAfterBlocked input retryDelayMs now).1
  | .clearIfTargetVersionMatches targetVersion => s.clearIfTargetVersionMatches targetVersion
  | .timer u => s.fireTimer u
  | .probed targetVersion result now => s.finishProbe retryDelaysMs targetVersion result now
  | .probeTimer targetVersion => s.fireProbeTimer targetVersion
  | .askedElsewhere targetVersion =>
      { s with gate := (s.gate.ensurePublished targetVersion none).1 }
  | .ready isDaemonReady => s.setReady isDaemonReady
  | .still input isCurrent =>
      { s with stale := if isCurrent then s.stale.filter (· ≠ input) else input :: s.stale }

def run (retryDelaysMs : List ℤ) (events : List UpgradeEvent) : Server :=
  Machine.run (Server.step retryDelaysMs) events {}

end Imcodes.Upgrade
