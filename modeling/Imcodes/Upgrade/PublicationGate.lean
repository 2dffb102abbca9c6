import Imcodes.Queue.Types
import Mathlib.Data.Int.Notation
import Mathlib.Logic.Function.Basic
import Mathlib.Order.Nat

/-!
# Target versions and their publication

The gate asks the registry whether a version has been published, again and again until
it has, and then calls back everyone who waits for it.  A version that was found is
available for good.
-/

namespace Imcodes.Upgrade

open Imcodes.Queue (jsTrim)

/-! ## Target versions -/

def DAEMON_UPGRADE_TARGET_LATEST : String := "latest"

/-- The parts of a text between the separators. -/
def splitAt (separator : Char) : List Char → List (List Char)
  | [] => [[]]
  | c :: cs =>
      if c = separator then [] :: splitAt separator cs
      else
        match splitAt separator cs with
        | [] => [[c]]
        | part :: parts => (c :: part) :: parts

def isAsciiDigit (c : Char) : Bool := '0' ≤ c && c ≤ '9'

def isAsciiAlphanumeric (c : Char) : Bool :=
  isAsciiDigit c || ('A' ≤ c && c ≤ 'Z') || ('a' ≤ c && c ≤ 'z')

/-- `/^[0-9]+(?:\.[0-9]+){1,3}(?:-[0-9A-Za-z]+(?:\.[0-9A-Za-z]+)*)?$/` -/
def DAEMON_UPGRADE_TARGET_VERSION_RE (value : String) : Bool :=
  let isPart (isPartChar : Char → Bool) (part : List Char) := part ≠ [] && part.all isPartChar
  match splitAt '-' value.toList with
  | core :: suffix =>
      let numbers := splitAt '.' core
      numbers.all (isPart isAsciiDigit) && 2 ≤ numbers.length && numbers.length ≤ 4 &&
        match suffix with
        | [] => true
        | [suffix] => (splitAt '.' suffix).all (isPart isAsciiAlphanumeric)
        | _ => false
  | [] => false

/-- A value that is given for a target version. -/
inductive TargetValue
  /-- `undefined` or `null` -/
  | missing
  | text (value : String)
  /-- Anything else. -/
  | other
deriving DecidableEq

/-- None if the value is refused. -/
def normalizeDaemonUpgradeTargetVersion : TargetValue → Option String
  | .missing => some DAEMON_UPGRADE_TARGET_LATEST
  | .other => none
  | .text value =>
      if value = "" then some DAEMON_UPGRADE_TARGET_LATEST
      else
        let targetVersion := jsTrim value
        if targetVersion = DAEMON_UPGRADE_TARGET_LATEST then some targetVersion
        else if DAEMON_UPGRADE_TARGET_VERSION_RE targetVersion then some targetVersion
        else none

def shouldSendDaemonUpgradeTargetVersion (targetVersion : String) : Bool :=
  targetVersion ≠ DAEMON_UPGRADE_TARGET_LATEST

/-! ## The gate -/

inductive ProbeStatus
  | available | missing | error
deriving DecidableEq

structure DaemonUpgradePublicationProbeResult where
  status : ProbeStatus
  statusCode : Option ℤ := none
deriving DecidableEq

inductive PublicationStatus
  | available | pending
deriving DecidableEq

/-- A callback: the upgrade whose it is, and which of all the callbacks that were ever
registered. -/
structure PublicationCallback where
  registration : ℕ
  upgrade : ℕ
deriving DecidableEq

structure PublicationRecord where
  status : PublicationStatus := .pending
  callbacks : List PublicationCallback := []
  attempt : ℕ := 0
  inFlight : Bool := false
  /-- The timer is armed. -/
  timer : Bool := false
  nextProbeAt : Option ℤ := none
  lastStatusCode : Option ℤ := none
deriving DecidableEq

/-- The records by version; a version that was not asked for has a new one. -/
abbrev PublicationGate := String → PublicationRecord

structure DaemonUpgradePublicationGateResult where
  status : PublicationStatus
  nextProbeAt : Option ℤ := none
  reason : Option String := none
deriving DecidableEq

def DEFAULT_RETRY_DELAYS_MS : List ℤ := [15000, 30000, 60000, 120000, 300000]

namespace PublicationRecord

variable (record : PublicationRecord)

def startProbe : PublicationRecord := { record with inFlight := true, nextProbeAt := none }

/-- After a probe that did not find the version. -/
def scheduleRetry (retryDelaysMs : List ℤ) (now : ℤ) : PublicationRecord :=
  if record.status = .available then record
  else
    let delay := (retryDelaysMs[min record.attempt (retryDelaysMs.length - 1)]?).getD 300000
    { record with attempt := record.attempt + 1, nextProbeAt := some (now + delay), timer := true }

/-- After a probe that did. -/
def markPublished : PublicationRecord :=
  { record with
    status := .available, timer := false, inFlight := false, nextProbeAt := none, callbacks := [] }

end PublicationRecord

namespace PublicationGate

variable (gate : PublicationGate) (targetVersion : String)

/-- The version is available, as far as the gate knows. -/
def isAvailable : Prop :=
  targetVersion = DAEMON_UPGRADE_TARGET_LATEST ∨ (gate targetVersion).status = .available

instance : Decidable (isAvailable gate targetVersion) :=
  inferInstanceAs (Decidable (_ ∨ _))

def ensurePublished (onPublished : Option PublicationCallback) :
    PublicationGate × DaemonUpgradePublicationGateResult :=
  if isAvailable gate targetVersion then (gate, { status := .available })
  else
    let record := gate targetVersion
    let record := { record with callbacks := record.callbacks ++ onPublished.toList }
    let record := if record.inFlight = false ∧ record.timer = false then record.startProbe else record
    (Function.update gate targetVersion record,
      { status := .pending
        nextProbeAt := record.nextProbeAt
        reason := some (if record.lastStatusCode = some 404 then "target_version_not_published"
          else "target_version_publication_pending") })

end PublicationGate

end Imcodes.Upgrade
