import Imcodes.Collections.OrderedMap
import Imcodes.Machine.Runs
import Imcodes.Queue.Types
import Mathlib.Data.Rat.Floor

/-!
# Execution clones

A clone is a session that was copied from a template to do one piece of work.  Its
record says when it was created, until when its worker may run and, once that has
ended, until when the record is kept.

The store of the sessions is a state that several calls work on.  A call that waits
goes on with the record that it has read before, which may be out of date: a step is
what is done from one wait to the next, with any record that was ever stored.  The
configuration that a clone takes over from its template is left out.
-/

namespace Imcodes.Clones

open Imcodes.Queue (jsTrim)

/-! ## Preferences -/

structure DedicatedExecutionRoutingGlobalPreference where
  maxParallelClones : ℤ
  cloneHardTimeoutMs : ℤ
  cloneRetentionMs : ℤ
deriving DecidableEq

def defaultDedicatedExecutionRoutingPreference : DedicatedExecutionRoutingGlobalPreference :=
  { maxParallelClones := 3
    cloneHardTimeoutMs := 60 * 60 * 1000
    cloneRetentionMs := 5 * 60 * 1000 }

/-- A preference as it is given: what is no finite number is none. -/
structure RawPreference where
  maxParallelClones : Option ℚ := none
  cloneHardTimeoutMs : Option ℚ := none
  cloneRetentionMs : Option ℚ := none
deriving DecidableEq

/-- `Math.round` -/
def jsRound (value : ℚ) : ℤ := ⌊value + 1 / 2⌋

def clampInt (value : Option ℚ) (fallback min max : ℤ) : ℤ :=
  match value with
  | none => fallback
  | some num =>
      if jsRound num < min then min
      else if max < jsRound num then max
      else jsRound num

def parseDedicatedExecutionRoutingPreference (raw : RawPreference) :
    DedicatedExecutionRoutingGlobalPreference :=
  let defaults := defaultDedicatedExecutionRoutingPreference
  { maxParallelClones := clampInt raw.maxParallelClones defaults.maxParallelClones 1 16
    cloneHardTimeoutMs :=
      clampInt raw.cloneHardTimeoutMs defaults.cloneHardTimeoutMs 60000 (6 * 60 * 60 * 1000)
    cloneRetentionMs :=
      clampInt raw.cloneRetentionMs defaults.cloneRetentionMs 0 (60 * 60 * 1000) }

theorem le_clampInt {value : Option ℚ} {fallback min max : ℤ} (hfallback : min ≤ fallback)
    (hmax : min ≤ max) : min ≤ clampInt value fallback min max := by
  cases value with
  | none => exact hfallback
  | some num =>
    rw [clampInt]
    split
    · exact le_rfl
    · rename_i hmin
      split
      · exact hmax
      · exact not_lt.1 hmin

/-! ## Records -/

inductive SessionState
  | running | idle | error | stopped
deriving DecidableEq

inductive ExecutionCloneParentStage
  | genericExecution | teamFinalExecution | openspecImplementation | autoDeliverImplementation
deriving DecidableEq

/-- `active → collecting → destroying → destroyed` -/
inductive ExecutionCloneCleanupState
  | active | collecting | destroying | destroyed
deriving DecidableEq

def EXECUTION_CLONE_KIND : String := "execution_clone"

structure ExecutionCloneMetadata where
  kind : String
  /-- The template. -/
  cloneOfSessionName : String
  parentRunId : String
  parentStage : ExecutionCloneParentStage
  /-- The creator. -/
  createdBySessionName : String
  createdAt : ℤ
  /-- Until when the worker may run. -/
  hardTimeoutAt : ℤ
  /-- How long the record is kept; old records do not say. -/
  cloneRetentionMs : Option ℚ
  /-- Until when the record is kept, once the worker has ended. -/
  retentionExpiresAt : Option ℤ := none
  completedAt : Option ℤ := none
  destroyRequestedAt : Option ℤ := none
  cleanupState : ExecutionCloneCleanupState
deriving DecidableEq

structure SessionRecord where
  name : String
  projectName : String
  role : String
  agentType : String
  projectDir : String
  state : SessionState
  parentSession : Option String := none
  executionCloneMetadata : Option ExecutionCloneMetadata := none
deriving DecidableEq

/-- The metadata of a record that is a clone's. -/
def SessionRecord.clone? (record : SessionRecord) : Option ExecutionCloneMetadata :=
  record.executionCloneMetadata.filter (·.kind = EXECUTION_CLONE_KIND)

def isExecutionClone (record : SessionRecord) : Bool := record.clone?.isSome

def resolveExecutionCloneRetentionMs (metadata : ExecutionCloneMetadata) : ℤ :=
  (parseDedicatedExecutionRoutingPreference
    { cloneRetentionMs := metadata.cloneRetentionMs }).cloneRetentionMs

theorem resolveExecutionCloneRetentionMs_nonneg (metadata : ExecutionCloneMetadata) :
    0 ≤ resolveExecutionCloneRetentionMs metadata :=
  le_clampInt (by decide) (by decide)

/-! ## The store -/

abbrev Sessions := OrderedMap String SessionRecord

/-- What is stored for a record: it stays a clone if it was one and does not say. -/
def storedRecord (sessions : Sessions) (record : SessionRecord) : SessionRecord :=
  { record with
    executionCloneMetadata :=
      record.executionCloneMetadata <|> (sessions.get? record.name).bind (·.clone?) }

def upsertSession (sessions : Sessions) (record : SessionRecord) : Sessions :=
  sessions.set record.name (storedRecord sessions record)

def listSessions (sessions : Sessions) : List SessionRecord := sessions.values

def countActiveExecutionClones (sessions : Sessions) (parentRunId : String) : ℤ :=
  (listSessions sessions).countP fun record =>
    record.clone?.any fun metadata =>
      metadata.parentRunId = parentRunId && metadata.cleanupState = .active

/-! ## Requests -/

inductive ExecutionCloneErrorCode
  | capacityFull | templateIneligible | cloneOfCloneForbidden | targetNotFound | destroyForbidden
deriving DecidableEq

structure ExecutionCloneRequest where
  templateSessionName : String
  parentRunId : String
  parentStage : ExecutionCloneParentStage
  ownerSessionName : String
  owningMainSessionName : String
  pref : RawPreference
deriving DecidableEq

/-- `/^deck_.+_brain$/` -/
def isMainSessionName (name : String) : Bool :=
  let chars := name.toList
  let between := (chars.drop 5).take (chars.length - 11)
  "deck_".toList.isPrefixOf chars && "_brain".toList.isSuffixOf chars && 11 < chars.length &&
    between.all (· ∉ ['\n', '\r', '\u2028', '\u2029'])

def SESSION_AGENT_TYPES : List String :=
  ["claude-code-sdk", "claude-code", "codex-sdk", "codex", "copilot-sdk", "cursor-headless",
    "opencode", "gemini-sdk", "gemini", "qwen", "openclaw", "kimi-sdk", "shell", "script"]

/-- What is wrong with a template, if something is. -/
def validateExecutionTemplateCandidate (record : Option SessionRecord)
    (callerSessionName : String) : Option ExecutionCloneErrorCode :=
  match record with
  | none => some .templateIneligible
  | some record =>
      if record.state ∉ [SessionState.idle, .running] then some .templateIneligible
      else if isExecutionClone record then some .cloneOfCloneForbidden
      else if record.role = "brain" ∨ isMainSessionName record.name then some .templateIneligible
      else if jsTrim record.projectDir = "" then some .templateIneligible
      else if record.agentType ∉ SESSION_AGENT_TYPES then some .templateIneligible
      else if callerSessionName ≠ "" ∧ record.name = callerSessionName then
        some .templateIneligible
      else none

def isRoleCompatibleMainSession (record : SessionRecord) : Bool :=
  record.role = "brain" && !"deck_sub_".toList.isPrefixOf record.name.toList &&
    record.name = "deck_" ++ record.projectName ++ "_brain"

/-- The template of a request that may be fulfilled. -/
def validateExecutionCloneRequest (sessions : Sessions) (req : ExecutionCloneRequest) :
    Except ExecutionCloneErrorCode SessionRecord :=
  let template := sessions.get? req.templateSessionName
  match validateExecutionTemplateCandidate template req.ownerSessionName with
  | some code => .error code
  | none =>
      match template, sessions.get? req.ownerSessionName,
          sessions.get? req.owningMainSessionName with
      | some template, some owner, some owningMain =>
          if isRoleCompatibleMainSession owningMain = false then .error .templateIneligible
          else if template.projectName ≠ owner.projectName ∨
              template.projectName ≠ owningMain.projectName then .error .templateIneligible
          else if template.name = owner.name then .error .templateIneligible
          else .ok template
      | _, _, _ => .error .templateIneligible

def buildExecutionCloneMetadata (req : ExecutionCloneRequest) (now : ℤ)
    (pref : DedicatedExecutionRoutingGlobalPreference) : ExecutionCloneMetadata :=
  { kind := EXECUTION_CLONE_KIND
    cloneOfSessionName := req.templateSessionName
    parentRunId := req.parentRunId
    parentStage := req.parentStage
    createdBySessionName := req.ownerSessionName
    createdAt := now
    hardTimeoutAt := now + pref.cloneHardTimeoutMs
    cloneRetentionMs := some (pref.cloneRetentionMs : ℚ)
    retentionExpiresAt := none
    cleanupState := .active }

def subSessionName (id : String) : String := "deck_sub_" ++ id

/-! ## Calls -/

/-- `createExecutionClone` up to the launch, with the id that was drawn: the record that
is stored first. -/
def createExecutionClone (sessions : Sessions) (req : ExecutionCloneRequest) (id : String)
    (now : ℤ) : Except ExecutionCloneErrorCode SessionRecord :=
  match validateExecutionCloneRequest sessions req with
  | .error code => .error code
  | .ok template =>
      let pref := parseDedicatedExecutionRoutingPreference req.pref
      if pref.maxParallelClones ≤ countActiveExecutionClones sessions req.parentRunId then
        .error .capacityFull
      else if (sessions.get? (subSessionName id)).isSome then .error .templateIneligible
      else
        .ok
          { name := subSessionName id
            projectName := template.projectName
            role := "w1"
            agentType := template.agentType
            projectDir := template.projectDir
            state := .idle
            parentSession := some req.owningMainSessionName
            executionCloneMetadata := some (buildExecutionCloneMetadata req now pref) }

structure DestroyExecutionCloneRequest where
  target : String
  callerSessionName : Option String := none
  bypassAuth : Bool := false
deriving DecidableEq

/-- A clone that is asked to go. -/
def ExecutionCloneMetadata.destroying (metadata : ExecutionCloneMetadata) (now : ℤ) :
    ExecutionCloneMetadata :=
  { metadata with
    destroyRequestedAt := some (metadata.destroyRequestedAt.getD now)
    completedAt := some (metadata.completedAt.getD now)
    cleanupState := .destroying }

/-- `destroyExecutionClone` up to the stop. -/
def destroyExecutionClone (sessions : Sessions) (req : DestroyExecutionCloneRequest) (now : ℤ) :
    Except ExecutionCloneErrorCode SessionRecord :=
  match sessions.get? req.target with
  | none => .error .targetNotFound
  | some record =>
      match record.clone? with
      | none => .error .targetNotFound
      | some metadata =>
          if req.bypassAuth = false ∧ req.callerSessionName.any (· ≠ metadata.createdBySessionName)
          then .error .destroyForbidden
          else .ok { record with executionCloneMetadata := some (metadata.destroying now) }

/-- A clone whose worker has ended. -/
def ExecutionCloneMetadata.completed (metadata : ExecutionCloneMetadata) (now : ℤ) :
    ExecutionCloneMetadata :=
  { metadata with
    completedAt := some now
    retentionExpiresAt := some (now + resolveExecutionCloneRetentionMs metadata)
    cleanupState := .collecting }

/-- `meta.completedAt` is set, and the clone is not asked to go either. -/
def ExecutionCloneMetadata.isOver (metadata : ExecutionCloneMetadata) : Bool :=
  metadata.completedAt.any (· ≠ 0) || metadata.cleanupState = .destroying ||
    metadata.cleanupState = .destroyed

/-- The record that is stored, if one is.  `completeExecutionCloneOnPaneDeath` stores the same. -/
def completeExecutionCloneOnRuntimeExit (record : SessionRecord) (now : ℤ) :
    Option SessionRecord :=
  match record.clone? with
  | none => none
  | some metadata =>
      if metadata.isOver then none
      else
        some { record with
          state := .stopped
          executionCloneMetadata := some (metadata.completed now) }

/-! ## The sweep -/

inductive SweepReason
  | sweep | hardTimeout
deriving DecidableEq

/-- What the sweep asks about a record. -/
structure SweepExecutionClonesDeps where
  isCloneParentTerminal : SessionRecord → Bool
  isRunning : SessionRecord → Bool

def sweepReason (now : ℤ) (deps : SweepExecutionClonesDeps) (record : SessionRecord)
    (metadata : ExecutionCloneMetadata) : Option SweepReason :=
  let running := deps.isRunning record
  if deps.isCloneParentTerminal record then some .sweep
  else if running ∧ metadata.hardTimeoutAt ≤ now then some .hardTimeout
  else if running = false ∧ metadata.retentionExpiresAt.any (· ≤ now) then some .sweep
  else none

/-- The clones that are selected for destruction, of all records there are. -/
def sweepExecutionClones (now : ℤ) (deps : SweepExecutionClonesDeps)
    (records : List SessionRecord) : List (String × SweepReason) :=
  records.filterMap fun record =>
    record.clone?.bind fun metadata =>
      (sweepReason now deps record metadata).map fun reason => (record.name, reason)

/-- How `runExecutionCloneSweep` answers what the sweep asks. -/
def runExecutionCloneSweepDeps (sessions : Sessions) : SweepExecutionClonesDeps :=
  { isCloneParentTerminal := fun record =>
      match record.executionCloneMetadata with
      | none => false
      | some metadata =>
          if metadata.createdBySessionName = "" then false
          else
            match sessions.get? metadata.createdBySessionName with
            | none => true
            | some creator => creator.state = .stopped || creator.state = .error
    isRunning := fun record =>
      !(record.executionCloneMetadata.bind (·.completedAt)).any (· ≠ 0) &&
        record.state ≠ .stopped && record.state ≠ .error }

/-! ## Runs -/

structure Daemon where
  sessions : Sessions := .empty
  /-- Every record that was ever stored, which some call may still hold. -/
  held : List SessionRecord := []

inductive CloneEvent
  /-- A record that does not speak of clones: a session starts, a launch succeeds. -/
  | rebuild (record : SessionRecord)
  | create (req : ExecutionCloneRequest) (id : String) (now : ℤ)
  /-- The runtime of a clone has ended, or its pane has. -/
  | runtimeExit (record : SessionRecord) (now : ℤ)
  | destroy (req : DestroyExecutionCloneRequest) (now : ℤ)
  /-- `persistSuccess` of a stop -/
  | stopped (name : String)
  /-- `persistFailure` of a stop -/
  | stopFailed (record : SessionRecord)
deriving DecidableEq

namespace Daemon

variable (d : Daemon)

def upsert (record : SessionRecord) : Daemon :=
  { sessions := upsertSession d.sessions record
    held := storedRecord d.sessions record :: d.held }

/-- The record that a step stores, if it stores one. -/
def written : CloneEvent → Option SessionRecord
  | .rebuild record => some { record with executionCloneMetadata := none }
  | .create req id now => (createExecutionClone d.sessions req id now).toOption
  | .runtimeExit record now =>
      if record ∈ d.held then completeExecutionCloneOnRuntimeExit record now else none
  | .destroy req now => (destroyExecutionClone d.sessions req now).toOption
  | .stopped _ => none
  | .stopFailed record => if record ∈ d.held then some { record with state := .error } else none

/-- `removeSession` -/
def remove : CloneEvent → Daemon
  | .stopped name => { d with sessions := d.sessions.delete name }
  | _ => d

def step (event : CloneEvent) : Daemon :=
  match d.written event with
  | some record => d.upsert record
  | none => d.remove event

/-- The daemon after a run. -/
def run (events : List CloneEvent) : Daemon := Machine.run step events {}

end Daemon

end Imcodes.Clones
