import Imcodes.Clones.ExecutionClone

/-!
# Reaping

A clone whose creator lives on is reaped by its hard timeout while it runs, and by its
retention stamp when it does not.  Only the end of its runtime or of its pane stamps it, so
a clone that was asked to go before that, or whose launch never came to anything, stays
for ever if it does not run.

* `lifecycle_run` — in every run, a clone without a stamp is active, or was asked to go.
* `reapable_iff` — the sweep selects a clone in the end, running or not, exactly when
  it has a stamp.
* `not_reapable` — the launch of a clone fails, and so does its rollback.
-/

namespace Imcodes.Clones

open Machine

/-! ## What is stored -/

/-- What a clone can look like. -/
structure Lifecycle (metadata : ExecutionCloneMetadata) : Prop where
  active : metadata.cleanupState = .active →
    metadata.retentionExpiresAt = none ∧ metadata.completedAt = none
  collecting : metadata.cleanupState = .collecting → metadata.retentionExpiresAt ≠ none
  destroying : metadata.cleanupState = .destroying →
    metadata.completedAt ≠ none ∧ metadata.destroyRequestedAt ≠ none
  notDestroyed : metadata.cleanupState ≠ .destroyed

/-- What every step keeps: a record is stored under its name, and is held; and what is
held looks like a clone if it is one. -/
structure Daemon.Sound (d : Daemon) : Prop where
  keyed : ∀ name record, d.sessions.get? name = some record → record.name = name
  stored : ∀ name record, d.sessions.get? name = some record → record ∈ d.held
  lifecycle : ∀ record ∈ d.held, ∀ metadata, record.executionCloneMetadata = some metadata →
    Lifecycle metadata

theorem clone?_eq_some {record : SessionRecord} {metadata : ExecutionCloneMetadata} :
    record.clone? = some metadata ↔
      record.executionCloneMetadata = some metadata ∧ metadata.kind = EXECUTION_CLONE_KIND := by
  rw [SessionRecord.clone?, Option.filter_eq_some_iff, decide_eq_true_eq]

theorem lifecycle_build (req : ExecutionCloneRequest) (now : ℤ)
    (pref : DedicatedExecutionRoutingGlobalPreference) :
    Lifecycle (buildExecutionCloneMetadata req now pref) :=
  ⟨fun _ => ⟨rfl, rfl⟩, (nomatch ·), (nomatch ·), (nomatch ·)⟩

theorem lifecycle_completed (metadata : ExecutionCloneMetadata) (now : ℤ) :
    Lifecycle (metadata.completed now) :=
  ⟨(nomatch ·), fun _ => Option.some_ne_none _, (nomatch ·), (nomatch ·)⟩

theorem lifecycle_destroying (metadata : ExecutionCloneMetadata) (now : ℤ) :
    Lifecycle (metadata.destroying now) :=
  ⟨(nomatch ·), (nomatch ·), fun _ => ⟨Option.some_ne_none _, Option.some_ne_none _⟩,
    (nomatch ·)⟩

namespace Daemon

variable {d : Daemon} {record : SessionRecord} {event : CloneEvent}

/-- What a step writes is a clone only if it looks like one. -/
theorem Sound.lifecycle_written (h : d.Sound) (hwritten : d.written event = some record)
    {metadata : ExecutionCloneMetadata} (hmetadata : record.executionCloneMetadata = some metadata) :
    Lifecycle metadata := by
  cases event with
  | rebuild rebuilt =>
    cases hwritten
    cases hmetadata
  | create req id now =>
    rw [written, createExecutionClone] at hwritten
    split at hwritten
    · cases hwritten
    · dsimp only at hwritten
      split at hwritten
      · cases hwritten
      · split at hwritten
        · cases hwritten
        · cases hwritten
          cases hmetadata
          exact lifecycle_build req now _
  | runtimeExit old now =>
    rw [written, completeExecutionCloneOnRuntimeExit] at hwritten
    split at hwritten
    · split at hwritten
      · cases hwritten
      · split at hwritten
        · cases hwritten
        · cases hwritten
          cases hmetadata
          exact lifecycle_completed _ now
    · cases hwritten
  | destroy req now =>
    rw [written, destroyExecutionClone] at hwritten
    split at hwritten
    · cases hwritten
    · split at hwritten
      · cases hwritten
      · split at hwritten
        · cases hwritten
        · cases hwritten
          cases hmetadata
          exact lifecycle_destroying _ now
  | stopped name => cases hwritten
  | stopFailed old =>
    rw [written] at hwritten
    split at hwritten
    · rename_i hheld
      cases hwritten
      exact h.lifecycle old hheld metadata hmetadata
    · cases hwritten

theorem Sound.upsert (h : d.Sound)
    (hrecord : ∀ metadata, record.executionCloneMetadata = some metadata → Lifecycle metadata) :
    (d.upsert record).Sound := by
  have hget (name : String) : (d.upsert record).sessions.get? name =
      if name = record.name then some (storedRecord d.sessions record)
      else d.sessions.get? name := OrderedMap.get?_set
  refine ⟨fun name other hother => ?_, fun name other hother => ?_, fun other hmem metadata h' => ?_⟩
  · rw [hget] at hother
    split at hother
    · rename_i hname
      cases hother
      exact hname.symm
    · exact h.keyed name other hother
  · rw [hget] at hother
    split at hother
    · cases hother
      exact List.mem_cons_self
    · exact List.mem_cons_of_mem _ (h.stored name other hother)
  · rcases List.mem_cons.1 hmem with rfl | hmem
    · -- the metadata are the record's own, or those of the clone that it replaces
      rw [storedRecord] at h'
      cases hown : record.executionCloneMetadata with
      | some own =>
        rw [hown] at h'
        cases h'
        exact hrecord metadata hown
      | none =>
        rw [hown] at h'
        obtain ⟨old, hold, hclone⟩ := Option.bind_eq_some_iff.1 h'
        exact h.lifecycle old (h.stored _ old hold) metadata (clone?_eq_some.1 hclone).1
    · exact h.lifecycle other hmem metadata h'

theorem Sound.remove (h : d.Sound) (event : CloneEvent) : (d.remove event).Sound := by
  cases event with
  | stopped name =>
    have hget (name' : String) (record : SessionRecord)
        (hrecord : (d.sessions.delete name).get? name' = some record) :
        d.sessions.get? name' = some record := by
      rw [OrderedMap.get?_delete] at hrecord
      split at hrecord
      · cases hrecord
      · exact hrecord
    exact ⟨fun name' record hrecord => h.keyed name' record (hget name' record hrecord),
      fun name' record hrecord => h.stored name' record (hget name' record hrecord), h.lifecycle⟩
  | _ => exact h

theorem Sound.step (h : d.Sound) (event : CloneEvent) : (d.step event).Sound := by
  rw [Daemon.step]
  cases hwritten : d.written event with
  | some record => exact h.upsert fun metadata => h.lifecycle_written hwritten
  | none => exact h.remove event

/-- **Every run is sound.** -/
theorem sound_run (events : List CloneEvent) : (run events).Sound := by
  refine run_invariant_all Sound (fun d event h => h.step event) ⟨?_, ?_, ?_⟩ events
  · exact fun name record h => nomatch h
  · exact fun name record h => nomatch h
  · exact fun record h => nomatch h

end Daemon

/-- **A clone without a stamp** is active, or was asked to go. -/
theorem lifecycle_run {events : List CloneEvent} {name : String} {record : SessionRecord}
    (hrecord : (Daemon.run events).sessions.get? name = some record)
    {metadata : ExecutionCloneMetadata} (hclone : record.clone? = some metadata)
    (hstamp : metadata.retentionExpiresAt = none) :
    metadata.cleanupState = .active ∧ metadata.completedAt = none ∨
      metadata.cleanupState = .destroying ∧ metadata.destroyRequestedAt ≠ none := by
  have h := Daemon.sound_run events
  have hlife := h.lifecycle record (h.stored name record hrecord) metadata (clone?_eq_some.1 hclone).1
  cases hstate : metadata.cleanupState with
  | active => exact Or.inl ⟨rfl, (hlife.active hstate).2⟩
  | collecting => exact absurd hstamp (hlife.collecting hstate)
  | destroying => exact Or.inr ⟨rfl, (hlife.destroying hstate).2⟩
  | destroyed => exact absurd hstate hlife.notDestroyed

/-! ## The sweep -/

/-- The sweep selects the clone: its creator lives, and its time is over. -/
def Reaped (sessions : Sessions) (name : String) (record : SessionRecord)
    (metadata : ExecutionCloneMetadata) : Prop :=
  ∀ (now : ℤ) (deps : SweepExecutionClonesDeps), deps.isCloneParentTerminal record = false →
    metadata.hardTimeoutAt + resolveExecutionCloneRetentionMs metadata ≤ now →
    (∀ stamp, metadata.retentionExpiresAt = some stamp → stamp ≤ now) →
      name ∈ (sweepExecutionClones now deps (listSessions sessions)).map Prod.fst

theorem sweepReason_isSome {now : ℤ} {deps : SweepExecutionClonesDeps} {record : SessionRecord}
    {metadata : ExecutionCloneMetadata} (hcreator : deps.isCloneParentTerminal record = false) :
    (sweepReason now deps record metadata).isSome ↔
      deps.isRunning record = true ∧ metadata.hardTimeoutAt ≤ now ∨
        deps.isRunning record = false ∧ ∃ stamp,
          metadata.retentionExpiresAt = some stamp ∧ stamp ≤ now := by
  rw [sweepReason, hcreator]
  cases hrunning : deps.isRunning record with
  | true => by_cases htimeout : metadata.hardTimeoutAt ≤ now <;> simp [htimeout]
  | false =>
    cases metadata.retentionExpiresAt with
    | none => simp
    | some stamp => by_cases hstamp : stamp ≤ now <;> simp [hstamp]

/-- A record is selected when there is a reason to. -/
theorem mem_sweepExecutionClones {d : Daemon} (h : d.Sound) {name : String}
    {record : SessionRecord} (hrecord : d.sessions.get? name = some record)
    {metadata : ExecutionCloneMetadata} (hclone : record.clone? = some metadata) {now : ℤ}
    {deps : SweepExecutionClonesDeps} :
    name ∈ (sweepExecutionClones now deps (listSessions d.sessions)).map Prod.fst ↔
      (sweepReason now deps record metadata).isSome := by
  have hname := h.keyed name record hrecord
  simp only [sweepExecutionClones, List.mem_map, List.mem_filterMap, Option.bind_eq_some_iff,
    Option.map_eq_some_iff]
  constructor
  · rintro ⟨-, ⟨other, hother, metadata', hclone', reason, hreason, rfl⟩, hsame⟩
    obtain ⟨⟨key, value⟩, hmem, rfl⟩ := List.mem_map.1 hother
    have hkey := OrderedMap.get?_eq_some.2 hmem
    obtain rfl : key = name := (h.keyed key value hkey).symm.trans hsame
    obtain rfl : record = value := Option.some.inj (hrecord.symm.trans hkey)
    obtain rfl : metadata = metadata' := Option.some.inj (hclone.symm.trans hclone')
    exact hreason ▸ rfl
  · intro hreason
    obtain ⟨reason, hreason⟩ := Option.isSome_iff_exists.1 hreason
    exact ⟨(record.name, reason),
      ⟨record, List.mem_map.2 ⟨(name, record), OrderedMap.get?_eq_some.1 hrecord, rfl⟩, metadata,
        hclone, reason, hreason, rfl⟩, hname⟩

/-- **A clone is reaped in the end**, running or not, exactly when it has a stamp. -/
theorem reapable_iff (events : List CloneEvent) (name : String) (record : SessionRecord)
    (metadata : ExecutionCloneMetadata)
    (hrecord : (Daemon.run events).sessions.get? name = some record)
    (hclone : record.clone? = some metadata) :
    Reaped (Daemon.run events).sessions name record metadata ↔
      metadata.retentionExpiresAt ≠ none := by
  have hsound := Daemon.sound_run events
  have hretention := resolveExecutionCloneRetentionMs_nonneg metadata
  constructor
  · intro hreaped hnone
    have hselected := hreaped (metadata.hardTimeoutAt + resolveExecutionCloneRetentionMs metadata)
      { isCloneParentTerminal := fun _ => false, isRunning := fun _ => false } rfl le_rfl
      (fun stamp hstamp => nomatch hnone.symm.trans hstamp)
    rw [mem_sweepExecutionClones hsound hrecord hclone, sweepReason_isSome rfl] at hselected
    rcases hselected with ⟨hrunning, -⟩ | ⟨-, stamp, hstamp, -⟩
    · cases hrunning
    · cases hnone.symm.trans hstamp
  · intro hstamped now deps hcreator hnow hpast
    obtain ⟨stamp, hstamp⟩ := Option.ne_none_iff_exists'.1 hstamped
    rw [mem_sweepExecutionClones hsound hrecord hclone, sweepReason_isSome hcreator]
    cases hrunning : deps.isRunning record with
    | true => exact Or.inl ⟨rfl, by omega⟩
    | false => exact Or.inr ⟨rfl, stamp, hstamp, hpast stamp hstamp⟩

/-! ## A clone that stays -/

def exampleMain : SessionRecord :=
  { name := "deck_app_brain", projectName := "app", role := "brain", agentType := "codex"
    projectDir := "/app", state := .running }

def exampleTemplate : SessionRecord :=
  { name := "deck_sub_t", projectName := "app", role := "w1", agentType := "codex"
    projectDir := "/app", state := .idle }

def exampleRequest : ExecutionCloneRequest :=
  { templateSessionName := "deck_sub_t", parentRunId := "run", parentStage := .genericExecution
    ownerSessionName := "deck_app_brain", owningMainSessionName := "deck_app_brain", pref := {} }

/-- A clone is created. -/
def creation : List CloneEvent :=
  [.rebuild exampleMain, .rebuild exampleTemplate, .create exampleRequest "c" 1000]

def exampleClone : SessionRecord :=
  { name := "deck_sub_c", projectName := "app", role := "w1", agentType := "codex"
    projectDir := "/app", state := .idle, parentSession := some "deck_app_brain"
    executionCloneMetadata := some
      { kind := EXECUTION_CLONE_KIND, cloneOfSessionName := "deck_sub_t", parentRunId := "run"
        parentStage := .genericExecution, createdBySessionName := "deck_app_brain"
        createdAt := 1000, hardTimeoutAt := 3601000, cloneRetentionMs := some 300000
        cleanupState := .active } }

example : (Daemon.run creation).sessions.get? "deck_sub_c" = some exampleClone := by decide +kernel

/-- The record of the clone after a run, and what it says of the clone. -/
def recordAfter (events : List CloneEvent) : SessionRecord :=
  ((Daemon.run events).sessions.get? "deck_sub_c").getD exampleMain

def metadataAfter (events : List CloneEvent) : ExecutionCloneMetadata :=
  (recordAfter events).clone?.getD (buildExecutionCloneMetadata exampleRequest 0
    defaultDedicatedExecutionRoutingPreference)

/-- Its worker ends, and its end is recorded. -/
def completion : List CloneEvent := creation ++ [.runtimeExit exampleClone 5000]

theorem reapable_iff_completion :
    Reaped (Daemon.run completion).sessions "deck_sub_c" (recordAfter completion)
        (metadataAfter completion) ↔
      (metadataAfter completion).retentionExpiresAt ≠ none :=
  reapable_iff completion "deck_sub_c" (recordAfter completion) (metadataAfter completion)
    (by decide +kernel) (by decide +kernel)

/-- Its launch fails, it is asked to go, and its stop fails too. -/
def failedRollback : List CloneEvent :=
  creation ++
    [.destroy { target := "deck_sub_c", bypassAuth := true } 2000,
      .stopFailed { exampleClone with
        executionCloneMetadata :=
          exampleClone.executionCloneMetadata.map (·.destroying 2000) }]

/-- **A clone is not always reaped**: it does not run, and was never stamped. -/
theorem not_reapable :
    ¬ ∀ (events : List CloneEvent) (name : String) (record : SessionRecord)
      (metadata : ExecutionCloneMetadata),
      (Daemon.run events).sessions.get? name = some record → record.clone? = some metadata →
        Reaped (Daemon.run events).sessions name record metadata := by
  intro h
  have hreaped := h failedRollback "deck_sub_c" (recordAfter failedRollback)
    (metadataAfter failedRollback) (by decide +kernel) (by decide +kernel)
  have hselected := hreaped 100000000
    (runExecutionCloneSweepDeps (Daemon.run failedRollback).sessions) (by decide +kernel)
    (by decide +kernel) (fun stamp hstamp => by
      have hnone : (metadataAfter failedRollback).retentionExpiresAt = none := by decide +kernel
      cases hnone.symm.trans hstamp)
  exact absurd hselected (by decide +kernel)

end Imcodes.Clones
