import Mathlib.Data.List.Sort
import Imcodes.Memory.Noise

/-!
# The events of one target in the context store

Events wait in a table of staged events until a summary is made of them; what leaves it is put into
an archive first. The row of a dirty target says that there is something to do, the rows of its jobs
how that went. Each operation is one transaction.

What is kept of projections, other targets and the times of the archive is left out.
-/

namespace Imcodes.Memory

/-! ## Rows -/

structure LocalContextEvent where
  id : String
  eventType : String
  content : Option String
  createdAt : ℤ
deriving DecidableEq

/-- A row of the staged events; the copies of an event are numbered as they are inserted. -/
structure StagedEvent where
  event : LocalContextEvent
  serial : ℕ
deriving DecidableEq

inductive ContextJobTrigger
  | idle | threshold | schedule | recovery | manual
deriving DecidableEq

inductive ContextJobStatus
  | pending | running | completed | failed | materializationFailed
deriving DecidableEq

structure ContextJobRecord where
  id : ℕ
  trigger : ContextJobTrigger
  status : ContextJobStatus
  createdAt : ℤ
  updatedAt : ℤ
  attemptCount : ℕ
  error : Option String
deriving DecidableEq

structure ContextDirtyTarget where
  eventCount : ℕ
  oldestEventAt : ℤ
  newestEventAt : ℤ
  lastTrigger : Option ContextJobTrigger
  pendingJobId : Option ℕ
deriving DecidableEq

/-- A summary that was committed; summaries with one fingerprint are one. -/
structure SummaryProjection where
  fingerprint : String
  summary : String
  sourceEventIds : List String
  /-- The staged rows it was built from. -/
  copies : List ℕ
deriving DecidableEq

structure ContextStore where
  staged : List StagedEvent := []
  archive : List LocalContextEvent := []
  dirty : Option ContextDirtyTarget := none
  jobs : List ContextJobRecord := []
  summaries : List SummaryProjection := []
  /-- How many rows were ever inserted. -/
  inserted : ℕ := 0

/-- The ids of rows. -/
def ids (events : List StagedEvent) : List String := events.map (·.event.id)

namespace ContextStore

variable (store : ContextStore)

/-! ## Operations -/

/-- `INSERT … ON CONFLICT(target_key) DO UPDATE` -/
def markDirty (createdAt : ℤ) : Option ContextDirtyTarget → ContextDirtyTarget
  | none =>
    { eventCount := 1
      oldestEventAt := createdAt
      newestEventAt := createdAt
      lastTrigger := none
      pendingJobId := none }
  | some row =>
    { row with
      eventCount := row.eventCount + 1
      oldestEventAt := min row.oldestEventAt createdAt
      newestEventAt := max row.newestEventAt createdAt }

/-- A row of that id is kept as it is. -/
def recordContextEvent (event : LocalContextEvent) : ContextStore :=
  if event.id ∈ ids store.staged then store
  else
    { store with
      staged := store.staged ++ [{ event, serial := store.inserted }]
      inserted := store.inserted + 1
      dirty := some (markDirty event.createdAt store.dirty) }

/-- `ORDER BY created_at ASC` -/
def listContextEvents : List StagedEvent :=
  store.staged.insertionSort fun a b => a.event.createdAt ≤ b.event.createdAt

/-- `ON CONFLICT(id)` keeps the content of the first row. -/
def archiveEvent (archive : List LocalContextEvent) (event : LocalContextEvent) :
    List LocalContextEvent :=
  if event.id ∈ archive.map (·.id) then archive else archive ++ [event]

def archiveEventsForMaterialization (events : List StagedEvent) : ContextStore :=
  { store with archive := (events.map (·.event)).foldl archiveEvent store.archive }

def deleteStagedEventsByIds (eventIds : List String) : ContextStore :=
  { store with staged := store.staged.filter (·.event.id ∉ eventIds) }

def clearDirtyTarget : ContextStore := { store with dirty := none }

/-- `UPDATE context_dirty_targets SET last_trigger = ?, pending_job_id = ?` -/
def noteJob (trigger : ContextJobTrigger) (job : ℕ) : ContextStore :=
  { store with
    dirty := store.dirty.map fun row =>
      { row with lastTrigger := some trigger, pendingJobId := some job } }

/-- The oldest job that is pending or running, or a new one. -/
def enqueueContextJob (trigger : ContextJobTrigger) (now : ℤ) : ContextStore × ℕ :=
  let openJobs := store.jobs.filter fun job => job.status = .pending || job.status = .running
  match (openJobs.insertionSort fun a b => a.createdAt ≤ b.createdAt).head? with
  | some job => (store.noteJob trigger job.id, job.id)
  | none =>
    let job : ContextJobRecord :=
      { id := store.jobs.length
        trigger
        status := .pending
        createdAt := now
        updatedAt := now
        attemptCount := 0
        error := none }
    (noteJob { store with jobs := store.jobs ++ [job] } trigger job.id, job.id)

def updateContextJob (job : ℕ) (status : ContextJobStatus) (error : Option String)
    (attemptIncrement : Bool) (now : ℤ) : ContextStore :=
  { store with
    jobs := store.jobs.map fun row =>
      if row.id = job then
        { row with
          status
          updatedAt := now
          error
          attemptCount := row.attemptCount + if attemptIncrement then 1 else 0 }
      else row }

/-- The failed jobs among these, up to one that was completed. -/
def countFailed : List ContextJobStatus → ℕ
  | [] => 0
  | .materializationFailed :: rest => countFailed rest + 1
  | .completed :: _ => 0
  | _ :: rest => countFailed rest

/-- Count consecutive materialization_failed jobs since the last completed job, of the last 20. -/
def countConsecutiveFailedJobs : ℕ :=
  let newestFirst := store.jobs.reverse.insertionSort fun a b => a.createdAt ≥ b.createdAt
  countFailed ((newestFirst.take 20).map (·.status))

/-- `writeProcessedProjection` of a summary -/
def writeSummary (summaries : List SummaryProjection) (fingerprint summary : String)
    (events : List StagedEvent) : List SummaryProjection :=
  if fingerprint ∈ summaries.map (·.fingerprint) then
    summaries.map fun row =>
      if row.fingerprint = fingerprint then
        { row with
          summary
          sourceEventIds := (row.sourceEventIds ++ ids events).eraseDups
          copies := row.copies ++ events.map (·.serial) }
      else row
  else
    summaries ++ [{ fingerprint, summary, sourceEventIds := ids events
                    copies := events.map (·.serial) }]

/-- Archive the events, write the summary, delete the staged events, complete the job and clear the
dirty target in one transaction. -/
def commitMaterialization (fingerprint summary : String) (events : List StagedEvent) (job : ℕ)
    (now : ℤ) : ContextStore :=
  let store := store.archiveEventsForMaterialization events
  let store := { store with summaries := writeSummary store.summaries fingerprint summary events }
  let store := store.deleteStagedEventsByIds (ids events)
  let store := store.updateContextJob job .completed none false now
  store.clearDirtyTarget

/-! ## Nothing is lost -/

variable {store : ContextStore} {events : List StagedEvent}

theorem mem_foldl_archiveEvent {archive : List LocalContextEvent} {id : String}
    (list : List LocalContextEvent) :
    id ∈ (list.foldl archiveEvent archive).map (·.id) ↔
      id ∈ archive.map (·.id) ∨ id ∈ list.map (·.id) := by
  induction list generalizing archive with
  | nil => simp
  | cons event list ih =>
    have hone : id ∈ (archiveEvent archive event).map (·.id) ↔
        id ∈ archive.map (·.id) ∨ id = event.id := by
      rw [archiveEvent]
      split
      · rename_i hmem
        exact ⟨Or.inl, fun h => h.elim (fun h => h) fun heq => heq ▸ hmem⟩
      · rw [List.map_append, List.mem_append, List.map_singleton, List.mem_singleton]
    rw [List.foldl_cons, ih, hone, List.map_cons, List.mem_cons, or_assoc]

/-- The events are archived. -/
theorem mem_archived {id : String} :
    id ∈ (store.archiveEventsForMaterialization events).archive.map (·.id) ↔
      id ∈ store.archive.map (·.id) ∨ id ∈ ids events := by
  rw [archiveEventsForMaterialization, mem_foldl_archiveEvent, List.map_map]
  rfl

/-- What is archived stays so, and what is staged stays so or is archived. -/
structure Keeps (store store' : ContextStore) : Prop where
  archive : ∀ id ∈ store.archive.map (·.id), id ∈ store'.archive.map (·.id)
  staged : ∀ id ∈ ids store.staged, id ∈ ids store'.staged ∨ id ∈ store'.archive.map (·.id)

theorem Keeps.of_eq {store' : ContextStore} (harchive : store'.archive = store.archive)
    (hstaged : store'.staged = store.staged) : Keeps store store' where
  archive := fun _ h => harchive ▸ h
  staged := fun _ h => Or.inl (hstaged ▸ h)

theorem mem_ids_delete {id : String} {eventIds : List String} (h : id ∈ ids store.staged) :
    id ∈ ids (store.deleteStagedEventsByIds eventIds).staged ∨ id ∈ eventIds := by
  obtain ⟨row, hrow, rfl⟩ := List.mem_map.1 h
  by_cases hid : row.event.id ∈ eventIds
  · exact Or.inr hid
  · exact Or.inl (List.mem_map_of_mem (List.mem_filter.2 ⟨hrow, by simpa using hid⟩))

theorem keeps_delete {eventIds : List String}
    (h : ∀ id ∈ eventIds, id ∈ store.archive.map (·.id)) :
    Keeps store (store.deleteStagedEventsByIds eventIds) where
  archive := fun _ h => h
  staged := fun id hid => (mem_ids_delete hid).imp_right (h id)

theorem keeps_archive : Keeps store (store.archiveEventsForMaterialization events) where
  archive := fun _ h => mem_archived.2 (Or.inl h)
  staged := fun _ h => Or.inl h

theorem keeps_commit {fingerprint summary : String} {job : ℕ} {now : ℤ} :
    Keeps store (store.commitMaterialization fingerprint summary events job now) where
  archive := fun _ h => mem_archived.2 (Or.inl h)
  staged := fun _ h => (mem_ids_delete h).imp_right fun hid => mem_archived.2 (Or.inr hid)

theorem keeps_record (event : LocalContextEvent) :
    Keeps store (store.recordContextEvent event) ∧
      event.id ∈ ids (store.recordContextEvent event).staged := by
  rw [recordContextEvent]
  split
  · rename_i hmem
    exact ⟨.of_eq rfl rfl, hmem⟩
  · refine ⟨⟨fun _ h => h, fun id h => Or.inl ?_⟩, ?_⟩
    · rw [ids, List.map_append]
      exact List.mem_append_left _ h
    · rw [ids, List.map_append]
      exact List.mem_append_right _ (List.mem_singleton_self _)

theorem keeps_enqueue {trigger : ContextJobTrigger} {now : ℤ} :
    Keeps store (store.enqueueContextJob trigger now).1 := by
  rw [enqueueContextJob]
  dsimp only
  split <;> exact .of_eq rfl rfl

/-! ## The books -/

/-- What holds of the rows of a store. -/
structure Booked (store : ContextStore) : Prop where
  fresh : ∀ row ∈ store.staged, row.serial < store.inserted
  distinct : (store.staged.map (·.serial)).Nodup
  /-- The rows that summaries were built from are staged no more. -/
  spent : ∀ row ∈ store.summaries, ∀ n ∈ row.copies,
    n < store.inserted ∧ n ∉ store.staged.map (·.serial)
  fingerprints : (store.summaries.map (·.fingerprint)).Nodup
  once : store.summaries.Pairwise fun a b => a.copies.Disjoint b.copies
  dirty : store.staged ≠ [] → store.dirty.isSome = true

theorem Booked.of_eq {store' : ContextStore} (h : Booked store)
    (hstaged : store'.staged = store.staged) (hsummaries : store'.summaries = store.summaries)
    (hinserted : store'.inserted = store.inserted)
    (hdirty : store'.dirty.isSome = store.dirty.isSome) : Booked store' where
  fresh := by
    rw [hstaged, hinserted]
    exact h.fresh
  distinct := by
    rw [hstaged]
    exact h.distinct
  spent := by
    rw [hsummaries, hinserted, hstaged]
    exact h.spent
  fingerprints := by
    rw [hsummaries]
    exact h.fingerprints
  once := by
    rw [hsummaries]
    exact h.once
  dirty := by
    rw [hstaged, hdirty]
    exact h.dirty

theorem Booked.record (h : Booked store) (event : LocalContextEvent) :
    Booked (store.recordContextEvent event) := by
  rw [recordContextEvent]
  split
  · exact h
  · refine ⟨?_, ?_, ?_, h.fingerprints, h.once, fun _ => rfl⟩
    · refine List.forall_mem_append.2 ⟨fun row hrow => Nat.lt_succ_of_lt (h.fresh row hrow), ?_⟩
      exact List.forall_mem_singleton.2 (Nat.lt_succ_self _)
    · rw [List.map_append]
      refine List.nodup_append.2 ⟨h.distinct, List.nodup_singleton _, ?_⟩
      rintro n hn m hm rfl
      obtain ⟨row, hrow, rfl⟩ := List.mem_map.1 hn
      have hlt := h.fresh row hrow
      rw [List.map_singleton, List.mem_singleton] at hm
      exact absurd hm (Nat.ne_of_lt hlt)
    · intro row hrow n hn
      obtain ⟨hlt, hnot⟩ := h.spent row hrow n hn
      refine ⟨Nat.lt_succ_of_lt hlt, ?_⟩
      rw [List.map_append, List.mem_append, List.map_singleton, List.mem_singleton]
      exact not_or.2 ⟨hnot, Nat.ne_of_lt hlt⟩

theorem Booked.delete (h : Booked store) (eventIds : List String) :
    Booked (store.deleteStagedEventsByIds eventIds) where
  fresh := fun row hrow => h.fresh row (List.mem_of_mem_filter hrow)
  distinct := h.distinct.sublist (List.filter_sublist.map _)
  spent := fun row hrow n hn =>
    ⟨(h.spent row hrow n hn).1, fun hmem =>
      (h.spent row hrow n hn).2 ((List.filter_sublist.map _).subset hmem)⟩
  fingerprints := h.fingerprints
  once := h.once
  dirty := fun hne => h.dirty fun hnil => hne (by
    rw [deleteStagedEventsByIds, hnil]
    rfl)

theorem Booked.clear (h : Booked store) (hnil : store.staged = []) :
    Booked store.clearDirtyTarget :=
  { h with dirty := fun hne => absurd hnil hne }

/-- What a summary is built from was in no summary before. -/
theorem Booked.disjoint (h : Booked store) (hevents : ∀ row ∈ events, row ∈ store.staged)
    {row : SummaryProjection} (hrow : row ∈ store.summaries) :
    row.copies.Disjoint (events.map (·.serial)) := by
  intro n hn hmem
  obtain ⟨event, hevent, rfl⟩ := List.mem_map.1 hmem
  exact (h.spent row hrow _ hn).2 (List.mem_map_of_mem (hevents event hevent))

theorem mem_copies_writeSummary {summaries : List SummaryProjection} {fingerprint summary : String}
    {row : SummaryProjection} {n : ℕ}
    (hrow : row ∈ writeSummary summaries fingerprint summary events) (hn : n ∈ row.copies) :
    (∃ old ∈ summaries, n ∈ old.copies) ∨ n ∈ events.map (·.serial) := by
  rw [writeSummary] at hrow
  split at hrow
  · obtain ⟨old, hold, rfl⟩ := List.mem_map.1 hrow
    split at hn
    · exact (List.mem_append.1 hn).imp (fun h => ⟨old, hold, h⟩) fun h => h
    · exact Or.inl ⟨old, hold, hn⟩
  · rcases List.mem_append.1 hrow with hold | hnew
    · exact Or.inl ⟨row, hold, hn⟩
    · rw [List.mem_singleton.1 hnew] at hn
      exact Or.inr hn

theorem fingerprints_writeSummary {summaries : List SummaryProjection}
    {fingerprint summary : String} (h : (summaries.map (·.fingerprint)).Nodup) :
    ((writeSummary summaries fingerprint summary events).map (·.fingerprint)).Nodup := by
  rw [writeSummary]
  split
  · rw [List.map_map]
    refine (List.map_congr_left fun row _ => ?_) ▸ h
    simp only [Function.comp]
    split <;> rfl
  · rename_i hnew
    rw [List.map_append]
    refine List.nodup_append.2 ⟨h, List.nodup_singleton _, ?_⟩
    rintro a ha b hb rfl
    rw [List.map_singleton, List.mem_singleton] at hb
    rw [hb] at ha
    exact hnew ha

/-- A new summary has nothing in common with the others. -/
theorem once_writeSummary {summaries : List SummaryProjection} {fingerprint summary : String}
    (hfingerprints : (summaries.map (·.fingerprint)).Nodup)
    (honce : summaries.Pairwise fun a b => a.copies.Disjoint b.copies)
    (hdisjoint : ∀ row ∈ summaries, row.copies.Disjoint (events.map (·.serial))) :
    (writeSummary summaries fingerprint summary events).Pairwise fun a b =>
      a.copies.Disjoint b.copies := by
  rw [writeSummary]
  split
  · rw [List.pairwise_map]
    refine ((List.pairwise_map.1 hfingerprints).and honce).imp_of_mem
      fun {a b} ha hb ⟨hne, hab⟩ => ?_
    by_cases hfa : a.fingerprint = fingerprint
    · rw [if_pos hfa, if_neg fun hfb => hne (hfa.trans hfb.symm)]
      exact List.disjoint_append_left.2 ⟨hab, fun _ hn hm => hdisjoint b hb hm hn⟩
    · rw [if_neg hfa]
      split
      · exact List.disjoint_append_right.2 ⟨hab, hdisjoint a ha⟩
      · exact hab
  · refine List.pairwise_append.2 ⟨honce, List.pairwise_singleton _ _, fun a ha b hb => ?_⟩
    rw [List.mem_singleton.1 hb]
    exact hdisjoint a ha

/-- **A commit** of the events that are staged, and of no others. -/
theorem Booked.commit (h : Booked store) (fingerprint summary : String) (job : ℕ) (now : ℤ)
    (hevents : ∀ row ∈ events, row ∈ store.staged)
    (hall : ∀ row ∈ store.staged, row.event.id ∈ ids events) :
    Booked (store.commitMaterialization fingerprint summary events job now) := by
  have hnil : (store.staged.filter fun row => row.event.id ∉ ids events) = [] := by
    refine List.filter_eq_nil_iff.2 fun row hrow => ?_
    simpa using hall row hrow
  refine ⟨?_, ?_, ?_, fingerprints_writeSummary h.fingerprints,
    once_writeSummary h.fingerprints h.once fun row hrow => h.disjoint hevents hrow, ?_⟩
  all_goals simp only [commitMaterialization, clearDirtyTarget, updateContextJob,
    deleteStagedEventsByIds, archiveEventsForMaterialization, hnil]
  · exact List.forall_mem_nil _
  · exact List.nodup_nil
  · intro row hrow n hn
    refine ⟨?_, List.not_mem_nil⟩
    rcases mem_copies_writeSummary hrow hn with ⟨old, hold, hmem⟩ | hmem
    · exact (h.spent old hold n hmem).1
    · obtain ⟨event, hevent, rfl⟩ := List.mem_map.1 hmem
      exact h.fresh event (hevents event hevent)
  · exact fun hne => absurd rfl hne

theorem Booked.enqueue (h : Booked store) (trigger : ContextJobTrigger) (now : ℤ) :
    Booked (store.enqueueContextJob trigger now).1 := by
  rw [enqueueContextJob]
  dsimp only
  split
  all_goals exact h.of_eq rfl rfl rfl (by simp [noteJob])

end ContextStore

end Imcodes.Memory
