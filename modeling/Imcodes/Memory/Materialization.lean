import Imcodes.Collections.Modify
import Imcodes.Machine.Runs
import Imcodes.Memory.StagedEvents

/-!
# Materializing the staged events of a target

A materialization lists the staged events, has a summary made of them, and commits it. Any number of
them run at a time, and events are recorded meanwhile: a step is what is done from one wait to the
next.

* `archived_run` — no event is lost: what is not staged any more is in the archive.
* `summarised_run` — of each staged event one summary is made, and a target with staged events that
  nothing works on is dirty, as long as each commit finds the events staged that it has listed, and
  no others.
-/

namespace Imcodes.Memory

open Machine

/-! ## One materialization -/

/-- What the compressor did. -/
inductive Compression
  | sdk (summary : String)
  | failed (errorMessage : String)
  /-- `CompressionAdmissionClosedError` -/
  | refused (reason : String)
deriving DecidableEq

/-- What is done next. -/
inductive Phase
  | enqueue
  | setRunning (job : ℕ)
  | list (job : ℕ)
  | compress (job : ℕ) (events : List StagedEvent)
  | count (job : ℕ) (events : List StagedEvent) (compression : Compression)
  | commit (job : ℕ) (events : List StagedEvent) (summary : String)
  /-- The events are discarded without a summary. -/
  | archive (job : ℕ) (events : List StagedEvent) (error : Option String)
  | delete (job : ℕ) (events : List StagedEvent) (error : Option String)
  | complete (job : ℕ) (error : Option String)
  | clear
  | fail (job : ℕ) (error : String)
  | finished
deriving DecidableEq

/-- `materializeTarget(target, trigger, now)` -/
structure Materialization where
  trigger : ContextJobTrigger
  now : ℤ
  phase : Phase
deriving DecidableEq

def MAX_SDK_RETRY_ATTEMPTS : ℕ := 3

/-- Eligible for a summary, and no noise. -/
def isUsable (event : StagedEvent) : Bool :=
  isMemoryEligibleEvent event.event.eventType &&
    !(isAssistantEvent event.event.eventType && isMemoryNoiseTurn event.event.content)

/-- All turns of the assistant are noise, and there is one. -/
def isNoise (allEvents : List StagedEvent) : Bool :=
  (allEvents.any fun e => isAssistantEvent e.event.eventType && isMemoryNoiseTurn e.event.content) &&
    !((allEvents.filter isUsable).any fun e => isAssistantEvent e.event.eventType)

namespace Materialization

variable (fingerprint : String → String) (store : ContextStore) (m : Materialization)

def goTo (phase : Phase) : Materialization := { m with phase }

/-- What follows the count of the failures before. -/
def afterCount (priorFailures job : ℕ) (events : List StagedEvent) : Compression → Phase
  | .sdk summary => .commit job events summary
  | .refused _ => .finished
  | .failed _ =>
    let total := priorFailures + 1
    if MAX_SDK_RETRY_ATTEMPTS ≤ total then
      .archive job events (some ("SDK compression abandoned after " ++ toString total ++
        " consecutive failures — events discarded, no summary written"))
    else
      .fail job ("SDK compression unavailable (attempt " ++ toString total ++ "/" ++
        toString MAX_SDK_RETRY_ATTEMPTS ++ ") — kept raw events for retry")

/-- The next operation on the store, where one is due. -/
def next : ContextStore × Materialization :=
  match m.phase with
  | .enqueue =>
    let enqueued := store.enqueueContextJob m.trigger m.now
    (enqueued.1, m.goTo (.setRunning enqueued.2))
  | .setRunning job => (store.updateContextJob job .running none true m.now, m.goTo (.list job))
  | .list job =>
    let allEvents := store.listContextEvents
    (store, m.goTo (if isNoise allEvents then .archive job allEvents none
      else .compress job allEvents))
  | .compress _ _ => (store, m)
  | .count job events compression =>
    (store, m.goTo (afterCount store.countConsecutiveFailedJobs job events compression))
  | .commit job events summary =>
    (store.commitMaterialization (fingerprint summary) summary events job m.now, m.goTo .finished)
  | .archive job events error =>
    (store.archiveEventsForMaterialization events, m.goTo (.delete job events error))
  | .delete job events error =>
    (store.deleteStagedEventsByIds (ids events), m.goTo (.complete job error))
  | .complete job error =>
    (store.updateContextJob job .completed error false m.now, m.goTo .clear)
  | .clear => (store.clearDirtyTarget, m.goTo .finished)
  | .fail job error =>
    (store.updateContextJob job .materializationFailed (some error) false m.now, m.goTo .finished)
  | .finished => (store, m)

/-- The compressor answers. -/
def compressed (compression : Compression) : Materialization :=
  match m.phase, compression with
  | .compress job _, .refused reason =>
    m.goTo (.fail job ("compression_admission_closed: " ++ reason ++ " — kept raw events for retry"))
  | .compress job events, .sdk summary =>
    if isMemoryNoiseSummary summary then m.goTo (.archive job events none)
    else m.goTo (.count job events (.sdk summary))
  | .compress job events, compression => m.goTo (.count job events compression)
  | _, _ => m

/-- The commit is rolled back. -/
def commitFails (message : String) : Materialization :=
  match m.phase with
  | .commit job _ _ => m.goTo (.fail job ("commit_failed: " ++ message))
  | _ => m

end Materialization

/-! ## Runs -/

/-- The store, and what works on it. -/
structure Coordinator where
  store : ContextStore := {}
  materializations : List Materialization := []
  /-- Every event that was ever recorded. -/
  recorded : List LocalContextEvent := []

inductive CoordinatorEvent
  | record (event : LocalContextEvent)
  /-- `scheduleDueTargets` finds the target due. -/
  | schedule (trigger : ContextJobTrigger) (now : ℤ)
  | start (trigger : ContextJobTrigger) (now : ℤ)
  | next (index : ℕ)
  | compressed (index : ℕ) (compression : Compression)
  | commitFails (index : ℕ) (message : String)
  /-- An operation throws, and the materialization with it. -/
  | abort (index : ℕ)
deriving DecidableEq

/-- What the last operation of a materialization relies on: that a commit finds the events staged
that were listed and no others, and that nothing is staged when the dirty row is cleared. -/
def IsUpToDate (store : ContextStore) : Phase → Prop
  | .commit _ events _ =>
    (∀ row ∈ events, row ∈ store.staged) ∧ ∀ row ∈ store.staged, row.event.id ∈ ids events
  | .clear => store.staged = []
  | _ => True

namespace Coordinator

variable (fingerprint : String → String) (c : Coordinator)

/-- One materialization goes on. -/
def update (index : ℕ) (f : Materialization → Materialization) : Coordinator :=
  { c with materializations := c.materializations.modify index f }

def step : CoordinatorEvent → Coordinator
  | .record event =>
    { c with
      store := c.store.recordContextEvent event
      recorded := event :: c.recorded }
  | .schedule trigger now =>
    { c with store := (c.store.enqueueContextJob trigger now).1 }
  | .start trigger now =>
    { c with
      materializations := c.materializations ++ [{ trigger, now, phase := .enqueue }] }
  | .next index =>
    match c.materializations[index]? with
    | none => c
    | some m =>
      { c.update index fun m => (m.next fingerprint c.store).2 with
        store := (m.next fingerprint c.store).1 }
  | .compressed index compression => c.update index (·.compressed compression)
  | .commitFails index message => c.update index (·.commitFails message)
  | .abort index => c.update index (·.goTo .finished)

/-- No materialization is in progress. -/
def IsQuiet : Prop := ∀ m ∈ c.materializations, m.phase = .finished

/-- An event that was recorded is staged or in the archive. -/
def IsArchived : Prop :=
  ∀ event ∈ c.recorded, event.id ∈ ids c.store.staged ∨
    event.id ∈ c.store.archive.map (·.id)

/-- No two summaries are built from one staged row, and a target with staged events that nothing
works on is dirty. -/
structure IsSummarised : Prop where
  archived : c.IsArchived
  once : c.store.summaries.Pairwise fun a b => a.copies.Disjoint b.copies
  notStranded : c.IsQuiet → c.store.staged ≠ [] → c.store.dirty.isSome = true

/-- The operation that is done in a step may be done. -/
def GoesWell (event : CoordinatorEvent) : Prop :=
  match event with
  | .next index => ∀ m ∈ c.materializations[index]?, IsUpToDate c.store m.phase
  | _ => True

end Coordinator

/-! ## What a step does -/

open ContextStore

variable {fingerprint : String → String} {store : ContextStore} {m : Materialization}
variable {c : Coordinator} {event : CoordinatorEvent}

/-- What is to be deleted is archived. -/
def Materialization.IsCovered (store : ContextStore) (m : Materialization) : Prop :=
  match m.phase with
  | .delete _ events _ => ∀ id ∈ ids events, id ∈ store.archive.map (·.id)
  | _ => True

theorem Materialization.IsCovered.mono {store' : ContextStore} (h : m.IsCovered store)
    (hkeeps : Keeps store store') : m.IsCovered store' := by
  unfold IsCovered at h ⊢
  split
  · rename_i job events error hphase
    rw [hphase] at h
    exact fun id hid => hkeeps.archive id (h id hid)
  · trivial

theorem isCovered_afterCount {priorFailures job : ℕ} {events : List StagedEvent}
    (compression : Compression) :
    (m.goTo (Materialization.afterCount priorFailures job events compression)).IsCovered store := by
  cases compression with
  | sdk | refused => trivial
  | failed message =>
    rw [Materialization.afterCount]
    split <;> trivial

/-- **The next operation** keeps what is staged or archives it. -/
theorem keeps_next (h : m.IsCovered store) :
    Keeps store (m.next fingerprint store).1 ∧
      (m.next fingerprint store).2.IsCovered (m.next fingerprint store).1 := by
  unfold Materialization.next
  unfold Materialization.IsCovered at h
  cases hphase : m.phase with
  | enqueue => exact ⟨keeps_enqueue, trivial⟩
  | setRunning job => exact ⟨.of_eq rfl rfl, trivial⟩
  | list job =>
    refine ⟨.of_eq rfl rfl, ?_⟩
    dsimp only
    split <;> trivial
  | compress job events =>
    refine ⟨.of_eq rfl rfl, ?_⟩
    unfold Materialization.IsCovered
    rw [hphase]
    trivial
  | count job events compression => exact ⟨.of_eq rfl rfl, isCovered_afterCount compression⟩
  | commit job events summary => exact ⟨keeps_commit, trivial⟩
  | archive job events error =>
    exact ⟨keeps_archive, fun id hid => mem_archived.2 (Or.inr hid)⟩
  | delete job events error =>
    rw [hphase] at h
    exact ⟨keeps_delete h, trivial⟩
  | complete job error => exact ⟨.of_eq rfl rfl, trivial⟩
  | clear => exact ⟨.of_eq rfl rfl, trivial⟩
  | fail job error => exact ⟨.of_eq rfl rfl, trivial⟩
  | finished =>
    refine ⟨.of_eq rfl rfl, ?_⟩
    unfold Materialization.IsCovered
    rw [hphase]
    trivial

theorem isCovered_compressed (h : m.IsCovered store) (compression : Compression) :
    (m.compressed compression).IsCovered store := by
  unfold Materialization.compressed
  split
  · trivial
  · split <;> trivial
  · trivial
  · exact h

theorem isCovered_commitFails (h : m.IsCovered store) (message : String) :
    (m.commitFails message).IsCovered store := by
  unfold Materialization.commitFails
  split
  · trivial
  · exact h

/-- **The next operation** keeps the books, if it may be done. -/
theorem booked_next (h : Booked store) (hwell : IsUpToDate store m.phase) :
    Booked (m.next fingerprint store).1 := by
  unfold Materialization.next
  cases hphase : m.phase with
  | enqueue => exact h.enqueue _ _
  | setRunning job => exact h.of_eq rfl rfl rfl rfl
  | list job => exact h
  | compress job events => exact h
  | count job events compression => exact h
  | commit job events summary =>
    rw [hphase] at hwell
    exact h.commit _ _ _ _ hwell.1 hwell.2
  | archive job events error => exact h.of_eq rfl rfl rfl rfl
  | delete job events error => exact h.delete _
  | complete job error => exact h.of_eq rfl rfl rfl rfl
  | clear =>
    rw [hphase] at hwell
    exact h.clear hwell
  | fail job error => exact h.of_eq rfl rfl rfl rfl
  | finished => exact h

/-! ## Runs -/

/-- Nothing is lost, and what is to be deleted is archived. -/
structure Coordinator.Covered (c : Coordinator) : Prop where
  archived : c.IsArchived
  covered : ∀ m ∈ c.materializations, m.IsCovered c.store

theorem Coordinator.IsArchived.mono (h : c.IsArchived) (hkeeps : Keeps c.store store) :
    ∀ event ∈ c.recorded, event.id ∈ ids store.staged ∨ event.id ∈ store.archive.map (·.id) :=
  fun event hevent => (h event hevent).elim (hkeeps.staged _) fun h => Or.inr (hkeeps.archive _ h)

/-- A materialization is changed that stays covered. -/
theorem Coordinator.Covered.update {index : ℕ} {f : Materialization → Materialization}
    (h : c.Covered) (hf : ∀ m, m.IsCovered c.store → (f m).IsCovered c.store) :
    (c.update index f).Covered where
  archived := h.archived
  covered := fun m hm => by
    rcases Modify.mem_modify hm with hold | ⟨old, hold, rfl⟩
    · exact h.covered m hold
    · exact hf old (h.covered old (List.mem_of_getElem? hold))

/-- **A step** loses no event. -/
theorem Coordinator.Covered.step (h : c.Covered) (event : CoordinatorEvent) :
    (c.step fingerprint event).Covered := by
  cases event with
  | record event =>
    obtain ⟨hkeeps, hmem⟩ := @keeps_record c.store event
    refine ⟨?_, fun m hm => (h.covered m hm).mono hkeeps⟩
    exact List.forall_mem_cons.2 ⟨Or.inl hmem, h.archived.mono hkeeps⟩
  | schedule trigger now =>
    exact ⟨h.archived.mono keeps_enqueue, fun m hm => (h.covered m hm).mono keeps_enqueue⟩
  | start trigger now =>
    refine ⟨h.archived, List.forall_mem_append.2 ⟨h.covered, ?_⟩⟩
    exact List.forall_mem_singleton.2 trivial
  | next index =>
    rw [Coordinator.step]
    split
    · exact h
    · rename_i m hm
      obtain ⟨hkeeps, hcovered⟩ :=
        @keeps_next fingerprint _ _ (h.covered m (List.mem_of_getElem? hm))
      refine ⟨h.archived.mono hkeeps, fun m' hm' => ?_⟩
      rcases Modify.mem_modify hm' with hold | ⟨old, hold, rfl⟩
      · exact (h.covered m' hold).mono hkeeps
      · obtain rfl := Option.some.inj (hm.symm.trans hold)
        exact hcovered
  | compressed index compression => exact h.update fun m hm => isCovered_compressed hm compression
  | commitFails index message => exact h.update fun m hm => isCovered_commitFails hm message
  | abort index => exact h.update fun m hm => trivial

/-- **No event is lost** in any run. -/
theorem archived_run (fingerprint : String → String) (events : List CoordinatorEvent) :
    (run (Coordinator.step fingerprint) events {}).IsArchived :=
  (run_invariant_all Coordinator.Covered (fun _ event h => h.step event)
    ⟨fun _ h => absurd h List.not_mem_nil, List.forall_mem_nil _⟩ events).archived

/-- **A step** that may be done keeps the books. -/
theorem booked_step (h : Booked c.store) (hwell : c.GoesWell event) :
    Booked (c.step fingerprint event).store := by
  cases event with
  | record event => exact h.record event
  | schedule trigger now => exact h.enqueue trigger now
  | next index =>
    rw [Coordinator.step]
    split
    · exact h
    · rename_i m hm
      exact booked_next h (hwell m hm)
  | start | compressed | commitFails | abort => exact h

theorem booked_empty : Booked {} where
  fresh := List.forall_mem_nil _
  distinct := List.nodup_nil
  spent := List.forall_mem_nil _
  fingerprints := List.nodup_nil
  once := List.Pairwise.nil
  dirty := fun hne => absurd rfl hne

theorem booked_run {events : List CoordinatorEvent}
    (h : Along (Coordinator.step fingerprint) Coordinator.GoesWell events {}) :
    Booked (run (Coordinator.step fingerprint) events {}).store :=
  run_invariant (fun c => Booked c.store) (fun _ _ h hwell => booked_step h hwell) booked_empty h

/-- **Each staged event is summarised once** and none is stranded, in every state of a run in which
the materializations finish with the events that they began with. -/
theorem summarised_run (fingerprint : String → String) (events before : List CoordinatorEvent)
    (h : Along (Coordinator.step fingerprint) Coordinator.GoesWell events {})
    (hbefore : before <+: events) :
    (run (Coordinator.step fingerprint) before {}).IsSummarised := by
  obtain ⟨after, rfl⟩ := hbefore
  have hbooked := booked_run (along_append.1 h).1
  exact ⟨archived_run fingerprint before, hbooked.once, fun _ => hbooked.dirty⟩

/-! ## Events that are recorded while others are summarised -/

def turn (id : String) : LocalContextEvent :=
  { id, eventType := "assistant.text", content := some "done", createdAt := 1 }

/-- From the listing to the answer of the compressor. -/
def listing (index : ℕ) : List CoordinatorEvent :=
  [.next index, .next index, .next index]

/-- The summary is committed. -/
def committing (index : ℕ) (summary : String) : List CoordinatorEvent :=
  [.compressed index (.sdk summary), .next index, .next index]

instance : DecidablePred (IsUpToDate store) := fun phase => by
  unfold IsUpToDate
  split <;> infer_instance

instance : Decidable (c.GoesWell event) := by
  unfold Coordinator.GoesWell
  split <;> infer_instance

/-- One materialization after the other. -/
theorem summarised_run_inTurn :
    (run (Coordinator.step fun text => text) ([.record (turn "a"), .start .idle 1] ++ listing 0 ++
      committing 0 "first" ++ [.record (turn "b"), .start .idle 2] ++ listing 1) {}).IsSummarised :=
  summarised_run _ ([.record (turn "a"), .start .idle 1] ++ listing 0 ++ committing 0 "first" ++
    [.record (turn "b"), .start .idle 2] ++ listing 1 ++ committing 1 "second") _
    (by decide +kernel) (List.prefix_append _ _)

/-- An event comes while the summary is made: it is left without a dirty row. -/
def stranding : List CoordinatorEvent :=
  [.record (turn "a"), .start .idle 1] ++ listing 0 ++ [.record (turn "b")] ++ committing 0 "first"

/-- Two materializations list the event before one commits. -/
def summarisingTwice : List CoordinatorEvent :=
  [.record (turn "a"), .start .idle 1, .start .schedule 2] ++ listing 0 ++ listing 1 ++
    committing 0 "first" ++ committing 1 "second"

instance : Decidable c.IsQuiet := inferInstanceAs (Decidable (∀ m ∈ c.materializations, _))

/-- Neither holds of every run. -/
theorem not_summarised_run :
    (¬∀ (fingerprint : String → String) (events : List CoordinatorEvent),
      (run (Coordinator.step fingerprint) events {}).store.summaries.Pairwise fun a b =>
        a.copies.Disjoint b.copies) ∧
      ¬∀ (fingerprint : String → String) (events : List CoordinatorEvent),
        let c := run (Coordinator.step fingerprint) events {}
        c.IsQuiet → c.store.staged ≠ [] → c.store.dirty.isSome = true := by
  refine ⟨fun h => ?_, fun h => absurd (h (fun text => text) stranding) (by decide +kernel)⟩
  have hcopies : (run (Coordinator.step fun text => text) summarisingTwice
      {}).store.summaries.map (·.copies) = [[0], [0]] := by decide +kernel
  have hdisjoint := List.pairwise_map.2 (h (fun text => text) summarisingTwice)
  rw [hcopies] at hdisjoint
  exact List.rel_of_pairwise_cons hdisjoint (List.mem_singleton_self _)
    (List.mem_singleton_self 0) (List.mem_singleton_self 0)

end Imcodes.Memory
