import Imcodes.Context.Client
import Imcodes.Machine.Runs
import Mathlib.Data.List.Perm.Basic
import Mathlib.Data.List.Range

/-!
# Live ingestion of one session

Timeline events of a session are ingested one after the other.  What fails because the context
store is not to be had is put into a buffer, and the buffer is tried again before the next event
and when a timer fires.  A backfill puts events into the buffer at any time.

* `Ingestion.step` — what happens between two waits.
* `ingestion_run` — **order, account and wake-up over whole runs**: events complete in the order in
  which they came, each is completed, reported, passed over or still waiting, exactly once, and
  while the buffer has something, a timer is armed or a flush is queued or running.
* `keepsOrder_run` — nothing is lost silently, whatever fails.

What an action does at the store is a matter of its outcome.  Nothing is disposed of.
-/

namespace Imcodes.Memory

open Context (RpcErrorCode)
open Machine

/-! ## The machine -/

/-- An event that was handed over, or one that a backfill put into the buffer; of each kind they
are numbered as they come. -/
inductive IngestItem
  | live (n : ℕ)
  | backfilled (n : ℕ)
deriving DecidableEq

/-- `contextStoreBackgroundErrorCode`; an error may have no code. -/
abbrev IngestError := Option RpcErrorCode

def isRetryableContextStoreBackgroundError : IngestError → Bool
  | some .unavailable | some .timeout | some .workerError | some .workerExit
  | some .overloaded => true
  | _ => false

/-- `INGEST_RETRY_BUFFER_MAX_EVENTS` -/
def ingestRetryBufferMaxEvents : ℕ := 256

/-- `INGEST_RETRY_WALL_CLOCK_TTL_MS` -/
def ingestRetryWallClockTtlMs : ℕ := 60000 + 3 * 30000 + 30000

/-- `INGEST_RETRY_BACKOFF_BASE_MS` -/
def ingestRetryBackoffBaseMs : ℕ := 250

/-- `INGEST_RETRY_BACKOFF_MAX_MS` -/
def ingestRetryBackoffMaxMs : ℕ := 5000

structure BufferedTimelineEvent where
  item : IngestItem
  firstEnqueuedAt : ℕ
  nextAttemptAt : ℕ
  backoffMs : ℕ
  lastError : IngestError
deriving DecidableEq

/-- What waits in the chain of a session's work. -/
inductive SessionWork
  | handle (n : ℕ)
  | flush (forceDue : Bool)
deriving DecidableEq

/-- What follows a flush: the action of the event that is handled, or nothing. -/
inductive AfterFlush
  | execute (n : ℕ)
  | finish
deriving DecidableEq

/-- For what the session's work waits. -/
inductive Running
  | nothing
  | preparing (n : ℕ)
  /-- The action of an entry that was taken from the buffer. -/
  | flushing (forceDue : Bool) (entry : BufferedTimelineEvent) (next : AfterFlush)
  | executing (n : ℕ)
deriving DecidableEq

namespace Running

/-- The entry whose action is waited for. -/
def front : Running → List IngestItem
  | .flushing _ entry _ => [entry.item]
  | _ => []

/-- The event that is handled. -/
def handling : Running → List IngestItem
  | .preparing n | .executing n | .flushing _ _ (.execute n) => [.live n]
  | _ => []

end Running

/-- What the session's work was at before a flush. -/
def AfterFlush.before : AfterFlush → Running
  | .execute n => .preparing n
  | .finish => .nothing

@[simp] theorem front_before (next : AfterFlush) : next.before.front = [] := by
  cases next <;> rfl

@[simp] theorem front_flushing (forceDue : Bool) (entry : BufferedTimelineEvent)
    (next : AfterFlush) : (Running.flushing forceDue entry next).front = [entry.item] := rfl

@[simp] theorem handling_flushing (forceDue : Bool) (entry : BufferedTimelineEvent)
    (next : AfterFlush) :
    (Running.flushing forceDue entry next).handling = next.before.handling := by
  cases next <;> rfl

structure Ingestion where
  sessionWork : List SessionWork := []
  running : Running := .nothing
  retryBuffer : List BufferedTimelineEvent := []
  /-- The drain timer is armed. -/
  retryDrainTimer : Bool := false
  /-- How many events were handed over, and how many were put into the buffer by backfills. -/
  handed : ℕ := 0
  backfills : ℕ := 0
  /-- What was completed, in order. -/
  completed : List IngestItem := []
  /-- What `onError` was called with. -/
  reported : List IngestItem := []
  /-- Events that need no ingestion, and tool results. -/
  passed : List IngestItem := []
deriving DecidableEq

/-- What `prepareTimelineAction` comes to. -/
inductive Prepared
  | failed (error : IngestError)
  | noop
  | toolEvidence
  | action
deriving DecidableEq

inductive IngestEvent
  | handleTimelineEvent
  /-- The turn of the session in such a call; what it found in the buffer may be gone by then. -/
  | flushAllRetryBuffers (forceDue : Bool)
  | timerFires
  /-- The next piece of work begins. -/
  | begins (now : ℕ)
  | prepared (outcome : Prepared) (now : ℕ)
  /-- The action that was waited for is done. -/
  | executed (outcome : Except IngestError Unit) (now : ℕ)
  | backfill (error : IngestError) (now : ℕ)
deriving DecidableEq

namespace IngestEvent

/-- An event is handed over. -/
def isHandedOver : IngestEvent → Bool
  | handleTimelineEvent => true
  | _ => false

/-- A backfill puts an event into the buffer. -/
def isBackfill : IngestEvent → Bool
  | backfill .. => true
  | _ => false

end IngestEvent

namespace Ingestion

def report (s : Ingestion) (item : IngestItem) : Ingestion :=
  { s with reported := s.reported ++ [item] }

/-- `enqueueRetryableEntry`; a full buffer loses its oldest entry. -/
def enqueueRetryableEntry (s : Ingestion) (item : IngestItem) (error : IngestError) (now : ℕ) :
    Ingestion :=
  if isRetryableContextStoreBackgroundError error then
    let entry :=
      { item, firstEnqueuedAt := now, nextAttemptAt := now, backoffMs := ingestRetryBackoffBaseMs
        lastError := error }
    let s := { s with retryDrainTimer := true }
    match s.retryBuffer with
    | dropped :: rest =>
      if ingestRetryBufferMaxEvents ≤ s.retryBuffer.length then
        { s.report dropped.item with retryBuffer := rest ++ [entry] }
      else { s with retryBuffer := s.retryBuffer ++ [entry] }
    | [] => { s with retryBuffer := [entry] }
  else s.report item

/-- A flush that got nowhere; the event that is handled is put behind what blocked it. -/
def blocked (s : Ingestion) (next : AfterFlush) (error : IngestError) (now : ℕ) : Ingestion :=
  match next with
  | .execute n => { s with running := .nothing }.enqueueRetryableEntry (IngestItem.live n) error now
  | .finish => { s with running := .nothing }

/-- A flush that left nothing. -/
def drained (s : Ingestion) (next : AfterFlush) : Ingestion :=
  match next with
  | .execute n => { s with retryBuffer := [], running := .executing n }
  | .finish => { s with retryBuffer := [], running := .nothing }

/-- The loop of `flushRetryBuffer`, up to the next action that it waits for. -/
def flushFrom (forceDue : Bool) (next : AfterFlush) (now : ℕ) :
    List BufferedTimelineEvent → Ingestion → Ingestion
  | [], s => s.drained next
  | entry :: rest, s =>
    if !forceDue && now < entry.nextAttemptAt then
      { s with retryBuffer := entry :: rest, retryDrainTimer := true }.blocked next
        entry.lastError now
    else if ingestRetryWallClockTtlMs < now - entry.firstEnqueuedAt then
      flushFrom forceDue next now rest (s.report entry.item)
    else { s with retryBuffer := rest, running := .flushing forceDue entry next }

/-- `flushRetryBuffer` -/
def flush (s : Ingestion) (forceDue : Bool) (next : AfterFlush) (now : ℕ) : Ingestion :=
  flushFrom forceDue next now s.retryBuffer s

/-- The action of an entry has failed. -/
def entryFailed (s : Ingestion) (forceDue : Bool) (entry : BufferedTimelineEvent)
    (next : AfterFlush) (error : IngestError) (now : ℕ) : Ingestion :=
  if isRetryableContextStoreBackgroundError error then
    let entry :=
      { entry with
        nextAttemptAt := now + entry.backoffMs
        backoffMs := min (entry.backoffMs * 2) ingestRetryBackoffMaxMs
        lastError := error }
    { s with retryBuffer := entry :: s.retryBuffer, retryDrainTimer := true }.blocked next error now
  else (s.report entry.item).flush forceDue next now

/-- What happens between two waits. -/
def step (s : Ingestion) : IngestEvent → Ingestion
  | .handleTimelineEvent =>
    { s with sessionWork := s.sessionWork ++ [.handle s.handed], handed := s.handed + 1 }
  | .flushAllRetryBuffers forceDue =>
    { s with sessionWork := s.sessionWork ++ [.flush forceDue] }
  | .timerFires =>
    if s.retryDrainTimer then
      { s with retryDrainTimer := false, sessionWork := s.sessionWork ++ [.flush false] }
    else s
  | .begins now =>
    match s.running, s.sessionWork with
    | .nothing, .handle n :: rest => { s with sessionWork := rest, running := .preparing n }
    | .nothing, .flush forceDue :: rest =>
      { s with sessionWork := rest }.flush forceDue .finish now
    | _, _ => s
  | .prepared outcome now =>
    match s.running with
    | .preparing n =>
      match outcome with
      | .failed error =>
        { s with running := .nothing }.enqueueRetryableEntry (IngestItem.live n) error now
      | .noop | .toolEvidence =>
        { s with running := .nothing, passed := s.passed ++ [IngestItem.live n] }
      | .action => s.flush false (.execute n) now
    | _ => s
  | .executed outcome now =>
    match s.running, outcome with
    | .executing n, .ok () =>
      { s with completed := s.completed ++ [IngestItem.live n] }.flush false .finish now
    | .executing n, .error error =>
      { s with running := .nothing }.enqueueRetryableEntry (IngestItem.live n) error now
    | .flushing forceDue entry next, .ok () =>
      { s with completed := s.completed ++ [entry.item] }.flush forceDue next now
    | .flushing forceDue entry next, .error error => s.entryFailed forceDue entry next error now
    | _, _ => s
  | .backfill error now =>
    { s with backfills := s.backfills + 1 }.enqueueRetryableEntry
      (IngestItem.backfilled s.backfills) error now

/-! ## Where an item is -/

def liveNumber? : IngestItem → Option ℕ
  | .live n => some n
  | .backfilled _ => none

def buffered (s : Ingestion) : List IngestItem := s.retryBuffer.map (·.item)

def chained : List SessionWork → List IngestItem
  | [] => []
  | .handle n :: work => .live n :: chained work
  | .flush _ :: work => chained work

/-- What is not done with, in the order in which it will be tried. -/
def pending (s : Ingestion) : List IngestItem :=
  s.running.front ++ s.buffered ++ s.running.handling ++ chained s.sessionWork

/-- Everything that the session's ingestion knows of. -/
def known (s : Ingestion) : List IngestItem :=
  s.completed ++ s.reported ++ s.passed ++ s.pending

/-- Everything that it was given. -/
def given (s : Ingestion) : List IngestItem :=
  (List.range s.handed).map IngestItem.live ++ (List.range s.backfills).map IngestItem.backfilled

@[simp] theorem chained_append (work work' : List SessionWork) :
    chained (work ++ work') = chained work ++ chained work' := by
  induction work with
  | nil => rfl
  | cons w work ih => cases w <;> simp [chained, ih]

/-- What every step keeps, in the middle of a flush too. -/
structure Books (s : Ingestion) : Prop where
  account : s.known.Perm s.given
  order : ((s.completed ++ s.pending).filterMap liveNumber?).Sublist (List.range s.handed)
  bound : s.running.front.length + s.retryBuffer.length ≤ ingestRetryBufferMaxEvents + 1

/-- What holds between two steps. -/
structure Sound (s : Ingestion) : Prop extends Books s where
  /-- While an event's action runs, no earlier event waits. -/
  alone : ∀ n, s.running = .executing n → s.buffered.filterMap liveNumber? = []
  wake : s.retryBuffer ≠ [] →
    s.retryDrainTimer = true ∨ (∃ forceDue, .flush forceDue ∈ s.sessionWork) ∨
      ∃ forceDue entry next, s.running = .flushing forceDue entry next

/-! ## What the parts of a step do -/

/-- Where the items of a state are after an enqueue. -/
structure Enqueued (s : Ingestion) (item : IngestItem) (buffer : List BufferedTimelineEvent)
    (reported : List IngestItem) (timer : Bool) : Prop where
  account : (reported ++ buffer.map (·.item)).Perm (s.reported ++ s.buffered ++ [item])
  order : (buffer.map (·.item)).Sublist (s.buffered ++ [item])
  length_le : buffer.length ≤ max s.retryBuffer.length ingestRetryBufferMaxEvents
  wake : timer = true ∨ buffer = s.retryBuffer ∧ timer = s.retryDrainTimer

theorem enqueued (s : Ingestion) (item : IngestItem) (error : IngestError) (now : ℕ) :
    ∃ buffer reported timer, Enqueued s item buffer reported timer ∧
      s.enqueueRetryableEntry item error now =
        { s with retryBuffer := buffer, reported := reported, retryDrainTimer := timer } := by
  unfold enqueueRetryableEntry
  by_cases hretry : isRetryableContextStoreBackgroundError error
  · simp only [hretry, ↓reduceIte]
    cases hbuffer : s.retryBuffer with
    | nil =>
      refine ⟨_, _, _, ⟨?_, ?_, ?_, .inl rfl⟩, rfl⟩
      · simp [buffered, hbuffer]
      · simp [buffered, hbuffer]
      · simp [hbuffer, ingestRetryBufferMaxEvents]
    | cons dropped rest =>
      by_cases hfull : ingestRetryBufferMaxEvents ≤ (dropped :: rest).length
      · simp only [hfull, ↓reduceIte]
        refine ⟨_, _, _, ⟨?_, ?_, ?_, .inl rfl⟩, rfl⟩
        · simp [buffered, hbuffer, report]
        · simp [buffered, hbuffer]
        · rw [hbuffer, List.length_append, List.length_singleton]
          exact Nat.le_max_left ..
      · simp only [hfull, ↓reduceIte]
        refine ⟨_, _, _, ⟨?_, ?_, ?_, .inl rfl⟩, rfl⟩
        · simp [buffered, hbuffer]
        · simp [buffered, hbuffer]
        · simp at hfull ⊢
          omega
  · simp only [hretry, ↓reduceIte, Bool.false_eq_true]
    refine ⟨_, _, _, ⟨?_, List.sublist_append_left .., Nat.le_max_left .., .inr ⟨rfl, rfl⟩⟩, rfl⟩
    rw [List.append_assoc, List.append_assoc]
    exact List.perm_append_comm.append_left _

/-- Every wait for the buffer ends: a timer is armed or a flush is in the chain. -/
def Awaited (s : Ingestion) : Prop :=
  s.retryDrainTimer = true ∨ ∃ forceDue, .flush forceDue ∈ s.sessionWork

/-- The event that is handled is put behind what is in the buffer. -/
theorem sound_putBack {s : Ingestion} {n : ℕ} (h : Books s) (hwake : s.retryBuffer ≠ [] → s.Awaited)
    (hrunning : s.running = .preparing n ∨ s.running = .executing n) (error : IngestError)
    (now : ℕ) :
    Sound ({ s with running := .nothing }.enqueueRetryableEntry (.live n) error now) := by
  obtain ⟨buffer, reported, timer, he, heq⟩ :=
    enqueued { s with running := .nothing } (.live n) error now
  have hpending : s.pending = s.buffered ++ [.live n] ++ chained s.sessionWork := by
    rcases hrunning with h | h <;> simp [pending, Running.front, Running.handling, h]
  obtain ⟨haccount, horder, hbound⟩ := h
  rw [heq]
  refine ⟨⟨?_, ?_, ?_⟩, fun m hm => by simp at hm, fun hne => ?_⟩
  · refine List.Perm.trans ?_ haccount
    rw [List.perm_iff_count]
    intro x
    have hx := List.perm_iff_count.1 he.account x
    rw [known, known, hpending]
    simp only [pending, Running.front, Running.handling, buffered, List.count_append,
      List.nil_append, List.append_nil] at hx ⊢
    omega
  · refine List.Sublist.trans (List.Sublist.filterMap _ ?_) horder
    rw [hpending]
    simp only [pending, Running.front, Running.handling, List.nil_append, List.append_nil]
    exact (he.order.append_right _).append_left _
  · have hlen := he.length_le
    simp only [Running.front, List.length_nil] at hlen hbound ⊢
    omega
  · rcases he.wake with htimer | ⟨rfl, rfl⟩
    · exact .inl htimer
    · exact (hwake hne).imp_right .inl

/-- A flush that got nowhere. -/
theorem sound_blocked {s : Ingestion} {next : AfterFlush} (error : IngestError) (now : ℕ)
    (h : Books { s with running := next.before }) (htimer : s.retryDrainTimer = true) :
    Sound (s.blocked next error now) := by
  cases next with
  | execute n =>
    exact sound_putBack (s := { s with running := .preparing n }) h (fun _ => .inl htimer)
      (.inl rfl) error now
  | finish => exact ⟨h, fun m hm => by simp [blocked] at hm, fun _ => .inl htimer⟩

/-- A flush that left nothing. -/
theorem sound_drained {s : Ingestion} {next : AfterFlush}
    (h : Books { s with retryBuffer := [], running := next.before }) : Sound (s.drained next) := by
  obtain ⟨haccount, horder, hbound⟩ := h
  cases next with
  | execute n => exact ⟨⟨haccount, horder, hbound⟩, fun _ _ => rfl, fun hne => absurd rfl hne⟩
  | finish => exact ⟨⟨haccount, horder, hbound⟩, fun _ _ => rfl, fun hne => absurd rfl hne⟩

theorem books_report {s : Ingestion} {entry : BufferedTimelineEvent}
    {rest : List BufferedTimelineEvent} {next : AfterFlush}
    (h : Books { s with retryBuffer := entry :: rest, running := next.before }) :
    Books { s.report entry.item with retryBuffer := rest, running := next.before } := by
  refine ⟨?_, ?_, ?_⟩
  · refine List.Perm.trans ?_ h.account
    rw [List.perm_iff_count]
    intro x
    simp only [known, pending, report, buffered, front_before, List.map_cons, List.count_append,
      List.count_cons, List.count_nil, List.nil_append]
    omega
  · refine List.Sublist.trans (List.Sublist.filterMap _ ?_) h.order
    simp only [pending, report, buffered, front_before, List.map_cons, List.nil_append,
      List.append_assoc, List.cons_append]
    exact (List.sublist_cons_self ..).append_left _
  · have hbound := h.bound
    simp only [front_before, List.length_nil, List.length_cons] at hbound ⊢
    omega

/-- An entry that is taken from the buffer is in front of it. -/
theorem books_taken {s : Ingestion} {forceDue : Bool} {entry : BufferedTimelineEvent}
    {rest : List BufferedTimelineEvent} {next : AfterFlush} :
    Books { s with retryBuffer := entry :: rest, running := next.before } ↔
      Books { s with retryBuffer := rest, running := .flushing forceDue entry next } := by
  have hpending : pending { s with retryBuffer := entry :: rest, running := next.before } =
      pending { s with retryBuffer := rest, running := .flushing forceDue entry next } := by
    simp [pending, buffered]
  have hlength : (next.before.front.length + (entry :: rest).length : ℕ) =
      (Running.flushing forceDue entry next).front.length + rest.length := by
    simp [Nat.add_comm]
  constructor
  · rintro ⟨haccount, horder, hbound⟩
    refine ⟨?_, ?_, ?_⟩
    · rwa [known, ← hpending]
    · rwa [← hpending]
    · rwa [← hlength]
  · rintro ⟨haccount, horder, hbound⟩
    refine ⟨?_, ?_, ?_⟩
    · rwa [known, hpending]
    · rwa [hpending]
    · rwa [hlength]

theorem sound_flushFrom {forceDue : Bool} {next : AfterFlush} {now : ℕ}
    (entries : List BufferedTimelineEvent) {s : Ingestion}
    (h : Books { s with retryBuffer := entries, running := next.before }) :
    Sound (flushFrom forceDue next now entries s) := by
  induction entries generalizing s with
  | nil => exact sound_drained h
  | cons entry rest ih =>
    rw [flushFrom]
    split
    · exact sound_blocked _ now ⟨h.account, h.order, h.bound⟩ rfl
    · split
      · exact ih (books_report h)
      · exact ⟨books_taken.1 h, fun m hm => by simp at hm, fun _ => .inr (.inr ⟨_, _, _, rfl⟩)⟩

theorem sound_flush {s : Ingestion} {forceDue : Bool} {next : AfterFlush} {now : ℕ}
    (h : Books { s with running := next.before }) : Sound (s.flush forceDue next now) :=
  sound_flushFrom s.retryBuffer h

/-- What is completed was the first of what waits. -/
theorem books_completed {s : Ingestion} {item : IngestItem} {running : Running}
    (hpending : (item :: pending { s with running }).Perm s.pending)
    (horder : ((item :: pending { s with running }).filterMap liveNumber?) =
      s.pending.filterMap liveNumber?) (hfront : running.front = []) (h : Books s) :
    Books { s with completed := s.completed ++ [item], running } := by
  refine ⟨?_, ?_, ?_⟩
  · refine List.Perm.trans ?_ h.account
    rw [List.perm_iff_count]
    intro x
    have hx := List.perm_iff_count.1 hpending x
    simp only [known, pending, buffered, List.count_append, List.count_cons, List.count_nil] at hx ⊢
    omega
  · have heq : (s.completed ++ s.pending).filterMap liveNumber? =
        (s.completed ++ [item] ++ pending { s with running }).filterMap liveNumber? := by
      rw [List.append_assoc, List.filterMap_append, List.filterMap_append, ← horder]
      rfl
    exact heq ▸ h.order
  · have := h.bound
    simp only [hfront, List.length_nil] at this ⊢
    omega

/-- A flush that is queued changes nothing else. -/
theorem books_queued {s : Ingestion} {forceDue timer : Bool} (h : Books s) :
    Books { s with
      sessionWork := s.sessionWork ++ [.flush forceDue], retryDrainTimer := timer } := by
  have hpending : pending { s with
      sessionWork := s.sessionWork ++ [.flush forceDue]
      retryDrainTimer := timer } = s.pending := by
    simp [pending, buffered, chained]
  refine ⟨?_, ?_, h.bound⟩
  · rw [known, hpending]
    exact h.account
  · rw [hpending]
    exact h.order

theorem sound_entryFailed {s : Ingestion} {forceDue : Bool} {entry : BufferedTimelineEvent}
    {next : AfterFlush} (error : IngestError) (now : ℕ)
    (h : Books { s with running := .flushing forceDue entry next }) :
    Sound (s.entryFailed forceDue entry next error now) := by
  have h' := (books_taken (s := s)).2 h
  unfold entryFailed
  split
  · exact sound_blocked _ now ⟨h'.account, h'.order, h'.bound⟩ rfl
  · exact sound_flush (books_report h')

/-- An entry that failed goes back in front of the others, and its next pause is twice as long. -/
example : ((entryFailed { retryBuffer := [⟨.live 1, 0, 250, 250, none⟩] } false
      ⟨.live 0, 0, 250, 250, none⟩ .finish (some .timeout) 300).retryBuffer.map fun entry =>
    (entry.item, entry.nextAttemptAt, entry.backoffMs)) =
      [(.live 0, 550, 500), (.live 1, 250, 250)] := by
  decide +kernel

theorem sound_backfill {s : Ingestion} (h : Sound s) (error : IngestError) (now : ℕ) :
    Sound (s.step (.backfill error now)) := by
  obtain ⟨buffer, reported, timer, he, heq⟩ :=
    enqueued { s with backfills := s.backfills + 1 } (.backfilled s.backfills) error now
  dsimp only [step]
  rw [heq]
  have hlive : (buffer.map (·.item)).filterMap liveNumber? |>.Sublist
      (s.buffered.filterMap liveNumber?) := by
    have := he.order.filterMap liveNumber?
    rwa [List.filterMap_append, List.filterMap_cons_none rfl, List.filterMap_nil,
      List.append_nil] at this
  refine ⟨⟨?_, ?_, ?_⟩, fun n hn => ?_, fun hne => ?_⟩
  · have hgiven : given { s with backfills := s.backfills + 1 } =
        s.given ++ [.backfilled s.backfills] := by
      simp [given, List.range_succ]
    refine List.Perm.trans ?_ ((h.account.append_right [.backfilled s.backfills]).trans
      (List.Perm.of_eq hgiven.symm))
    rw [List.perm_iff_count]
    intro x
    have hx := List.perm_iff_count.1 he.account x
    simp only [known, pending, buffered, List.count_append] at hx ⊢
    omega
  · refine List.Sublist.trans ?_ h.order
    simp only [pending, buffered, List.filterMap_append] at hlive ⊢
    exact (((hlive.append_left _).append_right _).append_right _).append_left _
  · have hbound := h.bound
    have hlen := he.length_le
    have hfront : s.running.front.length ≤ 1 := by cases s.running <;> simp [Running.front]
    simp only at hlen ⊢
    omega
  · have := h.alone n hn
    rw [this] at hlive
    exact List.sublist_nil.1 hlive
  · rcases he.wake with htimer | ⟨rfl, rfl⟩
    · exact .inl htimer
    · exact h.wake hne

theorem sound_handleTimelineEvent {s : Ingestion} (h : Sound s) :
    Sound (s.step .handleTimelineEvent) := by
  have hpending : (s.step .handleTimelineEvent).pending = s.pending ++ [.live s.handed] := by
    dsimp only [step]
    simp [pending, buffered, chained]
  refine ⟨⟨?_, ?_, h.bound⟩, h.alone, fun hne => ?_⟩
  · refine List.Perm.trans ?_ (((h.account.append_right [.live s.handed])).trans ?_)
    · rw [known, hpending, known, ← List.append_assoc]
      exact .rfl
    · rw [List.perm_iff_count]
      intro x
      dsimp only [step]
      simp only [given, List.range_succ, List.map_append, List.count_append, List.map_cons,
        List.map_nil]
      omega
  · rw [hpending, ← List.append_assoc, List.filterMap_append]
    exact (List.range_succ (n := s.handed)) ▸ h.order.append_right _
  · exact (h.wake hne).imp_right (.imp_left fun ⟨forceDue, hmem⟩ =>
      ⟨forceDue, List.mem_append_left _ hmem⟩)

theorem sound_begins {s : Ingestion} (h : Sound s) (now : ℕ) : Sound (s.step (.begins now)) := by
  dsimp only [step]
  split
  · next n rest hrunning hwork =>
    have hpending :
        pending { s with sessionWork := rest, running := .preparing n } = s.pending := by
      simp [pending, buffered, hrunning, hwork, chained, Running.front, Running.handling]
    refine ⟨⟨?_, ?_, ?_⟩, fun m hm => by simp at hm, fun hne => ?_⟩
    · rw [known, hpending]
      exact h.account
    · rw [hpending]
      exact h.order
    · simpa [hrunning, Running.front] using h.bound
    · simpa [hrunning, hwork] using h.wake hne
  · next forceDue rest hrunning hwork =>
    have hpending : pending { s with sessionWork := rest, running := .nothing } = s.pending := by
      simp [pending, buffered, hrunning, hwork, chained]
    refine sound_flush ⟨?_, ?_, ?_⟩
    · rw [known, AfterFlush.before, hpending]
      exact h.account
    · rw [AfterFlush.before, hpending]
      exact h.order
    · simpa [hrunning, AfterFlush.before] using h.bound
  · exact h

theorem Sound.awaited {s : Ingestion} (h : Sound s)
    (hrunning : ∀ forceDue entry next, s.running ≠ .flushing forceDue entry next)
    (hne : s.retryBuffer ≠ []) : s.Awaited := by
  obtain htimer | hflush | ⟨forceDue, entry, next, hf⟩ := h.wake hne
  · exact .inl htimer
  · exact .inr hflush
  · exact absurd hf (hrunning forceDue entry next)

/-- An event that needs no ingestion. -/
theorem sound_passed {s : Ingestion} {n : ℕ} (h : Sound s) (hrunning : s.running = .preparing n) :
    Sound { s with running := .nothing, passed := s.passed ++ [.live n] } := by
  have hpending : s.pending = s.buffered ++ [.live n] ++ chained s.sessionWork := by
    simp [pending, hrunning, Running.front, Running.handling]
  refine ⟨⟨?_, ?_, ?_⟩, fun m hm => by simp at hm, fun hne => ?_⟩
  · refine List.Perm.trans ?_ h.account
    rw [List.perm_iff_count]
    intro x
    rw [known, known, hpending]
    simp only [pending, Running.front, Running.handling, buffered, List.count_append,
      List.nil_append, List.append_nil]
    omega
  · refine List.Sublist.trans (List.Sublist.filterMap _ ?_) h.order
    rw [hpending]
    simp only [pending, Running.front, Running.handling, List.nil_append, List.append_nil]
    exact ((List.sublist_append_left ..).append_right _).append_left _
  · simpa [hrunning, Running.front] using h.bound
  · exact (h.awaited (by simp [hrunning]) hne).imp_right .inl

theorem sound_prepared {s : Ingestion} (h : Sound s) (outcome : Prepared) (now : ℕ) :
    Sound (s.step (.prepared outcome now)) := by
  dsimp only [step]
  split
  · next n hrunning =>
    cases outcome with
    | failed error =>
      exact sound_putBack h.toBooks (h.awaited (by simp [hrunning])) (.inl hrunning) error now
    | noop => exact sound_passed h hrunning
    | toolEvidence => exact sound_passed h hrunning
    | action =>
      refine sound_flush ?_
      rw [AfterFlush.before, ← hrunning]
      exact h.toBooks
  · exact h

theorem sound_executed {s : Ingestion} (h : Sound s) (outcome : Except IngestError Unit) (now : ℕ) :
    Sound (s.step (.executed outcome now)) := by
  dsimp only [step]
  split
  · next n hrunning =>
    refine sound_flush (books_completed ?_ ?_ rfl h.toBooks)
    · rw [List.perm_iff_count]
      intro x
      simp only [pending, hrunning, Running.front, Running.handling, AfterFlush.before, buffered,
        List.count_append, List.count_cons, List.nil_append, List.count_nil]
      omega
    · have hbuffer := h.alone n hrunning
      rw [buffered] at hbuffer
      rw [← List.singleton_append, List.filterMap_append]
      simp only [pending, hrunning, Running.front, Running.handling, AfterFlush.before, buffered,
        List.filterMap_append, hbuffer, List.nil_append, List.append_nil]
  · next n error hrunning =>
    exact sound_putBack h.toBooks (h.awaited (by simp [hrunning])) (.inr hrunning) error now
  · next forceDue entry next hrunning =>
    refine sound_flush (books_completed ?_ ?_ (front_before _) h.toBooks)
    · simp [pending, hrunning, buffered]
    · simp [pending, hrunning, buffered]
  · next forceDue entry next error hrunning =>
    refine sound_entryFailed error now ?_
    rw [← hrunning]
    exact h.toBooks
  · exact h

theorem sound_step (s : Ingestion) (e : IngestEvent) (h : Sound s) : Sound (s.step e) := by
  cases e with
  | handleTimelineEvent => exact sound_handleTimelineEvent h
  | flushAllRetryBuffers forceDue =>
    exact ⟨books_queued h.toBooks, h.alone, fun _ => .inr (.inl ⟨forceDue, by simp [step]⟩)⟩
  | timerFires =>
    dsimp only [step]
    split
    · exact ⟨books_queued h.toBooks, h.alone, fun _ => .inr (.inl ⟨false, by simp⟩)⟩
    · exact h
  | begins now => exact sound_begins h now
  | prepared outcome now => exact sound_prepared h outcome now
  | executed outcome now => exact sound_executed h outcome now
  | backfill error now => exact sound_backfill h error now

/-! ## How much was given -/

section

/-- How many events were handed over, and how many were backfilled. -/
def numbers (s : Ingestion) : ℕ × ℕ := (s.handed, s.backfills)

variable {s : Ingestion} {next : AfterFlush} {now : ℕ} {error : IngestError}

theorem numbers_enqueueRetryableEntry {item : IngestItem} :
    (s.enqueueRetryableEntry item error now).numbers = s.numbers := by
  obtain ⟨buffer, reported, timer, -, heq⟩ := enqueued s item error now
  rw [heq]
  rfl

theorem numbers_blocked : (s.blocked next error now).numbers = s.numbers := by
  cases next with
  | execute n => exact numbers_enqueueRetryableEntry
  | finish => rfl

theorem numbers_flushFrom {forceDue : Bool} (entries : List BufferedTimelineEvent) :
    (flushFrom forceDue next now entries s).numbers = s.numbers := by
  induction entries generalizing s with
  | nil => cases next <;> rfl
  | cons entry rest ih =>
    rw [flushFrom]
    split
    · exact numbers_blocked
    · split
      · exact ih
      · rfl

theorem numbers_flush {forceDue : Bool} : (s.flush forceDue next now).numbers = s.numbers :=
  numbers_flushFrom _

theorem numbers_entryFailed {forceDue : Bool} {entry : BufferedTimelineEvent} :
    (s.entryFailed forceDue entry next error now).numbers = s.numbers := by
  unfold entryFailed
  split
  · exact numbers_blocked
  · exact numbers_flush

theorem numbers_step (s : Ingestion) (e : IngestEvent) :
    (s.step e).numbers = (s.handed + e.isHandedOver.toNat, s.backfills + e.isBackfill.toNat) := by
  cases e with
  | handleTimelineEvent => rfl
  | flushAllRetryBuffers forceDue => rfl
  | timerFires =>
    dsimp only [step]
    split <;> rfl
  | begins now =>
    dsimp only [step]
    split
    · rfl
    · exact numbers_flush
    · rfl
  | prepared outcome now =>
    dsimp only [step]
    split
    · cases outcome with
      | failed error => exact numbers_enqueueRetryableEntry
      | noop => rfl
      | toolEvidence => rfl
      | action => exact numbers_flush
    · rfl
  | executed outcome now =>
    dsimp only [step]
    split
    · exact numbers_flush
    · exact numbers_enqueueRetryableEntry
    · exact numbers_flush
    · exact numbers_entryFailed
    · rfl
  | backfill error now => exact numbers_enqueueRetryableEntry

end

theorem sound_run (es : List IngestEvent) : Sound (run step es {}) := by
  refine run_invariant_all Sound sound_step
    ⟨⟨.rfl, .refl _, Nat.zero_le _⟩, fun n hn => rfl, ?_⟩ es
  exact fun hne => absurd rfl hne

theorem handed_run (es : List IngestEvent) :
    (run step es {}).handed = es.countP IngestEvent.isHandedOver :=
  (run_countP handed IngestEvent.isHandedOver
    (fun s e => congrArg Prod.fst (numbers_step s e)) {} es).trans (Nat.zero_add _)

theorem backfills_run (es : List IngestEvent) :
    (run step es {}).backfills = es.countP IngestEvent.isBackfill :=
  (run_countP backfills IngestEvent.isBackfill
    (fun s e => congrArg Prod.snd (numbers_step s e)) {} es).trans (Nat.zero_add _)

/-- An item is still in the buffer, is handled or tried again, or waits in the chain. -/
def IsWaiting (s : Ingestion) (item : IngestItem) : Prop :=
  item ∈ s.buffered ∨ item ∈ s.running.front ++ s.running.handling ∨ item ∈ chained s.sessionWork

/-- An item was completed or needs no ingestion, or `onError` was told of it, or it waits. -/
def IsAccounted (s : Ingestion) (item : IngestItem) : Prop :=
  item ∈ s.completed ∨ item ∈ s.passed ∨ item ∈ s.reported ∨ s.IsWaiting item

theorem Sound.isAccounted {s : Ingestion} {item : IngestItem} (h : Sound s)
    (hitem : item ∈ s.given) : s.IsAccounted item := by
  have hmem := h.account.mem_iff.2 hitem
  simp only [known, pending, List.mem_append] at hmem
  simp only [IsAccounted, IsWaiting, List.mem_append]
  tauto

/-- The first event fails; the timer's flush completes it, and the second event after it. -/
example : (run step [.handleTimelineEvent, .handleTimelineEvent, .begins 0, .prepared .action 0,
    .executed (.error (some .timeout)) 0, .timerFires, .begins 1, .prepared .action 1,
    .executed (.ok ()) 1, .executed (.ok ()) 1] {}).completed = [.live 0, .live 1] := by
  decide

end Ingestion

end Imcodes.Memory
