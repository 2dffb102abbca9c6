import Imcodes.Machine.Runs
import Imcodes.Timeline.Projection

/-!
# The projection mirrors the log

When the projection of a session is ready and its size that of the file, its rows should be the
events of the session in the file.

* `Covers` — the rows are the events of a beginning of the file, and the size is that of this
  beginning.
* `Follows.step` — every event keeps this, unless an event of the session lands while the file is
  read again, or the bytes that a message is taken to account for are those of other lines.
* `mirrors_of_along` — what follows for runs; `not_mirrors` — a line of the same length takes the
  place of one that was projected before.
-/

namespace Imcodes.Timeline

open Machine

variable {α : Type}

/-- The rows are the events of the file, in their order. -/
def Mirrors (projection : Projection α) : Prop :=
  ∀ session ∈ projection.session, session.status = .ready →
    session.sourceFileSizeBytes = projection.currentFileMeta.size →
      projection.rows.map Prod.snd = projection.lines.filterMap (·.ownEvent) ∧
        (projection.rows.map Prod.fst).Pairwise (· < ·)

namespace Projection

/-- What was appended behind the size that a session knows of. -/
def appended (projection : Projection α) (session : SessionMeta) : List (LogLine α) :=
  (Sized.dropSize LogLine.bytes session.sourceFileSizeBytes projection.lines).getD []

/-- No event of the session lands. -/
def NoneOwn (landings : List (Landing α)) : Prop :=
  ∀ landing ∈ landings, landing.line.ownEvent = none

/-- The condition on an event. -/
def InStep (projection : Projection α) : ProjectionEvent α → Prop
  | .recordAppendedEvent _ _ whileRebuilding =>
      (∀ event ∈ projection.messages.head?, ∀ session ∈ projection.session,
        projection.isOneRow session event = true →
          (projection.appended session).filterMap (·.ownEvent) = [event]) ∧
      NoneOwn whileRebuilding
  | .rebuildSession whileRebuilding | .immediate whileRebuilding => NoneOwn whileRebuilding
  | .land _ | .read => True

end Projection

/-! ## Reading -/

variable {lines before middle after : List (LogLine α)} {events : List (LoggedEvent α)}
  {rows : List (ℕ × LoggedEvent α)} {session : SessionMeta} {projection : Projection α}
  {landings : List (Landing α)} {fileMeta : FileMeta} {event : LoggedEvent α} {ordinal : ℕ}

theorem filterMap_of_all_blank (h : lines.all (·.isBlank) = true) :
    lines.filterMap (·.ownEvent) = [] := by
  refine List.filterMap_eq_nil_iff.2 fun line hmem => ?_
  have hblank := List.all_eq_true.1 h line hmem
  cases line with
  | own event => cases hblank
  | foreign bytes pos => rfl
  | corrupt bytes pos => rfl
  | blank bytes pos => rfl
  | empty => rfl

theorem parseLinesAscending_eq (lines : List (LogLine α)) :
    parseLinesAscending lines = lines.filterMap (·.ownEvent) := by
  unfold parseLinesAscending
  split
  · rename_i hblank
    rw [filterMap_of_all_blank hblank]
  · rfl

theorem parseEvents_eq (h : parseEvents lines = some events) :
    lines.filterMap (·.ownEvent) = events := by
  induction lines generalizing events with
  | nil => exact Option.some.inj h
  | cons line lines ih =>
    cases line with
    | own event =>
      obtain ⟨rest, hrest, rfl⟩ := Option.map_eq_some_iff.1 h
      exact congrArg (event :: ·) (ih hrest)
    | foreign bytes pos => exact ih h
    | corrupt bytes pos => cases h
    | blank bytes pos => cases h
    | empty => exact ih h

/-- What is read between the ends of two beginnings. -/
theorem parseAppendedEvents_eq
    (h : parseAppendedEvents (before ++ middle ++ after) (Sized.total LogLine.bytes before)
      (Sized.total LogLine.bytes (before ++ middle)) = some events) :
    middle.filterMap (·.ownEvent) = events := by
  have hbetween := @Sized.between_total _ LogLine.bytes before middle after
    (fun line _ => line.bytes_pos) (fun line _ => line.bytes_pos)
  unfold parseAppendedEvents at h
  split at h
  · rename_i hle
    have hempty : middle = [] := by
      refine Sized.eq_nil_of_total_append (fun line _ => line.bytes_pos)
        (Nat.le_antisymm ?_ hle : Sized.total LogLine.bytes before = _)
      rw [Sized.total_append]
      exact Nat.le_add_right _ _
    rw [hempty, ← Option.some.inj h]
    rfl
  · rw [hbetween] at h
    dsimp only at h
    split at h
    · rename_i hblank
      rw [filterMap_of_all_blank hblank, Option.some.inj h]
    · exact parseEvents_eq h

/-! ## The beginning that is projected -/

/-- The rows are the events of a beginning of the file, numbered from one. -/
structure Covers (lines : List (LogLine α)) (rows : List (ℕ × LoggedEvent α))
    (session : SessionMeta) : Prop where
  beginning : ∃ before after, lines = before ++ after ∧
    session.sourceFileSizeBytes = Sized.total LogLine.bytes before ∧
    rows.map Prod.snd = before.filterMap (·.ownEvent)
  numbered : rows.map Prod.fst = List.range' 1 rows.length
  last : session.lastProjectedAppendOrdinal = rows.length

/-- A session that is ready covers a beginning of its file. -/
def Follows (projection : Projection α) : Prop :=
  ∀ session ∈ projection.session, session.status = .ready →
    Covers projection.lines projection.rows session

theorem Follows.mirrors (h : Follows projection) : Mirrors projection := by
  intro session hsession hready hsize
  obtain ⟨⟨before, after, hlines, hbefore, hrows⟩, hnumbered, -⟩ := h session hsession hready
  have htotal : projection.currentFileMeta.size = Sized.total LogLine.bytes projection.lines := by
    unfold Projection.currentFileMeta Projection.lines
    cases projection.file with
    | none => rfl
    | some file => rfl
  have hafter : after = [] := by
    refine Sized.eq_nil_of_total_append (fun line _ => line.bytes_pos)
      (show Sized.total LogLine.bytes before = Sized.total LogLine.bytes (before ++ after) from ?_)
    rw [← hbefore, hsize, htotal, hlines]
  rw [hrows, hlines, hafter, List.append_nil, hnumbered]
  exact ⟨rfl, List.pairwise_lt_range'⟩

/-- The file grows. -/
theorem Covers.append (h : Covers lines rows session) : Covers (lines ++ after) rows session := by
  obtain ⟨before, rest, rfl, hrest⟩ := h.beginning
  exact { h with beginning := ⟨before, rest ++ after, List.append_assoc _ _ _, hrest⟩ }

/-- Events are inserted behind the ones that are there. -/
theorem numbered_insert (hnumbered : rows.map Prod.fst = List.range' 1 rows.length) :
    (rows ++ (events.zipIdx (rows.length + 1)).map Prod.swap).map Prod.fst =
      List.range' 1 (rows ++ (events.zipIdx (rows.length + 1)).map Prod.swap).length := by
  have hfst : ((events.zipIdx (rows.length + 1)).map Prod.swap).map Prod.fst =
      List.range' (rows.length + 1) events.length := by
    rw [List.map_map]
    exact List.zipIdx_map_snd _ _
  rw [List.map_append, hnumbered, hfst, List.length_append, List.length_map, List.length_zipIdx,
    Nat.add_comm rows.length 1]
  exact List.range'_append_1

theorem snd_insert : (rows ++ (events.zipIdx ordinal).map Prod.swap).map Prod.snd =
    rows.map Prod.snd ++ events := by
  rw [List.map_append, List.map_map]
  congr 1
  exact List.zipIdx_map_fst _ _

/-- Rows and sizes that grow together go on covering the file. -/
theorem Covers.insert (h : Covers lines rows session) {session' : SessionMeta}
    (hlines : lines = before ++ middle ++ after)
    (hrows : rows.map Prod.snd = before.filterMap (·.ownEvent))
    (hmiddle : middle.filterMap (·.ownEvent) = events)
    (hsize : session'.sourceFileSizeBytes = Sized.total LogLine.bytes (before ++ middle))
    (hlast : session'.lastProjectedAppendOrdinal = rows.length + events.length) :
    Covers lines (rows ++ (events.zipIdx (rows.length + 1)).map Prod.swap) session' := by
  refine ⟨⟨before ++ middle, after, hlines, hsize, ?_⟩, numbered_insert h.numbered, ?_⟩
  · rw [snd_insert, hrows, List.filterMap_append, hmiddle]
  · rw [hlast, List.length_append, List.length_map, List.length_zipIdx]

theorem size_currentFileMeta (projection : Projection α) :
    projection.currentFileMeta.size = Sized.total LogLine.bytes projection.lines := by
  unfold Projection.currentFileMeta Projection.lines
  cases projection.file with
  | none => rfl
  | some file => rfl

/-- Only the file and the messages change when lines land. -/
theorem landAll_eq (projection : Projection α) (landings : List (Landing α)) :
    ∃ file messages, projection.landAll landings =
        { projection with file := file, messages := messages } ∧
      (projection.landAll landings).lines = projection.lines ++ landings.map Landing.line := by
  induction landings generalizing projection with
  | nil => exact ⟨projection.file, projection.messages, rfl, (List.append_nil _).symm⟩
  | cons landing landings ih =>
    obtain ⟨file, messages, heq, hlines⟩ := ih (projection.land landing)
    refine ⟨file, messages, heq, ?_⟩
    change ((projection.land landing).landAll landings).lines = _
    rw [hlines]
    change projection.lines ++ [landing.line] ++ _ = _
    rw [List.append_assoc]
    rfl

theorem Follows.land (h : Follows projection) (landing : Landing α) :
    Follows (projection.land landing) :=
  fun session hsession hready => (h session hsession hready).append

theorem Follows.landAll (h : Follows projection) (landings : List (Landing α)) :
    Follows (projection.landAll landings) := by
  induction landings generalizing projection with
  | nil => exact h
  | cons landing landings ih => exact ih (h.land landing)

theorem follows_deleteSessionRows (projection : Projection α) :
    Follows projection.deleteSessionRows := nofun

/-- Everything is read again, and no event of the session lands meanwhile. -/
theorem follows_rebuild (projection : Projection α) (hnone : Projection.NoneOwn landings) :
    Follows (projection.rebuildSessionInternal landings) := by
  unfold Projection.rebuildSessionInternal
  dsimp only
  split
  · obtain ⟨file, messages, heq, hlines⟩ := landAll_eq
      (projection.upsertSessionMeta 0 projection.currentFileMeta .building) landings
    have hlanded : (landings.map Landing.line).filterMap (·.ownEvent) = [] := by
      rw [List.filterMap_map]
      exact List.filterMap_eq_nil_iff.2 hnone
    have hevents : parseLinesAscending ((projection.upsertSessionMeta 0
        projection.currentFileMeta .building).landAll landings).lines =
          projection.lines.filterMap (·.ownEvent) := by
      rw [parseLinesAscending_eq, hlines, List.filterMap_append, hlanded, List.append_nil]
      rfl
    intro session hsession _
    obtain rfl := Option.some.inj hsession
    have hempty : Covers ((projection.upsertSessionMeta 0 projection.currentFileMeta
        .building).landAll landings).lines ([] : List (ℕ × LoggedEvent α)) ⟨0, 0, 0, 0, .ready⟩ :=
      ⟨⟨[], _, rfl, rfl, rfl⟩, rfl, rfl⟩
    rw [hevents]
    have hlines' : ((projection.upsertSessionMeta 0 projection.currentFileMeta
        .building).landAll landings).lines = [] ++ projection.lines ++ landings.map Landing.line :=
      hlines
    exact hempty.insert hlines' rfl rfl (size_currentFileMeta projection) (Nat.zero_add _).symm
  · exact follows_deleteSessionRows projection

/-- What a session covers, and what was appended. -/
theorem Follows.markSessionReady (hcovers : Covers projection.lines projection.rows session)
    (hlines : projection.lines = before ++ middle ++ after)
    (hrows : projection.rows.map Prod.snd = before.filterMap (·.ownEvent))
    (hmiddle : middle.filterMap (·.ownEvent) = [])
    (hsize : fileMeta.size = Sized.total LogLine.bytes (before ++ middle)) :
    Follows (projection.markSessionReady session fileMeta) := by
  intro session' hsession _
  obtain rfl := Option.some.inj hsession
  refine ⟨⟨before ++ middle, after, hlines, hsize, ?_⟩, hcovers.numbered, hcovers.last⟩
  rw [List.filterMap_append, hmiddle, List.append_nil]
  exact hrows

/-- What was appended is read, or everything is. -/
theorem Follows.syncSessionDelta {beforeRebuild whileRebuilding : List (Landing α)}
    (h : Follows projection) (hsession : projection.session = some session)
    (hready : session.status = .ready) (hnone : Projection.NoneOwn whileRebuilding) :
    Follows (projection.syncSessionDelta session beforeRebuild whileRebuilding) := by
  have hcovers := h session hsession hready
  obtain ⟨before, after, hlines, hbefore, hrows⟩ := hcovers.beginning
  have hsize := size_currentFileMeta projection
  have hlines' : projection.lines = before ++ after ++ [] := by rw [hlines, List.append_nil]
  unfold Projection.syncSessionDelta
  dsimp only
  split
  · exact follows_deleteSessionRows projection
  · split
    · rename_i heq
      split
      · have hsame : projection.lines = before ++ [] ++ after := by rw [hlines, List.append_nil]
        refine Follows.markSessionReady hcovers hsame hrows rfl ?_
        rw [heq, hbefore, List.append_nil]
      · exact h
    · split
      · exact follows_rebuild _ hnone
      · have happended : ∀ {events}, parseAppendedEvents projection.lines
            session.sourceFileSizeBytes projection.currentFileMeta.size = some events →
              after.filterMap (·.ownEvent) = events := by
          intro events hparse
          rw [hsize, hbefore, hlines'] at hparse
          refine @parseAppendedEvents_eq _ before after [] events ?_
          rwa [List.append_nil (before ++ after)] at hparse ⊢
        split
        · exact follows_rebuild _ hnone
        · rename_i hparse
          exact Follows.markSessionReady hcovers hlines' hrows (happended hparse)
            (by rw [hsize, hlines])
        · rename_i events _ hparse
          intro session' hsession' _
          obtain rfl := Option.some.inj hsession'
          dsimp only [Projection.upsertSessionMeta, Projection.insertProjectedEvents]
          rw [hcovers.last]
          exact hcovers.insert hlines' hrows (happended hparse) (by rw [hsize, hlines]) rfl

/-- One row is inserted for the line that was appended. -/
theorem Follows.insertOne (h : Follows projection) (hsession : projection.session = some session)
    (hrow : projection.isOneRow session event = true)
    (hown : (projection.appended session).filterMap (·.ownEvent) = [event]) :
    Follows ((projection.insertProjectedEvents session.lastProjectedAppendOrdinal
      [event]).upsertSessionMeta (session.lastProjectedAppendOrdinal + 1)
        projection.currentFileMeta .ready) := by
  unfold Projection.isOneRow at hrow
  simp only [Bool.and_eq_true, decide_eq_true_eq] at hrow
  have hcovers := h session hsession hrow.1.1.1
  obtain ⟨before, after, hlines, hbefore, hrows⟩ := hcovers.beginning
  have happended : projection.appended session = after := by
    unfold Projection.appended
    rw [hbefore, hlines, Sized.dropSize_total fun line _ => line.bytes_pos]
    rfl
  have hlines' : projection.lines = before ++ after ++ [] := by rw [hlines, List.append_nil]
  intro session' hsession' _
  obtain rfl := Option.some.inj hsession'
  dsimp only [Projection.upsertSessionMeta, Projection.insertProjectedEvents]
  rw [hcovers.last]
  exact hcovers.insert hlines' hrows (happended ▸ hown)
    (by rw [size_currentFileMeta, hlines]) rfl

theorem Follows.handleRecordAppendedEvent
    {beforeSync beforeRebuild whileRebuilding : List (Landing α)} (h : Follows projection)
    (hone : ∀ session ∈ projection.session, projection.isOneRow session event = true →
      (projection.appended session).filterMap (·.ownEvent) = [event])
    (hnone : Projection.NoneOwn whileRebuilding) :
    Follows (projection.handleRecordAppendedEvent event beforeSync beforeRebuild
      whileRebuilding) := by
  unfold Projection.handleRecordAppendedEvent
  dsimp only
  split
  · exact h
  · split
    · exact follows_rebuild _ hnone
    · rename_i session hsession
      split
      · rename_i hrow
        exact h.insertOne hsession hrow (hone session hsession hrow)
      · split
        · rename_i hready
          obtain ⟨file, messages, heq, -⟩ := landAll_eq projection beforeSync
          have hsession' : (projection.landAll beforeSync).session = some session := by
            rw [heq]
            exact hsession
          exact (h.landAll beforeSync).syncSessionDelta hsession'
            (of_decide_eq_true (Bool.and_eq_true_iff.1 hready).1) hnone
        · exact follows_rebuild _ hnone

theorem Follows.prepareSqliteRead (h : Follows projection) :
    Follows projection.prepareSqliteRead := by
  unfold Projection.prepareSqliteRead
  dsimp only
  split
  · exact follows_deleteSessionRows projection
  · split
    · exact h
    · rename_i session hsession
      split
      · exact h
      · rename_i hready
        split
        · rename_i hsame
          simp only [Bool.or_eq_true, decide_eq_true_eq, not_or, Decidable.not_not] at hready
          have hcovers := h session hsession hready.1
          obtain ⟨before, after, hlines, hbefore, hrows⟩ := hcovers.beginning
          have hlines' : projection.lines = before ++ [] ++ after := by rw [hlines, List.append_nil]
          refine Follows.markSessionReady hcovers hlines' hrows rfl ?_
          rw [List.append_nil, ← hbefore]
          exact (of_decide_eq_true (Bool.and_eq_true_iff.1 hsame).1).symm
        · split
          · exact h
          · exact h

theorem Follows.step {event : ProjectionEvent α} (h : Follows projection)
    (hstep : projection.InStep event) : Follows (projection.step event) := by
  cases event with
  | land landing => exact h.land landing
  | recordAppendedEvent beforeSync beforeRebuild whileRebuilding =>
    obtain ⟨hone, hnone⟩ := hstep
    dsimp only [Projection.step]
    split
    · exact h
    · rename_i event messages hmessages
      refine Follows.handleRecordAppendedEvent h (fun session hsession hrow => ?_) hnone
      exact hone event (by rw [hmessages]; rfl) session hsession hrow
  | rebuildSession whileRebuilding => exact follows_rebuild _ hstep
  | read => exact h.prepareSqliteRead
  | immediate whileRebuilding =>
    dsimp only [Projection.step]
    split
    · exact h
    · split
      · exact follows_rebuild _ hstep
      · exact h

/-- **The projection mirrors the log** over every run that is in step. -/
theorem mirrors_of_along (file : Option (LogFile α)) (events : List (ProjectionEvent α))
    (hstep : Along Projection.step Projection.InStep events { file := file }) :
    Mirrors (run Projection.step events { file := file }) :=
  (run_invariant Follows (fun _ _ h hok => h.step hok)
    (fun session hsession => absurd hsession (Option.not_mem_none session)) hstep).mirrors

/-! ## A line of the same length -/

section Decidable

variable [DecidableEq α]

instance (landings : List (Landing α)) : Decidable (Projection.NoneOwn landings) := by
  unfold Projection.NoneOwn
  infer_instance

instance (projection : Projection α) : DecidablePred projection.InStep := fun event => by
  unfold Projection.InStep
  cases event with
  | recordAppendedEvent beforeSync beforeRebuild whileRebuilding =>
    exact inferInstanceAs (Decidable (_ ∧ _))
  | rebuildSession whileRebuilding => infer_instance
  | immediate whileRebuilding => infer_instance
  | land landing => infer_instance
  | read => infer_instance

end Decidable

/-- The line of an event lands. -/
def landed (event bytes : ℕ) (pos : 0 < bytes) : ProjectionEvent ℕ :=
  .land ⟨.own ⟨event, bytes, pos⟩, 0⟩

/-- A message is handled, and nothing lands meanwhile. -/
def handled : ProjectionEvent ℕ := .recordAppendedEvent [] [] []

/-- Two lines are read again, and the third is inserted. -/
def inStepRun : List (ProjectionEvent ℕ) :=
  [landed 1 10 (by decide), landed 2 20 (by decide), handled, handled, landed 3 20 (by decide),
    handled, .read]

theorem mirrors_of_along_inStepRun :
    Mirrors (run Projection.step inStepRun { file := none }) :=
  mirrors_of_along none inStepRun (by decide +kernel)

/-- A message accounts for a line that was read before, when another one of the same length has
landed. -/
def outOfStepRun : List (ProjectionEvent ℕ) :=
  [landed 1 10 (by decide), handled, landed 2 20 (by decide), landed 3 5 (by decide), handled,
    landed 4 5 (by decide), handled]

/-- The third event is inserted twice, and the fourth one is not. -/
theorem not_mirrors : ¬∀ (file : Option (LogFile ℕ)) (events : List (ProjectionEvent ℕ)),
    Mirrors (run Projection.step events { file := file }) := by
  intro h
  have hsession : (run Projection.step outOfStepRun { file := none }).session =
      some ⟨4, 40, 0, projectionVersion, .ready⟩ := by decide +kernel
  have hsize : (run Projection.step outOfStepRun { file := none }).currentFileMeta.size = 40 := by
    decide +kernel
  have hrows := (h none outOfStepRun _ hsession rfl hsize.symm).1
  have hevents := congrArg (List.map LoggedEvent.event) hrows
  revert hevents
  decide +kernel

end Imcodes.Timeline
