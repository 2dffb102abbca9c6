import Mathlib.Data.List.Induction
import Imcodes.Timeline.Subagents

/-!
# Sub-agents that have finished

* `core_aggregate` — the row of a key is its last one, unless that would set a finished row running.
* `neverRuns_iff` — a key that has finished is not shown running, except where something that
  neither runs nor has finished was heard of it since, and then something that runs.
-/

namespace Imcodes.Timeline.Subagents

/-! ## The rows of a key -/

/-- The row that an event makes. -/
def rowOf (p : TimelineEvent × ℕ) : Option RowState :=
  match p.1.detail with
  | .ok detail => some (makeRow p.1 detail p.2)
  | _ => none

/-- The rows that the events make of a key. -/
def rowsOf (events : List TimelineEvent) (key : String) : List RowState :=
  (events.zipIdx.filterMap rowOf).filter (·.canonicalKey = key)

/-- The last row that is not active. -/
def lastIdle (rows : List RowState) : Option RowState := rows.reverse.find? (!·.isActive)

/-- The row that counts: one that has finished, if there are only active ones after it, or the last
one. -/
def standing (rows : List RowState) : Option RowState :=
  match lastIdle rows with
  | some idle => if idle.isTerminalish then some idle else rows.getLast?
  | none => rows.getLast?

/-- A row but for what it takes over from the ones before it. -/
def RowState.core (row : RowState) : RowState := { row with firstOrder := 0, startTs := 0 }

/-! ## The condition -/

/-- A detail of the key has finished it. -/
def HasFinished (events : List TimelineEvent) (key : String) : Prop :=
  ∃ event ∈ events, ∃ detail, event.detail = .ok detail ∧ detail.meta'.canonicalKey = key ∧
    detail.meta'.isTerminalish = true

/-- The session of the row, or the wrapper, has finished later. -/
def FinishesAfter (events : List TimelineEvent) (row : RowState) : Prop :=
  ∃ p ∈ events.zipIdx, p.2 > row.lastOrder ∧
    (if isCodexCollabWrapperRow row then getCodexCollabWrapperFinishState p.1 p.2
      else getSessionFinishState p.1 p.2).isSome = true

/-- The rows that count, of every key. -/
def standingRows (events : List TimelineEvent) : List RowState :=
  ((events.zipIdx.filterMap rowOf).map (·.canonicalKey)).filterMap fun key =>
    standing (rowsOf events key)

/-- The last thing heard of the key is that it runs, not long ago; and before that, that it neither
runs nor has finished. -/
def RunsAgain (events : List TimelineEvent) (now activeStaleMs : ℚ) (key : String) : Prop :=
  (∃ idle ∈ lastIdle (rowsOf events key), idle.isTerminalish = false) ∧
    ∃ last ∈ (rowsOf events key).getLast?, last.isActive = true ∧
      isOverdue activeStaleMs now last = false ∧
        (last.backgrounded = true ∨ ¬FinishesAfter events last) ∧
          isFallback (structuredToolUseIds (standingRows events)) last = false

/-- No row of the key is active, and everything that is counted is of other keys. -/
def NeverRuns (result : SdkSubagentAggregationResult) (key : String) : Prop :=
  (∀ row ∈ result.rows, row.canonicalKey = key → row.active = false) ∧
    result.runningCount =
      ((result.rows.filter (·.canonicalKey ≠ key)).map getRunningContribution).sum

variable {events : List TimelineEvent} {rows : List RowState} {row next : RowState} {key : String}
  {s : Aggregation} {activeStaleMs now : ℚ}

/-! ## The last row counts -/

@[simp] theorem canonicalKey_core : row.core.canonicalKey = row.canonicalKey := rfl

@[simp] theorem isActive_core : row.core.isActive = row.isActive := rfl

/-- A finished row stays, where the next one is active. -/
theorem core_replaceRow {previous : Option RowState} :
    (replaceRow previous next).core =
      if ∃ row ∈ previous, row.isTerminalish = true ∧ next.isActive = true then
        ((previous.getD next).core) else next.core := by
  cases previous with
  | none => simp [replaceRow]
  | some row =>
    by_cases hkeep : row.isTerminalish = true ∧ next.isActive = true
    · have hactive := hkeep.2
      rw [RowState.isActive, Bool.and_eq_true] at hactive
      simp [replaceRow, hkeep, hactive]
    · have hnot : (row.isTerminalish && next.active && !next.isTerminalish) = false := by
        rw [Bool.and_assoc]
        exact Bool.eq_false_iff.2 fun h => hkeep (Bool.and_eq_true_iff.1 h)
      simp only [replaceRow, hnot, Bool.false_eq_true, if_false, Option.mem_def,
        Option.some.injEq, exists_eq_left', hkeep]
      rfl

/-- The rows of a key, one after the other. -/
def replaceAll (rows : List RowState) : Option RowState :=
  rows.foldl (fun previous next => some (replaceRow previous next)) none

theorem replaceAll_concat : replaceAll (rows ++ [next]) =
    some (replaceRow (replaceAll rows) next) :=
  List.foldl_append

theorem lastIdle_concat :
    lastIdle (rows ++ [next]) = if next.isActive then lastIdle rows else some next := by
  rw [lastIdle, List.reverse_append, List.reverse_singleton, List.singleton_append, List.find?_cons]
  cases next.isActive <;> rfl

/-- An active row has not finished. -/
theorem isTerminalish_of_isActive (h : row.isActive = true) : row.isTerminalish = false := by
  rw [RowState.isActive, Bool.and_eq_true, Bool.not_eq_true'] at h
  exact h.2

/-- What is read of a row but not of what it takes over is read of its core. -/
theorem congr_core {α : Type} (f : RowState → α) (hf : ∀ row, f row.core = f row)
    {other : RowState} (h : row.core = other.core) : f row = f other := by
  rw [← hf row, h, hf]

@[simp] theorem isTerminalish_core : row.core.isTerminalish = row.isTerminalish := rfl

theorem standing_of_terminalish {idle : RowState} (h : lastIdle rows = some idle)
    (hterminal : idle.isTerminalish = true) : standing rows = some idle := by
  rw [standing, h]
  exact if_pos hterminal

theorem standing_eq_getLast? (h : ∀ idle ∈ lastIdle rows, idle.isTerminalish = false) :
    standing rows = rows.getLast? := by
  rw [standing]
  split
  · rename_i idle hidle
    rw [if_neg (Bool.eq_false_iff.1 (h idle hidle))]
  · rfl

/-- Where the last idle row has not finished, the last row has not. -/
theorem isTerminalish_getLast? (h : ∀ idle ∈ lastIdle rows, idle.isTerminalish = false)
    {last : RowState} (hlast : rows.getLast? = some last) : last.isTerminalish = false := by
  cases hactive : last.isActive with
  | true => exact isTerminalish_of_isActive hactive
  | false =>
    obtain ⟨before, rfl⟩ := List.getLast?_eq_some_iff.1 hlast
    refine h last ?_
    rw [lastIdle_concat, hactive]
    rfl

/-- **The row of a key**, as far as it is not taken over from earlier ones. -/
theorem core_replaceAll (rows : List RowState) :
    (replaceAll rows).map RowState.core = (standing rows).map RowState.core := by
  induction rows using List.reverseRecOn with
  | nil => rfl
  | append_singleton rows next ih =>
    rw [replaceAll_concat, Option.map_some, core_replaceRow]
    by_cases hidle : ∃ idle ∈ lastIdle (rows ++ [next]), idle.isTerminalish = true
    · obtain ⟨idle, hidle, hterminal⟩ := hidle
      rw [standing_of_terminalish hidle hterminal, Option.map_some]
      rw [lastIdle_concat] at hidle
      cases hactive : next.isActive with
      | false =>
        rw [hactive] at hidle
        obtain rfl := Option.some.inj hidle
        rw [if_neg]
        rintro ⟨_, -, -, h⟩
        exact Bool.false_ne_true h
      | true =>
        rw [hactive, if_pos rfl] at hidle
        rw [standing_of_terminalish hidle hterminal, Option.map_some] at ih
        obtain ⟨previous, hprevious, hcore⟩ := Option.map_eq_some_iff.1 ih
        have hsame : previous.isTerminalish = true := by
          rw [← isTerminalish_core, hcore, isTerminalish_core, hterminal]
        rw [if_pos ⟨previous, hprevious, hsame, rfl⟩, hprevious, Option.getD_some, hcore]
    · push Not at hidle
      have hidle' : ∀ idle ∈ lastIdle (rows ++ [next]), idle.isTerminalish = false :=
        fun idle h => Bool.eq_false_iff.2 (hidle idle h)
      rw [standing_eq_getLast? hidle', List.getLast?_concat, Option.map_some, if_neg]
      rintro ⟨previous, hprevious, hterminal, hactive⟩
      rw [lastIdle_concat, hactive, if_pos rfl] at hidle'
      rw [standing_eq_getLast? hidle', show replaceAll rows = some previous from hprevious] at ih
      obtain ⟨last, hlast, hcore⟩ := Option.map_eq_some_iff.1 ih.symm
      have hnot := isTerminalish_getLast? hidle' hlast
      rw [← isTerminalish_core, hcore, isTerminalish_core, hterminal] at hnot
      cases hnot

/-! ## Reading the timeline -/

theorem rowsByCanonicalKey_read (p : TimelineEvent × ℕ) :
    (s.read p.1 p.2).rowsByCanonicalKey =
      (rowOf p).elim s.rowsByCanonicalKey fun next =>
        s.rowsByCanonicalKey.set next.canonicalKey
          (replaceRow (s.rowsByCanonicalKey.get? next.canonicalKey) next) := by
  unfold Aggregation.read rowOf
  cases p.1.detail with
  | notSdk | malformedSdk => rfl
  | ok detail =>
    dsimp only
    split <;> rfl

theorem get?_foldl_read (l : List (TimelineEvent × ℕ)) :
    (l.foldl (fun s p => s.read p.1 p.2) s).rowsByCanonicalKey.get? key =
      ((l.filterMap rowOf).filter (·.canonicalKey = key)).foldl
        (fun previous next => some (replaceRow previous next))
        (s.rowsByCanonicalKey.get? key) := by
  induction l generalizing s with
  | nil => rfl
  | cons p l ih =>
    rw [List.foldl_cons, ih, rowsByCanonicalKey_read, List.filterMap_cons]
    cases hrow : rowOf p with
    | none => rfl
    | some next =>
      dsimp only [Option.elim_some]
      rw [OrderedMap.get?_set]
      by_cases hkey : key = next.canonicalKey
      · subst hkey
        rw [if_pos rfl, List.filter_cons_of_pos (by simp), List.foldl_cons]
      · rw [if_neg hkey, List.filter_cons_of_neg (by simpa using Ne.symm hkey)]

/-- **What the timeline makes of a key.** -/
theorem core_aggregate (events : List TimelineEvent) (key : String) :
    ((aggregate events).rowsByCanonicalKey.get? key).map RowState.core =
      (standing (rowsOf events key)).map RowState.core := by
  rw [aggregate, get?_foldl_read]
  exact core_replaceAll _

theorem finishes_foldl_read (l : List (TimelineEvent × ℕ)) :
    (l.foldl (fun s p => s.read p.1 p.2) s).sessionFinishes =
        s.sessionFinishes ++ l.filterMap (fun p => getSessionFinishState p.1 p.2) ∧
      (l.foldl (fun s p => s.read p.1 p.2) s).codexCollabWrapperFinishes =
        s.codexCollabWrapperFinishes ++
          l.filterMap fun p => getCodexCollabWrapperFinishState p.1 p.2 := by
  induction l generalizing s with
  | nil => simp
  | cons p l ih =>
    have hread : (s.read p.1 p.2).sessionFinishes =
          s.sessionFinishes ++ (getSessionFinishState p.1 p.2).toList ∧
        (s.read p.1 p.2).codexCollabWrapperFinishes = s.codexCollabWrapperFinishes ++
          (getCodexCollabWrapperFinishState p.1 p.2).toList := by
      unfold Aggregation.read
      cases p.1.detail with
      | notSdk | malformedSdk => exact ⟨rfl, rfl⟩
      | ok detail =>
        dsimp only
        split <;> exact ⟨rfl, rfl⟩
    rw [List.foldl_cons, ih.1, ih.2, hread.1, hread.2, List.append_assoc, List.append_assoc,
      List.filterMap_cons, List.filterMap_cons]
    constructor
    · cases getSessionFinishState p.1 p.2 <;> rfl
    · cases getCodexCollabWrapperFinishState p.1 p.2 <;> rfl

theorem order_of_finish {event : TimelineEvent} {order : ℕ} {finish : SessionFinishState} :
    (finish ∈ getSessionFinishState event order → finish.order = order) ∧
      (finish ∈ getCodexCollabWrapperFinishState event order → finish.order = order) := by
  have hsession (h : finish ∈ getSessionFinishState event order) : finish.order = order := by
    unfold getSessionFinishState at h
    split at h
    · exact congrArg SessionFinishState.order (Option.some.inj h).symm
    · cases h
  refine ⟨hsession, fun h => ?_⟩
  unfold getCodexCollabWrapperFinishState at h
  split at h
  · exact congrArg SessionFinishState.order (Option.some.inj h).symm
  · exact hsession h

/-- A finish is found among those of a kind exactly if there is an event of that kind later. -/
theorem isSome_findFinishAfter {finishOf : TimelineEvent → ℕ → Option SessionFinishState}
    (horder : ∀ event order, ∀ finish ∈ finishOf event order, finish.order = order) :
    (findFinishAfter row (events.zipIdx.filterMap fun p => finishOf p.1 p.2)).isSome = true ↔
      ∃ p ∈ events.zipIdx, p.2 > row.lastOrder ∧ (finishOf p.1 p.2).isSome = true := by
  rw [findFinishAfter, List.find?_isSome]
  constructor
  · rintro ⟨finish, hfinish, hlater⟩
    obtain ⟨p, hp, hfinish⟩ := List.mem_filterMap.1 hfinish
    rw [horder _ _ finish hfinish, decide_eq_true_iff] at hlater
    exact ⟨p, hp, hlater, Option.isSome_of_mem hfinish⟩
  · rintro ⟨p, hp, hlater, hsome⟩
    obtain ⟨finish, hfinish⟩ := Option.isSome_iff_exists.1 hsome
    refine ⟨finish, List.mem_filterMap.2 ⟨p, hp, hfinish⟩, ?_⟩
    rw [horder _ _ finish hfinish]
    exact decide_eq_true hlater

theorem isSome_finishOf :
    ((aggregate events).finishOf row).isSome = true ↔ FinishesAfter events row := by
  obtain ⟨hsession, hwrapper⟩ := finishes_foldl_read (s := {}) events.zipIdx
  have hsession : (aggregate events).sessionFinishes = _ := hsession.trans (List.nil_append _)
  have hwrapper : (aggregate events).codexCollabWrapperFinishes = _ :=
    hwrapper.trans (List.nil_append _)
  rw [Aggregation.finishOf, FinishesAfter, hsession, hwrapper]
  cases isCodexCollabWrapperRow row with
  | true => exact isSome_findFinishAfter fun _ _ _ hfinish => order_of_finish.2 hfinish
  | false => exact isSome_findFinishAfter fun _ _ _ hfinish => order_of_finish.1 hfinish

/-! ## Rows that expire -/

/-- What a row keeps when it expires. -/
theorem expire_keeps (s : Aggregation) (activeStaleMs now : ℚ) (row : RowState) :
    (s.expire activeStaleMs now row).canonicalKey = row.canonicalKey ∧
      (s.expire activeStaleMs now row).providerKind = row.providerKind ∧
        (s.expire activeStaleMs now row).parentToolUseId = row.parentToolUseId ∧
          (s.expire activeStaleMs now row).parentItemId = row.parentItemId := by
  unfold Aggregation.expire
  split
  · exact ⟨rfl, rfl, rfl, rfl⟩
  · split
    · exact ⟨rfl, rfl, rfl, rfl⟩
    · split
      · exact ⟨rfl, rfl, rfl, rfl⟩
      · split <;> exact ⟨rfl, rfl, rfl, rfl⟩

/-- A row stays active that was heard of lately and whose session goes on. -/
theorem isActive_expire :
    (s.expire activeStaleMs now row).isActive = true ↔
      row.isActive = true ∧ isOverdue activeStaleMs now row = false ∧
        (row.backgrounded = true ∨ (s.finishOf row).isSome = false) := by
  have hactive : (!row.active || row.isTerminalish) = !row.isActive := by
    rw [RowState.isActive, Bool.not_and, Bool.not_not]
  rw [Aggregation.expire, hactive]
  cases hrow : row.isActive with
  | false => simp [hrow]
  | true =>
    cases hoverdue : isOverdue activeStaleMs now row with
    | true => simp [staleRow, RowState.isActive]
    | false =>
      cases hbackgrounded : row.backgrounded with
      | true => simp [hrow]
      | false =>
        cases hfinish : s.finishOf row with
        | none => simp [hrow]
        | some finish => simp [staleRowAfterFinish, RowState.isActive]

/-- An active row that expires is not active and terminal at once. -/
theorem expire_sound (h : row.active = true → row.isTerminalish = false) :
    (s.expire activeStaleMs now row).active = true →
      (s.expire activeStaleMs now row).isTerminalish = false := by
  unfold Aggregation.expire
  split
  · exact h
  · split
    · exact nofun
    · split
      · exact h
      · split
        · exact h
        · exact nofun

/-! ## Rows that are shown -/

theorem mem_rowsOf : row ∈ rowsOf events key ↔
    (∃ p ∈ events.zipIdx, ∃ detail, p.1.detail = .ok detail ∧ row = makeRow p.1 detail p.2) ∧
      row.canonicalKey = key := by
  rw [rowsOf, List.mem_filter, List.mem_filterMap, decide_eq_true_iff]
  refine and_congr_left fun _ => exists_congr fun p => and_congr_right fun _ => ?_
  unfold rowOf
  cases p.1.detail with
  | notSdk | malformedSdk => simp
  | ok detail => simp [eq_comm]

theorem mem_of_standing (h : standing rows = some row) : row ∈ rows := by
  unfold standing at h
  split at h
  · rename_i idle hidle
    split at h
    · obtain rfl := Option.some.inj h
      exact List.mem_reverse.1 (List.mem_of_find?_eq_some hidle)
    · exact List.mem_of_getLast? h
  · exact List.mem_of_getLast? h

/-- An active row that was made has not finished. -/
theorem sound_of_mem_rowsOf (h : row ∈ rowsOf events key) :
    row.active = true → row.isTerminalish = false := by
  obtain ⟨⟨p, -, detail, -, rfl⟩, -⟩ := mem_rowsOf.1 h
  intro hactive
  simp only [makeRow, Bool.and_eq_true, Bool.not_eq_true'] at hactive
  have hmeta := hactive.1.2
  have hparts := hmeta
  rw [SdkSubagentDetailMeta.isTerminalish, isTerminalish, Bool.or_eq_false_iff] at hparts
  rw [SdkSubagentStatusRow.isTerminalish, isTerminalish, Bool.or_eq_false_iff]
  exact ⟨hmeta, hparts.2⟩

/-- The rows of all keys, those that expired among them. -/
def expired (events : List TimelineEvent) (activeStaleMs now : ℚ) : List RowState :=
  ((aggregate events).rowsByCanonicalKey.mapValues
    ((aggregate events).expire activeStaleMs now)).values

/-- Each of them comes from the row that counts of its key. -/
theorem mem_expired : row ∈ expired events activeStaleMs now ↔
    ∃ key kept counting, standing (rowsOf events key) = some counting ∧
      (aggregate events).rowsByCanonicalKey.get? key = some kept ∧ kept.core = counting.core ∧
        row = (aggregate events).expire activeStaleMs now kept := by
  rw [expired, OrderedMap.mem_values]
  refine exists_congr fun key => ?_
  rw [OrderedMap.get?_mapValues, Option.map_eq_some_iff]
  constructor
  · rintro ⟨kept, hkept, rfl⟩
    have hcore := core_aggregate events key
    rw [hkept, Option.map_some] at hcore
    obtain ⟨counting, hcounting, hsame⟩ := Option.map_eq_some_iff.1 hcore.symm
    exact ⟨kept, counting, hcounting, hkept, hsame.symm, rfl⟩
  · rintro ⟨kept, -, -, hkept, -, rfl⟩
    exact ⟨kept, hkept, rfl⟩

theorem mem_structuredToolUseIds {id : String} : id ∈ structuredToolUseIds rows ↔
    ∃ row ∈ rows, row.providerKind = .claudeTask ∧ truthy row.parentToolUseId = true ∧
      row.parentToolUseId = some id := by
  simp only [structuredToolUseIds, List.mem_filterMap, List.mem_filter, Bool.and_eq_true,
    decide_eq_true_eq, and_assoc]

theorem mem_standingRows : row ∈ standingRows events ↔
    ∃ key, standing (rowsOf events key) = some row := by
  rw [standingRows, List.mem_filterMap]
  refine ⟨fun ⟨key, _, h⟩ => ⟨key, h⟩, fun ⟨key, h⟩ => ⟨key, ?_, h⟩⟩
  obtain ⟨hmem, hkey⟩ := List.mem_filter.1 (mem_of_standing h)
  exact List.mem_map.2 ⟨row, hmem, of_decide_eq_true hkey⟩

/-- The tasks that are shown are those of the rows that count. -/
theorem mem_structuredToolUseIds_expired {id : String} :
    id ∈ structuredToolUseIds (expired events activeStaleMs now) ↔
      id ∈ structuredToolUseIds (standingRows events) := by
  rw [mem_structuredToolUseIds, mem_structuredToolUseIds]
  constructor
  · rintro ⟨row, hrow, hkind, htruthy, hid⟩
    obtain ⟨key, kept, counting, hcounting, -, hcore, rfl⟩ := mem_expired.1 hrow
    obtain ⟨-, hsameKind, hsameId, -⟩ := expire_keeps (aggregate events) activeStaleMs now kept
    have hkindCore := congr_core (·.providerKind) (fun _ => rfl) hcore
    have hidCore := congr_core (·.parentToolUseId) (fun _ => rfl) hcore
    rw [hsameKind, hkindCore] at hkind
    rw [hsameId, hidCore] at htruthy hid
    exact ⟨counting, mem_standingRows.2 ⟨key, hcounting⟩, hkind, htruthy, hid⟩
  · rintro ⟨counting, hcounting, hkind, htruthy, hid⟩
    obtain ⟨key, hcounting⟩ := mem_standingRows.1 hcounting
    have hcore := core_aggregate events key
    rw [hcounting, Option.map_some] at hcore
    obtain ⟨kept, hkept, hcore⟩ := Option.map_eq_some_iff.1 hcore
    obtain ⟨-, hsameKind, hsameId, -⟩ := expire_keeps (aggregate events) activeStaleMs now kept
    have hkindCore := congr_core (·.providerKind) (fun _ => rfl) hcore
    have hidCore := congr_core (·.parentToolUseId) (fun _ => rfl) hcore
    refine ⟨_, mem_expired.2 ⟨key, kept, counting, hcounting, hkept, hcore, rfl⟩, ?_, ?_, ?_⟩
    · rw [hsameKind, hkindCore, hkind]
    · rw [hsameId, hidCore, htruthy]
    · rw [hsameId, hidCore, hid]

theorem isFallback_congr {ids ids' : List String} (h : ∀ id, id ∈ ids ↔ id ∈ ids') :
    isFallback ids row = isFallback ids' row := by
  simp only [isFallback, h]

theorem mem_suppress : row ∈ suppressClaudeRuntimeFallbackRows rows ↔
    row ∈ rows ∧ isFallback (structuredToolUseIds rows) row = false := by
  unfold suppressClaudeRuntimeFallbackRows
  split
  · rename_i hnil
    rw [hnil]
    simp [isFallback]
  · rw [List.mem_filter, Bool.not_eq_true']

/-- A key that has finished has a row that is not active. -/
theorem exists_lastIdle (h : HasFinished events key) :
    ∃ idle, lastIdle (rowsOf events key) = some idle := by
  obtain ⟨event, hevent, detail, hdetail, hkey, hterminal⟩ := h
  obtain ⟨order, hget⟩ := List.mem_iff_getElem?.1 hevent
  have hrow : makeRow event detail order ∈ rowsOf events key :=
    mem_rowsOf.2 ⟨⟨(event, order), List.mem_zipIdx_iff_getElem?.2 hget, detail, hdetail, rfl⟩, hkey⟩
  refine Option.isSome_iff_exists.1 (List.find?_isSome.2
    ⟨_, List.mem_reverse.2 hrow, ?_⟩)
  simp [RowState.isActive, makeRow, hterminal]

/-- The row that counts of a key that has finished is active only if it is the last one, and the
last idle one has not finished. -/
theorem standing_active_iff {P : RowState → Prop} (h : HasFinished events key) :
    (∃ counting, standing (rowsOf events key) = some counting ∧ counting.isActive = true ∧
      P counting) ↔
      (∃ idle ∈ lastIdle (rowsOf events key), idle.isTerminalish = false) ∧
        ∃ last ∈ (rowsOf events key).getLast?, last.isActive = true ∧ P last := by
  obtain ⟨idle, hidle⟩ := exists_lastIdle h
  cases hterminal : idle.isTerminalish with
  | true =>
    refine iff_of_false ?_ ?_
    · rintro ⟨counting, hcounting, hactive, -⟩
      rw [standing_of_terminalish hidle hterminal] at hcounting
      obtain rfl := Option.some.inj hcounting
      rw [isTerminalish_of_isActive hactive] at hterminal
      cases hterminal
    · rintro ⟨⟨idle', hidle', hnot⟩, -⟩
      obtain rfl := Option.some.inj (hidle.symm.trans hidle')
      rw [hterminal] at hnot
      cases hnot
  | false =>
    have hall : ∀ idle' ∈ lastIdle (rowsOf events key), idle'.isTerminalish = false := by
      intro idle' hidle'
      obtain rfl := Option.some.inj (hidle.symm.trans hidle')
      exact hterminal
    rw [standing_eq_getLast? hall]
    exact (and_iff_right ⟨idle, hidle, hterminal⟩).symm

/-- **A row of the key is shown active** exactly if the key runs again. -/
theorem exists_active_iff (h : HasFinished events key) :
    (∃ row ∈ suppressClaudeRuntimeFallbackRows (expired events activeStaleMs now),
      row.canonicalKey = key ∧ row.isActive = true) ↔ RunsAgain events now activeStaleMs key := by
  have hshown (kept : RowState) : isFallback (structuredToolUseIds
      (expired events activeStaleMs now)) ((aggregate events).expire activeStaleMs now kept) =
        isFallback (structuredToolUseIds (standingRows events)) kept := by
    rw [isFallback_congr fun id => mem_structuredToolUseIds_expired]
    obtain ⟨-, hkind, hid, hitem⟩ := expire_keeps (aggregate events) activeStaleMs now kept
    rw [isFallback, isFallback, hkind, hid, hitem]
  rw [RunsAgain, ← standing_active_iff h]
  constructor
  · rintro ⟨row, hrow, hrowKey, hactive⟩
    obtain ⟨hexpired, hfallback⟩ := mem_suppress.1 hrow
    obtain ⟨key', kept, counting, hcounting, hkept, hcore, rfl⟩ := mem_expired.1 hexpired
    have hsame : key' = key := by
      have hkey' := (List.mem_filter.1 (mem_of_standing hcounting)).2
      rw [(expire_keeps _ _ _ kept).1, congr_core (·.canonicalKey) (fun _ => rfl) hcore] at hrowKey
      exact (of_decide_eq_true hkey').symm.trans hrowKey
    obtain ⟨hkeptActive, hoverdue, hfinish⟩ := isActive_expire.1 hactive
    rw [hshown] at hfallback
    refine ⟨counting, hsame ▸ hcounting, ?_, ?_, ?_, ?_⟩
    · rw [← congr_core (·.isActive) (fun _ => rfl) hcore, hkeptActive]
    · rw [← congr_core (isOverdue activeStaleMs now) (fun _ => rfl) hcore, hoverdue]
    · rw [← congr_core (·.backgrounded) (fun _ => rfl) hcore]
      refine hfinish.imp_right fun hnone => ?_
      rw [← isSome_finishOf, ← congr_core ((aggregate events).finishOf) (fun _ => rfl) hcore, hnone]
      exact Bool.false_ne_true
    · rw [← congr_core (isFallback _) (fun _ => rfl) hcore, hfallback]
  · rintro ⟨counting, hcounting, hactive, hoverdue, hfinish, hfallback⟩
    have hcore := core_aggregate events key
    rw [hcounting, Option.map_some] at hcore
    obtain ⟨kept, hkept, hcore⟩ := Option.map_eq_some_iff.1 hcore
    refine ⟨_, mem_suppress.2 ⟨mem_expired.2 ⟨key, kept, counting, hcounting, hkept, hcore, rfl⟩,
      ?_⟩,
      ?_, isActive_expire.2 ⟨?_, ?_, ?_⟩⟩
    · rw [hshown, congr_core (isFallback _) (fun _ => rfl) hcore, hfallback]
    · rw [(expire_keeps _ _ _ kept).1, congr_core (·.canonicalKey) (fun _ => rfl) hcore]
      exact of_decide_eq_true (List.mem_filter.1 (mem_of_standing hcounting)).2
    · rw [congr_core (·.isActive) (fun _ => rfl) hcore, hactive]
    · rw [congr_core (isOverdue activeStaleMs now) (fun _ => rfl) hcore, hoverdue]
    · rw [congr_core (·.backgrounded) (fun _ => rfl) hcore]
      refine hfinish.imp_right fun hnone => Bool.eq_false_iff.2 fun hsome => hnone ?_
      rw [congr_core ((aggregate events).finishOf) (fun _ => rfl) hcore] at hsome
      exact isSome_finishOf.1 hsome

/-- The rows that are shown, and whether they are active. -/
theorem sound_of_mem_expired (h : row ∈ expired events activeStaleMs now) :
    row.active = true → row.isTerminalish = false := by
  obtain ⟨key, kept, counting, hcounting, -, hcore, rfl⟩ := mem_expired.1 h
  refine expire_sound ?_
  have hsound := sound_of_mem_rowsOf (mem_of_standing hcounting)
  rw [← congr_core (·.active) (fun _ => rfl) hcore,
    ← congr_core (·.isTerminalish) (fun _ => rfl) hcore] at hsound
  exact hsound

theorem getRunningContribution_of_not_isActive (h : row.isActive = false) :
    getRunningContribution row.toSdkSubagentStatusRow = 0 := by
  rw [RowState.isActive, SdkSubagentStatusRow.isTerminalish, isTerminalish] at h
  have hzero : (!row.active || row.terminal || decide (row.normalizedStatus ∉ ACTIVE_STATUSES)) =
      true := by
    cases hactive : row.active with
    | false => rfl
    | true =>
      cases hterminal : row.terminal with
      | true => rfl
      | false =>
        rw [hactive, hterminal] at h
        cases hstatus : row.normalizedStatus <;> rw [hstatus] at h <;> first | rfl | cases h
  exact if_pos (by simpa [Bool.or_eq_true, or_assoc] using hzero)

theorem sum_getRunningContribution {l : List RowState}
    (h : ∀ row ∈ l, row.isActive = false) :
    (l.map fun row => getRunningContribution row.toSdkSubagentStatusRow).sum = 0 := by
  refine List.sum_eq_zero fun n hn => ?_
  obtain ⟨row, hrow, rfl⟩ := List.mem_map.1 hn
  exact getRunningContribution_of_not_isActive (h row hrow)

/-- The rows of the keys, before they are shown. -/
def statesOf (events : List TimelineEvent) (now : ℚ) (options : SdkSubagentAggregationOptions) :
    List RowState :=
  suppressClaudeRuntimeFallbackRows
    (expired events (options.activeStaleMs.getD DEFAULT_ACTIVE_STALE_MS) now)

variable {options : SdkSubagentAggregationOptions}

/-- What is shown is the active rows, and then some that are not. -/
theorem exists_rows_eq : ∃ terminalRows : List RowState,
    (∀ row ∈ terminalRows, row ∈ statesOf events now options ∧ row.isActive = false) ∧
      (deriveSdkSubagentStatusRows events now options).rows =
        (sortBy activeRowSort ((statesOf events now options).filter (·.isActive)) ++
          terminalRows).map (·.toSdkSubagentStatusRow) ∧
        (deriveSdkSubagentStatusRows events now options).runningCount =
          ((sortBy activeRowSort ((statesOf events now options).filter (·.isActive))).map
            fun row => getRunningContribution row.toSdkSubagentStatusRow).sum := by
  refine ⟨_, fun row hrow => ?_, rfl, rfl⟩
  have hmem := List.mem_of_mem_filter hrow
  rw [sortBy, List.mem_insertionSort, List.mem_filter, List.mem_filter, Bool.not_eq_true'] at hmem
  exact hmem.1

theorem mem_sortBy_isActive {rows : List RowState} {row : RowState} :
    row ∈ sortBy activeRowSort (rows.filter (·.isActive)) ↔ row ∈ rows ∧ row.isActive = true := by
  rw [sortBy, List.mem_insertionSort, List.mem_filter]

/-- An active row of the key is shown as one that runs. -/
theorem isActive_of_neverRuns {row : RowState}
    (h : NeverRuns (deriveSdkSubagentStatusRows events now options) key)
    (hrow : row ∈ statesOf events now options) (hkey : row.canonicalKey = key) :
    row.isActive = false := by
  obtain ⟨terminalRows, -, hrows, -⟩ := @exists_rows_eq events now options
  by_contra hrun
  rw [Bool.not_eq_false] at hrun
  have hshown : row.toSdkSubagentStatusRow ∈
      (deriveSdkSubagentStatusRows events now options).rows := by
    rw [hrows]
    exact List.mem_map_of_mem (List.mem_append_left _ (mem_sortBy_isActive.2 ⟨hrow, hrun⟩))
  have hflag := h.1 _ hshown hkey
  rw [RowState.isActive, Bool.and_eq_true] at hrun
  rw [hrun.1] at hflag
  cases hflag

/-- Without an active row the key is not counted. -/
theorem neverRuns_of_isActive
    (hnone : ∀ row ∈ statesOf events now options, row.canonicalKey = key → row.isActive = false) :
    NeverRuns (deriveSdkSubagentStatusRows events now options) key := by
  obtain ⟨terminalRows, hterminal, hrows, hcount⟩ := @exists_rows_eq events now options
  refine ⟨fun shown hshown hkey => ?_, ?_⟩
  · rw [hrows] at hshown
    obtain ⟨row, hrow, rfl⟩ := List.mem_map.1 hshown
    have hstate : row ∈ statesOf events now options ∧ row.isActive = false := by
      rcases List.mem_append.1 hrow with hrow | hrow
      · have hmem := (mem_sortBy_isActive.1 hrow).1
        exact ⟨hmem, hnone row hmem hkey⟩
      · exact hterminal row hrow
    have hidle := hstate.2
    by_contra hflag
    rw [Bool.not_eq_false] at hflag
    rw [RowState.isActive, hflag, sound_of_mem_expired (mem_suppress.1 hstate.1).1 hflag] at hidle
    cases hidle
  · have hothers : (sortBy activeRowSort ((statesOf events now options).filter (·.isActive))).filter
        (·.canonicalKey ≠ key) =
          sortBy activeRowSort ((statesOf events now options).filter (·.isActive)) := by
      refine List.filter_eq_self.2 fun row hrow => decide_eq_true fun hkey => ?_
      obtain ⟨hmem, hrun⟩ := mem_sortBy_isActive.1 hrow
      rw [hnone row hmem hkey] at hrun
      cases hrun
    rw [hcount, hrows, List.filter_map, List.map_map, List.filter_append, List.map_append,
      List.sum_append]
    have hzero := sum_getRunningContribution (l := terminalRows.filter (·.canonicalKey ≠ key))
      fun row hrow => (hterminal row (List.mem_of_mem_filter hrow)).2
    have hsame := congrArg (fun l => (l.map fun row : RowState =>
      getRunningContribution row.toSdkSubagentStatusRow).sum) hothers
    exact ((congrArg₂ (· + ·) hsame hzero).trans (Nat.add_zero _)).symm

/-- **What is shown of a key** is that it runs exactly if one of its rows is active. -/
theorem neverRuns_iff_forall :
    NeverRuns (deriveSdkSubagentStatusRows events now options) key ↔
      ∀ row ∈ suppressClaudeRuntimeFallbackRows
          (expired events (options.activeStaleMs.getD DEFAULT_ACTIVE_STALE_MS) now),
        row.canonicalKey = key → row.isActive = false :=
  ⟨fun h _ hrow hkey => isActive_of_neverRuns h hrow hkey, neverRuns_of_isActive⟩

/-- **A key that has finished never runs again**, unless after its last terminal detail comes one
that neither runs nor is terminal, and then one that runs. -/
theorem neverRuns_iff (events : List TimelineEvent) (key : String) (now : ℚ)
    (options : SdkSubagentAggregationOptions) (h : HasFinished events key) :
    NeverRuns (deriveSdkSubagentStatusRows events now options) key ↔
      ¬RunsAgain events now (options.activeStaleMs.getD DEFAULT_ACTIVE_STALE_MS) key := by
  rw [neverRuns_iff_forall, ← exists_active_iff h]
  push Not
  refine forall₃_congr fun row _ _ => ?_
  exact Bool.not_eq_true _ ▸ Iff.rfl

/-! ## A state that is not known -/

def agentEvent (ts : ℚ) (normalizedStatus : SdkSubagentNormalizedStatus) (active terminal : Bool) :
    TimelineEvent where
  eventId := "event"
  sessionId := "session"
  type := "tool.call"
  ts := ts
  detail := .ok { meta' := { canonicalKey := "agent", normalizedStatus, active, terminal } }

/-- An update that comes late. -/
def lateUpdate : List TimelineEvent :=
  [agentEvent 1 .running true false, agentEvent 2 .complete false true,
    agentEvent 3 .running true false]

theorem neverRuns_iff_lateUpdate :
    NeverRuns (deriveSdkSubagentStatusRows lateUpdate 4) "agent" :=
  (neverRuns_iff lateUpdate "agent" 4 {} ⟨agentEvent 2 .complete false true, by decide +kernel,
    _, rfl, by decide +kernel, by decide +kernel⟩).2 (by
      rintro ⟨⟨idle, hidle, hnot⟩, -⟩
      have hlast : lastIdle (rowsOf lateUpdate "agent") =
          some (makeRow (agentEvent 2 .complete false true)
            { meta' :=
              { canonicalKey := "agent", normalizedStatus := .complete
                active := false, terminal := true } } 1) := by decide +kernel
      rw [hlast] at hidle
      obtain rfl := Option.some.inj hidle
      exact absurd hnot (by decide +kernel))

/-- A state that is not known comes after the end, and an update after it. -/
def unknownState : List TimelineEvent :=
  [agentEvent 1 .complete false true, agentEvent 2 .unknown false false,
    agentEvent 3 .running true false]

theorem not_neverRuns :
    ¬∀ (events : List TimelineEvent) (key : String) (now : ℚ)
      (options : SdkSubagentAggregationOptions), HasFinished events key →
        NeverRuns (deriveSdkSubagentStatusRows events now options) key := by
  intro h
  have hnever := h unknownState "agent" 4 {} ⟨agentEvent 1 .complete false true,
    by decide +kernel, _, rfl, by decide +kernel, by decide +kernel⟩
  have hcount : (deriveSdkSubagentStatusRows unknownState 4).runningCount = 1 := by decide +kernel
  have hothers : (((deriveSdkSubagentStatusRows unknownState 4).rows.filter
      (·.canonicalKey ≠ "agent")).map getRunningContribution).sum = 0 := by decide +kernel
  rw [NeverRuns, hcount, hothers] at hnever
  exact absurd hnever.2 (by decide)

end Imcodes.Timeline.Subagents
