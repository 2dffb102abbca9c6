import Mathlib.Data.Int.Order.Basic
import Mathlib.Data.List.Chain
import Mathlib.Data.List.MinMax
import Mathlib.Data.List.Sort

/-!
# Newest-first backfill

A backfill round asks for the newest events above a fixed lower bound, and then, page by page, for
the newest ones below what it has got. The upper bound of a page is the millisecond that the page
before ended in, so that events of one millisecond that do not fit on a page are not lost.

* `Descends` — everything above the last page is merged, which a page that the round goes on after
  keeps (`Descends.next`), and the last page makes use of (`Descends.settles`).
* `backfill_settles` — a round that says caught up has merged everything that was there, every
  request asks for less than the one before, and a round with pages enough gives up only where the
  events of a millisecond fill a page.
-/

namespace Imcodes.Timeline.Backfill

/-! ## Pages -/

def CATCHUP_TAIL_MAX_PAGES : ℕ := 5

structure BackfillPage (E : Type) where
  events : List E
  hasMore : Bool := false
  payloadTruncated : Option Bool := none
  droppedEvents : Option ℤ := none
  truncatedEvents : Option ℤ := none
  cursorReset : Option Bool := none
  recoverable : Option Bool := none

inductive BackfillTerminal
  | caughtUp | capHit | truncated | transientNull
deriving DecidableEq

structure MergeResult where
  candidateCount : ℕ
  minTs : Option ℤ
  maxTs : Option ℤ

structure NewestWindowBackfillDeps (E : Type) where
  /-- The answer to the request of that number, for `afterTs` and `beforeTs`. -/
  fetchPage : ℕ → Option ℤ → Option ℤ → Option (BackfillPage E)
  mergePage : ℕ → List E → MergeResult
  limit : ℕ
  maxPages : Option ℕ := none

structure NewestWindowBackfillOutcome where
  terminal : BackfillTerminal
  pageCount : ℕ
  totalNew : ℕ
deriving DecidableEq

variable {E : Type}

def pageIsIncomplete (page : BackfillPage E) : Bool :=
  page.payloadTruncated = some true || page.droppedEvents.getD 0 > 0 ||
    page.truncatedEvents.getD 0 > 0 || page.cursorReset = some true || page.recoverable = some true

/-! ## A round -/

/-- The variables of the loop, and what was asked for and merged until now. -/
structure Cursor (E : Type) where
  beforeTs : Option ℤ := none
  /-- Nothing stands for infinity. -/
  prevMinTs : Option ℤ := none
  pageCount : ℕ := 0
  totalNew : ℕ := 0
  requests : List (Option ℤ) := []
  merged : List E := []

structure Round (E : Type) where
  outcome : NewestWindowBackfillOutcome
  /-- The `beforeTs` of each request. -/
  requests : List (Option ℤ)
  /-- What was passed to `mergePage`. -/
  merged : List E

variable (deps : NewestWindowBackfillDeps E) (afterTs : Option ℤ)

def Cursor.finish (s : Cursor E) (terminal : BackfillTerminal) : Round E where
  outcome := { terminal, pageCount := s.pageCount, totalNew := s.totalNew }
  requests := s.requests
  merged := s.merged

/-- A page is merged. -/
def Cursor.merge (s : Cursor E) (page : BackfillPage E) : Cursor E :=
  { s with
    pageCount := s.pageCount + 1
    totalNew := s.totalNew + (deps.mergePage s.pageCount page.events).candidateCount
    merged := s.merged ++ page.events }

def Cursor.request (s : Cursor E) : Cursor E := { s with requests := s.requests ++ [s.beforeTs] }

/-- The body of the loop: the round ends, or goes on. -/
def nextPage (s : Cursor E) : Round E ⊕ Cursor E :=
  let requested := s.request
  match deps.fetchPage s.pageCount afterTs s.beforeTs with
  | none => .inl (requested.finish .transientNull)
  | some page =>
    let merged := requested.merge deps page
    if pageIsIncomplete page then .inl (merged.finish .truncated)
    else if page.events.length < deps.limit then .inl (merged.finish .caughtUp)
    else
      match (deps.mergePage s.pageCount page.events).minTs with
      | none => .inl (merged.finish .capHit)
      | some minTs =>
        if ∃ prevMinTs ∈ s.prevMinTs, minTs ≥ prevMinTs then .inl (merged.finish .capHit)
        else .inr { merged with prevMinTs := some minTs, beforeTs := some (minTs + 1) }

/-- `while (pageCount < maxPages)` -/
def loop : ℕ → Cursor E → Round E
  | 0, s => s.finish .capHit
  | pagesLeft + 1, s =>
    match nextPage deps afterTs s with
    | .inl round => round
    | .inr s => loop pagesLeft s

def runNewestWindowBackfill (lowerAfterTs : Option ℤ) : Round E :=
  loop deps lowerAfterTs (deps.maxPages.getD CATCHUP_TAIL_MAX_PAGES) {}

/-! ## The backend -/

variable (ts : E → ℤ)

/-- `ts > afterTs AND ts < beforeTs` -/
def window (store : List E) (afterTs beforeTs : Option ℤ) : List E :=
  store.filter fun event => (∀ t ∈ afterTs, t < ts event) ∧ ∀ t ∈ beforeTs, ts event < t

/-- As many of the events as fit on a page, none of them older than one that is left out. -/
def IsNewest (limit : ℕ) (events page : List E) : Prop :=
  ∃ rest, (page ++ rest).Perm events ∧ page.length = min limit events.length ∧
    ∀ event ∈ page, ∀ older ∈ rest, ts older ≤ ts event

/-- The events of the store at each request: those of the start, and newer ones that come. -/
structure Grows (start : List E) (store : ℕ → List E) : Prop where
  start : ∃ fresh, store 0 = start ++ fresh ∧ ∀ event ∈ fresh, ∀ old ∈ start, ts old < ts event
  step : ∀ n, ∃ fresh, store (n + 1) = store n ++ fresh ∧
    ∀ event ∈ fresh, ∀ old ∈ store n, ts old < ts event

/-- A page that is complete is the newest one of its window. -/
def Serves (store : ℕ → List E) : Prop :=
  ∀ n afterTs beforeTs page, deps.fetchPage n afterTs beforeTs = some page →
    pageIsIncomplete page = true ∨
      IsNewest ts deps.limit (window ts (store n) afterTs beforeTs) page.events

/-- What is reported of a page is its smallest `ts`. -/
def Reports : Prop := ∀ n events, (deps.mergePage n events).minTs = (events.map ts).min?

/-- `ORDER BY ts DESC LIMIT n` -/
def newest (limit : ℕ) (events : List E) : List E :=
  (events.insertionSort fun a b => ts b ≤ ts a).take limit

variable {deps afterTs ts} {store : ℕ → List E} {start events page : List E} {limit : ℕ}

theorem isNewest_newest : IsNewest ts limit events (newest ts limit events) := by
  have hsorted := List.pairwise_insertionSort (fun a b => ts b ≤ ts a) events
  refine ⟨(events.insertionSort fun a b => ts b ≤ ts a).drop limit, ?_, ?_, ?_⟩
  · rw [newest, List.take_append_drop]
    exact List.perm_insertionSort _ _
  · rw [newest, List.length_take, List.length_insertionSort]
  · rw [← List.take_append_drop limit (events.insertionSort _), List.pairwise_append] at hsorted
    exact hsorted.2.2

/-- A page with room to spare has everything. -/
theorem IsNewest.mem_of_length_lt (h : IsNewest ts limit events page) (hshort : page.length < limit)
    {event : E} (hevent : event ∈ events) : event ∈ page := by
  obtain ⟨rest, hperm, hlength, -⟩ := h
  have hrest : rest = [] := by
    have hsum := hperm.length_eq
    rw [List.length_append] at hsum
    exact List.length_eq_zero_iff.1 (by omega)
  rw [hrest, List.append_nil] at hperm
  exact hperm.mem_iff.2 hevent

/-- What is not on the page is no newer than what is. -/
theorem IsNewest.le_of_not_mem (h : IsNewest ts limit events page) {event : E}
    (hevent : event ∈ events) (hnot : event ∉ page) : ∀ onPage ∈ page, ts event ≤ ts onPage := by
  obtain ⟨rest, hperm, -, horder⟩ := h
  have hrest := (List.mem_append.1 (hperm.mem_iff.2 hevent)).resolve_left hnot
  exact fun onPage honPage => horder onPage honPage event hrest

theorem IsNewest.subset (h : IsNewest ts limit events page) : page ⊆ events := by
  obtain ⟨rest, hperm, -, -⟩ := h
  exact fun event hevent => hperm.mem_iff.1 (List.mem_append_left _ hevent)

theorem IsNewest.countP_le (h : IsNewest ts limit events page) (p : E → Bool) :
    page.countP p ≤ events.countP p := by
  obtain ⟨rest, hperm, -, -⟩ := h
  rw [← hperm.countP_eq, List.countP_append]
  exact Nat.le_add_right _ _

theorem mem_window {store : List E} {beforeTs : Option ℤ} {event : E} :
    event ∈ window ts store afterTs beforeTs ↔
      event ∈ store ∧ (∀ t ∈ afterTs, t < ts event) ∧ ∀ t ∈ beforeTs, ts event < t := by
  rw [window, List.mem_filter, decide_eq_true_iff]

theorem Grows.mem_of_mem_start (h : Grows ts start store) {event : E} (hevent : event ∈ start)
    (n : ℕ) : event ∈ store n := by
  induction n with
  | zero =>
    obtain ⟨fresh, hstore, -⟩ := h.start
    exact hstore ▸ List.mem_append_left _ hevent
  | succ n ih =>
    obtain ⟨fresh, hstore, -⟩ := h.step n
    exact hstore ▸ List.mem_append_left _ ih

theorem Grows.mem_of_mem_first (h : Grows ts start store) {old : E} (hold : old ∈ store 0)
    (n : ℕ) : old ∈ store n := by
  induction n with
  | zero => exact hold
  | succ n ih =>
    obtain ⟨fresh, hstore, -⟩ := h.step n
    exact hstore ▸ List.mem_append_left _ ih

/-- What comes after the first request is newer than what was there. -/
theorem Grows.mem_first_of_le (h : Grows ts start store) {event old : E} (hold : old ∈ store 0)
    {n : ℕ} (hevent : event ∈ store n) (hle : ts event ≤ ts old) : event ∈ store 0 := by
  induction n with
  | zero => exact hevent
  | succ n ih =>
    obtain ⟨fresh, hstore, hfresh⟩ := h.step n
    rw [hstore] at hevent
    refine ih ((List.mem_append.1 hevent).resolve_right fun hnew => ?_)
    exact absurd hle (not_le.2 (hfresh event hnew old (h.mem_of_mem_first hold n)))

/-! ## What a request does -/

variable {s s' : Cursor E} {round : Round E}

/-- The cursor with the page merged, after it was asked for. -/
abbrev Cursor.took (deps : NewestWindowBackfillDeps E) (s : Cursor E) (page : BackfillPage E) :
    Cursor E :=
  s.request.merge deps page

/-- The round goes on after a full page that reaches further down. -/
theorem nextPage_eq_inr (h : nextPage deps afterTs s = .inr s') :
    ∃ page minTs, deps.fetchPage s.pageCount afterTs s.beforeTs = some page ∧
      pageIsIncomplete page = false ∧
        (deps.mergePage s.pageCount page.events).minTs = some minTs ∧
          (∀ prevMinTs ∈ s.prevMinTs, minTs < prevMinTs) ∧
            s' = { s.took deps page with prevMinTs := some minTs, beforeTs := some (minTs + 1) } := by
  unfold nextPage at h
  cases hpage : deps.fetchPage s.pageCount afterTs s.beforeTs with
  | none => simp [hpage] at h
  | some page =>
    simp only [hpage] at h
    split at h
    · cases h
    · rename_i hcomplete
      split at h
      · cases h
      · split at h
        · cases h
        · rename_i minTs hmin
          split at h
          · cases h
          · rename_i hdescends
            push Not at hdescends
            exact ⟨page, minTs, rfl, Bool.eq_false_iff.2 hcomplete, hmin, hdescends,
              (Sum.inr.inj h).symm⟩

/-- What ends the round. -/
theorem nextPage_eq_inl (h : nextPage deps afterTs s = .inl round) :
    round = s.request.finish .transientNull ∨
      ∃ page, deps.fetchPage s.pageCount afterTs s.beforeTs = some page ∧
        (round = (s.took deps page).finish .truncated ∨
          pageIsIncomplete page = false ∧ page.events.length < deps.limit ∧
            round = (s.took deps page).finish .caughtUp ∨
          pageIsIncomplete page = false ∧ deps.limit ≤ page.events.length ∧
            (∀ minTs ∈ (deps.mergePage s.pageCount page.events).minTs,
              ∃ prevMinTs ∈ s.prevMinTs, prevMinTs ≤ minTs) ∧
            round = (s.took deps page).finish .capHit) := by
  unfold nextPage at h
  cases hpage : deps.fetchPage s.pageCount afterTs s.beforeTs with
  | none =>
    simp only [hpage] at h
    exact Or.inl (Sum.inl.inj h).symm
  | some page =>
    refine Or.inr ⟨page, rfl, ?_⟩
    simp only [hpage] at h
    split at h
    · exact Or.inl (Sum.inl.inj h).symm
    · rename_i hcomplete
      refine Or.inr ?_
      split at h
      · rename_i hshort
        exact Or.inl ⟨Bool.eq_false_iff.2 hcomplete, hshort, (Sum.inl.inj h).symm⟩
      · rename_i hfull
        refine Or.inr ⟨Bool.eq_false_iff.2 hcomplete, not_lt.1 hfull, ?_⟩
        split at h
        · rename_i hmin
          exact ⟨fun minTs h' => absurd (hmin ▸ h') (Option.not_mem_none _),
            (Sum.inl.inj h).symm⟩
        · rename_i minTs hmin
          split at h
          · rename_i hstuck
            refine ⟨fun minTs' h' => ?_, (Sum.inl.inj h).symm⟩
            obtain rfl := Option.some.inj (hmin.symm.trans h')
            exact hstuck
          · cases h

/-! ## Rounds -/

/-- A request asks for less. -/
def Below (beforeTs next : Option ℤ) : Prop := ∃ t' ∈ next, ∀ t ∈ beforeTs, t' < t

variable (afterTs ts start) in
/-- An event of the start that the round is about. -/
def IsDue (event : E) : Prop := event ∈ start ∧ ∀ t ∈ afterTs, t < ts event

variable (afterTs ts store start) in
/-- Everything that is due is merged down to where the last page ended. -/
structure Descends (s : Cursor E) : Prop where
  beforeTs : s.beforeTs = s.prevMinTs.map (· + 1)
  merged : ∀ t ∈ s.prevMinTs, ∀ event, IsDue afterTs ts start event → t < ts event →
    event ∈ s.merged
  requests : s.requests.IsChain Below
  below : ∀ beforeTs ∈ s.requests.getLast?, Below beforeTs s.beforeTs
  first : ∀ t ∈ s.prevMinTs, ∃ event ∈ store 0, ts event = t
  pageCount : s.prevMinTs = none → s.pageCount = 0

theorem descends_nil : Descends afterTs ts store start {} where
  beforeTs := rfl
  merged := fun _ h => absurd h (Option.not_mem_none _)
  requests := List.isChain_nil
  below := fun _ h => absurd h (Option.not_mem_none _)
  first := fun _ h => absurd h (Option.not_mem_none _)
  pageCount := fun _ => rfl

/-- The requests of a cursor, with the one that it makes. -/
theorem Descends.isChain_request (h : Descends afterTs ts store start s) :
    s.request.requests.IsChain Below := by
  refine List.isChain_append.2 ⟨h.requests, List.isChain_singleton _, ?_⟩
  intro beforeTs hlast next hnext
  obtain rfl := Option.some.inj hnext
  exact h.below beforeTs hlast

/-- What is due is merged or in the window that is asked for. -/
theorem Descends.mem_window (hgrows : Grows ts start store)
    (h : Descends afterTs ts store start s) {event : E} (hdue : IsDue afterTs ts start event) :
    event ∈ s.merged ∨ event ∈ window ts (store s.pageCount) afterTs s.beforeTs := by
  have hstore := hgrows.mem_of_mem_start hdue.1 s.pageCount
  rw [Backfill.mem_window, h.beforeTs]
  cases hprev : s.prevMinTs with
  | none => exact Or.inr ⟨hstore, hdue.2, fun _ h => absurd h (Option.not_mem_none _)⟩
  | some prevMinTs =>
    by_cases hlt : prevMinTs < ts event
    · exact Or.inl (h.merged prevMinTs hprev event hdue hlt)
    · refine Or.inr ⟨hstore, hdue.2, fun t ht => ?_⟩
      obtain rfl := Option.some.inj ht
      exact Int.lt_add_one_of_le (not_lt.1 hlt)

/-- The smallest `ts` of a page. -/
theorem Reports.isLeast (hreports : Reports deps ts) {n : ℕ} {page : List E} {minTs : ℤ}
    (h : (deps.mergePage n page).minTs = some minTs) :
    (∃ event ∈ page, ts event = minTs) ∧ ∀ event ∈ page, minTs ≤ ts event := by
  rw [hreports, List.min?_eq_some_iff] at h
  exact ⟨List.mem_map.1 h.1, fun event hevent => h.2 _ (List.mem_map_of_mem hevent)⟩

/-- **A page** that the round goes on after. -/
theorem Descends.next (hgrows : Grows ts start store) (hserves : Serves deps ts store)
    (hreports : Reports deps ts) (h : Descends afterTs ts store start s)
    (hnext : nextPage deps afterTs s = .inr s') : Descends afterTs ts store start s' := by
  obtain ⟨page, minTs, hpage, hcomplete, hmin, hless, rfl⟩ := nextPage_eq_inr hnext
  have hnewest := (hserves _ _ _ page hpage).resolve_left (Bool.eq_false_iff.1 hcomplete)
  obtain ⟨⟨lowest, hlowest, rfl⟩, hleast⟩ := hreports.isLeast hmin
  refine ⟨rfl, fun t ht event hdue hlt => ?_, h.isChain_request, ?_, fun t ht => ?_,
    fun h => absurd h (Option.some_ne_none _)⟩
  · obtain rfl := Option.some.inj ht
    refine List.mem_append.2 ((h.mem_window hgrows hdue).imp_right fun hevent => ?_)
    by_contra hnot
    exact absurd (hnewest.le_of_not_mem hevent hnot lowest hlowest) (not_le.2 hlt)
  · intro beforeTs hlast
    have hsame : beforeTs = s.beforeTs := by
      rw [show (_ : Cursor E).requests = s.requests ++ [s.beforeTs] from rfl,
        List.getLast?_concat] at hlast
      exact (Option.some.inj hlast).symm
    refine ⟨ts lowest + 1, rfl, fun t ht => ?_⟩
    rw [hsame, h.beforeTs] at ht
    obtain ⟨prevMinTs, hprev, rfl⟩ := Option.map_eq_some_iff.1 ht
    exact Int.add_lt_add_right (hless prevMinTs hprev) 1
  · obtain rfl := Option.some.inj ht
    refine ⟨lowest, ?_, rfl⟩
    have hwindow := hnewest.subset hlowest
    rw [Backfill.mem_window] at hwindow
    cases hprev : s.prevMinTs with
    | none => exact h.pageCount hprev ▸ hwindow.1
    | some prevMinTs =>
      obtain ⟨old, hold, hts⟩ := h.first prevMinTs hprev
      exact hgrows.mem_first_of_le hold hwindow.1 (hts ▸ le_of_lt (hless prevMinTs hprev))

/-! ## The end of a round -/

/-- So many events share a `ts` that no page has room for more. -/
def Crowded (ts : E → ℤ) (limit : ℕ) (store : ℕ → List E) : Prop :=
  ∃ n t, limit ≤ (store n).countP (ts · = t)

/-- The events of the first request below the last page. -/
def roomBelow (ts : E → ℤ) (store : ℕ → List E) (prevMinTs : Option ℤ) : ℕ :=
  (store 0).countP fun event => ∀ t ∈ prevMinTs, ts event < t

theorem countP_lt_countP {l : List E} {p q : E → Bool} {a : E} (himp : ∀ x ∈ l, p x → q x)
    (ha : a ∈ l) (hq : q a) (hp : ¬p a) : l.countP p < l.countP q := by
  obtain ⟨l₁, l₂, rfl⟩ := List.append_of_mem ha
  have h₁ := List.countP_mono_left fun x hx => himp x (List.mem_append_left _ hx)
  have h₂ := List.countP_mono_left fun x hx =>
    himp x (List.mem_append_right _ (List.mem_cons_of_mem a hx))
  simp only [List.countP_append, List.countP_cons_of_neg hp, List.countP_cons_of_pos hq]
  omega

/-- Every page that the round goes on after leaves less room. -/
theorem Descends.roomBelow_lt (h : Descends afterTs ts store start s')
    (hnext : nextPage deps afterTs s = .inr s') :
    roomBelow ts store s'.prevMinTs < roomBelow ts store s.prevMinTs := by
  obtain ⟨page, minTs, -, -, -, hless, rfl⟩ := nextPage_eq_inr hnext
  obtain ⟨lowest, hlowest, rfl⟩ := h.first minTs rfl
  refine countP_lt_countP (fun event _ hevent => ?_) hlowest ?_ ?_
  · rw [decide_eq_true_iff] at hevent ⊢
    exact fun t ht => lt_trans (hevent (ts lowest) rfl) (hless t ht)
  · rw [decide_eq_true_iff]
    exact hless
  · rw [decide_eq_true_iff]
    exact fun hlt => absurd (hlt (ts lowest) rfl) (lt_irrefl _)

/-- A full page that does not reach further down is of one millisecond. -/
theorem Descends.crowded (hserves : Serves deps ts store) (hreports : Reports deps ts)
    (hlimit : 1 ≤ deps.limit) (h : Descends afterTs ts store start s) {page : BackfillPage E}
    (hpage : deps.fetchPage s.pageCount afterTs s.beforeTs = some page)
    (hcomplete : pageIsIncomplete page = false) (hfull : deps.limit ≤ page.events.length)
    (hstuck : ∀ minTs ∈ (deps.mergePage s.pageCount page.events).minTs,
      ∃ prevMinTs ∈ s.prevMinTs, prevMinTs ≤ minTs) : Crowded ts deps.limit store := by
  have hnewest := (hserves _ _ _ page hpage).resolve_left (Bool.eq_false_iff.1 hcomplete)
  have hne : page.events.map ts ≠ [] := by
    intro hnil
    rw [List.map_eq_nil_iff] at hnil
    rw [hnil, List.length_nil] at hfull
    omega
  obtain ⟨minTs, hmin⟩ := Option.isSome_iff_exists.1
    ((hreports s.pageCount page.events).symm ▸ List.isSome_min?_of_ne_nil hne)
  obtain ⟨prevMinTs, hprev, hle⟩ := hstuck minTs hmin
  have hone : ∀ event ∈ page.events, ts event = prevMinTs := by
    intro event hevent
    have hwindow := (Backfill.mem_window.1 (hnewest.subset hevent)).2.2
    rw [h.beforeTs, hprev] at hwindow
    have habove := (hreports.isLeast hmin).2 event hevent
    exact le_antisymm (Int.le_of_lt_add_one (hwindow _ rfl)) (le_trans hle habove)
  refine ⟨s.pageCount, prevMinTs, ?_⟩
  calc deps.limit ≤ page.events.length := hfull
    _ = page.events.countP (ts · = prevMinTs) :=
      (List.countP_eq_length.2 fun event hevent => decide_eq_true (hone event hevent)).symm
    _ ≤ (window ts (store s.pageCount) afterTs s.beforeTs).countP (ts · = prevMinTs) :=
      hnewest.countP_le _
    _ ≤ (store s.pageCount).countP (ts · = prevMinTs) :=
      List.filter_sublist.countP_le

/-- What a round comes to. -/
structure Settles (afterTs : Option ℤ) (ts : E → ℤ) (start : List E) (round : Round E) : Prop where
  merged : round.outcome.terminal = .caughtUp → ∀ event, IsDue afterTs ts start event →
    event ∈ round.merged
  requests : round.requests.IsChain Below

/-- **The last page.** -/
theorem Descends.settles (hgrows : Grows ts start store) (hserves : Serves deps ts store)
    (hreports : Reports deps ts) (hlimit : 1 ≤ deps.limit) (h : Descends afterTs ts store start s)
    (hnext : nextPage deps afterTs s = .inl round) :
    Settles afterTs ts start round ∧
      (round.outcome.terminal = .capHit → Crowded ts deps.limit store) := by
  rcases nextPage_eq_inl hnext with rfl | ⟨page, hpage, rfl | ⟨hcomplete, hshort, rfl⟩ |
    ⟨hcomplete, hfull, hstuck, rfl⟩⟩
  · exact ⟨⟨nofun, h.isChain_request⟩, nofun⟩
  · exact ⟨⟨nofun, h.isChain_request⟩, nofun⟩
  · refine ⟨⟨fun _ event hdue => ?_, h.isChain_request⟩, nofun⟩
    have hnewest := (hserves _ _ _ page hpage).resolve_left (Bool.eq_false_iff.1 hcomplete)
    exact List.mem_append.2 ((h.mem_window hgrows hdue).imp_right (hnewest.mem_of_length_lt hshort))
  · exact ⟨⟨nofun, h.isChain_request⟩,
      fun _ => h.crowded hserves hreports hlimit hpage hcomplete hfull hstuck⟩

/-- The loop. -/
theorem Descends.settles_loop (hgrows : Grows ts start store) (hserves : Serves deps ts store)
    (hreports : Reports deps ts) (hlimit : 1 ≤ deps.limit) (pagesLeft : ℕ)
    (h : Descends afterTs ts store start s) :
    Settles afterTs ts start (loop deps afterTs pagesLeft s) ∧
      (roomBelow ts store s.prevMinTs < pagesLeft →
        (loop deps afterTs pagesLeft s).outcome.terminal = .capHit →
          Crowded ts deps.limit store) := by
  induction pagesLeft generalizing s with
  | zero => exact ⟨⟨nofun, h.requests⟩, fun hroom => absurd hroom (Nat.not_lt_zero _)⟩
  | succ pagesLeft ih =>
    rw [loop]
    cases hnext : nextPage deps afterTs s with
    | inl round =>
      obtain ⟨hsettles, hcrowded⟩ := h.settles hgrows hserves hreports hlimit hnext
      exact ⟨hsettles, fun _ => hcrowded⟩
    | inr s' =>
      have h' := h.next hgrows hserves hreports hnext
      obtain ⟨hsettles, hcrowded⟩ := ih h'
      refine ⟨hsettles, fun hroom => hcrowded ?_⟩
      have hless := h'.roomBelow_lt hnext
      omega

/-- **A round that says caught up left no hole.** It asks for less with every page, and with more
pages than there were events it gives up only where the events of a millisecond fill a page. -/
theorem backfill_settles (ts : E → ℤ) (deps : NewestWindowBackfillDeps E) (start : List E)
    (store : ℕ → List E) (lowerAfterTs : Option ℤ) (hgrows : Grows ts start store)
    (hserves : Serves deps ts store) (hreports : Reports deps ts) (hlimit : 1 ≤ deps.limit) :
    let round := runNewestWindowBackfill deps lowerAfterTs
    (round.outcome.terminal = .caughtUp → ∀ event ∈ start, (∀ t ∈ lowerAfterTs, t < ts event) →
      event ∈ round.merged) ∧
      round.requests.IsChain Below ∧
        ((store 0).length < deps.maxPages.getD CATCHUP_TAIL_MAX_PAGES →
          round.outcome.terminal = .capHit → Crowded ts deps.limit store) := by
  have hdescends : Descends lowerAfterTs ts store start {} := descends_nil
  obtain ⟨hsettles, hcrowded⟩ :=
    hdescends.settles_loop hgrows hserves hreports hlimit (deps.maxPages.getD CATCHUP_TAIL_MAX_PAGES)
  refine ⟨fun hcaught event hevent hlower => hsettles.merged hcaught event ⟨hevent, hlower⟩,
    hsettles.requests, fun hpages => hcrowded (lt_of_le_of_lt ?_ hpages)⟩
  exact List.countP_le_length

/-! ## Events of one millisecond across pages -/

/-- A backend and a timeline, for a store that nothing is added to. -/
def dependencies (store : List (ℤ × String)) (limit maxPages : ℕ) :
    NewestWindowBackfillDeps (ℤ × String) where
  fetchPage := fun _ afterTs beforeTs =>
    some { events := newest Prod.fst limit (window Prod.fst store afterTs beforeTs) }
  mergePage := fun _ events =>
    { candidateCount := events.length
      minTs := (events.map Prod.fst).min?
      maxTs := (events.map Prod.fst).max? }
  limit := limit
  maxPages := some maxPages

theorem grows_const (store : List (ℤ × String)) : Grows Prod.fst store fun _ => store where
  start := ⟨[], (List.append_nil _).symm, fun _ h => absurd h List.not_mem_nil⟩
  step := fun _ => ⟨[], (List.append_nil _).symm, fun _ h => absurd h List.not_mem_nil⟩

theorem serves_dependencies (store : List (ℤ × String)) (limit maxPages : ℕ) :
    Serves (dependencies store limit maxPages) Prod.fst fun _ => store := by
  intro n afterTs beforeTs page hpage
  obtain rfl := Option.some.inj hpage
  exact Or.inr isNewest_newest

/-- The events of a millisecond are split between pages. -/
def overlapping : List (ℤ × String) := [(1, "a"), (2, "b"), (2, "c"), (3, "d"), (3, "e")]

theorem backfill_settles_overlapping :
    let round := runNewestWindowBackfill (dependencies overlapping 3 7) (some 0)
    (round.outcome.terminal = .caughtUp → ∀ event ∈ overlapping,
      (∀ t ∈ some 0, t < event.1) → event ∈ round.merged) ∧
      round.requests.IsChain Below ∧
        (overlapping.length < 7 → round.outcome.terminal = .capHit →
          Crowded Prod.fst 3 fun _ => overlapping) :=
  backfill_settles Prod.fst (dependencies overlapping 3 7) overlapping (fun _ => overlapping)
    (some 0) (grows_const _) (serves_dependencies _ _ _) (fun _ _ => rfl) (by decide)

example : (runNewestWindowBackfill (dependencies overlapping 3 7) (some 0)).outcome.terminal =
    .caughtUp := by decide +kernel

end Imcodes.Timeline.Backfill
