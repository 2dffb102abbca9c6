import Mathlib.Order.Lattice
import Imcodes.Machine.Runs

/-!
# A shared resource

One value that many components look at, which is fetched, set by hand and declared stale. All who ask
for a fetch share the one that is in flight. When a fetch has been answered its promise stays in
flight for a moment longer, until the `finally` of it runs.

* `settled_run` — a fetch does not touch what was set by hand after it began, and what is not stale
  is from after the last invalidation, as long as no fetch fails that something was set by hand
  after, and none succeeds that began before the last invalidation.

Listeners do not call back, and nothing is disposed of.
-/

namespace Imcodes.Stores

open Machine

/-! ## The resource -/

structure SharedResourceSnapshot (T Err : Type) where
  value : Option T := none
  loaded : Bool := false
  loading : Bool := false
  stale : Bool := false
  error : Option Err := none
deriving DecidableEq

/-- A promise of the fetcher, with the `mutationVersion` at its start. -/
structure Inflight where
  startVersion : ℕ
  /-- It was answered, and is about to be forgotten. -/
  answered : Bool := false
deriving DecidableEq

structure SharedResource (T Err : Type) where
  snapshot : SharedResourceSnapshot T Err := {}
  inflight : Option Inflight := none
  mutationVersion : ℕ := 0
  listeners : List ℕ := []

namespace SharedResource

variable {T Err : Type} (r : SharedResource T Err)

def publish (next : SharedResourceSnapshot T Err) : SharedResource T Err :=
  { r with snapshot := next }

def subscribe (listener : ℕ) : SharedResource T Err :=
  { r with listeners := r.listeners.insert listener }

def unsubscribe (listener : ℕ) : SharedResource T Err :=
  { r with listeners := r.listeners.erase listener }

/-- The value is what the snapshot shows already. -/
def isShown [DecidableEq T] (nextValue : T) : Bool :=
  some nextValue = r.snapshot.value && r.snapshot.loaded && !r.snapshot.loading &&
    !r.snapshot.stale && r.snapshot.error.isNone

def mutate [DecidableEq T] (value : Option T → T) (sourceVersion : Option ℕ := none) :
    SharedResource T Err :=
  if ∃ version ∈ sourceVersion, version < r.mutationVersion then r
  else if r.isShown (value r.snapshot.value) then r
  else
    { r with
      mutationVersion := max (r.mutationVersion + 1) (sourceVersion.getD 0)
      snapshot := { value := some (value r.snapshot.value), loaded := true } }

def startReload (loadingAlreadyPublished : Bool) : SharedResource T Err :=
  match r.inflight with
  | some _ => r
  | none =>
    let loading :=
      if loadingAlreadyPublished then r
      else r.publish { r.snapshot with loading := true, error := none }
    { loading with inflight := some { startVersion := r.mutationVersion } }

def reload : SharedResource T Err := r.startReload false

def invalidate : SharedResource T Err :=
  let hasListeners := !r.listeners.isEmpty
  let published := r.publish
    { r.snapshot with
      stale := true
      loading := if hasListeners then true else r.snapshot.loading
      error := none }
  if hasListeners then published.startReload true else published

/-- `.then((value) => …)` -/
def fulfilled (value : Option T) (fetch : Inflight) : SharedResource T Err :=
  { r with
    inflight := some { fetch with answered := true }
    snapshot :=
      if r.mutationVersion = fetch.startVersion then { value, loaded := true }
      else { r.snapshot with loading := false, error := none } }

/-- `.catch((error) => …)` -/
def rejected (error : Option Err) (fetch : Inflight) : SharedResource T Err :=
  { r with
    inflight := some { fetch with answered := true }
    snapshot := { r.snapshot with loading := false, error } }

/-- `.finally(() => …)` -/
def forget : SharedResource T Err := { r with inflight := none }

/-- The fetch that waits for an answer. -/
def waiting : Option Inflight := r.inflight.filter (!·.answered)

end SharedResource

/-! ## Runs -/

inductive ResourceEvent (T Err : Type)
  | subscribe (listener : ℕ)
  | unsubscribe (listener : ℕ)
  | reload
  | mutate (value : Option T → T)
  | invalidate
  /-- The fetcher answers; a value or an error may be `null`. -/
  | fulfil (value : Option T)
  | reject (error : Option Err)
  | forget

variable {T Err : Type} [DecidableEq T]

namespace SharedResource

def step (r : SharedResource T Err) : ResourceEvent T Err → SharedResource T Err
  | .subscribe listener => r.subscribe listener
  | .unsubscribe listener => r.unsubscribe listener
  | .reload => r.reload
  | .mutate value => r.mutate value
  | .invalidate => r.invalidate
  | .fulfil value => r.waiting.elim r (r.fulfilled value)
  | .reject error => r.waiting.elim r (r.rejected error)
  | .forget => if r.inflight.any (·.answered) then r.forget else r

end SharedResource

/-- A resource, and when what happened to it last; the first event happens at 1. -/
structure Watched (T Err : Type) where
  resource : SharedResource T Err := {}
  clock : ℕ := 0
  mutatedAt : ℕ := 0
  invalidatedAt : ℕ := 0
  fetchStartedAt : ℕ := 0
  /-- When the fetch began, or the mutation was made, that the value is from. -/
  valueFrom : ℕ := 0

namespace Watched

variable (w : Watched T Err)

/-- The event is one that the value of the resource comes from afterwards. -/
def origin (event : ResourceEvent T Err) : ℕ :=
  match event with
  | .mutate value =>
    if w.resource.isShown (value w.resource.snapshot.value) then w.valueFrom else w.clock + 1
  | .fulfil _ =>
    match w.resource.waiting with
    | none => w.valueFrom
    | some fetch =>
      if w.resource.mutationVersion = fetch.startVersion then w.fetchStartedAt else w.valueFrom
  | _ => w.valueFrom

def step (event : ResourceEvent T Err) : Watched T Err where
  resource := w.resource.step event
  clock := w.clock + 1
  mutatedAt :=
    match event with
    | .mutate _ => w.clock + 1
    | _ => w.mutatedAt
  invalidatedAt :=
    match event with
    | .invalidate => w.clock + 1
    | _ => w.invalidatedAt
  fetchStartedAt :=
    if w.resource.inflight.isNone ∧ (w.resource.step event).inflight.isSome then w.clock + 1
    else w.fetchStartedAt
  valueFrom := w.origin event

/-- Something was set by hand since the fetch began. -/
def MutatedSince : Prop := w.fetchStartedAt < w.mutatedAt

/-- An answer to a fetch that began before the latest mutation leaves what that published. -/
def KeepsMutation (event : ResourceEvent T Err) : Prop :=
  match event with
  | .fulfil _ | .reject _ => w.resource.waiting.isSome → w.MutatedSince →
      (w.resource.step event).snapshot.value = w.resource.snapshot.value ∧
        (w.resource.step event).snapshot.error = w.resource.snapshot.error
  | _ => True

/-- What is loaded and not stale, with nothing in flight, is from after the latest invalidation. -/
def IsCurrent : Prop :=
  w.resource.inflight = none → w.resource.snapshot.loaded = true →
    w.resource.snapshot.stale = false → w.invalidatedAt ≤ w.valueFrom

/-- No fetch fails with an error that something was set by hand after, and none succeeds that began
before the latest invalidation, unless something was set by hand after it began. -/
def GoesWell (event : ResourceEvent T Err) : Prop :=
  match event with
  | .reject error => w.resource.waiting.isSome → w.MutatedSince → error = none
  | .fulfil _ => w.resource.waiting.isSome → w.MutatedSince ∨ w.invalidatedAt ≤ w.fetchStartedAt
  | _ => True

end Watched

/-! ## What an event does -/

variable {w : Watched T Err} {event : ResourceEvent T Err} {events : List (ResourceEvent T Err)}
  {fetch : Inflight}

omit [DecidableEq T] in
theorem SharedResource.waiting_eq_some {r : SharedResource T Err} :
    r.waiting = some fetch ↔ r.inflight = some fetch ∧ fetch.answered = false := by
  simp [waiting]

/-- No fetch begins where nothing changes in flight. -/
theorem fetchStartedAt_step
    (h : (w.resource.step event).inflight = w.resource.inflight) :
    (w.step event).fetchStartedAt = w.fetchStartedAt := by
  refine if_neg fun hstart => ?_
  rw [h, Option.isNone_iff_eq_none.1 hstart.1] at hstart
  cases hstart.2

/-- How the versions and the flags go with the fetch that waits. -/
structure Steady (w : Watched T Err) : Prop where
  version : ∀ fetch ∈ w.resource.waiting, fetch.startVersion ≤ w.resource.mutationVersion
  mutated : ∀ fetch ∈ w.resource.waiting, w.MutatedSince →
    fetch.startVersion < w.resource.mutationVersion
  loading : ∀ fetch ∈ w.resource.waiting, fetch.startVersion = w.resource.mutationVersion →
    w.resource.snapshot.loading = true
  error : ∀ fetch ∈ w.resource.waiting, fetch.startVersion < w.resource.mutationVersion →
    w.resource.snapshot.error = none
  mutatedAt : w.mutatedAt ≤ w.clock
  invalidatedAt : w.invalidatedAt ≤ w.clock
  current : w.resource.snapshot.loaded = true → w.resource.snapshot.stale = false →
    w.invalidatedAt ≤ w.valueFrom

omit [DecidableEq T] in
theorem steady_nil : Steady ({} : Watched T Err) where
  version := fun _ h => absurd h (Option.not_mem_none _)
  mutated := fun _ h => absurd h (Option.not_mem_none _)
  loading := fun _ h => absurd h (Option.not_mem_none _)
  error := fun _ h => absurd h (Option.not_mem_none _)
  mutatedAt := Nat.le_refl _
  invalidatedAt := Nat.le_refl _
  current := fun h => absurd h Bool.false_ne_true

namespace Steady

/-- An event that leaves what the resource shows. -/
theorem of_unchanged (h : Steady w) (hsnapshot : (w.resource.step event).snapshot =
      w.resource.snapshot)
    (hinflight : (w.resource.step event).inflight = w.resource.inflight)
    (hversion : (w.resource.step event).mutationVersion = w.resource.mutationVersion)
    (hmutated : (w.step event).mutatedAt = w.mutatedAt)
    (hinvalidated : (w.step event).invalidatedAt = w.invalidatedAt)
    (hvalue : (w.step event).valueFrom = w.valueFrom) : Steady (w.step event) := by
  have hwaiting : (w.step event).resource.waiting = w.resource.waiting :=
    congrArg (Option.filter _) hinflight
  have hstarted := fetchStartedAt_step hinflight
  have hresource : (w.step event).resource = w.resource.step event := rfl
  have hclock : (w.step event).clock = w.clock + 1 := rfl
  constructor
  · rw [hwaiting, hresource, hversion]
    exact h.version
  · rw [hwaiting, hresource, hversion, Watched.MutatedSince, hmutated, hstarted]
    exact h.mutated
  · rw [hwaiting, hresource, hversion, hsnapshot]
    exact h.loading
  · rw [hwaiting, hresource, hversion, hsnapshot]
    exact h.error
  · rw [hmutated, hclock]
    exact Nat.le_succ_of_le h.mutatedAt
  · rw [hinvalidated, hclock]
    exact Nat.le_succ_of_le h.invalidatedAt
  · rw [hresource, hsnapshot, hinvalidated, hvalue]
    exact h.current

/-- A fetch begins with the events until now behind it. -/
theorem of_started (h : Steady w) (hnone : w.resource.inflight = none)
    (hsome : (w.resource.step event).inflight =
      some { startVersion := (w.resource.step event).mutationVersion })
    (hloading : (w.resource.step event).snapshot.loading = true)
    (hmutated : (w.step event).mutatedAt = w.mutatedAt)
    (hinvalidated : (w.step event).invalidatedAt ≤ w.clock + 1)
    (hcurrent : (w.resource.step event).snapshot.loaded = true →
      (w.resource.step event).snapshot.stale = false →
        (w.step event).invalidatedAt ≤ (w.step event).valueFrom) : Steady (w.step event) := by
  have hstarted : (w.step event).fetchStartedAt = w.clock + 1 :=
    if_pos ⟨by rw [hnone]; rfl, by rw [hsome]; rfl⟩
  have hversion : ∀ fetch ∈ (w.step event).resource.waiting,
      fetch.startVersion = (w.step event).resource.mutationVersion := by
    intro fetch hfetch
    have hsame := (SharedResource.waiting_eq_some.1 hfetch).1.symm.trans hsome
    exact congrArg Inflight.startVersion (Option.some.inj hsame)
  have hmutatedAt := h.mutatedAt
  refine ⟨fun fetch hfetch => (hversion fetch hfetch).le, fun fetch _ hsince => ?_,
    fun _ _ _ => hloading, fun fetch hfetch hlt => ?_, ?_, hinvalidated, hcurrent⟩
  · rw [Watched.MutatedSince, hmutated, hstarted] at hsince
    omega
  · exact absurd (hversion fetch hfetch) hlt.ne
  · rw [hmutated]
    exact Nat.le_succ_of_le h.mutatedAt

/-- Nothing waits for an answer any more. -/
theorem of_answered (h : Steady w) (hwaiting : (w.resource.step event).waiting = none)
    (hmutated : (w.step event).mutatedAt = w.mutatedAt)
    (hinvalidated : (w.step event).invalidatedAt = w.invalidatedAt)
    (hcurrent : (w.resource.step event).snapshot.loaded = true →
      (w.resource.step event).snapshot.stale = false →
        w.invalidatedAt ≤ (w.step event).valueFrom) : Steady (w.step event) := by
  have hnone (fetch : Inflight) : fetch ∉ (w.step event).resource.waiting := by
    rw [show (w.step event).resource.waiting = none from hwaiting]
    exact Option.not_mem_none _
  refine ⟨fun fetch h => absurd h (hnone fetch), fun fetch h => absurd h (hnone fetch),
    fun fetch h => absurd h (hnone fetch), fun fetch h => absurd h (hnone fetch), ?_, ?_, ?_⟩
  · exact hmutated ▸ Nat.le_succ_of_le h.mutatedAt
  · exact hinvalidated ▸ Nat.le_succ_of_le h.invalidatedAt
  · exact hinvalidated ▸ hcurrent

theorem reload (h : Steady w) : Steady (w.step .reload) := by
  cases hinflight : w.resource.inflight with
  | some fetch =>
    have hsame : w.resource.step .reload = w.resource := by
      simp only [SharedResource.step, SharedResource.reload, SharedResource.startReload, hinflight]
    exact h.of_unchanged (congrArg _ hsame) (congrArg _ hsame) (congrArg _ hsame) rfl rfl rfl
  | none =>
    refine h.of_started hinflight ?_ ?_ rfl (Nat.le_succ_of_le h.invalidatedAt) ?_ <;>
      simp only [SharedResource.step, SharedResource.reload, SharedResource.startReload, hinflight]
    · rfl
    · rfl
    · exact h.current

/-- What the fetch in flight brings will not count. -/
theorem of_mutated (h : Steady w)
    (hinflight : (w.resource.step event).inflight = w.resource.inflight)
    (hversion : ∀ fetch ∈ w.resource.waiting,
      fetch.startVersion < (w.resource.step event).mutationVersion)
    (herror : (w.resource.step event).snapshot.error = none)
    (hmutated : (w.step event).mutatedAt = w.clock + 1)
    (hinvalidated : (w.step event).invalidatedAt = w.invalidatedAt)
    (hcurrent : (w.resource.step event).snapshot.loaded = true →
      (w.resource.step event).snapshot.stale = false →
        w.invalidatedAt ≤ (w.step event).valueFrom) : Steady (w.step event) := by
  have hwaiting : (w.step event).resource.waiting = w.resource.waiting :=
    congrArg (Option.filter _) hinflight
  refine ⟨?_, ?_, ?_, fun _ _ _ => herror, ?_, ?_, ?_⟩
  · rw [hwaiting]
    exact fun fetch hfetch => (hversion fetch hfetch).le
  · rw [hwaiting]
    exact fun fetch hfetch _ => hversion fetch hfetch
  · rw [hwaiting]
    exact fun fetch hfetch heq => absurd heq (hversion fetch hfetch).ne
  · exact hmutated.le
  · exact hinvalidated ▸ Nat.le_succ_of_le h.invalidatedAt
  · exact hinvalidated ▸ hcurrent

theorem mutate (h : Steady w) (value : Option T → T) : Steady (w.step (.mutate value)) := by
  have horigin : (w.step (.mutate value)).valueFrom =
      if w.resource.isShown (value w.resource.snapshot.value) then w.valueFrom
      else w.clock + 1 := rfl
  cases hshown : w.resource.isShown (value w.resource.snapshot.value) with
  | true =>
    have hsame : w.resource.step (.mutate value) = w.resource := by
      simp [SharedResource.step, SharedResource.mutate, hshown]
    have hflags : w.resource.snapshot.loading = false ∧ w.resource.snapshot.error = none := by
      simp only [SharedResource.isShown, Bool.and_eq_true, Bool.not_eq_true',
        Option.isNone_iff_eq_none] at hshown
      exact ⟨hshown.1.1.2, hshown.2⟩
    rw [if_pos hshown] at horigin
    refine h.of_mutated (congrArg _ hsame) (fun fetch hfetch => ?_) ?_ rfl rfl ?_
    · rw [hsame]
      refine lt_of_le_of_ne (h.version fetch hfetch) fun heq => ?_
      have hloading := h.loading fetch hfetch heq
      rw [hflags.1] at hloading
      cases hloading
    · rw [hsame]
      exact hflags.2
    · rw [hsame, horigin]
      exact h.current
  | false =>
    have hnext : w.resource.step (.mutate value) =
        { w.resource with
          mutationVersion := w.resource.mutationVersion + 1
          snapshot :=
            { value := some (value w.resource.snapshot.value), loaded := true } } := by
      simp [SharedResource.step, SharedResource.mutate, hshown]
    rw [hshown, if_neg Bool.false_ne_true] at horigin
    refine h.of_mutated ?_ (fun fetch hfetch => ?_) ?_ rfl rfl fun _ _ => ?_
    · rw [hnext]
    · rw [hnext]
      exact Nat.lt_succ_of_le (h.version fetch hfetch)
    · rw [hnext]
    · rw [horigin]
      exact Nat.le_succ_of_le h.invalidatedAt

/-- The value is stale, and no fetch begins. -/
theorem of_stale (h : Steady w)
    (hinflight : (w.resource.step event).inflight = w.resource.inflight)
    (hversion : (w.resource.step event).mutationVersion = w.resource.mutationVersion)
    (hloading : w.resource.snapshot.loading = true →
      (w.resource.step event).snapshot.loading = true)
    (herror : (w.resource.step event).snapshot.error = none)
    (hstale : (w.resource.step event).snapshot.stale = true)
    (hmutated : (w.step event).mutatedAt = w.mutatedAt)
    (hinvalidated : (w.step event).invalidatedAt ≤ w.clock + 1) : Steady (w.step event) := by
  have hwaiting : (w.step event).resource.waiting = w.resource.waiting :=
    congrArg (Option.filter _) hinflight
  have hstarted := fetchStartedAt_step hinflight
  have hresource : (w.step event).resource = w.resource.step event := rfl
  refine ⟨?_, ?_, ?_, fun _ _ _ => herror, ?_, hinvalidated, fun _ h => ?_⟩
  · rw [hwaiting, hresource, hversion]
    exact h.version
  · rw [hwaiting, hresource, hversion, Watched.MutatedSince, hmutated, hstarted]
    exact h.mutated
  · rw [hwaiting, hresource, hversion]
    exact fun fetch hfetch heq => hloading (h.loading fetch hfetch heq)
  · exact hmutated ▸ Nat.le_succ_of_le h.mutatedAt
  · rw [hresource, hstale] at h
    cases h

theorem invalidate (h : Steady w) : Steady (w.step .invalidate) := by
  cases hlisteners : w.resource.listeners.isEmpty with
  | true =>
    have hnext : w.resource.step .invalidate =
        w.resource.publish { w.resource.snapshot with stale := true, error := none } := by
      simp [SharedResource.step, SharedResource.invalidate, hlisteners]
    refine h.of_stale ?_ ?_ ?_ ?_ ?_ rfl (Nat.le_refl _) <;> rw [hnext] <;>
      simp only [SharedResource.publish, imp_self]
  | false =>
    cases hinflight : w.resource.inflight with
    | some fetch =>
      have hnext : w.resource.step .invalidate = w.resource.publish
          { w.resource.snapshot with stale := true, loading := true, error := none } := by
        simp [SharedResource.step, SharedResource.invalidate, hlisteners,
          SharedResource.startReload, SharedResource.publish, hinflight]
      refine h.of_stale ?_ ?_ ?_ ?_ ?_ rfl (Nat.le_refl _) <;> rw [hnext] <;>
        simp only [SharedResource.publish, implies_true]
    | none =>
      have hnext : w.resource.step .invalidate =
          { w.resource with
            inflight := some { startVersion := w.resource.mutationVersion }
            snapshot :=
              { w.resource.snapshot with stale := true, loading := true, error := none } } := by
        simp [SharedResource.step, SharedResource.invalidate, hlisteners,
          SharedResource.startReload, SharedResource.publish, hinflight]
      refine h.of_started hinflight ?_ ?_ rfl (Nat.le_refl _) fun _ hstale => ?_
      · rw [hnext]
      · rw [hnext]
      · rw [hnext] at hstale
        cases hstale

theorem fulfil (h : Steady w) (value : Option T) (hwell : w.GoesWell (.fulfil value)) :
    Steady (w.step (.fulfil value)) := by
  cases hwaiting : w.resource.waiting with
  | none =>
    have hsame : w.resource.step (.fulfil value) = w.resource := by
      simp only [SharedResource.step, hwaiting, Option.elim_none]
    refine h.of_unchanged (congrArg _ hsame) (congrArg _ hsame) (congrArg _ hsame) rfl rfl ?_
    simp only [Watched.step, Watched.origin, hwaiting]
  | some fetch =>
    have hnext : w.resource.step (.fulfil value) = w.resource.fulfilled value fetch := by
      simp only [SharedResource.step, hwaiting, Option.elim_some]
    have horigin : (w.step (.fulfil value)).valueFrom =
        if w.resource.mutationVersion = fetch.startVersion then w.fetchStartedAt
        else w.valueFrom := by
      simp only [Watched.step, Watched.origin, hwaiting]
    refine h.of_answered ?_ rfl rfl ?_
    · rw [hnext]
      rfl
    · rw [hnext, horigin, SharedResource.fulfilled]
      dsimp only
      split
      · rename_i hversion
        have hsince : ¬w.MutatedSince := fun hsince =>
          absurd hversion (h.mutated fetch hwaiting hsince).ne'
        exact fun _ _ => (hwell (hwaiting ▸ rfl)).resolve_left hsince
      · exact h.current

theorem reject (h : Steady w) (error : Option Err) : Steady (w.step (.reject error)) := by
  cases hwaiting : w.resource.waiting with
  | none =>
    have hsame : w.resource.step (.reject error) = w.resource := by
      simp only [SharedResource.step, hwaiting, Option.elim_none]
    exact h.of_unchanged (congrArg _ hsame) (congrArg _ hsame) (congrArg _ hsame) rfl rfl rfl
  | some fetch =>
    have hnext : w.resource.step (.reject error) = w.resource.rejected error fetch := by
      simp only [SharedResource.step, hwaiting, Option.elim_some]
    refine h.of_answered ?_ rfl rfl ?_
    · rw [hnext]
      rfl
    · rw [hnext]
      exact h.current

theorem forget (h : Steady w) : Steady (w.step .forget) := by
  cases hanswered : w.resource.inflight.any (·.answered) with
  | true =>
    have hnext : w.resource.step .forget = w.resource.forget := if_pos hanswered
    refine h.of_answered ?_ rfl rfl ?_
    · rw [hnext]
      rfl
    · rw [hnext]
      exact h.current
  | false =>
    have hsame : w.resource.step .forget = w.resource :=
      if_neg (Bool.eq_false_iff.1 hanswered)
    exact h.of_unchanged (congrArg _ hsame) (congrArg _ hsame) (congrArg _ hsame) rfl rfl rfl

/-- **Every event** that goes well. -/
theorem step (h : Steady w) (hwell : w.GoesWell event) : Steady (w.step event) := by
  cases event with
  | subscribe | unsubscribe => exact h.of_unchanged rfl rfl rfl rfl rfl rfl
  | reload => exact h.reload
  | mutate value => exact h.mutate value
  | invalidate => exact h.invalidate
  | fulfil value => exact h.fulfil value hwell
  | reject error => exact h.reject error
  | forget => exact h.forget

/-- An answer leaves what was set by hand since the fetch began. -/
theorem keepsMutation (h : Steady w) (hwell : w.GoesWell event) : w.KeepsMutation event := by
  cases event with
  | fulfil value =>
    intro hsome hsince
    obtain ⟨fetch, hwaiting⟩ := Option.isSome_iff_exists.1 hsome
    have hlt := h.mutated fetch hwaiting hsince
    have hnext : w.resource.step (.fulfil value) = w.resource.fulfilled value fetch := by
      simp only [SharedResource.step, hwaiting, Option.elim_some]
    rw [hnext, SharedResource.fulfilled]
    dsimp only
    rw [if_neg hlt.ne']
    exact ⟨rfl, (h.error fetch hwaiting hlt).symm⟩
  | reject error =>
    intro hsome hsince
    obtain ⟨fetch, hwaiting⟩ := Option.isSome_iff_exists.1 hsome
    have hlt := h.mutated fetch hwaiting hsince
    have hnext : w.resource.step (.reject error) = w.resource.rejected error fetch := by
      simp only [SharedResource.step, hwaiting, Option.elim_some]
    rw [hnext, h.error fetch hwaiting hlt]
    exact ⟨rfl, hwell hsome hsince⟩
  | subscribe | unsubscribe | reload | mutate | invalidate | forget => trivial

end Steady

/-! ## Runs -/

/-- **A resource never settles on outdated data**, in a run in which no fetch fails after something
was set by hand since it began, and none that began before the latest invalidation succeeds. -/
theorem settled_run (events : List (ResourceEvent T Err))
    (h : Along Watched.step Watched.GoesWell events {}) :
    Along Watched.step Watched.KeepsMutation events {} ∧
      ∀ before, before <+: events → (run Watched.step before ({} : Watched T Err)).IsCurrent := by
  refine ⟨along_iff.2 fun before event hpre => ?_, fun before hpre => ?_⟩
  · obtain ⟨after, rfl⟩ := hpre
    obtain ⟨hbefore, hevent⟩ := along_append.1 (along_append.1 h).1
    have hsteady : Steady (run Watched.step before ({} : Watched T Err)) :=
      run_invariant Steady (fun _ _ h hwell => h.step hwell) steady_nil hbefore
    exact hsteady.keepsMutation hevent.1
  · obtain ⟨after, rfl⟩ := hpre
    have hsteady : Steady (run Watched.step before ({} : Watched T Err)) :=
      run_invariant Steady (fun _ _ h hwell => h.step hwell) steady_nil (along_append.1 h).1
    exact fun _ => hsteady.current

/-! ## Fetches that come too late -/

instance : Decidable w.MutatedSince := inferInstanceAs (Decidable (_ < _))

instance [DecidableEq Err] : DecidablePred w.GoesWell := fun event => by
  cases event <;> unfold Watched.GoesWell <;> infer_instance

instance [DecidableEq Err] : DecidablePred w.KeepsMutation := fun event => by
  cases event <;> unfold Watched.KeepsMutation <;> infer_instance

instance : Decidable w.IsCurrent := by
  unfold Watched.IsCurrent
  infer_instance

/-- A fetch that a mutation overtakes, and one for an invalidation. -/
def overtaken : List (ResourceEvent ℕ String) :=
  [.subscribe 0, .reload, .mutate fun _ => 5, .fulfil (some 1), .forget, .invalidate,
    .fulfil (some 7), .forget]

theorem settled_run_overtaken :
    Along Watched.step Watched.KeepsMutation overtaken {} ∧
      ∀ before, before <+: overtaken →
        (run Watched.step before ({} : Watched ℕ String)).IsCurrent :=
  settled_run overtaken (by decide +kernel)

/-- The failure of an older fetch shows after a mutation, and an invalidation is answered by the
fetch that was in flight before it. -/
theorem not_settled_run :
    (¬∀ events : List (ResourceEvent ℕ String),
      Along Watched.step Watched.KeepsMutation events {}) ∧
      ¬∀ events : List (ResourceEvent ℕ String),
        (run Watched.step events ({} : Watched ℕ String)).IsCurrent :=
  ⟨fun h => absurd (h [.reload, .mutate fun _ => 5, .reject (some "offline")]) (by decide +kernel),
    fun h => absurd (h [.subscribe 0, .reload, .invalidate, .fulfil (some 1), .forget])
      (by decide +kernel)⟩

end Imcodes.Stores
