import Imcodes.Context.Replication

/-!
# What is pending is remembered

A list that is written is made of one that was read before.  What was pending then is on
it, but for what a successful post has contained since.  What was committed in between is
not, unless the call knows of it.

* `Sound.step` — a step that forgets nothing keeps the list, and what the calls hold.
* `remembers_iff` — a run remembers all along exactly when none of its steps forgets.
* `not_remembers` — two materializations read the list at the same time.
-/

namespace Imcodes.Context

open Machine

variable {setting : Setting}

/-! ## Commits -/

theorem mem_of_write {processed processed' : List ProcessedContextProjection}
    {input : WriteProcessedProjectionInput} {randomUUID id : String}
    (h : writeProcessedProjectionForDb setting processed input randomUUID =
      some (processed', id)) :
    id ∈ processed'.map (·.id) ∧ processed.map (·.id) ⊆ processed'.map (·.id) := by
  rw [writeProcessedProjectionForDb] at h
  split at h
  · rename_i prior hprior
    cases h
    have hids : (processed.map fun p =>
        if p.id = prior.id then { p with summary := input.summary } else p).map (·.id) =
          processed.map (·.id) := by
      rw [List.map_map]
      refine List.map_congr_left fun p _ => ?_
      by_cases hid : p.id = prior.id
      · simp only [Function.comp, if_pos hid]
      · simp only [Function.comp, if_neg hid]
    rw [hids]
    exact ⟨List.mem_map_of_mem (List.mem_of_find?_eq_some hprior), fun _ hmem => hmem⟩
  · split at h
    · cases h
    · cases h
      rw [List.map_append]
      exact ⟨List.mem_append_right _ (List.mem_singleton_self _), List.subset_append_left _ _⟩

theorem mem_of_writeProjections {processed processed' : List ProcessedContextProjection}
    {input : MaterializationCommitInput} {summaryId durableId : String} {written : List String}
    (h : writeProjections setting processed input summaryId durableId =
      some (processed', written)) :
    written ⊆ processed'.map (·.id) ∧ processed.map (·.id) ⊆ processed'.map (·.id) := by
  rw [writeProjections] at h
  cases hsummary : writeProcessedProjectionForDb setting processed input.summaryProjection
      summaryId with
  | none =>
    rw [hsummary] at h
    cases h
  | some result =>
    obtain ⟨processed₁, summary⟩ := result
    obtain ⟨hmem, hsub⟩ := mem_of_write hsummary
    rw [hsummary] at h
    dsimp only at h
    cases hinput : input.durableProjection with
    | none =>
      rw [hinput] at h
      cases h
      exact ⟨fun id hid => List.mem_singleton.1 hid ▸ hmem, hsub⟩
    | some durable =>
      rw [hinput] at h
      obtain ⟨⟨processed₂, durableId'⟩, hwrite, hids⟩ := Option.map_eq_some_iff.1 h
      cases hids
      obtain ⟨hmem', hsub'⟩ := mem_of_write hwrite
      refine ⟨fun id hid => ?_, fun id hid => hsub' (hsub hid)⟩
      rcases List.mem_cons.1 hid with rfl | hid
      · exact hsub' hmem
      · exact List.mem_singleton.1 hid ▸ hmem'

/-- What a commit leaves: the list that it was given and what it wrote. -/
theorem of_commit {store store' : ContextStore} {input : MaterializationCommitInput}
    {summaryId durableId : String} {written : List String}
    (h : commitMaterialization setting store input summaryId durableId = some (store', written)) :
    (∀ id, id ∈ store'.pendingProjectionIds ↔
      id ∈ input.priorPendingProjectionIds ∨ id ∈ written) ∧
      written ⊆ store'.processedIds ∧ store.processedIds ⊆ store'.processedIds := by
  obtain ⟨⟨processed, ids⟩, hwrite, heq⟩ := Option.map_eq_some_iff.1 h
  cases heq
  refine ⟨fun id => ?_, mem_of_writeProjections hwrite⟩
  simp only [ContextStore.pendingProjectionIds, Option.map_some, Option.getD_some,
    List.mem_eraseDups, List.mem_append]

/-! ## What calls hold -/

/-- The lists that a call will write, or make one of. -/
def Phase.lists : Phase → List (List String)
  | .committing input _ => [input.priorPendingProjectionIds]
  | .selecting state | .selected state _ | .posting state _ _ => [state.pendingProjectionIds]
  | .recording state next _ => [state.pendingProjectionIds, next.pendingProjectionIds]
  | .requeueing ids => [ids]
  | .resetting next => [next.pendingProjectionIds]

namespace Daemon

/-- The projection was committed, and no successful post since has contained it. -/
def Waiting (d : Daemon) (id : String) : Prop := d.delivered id < d.commits id

instance (d : Daemon) (id : String) : Decidable (d.Waiting id) :=
  inferInstanceAs (Decidable (_ < _))

/-- **What waits is pending.** -/
def Remembers (d : Daemon) : Prop := ∀ id, d.Waiting id → id ∈ d.store.pendingProjectionIds

/-- The list that an event writes, and the call that it is a step of. -/
def writes (setting : Setting) (d : Daemon) (event : ReplicationEvent) :
    Option (Call × List String) :=
  (d.calls.get? event.call).bind fun call =>
    match call.phase, event with
    | .committing input _, .commit _ summaryId durableId _ =>
        (commitMaterialization setting d.store input summaryId durableId).map fun (store, _) =>
          (call, store.pendingProjectionIds)
    | .recording _ next _, .setState _ => some (call, next.pendingProjectionIds)
    | .resetting next, .setState _ => some (call, next.pendingProjectionIds)
    | _, _ => none

/-- A list is written without a projection that was committed since the call read it,
and that still waits. -/
def Forgets (setting : Setting) (d : Daemon) (event : ReplicationEvent) : Prop :=
  ∃ call ids, d.writes setting event = some (call, ids) ∧
    ∃ id, call.seen id < d.commits id ∧ d.Waiting id ∧ id ∉ ids

/-- What a call holds: what waits and was not committed since is on its lists. -/
structure Holds (d : Daemon) (call : Call) : Prop where
  seen_le : ∀ id, call.seen id ≤ d.commits id
  lists : ∀ ids ∈ call.phase.lists, ∀ id, d.commits id = call.seen id → d.Waiting id → id ∈ ids
  made : ∀ state projections made, call.phase = .posting state projections made →
    ∀ id, call.seen id ≤ made id

structure Sound (d : Daemon) : Prop where
  remembers : d.Remembers
  stored : ∀ id, 0 < d.commits id → id ∈ d.store.processedIds
  calls : ∀ n call, d.calls.get? n = some call → d.Holds call

variable {d d' : Daemon} {call : Call} {n : ℕ} {event : ReplicationEvent}

/-- What a call holds stays right while others commit and post. -/
theorem Holds.mono (h : d.Holds call) (hcommits : ∀ id, d.commits id ≤ d'.commits id)
    (hdelivered : ∀ id, d.delivered id ≤ d'.delivered id) : d'.Holds call := by
  refine ⟨fun id => (h.seen_le id).trans (hcommits id), fun ids hids id hseen hwaiting => ?_,
    h.made⟩
  have hsame : d.commits id = call.seen id := by
    have := h.seen_le id
    have := hcommits id
    omega
  refine h.lists ids hids id hsame ?_
  have := hdelivered id
  rw [Waiting] at hwaiting ⊢
  omega

theorem get?_continueWith {seen : String → ℕ} {phase : Option Phase} {m : ℕ}
    (h : (d.continueWith n seen phase).calls.get? m = some call) :
    d.calls.get? m = some call ∨ ∃ p, phase = some p ∧ call = { phase := p, seen } := by
  cases phase with
  | none =>
    change (d.calls.delete n).get? m = some call at h
    rw [OrderedMap.get?_delete] at h
    split at h
    · cases h
    · exact Or.inl h
  | some p =>
    change (d.calls.set n { phase := p, seen }).get? m = some call at h
    rw [OrderedMap.get?_set] at h
    split at h
    · exact Or.inr ⟨p, rfl, (Option.some.inj h).symm⟩
    · exact Or.inl h

/-- A step after which a call goes on with a phase that is right. -/
theorem Sound.continueWith (h : d.Sound) (seen : String → ℕ) (phase : Option Phase)
    (store : ContextStore) {commits delivered : String → ℕ}
    (hcommits : ∀ id, d.commits id ≤ commits id)
    (hdelivered : ∀ id, d.delivered id ≤ delivered id)
    (hremembers : ∀ id, delivered id < commits id → id ∈ store.pendingProjectionIds)
    (hstored : ∀ id, 0 < commits id → id ∈ store.processedIds)
    (hphase : ∀ p, phase = some p →
      Holds { d with store, commits, delivered } { phase := p, seen }) :
    Sound { d.continueWith n seen phase with store, commits, delivered } := by
  refine ⟨hremembers, hstored, fun m other hother => ?_⟩
  rcases get?_continueWith hother with hold | ⟨p, hp, rfl⟩
  · exact (h.calls m other hold).mono hcommits hdelivered
  · exact ⟨(hphase p hp).seen_le, (hphase p hp).lists, (hphase p hp).made⟩

/-- A call goes on, and nothing else happens. -/
theorem Sound.goesOn (h : d.Sound) {seen : String → ℕ} {phase : Option Phase}
    (hphase : ∀ p, phase = some p → d.Holds { phase := p, seen }) :
    (d.continueWith n seen phase).Sound := by
  have hsame := h.continueWith (n := n) seen phase d.store (fun _ => le_rfl) (fun _ => le_rfl)
    h.remembers h.stored hphase
  cases phase <;> exact hsame

/-- A call goes on with lists that it holds already. -/
theorem Holds.of_lists {seen : String → ℕ} {phase phase' : Phase}
    (h : d.Holds { phase, seen }) (hlists : ∀ ids ∈ phase'.lists, ids ∈ phase.lists)
    (hmade : ∀ state projections made, phase' = .posting state projections made →
      ∀ id, seen id ≤ made id) : d.Holds { phase := phase', seen } :=
  ⟨h.seen_le, fun ids hids => h.lists ids (hlists ids hids), hmade⟩

/-- A call that holds nothing but what is pending, or more, begins. -/
theorem Sound.begin (h : d.Sound) {phase : Phase}
    (hlists : ∀ ids ∈ phase.lists, ∀ id, d.Waiting id → id ∈ ids)
    (hmade : ∀ state projections made, phase ≠ .posting state projections made) :
    (d.begin n phase).Sound := by
  rw [Daemon.begin]
  split
  · exact h
  · refine h.goesOn fun p hp => ?_
    cases hp
    exact ⟨fun id => le_rfl, fun ids hids id _ => hlists ids hids id,
      fun state projections made hphase => absurd hphase (hmade state projections made)⟩

section Resume

variable {seen : String → ℕ}

/-- **A commit** puts what it wrote on the list. -/
theorem Sound.commit (h : d.Sound) {input : MaterializationCommitInput} {isReady : Bool}
    (hholds : d.Holds { phase := .committing input isReady, seen }) {phase : Option Phase}
    (hphase : ∀ p, phase = some p → p = .committing input false) {summaryId durableId : String}
    {store : ContextStore} {written : List String}
    (hcommit : commitMaterialization setting d.store input summaryId durableId =
      some (store, written))
    (hknown : ∀ id, seen id < d.commits id → d.Waiting id → id ∈ store.pendingProjectionIds) :
    Sound { d.continueWith n seen phase with
      store
      commits := fun id => if id ∈ written then d.commits id + 1 else d.commits id } := by
  obtain ⟨hpending, hwritten, hkept⟩ := of_commit hcommit
  have hcommits (id : String) :
      d.commits id ≤ if id ∈ written then d.commits id + 1 else d.commits id := by
    split
    · exact Nat.le_succ _
    · exact le_rfl
  have hall := h.continueWith (n := n) seen phase store hcommits (fun _ => le_rfl)
    (fun id hwaiting => ?_) (fun id hpos => ?_) (fun p hp => ?_)
  · cases phase <;> exact hall
  · by_cases hid : id ∈ written
    · exact (hpending id).2 (Or.inr hid)
    · rw [if_neg hid] at hwaiting
      rcases Nat.lt_or_eq_of_le (hholds.seen_le id) with hlt | heq
      · exact hknown id hlt hwaiting
      · exact (hpending id).2 (Or.inl (hholds.lists _ (List.mem_singleton_self _) id heq.symm
          hwaiting))
  · by_cases hid : id ∈ written
    · exact hwritten hid
    · rw [if_neg hid] at hpos
      exact hkept (h.stored id hpos)
  · cases hphase p hp
    have hmono : Holds { d with
        store
        commits := fun id => if id ∈ written then d.commits id + 1 else d.commits id }
        { phase := .committing input isReady, seen } := hholds.mono hcommits fun _ => le_rfl
    exact hmono.of_lists (fun ids hids => hids) (fun state projections made heq => nomatch heq)

/-- **The state is set** by a call that knows what was committed since it read it. -/
theorem Sound.setState (h : d.Sound) {phase : Phase} (hholds : d.Holds { phase, seen })
    {next : ContextReplicationState} (hnext : next.pendingProjectionIds ∈ phase.lists)
    (hknown : ∀ id, seen id < d.commits id → d.Waiting id → id ∈ next.pendingProjectionIds) :
    Sound { d.continueWith n seen none with
      store := { d.store with replicationState := some next } } := by
  refine h.continueWith (n := n) seen none _ (fun _ => le_rfl)
    (fun _ => le_rfl) (fun id hwaiting => ?_) h.stored (fun p hp => nomatch hp)
  change id ∈ next.pendingProjectionIds
  rcases Nat.lt_or_eq_of_le (hholds.seen_le id) with hlt | heq
  · exact hknown id hlt hwaiting
  · exact hholds.lists _ hnext id heq.symm hwaiting

/-- **A post is settled**: if it was successful, what it contained does not wait, unless it
was committed since the post was made. -/
theorem Sound.settle (h : d.Sound) {state : ContextReplicationState}
    {projections : List ProcessedContextProjection} {made : String → ℕ}
    (hholds : d.Holds { phase := .posting state projections made, seen }) {now : ℤ}
    {error : Option String} :
    Sound { d.continueWith n seen (some (settledPhase state projections now error)) with
      delivered := fun id =>
        if error = none ∧ id ∈ projections.map (·.id) then max (d.delivered id) (made id)
        else d.delivered id } := by
  have hdelivered (id : String) : d.delivered id ≤
      if error = none ∧ id ∈ projections.map (·.id) then max (d.delivered id) (made id)
      else d.delivered id := by
    split
    · exact Nat.le_max_left _ _
    · exact le_rfl
  refine h.continueWith (n := n) seen _ d.store (fun _ => le_rfl) hdelivered
    (fun id hwaiting => h.remembers id (lt_of_le_of_lt (hdelivered id) hwaiting)) h.stored
    (fun p hp => ?_)
  cases hp
  refine ⟨hholds.seen_le, fun ids hids id hseen hwaiting => ?_, fun _ _ _ heq => ?_⟩
  · have hstate : id ∈ state.pendingProjectionIds :=
      hholds.lists _ (List.mem_singleton_self _) id hseen
        (lt_of_le_of_lt (hdelivered id) hwaiting)
    cases error with
    | some message =>
      rcases List.mem_cons.1 hids with rfl | hids
      · exact hstate
      · rwa [List.mem_singleton.1 hids]
    | none =>
      rcases List.mem_cons.1 hids with rfl | hids
      · exact hstate
      · rw [List.mem_singleton.1 hids]
        refine List.mem_filter.2 ⟨hstate, decide_eq_true fun hmem => ?_⟩
        -- it was posted as it was when the call read the list, and so it does not wait
        have hmade : seen id ≤ made id := hholds.made state projections made rfl id
        have hsame : d.commits id = seen id := hseen
        simp only [Waiting, hmem, and_true, if_true] at hwaiting
        have hlt : max (d.delivered id) (made id) < d.commits id := hwaiting
        have hmax := Nat.le_max_right (d.delivered id) (made id)
        omega
  · cases error <;> cases heq

theorem Sound.resume (h : d.Sound) {phase : Phase}
    (hcall : d.calls.get? event.call = some { phase, seen }) (hforget : ¬ d.Forgets setting event) :
    (d.resume setting event.call seen phase event).Sound := by
  have hholds := h.calls _ _ hcall
  have hknown (ids : List String)
      (hwrites : d.writes setting event = some ({ phase, seen }, ids)) (id : String)
      (hseen : seen id < d.commits id) (hwaiting : d.Waiting id) : id ∈ ids :=
    of_not_not fun hid => hforget ⟨_, ids, hwrites, id, hseen, hwaiting, hid⟩
  have hover : (d.continueWith event.call seen none).Sound := h.goesOn fun p hp => nomatch hp
  have hwrites : d.writes setting event = _ := congrArg (Option.bind · _) hcall
  cases phase with
  | committing input isReady =>
    have hretried : ∀ p, retriedPhase input isReady = some p → p = .committing input false := by
      intro p hp
      rw [retriedPhase] at hp
      split at hp
      · exact (Option.some.inj hp).symm
      · cases hp
    have hretry : (d.continueWith event.call seen (retriedPhase input isReady)).Sound := by
      refine h.goesOn fun p hp => ?_
      rw [hretried p hp]
      exact hholds.of_lists (fun ids hids => hids) (fun _ _ _ heq => by cases heq)
    cases event with
    | commit n summaryId durableId answered =>
      rw [Daemon.resume]
      cases hcommit : commitMaterialization setting d.store input summaryId durableId with
      | none => exact hretry
      | some result =>
        obtain ⟨store, written⟩ := result
        refine h.commit hholds (fun p hp => ?_) hcommit (hknown _ ?_)
        · split at hp
          · cases hp
          · exact hretried p hp
        · rw [hwrites]
          simp only [Option.bind_some, hcommit, Option.map_some]
    | fail n message => exact hretry
    | _ => exact h
  | selecting state =>
    cases event with
    | select n =>
      rw [Daemon.resume]
      refine h.goesOn fun p hp => ?_
      rw [selectedPhase] at hp
      split at hp
      · cases hp
      · split at hp
        · cases hp
          refine hholds.of_lists (fun ids hids => ?_) (fun _ _ _ heq => by cases heq)
          rcases List.mem_cons.1 hids with rfl | hids
          · exact List.mem_singleton_self _
          · exact hids
        · cases hp
          exact hholds.of_lists (fun ids hids => hids) (fun _ _ _ heq => by cases heq)
    | fail n message => exact hover
    | _ => exact h
  | selected state projections =>
    cases event with
    | post n =>
      rw [Daemon.resume]
      refine h.goesOn fun p hp => ?_
      cases hp
      refine hholds.of_lists (fun ids hids => hids) (fun _ _ _ heq => ?_)
      cases heq
      exact hholds.seen_le
    | _ => exact h
  | posting state projections made =>
    cases event with
    | settle n now error => exact h.settle hholds
    | _ => exact h
  | recording state next succeeded =>
    cases event with
    | setState n =>
      exact h.setState hholds (List.mem_cons_of_mem _ (List.mem_singleton_self _))
        (hknown _ hwrites)
    | fail n message =>
      cases succeeded with
      | false => exact hover
      | true =>
        rw [Daemon.resume]
        refine h.goesOn fun p hp => ?_
        cases hp
        refine hholds.of_lists (fun ids hids => ?_) (fun _ _ _ heq => by cases heq)
        rcases List.mem_cons.1 hids with rfl | hids
        · exact List.mem_cons_self
        · rw [List.mem_singleton.1 hids]
          exact List.mem_cons_self
    | _ => exact h
  | requeueing ids =>
    cases event with
    | readState n =>
      rw [Daemon.resume]
      refine h.goesOn fun p hp => ?_
      cases hp
      exact hholds.of_lists (fun ids hids => hids) (fun _ _ _ heq => by cases heq)
    | fail n message => exact hover
    | _ => exact h
  | resetting next =>
    cases event with
    | setState n => exact h.setState hholds (List.mem_singleton_self _) (hknown _ hwrites)
    | fail n message => exact hover
    | _ => exact h

end Resume

/-! ## Steps and runs -/

/-- What an event makes of the call that it is about. -/
def resumed (d : Daemon) (setting : Setting) (event : ReplicationEvent) : Daemon :=
  match d.calls.get? event.call with
  | none => d
  | some call => d.resume setting event.call call.seen call.phase event

theorem resumed_of_get? {call : Call} (hcall : d.calls.get? event.call = some call) :
    d.resumed setting event = d.resume setting event.call call.seen call.phase event := by
  rw [resumed, hcall]

/-- **A step that forgets nothing** keeps what is pending, and what the calls hold. -/
theorem Sound.step (h : d.Sound) (hforget : ¬ d.Forgets setting event) :
    (d.step setting event).Sound := by
  have hresume : (d.resumed setting event).Sound := by
    cases hcall : d.calls.get? event.call with
    | none =>
      rw [resumed, hcall]
      exact h
    | some call =>
      rw [resumed_of_get? hcall]
      exact h.resume hcall hforget
  cases event with
  | materialize n summary durable isReady =>
    refine h.begin (fun ids hids id hwaiting => ?_) (fun _ _ _ heq => by cases heq)
    rw [List.mem_singleton.1 hids]
    exact h.remembers id hwaiting
  | replicate n syncs =>
    rw [Daemon.step]
    cases hstate : d.store.replicationState with
    | none => exact h
    | some state =>
      dsimp only
      split
      · exact h
      · refine h.begin (fun ids hids id hwaiting => ?_) (fun _ _ _ heq => by cases heq)
        rw [List.mem_singleton.1 hids]
        have hpending := h.remembers id hwaiting
        rwa [ContextStore.pendingProjectionIds, hstate] at hpending
  | requeue n =>
    rw [Daemon.step]
    split
    · exact h
    · refine h.begin (fun ids hids id hwaiting => ?_) (fun _ _ _ heq => by cases heq)
      rw [List.mem_singleton.1 hids]
      exact h.stored id (Nat.zero_lt_of_lt hwaiting)
  | _ => exact hresume

/-- An event that writes the list writes this one, and delivers nothing. -/
theorem step_of_writes {ids : List String} (hwrites : d.writes setting event = some (call, ids)) :
    (d.step setting event).store.pendingProjectionIds = ids ∧
      (∀ id, d.commits id ≤ (d.step setting event).commits id) ∧
        (d.step setting event).delivered = d.delivered := by
  obtain ⟨⟨phase, seen⟩, hcall, hwrites⟩ := Option.bind_eq_some_iff.1 hwrites
  have hset (next : ContextReplicationState) (n : ℕ)
      (hstep : d.step setting event = { d.continueWith n seen none with
        store := { d.store with replicationState := some next } })
      (hnext : next.pendingProjectionIds = ids) :
      (d.step setting event).store.pendingProjectionIds = ids ∧
        (∀ id, d.commits id ≤ (d.step setting event).commits id) ∧
          (d.step setting event).delivered = d.delivered := by
    rw [hstep]
    exact ⟨hnext, fun id => le_rfl, rfl⟩
  cases phase with
  | committing input isReady =>
    cases event with
    | commit n summaryId durableId answered =>
      obtain ⟨⟨store, written⟩, hcommit, heq⟩ := Option.map_eq_some_iff.1 hwrites
      cases heq
      have hstep : d.step setting (.commit n summaryId durableId answered) =
          d.resume setting n seen (.committing input isReady) (.commit n summaryId durableId
            answered) := resumed_of_get? hcall
      rw [hstep, Daemon.resume, hcommit]
      refine ⟨rfl, fun id => ?_, ?_⟩
      · dsimp only
        split
        · exact Nat.le_succ _
        · exact le_rfl
      · dsimp only
        generalize (if answered then none else retriedPhase input isReady) = phase
        cases phase <;> rfl
    | _ => cases hwrites
  | recording state next succeeded =>
    cases event with
    | setState n =>
      exact hset next n (resumed_of_get? hcall) (Prod.mk.inj (Option.some.inj hwrites)).2
    | _ => cases hwrites
  | resetting next =>
    cases event with
    | setState n =>
      exact hset next n (resumed_of_get? hcall) (Prod.mk.inj (Option.some.inj hwrites)).2
    | _ => cases hwrites
  | _ => cases hwrites

/-- A step that forgets a projection leaves it waiting and not pending. -/
theorem not_remembers_of_forgets (hforget : d.Forgets setting event) :
    ¬ (d.step setting event).Remembers := by
  obtain ⟨call, ids, hwrites, id, -, hwaiting, hnot⟩ := hforget
  obtain ⟨hids, hcommits, hdelivered⟩ := step_of_writes hwrites
  intro hremembers
  refine hnot (hids ▸ hremembers id ?_)
  rw [Waiting, hdelivered]
  exact lt_of_lt_of_le hwaiting (hcommits id)

theorem sound_start (store : ContextStore) : Sound { store } :=
  ⟨fun _ hwaiting => absurd hwaiting (Nat.lt_irrefl 0),
    fun _ hpos => absurd hpos (Nat.lt_irrefl 0), fun _ _ hcall => nomatch hcall⟩

end Daemon

/-- **A run remembers all along exactly when none of its steps forgets**: whenever a call
writes the list, it knows of every projection that was committed since it read it and that
still waits. -/
theorem remembers_iff (setting : Setting) (store : ContextStore) (events : List ReplicationEvent) :
    (∀ before, before <+: events → (Daemon.run setting store before).Remembers) ↔
      Along (Daemon.step setting) (fun d event => ¬ d.Forgets setting event) events { store } := by
  constructor
  · intro h
    refine along_iff.2 fun before event hpre hforget => ?_
    have hnot := Daemon.not_remembers_of_forgets hforget
    have hafter := h (before ++ [event]) hpre
    rw [Daemon.run, run_append] at hafter
    exact hnot hafter
  · rintro h before ⟨after, rfl⟩
    exact (run_invariant Daemon.Sound (fun d event hd hforget => hd.step hforget)
      (Daemon.sound_start store) (along_append.1 h).1).remembers

/-! ## A run that forgets -/

def exampleSetting : Setting :=
  { projectionFingerprint := id, isMemoryNoiseSummary := fun _ => false, canonical := true }

/-- Two sessions are materialized at the same time. -/
def twoSummaries : List ReplicationEvent :=
  [.materialize 0 { «class» := .recentSummary, summary := "one" } none false,
    .materialize 1 { «class» := .recentSummary, summary := "two" } none false,
    .commit 0 "a" "a'" true, .commit 1 "b" "b'" true]

/-- **What is committed is not always remembered**: the second commit writes the list that
it read before the first. -/
theorem not_remembers :
    ¬ ∀ (setting : Setting) (store : ContextStore) (events : List ReplicationEvent),
      (Daemon.run setting store events).Remembers := by
  intro h
  have hpending := h exampleSetting { processed := [], replicationState := none } twoSummaries "a"
    (by decide)
  exact absurd hpending (by decide)

end Imcodes.Context
