import Mathlib.Data.List.Nodup
import Imcodes.Context.Client

/-!
# The books of the context-store client

The counters of a client should be those of its pending requests, a call be settled once, a client
be ready only while a worker that is live has announced it, and a worker that was given up for a
timeout, or with the client, not be counted as a failure.

* `Sound.step` — an event keeps the books, unless it comes late: from a worker that was given up
  while there is no newer one.
* `keepsBooks_of_along` — what follows for runs; `not_keepsBooks` — a worker that was given up for
  timeouts announces that it is ready.
-/

namespace Imcodes.Context

open Machine

namespace Client

/-- The worker is the client's, and has not exited. -/
def Live (client : Client) (generation : ℕ) : Prop :=
  client.worker = some generation ∧ generation ∉ client.exited

/-- A failure of the worker is not counted. -/
def FailureKnown (client : Client) (generation : ℕ) : Prop :=
  client.generationServedOk = true ∨ client.workerFailureRecordedGeneration = some generation

/-- An event is not late: one of the latest worker comes while the client has that worker, or is
a failure of a worker that has served a request or that was counted before. -/
def Timely (client : Client) : ClientEvent → Prop
  | .message generation (.ready warmupError) =>
      generation = client.workerGeneration → client.worker.isSome = true ∨
        warmupError.any (· ≠ "") = true ∧ client.FailureKnown generation
  | .error generation | .exit generation =>
      generation = client.workerGeneration → client.worker.isSome = true ∨
        client.FailureKnown generation
  | _ => True

end Client

/-- The books of a client are right. -/
structure KeepsBooks (client : Client) : Prop where
  awaited : client.awaitedCount = client.pending.countP (!·.fireAndForget)
  fireAndForget : client.fireAndForgetCount = client.pending.countP (·.fireAndForget)
  awaited_le : client.awaitedCount ≤ maxAwaitedPending
  fireAndForget_le : client.fireAndForgetCount ≤ maxFireAndForgetPending
  settledOnce : (client.settled.map Prod.fst).Nodup
  unsettled : ∀ entry ∈ client.pending, entry.id ∉ client.settled.map Prod.fst
  pending : ∀ entry ∈ client.pending, entry.fireAndForget = false →
    entry.timer.isSome = true ∨ client.Live entry.generation
  ready : client.warmReady = true →
    ∃ generation, client.Live generation ∧ generation ∈ client.announced
  failuresOnce : client.failures.Nodup
  failuresOwn : ∀ generation ∈ client.failures, generation ∉ client.givenUp

/-! ## The invariant -/

/-- What every event that is not late keeps. -/
structure Sound (client : Client) : Prop where
  awaited : client.awaitedCount = client.pending.countP (!·.fireAndForget)
  fireAndForget : client.fireAndForgetCount = client.pending.countP (·.fireAndForget)
  awaited_le : client.awaitedCount ≤ maxAwaitedPending
  fireAndForget_le : client.fireAndForgetCount ≤ maxFireAndForgetPending
  ids : (client.pending.map PendingEntry.id ++ client.settled.map Prod.fst).Nodup
  fresh : ∀ id ∈ client.pending.map PendingEntry.id ++ client.settled.map Prod.fst,
    id < client.nextId
  current : ∀ generation, client.worker = some generation → generation = client.workerGeneration
  posted : ∀ entry ∈ client.pending, client.worker = some entry.generation
  ready : client.warmReady = true →
    client.worker.isSome = true ∧ client.workerGeneration ∈ client.announced
  exited : ∀ generation ∈ client.exited,
    generation ≤ client.workerGeneration ∧ client.worker ≠ some generation
  failuresOnce : client.failures.Nodup
  failed : ∀ generation ∈ client.failures, generation ≤ client.workerGeneration ∧
    client.worker ≠ some generation ∧ generation ∉ client.givenUp ∧
      (generation = client.workerGeneration →
        client.workerFailureRecordedGeneration = some generation)
  givenUp : ∀ generation ∈ client.givenUp,
    generation ≤ client.workerGeneration ∧ client.worker ≠ some generation

variable {client : Client} {entry : PendingEntry} {settlement : Settlement} {generation : ℕ}
  {code : RpcErrorCode} {reason : WorkerDownReason} {event : ClientEvent}

theorem Sound.keepsBooks (h : Sound client) : KeepsBooks client where
  awaited := h.awaited
  fireAndForget := h.fireAndForget
  awaited_le := h.awaited_le
  fireAndForget_le := h.fireAndForget_le
  settledOnce := h.ids.of_append_right
  unsettled := fun entry hmem =>
    List.disjoint_of_nodup_append h.ids (List.mem_map_of_mem hmem)
  pending := fun entry hmem _ => by
    have hposted := h.posted entry hmem
    exact Or.inr ⟨hposted, fun hexited => (h.exited _ hexited).2 hposted⟩
  ready := fun hready => by
    obtain ⟨hsome, hannounced⟩ := h.ready hready
    obtain ⟨generation, hworker⟩ := Option.isSome_iff_exists.1 hsome
    obtain rfl := h.current generation hworker
    exact ⟨_, ⟨hworker, fun hexited => (h.exited _ hexited).2 hworker⟩, hannounced⟩
  failuresOnce := h.failuresOnce
  failuresOwn := fun generation hmem => (h.failed generation hmem).2.2.1

/-! ## What is pending -/

/-- An entry is taken out of a list in which it is the only one with its key. -/
theorem countP_filter_add {entries : List PendingEntry} (p : PendingEntry → Bool)
    (hnodup : (entries.map PendingEntry.id).Nodup) (hmem : entry ∈ entries) :
    (entries.filter (·.id ≠ entry.id)).countP p + (if p entry then 1 else 0) =
      entries.countP p := by
  induction entries with
  | nil => cases hmem
  | cons first entries ih =>
    rw [List.map_cons, List.nodup_cons] at hnodup
    rw [List.countP_cons]
    rcases List.mem_cons.1 hmem with rfl | hmem
    · have hrest : entries.filter (·.id ≠ entry.id) = entries := by
        refine List.filter_eq_self.2 fun other hother => decide_eq_true fun heq => hnodup.1 ?_
        exact heq ▸ List.mem_map_of_mem hother
      rw [List.filter_cons_of_neg (by simp), hrest]
    · have hne : first.id ≠ entry.id := fun heq => hnodup.1 (heq ▸ List.mem_map_of_mem hmem)
      have hfirst : (first :: entries).filter (·.id ≠ entry.id) =
          first :: entries.filter (·.id ≠ entry.id) := List.filter_cons_of_pos (decide_eq_true hne)
      rw [hfirst, List.countP_cons, ← ih hnodup.2 hmem]
      omega

/-- A request is over. -/
theorem Sound.finish (h : Sound client) (hmem : entry ∈ client.pending) :
    Sound ((client.finish entry).settle entry settlement) := by
  have hpending : (client.pending.map PendingEntry.id).Nodup := h.ids.of_append_left
  have hawaited := countP_filter_add (!·.fireAndForget) hpending hmem
  have hforget := countP_filter_add (·.fireAndForget) hpending hmem
  have hsub : ((client.pending.filter (·.id ≠ entry.id)).map PendingEntry.id).Sublist
      (client.pending.map PendingEntry.id) := List.filter_sublist.map _
  have hgone : entry.id ∉ (client.pending.filter (·.id ≠ entry.id)).map PendingEntry.id := by
    intro hid
    obtain ⟨other, hother, heq⟩ := List.mem_map.1 hid
    exact of_decide_eq_true (List.mem_filter.1 hother).2 heq
  have hunsettled : entry.id ∉ client.settled.map Prod.fst :=
    List.disjoint_of_nodup_append h.ids (List.mem_map_of_mem hmem)
  have hids : ((client.pending.filter (·.id ≠ entry.id)).map PendingEntry.id ++
      client.settled.map Prod.fst).Nodup := h.ids.sublist (hsub.append_right _)
  have hfresh : ∀ id ∈ (client.pending.filter (·.id ≠ entry.id)).map PendingEntry.id ++
      client.settled.map Prod.fst, id < client.nextId :=
    fun id hid => h.fresh id ((hsub.append_right _).subset hid)
  have hposted : ∀ other ∈ client.pending.filter (·.id ≠ entry.id),
      client.worker = some other.generation :=
    fun other hother => h.posted other (List.mem_of_mem_filter hother)
  rw [h.awaited.symm] at hawaited
  rw [h.fireAndForget.symm] at hforget
  have hcap := h.awaited_le
  have hcap' := h.fireAndForget_le
  unfold Client.finish Client.settle
  cases hkind : entry.fireAndForget with
  | true =>
    rw [hkind] at hawaited hforget
    simp only [Bool.not_true, Bool.false_eq_true, if_false, if_true] at hawaited hforget ⊢
    refine { h with
      awaited := hawaited.symm
      fireAndForget := by dsimp only; omega
      fireAndForget_le := by dsimp only; omega
      ids := hids
      fresh := hfresh
      posted := hposted }
  | false =>
    rw [hkind] at hawaited hforget
    simp only [Bool.not_false, Bool.false_eq_true, if_false, if_true] at hawaited hforget ⊢
    refine { h with
      awaited := by dsimp only; omega
      awaited_le := by dsimp only; omega
      fireAndForget := hforget.symm
      ids := ?_
      fresh := ?_
      posted := hposted }
    · rw [List.map_append, ← List.append_assoc]
      refine List.nodup_append.2 ⟨hids, List.nodup_singleton _, fun id hid other hother heq => ?_⟩
      rw [List.mem_singleton.1 hother] at heq
      subst heq
      exact (List.mem_append.1 hid).elim hgone hunsettled
    · intro id hid
      rw [List.map_append, ← List.append_assoc] at hid
      rcases List.mem_append.1 hid with hid | hid
      · exact hfresh id hid
      · rw [List.mem_singleton.1 hid]
        exact h.fresh _ (List.mem_append_left _ (List.mem_map_of_mem hmem))

/-! ## Giving up a worker -/

theorem Sound.giveUp (h : Sound client) : Sound (client.giveUp code) := by
  have hids := (List.nodup_append_comm.1 h.ids).sublist
    ((List.filter_sublist (p := (!·.fireAndForget)).map PendingEntry.id).append_left _)
  have hmap : (client.giveUp code).settled.map Prod.fst = client.settled.map Prod.fst ++
      (client.pending.filter (!·.fireAndForget)).map PendingEntry.id := by
    rw [Client.giveUp, List.map_append, List.map_map]
    rfl
  refine { h with
    awaited := rfl
    fireAndForget := rfl
    awaited_le := Nat.zero_le _
    fireAndForget_le := Nat.zero_le _
    ids := ?_
    fresh := ?_
    current := nofun
    posted := nofun
    ready := nofun
    exited := fun generation hmem => ⟨(h.exited generation hmem).1, nofun⟩
    failed := fun generation hmem =>
      ⟨(h.failed generation hmem).1, nofun, (h.failed generation hmem).2.2⟩
    givenUp := fun generation hmem => ⟨(h.givenUp generation hmem).1, nofun⟩ }
  · rw [hmap]
    exact hids
  · intro id hid
    rw [hmap] at hid
    refine h.fresh id ?_
    rcases List.mem_append.1 hid with hid | hid
    · cases hid
    · rcases List.mem_append.1 hid with hid | hid
      · exact List.mem_append_right _ hid
      · exact List.mem_append_left _ ((List.filter_sublist.map _).subset hid)

/-- A worker that fails is given up.  It has not been given up before, or is not counted. -/
theorem Sound.markWorkerUnavailable (h : Sound client)
    (htimely : generation = client.workerGeneration → client.worker.isSome = true ∨
      client.FailureKnown generation) :
    Sound (client.markWorkerUnavailable generation code reason) := by
  unfold Client.markWorkerUnavailable
  split
  · rename_i hcurrent
    obtain rfl := of_decide_eq_true hcurrent
    unfold Client.recordFailure
    split
    · rename_i hcounted
      simp only [Bool.and_eq_true, Bool.not_eq_true', decide_eq_true_eq] at hcounted
      obtain ⟨⟨hserved, hrecorded⟩, -⟩ := hcounted
      have hsome : client.worker.isSome = true := by
        rcases htimely rfl with hsome | hserved' | hrecorded'
        · exact hsome
        · cases hserved.symm.trans hserved'
        · exact absurd hrecorded' hrecorded
      obtain ⟨generation, hworker⟩ := Option.isSome_iff_exists.1 hsome
      obtain rfl := h.current generation hworker
      have hnew : client.workerGeneration ∉ client.failures := fun hmem =>
        hrecorded ((h.failed _ hmem).2.2.2 rfl)
      -- The books are right once the worker is given up.
      have hbase : Sound (client.giveUp code) := h.giveUp
      refine { hbase with
        failuresOnce := ?_
        failed := ?_ }
      · refine List.nodup_append.2 ⟨h.failuresOnce, List.nodup_singleton _,
          fun g hg other hother heq => ?_⟩
        rw [List.mem_singleton.1 hother] at heq
        exact hnew (heq ▸ hg)
      · intro g hmem
        refine ⟨?_, nofun, ?_, ?_⟩
        · rcases List.mem_append.1 hmem with hmem | hmem
          · exact (h.failed g hmem).1
          · exact Nat.le_of_eq (List.mem_singleton.1 hmem)
        · rcases List.mem_append.1 hmem with hmem | hmem
          · exact (h.failed g hmem).2.2.1
          · rw [List.mem_singleton.1 hmem]
            exact fun hgiven => (h.givenUp _ hgiven).2 hworker
        · rintro rfl
          rfl
    · exact h.giveUp
  · exact h

/-- A worker that exits is not the client's any more. -/
theorem Sound.exit (h : Sound client) (hle : generation ≤ client.workerGeneration)
    (htimely : generation = client.workerGeneration → client.worker.isSome = true ∨
      client.FailureKnown generation) :
    Sound ({ client with exited := client.exited ++ [generation] }.markWorkerUnavailable
      generation code reason) := by
  have hmarked : Sound (client.markWorkerUnavailable generation code reason) :=
    h.markWorkerUnavailable htimely
  have hexited : ∀ other ∈ client.exited ++ [generation], other ≤ client.workerGeneration := by
    intro other hmem
    rcases List.mem_append.1 hmem with hmem | hmem
    · exact (h.exited other hmem).1
    · rwa [List.mem_singleton.1 hmem]
  unfold Client.markWorkerUnavailable at hmarked ⊢
  split
  · rename_i hcurrent
    rw [if_pos (show client.isCurrentGeneration generation = true from hcurrent)] at hmarked
    unfold Client.recordFailure at hmarked ⊢
    dsimp only
    split
    · rename_i hcounted
      rw [if_pos hcounted] at hmarked
      exact { hmarked with exited := fun other hmem => ⟨hexited other hmem, nofun⟩ }
    · rename_i hcounted
      rw [if_neg hcounted] at hmarked
      exact { hmarked with exited := fun other hmem => ⟨hexited other hmem, nofun⟩ }
  · rename_i hcurrent
    refine { h with
      exited := fun other hmem => ⟨hexited other hmem, fun hworker => ?_⟩ }
    rcases List.mem_append.1 hmem with hmem | hmem
    · exact (h.exited other hmem).2 hworker
    · rw [List.mem_singleton.1 hmem] at hworker
      exact hcurrent (decide_eq_true (h.current generation hworker))

/-- The worker is given up for another reason. -/
theorem Sound.abandon (h : Sound client) : Sound (client.abandon code) := by
  have hbase : Sound (client.giveUp code) := h.giveUp
  refine { hbase with
    failed := fun generation hmem => ?_
    givenUp := fun generation hmem => ⟨?_, nofun⟩ }
  · obtain ⟨hle, hworker, hgiven, hrecorded⟩ := h.failed generation hmem
    refine ⟨hle, nofun, fun hmem => ?_, hrecorded⟩
    rcases List.mem_append.1 hmem with hmem | hmem
    · exact hgiven hmem
    · exact hworker (Option.mem_toList.1 hmem)
  · rcases List.mem_append.1 hmem with hmem | hmem
    · exact (h.givenUp generation hmem).1
    · exact Nat.le_of_eq (h.current generation (Option.mem_toList.1 hmem))

theorem Sound.respawn (h : Sound client) : Sound client.respawn := by
  unfold Client.respawn
  split
  · exact h
  · exact Sound.abandon { h with }

/-! ## Making a worker -/

/-- The next worker is made when there is none; nothing is pending then. -/
theorem Sound.ensureWorker (h : Sound client) : Sound client.ensureWorker := by
  unfold Client.ensureWorker
  split
  · exact h
  · rename_i hnone
    have hworker : client.worker = none := Option.not_isSome_iff_eq_none.1 hnone
    have hnew : ∀ generation, generation ≤ client.workerGeneration →
        generation ≤ client.workerGeneration + 1 ∧
          some (client.workerGeneration + 1) ≠ some generation := by
      intro generation hle
      refine ⟨Nat.le_succ_of_le hle, fun heq => ?_⟩
      rw [← Option.some.inj heq] at hle
      exact absurd hle (Nat.not_succ_le_self _)
    refine { h with
      current := fun generation heq => (Option.some.inj heq).symm
      posted := fun entry hmem => ?_
      ready := nofun
      exited := fun generation hmem => hnew generation (h.exited generation hmem).1
      failed := fun generation hmem => ?_
      givenUp := fun generation hmem => hnew generation (h.givenUp generation hmem).1 }
    · have hposted := h.posted entry hmem
      rw [hworker] at hposted
      cases hposted
    · obtain ⟨hle, -, hgiven, -⟩ := h.failed generation hmem
      obtain ⟨hle', hne⟩ := hnew generation hle
      exact ⟨hle', hne, hgiven, fun heq => absurd (congrArg some heq.symm) hne⟩

theorem Sound.worker_ensureWorker (h : Sound client) :
    client.ensureWorker.worker = some client.ensureWorker.workerGeneration := by
  unfold Client.ensureWorker
  split
  · rename_i hsome
    obtain ⟨generation, hworker⟩ := Option.isSome_iff_exists.1 hsome
    rw [hworker, h.current generation hworker]
  · rfl

theorem Sound.maybeRespawn (h : Sound client) : Sound client.maybeRespawn := by
  unfold Client.maybeRespawn
  split
  · exact h
  · split
    · exact h
    · exact h.ensureWorker

theorem Sound.start (h : Sound client) : Sound client.start := by
  unfold Client.start
  split
  · exact h
  · exact Sound.ensureWorker { h with }

theorem Sound.whenReady (h : Sound client) : Sound client.whenReady := by
  unfold Client.whenReady
  split
  · exact h
  · split
    · exact h
    · exact h.ensureWorker

/-! ## Requests -/

/-- A request is registered, in its cap. -/
theorem Sound.dispatch {timeoutMs : ℤ} {fireAndForget cloneable : Bool} (h : Sound client)
    (hworker : client.worker = some client.workerGeneration)
    (hroom : fireAndForget = false → client.awaitedCount < maxAwaitedPending)
    (hroom' : fireAndForget = true → client.fireAndForgetCount < maxFireAndForgetPending) :
    Sound (client.dispatch timeoutMs fireAndForget cloneable) := by
  have hnew : client.nextId ∉
      client.pending.map PendingEntry.id ++ client.settled.map Prod.fst :=
    fun hmem => absurd (h.fresh _ hmem) (Nat.lt_irrefl _)
  have hregistered : ∀ timer, Sound { client with
      nextId := client.nextId + 1
      pending := client.pending ++
        [⟨client.nextId, timer, fireAndForget, client.workerGeneration⟩]
      awaitedCount := if fireAndForget then client.awaitedCount else client.awaitedCount + 1
      fireAndForgetCount :=
        if fireAndForget then client.fireAndForgetCount + 1 else client.fireAndForgetCount } := by
    intro timer
    refine { h with
      awaited := ?_
      fireAndForget := ?_
      awaited_le := ?_
      fireAndForget_le := ?_
      ids := ?_
      fresh := ?_
      posted := ?_ }
    · rw [List.countP_append, ← h.awaited]
      cases fireAndForget <;> rfl
    · rw [List.countP_append, ← h.fireAndForget]
      cases fireAndForget <;> rfl
    · cases fireAndForget with
      | true => exact h.awaited_le
      | false => exact hroom rfl
    · cases fireAndForget with
      | true => exact hroom' rfl
      | false => exact h.fireAndForget_le
    · rw [List.map_append, List.append_assoc]
      exact List.nodup_middle.2 (List.nodup_cons.2 ⟨hnew, h.ids⟩)
    · intro id hid
      rw [List.map_append, List.append_assoc] at hid
      rcases List.mem_cons.1 (List.perm_middle.subset hid) with rfl | hid
      · exact Nat.lt_succ_self _
      · exact Nat.lt_succ_of_lt (h.fresh id hid)
    · intro entry hmem
      rcases List.mem_append.1 hmem with hmem | hmem
      · exact h.posted entry hmem
      · rw [List.mem_singleton.1 hmem]
        exact hworker
  unfold Client.dispatch
  dsimp only
  split
  · exact hregistered _
  · exact (hregistered _).finish (List.mem_append_right _ (List.mem_singleton_self _))

/-- Making a worker does not change what is pending. -/
theorem counts_ensureWorker : client.ensureWorker.awaitedCount = client.awaitedCount ∧
    client.ensureWorker.fireAndForgetCount = client.fireAndForgetCount := by
  unfold Client.ensureWorker
  split <;> exact ⟨rfl, rfl⟩

theorem Sound.call {timeoutMs : Option ℤ} {cloneable : Bool} (h : Sound client) :
    Sound (client.call timeoutMs cloneable).1 := by
  unfold Client.call
  split
  · exact h
  · split
    · exact h
    · rename_i hroom
      split
      · exact h
      · refine h.ensureWorker.dispatch h.worker_ensureWorker (fun _ => ?_) nofun
        rw [counts_ensureWorker.1]
        exact Nat.lt_of_not_le hroom

theorem Sound.forget {op : String} {cloneable : Bool} (h : Sound client) :
    Sound (client.fireAndForget op cloneable) := by
  unfold Client.fireAndForget
  split
  · exact h
  · split
    · exact h
    · split
      · exact h
      · rename_i hroom
        split
        · exact h
        · refine h.ensureWorker.dispatch h.worker_ensureWorker nofun fun _ => ?_
          rw [counts_ensureWorker.2]
          exact Nat.lt_of_not_le hroom

theorem Sound.onTimeout {id : ℕ} (h : Sound client) : Sound (client.onTimeout id) := by
  unfold Client.onTimeout
  split
  · exact h
  · rename_i entry hfind
    have hsettled : Sound ((client.finish entry).settle entry (.rejected .timeout)) :=
      h.finish (List.mem_of_find?_eq_some hfind)
    dsimp only
    split
    · exact hsettled
    · split
      · exact Sound.respawn { hsettled with }
      · exact { hsettled with }

/-- An answer, or another message; a worker that announces that it is ready is live. -/
theorem Sound.onMessage {msg : WorkerMessage} (h : Sound client)
    (htimely : client.Timely (.message generation msg))
    (hannounced : ∀ warmupError, msg = .ready warmupError →
      warmupError.any (· ≠ "") = false → generation ∈ client.announced) :
    Sound (client.onMessage msg generation) := by
  unfold Client.onMessage
  split
  · rename_i hcurrent
    obtain rfl := of_decide_eq_true hcurrent
    cases msg with
    | other => exact h
    | ready warmupError =>
      dsimp only
      split
      · rename_i herror
        refine h.markWorkerUnavailable fun heq => (htimely heq).imp_right And.right
      · rename_i herror
        have herror := Bool.eq_false_iff.2 herror
        refine { h with
          ready := fun _ => ⟨?_, hannounced warmupError rfl herror⟩ }
        rcases htimely rfl with hsome | ⟨herror', -⟩
        · exact hsome
        · cases herror.symm.trans herror'
    | response id ok code =>
      dsimp only
      split
      · exact h
      · rename_i entry hfind
        have hmem := List.mem_of_find?_eq_some hfind
        split
        · have hresolved : Sound ((client.finish entry).settle entry .resolved) := h.finish hmem
          unfold Client.settle at hresolved ⊢
          by_cases hkind : entry.fireAndForget = true
          · rw [if_pos hkind] at hresolved ⊢
            exact { hresolved with }
          · rw [if_neg hkind] at hresolved ⊢
            exact { hresolved with }
        · exact h.finish hmem
  · exact h

theorem Sound.step (h : Sound client) (htimely : client.Timely event) :
    Sound (client.step event) := by
  cases event with
  | tick ms => exact { h with }
  | start => exact h.start
  | whenReady => exact h.whenReady
  | call timeoutMs cloneable => exact h.call
  | fireAndForget op cloneable => exact h.forget
  | callR1OrEmpty budget cloneable =>
    dsimp only [Client.step, Client.callR1OrEmpty]
    split
    · exact h
    · split
      · exact h.maybeRespawn.call
      · exact h.maybeRespawn
  | run timeoutMs cloneable =>
    dsimp only [Client.step, Client.run]
    split
    · exact h.call
    · exact h.maybeRespawn
  | message generation msg =>
    dsimp only [Client.step]
    split
    · refine Sound.onMessage ?_ htimely fun warmupError heq herror => ?_
      · refine { h with ready := fun hready => ⟨(h.ready hready).1, ?_⟩ }
        dsimp only
        split
        · exact List.mem_append_left _ (h.ready hready).2
        · exact (h.ready hready).2
      · subst heq
        have hannounces : (WorkerMessage.ready warmupError).announces = true :=
          congrArg not herror
        dsimp only
        rw [if_pos hannounces]
        exact List.mem_append_right _ (List.mem_singleton_self _)
    · exact h
  | error generation =>
    dsimp only [Client.step]
    split
    · exact h.markWorkerUnavailable htimely
    · exact h
  | exit generation =>
    dsimp only [Client.step]
    split
    · rename_i hcreated
      exact h.exit (of_decide_eq_true (Bool.and_eq_true_iff.1 hcreated).2) htimely
    · exact h
  | timeout id =>
    dsimp only [Client.step]
    split
    · exact h.onTimeout
    · exact h
  | dispose => exact Sound.abandon { h with }

/-! ## Runs -/

/-- A client of which nothing has been asked. -/
def Client.initial (clock : ℕ) : Client where
  clock := clock

theorem sound_initial (clock : ℕ) : Sound (Client.initial clock) where
  awaited := rfl
  fireAndForget := rfl
  awaited_le := Nat.zero_le _
  fireAndForget_le := Nat.zero_le _
  ids := List.nodup_nil
  fresh := nofun
  current := nofun
  posted := nofun
  ready := nofun
  exited := nofun
  failuresOnce := List.nodup_nil
  failed := nofun
  givenUp := nofun

/-- **A client keeps its books** over every run in which no event comes late. -/
theorem keepsBooks_of_along (clock : ℕ) (events : List ClientEvent)
    (htimely : Along Client.step Client.Timely events (Client.initial clock)) :
    KeepsBooks (run Client.step events (Client.initial clock)) :=
  (run_invariant Sound (fun _ _ h hok => h.step hok) (sound_initial clock) htimely).keepsBooks

/-! ## A worker that is ready after it was given up -/

instance (client : Client) : DecidablePred client.Timely := fun event => by
  unfold Client.Timely Client.FailureKnown
  cases event with
  | message generation msg => cases msg <;> infer_instance
  | _ => infer_instance

/-- Three calls time out before the worker is ready. -/
def timeouts : List ClientEvent :=
  [.start, .call none true, .call none true, .call none true, .tick 5000, .timeout 1, .timeout 2,
    .timeout 3]

/-- The worker that was given up exits when the next one has been made. -/
def exitsAfterwards : List ClientEvent :=
  timeouts ++ [.tick 60000, .start, .message 1 (.ready none), .exit 1, .message 2 (.ready none),
    .call none true, .message 2 (.response 4 true none)]

theorem keepsBooks_of_along_exitsAfterwards :
    KeepsBooks (run Client.step exitsAfterwards (Client.initial 100000)) :=
  keepsBooks_of_along 100000 exitsAfterwards (by decide +kernel)

/-- The worker that was given up announces that it is ready. -/
theorem not_keepsBooks : ¬∀ (clock : ℕ) (events : List ClientEvent),
    KeepsBooks (run Client.step events (Client.initial clock)) := by
  intro h
  have hready := (h 100000 (timeouts ++ [.message 1 (.ready none)])).ready
  obtain ⟨generation, hlive, -⟩ := hready (by decide +kernel)
  have hnone : (run Client.step (timeouts ++ [.message 1 (.ready none)])
      (Client.initial 100000)).worker = none := by decide +kernel
  cases hnone.symm.trans hlive.1

/-- The exit of that worker is counted as a failure. -/
example : (run Client.step (timeouts ++ [.exit 1]) (Client.initial 100000)).failures = [1] ∧
    (run Client.step (timeouts ++ [.exit 1]) (Client.initial 100000)).givenUp = [1] := by
  decide +kernel

end Imcodes.Context
