import Imcodes.FilePreview.Answers

/-!
# No request gets a snapshot from before an invalidation that it follows

* `Fresh` — a snapshot that is kept, read or sent for a request was dispatched after the path was
  invalidated, if that was before the request.
* `answered_run` — every accepted request gets one answer, in time and fresh, over every run in
  which no request id is submitted twice.
-/

namespace Imcodes.FilePreview

open Machine

namespace PreviewReadCoordinator

/-- What was read then of a path may be sent for what was requested then: no invalidation of the
path is between the read and the request. -/
def Unspoiled (coordinator : PreviewReadCoordinator) (submittedAt : ℕ) (realPath : String)
    (dispatchedAt : ℕ) : Prop :=
  submittedAt ≤ coordinator.steps ∧
    ∀ t path, (t, path) ∈ coordinator.invalidated →
      coordinator.cache.normalizePath path = coordinator.cache.normalizePath realPath →
      t < submittedAt → t ≤ dispatchedAt

/-- What was read then of a path, in a generation of it: if it is still the generation, the path was
not invalidated since. -/
def Current (coordinator : PreviewReadCoordinator) (realPath : String) (generation dispatchedAt : ℕ) :
    Prop :=
  generation ≤ coordinator.cache.getGeneration realPath ∧
    (generation = coordinator.cache.getGeneration realPath →
      ∀ t path, (t, path) ∈ coordinator.invalidated →
        coordinator.cache.normalizePath path = coordinator.cache.normalizePath realPath →
        t ≤ dispatchedAt)

/-- What was read then of a path may be sent for a request, if it is still there. -/
def Awaits (coordinator : PreviewReadCoordinator) (requestId realPath : String)
    (dispatchedAt : ℕ) : Prop :=
  requestId ∈ coordinator.submitted ∧
    ∀ request, coordinator.externalRequests.get? requestId = some request →
      coordinator.Unspoiled request.submittedAt realPath dispatchedAt

/-- What a response is built of may be sent. -/
def Suits (coordinator : PreviewReadCoordinator) : Build → Prop
  | .cached request snapshot =>
    coordinator.Unspoiled request.submittedAt snapshot.realPath snapshot.dispatchedAt
  | .snapshot requestId snapshot =>
    coordinator.Awaits requestId snapshot.realPath snapshot.dispatchedAt
  | .error .. => True

/-- Nothing that was read before an invalidation is for a request after it. -/
structure Fresh (coordinator : PreviewReadCoordinator) : Prop where
  steps : ∀ t path, (t, path) ∈ coordinator.invalidated → t ≤ coordinator.steps
  request : ∀ id request, coordinator.externalRequests.get? id = some request →
    id ∈ coordinator.submitted ∧ request.submittedAt ≤ coordinator.steps
  cached : ∀ path cached, (path, cached) ∈ coordinator.cache.fsReadCache.toList →
    path = coordinator.cache.normalizePath cached.value.realPath ∧
      coordinator.Current cached.value.realPath cached.generation cached.value.dispatchedAt
  job : ∀ key job, coordinator.snapshotJobs.get? key = some job →
    key = coordinator.cache.makeSnapshotKey job.preflight.realPath job.preflight.startSignature
      job.resourceGeneration ∧
      coordinator.Current job.preflight.realPath job.resourceGeneration job.dispatchedAt
  waiting : ∀ key job, coordinator.snapshotJobs.get? key = some job →
    ∀ id ∈ job.requestIds, coordinator.Awaits id job.preflight.realPath job.dispatchedAt
  build : ∀ id build, .terminal id build ∈ coordinator.queue → coordinator.Suits build
  sent : ∀ message ∈ coordinator.sent, ∀ request snapshot fromCache,
    message.response = .result request snapshot fromCache →
      coordinator.Unspoiled request.submittedAt snapshot.realPath snapshot.dispatchedAt

variable {coordinator : PreviewReadCoordinator} {requestId realPath : String} {build : Build}
  {response : Response} {record : FanOutRecord} {message : Message}
  {request : ExternalRequestRecord} {preflight : PreviewReadPreflightSuccess}

theorem Fresh.enqueue (h : Fresh coordinator) (hsuits : coordinator.Suits build) :
    Fresh (coordinator.enqueue (.terminal requestId build)) := by
  refine { h with build := fun id build' hmem => ?_ }
  rcases List.mem_append.1 hmem with hmem | hmem
  · exact h.build id build' hmem
  · rw [(SendOperation.terminal.inj (List.mem_singleton.1 hmem)).2]
    exact hsuits

theorem Fresh.enqueueMessage (h : Fresh coordinator) :
    Fresh (coordinator.enqueue (.message message)) := by
  refine { h with build := fun id build' hmem => ?_ }
  rcases List.mem_append.1 hmem with hmem | hmem
  · exact h.build id build' hmem
  · exact absurd (List.mem_singleton.1 hmem) nofun

theorem Fresh.sendTerminal (h : Fresh coordinator) (hsuits : coordinator.Suits build) :
    Fresh (coordinator.sendTerminal requestId build) := by
  unfold PreviewReadCoordinator.sendTerminal
  split
  · exact h
  · exact h.enqueue hsuits

theorem get?_markTerminal {id : String}
    (hget : (coordinator.markTerminal requestId).externalRequests.get? id = some request) :
    coordinator.externalRequests.get? id = some request := by
  rw [markTerminal, OrderedMap.get?_delete] at hget
  split at hget
  · cases hget
  · exact hget

theorem Awaits.markTerminal {id : String} {dispatchedAt : ℕ}
    (h : coordinator.Awaits id realPath dispatchedAt) :
    (coordinator.markTerminal requestId).Awaits id realPath dispatchedAt :=
  ⟨h.1, fun request hget => h.2 request (get?_markTerminal hget)⟩

theorem Fresh.markTerminal (h : Fresh coordinator) : Fresh (coordinator.markTerminal requestId) := by
  refine { h with
    request := fun id request hget => h.request id request (get?_markTerminal hget)
    waiting := fun key job hjob id hid => (h.waiting key job hjob id hid).markTerminal
    build := fun id build hmem => ?_ }
  have hsuits := h.build id build hmem
  cases build with
  | cached request snapshot => exact hsuits
  | snapshot requestId' snapshot => exact Awaits.markTerminal hsuits
  | error requestId' rawPath resolvedPath error => trivial

theorem Fresh.safeSend (h : Fresh coordinator)
    (hsent : ∀ request snapshot fromCache, message.response = .result request snapshot fromCache →
      coordinator.Unspoiled request.submittedAt snapshot.realPath snapshot.dispatchedAt) :
    Fresh (coordinator.safeSend message) := by
  refine { h with sent := fun message' hmem request snapshot fromCache heq => ?_ }
  rcases List.mem_append.1 hmem with hmem | hmem
  · exact h.sent message' hmem request snapshot fromCache heq
  · rw [List.mem_singleton.1 hmem] at heq
    exact hsent request snapshot fromCache heq

theorem Fresh.forceTerminal (h : Fresh coordinator) :
    Fresh (coordinator.forceTerminal requestId response) := by
  unfold PreviewReadCoordinator.forceTerminal
  split
  · exact h
  · exact h.markTerminal.enqueueMessage

theorem Fresh.timeoutRecord (h : Fresh coordinator) :
    Fresh (coordinator.timeoutRecord requestId) := by
  unfold PreviewReadCoordinator.timeoutRecord
  split
  · exact h
  · exact h.markTerminal.enqueueMessage

/-- What is built of something that may be sent may be sent. -/
theorem Suits.buildMessage (h : coordinator.Suits build) :
    ∀ request snapshot fromCache,
      coordinator.buildMessage build = .result request snapshot fromCache →
      coordinator.Unspoiled request.submittedAt snapshot.realPath snapshot.dispatchedAt := by
  intro request snapshot fromCache heq
  cases build with
  | cached request' snapshot' =>
    obtain ⟨rfl, rfl, -⟩ := Response.result.inj heq
    exact h
  | snapshot requestId' snapshot' =>
    unfold PreviewReadCoordinator.buildMessage at heq
    dsimp only at heq
    split at heq
    · cases heq
    · rename_i request' hget
      obtain ⟨rfl, rfl, -⟩ := Response.result.inj heq
      exact h.2 _ hget
  | error requestId' rawPath resolvedPath error => cases heq

theorem Fresh.perform (h : Fresh coordinator) (hsuits : coordinator.Suits build) :
    Fresh (coordinator.perform (.terminal requestId build)) := by
  unfold PreviewReadCoordinator.perform
  dsimp only
  split
  · exact h
  · split
    · exact h.markTerminal.safeSend nofun
    · exact h.markTerminal.safeSend hsuits.buildMessage

theorem Fresh.sendNext (h : Fresh coordinator) (hbooked : Booked coordinator) :
    Fresh (coordinator.handle .sendNext) := by
  dsimp only [handle]
  split
  · exact h
  · split
    · exact h
    · rename_i operation queue hqueue
      have htail : Fresh { coordinator with queue } :=
        { h with
          build := fun id build hmem => h.build id build (hqueue ▸ List.mem_cons_of_mem _ hmem) }
      cases operation with
      | message message =>
        refine htail.safeSend fun request snapshot fromCache heq => ?_
        have herror := hbooked.isError message (hqueue ▸ List.mem_cons_self)
        rw [heq] at herror
        exact absurd herror nofun
      | terminal id build => exact htail.perform (h.build id build (hqueue ▸ List.mem_cons_self))

theorem Fresh.timerFires (h : Fresh coordinator) :
    Fresh (coordinator.handle (.timerFires requestId)) := by
  dsimp only [handle]
  split
  · refine Fresh.timeoutRecord ?_
    exact { h with }
  · exact h
/-! ## The cache and the jobs -/

variable {cache : PreviewReadCacheFacade}

theorem normalizePath_congr (hcwd : cache.cwd = coordinator.cache.cwd) (path : String) :
    cache.normalizePath path = coordinator.cache.normalizePath path := by
  rw [PreviewReadCacheFacade.normalizePath, hcwd]
  rfl

theorem makeSnapshotKey_congr (hcwd : cache.cwd = coordinator.cache.cwd)
    (realPath signature : String) (generation : ℕ) :
    cache.makeSnapshotKey realPath signature generation =
      coordinator.cache.makeSnapshotKey realPath signature generation := by
  rw [PreviewReadCacheFacade.makeSnapshotKey, normalizePath_congr hcwd]
  rfl

theorem Unspoiled.withCache {submittedAt dispatchedAt : ℕ}
    (h : coordinator.Unspoiled submittedAt realPath dispatchedAt)
    (hcwd : cache.cwd = coordinator.cache.cwd) :
    Unspoiled { coordinator with cache } submittedAt realPath dispatchedAt := by
  refine ⟨h.1, fun t path hmem heq hlt => h.2 t path hmem ?_ hlt⟩
  rwa [← normalizePath_congr hcwd, ← normalizePath_congr hcwd]

theorem Awaits.withCache {dispatchedAt : ℕ} (h : coordinator.Awaits requestId realPath dispatchedAt)
    (hcwd : cache.cwd = coordinator.cache.cwd) :
    Awaits { coordinator with cache } requestId realPath dispatchedAt :=
  ⟨h.1, fun request hget => (h.2 request hget).withCache hcwd⟩

theorem Suits.withCache (h : coordinator.Suits build) (hcwd : cache.cwd = coordinator.cache.cwd) :
    Suits { coordinator with cache } build := by
  cases build with
  | cached request snapshot => exact Unspoiled.withCache h hcwd
  | snapshot requestId' snapshot => exact Awaits.withCache h hcwd
  | error requestId' rawPath resolvedPath error => trivial

/-- A cache of the same directory, of which each snapshot and each job is still right. -/
theorem Fresh.withCache (h : Fresh coordinator) (hcwd : cache.cwd = coordinator.cache.cwd)
    (hcached : ∀ path cached, (path, cached) ∈ cache.fsReadCache.toList →
      path = coordinator.cache.normalizePath cached.value.realPath ∧
        Current { coordinator with cache } cached.value.realPath cached.generation
          cached.value.dispatchedAt)
    (hjob : ∀ key job, coordinator.snapshotJobs.get? key = some job →
      Current { coordinator with cache } job.preflight.realPath job.resourceGeneration
        job.dispatchedAt) :
    Fresh { coordinator with cache } where
  steps := h.steps
  request := h.request
  cached path cached hmem := by
    obtain ⟨hpath, hcurrent⟩ := hcached path cached hmem
    exact ⟨hpath.trans (normalizePath_congr hcwd _).symm, hcurrent⟩
  job key job hget :=
    ⟨(h.job key job hget).1.trans (makeSnapshotKey_congr hcwd _ _ _).symm, hjob key job hget⟩
  waiting key job hget id hid := (h.waiting key job hget id hid).withCache hcwd
  build id build hmem := (h.build id build hmem).withCache hcwd
  sent message hmem request snapshot fromCache heq :=
    (h.sent message hmem request snapshot fromCache heq).withCache hcwd

theorem Current.withCache {generation dispatchedAt : ℕ}
    (h : coordinator.Current realPath generation dispatchedAt)
    (hcwd : cache.cwd = coordinator.cache.cwd)
    (hgens : cache.fsReadGenerations = coordinator.cache.fsReadGenerations) :
    Current { coordinator with cache } realPath generation dispatchedAt := by
  have hgen : cache.getGeneration realPath = coordinator.cache.getGeneration realPath := by
    rw [PreviewReadCacheFacade.getGeneration, hgens, normalizePath_congr hcwd]
    rfl
  refine ⟨h.1.trans hgen.ge, fun heq t path hmem hpath => h.2 (heq.trans hgen) t path hmem ?_⟩
  rwa [← normalizePath_congr hcwd, ← normalizePath_congr hcwd]

/-- Snapshots go out of the cache. -/
theorem Fresh.drops (h : Fresh coordinator) (hdrops : coordinator.cache.Drops cache) :
    Fresh { coordinator with cache } := by
  refine h.withCache hdrops.cwd (fun path cached hmem => ?_) fun key job hget =>
    (h.job key job hget).2.withCache hdrops.cwd hdrops.generations
  obtain ⟨hpath, hcurrent⟩ := h.cached path cached (hdrops.mem _ hmem)
  exact ⟨hpath, hcurrent.withCache hdrops.cwd hdrops.generations⟩

/-- A snapshot of a job is written. -/
theorem Fresh.writeSnapshot (h : Fresh coordinator) {value : PreviewReadSnapshotSuccess}
    {generation : ℕ} (hcurrent : coordinator.Current value.realPath generation value.dispatchedAt) :
    Fresh { coordinator with
      cache := coordinator.cache.writeSnapshot coordinator.now value generation } := by
  obtain ⟨hcwd, hgens, hmem⟩ := @PreviewReadCacheFacade.writeSnapshot_spec coordinator.cache
    coordinator.now value generation
  refine h.withCache hcwd (fun path cached hin => ?_) fun key job hget =>
    (h.job key job hget).2.withCache hcwd hgens
  rcases hmem path cached hin with hold | ⟨hpath, hvalue, hgeneration, -⟩
  · obtain ⟨hpath, hold⟩ := h.cached path cached hold
    exact ⟨hpath, hold.withCache hcwd hgens⟩
  · subst hvalue hgeneration
    exact ⟨hpath, hcurrent.withCache hcwd hgens⟩

theorem Unspoiled.invalidate {submittedAt dispatchedAt : ℕ}
    (h : coordinator.Unspoiled submittedAt realPath dispatchedAt) (path : String) :
    Unspoiled { coordinator with
      invalidated := coordinator.invalidated ++ [(coordinator.steps, path)] }
      submittedAt realPath dispatchedAt := by
  refine ⟨h.1, fun t path' hmem heq hlt => ?_⟩
  rcases List.mem_append.1 hmem with hmem | hmem
  · exact h.2 t path' hmem heq hlt
  · rw [(Prod.mk.inj (List.mem_singleton.1 hmem)).1] at hlt
    exact absurd h.1 (not_le.2 hlt)

theorem Current.invalidate {generation dispatchedAt : ℕ}
    (h : coordinator.Current realPath generation dispatchedAt) (path : String) :
    Current { coordinator with
      cache := coordinator.cache.invalidatePath path
      invalidated := coordinator.invalidated ++ [(coordinator.steps, path)] }
      realPath generation dispatchedAt := by
  obtain ⟨hcwd, -, hgens⟩ := @PreviewReadCacheFacade.invalidatePath_spec coordinator.cache path
  have hgen := hgens realPath
  constructor
  · dsimp only
    rw [hgen]
    split
    · exact Nat.le_succ_of_le h.1
    · exact h.1
  · dsimp only
    rw [hgen]
    intro heq t path' hmem hpath
    rw [normalizePath_congr hcwd, normalizePath_congr hcwd] at hpath
    split at heq
    · exact absurd h.1 (not_le.2 (heq ▸ Nat.lt_succ_self _))
    · rename_i hother
      rcases List.mem_append.1 hmem with hmem | hmem
      · exact h.2 heq t path' hmem hpath
      · rw [(Prod.mk.inj (List.mem_singleton.1 hmem)).2] at hpath
        exact absurd hpath.symm hother

/-- A path is invalidated: what was read of it before is of another generation. -/
theorem Fresh.invalidatePath (h : Fresh coordinator) (path : String) :
    Fresh (coordinator.handle (.invalidatePath path)) := by
  obtain ⟨hcwd, hmem, -⟩ := @PreviewReadCacheFacade.invalidatePath_spec coordinator.cache path
  have hunspoiled : ∀ submittedAt realPath dispatchedAt,
      coordinator.Unspoiled submittedAt realPath dispatchedAt →
      (coordinator.handle (.invalidatePath path)).Unspoiled submittedAt realPath dispatchedAt :=
    fun submittedAt realPath dispatchedAt hold => (hold.invalidate path).withCache hcwd
  have hawaits : ∀ id realPath dispatchedAt, coordinator.Awaits id realPath dispatchedAt →
      (coordinator.handle (.invalidatePath path)).Awaits id realPath dispatchedAt :=
    fun id realPath dispatchedAt hold =>
      ⟨hold.1, fun request hget => hunspoiled _ _ _ (hold.2 request hget)⟩
  constructor
  case steps =>
    intro t path' hin
    rcases List.mem_append.1 hin with hin | hin
    · exact h.steps t path' hin
    · exact ((Prod.mk.inj (List.mem_singleton.1 hin)).1).le
  case request => exact h.request
  case cached =>
    intro key cached hin
    obtain ⟨hpath, hcurrent⟩ := h.cached key cached (hmem _ hin)
    exact ⟨hpath.trans (normalizePath_congr hcwd _).symm, hcurrent.invalidate path⟩
  case job =>
    intro key job hget
    obtain ⟨hkey, hcurrent⟩ := h.job key job hget
    exact ⟨hkey.trans (makeSnapshotKey_congr hcwd _ _ _).symm, hcurrent.invalidate path⟩
  case waiting => exact fun key job hget id hid => hawaits _ _ _ (h.waiting key job hget id hid)
  case build =>
    intro id build hin
    have hsuits := h.build id build hin
    cases build with
    | cached request snapshot => exact hunspoiled _ _ _ hsuits
    | snapshot requestId' snapshot => exact hawaits _ _ _ hsuits
    | error requestId' rawPath resolvedPath error => trivial
  case sent =>
    exact fun message hin request snapshot fromCache heq =>
      hunspoiled _ _ _ (h.sent message hin request snapshot fromCache heq)

/-- A job that is current may serve a request that is there. -/
theorem Current.awaits {generation dispatchedAt : ℕ} (h : Fresh coordinator)
    (hcurrent : coordinator.Current realPath generation dispatchedAt)
    (hgen : generation = coordinator.cache.getGeneration realPath)
    (hget : coordinator.externalRequests.get? requestId = some request) :
    coordinator.Awaits requestId realPath dispatchedAt := by
  refine ⟨(h.request requestId request hget).1, fun request' hget' => ?_⟩
  exact ⟨(h.request requestId request' hget').2,
    fun t path hmem hpath _ => hcurrent.2 hgen t path hmem hpath⟩

/-- A request joins a job that is current. -/
theorem Fresh.join (h : Fresh coordinator) {key : String} {job : PreviewReadSnapshotJobRecord}
    (hjob : coordinator.snapshotJobs.get? key = some job)
    (hawaits : coordinator.Awaits requestId job.preflight.realPath job.dispatchedAt) :
    Fresh { coordinator with
      snapshotJobs := coordinator.snapshotJobs.set key
        { job with requestIds := job.requestIds.insert requestId } } := by
  refine { h with
    job := fun key' job' hget => ?_
    waiting := fun key' job' hget id hid => ?_ }
  · dsimp only at hget
    rw [OrderedMap.get?_set] at hget
    split at hget
    · rename_i heq
      rw [heq, ← Option.some.inj hget]
      exact h.job key job hjob
    · exact h.job key' job' hget
  · dsimp only at hget
    rw [OrderedMap.get?_set] at hget
    split at hget
    · obtain rfl := Option.some.inj hget
      rcases List.mem_insert_iff.1 hid with rfl | hid
      · exact hawaits
      · exact h.waiting key job hjob id hid
    · exact h.waiting key' job' hget id hid

/-- A job begins for a request. -/
theorem Fresh.startSnapshot (h : Fresh coordinator)
    (hget : coordinator.externalRequests.get? requestId = some request) :
    Fresh (coordinator.startSnapshot (coordinator.cache.makeSnapshotKey preflight.realPath
      preflight.startSignature (coordinator.cache.getGeneration preflight.realPath)) requestId
      preflight (coordinator.cache.getGeneration preflight.realPath)) := by
  have hcurrent : coordinator.Current preflight.realPath
      (coordinator.cache.getGeneration preflight.realPath) coordinator.steps :=
    ⟨le_rfl, fun _ t path hmem _ => h.steps t path hmem⟩
  have hawaits := Current.awaits h hcurrent rfl hget
  unfold PreviewReadCoordinator.startSnapshot
  split
  · refine { h with
      job := fun key' job' hget' => ?_
      waiting := fun key' job' hget' id hid => ?_ }
    · dsimp only at hget'
      rw [OrderedMap.get?_set] at hget'
      split at hget'
      · rename_i heq
        rw [heq, ← Option.some.inj hget']
        exact ⟨rfl, hcurrent⟩
      · exact h.job key' job' hget'
    · dsimp only at hget'
      rw [OrderedMap.get?_set] at hget'
      split at hget'
      · obtain rfl := Option.some.inj hget'
        rw [List.mem_singleton.1 hid]
        exact hawaits
      · exact h.waiting key' job' hget' id hid
  · exact h

theorem Fresh.attachToSnapshot (h : Fresh coordinator)
    (hget : coordinator.externalRequests.get? request.requestId = some request) :
    Fresh (coordinator.attachToSnapshot request preflight) := by
  obtain ⟨hdrops, hfound⟩ := @PreviewReadCacheFacade.getCached_spec coordinator.cache
    coordinator.now preflight.realPath preflight.startSignature
  have hdropped := h.drops hdrops
  unfold PreviewReadCoordinator.attachToSnapshot
  dsimp only
  split
  · rename_i value hvalue
    refine hdropped.sendTerminal ?_
    obtain ⟨cached, hmem, rfl, hgen⟩ := hfound value hvalue
    obtain ⟨hpath, hcurrent⟩ := h.cached _ _ hmem
    have hsame : coordinator.cache.getGeneration preflight.realPath =
        coordinator.cache.getGeneration cached.value.realPath := by
      rw [PreviewReadCacheFacade.getGeneration, hpath]
      rfl
    exact ((Current.awaits h hcurrent (hgen.trans hsame) hget).2 request hget).withCache
      hdrops.cwd
  · rw [← hdrops.getGeneration]
    split
    · rename_i existing hexisting
      split
      · exact hdropped.forceTerminal
      · refine hdropped.join hexisting ?_
        obtain ⟨hkey, hcurrent⟩ := hdropped.job _ _ hexisting
        obtain ⟨hpath, hgen⟩ := PreviewReadCacheFacade.makeSnapshotKey_inj hkey
        refine Current.awaits hdropped hcurrent (hgen.symm.trans ?_) hget
        rw [PreviewReadCacheFacade.getGeneration, hpath]
        rfl
    · exact hdropped.startSnapshot hget
/-! ## The steps, as the snapshots see them -/

theorem Fresh.recordDuration (h : Fresh coordinator) (startedAt : ℚ) :
    Fresh (coordinator.recordDuration startedAt) := { h with }

theorem Fresh.finishJobWithError (h : Fresh coordinator) (requestIds : List String)
    (error : String) (resolvedPath : Option String) :
    Fresh (coordinator.finishJobWithError requestIds error resolvedPath) := by
  unfold PreviewReadCoordinator.finishJobWithError
  induction requestIds generalizing coordinator with
  | nil => exact h
  | cons id requestIds ih =>
    rw [List.foldl_cons]
    refine ih ?_
    split
    · exact h
    · exact h.sendTerminal trivial

/-- Requests that waited for a preflight go on. -/
theorem Fresh.foldl_afterPreflight (h : Fresh coordinator) (hbooked : Booked coordinator)
    (requestIds : List String) :
    Fresh (requestIds.foldl (afterPreflight preflight) coordinator) := by
  induction requestIds generalizing coordinator with
  | nil => exact h
  | cons id requestIds ih =>
    refine ih ?_ (hbooked.afterPreflight preflight)
    unfold afterPreflight
    split
    · exact h
    · rename_i request hget
      refine h.attachToSnapshot ?_
      rw [hbooked.requestId id request hget]
      exact hget

theorem Fresh.finishPreflight (h : Fresh coordinator) (hbooked : Booked coordinator)
    (job : PreviewReadPreflightJobRecord) (outcome : PreflightOutcome) :
    Fresh (coordinator.finishPreflight job outcome) := by
  cases outcome with
  | rejected reason => exact h.finishJobWithError _ _ _
  | error error => exact (h.recordDuration _).finishJobWithError _ _ _
  | otherPhase => exact (h.recordDuration _).finishJobWithError _ _ _
  | preflight preflight =>
    exact (h.recordDuration _).foldl_afterPreflight (hbooked.recordDuration _) _

/-- What a send leaves of the requests. -/
theorem sendTerminal_awaits {id : String} {dispatchedAt : ℕ}
    (h : coordinator.Awaits id realPath dispatchedAt) :
    (coordinator.sendTerminal requestId build).Awaits id realPath dispatchedAt := by
  unfold sendTerminal
  split
  · exact h
  · exact h

theorem Fresh.foldl_sendTerminal (h : Fresh coordinator) {snapshot : PreviewReadSnapshotSuccess}
    (requestIds : List String) (hawaits : ∀ id ∈ requestIds,
      coordinator.Awaits id snapshot.realPath snapshot.dispatchedAt) :
    Fresh (requestIds.foldl (fun coordinator requestId =>
      coordinator.sendTerminal requestId (.snapshot requestId snapshot)) coordinator) := by
  induction requestIds generalizing coordinator with
  | nil => exact h
  | cons id requestIds ih =>
    refine ih (h.sendTerminal (hawaits id List.mem_cons_self)) fun id' hid' => ?_
    exact sendTerminal_awaits (hawaits id' (List.mem_cons_of_mem _ hid'))

theorem Fresh.finishSnapshot (h : Fresh coordinator) {key : String}
    {job : PreviewReadSnapshotJobRecord} (hjob : coordinator.snapshotJobs.get? key = some job)
    (outcome : SnapshotOutcome) : Fresh (coordinator.finishSnapshot job outcome) := by
  cases outcome with
  | rejected reason => exact h.finishJobWithError _ _ _
  | error error => exact (h.recordDuration _).finishJobWithError _ _ _
  | otherPhase => exact (h.recordDuration _).finishJobWithError _ _ _
  | snapshot endSignature payload =>
    unfold PreviewReadCoordinator.finishSnapshot
    dsimp only
    split
    · exact (h.recordDuration _).finishJobWithError _ _ _
    · split
      · exact h.recordDuration _
      · obtain ⟨hcwd, -, -⟩ := @PreviewReadCacheFacade.writeSnapshot_spec coordinator.cache
          coordinator.now ⟨job.preflight.realPath, job.preflight.startSignature, endSignature,
            job.preflight.fileName, payload, job.dispatchedAt⟩ job.resourceGeneration
        refine Fresh.foldl_sendTerminal ?_ _ fun id hid => ?_
        · exact (h.recordDuration job.startedAt).writeSnapshot (h.job key job hjob).2
        · exact (h.waiting key job hjob id (List.mem_of_mem_filter hid)).withCache hcwd

theorem Fresh.deleteSnapshotJob (h : Fresh coordinator) (key : String) :
    Fresh { coordinator with snapshotJobs := coordinator.snapshotJobs.delete key } := by
  have hget : ∀ key' job, (coordinator.snapshotJobs.delete key).get? key' = some job →
      coordinator.snapshotJobs.get? key' = some job := by
    intro key' job hget
    rw [OrderedMap.get?_delete] at hget
    split at hget
    · cases hget
    · exact hget
  exact { h with
    job := fun key' job hjob => h.job key' job (hget key' job hjob)
    waiting := fun key' job hjob => h.waiting key' job (hget key' job hjob) }

/-- A request that no one submitted before gets a record. -/
theorem Fresh.open (h : Fresh coordinator) (hfresh : requestId ∉ coordinator.submitted)
    (hsteps : request.submittedAt = coordinator.steps) {accepted armed : List String}
    {records : OrderedMap String FanOutRecord} :
    Fresh { coordinator with
      submitted := coordinator.submitted ++ [requestId]
      externalRequests := coordinator.externalRequests.set requestId request
      accepted
      records
      armed } := by
  have hawaits : ∀ id realPath dispatchedAt, coordinator.Awaits id realPath dispatchedAt →
      Awaits { coordinator with
        submitted := coordinator.submitted ++ [requestId]
        externalRequests := coordinator.externalRequests.set requestId request
        accepted
        records
        armed } id realPath dispatchedAt := by
    intro id realPath dispatchedAt hold
    refine ⟨List.mem_append_left _ hold.1, fun request' hget => hold.2 request' ?_⟩
    dsimp only at hget
    rw [OrderedMap.get?_set] at hget
    split at hget
    · rename_i heq
      exact absurd (heq ▸ hold.1) hfresh
    · exact hget
  refine { h with
    request := fun id request' hget => ?_
    waiting := fun key job hjob id hid => hawaits _ _ _ (h.waiting key job hjob id hid)
    build := fun id build hmem => ?_ }
  · dsimp only at hget
    rw [OrderedMap.get?_set] at hget
    split at hget
    · rename_i heq
      rw [← Option.some.inj hget, heq]
      exact ⟨List.mem_append_right _ List.mem_cons_self, hsteps.le⟩
    · exact ⟨List.mem_append_left _ (h.request id request' hget).1, (h.request id request' hget).2⟩
  · have hsuits := h.build id build hmem
    cases build with
    | cached request' snapshot => exact hsuits
    | snapshot requestId' snapshot => exact hawaits _ _ _ hsuits
    | error requestId' rawPath resolvedPath error => trivial

/-- A request that no one submitted before is answered at once. -/
theorem Fresh.submitted (h : Fresh coordinator) (requestId : String) :
    Fresh { coordinator with submitted := coordinator.submitted ++ [requestId] } := by
  have hawaits : ∀ id realPath dispatchedAt, coordinator.Awaits id realPath dispatchedAt →
      Awaits { coordinator with submitted := coordinator.submitted ++ [requestId] } id realPath
        dispatchedAt := fun id realPath dispatchedAt hold =>
    ⟨List.mem_append_left _ hold.1, hold.2⟩
  refine { h with
    request := fun id request' hget =>
      ⟨List.mem_append_left _ (h.request id request' hget).1, (h.request id request' hget).2⟩
    waiting := fun key job hjob id hid => hawaits _ _ _ (h.waiting key job hjob id hid)
    build := fun id build hmem => ?_ }
  have hsuits := h.build id build hmem
  cases build with
  | cached request' snapshot => exact hsuits
  | snapshot requestId' snapshot => exact hawaits _ _ _ hsuits
  | error requestId' rawPath resolvedPath error => trivial

theorem Fresh.attachToPreflight (h : Fresh coordinator) (request : ExternalRequestRecord) :
    Fresh (coordinator.attachToPreflight request) := by
  unfold PreviewReadCoordinator.attachToPreflight
  split
  · split
    · exact h.forceTerminal
    · exact { h with }
  · split
    · exact { h with }
    · exact h

theorem Fresh.submit (h : Fresh coordinator) (hbooked : Booked coordinator)
    {id path : Option String} {queueDepth : ℚ}
    (hfresh : coordinator.IsFresh (.submit id path queueDepth)) :
    Fresh (coordinator.submit id path queueDepth).1 := by
  unfold PreviewReadCoordinator.submit
  split
  · exact h
  · rename_i requestId
    split
    · exact h
    · rename_i hne
      have hnew : requestId ∉ coordinator.submitted := hfresh requestId (if_neg hne)
      dsimp only
      split
      · exact (h.submitted requestId).enqueueMessage
      · split
        · exact (h.submitted requestId).enqueueMessage
        · have hrecords : PreviewReadCoordinator.records { coordinator with
              submitted := coordinator.submitted ++ [requestId] } = coordinator.records := rfl
          rw [accept_eq (hrecords ▸ hbooked.get?_records hnew)]
          exact (h.open hnew rfl).attachToPreflight _

/-- What holds before the next step. -/
theorem Fresh.next (h : Fresh coordinator) {steps : ℕ} (hsteps : coordinator.steps ≤ steps) :
    Fresh { coordinator with steps } := by
  have hunspoiled : ∀ submittedAt realPath dispatchedAt,
      coordinator.Unspoiled submittedAt realPath dispatchedAt →
      Unspoiled { coordinator with steps } submittedAt realPath dispatchedAt :=
    fun submittedAt realPath dispatchedAt hold => ⟨hold.1.trans hsteps, hold.2⟩
  refine { h with
    steps := fun t path hmem => (h.steps t path hmem).trans hsteps
    request := fun id request hget =>
      ⟨(h.request id request hget).1, (h.request id request hget).2.trans hsteps⟩
    waiting := fun key job hjob id hid => ?_
    build := fun id build hmem => ?_
    sent := fun message hmem request snapshot fromCache heq =>
      hunspoiled _ _ _ (h.sent message hmem request snapshot fromCache heq) }
  · have hold := h.waiting key job hjob id hid
    exact ⟨hold.1, fun request hget => hunspoiled _ _ _ (hold.2 request hget)⟩
  · have hsuits := h.build id build hmem
    cases build with
    | cached request' snapshot => exact hunspoiled _ _ _ hsuits
    | snapshot requestId' snapshot =>
      exact ⟨hsuits.1, fun request hget => hunspoiled _ _ _ (hsuits.2 request hget)⟩
    | error requestId' rawPath resolvedPath error => trivial

theorem Fresh.handle (h : Fresh coordinator) (hbooked : Booked coordinator)
    {event : CoordinatorEvent} (hfresh : coordinator.IsFresh event) :
    Fresh (coordinator.handle event) := by
  cases event with
  | clock now => exact { h with }
  | submit id path queueDepth => exact h.submit hbooked hfresh
  | preflightEnds key outcome =>
    dsimp only [PreviewReadCoordinator.handle]
    split
    · exact h
    · exact { h.finishPreflight hbooked _ outcome with }
  | snapshotEnds key outcome =>
    dsimp only [PreviewReadCoordinator.handle]
    split
    · exact h
    · rename_i job hjob
      exact (h.finishSnapshot hjob outcome).deleteSnapshotJob key
  | timerFires id => exact h.timerFires
  | sendNext => exact h.sendNext hbooked
  | sendEnds => exact { h with }
  | invalidatePath realPath => exact h.invalidatePath realPath
/-! ## Runs -/

theorem Fresh.step (h : Fresh coordinator) (hbooked : Booked coordinator)
    {event : CoordinatorEvent} (hfresh : coordinator.IsFresh event) :
    Fresh (coordinator.step event) :=
  (h.handle hbooked hfresh).next (Nat.le_succ _)

/-- In a run that submits no request id twice, no event submits one for a second time. -/
theorem along_isFresh {events : List CoordinatorEvent}
    (hnodup : (coordinator.submitted ++ events.filterMap CoordinatorEvent.requestId?).Nodup) :
    Along step IsFresh events coordinator := by
  induction events generalizing coordinator with
  | nil => trivial
  | cons event events ih =>
    rw [List.filterMap_cons] at hnodup
    refine ⟨fun requestId hid hmem => ?_, ih ?_⟩
    · rw [hid] at hnodup
      exact (List.nodup_append.1 hnodup).2.2 requestId hmem requestId List.mem_cons_self rfl
    · rw [(step_spec coordinator event).1]
      cases hid : event.requestId? with
      | none => simpa [hid] using hnodup
      | some requestId =>
        rw [hid] at hnodup
        simpa [List.append_assoc] using hnodup

theorem booked_new {admission : PreviewReadAdmissionController} {attachedCap : Option ℚ}
    {errorCodes : PreviewReadCoordinatorErrorCodes} {now : ℚ} :
    Booked (new admission cache attachedCap errorCodes now) :=
  ⟨nofun, nofun, nofun, fun _ => rfl, nofun, nofun, nofun, nofun⟩

theorem fresh_new {admission : PreviewReadAdmissionController} {attachedCap : Option ℚ}
    {errorCodes : PreviewReadCoordinatorErrorCodes} {now : ℚ} {cwd : String}
    {options : PreviewReadCacheFacadeOptions} :
    Fresh (new admission (.new cwd options) attachedCap errorCodes now) :=
  ⟨nofun, nofun, nofun, nofun, nofun, nofun, nofun⟩

end PreviewReadCoordinator

/-- Every accepted request gets one answer, in time and fresh. -/
structure Answered (coordinator : PreviewReadCoordinator) : Prop where
  /-- At most one response is sent for a request. -/
  once : ∀ id ∈ coordinator.accepted,
    (coordinator.sent.filter fun message => message.response.requestId = id).length ≤ 1
  /-- A request without a response that was sent or is in the queue has its timer. -/
  armed : ∀ id ∈ coordinator.accepted,
    (∀ message ∈ coordinator.sent, message.response.requestId ≠ id) →
    (∀ message, .message message ∈ coordinator.queue → message.response.requestId ≠ id) →
    id ∈ coordinator.armed
  /-- A preview is built before the deadline of its request. -/
  inTime : ∀ message ∈ coordinator.sent, ∀ request snapshot fromCache,
    message.response = .result request snapshot fromCache → message.builtAt < request.deadlineAt
  /-- It was not read before an invalidation of its path that the request follows. -/
  fresh : ∀ message ∈ coordinator.sent, ∀ request snapshot fromCache,
    message.response = .result request snapshot fromCache →
      ∀ t path, (t, path) ∈ coordinator.invalidated →
        coordinator.cache.normalizePath path =
          coordinator.cache.normalizePath snapshot.realPath →
        t < request.submittedAt → ¬snapshot.dispatchedAt < t

open PreviewReadCoordinator in
theorem answered_of_booked {coordinator : PreviewReadCoordinator} (hbooked : Booked coordinator)
    (hfresh : Fresh coordinator) : Answered coordinator where
  once id hid := by
    have honce := hbooked.once id
    rw [if_pos (hbooked.accepted id hid), count] at honce
    have hlen : (coordinator.sent.filter fun message => message.response.requestId = id).length =
        coordinator.sent.countP (isFor id) := List.countP_eq_length_filter.symm
    omega
  armed id hid hsent hqueue := by
    have honce := hbooked.once id
    rw [if_pos (hbooked.accepted id hid), count] at honce
    have hsent' : coordinator.sent.countP (isFor id) = 0 :=
      List.countP_eq_zero.2 fun message hmem => by simpa [isFor] using hsent message hmem
    have hqueue' : (coordinator.queue.filterMap SendOperation.message?).countP (isFor id) = 0 := by
      refine List.countP_eq_zero.2 fun message hmem => ?_
      obtain ⟨operation, hin, hop⟩ := List.mem_filterMap.1 hmem
      cases operation with
      | message built =>
        obtain rfl := Option.some.inj hop
        simpa [isFor] using hqueue _ hin
      | terminal id' build => cases hop
    rw [hsent', hqueue'] at honce
    cases hrec : coordinator.records.get? id with
    | none =>
      rw [hrec] at honce
      simp at honce
    | some record => exact hbooked.armed id record hrec
  inTime := hbooked.inTime
  fresh message hmem request snapshot fromCache heq t path hin hpath hlt :=
    not_lt.2 ((hfresh.sent message hmem request snapshot fromCache heq).2 t path hin hpath hlt)

/-- **Every accepted request gets exactly one answer, in time and fresh**, in every run of a
coordinator in which no request id is submitted twice; the accepted requests are those of the
submissions that the admission lets in. -/
theorem answered_run (admission : PreviewReadAdmissionController) (cwd : String)
    (options : PreviewReadCacheFacadeOptions) (attachedCap : Option ℚ)
    (errorCodes : PreviewReadCoordinatorErrorCodes) (now : ℚ) (events : List CoordinatorEvent)
    (hdistinct : (events.filterMap CoordinatorEvent.requestId?).Nodup) :
    let start : PreviewReadCoordinator :=
      .new admission (.new cwd options) attachedCap errorCodes now
    (run PreviewReadCoordinator.step events start).accepted =
        gathered PreviewReadCoordinator.step (fun coordinator event =>
          (coordinator.acceptedId? event).toList) events start ∧
      Answered (run PreviewReadCoordinator.step events start) := by
  intro start
  obtain ⟨hbooked, hfresh⟩ := run_invariant
    (fun coordinator => PreviewReadCoordinator.Booked coordinator ∧
      PreviewReadCoordinator.Fresh coordinator)
    (fun coordinator event h hok => ⟨h.1.step hok, h.2.step h.1 hok⟩)
    ⟨PreviewReadCoordinator.booked_new, PreviewReadCoordinator.fresh_new⟩
    (PreviewReadCoordinator.along_isFresh hdistinct)
  refine ⟨?_, answered_of_booked hbooked hfresh⟩
  exact run_gathered PreviewReadCoordinator.accepted
    (fun coordinator event => (coordinator.acceptedId? event).toList)
    (fun coordinator event => (PreviewReadCoordinator.step_spec coordinator event).2.1) start events

/-- Two requests for one file, which share the preflight and the snapshot. -/
def sharedRead : List CoordinatorEvent :=
  [.submit (some "first") (some "/a.txt") 0, .submit (some "second") (some "/a.txt") 0,
    .preflightEnds "/a.txt" (.preflight ⟨"/a.txt", ⟨"1", by decide⟩, ⟨"2", by decide⟩, "a.txt"⟩),
    .snapshotEnds "/a.txt::1:2::0" (.snapshot "1:2" (.text "hi")), .sendNext, .sendEnds,
    .sendNext]

theorem answered_run_sharedRead :
    let start : PreviewReadCoordinator := .new (.new {}) (.new "/" {}) none {} 0
    (run PreviewReadCoordinator.step sharedRead start).accepted =
        gathered PreviewReadCoordinator.step (fun coordinator event =>
          (coordinator.acceptedId? event).toList) sharedRead start ∧
      Answered (run PreviewReadCoordinator.step sharedRead start) :=
  answered_run (.new {}) "/" {} none {} 0 sharedRead (by decide)

end Imcodes.FilePreview
