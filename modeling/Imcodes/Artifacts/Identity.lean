import Imcodes.Artifacts.Freeze
import Imcodes.Machine.Runs
import Mathlib.Data.List.Dedup
import Mathlib.Data.List.Pairwise
import Mathlib.Data.List.Perm.Subperm

/-!
# One identity for each run

The daemon keeps the frozen identity of each run in memory and writes it to a file of its own;
after a restart it reads the files again.  Calls for many runs are under way at a time, and each
goes on by one file operation: the look for an identity and the recording of a new one lie apart.

* `oneIdentity_run` — when all calls for a run give one identity, and no two runs one change path.
-/

namespace Imcodes.Artifacts

open Files Machine
open Posix (Name IsName Path)
open Workflow (isP2pArtifactRelativePath)

/-- `PERSISTED_IDENTITY_MAX_COUNT` -/
def persistedIdentityMaxCount : ℕ := 500

/-- `PERSISTED_IDENTITY_MAX_AGE_MS` -/
def persistedIdentityMaxAgeMs : ℕ := 7 * 24 * 60 * 60 * 1000

/-- A call of `freezeP2pArtifactIdentity` and what is left of it. -/
structure FreezeCall where
  runId : String
  program : FileProgram (Except Errno P2pFrozenArtifactIdentity)

/-- The file `identity.json` of a run. -/
structure StoredIdentity where
  identity : P2pFrozenArtifactIdentity
  mtimeMs : ℕ
deriving DecidableEq

structure ArtifactRuntime where
  repoRoot : String
  fs : FileSystem
  frozenIdentities : OrderedMap String P2pFrozenArtifactIdentity := .empty
  calls : List FreezeCall := []
  /-- The identities whose files are still being written. -/
  persisting : List (String × P2pFrozenArtifactIdentity) := []
  /-- The files, by the directories they lie in below the directory of all runs. -/
  runState : OrderedMap (List Name) StoredIdentity := .empty
  /-- All identities ever recorded, oldest first. -/
  recorded : List (String × P2pFrozenArtifactIdentity) := []
  /-- What the calls have given, oldest first. -/
  returned : List (String × P2pFrozenArtifactIdentity) := []

inductive FreezeEvent
  | freeze (args : P2pArtifactFreezeArgs)
  /-- The next file operation of a call. -/
  | next (index : ℕ)
  /-- The file of an identity has been written. -/
  | persisted (index : ℕ) (mtimeMs : ℕ)
  /-- A restart, with what the directory of all runs lists and whether paths are checked again. -/
  | restart (listing : List String) (now : ℕ) (checksPaths : Bool)

/-- `path.join(resolveRunStateDir(), runId)`, from the directory of all runs -/
def runDirectory (runId : String) : List Name :=
  (Path.normalize ⟨false, Posix.segments runId⟩).segments

/-- `/^[A-Za-z0-9_-]+$/` -/
def isRunStateName (entry : String) : Bool :=
  entry ≠ "" && entry.toList.all fun c =>
    Workflow.isUpper c || Workflow.isLower c || Workflow.isDigit c || c = '_' || c = '-'

/-! ## Loading -/

/-- What the loop over the entries has found. -/
structure Loading where
  frozenIdentities : OrderedMap String P2pFrozenArtifactIdentity := .empty
  runState : OrderedMap (List Name) StoredIdentity
  loaded : ℕ := 0

/-- The paths of an identity are checked again if a repository root is given. -/
def keepsPaths (checksPaths : Bool) (identity : P2pFrozenArtifactIdentity) : Bool :=
  !checksPaths ||
    (identity.openspecArtifactPaths.all isP2pArtifactRelativePath &&
      identity.openspecChangePath.all fun path => path = "" || isP2pArtifactRelativePath path)

def isExpired (now : ℕ) (stored : StoredIdentity) : Bool :=
  now - stored.mtimeMs > persistedIdentityMaxAgeMs

/-- One entry of the directory; beyond the cap none is looked at. -/
def loadEntry (now : ℕ) (checksPaths : Bool) (loading : Loading) (entry : String) : Loading :=
  if loading.loaded ≥ persistedIdentityMaxCount then loading
  else if !isRunStateName entry then loading
  else
    match loading.runState.get? [entry.toList] with
    | none => loading
    | some stored =>
      if isExpired now stored then
        { loading with runState := loading.runState.delete [entry.toList] }
      else if !keepsPaths checksPaths stored.identity then loading
      else
        { loading with
          frozenIdentities := loading.frozenIdentities.set entry stored.identity
          loaded := loading.loaded + 1 }

namespace ArtifactRuntime

/-- What the directory lists: the runs with files, in the order of the listing, and what else it
names. -/
def entries (runtime : ArtifactRuntime) (listing : List String) : List String :=
  ((runtime.runState.toList.filterMap fun (directory, _) =>
    directory.head?.map String.ofList) ++ listing).dedup

/-- `loadPersistedFrozenP2pArtifactIdentities` -/
def load (runtime : ArtifactRuntime) (listing : List String) (now : ℕ) (checksPaths : Bool) :
    Loading :=
  (runtime.entries listing).foldl (loadEntry now checksPaths) { runState := runtime.runState }

/-- A restart after all files have been written, and within the retention of each. -/
def restart (runtime : ArtifactRuntime) (listing : List String) (now : ℕ) (checksPaths : Bool) :
    ArtifactRuntime :=
  if runtime.persisting.isEmpty && runtime.runState.values.all (!isExpired now ·) then
    let loading := runtime.load listing now checksPaths
    { runtime with
      calls := []
      frozenIdentities := loading.frozenIdentities
      runState := loading.runState }
  else runtime

/-- The file of an identity takes the place of an older one. -/
def persisted (runtime : ArtifactRuntime) (index mtimeMs : ℕ) : ArtifactRuntime :=
  match runtime.persisting[index]? with
  | none => runtime
  | some (runId, identity) =>
    { runtime with
      persisting := runtime.persisting.eraseIdx index
      runState := runtime.runState.set (runDirectory runId) { identity, mtimeMs } }

/-! ## Calls -/

def recordFrozenIdentity (runtime : ArtifactRuntime) (runId : String)
    (identity : P2pFrozenArtifactIdentity) : ArtifactRuntime :=
  { runtime with
    frozenIdentities := runtime.frozenIdentities.set runId identity
    persisting := runtime.persisting ++ [(runId, identity)]
    recorded := runtime.recorded ++ [(runId, identity)] }

/-- A call gives an identity. -/
def give (runtime : ArtifactRuntime) (runId : String) (identity : P2pFrozenArtifactIdentity) :
    ArtifactRuntime :=
  { runtime with returned := runtime.returned ++ [(runId, identity)] }

/-- A call that is done ends: it records its identity and gives it, or it has thrown. -/
def settle (runtime : ArtifactRuntime) (index : ℕ) : ArtifactRuntime :=
  match runtime.calls[index]? with
  | some ⟨runId, .done (.ok identity)⟩ =>
    { (runtime.recordFrozenIdentity runId identity).give runId identity with
      calls := runtime.calls.eraseIdx index }
  | some ⟨_, .done (.error _)⟩ => { runtime with calls := runtime.calls.eraseIdx index }
  | _ => runtime

/-- `freezeP2pArtifactIdentity`, as far as it goes at once. -/
def freeze (runtime : ArtifactRuntime) (args : P2pArtifactFreezeArgs) : ArtifactRuntime :=
  match runtime.frozenIdentities.get? args.runId with
  | some existing => runtime.give args.runId existing
  | none =>
    let call : FreezeCall := ⟨args.runId, frozenIdentity runtime.repoRoot args⟩
    { runtime with calls := runtime.calls ++ [call] }.settle runtime.calls.length

/-- A call with the answer to its next request, and the file system after it. -/
def answered (runtime : ArtifactRuntime) (index : ℕ) : Option (FreezeCall × FileSystem) :=
  match runtime.calls[index]? with
  | some ⟨runId, .request request next⟩ =>
    some (⟨runId, next (FileSystem.perform request runtime.fs).1⟩,
      (FileSystem.perform request runtime.fs).2)
  | _ => none

def next (runtime : ArtifactRuntime) (index : ℕ) : ArtifactRuntime :=
  match runtime.answered index with
  | none => runtime
  | some (call, fs) => { runtime with fs, calls := runtime.calls.set index call }.settle index

def step (runtime : ArtifactRuntime) : FreezeEvent → ArtifactRuntime
  | .freeze args => runtime.freeze args
  | .next index => runtime.next index
  | .persisted index mtimeMs => runtime.persisted index mtimeMs
  | .restart listing now checksPaths => runtime.restart listing now checksPaths

/-! ## One identity -/

/-- An identity that does not say an error. -/
def IsFrozen (identity : P2pFrozenArtifactIdentity) : Prop :=
  ∀ diagnostic ∈ identity.diagnostics, diagnostic.isError = false

/-- The calls that succeeded gave one identity for each run, and no change path to two runs. -/
structure OneIdentity (runtime : ArtifactRuntime) : Prop where
  same : ∀ runId a b, (runId, a) ∈ runtime.returned → (runId, b) ∈ runtime.returned →
    IsFrozen a → IsFrozen b →
      a.openspecChangePath = b.openspecChangePath ∧
        a.openspecArtifactPaths = b.openspecArtifactPaths
  apart : ∀ runId runId' a b, (runId, a) ∈ runtime.returned → (runId', b) ∈ runtime.returned →
    IsFrozen a → IsFrozen b → runId ≠ runId' →
      ∀ path ∈ a.openspecChangePath, path ∉ b.openspecChangePath

/-- What a call ends with, if its next file operation is its last. -/
def ending (runtime : ArtifactRuntime) (index : ℕ) : Option (String × P2pFrozenArtifactIdentity) :=
  match runtime.answered index with
  | some (⟨runId, .done (.ok identity)⟩, _) => some (runId, identity)
  | _ => none

/-- Runs are named by plain names, a call ends with an identity only if none has been recorded for
its run meanwhile, and a restart finds no more identities than it loads, each with good paths. -/
def KeepsIdentities (runtime : ArtifactRuntime) : FreezeEvent → Prop
  | .freeze args => isRunStateName args.runId = true
  | .next index => ∀ ended ∈ runtime.ending index, runtime.frozenIdentities.get? ended.1 = none
  | .persisted _ _ => True
  | .restart _ _ checksPaths =>
    runtime.runState.toList.length ≤ persistedIdentityMaxCount ∧
      ∀ stored ∈ runtime.runState.values, keepsPaths checksPaths stored.identity = true

end ArtifactRuntime

namespace ArtifactRuntime

variable {runtime : ArtifactRuntime} {index : ℕ} {runId : String}
  {identity : P2pFrozenArtifactIdentity}

/-! ## Change paths are made once -/

/-- Something has been made at a path, and is still there. -/
def Taken (fs : FileSystem) (path : Path) : Prop :=
  ∃ before made node, FileSystem.create before path node = .ok made ∧ made.Extends fs

theorem Taken.mono {fs fs' : FileSystem} {path : Path} (h : Taken fs path)
    (hmore : fs.Extends fs') : Taken fs' path := by
  obtain ⟨before, made, node, hmade, hstill⟩ := h
  exact ⟨before, made, node, hmade, hstill.trans hmore⟩

/-- What the calls under way will give has its directory made by their last request. -/
def MakesDirectory (repoRoot : String) (program : FileProgram (Except Errno P2pFrozenArtifactIdentity))
    (answers : Program.Answers FileRequest FileRequest.Answer) : Prop :=
  program.Ensures (fun answers result => ∀ identity, result = .ok identity →
    ∀ path ∈ identity.openspecChangePath, MadeLast repoRoot path answers) answers

/-- Each change path that has been recorded was made, and none was recorded twice. -/
structure MadeOnce (runtime : ArtifactRuntime) : Prop where
  calls : ∀ call ∈ runtime.calls,
    ∃ answers, MakesDirectory runtime.repoRoot call.program answers
  made : ∀ entry ∈ runtime.recorded, ∀ path ∈ entry.2.openspecChangePath,
    Taken runtime.fs (repositoryPath runtime.repoRoot path)
  distinct : runtime.recorded.Pairwise fun entry entry' =>
    ∀ path ∈ entry.2.openspecChangePath, path ∉ entry'.2.openspecChangePath

/-- How a call may end, or that it goes on. -/
theorem settle_cases (runtime : ArtifactRuntime) (index : ℕ) :
    (∃ runId identity, runtime.calls[index]? = some ⟨runId, .done (.ok identity)⟩ ∧
      runtime.settle index =
        { (runtime.recordFrozenIdentity runId identity).give runId identity with
          calls := runtime.calls.eraseIdx index }) ∨
    ∃ calls, calls ⊆ runtime.calls ∧ runtime.settle index = { runtime with calls } := by
  unfold settle
  split
  · rename_i runId identity hcall
    exact Or.inl ⟨runId, identity, hcall, rfl⟩
  · exact Or.inr ⟨_, List.eraseIdx_subset, rfl⟩
  · exact Or.inr ⟨_, List.Subset.refl _, rfl⟩

theorem MadeOnce.settle (h : MadeOnce runtime)
    (hnew : ∀ runId identity, runtime.calls[index]? = some ⟨runId, .done (.ok identity)⟩ →
      ∀ path ∈ identity.openspecChangePath,
        Taken runtime.fs (repositoryPath runtime.repoRoot path) ∧
          ∀ entry ∈ runtime.recorded, path ∉ entry.2.openspecChangePath) :
    MadeOnce (runtime.settle index) := by
  rcases settle_cases runtime index with ⟨runId, identity, hcall, heq⟩ | ⟨calls, hcalls, heq⟩
  · rw [heq]
    refine ⟨fun call hmem => h.calls call (List.eraseIdx_subset hmem), ?_, ?_⟩
    · intro entry hentry path hpath
      rcases List.mem_append.1 hentry with hentry | hentry
      · exact h.made entry hentry path hpath
      · rw [List.mem_singleton.1 hentry] at hpath
        exact (hnew runId identity hcall path hpath).1
    · refine List.pairwise_append.2 ⟨h.distinct, List.pairwise_singleton _ _, ?_⟩
      intro entry hentry entry' hentry' path hpath hpath'
      rw [List.mem_singleton.1 hentry'] at hpath'
      exact (hnew runId identity hcall path hpath').2 entry hentry hpath
  · rw [heq]
    exact ⟨fun call hmem => h.calls call (hcalls hmem), h.made, h.distinct⟩

theorem answered_eq_some {call : FreezeCall} {fs : FileSystem}
    (h : runtime.answered index = some (call, fs)) :
    ∃ runId request next, runtime.calls[index]? = some ⟨runId, .request request next⟩ ∧
      call = ⟨runId, next (FileSystem.perform request runtime.fs).1⟩ ∧
      fs = (FileSystem.perform request runtime.fs).2 := by
  unfold answered at h
  split at h
  · rename_i runId request next hcall
    cases h
    exact ⟨runId, request, next, hcall, rfl, rfl⟩
  · cases h

/-- A request that made a directory. -/
theorem mkdir_of_perform {fs : FileSystem} {path : Path} {request : FileRequest}
    (h : (⟨request, (FileSystem.perform request fs).1⟩ : Σ r : FileRequest, r.Answer) =
      ⟨.mkdir path, .ok ()⟩) :
    fs.mkdir path = .ok (FileSystem.perform request fs).2 := by
  obtain ⟨rfl, hanswer⟩ := Sigma.mk.inj_iff.1 h
  have hok := eq_of_heq hanswer
  simp only [FileSystem.perform] at hok ⊢
  cases hmkdir : fs.mkdir path with
  | ok made => rfl
  | error e =>
    rw [hmkdir] at hok
    cases hok

theorem MadeOnce.next (h : MadeOnce runtime) : MadeOnce (runtime.next index) := by
  unfold ArtifactRuntime.next
  split
  · exact h
  · rename_i call fs hanswered
    obtain ⟨runId, request, next, hcall, rfl, rfl⟩ := answered_eq_some hanswered
    obtain ⟨answers, hmakes⟩ := h.calls _ (List.mem_of_getElem? hcall)
    have hgoes := hmakes (FileSystem.perform request runtime.fs).1
    have hmore := runtime.fs.extends_perform request
    refine MadeOnce.settle ⟨fun call hmem => ?_, fun entry hentry path hpath =>
      (h.made entry hentry path hpath).mono hmore, h.distinct⟩ ?_
    · rcases List.mem_or_eq_of_mem_set hmem with hmem | rfl
      · exact h.calls call hmem
      · exact ⟨_, hgoes⟩
    · intro runId' identity hdone path hpath
      rw [List.getElem?_set_self (List.getElem?_eq_some_iff.1 hcall).1] at hdone
      obtain ⟨rfl, hprogram⟩ := FreezeCall.mk.inj (Option.some.inj hdone)
      rw [hprogram] at hgoes
      obtain ⟨init, hlast⟩ := hgoes identity rfl path hpath
      have hmkdir := mkdir_of_perform (List.singleton_inj.1 (List.append_inj' hlast rfl).2)
      refine ⟨⟨_, _, _, hmkdir, .refl _⟩, fun entry hentry hmem => ?_⟩
      obtain ⟨before, made, node, hmade, hstill⟩ := h.made entry hentry path hmem
      rw [FileSystem.mkdir, FileSystem.create_twice hmade hstill] at hmkdir
      cases hmkdir

theorem MadeOnce.freeze (h : MadeOnce runtime) (args : P2pArtifactFreezeArgs) :
    MadeOnce (runtime.freeze args) := by
  unfold ArtifactRuntime.freeze
  split
  · exact ⟨h.calls, h.made, h.distinct⟩
  · refine MadeOnce.settle ⟨fun call hmem => ?_, h.made, h.distinct⟩ ?_
    · rcases List.mem_append.1 hmem with hmem | hmem
      · exact h.calls call hmem
      · rw [List.mem_singleton.1 hmem]
        exact ⟨[], ensures_frozenIdentity args⟩
    · intro runId identity hdone path hpath
      rw [List.getElem?_concat_length] at hdone
      obtain ⟨-, hprogram⟩ := FreezeCall.mk.inj (Option.some.inj hdone)
      have hensures := @ensures_frozenIdentity runtime.repoRoot [] args
      rw [hprogram] at hensures
      obtain ⟨init, hlast⟩ := hensures identity rfl path hpath
      exact absurd hlast.symm (by simp)

theorem MadeOnce.persisted (h : MadeOnce runtime) (mtimeMs : ℕ) :
    MadeOnce (runtime.persisted index mtimeMs) := by
  unfold ArtifactRuntime.persisted
  split
  · exact h
  · exact ⟨h.calls, h.made, h.distinct⟩

theorem MadeOnce.restart (h : MadeOnce runtime) (listing : List String) (now : ℕ)
    (checksPaths : Bool) : MadeOnce (runtime.restart listing now checksPaths) := by
  unfold ArtifactRuntime.restart
  split
  · exact ⟨fun _ hmem => absurd hmem List.not_mem_nil, h.made, h.distinct⟩
  · exact h

/-- **No change path is recorded twice, whatever the order of the calls.** -/
theorem MadeOnce.step (h : MadeOnce runtime) (event : FreezeEvent) :
    MadeOnce (runtime.step event) := by
  cases event with
  | freeze args => exact h.freeze args
  | next index => exact h.next
  | persisted index mtimeMs => exact h.persisted mtimeMs
  | restart listing now checksPaths => exact h.restart listing now checksPaths

/-! ## What a restart loads -/

variable {runState : OrderedMap (List Name) StoredIdentity} {now : ℕ} {checksPaths : Bool}

/-- The files of runs can all be loaded again. -/
structure Loadable (now : ℕ) (checksPaths : Bool)
    (runState : OrderedMap (List Name) StoredIdentity) : Prop where
  count : runState.toList.length ≤ persistedIdentityMaxCount
  good : ∀ entry stored, runState.get? [entry.toList] = some stored →
    isRunStateName entry = true ∧ isExpired now stored = false ∧
      keepsPaths checksPaths stored.identity = true

/-- The loop has loaded what it has seen. -/
structure LoadedFrom (runState : OrderedMap (List Name) StoredIdentity) (seen : List String)
    (loading : Loading) : Prop where
  state : loading.runState = runState
  loaded : loading.loaded = seen.countP fun entry => (runState.get? [entry.toList]).isSome
  get? : ∀ entry, loading.frozenIdentities.get? entry =
    if entry ∈ seen then (runState.get? [entry.toList]).map StoredIdentity.identity else none

/-- Entries with files are no more than there are files. -/
theorem countP_le_length {entries : List String} (hnodup : entries.Nodup) :
    (entries.countP fun entry => (runState.get? [entry.toList]).isSome) ≤
      runState.toList.length := by
  have hinj : Function.Injective fun entry : String => [entry.toList] := fun a b h =>
    String.toList_inj.1 (List.singleton_inj.1 h)
  rw [List.countP_eq_length_filter, ← List.length_map fun entry : String => [entry.toList],
    ← @List.length_map _ _ runState.toList Prod.fst]
  refine (List.subperm_of_subset ((hnodup.filter _).map hinj) fun key hkey => ?_).length_le
  obtain ⟨entry, hentry, rfl⟩ := List.mem_map.1 hkey
  obtain ⟨stored, hstored⟩ := Option.isSome_iff_exists.1 (List.mem_filter.1 hentry).2
  exact List.mem_map_of_mem (OrderedMap.get?_eq_some.1 hstored)

theorem LoadedFrom.loadEntry {seen : List String} {loading : Loading} {entry : String}
    (h : LoadedFrom runState seen loading) (hload : Loadable now checksPaths runState)
    (hnodup : (seen ++ [entry]).Nodup) :
    LoadedFrom runState (seen ++ [entry])
      (Artifacts.loadEntry now checksPaths loading entry) := by
  have hcount := (@countP_le_length runState _ hnodup).trans hload.count
  rw [List.countP_append, List.countP_singleton] at hcount
  cases hstored : runState.get? [entry.toList] with
  | none =>
    have hsame : Artifacts.loadEntry now checksPaths loading entry = loading := by
      unfold Artifacts.loadEntry
      rw [h.state, hstored]
      simp
    rw [hsame]
    refine ⟨h.state, ?_, fun entry' => ?_⟩
    · rw [List.countP_append, List.countP_singleton, hstored]
      exact h.loaded
    · rw [h.get?]
      by_cases heq : entry' = entry
      · subst heq
        simp [hstored]
      · simp [heq]
  | some stored =>
    obtain ⟨hname, hfresh, hpaths⟩ := hload.good entry stored hstored
    have hlt : ¬ loading.loaded ≥ persistedIdentityMaxCount := by
      rw [hstored] at hcount
      rw [h.loaded]
      simp only [Option.isSome_some, if_true] at hcount
      omega
    have hset : Artifacts.loadEntry now checksPaths loading entry =
        { loading with
          frozenIdentities := loading.frozenIdentities.set entry stored.identity
          loaded := loading.loaded + 1 } := by
      unfold Artifacts.loadEntry
      rw [if_neg hlt, h.state, hstored]
      simp [hname, hfresh, hpaths]
    rw [hset]
    refine ⟨h.state, ?_, fun entry' => ?_⟩
    · rw [List.countP_append, List.countP_singleton, hstored, ← h.loaded]
      rfl
    · rw [OrderedMap.get?_set, h.get?]
      by_cases heq : entry' = entry
      · subst heq
        simp [hstored]
      · simp [heq]

theorem loadedFrom_foldl (hload : Loadable now checksPaths runState) (entries : List String)
    (hnodup : entries.Nodup) :
    LoadedFrom runState entries
      (entries.foldl (Artifacts.loadEntry now checksPaths) { runState }) := by
  induction entries using List.reverseRecOn with
  | nil => exact ⟨rfl, rfl, fun entry => by simp⟩
  | append_singleton entries entry ih =>
    rw [List.foldl_append]
    exact (ih (hnodup.sublist (List.sublist_append_left _ _))).loadEntry hload hnodup

/-- **A restart finds the identities of all runs again.** -/
theorem loaded_load (hload : Loadable now checksPaths runtime.runState) (listing : List String) :
    (runtime.load listing now checksPaths).runState = runtime.runState ∧
      ∀ entry, (runtime.load listing now checksPaths).frozenIdentities.get? entry =
        (runtime.runState.get? [entry.toList]).map StoredIdentity.identity := by
  have h := loadedFrom_foldl hload (runtime.entries listing) (List.nodup_dedup _)
  refine ⟨h.state, fun entry => (h.get? entry).trans ?_⟩
  cases hstored : runtime.runState.get? [entry.toList] with
  | none => exact ite_self _
  | some stored =>
    refine if_pos (List.mem_dedup.2 (List.mem_append_left _ (List.mem_filterMap.2 ?_)))
    exact ⟨_, OrderedMap.get?_eq_some.1 hstored, by simp⟩

/-! ## Runs keep their identities -/

theorem isName_of_isRunStateName (h : isRunStateName runId = true) : IsName runId.toList := by
  unfold isRunStateName at h
  rw [Bool.and_eq_true, decide_eq_true_eq, List.all_eq_true] at h
  have hnot : ∀ c ∈ runId.toList, c ≠ '.' ∧ c ≠ '/' := fun c hc => by
    constructor <;> rintro rfl <;> exact absurd (h.2 _ hc) (by decide)
  refine ⟨?_, fun heq => ?_, fun heq => ?_, fun hmem => (hnot '/' hmem).2 rfl⟩
  · rw [ne_eq, String.toList_eq_nil_iff]
    exact h.1
  · exact (hnot '.' (heq ▸ List.mem_cons_self)).1 rfl
  · exact (hnot '.' (heq ▸ List.mem_cons_self)).1 rfl

/-- The directory of a run with a plain name. -/
theorem runDirectory_eq (h : isRunStateName runId = true) : runDirectory runId = [runId.toList] := by
  have hname := isName_of_isRunStateName h
  have hsegments : Posix.segments runId = [runId.toList] := by
    rw [Posix.segments, List.splitOn_eq_singleton hname.slash]
  rw [runDirectory, Path.normalize, hsegments]
  exact Path.add_of_isName hname

/-- Each run has one identity, in memory and in its file or on the way there. -/
structure Steady (runtime : ArtifactRuntime) : Prop where
  names : ∀ entry ∈ runtime.recorded, isRunStateName entry.1 = true
  calls : ∀ call ∈ runtime.calls, isRunStateName call.runId = true
  known : ∀ entry, entry ∈ runtime.recorded ↔
    runtime.frozenIdentities.get? entry.1 = some entry.2
  written : ∀ entry ∈ runtime.recorded, entry ∈ runtime.persisting ∨
    ∃ mtimeMs, runtime.runState.get? [entry.1.toList] = some ⟨entry.2, mtimeMs⟩
  persisting : runtime.persisting ⊆ runtime.recorded
  runState : ∀ directory stored, runtime.runState.get? directory = some stored →
    ∃ runId, directory = [runId.toList] ∧ (runId, stored.identity) ∈ runtime.recorded
  returned : runtime.returned ⊆ runtime.recorded

theorem Steady.settle (h : Steady runtime)
    (hnew : ∀ runId identity, runtime.calls[index]? = some ⟨runId, .done (.ok identity)⟩ →
      runtime.frozenIdentities.get? runId = none) : Steady (runtime.settle index) := by
  rcases settle_cases runtime index with ⟨runId, identity, hcall, heq⟩ | ⟨calls, hcalls, heq⟩
  · rw [heq]
    have hnone := hnew runId identity hcall
    have hmem : ∀ {entry}, entry ∈ runtime.recorded ++ [(runId, identity)] ↔
        entry ∈ runtime.recorded ∨ entry = (runId, identity) := by
      intro entry
      rw [List.mem_append, List.mem_singleton]
    refine
      { names := fun entry hentry => ?_
        calls := fun call hmem => h.calls call (List.eraseIdx_subset hmem)
        known := fun entry => ?_
        written := fun entry hentry => ?_
        persisting := List.append_subset.2
          ⟨fun _ hentry => hmem.2 (Or.inl (h.persisting hentry)), List.subset_append_right _ _⟩
        runState := fun directory stored hstored => ?_
        returned := List.append_subset.2
          ⟨fun _ hentry => hmem.2 (Or.inl (h.returned hentry)), List.subset_append_right _ _⟩ }
    · rcases hmem.1 hentry with hentry | rfl
      · exact h.names entry hentry
      · exact h.calls _ (List.mem_of_getElem? hcall)
    · refine hmem.trans ?_
      refine Iff.trans ?_ (Eq.congr_left OrderedMap.get?_set.symm)
      by_cases hrun : entry.1 = runId
      · rw [if_pos hrun, or_iff_right fun hentry => ?_]
        · rw [Option.some.injEq, Prod.ext_iff, and_iff_right hrun, eq_comm]
        · rw [h.known, hrun, hnone] at hentry
          cases hentry
      · rw [if_neg hrun, h.known, or_iff_left fun heq => hrun (congrArg Prod.fst heq)]
    · rcases hmem.1 hentry with hentry | rfl
      · exact (h.written entry hentry).imp_left (List.mem_append_left _)
      · exact Or.inl (List.mem_append_right _ (List.mem_singleton_self _))
    · obtain ⟨run, hdirectory, hentry⟩ := h.runState directory stored hstored
      exact ⟨run, hdirectory, hmem.2 (Or.inl hentry)⟩
  · rw [heq]
    exact { h with calls := fun call hmem => h.calls call (hcalls hmem) }

theorem Steady.freeze (h : Steady runtime) {args : P2pArtifactFreezeArgs}
    (hname : isRunStateName args.runId = true) : Steady (runtime.freeze args) := by
  unfold ArtifactRuntime.freeze
  split
  · rename_i existing hexisting
    refine { h with returned := List.append_subset.2 ⟨h.returned, fun entry hentry => ?_⟩ }
    rw [List.mem_singleton.1 hentry]
    exact (h.known (args.runId, existing)).2 hexisting
  · rename_i hnone
    refine Steady.settle { h with calls := fun call hmem => ?_ } fun runId identity hdone => ?_
    · rcases List.mem_append.1 hmem with hmem | hmem
      · exact h.calls call hmem
      · rw [List.mem_singleton.1 hmem]
        exact hname
    · rw [List.getElem?_concat_length] at hdone
      rw [← (FreezeCall.mk.inj (Option.some.inj hdone)).1]
      exact hnone

theorem Steady.next (h : Steady runtime)
    (hnew : ∀ ended ∈ runtime.ending index, runtime.frozenIdentities.get? ended.1 = none) :
    Steady (runtime.next index) := by
  unfold ArtifactRuntime.next
  split
  · exact h
  · rename_i call fs hanswered
    obtain ⟨runId, request, next, hcall, rfl, rfl⟩ := answered_eq_some hanswered
    refine Steady.settle { h with calls := fun call hmem => ?_ } fun runId' identity hdone => ?_
    · rcases List.mem_or_eq_of_mem_set hmem with hmem | rfl
      · exact h.calls call hmem
      · exact h.calls ⟨runId, .request request next⟩ (List.mem_of_getElem? hcall)
    · rw [List.getElem?_set_self (List.getElem?_eq_some_iff.1 hcall).1] at hdone
      refine hnew (runId', identity) ?_
      unfold ending
      rw [hanswered, Option.some.inj hdone]
      rfl

theorem Steady.persisted (h : Steady runtime) (mtimeMs : ℕ) :
    Steady (runtime.persisted index mtimeMs) := by
  unfold ArtifactRuntime.persisted
  split
  · exact h
  · rename_i runId identity hwritten
    have hrecorded := h.persisting (List.mem_of_getElem? hwritten)
    have hdirectory := runDirectory_eq (h.names _ hrecorded)
    have hget : ∀ directory, (runtime.runState.set (runDirectory runId)
        { identity, mtimeMs }).get? directory =
          if directory = [runId.toList] then some { identity, mtimeMs }
          else runtime.runState.get? directory := fun directory => by
      rw [hdirectory]
      exact OrderedMap.get?_set
    refine { h with
      written := fun entry hentry => ?_
      persisting := fun entry hentry => h.persisting (List.eraseIdx_subset hentry)
      runState := fun directory stored hstored => ?_ }
    · dsimp only at hentry ⊢
      by_cases hrun : entry.1 = runId
      · have hsame : entry.2 = identity := by
          have hknown := (h.known entry).1 hentry
          rw [hrun, (h.known (runId, identity)).1 hrecorded] at hknown
          exact (Option.some.inj hknown).symm
        exact Or.inr ⟨mtimeMs, by rw [hget, hrun, hsame, if_pos rfl]⟩
      · rcases h.written entry hentry with hmem | ⟨mtimeMs', hstored⟩
        · refine Or.inl ?_
          obtain ⟨hlt, hat⟩ := List.getElem?_eq_some_iff.1 hwritten
          have hperm := (List.getElem_cons_eraseIdx_perm hlt).mem_iff.2 hmem
          rw [hat, List.mem_cons] at hperm
          exact hperm.resolve_left fun heq => hrun (congrArg Prod.fst heq)
        · refine Or.inr ⟨mtimeMs', ?_⟩
          rw [hget, if_neg fun heq => hrun (String.toList_inj.1 (List.singleton_inj.1 heq))]
          exact hstored
    · rw [hget] at hstored
      split at hstored
      · rename_i heq
        cases hstored
        exact ⟨runId, heq, hrecorded⟩
      · exact h.runState directory stored hstored

theorem Steady.restart (h : Steady runtime) (listing : List String)
    (hcount : runtime.runState.toList.length ≤ persistedIdentityMaxCount)
    (hpaths : ∀ stored ∈ runtime.runState.values, keepsPaths checksPaths stored.identity = true) :
    Steady (runtime.restart listing now checksPaths) := by
  unfold ArtifactRuntime.restart
  split
  · rename_i hready
    rw [Bool.and_eq_true, List.isEmpty_iff, List.all_eq_true] at hready
    have hload : Loadable now checksPaths runtime.runState := by
      refine ⟨hcount, fun entry stored hstored => ?_⟩
      have hvalue : stored ∈ runtime.runState.values :=
        List.mem_map_of_mem (f := Prod.snd) (OrderedMap.get?_eq_some.1 hstored)
      obtain ⟨runId, hrun, hrecorded⟩ := h.runState _ stored hstored
      rw [String.toList_inj.1 (List.singleton_inj.1 hrun)]
      exact ⟨h.names _ hrecorded, by simpa using hready.2 stored hvalue, hpaths stored hvalue⟩
    obtain ⟨hstate, hget⟩ := loaded_load hload listing
    refine { h with
      calls := fun _ hmem => absurd hmem List.not_mem_nil
      known := fun entry => ?_
      written := by
        dsimp only
        rw [hstate]
        exact h.written
      runState := by
        dsimp only
        rw [hstate]
        exact h.runState }
    dsimp only
    rw [hget, Option.map_eq_some_iff]
    constructor
    · intro hentry
      rcases h.written entry hentry with hmem | ⟨mtimeMs, hstored⟩
      · rw [hready.1] at hmem
        exact absurd hmem List.not_mem_nil
      · exact ⟨_, hstored, rfl⟩
    · rintro ⟨stored, hstored, hidentity⟩
      obtain ⟨runId, hrun, hrecorded⟩ := h.runState _ stored hstored
      rw [← String.toList_inj.1 (List.singleton_inj.1 hrun), hidentity] at hrecorded
      exact hrecorded
  · exact h

theorem Steady.step (h : Steady runtime) (event : FreezeEvent)
    (hkeeps : runtime.KeepsIdentities event) : Steady (runtime.step event) := by
  cases event with
  | freeze args => exact h.freeze hkeeps
  | next index => exact h.next hkeeps
  | persisted index mtimeMs => exact h.persisted mtimeMs
  | restart listing now checksPaths => exact h.restart listing hkeeps.1 hkeeps.2

theorem oneIdentity_of_steady (h : Steady runtime) (honce : MadeOnce runtime) :
    OneIdentity runtime where
  same runId a b ha hb _ _ := by
    have hknown := (h.known (runId, a)).1 (h.returned ha)
    obtain rfl : b = a := by
      simpa using ((h.known (runId, b)).1 (h.returned hb)).symm.trans hknown
    exact ⟨rfl, rfl⟩
  apart runId runId' a b ha hb _ _ hne := by
    have hsymm : Std.Symm fun entry entry' : String × P2pFrozenArtifactIdentity =>
        ∀ path ∈ entry.2.openspecChangePath, path ∉ entry'.2.openspecChangePath :=
      ⟨fun _ _ hapart path hpath hpath' => hapart path hpath' hpath⟩
    exact honce.distinct.forall (h.returned ha) (h.returned hb)
      fun heq => hne (congrArg Prod.fst heq)

/-! ## Runs -/

/-- A daemon in which no run has an identity yet. -/
def start (repoRoot : String) (fs : FileSystem) : ArtifactRuntime := { repoRoot, fs }

theorem madeOnce_start (repoRoot : String) (fs : FileSystem) : MadeOnce (start repoRoot fs) :=
  ⟨fun _ h => absurd h List.not_mem_nil, fun _ h => absurd h List.not_mem_nil, .nil⟩

theorem steady_start (repoRoot : String) (fs : FileSystem) : Steady (start repoRoot fs) where
  names _ h := absurd h List.not_mem_nil
  calls _ h := absurd h List.not_mem_nil
  known _ := iff_of_false List.not_mem_nil nofun
  written _ h := absurd h List.not_mem_nil
  persisting := List.nil_subset _
  runState _ _ h := nomatch h
  returned := List.nil_subset _

/-- **In a run in which no call records an identity over another, and no restart leaves one out,
each run has one identity and each change path one run.** -/
theorem oneIdentity_run (repoRoot : String) (fs : FileSystem) (events : List FreezeEvent)
    (h : Along step KeepsIdentities events (start repoRoot fs)) :
    OneIdentity (run step events (start repoRoot fs)) := by
  have hsteady := run_invariant Steady (fun _ event hs hkeeps => hs.step event hkeeps)
    (steady_start repoRoot fs) h
  have honce := run_invariant_all MadeOnce (fun _ event hs => hs.step event)
    (madeOnce_start repoRoot fs) events
  exact oneIdentity_of_steady hsteady honce

/-- A directory `/repo` and nothing else. -/
def emptyRepository : FileSystem := FileSystem.bare.add [] "repo".toList .directory

/-- A run with an OpenSpec proposal. -/
def proposalArgs : P2pArtifactFreezeArgs where
  contract :=
    { convention := .openspecConvention, paths := ["openspec/changes/foo/proposal.md"] }
  runId := "run-1"

instance (runtime : ArtifactRuntime) (event : FreezeEvent) :
    Decidable (runtime.KeepsIdentities event) := by
  cases event <;> unfold KeepsIdentities <;> infer_instance

/-- A run that is frozen, and again after a restart. -/
theorem oneIdentity_run_restarted :
    OneIdentity (run step (.freeze proposalArgs :: List.replicate 9 (.next 0) ++
      [.persisted 0 5, .restart [] 7 true, .freeze proposalArgs])
      (start "/repo" emptyRepository)) :=
  oneIdentity_run _ _ _ (by decide +kernel)

/-- Two calls for one run, the second begun before the first has recorded an identity. -/
def overlapping : List FreezeEvent :=
  [.freeze proposalArgs, .freeze proposalArgs] ++ List.replicate 40 (.next 0)

/-- The identity of the proposal in a change directory. -/
def proposalIn (slug : String) (collisionResolved : Bool) : P2pFrozenArtifactIdentity :=
  openspecIdentity proposalArgs.contract "foo".toList
    { slug := slug.toList, absolutePath := .ofString "", collisionResolved }

/-- Each of them makes a change directory of its own. -/
theorem not_oneIdentity_overlapping :
    ¬ ∀ repoRoot fs events, OneIdentity (run step events (start repoRoot fs)) := by
  intro h
  have hsame := ((h "/repo" emptyRepository overlapping).same "run-1" (proposalIn "foo" false)
    (proposalIn "foo-2" true) (by decide +kernel) (by decide +kernel)
    (by unfold IsFrozen; decide +kernel) (by unfold IsFrozen; decide +kernel)).1
  exact absurd hsame (by decide +kernel)

end ArtifactRuntime

end Imcodes.Artifacts
