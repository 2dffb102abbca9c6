import Imcodes.Artifacts.RuntimePath
import Imcodes.Files.Below
import Imcodes.Queue.Types

/-!
# A listing of an artifact's files

`captureP2pArtifactBaseline` goes through the directories below the root of an artifact, one after
the other, and lists what is there, each file with the hash of its contents.  It stops where a cap
is exceeded, and what is listed then is marked as truncated.

* `ensures_captureQueue` — the walk ends because no directory is left, or is truncated.
* `ensures_capture` — **the caps hold of every listing**, whatever happens to the files meanwhile,
  and a listing that is truncated comes with an error.

The hash of contents and the order of names are parameters.
-/

namespace Imcodes.Artifacts

open Files
open Posix (Name Path)
open Workflow (P2pSymlinkPolicy)
open Queue (Collation)

/-! ## Listings -/

/-- `P2P_WORKFLOW_ARTIFACT_MAX_FILES` -/
def artifactMaxFiles : ℕ := 200

/-- `P2P_WORKFLOW_ARTIFACT_MAX_TOTAL_BYTES` -/
def artifactMaxTotalBytes : ℕ := 64 * 1024 * 1024

/-- `P2P_WORKFLOW_ARTIFACT_MAX_FILE_BYTES` -/
def artifactMaxFileBytes : ℕ := 8 * 1024 * 1024

/-- `P2P_WORKFLOW_ARTIFACT_MAX_DEPTH` -/
def artifactMaxDepth : ℕ := 8

inductive P2pArtifactBaselineFileType
  | file | directory
deriving DecidableEq

structure P2pArtifactBaselineFile where
  relativePath : String
  size : ℕ
  sha256 : String
  type : P2pArtifactBaselineFileType
deriving DecidableEq

structure P2pArtifactBaseline where
  rootPath : String
  files : List P2pArtifactBaselineFile := []
  truncated : Bool := false

structure P2pArtifactBaselineCaptureArgs where
  rootPath : String
  repoRoot : String
  phase : P2pArtifactRuntimePhase
  symlinkPolicy : Option P2pSymlinkPolicy := none

structure P2pArtifactBaselineCaptureResult where
  baseline : P2pArtifactBaseline
  diagnostics : List P2pArtifactDiagnostic := []

def baselineTooLarge (fieldPath summary : String) : P2pArtifactDiagnostic :=
  { code := .artifactBaselineTooLarge, phase := .bind, fieldPath, summary }

def fileTooLarge (fieldPath : String) (size : ℕ) : P2pArtifactDiagnostic :=
  baselineTooLarge fieldPath
    ("File exceeds per-file cap (" ++ toString size ++ "/" ++ toString artifactMaxFileBytes ++ ").")

/-! ## The walk -/

/-- Where the walk is. -/
structure BaselineWalk where
  /-- The directories that are still to be read, with their names below the root. -/
  queue : List (Path × List Name)
  files : List P2pArtifactBaselineFile := []
  truncated : Bool := false
  diagnostics : List P2pArtifactDiagnostic := []
  totalBytes : ℕ := 0

/-- The walk ends here. -/
def BaselineWalk.truncate (walk : BaselineWalk) (fieldPath summary : String) : BaselineWalk :=
  { walk with
    truncated := true
    diagnostics := walk.diagnostics ++ [baselineTooLarge fieldPath summary] }

/-- `${rootPath}/${childRelative}` -/
def fullRelative (rootPath : String) (names : List Name) : String :=
  rootPath ++ "/" ++ joinSegments names

section Program

variable (localeCompare : Collation) (sha256 : List UInt8 → String)
  (args : P2pArtifactBaselineCaptureArgs)

def BaselineWalk.tooManyFiles (walk : BaselineWalk) : BaselineWalk :=
  walk.truncate args.rootPath
    ("Baseline file count exceeds cap (" ++ toString artifactMaxFiles ++ ").")

/-- A file that was found; its contents are read if it is not too large. -/
def captureFile (walk : BaselineWalk) (childAbsolute : Path) (names : List Name)
    (size : ℕ) : FileProgram BaselineWalk :=
  if artifactMaxFiles ≤ walk.files.length then .done (walk.tooManyFiles args)
  else if artifactMaxFileBytes < size then
    .done { walk with
      diagnostics := walk.diagnostics ++ [fileTooLarge (fullRelative args.rootPath names) size] }
  else if artifactMaxTotalBytes < walk.totalBytes + size then
    .done (walk.truncate args.rootPath
      ("Baseline total bytes would exceed cap (" ++ toString (walk.totalBytes + size) ++ "/" ++
        toString artifactMaxTotalBytes ++ ")."))
  else
    .request (.readFile childAbsolute) fun
      | .error _ => .done walk
      | .ok contents =>
        .done { walk with
          files := walk.files ++
            [{ relativePath := fullRelative args.rootPath names, size, sha256 := sha256 contents
               type := .file }]
          totalBytes := walk.totalBytes + size }

/-- A directory that was found is read later. -/
def captureDirectory (walk : BaselineWalk) (childAbsolute : Path) (names : List Name) :
    BaselineWalk :=
  if artifactMaxFiles ≤ walk.files.length then walk.tooManyFiles args
  else
    { walk with
      files := walk.files ++
        [{ relativePath := fullRelative args.rootPath names, size := 0, sha256 := ""
           type := .directory }]
      queue := walk.queue ++ [(childAbsolute, names)] }

/-- An entry of a directory.  A link is looked at, but it is neither a directory nor a file. -/
def captureEntry (item : Path × List Name) (walk : BaselineWalk) (name : Name) :
    FileProgram BaselineWalk :=
  let childRelative := item.2 ++ [name]
  let childAbsolute := item.1.join [name]
  if artifactMaxDepth < childRelative.length then
    .done (walk.truncate (fullRelative args.rootPath childRelative)
      ("Baseline depth exceeds cap (" ++ toString childRelative.length ++ "/" ++
        toString artifactMaxDepth ++ ")."))
  else
    .request (.lstat childAbsolute) fun
      | .error _ => .done walk
      | .ok (.link _) =>
        if args.symlinkPolicy ≠ some .allowExistingUnderRoot then .done walk
        else .request (.realpath childAbsolute) fun _ => .done walk
      | .ok .directory => .done (captureDirectory args walk childAbsolute childRelative)
      | .ok (.file bytes) => captureFile sha256 args walk childAbsolute childRelative bytes.length

/-- The entries of a directory. -/
def captureEntries (item : Path × List Name) : List Name → BaselineWalk → FileProgram BaselineWalk
  | [], walk => .done walk
  | name :: names, walk =>
    captureEntry sha256 args item walk name >>= fun walk =>
      if walk.truncated then .done walk else captureEntries item names walk

/-- `entries.sort((a, b) => a.name.localeCompare(b.name))` -/
def sortedNames (names : List Name) : List Name :=
  names.insertionSort fun a b => localeCompare (String.ofList a) (String.ofList b) ≤ 0

/-- The directories, one after the other. -/
def captureQueue : ℕ → BaselineWalk → FileProgram BaselineWalk
  | 0, walk => .done walk
  | fuel + 1, walk =>
    match walk.queue with
    | [] => .done walk
    | item :: queue =>
      .request (.readdir item.1) fun
        | .error _ => captureQueue fuel { walk with queue }
        | .ok entries =>
          captureEntries sha256 args item (sortedNames localeCompare entries)
              { walk with queue } >>= fun walk =>
            if walk.truncated then .done walk else captureQueue fuel walk

/-- So many directories can be read: the root, and one for each file that can be listed. -/
def captureFuel : ℕ := artifactMaxFiles + 1

def captureFileEntry (absolute : Path) (relativePath : String) :
    FileProgram (List P2pArtifactDiagnostic × Option P2pArtifactBaselineFile) :=
  .request (.lstat absolute) fun
    | .ok (.file bytes) =>
      if artifactMaxFileBytes < bytes.length then
        .done ([fileTooLarge relativePath bytes.length], none)
      else
        .request (.readFile absolute) fun
          | .error _ => .done ([], none)
          | .ok contents =>
            .done ([], some
              { relativePath, size := bytes.length, sha256 := sha256 contents, type := .file })
    | _ => .done ([], none)

/-- `baseline.files.sort((a, b) => a.relativePath.localeCompare(b.relativePath))` -/
def sortedFiles (files : List P2pArtifactBaselineFile) : List P2pArtifactBaselineFile :=
  files.insertionSort fun a b => localeCompare a.relativePath b.relativePath ≤ 0

/-- What a walk has found; the files of a truncated one are not sorted. -/
def BaselineWalk.result (walk : BaselineWalk) : P2pArtifactBaselineCaptureResult where
  baseline :=
    { rootPath := args.rootPath
      files := if walk.truncated then walk.files else sortedFiles localeCompare walk.files
      truncated := walk.truncated }
  diagnostics := walk.diagnostics

/-- What is listed below a root that was checked. -/
def captureRoot (rootAbsolute : Path) : FileProgram P2pArtifactBaselineCaptureResult :=
  .request (.lstat rootAbsolute) fun
    | .error _ => .done { baseline := { rootPath := args.rootPath } }
    | .ok .directory => do
      let walk ← captureQueue localeCompare sha256 args captureFuel
        { queue := [(rootAbsolute, [])] }
      return walk.result localeCompare args
    | .ok (.file _) => do
      let (diagnostics, file) ← captureFileEntry sha256 rootAbsolute args.rootPath
      return { baseline := { rootPath := args.rootPath, files := file.toList }, diagnostics }
    | .ok (.link _) =>
      if args.symlinkPolicy ≠ some .allowExistingUnderRoot then
        .done
          { baseline := { rootPath := args.rootPath }
            diagnostics := invalidArtifactPath args.rootPath
              "Symlink baseline root rejected for this phase." }
      else .done { baseline := { rootPath := args.rootPath } }

def P2pArtifactBaselineCaptureArgs.pathOptions (args : P2pArtifactBaselineCaptureArgs) :
    P2pArtifactRuntimePathOptions :=
  { repoRoot := args.repoRoot, relativePath := args.rootPath, phase := args.phase
    symlinkPolicy := args.symlinkPolicy }

/-- What is done once the path was checked. -/
def captureChecked : Outcome P2pArtifactRuntimePath →
    FileProgram (Except Errno P2pArtifactBaselineCaptureResult)
  | .error e => .done (.error e)
  | .ok (.error diagnostics) =>
    .done (.ok { baseline := { rootPath := args.rootPath }, diagnostics })
  | .ok (.ok runtimePath) => do
    let result ← captureRoot localeCompare sha256 args runtimePath.absolutePath
    return .ok result

def captureP2pArtifactBaseline :
    FileProgram (Except Errno P2pArtifactBaselineCaptureResult) := do
  let outcome ← validateP2pArtifactRuntimePath args.pathOptions
  captureChecked localeCompare sha256 args outcome

end Program

/-! ## The caps -/

/-- The bytes of the files that are listed. -/
def listedBytes (files : List P2pArtifactBaselineFile) : ℕ := (files.map (·.size)).sum

/-- What is listed is within the caps, and what is truncated is an error. -/
structure Capped (walk : BaselineWalk) : Prop where
  count : walk.files.length ≤ artifactMaxFiles
  size : ∀ file ∈ walk.files, file.size ≤ artifactMaxFileBytes
  total : listedBytes walk.files = walk.totalBytes
  bytes : walk.totalBytes ≤ artifactMaxTotalBytes
  error : walk.truncated = true → walk.diagnostics ≠ []
  errors : ∀ diagnostic ∈ walk.diagnostics, diagnostic.isError = true

/-- How many directories can still be read. -/
def BaselineWalk.room (walk : BaselineWalk) : ℕ :=
  walk.queue.length + (artifactMaxFiles - walk.files.length)

/-- A walk goes on: what was reported stays reported, and there is no more to be read. -/
structure GoesOn (before after : BaselineWalk) : Prop where
  room : after.room ≤ before.room
  diagnostics : before.diagnostics <+: after.diagnostics

variable {localeCompare : Collation} {sha256 : List UInt8 → String}
  {args : P2pArtifactBaselineCaptureArgs} {walk walk' : BaselineWalk} {names : List Name}
  {answers : Program.Answers FileRequest FileRequest.Answer}

theorem GoesOn.refl (walk : BaselineWalk) : GoesOn walk walk := ⟨le_rfl, List.prefix_rfl⟩

theorem GoesOn.trans {walk'' : BaselineWalk} (h : GoesOn walk walk') (h' : GoesOn walk' walk'') :
    GoesOn walk walk'' :=
  ⟨h'.room.trans h.room, h.diagnostics.trans h'.diagnostics⟩

/-- Another error. -/
theorem Capped.report (h : Capped walk) (truncated : Bool) (fieldPath summary : String) :
    Capped { walk with
      truncated
      diagnostics := walk.diagnostics ++ [baselineTooLarge fieldPath summary] } where
  count := h.count
  size := h.size
  total := h.total
  bytes := h.bytes
  error _ := by simp
  errors diagnostic hmem := by
    rcases List.mem_append.1 hmem with hmem | hmem
    · exact h.errors diagnostic hmem
    · rw [List.mem_singleton.1 hmem]
      rfl

theorem Capped.truncate (h : Capped walk) (fieldPath summary : String) :
    Capped (walk.truncate fieldPath summary) :=
  h.report true fieldPath summary

theorem goesOn_truncate (fieldPath summary : String) :
    GoesOn walk (walk.truncate fieldPath summary) :=
  ⟨le_rfl, List.prefix_append _ _⟩

/-- A listed file leaves less room for more. -/
theorem Capped.list (h : Capped walk) (file : P2pArtifactBaselineFile)
    (hroom : walk.files.length < artifactMaxFiles) (hsize : file.size ≤ artifactMaxFileBytes)
    (hbytes : walk.totalBytes + file.size ≤ artifactMaxTotalBytes)
    (queue : List (Path × List Name)) :
    Capped { walk with
      queue
      files := walk.files ++ [file]
      totalBytes := walk.totalBytes + file.size } where
  count := by
    rw [List.length_append, List.length_singleton]
    omega
  size file' hmem := by
    rcases List.mem_append.1 hmem with hmem | hmem
    · exact h.size file' hmem
    · rw [List.mem_singleton.1 hmem]
      exact hsize
  total := by
    have htotal := h.total
    unfold listedBytes at htotal ⊢
    rw [List.map_append, List.sum_append, htotal]
    simp
  bytes := hbytes
  error := h.error
  errors := h.errors

theorem ensures_captureFile (h : Capped walk) (childAbsolute : Path) (size : ℕ) :
    (captureFile sha256 args walk childAbsolute names size).Ensures
      (fun _ walk' => Capped walk' ∧ GoesOn walk walk') answers := by
  unfold captureFile
  split
  · exact ⟨h.truncate _ _, goesOn_truncate _ _⟩
  · rename_i hcount
    split
    · exact ⟨h.report _ _ _, le_rfl, List.prefix_append _ _⟩
    · rename_i hsize
      split
      · exact ⟨h.truncate _ _, goesOn_truncate _ _⟩
      · rename_i hbytes
        intro contents
        cases contents with
        | error e => exact ⟨h, .refl _⟩
        | ok contents =>
          refine ⟨h.list _ (by omega) (not_lt.1 hsize) (not_lt.1 hbytes) _, ?_, List.prefix_rfl⟩
          simp only [BaselineWalk.room, List.length_append, List.length_singleton]
          omega

theorem captureDirectory_spec (h : Capped walk) (childAbsolute : Path) :
    Capped (captureDirectory args walk childAbsolute names) ∧
      GoesOn walk (captureDirectory args walk childAbsolute names) := by
  unfold captureDirectory
  split
  · exact ⟨h.truncate _ _, goesOn_truncate _ _⟩
  · rename_i hcount
    refine ⟨h.list ⟨_, 0, "", .directory⟩ (by omega) (Nat.zero_le _) h.bytes _, ?_,
      List.prefix_rfl⟩
    -- the directory takes the room of its own entry
    simp only [BaselineWalk.room, List.length_append, List.length_singleton]
    omega

theorem ensures_captureEntry (h : Capped walk) (item : Path × List Name) (name : Name) :
    (captureEntry sha256 args item walk name).Ensures
      (fun _ walk' => Capped walk' ∧ GoesOn walk walk') answers := by
  unfold captureEntry
  dsimp only
  split
  · exact ⟨h.truncate _ _, goesOn_truncate _ _⟩
  · intro stat
    dsimp only
    split
    · exact ⟨h, .refl _⟩
    · split
      · exact ⟨h, .refl _⟩
      · exact fun _ => ⟨h, .refl _⟩
    · exact captureDirectory_spec h _
    · exact ensures_captureFile h _ _

theorem ensures_captureEntries (h : Capped walk) (item : Path × List Name) (names : List Name) :
    (captureEntries sha256 args item names walk).Ensures
      (fun _ walk' => Capped walk' ∧ GoesOn walk walk') answers := by
  induction names generalizing walk answers with
  | nil => exact ⟨h, .refl _⟩
  | cons name names ih =>
    refine Program.ensures_bind.2 ((ensures_captureEntry h item name).imp ?_)
    rintro answers walk' ⟨h', hon⟩
    split
    · exact ⟨h', hon⟩
    · exact (ih h').imp fun _ walk'' ⟨h'', hon'⟩ => ⟨h'', hon.trans hon'⟩

/-- **The walk ends**: with as much fuel as there is room, no directory is left, or the walk is
truncated. -/
theorem ensures_captureQueue (h : Capped walk) (hgoing : walk.truncated = false) {fuel : ℕ}
    (hfuel : walk.room ≤ fuel) :
    (captureQueue localeCompare sha256 args fuel walk).Ensures
      (fun _ walk' => Capped walk' ∧ GoesOn walk walk' ∧
        (walk'.truncated = false → walk'.queue = [])) answers := by
  induction fuel generalizing walk answers with
  | zero =>
    refine ⟨h, .refl _, fun _ => List.eq_nil_of_length_eq_zero ?_⟩
    unfold BaselineWalk.room at hfuel
    omega
  | succ fuel ih =>
    unfold captureQueue
    cases hqueue : walk.queue with
    | nil => exact ⟨h, .refl _, fun _ => hqueue⟩
    | cons item queue =>
      have hcapped : Capped { walk with queue } := { h with }
      have hroom : BaselineWalk.room { walk with queue } + 1 = walk.room := by
        simp only [BaselineWalk.room, hqueue, List.length_cons]
        omega
      have hpop : GoesOn walk { walk with queue } := ⟨by omega, List.prefix_rfl⟩
      intro entries
      cases entries with
      | error e =>
        refine (ih hcapped hgoing (by omega)).imp ?_
        rintro answers walk' ⟨h', hon, hend⟩
        exact ⟨h', hpop.trans hon, hend⟩
      | ok entries =>
        refine Program.ensures_bind.2 ((ensures_captureEntries hcapped item _).imp ?_)
        rintro answers walk' ⟨h', hon⟩
        split
        · rename_i htruncated
          exact ⟨h', hpop.trans hon, fun hnot => absurd htruncated (by simp [hnot])⟩
        · rename_i hnot
          have hle := hon.room
          refine (ih h' (by simpa using hnot) (by omega)).imp ?_
          rintro answers walk'' ⟨h'', hon', hend⟩
          exact ⟨h'', (hpop.trans hon).trans hon', hend⟩

/-- A listing is within the caps, and a truncated one comes with an error. -/
structure Within (result : P2pArtifactBaselineCaptureResult) : Prop where
  count : result.baseline.files.length ≤ artifactMaxFiles
  size : ∀ file ∈ result.baseline.files, file.size ≤ artifactMaxFileBytes
  bytes : listedBytes result.baseline.files ≤ artifactMaxTotalBytes
  error : result.baseline.truncated = true →
    ∃ diagnostic ∈ result.diagnostics, diagnostic.isError = true

theorem listedBytes_eq_of_perm {files files' : List P2pArtifactBaselineFile}
    (h : files.Perm files') : listedBytes files = listedBytes files' :=
  (h.map _).sum_nat

theorem sortedFiles_perm (files : List P2pArtifactBaselineFile) :
    (sortedFiles localeCompare files).Perm files :=
  List.perm_insertionSort _ _

theorem Capped.within (h : Capped walk) : Within (walk.result localeCompare args) := by
  have hperm : (walk.result localeCompare args).baseline.files.Perm walk.files := by
    simp only [BaselineWalk.result]
    split
    · exact .refl _
    · exact sortedFiles_perm _
  refine ⟨hperm.length_eq ▸ h.count, fun file hmem => h.size file (hperm.mem_iff.1 hmem), ?_,
    fun htruncated => ?_⟩
  · rw [listedBytes_eq_of_perm hperm, h.total]
    exact h.bytes
  · obtain ⟨diagnostic, hmem⟩ := List.exists_mem_of_ne_nil _ (h.error htruncated)
    exact ⟨diagnostic, hmem, h.errors _ hmem⟩

theorem capped_start (rootAbsolute : Path) : Capped { queue := [(rootAbsolute, [])] } where
  count := Nat.zero_le _
  size _ hmem := absurd hmem List.not_mem_nil
  total := rfl
  bytes := Nat.zero_le _
  error h := absurd h Bool.false_ne_true
  errors _ hmem := absurd hmem List.not_mem_nil

theorem within_nil (rootPath : String) (diagnostics : List P2pArtifactDiagnostic) :
    Within { baseline := { rootPath }, diagnostics } where
  count := Nat.zero_le _
  size _ hmem := absurd hmem List.not_mem_nil
  bytes := Nat.zero_le _
  error h := absurd h Bool.false_ne_true

theorem ensures_captureFileEntry (absolute : Path) (relativePath : String) :
    (captureFileEntry sha256 absolute relativePath).Ensures
      (fun _ entry => ∀ file ∈ entry.2, file.size ≤ artifactMaxFileBytes) answers := by
  intro stat
  dsimp only
  split
  · split
    · exact fun _ hmem => absurd hmem (Option.not_mem_none _)
    · rename_i hsize
      intro contents
      dsimp only
      split
      · exact fun _ hmem => absurd hmem (Option.not_mem_none _)
      · rintro file ⟨⟩
        exact not_lt.1 hsize
  · exact fun _ hmem => absurd hmem (Option.not_mem_none _)

theorem ensures_captureRoot (rootAbsolute : Path) :
    (captureRoot localeCompare sha256 args rootAbsolute).Ensures (fun _ => Within) answers := by
  intro stat
  dsimp only
  split
  · exact within_nil _ _
  · refine Program.ensures_bind.2 ((ensures_captureQueue (capped_start _) rfl le_rfl).imp ?_)
    exact fun _ walk h => h.1.within
  · refine Program.ensures_bind.2 ((ensures_captureFileEntry _ _).imp ?_)
    rintro answers ⟨diagnostics, _ | file⟩ hsize
    · exact within_nil _ _
    · have hone := hsize file rfl
      refine ⟨by simp [artifactMaxFiles], by simpa using hone, ?_, by simp⟩
      simp only [listedBytes, Option.toList_some, List.map_cons, List.map_nil, List.sum_cons,
        List.sum_nil]
      unfold artifactMaxFileBytes at hone
      unfold artifactMaxTotalBytes
      omega
  · split
    · exact within_nil _ _
    · exact within_nil _ _

/-- **The walk ends**, because no directory is left or a cap is exceeded, **and the caps hold of
every listing**, whatever the file system answers from one request to the next.  A listing that is
truncated comes with an error. -/
theorem ensures_capture (localeCompare : Collation) (sha256 : List UInt8 → String)
    (args : P2pArtifactBaselineCaptureArgs) :
    (∀ rootAbsolute, (captureQueue localeCompare sha256 args captureFuel
        { queue := [(rootAbsolute, [])] }).Ensures
          (fun _ walk => walk.truncated = true ∨ walk.queue = []) []) ∧
      (captureP2pArtifactBaseline localeCompare sha256 args).Ensures
        (fun _ outcome => ∀ result, outcome = .ok result → Within result) [] := by
  constructor
  · intro rootAbsolute
    refine (ensures_captureQueue (capped_start rootAbsolute) rfl le_rfl).imp ?_
    rintro answers walk ⟨-, -, hend⟩
    cases htruncated : walk.truncated with
    | true => exact .inl rfl
    | false => exact .inr (hend htruncated)
  · refine Program.ensures_bind.2 (.of_forall fun answers outcome => ?_)
    unfold captureChecked
    split
    · exact fun _ h => by cases h
    · rintro result ⟨⟩
      exact within_nil _ _
    · refine Program.ensures_bind.2 ((ensures_captureRoot _).imp ?_)
      rintro answers result h _ ⟨⟩
      exact h

end Imcodes.Artifacts
