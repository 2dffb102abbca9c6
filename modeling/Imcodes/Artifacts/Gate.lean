import Imcodes.Artifacts.Listing

/-!
# The gate after a round

Before a round that is to make artifacts their root is listed, and after it again.  The round fails
if a listing has an error, or if an artifact that was declared is missing after it or is as it was.

* `verifyP2pArtifactBaselineDelta_ok` — what two listings have to say.
* `artifactGate_iff` — **what a round has to do**: every declared artifact is there after it, within
  the caps, and was not there before or had other contents.  Where the check of the root throws, the
  round passes.
-/

namespace Imcodes.Artifacts

open Files FileSystem
open Queue (Collation)

/-! ## Two listings -/

/-- `new Map(files.map((file) => [file.relativePath, file]))` -/
def byPath (files : List P2pArtifactBaselineFile) : OrderedMap String P2pArtifactBaselineFile :=
  files.foldl (fun map file => map.set file.relativePath file) .empty

structure P2pArtifactBaselineDeltaResult where
  ok : Bool
  diagnostics : List P2pArtifactDiagnostic

/-- What is wrong with a declared artifact. -/
def checkDeclared (before after : OrderedMap String P2pArtifactBaselineFile) (path : String) :
    Option P2pArtifactDiagnostic :=
  match after.get? path with
  | none =>
    some
      { code := .artifactContractNotSatisfied, phase := .execute, fieldPath := path
        summary := "Declared artifact path missing after run." }
  | some afterFile =>
    match before.get? path with
    | none => none
    | some beforeFile =>
      if beforeFile.sha256 = afterFile.sha256 then
        some
          { code := .artifactBaselineMismatch, phase := .execute, fieldPath := path
            summary := "Declared artifact path unchanged (sha256 identical)." }
      else none

def verifyP2pArtifactBaselineDelta (before after : P2pArtifactBaseline)
    (declaredFiles : List String) : P2pArtifactBaselineDeltaResult :=
  let diagnostics := declaredFiles.filterMap (checkDeclared (byPath before.files)
    (byPath after.files))
  { ok := !declaredFiles.isEmpty && diagnostics.isEmpty, diagnostics }

/-! ## The gate -/

/-- The texts of the codes. -/
def P2pArtifactDiagnosticCode.text : P2pArtifactDiagnosticCode → String
  | unsafeArtifactPath => "unsafe_artifact_path"
  | artifactIdentityCollisionResolved => "artifact_identity_collision_resolved"
  | artifactBaselineTooLarge => "artifact_baseline_too_large"
  | artifactBaselineMismatch => "artifact_baseline_mismatch"
  | artifactContractNotSatisfied => "artifact_contract_not_satisfied"

/-- The reason for which a listing fails a round. -/
def P2pArtifactBaselineCaptureResult.refusal (result : P2pArtifactBaselineCaptureResult) :
    Option String :=
  match result.diagnostics.find? (·.isError) with
  | some diagnostic => some diagnostic.code.text
  | none => if result.baseline.truncated then some "artifact_baseline_too_large" else none

/-- Before the round.  What throws counts as an empty root. -/
def listBefore : Except Errno P2pArtifactBaselineCaptureResult →
    Except String (Option P2pArtifactBaseline)
  | .error _ => .ok none
  | .ok result =>
    match result.refusal with
    | some code => .error ("Pre-round artifact baseline capture failed: " ++ code)
    | none => .ok (some result.baseline)

/-- The paths that are declared. -/
def declaredPaths (identityPaths artifactOutputs : List String) : List String :=
  if identityPaths.isEmpty then artifactOutputs else identityPaths

/-- The reason that the first diagnostic gives; the code is the first word. -/
def unsatisfied (diagnostics : List P2pArtifactDiagnostic) : String :=
  match diagnostics.head? with
  | none => "Artifact contract not satisfied: artifact_contract_not_satisfied"
  | some diagnostic =>
    Queue.jsTrim ("Artifact contract not satisfied: " ++ diagnostic.code.text ++ " " ++
      diagnostic.fieldPath.getD "")

/-- After the round.  What throws is reported and fails nothing. -/
def verifyAfter (rootPath : String) (declared : List String) (before : Option P2pArtifactBaseline)
    (after : Except Errno P2pArtifactBaselineCaptureResult) : Except String Unit :=
  if declared.isEmpty then .ok ()
  else
    match after with
    | .error _ => .ok ()
    | .ok result =>
      match result.refusal with
      | some code => .error ("Post-round artifact baseline capture failed: " ++ code)
      | none =>
        let delta := verifyP2pArtifactBaselineDelta (before.getD { rootPath }) result.baseline
          declared
        if delta.ok then .ok () else .error (unsatisfied delta.diagnostics)

section Gate

variable (localeCompare : Collation) (sha256 : List UInt8 → String)

/-- What is asked for a listing; both phases treat links alike. -/
def captureArgs (repoRoot rootPath : String) (phase : P2pArtifactRuntimePhase) :
    P2pArtifactBaselineCaptureArgs :=
  { rootPath, repoRoot, phase }

/-- The gate around a round of `executeAdvancedChain` that makes artifacts by the OpenSpec
convention; the disks are those before and after the round. -/
def artifactGate (repoRoot rootPath : String) (identityPaths artifactOutputs : List String)
    (before after : Disk) : Except String Unit :=
  match listBefore (captured localeCompare sha256 (captureArgs repoRoot rootPath .baseline)
      before) with
  | .error reason => .error reason
  | .ok baseline =>
    verifyAfter rootPath (declaredPaths identityPaths artifactOutputs) baseline
      (captured localeCompare sha256 (captureArgs repoRoot rootPath .validate) after)

end Gate

/-! ## What the listings say -/

variable {localeCompare : Collation} {sha256 : List UInt8 → String}
  {args : P2pArtifactBaselineCaptureArgs} {fs : FileSystem} {disk : Disk}
  {files : List P2pArtifactBaselineFile} {file : P2pArtifactBaselineFile} {path : String}

theorem get?_byPath_concat :
    (byPath (files ++ [file])).get? path =
      if path = file.relativePath then some file else (byPath files).get? path := by
  rw [byPath, List.foldl_append]
  exact OrderedMap.get?_set

/-- What is found under a path is a file of that path. -/
theorem mem_of_byPath (h : (byPath files).get? path = some file) :
    file ∈ files ∧ file.relativePath = path := by
  induction files using List.reverseRecOn with
  | nil => cases h
  | append_singleton files last ih =>
    rw [get?_byPath_concat] at h
    split at h
    · rename_i hpath
      obtain rfl := Option.some.inj h
      exact ⟨List.mem_append_right _ (List.mem_singleton_self _), hpath.symm⟩
    · obtain ⟨hmem, hpath⟩ := ih h
      exact ⟨List.mem_append_left _ hmem, hpath⟩

theorem byPath_ne_none (h : file ∈ files) : (byPath files).get? file.relativePath ≠ none := by
  induction files using List.reverseRecOn with
  | nil => cases h
  | append_singleton files last ih =>
    rw [get?_byPath_concat]
    split
    · exact Option.some_ne_none _
    · rename_i hne
      rcases List.mem_append.1 h with h | h
      · exact ih h
      · exact absurd (congrArg _ (List.mem_singleton.1 h)) hne

/-- No two files have one path. -/
def OnePath (files : List P2pArtifactBaselineFile) : Prop :=
  ∀ file ∈ files, ∀ file' ∈ files, file.relativePath = file'.relativePath → file = file'

theorem get?_byPath (h : OnePath files) :
    (byPath files).get? path = some file ↔ file ∈ files ∧ file.relativePath = path := by
  refine ⟨mem_of_byPath, ?_⟩
  rintro ⟨hmem, rfl⟩
  obtain ⟨file', hfile'⟩ := Option.ne_none_iff_exists'.1 (byPath_ne_none hmem)
  obtain ⟨hmem', hpath⟩ := mem_of_byPath hfile'
  rw [hfile', h file' hmem' file hmem hpath]

theorem onePath_rootListing (rootPath : String) (p : Posix.Path) :
    OnePath (rootListing sha256 rootPath fs p) := by
  unfold rootListing
  split
  · intro file hmem file' hmem' hpath
    obtain ⟨names, -, hrecorded⟩ := mem_listing.1 hmem
    obtain ⟨names', -, hrecorded'⟩ := mem_listing.1 hmem'
    obtain ⟨node, hnode, hentry⟩ := Option.bind_eq_some_iff.1 hrecorded
    obtain ⟨node', hnode', hentry'⟩ := Option.bind_eq_some_iff.1 hrecorded'
    rw [relativePath_entryOf hentry, relativePath_entryOf hentry'] at hpath
    obtain rfl := fullRelative_inj (isName_of_below hnode) (isName_of_below hnode') hpath
    exact Option.some.inj (hrecorded.symm.trans hrecorded')
  · intro file hmem file' hmem' _
    rw [List.mem_singleton.1 hmem, List.mem_singleton.1 hmem']
  · exact fun file hmem => absurd hmem List.not_mem_nil

theorem OnePath.of_perm {files' : List P2pArtifactBaselineFile} (h : OnePath files')
    (hperm : files.Perm files') : OnePath files :=
  fun file hmem file' hmem' => h file (hperm.mem_iff.1 hmem) file' (hperm.mem_iff.1 hmem')

/-- A path is listed after the round, and not with the same hash before it. -/
def Updated (before after : List P2pArtifactBaselineFile) (path : String) : Prop :=
  ∃ file ∈ after, file.relativePath = path ∧
    ∀ old ∈ before, old.relativePath = path → old.sha256 ≠ file.sha256

theorem checkDeclared_eq_none {files' : List P2pArtifactBaselineFile} (h : OnePath files)
    (h' : OnePath files') :
    checkDeclared (byPath files) (byPath files') path = none ↔ Updated files files' path := by
  unfold checkDeclared Updated
  cases hafter : (byPath files').get? path with
  | none =>
    simp only [reduceCtorEq, false_iff]
    rintro ⟨file, hmem, rfl, -⟩
    exact byPath_ne_none hmem hafter
  | some file =>
    obtain ⟨hmem, hpath⟩ := (get?_byPath h').1 hafter
    have hfile : ∀ file' ∈ files', file'.relativePath = path → file' = file :=
      fun file' hmem' hpath' => h' file' hmem' file hmem (hpath'.trans hpath.symm)
    cases hbefore : (byPath files).get? path with
    | none =>
      refine ⟨fun _ => ⟨file, hmem, hpath, fun old hold hpathOld => ?_⟩, fun _ => rfl⟩
      exact absurd hbefore (hpathOld ▸ byPath_ne_none hold)
    | some old =>
      obtain ⟨hold, hpathOld⟩ := (get?_byPath h).1 hbefore
      dsimp only
      split
      · rename_i heq
        simp only [reduceCtorEq, false_iff]
        rintro ⟨file', hmem', hpath', hnew⟩
        exact hnew old hold hpathOld (hfile file' hmem' hpath' ▸ heq)
      · rename_i hne
        refine ⟨fun _ => ⟨file, hmem, hpath, fun old' hold' hpathOld' => ?_⟩, fun _ => rfl⟩
        rw [h old' hold' old hold (hpathOld'.trans hpathOld.symm)]
        exact hne

/-- **What two listings have to say**: each declared path is updated. -/
theorem verifyP2pArtifactBaselineDelta_ok {before after : P2pArtifactBaseline}
    {declaredFiles : List String} (h : OnePath before.files) (h' : OnePath after.files) :
    (verifyP2pArtifactBaselineDelta before after declaredFiles).ok = true ↔
      declaredFiles ≠ [] ∧ ∀ path ∈ declaredFiles, Updated before.files after.files path := by
  simp only [verifyP2pArtifactBaselineDelta, Bool.and_eq_true, Bool.not_eq_true',
    List.isEmpty_eq_false_iff, List.isEmpty_iff, List.filterMap_eq_nil_iff,
    checkDeclared_eq_none h h']

theorem Updated.congr {before' after' : List P2pArtifactBaselineFile}
    {files' : List P2pArtifactBaselineFile} (hbefore : files.Perm before')
    (hafter : files'.Perm after') : Updated files files' path ↔ Updated before' after' path := by
  unfold Updated
  simp only [hbefore.mem_iff, hafter.mem_iff]

/-! ## What a round has to do -/

/-- What is listed of a root that is accepted and fits; where the check throws, nothing. -/
def listedOf (sha256 : List UInt8 → String) (args : P2pArtifactBaselineCaptureArgs)
    (disk : Disk) : List P2pArtifactBaselineFile :=
  match checkedOn disk args.pathOptions with
  | .error _ => []
  | .ok _ => rootListing sha256 args.rootPath disk.files args.pathOptions.absolutePath

/-- A listing without errors refuses no round. -/
theorem refusal_eq_none {result : P2pArtifactBaselineCaptureResult} {fits : Prop}
    (h : Reports result fits files) : result.refusal = none ↔ fits := by
  unfold P2pArtifactBaselineCaptureResult.refusal
  by_cases hfits : fits
  · rw [h.clean.2 hfits, h.going hfits]
    simp [hfits]
  · have hne : result.diagnostics ≠ [] := fun hnil => hfits (h.clean.1 hnil)
    obtain ⟨diagnostic, hmem⟩ := List.exists_mem_of_ne_nil _ hne
    have hfind : (result.diagnostics.find? (·.isError)).isSome :=
      List.find?_isSome.2 ⟨diagnostic, hmem, h.errors _ hmem⟩
    obtain ⟨error, herror⟩ := Option.isSome_iff_exists.1 hfind
    rw [herror]
    simp [hfits]

/-- What is known of a call on a file system. -/
theorem captured_cases (localeCompare : Collation) (sha256 : List UInt8 → String)
    (hreadable : disk.Readable args.pathOptions.absolutePath) :
    (∃ e, captured localeCompare sha256 args disk = .error e ∧ Throws args disk ∧
        listedOf sha256 args disk = []) ∨
      ∃ result, captured localeCompare sha256 args disk = .ok result ∧ ¬ Throws args disk ∧
        Reports result (AllFits sha256 args disk) (listedOf sha256 args disk) := by
  obtain ⟨herror, hok⟩ := captured_spec localeCompare sha256 args disk hreadable
  cases hcaptured : captured localeCompare sha256 args disk with
  | error e =>
    have hchecked := (herror e).1 hcaptured
    exact .inl ⟨e, rfl, ⟨e, hchecked⟩, by rw [listedOf, hchecked]⟩
  | ok result =>
    refine .inr ⟨result, rfl, ?_, ?_⟩
    · rintro ⟨e, hchecked⟩
      rw [(herror e).2 hchecked] at hcaptured
      cases hcaptured
    · have hreports := hok result hcaptured
      unfold listedOf
      split
      · rename_i e hchecked
        rw [(herror e).2 hchecked] at hcaptured
        cases hcaptured
      · exact hreports

theorem onePath_listedOf : OnePath (listedOf sha256 args disk) := by
  unfold listedOf
  split
  · exact fun file hmem => absurd hmem List.not_mem_nil
  · exact onePath_rootListing _ _

/-- What the listing before a round says. -/
theorem listBefore_eq_ok {baseline : Option P2pArtifactBaseline}
    (hreadable : disk.Readable args.pathOptions.absolutePath)
    (h : listBefore (captured localeCompare sha256 args disk) = .ok baseline) :
    (Throws args disk ∨ AllFits sha256 args disk) ∧ ∀ rootPath : String,
      (baseline.getD { rootPath }).files.Perm (listedOf sha256 args disk) := by
  rcases captured_cases localeCompare sha256 hreadable with
    ⟨e, hcaptured, hthrows, hnil⟩ | ⟨result, hcaptured, -, hreports⟩
  · rw [hcaptured] at h
    obtain rfl := Except.ok.inj h
    rw [hnil]
    exact ⟨.inl hthrows, fun _ => .refl _⟩
  · rw [hcaptured, listBefore] at h
    cases hrefusal : result.refusal with
    | some code =>
      rw [hrefusal] at h
      cases h
    | none =>
      rw [hrefusal] at h
      obtain rfl := Except.ok.inj h
      have hfits := (refusal_eq_none hreports).1 hrefusal
      exact ⟨.inr hfits, fun _ => hreports.perm hfits⟩

theorem exists_listBefore (localeCompare : Collation)
    (hreadable : disk.Readable args.pathOptions.absolutePath)
    (h : Throws args disk ∨ AllFits sha256 args disk) :
    ∃ baseline, listBefore (captured localeCompare sha256 args disk) = .ok baseline := by
  rcases captured_cases localeCompare sha256 hreadable with
    ⟨e, hcaptured, -⟩ | ⟨result, hcaptured, hnot, hreports⟩
  · exact ⟨none, by rw [hcaptured, listBefore]⟩
  · have hrefusal := (refusal_eq_none hreports).2 (h.resolve_left hnot)
    exact ⟨some result.baseline, by rw [hcaptured, listBefore, hrefusal]⟩

/-- What the listing after a round has to say. -/
theorem verifyAfter_eq_ok {rootPath : String} {declared : List String}
    {baseline : Option P2pArtifactBaseline}
    (hreadable : disk.Readable args.pathOptions.absolutePath)
    (hbaseline : (baseline.getD { rootPath }).files.Perm files) (hpath : OnePath files) :
    verifyAfter rootPath declared baseline (captured localeCompare sha256 args disk) = .ok () ↔
      declared = [] ∨ Throws args disk ∨ AllFits sha256 args disk ∧
        ∀ path ∈ declared, Updated files (listedOf sha256 args disk) path := by
  unfold verifyAfter
  cases declared with
  | nil => simp
  | cons path declared =>
    rw [if_neg (by simp)]
    rcases captured_cases localeCompare sha256 hreadable with
      ⟨e, hcaptured, hthrows, -⟩ | ⟨result, hcaptured, hnot, hreports⟩
    · rw [hcaptured]
      exact ⟨fun _ => .inr (.inl hthrows), fun _ => rfl⟩
    · rw [hcaptured]
      dsimp only
      by_cases hfits : AllFits sha256 args disk
      · have hperm := hreports.perm hfits
        have hok : (verifyP2pArtifactBaselineDelta (baseline.getD { rootPath }) result.baseline
            (path :: declared)).ok = true ↔
              ∀ each ∈ path :: declared, Updated files (listedOf sha256 args disk) each := by
          rw [verifyP2pArtifactBaselineDelta_ok (hpath.of_perm hbaseline)
            (onePath_listedOf.of_perm hperm)]
          simp only [ne_eq, reduceCtorEq, not_false_eq_true, true_and,
            Updated.congr hbaseline hperm]
        rw [(refusal_eq_none hreports).2 hfits, ← hok]
        simp only [reduceCtorEq, false_or, hnot, hfits, true_and]
        cases (verifyP2pArtifactBaselineDelta (baseline.getD { rootPath }) result.baseline
          (path :: declared)).ok <;> simp
      · have hrefusal : result.refusal ≠ none := fun hnone =>
          hfits ((refusal_eq_none hreports).1 hnone)
        obtain ⟨code, hcode⟩ := Option.ne_none_iff_exists'.1 hrefusal
        rw [hcode]
        simp [hnot, hfits]

/-- **What a round has to do** to pass: the listing before it has no error, and after it every
declared path is within the caps and updated; nothing at the root or below it is refused. -/
theorem artifactGate_iff (localeCompare : Collation) (sha256 : List UInt8 → String)
    (repoRoot rootPath : String) (identityPaths artifactOutputs : List String)
    (before after : Disk)
    (hbefore : before.Readable (captureArgs repoRoot rootPath .baseline).pathOptions.absolutePath)
    (hafter : after.Readable (captureArgs repoRoot rootPath .validate).pathOptions.absolutePath) :
    artifactGate localeCompare sha256 repoRoot rootPath identityPaths artifactOutputs before
        after = .ok () ↔
      (Throws (captureArgs repoRoot rootPath .baseline) before ∨
        AllFits sha256 (captureArgs repoRoot rootPath .baseline) before) ∧
      (declaredPaths identityPaths artifactOutputs = [] ∨
        Throws (captureArgs repoRoot rootPath .validate) after ∨
        AllFits sha256 (captureArgs repoRoot rootPath .validate) after ∧
          ∀ path ∈ declaredPaths identityPaths artifactOutputs,
            Updated (listedOf sha256 (captureArgs repoRoot rootPath .baseline) before)
              (listedOf sha256 (captureArgs repoRoot rootPath .validate) after) path) := by
  unfold artifactGate
  constructor
  · intro h
    split at h
    · cases h
    · rename_i baseline hbaseline
      obtain ⟨hfits, hperm⟩ := listBefore_eq_ok hbefore hbaseline
      exact ⟨hfits, (verifyAfter_eq_ok hafter (hperm rootPath) onePath_listedOf).1 h⟩
  · rintro ⟨hfits, hupdated⟩
    obtain ⟨baseline, hbaseline⟩ := exists_listBefore localeCompare hbefore hfits
    obtain ⟨-, hperm⟩ := listBefore_eq_ok hbefore hbaseline
    rw [hbaseline]
    exact (verifyAfter_eq_ok hafter (hperm rootPath) onePath_listedOf).2 hupdated

def beforeRound : Disk := repositoryWith [("page", [79]), ("other", [1])]

def afterRound : Disk := repositoryWith [("page", [80, 81]), ("notes", [78]), ("other", [1])]

/-- A round that changes one file, makes another, and leaves a third as it was. -/
theorem artifactGate_iff_afterRound :
    Updated (listedOf spelled (captureArgs "/repo" "out" .baseline) beforeRound)
        (listedOf spelled (captureArgs "/repo" "out" .validate) afterRound) "out/page" ∧
      Updated (listedOf spelled (captureArgs "/repo" "out" .baseline) beforeRound)
        (listedOf spelled (captureArgs "/repo" "out" .validate) afterRound) "out/notes" := by
  have hpassed := (artifactGate_iff Workflow.compareTexts spelled "/repo" "out"
    ["out/page", "out/notes"] [] beforeRound afterRound (readable_repositoryWith _)
    (readable_repositoryWith _)).1 (by decide +kernel)
  rcases hpassed.2 with hnil | ⟨e, hthrows⟩ | hupdated
  · cases hnil
  · have haccepted : (checkedOn afterRound
        (captureArgs "/repo" "out" .validate).pathOptions).isOk = true := by decide +kernel
    rw [hthrows] at haccepted
    cases haccepted
  · exact ⟨hupdated.2 _ (by simp [declaredPaths]), hupdated.2 _ (by simp [declaredPaths])⟩

end Imcodes.Artifacts
