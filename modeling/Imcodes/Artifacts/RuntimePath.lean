import Imcodes.Files.Changes
import Imcodes.Workflow.Validators

/-!
# Paths of artifacts in a repository

`validateP2pArtifactRuntimePath` follows a path below the root of a repository, one component
after the other, as far as something is there: no component may be a link where the phase or the
policy rejects links, and each must be inside the root, and inside the declared root of the
artifact or on the way there.
-/

namespace Imcodes.Artifacts

open Files
open Posix (Name IsName Path)
open Workflow (P2pSymlinkPolicy isP2pArtifactRelativePath)

/-! ## Diagnostics -/

/-- `P2pWorkflowDiagnosticCode`, as far as it is about artifacts -/
inductive P2pArtifactDiagnosticCode
  | unsafeArtifactPath | artifactIdentityCollisionResolved | artifactBaselineTooLarge
  | artifactBaselineMismatch | artifactContractNotSatisfied
deriving DecidableEq

/-- `WARNING_CODES` -/
def P2pArtifactDiagnosticCode.isWarning (code : P2pArtifactDiagnosticCode) : Bool :=
  code = .artifactIdentityCollisionResolved

structure P2pArtifactDiagnostic where
  code : P2pArtifactDiagnosticCode
  phase : Workflow.P2pWorkflowDiagnosticPhase
  fieldPath : Option String := none
  summary : Option String := none
deriving DecidableEq

/-- `diagnostic.severity === 'error'` -/
def P2pArtifactDiagnostic.isError (diagnostic : P2pArtifactDiagnostic) : Bool :=
  !diagnostic.code.isWarning

def invalidArtifactPath (fieldPath : String) (summary : Option String := none) :
    List P2pArtifactDiagnostic :=
  [{ code := .unsafeArtifactPath, phase := .bind, fieldPath, summary }]

/-! ## The check -/

inductive P2pArtifactRuntimePhase
  | freeze | create | validate | baseline
deriving DecidableEq

structure P2pArtifactRuntimePathOptions where
  repoRoot : String
  relativePath : String
  phase : Option P2pArtifactRuntimePhase := none
  symlinkPolicy : Option P2pSymlinkPolicy := none
  artifactRoot : Option String := none

namespace P2pArtifactRuntimePathOptions

/-- `options.phase ?? 'create'` -/
def resolvedPhase (options : P2pArtifactRuntimePathOptions) : P2pArtifactRuntimePhase :=
  options.phase.getD .create

/-- `options.symlinkPolicy ?? 'reject_all'` -/
def resolvedPolicy (options : P2pArtifactRuntimePathOptions) : P2pSymlinkPolicy :=
  options.symlinkPolicy.getD .rejectAll

/-- The declared root, when it is given; an empty one counts as none. -/
def givenRoot (options : P2pArtifactRuntimePathOptions) : Option String :=
  options.artifactRoot.filter (· ≠ "")

/-- Whether a link on the path is rejected. -/
def rejectsLinks (options : P2pArtifactRuntimePathOptions) : Bool :=
  options.resolvedPhase = .freeze || options.resolvedPhase = .create ||
    options.resolvedPolicy ≠ .allowExistingUnderRoot

/-- The components of the path. -/
def components (options : P2pArtifactRuntimePathOptions) : List Name :=
  Posix.segments options.relativePath

/-- `path.join(options.repoRoot, lexical.path)` -/
def absolutePath (options : P2pArtifactRuntimePathOptions) : Path :=
  (Path.ofString options.repoRoot).join options.components

end P2pArtifactRuntimePathOptions

structure P2pArtifactRuntimePath where
  absolutePath : Path
  repoRootRealPath : List Name
  nearestExistingAncestor : Path
  nearestExistingAncestorRealPath : List Name

/-- What a call gives, if it does not throw what an operation failed with. -/
abbrev Outcome (α : Type) := Except Errno (Except (List P2pArtifactDiagnostic) α)

def Outcome.invalid {α : Type} (fieldPath : String) (summary : Option String := none) :
    Outcome α :=
  .ok (.error (invalidArtifactPath fieldPath summary))

/-- `isPathInside` of two real paths -/
def isPathInside (root candidate : List Name) : Bool :=
  match (Posix.relative root candidate).head? with
  | none => true
  | some name => !(['.', '.'].isPrefixOf name)

/-- `segments.join('/')` -/
def joinSegments (segments : List Name) : String := String.ofList (['/'].intercalate segments)

/-- The loop over the components; `walked` are behind `current`. -/
def checkComponents (options : P2pArtifactRuntimePathOptions) (repoRootRealPath : List Name)
    (artifactRootRealPath : Option (List Name)) :
    List Name → List Name → Path → Path × List Name → FileProgram (Outcome (Path × List Name))
  | _, [], _, nearest => .done (.ok (.ok nearest))
  | walked, segment :: rest, current, nearest =>
    let current := current.join [segment]
    let walked := walked ++ [segment]
    .request (.lstat current) fun
      | .error .noent => .done (.ok (.ok nearest))
      | .error e => .done (.error e)
      | .ok stat =>
        if stat.isLink && options.rejectsLinks then
          .done (.invalid (joinSegments walked)
            "Symlink component is not allowed for this artifact phase.")
        else
          .request (.realpath current) fun
            | .error _ =>
              .done (.invalid (joinSegments walked) "Artifact realpath escapes repo root.")
            | .ok currentRealPath =>
              if !isPathInside repoRootRealPath currentRealPath then
                .done (.invalid (joinSegments walked) "Artifact realpath escapes repo root.")
              else if artifactRootRealPath.any fun root =>
                  !isPathInside root currentRealPath && !isPathInside currentRealPath root then
                .done (.invalid (joinSegments walked)
                  "Artifact realpath escapes declared artifact root.")
              else
                checkComponents options repoRootRealPath artifactRootRealPath walked rest current
                  (current, currentRealPath)

/-- What follows the loop. -/
def checkFinal (options : P2pArtifactRuntimePathOptions) (repoRootRealPath : List Name)
    (artifactRootRealPath : Option (List Name)) (nearest : Path × List Name) :
    FileProgram (Outcome P2pArtifactRuntimePath) :=
  if !isPathInside repoRootRealPath nearest.2 then
    .done (.invalid options.relativePath "Nearest existing ancestor escapes repo root.")
  else
    .request (.realpath options.absolutePath) fun finalRealPath =>
      if finalRealPath.toOption.any (!isPathInside repoRootRealPath ·) then
        .done (.invalid options.relativePath "Final artifact realpath escapes repo root.")
      else if finalRealPath.toOption.any fun path =>
          artifactRootRealPath.any (!isPathInside · path) then
        .done (.invalid options.relativePath
          "Final artifact realpath escapes declared artifact root.")
      else
        .done (.ok (.ok
          { absolutePath := options.absolutePath
            repoRootRealPath
            nearestExistingAncestor := nearest.1
            nearestExistingAncestorRealPath := nearest.2 }))

/-- The checks once the real paths of the roots are known. -/
def checkBelow (options : P2pArtifactRuntimePathOptions) (repoRootRealPath : List Name)
    (artifactRootRealPath : Option (List Name)) : FileProgram (Outcome P2pArtifactRuntimePath) := do
  let repoRoot := Path.ofString options.repoRoot
  match ← checkComponents options repoRootRealPath artifactRootRealPath [] options.components
      repoRoot (repoRoot, repoRootRealPath) with
  | .error e => return .error e
  | .ok (.error diagnostics) => return .ok (.error diagnostics)
  | .ok (.ok nearest) => checkFinal options repoRootRealPath artifactRootRealPath nearest

def validateP2pArtifactRuntimePath (options : P2pArtifactRuntimePathOptions) :
    FileProgram (Outcome P2pArtifactRuntimePath) :=
  if !isP2pArtifactRelativePath options.relativePath then
    .done (.ok (.error
      [{ code := .unsafeArtifactPath, phase := .compile, fieldPath := "artifact.path" }]))
  else
    .request (.realpath (.ofString options.repoRoot)) fun
      | .error _ => .done (.invalid "repoRoot")
      | .ok repoRootRealPath =>
        match options.givenRoot with
        | none => checkBelow options repoRootRealPath none
        | some artifactRoot =>
          .request (.realpath (.ofString artifactRoot)) fun
            | .error _ => .done (.invalid "artifactRoot" "Artifact root escapes repo root.")
            | .ok artifactRootRealPath =>
              if !isPathInside repoRootRealPath artifactRootRealPath then
                .done (.invalid "artifactRoot" "Artifact root escapes repo root.")
              else checkBelow options repoRootRealPath (some artifactRootRealPath)

/-! ## What the check does -/

variable {options : P2pArtifactRuntimePathOptions} {fs : FileSystem} {root candidate : List Name}

/-- What is inside a place lies below it. -/
theorem prefix_of_isPathInside (h : isPathInside root candidate = true) : root <+: candidate := by
  refine Posix.prefix_of_relative fun hhead => ?_
  rw [isPathInside, hhead] at h
  cases h

/-- The components of an accepted path are names. -/
theorem isName_components (h : isP2pArtifactRelativePath options.relativePath = true) :
    ∀ name ∈ options.components, IsName name := by
  intro name hname
  rw [isP2pArtifactRelativePath, Bool.and_eq_true, List.all_eq_true] at h
  have hsegment := h.2 name hname
  simp only [Bool.not_eq_true', Bool.or_eq_false_iff, decide_eq_false_iff_not] at hsegment
  exact ⟨hsegment.1.1, hsegment.1.2, hsegment.2, Posix.slash_notMem_segments name hname⟩

theorem asks_checkComponents (repoRootRealPath : List Name)
    (artifactRootRealPath : Option (List Name)) (walked rest : List Name) (current : Path)
    (nearest : Path × List Name) :
    (checkComponents options repoRootRealPath artifactRootRealPath walked rest current
      nearest).Asks FileRequest.IsRead := by
  induction rest generalizing walked current nearest with
  | nil => trivial
  | cons segment rest ih =>
    refine ⟨trivial, fun stat => ?_⟩
    dsimp only
    split
    · trivial
    · trivial
    · split
      · trivial
      · refine ⟨trivial, fun real => ?_⟩
        dsimp only
        split
        · trivial
        · split
          · trivial
          · split
            · trivial
            · exact ih _ _ _

theorem asks_checkFinal (repoRootRealPath : List Name) (artifactRootRealPath : Option (List Name))
    (nearest : Path × List Name) :
    (checkFinal options repoRootRealPath artifactRootRealPath nearest).Asks
      FileRequest.IsRead := by
  unfold checkFinal
  split
  · trivial
  · refine ⟨trivial, fun real => ?_⟩
    dsimp only
    split
    · trivial
    · split <;> trivial

theorem asks_checkBelow (repoRootRealPath : List Name)
    (artifactRootRealPath : Option (List Name)) :
    (checkBelow options repoRootRealPath artifactRootRealPath).Asks FileRequest.IsRead := by
  refine Program.asks_bind (asks_checkComponents _ _ _ _ _ _) fun outcome => ?_
  split
  · trivial
  · trivial
  · exact asks_checkFinal _ _ _

/-- The check only reads. -/
theorem asks_validateP2pArtifactRuntimePath (options : P2pArtifactRuntimePathOptions) :
    (validateP2pArtifactRuntimePath options).Asks FileRequest.IsRead := by
  unfold validateP2pArtifactRuntimePath
  split
  · trivial
  · refine ⟨trivial, fun real => ?_⟩
    dsimp only
    split
    · trivial
    · split
      · exact asks_checkBelow _ _
      · refine ⟨trivial, fun real' => ?_⟩
        dsimp only
        split
        · trivial
        · split
          · trivial
          · exact asks_checkBelow _ _

/-- What the check says of a path. -/
def validated (fs : FileSystem) (options : P2pArtifactRuntimePathOptions) :
    Outcome P2pArtifactRuntimePath :=
  ((validateP2pArtifactRuntimePath options).run FileSystem.perform fs).1

theorem run_validateP2pArtifactRuntimePath :
    (validateP2pArtifactRuntimePath options).run FileSystem.perform fs =
      (validated fs options, fs) :=
  Prod.ext rfl ((asks_validateP2pArtifactRuntimePath options).run_snd
    FileSystem.perform_isRead fs)

/-- What is known of a path that passed the check. -/
structure Accepted (fs : FileSystem) (options : P2pArtifactRuntimePathOptions)
    (runtimePath : P2pArtifactRuntimePath) : Prop where
  relativePath : isP2pArtifactRelativePath options.relativePath = true
  absolutePath : runtimePath.absolutePath = options.absolutePath
  repoRoot : fs.realpath (.ofString options.repoRoot) = .ok runtimePath.repoRootRealPath
  artifactRoot : ∀ artifactRoot ∈ options.givenRoot,
    ∃ root, fs.realpath (.ofString artifactRoot) = .ok root

theorem checkFinal_eq_ok {repoRootRealPath : List Name}
    {artifactRootRealPath : Option (List Name)} {nearest : Path × List Name}
    {runtimePath : P2pArtifactRuntimePath}
    (h : ((checkFinal options repoRootRealPath artifactRootRealPath nearest).run
      FileSystem.perform fs).1 = .ok (.ok runtimePath)) :
    runtimePath.absolutePath = options.absolutePath ∧
      runtimePath.repoRootRealPath = repoRootRealPath := by
  unfold checkFinal at h
  split at h
  · cases h
  · rw [Program.run_request] at h
    split at h
    · cases h
    · split at h
      · cases h
      · cases h
        exact ⟨rfl, rfl⟩

theorem checkBelow_eq_ok {repoRootRealPath : List Name}
    {artifactRootRealPath : Option (List Name)} {runtimePath : P2pArtifactRuntimePath}
    (h : ((checkBelow options repoRootRealPath artifactRootRealPath).run
      FileSystem.perform fs).1 = .ok (.ok runtimePath)) :
    runtimePath.absolutePath = options.absolutePath ∧
      runtimePath.repoRootRealPath = repoRootRealPath := by
  rw [checkBelow, Program.run_bind,
    (asks_checkComponents _ _ _ _ _ _).run_snd FileSystem.perform_isRead] at h
  split at h
  · cases h
  · cases h
  · exact checkFinal_eq_ok h

theorem accepted_of_validated {runtimePath : P2pArtifactRuntimePath}
    (h : validated fs options = .ok (.ok runtimePath)) : Accepted fs options runtimePath := by
  unfold validated validateP2pArtifactRuntimePath at h
  split at h
  · cases h
  · rename_i hlexical
    rw [Bool.not_eq_true, Bool.not_eq_false'] at hlexical
    rw [Program.run_request] at h
    simp only [FileSystem.perform] at h
    split at h
    · cases h
    · rename_i repoRootRealPath hroot
      split at h
      · rename_i hgiven
        obtain ⟨habsolute, hreal⟩ := checkBelow_eq_ok h
        exact ⟨hlexical, habsolute, hreal ▸ hroot, fun _ hmem => by rw [hgiven] at hmem; cases hmem⟩
      · rename_i artifactRoot hgiven
        rw [Program.run_request] at h
        simp only [FileSystem.perform] at h
        split at h
        · cases h
        · rename_i artifactRootRealPath hartifact
          split at h
          · cases h
          · obtain ⟨habsolute, hreal⟩ := checkBelow_eq_ok h
            refine ⟨hlexical, habsolute, hreal ▸ hroot, fun _ hmem => ?_⟩
            rw [hgiven] at hmem
            cases hmem
            exact ⟨_, hartifact⟩

end Imcodes.Artifacts
