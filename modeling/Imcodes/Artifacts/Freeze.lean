import Imcodes.Artifacts.RuntimePath

/-!
# Freezing the identity of a run's artifacts

`freezeP2pArtifactIdentity` settles once where a run puts its artifacts.  By the OpenSpec
convention that is a change directory that the call itself makes: if its name is taken, the next
one with a number is tried.

* `ensures_frozenIdentity` — an identity with a change path ends a call whose last request made
  that directory.
-/

namespace Imcodes.Artifacts

open Files
open Posix (Name IsName Path)
open Workflow (P2pSymlinkPolicy P2pArtifactConvention P2pArtifactContract isP2pArtifactRelativePath)

structure P2pArtifactFreezeArgs where
  contract : P2pArtifactContract
  runId : String
  inferredSlug : Option String := none
  openspecChangePath : Option String := none

structure P2pFrozenArtifactIdentity where
  convention : P2pArtifactConvention
  openspecChangeSlug : Option String := none
  openspecChangePath : Option String := none
  openspecArtifactPaths : List String
  collisionResolved : Bool := false
  diagnostics : List P2pArtifactDiagnostic := []
deriving DecidableEq

/-- `COLLISION_SUFFIX_CAP` -/
def collisionSuffixCap : ℕ := 100

/-! ## The slug -/

/-- `toLowerCase`, as far as it makes letters from `a` to `z`. -/
def toLowerCase (text : List Char) : List Char :=
  text.flatMap fun c =>
    if c = '\u0130' then ['i', '\u0307']
    else if c = '\u212a' then ['k']
    else [c.toLower]

/-- `/[a-z0-9-]/` -/
def isSlugChar (c : Char) : Bool := Workflow.isLower c || Workflow.isDigit c || c = '-'

/-- Each run of such characters becomes a hyphen; `inRun` says that one has begun. -/
def hyphenate (p : Char → Bool) : Bool → List Char → List Char
  | _, [] => []
  | inRun, c :: cs =>
    if p c then if inRun then hyphenate p true cs else '-' :: hyphenate p true cs
    else c :: hyphenate p false cs

/-- `replace(/^-+|-+$/g, '')` -/
def trimHyphens (text : List Char) : List Char :=
  (text.dropWhile (· = '-')).rdropWhile (· = '-')

def sanitizeSlug (input : List Char) : List Char :=
  (hyphenate (· = '-') false
    (trimHyphens (hyphenate (fun c => !isSlugChar c) false (toLowerCase input)))).take 64

/-- `value.startsWith('openspec/changes/')` -/
def isUnderChanges (value : String) : Bool := "openspec/changes/".toList.isPrefixOf value.toList

/-- The segment after the first `changes`. -/
def changeSegment : List Name → Option Name
  | [] => none
  | segment :: rest => if segment = "changes".toList then rest.head? else changeSegment rest

/-- A slug that is left of a text, if any is. -/
def slugOf (text : List Char) : Option (List Char) :=
  if sanitizeSlug text = [] then none else some (sanitizeSlug text)

/-- `args.openspecChangePath ?? args.contract.paths.find(…)`, if it is not empty -/
def P2pArtifactFreezeArgs.explicitPath (args : P2pArtifactFreezeArgs) : Option String :=
  (args.openspecChangePath <|> args.contract.paths.find? isUnderChanges).filter (· ≠ "")

def deriveOpenspecSlug (args : P2pArtifactFreezeArgs) : Option (List Char) :=
  ((args.explicitPath.bind fun path =>
    changeSegment ((Posix.segments path).filter (· ≠ []))).bind slugOf) <|>
  ((args.inferredSlug.filter (· ≠ "")).bind fun slug => slugOf slug.toList)

/-! ## The change directory -/

/-- `openspec/changes/<slug>` -/
def changePath (slug : List Char) : String := "openspec/changes/" ++ String.ofList slug

structure OpenspecFreezeResult where
  slug : List Char
  absolutePath : Path
  collisionResolved : Bool

/-- The slug of an attempt. -/
def candidateSlug (baseSlug : List Char) (attempt : ℕ) : List Char :=
  if attempt = 0 then baseSlug else baseSlug ++ '-' :: (toString (attempt + 1)).toList

/-- The loop over the attempts, as many as are `left`. -/
def freezeAttempts (repoRoot : String) (baseSlug : List Char)
    (symlinkPolicy : Option P2pSymlinkPolicy) :
    ℕ → ℕ → FileProgram (Outcome OpenspecFreezeResult)
  | _, 0 =>
    .done (.invalid "artifact.openspecChangeSlug"
      s!"Could not allocate a non-colliding slug after {collisionSuffixCap} attempts.")
  | attempt, left + 1 =>
    let relativePath := changePath (candidateSlug baseSlug attempt)
    if !isP2pArtifactRelativePath relativePath then
      .done (.ok (.error [{ code := .unsafeArtifactPath, phase := .compile
                            fieldPath := "artifact.openspecChangePath" }]))
    else do
      let options : P2pArtifactRuntimePathOptions :=
        { repoRoot, relativePath, phase := some .freeze, symlinkPolicy }
      match ← validateP2pArtifactRuntimePath options with
      | .error e => return .error e
      | .ok (.error diagnostics) => return .ok (.error diagnostics)
      | .ok (.ok _) =>
        .request (.mkdir options.absolutePath) fun
          | .ok () =>
            .done (.ok (.ok
              { slug := candidateSlug baseSlug attempt
                absolutePath := options.absolutePath
                collisionResolved := attempt > 0 }))
          | .error .exist => freezeAttempts repoRoot baseSlug symlinkPolicy (attempt + 1) left
          | .error e =>
            .done (.invalid "artifact.openspecChangePath" s!"mkdir failed: {e.code}.")

def freezeOpenspecChangeDirectory (repoRoot : String) (baseSlug : List Char)
    (symlinkPolicy : Option P2pSymlinkPolicy) : FileProgram (Outcome OpenspecFreezeResult) :=
  if !(baseSlug ≠ [] && baseSlug.all isSlugChar) then
    .done (.invalid "artifact.openspecChangeSlug"
      s!"Slug \"{String.ofList baseSlug}\" did not normalize to [a-z0-9-]+.")
  else
    .request (.mkdirp ((Path.ofString repoRoot).join ["openspec".toList, "changes".toList])) fun
      | .error e => .done (.error e)
      | .ok () => freezeAttempts repoRoot baseSlug symlinkPolicy 0 collisionSuffixCap

def joinUnderArtifactRoot (root relative : String) : String :=
  if (root ++ "/").toList.isPrefixOf relative.toList || relative = root then relative
  else String.ofList (squeezeSlashes (root ++ "/" ++ relative).toList)
where
  /-- `replace(/\/+/g, '/')` -/
  squeezeSlashes : List Char → List Char
    | '/' :: '/' :: rest => squeezeSlashes ('/' :: rest)
    | c :: rest => c :: squeezeSlashes rest
    | [] => []

/-! ## The identity -/

/-- An identity that could not be frozen. -/
def P2pFrozenArtifactIdentity.failed (convention : P2pArtifactConvention)
    (diagnostics : List P2pArtifactDiagnostic) : P2pFrozenArtifactIdentity :=
  { convention, openspecArtifactPaths := [], diagnostics }

/-- The loop over explicit paths, from an index on. -/
def freezeExplicitPaths (repoRoot : String) (contract : P2pArtifactContract) :
    ℕ → List String → List String → FileProgram (Except Errno P2pFrozenArtifactIdentity)
  | _, validatedPaths, [] =>
    .done (.ok { convention := contract.convention, openspecArtifactPaths := validatedPaths })
  | index, validatedPaths, declaredPath :: rest => do
    match ← validateP2pArtifactRuntimePath
        { repoRoot, relativePath := declaredPath, phase := some .freeze
          symlinkPolicy := contract.symlinkPolicy } with
    | .error e => return .error e
    | .ok (.error diagnostics) =>
      return .ok (.failed contract.convention (diagnostics.map fun diagnostic =>
        { diagnostic with
          fieldPath := some (diagnostic.fieldPath.getD s!"artifact.paths[{index}]") }))
    | .ok (.ok _) =>
      freezeExplicitPaths repoRoot contract (index + 1) (validatedPaths ++ [declaredPath]) rest

/-- The identity of a change directory that has been made. -/
def openspecIdentity (contract : P2pArtifactContract) (baseSlug : List Char)
    (result : OpenspecFreezeResult) : P2pFrozenArtifactIdentity :=
  let artifactRoot := changePath result.slug
  { convention := contract.convention
    openspecChangeSlug := String.ofList result.slug
    openspecChangePath := artifactRoot
    openspecArtifactPaths :=
      if contract.paths.length > 0 then contract.paths.map (joinUnderArtifactRoot artifactRoot)
      else [artifactRoot]
    collisionResolved := result.collisionResolved
    diagnostics :=
      if result.collisionResolved then
        [{ code := .artifactIdentityCollisionResolved, phase := .bind
           fieldPath := "artifact.openspecChangeSlug"
           summary := s!"Slug \"{String.ofList baseSlug}\" collided; " ++
             s!"resolved as \"{String.ofList result.slug}\"." }]
      else [] }

/-- `freezeP2pArtifactIdentity` of a run without an identity; what it gives is recorded. -/
def frozenIdentity (repoRoot : String) (args : P2pArtifactFreezeArgs) :
    FileProgram (Except Errno P2pFrozenArtifactIdentity) :=
  let contract := args.contract
  match contract.convention with
  | .explicitPaths => freezeExplicitPaths repoRoot contract 0 [] contract.paths
  | .openspecConvention =>
    match deriveOpenspecSlug args with
    | none =>
      .done (.ok (.failed contract.convention
        [{ code := .unsafeArtifactPath, phase := .bind
           fieldPath := "artifact.openspecChangePath"
           summary := "OpenSpec convention requires a derivable change slug." }]))
    | some baseSlug => do
      match ← freezeOpenspecChangeDirectory repoRoot baseSlug contract.symlinkPolicy with
      | .error e => return .error e
      | .ok (.error diagnostics) => return .ok (.failed contract.convention diagnostics)
      | .ok (.ok result) => return .ok (openspecIdentity contract baseSlug result)
  | .none =>
    .done (.ok { convention := contract.convention, openspecArtifactPaths := contract.paths })

/-! ## What a frozen identity stands on -/

variable {repoRoot : String} {answers : Program.Answers FileRequest FileRequest.Answer}

/-- The path of a directory in a repository. -/
def repositoryPath (repoRoot path : String) : Path :=
  (Path.ofString repoRoot).join (Posix.segments path)

/-- The last request of a call made the directory of a path. -/
def MadeLast (repoRoot path : String) (answers : Program.Answers FileRequest FileRequest.Answer) :
    Prop :=
  ∃ init, answers = init ++ [⟨.mkdir (repositoryPath repoRoot path), .ok ()⟩]

theorem ensures_freezeAttempts (baseSlug : List Char) (symlinkPolicy : Option P2pSymlinkPolicy)
    (attempt left : ℕ) :
    (freezeAttempts repoRoot baseSlug symlinkPolicy attempt left).Ensures
      (fun answers outcome => ∀ result, outcome = .ok (.ok result) →
        MadeLast repoRoot (changePath result.slug) answers) answers := by
  induction left generalizing attempt answers with
  | zero => exact fun _ h => by cases h
  | succ left ih =>
    rw [freezeAttempts]
    split
    · exact fun _ h => by cases h
    · refine Program.ensures_bind.2 (.of_forall fun answers outcome => ?_)
      split
      · exact fun _ h => by cases h
      · exact fun _ h => by cases h
      · intro made
        dsimp only
        split
        · intro result h
          cases h
          exact ⟨answers, rfl⟩
        · exact ih _
        · exact fun _ h => by cases h

theorem ensures_freezeOpenspecChangeDirectory (baseSlug : List Char)
    (symlinkPolicy : Option P2pSymlinkPolicy) :
    (freezeOpenspecChangeDirectory repoRoot baseSlug symlinkPolicy).Ensures
      (fun answers outcome => ∀ result, outcome = .ok (.ok result) →
        MadeLast repoRoot (changePath result.slug) answers) answers := by
  unfold freezeOpenspecChangeDirectory
  split
  · exact fun _ h => by cases h
  · intro parent
    dsimp only
    split
    · exact fun _ h => by cases h
    · exact ensures_freezeAttempts baseSlug symlinkPolicy 0 collisionSuffixCap

theorem ensures_freezeExplicitPaths (contract : P2pArtifactContract) (index : ℕ)
    (validatedPaths rest : List String) :
    (freezeExplicitPaths repoRoot contract index validatedPaths rest).Ensures
      (fun _ result => ∀ identity, result = .ok identity → identity.openspecChangePath = none)
      answers := by
  induction rest generalizing index validatedPaths answers with
  | nil => exact fun _ h => by cases h; rfl
  | cons declaredPath rest ih =>
    refine Program.ensures_bind.2 (.of_forall fun answers outcome => ?_)
    split
    · exact fun _ h => by cases h
    · exact fun _ h => by cases h; rfl
    · exact ih _ _

/-- **A call that gives an identity with a change path has just made its directory.** -/
theorem ensures_frozenIdentity (args : P2pArtifactFreezeArgs) :
    (frozenIdentity repoRoot args).Ensures
      (fun answers result => ∀ identity, result = .ok identity →
        ∀ path ∈ identity.openspecChangePath, MadeLast repoRoot path answers) answers := by
  unfold frozenIdentity
  dsimp only
  split
  · refine Program.Ensures.imp (ensures_freezeExplicitPaths _ _ _ _) fun answers result h => ?_
    intro identity hok path hpath
    rw [h identity hok] at hpath
    cases hpath
  · split
    · intro identity h path hpath
      cases h
      cases hpath
    · refine Program.ensures_bind.2 ((ensures_freezeOpenspecChangeDirectory _ _).imp
        fun answers outcome h => ?_)
      split
      · exact fun _ h => by cases h
      · intro identity hok path hpath
        cases hok
        cases hpath
      · intro identity hok path hpath
        cases hok
        cases hpath
        exact h _ rfl
  · intro identity h path hpath
    cases h
    cases hpath

end Imcodes.Artifacts
