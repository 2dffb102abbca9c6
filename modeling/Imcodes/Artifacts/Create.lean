import Imcodes.Artifacts.RuntimePath

/-!
# Making an artifact

`createP2pArtifactPath` makes an empty file or a directory in a repository: it checks what is
there of the path, makes what is missing on the way, and looks where it ended.  Only this last
look asks whether what was made is inside the declared root of the artifact.

* `confined_iff` — when all that is made stays inside both roots, and an escape makes nothing.
-/

namespace Imcodes.Artifacts

open Files FileSystem
open Posix (Name IsName Path)
open Workflow (isP2pArtifactRelativePath)

structure P2pCreatedArtifact where
  absolutePath : Path
  finalRealPath : List Name
deriving DecidableEq

namespace P2pArtifactRuntimePathOptions

/-- `options.relativePath.endsWith('/')` -/
def isDirectory (options : P2pArtifactRuntimePathOptions) : Bool :=
  options.relativePath.toList.getLast? = some '/'

/-- The options with the slashes at the end of the path gone, if a directory is to be made. -/
def trimmed (options : P2pArtifactRuntimePathOptions) : P2pArtifactRuntimePathOptions :=
  if options.isDirectory then
    { options with
      relativePath := String.ofList (options.relativePath.toList.rdropWhile (· = '/')) }
  else options

end P2pArtifactRuntimePathOptions

/-- The directories on the way, and the directory or the file. -/
def makeArtifact (isDirectory : Bool) (absolutePath : Path) : FileProgram (Except Errno Unit) :=
  if isDirectory then .request (.mkdirp absolutePath) .done
  else
    .request (.mkdirp absolutePath.dirname) fun
      | .error e => .done (.error e)
      | .ok () =>
        .request (.writeNew absolutePath) fun
          -- an artifact that is there already is kept
          | .error .exist => .done (.ok ())
          | result => .done result

/-- The look at what was made. -/
def verifyCreated (options : P2pArtifactRuntimePathOptions) (runtimePath : P2pArtifactRuntimePath) :
    FileProgram (Outcome P2pCreatedArtifact) :=
  .request (.realpath runtimePath.absolutePath) fun finalRealPath =>
    match finalRealPath.toOption.filter (isPathInside runtimePath.repoRootRealPath) with
    | none =>
      .done (.invalid options.relativePath "Created artifact realpath escapes repo root.")
    | some finalRealPath =>
      let created := { absolutePath := runtimePath.absolutePath, finalRealPath }
      match options.givenRoot with
      | none => .done (.ok (.ok created))
      | some artifactRoot =>
        .request (.realpath (.ofString artifactRoot)) fun artifactRootRealPath =>
          if artifactRootRealPath.toOption.any (isPathInside · finalRealPath) then
            .done (.ok (.ok created))
          else
            .done (.invalid options.relativePath
              "Created artifact realpath escapes declared artifact root.")

/-- What follows the check of the path. -/
def makeAndVerify (options : P2pArtifactRuntimePathOptions) (isDirectory : Bool)
    (runtimePath : P2pArtifactRuntimePath) : FileProgram (Outcome P2pCreatedArtifact) := do
  match ← makeArtifact isDirectory runtimePath.absolutePath with
  | .error e => return .invalid options.relativePath s!"Artifact create failed: {e.code}."
  | .ok () => verifyCreated options runtimePath

def createP2pArtifactPath (options : P2pArtifactRuntimePathOptions) :
    FileProgram (Outcome P2pCreatedArtifact) :=
  if options.isDirectory ∧ options.trimmed.relativePath = "" then
    .done (.invalid "artifact.path" "Empty path after trimming trailing slash.")
  else do
    match ← validateP2pArtifactRuntimePath options.trimmed with
    | .error e => return .error e
    | .ok (.error diagnostics) => return .ok (.error diagnostics)
    | .ok (.ok runtimePath) => makeAndVerify options.trimmed options.isDirectory runtimePath

/-! ## The sandbox -/

/-- The summaries of a refusal that speak of an escape. -/
def escapeSummaries : List String :=
  ["Artifact root escapes repo root.", "Artifact realpath escapes repo root.",
    "Artifact realpath escapes declared artifact root.",
    "Nearest existing ancestor escapes repo root.", "Final artifact realpath escapes repo root.",
    "Final artifact realpath escapes declared artifact root.",
    "Created artifact realpath escapes repo root.",
    "Created artifact realpath escapes declared artifact root."]

/-- An answer that refuses an artifact because of an escape. -/
def IsEscape {α : Type} (outcome : Outcome α) : Prop :=
  ∃ diagnostics, outcome = .ok (.error diagnostics) ∧
    ∃ diagnostic ∈ diagnostics, ∃ summary ∈ diagnostic.summary, summary ∈ escapeSummaries

/-- What is there after a call and was not there before. -/
def Created (before after : FileSystem) (path : List Name) : Prop :=
  before.node? path = none ∧ after.node? path ≠ none

/-- The real path of a path that must lead somewhere. -/
def Resolves (fs : FileSystem) (path : String) (real : List Name) : Prop :=
  fs.realpath (.ofString path) = .ok real

/-- **All that a call makes is inside both roots, so is what it gives, and an escape makes
nothing.** -/
structure Confined (fs : FileSystem) (options : P2pArtifactRuntimePathOptions)
    (outcome : Outcome P2pCreatedArtifact) (after : FileSystem) : Prop where
  repoRoot : ∀ path, Created fs after path →
    ∃ root, Resolves fs options.repoRoot root ∧ root <+: path
  artifactRoot : ∀ path, Created fs after path → ∀ artifactRoot ∈ options.givenRoot,
    ∃ root, Resolves fs artifactRoot root ∧ (root <+: path ∨ path <+: root)
  given : ∀ created, outcome = .ok (.ok created) →
    after.realpath created.absolutePath = .ok created.finalRealPath ∧
      after.node? created.finalRealPath ≠ none ∧
      (∃ root, Resolves fs options.repoRoot root ∧ root <+: created.finalRealPath) ∧
      ∀ artifactRoot ∈ options.givenRoot,
        ∃ root, Resolves fs artifactRoot root ∧ root <+: created.finalRealPath
  escape : IsEscape outcome → ∀ path, ¬ Created fs after path

/-- A call on a file system keeps all it makes in the sandbox. -/
def StaysConfined (fs : FileSystem) (options : P2pArtifactRuntimePathOptions) : Prop :=
  Confined fs options ((createP2pArtifactPath options).run FileSystem.perform fs).1
    ((createP2pArtifactPath options).run FileSystem.perform fs).2

/-- Where the missing part of an accepted path would be made is inside both roots. -/
def MissingInside (fs : FileSystem) (options : P2pArtifactRuntimePathOptions) : Prop :=
  (∃ runtimePath, validated fs options.trimmed = .ok (.ok runtimePath)) →
    ∀ here names, fs.missing options.trimmed.absolutePath = some (here, names) →
      (∀ root, Resolves fs options.repoRoot root → isPathInside root (here ++ names) = true) ∧
      ∀ artifactRoot ∈ options.givenRoot, ∀ root, Resolves fs artifactRoot root →
        isPathInside root (here ++ names) = true

variable {fs after : FileSystem} {options : P2pArtifactRuntimePathOptions} {here names : List Name}
  {path' : Path} {runtimePath : P2pArtifactRuntimePath}

/-! ### What is made -/

/-- The missing part of a path has been made, its last name a directory or a file. -/
structure Makes (fs after : FileSystem) (here names : List Name) : Prop where
  more : fs.Extends after
  created : ∀ path, Created fs after path ↔
    here <+: path ∧ path ≠ here ∧ path <+: here ++ names
  place : after.IsPlace (here ++ names)

theorem created_addDirectories (h : fs.IsMissing here names) (path : List Name) :
    Created fs (fs.addDirectories here names) path ↔
      here <+: path ∧ path ≠ here ∧ path <+: here ++ names := by
  rw [Created, node?_addDirectories h.isDirectory h.new h.names]
  constructor
  · rintro ⟨hbefore, hafter⟩
    by_contra hnot
    rw [if_neg hnot] at hafter
    exact hafter hbefore
  · rintro ⟨hhere, hne, hnames⟩
    rw [if_pos ⟨hhere, hne, hnames⟩]
    refine ⟨?_, nofun⟩
    obtain ⟨more, rfl⟩ := hhere
    obtain ⟨name, rest, rfl⟩ := List.exists_cons_of_ne_nil h.ne_nil
    cases more with
    | nil => exact absurd (List.append_nil here) hne
    | cons first more =>
      obtain ⟨rfl, -⟩ := List.cons_prefix_cons.1 ((List.prefix_append_right_inj here).1 hnames)
      rw [List.append_cons]
      exact node?_eq_none_below (h.new first rfl) more

theorem makes_addDirectories (h : fs.IsMissing here names) :
    Makes fs (fs.addDirectories here names) here names where
  more := extends_addDirectories names
  created := created_addDirectories h
  place := by
    refine isPlace_of_isDirectory ?_
    rw [node?_addDirectories h.isDirectory h.new h.names, if_pos]
    exact ⟨List.prefix_append _ _, by simpa using h.ne_nil, List.prefix_rfl⟩

/-- The directories on the way to a missing file. -/
theorem mkdirp_dirname {init : List Name} {last : Name}
    (h : fs.IsMissing here (names ++ [last])) (hsegments : path'.segments = init ++ (names ++ [last]))
    (hwalk : fs.walk (fs.start path') init = .ok here) :
    fs.mkdirp path'.dirname = .ok (fs.addDirectories here names) := by
  have hdir : path'.dirname.segments = init ++ names := by
    rw [Path.dirname, hsegments, ← List.append_assoc, List.dropLast_concat]
  have hmissing : fs.missing path'.dirname = fs.missingFrom here names := missing_eq hdir hwalk
  unfold mkdirp
  by_cases hnil : names = []
  · subst hnil
    rw [List.append_nil] at hdir
    rw [hmissing]
    have hstart : fs.start path'.dirname = fs.start path' := rfl
    rw [missingFrom, hdir, hstart, hwalk]
    exact if_pos h.isDirectory
  · have htake := h.take (k := names.length) (by rwa [List.take_left])
    rw [List.take_left] at htake
    rw [hmissing, htake.missingFrom]

/-- Below what is missing nothing is missing but the last name, once its directories are made. -/
theorem node?_last {last : Name} (h : fs.IsMissing here (names ++ [last])) :
    (fs.addDirectories here names).node? (here ++ names) = some .directory ∧
      (fs.addDirectories here names).node? (here ++ names ++ [last]) = none := by
  have hnew : ∀ name ∈ names.head?, fs.node? (here ++ [name]) = none := fun name hname =>
    h.new name (by rw [List.head?_append, hname]; rfl)
  have hnames : ∀ name ∈ names, IsName name := fun name hname =>
    h.names name (List.mem_append_left _ hname)
  constructor
  · by_cases hnil : names = []
    · subst hnil
      rw [List.append_nil]
      exact h.isDirectory
    · rw [node?_addDirectories h.isDirectory hnew hnames, if_pos]
      exact ⟨List.prefix_append _ _, by simpa using hnil, List.prefix_rfl⟩
  · rw [node?_addDirectories h.isDirectory hnew hnames, if_neg]
    · cases names with
      | nil =>
        rw [List.append_nil]
        exact h.new last rfl
      | cons name names =>
        have hbelow := node?_eq_none_below (hnew name rfl) (names ++ [last])
        simpa using hbelow
    · rintro ⟨-, -, hprefix⟩
      have hle := hprefix.length_le
      rw [@List.length_append _ (here ++ names)] at hle
      exact Nat.not_succ_le_self _ hle

/-- A file is made after the directories on the way. -/
theorem writeNew_last {init : List Name} {last : Name} (h : fs.IsMissing here (names ++ [last]))
    (hsegments : path'.segments = init ++ (names ++ [last]))
    (hwalk : fs.walk (fs.start path') init = .ok here) :
    (fs.addDirectories here names).writeNew path' =
        .ok ((fs.addDirectories here names).add (here ++ names) last (.file [])) ∧
      Makes fs ((fs.addDirectories here names).add (here ++ names) last (.file [])) here
        (names ++ [last]) := by
  have hmore : fs.Extends (fs.addDirectories here names) := extends_addDirectories names
  have hlast := h.names last (List.mem_append_right _ (List.mem_singleton_self _))
  have hnames : ∀ name ∈ names, IsName name := fun name hname =>
    h.names name (List.mem_append_left _ hname)
  obtain ⟨hdir, hnew⟩ := node?_last h
  have hat : (fs.addDirectories here names).locate path' = .ok (here ++ names) := by
    unfold locate
    rw [hsegments, ← List.append_assoc, List.dropLast_concat, walk_append, hmore.start,
      hmore.walk hwalk]
    dsimp only
    rw [walk_names names hnames (isPlace_of_isDirectory hdir)]
    exact if_pos hdir
  have hnode := fun path => @node?_add _ _ path last (.file []) hdir hnew hlast
  constructor
  · unfold writeNew create
    rw [hsegments, ← List.append_assoc, List.getLast?_concat]
    dsimp only
    rw [if_pos hlast, hat]
    exact if_pos hnew
  · refine ⟨hmore.trans extends_add, fun path => ?_, ?_⟩
    · have hnew' : ∀ name ∈ names.head?, fs.node? (here ++ [name]) = none := fun name hname =>
        h.new name (by rw [List.head?_append, hname]; rfl)
      rw [← created_addDirectories h, Created, Created, hnode,
        node?_addDirectories h.isDirectory h.new h.names,
        node?_addDirectories h.isDirectory hnew' hnames]
      refine and_congr_right fun _ => not_congr ?_
      by_cases hpath : path = here ++ names ++ [last]
      · subst hpath
        rw [if_pos rfl, if_pos]
        · exact iff_of_false nofun nofun
        · rw [List.append_assoc]
          exact ⟨List.prefix_append _ _, by simp, List.prefix_rfl⟩
      · rw [if_neg hpath]
        simp only [← List.append_assoc, List.prefix_concat_iff, hpath, false_or]
    · rw [← List.append_assoc]
      exact ⟨.file [], (hnode _).trans (if_pos rfl), nofun⟩

/-- The answer of `makeArtifact`, and what is there then. -/
def made (fs : FileSystem) (isDirectory : Bool) (path : Path) : Except Errno Unit × FileSystem :=
  (makeArtifact isDirectory path).run FileSystem.perform fs

/-- Where something is missing it is made. -/
theorem makes_made {isDirectory : Bool} (h : fs.missing path' = some (here, names)) :
    (made fs isDirectory path').1 = .ok () ∧
      Makes fs (made fs isDirectory path').2 here names := by
  obtain ⟨hmissing, init, hsegments, hwalk⟩ := missing_eq_some h
  unfold made makeArtifact
  cases isDirectory with
  | true =>
    have hmkdirp : fs.mkdirp path' = .ok (fs.addDirectories here names) := by
      unfold mkdirp
      rw [h]
    simp only [if_true, Program.run_request, Program.run_done, perform, hmkdirp, changed]
    exact ⟨trivial, makes_addDirectories hmissing⟩
  | false =>
    rcases List.eq_nil_or_concat names with rfl | ⟨dirs, last, rfl⟩
    · exact absurd rfl hmissing.ne_nil
    · rw [List.concat_eq_append] at *
      obtain ⟨hwrite, hmakes⟩ := writeNew_last hmissing hsegments hwalk
      simp only [Bool.false_eq_true, if_false, Program.run_request, perform,
        mkdirp_dirname hmissing hsegments hwalk, changed, hwrite, Program.run_done]
      exact ⟨trivial, hmakes⟩

/-- What is missing on the way to a name is missing on the whole path. -/
theorem missing_concat {last : Name} {segments : List Name}
    (hsegments : path'.segments = segments ++ [last]) (hlast : IsName last)
    (h : fs.missing path'.dirname = some (here, names)) :
    fs.missing path' = some (here, names ++ [last]) := by
  obtain ⟨hmissing, init, hinit, hwalk⟩ := missing_eq_some h
  rw [Path.dirname, hsegments, List.dropLast_concat] at hinit
  dsimp only at hinit
  rw [hinit, List.append_assoc] at hsegments
  rw [missing_eq hsegments hwalk]
  refine IsMissing.missingFrom ⟨by simp, hmissing.isDirectory, fun name hname => ?_,
    fun name hname => ?_⟩
  · rw [List.head?_append_of_ne_nil _ hmissing.ne_nil] at hname
    exact hmissing.new name hname
  · rcases List.mem_append.1 hname with hname | hname
    · exact hmissing.names name hname
    · rwa [List.mem_singleton.1 hname]

theorem mkdirp_eq (h : fs.missing path' = none) (hok : fs.mkdirp path' = .ok after) :
    after = fs := by
  unfold mkdirp at hok
  rw [h] at hok
  dsimp only at hok
  split at hok
  · cases hok
  · split at hok
    · cases hok
      rfl
    · cases hok

/-- A node is made only where its name is missing. -/
theorem missing_of_create {node : Node} (h : fs.create path' node = .ok after) :
    fs.missing path' ≠ none := by
  obtain ⟨here, name, hlast, hat, hname, hnew, -⟩ := create_eq_ok h
  obtain ⟨hwalk, hdir⟩ := locate_eq_ok hat
  obtain ⟨init, hinit⟩ := List.getLast?_eq_some_iff.1 hlast
  rw [hinit, List.dropLast_concat] at hwalk
  rw [missing_eq hinit hwalk, IsMissing.missingFrom]
  · exact nofun
  · refine ⟨by simp, hdir, fun name' hname' => ?_, fun name' hname' => ?_⟩
    · cases hname'
      exact hnew
    · rwa [List.mem_singleton.1 hname']

/-- Where nothing is missing nothing is made. -/
theorem made_eq {isDirectory : Bool} {last : Name} {segments : List Name}
    (hsegments : path'.segments = segments ++ [last]) (hlast : IsName last)
    (h : fs.missing path' = none) : (made fs isDirectory path').2 = fs := by
  unfold made makeArtifact
  cases isDirectory with
  | true =>
    simp only [if_true, Program.run_request, Program.run_done, perform]
    cases hmkdirp : fs.mkdirp path' with
    | error e => rfl
    | ok after => exact mkdirp_eq h hmkdirp
  | false =>
    simp only [Bool.false_eq_true, if_false, Program.run_request, perform]
    cases hmkdirp : fs.mkdirp path'.dirname with
    | error e => rfl
    | ok after =>
      have hdirname : fs.missing path'.dirname = none := by
        by_contra hnot
        obtain ⟨⟨here, names⟩, hsome⟩ := Option.ne_none_iff_exists'.1 hnot
        cases h.symm.trans (missing_concat hsegments hlast hsome)
      obtain rfl := mkdirp_eq hdirname hmkdirp
      simp only [changed, Program.run_request, perform]
      cases hwrite : after.writeNew path' with
      | ok after' => exact absurd h (missing_of_create hwrite)
      | error e => cases e <;> rfl

/-! ### The path that is made -/

/-- The last component of an accepted path. -/
theorem exists_last_absolutePath (h : isP2pArtifactRelativePath options.relativePath = true) :
    ∃ segments last, options.absolutePath.segments = segments ++ [last] ∧ IsName last := by
  have hnames := isName_components h
  have hne : options.components ≠ [] := List.splitOn_ne_nil _ _
  obtain ⟨init, last, hconcat⟩ := (List.eq_nil_or_concat options.components).resolve_left hne
  rw [List.concat_eq_append] at hconcat
  rw [P2pArtifactRuntimePathOptions.absolutePath, Path.join_names hnames, hconcat]
  refine ⟨_, last, (List.append_assoc _ _ _).symm, hnames last ?_⟩
  rw [hconcat]
  exact List.mem_append_right _ (List.mem_singleton_self _)

/-- Where an accepted path leads. -/
theorem realpath_absolutePath (h : isP2pArtifactRelativePath options.relativePath = true) :
    fs.realpath options.absolutePath =
      fs.walk (fs.start options.absolutePath) options.absolutePath.segments := by
  obtain ⟨segments, last, hsegments, hlast⟩ := exists_last_absolutePath h
  refine if_neg fun heq => hlast.ne_nil ?_
  have hlast' := congrArg (fun path => path.segments.getLast?) heq
  rw [hsegments, List.getLast?_concat] at hlast'
  exact Option.some.inj hlast'

/-- What was missing leads below the place where it was made. -/
theorem Makes.walk (h : Makes fs after here names)
    (hmissing : fs.missing path' = some (here, names)) :
    after.walk (after.start path') path'.segments = .ok (here ++ names) := by
  obtain ⟨his, init, hsegments, hwalk⟩ := missing_eq_some hmissing
  rw [hsegments, walk_append, h.more.start, h.more.walk hwalk]
  exact walk_names names his.names h.place

/-- A place that was there and holds the end of what was made holds all of it. -/
theorem Makes.prefix_of_created {root : List Name} (h : Makes fs after here names)
    (his : fs.IsMissing here names) (hroot : fs.IsPlace root) (hend : root <+: here ++ names)
    (hcreated : Created fs after path) : root <+: path := by
  obtain ⟨hhere, -, -⟩ := (h.created path).1 hcreated
  refine List.IsPrefix.trans ?_ hhere
  rcases List.prefix_or_prefix_of_prefix hend (List.prefix_append here names) with hle | hle
  · exact hle
  · obtain ⟨more, rfl⟩ := hle
    obtain ⟨name, rest, rfl⟩ := List.exists_cons_of_ne_nil his.ne_nil
    cases more with
    | nil => exact (List.append_nil here).symm ▸ List.prefix_rfl
    | cons first more =>
      obtain ⟨rfl, -⟩ := List.cons_prefix_cons.1 ((List.prefix_append_right_inj here).1 hend)
      obtain ⟨node, hnode, -⟩ := hroot
      rw [List.append_cons, node?_eq_none_below (his.new first rfl) more] at hnode
      cases hnode

/-! ### The look at the end -/

theorem toOption_eq_some {α : Type} {result : Except Errno α} {a : α} :
    result.toOption = some a ↔ result = .ok a := by
  cases result <;> simp [Except.toOption]

/-- What the last look finds. -/
def verified (after : FileSystem) (options : P2pArtifactRuntimePathOptions)
    (runtimePath : P2pArtifactRuntimePath) : Outcome P2pCreatedArtifact :=
  ((verifyCreated options runtimePath).run FileSystem.perform after).1

theorem asks_verifyCreated :
    (verifyCreated options runtimePath).Asks FileRequest.IsRead := by
  unfold verifyCreated
  refine ⟨trivial, fun real => ?_⟩
  dsimp only
  split
  · trivial
  · split
    · trivial
    · refine ⟨trivial, fun root => ?_⟩
      dsimp only
      split <;> trivial

theorem run_verifyCreated :
    (verifyCreated options runtimePath).run FileSystem.perform after =
      (verified after options runtimePath, after) :=
  Prod.ext rfl (asks_verifyCreated.run_snd FileSystem.perform_isRead after)

/-- The last look, read off the file system. -/
theorem verified_eq :
    verified after options runtimePath =
      match (after.realpath runtimePath.absolutePath).toOption.filter
          (isPathInside runtimePath.repoRootRealPath) with
      | none => .invalid options.relativePath "Created artifact realpath escapes repo root."
      | some final =>
        if options.givenRoot.all fun artifactRoot =>
            (after.realpath (.ofString artifactRoot)).toOption.any (isPathInside · final) then
          .ok (.ok { absolutePath := runtimePath.absolutePath, finalRealPath := final })
        else
          .invalid options.relativePath
            "Created artifact realpath escapes declared artifact root." := by
  unfold verified verifyCreated
  simp only [Program.run_request, perform]
  split
  · rfl
  · rename_i final _
    cases options.givenRoot with
    | none => rfl
    | some artifactRoot =>
      simp only [Program.run_request, perform, Option.all_some]
      by_cases hany : (after.realpath (.ofString artifactRoot)).toOption.any (isPathInside · final)
      · simp only [hany, if_true, Program.run_done]
      · simp only [hany, if_false, Program.run_done, Bool.false_eq_true]

theorem verified_eq_ok {created : P2pCreatedArtifact}
    (h : verified after options runtimePath = .ok (.ok created)) :
    created.absolutePath = runtimePath.absolutePath ∧
      after.realpath runtimePath.absolutePath = .ok created.finalRealPath ∧
      isPathInside runtimePath.repoRootRealPath created.finalRealPath = true ∧
      ∀ artifactRoot ∈ options.givenRoot, ∃ root, Resolves after artifactRoot root ∧
        isPathInside root created.finalRealPath = true := by
  rw [verified_eq] at h
  split at h
  · cases h
  · rename_i final hfinal
    split at h
    · rename_i hall
      cases h
      obtain ⟨hreal, hinside⟩ := Option.filter_eq_some_iff.1 hfinal
      refine ⟨rfl, toOption_eq_some.1 hreal, hinside, fun artifactRoot hgiven => ?_⟩
      rw [hgiven, Option.all_some] at hall
      obtain ⟨root, hroot, hinside'⟩ := (Option.any_eq_true _ _).1 hall
      exact ⟨root, toOption_eq_some.1 hroot, hinside'⟩
    · cases h

/-- What ended inside both roots is given. -/
theorem verified_of_inside {final : List Name}
    (hreal : after.realpath runtimePath.absolutePath = .ok final)
    (hinside : isPathInside runtimePath.repoRootRealPath final = true)
    (hgiven : ∀ artifactRoot ∈ options.givenRoot, ∃ root, Resolves after artifactRoot root ∧
      isPathInside root final = true) :
    verified after options runtimePath =
      .ok (.ok { absolutePath := runtimePath.absolutePath, finalRealPath := final }) := by
  rw [verified_eq, Option.filter_eq_some_iff.2 ⟨toOption_eq_some.2 hreal, hinside⟩]
  refine if_pos ?_
  cases hroot : options.givenRoot with
  | none => rfl
  | some artifactRoot =>
    obtain ⟨root, hresolves, hinside'⟩ := hgiven artifactRoot hroot
    rw [Option.all_some, Option.any_eq_true]
    exact ⟨root, toOption_eq_some.2 hresolves, hinside'⟩

/-- What ended outside of a root is said to escape. -/
theorem isEscape_verified {final : List Name}
    (hreal : after.realpath runtimePath.absolutePath = .ok final)
    (hnot : ¬ (isPathInside runtimePath.repoRootRealPath final = true ∧
      ∀ artifactRoot ∈ options.givenRoot, ∀ root, Resolves after artifactRoot root →
        isPathInside root final = true)) : IsEscape (verified after options runtimePath) := by
  rw [verified_eq]
  split
  · exact ⟨_, rfl, _, List.mem_singleton_self _, _, rfl, by decide⟩
  · rename_i final' hfinal
    obtain ⟨hreal', hinside⟩ := Option.filter_eq_some_iff.1 hfinal
    rw [hreal] at hreal'
    cases hreal'
    rw [if_neg]
    · exact ⟨_, rfl, _, List.mem_singleton_self _, _, rfl, by decide⟩
    · refine fun hall => hnot ⟨hinside, fun artifactRoot hgiven root hroot => ?_⟩
      rw [hgiven, Option.all_some, hroot] at hall
      exact hall

/-! ### Confined calls -/

/-- A refusal that made nothing. -/
theorem confined_refused {outcome : Outcome P2pCreatedArtifact}
    (h : ∀ created, outcome ≠ .ok (.ok created)) : Confined fs options outcome fs where
  repoRoot _ hcreated := absurd hcreated.1 hcreated.2
  artifactRoot _ hcreated := absurd hcreated.1 hcreated.2
  given created hok := absurd hok (h created)
  escape _ _ hcreated := hcreated.2 hcreated.1

/-- What passed the last look is where it should be. -/
theorem given_of_verified (haccepted : Accepted fs options runtimePath) (hmore : fs.Extends after)
    {created : P2pCreatedArtifact}
    (h : verified after options runtimePath = .ok (.ok created)) :
    after.realpath created.absolutePath = .ok created.finalRealPath ∧
      after.node? created.finalRealPath ≠ none ∧
      (∃ root, Resolves fs options.repoRoot root ∧ root <+: created.finalRealPath) ∧
      ∀ artifactRoot ∈ options.givenRoot,
        ∃ root, Resolves fs artifactRoot root ∧ root <+: created.finalRealPath := by
  obtain ⟨habsolute, hreal, hinside, hgiven⟩ := verified_eq_ok h
  refine ⟨habsolute ▸ hreal, ?_, ⟨_, haccepted.repoRoot, prefix_of_isPathInside hinside⟩,
    fun artifactRoot hmem => ?_⟩
  · rw [haccepted.absolutePath, realpath_absolutePath haccepted.relativePath] at hreal
    obtain ⟨node, hnode, -⟩ := isPlace_of_walk isPlace_start hreal
    exact hnode ▸ nofun
  · obtain ⟨root, hroot, hinside'⟩ := hgiven artifactRoot hmem
    obtain ⟨root', hroot'⟩ := haccepted.artifactRoot artifactRoot hmem
    cases hroot.symm.trans (hmore.realpath hroot')
    exact ⟨root, hroot', prefix_of_isPathInside hinside'⟩

/-- The calls that get past the check. -/
theorem confined_makeAndVerify_iff (haccepted : Accepted fs options runtimePath)
    (isDirectory : Bool) :
    Confined fs options
        ((makeAndVerify options isDirectory runtimePath).run FileSystem.perform fs).1
        ((makeAndVerify options isDirectory runtimePath).run FileSystem.perform fs).2 ↔
      ∀ here names, fs.missing options.absolutePath = some (here, names) →
        (∀ root, Resolves fs options.repoRoot root → isPathInside root (here ++ names) = true) ∧
        ∀ artifactRoot ∈ options.givenRoot, ∀ root, Resolves fs artifactRoot root →
          isPathInside root (here ++ names) = true := by
  obtain ⟨segments, last, hsegments, hlast⟩ := exists_last_absolutePath haccepted.relativePath
  have hrun : (makeAndVerify options isDirectory runtimePath).run FileSystem.perform fs =
      match made fs isDirectory options.absolutePath with
      | (.error e, after) =>
        (.invalid options.relativePath s!"Artifact create failed: {e.code}.", after)
      | (.ok (), after) => (verified after options runtimePath, after) := by
    rw [makeAndVerify, Program.run_bind, haccepted.absolutePath]
    rw [show (makeArtifact isDirectory options.absolutePath).run FileSystem.perform fs =
      made fs isDirectory options.absolutePath from rfl]
    rcases made fs isDirectory options.absolutePath with ⟨_ | _, after⟩
    · rfl
    · exact run_verifyCreated
  rw [hrun]
  cases hmissing : fs.missing options.absolutePath with
  | none =>
    refine iff_of_true ?_ nofun
    have hsame : (made fs isDirectory _).2 = fs := made_eq hsegments hlast hmissing
    rcases hmade : made fs isDirectory options.absolutePath with ⟨_ | _, after⟩
    · rw [hmade] at hsame
      obtain rfl := hsame
      exact confined_refused fun _ => nofun
    · rw [hmade] at hsame
      obtain rfl := hsame
      exact ⟨fun _ h => absurd h.1 h.2, fun _ h => absurd h.1 h.2,
        fun created hok => given_of_verified haccepted (.refl _) hok, fun _ _ h => h.2 h.1⟩
  | some found =>
    obtain ⟨here, names⟩ := found
    obtain ⟨hok, hmakes⟩ := @makes_made _ _ _ _ isDirectory hmissing
    obtain ⟨his, -⟩ := missing_eq_some hmissing
    rcases hmade : made fs isDirectory options.absolutePath with ⟨_, after⟩
    rw [hmade] at hok hmakes
    dsimp only at hok hmakes
    obtain rfl := hok
    dsimp only
    have hreal : after.realpath runtimePath.absolutePath = .ok (here ++ names) := by
      rw [haccepted.absolutePath, realpath_absolutePath haccepted.relativePath]
      exact hmakes.walk hmissing
    have hwhole : ∀ {root}, fs.IsPlace root → isPathInside root (here ++ names) = true →
        ∀ path, Created fs after path → root <+: path := fun hroot hinside _ hcreated =>
      hmakes.prefix_of_created his hroot (prefix_of_isPathInside hinside) hcreated
    constructor
    · intro hconfined here' names' heq
      cases heq
      by_contra hnot
      have hescape : IsEscape (verified after options runtimePath) := by
        refine isEscape_verified hreal fun ⟨hrepo, hartifact⟩ => hnot ⟨fun root hroot => ?_,
          fun artifactRoot hmem root hroot => ?_⟩
        · cases hroot.symm.trans haccepted.repoRoot
          exact hrepo
        · exact hartifact artifactRoot hmem root (hmakes.more.realpath hroot)
      refine hconfined.escape hescape (here ++ names) ((hmakes.created _).2 ?_)
      exact ⟨List.prefix_append _ _, by simpa using his.ne_nil, List.prefix_rfl⟩
    · intro hinside
      obtain ⟨hrepo, hartifact⟩ := hinside here names rfl
      refine ⟨fun path hcreated => ?_, fun path hcreated artifactRoot hmem => ?_,
        fun created hok => given_of_verified haccepted hmakes.more hok, fun hescape => ?_⟩
      · exact ⟨_, haccepted.repoRoot, hwhole (isPlace_of_realpath haccepted.repoRoot)
          (hrepo _ haccepted.repoRoot) path hcreated⟩
      · obtain ⟨root, hroot⟩ := haccepted.artifactRoot artifactRoot hmem
        exact ⟨root, hroot, Or.inl (hwhole (isPlace_of_realpath hroot)
          (hartifact artifactRoot hmem root hroot) path hcreated)⟩
      · rw [verified_of_inside hreal (hrepo _ haccepted.repoRoot) fun artifactRoot hmem => ?_]
          at hescape
        · obtain ⟨diagnostics, heq, -⟩ := hescape
          cases heq
        · obtain ⟨root, hroot⟩ := haccepted.artifactRoot artifactRoot hmem
          exact ⟨root, hmakes.more.realpath hroot, hartifact artifactRoot hmem root hroot⟩

@[simp] theorem repoRoot_trimmed : options.trimmed.repoRoot = options.repoRoot := by
  unfold P2pArtifactRuntimePathOptions.trimmed
  split <;> rfl

@[simp] theorem givenRoot_trimmed : options.trimmed.givenRoot = options.givenRoot := by
  unfold P2pArtifactRuntimePathOptions.trimmed
  split <;> rfl

theorem Confined.of_trimmed {outcome : Outcome P2pCreatedArtifact} :
    Confined fs options.trimmed outcome after ↔ Confined fs options outcome after := by
  constructor
  · intro h
    exact ⟨by simpa using h.repoRoot, by simpa using h.artifactRoot, by simpa using h.given,
      h.escape⟩
  · intro h
    exact ⟨by simpa using h.repoRoot, by simpa using h.artifactRoot, by simpa using h.given,
      h.escape⟩

/-- **A call stays in its sandbox exactly when what is missing of an accepted path would be made
inside both roots, and not below a name that begins with two dots.** -/
theorem confined_iff (fs : FileSystem) (options : P2pArtifactRuntimePathOptions) :
    StaysConfined fs options ↔ MissingInside fs options := by
  unfold StaysConfined MissingInside createP2pArtifactPath
  by_cases hempty : options.isDirectory ∧ options.trimmed.relativePath = ""
  · rw [if_pos hempty]
    refine iff_of_true (confined_refused fun _ => nofun) ?_
    rintro ⟨runtimePath, hvalidated⟩
    have hpath := (accepted_of_validated hvalidated).relativePath
    rw [hempty.2] at hpath
    exact absurd hpath (by decide)
  · rw [if_neg hempty, Program.run_bind, run_validateP2pArtifactRuntimePath]
    dsimp only
    rcases hvalidated : validated fs options.trimmed with e | diagnostics | runtimePath
    · exact iff_of_true (confined_refused fun _ => nofun) nofun
    · exact iff_of_true (confined_refused fun _ => nofun) nofun
    · have haccepted := accepted_of_validated hvalidated
      rw [← Confined.of_trimmed]
      refine (confined_makeAndVerify_iff haccepted options.isDirectory).trans ?_
      simp

/-- A repository in `/repo`, with a directory `docs`. -/
def repositoryWithDocs : FileSystem :=
  (bare.add [] "repo".toList .directory).add ["repo".toList] "docs".toList .directory

/-- An artifact beside the declared root of artifacts. -/
def besideDocs : P2pArtifactRuntimePathOptions where
  repoRoot := "/repo"
  relativePath := "notes/plan"
  artifactRoot := "/repo/docs"

/-- An artifact beside its declared root is made, and then said to escape. -/
theorem not_staysConfined_besideDocs : ¬ ∀ fs options, StaysConfined fs options := by
  intro h
  have hrefused : ((createP2pArtifactPath besideDocs).run FileSystem.perform
      repositoryWithDocs).1 = .invalid "notes/plan"
        "Created artifact realpath escapes declared artifact root." := by decide +kernel
  have hescape := (h repositoryWithDocs besideDocs).escape
    ⟨_, hrefused, _, List.mem_singleton_self _, _, rfl, by decide⟩
  exact hescape ["repo".toList, "notes".toList] ⟨by decide +kernel, by decide +kernel⟩

end Imcodes.Artifacts
