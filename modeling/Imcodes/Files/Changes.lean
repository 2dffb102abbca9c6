import Imcodes.Files.FileSystem
import Imcodes.Files.Program

/-!
# New directories and files

Nothing here removes or replaces a node: a directory or a file is made where nothing is, a
recursive `mkdir` with all that is missing on the way.

* `Extends.walk` — a walk that was possible still is.
* `node?_addDirectories` — what a recursive `mkdir` makes.
* `create_twice` — nothing is made twice at one path.
* `FileRequest`, `FileSystem.perform` — what a program may ask of a file system.
-/

namespace Files

open Posix (Name IsName Path)

namespace FileSystem

/-- A new node in a directory. -/
def add (fs : FileSystem) (here : List Name) (name : Name) (node : Node) : FileSystem :=
  if h : fs.node? here = some .directory ∧ fs.node? (here ++ [name]) = none ∧ IsName name then
    { fs with
      nodes := fs.nodes.set (here ++ [name]) node
      root := by
        rw [OrderedMap.get?_set, if_neg (List.append_ne_nil_of_right_ne_nil here (by simp)).symm]
        exact fs.root
      parent := fun path name' node' hnode => by
        rw [OrderedMap.get?_set] at hnode
        have hpath : path ≠ here ++ [name] := by
          rintro rfl
          rw [if_neg (by simp)] at hnode
          exact nomatch (node?_eq_none_below h.2.1 [name']).symm.trans hnode
        rw [OrderedMap.get?_set, if_neg hpath]
        split at hnode
        · rename_i heq
          rw [(List.append_inj' heq rfl).1]
          exact h.1
        · exact fs.parent _ _ _ hnode
      named := fun path name' node' hnode => by
        rw [OrderedMap.get?_set] at hnode
        split at hnode
        · rename_i heq
          rw [List.singleton_inj.1 (List.append_inj' heq rfl).2]
          exact h.2.2
        · exact fs.named _ _ _ hnode
      working := by
        rw [OrderedMap.get?_set, if_neg]
        · exact fs.working
        · exact fun heq => nomatch (heq ▸ h.2.1).symm.trans fs.working }
  else fs

/-- Directories on the way from a place. -/
def addDirectories (fs : FileSystem) : List Name → List Name → FileSystem
  | _, [] => fs
  | here, name :: rest => (fs.add here name .directory).addDirectories (here ++ [name]) rest

/-- Where the part of a path begins that is not there, and that part. -/
def missingFrom (fs : FileSystem) : List Name → List Name → Option (List Name × List Name)
  | _, [] => none
  | here, segment :: rest =>
    match fs.walk here [segment] with
    | .ok there => fs.missingFrom there rest
    | .error _ =>
      if fs.node? here = some .directory ∧ fs.node? (here ++ [segment]) = none ∧
          ∀ name ∈ segment :: rest, IsName name then some (here, segment :: rest)
      else none

def missing (fs : FileSystem) (path : Path) : Option (List Name × List Name) :=
  fs.missingFrom (fs.start path) path.segments

/-- `mkdir` with `recursive` -/
def mkdirp (fs : FileSystem) (path : Path) : Except Errno FileSystem :=
  match fs.missing path with
  | some (here, names) => .ok (fs.addDirectories here names)
  | none =>
    match fs.walk (fs.start path) path.segments with
    | .error e => .error e
    | .ok there => if fs.node? there = some .directory then .ok fs else .error .exist

/-- A node is made where nothing is. -/
def create (fs : FileSystem) (path : Path) (node : Node) : Except Errno FileSystem :=
  match path.segments.getLast? with
  | none => .error .exist
  | some name =>
    if IsName name then
      match fs.locate path with
      | .error e => .error e
      | .ok here =>
        if fs.node? (here ++ [name]) = none then .ok (fs.add here name node) else .error .exist
    else .error .exist

/-- `mkdir` -/
def mkdir (fs : FileSystem) (path : Path) : Except Errno FileSystem := fs.create path .directory

/-- `writeFile(path, '', { flag: 'wx' })` -/
def writeNew (fs : FileSystem) (path : Path) : Except Errno FileSystem :=
  fs.create path (.file [])

/-- All that was there is there. -/
structure Extends (fs fs' : FileSystem) : Prop where
  cwd : fs'.cwd = fs.cwd
  maxLinks : fs'.maxLinks = fs.maxLinks
  node? : ∀ path node, fs.node? path = some node → fs'.node? path = some node

variable {fs fs' fs'' : FileSystem} {here there rest names segments path : List Name}
  {name : Name} {node node' : Node} {at' : Path}

theorem Extends.refl (fs : FileSystem) : fs.Extends fs := ⟨rfl, rfl, fun _ _ h => h⟩

theorem Extends.trans (h : fs.Extends fs') (h' : fs'.Extends fs'') : fs.Extends fs'' :=
  ⟨h'.cwd.trans h.cwd, h'.maxLinks.trans h.maxLinks,
    fun path node hnode => h'.node? path node (h.node? path node hnode)⟩

theorem Extends.start (h : fs.Extends fs') : fs'.start at' = fs.start at' := by
  unfold FileSystem.start
  rw [h.cwd]

theorem Extends.walkWith (h : fs.Extends fs') {follow follow' : List Name → Path → _}
    (hfollow : ∀ here target there, follow here target = .ok there →
      follow' here target = .ok there)
    (hwalk : fs.walkWith follow here segments = .ok there) :
    fs'.walkWith follow' here segments = .ok there := by
  induction segments generalizing here with
  | nil => exact hwalk
  | cons segment segments ih =>
    rw [FileSystem.walkWith] at hwalk ⊢
    split at hwalk
    · cases hwalk
    · rename_i hdir
      rw [not_not] at hdir
      rw [if_neg (not_not.2 (h.node? _ _ hdir))]
      split at hwalk
      · rename_i hstay
        rw [if_pos hstay]
        exact ih hwalk
      · rename_i hstay
        rw [if_neg hstay]
        split at hwalk
        · rename_i hback
          rw [if_pos hback]
          exact ih hwalk
        · rename_i hback
          rw [if_neg hback]
          split at hwalk
          · cases hwalk
          · rename_i target hnode
            rw [h.node? _ _ hnode]
            dsimp only
            split at hwalk
            · cases hwalk
            · rename_i hto
              rw [hfollow _ _ _ hto]
              exact ih hwalk
          · rename_i node hlink hnode
            rw [h.node? _ _ hnode]
            cases node with
            | link target => exact absurd rfl (hlink target)
            | directory => exact ih hwalk
            | file bytes => exact ih hwalk

theorem Extends.walkLinks (h : fs.Extends fs') (n : ℕ)
    (hwalk : fs.walkLinks n here segments = .ok there) :
    fs'.walkLinks n here segments = .ok there := by
  induction n generalizing here there segments with
  | zero => exact h.walkWith (fun _ _ _ hto => by cases hto) hwalk
  | succ n ih => exact h.walkWith (fun _ _ _ hto => ih hto) hwalk

/-- **A walk that was possible still is.** -/
theorem Extends.walk (h : fs.Extends fs') (hwalk : fs.walk here segments = .ok there) :
    fs'.walk here segments = .ok there := by
  unfold FileSystem.walk
  rw [h.maxLinks]
  exact h.walkLinks _ hwalk

theorem Extends.realpath (h : fs.Extends fs') (hreal : fs.realpath at' = .ok there) :
    fs'.realpath at' = .ok there := by
  unfold FileSystem.realpath at hreal ⊢
  split at hreal
  · cases hreal
  · rename_i hne
    rw [if_neg hne, h.start]
    exact h.walk hreal

/-! ## One node more -/

theorem node?_add (hdir : fs.node? here = some .directory)
    (hnew : fs.node? (here ++ [name]) = none) (hname : IsName name) :
    (fs.add here name node).node? path =
      if path = here ++ [name] then some node else fs.node? path := by
  unfold add
  rw [dif_pos ⟨hdir, hnew, hname⟩]
  exact OrderedMap.get?_set

theorem extends_add : fs.Extends (fs.add here name node) := by
  by_cases h : fs.node? here = some .directory ∧ fs.node? (here ++ [name]) = none ∧ IsName name
  · refine ⟨?_, ?_, fun path node' hnode => ?_⟩
    · rw [add, dif_pos h]
    · rw [add, dif_pos h]
    · rw [node?_add h.1 h.2.1 h.2.2, if_neg]
      · exact hnode
      · rintro rfl
        exact nomatch h.2.1.symm.trans hnode
  · rw [add, dif_neg h]
    exact .refl fs

theorem extends_addDirectories (names : List Name) : fs.Extends (fs.addDirectories here names) := by
  induction names generalizing fs here with
  | nil => exact .refl fs
  | cons name names ih => exact extends_add.trans ih

/-- **What a recursive `mkdir` makes.** -/
theorem node?_addDirectories (hdir : fs.node? here = some .directory)
    (hnew : ∀ name ∈ names.head?, fs.node? (here ++ [name]) = none)
    (hnames : ∀ name ∈ names, IsName name) :
    (fs.addDirectories here names).node? path =
      if here <+: path ∧ path ≠ here ∧ path <+: here ++ names then some .directory
      else fs.node? path := by
  induction names generalizing fs here with
  | nil =>
    rw [addDirectories, List.append_nil, if_neg]
    exact fun h => h.2.1 (List.IsPrefix.eq_of_length_le h.2.2 h.1.length_le)
  | cons name names ih =>
    have hnew := hnew name rfl
    have hname := hnames name List.mem_cons_self
    have hnode := fun path => @node?_add fs here path name .directory hdir hnew hname
    rw [addDirectories, ih ((hnode _).trans (if_pos rfl)) ?_
      fun name' hname' => hnames name' (List.mem_cons_of_mem _ hname'), hnode]
    · rw [List.append_assoc, List.singleton_append]
      by_cases hhere : path = here ++ [name]
      · subst hhere
        rw [if_neg fun h => h.2.1 rfl, if_pos rfl, if_pos]
        exact ⟨List.prefix_append _ _, by simp, (List.prefix_append_right_inj _).2 (by simp)⟩
      · rw [if_neg hhere]
        refine if_congr ?_ rfl rfl
        constructor
        · rintro ⟨h₁, -, h₂⟩
          have hlt := h₁.length_le
          rw [List.length_append] at hlt
          refine ⟨(List.prefix_append _ _).trans h₁, ?_, h₂⟩
          rintro rfl
          exact Nat.not_succ_le_self _ hlt
        · rintro ⟨h₁, h₂, h₃⟩
          refine ⟨?_, hhere, h₃⟩
          obtain ⟨tail, rfl⟩ := h₁
          rw [List.prefix_append_right_inj] at h₃ ⊢
          cases tail with
          | nil => simp at h₂
          | cons first tail =>
            obtain ⟨rfl, -⟩ := List.cons_prefix_cons.1 h₃
            simp
    · intro name' _
      rw [hnode, if_neg (by simp)]
      exact node?_eq_none_below hnew [name']

/-- Names are walked to a place below. -/
theorem walk_names (more : List Name) (hmore : ∀ name ∈ more, IsName name)
    (hplace : fs.IsPlace (here ++ more)) : fs.walk here more = .ok (here ++ more) := by
  induction more generalizing here with
  | nil => rw [walk_nil, List.append_nil]
  | cons name more ih =>
    rw [List.append_cons] at hplace ⊢
    have hat : fs.IsPlace (here ++ [name]) := by
      by_cases hnil : more = []
      · rwa [hnil, List.append_nil] at hplace
      · obtain ⟨node, hnode, -⟩ := hplace
        exact isPlace_of_isDirectory (isDirectory_above hnil hnode)
    obtain ⟨node, hnode, hlink⟩ := hat
    rw [walk_name (fs.parent _ _ _ hnode) (hmore name List.mem_cons_self) hnode hlink]
    exact ih (fun name' hname' => hmore name' (List.mem_cons_of_mem _ hname')) hplace

/-! ## What is missing -/

/-- What `missingFrom` says of a place and the names that are not there. -/
structure IsMissing (fs : FileSystem) (here names : List Name) : Prop where
  ne_nil : names ≠ []
  isDirectory : fs.node? here = some .directory
  new : ∀ name ∈ names.head?, fs.node? (here ++ [name]) = none
  names : ∀ name ∈ names, IsName name

theorem IsMissing.take (h : fs.IsMissing here names) {k : ℕ} (hk : names.take k ≠ []) :
    fs.IsMissing here (names.take k) where
  ne_nil := hk
  isDirectory := h.isDirectory
  new := by
    cases names with
    | nil => exact absurd List.take_nil hk
    | cons name names =>
      cases k with
      | zero => exact absurd rfl hk
      | succ k => exact h.new
  names := fun name hname => h.names name (List.take_subset _ _ hname)

/-- A walk over something missing does not get far. -/
theorem IsMissing.walk_error (h : fs.IsMissing here (name :: rest)) :
    fs.walk here [name] = .error .noent := by
  have hname := h.names name List.mem_cons_self
  rw [walk_eq, walkWith, if_neg (not_not.2 h.isDirectory),
    if_neg (not_or.2 ⟨hname.ne_nil, hname.ne_dot⟩), if_neg hname.ne_dots, h.new name rfl]

theorem missingFrom_of_walk (h : fs.walk here segments = .ok there) :
    fs.missingFrom here (segments ++ rest) = fs.missingFrom there rest := by
  induction segments generalizing here with
  | nil =>
    rw [walk_nil] at h
    cases h
    rfl
  | cons segment segments ih =>
    rw [← List.singleton_append, walk_append] at h
    rw [List.cons_append, missingFrom]
    split at h
    · cases h
    · rename_i hto
      rw [hto]
      exact ih h

theorem IsMissing.missingFrom (h : fs.IsMissing here names) :
    fs.missingFrom here names = some (here, names) := by
  cases names with
  | nil => exact absurd rfl h.ne_nil
  | cons name names =>
    rw [FileSystem.missingFrom, h.walk_error]
    exact if_pos ⟨h.isDirectory, h.new name rfl, h.names⟩

theorem exists_of_missingFrom (h : fs.missingFrom here segments = some (there, names)) :
    fs.IsMissing there names ∧
      ∃ init, segments = init ++ names ∧ fs.walk here init = .ok there := by
  induction segments generalizing here with
  | nil => cases h
  | cons segment segments ih =>
    rw [missingFrom] at h
    split at h
    · rename_i between hto
      obtain ⟨hmissing, init, rfl, hwalk⟩ := ih h
      refine ⟨hmissing, segment :: init, rfl, ?_⟩
      rw [← List.singleton_append, walk_append, hto]
      exact hwalk
    · split at h
      · rename_i hnew
        cases h
        refine ⟨⟨List.cons_ne_nil _ _, hnew.1, ?_, hnew.2.2⟩, [], rfl, walk_nil⟩
        intro name hname
        cases hname
        exact hnew.2.1
      · cases h

/-- A path with a missing part: where it begins, and the way there. -/
theorem missing_eq_some (h : fs.missing at' = some (here, names)) :
    fs.IsMissing here names ∧
      ∃ init, at'.segments = init ++ names ∧ fs.walk (fs.start at') init = .ok here :=
  exists_of_missingFrom h

theorem missing_eq {init : List Name} (hsegments : at'.segments = init ++ names)
    (hwalk : fs.walk (fs.start at') init = .ok here) :
    fs.missing at' = fs.missingFrom here names := by
  rw [missing, hsegments]
  exact missingFrom_of_walk hwalk

/-! ## Nothing twice -/

theorem extends_create (h : fs.create at' node = .ok fs') : fs.Extends fs' := by
  unfold create at h
  split at h
  · cases h
  · split at h
    · split at h
      · cases h
      · split at h
        · cases h
          exact extends_add
        · cases h
    · cases h

theorem extends_mkdirp (h : fs.mkdirp at' = .ok fs') : fs.Extends fs' := by
  unfold mkdirp at h
  split at h
  · cases h
    exact extends_addDirectories _
  · split at h
    · cases h
    · split at h
      · cases h
        exact .refl fs
      · cases h

theorem locate_eq_ok (h : fs.locate at' = .ok here) :
    fs.walk (fs.start at') at'.segments.dropLast = .ok here ∧ fs.node? here = some .directory := by
  unfold locate at h
  split at h
  · cases h
  · rename_i hwalk
    split at h
    · rename_i hdir
      cases h
      exact ⟨hwalk, hdir⟩
    · cases h

theorem Extends.locate (h : fs.Extends fs') (hat : fs.locate at' = .ok here) :
    fs'.locate at' = .ok here := by
  obtain ⟨hwalk, hdir⟩ := locate_eq_ok hat
  unfold FileSystem.locate
  rw [h.start, h.walk hwalk]
  exact if_pos (h.node? _ _ hdir)

/-- What was made where it could be made. -/
theorem create_eq_ok (h : fs.create at' node = .ok fs') :
    ∃ here name, at'.segments.getLast? = some name ∧ fs.locate at' = .ok here ∧ IsName name ∧
      fs.node? (here ++ [name]) = none ∧ fs' = fs.add here name node := by
  unfold create at h
  split at h
  · cases h
  · rename_i name hlast
    split at h
    · rename_i hname
      split at h
      · cases h
      · rename_i here hat
        split at h
        · rename_i hnew
          cases h
          exact ⟨here, name, hlast, hat, hname, hnew, rfl⟩
        · cases h
    · cases h

/-- **Nothing is made twice at one path.** -/
theorem create_twice (h : fs.create at' node = .ok fs') (hmore : fs'.Extends fs'') :
    fs''.create at' node' = .error .exist := by
  obtain ⟨here, name, hlast, hat, hname, hnew, rfl⟩ := create_eq_ok h
  have hnode : (fs.add here name node).node? (here ++ [name]) = some node :=
    (node?_add (locate_eq_ok hat).2 hnew hname).trans (if_pos rfl)
  unfold create
  rw [hlast]
  dsimp only
  rw [if_pos hname, (extends_add.trans hmore).locate hat]
  dsimp only
  rw [hmore.node? _ _ hnode]
  rfl

end FileSystem

/-! ## Requests -/

/-- What a program asks of a file system. -/
inductive FileRequest
  | realpath (path : Path)
  | lstat (path : Path)
  | mkdir (path : Path)
  | mkdirp (path : Path)
  | writeNew (path : Path)
  | readdir (path : Path)
  | readFile (path : Path)
deriving DecidableEq

namespace FileRequest

abbrev Answer : FileRequest → Type
  | realpath _ => Except Errno (List Name)
  | lstat _ => Except Errno Node
  | mkdir _ | mkdirp _ | writeNew _ => Except Errno Unit
  | readdir _ => Except Errno (List Name)
  | readFile _ => Except Errno (List UInt8)

end FileRequest

/-- The answer to a change, and the file system after it. -/
def FileSystem.changed (fs : FileSystem) :
    Except Errno FileSystem → Except Errno Unit × FileSystem
  | .ok fs' => (.ok (), fs')
  | .error e => (.error e, fs)

/-- A file system answers a request. -/
def FileSystem.perform : (request : FileRequest) → FileSystem → request.Answer × FileSystem
  | .realpath path, fs => (fs.realpath path, fs)
  | .lstat path, fs => (fs.lstat path, fs)
  | .mkdir path, fs => fs.changed (fs.mkdir path)
  | .mkdirp path, fs => fs.changed (fs.mkdirp path)
  | .writeNew path, fs => fs.changed (fs.writeNew path)
  | .readdir path, fs => (fs.readdir path, fs)
  | .readFile path, fs => (fs.readFile path, fs)

/-- Requests that change nothing. -/
def FileRequest.IsRead : FileRequest → Prop
  | mkdir _ | mkdirp _ | writeNew _ => False
  | realpath _ | lstat _ | readdir _ | readFile _ => True

theorem FileSystem.perform_isRead (request : FileRequest) (fs : FileSystem)
    (h : request.IsRead) : (FileSystem.perform request fs).2 = fs := by
  cases request with
  | mkdir path => exact h.elim
  | mkdirp path => exact h.elim
  | writeNew path => exact h.elim
  | realpath path => rfl
  | lstat path => rfl
  | readdir path => rfl
  | readFile path => rfl

abbrev FileProgram (α : Type) := Program FileRequest FileRequest.Answer α

/-- A request only adds. -/
theorem FileSystem.extends_perform (fs : FileSystem) (request : FileRequest) :
    fs.Extends (FileSystem.perform request fs).2 := by
  have hchanged : ∀ result : Except Errno FileSystem,
      (∀ fs', result = .ok fs' → fs.Extends fs') → fs.Extends (fs.changed result).2 := by
    intro result hresult
    cases result with
    | error e => exact .refl fs
    | ok fs' => exact hresult fs' rfl
  cases request with
  | mkdir path => exact hchanged _ fun fs' h => extends_create h
  | mkdirp path => exact hchanged _ fun fs' h => extends_mkdirp h
  | writeNew path => exact hchanged _ fun fs' h => extends_create h
  | realpath path => exact .refl fs
  | lstat path => exact .refl fs
  | readdir path => exact .refl fs
  | readFile path => exact .refl fs

end Files
