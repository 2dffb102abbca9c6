import Imcodes.Files.Changes

/-!
# What is below a place

The nodes below a directory by the names that lead to them, and what a program finds that looks
at one of them by its path.

* `mem_below` — all that is below, each node once.
* `mem_children` — what a directory lists.
* `Rooted.walk_join` — a path below a root is walked from where the root is.
* `Stands.lstat`, `Stands.readdir`, `Stands.readFile` — what is found at a path below a directory
  to which a path leads.
-/

namespace Files

open Posix (Name IsName Path)

namespace FileSystem

/-- The names below a place that lead to a path. -/
def namesBelow (here path : List Name) : Option (List Name) :=
  if here <+: path ∧ here ≠ path then some (path.drop here.length) else none

/-- All nodes below a place, by their names there. -/
def below (fs : FileSystem) (here : List Name) : List (List Name × Node) :=
  fs.nodes.toList.filterMap fun entry => (namesBelow here entry.1).map (·, entry.2)

variable {fs : FileSystem} {base : Path} {here root names init : List Name} {name last : Name}
  {node : Node}

theorem namesBelow_eq_some {path : List Name} :
    namesBelow here path = some names ↔ names ≠ [] ∧ path = here ++ names := by
  unfold namesBelow
  constructor
  · intro h
    split at h
    · rename_i hbelow
      obtain ⟨⟨more, rfl⟩, hne⟩ := hbelow
      rw [List.drop_left, Option.some.injEq] at h
      subst h
      refine ⟨?_, rfl⟩
      rintro rfl
      exact hne (List.append_nil here).symm
    · cases h
  · rintro ⟨hne, rfl⟩
    have hbelow : here <+: here ++ names ∧ here ≠ here ++ names :=
      ⟨List.prefix_append _ _, fun heq => hne (List.self_eq_append_right.1 heq)⟩
    rw [if_pos hbelow, List.drop_left]

/-- **All that is below a place.** -/
theorem mem_below :
    (names, node) ∈ fs.below here ↔ names ≠ [] ∧ fs.node? (here ++ names) = some node := by
  unfold below node?
  rw [List.mem_filterMap, OrderedMap.get?_eq_some]
  constructor
  · rintro ⟨⟨path, node'⟩, hmem, hsome⟩
    obtain ⟨names', hnames, heq⟩ := Option.map_eq_some_iff.1 hsome
    obtain ⟨rfl, rfl⟩ := Prod.mk.inj heq
    obtain ⟨hne, rfl⟩ := namesBelow_eq_some.1 hnames
    exact ⟨hne, hmem⟩
  · rintro ⟨hne, hmem⟩
    exact ⟨_, hmem, by rw [namesBelow_eq_some.2 ⟨hne, rfl⟩]; rfl⟩

/-- Each node is there once. -/
theorem nodup_below : ((fs.below here).map Prod.fst).Nodup := by
  have hmap : (fs.below here).map Prod.fst =
      (fs.nodes.toList.map Prod.fst).filterMap (namesBelow here) := by
    unfold below
    rw [List.map_filterMap, List.filterMap_map]
    refine List.filterMap_congr fun entry _ => ?_
    cases h : namesBelow here entry.1 <;> simp [h]
  rw [hmap]
  refine fs.nodes.nodup.filterMap fun path path' names hpath hpath' => ?_
  exact (namesBelow_eq_some.1 hpath).2.trans (namesBelow_eq_some.1 hpath').2.symm

/-- Below a place all are names. -/
theorem isName_of_below (h : fs.node? (here ++ names) = some node) :
    ∀ name ∈ names, IsName name := by
  induction names using List.reverseRecOn generalizing node with
  | nil => simp
  | append_singleton names last ih =>
    rw [← List.append_assoc] at h
    intro name hname
    rcases List.mem_append.1 hname with hname | hname
    · exact ih (fs.parent _ _ _ h) name hname
    · rw [List.mem_singleton.1 hname]
      exact fs.named _ _ _ h

/-- The walk to what is below, if it is no link. -/
theorem walk_below (hnode : fs.node? (here ++ names) = some node)
    (hlink : ∀ target, node ≠ .link target) : fs.walk here names = .ok (here ++ names) :=
  walk_names names (isName_of_below hnode) ⟨node, hnode, hlink⟩

/-! ## Directories -/

theorem nameIn_eq_some {here path : List Name} :
    nameIn here path = some name ↔ path = here ++ [name] := by
  unfold nameIn
  rw [Option.filter_eq_some_iff, decide_eq_true_eq]
  constructor
  · rintro ⟨hlast, rfl⟩
    obtain ⟨init, rfl⟩ := List.getLast?_eq_some_iff.1 hlast
    rw [List.dropLast_concat]
  · rintro rfl
    exact ⟨List.getLast?_concat, List.dropLast_concat⟩

theorem mem_children {here : List Name} :
    name ∈ fs.children here ↔ fs.node? (here ++ [name]) ≠ none := by
  unfold children
  rw [List.mem_filterMap, Option.ne_none_iff_exists']
  constructor
  · rintro ⟨path, hmem, hname⟩
    rw [nameIn_eq_some.1 hname] at hmem
    obtain ⟨⟨_, node⟩, hentry, rfl⟩ := List.mem_map.1 hmem
    exact ⟨node, OrderedMap.get?_eq_some.2 hentry⟩
  · rintro ⟨node, hnode⟩
    exact ⟨_, List.mem_map_of_mem (OrderedMap.get?_eq_some.1 hnode), nameIn_eq_some.2 rfl⟩

/-- A directory lists each name once. -/
theorem nodup_children {here : List Name} : (fs.children here).Nodup :=
  fs.nodes.nodup.filterMap fun _ _ _ hname hname' =>
    (nameIn_eq_some.1 hname).trans (nameIn_eq_some.1 hname').symm

/-! ## At the end of a path -/

/-- The base of paths leads to a directory, as `path.join` writes it. -/
structure Rooted (fs : FileSystem) (base : Path) (root : List Name) : Prop where
  walk : fs.walk (fs.start base) base.normalize.segments = .ok root
  isDirectory : fs.node? root = some .directory

/-- A path below a root is walked from where the root is. -/
theorem Rooted.walk_join (h : Rooted fs base root) (hnames : ∀ name ∈ names, IsName name) :
    fs.walk (fs.start (base.join names)) (base.join names).segments = fs.walk root names := by
  rw [Path.join_names hnames]
  have hstart : fs.start ⟨base.absolute, base.normalize.segments ++ names⟩ = fs.start base := rfl
  rw [hstart, walk_append, h.walk]

theorem Rooted.locate_join (h : Rooted fs base root)
    (hnames : ∀ name ∈ init ++ [last], IsName name) :
    fs.locate (base.join (init ++ [last])) =
      match fs.walk root init with
      | .error e => .error e
      | .ok here => if fs.node? here = some .directory then .ok here else .error .notdir := by
  have hinit : ∀ name ∈ init, IsName name := fun name hname =>
    hnames name (List.mem_append_left _ hname)
  have hdrop : (base.join (init ++ [last])).segments.dropLast = (base.join init).segments := by
    rw [Path.join_names hnames, Path.join_names hinit, ← List.append_assoc, List.dropLast_concat]
  unfold locate
  rw [hdrop, ← h.walk_join hinit]
  rfl

theorem getLast?_join (hnames : ∀ name ∈ init ++ [last], IsName name) :
    (base.join (init ++ [last])).segments.getLast? = some last := by
  rw [Path.join_names hnames, ← List.append_assoc, List.getLast?_concat]

/-- `realpath` below a root -/
theorem Rooted.realpath_join (h : Rooted fs base root)
    (hnames : ∀ name ∈ init ++ [last], IsName name) :
    fs.realpath (base.join (init ++ [last])) = fs.walk root (init ++ [last]) := by
  rw [← h.walk_join hnames]
  refine if_neg fun heq => ?_
  have hlast := congrArg (fun path => path.segments.getLast?) heq
  rw [getLast?_join hnames] at hlast
  exact (hnames last (List.mem_append_right _ (List.mem_singleton_self _))).ne_nil
    (Option.some.inj hlast)

/-- `lstat` below a root -/
theorem Rooted.lstat_join (h : Rooted fs base root)
    (hnames : ∀ name ∈ init ++ [last], IsName name) :
    fs.lstat (base.join (init ++ [last])) =
      match fs.walk root init with
      | .error e => .error e
      | .ok here =>
        if fs.node? here = some .directory then
          match fs.node? (here ++ [last]) with
          | none => .error .noent
          | some node => .ok node
        else .error .notdir := by
  unfold lstat
  rw [getLast?_join hnames]
  dsimp only
  rw [if_pos (hnames last (List.mem_append_right _ (List.mem_singleton_self _))),
    h.locate_join hnames]
  cases fs.walk root init with
  | error e => rfl
  | ok here =>
    dsimp only
    by_cases hdir : fs.node? here = some .directory
    · rw [if_pos hdir]
      exact (if_pos hdir).symm
    · rw [if_neg hdir, if_neg hdir]

/-- A path as `path.join` writes it, which leads to a directory. -/
structure Stands (fs : FileSystem) (base : Path) (here : List Name) : Prop where
  realpath : fs.realpath base = .ok here
  walk : fs.walk (fs.start base) base.normalize.segments = .ok here
  isDirectory : fs.node? here = some .directory

/-- The path of a place below. -/
def placeBelow (base : Path) (names : List Name) : Path :=
  if names = [] then base else base.join names

theorem join_placeBelow (names : List Name) (name : Name) :
    (placeBelow base names).join [name] = base.join (names ++ [name]) := by
  unfold placeBelow
  split
  · rename_i hnil
    rw [hnil, List.nil_append]
  · exact Path.join_join

theorem placeBelow_concat (names : List Name) (name : Name) :
    placeBelow base (names ++ [name]) = base.join (names ++ [name]) := if_neg (by simp)

namespace Stands

theorem rooted (h : Stands fs base here) : Rooted fs base here := ⟨h.walk, h.isDirectory⟩

theorem lstat (h : Stands fs base here)
    (hnode : fs.node? (here ++ (names ++ [name])) = some node) :
    fs.lstat (base.join (names ++ [name])) = .ok node := by
  have hdir : fs.node? (here ++ names) = some .directory := by
    rw [← List.append_assoc] at hnode
    exact fs.parent _ _ _ hnode
  rw [h.rooted.lstat_join (isName_of_below hnode), walk_below hdir (by simp)]
  dsimp only
  rw [if_pos hdir, List.append_assoc, hnode]

theorem realpath_below (h : Stands fs base here)
    (hnode : fs.node? (here ++ (names ++ [name])) = some node)
    (hlink : ∀ target, node ≠ .link target) :
    fs.realpath (base.join (names ++ [name])) = .ok (here ++ (names ++ [name])) := by
  rw [h.rooted.realpath_join (isName_of_below hnode), walk_below hnode hlink]

theorem readFile {bytes : List UInt8} (h : Stands fs base here)
    (hnode : fs.node? (here ++ (names ++ [name])) = some (.file bytes)) :
    fs.readFile (base.join (names ++ [name])) = .ok bytes := by
  unfold FileSystem.readFile
  rw [h.realpath_below hnode (by simp)]
  dsimp only
  rw [hnode]

theorem readdir (h : Stands fs base here) (hnode : fs.node? (here ++ names) = some .directory) :
    fs.readdir (placeBelow base names) = .ok (fs.children (here ++ names)) := by
  have hreal : fs.realpath (placeBelow base names) = .ok (here ++ names) := by
    rcases List.eq_nil_or_concat names with rfl | ⟨init, last, rfl⟩
    · rw [List.append_nil]
      exact h.realpath
    · rw [List.concat_eq_append] at hnode ⊢
      rw [placeBelow_concat]
      exact h.realpath_below hnode (by simp)
  unfold FileSystem.readdir
  rw [hreal]
  exact if_pos hnode

end Stands

end FileSystem

end Files
