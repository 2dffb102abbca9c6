import Imcodes.Artifacts.Baseline
import Imcodes.Artifacts.Create
import Imcodes.Files.Disk
import Imcodes.Workflow.Canonical
import Mathlib.Algebra.Order.BigOperators.Group.List
import Mathlib.Algebra.Order.Ring.Nat

/-!
# What a listing of an artifact's files says

On a disk that nothing changes meanwhile, and that refuses no look at what is at the root or below
it, a listing without errors has all that is below a directory but links, each once.  What is
refused is left out without an error.

* `captured_spec` — **a listing is without errors exactly when all that is there fits the caps**,
  and then it is complete.
-/

namespace Imcodes.Artifacts

open Files FileSystem
open Posix (Name IsName Path)
open Queue (Collation)

/-! ## What there is to be listed -/

/-- How a node is listed; a link is not. -/
def entryOf (sha256 : List UInt8 → String) (rootPath : String) :
    List Name × Node → Option P2pArtifactBaselineFile
  | (names, .directory) =>
    some { relativePath := fullRelative rootPath names, size := 0, sha256 := "", type := .directory }
  | (names, .file bytes) =>
    some { relativePath := fullRelative rootPath names, size := bytes.length
           sha256 := sha256 bytes, type := .file }
  | (_, .link _) => none

/-- All that is below a place but links. -/
def listing (sha256 : List UInt8 → String) (rootPath : String) (fs : FileSystem)
    (here : List Name) : List P2pArtifactBaselineFile :=
  (fs.below here).filterMap (entryOf sha256 rootPath)

/-- What is below a place fits the caps. -/
structure Fits (sha256 : List UInt8 → String) (rootPath : String) (fs : FileSystem)
    (here : List Name) : Prop where
  depth : ∀ entry ∈ fs.below here, entry.1.length ≤ artifactMaxDepth
  count : (listing sha256 rootPath fs here).length ≤ artifactMaxFiles
  size : ∀ file ∈ listing sha256 rootPath fs here, file.size ≤ artifactMaxFileBytes
  bytes : listedBytes (listing sha256 rootPath fs here) ≤ artifactMaxTotalBytes

variable {sha256 : List UInt8 → String} {rootPath : String} {fs : FileSystem}
  {base : Path} {here names names' : List Name} {name : Name} {node node' : Node}
  {entry : P2pArtifactBaselineFile}

theorem joinSegments_inj (h : ∀ name ∈ names, IsName name) (h' : ∀ name ∈ names', IsName name)
    (heq : joinSegments names = joinSegments names') : names = names' := by
  have hnil (l : List Name) (hl : ∀ name ∈ l, IsName name)
      (hempty : ['/'].intercalate l = []) : l = [] := by
    by_contra hne
    have hsplit := List.splitOn_intercalate '/' (fun name hname => (hl name hname).slash) hne
    rw [hempty] at hsplit
    exact (hl [] (by rw [← hsplit]; exact List.mem_singleton_self _)).ne_nil rfl
  have htext : ['/'].intercalate names = ['/'].intercalate names' := String.ofList_injective heq
  by_cases hne : names = []
  · subst hne
    exact (hnil names' h' (htext.symm.trans rfl)).symm
  · have hne' : names' ≠ [] := by
      rintro rfl
      exact hne (hnil names h (htext.trans rfl))
    rw [← List.splitOn_intercalate '/' (fun name hname => (h name hname).slash) hne, htext,
      List.splitOn_intercalate '/' (fun name hname => (h' name hname).slash) hne']

theorem fullRelative_inj (h : ∀ name ∈ names, IsName name) (h' : ∀ name ∈ names', IsName name)
    (heq : fullRelative rootPath names = fullRelative rootPath names') : names = names' := by
  refine joinSegments_inj h h' (String.toList_injective ?_)
  have hlist := congrArg String.toList heq
  simp only [fullRelative, String.toList_append] at hlist
  exact List.append_cancel_left hlist

theorem relativePath_entryOf (h : entryOf sha256 rootPath (names, node) = some entry) :
    entry.relativePath = fullRelative rootPath names := by
  cases node <;> cases h <;> rfl

theorem isSome_entryOf : (entryOf sha256 rootPath (names, node)).isSome = !node.isLink := by
  cases node <;> rfl

/-- How what is at a place is listed. -/
def recorded (sha256 : List UInt8 → String) (rootPath : String) (fs : FileSystem)
    (here names : List Name) : Option P2pArtifactBaselineFile :=
  (fs.node? (here ++ names)).bind fun node => entryOf sha256 rootPath (names, node)

theorem recorded_inj (h : recorded sha256 rootPath fs here names = some entry)
    (h' : recorded sha256 rootPath fs here names' = some entry) : names = names' := by
  obtain ⟨node, hnode, hentry⟩ := Option.bind_eq_some_iff.1 h
  obtain ⟨node', hnode', hentry'⟩ := Option.bind_eq_some_iff.1 h'
  have hpath : fullRelative rootPath names = fullRelative rootPath names' := by
    rw [← relativePath_entryOf hentry, relativePath_entryOf hentry']
  exact fullRelative_inj (isName_of_below hnode) (isName_of_below hnode') hpath

theorem mem_listing : entry ∈ listing sha256 rootPath fs here ↔
    ∃ names ≠ [], recorded sha256 rootPath fs here names = some entry := by
  unfold listing recorded
  rw [List.mem_filterMap]
  constructor
  · rintro ⟨⟨names, node⟩, hmem, hentry⟩
    obtain ⟨hne, hnode⟩ := mem_below.1 hmem
    exact ⟨names, hne, by rw [hnode]; exact hentry⟩
  · rintro ⟨names, hne, hrecorded⟩
    obtain ⟨node, hnode, hentry⟩ := Option.bind_eq_some_iff.1 hrecorded
    exact ⟨(names, node), mem_below.2 ⟨hne, hnode⟩, hentry⟩

theorem nodup_listing : (listing sha256 rootPath fs here).Nodup := by
  have hmap : listing sha256 rootPath fs here =
      ((fs.below here).map Prod.fst).filterMap (recorded sha256 rootPath fs here) := by
    unfold listing
    rw [List.filterMap_map]
    refine List.filterMap_congr fun ⟨names, node⟩ hmem => ?_
    rw [Function.comp_apply, recorded, (mem_below.1 hmem).2]
    rfl
  rw [hmap]
  exact nodup_below.filterMap fun names names' entry h h' => recorded_inj h h'

/-- What is listed once and is there to be listed is no more than all of it. -/
theorem listedBytes_le {files files' : List P2pArtifactBaselineFile} (h : files.Subperm files') :
    listedBytes files ≤ listedBytes files' := by
  obtain ⟨l, hperm, hsub⟩ := h
  rw [← listedBytes_eq_of_perm hperm]
  exact (hsub.map _).sum_le_sum fun _ _ => Nat.zero_le _

/-! ## The walk over a file system -/

/-- What a walk without errors has done.  The places in `seen` are listed, those in `pending` are
directories that have not been read, and those in `todo` are the entries of a directory that is
being read. -/
structure Walked (sha256 : List UInt8 → String) (rootPath : String) (fs : FileSystem) (base : Path)
    (here : List Name) (walk : BaselineWalk) (seen pending todo : List (List Name)) : Prop where
  queue : walk.queue = pending.map fun names => (placeBelow base names, names)
  files : walk.files = seen.filterMap (recorded sha256 rootPath fs here)
  seenNodup : seen.Nodup
  pendingNodup : pending.Nodup
  todoNodup : todo.Nodup
  seenBelow : ∀ names ∈ seen, names ≠ []
  /-- Where the listed places are. -/
  parents : ∀ names name, names ++ [name] ∈ seen → names = [] ∨ names ∈ seen
  pendingKnown : ∀ names ∈ pending, names = [] ∨ names ∈ seen
  pendingDirectory : ∀ names ∈ pending, fs.node? (here ++ names) = some .directory
  /-- Nothing of a directory that has not been read is listed. -/
  pendingFresh : ∀ names ∈ pending, ∀ name, names ++ [name] ∉ seen ∧ names ++ [name] ∉ todo
  todoFresh : ∀ names ∈ todo, names ∉ seen
  todoKnown : ∀ names name, names ++ [name] ∈ todo → names = [] ∨ names ∈ seen
  /-- All of the other known directories is listed, but links. -/
  covered : ∀ names name node, names = [] ∨ names ∈ seen →
    fs.node? (here ++ (names ++ [name])) = some node →
      names ∈ pending ∨ names ++ [name] ∈ todo ∨
        (names ++ [name]).length ≤ artifactMaxDepth ∧
          (node.isLink = false → names ++ [name] ∈ seen)

variable {walk : BaselineWalk} {seen pending todo : List (List Name)}

/-- An entry that is a link is not listed. -/
theorem Walked.skip
    (h : Walked sha256 rootPath fs base here walk seen pending ((names ++ [name]) :: todo))
    (hnode : fs.node? (here ++ (names ++ [name])) = some node) (hlink : node.isLink = true)
    (hdepth : (names ++ [name]).length ≤ artifactMaxDepth) :
    Walked sha256 rootPath fs base here walk seen pending todo := by
  refine { h with
    todoNodup := (List.nodup_cons.1 h.todoNodup).2
    pendingFresh := fun dir hdir child => ?_
    todoFresh := fun place hplace => h.todoFresh place (List.mem_cons_of_mem _ hplace)
    todoKnown := fun dir child hmem => h.todoKnown dir child (List.mem_cons_of_mem _ hmem)
    covered := fun dir child node' hknown hchild => ?_ }
  · obtain ⟨hseen, htodo⟩ := h.pendingFresh dir hdir child
    exact ⟨hseen, fun hmem => htodo (List.mem_cons_of_mem _ hmem)⟩
  · obtain hpending | htodo | hdone := h.covered dir child node' hknown hchild
    · exact .inl hpending
    · obtain heq | htodo := List.mem_cons.1 htodo
      · rw [heq, hnode] at hchild
        obtain rfl := Option.some.inj hchild
        exact .inr (.inr ⟨heq ▸ hdepth, fun hnot => absurd hlink (by simp [hnot])⟩)
      · exact .inr (.inl htodo)
    · exact .inr (.inr hdone)

/-- An entry that is a directory is to be read. -/
theorem mem_more {place : List Name} {more : List (List Name)}
    (hmore : (if node = .directory then [place] else []) = more) :
    ∀ other ∈ more, other = place ∧ node = .directory := by
  intro other hother
  rw [← hmore] at hother
  split at hother
  · exact ⟨List.mem_singleton.1 hother, ‹_›⟩
  · cases hother

/-- Nothing below an entry is known before it is listed. -/
theorem Walked.not_known
    (h : Walked sha256 rootPath fs base here walk seen pending ((names ++ [name]) :: todo)) :
    ¬(names ++ [name] = [] ∨ names ++ [name] ∈ seen) := by
  rintro (hnil | hseen)
  · exact List.append_ne_nil_of_right_ne_nil _ (List.cons_ne_nil _ _) hnil
  · exact h.todoFresh _ List.mem_cons_self hseen

theorem Walked.fresh_list {more : List (List Name)}
    (h : Walked sha256 rootPath fs base here walk seen pending ((names ++ [name]) :: todo))
    (hmore : (if node = .directory then [names ++ [name]] else []) = more) :
    ∀ dir ∈ pending ++ more, ∀ child,
      dir ++ [child] ∉ seen ++ [names ++ [name]] ∧ dir ++ [child] ∉ todo := by
  intro dir hdir child
  rcases List.mem_append.1 hdir with hdir | hdir
  · obtain ⟨hseen, hnot⟩ := h.pendingFresh dir hdir child
    refine ⟨fun hmem => ?_, fun hmem => hnot (List.mem_cons_of_mem _ hmem)⟩
    rcases List.mem_append.1 hmem with hmem | hmem
    · exact hseen hmem
    · exact hnot (List.mem_singleton.1 hmem ▸ List.mem_cons_self)
  · rw [(mem_more hmore dir hdir).1]
    refine ⟨fun hmem => ?_, fun hmem =>
      h.not_known (h.todoKnown _ child (List.mem_cons_of_mem _ hmem))⟩
    rcases List.mem_append.1 hmem with hmem | hmem
    · exact h.not_known (h.parents _ child hmem)
    · have hlength := congrArg List.length (List.mem_singleton.1 hmem)
      simp at hlength

theorem Walked.covered_list {dir : List Name} {child : Name} {node' : Node}
    {more : List (List Name)}
    (h : Walked sha256 rootPath fs base here walk seen pending ((names ++ [name]) :: todo))
    (hnode : fs.node? (here ++ (names ++ [name])) = some node)
    (hdepth : (names ++ [name]).length ≤ artifactMaxDepth)
    (hmore : (if node = .directory then [names ++ [name]] else []) = more)
    (hdir : dir = [] ∨ dir ∈ seen ++ [names ++ [name]])
    (hchild : fs.node? (here ++ (dir ++ [child])) = some node') :
    dir ∈ pending ++ more ∨ dir ++ [child] ∈ todo ∨
      (dir ++ [child]).length ≤ artifactMaxDepth ∧
        (node'.isLink = false → dir ++ [child] ∈ seen ++ [names ++ [name]]) := by
  by_cases hold : dir = [] ∨ dir ∈ seen
  · obtain hpending | hmem | ⟨hdepth', hdone⟩ := h.covered dir child node' hold hchild
    · exact .inl (List.mem_append_left _ hpending)
    · rcases List.mem_cons.1 hmem with heq | hmem
      · rw [heq]
        exact .inr (.inr ⟨hdepth, fun _ => List.mem_append_right _ (List.mem_singleton_self _)⟩)
      · exact .inr (.inl hmem)
    · exact .inr (.inr ⟨hdepth', fun hnot => List.mem_append_left _ (hdone hnot)⟩)
  · -- the new place itself: what has children is a directory
    obtain ⟨hnil, hseen⟩ := not_or.1 hold
    have hplace : dir = names ++ [name] := by
      rcases List.mem_append.1 (hdir.resolve_left hnil) with hmem | hmem
      · exact absurd hmem hseen
      · exact List.mem_singleton.1 hmem
    subst hplace
    rw [← List.append_assoc] at hchild
    have hdirectory : fs.node? (here ++ (names ++ [name])) = some .directory :=
      fs.parent _ _ _ hchild
    rw [hnode] at hdirectory
    refine .inl (List.mem_append_right _ ?_)
    rw [← hmore, if_pos (Option.some.inj hdirectory)]
    exact List.mem_singleton_self _

/-- An entry that is a file or a directory is listed, and a directory is to be read. -/
theorem Walked.list
    (h : Walked sha256 rootPath fs base here walk seen pending ((names ++ [name]) :: todo))
    (hnode : fs.node? (here ++ (names ++ [name])) = some node)
    (hentry : entryOf sha256 rootPath (names ++ [name], node) = some entry)
    (hdepth : (names ++ [name]).length ≤ artifactMaxDepth)
    (totalBytes : ℕ) {more : List (List Name)}
    (hmore : (if node = .directory then [names ++ [name]] else []) = more) :
    Walked sha256 rootPath fs base here
      { walk with
        queue := walk.queue ++ more.map fun names => (placeBelow base names, names)
        files := walk.files ++ [entry]
        totalBytes }
      (seen ++ [names ++ [name]]) (pending ++ more) todo := by
  have hnew : names ++ [name] ∉ seen := fun hmem => h.not_known (.inr hmem)
  have htodo : names ++ [name] ∉ todo := (List.nodup_cons.1 h.todoNodup).1
  have hmoreEq := mem_more hmore
  have hknown (place : List Name) (hplace : place = [] ∨ place ∈ seen) :
      place = [] ∨ place ∈ seen ++ [names ++ [name]] :=
    hplace.imp_right (List.mem_append_left _)
  constructor
  case queue => rw [h.queue, List.map_append]
  case files =>
    have hrecorded : recorded sha256 rootPath fs here (names ++ [name]) = some entry := by
      rw [recorded, hnode]
      exact hentry
    rw [h.files, List.filterMap_append]
    simp [hrecorded]
  case seenNodup =>
    refine List.nodup_append.2 ⟨h.seenNodup, List.nodup_singleton _, ?_⟩
    rintro place hplace _ hsingle rfl
    exact hnew (List.mem_singleton.1 hsingle ▸ hplace)
  case pendingNodup =>
    refine List.nodup_append.2 ⟨h.pendingNodup, ?_, ?_⟩
    · rw [← hmore]
      split <;> simp
    · rintro place hplace _ hplace' rfl
      rw [(hmoreEq place hplace').1] at hplace
      exact h.not_known (h.pendingKnown _ hplace)
  case todoNodup => exact (List.nodup_cons.1 h.todoNodup).2
  case seenBelow =>
    intro place hplace
    rcases List.mem_append.1 hplace with hplace | hplace
    · exact h.seenBelow place hplace
    · rw [List.mem_singleton.1 hplace]
      simp
  case parents =>
    intro dir child hmem
    rcases List.mem_append.1 hmem with hmem | hmem
    · exact hknown dir (h.parents dir child hmem)
    · rw [(List.append_inj' (List.mem_singleton.1 hmem) rfl).1]
      exact hknown names (h.todoKnown names name List.mem_cons_self)
  case pendingKnown =>
    intro dir hdir
    rcases List.mem_append.1 hdir with hdir | hdir
    · exact hknown dir (h.pendingKnown dir hdir)
    · rw [(hmoreEq dir hdir).1]
      exact .inr (List.mem_append_right _ (List.mem_singleton_self _))
  case pendingDirectory =>
    intro dir hdir
    rcases List.mem_append.1 hdir with hdir | hdir
    · exact h.pendingDirectory dir hdir
    · obtain ⟨rfl, rfl⟩ := hmoreEq dir hdir
      exact hnode
  case pendingFresh => exact h.fresh_list hmore
  case todoFresh =>
    intro place hplace hmem
    rcases List.mem_append.1 hmem with hmem | hmem
    · exact h.todoFresh place (List.mem_cons_of_mem _ hplace) hmem
    · exact htodo (List.mem_singleton.1 hmem ▸ hplace)
  case todoKnown =>
    exact fun dir child hmem => hknown dir (h.todoKnown dir child (List.mem_cons_of_mem _ hmem))
  case covered =>
    exact fun _ _ _ hdir hchild => h.covered_list hnode hdepth hmore hdir hchild

/-- The next directory is read. -/
theorem Walked.read {queue : List (Path × List Name)} {entries : List Name}
    (h : Walked sha256 rootPath fs base here walk seen (names :: pending) [])
    (hqueue : queue = pending.map fun names => (placeBelow base names, names))
    (hentries : ∀ name, name ∈ entries ↔ fs.node? (here ++ (names ++ [name])) ≠ none)
    (hnodup : entries.Nodup) :
    Walked sha256 rootPath fs base here { walk with queue } seen pending
      (entries.map fun name => names ++ [name]) := by
  obtain ⟨hnot, hpending⟩ := List.nodup_cons.1 h.pendingNodup
  have htodo : ∀ dir child, dir ++ [child] ∈ (entries.map fun name => names ++ [name]) →
      dir = names := by
    intro dir child hmem
    obtain ⟨name, -, heq⟩ := List.mem_map.1 hmem
    exact (List.append_inj' heq.symm rfl).1
  refine { h with
    queue := hqueue
    pendingNodup := hpending
    todoNodup := hnodup.map fun name name' heq =>
      List.singleton_inj.1 (List.append_cancel_left heq)
    pendingKnown := fun dir hdir => h.pendingKnown dir (List.mem_cons_of_mem _ hdir)
    pendingDirectory := fun dir hdir => h.pendingDirectory dir (List.mem_cons_of_mem _ hdir)
    pendingFresh := fun dir hdir child => ⟨?_, fun hmem => ?_⟩
    todoFresh := fun place hplace => ?_
    todoKnown := fun dir child hmem => ?_
    covered := fun dir child node hknown hchild => ?_ }
  · exact (h.pendingFresh dir (List.mem_cons_of_mem _ hdir) child).1
  · exact hnot (htodo dir child hmem ▸ hdir)
  · obtain ⟨name, -, rfl⟩ := List.mem_map.1 hplace
    exact (h.pendingFresh names List.mem_cons_self name).1
  · rw [htodo dir child hmem]
    exact h.pendingKnown names List.mem_cons_self
  · obtain hmem | hmem | hdone := h.covered dir child node hknown hchild
    · rcases List.mem_cons.1 hmem with rfl | hmem
      · refine .inr (.inl (List.mem_map_of_mem ((hentries child).2 ?_)))
        rw [hchild]
        exact Option.some_ne_none _
      · exact .inl hmem
    · exact absurd hmem List.not_mem_nil
    · exact .inr (.inr hdone)

/-- Nothing is listed before the root is read. -/
theorem walked_start (hroot : fs.node? here = some .directory) :
    Walked sha256 rootPath fs base here { queue := [(base, [])] } [] [[]] [] where
  queue := rfl
  files := rfl
  seenNodup := List.nodup_nil
  pendingNodup := List.nodup_singleton _
  todoNodup := List.nodup_nil
  seenBelow _ h := absurd h List.not_mem_nil
  parents _ _ h := absurd h List.not_mem_nil
  pendingKnown _ h := .inl (List.mem_singleton.1 h)
  pendingDirectory _ h := by
    rw [List.mem_singleton.1 h, List.append_nil]
    exact hroot
  pendingFresh _ _ _ := ⟨List.not_mem_nil, List.not_mem_nil⟩
  todoFresh _ h := absurd h List.not_mem_nil
  todoKnown _ _ h := absurd h List.not_mem_nil
  covered names _ _ hknown _ := by
    rcases hknown with rfl | h
    · exact .inl (List.mem_singleton_self _)
    · exact absurd h List.not_mem_nil

/-- **When no directory is left, all is listed.** -/
theorem Walked.all (h : Walked sha256 rootPath fs base here walk seen [] [])
    (hnode : fs.node? (here ++ names) = some node) (hne : names ≠ []) :
    names.length ≤ artifactMaxDepth ∧ (node.isLink = false → names ∈ seen) := by
  induction names using List.reverseRecOn generalizing node with
  | nil => exact absurd rfl hne
  | append_singleton names last ih =>
    have hparent : fs.node? (here ++ names) = some .directory := by
      rw [← List.append_assoc] at hnode
      exact fs.parent _ _ _ hnode
    have hknown : names = [] ∨ names ∈ seen := by
      by_cases hnil : names = []
      · exact .inl hnil
      · exact .inr ((ih hparent hnil).2 rfl)
    obtain hmem | hmem | hdone := h.covered names last node hknown hnode
    · exact absurd hmem List.not_mem_nil
    · exact absurd hmem List.not_mem_nil
    · exact hdone

theorem Walked.nodup_files (h : Walked sha256 rootPath fs base here walk seen pending todo) :
    walk.files.Nodup := by
  rw [h.files]
  exact h.seenNodup.filterMap fun names names' entry h h' => recorded_inj h h'

theorem Walked.files_subset (h : Walked sha256 rootPath fs base here walk seen pending todo) :
    walk.files ⊆ listing sha256 rootPath fs here := by
  intro file hmem
  rw [h.files] at hmem
  obtain ⟨names, hseen, hrecorded⟩ := List.mem_filterMap.1 hmem
  exact mem_listing.2 ⟨names, h.seenBelow names hseen, hrecorded⟩

theorem Walked.files_perm (h : Walked sha256 rootPath fs base here walk seen [] []) :
    walk.files.Perm (listing sha256 rootPath fs here) := by
  rw [List.perm_ext_iff_of_nodup h.nodup_files nodup_listing]
  intro file
  refine ⟨fun hmem => h.files_subset hmem, fun hmem => ?_⟩
  obtain ⟨names, hne, hrecorded⟩ := mem_listing.1 hmem
  obtain ⟨node, hnode, hentry⟩ := Option.bind_eq_some_iff.1 hrecorded
  have hlink : node.isLink = false := by
    have hsome : (entryOf sha256 rootPath (names, node)).isSome = !node.isLink := isSome_entryOf
    rw [hentry] at hsome
    simpa using hsome
  rw [h.files]
  exact List.mem_filterMap.2 ⟨names, (h.all hnode hne).2 hlink, hrecorded⟩

theorem Walked.subperm (h : Walked sha256 rootPath fs base here walk seen pending todo) :
    walk.files.Subperm (listing sha256 rootPath fs here) :=
  List.subperm_of_subset h.nodup_files h.files_subset

/-- A walk has gone on without an error, or with one because not all fits the caps. -/
def Advanced (sha256 : List UInt8 → String) (rootPath : String) (fs : FileSystem) (base : Path)
    (here : List Name) (walk : BaselineWalk) (todo : List (List Name)) : Prop :=
  (walk.diagnostics ≠ [] ∧ ¬ Fits sha256 rootPath fs here) ∨
    (walk.diagnostics = [] ∧
      ∃ seen pending, Walked sha256 rootPath fs base here walk seen pending todo)

variable {args : P2pArtifactBaselineCaptureArgs} {localeCompare : Collation} {disk : Disk}

theorem advanced_truncate (hnot : ¬ Fits sha256 rootPath fs here) (fieldPath summary : String) :
    Advanced sha256 rootPath fs base here (walk.truncate fieldPath summary) todo :=
  .inl ⟨by simp [BaselineWalk.truncate], hnot⟩

/-- A file is listed, or not all fits. -/
theorem advanced_captureFile {bytes : List UInt8} (hshows : disk.Shows base here)
    (h : Walked sha256 args.rootPath disk.files base here walk seen pending
      ((names ++ [name]) :: todo))
    (hnode : disk.files.node? (here ++ (names ++ [name])) = some (.file bytes))
    (hdepth : (names ++ [name]).length ≤ artifactMaxDepth) (hcapped : Capped walk)
    (hclean : walk.diagnostics = []) :
    Advanced sha256 args.rootPath disk.files base here
      ((captureFile sha256 args walk (base.join (names ++ [name])) (names ++ [name])
        bytes.length).run Disk.perform disk).1 todo := by
  have hlisted := h.list hnode rfl hdepth (walk.totalBytes + bytes.length) (if_neg (by simp))
  have hsub := hlisted.subperm
  have hmem := hlisted.files_subset (List.mem_append_right _ (List.mem_singleton_self _))
  unfold captureFile
  split
  · rename_i hcount
    refine advanced_truncate (fun hfits => ?_) _ _
    have hlength := hsub.length_le
    have hmax := hfits.count
    rw [List.length_append, List.length_singleton] at hlength
    omega
  · split
    · rename_i hsize
      refine .inl ⟨by simp, fun hfits => ?_⟩
      exact absurd (hfits.size _ hmem) (not_le.2 hsize)
    · split
      · rename_i hbytes
        refine advanced_truncate (fun hfits => ?_) _ _
        have hle := (listedBytes_le hsub).trans hfits.bytes
        have htotal := hcapped.total
        unfold listedBytes at hle htotal
        rw [List.map_append, List.sum_append, htotal] at hle
        simp only [List.map_cons, List.map_nil, List.sum_cons, List.sum_nil, add_zero] at hle
        omega
      · rw [Program.run_request]
        rw [hshows.readFile_answer hnode, Program.run_done]
        rw [List.map_nil, List.append_nil, List.append_nil] at hlisted
        exact .inr ⟨hclean, _, _, hlisted⟩

theorem advanced_captureDirectory
    (h : Walked sha256 args.rootPath fs base here walk seen pending ((names ++ [name]) :: todo))
    (hnode : fs.node? (here ++ (names ++ [name])) = some .directory)
    (hdepth : (names ++ [name]).length ≤ artifactMaxDepth) (hclean : walk.diagnostics = []) :
    Advanced sha256 args.rootPath fs base here
      (captureDirectory args walk (base.join (names ++ [name])) (names ++ [name])) todo := by
  have hlisted := h.list hnode rfl hdepth walk.totalBytes (if_pos rfl)
  unfold captureDirectory
  split
  · rename_i hcount
    refine advanced_truncate (fun hfits => ?_) _ _
    have hlength := hlisted.subperm.length_le
    have hmax := hfits.count
    rw [List.length_append, List.length_singleton] at hlength
    omega
  · rw [List.map_singleton, placeBelow_concat] at hlisted
    exact .inr ⟨hclean, _, _, hlisted⟩

/-- **An entry is listed**, if it is no link, or not all fits. -/
theorem advanced_captureEntry (hshows : disk.Shows base here)
    (h : Walked sha256 args.rootPath disk.files base here walk seen pending
      ((names ++ [name]) :: todo))
    (hthere : disk.files.node? (here ++ (names ++ [name])) ≠ none) (hcapped : Capped walk)
    (hclean : walk.diagnostics = []) :
    Advanced sha256 args.rootPath disk.files base here
      ((captureEntry sha256 args (placeBelow base names, names) walk name).run Disk.perform disk).1
      todo := by
  obtain ⟨node, hnode⟩ := Option.ne_none_iff_exists'.1 hthere
  unfold captureEntry
  dsimp only
  split
  · rename_i hdepth
    refine advanced_truncate (fun hfits => ?_) _ _
    have hle := hfits.depth _ (mem_below.2 ⟨List.append_ne_nil_of_right_ne_nil _ (by simp), hnode⟩)
    exact absurd hle (not_le.2 hdepth)
  · rename_i hdepth
    rw [not_lt] at hdepth
    rw [Program.run_request, join_placeBelow]
    rw [hshows.lstat_answer hnode, Disk.perform_lstat_snd]
    cases node with
    | link target =>
      have hskipped := h.skip hnode rfl hdepth
      dsimp only
      split
      · exact .inr ⟨hclean, _, _, hskipped⟩
      · exact .inr ⟨hclean, _, _, hskipped⟩
    | directory => exact advanced_captureDirectory h hnode hdepth hclean
    | file bytes => exact advanced_captureFile hshows h hnode hdepth hcapped hclean

/-! ### The loops -/

theorem asks_captureFile (childAbsolute : Path) (size : ℕ) :
    (captureFile sha256 args walk childAbsolute names size).Asks FileRequest.IsRead := by
  unfold captureFile
  split
  · trivial
  · split
    · trivial
    · split
      · trivial
      · refine ⟨trivial, fun contents => ?_⟩
        cases contents <;> trivial

theorem asks_captureEntry (item : Path × List Name) (name : Name) :
    (captureEntry sha256 args item walk name).Asks FileRequest.IsRead := by
  unfold captureEntry
  dsimp only
  split
  · trivial
  · refine ⟨trivial, fun stat => ?_⟩
    dsimp only
    split
    · trivial
    · split
      · trivial
      · exact ⟨trivial, fun _ => trivial⟩
    · trivial
    · exact asks_captureFile _ _

theorem asks_captureEntries (item : Path × List Name) (entries : List Name) :
    (captureEntries sha256 args item entries walk).Asks FileRequest.IsRead := by
  induction entries generalizing walk with
  | nil => trivial
  | cons name entries ih =>
    refine Program.asks_bind (asks_captureEntry item name) fun walk => ?_
    split
    · trivial
    · exact ih

theorem diagnostics_ne_nil_of_goesOn {walk' : BaselineWalk} (h : GoesOn walk walk')
    (hne : walk.diagnostics ≠ []) : walk'.diagnostics ≠ [] := by
  intro hnil
  exact hne (List.prefix_nil.1 (hnil ▸ h.diagnostics))

theorem Capped.going (h : Capped walk) (hclean : walk.diagnostics = []) :
    walk.truncated = false := by
  by_contra hnot
  exact h.error (by simpa using hnot) hclean

/-- What follows a part of a walk, unless it was truncated. -/
theorem Advanced.next {todo' : List (List Name)} {next : FileProgram BaselineWalk}
    (h : Advanced sha256 rootPath disk.files base here walk todo) (hcapped : Capped walk)
    (hon : walk.truncated = false → GoesOn walk (next.run Disk.perform disk).1)
    (hclean : ∀ seen pending, walk.diagnostics = [] →
      Walked sha256 rootPath disk.files base here walk seen pending todo →
        Advanced sha256 rootPath disk.files base here (next.run Disk.perform disk).1 todo') :
    Advanced sha256 rootPath disk.files base here
      ((if walk.truncated then .done walk else next).run Disk.perform disk).1 todo' := by
  rcases h with ⟨hne, hnot⟩ | ⟨hnil, seen, pending, h⟩
  · refine .inl ⟨?_, hnot⟩
    split
    · exact hne
    · rename_i hgoing
      exact diagnostics_ne_nil_of_goesOn (hon (by simpa using hgoing)) hne
  · rw [if_neg (by simp [hcapped.going hnil])]
    exact hclean seen pending hnil h

theorem captureEntry_run (h : Capped walk) (item : Path × List Name) (name : Name) :
    Capped ((captureEntry sha256 args item walk name).run Disk.perform disk).1 := by
  have hensures : (captureEntry sha256 args item walk name).Ensures
      (fun _ walk' => Capped walk' ∧ GoesOn walk walk') [] := ensures_captureEntry h item name
  exact (hensures.run Disk.perform disk).1

theorem captureEntries_run (h : Capped walk) (item : Path × List Name) (entries : List Name) :
    Capped ((captureEntries sha256 args item entries walk).run Disk.perform disk).1 ∧
      GoesOn walk ((captureEntries sha256 args item entries walk).run Disk.perform disk).1 := by
  have hensures : (captureEntries sha256 args item entries walk).Ensures
      (fun _ walk' => Capped walk' ∧ GoesOn walk walk') [] := ensures_captureEntries h item entries
  exact hensures.run Disk.perform disk

theorem captureQueue_run (h : Capped walk) (hgoing : walk.truncated = false) {fuel : ℕ}
    (hfuel : walk.room ≤ fuel) :
    Capped ((captureQueue localeCompare sha256 args fuel walk).run Disk.perform disk).1 ∧
      GoesOn walk ((captureQueue localeCompare sha256 args fuel walk).run Disk.perform disk).1 ∧
        (((captureQueue localeCompare sha256 args fuel walk).run Disk.perform disk).1.truncated =
            false →
          ((captureQueue localeCompare sha256 args fuel walk).run Disk.perform disk).1.queue =
            []) := by
  have hensures : (captureQueue localeCompare sha256 args fuel walk).Ensures
      (fun _ walk' => Capped walk' ∧ GoesOn walk walk' ∧
        (walk'.truncated = false → walk'.queue = [])) [] := ensures_captureQueue h hgoing hfuel
  exact hensures.run Disk.perform disk

/-- The entries of a directory are listed, or not all fits. -/
theorem advanced_captureEntries (hshows : disk.Shows base here) (entries : List Name)
    (h : Walked sha256 args.rootPath disk.files base here walk seen pending
      (entries.map fun name => names ++ [name]))
    (hthere : ∀ name ∈ entries, disk.files.node? (here ++ (names ++ [name])) ≠ none)
    (hcapped : Capped walk) (hclean : walk.diagnostics = []) :
    Advanced sha256 args.rootPath disk.files base here
      ((captureEntries sha256 args (placeBelow base names, names) entries walk).run
        Disk.perform disk).1 [] := by
  induction entries generalizing walk seen pending with
  | nil => exact .inr ⟨hclean, _, _, h⟩
  | cons name entries ih =>
    rw [captureEntries, Program.run_bind,
      (asks_captureEntry _ _).run_snd Disk.perform_isRead]
    refine (advanced_captureEntry hshows h (hthere name List.mem_cons_self) hcapped hclean).next
      (captureEntry_run hcapped _ _) (fun _ => ?_) fun seen' pending' hclean' h' => ?_
    · exact (captureEntries_run (captureEntry_run hcapped _ _) _ _).2
    · exact ih h' (fun name' hname' => hthere name' (List.mem_cons_of_mem _ hname'))
        (captureEntry_run hcapped _ _) hclean'

theorem mem_sortedNames {entries : List Name} :
    name ∈ sortedNames localeCompare entries ↔ name ∈ entries :=
  (List.perm_insertionSort _ _).mem_iff

theorem nodup_sortedNames {entries : List Name} (h : entries.Nodup) :
    (sortedNames localeCompare entries).Nodup :=
  (List.perm_insertionSort _ _).nodup_iff.2 h

/-- All directories are read, or not all fits. -/
theorem advanced_captureQueue (hshows : disk.Shows base here) {fuel : ℕ}
    (h : Walked sha256 args.rootPath disk.files base here walk seen pending [])
    (hcapped : Capped walk) (hclean : walk.diagnostics = []) (hfuel : walk.room ≤ fuel) :
    Advanced sha256 args.rootPath disk.files base here
      ((captureQueue localeCompare sha256 args fuel walk).run Disk.perform disk).1 [] := by
  induction fuel generalizing walk seen pending with
  | zero => exact .inr ⟨hclean, _, _, h⟩
  | succ fuel ih =>
    rw [captureQueue]
    cases pending with
    | nil =>
      have hqueue : walk.queue = [] := h.queue
      rw [hqueue]
      exact .inr ⟨hclean, _, _, h⟩
    | cons names pending =>
      have hqueue : walk.queue = (placeBelow base names, names) ::
          pending.map fun names => (placeBelow base names, names) := h.queue
      rw [hqueue]
      dsimp only
      rw [Program.run_request]
      rw [hshows.readdir_answer (h.pendingDirectory names List.mem_cons_self),
        Disk.perform_readdir_snd]
      dsimp only
      rw [Program.run_bind, (asks_captureEntries _ _).run_snd Disk.perform_isRead]
      have hthere : ∀ name, name ∈ sortedNames localeCompare (disk.files.children (here ++ names)) ↔
          disk.files.node? (here ++ (names ++ [name])) ≠ none := by
        intro name
        rw [mem_sortedNames, mem_children, List.append_assoc]
      have hread := h.read rfl hthere (nodup_sortedNames nodup_children)
      have hcappedRead : Capped { walk with
          queue := pending.map fun names => (placeBelow base names, names) } := { hcapped with }
      have hroom : BaselineWalk.room { walk with
          queue := pending.map fun names => (placeBelow base names, names) } ≤ fuel := by
        unfold BaselineWalk.room at hfuel ⊢
        rw [hqueue, List.length_cons] at hfuel
        dsimp only
        omega
      have hentries := @captureEntries_run sha256 _ args disk hcappedRead
        (placeBelow base names, names)
        (sortedNames localeCompare (disk.files.children (here ++ names)))
      have hroom' := hentries.2.room.trans hroom
      refine (advanced_captureEntries hshows _ hread (fun name => (hthere name).1)
        hcappedRead hclean).next hentries.1 (fun hgoing => ?_) fun seen' pending' hclean' h' => ?_
      · exact (captureQueue_run hentries.1 hgoing hroom').2.1
      · exact ih h' hentries.1 hclean' hroom'

/-! ## The root -/

/-- What a call lists if it gives no error. -/
def rootListing (sha256 : List UInt8 → String) (rootPath : String) (fs : FileSystem)
    (path : Path) : List P2pArtifactBaselineFile :=
  match fs.lstat path, fs.realpath path with
  | .ok .directory, .ok here => listing sha256 rootPath fs here
  | .ok (.file bytes), _ =>
    [{ relativePath := rootPath, size := bytes.length, sha256 := sha256 bytes, type := .file }]
  | _, _ => []

/-- What is at the root of a call and below it fits the caps, and no link is there that the call
rejects. -/
def RootFits (sha256 : List UInt8 → String) (args : P2pArtifactBaselineCaptureArgs)
    (fs : FileSystem) (path : Path) : Prop :=
  match fs.lstat path, fs.realpath path with
  | .ok .directory, .ok here => Fits sha256 args.rootPath fs here
  | .ok (.file bytes), _ => bytes.length ≤ artifactMaxFileBytes
  | .ok (.link _), _ => args.symlinkPolicy = some .allowExistingUnderRoot
  | _, _ => True

/-- What the check of a path says on a disk. -/
def checkedOn (disk : Disk) (options : P2pArtifactRuntimePathOptions) :
    Outcome P2pArtifactRuntimePath :=
  ((validateP2pArtifactRuntimePath options).run Disk.perform disk).1

/-- What a call gives on a disk. -/
def captured (localeCompare : Collation) (sha256 : List UInt8 → String)
    (args : P2pArtifactBaselineCaptureArgs) (disk : Disk) :
    Except Errno P2pArtifactBaselineCaptureResult :=
  ((captureP2pArtifactBaseline localeCompare sha256 args).run Disk.perform disk).1

/-- Where an accepted path leads to something that is no link. -/
theorem realpath_of_lstat {options : P2pArtifactRuntimePathOptions}
    (h : Workflow.isP2pArtifactRelativePath options.relativePath = true)
    (hlstat : fs.lstat options.absolutePath = .ok node) (hlink : ∀ target, node ≠ .link target) :
    ∃ here, fs.realpath options.absolutePath = .ok here ∧ fs.node? here = some node := by
  obtain ⟨segments, last, hsegments, hlast⟩ := exists_last_absolutePath h
  unfold FileSystem.lstat locate at hlstat
  rw [hsegments, List.getLast?_concat] at hlstat
  dsimp only at hlstat
  rw [if_pos hlast, List.dropLast_concat] at hlstat
  cases hwalk : fs.walk (fs.start options.absolutePath) segments with
  | error e =>
    rw [hwalk] at hlstat
    cases hlstat
  | ok above =>
    rw [hwalk] at hlstat
    dsimp only at hlstat
    by_cases habove : fs.node? above = some .directory
    · rw [if_pos habove] at hlstat
      dsimp only at hlstat
      cases hnode : fs.node? (above ++ [last]) with
      | none =>
        rw [hnode] at hlstat
        cases hlstat
      | some node' =>
        rw [hnode] at hlstat
        obtain rfl := Except.ok.inj hlstat
        refine ⟨above ++ [last], ?_, hnode⟩
        rw [realpath_absolutePath h, hsegments, walk_append, hwalk]
        dsimp only
        rw [walk_name habove hlast hnode hlink, walk_nil]
    · rw [if_neg habove] at hlstat
      cases hlstat

/-- An accepted path to a directory stands for it. -/
theorem stands_of_lstat {options : P2pArtifactRuntimePathOptions}
    (h : Workflow.isP2pArtifactRelativePath options.relativePath = true)
    (hlstat : fs.lstat options.absolutePath = .ok .directory) :
    ∃ here, Stands fs options.absolutePath here := by
  obtain ⟨here, hreal, hnode⟩ := realpath_of_lstat h hlstat (by simp)
  refine ⟨here, hreal, ?_, hnode⟩
  have hnormal : options.absolutePath.join [] = options.absolutePath := by
    rw [P2pArtifactRuntimePathOptions.absolutePath, Path.join_join, List.append_nil]
  rw [Path.join, List.append_nil] at hnormal
  rw [hnormal, ← realpath_absolutePath h]
  exact hreal

/-- A result has no errors exactly when all fits, and then it lists these files. -/
structure Reports (result : P2pArtifactBaselineCaptureResult) (fits : Prop)
    (files : List P2pArtifactBaselineFile) : Prop where
  errors : ∀ diagnostic ∈ result.diagnostics, diagnostic.isError = true
  clean : result.diagnostics = [] ↔ fits
  going : fits → result.baseline.truncated = false
  perm : fits → result.baseline.files.Perm files

theorem Reports.of_not {result : P2pArtifactBaselineCaptureResult} {fits : Prop}
    {files : List P2pArtifactBaselineFile}
    (herrors : ∀ diagnostic ∈ result.diagnostics, diagnostic.isError = true)
    (hne : result.diagnostics ≠ []) (hnot : ¬ fits) : Reports result fits files :=
  ⟨herrors, ⟨fun hnil => absurd hnil hne, fun hfits => absurd hfits hnot⟩,
    fun hfits => absurd hfits hnot, fun hfits => absurd hfits hnot⟩

theorem Reports.of_fits {result : P2pArtifactBaselineCaptureResult} {fits : Prop}
    {files : List P2pArtifactBaselineFile} (hnil : result.diagnostics = [])
    (hgoing : result.baseline.truncated = false) (hperm : result.baseline.files.Perm files)
    (hfits : fits) : Reports result fits files := by
  refine ⟨fun diagnostic hmem => ?_, ⟨fun _ => hfits, fun _ => hnil⟩, fun _ => hgoing,
    fun _ => hperm⟩
  rw [hnil] at hmem
  exact absurd hmem List.not_mem_nil

/-- **All below a directory is listed**, or there is an error because not all fits. -/
theorem reports_captureQueue (hshows : disk.Shows base here) :
    Reports (((captureQueue localeCompare sha256 args captureFuel { queue := [(base, [])] }).run
        Disk.perform disk).1.result localeCompare args)
      (Fits sha256 args.rootPath disk.files here)
      (listing sha256 args.rootPath disk.files here) := by
  have hadvanced : Advanced sha256 args.rootPath disk.files base here
      ((captureQueue localeCompare sha256 args captureFuel { queue := [(base, [])] }).run
        Disk.perform disk).1 [] :=
    advanced_captureQueue hshows (walked_start hshows.stands.isDirectory) (capped_start base) rfl
      le_rfl
  have hrun := @captureQueue_run sha256 _ args localeCompare disk (capped_start base) rfl
    captureFuel le_rfl
  revert hadvanced hrun
  generalize ((captureQueue localeCompare sha256 args captureFuel { queue := [(base, [])] }).run
    Disk.perform disk).1 = walk
  rintro hadvanced ⟨hcapped, -, hend⟩
  rcases hadvanced with ⟨hne, hnot⟩ | ⟨hclean, seen, pending, h⟩
  · exact .of_not hcapped.errors hne hnot
  · have hgoing := hcapped.going hclean
    have hpending : pending = [] := by
      have hqueue := h.queue
      rw [hend hgoing] at hqueue
      exact List.map_eq_nil_iff.1 hqueue.symm
    subst hpending
    have hperm := h.files_perm
    have hfits : Fits sha256 args.rootPath disk.files here := by
      refine ⟨fun entry hentry => ?_, hperm.length_eq ▸ hcapped.count, fun file hfile =>
        hcapped.size file (hperm.mem_iff.2 hfile), ?_⟩
      · obtain ⟨hne, hnode⟩ := mem_below.1 hentry
        exact (h.all hnode hne).1
      · rw [← listedBytes_eq_of_perm hperm, hcapped.total]
        exact hcapped.bytes
    refine .of_fits hclean hgoing ?_ hfits
    simp only [BaselineWalk.result, hgoing, Bool.false_eq_true, if_false]
    exact (sortedFiles_perm _).trans hperm

theorem errors_singleton {diagnostic : P2pArtifactDiagnostic} (h : diagnostic.isError = true) :
    ∀ diagnostic' ∈ [diagnostic], diagnostic'.isError = true := by
  intro diagnostic' hmem
  rwa [List.mem_singleton.1 hmem]

theorem reports_captureRoot {options : P2pArtifactRuntimePathOptions}
    (h : Workflow.isP2pArtifactRelativePath options.relativePath = true)
    (hreadable : disk.Readable options.absolutePath) :
    Reports ((captureRoot localeCompare sha256 args options.absolutePath).run Disk.perform disk).1
      (RootFits sha256 args disk.files options.absolutePath)
      (rootListing sha256 args.rootPath disk.files options.absolutePath) := by
  have hstat : (Disk.perform (.lstat options.absolutePath) disk).1 =
      disk.files.lstat options.absolutePath := Disk.perform_answer (hreadable.lstat [] nofun)
  unfold captureRoot RootFits rootListing
  rw [Program.run_request, hstat, Disk.perform_lstat_snd]
  cases hlstat : disk.files.lstat options.absolutePath with
  | error e => exact .of_fits rfl rfl (.refl _) trivial
  | ok node =>
    cases node with
    | link target =>
      dsimp only
      split
      · rename_i hpolicy
        exact .of_not (errors_singleton rfl) (List.cons_ne_nil _ _) hpolicy
      · rename_i hpolicy
        exact .of_fits rfl rfl (.refl _) (not_not.1 hpolicy)
    | file bytes =>
      obtain ⟨here, hreal, hnode⟩ := realpath_of_lstat h hlstat (by simp)
      have hread : (Disk.perform (.readFile options.absolutePath) disk).1 = .ok bytes := by
        refine (Disk.perform_answer (hreadable.readFile [] nofun)).trans ?_
        simp only [FileSystem.perform, placeBelow, if_true, FileSystem.readFile, hreal]
        rw [hnode]
      dsimp only
      rw [Program.run_bind, captureFileEntry, Program.run_request, hstat, hlstat,
        Disk.perform_lstat_snd]
      dsimp only
      split
      · rename_i hsize
        exact .of_not (errors_singleton rfl) (List.cons_ne_nil _ _) (not_le.2 hsize)
      · rename_i hsize
        rw [Program.run_request, hread]
        exact .of_fits rfl rfl (.refl _) (not_lt.1 hsize)
    | directory =>
      obtain ⟨here, hstands⟩ := stands_of_lstat h hlstat
      rw [hstands.realpath]
      dsimp only
      rw [Program.run_bind]
      exact reports_captureQueue ⟨hstands, hreadable⟩

/-- The check of the path throws. -/
def Throws (args : P2pArtifactBaselineCaptureArgs) (disk : Disk) : Prop :=
  ∃ e, checkedOn disk args.pathOptions = .error e

/-- The path is accepted, and all that is there fits. -/
def AllFits (sha256 : List UInt8 → String) (args : P2pArtifactBaselineCaptureArgs)
    (disk : Disk) : Prop :=
  (∃ runtimePath, checkedOn disk args.pathOptions = .ok (.ok runtimePath)) ∧
    RootFits sha256 args disk.files args.pathOptions.absolutePath

/-! ## Calls -/

section Refusals

variable {options : P2pArtifactRuntimePathOptions}
  {answers : Program.Answers FileRequest FileRequest.Answer}

/-- A refusal comes with an error. -/
def SaysWhy {α : Type} (outcome : Outcome α) : Prop :=
  ∀ diagnostics, outcome = .ok (.error diagnostics) →
    diagnostics ≠ [] ∧ ∀ diagnostic ∈ diagnostics, diagnostic.isError = true

theorem saysWhy_invalid {α : Type} (fieldPath : String) (summary : Option String) :
    SaysWhy (Outcome.invalid fieldPath summary : Outcome α) := by
  rintro diagnostics ⟨⟩
  exact ⟨List.cons_ne_nil _ _, errors_singleton rfl⟩

theorem saysWhy_error {α : Type} (e : Errno) : SaysWhy (.error e : Outcome α) :=
  fun _ h => by cases h

theorem saysWhy_ok {α : Type} (a : α) : SaysWhy (.ok (.ok a) : Outcome α) := fun _ h => by cases h

/-- A refusal comes with an error, and what is accepted is the path itself. -/
structure Explained (options : P2pArtifactRuntimePathOptions)
    (outcome : Outcome P2pArtifactRuntimePath) : Prop where
  saysWhy : SaysWhy outcome
  absolutePath : ∀ runtimePath, outcome = .ok (.ok runtimePath) →
    runtimePath.absolutePath = options.absolutePath

theorem explained_error (e : Errno) : Explained options (.error e) :=
  ⟨saysWhy_error e, fun _ h => by cases h⟩

theorem explained_refused {diagnostics : List P2pArtifactDiagnostic}
    (h : SaysWhy (.ok (.error diagnostics) : Outcome P2pArtifactRuntimePath)) :
    Explained options (.ok (.error diagnostics)) :=
  ⟨h, fun _ h => by cases h⟩

theorem explained_invalid (fieldPath : String) (summary : Option String) :
    Explained options (Outcome.invalid fieldPath summary) :=
  explained_refused (saysWhy_invalid fieldPath summary)

theorem ensures_checkComponents (repoRootRealPath : List Name)
    (artifactRootRealPath : Option (List Name)) (walked rest : List Name) (current : Path)
    (nearest : Path × List Name) :
    (checkComponents options repoRootRealPath artifactRootRealPath walked rest current
      nearest).Ensures (fun _ => SaysWhy) answers := by
  induction rest generalizing walked current nearest answers with
  | nil => exact saysWhy_ok _
  | cons segment rest ih =>
    intro stat
    dsimp only
    split
    · exact saysWhy_ok _
    · exact saysWhy_error _
    · split
      · exact saysWhy_invalid _ _
      · intro real
        dsimp only
        split
        · exact saysWhy_invalid _ _
        · split
          · exact saysWhy_invalid _ _
          · split
            · exact saysWhy_invalid _ _
            · exact ih _ _ _

theorem ensures_checkFinal (repoRootRealPath : List Name)
    (artifactRootRealPath : Option (List Name)) (nearest : Path × List Name) :
    (checkFinal options repoRootRealPath artifactRootRealPath nearest).Ensures
      (fun _ => Explained options) answers := by
  unfold checkFinal
  split
  · exact explained_invalid _ _
  · intro real
    dsimp only
    split
    · exact explained_invalid _ _
    · split
      · exact explained_invalid _ _
      · exact ⟨saysWhy_ok _, by rintro runtimePath ⟨⟩; rfl⟩

theorem ensures_checkBelow (repoRootRealPath : List Name)
    (artifactRootRealPath : Option (List Name)) :
    (checkBelow options repoRootRealPath artifactRootRealPath).Ensures
      (fun _ => Explained options) answers := by
  refine Program.ensures_bind.2 ((ensures_checkComponents _ _ _ _ _ _).imp ?_)
  intro answers outcome hwhy
  split
  · exact explained_error _
  · refine explained_refused ?_
    rintro diagnostics ⟨⟩
    exact hwhy _ rfl
  · exact ensures_checkFinal _ _ _

theorem ensures_validate (options : P2pArtifactRuntimePathOptions) :
    (validateP2pArtifactRuntimePath options).Ensures (fun _ => Explained options) answers := by
  unfold validateP2pArtifactRuntimePath
  split
  · refine explained_refused ?_
    rintro diagnostics ⟨⟩
    exact ⟨List.cons_ne_nil _ _, errors_singleton rfl⟩
  · intro real
    dsimp only
    split
    · exact explained_invalid _ _
    · split
      · exact ensures_checkBelow _ _
      · intro artifactRoot
        dsimp only
        split
        · exact explained_invalid _ _
        · split
          · exact explained_invalid _ _
          · exact ensures_checkBelow _ _

/-- Whatever a disk refuses, its check of a path explains itself. -/
theorem explained_checkedOn (disk : Disk) (options : P2pArtifactRuntimePathOptions) :
    Explained options (checkedOn disk options) := by
  have hensures : (validateP2pArtifactRuntimePath options).Ensures
      (fun _ => Explained options) [] := ensures_validate options
  exact hensures.run Disk.perform disk

theorem isRelative_of_checkedOn {runtimePath : P2pArtifactRuntimePath}
    (h : checkedOn disk options = .ok (.ok runtimePath)) :
    Workflow.isP2pArtifactRelativePath options.relativePath = true := by
  unfold checkedOn validateP2pArtifactRuntimePath at h
  split at h
  · cases h
  · rename_i hlexical
    simpa using hlexical

theorem run_checkedOn :
    (validateP2pArtifactRuntimePath options).run Disk.perform disk =
      (checkedOn disk options, disk) :=
  Prod.ext rfl ((asks_validateP2pArtifactRuntimePath options).run_snd Disk.perform_isRead disk)

end Refusals

/-- **What a call gives**, where nothing at the root or below it is refused.  It throws what the
check of its path throws.  Otherwise it gives no error exactly when the path is accepted and all
that is there fits the caps; then it lists all that is below a directory but links, each once, and
of a file the file itself. -/
theorem captured_spec (localeCompare : Collation) (sha256 : List UInt8 → String)
    (args : P2pArtifactBaselineCaptureArgs) (disk : Disk)
    (hreadable : disk.Readable args.pathOptions.absolutePath) :
    (∀ e, captured localeCompare sha256 args disk = .error e ↔
        checkedOn disk args.pathOptions = .error e) ∧
      ∀ result, captured localeCompare sha256 args disk = .ok result →
        Reports result (AllFits sha256 args disk)
          (rootListing sha256 args.rootPath disk.files args.pathOptions.absolutePath) := by
  have hrun : captured localeCompare sha256 args disk =
      ((captureChecked localeCompare sha256 args (checkedOn disk args.pathOptions)).run
        Disk.perform disk).1 := by
    rw [captured, captureP2pArtifactBaseline, Program.run_bind, run_checkedOn]
  have hexplained := explained_checkedOn disk args.pathOptions
  rw [hrun]
  cases hchecked : checkedOn disk args.pathOptions with
  | error e =>
    refine ⟨fun e' => ?_, fun result h => ?_⟩
    · rw [captureChecked, Program.run_done, Except.error.injEq, Except.error.injEq]
    · cases h
  | ok outcome =>
    cases outcome with
    | error diagnostics =>
      refine ⟨fun e' => ⟨fun h => (by cases h), fun h => (by cases h)⟩, ?_⟩
      rintro result ⟨⟩
      obtain ⟨hne, herrors⟩ := hexplained.saysWhy diagnostics hchecked
      have hnot : ¬ AllFits sha256 args disk := by
        rintro ⟨⟨runtimePath, hok⟩, -⟩
        rw [hchecked] at hok
        cases hok
      exact .of_not herrors hne hnot
    | ok runtimePath =>
      rw [captureChecked, Program.run_bind, hexplained.absolutePath runtimePath hchecked]
      refine ⟨fun e' => ⟨fun h => (by cases h), fun h => (by cases h)⟩, ?_⟩
      rintro result ⟨⟩
      have hreports := @reports_captureRoot sha256 args localeCompare disk args.pathOptions
        (isRelative_of_checkedOn hchecked) hreadable
      have hall : AllFits sha256 args disk ↔
          RootFits sha256 args disk.files args.pathOptions.absolutePath :=
        ⟨fun h => h.2, fun h => ⟨⟨runtimePath, hchecked⟩, h⟩⟩
      exact ⟨hreports.errors, hreports.clean.trans hall.symm, fun h => hreports.going (hall.1 h),
        fun h => hreports.perm (hall.1 h)⟩

/-- A repository in `/repo`: a directory `out` with some files and a link, and a directory `private`
that may not be looked at. -/
def repositoryWith (pages : List (String × List UInt8)) : Disk where
  files :=
    pages.foldl (fun files page =>
        files.add ["repo".toList, "out".toList] page.1.toList (.file page.2))
      ((((bare.add [] "repo".toList .directory).add ["repo".toList] "private".toList
        .directory).add ["repo".toList] "out".toList .directory).add
          ["repo".toList, "out".toList] "latest".toList (.link (.ofString "page")))
  refused
    | .lstat path | .readdir path | .readFile path =>
      if ["repo".toList, "private".toList] <+: path.segments then some .acces else none
    | _ => none

/-- The contents themselves, in the place of their hash. -/
def spelled (bytes : List UInt8) : String :=
  String.ofList (bytes.map fun byte => Char.ofNat byte.toNat)

def outArgs : P2pArtifactBaselineCaptureArgs where
  rootPath := "out"
  repoRoot := "/repo"
  phase := .baseline

theorem readable_repositoryWith (pages : List (String × List UInt8)) :
    (repositoryWith pages).Readable outArgs.pathOptions.absolutePath := by
  have hbeside (names : List Name) (hnames : ∀ name ∈ names, IsName name) :
      ¬ ["repo".toList, "private".toList] <+:
        (placeBelow outArgs.pathOptions.absolutePath names).segments := by
    have hout : outArgs.pathOptions.absolutePath.normalize.segments =
        ["repo".toList, "out".toList] := by decide
    unfold placeBelow
    split
    · decide
    · rw [Path.join_names hnames, hout]
      rintro ⟨rest, hrest⟩
      simp at hrest
  exact ⟨fun names hnames => if_neg (hbeside names hnames),
    fun names hnames => if_neg (hbeside names hnames),
    fun names hnames => if_neg (hbeside names hnames)⟩

def twoPages : Disk := repositoryWith [("page", [80, 81]), ("notes", [78])]

/-- Two files are listed, and no link. -/
theorem captured_spec_twoPages : ∃ result,
    captured Workflow.compareTexts spelled outArgs twoPages = .ok result ∧
      result.diagnostics = [] ∧
      result.baseline.files.Perm
        [{ relativePath := "out/page", size := 2, sha256 := "PQ", type := .file },
          { relativePath := "out/notes", size := 1, sha256 := "N", type := .file }] := by
  have hok : (captured Workflow.compareTexts spelled outArgs twoPages).toOption.map
      (·.diagnostics) = some [] := by decide +kernel
  cases hcaptured : captured Workflow.compareTexts spelled outArgs twoPages with
  | error e =>
    rw [hcaptured] at hok
    cases hok
  | ok result =>
    rw [hcaptured] at hok
    have hclean : result.diagnostics = [] := Option.some.inj hok
    have hreports := (captured_spec Workflow.compareTexts spelled outArgs twoPages
      (readable_repositoryWith _)).2 result hcaptured
    have hlisted : rootListing spelled outArgs.rootPath twoPages.files
        outArgs.pathOptions.absolutePath =
          [{ relativePath := "out/page", size := 2, sha256 := "PQ", type := .file },
            { relativePath := "out/notes", size := 1, sha256 := "N", type := .file }] := by
      decide +kernel
    exact ⟨result, rfl, hclean, hlisted ▸ hreports.perm (hreports.clean.1 hclean)⟩

end Imcodes.Artifacts
